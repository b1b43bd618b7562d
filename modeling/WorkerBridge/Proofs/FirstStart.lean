/-
  WorkerBridge.Proofs.FirstStart

  What the first worker is handed after a start has failed.

  A failed start drops all jobs that wait, while the documents that they opened stay
  open. A crash drops them too, but it also makes a replay due; a failed start does
  not. So the first worker that comes up after it, without an explicit restart, is
  handed what was submitted since the last failure and is still wanted (`standing`),
  and nothing else: a document that was opened before the failure does not reach it.
-/
import WorkerBridge.Proofs.Order

namespace WorkerBridge

namespace Moment

variable {m : Moment}

theorem loses_of_down (nobody : m.before.worker = none) : m.met Engine.loses = false := by
  rcases m with ⟨e, o⟩
  cases o with
  | draw => rfl
  | input now input =>
    cases input with
    | closed w reason =>
      have other : e.worker ≠ some w := by
        intro current
        cases nobody.symm.trans current
      exact decide_eq_false other
    | command | frame | deadline | restartDue | started => rfl

/-- Nothing is replayed where no worker comes up. -/
theorem replays_of_down (h : m.before.Consistent) (nobody : m.after.worker = none) :
    m.replays = [] := by
  rcases m with ⟨e, o⟩
  cases o with
  | draw => rfl
  | input now input =>
    cases input with
    | started start result =>
      cases result with
      | error => rfl
      | ok started =>
        by_cases pending : e.startup = some start
        · have comesUp : met (Engine.welcomes started.worker)
              ⟨e, .input now (.started start (.ok started))⟩ := by
            simp [met, Engine.welcomes, pending]
          cases nobody.symm.trans (line_of_welcomes h comesUp).2.1
        · have ignored : e.Ignores now (.started start (.ok started)) := Or.inr pending
          exact Engine.admits_of_ignores ignored
    | command | frame | closed | deadline | restartDue => rfl

/-- **The line while there is no worker.** Unless a start fails or the engine refuses jobs, what
    waits is what has waited before, without the job that is withdrawn or with the one that is
    submitted. -/
theorem waiting_of_down (h : m.before.Consistent) (nobody : m.after.worker = none)
    (running : m.met Engine.fails = false) (accepts : ¬ m.after.lifecycle.rejectsJobs) :
    (∃ job front back, m.met (Engine.withdraws job.id) ∧
      m.before.queue.jobs = front ++ job :: back ∧ m.after.queue.jobs = front ++ back) ∨
    ((∀ id, m.met (Engine.withdraws id) = false) ∧
      m.after.waiting = m.before.waiting ++ m.submitted?.toList.map Job.task) := by
  have replays := replays_of_down h nobody
  have silent : sends m.effects = [] := by
    rcases sends_one h with none | ⟨s, -, current⟩
    · exact none
    · cases nobody.symm.trans current
  rcases m with ⟨e, o⟩
  cases o with
  | draw => exact Or.inr ⟨fun _ => rfl, (List.append_nil _).symm⟩
  | input now input =>
    cases (Engine.step_reacts now e input).moves h with
    | kept _ none same =>
      right
      refine ⟨none, ?_⟩
      have alive : e.lifecycle ≠ .stopped := by
        intro stopped
        apply accepts
        show (e.step now input).state.lifecycle.rejectsJobs
        rw [Engine.step_of_stopped stopped, Engine.idle_state, stopped]
        rfl
      have silent : tasks (e.step now input).effects = [] := tasks_of_sends_eq_nil silent
      rwa [lineUp_eq alive now, replays, silent, List.nil_append, List.nil_append,
        List.map_append] at same
    | withdrawn job front back withdraws line rest =>
      exact Or.inl ⟨job, front, back, withdraws, line, rest⟩
    | dropped cause =>
      rcases cause with failed | rejects
      · cases failed.symm.trans running
      · exact absurd rejects accepts

theorem restarts_of_fails (failed : m.met Engine.fails) : m.met Engine.restarts = false := by
  rcases m with ⟨e, o⟩
  cases o with
  | draw => cases failed
  | input now input => exact (Bool.or_eq_false_iff.1 (Engine.refills_of_fails failed)).1

/-- A withdrawal submits nothing, and is of one job. -/
theorem withdraws_only {id : JobId} (hm : m.met (Engine.withdraws id)) :
    m.submitted? = none ∧ ∀ id', m.met (Engine.withdraws id') = decide (id' = id) := by
  obtain ⟨⟨now, ho⟩, waits⟩ := withdraws_cases hm
  refine ⟨by rw [submitted?, ho], fun id' => ?_⟩
  rw [met, ho]
  show (decide (id = id') && m.before.queue.jobs.any (·.id = id')) = decide (id' = id)
  by_cases other : id = id'
  · rw [← other, waits, Bool.and_true]
  · rw [decide_eq_false other, Bool.false_and, decide_eq_false (Ne.symm other)]

end Moment

namespace History

/-! ## What is still wanted -/

/-- The jobs that were submitted in a stretch and not withdrawn in it. -/
def standing (since : List Moment) : List Job :=
  (since.filterMap (·.submitted?)).filter fun j =>
    !since.any (Moment.met (Engine.withdraws j.id))

theorem standing_withdraw {since : List Moment} {x : Moment} {id : JobId}
    (hx : x.met (Engine.withdraws id)) :
    standing (since ++ [x]) = (standing since).filter (·.id ≠ id) := by
  obtain ⟨none, only⟩ := Moment.withdraws_only hx
  have same : (since ++ [x]).filterMap (·.submitted?) = since.filterMap (·.submitted?) := by
    simp [none]
  rw [standing, standing, same, List.filter_filter]
  refine List.filter_congr fun j _ => ?_
  rw [List.any_append, List.any_cons, List.any_nil, only, Bool.or_false, Bool.not_or,
    Bool.and_comm, decide_not]

theorem standing_submit {since : List Moment} {x : Moment}
    (none : ∀ id, x.met (Engine.withdraws id) = false)
    (fresh : ∀ j ∈ x.submitted?, since.any (Moment.met (Engine.withdraws j.id)) = false) :
    standing (since ++ [x]) = standing since ++ x.submitted?.toList := by
  have unmoved : ∀ id, (since ++ [x]).any (Moment.met (Engine.withdraws id)) =
      since.any (Moment.met (Engine.withdraws id)) := by
    intro id
    rw [List.any_append, List.any_cons, List.any_nil, none, Bool.or_false, Bool.or_false]
  rw [standing, List.filterMap_append, List.filter_append]
  simp only [unmoved]
  refine congrArg (standing since ++ ·) ?_
  cases hs : x.submitted? with
  | none => simp [hs]
  | some j => simp [hs, fresh j hs]

/-! ## Runs without a worker -/

theorem run_unarmed (policy : RestartPolicy) (os : List Occasion) :
    (∀ x ∈ (run policy os).past, x.after.worker = none ∧ x.met Engine.restarts = false) →
      (run policy os).engine.worker = none ∧ (run policy os).engine.replayOnReady = false := by
  refine (run_induction (P := fun h => h.engine.Consistent ∧
    ((∀ x ∈ h.past, x.after.worker = none ∧ x.met Engine.restarts = false) →
      h.engine.worker = none ∧ h.engine.replayOnReady = false)) ?_ ?_ os).2
  · exact ⟨Engine.boot_consistent policy, fun _ => ⟨rfl, rfl⟩⟩
  · rintro h o ⟨consistent, earlier⟩
    refine ⟨Engine.answer_consistent o consistent, fun calm => ?_⟩
    obtain ⟨nobody, unarmed⟩ := earlier fun x hx => calm x (List.mem_append_left _ hx)
    obtain ⟨nobody', untold⟩ := calm ⟨h.engine, o⟩ (List.mem_append_right _ (by simp))
    have unlost : Moment.met Engine.loses ⟨h.engine, o⟩ = false :=
      Moment.loses_of_down nobody
    exact ⟨nobody', (Moment.replay_due consistent).2 unlost untold unarmed⟩

section Since

variable {policy : RestartPolicy} {os : List Occasion} {first since : List Moment} {f : Moment}

/-- A failure leaves no job waiting. -/
theorem waiting_of_fails (h : f.before.Consistent) (failed : f.met Engine.fails) :
    f.after.waiting = [] := by
  rcases f with ⟨e, o⟩
  cases o with
  | draw => cases failed
  | input now input =>
    cases (Engine.step_reacts now e input).moves h with
    | kept running => cases failed.symm.trans running
    | withdrawn job _ _ withdraws =>
      -- A failure is not a cancellation.
      cases input with
      | command => cases failed
      | frame | closed | deadline | restartDue | started => cases withdraws
    | dropped _ empty =>
      show (e.step now input).state.waiting = []
      rw [Engine.waiting, empty]
      rfl

/-- Taking out the job of an identity takes out one job, where no two share it. -/
theorem filter_ne_id {front back : List Job} {job : Job}
    (nodup : ((front ++ job :: back).map (·.id)).Nodup) :
    (front ++ job :: back).filter (·.id ≠ job.id) = front ++ back := by
  rw [List.map_append, List.map_cons, List.nodup_append, List.nodup_cons] at nodup
  obtain ⟨-, ⟨behind, -⟩, ahead⟩ := nodup
  have hfront : front.filter (·.id ≠ job.id) = front := by
    rw [List.filter_eq_self]
    intro j hj
    exact decide_eq_true (ahead j.id (List.mem_map_of_mem hj) job.id (by simp))
  have hback : back.filter (·.id ≠ job.id) = back := by
    rw [List.filter_eq_self]
    intro j hj
    refine decide_eq_true fun same => behind ?_
    rw [← same]
    exact List.mem_map_of_mem hj
  rw [List.filter_append, hfront, List.filter_cons_of_neg (by simp), hback]

/-- What waits is what was submitted in a stretch and is still wanted, and nothing else was
    withdrawn in it. -/
structure Outstanding (part : List Moment) (e : Engine) : Prop where
  waiting : e.waiting = (standing part).map Job.task
  withdrawn : ∀ y ∈ part, ∀ id, y.met (Engine.withdraws id) →
    id ∈ (part.filterMap (·.submitted?)).map (·.id)

variable {part : List Moment} {x : Moment}

theorem Outstanding.ids {e : Engine} (h : Outstanding part e) :
    e.queue.jobs.map (·.id) = (standing part).map (·.id) := by
  have tasks := congrArg (List.map Prod.fst) h.waiting
  rwa [Engine.waiting, map_fst_task, map_fst_task] at tasks

theorem Outstanding.withdraw (h : Outstanding part x.before)
    (nodup : ((part.filterMap (·.submitted?)).map (·.id)).Nodup) {job : Job}
    {front back : List Job} (withdraws : x.met (Engine.withdraws job.id))
    (line : x.before.queue.jobs = front ++ job :: back)
    (rest : x.after.queue.jobs = front ++ back) : Outstanding (part ++ [x]) x.after := by
  obtain ⟨none, only⟩ := Moment.withdraws_only withdraws
  have unique : (x.before.queue.jobs.map (·.id)).Nodup := by
    rw [h.ids]
    exact (List.filter_sublist.map _).nodup nodup
  have known : job.id ∈ (part.filterMap (·.submitted?)).map (·.id) := by
    have waits : job.id ∈ x.before.queue.jobs.map (·.id) := by rw [line]; simp
    rw [h.ids] at waits
    exact (List.filter_sublist.map _).subset waits
  have same : (part ++ [x]).filterMap (·.submitted?) = part.filterMap (·.submitted?) := by
    simp [none]
  constructor
  · -- Withdrawing commutes with looking at the tasks only.
    have filtered := congrArg (List.filter (·.1 ≠ job.id)) h.waiting
    rw [Engine.waiting, List.filter_map, List.filter_map] at filtered
    have left : x.before.queue.jobs.filter (·.id ≠ job.id) = front ++ back := by
      rw [line] at unique ⊢
      exact filter_ne_id unique
    rw [standing_withdraw withdraws, Engine.waiting, rest, ← left]
    exact filtered
  · rw [same]
    intro y hy id hid
    rcases List.mem_append.1 hy with hy | hy
    · exact h.withdrawn y hy id hid
    · rw [List.mem_singleton.1 hy, only] at hid
      rw [of_decide_eq_true hid]
      exact known

theorem Outstanding.submit (h : Outstanding part x.before)
    (nodup : (((part ++ [x]).filterMap (·.submitted?)).map (·.id)).Nodup)
    (none : ∀ id, x.met (Engine.withdraws id) = false)
    (joined : x.after.waiting = x.before.waiting ++ x.submitted?.toList.map Job.task) :
    Outstanding (part ++ [x]) x.after := by
  rw [submitted_concat, List.map_append, List.nodup_append] at nodup
  -- A job that is submitted now was not withdrawn before.
  have fresh : ∀ j ∈ x.submitted?, part.any (Moment.met (Engine.withdraws j.id)) = false := by
    intro j hj
    refine Bool.eq_false_iff.2 fun withdrawn => ?_
    obtain ⟨y, hy, hid⟩ := List.any_eq_true.1 withdrawn
    have hj : x.submitted? = some j := hj
    exact nodup.2.2 j.id (h.withdrawn y hy j.id hid) j.id (by simp [hj]) rfl
  constructor
  · rw [standing_submit none fresh, List.map_append, joined, h.waiting]
  · rw [submitted_concat, List.map_append]
    intro y hy id hid
    rcases List.mem_append.1 hy with hy | hy
    · exact List.mem_append_left _ (h.withdrawn y hy id hid)
    · rw [List.mem_singleton.1 hy, none] at hid
      cases hid

/-- **What waits after a failure.** Until a worker comes up, and unless the engine gives up or is
    shut down, it is what was submitted since and is still wanted. -/
theorem waiting_since (lawful : Lawful policy os)
    (hpast : (run policy os).past = first ++ f :: since) (failed : f.met Engine.fails)
    (calm : ∀ x ∈ since, x.met Engine.fails = false ∧ x.met Engine.restarts = false ∧
      x.after.worker = none) :
    (run policy os).engine.lifecycle.rejectsJobs ∨ Outstanding since (run policy os).engine := by
  have nodup : ∀ part, part <+: since → ((part.filterMap (·.submitted?)).map (·.id)).Nodup := by
    rintro part ⟨rest, rfl⟩
    have ids := (lawful_submitted lawful).2
    rw [submitted, hpast] at ids
    refine List.Sublist.nodup (List.Sublist.map _ (List.Sublist.filterMap _ ?_)) ids
    exact ((List.sublist_append_left part rest).trans (List.sublist_cons_self f _)).trans
      (List.sublist_append_right first _)
  refine run_since (P := fun part e => part <+: since →
    e.lifecycle.rejectsJobs ∨ Outstanding part e) hpast ?_ ?_ (List.prefix_refl since)
  · intro _
    exact Or.inr ⟨waiting_of_fails (consistent_of_past hpast) failed, by simp⟩
  · intro part x hx consistent earlier hpart
    obtain ⟨running, untold, nobody⟩ := calm x hx
    have hshorter := (List.prefix_append part [x]).trans hpart
    by_cases rejects : x.after.lifecycle.rejectsJobs
    · exact Or.inl rejects
    -- An engine that had refused jobs would refuse them still.
    have outstanding := (earlier hshorter).resolve_left fun rejected =>
      rejects (Moment.stays_down consistent rejected untold).1
    right
    rcases Moment.waiting_of_down consistent nobody running rejects with
      ⟨job, front, back, withdraws, line, rest⟩ | ⟨none, joined⟩
    · exact outstanding.withdraw (nodup part hshorter) withdraws line rest
    · exact outstanding.submit (nodup _ hpart) none joined

end Since

/-! ## The first worker -/

/-- **The first worker after a failed start.** Take a lawful run in which a start has failed before
    any worker came up, and in which, with no failure and no explicit restart in between, the first
    worker comes up. If a restart was asked for before the failure, the open documents are replayed
    to that worker ahead of everything else. Otherwise nothing is replayed: what it is handed at
    once, and what waits for it, is what was submitted since the failure and not withdrawn, and all
    that it is ever handed was submitted since the failure. So no document that was opened before
    it reaches the worker, open as it may be, until it is submitted again. -/
theorem first_start_after_failure {policy : RestartPolicy} {os : List Occasion}
    {first since after : List Moment} {f m : Moment} {w : WorkerId} (lawful : Lawful policy os)
    (hpast : (run policy os).past = first ++ f :: since ++ m :: after)
    (failed : f.met Engine.fails)
    (down : ∀ x ∈ first ++ f :: since, x.after.worker = none)
    (calm : ∀ x ∈ since, x.met Engine.fails = false ∧ x.met Engine.restarts = false)
    (hm : m.met (Engine.welcomes w)) :
    ((∃ x ∈ first, x.met Engine.restarts) → ReplayedFirst w m after (run policy os).engine) ∧
    ((∀ x ∈ first, x.met Engine.restarts = false) →
      m.admitted = [] ∧ tasksTo w [m] ++ m.after.waiting = (standing since).map Job.task ∧
        (tasksTo w (m :: after)).Sublist
          ((standing since ++ after.filterMap (·.submitted?)).map Job.task)) := by
  constructor
  · rintro ⟨x, hx, told⟩
    exact replayed_first lawful hpast hm ⟨x, List.mem_append_left _ hx, Or.inr told⟩
  intro untold
  have consistent := consistent_of_past hpast
  obtain ⟨os₁, os₂, rfl, hbefore, hengine⟩ := run_split hpast
  obtain ⟨starting, -, admitted, -⟩ := Moment.starting_of_welcomes consistent hm
  -- The worker finds the jobs that are still wanted, since the engine takes jobs.
  have outstanding : Outstanding since m.before := by
    have waits := waiting_since lawful.take hbefore failed fun x hx =>
      ⟨(calm x hx).1, (calm x hx).2, down x (by simp [hx])⟩
    rw [hengine] at waits
    refine waits.resolve_left fun rejects => ?_
    rw [starting] at rejects
    cases rejects
  have unarmed : m.before.replayOnReady = false := by
    rw [← hengine]
    refine (run_unarmed policy os₁ fun x hx => ?_).2
    rw [hbefore] at hx
    refine ⟨down x hx, ?_⟩
    rcases List.mem_append.1 hx with hx | hx
    · exact untold x hx
    · rcases List.mem_cons.1 hx with rfl | hx
      · exact Moment.restarts_of_fails failed
      · exact (calm x hx).2
  have nothing : m.admitted = [] := by
    rw [admitted, Engine.replayed, unarmed]
    rfl
  have line := (Moment.line_of_welcomes consistent hm).2.2
  have later := line_since lawful hpast hm
  rw [nothing, List.nil_append] at line later
  have waiting : m.before.queue.jobs.map Job.task = (standing since).map Job.task :=
    outstanding.waiting
  rw [waiting] at line later
  refine ⟨nothing, line, ?_⟩
  rw [List.map_append]
  exact (List.sublist_append_left ..).trans later

/-- A document is opened while the first start is under way, the start fails, and the next one
    succeeds. -/
def forgotten : List Occasion :=
  [.draw, .draw, .input 0 (.command (.submit { id := ⟨1⟩, request := .addUri "a" "x" })),
    .input 1 (.started 0 (.error (.silent 30))),
    .input 2 (.command (.submit { id := ⟨2⟩, request := .check none })),
    .input 100000 .restartDue, .input 100001 (.started 1 (.ok ⟨0, none⟩))]

/-- The document is open, but the worker is handed the check without it. -/
theorem forgotten_document :
    Lawful {} forgotten ∧ (run {} forgotten).engine.documents.texts = [("a", "x")] ∧
    ∃ f since m, (run {} forgotten).past =
        (run {} (forgotten.take 3)).past ++ f :: since ++ [m] ∧
      f.met Engine.fails ∧ m.met (Engine.welcomes 0) ∧
      (standing since).map Job.task = [(⟨2⟩, .check none)] ∧
      m.admitted = [] ∧ tasksTo 0 [m] ++ m.after.waiting = (standing since).map Job.task ∧
      (tasksTo 0 [m]).Sublist ((standing since ++ []).map Job.task) := by
  have lawful : Lawful {} forgotten := by decide +kernel
  have hpast : (run {} forgotten).past =
      (run {} (forgotten.take 3)).past ++ ⟨_, _⟩ :: [⟨_, _⟩, ⟨_, _⟩] ++ [⟨_, _⟩] := rfl
  refine ⟨lawful, by decide +kernel, _, _, _, hpast, ?_⟩
  refine ⟨by decide +kernel, by decide +kernel, by decide +kernel, ?_⟩
  exact (first_start_after_failure lawful hpast (by decide +kernel) (by decide +kernel)
    (by decide +kernel) (by decide +kernel)).2 (by decide +kernel)

end History

end WorkerBridge
