/-
  WorkerBridge.Proofs.Order

  The order in which jobs are handed over.

  Jobs of callers are handed over in the order of their submission, whatever
  happens to the workers in between. A worker that comes up after a crash or an
  explicit restart is handed the open documents first, and nothing else before it
  has them: the replayed jobs are the front of its line (`replays_ahead`), and none
  of them leaves it but to be handed over or withdrawn.
-/
import WorkerBridge.Proofs.Line
import WorkerBridge.Proofs.Mirror

namespace WorkerBridge

/-! ## Lists -/

/-- Where nothing occurs twice, two elements have one order. -/
theorem not_swapped {α : Type} {l : List α} (nodup : l.Nodup) {a b : α}
    (h : [a, b].Sublist l) : ¬ [b, a].Sublist l := by
  intro swapped
  obtain ⟨front, back, rfl, ha, hb⟩ := List.cons_sublist_iff.1 h
  obtain ⟨front', back', heq, hb', ha'⟩ := List.cons_sublist_iff.1 swapped
  have once := (List.nodup_append.1 nodup).2.2
  have once' := (List.nodup_append.1 (heq ▸ nodup)).2.2
  -- The cut before the second element of one pair is not behind that of the other.
  rcases List.append_eq_append_iff.1 heq with ⟨mid, rfl, -⟩ | ⟨mid, rfl, -⟩
  · exact once' a (List.mem_append_left _ ha) a (ha'.subset (List.mem_singleton_self a)) rfl
  · exact once b (List.mem_append_left _ hb') b (hb.subset (List.mem_singleton_self b)) rfl

/-- Where the elements of a front part cannot go on behind a cut, they are before it. -/
theorem mem_of_cut {α : Type} {front back early late : List α} {s r : α}
    (h : front ++ back = early ++ s :: late) (hs : s ∉ front) (hr : r ∈ front) : r ∈ early := by
  rcases List.append_eq_append_iff.1 h with ⟨mid, rfl, -⟩ | ⟨mid, rfl, hcut⟩
  · exact List.mem_append_left _ hr
  · cases mid with
    | nil => simpa using hr
    | cons t mid =>
      rw [List.cons_append] at hcut
      rw [(List.cons.inj hcut).1] at hs
      simp at hs

/-! ## Documents -/

/-- The requests of a replay: each open document with its text, and then a check. -/
theorem Documents.replay_eq (d : Documents) :
    d.replay = if d.texts = [] then []
      else (d.texts.map fun entry => .addUri entry.1 entry.2) ++ [.check none] := by
  unfold replay texts TextMap.mapValues
  rw [List.map_map]
  cases d.documents <;> rfl

namespace Engine

variable {now : Nat} {e : Engine} {input : Input} {t : Turn}

/-- **What can happen to the open documents.** They follow a submitted request, and nothing else
    touches them. -/
theorem Reacts.documents (r : Reacts now e input t) (h : e.Consistent) :
    t.state.documents.documents = e.documents.documents ∨
      ∃ job, input = .command (.submit job) ∧
        t.state.documents.documents = (e.documents.follow job.request).2.documents := by
  have dispatched : ∀ {e : Engine}, (e.lifecycle.isUp → e.worker.isSome) →
      (dispatch now e).state.documents.documents = e.documents.documents := by
    intro e up
    obtain ⟨_, _, _, _, same, hstate⟩ := dispatch_frame now up
    rw [hstate]
    exact same
  cases r with
  | ignored | shown => exact Or.inl rfl
  | submitted job =>
    right
    refine ⟨job, rfl, ?_⟩
    rcases submit_cases now job e with ⟨-, heq⟩ | ⟨-, heq⟩
    · rw [heq]
      rfl
    · rw [heq]
      exact dispatched h.up
  | cancelled id =>
    obtain ⟨_, _, hstate⟩ := cancel_frame id e
    rw [hstate]
    exact Or.inl rfl
  | restarted =>
    rw [restart_state]
    exact Or.inl rfl
  | shutDown caller =>
    rw [shutdown_state]
    exact Or.inl rfl
  | heard incoming =>
    left
    refine (dispatched (receive_unsettled incoming h).up).trans ?_
    obtain ⟨_, _, _, same, hstate⟩ := receive_frame incoming e
    rw [hstate]
    exact same
  | lost reason =>
    obtain ⟨_, _, _, _, hstate⟩ := scheduleRestart_frame now
      { e with worker := none, flights := {}, queue := {}, replayOnReady := true }
    rw [crash_state, hstate]
    exact Or.inl rfl
  | expired =>
    rw [onDeadline_eq]
    exact Or.inl (dispatched h.up)
  | due =>
    rw [beginStart_state]
    exact Or.inl rfl
  | started result =>
    left
    cases result with
    | ok started =>
      rw [onStarted_ok]
      exact dispatched fun _ => rfl
    | error fault =>
      obtain ⟨_, _, _, _, hstate⟩ := scheduleRestart_frame now
        { e with startup := none, queue := {} }
      rw [onStarted_error, Turn.andThen_state, hstate]

/-- **What makes a replay due.** A crash and an explicit restart do, and nothing else does. -/
theorem Reacts.replay_due (r : Reacts now e input t) (h : e.Consistent) :
    (e.loses input ∨ e.restarts input → t.state.replayOnReady = true) ∧
      (e.loses input = false → e.restarts input = false → e.replayOnReady = false →
        t.state.replayOnReady = false) := by
  have dispatched : ∀ {e : Engine}, (e.lifecycle.isUp → e.worker.isSome) →
      e.replayOnReady = false → (dispatch now e).state.replayOnReady = false := by
    intro e up undue
    obtain ⟨_, _, _, _, -, hstate⟩ := dispatch_frame now up
    rw [hstate]
    exact undue
  have scheduled : ∀ e : Engine,
      (scheduleRestart now e).state.replayOnReady = e.replayOnReady := by
    intro e
    obtain ⟨_, _, _, _, hstate⟩ := scheduleRestart_frame now e
    rw [hstate]
  cases r with
  | ignored hi =>
    refine ⟨fun cause => ?_, fun _ _ undue => undue⟩
    rcases cause with lost | told
    · -- An input that tells of a lost worker is not ignored, unless there is none.
      cases input with
      | closed w reason =>
        have current : e.worker = some w := of_decide_eq_true lost
        rcases hi with stopped | strange
        · have nobody := h.no_worker (by simp [stopped]) (by simp [stopped])
          cases nobody.symm.trans current
        · exact absurd current strange
      | command | frame | deadline | restartDue | started => cases lost
    · have unfilled := refills_of_ignores h hi
      rw [refills, told] at unfilled
      cases unfilled
  | restarted alive =>
    rw [restart_state]
    exact ⟨fun _ => rfl, fun _ untold => by simp [restarts, hasEnded, alive] at untold⟩
  | lost reason _ current =>
    rw [crash_state, scheduled]
    exact ⟨fun _ => rfl, fun kept => by simp [loses, current] at kept⟩
  | submitted job =>
    refine ⟨by simp [loses, restarts], fun _ _ undue => ?_⟩
    rcases submit_cases now job e with ⟨-, heq⟩ | ⟨-, heq⟩
    · rw [heq]
      exact undue
    · rw [heq]
      exact dispatched h.up undue
  | cancelled id =>
    obtain ⟨_, _, hstate⟩ := cancel_frame id e
    rw [hstate]
    exact ⟨by simp [loses, restarts], fun _ _ undue => undue⟩
  | shown => exact ⟨by simp [loses, restarts], fun _ _ undue => undue⟩
  | shutDown caller =>
    rw [shutdown_state]
    exact ⟨by simp [loses, restarts], fun _ _ undue => undue⟩
  | heard incoming =>
    refine ⟨by simp [loses, restarts], fun _ _ undue => ?_⟩
    refine dispatched (receive_unsettled incoming h).up ?_
    obtain ⟨_, _, _, -, hstate⟩ := receive_frame incoming e
    rw [hstate]
    exact undue
  | expired =>
    rw [onDeadline_eq]
    exact ⟨by simp [loses, restarts], fun _ _ undue => dispatched h.up undue⟩
  | due =>
    rw [beginStart_state]
    exact ⟨by simp [loses, restarts], fun _ _ undue => undue⟩
  | started result =>
    refine ⟨by simp [loses, restarts], fun _ _ undue => ?_⟩
    cases result with
    | ok started =>
      rw [onStarted_ok]
      exact dispatched (fun _ => rfl) rfl
    | error fault =>
      rw [onStarted_error]
      exact (scheduled _).trans undue

end Engine

theorem Moment.replay_due {m : Moment} (h : m.before.Consistent) :
    (m.met Engine.loses ∨ m.met Engine.restarts → m.after.replayOnReady = true) ∧
      (m.met Engine.loses = false → m.met Engine.restarts = false →
        m.before.replayOnReady = false → m.after.replayOnReady = false) := by
  rcases m with ⟨e, o⟩
  cases o with
  | draw =>
    refine ⟨?_, fun _ _ undue => undue⟩
    rintro (cause | cause) <;> cases cause
  | input now input => exact (Engine.step_reacts now e input).replay_due h

namespace History

theorem run_sorted (policy : RestartPolicy) (os : List Occasion) :
    (run policy os).engine.documents.documents.Sorted := by
  refine (run_induction (P := fun h => h.engine.Consistent ∧
    h.engine.documents.documents.Sorted) ?_ ?_ os).2
  · exact ⟨Engine.boot_consistent policy, List.Pairwise.nil⟩
  · rintro h o ⟨consistent, sorted⟩
    refine ⟨Engine.answer_consistent o consistent, ?_⟩
    cases o with
    | draw => exact sorted
    | input now input =>
      rcases (Engine.step_reacts now h.engine input).documents consistent with
        same | ⟨job, -, followed⟩
      · exact same ▸ sorted
      · exact followed ▸ Documents.sorted_follow sorted job.request

/-! ## Identities of replayed jobs -/

theorem mem_admitted_of_replays {h : History} {j : Job} (hj : j ∈ h.replays) : j ∈ h.admitted := by
  obtain ⟨m, hm, hj⟩ := List.mem_flatMap.1 hj
  refine List.mem_flatMap.2 ⟨m, hm, ?_⟩
  unfold Moment.replays at hj
  split at hj
  · exact hj
  · cases hj

/-- A replayed job has an identity that no caller has drawn, or will draw. -/
theorem replays_not_drawn {policy : RestartPolicy} {os : List Occasion}
    (lawful : Lawful policy os) : ∀ j ∈ (run policy os).replays, j.id ∉ (run policy os).drawn := by
  induction os using List.reverseRecOn with
  | nil => simp [run, boot, replays]
  | append_singleton os o ih =>
    have orderly := lawful_orderly lawful.take
    intro j hj
    rw [run_concat, replays, past_extend, List.flatMap_append, List.mem_append] at hj
    rw [run_concat, drawn_extend, List.mem_append]
    cases o with
    | draw =>
      -- The identity that is drawn now is beyond those of all jobs.
      rcases hj with hj | hj
      · have below := orderly.admitted_lt j (mem_admitted_of_replays hj)
        rintro (hid | hid)
        · exact ih lawful.take j hj hid
        · obtain hid : j.id = _ := List.mem_singleton.1 hid
          rw [hid] at below
          exact absurd below (Nat.lt_irrefl _)
      · cases hj
    | input now input =>
      rintro (hid | hid)
      · rcases hj with hj | hj
        · exact ih lawful.take j hj hid
        · -- The jobs that are replayed now are beyond all that was drawn.
          have hlast : j ∈ Moment.replays ⟨(run policy os).engine, .input now input⟩ := by
            simpa using hj
          cases input with
          | started start result =>
            cases result with
            | ok started =>
              have reacts := Engine.step_reacts now (run policy os).engine
                (.started start (.ok started))
              have fresh := (Engine.replayed_fresh (reacts.replayed_lt hlast).1).1
              have below := orderly.drawn_lt j.id hid
              omega
            | error => cases hlast
          | command | frame | closed | deadline | restartDue => cases hlast
      · cases hid

section Since

variable {policy : RestartPolicy} {os : List Occasion} {before after : List Moment} {m : Moment}
  {w : WorkerId}

/-- The jobs that are replayed share no identity with what they go ahead of, or with what is
    submitted later. -/
theorem replays_apart (lawful : Lawful policy os)
    (hpast : (run policy os).past = before ++ m :: after) (hm : m.met (Engine.welcomes w)) :
    ∀ j ∈ m.before.queue.jobs ++ after.filterMap (·.submitted?),
      j.id ∉ m.admitted.map (·.id) := by
  intro j hj used
  rcases List.mem_append.1 hj with hj | hj
  · -- What waits was taken on before, and no two jobs share an identity.
    obtain ⟨os₁, os₂, -, hbefore, hengine⟩ := run_split hpast
    have held : j ∈ (run policy os₁).admitted := (run_held policy os₁).queue j (hengine ▸ hj)
    rw [History.admitted, hbefore] at held
    have ids := (lawful_orderly lawful).ids
    rw [History.admitted, hpast, List.flatMap_append, List.flatMap_cons, List.map_append,
      List.map_append, List.nodup_append] at ids
    exact ids.2.2 j.id (List.mem_map_of_mem held) j.id (List.mem_append_left _ used) rfl
  · -- What is submitted has an identity that was drawn.
    obtain ⟨r, hr, hid⟩ := List.mem_map.1 used
    obtain ⟨-, -, -, same⟩ := Moment.starting_of_welcomes (consistent_of_past hpast) hm
    have replayed : r ∈ m.replays := same ▸ hr
    have past : m ∈ (run policy os).past := by rw [hpast]; simp
    have submitted : j ∈ (run policy os).submitted := by
      rw [History.submitted, hpast, List.filterMap_append]
      obtain ⟨x, hx, hsubmitted⟩ := List.mem_filterMap.1 hj
      exact List.mem_append_right _
        (List.mem_filterMap.2 ⟨x, List.mem_cons_of_mem _ hx, hsubmitted⟩)
    refine replays_not_drawn lawful r (List.mem_flatMap.2 ⟨m, past, replayed⟩) ?_
    rw [hid]
    exact (lawful_submitted lawful).1 j submitted

/-- A worker that comes up after a crash or an explicit restart gets the open documents. -/
theorem replays_requests (hpast : (run policy os).past = before ++ m :: after)
    (hm : m.met (Engine.welcomes w))
    (due : ∃ x ∈ before, x.met Engine.loses ∨ x.met Engine.restarts) :
    m.admitted.map (·.request) =
      if m.before.documents.texts = [] then []
      else (m.before.documents.texts.map fun entry => .addUri entry.1 entry.2) ++
        [.check none] := by
  obtain ⟨os₁, os₂, -, hbefore, hengine⟩ := run_split hpast
  obtain ⟨starting, nobody, admitted, -⟩ :=
    Moment.starting_of_welcomes (consistent_of_past hpast) hm
  have armed : m.before.Armed := by
    obtain ⟨x, hx, cause⟩ := due
    rw [← hengine]
    rw [← hbefore] at hx
    obtain ⟨_, _, hsplit⟩ := List.append_of_mem hx
    exact run_armed_of hx fun _ _ => (Moment.replay_due (consistent_of_past hsplit)).1 cause
  have replays : m.before.replayOnReady = true := armed nobody (by simp [starting])
  rw [admitted, Engine.replayed, if_pos replays, Engine.issueJobs_requests, Documents.replay_eq]

end Since

/-! ## The order of all that is handed over -/

/-- How a worker that comes up gets the open documents. -/
structure ReplayedFirst (w : WorkerId) (m : Moment) (after : List Moment) (last : Engine) :
    Prop where
  /-- There is one request for each open document, in the order of their names, and then a check;
      there is none if no document is open. -/
  requests : m.before.documents.texts.Sorted ∧ m.admitted.map (·.request) =
    if m.before.documents.texts = [] then []
    else (m.before.documents.texts.map fun entry => .addUri entry.1 entry.2) ++ [.check none]
  /-- The worker is handed them in that order. -/
  order : ((tasksTo w (m :: after)).filter (·.1 ∈ m.admitted.map (·.id))).Sublist
    (m.admitted.map Job.task)
  /-- When it is handed anything else, each of them was handed over or withdrawn before. -/
  first : ∀ mid x rest, m :: after = mid ++ x :: rest → ∀ s ∈ sends x.effects, s.worker = w →
    s.id ∉ m.admitted.map (·.id) →
    ∀ r ∈ m.admitted, r.task ∈ tasksTo w mid ∨ ∃ y ∈ mid, y.met (Engine.withdraws r.id)
  /-- While the worker is there, none of them gets lost. -/
  none_lost : last.worker = some w → ∀ r ∈ m.admitted,
    r.task ∈ tasksTo w (m :: after) ∨ r.task ∈ last.waiting ∨
      ∃ y ∈ after, y.met (Engine.withdraws r.id)

section Since

variable {policy : RestartPolicy} {os : List Occasion} {before after : List Moment} {m : Moment}
  {w : WorkerId}

/-- In the line of a worker the replayed jobs are ahead of all others. -/
theorem replays_ahead (lawful : Lawful policy os)
    (hpast : (run policy os).past = before ++ m :: after) (hm : m.met (Engine.welcomes w)) :
    ∃ front back, tasksTo w (m :: after) ++ (run policy os).engine.waitingFor w = front ++ back ∧
      front.Sublist (m.admitted.map Job.task) ∧ ∀ t ∈ back, t.1 ∉ m.admitted.map (·.id) := by
  have line := line_since lawful hpast hm
  rw [List.map_append, List.append_assoc, ← List.map_append] at line
  obtain ⟨front, back, heq, hfront, hback⟩ := List.sublist_append_iff.1 line
  refine ⟨front, back, heq, hfront, ?_⟩
  intro t ht
  obtain ⟨j, hj, rfl⟩ := List.mem_map.1 (hback.subset ht)
  exact replays_apart lawful hpast hm j hj

theorem replays_in_order (lawful : Lawful policy os)
    (hpast : (run policy os).past = before ++ m :: after) (hm : m.met (Engine.welcomes w)) :
    ((tasksTo w (m :: after)).filter (·.1 ∈ m.admitted.map (·.id))).Sublist
      (m.admitted.map Job.task) := by
  obtain ⟨front, back, heq, hfront, hback⟩ := replays_ahead lawful hpast hm
  have others : back.filter (·.1 ∈ m.admitted.map (·.id)) = [] := by
    rw [List.filter_eq_nil_iff]
    intro t ht used
    exact hback t ht (of_decide_eq_true used)
  have sent := (List.sublist_append_left (tasksTo w (m :: after))
    ((run policy os).engine.waitingFor w)).filter (·.1 ∈ m.admitted.map (·.id))
  rw [heq, List.filter_append, others, List.append_nil] at sent
  exact (sent.trans List.filter_sublist).trans hfront

/-- Before anything else is handed to the worker, each replayed job was handed over or
    withdrawn. -/
theorem replays_before_others (lawful : Lawful policy os)
    (hpast : (run policy os).past = before ++ m :: after) (hm : m.met (Engine.welcomes w))
    {mid rest : List Moment} {x : Moment} (hsplit : m :: after = mid ++ x :: rest) {s : Sent}
    (hs : s ∈ sends x.effects) (recipient : s.worker = w)
    (other : s.id ∉ m.admitted.map (·.id)) {r : Job} (hr : r ∈ m.admitted) :
    r.task ∈ tasksTo w mid ∨ ∃ y ∈ mid, y.met (Engine.withdraws r.id) := by
  -- The run up to and with the moment in which the other job is handed over.
  have hx : (run policy os).past = (before ++ mid) ++ x :: rest := by
    rw [hpast, hsplit, List.append_assoc]
  obtain ⟨seen, hseen⟩ : ∃ seen, mid ++ [x] = m :: seen := by
    cases mid with
    | nil => exact ⟨[], by rw [(List.cons.inj hsplit).1]; rfl⟩
    | cons y mid => exact ⟨mid ++ [x], by rw [(List.cons.inj hsplit).1]; rfl⟩
  have consistent := consistent_of_past hx
  obtain ⟨os₁, os₂, rfl, hend, hlast⟩ := run_through hx
  have hpast₁ : (run policy os₁).past = before ++ m :: seen := by
    rw [hend, List.append_assoc, hseen]
  -- At that point the worker is there, and its line is cut where the other job is.
  obtain ⟨one, current⟩ := Moment.sends_of_mem consistent hs
  rw [recipient] at current
  have up : (run policy os₁).engine.worker = some w := by rw [hlast, current]
  have sent : tasksTo w (m :: seen) = tasksTo w mid ++ [s.task] := by
    rw [← hseen, tasksTo_append, Moment.tasksTo_eq consistent, if_pos current, tasks, one]
    rfl
  obtain ⟨front, back, heq, hfront, hback⟩ := replays_ahead lawful.take hpast₁ hm
  rw [Engine.waitingFor, if_pos up, sent] at heq
  rcases handed_or_waits_since lawful.take hpast₁ hm up r hr with held | ⟨y, hy, withdrawn⟩
  · left
    rw [sent, heq] at held
    have hfirst : r.task ∈ front := by
      refine (List.mem_append.1 held).resolve_right fun hlate => ?_
      exact hback _ hlate (List.mem_map_of_mem hr)
    have late : s.task ∉ front := by
      intro hearly
      obtain ⟨j, hj, hid⟩ := List.mem_map.1 (hfront.subset hearly)
      exact other (List.mem_map.2 ⟨j, hj, congrArg Prod.fst hid⟩)
    rw [List.append_assoc] at heq
    exact mem_of_cut heq.symm late hfirst
  · right
    have hmem : y ∈ mid ++ [x] := hseen ▸ List.mem_cons_of_mem m hy
    rcases List.mem_append.1 hmem with hmid | hx
    · exact ⟨y, hmid, withdrawn⟩
    · -- A withdrawal hands over nothing.
      rw [List.mem_singleton.1 hx] at withdrawn
      rw [Moment.sends_of_withdraws withdrawn] at hs
      cases hs

theorem replayed_first (lawful : Lawful policy os)
    (hpast : (run policy os).past = before ++ m :: after) (hm : m.met (Engine.welcomes w))
    (due : ∃ x ∈ before, x.met Engine.loses ∨ x.met Engine.restarts) :
    ReplayedFirst w m after (run policy os).engine := by
  constructor
  · obtain ⟨os₁, os₂, -, -, hengine⟩ := run_split hpast
    refine ⟨?_, replays_requests hpast hm due⟩
    rw [← hengine]
    exact (run_sorted policy os₁).mapValues _
  · exact replays_in_order lawful hpast hm
  · intro mid x rest hsplit s hs recipient other r hr
    exact replays_before_others lawful hpast hm hsplit hs recipient other hr
  · intro up r hr
    rcases handed_or_waits_since lawful hpast hm up r hr with held | withdrawn
    · exact (List.mem_append.1 held).imp_right Or.inl
    · exact Or.inr (Or.inr withdrawn)

end Since

/-- The jobs of callers that were handed to workers, whichever these are, in order. -/
def ownTasks (h : History) : List Task :=
  (tasks h.effects).filter (·.1 ∈ h.submitted.map (·.id))

/-- Of what was handed over and what waits, the jobs of callers are in the order of their
    submission. -/
theorem own_line {policy : RestartPolicy} {os : List Occasion} (lawful : Lawful policy os) :
    ((tasks (run policy os).effects ++ (run policy os).engine.waiting).filter
      (·.1 ∈ (run policy os).submitted.map (·.id))).Sublist
        ((run policy os).submitted.map Job.task) := by
  have strange : ∀ j ∈ (run policy os).replays,
      decide (j.id ∈ (run policy os).submitted.map (·.id)) = false := by
    intro j hj
    refine decide_eq_false fun used => ?_
    obtain ⟨k, hk, hid⟩ := List.mem_map.1 used
    exact replays_not_drawn lawful j hj (hid ▸ (lawful_submitted lawful).1 k hk)
  exact run_line (fun id => id ∈ (run policy os).submitted.map (·.id)) strange

theorem ownTasks_sublist {policy : RestartPolicy} {os : List Occasion}
    (lawful : Lawful policy os) :
    (run policy os).ownTasks.Sublist ((run policy os).submitted.map Job.task) := by
  have line := own_line lawful
  rw [List.filter_append] at line
  exact (List.sublist_append_left ..).trans line

/-- **Dispatch order.** In every lawful run the jobs of callers that were handed to workers, over
    all workers together, are a part of the submitted ones in the order of their submission, and
    none is handed over twice; so of two submitted jobs the earlier is never handed over after the
    later. Whenever a worker comes up after a crash or an explicit restart, the open documents are
    replayed to it ahead of everything else. -/
theorem dispatch_order {policy : RestartPolicy} {os : List Occasion} (lawful : Lawful policy os) :
    ((run policy os).ownTasks.Sublist ((run policy os).submitted.map Job.task) ∧
      ((run policy os).ownTasks.map Prod.fst).Nodup ∧
      ∀ u c, [u, c].Sublist (run policy os).submitted →
        ¬ [c.task, u.task].Sublist (tasks (run policy os).effects)) ∧
    ∀ before m after w, (run policy os).past = before ++ m :: after →
      m.met (Engine.welcomes w) →
      (∃ x ∈ before, x.met Engine.loses ∨ x.met Engine.restarts) →
      ReplayedFirst w m after (run policy os).engine := by
  have own := ownTasks_sublist lawful
  have ids : (((run policy os).submitted.map Job.task).map Prod.fst).Nodup := by
    rw [map_fst_task]
    exact (lawful_submitted lawful).2
  refine ⟨⟨own, (own.map Prod.fst).nodup ids, ?_⟩, ?_⟩
  · intro u c ordered swapped
    -- Both jobs are callers' jobs, so they would be swapped among those.
    have both : [c.task, u.task].filter (·.1 ∈ (run policy os).submitted.map (·.id)) =
        [c.task, u.task] := by
      rw [List.filter_eq_self]
      intro t ht
      refine decide_eq_true ?_
      rcases List.mem_pair.1 ht with rfl | rfl
      · exact List.mem_map_of_mem (ordered.subset (by simp))
      · exact List.mem_map_of_mem (ordered.subset (by simp))
    have swapped' := swapped.filter (·.1 ∈ (run policy os).submitted.map (·.id))
    rw [both] at swapped'
    exact not_swapped (List.Nodup.of_map _ ids) (ordered.map Job.task) (swapped'.trans own)
  · intro before m after w hpast hm due
    exact replayed_first lawful hpast hm due

/-! ## A worker that is replaced -/

/-- A document is opened and a check is asked for, but the worker is replaced before it gets to
    it. -/
def relief : List Occasion :=
  [.draw, .draw, .input 0 (.started 0 (.ok ⟨0, none⟩)),
    .input 1 (.command (.submit { id := ⟨1⟩, request := .addUri "a" "x" })),
    .input 2 (.command (.submit { id := ⟨2⟩, request := .check none })),
    .input 3 (.command .restart)]

/-- The next worker comes up. -/
def arrival : Occasion :=
  .input 4 (.started 1 (.ok ⟨1, none⟩))

/-- It takes the document again, and a check that nobody has asked for. -/
def catchUp : List Occasion :=
  [.input 5 (.frame 1 (.response ⟨4⟩ (.ok .null))), .input 6 (.frame 1 (.response ⟨5⟩ (.ok .null)))]

theorem relief_in_order :
    Lawful {} (relief ++ arrival :: catchUp) ∧
    (tasks (run {} (relief ++ arrival :: catchUp)).effects =
        [(⟨1⟩, .addUri "a" "x"), (⟨4⟩, .addUri "a" "x"), (⟨5⟩, .check none), (⟨2⟩, .check none)] ∧
      (run {} (relief ++ arrival :: catchUp)).ownTasks.Sublist
        [(⟨1⟩, .addUri "a" "x"), (⟨2⟩, .check none)]) ∧
    ∃ after, (run {} (relief ++ arrival :: catchUp)).past =
        (run {} relief).past ++ ⟨(run {} relief).engine, arrival⟩ :: after ∧
      ReplayedFirst 1 ⟨(run {} relief).engine, arrival⟩ after
        (run {} (relief ++ arrival :: catchUp)).engine := by
  have lawful : Lawful {} (relief ++ arrival :: catchUp) := by decide
  obtain ⟨⟨own, -⟩, replayed⟩ := dispatch_order lawful
  refine ⟨lawful, ⟨by decide, own⟩, _, rfl, ?_⟩
  refine replayed (run {} relief).past _ _ 1 rfl (by decide) ?_
  exact ⟨⟨(run {} (relief.take 5)).engine, .input 3 (.command .restart)⟩,
    List.mem_of_getLast? rfl, Or.inr (by decide)⟩

end History

end WorkerBridge
