/-
  WorkerBridge.Proofs.Traffic

  Requests on their way, while the engine goes on.

  What a dispatch hands over goes into the outbox of its worker, if there is
  room; otherwise the engine waits in the middle of its turn and answers nothing.
  A traffic is a run of the engine together with the ways to its workers, whose
  writers and readers act at any time.

  A request that still waits when the next one is handed over was given up: only
  one job is in flight, and a worker answers nothing that has not reached it.
  `Carries` says so of everything that waits, and `answer_carries` keeps it. So a
  dispatch finds at most as many requests before it as jobs of this worker have
  run out of time (`outbox_le_late`).
-/
import Mathlib.Data.List.Perm.Subperm
import Mathlib.Logic.Function.Basic
import WorkerBridge.Proofs.Checks
import WorkerBridge.Proofs.Way

namespace WorkerBridge

namespace Engine

variable {now : Nat} {e : Engine} {input : Input} {t : Turn}

/-! ## How flights end -/

/-- A dispatch leaves alone what is in flight. -/
theorem dispatch_keeps (now : Nat) {f : Flight} (hf : f ∈ e.flights.live) :
    f ∈ (dispatch now e).state.flights.live := by
  have busy : ¬ (e.lifecycle.isUp ∧ e.flights.isIdle) := by
    simp [InFlight.isIdle, List.ne_nil_of_mem hf]
  rwa [dispatch, if_neg busy]

/-- A job that is in flight under a worker that stays goes on, unless its time is up or a frame
    names it. -/
theorem Reacts.flight_cases (r : Reacts now e input t) (h : e.Consistent)
    (held : e.worker.isSome) (stays : t.state.worker.isSome) {f : Flight}
    (hf : f ∈ e.flights.live) :
    (∃ g ∈ t.state.flights.live, g.job.id = f.job.id) ∨ (input = .deadline ∧ f.isDue now) ∨
      e.Hears input f.job.id := by
  cases r with
  | ignored | shown => exact Or.inl ⟨f, hf, rfl⟩
  | submitted job =>
    rcases submit_cases now job e with ⟨-, heq⟩ | ⟨-, heq⟩
    · rw [heq]
      exact Or.inl ⟨f, hf, rfl⟩
    · rw [heq]
      exact Or.inl ⟨f, dispatch_keeps now hf, rfl⟩
  | cancelled id =>
    rcases cancel_cases id e with ⟨before, job, after, -, -, heq⟩ | ⟨-, heq⟩
    · rw [heq]
      exact Or.inl ⟨f, hf, rfl⟩
    · rw [heq]
      refine Or.inl ⟨_, List.mem_map_of_mem hf, ?_⟩
      split <;> rfl
  | restarted =>
    rw [restart_state] at stays
    cases stays
  | shutDown caller =>
    rw [shutdown_state] at stays
    cases stays
  | @heard w incoming alive current =>
    rcases receive_cases incoming e with
      ⟨g, hg, named, -⟩ | ⟨-, events, documents, failedRestarts, abandoned, -, -, heq⟩
    · -- The job that the frame names is the only one in flight.
      have same := h.live_eq_of_mem hg
      rw [same, List.mem_singleton] at hf
      rw [hf]
      exact Or.inr (Or.inr ⟨current, named⟩)
    · have kept : f ∈ (receive incoming e).state.flights.live := by
        rw [heq]
        exact hf
      exact Or.inl ⟨f, dispatch_keeps now kept, rfl⟩
  | lost reason =>
    rw [crash_state, scheduleRestart_worker] at stays
    cases stays
  | expired =>
    by_cases due : f.isDue now
    · exact Or.inr (Or.inl ⟨rfl, due⟩)
    · have kept : f ∈ (e.expired now).flights.live := by
        rw [expired_live]
        exact List.mem_filter.2 ⟨hf, by simp [due]⟩
      rw [onDeadline_eq]
      exact Or.inl ⟨f, dispatch_keeps now kept, rfl⟩
  | due =>
    rw [beginStart_state]
    exact Or.inl ⟨f, hf, rfl⟩
  | started result alive pending =>
    rw [(h.no_start_of_worker held).1] at pending
    cases pending

/-- What a dispatch hands over is in flight, and nothing else is. -/
theorem dispatch_flies (now : Nat) (up : e.lifecycle.isUp → e.worker.isSome) {s : Sent}
    (hs : s ∈ sends (dispatch now e).effects) :
    ∃ f, (dispatch now e).state.flights.live = [f] ∧ f.job.id = s.id := by
  rcases dispatch_cases now e up with
    ⟨-, heq⟩ | ⟨-, -, -, heq⟩ | ⟨w, job, rest, -, -, -, -, hstate, heffects⟩
  · rw [heq] at hs
    cases hs
  · rw [heq, sends_setState] at hs
    cases hs
  · rw [hstate]
    refine ⟨job.flight now, rfl, ?_⟩
    have handed : sends (dispatch now e).effects = [handed w job] := by
      rw [heffects, sends_append, sends_append, sends_announce]
      split <;> rfl
    rw [handed, List.mem_singleton] at hs
    rw [hs]
    rfl

/-- What a turn hands over is handed over by a dispatch at its end. -/
theorem Reacts.sends_last (r : Reacts now e input t) (h : e.Consistent) :
    sends t.effects = [] ∨ ∃ e' : Engine, (e'.lifecycle.isUp → e'.worker.isSome) ∧
      t.state = (dispatch now e').state ∧ sends t.effects = sends (dispatch now e').effects := by
  have last : ∀ {first : Turn}, sends first.effects = [] →
      sends (first.andThen (dispatch now)).effects = sends (dispatch now first.state).effects := by
    intro first silent
    rw [Turn.andThen_effects, sends_append, silent, List.nil_append]
  cases r with
  | ignored | shown => exact Or.inl rfl
  | cancelled | restarted | shutDown | lost | due => simp
  | submitted job =>
    rcases submit_cases now job e with ⟨-, heq⟩ | ⟨-, heq⟩
    · rw [heq, sends_append, sends_announce, sends_finish]
      exact Or.inl rfl
    · rw [heq]
      refine Or.inr ⟨_, ?_, rfl, last (sends_announce _)⟩
      exact h.up
  | heard incoming =>
    exact Or.inr ⟨_, (receive_unsettled incoming h).up, rfl, last (sends_receive incoming e)⟩
  | expired =>
    rw [onDeadline_eq]
    refine Or.inr ⟨_, ?_, rfl, last (sends_finish_flights ..)⟩
    exact h.up
  | started result =>
    cases result with
    | ok started =>
      rw [onStarted_ok]
      exact Or.inr ⟨_, fun _ => rfl, rfl, last (sends_greeting started e)⟩
    | error fault => exact Or.inl (sends_onStarted_error now fault e)

theorem Reacts.sent_flies (r : Reacts now e input t) (h : e.Consistent) {s : Sent}
    (hs : s ∈ sends t.effects) : ∃ f, t.state.flights.live = [f] ∧ f.job.id = s.id := by
  rcases r.sends_last h with none | ⟨e', up, hstate, hsends⟩
  · rw [none] at hs
    cases hs
  · rw [hsends] at hs
    rw [hstate]
    exact dispatch_flies now up hs

end Engine

/-! ## Jobs that ran out of time -/

/-- The jobs of the given worker that ran out of time in the turn. -/
def Moment.late (w : WorkerId) (m : Moment) : List JobId :=
  match m.occasion with
  | .input now .deadline =>
    if m.before.worker = some w then
      (m.before.flights.live.filter (·.isDue now)).map (·.job.id)
    else []
  | _ => []

/-- The jobs of the given worker that have run out of time. -/
def History.late (w : WorkerId) (h : History) : List JobId :=
  h.past.flatMap (Moment.late w)

@[simp] theorem History.late_extend (w : WorkerId) (h : History) (o : Occasion) :
    (h.extend o).late w = h.late w ++ Moment.late w ⟨h.engine, o⟩ := by
  simp [late]

theorem Moment.mem_late {w : WorkerId} {e : Engine} {now : Nat} {f : Flight}
    (current : e.worker = some w) (hf : f ∈ e.flights.live) (due : f.isDue now) :
    f.job.id ∈ late w ⟨e, .input now .deadline⟩ := by
  rw [late]
  dsimp only
  rw [if_pos current]
  exact List.mem_map_of_mem (List.mem_filter.2 ⟨hf, due⟩)

/-! ## Traffic -/

/-- What is handed to a worker, as it waits in the outbox. -/
def Sent.outgoing (s : Sent) : Outgoing :=
  .message (s.request.message s.id)

/-- A run of the engine, the ways to its workers, and what the engine is handing over while it has
to wait for room. -/
structure Traffic where
  history : History
  ways : WorkerId → Way
  held : Option Sent

/-- What happens next. -/
inductive Motion where
  /-- A caller takes the next identity for a job. -/
  | draw
  /-- The engine gets an input. -/
  | input (now : Nat) (input : Input)
  /-- The writer to a worker runs. -/
  | write (w : WorkerId) (broken : Bool) (fuel : Nat)
  /-- A worker reads. -/
  | read (w : WorkerId) (fuel : Nat)

namespace Traffic

/-- The engine has only been booted. -/
def boot (policy : RestartPolicy) : Traffic :=
  { history := .boot policy, ways := fun _ => .fresh, held := none }

/-- The engine hands something over, or waits for room. Once the writer has ended the request is
lost, and the engine learns that the channel is closed. -/
def handOver (t : Traffic) (s : Sent) : Traffic :=
  let way := t.ways s.worker
  if way.sender.writer = .ended then { t with held := none }
  else if way.sender.hasRoom then
    { t with ways := Function.update t.ways s.worker (way.put s.outgoing), held := none }
  else { t with held := some s }

/-- The engine goes on with what it is handing over. -/
def resume (t : Traffic) : Traffic :=
  t.held.elim t t.handOver

/-- The engine answers an input. -/
def answer (t : Traffic) (now : Nat) (input : Input) : Traffic :=
  (sends (t.history.engine.step now input).effects).foldl handOver
    { t with history := t.history.extend (.input now input) }

/-- What a motion leads to. An engine that waits for room takes no input; callers do not notice. -/
def step (t : Traffic) : Motion → Traffic
  | .draw => { t with history := t.history.extend .draw }
  | .input now input => if t.held.isSome then t else t.answer now input
  | .write w broken fuel =>
    resume { t with ways := Function.update t.ways w ((t.ways w).write broken fuel) }
  | .read w fuel => { t with ways := Function.update t.ways w ((t.ways w).read fuel) }

/-- The worker has received what it answers: no request under an identity that its frame names
still waits for the writer, and neither does the probe when it comes up. -/
def Honest (t : Traffic) : Input → Prop
  | .frame w incoming =>
    ∀ id ∈ incoming.names?, ∀ r : Request, .message (r.message id) ∉ (t.ways w).sender.outbox
  | .started _ (.ok started) => (t.ways started.worker).sender.outbox = []
  | _ => True

/-- Whether a motion may come next. -/
def Allows (t : Traffic) : Motion → Prop
  | .input now input => t.held = none → t.history.Allows (.input now input) ∧ t.Honest input
  | _ => True

/-- The traffic of a run whose surroundings keep their promises. -/
inductive Reachable (policy : RestartPolicy) : Traffic → Prop where
  | boot : Reachable policy (boot policy)
  | step {t : Traffic} {m : Motion} (reached : Reachable policy t) (allowed : t.Allows m) :
      Reachable policy (t.step m)

/-- An engine that does not wait answers. -/
theorem step_input {t : Traffic} (free : t.held = none) (now : Nat) (input : Input) :
    t.step (.input now input) = t.answer now input := by
  rw [step, free]
  rfl

/-- While the engine does not wait, only the way changes when its writer runs. -/
theorem step_write {t : Traffic} (free : t.held = none) (w : WorkerId) (broken : Bool)
    (fuel : Nat) :
    t.step (.write w broken fuel) =
      { t with ways := Function.update t.ways w ((t.ways w).write broken fuel) } := by
  rw [step, resume]
  dsimp only
  rw [free]
  rfl

/-! ## Handing over -/

@[simp] theorem handOver_history (t : Traffic) (s : Sent) : (t.handOver s).history = t.history := by
  rw [handOver]
  split
  · rfl
  · split <;> rfl

@[simp] theorem resume_history (t : Traffic) : t.resume.history = t.history := by
  cases h : t.held <;> simp [resume, h]

theorem answer_history (t : Traffic) (now : Nat) (input : Input) :
    (t.answer now input).history = t.history.extend (.input now input) := by
  have kept : ∀ (ss : List Sent) (t : Traffic), (ss.foldl handOver t).history = t.history := by
    intro ss
    induction ss with
    | nil => exact fun t => rfl
    | cons s ss ih => exact fun t => (ih _).trans (handOver_history t s)
  exact kept _ _

/-- The turns of a traffic are those of a lawful run. -/
theorem Reachable.lawful {policy : RestartPolicy} {t : Traffic} (reached : Reachable policy t) :
    ∃ os, History.Lawful policy os ∧ History.run policy os = t.history := by
  induction reached with
  | boot => exact ⟨[], trivial, rfl⟩
  | @step t m reached allowed ih =>
    obtain ⟨os, lawful, hrun⟩ := ih
    cases m with
    | draw =>
      refine ⟨os ++ [.draw], lawful.concat (o := .draw) trivial, ?_⟩
      rw [History.run_concat, hrun]
      rfl
    | input now input =>
      rw [Traffic.step]
      split
      · exact ⟨os, lawful, hrun⟩
      · next free =>
        have permitted := (allowed (by simpa using free)).1
        refine ⟨os ++ [.input now input], lawful.concat (hrun ▸ permitted), ?_⟩
        rw [History.run_concat, hrun, answer_history]
    | write w broken fuel =>
      refine ⟨os, lawful, ?_⟩
      rw [Traffic.step, resume_history]
      exact hrun
    | read w fuel => exact ⟨os, lawful, hrun⟩

theorem Reachable.consistent {policy : RestartPolicy} {t : Traffic} (reached : Reachable policy t) :
    t.history.engine.Consistent := by
  obtain ⟨os, -, hrun⟩ := reached.lawful
  rw [← hrun]
  exact History.run_consistent policy os

/-! ## What waits -/

/-- What waits on the way to a worker: it was handed over, no two requests under one identity, and
its jobs have run out of time or are in flight. -/
structure Carries (h : History) (w : WorkerId) (ss : List Sent) : Prop where
  nodup : (ss.map (·.id)).Nodup
  sent : ∀ s ∈ ss, s ∈ sends h.effects
  spent : ∀ s ∈ ss, s.id ∈ h.late w ∨ ∃ f ∈ h.engine.flights.live, f.job.id = s.id

theorem Carries.sublist {h : History} {w : WorkerId} {ss ss' : List Sent} (carries : Carries h w ss)
    (sub : ss'.Sublist ss) : Carries h w ss' where
  nodup := carries.nodup.sublist (sub.map _)
  sent := fun s hs => carries.sent s (sub.subset hs)
  spent := fun s hs => carries.spent s (sub.subset hs)

/-- All that waits on the way to the engine's worker is accounted for, in the outbox and with the
engine. -/
structure Accounted (t : Traffic) : Prop where
  current : ∀ s ∈ t.held, t.history.engine.worker = some s.worker
  waiting : ∀ w, t.history.engine.worker = some w → ∃ ss : List Sent,
    (t.ways w).sender.outbox = ss.map Sent.outgoing ∧ Carries t.history w (ss ++ t.held.toList)

theorem accounted_handOver {t : Traffic} {s : Sent}
    (current : t.history.engine.worker = some s.worker) {ss : List Sent}
    (outbox : (t.ways s.worker).sender.outbox = ss.map Sent.outgoing)
    (carries : Carries t.history s.worker (ss ++ [s])) : (t.handOver s).Accounted := by
  have only : ∀ w, t.history.engine.worker = some w → s.worker = w := fun w hw =>
    Option.some.inj (current.symm.trans hw)
  rw [handOver]
  split
  · refine ⟨(fun s hs => nomatch hs), fun w hw => ?_⟩
    obtain rfl := only w hw
    exact ⟨ss, outbox, carries.sublist (by simp)⟩
  · split
    · refine ⟨(fun s hs => nomatch hs), fun w hw => ?_⟩
      obtain rfl := only w hw
      refine ⟨ss ++ [s], ?_, by simpa using carries⟩
      simp [Way.put, Sender.put, outbox]
    · refine ⟨?_, fun w hw => ?_⟩
      · rintro s ⟨⟩
        exact current
      · obtain rfl := only w hw
        exact ⟨ss, outbox, carries⟩

theorem Accounted.resume {t : Traffic} (accounted : t.Accounted) : t.resume.Accounted := by
  cases held : t.held with
  | none =>
    rw [Traffic.resume, held]
    exact accounted
  | some s =>
    have current := accounted.current s held
    obtain ⟨ss, outbox, carries⟩ := accounted.waiting s.worker current
    rw [Traffic.resume, held]
    rw [held] at carries
    exact accounted_handOver current outbox carries

/-- The writer takes away what has waited longest. -/
theorem Accounted.write {t : Traffic} (accounted : t.Accounted) (w : WorkerId) (broken : Bool)
    (fuel : Nat) : (t.step (.write w broken fuel)).Accounted := by
  refine Accounted.resume ⟨accounted.current, fun w' hw' => ?_⟩
  obtain ⟨ss, outbox, carries⟩ := accounted.waiting w' hw'
  by_cases same : w' = w
  · subst same
    obtain ⟨front, rest⟩ := (t.ways w').write_outbox broken fuel
    rw [outbox, eq_comm, List.map_eq_append_iff] at rest
    obtain ⟨taken, left, rfl, -, hleft⟩ := rest
    refine ⟨left, ?_, carries.sublist (by simp)⟩
    dsimp only
    rw [Function.update_self, hleft]
  · refine ⟨ss, ?_, carries⟩
    dsimp only
    rw [Function.update_of_ne same]
    exact outbox

theorem Accounted.read {t : Traffic} (accounted : t.Accounted) (w : WorkerId) (fuel : Nat) :
    (t.step (.read w fuel)).Accounted := by
  refine ⟨accounted.current, fun w' hw' => ?_⟩
  obtain ⟨ss, outbox, carries⟩ := accounted.waiting w' hw'
  refine ⟨ss, ?_, carries⟩
  rw [← outbox, Traffic.step]
  dsimp only
  by_cases same : w' = w
  · subst same
    rw [Function.update_self]
    rfl
  · rw [Function.update_of_ne same]

theorem Accounted.draw {t : Traffic} (accounted : t.Accounted) : (t.step .draw).Accounted := by
  refine ⟨accounted.current, fun w hw => ?_⟩
  obtain ⟨ss, outbox, carries⟩ := accounted.waiting w hw
  refine ⟨ss, outbox, carries.nodup, ?_, ?_⟩
  · intro s hs
    rw [Traffic.step, History.effects_extend, sends_append]
    exact List.mem_append_left _ (carries.sent s hs)
  · intro s hs
    rw [Traffic.step, History.late_extend]
    exact (carries.spent s hs).imp_left (List.mem_append_left _)

/-- What was handed over before, and what is handed over now, has different identities. -/
theorem sends_nodup {policy : RestartPolicy} {os : List Occasion}
    (lawful : History.Lawful policy os) :
    ((sends (History.run policy os).effects).map (·.id)).Nodup := by
  have once := (History.lawful_handed_once lawful).1
  rw [List.map_append, List.nodup_append, tasks, List.map_map] at once
  exact once.1

/-- **What waits was given up.** After an input all that waits on the way to the worker, with what
    is handed over now, belongs to jobs that have run out of time or are in flight. -/
theorem answer_carries {policy : RestartPolicy} {t : Traffic} (reached : Reachable policy t)
    (accounted : t.Accounted) (free : t.held = none) {now : Nat} {input : Input}
    (allowed : t.history.Allows (.input now input)) (honest : t.Honest input) {w : WorkerId}
    (current : (t.history.engine.step now input).state.worker = some w) :
    ∃ ss : List Sent, (t.ways w).sender.outbox = ss.map Sent.outgoing ∧
      Carries (t.history.extend (.input now input)) w
        (ss ++ sends (t.history.engine.step now input).effects) := by
  obtain ⟨os, lawful, hrun⟩ := reached.lawful
  have consistent := reached.consistent
  have reacts := Engine.step_reacts now t.history.engine input
  have nodup : ((sends (t.history.effects ++
      (t.history.engine.step now input).effects)).map (·.id)).Nodup := by
    have once := sends_nodup (lawful.concat (hrun ▸ allowed))
    rwa [History.run_concat, hrun, History.effects_extend] at once
  rw [sends_append, List.map_append, List.nodup_append] at nodup
  -- What is handed over now joins what has waited under other identities.
  have joined : ∀ ss : List Sent, (ss.map (·.id)).Nodup →
      (∀ s ∈ ss, s ∈ sends t.history.effects) →
      (∀ s ∈ ss, s.id ∈ (t.history.extend (.input now input)).late w ∨
        ∃ f ∈ (t.history.engine.step now input).state.flights.live, f.job.id = s.id) →
      Carries (t.history.extend (.input now input)) w
        (ss ++ sends (t.history.engine.step now input).effects) := by
    intro ss distinct sent spent
    refine ⟨?_, ?_, ?_⟩
    · rw [List.map_append, List.nodup_append]
      refine ⟨distinct, nodup.2.1, fun a ha b hb => ?_⟩
      obtain ⟨s, hs, rfl⟩ := List.mem_map.1 ha
      exact nodup.2.2 s.id (List.mem_map_of_mem (sent s hs)) b hb
    · rw [History.effects_extend, sends_append]
      intro s hs
      exact List.mem_append.2 ((List.mem_append.1 hs).imp_left (sent s))
    · intro s hs
      rcases List.mem_append.1 hs with old | new
      · exact spent s old
      · obtain ⟨f, alone, hf⟩ := reacts.sent_flies consistent new
        exact Or.inr ⟨f, by rw [History.engine_extend]; exact alone ▸ List.mem_singleton_self f, hf⟩
  rcases reacts.worker_cases consistent current with same | ⟨start, started, rfl, rfl⟩
  · obtain ⟨ss, outbox, carries⟩ := accounted.waiting w same
    rw [free, Option.toList_none, List.append_nil] at carries
    refine ⟨ss, outbox, joined ss carries.nodup carries.sent fun s hs => ?_⟩
    rw [History.late_extend]
    rcases carries.spent s hs with late | ⟨f, hf, hid⟩
    · exact Or.inl (List.mem_append_left _ late)
    · rcases reacts.flight_cases consistent (by rw [same]; rfl) (by rw [current]; rfl) hf with
        ⟨g, hg, hgid⟩ | ⟨rfl, due⟩ | heard
      · exact Or.inr ⟨g, hg, hgid.trans hid⟩
      · rw [← hid]
        exact Or.inl (List.mem_append_right _ (Moment.mem_late same hf due))
      · -- The worker names a job whose request has not left the outbox.
        cases input with
        | frame v incoming =>
          obtain ⟨rfl⟩ := Option.some.inj (same.symm.trans heard.1)
          refine absurd ?_ (honest f.job.id heard.2 s.request)
          rw [outbox, hid]
          exact List.mem_map_of_mem hs
        | command | closed | deadline | restartDue | started => cases heard
  · exact ⟨[], honest, joined [] List.nodup_nil (fun s hs => nomatch hs) fun s hs => nomatch hs⟩

/-- A turn hands over nothing, or one request, which goes to the worker that is there after it. -/
theorem answer_cases {policy : RestartPolicy} {t : Traffic} (reached : Reachable policy t)
    (now : Nat) (input : Input) :
    (sends (t.history.engine.step now input).effects = [] ∧
      t.answer now input = { t with history := t.history.extend (.input now input) }) ∨
    ∃ s, sends (t.history.engine.step now input).effects = [s] ∧
      (t.history.engine.step now input).state.worker = some s.worker ∧
      t.answer now input =
        handOver { t with history := t.history.extend (.input now input) } s := by
  rcases (Engine.step_reacts now t.history.engine input).sends_one reached.consistent with
    none | ⟨s, one, current⟩
  · exact Or.inl ⟨none, by rw [answer, none]; rfl⟩
  · exact Or.inr ⟨s, one, current, by rw [answer, one]; rfl⟩

theorem Accounted.answer {policy : RestartPolicy} {t : Traffic} (reached : Reachable policy t)
    (accounted : t.Accounted) (free : t.held = none) {now : Nat} {input : Input}
    (allowed : t.history.Allows (.input now input)) (honest : t.Honest input) :
    (t.answer now input).Accounted := by
  have carries : ∀ w, (t.history.engine.step now input).state.worker = some w → _ := fun w =>
    answer_carries reached accounted free allowed honest
  rcases answer_cases reached now input with ⟨none, hanswer⟩ | ⟨s, one, current, hanswer⟩
  · rw [hanswer]
    refine ⟨?_, fun w hw => ?_⟩
    · dsimp only
      rw [free]
      exact fun s hs => nomatch hs
    · obtain ⟨ss, outbox, all⟩ := carries w hw
      rw [none] at all
      exact ⟨ss, outbox, by rwa [free]⟩
  · obtain ⟨ss, outbox, all⟩ := carries s.worker current
    rw [one] at all
    rw [hanswer]
    exact accounted_handOver current outbox all

theorem Reachable.accounted {policy : RestartPolicy} {t : Traffic} (reached : Reachable policy t) :
    t.Accounted := by
  induction reached with
  | boot => exact ⟨(fun s hs => nomatch hs), fun w hw => nomatch hw⟩
  | @step t m reached allowed accounted =>
    cases m with
    | draw => exact accounted.draw
    | input now input =>
      rw [Traffic.step]
      split
      · exact accounted
      · next free =>
        have free : t.held = none := by simpa using free
        exact .answer reached accounted free (allowed free).1 (allowed free).2
    | write w broken fuel => exact accounted.write w broken fuel
    | read w fuel => exact accounted.read w fuel

/-- **A dispatch finds only what was given up.** At most as many requests wait before the one that
    is handed over as jobs of its worker have run out of time. -/
theorem outbox_le_late {policy : RestartPolicy} {t : Traffic} (reached : Reachable policy t)
    (free : t.held = none) {now : Nat} {input : Input} (allowed : t.Allows (.input now input))
    {s : Sent} (hs : s ∈ sends (t.history.engine.step now input).effects) :
    (t.ways s.worker).sender.outbox.length ≤
      ((t.history.extend (.input now input)).late s.worker).length := by
  obtain ⟨permitted, honest⟩ := allowed free
  have consistent := reached.consistent
  have reacts := Engine.step_reacts now t.history.engine input
  have current := reacts.sends_to consistent hs
  obtain ⟨ss, outbox, carries⟩ :=
    answer_carries reached reached.accounted free permitted honest current
  obtain ⟨f, alone, hid⟩ := reacts.sent_flies consistent hs
  -- Only the request that is handed over now is in flight.
  have distinct := carries.nodup
  rw [List.map_append, List.nodup_append] at distinct
  have late : ss.map (·.id) ⊆ (t.history.extend (.input now input)).late s.worker := by
    intro id hmem
    obtain ⟨s', hs', rfl⟩ := List.mem_map.1 hmem
    rcases carries.spent s' (List.mem_append_left _ hs') with late | ⟨g, hg, hgid⟩
    · exact late
    · rw [History.engine_extend, Engine.answer, alone, List.mem_singleton] at hg
      rw [hg, hid] at hgid
      exact absurd hgid.symm
        (distinct.2.2 s'.id hmem s.id (List.mem_map_of_mem hs))
  rw [outbox, List.length_map, ← List.length_map (·.id)]
  exact (List.Nodup.subperm distinct.1 late).length_le

/-- While fewer jobs than the outbox holds have run out of time, the engine does not wait. -/
theorem answer_free {policy : RestartPolicy} {t : Traffic} (reached : Reachable policy t)
    (free : t.held = none) {now : Nat} {input : Input} (allowed : t.Allows (.input now input))
    (few : ∀ w, ((t.history.extend (.input now input)).late w).length < Link.outboxCapacity) :
    (t.answer now input).held = none := by
  rcases answer_cases reached now input with ⟨-, hanswer⟩ | ⟨s, one, -, hanswer⟩
  · rw [hanswer]
    exact free
  · have found := outbox_le_late reached free allowed (one ▸ List.mem_singleton_self s)
    have room : (t.ways s.worker).sender.hasRoom := by
      rw [Sender.hasRoom, decide_eq_true_iff]
      exact Nat.lt_of_le_of_lt found (few s.worker)
    rw [hanswer, handOver]
    dsimp only
    split
    · rfl
    · rfl

end Traffic

end WorkerBridge
