/-
  WorkerBridge.Proofs.Accounts

  Nothing that is owed about a job is lost or paid twice.

  About every job that the engine holds, queued or in flight, it still owes the
  editor a report that the job has finished, and the caller that waits on it an
  answer. A turn is balanced when what was owed before it, and what comes with the
  jobs it takes on, is what is owed after it and what it has settled. Balance is
  kept by sequencing, so it is shown turn by turn, and a run is balanced because
  every turn is.
-/
import WorkerBridge.Proofs.Lifecycle

namespace WorkerBridge

/-! ## What is owed -/

/-- Something that has to be said about a job. -/
inductive Due where
  /-- The editor has to hear that the job has finished. -/
  | report (id : JobId)
  /-- The caller has to hear what came of it. -/
  | answer (caller : Ticket)

/-- Whether a job that is held owes something. -/
def Job.owes : Due → Job → Bool
  | .report id, j => j.id = id
  | .answer caller, j => j.waiter = some caller

/-- Whether an effect is what was owed. -/
def Effect.settles : Due → Effect → Bool
  | .report id, .emit (.finished finished _ _) => finished = id
  | .answer caller, .tell told _ => told = caller
  | _, _ => false

/-- How often the effects settle something. -/
def settled (d : Due) (effects : List Effect) : Nat :=
  effects.countP (Effect.settles d)

/-- How many of the jobs that the engine holds owe something. -/
def Engine.owes (d : Due) (e : Engine) : Nat :=
  e.queue.jobs.countP (Job.owes d) + e.flights.live.countP fun f => f.job.owes d

@[simp] theorem settled_nil (d : Due) : settled d [] = 0 := rfl

@[simp] theorem settled_append (d : Due) (xs ys : List Effect) :
    settled d (xs ++ ys) = settled d xs + settled d ys :=
  List.countP_append

theorem settled_eq_zero {d : Due} {effects : List Effect} :
    settled d effects = 0 ↔ ∀ x ∈ effects, x.settles d = false := by
  simp [settled, List.countP_eq_zero]

theorem settled_announce (d : Due) {events : List Event} (h : ∀ x ∈ events, x.isDiagnostic) :
    settled d (Engine.announce events) = 0 := by
  rw [settled_eq_zero]
  intro effect heffect
  obtain ⟨x, hx, rfl⟩ := List.mem_map.1 heffect
  have diagnostic := h x hx
  cases x <;> cases d <;> first | rfl | cases diagnostic

/-- Retiring a job settles exactly what it owes. -/
theorem settled_finish (d : Due) (j : Job) (outcome : Outcome) :
    settled d (Engine.finish j outcome) = if j.owes d then 1 else 0 := by
  cases d with
  | report id =>
    cases hw : j.waiter <;>
      simp [Engine.finish, settled, Effect.settles, Job.owes, hw, List.countP_cons]
  | answer caller =>
    cases hw : j.waiter <;>
      simp [Engine.finish, settled, Effect.settles, Job.owes, hw, List.countP_cons]

theorem settled_finish_all {α : Type} (d : Due) (job : α → Job) (outcome : α → Outcome)
    (xs : List α) :
    settled d (xs.flatMap fun x => Engine.finish (job x) (outcome x)) =
      xs.countP fun x => (job x).owes d := by
  induction xs with
  | nil => rfl
  | cons x xs ih =>
    rw [List.flatMap_cons, settled_append, settled_finish, ih, List.countP_cons]
    exact Nat.add_comm ..

theorem settled_finish_queue (d : Due) (outcome : Outcome) (jobs : List Job) :
    settled d (jobs.flatMap (Engine.finish · outcome)) = jobs.countP (Job.owes d) :=
  settled_finish_all d id (fun _ => outcome) jobs

theorem settled_finish_flights (d : Due) (outcome : Flight → Outcome) (flights : List Flight) :
    settled d (flights.flatMap fun f => Engine.finish f.job (outcome f)) =
      flights.countP fun f => f.job.owes d :=
  settled_finish_all d Flight.job outcome flights

namespace Engine

/-! ## Balance -/

/-- What was owed, with what comes in with the given jobs, is owed on or settled. -/
def Balanced (e : Engine) (taken : List Job) (t : Turn) : Prop :=
  ∀ d, e.owes d + taken.countP (Job.owes d) = t.state.owes d + settled d t.effects

theorem Balanced.andThen {e : Engine} {taken : List Job} {t : Turn} {f : Engine → Turn}
    (first : Balanced e taken t) (second : Balanced t.state [] (f t.state)) :
    Balanced e taken (t.andThen f) := by
  intro d
  have h1 := first d
  have h2 := second d
  simp only [Turn.andThen_state, Turn.andThen_effects, settled_append, List.countP_nil] at h2 ⊢
  omega

/-- A turn that holds on to all jobs and settles nothing is balanced. -/
theorem Balanced.of_unchanged {e : Engine} {t : Turn} (queue : t.state.queue = e.queue)
    (live : t.state.flights.live = e.flights.live) (silent : ∀ d, settled d t.effects = 0) :
    Balanced e [] t := by
  intro d
  simp [owes, queue, live, silent d]

/-- Announcing a lifecycle state, or not, settles nothing. -/
theorem settled_state (d : Due) (s s' : Lifecycle) :
    settled d (if s' = s then [] else proclaim s) = 0 := by
  split <;> cases d <;> rfl

theorem settled_notify (d : Due) (level : NotifyLevel) (message : String) :
    settled d [notify level message] = 0 := by
  cases d <;> rfl

theorem setState_balanced (s : Lifecycle) (e : Engine) : Balanced e [] (setState s e) :=
  .of_unchanged (by simp) (by simp) fun d => setState_effects s e ▸ settled_state d s e.lifecycle

theorem beginStart_balanced (e : Engine) : Balanced e [] (beginStart e) := by
  refine .of_unchanged (by simp) (by simp) fun d => ?_
  rw [beginStart_effects, settled_append, settled_state]
  cases d <;> rfl

theorem scheduleRestart_balanced (now : Nat) (e : Engine) :
    Balanced e [] (scheduleRestart now e) := by
  intro d
  rcases scheduleRestart_cases now e with ⟨-, hstate, heffects⟩ | ⟨-, hstate, heffects⟩
  · rw [hstate, heffects, settled_state]
    rfl
  · rw [hstate, heffects]
    simp only [owes, settled_append, settled_finish_queue, settled_state, settled_notify,
      List.countP_nil]
    omega

/-- What is said to a worker or a start, if there is one, settles nothing. -/
theorem settled_toList {α : Type} (d : Due) (x : Option α) (effect : α → Effect)
    (silent : ∀ a, (effect a).settles d = false) : settled d (x.map effect).toList = 0 := by
  cases x with
  | none => rfl
  | some a => simp [settled, silent]

theorem crash_balanced (now : Nat) (reason : CloseReason) (e : Engine) :
    Balanced e [] (crash now reason e) := by
  intro d
  have abandoned := settled_toList d e.worker Effect.abandon fun _ => by cases d <;> rfl
  have scheduled := scheduleRestart_balanced now
    { e with worker := none, flights := {}, queue := {}, replayOnReady := true } d
  rw [crash_state, crash_effects]
  simp only [owes, settled_append, abandoned, settled_finish_flights, settled_finish_queue,
    settled_notify, List.countP_nil] at scheduled ⊢
  omega

theorem restart_balanced (e : Engine) : Balanced e [] (restart e) := by
  intro d
  have aborted := settled_toList d e.startup Effect.abortStart fun _ => by cases d <;> rfl
  have retired := settled_toList d e.worker (Effect.retire · ⟨e.nextId⟩) fun _ => by
    cases d <;> rfl
  have started : settled d [.start e.nextStart] = 0 := by cases d <;> rfl
  rw [restart_state, restart_effects]
  simp only [owes, settled_append, aborted, settled_finish_flights, retired, settled_state,
    started, List.countP_nil]
  omega

theorem shutdown_balanced (caller : Option Ticket) (e : Engine) :
    Balanced e [] (shutdown caller e) := by
  intro d
  have aborted := settled_toList d e.startup Effect.abortStart fun _ => by cases d <;> rfl
  have retired := settled_toList d e.worker (Effect.retireAndWait · ⟨e.nextId⟩) fun _ => by
    cases d <;> rfl
  have dismissed := settled_toList d caller Effect.dismiss fun _ => by cases d <;> rfl
  rw [shutdown_state, shutdown_effects]
  simp only [owes, settled_append, aborted, settled_finish_flights, settled_finish_queue, retired,
    settled_state, dismissed, List.countP_nil]
  omega

/-- A dispatch moves a job from the queue to the flights, and drops none. -/
theorem dispatch_balanced (now : Nat) {e : Engine} (up : e.lifecycle.isUp → e.worker.isSome) :
    Balanced e [] (dispatch now e) := by
  rcases dispatch_cases now e up with
    ⟨-, heq⟩ | ⟨-, -, -, heq⟩ | ⟨w, job, rest, -, idle, -, hq, hstate, heffects⟩
  · rw [heq]
    exact .of_unchanged rfl rfl fun d => rfl
  · rw [heq]
    exact setState_balanced _ _
  · intro d
    have cleared := settled_announce d (e.documentsAt_isDiagnostic job)
    have sent : settled d [.send w job.id job.request] = 0 := by cases d <;> rfl
    rw [hstate, heffects, settled_append, settled_append, cleared, settled_state, sent]
    simp [owes, launch, hq, idle, Job.flight, List.countP_cons]

theorem submit_balanced (now : Nat) (job : Job) {e : Engine}
    (up : e.lifecycle.isUp → e.worker.isSome) : Balanced e [job] (submit now job e) := by
  have followed := fun d => settled_announce d (e.documents.follow_isDiagnostic job.request)
  rcases submit_cases now job e with ⟨-, heq⟩ | ⟨-, heq⟩
  · intro d
    rw [heq]
    simp [owes, following, followed, settled_finish, List.countP_cons]
  · rw [heq]
    refine .andThen (fun d => ?_) (dispatch_balanced now up)
    simp only [owes, following, followed, Queue.push, List.countP_append]
    omega

theorem cancel_balanced (id : JobId) {e : Engine} (h : e.Consistent) :
    Balanced e [] (cancel id e) := by
  rcases cancel_cases id e with ⟨before, job, after, hq, -, heq⟩ | ⟨-, heq⟩
  · intro d
    rw [heq]
    simp only [owes, hq, settled_finish, List.countP_append, List.countP_cons, List.countP_nil]
    omega
  · rw [heq]
    rcases h.live_cases with none | ⟨f, one⟩
    · refine .of_unchanged rfl (by simp [InFlight.cancel, none]) fun d => ?_
      simp [InFlight.find?, none]
    · intro d
      by_cases hid : f.job.id = id
      · -- The report stays owed; the answer is given now, and the waiter is struck off.
        cases d <;> cases hw : f.job.waiter <;>
          simp [owes, InFlight.cancel, InFlight.find?, one, hid, hw, Job.owes, Job.told,
            settled, Effect.settles, List.countP_cons]
      · simp [owes, InFlight.cancel, InFlight.find?, one, hid]

theorem receive_balanced (incoming : Incoming) {e : Engine} (h : e.Consistent) :
    Balanced e [] (receive incoming e) := by
  rcases receive_cases incoming e with
    ⟨f, hf, -, events, documents, failedRestarts, diagnostic, -, heq⟩ |
    ⟨-, events, documents, failedRestarts, abandoned, diagnostic, -, heq⟩
  · -- The job that the frame names is the only one in flight.
    intro d
    rw [heq]
    simp [owes, h.live_eq_of_mem hf, settled_announce d diagnostic, settled_finish,
      List.countP_cons]
  · rw [heq]
    exact .of_unchanged rfl rfl fun d => settled_announce d diagnostic

theorem onDeadline_balanced (now : Nat) {e : Engine}
    (up : e.lifecycle.isUp → e.worker.isSome) : Balanced e [] (onDeadline now e) := by
  rw [onDeadline_eq]
  refine .andThen (fun d => ?_) (dispatch_balanced now up)
  -- The flights are those whose time is up, which are retired, and the others, which stay.
  have split := List.countP_eq_countP_filter_add e.flights.live (fun f => f.job.owes d)
    (fun f => f.isDue now)
  simp only [owes, expired_live, settled_finish_flights, List.countP_nil]
  simp only [expired]
  omega

theorem onStarted_balanced (now : Nat) (result : Except StartFault Started) (e : Engine) :
    Balanced e (match result with | .ok _ => e.replayed | .error _ => [])
      (onStarted now result e) := by
  cases result with
  | ok started =>
    rw [onStarted_ok]
    refine .andThen (fun d => ?_) (dispatch_balanced now fun _ => rfl)
    have greeted : settled d (greeting started) = 0 :=
      settled_toList d started.version _ fun _ => by cases d <;> rfl
    simp only [owes, welcome, Queue.pushAhead, settled_append, greeted, settled_state,
      List.countP_append]
    omega
  | error fault =>
    rw [onStarted_error]
    refine .andThen (fun d => ?_) (scheduleRestart_balanced now _)
    simp only [owes, settled_append, settled_finish_queue, settled_notify, List.countP_nil]
    omega

/-! ## Steps and runs -/

theorem admits_of_ignores {now : Nat} {e : Engine} {input : Input} (h : e.Ignores now input) :
    e.admits input = [] := by
  cases input with
  | command c =>
    have ended := e.hasEnded_iff.2 h
    cases c <;> simp [admits, ended]
  | started start result =>
    cases result with
    | error fault => rfl
    | ok started =>
      rcases h with h | h
      · have ended := e.hasEnded_iff.2 h
        simp [admits, ended]
      · simp [admits, h]
  | _ => rfl

theorem admits_submit {e : Engine} (alive : e.lifecycle ≠ .stopped) (job : Job) :
    e.admits (.command (.submit job)) = [job] := by
  simp [admits, hasEnded, alive]

theorem admits_started {e : Engine} (alive : e.lifecycle ≠ .stopped) {start : StartId}
    (pending : e.startup = some start) (result : Except StartFault Started) :
    e.admits (.started start result) =
      match result with | .ok _ => e.replayed | .error _ => [] := by
  cases result with
  | error fault => rfl
  | ok started => simp [admits, hasEnded, alive, pending, replayed]

/-- **Every reaction is balanced**, whatever the input. -/
theorem Reacts.balanced {now : Nat} {e : Engine} {input : Input} {t : Turn}
    (r : Reacts now e input t) (h : e.Consistent) : Balanced e (e.admits input) t := by
  cases r with
  | ignored hi =>
    rw [admits_of_ignores hi]
    exact .of_unchanged rfl rfl fun d => rfl
  | submitted job alive =>
    rw [admits_submit alive]
    exact submit_balanced now job h.up
  | cancelled id => exact cancel_balanced id h
  | restarted => exact restart_balanced e
  | shown caller => exact .of_unchanged rfl rfl fun d => by cases d <;> rfl
  | shutDown caller => exact shutdown_balanced caller e
  | heard incoming =>
    exact .andThen (receive_balanced incoming h)
      (dispatch_balanced now (receive_unsettled incoming h).up)
  | lost reason => exact crash_balanced now reason e
  | expired => exact onDeadline_balanced now h.up
  | due => exact beginStart_balanced e
  | started result alive pending =>
    rw [admits_started alive pending]
    exact onStarted_balanced now result e

end Engine

/-- What the engine has taken on in a run is owed still, or settled. -/
theorem History.run_balanced (policy : RestartPolicy) (os : List Occasion) (d : Due) :
    (run policy os).admitted.countP (Job.owes d) =
      (run policy os).engine.owes d + settled d (run policy os).effects := by
  refine (run_induction (P := fun h => h.engine.Consistent ∧ ∀ d,
    h.admitted.countP (Job.owes d) = h.engine.owes d + settled d h.effects) ?_ ?_ os).2 d
  · exact ⟨Engine.boot_consistent policy, fun d => rfl⟩
  · rintro h o ⟨consistent, balanced⟩
    refine ⟨Engine.answer_consistent o consistent, fun d => ?_⟩
    have turn : Engine.Balanced h.engine (Moment.admitted ⟨h.engine, o⟩) (h.engine.answer o) := by
      cases o with
      | draw => exact .of_unchanged rfl rfl fun d => rfl
      | input now input => exact (Engine.step_reacts now h.engine input).balanced consistent
    -- What was owed before the turn cancels out.
    have hturn := turn d
    have hpast := balanced d
    simp only [admitted_extend, effects_extend, engine_extend, List.countP_append, settled_append]
    omega

end WorkerBridge
