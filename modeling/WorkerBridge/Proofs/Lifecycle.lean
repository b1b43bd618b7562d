/-
  WorkerBridge.Proofs.Lifecycle

  The lifecycle state of the engine agrees with everything else it holds, after
  every turn of every run.

  `Engine.Consistent` ties the lifecycle to the flights, the worker, the start, the
  restart timer and the queue. Most turns end in a dispatch, and reach it with a
  weaker relation, `Engine.Unsettled`: a job may just have been retired while the
  lifecycle is still busy, or just have been queued while the worker is ready.
  `dispatch_consistent` restores the invariant from there.
-/
import WorkerBridge.Proofs.Turns

namespace WorkerBridge.Engine

/-! ## The invariant -/

/-- The lifecycle of the engine agrees with its parts. -/
structure Consistent (e : Engine) : Prop where
  /-- At most one job is in flight. -/
  single : e.flights.live.length ≤ 1
  /-- The worker is busy exactly while a job is in flight. -/
  busy : e.lifecycle = .busy ↔ e.flights.live.length = 1
  /-- There is a worker exactly while it is ready or busy. -/
  worker : e.worker.isSome ↔ e.lifecycle = .ready ∨ e.lifecycle = .busy
  /-- A start is under way exactly while the worker is starting. -/
  startup : e.startup.isSome ↔ e.lifecycle = .starting
  /-- The restart timer is armed exactly after a crash. -/
  timer : e.restartAt.isSome ↔ e.lifecycle = .crashed
  /-- No job waits for an idle worker, or where it would wait forever. -/
  vacant : e.lifecycle = .ready ∨ e.lifecycle = .unavailable ∨ e.lifecycle = .stopped →
    e.queue.jobs = []

/-- A state that a dispatch is about to settle. -/
structure Unsettled (e : Engine) : Prop where
  single : e.flights.live.length ≤ 1
  busy : e.flights.live ≠ [] → e.lifecycle = .busy
  worker : e.worker.isSome ↔ e.lifecycle = .ready ∨ e.lifecycle = .busy
  startup : e.startup.isSome ↔ e.lifecycle = .starting
  timer : e.restartAt.isSome ↔ e.lifecycle = .crashed
  vacant : e.lifecycle = .unavailable ∨ e.lifecycle = .stopped → e.queue.jobs = []

theorem isUp_iff (s : Lifecycle) : s.isUp ↔ s = .ready ∨ s = .busy := by
  cases s <;> simp [Lifecycle.isUp]

theorem rejectsJobs_iff (s : Lifecycle) : s.rejectsJobs ↔ s = .unavailable ∨ s = .stopped := by
  cases s <;> simp [Lifecycle.rejectsJobs]

namespace Unsettled

variable {e : Engine}

theorem up (h : e.Unsettled) : e.lifecycle.isUp → e.worker.isSome :=
  fun up => h.worker.2 ((isUp_iff _).1 up)

end Unsettled

namespace Consistent

variable {e : Engine}

theorem up (h : e.Consistent) : e.lifecycle.isUp → e.worker.isSome :=
  fun up => h.worker.2 ((isUp_iff _).1 up)

/-- While no job is in flight the worker is not busy, and the other way round. -/
theorem live_eq_nil (h : e.Consistent) (idle : e.lifecycle ≠ .busy) : e.flights.live = [] := by
  have hsingle := h.single
  have hlength : e.flights.live.length ≠ 1 := fun one => idle (h.busy.2 one)
  exact List.length_eq_zero_iff.1 (by omega)

theorem busy_of_live (h : e.Consistent) (flying : e.flights.live ≠ []) :
    e.lifecycle = .busy := by
  by_cases busy : e.lifecycle = .busy
  · exact busy
  · exact absurd (h.live_eq_nil busy) flying

theorem live_cases (h : e.Consistent) :
    e.flights.live = [] ∨ ∃ f, e.flights.live = [f] := by
  cases hlive : e.flights.live with
  | nil => exact Or.inl rfl
  | cons f rest =>
    have single := h.single
    rw [hlive, List.length_cons] at single
    rw [List.length_eq_zero_iff.1 (show rest.length = 0 by omega)]
    exact Or.inr ⟨f, rfl⟩

/-- The flight that a frame names is the only one. -/
theorem live_eq_of_mem (h : e.Consistent) {f : Flight}
    (hf : f ∈ e.flights.live) : e.flights.live = [f] := by
  rcases h.live_cases with none | ⟨g, one⟩
  · rw [none] at hf
    cases hf
  · rw [one, List.mem_singleton] at hf
    rw [one, hf]

theorem unsettled (h : e.Consistent) : e.Unsettled where
  single := h.single
  busy := h.busy_of_live
  worker := h.worker
  startup := h.startup
  timer := h.timer
  vacant := fun closed => h.vacant (Or.inr closed)

/-- Where there is a worker, neither a start nor a timer is pending. -/
theorem no_start_of_worker (h : e.Consistent) (held : e.worker.isSome) :
    e.startup = none ∧ e.restartAt = none := by
  have up := h.worker.1 held
  constructor
  · rw [← Option.not_isSome_iff_eq_none, h.startup]
    rcases up with up | up <;> simp [up]
  · rw [← Option.not_isSome_iff_eq_none, h.timer]
    rcases up with up | up <;> simp [up]

theorem no_worker (h : e.Consistent) (ready : e.lifecycle ≠ .ready) (busy : e.lifecycle ≠ .busy) :
    e.worker = none := by
  rw [← Option.not_isSome_iff_eq_none, h.worker]
  simp [ready, busy]

end Consistent

/-! ## Turns -/

/-- Whatever was retired or queued before it, a dispatch restores the invariant. -/
theorem dispatch_consistent (now : Nat) {e : Engine} (h : e.Unsettled) :
    (dispatch now e).state.Consistent := by
  rcases dispatch_cases now e h.up with
    ⟨blocked, heq⟩ | ⟨up, idle, empty, heq⟩ | ⟨w, job, rest, up, idle, hw, hq, hstate, -⟩
  · -- Nothing is dispatched: the worker is down, or it has a job in flight.
    rw [heq, idle_state]
    have flying : e.lifecycle.isUp → e.flights.live ≠ [] := fun up idle => blocked ⟨up, idle⟩
    refine ⟨h.single, ⟨?_, ?_⟩, h.worker, h.startup, h.timer, ?_⟩
    · intro busy
      have hne := flying ((isUp_iff _).2 (Or.inr busy))
      have hlen := List.length_pos_iff.2 hne
      have hsingle := h.single
      omega
    · intro one
      exact h.busy (List.length_pos_iff.1 (by omega))
    · rintro (ready | closed)
      · have busy := h.busy (flying ((isUp_iff _).2 (Or.inl ready)))
        rw [ready] at busy
        cases busy
      · exact h.vacant closed
  · -- Nothing waits, so the worker is ready.
    rw [heq, setState_state]
    obtain ⟨v, hv⟩ := Option.isSome_iff_exists.1 (h.up up)
    have hstartup := h.startup
    have htimer := h.timer
    constructor
    · simp [idle]
    · simp [idle]
    · simp [hv]
    · rcases (isUp_iff _).1 up with hl | hl <;> simpa [hl] using hstartup
    · rcases (isUp_iff _).1 up with hl | hl <;> simpa [hl] using htimer
    · exact fun _ => empty
  · -- The next job is in flight, and the worker is busy.
    rw [hstate]
    have hstartup := h.startup
    have htimer := h.timer
    constructor
    · simp [launch]
    · simp [launch]
    · simp [launch, hw]
    · rcases (isUp_iff _).1 up with hl | hl <;> simpa [launch, hl] using hstartup
    · rcases (isUp_iff _).1 up with hl | hl <;> simpa [launch, hl] using htimer
    · simp [launch]

/-- A failed worker leaves the engine waiting for the timer, or for good. -/
theorem scheduleRestart_consistent (now : Nat) {e : Engine} (flights : e.flights.live = [])
    (worker : e.worker = none) (startup : e.startup = none) (timer : e.restartAt = none) :
    (scheduleRestart now e).state.Consistent := by
  rcases scheduleRestart_cases now e with ⟨-, hstate, -⟩ | ⟨-, hstate, -⟩
  · rw [hstate]
    constructor <;> simp [backOff, flights, worker, startup]
  · rw [hstate]
    constructor <;> simp [flights, worker, startup, timer]

theorem crash_consistent (now : Nat) (reason : CloseReason) {e : Engine} (h : e.Consistent)
    (held : e.worker.isSome) : (crash now reason e).state.Consistent := by
  obtain ⟨startup, timer⟩ := h.no_start_of_worker held
  rw [crash_state]
  exact scheduleRestart_consistent now rfl rfl startup timer

theorem beginStart_consistent {e : Engine} (flights : e.flights.live = [])
    (worker : e.worker = none) : (beginStart e).state.Consistent := by
  rw [beginStart_state]
  constructor <;> simp [flights, worker]

theorem submit_consistent (now : Nat) (job : Job) {e : Engine} (h : e.Consistent) :
    (submit now job e).state.Consistent := by
  rcases submit_cases now job e with ⟨-, heq⟩ | ⟨accepts, heq⟩
  · rw [heq]
    exact ⟨h.single, h.busy, h.worker, h.startup, h.timer, h.vacant⟩
  · rw [heq, Turn.andThen_state]
    apply dispatch_consistent
    have u := h.unsettled
    refine ⟨u.single, u.busy, u.worker, u.startup, u.timer, ?_⟩
    intro closed
    exact absurd ((rejectsJobs_iff _).2 closed) accepts

theorem cancel_consistent (id : JobId) {e : Engine} (h : e.Consistent) :
    (cancel id e).state.Consistent := by
  rcases cancel_cases id e with ⟨before, job, after, hq, -, heq⟩ | ⟨-, heq⟩
  · -- Where the queue has to be empty nothing is found in it.
    rw [heq]
    refine ⟨h.single, h.busy, h.worker, h.startup, h.timer, ?_⟩
    intro closed
    rw [h.vacant closed] at hq
    exact absurd hq.symm (by simp)
  · rw [heq]
    refine ⟨?_, ?_, h.worker, h.startup, h.timer, h.vacant⟩
    · simpa [InFlight.cancel] using h.single
    · simpa [InFlight.cancel] using h.busy

/-- A frame retires at most the job in flight, and leaves the rest to the dispatch. -/
theorem receive_unsettled (incoming : Incoming) {e : Engine} (h : e.Consistent) :
    (receive incoming e).state.Unsettled := by
  have u := h.unsettled
  rcases receive_cases incoming e with
    ⟨f, hf, -, events, documents, failedRestarts, -, -, heq⟩ |
    ⟨-, events, documents, failedRestarts, abandoned, -, -, heq⟩
  · rw [heq]
    refine ⟨?_, ?_, u.worker, u.startup, u.timer, u.vacant⟩
    · exact Nat.le_trans (List.length_filter_le ..) h.single
    · exact fun _ => u.busy (List.ne_nil_of_mem hf)
  · rw [heq]
    exact ⟨u.single, u.busy, u.worker, u.startup, u.timer, u.vacant⟩

theorem onDeadline_consistent (now : Nat) {e : Engine} (h : e.Consistent) :
    (onDeadline now e).state.Consistent := by
  have u := h.unsettled
  rw [onDeadline_eq]
  apply dispatch_consistent
  refine ⟨?_, ?_, u.worker, u.startup, u.timer, u.vacant⟩
  · exact Nat.le_trans (List.length_filter_le ..) h.single
  · intro left
    obtain ⟨f, hf⟩ := List.exists_mem_of_ne_nil _ left
    exact u.busy (List.ne_nil_of_mem (List.mem_filter.1 hf).1)

theorem onStarted_consistent (now : Nat) (result : Except StartFault Started) {e : Engine}
    (h : e.Consistent) (pending : e.startup.isSome) :
    (onStarted now result e).state.Consistent := by
  -- While a start is under way there is no worker, no flight and no timer.
  have starting := h.startup.1 pending
  have flights := h.live_eq_nil (by simp [starting])
  have worker := h.no_worker (by simp [starting]) (by simp [starting])
  have timer : e.restartAt = none := by
    rw [← Option.not_isSome_iff_eq_none, h.timer]
    simp [starting]
  cases result with
  | ok started =>
    rw [onStarted_ok, Turn.andThen_state]
    apply dispatch_consistent
    constructor <;> simp [welcome, flights, timer]
  | error fault =>
    rw [onStarted_error, Turn.andThen_state]
    exact scheduleRestart_consistent now flights worker rfl timer

/-! ## Steps and runs -/

theorem Reacts.consistent {now : Nat} {e : Engine} {input : Input} {t : Turn}
    (r : Reacts now e input t) (h : e.Consistent) : t.state.Consistent := by
  cases r with
  | ignored | shown => exact h
  | submitted job => exact submit_consistent now job h
  | cancelled id => exact cancel_consistent id h
  | restarted =>
    rw [restart_state]
    constructor <;> simp
  | shutDown caller =>
    rw [shutdown_state]
    constructor <;> simp
  | heard incoming => exact dispatch_consistent now (receive_unsettled incoming h)
  | lost reason _ current => exact crash_consistent now reason h (by simp [current])
  | expired => exact onDeadline_consistent now h
  | due _ armed =>
    -- The timer runs only after a crash, which has left nothing else.
    have crashed := h.timer.1 (by simp [armed])
    exact beginStart_consistent (h.live_eq_nil (by simp [crashed]))
      (h.no_worker (by simp [crashed]) (by simp [crashed]))
  | started result _ pending => exact onStarted_consistent now result h (by simp [pending])

theorem answer_consistent {e : Engine} (o : Occasion) (h : e.Consistent) :
    (e.answer o).state.Consistent := by
  cases o with
  | draw => exact ⟨h.single, h.busy, h.worker, h.startup, h.timer, h.vacant⟩
  | input now input => exact (step_reacts now e input).consistent h

theorem boot_consistent (policy : RestartPolicy) :
    (History.boot policy).engine.Consistent :=
  beginStart_consistent rfl rfl

end WorkerBridge.Engine

namespace WorkerBridge.History

theorem run_consistent (policy : RestartPolicy) (os : List Occasion) :
    (run policy os).engine.Consistent :=
  run_induction (Engine.boot_consistent policy) (fun _ o h => Engine.answer_consistent o h) os

theorem consistent_of_past {policy : RestartPolicy} {os : List Occasion}
    {before after : List Moment} {m : Moment}
    (hpast : (run policy os).past = before ++ m :: after) : m.before.Consistent := by
  obtain ⟨os₁, _, -, -, hengine⟩ := run_split hpast
  exact hengine ▸ run_consistent policy os₁

/-- What holds at the end of a shorter run, and is kept by every moment from there on, holds at the
    end. The moments since then are at hand. -/
theorem run_from {policy : RestartPolicy} {os : List Occasion} {before after : List Moment}
    {P : List Moment → Engine → Prop} (hpast : (run policy os).past = before ++ after)
    (start : ∀ os₁, (run policy os₁).past = before → P [] (run policy os₁).engine)
    (step : ∀ since x, x ∈ after → x.before.Consistent → P since x.before →
      P (since ++ [x]) x.after) : P after (run policy os).engine := by
  induction os using List.reverseRecOn generalizing after with
  | nil =>
    obtain ⟨hbefore, rfl⟩ := List.append_eq_nil_iff.1 hpast.symm
    exact start [] hbefore.symm
  | append_singleton os o ih =>
    rcases List.eq_nil_or_concat after with rfl | ⟨after', x, rfl⟩
    · exact start _ (by simpa using hpast)
    · rw [run_concat, past_extend, List.concat_eq_append, ← List.append_assoc] at hpast
      obtain ⟨hshorter, hlast⟩ := List.append_inj' hpast rfl
      obtain rfl := List.singleton_inj.1 hlast
      rw [List.concat_eq_append] at step ⊢
      have held := ih hshorter fun since x hx => step since x (List.mem_append_left _ hx)
      rw [run_concat]
      exact step after' _ (by simp) (run_consistent policy os) held

theorem after_of_past {policy : RestartPolicy} {os : List Occasion} {before : List Moment}
    {m : Moment} (hpast : (run policy os).past = before ++ [m]) :
    (run policy os).engine = m.after := by
  induction os using List.reverseRecOn with
  | nil => simp [run, boot] at hpast
  | append_singleton os o =>
    rw [run_concat, past_extend] at hpast
    rw [run_concat, ← List.singleton_inj.1 (List.append_inj' hpast rfl).2]
    rfl

/-- The run that ends with a given moment. -/
theorem run_through {policy : RestartPolicy} {os : List Occasion} {before after : List Moment}
    {m : Moment} (hpast : (run policy os).past = before ++ m :: after) :
    ∃ os₁ os₂, os = os₁ ++ os₂ ∧ (run policy os₁).past = before ++ [m] ∧
      (run policy os₁).engine = m.after := by
  rw [List.append_cons] at hpast
  obtain ⟨os₁, os₂, hos, hshorter⟩ := run_prefix hpast
  exact ⟨os₁, os₂, hos, hshorter, after_of_past hshorter⟩

/-- What holds after a moment of a run, and is kept by every later one, holds at the end. -/
theorem run_since {policy : RestartPolicy} {os : List Occasion} {before after : List Moment}
    {m : Moment} {P : List Moment → Engine → Prop}
    (hpast : (run policy os).past = before ++ m :: after) (start : P [] m.after)
    (step : ∀ since x, x ∈ after → x.before.Consistent → P since x.before →
      P (since ++ [x]) x.after) : P after (run policy os).engine := by
  have hsplit : (run policy os).past = (before ++ [m]) ++ after := by simpa using hpast
  refine run_from hsplit ?_ step
  intro os₁ hbefore
  rw [after_of_past hbefore]
  exact start

/-- **The lifecycle tells what the engine holds.** After every turn of every run, whatever the
    inputs and their order: at most one job is in flight, and the worker is busy exactly while one
    is; there is a worker exactly while it is ready or busy, a start under way exactly while it is
    starting, and a timer exactly after a crash; and no job waits while the worker is ready,
    unavailable or stopped. -/
theorem lifecycle_tells_what_is_held (policy : RestartPolicy) (os : List Occasion) :
    let e := (run policy os).engine
    e.flights.live.length ≤ 1 ∧
      (e.lifecycle = .busy ↔ e.flights.live.length = 1) ∧
      (e.worker.isSome ↔ e.lifecycle = .ready ∨ e.lifecycle = .busy) ∧
      (e.startup.isSome ↔ e.lifecycle = .starting) ∧
      (e.restartAt.isSome ↔ e.lifecycle = .crashed) ∧
      (e.lifecycle = .ready ∨ e.lifecycle = .unavailable ∨ e.lifecycle = .stopped →
        e.queue.jobs = []) := by
  intro e
  have h : e.Consistent := run_consistent policy os
  exact ⟨h.single, h.busy, h.worker, h.startup, h.timer, h.vacant⟩

end WorkerBridge.History
