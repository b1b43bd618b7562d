/-
  WorkerBridge.Proofs.Sends

  What a turn hands to the worker.

  Only a dispatch hands anything over, and then the job that was the next to go.
  `dispatch_hands` says so as an equation: what was handed over, followed by what
  still waits, is what waited. All other turns hand over nothing. Most of them do
  not change what is shown either: all that they say is aside from both (`Aside`).
-/
import WorkerBridge.Proofs.Lifecycle

namespace WorkerBridge

/-- Something that was handed to a worker. -/
structure Sent where
  worker : WorkerId
  id : JobId
  request : Request
deriving DecidableEq

/-- What an effect hands to a worker. -/
def Effect.sent? : Effect → Option Sent
  | .send worker id request => some { worker, id, request }
  | _ => none

/-- What the effects hand to workers, in order. -/
def sends (effects : List Effect) : List Sent :=
  effects.filterMap Effect.sent?

@[simp] theorem sends_nil : sends [] = [] := rfl

@[simp] theorem sends_append (xs ys : List Effect) : sends (xs ++ ys) = sends xs ++ sends ys :=
  List.filterMap_append

theorem sends_eq_nil {effects : List Effect} :
    sends effects = [] ↔ ∀ x ∈ effects, x.sent? = none :=
  List.filterMap_eq_nil_iff

theorem mem_sends {s : Sent} {effects : List Effect} :
    s ∈ sends effects ↔ .send s.worker s.id s.request ∈ effects := by
  rw [sends, List.mem_filterMap]
  constructor
  · rintro ⟨x, hx, hs⟩
    cases x with
    | send worker id request =>
      cases hs
      exact hx
    | emit | display | tell | exhibit | abandon | retire | retireAndWait | start | abortStart
    | dismiss => cases hs
  · exact fun hx => ⟨_, hx, rfl⟩

/-! ## Asides -/

/-- Whether an effect neither hands anything to a worker nor is about what is shown. -/
def Effect.isAside : Effect → Bool
  | .emit event => !event.isDiagnostic
  | .send .. => false
  | _ => true

/-- The effects hand nothing over, and change nothing that is shown. -/
def Aside (effects : List Effect) : Prop :=
  ∀ x ∈ effects, x.isAside

@[simp] theorem aside_nil : Aside [] :=
  fun _ hx => nomatch hx

@[simp] theorem aside_append {xs ys : List Effect} : Aside (xs ++ ys) ↔ Aside xs ∧ Aside ys :=
  List.forall_mem_append

@[simp] theorem aside_cons {x : Effect} {xs : List Effect} :
    Aside (x :: xs) ↔ x.isAside ∧ Aside xs :=
  List.forall_mem_cons

theorem aside_toList {α : Type} (x : Option α) (effect : α → Effect)
    (h : ∀ a, (effect a).isAside) : Aside (x.map effect).toList := by
  cases x with
  | none => exact aside_nil
  | some a => simpa using h a

namespace Engine

@[simp] theorem isAside_notify (level : NotifyLevel) (message : String) :
    (notify level message).isAside := rfl

@[simp] theorem aside_state (s s' : Lifecycle) :
    Aside (if s' = s then [] else proclaim s) := by
  split <;> simp [proclaim, Effect.isAside, Event.isDiagnostic]

@[simp] theorem aside_finish (j : Job) (outcome : Outcome) : Aside (finish j outcome) := by
  have told := aside_toList j.waiter (Effect.tell · outcome) fun _ => rfl
  simp [finish, told, Effect.isAside, Event.isDiagnostic]

theorem aside_finish_all {α : Type} (job : α → Job) (outcome : α → Outcome) (xs : List α) :
    Aside (xs.flatMap fun x => finish (job x) (outcome x)) := by
  intro effect heffect
  obtain ⟨x, -, hx⟩ := List.mem_flatMap.1 heffect
  exact aside_finish (job x) (outcome x) effect hx

@[simp] theorem aside_finish_queue (outcome : Outcome) (jobs : List Job) :
    Aside (jobs.flatMap (finish · outcome)) :=
  aside_finish_all id (fun _ => outcome) jobs

@[simp] theorem aside_finish_flights (outcome : Flight → Outcome) (flights : List Flight) :
    Aside (flights.flatMap fun f => finish f.job (outcome f)) :=
  aside_finish_all Flight.job outcome flights

@[simp] theorem aside_setState (s : Lifecycle) (e : Engine) : Aside (setState s e).effects := by
  rw [setState_effects]
  exact aside_state s e.lifecycle

@[simp] theorem aside_beginStart (e : Engine) : Aside (beginStart e).effects := by
  simp [beginStart_effects, Effect.isAside]

@[simp] theorem aside_scheduleRestart (now : Nat) (e : Engine) :
    Aside (scheduleRestart now e).effects := by
  rcases scheduleRestart_cases now e with ⟨-, -, heffects⟩ | ⟨-, -, heffects⟩
  · rw [heffects]
    exact aside_state _ _
  · simp [heffects]

@[simp] theorem aside_crash (now : Nat) (reason : CloseReason) (e : Engine) :
    Aside (crash now reason e).effects := by
  have abandoned := aside_toList e.worker Effect.abandon fun _ => rfl
  simp [crash_effects, abandoned]

@[simp] theorem aside_cancel (id : JobId) (e : Engine) : Aside (cancel id e).effects := by
  rcases cancel_cases id e with ⟨before, job, after, -, -, heq⟩ | ⟨-, heq⟩
  · rw [heq]
    exact aside_finish _ _
  · rw [heq]
    exact aside_toList _ _ fun _ => rfl

@[simp] theorem aside_restart (e : Engine) : Aside (restart e).effects := by
  have aborted := aside_toList e.startup Effect.abortStart fun _ => rfl
  have retired := aside_toList e.worker (Effect.retire · ⟨e.nextId⟩) fun _ => rfl
  simp [restart_effects, aborted, retired, Effect.isAside]

@[simp] theorem aside_shutdown (caller : Option Ticket) (e : Engine) :
    Aside (shutdown caller e).effects := by
  have aborted := aside_toList e.startup Effect.abortStart fun _ => rfl
  have retired := aside_toList e.worker (Effect.retireAndWait · ⟨e.nextId⟩) fun _ => rfl
  have dismissed := aside_toList caller Effect.dismiss fun _ => rfl
  simp [shutdown_effects, aborted, retired, dismissed]

theorem aside_greeting (started : Started) (e : Engine) :
    Aside (greeting started ++ if e.lifecycle = .ready then [] else proclaim .ready) := by
  rw [aside_append]
  exact ⟨aside_toList _ _ fun _ => rfl, aside_state _ _⟩

@[simp] theorem aside_onStarted_error (now : Nat) (fault : StartFault) (e : Engine) :
    Aside (onStarted now (.error fault) e).effects := by
  simp [onStarted_error]

/-! ## Turns that hand over nothing -/

theorem sends_of_aside {effects : List Effect} (h : Aside effects) : sends effects = [] := by
  rw [sends_eq_nil]
  intro x hx
  have aside := h x hx
  cases x with
  | send => cases aside
  | emit | display | tell | exhibit | abandon | retire | retireAndWait | start | abortStart
  | dismiss => rfl

@[simp] theorem sends_announce (events : List Event) : sends (announce events) = [] := by
  rw [sends_eq_nil]
  intro x hx
  obtain ⟨event, -, rfl⟩ := List.mem_map.1 hx
  rfl

@[simp] theorem sends_finish (j : Job) (outcome : Outcome) : sends (finish j outcome) = [] :=
  sends_of_aside (aside_finish j outcome)

@[simp] theorem sends_finish_flights (outcome : Flight → Outcome) (flights : List Flight) :
    sends (flights.flatMap fun f => finish f.job (outcome f)) = [] :=
  sends_of_aside (aside_finish_flights outcome flights)

@[simp] theorem sends_setState (s : Lifecycle) (e : Engine) :
    sends (setState s e).effects = [] :=
  sends_of_aside (aside_setState s e)

@[simp] theorem sends_beginStart (e : Engine) : sends (beginStart e).effects = [] :=
  sends_of_aside (aside_beginStart e)

@[simp] theorem sends_crash (now : Nat) (reason : CloseReason) (e : Engine) :
    sends (crash now reason e).effects = [] :=
  sends_of_aside (aside_crash now reason e)

@[simp] theorem sends_cancel (id : JobId) (e : Engine) : sends (cancel id e).effects = [] :=
  sends_of_aside (aside_cancel id e)

@[simp] theorem sends_restart (e : Engine) : sends (restart e).effects = [] :=
  sends_of_aside (aside_restart e)

@[simp] theorem sends_shutdown (caller : Option Ticket) (e : Engine) :
    sends (shutdown caller e).effects = [] :=
  sends_of_aside (aside_shutdown caller e)

@[simp] theorem sends_receive (incoming : Incoming) (e : Engine) :
    sends (receive incoming e).effects = [] := by
  rcases receive_cases incoming e with
    ⟨f, -, -, events, documents, failedRestarts, -, -, heq⟩ |
    ⟨-, events, documents, failedRestarts, abandoned, -, -, heq⟩
  · rw [heq, sends_append, sends_announce, sends_finish, List.append_nil]
  · rw [heq, sends_announce]

theorem sends_greeting (started : Started) (e : Engine) :
    sends (greeting started ++
      if e.lifecycle = .ready then [] else proclaim .ready) = [] :=
  sends_of_aside (aside_greeting started e)

@[simp] theorem sends_onStarted_error (now : Nat) (fault : StartFault) (e : Engine) :
    sends (onStarted now (.error fault) e).effects = [] :=
  sends_of_aside (aside_onStarted_error now fault e)

/-! ## Dispatching -/

/-- The job as it is handed to a worker. -/
def handed (w : WorkerId) (j : Job) : Sent :=
  { worker := w, id := j.id, request := j.request }

/-- **What a dispatch hands over.** It goes to the present worker, and it is the job that was the
    next to go: what was handed over and what still waits is what waited. -/
theorem dispatch_hands (now : Nat) {e : Engine} (up : e.lifecycle.isUp → e.worker.isSome)
    {w : WorkerId} (current : e.worker = some w) :
    sends (dispatch now e).effects ++ (dispatch now e).state.queue.jobs.map (handed w) =
      e.queue.jobs.map (handed w) := by
  rcases dispatch_cases now e up with
    ⟨-, heq⟩ | ⟨-, -, -, heq⟩ | ⟨v, job, rest, -, -, hv, hq, hstate, heffects⟩
  · rw [heq]
    rfl
  · rw [heq, sends_setState, setState_state]
    rfl
  · cases current.symm.trans hv
    rw [hstate, heffects, sends_append, sends_append, sends_announce, hq]
    split <;> rfl

/-! ## Where it goes -/

/-- A dispatch hands over one job at most, and to the worker that is there. -/
theorem dispatch_sends (now : Nat) {e : Engine} (up : e.lifecycle.isUp → e.worker.isSome) :
    sends (dispatch now e).effects = [] ∨
      ∃ s, sends (dispatch now e).effects = [s] ∧ e.worker = some s.worker := by
  rcases dispatch_cases now e up with
    ⟨-, heq⟩ | ⟨-, -, -, heq⟩ | ⟨v, job, rest, -, -, hv, -, -, heffects⟩
  · rw [heq]
    exact Or.inl rfl
  · rw [heq]
    exact Or.inl (sends_setState ..)
  · refine Or.inr ⟨handed v job, ?_, hv⟩
    rw [heffects, sends_append, sends_append, sends_announce]
    split <;> rfl

/-- A turn hands over one job at most, and to the worker that is there after it. -/
theorem Reacts.sends_one {now : Nat} {e : Engine} {input : Input} {t : Turn}
    (r : Reacts now e input t) (h : e.Consistent) :
    sends t.effects = [] ∨ ∃ s, sends t.effects = [s] ∧ t.state.worker = some s.worker := by
  -- In a turn that ends in a dispatch only the dispatch hands anything over.
  have last : ∀ {first : Turn} (_ : sends first.effects = [])
      (_ : first.state.lifecycle.isUp → first.state.worker.isSome),
      sends (first.andThen (dispatch now)).effects = [] ∨
        ∃ s, sends (first.andThen (dispatch now)).effects = [s] ∧
          (first.andThen (dispatch now)).state.worker = some s.worker := by
    intro first silent up
    rw [Turn.andThen_effects, sends_append, silent, List.nil_append, Turn.andThen_state,
      dispatch_worker now up]
    exact dispatch_sends now up
  cases r with
  | ignored | shown => exact Or.inl rfl
  | cancelled | restarted | shutDown | lost | due => simp
  | submitted job =>
    rcases submit_cases now job e with ⟨-, heq⟩ | ⟨-, heq⟩
    · rw [heq, sends_append, sends_announce, sends_finish]
      exact Or.inl rfl
    · rw [heq]
      exact last (sends_announce _) h.up
  | heard incoming => exact last (sends_receive incoming e) (receive_unsettled incoming h).up
  | expired =>
    rw [onDeadline_eq]
    exact last (sends_finish_flights ..) h.up
  | started result =>
    cases result with
    | ok started =>
      rw [onStarted_ok]
      exact last (sends_greeting started e) fun _ => rfl
    | error fault => exact Or.inl (sends_onStarted_error now fault e)

theorem Reacts.sends_to {now : Nat} {e : Engine} {input : Input} {t : Turn}
    (r : Reacts now e input t) (h : e.Consistent) {s : Sent} (hs : s ∈ sends t.effects) :
    t.state.worker = some s.worker := by
  rcases r.sends_one h with none | ⟨s', one, current⟩
  · rw [none] at hs
    cases hs
  · rw [one, List.mem_singleton] at hs
    rw [hs, current]

/-- A worker that is there after a turn was there before, or has come up in it. -/
theorem Reacts.worker_cases {now : Nat} {e : Engine} {input : Input} {t : Turn}
    (r : Reacts now e input t) (h : e.Consistent) {w : WorkerId}
    (hw : t.state.worker = some w) :
    e.worker = some w ∨ ∃ start started, input = .started start (.ok started) ∧
      started.worker = w := by
  cases r with
  | ignored | shown => exact Or.inl hw
  | submitted job =>
    rcases submit_cases now job e with ⟨-, heq⟩ | ⟨-, heq⟩
    · rw [heq] at hw
      exact Or.inl hw
    · rw [heq, Turn.andThen_state] at hw
      exact Or.inl (hw.symm.trans (dispatch_worker now h.up)).symm
  | cancelled id =>
    obtain ⟨_, _, hstate⟩ := cancel_frame id e
    rw [hstate] at hw
    exact Or.inl hw
  | restarted =>
    rw [restart_state] at hw
    cases hw
  | shutDown caller =>
    rw [shutdown_state] at hw
    cases hw
  | heard incoming =>
    -- Neither the frame nor the dispatch after it changes the worker.
    have hreceive := dispatch_worker now (receive_unsettled incoming h).up
    exact Or.inl ((receive_worker incoming e).symm.trans (hreceive.symm.trans hw))
  | lost reason =>
    rw [crash_state, scheduleRestart_worker] at hw
    cases hw
  | expired =>
    rw [onDeadline_eq, Turn.andThen_state] at hw
    exact Or.inl (hw.symm.trans (dispatch_worker now h.up)).symm
  | due =>
    rw [beginStart_state] at hw
    exact Or.inl hw
  | @started start result =>
    cases result with
    | ok started =>
      rw [onStarted_ok, Turn.andThen_state, dispatch_worker now fun _ => rfl] at hw
      exact Or.inr ⟨start, started, rfl, Option.some.inj hw⟩
    | error fault =>
      rw [onStarted_error, Turn.andThen_state, scheduleRestart_worker] at hw
      exact Or.inl hw

end Engine

end WorkerBridge
