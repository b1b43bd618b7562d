/-
  WorkerBridge.Proofs.Turns

  What each turn of the engine leaves behind: the state it ends in, as one record
  update per turn, and what can be among its effects.

  Every turn is a sequence of small ones, so its state and its effects are computed
  by the equations below. The turns that branch on what they find come with an
  inversion lemma instead (`_cases`), and with one that says which parts they
  leave alone (`_frame`). Nothing after this module opens the definitions of the
  turns, except to run them on states that are given.
-/
import WorkerBridge.Proofs.History

namespace WorkerBridge

/-- The flight of a job that is dispatched now. -/
def Job.flight (j : Job) (now : Nat) : Flight :=
  { job := j, dispatchedAt := now, deadline := j.timeout.map (now + ·) }

/-- Whether an event is about what is shown for a document. -/
def Event.isDiagnostic : Event → Bool
  | .diagnostics .. | .cleared _ => true
  | _ => false

/-- What a response tells the caller of a job. The result of a check has to be a list of reports. -/
def judge : JobKind → Outcome → Outcome
  | .check, .ok result =>
    match checkReports result with
    | .ok _ => .ok result
    | .error f => .error f
  | _, outcome => outcome

/-- What a frame tells the caller of the job that it names. -/
def Incoming.verdict (kind : JobKind) : Incoming → Outcome
  | .response _ outcome => judge kind outcome
  | .malformed _ fault => .error (.protocol fault)

/-- The reports that a frame brings as an answer to a job of the given kind: those of a check whose
    result is a list of reports. -/
def Incoming.reports? (kind : JobKind) : Incoming → Option (List Report)
  | .response _ (.ok result) => if kind = .check then (checkReports result).toOption else none
  | _ => none

/-! ## Documents and flights -/

/-- What a submitted request changes in the documents before anything else. -/
def Documents.follow (d : Documents) : Request → List Event × Documents
  | .addUri uri source => ([], (d.update uri source).2)
  | .remUri uri => d.close uri
  | _ => ([], d)

/-- What the reports of a check change in the documents, if there are any. -/
def Documents.adopt (d : Documents) : Option (List Report) → List Event × Documents
  | some reports => d.install reports
  | none => ([], d)

theorem Documents.clear_isDiagnostic (d : Documents) : ∀ x ∈ d.clear.1, x.isDiagnostic := by
  simp [Documents.clear, Event.isDiagnostic]

theorem Documents.close_isDiagnostic (d : Documents) (uri : String) :
    ∀ x ∈ (d.close uri).1, x.isDiagnostic := by
  simp [Documents.close, Event.isDiagnostic]

theorem Documents.install_isDiagnostic (d : Documents) (reports : List Report) :
    ∀ x ∈ (d.install reports).1, x.isDiagnostic := by
  intro x hx
  simp only [Documents.install, List.mem_append, List.mem_map] at hx
  rcases hx with hx | ⟨entry, _, rfl⟩
  · exact d.clear_isDiagnostic x hx
  · rfl

theorem Documents.adopt_isDiagnostic (d : Documents) (reports : Option (List Report)) :
    ∀ x ∈ (d.adopt reports).1, x.isDiagnostic := by
  cases reports with
  | none => exact fun x hx => nomatch hx
  | some reports => exact d.install_isDiagnostic reports

theorem Documents.follow_isDiagnostic (d : Documents) (r : Request) :
    ∀ x ∈ (d.follow r).1, x.isDiagnostic := by
  cases r with
  | remUri uri => exact d.close_isDiagnostic uri
  | _ => simp [Documents.follow]

/-- Whose response it is: a flight's, or nobody's in flight. -/
theorem InFlight.resolve_cases (t : InFlight) (id : JobId) :
    (∃ f ∈ t.live, f.job.id = id ∧
      t.resolve id = (.pending f, { t with live := t.live.filter (·.job.id ≠ id) })) ∨
    ((∀ f ∈ t.live, f.job.id ≠ id) ∧
      ((∃ kind abandoned, t.resolve id = (.abandoned kind, { t with abandoned })) ∨
        t.resolve id = (.unknown, t))) := by
  -- Flights come before memories: an identity that is both counts as in flight.
  cases h : t.find? id with
  | some f =>
    left
    refine ⟨f, List.mem_of_find?_eq_some h, ?_, ?_⟩
    · simpa using List.find?_some h
    · simp [InFlight.resolve, h]
  | none =>
    right
    refine ⟨fun f hf => by simpa using List.find?_eq_none.1 h f hf, ?_⟩
    cases ha : t.abandoned.find? (·.1 = id) with
    | some entry =>
      left
      exact ⟨entry.2, t.abandoned.eraseP (·.1 = id), by simp [InFlight.resolve, h, ha]⟩
    | none =>
      right
      simp [InFlight.resolve, h, ha]

/-- The kind of the job that an identity stands for, in flight or remembered. -/
def InFlight.kind? (t : InFlight) (id : JobId) : Option JobKind :=
  match t.find? id with
  | some f => some f.job.kind
  | none => (t.abandoned.find? (·.1 = id)).map (·.2)

/-- Matching a response tells the kind of its job, and forgets no more than this job. -/
theorem InFlight.resolve_kind (t : InFlight) (id : JobId) :
    (t.resolve id).2.abandoned.Sublist t.abandoned ∧
      match (t.resolve id).1 with
      | .pending f => t.kind? id = some f.job.kind
      | .abandoned kind => t.kind? id = some kind
      | .unknown => t.kind? id = none := by
  cases hlive : t.find? id with
  | some f => simp [InFlight.resolve, InFlight.kind?, hlive]
  | none =>
    cases hold : t.abandoned.find? (·.1 = id) with
    | some entry =>
      simpa [InFlight.resolve, InFlight.kind?, hlive, hold] using List.eraseP_sublist
    | none => simp [InFlight.resolve, InFlight.kind?, hlive, hold]

/-- Whether the identity is that of a job in flight, or of one that is remembered. -/
def InFlight.knows (t : InFlight) (id : JobId) : Bool :=
  t.live.any (·.job.id = id) || t.abandoned.any (·.1 = id)

theorem InFlight.resolve_unknown_iff (t : InFlight) (id : JobId) :
    (t.resolve id).1 = .unknown ↔ t.knows id = false := by
  have live : t.find? id = none ↔ t.live.any (·.job.id = id) = false := by
    simp [InFlight.find?]
  have abandoned : t.abandoned.find? (·.1 = id) = none ↔
      t.abandoned.any (·.1 = id) = false := by
    simp
  rw [InFlight.knows, Bool.or_eq_false_iff, ← live, ← abandoned]
  cases hlive : t.find? id with
  | some f => simp [InFlight.resolve, hlive]
  | none => cases hold : t.abandoned.find? (·.1 = id) <;> simp [InFlight.resolve, hlive, hold]

/-! ## Turns in sequence -/

@[simp] theorem Turn.andThen_state (t : Turn) (f : Engine → Turn) :
    (t.andThen f).state = (f t.state).state := rfl

@[simp] theorem Turn.andThen_effects (t : Turn) (f : Engine → Turn) :
    (t.andThen f).effects = t.effects ++ (f t.state).effects := rfl

namespace Engine

@[simp] theorem idle_state (e : Engine) : e.idle.state = e := rfl

@[simp] theorem idle_effects (e : Engine) : e.idle.effects = [] := rfl

@[simp] theorem doing_state (e : Engine) (effects : List Effect) :
    (e.doing effects).state = e := rfl

@[simp] theorem doing_effects (e : Engine) (effects : List Effect) :
    (e.doing effects).effects = effects := rfl

/-! ## Small turns -/

@[simp] theorem setState_state (s : Lifecycle) (e : Engine) :
    (setState s e).state = { e with lifecycle := s } := by
  unfold setState
  split
  · next h => rw [← h]; rfl
  · rfl

@[simp] theorem mem_proclaim {x : Effect} {s : Lifecycle} :
    x ∈ proclaim s ↔ x = .display s ∨ x = .emit (.state s) := by
  simp [proclaim]

theorem setState_effects (s : Lifecycle) (e : Engine) :
    (setState s e).effects = if e.lifecycle = s then [] else proclaim s := by
  unfold setState
  split <;> rfl

@[simp] theorem failQueued_state (f : Failure) (e : Engine) :
    (failQueued f e).state = { e with queue := {} } := rfl

@[simp] theorem failQueued_effects (f : Failure) (e : Engine) :
    (failQueued f e).effects = e.queue.jobs.flatMap (finish · (.error f)) := rfl

@[simp] theorem failFlights_state (f : Failure) (e : Engine) :
    (failFlights f e).state = { e with flights := {} } := rfl

@[simp] theorem failFlights_effects (f : Failure) (e : Engine) :
    (failFlights f e).effects =
      e.flights.live.flatMap fun flight => finish flight.job (.error f) := rfl

/-! ## Starting and crashing -/

@[simp] theorem beginStart_state (e : Engine) :
    (beginStart e).state =
      { e with
        restartAt := none, lifecycle := .starting
        startup := some e.nextStart, nextStart := e.nextStart + 1 } := by
  simp [beginStart]

theorem beginStart_effects (e : Engine) :
    (beginStart e).effects =
      (if e.lifecycle = .starting then [] else proclaim .starting) ++
        [.start e.nextStart] := by
  simp [beginStart, setState_effects]

/-- Whether another restart may be scheduled. -/
def HasBudget (e : Engine) : Prop :=
  e.policy.auto ∧ e.failedRestarts < e.policy.maxRetries

/-- The engine that waits for its next start. -/
def backOff (now : Nat) (e : Engine) : Engine :=
  { e with
    failedRestarts := e.failedRestarts + 1
    restartAt := some (now + (e.policy.delay e.failedRestarts).toNat)
    lifecycle := .crashed }

/-- **What a failure leads to.** A restart is scheduled while the budget lasts; then the engine
    gives up, and nobody is left waiting for it. -/
theorem scheduleRestart_cases (now : Nat) (e : Engine) :
    (e.HasBudget ∧ (scheduleRestart now e).state = e.backOff now ∧
      (scheduleRestart now e).effects =
        if e.lifecycle = .crashed then [] else proclaim .crashed) ∨
    (¬ e.HasBudget ∧ (scheduleRestart now e).state =
        { e with queue := {}, lifecycle := .unavailable } ∧
      (scheduleRestart now e).effects =
        (e.queue.jobs.flatMap (finish · (.error .unavailable)) ++
          (if e.lifecycle = .unavailable then [] else proclaim .unavailable)) ++
          [notify .error "Flix is unavailable. Restart it to continue."]) := by
  unfold scheduleRestart
  by_cases h : e.policy.auto ∧ e.failedRestarts < e.policy.maxRetries
  · left
    rw [if_pos h]
    refine ⟨h, ?_, ?_⟩
    · rw [setState_state]
      rfl
    · rw [setState_effects]
  · right
    rw [if_neg h]
    refine ⟨h, ?_, ?_⟩
    · simp
    · simp [setState_effects]

/-- A failure leaves the flights, the documents and the worker alone. -/
theorem scheduleRestart_frame (now : Nat) (e : Engine) :
    ∃ queue lifecycle restartAt failedRestarts,
      (scheduleRestart now e).state = { e with queue, lifecycle, restartAt, failedRestarts } := by
  rcases scheduleRestart_cases now e with ⟨-, hstate, -⟩ | ⟨-, hstate, -⟩
  · exact ⟨_, _, _, _, hstate⟩
  · exact ⟨_, _, _, _, hstate⟩

theorem scheduleRestart_worker (now : Nat) (e : Engine) :
    (scheduleRestart now e).state.worker = e.worker := by
  obtain ⟨_, _, _, _, hstate⟩ := scheduleRestart_frame now e
  rw [hstate]

theorem crash_state (now : Nat) (reason : CloseReason) (e : Engine) :
    (crash now reason e).state =
      (scheduleRestart now
        { e with worker := none, flights := {}, queue := {}, replayOnReady := true }).state := rfl

theorem crash_effects (now : Nat) (reason : CloseReason) (e : Engine) :
    (crash now reason e).effects =
      (((e.worker.map Effect.abandon).toList ++
        (e.flights.live.flatMap fun flight => finish flight.job (.error (.crashed reason))) ++
        e.queue.jobs.flatMap (finish · (.error (.crashed reason)))) ++
        [notify .error ("Flix worker crashed: " ++ reason.message)]) ++
        (scheduleRestart now
          { e with
            worker := none, flights := {}, queue := {}, replayOnReady := true }).effects := rfl

/-! ## Commands -/

/-- How many identities it takes to let the worker go: its last message has one. -/
def farewells (e : Engine) : Nat :=
  if e.worker.isSome then 1 else 0

theorem restart_state (e : Engine) :
    (restart e).state =
      { e with
        flights := {}, worker := none, lifecycle := .starting, startup := some e.nextStart
        restartAt := none, failedRestarts := 0, replayOnReady := true
        nextId := e.nextId + e.farewells, nextStart := e.nextStart + 1 } := by
  unfold restart farewells
  cases e.worker <;> simp [issueId]

theorem restart_effects (e : Engine) :
    (restart e).effects =
      (((e.startup.map Effect.abortStart).toList ++
        (e.flights.live.flatMap fun flight => finish flight.job (.error .cancelled))) ++
        (e.worker.map (Effect.retire · ⟨e.nextId⟩)).toList) ++
        ((if e.lifecycle = .starting then [] else proclaim .starting) ++
          [.start e.nextStart]) := by
  unfold restart
  cases e.worker <;> simp [issueId, beginStart_effects]

theorem shutdown_state (caller : Option Ticket) (e : Engine) :
    (shutdown caller e).state =
      { e with
        queue := {}, flights := {}, worker := none, lifecycle := .stopped
        startup := none, restartAt := none, nextId := e.nextId + e.farewells } := by
  unfold shutdown farewells
  cases e.worker <;> simp [issueId]

theorem shutdown_effects (caller : Option Ticket) (e : Engine) :
    (shutdown caller e).effects =
      (((((e.startup.map Effect.abortStart).toList ++
        (e.flights.live.flatMap fun flight => finish flight.job (.error .shutDown))) ++
        e.queue.jobs.flatMap (finish · (.error .shutDown))) ++
        (e.worker.map (Effect.retireAndWait · ⟨e.nextId⟩)).toList) ++
        (if e.lifecycle = .stopped then [] else proclaim .stopped)) ++
        (caller.map Effect.dismiss).toList := by
  unfold shutdown
  cases e.worker <;> simp [issueId, setState_effects]

/-! ## Dispatching -/

/-- The documents once a job is dispatched: a check drops the diagnostics. -/
def documentsAt (e : Engine) (j : Job) : List Event × Documents :=
  if j.kind = .check then e.documents.clear else ([], e.documents)

theorem documentsAt_isDiagnostic (e : Engine) (j : Job) :
    ∀ x ∈ (e.documentsAt j).1, x.isDiagnostic := by
  unfold documentsAt
  split
  · exact e.documents.clear_isDiagnostic
  · simp

@[simp] theorem documentsAt_documents (e : Engine) (j : Job) :
    (e.documentsAt j).2.documents = e.documents.documents := by
  unfold documentsAt
  split <;> rfl

/-- The engine with a job handed to the worker. -/
def launch (now : Nat) (j : Job) (rest : List Job) (e : Engine) : Engine :=
  { e with
    queue := ⟨rest⟩, documents := (e.documentsAt j).2
    flights := { e.flights with live := [j.flight now] }, lifecycle := .busy }

/-- **What a dispatch does.** Nothing while the worker is down or a job is in flight; with an empty
    queue the worker is ready; otherwise the next job is handed to the worker, last of all. -/
theorem dispatch_cases (now : Nat) (e : Engine) (up : e.lifecycle.isUp → e.worker.isSome) :
    (¬ (e.lifecycle.isUp ∧ e.flights.live = []) ∧ dispatch now e = e.idle) ∨
    (e.lifecycle.isUp ∧ e.flights.live = [] ∧ e.queue.jobs = [] ∧
      dispatch now e = setState .ready e) ∨
    (∃ w job rest, e.lifecycle.isUp ∧ e.flights.live = [] ∧ e.worker = some w ∧
      e.queue.jobs = job :: rest ∧ (dispatch now e).state = e.launch now job rest ∧
      (dispatch now e).effects = announce (e.documentsAt job).1 ++
        ((if e.lifecycle = .busy then [] else proclaim .busy) ++
          [.send w job.id job.request])) := by
  by_cases h : e.lifecycle.isUp ∧ e.flights.live = []
  · obtain ⟨isUp, idle⟩ := h
    -- A worker that is up is there, so the branch without one is never taken.
    obtain ⟨w, hw⟩ := Option.isSome_iff_exists.1 (up isUp)
    have guard : e.lifecycle.isUp ∧ e.flights.isIdle := ⟨isUp, by simp [InFlight.isIdle, idle]⟩
    right
    cases hq : e.queue.jobs with
    | nil =>
      left
      refine ⟨isUp, idle, rfl, ?_⟩
      simp [dispatch, guard, Queue.pop?, hq]
    | cons job rest =>
      right
      refine ⟨w, job, rest, isUp, idle, hw, rfl, ?_, ?_⟩
      · simp [dispatch, guard, Queue.pop?, hq, hw, launch, documentsAt, InFlight.register, idle,
          Job.flight]
      · simp [dispatch, guard, Queue.pop?, hq, hw, setState_effects, documentsAt]
  · left
    refine ⟨h, ?_⟩
    have guard : ¬ (e.lifecycle.isUp ∧ e.flights.isIdle) := by
      simpa [InFlight.isIdle] using h
    rw [dispatch, if_neg guard]

/-- A dispatch leaves the worker, the timers and the texts of the documents alone. -/
theorem dispatch_frame (now : Nat) {e : Engine} (up : e.lifecycle.isUp → e.worker.isSome) :
    ∃ queue flights documents lifecycle, documents.documents = e.documents.documents ∧
      (dispatch now e).state = { e with queue, flights, documents, lifecycle } := by
  rcases dispatch_cases now e up with
    ⟨-, heq⟩ | ⟨-, -, -, heq⟩ | ⟨w, job, rest, -, -, -, -, hstate, -⟩
  · rw [heq]
    exact ⟨_, _, _, _, rfl, rfl⟩
  · rw [heq, setState_state]
    exact ⟨_, _, _, _, rfl, rfl⟩
  · rw [hstate]
    exact ⟨_, _, (e.documentsAt job).2, _, documentsAt_documents e job, rfl⟩

theorem dispatch_worker (now : Nat) {e : Engine} (up : e.lifecycle.isUp → e.worker.isSome) :
    (dispatch now e).state.worker = e.worker := by
  obtain ⟨_, _, _, _, -, hstate⟩ := dispatch_frame now up
  rw [hstate]

/-! ## Frames -/

/-- A response changes no more than the diagnostics, and says so. -/
theorem applyResponse_eq (kind : JobKind) (outcome : Outcome) (e : Engine) :
    ∃ events documents, (∀ x ∈ events, x.isDiagnostic) ∧
      documents.documents = e.documents.documents ∧
      applyResponse kind outcome e =
        (judge kind outcome, ⟨{ e with documents }, announce events⟩) := by
  unfold applyResponse
  split
  · next result =>
    rw [judge]
    cases checkReports result with
    | ok reports =>
      exact ⟨(e.documents.install reports).1, (e.documents.install reports).2,
        e.documents.install_isDiagnostic reports, rfl, rfl⟩
    | error f => exact ⟨[], e.documents, by simp, rfl, rfl⟩
  · next other =>
    refine ⟨[], e.documents, by simp, rfl, ?_⟩
    rw [judge]
    · rfl
    · exact other

/-- **What a frame does before the next dispatch.** A frame that names a job in flight retires it
    with the frame's verdict. Any other frame touches neither queue nor flights. -/
theorem receive_cases (incoming : Incoming) (e : Engine) :
    (∃ f ∈ e.flights.live, incoming.names? = some f.job.id ∧
      ∃ events documents failedRestarts, (∀ x ∈ events, x.isDiagnostic) ∧
        documents.documents = e.documents.documents ∧
        receive incoming e =
          ⟨{ e with
              flights := { e.flights with
                live := e.flights.live.filter (·.job.id ≠ f.job.id) }
              documents, failedRestarts },
            announce events ++ finish f.job (incoming.verdict f.job.kind)⟩) ∨
    ((∀ f ∈ e.flights.live, incoming.names? ≠ some f.job.id) ∧
      ∃ events documents failedRestarts abandoned, (∀ x ∈ events, x.isDiagnostic) ∧
        documents.documents = e.documents.documents ∧
        receive incoming e =
          ⟨{ e with flights := { e.flights with abandoned }, documents, failedRestarts },
            announce events⟩) := by
  cases incoming with
  | response id outcome =>
    rcases e.flights.resolve_cases id with ⟨f, hf, rfl, hr⟩ | ⟨strange, ⟨kind, abandoned, hr⟩ | hr⟩
    · -- The job is in flight, and the response decides what its caller hears.
      left
      obtain ⟨events, documents, diagnostic, same, happ⟩ := applyResponse_eq f.job.kind outcome
        { e with
          flights := { e.flights with live := e.flights.live.filter (·.job.id ≠ f.job.id) }
          failedRestarts := 0 }
      refine ⟨f, hf, rfl, events, documents, 0, diagnostic, same, ?_⟩
      simp only [receive, onResponse, hr, happ]
      rfl
    · -- The job ran out of time. Of a late response only the reports of a check are of use.
      right
      refine ⟨fun f hf named => strange f hf (Option.some.inj named).symm, ?_⟩
      by_cases hk : kind = .check
      · obtain ⟨events, documents, diagnostic, same, happ⟩ := applyResponse_eq kind outcome
          { e with flights := { e.flights with abandoned }, failedRestarts := 0 }
        refine ⟨events, documents, 0, abandoned, diagnostic, same, ?_⟩
        simp only [receive, onResponse, hr, if_pos hk, happ]
      · refine ⟨[], e.documents, 0, abandoned, by simp, rfl, ?_⟩
        simp only [receive, onResponse, hr, if_neg hk]
        rfl
    · -- Nobody knows the job.
      right
      refine ⟨fun f hf named => strange f hf (Option.some.inj named).symm,
        [], e.documents, e.failedRestarts, e.flights.abandoned, by simp, rfl, ?_⟩
      simp only [receive, onResponse, hr]
      rfl
  | malformed id fault =>
    cases id with
    | none =>
      right
      exact ⟨by simp [Incoming.names?],
        [], e.documents, e.failedRestarts, e.flights.abandoned, by simp, rfl, rfl⟩
    | some id =>
      rcases e.flights.resolve_cases id with
        ⟨f, hf, rfl, hr⟩ | ⟨strange, ⟨kind, abandoned, hr⟩ | hr⟩
      · left
        refine ⟨f, hf, rfl, [], e.documents, e.failedRestarts, by simp, rfl, ?_⟩
        simp only [receive, onMalformed, hr]
        rfl
      · right
        refine ⟨fun f hf named => strange f hf (Option.some.inj named).symm,
          [], e.documents, e.failedRestarts, abandoned, by simp, rfl, ?_⟩
        simp only [receive, onMalformed, hr]
        rfl
      · right
        refine ⟨fun f hf named => strange f hf (Option.some.inj named).symm,
          [], e.documents, e.failedRestarts, e.flights.abandoned, by simp, rfl, ?_⟩
        simp only [receive, onMalformed, hr]
        rfl

/-- A frame leaves all but the flights, the diagnostics and the restart budget alone. -/
theorem receive_frame (incoming : Incoming) (e : Engine) :
    ∃ flights documents failedRestarts, documents.documents = e.documents.documents ∧
      (receive incoming e).state = { e with flights, documents, failedRestarts } := by
  rcases receive_cases incoming e with
    ⟨f, -, -, events, documents, failedRestarts, -, same, heq⟩ |
    ⟨-, events, documents, failedRestarts, abandoned, -, same, heq⟩
  · rw [heq]
    exact ⟨_, documents, _, same, rfl⟩
  · rw [heq]
    exact ⟨_, documents, _, same, rfl⟩

theorem receive_worker (incoming : Incoming) (e : Engine) :
    (receive incoming e).state.worker = e.worker := by
  obtain ⟨_, _, _, -, hstate⟩ := receive_frame incoming e
  rw [hstate]

/-- A response refills the restart budget if its job is in flight or remembered. Nothing else that
    a worker says does. -/
theorem receive_failedRestarts (incoming : Incoming) (e : Engine) :
    (receive incoming e).state.failedRestarts =
      match incoming with
      | .response id _ => if e.flights.knows id then 0 else e.failedRestarts
      | .malformed .. => e.failedRestarts := by
  cases incoming with
  | response id outcome =>
    have known := e.flights.resolve_unknown_iff id
    simp only [receive, onResponse]
    rcases hr : e.flights.resolve id with ⟨resolution, flights⟩
    rw [hr] at known
    cases resolution with
    | pending flight =>
      have hk : e.flights.knows id = true := by simpa using known
      obtain ⟨_, _, -, -, happ⟩ := applyResponse_eq flight.job.kind outcome
        { e with flights, failedRestarts := 0 }
      simp only [if_pos hk, happ]
      rfl
    | abandoned kind =>
      have hk : e.flights.knows id = true := by simpa using known
      obtain ⟨_, _, -, -, happ⟩ := applyResponse_eq kind outcome
        { e with flights, failedRestarts := 0 }
      by_cases check : kind = .check
      · simp only [if_pos hk, if_pos check, happ]
      · simp only [if_pos hk, if_neg check]
        rfl
    | unknown =>
      have hk : e.flights.knows id = false := known.1 rfl
      rw [hk]
      rfl
  | malformed id fault =>
    cases id with
    | none => rfl
    | some id =>
      simp only [receive, onMalformed]
      rcases e.flights.resolve id with ⟨resolution, flights⟩
      cases resolution <;> rfl

/-- The reports that a frame brings to the engine. The job that it answers is in flight, or it ran
    out of time and is remembered. -/
def reports? (e : Engine) (incoming : Incoming) : Option (List Report) :=
  (incoming.names?.bind e.flights.kind?).bind incoming.reports?

/-- The reports that a response brings are installed, and so is nothing else. -/
theorem applyResponse_adopts (kind : JobKind) (id : JobId) (outcome : Outcome) (e : Engine) :
    (applyResponse kind outcome e).2 =
      ⟨{ e with
          documents := (e.documents.adopt ((Incoming.response id outcome).reports? kind)).2 },
        announce (e.documents.adopt ((Incoming.response id outcome).reports? kind)).1⟩ := by
  unfold applyResponse
  split
  · next result =>
    rw [Incoming.reports?, if_pos rfl]
    cases checkReports result <;> rfl
  · next other =>
    have none : (Incoming.response id outcome).reports? kind = none := by
      cases outcome with
      | error => rfl
      | ok result => exact if_neg fun check => other result check rfl
    rw [none]
    rfl

/-- **What a frame does to the store.** The reports that it brings are installed; behind their
    events there is no more than the retirement of the job in flight. -/
theorem receive_store (incoming : Incoming) (e : Engine) :
    (receive incoming e).state.documents = (e.documents.adopt (e.reports? incoming)).2 ∧
    ((∃ f ∈ e.flights.live, e.reports? incoming = incoming.reports? f.job.kind ∧
        (receive incoming e).effects = announce (e.documents.adopt (e.reports? incoming)).1 ++
          finish f.job (incoming.verdict f.job.kind)) ∨
      (receive incoming e).effects = announce (e.documents.adopt (e.reports? incoming)).1) := by
  cases incoming with
  | response id outcome =>
    have hreports : e.reports? (.response id outcome) =
        (e.flights.kind? id).bind (Incoming.response id outcome).reports? := rfl
    have known := (e.flights.resolve_kind id).2
    rw [hreports]
    rcases e.flights.resolve_cases id with ⟨f, hf, rfl, hr⟩ | ⟨-, ⟨kind, abandoned, hr⟩ | hr⟩
    · have known : e.flights.kind? f.job.id = some f.job.kind := by rwa [hr] at known
      rw [known]
      obtain ⟨_, _, -, -, hjudged⟩ := applyResponse_eq f.job.kind outcome
        { e with
          flights := { e.flights with live := e.flights.live.filter (·.job.id ≠ f.job.id) }
          failedRestarts := 0 }
      have hadopted := applyResponse_adopts f.job.kind f.job.id outcome
        { e with
          flights := { e.flights with live := e.flights.live.filter (·.job.id ≠ f.job.id) }
          failedRestarts := 0 }
      simp only [receive, onResponse, hr, Turn.andThen_state, Turn.andThen_effects, doing_state,
        doing_effects, hadopted, congrArg Prod.fst hjudged]
      exact ⟨rfl, Or.inl ⟨f, hf, rfl, rfl⟩⟩
    · have known : e.flights.kind? id = some kind := by rwa [hr] at known
      rw [known]
      by_cases check : kind = .check
      · have hadopted := applyResponse_adopts kind id outcome
          { e with flights := { e.flights with abandoned }, failedRestarts := 0 }
        simp only [receive, onResponse, hr, if_pos check, hadopted]
        exact ⟨rfl, Or.inr rfl⟩
      · -- A late answer to anything but a check brings no reports.
        have none : (Incoming.response id outcome).reports? kind = none := by
          cases outcome with
          | error => rfl
          | ok result => exact if_neg check
        simp only [receive, onResponse, hr, if_neg check, Option.bind_some, none]
        exact ⟨rfl, Or.inr rfl⟩
    · have known : e.flights.kind? id = none := by rwa [hr] at known
      rw [known]
      simp only [receive, onResponse, hr]
      exact ⟨rfl, Or.inr rfl⟩
  | malformed id fault =>
    have none : e.reports? (.malformed id fault) = none := by
      unfold reports?
      cases (Incoming.malformed id fault).names?.bind e.flights.kind? <;> rfl
    rw [none]
    cases id with
    | none => exact ⟨rfl, Or.inr rfl⟩
    | some id =>
      rcases e.flights.resolve_cases id with ⟨f, hf, -, hr⟩ | ⟨-, ⟨kind, abandoned, hr⟩ | hr⟩
      · simp only [receive, onMalformed, hr]
        exact ⟨rfl, Or.inl ⟨f, hf, rfl, rfl⟩⟩
      · simp only [receive, onMalformed, hr]
        exact ⟨rfl, Or.inr rfl⟩
      · simp only [receive, onMalformed, hr]
        exact ⟨rfl, Or.inr rfl⟩

/-- A frame makes the engine remember no job that it did not remember. -/
theorem receive_abandoned (incoming : Incoming) (e : Engine) :
    (receive incoming e).state.flights.abandoned.Sublist e.flights.abandoned := by
  cases incoming with
  | response id outcome =>
    have shorter := (e.flights.resolve_kind id).1
    simp only [receive, onResponse]
    rcases hr : e.flights.resolve id with ⟨resolution, flights⟩
    rw [hr] at shorter
    cases resolution with
    | pending f =>
      obtain ⟨_, _, -, -, happ⟩ := applyResponse_eq f.job.kind outcome
        { e with flights, failedRestarts := 0 }
      simp only [Turn.andThen_state, doing_state, happ]
      exact shorter
    | abandoned kind =>
      obtain ⟨_, _, -, -, happ⟩ := applyResponse_eq kind outcome
        { e with flights, failedRestarts := 0 }
      by_cases check : kind = .check
      · simp only [if_pos check, happ]
        exact shorter
      · simp only [if_neg check, idle_state]
        exact shorter
    | unknown => exact List.Sublist.refl _
  | malformed id fault =>
    cases id with
    | none => exact List.Sublist.refl _
    | some id =>
      have shorter := (e.flights.resolve_kind id).1
      simp only [receive, onMalformed]
      rcases hr : e.flights.resolve id with ⟨resolution, flights⟩
      rw [hr] at shorter
      cases resolution with
      | pending f => exact shorter
      | abandoned kind => exact shorter
      | unknown => exact List.Sublist.refl _

/-! ## Submitting and cancelling -/

/-- The engine once the documents have followed a request. -/
def following (e : Engine) (r : Request) : Engine :=
  { e with documents := (e.documents.follow r).2 }

/-- A submitted job is refused, or it waits at the end of the queue until a dispatch. -/
theorem submit_cases (now : Nat) (job : Job) (e : Engine) :
    (e.lifecycle.rejectsJobs ∧ submit now job e =
      ⟨e.following job.request,
        announce (e.documents.follow job.request).1 ++ finish job (.error .unavailable)⟩) ∨
    (¬ e.lifecycle.rejectsJobs ∧ submit now job e =
      Turn.andThen
        ⟨{ e.following job.request with queue := e.queue.push job },
          announce (e.documents.follow job.request).1⟩ (dispatch now)) := by
  -- The three ways in which a request is recorded are one: the documents follow it.
  have recorded : submit now job e =
      Turn.andThen ⟨e.following job.request, announce (e.documents.follow job.request).1⟩
        fun e => if e.lifecycle.rejectsJobs then e.doing (finish job (.error .unavailable))
          else dispatch now { e with queue := e.queue.push job } := by
    unfold submit
    cases job.request <;> rfl
  have same : (e.following job.request).lifecycle = e.lifecycle := rfl
  rw [recorded]
  by_cases h : e.lifecycle.rejectsJobs
  · left
    refine ⟨h, ?_⟩
    simp only [Turn.andThen, same, if_pos h]
    rfl
  · right
    refine ⟨h, ?_⟩
    simp only [Turn.andThen, same, if_neg h]
    rfl

/-- A waiting job leaves the queue. For one in flight only its caller is told. -/
theorem cancel_cases (id : JobId) (e : Engine) :
    (∃ before job after, e.queue.jobs = before ++ job :: after ∧ job.id = id ∧ cancel id e =
      ⟨{ e with queue := ⟨before ++ after⟩ }, finish job (.error .cancelled)⟩) ∨
    ((∀ job ∈ e.queue.jobs, job.id ≠ id) ∧ cancel id e =
      ⟨{ e with flights := e.flights.cancel id },
        (((e.flights.find? id).bind (·.job.waiter)).map
          (Effect.tell · (.error .cancelled))).toList⟩) := by
  cases h : e.queue.jobs.find? (·.id = id) with
  | some job =>
    left
    -- The job that is found first is the one that is removed.
    obtain ⟨hjob, before, after, hq, hbefore⟩ := List.find?_eq_some_iff_append.1 h
    have hskip : ∀ j ∈ before, ¬ decide (j.id = id) = true :=
      fun j hj => by simpa using hbefore j hj
    have herase : e.queue.jobs.eraseP (·.id = id) = before ++ after := by
      rw [hq, List.eraseP_append_right _ hskip]
      exact congrArg (before ++ ·) (List.eraseP_cons_of_pos hjob)
    refine ⟨before, job, after, hq, by simpa using hjob, ?_⟩
    simp [cancel, Queue.remove?, h, herase]
  | none =>
    right
    refine ⟨fun job hjob => by simpa using List.find?_eq_none.1 h job hjob, ?_⟩
    simp [cancel, Queue.remove?, h]

theorem cancel_frame (id : JobId) (e : Engine) :
    ∃ queue flights, (cancel id e).state = { e with queue, flights } := by
  rcases cancel_cases id e with ⟨before, job, after, -, -, heq⟩ | ⟨-, heq⟩
  · rw [heq]
    exact ⟨_, _, rfl⟩
  · rw [heq]
    exact ⟨_, _, rfl⟩

/-! ## Deadlines -/

/-- The engine without the jobs whose time is up. -/
def expired (now : Nat) (e : Engine) : Engine :=
  { e with flights := (e.flights.expire now).2 }

theorem onDeadline_eq (now : Nat) (e : Engine) :
    onDeadline now e =
      Turn.andThen
        ⟨e.expired now, (e.flights.live.filter (·.isDue now)).flatMap fun f =>
          finish f.job (.error (.timeout f.job.id (f.elapsed now)))⟩ (dispatch now) := rfl

theorem expired_live (now : Nat) (e : Engine) :
    (e.expired now).flights.live = e.flights.live.filter (!·.isDue now) := rfl

/-! ## The end of a start -/

/-- The jobs that a worker gets ahead of all others when it comes up. -/
def replayed (e : Engine) : List Job :=
  if e.replayOnReady then (e.issueJobs e.documents.replay).1 else []

/-- The engine with a worker that has just come up. -/
def welcome (started : Started) (e : Engine) : Engine :=
  { e with
    startup := none, worker := some started.worker, lifecycle := .ready
    queue := e.queue.pushAhead e.replayed, replayOnReady := false
    nextId := e.nextId + e.replayed.length }

/-- What the user hears of a worker that has just come up. -/
def greeting (started : Started) : List Effect :=
  (started.version.map fun v => notify .info ("Running Flix (" ++ v.text ++ ")")).toList

theorem onStarted_ok (now : Nat) (started : Started) (e : Engine) :
    onStarted now (.ok started) e =
      Turn.andThen
        ⟨e.welcome started,
          greeting started ++ if e.lifecycle = .ready then [] else proclaim .ready⟩
        (dispatch now) := by
  unfold onStarted welcome replayed greeting
  cases hr : e.replayOnReady <;>
    simp [Turn.andThen, doing, setState_effects, issueJobs, Queue.pushAhead]

theorem onStarted_error (now : Nat) (fault : StartFault) (e : Engine) :
    onStarted now (.error fault) e =
      Turn.andThen
        ⟨{ e with startup := none, queue := {} },
          e.queue.jobs.flatMap (finish · (.error (.startup fault))) ++
            [notify .error (Failure.startup fault).message]⟩
        (scheduleRestart now) := rfl

/-! ## Steps -/

/-- Whether an input is without consequence: it comes from a worker that was let go, from a start
    that was given up or from a timer that is not due, or the engine has shut down. -/
def Ignores (now : Nat) (e : Engine) : Input → Prop
  | .command _ | .deadline => e.lifecycle = .stopped
  | .frame w _ | .closed w _ => e.lifecycle = .stopped ∨ e.worker ≠ some w
  | .restartDue => e.lifecycle = .stopped ∨ ∀ due ∈ e.restartAt, now < due
  | .started start _ => e.lifecycle = .stopped ∨ e.startup ≠ some start

/-- What an input leads to, one case for each way in which the engine reacts. -/
inductive Reacts (now : Nat) (e : Engine) : Input → Turn → Prop where
  | ignored {input : Input} (h : e.Ignores now input) : Reacts now e input e.idle
  | submitted (job : Job) (alive : e.lifecycle ≠ .stopped) :
      Reacts now e (.command (.submit job)) (submit now job e)
  | cancelled (id : JobId) (alive : e.lifecycle ≠ .stopped) :
      Reacts now e (.command (.cancel id)) (cancel id e)
  | restarted (alive : e.lifecycle ≠ .stopped) : Reacts now e (.command .restart) (restart e)
  | shown (caller : Ticket) (alive : e.lifecycle ≠ .stopped) :
      Reacts now e (.command (.snapshot caller))
        (e.doing [.exhibit caller e.documents.snapshot])
  | shutDown (caller : Option Ticket) (alive : e.lifecycle ≠ .stopped) :
      Reacts now e (.command (.shutdown caller)) (shutdown caller e)
  | heard {w : WorkerId} (incoming : Incoming) (alive : e.lifecycle ≠ .stopped)
      (current : e.worker = some w) : Reacts now e (.frame w incoming) (onFrame now incoming e)
  | lost {w : WorkerId} (reason : CloseReason) (alive : e.lifecycle ≠ .stopped)
      (current : e.worker = some w) : Reacts now e (.closed w reason) (crash now reason e)
  | expired (alive : e.lifecycle ≠ .stopped) : Reacts now e .deadline (onDeadline now e)
  | due {due : Nat} (alive : e.lifecycle ≠ .stopped) (armed : e.restartAt = some due)
      (past : due ≤ now) : Reacts now e .restartDue (beginStart e)
  | started {start : StartId} (result : Except StartFault Started)
      (alive : e.lifecycle ≠ .stopped) (pending : e.startup = some start) :
      Reacts now e (.started start result) (onStarted now result e)

theorem hasEnded_iff (e : Engine) : e.hasEnded ↔ e.lifecycle = .stopped := by
  simp [hasEnded]

theorem step_of_stopped {e : Engine} (stopped : e.lifecycle = .stopped) (now : Nat)
    (input : Input) : e.step now input = e.idle := by
  unfold step
  exact if_pos (e.hasEnded_iff.2 stopped)

/-- Every step is one of the reactions. -/
theorem step_reacts (now : Nat) (e : Engine) (input : Input) :
    Reacts now e input (e.step now input) := by
  unfold step
  split
  · next ended =>
    -- After the shutdown every input is ignored.
    have stopped := e.hasEnded_iff.1 ended
    cases input <;> exact .ignored (by simp [Ignores, stopped])
  · next running =>
    have alive : e.lifecycle ≠ .stopped := fun h => running (e.hasEnded_iff.2 h)
    cases input with
    | command c =>
      cases c with
      | submit job => exact .submitted job alive
      | cancel id => exact .cancelled id alive
      | restart => exact .restarted alive
      | snapshot caller => exact .shown caller alive
      | shutdown caller => exact .shutDown caller alive
    | frame w incoming =>
      show Reacts now e _ (if e.worker = some w then onFrame now incoming e else e.idle)
      by_cases h : e.worker = some w
      · rw [if_pos h]
        exact .heard incoming alive h
      · rw [if_neg h]
        exact .ignored (Or.inr h)
    | closed w reason =>
      show Reacts now e _ (if e.worker = some w then crash now reason e else e.idle)
      by_cases h : e.worker = some w
      · rw [if_pos h]
        exact .lost reason alive h
      · rw [if_neg h]
        exact .ignored (Or.inr h)
    | deadline => exact .expired alive
    | restartDue =>
      cases h : e.restartAt with
      | none => exact .ignored (Or.inr (by simp [h]))
      | some due =>
        show Reacts now e _ (if due ≤ now then beginStart e else e.idle)
        by_cases past : due ≤ now
        · rw [if_pos past]
          exact .due alive h past
        · rw [if_neg past]
          exact .ignored (Or.inr (by simpa [h] using past))
    | started start result =>
      show Reacts now e _ (if e.startup = some start then onStarted now result e else e.idle)
      by_cases h : e.startup = some start
      · rw [if_pos h]
        exact .started result alive h
      · rw [if_neg h]
        exact .ignored (Or.inr h)

end Engine

end WorkerBridge
