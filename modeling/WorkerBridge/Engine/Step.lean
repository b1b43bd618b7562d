/-
  WorkerBridge.Engine.Step

  The turns of the engine. At most one job is in flight; the next is dispatched
  at the end of every turn that may have made room for it.
-/
import WorkerBridge.Engine.Basic

namespace WorkerBridge.Engine

/-! ## Small turns -/

/-- Events as effects. -/
def announce (events : List Event) : List Effect :=
  events.map .emit

/-- A message to the user. -/
def notify (level : NotifyLevel) (message : String) : Effect :=
  .emit (.notify level message)

/-- Retires a job: its caller, if it still waits, is told, and the editor hears of it. -/
def finish (j : Job) (outcome : Outcome) : List Effect :=
  (j.waiter.map (Effect.tell · outcome)).toList ++
    [.emit (.finished j.id j.kind outcome.isOk)]

/-- Makes a state known: it is shown to all who look, and the editor is told. -/
def proclaim (s : Lifecycle) : List Effect :=
  [.display s, .emit (.state s)]

/-- Moves to a lifecycle state. Only changes are made known. -/
def setState (s : Lifecycle) (e : Engine) : Turn :=
  if e.lifecycle = s then e.idle else ⟨{ e with lifecycle := s }, proclaim s⟩

/-- Fails every waiting job. -/
def failQueued (f : Failure) (e : Engine) : Turn :=
  ⟨{ e with queue := {} }, e.queue.jobs.flatMap (finish · (.error f))⟩

/-- Fails every job in flight, and forgets those that ran out of time. -/
def failFlights (f : Failure) (e : Engine) : Turn :=
  let (live, flights) := e.flights.drain
  ⟨{ e with flights }, live.flatMap fun flight => finish flight.job (.error f)⟩

/-! ## Starting and crashing -/

/-- Begins to start a worker. -/
def beginStart (e : Engine) : Turn :=
  (setState .starting { e with restartAt := none }).andThen fun e =>
    ⟨{ e with startup := some e.nextStart, nextStart := e.nextStart + 1 }, [.start e.nextStart]⟩

/-- Schedules a restart, or gives up when the budget is spent. -/
def scheduleRestart (now : Nat) (e : Engine) : Turn :=
  if e.policy.auto ∧ e.failedRestarts < e.policy.maxRetries then
    let delay := (e.policy.delay e.failedRestarts).toNat
    setState .crashed
      { e with failedRestarts := e.failedRestarts + 1, restartAt := some (now + delay) }
  else
    ((failQueued .unavailable e).andThen (setState .unavailable)).andThen fun e =>
      e.doing [notify .error "Flix is unavailable. Restart it to continue."]

/-- The channel to the worker is lost: everything outstanding fails. -/
def crash (now : Nat) (reason : CloseReason) (e : Engine) : Turn :=
  let released : Turn := ⟨{ e with worker := none }, (e.worker.map Effect.abandon).toList⟩
  (((released.andThen (failFlights (.crashed reason))).andThen
    (failQueued (.crashed reason))).andThen fun e =>
      ⟨{ e with replayOnReady := true },
        [notify .error ("Flix worker crashed: " ++ reason.message)]⟩).andThen (scheduleRestart now)

/-! ## Dispatching -/

/-- Hands the next job to the worker, if the worker is up and nothing is in flight. A check clears
the diagnostics first. -/
def dispatch (now : Nat) (e : Engine) : Turn :=
  if e.lifecycle.isUp ∧ e.flights.isIdle then
    match e.queue.pop? with
    | none => setState .ready e
    | some (job, queue) =>
      let (cleared, documents) :=
        if job.kind = .check then e.documents.clear else ([], e.documents)
      let registered : Turn :=
        ⟨{ e with queue, documents, flights := e.flights.register job now }, announce cleared⟩
      (registered.andThen (setState .busy)).andThen fun e =>
        match e.worker with
        | some w => e.doing [.send w job.id job.request]
        | none => crash now .writerGone e
  else e.idle

/-! ## Commands -/

/-- Takes a job on. Documents follow at once; the job itself waits for its turn. -/
def submit (now : Nat) (job : Job) (e : Engine) : Turn :=
  let recorded : Turn :=
    match job.request with
    | .addUri uri source => idle { e with documents := (e.documents.update uri source).2 }
    | .remUri uri =>
      let (events, documents) := e.documents.close uri
      ⟨{ e with documents }, announce events⟩
    | _ => e.idle
  recorded.andThen fun e =>
    if e.lifecycle.rejectsJobs then e.doing (finish job (.error .unavailable))
    else dispatch now { e with queue := e.queue.push job }

/-- Cancels a waiting job. The result of one in flight is ignored when it comes. -/
def cancel (id : JobId) (e : Engine) : Turn :=
  match e.queue.remove? id with
  | some (job, queue) => ⟨{ e with queue }, finish job (.error .cancelled)⟩
  | none =>
    let waiter := (e.flights.find? id).bind (·.job.waiter)
    ⟨{ e with flights := e.flights.cancel id },
      (waiter.map (Effect.tell · (.error .cancelled))).toList⟩

/-- Replaces the worker: what is in flight is cancelled, the queue is kept. -/
def restart (e : Engine) : Turn :=
  let aborted : Turn := ⟨{ e with startup := none }, (e.startup.map Effect.abortStart).toList⟩
  ((aborted.andThen (failFlights .cancelled)).andThen fun e =>
    match e.worker with
    | none => e.idle
    | some w =>
      let (id, e) := e.issueId
      ⟨{ e with worker := none }, [.retire w id]⟩).andThen fun e =>
        beginStart { e with failedRestarts := 0, replayOnReady := true }

/-- Stops for good: everything outstanding fails, and the worker is waited for. -/
def shutdown (caller : Option Ticket) (e : Engine) : Turn :=
  let aborted : Turn :=
    ⟨{ e with startup := none, restartAt := none }, (e.startup.map Effect.abortStart).toList⟩
  ((((aborted.andThen (failFlights .shutDown)).andThen (failQueued .shutDown)).andThen fun e =>
    match e.worker with
    | none => e.idle
    | some w =>
      let (id, e) := e.issueId
      ⟨{ e with worker := none }, [.retireAndWait w id]⟩).andThen (setState .stopped)).andThen
        fun e => e.doing (caller.map Effect.dismiss).toList

/-- The turn that answers a command. -/
def onCommand (now : Nat) (e : Engine) : Command → Turn
  | .submit job => submit now job e
  | .cancel id => cancel id e
  | .restart => restart e
  | .snapshot caller => e.doing [.exhibit caller e.documents.snapshot]
  | .shutdown caller => shutdown caller e

/-! ## Frames -/

/-- What a response changes, whoever still waits for it: a successful check installs its reports.
A result that is no list of reports fails the check. -/
def applyResponse (kind : JobKind) (outcome : Outcome) (e : Engine) : Outcome × Turn :=
  match kind, outcome with
  | .check, .ok result =>
    match checkReports result with
    | .ok reports =>
      let (events, documents) := e.documents.install reports
      (.ok result, ⟨{ e with documents }, announce events⟩)
    | .error f => (.error f, e.idle)
  | _, outcome => (outcome, e.idle)

/-- A response: its job is retired, and the restart budget refills. -/
def onResponse (id : JobId) (outcome : Outcome) (e : Engine) : Turn :=
  match e.flights.resolve id with
  | (.pending flight, flights) =>
    let (outcome, turn) :=
      applyResponse flight.job.kind outcome { e with flights, failedRestarts := 0 }
    turn.andThen fun e => e.doing (finish flight.job outcome)
  | (.abandoned kind, flights) =>
    let e := { e with flights, failedRestarts := 0 }
    if kind = .check then (applyResponse kind outcome e).2 else e.idle
  | (.unknown, _) => e.idle

/-- A frame that is no response. The job it names, if any, fails. -/
def onMalformed (id : Option JobId) (fault : ProtocolFault) (e : Engine) : Turn :=
  match id with
  | none => e.idle
  | some id =>
    match e.flights.resolve id with
    | (.pending flight, flights) =>
      ⟨{ e with flights }, finish flight.job (.error (.protocol fault))⟩
    | (.abandoned _, flights) => idle { e with flights }
    | (.unknown, _) => e.idle

/-- What a frame leads to, before the next job is dispatched. -/
def receive (incoming : Incoming) (e : Engine) : Turn :=
  match incoming with
  | .response id outcome => onResponse id outcome e
  | .malformed id fault => onMalformed id fault e

/-- The turn that answers a frame. -/
def onFrame (now : Nat) (incoming : Incoming) (e : Engine) : Turn :=
  (receive incoming e).andThen (dispatch now)

/-! ## Time and starts -/

/-- Retires every job whose time is up. -/
def onDeadline (now : Nat) (e : Engine) : Turn :=
  let (due, flights) := e.flights.expire now
  let expired : Turn := ⟨{ e with flights }, due.flatMap fun flight =>
    finish flight.job (.error (.timeout flight.job.id (flight.elapsed now)))⟩
  expired.andThen (dispatch now)

/-- Jobs for the given requests, under fresh identities. -/
def issueJobs (e : Engine) (requests : List Request) : List Job × Engine :=
  (requests.zipIdx.map fun (r, i) => { id := ⟨e.nextId + i⟩, request := r },
    { e with nextId := e.nextId + requests.length })

/-- The start of a worker has come to its end. -/
def onStarted (now : Nat) (result : Except StartFault Started) (e : Engine) : Turn :=
  let e := { e with startup := none }
  match result with
  | .ok started =>
    let greeting := (started.version.map fun v =>
      notify .info ("Running Flix (" ++ v.text ++ ")")).toList
    let e := { e with worker := some started.worker }
    let e :=
      if e.replayOnReady then
        let (jobs, e) := e.issueJobs e.documents.replay
        { e with replayOnReady := false, queue := e.queue.pushAhead jobs }
      else e
    ((e.doing greeting).andThen (setState .ready)).andThen (dispatch now)
  | .error fault =>
    ((failQueued (.startup fault) e).andThen fun e =>
      e.doing [notify .error (Failure.startup fault).message]).andThen (scheduleRestart now)

/-! ## Steps -/

/-- The first turn. -/
def boot (e : Engine) : Turn :=
  beginStart e

/-- The turn that answers an input. Frames of a worker that was let go, a start that was given up
and a timer that is not due change nothing, and neither does anything after the shutdown. -/
def step (now : Nat) (e : Engine) (input : Input) : Turn :=
  if e.hasEnded then e.idle
  else
    match input with
    | .command c => onCommand now e c
    | .frame w incoming => if e.worker = some w then onFrame now incoming e else e.idle
    | .closed w reason => if e.worker = some w then crash now reason e else e.idle
    | .deadline => onDeadline now e
    | .restartDue =>
      match e.restartAt with
      | some due => if due ≤ now then beginStart e else e.idle
      | none => e.idle
    | .started start result => if e.startup = some start then onStarted now result e else e.idle

/-- The state and all effects after inputs at the given times. -/
def run (e : Engine) (inputs : List (Nat × Input)) : Turn :=
  inputs.foldl (fun t i => Turn.andThen t fun e => step i.1 e i.2) e.idle

end WorkerBridge.Engine
