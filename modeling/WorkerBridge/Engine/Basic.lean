/-
  WorkerBridge.Engine.Basic

  The state of the engine, what it reacts to, and what it does in return.

  The engine owns the queue, the jobs in flight, the documents and the worker. A
  turn is the answer to one input: the next state and a list of effects, to be
  carried out in order. Nothing else changes the state. Times are in milliseconds
  from a common start, and like the numbers of jobs they have no bound.
-/
import WorkerBridge.Queue
import WorkerBridge.InFlight
import WorkerBridge.Documents
import WorkerBridge.Response
import WorkerBridge.Lookup
import WorkerBridge.Settings

namespace WorkerBridge

/-! ## Inputs -/

/-- A worker that was brought into being. Later workers have other numbers. -/
abbrev WorkerId := Nat

/-- An attempt of the engine to get a worker. Later attempts have other numbers. -/
abbrev StartId := Nat

/-- A worker that answered its readiness probe. -/
structure Started where
  worker : WorkerId
  version : Option Version
deriving DecidableEq, Repr

/-- What callers ask of the engine. -/
inductive Command where
  | submit (job : Job)
  | cancel (id : JobId)
  | restart
  | snapshot (caller : Ticket)
  | shutdown (caller : Option Ticket)

/-- What the engine reacts to. -/
inductive Input where
  | command (c : Command)
  | frame (worker : WorkerId) (incoming : Incoming)
  | closed (worker : WorkerId) (reason : CloseReason)
  | deadline
  | restartDue
  | started (start : StartId) (result : Except StartFault Started)

/-! ## Effects -/

/-- What the engine does in a turn. -/
inductive Effect where
  /-- Tells the editor. -/
  | emit (e : Event)
  /-- Shows the state to all who look at it. -/
  | display (s : Lifecycle)
  /-- Tells the caller of a job. -/
  | tell (caller : Ticket) (outcome : Outcome)
  /-- Answers a caller that asked for the diagnostics. -/
  | exhibit (caller : Ticket) (snapshot : Snapshot)
  /-- Hands a request to the worker. -/
  | send (worker : WorkerId) (id : JobId) (request : Request)
  /-- Lets go of a worker whose channel is lost. -/
  | abandon (worker : WorkerId)
  /-- Asks a worker to exit, under the given identity, without waiting for it. -/
  | retire (worker : WorkerId) (id : JobId)
  /-- Asks a worker to exit, under the given identity, and waits for it. -/
  | retireAndWait (worker : WorkerId) (id : JobId)
  /-- Begins to start a worker. -/
  | start (start : StartId)
  /-- Gives up a start. -/
  | abortStart (start : StartId)
  /-- Answers the caller that asked for the shutdown. -/
  | dismiss (caller : Ticket)

/-! ## State -/

/-- The state of the engine. -/
structure Engine where
  policy : RestartPolicy := {}
  queue : Queue := {}
  flights : InFlight := {}
  documents : Documents := {}
  worker : Option WorkerId := none
  lifecycle : Lifecycle := .starting
  startup : Option StartId := none
  restartAt : Option Nat := none
  /-- Restarts scheduled since a worker last answered a dispatched job. -/
  failedRestarts : UInt32 := 0
  /-- Whether the next worker gets the open documents again. -/
  replayOnReady : Bool := false
  nextId : Nat := 1
  nextStart : StartId := 0

/-- The answer to an input: the next state, and what to do, in order. -/
structure Turn where
  state : Engine
  effects : List Effect

/-- Goes on from the state that a turn has reached. -/
def Turn.andThen (t : Turn) (f : Engine → Turn) : Turn :=
  let next := f t.state
  ⟨next.state, t.effects ++ next.effects⟩

namespace Engine

/-- A turn that does nothing. -/
def idle (e : Engine) : Turn := ⟨e, []⟩

/-- A turn that only has effects. -/
def doing (e : Engine) (effects : List Effect) : Turn := ⟨e, effects⟩

/-- Takes the next identity. Callers and the engine draw from one source. -/
def issueId (e : Engine) : JobId × Engine :=
  (⟨e.nextId⟩, { e with nextId := e.nextId + 1 })

/-- Whether the engine has shut down. -/
def hasEnded (e : Engine) : Bool :=
  e.lifecycle == .stopped

end Engine

end WorkerBridge
