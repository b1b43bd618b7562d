/-
  WorkerBridge.Rehearsal.World

  A closed world around the engine: its callers, the channels, and scripted
  workers at their far ends. Whoever acts in it is an agent; agents take turns in
  the order in which they were woken, and time stands still while one is awake.

  This module holds the state of the world and the small changes to it. What an
  agent does in its turn is in `Rehearsal.Turns`.
-/
import WorkerBridge.Engine.Step
import WorkerBridge.Errand
import WorkerBridge.Link
import WorkerBridge.Rehearsal.Script

namespace WorkerBridge

/-! ## Agents -/

/-- Whoever takes turns. -/
inductive Agent where
  | engine
  /-- The start of a worker. -/
  | start (s : StartId)
  /-- The bridge's writer to a worker. -/
  | writer (k : WorkerId)
  /-- The bridge's reader from a worker. -/
  | reader (k : WorkerId)
  | worker (k : WorkerId)
  /-- The stop of a worker. -/
  | stop (n : Nat)
  | caller (t : Ticket)
deriving DecidableEq, Repr

/-! ## Workers and channels -/

/-- A worker: what it still has to do before it reads on, until when it sleeps, and whether it has
exited. -/
structure Server where
  acts : List Act := []
  wakeAt : Option Nat := none
  hasExited : Bool := false
  /-- The rules of this worker alone, if it does not share those of all workers. -/
  script : Option Script := none
  /-- Whether the requests that it receives are noted. -/
  isNoted : Bool := true
  /-- Whether it is a process, which is waited for and killed. -/
  isProcess : Bool := false

/-- The channel to a worker, both ends included. -/
structure Line where
  sender : Sender := {}
  inlet : Inlet := {}
  outlet : List UInt8 := []
  receiver : Receiver := {}
  events : List LinkEvent := []
  /-- Whether the bridge has let go of its end. -/
  isReleased : Bool := false
  server : Server := {}

namespace Line

/-- Whether nobody is left at the bridge's end. -/
def isGone (l : Line) : Bool :=
  l.sender.writer = .ended && l.receiver.ended

/-- How many bytes the worker can write now. -/
def room (l : Line) : Nat :=
  Link.pipeCapacity - l.outlet.length

end Line

/-! ## Starts, stops and callers -/

/-- The start of a worker under way. -/
structure StartTask where
  startup : Startup
  isCancelled : Bool := false
  result : Option (Except StartFault Started) := none

/-- The stop of a worker under way: what still has to be sent, and how long to wait then. -/
structure StopTask where
  worker : WorkerId
  toSend : List Outgoing
  grace : Nat
  deadline : Option Nat := none
  isDone : Bool := false

/-- What a caller hears. -/
inductive Heard where
  | outcome (o : Outcome)
  | snapshot (s : Snapshot)
  | dismissed
  /-- The engine went away without an answer. -/
  | silence

/-- What a caller wants. -/
inductive Wish where
  | job (r : Request) (errand : Errand)
  | snapshot
  | shutdown

/-- How far a caller has come. -/
inductive CallStage where
  | unbegun
  | submitted (id : JobId)
  | waiting (id : JobId) (giveUpAt : Option Nat)
  | done

/-- A caller. -/
structure Caller where
  /-- The number under which its answer is noted. -/
  label : Nat
  wish : Wish
  stage : CallStage
  heard : Option Heard := none
  /-- Whether it keeps the engine alive. -/
  holdsHandle : Bool

/-! ## The world -/

/-- How workers come into being. -/
inductive Launcher where
  /-- All workers share the rules of the world, and the next launches may be refused. -/
  | shared
  /-- Every launch goes the same way. -/
  | each (result : Except SpawnFault Server)

/-- The state of the world. What is noted is kept last first. -/
structure World where
  timeouts : Timeouts := {}
  launcher : Launcher := .shared
  /-- Whether callers come through the facade, which words the loss of the engine for them. -/
  hasFacade : Bool := true
  now : Nat := 0
  ready : List Agent := [.engine]
  engine : Engine := {}
  isBooted : Bool := false
  hasEnded : Bool := false
  inbox : List Command := []
  handles : Nat := 1
  /-- What the engine still has to do in its turn. -/
  todo : List Effect := []
  /-- The stop that the engine waits for. -/
  awaited : Option Nat := none
  /-- The state that the callers see. -/
  shown : Lifecycle := .starting
  lines : Array Line := #[]
  starts : Array StartTask := #[]
  stops : Array StopTask := #[]
  callers : Array Caller := #[]
  script : Script := []
  failingSpawns : Nat := 0
  spawns : Nat := 0
  events : List Event := []
  answers : List (Nat × Answer) := []
  requests : List Json := []

namespace World

/-- The world in which the bridge has just been set up. -/
def ofSettings (s : Settings) (script : Script) : World :=
  { timeouts := s.timeouts, script, engine := { policy := s.restart } }

/-! ## Small changes -/

/-- Wakes an agent, unless it is awake. -/
def wake (a : Agent) (w : World) : World :=
  if w.ready.contains a then w else { w with ready := w.ready ++ [a] }

/-- The channel to a worker. -/
def line (w : World) (k : WorkerId) : Line :=
  w.lines.getD k {}

/-- Changes the channel to a worker. -/
def setLine (k : WorkerId) (l : Line) (w : World) : World :=
  { w with lines := w.lines.setIfInBounds k l }

/-- Changes a start. -/
def setStart (s : StartId) (t : StartTask) (w : World) : World :=
  { w with starts := w.starts.setIfInBounds s t }

/-- Changes a stop. -/
def setStop (n : Nat) (t : StopTask) (w : World) : World :=
  { w with stops := w.stops.setIfInBounds n t }

/-- Changes a caller. -/
def setCaller (t : Ticket) (c : Caller) (w : World) : World :=
  { w with callers := w.callers.setIfInBounds t c }

/-- Tells the editor. -/
def emit (e : Event) (w : World) : World :=
  { w with events := e :: w.events }

/-- Tells the editor several things. -/
def emitAll (es : List Event) (w : World) : World :=
  es.foldl (fun w e => w.emit e) w

/-- Tells a caller, if it still waits. -/
def hear (t : Ticket) (h : Heard) (w : World) : World :=
  match w.callers[t]? with
  | none => w
  | some c =>
    match c.stage with
    | .done => w
    | _ => (w.setCaller t { c with heard := some (c.heard.getD h) }).wake (.caller t)

/-- A command that nobody takes. Its caller hears nothing. -/
def lose (c : Command) (w : World) : World :=
  match c with
  | .submit job => (job.waiter.map fun t => w.hear t .silence).getD w
  | .snapshot t => w.hear t .silence
  | .shutdown (some t) => w.hear t .silence
  | _ => w

/-- Hands a command to the engine. -/
def command (c : Command) (w : World) : World :=
  if w.hasEnded then w.lose c else wake .engine { w with inbox := w.inbox ++ [c] }

/-- Takes the next identity. -/
def issueId (w : World) : JobId × World :=
  let (id, engine) := w.engine.issueId
  (id, { w with engine })

/-- Gives a handle back. With the last one the engine is told to stop. -/
def dropHandle (w : World) : World :=
  let w := { w with handles := w.handles - 1 }
  if w.handles = 0 then w.wake .engine else w

/-! ## Channels -/

/-- The start that probes a worker. -/
def probing? (w : World) (k : WorkerId) : Option StartId :=
  w.starts.findIdx? fun t => t.result.isNone && t.startup.worker? = some k

/-- Wakes whoever takes the events of a worker. -/
def wakeOwner (k : WorkerId) (w : World) : World :=
  if w.engine.worker = some k then w.wake .engine
  else
    match w.probing? k with
    | some s => w.wake (.start s)
    | none => w

/-- The agent in whose turns a stop goes on. -/
def stopAgent (w : World) (n : Nat) : Agent :=
  if w.awaited = some n then .engine else .stop n

/-- Wakes whoever waits for the writer of a worker: for room, or for its end. -/
def wakeSenders (k : WorkerId) (w : World) : World :=
  let w :=
    match w.todo with
    | .send k' .. :: _ => if k' = k then w.wake .engine else w
    | _ => w
  w.stops.zipIdx.foldl (fun w (t, n) =>
    if t.worker = k && !t.isDone then w.wake (w.stopAgent n) else w) w

/-- What waking anyone keeps is kept. -/
theorem wakeSenders_induction {P : World → Prop} (woken : ∀ w a, P w → P (wake a w))
    (k : WorkerId) {w : World} (before : P w) : P (w.wakeSenders k) := by
  rw [wakeSenders]
  refine Array.foldl_induction (fun _ => P) ?_ fun i w' kept => ?_
  · split
    · split
      · exact woken _ _ before
      · exact before
    · exact before
  · dsimp only
    split
    · exact woken _ _ kept
    · exact kept

/-- Puts a message into the outbox of a worker. -/
def post (k : WorkerId) (m : Outgoing) (w : World) : World :=
  let l := w.line k
  let w := w.setLine k { l with sender := l.sender.put m }
  if l.sender.writer = .idle then w.wake (.writer k) else w

/-- The bridge has left its end, or half of it. A worker that reads or writes learns of it. -/
def leaveEnd (k : WorkerId) (w : World) : World :=
  let l := w.line k
  if l.isGone then
    (w.setLine k { l with inlet := { l.inlet with closed := true } }).wake (.worker k)
  else w

/-- Lets go of a worker: the bridge's reader and writer end at their next turns. -/
def release (k : WorkerId) (w : World) : World :=
  let l := w.line k
  let w := w.setLine k { l with isReleased := true }
  let w := if l.receiver.ended then w else w.wake (.reader k)
  if l.sender.writer = .ended then w else w.wake (.writer k)

/-- A worker exits. The bridge's reader meets the end of its output, and the writer fails. -/
def exit (k : WorkerId) (w : World) : World :=
  let l := w.line k
  if l.server.hasExited then w
  else
    let w := w.setLine k { l with server := { l.server with hasExited := true, acts := [] } }
    let w := if l.receiver.ended then w else w.wake (.reader k)
    match l.sender.writer with
    | .writing .. => w.wake (.writer k)
    | _ => if l.server.isProcess then w.wakeSenders k else w

/-- Kills a worker that is a process. -/
def kill (k : WorkerId) (w : World) : World :=
  if (w.line k).server.isProcess then w.exit k else w

end World

end WorkerBridge
