/-
  WorkerBridge.Rehearsal.Scene

  Scenes: moves made from outside, one after the other, and what is noted after
  each of them.
-/
import WorkerBridge.Rehearsal.Clock

namespace WorkerBridge

/-- A move from outside. -/
inductive Move where
  | sleep (ms : Nat)
  | observe
  /-- The next launches of workers are refused. -/
  | failSpawns (count : Nat)
  | restart
  | cancel (id : JobId)
  | snapshot
  | shutdown
  /-- The handle from outside is given back. -/
  | drop
  /-- A job for the engine itself, with or without a caller that waits. -/
  | post (r : Request) (timeout : Option Nat) (isWaitedFor : Bool)
  /-- A job that is submitted at once; the errand goes on by itself. -/
  | submit (r : Request) (errand : Errand)
  /-- A call that goes on by itself from its first part on. -/
  | call (r : Request) (errand : Errand)
  /-- Jobs that nobody waits for. -/
  | inform (rs : List Request)
  /-- A look at the state of the worker. -/
  | look

/-- What is noted after a move. -/
structure Note where
  id : Option JobId
  events : List Event
  answers : List (Nat × Answer)
  requests : List Json
  state : Lifecycle
  spawns : Nat

namespace World

/-- A new caller, awake. -/
def addCaller (c : Caller) (w : World) : World :=
  wake (.caller w.callers.size) { w with callers := w.callers.push c }

/-- A call that keeps the engine alive and goes on by itself from its first part on. -/
def addCall (label : Nat) (wish : Wish) (w : World) : World :=
  addCaller { label, wish, stage := .unbegun, holdsHandle := true }
    { w with handles := w.handles + 1 }

/-- A caller that waits for a job that is submitted at once. -/
def addSubmitted (label : Nat) (r : Request) (errand : Errand) (w : World) : JobId × World :=
  let t := w.callers.size
  let keeps := errand.patience?.isSome
  let c : Caller :=
    { label, wish := .job r errand, stage := .submitted ⟨w.engine.nextId⟩, holdsHandle := keeps }
  let w := { w with callers := w.callers.push c, handles := w.handles + if keeps then 1 else 0 }
  let (id, w) := w.submitFor t r
  (id, w.wake (.caller t))

/-- A job for the engine itself. -/
def addPosted (label : Nat) (r : Request) (timeout : Option Nat) (isWaitedFor : Bool) (w : World) :
    JobId × World :=
  let (id, w) := w.issueId
  if isWaitedFor then
    let t := w.callers.size
    let c : Caller :=
      { label, wish := .job r .wait, stage := .submitted id, holdsHandle := false }
    (id, (w.addCaller c).command (.submit { id, request := r, timeout, waiter := some t }))
  else (id, w.command (.submit { id, request := r, timeout }))

/-- A question to the engine: through the facade by a call of its own, else by a command at
once. -/
def ask (label : Nat) (wish : Wish) (w : World) : World :=
  if w.hasFacade then w.addCall label wish
  else
    let t := w.callers.size
    let c : Caller := { label, wish, stage := .submitted JobId.probe, holdsHandle := false }
    ((w.addCaller c).beginCall t wish).2

/-- Submits a job that nobody waits for. -/
def inform (r : Request) (w : World) : World :=
  let (id, w) := w.issueId
  w.command (.submit { id, request := r })

/-- Makes a move that needs the handle from outside. -/
def moveWithHandle (label : Nat) (m : Move) (w : World) : Option JobId × World :=
  match m with
  | .restart => (none, w.command .restart)
  | .cancel id => (none, w.command (.cancel id))
  | .snapshot => (none, w.ask label .snapshot)
  | .shutdown => (none, w.ask label .shutdown)
  | .drop => (none, w.dropHandle)
  | .post r timeout isWaitedFor =>
    let (id, w) := w.addPosted label r timeout isWaitedFor
    (some id, w)
  | .submit r errand =>
    let (id, w) := w.addSubmitted label r errand
    (some id, w)
  | .call r errand => (none, w.addCall label (.job r errand))
  | .inform rs => (none, rs.foldl (fun w r => w.inform r) w)
  | .look => (none, { w with answers := (label, .state w.shown) :: w.answers })
  | .sleep _ | .observe | .failSpawns _ => (none, w)

/-- A caller whose question reaches nobody. -/
def addUnheard (label : Nat) (wish : Wish) (id : JobId) (w : World) : World :=
  w.addCaller
    { label, wish, stage := .submitted id, heard := some .silence, holdsHandle := false }

/-- Makes a move after the handle from outside was given back. The facade is gone then; without
one, jobs still get identities, and callers hear nothing. -/
def moveWithout (label : Nat) (m : Move) (w : World) : Option JobId × World :=
  if w.hasFacade then (none, w)
  else
    match m with
    | .post r _ isWaitedFor =>
      let (id, w) := w.issueId
      (some id, if isWaitedFor then w.addUnheard label (.job r .wait) id else w)
    | .snapshot => (none, w.addUnheard label .snapshot JobId.probe)
    | .shutdown => (none, w.addUnheard label .shutdown JobId.probe)
    | _ => (none, w)

/-- What was noted since the last note, and the world with nothing noted. -/
def takeNote (id : Option JobId) (w : World) : Note × World :=
  ({ id, events := w.events.reverse, answers := w.answers.reverse, requests := w.requests.reverse,
     state := w.shown, spawns := w.spawns },
    { w with events := [], answers := [], requests := [] })

end World

/-- A scene: the world, whether the handle from outside is still held, and how many moves were
made. -/
structure Scene where
  world : World
  isHeld : Bool := true
  moves : Nat := 0

namespace Scene

/-- Makes a move, and lets everything happen that can happen without time passing, unless the next
move is to follow at once. -/
def play (s : Scene) (m : Move) (settles : Bool) : Note × Scene :=
  let w := s.world
  let (id, w) : Option JobId × World :=
    match m with
    | .sleep ms => (none, w.passUntil (w.now + ms) World.turnFuel)
    | .observe => (none, w)
    | .failSpawns count => (none, { w with failingSpawns := count })
    | m => if s.isHeld then w.moveWithHandle s.moves m else w.moveWithout s.moves m
  let w := if settles then w.settle World.turnFuel else w
  let (note, world) := w.takeNote id
  let isHeld :=
    match m with
    | .drop => false
    | _ => s.isHeld
  (note, { world, isHeld, moves := s.moves + 1 })

/-- Plays moves in order. -/
def playAll (s : Scene) (ms : List (Move × Bool)) : List Note :=
  (ms.foldl (fun (s, notes) (m, settles) =>
    let (note, s) := Scene.play s m settles
    (s, note :: notes)) (s, [])).2.reverse

end Scene

end WorkerBridge
