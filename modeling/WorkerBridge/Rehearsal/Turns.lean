/-
  WorkerBridge.Rehearsal.Turns

  What each agent does in its turn. An agent goes on until it has to wait; whatever
  it waits for wakes it again.
-/
import WorkerBridge.Rehearsal.World

namespace WorkerBridge.World

/-- More steps than any turn takes. -/
def turnFuel : Nat := 1000000000

/-! ## The ends of a channel -/

/-- The turn of a writer. -/
def writerTurn (k : WorkerId) (w : World) : World :=
  let l := w.line k
  if l.sender.writer = .ended then w
  else if l.isReleased then
    let w := w.setLine k { l with sender := { writer := .ended } }
    (w.wakeSenders k).leaveEnd k
  else
    let (result, sender, inlet) := l.sender.run l.server.hasExited turnFuel l.inlet
    let w := w.setLine k { l with sender, inlet }
    let w := if sender.outbox.length < l.sender.outbox.length then w.wakeSenders k else w
    let w := if inlet.written > l.inlet.written then w.wake (.worker k) else w
    match result with
    | .waiting => w
    | .closed => ((w.wake (.worker k)).wakeSenders k).leaveEnd k
    | .failed e =>
      let l := w.line k
      let w := w.setLine k { l with events := l.events ++ [.closed (.unwritable e)] }
      ((w.wakeOwner k).wakeSenders k).leaveEnd k

/-- The turn of a reader. -/
def readerTurn (k : WorkerId) (w : World) : World :=
  let l := w.line k
  if l.receiver.ended then w
  else if l.isReleased then
    (w.setLine k { l with receiver := { l.receiver with ended := true } }).leaveEnd k
  else
    let (events, receiver) := l.receiver.run l.outlet l.server.hasExited
    let w := w.setLine k { l with receiver, outlet := [], events := l.events ++ events }
    let w := if l.outlet.isEmpty then w else w.wake (.worker k)
    let w := if events.isEmpty then w else w.wakeOwner k
    w.leaveEnd k

/-! ## The worker -/

/-- The reply of a worker to a request, and the world after that use of a rule. -/
def reply (k : WorkerId) (request : Json) (w : World) : Reply × World :=
  let l := w.line k
  match l.server.script with
  | some script =>
    let (reply, script) := script.reply request
    (reply, w.setLine k { l with server := { l.server with script := some script } })
  | none =>
    let (reply, script) := w.script.reply request
    (reply, { w with script })

/-- A worker takes the next request out of its input. -/
def serve (k : WorkerId) (request : Json) (w : World) : World :=
  let w :=
    if (w.line k).server.isNoted then { w with requests := request :: w.requests } else w
  let (reply, w) := w.reply k request
  let l := w.line k
  w.setLine k { l with server := { l.server with acts := reply.acts request } }

/-- The turn of a worker. -/
def workerTurn (k : WorkerId) : (fuel : Nat) → World → World
  | 0, w => w
  | fuel + 1, w =>
    let l := w.line k
    let s := l.server
    if s.hasExited then w
    else
      match s.acts with
      | .crash :: _ => w.exit k
      | .sleep ms :: rest =>
        let due := s.wakeAt.getD (w.now + ms)
        if due ≤ w.now then
          workerTurn k fuel
            (w.setLine k { l with server := { s with acts := rest, wakeAt := none } })
        else w.setLine k { l with server := { s with wakeAt := some due } }
      | .write bytes :: rest =>
        if bytes.isEmpty then
          workerTurn k fuel (w.setLine k { l with server := { s with acts := rest } })
        else if l.isGone then w.exit k
        else if l.room = 0 then w
        else
          let now := bytes.take l.room
          let later := bytes.drop l.room
          let w := w.setLine k
            { l with
              outlet := l.outlet ++ now
              server := { s with acts := .write later :: rest } }
          workerTurn k fuel (w.wake (.reader k))
      | [] =>
        let (intake, inlet) := l.inlet.read turnFuel
        let w := w.setLine k { l with inlet }
        let w :=
          match l.sender.writer with
          | .writing .. => if inlet.taken > l.inlet.taken then w.wake (.writer k) else w
          | _ => w
        match intake with
        | .waiting => w
        | .finished => w.exit k
        | .message request => workerTurn k fuel (w.serve k request)

/-! ## Stopping -/

/-- Goes on with a stop as far as possible. -/
def stopOn (n : Nat) : (fuel : Nat) → World → World
  | 0, w => w
  | fuel + 1, w =>
    match w.stops[n]? with
    | none => w
    | some t =>
      let l := w.line t.worker
      let hasEnded := l.sender.writer = .ended
      if t.isDone then w
      else
        match t.toSend with
        | m :: rest =>
          if hasEnded then stopOn n fuel (w.setStop n { t with toSend := rest })
          else if l.sender.hasRoom then
            stopOn n fuel ((w.setStop n { t with toSend := rest }).post t.worker m)
          else w
        | [] =>
          let deadline := t.deadline.getD (w.now + t.grace)
          let isOver := if l.server.isProcess then l.server.hasExited else hasEnded
          if isOver || deadline ≤ w.now then
            ((w.setStop n { t with isDone := true }).kill t.worker).release t.worker
          else w.setStop n { t with deadline := some deadline }

/-- Begins a stop, to go on in turns of its own or in the engine's. -/
def beginStop (t : StopTask) (w : World) : World :=
  { w with stops := w.stops.push t }

/-! ## Starting -/

/-- A worker comes into being, or does not. -/
def spawn (w : World) : Except SpawnFault Server × World :=
  let w := { w with spawns := w.spawns + 1 }
  match w.launcher with
  | .each result => (result, w)
  | .shared =>
    if w.failingSpawns > 0 then
      (.error .refused, { w with failingSpawns := w.failingSpawns - 1 })
    else (.ok {}, w)

/-- Opens the channel to a new worker and sends the readiness probe. -/
def openLine (server : Server) (w : World) : WorkerId × World :=
  let k := w.lines.size
  let w := { w with lines := w.lines.push { server } }
  let w := ((w.wake (.worker k)).wake (.writer k)).wake (.reader k)
  (k, w.post k (.message (Request.version.message JobId.probe)))

/-- Ends an attempt: its channel is closed at once. -/
def closeAttempt (k : WorkerId) (w : World) : World :=
  let w := if (w.line k).sender.writer = .ended then w else w.post k .close
  (w.kill k).release k

/-- The turn of a start. -/
def startTurn (s : StartId) : (fuel : Nat) → World → World
  | 0, w => w
  | fuel + 1, w =>
    match w.starts[s]? with
    | none => w
    | some t =>
      if t.result.isSome then w
      else if t.isCancelled then
        let w := w.setStart s { t with startup := { t.startup with phase := .spawning } }
        match t.startup.worker? with
        | some k => (w.kill k).release k
        | none => w
      else
        match t.startup.phase with
        | .done result => (w.setStart s { t with result := some result }).wake .engine
        | .spawning =>
          let (launch, w) := w.spawn
          match launch with
          | .error fault =>
            startTurn s fuel
              (w.setStart s { t with startup := t.startup.onSpawn w.now (.error fault) })
          | .ok server =>
            let (k, w) := w.openLine server
            startTurn s fuel (w.setStart s { t with startup := t.startup.onSpawn w.now (.ok k) })
        | .probing k deadline =>
          let l := w.line k
          let (next, w) : Option Startup × World :=
            match l.events with
            | e :: rest => (some (t.startup.onEvent e), w.setLine k { l with events := rest })
            | [] => (if deadline ≤ w.now then some t.startup.onTimeUp else none, w)
          match next with
          | none => w
          | some startup =>
            let w := w.setStart s { t with startup }
            let w :=
              match startup.phase with
              | .spawning | .done (.error _) => w.closeAttempt k
              | _ => w
            startTurn s fuel w

/-- Gives up a start. A worker that it has already brought up is let go at once. -/
def abortStart (s : StartId) (w : World) : World :=
  match w.starts[s]? with
  | none => w
  | some t =>
    match t.result with
    | some (.ok started) => (w.kill started.worker).release started.worker
    | some (.error _) => w
    | none => (w.setStart s { t with isCancelled := true }).wake (.start s)

/-! ## The engine -/

/-- Lets the engine answer an input. -/
def react (input : Input) (w : World) : World :=
  let turn := w.engine.step w.now input
  { w with engine := turn.state, todo := turn.effects }

/-- Carries out an effect. `none` means that the engine has to wait for room. -/
def perform (e : Effect) (w : World) : Option World :=
  match e with
  | .emit event => some (w.emit event)
  | .display s => some { w with shown := s }
  | .tell t outcome => some (w.hear t (.outcome outcome))
  | .exhibit t s => some (w.hear t (.snapshot s))
  | .dismiss t => some (w.hear t .dismissed)
  | .send k id request =>
    let sender := (w.line k).sender
    if sender.writer = .ended then some (w.react (.closed k .writerGone))
    else if sender.hasRoom then some (w.post k (.message (request.message id)))
    else none
  | .abandon k =>
    some ((w.beginStop { worker := k, toSend := [.close], grace := 0 }).wake (.stop w.stops.size))
  | .retire k id =>
    let toSend := [.message (Request.shutdown.message id), .close]
    some ((w.beginStop { worker := k, toSend, grace := w.timeouts.shutdownMs }).wake
      (.stop w.stops.size))
  | .retireAndWait k id =>
    let toSend := [.message (Request.shutdown.message id), .close]
    let w' := w.beginStop { worker := k, toSend, grace := w.timeouts.shutdownMs }
    some { w' with awaited := some w.stops.size }
  | .start s =>
    some (wake (.start s)
      { w with starts := w.starts.push { startup := Startup.ofTimeouts w.timeouts } })
  | .abortStart s => some (w.abortStart s)

/-- Whether a time has come. -/
def isDue (w : World) : Option Nat → Bool
  | some t => t ≤ w.now
  | none => false

/-- What the engine reacts to next: commands, the loss of all handles, the worker's events, a job
whose time is up, the restart timer, and the end of a start, in this order. -/
def nextInput? (w : World) : Option (Input × World) :=
  match w.inbox with
  | c :: rest => some (.command c, { w with inbox := rest })
  | [] =>
    if w.handles = 0 then some (.command (.shutdown none), w)
    else
      let event := w.engine.worker.bind fun k =>
        match (w.line k).events with
        | [] => none
        | e :: rest =>
          let w := w.setLine k { w.line k with events := rest }
          match e with
          | .frame incoming => some (Input.frame k incoming, w)
          | .closed reason => some (Input.closed k reason, w)
      let finished := w.engine.startup.bind fun s =>
        ((w.starts[s]?).bind (·.result)).map fun result => (Input.started s result, w)
      event <|>
      (if w.isDue w.engine.flights.nextDeadline? then some (.deadline, w) else none) <|>
      (if w.isDue w.engine.restartAt then some (.restartDue, w) else none) <|>
      finished

/-- The end of the engine. Commands that wait are lost. -/
def endEngine (w : World) : World :=
  w.inbox.foldl (fun w c => w.lose c) { w with hasEnded := true, inbox := [] }

/-- The turn of the engine, once it is under way. -/
def engineOn : (fuel : Nat) → World → World
  | 0, w => w
  | fuel + 1, w =>
    match w.awaited with
    | some n =>
      let w := w.stopOn n turnFuel
      if ((w.stops[n]?).map (·.isDone)).getD true then engineOn fuel { w with awaited := none }
      else w
    | none =>
      match w.todo with
      | e :: rest =>
        match perform e { w with todo := rest } with
        | some w => engineOn fuel w
        | none => w
      | [] =>
        if w.engine.hasEnded then w.endEngine
        else
          match w.nextInput? with
          | some (input, w) => engineOn fuel (w.react input)
          | none => w

/-- The turn of the engine. -/
def engineTurn (w : World) : World :=
  if w.hasEnded then w
  else if w.isBooted then engineOn turnFuel w
  else
    let turn := w.engine.boot
    engineOn turnFuel { w with isBooted := true, engine := turn.state, todo := turn.effects }

/-! ## Callers -/

/-- Submits the job of a caller, or refuses it. -/
def submitFor (t : Ticket) (r : Request) (w : World) : JobId × World :=
  let (id, w) := w.issueId
  match Job.submitted w.timeouts id r t with
  | .ok job => (id, w.command (.submit job))
  | .error f => (id, w.hear t (.outcome (.error f)))

/-- The first part of a call. -/
def beginCall (t : Ticket) (wish : Wish) (w : World) : JobId × World :=
  match wish with
  | .job r _ => w.submitFor t r
  | .snapshot => (JobId.probe, w.command (.snapshot t))
  | .shutdown => (JobId.probe, w.command (.shutdown (some t)))

/-- What a caller makes of what it hears. -/
def answerOf (w : World) (wish : Wish) (h : Heard) : List Event × Answer :=
  match h with
  | .snapshot s => ([], .snapshot s)
  | .dismissed => ([], .stopped)
  | .outcome o =>
    match wish with
    | .job _ errand => errand.conclude o
    | _ => ([], .outcome o)
  | .silence =>
    if w.hasFacade then
      match wish with
      | .job _ errand => errand.conclude (.error .shutDown)
      | .snapshot => ([], .snapshot {})
      | .shutdown => ([], .stopped)
    else ([], .dropped)

/-- A call is over. -/
def endCall (t : Ticket) (c : Caller) (result : List Event × Answer) (w : World) : World :=
  let w := (w.emitAll result.1).setCaller t { c with stage := .done }
  let w := { w with answers := (c.label, result.2) :: w.answers }
  if c.holdsHandle then w.dropHandle else w

/-- The turn of a caller. -/
def callerTurn (t : Ticket) : (fuel : Nat) → World → World
  | 0, w => w
  | fuel + 1, w =>
    match w.callers[t]? with
    | none => w
    | some c =>
      match c.stage with
      | .done => w
      | .unbegun =>
        let (id, w) := w.beginCall t c.wish
        match w.callers[t]? with
        | none => w
        | some c => callerTurn t fuel (w.setCaller t { c with stage := .submitted id })
      | .submitted id =>
        let (opening, patience) : List Event × Option Nat :=
          match c.wish with
          | .job _ errand => (errand.opening, errand.patience?)
          | _ => ([], none)
        callerTurn t fuel ((w.emitAll opening).setCaller t
          { c with stage := .waiting id (patience.map (w.now + ·)) })
      | .waiting id giveUpAt =>
        match c.heard with
        | some h => w.endCall t c (w.answerOf c.wish h)
        | none =>
          if w.isDue giveUpAt then
            match c.wish with
            | .job _ errand => w.endCall t c (errand.giveUp id)
            | _ => w
          else w

/-! ## All agents -/

/-- The turn of an agent. -/
def turn (a : Agent) (w : World) : World :=
  match a with
  | .engine => w.engineTurn
  | .start s => w.startTurn s turnFuel
  | .writer k => w.writerTurn k
  | .reader k => w.readerTurn k
  | .worker k => w.workerTurn k turnFuel
  | .stop n => w.stopOn n turnFuel
  | .caller t => w.callerTurn t turnFuel

end WorkerBridge.World
