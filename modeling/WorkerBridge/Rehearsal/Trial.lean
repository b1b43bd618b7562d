/-
  WorkerBridge.Rehearsal.Trial

  The start of one worker by itself, and its stop, if it is to be stopped again.
-/
import WorkerBridge.Rehearsal.Clock

namespace WorkerBridge

/-- How a start went. -/
structure Trial where
  result : Except StartFault Started
  /-- The time until the start was over, in milliseconds. -/
  elapsed : Nat
  requests : List Json
  spawns : Nat

namespace World

/-- The end of the start that a trial is about. -/
def trialResult? (w : World) : Option (Except StartFault Started) :=
  (w.starts[0]?).bind (·.result)

/-- The world in which a trial begins: there is one start, and no engine. -/
def forTrial (w : World) : World :=
  { w with
    ready := [.start 0]
    hasEnded := true
    starts := #[{ startup := Startup.ofTimeouts w.timeouts }] }

/-- The world when the start that a trial is about is over. -/
def tried (w : World) : World :=
  w.forTrial.passWhile (·.trialResult?.isNone) turnFuel

/-- Stops a worker, and waits until that is done. -/
def stopAndWait (k : WorkerId) (id : JobId) (grace : Nat) (w : World) : World :=
  let n := w.stops.size
  let w := w.beginStop { worker := k, toSend := [.message (Request.shutdown.message id), .close], grace }
  let isOn (w : World) : Bool := ((w.stops[n]?).map (!·.isDone)).getD false
  ((w.wake (.stop n)).passWhile isOn turnFuel).settle turnFuel

end World

/-- Starts one worker in a world without an engine. With `stop`, a started worker is stopped under
the given identity, within the given time. -/
def Trial.run (w : World) (stop : Option (JobId × Nat)) : Trial :=
  let w := w.tried
  let result := w.trialResult?.getD (.error (.silent w.timeouts.startup.toNat))
  let after :=
    match result, stop with
    | .ok started, some (id, grace) => w.stopAndWait started.worker id grace
    | _, _ => w
  { result, elapsed := w.now, requests := after.requests.reverse, spawns := w.spawns }

end WorkerBridge
