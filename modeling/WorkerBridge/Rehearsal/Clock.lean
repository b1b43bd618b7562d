/-
  WorkerBridge.Rehearsal.Clock

  The passing of time. The clock moves only when every agent waits, and then to
  the next time that one of them waits for.
-/
import WorkerBridge.Rehearsal.Turns

namespace WorkerBridge.World

/-- Lets agents take turns until all of them wait. -/
def settle : (fuel : Nat) → World → World
  | 0, w => w
  | fuel + 1, w =>
    match w.ready with
    | [] => w
    | a :: rest => settle fuel (turn a { w with ready := rest })

/-- The times for which the engine waits. It waits for none while a turn is unfinished. -/
def engineTimers (w : World) : List Nat :=
  if w.hasEnded || w.awaited.isSome || !w.todo.isEmpty then []
  else w.engine.flights.nextDeadline?.toList ++ w.engine.restartAt.toList

/-- The agents that wait for a time, and the time. -/
def timers (w : World) : List (Nat × Agent) :=
  let engine := w.engineTimers.map (·, Agent.engine)
  let starts := w.starts.toList.zipIdx.filterMap fun (t, s) =>
    if t.result.isSome || t.isCancelled then none
    else t.startup.deadline?.map (·, Agent.start s)
  let stops := w.stops.toList.zipIdx.filterMap fun (t, n) =>
    if t.isDone then none else t.deadline.map (·, w.stopAgent n)
  let workers := w.lines.toList.zipIdx.filterMap fun (l, k) =>
    if l.server.hasExited then none else l.server.wakeAt.map (·, Agent.worker k)
  let callers := w.callers.toList.zipIdx.filterMap fun (c, t) =>
    match c.stage with
    | .waiting _ giveUpAt => giveUpAt.map (·, Agent.caller t)
    | _ => none
  engine ++ starts ++ stops ++ workers ++ callers

/-- Moves the clock, and wakes all whose time has come. -/
def moveTo (now : Nat) (w : World) : World :=
  let due := w.timers.filter (·.1 ≤ now)
  due.foldl (fun w (_, a) => w.wake a) { w with now }

/-- Lets time pass up to the given time. -/
def passUntil (target : Nat) : (fuel : Nat) → World → World
  | 0, w => w
  | fuel + 1, w =>
    let w := w.settle turnFuel
    match ((w.timers.map (·.1)).filter (· ≤ target)).min? with
    | some t => passUntil target fuel (w.moveTo t)
    | none => { w with now := target }

/-- Lets time pass until the condition holds when all wait, or nobody waits for a time any more. -/
def passWhile (goesOn : World → Bool) : (fuel : Nat) → World → World
  | 0, w => w
  | fuel + 1, w =>
    let w := w.settle turnFuel
    if goesOn w then
      match (w.timers.map (·.1)).min? with
      | some t => passWhile goesOn fuel (w.moveTo t)
      | none => w
    else w

end WorkerBridge.World
