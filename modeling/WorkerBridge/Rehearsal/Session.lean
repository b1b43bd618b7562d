/-
  WorkerBridge.Rehearsal.Session

  A session on a site: the bridge is set up with workers that are processes, is
  used by one caller, who waits for each answer before going on, and is shut down.
-/
import WorkerBridge.Rehearsal.Program
import WorkerBridge.Rehearsal.Scene

namespace WorkerBridge

namespace World

/-- Lets agents take turns, and time pass when all of them wait, until the condition holds. -/
def runUntil (isOver : World → Bool) : (fuel : Nat) → World → World
  | 0, w => w
  | fuel + 1, w =>
    if isOver w then w
    else
      match w.ready with
      | a :: rest => runUntil isOver fuel (turn a { w with ready := rest })
      | [] =>
        match (w.timers.map (·.1)).min? with
        | some t => runUntil isOver fuel (w.moveTo t)
        | none => w

/-- Whether the worker is up, or will not be. -/
def isSettled (w : World) : Bool :=
  w.shown.isUp || w.shown = .unavailable

/-- The answer to the call of the given number. -/
def answer? (w : World) (label : Nat) : Option Answer :=
  (w.answers.find? (·.1 = label)).map (·.2)

end World

/-- A session: the world, and how many calls were made. -/
structure Session where
  world : World
  calls : Nat := 0

namespace Session

/-- A session whose workers are launched as the settings say. -/
def begin (site : Site) (s : Settings) (script : Script) (portArgument : Option Nat) : Session :=
  let launch := Program.launch site s script portArgument
  { world := { World.ofSettings s [] with launcher := .each launch } }

/-- Waits until the worker is up, or will not be. -/
def awaitWorker (s : Session) : Session :=
  { s with world := s.world.runUntil (·.isSettled) World.turnFuel }

/-- Submits a job that nobody waits for. -/
def inform (s : Session) (r : Request) : Session :=
  { s with world := s.world.inform r }

/-- Calls, and waits for the answer. `none` when it never comes. -/
def call (s : Session) (wish : Wish) : Option Answer × Session :=
  let label := s.calls
  let world := (s.world.addCall label wish).runUntil (·.answer? label |>.isSome) World.turnFuel
  (world.answer? label, { world, calls := label + 1 })

/-- Calls for a job, and waits for its outcome. -/
def request (s : Session) (r : Request) : Outcome × Session :=
  match s.call (.job r .wait) with
  | (some (.outcome o), s) => (o, s)
  | (_, s) => (.error .shutDown, s)

/-- Shuts the bridge down, and waits until everything has come to its end. -/
def finish (s : Session) : World :=
  (s.call .shutdown).2.world.settle World.turnFuel

/-- The command lines of the scripted workers that ran: one for every channel, and one for every
launch whose worker was gone before there was a channel. -/
def commandLines (site : Site) (w : World) (s : WorkerSettings) : List (List String) :=
  let runs :=
    match w.launcher with
    | .each (.error (.exitedEarly _)) => w.spawns
    | _ => w.lines.size
  if site.worker = some s.program then List.replicate runs (Program.commandLine s) else []

end Session

/-- What a session of some jobs comes to. -/
structure SessionReport where
  state : Lifecycle
  outcomes : List Outcome
  events : List Event
  commandLines : List (List String)
  requests : List Json

/-- Waits for the worker, has the jobs done one after the other, and shuts down. -/
def Session.play (site : Site) (s : Settings) (script : Script) (portArgument : Option Nat)
    (jobs : List Request) : SessionReport :=
  let session := (Session.begin site s script portArgument).awaitWorker
  let state := session.world.shown
  let (session, outcomes) := jobs.foldl (fun (session, outcomes) r =>
    let (outcome, session) := Session.request session r
    (session, outcome :: outcomes)) (session, [])
  let world := session.finish
  { state, outcomes := outcomes.reverse, events := world.events.reverse
    commandLines := Session.commandLines site world s.worker
    requests := world.requests.reverse }

end WorkerBridge
