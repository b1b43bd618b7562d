/-
  WorkerBridge.Rehearsal.Program

  Launching a worker by its settings: how its command line is put together, and
  what a launch comes to on a site where few programs exist.
-/
import WorkerBridge.Rehearsal.Clock
import WorkerBridge.Rehearsal.Shell
import WorkerBridge.Site

namespace WorkerBridge

/-- What follows the program on the command line of a worker: arguments of the runtime, the archive,
arguments of the server, the port if there is one, and further arguments. -/
def WorkerSettings.arguments (s : WorkerSettings) (port : Option String) : List String :=
  s.jvmArgs ++ (s.jar.map fun jar => ["-jar", jar]).getD [] ++ s.serverArgs ++ port.toList ++
    s.extraArgs

namespace Program

/-- What stands for a port on a command line. -/
def portMark : String := "PORT"

/-- The command line of a worker, after its program. -/
def commandLine (s : WorkerSettings) : List String :=
  s.arguments (if s.channel = .tcp then some portMark else none)

/-- What the shell does: it runs a text of commands or a file of them, or reads them from its input,
where a worker finds none. -/
def shellRun (site : Site) : List String → Shell.Run
  | [] => { reads := true }
  | ["-c"] => { status := 2 }
  | "-c" :: script :: _ => Shell.runText script
  | file :: _ =>
    match (site.content file).text? with
    | some script => Shell.runText script
    | none => { status := 2 }

/-- What a program does that is no scripted worker. `none` when there is no such program. -/
def runOf? (site : Site) (s : WorkerSettings) : Option Shell.Run :=
  if s.program = "sh" ∨ s.program = "/bin/sh" then some (shellRun site (commandLine s))
  else if s.program = "true" ∨ s.program = "/bin/true" then some {}
  else none

/-- How long a process takes to come up, in milliseconds. -/
def latency : Nat := 1

/-- The worker that runs a program. -/
def serverOf (r : Shell.Run) : Server :=
  let script : Script := [{ reply := if r.copies then .copy else .silent }]
  { acts := .sleep latency :: r.acts ++ (if r.reads then [] else [.crash])
    script := some script, isNoted := false, isProcess := true }

/-- How long a program runs without any input, in milliseconds. -/
def duration (r : Shell.Run) : Nat :=
  (r.acts.map fun a =>
    match a with
    | .sleep ms => ms
    | _ => 0).foldl (· + ·) 0

/-- What a launch comes to. A worker with a port has to listen on it before the time for the start
is up; `portArgument` is where a scripted worker finds the port on its command line. -/
def launch (site : Site) (s : Settings) (script : Script) (portArgument : Option Nat) :
    Except SpawnFault Server :=
  let run? := runOf? site s.worker
  let isScripted := site.worker = some s.worker.program
  if !isScripted && run?.isNone then .error (.programNotFound s.worker.program)
  else if s.worker.jar.any (!site.isFile ·) then .error (.jarMissing (s.worker.jar.getD ""))
  else
    let scripted : Server := { script := some script, isProcess := true }
    let run := run?.getD {}
    match s.worker.channel with
    | .stdio => .ok (if isScripted then scripted else serverOf run)
    | .tcp =>
      let listens := isScripted &&
        (portArgument.bind fun i => (commandLine s.worker)[i]?) = some portMark
      if s.timeouts.startup = 0 then .error .unreachable
      else if listens then .ok scripted
      else if duration run < s.timeouts.startupMs then .error (.exitedEarly run.status)
      else .error .unreachable

end Program

end WorkerBridge
