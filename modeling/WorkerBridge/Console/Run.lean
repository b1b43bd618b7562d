/-
  WorkerBridge.Console.Run

  Running a command: the worker is set up, the files are opened as documents, the
  command is carried out, and the worker is shut down.
-/
import WorkerBridge.Console.Arguments
import WorkerBridge.Rehearsal.Session

namespace WorkerBridge.Console

/-! ## Reports -/

/-- What a run comes to: the exit code, what is printed, the command lines of the workers, and the
requests that they received. -/
structure Report where
  code : Nat
  output : String := ""
  commandLines : List (List String) := []
  requests : List Json := []

/-- How commands end. -/
inductive Ending where
  | done
  | failed
  /-- The program breaks off, and the worker is lost. -/
  | broken
deriving DecidableEq, Repr

/-- The exit code of an ending. -/
def Ending.code : Ending → Nat
  | .done => 0
  | .failed => 1
  | .broken => 101

/-- The exit code when the command line or the configuration cannot be used. -/
def misuseCode : Nat := 2

/-- The name and version of this program. -/
def programVersion : String := "flix-bridge 0.1.0"

/-! ## Documents -/

/-- How the URIs of the opened documents are shown. -/
abbrev Locations := TextMap String

/-- Opens every file as a document. An unreadable one ends the command. -/
def openDocuments (site : Site) :
    List String → Session → Locations → Option Locations × Session
  | [], s, shown => (some shown, s)
  | path :: rest, s, shown =>
    match (site.content path).text?, site.resolve? path with
    | some text, some target =>
      let uri := Site.uri target
      let s := (s.inform (.addUri uri text)).inform (.check (some uri))
      openDocuments site rest s (TextMap.insert uri path shown)
    | _, _ => (none, s)

/-! ## Output -/

/-- What is printed for a result: nothing for `null`, a text as it is, and else indented JSON. -/
def resultText : Json → String
  | .null => ""
  | .str s => s ++ "\n"
  | v => v.indented ++ "\n"

/-- The lines for diagnostics, and whether all of them could be printed. -/
def diagnosticLines (location : String) : List Diagnostic → String × Bool
  | [] => ("", true)
  | d :: rest =>
    match d.show? location with
    | none => ("", false)
    | some line =>
      let (lines, isComplete) := diagnosticLines location rest
      (line ++ "\n" ++ lines, isComplete)

/-- The lines for all documents, and whether all of them could be printed. -/
def snapshotLines (shown : Locations) : List (String × List Diagnostic) → String × Bool
  | [] => ("", true)
  | (uri, items) :: rest =>
    match diagnosticLines ((TextMap.find? uri shown).getD uri) items with
    | (lines, false) => (lines, false)
    | (lines, true) =>
      let (more, isComplete) := snapshotLines shown rest
      (lines ++ more, isComplete)

/-! ## Carrying out -/

/-- Checks all documents and prints what was found. -/
def checkAll (shown : Locations) (s : Session) : (Ending × String) × Session :=
  match s.request (.check none) with
  | (.error _, s) => ((.failed, ""), s)
  | (.ok _, s) =>
    match s.call .snapshot with
    | (some (.snapshot snapshot), s) =>
      match snapshotLines shown snapshot.files with
      | (lines, false) => ((.broken, lines), s)
      | (lines, true) => ((if snapshot.count .error > 0 then .failed else .done, lines), s)
    | (_, s) => ((.done, ""), s)

/-- Runs something and prints its result. -/
def runAndPrint (title : String) (r : Request) (t : Timeouts) (s : Session) :
    (Ending × String) × Session :=
  match s.call (.job r (.run title t.progressMs)) with
  | (some (.outcome (.ok v)), s) => ((.done, resultText v), s)
  | (_, s) => ((.failed, ""), s)

/-- Asks for the version and prints it. -/
def printVersion (s : Session) : (Ending × String) × Session :=
  match s.call (.job .version .version) with
  | (some (.version (some v)), s) => ((.done, v.text ++ "\n"), s)
  | (_, s) => ((.failed, ""), s)

/-- Carries out a task on the opened documents. -/
def carryOut (task : Task) (shown : Locations) (t : Timeouts) (s : Session) :
    (Ending × String) × Session :=
  match task with
  | .version => printVersion s
  | .check _ => checkAll shown s
  | .run entryPoint arguments _ => runAndPrint "Running main" (.runMainOf entryPoint arguments) t s
  | .test filters _ => runAndPrint "Running tests" (.runTestsOf filters) t s
  | .bench _ => runAndPrint "Running benchmarks" .runBenchmarks t s

/-- Runs a task from the start of the worker to its end. -/
def runTask (site : Site) (settings : Settings) (script : Script) (portArgument : Option Nat)
    (task : Task) : Report :=
  let session := Session.begin site settings script portArgument
  let (shown?, session) := openDocuments site task.files session []
  let ((ending, output), session) :=
    match shown? with
    | some shown => carryOut task shown settings.timeouts session
    | none => ((.failed, ""), session)
  let world := if ending = .broken then session.world else session.finish
  { code := ending.code, output
    commandLines := Session.commandLines site world settings.worker
    requests := world.requests.reverse }

/-- Runs the program with a command line and the configuration that was found. -/
def run (site : Site) (script : Script) (portArgument : Option Nat)
    (configuration : Except ConfigurationFault (Option Configuration)) (words : List String) :
    Report :=
  match parse? words with
  | none => { code := misuseCode }
  | some .help => { code := 0 }
  | some .programVersion => { code := 0, output := programVersion ++ "\n" }
  | some (.task task) =>
    match configuration with
    | .error _ => { code := misuseCode }
    | .ok c => runTask site (c.getD {}).bridge script portArgument task

end WorkerBridge.Console
