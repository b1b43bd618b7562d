/-
  WorkerBridge.Main

  The program. It reads the configuration and the files, runs the command, prints
  what it comes to, and exits with its code. No process is started: the configured
  worker is rehearsed, and answers as a healthy worker with an empty project would.
-/
import WorkerBridge.Console.Run

section

open WorkerBridge

/-- What stands at a path of the file system. -/
def readContent (path : String) : IO FileContent := do
  try
    return .bytes (← IO.FS.readBinFile path)
  catch _ =>
    return .absent

/-- The values of the given variables. -/
def readVariables (names : List String) : IO (TextMap String) :=
  names.foldlM (fun vars name => do
    match ← IO.getEnv name with
    | some value => return TextMap.insert name value vars
    | none => return vars) []

/-- The configuration in its file. -/
def readConfiguration : IO (Except ConfigurationFault (Option Configuration)) := do
  let places ← readVariables [Configuration.pathVariable, "HOME"]
  let env : Environment := fun name => TextMap.find? name places
  match Configuration.location? env (env "HOME") with
  | none => return .ok none
  | some path =>
    let content ← readContent path
    let vars ← readVariables (Configuration.variablesOf (content.text?.getD ""))
    return Configuration.load (fun name => TextMap.find? name vars) path content

/-- The files that a command line names, in the working directory. -/
def readSite (paths : List String) : IO Site := do
  let home := Site.parts (← IO.currentDir).toString
  let files ← paths.filterMapM fun path => do
    let start := if path.startsWith "/" then [] else home
    match ← readContent path with
    | .bytes bs => return some (start ++ (Site.parts path).filter (· ≠ "."), bs)
    | _ => return none
  return { home, files }

/-- Runs the program. -/
def main (words : List String) : IO UInt32 := do
  let configuration ← readConfiguration
  let paths :=
    match Console.parse? words with
    | some (.task task) => task.files
    | _ => []
  let site ← readSite paths
  let program :=
    match configuration with
    | .ok (some c) => c.bridge.worker.program
    | _ => ({} : WorkerSettings).program
  let report := Console.run { site with worker := some program } [] none configuration words
  match configuration with
  | .error fault => IO.eprintln ("Error: " ++ fault.message)
  | .ok _ => pure ()
  IO.print report.output
  return report.code.toUInt32

end
