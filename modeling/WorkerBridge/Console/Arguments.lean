/-
  WorkerBridge.Console.Arguments

  The command line: a command, its options and the files it works on. Options stand
  anywhere after the command, up to a double dash.
-/

namespace WorkerBridge

/-! ## Commands -/

/-- What the user wants done. -/
inductive Console.Task where
  | version
  | check (files : List String)
  | run (entryPoint arguments : Option String) (files : List String)
  | test (filters files : List String)
  | bench (files : List String)
deriving DecidableEq, Repr

/-- What a command line asks for. -/
inductive Console.Wanted where
  | task (t : Console.Task)
  /-- The version of this program. -/
  | programVersion
  /-- An overview of the commands. -/
  | help
deriving DecidableEq, Repr

/-- The files that are opened first. -/
def Console.Task.files : Console.Task → List String
  | .version => []
  | .check files | .run _ _ files | .test _ files | .bench files => files

namespace Console

/-! ## Options -/

/-- An option with a value. -/
structure Switch where
  name : String
  /-- Whether its value may look like an option. -/
  takesAnything : Bool := false
  /-- Whether it may be given several times. -/
  isRepeatable : Bool := false
deriving DecidableEq, Repr

/-- What was given after a command: values of options and files, each in order. -/
structure Given where
  values : List (String × String) := []
  files : List String := []
deriving DecidableEq, Repr

namespace Given

/-- Adds the value of an option. Most options are given once. -/
def addValue (g : Given) (o : Switch) (value : String) : Option Given :=
  if !o.isRepeatable && g.values.any (·.1 = o.name) then none
  else some { g with values := g.values ++ [(o.name, value)] }

/-- Adds a file. A file has a name. -/
def addFile (g : Given) (file : String) : Option Given :=
  if file = "" then none else some { g with files := g.files ++ [file] }

/-- The values of an option. -/
def all (g : Given) (name : String) : List String :=
  (g.values.filter (·.1 = name)).map (·.2)

/-- The value of an option that is given at most once. -/
def one? (g : Given) (name : String) : Option String :=
  (g.all name).head?

end Given

/-- What the scan of a command line comes to. -/
inductive Scan where
  | given (g : Given)
  | help
  | misused
deriving DecidableEq, Repr

/-- A word that starts with a dash and is more than that. -/
def looksLikeOption (word : String) : Bool :=
  word.startsWith "-" && word ≠ "-"

/-- The name and the attached value of a long option. -/
def splitLong (word : String) : String × Option String :=
  match (word.toList.drop 2).span (· ≠ '=') with
  | (name, _ :: value) => (String.ofList name, some (String.ofList value))
  | (name, []) => (String.ofList name, none)

/-- Goes through the words after a command. `pending` is the option that waits for its value. -/
def scan (options : List Switch) : (pending : Option Switch) → Given → List String → Scan
  | some _, _, [] => .misused
  | none, g, [] => .given g
  | pending, g, word :: rest =>
    let value (o : Switch) : Scan :=
      match g.addValue o word with
      | some g => scan options none g rest
      | none => .misused
    match pending with
    | some o => if o.takesAnything || !looksLikeOption word then value o else .misused
    | none =>
      if word = "--" then
        match rest.foldlM (fun (g : Given) file => g.addFile file) g with
        | some g => .given g
        | none => .misused
      else if word.startsWith "--" then
        let (name, attached) := splitLong word
        match options.find? (·.name = name), attached with
        | some o, some value =>
          match g.addValue o value with
          | some g => scan options none g rest
          | none => .misused
        | some o, none => scan options (some o) g rest
        | none, attached => if name = "help" && attached.isNone then .help else .misused
      else if looksLikeOption word then if word.startsWith "-h" then .help else .misused
      else
        match g.addFile word with
        | some g => scan options none g rest
        | none => .misused

/-! ## Command lines -/

/-- Reads what follows a command. -/
def taskOf (options : List Switch) (make : Given → Option Task) (words : List String) :
    Option Wanted :=
  match scan options none {} words with
  | .given g => (make g).map .task
  | .help => some .help
  | .misused => none

/-- The names of the commands. -/
def commandNames : List String :=
  ["version", "check", "run", "test", "bench", "help"]

/-- Reads what follows the command for help: nothing, or the name of one command. -/
def helpOn? : List String → Option Wanted
  | [] => some .help
  | [name] => if commandNames.contains name then some .help else none
  | _ => none

/-- Reads a command line. `none` means that it is misused. -/
def parse? : List String → Option Wanted
  | [] => none
  | word :: rest =>
    match word with
    | "version" => taskOf [] (fun g => if g.files.isEmpty then some .version else none) rest
    | "check" => taskOf [] (fun g => if g.files.isEmpty then none else some (.check g.files)) rest
    | "run" =>
      taskOf [{ name := "entrypoint" }, { name := "args", takesAnything := true }]
        (fun g => some (.run (g.one? "entrypoint") (g.one? "args") g.files)) rest
    | "test" =>
      taskOf [{ name := "filter", isRepeatable := true }]
        (fun g => some (.test (g.all "filter") g.files)) rest
    | "bench" => taskOf [] (fun g => some (.bench g.files)) rest
    | "help" => helpOn? rest
    | "--help" => some .help
    | "--version" => some .programVersion
    | _ =>
      if word.startsWith "--" then none
      else if word.startsWith "-V" then some .programVersion
      else if word.startsWith "-h" then some .help
      else none

end Console

end WorkerBridge
