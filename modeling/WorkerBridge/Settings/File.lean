/-
  WorkerBridge.Settings.File

  The configuration file: where it is looked for, how it is read, and what can be
  wrong with it. Every entry has a default, and entries that are not known are
  ignored.
-/
import WorkerBridge.Settings.Expansion
import WorkerBridge.Toml.Parser

namespace WorkerBridge

open Json (Decoder)
open Json.Shape (Dialect lastField defaulted option)

/-! ## Configurations -/

/-- What a configuration file holds. -/
structure Configuration where
  bridge : Settings := {}
  logLevel : Option String := none
deriving DecidableEq, Repr

namespace Configuration

/-- The dialect of TOML: a name that is written as a key stands over an empty table or array. -/
def dialect : Dialect where
  isEmpty
    | .obj [] | .arr [] => true
    | _ => false
  allowsRest := true

/-- Reads the level of logging. -/
def decodeLog : Decoder (Option String) := fun v => do
  let level := option Json.Shape.text
  let kvs ← dialect.entries [lastField "level" level] v
  defaulted kvs "level" level none

/-- Reads a configuration. -/
def decode : Decoder Configuration := fun v => do
  let bridge := Settings.decodeWith dialect
  let kvs ← dialect.entries [lastField "bridge" bridge, lastField "log" decodeLog] v
  let settings ← defaulted kvs "bridge" bridge {}
  let logLevel ← defaulted kvs "log" decodeLog none
  return { bridge := settings, logLevel }

/-- The configuration with every reference to a variable replaced. -/
def expand (env : Environment) (c : Configuration) : Configuration :=
  { c with bridge := { c.bridge with worker := c.bridge.worker.expand env } }

/-- Reads the text of a configuration file, and replaces no references. -/
def parse? (text : String) : Option Configuration :=
  (Toml.parse? text).bind fun v => (decode v).toOption

/-- Reads the text of a configuration file. -/
def ofText? (env : Environment) (text : String) : Option Configuration :=
  (parse? text).map (·.expand env)

/-- The variables to which the text of a configuration file refers. -/
def variablesOf (text : String) : List String :=
  match parse? text with
  | some c => c.bridge.worker.texts.flatMap fun s => Expansion.names s.toList
  | none => []

end Configuration

/-! ## Files -/

/-- What stands at a path. -/
inductive FileContent where
  | absent
  | directory
  | bytes (bs : ByteArray)

/-- The text of a file. Only a file in UTF-8 has one. -/
def FileContent.text? : FileContent → Option String
  | .bytes bs => String.fromUTF8? bs
  | _ => none

/-- What is wrong with the configuration file at a path. -/
inductive ConfigurationFault where
  | unreadable (path : String)
  | malformed (path : String)
deriving DecidableEq, Repr

/-- The fault in words. -/
def ConfigurationFault.message : ConfigurationFault → String
  | .unreadable path => "failed to read config at " ++ path
  | .malformed path => "failed to parse config at " ++ path

namespace Configuration

/-- The variable that names the configuration file. -/
def pathVariable : String := "FLIX_BRIDGE_CONFIG"

/-- Where the configuration file is looked for: where the variable says, or else in the home
directory. -/
def location? (env : Environment) (home : Option String) : Option String :=
  ((env pathVariable).filter (· ≠ "")) <|> home.map (· ++ "/.flix-bridge/config.toml")

/-- The configuration in the file at a path. -/
def loadFrom (env : Environment) (path : String) (content : FileContent) :
    Except ConfigurationFault Configuration :=
  match content.text? with
  | none => .error (.unreadable path)
  | some text =>
    match ofText? env text with
    | some c => .ok c
    | none => .error (.malformed path)

/-- The configuration in the file at a path, if there is a file. -/
def load (env : Environment) (path : String) (content : FileContent) :
    Except ConfigurationFault (Option Configuration) :=
  match content with
  | .absent => .ok none
  | content => (loadFrom env path content).map some

end Configuration

end WorkerBridge
