/-
  WorkerBridge.Diagnostic

  Problem reports of a check: severities, diagnostics, the line that shows one,
  and the result of a check as the worker writes it.
-/
import WorkerBridge.Position
import WorkerBridge.Text.Blank

namespace WorkerBridge

open Json (Decoder ShapeError)

/-! ## Severities -/

/-- How serious a problem is. -/
inductive Severity where
  | error
  | warning
  | information
  | hint
deriving DecidableEq, Repr, Inhabited

namespace Severity

/-- The severity of a number on the wire. -/
def ofNumber? : Nat → Option Severity
  | 1 => some .error
  | 2 => some .warning
  | 3 => some .information
  | 4 => some .hint
  | _ => none

/-- The number of a severity on the wire. -/
def number : Severity → Nat
  | .error => 1
  | .warning => 2
  | .information => 3
  | .hint => 4

/-- The word for a severity. -/
def label : Severity → String
  | .error => "error"
  | .warning => "warning"
  | .information => "info"
  | .hint => "hint"

/-- Whether the problem is an error. -/
def isError : Severity → Bool
  | .error => true
  | _ => false

end Severity

/-! ## Diagnostics -/

/-- One problem reported by a check. -/
structure Diagnostic where
  severity : Severity
  message : String
  range : Range
  source : String
  code : Option String
deriving DecidableEq, Repr

/-- The one-based number of a line or character. The last of the 32-bit numbers has no successor. -/
def oneBased? (n : UInt32) : Option Nat :=
  if n.toNat + 1 < 4294967296 then some (n.toNat + 1) else none

/-- The line that shows a diagnostic, with one-based line and character. -/
def Diagnostic.show? (d : Diagnostic) (location : String) : Option String := do
  let line ← oneBased? d.range.start.line
  let character ← oneBased? d.range.start.character
  return location ++ ":" ++ Decimal.text line ++ ":" ++ Decimal.text character ++ ": " ++
    d.severity.label ++ ": [" ++ d.source ++ "] " ++ d.message

/-! ## Check results -/

/-- The source of diagnostics that name none. -/
def defaultSource : String := "flix"

/-- The text of a diagnostic's code: a text or a number. -/
def codeText : Option Json → Option String
  | some (.str s) => some s
  | some (.num n) => some n.text
  | _ => none

/-- Reads a diagnostic. Unknown severities count as errors. -/
def Diagnostic.decode : Decoder Diagnostic := fun v => do
  let severity := Json.Shape.option (Json.Shape.natural Json.maxUnsigned)
  let source := Json.Shape.option Json.Shape.text
  let code := Json.Shape.option Json.Shape.any
  let kvs ← Json.Shape.entries
    [Json.Shape.field "range" Range.decode, Json.Shape.field "severity" severity,
      Json.Shape.field "source" source, Json.Shape.field "code" code,
      Json.Shape.field "message" Json.Shape.text] v
  let range ← Json.Shape.required kvs "range" Range.decode
  let severity ← Json.Shape.defaulted kvs "severity" severity none
  let source ← Json.Shape.defaulted kvs "source" source none
  let code ← Json.Shape.defaulted kvs "code" code none
  let message ← Json.Shape.required kvs "message" Json.Shape.text
  return {
    severity := (severity.bind Severity.ofNumber?).getD .error
    message, range
    source := source.getD defaultSource
    code := codeText code }

/-- The diagnostics reported for one document. -/
structure Report where
  uri : String
  items : List Diagnostic
deriving DecidableEq, Repr

/-- Reads the diagnostics of one document. -/
def Report.decode : Decoder Report := fun v => do
  let kvs ← Json.Shape.entries
    [Json.Shape.field "uri" Json.Shape.text,
      Json.Shape.lastField "diagnostics" (Json.Shape.list Diagnostic.decode)] v
  let uri ← Json.Shape.required kvs "uri" Json.Shape.text
  let items ← Json.Shape.defaulted kvs "diagnostics" (Json.Shape.list Diagnostic.decode) []
  return { uri, items }

/-- The reports of a successful check. `null` reports nothing. -/
def decodeReports : Decoder (List Report)
  | .null => .ok []
  | v => Json.Shape.list Report.decode v

end WorkerBridge
