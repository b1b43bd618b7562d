/-
  WorkerBridge.Documents

  Open documents and the diagnostics reported for them. A check's reports replace
  all diagnostics at once. Every operation returns the events that tell the
  editor what changed.
-/
import WorkerBridge.Event
import WorkerBridge.Job.Request

namespace WorkerBridge

/-! ## The store -/

/-- An open document: its latest text, and how often it was set. The count has no bound and does not
wrap around; what is said of it is meant for counts below two to the 32. -/
structure Document where
  text : String
  version : Nat
deriving DecidableEq, Repr

/-- The open documents, and the diagnostics that are shown. -/
structure Documents where
  documents : TextMap Document := []
  diagnostics : TextMap (List Diagnostic) := []
deriving DecidableEq, Repr

namespace Documents

/-- Sets the text of a document, opened or changed, and returns its version. -/
def update (d : Documents) (uri text : String) : Nat × Documents :=
  let version := ((TextMap.find? uri d.documents).elim 0 (·.version)) + 1
  (version, { d with documents := TextMap.insert uri ⟨text, version⟩ d.documents })

/-- Forgets a closed document and its diagnostics. -/
def close (d : Documents) (uri : String) : List Event × Documents :=
  ([.cleared uri],
    { documents := TextMap.erase uri d.documents, diagnostics := TextMap.erase uri d.diagnostics })

/-- Drops all diagnostics. -/
def clear (d : Documents) : List Event × Documents :=
  ((TextMap.keys d.diagnostics).map .cleared, { d with diagnostics := [] })

/-- Adds a report to those of the same check. -/
def addReport (reported : TextMap (List Diagnostic)) (r : Report) : TextMap (List Diagnostic) :=
  TextMap.insert r.uri ((TextMap.find? r.uri reported).getD [] ++ r.items) reported

/-- Adds an empty report for a document the check did not mention. -/
def addMissing (reported : TextMap (List Diagnostic)) (uri : String) : TextMap (List Diagnostic) :=
  match TextMap.find? uri reported with
  | some _ => reported
  | none => TextMap.insert uri [] reported

/-- Every document that is reported or open, with all that was reported for it. -/
def merge (d : Documents) (reports : List Report) : TextMap (List Diagnostic) :=
  (TextMap.keys d.documents).foldl addMissing (reports.foldl addReport [])

/-- Replaces all diagnostics by the reports of a check. -/
def install (d : Documents) (reports : List Report) : List Event × Documents :=
  let (cleared, d) := d.clear
  let reported := d.merge reports
  (cleared ++ reported.map fun (uri, items) => .diagnostics uri items,
    { d with diagnostics := reported.filter fun (_, items) => !items.isEmpty })

/-- The requests that rebuild a fresh worker's view: every document, then one check. -/
def replay (d : Documents) : List Request :=
  if d.documents.isEmpty then []
  else (d.documents.map fun (uri, doc) => .addUri uri doc.text) ++ [.check none]

end Documents

/-! ## Snapshots -/

/-- All diagnostics at one time, documents with errors first. -/
structure Snapshot where
  files : TextMap (List Diagnostic) := []
deriving DecidableEq, Repr

/-- Whether one of the diagnostics is an error. -/
def hasErrors (items : List Diagnostic) : Bool :=
  items.any (·.severity.isError)

/-- The diagnostics that are shown. Within the documents with errors, and within the others, the
order is that of the keys. -/
def Documents.snapshot (d : Documents) : Snapshot :=
  ⟨d.diagnostics.filter (fun f => hasErrors f.2) ++ d.diagnostics.filter (fun f => !hasErrors f.2)⟩

namespace Snapshot

/-- The diagnostics of one document. -/
def forUri? (s : Snapshot) (uri : String) : Option (List Diagnostic) :=
  TextMap.find? uri s.files

/-- Whether nothing is shown. -/
def isEmpty (s : Snapshot) : Bool :=
  s.files.isEmpty

/-- How many diagnostics have the given severity. -/
def count (s : Snapshot) (severity : Severity) : Nat :=
  ((s.files.flatMap (·.2)).filter (·.severity = severity)).length

/-- How many diagnostics there are. -/
def total (s : Snapshot) : Nat :=
  (s.files.map (·.2.length)).foldl (· + ·) 0

/-- A short line with the numbers of errors and warnings, empty when nothing is shown. -/
def status (s : Snapshot) : String :=
  if s.isEmpty then ""
  else "E:" ++ Decimal.text (s.count .error) ++ " W:" ++ Decimal.text (s.count .warning)

end Snapshot

end WorkerBridge
