/-
  WorkerBridge.Lookup

  Results of read-only queries: locations, definitions, hovers, lenses and the
  worker's version.
-/
import WorkerBridge.Position

namespace WorkerBridge

open Json (Decoder ShapeError)

/-! ## Locations -/

/-- A range of a document. -/
structure Location where
  uri : String
  range : Range
deriving DecidableEq, Repr

/-- Reads a location. -/
def Location.decode : Decoder Location := fun v => do
  let kvs ← Json.Shape.entries
    [Json.Shape.field "uri" Json.Shape.text, Json.Shape.field "range" Range.decode] v
  let uri ← Json.Shape.required kvs "uri" Json.Shape.text
  let range ← Json.Shape.required kvs "range" Range.decode
  return { uri, range }

/-- A link to a definition: the whole target and the part of it that names it. -/
structure Link where
  origin : Option Range
  targetUri : String
  targetRange : Range
  targetSelection : Range
deriving DecidableEq, Repr

/-- Reads a link. -/
def Link.decode : Decoder Link := fun v => do
  let origin := Json.Shape.option Range.decode
  let kvs ← Json.Shape.entries
    [Json.Shape.lastField "originSelectionRange" origin,
      Json.Shape.field "targetUri" Json.Shape.text, Json.Shape.field "targetRange" Range.decode,
      Json.Shape.field "targetSelectionRange" Range.decode] v
  let origin ← Json.Shape.defaulted kvs "originSelectionRange" origin none
  let targetUri ← Json.Shape.required kvs "targetUri" Json.Shape.text
  let targetRange ← Json.Shape.required kvs "targetRange" Range.decode
  let targetSelection ← Json.Shape.required kvs "targetSelectionRange" Range.decode
  return { origin, targetUri, targetRange, targetSelection }

/-! ## Definitions -/

/-- Where a name is defined. -/
inductive Target where
  | link (l : Link)
  | plain (l : Location)
deriving DecidableEq, Repr

namespace Target

/-- The location to show. A link leads to the part of its target that names it. -/
def location : Target → Location
  | .link l => { uri := l.targetUri, range := l.targetSelection }
  | .plain l => l

/-- Reads a link or, failing that, a location. -/
def decode : Decoder Target := fun v =>
  match Link.decode v with
  | .ok l => .ok (.link l)
  | .error _ =>
    match Location.decode v with
    | .ok l => .ok (.plain l)
    | .error _ => .error (.noAlternative "DefinitionTarget")

end Target

/-- The targets of a definition query: many, or one by itself. -/
def decodeDefinitions : Decoder (List Target) := fun v =>
  match Json.Shape.list Target.decode v with
  | .ok targets => .ok targets
  | .error _ =>
    match Target.decode v with
    | .ok target => .ok [target]
    | .error _ => .error (.noAlternative "Definitions")

/-! ## Hovers and lenses -/

/-- What to show beside a position. -/
structure Hover where
  contents : Json
  range : Option Range

/-- Reads a hover. -/
def Hover.decode : Decoder Hover := fun v => do
  let range := Json.Shape.option Range.decode
  let kvs ← Json.Shape.entries
    [Json.Shape.field "contents" Json.Shape.any, Json.Shape.lastField "range" range] v
  let contents ← Json.Shape.required kvs "contents" Json.Shape.any
  let range ← Json.Shape.defaulted kvs "range" range none
  return { contents, range }

/-- The command behind a lens. -/
structure LensCommand where
  title : String
  command : String
  arguments : List Json

/-- Reads the command behind a lens. -/
def LensCommand.decode : Decoder LensCommand := fun v => do
  let arguments := Json.Shape.list Json.Shape.any
  let kvs ← Json.Shape.entries
    [Json.Shape.field "title" Json.Shape.text, Json.Shape.field "command" Json.Shape.text,
      Json.Shape.lastField "arguments" arguments] v
  let title ← Json.Shape.required kvs "title" Json.Shape.text
  let command ← Json.Shape.required kvs "command" Json.Shape.text
  let arguments ← Json.Shape.defaulted kvs "arguments" arguments []
  return { title, command, arguments }

/-- A command offered at a range of a document. -/
structure CodeLens where
  range : Range
  command : Option LensCommand

/-- Reads a lens. -/
def CodeLens.decode : Decoder CodeLens := fun v => do
  let command := Json.Shape.option LensCommand.decode
  let kvs ← Json.Shape.entries
    [Json.Shape.field "range" Range.decode, Json.Shape.lastField "command" command] v
  let range ← Json.Shape.required kvs "range" Range.decode
  let command ← Json.Shape.defaulted kvs "command" command none
  return { range, command }

/-! ## Versions -/

/-- The version a worker reports. -/
structure Version where
  major : UInt32
  minor : UInt32
  revision : UInt32
deriving DecidableEq, Repr

namespace Version

/-- Reads a version. -/
def decode : Decoder Version := fun v => do
  let number := Json.Shape.unsigned32
  let kvs ← Json.Shape.entries
    [Json.Shape.field "major" number, Json.Shape.field "minor" number,
      Json.Shape.field "revision" number] v
  let major ← Json.Shape.required kvs "major" number
  let minor ← Json.Shape.required kvs "minor" number
  let revision ← Json.Shape.required kvs "revision" number
  return { major, minor, revision }

/-- The version in words. -/
def text (v : Version) : String :=
  Decimal.text v.major.toNat ++ "." ++ Decimal.text v.minor.toNat ++ "-rev" ++
    Decimal.text v.revision.toNat

end Version

end WorkerBridge
