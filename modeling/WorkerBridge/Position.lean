/-
  WorkerBridge.Position

  Places in a document: zero-based positions and the ranges between them.
-/
import WorkerBridge.Json.Shape

namespace WorkerBridge

open Json (Decoder)

/-- A zero-based line and character. -/
structure Position where
  line : UInt32
  character : UInt32
deriving DecidableEq, Repr, Inhabited

/-- The part of a document from one position to another. -/
structure Range where
  start : Position
  stop : Position
deriving DecidableEq, Repr, Inhabited

namespace Position

/-- The position as JSON. -/
def toJson (p : Position) : Json :=
  Json.ofFields [("line", Json.ofNat p.line.toNat), ("character", Json.ofNat p.character.toNat)]

/-- Reads a position. -/
def decode : Decoder Position := fun v => do
  let kvs ← Json.Shape.entries
    [Json.Shape.field "line" Json.Shape.unsigned32, Json.Shape.field "character" Json.Shape.unsigned32] v
  let line ← Json.Shape.required kvs "line" Json.Shape.unsigned32
  let character ← Json.Shape.required kvs "character" Json.Shape.unsigned32
  return { line, character }

end Position

/-- Reads a range. -/
def Range.decode : Decoder Range := fun v => do
  let kvs ← Json.Shape.entries [Json.Shape.field "start" Position.decode, Json.Shape.field "end" Position.decode] v
  let start ← Json.Shape.required kvs "start" Position.decode
  let stop ← Json.Shape.required kvs "end" Position.decode
  return { start, stop }

end WorkerBridge
