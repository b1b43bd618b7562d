/-
  WorkerBridge.Json.Shape

  Reading typed values out of JSON. A record is written as an object or as the
  array of its fields in declaration order; in either form the first value that
  does not fit decides the error.
-/
import WorkerBridge.Json.Basic

namespace WorkerBridge.Json

/-! ## Errors -/

/-- Why a JSON value does not have the expected shape. -/
inductive ShapeError where
  | invalidType
  | invalidValue
  | missingField (name : String)
  | unknownVariant (name : String)
  | invalidLength (count : Nat)
  | noAlternative (name : String)
deriving DecidableEq, Repr

/-- The error in words. -/
def ShapeError.message : ShapeError → String
  | .invalidType => "invalid type"
  | .invalidValue => "invalid value"
  | .missingField name => "missing field `" ++ name ++ "`"
  | .unknownVariant name => "unknown variant `" ++ name ++ "`"
  | .invalidLength count => "invalid length " ++ Decimal.text count
  | .noAlternative name => "data did not match any variant of untagged enum " ++ name

/-- A way to read a value of type `α` out of JSON. -/
abbrev Decoder (α : Type) := Json → Except ShapeError α

namespace Shape

/-! ## Single values -/

/-- Any value. -/
def any : Decoder Json :=
  .ok

/-- A text. -/
def text : Decoder String
  | .str s => .ok s
  | _ => .error .invalidType

/-- A truth value. -/
def bool : Decoder Bool
  | .bool b => .ok b
  | _ => .error .invalidType

/-- An integer from zero to `limit`. A floating-point number does not fit, whole or not. -/
def natural (limit : Nat) : Decoder Nat
  | .num (.int (.ofNat n)) => if n ≤ limit then .ok n else .error .invalidValue
  | .num (.int (.negSucc _)) => .error .invalidValue
  | _ => .error .invalidType

/-- An unsigned integer of 64 bits. -/
def unsigned64 : Decoder UInt64 := fun v =>
  (natural maxUnsigned v).map UInt64.ofNat

/-- An unsigned integer of 32 bits. -/
def unsigned32 : Decoder UInt32 := fun v =>
  (natural 4294967295 v).map UInt32.ofNat

/-- A value that may be `null`. -/
def option {α : Type} (d : Decoder α) : Decoder (Option α)
  | .null => .ok none
  | v => (d v).map some

/-- The items of an array, each read alike. -/
def items {α : Type} (d : Decoder α) : List Json → Except ShapeError (List α)
  | [] => .ok []
  | v :: rest => do
    let a ← d v
    let more ← items d rest
    return a :: more

/-- An array of values read alike. -/
def list {α : Type} (d : Decoder α) : Decoder (List α)
  | .arr vs => items d vs
  | _ => .error .invalidType

/-! ## Variants -/

/-- The variant of the given name. -/
def named {α : Type} (variants : List (String × α)) (name : String) : Except ShapeError α :=
  match variants.find? (·.1 = name) with
  | some (_, a) => .ok a
  | none => .error (.unknownVariant name)

/-- One of several names, written as a text or as the only key of an object. What stands under the
key must be `empty`. -/
def variant {α : Type} (empty : Json → Bool) (variants : List (String × α)) : Decoder α
  | .str name => named variants name
  | .obj [(name, v)] =>
    match named variants name with
    | .error e => .error e
    | .ok a => if empty v then .ok a else .error .invalidType
  | .obj _ => .error .invalidValue
  | _ => .error .invalidType

/-! ## Records -/

/-- A field of a record: its name, what its value must be, and whether the array of fields may end
before it. -/
structure Field where
  name : String
  check : Json → Except ShapeError Unit
  mayEnd : Bool := false

/-- A field that the array form always holds. -/
def field {α : Type} (name : String) (d : Decoder α) : Field :=
  { name, check := fun v => (d v).map fun _ => () }

/-- A field that the array form may leave out at its end. -/
def lastField {α : Type} (name : String) (d : Decoder α) : Field :=
  { name, check := fun v => (d v).map fun _ => (), mayEnd := true }

/-- Checks values by the fields they belong to, in the order in which they stand. -/
def checkEntries (fields : List Field) : List (String × Json) → Except ShapeError Unit
  | [] => .ok ()
  | (key, v) :: rest =>
    match fields.find? (·.name = key) with
    | none => checkEntries fields rest
    | some f =>
      match f.check v with
      | .error e => .error e
      | .ok () => checkEntries fields rest

/-- Names the items of an array by the fields of a record, the first of which has the given index. -/
def nameItems (index : Nat) : List Field → List Json → Except ShapeError (List (String × Json))
  | [], [] => .ok []
  | [], rest => .error (.invalidLength (index + rest.length))
  | f :: fields, [] =>
    if f.mayEnd then nameItems (index + 1) fields [] else .error (.invalidLength index)
  | f :: fields, v :: rest =>
    match f.check v with
    | .error e => .error e
    | .ok () => (nameItems (index + 1) fields rest).map ((f.name, v) :: ·)

/-- The values of a record by the names of its fields. -/
def entries (fields : List Field) : Json → Except ShapeError (List (String × Json))
  | .obj kvs => (checkEntries fields kvs).map fun _ => kvs
  | .arr vs => nameItems 0 fields vs
  | _ => .error .invalidType

/-- What data formats do not agree on: what may stand under a name that is written as a key, and
whether an array of fields may go on after the last one. -/
structure Dialect where
  isEmpty : Json → Bool
  allowsRest : Bool

/-- The dialect of JSON. -/
def Dialect.json : Dialect := { isEmpty := Json.isNull, allowsRest := false }

/-- The values of a record by the names of its fields, as a dialect has it. -/
def Dialect.entries (d : Dialect) (fields : List Field) (v : Json) :
    Except ShapeError (List (String × Json)) :=
  match v with
  | .arr vs => Shape.entries fields (.arr (if d.allowsRest then vs.take fields.length else vs))
  | v => Shape.entries fields v

/-- The value of a field that must be there. -/
def required {α : Type} (kvs : List (String × Json)) (name : String) (d : Decoder α) :
    Except ShapeError α :=
  match TextMap.find? name kvs with
  | some v => d v
  | none => .error (.missingField name)

/-- The value of a field that has a default. -/
def defaulted {α : Type} (kvs : List (String × Json)) (name : String) (d : Decoder α) (default : α) :
    Except ShapeError α :=
  match TextMap.find? name kvs with
  | some v => d v
  | none => .ok default

end Shape

end WorkerBridge.Json
