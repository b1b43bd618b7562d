/-
  WorkerBridge.Json.Basic

  JSON values. An object is a map: its fields stand in ascending order of their
  keys and no key stands twice.
-/
import WorkerBridge.Json.Number
import WorkerBridge.TextMap

namespace WorkerBridge

/-- A JSON value. -/
inductive Json where
  | null
  | bool (b : Bool)
  | num (n : Json.Number)
  | str (s : String)
  | arr (items : List Json)
  | obj (fields : List (String × Json))
deriving BEq, Repr, Inhabited

namespace Json

/-! ## Building -/

/-- The object with the given fields. Of two fields with one key the later counts. -/
def ofFields (fields : List (String × Json)) : Json :=
  .obj (TextMap.ofList fields)

/-- A natural number as a JSON integer. -/
def ofNat (n : Nat) : Json :=
  .num (.int n)

/-! ## Views -/

/-- The value of the field `key`, if the value is an object that has it. -/
def field? (v : Json) (key : String) : Option Json :=
  match v with
  | .obj fields => TextMap.find? key fields
  | _ => none

/-- The value as an unsigned integer of 64 bits. Floating-point numbers are none, whole or not. -/
def asUnsigned? : Json → Option Nat
  | .num (.int (.ofNat n)) => if n ≤ maxUnsigned then some n else none
  | _ => none

/-- The value as a text. -/
def asText? : Json → Option String
  | .str s => some s
  | _ => none

/-- Whether the value is `null`. -/
def isNull : Json → Bool
  | .null => true
  | _ => false

end Json

end WorkerBridge
