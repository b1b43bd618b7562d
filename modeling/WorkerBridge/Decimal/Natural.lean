/-
  WorkerBridge.Decimal.Natural

  Natural numbers in decimal: the digits that are written and the value that a
  run of digits denotes.
-/
namespace WorkerBridge.Decimal

/-! ## Digits -/

/-- Whether the character is one of `0` to `9`. -/
def isDigit (c : Char) : Bool :=
  '0' ≤ c && c ≤ '9'

/-- The number a digit stands for. -/
def digitValue (c : Char) : Nat :=
  c.toNat - '0'.toNat

/-- The digit that stands for a number below ten. -/
def digitChar (n : Nat) : Char :=
  Char.ofNat ('0'.toNat + n)

/-! ## Writing -/

/-- Puts the digits of `n` in front of the digits already written. -/
def digitsOnto (n : Nat) (rest : List Char) : List Char :=
  if n < 10 then digitChar n :: rest
  else digitsOnto (n / 10) (digitChar (n % 10) :: rest)
termination_by n
decreasing_by omega

/-- The decimal digits of `n`, most significant first, with no leading zero. -/
def digits (n : Nat) : List Char :=
  digitsOnto n []

/-- The decimal text of `n`. -/
def text (n : Nat) : String :=
  String.ofList (digits n)

/-- The decimal text of an integer, with a minus sign below zero. -/
def intText : Int → String
  | .ofNat n => text n
  | .negSucc n => "-" ++ text (n + 1)

/-! ## Reading -/

/-- The value of a run of digits. -/
def value (cs : List Char) : Nat :=
  cs.foldl (fun n c => n * 10 + digitValue c) 0

/-- Reads a natural number: at least one digit and nothing but digits, after an optional plus sign. -/
def read? : List Char → Option Nat
  | [] => none
  | '+' :: rest => if rest ≠ [] ∧ rest.all isDigit then some (value rest) else none
  | cs => if cs.all isDigit then some (value cs) else none

/-- Reads a natural number that does not exceed `limit`. -/
def readUpTo? (limit : Nat) (cs : List Char) : Option Nat :=
  (read? cs).filter (· ≤ limit)

end WorkerBridge.Decimal
