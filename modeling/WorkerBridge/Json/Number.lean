/-
  WorkerBridge.Json.Number

  JSON numbers. A literal without fraction and exponent that fits into 64 bits,
  signed or unsigned, is an exact integer; every other literal is a
  floating-point number.
-/
import WorkerBridge.Decimal.Binary64

namespace WorkerBridge.Json

open WorkerBridge.Decimal

/-- The largest unsigned integer of 64 bits. -/
def maxUnsigned : Nat := 18446744073709551615

/-- The distance from zero of the smallest signed integer of 64 bits. -/
def maxNegative : Nat := 9223372036854775808

/-- An exact integer or a floating-point number. -/
inductive Number where
  | int (i : Int)
  | float (x : Binary64)
deriving DecidableEq, Repr, Inhabited

namespace Number

/-- An integer that a literal can denote exactly. -/
def exact (i : Int) : Bool :=
  -(maxNegative : Int) ≤ i && i ≤ (maxUnsigned : Int)

/-! ## Writing -/

/-- Where positional writing of floating-point numbers ends: below ten to the 16 and from 1e-5 on. -/
def positional (point : Int) : Bool :=
  -5 < point && point ≤ 16

/-- The text of a positive decimal: positional with at least one digit on either side of the point,
or one digit before the point and an exponent. -/
def scientificText (s : Scientific) : String :=
  let ds := withoutTrailingZeros s.digits
  let count : Int := ds.length
  if positional s.point then
    if s.point ≥ count then
      String.ofList (ds ++ List.replicate (s.point - count).toNat '0') ++ ".0"
    else if s.point > 0 then
      String.ofList (ds.take s.point.toNat) ++ "." ++ String.ofList (ds.drop s.point.toNat)
    else
      "0." ++ String.ofList (List.replicate (-s.point).toNat '0' ++ ds)
  else
    let exponent := "e" ++ intText (s.point - 1)
    match ds with
    | [] => "0.0"
    | [d] => String.ofList [d] ++ exponent
    | d :: rest => String.ofList [d] ++ "." ++ String.ofList rest ++ exponent

/-- The shortest text that reads back as the floating-point number. -/
def floatText (x : Binary64) : String :=
  let sign := if x.isNegative then "-" else ""
  let (m, q) := x.decompose
  sign ++ (if m = 0 then "0.0" else scientificText (shortest m q))

/-- The text of a number. -/
def text : Number → String
  | .int i => intText i
  | .float x => floatText x

/-! ## Reading -/

/-- A literal taken apart: sign, digits before the point, digits after it, exponent with its sign. -/
structure Literal where
  negative : Bool
  whole : List Char
  fraction : List Char
  exponent : Option (Bool × List Char)
deriving Repr

/-- Digits collected while they fit into an unsigned integer of 64 bits, and how many did not. -/
structure Significand where
  value : Nat := 0
  dropped : Nat := 0

namespace Significand

/-- One more digit before the point. The first that does not fit ends the collection. -/
def pushWhole (s : Significand) (c : Char) : Significand :=
  let next := s.value * 10 + digitValue c
  if s.dropped = 0 ∧ next ≤ maxUnsigned then { s with value := next }
  else { s with dropped := s.dropped + 1 }

/-- The digits after the point that still fit: the value and how many were taken. -/
def pushFraction (value taken : Nat) : List Char → Nat × Nat
  | [] => (value, taken)
  | c :: rest =>
    let next := value * 10 + digitValue c
    if next ≤ maxUnsigned then pushFraction next (taken + 1) rest else (value, taken)

end Significand

/-- The power of ten as a floating-point number. -/
def powerOfTen (n : Nat) : Float :=
  Float.ofScientific 1 false n

/-- Divides by ten to the 308 until the exponent is within the range of one division. -/
def divideDown (x : Float) (exponent : Nat) : Nat → Float
  | 0 => x
  | fuel + 1 =>
    if exponent ≤ 308 then x / powerOfTen exponent
    else if x == 0 then x
    else divideDown (x / powerOfTen 308) (exponent - 308) fuel

/-- The significand times a power of ten, rounded after each operation. `none` when it is too large. -/
def scaled? (significand : Nat) (exponent : Int) : Option Float :=
  let x := Float.ofNat significand
  match exponent with
  | .ofNat e =>
    if e ≤ 308 then
      let y := x * powerOfTen e
      if y.isInf then none else some y
    else if significand = 0 then some x else none
  | .negSucc e => some (divideDown x (e + 1) (e / 308 + 2))

/-- The largest exponent that is read digit by digit. -/
def maxExponent : Nat := 2147483647

/-- The floating-point number of a literal. `none` when it is too large. -/
def floatOf? (l : Literal) : Option Float :=
  let whole := l.whole.foldl Significand.pushWhole {}
  let (value, taken) := Significand.pushFraction whole.value 0 l.fraction
  let start : Int := (whole.dropped : Int) - (taken : Int)
  match l.exponent with
  | none => scaled? value start
  | some (down, ds) =>
    let written := Decimal.value ds
    if written > maxExponent then
      if value ≠ 0 ∧ ¬ down then none else some 0
    else scaled? value (if down then start - written else start + written)

/-- The number a literal denotes. `none` when it exceeds every floating-point number. -/
def ofLiteral? (l : Literal) : Option Number :=
  let whole := Decimal.value l.whole
  let signed (x : Float) : Number := .float (Binary64.ofFloat (if l.negative then -x else x))
  if l.fraction = [] ∧ l.exponent = none then
    if ¬ l.negative ∧ whole ≤ maxUnsigned then some (.int whole)
    else if l.negative ∧ 0 < whole ∧ whole ≤ maxNegative then some (.int (-(whole : Int)))
    else (floatOf? l).map signed
  else (floatOf? l).map signed

end Number

end WorkerBridge.Json
