/-
  WorkerBridge.Decimal.Binary64

  Floating-point numbers of 64 bits, held by their bit pattern, and the shortest
  decimal that reads back as a given one.
-/
import WorkerBridge.Decimal.Natural

namespace WorkerBridge.Decimal

/-- A floating-point number of 64 bits, held by its bit pattern. -/
structure Binary64 where
  bits : UInt64
deriving DecidableEq, Repr, Inhabited

namespace Binary64

/-- The bit pattern of a machine float. -/
def ofFloat (x : Float) : Binary64 :=
  ⟨x.toBits⟩

/-- Whether the sign bit is set. -/
def isNegative (x : Binary64) : Bool :=
  x.bits >>> 63 == 1

/-- The same number with the sign bit cleared. -/
def magnitudeBits (x : Binary64) : Nat :=
  (x.bits &&& 0x7FFFFFFFFFFFFFFF).toNat

/-- Significand and power of two: the magnitude of `x` is the first times two to the second. -/
def decompose (x : Binary64) : Nat × Int :=
  let biased : Nat := x.magnitudeBits / Nat.pow 2 52
  let fraction : Nat := x.magnitudeBits % Nat.pow 2 52
  if biased = 0 then (fraction, -1074) else (fraction + Nat.pow 2 52, (biased : Int) - 1075)

end Binary64

/-! ## Shortest decimals -/

/-- A positive decimal: `0.d₁d₂…dₙ` times ten to the `point`. -/
structure Scientific where
  digits : List Char
  point : Int
deriving DecidableEq, Repr

/-- The fraction `numerator / denominator`. -/
structure Ratio where
  numerator : Nat
  denominator : Nat

namespace Ratio

/-- The fraction multiplied by ten to the `e`. -/
def scale (r : Ratio) (e : Int) : Ratio :=
  match e with
  | .ofNat n => ⟨r.numerator * Nat.pow 10 n, r.denominator⟩
  | .negSucc n => ⟨r.numerator, r.denominator * Nat.pow 10 (n + 1)⟩

/-- Order of two fractions with positive denominators. -/
def le (a b : Ratio) : Bool :=
  a.numerator * b.denominator ≤ b.numerator * a.denominator

/-- Strict order of two fractions with positive denominators. -/
def lt (a b : Ratio) : Bool :=
  a.numerator * b.denominator < b.numerator * a.denominator

/-- The least `point ≥ low` with `r < 10 ^ point`, looked for over `fuel` candidates. -/
def pointFrom (r : Ratio) (low : Int) : Nat → Int
  | 0 => low
  | fuel + 1 => if (r.scale (-low)).lt ⟨1, 1⟩ then low else pointFrom r (low + 1) fuel

/-- The least power of ten above the fraction. Doubles lie between ten to the -324 and to the 309. -/
def point (r : Ratio) : Int :=
  let whole := r.numerator / r.denominator
  if whole = 0 then r.pointFrom (-330) 340 else (digits whole).length

end Ratio

/-- The reals that round to `m · 2 ^ q`: their ends, and whether the ends belong to them. -/
structure Neighbourhood where
  value : Ratio
  low : Ratio
  high : Ratio
  closed : Bool

namespace Neighbourhood

/-- A number with an even significand is also the nearest to the two midpoints beside it. -/
def of (m : Nat) (q : Int) : Neighbourhood :=
  let scaled (n : Nat) : Ratio :=
    match q - 2 with
    | .ofNat e => ⟨n * Nat.pow 2 e, 1⟩
    | .negSucc e => ⟨n, Nat.pow 2 (e + 1)⟩
  let below := if m = Nat.pow 2 52 ∧ q > -1074 then 1 else 2
  { value := scaled (4 * m), low := scaled (4 * m - below), high := scaled (4 * m + 2)
    closed := m % 2 = 0 }

/-- Whether a decimal reads back as the number the neighbourhood belongs to. -/
def contains (n : Neighbourhood) (r : Ratio) : Bool :=
  if n.closed then n.low.le r && r.le n.high else n.low.lt r && r.lt n.high

/-- The nearest decimal with `count` digits that reads back, of the two beside the value. -/
def candidate? (n : Neighbourhood) (point : Int) (count : Nat) : Option Nat :=
  let unit := point - (count : Int)
  let scaled := n.value.scale (-unit)
  let down := scaled.numerator / scaled.denominator
  let back (d : Nat) : Ratio := (⟨d, 1⟩ : Ratio).scale unit
  let downOk := down ≠ 0 ∧ n.contains (back down)
  let upOk := n.contains (back (down + 1))
  let remainder := scaled.numerator % scaled.denominator
  let nearerUp := 2 * remainder > scaled.denominator ∨
    (2 * remainder = scaled.denominator ∧ down % 2 = 1)
  if downOk ∧ upOk then some (if nearerUp then down + 1 else down)
  else if downOk then some down
  else if upOk then some (down + 1)
  else none

/-- The first digit count, of `fuel` from `count` on, with a decimal that reads back. -/
def shortestFrom (n : Neighbourhood) (point : Int) (count : Nat) : Nat → Scientific
  | 0 => ⟨['0'], 0⟩
  | fuel + 1 =>
    match n.candidate? point count with
    | some d =>
      let ds := digits d
      ⟨ds, point - (count : Int) + (ds.length : Int)⟩
    | none => shortestFrom n point (count + 1) fuel

end Neighbourhood

/-- The decimal with the fewest digits that reads back as the positive number `m · 2 ^ q`. -/
def shortest (m : Nat) (q : Int) : Scientific :=
  let n := Neighbourhood.of m q
  n.shortestFrom n.value.point 1 17

/-- Digits without the zeros at their end. -/
def withoutTrailingZeros (ds : List Char) : List Char :=
  (ds.reverse.dropWhile (· == '0')).reverse

end WorkerBridge.Decimal
