/-
  WorkerBridge.Toml.Scalar

  The scalars of TOML that are no strings: truth values, integers, floating-point
  numbers, dates and times. Each is a run of characters without blanks, a date and
  its time apart, which may stand on either side of one blank.
-/
import WorkerBridge.Json.Parser

namespace WorkerBridge.Toml

open WorkerBridge.Decimal
open WorkerBridge.Json (Number)

/-! ## Digits in groups -/

/-- The digits of a run in which single underscores may stand between digits. -/
def ungroup? (isOk : Char → Bool) : List Char → Option (List Char)
  | [] => none
  | [c] => if isOk c then some [c] else none
  | c :: '_' :: d :: rest => if isOk c then (ungroup? isOk (d :: rest)).map (c :: ·) else none
  | c :: rest => if isOk c then (ungroup? isOk rest).map (c :: ·) else none

/-- The sign of a number, negative or not, and what follows it. -/
def splitSign : List Char → Bool × List Char
  | '-' :: rest => (true, rest)
  | '+' :: rest => (false, rest)
  | cs => (false, cs)

/-- The digits before a point or an exponent: no zero leads others. -/
def wholeDigits? (cs : List Char) : Option (List Char) := do
  let ds ← ungroup? isDigit cs
  match ds with
  | '0' :: _ :: _ => none
  | ds => some ds

/-! ## Integers -/

/-- The integers that can be held at all. -/
def isHeld (i : Int) : Bool :=
  -Int.ofNat (Nat.pow 2 127) ≤ i && i < Int.ofNat (Nat.pow 2 128)

/-- An integer in base two, eight or sixteen, after its mark. -/
def radixInteger? (base : Nat) (cs : List Char) : Option Int := do
  let isOk (c : Char) : Bool := (Json.hexValue? c).any (· < base)
  let ds ← ungroup? isOk cs
  return ds.foldl (fun n c => n * base + ((Json.hexValue? c).getD 0 : Nat)) 0

/-- An integer. Only decimal ones have a sign. -/
def integer? : List Char → Option Int
  | '0' :: 'x' :: cs => radixInteger? 16 cs
  | '0' :: 'o' :: cs => radixInteger? 8 cs
  | '0' :: 'b' :: cs => radixInteger? 2 cs
  | cs => do
    let (negative, cs) := splitSign cs
    let ds ← wholeDigits? cs
    let n : Int := value ds
    return if negative then -n else n

/-! ## Floating-point numbers -/

/-- A number with a fraction, an exponent or both. -/
def float? (cs : List Char) : Option Number := do
  let (negative, cs) := splitSign cs
  let isExponent (c : Char) : Bool := c == 'e' || c == 'E'
  let (mantissa, exponent) := cs.span (!isExponent ·)
  let exponent ←
    match exponent with
    | [] => some none
    | _ :: cs =>
      let (down, cs) := splitSign cs
      (ungroup? isDigit cs).map fun ds => some (down, ds)
  let (whole, fraction) := mantissa.span (· ≠ '.')
  let whole ← wholeDigits? whole
  let fraction ←
    match fraction with
    | [] => some []
    | _ :: cs => ungroup? isDigit cs
  if fraction = [] ∧ exponent = none then none
  else Number.ofLiteral? { negative, whole, fraction, exponent }

/-- A number beyond all others, or none at all. -/
def special? (cs : List Char) : Option Number :=
  let (negative, name) := splitSign cs
  let signed (x : Float) : Number := .float (Binary64.ofFloat (if negative then -x else x))
  if name = ['i', 'n', 'f'] then some (signed (1.0 / 0.0))
  else if name = ['n', 'a', 'n'] then some (signed (0.0 / 0.0))
  else none

/-! ## Dates and times -/

/-- Two digits whose value is within bounds. -/
def twoDigits? (low high : Nat) (a b : Char) : Option Nat :=
  let n := value [a, b]
  if isDigit a && isDigit b && low ≤ n && n ≤ high then some n else none

/-- How many days a month has. -/
def daysIn (year month : Nat) : Nat :=
  if month = 2 then
    if year % 4 = 0 ∧ (year % 100 ≠ 0 ∨ year % 400 = 0) then 29 else 28
  else if month = 4 ∨ month = 6 ∨ month = 9 ∨ month = 11 then 30
  else 31

/-- Takes a date off the front. -/
def dropDate? : List Char → Option (List Char)
  | a :: b :: c :: d :: '-' :: e :: f :: '-' :: g :: h :: rest =>
    if [a, b, c, d].all isDigit then
      (twoDigits? 1 12 e f).bind fun month =>
        (twoDigits? 1 (daysIn (value [a, b, c, d]) month) g h).map fun _ => rest
    else none
  | _ => none

/-- Takes the seconds and their fraction off the front, if they are there. -/
def dropSeconds? : List Char → Option (List Char)
  | ':' :: a :: b :: rest =>
    (twoDigits? 0 60 a b).bind fun _ =>
      match rest with
      | '.' :: rest =>
        match rest.span isDigit with
        | ([], _) => none
        | (_, rest) => some rest
      | rest => some rest
  | rest => some rest

/-- Takes a time off the front. -/
def dropTime? : List Char → Option (List Char)
  | a :: b :: ':' :: c :: d :: rest =>
    (twoDigits? 0 23 a b).bind fun _ => (twoDigits? 0 59 c d).bind fun _ => dropSeconds? rest
  | _ => none

/-- Whether the characters are a distance from universal time, or nothing. -/
def isOffset : List Char → Bool
  | [] => true
  | ['Z'] | ['z'] => true
  | [sign, a, b, ':', c, d] =>
    (sign == '+' || sign == '-') && (twoDigits? 0 23 a b).isSome && (twoDigits? 0 59 c d).isSome
  | _ => false

/-- Whether the characters are a date, a time or both. -/
def isDateTime (cs : List Char) : Bool :=
  match dropDate? cs with
  | some [] => true
  | some (mark :: rest) =>
    (mark == 'T' || mark == 't' || mark == ' ') && ((dropTime? rest).map isOffset).getD false
  | none => dropTime? cs == some []

/-! ## Scalars -/

/-- Characters of which scalars consist. -/
def isScalarChar (c : Char) : Bool :=
  c.isAlphanum || c == '_' || c == '+' || c == '-' || c == '.' || c == ':'

/-- The run of characters of the scalar at the front. A time may follow a date after one blank. -/
def spanScalar (cs : List Char) : List Char × List Char :=
  match cs.span isScalarChar with
  | (run, ' ' :: c :: rest) =>
    if dropDate? run == some [] && isDigit c then
      let (time, rest) := (c :: rest).span isScalarChar
      (run ++ ' ' :: time, rest)
    else (run, ' ' :: c :: rest)
  | split => split

/-- The scalar that a run of characters denotes. A date or time is the record of its text. -/
def scalar? (cs : List Char) : Option Json :=
  if cs = ['t', 'r', 'u', 'e'] then some (.bool true)
  else if cs = ['f', 'a', 'l', 's', 'e'] then some (.bool false)
  else
    match integer? cs with
    | some i => if isHeld i then some (.num (.int i)) else none
    | none =>
      match float? cs <|> special? cs with
      | some x => some (.num x)
      | none =>
        if isDateTime cs then some (Json.ofFields [("datetime", .str (String.ofList cs))]) else none

end WorkerBridge.Toml
