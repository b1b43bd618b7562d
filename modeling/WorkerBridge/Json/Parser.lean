/-
  WorkerBridge.Json.Parser

  Strict reading of JSON texts: no leading zeros, no lone surrogates, no raw
  control characters in strings, blanks only where the grammar has them, and
  nothing after the value. Nesting is limited.
-/
import WorkerBridge.Json.Basic

namespace WorkerBridge.Json

open WorkerBridge.Decimal

/-! ## Blanks -/

/-- The four blanks of the grammar. -/
def isGap (c : Char) : Bool :=
  c == ' ' || c == '\t' || c == '\n' || c == '\r'

/-- The text from its first character that is no blank. -/
def skipGaps : List Char → List Char
  | [] => []
  | c :: rest => if isGap c then skipGaps rest else c :: rest

/-! ## Strings -/

/-- The value of a hexadecimal digit of either case. -/
def hexValue? (c : Char) : Option Nat :=
  if '0' ≤ c ∧ c ≤ '9' then some (c.toNat - '0'.toNat)
  else if 'a' ≤ c ∧ c ≤ 'f' then some (c.toNat - 'a'.toNat + 10)
  else if 'A' ≤ c ∧ c ≤ 'F' then some (c.toNat - 'A'.toNat + 10)
  else none

/-- The value of four hexadecimal digits. -/
def hexUnit? (a b c d : Char) : Option Nat := do
  let a ← hexValue? a
  let b ← hexValue? b
  let c ← hexValue? c
  let d ← hexValue? d
  return ((a * 16 + b) * 16 + c) * 16 + d

/-- The character that a one-letter escape stands for. -/
def shortEscape? : Char → Option Char
  | '"' => some '"'
  | '\\' => some '\\'
  | '/' => some '/'
  | 'b' => some '\x08'
  | 'f' => some '\x0c'
  | 'n' => some '\n'
  | 'r' => some '\r'
  | 't' => some '\t'
  | _ => none

/-- Reads the rest of a string after its opening mark. A high surrogate stands only before a low one. -/
def readString? (acc : String) : List Char → Option (String × List Char)
  | [] => none
  | '"' :: rest => some (acc, rest)
  | '\\' :: 'u' :: a :: b :: c :: d :: rest =>
    match hexUnit? a b c d with
    | none => none
    | some high =>
      if 0xD800 ≤ high ∧ high < 0xDC00 then
        match rest with
        | '\\' :: 'u' :: e :: f :: g :: h :: rest =>
          match hexUnit? e f g h with
          | none => none
          | some low =>
            if 0xDC00 ≤ low ∧ low < 0xE000 then
              let point := 0x10000 + (high - 0xD800) * 0x400 + (low - 0xDC00)
              readString? (acc.push (Char.ofNat point)) rest
            else none
        | _ => none
      else if 0xDC00 ≤ high ∧ high < 0xE000 then none
      else readString? (acc.push (Char.ofNat high)) rest
  | '\\' :: c :: rest =>
    match shortEscape? c with
    | some e => readString? (acc.push e) rest
    | none => none
  | c :: rest => if c = '\\' ∨ c.toNat < 0x20 then none else readString? (acc.push c) rest

/-! ## Numbers -/

/-- Reads the digits of an exponent after its letter. -/
def readExponent? (cs : List Char) : Option ((Bool × List Char) × List Char) :=
  let (down, cs) :=
    match cs with
    | '-' :: rest => (true, rest)
    | '+' :: rest => (false, rest)
    | cs => (false, cs)
  match cs.span isDigit with
  | ([], _) => none
  | (ds, rest) => some ((down, ds), rest)

/-- Reads the digits of a fraction, if there is a point. -/
def readFraction? : List Char → Option (List Char × List Char)
  | '.' :: rest =>
    match rest.span isDigit with
    | ([], _) => none
    | (ds, rest) => some (ds, rest)
  | cs => some ([], cs)

/-- Reads the digits before the point: a zero alone, or digits that start with another one. -/
def readWhole? : List Char → Option (List Char × List Char)
  | '0' :: rest => some (['0'], rest)
  | cs =>
    match cs.span isDigit with
    | ([], _) => none
    | (ds, rest) => some (ds, rest)

/-- Takes off a minus sign, if there is one. -/
def readSign : List Char → Bool × List Char
  | '-' :: rest => (true, rest)
  | cs => (false, cs)

/-- Reads an exponent, if there is one. -/
def readPower? : List Char → Option (Option (Bool × List Char) × List Char)
  | 'e' :: rest | 'E' :: rest => (readExponent? rest).map fun (e, rest) => (some e, rest)
  | cs => some (none, cs)

/-- Reads a number. -/
def readNumber? (cs : List Char) : Option (Number × List Char) := do
  let (negative, cs) := readSign cs
  let (whole, cs) ← readWhole? cs
  let (fraction, cs) ← readFraction? cs
  let (exponent, cs) ← readPower? cs
  let n ← Number.ofLiteral? ⟨negative, whole, fraction, exponent⟩
  return (n, cs)

/-! ## Values -/

mutual

/-- Reads one value that may hold `depth` levels of arrays and objects. -/
def readValue? : (fuel depth : Nat) → List Char → Option (Json × List Char)
  | 0, _, _ => none
  | fuel + 1, depth, cs =>
    match skipGaps cs with
    | 'n' :: 'u' :: 'l' :: 'l' :: rest => some (.null, rest)
    | 't' :: 'r' :: 'u' :: 'e' :: rest => some (.bool true, rest)
    | 'f' :: 'a' :: 'l' :: 's' :: 'e' :: rest => some (.bool false, rest)
    | '"' :: rest => (readString? "" rest).map fun (s, rest) => (.str s, rest)
    | '[' :: rest =>
      match depth with
      | 0 => none
      | depth + 1 =>
        match skipGaps rest with
        | ']' :: rest => some (.arr [], rest)
        | rest => readItems? fuel depth [] rest
    | '\x7b' :: rest =>
      match depth with
      | 0 => none
      | depth + 1 =>
        match skipGaps rest with
        | '\x7d' :: rest => some (.obj [], rest)
        | rest => readFields? fuel depth [] rest
    | cs => (readNumber? cs).map fun (n, rest) => (.num n, rest)

/-- Reads the items of an array up to its end; those read before come last first. -/
def readItems? : (fuel depth : Nat) → List Json → List Char → Option (Json × List Char)
  | 0, _, _, _ => none
  | fuel + 1, depth, acc, cs =>
    match readValue? fuel depth cs with
    | none => none
    | some (v, rest) =>
      match skipGaps rest with
      | ',' :: rest => readItems? fuel depth (v :: acc) rest
      | ']' :: rest => some (.arr (v :: acc).reverse, rest)
      | _ => none

/-- Reads the fields of an object up to its end. -/
def readFields? : (fuel depth : Nat) → List (String × Json) → List Char → Option (Json × List Char)
  | 0, _, _, _ => none
  | fuel + 1, depth, acc, cs =>
    match skipGaps cs with
    | '"' :: rest =>
      match readString? "" rest with
      | none => none
      | some (key, rest) =>
        match skipGaps rest with
        | ':' :: rest =>
          match readValue? fuel depth rest with
          | none => none
          | some (v, rest) =>
            match skipGaps rest with
            | ',' :: rest => readFields? fuel depth (TextMap.insert key v acc) rest
            | '\x7d' :: rest => some (.obj (TextMap.insert key v acc), rest)
            | _ => none
        | _ => none
    | _ => none

end

/-- How many levels of arrays and objects a text may nest. -/
def maxDepth : Nat := 127

/-- Reads a text that holds one value of at most `depth` levels and nothing else. -/
def parseChars? (depth : Nat) (cs : List Char) : Option Json :=
  match readValue? (cs.length + 1) depth cs with
  | some (v, rest) => if skipGaps rest = [] then some v else none
  | none => none

/-- Reads a JSON text. -/
def parse? (s : String) : Option Json :=
  parseChars? maxDepth s.toList

/-- Reads a JSON text from its UTF-8 bytes. -/
def parseBytes? (bytes : ByteArray) : Option Json :=
  (String.fromUTF8? bytes).bind parse?

end WorkerBridge.Json
