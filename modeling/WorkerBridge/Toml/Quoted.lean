/-
  WorkerBridge.Toml.Quoted

  The four kinds of strings of TOML: with escapes or without, on one line or on
  several.
-/
import WorkerBridge.Json.Parser

namespace WorkerBridge.Toml

/-- Characters that stand for themselves in strings and comments. -/
def isPlain (c : Char) : Bool :=
  c == '\t' || (c.toNat ≥ 0x20 && c.toNat ≠ 0x7F)

/-- Takes a line end off the front. -/
def newline? : List Char → Option (List Char)
  | '\n' :: rest => some rest
  | '\r' :: '\n' :: rest => some rest
  | _ => none

/-- The text without a line end at its front. -/
def dropNewline (cs : List Char) : List Char :=
  (newline? cs).getD cs

/-- The character with the number that the hexadecimal digits denote. -/
def codePoint? (ds : List Char) : Option Char := do
  let values ← ds.mapM Json.hexValue?
  let n := values.foldl (fun n d => n * 16 + d) 0
  if n < 0xD800 ∨ (0xE000 ≤ n ∧ n < 0x110000) then some (Char.ofNat n) else none

/-- Reads an escape after its backslash. -/
def escape? : List Char → Option (Char × List Char)
  | 'b' :: rest => some ('\x08', rest)
  | 't' :: rest => some ('\t', rest)
  | 'n' :: rest => some ('\n', rest)
  | 'f' :: rest => some ('\x0c', rest)
  | 'r' :: rest => some ('\r', rest)
  | 'e' :: rest => some ('\x1b', rest)
  | '"' :: rest => some ('"', rest)
  | '\\' :: rest => some ('\\', rest)
  | 'x' :: rest => coded 2 rest
  | 'u' :: rest => coded 4 rest
  | 'U' :: rest => coded 8 rest
  | _ => none
where
  /-- An escape by number, of so many digits. -/
  coded (count : Nat) (rest : List Char) : Option (Char × List Char) :=
    if (rest.take count).length = count then
      (codePoint? (rest.take count)).map (·, rest.drop count)
    else none

/-! ## On one line -/

/-- Reads the rest of a string with escapes. -/
def basic? : (fuel : Nat) → (acc : String) → List Char → Option (String × List Char)
  | 0, _, _ => none
  | _ + 1, _, [] => none
  | _ + 1, acc, '"' :: rest => some (acc, rest)
  | fuel + 1, acc, '\\' :: rest =>
    match escape? rest with
    | some (c, rest) => basic? fuel (acc.push c) rest
    | none => none
  | fuel + 1, acc, c :: rest => if isPlain c then basic? fuel (acc.push c) rest else none

/-- Reads the rest of a string without escapes. -/
def literal? (acc : String) : List Char → Option (String × List Char)
  | [] => none
  | '\'' :: rest => some (acc, rest)
  | c :: rest => if isPlain c then literal? (acc.push c) rest else none

/-! ## On several lines -/

/-- The marks at the front of a string on several lines: how many belong to the text, whether the
string ends with them, and what follows. Up to two marks may stand right before the closing three. -/
def closingMarks (mark : Char) (cs : List Char) : Nat × Bool × List Char :=
  let count := (cs.takeWhile (· == mark)).length
  if count < 3 then (count, false, cs.drop count)
  else
    let used := min count 5
    (used - 3, true, cs.drop used)

/-- What follows a backslash at the end of a line: blanks and line ends do not count. `none` when
the line goes on. -/
def foldedLine? (cs : List Char) : Option (List Char) :=
  match newline? (cs.dropWhile fun c => c == ' ' || c == '\t') with
  | some rest =>
    some (rest.dropWhile fun c => c == ' ' || c == '\t' || c == '\n' || c == '\r')
  | none => none

/-- Reads the rest of a string on several lines. -/
def multiline? (mark : Char) (hasEscapes : Bool) :
    (fuel : Nat) → (acc : String) → List Char → Option (String × List Char)
  | 0, _, _ => none
  | _ + 1, _, [] => none
  | fuel + 1, acc, c :: rest =>
    if c == mark then
      match closingMarks mark (c :: rest) with
      | (count, true, rest) => some (acc ++ String.ofList (List.replicate count mark), rest)
      | (count, false, rest) =>
        multiline? mark hasEscapes fuel (acc ++ String.ofList (List.replicate count mark)) rest
    else if c == '\\' && hasEscapes then
      match foldedLine? rest with
      | some rest => multiline? mark hasEscapes fuel acc rest
      | none =>
        match escape? rest with
        | some (e, rest) => multiline? mark hasEscapes fuel (acc.push e) rest
        | none => none
    else if isPlain c || c == '\n' then multiline? mark hasEscapes fuel (acc.push c) rest
    else
      match newline? (c :: rest) with
      | some rest => multiline? mark hasEscapes fuel (acc ++ "\r\n") rest
      | none => none

/-! ## Any string -/

/-- Reads a string on one line, if one stands at the front. -/
def shortString? : List Char → Option (String × List Char)
  | '"' :: rest => basic? (rest.length + 1) "" rest
  | '\'' :: rest => literal? "" rest
  | _ => none

/-- Reads a string, if one stands at the front. -/
def string? : List Char → Option (String × List Char)
  | '"' :: '"' :: '"' :: rest => multiline? '"' true (rest.length + 1) "" (dropNewline rest)
  | '\'' :: '\'' :: '\'' :: rest => multiline? '\'' false (rest.length + 1) "" (dropNewline rest)
  | cs => shortString? cs

end WorkerBridge.Toml
