/-
  WorkerBridge.Json.Printer

  The compact and the indented text of a JSON value. Only the quotation mark,
  the backslash and control characters below a blank are escaped.
-/
import WorkerBridge.Json.Basic

namespace WorkerBridge.Json

/-! ## Strings -/

/-- A hexadecimal digit, lower case. -/
def hexDigit (n : Nat) : Char :=
  if n < 10 then Char.ofNat ('0'.toNat + n) else Char.ofNat ('a'.toNat + (n - 10))

/-- How a character stands inside a quoted string. -/
def escape (c : Char) : List Char :=
  if c = '"' then ['\\', '"']
  else if c = '\\' then ['\\', '\\']
  else if c = '\x08' then ['\\', 'b']
  else if c = '\x0c' then ['\\', 'f']
  else if c = '\n' then ['\\', 'n']
  else if c = '\r' then ['\\', 'r']
  else if c = '\t' then ['\\', 't']
  else if c.toNat < 0x20 then
    ['\\', 'u', '0', '0', hexDigit (c.toNat / 16), hexDigit (c.toNat % 16)]
  else [c]

/-- Appends the written form of one character. -/
def writeChar (out : String) (c : Char) : String :=
  (escape c).foldl String.push out

/-- Appends the quoted string. -/
def writeString (out : String) (s : String) : String :=
  (s.foldl writeChar (out.push '"')).push '"'

/-! ## Compact text -/

mutual

/-- Appends the compact text of a value. -/
def write (out : String) : Json → String
  | .null => out ++ "null"
  | .bool true => out ++ "true"
  | .bool false => out ++ "false"
  | .num n => out ++ n.text
  | .str s => writeString out s
  | .arr [] => out ++ "[]"
  | .arr (v :: rest) => (writeItems (write (out.push '[') v) rest).push ']'
  | .obj [] => out ++ "\x7b\x7d"
  | .obj ((k, v) :: rest) =>
    (writeFields (write ((writeString (out.push '\x7b') k).push ':') v) rest).push '\x7d'

/-- Appends the remaining items of an array, each after a comma. -/
def writeItems (out : String) : List Json → String
  | [] => out
  | v :: rest => writeItems (write (out.push ',') v) rest

/-- Appends the remaining fields of an object, each after a comma. -/
def writeFields (out : String) : List (String × Json) → String
  | [] => out
  | (k, v) :: rest => writeFields (write ((writeString (out.push ',') k).push ':') v) rest

end

/-- The compact text of a value. -/
def compact (v : Json) : String :=
  write "" v

/-! ## Indented text -/

/-- Appends a line feed and the indentation of the given depth, two blanks for each level. -/
def newLine (out : String) (depth : Nat) : String :=
  (List.replicate (2 * depth) ' ').foldl String.push (out.push '\n')

mutual

/-- Appends the indented text of a value that stands at the given depth. -/
def writeIndented (out : String) (depth : Nat) : Json → String
  | .null => out ++ "null"
  | .bool true => out ++ "true"
  | .bool false => out ++ "false"
  | .num n => out ++ n.text
  | .str s => writeString out s
  | .arr [] => out ++ "[]"
  | .arr (v :: rest) =>
    let first := writeIndented (newLine (out.push '[') (depth + 1)) (depth + 1) v
    (newLine (writeIndentedItems first depth rest) depth).push ']'
  | .obj [] => out ++ "\x7b\x7d"
  | .obj ((k, v) :: rest) =>
    let key := writeString (newLine (out.push '\x7b') (depth + 1)) k ++ ": "
    let first := writeIndented key (depth + 1) v
    (newLine (writeIndentedFields first depth rest) depth).push '\x7d'

/-- Appends the remaining items of an array that stands at the given depth. -/
def writeIndentedItems (out : String) (depth : Nat) : List Json → String
  | [] => out
  | v :: rest =>
    let next := writeIndented (newLine (out.push ',') (depth + 1)) (depth + 1) v
    writeIndentedItems next depth rest

/-- Appends the remaining fields of an object that stands at the given depth. -/
def writeIndentedFields (out : String) (depth : Nat) : List (String × Json) → String
  | [] => out
  | (k, v) :: rest =>
    let key := writeString (newLine (out.push ',') (depth + 1)) k ++ ": "
    writeIndentedFields (writeIndented key (depth + 1) v) depth rest

end

/-- The text of a value on indented lines. -/
def indented (v : Json) : String :=
  writeIndented "" 0 v

end WorkerBridge.Json
