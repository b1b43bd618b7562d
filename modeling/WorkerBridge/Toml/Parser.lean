/-
  WorkerBridge.Toml.Parser

  Reading of TOML documents. A document comes to the JSON object of its top table.
-/
import WorkerBridge.Toml.Scalar
import WorkerBridge.Toml.Quoted
import WorkerBridge.Toml.Table

namespace WorkerBridge.Toml

/-! ## Blanks and comments -/

/-- The text from its first character that is no blank. -/
def skipBlanks (cs : List Char) : List Char :=
  cs.dropWhile fun c => c == ' ' || c == '\t'

/-- Takes a comment off the front, if there is one, up to the end of its line. -/
def skipComment? : List Char → Option (List Char)
  | '#' :: rest =>
    let after := rest.dropWhile isPlain
    if after.isEmpty || (newline? after).isSome then some after else none
  | cs => some cs

/-- Takes the rest of a line off the front, which may hold blanks and a comment. -/
def endLine? (cs : List Char) : Option (List Char) := do
  let cs ← skipComment? (skipBlanks cs)
  if cs.isEmpty then some cs else newline? cs

/-- Takes blanks, comments and line ends off the front. -/
def skipGap? : (fuel : Nat) → List Char → Option (List Char)
  | 0, _ => none
  | fuel + 1, cs =>
    match skipComment? (skipBlanks cs) with
    | none => none
    | some cs =>
      match newline? cs with
      | some rest => skipGap? fuel rest
      | none => some cs

/-! ## Keys -/

/-- Characters of keys without quotes. -/
def isKeyChar (c : Char) : Bool :=
  c.isAlphanum || c == '_' || c == '-'

/-- Reads one part of a key. -/
def keyPart? (cs : List Char) : Option (String × List Char) :=
  match cs.span isKeyChar with
  | ([], cs) => shortString? cs
  | (run, rest) => some (String.ofList run, rest)

/-- Reads a key: its parts before the last, and the last. -/
def key? : (fuel : Nat) → (before : List String) → List Char →
    Option ((List String × String) × List Char)
  | 0, _, _ => none
  | fuel + 1, before, cs =>
    match keyPart? (skipBlanks cs) with
    | none => none
    | some (part, rest) =>
      match skipBlanks rest with
      | '.' :: rest => key? fuel (part :: before) rest
      | rest => some ((before.reverse, part), rest)

/-! ## Values -/

mutual

/-- Reads a value that may hold `depth` levels of arrays and tables. -/
def value? : (fuel depth : Nat) → List Char → Option (Json × List Char)
  | 0, _, _ => none
  | fuel + 1, depth, cs =>
    match cs with
    | '"' :: _ | '\'' :: _ => (string? cs).map fun (s, rest) => (.str s, rest)
    | '[' :: rest =>
      match depth with
      | 0 => none
      | depth + 1 => items? fuel depth [] rest
    | '\x7b' :: rest =>
      match depth with
      | 0 => none
      | depth + 1 => inline? fuel depth [] rest
    | cs =>
      let (run, rest) := spanScalar cs
      (scalar? run).map (·, rest)

/-- Reads the items of an array up to its end; those read before come last first. -/
def items? : (fuel depth : Nat) → List Json → List Char → Option (Json × List Char)
  | 0, _, _, _ => none
  | fuel + 1, depth, acc, cs =>
    match skipGap? (cs.length + 1) cs with
    | none => none
    | some (']' :: rest) => some (.arr acc.reverse, rest)
    | some cs =>
      match value? fuel depth cs with
      | none => none
      | some (v, rest) =>
        match skipGap? (rest.length + 1) rest with
        | some (',' :: rest) => items? fuel depth (v :: acc) rest
        | some (']' :: rest) => some (.arr (v :: acc).reverse, rest)
        | _ => none

/-- Reads the fields of a table that is written as a value, up to its end. -/
def inline? : (fuel depth : Nat) → Entries → List Char → Option (Json × List Char)
  | 0, _, _, _ => none
  | fuel + 1, depth, acc, cs =>
    match skipGap? (cs.length + 1) cs with
    | none => none
    | some ('\x7d' :: rest) => some (.obj (entriesToJson acc), rest)
    | some cs =>
      match key? (cs.length + 1) [] cs with
      | some ((path, key), '=' :: rest) =>
        match value? fuel depth (skipBlanks rest) with
        | none => none
        | some (v, rest) =>
          match Entries.assign path key v Entries.opened acc with
          | none => none
          | some (_, acc) =>
            match skipGap? (rest.length + 1) rest with
            | some (',' :: rest) => inline? fuel depth acc rest
            | some ('\x7d' :: rest) => some (.obj (entriesToJson acc), rest)
            | _ => none
      | _ => none

end

/-- How many levels of arrays and tables a value may nest. -/
def maxDepth : Nat := 80

/-! ## Documents -/

/-- A document so far: its top table, and the path of the table that keys belong to. -/
structure Document where
  top : Entries := []
  path : List String := []

namespace Document

/-- Changes a table of the document by its path. -/
def changeAt (d : Document) (path : List String)
    (change : Origin → Entries → Option (Origin × Entries)) : Option Document :=
  (Entries.descend false change path Entries.opened d.top).map fun (_, top) => { d with top }

/-- Gives a key of the current table its value. -/
def assign (d : Document) (path : List String) (key : String) (v : Json) : Option Document :=
  d.changeAt d.path (Entries.assign path key v)

/-- Opens a table, to which the following keys belong. -/
def openTable (d : Document) (path : List String) (key : String) : Option Document :=
  (d.changeAt path (Entries.openTable key)).map fun d => { d with path := path ++ [key] }

/-- Opens the next table of an array, to which the following keys belong. -/
def openItem (d : Document) (path : List String) (key : String) : Option Document :=
  (d.changeAt path (Entries.openItem key)).map fun d => { d with path := path ++ [key] }

/-- Reads a statement: a header, or a key and its value. -/
def statement? (d : Document) (cs : List Char) : Option (Document × List Char) :=
  match cs with
  | '[' :: '[' :: cs =>
    match key? (cs.length + 1) [] cs with
    | some ((path, key), ']' :: ']' :: rest) => (d.openItem path key).map (·, rest)
    | _ => none
  | '[' :: cs =>
    match key? (cs.length + 1) [] cs with
    | some ((path, key), ']' :: rest) => (d.openTable path key).map (·, rest)
    | _ => none
  | cs =>
    match key? (cs.length + 1) [] cs with
    | some ((path, key), '=' :: rest) =>
      match value? (rest.length + 1) maxDepth (skipBlanks rest) with
      | some (v, rest) => (d.assign path key v).map (·, rest)
      | none => none
    | _ => none

/-- Reads statements to the end of the text, each on a line of its own. -/
def lines? : (fuel : Nat) → Document → List Char → Option Document
  | 0, _, _ => none
  | fuel + 1, d, cs =>
    match skipGap? (cs.length + 1) cs with
    | none => none
    | some [] => some d
    | some cs =>
      match statement? d cs with
      | none => none
      | some (d, rest) =>
        match endLine? rest with
        | none => none
        | some rest => lines? fuel d rest

end Document

/-- The mark of byte order, which may stand in front of a document. -/
def byteOrderMark : Char := '\ufeff'

/-- Reads a document. -/
def parse? (s : String) : Option Json :=
  let cs :=
    match s.toList with
    | c :: rest => if c = byteOrderMark then rest else c :: rest
    | [] => []
  (Document.lines? (cs.length + 1) {} cs).map fun d => .obj (entriesToJson d.top)

end WorkerBridge.Toml
