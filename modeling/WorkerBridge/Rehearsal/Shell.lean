/-
  WorkerBridge.Rehearsal.Shell

  Programs in a small language of commands, enough for stand-ins of workers: texts
  in variables, printing, sleeping, copying the input, and exiting.
-/
import WorkerBridge.Rehearsal.Script

namespace WorkerBridge

namespace Shell

/-! ## Words -/

/-- The value of a variable, empty if it was not set. -/
def lookup (vars : TextMap String) (name : String) : String :=
  (TextMap.find? name vars).getD ""

/-- Characters of variable names. -/
def isNameChar (c : Char) : Bool :=
  c.isAlphanum || c == '_'

/-- Reads a reference to a variable after its mark: to its value, or to the length of it. -/
def reference? (vars : TextMap String) : List Char → Option (String × List Char)
  | '\x7b' :: '#' :: rest =>
    match rest.span isNameChar with
    | (name, '\x7d' :: rest) =>
      some (Decimal.text (lookup vars (String.ofList name)).length, rest)
    | _ => none
  | '\x7b' :: rest =>
    match rest.span isNameChar with
    | (name, '\x7d' :: rest) => some (lookup vars (String.ofList name), rest)
    | _ => none
  | rest =>
    match rest.span isNameChar with
    | ([], _) => none
    | (name, rest) => some (lookup vars (String.ofList name), rest)

/-- How the characters of a word stand. -/
inductive Quoting where
  | plain
  | single
  | double
deriving DecidableEq, Repr

/-- A command as it is read: its finished words, last first, and the word under way. -/
structure Reading where
  words : List String := []
  word : Option String := none

namespace Reading

/-- One more text for the word under way. -/
def add (r : Reading) (s : String) : Reading :=
  { r with word := some (r.word.getD "" ++ s) }

/-- Ends the word under way. -/
def endWord (r : Reading) : Reading :=
  { words := r.word.toList ++ r.words }

/-- The words, in order. -/
def all (r : Reading) : List String :=
  r.endWord.words.reverse

end Reading

/-- Reads the words of one command, up to a semicolon, a line end or the end of the text. -/
def command (vars : TextMap String) : (fuel : Nat) → Quoting → Reading → List Char →
    List String × List Char
  | 0, _, r, _ => (r.all, [])
  | _ + 1, _, r, [] => (r.all, [])
  | fuel + 1, .single, r, c :: rest =>
    if c = '\'' then command vars fuel .plain r rest
    else command vars fuel .single (r.add (String.ofList [c])) rest
  | fuel + 1, .double, r, c :: rest =>
    if c = '"' then command vars fuel .plain r rest
    else if c = '$' then
      match reference? vars rest with
      | some (s, rest) => command vars fuel .double (r.add s) rest
      | none => command vars fuel .double (r.add "$") rest
    else if c = '\\' then
      match rest with
      | e :: rest =>
        let s := if e = '"' ∨ e = '\\' ∨ e = '$' then [e] else ['\\', e]
        command vars fuel .double (r.add (String.ofList s)) rest
      | [] => (r.all, [])
    else command vars fuel .double (r.add (String.ofList [c])) rest
  | fuel + 1, .plain, r, c :: rest =>
    if c = ';' ∨ c = '\n' then (r.all, rest)
    else if c = ' ' ∨ c = '\t' then command vars fuel .plain r.endWord rest
    else if c = '\'' then command vars fuel .single (r.add "") rest
    else if c = '"' then command vars fuel .double (r.add "") rest
    else if c = '$' then
      match reference? vars rest with
      | some (s, rest) => command vars fuel .plain (r.add s) rest
      | none => command vars fuel .plain (r.add "$") rest
    else if c = '>' then command vars fuel .plain (r.endWord.add ">").endWord rest
    else if c = '\\' then
      match rest with
      | e :: rest => command vars fuel .plain (r.add (String.ofList [e])) rest
      | [] => (r.all, [])
    else command vars fuel .plain (r.add (String.ofList [c])) rest

/-! ## Printing -/

/-- The text that a pattern and its arguments give. -/
def format : List Char → List String → List Char
  | [], _ => []
  | '\\' :: 'r' :: rest, args => '\r' :: format rest args
  | '\\' :: 'n' :: rest, args => '\n' :: format rest args
  | '\\' :: 't' :: rest, args => '\t' :: format rest args
  | '\\' :: '\\' :: rest, args => '\\' :: format rest args
  | '%' :: '%' :: rest, args => '%' :: format rest args
  | '%' :: 'd' :: rest, arg :: args => arg.toList ++ format rest args
  | '%' :: 's' :: rest, arg :: args => arg.toList ++ format rest args
  | '%' :: 'd' :: rest, [] => '0' :: format rest []
  | '%' :: 's' :: rest, [] => format rest []
  | c :: rest, args => c :: format rest args

/-! ## Running -/

/-- What a program does: its acts, whether it reads its input to the end then and copies it to its
output, and the status with which it exits. -/
structure Run where
  acts : List Act := []
  reads : Bool := false
  copies : Bool := false
  status : Nat := 0

/-- Reads a number. -/
def number (s : String) : Nat :=
  (Decimal.read? s.toList).getD 0

/-- The name and value of an assignment. -/
def assignment? (word : String) : Option (String × String) :=
  match word.toList.span isNameChar with
  | (c :: name, '=' :: value) => some (String.ofList (c :: name), String.ofList value)
  | _ => none

/-- Writes a text, unless the output is thrown away. -/
def Run.write (r : Run) (isShown : Bool) (s : List Char) : Run :=
  if isShown then { r with acts := r.acts ++ [.write (String.ofList s).toUTF8.toList], status := 0 }
  else { r with status := 0 }

/-- What a command does to a run, and whether the program goes on after it. -/
def perform (r : Run) (isShown : Bool) : List String → Run × Bool
  | "printf" :: pattern :: args => (r.write isShown (format pattern.toList args), true)
  | "echo" :: args => (r.write isShown (Text.join " " args ++ "\n").toList, true)
  | "sleep" :: s :: _ => ({ r with acts := r.acts ++ [.sleep (number s * 1000)], status := 0 }, true)
  | "cat" :: _ => ({ r with reads := true, copies := isShown, status := 0 }, false)
  | "exit" :: s :: _ => ({ r with status := number s }, false)
  | ["exit"] => (r, false)
  | "false" :: _ => ({ r with status := 1 }, true)
  | "true" :: _ | ":" :: _ | [] => ({ r with status := 0 }, true)
  | _ => ({ r with status := 127 }, true)

/-- Runs the commands of a program one after the other. -/
def run : (fuel : Nat) → TextMap String → Run → List Char → Run
  | 0, _, r, _ => r
  | fuel + 1, vars, r, cs =>
    if cs.isEmpty then r
    else
      let (words, rest) := command vars (cs.length + 1) .plain {} cs
      let isShown := !words.contains ">"
      let words := words.takeWhile (· ≠ ">")
      match words with
      | [] => run fuel vars r rest
      | "exec" :: words => (perform r isShown words).1
      | word :: more =>
        match assignment? word, more with
        | some (name, value), [] => run fuel (TextMap.insert name value vars) r rest
        | _, _ =>
          match perform r isShown (word :: more) with
          | (r, true) => run fuel vars r rest
          | (r, false) => r

/-- Runs a program. -/
def runText (s : String) : Run :=
  run (s.length + 1) [] {} s.toList

end Shell

end WorkerBridge
