/-
  WorkerBridge.Site

  Files by their paths: how a path is resolved, what stands at its end, and the URI
  of a file.
-/
import WorkerBridge.Settings.File
import WorkerBridge.Json.Printer
import WorkerBridge.Text.Blank

namespace WorkerBridge

/-- A directory with files in it, and nothing else in the world. Each file has its path from the
root of the file system. -/
structure Site where
  /-- The working directory. -/
  home : List String := []
  files : List (List String × ByteArray) := []
  /-- The program that runs a scripted worker. -/
  worker : Option String := none

namespace Site

/-! ## Paths -/

/-- The parts of a path between its slashes. -/
def parts (path : String) : List String :=
  (path.splitOn "/").filter (· ≠ "")

/-- A site with files named from its working directory. -/
def ofFiles (home : String) (files : List (String × ByteArray)) : Site :=
  let home := parts home
  { home, files := files.map fun (name, bs) => (home ++ parts name, bs) }

/-- Whether the path is a directory: the working directory, one above it, or one above a file. -/
def isDirectory (s : Site) (path : List String) : Bool :=
  path.isPrefixOf s.home || s.files.any fun (file, _) => path.isPrefixOf file && path ≠ file

/-- The bytes of the file at a path. -/
def bytes? (s : Site) (path : List String) : Option ByteArray :=
  (s.files.find? (·.1 = path)).map (·.2)

/-- Whether anything stands at a path. -/
def contains (s : Site) (path : List String) : Bool :=
  s.isDirectory path || (s.bytes? path).isSome

/-- Goes along the parts of a path. Whatever is gone through must be a directory. -/
def walk (s : Site) : List String → List String → Option (List String)
  | path, [] => if s.contains path then some path else none
  | path, part :: rest =>
    if !s.isDirectory path then none
    else if part = "." then walk s path rest
    else if part = ".." then walk s path.dropLast rest
    else walk s (path ++ [part]) rest

/-- The path from the root that a path leads to, if something stands there. A path that ends in a
slash leads to a directory. -/
def resolve? (s : Site) (path : String) : Option (List String) :=
  if path = "" then none
  else
    (s.walk (if path.startsWith "/" then [] else s.home) (parts path)).filter fun p =>
      !path.endsWith "/" || s.isDirectory p

/-- What stands at a path. -/
def content (s : Site) (path : String) : FileContent :=
  match s.resolve? path with
  | none => .absent
  | some p =>
    match s.bytes? p with
    | some bs => .bytes bs
    | none => .directory

/-- Whether a file stands at a path. -/
def isFile (s : Site) (path : String) : Bool :=
  match s.content path with
  | .bytes _ => true
  | _ => false

/-! ## URIs -/

/-- Characters of a path that a URI spells out: control characters and blanks, characters that
delimit, and everything beyond ASCII. -/
def isSpelledOut (b : UInt8) : Bool :=
  b ≤ 0x20 || b ≥ 0x7F ||
    [0x22, 0x23, 0x25, 0x2F, 0x3C, 0x3E, 0x3F, 0x5C, 0x60, 0x7B, 0x7D].contains b

/-- A hexadecimal digit in upper case. -/
def upperHexDigit (n : Nat) : Char :=
  (Json.hexDigit n).toUpper

/-- A part of a path as it stands in a URI. -/
def uriPart (part : String) : String :=
  String.ofList (part.toUTF8.toList.flatMap fun b =>
    if isSpelledOut b then ['%', upperHexDigit (b.toNat / 16), upperHexDigit (b.toNat % 16)]
    else [Char.ofNat b.toNat])

/-- The URI of the file at a path from the root. -/
def uri (path : List String) : String :=
  "file:///" ++ Text.join "/" (path.map uriPart)

end Site

end WorkerBridge
