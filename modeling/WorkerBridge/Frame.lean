/-
  WorkerBridge.Frame

  Framing of messages on the worker channel. A frame is a block of header lines
  that names the length of the body, a blank line, and exactly that many bytes.

  Reading goes byte by byte: the state after a stream depends on the bytes alone
  and not on how they arrived, because feeding a concatenation is feeding its
  parts in turn.
-/
import WorkerBridge.Text.Blank
import WorkerBridge.Text.Quoted
import WorkerBridge.Decimal.Natural
import WorkerBridge.Json.Basic

namespace WorkerBridge

/-! ## Limits and errors -/

namespace Frame

/-- The longest body, in bytes. -/
def maxBody : Nat := 16 * 1024 * 1024

/-- The longest header line, in bytes, its line feed included. -/
def maxHeaderLine : Nat := 8 * 1024

/-- The name of the header that gives the length of the body. -/
def lengthHeader : String := "Content-Length"

end Frame

/-- What the channel was used for when the bytes below it failed. -/
inductive ChannelUse where
  | readingHeader
  | readingBody
  | writingHeader
  | writingBody
deriving DecidableEq, Repr

/-- The channel use in words. -/
def ChannelUse.label : ChannelUse → String
  | .readingHeader => "reading frame header"
  | .readingBody => "reading frame body"
  | .writingHeader => "writing frame header"
  | .writingBody => "writing frame body"

/-- Why no further frame can be read or written. -/
inductive FrameError where
  | channel (use : ChannelUse)
  | truncatedHeader
  | missingLength
  | invalidLength (value : String)
  | headerTooLong
  | oversized (size : Nat)
deriving DecidableEq, Repr

/-- The error in words. -/
def FrameError.message : FrameError → String
  | .channel use => "I/O error while " ++ use.label
  | .truncatedHeader => "unexpected end of stream inside frame headers"
  | .missingLength => "frame headers are missing Content-Length"
  | .invalidLength value => "invalid Content-Length value " ++ Text.quoted value
  | .headerTooLong => "frame header line exceeds " ++ Decimal.text Frame.maxHeaderLine ++ " bytes"
  | .oversized size =>
    "frame of " ++ Decimal.text size ++ " bytes exceeds the " ++ Decimal.text Frame.maxBody ++
      " byte limit"

namespace Frame

/-! ## Writing -/

/-- The header block in front of a body of `size` bytes. -/
def header (size : Nat) : String :=
  lengthHeader ++ ": " ++ Decimal.text size ++ "\r\n\r\n"

/-- The bytes of a frame, whatever the size of its body. -/
def bytes (body : ByteArray) : ByteArray :=
  (header body.size).toUTF8 ++ body

/-- The bytes of a frame. A body beyond the limit is refused. -/
def encode (body : ByteArray) : Except FrameError ByteArray :=
  if body.size > maxBody then .error (.oversized body.size) else .ok (bytes body)

/-! ## Header lines -/

/-- The texts before and after the first colon. -/
def splitColon (cs : List Char) : Option (List Char × List Char) :=
  match cs.span (· ≠ ':') with
  | (name, _ :: value) => some (name, value)
  | (_, []) => none

/-- What one header line says about the length of the body. -/
inductive HeaderLine where
  | blank
  | length (n : Nat)
  | badLength (value : String)
  | other
deriving DecidableEq, Repr

/-- Reads a header line. Names are compared without regard to ASCII case, and blanks around the
line, the name and the value do not count. -/
def headerLine (text : String) : HeaderLine :=
  match Text.trimChars text.toList with
  | [] => .blank
  | line =>
    match splitColon line with
    | none => .other
    | some (name, value) =>
      if Text.sameIgnoringCase (Text.trimChars name) lengthHeader.toList then
        let value := Text.trimChars value
        match Decimal.readUpTo? Json.maxUnsigned value with
        | some n => .length n
        | none => .badLength (String.ofList value)
      else .other

/-! ## Reading -/

/-- Where a reader stands. Bytes of an unfinished line or body are kept last first. -/
inductive Phase where
  | header (size : Nat) (line : List UInt8) (length : Option Nat) (begun : Bool)
  | body (missing : Nat) (taken : List UInt8)
  | failed (e : FrameError)
deriving DecidableEq, Repr

/-- The phase between two frames. -/
def Phase.between : Phase := .header 0 [] none false

/-- The phase after a blank header line, and the frame if its body is empty. -/
def endHeader : Option Nat → Phase × Option (List UInt8)
  | none => (.failed .missingLength, none)
  | some 0 => (.between, some [])
  | some (n + 1) => if n + 1 > maxBody then (.failed (.oversized (n + 1)), none)
    else (.body (n + 1) [], none)

/-- The phase after a header line. A line that is no text counts as a failure of the channel. -/
def endLine (size : Nat) (line : List UInt8) (length : Option Nat) : Phase × Option (List UInt8) :=
  match String.fromUTF8? line.reverse.toByteArray with
  | none => (.failed (.channel .readingHeader), none)
  | some text =>
    if size > maxHeaderLine then (.failed .headerTooLong, none)
    else
      match headerLine text with
      | .blank => endHeader length
      | .length n => (.header 0 [] (some n) true, none)
      | .badLength value => (.failed (.invalidLength value), none)
      | .other => (.header 0 [] length true, none)

/-- One more byte: the next phase, and the body of a frame that it completes. -/
def step : Phase → UInt8 → Phase × Option (List UInt8)
  | .header size line length begun, b =>
    if b = 10 ∨ size + 1 > maxHeaderLine then endLine (size + 1) (b :: line) length
    else (.header (size + 1) (b :: line) length begun, none)
  | .body missing taken, b =>
    if missing ≤ 1 then (.between, some (b :: taken).reverse)
    else (.body (missing - 1) (b :: taken), none)
  | .failed e, _ => (.failed e, none)

/-- A reader and the bodies it has completed, last first. -/
structure Reader where
  phase : Phase := .between
  bodies : List (List UInt8) := []
deriving Repr

namespace Reader

/-- Feeds one byte. -/
def push (r : Reader) (b : UInt8) : Reader :=
  match step r.phase b with
  | (phase, none) => { r with phase }
  | (phase, some body) => { phase, bodies := body :: r.bodies }

/-- Feeds bytes in order. -/
def feed (r : Reader) (bytes : List UInt8) : Reader :=
  bytes.foldl push r

end Reader

/-- How a stream of frames ends: between two frames, or with an error. -/
inductive Ending where
  | clean
  | failed (e : FrameError)
deriving DecidableEq, Repr

/-- The end of the stream. An unfinished line counts as a line, and may still complete a frame
with an empty body. -/
def Phase.finish : Phase → Ending × Option (List UInt8)
  | .header 0 _ _ begun => if begun then (.failed .truncatedHeader, none) else (.clean, none)
  | .header size line length _ =>
    match endLine size line length with
    | (.failed e, _) => (.failed e, none)
    | (.body _ _, _) => (.failed (.channel .readingBody), none)
    | (.header _ _ _ _, some final) => (.clean, some final)
    | (.header _ _ _ _, none) => (.failed .truncatedHeader, none)
  | .body .. => (.failed (.channel .readingBody), none)
  | .failed e => (.failed e, none)

/-- Reads a whole stream: the bodies of its frames in order, and how it ends. -/
def readAll (bytes : List UInt8) : List (List UInt8) × Ending :=
  let r := ({} : Reader).feed bytes
  let (ending, last) := r.phase.finish
  ((last.toList ++ r.bodies).reverse, ending)

end Frame

end WorkerBridge
