/-
  WorkerBridge.Link

  The channel between the bridge and one worker, as far as bytes are concerned.
  Messages wait in a bounded outbox, a writer moves them through a bounded pipe,
  and the worker takes them out of it with a buffered reader. What the worker
  writes comes back through a pipe of the same size.
-/
import WorkerBridge.Frame
import WorkerBridge.Json.Printer
import WorkerBridge.Startup

namespace WorkerBridge

/-! ## Sizes -/

namespace Link

/-- How many messages wait for the writer at most. -/
def outboxCapacity : Nat := 64

/-- How many bytes a pipe holds. -/
def pipeCapacity : Nat := 64 * 1024

/-- How many bytes the worker's reader takes at once into its buffer. -/
def bufferSize : Nat := 8 * 1024

end Link

/-! ## The way to the worker -/

/-- What waits in the outbox: a message, or the wish to close. -/
inductive Outgoing where
  | message (v : Json)
  | close

/-- A frame on its way: the bytes of its header and of its body that the worker has not used. -/
structure Transit where
  header : Nat
  body : Nat
  message : Json

/-- The pipe to the worker, by the numbers of bytes that were written into it, that the worker has
taken out of it, and that the worker has used. -/
structure Inlet where
  written : Nat := 0
  taken : Nat := 0
  used : Nat := 0
  transits : List Transit := []
  closed : Bool := false

/-- What the worker finds in its input. -/
inductive Intake where
  | message (v : Json)
  | waiting
  | finished

namespace Inlet

/-- How many bytes can be written now. -/
def room (i : Inlet) : Nat :=
  Link.pipeCapacity - (i.written - i.taken)

/-- What a reader without bytes finds: the end, or nothing yet. -/
def starved (i : Inlet) : Intake :=
  if i.closed then .finished else .waiting

/-- Fills the worker's empty buffer. -/
def fill (i : Inlet) : Inlet :=
  { i with taken := i.taken + min Link.bufferSize (i.written - i.taken) }

/-- Reads up to the end of the next frame. The buffer is used first; a body that is longer than the
buffer is then taken directly. -/
def read : (fuel : Nat) → Inlet → Intake × Inlet
  | 0, i => (i.starved, i)
  | fuel + 1, i =>
    match i.transits with
    | [] => (i.starved, i)
    | t :: rest =>
      if t.header = 0 ∧ t.body = 0 then (.message t.message, { i with transits := rest })
      else
        let buffered := i.taken - i.used
        let available := i.written - i.taken
        if buffered = 0 ∧ available = 0 then (i.starved, i)
        else if t.header > 0 then
          if buffered = 0 then read fuel i.fill
          else
            let n := min buffered t.header
            read fuel
              { i with used := i.used + n, transits := { t with header := t.header - n } :: rest }
        else if buffered > 0 then
          let n := min buffered t.body
          read fuel { i with used := i.used + n, transits := { t with body := t.body - n } :: rest }
        else if t.body ≥ Link.bufferSize then
          let n := min available t.body
          read fuel
            { i with
              taken := i.taken + n, used := i.used + n
              transits := { t with body := t.body - n } :: rest }
        else read fuel i.fill

end Inlet

/-- How far the writer has come. -/
inductive Writer where
  | idle
  | writing (header body : Nat)
  | ended
deriving DecidableEq, Repr

/-- The bridge's side of the way to the worker. -/
structure Sender where
  outbox : List Outgoing := []
  writer : Writer := .idle

namespace Sender

/-- Whether a message can be put into the outbox now. -/
def hasRoom (s : Sender) : Bool :=
  s.outbox.length < Link.outboxCapacity

/-- Puts a message behind the others. -/
def put (s : Sender) (m : Outgoing) : Sender :=
  { s with outbox := s.outbox ++ [m] }

end Sender

/-- Writes the next frame into an empty slot of the writer, or refuses it for its size. -/
def Inlet.begin (i : Inlet) (v : Json) : Except FrameError (Inlet × Writer) :=
  let size := v.compact.utf8ByteSize
  if size > Frame.maxBody then .error (.oversized size)
  else
    let header := (Frame.header size).utf8ByteSize
    .ok ({ i with transits := i.transits ++ [⟨header, size, v⟩] }, .writing header size)

/-- What a run of the writer comes to: it waits for messages or room, or it has ended, with an error
or because it was asked to. -/
inductive WriterResult where
  | waiting
  | closed
  | failed (e : FrameError)

/-- Runs the writer as far as the pipe has room. `broken` tells that the worker no longer reads. -/
def Sender.run (broken : Bool) : (fuel : Nat) → Sender → Inlet → WriterResult × Sender × Inlet
  | 0, s, i => (.waiting, s, i)
  | fuel + 1, s, i =>
    match s.writer with
    | .ended => (.waiting, s, i)
    | .writing 0 0 => Sender.run broken fuel { s with writer := .idle } i
    | .writing header body =>
      if broken then
        let use := if header > 0 then ChannelUse.writingHeader else ChannelUse.writingBody
        (.failed (.channel use), { s with writer := .ended }, i)
      else if i.room = 0 then (.waiting, s, i)
      else
        let n := min i.room (if header > 0 then header else body)
        let writer :=
          if header > 0 then Writer.writing (header - n) body else Writer.writing header (body - n)
        Sender.run broken fuel { s with writer } { i with written := i.written + n }
    | .idle =>
      match s.outbox with
      | [] => (.waiting, s, i)
      | .close :: rest =>
        (.closed, { outbox := rest, writer := .ended }, { i with closed := true })
      | .message v :: rest =>
        match i.begin v with
        | .error e => (.failed e, { outbox := rest, writer := .ended }, i)
        | .ok (i, writer) => Sender.run broken fuel { outbox := rest, writer } i

/-! ## The way back -/

/-- The bridge's reader: what it has made of the bytes, and whether it still reads. -/
structure Receiver where
  reader : Frame.Reader := {}
  ended : Bool := false

namespace Receiver

/-- The events of the frames that are complete. -/
def takeFrames (r : Receiver) : List LinkEvent × Receiver :=
  (r.reader.bodies.reverse.map fun body => .frame (.ofBody body),
    { r with reader := { r.reader with bodies := [] } })

/-- Takes bytes, and the end of the stream if it has come. After an error nothing more is read. -/
def run (r : Receiver) (bytes : List UInt8) (closed : Bool) : List LinkEvent × Receiver :=
  if r.ended then ([], r)
  else
    let (frames, r) := takeFrames { r with reader := r.reader.feed bytes }
    match r.reader.phase with
    | .failed e => (frames ++ [.closed (.unsynchronized e)], { r with ended := true })
    | phase =>
      if closed then
        let (ending, last) := phase.finish
        let lastFrame := last.toList.map fun body => LinkEvent.frame (.ofBody body)
        let reason :=
          match ending with
          | .clean => CloseReason.endOfOutput
          | .failed e => .unsynchronized e
        (frames ++ lastFrame ++ [.closed reason], { r with ended := true })
      else (frames, r)

end Receiver

end WorkerBridge
