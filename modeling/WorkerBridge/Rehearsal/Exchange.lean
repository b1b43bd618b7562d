/-
  WorkerBridge.Rehearsal.Exchange

  One channel by itself, with a worker that reads everything: messages that are
  sent first, the bytes that the worker writes, and messages that are sent once the
  channel has been reported closed.
-/
import WorkerBridge.Link

namespace WorkerBridge

/-- What an exchange comes to. -/
structure Exchange where
  /-- What the channel delivers, up to and with its end. -/
  events : List LinkEvent
  /-- For each later message, why it could not be put into the outbox, if so. -/
  later : List (Option Failure)
  /-- The bodies of the frames that the worker received. -/
  sent : List ByteArray

namespace Exchange

/-- The bodies of the messages that a writer delivers, and the error at which it ends. -/
def deliver : List Json → List ByteArray × Option FrameError
  | [] => ([], none)
  | v :: rest =>
    let body := v.compact.toUTF8
    if body.size > Frame.maxBody then ([], some (.oversized body.size))
    else
      let (bodies, error) := deliver rest
      (body :: bodies, error)

/-- The events up to and with the first that tells the end. -/
def untilClosed : List LinkEvent → List LinkEvent
  | [] => []
  | .closed reason :: _ => [.closed reason]
  | e :: rest => e :: untilClosed rest

/-- How many of the later messages the writer takes before the channel is closed at once: only a
full outbox lets it go on. -/
def takenAtOnce (count : Nat) : Nat :=
  (count - 1) / Link.outboxCapacity * Link.outboxCapacity

/-- Plays an exchange. `closes` tells whether the worker closes its output in the end, and `grace`
how long the writer has for the later messages. -/
def play (first : List Json) (bytes : List UInt8) (closes : Bool) (later : List Json)
    (grace : Nat) : Exchange :=
  let (sent, error) := deliver first
  match error with
  | some e =>
    { events := [.closed (.unwritable e)]
      later := later.map fun _ => some (.crashed .writerGone)
      sent }
  | none =>
    let inTime := if grace = 0 then later.take (takenAtOnce later.length) else later
    { events := untilClosed (Receiver.run {} bytes closes).1
      later := later.map fun _ => none
      sent := sent ++ (deliver inTime).1 }

end Exchange

end WorkerBridge
