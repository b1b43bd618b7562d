/-
  WorkerBridge.Rehearsal.Script

  What a scripted worker answers. The first rule that matches a request and has
  uses left decides; without one the worker answers as a healthy worker with an
  empty project would.
-/
import WorkerBridge.Rehearsal.Blob
import WorkerBridge.Json.Printer

namespace WorkerBridge

/-! ## Replies -/

/-- What a scripted worker does with one request. -/
inductive Reply where
  /-- The answer of a healthy worker. -/
  | usual
  /-- No answer. -/
  | silent
  /-- The worker dies. -/
  | crash
  /-- Success, with the request as its result. -/
  | echo
  /-- The request itself. -/
  | copy
  | success (result : Json)
  | failure (result : Json)
  /-- Bytes as they are, with the identity of the request in place of its mark. -/
  | raw (b : Blob)
  /-- A frame with any JSON body. -/
  | body (v : Json)
  /-- A reply after a time in which the worker does nothing else. -/
  | after (ms : Nat) (r : Reply)
  /-- Several replies in turn. -/
  | all (rs : List Reply)
deriving Inhabited

/-- A rule: the fields that a request must have, how often the rule may still be used, and the
reply. -/
structure Rule where
  fields : List (String × Json) := []
  uses : Option Nat := none
  reply : Reply

/-- The rules of a worker, the first matching one first. -/
abbrev Script := List Rule

namespace Rule

/-- Whether the request has all fields of the rule. A missing field counts as `null`. -/
def fits (r : Rule) (request : Json) : Bool :=
  r.fields.all fun (key, v) => (request.field? key).getD .null == v

/-- Whether the rule may be used again. -/
def isOpen (r : Rule) : Bool :=
  r.uses ≠ some 0

end Rule

/-- The reply to a request, and the rules after that use. -/
def Script.reply (request : Json) : Script → Reply × Script
  | [] => (.usual, [])
  | rule :: rest =>
    if rule.fits request && rule.isOpen then
      (rule.reply, { rule with uses := rule.uses.map (· - 1) } :: rest)
    else
      let (reply, rest) := Script.reply request rest
      (reply, rule :: rest)

/-! ## Acts -/

/-- One thing a worker does to answer. -/
inductive Act where
  | write (bytes : List UInt8)
  | sleep (ms : Nat)
  | crash

namespace Reply

/-- The identity of a request. -/
def requestId (request : Json) : Nat :=
  ((request.field? "id").bind Json.asUnsigned?).getD 0

/-- A response as JSON. -/
def answer (id : Nat) (status : String) (result : Json) : Json :=
  Json.ofFields [("id", Json.ofNat id), ("status", .str status), ("result", result)]

/-- The bytes of a response. -/
def frame (id : Nat) (status : String) (result : Json) : List UInt8 :=
  (Frame.bytes (answer id status result).compact.toUTF8).data.toList

/-- The bytes of a response under the identity of a request. -/
def response (request : Json) : String → Json → List UInt8 :=
  frame (requestId request)

/-- What a healthy worker with an empty project answers. -/
def usualResult (request : Json) : Json :=
  match request.field? "request" with
  | some (.str "api/version") =>
    Json.ofFields [("major", Json.ofNat 0), ("minor", Json.ofNat 35), ("revision", Json.ofNat 0)]
  | some (.str "lsp/check") => .arr []
  | _ => .null

/-- The mark in scripted texts that stands for the identity of the request. -/
def idMark : String := "$ID"

mutual

/-- What the worker does to give a reply. -/
def acts (request : Json) : Reply → List Act
  | .usual => [.write (response request "success" (usualResult request))]
  | .silent => []
  | .crash => [.crash]
  | .echo => [.write (response request "success" request)]
  | .copy => [.write (Frame.bytes request.compact.toUTF8).toList]
  | .success result => [.write (response request "success" result)]
  | .failure result => [.write (response request "failure" result)]
  | .raw b =>
    [.write (b.bytesWith (·.replace idMark (Decimal.text (requestId request)))).toList]
  | .body v => [.write (Frame.bytes v.compact.toUTF8).toList]
  | .after ms r => .sleep ms :: acts request r
  | .all rs => allActs request rs

/-- What the worker does to give several replies in turn. -/
def allActs (request : Json) : List Reply → List Act
  | [] => []
  | r :: rest => acts request r ++ allActs request rest

end

end Reply

end WorkerBridge
