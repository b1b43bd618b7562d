/-
  WorkerBridge.Response

  Frames from the worker. A body that is no usable response still names the job
  it is about, when it is an object with an identity.
-/
import WorkerBridge.Failure
import WorkerBridge.Diagnostic
import WorkerBridge.Json.Parser
import WorkerBridge.Json.Printer

namespace WorkerBridge

open Json (Decoder)

/-! ## Responses -/

/-- Whether the worker did what it was asked. -/
inductive Status where
  | success
  | failure
deriving DecidableEq, Repr

/-- Reads a status. -/
def Status.decode : Decoder Status :=
  Json.Shape.variant Json.isNull [("success", .success), ("failure", .failure)]

/-- A response of the worker. -/
structure Response where
  id : JobId
  status : Status
  result : Json

/-- Reads a response. A missing result is `null`. -/
def Response.decode : Decoder Response := fun v => do
  let id := Json.Shape.natural Json.maxUnsigned
  let kvs ← Json.Shape.entries
    [Json.Shape.field "id" id, Json.Shape.field "status" Status.decode,
      Json.Shape.lastField "result" Json.Shape.any] v
  let id ← Json.Shape.required kvs "id" id
  let status ← Json.Shape.required kvs "status" Status.decode
  let result ← Json.Shape.defaulted kvs "result" Json.Shape.any .null
  return { id := ⟨id⟩, status, result }

/-- What a failure says: a text, or the text under `message`, or the whole value as JSON. -/
def failureMessage : Json → String
  | .str s => s
  | .null => "worker reported a failure"
  | v => ((v.field? "message").bind Json.asText?).getD v.compact

/-- What a response tells the caller of its job. -/
def Response.outcome (r : Response) : Outcome :=
  match r.status with
  | .success => .ok r.result
  | .failure => .error (.reported (failureMessage r.result))

/-! ## Incoming frames -/

/-- One frame from the worker. -/
inductive Incoming where
  | response (id : JobId) (outcome : Outcome)
  | malformed (id : Option JobId) (fault : ProtocolFault)

/-- The identity that an object names, usable as a response or not. -/
def namedJob? (v : Json) : Option JobId :=
  ((v.field? "id").bind Json.asUnsigned?).map JobId.mk

/-- Reads a frame from the JSON value of its body. -/
def Incoming.ofJson (v : Json) : Incoming :=
  match Response.decode v with
  | .ok r => .response r.id r.outcome
  | .error e => .malformed (namedJob? v) (.badResponse e)

/-- Reads a frame from the bytes of its body. -/
def Incoming.ofBody (body : List UInt8) : Incoming :=
  match Json.parseBytes? body.toByteArray with
  | some v => .ofJson v
  | none => .malformed none .notJson

/-- The reports of a successful check, or the failure they amount to. -/
def checkReports (result : Json) : Except Failure (List Report) :=
  match decodeReports result with
  | .ok reports => .ok reports
  | .error e => .error (.protocol (.badCheckResult e))

end WorkerBridge
