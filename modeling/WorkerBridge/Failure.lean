/-
  WorkerBridge.Failure

  Why jobs fail, channels close and workers do not start. Each cause is a value;
  its wording is given once, beside it.
-/
import WorkerBridge.Frame
import WorkerBridge.Job.Kind
import WorkerBridge.Json.Shape

namespace WorkerBridge

open Json (ShapeError)

/-! ## Closed channels -/

/-- Why the channel to a worker is gone. -/
inductive CloseReason where
  | endOfOutput
  | unsynchronized (e : FrameError)
  | unwritable (e : FrameError)
  | writerGone
deriving DecidableEq, Repr

/-- The reason in words. -/
def CloseReason.message : CloseReason → String
  | .endOfOutput => "worker closed the channel"
  | .unsynchronized e => "unsynchronized framing: " ++ e.message
  | .unwritable e => e.message
  | .writerGone => "writer channel closed"

/-! ## Failed starts -/

/-- Why no worker came into being. -/
inductive SpawnFault where
  | refused
  | programNotFound (program : String)
  | jarMissing (path : String)
  | exitedEarly (status : Nat)
  | unreachable
deriving DecidableEq, Repr

/-- The fault in words. -/
def SpawnFault.message : SpawnFault → String
  | .refused => "fake worker refused to spawn"
  | .programNotFound program => program ++ " not found in PATH"
  | .jarMissing path => "worker jar " ++ path ++ " does not exist"
  | .exitedEarly status =>
    "worker exited with exit status: " ++ Decimal.text status ++ " before accepting connections"
  | .unreachable => "connecting to worker on port"

/-- Why an attempt to start a worker failed. -/
inductive StartFault where
  | spawn (fault : SpawnFault)
  | silent (seconds : Nat)
  | exited (reason : CloseReason)
  | rejected (message : String)
deriving DecidableEq, Repr

/-- The fault in words. -/
def StartFault.message : StartFault → String
  | .spawn fault => "spawning worker: " ++ fault.message
  | .silent seconds => "no readiness reply within " ++ Decimal.text seconds ++ "s"
  | .exited reason => "worker exited before becoming ready: " ++ reason.message
  | .rejected message => "worker rejected the readiness probe: " ++ message

/-! ## Failed jobs -/

/-- What is wrong with a message or a result. -/
inductive ProtocolFault where
  | notJson
  | badResponse (e : ShapeError)
  | badCheckResult (e : ShapeError)
  | unexpectedResult (kind : JobKind) (e : ShapeError)
  | reserved (kind : JobKind)
deriving DecidableEq, Repr

/-- The fault in words. -/
def ProtocolFault.message : ProtocolFault → String
  | .notJson => "frame body is not JSON"
  | .badResponse e => "invalid response: " ++ e.message
  | .badCheckResult e => "invalid check result: " ++ e.message
  | .unexpectedResult kind e => "unexpected " ++ kind.wireName ++ " result: " ++ e.message
  | .reserved kind => kind.wireName ++ " is reserved for stopping the worker"

/-- Why a job produced no result. -/
inductive Failure where
  | startup (fault : StartFault)
  | crashed (reason : CloseReason)
  | protocol (fault : ProtocolFault)
  | timeout (id : JobId) (elapsed : Nat)
  | reported (message : String)
  | cancelled
  | unavailable
  | shutDown
deriving DecidableEq, Repr

/-- The failure in words. -/
def Failure.message : Failure → String
  | .startup fault => "worker failed to start: " ++ fault.message
  | .crashed reason => "worker process crashed: " ++ reason.message
  | .protocol fault => "protocol error: " ++ fault.message
  | .timeout id elapsed =>
    "job " ++ id.text ++ " timed out after " ++ Decimal.text elapsed ++ "ms"
  | .reported message => message
  | .cancelled => "job was cancelled"
  | .unavailable => "worker is unavailable"
  | .shutDown => "bridge has shut down"

/-- What a caller hears: the result of the job or why there is none. -/
abbrev Outcome := Except Failure Json

/-- Whether the job succeeded. -/
def Outcome.isOk : Outcome → Bool
  | .ok _ => true
  | .error _ => false

end WorkerBridge
