/-
  WorkerBridge.Event

  What the bridge tells the editor, and the lifecycle of the worker that it
  reports.
-/
import WorkerBridge.Job.Kind
import WorkerBridge.Diagnostic

namespace WorkerBridge

/-! ## Lifecycle -/

/-- The state of the worker as the bridge sees it. -/
inductive Lifecycle where
  | starting
  | ready
  | busy
  | crashed
  | unavailable
  | stopped
deriving DecidableEq, Repr, Inhabited

namespace Lifecycle

/-- Whether jobs can be dispatched. -/
def isUp : Lifecycle → Bool
  | .ready | .busy => true
  | _ => false

/-- Whether new jobs are refused. -/
def rejectsJobs : Lifecycle → Bool
  | .unavailable | .stopped => true
  | _ => false

/-- The word for a state. -/
def label : Lifecycle → String
  | .starting => "starting"
  | .ready => "ready"
  | .busy => "busy"
  | .crashed => "crashed"
  | .unavailable => "unavailable"
  | .stopped => "stopped"

end Lifecycle

/-! ## Events -/

/-- How a message to the user is to be taken. -/
inductive NotifyLevel where
  | info
  | error
deriving DecidableEq, Repr

/-- The word for a level. -/
def NotifyLevel.label : NotifyLevel → String
  | .info => "info"
  | .error => "error"

/-- How far a command has come that the user waits for. -/
inductive ProgressPhase where
  | started
  | finished
  | timedOut
deriving DecidableEq, Repr

/-- The word for a phase. -/
def ProgressPhase.label : ProgressPhase → String
  | .started => "started"
  | .finished => "finished"
  | .timedOut => "timed_out"

/-- What the bridge tells the editor. -/
inductive Event where
  | diagnostics (uri : String) (items : List Diagnostic)
  | cleared (uri : String)
  | notify (level : NotifyLevel) (message : String)
  | finished (id : JobId) (kind : JobKind) (ok : Bool)
  | progress (title : String) (phase : ProgressPhase)
  | state (state : Lifecycle)
deriving DecidableEq, Repr

end WorkerBridge
