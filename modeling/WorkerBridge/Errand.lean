/-
  WorkerBridge.Errand

  What a caller does with its job: what it tells the editor meanwhile, how long it
  waits, and what it makes of the outcome. Read-only lookups turn every failure
  into nothing to show.
-/
import WorkerBridge.Event
import WorkerBridge.Documents
import WorkerBridge.Job.Basic
import WorkerBridge.Lookup
import WorkerBridge.Settings

namespace WorkerBridge

open Json (Decoder)

/-! ## Readings -/

/-- The form in which a caller wants a result. -/
inductive Form where
  | value
  | version
  | hover
  | locations
  | definitions
  | lenses
deriving DecidableEq, Repr

/-- A result in the form that the caller wants. -/
inductive Reading where
  | value (v : Json)
  | version (v : Version)
  | hover (h : Hover)
  | locations (ls : List Location)
  | definitions (ts : List Target)
  | lenses (ls : List CodeLens)

/-- Reads a result. -/
def Form.read : Form → Decoder Reading
  | .value, v => .ok (.value v)
  | .version, v => (Version.decode v).map .version
  | .hover, v => (Hover.decode v).map .hover
  | .locations, v => (Json.Shape.list Location.decode v).map .locations
  | .definitions, v => (decodeDefinitions v).map .definitions
  | .lenses, v => (Json.Shape.list CodeLens.decode v).map .lenses

/-- The outcome of a job of the given kind, read. A result of another shape is a fault of the
worker. -/
def Outcome.readAs {α : Type} (read : Decoder α) (kind : JobKind) : Outcome → Except Failure α
  | .error f => .error f
  | .ok v =>
    match read v with
    | .ok a => .ok a
    | .error e => .error (.protocol (.unexpectedResult kind e))

/-- The result of a lookup, if there is one and it can be shown. -/
def Outcome.lookup? {α : Type} (read : Decoder α) : Outcome → Option α
  | .error _ => none
  | .ok v =>
    match Json.Shape.option read v with
    | .ok a => a
    | .error _ => none

/-! ## Answers -/

/-- What a caller comes back with. -/
inductive Answer where
  | outcome (o : Outcome)
  | reading (r : Except Failure Reading)
  | hover (h : Option Hover)
  | locations (ls : List Location)
  | lenses (ls : List CodeLens)
  | version (v : Option Version)
  | snapshot (s : Snapshot)
  | state (s : Lifecycle)
  | stopped
  | dropped

/-! ## Errands -/

/-- What a caller wants its job for. Times are in milliseconds. -/
inductive Errand where
  /-- The outcome as it is. -/
  | wait
  /-- The outcome, behind a progress indicator, for a limited time. -/
  | progress (title : String) (patience : Nat)
  /-- The same, with failures shown to the user. -/
  | run (title : String) (patience : Nat)
  /-- The result in some form. -/
  | request (kind : JobKind) (form : Form)
  | hover
  | goto
  | uses
  | lenses
  /-- The version, announced to the user. -/
  | version
deriving DecidableEq, Repr

namespace Errand

/-- What the caller tells the editor before it waits. -/
def opening : Errand → List Event
  | .progress title _ | .run title _ => [.progress title .started]
  | _ => []

/-- How long the caller waits, when it does not wait for as long as it takes. -/
def patience? : Errand → Option Nat
  | .progress _ patience | .run _ patience => some patience
  | _ => none

/-- What the user is told about a command that was run. -/
def reportFailure (title : String) : Outcome → List Event
  | .ok _ => []
  | .error f => [.notify .error (title ++ " failed: " ++ f.message)]

/-- What the caller tells the editor and comes back with once it knows the outcome. -/
def conclude (outcome : Outcome) : Errand → List Event × Answer
  | .wait => ([], .outcome outcome)
  | .progress title _ => ([.progress title .finished], .outcome outcome)
  | .run title _ => (.progress title .finished :: reportFailure title outcome, .outcome outcome)
  | .request kind form => ([], .reading (outcome.readAs form.read kind))
  | .hover => ([], .hover (outcome.lookup? Hover.decode))
  | .goto =>
    let targets := (outcome.lookup? decodeDefinitions).getD []
    ([], .locations (targets.map (·.location)))
  | .uses => ([], .locations ((outcome.lookup? (Json.Shape.list Location.decode)).getD []))
  | .lenses => ([], .lenses ((outcome.lookup? (Json.Shape.list CodeLens.decode)).getD []))
  | .version =>
    match outcome.readAs Version.decode .version with
    | .ok v => ([.notify .info ("Running Flix (" ++ v.text ++ ")")], .version (some v))
    | .error _ => ([.notify .error "Failed starting Flix"], .version none)

/-- What the caller tells the editor and comes back with when it has waited long enough. The job
itself goes on. -/
def giveUp (id : JobId) (e : Errand) : List Event × Answer :=
  match e with
  | .progress title patience =>
    ([.progress title .timedOut], .outcome (.error (.timeout id patience)))
  | .run title patience =>
    let outcome : Outcome := .error (.timeout id patience)
    (.progress title .timedOut :: reportFailure title outcome, .outcome outcome)
  | e => e.conclude (.error (.timeout id 0))

end Errand

/-! ## Submitting -/

/-- The time limit of a job of the given kind. Only queries have one. -/
def Timeouts.limit? (t : Timeouts) (kind : JobKind) : Option Nat :=
  if kind.isQuery then t.queryMs? else none

/-- The job that a caller submits. Callers cannot ask the worker to exit. -/
def Job.submitted (t : Timeouts) (id : JobId) (r : Request) (caller : Ticket) : Except Failure Job :=
  if r.kind = .shutdown then .error (.protocol (.reserved .shutdown))
  else .ok { id, request := r, timeout := t.limit? r.kind, waiter := some caller }

end WorkerBridge
