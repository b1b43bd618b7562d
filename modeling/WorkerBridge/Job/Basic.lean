/-
  WorkerBridge.Job.Basic

  Jobs, and one job together with the caller that waits on it.
-/
import WorkerBridge.Job.Request
import WorkerBridge.Failure

namespace WorkerBridge

/-- A caller's hold on the outcome of a job. -/
abbrev Ticket := Nat

/-- A unit of work, from its submission until it is retired. -/
structure Job where
  id : JobId
  request : Request
  timeout : Option Nat := none
  waiter : Option Ticket := none
deriving DecidableEq, Repr

namespace Job

/-- The kind of the job. -/
def kind (j : Job) : JobKind := j.request.kind

/-- The job once its caller has been told. -/
def told (j : Job) : Job := { j with waiter := none }

end Job

/-! ## One job and its caller -/

/-- What a caller finds when it looks for its outcome. -/
inductive Mailbox where
  | waiting
  | holding (outcome : Outcome)
  | closed

/-- One job, the number of the next, and the mailbox of its caller, if there is one. -/
structure Desk where
  job : Job := { id := ⟨1⟩, request := .version }
  nextId : Nat := 2
  mailbox : Option Mailbox := none

namespace Desk

/-- Whether a caller still waits on the job. -/
def hasWaiter (d : Desk) : Bool :=
  d.job.waiter.isSome && d.mailbox.isSome

/-- Takes up a new job. The old one goes away with its caller. -/
def renew (d : Desk) (r : Request) : Desk :=
  { job := { id := ⟨d.nextId⟩, request := r }, nextId := d.nextId + 1, mailbox := none }

/-- A new caller waits on the job, in place of an earlier one. -/
def attach (d : Desk) : Desk :=
  { d with job := { d.job with waiter := some 0 }, mailbox := some .waiting }

/-- Gives the job a time limit, or none. -/
def limit (d : Desk) (timeout : Option Nat) : Desk :=
  { d with job := { d.job with timeout } }

/-- Tells the waiting caller. Nobody is told twice. -/
def complete (d : Desk) (outcome : Outcome) : Desk :=
  match d.job.waiter with
  | none => d
  | some _ => { d with job := d.job.told, mailbox := d.mailbox.map fun _ => .holding outcome }

/-- The caller goes away. -/
def leave (d : Desk) : Desk :=
  { d with mailbox := none }

/-- The caller looks into its mailbox, and takes what it holds. -/
def receive (d : Desk) : Option Mailbox × Desk :=
  match d.mailbox with
  | some (.holding outcome) => (some (.holding outcome), { d with mailbox := some .closed })
  | other => (other, d)

end Desk

end WorkerBridge
