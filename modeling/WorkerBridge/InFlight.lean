/-
  WorkerBridge.InFlight

  Jobs that were handed to the worker and have no response yet. A job that ran
  out of time is remembered for a while, so that its late response is known.

  Times are natural numbers, counted from a common start. They have no bound, so a
  deadline is the exact sum of a time and a limit; clocks that could not show the
  sum are left out of account.
-/
import WorkerBridge.Job.Basic

namespace WorkerBridge

/-- A dispatched job. -/
structure Flight where
  job : Job
  dispatchedAt : Nat
  deadline : Option Nat
  cancelled : Bool := false
deriving DecidableEq, Repr

namespace Flight

/-- The time since the dispatch. -/
def elapsed (f : Flight) (now : Nat) : Nat :=
  now - f.dispatchedAt

/-- Whether the time of the job is up. -/
def isDue (f : Flight) (now : Nat) : Bool :=
  match f.deadline with
  | some deadline => deadline ≤ now
  | none => false

end Flight

/-- Whose response it is. -/
inductive Resolution where
  | pending (flight : Flight)
  | abandoned (kind : JobKind)
  | unknown
deriving DecidableEq, Repr

/-- The jobs in flight, in order of dispatch, and the jobs that ran out of time, oldest first. -/
structure InFlight where
  live : List Flight := []
  abandoned : List (JobId × JobKind) := []
deriving DecidableEq, Repr

namespace InFlight

/-- How many jobs that ran out of time are remembered. -/
def memory : Nat := 64

/-- Whether no job is in flight. -/
def isIdle (t : InFlight) : Bool :=
  t.live.isEmpty

/-- How many jobs are in flight. -/
def size (t : InFlight) : Nat :=
  t.live.length

/-- Records a job as dispatched now. A flight under the same identity is replaced. -/
def register (t : InFlight) (j : Job) (now : Nat) : InFlight :=
  let flight : Flight := { job := j, dispatchedAt := now, deadline := j.timeout.map (now + ·) }
  { t with live := t.live.filter (·.job.id ≠ j.id) ++ [flight] }

/-- The flight that a registration under the given identity replaces. -/
def find? (t : InFlight) (id : JobId) : Option Flight :=
  t.live.find? (·.job.id = id)

/-- Matches a response. A flight is handed out, and a memory is used up. -/
def resolve (t : InFlight) (id : JobId) : Resolution × InFlight :=
  match t.find? id with
  | some flight => (.pending flight, { t with live := t.live.filter (·.job.id ≠ id) })
  | none =>
    match t.abandoned.find? (·.1 = id) with
    | some (_, kind) => (.abandoned kind, { t with abandoned := t.abandoned.eraseP (·.1 = id) })
    | none => (.unknown, t)

/-- Marks a flight as cancelled, whose caller is told now. The flight stays until it is answered
or runs out of time. -/
def cancel (t : InFlight) (id : JobId) : InFlight :=
  { t with
    live := t.live.map fun f =>
      if f.job.id = id then { f with cancelled := true, job := f.job.told } else f }

/-- The earliest deadline. -/
def nextDeadline? (t : InFlight) : Option Nat :=
  (t.live.filterMap (·.deadline)).min?

/-- Remembers a job that ran out of time. The oldest memory makes room. -/
def remember (abandoned : List (JobId × JobKind)) (f : Flight) : List (JobId × JobKind) :=
  (if abandoned.length = memory then abandoned.drop 1 else abandoned) ++ [(f.job.id, f.job.kind)]

/-- Takes every flight whose time is up, and remembers it. Flights are found by their identities
and have no order of their own: the order of dispatch, in which they are handed out and remembered
here, stands for any other. The engine never has more than one. -/
def expire (t : InFlight) (now : Nat) : List Flight × InFlight :=
  let due := t.live.filter (·.isDue now)
  (due, { live := t.live.filter (!·.isDue now), abandoned := due.foldl remember t.abandoned })

/-- Takes every flight, and forgets everything. As with `expire`, the order of dispatch stands for
any other. -/
def drain (t : InFlight) : List Flight × InFlight :=
  (t.live, {})

end InFlight

end WorkerBridge
