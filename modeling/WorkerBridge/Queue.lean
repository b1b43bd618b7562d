/-
  WorkerBridge.Queue

  The jobs that wait for the worker. Submitted jobs keep their order; replayed
  jobs go ahead of all others and keep theirs.
-/
import WorkerBridge.Job.Basic

namespace WorkerBridge

/-- The waiting jobs, the next one first. -/
structure Queue where
  jobs : List Job := []
deriving DecidableEq, Repr

namespace Queue

/-- Puts a job behind all others. -/
def push (q : Queue) (j : Job) : Queue :=
  ⟨q.jobs ++ [j]⟩

/-- Puts jobs ahead of all others, in their order. -/
def pushAhead (q : Queue) (js : List Job) : Queue :=
  ⟨js ++ q.jobs⟩

/-- Takes the next job. -/
def pop? (q : Queue) : Option (Job × Queue) :=
  match q.jobs with
  | [] => none
  | j :: rest => some (j, ⟨rest⟩)

/-- Takes the waiting job of the given identity. -/
def remove? (q : Queue) (id : JobId) : Option (Job × Queue) :=
  match q.jobs.find? (·.id = id) with
  | none => none
  | some j => some (j, ⟨q.jobs.eraseP (·.id = id)⟩)

/-- Whether no job waits. -/
def isEmpty (q : Queue) : Bool :=
  q.jobs.isEmpty

/-- How many jobs wait. -/
def size (q : Queue) : Nat :=
  q.jobs.length

end Queue

end WorkerBridge
