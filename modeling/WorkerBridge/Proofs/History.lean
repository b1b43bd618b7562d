/-
  WorkerBridge.Proofs.History

  Runs of the engine, with everything that happened in them.

  A run is a list of occasions: callers draw identities, and inputs arrive in any
  order and at any time. `History.run` keeps every turn with the state before it,
  so that a statement can speak of what was sent, heard and told so far.

  What the surroundings promise is `History.Lawful`: a job is submitted once and
  under an identity that a caller drew, nobody waits under another's ticket,
  frames are such as decoding yields, and a worker that comes up is a new one.
  Results that need none of this are stated about all runs.

  A request that cannot be written closes the channel of its worker, and this is
  an input like any other. So the runs also go through the states in which such a
  request counts as sent.
-/
import Mathlib.Data.List.Induction
import WorkerBridge.Engine.Step

namespace WorkerBridge

/-! ## Occasions and moments -/

/-- What happens around the engine. -/
inductive Occasion where
  /-- A caller takes the next identity for a job. -/
  | draw
  /-- The engine gets an input. -/
  | input (now : Nat) (input : Input)

/-- The turn that answers an occasion. -/
def Engine.answer (e : Engine) : Occasion → Turn
  | .draw => idle e.issueId.2
  | .input now input => e.step now input

/-- The jobs that the engine takes on with an input: the submitted one, or the replayed ones. -/
def Engine.admits (e : Engine) : Input → List Job
  | .command (.submit job) => if e.hasEnded then [] else [job]
  | .started start (.ok _) =>
    if !e.hasEnded && e.startup = some start && e.replayOnReady then
      (e.issueJobs e.documents.replay).1
    else []
  | _ => []

/-- The identity that a frame names. -/
def Incoming.names? : Incoming → Option JobId
  | .response id _ => some id
  | .malformed id _ => id

/-- The input is a frame of the engine's worker that names the given identity. -/
def Engine.Hears (e : Engine) (input : Input) (id : JobId) : Prop :=
  match input with
  | .frame w incoming => e.worker = some w ∧ incoming.names? = some id
  | _ => False

/-- The input tells that the worker is lost. -/
def Engine.loses (e : Engine) : Input → Bool
  | .closed w _ => e.worker = some w
  | _ => false

/-- The input tells that the worker is lost, or that the start under way has failed. -/
def Engine.fails (e : Engine) : Input → Bool
  | .started start (.error _) => e.startup = some start
  | input => e.loses input

/-- The input is the command to replace the worker. -/
def Engine.restarts (e : Engine) : Input → Bool
  | .command .restart => !e.hasEnded
  | _ => false

/-- One turn of a run: the state before it, and its occasion. -/
structure Moment where
  before : Engine
  occasion : Occasion

namespace Moment

/-- The turn that was taken. -/
def turn (m : Moment) : Turn :=
  m.before.answer m.occasion

/-- The state after the turn. -/
def after (m : Moment) : Engine :=
  m.turn.state

/-- What was done in the turn. -/
def effects (m : Moment) : List Effect :=
  m.turn.effects

/-- The identity that a caller drew. -/
def drawn? (m : Moment) : Option JobId :=
  match m.occasion with
  | .draw => some m.before.issueId.1
  | .input .. => none

/-- The time of an input. -/
def time? (m : Moment) : Option Nat :=
  match m.occasion with
  | .draw => none
  | .input now _ => some now

/-- The job that a caller submitted. -/
def submitted? (m : Moment) : Option Job :=
  match m.occasion with
  | .input _ (.command (.submit job)) => some job
  | _ => none

/-- The worker that came up. -/
def worker? (m : Moment) : Option WorkerId :=
  match m.occasion with
  | .input _ (.started _ (.ok started)) => some started.worker
  | _ => none

/-- The jobs that the engine took on. -/
def admitted (m : Moment) : List Job :=
  match m.occasion with
  | .draw => []
  | .input _ input => m.before.admits input

/-- The turn answered an input of the given sort. -/
def met (sort : Engine → Input → Bool) (m : Moment) : Bool :=
  match m.occasion with
  | .draw => false
  | .input _ input => sort m.before input

/-- The engine heard a frame of its worker that names the given identity. -/
def Hears (m : Moment) (id : JobId) : Prop :=
  match m.occasion with
  | .draw => False
  | .input _ input => m.before.Hears input id

end Moment

/-! ## Histories -/

/-- The state of the engine, and the turns that led to it, the earliest first. -/
structure History where
  engine : Engine
  past : List Moment := []

namespace History

/-- The history of an engine that has only been booted. -/
def boot (policy : RestartPolicy) : History :=
  { engine := (Engine.boot { policy }).state }

/-- The history after one more turn. -/
def extend (h : History) (o : Occasion) : History :=
  { engine := (h.engine.answer o).state, past := h.past ++ [⟨h.engine, o⟩] }

/-- The history of a run. -/
def run (policy : RestartPolicy) (os : List Occasion) : History :=
  os.foldl extend (boot policy)

/-- All that was done since the boot, in order. -/
def effects (h : History) : List Effect :=
  h.past.flatMap (·.effects)

/-- The identities that callers drew. -/
def drawn (h : History) : List JobId :=
  h.past.filterMap (·.drawn?)

/-- The times of all inputs, in order. -/
def times (h : History) : List Nat :=
  h.past.filterMap (·.time?)

/-- The jobs that callers submitted. -/
def submitted (h : History) : List Job :=
  h.past.filterMap (·.submitted?)

/-- The tickets under which callers wait or have waited. -/
def tickets (h : History) : List Ticket :=
  h.submitted.filterMap (·.waiter)

/-- The workers that came up. -/
def workers (h : History) : List WorkerId :=
  h.past.filterMap (·.worker?)

/-- The jobs that the engine took on. -/
def admitted (h : History) : List Job :=
  h.past.flatMap (·.admitted)

@[simp] theorem engine_extend (h : History) (o : Occasion) :
    (h.extend o).engine = (h.engine.answer o).state := rfl

@[simp] theorem past_extend (h : History) (o : Occasion) :
    (h.extend o).past = h.past ++ [⟨h.engine, o⟩] := rfl

@[simp] theorem effects_extend (h : History) (o : Occasion) :
    (h.extend o).effects = h.effects ++ (h.engine.answer o).effects := by
  simp [effects, Moment.effects, Moment.turn]

@[simp] theorem admitted_extend (h : History) (o : Occasion) :
    (h.extend o).admitted = h.admitted ++ Moment.admitted ⟨h.engine, o⟩ := by
  simp [admitted]

theorem drawn_extend (h : History) (o : Occasion) :
    (h.extend o).drawn = h.drawn ++ (Moment.drawn? ⟨h.engine, o⟩).toList := by
  cases hd : Moment.drawn? ⟨h.engine, o⟩ <;> simp [drawn, hd]

theorem times_extend (h : History) (o : Occasion) :
    (h.extend o).times = h.times ++ (Moment.time? ⟨h.engine, o⟩).toList := by
  cases ht : Moment.time? ⟨h.engine, o⟩ <;> simp [times, ht]

theorem submitted_extend (h : History) (o : Occasion) :
    (h.extend o).submitted = h.submitted ++ (Moment.submitted? ⟨h.engine, o⟩).toList := by
  cases hs : Moment.submitted? ⟨h.engine, o⟩ <;> simp [submitted, hs]

theorem mem_workers_extend {h : History} {o : Occasion} {w : WorkerId} :
    w ∈ (h.extend o).workers ↔ w ∈ h.workers ∨ Moment.worker? ⟨h.engine, o⟩ = some w := by
  simp [workers]

end History

/-! ## What the surroundings promise -/

/-- Whether decoding can yield the frame: a response holds a result, or a failure of the worker's
    own. -/
def Incoming.isReply : Incoming → Bool
  | .response _ (.ok _) => true
  | .response _ (.error (.reported _)) => true
  | .response _ (.error _) => false
  | .malformed .. => true

theorem Response.outcome_isReply (r : Response) (id : JobId) :
    (Incoming.response id r.outcome).isReply := by
  obtain ⟨_, status, result⟩ := r
  cases status <;> rfl

/-- Whatever bytes a worker writes, the frames are replies. -/
theorem Incoming.ofBody_isReply (body : List UInt8) : (Incoming.ofBody body).isReply := by
  unfold Incoming.ofBody
  split
  · unfold Incoming.ofJson
    split
    · exact Response.outcome_isReply ..
    · rfl
  · rfl

namespace History

/-- Whether an occasion may come next. -/
def Allows (h : History) : Occasion → Prop
  -- Jobs get their identities from the engine, and callers their own tickets.
  | .input _ (.command (.submit job)) =>
    job.id ∈ h.drawn ∧ job.id ∉ h.submitted.map (·.id) ∧ ∀ t ∈ job.waiter, t ∉ h.tickets
  | .input _ (.frame _ incoming) => incoming.isReply
  | .input _ (.started _ (.ok started)) => started.worker ∉ h.workers
  | _ => True

instance (h : History) : DecidablePred h.Allows
  | .draw => .isTrue trivial
  | .input _ (.command (.submit _)) => inferInstanceAs (Decidable (_ ∧ _ ∧ _))
  | .input _ (.command (.cancel _)) => .isTrue trivial
  | .input _ (.command .restart) => .isTrue trivial
  | .input _ (.command (.snapshot _)) => .isTrue trivial
  | .input _ (.command (.shutdown _)) => .isTrue trivial
  | .input _ (.frame _ incoming) => inferInstanceAs (Decidable (incoming.isReply = true))
  | .input _ (.closed ..) => .isTrue trivial
  | .input _ .deadline => .isTrue trivial
  | .input _ .restartDue => .isTrue trivial
  | .input _ (.started _ (.ok _)) => inferInstanceAs (Decidable (_ ∉ _))
  | .input _ (.started _ (.error _)) => .isTrue trivial

/-- A condition on what comes next holds at every one of the occasions. -/
def Along (P : History → Occasion → Prop) (h : History) : List Occasion → Prop
  | [] => True
  | o :: os => P h o ∧ Along P (h.extend o) os

instance decidableAlong {P : History → Occasion → Prop} [∀ h, DecidablePred (P h)]
    (h : History) : (os : List Occasion) → Decidable (Along P h os)
  | [] => .isTrue trivial
  | o :: os =>
    have := decidableAlong (P := P) (h.extend o) os
    inferInstanceAs (Decidable (P h o ∧ Along P (h.extend o) os))

/-- A run whose surroundings keep their promises. -/
def Lawful (policy : RestartPolicy) (os : List Occasion) : Prop :=
  Along Allows (boot policy) os

instance (policy : RestartPolicy) (os : List Occasion) : Decidable (Lawful policy os) :=
  inferInstanceAs (Decidable (Along Allows (boot policy) os))

/-! ## The runs that a run goes through -/

theorem run_concat (policy : RestartPolicy) (os : List Occasion) (o : Occasion) :
    run policy (os ++ [o]) = (run policy os).extend o :=
  List.foldl_append

theorem Along.take {P : History → Occasion → Prop} {h : History} {os os' : List Occasion}
    (along : Along P h (os ++ os')) : Along P h os := by
  induction os generalizing h with
  | nil => trivial
  | cons o os ih => exact ⟨along.1, ih along.2⟩

theorem Along.next {P : History → Occasion → Prop} {h : History} {os os' : List Occasion}
    {o : Occasion} (along : Along P h (os ++ o :: os')) : P (os.foldl extend h) o := by
  induction os generalizing h with
  | nil => exact along.1
  | cons o' os ih => exact ih along.2

theorem Along.append {P : History → Occasion → Prop} {h : History} {os os' : List Occasion}
    (along : Along P h os) (along' : Along P (os.foldl extend h) os') : Along P h (os ++ os') := by
  induction os generalizing h with
  | nil => exact along'
  | cons o os ih => exact ⟨along.1, ih along.2 along'⟩

theorem Lawful.take {policy : RestartPolicy} {os os' : List Occasion}
    (lawful : Lawful policy (os ++ os')) : Lawful policy os :=
  Along.take lawful

theorem Lawful.allows {policy : RestartPolicy} {os os' : List Occasion} {o : Occasion}
    (lawful : Lawful policy (os ++ o :: os')) : (run policy os).Allows o :=
  Along.next lawful

theorem Lawful.concat {policy : RestartPolicy} {os : List Occasion} {o : Occasion}
    (lawful : Lawful policy os) (allowed : (run policy os).Allows o) : Lawful policy (os ++ [o]) :=
  Along.append lawful ⟨allowed, trivial⟩

/-! ## Induction over runs -/

/-- What holds after the boot and is kept by every turn holds of every run. -/
theorem run_induction {P : History → Prop} {policy : RestartPolicy} (start : P (boot policy))
    (step : ∀ h o, P h → P (h.extend o)) (os : List Occasion) : P (run policy os) := by
  induction os using List.reverseRecOn with
  | nil => exact start
  | append_singleton os o ih =>
    rw [run_concat]
    exact step _ o ih

/-- What holds after the boot and is kept by every turn that may come next holds of every lawful
    run. -/
theorem lawful_induction {P : History → Prop} {policy : RestartPolicy} (start : P (boot policy))
    (step : ∀ h o, P h → h.Allows o → P (h.extend o)) {os : List Occasion}
    (lawful : Lawful policy os) : P (run policy os) := by
  induction os using List.reverseRecOn with
  | nil => exact start
  | append_singleton os o ih =>
    rw [run_concat]
    exact step _ o (ih lawful.take) lawful.allows

/-! ## The moments of a run -/

/-- The last element of a list is the one that was put there, or comes after a split. -/
theorem split_concat {α : Type} {past before after : List α} {x m : α}
    (h : past ++ [x] = before ++ m :: after) :
    (before = past ∧ m = x ∧ after = []) ∨
      ∃ after', after = after' ++ [x] ∧ past = before ++ m :: after' := by
  induction after using List.reverseRecOn with
  | nil =>
    obtain ⟨rfl, hx⟩ := List.append_inj' h rfl
    exact Or.inl ⟨rfl, (List.singleton_inj.1 hx).symm, rfl⟩
  | append_singleton after' y =>
    rw [← List.cons_append, ← List.append_assoc] at h
    obtain ⟨hpast, hx⟩ := List.append_inj' h rfl
    exact Or.inr ⟨after', by rw [List.singleton_inj.1 hx], hpast⟩

/-- Whatever a run begins with is a run. -/
theorem run_prefix {policy : RestartPolicy} {os : List Occasion} {before after : List Moment}
    (h : (run policy os).past = before ++ after) :
    ∃ os₁ os₂, os = os₁ ++ os₂ ∧ (run policy os₁).past = before := by
  induction os using List.reverseRecOn generalizing after with
  | nil => exact ⟨[], [], rfl, (List.append_eq_nil_iff.1 h.symm).1.symm⟩
  | append_singleton os o ih =>
    -- The last moment is part of what follows, unless nothing follows.
    rcases List.eq_nil_or_concat after with rfl | ⟨after', m, rfl⟩
    · exact ⟨os ++ [o], [], by simp, by simpa using h⟩
    · rw [run_concat, past_extend, List.concat_eq_append, ← List.append_assoc] at h
      obtain ⟨os₁, os₂, rfl, hbefore⟩ := ih (List.append_inj' h rfl).1
      exact ⟨os₁, os₂ ++ [o], by simp, hbefore⟩

/-- Every moment of a run is the next one of a shorter run. -/
theorem run_split {policy : RestartPolicy} {os : List Occasion} {before after : List Moment}
    {m : Moment} (h : (run policy os).past = before ++ m :: after) :
    ∃ os₁ os₂, os = os₁ ++ m.occasion :: os₂ ∧ (run policy os₁).past = before ∧
      (run policy os₁).engine = m.before := by
  -- Either the moment is the last one, or the run without the last occasion has it too.
  induction os using List.reverseRecOn generalizing after with
  | nil => simp [run, boot] at h
  | append_singleton os o ih =>
    rw [run_concat, past_extend] at h
    rcases split_concat h with ⟨rfl, rfl, rfl⟩ | ⟨after', rfl, hpast⟩
    · exact ⟨os, [], rfl, rfl, rfl⟩
    · obtain ⟨os₁, os₂, rfl, hbefore, hengine⟩ := ih hpast
      exact ⟨os₁, os₂ ++ [o], by simp, hbefore, hengine⟩

end History

end WorkerBridge
