/-
  WorkerBridge.Proofs.Retirement

  Every job is retired exactly once.

  The accounts of a run say that what was taken on is owed or settled, and a
  lawful run takes no identity and no ticket on twice. So each sum is one: a job
  stands in the queue, or is in flight, or has been reported. Applied to the two
  runs that end right before and right after a moment, the same sums say which
  moment has to report it.
-/
import WorkerBridge.Proofs.Provenance

namespace WorkerBridge

/-- The engine holds a job of the given identity, queued or in flight. -/
def Engine.Holds (e : Engine) (id : JobId) : Prop :=
  (∃ j ∈ e.queue.jobs, j.id = id) ∨ ∃ f ∈ e.flights.live, f.job.id = id

/-- The job of the given identity was held before the turn, or was taken on in it, and is not held
    after it. -/
def Moment.Retires (m : Moment) (id : JobId) : Prop :=
  (m.before.Holds id ∨ ∃ j ∈ m.admitted, j.id = id) ∧ ¬ m.after.Holds id

/-- The turn answered the command to shut down. -/
def Moment.ShutsDown (m : Moment) : Prop :=
  ∃ now caller, m.occasion = .input now (.command (.shutdown caller))

theorem Engine.owes_pos {e : Engine} {d : Due} :
    0 < e.owes d ↔ (∃ j ∈ e.queue.jobs, j.owes d) ∨ ∃ f ∈ e.flights.live, f.job.owes d := by
  rw [owes, Nat.add_pos_iff_pos_or_pos, List.countP_pos_iff, List.countP_pos_iff]

theorem Engine.holds_iff (e : Engine) (id : JobId) : e.Holds id ↔ 0 < e.owes (.report id) := by
  rw [owes_pos]
  simp [Holds, Job.owes]

theorem countP_report_pos {jobs : List Job} {id : JobId} :
    0 < jobs.countP (Job.owes (.report id)) ↔ ∃ j ∈ jobs, j.id = id := by
  simp [List.countP_pos_iff, Job.owes]

/-- An engine that has stopped reacts to nothing. -/
theorem Engine.Reacts.lifecycle_of_stopped {now : Nat} {e : Engine} {input : Input} {t : Turn}
    (r : Reacts now e input t) (stopped : e.lifecycle = .stopped) :
    t.state.lifecycle = .stopped := by
  cases r with
  | ignored => exact stopped
  | submitted _ alive | cancelled _ alive | restarted alive | shown _ alive | shutDown _ alive
  | heard _ alive | lost _ alive | expired alive | due alive | started _ alive =>
    exact absurd stopped alive

theorem Engine.Reacts.lifecycle_of_shutdown {now : Nat} {e : Engine} {caller : Option Ticket}
    {t : Turn} (r : Reacts now e (.command (.shutdown caller)) t) :
    t.state.lifecycle = .stopped := by
  cases r with
  | ignored stopped => exact stopped
  | shutDown => rw [shutdown_state]

namespace History

/-! ## The moment of a report -/

/-- In a lawful run a turn reports a job exactly when it retires it, and never twice. -/
theorem settled_report_iff {policy : RestartPolicy} {os : List Occasion}
    (lawful : Lawful policy os) {m : Moment} (hm : m ∈ (run policy os).past) (id : JobId) :
    settled (.report id) m.effects ≤ 1 ∧
      (settled (.report id) m.effects = 1 ↔ m.Retires id) := by
  obtain ⟨before, after, hpast⟩ := List.append_of_mem hm
  obtain ⟨os₁, os₂, rfl, hbefore, hengine⟩ := run_split hpast
  have hnext : os₁ ++ m.occasion :: os₂ = (os₁ ++ [m.occasion]) ++ os₂ := by simp
  rw [hnext] at lawful
  -- The accounts right before the moment and right after it.
  have owed := run_balanced policy os₁ (.report id)
  have owed' := run_balanced policy (os₁ ++ [m.occasion]) (.report id)
  have once := (lawful_orderly lawful.take).countP_le (.report id)
  rw [run_concat] at owed' once
  simp only [engine_extend, effects_extend, admitted_extend, settled_append, List.countP_append,
    hengine] at owed owed' once
  have hturn : settled (.report id) (m.before.answer m.occasion).effects =
      settled (.report id) m.effects := rfl
  have hafter : (m.before.answer m.occasion).state.owes (.report id) =
      m.after.owes (.report id) := rfl
  have htaken : Moment.admitted ⟨m.before, m.occasion⟩ = m.admitted := rfl
  rw [hturn, hafter, htaken] at owed'
  rw [htaken] at once
  refine ⟨by omega, ?_⟩
  rw [Moment.Retires, Engine.holds_iff, Engine.holds_iff, ← countP_report_pos]
  omega

/-! ## The end of a run -/

theorem answer_stopped {e : Engine} (stopped : e.lifecycle = .stopped) (o : Occasion) :
    (e.answer o).state.lifecycle = .stopped := by
  cases o with
  | draw => exact stopped
  | input now input => exact (Engine.step_reacts now e input).lifecycle_of_stopped stopped

/-- After a shutdown the engine has stopped, whatever comes next. -/
theorem stopped_of_shutsDown (policy : RestartPolicy) (os : List Occasion) :
    (∃ m ∈ (run policy os).past, m.ShutsDown) → (run policy os).engine.lifecycle = .stopped := by
  refine run_induction (P := fun h => (∃ m ∈ h.past, m.ShutsDown) →
    h.engine.lifecycle = .stopped) ?_ ?_ os
  · rintro ⟨m, hm, -⟩
    cases hm
  · rintro h o ih ⟨m, hm, hshut⟩
    rw [past_extend, List.mem_append, List.mem_singleton] at hm
    -- The shutdown is in the past, or it is the turn that was just taken.
    rcases hm with hm | rfl
    · exact answer_stopped (ih ⟨m, hm, hshut⟩) o
    · obtain ⟨now, caller, ho⟩ := hshut
      cases ho
      exact (Engine.step_reacts now h.engine _).lifecycle_of_shutdown

/-- An engine that has stopped owes nothing. -/
theorem owes_of_stopped {e : Engine} (h : e.Consistent) (stopped : e.lifecycle = .stopped)
    (d : Due) : e.owes d = 0 := by
  have waiting := h.vacant (Or.inr (Or.inr stopped))
  have flying := h.live_eq_nil (by simp [stopped])
  simp [Engine.owes, waiting, flying]

/-! ## Exactly once -/

/-- While the caller of a job is owed an answer the job is held. -/
theorem Orderly.holds_of_owes {h : History} (orderly : h.Orderly) (held : h.Held) {j : Job}
    (hj : j ∈ h.admitted) {t : Ticket} (ht : j.owes (.answer t))
    (owed : 0 < h.engine.owes (.answer t)) : h.engine.Holds j.id := by
  rcases Engine.owes_pos.1 owed with ⟨k, hk, hkt⟩ | ⟨f, hf, hft⟩
  · exact Or.inl ⟨k, hk, by rw [orderly.eq_of_owes (held.queue k hk) hj hkt ht]⟩
  · obtain ⟨k, hk, same | same⟩ := held.live f hf
    · rw [same] at hft
      exact Or.inr ⟨f, hf, by rw [same, orderly.eq_of_owes hk hj hft ht]⟩
    · -- A caller that was told is not waiting any more.
      simp [same, Job.owes, Job.told] at hft

/-- **Every job is retired exactly once.** Take any job that a lawful run has taken on, submitted
    or replayed. After every turn it stands once in the queue, or is once in flight, or has been
    reported once. A turn reports it exactly when it retires it. A caller that waits on it is told
    at most once, and has been told when the job is retired. After a shutdown it is retired. -/
theorem retired_exactly_once {policy : RestartPolicy} {os : List Occasion}
    (lawful : Lawful policy os) {j : Job} (hj : j ∈ (run policy os).admitted) :
    let h := run policy os
    h.engine.queue.jobs.countP (·.id = j.id) + h.engine.flights.live.countP (·.job.id = j.id) +
        settled (.report j.id) h.effects = 1 ∧
      (∀ m ∈ h.past, settled (.report j.id) m.effects ≤ 1 ∧
        (settled (.report j.id) m.effects = 1 ↔ m.Retires j.id)) ∧
      (∀ t ∈ j.waiter, settled (.answer t) h.effects ≤ 1 ∧
        (¬ h.engine.Holds j.id → settled (.answer t) h.effects = 1)) ∧
      ((∃ m ∈ h.past, m.ShutsDown) → ¬ h.engine.Holds j.id) := by
  intro h
  have orderly : h.Orderly := lawful_orderly lawful
  -- Whatever the job came with was taken on once, and by no other job.
  have taken : ∀ d, j.owes d → h.admitted.countP (Job.owes d) = 1 := fun d hd =>
    Nat.le_antisymm (orderly.countP_le d) (List.countP_pos_iff.2 ⟨j, hj, hd⟩)
  refine ⟨?_, fun m hm => settled_report_iff lawful hm j.id, ?_, ?_⟩
  · have balanced := run_balanced policy os (.report j.id)
    rw [taken (.report j.id) (by simp [Job.owes])] at balanced
    exact balanced.symm
  · intro t ht
    have waits : j.owes (.answer t) := by simpa [Job.owes] using ht
    have balanced : _ = h.engine.owes (.answer t) + settled (.answer t) h.effects :=
      run_balanced policy os (.answer t)
    rw [taken (.answer t) waits] at balanced
    refine ⟨by omega, fun gone => ?_⟩
    have paid : ¬ 0 < h.engine.owes (.answer t) := fun owed =>
      gone (orderly.holds_of_owes (run_held policy os) hj waits owed)
    omega
  · intro shut
    have stopped := stopped_of_shutsDown policy os shut
    rw [Engine.holds_iff, owes_of_stopped (run_consistent policy os) stopped]
    exact Nat.lt_irrefl 0

/-! ## A run in which a job is retired late -/

/-- A document that a caller waits to see uploaded. -/
def upload : Job :=
  { id := ⟨1⟩, request := .addUri "a" "x", waiter := some 7 }

/-- The upload is cancelled in flight and answered late, a check is cut short by a restart, the
    document is replayed, and the engine shuts down. -/
def eventful : List Occasion :=
  [.draw, .draw, .input 0 (.command (.submit upload)),
    .input 1 (.command (.submit { id := ⟨2⟩, request := .check none, waiter := some 8 })),
    .input 2 (.started 0 (.ok ⟨0, none⟩)), .input 3 (.command (.cancel ⟨1⟩)),
    .input 4 (.frame 0 (.response ⟨1⟩ (.ok .null))), .input 5 (.command .restart),
    .input 6 (.started 1 (.ok ⟨1, none⟩))] ++ [.input 7 (.command (.shutdown none))]

theorem upload_retired_exactly_once :
    (Lawful {} eventful ∧ upload ∈ (run {} eventful).admitted) ∧
      (∃ m ∈ (run {} eventful).past, m.ShutsDown) ∧
      ¬ (run {} eventful).engine.Holds upload.id ∧
      settled (.answer 7) (run {} eventful).effects = 1 := by
  have lawful : Lawful {} eventful := by decide
  have taken : upload ∈ (run {} eventful).admitted := by decide
  have shut : ∃ m ∈ (run {} eventful).past, m.ShutsDown := by
    rw [eventful, run_concat, past_extend]
    exact ⟨_, List.mem_append_right _ (List.mem_singleton_self _), 7, none, rfl⟩
  obtain ⟨-, -, told, ended⟩ := retired_exactly_once lawful taken
  have gone := ended shut
  exact ⟨⟨lawful, taken⟩, shut, gone, (told 7 rfl).2 gone⟩

end History

end WorkerBridge
