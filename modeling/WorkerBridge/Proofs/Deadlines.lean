/-
  WorkerBridge.Proofs.Deadlines

  When the time of a flight is up, and what the table says of it.

  The table computes its next deadline and picks the flights that are out of time
  in two separate ways. They agree: the next deadline has passed exactly if a
  flight is due (`nextDeadline?_passed_iff`), and a flight is due exactly if the
  time limit of its registration has passed (`Registers.isDue_iff`). Once the due
  flights are taken nothing is due, and at that instant only a registration can
  change this (`Punctual.afterAll`), so that the engine does not turn in circles.
-/
import WorkerBridge.Proofs.Flights

namespace WorkerBridge

theorem Flight.isDue_iff {f : Flight} {now : Nat} :
    f.isDue now ↔ ∃ deadline, f.deadline = some deadline ∧ deadline ≤ now := by
  cases h : f.deadline <;> simp [isDue, h]

namespace InFlight

variable {t : InFlight} {calls : List Call} {f : Flight} {now : Nat}

/-! ## Registrations -/

/-- One of the calls registers the job at the given time, and the flight is the one that this
began. Its caller may have been told since. -/
def Registers (calls : List Call) (job : Job) (since : Nat) (f : Flight) : Prop :=
  .register job since ∈ calls ∧ f.disowned = (job.flight since).disowned

/-- Whatever is in flight was registered. -/
theorem registers_of_live (hf : f ∈ (run calls).live) :
    ∃ job since, Registers calls job since f := by
  induction calls using List.reverseRecOn generalizing f with
  | nil => cases hf
  | append_singleton calls c ih =>
    rw [run_concat] at hf
    obtain ⟨g, hg, same⟩ := after_live hf
    rcases List.mem_append.1 hg with old | begun
    · obtain ⟨job, since, registered, began⟩ := ih old
      exact ⟨job, since, List.mem_append_left _ registered, same.trans began⟩
    · cases c with
      | register job since =>
        cases List.mem_singleton.1 begun
        exact ⟨job, since, by simp, same⟩
      | resolve | cancel | expire | drain => cases begun

/-- The time of a flight is up when the limit of its job has passed since the registration. -/
theorem Registers.isDue_iff {job : Job} {since : Nat} (registered : Registers calls job since f) :
    f.isDue now ↔ ∃ limit, job.timeout = some limit ∧ since + limit ≤ now := by
  have deadline : f.deadline = job.timeout.map (since + ·) := congrArg (·.deadline) registered.2
  rw [Flight.isDue_iff, deadline]
  cases job.timeout <;> simp

/-- A flight keeps the limit and the time of its registration. -/
theorem Registers.limited {job : Job} {since : Nat} (registered : Registers calls job since f) :
    f.deadline = f.job.timeout.map (f.dispatchedAt + ·) := by
  have deadline : f.deadline = job.timeout.map (since + ·) := congrArg (·.deadline) registered.2
  have limit : f.job.timeout = job.timeout := congrArg (·.job.timeout) registered.2
  have dispatched : f.dispatchedAt = since := congrArg (·.dispatchedAt) registered.2
  rw [deadline, limit, dispatched]

/-! ## The next deadline -/

/-- The next deadline has passed exactly if a flight is due. -/
theorem nextDeadline?_passed_iff :
    (∃ deadline, t.nextDeadline? = some deadline ∧ deadline ≤ now) ↔ ∃ f ∈ t.live, f.isDue now := by
  constructor
  · rintro ⟨deadline, next, passed⟩
    obtain ⟨f, hf, own⟩ := List.mem_filterMap.1 (List.min?_mem next)
    exact ⟨f, hf, Flight.isDue_iff.2 ⟨deadline, own, passed⟩⟩
  · rintro ⟨f, hf, due⟩
    obtain ⟨own, limited, passed⟩ := Flight.isDue_iff.1 due
    have listed : own ∈ t.live.filterMap (·.deadline) := List.mem_filterMap.2 ⟨f, hf, limited⟩
    -- The earliest deadline is not after this one.
    obtain ⟨first, next⟩ :=
      Option.isSome_iff_exists.1 (List.isSome_min?_iff.2 (List.ne_nil_of_mem listed))
    exact ⟨first, next, Nat.le_trans ((List.min?_eq_some_iff.1 next).2 own listed) passed⟩

/-- Nothing in the table is out of time. -/
def Punctual (t : InFlight) (now : Nat) : Prop :=
  ∀ f ∈ t.live, ¬ f.isDue now

theorem Punctual.lt_nextDeadline (punctual : t.Punctual now) {deadline : Nat}
    (next : t.nextDeadline? = some deadline) : now < deadline := by
  by_contra passed
  obtain ⟨f, hf, due⟩ := nextDeadline?_passed_iff.1 ⟨deadline, next, Nat.le_of_not_lt passed⟩
  exact punctual f hf due

/-! ## Taking what is due -/

theorem mem_expire : f ∈ (t.expire now).1 ↔ f ∈ t.live ∧ f.isDue now :=
  List.mem_filter

theorem expire_perm (t : InFlight) (now : Nat) :
    ((t.expire now).1 ++ (t.expire now).2.live).Perm t.live :=
  List.filter_append_perm (fun f : Flight => f.isDue now) t.live

/-- Only what is handed out is missing afterwards. -/
theorem expire_live (t : InFlight) (now : Nat) :
    (t.expire now).2.live = t.live.filter (· ∉ (t.expire now).1) := by
  show t.live.filter (!·.isDue now) = _
  apply List.filter_congr
  intro f hf
  simp [mem_expire, hf]

theorem expire_punctual (t : InFlight) (now : Nat) : (t.expire now).2.Punctual now := by
  intro f hf due
  have undue := (List.mem_filter.1 hf).2
  simp [due] at undue

/-- At one instant, nothing gets out of time but by a registration. -/
theorem Punctual.after (punctual : t.Punctual now) {c : Call} (begins : c.begins? = none) :
    (t.after c).Punctual now := by
  intro f hf due
  obtain ⟨g, hg, same⟩ := after_live hf
  rw [begins, Option.toList_none, List.append_nil] at hg
  have deadline : f.deadline = g.deadline := congrArg (·.deadline) same
  apply punctual g hg
  rw [Flight.isDue_iff, ← deadline]
  exact Flight.isDue_iff.1 due

theorem Punctual.afterAll (punctual : t.Punctual now) {calls : List Call}
    (begins : ∀ c ∈ calls, c.begins? = none) : (t.afterAll calls).Punctual now := by
  induction calls generalizing t with
  | nil => exact punctual
  | cons c calls ih =>
    rw [List.forall_mem_cons] at begins
    exact ih (punctual.after begins.1) begins.2

/-- After its turn at a deadline, nothing is due to the engine but a job that the turn itself has
dispatched. -/
theorem due_after_onDeadline {e : Engine} (h : e.Consistent)
    (hf : f ∈ (e.onDeadline now).state.flights.live) (due : f.isDue now) :
    ∃ job ∈ e.queue.jobs, f = job.flight now := by
  rw [Engine.onDeadline_eq] at hf
  rcases Engine.dispatch_live hf h.up with ⟨old, -⟩ | ⟨job, waits, w, began, -⟩
  · exact absurd due (expire_punctual e.flights now f old)
  · exact ⟨job, waits, began⟩

/-! ## All together -/

/-- **Deadlines fire exactly.** Ask a new table anything, then let it take what is out of time now.
    It hands out exactly the flights whose job was registered with a time limit that has passed
    since, and each of them once; all others stay as they are. It hands out something if and only
    if its next deadline had passed. Afterwards its next deadline, if there is one, is still to
    come, and this stays so at that instant whatever is asked but a registration; in every run of
    the engine, what is due after a turn at a deadline is a job that was dispatched in this turn.
    And a flight that is handed out has lasted at least as long as its limit, also when both
    are counted in whole units of any length. -/
theorem deadlines_fire_exactly (calls : List Call) (now : Nat) :
    let t := run calls
    let due := (t.expire now).1
    let left := (t.expire now).2
    (∀ f, f ∈ due ↔ f ∈ t.live ∧ ∃ job since limit, Registers calls job since f ∧
      job.timeout = some limit ∧ since + limit ≤ now) ∧
    (due ++ left.live).Perm t.live ∧ left.live = t.live.filter (· ∉ due) ∧
    (due ≠ [] ↔ ∃ deadline, t.nextDeadline? = some deadline ∧ deadline ≤ now) ∧
    (∀ later : List Call, (∀ c ∈ later, c.begins? = none) →
      ∀ deadline, (left.afterAll later).nextDeadline? = some deadline → now < deadline) ∧
    (∀ policy os deadline, let e := (History.run policy os).engine
      (e.onDeadline now).state.flights.nextDeadline? = some deadline → deadline ≤ now →
      ∃ job ∈ e.queue.jobs, job.flight now ∈ (e.onDeadline now).state.flights.live) ∧
    ∀ f ∈ due, ∃ limit, f.job.timeout = some limit ∧
      ∀ unit, limit / unit ≤ f.elapsed now / unit := by
  intro t due left
  refine ⟨fun f => ?_, t.expire_perm now, t.expire_live now, ?_,
    fun later quiet deadline next => ?_, ?_, fun f hf => ?_⟩
  · rw [mem_expire, and_congr_right_iff]
    intro hf
    obtain ⟨job, since, registered⟩ := registers_of_live hf
    constructor
    · intro isDue
      obtain ⟨limit, limited, passed⟩ := registered.isDue_iff.1 isDue
      exact ⟨job, since, limit, registered, limited, passed⟩
    · rintro ⟨job', since', limit, registered', limited, passed⟩
      exact registered'.isDue_iff.2 ⟨limit, limited, passed⟩
  · rw [nextDeadline?_passed_iff]
    constructor
    · intro some
      obtain ⟨f, hf⟩ := List.exists_mem_of_ne_nil due some
      exact ⟨f, mem_expire.1 hf⟩
    · rintro ⟨f, hf⟩
      exact List.ne_nil_of_mem (mem_expire.2 hf)
  · exact ((t.expire_punctual now).afterAll quiet).lt_nextDeadline next
  · intro policy os deadline e next passed
    obtain ⟨f, hf, isDue⟩ := nextDeadline?_passed_iff.1 ⟨deadline, next, passed⟩
    have h : e.Consistent := History.run_consistent policy os
    obtain ⟨job, waits, rfl⟩ := due_after_onDeadline h hf isDue
    exact ⟨job, waits, hf⟩
  · obtain ⟨hlive, isDue⟩ := mem_expire.1 hf
    obtain ⟨job, since, registered⟩ := registers_of_live hlive
    obtain ⟨limit, limited, used⟩ := Flight.limit_le_elapsed registered.limited isDue
    exact ⟨limit, limited, fun unit => Nat.div_le_div_right used⟩

end InFlight

end WorkerBridge
