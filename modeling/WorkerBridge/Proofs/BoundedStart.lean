/-
  WorkerBridge.Proofs.BoundedStart

  A start makes its attempts one after the other, stops at the first that succeeds, fails
  with the fault of the last of as many as it was given, and has at most one channel
  open, on every course (`Course.start_is_bounded`). It does not hang either: left alone
  it comes to rest, with a result unless the worker on trial still has time.
-/
import WorkerBridge.Proofs.Courses

namespace WorkerBridge

variable {t : Timeouts} {s : StartId} {w : World} {k : WorkerId} {attempts : List Attempt}
  {wait : Nat}

/-! ## Coming to rest -/

namespace World

variable {startup : Startup} {task : StartTask}

/-- The steps that a start can take by itself, at most. A launch and the failure that may follow it
take one each, every event that waits takes one, and telling the result is the last. -/
def ahead (s : StartId) (w : World) : Nat :=
  match w.starts[s]? with
  | some { result := none, startup, .. } =>
    match startup.phase with
    | .spawning => 2 * startup.attemptsLeft + 3
    | .probing k _ => 2 * startup.attemptsLeft + 2 + (w.line k).events.length
    | .done _ => 1
  | _ => 0

/-- A failure brings a start nearer to its end than any trial. -/
theorem ahead_fail {fault : StartFault}
    (known : w.starts[s]? = some { startup := startup.fail fault }) :
    w.ahead s < 2 * startup.attemptsLeft + 2 := by
  rw [ahead, known, Startup.fail]
  cases startup.attemptsLeft with
  | zero => simp
  | succ left => simp; omega

theorem ahead_closeAttempt {fault : StartFault} (known : w.starts[s]? = some task)
    (line : k < w.lines.size) :
    ((w.setStart s { startup := startup.fail fault }).closeAttempt k).ahead s <
      2 * startup.attemptsLeft + 2 := by
  have closed := (closeAttempt_spec (w := w.setStart s { startup := startup.fail fault }) line).1
  exact ahead_fail (by rw [closed.starts, starts_setStart known])

/-- A start that cannot go on has come to what its latest attempt has come to. Otherwise a step
brings it nearer to that. -/
theorem Staged.rests_or_nears (staged : Staged t s attempts w) :
    (w.Rests s ∧ ∃ task a, w.starts[s]? = some task ∧ a ∈ attempts.head? ∧
      task.result = a.outcome? t.startup.toNat ∧
      (task.result = none → w.now < a.deadline t.startup.toNat)) ∨
    (w.startTurn s 1).ahead s < w.ahead s := by
  obtain ⟨task, known, stage⟩ := staged
  cases stage with
  | @spawning left attempts count failed =>
    right
    have before : w.ahead s = 2 * left + 3 := by rw [ahead, known]
    obtain ⟨v, launched, turn⟩ := startTurn_spawning known rfl
    have known' := starts_setStart (launched.starts ▸ known)
    rw [turn, before]
    cases launch : w.attempt.launch with
    | error fault => exact Nat.lt_succ_of_lt (ahead_fail (known' _))
    | ok k =>
      rw [ahead, known', Startup.onSpawn]
      dsimp only
      rw [line_setStart, (launched.fresh k launch).2]
      exact Nat.lt_succ_self _
  | @probing left k a past count failed trial =>
    have before : w.ahead s = 2 * left + 2 + (w.line k).events.length := by rw [ahead, known]
    cases events : (w.line k).events with
    | nil =>
      have outcome := trial.outcome?_of_nil events
      have turn := startTurn_waiting known rfl events
      by_cases due : a.deadline t.startup.toNat ≤ w.now
      · right
        rw [turn, if_pos due, before]
        exact Nat.lt_of_lt_of_le (ahead_closeAttempt known trial.known) (Nat.le_add_right _ _)
      · left
        rw [if_neg due] at turn outcome
        exact ⟨turn, _, a, known, rfl, outcome.symm, fun _ => Nat.lt_of_not_le due⟩
    | cons e rest =>
      right
      rw [startTurn_event known rfl events, before, events]
      have known' := starts_setStart (w := w.setLine k { w.line k with events := rest }) known
      cases Startup.verdict? e with
      | none =>
        dsimp only
        rw [ahead, known']
        dsimp only
        rw [line_setStart, line_setLine trial.known]
        simp
      | some v =>
        cases v with
        | ok version =>
          dsimp only
          rw [ahead, known']
          simp; omega
        | error fault =>
          refine Nat.lt_of_lt_of_le (ahead_closeAttempt (w := w.setLine k _) known ?_)
            (Nat.le_add_right _ _)
          simpa [setLine] using trial.known
  | @done left r result a past count failed outcome last told =>
    cases result with
    | some r' =>
      left
      refine ⟨startTurn_told known rfl 1, _, a, known, rfl, ?_, by simp⟩
      rw [outcome, told r' rfl]
    | none =>
      right
      rw [ahead, (startTurn_done known rfl).2, ahead, known]
      exact Nat.one_pos

/-- A turn of a start is one step after the other. -/
theorem startTurn_succ (known : w.starts[s]? = some { startup }) (fuel : Nat) :
    w.startTurn s (fuel + 1) = (w.startTurn s 1).startTurn s fuel := by
  cases phase : startup.phase with
  | done r =>
    rw [startTurn_told (startTurn_done known phase).2 rfl]
    simp [startTurn, known, phase]
  | spawning =>
    cases launch : w.spawn.1 <;> simp [startTurn, known, phase, launch]
  | probing k deadline =>
    cases events : (w.line k).events with
    | cons e rest => simp [startTurn, known, phase, events]
    | nil =>
      by_cases due : deadline ≤ w.now
      · simp [startTurn, known, phase, events, due]
      · have turn := startTurn_waiting known phase events
        rw [if_neg due] at turn
        rw [turn]
        cases fuel <;> simp [startTurn, known, phase, events, due]

theorem Staged.startTurn_succ (staged : Staged t s attempts w) (fuel : Nat) :
    w.startTurn s (fuel + 1) = (w.startTurn s 1).startTurn s fuel := by
  obtain ⟨task, known, stage⟩ := staged
  cases stage with
  | spawning => exact World.startTurn_succ known fuel
  | probing => exact World.startTurn_succ known fuel
  | @done _ _ result =>
    cases result with
    | none => exact World.startTurn_succ known fuel
    | some r => simp only [startTurn_told known rfl]

/-- **Left alone, a start comes to rest.** -/
theorem Staged.comes_to_rest (staged : Staged t s attempts w) :
    ∃ fuel, (w.startTurn s fuel).Rests s := by
  induction steps : w.ahead s using Nat.strongRecOn generalizing w attempts with
  | ind _ ih =>
    rcases staged.rests_or_nears with ⟨rest, -⟩ | nearer
    · exact ⟨0, rest⟩
    · obtain ⟨fuel, rest⟩ := ih _ (steps ▸ nearer) staged.step.1 rfl
      -- The fuel that brings the next world to rest does so one step later from here.
      refine ⟨fuel + 1, ?_⟩
      rwa [staged.startTurn_succ]

end World

/-! ## The main statement -/

namespace Stage

variable {task : StartTask}

theorem length_le (stage : Stage t w task attempts) : attempts.length ≤ t.attempts := by
  cases stage with
  | spawning count => omega
  | probing count => exact Nat.le_of_lt_succ (by rw [List.length_cons]; omega)
  | done count => exact count

/-- Every attempt but the latest has failed. -/
theorem tail_failed (stage : Stage t w task attempts) :
    ∀ a ∈ attempts.tail, a.Failed t.startup.toNat w := by
  cases stage with
  | spawning _ failed => exact fun a mem => failed a (List.mem_of_mem_tail mem)
  | probing _ failed => exact failed
  | done _ failed => exact failed

/-- What the start tells is what its latest attempt has come to. If that is a fault, the attempt was
the last one allowed. -/
theorem told (stage : Stage t w task attempts) {r : Except StartFault Started}
    (told : task.result = some r) :
    (∃ a ∈ attempts.head?, a.outcome? t.startup.toNat = some r) ∧
    ∀ fault, r = .error fault →
      attempts.length = t.attempts ∧ ∀ a ∈ attempts, a.Failed t.startup.toNat w := by
  cases stage with
  | spawning => cases told
  | probing => cases told
  | @done _ _ _ a _ _ failed outcome last only =>
    cases only r told
    refine ⟨⟨a, rfl, outcome⟩, fun fault isFault => ?_⟩
    obtain ⟨all, lost⟩ := last fault isFault
    exact ⟨all, List.forall_mem_cons.2 ⟨lost, failed⟩⟩

end Stage

/-- Attempts that have failed have no open channel. -/
theorem filter_isOpen_eq_nil (failed : ∀ a ∈ attempts, a.Failed wait w) :
    attempts.filter w.isOpen = [] := by
  refine List.filter_eq_nil_iff.2 fun a mem => ?_
  rw [World.isOpen]
  split
  next k launched => simp [(failed a mem).shut k launched]
  next => simp

/-- **A start is bounded.** Whatever launches and workers do, a start spawns once for each attempt
    and makes no more than it is allowed, at least one. Every attempt but the latest has failed, so
    it stops at the first that succeeds. What it tells is what the latest attempt has come to, and a
    fault is told only after as many attempts as are allowed, with no channel left open.

    An attempt succeeds if and only if it is answered. Left alone, the start comes to rest, and then
    it has told what its latest attempt has come to; if that is nothing, the time of the worker on
    trial is not up. At no time is more than one channel open. -/
theorem Course.start_is_bounded {w₀ : World}
    (fresh : w₀.starts[s]? = some { startup := .ofTimeouts t }) (course : Course s w₀ attempts w) :
    ∃ task, w.starts[s]? = some task ∧
      w.spawns = w₀.spawns + attempts.length ∧
      attempts.length ≤ max 1 t.startAttempts.toNat ∧
      (∀ a ∈ attempts.tail, ∃ fault, a.outcome? t.startup.toNat = some (.error fault)) ∧
      (∀ r, task.result = some r → ∃ a ∈ attempts.head?, a.outcome? t.startup.toNat = some r) ∧
      (∀ fault, task.result = some (.error fault) →
        attempts.length = max 1 t.startAttempts.toNat ∧ attempts.filter w.isOpen = []) ∧
      (∀ a ∈ attempts, ∀ started,
        a.outcome? t.startup.toNat = some (.ok started) ↔ a.Answered t.startup.toNat started) ∧
      (∃ fuel, (w.startTurn s fuel).Rests s) ∧
      (w.Rests s → ∃ a ∈ attempts.head?, task.result = a.outcome? t.startup.toNat ∧
        (task.result = none → w.now < a.deadline t.startup.toNat)) ∧
      (attempts.filter w.isOpen).length ≤ 1 := by
  obtain ⟨staged, spawned⟩ := course.staged fresh
  have rests := staged.rests_or_nears
  have comes := staged.comes_to_rest
  obtain ⟨task, known, stage⟩ := staged
  refine ⟨task, known, spawned, stage.length_le, fun a mem => (stage.tail_failed a mem).fault,
    fun r told => (stage.told told).1, fun fault told => ?_, fun _ _ _ => Attempt.outcome?_ok_iff,
    comes, fun rest => ?_, ?_⟩
  · obtain ⟨all, failed⟩ := (stage.told told).2 fault rfl
    exact ⟨all, filter_isOpen_eq_nil failed⟩
  · rcases rests with ⟨-, task', a, known', latest, outcome⟩ | nearer
    · cases known.symm.trans known'
      exact ⟨a, latest, outcome⟩
    · -- A start that rests is no nearer after a step.
      rw [rest] at nearer
      exact absurd nearer (Nat.lt_irrefl _)
  · cases attempts with
    | nil => exact Nat.zero_le 1
    | cons a past =>
      have shut : past.filter w.isOpen = [] := filter_isOpen_eq_nil stage.tail_failed
      rw [List.filter_cons, shut]
      split <;> simp

/-! ### A start whose first launch is refused -/

namespace World

/-- A launcher that refuses once, and a start of two attempts, of a second each. -/
def balky : World :=
  { failingSpawns := 1
    starts := #[{ startup := .ofTimeouts { startup := 1, startAttempts := 2 } }] }

/-- The worker of the second attempt is on trial. -/
def balkyOnTrial : World :=
  (balky.startTurn 0 1).startTurn 0 1

/-- The worker has answered in the last moment, behind a frame that cannot be read and an answer
that nobody has asked for. -/
def balkyAnswered : World :=
  { balkyOnTrial.setLine 0
      { balkyOnTrial.line 0 with
        events :=
          [.frame (.malformed none .notJson), .frame (.response ⟨7⟩ (.ok .null)),
            .frame (.response JobId.probe (.ok .null))] } with
    now := 1000 }

theorem balky_meanwhile : balkyOnTrial.Meanwhile 0 balkyAnswered where
  starts := rfl
  spawns := rfl
  inTime := by
    intro d answerBy
    cases (rfl : balkyOnTrial.answerBy? 0 = some 1000).symm.trans answerBy
    exact Nat.le_refl 1000
  size := by decide
  shut := by
    -- No channel is shut: there is only one, and it is open.
    intro k shut
    cases k with
    | zero => cases shut
    | succ k => exact absurd (lt_size_of_isShut shut) (Nat.not_lt_of_le (Nat.le_add_left 1 k))
  events := by
    intro k onTrial
    cases (rfl : balkyOnTrial.onTrial? 0 = some 0).symm.trans onTrial
    exact List.nil_prefix

end World

/-- The second attempt succeeds, and there is no third launch. -/
theorem Course.answered_at_second_attempt :
    World.balky.starts[0]? = some { startup := .ofTimeouts { startup := 1, startAttempts := 2 } } ∧
    ∃ attempts w, Course 0 World.balky attempts w ∧
      (w.starts[0]?).bind (·.result) = some (.ok { worker := 0, version := none }) ∧
      attempts.length = 2 ∧ w.spawns = 2 ∧ (attempts.filter w.isOpen).length ≤ 1 := by
  have opening : Course 0 World.balky [] World.balky := .begins
  have answered := opening.steps.steps.others World.balky_meanwhile
  have course := answered.steps.steps.steps.steps
  obtain ⟨-, -, spawned, -, -, -, -, -, -, -, opened⟩ :=
    course.start_is_bounded (t := { startup := 1, startAttempts := 2 }) rfl
  exact ⟨rfl, _, _, course, rfl, rfl, spawned, opened⟩

end WorkerBridge
