/-
  WorkerBridge.Proofs.CrashLoop

  How long a crash loop lasts.

  A worker that keeps failing is restarted as often as the budget allows
  (`arms_le_refills`: every refill buys one budget more). The open documents are
  replayed to each worker, and an answer to a replayed job refills the budget as
  well as an answer to any other. So while nobody asks for anything, the loop ends
  unless workers answer replayed jobs before they fail. If they do, it need not
  end at all: in `rounds` each worker takes the replayed document and fails on
  the check, and one restart follows another.
-/
import WorkerBridge.Proofs.Budget

namespace WorkerBridge

namespace Moment

/-- The turn schedules a restart: it arms the timer. -/
def arms (m : Moment) : Bool :=
  m.before.restartAt.isNone && m.after.restartAt.isSome

/-- The turn answered a command. -/
def isCommand (m : Moment) : Bool :=
  match m.occasion with
  | .input _ (.command _) => true
  | _ => false

/-- The job that the worker answered, if the engine recognised the response. -/
def answered? (m : Moment) : Option JobId :=
  match m.occasion with
  | .input _ (.frame w (.response id outcome)) =>
    if m.before.recognises (.frame w (.response id outcome)) then some id else none
  | _ => none

theorem refills_of_not_command {m : Moment} (h : m.isCommand = false) :
    m.met Engine.refills = m.answered?.isSome := by
  rcases m with ⟨e, o⟩
  cases o with
  | draw => rfl
  | input now input =>
    cases input with
    | command => cases h
    | frame w incoming =>
      cases incoming with
      | malformed => rfl
      | response id outcome =>
        show (false || e.recognises (.frame w (.response id outcome))) = Option.isSome (ite ..)
        cases e.recognises (.frame w (.response id outcome)) <;> rfl
    | closed | deadline | restartDue | started => rfl

theorem submitted?_of_not_command {m : Moment} (h : m.isCommand = false) :
    m.submitted? = none := by
  rcases m with ⟨e, o⟩
  cases o with
  | draw => rfl
  | input now input =>
    cases input with
    | command => cases h
    | frame | closed | deadline | restartDue | started => rfl

end Moment

/-- A turn that schedules a restart raises the counter, and one that lowers it is a refill. -/
theorem Engine.Spends.covered {now : Nat} {e after : Engine} {input : Input}
    (spends : Spends now e input after)
    (room : e.failedRestarts.toNat ≤ e.policy.maxRetries.toNat) :
    after.failedRestarts.toNat ≤ e.policy.maxRetries.toNat ∧
      (e.restartAt.isNone && after.restartAt.isSome).toNat + e.failedRestarts.toNat ≤
        e.policy.maxRetries.toNat * (e.refills input).toNat + after.failedRestarts.toNat := by
  cases spends with
  | scheduled failed budgeted count =>
    -- The budget is a word, so a counter below it has room for one more.
    have hlt := UInt32.lt_iff_toNat_lt.1 budgeted.2
    have hmax := e.policy.maxRetries.toNat_lt
    have grown : (e.failedRestarts + 1).toNat = e.failedRestarts.toNat + 1 := by
      rw [UInt32.toNat_add, UInt32.toNat_one, Nat.mod_eq_of_lt (by omega)]
    have once := Bool.toNat_le (e.restartAt.isNone && after.restartAt.isSome)
    rw [count, grown]
    omega
  | gaveUp _ _ count timer =>
    rw [count, timer]
    simp only [Option.isSome_none, Bool.and_false, Bool.toNat_false]
    omega
  | refilled refill count timer =>
    rw [count, timer, refill]
    simp only [Option.isSome_none, Bool.and_false, Bool.toNat_false, Bool.toNat_true,
      UInt32.toNat_zero]
    omega
  | untouched _ _ count timer =>
    have unarmed : (e.restartAt.isNone && after.restartAt.isSome) = false := by
      rcases timer with timer | timer
      · rw [timer]
        cases e.restartAt <;> rfl
      · rw [timer]
        exact Bool.and_false _
    rw [count, unarmed]
    simp only [Bool.toNat_false]
    omega

theorem Moment.arms_covered {m : Moment} (consistent : m.before.Consistent)
    (room : m.before.failedRestarts.toNat ≤ m.before.policy.maxRetries.toNat) :
    m.after.policy = m.before.policy ∧
      m.after.failedRestarts.toNat ≤ m.before.policy.maxRetries.toNat ∧
      m.arms.toNat + m.before.failedRestarts.toNat ≤
        m.before.policy.maxRetries.toNat * (m.met Engine.refills).toNat +
          m.after.failedRestarts.toNat := by
  rcases m with ⟨e, o⟩
  cases o with
  | draw =>
    have unarmed : arms ⟨e, .draw⟩ = false := by
      show (e.restartAt.isNone && e.restartAt.isSome) = false
      cases e.restartAt <;> rfl
    rw [unarmed]
    exact ⟨rfl, room, Nat.add_le_add_right (Nat.zero_le _) _⟩
  | input now input =>
    obtain ⟨hpolicy, spends⟩ := (Engine.step_reacts now e input).budget consistent
    exact ⟨hpolicy, spends.covered room⟩

namespace History

/-! ## The bound -/

/-- Restarts are paid for by the counter, and every refill buys at most one budget more. -/
theorem arms_le_refills {policy : RestartPolicy} {os : List Occasion}
    {before stretch after : List Moment}
    (hpast : (run policy os).past = before ++ stretch ++ after) :
    stretch.countP Moment.arms ≤
      policy.maxRetries.toNat * (stretch.countP (Moment.met Engine.refills) + 1) := by
  obtain ⟨os₁, _, -, hstretch⟩ := run_prefix hpast
  -- What was scheduled is covered by the refills and by what the counter shows.
  have covered : (run policy os₁).engine.policy = policy ∧
      (run policy os₁).engine.failedRestarts.toNat ≤ policy.maxRetries.toNat ∧
      stretch.countP Moment.arms ≤
        policy.maxRetries.toNat * stretch.countP (Moment.met Engine.refills) +
          (run policy os₁).engine.failedRestarts.toNat := by
    refine run_from (P := fun since e => e.policy = policy ∧
      e.failedRestarts.toNat ≤ policy.maxRetries.toNat ∧
      since.countP Moment.arms ≤
        policy.maxRetries.toNat * since.countP (Moment.met Engine.refills) +
          e.failedRestarts.toNat) hstretch ?_ ?_
    · intro os₀ _
      exact ⟨(run_budget policy os₀).1, UInt32.le_iff_toNat_le.1 (failedRestarts_le policy os₀),
        Nat.zero_le _⟩
    · rintro since x - consistent ⟨hpolicy, room, hcovered⟩
      rw [← hpolicy] at room hcovered
      obtain ⟨hsame, hroom, hstep⟩ := Moment.arms_covered consistent room
      rw [hpolicy] at room hcovered hroom hstep
      refine ⟨hsame.trans hpolicy, hroom, ?_⟩
      have counted : ∀ p : Moment → Bool, [x].countP p = (p x).toNat := by
        intro p
        rw [List.countP_singleton]
        cases p x <;> rfl
      rw [List.countP_append, List.countP_append, counted, counted, Nat.mul_add]
      omega
  obtain ⟨-, hroom, hcovered⟩ := covered
  rw [Nat.mul_succ]
  omega

/-- In the stretch no caller asks for anything, and no job of a caller is answered. -/
def Quiet (h : History) (stretch : List Moment) : Prop :=
  ∀ x ∈ stretch, x.isCommand = false ∧ ∀ id ∈ x.answered?, id ∉ h.submitted.map (·.id)

/-! ## A loop without an end -/

/-- How long the engine waits before the first restart. -/
def pause (policy : RestartPolicy) : Nat :=
  (policy.delay 0).toNat

/-- A document is opened, and the first worker is handed it. -/
def onset : List Occasion :=
  [.draw, .input 0 (.command (.submit { id := ⟨1⟩, request := .addUri "a" "x" })),
    .input 0 (.started 0 (.ok ⟨0, none⟩))]

section Loop

variable (policy : RestartPolicy) (k : Nat)

/-- Worker `k` has failed: the document is still open, and a restart is scheduled. -/
def fallen : Engine :=
  { policy, documents := { documents := [("a", ⟨"x", 1⟩)] }, lifecycle := .crashed
    restartAt := some ((k + 1) * pause policy), failedRestarts := 1, replayOnReady := true
    nextId := 2 * k + 2, nextStart := k + 1 }

/-- The next worker is being started. -/
def waking : Engine :=
  { fallen policy k with
    restartAt := none, lifecycle := .starting, startup := some (k + 1), nextStart := k + 2 }

/-- The next worker is up, and has been handed the document. -/
def loading : Engine :=
  { waking policy k with
    lifecycle := .busy, startup := none, worker := some (k + 1), replayOnReady := false
    queue := ⟨[{ id := ⟨2 * k + 3⟩, request := .check none }]⟩
    flights := { live :=
      [Job.flight { id := ⟨2 * k + 2⟩, request := .addUri "a" "x" } ((k + 1) * pause policy)] }
    nextId := 2 * k + 4 }

/-- It has taken the document, and has been handed the check. -/
def checking : Engine :=
  { loading policy k with
    queue := {}, failedRestarts := 0
    flights := { live :=
      [Job.flight { id := ⟨2 * k + 3⟩, request := .check none } ((k + 1) * pause policy)] } }

/-- One round: the timer runs out, the next worker comes up, takes the replayed document, and fails
    on the check. -/
def round : List Moment :=
  [⟨fallen policy k, .input ((k + 1) * pause policy) .restartDue⟩,
    ⟨waking policy k,
      .input ((k + 1) * pause policy) (.started (k + 1) (.ok ⟨k + 1, none⟩))⟩,
    ⟨loading policy k,
      .input ((k + 1) * pause policy) (.frame (k + 1) (.response ⟨2 * k + 2⟩ (.ok .null)))⟩,
    ⟨checking policy k, .input ((k + 1) * pause policy) (.closed (k + 1) .endOfOutput)⟩]

/-- The first worker fails, and so do its successors. -/
def rounds : Nat → List Moment
  | 0 => [⟨(run policy onset).engine, .input 0 (.closed 0 .endOfOutput)⟩]
  | n + 1 => rounds n ++ round policy n

end Loop

section Loop

open Engine

variable {policy : RestartPolicy} {k : Nat}

/-! Each state of a round leads to the next. -/

theorem fallen_next :
    ((fallen policy k).answer (.input ((k + 1) * pause policy) .restartDue)).state =
      waking policy k := by
  simp [Engine.answer, Engine.step, fallen, waking, hasEnded]

theorem waking_next :
    ((waking policy k).answer
      (.input ((k + 1) * pause policy) (.started (k + 1) (.ok ⟨k + 1, none⟩)))).state =
      loading policy k := by
  simp [Engine.answer, Engine.step, fallen, waking, loading, hasEnded, onStarted, issueJobs,
    Documents.replay, Queue.pushAhead, dispatch, Lifecycle.isUp, InFlight.isIdle, Queue.pop?,
    Job.kind, Request.kind, InFlight.register, Job.flight]

/-- The answer to the replayed document refills the budget. -/
theorem loading_next :
    ((loading policy k).answer (.input ((k + 1) * pause policy)
      (.frame (k + 1) (.response ⟨2 * k + 2⟩ (.ok .null))))).state = checking policy k := by
  simp [Engine.answer, Engine.step, fallen, waking, loading, checking, hasEnded, onFrame, receive,
    onResponse, InFlight.resolve, InFlight.find?, applyResponse, dispatch, Lifecycle.isUp,
    InFlight.isIdle, Queue.pop?, Job.kind, Request.kind, InFlight.register, Documents.clear,
    Job.flight]

theorem checking_next (auto : policy.auto) (room : 0 < policy.maxRetries) :
    ((checking policy k).answer
      (.input ((k + 1) * pause policy) (.closed (k + 1) .endOfOutput))).state =
      fallen policy (k + 1) := by
  simp [Engine.answer, Engine.step, fallen, waking, loading, checking, hasEnded, crash_state,
    scheduleRestart, auto, room, pause, Nat.add_mul, Nat.mul_add]

theorem onset_next (auto : policy.auto) (room : 0 < policy.maxRetries) :
    ((run policy onset).engine.answer (.input 0 (.closed 0 .endOfOutput))).state =
      fallen policy 0 := by
  have loaded : (run policy onset).engine =
      { policy, documents := { documents := [("a", ⟨"x", 1⟩)] }, lifecycle := .busy
        flights := { live := [Job.flight { id := ⟨1⟩, request := .addUri "a" "x" } 0] }
        worker := some 0, nextId := 2, nextStart := 1 } := rfl
  simp [loaded, Engine.answer, Engine.step, fallen, hasEnded, crash_state, scheduleRestart, auto,
    room, pause]

theorem round_run (auto : policy.auto) (room : 0 < policy.maxRetries) {h : History}
    (start : h.engine = fallen policy k) :
    ((round policy k).map (·.occasion)).foldl extend h =
      { engine := fallen policy (k + 1), past := h.past ++ round policy k } := by
  simp only [round, List.map_cons, List.map_nil, List.foldl_cons, List.foldl_nil, extend, start,
    fallen_next, waking_next, loading_next, checking_next auto room, List.append_assoc,
    List.cons_append, List.nil_append]

/-- The moments of the loop are those of a run. -/
theorem rounds_run (auto : policy.auto) (room : 0 < policy.maxRetries) (n : Nat) :
    run policy (onset ++ (rounds policy n).map (·.occasion)) =
      { engine := fallen policy n, past := (run policy onset).past ++ rounds policy n } := by
  induction n with
  | zero =>
    rw [rounds, List.map_singleton, run_concat, extend, onset_next auto room]
  | succ n ih =>
    -- A round begins in the state in which the one before it ends.
    have longer : run policy (onset ++ (rounds policy (n + 1)).map (·.occasion)) =
        ((round policy n).map (·.occasion)).foldl extend
          (run policy (onset ++ (rounds policy n).map (·.occasion))) := by
      rw [rounds, List.map_append, ← List.append_assoc]
      exact List.foldl_append
    rw [longer, round_run auto room (by rw [ih]), ih, rounds, List.append_assoc]

/-- Every round schedules one restart: when its worker fails. -/
theorem rounds_arms (auto : policy.auto) (room : 0 < policy.maxRetries) (n : Nat) :
    (rounds policy n).countP Moment.arms = n + 1 := by
  induction n with
  | zero =>
    have armed : Moment.arms ⟨(run policy onset).engine, .input 0 (.closed 0 .endOfOutput)⟩ := by
      rw [Moment.arms, Moment.after, Moment.turn, onset_next auto room]
      rfl
    rw [rounds, List.countP_singleton, if_pos armed]
  | succ n ih =>
    have once : (round policy n).countP Moment.arms = 1 := by
      simp only [round, List.countP_cons, List.countP_nil, Moment.arms, Moment.after, Moment.turn,
        fallen_next, waking_next, loading_next, checking_next auto room]
      rfl
    rw [rounds, List.countP_append, ih, once]

/-- Nobody asks for anything, and only replayed jobs are answered. -/
theorem rounds_quiet (n : Nat) : ∀ x ∈ rounds policy n,
    x.isCommand = false ∧ ∀ id ∈ x.answered?, id ≠ ⟨1⟩ := by
  induction n with
  | zero =>
    intro x hx
    rw [rounds, List.mem_singleton] at hx
    rw [hx]
    exact ⟨rfl, by simp [Moment.answered?]⟩
  | succ n ih =>
    have quiet : ∀ x ∈ round policy n, x.isCommand = false ∧ ∀ id ∈ x.answered?, id ≠ ⟨1⟩ := by
      simp [round, Moment.isCommand, Moment.answered?]
    intro x hx
    rw [rounds, List.mem_append] at hx
    rcases hx with hx | hx
    · exact ih x hx
    · exact quiet x hx

theorem rounds_workers (n : Nat) : ∀ w ∈ (rounds policy n).filterMap (·.worker?), w ≤ n := by
  induction n with
  | zero => simp [rounds, Moment.worker?]
  | succ n ih =>
    intro w hw
    rw [rounds, List.filterMap_append, List.mem_append] at hw
    rcases hw with hw | hw
    · exact Nat.le_succ_of_le (ih w hw)
    · simp [round, Moment.worker?] at hw
      omega

theorem onset_lawful (policy : RestartPolicy) : Lawful policy onset := by
  refine ⟨trivial, ⟨?_, ?_, ?_⟩, ?_, trivial⟩
  · exact List.mem_singleton_self _
  · exact List.not_mem_nil
  · intro t ht
    cases ht
  · exact List.not_mem_nil

theorem rounds_lawful (auto : policy.auto) (room : 0 < policy.maxRetries) (n : Nat) :
    Lawful policy (onset ++ (rounds policy n).map (·.occasion)) := by
  induction n with
  | zero => exact (onset_lawful policy).concat trivial
  | succ n ih =>
    rw [rounds, List.map_append, ← List.append_assoc]
    refine Along.append ih ?_
    show Along Allows (run policy (onset ++ (rounds policy n).map (·.occasion))) _
    -- The worker that comes up in this round is none of the earlier ones.
    have fresh : n + 1 ∉
        (run policy (onset ++ (rounds policy n).map (·.occasion))).workers := by
      rw [rounds_run auto room n, workers, List.filterMap_append, List.mem_append]
      rintro (known | known)
      · have first : (run policy onset).past.filterMap (·.worker?) = [0] := rfl
        rw [first, List.mem_singleton] at known
        omega
      · have earlier := rounds_workers n _ known
        omega
    refine ⟨trivial, ?_, rfl, trivial, trivial⟩
    intro known
    rw [mem_workers_extend] at known
    rcases known with known | known
    · exact fresh known
    · cases known

end Loop

/-- **A crash loop lasts as long as workers answer replayed jobs.** In any stretch of a run in
    which no caller asks for anything and no job of a caller is answered, the restarts that are
    scheduled are at most the budget, once for the stretch and once more for each response to a
    replayed job. That bound is no bound on the stretch: unless there is no budget at all, a lawful
    run has such a stretch with as many restarts as one likes. -/
theorem crash_loop_lasts_while_replays_are_answered (policy : RestartPolicy) :
    (∀ os before stretch after, (run policy os).past = before ++ stretch ++ after →
      (run policy os).Quiet stretch →
      stretch.countP Moment.arms ≤
        policy.maxRetries.toNat * (stretch.countP (·.answered?.isSome) + 1)) ∧
    (policy.auto → 0 < policy.maxRetries → ∀ n, ∃ os before stretch,
      Lawful policy os ∧ (run policy os).past = before ++ stretch ∧
        (run policy os).Quiet stretch ∧ n < stretch.countP Moment.arms) := by
  constructor
  · intro os before stretch after hpast quiet
    have refills : stretch.countP (Moment.met Engine.refills) =
        stretch.countP (·.answered?.isSome) :=
      List.countP_congr fun x hx => by rw [Moment.refills_of_not_command (quiet x hx).1]
    rw [← refills]
    exact arms_le_refills hpast
  · intro auto room n
    have hrun := rounds_run auto room n
    refine ⟨onset ++ (rounds policy n).map (·.occasion), (run policy onset).past, rounds policy n,
      rounds_lawful auto room n, by rw [hrun], ?_, ?_⟩
    · -- The only job of a caller is that of the onset.
      have asked : (run policy (onset ++ (rounds policy n).map (·.occasion))).submitted.map (·.id) =
          [⟨1⟩] := by
        have silent : (rounds policy n).filterMap (·.submitted?) = [] := by
          rw [List.filterMap_eq_nil_iff]
          intro x hx
          exact Moment.submitted?_of_not_command (rounds_quiet n x hx).1
        rw [hrun, submitted, List.filterMap_append, silent]
        rfl
      intro x hx
      obtain ⟨uncommanded, replayed⟩ := rounds_quiet n x hx
      refine ⟨uncommanded, fun id hid => ?_⟩
      rw [asked, List.mem_singleton]
      exact replayed id hid
    · rw [rounds_arms auto room n]
      exact Nat.lt_succ_self n

/-- By default five restarts make up the budget, and a loop can have more. -/
theorem default_policy_outlasted :
    ({} : RestartPolicy).maxRetries = 5 ∧ ∃ os before stretch,
      Lawful {} os ∧ (run {} os).past = before ++ stretch ∧ (run {} os).Quiet stretch ∧
        5 < stretch.countP Moment.arms :=
  ⟨rfl, (crash_loop_lasts_while_replays_are_answered {}).2 rfl (by decide) 5⟩

end History

end WorkerBridge
