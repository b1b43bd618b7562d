/-
  WorkerBridge.Proofs.Budget

  How often the engine brings a worker back by itself.

  A failure of the worker, or of a start, costs one restart of the budget. A
  response to a known job and an explicit restart refill it. `Reacts.budget` says
  this once, for every reaction (`Spends`), and the counter of the engine is then
  a function of the past (`strikes`): the failures since the budget was refilled,
  as far as the budget goes. Once it is spent, the engine stays down and starts
  nothing until it is told to (`Reacts.stays_down`).
-/
import WorkerBridge.Proofs.Lifecycle

namespace WorkerBridge

namespace Engine

/-! ## What touches the budget -/

/-- The input is a response of the worker to a job in flight, or to one that is remembered. -/
def recognises (e : Engine) : Input → Bool
  | .frame w (.response id _) => e.worker = some w && e.flights.knows id
  | _ => false

/-- The input refills the restart budget. -/
def refills (e : Engine) (input : Input) : Bool :=
  e.restarts input || e.recognises input

theorem refills_of_fails {e : Engine} {input : Input} (h : e.fails input) :
    e.refills input = false := by
  cases input with
  | command | frame | deadline | restartDue => cases h
  | closed => rfl
  | started => rfl

/-- What a turn does to the restart budget, one case for each way. -/
inductive Spends (now : Nat) (e : Engine) (input : Input) (after : Engine) : Prop where
  | scheduled (failed : e.fails input) (budget : e.HasBudget)
      (count : after.failedRestarts = e.failedRestarts + 1)
      (timer : after.restartAt = some (now + (e.policy.delay e.failedRestarts).toNat))
      (down : after.lifecycle = .crashed)
  | gaveUp (failed : e.fails input) (spent : ¬ e.HasBudget)
      (count : after.failedRestarts = e.failedRestarts) (timer : after.restartAt = none)
      (down : after.lifecycle = .unavailable)
  | refilled (refill : e.refills input) (count : after.failedRestarts = 0)
      (timer : after.restartAt = none)
  | untouched (running : e.fails input = false) (unfilled : e.refills input = false)
      (count : after.failedRestarts = e.failedRestarts)
      (timer : after.restartAt = e.restartAt ∨ after.restartAt = none)

variable {now : Nat} {e : Engine} {input : Input} {t : Turn}

/-! ## Turns -/

theorem fails_of_ignores (h : e.Consistent) (hi : e.Ignores now input) :
    e.fails input = false := by
  cases input with
  | command | frame | deadline | restartDue => rfl
  | closed w reason =>
    rcases hi with stopped | strange
    · have nobody := h.no_worker (by simp [stopped]) (by simp [stopped])
      simp [fails, loses, nobody]
    · simpa [fails, loses] using strange
  | started start result =>
    cases result with
    | ok started => rfl
    | error fault =>
      rcases hi with stopped | strange
      · have idle : e.startup = none := by
          rw [← Option.not_isSome_iff_eq_none, h.startup]
          simp [stopped]
        simp [fails, idle]
      · simpa [fails] using strange

theorem refills_of_ignores (h : e.Consistent) (hi : e.Ignores now input) :
    e.refills input = false := by
  cases input with
  | closed | deadline | restartDue | started => rfl
  | command c =>
    have ended := e.hasEnded_iff.2 hi
    cases c <;> simp [refills, restarts, recognises, ended]
  | frame w incoming =>
    cases incoming with
    | malformed => rfl
    | response id outcome =>
      rcases hi with stopped | strange
      · have nobody := h.no_worker (by simp [stopped]) (by simp [stopped])
        simp [refills, restarts, recognises, nobody]
      · simp [refills, restarts, recognises, strange]

/-- A failure costs a restart, or is one too many. -/
theorem scheduleRestart_spends (failed : e.fails input) {e' : Engine}
    (policy : e'.policy = e.policy) (count : e'.failedRestarts = e.failedRestarts)
    (timer : e'.restartAt = none) :
    (scheduleRestart now e').state.policy = e.policy ∧
      Spends now e input (scheduleRestart now e').state := by
  have same : e'.HasBudget ↔ e.HasBudget := by rw [HasBudget, HasBudget, policy, count]
  rcases scheduleRestart_cases now e' with ⟨budget, hstate, -⟩ | ⟨spent, hstate, -⟩
  · rw [hstate]
    refine ⟨policy, .scheduled failed (same.1 budget) ?_ ?_ rfl⟩
    · rw [backOff, count]
    · rw [backOff, policy, count]
  · rw [hstate]
    exact ⟨policy, .gaveUp failed (fun budget => spent (same.2 budget)) count timer rfl⟩

/-- A dispatch leaves the budget and the timer alone. -/
theorem dispatch_budget (now : Nat) {e : Engine} (up : e.lifecycle.isUp → e.worker.isSome) :
    (dispatch now e).state.policy = e.policy ∧
      (dispatch now e).state.failedRestarts = e.failedRestarts ∧
      (dispatch now e).state.restartAt = e.restartAt := by
  obtain ⟨_, _, _, _, -, hstate⟩ := dispatch_frame now up
  rw [hstate]
  exact ⟨rfl, rfl, rfl⟩

/-- What a frame does to the budget: a response that is recognised refills it. -/
theorem onFrame_spends {w : WorkerId} (incoming : Incoming) (h : e.Consistent)
    (current : e.worker = some w) :
    (onFrame now incoming e).state.policy = e.policy ∧
      Spends now e (.frame w incoming) (onFrame now incoming e).state := by
  obtain ⟨hpolicy, hcount, htimer⟩ := dispatch_budget now
    (receive_unsettled incoming h).up
  have hreceived := receive_failedRestarts incoming e
  -- The frame itself leaves the policy and the timer alone, and so does the dispatch.
  obtain ⟨_, _, _, -, hstate⟩ := receive_frame incoming e
  have hsame : (onFrame now incoming e).state.policy = e.policy :=
    hpolicy.trans (by rw [hstate])
  have htimer' : (onFrame now incoming e).state.restartAt = e.restartAt :=
    htimer.trans (by rw [hstate])
  have hcount' : (onFrame now incoming e).state.failedRestarts = _ := hcount.trans hreceived
  have idle : e.restartAt = none := (h.no_start_of_worker (by simp [current])).2
  refine ⟨hsame, ?_⟩
  cases incoming with
  | malformed id fault => exact .untouched rfl rfl hcount' (Or.inl htimer')
  | response id outcome =>
    have hrefills : e.refills (.frame w (.response id outcome)) = e.flights.knows id := by
      simp [refills, restarts, recognises, current]
    cases hk : e.flights.knows id with
    | true =>
      exact .refilled (hrefills.trans hk) (hcount'.trans (if_pos hk)) (htimer'.trans idle)
    | false =>
      have unknown : ¬ e.flights.knows id = true := by simp [hk]
      exact .untouched rfl (hrefills.trans hk) (hcount'.trans (if_neg unknown)) (Or.inl htimer')

/-! ## Steps -/

/-- **What can happen to the budget.** Only a failure takes from it, only an explicit restart or a
    response that is recognised refills it, and the timer is armed by a failure alone. -/
theorem Reacts.budget (r : Reacts now e input t) (h : e.Consistent) :
    t.state.policy = e.policy ∧ Spends now e input t.state := by
  cases r with
  | ignored hi =>
    exact ⟨rfl, .untouched (fails_of_ignores h hi) (refills_of_ignores h hi) rfl (Or.inl rfl)⟩
  | shown => exact ⟨rfl, .untouched rfl rfl rfl (Or.inl rfl)⟩
  | submitted job =>
    rcases submit_cases now job e with ⟨-, heq⟩ | ⟨-, heq⟩
    · rw [heq]
      exact ⟨rfl, .untouched rfl rfl rfl (Or.inl rfl)⟩
    · obtain ⟨hpolicy, hcount, htimer⟩ := dispatch_budget now
        (e := { e.following job.request with queue := e.queue.push job }) h.up
      rw [heq]
      exact ⟨hpolicy, .untouched rfl rfl hcount (Or.inl htimer)⟩
  | cancelled id =>
    obtain ⟨_, _, hstate⟩ := cancel_frame id e
    rw [hstate]
    exact ⟨rfl, .untouched rfl rfl rfl (Or.inl rfl)⟩
  | restarted alive =>
    have running : e.hasEnded = false := by simpa [hasEnded] using alive
    rw [restart_state]
    exact ⟨rfl, .refilled (by simp [refills, restarts, running]) rfl rfl⟩
  | shutDown caller =>
    rw [shutdown_state]
    exact ⟨rfl, .untouched rfl rfl rfl (Or.inr rfl)⟩
  | heard incoming alive current => exact onFrame_spends incoming h current
  | lost reason alive current =>
    have idle := (h.no_start_of_worker (by simp [current])).2
    rw [crash_state]
    exact scheduleRestart_spends (by simp [fails, loses, current]) rfl rfl idle
  | expired =>
    obtain ⟨hpolicy, hcount, htimer⟩ := dispatch_budget now (e := e.expired now) h.up
    rw [onDeadline_eq]
    exact ⟨hpolicy, .untouched rfl rfl hcount (Or.inl htimer)⟩
  | due =>
    rw [beginStart_state]
    exact ⟨rfl, .untouched rfl rfl rfl (Or.inr rfl)⟩
  | started result alive pending =>
    cases result with
    | ok started =>
      obtain ⟨hpolicy, hcount, htimer⟩ := dispatch_budget now
        (e := e.welcome started) fun _ => rfl
      rw [onStarted_ok]
      exact ⟨hpolicy, .untouched rfl rfl hcount (Or.inl htimer)⟩
    | error fault =>
      have starting := h.startup.1 (by simp [pending])
      have idle : e.restartAt = none := by
        rw [← Option.not_isSome_iff_eq_none, h.timer]
        simp [starting]
      rw [onStarted_error]
      exact scheduleRestart_spends (by simp [fails, pending]) rfl rfl idle

/-- An engine that refuses jobs goes on doing so, and starts nothing, until it is told to
    restart. -/
theorem Reacts.stays_down (r : Reacts now e input t) (h : e.Consistent)
    (down : e.lifecycle.rejectsJobs) (untold : e.restarts input = false) :
    t.state.lifecycle.rejectsJobs ∧ ∀ start, .start start ∉ t.effects := by
  -- While it refuses jobs it has no worker, no start under way and no timer.
  have closed := (rejectsJobs_iff _).1 down
  have nobody : e.worker = none := by
    apply h.no_worker <;> rcases closed with closed | closed <;> simp [closed]
  have idle : e.flights.live = [] := by
    apply h.live_eq_nil
    rcases closed with closed | closed <;> simp [closed]
  cases r with
  | ignored => exact ⟨down, by simp⟩
  | shown => exact ⟨down, by simp⟩
  | submitted job =>
    rcases submit_cases now job e with ⟨-, heq⟩ | ⟨accepts, -⟩
    · rw [heq]
      refine ⟨down, fun start => ?_⟩
      simp [announce, finish]
    · exact absurd down accepts
  | cancelled id =>
    obtain ⟨_, _, hstate⟩ := cancel_frame id e
    refine ⟨by rw [hstate]; exact down, fun start => ?_⟩
    rcases cancel_cases id e with ⟨_, job, _, -, -, heq⟩ | ⟨-, heq⟩
    · simp [heq, finish]
    · cases hw : (e.flights.find? id).bind (·.job.waiter) <;> simp [heq, hw]
  | restarted alive => simp [restarts, hasEnded, alive] at untold
  | shutDown caller =>
    rw [shutdown_state, shutdown_effects]
    refine ⟨rfl, fun start => ?_⟩
    by_cases stopped : e.lifecycle = .stopped <;>
      simp [finish, nobody, idle, stopped]
  | heard _ _ current => cases nobody.symm.trans current
  | lost _ _ current => cases nobody.symm.trans current
  | expired =>
    have blocked : dispatch now (e.expired now) = (e.expired now).idle := by
      rcases dispatch_cases now (e.expired now) h.up with ⟨-, heq⟩ | ⟨up, -⟩ | ⟨_, _, _, up, -⟩
      · exact heq
      · exact absurd (h.up up) (by simp [nobody])
      · exact absurd (h.up up) (by simp [nobody])
    rw [onDeadline_eq, Turn.andThen_state, Turn.andThen_effects, blocked]
    exact ⟨down, by simp [idle]⟩
  | due _ armed =>
    have crashed := h.timer.1 (by simp [armed])
    rcases closed with closed | closed <;> cases closed.symm.trans crashed
  | started _ _ pending =>
    have starting := h.startup.1 (by simp [pending])
    rcases closed with closed | closed <;> cases closed.symm.trans starting

end Engine

theorem Moment.stays_down {m : Moment} (h : m.before.Consistent)
    (down : m.before.lifecycle.rejectsJobs) (untold : m.met Engine.restarts = false) :
    m.after.lifecycle.rejectsJobs ∧ ∀ start, .start start ∉ m.effects := by
  rcases m with ⟨e, o⟩
  cases o with
  | draw => exact ⟨down, fun _ => List.not_mem_nil⟩
  | input now input => exact (Engine.step_reacts now e input).stays_down h down untold

namespace History

/-! ## Counting failures in a run -/

/-- How many failures there were since the budget was last refilled. -/
def strikes (past : List Moment) : Nat :=
  past.foldl (fun k m =>
    if m.met Engine.refills then 0 else if m.met Engine.fails then k + 1 else k) 0

theorem strikes_concat (past : List Moment) (m : Moment) :
    strikes (past ++ [m]) =
      if m.met Engine.refills then 0
      else if m.met Engine.fails then strikes past + 1 else strikes past :=
  List.foldl_append

/-- From a refill on, and from the boot on, every failure counts. -/
theorem strikes_append {before stretch : List Moment}
    (opened : ∀ x ∈ before.getLast?, x.met Engine.refills)
    (unfilled : ∀ x ∈ stretch, x.met Engine.refills = false) :
    strikes (before ++ stretch) = stretch.countP (Moment.met Engine.fails) := by
  induction stretch using List.reverseRecOn with
  | nil =>
    rcases List.eq_nil_or_concat before with rfl | ⟨front, x, rfl⟩
    · rfl
    · have refilled : x.met Engine.refills := opened x (by simp)
      rw [List.append_nil, List.concat_eq_append, strikes_concat, if_pos refilled]
      rfl
  | append_singleton stretch x ih =>
    -- The last moment refills nothing, so it adds to what was counted before it.
    have earlier := ih fun y hy => unfilled y (List.mem_append_left _ hy)
    have last := unfilled x (by simp)
    rw [← List.append_assoc, strikes_concat, earlier, last, List.countP_append]
    cases hx : x.met Engine.fails <;> simp [hx]

/-- **The counter of a run.** It is the number of failures since the last refill, as far as the
    budget goes; without automatic restarts it stays at zero. -/
theorem run_budget (policy : RestartPolicy) (os : List Occasion) :
    (run policy os).engine.policy = policy ∧
      (run policy os).engine.failedRestarts.toNat =
        if policy.auto then min (strikes (run policy os).past) policy.maxRetries.toNat else 0 := by
  refine (run_induction (P := fun h => h.engine.Consistent ∧ h.engine.policy = policy ∧
    h.engine.failedRestarts.toNat =
      if policy.auto then min (strikes h.past) policy.maxRetries.toNat else 0) ?_ ?_ os).2
  · refine ⟨Engine.boot_consistent policy, rfl, ?_⟩
    simp [boot, Engine.boot, strikes]
  · rintro h o ⟨consistent, hpolicy, hcount⟩
    refine ⟨Engine.answer_consistent o consistent, ?_⟩
    rw [past_extend, strikes_concat]
    cases o with
    | draw => exact ⟨hpolicy, hcount⟩
    | input now input =>
      obtain ⟨hsame, spends⟩ := (Engine.step_reacts now h.engine input).budget consistent
      refine ⟨hsame.trans hpolicy, ?_⟩
      show (h.engine.step now input).state.failedRestarts.toNat =
        if policy.auto then
          min (if h.engine.refills input then 0
            else if h.engine.fails input then strikes h.past + 1 else strikes h.past)
            policy.maxRetries.toNat
        else 0
      cases spends with
      | scheduled failed budget count =>
        -- There was room for one more, so the increment does not wrap around.
        obtain ⟨auto, room⟩ := budget
        rw [hpolicy] at auto room
        have hroom := UInt32.lt_iff_toNat_lt.1 room
        have hmax := policy.maxRetries.toNat_lt
        have grown : (h.engine.failedRestarts + 1).toNat = h.engine.failedRestarts.toNat + 1 := by
          rw [UInt32.toNat_add, UInt32.toNat_one, Nat.mod_eq_of_lt (by omega)]
        rw [if_pos auto] at hcount
        rw [Engine.refills_of_fails failed, if_pos failed, if_pos auto, count, grown]
        simp only [Bool.false_eq_true, if_false]
        omega
      | gaveUp failed spent count =>
        -- The budget was spent before, so one failure more changes nothing.
        rw [Engine.refills_of_fails failed, if_pos failed, count, hcount]
        simp only [Bool.false_eq_true, if_false]
        by_cases auto : policy.auto = true
        · have full : ¬ h.engine.failedRestarts.toNat < policy.maxRetries.toNat := by
            intro room
            refine spent ⟨by rw [hpolicy]; exact auto, ?_⟩
            rw [hpolicy]
            exact UInt32.lt_iff_toNat_lt.2 room
          rw [hcount, if_pos auto] at full
          rw [if_pos auto, if_pos auto]
          omega
        · rw [if_neg auto, if_neg auto]
      | refilled refill count =>
        rw [count, if_pos refill]
        simp
      | untouched running unfilled count =>
        rw [count, hcount, running, unfilled]
        rfl

theorem failedRestarts_le (policy : RestartPolicy) (os : List Occasion) :
    (run policy os).engine.failedRestarts ≤ policy.maxRetries := by
  rw [UInt32.le_iff_toNat_le, (run_budget policy os).2]
  split <;> omega

/-- Once jobs are refused nothing is started, as long as nobody asks for a restart. -/
theorem no_start_while_down {policy : RestartPolicy} {os : List Occasion}
    {before rest after : List Moment} {m : Moment}
    (hpast : (run policy os).past = before ++ m :: (rest ++ after))
    (down : m.after.lifecycle.rejectsJobs)
    (untold : ∀ x ∈ rest, x.met Engine.restarts = false) :
    ∀ x ∈ rest, ∀ start, .start start ∉ x.effects := by
  intro x hx start
  obtain ⟨rest₁, rest₂, rfl⟩ := List.append_of_mem hx
  have hsplit : (run policy os).past = (before ++ m :: rest₁) ++ x :: (rest₂ ++ after) := by
    simpa using hpast
  obtain ⟨os₁, os₂, -, hbefore, hengine⟩ := run_split hsplit
  -- The engine is still down when the turn begins.
  have still : (run policy os₁).engine.lifecycle.rejectsJobs := by
    refine run_since (P := fun _ e => e.lifecycle.rejectsJobs) hbefore down ?_
    intro since y hy consistent held
    exact (Moment.stays_down consistent held (untold y (List.mem_append_left _ hy))).1
  rw [hengine] at still
  exact (Moment.stays_down (consistent_of_past hsplit) still (untold x (by simp))).2 start

/-- **The restart budget is accounted for.** The counter of the engine never exceeds the budget.
    Take a stretch of a run that begins at the boot or right after a refill and holds no refill,
    and let `n` failures precede another one in it. If restarts are automatic and `n` is below the
    budget, that failure arms the timer with exactly the delay of number `n`, and the counter goes
    from `n` to `n + 1`. Otherwise the engine is unavailable from then on, and nothing is started
    before an explicit restart. -/
theorem restart_budget_accounted (policy : RestartPolicy) (os : List Occasion) :
    (run policy os).engine.failedRestarts ≤ policy.maxRetries ∧
    ∀ before stretch m after now input,
      (run policy os).past = before ++ stretch ++ m :: after →
      (∀ x ∈ before.getLast?, x.met Engine.refills) →
      (∀ x ∈ stretch, x.met Engine.refills = false) →
      m.occasion = .input now input → m.before.fails input →
      let n := stretch.countP (Moment.met Engine.fails)
      (policy.auto ∧ n < policy.maxRetries.toNat →
        m.after.lifecycle = .crashed ∧
        m.after.restartAt = some (now + (policy.delay (UInt32.ofNat n)).toNat) ∧
        m.before.failedRestarts.toNat = n ∧ m.after.failedRestarts.toNat = n + 1) ∧
      (¬ (policy.auto ∧ n < policy.maxRetries.toNat) →
        m.after.lifecycle = .unavailable ∧ m.after.restartAt = none ∧
        ∀ rest later, after = rest ++ later →
          (∀ x ∈ rest, x.met Engine.restarts = false) →
          ∀ x ∈ rest, ∀ start, .start start ∉ x.effects) := by
  refine ⟨failedRestarts_le policy os, ?_⟩
  intro before stretch m after now input hpast opened unfilled hinput failed n
  obtain ⟨os₁, os₂, -, hbefore, hengine⟩ := run_split hpast
  -- The counter when the failure comes, and what the failure does to it.
  obtain ⟨hpolicy, hcount⟩ := run_budget policy os₁
  have consistent := run_consistent policy os₁
  rw [hbefore, strikes_append opened unfilled, hengine] at hcount
  rw [hengine] at hpolicy consistent
  have hcount' : m.before.failedRestarts.toNat =
      if policy.auto then min n policy.maxRetries.toNat else 0 := hcount
  have hafter : m.after = (m.before.step now input).state := by
    rw [Moment.after, Moment.turn, hinput]
    rfl
  have hmax := policy.maxRetries.toNat_lt
  have spends := ((Engine.step_reacts now m.before input).budget consistent).2
  rw [← hafter] at spends
  have hbudget : m.before.HasBudget ↔ policy.auto ∧ n < policy.maxRetries.toNat := by
    rw [Engine.HasBudget, hpolicy, UInt32.lt_iff_toNat_lt, hcount']
    constructor
    · rintro ⟨auto, room⟩
      rw [if_pos auto] at room
      exact ⟨auto, by omega⟩
    · rintro ⟨auto, room⟩
      rw [if_pos auto]
      exact ⟨auto, by omega⟩
  cases spends with
  | scheduled _ budget count timer down =>
    refine ⟨?_, fun spent => absurd (hbudget.1 budget) spent⟩
    rintro ⟨auto, room⟩
    have exact_count : m.before.failedRestarts.toNat = n := by
      rw [hcount', if_pos auto]
      omega
    have word : m.before.failedRestarts = UInt32.ofNat n := by
      rw [← exact_count, UInt32.ofNat_toNat]
    refine ⟨down, ?_, exact_count, ?_⟩
    · rw [timer, hpolicy, word]
    · rw [count, UInt32.toNat_add, UInt32.toNat_one, exact_count, Nat.mod_eq_of_lt (by omega)]
  | gaveUp _ spent _ timer down =>
    refine ⟨fun budget => absurd (hbudget.2 budget) spent, fun _ => ⟨down, timer, ?_⟩⟩
    rintro rest later rfl untold
    exact no_start_while_down hpast (by rw [down]; rfl) untold
  | refilled refill =>
    rw [Engine.refills_of_fails failed] at refill
    cases refill
  | untouched running =>
    rw [failed] at running
    cases running

/-! ## A run that uses up its budget -/

/-- The first start fails, and the engine tries again when the timer is due. -/
def setback : List Occasion :=
  [.input 0 (.started 0 (.error (.silent 30))), .input 9000 .restartDue]

/-- The second start fails too. -/
def failedAgain : Occasion :=
  .input 9001 (.started 1 (.error (.silent 30)))

theorem second_failure_gives_up :
    let once : RestartPolicy := { maxRetries := 1 }
    let h := run once setback
    let m : Moment := ⟨h.engine, failedAgain⟩
    ((∀ x ∈ h.past, x.met Engine.refills = false) ∧
      h.past.countP (Moment.met Engine.fails) = 1 ∧ m.met Engine.fails) ∧
    m.after.lifecycle = .unavailable ∧ m.after.restartAt = none ∧
      ∀ start, .start start ∉ Moment.effects ⟨m.after, .input 9002 .restartDue⟩ := by
  intro once h m
  have unfilled : ∀ x ∈ h.past, x.met Engine.refills = false := by decide +kernel
  have one : h.past.countP (Moment.met Engine.fails) = 1 := by decide +kernel
  have failed : m.met Engine.fails := by decide +kernel
  have hpast : (run once (setback ++ [failedAgain] ++ [.input 9002 .restartDue])).past =
      [] ++ h.past ++ m :: [⟨m.after, .input 9002 .restartDue⟩] := by
    rw [run_concat, run_concat]
    simp [h, m, Moment.after, Moment.turn]
  have accounted := (restart_budget_accounted once _).2 [] h.past m _ 9001 _ hpast
    (by simp) unfilled rfl failed
  have spent : ¬ (once.auto ∧ h.past.countP (Moment.met Engine.fails) < once.maxRetries.toNat) := by
    rw [one]
    decide
  obtain ⟨down, timer, quiet⟩ := accounted.2 spent
  refine ⟨⟨unfilled, one, failed⟩, down, timer, ?_⟩
  exact quiet [⟨m.after, .input 9002 .restartDue⟩] [] rfl (by simp [Moment.met, Engine.restarts]) _
    (List.mem_singleton_self _)

end History

end WorkerBridge
