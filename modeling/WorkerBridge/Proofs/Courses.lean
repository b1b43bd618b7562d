/-
  WorkerBridge.Proofs.Courses

  The start of a worker among whatever else happens. A course is any interleaving of
  the steps of one start with changes by others, which launch workers as they like and
  deliver to the worker on trial what they like, when they like.

  The invariant (`Stage`) goes phase by phase: which attempts have failed, how many are
  left, and what of the deliveries to the worker on trial was taken. A step keeps it
  (`Staged.step`), others keep it (`Staged.meanwhile`), and so does a course
  (`Course.staged`).
-/
import WorkerBridge.Proofs.Attempts

namespace WorkerBridge

/-! ## Courses -/

namespace World

/-- The worker on trial in a start. -/
def onTrial? (s : StartId) (w : World) : Option WorkerId :=
  (w.starts[s]?).bind (·.startup.worker?)

/-- Until when the worker on trial in a start can answer. -/
def answerBy? (s : StartId) (w : World) : Option Nat :=
  (w.starts[s]?).bind (·.startup.deadline?)

/-- What can happen between two steps of a start. The start is its own, as is the taking of the
events of its worker, and the clock does not pass its deadline without it. Nobody else spawns, and
what is shut stays shut. Anything else may change, the ways of the launcher and of the workers
included. -/
structure Meanwhile (s : StartId) (w w' : World) : Prop where
  starts : w'.starts[s]? = w.starts[s]?
  spawns : w'.spawns = w.spawns
  inTime : ∀ deadline ∈ w.answerBy? s, w'.now ≤ deadline
  size : w.lines.size ≤ w'.lines.size
  shut : ∀ k, (w.line k).isShut → (w'.line k).isShut
  events : ∀ k ∈ w.onTrial? s, (w.line k).events <+: (w'.line k).events

/-- A start that does not go on by itself: it has told its result, or it waits. -/
def Rests (s : StartId) (w : World) : Prop :=
  w.startTurn s 1 = w

/-- The attempt that the next step of a start begins: one, if that step spawns. -/
def begun (s : StartId) (w : World) : List Attempt :=
  if (w.startTurn s 1).spawns = w.spawns then [] else [w.attempt]

end World

/-- What is seen of an attempt after a change by others: what they have delivered to the worker, if
it is still on trial. -/
def Attempt.hear (s : StartId) (w w' : World) (a : Attempt) : Attempt :=
  match w.onTrial? s with
  | none => a
  | some k =>
    { a with
      watched := w'.now
      deliveries := a.deliveries ++
        ((w'.line k).events.drop (w.line k).events.length).map (w'.now, ·) }

/-- The worlds that a start can come to from a world, with the attempts that it has made, latest
first. -/
inductive Course (s : StartId) (w₀ : World) : List Attempt → World → Prop
  | begins : Course s w₀ [] w₀
  | others {attempts : List Attempt} {w w' : World} (course : Course s w₀ attempts w)
      (meanwhile : w.Meanwhile s w') : Course s w₀ (attempts.modifyHead (·.hear s w w')) w'
  | steps {attempts : List Attempt} {w : World} (course : Course s w₀ attempts w) :
      Course s w₀ (w.begun s ++ attempts) (w.startTurn s 1)

/-! ## Where a start stands -/

/-- An attempt that has failed, and has shut what it opened. -/
structure Attempt.Failed (wait : Nat) (w : World) (a : Attempt) : Prop where
  fault : ∃ fault, a.outcome? wait = some (.error fault)
  shut : ∀ k, a.launch = .ok k → (w.line k).isShut

/-- An attempt whose worker is on trial. What was delivered is what the start has taken, and nothing
of that settles, and then what still waits for it. -/
structure Attempt.OnTrial (wait : Nat) (w : World) (k : WorkerId) (a : Attempt) : Prop where
  launched : a.launch = .ok k
  known : k < w.lines.size
  watched : a.watched = w.now
  inTime : w.now ≤ a.deadline wait
  timely : ∀ d ∈ a.deliveries, d.1 ≤ a.deadline wait
  taken : ∃ taken waiting, a.deliveries = taken ++ waiting ∧
    (∀ d ∈ taken, d.2.settles = false) ∧ waiting.map (·.2) = (w.line k).events

/-- How many attempts the settings allow. -/
def Timeouts.attempts (t : Timeouts) : Nat :=
  max 1 t.startAttempts.toNat

/-- A start and its attempts, latest first, phase by phase. -/
inductive Stage (t : Timeouts) (w : World) : StartTask → List Attempt → Prop
  | spawning {left : Nat} {attempts : List Attempt}
      (count : attempts.length + left + 1 = t.attempts)
      (failed : ∀ a ∈ attempts, a.Failed t.startup.toNat w) :
      Stage t w { startup := { wait := t.startup.toNat, attemptsLeft := left } } attempts
  | probing {left : Nat} {k : WorkerId} {a : Attempt} {past : List Attempt}
      (count : past.length + left + 1 = t.attempts)
      (failed : ∀ b ∈ past, b.Failed t.startup.toNat w)
      (trial : a.OnTrial t.startup.toNat w k) :
      Stage t w
        { startup :=
            { wait := t.startup.toNat, attemptsLeft := left
              phase := .probing k (a.deadline t.startup.toNat) } }
        (a :: past)
  | done {left : Nat} {r : Except StartFault Started} {result : Option (Except StartFault Started)}
      {a : Attempt} {past : List Attempt}
      (count : past.length + 1 ≤ t.attempts)
      (failed : ∀ b ∈ past, b.Failed t.startup.toNat w)
      (outcome : a.outcome? t.startup.toNat = some r)
      (last : ∀ fault, r = .error fault →
        past.length + 1 = t.attempts ∧ a.Failed t.startup.toNat w)
      (told : ∀ r' ∈ result, r' = r) :
      Stage t w
        { startup := { wait := t.startup.toNat, attemptsLeft := left, phase := .done r }, result }
        (a :: past)

variable {t : Timeouts} {s : StartId} {w w' : World} {k : WorkerId} {a : Attempt}
  {attempts past : List Attempt} {wait left : Nat}

/-! ## An attempt on trial -/

namespace Attempt

theorem Failed.mono (shut : ∀ k, (w.line k).isShut → (w'.line k).isShut)
    (failed : a.Failed wait w) : a.Failed wait w' :=
  ⟨failed.fault, fun k launched => shut k (failed.shut k launched)⟩

/-- What settles gives the verdict of the start, and nothing else does. -/
theorem settles_eq (e : LinkEvent) : e.settles = (Startup.verdict? e).isSome := by
  match e with
  | .frame (.response id (.ok v)) =>
    rw [LinkEvent.settles, Startup.verdict?]
    split <;> simp_all
  | .frame (.response id (.error f)) =>
    rw [LinkEvent.settles, Startup.verdict?]
    split <;> simp_all
  | .frame (.malformed ..) => rfl
  | .closed _ => rfl

/-- The settling delivery is not among those that do not settle. -/
theorem find?_taken {taken : List (Nat × LinkEvent)} (skipped : ∀ d ∈ taken, d.2.settles = false) :
    taken.find? (fun d => d.1 ≤ a.deadline wait && d.2.settles) = none := by
  simp only [List.find?_eq_none, Bool.and_eq_true, decide_eq_true_eq, not_and, Bool.not_eq_true]
  exact fun d mem _ => skipped d mem

namespace OnTrial

/-- The attempt comes to what the start makes of the next event, if that settles. -/
theorem outcome?_of_verdict {e : LinkEvent} {rest : List LinkEvent}
    {verdict : Except StartFault (Option Version)}
    (trial : a.OnTrial wait w k) (next : (w.line k).events = e :: rest)
    (settled : Startup.verdict? e = some verdict) :
    a.outcome? wait = some (verdict.map fun version => { worker := k, version }) := by
  obtain ⟨taken, waiting, split, skipped, waits⟩ := trial.taken
  rw [next] at waits
  obtain ⟨⟨t, e⟩, later, rfl, rfl, -⟩ := List.map_eq_cons_iff.1 waits
  -- What was taken before does not settle, so this delivery is the first that does.
  have inTime : t ≤ a.deadline wait := trial.timely (t, e) (by simp [split])
  have settles : e.settles := by rw [settles_eq, settled]; rfl
  have first :
      a.deliveries.find? (fun d => d.1 ≤ a.deadline wait && d.2.settles) = some (t, e) := by
    rw [split, List.find?_append, find?_taken skipped]
    simp [inTime, settles]
  rw [outcome?, trial.launched]
  dsimp only
  rw [first]
  cases e with
  | closed reason =>
    cases settled
    rfl
  | frame incoming =>
    cases incoming with
    | malformed id fault => cases settled
    | response id outcome =>
      cases outcome <;>
      · rw [Startup.verdict?] at settled
        split at settled <;> cases settled
        rfl

/-- With nothing left to take, the time decides. -/
theorem outcome?_of_nil (trial : a.OnTrial wait w k) (none : (w.line k).events = []) :
    a.outcome? wait =
      if a.deadline wait ≤ w.now then some (.error (.silent wait)) else .none := by
  obtain ⟨taken, waiting, split, skipped, waits⟩ := trial.taken
  rw [none, List.map_eq_nil_iff] at waits
  rw [outcome?, trial.launched]
  dsimp only
  rw [split, waits, List.append_nil, find?_taken skipped, trial.watched]

/-- An event that does not settle is skipped. -/
theorem skip {e : LinkEvent} {rest : List LinkEvent} (trial : a.OnTrial wait w k)
    (next : (w.line k).events = e :: rest) (skips : e.settles = false) :
    a.OnTrial wait (w.setLine k { w.line k with events := rest }) k := by
  obtain ⟨taken, waiting, split, skipped, waits⟩ := trial.taken
  rw [next] at waits
  obtain ⟨d, later, rfl, rfl, rest_eq⟩ := List.map_eq_cons_iff.1 waits
  refine { trial with known := by simpa [World.setLine] using trial.known, taken := ?_ }
  refine ⟨taken ++ [d], later, by simp [split], ?_, ?_⟩
  · intro d' mem
    rcases List.mem_append.1 mem with old | new
    · exact skipped d' old
    · rwa [List.mem_singleton.1 new]
  · rw [World.line_setLine trial.known, rest_eq]

/-- What others deliver waits behind what they delivered before. -/
theorem hear (onTrial : w.onTrial? s = some k) (answerBy : w.answerBy? s = some (a.deadline wait))
    (trial : a.OnTrial wait w k) (meanwhile : w.Meanwhile s w') :
    (a.hear s w w').OnTrial wait w' k := by
  obtain ⟨taken, waiting, split, skipped, waits⟩ := trial.taken
  obtain ⟨new, appended⟩ := meanwhile.events k onTrial
  have inTime := meanwhile.inTime _ answerBy
  have heard : a.hear s w w' =
      { a with watched := w'.now, deliveries := a.deliveries ++ new.map (w'.now, ·) } := by
    rw [Attempt.hear, onTrial]
    simp [← appended]
  -- The new deliveries come behind the others, all at the time of the change, which is in time.
  rw [heard]
  refine
    { launched := trial.launched, known := Nat.lt_of_lt_of_le trial.known meanwhile.size
      watched := rfl, inTime := inTime, timely := ?_, taken := ?_ }
  · intro d mem
    rcases List.mem_append.1 mem with old | fresh
    · exact trial.timely d old
    · obtain ⟨e, -, rfl⟩ := List.mem_map.1 fresh
      exact inTime
  · refine ⟨taken, waiting ++ new.map (w'.now, ·), by simp [split], skipped, ?_⟩
    simp [waits, ← appended, Function.comp_def]

end OnTrial

end Attempt

/-! ## The steps of a start -/

/-- A failed attempt is followed by another, or its fault is that of the start. -/
theorem Startup.fail_phase (startup : Startup) (fault : StartFault) :
    (startup.fail fault).phase = .spawning ∨ (startup.fail fault).phase = .done (.error fault) := by
  rw [fail]
  split
  · exact .inr rfl
  · exact .inl rfl

namespace World

variable {startup : Startup} {task : StartTask} {deadline : Nat}

theorem starts_setStart (known : w.starts[s]? = some task) (task' : StartTask) :
    (w.setStart s task').starts[s]? = some task' := by
  simp [setStart, (Array.getElem?_eq_some_iff.1 known).1]

theorem line_setStart (j : WorkerId) : (w.setStart s task).line j = w.line j := rfl

/-- A start that has told its result does nothing more. -/
theorem startTurn_told (known : w.starts[s]? = some task)
    (told : task.result.isSome) (fuel : Nat) : w.startTurn s fuel = w := by
  cases fuel with
  | zero => rfl
  | succ fuel => simp [startTurn, known, told]

theorem startTurn_done {r : Except StartFault Started} (known : w.starts[s]? = some { startup })
    (done : startup.phase = .done r) :
    Rouses (w.setStart s { startup, result := some r }) (w.startTurn s 1) ∧
    (w.startTurn s 1).starts[s]? = some { startup, result := some r } := by
  have turn : w.startTurn s 1 = (w.setStart s { startup, result := some r }).wake .engine := by
    simp [startTurn, known, done]
  have roused := rouses_wake .engine (w.setStart s { startup, result := some r })
  rw [turn]
  exact ⟨roused, by rw [(roused.touches 0).starts, starts_setStart known]⟩

theorem startTurn_spawning (known : w.starts[s]? = some { startup })
    (spawning : startup.phase = .spawning) :
    ∃ v, Launched w w.attempt.launch v ∧
      w.startTurn s 1 = v.setStart s { startup := startup.onSpawn w.now w.attempt.launch } := by
  cases launch : w.spawn.1 with
  | error fault =>
    have launched := launched_spawn_error launch
    refine ⟨_, launched, ?_⟩
    rw [← launched.now, attempt, launch]
    simp [startTurn, known, spawning, launch, Except.map]
  | ok server =>
    have launched := launched_spawn_ok launch
    have newest : (w.spawn.2.openLine server).1 = w.lines.size := by
      rw [openLine, spawn_lines]
    refine ⟨_, launched, ?_⟩
    rw [← launched.now, attempt, launch]
    simp [startTurn, known, spawning, launch, Except.map, newest]

theorem startTurn_event {e : LinkEvent} {rest : List LinkEvent}
    (known : w.starts[s]? = some { startup }) (probing : startup.phase = .probing k deadline)
    (next : (w.line k).events = e :: rest) :
    w.startTurn s 1 =
      match Startup.verdict? e with
      | none => (w.setLine k { w.line k with events := rest }).setStart s { startup }
      | some (.ok version) =>
        (w.setLine k { w.line k with events := rest }).setStart s
          { startup := { startup with phase := .done (.ok { worker := k, version }) } }
      | some (.error fault) =>
        ((w.setLine k { w.line k with events := rest }).setStart s
          { startup := startup.fail fault }).closeAttempt k := by
  cases verdict : Startup.verdict? e with
  | none => simp [startTurn, known, probing, next, Startup.onEvent, verdict]
  | some v =>
    cases v with
    | ok version => simp [startTurn, known, probing, next, Startup.onEvent, verdict]
    | error fault =>
      rcases startup.fail_phase fault with phase | phase <;>
        simp [startTurn, known, probing, next, Startup.onEvent, verdict, phase]

theorem startTurn_waiting (known : w.starts[s]? = some { startup })
    (probing : startup.phase = .probing k deadline) (none : (w.line k).events = []) :
    w.startTurn s 1 =
      if deadline ≤ w.now then
        (w.setStart s { startup := startup.fail (.silent startup.wait) }).closeAttempt k
      else w := by
  by_cases due : deadline ≤ w.now
  · rcases startup.fail_phase (.silent startup.wait) with phase | phase <;>
      simp [startTurn, known, probing, none, Startup.onTimeUp, due, phase]
  · simp [startTurn, known, probing, none, due]

end World

/-! ## What a step keeps -/

/-- After a failure the start goes on, or gives up with the last attempt that it was allowed. -/
theorem Stage.of_failed {startup : Startup} {fault : StartFault}
    (wait : startup.wait = t.startup.toNat)
    (count : past.length + startup.attemptsLeft + 1 = t.attempts)
    (failed : ∀ b ∈ past, b.Failed t.startup.toNat w)
    (outcome : a.outcome? t.startup.toNat = some (.error fault))
    (shut : ∀ k, a.launch = .ok k → (w.line k).isShut) :
    Stage t w { startup := startup.fail fault } (a :: past) := by
  have lost : a.Failed t.startup.toNat w := ⟨⟨fault, outcome⟩, shut⟩
  obtain ⟨_, left, phase⟩ := startup
  cases wait
  -- The fault of the last attempt is final. Any other attempt joins those that have failed.
  cases left with
  | zero => exact .done (Nat.le_of_eq count) failed outcome (fun _ _ => ⟨count, lost⟩) (by simp)
  | succ left =>
    refine .spawning (by simpa [Nat.add_right_comm, Nat.add_assoc] using count) ?_
    exact List.forall_mem_cons.2 ⟨lost, failed⟩

/-- A stage is about channels and the time. -/
theorem Stage.congr {task : StartTask} (lines : w'.lines = w.lines) (now : w'.now = w.now)
    (stage : Stage t w task attempts) : Stage t w' task attempts := by
  have same : ∀ k, w'.line k = w.line k := fun k => by rw [World.line, World.line, lines]
  have keep : ∀ b : Attempt, b.Failed t.startup.toNat w → b.Failed t.startup.toNat w' :=
    fun b => Attempt.Failed.mono fun k shut => by rwa [same]
  cases stage with
  | spawning count failed => exact .spawning count fun b mem => keep b (failed b mem)
  | probing count failed trial =>
    refine .probing count (fun b mem => keep b (failed b mem))
      { trial with known := ?_, watched := ?_, inTime := ?_, taken := ?_ }
    · rw [lines]
      exact trial.known
    · rw [now]
      exact trial.watched
    · rw [now]
      exact trial.inTime
    · rw [same]
      exact trial.taken
  | done count failed outcome last told =>
    refine .done count (fun b mem => keep b (failed b mem)) outcome (fun fault isFault => ?_) told
    obtain ⟨all, lost⟩ := last fault isFault
    exact ⟨all, keep _ lost⟩

namespace World

variable {w₀ v : World} {startup : Startup} {task : StartTask}

/-- The attempts of a start, latest first, are as they should be where it stands. -/
def Staged (t : Timeouts) (s : StartId) (attempts : List Attempt) (w : World) : Prop :=
  ∃ task, w.starts[s]? = some task ∧ Stage t w task attempts

/-- A start comes to a stage when its state is set. -/
theorem staged_setStart (known : w.starts[s]? = some task) {task' : StartTask}
    (stage : Stage t w task' attempts) : Staged t s attempts (w.setStart s task') :=
  ⟨task', starts_setStart known task', Stage.congr (w := w) rfl rfl stage⟩

theorem Staged.rouse (roused : Rouses w w') (staged : Staged t s attempts w) :
    Staged t s attempts w' := by
  obtain ⟨task, known, stage⟩ := staged
  obtain ⟨ready, rfl⟩ := roused
  exact ⟨task, known, Stage.congr (w := w) rfl rfl stage⟩

/-- A launch, well or badly, begins an attempt. -/
theorem staged_spawning (known : w.starts[s]? = some { startup })
    (spawning : startup.phase = .spawning) (wait : startup.wait = t.startup.toNat)
    (count : attempts.length + startup.attemptsLeft + 1 = t.attempts)
    (failed : ∀ a ∈ attempts, a.Failed t.startup.toNat w) :
    Staged t s (w.attempt :: attempts) (w.startTurn s 1) ∧
    (w.startTurn s 1).spawns = w.spawns + 1 := by
  obtain ⟨v, launched, turn⟩ := startTurn_spawning known spawning
  rw [turn]
  refine ⟨staged_setStart (by rw [launched.starts, known]) ?_, launched.spawns⟩
  have kept : ∀ b ∈ attempts, b.Failed t.startup.toNat v := by
    intro b mem
    refine (failed b mem).mono fun j shut => ?_
    rwa [launched.apart j (lt_size_of_isShut shut)]
  cases launch : w.attempt.launch with
  | error fault =>
    exact .of_failed wait count kept (by rw [Attempt.outcome?, launch]) (by simp [launch])
  | ok k =>
    obtain ⟨opened, silent⟩ := launched.fresh k launch
    obtain ⟨_, left, phase⟩ := startup
    cases wait
    refine .probing count kept
      { launched := launch, known := opened, watched := launched.now.symm, inTime := ?_
        timely := by simp [attempt], taken := ⟨[], [], rfl, by simp, silent.symm⟩ }
    rw [launched.now]
    exact Nat.le_add_right _ _

/-- A failure of the worker on trial, whose channel is closed. -/
theorem staged_closeAttempt {fault : StartFault} (known : w.starts[s]? = some task)
    (wait : startup.wait = t.startup.toNat)
    (count : past.length + startup.attemptsLeft + 1 = t.attempts)
    (failed : ∀ b ∈ past, b.Failed t.startup.toNat w)
    (trial : a.OnTrial t.startup.toNat w k)
    (outcome : a.outcome? t.startup.toNat = some (.error fault)) (touched : Touches k w v) :
    Staged t s (a :: past) ((v.setStart s { startup := startup.fail fault }).closeAttempt k) ∧
    ((v.setStart s { startup := startup.fail fault }).closeAttempt k).spawns = w.spawns := by
  have line : k < (v.setStart s { startup := startup.fail fault }).lines.size := by
    rw [setStart, touched.size]
    exact trial.known
  obtain ⟨closed, shut⟩ := closeAttempt_spec line
  refine ⟨⟨{ startup := startup.fail fault }, ?_, ?_⟩, closed.spawns.trans touched.spawns⟩
  · rw [closed.starts, starts_setStart (by rw [touched.starts, known])]
  · refine .of_failed wait count (fun b mem => (failed b mem).mono fun j shut' => ?_) outcome ?_
    · by_cases same : j = k
      · rw [same]
        exact shut
      · rw [closed.apart j same, line_setStart, touched.apart j same]
        exact shut'
    · intro k' launched
      cases trial.launched.symm.trans launched
      exact shut

/-- An event of the worker on trial is skipped, or settles the attempt. -/
theorem staged_event {e : LinkEvent} {rest : List LinkEvent}
    (known : w.starts[s]? = some { startup }) (wait : startup.wait = t.startup.toNat)
    (probing : startup.phase = .probing k (a.deadline t.startup.toNat))
    (count : past.length + startup.attemptsLeft + 1 = t.attempts)
    (failed : ∀ b ∈ past, b.Failed t.startup.toNat w)
    (trial : a.OnTrial t.startup.toNat w k) (next : (w.line k).events = e :: rest) :
    Staged t s (a :: past) (w.startTurn s 1) ∧ (w.startTurn s 1).spawns = w.spawns := by
  have kept : ∀ b ∈ past,
      b.Failed t.startup.toNat (w.setLine k { w.line k with events := rest }) := by
    intro b mem
    refine (failed b mem).mono fun j shut => ?_
    by_cases same : j = k
    · subst same
      rwa [line_setLine trial.known]
    · rwa [line_setLine_of_ne same]
  rw [startTurn_event known probing next]
  cases verdict : Startup.verdict? e with
  | none =>
    have skips : e.settles = false := by
      rw [Attempt.settles_eq, verdict]
      rfl
    dsimp only
    refine ⟨staged_setStart (w := w.setLine k _) known ?_, rfl⟩
    obtain ⟨_, left, _⟩ := startup
    cases wait
    cases probing
    exact .probing count kept (trial.skip next skips)
  | some v =>
    have outcome := trial.outcome?_of_verdict next verdict
    cases v with
    | ok version =>
      dsimp only
      refine ⟨staged_setStart (w := w.setLine k _) known ?_, rfl⟩
      obtain ⟨_, left, _⟩ := startup
      cases wait
      exact .done (by omega) kept outcome (by simp) (by simp)
    | error fault =>
      exact staged_closeAttempt known wait count failed trial outcome (touches_setLine k _ w)

/-- **One step.** It begins an attempt exactly if it spawns, and leaves all attempts as they should
be. -/
theorem Staged.step (staged : Staged t s attempts w) :
    Staged t s (w.begun s ++ attempts) (w.startTurn s 1) ∧
    (w.startTurn s 1).spawns = w.spawns + (w.begun s).length := by
  obtain ⟨task, known, stage⟩ := staged
  -- In all phases but the first nothing is spawned, so that no attempt begins.
  have unbegun : ∀ same : (w.startTurn s 1).spawns = w.spawns, w.begun s = [] :=
    fun same => by rw [begun, if_pos same]
  cases stage with
  | spawning count failed =>
    obtain ⟨staged, spawns⟩ := staged_spawning known rfl rfl count failed
    rw [begun, if_neg (by omega)]
    exact ⟨staged, spawns⟩
  | @probing left k a past count failed trial =>
    have staged : Staged t s (a :: past) (w.startTurn s 1) ∧
        (w.startTurn s 1).spawns = w.spawns := by
      cases events : (w.line k).events with
      | nil =>
        have outcome := trial.outcome?_of_nil events
        rw [startTurn_waiting known rfl events]
        by_cases due : a.deadline t.startup.toNat ≤ w.now
        · rw [if_pos due] at outcome ⊢
          exact staged_closeAttempt known rfl count failed trial outcome (.refl k w)
        · rw [if_neg due]
          exact ⟨⟨_, known, .probing count failed trial⟩, rfl⟩
      | cons e rest => exact staged_event known rfl rfl count failed trial events
    rw [unbegun staged.2]
    exact staged
  | @done left r result a past count failed outcome last told =>
    have staged : Staged t s (a :: past) (w.startTurn s 1) ∧
        (w.startTurn s 1).spawns = w.spawns := by
      cases result with
      | some r' =>
        rw [startTurn_told known rfl 1]
        exact ⟨⟨_, known, .done count failed outcome last told⟩, rfl⟩
      | none =>
        obtain ⟨roused, -⟩ := startTurn_done known rfl
        refine ⟨(staged_setStart known ?_).rouse roused, (roused.touches 0).spawns⟩
        exact .done count failed outcome last (by simp)
    rw [unbegun staged.2]
    exact staged

/-- **Meanwhile.** Whatever others do, the attempts stay as they should be, the latest with what was
delivered to its worker. -/
theorem Staged.meanwhile (meanwhile : w.Meanwhile s w') (staged : Staged t s attempts w) :
    Staged t s (attempts.modifyHead (·.hear s w w')) w' := by
  obtain ⟨task, known, stage⟩ := staged
  refine ⟨task, meanwhile.starts.trans known, ?_⟩
  have kept : ∀ {b : Attempt}, b.Failed t.startup.toNat w → b.Failed t.startup.toNat w' :=
    Attempt.Failed.mono meanwhile.shut
  -- Only the worker on trial is heard.
  have deaf (idle : task.startup.worker? = none) (a : Attempt) : a.hear s w w' = a := by
    simp [Attempt.hear, onTrial?, known, idle]
  cases stage with
  | spawning count failed =>
    have same : attempts.modifyHead (·.hear s w w') = attempts := by
      cases attempts <;> simp [deaf rfl]
    rw [same]
    exact .spawning count fun a mem => kept (failed a mem)
  | @probing left k a past count failed trial =>
    rw [List.modifyHead_cons]
    have onTrial : w.onTrial? s = some k := by simp [onTrial?, known, Startup.worker?]
    have answerBy : w.answerBy? s = some (a.deadline t.startup.toNat) := by
      simp [answerBy?, known, Startup.deadline?]
    have since : a.deadline t.startup.toNat = (a.hear s w w').deadline t.startup.toNat := by
      rw [Attempt.hear, onTrial]
      rfl
    rw [since]
    exact .probing count (fun b mem => kept (failed b mem)) (trial.hear onTrial answerBy meanwhile)
  | done count failed outcome last told =>
    rw [List.modifyHead_cons, deaf rfl]
    refine .done count (fun b mem => kept (failed b mem)) outcome (fun fault isFault => ?_) told
    obtain ⟨all, lost⟩ := last fault isFault
    exact ⟨all, kept lost⟩

end World

/-! ## The whole course -/

namespace Course

variable {w₀ : World}

/-- **A whole course.** -/
theorem staged (fresh : w₀.starts[s]? = some { startup := .ofTimeouts t })
    (course : Course s w₀ attempts w) :
    w.Staged t s attempts ∧ w.spawns = w₀.spawns + attempts.length := by
  induction course with
  | begins =>
    refine ⟨⟨_, fresh, .spawning ?_ (by simp)⟩, rfl⟩
    rw [List.length_nil, Timeouts.attempts]
    omega
  | others _ meanwhile ih =>
    obtain ⟨staged, spawned⟩ := ih
    refine ⟨staged.meanwhile meanwhile, ?_⟩
    rw [meanwhile.spawns, spawned, List.length_modifyHead]
  | steps _ ih =>
    obtain ⟨staged, spawned⟩ := ih
    obtain ⟨staged', spawns⟩ := staged.step
    refine ⟨staged', ?_⟩
    rw [spawns, spawned, List.length_append]
    omega

end Course

end WorkerBridge
