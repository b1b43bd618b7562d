/-
  WorkerBridge.Proofs.Line

  The line in which jobs wait for a worker.

  A submitted job goes to the end of the line, replayed jobs go to its front, and a
  dispatch takes the job that is first. `Reacts.moves` says what a turn can do to
  the line: jobs leave it in its order, or one is withdrawn, or all are dropped
  because there is no worker any more. So what was handed over and what still waits
  is, at any time, a part of what has joined the line, in its order; for all
  workers together (`run_line`), and for one worker since it came up
  (`line_since`).
-/
import WorkerBridge.Proofs.Budget
import WorkerBridge.Proofs.Provenance
import WorkerBridge.Proofs.Sends

namespace WorkerBridge

/-! ## Tasks -/

/-- What a worker is asked to do, and under which identity. -/
abbrev Task := JobId × Request

def Job.task (j : Job) : Task := (j.id, j.request)

def Sent.task (s : Sent) : Task := (s.id, s.request)

/-- What the effects hand to workers, whichever these are. -/
def tasks (effects : List Effect) : List Task :=
  (sends effects).map Sent.task

theorem map_fst_task (jobs : List Job) : (jobs.map Job.task).map Prod.fst = jobs.map (·.id) :=
  List.map_map

theorem tasks_append (xs ys : List Effect) : tasks (xs ++ ys) = tasks xs ++ tasks ys := by
  rw [tasks, sends_append, List.map_append]
  rfl

theorem tasks_of_sends_eq_nil {effects : List Effect} (h : sends effects = []) :
    tasks effects = [] := by
  rw [tasks, h]
  rfl

namespace Engine

/-- The tasks that wait. -/
def waiting (e : Engine) : List Task :=
  e.queue.jobs.map Job.task

/-- The input withdraws a job that waits. -/
def withdraws (id : JobId) (e : Engine) : Input → Bool
  | .command (.cancel named) => named = id && e.queue.jobs.any (·.id = id)
  | _ => false

/-- The line once the jobs have joined it that the engine takes on with an input. -/
def lineUp (e : Engine) (input : Input) : List Job :=
  match input with
  | .started .. => e.admits input ++ e.queue.jobs
  | _ => e.queue.jobs ++ e.admits input

theorem queue_sublist_lineUp (e : Engine) (input : Input) :
    e.queue.jobs.Sublist (e.lineUp input) := by
  unfold lineUp
  split
  · exact List.sublist_append_right ..
  · exact List.sublist_append_left ..

/-- What a turn does to the line, one case for each way. -/
inductive Moves (e : Engine) (input : Input) (t : Turn) : Prop where
  /-- What is handed over was first, and the others go on waiting. -/
  | kept (running : e.fails input = false) (none : ∀ id, e.withdraws id input = false)
      (same : tasks t.effects ++ t.state.waiting = (e.lineUp input).map Job.task)
  | withdrawn (job : Job) (front back : List Job) (withdraws : e.withdraws job.id input)
      (line : e.queue.jobs = front ++ job :: back) (rest : t.state.queue.jobs = front ++ back)
      (silent : sends t.effects = [])
  | dropped (cause : e.fails input ∨ t.state.lifecycle.rejectsJobs)
      (empty : t.state.queue.jobs = []) (nobody : t.state.worker = none)
      (silent : sends t.effects = [])

variable {now : Nat} {e : Engine} {input : Input} {t : Turn}

/-! ## Turns -/

/-- What a dispatch hands over was first in the line. -/
theorem dispatch_line (now : Nat) {e : Engine} (up : e.lifecycle.isUp → e.worker.isSome) :
    tasks (dispatch now e).effects ++ (dispatch now e).state.waiting = e.waiting := by
  cases hw : e.worker with
  | some w =>
    have hands := congrArg (List.map Sent.task) (dispatch_hands now up hw)
    rwa [List.map_append, List.map_map, List.map_map] at hands
  | none =>
    -- Without a worker nothing is dispatched.
    rcases dispatch_cases now e up with ⟨-, heq⟩ | ⟨isUp, -⟩ | ⟨w, _, _, -, -, current, -⟩
    · rw [heq]
      rfl
    · rw [hw] at up
      exact absurd (up isUp) (by simp)
    · cases hw.symm.trans current

/-- A turn that ends in a dispatch keeps the line that it has before the dispatch. -/
theorem Moves.thenDispatch {first : Turn} (running : e.fails input = false)
    (none : ∀ id, e.withdraws id input = false) (silent : sends first.effects = [])
    (up : first.state.lifecycle.isUp → first.state.worker.isSome)
    (line : first.state.queue.jobs = e.lineUp input) :
    Moves e input (first.andThen (dispatch now)) := by
  refine .kept running none ?_
  rw [Turn.andThen_effects, Turn.andThen_state, tasks_append, tasks_of_sends_eq_nil silent,
    List.nil_append, dispatch_line now up, waiting, line]

/-- A turn that hands over nothing and takes nothing on leaves the line as it is. -/
theorem Moves.still (running : e.fails input = false)
    (none : ∀ id, e.withdraws id input = false) (silent : sends t.effects = [])
    (nothing : e.admits input = []) (same : t.state.queue = e.queue) : Moves e input t := by
  have line : e.lineUp input = e.queue.jobs := by
    unfold lineUp
    split
    · rw [nothing, List.nil_append]
    · rw [nothing, List.append_nil]
  refine .kept running none ?_
  rw [tasks_of_sends_eq_nil silent, line, waiting, same]
  rfl

theorem withdraws_of_ignores (h : e.Consistent) (hi : e.Ignores now input) (id : JobId) :
    e.withdraws id input = false := by
  cases input with
  | command c =>
    cases c with
    | cancel named =>
      -- After the shutdown nothing waits that could be withdrawn.
      have empty := h.vacant (Or.inr (Or.inr hi))
      simp [withdraws, empty]
    | submit | restart | snapshot | shutdown => rfl
  | frame | closed | deadline | restartDue | started => rfl

/-- A failure leaves nothing in line, and nobody to hand it to. -/
theorem scheduleRestart_dropped (failed : e.fails input) {e' : Engine}
    (empty : e'.queue.jobs = []) (nobody : e'.worker = none)
    (state : t.state = (scheduleRestart now e').state) (silent : sends t.effects = []) :
    Moves e input t := by
  refine .dropped (Or.inl failed) ?_ ?_ silent
  · rw [state]
    rcases scheduleRestart_cases now e' with ⟨-, hstate, -⟩ | ⟨-, hstate, -⟩
    · rw [hstate]
      exact empty
    · rw [hstate]
  · rw [state, scheduleRestart_worker, nobody]

/-! ## Steps -/

/-- **What can happen to the line.** Jobs join it, and leave it in its order; a cancellation takes
    one out; all are dropped with a failure, and where the engine refuses jobs. -/
theorem Reacts.moves (r : Reacts now e input t) (h : e.Consistent) : Moves e input t := by
  cases r with
  | ignored hi =>
    exact .still (fails_of_ignores h hi) (withdraws_of_ignores h hi) rfl (admits_of_ignores hi) rfl
  | shown => exact .still rfl (fun _ => rfl) rfl rfl rfl
  | submitted job alive =>
    rcases submit_cases now job e with ⟨rejects, heq⟩ | ⟨-, heq⟩
    · -- The line is empty where jobs are refused, and the job does not join it.
      have closed := (rejectsJobs_iff _).1 rejects
      have nobody : e.worker = none := by
        apply h.no_worker <;> rcases closed with closed | closed <;> simp [closed]
      rw [heq]
      refine .dropped (Or.inr rejects) (h.vacant (Or.inr closed)) nobody ?_
      rw [sends_append, sends_announce, sends_finish]
      rfl
    · rw [heq]
      refine .thenDispatch rfl (fun _ => rfl) (sends_announce _) h.up ?_
      show e.queue.jobs ++ [job] = e.queue.jobs ++ e.admits _
      rw [admits_submit alive]
  | cancelled id =>
    rcases cancel_cases id e with ⟨front, job, back, hq, rfl, heq⟩ | ⟨absent, heq⟩
    · have waits : e.withdraws job.id (.command (.cancel job.id)) := by
        simp [withdraws, hq]
      rw [heq]
      exact .withdrawn job front back waits hq rfl (sends_finish ..)
    · have none : ∀ id', e.withdraws id' (.command (.cancel id)) = false := by
        intro id'
        refine Bool.eq_false_iff.2 fun withdraws => ?_
        obtain ⟨same, waits⟩ := Bool.and_eq_true_iff.1 withdraws
        obtain ⟨job, hjob, hid⟩ := List.any_eq_true.1 waits
        exact absent job hjob ((of_decide_eq_true hid).trans (of_decide_eq_true same).symm)
      have silent := sends_cancel id e
      rw [heq] at silent ⊢
      exact .still rfl none silent rfl rfl
  | restarted =>
    -- What waits is kept for the next worker, unlike after a failure.
    refine .still rfl (fun _ => rfl) (sends_restart e) rfl ?_
    rw [restart_state]
  | shutDown caller =>
    have silent := sends_shutdown caller e
    refine .dropped (Or.inr ?_) ?_ ?_ silent <;> rw [shutdown_state]
    rfl
  | heard incoming =>
    refine .thenDispatch rfl (fun _ => rfl) (sends_receive incoming e)
      (receive_unsettled incoming h).up ?_
    rw [receive_queue]
    exact (List.append_nil _).symm
  | lost reason alive current =>
    refine scheduleRestart_dropped (by simp [fails, loses, current]) rfl rfl
      (crash_state now reason e) (sends_crash now reason e)
  | expired =>
    rw [onDeadline_eq]
    refine .thenDispatch rfl (fun _ => rfl) (sends_finish_flights ..) h.up ?_
    exact (List.append_nil _).symm
  | due =>
    refine .still rfl (fun _ => rfl) (sends_beginStart e) rfl ?_
    rw [beginStart_state]
  | started result alive pending =>
    cases result with
    | ok started =>
      rw [onStarted_ok]
      refine .thenDispatch rfl (fun _ => rfl) (sends_greeting started e) (fun _ => rfl) ?_
      rw [lineUp, admits_started alive pending]
      rfl
    | error fault =>
      have starting := h.startup.1 (by simp [pending])
      have nobody : ({ e with startup := none, queue := {} } : Engine).worker = none :=
        h.no_worker (by simp [starting]) (by simp [starting])
      have silent := sends_onStarted_error now fault e
      rw [onStarted_error] at silent ⊢
      exact scheduleRestart_dropped (by simp [fails, pending]) rfl nobody rfl silent

/-- In no turn does the line change its order. -/
theorem Reacts.line (r : Reacts now e input t) (h : e.Consistent) :
    (tasks t.effects ++ t.state.waiting).Sublist ((e.lineUp input).map Job.task) := by
  cases r.moves h with
  | kept _ _ same => exact same ▸ List.Sublist.refl _
  | withdrawn job front back _ line rest silent =>
    have shorter : (front ++ back).Sublist e.queue.jobs := by
      rw [line]
      exact (List.sublist_cons_self ..).append_left _
    rw [tasks_of_sends_eq_nil silent, List.nil_append, waiting, rest]
    exact (shorter.trans (e.queue_sublist_lineUp input)).map _
  | dropped _ empty _ silent =>
    rw [tasks_of_sends_eq_nil silent, List.nil_append, waiting, empty]
    exact List.nil_sublist _

/-- The tasks that wait for a worker. -/
def waitingFor (w : WorkerId) (e : Engine) : List Task :=
  if e.worker = some w then e.waiting else []

/-- The input brings up a worker. -/
def welcomes (w : WorkerId) (e : Engine) : Input → Bool
  | .started start (.ok started) => e.startup = some start && started.worker = w
  | _ => false

end Engine

/-! ## Moments -/

/-- What a worker was handed in the given moments, in order. -/
def tasksTo (w : WorkerId) (ms : List Moment) : List Task :=
  ((ms.flatMap fun m => sends m.effects).filter (·.worker = w)).map Sent.task

theorem tasksTo_append (w : WorkerId) (xs ys : List Moment) :
    tasksTo w (xs ++ ys) = tasksTo w xs ++ tasksTo w ys := by
  simp only [tasksTo, List.flatMap_append, List.filter_append, List.map_append]

namespace Moment

/-- The jobs that are replayed to a worker that comes up. -/
def replays (m : Moment) : List Job :=
  match m.occasion with
  | .input _ (.started ..) => m.admitted
  | _ => []

variable {m : Moment} {w : WorkerId}

/-- Replayed jobs go ahead of what waits, and a submitted one goes behind it. -/
theorem lineUp_eq {e : Engine} (alive : e.lifecycle ≠ .stopped) (now : Nat) (input : Input) :
    e.lineUp input = replays ⟨e, .input now input⟩ ++ e.queue.jobs ++
      (submitted? ⟨e, .input now input⟩).toList := by
  cases input with
  | command c =>
    cases c with
    | submit job =>
      show e.queue.jobs ++ e.admits (.command (.submit job)) = _
      rw [Engine.admits_submit alive]
      rfl
    | cancel | restart | snapshot | shutdown => rfl
  | started => exact (List.append_nil _).symm
  | frame | closed | deadline | restartDue => rfl

/-- **The line in one turn.** What is handed over, and what then waits, is taken from the replayed
    jobs, the waiting ones and the submitted one, in this order. -/
theorem line (h : m.before.Consistent) :
    (tasks m.effects ++ m.after.waiting).Sublist
      (m.replays.map Job.task ++ m.before.waiting ++ m.submitted?.toList.map Job.task) := by
  rcases m with ⟨e, o⟩
  cases o with
  | draw => exact List.sublist_append_left ..
  | input now input =>
    by_cases ended : e.lifecycle = .stopped
    · have still : tasks (e.step now input).effects ++ (e.step now input).state.waiting =
          e.waiting := by
        rw [Engine.step_of_stopped ended]
        rfl
      show (tasks (e.step now input).effects ++ (e.step now input).state.waiting).Sublist _
      rw [still, List.append_assoc]
      exact (List.sublist_append_left ..).trans (List.sublist_append_right ..)
    · have line := (Engine.step_reacts now e input).line h
      rw [lineUp_eq ended now, List.map_append, List.map_append] at line
      exact line

/-- The line without replayed jobs only grows at its end. -/
theorem line_own (h : m.before.Consistent) {own : JobId → Bool}
    (strange : ∀ j ∈ m.replays, own j.id = false) :
    ((tasks m.effects).filter (own ·.1) ++ m.after.waiting.filter (own ·.1)).Sublist
      (m.before.waiting.filter (own ·.1) ++ m.submitted?.toList.map Job.task) := by
  have none : (m.replays.map Job.task).filter (own ·.1) = [] := by
    rw [List.filter_eq_nil_iff]
    intro t ht
    obtain ⟨j, hj, rfl⟩ := List.mem_map.1 ht
    simp [Job.task, strange j hj]
  have line := (m.line h).filter (own ·.1)
  rw [List.filter_append, List.filter_append, List.filter_append, none, List.nil_append] at line
  exact line.trans (List.filter_sublist.append_left _)

theorem worker_cases (h : m.before.Consistent) (current : m.after.worker = some w) :
    m.before.worker = some w ∨ m.worker? = some w := by
  rcases m with ⟨e, o⟩
  cases o with
  | draw => exact Or.inl current
  | input now input =>
    rcases (Engine.step_reacts now e input).worker_cases h current with
      before | ⟨start, started, rfl, rfl⟩
    · exact Or.inl before
    · exact Or.inr rfl

theorem sends_one (h : m.before.Consistent) :
    sends m.effects = [] ∨ ∃ s, sends m.effects = [s] ∧ m.after.worker = some s.worker := by
  rcases m with ⟨e, o⟩
  cases o with
  | draw => exact Or.inl rfl
  | input now input => exact (Engine.step_reacts now e input).sends_one h

theorem sends_of_mem (h : m.before.Consistent) {s : Sent} (hs : s ∈ sends m.effects) :
    sends m.effects = [s] ∧ m.after.worker = some s.worker := by
  rcases sends_one h with none | ⟨s', one, current⟩
  · rw [none] at hs
    cases hs
  · rw [one, List.mem_singleton] at hs
    rw [hs]
    exact ⟨one, current⟩

/-- All that is handed over in a turn goes to the worker that is there after it. -/
theorem tasksTo_eq (h : m.before.Consistent) :
    tasksTo w [m] = if m.after.worker = some w then tasks m.effects else [] := by
  have single : tasksTo w [m] = ((sends m.effects).filter (·.worker = w)).map Sent.task := by
    rw [tasksTo, List.flatMap_cons, List.flatMap_nil, List.append_nil]
  rw [single]
  split
  · next current =>
    have all : (sends m.effects).filter (·.worker = w) = sends m.effects := by
      rw [List.filter_eq_self]
      intro s hs
      have recipient := (sends_of_mem h hs).2
      rw [current] at recipient
      exact decide_eq_true (Option.some.inj recipient).symm
    rw [all]
    rfl
  · next other =>
    have none : (sends m.effects).filter (·.worker = w) = [] := by
      rw [List.filter_eq_nil_iff]
      intro s hs recipient
      have current := (sends_of_mem h hs).2
      rw [of_decide_eq_true recipient] at current
      exact other current
    rw [none]
    rfl

theorem replays_eq_nil (idle : m.before.startup = none) : m.replays = [] := by
  rcases m with ⟨e, o⟩
  cases o with
  | draw => rfl
  | input now input =>
    cases input with
    | started start result =>
      have ignored : e.Ignores now (.started start result) := by
        right
        intro pending
        cases idle.symm.trans pending
      exact Engine.admits_of_ignores ignored
    | command | frame | closed | deadline | restartDue => rfl

theorem withdraws_cases {id : JobId} (hm : m.met (Engine.withdraws id)) :
    (∃ now, m.occasion = .input now (.command (.cancel id))) ∧
      m.before.queue.jobs.any (·.id = id) := by
  rcases m with ⟨e, o⟩
  cases o with
  | draw => cases hm
  | input now input =>
    cases input with
    | command c =>
      cases c with
      | cancel named =>
        obtain ⟨same, waits⟩ := Bool.and_eq_true_iff.1 hm
        exact ⟨⟨now, by rw [of_decide_eq_true same]⟩, waits⟩
      | submit | restart | snapshot | shutdown => cases hm
    | frame | closed | deadline | restartDue | started => cases hm

theorem sends_of_withdraws {id : JobId} (hm : m.met (Engine.withdraws id)) :
    sends m.effects = [] := by
  obtain ⟨⟨now, ho⟩, -⟩ := withdraws_cases hm
  rw [effects, turn, ho]
  show sends (m.before.step now (.command (.cancel id))).effects = []
  unfold Engine.step
  split
  · rfl
  · exact Engine.sends_cancel id m.before

/-- The line of a worker that did not come up just now only grows at its end. -/
theorem line_to (h : m.before.Consistent) (old : m.worker? ≠ some w) :
    (tasksTo w [m] ++ m.after.waitingFor w).Sublist
      (m.before.waitingFor w ++ m.submitted?.toList.map Job.task) := by
  rw [tasksTo_eq h, Engine.waitingFor]
  by_cases current : m.after.worker = some w
  · have before : m.before.worker = some w := (worker_cases h current).resolve_right old
    have idle := (h.no_start_of_worker (by simp [before])).1
    -- While there is a worker no other one comes up, so nothing is replayed.
    have line := m.line h
    rw [replays_eq_nil idle, List.map_nil, List.nil_append] at line
    rw [if_pos current, if_pos current, Engine.waitingFor, if_pos before]
    exact line
  · rw [if_neg current, if_neg current]
    exact List.nil_sublist _

/-- What waits for the worker is handed over, goes on waiting, or is withdrawn. -/
theorem stays (h : m.before.Consistent) (old : m.worker? ≠ some w)
    (current : m.after.worker = some w) {t : Task} (ht : t ∈ m.before.waiting) :
    t ∈ tasksTo w [m] ++ m.after.waiting ∨ m.met (Engine.withdraws t.1) := by
  rw [tasksTo_eq h, if_pos current]
  rcases m with ⟨e, o⟩
  cases o with
  | draw => exact Or.inl ht
  | input now input =>
    cases (Engine.step_reacts now e input).moves h with
    | kept _ _ same =>
      left
      show t ∈ tasks (e.step now input).effects ++ (e.step now input).state.waiting
      rw [same]
      exact ((e.queue_sublist_lineUp input).map Job.task).subset ht
    | withdrawn job front back withdraws line rest silent =>
      rw [Engine.waiting, line, List.map_append, List.map_cons, List.mem_append,
        List.mem_cons] at ht
      have left : t ∈ front.map Job.task ∨ t ∈ back.map Job.task →
          t ∈ tasks (e.step now input).effects ++ (e.step now input).state.waiting := by
        intro ht
        rw [Engine.waiting, rest, List.map_append]
        exact List.mem_append_right _ (List.mem_append.2 ht)
      rcases ht with ht | rfl | ht
      · exact Or.inl (left (Or.inl ht))
      · exact Or.inr withdraws
      · exact Or.inl (left (Or.inr ht))
    | dropped _ _ nobody =>
      -- Only an engine without a worker drops its line.
      cases nobody.symm.trans current

theorem welcomes_cases (hm : m.met (Engine.welcomes w)) :
    ∃ now start started, m.occasion = .input now (.started start (.ok started)) ∧
      m.before.startup = some start ∧ started.worker = w := by
  rcases m with ⟨e, o⟩
  cases o with
  | draw => cases hm
  | input now input =>
    cases input with
    | started start result =>
      cases result with
      | ok started =>
        obtain ⟨pending, same⟩ := Bool.and_eq_true_iff.1 hm
        exact ⟨now, start, started, rfl, of_decide_eq_true pending, of_decide_eq_true same⟩
      | error => cases hm
    | command | frame | closed | deadline | restartDue => cases hm

/-- Before a worker comes up there is none, and what the engine takes on is what it replays. -/
theorem starting_of_welcomes (h : m.before.Consistent) (hm : m.met (Engine.welcomes w)) :
    m.before.lifecycle = .starting ∧ m.before.worker = none ∧
      m.admitted = m.before.replayed ∧ m.replays = m.admitted := by
  obtain ⟨now, start, started, ho, pending, -⟩ := welcomes_cases hm
  have starting := h.startup.1 (by simp [pending])
  refine ⟨starting, h.no_worker (by simp [starting]) (by simp [starting]), ?_, ?_⟩
  · rw [admitted, ho]
    exact Engine.admits_started (by simp [starting]) pending _
  · rw [replays, ho]

/-- The worker that comes up is there after the turn, and its line is what is replayed and then
    what has waited. -/
theorem line_of_welcomes (h : m.before.Consistent) (hm : m.met (Engine.welcomes w)) :
    m.worker? = some w ∧ m.after.worker = some w ∧
      tasksTo w [m] ++ m.after.waiting = (m.admitted ++ m.before.queue.jobs).map Job.task := by
  obtain ⟨now, start, started, ho, pending, rfl⟩ := welcomes_cases hm
  rcases m with ⟨e, o⟩
  obtain rfl : o = _ := ho
  have pending : e.startup = some start := pending
  have starting : e.lifecycle = .starting := h.startup.1 (by simp [pending])
  have step : e.step now (.started start (.ok started)) = Engine.onStarted now (.ok started) e := by
    simp [Engine.step, Engine.hasEnded, starting, pending]
  have current : (after ⟨e, .input now (.started start (.ok started))⟩).worker =
      some started.worker := by
    show (e.step now (.started start (.ok started))).state.worker = _
    rw [step, Engine.onStarted_ok, Turn.andThen_state, Engine.dispatch_worker now fun _ => rfl]
    rfl
  refine ⟨rfl, current, ?_⟩
  rw [tasksTo_eq h, if_pos current]
  cases (Engine.step_reacts now e (.started start (.ok started))).moves h with
  | kept _ _ same => exact same
  | withdrawn _ _ _ withdraws => cases withdraws
  | dropped _ _ nobody => cases nobody.symm.trans current

end Moment

/-! ## Runs -/

/-- What has left a line and what is still in it stays a part of what has joined it. -/
theorem sublist_grow {α : Type} {left line joined more rest new : List α}
    (earlier : (left ++ line).Sublist joined) (step : (more ++ rest).Sublist (line ++ new)) :
    ((left ++ more) ++ rest).Sublist (joined ++ new) := by
  have later := step.append_left left
  rw [← List.append_assoc, ← List.append_assoc] at later
  exact later.trans (earlier.append_right new)

namespace History

/-- The jobs that were replayed. -/
def replays (h : History) : List Job :=
  h.past.flatMap (·.replays)

/-- Callers submit each job once, and under an identity that they drew. -/
theorem lawful_submitted {policy : RestartPolicy} {os : List Occasion}
    (lawful : Lawful policy os) :
    (∀ j ∈ (run policy os).submitted, j.id ∈ (run policy os).drawn) ∧
      ((run policy os).submitted.map (·.id)).Nodup := by
  refine lawful_induction (P := fun h => (∀ j ∈ h.submitted, j.id ∈ h.drawn) ∧
    (h.submitted.map (·.id)).Nodup) ?_ ?_ lawful
  · exact ⟨by simp [boot, submitted], List.nodup_nil⟩
  · rintro h o ⟨drawn, nodup⟩ allowed
    have grows : ∀ id ∈ h.drawn, id ∈ (h.extend o).drawn := by
      intro id hid
      rw [drawn_extend]
      exact List.mem_append_left _ hid
    rw [submitted_extend]
    cases hs : Moment.submitted? ⟨h.engine, o⟩ with
    | none =>
      rw [Option.toList_none, List.append_nil]
      exact ⟨fun j hj => grows _ (drawn j hj), nodup⟩
    | some job =>
      -- The occasion is a submission, and it is allowed.
      have promised : job.id ∈ h.drawn ∧ job.id ∉ h.submitted.map (·.id) := by
        unfold Moment.submitted? at hs
        split at hs
        · next heq =>
          obtain rfl : o = _ := heq
          cases hs
          exact ⟨allowed.1, allowed.2.1⟩
        · cases hs
      constructor
      · intro j hj
        rcases List.mem_append.1 hj with hj | hj
        · exact grows _ (drawn j hj)
        · rw [List.mem_singleton.1 hj]
          exact grows _ promised.1
      · rw [Option.toList_some, List.map_append, List.map_singleton, ← List.concat_eq_append]
        exact List.Nodup.concat promised.2 nodup

/-- No worker comes up twice. -/
theorem lawful_workers {policy : RestartPolicy} {os : List Occasion} (lawful : Lawful policy os) :
    (run policy os).workers.Nodup := by
  refine lawful_induction (P := fun h => h.workers.Nodup) List.nodup_nil ?_ lawful
  intro h o nodup allowed
  have extended : (h.extend o).workers = h.workers ++ (Moment.worker? ⟨h.engine, o⟩).toList := by
    cases hw : Moment.worker? ⟨h.engine, o⟩ <;> simp [workers, hw]
  rw [extended]
  cases hw : Moment.worker? ⟨h.engine, o⟩ with
  | none => rwa [Option.toList_none, List.append_nil]
  | some w =>
    have fresh : w ∉ h.workers := by
      unfold Moment.worker? at hw
      split at hw
      · next heq =>
        obtain rfl : o = _ := heq
        cases hw
        exact allowed
      · cases hw
    rw [Option.toList_some, ← List.concat_eq_append]
    exact List.Nodup.concat fresh nodup

/-- A worker that has come up does not come up again. -/
theorem worker_once {policy : RestartPolicy} {os : List Occasion} {before after : List Moment}
    {m x : Moment} {w : WorkerId} (lawful : Lawful policy os)
    (hpast : (run policy os).past = before ++ m :: after) (hm : m.worker? = some w)
    (hx : x ∈ after) : x.worker? ≠ some w := by
  intro again
  have nodup := lawful_workers lawful
  rw [workers, hpast, List.filterMap_append, List.filterMap_cons_some hm, List.nodup_append,
    List.nodup_cons] at nodup
  exact nodup.2.1.1 (List.mem_filterMap.2 ⟨x, hx, again⟩)

/-- **The line of a run.** Of what was handed over so far, and of what waits, the jobs that are not
    replayed ones are a part of what was submitted, in that order. -/
theorem run_line {policy : RestartPolicy} {os : List Occasion} (own : JobId → Bool)
    (strange : ∀ j ∈ (run policy os).replays, own j.id = false) :
    ((tasks (run policy os).effects ++ (run policy os).engine.waiting).filter
      (own ·.1)).Sublist ((run policy os).submitted.map Job.task) := by
  induction os using List.reverseRecOn with
  | nil => exact List.Sublist.refl _
  | append_singleton os o ih =>
    rw [run_concat] at strange ⊢
    have replayed : ∀ j ∈ Moment.replays ⟨(run policy os).engine, o⟩, own j.id = false := by
      intro j hj
      refine strange j (List.mem_flatMap.2 ⟨_, ?_, hj⟩)
      simp
    have earlier := ih fun j hj => by
      obtain ⟨m, hm, hj⟩ := List.mem_flatMap.1 hj
      exact strange j (List.mem_flatMap.2 ⟨m, List.mem_append_left _ hm, hj⟩)
    have line := Moment.line_own (m := ⟨(run policy os).engine, o⟩) (run_consistent policy os)
      replayed
    rw [effects_extend, tasks_append, submitted_extend, List.map_append, List.filter_append,
      List.filter_append]
    rw [List.filter_append] at earlier
    exact sublist_grow earlier line

section Since

variable {policy : RestartPolicy} {os : List Occasion} {before after : List Moment} {m : Moment}
  {w : WorkerId}

theorem submitted_concat (since : List Moment) (x : Moment) :
    (since ++ [x]).filterMap (·.submitted?) =
      since.filterMap (·.submitted?) ++ x.submitted?.toList := by
  cases hs : x.submitted? <;> simp [hs]

/-- **The line of a worker.** What it was handed since it came up, and what waits for it, is a part
    of what it found in line and what was submitted since, in that order. -/
theorem line_since (lawful : Lawful policy os)
    (hpast : (run policy os).past = before ++ m :: after) (hm : m.met (Engine.welcomes w)) :
    (tasksTo w (m :: after) ++ (run policy os).engine.waitingFor w).Sublist
      ((m.admitted ++ m.before.queue.jobs).map Job.task ++
        (after.filterMap (·.submitted?)).map Job.task) := by
  obtain ⟨hworker, current, line⟩ := Moment.line_of_welcomes (consistent_of_past hpast) hm
  refine run_since (P := fun since e => (tasksTo w (m :: since) ++ e.waitingFor w).Sublist
    ((m.admitted ++ m.before.queue.jobs).map Job.task ++
      (since.filterMap (·.submitted?)).map Job.task)) hpast ?_ ?_
  · rw [Engine.waitingFor, if_pos current, line]
    exact List.sublist_append_left ..
  · intro since x hx consistent earlier
    -- No later turn brings the worker up again, so none puts jobs ahead of its line.
    have step := Moment.line_to consistent (worker_once lawful hpast hworker hx)
    have joined := congrArg (List.map Job.task) (submitted_concat since x)
    rw [List.map_append] at joined
    rw [← List.cons_append, tasksTo_append, joined, ← List.append_assoc]
    exact sublist_grow earlier step

/-- What a worker found in line it was handed, or it still waits for it, unless it was
    withdrawn. -/
theorem handed_or_waits_since (lawful : Lawful policy os)
    (hpast : (run policy os).past = before ++ m :: after) (hm : m.met (Engine.welcomes w))
    (up : (run policy os).engine.worker = some w) :
    ∀ r ∈ m.admitted, r.task ∈ tasksTo w (m :: after) ++ (run policy os).engine.waiting ∨
      ∃ y ∈ after, y.met (Engine.withdraws r.id) := by
  obtain ⟨hworker, current, line⟩ := Moment.line_of_welcomes (consistent_of_past hpast) hm
  intro r hr
  refine run_since (P := fun since e => e.worker = some w →
    r.task ∈ tasksTo w (m :: since) ++ e.waiting ∨
      ∃ y ∈ since, y.met (Engine.withdraws r.id)) hpast ?_ ?_ up
  · intro _
    left
    rw [line]
    exact List.mem_map_of_mem (List.mem_append_left _ hr)
  · intro since x hx consistent earlier stillUp
    -- The worker does not come up twice: if it is there now, it was there all the time.
    have old := worker_once lawful hpast hworker hx
    have before := (Moment.worker_cases consistent stillUp).resolve_right old
    rw [← List.cons_append, tasksTo_append, List.append_assoc]
    rcases earlier before with held | ⟨y, hy, withdrawn⟩
    · rcases List.mem_append.1 held with sent | waits
      · exact Or.inl (List.mem_append_left _ sent)
      · rcases Moment.stays consistent old stillUp waits with kept | withdrawn
        · exact Or.inl (List.mem_append_right _ kept)
        · exact Or.inr ⟨x, by simp, withdrawn⟩
    · exact Or.inr ⟨y, List.mem_append_left _ hy, withdrawn⟩

end Since

end History

end WorkerBridge
