/-
  WorkerBridge.Proofs.Trials

  A trial starts one worker in a world without an engine. Whatever its script makes the
  workers do, what happens in it is a course of that start: the turns of the start are
  its steps, and the turns of all others and the passing of time are changes by others.
-/
import WorkerBridge.Proofs.BoundedStart
import WorkerBridge.Rehearsal.Trial

namespace WorkerBridge

/-! ## What the ends of a channel do -/

/-- What others do to a channel: they deliver more, and what is shut stays shut. -/
structure Line.Grows (l l' : Line) : Prop where
  events : l.events <+: l'.events
  shut : l.isShut → l'.isShut

namespace World

variable {w w' w'' : World} {k : WorkerId} {s : StartId}

/-- Who there is beside the channels: the engine, unless it has ended, stops, callers and starts. -/
def agents (w : World) : Bool × Array StopTask × Array Caller × Nat :=
  (w.hasEnded, w.stops, w.callers, w.starts.size)

/-- The second world differs from the first in what was done to the channels, and in nothing else
that a start or the clock looks at. -/
structure Tends (w w' : World) : Prop where
  agents : w'.agents = w.agents
  starts : w'.starts = w.starts
  spawns : w'.spawns = w.spawns
  now : w'.now = w.now
  size : w'.lines.size = w.lines.size
  grows : ∀ k, (w.line k).Grows (w'.line k)

namespace Tends

theorem refl (w : World) : Tends w w :=
  ⟨rfl, rfl, rfl, rfl, rfl, fun _ => ⟨List.prefix_rfl, id⟩⟩

theorem trans (h : Tends w w') (h' : Tends w' w'') : Tends w w'' :=
  ⟨h'.agents.trans h.agents, h'.starts.trans h.starts, h'.spawns.trans h.spawns,
    h'.now.trans h.now, h'.size.trans h.size, fun k =>
      ⟨(h.grows k).events.trans (h'.grows k).events,
        fun shut => (h'.grows k).shut ((h.grows k).shut shut)⟩⟩

theorem rouse (h : Tends w w') (roused : Rouses w' w'') : Tends w w'' := by
  obtain ⟨ready, rfl⟩ := roused
  exact h.trans ⟨rfl, rfl, rfl, rfl, rfl, fun _ => ⟨List.prefix_rfl, id⟩⟩

theorem wake (h : Tends w w') (a : Agent) : Tends w (w'.wake a) :=
  h.rouse (rouses_wake a w')

theorem wakeSenders (h : Tends w w') (k : WorkerId) : Tends w (w'.wakeSenders k) :=
  h.rouse (rouses_wakeSenders k w')

theorem ite {p : Prop} [Decidable p] (h : Tends w w') (h' : Tends w w'') :
    Tends w (if p then w' else w'') := by
  split
  · exact h
  · exact h'

/-- A channel on which more was delivered, or nothing, and which was not reopened. -/
theorem setLine {l : Line} (h : Tends w w') (events : (w'.line k).events <+: l.events)
    (shut : (w'.line k).isShut → l.isShut) : Tends w (w'.setLine k l) := by
  refine h.trans ⟨rfl, rfl, rfl, rfl, by simp [World.setLine], fun j => ?_⟩
  by_cases same : j = k
  · subst same
    by_cases known : j < w'.lines.size
    · rw [line_setLine known]
      exact ⟨events, shut⟩
    · rw [World.setLine, Array.setIfInBounds_eq_of_size_le (Nat.le_of_not_lt known)]
      exact ⟨List.prefix_rfl, id⟩
  · rw [line_setLine_of_ne same]
    exact ⟨List.prefix_rfl, id⟩

/-- A channel that changed in nothing that a start looks at. -/
theorem adjust {l : Line} (h : Tends w w') (events : l.events = (w'.line k).events)
    (shut : l.isShut = (w'.line k).isShut) : Tends w (w'.setLine k l) :=
  h.setLine (events ▸ List.prefix_rfl) (by rw [shut]; exact id)

theorem leaveEnd (h : Tends w w') (k : WorkerId) : Tends w (w'.leaveEnd k) := by
  rw [World.leaveEnd]
  dsimp only
  split
  · exact .wake (.adjust h (by rfl) (by rfl)) _
  · exact h

theorem wakeOwner (h : Tends w w') (k : WorkerId) : Tends w (w'.wakeOwner k) := by
  rw [World.wakeOwner]
  split
  · exact h.wake _
  · split
    · exact h.wake _
    · exact h

theorem exit (h : Tends w w') (k : WorkerId) : Tends w (w'.exit k) := by
  cases alive : (w'.line k).server.hasExited with
  | true => simpa [World.exit, alive] using h
  | false =>
    refine .rouse (.setLine h ?_ ?_) (rouses_exit alive)
    · exact List.prefix_rfl
    · simp_all [Line.isShut]

end Tends

theorem tends_writerTurn (k : WorkerId) (w : World) : Tends w (w.writerTurn k) := by
  rw [writerTurn]
  -- Nothing depends on the fuel; as a variable it is never unfolded.
  generalize turnFuel = fuel
  dsimp only
  split
  · exact .refl w
  · split
    · exact .leaveEnd (.wakeSenders (.adjust (.refl w) (by rfl) (by rfl)) k) k
    · rcases (w.line k).sender.run (w.line k).server.hasExited fuel (w.line k).inlet with
        ⟨result, sender, inlet⟩
      dsimp only
      have written : Tends w (w.setLine k { w.line k with sender, inlet }) :=
        .adjust (.refl w) (by rfl) (by rfl)
      have roused := (written.wakeSenders k).ite
        (p := sender.outbox.length < (w.line k).sender.outbox.length) written
      have woken := (roused.wake (.worker k)).ite
        (p := inlet.written > (w.line k).inlet.written) roused
      cases result with
      | waiting => exact woken
      | closed => exact ((woken.wake _).wakeSenders k).leaveEnd k
      | failed e =>
        refine .leaveEnd (.wakeSenders (.wakeOwner (.setLine woken ?_ ?_) k) k) k
        · exact List.prefix_append _ _
        · exact id

theorem tends_readerTurn (k : WorkerId) (w : World) : Tends w (w.readerTurn k) := by
  rw [readerTurn]
  dsimp only
  split
  · exact .refl w
  · split
    · exact .leaveEnd (.adjust (.refl w) (by rfl) (by rfl)) k
    · rcases (w.line k).receiver.run (w.line k).outlet (w.line k).server.hasExited with
        ⟨events, receiver⟩
      dsimp only
      have delivered : Tends w (w.setLine k
          { w.line k with receiver, outlet := [], events := (w.line k).events ++ events }) :=
        .setLine (.refl w) (List.prefix_append _ _) (by exact id)
      have woken := delivered.ite (p := (w.line k).outlet.isEmpty) (delivered.wake (.worker k))
      exact (woken.ite (woken.wakeOwner k)).leaveEnd k

/-- What is noted, and which rules of the script are used up, is nobody's concern here. -/
theorem tends_noting (requests : List Json) (script : Script) (w : World) :
    Tends w { w with requests, script } :=
  ⟨rfl, rfl, rfl, rfl, rfl, fun _ => ⟨List.prefix_rfl, id⟩⟩

theorem tends_reply (k : WorkerId) (request : Json) (w : World) :
    Tends w (w.reply k request).2 := by
  rw [reply]
  dsimp only
  split
  · exact .adjust (.refl w) (by rfl) (by rfl)
  · exact tends_noting _ _ w

theorem tends_serve (k : WorkerId) (request : Json) (w : World) : Tends w (w.serve k request) := by
  have noted := (tends_noting (request :: w.requests) w.script w).ite
    (p := (w.line k).server.isNoted) (.refl w)
  have busy : ∀ (v : World) (acts : List Act), Tends v
      (v.setLine k { v.line k with server := { (v.line k).server with acts } }) :=
    fun v _ => .adjust (.refl v) (by rfl) (by rfl)
  rw [serve]
  exact (noted.trans (tends_reply k request _)).trans (busy _ _)

theorem tends_workerTurn (k : WorkerId) (fuel : Nat) (w : World) :
    Tends w (w.workerTurn k fuel) := by
  induction fuel generalizing w with
  | zero => exact .refl w
  | succ fuel ih =>
    rw [workerTurn]
    generalize turnFuel = enough
    dsimp only
    split
    · exact .refl w
    · split
      · exact .exit (.refl w) k
      · split
        · exact .trans (.adjust (.refl w) (by rfl) (by rfl)) (ih _)
        · exact .adjust (.refl w) (by rfl) (by rfl)
      · split
        · exact .trans (.adjust (.refl w) (by rfl) (by rfl)) (ih _)
        · split
          · exact .exit (.refl w) k
          · split
            · exact .refl w
            · exact .trans (.wake (.adjust (.refl w) (by rfl) (by rfl)) _) (ih _)
      · rcases (w.line k).inlet.read enough with ⟨intake, inlet⟩
        dsimp only
        have read : Tends w (w.setLine k { w.line k with inlet }) :=
          .adjust (.refl w) (by rfl) (by rfl)
        -- The writer, if it waits for room, may have to be woken before the worker goes on.
        cases intake with
        | waiting =>
          dsimp only
          split
          · exact (read.wake _).ite read
          · exact read
        | finished =>
          refine .exit ?_ k
          split
          · exact (read.wake _).ite read
          · exact read
        | message request =>
          refine .trans (.trans ?_ (tends_serve k request _)) (ih _)
          split
          · exact (read.wake _).ite read
          · exact read

/-! ## Turns of a start -/

theorem tends_kill (k : WorkerId) (w : World) : Tends w (w.kill k) := by
  rw [kill]
  exact (Tends.exit (.refl w) k).ite (.refl w)

theorem tends_release (k : WorkerId) (w : World) : Tends w (w.release k) := by
  refine .rouse (.setLine (.refl w) ?_ ?_) (rouses_release k w)
  · exact List.prefix_rfl
  · simp_all [Line.isShut]

theorem tends_post (k : WorkerId) (m : Outgoing) (w : World) : Tends w (w.post k m) :=
  .rouse (.adjust (.refl w) (by rfl) (by rfl)) (rouses_post k m w)

theorem tends_closeAttempt (k : WorkerId) (w : World) : Tends w (w.closeAttempt k) := by
  rw [closeAttempt]
  exact (((Tends.refl w).ite (tends_post k .close w)).trans (tends_kill k _)).trans
    (tends_release k _)

@[simp] theorem agents_wake (a : Agent) (w : World) : (w.wake a).agents = w.agents :=
  (Tends.wake (.refl w) a).agents

@[simp] theorem agents_setLine (l : Line) (w : World) : (w.setLine k l).agents = w.agents := rfl

@[simp] theorem agents_setStart (task : StartTask) (w : World) :
    (w.setStart s task).agents = w.agents := by
  simp [agents, setStart]

@[simp] theorem agents_closeAttempt (w : World) : (w.closeAttempt k).agents = w.agents :=
  (tends_closeAttempt k w).agents

@[simp] theorem agents_spawn (w : World) : w.spawn.2.agents = w.agents := by
  obtain ⟨failingSpawns, spawned⟩ := spawn_eq w
  rw [spawned]
  rfl

@[simp] theorem agents_openLine (server : Server) (w : World) :
    (w.openLine server).2.agents = w.agents := by
  rw [openLine]
  exact (Tends.trans (.wake (.wake (.wake (.refl _) _) _) _) (tends_post ..)).agents

/-- The start of a worker leaves alone who else there is. -/
theorem agents_startTurn (fuel : Nat) (w : World) : (w.startTurn s fuel).agents = w.agents := by
  induction fuel generalizing w with
  | zero => rfl
  | succ fuel ih =>
    rw [startTurn]
    split
    · rfl
    · split
      · rfl
      · split
        · dsimp only
          split
          · rw [((tends_kill _ _).trans (tends_release _ _)).agents, agents_setStart]
          · exact agents_setStart _ w
        · split
          · simp
          · dsimp only
            split <;> simp [ih]
          next k deadline _ =>
            cases events : (w.line k).events with
            | cons e rest =>
              simp only [events, ih]
              split <;> simp
            | nil =>
              by_cases due : deadline ≤ w.now
              · simp only [events, due, if_true, ih]
                split <;> simp
              · simp [events, due]

/-! ## Trials -/

section Courses

variable {t : Timeouts} {w₀ : World} {attempts : List Attempt}

/-- The clock has not passed the time of the worker on trial, and stops there. -/
theorem Staged.awaits (staged : Staged t s attempts w) :
    ∀ d ∈ w.answerBy? s, w.now ≤ d ∧ (d, Agent.start s) ∈ w.timers := by
  obtain ⟨task, known, stage⟩ := staged
  intro d answerBy
  cases stage with
  | spawning => simp [answerBy?, known, Startup.deadline?] at answerBy
  | probing _ _ trial =>
    simp only [answerBy?, known, Startup.deadline?, Option.bind_some, Option.mem_some] at answerBy
    have listed : (_, s) ∈ w.starts.toList.zipIdx :=
      List.mem_zipIdx_iff_getElem?.2 (Array.getElem?_toList.trans known)
    refine ⟨answerBy ▸ trial.inTime, ?_⟩
    rw [timers]
    refine List.mem_append_left _ (List.mem_append_left _ (List.mem_append_left _
      (List.mem_append_right _ (List.mem_filterMap.2 ⟨_, listed, ?_⟩))))
    simp [Startup.deadline?, answerBy]
  | done => simp [answerBy?, known, Startup.deadline?] at answerBy

theorem rouses_foldl_wake (due : List (Nat × Agent)) (w : World) :
    Rouses w (due.foldl (fun w (_, a) => w.wake a) w) := by
  induction due generalizing w with
  | nil => exact .refl w
  | cons d due ih => exact (rouses_wake d.2 w).trans (ih _)

theorem Tends.meanwhile (h : Tends w w') (staged : Staged t s attempts w) : w.Meanwhile s w' where
  starts := by rw [h.starts]
  spawns := h.spawns
  inTime := by
    rw [h.now]
    exact fun d answerBy => (staged.awaits d answerBy).1
  size := Nat.le_of_eq h.size.symm
  shut := fun k => (h.grows k).shut
  events := fun k _ => (h.grows k).events

/-- The turns of a start are its steps. -/
theorem course_startTurn (fresh : w₀.starts[s]? = some { startup := .ofTimeouts t })
    (course : Course s w₀ attempts w) (fuel : Nat) :
    ∃ attempts, Course s w₀ attempts (w.startTurn s fuel) := by
  induction fuel generalizing w attempts with
  | zero => exact ⟨attempts, course⟩
  | succ fuel ih =>
    rw [(course.staged fresh).1.startTurn_succ]
    exact ih course.steps

theorem startTurn_unknown (unknown : w.starts[s]? = none) (fuel : Nat) :
    w.startTurn s fuel = w := by
  cases fuel with
  | zero => rfl
  | succ fuel => simp [startTurn, unknown]

/-- Nobody is there beside one start and what it has opened. -/
def IsAlone (w : World) : Prop :=
  w.agents = (true, #[], #[], 1)

/-- A start that is alone is on one of its courses. -/
def InTrial (w₀ w : World) : Prop :=
  w.IsAlone ∧ ∃ attempts, Course 0 w₀ attempts w

variable (fresh : w₀.starts[0]? = some { startup := .ofTimeouts t })
include fresh

theorem InTrial.tends (trial : InTrial w₀ w) (h : Tends w w') : InTrial w₀ w' := by
  obtain ⟨alone, attempts, course⟩ := trial
  exact ⟨h.agents.trans alone, _, course.others (h.meanwhile (course.staged fresh).1)⟩

/-- **A turn of anyone.** -/
theorem InTrial.turn (trial : InTrial w₀ w) (a : Agent) : InTrial w₀ (w.turn a) := by
  obtain ⟨alone, attempts, course⟩ := id trial
  simp only [IsAlone, agents, Prod.mk.injEq] at alone
  obtain ⟨ended, still, quiet, single⟩ := alone
  cases a with
  | engine =>
    rw [World.turn, engineTurn, if_pos ended]
    exact trial
  | start s =>
    rw [World.turn]
    generalize turnFuel = fuel
    cases s with
    | zero => exact ⟨(agents_startTurn fuel w).trans trial.1, course_startTurn fresh course fuel⟩
    | succ s =>
      rw [startTurn_unknown (by simp [single])]
      exact trial
  | writer k => exact trial.tends fresh (tends_writerTurn k w)
  | reader k => exact trial.tends fresh (tends_readerTurn k w)
  | worker k => exact trial.tends fresh (tends_workerTurn k turnFuel w)
  | stop n =>
    rw [World.turn]
    generalize turnFuel = fuel
    cases fuel <;> simpa [stopOn, still] using trial
  | caller c =>
    rw [World.turn]
    generalize turnFuel = fuel
    cases fuel <;> simpa [callerTurn, quiet] using trial

theorem InTrial.settle (trial : InTrial w₀ w) (fuel : Nat) : InTrial w₀ (w.settle fuel) := by
  induction fuel generalizing w with
  | zero => exact trial
  | succ fuel ih =>
    rw [World.settle]
    split
    · exact trial
    · exact ih ((trial.tends fresh (.rouse (.refl w) ⟨_, rfl⟩)).turn fresh _)

theorem InTrial.moveTo {now : Nat} (trial : InTrial w₀ w)
    (next : (w.timers.map (·.1)).min? = some now) : InTrial w₀ (w.moveTo now) := by
  have roused : Rouses { w with now } (w.moveTo now) := by
    rw [World.moveTo]
    exact rouses_foldl_wake _ _
  -- The clock moves to the earliest timer, and the start has set one if a worker is on trial.
  refine InTrial.tends fresh ?_ (.rouse (.refl _) roused)
  obtain ⟨alone, attempts, course⟩ := trial
  refine ⟨alone, _, course.others ?_⟩
  exact
    { starts := rfl, spawns := rfl, size := Nat.le_refl _, shut := fun _ => id
      events := fun _ _ => List.prefix_rfl
      inTime := fun d answerBy => by
        have listed := ((course.staged fresh).1.awaits d answerBy).2
        exact (List.min?_eq_some_iff.1 next).2 d (List.mem_map.2 ⟨_, listed, rfl⟩) }

theorem InTrial.passWhile (goesOn : World → Bool) (trial : InTrial w₀ w) (fuel : Nat) :
    InTrial w₀ (w.passWhile goesOn fuel) := by
  induction fuel generalizing w with
  | zero => exact trial
  | succ fuel ih =>
    rw [World.passWhile]
    generalize turnFuel = enough
    have settled := trial.settle fresh enough
    split
    · split
      next now next => exact ih (settled.moveTo fresh next)
      next => exact settled
    · exact settled

end Courses

end World

/-- **A trial is a course of its start**, whatever the script of the workers and however many
launches are refused. -/
theorem World.tried_isCourse {w : World} (still : w.stops = #[]) (quiet : w.callers = #[]) :
    ∃ attempts, Course 0 w.forTrial attempts w.tried := by
  have alone : w.forTrial.IsAlone := by simp [IsAlone, agents, forTrial, still, quiet]
  have trial : InTrial w.forTrial w.forTrial := ⟨alone, [], .begins⟩
  rw [tried]
  generalize turnFuel = fuel
  exact (trial.passWhile (t := w.timeouts) rfl _ fuel).2

/-- A trial launches no more workers than its settings allow. -/
theorem Trial.spawns_le {w : World} (still : w.stops = #[]) (quiet : w.callers = #[])
    (stop : Option (JobId × Nat)) : (Trial.run w stop).spawns ≤ w.spawns + w.timeouts.attempts := by
  obtain ⟨attempts, course⟩ := World.tried_isCourse still quiet
  obtain ⟨⟨task, -, stage⟩, spawned⟩ := course.staged (t := w.timeouts) rfl
  calc (Trial.run w stop).spawns = w.tried.spawns := rfl
    _ = w.spawns + attempts.length := spawned
    _ ≤ w.spawns + w.timeouts.attempts := Nat.add_le_add_left stage.length_le _

end WorkerBridge
