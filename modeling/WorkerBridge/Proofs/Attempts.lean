/-
  WorkerBridge.Proofs.Attempts

  One attempt to start a worker, as it is seen from outside: how the launch went,
  and what the channel to the new worker delivered until when. What it comes to is
  said of these alone. The rest of the module says what opening and closing an
  attempt does to the world.
-/
import WorkerBridge.Rehearsal.Turns

namespace WorkerBridge

/-! ## What an attempt comes to -/

/-- Whether an event settles an attempt: the answer to the readiness probe, or the end of the
channel. -/
def LinkEvent.settles : LinkEvent → Bool
  | .frame (.response id _) => id = JobId.probe
  | .frame (.malformed ..) => false
  | .closed _ => true

/-- An attempt: how the launch went and when, what the channel of the worker has delivered since,
each with its time, and until when the attempt was watched. -/
structure Attempt where
  launch : Except SpawnFault WorkerId
  since : Nat
  deliveries : List (Nat × LinkEvent) := []
  watched : Nat

namespace Attempt

/-- Until when the worker can answer, if it is given so many seconds. -/
def deadline (wait : Nat) (a : Attempt) : Nat :=
  a.since + wait * 1000

/-- What the attempt comes to: the first delivery in time that settles it decides, whatever came
before. `none` means that it is still undecided. -/
def outcome? (wait : Nat) (a : Attempt) : Option (Except StartFault Started) :=
  match a.launch with
  | .error fault => some (.error (.spawn fault))
  | .ok worker =>
    match a.deliveries.find? fun d => d.1 ≤ a.deadline wait && d.2.settles with
    | some (_, .frame (.response _ (.ok v))) =>
      some (.ok { worker, version := (Version.decode v).toOption })
    | some (_, .frame (.response _ (.error f))) => some (.error (.rejected f.message))
    | some (_, .closed reason) => some (.error (.exited reason))
    | _ => if a.deadline wait ≤ a.watched then some (.error (.silent wait)) else none

/-- The success of an attempt in full: there is a worker, and of what it delivers in time the first
answer to the probe or end of the channel is a good answer to the probe. -/
def Answered (wait : Nat) (a : Attempt) (started : Started) : Prop :=
  a.launch = .ok started.worker ∧
  ∃ before t v after,
    a.deliveries = before ++ (t, .frame (.response JobId.probe (.ok v))) :: after ∧
    (∀ d ∈ before, d.1 ≤ a.deadline wait → d.2.settles = false) ∧
    t ≤ a.deadline wait ∧ started.version = (Version.decode v).toOption

variable {a : Attempt} {wait : Nat} {k : WorkerId}

/-- The first delivery in time that settles, by its place. -/
theorem find?_settling_iff {t : Nat} {e : LinkEvent} :
    a.deliveries.find? (fun d => d.1 ≤ a.deadline wait && d.2.settles) = some (t, e) ↔
      (t ≤ a.deadline wait ∧ e.settles) ∧
      ∃ before after, a.deliveries = before ++ (t, e) :: after ∧
        ∀ d ∈ before, d.1 ≤ a.deadline wait → d.2.settles = false := by
  simp only [List.find?_eq_some_iff_append, Bool.and_eq_true, decide_eq_true_eq, Bool.not_and,
    Bool.or_eq_true, Bool.not_eq_eq_eq_not, Bool.not_true, decide_eq_false_iff_not,
    ← Decidable.imp_iff_not_or]

theorem outcome?_ok_iff {started : Started} :
    a.outcome? wait = some (.ok started) ↔ a.Answered wait started := by
  obtain ⟨worker, version⟩ := started
  rw [outcome?, Answered]
  cases launched : a.launch with
  | error fault => simp
  | ok k =>
    dsimp only
    constructor
    · intro h
      split at h
      next t id v first =>
        obtain ⟨⟨inTime, settles⟩, before, after, split, skipped⟩ := find?_settling_iff.1 first
        have probe : id = JobId.probe := by simpa [LinkEvent.settles] using settles
        subst probe
        cases h
        exact ⟨rfl, before, t, v, after, split, skipped, inTime, rfl⟩
      · cases h
      · cases h
      · split at h <;> cases h
    · rintro ⟨same, before, t, v, after, split, skipped, inTime, decoded⟩
      have first := find?_settling_iff.2 ⟨⟨inTime, by simp [LinkEvent.settles]⟩,
        before, after, split, skipped⟩
      rw [first]
      cases same
      simp [decoded]

end Attempt

/-! ## Channels that are shut -/

/-- Whether the bridge is done with a channel: it has let go of its end, and the worker, if it is a
process, has exited. -/
def Line.isShut (l : Line) : Bool :=
  l.isReleased && (!l.server.isProcess || l.server.hasExited)

namespace World

variable {w w' w'' : World} {k : WorkerId}

/-- Whether the channel that an attempt opened is still open. -/
def isOpen (w : World) (a : Attempt) : Bool :=
  match a.launch with
  | .ok k => !(w.line k).isShut
  | .error _ => false

/-- Only a channel that was opened can be shut. -/
theorem lt_size_of_isShut (shut : (w.line k).isShut) : k < w.lines.size := by
  refine Decidable.byContradiction fun unknown => ?_
  simp [line, unknown, Line.isShut] at shut

/-- The second world differs from the first at most in who is awake. -/
def Rouses (w w' : World) : Prop :=
  ∃ ready, w' = { w with ready }

theorem Rouses.refl (w : World) : Rouses w w :=
  ⟨w.ready, rfl⟩

theorem Rouses.trans (h : Rouses w w') (h' : Rouses w' w'') : Rouses w w'' := by
  obtain ⟨_, rfl⟩ := h
  obtain ⟨ready, rfl⟩ := h'
  exact ⟨ready, rfl⟩

theorem Rouses.ite {p : Prop} [Decidable p] (h : Rouses w w') (h' : Rouses w w'') :
    Rouses w (if p then w' else w'') := by
  split
  · exact h
  · exact h'

theorem rouses_wake (a : Agent) (w : World) : Rouses w (w.wake a) := by
  rw [wake]
  exact (Rouses.refl w).ite ⟨_, rfl⟩

theorem rouses_wakeSenders (k : WorkerId) (w : World) : Rouses w (w.wakeSenders k) :=
  wakeSenders_induction (P := Rouses w) (fun v a roused => roused.trans (rouses_wake a v)) k
    (Rouses.refl w)

theorem rouses_post (k : WorkerId) (m : Outgoing) (w : World) :
    Rouses (w.setLine k { w.line k with sender := (w.line k).sender.put m }) (w.post k m) := by
  rw [post]
  exact (rouses_wake _ _).ite (.refl _)

theorem rouses_release (k : WorkerId) (w : World) :
    Rouses (w.setLine k { w.line k with isReleased := true }) (w.release k) := by
  have reader := (Rouses.refl (w.setLine k { w.line k with isReleased := true })).ite
    (p := (w.line k).receiver.ended) (rouses_wake (.reader k) _)
  rw [release]
  exact reader.ite (reader.trans (rouses_wake _ _))

theorem rouses_exit (alive : (w.line k).server.hasExited = false) :
    Rouses (w.setLine k { w.line k with
      server := { (w.line k).server with hasExited := true, acts := [] } }) (w.exit k) := by
  have reader := (Rouses.refl (w.setLine k { w.line k with
      server := { (w.line k).server with hasExited := true, acts := [] } })).ite
    (p := (w.line k).receiver.ended) (rouses_wake (.reader k) _)
  rw [exit]
  dsimp only
  rw [if_neg (by simp [alive])]
  split
  · exact reader.trans (rouses_wake _ _)
  · exact (reader.trans (rouses_wakeSenders k _)).ite reader

theorem Rouses.line_eq (h : Rouses w w') (k : WorkerId) : w'.line k = w.line k := by
  obtain ⟨_, rfl⟩ := h
  rfl

theorem line_setLine (known : k < w.lines.size) (l : Line) : (w.setLine k l).line k = l := by
  simp [line, setLine, known]

theorem line_setLine_of_ne {j : WorkerId} (apart : j ≠ k) (l : Line) :
    (w.setLine k l).line j = w.line j := by
  simp [line, setLine, Array.getD_eq_getD_getElem?, Array.getElem?_setIfInBounds_ne apart.symm]

/-- The second world differs from the first in the channel to one worker, in who is awake, and in
nothing else that a start looks at. -/
structure Touches (k : WorkerId) (w w' : World) : Prop where
  starts : w'.starts = w.starts
  spawns : w'.spawns = w.spawns
  now : w'.now = w.now
  size : w'.lines.size = w.lines.size
  apart : ∀ j, j ≠ k → w'.line j = w.line j

theorem Touches.refl (k : WorkerId) (w : World) : Touches k w w :=
  ⟨rfl, rfl, rfl, rfl, fun _ _ => rfl⟩

theorem Touches.trans (h : Touches k w w') (h' : Touches k w' w'') : Touches k w w'' :=
  ⟨h'.starts.trans h.starts, h'.spawns.trans h.spawns, h'.now.trans h.now, h'.size.trans h.size,
    fun j apart => (h'.apart j apart).trans (h.apart j apart)⟩

theorem Rouses.touches (h : Rouses w w') (k : WorkerId) : Touches k w w' := by
  obtain ⟨ready, rfl⟩ := h
  exact ⟨rfl, rfl, rfl, rfl, fun _ _ => rfl⟩

theorem touches_setLine (k : WorkerId) (l : Line) (w : World) : Touches k w (w.setLine k l) :=
  ⟨rfl, rfl, rfl, by simp [setLine], fun _ apart => line_setLine_of_ne apart l⟩

theorem touches_post (k : WorkerId) (m : Outgoing) (w : World) : Touches k w (w.post k m) :=
  (touches_setLine k _ w).trans ((rouses_post k m w).touches k)

theorem touches_release (k : WorkerId) (w : World) : Touches k w (w.release k) :=
  (touches_setLine k _ w).trans ((rouses_release k w).touches k)

theorem touches_kill (k : WorkerId) (w : World) : Touches k w (w.kill k) := by
  rw [kill]
  split
  · cases alive : (w.line k).server.hasExited with
    | true => simpa [exit, alive] using Touches.refl k w
    | false => exact (touches_setLine k _ w).trans ((rouses_exit alive).touches k)
  · exact .refl k w

/-- A process that is killed has exited. -/
theorem exited_kill (known : k < w.lines.size) (process : ((w.kill k).line k).server.isProcess) :
    ((w.kill k).line k).server.hasExited := by
  cases isProcess : (w.line k).server.isProcess with
  | false => simp [kill, isProcess] at process
  | true =>
    rw [kill, if_pos isProcess]
    cases alive : (w.line k).server.hasExited with
    | true => simp [exit, alive]
    | false => rw [(rouses_exit alive).line_eq k, line_setLine known]

/-- Whatever became of a worker, its channel is shut once it has been killed and let go. -/
theorem isShut_release_kill (known : k < w.lines.size) :
    (((w.kill k).release k).line k).isShut := by
  rw [← (touches_kill k w).size] at known
  rw [(rouses_release k _).line_eq k, line_setLine known, Line.isShut]
  cases process : ((w.kill k).line k).server.isProcess with
  | false => rfl
  | true => exact exited_kill (by rwa [(touches_kill k w).size] at known) process

/-- Closing an attempt shuts its channel and touches nothing else. -/
theorem closeAttempt_spec (known : k < w.lines.size) :
    Touches k w (w.closeAttempt k) ∧ ((w.closeAttempt k).line k).isShut := by
  have closed : ∀ v, Touches k w v →
      Touches k w ((v.kill k).release k) ∧ (((v.kill k).release k).line k).isShut := by
    intro v touched
    refine ⟨(touched.trans (touches_kill k v)).trans (touches_release k _), ?_⟩
    exact isShut_release_kill (by rwa [touched.size])
  rw [closeAttempt]
  split
  · exact closed w (.refl k w)
  · exact closed _ (touches_post k .close w)

/-! ## Launches -/

/-- The attempt that begins with a launch now. -/
def attempt (w : World) : Attempt :=
  { launch := w.spawn.1.map fun _ => w.lines.size, since := w.now, watched := w.now }

/-- What a launch leaves behind: it is counted, and the channel that it may have opened is new, with
nothing delivered on it. -/
structure Launched (w : World) (launch : Except SpawnFault WorkerId) (w' : World) : Prop where
  starts : w'.starts = w.starts
  spawns : w'.spawns = w.spawns + 1
  now : w'.now = w.now
  apart : ∀ j < w.lines.size, w'.line j = w.line j
  fresh : ∀ k, launch = .ok k → k < w'.lines.size ∧ (w'.line k).events = []

theorem spawn_eq (w : World) :
    ∃ failingSpawns, w.spawn.2 = { w with spawns := w.spawns + 1, failingSpawns } := by
  rw [spawn]
  dsimp only
  split
  · exact ⟨_, rfl⟩
  · split
    · exact ⟨_, rfl⟩
    · exact ⟨_, rfl⟩

theorem spawn_lines (w : World) : w.spawn.2.lines = w.lines := by
  obtain ⟨_, spawned⟩ := spawn_eq w
  rw [spawned]

/-- A channel is opened behind the others. -/
theorem openLine_spec (server : Server) (w : World) :
    Touches w.lines.size { w with lines := w.lines.push { server } } (w.openLine server).2 ∧
    ((w.openLine server).2.line w.lines.size).events = [] := by
  have woken := ((rouses_wake (.worker w.lines.size)
    { w with lines := w.lines.push { server } }).trans (rouses_wake (.writer w.lines.size) _)).trans
    (rouses_wake (.reader w.lines.size) _)
  rw [openLine]
  dsimp only
  constructor
  · exact (woken.touches _).trans (touches_post _ _ _)
  · rw [(rouses_post _ _ _).line_eq, line_setLine, woken.line_eq]
    · simp [line]
    · rw [(woken.touches w.lines.size).size]
      simp

/-- A refused launch leaves nothing behind but its count. -/
theorem launched_spawn_error {fault : SpawnFault} (refused : w.spawn.1 = .error fault) :
    Launched w w.attempt.launch w.spawn.2 := by
  obtain ⟨failingSpawns, spawned⟩ := spawn_eq w
  rw [spawned]
  refine ⟨rfl, rfl, rfl, fun _ _ => rfl, fun k launched => ?_⟩
  rw [attempt, refused] at launched
  cases launched

/-- Any other launch opens a channel behind those that there are. -/
theorem launched_spawn_ok {server : Server} (spawns : w.spawn.1 = .ok server) :
    Launched w w.attempt.launch (w.spawn.2.openLine server).2 := by
  obtain ⟨failingSpawns, spawned⟩ := spawn_eq w
  rw [spawned]
  obtain ⟨touched, silent⟩ :=
    openLine_spec server { w with spawns := w.spawns + 1, failingSpawns }
  refine ⟨touched.starts, touched.spawns, touched.now, fun j old => ?_, fun k launched => ?_⟩
  · rw [touched.apart j (Nat.ne_of_lt old)]
    simp [line, Array.getD_eq_getD_getElem?, Array.getElem?_push_lt old, old]
  · rw [attempt, spawns] at launched
    cases launched
    refine ⟨?_, silent⟩
    rw [touched.size]
    simp

end World

end WorkerBridge
