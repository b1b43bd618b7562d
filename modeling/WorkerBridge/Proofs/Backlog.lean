/-
  WorkerBridge.Proofs.Backlog

  How long the engine goes on when a worker does not read.

  A job that runs out of time leaves the table, and the next one is handed over,
  but its request stays in the outbox until the writer takes it. So a worker that
  no longer reads lets one request after the other wait, until there is no room
  for the next and the engine waits with it (`Suspended`). Then it answers no
  command any more, and nothing but the worker can change that
  (`Suspended.run`).

  Such runs exist: one request that is longer than the pipe jams the way, and each
  job that nobody answers adds to the `Backlog` behind it (`Backlog.grows`). The
  last section ties the traffic to the turns of the engine and of the writer in
  the world.
-/
import Mathlib.Logic.Function.Basic
import WorkerBridge.Proofs.Traffic
import WorkerBridge.Rehearsal.Clock

namespace WorkerBridge

/-! ## An engine that waits -/

/-- Whether the motion can make room on the way to a worker: the worker reads, or its writer notices
that it is gone. -/
def Motion.relieves (w : WorkerId) : Motion → Bool
  | .read v _ => v = w
  | .write v broken _ => v = w && broken
  | _ => false

namespace Traffic

/-- The engine waits for room, and the writer does so too. -/
structure Suspended (t : Traffic) (s : Sent) : Prop where
  held : t.held = some s
  jammed : (t.ways s.worker).Jammed
  full : (t.ways s.worker).sender.hasRoom = false

theorem handOver_full {t : Traffic} {s : Sent} (jammed : (t.ways s.worker).Jammed)
    (full : (t.ways s.worker).sender.hasRoom = false) :
    t.handOver s = { t with held := some s } := by
  rw [handOver, if_neg jammed.writer_ne_ended, if_neg (by simp [full])]

/-- Nothing but the worker ends the wait, and nothing is answered meanwhile. -/
theorem Suspended.step {t : Traffic} {s : Sent} (suspended : t.Suspended s) {m : Motion}
    (unrelieved : m.relieves s.worker = false) :
    (t.step m).Suspended s ∧ (t.step m).history.effects = t.history.effects := by
  cases m with
  | draw =>
    refine ⟨⟨suspended.held, suspended.jammed, suspended.full⟩, ?_⟩
    rw [Traffic.step, History.effects_extend]
    exact List.append_nil _
  | input now input =>
    rw [Traffic.step, suspended.held]
    exact ⟨suspended, rfl⟩
  | write w broken fuel =>
    -- The writer finds no room either, so the way stays as it is.
    have kept : Function.update t.ways w ((t.ways w).write broken fuel) s.worker =
        t.ways s.worker := by
      by_cases same : w = s.worker
      · subst same
        have whole : broken = false := by simpa [Motion.relieves] using unrelieved
        rw [Function.update_self, whole, suspended.jammed.write]
      · rw [Function.update_of_ne (Ne.symm same)]
    have jammed := suspended.jammed
    have full := suspended.full
    rw [← kept] at jammed full
    have waits : t.step (.write w broken fuel) =
        { t with
          ways := Function.update t.ways w ((t.ways w).write broken fuel), held := some s } := by
      rw [Traffic.step, resume]
      dsimp only
      rw [suspended.held]
      exact handOver_full jammed full
    rw [waits]
    exact ⟨⟨rfl, jammed, full⟩, rfl⟩
  | read w fuel =>
    have other : w ≠ s.worker := by simpa [Motion.relieves] using unrelieved
    refine ⟨⟨suspended.held, ?_, ?_⟩, rfl⟩
    · rw [Traffic.step]
      dsimp only
      rw [Function.update_of_ne (Ne.symm other)]
      exact suspended.jammed
    · rw [Traffic.step]
      dsimp only
      rw [Function.update_of_ne (Ne.symm other)]
      exact suspended.full

theorem Suspended.run {t : Traffic} {s : Sent} (suspended : t.Suspended s) {ms : List Motion}
    (unrelieved : ∀ m ∈ ms, m.relieves s.worker = false) :
    (ms.foldl Traffic.step t).Suspended s ∧
      (ms.foldl Traffic.step t).history.effects = t.history.effects := by
  induction ms generalizing t with
  | nil => exact ⟨suspended, rfl⟩
  | cons m ms ih =>
    obtain ⟨first, quiet⟩ := suspended.step (unrelieved m List.mem_cons_self)
    obtain ⟨later, quiet'⟩ := ih first fun m' hm' => unrelieved m' (List.mem_cons_of_mem m hm')
    exact ⟨later, quiet'.trans quiet⟩

end Traffic

/-! ## A job that runs out of time -/

namespace Engine

/-- The worker is up, and there is nothing to do. -/
structure Rests (e : Engine) (w : WorkerId) : Prop where
  ready : e.lifecycle = .ready
  worker : e.worker = some w
  idle : e.flights.live = []
  empty : e.queue.jobs = []

/-- The worker has been handed the only job that there is. -/
structure Works (e : Engine) (w : WorkerId) (f : Flight) : Prop where
  busy : e.lifecycle = .busy
  worker : e.worker = some w
  flying : e.flights.live = [f]
  empty : e.queue.jobs = []

/-- A worker that is up and free gets the next job. -/
theorem dispatch_next {e : Engine} {w : WorkerId} {job : Job} {rest : List Job} (now : Nat)
    (up : e.lifecycle.isUp) (worker : e.worker = some w) (idle : e.flights.live = [])
    (queue : e.queue.jobs = job :: rest) :
    (dispatch now e).state = e.launch now job rest ∧
      sends (dispatch now e).effects = [handed w job] := by
  have there : e.lifecycle.isUp → e.worker.isSome := fun _ => by rw [worker]; rfl
  rcases dispatch_cases now e there with
    ⟨blocked, -⟩ | ⟨-, -, none, -⟩ | ⟨v, next, more, -, -, hv, hq, hstate, heffects⟩
  · exact absurd ⟨up, idle⟩ blocked
  · rw [queue] at none
    cases none
  · obtain ⟨rfl⟩ := Option.some.inj (worker.symm.trans hv)
    obtain ⟨rfl, rfl⟩ := List.cons.inj (queue.symm.trans hq)
    refine ⟨hstate, ?_⟩
    rw [heffects, sends_append, sends_append, sends_announce]
    split <;> rfl

theorem Rests.submitted {e : Engine} {w : WorkerId} (rests : e.Rests w) (now : Nat) (job : Job) :
    (e.step now (.command (.submit job))).state.Works w (job.flight now) ∧
      sends (e.step now (.command (.submit job))).effects = [handed w job] := by
  have turn : e.step now (.command (.submit job)) = submit now job e := by
    simp [step, hasEnded, rests.ready, onCommand]
  rcases submit_cases now job e with ⟨rejects, -⟩ | ⟨-, heq⟩
  · rw [rests.ready] at rejects
    cases rejects
  · have up : e.lifecycle.isUp := by rw [rests.ready]; rfl
    have queue : (e.queue.push job).jobs = [job] := by simp [Queue.push, rests.empty]
    obtain ⟨hstate, hsends⟩ :
        (dispatch now { e.following job.request with queue := e.queue.push job }).state = _ ∧
          sends (dispatch now { e.following job.request with queue := e.queue.push job }).effects =
            [handed w job] := dispatch_next now up rests.worker rests.idle queue
    rw [turn, heq, Turn.andThen_state, Turn.andThen_effects, sends_append, sends_announce,
      List.nil_append, hsends, hstate]
    exact ⟨⟨rfl, rests.worker, rfl, rfl⟩, rfl⟩

theorem Works.deadline {e : Engine} {w : WorkerId} {f : Flight} (works : e.Works w f) {now : Nat}
    (due : f.isDue now) :
    (e.step now .deadline).state.Rests w ∧ sends (e.step now .deadline).effects = [] ∧
      Moment.late w ⟨e, .input now .deadline⟩ = [f.job.id] := by
  have turn : e.step now .deadline = onDeadline now e := by
    simp [step, hasEnded, works.busy]
  have none : (e.expired now).flights.live = [] := by
    rw [expired_live, works.flying]
    simp [due]
  have readied : dispatch now (e.expired now) = setState .ready (e.expired now) := by
    have free : (e.expired now).lifecycle.isUp ∧ (e.expired now).flights.isIdle :=
      ⟨by rw [expired, works.busy]; rfl, by rw [InFlight.isIdle, none]; rfl⟩
    have empty : (e.expired now).queue.pop? = Option.none := by
      simp [expired, Queue.pop?, works.empty]
    rw [dispatch, if_pos free, empty]
  refine ⟨?_, ?_, ?_⟩
  · rw [turn, onDeadline_eq, Turn.andThen_state, readied, setState_state]
    exact ⟨rfl, works.worker, none, works.empty⟩
  · rw [turn, onDeadline_eq, Turn.andThen_effects, sends_append, sends_finish_flights, readied,
      sends_setState, List.nil_append]
  · rw [Moment.late]
    dsimp only
    rw [if_pos works.worker, works.flying]
    simp [due]

end Engine

namespace History

/-- Jobs are submitted under identities that callers drew. -/
theorem submitted_drawn {policy : RestartPolicy} {os : List Occasion} (lawful : Lawful policy os) :
    ∀ j ∈ (run policy os).submitted, j.id ∈ (run policy os).drawn := by
  refine lawful_induction (P := fun h => ∀ j ∈ h.submitted, j.id ∈ h.drawn) ?_ ?_ lawful
  · exact fun j hj => nomatch hj
  · intro h o ih allowed j hj
    rw [submitted_extend, List.mem_append, Option.mem_toList] at hj
    rw [drawn_extend]
    refine List.mem_append_left _ ?_
    rcases hj with old | new
    · exact ih j old
    · unfold Moment.submitted? at new
      split at new
      · next occasion =>
        cases occasion
        cases new
        exact allowed.1
      · cases new

/-- Time does not run backwards, and has come to `now` at most. -/
def Until (h : History) (now : Nat) : Prop :=
  h.times.Pairwise (· ≤ ·) ∧ ∀ time ∈ h.times, time ≤ now

theorem Until.draw {h : History} {now : Nat} (until_now : h.Until now) :
    (h.extend .draw).Until now := by
  have same : (h.extend .draw).times = h.times := by
    rw [times_extend]
    exact List.append_nil _
  rwa [Until, same]

theorem Until.input {h : History} {now later : Nat} (until_now : h.Until now) (le : now ≤ later)
    (input : Input) : (h.extend (.input later input)).Until later := by
  have added : (h.extend (.input later input)).times = h.times ++ [later] := times_extend h _
  have before : ∀ time ∈ h.times, time ≤ later := fun time htime =>
    (until_now.2 time htime).trans le
  rw [Until, added]
  refine ⟨List.pairwise_append.2 ⟨until_now.1, List.pairwise_singleton .., ?_⟩, ?_⟩
  · simpa using before
  · simpa [or_imp, forall_and] using before

end History

namespace Request

/-- A request with a text of the given length. -/
def lengthy (n : Nat) : Request :=
  .addUri "a" (String.ofList (List.replicate n 'x'))

theorem addUri_message (uri source : String) : (addUri uri source).message ⟨1⟩ =
    .obj [("id", .num (.int 1)), ("request", .str "api/addUri"), ("src", .str source),
      ("uri", .str uri)] := by
  simp only [message, Json.ofFields, TextMap.ofList, fields, tag, List.foldl_cons, List.foldl_nil,
    TextMap.insert, String.reduceLT, String.reduceEq, if_true, if_false]
  rfl

theorem length_lengthy (n : Nat) : ((lengthy n).message ⟨1⟩).compact.toList.length = n + 50 := by
  have quoted : (Json.quotedChars (String.ofList (List.replicate n 'x'))).length = n + 2 := by
    have plain : (Json.escape 'x').length = 1 := by decide
    simp [Json.quotedChars, plain]
  have keys : (Json.quotedChars "id").length = 4 ∧ (Json.quotedChars "request").length = 9 ∧
      (Json.quotedChars "src").length = 5 ∧ (Json.quotedChars "uri").length = 5 := by decide
  have values : (Json.quotedChars "api/addUri").length = 12 ∧
      (Json.quotedChars "a").length = 3 := by decide
  have number : (Json.Number.int 1).text.toList.length = 1 := by decide +kernel
  rw [Json.compact_toList, lengthy, addUri_message]
  simp only [Json.chars, Json.charsOfFields, List.length_cons, List.length_append, List.length_nil,
    quoted, keys, values, number]
  omega

/-- A text as long as the pipe makes the request longer than the pipe, and not too long to be
sent. -/
theorem bodySize_lengthy :
    Link.pipeCapacity < Way.bodySize ((lengthy Link.pipeCapacity).message ⟨1⟩) ∧
      Way.bodySize ((lengthy Link.pipeCapacity).message ⟨1⟩) ≤ Frame.maxBody := by
  obtain ⟨least, most⟩ :=
    Json.utf8ByteSize_bounds ((lengthy Link.pipeCapacity).message ⟨1⟩).compact
  rw [length_lengthy] at least most
  exact ⟨Nat.lt_of_lt_of_le (by omega) least, most.trans (by decide)⟩

/-- The probe is not empty, and short. -/
theorem bodySize_probe : 0 < Way.bodySize (version.message JobId.probe) ∧
    Way.bodySize (version.message JobId.probe) ≤ 128 := by
  have length : (Json.chars (version.message JobId.probe)).length = 32 := by decide +kernel
  obtain ⟨least, most⟩ := Json.utf8ByteSize_bounds (version.message JobId.probe).compact
  rw [Json.compact_toList, length] at least most
  exact ⟨Nat.lt_of_lt_of_le (by decide) least, most⟩

end Request

namespace Traffic

variable {policy : RestartPolicy} {t : Traffic} {w : WorkerId}

/-- The next job of a caller that does not wait long. -/
def hasty (t : Traffic) (r : Request) : Job :=
  { id := ⟨t.history.engine.nextId⟩, request := r, timeout := some 1 }

/-- A caller may draw an identity and submit a job under it. -/
theorem hasty_allowed (reached : Reachable policy t) (now : Nat) (r : Request) :
    (t.step .draw).Allows (.input now (.command (.submit (t.hasty r)))) := by
  intro _
  obtain ⟨os, lawful, hrun⟩ := reached.lawful
  refine ⟨⟨?_, ?_, fun ticket hticket => nomatch hticket⟩, trivial⟩
  · rw [Traffic.step, History.drawn_extend]
    exact List.mem_append_right _ (List.mem_singleton_self _)
  · intro known
    rw [Traffic.step, History.submitted_extend] at known
    obtain ⟨j, hj, same⟩ := List.mem_map.1 known
    rw [← hrun] at hj
    have drawn := History.submitted_drawn lawful j (by simpa [Moment.submitted?] using hj)
    have below := (History.lawful_orderly lawful).drawn_lt j.id drawn
    rw [same, hrun] at below
    exact Nat.lt_irrefl _ below

/-- The job is handed to a worker that has nothing else to do. -/
theorem submit_hasty (reached : Reachable policy t) (free : t.held = none)
    (rests : t.history.engine.Rests w) {now : Nat} (until_now : t.history.Until now) (r : Request) :
    ∃ h : History, h.engine.Works w ((t.hasty r).flight now) ∧ h.late w = t.history.late w ∧
      h.Until now ∧
      Reachable policy (handOver { t with history := h } (Engine.handed w (t.hasty r))) := by
  have drawn : (t.step .draw).history.engine.Rests w :=
    ⟨rests.ready, rests.worker, rests.idle, rests.empty⟩
  obtain ⟨works, hands⟩ := drawn.submitted now (t.hasty r)
  have called : Reachable policy (t.step .draw) := reached.step (m := .draw) trivial
  have next := called.step (hasty_allowed reached now r)
  rw [step_input (t := t.step .draw) free, answer, hands] at next
  exact ⟨_, works, by simp [Moment.late], until_now.draw.input le_rfl _, next⟩

/-- **One job more.** A job that nobody answers leaves its request on the way, and the engine as it
    was. -/
theorem round (reached : Reachable policy t) (free : t.held = none)
    (rests : t.history.engine.Rests w) {now : Nat} (until_now : t.history.Until now)
    (alive : (t.ways w).sender.writer ≠ .ended) (room : (t.ways w).sender.hasRoom) (r : Request)
    (fuel : Nat) :
    ∃ t', Reachable policy t' ∧ t'.held = none ∧ t'.history.engine.Rests w ∧
      t'.history.Until (now + 1) ∧
      t'.ways w = ((t.ways w).put (.message (r.message (t.hasty r).id))).write false fuel ∧
      (t'.history.late w).length = (t.history.late w).length + 1 := by
  obtain ⟨h, works, same, until_h, handed⟩ := submit_hasty reached free rests until_now r
  have put : handOver { t with history := h } (Engine.handed w (t.hasty r)) =
      { history := h
        ways := Function.update t.ways w ((t.ways w).put (.message (r.message (t.hasty r).id)))
        held := none } := by
    rw [handOver]
    exact (if_neg alive).trans (if_pos room)
  rw [put] at handed
  have written := handed.step (m := .write w false fuel) trivial
  rw [step_write rfl] at written
  have expired := written.step (m := .input (now + 1) .deadline) fun _ => ⟨trivial, trivial⟩
  obtain ⟨rests', silent, late⟩ := works.deadline (decide_eq_true (Nat.le_refl (now + 1)))
  rw [step_input rfl, answer, silent] at expired
  refine ⟨_, expired, rfl, rests', until_h.input (Nat.le_succ now) _, ?_, ?_⟩
  · simp
  · simp [same, late]

/-- The first worker reads the probe, and nothing else is on the way. -/
theorem probe_read (policy : RestartPolicy) :
    ∃ t, Reachable policy t ∧ t.held = none ∧ t.history = .boot policy ∧
      (t.ways 0).sender = {} ∧ (t.ways 0).inlet.taken ≤ (t.ways 0).inlet.written := by
  obtain ⟨nonempty, short⟩ := Request.bodySize_probe
  have header := Way.headerSize_le (short.trans (by decide : 128 ≤ Frame.maxBody))
  obtain ⟨i, sound, passed⟩ := Way.write_passes nonempty (show _ < 64 * 1024 by omega)
  have booted : Reachable policy (boot policy) := .boot
  have written := booted.step (m := .write 0 false 5) trivial
  have read := written.step (m := .read 0 8) trivial
  have way : (((boot policy).step (.write 0 false 5)).step (.read 0 8)).ways 0 =
      Way.read 8 ⟨{}, i⟩ := by
    rw [← passed]
    rfl
  refine ⟨_, read, rfl, rfl, ?_, ?_⟩
  · rw [way]
    rfl
  · rw [way]
    exact Way.read_sound sound 8

/-- It comes up, and has nothing to do. -/
theorem onset (policy : RestartPolicy) :
    ∃ t, Reachable policy t ∧ t.held = none ∧ t.history.engine.Rests 0 ∧ t.history.Until 0 ∧
      t.history.engine.nextId = 1 ∧ t.history.late 0 = [] ∧ (t.ways 0).sender = {} ∧
      (t.ways 0).inlet.taken ≤ (t.ways 0).inlet.written := by
  obtain ⟨t, read, free, begun, sender, sound⟩ := probe_read policy
  have allowed : t.Allows (.input 0 (.started 0 (.ok ⟨0, none⟩))) := by
    intro _
    refine ⟨?_, ?_⟩
    · rw [begun]
      exact List.not_mem_nil
    · rw [Honest, sender]
  have up := read.step allowed
  have silent : sends (t.history.engine.step 0 (.started 0 (.ok ⟨0, none⟩))).effects = [] := by
    rw [begun]
    rfl
  rw [step_input free, answer, silent, begun] at up
  have until_boot : (History.boot policy).Until 0 := ⟨.nil, List.forall_mem_nil _⟩
  exact ⟨_, up, free, ⟨rfl, rfl, rfl, rfl⟩, until_boot.input le_rfl _, rfl, rfl, sender, sound⟩

/-! ## The backlog -/

/-- The way to the worker is jammed, and the given number of requests wait behind the jam. Nobody
wants an answer to them any more. -/
structure Backlog (policy : RestartPolicy) (w : WorkerId) (n : Nat) (t : Traffic) : Prop where
  reached : Reachable policy t
  free : t.held = none
  rests : t.history.engine.Rests w
  timely : ∃ now, t.history.Until now
  jammed : (t.ways w).Jammed
  waiting : (t.ways w).sender.outbox.length = n
  late : (t.history.late w).length = n + 1

/-- A request that is longer than the pipe jams the way. -/
theorem Backlog.begins (policy : RestartPolicy) : ∃ t, Backlog policy 0 0 t := by
  obtain ⟨t, reached, free, rests, timely, nextId, late, sender, sound⟩ := onset policy
  obtain ⟨t', reached', free', rests', timely', way, late'⟩ := round reached free rests timely
    (by rw [sender]; decide) (by rw [sender]; decide) (.lengthy Link.pipeCapacity) 3
  obtain ⟨long, within⟩ := Request.bodySize_lengthy
  have first : (t.hasty (.lengthy Link.pipeCapacity)).id = ⟨1⟩ := congrArg JobId.mk nextId
  rw [first] at way
  have next : ((t.ways 0).put
      (.message ((Request.lengthy Link.pipeCapacity).message ⟨1⟩))).sender.outbox =
      [.message ((Request.lengthy Link.pipeCapacity).message ⟨1⟩)] := by
    rw [Way.put, sender]
    rfl
  obtain ⟨jammed, outbox⟩ :=
    Way.write_jams (congrArg (·.writer) sender) next sound long within 0
  rw [← way] at jammed outbox
  refine ⟨t', reached', free', rests', ⟨_, timely'⟩, jammed, ?_, ?_⟩
  · rw [outbox]
    rfl
  · rw [late', late]
    rfl

/-- One more job that nobody answers. -/
theorem Backlog.grows {n : Nat} (backlog : Backlog policy w n t) (room : n < Link.outboxCapacity) :
    ∃ t', Backlog policy w (n + 1) t' := by
  have space : (t.ways w).sender.hasRoom := by
    rw [Sender.hasRoom, backlog.waiting, decide_eq_true room]
  obtain ⟨now, until_now⟩ := backlog.timely
  obtain ⟨t', reached, free, rests, timely, way, late⟩ := round backlog.reached backlog.free
    backlog.rests until_now backlog.jammed.writer_ne_ended space .version 1
  -- The writer does not come to the new request.
  have jammed := backlog.jammed.put (.message (Request.version.message (t.hasty .version).id))
  rw [jammed.write] at way
  rw [← way] at jammed
  refine ⟨t', reached, free, rests, ⟨_, timely⟩, jammed, ?_, ?_⟩
  · rw [way]
    simp [Way.put, Sender.put, backlog.waiting]
  · rw [late, backlog.late]

theorem Backlog.exists_of_le (policy : RestartPolicy) {n : Nat} (le : n ≤ Link.outboxCapacity) :
    ∃ t, Backlog policy 0 n t := by
  induction n with
  | zero => exact Backlog.begins policy
  | succ n ih =>
    obtain ⟨t, backlog⟩ := ih (Nat.le_of_succ_le le)
    exact backlog.grows le

/-- Behind a full backlog the next job makes the engine wait. -/
theorem Backlog.suspends (backlog : Backlog policy w Link.outboxCapacity t) :
    ∃ t' s, Reachable policy t' ∧ t'.history.times.Pairwise (· ≤ ·) ∧ t'.Suspended s ∧
      (t'.ways s.worker).sender.outbox.length = Link.outboxCapacity ∧
      (t'.history.late s.worker).length = Link.outboxCapacity + 1 := by
  have full : (t.ways w).sender.hasRoom = false := by
    rw [Sender.hasRoom, backlog.waiting]
    decide
  obtain ⟨now, until_now⟩ := backlog.timely
  obtain ⟨h, -, same, timely, next⟩ :=
    submit_hasty backlog.reached backlog.free backlog.rests until_now .version
  rw [handOver_full backlog.jammed full] at next
  refine ⟨_, _, next, timely.1, ⟨rfl, backlog.jammed, full⟩, backlog.waiting, ?_⟩
  exact (congrArg List.length same).trans backlog.late

/-- **The engine waits behind jobs that ran out of time.** What a dispatch finds before it in the
    outbox are requests of jobs of this worker that have run out of time, so that the engine goes on
    while there are fewer of them than the outbox holds. There is no other bound: under every policy
    a run in which time goes forward leads to an outbox that is full of them, and then neither time
    nor any command lets the engine do anything until the worker reads or is gone. -/
theorem engine_waits_behind_late_jobs (policy : RestartPolicy) :
    (∀ t, Reachable policy t → t.held = none →
      ∀ now input, t.Allows (.input now input) →
        (∀ s ∈ sends (t.history.engine.step now input).effects,
          (t.ways s.worker).sender.outbox.length ≤
            ((t.history.extend (.input now input)).late s.worker).length) ∧
        ((∀ w, ((t.history.extend (.input now input)).late w).length < Link.outboxCapacity) →
          (t.step (.input now input)).held = none)) ∧
    ∃ t s, Reachable policy t ∧ t.history.times.Pairwise (· ≤ ·) ∧ t.held = some s ∧
      (t.ways s.worker).sender.outbox.length = Link.outboxCapacity ∧
      (t.history.late s.worker).length = Link.outboxCapacity + 1 ∧
      ∀ ms : List Motion, (∀ m ∈ ms, m.relieves s.worker = false) →
        (ms.foldl step t).held = some s ∧
          (ms.foldl step t).history.effects = t.history.effects := by
  constructor
  · intro t reached free now input allowed
    refine ⟨fun s hs => outbox_le_late reached free allowed hs, fun few => ?_⟩
    rw [step_input free]
    exact answer_free reached free allowed few
  · obtain ⟨t, backlog⟩ := Backlog.exists_of_le policy (Nat.le_refl Link.outboxCapacity)
    obtain ⟨t', s, reached, timely, suspended, waiting, late⟩ := backlog.suspends
    refine ⟨t', s, reached, timely, suspended.held, waiting, late, fun ms unrelieved => ?_⟩
    obtain ⟨still, silent⟩ := suspended.run unrelieved
    exact ⟨still.held, silent⟩

theorem restart_waits_behind_late_jobs :
    ((boot {}).step (.input 0 .deadline)).held = none ∧
      ∃ t s, Reachable {} t ∧ t.held = some s ∧
        (t.step (.input 0 (.command .restart))).history.effects = t.history.effects := by
  obtain ⟨bounded, t, s, reached, -, held, -, -, stuck⟩ := engine_waits_behind_late_jobs {}
  constructor
  · refine (bounded (boot {}) .boot rfl 0 .deadline fun _ => ⟨trivial, trivial⟩).2 fun w => ?_
    exact (by decide : 0 < Link.outboxCapacity)
  · have unanswered := stuck [.input 0 (.command .restart)] (by simp [Motion.relieves])
    exact ⟨t, s, reached, held, unanswered.2⟩

end Traffic

/-! ## The engine in its world -/

namespace World

/-- The way to a worker. -/
def way (w : World) (k : WorkerId) : Way :=
  ⟨(w.line k).sender, (w.line k).inlet⟩

theorem way_setLine {w : World} {k : WorkerId} (known : k < w.lines.size) (l : Line) :
    (w.setLine k l).way k = ⟨l.sender, l.inlet⟩ := by
  simp [way, line, setLine, known]

@[simp] theorem way_wake (a : Agent) (w : World) (k : WorkerId) : (w.wake a).way k = w.way k := by
  rw [wake]
  split <;> rfl

@[simp] theorem way_wakeSenders (k' : WorkerId) (w : World) (k : WorkerId) :
    (w.wakeSenders k').way k = w.way k := by
  refine wakeSenders_induction (P := fun v => v.way k = w.way k) (fun v a same => ?_) k' rfl
  rw [way_wake, same]

/-- In the world the engine hands over as in the traffic, and waits when it does there. -/
theorem perform_send {w : World} {t : Traffic} {s : Sent} (known : s.worker < w.lines.size)
    (same : t.ways s.worker = w.way s.worker) :
    (w.perform (.send s.worker s.id s.request) = none ∧ (t.handOver s).held = some s) ∨
    ∃ w', w.perform (.send s.worker s.id s.request) = some w' ∧ (t.handOver s).held = none ∧
      w'.way s.worker = (t.handOver s).ways s.worker := by
  rw [perform, Traffic.handOver, same, way]
  dsimp only
  split
  · exact Or.inr ⟨_, rfl, rfl, same.symm⟩
  · split
    · refine Or.inr ⟨_, rfl, rfl, ?_⟩
      rw [post]
      dsimp only
      rw [Function.update_self]
      split
      · rw [way_wake, way_setLine known]
        rfl
      · rw [way_setLine known]
        rfl
    · exact Or.inl ⟨rfl, rfl⟩

/-- So does the writer, as long as it goes on. -/
theorem writerTurn_way {w : World} {k : WorkerId} {sender : Sender} {inlet : Inlet}
    (known : k < w.lines.size) (alive : (w.line k).sender.writer ≠ .ended)
    (kept : (w.line k).isReleased = false)
    (run : (w.line k).sender.run (w.line k).server.hasExited turnFuel (w.line k).inlet =
      (.waiting, sender, inlet)) :
    (w.writerTurn k).way k = (w.way k).write (w.line k).server.hasExited turnFuel := by
  have written : (w.way k).write (w.line k).server.hasExited turnFuel = ⟨sender, inlet⟩ := by
    rw [Way.write, way]
    dsimp only
    rw [run]
  rw [writerTurn]
  dsimp only
  rw [if_neg alive, if_neg (by simp [kept]), run, written]
  dsimp only
  -- Waking changes no way.
  split <;> split <;> simp only [way_wake, way_wakeSenders, way_setLine known]

/-- An engine that waits does nothing in its turns, and time does not wake it. -/
theorem engineTurn_waits {w : World} {k : WorkerId} {id : JobId} {r : Request} {rest : List Effect}
    (booted : w.isBooted) (unawaited : w.awaited = none) (todo : w.todo = .send k id r :: rest)
    (alive : (w.line k).sender.writer ≠ .ended) (full : (w.line k).sender.hasRoom = false) :
    w.engineTurn = w ∧ w.engineTimers = [] := by
  have waits : ∀ w' : World, w'.lines = w.lines → w'.perform (.send k id r) = none := by
    intro w' same
    have line : w'.line k = w.line k := by rw [World.line, World.line, same]
    rw [perform, line, if_neg alive, if_neg (by simp [full])]
  constructor
  · obtain ⟨fuel, hfuel⟩ : ∃ fuel, turnFuel = fuel + 1 := ⟨_, rfl⟩
    rw [engineTurn, if_pos booted, ite_eq_left_iff]
    intro _
    rw [hfuel, engineOn, unawaited, todo]
    dsimp only
    rw [waits]
    rfl
  · rw [engineTimers, todo]
    simp

end World

end WorkerBridge
