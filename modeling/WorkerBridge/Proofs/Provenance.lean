/-
  WorkerBridge.Proofs.Provenance

  Where the jobs that the engine holds come from.

  A turn moves jobs, but makes none up: what waits after it has waited before or
  was taken on in it, and what is in flight was in flight before or was sent to
  the worker in it. Jobs that callers submit and jobs that the engine replays never
  share an identity, because both draw theirs from one source, and no two jobs are
  waited for under one ticket.
-/
import Mathlib.Data.List.Nodup
import WorkerBridge.Proofs.Accounts

namespace WorkerBridge

/-- The flight once its caller has been told that the job was cancelled. -/
def Flight.disowned (f : Flight) : Flight :=
  { f with cancelled := true, job := f.job.told }

namespace Engine

/-! ## Replayed jobs -/

theorem issueJobs_ids (e : Engine) (requests : List Request) :
    (e.issueJobs requests).1.map (·.id) =
      (List.range' 0 requests.length).map fun i => ⟨e.nextId + i⟩ := by
  rw [← List.zipIdx_map_snd 0 requests, List.map_map]
  simp only [issueJobs, List.map_map]
  rfl

theorem issueJobs_fresh {e : Engine} {requests : List Request} {j : Job}
    (h : j ∈ (e.issueJobs requests).1) :
    e.nextId ≤ j.id.number ∧ j.id.number < e.nextId + requests.length ∧ j.waiter = none := by
  obtain ⟨⟨r, i⟩, hri, rfl⟩ := List.mem_map.1 h
  have hi := List.snd_lt_of_mem_zipIdx hri
  exact ⟨Nat.le_add_right .., Nat.add_lt_add_left hi _, rfl⟩

/-- Replayed jobs have identities that nobody has yet, and nobody waits for them. -/
theorem replayed_fresh {e : Engine} {j : Job} (h : j ∈ e.replayed) :
    e.nextId ≤ j.id.number ∧ j.id.number < e.nextId + e.replayed.length ∧ j.waiter = none := by
  unfold replayed at h ⊢
  split at h
  · next on =>
    rw [if_pos on]
    have hlength : (e.issueJobs e.documents.replay).1.length = e.documents.replay.length := by
      simp [issueJobs]
    rw [hlength]
    exact issueJobs_fresh h
  · cases h

theorem replayed_nodup (e : Engine) : (e.replayed.map (·.id)).Nodup := by
  unfold replayed
  split
  · rw [issueJobs_ids]
    refine List.Nodup.map ?_ List.nodup_range'
    intro a b hab
    have hnumber : e.nextId + a = e.nextId + b := congrArg JobId.number hab
    omega
  · exact List.nodup_nil

/-! ## Identities are used up, never returned -/

theorem dispatch_nextId (now : Nat) {e : Engine} (up : e.lifecycle.isUp → e.worker.isSome) :
    (dispatch now e).state.nextId = e.nextId := by
  obtain ⟨_, _, _, _, -, hstate⟩ := dispatch_frame now up
  rw [hstate]

theorem scheduleRestart_nextId (now : Nat) (e : Engine) :
    (scheduleRestart now e).state.nextId = e.nextId := by
  obtain ⟨_, _, _, _, hstate⟩ := scheduleRestart_frame now e
  rw [hstate]

theorem submit_nextId (now : Nat) (job : Job) {e : Engine}
    (up : e.lifecycle.isUp → e.worker.isSome) : (submit now job e).state.nextId = e.nextId := by
  rcases submit_cases now job e with ⟨-, heq⟩ | ⟨-, heq⟩
  · rw [heq]
    rfl
  · rw [heq]
    exact dispatch_nextId now up

theorem cancel_nextId (id : JobId) (e : Engine) : (cancel id e).state.nextId = e.nextId := by
  obtain ⟨_, _, hstate⟩ := cancel_frame id e
  rw [hstate]

theorem receive_nextId (incoming : Incoming) (e : Engine) :
    (receive incoming e).state.nextId = e.nextId := by
  obtain ⟨_, _, _, -, hstate⟩ := receive_frame incoming e
  rw [hstate]

/-- The next identity only grows, past those of the replayed jobs if there are any. -/
theorem Reacts.nextId_le {now : Nat} {e : Engine} {input : Input} {t : Turn}
    (r : Reacts now e input t) (h : e.Consistent) : e.nextId ≤ t.state.nextId := by
  cases r with
  | ignored | shown => exact Nat.le_refl _
  | submitted job => exact Nat.le_of_eq (submit_nextId now job h.up).symm
  | cancelled id => exact Nat.le_of_eq (cancel_nextId id e).symm
  | restarted =>
    rw [restart_state]
    exact Nat.le_add_right ..
  | shutDown caller =>
    rw [shutdown_state]
    exact Nat.le_add_right ..
  | heard incoming =>
    have hdispatch := dispatch_nextId now (receive_unsettled incoming h).up
    exact Nat.le_of_eq (hdispatch.trans (receive_nextId incoming e)).symm
  | lost reason =>
    simp [crash_state, scheduleRestart_nextId]
  | expired =>
    have hdispatch : (dispatch now (e.expired now)).state.nextId = e.nextId :=
      dispatch_nextId now h.up
    exact Nat.le_of_eq hdispatch.symm
  | due =>
    simp
  | started result =>
    cases result with
    | ok started =>
      rw [onStarted_ok, Turn.andThen_state, dispatch_nextId now fun _ => rfl]
      exact Nat.le_add_right ..
    | error fault =>
      simp [onStarted_error, scheduleRestart_nextId]

theorem admits_started_ok (e : Engine) (start : StartId) (started : Started) :
    e.admits (.started start (.ok started)) = [] ∨
      e.admits (.started start (.ok started)) = e.replayed := by
  cases alive : e.hasEnded <;> by_cases pending : e.startup = some start <;>
    simp [admits, replayed, alive, pending]

theorem Reacts.replayed_lt {now : Nat} {e : Engine} {start : StartId} {started : Started}
    {t : Turn} (r : Reacts now e (.started start (.ok started)) t) {j : Job}
    (hj : j ∈ e.admits (.started start (.ok started))) :
    j ∈ e.replayed ∧ j.id.number < t.state.nextId := by
  cases r with
  | ignored hi =>
    rw [admits_of_ignores hi] at hj
    cases hj
  | started _ alive pending =>
    rw [admits_started alive pending] at hj
    refine ⟨hj, ?_⟩
    rw [onStarted_ok, Turn.andThen_state, dispatch_nextId now fun _ => rfl]
    exact (replayed_fresh hj).2.1

/-! ## What waits -/

theorem dispatch_queue {now : Nat} {e : Engine} {j : Job}
    (hj : j ∈ (dispatch now e).state.queue.jobs) (up : e.lifecycle.isUp → e.worker.isSome) :
    j ∈ e.queue.jobs := by
  rcases dispatch_cases now e up with
    ⟨-, heq⟩ | ⟨-, -, -, heq⟩ | ⟨w, job, rest, -, -, -, hq, hstate, -⟩
  · rwa [heq] at hj
  · rwa [heq, setState_state] at hj
  · rw [hstate] at hj
    rw [hq]
    exact List.mem_cons_of_mem _ hj

theorem scheduleRestart_queue {now : Nat} {e : Engine} {j : Job}
    (hj : j ∈ (scheduleRestart now e).state.queue.jobs) : j ∈ e.queue.jobs := by
  rcases scheduleRestart_cases now e with ⟨-, hstate, -⟩ | ⟨-, hstate, -⟩
  · rwa [hstate] at hj
  · rw [hstate] at hj
    cases hj

theorem receive_queue (incoming : Incoming) (e : Engine) :
    (receive incoming e).state.queue = e.queue := by
  obtain ⟨_, _, _, -, hstate⟩ := receive_frame incoming e
  rw [hstate]

/-- A job that waits has waited before, or was taken on now. -/
theorem Reacts.queue_mem {now : Nat} {e : Engine} {input : Input} {t : Turn}
    (r : Reacts now e input t) (h : e.Consistent) {j : Job} (hj : j ∈ t.state.queue.jobs) :
    j ∈ e.queue.jobs ∨ j ∈ e.admits input := by
  cases r with
  | ignored | shown => exact Or.inl hj
  | submitted job alive =>
    rw [admits_submit alive]
    rcases submit_cases now job e with ⟨-, heq⟩ | ⟨-, heq⟩
    · rw [heq] at hj
      exact Or.inl hj
    · -- The job stands behind all others when the dispatch begins.
      rw [heq, Turn.andThen_state] at hj
      exact List.mem_append.1 (dispatch_queue hj h.up)
  | cancelled id =>
    rcases cancel_cases id e with ⟨before, job, after, hq, -, heq⟩ | ⟨-, heq⟩
    · rw [heq] at hj
      left
      rw [hq]
      exact List.mem_append.2 ((List.mem_append.1 hj).imp_right (List.mem_cons_of_mem _))
    · rw [heq] at hj
      exact Or.inl hj
  | restarted =>
    rw [restart_state] at hj
    exact Or.inl hj
  | shutDown caller =>
    rw [shutdown_state] at hj
    cases hj
  | heard incoming =>
    have hreceived := dispatch_queue hj (receive_unsettled incoming h).up
    rw [receive_queue] at hreceived
    exact Or.inl hreceived
  | lost reason =>
    rw [crash_state] at hj
    cases scheduleRestart_queue hj
  | expired =>
    rw [onDeadline_eq, Turn.andThen_state] at hj
    have waited := dispatch_queue hj h.up
    exact Or.inl waited
  | due =>
    rw [beginStart_state] at hj
    exact Or.inl hj
  | started result alive pending =>
    rw [admits_started alive pending]
    cases result with
    | ok started =>
      rw [onStarted_ok, Turn.andThen_state] at hj
      exact (List.mem_append.1 (dispatch_queue hj fun _ => rfl)).symm
    | error fault =>
      rw [onStarted_error] at hj
      cases scheduleRestart_queue hj

/-! ## What is in flight -/

/-- The flight was begun in this turn: one of the jobs was handed to the worker. -/
def Begun (now : Nat) (jobs : List Job) (t : Turn) (f : Flight) : Prop :=
  ∃ j ∈ jobs, ∃ w, f = j.flight now ∧ t.state.worker = some w ∧
    .send w j.id j.request ∈ t.effects

/-- The flight goes on: its worker is the same, and no frame has named its job. -/
def Continued (e : Engine) (input : Input) (t : Turn) (f : Flight) : Prop :=
  ∃ g ∈ e.flights.live, (f = g ∨ f = g.disowned) ∧ t.state.worker = e.worker ∧
    ¬ e.Hears input g.job.id

theorem dispatch_live {now : Nat} {e : Engine} {f : Flight}
    (hf : f ∈ (dispatch now e).state.flights.live) (up : e.lifecycle.isUp → e.worker.isSome) :
    (f ∈ e.flights.live ∧ (dispatch now e).state.worker = e.worker) ∨
      Begun now e.queue.jobs (dispatch now e) f := by
  rcases dispatch_cases now e up with
    ⟨-, heq⟩ | ⟨-, -, -, heq⟩ | ⟨w, job, rest, -, -, hw, hq, hstate, heffects⟩
  · rw [heq] at hf ⊢
    exact Or.inl ⟨hf, rfl⟩
  · rw [heq, setState_state] at hf
    rw [heq, setState_state]
    exact Or.inl ⟨hf, rfl⟩
  · rw [hstate] at hf
    refine Or.inr ⟨job, by simp [hq], w, List.mem_singleton.1 hf, ?_, ?_⟩
    · rw [hstate]
      exact hw
    · rw [heffects]
      simp

theorem scheduleRestart_live (now : Nat) (e : Engine) :
    (scheduleRestart now e).state.flights = e.flights := by
  obtain ⟨_, _, _, _, hstate⟩ := scheduleRestart_frame now e
  rw [hstate]

/-- A flight that a frame leaves behind is not the one that it names. -/
theorem receive_live {incoming : Incoming} {e : Engine} (h : e.Consistent) {f : Flight}
    (hf : f ∈ (receive incoming e).state.flights.live) :
    f ∈ e.flights.live ∧ incoming.names? ≠ some f.job.id := by
  rcases receive_cases incoming e with
    ⟨g, hg, -, events, documents, failedRestarts, -, -, heq⟩ |
    ⟨strange, events, documents, failedRestarts, abandoned, -, -, heq⟩
  · -- The job that the frame names was the only one in flight.
    rw [heq] at hf
    simp [h.live_eq_of_mem hg] at hf
  · rw [heq] at hf
    exact ⟨hf, strange f hf⟩

/-- A turn that ends in a dispatch begins flights there, with whatever stands before it. -/
theorem Begun.andThen {now : Nat} {jobs : List Job} {t : Turn} {f : Engine → Turn}
    {flight : Flight} (h : Begun now jobs (f t.state) flight) :
    Begun now jobs (t.andThen f) flight := by
  obtain ⟨j, hj, w, hflight, hw, hsend⟩ := h
  exact ⟨j, hj, w, hflight, hw, List.mem_append_right _ hsend⟩

/-- A job in flight has been in flight before, under the same worker and not named by any frame
    since, or it was handed to the worker in this turn. -/
theorem Reacts.live_mem {now : Nat} {e : Engine} {input : Input} {t : Turn}
    (r : Reacts now e input t) (h : e.Consistent) {f : Flight}
    (hf : f ∈ t.state.flights.live) :
    Continued e input t f ∨ Begun now (e.queue.jobs ++ e.admits input) t f := by
  cases r with
  | ignored hi =>
    refine Or.inl ⟨f, hf, Or.inl rfl, rfl, ?_⟩
    cases input with
    | frame w incoming =>
      rcases hi with stopped | strange
      · have nobody := h.no_worker (by simp [stopped]) (by simp [stopped])
        simp [Hears, nobody]
      · simp [Hears, strange]
    | _ => exact id
  | shown caller => exact Or.inl ⟨f, hf, Or.inl rfl, rfl, id⟩
  | submitted job alive =>
    rw [admits_submit alive]
    rcases submit_cases now job e with ⟨-, heq⟩ | ⟨-, heq⟩
    · rw [heq] at hf ⊢
      exact Or.inl ⟨f, hf, Or.inl rfl, rfl, id⟩
    · rw [heq, Turn.andThen_state] at hf
      rw [heq]
      rcases dispatch_live hf h.up with ⟨hold, hworker⟩ | begun
      · exact Or.inl ⟨f, hold, Or.inl rfl, hworker, id⟩
      · exact Or.inr begun.andThen
  | cancelled id =>
    rcases cancel_cases id e with ⟨before, job, after, -, -, heq⟩ | ⟨-, heq⟩
    · rw [heq] at hf ⊢
      exact Or.inl ⟨f, hf, Or.inl rfl, rfl, fun heard => heard⟩
    · rw [heq] at hf ⊢
      obtain ⟨g, hg, rfl⟩ := List.mem_map.1 hf
      refine Or.inl ⟨g, hg, ?_, rfl, fun heard => heard⟩
      -- The flight that is cancelled goes on without its caller.
      split
      · exact Or.inr rfl
      · exact Or.inl rfl
  | restarted =>
    rw [restart_state] at hf
    cases hf
  | shutDown caller =>
    rw [shutdown_state] at hf
    cases hf
  | @heard w incoming alive current =>
    rcases dispatch_live hf (receive_unsettled incoming h).up with ⟨hold, hworker⟩ | begun
    · obtain ⟨hlive, unnamed⟩ := receive_live h hold
      refine Or.inl ⟨f, hlive, Or.inl rfl, ?_, fun heard => unnamed heard.2⟩
      exact hworker.trans (receive_worker incoming e)
    · rw [receive_queue] at begun
      obtain ⟨j, hj, rest⟩ := begun.andThen
      exact Or.inr ⟨j, List.mem_append_left _ hj, rest⟩
  | lost reason =>
    rw [crash_state, scheduleRestart_live] at hf
    cases hf
  | expired =>
    rw [onDeadline_eq, Turn.andThen_state] at hf
    rw [onDeadline_eq]
    rcases dispatch_live hf h.up with ⟨hold, hworker⟩ | begun
    · exact Or.inl ⟨f, (List.mem_filter.1 hold).1, Or.inl rfl, hworker, id⟩
    · obtain ⟨j, hj, rest⟩ := begun.andThen
      exact Or.inr ⟨j, List.mem_append_left _ hj, rest⟩
  | due =>
    rw [beginStart_state] at hf
    refine Or.inl ⟨f, hf, Or.inl rfl, ?_, id⟩
    rw [beginStart_state]
  | started result alive pending =>
    -- Nothing is in flight during a start, so a flight after it was begun in this turn.
    have starting := h.startup.1 (by simp [pending])
    have nothing := h.live_eq_nil (by simp [starting])
    rw [admits_started alive pending]
    cases result with
    | ok started =>
      rw [onStarted_ok, Turn.andThen_state] at hf
      rw [onStarted_ok]
      rcases dispatch_live hf fun _ => rfl with ⟨hold, -⟩ | begun
      · simp [welcome, nothing] at hold
      · obtain ⟨j, hj, rest⟩ := begun.andThen
        exact Or.inr ⟨j, List.mem_append.2 (List.mem_append.1 hj).symm, rest⟩
    | error fault =>
      rw [onStarted_error, Turn.andThen_state, scheduleRestart_live] at hf
      simp [nothing] at hf

end Engine

namespace History

/-! ## Identities and tickets in a run -/

/-- Everybody who takes an identity takes another one, and so for tickets. -/
structure Orderly (h : History) : Prop where
  /-- Identities that callers drew are behind the next one. -/
  drawn_lt : ∀ id ∈ h.drawn, id.number < h.engine.nextId
  /-- So are those of all jobs. -/
  admitted_lt : ∀ j ∈ h.admitted, j.id.number < h.engine.nextId
  /-- A drawn identity that a job has was submitted with it. -/
  spent : ∀ j ∈ h.admitted, j.id ∈ h.drawn → j.id ∈ h.submitted.map (·.id)
  /-- No two jobs share an identity. -/
  ids : (h.admitted.map (·.id)).Nodup
  /-- Whoever waits holds a ticket. -/
  known : ∀ j ∈ h.admitted, ∀ t ∈ j.waiter, t ∈ h.tickets
  /-- No two jobs are waited for under one ticket. -/
  waiters : (h.admitted.filterMap (·.waiter)).Nodup

theorem orderly_boot (policy : RestartPolicy) : (boot policy).Orderly := by
  constructor <;> simp [boot, drawn, admitted]

theorem Orderly.draw {h : History} (ho : h.Orderly) : (h.extend .draw).Orderly := by
  have hnext : (h.extend .draw).engine.nextId = h.engine.nextId + 1 := rfl
  have hadmitted : (h.extend .draw).admitted = h.admitted := by simp [Moment.admitted]
  have hsubmitted : (h.extend .draw).submitted = h.submitted := by
    simp [submitted_extend, Moment.submitted?]
  have hdrawn : (h.extend .draw).drawn = h.drawn ++ [⟨h.engine.nextId⟩] := by
    simp [drawn_extend, Moment.drawn?, Engine.issueId]
  refine ⟨?_, ?_, ?_, ?_, ?_, ?_⟩
  · intro id hid
    rw [hdrawn, List.mem_append, List.mem_singleton] at hid
    rw [hnext]
    rcases hid with hid | rfl
    · exact Nat.lt_succ_of_lt (ho.drawn_lt id hid)
    · exact Nat.lt_succ_self _
  · intro j hj
    rw [hadmitted] at hj
    rw [hnext]
    exact Nat.lt_succ_of_lt (ho.admitted_lt j hj)
  · intro j hj hid
    rw [hadmitted] at hj
    rw [hdrawn, List.mem_append, List.mem_singleton] at hid
    rw [hsubmitted]
    rcases hid with hid | hid
    · exact ho.spent j hj hid
    · -- The identity that is drawn now is that of no job yet.
      have := ho.admitted_lt j hj
      rw [hid] at this
      exact absurd this (Nat.lt_irrefl _)
  · rw [hadmitted]
    exact ho.ids
  · rw [hadmitted, tickets, hsubmitted]
    exact ho.known
  · rw [hadmitted]
    exact ho.waiters

/-- The step of the invariant for inputs: what has to be known of the jobs that are taken on. -/
theorem Orderly.admit {h : History} (ho : h.Orderly) {now : Nat} {input : Input}
    (grows : h.engine.nextId ≤ (h.engine.step now input).state.nextId)
    (below : ∀ j ∈ h.engine.admits input,
      j.id.number < (h.engine.step now input).state.nextId)
    (spent : ∀ j ∈ h.engine.admits input, j.id ∈ h.drawn →
      j.id ∈ (h.extend (.input now input)).submitted.map (·.id))
    (fresh : ∀ j ∈ h.engine.admits input, j.id ∉ h.admitted.map (·.id))
    (ids : ((h.engine.admits input).map (·.id)).Nodup)
    (known : ∀ j ∈ h.engine.admits input, ∀ t ∈ j.waiter,
      t ∈ (h.extend (.input now input)).tickets ∧ t ∉ h.tickets)
    (waiters : ((h.engine.admits input).filterMap (·.waiter)).Nodup) :
    (h.extend (.input now input)).Orderly := by
  have hdrawn : (h.extend (.input now input)).drawn = h.drawn := by
    simp [drawn_extend, Moment.drawn?]
  have hadmitted : (h.extend (.input now input)).admitted =
      h.admitted ++ h.engine.admits input := admitted_extend ..
  have hsubmitted : ∀ j ∈ h.submitted, j ∈ (h.extend (.input now input)).submitted := by
    intro j hj
    rw [submitted_extend]
    exact List.mem_append_left _ hj
  refine ⟨?_, ?_, ?_, ?_, ?_, ?_⟩
  · intro id hid
    rw [hdrawn] at hid
    exact Nat.lt_of_lt_of_le (ho.drawn_lt id hid) grows
  · intro j hj
    rw [hadmitted, List.mem_append] at hj
    rcases hj with hj | hj
    · exact Nat.lt_of_lt_of_le (ho.admitted_lt j hj) grows
    · exact below j hj
  · intro j hj hid
    rw [hadmitted, List.mem_append] at hj
    rw [hdrawn] at hid
    rcases hj with hj | hj
    · obtain ⟨k, hk, hid⟩ := List.mem_map.1 (ho.spent j hj hid)
      exact List.mem_map.2 ⟨k, hsubmitted k hk, hid⟩
    · exact spent j hj hid
  · rw [hadmitted, List.map_append, List.nodup_append]
    refine ⟨ho.ids, ids, ?_⟩
    rintro a ha b hb rfl
    obtain ⟨j, hj, rfl⟩ := List.mem_map.1 hb
    exact fresh j hj ha
  · intro j hj t ht
    rw [hadmitted, List.mem_append] at hj
    rcases hj with hj | hj
    · obtain ⟨k, hk, hkt⟩ := List.mem_filterMap.1 (ho.known j hj t ht)
      exact List.mem_filterMap.2 ⟨k, hsubmitted k hk, hkt⟩
    · exact (known j hj t ht).1
  · rw [hadmitted, List.filterMap_append, List.nodup_append]
    refine ⟨ho.waiters, waiters, ?_⟩
    rintro a ha b hb rfl
    obtain ⟨j, hj, hja⟩ := List.mem_filterMap.1 ha
    obtain ⟨k, hk, hka⟩ := List.mem_filterMap.1 hb
    exact (known k hk a hka).2 (ho.known j hj a hja)

theorem Orderly.admit_none {h : History} (ho : h.Orderly) {now : Nat} {input : Input}
    (grows : h.engine.nextId ≤ (h.engine.step now input).state.nextId)
    (none : h.engine.admits input = []) : (h.extend (.input now input)).Orderly := by
  apply ho.admit grows <;> simp [none]

theorem Orderly.submit {h : History} (ho : h.Orderly) {now : Nat} {job : Job}
    (grows : h.engine.nextId ≤ (h.engine.step now (.command (.submit job))).state.nextId)
    (allowed : h.Allows (.input now (.command (.submit job)))) :
    (h.extend (.input now (.command (.submit job)))).Orderly := by
  obtain ⟨hdrawn, hunused, hticket⟩ := allowed
  by_cases alive : h.engine.lifecycle = .stopped
  · exact ho.admit_none grows (by simp [Engine.admits, Engine.hasEnded, alive])
  · have hsubmitted :
        (h.extend (.input now (.command (.submit job)))).submitted = h.submitted ++ [job] := by
      simp [submitted_extend, Moment.submitted?]
    have htickets : ∀ t ∈ job.waiter,
        t ∈ (h.extend (.input now (.command (.submit job)))).tickets := by
      intro t ht
      rw [tickets, hsubmitted]
      exact List.mem_filterMap.2 ⟨job, by simp, ht⟩
    have hadmits := Engine.admits_submit alive job
    apply ho.admit grows <;> simp only [hadmits, List.mem_singleton, forall_eq]
    · exact Nat.lt_of_lt_of_le (ho.drawn_lt _ hdrawn) grows
    · intro _
      rw [hsubmitted]
      simp
    · -- The identity was drawn, so a job that already has it was submitted with it.
      intro used
      obtain ⟨k, hk, hid⟩ := List.mem_map.1 used
      exact hunused (hid ▸ ho.spent k hk (hid ▸ hdrawn))
    · simp
    · exact fun t ht => ⟨htickets t ht, hticket t ht⟩
    · cases hw : job.waiter <;> simp [hw]

theorem Orderly.replay {h : History} (ho : h.Orderly) (consistent : h.engine.Consistent)
    {now : Nat} {start : StartId} {started : Started} :
    (h.extend (.input now (.started start (.ok started)))).Orderly := by
  -- All identities so far are below the next one, and those of the replayed jobs are not.
  have reacts := Engine.step_reacts now h.engine (.started start (.ok started))
  have replayed := fun j hj => reacts.replayed_lt (j := j) hj
  have fresh := fun j hj => Engine.replayed_fresh (replayed j hj).1
  apply ho.admit (reacts.nextId_le consistent)
  · exact fun j hj => (replayed j hj).2
  · intro j hj hdrawn
    have := ho.drawn_lt _ hdrawn
    have := (fresh j hj).1
    omega
  · intro j hj used
    obtain ⟨k, hk, hid⟩ := List.mem_map.1 used
    have := ho.admitted_lt k hk
    have := (fresh j hj).1
    rw [← hid] at this
    omega
  · rcases h.engine.admits_started_ok start started with heq | heq
    · rw [heq]
      exact List.nodup_nil
    · rw [heq]
      exact h.engine.replayed_nodup
  · intro j hj t ht
    rw [(fresh j hj).2.2] at ht
    cases ht
  · have nobody : (h.engine.admits (.started start (.ok started))).filterMap (·.waiter) = [] := by
      rw [List.filterMap_eq_nil_iff]
      exact fun j hj => (fresh j hj).2.2
    rw [nobody]
    exact List.nodup_nil

theorem Orderly.extend {h : History} (ho : h.Orderly) (consistent : h.engine.Consistent)
    {o : Occasion} (allowed : h.Allows o) : (h.extend o).Orderly := by
  cases o with
  | draw => exact ho.draw
  | input now input =>
    have grows := (Engine.step_reacts now h.engine input).nextId_le consistent
    cases input with
    | command c =>
      cases c with
      | submit job => exact ho.submit grows allowed
      | _ => exact ho.admit_none grows rfl
    | started start result =>
      cases result with
      | ok started => exact ho.replay consistent
      | error fault => exact ho.admit_none grows rfl
    | _ => exact ho.admit_none grows rfl

theorem lawful_orderly {policy : RestartPolicy} {os : List Occasion} (lawful : Lawful policy os) :
    (run policy os).Orderly := by
  refine (lawful_induction (P := fun h => h.engine.Consistent ∧ h.Orderly) ?_ ?_ lawful).2
  · exact ⟨Engine.boot_consistent policy, orderly_boot policy⟩
  · rintro h o ⟨consistent, orderly⟩ allowed
    exact ⟨Engine.answer_consistent o consistent, orderly.extend consistent allowed⟩

/-- Nothing is owed twice about the jobs that were taken on. -/
theorem Orderly.countP_le {h : History} (ho : h.Orderly) (d : Due) :
    h.admitted.countP (Job.owes d) ≤ 1 := by
  cases d with
  | report id =>
    have hcount := List.nodup_iff_count_le_one.1 ho.ids id
    rwa [List.count, List.countP_map] at hcount
  | answer caller =>
    have hcount := List.nodup_iff_count_le_one.1 ho.waiters caller
    rw [List.count, List.countP_filterMap] at hcount
    rwa [List.countP_congr fun j _ => ?_]
    cases hw : j.waiter <;> simp [Job.owes, hw]

/-- Jobs of one identity, or with one caller, are one job. -/
theorem Orderly.eq_of_owes {h : History} (ho : h.Orderly) {d : Due} {j k : Job}
    (hj : j ∈ h.admitted) (hk : k ∈ h.admitted) (hjd : j.owes d) (hkd : k.owes d) : j = k := by
  have hcount := ho.countP_le d
  rw [List.countP_eq_length_filter] at hcount
  have hj' := List.mem_filter.2 ⟨hj, hjd⟩
  have hk' := List.mem_filter.2 ⟨hk, hkd⟩
  obtain ⟨x, hx⟩ := List.length_eq_one_iff.1
    (Nat.le_antisymm hcount (List.length_pos_of_mem hj'))
  rw [hx, List.mem_singleton] at hj' hk'
  rw [hj', hk']

/-! ## What the engine holds in a run -/

/-- Whatever the engine holds it has taken on. -/
structure Held (h : History) : Prop where
  queue : ∀ j ∈ h.engine.queue.jobs, j ∈ h.admitted
  live : ∀ f ∈ h.engine.flights.live, ∃ j ∈ h.admitted, f.job = j ∨ f.job = j.told

theorem Held.input {h : History} (held : h.Held) (consistent : h.engine.Consistent) (now : Nat)
    (input : Input) : (h.extend (.input now input)).Held := by
  have reacts := Engine.step_reacts now h.engine input
  have hadmitted : (h.extend (.input now input)).admitted =
      h.admitted ++ h.engine.admits input := admitted_extend ..
  have taken : ∀ j ∈ h.engine.queue.jobs ++ h.engine.admits input,
      j ∈ (h.extend (.input now input)).admitted := by
    intro j hj
    rw [hadmitted, List.mem_append]
    exact (List.mem_append.1 hj).imp_left (held.queue j)
  constructor
  · intro j hj
    exact taken j (List.mem_append.2 (reacts.queue_mem consistent hj))
  · intro f hf
    rcases reacts.live_mem consistent hf with ⟨g, hg, same, -, -⟩ | ⟨j, hj, w, rfl, -, -⟩
    · -- Telling the caller of a flight a second time would change nothing in its job.
      obtain ⟨j, hj, hjob⟩ := held.live g hg
      refine ⟨j, hadmitted ▸ List.mem_append_left _ hj, ?_⟩
      rcases same with rfl | rfl
      · exact hjob
      · rcases hjob with hjob | hjob <;> simp [Flight.disowned, hjob, Job.told]
    · exact ⟨j, taken j hj, Or.inl rfl⟩

theorem run_held (policy : RestartPolicy) (os : List Occasion) : (run policy os).Held := by
  refine (run_induction (P := fun h => h.engine.Consistent ∧ h.Held) ?_ ?_ os).2
  · exact ⟨Engine.boot_consistent policy, by simp [boot, Engine.boot],
      by simp [boot, Engine.boot]⟩
  · rintro h o ⟨consistent, held⟩
    refine ⟨Engine.answer_consistent o consistent, ?_⟩
    cases o with
    | draw =>
      have hadmitted : (h.extend .draw).admitted = h.admitted := by simp [Moment.admitted]
      exact ⟨hadmitted ▸ held.queue, hadmitted ▸ held.live⟩
    | input now input => exact held.input consistent now input

end History

end WorkerBridge
