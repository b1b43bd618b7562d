/-
  WorkerBridge.Proofs.Strays

  Frames that nobody waits for.

  A frame that names no job that the engine knows does nothing at all, although
  every frame ends in a dispatch: between two turns a dispatch finds a worker that
  is down or busy, or that has nothing waiting and is ready already
  (`Consistent.dispatch_eq`). A late answer to a job that ran out of time uses up
  the memory of this job. It refills the restart budget, and the reports of a check
  still go to the documents; the queue, the job in flight and the lifecycle are left
  alone.
-/
import WorkerBridge.Proofs.Checks

namespace WorkerBridge

namespace Engine

variable {e : Engine}

/-! ## Dispatches between turns -/

/-- Between two turns there is nothing to dispatch. -/
theorem Consistent.dispatch_eq (h : e.Consistent) (now : Nat) : dispatch now e = e.idle := by
  rcases dispatch_cases now e h.up with
    ⟨-, heq⟩ | ⟨up, idle, -, heq⟩ | ⟨w, job, rest, up, idle, -, hq, -, -⟩
  · exact heq
  · -- The worker is up and has no job in flight, so it is known to be ready.
    have ready : e.lifecycle = .ready := by
      rcases (isUp_iff _).1 up with ready | busy
      · exact ready
      · have one := h.busy.1 busy
        rw [idle] at one
        cases one
    rw [heq, setState, if_pos ready]
  · -- A job that waits for a ready worker has been dispatched.
    have notBusy : e.lifecycle ≠ .busy := by
      intro busy
      have one := h.busy.1 busy
      rw [idle] at one
      cases one
    have ready : e.lifecycle = .ready := ((isUp_iff _).1 up).resolve_right notBusy
    rw [h.vacant (Or.inl ready)] at hq
    cases hq

/-! ## Frames that name nobody in flight -/

/-- A frame that names no job in flight, and none that is remembered, changes nothing. -/
theorem receive_of_unknown {incoming : Incoming}
    (unknown : ∀ id ∈ incoming.names?, e.flights.knows id = false) :
    receive incoming e = e.idle := by
  have unresolved : ∀ id ∈ incoming.names?, (e.flights.resolve id).1 = .unknown :=
    fun id named => (e.flights.resolve_unknown_iff id).2 (unknown id named)
  cases incoming with
  | response id outcome =>
    have hr := unresolved id rfl
    simp only [receive, onResponse]
    split
    · next heq => rw [heq] at hr; cases hr
    · next heq => rw [heq] at hr; cases hr
    · rfl
  | malformed named fault =>
    cases named with
    | none => rfl
    | some id =>
      have hr := unresolved id rfl
      simp only [receive, onMalformed]
      split
      · next heq => rw [heq] at hr; cases hr
      · next heq => rw [heq] at hr; cases hr
      · rfl

end Engine

/-- An answer to a job that is not in flight uses up the first memory of the job. -/
theorem InFlight.resolve_remembered {t : InFlight} {id : JobId} {entry : JobId × JobKind}
    (landed : ∀ f ∈ t.live, f.job.id ≠ id) (found : t.abandoned.find? (·.1 = id) = some entry) :
    t.resolve id =
      (.abandoned entry.2, { t with abandoned := t.abandoned.eraseP (·.1 = id) }) := by
  have nobody : t.find? id = none := List.find?_eq_none.2 fun f hf => by simpa using landed f hf
  simp [InFlight.resolve, nobody, found]

/-- The memory that is used up is taken out, and the others stay in order. -/
theorem InFlight.abandoned_split {t : InFlight} {id : JobId}
    (remembered : id ∈ t.abandoned.map (·.1)) :
    ∃ before kind after, t.abandoned.find? (·.1 = id) = some (id, kind) ∧
      t.abandoned = before ++ (id, kind) :: after ∧
      t.abandoned.eraseP (·.1 = id) = before ++ after := by
  have found : (t.abandoned.find? (·.1 = id)).isSome := by
    rw [List.find?_isSome]
    obtain ⟨entry, hentry, hid⟩ := List.mem_map.1 remembered
    exact ⟨entry, hentry, by simpa using hid⟩
  obtain ⟨⟨id', kind⟩, hentry⟩ := Option.isSome_iff_exists.1 found
  obtain ⟨hid, before, after, hsplit, hbefore⟩ := List.find?_eq_some_iff_append.1 hentry
  obtain rfl : id' = id := by simpa using hid
  refine ⟨before, kind, after, hentry, hsplit, ?_⟩
  have hskip : ∀ entry ∈ before, ¬ decide (entry.1 = id') = true :=
    fun entry h => by simpa using hbefore entry h
  rw [hsplit, List.eraseP_append_right _ hskip]
  exact congrArg (before ++ ·) (List.eraseP_cons_of_pos hid)

/-- Whether the frame is a response, and not one that could not be read. -/
def Incoming.isResponse : Incoming → Bool
  | .response .. => true
  | .malformed .. => false

/-- Only a response to a check brings reports. -/
theorem Incoming.reports?_eq_none {incoming : Incoming} {kind : JobKind}
    (h : kind ≠ .check ∨ incoming.isResponse = false) : incoming.reports? kind = none := by
  cases incoming with
  | malformed => rfl
  | response id outcome =>
    cases outcome with
    | error => rfl
    | ok result =>
      have other : kind ≠ .check := h.resolve_right fun unread => by cases unread
      exact if_neg other

namespace Engine

variable {e : Engine}

/-- The engine once an answer has come to a job of the given kind, with what is left of the
    flights: the reports that it brings are installed, and a response refills the restart budget. -/
def heeding (e : Engine) (incoming : Incoming) (kind : JobKind) (flights : InFlight) : Engine :=
  { e with
    flights
    documents := (e.documents.adopt (incoming.reports? kind)).2
    failedRestarts := if incoming.isResponse then 0 else e.failedRestarts }

/-- An answer to a job that ran out of time. -/
theorem receive_of_remembered {incoming : Incoming} {id : JobId} {entry : JobId × JobKind}
    (named : incoming.names? = some id) (landed : ∀ f ∈ e.flights.live, f.job.id ≠ id)
    (found : e.flights.abandoned.find? (·.1 = id) = some entry) :
    receive incoming e =
      ⟨e.heeding incoming entry.2
          { e.flights with abandoned := e.flights.abandoned.eraseP (·.1 = id) },
        announce (e.documents.adopt (incoming.reports? entry.2)).1⟩ := by
  have hr := InFlight.resolve_remembered landed found
  cases incoming with
  | response id' outcome =>
    obtain rfl : id' = id := Option.some.inj named
    simp only [receive, onResponse, hr]
    by_cases check : entry.2 = .check
    · rw [if_pos check, applyResponse_adopts entry.2 id' outcome]
      rfl
    · have none : (Incoming.response id' outcome).reports? entry.2 = none :=
        Incoming.reports?_eq_none (Or.inl check)
      rw [if_neg check, heeding, none]
      rfl
  | malformed named' fault =>
    obtain rfl : named' = some id := named
    simp only [receive, onMalformed, hr]
    rfl

/-- An answer that leaves the job in flight alone leaves the engine settled. -/
theorem Consistent.heeding (h : e.Consistent) (incoming : Incoming) (kind : JobKind)
    (abandoned : List (JobId × JobKind)) :
    (e.heeding incoming kind { e.flights with abandoned }).Consistent :=
  ⟨h.single, h.busy, h.worker, h.startup, h.timer, h.vacant⟩

/-- A frame that leaves a settled engine behind leads to no dispatch. -/
theorem Consistent.step_frame {w : WorkerId} (h : e.Consistent) (current : e.worker = some w)
    (now : Nat) {incoming : Incoming} {t : Turn} (received : receive incoming e = t)
    (settled : t.state.Consistent) : e.step now (.frame w incoming) = t := by
  have r := step_reacts now e (.frame w incoming)
  generalize e.step now (.frame w incoming) = turn at r ⊢
  cases r with
  | ignored hi =>
    -- The worker is held, so it is up.
    rcases hi with stopped | other
    · have up := h.worker.1 (by simp [current])
      simp [stopped] at up
    · exact absurd current other
  | heard =>
    have nothing : dispatch now t.state = t.state.idle := settled.dispatch_eq now
    rw [onFrame, received, Turn.andThen, nothing]
    simp

end Engine

namespace History

variable {policy : RestartPolicy} {os : List Occasion}

/-! ## Jobs that ran out of time are over -/

/-- A job whose time is up is reported. -/
theorem settled_of_timesOut {m : Moment} (consistent : m.before.Consistent) {id : JobId}
    {kind : JobKind} (out : m.TimesOut id kind) : 0 < settled (.report id) m.effects := by
  obtain ⟨now, ho, f, hf, rfl, -, due⟩ := out
  have busy := consistent.busy_of_live (List.ne_nil_of_mem hf)
  have hturn : m.turn = Engine.onDeadline now m.before := by
    have r := Engine.step_reacts now m.before .deadline
    rw [Moment.turn, ho, Engine.answer]
    generalize m.before.step now .deadline = turn at r ⊢
    cases r with
    | ignored stopped =>
      have stopped : m.before.lifecycle = .stopped := stopped
      rw [busy] at stopped
      cases stopped
    | expired => rfl
  have told : Effect.emit (.finished f.job.id f.job.kind false) ∈ m.effects := by
    rw [Moment.effects, hturn, Engine.onDeadline_eq, Turn.andThen_effects]
    refine List.mem_append_left _ (List.mem_flatMap.2 ⟨f, List.mem_filter.2 ⟨hf, due⟩, ?_⟩)
    exact List.mem_append_right _ (List.mem_singleton_self _)
  exact List.countP_pos_iff.2 ⟨_, told, by simp [Effect.settles]⟩

/-- In a lawful run no job is in flight and remembered. -/
theorem landed_of_remembered (lawful : Lawful policy os) {id : JobId}
    (remembered : id ∈ (run policy os).engine.flights.abandoned.map (·.1)) :
    ∀ f ∈ (run policy os).engine.flights.live, f.job.id ≠ id := by
  rintro f hf rfl
  obtain ⟨entry, hentry, hid⟩ := List.mem_map.1 remembered
  -- When the time of the remembered job was up, the job was reported.
  obtain ⟨m, hm, out⟩ := run_remembered policy os entry hentry
  obtain ⟨before, after, hpast⟩ := List.append_of_mem hm
  have reported := settled_of_timesOut (consistent_of_past hpast) out
  have total : 0 < settled (.report f.job.id) (run policy os).effects := by
    rw [effects, hpast, List.flatMap_append, List.flatMap_cons, settled_append, settled_append,
      ← hid]
    omega
  -- The job in flight is still owed a report, and it is the same job.
  obtain ⟨j, hj, same⟩ := (run_held policy os).live f hf
  have hid : f.job.id = j.id := by
    rcases same with same | same
    · rw [same]
    · rw [same, Job.told]
  have held := held_or_reported lawful hj
  have owed : 0 < (run policy os).engine.owes (.report j.id) :=
    Engine.owes_pos.2 (Or.inr ⟨f, hf, by simp [Job.owes, hid]⟩)
  rw [hid] at total
  omega

/-! ## Stray and late frames -/

/-- **Stray frames do nothing.** Take the state after any run with a worker, and a frame of this
    worker. If the frame names no job, or one that is neither in flight nor remembered, then the
    state stays as it is and nothing is done. If, in a lawful run, it names a job that ran out of
    time and is remembered, then this memory is used up, the budget is refilled if the frame is a
    response, and the reports of a check are installed and shown. All else is left as it is: the
    queue, the job in flight, the lifecycle, the worker and the timers. -/
theorem stray_frames_do_nothing (policy : RestartPolicy) (os : List Occasion) (now : Nat)
    {w : WorkerId} (current : (run policy os).engine.worker = some w) (incoming : Incoming) :
    let e := (run policy os).engine
    ((∀ id ∈ incoming.names?, e.flights.knows id = false) →
      e.step now (.frame w incoming) = ⟨e, []⟩) ∧
    (Lawful policy os → ∀ id ∈ incoming.names?, id ∈ e.flights.abandoned.map (·.1) →
      ∃ before kind after, e.flights.abandoned = before ++ (id, kind) :: after ∧
        e.step now (.frame w incoming) =
          ⟨{ e with
              flights := { e.flights with abandoned := before ++ after }
              documents := (e.documents.adopt (incoming.reports? kind)).2
              failedRestarts := if incoming.isResponse then 0 else e.failedRestarts },
            Engine.announce (e.documents.adopt (incoming.reports? kind)).1⟩ ∧
        (∀ x ∈ (e.documents.adopt (incoming.reports? kind)).1, x.isDiagnostic) ∧
        (kind ≠ .check ∨ incoming.isResponse = false → incoming.reports? kind = none)) := by
  intro e
  have consistent : e.Consistent := run_consistent policy os
  constructor
  · intro unknown
    exact consistent.step_frame current now (Engine.receive_of_unknown unknown) consistent
  · intro lawful id named remembered
    have landed := landed_of_remembered lawful remembered
    obtain ⟨before, kind, after, found, hsplit, herase⟩ := InFlight.abandoned_split remembered
    have received := Engine.receive_of_remembered named landed found
    rw [herase] at received
    have settled := consistent.heeding incoming kind (before ++ after)
    exact ⟨before, kind, after, hsplit, consistent.step_frame current now received settled,
      e.documents.adopt_isDiagnostic _, Incoming.reports?_eq_none⟩

/-! ## Frames while another job is in flight -/

/-- A check runs out of time, and the next job is handed over. -/
def overdue : List Occasion :=
  [.draw, .draw, .draw, .input 0 (.started 0 (.ok ⟨0, none⟩)),
    .input 1 (.command (.submit { id := ⟨1⟩, request := .check none, timeout := some 2 })),
    .input 2 (.command (.submit { id := ⟨2⟩, request := .version, waiter := some 5 })),
    .input 2 (.command (.submit { id := ⟨3⟩, request := .version, waiter := some 6 })),
    .input 3 .deadline]

theorem strays_while_busy :
    (Lawful {} overdue ∧ (run {} overdue).engine.worker = some 0 ∧
      (run {} overdue).engine.lifecycle = .busy ∧
      (run {} overdue).engine.flights.knows ⟨9⟩ = false ∧
      ⟨1⟩ ∈ (run {} overdue).engine.flights.abandoned.map (·.1)) ∧
    (run {} overdue).engine.step 4 (.frame 0 (.response ⟨9⟩ (.ok .null))) =
      ⟨(run {} overdue).engine, []⟩ ∧
    ((run {} overdue).engine.step 4 (.frame 0 (.response ⟨1⟩ (.ok (.arr []))))).state.queue =
      (run {} overdue).engine.queue ∧
    ((run {} overdue).engine.step 4 (.frame 0 (.response ⟨1⟩ (.ok (.arr []))))).state.flights.live =
      (run {} overdue).engine.flights.live := by
  have lawful : Lawful {} overdue := by decide
  have current : (run {} overdue).engine.worker = some 0 := by decide
  have unknown : (run {} overdue).engine.flights.knows ⟨9⟩ = false := by decide
  have remembered : ⟨1⟩ ∈ (run {} overdue).engine.flights.abandoned.map (·.1) := by decide
  have stray := (stray_frames_do_nothing {} overdue 4 current (.response ⟨9⟩ (.ok .null))).1 <| by
    intro id named
    obtain rfl : ⟨9⟩ = id := Option.some.inj named
    exact unknown
  obtain ⟨before, kind, after, -, late, -⟩ :=
    (stray_frames_do_nothing {} overdue 4 current (.response ⟨1⟩ (.ok (.arr [])))).2 lawful ⟨1⟩ rfl
      remembered
  exact ⟨⟨lawful, current, by decide, unknown, remembered⟩, stray, by rw [late], by rw [late]⟩

end History

end WorkerBridge
