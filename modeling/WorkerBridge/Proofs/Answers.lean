/-
  WorkerBridge.Proofs.Answers

  What a caller hears comes from its own job's reply.

  `Reacts.tells` lists all that a turn can tell a caller: a failure of the
  engine's own making, the end of the time limit of a job in flight, or the
  verdict of a frame that names a job in flight. `History.Tracked` follows each
  flight back to its dispatch: it has the worker that the job was handed to, and
  no frame has named the job since. Together they say that a reply reaches the
  caller of its job and nobody else.
-/
import WorkerBridge.Proofs.Provenance

namespace WorkerBridge

/-- Whether the engine gives the failure by itself, without a frame and before any time limit. -/
def Failure.isLapse : Failure → Bool
  | .startup _ | .crashed _ | .cancelled | .unavailable | .shutDown => true
  | .protocol _ | .timeout .. | .reported _ => false

/-- A job whose time is up has a time limit, and has used it. -/
theorem Flight.limit_le_elapsed {f : Flight} {now : Nat}
    (limited : f.deadline = f.job.timeout.map (f.dispatchedAt + ·)) (due : f.isDue now) :
    ∃ limit, f.job.timeout = some limit ∧ limit ≤ f.elapsed now := by
  rw [isDue, limited] at due
  cases hlimit : f.job.timeout with
  | none => simp [hlimit] at due
  | some limit =>
    have past : f.dispatchedAt + limit ≤ now := by simpa [hlimit] using due
    refine ⟨limit, rfl, ?_⟩
    rw [elapsed]
    omega

/-! ## Verdicts -/

/-- A caller hears of a result exactly as the worker sent it. For a check it is a list of
    reports. -/
theorem Incoming.verdict_ok {incoming : Incoming} {kind : JobKind} {v : Json}
    (h : incoming.verdict kind = .ok v) :
    (∃ id, incoming = .response id (.ok v)) ∧
      (kind = .check → ∃ reports, checkReports v = .ok reports) := by
  cases incoming with
  | malformed id fault => cases h
  | response id outcome =>
    simp only [verdict, judge] at h
    split at h
    · split at h
      · next reports hr =>
        cases h
        exact ⟨⟨id, rfl⟩, fun _ => ⟨reports, hr⟩⟩
      · cases h
    · next other =>
      subst h
      exact ⟨⟨id, rfl⟩, fun check => absurd rfl (other v check)⟩

theorem checkReports_error {result : Json} {f : Failure} (h : checkReports result = .error f) :
    ∃ fault, f = .protocol fault := by
  unfold checkReports at h
  split at h
  · cases h
  · cases h
    exact ⟨_, rfl⟩

/-- A failure that is none of the protocol is the worker's own. -/
theorem Incoming.verdict_error {incoming : Incoming} {kind : JobKind} {f : Failure}
    (h : incoming.verdict kind = .error f) (hf : ∀ fault, f ≠ .protocol fault) :
    ∃ id, incoming = .response id (.error f) := by
  cases incoming with
  | malformed id fault =>
    cases h
    exact absurd rfl (hf fault)
  | response id outcome =>
    simp only [verdict, judge] at h
    split at h
    · split at h
      · cases h
      · -- A result that is no list of reports is a failure of the protocol.
        next hr =>
        cases h
        obtain ⟨fault, rfl⟩ := checkReports_error hr
        exact absurd rfl (hf fault)
    · subst h
      exact ⟨id, rfl⟩

namespace Engine

/-! ## What a turn tells a caller -/

/-- The turn tells the caller an outcome, one case for each way in which it comes about. -/
inductive Tells (now : Nat) (e : Engine) (caller : Ticket) : Input → Outcome → Prop where
  | lapsed {input : Input} {f : Failure} (own : f.isLapse)
      (unheard : ∀ w incoming, input ≠ .frame w incoming) :
      Tells now e caller input (.error f)
  | expired {f : Flight} (hf : f ∈ e.flights.live) (waits : f.job.waiter = some caller)
      (due : f.isDue now) :
      Tells now e caller .deadline (.error (.timeout f.job.id (f.elapsed now)))
  | heard {w : WorkerId} {incoming : Incoming} {f : Flight} (hf : f ∈ e.flights.live)
      (waits : f.job.waiter = some caller) (current : e.worker = some w)
      (named : incoming.names? = some f.job.id) :
      Tells now e caller (.frame w incoming) (incoming.verdict f.job.kind)

theorem tell_mem_finish {caller : Ticket} {o outcome : Outcome} {j : Job} :
    .tell caller o ∈ finish j outcome ↔ j.waiter = some caller ∧ o = outcome := by
  cases hw : j.waiter with
  | none => simp [finish, hw]
  | some t => simp [finish, hw, eq_comm (a := caller)]

theorem tell_not_mem_announce {caller : Ticket} {o : Outcome} {events : List Event} :
    .tell caller o ∉ announce events := by
  simp [announce]

theorem tell_not_mem_state {caller : Ticket} {o : Outcome} {s s' : Lifecycle} :
    .tell caller o ∉ if s' = s then [] else proclaim s := by
  split <;> simp

theorem tell_not_mem_toList {α : Type} {caller : Ticket} {o : Outcome} {x : Option α}
    {effect : α → Effect} (silent : ∀ a, .tell caller o ≠ effect a) :
    .tell caller o ∉ (x.map effect).toList := by
  cases x with
  | none => simp
  | some a => simpa using silent a

/-- Failing jobs all in one way tells their callers nothing else. -/
theorem tell_mem_finish_all {α : Type} {caller : Ticket} {o : Outcome} {job : α → Job}
    {outcome : Outcome} {xs : List α}
    (h : .tell caller o ∈ xs.flatMap fun x => finish (job x) outcome) : o = outcome := by
  obtain ⟨x, -, hx⟩ := List.mem_flatMap.1 h
  exact (tell_mem_finish.1 hx).2

theorem tell_not_mem_dispatch {caller : Ticket} {o : Outcome} {now : Nat} {e : Engine}
    (up : e.lifecycle.isUp → e.worker.isSome) : .tell caller o ∉ (dispatch now e).effects := by
  rcases dispatch_cases now e up with
    ⟨-, heq⟩ | ⟨-, -, -, heq⟩ | ⟨w, job, rest, -, -, -, -, -, heffects⟩
  · rw [heq, idle_effects]
    exact List.not_mem_nil
  · rw [heq, setState_effects]
    exact tell_not_mem_state
  · rw [heffects]
    intro told
    simp only [List.mem_append] at told
    rcases told with told | told | told
    · exact tell_not_mem_announce told
    · exact tell_not_mem_state told
    · simp at told

theorem tell_scheduleRestart {caller : Ticket} {o : Outcome} {now : Nat} {e : Engine}
    (h : .tell caller o ∈ (scheduleRestart now e).effects) : o = .error .unavailable := by
  rcases scheduleRestart_cases now e with ⟨-, -, heffects⟩ | ⟨-, -, heffects⟩
  · rw [heffects] at h
    exact absurd h tell_not_mem_state
  · rw [heffects] at h
    simp only [List.mem_append] at h
    rcases h with (h | h) | h
    · exact tell_mem_finish_all h
    · exact absurd h tell_not_mem_state
    · simp [notify] at h

theorem tell_crash {caller : Ticket} {o : Outcome} {now : Nat} {reason : CloseReason} {e : Engine}
    (h : .tell caller o ∈ (crash now reason e).effects) :
    ∃ f : Failure, o = .error f ∧ f.isLapse := by
  rw [crash_effects] at h
  simp only [List.mem_append] at h
  rcases h with (((h | h) | h) | h) | h
  · exact absurd h (tell_not_mem_toList (by simp))
  · exact ⟨_, tell_mem_finish_all h, rfl⟩
  · exact ⟨_, tell_mem_finish_all h, rfl⟩
  · simp [notify] at h
  · exact ⟨_, tell_scheduleRestart h, rfl⟩

theorem tell_restart {caller : Ticket} {o : Outcome} {e : Engine}
    (h : .tell caller o ∈ (restart e).effects) : o = .error .cancelled := by
  rw [restart_effects] at h
  simp only [List.mem_append] at h
  rcases h with ((h | h) | h) | h | h
  · exact absurd h (tell_not_mem_toList (by simp))
  · exact tell_mem_finish_all h
  · exact absurd h (tell_not_mem_toList (by simp))
  · exact absurd h tell_not_mem_state
  · simp at h

theorem tell_shutdown {caller : Ticket} {o : Outcome} {requester : Option Ticket} {e : Engine}
    (h : .tell caller o ∈ (shutdown requester e).effects) : o = .error .shutDown := by
  rw [shutdown_effects] at h
  simp only [List.mem_append] at h
  rcases h with ((((h | h) | h) | h) | h) | h
  · exact absurd h (tell_not_mem_toList (by simp))
  · exact tell_mem_finish_all h
  · exact tell_mem_finish_all h
  · exact absurd h (tell_not_mem_toList (by simp))
  · exact absurd h tell_not_mem_state
  · exact absurd h (tell_not_mem_toList (by simp))

/-- **All that a turn can tell.** Whoever is told of a result or of a failure of the worker's own
    has a job in flight that a frame of the present worker names. -/
theorem Reacts.tells {now : Nat} {e : Engine} {input : Input} {t : Turn}
    (r : Reacts now e input t) (consistent : e.Consistent) {caller : Ticket} {o : Outcome}
    (told : .tell caller o ∈ t.effects) : Tells now e caller input o := by
  cases r with
  | ignored | shown => simp at told
  | submitted job =>
    rcases submit_cases now job e with ⟨-, heq⟩ | ⟨-, heq⟩
    · rw [heq] at told
      rcases List.mem_append.1 told with told | told
      · exact absurd told tell_not_mem_announce
      · rw [(tell_mem_finish.1 told).2]
        exact .lapsed rfl (by simp)
    · rw [heq] at told
      rcases List.mem_append.1 told with told | told
      · exact absurd told tell_not_mem_announce
      · exact absurd told (tell_not_mem_dispatch consistent.up)
  | cancelled id =>
    rcases cancel_cases id e with ⟨before, job, after, -, -, heq⟩ | ⟨-, heq⟩
    · rw [heq] at told
      rw [(tell_mem_finish.1 told).2]
      exact .lapsed rfl (by simp)
    · rw [heq] at told
      obtain ⟨t, -, ht⟩ := Option.map_eq_some_iff.1 (Option.mem_toList.1 told)
      cases ht
      exact .lapsed rfl (by simp)
  | restarted =>
    rw [tell_restart told]
    exact .lapsed rfl (by simp)
  | shutDown requester =>
    rw [tell_shutdown told]
    exact .lapsed rfl (by simp)
  | @heard w incoming alive current =>
    -- The dispatch that follows tells nobody anything.
    rcases List.mem_append.1 told with told | told
    · rcases receive_cases incoming e with
        ⟨f, hf, named, events, documents, failedRestarts, -, -, heq⟩ |
        ⟨-, events, documents, failedRestarts, abandoned, -, -, heq⟩
      · rw [heq] at told
        rcases List.mem_append.1 told with told | told
        · exact absurd told tell_not_mem_announce
        · obtain ⟨waits, rfl⟩ := tell_mem_finish.1 told
          exact .heard hf waits current named
      · rw [heq] at told
        exact absurd told tell_not_mem_announce
    · exact absurd told (tell_not_mem_dispatch (receive_unsettled incoming consistent).up)
  | lost reason =>
    obtain ⟨f, rfl, own⟩ := tell_crash told
    exact .lapsed own (by simp)
  | expired =>
    rw [onDeadline_eq] at told
    rcases List.mem_append.1 told with told | told
    · obtain ⟨f, hf, hfinish⟩ := List.mem_flatMap.1 told
      obtain ⟨hlive, due⟩ := List.mem_filter.1 hf
      obtain ⟨waits, rfl⟩ := tell_mem_finish.1 hfinish
      exact .expired hlive waits due
    · exact absurd told (tell_not_mem_dispatch consistent.up)
  | due =>
    rw [beginStart_effects] at told
    rcases List.mem_append.1 told with told | told
    · exact absurd told tell_not_mem_state
    · simp at told
  | started result =>
    cases result with
    | ok started =>
      rw [onStarted_ok] at told
      rcases List.mem_append.1 told with told | told
      · rcases List.mem_append.1 told with told | told
        · exact absurd told (tell_not_mem_toList (by simp [notify]))
        · exact absurd told tell_not_mem_state
      · exact absurd told (tell_not_mem_dispatch fun _ => rfl)
    | error fault =>
      rw [onStarted_error] at told
      rcases List.mem_append.1 told with told | told
      · rcases List.mem_append.1 told with told | told
        · rw [tell_mem_finish_all told]
          exact .lapsed rfl (by simp)
        · simp [notify] at told
      · rw [tell_scheduleRestart told]
        exact .lapsed rfl (by simp)

end Engine

namespace History

/-! ## Flights in a run -/

/-- The worker was handed the job in a turn of the past, and no frame that the engine has heard
    since names it. -/
def Unanswered (past : List Moment) (w : WorkerId) (j : Job) : Prop :=
  ∃ before dispatch after, past = before ++ dispatch :: after ∧
    .send w j.id j.request ∈ dispatch.effects ∧ ∀ x ∈ after, ¬ x.Hears j.id

theorem Unanswered.extend {past : List Moment} {w : WorkerId} {j : Job} {m : Moment}
    (h : Unanswered past w j) (unheard : ¬ m.Hears j.id) : Unanswered (past ++ [m]) w j := by
  obtain ⟨before, dispatch, after, rfl, sent, quiet⟩ := h
  refine ⟨before, dispatch, after ++ [m], by simp, sent, ?_⟩
  intro x hx
  rw [List.mem_append, List.mem_singleton] at hx
  rcases hx with hx | rfl
  · exact quiet x hx
  · exact unheard

/-- Whatever is in flight was handed to the present worker and is not answered yet. Its time limit
    counts from its dispatch. -/
def Tracked (h : History) : Prop :=
  ∀ f ∈ h.engine.flights.live,
    (∃ w, h.engine.worker = some w ∧ Unanswered h.past w f.job) ∧
      f.deadline = f.job.timeout.map (f.dispatchedAt + ·)

theorem Tracked.input {h : History} (tracked : h.Tracked) (consistent : h.engine.Consistent)
    (now : Nat) (input : Input) : (h.extend (.input now input)).Tracked := by
  intro f hf
  rcases (Engine.step_reacts now h.engine input).live_mem consistent hf with
    ⟨g, hg, same, hworker, unheard⟩ | ⟨j, -, w, rfl, hworker, sent⟩
  · -- The flight goes on, and nothing was heard of it in this turn.
    obtain ⟨⟨w, hw, unanswered⟩, limit⟩ := tracked g hg
    have still : Unanswered (h.extend (.input now input)).past w g.job :=
      unanswered.extend unheard
    have current : (h.extend (.input now input)).engine.worker = some w := hworker.trans hw
    rcases same with rfl | rfl
    · exact ⟨⟨w, current, still⟩, limit⟩
    · exact ⟨⟨w, current, still⟩, limit⟩
  · -- The flight has just begun, so there was nothing to hear yet.
    refine ⟨⟨w, hworker, h.past, ⟨h.engine, .input now input⟩, [], rfl, sent, ?_⟩, rfl⟩
    intro x hx
    cases hx

theorem run_tracked (policy : RestartPolicy) (os : List Occasion) : (run policy os).Tracked := by
  refine (run_induction (P := fun h => h.engine.Consistent ∧ h.Tracked) ?_ ?_ os).2
  · refine ⟨Engine.boot_consistent policy, fun f hf => ?_⟩
    simp [boot, Engine.boot] at hf
  · rintro h o ⟨consistent, tracked⟩
    refine ⟨Engine.answer_consistent o consistent, ?_⟩
    cases o with
    | draw =>
      intro f hf
      obtain ⟨⟨w, hw, unanswered⟩, limit⟩ := tracked f hf
      exact ⟨⟨w, hw, unanswered.extend fun heard => heard⟩, limit⟩
    | input now input => exact tracked.input consistent now input

/-- The engine waits for the worker's answer to the job: the job is in flight, and was handed to
    that worker, which is the present one, and no frame that the engine heard since names it. -/
def Awaits (past : List Moment) (e : Engine) (w : WorkerId) (j : Job) : Prop :=
  e.worker = some w ∧ (∃ f ∈ e.flights.live, f.job.id = j.id) ∧ Unanswered past w j

theorem Tracked.awaits {h : History} (tracked : h.Tracked) {f : Flight}
    (hf : f ∈ h.engine.flights.live) {w : WorkerId} (current : h.engine.worker = some w) :
    Awaits h.past h.engine w f.job := by
  obtain ⟨⟨v, hv, unanswered⟩, -⟩ := tracked f hf
  cases current.symm.trans hv
  exact ⟨current, ⟨f, hf, rfl⟩, unanswered⟩

/-- A caller that still waits on a flight waits on the job that it came with. -/
theorem Orderly.job_of_waiter {h : History} (orderly : h.Orderly) {past : History}
    (held : past.Held) (earlier : ∀ k ∈ past.admitted, k ∈ h.admitted) {f : Flight}
    (hf : f ∈ past.engine.flights.live) {j : Job} (hj : j ∈ h.admitted) {t : Ticket}
    (ht : j.waiter = some t) (waits : f.job.waiter = some t) : f.job = j := by
  obtain ⟨k, hk, same | same⟩ := held.live f hf
  · rw [same] at waits ⊢
    exact orderly.eq_of_owes (d := .answer t) (earlier k hk) hj (by simp [Job.owes, waits])
      (by simp [Job.owes, ht])
  · rw [same] at waits
    cases waits

/-! ## Replies are never crossed -/

/-- How the caller of a job comes to hear an outcome, in terms of the job. -/
inductive Informs (before : List Moment) (m : Moment) (j : Job) : Outcome → Prop where
  /-- The engine has given the job up. -/
  | lapsed {f : Failure} (own : f.isLapse)
      (unheard : ∀ now w incoming, m.occasion ≠ .input now (.frame w incoming)) :
      Informs before m j (.error f)
  /-- The time limit of the job is over. -/
  | expired {limit elapsed : Nat} (limited : j.timeout = some limit) (used : limit ≤ elapsed)
      (unheard : ∀ now w incoming, m.occasion ≠ .input now (.frame w incoming)) :
      Informs before m j (.error (.timeout j.id elapsed))
  /-- The worker has answered. -/
  | answered {now : Nat} {w : WorkerId} {incoming : Incoming}
      (frame : m.occasion = .input now (.frame w incoming)) (reply : incoming.isReply)
      (named : incoming.names? = some j.id) (awaits : Awaits before m.before w j) :
      Informs before m j (incoming.verdict j.kind)

/-- Whatever the caller of a job is told in a lawful run, it is told about its own job. -/
theorem informs_of_tell {policy : RestartPolicy} {os : List Occasion} (lawful : Lawful policy os)
    {j : Job} (hj : j ∈ (run policy os).admitted) {t : Ticket} (ht : j.waiter = some t)
    {before after : List Moment} {m : Moment}
    (hpast : (run policy os).past = before ++ m :: after) {o : Outcome}
    (told : .tell t o ∈ m.effects) : Informs before m j o := by
  have orderly := lawful_orderly lawful
  obtain ⟨os₁, os₂, rfl, rfl, hengine⟩ := run_split hpast
  have earlier : ∀ k ∈ (run policy os₁).admitted,
      k ∈ (run policy (os₁ ++ m.occasion :: os₂)).admitted := by
    intro k hk
    rw [admitted, hpast, List.flatMap_append]
    exact List.mem_append_left _ hk
  have allowed : (run policy os₁).Allows m.occasion := lawful.allows
  obtain ⟨e, occasion⟩ := m
  obtain rfl : (run policy os₁).engine = e := hengine
  -- The flight on which the caller waits is that of its own job.
  have own : ∀ f ∈ (run policy os₁).engine.flights.live, f.job.waiter = some t → f.job = j :=
    fun f hf waits => orderly.job_of_waiter (run_held policy os₁) earlier hf hj ht waits
  cases occasion with
  | draw => cases told
  | input now input =>
    cases (Engine.step_reacts now _ input).tells (run_consistent policy os₁) told with
    | lapsed lapse unheard =>
      refine .lapsed lapse ?_
      rintro now' w incoming ⟨⟩
      exact unheard w incoming rfl
    | @expired f hf waits due =>
      have tracked := run_tracked policy os₁ f hf
      obtain ⟨limit, limited, used⟩ := Flight.limit_le_elapsed tracked.2 due
      rw [own f hf waits] at limited ⊢
      exact .expired limited used (by simp)
    | @heard w incoming f hf waits current named =>
      have awaits := (run_tracked policy os₁).awaits hf current
      rw [own f hf waits] at named awaits ⊢
      exact .answered rfl allowed named awaits

/-- **Replies are never crossed.** In a lawful run, take a job, the caller that waits on it, and
    the turn in which the caller is told. If it is told a result, the turn answers a frame with
    that result, under the identity of the job and from the worker that the job was handed to,
    while the job was in flight, and no earlier frame named the job since its dispatch; for a check
    the result is a list of reports. A failure of the worker's own comes in the same way. A timeout
    names the job, and a time not below its limit. Nothing that the caller is told comes from a
    frame that names another job, or from a worker that the job was not handed to. -/
theorem replies_never_crossed {policy : RestartPolicy} {os : List Occasion}
    (lawful : Lawful policy os) {j : Job} (hj : j ∈ (run policy os).admitted) {t : Ticket}
    (ht : j.waiter = some t) {before after : List Moment} {m : Moment}
    (hpast : (run policy os).past = before ++ m :: after) {o : Outcome}
    (told : .tell t o ∈ m.effects) :
    (∀ v, o = .ok v →
      (∃ now w, m.occasion = .input now (.frame w (.response j.id (.ok v))) ∧
        Awaits before m.before w j) ∧
      (j.kind = .check → ∃ reports, checkReports v = .ok reports)) ∧
    (∀ message, o = .error (.reported message) →
      ∃ now w, m.occasion = .input now (.frame w (.response j.id (.error (.reported message)))) ∧
        Awaits before m.before w j) ∧
    (∀ id elapsed, o = .error (.timeout id elapsed) →
      id = j.id ∧ ∃ limit, j.timeout = some limit ∧ limit ≤ elapsed) ∧
    (∀ now w incoming, m.occasion = .input now (.frame w incoming) →
      incoming.names? = some j.id ∧ Awaits before m.before w j) := by
  cases informs_of_tell lawful hj ht hpast told with
  | lapsed lapse unheard =>
    -- The failures that the engine gives by itself are none of those in question.
    refine ⟨?_, ?_, ?_, fun now w incoming frame => absurd frame (unheard now w incoming)⟩
    · rintro v ⟨⟩
    · rintro message ⟨⟩
      cases lapse
    · rintro id elapsed ⟨⟩
      cases lapse
  | @expired limit elapsed limited used unheard =>
    refine ⟨?_, ?_, ?_, fun now w incoming frame => absurd frame (unheard now w incoming)⟩
    · rintro v ⟨⟩
    · rintro message ⟨⟩
    · rintro id elapsed' ⟨⟩
      exact ⟨rfl, limit, limited, used⟩
  | @answered now w incoming frame reply named awaits =>
    refine ⟨?_, ?_, ?_, ?_⟩
    · intro v hv
      obtain ⟨⟨id, rfl⟩, reports⟩ := Incoming.verdict_ok hv
      cases named
      exact ⟨⟨now, w, frame, awaits⟩, reports⟩
    · intro message hmessage
      obtain ⟨id, rfl⟩ := Incoming.verdict_error hmessage (by simp)
      cases named
      exact ⟨now, w, frame, awaits⟩
    · -- No reply of a worker speaks of a timeout.
      intro id elapsed htimeout
      obtain ⟨id', rfl⟩ := Incoming.verdict_error htimeout (by simp)
      cases reply
    · intro now' w' incoming' frame'
      cases frame.symm.trans frame'
      exact ⟨named, awaits⟩

/-! ## A run with a late reply -/

/-- A check that a caller waits on. -/
def checkAll : Job :=
  { id := ⟨2⟩, request := .check none, waiter := some 8 }

/-- A first job runs out of time, and the check takes its place. The first reply comes late, and
    the reply to the check is still to come. -/
def belated : List Occasion :=
  [.draw, .draw,
    .input 0 (.command (.submit
      { id := ⟨1⟩, request := .version, timeout := some 5, waiter := some 7 })),
    .input 1 (.command (.submit checkAll)), .input 2 (.started 0 (.ok ⟨0, none⟩)),
    .input 9 .deadline, .input 10 (.frame 0 (.response ⟨1⟩ (.ok .null)))]

/-- The reply to the check. -/
def checked : Occasion :=
  .input 11 (.frame 0 (.response ⟨2⟩ (.ok (.arr []))))

theorem check_reply_not_crossed :
    (Lawful {} (belated ++ [checked]) ∧
      checkAll ∈ (run {} (belated ++ [checked])).admitted ∧
      .tell 8 (.ok (.arr [])) ∈ Moment.effects ⟨(run {} belated).engine, checked⟩) ∧
    Awaits (run {} belated).past (run {} belated).engine 0 checkAll ∧
    ∃ reports, checkReports (.arr []) = .ok reports := by
  have lawful : Lawful {} (belated ++ [checked]) := by decide
  have taken : checkAll ∈ (run {} (belated ++ [checked])).admitted := by decide
  have told : .tell 8 (.ok (.arr [])) ∈ Moment.effects ⟨(run {} belated).engine, checked⟩ :=
    List.mem_of_getElem? (i := 0) rfl
  have hpast : (run {} (belated ++ [checked])).past =
      (run {} belated).past ++ ⟨(run {} belated).engine, checked⟩ :: [] := by
    rw [run_concat, past_extend]
  obtain ⟨result, -, -, -⟩ := replies_never_crossed lawful taken rfl hpast told
  obtain ⟨⟨now, w, hframe, awaits⟩, reports⟩ := result (.arr []) rfl
  cases hframe
  exact ⟨⟨lawful, taken, told⟩, awaits, reports rfl⟩

end History

end WorkerBridge
