/-
  WorkerBridge.Proofs.FailedCheck

  What is shown when a check fails.

  The dispatch of a check clears what is shown, and a check that fails has brought
  no reports. Between the two the check is in flight, so the only reports that can
  be applied are late ones: the worker answers to an earlier check that ran out of
  time. `failed_check_leaves_nothing_stale` says that nothing else is shown when
  the failure is reported; without time limits for checks nothing is shown at all.
-/
import WorkerBridge.Proofs.Checks

namespace WorkerBridge

/-! ## What comes before the report of a failure -/

/-- A check that fails on a frame gets no reports from it. -/
theorem Incoming.reports?_of_failure {incoming : Incoming}
    (failed : (incoming.verdict .check).isOk = false) : incoming.reports? .check = none := by
  cases incoming with
  | malformed => rfl
  | response id outcome =>
    cases outcome with
    | error => rfl
    | ok result =>
      rw [verdict, judge] at failed
      rw [reports?, if_pos rfl]
      cases hresult : checkReports result with
      | ok reports =>
        rw [hresult] at failed
        cases failed
      | error => rfl

namespace Engine

variable {now : Nat} {e : Engine} {input : Input} {t : Turn}

theorem finished_not_mem_announce {id : JobId} {kind : JobKind} {ok : Bool} {events : List Event}
    (h : ∀ x ∈ events, x.isDiagnostic) : .emit (.finished id kind ok) ∉ announce events := by
  intro told
  obtain ⟨event, hevent, same⟩ := List.mem_map.1 told
  cases same
  cases h _ hevent

theorem finished_not_mem_dispatch {id : JobId} {kind : JobKind} {ok : Bool}
    (up : e.lifecycle.isUp → e.worker.isSome) :
    .emit (.finished id kind ok) ∉ (dispatch now e).effects := by
  have quiet : ∀ s s' : Lifecycle,
      Effect.emit (.finished id kind ok) ∉ if s' = s then [] else proclaim s := by
    intro s s'
    split <;> simp
  rcases dispatch_cases now e up with
    ⟨-, heq⟩ | ⟨-, -, -, heq⟩ | ⟨w, job, rest, -, -, -, -, -, heffects⟩
  · rw [heq, idle_effects]
    exact List.not_mem_nil
  · rw [heq, setState_effects]
    exact quiet _ _
  · rw [heffects]
    intro told
    rcases List.mem_append.1 told with told | told
    · exact finished_not_mem_announce (e.documentsAt_isDiagnostic job) told
    · rcases List.mem_append.1 told with told | told
      · exact quiet _ _ told
      · cases List.mem_singleton.1 told

/-- A frame with which a check fails says nothing about what is shown. -/
theorem receive_aside {incoming : Incoming} {id : JobId}
    (failed : .emit (.finished id .check false) ∈ (receive incoming e).effects) :
    Aside (receive incoming e).effects := by
  have diagnostic := e.documents.adopt_isDiagnostic (e.reports? incoming)
  rcases (receive_store incoming e).2 with ⟨f, -, hreports, heffects⟩ | heffects
  · rw [heffects] at failed ⊢
    have finished := (List.mem_append.1 failed).resolve_left (finished_not_mem_announce diagnostic)
    -- The job that is retired is a check, and the verdict on it is a failure.
    obtain ⟨check, bad⟩ : f.job.kind = .check ∧ (incoming.verdict f.job.kind).isOk = false := by
      rcases List.mem_append.1 finished with told | finished
      · obtain ⟨t, -, same⟩ := Option.map_eq_some_iff.1 (Option.mem_toList.1 told)
        cases same
      · have same := List.mem_singleton.1 finished
        injection same with same
        injection same with _ hkind hok
        exact ⟨hkind.symm, hok.symm⟩
    rw [check] at bad hreports
    rw [hreports, Incoming.reports?_of_failure bad, aside_append]
    exact ⟨aside_nil, aside_finish f.job _⟩
  · rw [heffects] at failed
    exact absurd failed (finished_not_mem_announce diagnostic)

/-- **The store when a failure is reported.** In a turn that reports the failure of a check in
    flight, nothing was said about what is shown before the report. -/
theorem Reacts.shows_before_failure (r : Reacts now e input t) (h : e.Consistent) {id : JobId}
    (flying : e.flights.live ≠ []) {front back : List Effect}
    (failed : t.effects = front ++ .emit (.finished id .check false) :: back) :
    shows front = [] := by
  have quiet : ∀ {first : List Effect}, Aside first →
      (∃ mid, first = front ++ .emit (.finished id .check false) :: mid) → shows front = [] := by
    rintro first aside ⟨mid, rfl⟩
    exact shows_of_aside (aside_append.1 aside).1
  -- In a turn that ends in a dispatch the report comes before the dispatch.
  have early : ∀ {first : Turn}, (first.state.lifecycle.isUp → first.state.worker.isSome) →
      (first.andThen (dispatch now)).effects = front ++ .emit (.finished id .check false) :: back →
      ∃ mid, first.effects = front ++ .emit (.finished id .check false) :: mid := by
    intro first up heffects
    obtain ⟨mid, hfirst, -⟩ := split_behind heffects.symm (finished_not_mem_dispatch up)
    exact ⟨mid, hfirst⟩
  cases r with
  | ignored => exact quiet aside_nil ⟨back, failed⟩
  | submitted job =>
    rcases submit_cases now job e with ⟨rejects, heq⟩ | ⟨-, heq⟩
    · -- Where jobs are refused nothing is in flight.
      have idle : e.lifecycle ≠ .busy := by
        rcases (rejectsJobs_iff _).1 rejects with closed | closed <;> simp [closed]
      exact absurd (h.live_eq_nil idle) flying
    · rw [heq] at failed
      obtain ⟨mid, hfirst⟩ := early h.up failed
      have told : .emit (.finished id .check false) ∈
          announce (e.documents.follow job.request).1 := by
        rw [show announce (e.documents.follow job.request).1 = _ from hfirst]
        simp
      exact absurd told (finished_not_mem_announce (e.documents.follow_isDiagnostic job.request))
  | cancelled named => exact quiet (aside_cancel named e) ⟨back, failed⟩
  | restarted => exact quiet (aside_restart e) ⟨back, failed⟩
  | shown caller =>
    have exhibited : Aside [.exhibit caller e.documents.snapshot] := by simp [Effect.isAside]
    exact quiet exhibited ⟨back, failed⟩
  | shutDown caller => exact quiet (aside_shutdown caller e) ⟨back, failed⟩
  | heard incoming =>
    obtain ⟨mid, hfirst⟩ := early (receive_unsettled incoming h).up failed
    have told : .emit (.finished id .check false) ∈ (receive incoming e).effects := by
      rw [hfirst]
      simp
    exact quiet (receive_aside told) ⟨mid, hfirst⟩
  | lost reason => exact quiet (aside_crash now reason e) ⟨back, failed⟩
  | expired =>
    rw [onDeadline_eq] at failed
    exact quiet (aside_finish_flights _ _) (early h.up failed)
  | due => exact quiet (aside_beginStart e) ⟨back, failed⟩
  | started result =>
    cases result with
    | ok started =>
      rw [onStarted_ok] at failed
      exact quiet (aside_greeting started e) (early (fun _ => rfl) failed)
    | error fault => exact quiet (aside_onStarted_error now fault e) ⟨back, failed⟩

end Engine

theorem Moment.shows_before_failure {m : Moment} (h : m.before.Consistent) {id : JobId}
    (flying : m.before.flights.live ≠ []) {front back : List Effect}
    (failed : m.effects = front ++ .emit (.finished id .check false) :: back) :
    shows front = [] := by
  rcases m with ⟨e, o⟩
  cases o with
  | draw =>
    have none : ([] : List Effect) = front ++ .emit (.finished id .check false) :: back := failed
    simp at none
  | input now input => exact (Engine.step_reacts now e input).shows_before_failure h flying failed

theorem Moment.checks_of_mem {m : Moment} {t : Task} (sent : t ∈ tasks m.effects)
    (check : t.2.kind = .check) : m.checks = true := by
  obtain ⟨s, hs, rfl⟩ := List.mem_map.1 sent
  exact List.any_eq_true.2 ⟨s, hs, decide_eq_true check⟩

/-! ## Time limits -/

namespace Moment

variable {m : Moment}

/-- Replayed jobs have no time limit. -/
theorem timeout_of_replays {j : Job} (hj : j ∈ m.replays) : j.timeout = none := by
  rcases m with ⟨e, o⟩
  cases o with
  | draw => cases hj
  | input now input =>
    cases input with
    | started start result =>
      cases result with
      | error => cases hj
      | ok started =>
        have replayed : j ∈ e.replayed := by
          rcases e.admits_started_ok start started with none | all
          · have taken : j ∈ e.admits (.started start (.ok started)) := hj
            rw [none] at taken
            cases taken
          · rw [← all]
            exact hj
        unfold Engine.replayed at replayed
        split at replayed
        · obtain ⟨_, -, rfl⟩ := List.mem_map.1 replayed
          rfl
        · cases replayed
    | command | frame | closed | deadline | restartDue => cases hj

end Moment

namespace History

variable {policy : RestartPolicy} {os : List Occasion} {before after : List Moment} {m : Moment}

/-- A job whose time was up was submitted, and with a time limit. -/
theorem limited_of_timesOut (hpast : (run policy os).past = before ++ m :: after) {id : JobId}
    {kind : JobKind} (out : m.TimesOut id kind) :
    ∃ j ∈ (run policy os).submitted, j.kind = kind ∧ j.timeout ≠ none := by
  obtain ⟨now, -, f, hf, -, hkind, due⟩ := out
  obtain ⟨os₁, os₂, -, hbefore, hengine⟩ := run_split hpast
  rw [← hengine] at hf
  obtain ⟨limit, limited, -⟩ := Flight.limit_le_elapsed (run_tracked policy os₁ f hf).2 due
  obtain ⟨j, hj, same⟩ := (run_held policy os₁).live f hf
  -- Telling the caller changes neither the kind of a job nor its time limit.
  obtain ⟨hjkind, hjlimit⟩ : j.kind = kind ∧ j.timeout = some limit := by
    rcases same with same | same <;> rw [same] at hkind limited <;> exact ⟨hkind, limited⟩
  have taken : j ∈ (run policy os).admitted := by
    rw [admitted, hpast, List.flatMap_append, ← hbefore]
    exact List.mem_append_left _ hj
  refine ⟨j, ?_, hjkind, by simp [hjlimit]⟩
  rcases admitted_cases taken with submitted | replayed
  · exact submitted
  · obtain ⟨x, -, hx⟩ := List.mem_flatMap.1 replayed
    rw [Moment.timeout_of_replays hx] at hjlimit
    cases hjlimit

/-! ## Failed checks in a run -/

/-- The reports were applied late: the worker answered with them to a check that was not in flight,
    since it had run out of time in one of the given moments. -/
structure AppliedLate (past : List Moment) (x : Moment) (reports : List Report) : Prop where
  applied : x.reports? = some reports
  late : ∃ id, x.Hears id ∧ (∀ f ∈ x.before.flights.live, f.job.id ≠ id) ∧
    ∃ y ∈ past, y.TimesOut id .check

/-- Moments in which only other checks ran out of time make no difference. -/
theorem AppliedLate.of_append {past since : List Moment} {x : Moment} {reports : List Report}
    (h : AppliedLate (past ++ since) x reports)
    (others : ∀ y ∈ since, ∀ id, y.TimesOut id .check → ¬ x.Hears id) :
    AppliedLate past x reports := by
  obtain ⟨applied, id, heard, strange, y, hy, out⟩ := h
  refine ⟨applied, id, heard, strange, y, ?_, out⟩
  exact (List.mem_append.1 hy).resolve_right fun later => others y later id out heard

/-- While a job is in flight whose answer is still out, all reports that are applied are late. -/
theorem late_of_flying (hpast : (run policy os).past = before ++ m :: after) {id : JobId}
    (flying : ∃ f ∈ m.before.flights.live, f.job.id = id) (unheard : ¬ m.Hears id)
    {reports : List Report} (applied : m.reports? = some reports) :
    AppliedLate before m reports := by
  obtain ⟨f, hf, rfl⟩ := flying
  obtain ⟨os₁, os₂, -, hbefore, hengine⟩ := run_split hpast
  have only := (consistent_of_past hpast).live_eq_of_mem hf
  obtain ⟨late, heard, known⟩ := Moment.reports?_cases applied
  rcases known with ⟨g, hg, hid, -⟩ | ⟨strange, remembered⟩
  · -- The answer would be to the job in flight.
    rw [only, List.mem_singleton] at hg
    rw [hg] at hid
    exact absurd (hid ▸ heard) unheard
  · rw [← hengine] at remembered
    obtain ⟨y, hy, out⟩ := run_remembered policy os₁ _ remembered
    exact ⟨applied, late, heard, strange, y, hbefore ▸ hy, out⟩

/-- A job that was handed over and not reported yet is in flight. -/
theorem flying_at (lawful : Lawful policy os)
    (hpast : (run policy os).past = before ++ m :: after) {t : Task}
    (sent : t ∈ tasks (before.flatMap (·.effects)))
    (unreported : settled (.report t.1) (before.flatMap (·.effects)) = 0) :
    ∃ f ∈ m.before.flights.live, f.job.id = t.1 := by
  obtain ⟨os₁, os₂, rfl, hbefore, hengine⟩ := run_split hpast
  rw [← hbefore] at sent unreported
  rw [← hengine]
  exact in_flight lawful.take sent unreported

/-- Before the turn that reports a job, the job was not reported. -/
theorem unreported_before (lawful : Lawful policy os)
    (hpast : (run policy os).past = before ++ m :: after) {t : Task}
    (sent : t ∈ tasks (before.flatMap (·.effects)))
    (reported : 0 < settled (.report t.1) m.effects) :
    settled (.report t.1) (before.flatMap (·.effects)) = 0 := by
  have total : (run policy os).effects =
      before.flatMap (·.effects) ++ (m.effects ++ after.flatMap (·.effects)) := by
    rw [effects, hpast, List.flatMap_append, List.flatMap_cons]
  have handed : t ∈ tasks (run policy os).effects := by
    rw [total, tasks_append]
    exact List.mem_append_left _ sent
  obtain ⟨j, hj, rfl⟩ := admitted_of_tasks lawful handed
  have once : _ + settled (.report j.task.1) (run policy os).effects = 1 :=
    held_or_reported lawful hj
  rw [total, settled_append, settled_append] at once
  omega

/-- **A job on its way.** A job that was handed over and not reported yet has been in flight in
    every turn since, and nothing was heard of it. -/
theorem flying_since (lawful : Lawful policy os) {t : Task}
    (sent : t ∈ tasks (run policy os).effects)
    (unreported : settled (.report t.1) (run policy os).effects = 0) :
    ∃ b₁ d b₂, (run policy os).past = b₁ ++ d :: b₂ ∧ t ∈ tasks d.effects ∧
      (∀ x ∈ b₂, ¬ x.Hears t.1) ∧
      ∀ c₁ x c₂, b₂ = c₁ ++ x :: c₂ → ∃ f ∈ x.before.flights.live, f.job.id = t.1 := by
  obtain ⟨f, hf, hid⟩ := in_flight lawful sent unreported
  obtain ⟨⟨w, -, b₁, d, b₂, hpast, handed, unheard⟩, -⟩ := run_tracked policy os f hf
  rw [hid] at handed unheard
  have dispatched : (t.1, f.job.request) ∈ tasks d.effects := mem_tasks.2 ⟨w, handed⟩
  have hrequest : f.job.request = t.2 := by
    refine request_of_tasks lawful (mem_tasks_flatMap.2 ⟨d, ?_, dispatched⟩) sent
    rw [hpast]
    simp
  rw [hrequest] at dispatched
  refine ⟨b₁, d, b₂, hpast, dispatched, unheard, ?_⟩
  rintro c₁ x c₂ rfl
  have hx : (run policy os).past = (b₁ ++ d :: c₁) ++ x :: c₂ := by
    rw [hpast, List.append_assoc, List.cons_append]
  refine flying_at lawful hx (mem_tasks_flatMap.2 ⟨d, by simp, dispatched⟩) ?_
  rw [effects, hx, List.flatMap_append, settled_append] at unreported
  exact Nat.eq_zero_of_add_eq_zero_right unreported

/-- While a job is in flight since a turn and its answer is still out, all reports that are applied
    are late, and the check that they answer had run out of time by that turn. -/
theorem late_since {b₁ c₁ c₂ : List Moment} {d x : Moment}
    (hpast : (run policy os).past = b₁ ++ d :: (c₁ ++ x :: c₂)) {id : JobId}
    (flying : ∀ e₁ y e₂, c₁ ++ x :: c₂ = e₁ ++ y :: e₂ →
      ∃ f ∈ y.before.flights.live, f.job.id = id)
    (unheard : ¬ x.Hears id) {reports : List Report} (applied : x.reports? = some reports) :
    AppliedLate (b₁ ++ [d]) x reports := by
  have hx : (run policy os).past = ((b₁ ++ [d]) ++ c₁) ++ x :: c₂ := by
    rw [hpast]
    simp
  refine (late_of_flying hx (flying c₁ x c₂ rfl) unheard applied).of_append ?_
  intro y hy late out heard
  -- After the turn only the job in flight could run out of time, and it was not heard of.
  obtain ⟨e₁, e₂, rfl⟩ := List.append_of_mem hy
  obtain ⟨f, hf, hid⟩ := flying e₁ y (e₂ ++ x :: c₂) (by simp)
  obtain ⟨-, -, g, hg, hlate, -, -⟩ := out
  have hy : (run policy os).past = (b₁ ++ d :: e₁) ++ y :: (e₂ ++ x :: c₂) := by
    rw [hpast]
    simp
  have only := (consistent_of_past hy).live_eq_of_mem hf
  rw [only, List.mem_singleton] at hg
  rw [hg, hid] at hlate
  exact unheard (hlate ▸ heard)

/-- **What is shown when a check fails.** From its dispatch until its failure is reported, only the
    reports of an earlier check, applied late, can have come to be shown. -/
theorem shown_at_failure (lawful : Lawful policy os)
    (hpast : (run policy os).past = before ++ m :: after) {id : JobId} {uri : Option String}
    (sent : (id, .check uri) ∈ tasks (before.flatMap (·.effects)))
    (reported : 0 < settled (.report id) m.effects) :
    ∃ b₁ d b₂, before = b₁ ++ d :: b₂ ∧ (id, .check uri) ∈ tasks d.effects ∧
      (m.before.documents.diagnostics = [] ∨
        ∃ c₁ x c₂ reports, b₂ = c₁ ++ x :: c₂ ∧ AppliedLate (b₁ ++ [d]) x reports ∧
          m.before.documents.diagnostics =
            TextMap.without (closings c₂) (reportMap reports)) := by
  have unreported := unreported_before lawful hpast sent reported
  obtain ⟨os₁, os₂, rfl, rfl, hengine⟩ := run_split hpast
  obtain ⟨b₁, d, b₂, hsplit, dispatched, unheard, flying⟩ :=
    flying_since lawful.take sent unreported
  refine ⟨b₁, d, b₂, hsplit, dispatched, ?_⟩
  rw [← hengine]
  refine (shown_cases policy os₁).imp_right ?_
  rintro ⟨c₂, reports, ⟨⟨c₀, x, hx, applied, unchecked⟩, others⟩, hshown⟩
  -- No check was handed over since the reports were applied, so they came after the dispatch.
  have early : d ∉ x :: c₂ := by
    intro hd
    have silent : d.checks = false := by
      rcases List.mem_cons.1 hd with rfl | hd
      · exact unchecked
      · exact (others d hd).2
    rw [Moment.checks_of_mem dispatched rfl] at silent
    cases silent
  obtain ⟨c₁, rfl, rfl⟩ := split_behind (hsplit.symm.trans hx) early
  exact ⟨c₁, x, c₂, reports, rfl, late_since hsplit flying (unheard x (by simp)) applied, hshown⟩

/-- **A failed check leaves nothing stale, except what came late.** In a lawful run, take a turn
    that reports the failure of a check that was handed over. Up to the report the turn has changed
    nothing that is shown. What is shown then is nothing, or else, since the dispatch of the failed
    check, the worker has answered to an earlier check, which had run out of time by then, and these
    reports are shown, less the documents that were closed since. If no check is submitted with a
    time limit, nothing is shown. -/
theorem failed_check_leaves_nothing_stale (lawful : Lawful policy os)
    (hpast : (run policy os).past = before ++ m :: after) {id : JobId} {uri : Option String}
    (sent : (id, .check uri) ∈ tasks (before.flatMap (·.effects))) {front back : List Effect}
    (failed : m.effects = front ++ .emit (.finished id .check false) :: back) :
    shows front = [] ∧
    (∃ b₁ d b₂, before = b₁ ++ d :: b₂ ∧ (id, .check uri) ∈ tasks d.effects ∧
      (m.before.documents.diagnostics = [] ∨
        ∃ c₁ x c₂ reports, b₂ = c₁ ++ x :: c₂ ∧ AppliedLate (b₁ ++ [d]) x reports ∧
          m.before.documents.diagnostics =
            TextMap.without (closings c₂) (reportMap reports))) ∧
    ((∀ j ∈ (run policy os).submitted, j.kind = .check → j.timeout = none) →
      m.before.documents.diagnostics = []) := by
  have reported : 0 < settled (.report id) m.effects := by
    refine List.countP_pos_iff.2 ⟨.emit (.finished id .check false), ?_, decide_eq_true rfl⟩
    rw [failed]
    simp
  have cases := shown_at_failure lawful hpast sent reported
  refine ⟨?_, cases, ?_⟩
  · obtain ⟨f, hf, -⟩ := flying_at lawful hpast sent (unreported_before lawful hpast sent reported)
    exact Moment.shows_before_failure (consistent_of_past hpast) (List.ne_nil_of_mem hf) failed
  · intro unlimited
    obtain ⟨b₁, d, b₂, rfl, -, empty | ⟨c₁, x, c₂, reports, rfl, ⟨-, late⟩, -⟩⟩ := cases
    · exact empty
    · obtain ⟨late, -, -, y, hy, out⟩ := late
      obtain ⟨early, rest, hsplit⟩ := List.append_of_mem hy
      have hpast' : (run policy os).past =
          early ++ y :: (rest ++ (c₁ ++ x :: c₂) ++ m :: after) := by
        rw [hpast, List.append_cons b₁, hsplit]
        simp
      obtain ⟨j, hj, check, limited⟩ := limited_of_timesOut hpast' out
      exact absurd (unlimited j hj check) limited

/-! ## A check that fails after a late reply -/

/-- The result of a check: one error in one document. -/
def complaint : Json :=
  .arr [.obj [("diagnostics", .arr [.obj [("message", .str "Undefined name."),
      ("range", .obj [("end", .obj [("character", Json.ofNat 8), ("line", Json.ofNat 0)]),
        ("start", .obj [("character", Json.ofNat 4), ("line", Json.ofNat 0)])])]]),
    ("uri", .str "a")]]

/-- A check runs out of time, another one is handed over, and then the reply to the first comes. -/
def lateReply : List Occasion :=
  [.draw, .draw, .input 0 (.started 0 (.ok ⟨0, none⟩)),
    .input 1 (.command (.submit { id := ⟨1⟩, request := .check none, timeout := some 2 })),
    .input 3 .deadline, .input 4 (.command (.submit { id := ⟨2⟩, request := .check none })),
    .input 5 (.frame 0 (.response ⟨1⟩ (.ok complaint)))]

/-- The worker fails the second check. -/
def refusal : Occasion :=
  .input 6 (.frame 0 (.response ⟨2⟩ (.error (.reported "Compiler exploded."))))

/-- No check has a time limit: the first is answered in time, and the second is handed over. -/
def timelyReply : List Occasion :=
  [.draw, .draw, .input 0 (.started 0 (.ok ⟨0, none⟩)),
    .input 1 (.command (.submit { id := ⟨1⟩, request := .check none })),
    .input 2 (.frame 0 (.response ⟨1⟩ (.ok complaint))),
    .input 3 (.command (.submit { id := ⟨2⟩, request := .check none }))]

/-- The failure of the second check is reported while the reports of the first are shown. Without
    the time limit nothing is shown then. -/
theorem failure_after_late_reply :
    ((Lawful {} (lateReply ++ [refusal]) ∧ (⟨2⟩, .check none) ∈ tasks (run {} lateReply).effects ∧
        Moment.effects ⟨(run {} lateReply).engine, refusal⟩ =
          .emit (.finished ⟨2⟩ .check false) :: Engine.proclaim .ready ∧
        (run {} lateReply).engine.documents.diagnostics ≠ []) ∧
      ∃ b₁ d c₁ x c₂ reports, (run {} lateReply).past = b₁ ++ d :: (c₁ ++ x :: c₂) ∧
        (⟨2⟩, .check none) ∈ tasks d.effects ∧ AppliedLate (b₁ ++ [d]) x reports ∧
        (run {} lateReply).engine.documents.diagnostics =
          TextMap.without (closings c₂) (reportMap reports)) ∧
    (∀ j ∈ (run {} (timelyReply ++ [refusal])).submitted, j.kind = .check → j.timeout = none) ∧
      (run {} timelyReply).engine.documents.diagnostics = [] := by
  have refused (os : List Occasion) : (run {} (os ++ [refusal])).past =
      (run {} os).past ++ ⟨(run {} os).engine, refusal⟩ :: [] := by
    rw [run_concat, past_extend]
  constructor
  · have lawful : Lawful {} (lateReply ++ [refusal]) := by decide
    have sent : (⟨2⟩, .check none) ∈ tasks (run {} lateReply).effects := by decide
    have failed : Moment.effects ⟨(run {} lateReply).engine, refusal⟩ =
        [] ++ .emit (.finished ⟨2⟩ .check false) :: Engine.proclaim .ready := rfl
    have shown : (run {} lateReply).engine.documents.diagnostics ≠ [] := by decide +kernel
    obtain ⟨-, ⟨b₁, d, b₂, hsplit, dispatched, late⟩, -⟩ :=
      failed_check_leaves_nothing_stale lawful (refused lateReply) sent failed
    obtain ⟨c₁, x, c₂, reports, rfl, applied, hshown⟩ := late.resolve_left shown
    exact ⟨⟨lawful, sent, failed, shown⟩, b₁, d, c₁, x, c₂, reports, hsplit, dispatched, applied,
      hshown⟩
  · have lawful : Lawful {} (timelyReply ++ [refusal]) := by decide
    have sent : (⟨2⟩, .check none) ∈ tasks (run {} timelyReply).effects := by decide
    have failed : Moment.effects ⟨(run {} timelyReply).engine, refusal⟩ =
        [] ++ .emit (.finished ⟨2⟩ .check false) :: Engine.proclaim .ready := rfl
    have unlimited : ∀ j ∈ (run {} (timelyReply ++ [refusal])).submitted,
        j.kind = .check → j.timeout = none := by decide
    obtain ⟨-, -, empty⟩ :=
      failed_check_leaves_nothing_stale lawful (refused timelyReply) sent failed
    exact ⟨unlimited, empty unlimited⟩

end History

end WorkerBridge
