/-
  WorkerBridge.Proofs.Store

  What is shown for the documents, over a whole run.

  Three things change it: a request that closes a document, the reports of a
  check, and the dispatch of a check. `Reacts.undergoes` says of every turn which
  of them it brings and in which order, and that all that it tells the editor
  about what is shown comes from them. So what is shown at any time is what one
  check has reported, the last that was answered with reports, less the
  documents that were closed since (`shown_cases`); and from the dispatch of a
  check until the next reports nothing is shown.
-/
import WorkerBridge.Proofs.Line
import WorkerBridge.Proofs.Reports

namespace WorkerBridge

/-- The document that a request closes. -/
def Request.closes? : Request → Option String
  | .remUri uri => some uri
  | _ => none

/-! ## Changes -/

/-- Something that happens to the documents. -/
inductive Change where
  /-- They follow a submitted request. -/
  | followed (r : Request)
  /-- A check has brought its reports. -/
  | reported (reports : List Report)
  /-- A check is handed to the worker. -/
  | checking

/-- What is shown after a change, in terms of what was shown before it. -/
def Change.leaves (m : TextMap (List Diagnostic)) : Change → TextMap (List Diagnostic)
  | .followed r => TextMap.without r.closes?.toList m
  | .reported reports => reportMap reports
  | .checking => []

namespace Documents

/-- What the editor hears of a change, and the documents after it. -/
def undergo (d : Documents) : Change → List Event × Documents
  | .followed r => d.follow r
  | .reported reports => d.install reports
  | .checking => d.clear

/-- What the editor hears of several changes, and the documents after them. -/
def undergoAll (d : Documents) : List Change → List Event × Documents
  | [] => ([], d)
  | c :: cs =>
    let (events, d) := d.undergo c
    (events ++ (d.undergoAll cs).1, (d.undergoAll cs).2)

theorem undergoAll_append (d : Documents) (cs cs' : List Change) :
    d.undergoAll (cs ++ cs') =
      ((d.undergoAll cs).1 ++ ((d.undergoAll cs).2.undergoAll cs').1,
        ((d.undergoAll cs).2.undergoAll cs').2) := by
  induction cs generalizing d with
  | nil => rfl
  | cons c cs ih => simp only [List.cons_append, undergoAll, ih, List.append_assoc]

theorem undergoAll_singleton (d : Documents) (c : Change) : d.undergoAll [c] = d.undergo c := by
  simp only [undergoAll, List.append_nil]

theorem undergo_diagnostics (d : Documents) (c : Change) :
    (d.undergo c).2.diagnostics = c.leaves d.diagnostics := by
  cases c with
  | followed r =>
    cases r with
    | remUri uri =>
      show TextMap.erase uri d.diagnostics = TextMap.without [uri] d.diagnostics
      rw [← TextMap.foldl_erase, List.foldl_cons, List.foldl_nil]
    | addUri | check | goto | hover | uses | codelens | runMain | runTests | runBenchmarks
    | version | shutdown => exact (TextMap.without_nil d.diagnostics).symm
  | reported reports => exact d.install_diagnostics reports
  | checking => rfl

theorem undergoAll_diagnostics (d : Documents) (cs : List Change) :
    (d.undergoAll cs).2.diagnostics = cs.foldl Change.leaves d.diagnostics := by
  induction cs generalizing d with
  | nil => rfl
  | cons c cs ih => rw [undergoAll, ih, undergo_diagnostics, List.foldl_cons]

end Documents

/-! ## What the editor hears about what is shown -/

/-- What an effect tells the editor about what is shown. -/
def Effect.shown? : Effect → Option Event
  | .emit event => if event.isDiagnostic then some event else none
  | _ => none

/-- What the effects tell the editor about what is shown, in order. -/
def shows (effects : List Effect) : List Event :=
  effects.filterMap Effect.shown?

@[simp] theorem shows_append (xs ys : List Effect) : shows (xs ++ ys) = shows xs ++ shows ys :=
  List.filterMap_append

theorem shows_of_aside {effects : List Effect} (h : Aside effects) : shows effects = [] := by
  refine List.filterMap_eq_nil_iff.2 fun x hx => ?_
  have aside := h x hx
  cases x with
  | emit event =>
    have other : ¬ event.isDiagnostic = true := by
      simpa [Effect.isAside] using aside
    exact if_neg other
  | display | send | tell | exhibit | abandon | retire | retireAndWait | start | abortStart
  | dismiss => rfl

theorem shows_announce {events : List Event} (h : ∀ x ∈ events, x.isDiagnostic) :
    shows (Engine.announce events) = events := by
  rw [shows, Engine.announce, List.filterMap_map]
  refine (List.filterMap_congr fun x hx => ?_).trans List.filterMap_some
  exact if_pos (h x hx)

/-! ## Turns -/

/-- Whether a check is handed over. -/
def beginsCheck (effects : List Effect) : Bool :=
  (sends effects).any (·.request.kind = .check)

/-- What the dispatches among the effects change in the documents. -/
def checkings (effects : List Effect) : List Change :=
  if beginsCheck effects then [.checking] else []

theorem checkings_of_sends_eq_nil {effects : List Effect} (h : sends effects = []) :
    checkings effects = [] := by
  rw [checkings, beginsCheck, h]
  rfl

namespace Engine

/-- What an input brings upon the documents, before anything is dispatched. -/
def brings (e : Engine) : Input → List Change
  | .command (.submit job) => if e.hasEnded then [] else [.followed job.request]
  | .frame w incoming =>
    if e.worker = some w then ((e.reports? incoming).map .reported).toList else []
  | _ => []

/-- A turn takes the documents through changes, and tells the editor of them. -/
structure Undergoes (e : Engine) (changes : List Change) (t : Turn) : Prop where
  documents : t.state.documents = (e.documents.undergoAll changes).2
  events : shows t.effects = (e.documents.undergoAll changes).1

variable {now : Nat} {e : Engine} {input : Input} {t : Turn}

theorem Undergoes.andThen {cs cs' : List Change} {f : Engine → Turn} (first : Undergoes e cs t)
    (second : Undergoes t.state cs' (f t.state)) : Undergoes e (cs ++ cs') (t.andThen f) := by
  have hdocuments := second.documents
  have hevents := second.events
  rw [first.documents] at hdocuments hevents
  constructor
  · rw [Turn.andThen_state, Documents.undergoAll_append, hdocuments]
  · rw [Turn.andThen_effects, shows_append, Documents.undergoAll_append, first.events, hevents]

/-- A turn that leaves the documents alone, and says nothing about what is shown. -/
theorem Undergoes.aside (same : t.state.documents = e.documents) (aside : Aside t.effects) :
    Undergoes e (checkings t.effects) t := by
  rw [checkings_of_sends_eq_nil (sends_of_aside aside)]
  exact ⟨same, shows_of_aside aside⟩

/-- A dispatch clears the documents exactly if it hands over a check. -/
theorem dispatch_undergoes (now : Nat) {e : Engine} (up : e.lifecycle.isUp → e.worker.isSome) :
    Undergoes e (checkings (dispatch now e).effects) (dispatch now e) := by
  rcases dispatch_cases now e up with
    ⟨-, heq⟩ | ⟨-, -, -, heq⟩ | ⟨w, job, rest, -, -, -, -, hstate, heffects⟩
  · rw [heq]
    exact .aside rfl aside_nil
  · rw [heq]
    exact .aside (by rw [setState_state]) (aside_setState _ _)
  · have sent : sends (dispatch now e).effects = [handed w job] := by
      rw [heffects, sends_append, sends_append, sends_announce,
        sends_of_aside (aside_state Lifecycle.busy e.lifecycle)]
      rfl
    have told : shows (dispatch now e).effects = (e.documentsAt job).1 := by
      rw [heffects, shows_append, shows_append, shows_announce (e.documentsAt_isDiagnostic job),
        shows_of_aside (aside_state Lifecycle.busy e.lifecycle)]
      exact List.append_nil _
    have changed : e.documentsAt job =
        e.documents.undergoAll (checkings (dispatch now e).effects) := by
      rw [checkings, beginsCheck, sent, documentsAt]
      by_cases check : job.kind = .check
      · have begun : [handed w job].any (·.request.kind = .check) = true := by
          simpa [handed, Job.kind] using check
        rw [if_pos check, if_pos begun, Documents.undergoAll_singleton]
        rfl
      · have other : ¬ [handed w job].any (·.request.kind = .check) = true := by
          simpa [handed, Job.kind] using check
        rw [if_neg check, if_neg other]
        rfl
    constructor
    · rw [hstate, ← changed]
      rfl
    · rw [told, changed]

/-- In a turn that ends in a dispatch, the dispatch comes behind the other changes. -/
theorem Undergoes.thenDispatch {cs : List Change} {first : Turn} (h : Undergoes e cs first)
    (silent : sends first.effects = [])
    (up : first.state.lifecycle.isUp → first.state.worker.isSome) :
    Undergoes e (cs ++ checkings (first.andThen (dispatch now)).effects)
      (first.andThen (dispatch now)) := by
  have last : checkings (first.andThen (dispatch now)).effects =
      checkings (dispatch now first.state).effects := by
    rw [checkings, beginsCheck, Turn.andThen_effects, sends_append, silent, List.nil_append]
    rfl
  rw [last]
  exact h.andThen (dispatch_undergoes now up)

/-- The documents follow a submitted request before the job is refused or waits. -/
theorem submit_undergoes (now : Nat) (job : Job) (h : e.Consistent) :
    Undergoes e ([.followed job.request] ++ checkings (submit now job e).effects)
      (submit now job e) := by
  have followed := shows_announce (e.documents.follow_isDiagnostic job.request)
  rcases submit_cases now job e with ⟨-, heq⟩ | ⟨-, heq⟩
  · have silent : sends (submit now job e).effects = [] := by
      rw [heq, sends_append, sends_announce, sends_finish]
      rfl
    rw [checkings_of_sends_eq_nil silent, List.append_nil, heq]
    constructor
    · rw [Documents.undergoAll_singleton]
      rfl
    · rw [Documents.undergoAll_singleton, shows_append, followed,
        shows_of_aside (aside_finish job _), List.append_nil]
      rfl
  · rw [heq]
    refine Undergoes.thenDispatch ⟨?_, ?_⟩ (sends_announce _) h.up
    · rw [Documents.undergoAll_singleton]
      rfl
    · rw [Documents.undergoAll_singleton, followed]
      rfl

/-- A frame installs the reports that it brings, and tells of nothing else that is shown. -/
theorem receive_undergoes (incoming : Incoming) (e : Engine) :
    Undergoes e ((e.reports? incoming).map Change.reported).toList (receive incoming e) := by
  have adopted : e.documents.adopt (e.reports? incoming) =
      e.documents.undergoAll ((e.reports? incoming).map Change.reported).toList := by
    cases e.reports? incoming with
    | none => rfl
    | some reports => exact (e.documents.undergoAll_singleton (.reported reports)).symm
  have diagnostic := e.documents.adopt_isDiagnostic (e.reports? incoming)
  obtain ⟨hdocuments, heffects⟩ := receive_store incoming e
  refine ⟨hdocuments.trans (congrArg Prod.snd adopted), ?_⟩
  rw [← adopted]
  rcases heffects with ⟨f, -, -, heffects⟩ | heffects
  · rw [heffects, shows_append, shows_announce diagnostic, shows_of_aside (aside_finish f.job _),
      List.append_nil]
  · rw [heffects, shows_announce diagnostic]

theorem brings_of_ignores (h : e.Consistent) (hi : e.Ignores now input) : e.brings input = [] := by
  cases input with
  | command c =>
    have ended := e.hasEnded_iff.2 hi
    cases c <;> simp [brings, ended]
  | frame w incoming =>
    -- After the shutdown there is no worker whose frame could be heard.
    have strange : e.worker ≠ some w := by
      rcases hi with stopped | strange
      · simp [h.no_worker (by simp [stopped]) (by simp [stopped])]
      · exact strange
    exact if_neg strange
  | closed | deadline | restartDue | started => rfl

/-- **What can happen to what is shown.** A turn takes the documents through what its input brings
    and then, if it hands over a check, through the dispatch of the check; and it tells the editor
    of exactly these changes. -/
theorem Reacts.undergoes (r : Reacts now e input t) (h : e.Consistent) :
    Undergoes e (e.brings input ++ checkings t.effects) t := by
  cases r with
  | ignored hi =>
    rw [brings_of_ignores h hi]
    exact Undergoes.aside (t := e.idle) rfl aside_nil
  | submitted job alive =>
    have brought : e.brings (.command (.submit job)) = [.followed job.request] := by
      simp [brings, hasEnded, alive]
    rw [brought]
    exact submit_undergoes now job h
  | cancelled id =>
    obtain ⟨_, _, hstate⟩ := cancel_frame id e
    exact .aside (by rw [hstate]) (aside_cancel id e)
  | restarted => exact .aside (by rw [restart_state]) (aside_restart e)
  | shown caller =>
    have exhibited : Aside [.exhibit caller e.documents.snapshot] := by simp [Effect.isAside]
    exact Undergoes.aside (t := e.doing [.exhibit caller e.documents.snapshot]) rfl exhibited
  | shutDown caller => exact .aside (by rw [shutdown_state]) (aside_shutdown caller e)
  | @heard w incoming alive current =>
    have brought : e.brings (.frame w incoming) =
        ((e.reports? incoming).map Change.reported).toList := if_pos current
    rw [brought]
    exact (receive_undergoes incoming e).thenDispatch (sends_receive incoming e)
      (receive_unsettled incoming h).up
  | lost reason =>
    obtain ⟨_, _, _, _, hstate⟩ := scheduleRestart_frame now
      { e with worker := none, flights := {}, queue := {}, replayOnReady := true }
    exact .aside (by rw [crash_state, hstate]) (aside_crash now reason e)
  | expired =>
    rw [onDeadline_eq]
    have silent := aside_finish_flights
      (fun f => .error (.timeout f.job.id (f.elapsed now))) (e.flights.live.filter (·.isDue now))
    have first : Undergoes e [] ⟨e.expired now, _⟩ := ⟨rfl, shows_of_aside silent⟩
    exact first.thenDispatch (sends_of_aside silent) h.up
  | due => exact .aside (by rw [beginStart_state]) (aside_beginStart e)
  | started result =>
    cases result with
    | ok started =>
      rw [onStarted_ok]
      have silent := aside_greeting started e
      have first : Undergoes e [] ⟨e.welcome started, _⟩ := ⟨rfl, shows_of_aside silent⟩
      exact first.thenDispatch (sends_of_aside silent) fun _ => rfl
    | error fault =>
      obtain ⟨_, _, _, _, hstate⟩ := scheduleRestart_frame now
        { e with startup := none, queue := {} }
      refine .aside ?_ (aside_onStarted_error now fault e)
      rw [onStarted_error, Turn.andThen_state, hstate]

end Engine

/-! ## Moments -/

namespace Moment

/-- The reports that were applied in the turn. The present worker has answered with them to a check
    in flight, or to one that had run out of time and is remembered. -/
def reports? (m : Moment) : Option (List Report) :=
  match m.occasion with
  | .input _ (.frame w incoming) =>
    if m.before.worker = some w then m.before.reports? incoming else none
  | _ => none

/-- The document that was closed in the turn. -/
def closes? (m : Moment) : Option String :=
  match m.occasion with
  | .input _ (.command (.submit job)) => if m.before.hasEnded then none else job.request.closes?
  | _ => none

/-- Whether a check was handed over in the turn. -/
def checks (m : Moment) : Bool :=
  beginsCheck m.effects

/-- What the turn took the documents through. -/
def changes (m : Moment) : List Change :=
  match m.occasion with
  | .draw => []
  | .input _ input => m.before.brings input ++ checkings m.effects

variable {m : Moment}

theorem undergoes (h : m.before.Consistent) : m.before.Undergoes m.changes m.turn := by
  rcases m with ⟨e, o⟩
  cases o with
  | draw => exact ⟨rfl, rfl⟩
  | input now input => exact (Engine.step_reacts now e input).undergoes h

/-- What an input brings upon what is shown: reports take its place, and a closed document goes. -/
theorem foldl_brings (e : Engine) (now : Nat) (input : Input)
    (shown : TextMap (List Diagnostic)) :
    (e.brings input).foldl Change.leaves shown =
      match reports? ⟨e, .input now input⟩ with
      | some reports => reportMap reports
      | none => TextMap.without (closes? ⟨e, .input now input⟩).toList shown := by
  have unchanged : shown = TextMap.without [] shown := (TextMap.without_nil shown).symm
  cases input with
  | command c =>
    cases c with
    | submit job =>
      cases ended : e.hasEnded with
      | true =>
        simp only [Engine.brings, reports?, closes?, ended, if_true]
        exact unchanged
      | false => simp [Engine.brings, reports?, closes?, ended, Change.leaves]
    | cancel | restart | snapshot | shutdown => exact unchanged
  | frame w incoming =>
    simp only [Engine.brings, reports?, closes?]
    by_cases current : e.worker = some w
    · rw [if_pos current, if_pos current]
      cases e.reports? incoming with
      | some reports => rfl
      | none => exact unchanged
    · rw [if_neg current, if_neg current]
      exact unchanged
  | closed | deadline | restartDue | started => exact unchanged

/-- **What is shown after a turn.** Nothing, if a check was handed over in it; the reports, if any
    were applied; and else what was shown before, less the document that was closed. -/
theorem shown_after (h : m.before.Consistent) :
    m.after.documents.diagnostics =
      if m.checks then []
      else match m.reports? with
        | some reports => reportMap reports
        | none => TextMap.without m.closes?.toList m.before.documents.diagnostics := by
  have changed : m.after.documents.diagnostics =
      m.changes.foldl Change.leaves m.before.documents.diagnostics := by
    rw [← Documents.undergoAll_diagnostics]
    exact congrArg Documents.diagnostics (undergoes h).documents
  rw [changed]
  rcases m with ⟨e, o⟩
  cases o with
  | draw => exact (TextMap.without_nil _).symm
  | input now input =>
    rw [changes, List.foldl_append, foldl_brings e now input, checkings]
    by_cases check : beginsCheck (effects ⟨e, .input now input⟩) = true
    · rw [if_pos check, checks, if_pos check]
      rfl
    · rw [if_neg check, checks, if_neg check]
      rfl

end Moment

namespace History

/-! ## Runs -/

/-- The documents that were closed in the given moments, in order. -/
def closings (ms : List Moment) : List String :=
  ms.filterMap (·.closes?)

theorem closings_concat (since : List Moment) (x : Moment) :
    closings (since ++ [x]) = closings since ++ x.closes?.toList := by
  cases hx : x.closes? <;> simp [closings, hx]

/-- What is shown after some turns without new reports. -/
theorem shown_since {policy : RestartPolicy} {os : List Occasion} {before after : List Moment}
    {m : Moment} (hpast : (run policy os).past = before ++ m :: after)
    (quiet : ∀ x ∈ after, x.reports? = none) :
    (run policy os).engine.documents.diagnostics =
      if after.any (·.checks) then []
      else TextMap.without (closings after) m.after.documents.diagnostics := by
  refine run_since (P := fun since e => e.documents.diagnostics =
    if since.any (·.checks) then []
    else TextMap.without (closings since) m.after.documents.diagnostics) hpast ?_ ?_
  · exact (TextMap.without_nil _).symm
  · intro since x hx consistent earlier
    rw [Moment.shown_after consistent, quiet x hx, earlier, closings_concat, List.any_append]
    cases later : x.checks with
    | true => simp [later]
    | false =>
      by_cases begun : since.any (·.checks) = true
      · simp [begun, later, TextMap.without]
      · simp [begun, later, TextMap.without_without]

/-- The last reports that were applied in the past, and the moments since then. No check was handed
    over from then on. -/
structure LastApplied (past since : List Moment) (reports : List Report) : Prop where
  applied : ∃ before m, past = before ++ m :: since ∧ m.reports? = some reports ∧ m.checks = false
  others : ∀ x ∈ since, x.reports? = none ∧ x.checks = false

theorem LastApplied.now {past : List Moment} {x : Moment} {reports : List Report}
    (hx : x.reports? = some reports) (unchecked : x.checks = false) :
    LastApplied (past ++ [x]) [] reports :=
  ⟨⟨past, x, rfl, hx, unchecked⟩, fun _ hy => nomatch hy⟩

theorem LastApplied.later {past since : List Moment} {x : Moment} {reports : List Report}
    (h : LastApplied past since reports) (quiet : x.reports? = none)
    (unchecked : x.checks = false) :
    LastApplied (past ++ [x]) (since ++ [x]) reports := by
  obtain ⟨⟨before, m, rfl, hm, hchecks⟩, others⟩ := h
  refine ⟨⟨before, m, by simp, hm, hchecks⟩, ?_⟩
  intro y hy
  rcases List.mem_append.1 hy with hy | hy
  · exact others y hy
  · rw [List.mem_singleton.1 hy]
    exact ⟨quiet, unchecked⟩

/-- What is shown is the map of the last reports, less the documents that were closed since. -/
def ShownFrom (past : List Moment) (shown : TextMap (List Diagnostic)) : Prop :=
  ∃ since reports, LastApplied past since reports ∧
    shown = TextMap.without (closings since) (reportMap reports)

/-- One turn more: what is shown is from the last reports still, or from new ones, or there is
    nothing to show. -/
theorem shownFrom_concat {past : List Moment} {x : Moment} (consistent : x.before.Consistent)
    (earlier : x.before.documents.diagnostics = [] ∨
      ShownFrom past x.before.documents.diagnostics) :
    x.after.documents.diagnostics = [] ∨
      ShownFrom (past ++ [x]) x.after.documents.diagnostics := by
  rw [Moment.shown_after consistent]
  cases unchecked : x.checks with
  | true => exact Or.inl rfl
  | false =>
    cases hx : x.reports? with
    | some reports =>
      exact Or.inr ⟨[], reports, .now hx unchecked, (TextMap.without_nil _).symm⟩
    | none =>
      rcases earlier with empty | ⟨since, reports, last, shown⟩
      · rw [empty]
        exact Or.inl rfl
      · -- One more document may have been closed.
        refine Or.inr ⟨since ++ [x], reports, last.later hx unchecked, ?_⟩
        rw [shown, closings_concat, ← TextMap.without_without]
        rfl

/-- **Where what is shown comes from.** If anything is shown, it is from the last reports that were
    applied, and no check was handed over since. -/
theorem shown_cases (policy : RestartPolicy) (os : List Occasion) :
    (run policy os).engine.documents.diagnostics = [] ∨
      ShownFrom (run policy os).past (run policy os).engine.documents.diagnostics := by
  induction os using List.reverseRecOn with
  | nil => exact Or.inl rfl
  | append_singleton os o ih =>
    rw [run_concat]
    exact shownFrom_concat (x := ⟨(run policy os).engine, o⟩) (run_consistent policy os) ih

theorem run_shown_sorted (policy : RestartPolicy) (os : List Occasion) :
    (run policy os).engine.documents.diagnostics.Sorted := by
  rcases shown_cases policy os with empty | ⟨since, reports, -, shown⟩
  · rw [empty]
    exact List.Pairwise.nil
  · rw [shown]
    exact (sorted_reportMap reports).without _

/-- **Diagnostics come from one check only.** After every turn of every run either nothing is shown,
    or what is shown is the map of the reports that were applied last, in answer to a check in
    flight or to one that had run out of time, less the documents that were closed since; and no
    check was handed over since. From the dispatch of a check until reports are applied nothing is
    shown. And whatever reports were applied last, with no check handed over since, are shown in
    this way. -/
theorem diagnostics_from_one_check (policy : RestartPolicy) (os : List Occasion) :
    let h := run policy os
    (h.engine.documents.diagnostics = [] ∨
      ∃ since reports, LastApplied h.past since reports ∧
        h.engine.documents.diagnostics =
          TextMap.without (closings since) (reportMap reports)) ∧
    (∀ before m since, h.past = before ++ m :: since → m.checks →
      (∀ x ∈ since, x.reports? = none) → h.engine.documents.diagnostics = []) ∧
    (∀ since reports, LastApplied h.past since reports →
      h.engine.documents.diagnostics =
        TextMap.without (closings since) (reportMap reports)) := by
  intro h
  refine ⟨shown_cases policy os, ?_, ?_⟩
  · intro before m since hpast check quiet
    have cleared : m.after.documents.diagnostics = [] := by
      rw [Moment.shown_after (consistent_of_past hpast), if_pos check]
    have shown : h.engine.documents.diagnostics = _ := shown_since hpast quiet
    rw [shown, cleared]
    split <;> rfl
  · rintro since reports ⟨⟨before, m, hpast, hm, unchecked⟩, others⟩
    have applied : m.after.documents.diagnostics = reportMap reports := by
      rw [Moment.shown_after (consistent_of_past hpast), unchecked, hm]
      rfl
    have none : since.any (·.checks) = false := by
      rw [List.any_eq_false]
      intro x hx
      rw [(others x hx).2]
      exact Bool.false_ne_true
    have shown : h.engine.documents.diagnostics = _ :=
      shown_since hpast fun x hx => (others x hx).1
    rw [shown, none, applied]
    rfl

end History

end WorkerBridge
