/-
  WorkerBridge.Proofs.Checks

  The checks behind the reports.

  Reports that are applied answer a check that was handed over before, and that is
  in flight or has run out of time. The engine remembers the jobs that ran out of
  time, and nothing else (`run_remembered`). In a lawful run no job is handed over
  twice, and none that was handed over waits again (`lawful_handed_once`); so from
  its dispatch until it is retired a job is in flight (`in_flight`).
-/
import WorkerBridge.Proofs.Answers
import WorkerBridge.Proofs.Order
import WorkerBridge.Proofs.Retirement
import WorkerBridge.Proofs.Store

namespace WorkerBridge

/-- What stands behind a given element is cut where a part begins that does not have it. -/
theorem split_behind {α : Type} {front back early late : List α} {x : α}
    (h : front ++ x :: back = early ++ late) (hx : x ∉ late) :
    ∃ mid, early = front ++ x :: mid ∧ back = mid ++ late := by
  rcases List.append_eq_append_iff.1 h with ⟨mid, rfl, hlate⟩ | ⟨mid, rfl, rfl⟩
  · cases mid with
    | nil =>
      rw [List.nil_append] at hlate
      rw [← hlate] at hx
      exact absurd List.mem_cons_self hx
    | cons y mid =>
      obtain ⟨rfl, rfl⟩ := List.cons.inj hlate
      exact ⟨mid, rfl, rfl⟩
  · exact absurd (List.mem_append_right mid List.mem_cons_self) hx

/-! ## Jobs that ran out of time -/

theorem InFlight.mem_remember {abandoned : List (JobId × JobKind)} {f : Flight}
    {entry : JobId × JobKind} (h : entry ∈ InFlight.remember abandoned f) :
    entry ∈ abandoned ∨ entry = (f.job.id, f.job.kind) := by
  rcases List.mem_append.1 h with old | new
  · left
    split at old
    · exact List.mem_of_mem_drop old
    · exact old
  · exact Or.inr (List.mem_singleton.1 new)

theorem InFlight.mem_foldl_remember {flights : List Flight} {abandoned : List (JobId × JobKind)}
    {entry : JobId × JobKind} (h : entry ∈ flights.foldl InFlight.remember abandoned) :
    entry ∈ abandoned ∨ ∃ f ∈ flights, entry = (f.job.id, f.job.kind) := by
  induction flights generalizing abandoned with
  | nil => exact Or.inl h
  | cons f flights ih =>
    rcases ih h with old | ⟨g, hg, new⟩
    · rcases mem_remember old with older | new
      · exact Or.inl older
      · exact Or.inr ⟨f, List.mem_cons_self, new⟩
    · exact Or.inr ⟨g, List.mem_cons_of_mem _ hg, new⟩

namespace Engine

variable {now : Nat} {e : Engine} {input : Input} {t : Turn}

theorem dispatch_abandoned {entry : JobId × JobKind}
    (hentry : entry ∈ (dispatch now e).state.flights.abandoned)
    (up : e.lifecycle.isUp → e.worker.isSome) : entry ∈ e.flights.abandoned := by
  rcases dispatch_cases now e up with
    ⟨-, heq⟩ | ⟨-, -, -, heq⟩ | ⟨w, job, rest, -, -, -, -, hstate, -⟩
  · rwa [heq] at hentry
  · rwa [heq, setState_state] at hentry
  · rwa [hstate] at hentry

/-- A job that is remembered was remembered before, or its time was up in this turn. -/
theorem Reacts.abandoned_mem (r : Reacts now e input t) (h : e.Consistent)
    {entry : JobId × JobKind} (hentry : entry ∈ t.state.flights.abandoned) :
    entry ∈ e.flights.abandoned ∨ input = .deadline ∧
      ∃ f ∈ e.flights.live, f.isDue now ∧ entry = (f.job.id, f.job.kind) := by
  cases r with
  | ignored | shown => exact Or.inl hentry
  | submitted job =>
    rcases submit_cases now job e with ⟨-, heq⟩ | ⟨-, heq⟩
    · rw [heq] at hentry
      exact Or.inl hentry
    · rw [heq, Turn.andThen_state] at hentry
      have remembered := dispatch_abandoned hentry h.up
      exact Or.inl remembered
  | cancelled id =>
    rcases cancel_cases id e with ⟨before, job, after, -, -, heq⟩ | ⟨-, heq⟩
    · rw [heq] at hentry
      exact Or.inl hentry
    · rw [heq] at hentry
      exact Or.inl hentry
  | restarted =>
    rw [restart_state] at hentry
    cases hentry
  | shutDown caller =>
    rw [shutdown_state] at hentry
    cases hentry
  | heard incoming =>
    have received := dispatch_abandoned hentry (receive_unsettled incoming h).up
    exact Or.inl ((receive_abandoned incoming e).subset received)
  | lost reason =>
    rw [crash_state, scheduleRestart_live] at hentry
    cases hentry
  | expired =>
    rw [onDeadline_eq, Turn.andThen_state] at hentry
    have remembered := dispatch_abandoned hentry h.up
    refine (InFlight.mem_foldl_remember remembered).imp_right ?_
    rintro ⟨f, hf, same⟩
    obtain ⟨live, due⟩ := List.mem_filter.1 hf
    exact ⟨rfl, f, live, due, same⟩
  | due =>
    rw [beginStart_state] at hentry
    exact Or.inl hentry
  | started result =>
    cases result with
    | ok started =>
      rw [onStarted_ok, Turn.andThen_state] at hentry
      have remembered := dispatch_abandoned hentry fun _ => rfl
      exact Or.inl remembered
    | error fault =>
      rw [onStarted_error, Turn.andThen_state, scheduleRestart_live] at hentry
      exact Or.inl hentry

end Engine

/-- The time of a job in flight was up in the turn. -/
def Moment.TimesOut (m : Moment) (id : JobId) (kind : JobKind) : Prop :=
  ∃ now, m.occasion = .input now .deadline ∧
    ∃ f ∈ m.before.flights.live, f.job.id = id ∧ f.job.kind = kind ∧ f.isDue now

/-! ## Reports and their checks -/

namespace Moment

variable {m : Moment}

/-- Reports are applied when the worker answers to a check that is in flight, or that is not but is
    remembered. -/
theorem reports?_cases {reports : List Report} (h : m.reports? = some reports) :
    ∃ id, m.Hears id ∧ ((∃ f ∈ m.before.flights.live, f.job.id = id ∧ f.job.kind = .check) ∨
      ((∀ f ∈ m.before.flights.live, f.job.id ≠ id) ∧
        (id, .check) ∈ m.before.flights.abandoned)) := by
  rcases m with ⟨e, o⟩
  unfold reports? at h
  split at h
  · next now w incoming ho =>
    obtain rfl : o = _ := ho
    have current : e.worker = some w := by
      by_contra strange
      rw [if_neg strange] at h
      cases h
    rw [if_pos current] at h
    obtain ⟨kind, hkind, hreports⟩ := Option.bind_eq_some_iff.1 h
    obtain ⟨id, named, known⟩ := Option.bind_eq_some_iff.1 hkind
    -- Only the answer to a check brings reports.
    have check : kind = .check := by
      unfold Incoming.reports? at hreports
      split at hreports
      · by_contra other
        rw [if_neg other] at hreports
        cases hreports
      · cases hreports
    subst check
    refine ⟨id, ⟨current, named⟩, ?_⟩
    unfold InFlight.kind? at known
    cases hlive : e.flights.find? id with
    | some f =>
      rw [hlive] at known
      exact Or.inl ⟨f, List.mem_of_find?_eq_some hlive, by simpa using List.find?_some hlive,
        Option.some.inj known⟩
    | none =>
      rw [hlive] at known
      obtain ⟨entry, hentry, hcheck⟩ := Option.map_eq_some_iff.1 known
      have hid : entry.1 = id := by simpa using List.find?_some hentry
      refine Or.inr ⟨fun f hf => by simpa using List.find?_eq_none.1 hlive f hf, ?_⟩
      rw [← hid, ← hcheck]
      exact List.mem_of_find?_eq_some hentry
  · cases h

/-- What the engine takes on was submitted, or it is replayed. -/
theorem admitted_cases {j : Job} (hj : j ∈ m.admitted) : m.submitted? = some j ∨ j ∈ m.replays := by
  rcases m with ⟨e, o⟩
  cases o with
  | draw => cases hj
  | input now input =>
    cases input with
    | command c =>
      cases c with
      | submit job =>
        have taken : j ∈ if e.hasEnded then [] else [job] := hj
        split at taken
        · cases taken
        · rw [List.mem_singleton.1 taken]
          exact Or.inl rfl
      | cancel | restart | snapshot | shutdown => cases hj
    | started => exact Or.inr hj
    | frame | closed | deadline | restartDue => cases hj

end Moment

theorem mem_tasks {id : JobId} {r : Request} {effects : List Effect} :
    (id, r) ∈ tasks effects ↔ ∃ w, .send w id r ∈ effects := by
  rw [tasks, List.mem_map]
  constructor
  · rintro ⟨s, hs, same⟩
    cases same
    exact ⟨s.worker, mem_sends.1 hs⟩
  · rintro ⟨w, sent⟩
    exact ⟨⟨w, id, r⟩, mem_sends.2 sent, rfl⟩

theorem mem_tasks_flatMap {t : Task} {ms : List Moment} :
    t ∈ tasks (ms.flatMap (·.effects)) ↔ ∃ d ∈ ms, t ∈ tasks d.effects := by
  simp only [tasks, sends, List.filterMap_flatMap, List.map_flatMap, List.mem_flatMap]

namespace History

variable {policy : RestartPolicy} {os : List Occasion}

/-- Whatever the engine remembers has run out of time. -/
theorem run_remembered (policy : RestartPolicy) (os : List Occasion) :
    ∀ entry ∈ (run policy os).engine.flights.abandoned,
      ∃ m ∈ (run policy os).past, m.TimesOut entry.1 entry.2 := by
  induction os using List.reverseRecOn with
  | nil => exact fun entry hentry => nomatch hentry
  | append_singleton os o ih =>
    intro entry hentry
    rw [run_concat] at hentry ⊢
    have before : entry ∈ (run policy os).engine.flights.abandoned →
        ∃ m ∈ ((run policy os).extend o).past, m.TimesOut entry.1 entry.2 := by
      intro old
      obtain ⟨m, hm, out⟩ := ih entry old
      exact ⟨m, List.mem_append_left _ hm, out⟩
    cases o with
    | draw => exact before hentry
    | input now input =>
      rcases (Engine.step_reacts now _ input).abandoned_mem (run_consistent policy os) hentry with
        old | ⟨rfl, f, hf, due, rfl⟩
      · exact before old
      · exact ⟨⟨(run policy os).engine, .input now .deadline⟩,
          List.mem_append_right _ (List.mem_singleton_self _), now, rfl, f, hf, rfl, rfl, due⟩

/-- Whatever is in flight was handed over before. -/
theorem sent_of_live {f : Flight} (hf : f ∈ (run policy os).engine.flights.live) :
    ∃ d ∈ (run policy os).past, f.job.task ∈ tasks d.effects := by
  obtain ⟨⟨w, -, before, d, after, hpast, sent, -⟩, -⟩ := run_tracked policy os f hf
  exact ⟨d, by rw [hpast]; simp, mem_tasks.2 ⟨w, sent⟩⟩

/-- Reports are applied in answer to a check that was handed over before. -/
theorem sent_of_reports {before after : List Moment} {m : Moment}
    (hpast : (run policy os).past = before ++ m :: after) {reports : List Report}
    (hm : m.reports? = some reports) :
    ∃ t : Task, m.Hears t.1 ∧ t.2.kind = .check ∧ ∃ d ∈ before, t ∈ tasks d.effects := by
  obtain ⟨id, heard, known⟩ := Moment.reports?_cases hm
  obtain ⟨os₁, os₂, -, hbefore, hengine⟩ := run_split hpast
  rw [← hengine] at known
  rw [← hbefore]
  rcases known with ⟨f, hf, rfl, check⟩ | ⟨-, remembered⟩
  · exact ⟨f.job.task, heard, check, sent_of_live hf⟩
  · -- When its time was up the check was in flight.
    obtain ⟨y, hy, now, -, f, hf, rfl, check, -⟩ := run_remembered policy os₁ _ remembered
    obtain ⟨front, back, hsplit⟩ := List.append_of_mem hy
    obtain ⟨os₃, os₄, -, hfront, hflying⟩ := run_split hsplit
    rw [← hflying] at hf
    obtain ⟨d, hd, sent⟩ := sent_of_live hf
    refine ⟨f.job.task, heard, check, d, ?_, sent⟩
    rw [hsplit, ← hfront]
    exact List.mem_append_left _ hd

/-! ## Every job is handed over once -/

theorem lineUp_perm (e : Engine) (input : Input) :
    (e.lineUp input).Perm (e.queue.jobs ++ e.admits input) := by
  unfold Engine.lineUp
  split
  · exact List.perm_append_comm
  · exact List.Perm.refl _

/-- **Handed over once.** In a lawful run what was handed over and what waits are jobs that the
    engine has taken on, no two of them with one identity. -/
theorem lawful_handed_once (lawful : Lawful policy os) :
    (((tasks (run policy os).effects ++ (run policy os).engine.waiting).map Prod.fst).Nodup) ∧
      ∀ t ∈ tasks (run policy os).effects ++ (run policy os).engine.waiting,
        ∃ j ∈ (run policy os).admitted, j.task = t := by
  induction os using List.reverseRecOn with
  | nil => exact ⟨List.nodup_nil, fun t ht => nomatch ht⟩
  | append_singleton os o ih =>
    obtain ⟨nodup, taken⟩ := ih lawful.take
    have ids := (lawful_orderly lawful).ids
    rw [run_concat] at ids ⊢
    cases o with
    | draw =>
      have heffects : ((run policy os).extend .draw).effects = (run policy os).effects := by
        rw [effects_extend]
        exact List.append_nil _
      have hadmitted : ((run policy os).extend .draw).admitted = (run policy os).admitted := by
        simp [Moment.admitted]
      rw [heffects, hadmitted]
      exact ⟨nodup, taken⟩
    | input now input =>
      have line := (Engine.step_reacts now (run policy os).engine input).line
        (run_consistent policy os)
      have joined := (lineUp_perm (run policy os).engine input).map Job.task
      rw [admitted_extend, List.map_append] at ids
      rw [effects_extend, tasks_append, List.append_assoc, admitted_extend]
      -- What was handed over so far stays ahead of the line.
      have ahead := line.append_left (tasks (run policy os).effects)
      have all := joined.append_left (tasks (run policy os).effects)
      rw [List.map_append, ← List.append_assoc] at all
      constructor
      · refine (ahead.map Prod.fst).nodup ?_
        rw [(all.map Prod.fst).nodup_iff, List.map_append, map_fst_task, List.nodup_append]
        refine ⟨nodup, (List.nodup_append.1 ids).2.1, ?_⟩
        rintro a ha b hb rfl
        obtain ⟨t, ht, rfl⟩ := List.mem_map.1 ha
        obtain ⟨j, hj, rfl⟩ := taken t ht
        exact (List.nodup_append.1 ids).2.2 j.id (List.mem_map_of_mem hj) j.id hb rfl
      · intro t ht
        rcases List.mem_append.1 (all.subset (ahead.subset ht)) with old | new
        · obtain ⟨j, hj, same⟩ := taken t old
          exact ⟨j, List.mem_append_left _ hj, same⟩
        · obtain ⟨j, hj, same⟩ := List.mem_map.1 new
          exact ⟨j, List.mem_append_right _ hj, same⟩

theorem admitted_cases {h : History} {j : Job} (hj : j ∈ h.admitted) :
    j ∈ h.submitted ∨ j ∈ h.replays := by
  obtain ⟨m, hm, hj⟩ := List.mem_flatMap.1 hj
  rcases Moment.admitted_cases hj with submitted | replayed
  · exact Or.inl (List.mem_filterMap.2 ⟨m, hm, submitted⟩)
  · exact Or.inr (List.mem_flatMap.2 ⟨m, hm, replayed⟩)

/-- A job that was handed over was taken on. -/
theorem admitted_of_tasks (lawful : Lawful policy os) {t : Task}
    (sent : t ∈ tasks (run policy os).effects) : ∃ j ∈ (run policy os).admitted, j.task = t :=
  (lawful_handed_once lawful).2 t (List.mem_append_left _ sent)

/-- Under one identity one request is handed over. -/
theorem request_of_tasks (lawful : Lawful policy os) {id : JobId} {r r' : Request}
    (sent : (id, r) ∈ tasks (run policy os).effects)
    (sent' : (id, r') ∈ tasks (run policy os).effects) : r = r' := by
  have nodup := (lawful_handed_once lawful).1
  rw [List.map_append] at nodup
  have same := List.inj_on_of_nodup_map (List.nodup_append.1 nodup).1 sent sent' rfl
  exact congrArg Prod.snd same

/-! ## From the dispatch to the report -/

/-- A job that was taken on is held, or it was reported, and never both or twice. -/
theorem held_or_reported (lawful : Lawful policy os) {j : Job} (hj : j ∈ (run policy os).admitted) :
    (run policy os).engine.owes (.report j.id) +
      settled (.report j.id) (run policy os).effects = 1 := by
  have balanced := run_balanced policy os (.report j.id)
  have once := (lawful_orderly lawful).countP_le (.report j.id)
  have taken := countP_report_pos.2 ⟨j, hj, rfl⟩
  omega

/-- A job that was handed over and not reported yet is in flight. -/
theorem in_flight (lawful : Lawful policy os) {t : Task}
    (sent : t ∈ tasks (run policy os).effects)
    (unreported : settled (.report t.1) (run policy os).effects = 0) :
    ∃ f ∈ (run policy os).engine.flights.live, f.job.id = t.1 := by
  obtain ⟨j, hj, rfl⟩ := admitted_of_tasks lawful sent
  have held : (run policy os).engine.owes (.report j.id) + settled (.report j.task.1) _ = 1 :=
    held_or_reported lawful hj
  have owed : 0 < (run policy os).engine.owes (.report j.id) := by omega
  rcases Engine.owes_pos.1 owed with ⟨k, hk, hid⟩ | ⟨f, hf, hid⟩
  · -- What was handed over does not wait again.
    have same : k.id = j.id := of_decide_eq_true hid
    have handed : j.id ∈ (tasks (run policy os).effects).map Prod.fst := List.mem_map_of_mem sent
    have waits : k.id ∈ (run policy os).engine.waiting.map Prod.fst := by
      rw [Engine.waiting, map_fst_task]
      exact List.mem_map_of_mem hk
    have nodup := (lawful_handed_once lawful).1
    rw [List.map_append] at nodup
    exact absurd same.symm ((List.nodup_append.1 nodup).2.2 j.id handed k.id waits)
  · exact ⟨f, hf, of_decide_eq_true hid⟩

end History

end WorkerBridge
