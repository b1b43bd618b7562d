/-
  WorkerBridge.Proofs.Closing

  What is shown for a document after it was closed.

  Closing a document drops what is shown for it at once, but the worker hears of
  it later, when the job has had its turn. A check that the worker gets before
  that may still report on the document. `departed_before` says which checks these
  are: one that was submitted after the document was closed never goes ahead of
  the job that closes it, so only checks from before, and replayed ones, can.
-/
import WorkerBridge.Proofs.FailedCheck

namespace WorkerBridge

/-- Of two cuts through a list, one is behind the other if an element stands between them. -/
theorem cut_behind {α : Type} {front mid early rest : List α} {m d s : α}
    (h : front ++ m :: mid = early ++ d :: rest) (hs : s ∈ early ++ [d]) (behind : s ∉ front)
    (other : s ≠ m) : ∃ between, early = front ++ m :: between ∧ s ∈ between ++ [d] := by
  rcases List.append_eq_append_iff.1 h with ⟨c, rfl, hc⟩ | ⟨c, rfl, hc⟩
  · cases c with
    | nil =>
      obtain ⟨rfl, -⟩ := List.cons.inj hc
      simp [behind, other] at hs
    | cons y between =>
      obtain ⟨rfl, -⟩ := List.cons.inj hc
      exact ⟨between, rfl, by simpa [behind, other] using hs⟩
  · -- The first cut is behind the second, and the element would stand before both.
    cases c with
    | nil =>
      obtain ⟨rfl, -⟩ := List.cons.inj hc
      simp only [List.append_nil] at behind
      simp [behind, other] at hs
    | cons y between =>
      obtain ⟨rfl, -⟩ := List.cons.inj hc
      refine absurd ?_ behind
      rw [List.append_cons]
      exact List.mem_append_left _ hs

namespace Moment

variable {m : Moment}

/-- A turn that hands something over drops nothing of what waits. -/
theorem waits_on (h : m.before.Consistent) {t u : Task} (sent : t ∈ tasks m.effects)
    (waits : u ∈ m.before.waiting) : u = t ∨ u ∈ m.after.waiting := by
  have one : tasks m.effects = [t] := by
    obtain ⟨s, hs, rfl⟩ := List.mem_map.1 sent
    rw [tasks, (sends_of_mem h hs).1]
    rfl
  rcases m with ⟨e, o⟩
  cases o with
  | draw => cases sent
  | input now input =>
    have loud : sends (e.step now input).effects ≠ [] := by
      intro silent
      have none : tasks (effects ⟨e, .input now input⟩) = [] := tasks_of_sends_eq_nil silent
      rw [none] at sent
      cases sent
    cases (Engine.step_reacts now e input).moves h with
    | kept _ _ same =>
      have kept := ((e.queue_sublist_lineUp input).map Job.task).subset waits
      rw [← same, show tasks (e.step now input).effects = [t] from one] at kept
      exact List.mem_cons.1 kept
    | withdrawn _ _ _ _ _ _ silent => exact absurd silent loud
    | dropped _ _ _ silent => exact absurd silent loud

theorem closes?_cases {uri : String} (h : m.closes? = some uri) :
    ∃ now job, m.occasion = .input now (.command (.submit job)) ∧ job.request = .remUri uri ∧
      m.before.hasEnded = false := by
  unfold closes? at h
  split at h
  · next now job ho =>
    refine ⟨now, job, ho, ?_⟩
    cases ended : m.before.hasEnded with
    | true =>
      rw [ended] at h
      cases h
    | false =>
      rw [ended] at h
      cases hr : job.request with
      | remUri named =>
        rw [hr] at h
        cases h
        exact ⟨rfl, rfl⟩
      | addUri | check | goto | hover | uses | codelens | runMain | runTests | runBenchmarks
      | version | shutdown =>
        rw [hr] at h
        cases h
  · cases h

/-- The turn in which a document is closed takes on the job that closes it. -/
theorem closing_admitted {uri : String} {job : Job} (closes : m.closes? = some uri)
    (submitted : m.submitted? = some job) : job.request = .remUri uri ∧ job ∈ m.admitted := by
  obtain ⟨now, job', ho, hr, running⟩ := closes?_cases closes
  obtain rfl : job' = job := by
    rw [submitted?, ho] at submitted
    exact Option.some.inj submitted
  refine ⟨hr, ?_⟩
  rw [admitted, ho]
  simp [Engine.admits, running]

end Moment

namespace History

variable {policy : RestartPolicy} {os : List Occasion}

/-! ## First come, first gone -/

/-- The job was handed over in one of the moments, or it was retired in one of them. -/
def Departed (ms : List Moment) (j : Job) : Prop :=
  j.task ∈ tasks (ms.flatMap (·.effects)) ∨ 0 < settled (.report j.id) (ms.flatMap (·.effects))

/-- No job of a caller is handed over while one waits that was submitted before. -/
theorem not_overtaken (lawful : Lawful policy os) {u c : Job}
    (ordered : [u, c].Sublist (run policy os).submitted)
    (sent : c.task ∈ tasks (run policy os).effects) :
    u.task ∉ (run policy os).engine.waiting := by
  intro waits
  have ids : (((run policy os).submitted.map Job.task).map Prod.fst).Nodup := by
    rw [map_fst_task]
    exact (lawful_submitted lawful).2
  have own : ∀ j ∈ [u, c], decide (j.id ∈ (run policy os).submitted.map (·.id)) = true :=
    fun j hj => decide_eq_true (List.mem_map_of_mem (ordered.subset hj))
  have swapped := ((List.singleton_sublist.2 sent).append (List.singleton_sublist.2 waits)).filter
    (·.1 ∈ (run policy os).submitted.map (·.id))
  have both : [c.task, u.task].filter (·.1 ∈ (run policy os).submitted.map (·.id)) =
      [c.task, u.task] := by
    rw [List.filter_eq_self]
    intro t ht
    rcases List.mem_pair.1 ht with rfl | rfl
    · exact own c (by simp)
    · exact own u (by simp)
  rw [List.singleton_append, both] at swapped
  exact not_swapped (List.Nodup.of_map _ ids) (ordered.map Job.task)
    (swapped.trans (own_line lawful))

/-- **First come, first gone.** When a job of a caller is handed over, every job that was submitted
    before it was handed over or retired earlier. -/
theorem departed_before {b₁ b₂ : List Moment} {d : Moment} (lawful : Lawful policy os)
    (hpast : (run policy os).past = b₁ ++ d :: b₂) {u c : Job}
    (ordered : [u, c].Sublist ((b₁ ++ [d]).filterMap (·.submitted?)))
    (taken : u ∈ b₁.flatMap (·.admitted)) (sent : c.task ∈ tasks d.effects) : Departed b₁ u := by
  obtain ⟨os₁, os₂, rfl, hpast₁, hengine₁⟩ := run_split hpast
  have lawful₁ : Lawful policy os₁ := lawful.take
  have orderly := lawful_orderly lawful₁
  have hu : u ∈ (run policy os₁).admitted := by rwa [admitted, hpast₁]
  have same : ∀ k ∈ (run policy os₁).admitted, k.owes (.report u.id) → k = u := fun k hk hid =>
    orderly.eq_of_owes (d := .report u.id) hk hu hid (by simp [Job.owes])
  by_cases retired : 0 < settled (.report u.id) (b₁.flatMap (·.effects))
  · exact Or.inr retired
  · left
    have held : _ + settled (.report u.id) (run policy os₁).effects = 1 :=
      held_or_reported lawful₁ hu
    rw [effects, hpast₁] at held
    have owed : 0 < (run policy os₁).engine.owes (.report u.id) := by omega
    rcases Engine.owes_pos.1 owed with ⟨k, hk, hid⟩ | ⟨f, hf, hid⟩
    · -- It would still wait after the other one is handed over.
      obtain rfl := same k ((run_held policy os₁).queue k hk) hid
      have waits : k.task ∈ d.before.waiting := by
        rw [← hengine₁]
        exact List.mem_map_of_mem hk
      obtain ⟨os₃, os₄, hos, hpast₃, hengine₃⟩ := run_through hpast
      have lawful₃ : Lawful policy os₃ := by
        rw [hos] at lawful
        exact lawful.take
      have ordered₃ : [k, c].Sublist (run policy os₃).submitted := by rwa [submitted, hpast₃]
      have sent₃ : c.task ∈ tasks (run policy os₃).effects := by
        rw [effects, hpast₃]
        exact mem_tasks_flatMap.2 ⟨d, by simp, sent⟩
      rcases Moment.waits_on (consistent_of_past hpast) sent waits with itself | still
      · have ids := (ordered₃.map (·.id)).nodup (lawful_submitted lawful₃).2
        have twice : k.id = c.id := congrArg Prod.fst itself
        simp [twice] at ids
      · exact absurd (hengine₃ ▸ still) (not_overtaken lawful₃ ordered₃ sent₃)
    · -- What is in flight was handed over.
      obtain ⟨k, hk, hjob⟩ := (run_held policy os₁).live f hf
      have task : f.job.task = k.task := by
        rcases hjob with hjob | hjob <;> rw [hjob]
        rfl
      have hid : k.owes (.report u.id) := by
        rcases hjob with hjob | hjob <;> rw [hjob] at hid <;> exact hid
      rw [← same k hk hid, ← task, ← hpast₁]
      exact mem_tasks_flatMap.2 (sent_of_live hf)

/-- A job that is submitted behind another one and handed over finds the other one departed. -/
theorem departed_behind {before between rest : List Moment} {m d : Moment} {u c : Job}
    (lawful : Lawful policy os)
    (hpast : (run policy os).past = (before ++ m :: between) ++ d :: rest)
    (submitted : m.submitted? = some u) (taken : u ∈ m.admitted)
    (later : c ∈ (between ++ [d]).filterMap (·.submitted?)) (sent : c.task ∈ tasks d.effects) :
    Departed (before ++ m :: between) u := by
  have ordered : [u, c].Sublist ((before ++ m :: between ++ [d]).filterMap (·.submitted?)) := by
    rw [List.append_assoc, List.cons_append, List.filterMap_append,
      List.filterMap_cons_some submitted]
    refine List.Sublist.trans ?_ (List.sublist_append_right ..)
    exact (List.singleton_sublist.2 later).cons_cons u
  exact departed_before lawful hpast ordered (List.mem_flatMap.2 ⟨m, by simp, taken⟩) sent

/-- A job that is handed over was submitted by then, or it is a replayed one. -/
theorem handed_cases {b₁ b₂ : List Moment} {d : Moment} (lawful : Lawful policy os)
    (hpast : (run policy os).past = b₁ ++ d :: b₂) {t : Task} (sent : t ∈ tasks d.effects) :
    ∃ j : Job, j.task = t ∧ (j ∈ (b₁ ++ [d]).filterMap (·.submitted?) ∨
      j ∈ (b₁ ++ [d]).flatMap (·.replays)) := by
  obtain ⟨os₁, os₂, hos, hpast₁, -⟩ := run_through hpast
  have lawful₁ : Lawful policy os₁ := by
    rw [hos] at lawful
    exact lawful.take
  have handed : t ∈ tasks (run policy os₁).effects := by
    rw [effects, hpast₁]
    exact mem_tasks_flatMap.2 ⟨d, by simp, sent⟩
  obtain ⟨j, hj, same⟩ := admitted_of_tasks lawful₁ handed
  have source := admitted_cases hj
  rw [submitted, replays, hpast₁] at source
  exact ⟨j, same, source⟩

/-! ## Closed documents -/

section Closed

variable {before after : List Moment} {m : Moment} {job : Job} {uri : String}

/-- What is shown for a document that was closed was reported in an answer to a check since. -/
theorem reported_since (hpast : (run policy os).past = before ++ m :: after)
    (closes : m.closes? = some uri) {items : List Diagnostic}
    (shown : (run policy os).engine.documents.snapshot.forUri? uri = some items) :
    ∃ mid x since reports, after = mid ++ x :: since ∧ x.reports? = some reports ∧
      items = itemsFor uri reports := by
  rw [Documents.snapshot_forUri? (run_shown_sorted policy os)] at shown
  rcases shown_cases policy os with empty | ⟨since, reports, ⟨⟨c₀, x, hx, applied, -⟩, -⟩, hshown⟩
  · rw [empty] at shown
    cases shown
  · rw [hshown, TextMap.find?_without, find?_reportMap] at shown
    have unclosed : uri ∉ closings since := by
      intro closed
      rw [if_pos closed] at shown
      cases shown
    -- The document was closed before the reports were applied.
    have early : m ∉ x :: since := by
      intro hm
      rcases List.mem_cons.1 hm with rfl | hm
      · obtain ⟨now, job, ho, -, -⟩ := Moment.closes?_cases closes
        rw [Moment.reports?, ho] at applied
        cases applied
      · exact unclosed (List.mem_filterMap.2 ⟨m, hm, closes⟩)
    obtain ⟨mid, -, rfl⟩ := split_behind (hpast.symm.trans hx) early
    refine ⟨mid, x, since, reports, rfl, applied, ?_⟩
    rw [if_neg unclosed] at shown
    split at shown
    · cases shown
    · exact (Option.some.inj shown).symm

/-- A check that is handed over was submitted before the document was closed, or it is a replayed
    one, or the job that closes the document has departed before. -/
theorem check_cases (lawful : Lawful policy os) {mid rest b₁ b₂ : List Moment} {d : Moment}
    (hpast : (run policy os).past = (before ++ m :: mid) ++ rest)
    (submitted : m.submitted? = some job) (closes : m.closes? = some uri)
    (hd : before ++ m :: mid = b₁ ++ d :: b₂) {t : Task} (sent : t ∈ tasks d.effects)
    (check : t.2.kind = .check) :
    Departed b₁ job ∨ (∃ j ∈ before.filterMap (·.submitted?), j.task = t) ∨
      ∃ j ∈ (b₁ ++ [d]).flatMap (·.replays), j.task = t := by
  have hsplit : (run policy os).past = b₁ ++ d :: (b₂ ++ rest) := by
    rw [hpast, hd, List.append_assoc, List.cons_append]
  obtain ⟨hr, taken⟩ := Moment.closing_admitted closes submitted
  obtain ⟨j, rfl, hj | hj⟩ := handed_cases lawful hsplit sent
  · by_cases earlier : j ∈ before.filterMap (·.submitted?)
    · exact Or.inr (Or.inl ⟨j, earlier, rfl⟩)
    · -- The check was submitted after the document was closed, and so it is behind in the line.
      left
      obtain ⟨s, hs, hsj⟩ := List.mem_filterMap.1 hj
      have behind : s ∉ before := fun hs => earlier (List.mem_filterMap.2 ⟨s, hs, hsj⟩)
      have other : s ≠ m := by
        rintro rfl
        have same : job = j := Option.some.inj (submitted.symm.trans hsj)
        have request : j.task.2 = .remUri uri := same ▸ hr
        rw [request] at check
        cases check
      obtain ⟨between, rfl, later⟩ := cut_behind hd hs behind other
      exact departed_behind lawful hsplit submitted taken
        (List.mem_filterMap.2 ⟨s, later, hsj⟩) sent
  · exact Or.inr (Or.inr ⟨j, hj, rfl⟩)

/-- **A closed document stays clear, but for checks that go ahead.** In a lawful run, take the turn
    in which the job that closes a document was submitted. Whatever a snapshot holds for the
    document later is all that one answer to a check has reported for it, and this answer was
    applied after the document was closed. When the check was handed over, the job that closes the
    document had been handed over or retired before; or else the check was submitted before that
    job, or it is one that the engine replayed. -/
theorem closed_document_stays_clear (lawful : Lawful policy os)
    (hpast : (run policy os).past = before ++ m :: after) (submitted : m.submitted? = some job)
    (closes : m.closes? = some uri) {items : List Diagnostic}
    (shown : (run policy os).engine.documents.snapshot.forUri? uri = some items) :
    ∃ mid x since reports, after = mid ++ x :: since ∧ x.reports? = some reports ∧
      items = itemsFor uri reports ∧
      ∃ b₁ d b₂ t, before ++ m :: mid = b₁ ++ d :: b₂ ∧ t ∈ tasks d.effects ∧
        t.2.kind = .check ∧ x.Hears t.1 ∧
        (Departed b₁ job ∨ (∃ j ∈ before.filterMap (·.submitted?), j.task = t) ∨
          ∃ j ∈ (b₁ ++ [d]).flatMap (·.replays), j.task = t) := by
  obtain ⟨mid, x, since, reports, rfl, applied, hitems⟩ := reported_since hpast closes shown
  have hx : (run policy os).past = (before ++ m :: mid) ++ x :: since := by
    rw [hpast, List.append_assoc, List.cons_append]
  obtain ⟨t, heard, check, d, hd, sent⟩ := sent_of_reports hx applied
  obtain ⟨b₁, b₂, hsplit⟩ := List.append_of_mem hd
  exact ⟨mid, x, since, reports, rfl, applied, hitems, b₁, d, b₂, t, hsplit, sent, check, heard,
    check_cases lawful hx submitted closes hsplit sent check⟩

end Closed

/-! ## Documents that are closed under a check -/

/-- A document is opened, and a check is handed over. -/
def underCheck : List Occasion :=
  [.draw, .draw, .draw, .input 0 (.started 0 (.ok ⟨0, none⟩)),
    .input 1 (.command (.submit { id := ⟨1⟩, request := .addUri "a" "x" })),
    .input 2 (.frame 0 (.response ⟨1⟩ (.ok .null))),
    .input 3 (.command (.submit { id := ⟨2⟩, request := .check none }))]

/-- The document is closed, while one more job is in flight. -/
def closeNow : Occasion :=
  .input 4 (.command (.submit { id := ⟨3⟩, request := .remUri "a" }))

/-- The check finds an error in the document. -/
def findings : Occasion :=
  .input 5 (.frame 0 (.response ⟨2⟩ (.ok complaint)))

/-- The document is closed under the check. -/
def closedUnderCheck : List Occasion :=
  underCheck ++ closeNow :: [findings]

/-- Two documents are opened, and the worker is replaced before it hears that one was closed. The
    next worker gets the other one and a check first. -/
def overtaken : List Occasion :=
  [.draw, .draw, .draw, .input 0 (.started 0 (.ok ⟨0, none⟩)),
    .input 1 (.command (.submit { id := ⟨1⟩, request := .addUri "a" "x" })),
    .input 2 (.frame 0 (.response ⟨1⟩ (.ok .null))),
    .input 3 (.command (.submit { id := ⟨2⟩, request := .addUri "b" "y" })), closeNow,
    .input 5 (.command .restart), .input 6 (.started 1 (.ok ⟨1, none⟩)),
    .input 7 (.frame 1 (.response ⟨5⟩ (.ok .null))),
    .input 8 (.frame 1 (.response ⟨6⟩ (.ok complaint)))]

/-- In both runs something is shown for the document that was closed, and the only check was handed
    over before the job that closes it. -/
theorem shown_after_close :
    (Lawful {} closedUnderCheck ∧
      tasks (run {} closedUnderCheck).effects =
        [(⟨1⟩, .addUri "a" "x"), (⟨2⟩, .check none), (⟨3⟩, .remUri "a")] ∧
      (run {} closedUnderCheck).engine.documents.snapshot.forUri? "a" ≠ none) ∧
    Lawful {} overtaken ∧
      tasks (run {} overtaken).effects =
        [(⟨1⟩, .addUri "a" "x"), (⟨2⟩, .addUri "b" "y"), (⟨5⟩, .addUri "b" "y"), (⟨6⟩, .check none),
          (⟨3⟩, .remUri "a")] ∧
      (run {} overtaken).engine.documents.snapshot.forUri? "a" ≠ none :=
  ⟨⟨by decide, by decide +kernel, by decide +kernel⟩,
    by decide, by decide +kernel, by decide +kernel⟩

theorem findings_shown_after_close :
    (Lawful {} closedUnderCheck ∧
      Moment.closes? ⟨(run {} underCheck).engine, closeNow⟩ = some "a") ∧
    ∃ items, (run {} closedUnderCheck).engine.documents.snapshot.forUri? "a" = some items ∧
      ∃ (x : Moment) (reports : List Report) (t : Task), x.reports? = some reports ∧
        items = itemsFor "a" reports ∧ x.Hears t.1 ∧ t.2.kind = .check ∧
        ∃ d ∈ (run {} closedUnderCheck).past, t ∈ tasks d.effects := by
  have lawful : Lawful {} closedUnderCheck := by decide
  have closes : Moment.closes? ⟨(run {} underCheck).engine, closeNow⟩ = some "a" := by decide
  have something : (run {} closedUnderCheck).engine.documents.snapshot.forUri? "a" ≠ none := by
    decide +kernel
  obtain ⟨items, shown⟩ := Option.ne_none_iff_exists'.1 something
  have hpast : (run {} closedUnderCheck).past =
      (run {} underCheck).past ++ ⟨(run {} underCheck).engine, closeNow⟩ ::
        [⟨(run {} (underCheck ++ [closeNow])).engine, findings⟩] := rfl
  obtain ⟨mid, x, since, reports, hafter, applied, hitems, b₁, d, b₂, t, hsplit, sent, check, heard,
    -⟩ := closed_document_stays_clear lawful hpast rfl closes shown
  refine ⟨⟨lawful, closes⟩, items, shown, x, reports, t, applied, hitems, heard, check, d, ?_, sent⟩
  rw [hpast, hafter, ← List.cons_append, ← List.append_assoc, hsplit]
  simp

end History

end WorkerBridge
