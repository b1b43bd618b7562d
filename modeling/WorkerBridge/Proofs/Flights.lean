/-
  WorkerBridge.Proofs.Flights

  Who holds a flight, over all that can be asked of the table of flights.

  The calls are taken one at a time. Each of them keeps the books
  (`after_accounts`): what the table holds and what was handed out are together
  what was registered, whether callers were told in between or not. So nothing is
  handed out twice. What is remembered is a part of what ran out of time, in its
  order (`after_remembers`), and nothing becomes known but by a registration
  (`knows_after`).

  How long a job is remembered is a matter of positions. The oldest memory goes
  when another one needs its place, so a job is safe as long as too few come
  behind it (`Keeps`); answers to other jobs only bring it forward.
-/
import WorkerBridge.Proofs.Strays

namespace WorkerBridge

namespace InFlight

open scoped List

/-! ## Calls -/

/-- What can be asked of the table. -/
inductive Call where
  | register (job : Job) (now : Nat)
  | resolve (id : JobId)
  | cancel (id : JobId)
  | expire (now : Nat)
  | drain
deriving DecidableEq

/-- The flight that a call registers. -/
def Call.begins? : Call → Option Flight
  | .register job now => some (job.flight now)
  | _ => none

/-- The table after a call. -/
def after (t : InFlight) : Call → InFlight
  | .register job now => t.register job now
  | .resolve id => (t.resolve id).2
  | .cancel id => t.cancel id
  | .expire now => (t.expire now).2
  | .drain => t.drain.2

/-- The flights that a call hands out. -/
def hands (t : InFlight) : Call → List Flight
  | .resolve id =>
    match (t.resolve id).1 with
    | .pending flight => [flight]
    | _ => []
  | .expire now => (t.expire now).1
  | .drain => t.drain.1
  | .register .. | .cancel _ => []

/-- The flights among them whose time was up. -/
def expires (t : InFlight) : Call → List Flight
  | .expire now => (t.expire now).1
  | _ => []

/-- The table after several calls. -/
def afterAll (t : InFlight) (calls : List Call) : InFlight :=
  calls.foldl after t

/-- What several calls bring, one after the other. -/
def gather (brings : InFlight → Call → List Flight) (t : InFlight) : List Call → List Flight
  | [] => []
  | c :: calls => brings t c ++ gather brings (t.after c) calls

theorem gather_append (brings : InFlight → Call → List Flight) (t : InFlight)
    (calls calls' : List Call) :
    gather brings t (calls ++ calls') =
      gather brings t calls ++ gather brings (t.afterAll calls) calls' := by
  induction calls generalizing t with
  | nil => rfl
  | cons c calls ih =>
    show brings t c ++ gather brings (t.after c) (calls ++ calls') = _
    rw [ih, ← List.append_assoc]
    rfl

/-- A table that was asked nothing but the given calls. -/
def run (calls : List Call) : InFlight :=
  afterAll {} calls

/-- All that was registered, in order. -/
def begun (calls : List Call) : List Flight :=
  calls.filterMap Call.begins?

/-- All that was handed out, in order. -/
def handedOut (calls : List Call) : List Flight :=
  gather hands {} calls

/-- All that ran out of time, in order. -/
def expired (calls : List Call) : List Flight :=
  gather expires {} calls

/-- No identity is registered twice. -/
def Fresh (calls : List Call) : Prop :=
  ((begun calls).map (·.job.id)).Nodup

theorem run_append (calls calls' : List Call) :
    run (calls ++ calls') = (run calls).afterAll calls' :=
  List.foldl_append

theorem run_concat (calls : List Call) (c : Call) : run (calls ++ [c]) = (run calls).after c :=
  run_append calls [c]

theorem begun_append (calls calls' : List Call) :
    begun (calls ++ calls') = begun calls ++ begun calls' :=
  List.filterMap_append

theorem begun_concat (calls : List Call) (c : Call) :
    begun (calls ++ [c]) = begun calls ++ c.begins?.toList := by
  rw [begun_append]
  cases c <;> rfl

theorem handedOut_concat (calls : List Call) (c : Call) :
    handedOut (calls ++ [c]) = handedOut calls ++ (run calls).hands c := by
  rw [handedOut, gather_append]
  exact congrArg (_ ++ ·) (List.append_nil _)

theorem expired_concat (calls : List Call) (c : Call) :
    expired (calls ++ [c]) = expired calls ++ (run calls).expires c := by
  rw [expired, gather_append]
  exact congrArg (_ ++ ·) (List.append_nil _)

theorem Fresh.take {calls calls' : List Call} (fresh : Fresh (calls ++ calls')) : Fresh calls := by
  rw [Fresh, begun_append, List.map_append] at fresh
  exact (List.nodup_append.1 fresh).1

/-! ## The books -/

/-- Whether callers were told makes no difference to the identities. -/
theorem perm_ids {xs ys : List Flight}
    (same : (xs.map Flight.disowned).Perm (ys.map Flight.disowned)) :
    (xs.map (·.job.id)).Perm (ys.map (·.job.id)) := by
  have ids := same.map (·.job.id)
  rw [List.map_map, List.map_map] at ids
  exact ids

/-- The flight of a job and all the others are the flights. -/
theorem perm_of_mem {t : InFlight} {f : Flight} (once : (t.live.map (·.job.id)).Nodup)
    (hf : f ∈ t.live) : (t.live.filter (·.job.id ≠ f.job.id) ++ [f]).Perm t.live := by
  obtain ⟨before, behind, split⟩ := List.append_of_mem hf
  rw [split] at once ⊢
  -- No other flight has the identity.
  have others : ∀ g ∈ before ++ behind, g.job.id ≠ f.job.id := by
    rw [(List.perm_middle.map (f := fun g : Flight => g.job.id)).nodup_iff, List.map_cons,
      List.nodup_cons] at once
    intro g hg same
    exact once.1 (List.mem_map.2 ⟨g, hg, same⟩)
  have kept : (before ++ f :: behind).filter (fun g => g.job.id ≠ f.job.id) = before ++ behind := by
    have stay : (before ++ behind).filter (fun g => g.job.id ≠ f.job.id) = before ++ behind :=
      List.filter_eq_self.2 fun g hg => decide_eq_true (others g hg)
    rw [List.filter_append, List.filter_cons, if_neg (by simp), ← List.filter_append]
    exact stay
  rw [kept, List.append_assoc]
  exact List.Perm.append_left before (List.perm_append_singleton f behind)

/-- **What can happen to a flight.** What the table holds after a call and what the call hands out
    are what it held before and what the call registers. -/
theorem after_accounts {t : InFlight} (once : (t.live.map (·.job.id)).Nodup) {c : Call}
    (new : ∀ f ∈ c.begins?, ∀ g ∈ t.live, g.job.id ≠ f.job.id) :
    (((t.after c).live ++ t.hands c).map Flight.disowned).Perm
      ((t.live ++ c.begins?.toList).map Flight.disowned) := by
  cases c with
  | register job now =>
    have kept : t.live.filter (·.job.id ≠ job.id) = t.live := by
      rw [List.filter_eq_self]
      exact fun g hg => decide_eq_true (new _ rfl g hg)
    show List.Perm (List.map _ (t.live.filter (fun g => g.job.id ≠ job.id) ++ _ ++ [])) _
    rw [kept, List.append_nil]
    exact List.Perm.refl _
  | resolve id =>
    show List.Perm _ ((t.live ++ []).map Flight.disowned)
    rw [List.append_nil]
    apply List.Perm.map
    rcases t.resolve_cases id with ⟨f, hf, rfl, answer⟩ | ⟨-, ⟨kind, left, answer⟩ | answer⟩
    · simp only [after, hands, answer]
      exact perm_of_mem once hf
    · simp [after, hands, answer]
    · simp [after, hands, answer]
  | cancel id =>
    -- The caller is told, which is what the books do not show.
    have same : (t.live.map fun f =>
        if f.job.id = id then { f with cancelled := true, job := f.job.told } else f).map
          Flight.disowned = t.live.map Flight.disowned := by
      rw [List.map_map]
      apply List.map_congr_left
      intro f _
      show Flight.disowned (if f.job.id = id then _ else f) = _
      split <;> rfl
    show (List.map _ ((t.cancel id).live ++ [])).Perm (List.map _ (t.live ++ []))
    rw [List.append_nil, List.append_nil, cancel, same]
  | expire now =>
    show (List.map _ (t.live.filter (!·.isDue now) ++ t.live.filter (·.isDue now))).Perm
      (List.map _ (t.live ++ []))
    rw [List.append_nil]
    apply List.Perm.map
    exact List.perm_append_comm.trans (List.filter_append_perm _ t.live)
  | drain =>
    show (List.map _ ([] ++ t.live)).Perm (List.map _ (t.live ++ []))
    rw [List.append_nil, List.nil_append]

/-- The books over a whole run: all that was registered is held, or was handed out. -/
theorem run_accounts {calls : List Call} (fresh : Fresh calls) :
    (((run calls).live ++ handedOut calls).map Flight.disowned).Perm
      ((begun calls).map Flight.disowned) := by
  induction calls using List.reverseRecOn with
  | nil => exact List.Perm.refl _
  | append_singleton calls c ih =>
    have books := ih fresh.take
    have ids := perm_ids books
    have nodup := ids.nodup_iff.2 fresh.take
    rw [List.map_append, List.nodup_append] at nodup
    -- What is held was registered before, so it is not what is registered now.
    have new : ∀ f ∈ c.begins?, ∀ g ∈ (run calls).live, g.job.id ≠ f.job.id := by
      intro f hf g hg
      rw [Fresh, begun_concat, List.map_append, List.nodup_append] at fresh
      apply fresh.2.2
      · exact ids.mem_iff.1 (List.mem_map.2 ⟨g, List.mem_append_left _ hg, rfl⟩)
      · exact List.mem_map.2 ⟨f, Option.mem_toList.2 hf, rfl⟩
    have step := after_accounts nodup.1 new
    have swap (xs ys zs : List Flight) : (xs ++ ys ++ zs).Perm (xs ++ zs ++ ys) := by
      rw [List.append_assoc, List.append_assoc]
      exact List.perm_append_comm.append_left xs
    rw [run_concat, handedOut_concat, begun_concat, ← List.append_assoc]
    calc (((run calls).after c).live ++ handedOut calls ++ (run calls).hands c).map Flight.disowned
      _ ~ (((run calls).after c).live ++ (run calls).hands c ++ handedOut calls).map
            Flight.disowned := (swap ..).map _
      _ ~ ((run calls).live ++ c.begins?.toList ++ handedOut calls).map Flight.disowned := by
            simp only [List.map_append] at step ⊢
            exact step.append_right _
      _ ~ ((run calls).live ++ handedOut calls ++ c.begins?.toList).map Flight.disowned :=
            (swap ..).map _
      _ ~ (begun calls ++ c.begins?.toList).map Flight.disowned := by
            simp only [List.map_append] at books ⊢
            exact books.append_right _

/-- In a run in which no identity comes twice, every flight is held once or was handed out once. -/
theorem run_ids_nodup {calls : List Call} (fresh : Fresh calls) :
    (((run calls).live ++ handedOut calls).map (·.job.id)).Nodup :=
  (perm_ids (run_accounts fresh)).nodup_iff.2 fresh

/-- What was handed out was registered, and it is still the same job. -/
theorem registered_of_handedOut {calls : List Call} (fresh : Fresh calls) {f : Flight}
    (handed : f ∈ handedOut calls) :
    ∃ job now, Call.register job now ∈ calls ∧ job.id = f.job.id ∧ job.kind = f.job.kind := by
  have listed : f.disowned ∈ (begun calls).map Flight.disowned := by
    apply (run_accounts fresh).mem_iff.1
    exact List.mem_map_of_mem (List.mem_append_right _ handed)
  obtain ⟨g, hg, same⟩ := List.mem_map.1 listed
  obtain ⟨c, hc, began⟩ := List.mem_filterMap.1 hg
  cases c with
  | register job now =>
    cases began
    refine ⟨job, now, hc, congrArg (·.job.id) same, ?_⟩
    exact congrArg (·.job.request.kind) same
  | resolve | cancel | expire | drain => cases began

/-! ## What is remembered -/

/-- What is remembered of a flight that ran out of time. -/
def memo (f : Flight) : JobId × JobKind :=
  (f.job.id, f.job.kind)

theorem remember_eq (abandoned : List (JobId × JobKind)) (f : Flight) :
    remember abandoned f =
      (if abandoned.length = memory then abandoned.drop 1 else abandoned) ++ [memo f] := rfl

theorem remember_sublist (abandoned : List (JobId × JobKind)) (f : Flight) :
    remember abandoned f <+ abandoned ++ [memo f] := by
  rw [remember_eq]
  apply List.Sublist.append_right
  split
  · exact List.drop_sublist 1 abandoned
  · exact List.Sublist.refl _

theorem foldl_remember_sublist (abandoned : List (JobId × JobKind)) (flights : List Flight) :
    flights.foldl remember abandoned <+ abandoned ++ flights.map memo := by
  induction flights generalizing abandoned with
  | nil =>
    rw [List.map_nil, List.append_nil]
    exact List.Sublist.refl _
  | cons f flights ih =>
    rw [List.foldl_cons, List.map_cons, List.append_cons]
    exact (ih _).trans ((remember_sublist abandoned f).append_right _)

theorem length_foldl_remember_le {abandoned : List (JobId × JobKind)}
    (few : abandoned.length ≤ memory) (flights : List Flight) :
    (flights.foldl remember abandoned).length ≤ memory := by
  induction flights generalizing abandoned with
  | nil => exact few
  | cons f flights ih =>
    apply ih
    rw [remember_eq, List.length_append, List.length_singleton]
    split
    · next full =>
      have room : 0 < memory := by decide
      rw [List.length_drop]
      omega
    · omega

/-- **What an answer does to the memories.** It is told nothing from them and leaves them alone, or
    it is told of a memory of its job and uses up the first of them. -/
theorem resolve_memory (t : InFlight) (id : JobId) :
    ((∀ kind, (t.resolve id).1 ≠ .abandoned kind) ∧ (t.resolve id).2.abandoned = t.abandoned) ∨
      ∃ kind, (id, kind) ∈ t.abandoned ∧ (t.resolve id).1 = .abandoned kind ∧
        (t.resolve id).2.abandoned = t.abandoned.eraseP (·.1 = id) := by
  cases found : t.find? id with
  | some f => exact Or.inl (by simp [resolve, found])
  | none =>
    cases old : t.abandoned.find? (·.1 = id) with
    | none => exact Or.inl (by simp [resolve, found, old])
    | some entry =>
      have same : entry.1 = id := by simpa using List.find?_some old
      have known : (id, entry.2) ∈ t.abandoned := by
        rw [← same]
        exact List.mem_of_find?_eq_some old
      exact Or.inr ⟨entry.2, known, by simp [resolve, found, old]⟩

/-- What a call leaves in memory was there before, or ran out of time with it. -/
theorem after_remembers (t : InFlight) (c : Call) :
    (t.after c).abandoned <+ t.abandoned ++ (t.expires c).map memo := by
  cases c with
  | expire now => exact foldl_remember_sublist t.abandoned _
  | resolve id =>
    show (t.resolve id).2.abandoned <+ t.abandoned ++ []
    rw [List.append_nil]
    rcases t.resolve_memory id with ⟨-, same⟩ | ⟨kind, -, -, less⟩
    · rw [same]
    · rw [less]
      exact List.eraseP_sublist
  | drain => exact List.nil_sublist _
  | register | cancel => exact List.sublist_append_left ..

theorem run_remembers (calls : List Call) : (run calls).abandoned <+ (expired calls).map memo := by
  induction calls using List.reverseRecOn with
  | nil => exact List.Sublist.refl _
  | append_singleton calls c ih =>
    rw [run_concat, expired_concat, List.map_append]
    exact ((run calls).after_remembers c).trans (ih.append_right _)

theorem run_abandoned_length_le (calls : List Call) : (run calls).abandoned.length ≤ memory := by
  induction calls using List.reverseRecOn with
  | nil => exact Nat.zero_le _
  | append_singleton calls c ih =>
    rw [run_concat]
    cases c with
    | expire now => exact length_foldl_remember_le ih _
    | resolve id =>
      have less := ((run calls).after_remembers (.resolve id)).length_le
      rw [List.length_append] at less
      exact Nat.le_trans less ih
    | drain => exact Nat.zero_le _
    | register | cancel => exact ih

theorem expired_sublist (calls : List Call) : expired calls <+ handedOut calls := by
  induction calls using List.reverseRecOn with
  | nil => exact List.Sublist.refl _
  | append_singleton calls c ih =>
    rw [expired_concat, handedOut_concat]
    apply ih.append
    cases c with
    | expire => exact List.Sublist.refl _
    | register | resolve | cancel | drain => exact List.nil_sublist _

/-- No identity is held and remembered, and none is held or remembered twice. -/
theorem run_once {calls : List Call} (fresh : Fresh calls) :
    ((run calls).live.map (·.job.id) ++ (run calls).abandoned.map (·.1)).Nodup := by
  have remembered : (run calls).abandoned.map (·.1) <+ (handedOut calls).map (·.job.id) := by
    have part := (run_remembers calls).map (·.1)
    rw [List.map_map] at part
    exact part.trans ((expired_sublist calls).map (·.job.id))
  have nodup := run_ids_nodup fresh
  rw [List.map_append] at nodup
  exact (remembered.append_left _).nodup nodup

/-- What is remembered ran out of time once, and not all was forgotten since then. -/
theorem expired_of_remembered {calls : List Call} {entry : JobId × JobKind}
    (remembered : entry ∈ (run calls).abandoned) :
    ∃ early now late f, calls = early ++ .expire now :: late ∧
      f ∈ ((run early).expire now).1 ∧ memo f = entry ∧ .drain ∉ late := by
  induction calls using List.reverseRecOn with
  | nil => cases remembered
  | append_singleton calls c ih =>
    rw [run_concat] at remembered
    rcases List.mem_append.1 (((run calls).after_remembers c).subset remembered) with old | new
    · obtain ⟨early, now, late, f, rfl, hf, same, undrained⟩ := ih old
      refine ⟨early, now, late ++ [c], f, by simp, hf, same, ?_⟩
      intro drained
      rcases List.mem_append.1 drained with before | last
      · exact undrained before
      · rw [← List.mem_singleton.1 last] at remembered
        cases remembered
    · obtain ⟨f, hf, same⟩ := List.mem_map.1 new
      cases c with
      | expire now => exact ⟨calls, now, [], f, rfl, hf, same, List.not_mem_nil⟩
      | register | resolve | cancel | drain => cases hf

theorem mem_of_resolve {t : InFlight} {id : JobId} {kind : JobKind}
    (answer : (t.resolve id).1 = .abandoned kind) : (id, kind) ∈ t.abandoned := by
  rcases t.resolve_memory id with ⟨nothing, -⟩ | ⟨kind', known, told, -⟩
  · exact absurd answer (nothing kind)
  · cases told.symm.trans answer
    exact known

/-- What is remembered is of the kind that was registered. -/
theorem registered_of_remembered {calls : List Call} (fresh : Fresh calls)
    {entry : JobId × JobKind} (remembered : entry ∈ (run calls).abandoned) :
    ∃ job now, Call.register job now ∈ calls ∧ job.id = entry.1 ∧ job.kind = entry.2 := by
  obtain ⟨f, hf, rfl⟩ := List.mem_map.1 ((run_remembers calls).subset remembered)
  exact registered_of_handedOut fresh ((expired_sublist calls).subset hf)

/-! ## What is known -/

theorem knows_iff {t : InFlight} {id : JobId} :
    t.knows id ↔ id ∈ t.live.map (·.job.id) ++ t.abandoned.map (·.1) := by
  simp [knows, List.mem_append, List.mem_map]

/-- What a call leaves in flight was there before, or is what it registers, but for whether its
caller was told. -/
theorem after_live {t : InFlight} {c : Call} {f : Flight} (hf : f ∈ (t.after c).live) :
    ∃ g ∈ t.live ++ c.begins?.toList, f.disowned = g.disowned := by
  cases c with
  | register job now =>
    rcases List.mem_append.1 hf with old | new
    · exact ⟨f, List.mem_append_left _ (List.mem_of_mem_filter old), rfl⟩
    · exact ⟨f, List.mem_append_right _ new, rfl⟩
  | resolve id =>
    rcases t.resolve_cases id with ⟨g, -, -, answer⟩ | ⟨-, ⟨kind, left, answer⟩ | answer⟩
    · rw [after, answer] at hf
      exact ⟨f, List.mem_append_left _ (List.mem_of_mem_filter hf), rfl⟩
    · rw [after, answer] at hf
      exact ⟨f, List.mem_append_left _ hf, rfl⟩
    · rw [after, answer] at hf
      exact ⟨f, List.mem_append_left _ hf, rfl⟩
  | cancel id =>
    obtain ⟨g, hg, rfl⟩ := List.mem_map.1 hf
    refine ⟨g, List.mem_append_left _ hg, ?_⟩
    split <;> rfl
  | expire now => exact ⟨f, List.mem_append_left _ (List.mem_of_mem_filter hf), rfl⟩
  | drain => cases hf

/-- **Nothing becomes known but by a registration.** -/
theorem knows_after {t : InFlight} {c : Call} {id : JobId} (known : (t.after c).knows id) :
    t.knows id ∨ ∃ f ∈ c.begins?, f.job.id = id := by
  rw [knows_iff, List.mem_append] at known
  rw [knows_iff, List.mem_append]
  rcases known with live | remembered
  · obtain ⟨f, hf, rfl⟩ := List.mem_map.1 live
    obtain ⟨g, hg, same⟩ := after_live hf
    have named : g.job.id = f.job.id := (congrArg (·.job.id) same).symm
    rcases List.mem_append.1 hg with old | begun
    · exact Or.inl (Or.inl (List.mem_map.2 ⟨g, old, named⟩))
    · exact Or.inr ⟨g, Option.mem_toList.1 begun, named⟩
  · left
    have origin := ((t.after_remembers c).map (·.1)).subset remembered
    rw [List.map_append, List.mem_append] at origin
    refine origin.symm.imp ?_ fun old => old
    intro due
    cases c with
    | expire now =>
      rw [List.map_map] at due
      obtain ⟨f, hf, rfl⟩ := List.mem_map.1 due
      exact List.mem_map.2 ⟨f, List.mem_of_mem_filter hf, rfl⟩
    | register | resolve | cancel | drain => cases due

theorem afterAll_unknown {t : InFlight} {id : JobId} {calls : List Call}
    (unknown : t.knows id = false) (never : ∀ f ∈ begun calls, f.job.id ≠ id) :
    (t.afterAll calls).knows id = false := by
  induction calls generalizing t with
  | nil => exact unknown
  | cons c calls ih =>
    have all : begun (c :: calls) = c.begins?.toList ++ begun calls := begun_append [c] calls
    rw [all] at never
    apply ih _ fun f hf => never f (List.mem_append_right _ hf)
    by_contra known
    rcases knows_after (by simpa using known) with before | ⟨f, hf, same⟩
    · rw [unknown] at before
      cases before
    · exact never f (List.mem_append_left _ (Option.mem_toList.2 hf)) same

/-- An identity that is neither held nor remembered. -/
theorem not_knows {t : InFlight} {id : JobId} (landed : id ∉ t.live.map (·.job.id))
    (forgotten : id ∉ t.abandoned.map (·.1)) : t.knows id = false := by
  rw [← Bool.not_eq_true, knows_iff, List.mem_append]
  exact not_or.2 ⟨landed, forgotten⟩

/-- Once it has been answered, a job is not known any more. -/
theorem resolve_forgets {t : InFlight}
    (once : (t.live.map (·.job.id) ++ t.abandoned.map (·.1)).Nodup) (id : JobId) :
    (t.resolve id).2.knows id = false := by
  obtain ⟨-, distinct, apart⟩ := List.nodup_append.1 once
  rcases t.resolve_cases id with ⟨f, hf, rfl, answer⟩ | ⟨landed, other⟩
  · rw [answer]
    apply not_knows
    · simp
    · intro remembered
      exact apart f.job.id (List.mem_map.2 ⟨f, hf, rfl⟩) f.job.id remembered rfl
  · by_cases remembered : id ∈ t.abandoned.map (·.1)
    · obtain ⟨before, kind, behind, old, split, erased⟩ := abandoned_split remembered
      rw [resolve_remembered landed old, erased]
      -- The memory that was used up was the only one.
      have others : id ∉ (before ++ behind).map (·.1) := by
        rw [split, (List.perm_middle.map Prod.fst).nodup_iff, List.map_cons,
          List.nodup_cons] at distinct
        exact distinct.1
      exact not_knows (by simpa using landed) others
    · have unknown : t.knows id = false := not_knows (by simpa using landed) remembered
      have answer : (t.resolve id).1 = .unknown := (t.resolve_unknown_iff id).2 unknown
      rcases other with ⟨kind, left, heq⟩ | heq
      · rw [heq] at answer
        cases answer
      · rw [heq]
        exact unknown

/-- Whatever is known was registered. -/
theorem begun_of_knows {calls : List Call} {id : JobId} (known : (run calls).knows id) :
    id ∈ (begun calls).map (·.job.id) := by
  induction calls using List.reverseRecOn with
  | nil => cases known
  | append_singleton calls c ih =>
    rw [run_concat] at known
    rw [begun_concat, List.map_append, List.mem_append]
    rcases knows_after known with before | ⟨f, hf, same⟩
    · exact Or.inl (ih before)
    · exact Or.inr (List.mem_map.2 ⟨f, Option.mem_toList.2 hf, same⟩)

/-- **A job is answered once.** After the first answer, in time or late, every other one is
    nobody's. -/
theorem unknown_once_answered {before behind : List Call} {id : JobId}
    (fresh : Fresh (before ++ .resolve id :: behind))
    (answered : ((run before).resolve id).1 ≠ .unknown) :
    ((run (before ++ .resolve id :: behind)).resolve id).1 = .unknown := by
  rw [resolve_unknown_iff, run_append]
  apply afterAll_unknown (resolve_forgets (run_once fresh.take) id)
  -- The identity was registered before its answer, and it is not registered again.
  have known : (run before).knows id := by
    rw [← Bool.not_eq_false, ← resolve_unknown_iff]
    exact answered
  rw [Fresh, begun_append, List.map_append, List.nodup_append] at fresh
  intro f hf same
  exact fresh.2.2 id (begun_of_knows known) f.job.id (List.mem_map.2 ⟨f, hf, rfl⟩) same.symm

/-! ## How long a job is remembered -/

/-- The table remembers a job, and no more than so many behind it. -/
def Keeps (entry : JobId × JobKind) (n : Nat) (t : InFlight) : Prop :=
  ∃ front back, t.abandoned = front ++ entry :: back ∧ back.length ≤ n

/-- A memory stays while the ones behind it do not fill all places. -/
theorem remember_keeps (front : List (JobId × JobKind)) {back : List (JobId × JobKind)}
    (entry : JobId × JobKind) (room : back.length + 1 < memory) (f : Flight) :
    ∃ front', remember (front ++ entry :: back) f = front' ++ entry :: (back ++ [memo f]) := by
  rw [remember_eq]
  split
  · next full =>
    -- All places are taken, so the oldest memory is another one.
    cases front with
    | nil =>
      rw [List.nil_append, List.length_cons] at full
      omega
    | cons oldest front => exact ⟨front, by simp⟩
  · exact ⟨front, by simp⟩

theorem foldl_remember_keeps (front : List (JobId × JobKind)) {back : List (JobId × JobKind)}
    (entry : JobId × JobKind) {flights : List Flight}
    (room : back.length + flights.length < memory) :
    ∃ front', flights.foldl remember (front ++ entry :: back) =
      front' ++ entry :: (back ++ flights.map memo) := by
  induction flights generalizing front back with
  | nil => exact ⟨front, by simp⟩
  | cons f flights ih =>
    rw [List.length_cons] at room
    have fits : back.length + 1 < memory := by omega
    obtain ⟨front', first⟩ := remember_keeps front entry fits f
    have less : (back ++ [memo f]).length + flights.length < memory := by
      rw [List.length_append, List.length_singleton]
      omega
    obtain ⟨front'', rest⟩ := ih front' less
    refine ⟨front'', ?_⟩
    rw [List.foldl_cons, first, rest]
    simp

/-- A call that does not use the memory up keeps it, if it finds room for what it adds. -/
theorem Keeps.after {entry : JobId × JobKind} {n : Nat} {t : InFlight} (kept : Keeps entry n t)
    {c : Call} (unanswered : c ≠ .resolve entry.1) (undrained : c ≠ .drain)
    (room : n + (t.expires c).length < memory) :
    Keeps entry (n + (t.expires c).length) (t.after c) := by
  obtain ⟨front, back, split, few⟩ := kept
  cases c with
  | expire now =>
    have fits : back.length + (t.expires (.expire now)).length < memory := by omega
    obtain ⟨front', more⟩ := foldl_remember_keeps front entry fits
    refine ⟨front', back ++ (t.expires (.expire now)).map memo, ?_, ?_⟩
    · rw [← more, ← split]
      rfl
    · rw [List.length_append, List.length_map]
      omega
  | resolve id =>
    have other : decide (entry.1 = id) = false := by
      rw [decide_eq_false_iff_not]
      rintro rfl
      exact unanswered rfl
    rcases t.resolve_memory id with ⟨-, same⟩ | ⟨kind, -, -, less⟩
    · exact ⟨front, back, same.trans split, few⟩
    · -- What is used up is another memory, in front or behind.
      rw [split, List.eraseP_append] at less
      split at less
      · exact ⟨_, back, less, few⟩
      · rw [List.eraseP_cons, other, cond_false] at less
        exact ⟨front, _, less, Nat.le_trans List.eraseP_sublist.length_le few⟩
  | drain => exact absurd rfl undrained
  | register | cancel => exact ⟨front, back, split, few⟩

theorem Keeps.afterAll {entry : JobId × JobKind} {n : Nat} {t : InFlight} (kept : Keeps entry n t)
    {calls : List Call} (unanswered : .resolve entry.1 ∉ calls) (undrained : .drain ∉ calls)
    (room : n + (gather expires t calls).length < memory) :
    Keeps entry (n + (gather expires t calls).length) (t.afterAll calls) := by
  induction calls generalizing t n with
  | nil => exact kept
  | cons c calls ih =>
    rw [List.mem_cons, not_or] at unanswered undrained
    rw [gather, List.length_append, ← Nat.add_assoc] at room ⊢
    exact ih (kept.after (Ne.symm unanswered.1) (Ne.symm undrained.1) (by omega)) unanswered.2
      undrained.2 room

/-- What is remembered once is found under its identity. -/
theorem resolve_of_mem {t : InFlight}
    (once : (t.live.map (·.job.id) ++ t.abandoned.map (·.1)).Nodup) {entry : JobId × JobKind}
    (remembered : entry ∈ t.abandoned) : (t.resolve entry.1).1 = .abandoned entry.2 := by
  obtain ⟨-, distinct, apart⟩ := List.nodup_append.1 once
  have named : entry.1 ∈ t.abandoned.map (·.1) := List.mem_map_of_mem remembered
  have landed : ∀ f ∈ t.live, f.job.id ≠ entry.1 := fun f hf =>
    apart f.job.id (List.mem_map.2 ⟨f, hf, rfl⟩) entry.1 named
  obtain ⟨before, kind, behind, old, split, -⟩ := abandoned_split named
  have found : (entry.1, kind) ∈ t.abandoned := by
    rw [split]
    exact List.mem_append_right _ List.mem_cons_self
  have same : (entry.1, kind) = entry := List.inj_on_of_nodup_map distinct found remembered rfl
  rw [resolve_remembered landed old, same]

/-- A job whose time is up is remembered, and behind it those that come later in the same call. -/
theorem keeps_of_expire {t : InFlight} {now : Nat} {before behind : List Flight} {f : Flight}
    (due : (t.expire now).1 = before ++ f :: behind) (room : behind.length < memory) :
    Keeps (memo f) behind.length (t.expire now).2 := by
  have folded : (t.expire now).2.abandoned =
      behind.foldl remember (remember (before.foldl remember t.abandoned) f) := by
    show ((t.expire now).1).foldl remember t.abandoned = _
    rw [due, List.foldl_append, List.foldl_cons]
  have fits : ([] : List (JobId × JobKind)).length + behind.length < memory := by
    rw [List.length_nil]
    omega
  obtain ⟨front, kept⟩ := foldl_remember_keeps _ (memo f) fits
  refine ⟨front, behind.map memo, ?_, ?_⟩
  · rw [folded, remember_eq]
    exact kept
  · exact Nat.le_of_eq (List.length_map memo)

/-- From no point on does an identity run out of time twice. -/
theorem expires_nodup {early late : List Call} (fresh : Fresh (early ++ late)) :
    ((gather expires (run early) late).map (·.job.id)).Nodup := by
  have nodup := run_ids_nodup fresh
  rw [List.map_append] at nodup
  have all := ((expired_sublist _).map (·.job.id)).nodup (List.nodup_append.1 nodup).2.1
  rw [expired, gather_append, List.map_append] at all
  exact (List.nodup_append.1 all).2.1

/-- Those behind a flight are no more than those with another identity. -/
theorem length_behind_le {before behind : List Flight} {f : Flight}
    (nodup : ((before ++ f :: behind).map (·.job.id)).Nodup) :
    behind.length ≤ ((before ++ f :: behind).filter (·.job.id ≠ f.job.id)).length := by
  rw [List.map_append, List.map_cons] at nodup
  have first := (List.nodup_cons.1 (List.nodup_append.1 nodup).2.1).1
  have others : behind.filter (·.job.id ≠ f.job.id) = behind := by
    rw [List.filter_eq_self]
    intro g hg
    exact decide_eq_true fun same => first (List.mem_map.2 ⟨g, hg, same⟩)
  have part : behind <+ before ++ f :: behind :=
    (List.sublist_cons_self f behind).trans (List.sublist_append_right before _)
  have counted := (part.filter (·.job.id ≠ f.job.id)).length_le
  rwa [others] at counted

/-- **A job that ran out of time is known for a while.** Its late answer is recognised as long as it
    was not answered, nothing was drained, and fewer others than there are places ran out of time
    in the same call or later. -/
theorem recognised_late {early late : List Call} {now : Nat} {f : Flight}
    (fresh : Fresh (early ++ .expire now :: late)) (due : f ∈ ((run early).expire now).1)
    (unanswered : .resolve f.job.id ∉ late) (undrained : .drain ∉ late)
    (few : ((gather expires (run early) (.expire now :: late)).filter
      (·.job.id ≠ f.job.id)).length < memory) :
    ((run (early ++ .expire now :: late)).resolve f.job.id).1 = .abandoned f.job.kind := by
  have table : run (early ++ .expire now :: late) = ((run early).expire now).2.afterAll late := by
    rw [run_append]
    rfl
  obtain ⟨before, behind, split⟩ := List.append_of_mem due
  have gathered : gather expires (run early) (.expire now :: late) =
      before ++ f :: (behind ++ gather expires ((run early).expire now).2 late) := by
    show ((run early).expire now).1 ++ _ = _
    rw [split, List.append_assoc, List.cons_append]
    rfl
  have nodup := expires_nodup fresh
  rw [gathered] at nodup few
  have room := Nat.lt_of_le_of_lt (length_behind_le nodup) few
  rw [List.length_append] at room
  obtain ⟨front, back, kept, -⟩ :=
    (keeps_of_expire split (by omega)).afterAll unanswered undrained room
  rw [← table] at kept
  have remembered : memo f ∈ (run (early ++ .expire now :: late)).abandoned := by
    rw [kept]
    exact List.mem_append_right _ List.mem_cons_self
  exact resolve_of_mem (run_once fresh) remembered

/-! ## All together -/

/-- **Flights have one owner.** Ask a new table anything, without registering an identity twice. No
    identity is then held or remembered twice, or both held and remembered, and at most 64 are
    remembered. What the table holds and what it has handed out are together what was registered,
    each flight once. An answer is that to a job which ran out of time only if the job was handed
    out for that and nothing was drained since, and it is told the kind under which the job was
    registered. An answer to a job that was answered before, in time or late, is nobody's. And a
    job that ran out of time, was not answered since and not drained is recognised as long as fewer
    than 64 others ran out of time in the same call or later. -/
theorem flights_have_one_owner (calls : List Call) (fresh : Fresh calls) :
    let t := run calls
    (t.live.map (·.job.id) ++ t.abandoned.map (·.1)).Nodup ∧ t.abandoned.length ≤ 64 ∧
    ((t.live ++ handedOut calls).map (·.job.id)).Nodup ∧
    ((t.live ++ handedOut calls).map Flight.disowned).Perm ((begun calls).map Flight.disowned) ∧
    (∀ id kind, (t.resolve id).1 = .abandoned kind →
      (∃ early now late, calls = early ++ .expire now :: late ∧
        (∃ f ∈ ((run early).expire now).1, f.job.id = id) ∧ .drain ∉ late) ∧
      ∃ job now, .register job now ∈ calls ∧ job.id = id ∧ job.kind = kind) ∧
    (∀ before behind id, calls = before ++ .resolve id :: behind →
      ((run before).resolve id).1 ≠ .unknown → (t.resolve id).1 = .unknown) ∧
    ∀ early now late f, calls = early ++ .expire now :: late → f ∈ ((run early).expire now).1 →
      .resolve f.job.id ∉ late → .drain ∉ late →
      ((gather expires (run early) (.expire now :: late)).filter
        (·.job.id ≠ f.job.id)).length < 64 →
      (t.resolve f.job.id).1 = .abandoned f.job.kind := by
  intro t
  refine ⟨run_once fresh, run_abandoned_length_le calls, run_ids_nodup fresh, run_accounts fresh,
    fun id kind answer => ?_, ?_, ?_⟩
  · have remembered := mem_of_resolve answer
    refine ⟨?_, registered_of_remembered fresh remembered⟩
    obtain ⟨early, now, late, f, heq, due, same, undrained⟩ := expired_of_remembered remembered
    exact ⟨early, now, late, heq, ⟨f, due, congrArg Prod.fst same⟩, undrained⟩
  · rintro before behind id rfl answered
    exact unknown_once_answered fresh answered
  · rintro early now late f rfl due unanswered undrained few
    exact recognised_late fresh due unanswered undrained few

/-- One job runs out of time while another one, whose caller has given up, stays in flight. -/
def outOfTime : List Call :=
  [.register { id := ⟨1⟩, request := .version, timeout := some 1 } 0,
    .register { id := ⟨2⟩, request := .check none, waiter := some 0 } 3, .cancel ⟨2⟩, .expire 5]

theorem outOfTime_recognised :
    Fresh outOfTime ∧ ((run outOfTime).resolve ⟨1⟩).1 = .abandoned .version := by
  have fresh : Fresh outOfTime := by
    unfold Fresh
    decide
  refine ⟨fresh, ?_⟩
  exact (flights_have_one_owner outOfTime fresh).2.2.2.2.2.2 (outOfTime.take 3) 5 []
    { job := { id := ⟨1⟩, request := .version, timeout := some 1 }, dispatchedAt := 0,
      deadline := some 1 } rfl (by decide) (by decide) (by decide) (by decide)

end InFlight

end WorkerBridge
