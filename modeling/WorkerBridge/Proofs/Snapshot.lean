/-
  WorkerBridge.Proofs.Snapshot

  A snapshot is the one way to list what a store shows.

  It has documents with errors before the others, and each of the two groups in
  ascending order. Any two documents are told apart by this order (`Precedes`), so
  there is only one such list of the entries of a store (`ListedAs.unique`), and
  whoever sorts the entries gets it, in whatever order they come
  (`listedAs_sort`). That the lists are never empty is a property of the stores
  that can be reached: no change leaves an empty list behind (`Tidy`).
-/
import WorkerBridge.Proofs.Store

namespace WorkerBridge

/-! ## Stores without empty lists -/

/-- Findings as a store holds them: in ascending order, and no document with none. -/
structure Tidy (m : TextMap (List Diagnostic)) : Prop where
  sorted : m.Sorted
  nonempty : ∀ entry ∈ m, entry.2 ≠ []

theorem tidy_nil : Tidy [] :=
  ⟨List.Pairwise.nil, fun _ hentry => nomatch hentry⟩

theorem tidy_reportMap (reports : List Report) : Tidy (reportMap reports) := by
  have sorted := sorted_reportMap reports
  refine ⟨sorted, ?_⟩
  rintro ⟨uri, items⟩ hentry
  have found := TextMap.find?_of_mem sorted.keys_nodup hentry
  rw [find?_reportMap] at found
  split at found
  · cases found
  · next some => exact Option.some.inj found ▸ some

theorem Tidy.leaves {m : TextMap (List Diagnostic)} (h : Tidy m) (c : Change) :
    Tidy (c.leaves m) := by
  cases c with
  | followed r =>
    refine ⟨h.sorted.without _, ?_⟩
    intro entry hentry
    exact h.nonempty entry (List.mem_of_mem_filter hentry)
  | reported reports => exact tidy_reportMap reports
  | checking => exact tidy_nil

/-- Whatever a new store goes through, it holds no empty list. -/
theorem Documents.tidy_undergoAll (cs : List Change) :
    Tidy (({} : Documents).undergoAll cs).2.diagnostics := by
  rw [undergoAll_diagnostics]
  induction cs using List.reverseRecOn with
  | nil => exact tidy_nil
  | append_singleton cs c ih =>
    rw [List.foldl_append]
    exact ih.leaves c

/-! ## The order of a snapshot -/

namespace Snapshot

/-- A document with its findings. -/
abbrev File := String × List Diagnostic

/-- Errors come first, and documents that are alike in that are in ascending order. -/
def Precedes (a b : File) : Prop :=
  (hasErrors b.2 → hasErrors a.2) ∧ (hasErrors a.2 = hasErrors b.2 → a.1 < b.1)

theorem Precedes.asymm {a b : File} (h : Precedes a b) (h' : Precedes b a) : False := by
  have alike : hasErrors a.2 = hasErrors b.2 := Bool.eq_iff_iff.2 ⟨h'.1, h.1⟩
  exact String.lt_asymm (h.2 alike) (h'.2 alike.symm)

/-- The comparison by which files are sorted. -/
def File.le (a b : File) : Bool :=
  if hasErrors a.2 = hasErrors b.2 then a.1 ≤ b.1 else hasErrors a.2

theorem File.le_iff {a b : File} :
    File.le a b ↔
      (hasErrors b.2 → hasErrors a.2) ∧ (hasErrors a.2 = hasErrors b.2 → a.1 ≤ b.1) := by
  unfold File.le
  cases ha : hasErrors a.2 <;> cases hb : hasErrors b.2 <;> simp

theorem File.le_total (a b : File) : File.le a b || File.le b a := by
  rw [Bool.or_eq_true, File.le_iff, File.le_iff]
  by_cases alike : hasErrors a.2 = hasErrors b.2
  · rw [alike]
    exact (String.le_total a.1 b.1).imp (fun le => ⟨id, fun _ => le⟩) fun le => ⟨id, fun _ => le⟩
  · cases ha : hasErrors a.2 <;> cases hb : hasErrors b.2 <;> simp_all

theorem File.le_trans (a b c : File) (h : File.le a b) (h' : File.le b c) : File.le a c := by
  rw [File.le_iff] at *
  refine ⟨h.1 ∘ h'.1, fun alike => ?_⟩
  -- What is between two that are alike is like them.
  have first : hasErrors a.2 = hasErrors b.2 :=
    Bool.eq_iff_iff.2 ⟨fun errors => h'.1 (alike ▸ errors), h.1⟩
  exact String.le_trans (h.2 first) (h'.2 (first.symm.trans alike))

/-- Between different documents the comparison is strict. -/
theorem File.precedes_of_le {a b : File} (h : File.le a b) (different : a.1 ≠ b.1) :
    Precedes a b := by
  obtain ⟨errors, ascending⟩ := File.le_iff.1 h
  refine ⟨errors, fun alike => String.not_le.1 fun ge => ?_⟩
  exact different (String.le_antisymm (ascending alike) ge)

end Snapshot

/-! ## Lists of what is shown -/

open Snapshot (File Precedes)

/-- A list of what a store shows: each document that has findings comes once, with all of them and
    with some, errors first and else in ascending order. -/
structure Documents.ListedAs (d : Documents) (files : List File) : Prop where
  once : (files.map (·.1)).Nodup
  shown : ∀ uri items, (uri, items) ∈ files ↔ TextMap.find? uri d.diagnostics = some items
  nonempty : ∀ file ∈ files, file.2 ≠ []
  errorsFirst : files.Pairwise fun a b => hasErrors b.2 → hasErrors a.2
  ascending : files.Pairwise fun a b => hasErrors a.2 = hasErrors b.2 → a.1 < b.1

namespace Documents

variable {d : Documents} {files others : List File}

/-- The entries of a store, in the order of a snapshot. -/
theorem listedAs_of_perm (tidy : Tidy d.diagnostics) (perm : files.Perm d.diagnostics)
    (ordered : files.Pairwise Precedes) : d.ListedAs files := by
  have once := tidy.sorted.keys_nodup
  refine ⟨(perm.map Prod.fst).nodup_iff.2 once, fun uri items => ?_, fun file hfile => ?_,
    ordered.imp And.left, ordered.imp And.right⟩
  · rw [perm.mem_iff]
    exact ⟨TextMap.find?_of_mem once, TextMap.mem_of_find?⟩
  · exact tidy.nonempty file (perm.mem_iff.1 hfile)

/-- **There is one such list.** -/
theorem ListedAs.unique (h : d.ListedAs files) (h' : d.ListedAs others) : files = others := by
  have perm : files.Perm others := by
    apply (List.perm_ext_iff_of_nodup h.once.of_map h'.once.of_map).2
    rintro ⟨uri, items⟩
    rw [h.shown, h'.shown]
  apply List.Perm.eq_of_pairwise _ (h.errorsFirst.and h.ascending)
    (h'.errorsFirst.and h'.ascending) perm
  intro a b _ _ before behind
  exact (Precedes.asymm before behind).elim

theorem listedAs_snapshot (tidy : Tidy d.diagnostics) : d.ListedAs d.snapshot.files := by
  apply listedAs_of_perm tidy d.snapshot_perm
  -- Each of the two groups is in the order of the entries.
  have group (p : File → Bool) (alike : ∀ a b, p a → p b → hasErrors a.2 = hasErrors b.2) :
      (d.diagnostics.filter p).Pairwise Precedes := by
    apply List.Pairwise.imp_of_mem _ (List.Pairwise.filter p tidy.sorted)
    intro a b ha hb ascending
    have same := alike a b (List.mem_filter.1 ha).2 (List.mem_filter.1 hb).2
    exact ⟨fun errors => same ▸ errors, fun _ => ascending⟩
  refine List.pairwise_append.2 ⟨group _ fun a b ha hb => ?_, group _ fun a b ha hb => ?_, ?_⟩
  · exact Eq.trans ha (Eq.symm hb)
  · rw [Bool.not_eq_true'] at ha hb
    rw [ha, hb]
  · intro a ha b hb
    have errors : hasErrors a.2 = true := (List.mem_filter.1 ha).2
    have none : hasErrors b.2 = false := by simpa using (List.mem_filter.1 hb).2
    exact ⟨fun _ => errors, fun alike => by rw [errors, none] at alike; cases alike⟩

/-- The entries of a store, sorted, in whatever order they come. -/
theorem listedAs_sort (tidy : Tidy d.diagnostics) (perm : files.Perm d.diagnostics) :
    d.ListedAs (files.mergeSort File.le) := by
  have sorted := (files.mergeSort_perm File.le).trans perm
  apply listedAs_of_perm tidy sorted
  have different : ((files.mergeSort File.le).map (·.1)).Nodup :=
    (sorted.map Prod.fst).nodup_iff.2 tidy.sorted.keys_nodup
  have ordered := List.pairwise_mergeSort File.le_trans File.le_total files
  exact (ordered.and (List.pairwise_map.1 different)).imp fun ⟨le, ne⟩ => File.precedes_of_le le ne

/-! ## Counts -/

theorem snapshot_total (d : Documents) : d.snapshot.total = TextMap.total d.diagnostics := by
  rw [Snapshot.total, ← List.sum_eq_foldl_nat, TextMap.total_eq_length, List.length_flatMap]
  exact (d.snapshot_perm.map (·.2.length)).sum_nat

end Documents

theorem hasErrors_iff {items : List Diagnostic} :
    hasErrors items ↔ ∃ x ∈ items, x.severity = .error := by
  have isError (s : Severity) : s.isError = true ↔ s = .error := by cases s <;> decide
  rw [hasErrors, List.any_eq_true]
  simp only [isError]

namespace Snapshot

theorem count_error_pos {s : Snapshot} : 0 < s.count .error ↔ ∃ file ∈ s.files, hasErrors file.2 := by
  simp only [count, List.length_pos_iff_exists_mem, List.mem_filter, List.mem_flatMap,
    decide_eq_true_eq, hasErrors_iff]
  constructor
  · rintro ⟨x, ⟨file, hfile, hx⟩, error⟩
    exact ⟨file, hfile, x, hx, error⟩
  · rintro ⟨file, hfile, x, hx, error⟩
    exact ⟨x, ⟨file, hfile, hx⟩, error⟩

end Snapshot

namespace Documents

/-- Where errors come first, there are some if and only if the first file has some. -/
theorem ListedAs.errors_iff {d : Documents} {files : List File} (h : d.ListedAs files) :
    (∃ file ∈ files, hasErrors file.2) ↔ ∃ first, files.head? = some first ∧ hasErrors first.2 := by
  cases files with
  | nil => simp
  | cons first rest =>
    constructor
    · rintro ⟨file, hfile, errors⟩
      refine ⟨first, rfl, ?_⟩
      rcases List.mem_cons.1 hfile with rfl | hfile
      · exact errors
      · exact (List.pairwise_cons.1 h.errorsFirst).1 file hfile errors
    · rintro ⟨_, ⟨⟩, errors⟩
      exact ⟨first, List.mem_cons_self, errors⟩

/-- **Snapshots are canonical.** Take a new store through any updates, closings, clearings and
    reports. Its snapshot lists each document that has findings once, with all of them, errors
    first and else in ascending order. There is no other such list, and to sort the entries of the
    store leads to this one in whatever order they come. What a snapshot holds for a document is
    what the store holds for it; the total is that of the lists in the store; and there are errors
    if and only if the first file has one. -/
theorem snapshot_canonical (cs : List Change) :
    let d := (({} : Documents).undergoAll cs).2
    d.ListedAs d.snapshot.files ∧
    (∀ files, d.ListedAs files → files = d.snapshot.files) ∧
    (∀ entries : List File, entries.Perm d.diagnostics →
      entries.mergeSort File.le = d.snapshot.files) ∧
    (∀ uri, d.snapshot.forUri? uri = TextMap.find? uri d.diagnostics) ∧
    d.snapshot.total = TextMap.total d.diagnostics ∧
    (0 < d.snapshot.count .error ↔
      ∃ first, d.snapshot.files.head? = some first ∧ hasErrors first.2) := by
  intro d
  have tidy : Tidy d.diagnostics := tidy_undergoAll cs
  have listed := listedAs_snapshot tidy
  refine ⟨listed, fun files h => h.unique listed, fun entries perm => ?_,
    snapshot_forUri? tidy.sorted, d.snapshot_total, ?_⟩
  · exact (listedAs_sort tidy perm).unique listed
  · rw [Snapshot.count_error_pos]
    exact listed.errors_iff

/-- A finding of the given severity. -/
def finding (severity : Severity) : Diagnostic :=
  ⟨severity, "Here.", ⟨⟨0, 0⟩, ⟨0, 1⟩⟩, defaultSource, none⟩

/-- A check that finds something in three documents, one of which is closed then. -/
def mixedFindings : List Change :=
  [.followed (.addUri "a" ""),
    .reported [⟨"c", [finding .error]⟩, ⟨"b", [finding .hint, finding .error]⟩,
      ⟨"a", [finding .warning]⟩],
    .followed (.remUri "c")]

theorem mixedFindings_sorted :
    [("b", [finding .hint, finding .error]), ("a", [finding .warning])].mergeSort File.le =
        (({} : Documents).undergoAll mixedFindings).2.snapshot.files ∧
      [("a", [finding .warning]), ("b", [finding .hint, finding .error])].mergeSort File.le =
        (({} : Documents).undergoAll mixedFindings).2.snapshot.files := by
  have sorts := (snapshot_canonical mixedFindings).2.2.1
  constructor
  · exact sorts _ (List.Perm.swap ..)
  · exact sorts _ (List.Perm.refl _)

end Documents

end WorkerBridge
