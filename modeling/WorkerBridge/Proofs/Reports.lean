/-
  WorkerBridge.Proofs.Reports

  What the store shows once the reports of a check are in.

  The reports are merged document by document, documents that are open and not
  mentioned are filled in, and what is left empty is not kept. None of this
  depends on what was shown before: the result is the map of the reports
  (`install_diagnostics`), in which each document stands with all that was
  reported for it.

  The lemmas about the merging speak of what is found under a name, with nothing
  found read as an empty list. In these terms filling in changes nothing.
-/
import WorkerBridge.Documents
import WorkerBridge.Proofs.TextMap

namespace WorkerBridge

/-! ## The map of the reports -/

/-- All that the reports say about a document, in their order. -/
def itemsFor (uri : String) (reports : List Report) : List Diagnostic :=
  (reports.filter (·.uri = uri)).flatMap (·.items)

/-- The documents about which the reports say anything, each with all that they say about it. -/
def reportMap (reports : List Report) : TextMap (List Diagnostic) :=
  TextMap.ofList (((reports.map (·.uri)).filter fun uri => itemsFor uri reports ≠ []).map
    fun uri => (uri, itemsFor uri reports))

theorem itemsFor_cons (uri : String) (r : Report) (reports : List Report) :
    itemsFor uri (r :: reports) =
      (if r.uri = uri then r.items else []) ++ itemsFor uri reports := by
  rw [itemsFor, itemsFor, List.filter_cons]
  by_cases h : r.uri = uri <;> simp [h]

theorem itemsFor_eq_nil {uri : String} {reports : List Report}
    (unmentioned : uri ∉ reports.map (·.uri)) : itemsFor uri reports = [] := by
  have none : reports.filter (·.uri = uri) = [] := by
    rw [List.filter_eq_nil_iff]
    intro r hr same
    exact unmentioned (List.mem_map.2 ⟨r, hr, of_decide_eq_true same⟩)
  rw [itemsFor, none]
  rfl

theorem sorted_reportMap (reports : List Report) : (reportMap reports).Sorted :=
  TextMap.sorted_ofList _

theorem find?_reportMap (uri : String) (reports : List Report) :
    TextMap.find? uri (reportMap reports) =
      if itemsFor uri reports = [] then none else some (itemsFor uri reports) := by
  rw [reportMap, TextMap.find?_ofList (itemsFor · reports)]
  by_cases silent : itemsFor uri reports = []
  · simp [silent]
  · have mentioned : uri ∈ reports.map (·.uri) := by
      by_contra unmentioned
      exact silent (itemsFor_eq_nil unmentioned)
    have kept : uri ∈ (reports.map (·.uri)).filter fun uri => itemsFor uri reports ≠ [] :=
      List.mem_filter.2 ⟨mentioned, decide_eq_true silent⟩
    rw [if_pos kept, if_neg silent]

/-! ## Merging -/

namespace Documents

/-- A report goes behind what was reported for the document before. -/
theorem getD_addReport (uri : String) (m : TextMap (List Diagnostic)) (r : Report) :
    (TextMap.find? uri (addReport m r)).getD [] =
      (TextMap.find? uri m).getD [] ++ if r.uri = uri then r.items else [] := by
  rw [addReport, TextMap.find?_insert]
  by_cases h : r.uri = uri
  · rw [if_pos h, if_pos h, h]
    rfl
  · rw [if_neg h, if_neg h, List.append_nil]

theorem getD_addReports (uri : String) (reports : List Report) (m : TextMap (List Diagnostic)) :
    (TextMap.find? uri (reports.foldl addReport m)).getD [] =
      (TextMap.find? uri m).getD [] ++ itemsFor uri reports := by
  induction reports generalizing m with
  | nil => exact (List.append_nil _).symm
  | cons r reports ih =>
    rw [List.foldl_cons, ih, getD_addReport, itemsFor_cons, List.append_assoc]

theorem getD_addMissing (uri key : String) (m : TextMap (List Diagnostic)) :
    (TextMap.find? uri (addMissing m key)).getD [] = (TextMap.find? uri m).getD [] := by
  unfold addMissing
  split
  · rfl
  · next missing =>
    rw [TextMap.find?_insert]
    by_cases h : key = uri
    · rw [if_pos h, ← h, missing]
      rfl
    · rw [if_neg h]

theorem getD_addAllMissing (uri : String) (keys : List String) (m : TextMap (List Diagnostic)) :
    (TextMap.find? uri (keys.foldl addMissing m)).getD [] = (TextMap.find? uri m).getD [] := by
  induction keys generalizing m with
  | nil => rfl
  | cons key keys ih => rw [List.foldl_cons, ih, getD_addMissing]

/-- Merging collects all that was reported for a document, whatever else is open. -/
theorem getD_merge (d : Documents) (uri : String) (reports : List Report) :
    (TextMap.find? uri (d.merge reports)).getD [] = itemsFor uri reports := by
  rw [merge, getD_addAllMissing, getD_addReports]
  rfl

theorem sorted_addReport {m : TextMap (List Diagnostic)} (h : m.Sorted) (r : Report) :
    (addReport m r).Sorted :=
  h.insert r.uri _

theorem sorted_addReports {m : TextMap (List Diagnostic)} (h : m.Sorted) (reports : List Report) :
    (reports.foldl addReport m).Sorted := by
  induction reports generalizing m with
  | nil => exact h
  | cons r reports ih => exact ih (sorted_addReport h r)

theorem sorted_addMissing {m : TextMap (List Diagnostic)} (h : m.Sorted) (key : String) :
    (addMissing m key).Sorted := by
  unfold addMissing
  split
  · exact h
  · exact h.insert key []

theorem sorted_addAllMissing {m : TextMap (List Diagnostic)} (h : m.Sorted) (keys : List String) :
    (keys.foldl addMissing m).Sorted := by
  induction keys generalizing m with
  | nil => exact h
  | cons key keys ih => exact ih (sorted_addMissing h key)

theorem sorted_merge (d : Documents) (reports : List Report) : (d.merge reports).Sorted :=
  sorted_addAllMissing (sorted_addReports List.Pairwise.nil reports) _

/-! ## Installing -/

/-- What is kept of a list that may be missing: the list, unless it is empty. -/
theorem filter_nonempty (x : Option (List Diagnostic)) :
    (x.filter fun items => !items.isEmpty) = if x.getD [] = [] then none else some (x.getD []) := by
  cases x with
  | none => rfl
  | some items => cases items <;> rfl

/-- **Installing replaces wholesale.** Whatever was shown and whatever is open, the diagnostics are
    then those of the reports. -/
theorem install_diagnostics (d : Documents) (reports : List Report) :
    (d.install reports).2.diagnostics = reportMap reports := by
  have kept : (d.install reports).2.diagnostics =
      (d.clear.2.merge reports).filter fun entry => !entry.2.isEmpty := rfl
  have sorted := d.clear.2.sorted_merge reports
  rw [kept]
  refine TextMap.Sorted.ext (List.Pairwise.filter _ sorted) (sorted_reportMap reports) fun uri => ?_
  rw [sorted.find?_filter, filter_nonempty, getD_merge, find?_reportMap]

/-! ## Snapshots -/

/-- A snapshot holds what the store shows, in another order. -/
theorem snapshot_perm (d : Documents) : d.snapshot.files.Perm d.diagnostics :=
  List.filter_append_perm (fun file : String × List Diagnostic => hasErrors file.2) d.diagnostics

/-- What a snapshot holds for a document is what the store shows for it. -/
theorem snapshot_forUri? {d : Documents} (sorted : d.diagnostics.Sorted) (uri : String) :
    d.snapshot.forUri? uri = TextMap.find? uri d.diagnostics := by
  rw [Snapshot.forUri?, snapshot, TextMap.find?_append, sorted.find?_filter, sorted.find?_filter]
  cases TextMap.find? uri d.diagnostics with
  | none => rfl
  | some items => cases h : hasErrors items <;> simp [h]

end Documents

end WorkerBridge
