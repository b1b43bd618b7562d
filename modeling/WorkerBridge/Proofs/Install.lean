/-
  WorkerBridge.Proofs.Install

  What the reports of a check leave in the store, and what the editor hears of
  them.

  Merging goes over the reports and then over the open documents, so each of the
  two passes adds the documents that it names (`mem_keys_merge`); what is found
  for each of them is known already (`getD_merge`). The number of diagnostics is
  followed through the same passes: a report adds as many as it has, and neither
  the filling in of a document nor the removal of an empty list makes a
  difference (`total_merge`).
-/
import WorkerBridge.Proofs.Reports

namespace WorkerBridge

namespace Documents

/-! ## Which documents the merging names -/

theorem mem_keys_addReports {uri : String} {reports : List Report}
    {m : TextMap (List Diagnostic)} :
    uri ∈ TextMap.keys (reports.foldl addReport m) ↔
      uri ∈ TextMap.keys m ∨ uri ∈ reports.map (·.uri) := by
  induction reports generalizing m with
  | nil => simp
  | cons r reports ih =>
    rw [List.foldl_cons, ih, addReport, TextMap.mem_keys_insert, List.map_cons, List.mem_cons]
    tauto

theorem mem_keys_addMissing {uri key : String} {m : TextMap (List Diagnostic)} :
    uri ∈ TextMap.keys (addMissing m key) ↔ uri ∈ TextMap.keys m ∨ uri = key := by
  unfold addMissing
  split
  · next items found =>
    -- A document that was reported is not added again.
    have known : key ∈ TextMap.keys m := TextMap.mem_keys_iff.2 (by rw [found]; rfl)
    constructor
    · exact Or.inl
    · rintro (old | rfl)
      · exact old
      · exact known
  · rw [TextMap.mem_keys_insert, or_comm]

theorem mem_keys_addAllMissing {uri : String} {keys : List String}
    {m : TextMap (List Diagnostic)} :
    uri ∈ TextMap.keys (keys.foldl addMissing m) ↔ uri ∈ TextMap.keys m ∨ uri ∈ keys := by
  induction keys generalizing m with
  | nil => simp
  | cons key keys ih =>
    rw [List.foldl_cons, ih, mem_keys_addMissing, List.mem_cons, or_assoc]

/-- Merging names the documents that are reported and those that are open. -/
theorem mem_keys_merge {d : Documents} {uri : String} {reports : List Report} :
    uri ∈ TextMap.keys (d.merge reports) ↔
      uri ∈ reports.map (·.uri) ∨ uri ∈ TextMap.keys d.documents := by
  rw [merge, mem_keys_addAllMissing, mem_keys_addReports]
  simp [TextMap.keys]

/-- Each document that the merging names stands there with all that was reported for it. -/
theorem items_of_mem_merge {d : Documents} {reports : List Report}
    {entry : String × List Diagnostic} (hentry : entry ∈ d.merge reports) :
    entry.2 = itemsFor entry.1 reports := by
  have found := TextMap.find?_of_mem (d.sorted_merge reports).keys_nodup hentry
  have collected := d.getD_merge entry.1 reports
  rw [found] at collected
  exact collected

/-! ## How many diagnostics there are -/

theorem total_addReport {m : TextMap (List Diagnostic)} (h : m.Sorted) (r : Report) :
    TextMap.total (addReport m r) = TextMap.total m + r.items.length := by
  have grown := h.total_insert r.uri ((TextMap.find? r.uri m).getD [] ++ r.items)
  rw [List.length_append] at grown
  rw [addReport]
  omega

theorem total_addReports {m : TextMap (List Diagnostic)} (h : m.Sorted) (reports : List Report) :
    TextMap.total (reports.foldl addReport m) =
      TextMap.total m + (reports.flatMap (·.items)).length := by
  induction reports generalizing m with
  | nil => rfl
  | cons r reports ih =>
    rw [List.foldl_cons, ih (sorted_addReport h r), total_addReport h, List.flatMap_cons,
      List.length_append]
    omega

theorem total_addMissing {m : TextMap (List Diagnostic)} (h : m.Sorted) (key : String) :
    TextMap.total (addMissing m key) = TextMap.total m := by
  unfold addMissing
  split
  · rfl
  · next missing =>
    have grown := h.total_insert key []
    rw [missing] at grown
    exact grown

theorem total_addAllMissing {m : TextMap (List Diagnostic)} (h : m.Sorted) (keys : List String) :
    TextMap.total (keys.foldl addMissing m) = TextMap.total m := by
  induction keys generalizing m with
  | nil => rfl
  | cons key keys ih => rw [List.foldl_cons, ih (sorted_addMissing h key), total_addMissing h]

/-- Merging neither loses nor repeats a diagnostic. -/
theorem total_merge (d : Documents) (reports : List Report) :
    TextMap.total (d.merge reports) = (reports.flatMap (·.items)).length := by
  rw [merge, total_addAllMissing (sorted_addReports List.Pairwise.nil reports),
    total_addReports List.Pairwise.nil]
  exact Nat.zero_add _

/-! ## Events -/

/-- What is told when reports are installed: what was shown is cleared, and then each document that
    is reported or open comes with all that was reported for it. -/
theorem install_events (d : Documents) (reports : List Report) :
    (d.install reports).1 =
      (TextMap.keys d.diagnostics).map .cleared ++
        (TextMap.keys (d.merge reports)).map fun uri => .diagnostics uri (itemsFor uri reports) := by
  show _ ++ (d.merge reports).map (fun entry => Event.diagnostics entry.1 entry.2) = _ ++ _
  congr 1
  rw [TextMap.keys, List.map_map]
  apply List.map_congr_left
  intro entry hentry
  show Event.diagnostics entry.1 entry.2 = Event.diagnostics entry.1 (itemsFor entry.1 reports)
  rw [items_of_mem_merge hentry]

/-- **Installing replaces wholesale.** Whatever was shown before, each document then has one entry
    with all that was reported for it, in the order of the reports, and no entry if that is
    nothing; as many diagnostics are stored as were reported. The events clear every document that
    had an entry, in ascending order, and then tell of every document that is reported or open, once
    each and in ascending order, with its complete list. -/
theorem install_replaces_wholesale (d : Documents) (sorted : d.diagnostics.Sorted)
    (reports : List Report) :
    (∀ uri, TextMap.find? uri (d.install reports).2.diagnostics =
      if itemsFor uri reports = [] then none else some (itemsFor uri reports)) ∧
    (d.install reports).2.diagnostics.Sorted ∧
    (∀ other : Documents,
      (other.install reports).2.diagnostics = (d.install reports).2.diagnostics) ∧
    TextMap.total (d.install reports).2.diagnostics = (reports.flatMap (·.items)).length ∧
    ∃ cleared told : List String,
      (d.install reports).1 =
        cleared.map .cleared ++ told.map (fun uri => .diagnostics uri (itemsFor uri reports)) ∧
      cleared.Pairwise (· < ·) ∧
      (∀ uri, uri ∈ cleared ↔ (TextMap.find? uri d.diagnostics).isSome) ∧
      told.Pairwise (· < ·) ∧
      (∀ uri, uri ∈ told ↔
        uri ∈ reports.map (·.uri) ∨ (TextMap.find? uri d.documents).isSome) := by
  refine ⟨fun uri => ?_, ?_, fun other => ?_, ?_, TextMap.keys d.diagnostics,
    TextMap.keys (d.merge reports), d.install_events reports, List.pairwise_map.2 sorted,
    fun uri => TextMap.mem_keys_iff, List.pairwise_map.2 (d.sorted_merge reports), fun uri => ?_⟩
  · rw [install_diagnostics, find?_reportMap]
  · rw [install_diagnostics]
    exact sorted_reportMap reports
  · rw [install_diagnostics, install_diagnostics]
  · show TextMap.total ((d.merge reports).filter fun entry => !entry.2.isEmpty) = _
    rw [TextMap.total_filter_nonempty, total_merge]
  · rw [mem_keys_merge, TextMap.mem_keys_iff]

/-- An error at the first character. -/
def flaw (message : String) : Diagnostic :=
  ⟨.error, message, ⟨⟨0, 0⟩, ⟨0, 1⟩⟩, defaultSource, none⟩

/-- Of two documents that have findings one is open and one is not. -/
def halfOpen : Documents :=
  { documents := [("a", ⟨"", 1⟩), ("b", ⟨"", 2⟩)],
    diagnostics := [("b", [flaw "old"]), ("c", [flaw "old"])] }

/-- Reports that come back to a document, and one that is empty. -/
def scattered : List Report :=
  [⟨"d", [flaw "first"]⟩, ⟨"a", []⟩, ⟨"c", [flaw "only"]⟩, ⟨"d", [flaw "second"]⟩]

theorem scattered_replace_old :
    TextMap.find? "d" (halfOpen.install scattered).2.diagnostics =
        some [flaw "first", flaw "second"] ∧
      TextMap.find? "b" (halfOpen.install scattered).2.diagnostics = none ∧
      TextMap.total (halfOpen.install scattered).2.diagnostics = 3 := by
  have sorted : halfOpen.diagnostics.Sorted := List.pairwise_pair.2 (by decide)
  obtain ⟨found, -, -, stored, -⟩ := install_replaces_wholesale halfOpen sorted scattered
  exact ⟨(found "d").trans (by decide), (found "b").trans (by decide), stored⟩

end Documents

end WorkerBridge
