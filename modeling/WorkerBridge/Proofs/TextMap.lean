/-
  WorkerBridge.Proofs.TextMap

  The theory of maps from texts: what a lookup finds after an insertion and after
  a removal, and that a sorted map is determined by its lookups.

  The lookup equations hold of every list of entries. Only four results need the
  order: extensionality, what is found in a part of a map, that inserting the
  entries of a map one after the other rebuilds the map, and how an insertion
  changes the number of items in a map of lists.
-/
import Mathlib.Data.List.Induction
import WorkerBridge.TextMap

namespace WorkerBridge.TextMap

variable {β γ : Type}

/-- The keys ascend, so no key comes twice. -/
def Sorted (m : TextMap β) : Prop :=
  m.Pairwise fun a b => a.1 < b.1

/-! ## Lookups -/

theorem find?_cons (k key : String) (v : β) (m : TextMap β) :
    find? k ((key, v) :: m) = if key = k then some v else find? k m := by
  by_cases h : key = k
  · simp [find?, h]
  · simp [find?, h]

theorem find?_cons_self (k : String) (v : β) (m : TextMap β) :
    find? k ((k, v) :: m) = some v := by
  rw [find?_cons, if_pos rfl]

theorem find?_insert (k key : String) (v : β) (m : TextMap β) :
    find? k (insert key v m) = if key = k then some v else find? k m := by
  induction m with
  | nil => rw [insert, find?_cons]
  | cons entry m ih =>
    obtain ⟨k', w⟩ := entry
    rw [insert]
    split
    · rw [find?_cons]
    · split
      · next heq =>
        -- The entry is replaced, and any other key is looked for behind it.
        rw [find?_cons, find?_cons, ← heq]
        split <;> rfl
      · next hne =>
        rw [find?_cons, find?_cons, ih]
        by_cases hk : k' = k
        · rw [if_pos hk, if_pos hk, if_neg (fun h => hne (h.trans hk.symm))]
        · rw [if_neg hk, if_neg hk]

theorem find?_erase (k key : String) (m : TextMap β) :
    find? k (erase key m) = if key = k then none else find? k m := by
  induction m with
  | nil => simp [erase, find?]
  | cons entry m ih =>
    obtain ⟨k', w⟩ := entry
    -- An entry that is removed has the key, and one that is kept has not.
    rw [erase] at ih ⊢
    by_cases hk : k' = key
    · rw [List.filter_cons_of_neg (by simpa using hk), ih, find?_cons]
      by_cases h : key = k
      · rw [if_pos h, if_pos h]
      · rw [if_neg h, if_neg h, if_neg (fun h' => h (hk ▸ h'))]
    · rw [List.filter_cons_of_pos (by simpa using hk), find?_cons, ih, find?_cons]
      by_cases h : key = k
      · rw [if_pos h, if_pos h, if_neg (fun h' => hk (h'.trans h.symm))]
      · rw [if_neg h, if_neg h]

/-- A key before all others is not in the map. -/
theorem find?_of_lt {k : String} {m : TextMap β} (h : ∀ entry ∈ m, k < entry.1) :
    find? k m = none := by
  induction m with
  | nil => rfl
  | cons entry m ih =>
    obtain ⟨k', w⟩ := entry
    have hk : k < k' := h (k', w) List.mem_cons_self
    rw [find?_cons, if_neg (fun heq => String.ne_of_lt hk heq.symm)]
    exact ih fun entry hentry => h entry (List.mem_cons_of_mem _ hentry)

/-! ## Order -/

theorem mem_insert {entry : String × β} {key : String} {v : β} {m : TextMap β}
    (h : entry ∈ insert key v m) : entry = (key, v) ∨ entry ∈ m := by
  induction m with
  | nil => exact Or.inl (List.mem_singleton.1 h)
  | cons first m ih =>
    obtain ⟨k', w⟩ := first
    rw [insert] at h
    split at h
    · exact List.mem_cons.1 h
    · split at h
      · exact (List.mem_cons.1 h).imp_right (List.mem_cons_of_mem _)
      · rcases List.mem_cons.1 h with rfl | h
        · exact Or.inr List.mem_cons_self
        · exact (ih h).imp_right (List.mem_cons_of_mem _)

theorem Sorted.insert {m : TextMap β} (h : Sorted m) (key : String) (v : β) :
    Sorted (insert key v m) := by
  induction m with
  | nil => exact List.pairwise_singleton ..
  | cons entry m ih =>
    obtain ⟨k', w⟩ := entry
    obtain ⟨first, rest⟩ := List.pairwise_cons.1 h
    rw [TextMap.insert]
    split
    · next hlt =>
      refine List.pairwise_cons.2 ⟨?_, h⟩
      intro other hother
      rcases List.mem_cons.1 hother with rfl | hother
      · exact hlt
      · exact String.lt_trans hlt (first other hother)
    · next hge =>
      split
      · next heq => exact List.pairwise_cons.2 ⟨heq ▸ first, rest⟩
      · next hne =>
        refine List.pairwise_cons.2 ⟨?_, ih rest⟩
        intro other hother
        rcases mem_insert hother with rfl | hother
        · -- The keys are neither in this order nor the same.
          exact Decidable.byContradiction fun hge' =>
            hne (String.le_antisymm (String.not_lt.1 hge') (String.not_lt.1 hge))
        · exact first other hother

theorem Sorted.erase {m : TextMap β} (h : Sorted m) (key : String) : Sorted (erase key m) :=
  List.Pairwise.filter _ h

/-- No key that is found comes before the first one. -/
theorem Sorted.le_of_find? {k k' : String} {v w : β} {m : TextMap β}
    (h : Sorted ((k, v) :: m)) (found : find? k' ((k, v) :: m) = some w) : k ≤ k' := by
  obtain ⟨first, -⟩ := List.pairwise_cons.1 h
  refine String.not_lt.1 fun hlt => ?_
  have missing : find? k' ((k, v) :: m) = none := by
    refine find?_of_lt fun entry hentry => ?_
    rcases List.mem_cons.1 hentry with rfl | hentry
    · exact hlt
    · exact String.lt_trans hlt (first entry hentry)
  rw [missing] at found
  cases found

/-- A sorted map is determined by its lookups. -/
theorem Sorted.ext {m m' : TextMap β} (h : Sorted m) (h' : Sorted m')
    (same : ∀ k, find? k m = find? k m') : m = m' := by
  induction m generalizing m' with
  | nil =>
    cases m' with
    | nil => rfl
    | cons entry m' =>
      have hfirst := same entry.1
      rw [find?_cons_self] at hfirst
      cases hfirst
  | cons entry m ih =>
    obtain ⟨k, v⟩ := entry
    cases m' with
    | nil =>
      have hfirst := same k
      rw [find?_cons_self] at hfirst
      cases hfirst
    | cons entry' m' =>
      obtain ⟨k', v'⟩ := entry'
      have hk := (same k).symm.trans (find?_cons_self k v m)
      have hk' := (same k').trans (find?_cons_self k' v' m')
      -- Each of the two first keys is found in the other map.
      have heq : k = k' := String.le_antisymm (h.le_of_find? hk') (h'.le_of_find? hk)
      subst heq
      cases hk.symm.trans (find?_cons_self k v' m')
      obtain ⟨first, rest⟩ := List.pairwise_cons.1 h
      obtain ⟨first', rest'⟩ := List.pairwise_cons.1 h'
      congr 1
      refine ih rest rest' fun other => ?_
      have hother := same other
      rw [find?_cons, find?_cons] at hother
      by_cases hkey : k = other
      · -- The key of the first entry stands nowhere else.
        subst hkey
        rw [find?_of_lt first, find?_of_lt first']
      · rwa [if_neg hkey, if_neg hkey] at hother

/-! ## Parts of a map -/

theorem find?_append (k : String) (m m' : TextMap β) :
    find? k (m ++ m') = (find? k m).or (find? k m') := by
  rw [find?, List.find?_append, Option.map_or]
  rfl

/-- In a part of a sorted map a key is found with the value that it has in the whole. -/
theorem Sorted.find?_filter {m : TextMap β} (h : Sorted m) (p : String × β → Bool) (k : String) :
    find? k (m.filter p) = (find? k m).filter fun v => p (k, v) := by
  induction m with
  | nil => rfl
  | cons entry m ih =>
    obtain ⟨k', v⟩ := entry
    obtain ⟨first, rest⟩ := List.pairwise_cons.1 h
    have ih := ih rest
    rw [find?_cons]
    by_cases hk : k' = k
    · -- Behind the first entry the key is not found again.
      subst hk
      have behind : find? k' m = none := find?_of_lt first
      rw [if_pos rfl]
      cases hp : p (k', v) with
      | true => rw [List.filter_cons_of_pos hp, find?_cons_self, Option.filter_some, if_pos hp]
      | false =>
        have hneg : ¬ p (k', v) = true := by rw [hp]; exact Bool.false_ne_true
        rw [List.filter_cons_of_neg hneg, ih, behind, Option.filter_some, if_neg hneg]
        rfl
    · rw [if_neg hk, ← ih, List.filter_cons]
      split
      · rw [find?_cons, if_neg hk]
      · rfl

/-- The map without the entries for the given keys. -/
def without (keys : List String) (m : TextMap β) : TextMap β :=
  m.filter fun entry => entry.1 ∉ keys

theorem without_nil (m : TextMap β) : without [] m = m := by
  rw [without, List.filter_eq_self]
  intro entry _
  simp

theorem erase_without (key : String) (keys : List String) (m : TextMap β) :
    erase key (without keys m) = without (keys ++ [key]) m := by
  rw [erase, without, without, List.filter_filter]
  refine List.filter_congr fun entry _ => ?_
  by_cases hkey : entry.1 = key <;> simp [hkey]

theorem without_without (keys keys' : List String) (m : TextMap β) :
    without keys' (without keys m) = without (keys ++ keys') m := by
  rw [without, without, without, List.filter_filter]
  refine List.filter_congr fun entry _ => ?_
  rw [← Bool.decide_and]
  refine decide_eq_decide.2 ?_
  rw [List.mem_append, not_or, and_comm]

theorem Sorted.without {m : TextMap β} (h : Sorted m) (keys : List String) :
    Sorted (without keys m) :=
  List.Pairwise.filter _ h

theorem foldl_erase (keys : List String) (m : TextMap β) :
    keys.foldl (fun m key => erase key m) m = without keys m := by
  induction keys using List.reverseRecOn with
  | nil => exact (without_nil m).symm
  | append_singleton keys key ih =>
    rw [List.foldl_append, ih]
    exact erase_without key keys m

/-- Without all of its keys nothing is left of a map. -/
theorem without_keys (m : TextMap β) : without (keys m) m = [] := by
  rw [without, List.filter_eq_nil_iff]
  intro entry hentry
  have known : entry.1 ∈ keys m := List.mem_map_of_mem hentry
  simpa using known

theorem find?_without (k : String) (keys : List String) (m : TextMap β) :
    find? k (without keys m) = if k ∈ keys then none else find? k m := by
  induction keys using List.reverseRecOn with
  | nil =>
    rw [without_nil]
    rfl
  | append_singleton keys key ih =>
    rw [← erase_without, find?_erase, ih]
    by_cases hkey : key = k
    · simp [hkey]
    · simp [hkey, Ne.symm hkey]

/-! ## Rebuilding a map -/

/-- A key behind all others goes to the end. -/
theorem insert_of_gt {key : String} {v : β} {m : TextMap β} (h : ∀ entry ∈ m, entry.1 < key) :
    insert key v m = m ++ [(key, v)] := by
  induction m with
  | nil => rfl
  | cons entry m ih =>
    obtain ⟨k', w⟩ := entry
    have hk : k' < key := h (k', w) List.mem_cons_self
    rw [insert, if_neg (String.lt_asymm hk), if_neg (fun heq => String.ne_of_lt hk heq.symm),
      ih fun entry hentry => h entry (List.mem_cons_of_mem _ hentry)]
    rfl

/-- Inserting the entries of a sorted map behind smaller ones appends them. -/
theorem foldl_insert_of_sorted {m front : TextMap β} (h : Sorted (front ++ m)) :
    m.foldl (fun m entry => insert entry.1 entry.2 m) front = front ++ m := by
  induction m generalizing front with
  | nil => rw [List.foldl_nil, List.append_nil]
  | cons entry m ih =>
    have smaller : ∀ other ∈ front, other.1 < entry.1 := fun other hother =>
      (List.pairwise_append.1 h).2.2 other hother entry List.mem_cons_self
    have hfront : front ++ entry :: m = (front ++ [entry]) ++ m := by
      rw [List.append_assoc, List.singleton_append]
    rw [List.foldl_cons, insert_of_gt smaller]
    rw [hfront] at h ⊢
    exact ih h

theorem sorted_ofList (entries : List (String × β)) : Sorted (ofList entries) := by
  have grown : ∀ m : TextMap β, Sorted m →
      Sorted (entries.foldl (fun m entry => insert entry.1 entry.2 m) m) := by
    induction entries with
    | nil => exact fun m h => h
    | cons entry entries ih => exact fun m h => ih _ (h.insert entry.1 entry.2)
  exact grown [] List.Pairwise.nil

/-- A map that gives each of some keys a value of its own. -/
theorem find?_ofList (f : String → β) (keys : List String) (k : String) :
    find? k (ofList (keys.map fun key => (key, f key))) =
      if k ∈ keys then some (f k) else none := by
  rw [ofList, List.foldl_map]
  induction keys using List.reverseRecOn with
  | nil => rfl
  | append_singleton keys key ih =>
    rw [List.foldl_append, List.foldl_cons, List.foldl_nil, find?_insert, ih]
    by_cases hkey : key = k
    · simp [hkey]
    · simp [hkey, Ne.symm hkey]

/-- Inserting the entries of a sorted map one after the other rebuilds it. -/
theorem Sorted.ofList_eq {m : TextMap β} (h : Sorted m) : ofList m = m := by
  have rebuilt : m.foldl (fun m entry => TextMap.insert entry.1 entry.2 m) [] = [] ++ m :=
    foldl_insert_of_sorted h
  exact rebuilt

/-! ## Entries -/

theorem mem_of_find? {k : String} {v : β} {m : TextMap β} (found : find? k m = some v) :
    (k, v) ∈ m := by
  obtain ⟨entry, hentry, rfl⟩ := Option.map_eq_some_iff.1 found
  have key : entry.1 = k := by simpa using List.find?_some hentry
  rw [← key]
  exact List.mem_of_find?_eq_some hentry

theorem find?_of_mem {k : String} {v : β} {m : TextMap β} (nodup : (keys m).Nodup)
    (mem : (k, v) ∈ m) : find? k m = some v := by
  induction m with
  | nil => cases mem
  | cons entry m ih =>
    obtain ⟨k', w⟩ := entry
    rw [keys, List.map_cons, List.nodup_cons] at nodup
    rw [find?_cons]
    rcases List.mem_cons.1 mem with first | later
    · cases first
      rw [if_pos rfl]
    · have other : k' ≠ k := by
        rintro rfl
        exact nodup.1 (List.mem_map.2 ⟨_, later, rfl⟩)
      rw [if_neg other]
      exact ih nodup.2 later

theorem mem_keys_iff {k : String} {m : TextMap β} : k ∈ keys m ↔ (find? k m).isSome := by
  rw [find?, Option.isSome_map, List.find?_isSome, keys, List.mem_map]
  simp only [decide_eq_true_eq]

theorem mem_keys_insert {k key : String} {v : β} {m : TextMap β} :
    k ∈ keys (insert key v m) ↔ k = key ∨ k ∈ keys m := by
  rw [mem_keys_iff, mem_keys_iff, find?_insert]
  by_cases h : key = k
  · simp [h]
  · simp [h, Ne.symm h]

theorem Sorted.keys_nodup {m : TextMap β} (sorted : Sorted m) : (keys m).Nodup := by
  rw [List.Nodup, keys, List.pairwise_map]
  exact List.Pairwise.imp String.ne_of_lt sorted

/-- Of the entries with one key the last is the one that the map holds. -/
theorem find?_ofList_reverse (k : String) (entries : List (String × β)) :
    find? k (ofList entries) = find? k entries.reverse := by
  induction entries using List.reverseRecOn with
  | nil => rfl
  | append_singleton entries entry ih =>
    obtain ⟨key, v⟩ := entry
    rw [List.reverse_append, List.reverse_singleton, List.singleton_append, find?_cons, ← ih,
      ← find?_insert, ofList, ofList, List.foldl_append]
    rfl

/-- Where no key comes twice, a map holds its entries as they were given. -/
theorem find?_ofList_of_nodup (k : String) {entries : List (String × β)}
    (nodup : (keys entries).Nodup) : find? k (ofList entries) = find? k entries := by
  have nodup' : (keys entries.reverse).Nodup := by
    rw [keys, List.map_reverse]
    exact List.pairwise_reverse.2 (List.Pairwise.imp Ne.symm nodup)
  rw [find?_ofList_reverse]
  ext v
  constructor
  · exact fun found => find?_of_mem nodup (List.mem_reverse.1 (mem_of_find? found))
  · exact fun found => find?_of_mem nodup' (List.mem_reverse.2 (mem_of_find? found))

/-- An entry whose key comes nowhere else may as well be given last. -/
theorem ofList_cons {key : String} {v : β} {entries : List (String × β)}
    (nodup : (keys ((key, v) :: entries)).Nodup) :
    ofList ((key, v) :: entries) = insert key v (ofList entries) := by
  have rest : (keys entries).Nodup := (List.pairwise_cons.1 nodup).2
  refine Sorted.ext (sorted_ofList _) ((sorted_ofList entries).insert key v) fun k => ?_
  rw [find?_ofList_of_nodup k nodup, find?_cons, find?_insert, find?_ofList_of_nodup k rest]

theorem mem_of_mem_ofList {entry : String × β} {entries : List (String × β)}
    (mem : entry ∈ ofList entries) : entry ∈ entries := by
  have found := find?_of_mem (sorted_ofList entries).keys_nodup mem
  rw [find?_ofList_reverse] at found
  exact List.mem_reverse.1 (mem_of_find? found)

/-- Names that are given to some items are names. -/
theorem keys_zip_sublist (names : List String) (items : List β) :
    (keys (names.zip items)).Sublist names := by
  induction names generalizing items with
  | nil => exact List.Sublist.slnil
  | cons name names ih =>
    cases items with
    | nil => exact List.nil_sublist _
    | cons v items => exact (ih items).cons_cons name

/-! ## Maps of the values -/

/-- The map with another value for every key. -/
def mapValues (f : β → γ) (m : TextMap β) : TextMap γ :=
  m.map fun entry => (entry.1, f entry.2)

theorem mapValues_insert (f : β → γ) (key : String) (v : β) (m : TextMap β) :
    mapValues f (insert key v m) = insert key (f v) (mapValues f m) := by
  induction m with
  | nil => rfl
  | cons entry m ih =>
    obtain ⟨k', w⟩ := entry
    rw [mapValues] at ih ⊢
    rw [insert, mapValues, List.map_cons, insert]
    by_cases hlt : key < k'
    · rw [if_pos hlt, if_pos hlt, List.map_cons, List.map_cons]
    · rw [if_neg hlt, if_neg hlt]
      by_cases heq : key = k'
      · rw [if_pos heq, if_pos heq, List.map_cons]
      · rw [if_neg heq, if_neg heq, List.map_cons, ih]
        rfl

theorem mapValues_erase (f : β → γ) (key : String) (m : TextMap β) :
    mapValues f (erase key m) = erase key (mapValues f m) := by
  rw [mapValues, mapValues, erase, erase, List.filter_map]
  rfl

theorem find?_mapValues (k : String) (f : β → γ) (m : TextMap β) :
    find? k (mapValues f m) = (find? k m).map f := by
  rw [find?, find?, mapValues, List.find?_map, Option.map_map, Option.map_map]
  rfl

theorem Sorted.mapValues {m : TextMap β} (h : Sorted m) (f : β → γ) : Sorted (mapValues f m) :=
  List.pairwise_map.2 h

/-! ## Maps of lists -/

/-- How many items the lists of a map hold together. -/
def total : TextMap (List β) → Nat
  | [] => 0
  | entry :: m => entry.2.length + total m

theorem total_eq_length (m : TextMap (List β)) : total m = (m.flatMap (·.2)).length := by
  induction m with
  | nil => rfl
  | cons entry m ih => rw [total, ih, List.flatMap_cons, List.length_append]

/-- A new list counts in place of the one that the key had before. -/
theorem Sorted.total_insert {m : TextMap (List β)} (h : Sorted m) (key : String) (v : List β) :
    total (TextMap.insert key v m) + ((find? key m).getD []).length = total m + v.length := by
  induction m with
  | nil =>
    show v.length + 0 + 0 = 0 + v.length
    omega
  | cons entry m ih =>
    obtain ⟨k, w⟩ := entry
    obtain ⟨first, rest⟩ := List.pairwise_cons.1 h
    rw [TextMap.insert]
    split
    · next hlt =>
      -- The key is before all others, so it had no list.
      have missing : find? key ((k, w) :: m) = none := by
        apply find?_of_lt
        intro other hother
        rcases List.mem_cons.1 hother with rfl | hother
        · exact hlt
        · exact String.lt_trans hlt (first other hother)
      rw [missing]
      show v.length + total ((k, w) :: m) + 0 = total ((k, w) :: m) + v.length
      omega
    · split
      · next heq =>
        rw [← heq, find?_cons_self]
        show v.length + total m + w.length = w.length + total m + v.length
        omega
      · next hne =>
        have later := ih rest
        rw [find?_cons, if_neg (Ne.symm hne), total, total]
        omega

/-- Lists without items do not count. -/
theorem total_filter_nonempty (m : TextMap (List β)) :
    total (m.filter fun entry => !entry.2.isEmpty) = total m := by
  induction m with
  | nil => rfl
  | cons entry m ih =>
    rw [List.filter_cons, total]
    cases empty : entry.2.isEmpty with
    | true =>
      rw [List.isEmpty_iff.1 empty, List.length_nil, Nat.zero_add]
      exact ih
    | false =>
      show entry.2.length + total (m.filter fun entry => !entry.2.isEmpty) = _
      rw [ih]

end WorkerBridge.TextMap
