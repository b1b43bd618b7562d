/-
  WorkerBridge.Proofs.Records

  What is read out of a JSON value is what is written there.

  A record is written as an object or as the array of its fields. `members` is what
  both have in common: the values of the fields by their names. A record is read
  field by field, and a field that does not fit stops the reading before any field
  is looked up; so a record is read if and only if it is written as one and each
  of its fields is read (`Layout.read_iff`). `Reads` is that a decoder reads exactly
  what is written in a certain way. It goes from the parts of a value to the whole:
  from values to arrays of them, to fields, and to records.
-/
import Mathlib.Data.List.Forall2
import Mathlib.Data.List.Nodup
import WorkerBridge.Position
import WorkerBridge.Proofs.JsonText
import WorkerBridge.Proofs.TextMap

namespace WorkerBridge

namespace Json

/-- A value in which every object is a map: its keys ascend. -/
inductive Proper : Json → Prop where
  | null : Proper .null
  | bool (b : Bool) : Proper (.bool b)
  | num (n : Number) : Proper (.num n)
  | str (s : String) : Proper (.str s)
  | arr {items : List Json} (each : ∀ v ∈ items, Proper v) : Proper (.arr items)
  | obj {fields : List (String × Json)} (sorted : TextMap.Sorted fields)
      (each : ∀ entry ∈ fields, Proper entry.2) : Proper (.obj fields)

/-- The values of a record by the names of its fields, whether the record is written as an object or
as the array of its fields. -/
def members (names : List String) : Json → List (String × Json)
  | .obj fields => fields
  | .arr items => names.zip items
  | _ => []

/-- The value of one field of a record. -/
def member? (names : List String) (v : Json) (name : String) : Option Json :=
  TextMap.find? name (v.members names)

/-- An object, or an array of at least `least` and at most `most` items. -/
def IsRecord (least most : Nat) : Json → Prop
  | .obj _ => True
  | .arr items => least ≤ items.length ∧ items.length ≤ most
  | _ => False

theorem Proper.members_nodup {v : Json} (proper : v.Proper) {names : List String}
    (nodup : names.Nodup) : (TextMap.keys (v.members names)).Nodup := by
  cases proper with
  | obj sorted _ => exact sorted.keys_nodup
  | arr _ => exact nodup.sublist (TextMap.keys_zip_sublist names _)
  | _ => exact List.nodup_nil

/-- What stands in a proper record is proper. -/
theorem Proper.member? {v : Json} (proper : v.Proper) {names : List String} {name : String}
    {w : Json} (found : v.member? names name = some w) : w.Proper := by
  have mem := TextMap.mem_of_find? found
  cases proper with
  | obj _ each => exact each _ mem
  | arr each => exact each w (List.of_mem_zip mem).2
  | _ => cases mem

/-- A text stands for proper values only: of the fields with one key a single one is kept. -/
theorem Spells.proper {text : List Char} {t : Tree} (spells : Spells text t) :
    t.value.Proper := by
  induction spells with
  | null => exact .null
  | true | false => exact .bool _
  | num => exact .num _
  | str => exact .str _
  | noItems => exact .arr (by simp [valuesOfItems])
  | items _ _ ih =>
    rw [value_items]
    exact .arr (List.forall_mem_map.2 ih)
  | noFields => exact .obj .nil (by simp [valuesOfFields, TextMap.ofList])
  | fields _ _ ih =>
    rw [value_fields]
    refine .obj (TextMap.sorted_ofList _) fun entry hentry => ?_
    obtain ⟨m, hm, rfl⟩ := List.mem_map.1 (TextMap.mem_of_mem_ofList hentry)
    exact ih m hm

theorem IsJson.proper {body : List UInt8} {t : Tree} (text : IsJson body t) :
    t.value.Proper := by
  obtain ⟨s, -, e, -, rfl, spells⟩ := text
  exact spells.proper

theorem Exact.proper {depth : Nat} {v : Json} (exact : Exact depth v) : v.Proper := by
  obtain ⟨t, fits, rfl⟩ := exact.fits
  exact fits.spells.proper

/-- A field of a record that is written as an array is one of its items. -/
theorem mem_of_member? {names : List String} {items : List Json} {name : String} {w : Json}
    (found : (Json.arr items).member? names name = some w) : w ∈ items :=
  (List.of_mem_zip (TextMap.mem_of_find? found)).2

namespace Shape

variable {α β : Type}

theorem bind_eq_ok_iff {x : Except ShapeError α} {f : α → Except ShapeError β} {b : β} :
    (x >>= f) = .ok b ↔ ∃ a, x = .ok a ∧ f a = .ok b := by
  cases x <;> simp [bind, Except.bind]

theorem map_eq_ok_iff {x : Except ShapeError α} {f : α → β} {b : β} :
    x.map f = .ok b ↔ ∃ a, x = .ok a ∧ f a = b := by
  cases x <;> simp [Except.map]

/-! ## Single values -/

/-- The decoder reads what is written in the given way, and nothing else. -/
def Reads (d : Decoder α) (written : α → Json → Prop) : Prop :=
  ∀ v, v.Proper → ∀ a, d v = .ok a ↔ written a v

theorem text_eq_ok_iff {v : Json} {s : String} : text v = .ok s ↔ v = .str s := by
  cases v <;> simp [text]

theorem natural_eq_ok_iff {limit n : Nat} {v : Json} :
    natural limit v = .ok n ↔ v = .ofNat n ∧ n ≤ limit := by
  constructor
  · intro read
    unfold natural at read
    split at read
    · split at read
      · next fits =>
        cases read
        exact ⟨rfl, fits⟩
      · cases read
    · cases read
    · cases read
  · rintro ⟨rfl, fits⟩
    exact if_pos fits

theorem unsigned32_eq_ok_iff {n : UInt32} {v : Json} :
    unsigned32 v = .ok n ↔ v = .ofNat n.toNat := by
  rw [unsigned32, map_eq_ok_iff]
  constructor
  · rintro ⟨m, read, rfl⟩
    obtain ⟨rfl, fits⟩ := natural_eq_ok_iff.1 read
    have whole : (UInt32.ofNat m).toNat = m := UInt32.toNat_ofNat_of_lt (Nat.lt_succ_of_le fits)
    rw [whole]
  · rintro rfl
    have fits : n.toNat ≤ 4294967295 := Nat.le_of_lt_succ n.toNat_lt
    exact ⟨n.toNat, natural_eq_ok_iff.2 ⟨rfl, fits⟩, UInt32.ofNat_toNat⟩

theorem reads_text : Reads text fun s v => v = .str s :=
  fun _ _ _ => text_eq_ok_iff

theorem reads_natural (limit : Nat) : Reads (natural limit) fun n v => v = .ofNat n ∧ n ≤ limit :=
  fun _ _ _ => natural_eq_ok_iff

theorem reads_unsigned32 : Reads unsigned32 fun n v => v = .ofNat n.toNat :=
  fun _ _ _ => unsigned32_eq_ok_iff

theorem reads_any : Reads any fun w v => v = w := by
  intro v _ w
  simp [any]

/-- A value that may be left open is `null` or written as it would be. -/
theorem Reads.option {d : Decoder α} {written : α → Json → Prop} (reads : Reads d written) :
    Reads (option d) fun o v =>
      (v = .null ∧ o = none) ∨ (v ≠ .null ∧ ∃ a, written a v ∧ some a = o) := by
  intro v proper o
  cases v with
  | null => simp [Shape.option, eq_comm]
  | _ => simp [Shape.option, map_eq_ok_iff, reads _ proper]

theorem items_eq_ok_iff {d : Decoder α} {vs : List Json} {as : List α} :
    items d vs = .ok as ↔ List.Forall₂ (fun v a => d v = .ok a) vs as := by
  induction vs generalizing as with
  | nil => simp [items, eq_comm]
  | cons v vs ih =>
    rw [items, bind_eq_ok_iff, List.forall₂_cons_left_iff]
    simp only [bind_eq_ok_iff, ih]
    constructor
    · rintro ⟨a, first, rest, more, read⟩
      cases read
      exact ⟨a, rest, first, more, rfl⟩
    · rintro ⟨a, rest, first, more, rfl⟩
      exact ⟨a, first, rest, more, rfl⟩

/-- What is read of two lists in a row is read of the one and then of the other. -/
theorem items_append (d : Decoder α) (xs ys : List Json) :
    items d (xs ++ ys) = (do return (← items d xs) ++ (← items d ys)) := by
  induction xs with
  | nil =>
    rw [List.nil_append, items]
    cases items d ys <;> rfl
  | cons x xs ih =>
    rw [List.cons_append, items, items, ih]
    -- The first item that is not read ends the reading, on whichever side it stands.
    cases d x with
    | error e => rfl
    | ok a =>
      cases items d xs with
      | error e => rfl
      | ok first => cases items d ys <;> rfl

theorem list_eq_ok_iff {d : Decoder α} {v : Json} {as : List α} :
    list d v = .ok as ↔ ∃ vs, v = .arr vs ∧ List.Forall₂ (fun w a => d w = .ok a) vs as := by
  cases v <;> simp [list, items_eq_ok_iff]

/-- An array is read item by item. -/
theorem Reads.list {d : Decoder α} {written : α → Json → Prop} (reads : Reads d written) :
    Reads (list d) fun as v => ∃ vs, v = .arr vs ∧ List.Forall₂ (fun w a => written a w) vs as := by
  intro v proper as
  rw [list_eq_ok_iff]
  refine exists_congr fun vs => and_congr_right fun isArray => ?_
  subst isArray
  -- The items of a proper array are proper, so that the decoder is known on each of them.
  cases proper with | arr each =>
  induction vs generalizing as with
  | nil => rw [List.forall₂_nil_left_iff, List.forall₂_nil_left_iff]
  | cons w vs ih =>
    obtain ⟨first, rest⟩ := List.forall_mem_cons.1 each
    simp only [List.forall₂_cons_left_iff, reads w first, ih _ rest]

/-! ## Variants -/

theorem named_eq_ok_iff {variants : List (String × α)} (nodup : (TextMap.keys variants).Nodup)
    {name : String} {a : α} : named variants name = .ok a ↔ (name, a) ∈ variants := by
  have same : named variants name = .ok a ↔ TextMap.find? name variants = some a := by
    rw [named, TextMap.find?]
    cases variants.find? (·.1 = name) <;> simp
  rw [same]
  exact ⟨TextMap.mem_of_find?, TextMap.find?_of_mem nodup⟩

theorem variant_eq_ok_iff {empty : Json → Bool} {variants : List (String × α)} {v : Json} {a : α} :
    variant empty variants v = .ok a ↔
      ∃ name, named variants name = .ok a ∧
        (v = .str name ∨ ∃ w, v = .obj [(name, w)] ∧ empty w) := by
  fun_cases variant empty variants v with
  | case1 name => simp
  | case2 name w e bad =>
    simp only [reduceCtorEq, false_iff]
    rintro ⟨name', good, ⟨⟨⟩⟩ | ⟨w', ⟨⟩, -⟩⟩
    cases bad.symm.trans good
  | case3 name w b good isEmpty => simp [good, isEmpty]
  | case4 name w b good notEmpty => simp [notEmpty]
  | case5 fields many =>
    simp only [reduceCtorEq, false_iff]
    rintro ⟨name, -, ⟨⟨⟩⟩ | ⟨w, ⟨⟩, -⟩⟩
    exact many name w rfl
  | case6 v noText noKey noObject =>
    simp only [reduceCtorEq, false_iff]
    rintro ⟨name, -, rfl | ⟨w, rfl, -⟩⟩
    · exact noText name rfl
    · exact noObject _ rfl

/-! ## Fields -/

theorem required_eq_ok_iff {kvs : List (String × Json)} {name : String} {d : Decoder α} {a : α} :
    required kvs name d = .ok a ↔ ∃ w, TextMap.find? name kvs = some w ∧ d w = .ok a := by
  rw [required]
  cases TextMap.find? name kvs <;> simp

theorem defaulted_eq_ok_iff {kvs : List (String × Json)} {name : String} {d : Decoder α}
    {default a : α} :
    defaulted kvs name d default = .ok a ↔
      (TextMap.find? name kvs = none ∧ a = default) ∨
        ∃ w, TextMap.find? name kvs = some w ∧ d w = .ok a := by
  rw [defaulted]
  cases TextMap.find? name kvs <;> simp [eq_comm]

/-- A field that is read fits. -/
theorem check_of_required {kvs : List (String × Json)} {name : String} {d : Decoder α} {a : α}
    (read : required kvs name d = .ok a) {w : Json} (found : TextMap.find? name kvs = some w) :
    (d w).map (fun _ => ()) = .ok () := by
  obtain ⟨w', found', hw⟩ := required_eq_ok_iff.1 read
  cases found.symm.trans found'
  exact map_eq_ok_iff.2 ⟨a, hw, rfl⟩

theorem check_of_defaulted {kvs : List (String × Json)} {name : String} {d : Decoder α}
    {default a : α} (read : defaulted kvs name d default = .ok a) {w : Json}
    (found : TextMap.find? name kvs = some w) : (d w).map (fun _ => ()) = .ok () := by
  rcases defaulted_eq_ok_iff.1 read with ⟨missing, -⟩ | ⟨w', found', hw⟩
  · cases found.symm.trans missing
  · cases found.symm.trans found'
    exact map_eq_ok_iff.2 ⟨a, hw, rfl⟩

section
variable {d : Decoder α} {written : α → Json → Prop} {v : Json} {names : List String}
  {name : String} {a : α}

theorem Reads.required (reads : Reads d written) (proper : v.Proper) :
    required (v.members names) name d = .ok a ↔
      ∃ w, v.member? names name = some w ∧ written a w := by
  rw [required_eq_ok_iff]
  refine exists_congr fun w => and_congr_right fun found => ?_
  exact reads w (proper.member? found) a

theorem Reads.defaulted {default : α} (reads : Reads d written) (proper : v.Proper) :
    defaulted (v.members names) name d default = .ok a ↔
      (v.member? names name = none ∧ a = default) ∨
        ∃ w, v.member? names name = some w ∧ written a w := by
  rw [defaulted_eq_ok_iff]
  refine or_congr_right (exists_congr fun w => and_congr_right fun found => ?_)
  exact reads w (proper.member? found) a

/-- A field that may be missing or left open. -/
inductive Optional (written : α → Json → Prop) : Option Json → Option α → Prop where
  | absent : Optional written none none
  | null : Optional written (some .null) none
  | given {w : Json} {a : α} (present : w ≠ .null) (value : written a w) :
      Optional written (some w) (some a)

theorem Reads.optional {o : Option α} (reads : Reads d written) (proper : v.Proper) :
    Shape.defaulted (v.members names) name (Shape.option d) none = .ok o ↔
      Optional written (v.member? names name) o := by
  rw [reads.option.defaulted proper]
  constructor
  · rintro (⟨missing, rfl⟩ | ⟨w, found, ⟨rfl, rfl⟩ | ⟨present, a, value, rfl⟩⟩)
    · rw [missing]
      exact .absent
    · rw [found]
      exact .null
    · rw [found]
      exact .given present value
  · intro optional
    generalize v.member? names name = member at optional
    cases optional with
    | absent => exact .inl ⟨rfl, rfl⟩
    | null => exact .inr ⟨.null, rfl, .inl ⟨rfl, rfl⟩⟩
    | given present value => exact .inr ⟨_, rfl, .inr ⟨present, _, value, rfl⟩⟩

end

/-! ## Records -/

theorem checkEntries_eq_ok_iff {fields : List Field} {kvs : List (String × Json)} :
    checkEntries fields kvs = .ok () ↔
      ∀ kv ∈ kvs, ∀ f, fields.find? (·.name = kv.1) = some f → f.check kv.2 = .ok () := by
  induction kvs with
  | nil => simp [checkEntries]
  | cons kv kvs ih =>
    obtain ⟨key, v⟩ := kv
    rw [List.forall_mem_cons, ← ih, checkEntries]
    cases fields.find? (·.name = key) with
    | none => simp
    | some f =>
      cases hc : f.check v with
      | error e => simp [hc]
      | ok u => simp [hc]

theorem nameItems_eq_ok_iff {index : Nat} {fields : List Field} {items : List Json}
    {kvs : List (String × Json)} :
    nameItems index fields items = .ok kvs ↔
      kvs = (fields.map (·.name)).zip items ∧ items.length ≤ fields.length ∧
        (fields.drop items.length).all (·.mayEnd) ∧
        ∀ p ∈ fields.zip items, p.1.check p.2 = .ok () := by
  -- Both lists can end first: the fields only if no item is left, the items only where the rest of
  -- the fields may be missing.
  fun_induction nameItems index fields items generalizing kvs with
  | case1 => simp [eq_comm]
  | case2 index items rest =>
    have long : ¬ items.length ≤ 0 := by simpa using rest
    simp [long]
  | case3 index f fields mayEnd ih => rw [ih]; simp [mayEnd]
  | case4 index f fields mustStand => simp [mustStand]
  | case5 index f fields v items e bad => simp [bad]
  | case6 index f fields v items good ih =>
    rw [map_eq_ok_iff]
    constructor
    · rintro ⟨rest, read, rfl⟩
      obtain ⟨rfl, short, ends, each⟩ := ih.1 read
      exact ⟨rfl, Nat.succ_le_succ short, ends, List.forall_mem_cons.2 ⟨good, each⟩⟩
    · rintro ⟨rfl, short, ends, each⟩
      refine ⟨_, ih.2 ⟨rfl, Nat.le_of_succ_le_succ short, ends, ?_⟩, rfl⟩
      exact (List.forall_mem_cons.1 each).2

/-- What the fields of a record are called, and how many of them the array form holds at least. -/
structure Layout (fields : List Field) (names : List String) (least : Nat) : Prop where
  names_eq : fields.map (·.name) = names
  nodup : names.Nodup
  least_iff : ∀ n ≤ fields.length, (fields.drop n).all (·.mayEnd) ↔ least ≤ n

section
variable {fields : List Field} {names : List String} {least : Nat}

/-- A value that is read as a record is written as one. -/
theorem Layout.isRecord (layout : Layout fields names least) {v : Json}
    {kvs : List (String × Json)} (read : entries fields v = .ok kvs) :
    IsRecord least names.length v ∧ kvs = v.members names := by
  have count : fields.length = names.length := by rw [← layout.names_eq, List.length_map]
  cases v with
  | obj own =>
    obtain ⟨-, -, rfl⟩ := map_eq_ok_iff.1 read
    exact ⟨trivial, rfl⟩
  | arr items =>
    obtain ⟨rfl, short, ends, -⟩ := nameItems_eq_ok_iff.1 read
    refine ⟨⟨(layout.least_iff _ short).1 ends, count ▸ short⟩, ?_⟩
    rw [layout.names_eq]
    rfl
  | _ => cases read

/-- A value that is written as a record is read as one if each of its fields fits. -/
theorem Layout.entries_eq (layout : Layout fields names least) {v : Json} (proper : v.Proper)
    (isRecord : IsRecord least names.length v)
    (fits : ∀ f ∈ fields, ∀ w, v.member? names f.name = some w → f.check w = .ok ()) :
    entries fields v = .ok (v.members names) := by
  have count : fields.length = names.length := by rw [← layout.names_eq, List.length_map]
  -- No name comes twice, so that each entry is the one that is found under its name.
  have found := proper.members_nodup layout.nodup
  cases v with
  | obj own =>
    refine map_eq_ok_iff.2 ⟨(), checkEntries_eq_ok_iff.2 ?_, rfl⟩
    intro kv hkv f hf
    have name : f.name = kv.1 := by simpa using List.find?_some hf
    apply fits f (List.mem_of_find?_eq_some hf) kv.2
    exact TextMap.find?_of_mem found (by rwa [name])
  | arr items =>
    have short : items.length ≤ fields.length := count ▸ isRecord.2
    refine nameItems_eq_ok_iff.2 ⟨by rw [layout.names_eq]; rfl, short,
      (layout.least_iff _ short).2 isRecord.1, ?_⟩
    rintro ⟨f, w⟩ hp
    apply fits f (List.of_mem_zip hp).1 w
    refine TextMap.find?_of_mem found ?_
    rw [members, ← layout.names_eq, List.zip_map_left]
    exact List.mem_map.2 ⟨(f, w), hp, rfl⟩
  | _ => cases isRecord

/-- **A record is read by its fields.** Whatever reads the values of the fields one by one has its
way with a value that is written as a record, since fields that are read fit. -/
theorem Layout.read_iff (layout : Layout fields names least) {v : Json} (proper : v.Proper)
    {read : List (String × Json) → Except ShapeError α} {a : α}
    (fits : read (v.members names) = .ok a →
      ∀ f ∈ fields, ∀ w, v.member? names f.name = some w → f.check w = .ok ()) :
    (entries fields v >>= read) = .ok a ↔
      IsRecord least names.length v ∧ read (v.members names) = .ok a := by
  rw [bind_eq_ok_iff]
  constructor
  · -- The checks are not needed here: what is named by them is what is written.
    rintro ⟨kvs, hkvs, done⟩
    obtain ⟨isRecord, rfl⟩ := layout.isRecord hkvs
    exact ⟨isRecord, done⟩
  · rintro ⟨isRecord, done⟩
    exact ⟨_, layout.entries_eq proper isRecord (fits done), done⟩

end

end Shape

end Json

/-! ## Positions and ranges -/

open Json.Shape

namespace Position

/-- How a position is written. -/
structure WrittenAs (p : Position) (v : Json) : Prop where
  record : v.IsRecord 2 2
  line : v.member? ["line", "character"] "line" = some (.ofNat p.line.toNat)
  character : v.member? ["line", "character"] "character" = some (.ofNat p.character.toNat)

theorem layout :
    Layout [field "line" unsigned32, field "character" unsigned32] ["line", "character"] 2 :=
  ⟨rfl, by decide, by decide⟩

theorem reads : Reads decode WrittenAs := by
  intro v proper p
  rw [decode, layout.read_iff proper]
  · simp only [bind_eq_ok_iff, reads_unsigned32.required proper, exists_eq_right]
    constructor
    · rintro ⟨record, line, hline, character, hcharacter, read⟩
      cases read
      exact ⟨record, hline, hcharacter⟩
    · rintro ⟨record, hline, hcharacter⟩
      exact ⟨record, p.line, hline, p.character, hcharacter, rfl⟩
  · intro read
    simp only [bind_eq_ok_iff] at read
    obtain ⟨line, hline, character, hcharacter, -⟩ := read
    simp only [List.forall_mem_cons, List.not_mem_nil, false_implies, implies_true, and_true]
    exact ⟨fun w => check_of_required hline, fun w => check_of_required hcharacter⟩

end Position

namespace Range

/-- How a range is written. -/
structure WrittenAs (r : Range) (v : Json) : Prop where
  record : v.IsRecord 2 2
  start : ∃ w, v.member? ["start", "end"] "start" = some w ∧ r.start.WrittenAs w
  stop : ∃ w, v.member? ["start", "end"] "end" = some w ∧ r.stop.WrittenAs w

theorem layout :
    Layout [field "start" Position.decode, field "end" Position.decode] ["start", "end"] 2 :=
  ⟨rfl, by decide, by decide⟩

theorem reads : Reads decode WrittenAs := by
  intro v proper r
  rw [decode, layout.read_iff proper]
  · simp only [bind_eq_ok_iff, Position.reads.required proper]
    constructor
    · rintro ⟨record, start, hstart, stop, hstop, read⟩
      cases read
      exact ⟨record, hstart, hstop⟩
    · rintro ⟨record, hstart, hstop⟩
      exact ⟨record, r.start, hstart, r.stop, hstop, rfl⟩
  · intro read
    simp only [bind_eq_ok_iff] at read
    obtain ⟨start, hstart, stop, hstop, -⟩ := read
    simp only [List.forall_mem_cons, List.not_mem_nil, false_implies, implies_true, and_true]
    exact ⟨fun w => check_of_required hstart, fun w => check_of_required hstop⟩

end Range

end WorkerBridge
