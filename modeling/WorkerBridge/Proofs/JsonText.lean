/-
  WorkerBridge.Proofs.JsonText

  The compact text of a value reads back as the value.

  `chars` is the text by recursion on the value alone, and `write_toList` ties it
  to the printer, which carries the text written so far. That text is in the
  grammar: a string because each of its characters is escaped where it must be
  (`quoted_escape`), an integer because of its digits (`numeral_intText`), and an
  array or an object because its parts are. `Exact.fits` puts the parts together
  for every value that a text can hold exactly. Such a text is within the limits of
  the reader, and so it is read.
-/
import WorkerBridge.Json.Printer
import WorkerBridge.Proofs.Digits
import WorkerBridge.Proofs.JsonReading

namespace WorkerBridge.Json

open WorkerBridge.Decimal

/-! ## Texts as characters -/

/-- A string between quotation marks. -/
def quotedChars (s : String) : List Char :=
  '"' :: (s.toList.flatMap escape ++ ['"'])

mutual

/-- The characters of the compact text of a value. -/
def chars : Json → List Char
  | .null => ['n', 'u', 'l', 'l']
  | .bool true => ['t', 'r', 'u', 'e']
  | .bool false => ['f', 'a', 'l', 's', 'e']
  | .num n => n.text.toList
  | .str s => quotedChars s
  | .arr [] => ['[', ']']
  | .arr (v :: rest) => '[' :: (chars v ++ charsOfItems rest)
  | .obj [] => ['\x7b', '\x7d']
  | .obj ((k, v) :: rest) => '\x7b' :: (quotedChars k ++ ':' :: (chars v ++ charsOfFields rest))

/-- What follows an item of an array: the remaining items and the end. -/
def charsOfItems : List Json → List Char
  | [] => [']']
  | v :: rest => ',' :: (chars v ++ charsOfItems rest)

/-- What follows a field of an object: the remaining fields and the end. -/
def charsOfFields : List (String × Json) → List Char
  | [] => ['\x7d']
  | (k, v) :: rest => ',' :: (quotedChars k ++ ':' :: (chars v ++ charsOfFields rest))

end

theorem foldl_push_toList (cs : List Char) (out : String) :
    (cs.foldl String.push out).toList = out.toList ++ cs := by
  induction cs generalizing out with
  | nil => simp
  | cons c cs ih => rw [List.foldl_cons, ih, String.toList_push, List.append_assoc]; rfl

theorem writeString_toList (out s : String) :
    (writeString out s).toList = out.toList ++ quotedChars s := by
  have written : ∀ (cs : List Char) (out : String),
      (cs.foldl writeChar out).toList = out.toList ++ cs.flatMap escape := by
    intro cs
    induction cs with
    | nil => simp
    | cons c cs ih =>
      intro out
      rw [List.foldl_cons, ih, writeChar, foldl_push_toList, List.flatMap_cons, List.append_assoc]
  rw [writeString, String.toList_push, String.foldl_eq_foldl_toList, written, String.toList_push,
    quotedChars]
  simp

mutual

/-- The printer appends the text of the value. -/
theorem write_toList (out : String) : ∀ v : Json, (write out v).toList = out.toList ++ chars v
  | .null => by simp [write, chars]
  | .bool true => by simp [write, chars]
  | .bool false => by simp [write, chars]
  | .num n => by simp [write, chars]
  | .str s => by rw [write, chars, writeString_toList]
  | .arr [] => by simp [write, chars]
  | .arr (v :: rest) => by
    rw [write, writeItems_toList, write_toList, chars]
    simp
  | .obj [] => by simp [write, chars]
  | .obj ((k, v) :: rest) => by
    rw [write, writeFields_toList, write_toList, chars, String.toList_push, writeString_toList]
    simp

theorem writeItems_toList (out : String) : ∀ rest : List Json,
    ((writeItems out rest).push ']').toList = out.toList ++ charsOfItems rest
  | [] => by simp [writeItems, charsOfItems]
  | v :: rest => by
    rw [writeItems, writeItems_toList, write_toList, charsOfItems]
    simp

theorem writeFields_toList (out : String) : ∀ rest : List (String × Json),
    ((writeFields out rest).push '\x7d').toList = out.toList ++ charsOfFields rest
  | [] => by simp [writeFields, charsOfFields]
  | (k, v) :: rest => by
    rw [writeFields, writeFields_toList, write_toList, charsOfFields, String.toList_push,
      writeString_toList]
    simp

end

theorem compact_toList (v : Json) : v.compact.toList = chars v := by
  rw [compact, write_toList]
  rfl

/-- A character takes one to four bytes. -/
theorem utf8ByteSize_bounds (s : String) :
    s.toList.length ≤ s.utf8ByteSize ∧ s.utf8ByteSize ≤ 4 * s.toList.length := by
  have sized : ∀ cs : List Char, cs.length ≤ (String.ofList cs).utf8ByteSize ∧
      (String.ofList cs).utf8ByteSize ≤ 4 * cs.length := by
    intro cs
    induction cs using List.reverseRecOn with
    | nil => decide
    | append_singleton cs c ih =>
      have one := c.utf8Size_pos
      have four := c.utf8Size_le_four
      have last : (String.ofList [c]).utf8ByteSize = c.utf8Size := String.utf8ByteSize_singleton
      rw [String.ofList_append, String.utf8ByteSize_append, last, List.length_append,
        List.length_singleton]
      omega
  simpa using sized s.toList

/-! ## Strings -/

theorem hexValue?_hexDigit : ∀ n < 16, hexValue? (hexDigit n) = some n := by decide

/-- A control character is escaped by its four digits. -/
theorem hexUnit?_control {c : Char} (control : c.toNat < 0x20) :
    hexUnit? '0' '0' (hexDigit (c.toNat / 16)) (hexDigit (c.toNat % 16)) = some c.toNat := by
  have zero : hexValue? '0' = some 0 := by decide
  rw [hexUnit?, zero, hexValue?_hexDigit _ (by omega), hexValue?_hexDigit _ (by omega)]
  simp only [Option.bind_eq_bind, Option.bind_some, Option.pure_def]
  congr 1
  omega

theorem Quoted.escape (c : Char) {body : List Char} {s : Letters} (rest : Quoted body s) :
    Quoted (Json.escape c ++ body) (some c :: s) := by
  unfold Json.escape
  -- Seven characters have an escape of one letter, other control characters one of four digits.
  split_ifs with quote backslash backspace feed line carriage tab control
  · subst quote; exact .short rfl rest
  · subst backslash; exact .short rfl rest
  · subst backspace; exact .short rfl rest
  · subst feed; exact .short rfl rest
  · subst line; exact .short rfl rest
  · subst carriage; exact .short rfl rest
  · subst tab; exact .short rfl rest
  · have unit := Quoted.unit (hexUnit?_control control) (.inl (by omega)) rest
    rwa [Char.ofNat_toNat] at unit
  · exact .plain quote backslash (Nat.le_of_not_lt control) rest

/-- **A string is written as the grammar has it.** -/
theorem quoted_escape (cs : List Char) : Quoted (cs.flatMap Json.escape) (cs.map some) := by
  induction cs with
  | nil => exact .nil
  | cons c cs ih =>
    rw [List.flatMap_cons]
    exact ih.escape c

/-! ## Integers -/

/-- A number above zero is written without a leading zero. -/
theorem digits_head {n : Nat} (positive : 0 < n) : ∃ c cs, digits n = c :: cs ∧ c ≠ '0' := by
  induction n using digits_induction with
  | small n h =>
    have nonzero : ∀ n < 10, 0 < n → digitChar n ≠ '0' := by decide
    exact ⟨_, [], digits_of_lt h, nonzero n h positive⟩
  | large n h ih =>
    obtain ⟨c, cs, hc, nonzero⟩ := ih (by omega)
    exact ⟨c, cs ++ [digitChar (n % 10)], by rw [digits_concat h, hc]; rfl, nonzero⟩

theorem digits_digits (n : Nat) : Digits (digits n) :=
  ⟨digits_ne_nil n, isDigit_of_mem_digits n⟩

theorem whole_digits (n : Nat) : Whole (digits n) := by
  by_cases zero : n = 0
  · subst zero
    rw [digits_of_lt (by decide)]
    exact .zero
  · obtain ⟨c, cs, hc, nonzero⟩ := digits_head (Nat.pos_of_ne_zero zero)
    refine .digits (digits_digits n) ?_
    rw [hc]
    rintro ⟨⟩
    exact nonzero rfl

/-- **An integer of 64 bits is written as the grammar has it.** -/
theorem numeral_intText {i : Int} (exact : Number.exact i) :
    ∃ l, Numeral (intText i).toList l ∧ Number.ofLiteral? l = some (.int i) := by
  simp only [Number.exact, Bool.and_eq_true, decide_eq_true_eq] at exact
  cases i with
  | ofNat n =>
    have small : n ≤ maxUnsigned := Int.ofNat_le.1 exact.2
    have denoted : Number.ofLiteral? ⟨false, digits n, [], none⟩ = some (.int (.ofNat n)) := by
      simp [Number.ofLiteral?, value_digits, small]
    have numeral := Numeral.mk false (whole_digits n) .absent .absent
    exact ⟨_, by simpa [intText, text] using numeral, denoted⟩
  | negSucc n =>
    have small : n + 1 ≤ maxNegative := by omega
    have denoted : Number.ofLiteral? ⟨true, digits (n + 1), [], none⟩ =
        some (.int (.negSucc n)) := by
      rw [Number.ofLiteral?]
      dsimp only
      rw [value_digits, if_pos ⟨rfl, rfl⟩, if_neg (by simp), if_pos ⟨rfl, Nat.succ_pos n, small⟩]
      rfl
    have numeral := Numeral.mk true (whole_digits (n + 1)) .absent .absent
    exact ⟨_, by simpa [intText, text] using numeral, denoted⟩

/-- An integer of 64 bits takes at most twenty characters, its sign included. -/
theorem length_intText_le {i : Int} (exact : Number.exact i) : (intText i).toList.length ≤ 20 := by
  simp only [Number.exact, Bool.and_eq_true, decide_eq_true_eq] at exact
  cases i with
  | ofNat n =>
    have small : n ≤ maxUnsigned := Int.ofNat_le.1 exact.2
    have short := length_digits_le (k := 19) (Nat.lt_of_le_of_lt small (by decide))
    rwa [intText, text, String.toList_ofList]
  | negSucc n =>
    have small : n + 1 ≤ maxNegative := by omega
    have short := length_digits_le (k := 18) (Nat.lt_of_le_of_lt small (by decide))
    simp only [intText, text, String.toList_append, String.toList_ofList, List.length_append]
    exact Nat.add_le_add_left short 1

/-! ## Values -/

/-- A value that a text nested at most `depth` deep holds exactly: every number is an integer of 64
bits, signed or unsigned, and the keys of every object ascend. -/
inductive Exact : (depth : Nat) → Json → Prop where
  | null {depth : Nat} : Exact depth .null
  | bool {depth : Nat} (b : Bool) : Exact depth (.bool b)
  | int {depth : Nat} {i : Int} (fits : Number.exact i) : Exact depth (.num (.int i))
  | str {depth : Nat} (s : String) : Exact depth (.str s)
  | arr {depth : Nat} {items : List Json} (exact : ∀ v ∈ items, Exact depth v) :
      Exact (depth + 1) (.arr items)
  | obj {depth : Nat} {fields : List (String × Json)} (sorted : TextMap.Sorted fields)
      (exact : ∀ entry ∈ fields, Exact depth entry.2) : Exact (depth + 1) (.obj fields)

theorem Exact.mono {depth depth' : Nat} {v : Json} (exact : Exact depth v) (le : depth ≤ depth') :
    Exact depth' v := by
  induction exact generalizing depth' with
  | null => exact .null
  | bool b => exact .bool b
  | int fits => exact .int fits
  | str s => exact .str s
  | arr _ ih =>
    obtain ⟨depth', rfl⟩ : ∃ n, depth' = n + 1 := ⟨depth' - 1, by omega⟩
    exact .arr fun v hv => ih v hv (by omega)
  | obj sorted _ ih =>
    obtain ⟨depth', rfl⟩ : ∃ n, depth' = n + 1 := ⟨depth' - 1, by omega⟩
    exact .obj sorted fun entry hentry => ih entry hentry (by omega)

theorem exact_of_unsigned {n : Nat} (unsigned : n ≤ maxUnsigned) : Number.exact n := by
  simp only [Number.exact, Bool.and_eq_true, decide_eq_true_eq]
  omega

theorem Exact.ofNat {depth n : Nat} (unsigned : n ≤ maxUnsigned) : Exact depth (Json.ofNat n) :=
  .int (exact_of_unsigned unsigned)

/-- Fields with exact values are those of an exact object. -/
theorem Exact.ofFields {depth : Nat} {fields : List (String × Json)}
    (each : ∀ entry ∈ fields, Exact depth entry.2) : Exact (depth + 1) (Json.ofFields fields) :=
  .obj (TextMap.sorted_ofList fields) fun entry hentry =>
    each entry (TextMap.mem_of_mem_ofList hentry)

/-- A text without blanks around it. -/
def Element.bare (text : List Char) (t : Tree) : Element :=
  ⟨[], text, [], t, .nil, .nil⟩

/-- A field without blanks in it. -/
def Member.bare (key : String) (text : List Char) (t : Tree) : Member :=
  ⟨.bare text t, [], key.toList.flatMap escape, [], key.toList.map some, ⟨.nil, .nil⟩,
    quoted_escape _⟩

theorem Member.chars_bare (key : String) (text : List Char) (t : Tree) :
    (Member.bare key text t).chars = quotedChars key ++ ':' :: text := by
  simp [Member.chars, Member.bare, Element.chars, Element.bare, quotedChars]

theorem Member.field_bare (key : String) (text : List Char) (t : Tree) :
    (Member.bare key text t).field = (key, t.value) := by
  have same : Letters.text (key.toList.map some) = key := by
    rw [Letters.text_map_some, String.ofList_toList]
  exact Prod.ext same rfl

/-- The text of a value, without blanks around it. -/
def bare (tree : Json → Tree) (v : Json) : Element :=
  .bare (chars v) (tree v)

theorem chars_bare (tree : Json → Tree) (v : Json) : (bare tree v).chars = chars v :=
  List.append_nil (chars v)

/-- The text of a field, without blanks in it. -/
def bareMember (tree : String × Json → Tree) (entry : String × Json) : Member :=
  .bare entry.1 (chars entry.2) (tree entry)

theorem chars_bareMember (tree : String × Json → Tree) (entry : String × Json) :
    (bareMember tree entry).chars = quotedChars entry.1 ++ ':' :: chars entry.2 :=
  Member.chars_bare entry.1 (chars entry.2) (tree entry)

theorem charsOfItems_eq (tree : Json → Tree) (v : Json) (items : List Json) :
    chars v ++ charsOfItems items =
      separated (((v :: items).map (bare tree)).map Element.chars) ++ [']'] := by
  induction items generalizing v with
  | nil => simp [charsOfItems, separated_singleton, chars_bare]
  | cons w items ih =>
    have front : separated (((v :: w :: items).map (bare tree)).map Element.chars) =
        chars v ++ ',' :: separated (((w :: items).map (bare tree)).map Element.chars) := by
      rw [← chars_bare tree v]
      exact separated_cons (List.cons_ne_nil _ _)
    rw [charsOfItems, ih, front, List.append_assoc, List.cons_append]

theorem charsOfFields_eq (tree : String × Json → Tree) (entry : String × Json)
    (fields : List (String × Json)) :
    quotedChars entry.1 ++ ':' :: (chars entry.2 ++ charsOfFields fields) =
      separated (((entry :: fields).map (bareMember tree)).map Member.chars) ++ ['\x7d'] := by
  induction fields generalizing entry with
  | nil => simp [charsOfFields, separated_singleton, chars_bareMember]
  | cons next fields ih =>
    obtain ⟨key, v⟩ := next
    have front : separated (((entry :: (key, v) :: fields).map (bareMember tree)).map
        Member.chars) = (quotedChars entry.1 ++ ':' :: chars entry.2) ++
          ',' :: separated ((((key, v) :: fields).map (bareMember tree)).map Member.chars) := by
      rw [← chars_bareMember tree entry]
      exact separated_cons (List.cons_ne_nil _ _)
    rw [charsOfFields, ih (key, v), front]
    simp only [List.append_assoc, List.cons_append]

/-- What items stand for is what was written, if each of their trees stands for its item. -/
theorem values_bare {tree : Json → Tree} {items : List Json}
    (value : ∀ v ∈ items, (tree v).value = v) :
    (items.map (bare tree)).map (·.tree.value) = items := by
  rw [List.map_map, List.map_congr_left fun v hv => ?_, List.map_id]
  exact value v hv

theorem fields_bareMember {tree : String × Json → Tree} {fields : List (String × Json)}
    (value : ∀ entry ∈ fields, (tree entry).value = entry.2) :
    (fields.map (bareMember tree)).map Member.field = fields := by
  rw [List.map_map, List.map_congr_left fun entry hentry => ?_, List.map_id]
  rw [Function.comp_apply, bareMember, Member.field_bare, value entry hentry]
  rfl

/-- **A value is written as the grammar has it**, and within the limits of the reader. -/
theorem Exact.fits {depth : Nat} {v : Json} (exact : Exact depth v) :
    ∃ t, Fits depth (chars v) t ∧ t.value = v := by
  induction exact with
  | null => exact ⟨_, ⟨.null, .null⟩, rfl⟩
  | bool b =>
    cases b with
    | true => exact ⟨_, ⟨.true, .bool⟩, rfl⟩
    | false => exact ⟨_, ⟨.false, .bool⟩, rfl⟩
  | int fits =>
    obtain ⟨l, numeral, denoted⟩ := numeral_intText fits
    refine ⟨_, ⟨.num numeral, .num (Option.isSome_of_eq_some denoted)⟩, ?_⟩
    rw [Tree.value, Number.ofLiteral, denoted, Option.getD_some]
  | str s =>
    refine ⟨_, ⟨.str (quoted_escape s.toList), .str (Letters.paired_map_some _)⟩, ?_⟩
    rw [Tree.value, Letters.text_map_some, String.ofList_toList]
  | @arr depth items _ ih =>
    -- What is empty has a rule of its own: there is no part to be separated.
    cases items with
    | nil => exact ⟨_, ⟨.noItems .nil, .arr (by simp)⟩, rfl⟩
    | cons v items =>
      choose! tree fits value using ih
      have nonempty : (v :: items).map (bare tree) ≠ [] := List.cons_ne_nil _ _
      have whole := Fits.items nonempty (List.forall_mem_map.2 fits)
      rw [← charsOfItems_eq] at whole
      refine ⟨_, whole, ?_⟩
      rw [value_items, values_bare value]
  | @obj depth fields sorted _ ih =>
    cases fields with
    | nil => exact ⟨_, ⟨.noFields .nil, .obj (by simp) (by simp)⟩, rfl⟩
    | cons entry fields =>
      choose! tree fits value using ih
      have nonempty : (entry :: fields).map (bareMember tree) ≠ [] := List.cons_ne_nil _ _
      have whole := Fits.fields nonempty
        (List.forall_mem_map.2 fun e he => ⟨Letters.paired_map_some _, fits e he⟩)
      rw [← charsOfFields_eq] at whole
      refine ⟨_, whole, ?_⟩
      rw [value_fields, fields_bareMember value, sorted.ofList_eq]

/-- **A text reads back** as the value it was written for. -/
theorem Exact.parse?_compact {v : Json} (exact : Exact maxDepth v) : parse? v.compact = some v := by
  obtain ⟨t, fits, hvalue⟩ := exact.fits
  rw [parse?, compact_toList]
  refine parseChars?_eq_some_iff.2 ⟨t, ?_, fits.within, hvalue⟩
  exact ⟨.bare (chars v) t, (List.append_nil _).symm, rfl, fits.spells⟩

end WorkerBridge.Json
