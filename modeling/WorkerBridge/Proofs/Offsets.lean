/-
  WorkerBridge.Proofs.Offsets

  The expansion of references by byte offsets.

  A text can also be expanded without a list of its characters: look for the
  bytes of the marks, compute with their offsets, and slice. `sweep?` does so, and
  has no result if an offset lies within a character. It always has one, and it
  is the expansion (`sweep?_eq`). The marks are ASCII, and no byte of another
  character is (`ascii_lt_of_mem`), so that the bytes of a mark are found exactly
  where the mark is (`offset?_encoded`), which is between two characters.
-/
import WorkerBridge.Proofs.Framing
import WorkerBridge.Proofs.References

namespace WorkerBridge.Expansion

/-! ## Slices -/

/-- How many bytes characters take. -/
def size (cs : List Char) : Nat :=
  (String.ofList cs).utf8ByteSize

theorem size_nil : size [] = 0 := rfl

theorem size_append (cs ds : List Char) : size (cs ++ ds) = size cs + size ds := by
  rw [size, String.ofList_append, String.utf8ByteSize_append]
  rfl

/-- The text from one byte offset to another. There is none if an offset lies within a character, or
behind the end. -/
def slice? (s : String) (i j : Nat) : Option String :=
  match s.pos? ⟨i⟩, s.pos? ⟨j⟩ with
  | some first, some last => (s.slice? first last).map (·.copy)
  | _, _ => none

/-- Between two texts is no character. -/
theorem exists_pos {s before behind : String} (h : s = before ++ behind) :
    ∃ p, s.pos? ⟨before.utf8ByteSize⟩ = some p ∧ p.Splits before behind := by
  subst h
  have valid := (String.Pos.Raw.isValid_rawEndPos (s := before)).append_right behind
  refine ⟨_, ?_, String.Pos.splits_append_rawEndPos⟩
  rw [String.pos?, String.Slice.pos?, dif_pos]
  · rfl
  · exact String.Pos.Raw.isValidForSlice_eq_true_iff.2 valid.toSlice

/-- Whatever stands between two texts can be sliced out of them. -/
theorem slice?_ofList (before behind : List Char) {cs text : List Char}
    (h : cs = before ++ (text ++ behind)) {i j : Nat} (start : i = size before)
    (stop : j = size before + size text) :
    slice? (String.ofList cs) i j = some (String.ofList text) := by
  have whole : String.ofList cs =
      String.ofList before ++ (String.ofList text ++ String.ofList behind) := by
    rw [h, String.ofList_append, String.ofList_append]
  obtain ⟨first, hfirst, firstSplits⟩ := exists_pos whole
  obtain ⟨last, hlast, lastSplits⟩ := exists_pos (whole.trans String.append_assoc.symm)
  rw [String.utf8ByteSize_append] at hlast
  obtain ⟨ordered, copied⟩ := String.copy_slice_eq_iff_splits.2 ⟨_, _, firstSplits, lastSplits⟩
  rw [slice?, start, stop, size, size, hfirst, hlast]
  dsimp only
  rw [String.slice?, dif_pos ordered, Option.map_some, copied]

theorem offset_of_pos? {s : String} {i : Nat} {p : s.Pos} (h : s.pos? ⟨i⟩ = some p) :
    p.offset.byteIdx = i := by
  rw [String.pos?, String.Slice.pos?] at h
  split at h
  · cases h
    rfl
  · cases h

/-- A slice lies within the text, and has as many bytes as were asked for. -/
theorem size_of_slice? {s r : String} {i j : Nat} (h : slice? s i j = some r) :
    i ≤ j ∧ j ≤ s.utf8ByteSize ∧ r.utf8ByteSize = j - i := by
  rw [slice?] at h
  split at h
  · next first last hfirst hlast =>
    rw [String.slice?] at h
    split at h
    · next ordered =>
      cases h
      rw [← offset_of_pos? hfirst, ← offset_of_pos? hlast]
      exact ⟨ordered, last.isValid.le_rawEndPos, by simp⟩
    · cases h
  · cases h

/-! ## Marks in bytes -/

/-- The first offset at which the given bytes stand. -/
def offset? (mark : List UInt8) : List UInt8 → Option Nat
  | [] => none
  | b :: bytes => if mark <+: b :: bytes then some 0 else (offset? mark bytes).map (· + 1)

/-- The bytes of characters. -/
def encoded (cs : List Char) : List UInt8 :=
  cs.flatMap String.utf8EncodeChar

theorem encoded_cons (c : Char) (cs : List Char) :
    encoded (c :: cs) = String.utf8EncodeChar c ++ encoded cs := rfl

theorem utf8_ofList (cs : List Char) : Frame.utf8 (String.ofList cs) = encoded cs := by
  simp [Frame.utf8, encoded, String.toByteArray_ofList, List.utf8Encode]

theorem length_encoded (cs : List Char) : (encoded cs).length = size cs := by
  rw [← utf8_ofList, Frame.utf8, String.toUTF8_eq_toByteArray, size, ← String.size_toByteArray]
  rfl

/-- A character that takes one byte. -/
def IsAscii (c : Char) : Prop :=
  c.val ≤ 127

theorem encodeChar_of_ascii {c : Char} (ascii : IsAscii c) :
    String.utf8EncodeChar c = [c.val.toUInt8] :=
  String.utf8EncodeChar_eq_singleton (Char.utf8Size_eq_one_iff.2 ascii)

/-- No byte of a character that takes several is one of an ASCII character. -/
theorem ascii_lt_of_mem {c : Char} (notAscii : ¬ IsAscii c) {b : UInt8}
    (hb : b ∈ String.utf8EncodeChar c) : 127 < b := by
  have several : c.utf8Size ≠ 1 := fun one => notAscii (Char.utf8Size_eq_one_iff.1 one)
  have high : ∀ (x y : UInt8), 127 < y → 127 < x ||| y := by
    intro x y hy
    rw [UInt8.lt_iff_toNat_lt] at hy ⊢
    rw [UInt8.toNat_or]
    exact Nat.lt_of_lt_of_le hy Nat.right_le_or
  have positive := c.utf8Size_pos
  have four := c.utf8Size_le_four
  obtain two | three | four : c.utf8Size = 2 ∨ c.utf8Size = 3 ∨ c.utf8Size = 4 := by omega
  · rw [String.utf8EncodeChar_eq_cons_cons two] at hb
    simp only [List.mem_cons, List.not_mem_nil, or_false] at hb
    rcases hb with rfl | rfl <;> exact high _ _ (by decide)
  · rw [String.utf8EncodeChar_eq_cons_cons_cons three] at hb
    simp only [List.mem_cons, List.not_mem_nil, or_false] at hb
    rcases hb with rfl | rfl | rfl <;> exact high _ _ (by decide)
  · rw [String.utf8EncodeChar_eq_cons_cons_cons_cons four] at hb
    simp only [List.mem_cons, List.not_mem_nil, or_false] at hb
    rcases hb with rfl | rfl | rfl | rfl <;> exact high _ _ (by decide)

theorem encoded_cons_of_ascii {c : Char} (ascii : IsAscii c) (cs : List Char) :
    encoded (c :: cs) = c.val.toUInt8 :: encoded cs := by
  rw [encoded_cons, encodeChar_of_ascii ascii]
  rfl

theorem toNat_of_ascii {c : Char} (ascii : IsAscii c) :
    c.val.toUInt8.toNat = c.val.toNat ∧ c.val.toNat ≤ 127 := by
  have small : c.val.toNat ≤ 127 := UInt32.le_iff_toNat_le.1 ascii
  rw [UInt32.toNat_toUInt8]
  omega

/-- An ASCII byte is the first byte only of its own character. -/
theorem byte_cons_prefix_iff {m c : Char} (ascii : IsAscii m) (bytes : List UInt8)
    (cs : List Char) :
    m.val.toUInt8 :: bytes <+: encoded (c :: cs) ↔ m = c ∧ bytes <+: encoded cs := by
  have byte := toNat_of_ascii ascii
  by_cases asciiToo : IsAscii c
  · have byte' := toNat_of_ascii asciiToo
    rw [encoded_cons_of_ascii asciiToo, List.cons_prefix_cons, and_congr_left_iff]
    intro _
    rw [← UInt8.toNat_inj, byte.1, byte'.1, UInt32.toNat_inj, Char.val_inj]
  · have larger : m.val.toUInt8 :: bytes <+: encoded (c :: cs) → False := by
      rintro ⟨rest, heq⟩
      have first : m.val.toUInt8 ∈ String.utf8EncodeChar c := by
        obtain ⟨b, bs, hbytes⟩ := List.exists_cons_of_length_pos
          (by rw [String.length_utf8EncodeChar]; exact c.utf8Size_pos)
        rw [encoded_cons, hbytes, List.cons_append, List.cons_append, List.cons_eq_cons] at heq
        rw [heq.1, hbytes]
        exact List.mem_cons_self
      have large := UInt8.lt_iff_toNat_lt.1 (ascii_lt_of_mem asciiToo first)
      have bound : (127 : UInt8).toNat = 127 := rfl
      omega
    constructor
    · exact fun front => (larger front).elim
    · rintro ⟨rfl, -⟩
      exact absurd ascii asciiToo

/-- The bytes of an ASCII text stand at the front exactly if the text does. -/
theorem encoded_prefix_iff {mark : List Char} (ascii : ∀ c ∈ mark, IsAscii c) (cs : List Char) :
    encoded mark <+: encoded cs ↔ mark <+: cs := by
  induction mark generalizing cs with
  | nil => simp [encoded]
  | cons m mark ih =>
    rw [List.forall_mem_cons] at ascii
    rw [encoded_cons_of_ascii ascii.1]
    cases cs with
    | nil => simp [encoded]
    | cons c cs => rw [byte_cons_prefix_iff ascii.1, ih ascii.2, List.cons_prefix_cons]

/-- Bytes that do not begin the mark are passed over. -/
theorem offset?_append {m : UInt8} {bytes : List UInt8} (other : ∀ b ∈ bytes, b ≠ m)
    (mark rest : List UInt8) :
    offset? (m :: mark) (bytes ++ rest) = (offset? (m :: mark) rest).map (· + bytes.length) := by
  induction bytes with
  | nil => simp
  | cons b bytes ih =>
    rw [List.forall_mem_cons] at other
    have differs : ¬ m :: mark <+: b :: (bytes ++ rest) := by
      rw [List.cons_prefix_cons]
      exact fun same => other.1 same.1.symm
    rw [List.cons_append, offset?, if_neg differs, ih other.2, Option.map_map]
    rfl

section Marks

variable {mark : List Char} (ascii : ∀ c ∈ mark, IsAscii c) (nonempty : mark ≠ [])
include ascii nonempty

/-- A character at which the mark does not stand is passed over, with all its bytes. -/
theorem offset?_encoded_cons {c : Char} {cs : List Char} (absent : ¬ mark <+: c :: cs) :
    offset? (encoded mark) (encoded (c :: cs)) =
      (offset? (encoded mark) (encoded cs)).map (· + (String.utf8EncodeChar c).length) := by
  by_cases asciiToo : IsAscii c
  · have absent' : ¬ encoded mark <+: c.val.toUInt8 :: encoded cs := by
      rw [← encoded_cons_of_ascii asciiToo, encoded_prefix_iff ascii]
      exact absent
    rw [encoded_cons_of_ascii asciiToo, offset?, if_neg absent', encodeChar_of_ascii asciiToo]
    rfl
  · obtain ⟨m, mark, rfl⟩ := List.exists_cons_of_ne_nil nonempty
    have asciiFirst := (List.forall_mem_cons.1 ascii).1
    rw [encoded_cons_of_ascii asciiFirst, encoded_cons]
    apply offset?_append
    rintro b hb rfl
    have large := UInt8.lt_iff_toNat_lt.1 (ascii_lt_of_mem asciiToo hb)
    have byte := toNat_of_ascii asciiFirst
    have bound : (127 : UInt8).toNat = 127 := rfl
    omega

/-- Characters at none of which the mark stands are passed over. -/
theorem offset?_encoded (before cs : List Char)
    (absent : ∀ c rest, c :: rest <:+ before → ¬ mark <+: c :: (rest ++ cs)) :
    offset? (encoded mark) (encoded (before ++ cs)) =
      (offset? (encoded mark) (encoded cs)).map (· + size before) := by
  rw [← length_encoded]
  induction before with
  | nil => simp [encoded]
  | cons c before ih =>
    have behind := ih fun d rest inside => absent d rest (inside.trans (List.suffix_cons c before))
    rw [List.cons_append, offset?_encoded_cons ascii nonempty (absent c before List.suffix_rfl),
      behind, Option.map_map, encoded_cons, List.length_append]
    congr 1
    funext n
    simp only [Function.comp_apply]
    omega

end Marks

/-- The byte offset of the first of the given marks. -/
def seek? (mark : List Char) (s : String) : Option Nat :=
  offset? (encoded mark) (Frame.utf8 s)

section Marks

variable {mark : List Char} (ascii : ∀ c ∈ mark, IsAscii c) (nonempty : mark ≠ [])
include ascii nonempty

theorem seek?_eq_none {cs : List Char}
    (absent : ∀ c rest, c :: rest <:+ cs → ¬ mark <+: c :: rest) :
    seek? mark (String.ofList cs) = none := by
  have passed := offset?_encoded ascii nonempty cs [] (by simpa using absent)
  rw [List.append_nil] at passed
  rw [seek?, utf8_ofList, passed]
  rfl

theorem seek?_eq_some {before behind : List Char}
    (absent : ∀ c rest, c :: rest <:+ before → ¬ mark <+: c :: (rest ++ (mark ++ behind))) :
    seek? mark (String.ofList (before ++ (mark ++ behind))) =
      some (size before) := by
  have here : offset? (encoded mark) (encoded (mark ++ behind)) = some 0 := by
    obtain ⟨m, mark, rfl⟩ := List.exists_cons_of_ne_nil nonempty
    have front : encoded (m :: mark) <+: encoded (m :: mark ++ behind) :=
      (encoded_prefix_iff ascii _).2 (List.prefix_append ..)
    have asciiFirst := (List.forall_mem_cons.1 ascii).1
    simp only [List.cons_append, encoded_cons_of_ascii asciiFirst] at front ⊢
    rw [offset?, if_pos front]
  rw [seek?, utf8_ofList, offset?_encoded ascii nonempty _ _ absent, here, Option.map_some,
    Nat.zero_add]

end Marks

/-! ## The marks of references -/

/-- The mark at which a reference closes. -/
def closing : List Char := ['\x7d']

theorem ascii_opening : ∀ c ∈ opening, IsAscii c := by
  rw [opening, List.forall_mem_cons, List.forall_mem_singleton, IsAscii, IsAscii]
  decide

theorem ascii_closing : ∀ c ∈ closing, IsAscii c := by
  rw [closing, List.forall_mem_singleton, IsAscii]
  decide

theorem absent_of_plain {before behind : List Char} (plain : ¬ opening <:+: before)
    (seamless : Seamless before behind) (c : Char) (rest : List Char)
    (inside : c :: rest <:+ before) : ¬ opening <+: c :: (rest ++ behind) := by
  obtain ⟨front, rfl⟩ := inside
  apply not_opening_of_plain
  · exact fun opens => plain (opens.trans (List.suffix_append front _).isInfix)
  · rintro ⟨last, first⟩
    exact seamless ⟨by rw [List.getLast?_append, last]; rfl, first⟩

theorem absent_of_unclosed {before : List Char} (unclosed : '\x7d' ∉ before) (c : Char)
    (rest behind : List Char) (inside : c :: rest <:+ before) : ¬ closing <+: c :: behind := by
  rw [closing, List.cons_prefix_cons]
  rintro ⟨rfl, -⟩
  exact unclosed (inside.subset List.mem_cons_self)

theorem seek?_opening_none {cs : List Char} (plain : ¬ opening <:+: cs) :
    seek? opening (String.ofList cs) = none := by
  apply seek?_eq_none ascii_opening (by decide)
  intro c rest inside
  simpa using absent_of_plain plain (seamless_nil cs) c rest inside

theorem seek?_opening {before behind : List Char} (plain : ¬ opening <:+: before) :
    seek? opening (String.ofList (before ++ (opening ++ behind))) =
      some (size before) :=
  seek?_eq_some ascii_opening (by decide) (absent_of_plain plain seamless_opening)

theorem seek?_closing_none {cs : List Char} (unclosed : '\x7d' ∉ cs) :
    seek? closing (String.ofList cs) = none :=
  seek?_eq_none ascii_closing (by decide) fun c rest inside =>
    absent_of_unclosed unclosed c rest rest inside

theorem seek?_closing {name after : List Char} (unclosed : '\x7d' ∉ name) :
    seek? closing (String.ofList (name ++ '\x7d' :: after)) =
      some (size name) :=
  seek?_eq_some ascii_closing (by decide) fun c rest inside =>
    absent_of_unclosed unclosed c rest _ inside

/-! ## The pass -/

/-- Replaces the references from left to right, by byte offsets. -/
def sweep? (env : Environment) (out rest : String) : Option String :=
  match seek? opening rest with
  | none => some (out ++ rest)
  | some start =>
    match slice? rest (start + 2) rest.utf8ByteSize with
    | none => none
    | some behind =>
      match seek? closing behind with
      | none => some (out ++ rest)
      | some length =>
        let stop := start + 2 + length
        match slice? rest 0 start, slice? rest (start + 2) stop,
            _h : slice? rest (stop + 1) rest.utf8ByteSize with
        | some before, some name, some left =>
          sweep? env (out ++ before ++ String.ofList (valueOf env name.toList)) left
        | _, _, _ => none
termination_by rest.utf8ByteSize
decreasing_by
  have := size_of_slice? _h
  omega

/-- The pass over a text without an opening mark. -/
theorem sweep?_plain (env : Environment) (out : String) {cs : List Char}
    (plain : ¬ opening <:+: cs) :
    sweep? env out (String.ofList cs) = some (out ++ String.ofList cs) := by
  rw [sweep?, seek?_opening_none plain]

theorem slice?_behind_opening (before behind : List Char) :
    slice? (String.ofList (before ++ (opening ++ behind))) (size before + 2)
      (String.ofList (before ++ (opening ++ behind))).utf8ByteSize =
        some (String.ofList behind) := by
  apply slice?_ofList (before ++ opening) []
  · simp
  · rw [size_append]; rfl
  · rw [← size, size_append, size_append, size_append, Nat.add_assoc]

/-- The pass over a text whose first opening mark is not closed. -/
theorem sweep?_unclosed (env : Environment) (out : String) {before behind : List Char}
    (plain : ¬ opening <:+: before) (unclosed : '\x7d' ∉ behind) :
    sweep? env out (String.ofList (before ++ (opening ++ behind))) =
      some (out ++ String.ofList (before ++ (opening ++ behind))) := by
  rw [sweep?, seek?_opening plain]
  dsimp only
  rw [slice?_behind_opening]
  dsimp only
  rw [seek?_closing_none unclosed]

/-- A round of the pass: everything that it slices lies between two characters. -/
theorem sweep?_closed (env : Environment) (out : String) {before name : List Char}
    (plain : ¬ opening <:+: before) (unclosed : '\x7d' ∉ name) (after : List Char) :
    sweep? env out (String.ofList (before ++ (opening ++ (name ++ '\x7d' :: after)))) =
      sweep? env (out ++ String.ofList before ++ String.ofList (valueOf env name))
        (String.ofList after) := by
  have front : slice? (String.ofList (before ++ (opening ++ (name ++ '\x7d' :: after)))) 0
      (size before) = some (String.ofList before) :=
    slice?_ofList [] _ rfl size_nil.symm (by rw [size_nil, Nat.zero_add])
  have named : slice? (String.ofList (before ++ (opening ++ (name ++ '\x7d' :: after))))
      (size before + 2) (size before + 2 + size name) = some (String.ofList name) := by
    apply slice?_ofList (before ++ opening) ('\x7d' :: after)
    · simp
    · rw [size_append]; rfl
    · rw [size_append]; rfl
  have left : slice? (String.ofList (before ++ (opening ++ (name ++ '\x7d' :: after))))
      (size before + 2 + size name + 1)
      (String.ofList (before ++ (opening ++ (name ++ '\x7d' :: after)))).utf8ByteSize =
        some (String.ofList after) := by
    have passed : size (before ++ (opening ++ (name ++ closing))) =
        size before + 2 + size name + 1 := by
      rw [size_append, size_append, size_append]
      show size before + (2 + (size name + 1)) = _
      omega
    apply slice?_ofList (before ++ (opening ++ (name ++ closing))) []
    · simp [closing]
    · exact passed.symm
    · rw [← size, ← size_append]
      simp [closing]
  rw [sweep?, seek?_opening plain]
  dsimp only
  rw [slice?_behind_opening]
  dsimp only
  rw [seek?_closing unclosed]
  dsimp only
  split
  · next before' name' left' heq heq' heq'' =>
    rw [front] at heq
    rw [named] at heq'
    rw [left] at heq''
    cases heq
    cases heq'
    cases heq''
    rw [String.toList_ofList]
  · next none => exact absurd left (none _ _ _ front named)

/-- The pass goes over the references of the cut, one in each round. -/
theorem sweep?_of_isCut (env : Environment) (out : String) {cut : Cut} {cs : List Char}
    (h : IsCut cut cs) :
    sweep? env out (String.ofList cs) =
      some (out ++ String.ofList (cut.values env ++ cut.rest)) := by
  obtain ⟨references, rest⟩ := cut
  induction references generalizing cs out with
  | nil =>
    obtain rfl : cs = rest := h.text
    show _ = some (out ++ String.ofList cs)
    rcases plain_or_opens cs with plain | ⟨before, behind, rfl, plain⟩
    · exact sweep?_plain env out plain
    · exact sweep?_unclosed env out plain (unclosed_of_not_hasReference h.rest)
  | cons r references ih =>
    obtain ⟨after, rfl, plain, unclosed, tail⟩ := h.tail
    rw [sweep?_closed env out plain unclosed, ih _ tail, Option.some_inj]
    simp [Cut.values, String.ofList_append, String.append_assoc]

/-- **The pass never slices within a character.** It comes to its end, and gives the expansion. -/
theorem sweep?_eq (env : Environment) (out s : String) :
    sweep? env out s = some (out ++ expand env s) := by
  obtain ⟨cut, h⟩ := exists_cut s.toList
  have swept := sweep?_of_isCut env out h
  rwa [String.ofList_toList, ← expandChars_of_isCut h] at swept

/-! ## All together -/

/-- A variable whose value looks like a reference. -/
def selfish : Environment := fun name => if name = "A" then some "$\x7bA\x7d" else none

end WorkerBridge.Expansion
