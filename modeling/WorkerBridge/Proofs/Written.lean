/-
  WorkerBridge.Proofs.Written

  What is written is a frame.

  The header block that goes in front of a body has one line, which names the
  length in decimal, and a blank line. `headerLine_announcement` reads that line
  back: the blanks around it do not count, the name is the one that is looked
  for, and the digits denote the length. So the bytes of a body within the limit
  are a complete frame (`isFrame_bytes`), whatever the body holds.
-/
import Mathlib.Data.List.TakeDrop
import WorkerBridge.Proofs.Digits
import WorkerBridge.Proofs.Framing

namespace WorkerBridge

/-! ## Trimming -/

/-- Blanks are dropped from both ends, up to the first and the last character that is none. -/
theorem Text.trimChars_of_blanks {front cs back : List Char} (nonempty : cs ≠ [])
    (hfront : front.all isBlank) (hback : back.all isBlank)
    (first : isBlank (cs.head nonempty) = false) (last : isBlank (cs.getLast nonempty) = false) :
    trimChars (front ++ (cs ++ back)) = cs := by
  have kept : (cs ++ back).dropWhile isBlank = cs ++ back := by
    obtain ⟨c, rest, rfl⟩ := List.exists_cons_of_ne_nil nonempty
    exact List.dropWhile_cons_of_neg (by simpa using first)
  have kept' : cs.reverse.dropWhile isBlank = cs.reverse := by
    obtain ⟨rest, c, rfl⟩ := (List.eq_nil_or_concat cs).resolve_left nonempty
    rw [List.concat_eq_append, List.reverse_append]
    exact List.dropWhile_cons_of_neg (by simpa using last)
  rw [trimChars, List.dropWhile_append_of_pos (List.all_eq_true.1 hfront), kept,
    List.reverse_append, List.dropWhile_append_of_pos (by simpa using hback), kept',
    List.reverse_reverse]

/-- Digits are ASCII characters from `0` to `9`. -/
theorem Decimal.toNat_of_isDigit {c : Char} (digit : isDigit c) : 48 ≤ c.toNat ∧ c.toNat ≤ 57 := by
  simpa [isDigit, Char.le_def, UInt32.le_iff_toNat_le] using digit

theorem Text.isBlank_of_isDigit {c : Char} (digit : Decimal.isDigit c) : isBlank c = false := by
  have range := Decimal.toNat_of_isDigit digit
  simp only [isBlank, Bool.or_eq_false_iff, Bool.and_eq_false_iff, beq_eq_false_iff_ne,
    decide_eq_false_iff_not]
  omega

namespace Frame

/-! ## Texts as bytes -/

/-- An ASCII text has one byte for each character. -/
theorem utf8_ofList {cs : List Char} (ascii : ∀ c ∈ cs, c.val ≤ 127) :
    utf8 (String.ofList cs) = cs.map (·.val.toUInt8) := by
  have encoded : cs.flatMap String.utf8EncodeChar = cs.map (·.val.toUInt8) := by
    induction cs with
    | nil => rfl
    | cons c cs ih =>
      have single : c.utf8Size = 1 := Char.utf8Size_eq_one_iff.2 (ascii c (by simp))
      rw [List.flatMap_cons, String.utf8EncodeChar_eq_singleton single, List.map_cons,
        ih fun d hd => ascii d (List.mem_cons_of_mem c hd)]
      rfl
  simp [utf8, String.toByteArray_ofList, List.utf8Encode, encoded]

/-! ## The header of a frame -/

/-- The text of the header line that names a length. -/
def announcement (n : Nat) : List Char :=
  lengthHeader.toList ++ ':' :: ' ' :: Decimal.digits n

theorem header_eq (n : Nat) :
    header n = String.ofList (announcement n ++ ['\r', '\n'] ++ ['\r', '\n']) := by
  apply String.toList_injective
  simp [header, announcement, Decimal.text]

/-- The name of a header goes up to the first colon. -/
theorem splitColon_append {name : List Char} (plain : name.all (· ≠ ':')) (value : List Char) :
    splitColon (name ++ ':' :: value) = some (name, value) := by
  have before := List.all_eq_true.1 plain
  rw [splitColon, List.span_eq_takeWhile_dropWhile, List.takeWhile_append_of_pos before,
    List.dropWhile_append_of_pos before]
  simp

/-- **The header line that is written names the length.** -/
theorem headerLine_announcement {n : Nat} (within : n ≤ Json.maxUnsigned) :
    headerLine (String.ofList (announcement n ++ ['\r', '\n'])) = .length n := by
  have nonempty := Decimal.digits_ne_nil n
  have digit : ∀ c ∈ Decimal.digits n, Text.isBlank c = false := fun c hc =>
    Text.isBlank_of_isDigit (Decimal.isDigit_of_mem_digits n c hc)
  have line : Text.trimChars (announcement n ++ ['\r', '\n']) = announcement n := by
    refine @Text.trimChars_of_blanks [] (announcement n) ['\r', '\n'] (by simp [announcement])
      rfl rfl rfl ?_
    simp [announcement, nonempty, digit]
  have value : Text.trimChars (' ' :: Decimal.digits n) = Decimal.digits n := by
    have trimmed := @Text.trimChars_of_blanks [' '] (Decimal.digits n) [] nonempty rfl rfl
      (digit _ (List.head_mem nonempty)) (digit _ (List.getLast_mem nonempty))
    simpa using trimmed
  have colon : splitColon (announcement n) =
      some (lengthHeader.toList, ' ' :: Decimal.digits n) := splitColon_append (by decide) _
  have name : Text.sameIgnoringCase (Text.trimChars lengthHeader.toList) lengthHeader.toList := by
    decide
  have read := Decimal.readUpTo?_digits within
  rw [headerLine, String.toList_ofList, line]
  split
  · next blank => simp [announcement] at blank
  · simp only [colon, if_pos name, value, read]

/-! ## The frame of a body -/

/-- The bytes of the header line that names a length. -/
def lengthLine (n : Nat) : List UInt8 :=
  (announcement n).map (·.val.toUInt8) ++ [13, 10]

/-- The header line is ASCII, and there is no line feed before its end. -/
theorem announcement_chars {n : Nat} {c : Char} (hc : c ∈ announcement n) :
    c.val ≤ 127 ∧ c.val.toUInt8 ≠ 10 := by
  have fixed : (lengthHeader.toList ++ [':', ' ']).all
      fun d => d.val ≤ 127 ∧ d.val.toUInt8 ≠ 10 := by
    decide
  have split : announcement n = lengthHeader.toList ++ [':', ' '] ++ Decimal.digits n := by
    simp [announcement]
  rw [split, List.mem_append] at hc
  rcases hc with hc | hc
  · exact of_decide_eq_true (List.all_eq_true.1 fixed c hc)
  · obtain ⟨low, high⟩ := Decimal.toNat_of_isDigit (Decimal.isDigit_of_mem_digits n c hc)
    refine ⟨UInt32.le_iff_toNat_le.2 (Nat.le_trans high (by decide)), fun feed => ?_⟩
    have ten := congrArg UInt8.toNat feed
    have small : c.val.toNat < 256 := Nat.lt_of_le_of_lt high (by decide)
    rw [UInt32.toNat_toUInt8, Nat.mod_eq_of_lt small] at ten
    have low : 48 ≤ c.val.toNat := low
    rw [ten] at low
    exact absurd low (by decide)

theorem utf8_announcement (n : Nat) {rest : List Char} (ascii : rest.all (·.val ≤ 127)) :
    utf8 (String.ofList (announcement n ++ rest)) =
      (announcement n).map (·.val.toUInt8) ++ rest.map (·.val.toUInt8) := by
  rw [utf8_ofList, List.map_append]
  intro c hc
  rcases List.mem_append.1 hc with hc | hc
  · exact (announcement_chars hc).1
  · exact of_decide_eq_true (List.all_eq_true.1 ascii c hc)

theorem isHeader_lengthLine {n : Nat} (within : n ≤ maxBody) :
    IsHeader (.length n) (lengthLine n) := by
  refine ⟨⟨(announcement n).map (·.val.toUInt8) ++ [13], by simp [lengthLine], ?_⟩, ?_, ?_⟩
  · intro feed
    rcases List.mem_append.1 feed with feed | feed
    · obtain ⟨c, hc, ten⟩ := List.mem_map.1 feed
      exact (announcement_chars hc).2 ten
    · exact absurd feed (by decide)
  · have short := @Decimal.length_digits_le n 7 (Nat.lt_of_le_of_lt within (by decide))
    have name : lengthHeader.toList.length = 14 := by decide
    simp only [lengthLine, announcement, List.length_map, List.length_append, List.length_cons,
      List.length_nil, name, maxHeaderLine]
    omega
  · have bytes : utf8 (String.ofList (announcement n ++ ['\r', '\n'])) = lengthLine n :=
      utf8_announcement n (by decide)
    rw [← bytes, readLine?_utf8, headerLine_announcement (Nat.le_trans within (by decide))]

theorem headers_lengthLine {n : Nat} (within : n ≤ maxBody) :
    Headers (some n) (lengthLine n) := by
  have headers := Headers.length .nil (isHeader_lengthLine within)
  rwa [List.nil_append] at headers

theorem isHeader_blank : IsHeader .blank [13, 10] := by
  refine ⟨⟨[13], rfl, by decide⟩, by decide, ?_⟩
  exact readLine?_utf8 "\r\n"

/-- The bytes of a frame are its header line, the blank line and the body. -/
theorem bytes_eq (body : ByteArray) :
    (bytes body).data.toList = lengthLine body.size ++ [13, 10] ++ body.data.toList := by
  have head : utf8 (header body.size) = lengthLine body.size ++ [13, 10] := by
    rw [header_eq, List.append_assoc, utf8_announcement _ (by decide)]
    simp only [lengthLine, List.append_assoc]
    rfl
  rw [bytes, ByteArray.data_append, Array.toList_append, ← head]
  rfl

/-- **What is written is a frame.** -/
theorem isFrame_bytes {body : ByteArray} (within : body.size ≤ maxBody) :
    IsFrame body.data.toList (bytes body).data.toList := by
  exact ⟨lengthLine body.size, [13, 10], bytes_eq body, headers_lengthLine within, isHeader_blank,
    within⟩

/-- Of the bytes of a frame nothing is left but its body. -/
theorem readAll_bytes {body : ByteArray} (within : body.size ≤ maxBody) :
    readAll (bytes body).data.toList = ([body.data.toList], .clean) := by
  simpa [readAll_nil] using readAll_append (Framed.nil.concat (isFrame_bytes within)) []

end Frame

end WorkerBridge
