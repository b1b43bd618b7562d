/-
  WorkerBridge.Proofs.HeaderBlock

  What a block of header lines says about the body behind it.

  A reader trims a line before it looks for the colon, and then trims the name and
  the value once more. `headerLine_eq` says what this comes to in terms of the line
  as it stands: only the text before the first colon and the text behind it count.
  So a block is decided by the values of its length headers, in order
  (`readAll_block`): the first one that is no number ends the stream, otherwise
  the last one counts. Lines of any other name make no difference, wherever they
  stand and whatever they hold.
-/
import Mathlib.Data.List.TakeWhile
import WorkerBridge.Proofs.Truncation

namespace WorkerBridge

/-! ## Trimming in parts -/

namespace Text

theorem trimChars_eq_nil_iff {cs : List Char} : trimChars cs = [] ↔ cs.all isBlank := by
  rw [trimChars, List.reverse_eq_nil_iff, List.dropWhile_eq_nil_iff, List.all_eq_true]
  constructor
  · intro blank
    -- What is left starts with a character that is no blank, so nothing is left.
    have left : cs.dropWhile isBlank = [] := by
      by_contra begun
      have first := List.head_dropWhile_not isBlank begun
      rw [blank _ (List.mem_reverse.2 (List.head_mem begun))] at first
      cases first
    exact List.dropWhile_eq_nil_iff.1 left
  · intro blank c hc
    exact blank c (List.dropWhile_sublist isBlank |>.subset (List.mem_reverse.1 hc))

theorem trimChars_append_left {front : List Char} (blank : front.all isBlank) (cs : List Char) :
    trimChars (front ++ cs) = trimChars cs := by
  rw [trimChars, List.dropWhile_append_of_pos (List.all_eq_true.1 blank), trimChars]

theorem trimChars_append_right {back : List Char} (blank : back.all isBlank) (cs : List Char) :
    trimChars (cs ++ back) = trimChars cs := by
  by_cases all : cs.all isBlank
  · have both : (cs ++ back).all isBlank := by rw [List.all_append, all, blank, Bool.and_self]
    rw [trimChars_eq_nil_iff.2 both, trimChars_eq_nil_iff.2 all]
  · have begun : cs.dropWhile isBlank ≠ [] := by
      rwa [Ne, List.dropWhile_eq_nil_iff, ← List.all_eq_true]
    rw [trimChars, List.dropWhile_append, if_neg (by simpa using begun), List.reverse_append,
      List.dropWhile_append_of_pos (by simpa using blank), trimChars]

/-- Trimming takes blanks away, and nothing else. -/
theorem trimChars_split (cs : List Char) :
    ∃ front back, cs = front ++ (trimChars cs ++ back) ∧ front.all isBlank ∧ back.all isBlank := by
  refine ⟨cs.takeWhile isBlank, ((cs.dropWhile isBlank).reverse.takeWhile isBlank).reverse,
    ?_, List.all_takeWhile, ?_⟩
  · rw [trimChars, ← List.reverse_append, List.takeWhile_append_dropWhile, List.reverse_reverse,
      List.takeWhile_append_dropWhile]
  · rw [List.all_reverse]
    exact List.all_takeWhile

end Text

namespace Frame

/-! ## A header line as it stands -/

theorem splitColon_of_not_mem {cs : List Char} (plain : ':' ∉ cs) : splitColon cs = none := by
  have all : ∀ c ∈ cs, decide (c ≠ ':') = true := fun c hc =>
    decide_eq_true fun same => plain (same ▸ hc)
  rw [splitColon, List.span_eq_takeWhile_dropWhile, List.dropWhile_eq_nil_iff.2 all]

theorem splitColon_cases (cs : List Char) :
    ':' ∉ cs ∨ ∃ name value, cs = name ++ ':' :: value ∧ name.all (· ≠ ':') := by
  by_cases colon : ':' ∈ cs
  · right
    obtain ⟨name, value, rfl, first⟩ := List.eq_append_cons_of_mem colon
    exact ⟨name, value, rfl, List.all_eq_true.2 fun c hc =>
      decide_eq_true fun same => first (same ▸ hc)⟩
  · exact Or.inl colon

/-- The value of a header that names the length: what stands behind the first colon, if the name
    before it is the one that is looked for. -/
def lengthValue? (line : String) : Option (List Char) :=
  (splitColon line.toList).bind fun (name, value) =>
    if Text.sameIgnoringCase (Text.trimChars name) lengthHeader.toList then
      some (Text.trimChars value)
    else none

/-- The number that the value of a length header denotes. -/
def lengthOf? (value : List Char) : Option Nat :=
  Decimal.readUpTo? Json.maxUnsigned value

/-- What a header says that names the length. -/
def sayLength (value : List Char) : HeaderLine :=
  match lengthOf? value with
  | some n => .length n
  | none => .badLength (String.ofList value)

/-- **A header line is decided by its first colon.** That the line is trimmed first makes no
    difference. -/
theorem headerLine_eq {line : String} (nonblank : ¬ Text.isBlankText line) :
    headerLine line = ((lengthValue? line).map sayLength).getD .other := by
  obtain ⟨front, back, split, hfront, hback⟩ := Text.trimChars_split line.toList
  have kept : Text.trimChars line.toList ≠ [] := fun h => nonblank (Text.trimChars_eq_nil_iff.1 h)
  -- Blanks are no colons.
  have plain : ∀ {cs : List Char}, cs.all Text.isBlank → ':' ∉ cs := fun blank colon =>
    absurd (List.all_eq_true.1 blank ':' colon) (by decide)
  rw [headerLine]
  split
  · next blank => exact absurd blank kept
  · rcases splitColon_cases (Text.trimChars line.toList) with none | ⟨name, value, hline, before⟩
    · have none' : ':' ∉ line.toList := by
        rw [split, List.mem_append, List.mem_append]
        rintro (h | h | h)
        · exact plain hfront h
        · exact none h
        · exact plain hback h
      simp only [lengthValue?, splitColon_of_not_mem none, splitColon_of_not_mem none']
      rfl
    · have before' : (front ++ name).all (· ≠ ':') := by
        rw [List.all_append, before, Bool.and_true, List.all_eq_true]
        exact fun c hc => decide_eq_true fun same => plain hfront (same ▸ hc)
      have whole : line.toList = (front ++ name) ++ ':' :: (value ++ back) := by
        rw [split, hline]
        simp
      have read : lengthValue? line =
          if Text.sameIgnoringCase (Text.trimChars name) lengthHeader.toList then
            some (Text.trimChars value) else none := by
        simp only [lengthValue?, whole, splitColon_append before', Option.bind_some,
          Text.trimChars_append_left hfront, Text.trimChars_append_right hback]
      simp only [hline, splitColon_append before, read]
      by_cases named : Text.sameIgnoringCase (Text.trimChars name) lengthHeader.toList
      · simp only [if_pos named, Option.map_some, Option.getD_some]
        rfl
      · simp only [if_neg named]
        rfl

/-! ## Blocks of header lines -/

/-- A line of text: its bytes end in a line feed and have no other, and there are no more of them
    than a header line may have. -/
structure IsLine (line : String) : Prop where
  ended : ∃ text, utf8 line = text ++ [10] ∧ 10 ∉ text
  short : (utf8 line).length ≤ maxHeaderLine

instance (line : String) : Decidable (IsLine line) :=
  decidable_of_iff
    ((utf8 line).getLast? = some 10 ∧ 10 ∉ (utf8 line).dropLast ∧
      (utf8 line).length ≤ maxHeaderLine) <| by
    constructor
    · rintro ⟨last, others, short⟩
      exact ⟨⟨_, (List.dropLast_append_getLast? _ last).symm, others⟩, short⟩
    · rintro ⟨⟨text, heq, others⟩, short⟩
      exact ⟨by simp [heq], by simpa [heq] using others, short⟩

theorem IsLine.isHeader {line : String} (h : IsLine line) :
    IsHeader (headerLine line) (utf8 line) :=
  ⟨h.ended, h.short, readLine?_utf8 line⟩

/-- A header block: lines of text that are not blank. -/
def IsBlock (lines : List String) : Prop :=
  ∀ line ∈ lines, IsLine line ∧ ¬ Text.isBlankText line

instance (lines : List String) : Decidable (IsBlock lines) :=
  inferInstanceAs (Decidable (∀ line ∈ lines, IsLine line ∧ ¬ Text.isBlankText line))

/-- The bytes of the lines. -/
def blockBytes (lines : List String) : List UInt8 :=
  lines.flatMap utf8

/-- The values of the length headers, in order. -/
def lengthValues (lines : List String) : List (List Char) :=
  lines.filterMap lengthValue?

/-- What a header block comes to: the first length that is no number is an error; otherwise the last
    one counts, if there is one and it is within the limit. -/
def blockLength (lines : List String) : Except FrameError Nat :=
  match (lengthValues lines).find? (lengthOf? · = none) with
  | some bad => .error (.invalidLength (String.ofList bad))
  | none =>
    match (lengthValues lines).getLast?.bind lengthOf? with
    | none => .error .missingLength
    | some n => if n > maxBody then .error (.oversized n) else .ok n

/-- What is read behind a header block: nothing after an error, and otherwise a body of the length
    that the block names, and then what follows it. -/
def readBehind (rest : List UInt8) : Except FrameError Nat → List (List UInt8) × Ending
  | .error e => ([], .failed e)
  | .ok n =>
    if rest.length < n then ([], .failed (.channel .readingBody))
    else (rest.take n :: (readAll (rest.drop n)).1, (readAll (rest.drop n)).2)

theorem Reader.feed_failed (e : FrameError) (bodies : List (List UInt8)) (xs : List UInt8) :
    Reader.feed ⟨.failed e, bodies⟩ xs = ⟨.failed e, bodies⟩ := by
  induction xs with
  | nil => rfl
  | cons x xs ih => exact ih

/-- Nothing is read after an error. -/
theorem readAll_of_failed {front : List UInt8} {e : FrameError}
    (failed : Reader.feed {} front = ⟨.failed e, []⟩) (rest : List UInt8) :
    readAll (front ++ rest) = ([], .failed e) := by
  refine readAll_eq_iff.2 ⟨none, ?_, ?_⟩
  · rw [Reader.feed_append, failed, Reader.feed_failed]
    rfl
  · rw [Reader.feed_append, failed, Reader.feed_failed]
    rfl

/-- Lines without a bad length are headers, and name the length of the last length header. -/
theorem headers_block {lines : List String} (block : IsBlock lines)
    (good : ∀ v ∈ lengthValues lines, lengthOf? v ≠ none) :
    Headers ((lengthValues lines).getLast?.bind lengthOf?) (blockBytes lines) := by
  induction lines using List.reverseRecOn with
  | nil => exact .nil
  | append_singleton lines line ih =>
    obtain ⟨hline, nonblank⟩ := block line (by simp)
    have values : lengthValues (lines ++ [line]) =
        lengthValues lines ++ (lengthValue? line).toList := by
      cases h : lengthValue? line <;> simp [lengthValues, h]
    rw [values] at good ⊢
    have headers := ih (fun l hl => block l (List.mem_append_left _ hl))
      fun v hv => good v (List.mem_append_left _ hv)
    have header := hline.isHeader
    rw [headerLine_eq nonblank] at header
    rw [blockBytes, List.flatMap_append, List.flatMap_singleton]
    cases h : lengthValue? line with
    | none =>
      rw [h] at header
      rw [Option.toList_none, List.append_nil]
      exact .other headers header
    | some v =>
      obtain ⟨n, hn⟩ := Option.ne_none_iff_exists'.1 (good v (by simp [h]))
      rw [h, Option.map_some, Option.getD_some, sayLength, hn] at header
      rw [Option.toList_some, List.getLast?_concat, Option.bind_some, hn]
      exact .length headers header

/-- The first bad length ends the stream. -/
theorem feed_badLength {lines : List String} (block : IsBlock lines) {bad : List Char}
    (first : (lengthValues lines).find? (lengthOf? · = none) = some bad) :
    Reader.feed {} (blockBytes lines) = ⟨.failed (.invalidLength (String.ofList bad)), []⟩ := by
  obtain ⟨isBad, before, after, hvalues, good⟩ := List.find?_eq_some_iff_append.1 first
  obtain ⟨front, later, rfl, rfl, hlater⟩ := List.filterMap_eq_append_iff.1 hvalues
  obtain ⟨skipped, line, back, rfl, others, hbad, -⟩ := List.filterMap_eq_cons_iff.1 hlater
  -- The lines before the bad one are headers.
  have value : lengthValues (front ++ skipped) = lengthValues front := by
    rw [lengthValues, List.filterMap_append, List.filterMap_eq_nil_iff.2 others, List.append_nil]
    rfl
  have before : IsBlock (front ++ skipped) := by
    intro l hl
    rw [← List.append_assoc] at block
    exact block l (List.mem_append_left _ hl)
  have numbers : ∀ v ∈ lengthValues (front ++ skipped), lengthOf? v ≠ none := by
    rw [value]
    exact fun v hv => by simpa using good v hv
  have headers := headers_block before numbers
  obtain ⟨hline, nonblank⟩ := block line (by simp)
  have header := hline.isHeader
  rw [headerLine_eq nonblank, hbad, Option.map_some, Option.getD_some, sayLength,
    of_decide_eq_true isBad] at header
  have split : blockBytes (front ++ (skipped ++ line :: back)) =
      blockBytes (front ++ skipped) ++ utf8 line ++ blockBytes back := by
    simp [blockBytes]
  have fed := Reader.feed_headers headers []
  rw [split, Reader.feed_append, Reader.feed_append, show ({} : Reader) = ⟨.between, []⟩ from rfl,
    fed, Reader.feed_header header]
  exact Reader.feed_failed _ _ _

/-- **A header block is decided by its length headers.** -/
theorem readAll_block {lines : List String} {blank : String} (block : IsBlock lines)
    (ending : IsLine blank) (isBlank : Text.isBlankText blank) (rest : List UInt8) :
    readAll (blockBytes lines ++ utf8 blank ++ rest) = readBehind rest (blockLength lines) := by
  have header : IsHeader .blank (utf8 blank) := by
    have header := ending.isHeader
    rwa [headerLine, Text.trimChars_eq_nil_iff.2 isBlank] at header
  cases first : (lengthValues lines).find? (lengthOf? · = none) with
  | some bad =>
    rw [List.append_assoc, readAll_of_failed (feed_badLength block first), blockLength, first]
    rfl
  | none =>
    have good : ∀ v ∈ lengthValues lines, lengthOf? v ≠ none := by
      simpa using List.find?_eq_none.1 first
    have headers := headers_block block good
    have fed : Reader.feed {} (blockBytes lines ++ utf8 blank) =
        ⟨(endHeader ((lengthValues lines).getLast?.bind lengthOf?)).1,
          (endHeader ((lengthValues lines).getLast?.bind lengthOf?)).2.toList⟩ := by
      rw [Reader.feed_append, show ({} : Reader) = ⟨.between, []⟩ from rfl,
        Reader.feed_headers headers, Reader.feed_header header, List.append_nil]
      rfl
    rw [blockLength, first]
    cases named : (lengthValues lines).getLast?.bind lengthOf? with
    | none =>
      rw [named] at fed
      exact readAll_of_failed fed rest
    | some n =>
      rw [named] at fed headers
      by_cases large : n > maxBody
      · have oversized : endHeader (some n) = (.failed (.oversized n), none) := by
          obtain ⟨k, rfl⟩ : ∃ k, n = k + 1 := ⟨n - 1, by omega⟩
          exact if_pos large
        rw [oversized] at fed
        simp only [if_pos large]
        exact readAll_of_failed fed rest
      · simp only [if_neg large, readBehind]
        by_cases missing : rest.length < n
        · rw [if_pos missing]
          exact readAll_of_missing headers header (Nat.le_of_not_lt large) missing
        · have taken : (rest.take n).length = n := by
            rw [List.length_take]
            omega
          have frame : IsFrame (rest.take n) (blockBytes lines ++ utf8 blank ++ rest.take n) :=
            ⟨_, _, rfl, by rw [taken]; exact headers, header, by rw [taken]; omega⟩
          have framed : Framed [rest.take n] (blockBytes lines ++ utf8 blank ++ rest.take n) :=
            ⟨[_], .cons frame .nil, by simp⟩
          have whole : blockBytes lines ++ utf8 blank ++ rest =
              (blockBytes lines ++ utf8 blank ++ rest.take n) ++ rest.drop n := by simp
          rw [if_neg missing, whole, readAll_append framed]
          rfl

/-- Whether a header line has the name of a length header. -/
def namesLength (line : String) : Bool :=
  (lengthValue? line).isSome

theorem lengthValues_filter (lines : List String) :
    lengthValues (lines.filter namesLength) = lengthValues lines := by
  rw [lengthValues, List.filterMap_filter]
  refine List.filterMap_congr fun line _ => ?_
  cases h : lengthValue? line <;> simp [namesLength, h]

/-- **Header blocks.** Take any lines of text that are within the limit and not blank, then a blank
    line, and then anything. If one of the length headers has a value that is no number, the stream
    ends with an error that names the first such value. Otherwise the last length header counts: it
    is an error if there is none or if it exceeds the limit, and else that many bytes are read as
    a body, and what follows them is read on. So lines of any other name may be inserted, removed
    and moved anywhere in the block: as long as the length headers stay the same, in order, all that
    is read is the same. -/
theorem length_headers_decide {lines : List String} {blank : String} (block : IsBlock lines)
    (ending : IsLine blank) (isBlank : Text.isBlankText blank) (rest : List UInt8) :
    readAll (blockBytes lines ++ utf8 blank ++ rest) = readBehind rest (blockLength lines) ∧
    ∀ lines', IsBlock lines' → lines'.filter namesLength = lines.filter namesLength →
      readAll (blockBytes lines' ++ utf8 blank ++ rest) =
        readAll (blockBytes lines ++ utf8 blank ++ rest) := by
  refine ⟨readAll_block block ending isBlank rest, fun lines' block' same => ?_⟩
  have values : lengthValues lines' = lengthValues lines := by
    rw [← lengthValues_filter lines', same, lengthValues_filter]
  rw [readAll_block block' ending isBlank, readAll_block block ending isBlank, blockLength,
    blockLength, values]

/-- Two length headers, the second one in other letters, with blanks and a sign, and between them
    a note that looks like a length. -/
def annotated : List String :=
  ["Content-Length: 9\r\n", "X-Note: Content-Length: 7\r\n", " CONTENT-length\t:\u00a0+3\r\n"]

/-- The same length headers, behind another line. -/
def rearranged : List String :=
  ["no colon here\n", "Content-Length: 9\r\n", " CONTENT-length\t:\u00a0+3\r\n"]

theorem rearranged_read_alike :
    (IsBlock annotated ∧ IsLine "\u2003\r\n" ∧ Text.isBlankText "\u2003\r\n" ∧
      IsBlock rearranged ∧ rearranged.filter namesLength = annotated.filter namesLength) ∧
    readAll (blockBytes annotated ++ utf8 "\u2003\r\n" ++ [1, 2, 3]) = ([[1, 2, 3]], .clean) ∧
    readAll (blockBytes rearranged ++ utf8 "\u2003\r\n" ++ [1, 2, 3]) = ([[1, 2, 3]], .clean) := by
  have block : IsBlock annotated := by decide
  have block' : IsBlock rearranged := by decide
  have ending : IsLine "\u2003\r\n" := by decide
  have isBlank : Text.isBlankText "\u2003\r\n" := by decide
  have same : rearranged.filter namesLength = annotated.filter namesLength := by decide
  obtain ⟨read, alike⟩ := length_headers_decide block ending isBlank [1, 2, 3]
  have three : blockLength annotated = .ok 3 := by rfl
  rw [three] at read
  exact ⟨⟨block, ending, isBlank, block', same⟩, read, (alike rearranged block' same).trans read⟩

end Frame

end WorkerBridge
