/-
  WorkerBridge.Proofs.Truncation

  A stream of frames that is cut off.

  A cut leaves some frames whole, and perhaps a part of the next one. The whole
  ones are read back. A part ends the stream with an error, wherever the cut is:
  before the line feed of the header line no length has been named, whatever the
  line looks like so far; after it a length is named that is not zero, and then
  neither an unfinished blank line nor a part of the body makes a frame
  (`readAll_part`).
-/
import WorkerBridge.Proofs.Written

namespace WorkerBridge.Frame

/-! ## A part of a frame -/

section Parts

variable {length : Option Nat} {block : List UInt8}

/-- Headers alone are no frame. -/
theorem readAll_headers (headers : Headers length block) (nonempty : block ≠ []) :
    readAll block = ([], .failed .truncatedHeader) := by
  have fed : Reader.feed {} block = ⟨.header 0 [] length !block.isEmpty, []⟩ :=
    Reader.feed_headers headers []
  refine readAll_eq_iff.2 ⟨none, ?_, ?_⟩
  · rw [fed]
    simp [Phase.finish, nonempty]
  · rw [fed]
    rfl

/-- Nor are headers with an unfinished line, unless the length that they name is zero. -/
theorem readAll_unended_failed (headers : Headers length block) (nonzero : length ≠ some 0)
    {line : List UInt8} (nonempty : line ≠ []) (unended : 10 ∉ line)
    (short : line.length ≤ maxHeaderLine) : ∃ e, readAll (block ++ line) = ([], .failed e) := by
  rcases Phase.finishLine_cases line.length line.reverse length with ⟨e, failed⟩ | ⟨zero, -, -⟩
  · exact ⟨e, readAll_unended headers nonempty unended short failed⟩
  · exact absurd zero nonzero

/-- Nor is a part of a body. -/
theorem readAll_of_missing {size : Nat} {blank part : List UInt8}
    (headers : Headers (some size) block) (header : IsHeader .blank blank) (within : size ≤ maxBody)
    (missing : part.length < size) :
    readAll (block ++ blank ++ part) = ([], .failed (.channel .readingBody)) := by
  obtain ⟨n, rfl⟩ : ∃ n, size = n + 1 := ⟨size - 1, by omega⟩
  have fits : ¬ n + 1 > maxBody := by omega
  have begun : Reader.feed {} (block ++ blank) = ⟨.body (n + 1) [], []⟩ := by
    rw [Reader.feed_append, show ({} : Reader) = ⟨.between, []⟩ from rfl,
      Reader.feed_headers headers, Reader.feed_header header]
    simp only [heed, endHeader, if_neg fits]
    rfl
  have fed : Reader.feed {} (block ++ blank ++ part) =
      ⟨.body (n + 1 - part.length) (part.reverse ++ []), []⟩ := by
    rw [Reader.feed_append, begun]
    exact Reader.feed_part [] missing
  refine readAll_eq_iff.2 ⟨none, ?_, ?_⟩
  · rw [fed]
    rfl
  · rw [fed]
    rfl

end Parts

/-- **A part of a frame is not read as a frame.** -/
theorem readAll_part {body : ByteArray} (nonempty : 0 < body.size) (within : body.size ≤ maxBody)
    {part rest : List UInt8} (split : part ++ rest = (bytes body).data.toList)
    (begun : part ≠ []) (cut : rest ≠ []) : ∃ e, readAll part = ([], .failed e) := by
  have header := isHeader_lengthLine within
  have headers := headers_lengthLine within
  rw [bytes_eq, List.append_assoc, List.append_eq_append_iff] at split
  rcases split with ⟨more, hline, -⟩ | ⟨behind, rfl, hrest⟩
  · by_cases whole : more = []
    · -- The cut is behind the header line.
      rw [whole, List.append_nil] at hline
      exact ⟨_, readAll_headers (hline ▸ headers) begun⟩
    · -- The cut is in the header line, which has no line feed yet.
      obtain ⟨text, hended, flat⟩ := header.ended
      have short : part.length ≤ maxHeaderLine := by
        have := header.short
        rw [hline, List.length_append] at this
        omega
      have unended : 10 ∉ part := by
        obtain ⟨more, b, rfl⟩ := (List.eq_nil_or_concat more).resolve_left whole
        rw [hline, List.concat_eq_append, ← List.append_assoc] at hended
        rw [← (List.append_inj' hended rfl).1] at flat
        exact fun feed => flat (List.mem_append_left more feed)
      exact readAll_unended_failed .nil (by simp) begun unended short
  · rcases behind with _ | ⟨cr, _ | ⟨lf, part⟩⟩
    · rw [List.append_nil] at begun ⊢
      exact ⟨_, readAll_headers headers begun⟩
    · -- The cut is in the blank line.
      obtain ⟨rfl, -⟩ := List.cons.inj hrest
      have nonzero : some body.size ≠ some 0 := by simpa using Nat.ne_of_gt nonempty
      exact readAll_unended_failed headers nonzero (by simp) (by decide) (by decide)
    · -- The cut is in the body.
      simp only [List.cons_append, List.nil_append, List.cons.injEq] at hrest
      obtain ⟨rfl, rfl, hbody⟩ := hrest
      have missing : part.length < body.size := by
        have size := congrArg List.length hbody
        have left := List.length_pos_iff.2 cut
        rw [List.length_append, Array.length_toList] at size
        change body.size = _ at size
        omega
      have read := readAll_of_missing headers isHeader_blank within missing
      exact ⟨_, by rwa [List.append_assoc] at read⟩

/-! ## A stream that is cut -/

/-- The frames of the bodies, one after the other. -/
def stream (bodies : List ByteArray) : List UInt8 :=
  bodies.flatMap fun body => (bytes body).data.toList

theorem stream_cons (body : ByteArray) (bodies : List ByteArray) :
    stream (body :: bodies) = (bytes body).data.toList ++ stream bodies :=
  List.flatMap_cons

theorem stream_append (xs ys : List ByteArray) : stream (xs ++ ys) = stream xs ++ stream ys :=
  List.flatMap_append

theorem framed_stream {bodies : List ByteArray} (within : ∀ body ∈ bodies, body.size ≤ maxBody) :
    Framed (bodies.map (·.data.toList)) (stream bodies) := by
  refine ⟨bodies.map fun body => (bytes body).data.toList, ?_, List.flatMap_def ..⟩
  rw [List.forall₂_map_left_iff, List.forall₂_map_right_iff, List.forall₂_same]
  exact fun body hbody => isFrame_bytes (within body hbody)

/-- What is left of the frame that a cut goes through: nothing, or some bytes but not all. -/
def Torn (part : List UInt8) (later : List ByteArray) : Prop :=
  part = [] ∨ ∃ body others missing, later = body :: others ∧
    part ++ missing = (bytes body).data.toList ∧ part ≠ [] ∧ missing ≠ []

/-- A cut leaves whole frames, and perhaps a part of the next one. -/
theorem stream_cut {bodies : List ByteArray} {cut rest : List UInt8}
    (split : cut ++ rest = stream bodies) :
    ∃ whole later part, bodies = whole ++ later ∧ cut = stream whole ++ part ∧
      Torn part later := by
  induction bodies generalizing cut with
  | nil =>
    obtain ⟨rfl, -⟩ := List.append_eq_nil_iff.1 split
    exact ⟨[], [], [], rfl, rfl, Or.inl rfl⟩
  | cons body bodies ih =>
    rw [stream_cons, List.append_eq_append_iff] at split
    -- The cut is within the first frame or at its end, or behind it.
    rcases split with ⟨missing, hframe, -⟩ | ⟨behind, rfl, hbehind⟩
    · by_cases whole : missing = []
      · refine ⟨[body], bodies, [], rfl, ?_, Or.inl rfl⟩
        rw [whole, List.append_nil] at hframe
        simp [stream, hframe]
      · refine ⟨[], body :: bodies, cut, rfl, rfl, ?_⟩
        by_cases begun : cut = []
        · exact Or.inl begun
        · exact Or.inr ⟨body, bodies, missing, rfl, hframe.symm, begun, whole⟩
    · obtain ⟨whole, later, part, rfl, rfl, torn⟩ := ih hbehind.symm
      exact ⟨body :: whole, later, part, rfl, by simp [stream], torn⟩

/-- A torn frame is shorter than the whole one. -/
theorem Torn.length_lt {part : List UInt8} {body : ByteArray} {others : List ByteArray}
    (torn : Torn part (body :: others)) : part.length < (bytes body).data.toList.length := by
  rcases torn with rfl | ⟨_, _, missing, heq, hframe, -, cut⟩
  · simp only [bytes_eq, List.length_append, List.length_cons, List.length_nil]
    omega
  · obtain ⟨rfl, rfl⟩ := List.cons.inj heq
    have left := List.length_pos_iff.2 cut
    rw [← hframe, List.length_append]
    omega

theorem length_stream_take_le {whole : List ByteArray} (later : List ByteArray) {m : Nat}
    (within : m ≤ whole.length) :
    (stream ((whole ++ later).take m)).length ≤ (stream whole).length := by
  have start : stream whole = stream (whole.take m) ++ stream (whole.drop m) := by
    rw [← stream_append, List.take_append_drop]
  rw [List.take_append_of_le_length within, start, List.length_append]
  omega

/-- The frames before the cut are the whole ones. -/
theorem length_stream_le_iff {whole later : List ByteArray} {part : List UInt8}
    (torn : Torn part later) {m : Nat} (hm : m ≤ (whole ++ later).length) :
    (stream ((whole ++ later).take m)).length ≤ (stream whole ++ part).length ↔
      m ≤ whole.length := by
  constructor
  · intro before
    by_contra beyond
    -- Otherwise the torn frame is among them.
    obtain ⟨k, rfl⟩ : ∃ k, m = whole.length + (k + 1) := ⟨m - whole.length - 1, by omega⟩
    cases later with
    | nil =>
      rw [List.append_nil] at hm
      omega
    | cons body others =>
      have shorter := torn.length_lt
      rw [List.take_length_add_append, List.take_succ_cons, stream_append, stream_cons,
        List.length_append, List.length_append, List.length_append] at before
      omega
  · intro within
    have start := length_stream_take_le later within
    rw [List.length_append]
    omega

/-- **Frames are read back up to the cut.** Take any bodies that are not empty and within the limit,
    and cut the stream of their frames anywhere. The frames are what encoding the bodies gives. Of
    the cut stream the bodies are read, unchanged and in order, whose frames are wholly before the
    cut, and nothing else. If the cut is where a frame ends, or at the start, then the stream ends
    cleanly, and otherwise with an error. -/
theorem read_back_up_to_cut {bodies : List ByteArray}
    (sized : ∀ body ∈ bodies, 0 < body.size ∧ body.size ≤ maxBody) {cut rest : List UInt8}
    (split : cut ++ rest = stream bodies) :
    (∀ body ∈ bodies, encode body = .ok (bytes body)) ∧
    ∃ n ≤ bodies.length,
      (∀ m ≤ bodies.length, (stream (bodies.take m)).length ≤ cut.length ↔ m ≤ n) ∧
      (readAll cut).1 = (bodies.take n).map (·.data.toList) ∧
      ((∃ m ≤ bodies.length, cut.length = (stream (bodies.take m)).length) →
        (readAll cut).2 = .clean) ∧
      ((∀ m ≤ bodies.length, cut.length ≠ (stream (bodies.take m)).length) →
        ∃ e, (readAll cut).2 = .failed e) := by
  obtain ⟨whole, later, part, rfl, rfl, torn⟩ := stream_cut split
  have framed := framed_stream fun body hbody => (sized body (List.mem_append_left later hbody)).2
  have read := readAll_append framed part
  have before := @length_stream_le_iff whole later part torn
  refine ⟨fun body hbody => if_neg (Nat.not_lt.2 (sized body hbody).2), whole.length, by simp,
    fun m hm => before hm, ?_⟩
  rw [read, List.take_left]
  rcases torn with rfl | ⟨body, others, missing, rfl, hframe, begun, cut⟩
  · -- The cut is where a frame ends.
    refine ⟨by simp [readAll_nil], fun _ => rfl, fun apart => ?_⟩
    refine absurd ?_ (apart whole.length (by simp))
    rw [List.append_nil, List.take_left]
  · -- The cut goes through a frame.
    obtain ⟨nonempty, within⟩ := sized body (by simp)
    obtain ⟨e, failed⟩ := readAll_part nonempty within hframe begun cut
    rw [failed]
    refine ⟨by simp, ?_, fun _ => ⟨e, rfl⟩⟩
    rintro ⟨m, hm, same⟩
    have start := length_stream_take_le (body :: others) ((before hm).1 (Nat.le_of_eq same.symm))
    have some_left := List.length_pos_iff.2 begun
    rw [List.length_append] at same
    omega

/-- A body that looks like the headers of a frame. -/
def headerLike : ByteArray := "Content-Length: 3\r\n\r\n".toUTF8

/-- Twelve bytes that are no text. -/
def notText : ByteArray := ⟨#[255, 10, 13, 10, 0, 128, 192, 10, 10, 254, 13, 10]⟩

/-- The stream breaks off between the two digits of a length. -/
def cutInDigits : List UInt8 := stream [headerLike] ++ utf8 "Content-Length: 1"

theorem cut_in_digits_read_back :
    ((∀ body ∈ [headerLike, notText], 0 < body.size ∧ body.size ≤ maxBody) ∧
      cutInDigits ++ (utf8 "2\r\n\r\n" ++ notText.data.toList) = stream [headerLike, notText]) ∧
    (readAll cutInDigits).1 = [headerLike.data.toList] ∧
    ∃ e, (readAll cutInDigits).2 = .failed e := by
  have sized : ∀ body ∈ [headerLike, notText], 0 < body.size ∧ body.size ≤ maxBody := by decide
  have twelve : Decimal.digits 12 = ['1', '2'] := by
    rw [Decimal.digits_concat (by decide), Decimal.digits_of_lt (by decide)]
    rfl
  have split : cutInDigits ++ (utf8 "2\r\n\r\n" ++ notText.data.toList) =
      stream [headerLike, notText] := by
    rw [cutInDigits, List.append_assoc,
      show [headerLike, notText] = [headerLike] ++ [notText] from rfl, stream_append]
    congr 1
    rw [stream_cons, bytes_eq, lengthLine, announcement, show notText.size = 12 from rfl, twelve]
    decide
  have size : cutInDigits.length = (stream [headerLike]).length + 17 := by
    rw [cutInDigits, List.length_append]
    rfl
  have total := congrArg List.length split
  rw [List.length_append] at total
  have behind : (utf8 "2\r\n\r\n" ++ notText.data.toList).length = 17 := rfl
  obtain ⟨-, n, hn, before, bodies, -, failed⟩ := read_back_up_to_cut sized split
  -- The first frame is before the cut, and the second one is not.
  have one : 1 ≤ n := (before 1 (by decide)).1 (by rw [size]; exact Nat.le_add_right _ 17)
  have not_two : ¬ 2 ≤ n := fun two => by
    have all : (stream [headerLike, notText]).length ≤ cutInDigits.length :=
      (before 2 (by decide)).2 two
    omega
  obtain rfl : n = 1 := by omega
  refine ⟨⟨sized, split⟩, bodies, failed fun m hm => ?_⟩
  have cases_m : m = 0 ∨ m = 1 ∨ m = 2 := by
    change m ≤ 2 at hm
    omega
  rcases cases_m with rfl | rfl | rfl
  · change cutInDigits.length ≠ 0
    omega
  · change cutInDigits.length ≠ (stream [headerLike]).length
    omega
  · change cutInDigits.length ≠ (stream [headerLike, notText]).length
    omega

end WorkerBridge.Frame
