/-
  WorkerBridge.Proofs.Framing

  What streams a reader takes for frames.

  `IsFrame` says what a frame is: a block of header lines that each end in a line
  feed and of which one names the length of the body, a blank line, and the body.
  It speaks of the bytes alone and not of how a reader goes through them.

  Complete frames are read one after the other, whatever follows (`feed_framed`).
  For the converse `Reader.Explains` says what a reader has seen so far: frames,
  and a begun one in the shape that its phase stands for. Every byte keeps this
  (`Explains.push`), so a stream that ends cleanly consists of frames, with one
  exception: the reader takes an unfinished blank line at the end for a finished
  one, and then a frame without a body ends cleanly in the middle of its headers.
-/
import Mathlib.Data.List.Forall2
import Mathlib.Data.List.Induction
import WorkerBridge.Frame

namespace WorkerBridge.Frame

/-! ## The grammar of frames -/

/-- What a header line says, if it is text. -/
def readLine? (line : List UInt8) : Option HeaderLine :=
  (String.fromUTF8? line.toByteArray).map headerLine

/-- The bytes of a text. -/
def utf8 (s : String) : List UInt8 :=
  s.toUTF8.data.toList

theorem readLine?_utf8 (s : String) : readLine? (utf8 s) = some (headerLine s) := by
  have bytes : (utf8 s).toByteArray = s.toByteArray := by
    apply ByteArray.ext
    simp [utf8]
  have valid := s.isValidUTF8
  simp [readLine?, bytes, String.fromUTF8?, String.fromUTF8, valid]

/-- A header line that says the given thing: a line feed at its end and nowhere else, and no more
    bytes than allowed. -/
structure IsHeader (said : HeaderLine) (line : List UInt8) : Prop where
  ended : ∃ text, line = text ++ [10] ∧ 10 ∉ text
  short : line.length ≤ maxHeaderLine
  reads : readLine? line = some said

/-- A block of header lines, none of them blank, and the length that it names. The last line that
    names one decides. -/
inductive Headers : Option Nat → List UInt8 → Prop where
  | nil : Headers none []
  | length {old : Option Nat} {block line : List UInt8} {n : Nat} (headers : Headers old block)
      (header : IsHeader (.length n) line) : Headers (some n) (block ++ line)
  | other {length : Option Nat} {block line : List UInt8} (headers : Headers length block)
      (header : IsHeader .other line) : Headers length (block ++ line)

/-- A complete frame: its headers, the blank line, and a body as long as the headers say. -/
def IsFrame (body bytes : List UInt8) : Prop :=
  ∃ block blank, bytes = block ++ blank ++ body ∧ Headers (some body.length) block ∧
    IsHeader .blank blank ∧ body.length ≤ maxBody

/-- A concatenation of complete frames with the given bodies. -/
def Framed (bodies : List (List UInt8)) (bytes : List UInt8) : Prop :=
  ∃ frames, List.Forall₂ IsFrame bodies frames ∧ bytes = frames.flatten

theorem Framed.nil : Framed [] [] := ⟨[], .nil, rfl⟩

theorem Framed.concat {bodies : List (List UInt8)} {bytes body frame : List UInt8}
    (framed : Framed bodies bytes) (last : IsFrame body frame) :
    Framed (bodies ++ [body]) (bytes ++ frame) := by
  obtain ⟨frames, each, rfl⟩ := framed
  refine ⟨frames ++ [frame], List.rel_append each (.cons last .nil), ?_⟩
  simp

/-! ## The end of a header line -/

/-- What follows a header line that is text and within the limit. -/
def heed (length : Option Nat) : HeaderLine → Phase × Option (List UInt8)
  | .blank => endHeader length
  | .length n => (.header 0 [] (some n) true, none)
  | .badLength value => (.failed (.invalidLength value), none)
  | .other => (.header 0 [] length true, none)

theorem endLine_of_reads {size : Nat} {line : List UInt8} {said : HeaderLine}
    (reads : readLine? line.reverse = some said) (short : size ≤ maxHeaderLine)
    (length : Option Nat) : endLine size line length = heed length said := by
  obtain ⟨text, htext, rfl⟩ := Option.map_eq_some_iff.1 reads
  simp only [endLine, htext, if_neg (Nat.not_lt.2 short)]
  cases headerLine text <;> rfl

/-- A line that is no text, or too long, ends the stream. -/
theorem endLine_cases (size : Nat) (line : List UInt8) (length : Option Nat) :
    (∃ e, endLine size line length = (.failed e, none)) ∨
    ∃ said, readLine? line.reverse = some said ∧ size ≤ maxHeaderLine ∧
      endLine size line length = heed length said := by
  cases reads : readLine? line.reverse with
  | none =>
    have htext : String.fromUTF8? line.reverse.toByteArray = none := Option.map_eq_none_iff.1 reads
    exact Or.inl ⟨.channel .readingHeader, by simp [endLine, htext]⟩
  | some said =>
    by_cases short : size ≤ maxHeaderLine
    · exact Or.inr ⟨said, rfl, short, endLine_of_reads reads short length⟩
    · obtain ⟨text, htext, -⟩ := Option.map_eq_some_iff.1 reads
      exact Or.inl ⟨.headerTooLong, by simp [endLine, htext, Nat.lt_of_not_le short]⟩

/-! ## Reading what is complete -/

namespace Reader

theorem feed_cons (r : Reader) (b : UInt8) (xs : List UInt8) :
    r.feed (b :: xs) = (r.push b).feed xs := rfl

theorem feed_append (r : Reader) (xs ys : List UInt8) : r.feed (xs ++ ys) = (r.feed xs).feed ys :=
  List.foldl_append

/-- The reader after a byte whose step has the given result. -/
def next (r : Reader) (result : Phase × Option (List UInt8)) : Reader :=
  ⟨result.1, result.2.toList ++ r.bodies⟩

theorem push_eq (r : Reader) (b : UInt8) : r.push b = r.next (step r.phase b) := by
  unfold push
  split <;> simp_all [next]

/-- What is read does not depend on the bodies that were read before. -/
theorem feed_bodies (r : Reader) (xs : List UInt8) :
    r.feed xs = ⟨(feed ⟨r.phase, []⟩ xs).phase, (feed ⟨r.phase, []⟩ xs).bodies ++ r.bodies⟩ := by
  induction xs using List.reverseRecOn with
  | nil => rfl
  | append_singleton xs b ih =>
    rw [feed_append, feed_append, ih]
    simp [feed, push_eq, next]

/-- Bytes before a line feed are kept. -/
theorem feed_text {size : Nat} {line : List UInt8} (length : Option Nat) (begun : Bool)
    (bodies : List (List UInt8)) {text : List UInt8} (unended : 10 ∉ text)
    (short : size + text.length ≤ maxHeaderLine) :
    feed ⟨.header size line length begun, bodies⟩ text =
      ⟨.header (size + text.length) (text.reverse ++ line) length begun, bodies⟩ := by
  induction text generalizing size line with
  | nil => rfl
  | cons b text ih =>
    rw [List.mem_cons, not_or] at unended
    rw [List.length_cons] at short
    have stays : ¬ (b = 10 ∨ size + 1 > maxHeaderLine) := by
      rintro (rfl | long)
      · exact unended.1 rfl
      · omega
    have kept : push ⟨.header size line length begun, bodies⟩ b =
        ⟨.header (size + 1) (b :: line) length begun, bodies⟩ := by
      simp only [push, step, if_neg stays]
    have rest := @ih (size + 1) (b :: line) unended.2 (by omega)
    rw [feed_cons, kept, rest, List.length_cons, List.reverse_cons, List.append_assoc,
      List.singleton_append, Nat.add_right_comm, Nat.add_assoc]

/-- A header line is read, and then heeded. -/
theorem feed_header {said : HeaderLine} {line : List UInt8} (header : IsHeader said line)
    (length : Option Nat) (begun : Bool) (bodies : List (List UInt8)) :
    feed ⟨.header 0 [] length begun, bodies⟩ line =
      ⟨(heed length said).1, (heed length said).2.toList ++ bodies⟩ := by
  obtain ⟨⟨text, rfl, unended⟩, short, reads⟩ := header
  rw [List.length_append, List.length_singleton] at short
  have kept : feed ⟨.header 0 [] length begun, bodies⟩ text =
      ⟨.header (0 + text.length) (text.reverse ++ []) length begun, bodies⟩ :=
    feed_text length begun bodies unended (by omega)
  have ending : endLine (text.length + 1) (10 :: text.reverse) length = heed length said :=
    endLine_of_reads (by simpa using reads) short length
  rw [feed_append, kept]
  simp [feed, push_eq, next, step, ending]

theorem feed_headers {length : Option Nat} {block : List UInt8} (headers : Headers length block)
    (bodies : List (List UInt8)) :
    feed ⟨.between, bodies⟩ block = ⟨.header 0 [] length !block.isEmpty, bodies⟩ := by
  induction headers with
  | nil => rfl
  | @length old block line n headers header ih =>
    obtain ⟨text, hline, -⟩ := header.ended
    rw [feed_append, ih, feed_header header]
    simp [heed, hline]
  | @other length block line headers header ih =>
    obtain ⟨text, hline, -⟩ := header.ended
    rw [feed_append, ih, feed_header header]
    simp [heed, hline]

/-- A part of a body is kept. -/
theorem feed_part {missing : Nat} {taken : List UInt8} (bodies : List (List UInt8))
    {part : List UInt8} (less : part.length < missing) :
    feed ⟨.body missing taken, bodies⟩ part =
      ⟨.body (missing - part.length) (part.reverse ++ taken), bodies⟩ := by
  induction part generalizing missing taken with
  | nil => rfl
  | cons b part ih =>
    rw [List.length_cons] at less
    have kept : push ⟨.body missing taken, bodies⟩ b =
        ⟨.body (missing - 1) (b :: taken), bodies⟩ := by
      have more : ¬ missing ≤ 1 := by omega
      simp only [push, step, if_neg more]
    have rest := @ih (missing - 1) (b :: taken) (by omega)
    rw [feed_cons, kept, rest, List.length_cons, List.reverse_cons, List.append_assoc,
      List.singleton_append, Nat.sub_sub, Nat.add_comm]

/-- A body is read to its end. -/
theorem feed_body {body : List UInt8} (nonempty : body ≠ []) (bodies : List (List UInt8)) :
    feed ⟨.body body.length [], bodies⟩ body = ⟨.between, body :: bodies⟩ := by
  obtain ⟨part, b, rfl⟩ := (List.eq_nil_or_concat body).resolve_left nonempty
  have kept : feed ⟨.body (part.concat b).length [], bodies⟩ part =
      ⟨.body ((part.concat b).length - part.length) (part.reverse ++ []), bodies⟩ :=
    feed_part bodies (by simp)
  nth_rewrite 2 [List.concat_eq_append]
  rw [feed_append, kept]
  simp [feed, push, step]

theorem feed_frame {body bytes : List UInt8} (frame : IsFrame body bytes)
    (bodies : List (List UInt8)) :
    feed ⟨.between, bodies⟩ bytes = ⟨.between, body :: bodies⟩ := by
  obtain ⟨block, blank, rfl, headers, header, short⟩ := frame
  rw [feed_append, feed_append, feed_headers headers, feed_header header]
  cases body with
  | nil => rfl
  | cons b rest =>
    have fits : ¬ rest.length + 1 > maxBody := by simpa using short
    simp only [heed, List.length_cons, endHeader, if_neg fits]
    exact feed_body (List.cons_ne_nil b rest) bodies

theorem feed_framed {bs : List (List UInt8)} {bytes : List UInt8} (framed : Framed bs bytes)
    (bodies : List (List UInt8)) :
    feed ⟨.between, bodies⟩ bytes = ⟨.between, bs.reverse ++ bodies⟩ := by
  obtain ⟨frames, each, rfl⟩ := framed
  induction each generalizing bodies with
  | nil => rfl
  | cons frame each ih =>
    rw [List.flatten_cons, feed_append, feed_frame frame, ih]
    simp

end Reader

theorem readAll_eq_iff {bytes : List UInt8} {bodies : List (List UInt8)} {ending : Ending} :
    readAll bytes = (bodies, ending) ↔
      ∃ last, (Reader.feed {} bytes).phase.finish = (ending, last) ∧
        bodies = (last.toList ++ (Reader.feed {} bytes).bodies).reverse := by
  rw [readAll]
  generalize Reader.feed {} bytes = r
  rcases r.phase.finish with ⟨ending', last⟩
  simp only [Prod.mk.injEq]
  constructor
  · rintro ⟨rfl, rfl⟩
    exact ⟨last, ⟨rfl, rfl⟩, rfl⟩
  · rintro ⟨_, ⟨rfl, rfl⟩, rfl⟩
    exact ⟨rfl, rfl⟩

theorem readAll_nil : readAll [] = ([], .clean) := rfl

/-- Complete frames are read, and then what follows them. -/
theorem readAll_append {bodies : List (List UInt8)} {bytes : List UInt8}
    (framed : Framed bodies bytes) (rest : List UInt8) :
    readAll (bytes ++ rest) = (bodies ++ (readAll rest).1, (readAll rest).2) := by
  have frames := Reader.feed_framed framed []
  have after := Reader.feed_bodies ⟨.between, bodies.reverse⟩ rest
  simp only [readAll, Reader.feed_append, frames, List.append_nil, after]
  simp

/-! ## What has been read -/

/-- What a phase stands for: the bytes since the last complete frame. -/
def Phase.Holds : Phase → List UInt8 → Prop
  | .header size line length begun, rest =>
    ∃ block, rest = block ++ line.reverse ∧ Headers length block ∧ begun = !block.isEmpty ∧
      size = line.length ∧ size ≤ maxHeaderLine ∧ 10 ∉ line
  | .body missing taken, rest =>
    ∃ block blank, rest = block ++ blank ++ taken.reverse ∧
      Headers (some (missing + taken.length)) block ∧ IsHeader .blank blank ∧
      missing + taken.length ≤ maxBody ∧ 0 < missing
  | .failed _, _ => True

/-- What the result of a step stands for: a begun frame, or a complete one and nothing after it. -/
def Accounts (rest : List UInt8) : Phase × Option (List UInt8) → Prop
  | (phase, none) => phase.Holds rest
  | (phase, some body) => phase = .between ∧ IsFrame body rest

theorem Phase.between_holds : Phase.between.Holds [] :=
  ⟨[], rfl, .nil, rfl, rfl, Nat.zero_le _, List.not_mem_nil⟩

/-- After a header line. -/
theorem heed_accounts {length : Option Nat} {block line : List UInt8} {said : HeaderLine}
    (headers : Headers length block) (header : IsHeader said line) :
    Accounts (block ++ line) (heed length said) := by
  obtain ⟨text, hline, -⟩ := header.ended
  have begun : true = !(block ++ line).isEmpty := by simp [hline]
  cases said with
  | blank =>
    rcases length with _ | _ | n
    · trivial
    · exact ⟨rfl, block, line, by simp, headers, header, Nat.zero_le _⟩
    · simp only [heed, endHeader]
      split
      · trivial
      · next fits =>
        exact ⟨block, line, by simp, headers, header, Nat.le_of_not_lt fits, Nat.succ_pos n⟩
  | length n =>
    exact ⟨block ++ line, by simp, .length headers header, begun, rfl, Nat.zero_le _,
      List.not_mem_nil⟩
  | badLength value => trivial
  | other =>
    exact ⟨block ++ line, by simp, .other headers header, begun, rfl, Nat.zero_le _,
      List.not_mem_nil⟩

/-- **One more byte.** What a reader has read is accounted for before the byte and after it. -/
theorem step_accounts {phase : Phase} {rest : List UInt8} (holds : phase.Holds rest) (b : UInt8) :
    Accounts (rest ++ [b]) (step phase b) := by
  cases phase with
  | header size line length begun =>
    obtain ⟨block, rfl, headers, hbegun, rfl, short, unended⟩ := holds
    rw [step]
    split
    · next ends =>
      rcases endLine_cases (line.length + 1) (b :: line) length with
        ⟨e, heq⟩ | ⟨said, reads, short', heq⟩
      · rw [heq]
        trivial
      · -- Within the limit only a line feed ends a line.
        obtain rfl : b = 10 := ends.resolve_right (Nat.not_lt.2 short')
        rw [heq, List.append_assoc, ← List.reverse_cons]
        refine heed_accounts headers ⟨⟨line.reverse, by simp, by simpa using unended⟩, ?_, reads⟩
        simpa using short'
    · next stays =>
      rw [not_or] at stays
      refine ⟨block, by simp, headers, hbegun, rfl, Nat.le_of_not_lt stays.2, ?_⟩
      rw [List.mem_cons, not_or]
      exact ⟨fun h => stays.1 h.symm, unended⟩
  | body missing taken =>
    obtain ⟨block, blank, rfl, headers, header, fits, more⟩ := holds
    rw [step]
    split
    · next last =>
      obtain rfl : missing = 1 := by omega
      refine ⟨rfl, block, blank, by simp, ?_, header, ?_⟩
      · simpa [Nat.add_comm] using headers
      · simpa [Nat.add_comm] using fits
    · have total : missing - 1 + (b :: taken).length = missing + taken.length := by
        rw [List.length_cons]
        omega
      refine ⟨block, blank, by simp, ?_, header, ?_, by omega⟩
      · rw [total]
        exact headers
      · rw [total]
        exact fits
  | failed e => trivial

namespace Reader

/-- The bytes that a reader was fed are frames with the bodies that it has completed, and what its
    phase stands for. -/
def Explains (r : Reader) (bytes : List UInt8) : Prop :=
  ∃ seen rest, bytes = seen ++ rest ∧ Framed r.bodies.reverse seen ∧ r.phase.Holds rest

theorem Explains.push {r : Reader} {bytes : List UInt8} (explains : r.Explains bytes) (b : UInt8) :
    (r.push b).Explains (bytes ++ [b]) := by
  obtain ⟨seen, rest, rfl, framed, holds⟩ := explains
  have accounts := step_accounts holds b
  rw [push_eq]
  generalize step r.phase b = result at accounts ⊢
  match result with
  | (phase, none) => exact ⟨seen, rest ++ [b], by simp, framed, accounts⟩
  | (phase, some body) =>
    obtain ⟨rfl, frame⟩ := accounts
    refine ⟨seen ++ (rest ++ [b]), [], by simp, ?_, Phase.between_holds⟩
    simpa [next] using framed.concat frame

/-- Whatever a reader is fed is accounted for. -/
theorem explains_feed (bytes : List UInt8) : (feed {} bytes).Explains bytes := by
  induction bytes using List.reverseRecOn with
  | nil => exact ⟨[], [], rfl, .nil, Phase.between_holds⟩
  | append_singleton bytes b ih =>
    rw [feed_append]
    exact ih.push b

end Reader

/-! ## The end of the stream -/

/-- A frame without a body that breaks off in its headers: the line feed of the blank line is
    missing. -/
def BreaksOff (bytes : List UInt8) : Prop :=
  ∃ block blank, bytes = block ++ blank ∧ Headers (some 0) block ∧ blank ≠ [] ∧ 10 ∉ blank ∧
    blank.length ≤ maxHeaderLine ∧ readLine? blank = some .blank

/-- An unfinished line counts as a line when the stream ends. -/
def Phase.finishLine : Phase × Option (List UInt8) → Ending × Option (List UInt8)
  | (.failed e, _) => (.failed e, none)
  | (.body _ _, _) => (.failed (.channel .readingBody), none)
  | (.header _ _ _ _, some final) => (.clean, some final)
  | (.header _ _ _ _, none) => (.failed .truncatedHeader, none)

theorem Phase.finish_of_unended {line : List UInt8} (nonempty : line ≠ []) (length : Option Nat)
    (begun : Bool) :
    Phase.finish (.header line.length line length begun) =
      Phase.finishLine (endLine line.length line length) := by
  obtain ⟨b, line, rfl⟩ := List.exists_cons_of_ne_nil nonempty
  simp only [List.length_cons, Phase.finish]
  generalize endLine (line.length + 1) (b :: line) length = result
  rcases result with ⟨_ | _ | _, _ | _⟩ <;> rfl

/-- An unfinished line ends the stream with an error, unless it is the blank line of a frame without
    a body. -/
theorem Phase.finishLine_cases (size : Nat) (line : List UInt8) (length : Option Nat) :
    (∃ e, Phase.finishLine (endLine size line length) = (.failed e, none)) ∨
    (length = some 0 ∧ readLine? line.reverse = some .blank ∧
      Phase.finishLine (endLine size line length) = (.clean, some [])) := by
  rcases endLine_cases size line length with ⟨e, heq⟩ | ⟨said, reads, -, heq⟩
  · exact Or.inl ⟨e, by rw [heq]; rfl⟩
  · rw [heq]
    cases said with
    | blank =>
      rcases length with _ | _ | n
      · exact Or.inl ⟨_, rfl⟩
      · exact Or.inr ⟨rfl, reads, rfl⟩
      · left
        simp only [heed, endHeader]
        split
        · exact ⟨_, rfl⟩
        · exact ⟨_, rfl⟩
    | length n => exact Or.inl ⟨_, rfl⟩
    | badLength value => exact Or.inl ⟨_, rfl⟩
    | other => exact Or.inl ⟨_, rfl⟩

/-- A stream ends cleanly between two frames, or where a frame without a body breaks off. -/
theorem finish_clean {phase : Phase} {rest : List UInt8} (holds : phase.Holds rest)
    {last : Option (List UInt8)} (clean : phase.finish = (.clean, last)) :
    (rest = [] ∧ last = none) ∨ (BreaksOff rest ∧ last = some []) := by
  cases phase with
  | header size line length begun =>
    obtain ⟨block, rfl, headers, rfl, rfl, short, unended⟩ := holds
    by_cases nonempty : line = []
    · -- No line is begun, and no header has been read.
      subst nonempty
      left
      cases block with
      | nil => exact ⟨rfl, (congrArg Prod.snd clean).symm⟩
      | cons b block => simp [Phase.finish] at clean
    · rw [Phase.finish_of_unended nonempty] at clean
      rcases Phase.finishLine_cases line.length line length with ⟨e, heq⟩ | ⟨rfl, reads, heq⟩
      · rw [heq] at clean
        simp at clean
      · right
        rw [heq] at clean
        refine ⟨⟨block, line.reverse, rfl, headers, ?_, ?_, ?_, reads⟩, ?_⟩
        · simpa using nonempty
        · simpa using unended
        · simpa using short
        · exact (congrArg Prod.snd clean).symm
  | body missing taken => simp [Phase.finish] at clean
  | failed e => simp [Phase.finish] at clean

/-- What is read of headers that end in an unfinished line is decided by that line. -/
theorem readAll_unended {length : Option Nat} {block line : List UInt8}
    (headers : Headers length block) (nonempty : line ≠ []) (unended : 10 ∉ line)
    (short : line.length ≤ maxHeaderLine) {ending : Ending} {last : Option (List UInt8)}
    (finish : Phase.finishLine (endLine line.length line.reverse length) = (ending, last)) :
    readAll (block ++ line) = (last.toList, ending) := by
  have kept : Reader.feed ⟨.header 0 [] length !block.isEmpty, []⟩ line =
      ⟨.header (0 + line.length) (line.reverse ++ []) length !block.isEmpty, []⟩ :=
    Reader.feed_text length _ [] unended (by omega)
  have fed : Reader.feed {} (block ++ line) =
      ⟨.header line.reverse.length line.reverse length !block.isEmpty, []⟩ := by
    rw [Reader.feed_append, show ({} : Reader) = ⟨.between, []⟩ from rfl,
      Reader.feed_headers headers, kept, Nat.zero_add, List.append_nil, List.length_reverse]
  refine readAll_eq_iff.2 ⟨last, ?_, ?_⟩
  · rw [fed, Phase.finish_of_unended (by simpa using nonempty), List.length_reverse, finish]
  · rw [fed]
    cases last <;> rfl

/-- A frame that breaks off is taken for a frame with an empty body. -/
theorem readAll_of_breaksOff {rest : List UInt8} (cut : BreaksOff rest) :
    readAll rest = ([[]], .clean) := by
  obtain ⟨block, blank, rfl, headers, nonempty, unended, short, reads⟩ := cut
  have ending : endLine blank.length blank.reverse (some 0) = heed (some 0) .blank :=
    endLine_of_reads (by simpa using reads) short (some 0)
  exact readAll_unended headers nonempty unended short (congrArg Phase.finishLine ending)

/-- **A clean end is the end of a frame, but for one case.** A stream is read as bodies with a clean
    end if and only if it is the concatenation of complete frames with these bodies, or such a
    concatenation followed by the headers of a frame without a body, whose blank line has no line
    feed. Then the last body is empty. -/
theorem clean_end_iff (bytes : List UInt8) (bodies : List (List UInt8)) :
    readAll bytes = (bodies, .clean) ↔
      Framed bodies bytes ∨
      ∃ complete seen rest, bodies = complete ++ [[]] ∧ bytes = seen ++ rest ∧
        Framed complete seen ∧ BreaksOff rest := by
  constructor
  · intro clean
    obtain ⟨seen, rest, hbytes, framed, holds⟩ := Reader.explains_feed bytes
    obtain ⟨last, hfinish, hbodies⟩ := readAll_eq_iff.1 clean
    rcases finish_clean holds hfinish with ⟨rfl, rfl⟩ | ⟨cut, rfl⟩
    · left
      rw [hbytes, hbodies]
      simpa using framed
    · right
      exact ⟨_, seen, rest, by simpa using hbodies, hbytes, framed, cut⟩
  · rintro (framed | ⟨complete, seen, rest, rfl, rfl, framed, cut⟩)
    · have read := readAll_append framed []
      simpa [readAll_nil] using read
    · rw [readAll_append framed, readAll_of_breaksOff cut]

/-- The headers of a frame without a body, which break off within the blank line. -/
def brokenOff : List UInt8 := utf8 "Content-Length: 0\r\n\r"

theorem broken_off_ends_clean :
    readAll brokenOff = ([[]], .clean) ∧ ¬ Framed [[]] brokenOff := by
  constructor
  · have header : IsHeader (.length 0) (utf8 "Content-Length: 0\r\n") := by
      refine ⟨⟨utf8 "Content-Length: 0\r", by decide, by decide⟩, by decide, ?_⟩
      rw [readLine?_utf8]
      decide
    have blank : readLine? [13] = some .blank := readLine?_utf8 "\r"
    have cut : BreaksOff brokenOff :=
      ⟨utf8 "Content-Length: 0\r\n", [13], by decide, .length .nil header, by decide, by decide,
        by decide, blank⟩
    exact (clean_end_iff brokenOff [[]]).2 (Or.inr ⟨[], [], brokenOff, rfl, rfl, .nil, cut⟩)
  · -- A frame without a body ends in a line feed.
    rintro ⟨frames, each, hbytes⟩
    cases each with
    | cons frame rest =>
      cases rest
      obtain ⟨block, blank, rfl, -, header, -⟩ := frame
      obtain ⟨text, rfl, -⟩ := header.ended
      have last := congrArg List.getLast? hbytes
      have cr : brokenOff.getLast? = some 13 := by decide
      simp [cr] at last

end WorkerBridge.Frame
