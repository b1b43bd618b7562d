/-
  WorkerBridge.Proofs.Classification

  Frames from the worker are classified exactly, within the limits of the reader.

  Two ways lead from the body of a frame to the identity of a job: a response is
  read as a record, and of a body that is none the identity is looked up by itself.
  `Response.reads` says what the first finds, `namedJob?_eq_some_iff` what the
  second finds, and of an object they find the same (`AnswersJob.id_eq`). So the
  class of a frame can be told from its JSON text alone. But JSON that is nested too
  deep, or has a number or an escape that the reader has no value for, is taken for
  nobody's, whatever job it is about (`beyond_limits_is_nobodys`).
-/
import WorkerBridge.Proofs.Records
import WorkerBridge.Response

namespace WorkerBridge

open Json (IsJson Quoted Tree)
open Json.Shape

/-! ## Responses -/

namespace Status

/-- The name of a status. -/
def name : Status → String
  | .success => "success"
  | .failure => "failure"

/-- How a status is written: as its name, or as the only key of an object with nothing under it. -/
inductive WrittenAs (s : Status) : Json → Prop where
  | text : WrittenAs s (.str s.name)
  | key : WrittenAs s (.obj [(s.name, .null)])

theorem named_iff {name : String} {s : Status} :
    named [("success", Status.success), ("failure", Status.failure)] name = .ok s ↔
      name = s.name := by
  rw [named_eq_ok_iff (by decide)]
  cases s <;> simp [Status.name]

theorem reads : Reads decode WrittenAs := by
  intro v _ s
  rw [decode, variant_eq_ok_iff]
  simp only [named_iff, exists_eq_left]
  constructor
  · rintro (rfl | ⟨w, rfl, isNull⟩)
    · exact .text
    · cases w with
      | null => exact .key
      | _ => cases isNull
  · rintro (_ | _)
    · exact .inl rfl
    · exact .inr ⟨.null, rfl, rfl⟩

end Status

namespace Response

/-- The fields of a response. -/
def names : List String := ["id", "status", "result"]

/-- How a response is written. -/
structure WrittenAs (r : Response) (v : Json) : Prop where
  record : v.IsRecord 2 3
  id : v.member? names "id" = some (.ofNat r.id.number)
  unsigned : r.id.number ≤ Json.maxUnsigned
  status : ∃ w, v.member? names "status" = some w ∧ r.status.WrittenAs w
  result : r.result = (v.member? names "result").getD .null

theorem layout :
    Layout [field "id" (natural Json.maxUnsigned), field "status" Status.decode,
      lastField "result" any] names 2 :=
  ⟨rfl, by decide, by decide⟩

theorem reads : Reads decode WrittenAs := by
  intro v proper r
  rw [decode, layout.read_iff proper]
  · simp only [bind_eq_ok_iff, (reads_natural _).required proper, Status.reads.required proper,
      reads_any.defaulted proper]
    constructor
    · rintro ⟨record, n, ⟨w, hid, rfl, unsigned⟩, status, hstatus, result, hresult, read⟩
      cases read
      refine ⟨record, hid, unsigned, hstatus, ?_⟩
      rcases hresult with ⟨missing, rfl⟩ | ⟨w, found, rfl⟩
      · rw [missing, Option.getD_none]
      · rw [found, Option.getD_some]
    · rintro ⟨record, hid, unsigned, hstatus, hresult⟩
      refine ⟨record, r.id.number, ⟨_, hid, rfl, unsigned⟩, r.status, hstatus, r.result, ?_, rfl⟩
      cases found : v.member? names "result" with
      | none => exact .inl ⟨rfl, by rw [hresult, found, Option.getD_none]⟩
      | some w => exact .inr ⟨w, rfl, by rw [hresult, found, Option.getD_some]⟩
  · intro read
    simp only [bind_eq_ok_iff] at read
    obtain ⟨id, hid, status, hstatus, result, hresult, -⟩ := read
    simp only [List.forall_mem_cons, List.not_mem_nil, false_implies, implies_true, and_true]
    exact ⟨fun w => check_of_required hid, fun w => check_of_required hstatus,
      fun w => check_of_defaulted hresult⟩

end Response

/-! ## Jobs that a value is about -/

/-- The value is an object with the identity of a job. -/
def NamesJob (id : JobId) (v : Json) : Prop :=
  v.field? "id" = some (.ofNat id.number) ∧ id.number ≤ Json.maxUnsigned

/-- The value is an object with a status. -/
def HasStatus (v : Json) : Prop :=
  ∃ w, v.field? "status" = some w ∧ ∃ s : Status, s.WrittenAs w

/-- The value tells how a job ended: an object with identity and status, or an array of two or three
items that starts with them. -/
inductive AnswersJob (id : JobId) : Json → Prop where
  | object {fields : List (String × Json)} (names : NamesJob id (.obj fields))
      (status : HasStatus (.obj fields)) : AnswersJob id (.obj fields)
  | array {w : Json} {rest : List Json} (unsigned : id.number ≤ Json.maxUnsigned)
      (status : ∃ s : Status, s.WrittenAs w) (short : rest.length ≤ 1) :
      AnswersJob id (.arr (.ofNat id.number :: w :: rest))

theorem asUnsigned?_eq_some_iff {v : Json} {n : Nat} :
    v.asUnsigned? = some n ↔ v = .ofNat n ∧ n ≤ Json.maxUnsigned := by
  constructor
  · intro read
    unfold Json.asUnsigned? at read
    split at read
    · split at read
      · next fits =>
        cases read
        exact ⟨rfl, fits⟩
      · cases read
    · cases read
  · rintro ⟨rfl, fits⟩
    exact if_pos fits

theorem namedJob?_eq_some_iff {v : Json} {id : JobId} : namedJob? v = some id ↔ NamesJob id v := by
  rw [namedJob?, Option.map_eq_some_iff, NamesJob]
  constructor
  · rintro ⟨n, read, rfl⟩
    obtain ⟨w, found, number⟩ := Option.bind_eq_some_iff.1 read
    obtain ⟨rfl, unsigned⟩ := asUnsigned?_eq_some_iff.1 number
    exact ⟨found, unsigned⟩
  · rintro ⟨found, unsigned⟩
    refine ⟨id.number, ?_, rfl⟩
    rw [found, Option.bind_some]
    exact asUnsigned?_eq_some_iff.2 ⟨rfl, unsigned⟩

theorem NamesJob.id_eq {v : Json} {id id' : JobId} (names : NamesJob id v)
    (names' : NamesJob id' v) : id = id' :=
  Option.some.inj ((namedJob?_eq_some_iff.2 names).symm.trans (namedJob?_eq_some_iff.2 names'))

/-- An object is about no other job than the one it names. -/
theorem AnswersJob.id_eq {v : Json} {id id' : JobId} (answers : AnswersJob id v)
    (names : NamesJob id' v) : id = id' := by
  cases answers with
  | object own _ => exact own.id_eq names
  | array => cases names.1

/-- What is read as a response tells how its job ended, and the other way round. -/
theorem answersJob_iff {v : Json} (proper : v.Proper) {id : JobId} :
    AnswersJob id v ↔ ∃ r, Response.decode v = .ok r ∧ r.id = id := by
  simp only [Response.reads v proper]
  constructor
  · rintro (⟨⟨hid, unsigned⟩, w, found, s, written⟩ | @⟨w, rest, unsigned, ⟨s, written⟩, short⟩)
    · exact ⟨⟨id, s, _⟩, ⟨trivial, hid, unsigned, ⟨w, found, written⟩, rfl⟩, rfl⟩
    · have length : Json.IsRecord 2 3 (.arr (.ofNat id.number :: w :: rest)) :=
        ⟨Nat.le_add_left .., Nat.add_le_add_right short 2⟩
      exact ⟨⟨id, s, _⟩, ⟨length, rfl, unsigned, ⟨w, rfl, written⟩, rfl⟩, rfl⟩
  · rintro ⟨r, ⟨record, hid, unsigned, ⟨w, hstatus, written⟩, -⟩, rfl⟩
    cases v with
    | obj fields => exact .object ⟨hid, unsigned⟩ ⟨w, hstatus, r.status, written⟩
    | arr items =>
      -- An array of the right length begins with identity and status.
      obtain ⟨first, second, rest, rfl⟩ : ∃ a b rest, items = a :: b :: rest := by
        match items, record.1 with
        | a :: b :: rest, _ => exact ⟨a, b, rest, rfl⟩
      cases hid
      cases hstatus
      have length : rest.length + 2 ≤ 3 := record.2
      exact .array unsigned ⟨r.status, written⟩ (by omega)
    | _ => cases record

/-- An object that names a job tells how it ended as soon as it has a status. -/
theorem NamesJob.answers_iff {v : Json} {id : JobId} (names : NamesJob id v) :
    AnswersJob id v ↔ HasStatus v := by
  cases v with
  | obj fields =>
    constructor
    · rintro ⟨-, status⟩
      exact status
    · exact .object names
  | _ => cases names.1

/-! ## Frames -/

theorem ofJson_response_iff {v : Json} (proper : v.Proper) {id : JobId} :
    (∃ outcome, Incoming.ofJson v = .response id outcome) ↔ AnswersJob id v := by
  rw [answersJob_iff proper, Incoming.ofJson]
  cases Response.decode v <;> simp

theorem ofJson_malformed_iff {v : Json} (proper : v.Proper) {id : JobId} :
    (∃ fault, Incoming.ofJson v = .malformed (some id) fault) ↔ NamesJob id v ∧ ¬ HasStatus v := by
  have unread : (∃ fault, Incoming.ofJson v = .malformed (some id) fault) ↔
      namedJob? v = some id ∧ ∀ r, Response.decode v ≠ .ok r := by
    rw [Incoming.ofJson]
    cases Response.decode v <;> simp
  rw [unread, namedJob?_eq_some_iff]
  refine and_congr_right fun names => ?_
  rw [← names.answers_iff, answersJob_iff proper]
  constructor
  · rintro noResponse ⟨r, read, -⟩
    exact noResponse r read
  · intro noAnswer r read
    -- Whatever response it is, it is about the job that is named.
    have answers : AnswersJob r.id v := (answersJob_iff proper).2 ⟨r, read, rfl⟩
    exact noAnswer ⟨r, read, answers.id_eq names⟩

theorem ofBody_eq {body : List UInt8} {t : Tree} (text : IsJson body t)
    (within : t.Within Json.maxDepth) : Incoming.ofBody body = .ofJson t.value := by
  rw [Incoming.ofBody, Json.parseBytes?_eq_some_iff.2 ⟨t, text, within, rfl⟩]

theorem ofBody_of_unread {body : List UInt8} (unread : Json.parseBytes? body.toByteArray = none) :
    Incoming.ofBody body = .malformed none .notJson := by
  rw [Incoming.ofBody, unread]

/-- Of a frame that is not thrown away for its text, the value in the text decides. -/
theorem ofBody_iff {body : List UInt8} (found : Incoming → Prop) (told : Json → Prop)
    (silent : ¬ found (.malformed none .notJson))
    (same : ∀ v : Json, v.Proper → (found (.ofJson v) ↔ told v)) :
    found (.ofBody body) ↔ ∃ t, IsJson body t ∧ t.Within Json.maxDepth ∧ told t.value := by
  constructor
  · intro h
    cases read : Json.parseBytes? body.toByteArray with
    | none =>
      rw [ofBody_of_unread read] at h
      exact absurd h silent
    | some v =>
      obtain ⟨t, text, within, rfl⟩ := Json.parseBytes?_eq_some_iff.1 read
      rw [ofBody_eq text within] at h
      exact ⟨t, text, within, (same _ text.proper).1 h⟩
  · rintro ⟨t, text, within, h⟩
    rw [ofBody_eq text within]
    exact (same _ text.proper).2 h

theorem ofBody_response_iff {body : List UInt8} {id : JobId} :
    (∃ outcome, Incoming.ofBody body = .response id outcome) ↔
      ∃ t, IsJson body t ∧ t.Within Json.maxDepth ∧ AnswersJob id t.value := by
  apply ofBody_iff (fun frame => ∃ outcome, frame = .response id outcome) (AnswersJob id)
  · rintro ⟨outcome, ⟨⟩⟩
  · exact fun v proper => ofJson_response_iff proper

theorem ofBody_malformed_iff {body : List UInt8} {id : JobId} :
    (∃ fault, Incoming.ofBody body = .malformed (some id) fault) ↔
      ∃ t, IsJson body t ∧ t.Within Json.maxDepth ∧
        NamesJob id t.value ∧ ¬ HasStatus t.value := by
  apply ofBody_iff (fun frame => ∃ fault, frame = .malformed (some id) fault)
    fun v => NamesJob id v ∧ ¬ HasStatus v
  · rintro ⟨fault, ⟨⟩⟩
  · exact fun v proper => ofJson_malformed_iff proper

/-- **Frames are classified exactly**, within the limits of the reader: arrays and objects nested at
most 127 deep, no number beyond all floating-point numbers, and no surrogate escaped without its
partner. A body is a response if and only if it is JSON within the limits that tells how a job
ended, and that job is the one it is taken for; it is malformed and about a job if and only if it is
JSON within the limits, an object that names the job and has no status; and it is malformed and
about no job in every other case. So within the limits an object that names a job is never taken
for another one's and never for nobody's. -/
theorem frames_classified_exactly (body : List UInt8) :
    (∀ id, (∃ outcome, Incoming.ofBody body = .response id outcome) ↔
      ∃ t, IsJson body t ∧ t.Within Json.maxDepth ∧ AnswersJob id t.value) ∧
    (∀ id, (∃ fault, Incoming.ofBody body = .malformed (some id) fault) ↔
      ∃ t, IsJson body t ∧ t.Within Json.maxDepth ∧
        NamesJob id t.value ∧ ¬ HasStatus t.value) ∧
    ((∃ fault, Incoming.ofBody body = .malformed none fault) ↔
      ∀ t, IsJson body t → t.Within Json.maxDepth → ∀ id,
        ¬ AnswersJob id t.value ∧ ¬ (NamesJob id t.value ∧ ¬ HasStatus t.value)) ∧
    ∀ t id, IsJson body t → t.Within Json.maxDepth → NamesJob id t.value →
      (∃ outcome, Incoming.ofBody body = .response id outcome) ∨
        ∃ fault, Incoming.ofBody body = .malformed (some id) fault := by
  refine ⟨fun id => ofBody_response_iff, fun id => ofBody_malformed_iff, ?_, ?_⟩
  · constructor
    · rintro ⟨fault, anonymous⟩ t text within id
      constructor
      · intro answers
        obtain ⟨outcome, response⟩ := ofBody_response_iff.2 ⟨t, text, within, answers⟩
        cases anonymous.symm.trans response
      · intro names
        obtain ⟨fault', malformed⟩ := ofBody_malformed_iff.2 ⟨t, text, within, names⟩
        cases anonymous.symm.trans malformed
    · intro other
      -- The two other classes are ruled out by what the body holds.
      match class_eq : Incoming.ofBody body with
      | .malformed none fault => exact ⟨fault, rfl⟩
      | .malformed (some id) fault =>
        obtain ⟨t, text, within, names⟩ := ofBody_malformed_iff.1 ⟨fault, class_eq⟩
        exact absurd names (other t text within id).2
      | .response id outcome =>
        obtain ⟨t, text, within, answers⟩ := ofBody_response_iff.1 ⟨outcome, class_eq⟩
        exact absurd answers (other t text within id).1
  · intro t id text within names
    by_cases status : HasStatus t.value
    · exact .inl (ofBody_response_iff.2 ⟨t, text, within, names.answers_iff.2 status⟩)
    · exact .inr (ofBody_malformed_iff.2 ⟨t, text, within, names, status⟩)

/-- An object whose status is none of the names. -/
def undecided : Json :=
  .obj [("id", .ofNat 5), ("status", .str "maybe")]

theorem undecided_classified_exactly :
    (∃ fault, Incoming.ofBody (Frame.utf8 undecided.compact) = .malformed (some ⟨5⟩) fault) ∧
      ∃ t, IsJson (Frame.utf8 undecided.compact) t ∧ t.Within Json.maxDepth ∧
        NamesJob ⟨5⟩ t.value ∧
        ((∃ outcome, Incoming.ofBody (Frame.utf8 undecided.compact) = .response ⟨5⟩ outcome) ∨
          ∃ fault, Incoming.ofBody (Frame.utf8 undecided.compact) =
            .malformed (some ⟨5⟩) fault) := by
  have exact : Json.Exact Json.maxDepth undecided := by
    refine .obj (List.pairwise_pair.2 (by decide)) ?_
    simp only [List.forall_mem_cons]
    exact ⟨.int (by decide), .str _, by simp⟩
  obtain ⟨t, text, within, hvalue⟩ := Json.parseBytes?_eq_some_iff.1
    ((Json.parseBytes?_utf8 undecided.compact).trans exact.parse?_compact)
  have names : NamesJob ⟨5⟩ t.value := by
    rw [hvalue]
    exact ⟨rfl, by decide⟩
  have noStatus : ¬ HasStatus t.value := by
    rw [hvalue]
    rintro ⟨w, found, s, written⟩
    cases found
    generalize hw : Json.str "maybe" = w at written
    cases written with
    | text => cases s <;> simp [Status.name] at hw
    | key => cases hw
  obtain ⟨-, malformed, -, known⟩ := frames_classified_exactly (Frame.utf8 undecided.compact)
  exact ⟨(malformed ⟨5⟩).2 ⟨t, text, within, names, noStatus⟩, t, text, within, names,
    known t ⟨5⟩ text within names⟩

/-! ## Beyond the limits -/

/-- The text `{"id":1,"status":"success","extra":..}` of a response that tells of success, with one
more field. -/
def withExtra (extra : List Char) : List Char :=
  '\x7b' :: (Json.quotedChars "id" ++ ':' :: '1' :: ',' :: (Json.quotedChars "status" ++ ':' ::
    (Json.quotedChars "success" ++ ',' :: (Json.quotedChars "extra" ++ ':' ::
      (extra ++ ['\x7d'])))))

/-- The fields of the response, as they are written. -/
def membersWith (extra : List Char) (t : Tree) : List Json.Member :=
  [.bare "id" ['1'] (.num ⟨false, ['1'], [], none⟩),
    .bare "status" (Json.quotedChars "success") (.str ("success".toList.map some)),
    .bare "extra" extra t]

theorem chars_membersWith (extra : List Char) (t : Tree) :
    '\x7b' :: (Json.separated ((membersWith extra t).map Json.Member.chars) ++ ['\x7d']) =
      withExtra extra := by
  have three (a b c : List Char) : Json.separated [a, b, c] = a ++ ',' :: (b ++ ',' :: c) := by
    rw [Json.separated_cons (by simp), Json.separated_cons (by simp), Json.separated_singleton]
  rw [membersWith, List.map_cons, List.map_cons, List.map_singleton, three, withExtra]
  simp only [Json.Member.chars_bare, List.append_assoc, List.cons_append, List.nil_append]

/-- Characters that are all found to be digits. -/
theorem digits_of_all {ds : List Char} (nonempty : ds ≠ []) (all : ds.all Decimal.isDigit) :
    Json.Digits ds :=
  ⟨nonempty, List.all_eq_true.1 all⟩

/-- Whatever stands in the last field, the text is JSON and tells of the success of its job. -/
theorem withExtra_answers {extra : List Char} {t : Tree} (spells : Json.Spells extra t) :
    ∃ t, IsJson (Frame.utf8 (String.ofList (withExtra extra))) t ∧ AnswersJob ⟨1⟩ t.value := by
  refine ⟨.obj ((membersWith extra t).map Json.Member.entry), ?_, ?_⟩
  · have one : Json.Whole ['1'] := .digits (digits_of_all (by simp) rfl) (by decide)
    have spelled : ∀ m ∈ membersWith extra t, Json.Spells m.text m.tree := by
      simp only [membersWith, List.forall_mem_cons]
      exact ⟨.num (.mk false one .absent .absent), .str (Json.quoted_escape _), spells, by simp⟩
    have nonempty : membersWith extra t ≠ [] := List.cons_ne_nil _ _
    have whole := Json.Spells.fields nonempty spelled
    rw [chars_membersWith] at whole
    refine ⟨_, rfl, .bare _ _, ?_, rfl, whole⟩
    rw [String.toList_ofList]
    exact (List.append_nil _).symm
  · have fields : (membersWith extra t).map Json.Member.field =
        [("id", .ofNat 1), ("status", .str "success"), ("extra", t.value)] := by
      simp only [membersWith, List.map_cons, List.map_nil, Json.Member.field_bare,
        Json.Letters.text_map_some, String.ofList_toList, Json.Tree.value]
      rfl
    have nodup : ["id", "status", "extra"].Nodup := by decide
    rw [Json.value_fields, fields]
    refine .object ⟨?_, by decide⟩ ⟨.str "success", ?_, .success, .text⟩
    · exact TextMap.find?_ofList_of_nodup "id" nodup
    · exact TextMap.find?_ofList_of_nodup "status" nodup

/-- The response is JSON and tells that its job has succeeded, and yet the frame is taken for
nobody's. -/
def Lost (extra : List Char) : Prop :=
  (∃ t, IsJson (Frame.utf8 (String.ofList (withExtra extra))) t ∧ AnswersJob ⟨1⟩ t.value) ∧
    Incoming.ofBody (Frame.utf8 (String.ofList (withExtra extra))) = .malformed none .notJson

theorem lost_of_unread {extra : List Char} {t : Tree} (spells : Json.Spells extra t)
    (unread : (Json.parseChars? Json.maxDepth (withExtra extra)).isNone) : Lost extra := by
  refine ⟨withExtra_answers spells, ofBody_of_unread ?_⟩
  rw [Json.parseBytes?_utf8, Json.parse?, String.toList_ofList]
  exact Option.isNone_iff_eq_none.1 unread

/-- A number beyond all floating-point numbers. -/
def tooLarge : List Char := ['1', 'e', '9', '9', '9']

theorem spells_tooLarge :
    Json.Spells tooLarge (.num ⟨false, ['1'], [], some (false, ['9', '9', '9'])⟩) := by
  have one : Json.Whole ['1'] := .digits (digits_of_all (by simp) rfl) (by decide)
  have nines : Json.Digits ['9', '9', '9'] := digits_of_all (by simp) rfl
  exact .num (.mk false one .absent (.bare (.inl rfl) nines))

/-- A string with a surrogate that has no partner. -/
def unpaired : List Char := ['"', '\\', 'u', 'd', '8', '0', '0', '"']

theorem spells_unpaired : Json.Spells unpaired (.str [none]) := by
  have quoted : Quoted ['\\', 'u', 'd', '8', '0', '0'] [none] := by
    -- The string ends behind the escape, so no partner follows.
    refine .lone (n := 0xD800) rfl (by decide) ?_ .nil
    rintro - ⟨_, _, _, _, _, _, ⟨⟩, _⟩
  exact .str quoted

/-- Arrays one in the other, with nothing in the innermost. -/
def nested (depth : Nat) : List Char :=
  List.replicate depth '[' ++ List.replicate depth ']'

theorem spells_nested (n : Nat) : ∃ t, Json.Spells (nested (n + 1)) t := by
  induction n with
  | zero => exact ⟨_, .noItems .nil⟩
  | succ n ih =>
    obtain ⟨t, spells⟩ := ih
    have nonempty : [Json.Element.bare (nested (n + 1)) t] ≠ [] := List.cons_ne_nil _ _
    have whole := Json.Spells.items nonempty (List.forall_mem_singleton.2 spells)
    refine ⟨.arr [t], ?_⟩
    rw [nested, List.replicate_succ, List.replicate_succ' (n := n + 1)]
    simpa [Json.separated_singleton, Json.Element.chars, Json.Element.bare, nested] using whole

/-- **A response beyond the limits is taken for nobody's**, though it is JSON and tells that its job
has succeeded: one with a number that is too large, one with a surrogate without its partner, and
one that is nested one level too deep. -/
theorem beyond_limits_is_nobodys : Lost tooLarge ∧ Lost unpaired ∧ Lost (nested Json.maxDepth) := by
  refine ⟨?_, ?_, ?_⟩
  · exact lost_of_unread spells_tooLarge (by decide +kernel)
  · exact lost_of_unread spells_unpaired (by decide +kernel)
  · -- The arrays alone are within the limit; with the object around them they are not.
    obtain ⟨t, spells⟩ := spells_nested 126
    exact lost_of_unread spells (by decide +kernel)

end WorkerBridge
