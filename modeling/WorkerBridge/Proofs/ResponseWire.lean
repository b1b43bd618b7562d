/-
  WorkerBridge.Proofs.ResponseWire

  A response survives the wire.

  Four steps lie between the worker's answer and what the caller of the job
  hears: the answer is printed, framed, read out of its frame and decoded. The
  first and the last two undo each other, the printed text because it reads back
  (`Exact.parse?_compact`), and the frame because it is one (`isFrame_bytes`).
  `decode_answer` is what remains: the fields of the answer, sorted by their keys,
  are those that the decoder looks for.
-/
import WorkerBridge.Proofs.JsonText
import WorkerBridge.Proofs.Written
import WorkerBridge.Rehearsal.Script
import WorkerBridge.Response

namespace WorkerBridge

open Json (Exact)

/-! ## Decoding an answer -/

namespace Reply

theorem answer_eq (id : Nat) (status : String) (result : Json) :
    answer id status result =
      .obj [("id", .num (.int id)), ("result", result), ("status", .str status)] := by
  have first : ¬ "status" < "id" ∧ ¬ "result" < "id" ∧ "result" < "status" := by decide
  simp [answer, Json.ofFields, Json.ofNat, TextMap.ofList, TextMap.insert, first]

theorem answer_exact {id : Nat} (unsigned : id ≤ Json.maxUnsigned) (status : String)
    {result : Json} {depth : Nat} (exact : Exact depth result) :
    Exact (depth + 1) (answer id status result) := by
  apply Exact.ofFields
  simp only [List.forall_mem_cons]
  exact ⟨.ofNat unsigned, .str status, exact, by simp⟩

/-- What the text of an answer adds to that of its result. -/
theorem length_chars_answer (id : Nat) (status : String) (result : Json) :
    (answer id status result).chars.length =
      (Decimal.intText id).toList.length + result.chars.length +
        (Json.quotedChars status).length + 27 := by
  have keys : (Json.quotedChars "id").length = 4 ∧ (Json.quotedChars "result").length = 8 ∧
      (Json.quotedChars "status").length = 8 := by decide
  rw [answer_eq]
  simp only [Json.chars, Json.charsOfFields, Json.Number.text, List.length_cons,
    List.length_append, List.length_nil, keys]
  omega

theorem decode_answer {id : Nat} (unsigned : id ≤ Json.maxUnsigned) {name : String}
    {status : Status} (named : Status.decode (.str name) = .ok status) (result : Json) :
    Response.decode (answer id name result) = .ok ⟨⟨id⟩, status, result⟩ := by
  have number : Json.Shape.natural Json.maxUnsigned (.num (.int id)) = .ok id := if_pos unsigned
  rw [answer_eq]
  simp [Response.decode, Json.Shape.entries, Json.Shape.checkEntries, Json.Shape.field,
    Json.Shape.lastField, Json.Shape.required, Json.Shape.defaulted, Json.Shape.any,
    TextMap.find?, number, named, Except.map, bind, Except.bind, pure, Except.pure]

end Reply

/-! ## The whole way -/

/-- What the caller of a failed job is told: the text that the worker gave, by itself or under
`message`, a fixed text where the worker gave nothing, and otherwise a text from which the value can
be had back. -/
def Tells (m : String) : Json → Prop
  | .str s => m = s
  | .null => m = "worker reported a failure"
  | v =>
    match v.field? "message" with
    | some (.str s) => m = s
    | _ => Json.parse? m = some v

theorem failureMessage_tells {v : Json} (exact : Exact Json.maxDepth v) :
    Tells (failureMessage v) v := by
  have back := exact.parse?_compact
  cases v with
  | null => rfl
  | bool b => exact back
  | num n => exact back
  | str s => rfl
  | arr items => exact back
  | obj fields =>
    rw [Tells, failureMessage]
    · split
      · next hfield => rw [hfield]; rfl
      · next other =>
        have untold : ((Json.obj fields).field? "message").bind Json.asText? = none := by
          rw [Option.bind_eq_none_iff]
          intro w hw
          cases w with
          | str s => exact absurd hw (other s)
          | _ => rfl
        rw [untold]
        exact back
    all_goals simp

/-- The bytes of a response are one frame, whose body is the text of the answer. -/
theorem readAll_frame {id : Nat} {status : String} {v : Json}
    (within : (Reply.answer id status v).compact.utf8ByteSize ≤ Frame.maxBody) :
    Frame.readAll (Reply.frame id status v) =
      ([Frame.utf8 (Reply.answer id status v).compact], .clean) :=
  Frame.readAll_bytes within

/-- The text of an answer is read as what the answer says about its job. -/
theorem ofBody_answer {id : Nat} (unsigned : id ≤ Json.maxUnsigned) {v : Json} (exact : Exact 126 v)
    {name : String} {status : Status} (named : Status.decode (.str name) = .ok status) :
    Incoming.ofBody (Frame.utf8 (Reply.answer id name v).compact) =
      .response ⟨id⟩ (Response.outcome ⟨⟨id⟩, status, v⟩) := by
  have back := (Reply.answer_exact unsigned name exact).parse?_compact
  rw [Incoming.ofBody, Json.parseBytes?_utf8, back]
  simp only [Incoming.ofJson, Reply.decode_answer unsigned named v]

/-- **A response survives the wire.** A value without floating-point numbers and nested at most 126
deep goes into a frame and comes out of it: as the result of its job under `success`, and as the
reason of its failure under `failure`. -/
theorem response_survives_wire {id : Nat} (unsigned : id ≤ Json.maxUnsigned) {v : Json}
    (exact : Exact 126 v) {status : String}
    (within : (Reply.answer id status v).compact.utf8ByteSize ≤ Frame.maxBody) :
    ∃ body, Frame.readAll (Reply.frame id status v) = ([body], .clean) ∧
      (status = "success" → Incoming.ofBody body = .response ⟨id⟩ (.ok v)) ∧
      (status = "failure" →
        ∃ m, Incoming.ofBody body = .response ⟨id⟩ (.error (.reported m)) ∧ Tells m v) := by
  refine ⟨_, readAll_frame within, ?_, ?_⟩
  · rintro rfl
    have success : Status.decode (.str "success") = .ok .success := rfl
    exact ofBody_answer unsigned exact success
  · rintro rfl
    have failure : Status.decode (.str "failure") = .ok .failure := rfl
    refine ⟨failureMessage v, ofBody_answer unsigned exact failure, ?_⟩
    exact failureMessage_tells (exact.mono (by decide))

/-- A result with an empty key, a quotation mark, a line feed and a character beyond ASCII. -/
def thorny : Json :=
  .obj [("", .arr [.bool true, .null]), ("\"\né", .str "\\")]

theorem thorny_survives_wire :
    ∃ body, Frame.readAll (Reply.frame 7 "failure" thorny) = ([body], .clean) ∧
      ∃ m, Incoming.ofBody body = .response ⟨7⟩ (.error (.reported m)) ∧ Tells m thorny := by
  have exact : Exact 126 thorny := by
    refine .obj (List.pairwise_pair.2 (by decide)) ?_
    simp only [List.forall_mem_cons]
    refine ⟨.arr ?_, .str _, by simp⟩
    simp only [List.forall_mem_cons]
    exact ⟨.bool true, .null, by simp⟩
  have within : (Reply.answer 7 "failure" thorny).compact.utf8ByteSize ≤ Frame.maxBody := by
    have size := (Json.utf8ByteSize_bounds (Reply.answer 7 "failure" thorny).compact).2
    have number : (Decimal.intText (7 : Nat)).toList.length ≤ 20 :=
      Json.length_intText_le (by decide)
    have texts : thorny.chars.length = 29 ∧ (Json.quotedChars "failure").length = 9 := by decide
    rw [Json.compact_toList, Reply.length_chars_answer, texts.1, texts.2] at size
    rw [Frame.maxBody]
    omega
  obtain ⟨body, read, -, failed⟩ := response_survives_wire (by decide) exact within
  exact ⟨body, read, failed rfl⟩

end WorkerBridge
