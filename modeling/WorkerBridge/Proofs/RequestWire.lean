/-
  WorkerBridge.Proofs.RequestWire

  A request survives the wire.

  Four tables describe the requests: their tags, their kinds with the names of
  these, the fields, and the document that a request is about. That the first two
  agree is `tag_eq_wireName`. That the others do is said by what is found in a
  message (`field?_message`), and that they do not collide by a reader that gets
  every request back out of its message (`ofMessage?_message`). The text of the
  message and its frame are undone by the laws of the layers below.
-/
import WorkerBridge.Job.Request
import WorkerBridge.Proofs.JsonText
import WorkerBridge.Proofs.Records
import WorkerBridge.Proofs.Written

namespace WorkerBridge

open Json (Exact)

/-! ## Positions -/

namespace Position

theorem toJson_exact (p : Position) : Exact 1 p.toJson := by
  have fits (n : UInt32) : n.toNat ≤ Json.maxUnsigned :=
    Nat.le_trans (Nat.le_of_lt n.toNat_lt) (by decide)
  apply Exact.ofFields
  simp only [List.forall_mem_cons]
  exact ⟨.ofNat (fits p.line), .ofNat (fits p.character), by simp⟩

/-- A position is read back. -/
theorem decode_toJson (p : Position) : decode p.toJson = .ok p := by
  have nodup : ["line", "character"].Nodup := by decide
  refine (reads _ p.toJson_exact.proper p).2 ⟨trivial, ?_, ?_⟩
  · exact TextMap.find?_ofList_of_nodup "line" nodup
  · exact TextMap.find?_ofList_of_nodup "character" nodup

end Position

namespace Request

/-! ## What stands in a message -/

/-- A request is written under the name of its kind. -/
theorem tag_eq_wireName (r : Request) : r.tag = r.kind.wireName := by
  cases r with
  | addUri | remUri | check | goto | hover | uses | codelens => rfl
  | runMain | runTests | runBenchmarks | version | shutdown => rfl

/-- All fields that a request can have beside the tag. -/
def fieldNames : List String := ["uri", "src", "position", "entryPoint", "args", "filter"]

theorem keys_optionalField (name : String) (s : Option String) :
    (TextMap.keys (optionalField name s)).Sublist [name] := by
  cases s with
  | none => exact List.nil_sublist _
  | some s => exact List.Sublist.refl _

theorem keys_fields (r : Request) : (TextMap.keys r.fields).Sublist fieldNames := by
  have alone (name : String) (known : name ∈ fieldNames) (s : Option String) :
      (TextMap.keys (optionalField name s)).Sublist fieldNames :=
    (keys_optionalField name s).trans (List.singleton_sublist.2 known)
  cases r with
  | addUri uri source => exact (by decide : ["uri", "src"].Sublist fieldNames)
  | remUri uri | codelens uri => exact (by decide : ["uri"].Sublist fieldNames)
  | goto uri p | hover uri p | uses uri p =>
    exact (by decide : ["uri", "position"].Sublist fieldNames)
  | check uri => exact alone "uri" (by decide) uri
  | runTests filter => exact alone "filter" (by decide) filter
  | runMain entryPoint arguments =>
    -- Either of the two may be missing, but they stand in this order.
    have both := (keys_optionalField "entryPoint" entryPoint).append
      (keys_optionalField "args" arguments)
    rw [fields, TextMap.keys, List.map_append]
    exact both.trans (by decide)
  | runBenchmarks | version | shutdown => exact List.nil_sublist _

/-- No field of a request is called like the identity or the tag. -/
theorem keys_nodup (r : Request) : ("id" :: "request" :: TextMap.keys r.fields).Nodup := by
  have nodup : ("id" :: "request" :: fieldNames).Nodup := by decide
  exact nodup.sublist ((r.keys_fields.cons_cons "request").cons_cons "id")

/-- The identity is put into the object of the request. -/
theorem message_eq (id : JobId) (r : Request) :
    ∃ fields, r.toJson = .obj fields ∧
      r.message id = .obj (TextMap.insert "id" (.ofNat id.number) fields) :=
  ⟨_, rfl, congrArg Json.obj (TextMap.ofList_cons r.keys_nodup)⟩

/-- What is found in a message: the identity, the tag and the fields of the request. -/
theorem field?_message (id : JobId) (r : Request) (key : String) :
    (r.message id).field? key =
      TextMap.find? key
        (("id", .ofNat id.number) :: ("request", .str r.tag) :: r.fields) :=
  TextMap.find?_ofList_of_nodup key r.keys_nodup

theorem field?_id (id : JobId) (r : Request) :
    (r.message id).field? "id" = some (.ofNat id.number) := by
  rw [field?_message, TextMap.find?_cons_self]

theorem field?_request (id : JobId) (r : Request) :
    (r.message id).field? "request" = some (.str r.kind.wireName) := by
  rw [field?_message, TextMap.find?_cons, if_neg (by decide), TextMap.find?_cons_self,
    tag_eq_wireName]

/-- Behind identity and tag, the fields of the request are found. -/
theorem field?_fields (id : JobId) (r : Request) {key : String} (known : key ∈ fieldNames) :
    (r.message id).field? key = TextMap.find? key r.fields := by
  have apart : "id" ∉ fieldNames ∧ "request" ∉ fieldNames := by decide
  have notId : "id" ≠ key := fun same => apart.1 (same ▸ known)
  have notTag : "request" ≠ key := fun same => apart.2 (same ▸ known)
  rw [field?_message, TextMap.find?_cons, if_neg notId, TextMap.find?_cons, if_neg notTag]

theorem find?_optionalField (name : String) (s : Option String) :
    TextMap.find? name (optionalField name s) = s.map Json.str := by
  cases s with
  | none => rfl
  | some s => exact TextMap.find?_cons_self ..

theorem find?_optionalField_of_ne {name key : String} (ne : name ≠ key) (s : Option String) :
    TextMap.find? key (optionalField name s) = none := by
  cases s with
  | none => rfl
  | some s =>
    rw [optionalField, TextMap.find?_cons, if_neg ne]
    rfl

/-- The document that a request is about is named in its field `uri`. -/
theorem field?_uri (id : JobId) (r : Request) :
    (r.message id).field? "uri" = r.uri?.map Json.str := by
  rw [field?_fields id r (by decide)]
  cases r with
  | addUri | remUri | goto | hover | uses | codelens => exact TextMap.find?_cons_self ..
  | check uri => exact find?_optionalField "uri" uri
  | runTests filter => exact find?_optionalField_of_ne (by decide) filter
  | runMain entryPoint arguments =>
    rw [fields, TextMap.find?_append, find?_optionalField_of_ne (by decide),
      find?_optionalField_of_ne (by decide)]
    rfl
  | runBenchmarks | version | shutdown => rfl

/-! ## Reading a message -/

end Request

/-- The kind with the given tag. -/
def JobKind.ofWireName? (name : String) : Option JobKind :=
  [.addUri, .remUri, .check, .goto, .hover, .uses, .codelens, .runMain, .runTests, .runBenchmarks,
    .version, .shutdown].find? (·.wireName = name)

theorem JobKind.ofWireName?_wireName (kind : JobKind) :
    ofWireName? kind.wireName = some kind := by
  cases kind <;> decide

namespace Request

/-- The text of a field. -/
def textOf? (v : Json) (key : String) : Option String :=
  (v.field? key).bind Json.asText?

/-- The position in a message. -/
def positionOf? (v : Json) : Option Position :=
  (v.field? "position").bind fun w => (Position.decode w).toOption

/-- Reads a request of a kind out of a message. -/
def ofKind? (v : Json) : JobKind → Option Request
  | .addUri => return .addUri (← textOf? v "uri") (← textOf? v "src")
  | .remUri => return .remUri (← textOf? v "uri")
  | .check => return .check (textOf? v "uri")
  | .goto => return .goto (← textOf? v "uri") (← positionOf? v)
  | .hover => return .hover (← textOf? v "uri") (← positionOf? v)
  | .uses => return .uses (← textOf? v "uri") (← positionOf? v)
  | .codelens => return .codelens (← textOf? v "uri")
  | .runMain => return .runMain (textOf? v "entryPoint") (textOf? v "args")
  | .runTests => return .runTests (textOf? v "filter")
  | .runBenchmarks => return .runBenchmarks
  | .version => return .version
  | .shutdown => return .shutdown

/-- Reads the request out of a message, its kind first. -/
def ofMessage? (v : Json) : Option Request :=
  ((textOf? v "request").bind JobKind.ofWireName?).bind (ofKind? v)

theorem asText?_map_str (s : Option String) : (s.map Json.str).bind Json.asText? = s := by
  cases s <;> rfl

/-- **A request is had back out of its message.** -/
theorem ofMessage?_message (id : JobId) (r : Request) : ofMessage? (r.message id) = some r := by
  -- What the reader looks up: the tag, the document, other texts, and the position.
  have tag : textOf? (r.message id) "request" = some r.kind.wireName := by
    rw [textOf?, field?_request]
    rfl
  have uri : textOf? (r.message id) "uri" = r.uri? := by
    rw [textOf?, field?_uri, asText?_map_str]
  have other {key : String} (known : key ∈ fieldNames) :
      textOf? (r.message id) key = (TextMap.find? key r.fields).bind Json.asText? := by
    rw [textOf?, field?_fields id r known]
  have position (p : Position) (uri : String)
      (hr : r.fields = [("uri", .str uri), ("position", p.toJson)]) :
      positionOf? (r.message id) = some p := by
    rw [positionOf?, field?_fields id r (by decide), hr, TextMap.find?_cons, if_neg (by decide),
      TextMap.find?_cons_self, Option.bind_some, Position.decode_toJson]
    rfl
  rw [ofMessage?, tag, Option.bind_some, JobKind.ofWireName?_wireName, Option.bind_some]
  cases r with
  | addUri uri' source =>
    rw [kind, ofKind?, uri, other (by decide)]
    rfl
  | remUri | codelens | check =>
    rw [kind, ofKind?, uri]
    rfl
  | goto uri' p | hover uri' p | uses uri' p =>
    rw [kind, ofKind?, uri, position p uri' rfl]
    rfl
  | runMain entryPoint arguments =>
    rw [kind, ofKind?, other (by decide), other (by decide), fields, TextMap.find?_append,
      TextMap.find?_append, find?_optionalField, find?_optionalField,
      find?_optionalField_of_ne (by decide), find?_optionalField_of_ne (by decide), Option.or_none,
      Option.none_or, asText?_map_str, asText?_map_str]
    rfl
  | runTests filter =>
    rw [kind, ofKind?, other (by decide), fields, find?_optionalField, asText?_map_str]
    rfl
  | runBenchmarks | version | shutdown => rfl

/-- Different requests, or one under different identities, have different messages. -/
theorem message_injective {id id' : JobId} {r r' : Request} (same : r'.message id' = r.message id) :
    id' = id ∧ r' = r := by
  -- The identity is looked up, and the request is had back.
  have number : some (Json.ofNat id'.number) = some (.ofNat id.number) := by
    rw [← field?_id id' r', ← field?_id id r, same]
  have request : some r' = some r := by
    rw [← ofMessage?_message id' r', ← ofMessage?_message id r, same]
  cases id
  cases id'
  cases number
  exact ⟨rfl, Option.some.inj request⟩

/-! ## The text of a message -/

theorem optionalField_exact {name : String} {s : Option String} :
    ∀ entry ∈ optionalField name s, Exact 1 entry.2 := by
  cases s with
  | none => exact fun _ none => absurd none List.not_mem_nil
  | some s => exact List.forall_mem_singleton.2 (.str s)

theorem fields_exact (r : Request) : ∀ entry ∈ r.fields, Exact 1 entry.2 := by
  cases r with
  | addUri uri source => simp [fields, Exact.str]
  | remUri uri | codelens uri => simp [fields, Exact.str]
  | goto uri p | hover uri p | uses uri p => simp [fields, Exact.str, p.toJson_exact]
  | check | runTests => exact optionalField_exact
  | runMain => exact List.forall_mem_append.2 ⟨optionalField_exact, optionalField_exact⟩
  | runBenchmarks | version | shutdown => simp [fields]

/-- A message is printed so that it can be read back. -/
theorem message_exact {id : JobId} (unsigned : id.number ≤ Json.maxUnsigned) (r : Request) :
    Exact 2 (r.message id) := by
  apply Exact.ofFields
  simp only [List.forall_mem_cons]
  exact ⟨.ofNat unsigned, .str _, r.fields_exact⟩

theorem parse?_message {id : JobId} (unsigned : id.number ≤ Json.maxUnsigned) (r : Request) :
    Json.parse? (r.message id).compact = some (r.message id) :=
  ((message_exact unsigned r).mono (by decide)).parse?_compact

end Request

/-- **Requests are faithful.** The identity goes into the object of the request, and the message has
the identity, the tag of the kind, and the document exactly if there is one. Within the limit for
frames it is sent, and what is sent is one frame whose body reads back as the message. Different
requests, or one under different identities, have different messages, and different texts too. -/
theorem requests_faithful {id : JobId} (unsigned : id.number ≤ Json.maxUnsigned) (r : Request) :
    (∃ fields, r.toJson = .obj fields ∧
      r.message id = .obj (TextMap.insert "id" (.ofNat id.number) fields)) ∧
    (r.message id).field? "id" = some (.ofNat id.number) ∧
    (r.message id).field? "request" = some (.str r.kind.wireName) ∧
    (r.message id).field? "uri" = r.uri?.map Json.str ∧
    ((r.message id).compact.utf8ByteSize ≤ Frame.maxBody →
      ∃ bytes body, Frame.encode (r.message id).compact.toUTF8 = .ok bytes ∧
        Frame.readAll bytes.data.toList = ([body], .clean) ∧
        Json.parseBytes? body.toByteArray = some (r.message id)) ∧
    (∀ id' r', r'.message id' = r.message id → id' = id ∧ r' = r) ∧
    ∀ id' r', id'.number ≤ Json.maxUnsigned →
      (r'.message id').compact = (r.message id).compact → id' = id ∧ r' = r := by
  refine ⟨r.message_eq id, r.field?_id id, r.field?_request id, r.field?_uri id, ?_, ?_, ?_⟩
  · intro within
    have encoded : Frame.encode (r.message id).compact.toUTF8 =
        .ok (Frame.bytes (r.message id).compact.toUTF8) := if_neg (Nat.not_lt.2 within)
    refine ⟨_, _, encoded, Frame.readAll_bytes within, ?_⟩
    exact (Json.parseBytes?_utf8 _).trans (Request.parse?_message unsigned r)
  · exact fun id' r' same => Request.message_injective same
  · intro id' r' unsigned' same
    -- One text does not hold two values.
    apply Request.message_injective
    apply Option.some.inj
    rw [← Request.parse?_message unsigned' r', ← Request.parse?_message unsigned r, same]

/-- A request whose document has a name that must be escaped. -/
def escapedCheck : Request :=
  .check (some "\"\n")

theorem length_escapedCheck {id : JobId} (unsigned : id.number ≤ Json.maxUnsigned) :
    (escapedCheck.message id).compact.toList.length ≤ 62 := by
  have message : escapedCheck.message id =
      .obj [("id", .num (.int id.number)), ("request", .str "lsp/check"),
        ("uri", .str "\"\n")] := by
    have ascending : ¬ "request" < "id" ∧ ¬ "uri" < "id" ∧ ¬ "uri" < "request" := by decide
    simp [escapedCheck, Request.message, Request.fields, Request.optionalField, Request.tag,
      Json.ofFields, Json.ofNat, TextMap.ofList, TextMap.insert, ascending]
  have keys : (Json.quotedChars "id").length = 4 ∧ (Json.quotedChars "request").length = 9 ∧
      (Json.quotedChars "uri").length = 5 := by decide
  have values : (Json.quotedChars "lsp/check").length = 11 ∧
      (Json.quotedChars "\"\n").length = 6 := by decide
  have number : (Decimal.intText id.number).toList.length ≤ 20 :=
    Json.length_intText_le (Json.exact_of_unsigned unsigned)
  rw [Json.compact_toList, message]
  simp only [Json.chars, Json.charsOfFields, Json.Number.text, List.length_cons,
    List.length_append, List.length_nil, keys, values]
  omega

theorem escapedCheck_faithful :
    ∃ bytes body,
      Frame.encode (escapedCheck.message ⟨Json.maxUnsigned⟩).compact.toUTF8 = .ok bytes ∧
        Frame.readAll bytes.data.toList = ([body], .clean) ∧
        Json.parseBytes? body.toByteArray =
          some (escapedCheck.message ⟨Json.maxUnsigned⟩) := by
  have unsigned : (⟨Json.maxUnsigned⟩ : JobId).number ≤ Json.maxUnsigned := Nat.le_refl _
  have within : (escapedCheck.message ⟨Json.maxUnsigned⟩).compact.utf8ByteSize ≤
      Frame.maxBody := by
    have size := (Json.utf8ByteSize_bounds (escapedCheck.message ⟨Json.maxUnsigned⟩).compact).2
    have length := length_escapedCheck unsigned
    rw [Frame.maxBody]
    omega
  obtain ⟨-, -, -, -, sent, -⟩ := requests_faithful unsigned escapedCheck
  exact sent within

end WorkerBridge
