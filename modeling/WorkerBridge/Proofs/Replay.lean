/-
  WorkerBridge.Proofs.Replay

  A replay tells of the documents as they were left last.

  Whatever happens to a store, a document is what the changes since it was last
  closed have made of it: it has the last of the texts that it was given since
  then, and its version is the number of them (`find?_undergoAll`). One change
  makes of it what the list of these texts becomes with it (`find?_undergo`), and
  the changes that are about findings leave all documents alone. A replay adds
  nothing to that: it goes through the open documents once, in ascending order.
-/
import Mathlib.Data.List.DropRight
import WorkerBridge.Proofs.Order
import WorkerBridge.Proofs.Store

namespace WorkerBridge

/-! ## What the changes say of a document -/

/-- Whether the change closes the document. -/
def Change.closes (uri : String) : Change → Bool
  | .followed r => r.closes? = some uri
  | _ => false

/-- The text that the change gives the document. -/
def Change.textFor? (uri : String) : Change → Option String
  | .followed (.addUri other text) => if other = uri then some text else none
  | _ => none

/-- The texts that the document was given since it was last closed, in order. -/
def textsSinceClose (uri : String) (cs : List Change) : List String :=
  (cs.rtakeWhile (!·.closes uri)).filterMap (·.textFor? uri)

theorem textsSinceClose_concat (uri : String) (cs : List Change) (c : Change) :
    textsSinceClose uri (cs ++ [c]) =
      if c.closes uri then [] else textsSinceClose uri cs ++ (c.textFor? uri).toList := by
  rw [textsSinceClose, List.rtakeWhile_concat]
  cases c.closes uri with
  | true => rfl
  | false =>
    show ((cs.rtakeWhile (!·.closes uri)) ++ [c]).filterMap (·.textFor? uri) = _
    rw [List.filterMap_append]
    cases given : c.textFor? uri <;> simp [given, textsSinceClose]

/-- What becomes of a document that is given these texts one after the other. -/
def Document.ofTexts? (texts : List String) : Option Document :=
  texts.getLast?.map fun text => ⟨text, texts.length⟩

theorem Document.ofTexts?_concat (texts : List String) (text : String) :
    ofTexts? (texts ++ [text]) = some ⟨text, texts.length + 1⟩ := by
  rw [ofTexts?, List.getLast?_concat, List.length_append]
  rfl

theorem Document.version_ofTexts? (texts : List String) :
    (ofTexts? texts).elim 0 (·.version) = texts.length := by
  cases last : texts.getLast? with
  | none =>
    rw [ofTexts?, last, List.getLast?_eq_none_iff.1 last]
    rfl
  | some text =>
    rw [ofTexts?, last]
    rfl

/-! ## One change and many -/

namespace Documents

/-- What a change makes of a document. -/
theorem find?_undergo (d : Documents) (c : Change) (uri : String) :
    TextMap.find? uri (d.undergo c).2.documents =
      if c.closes uri then none
      else match c.textFor? uri with
        | some text => some ⟨text, (TextMap.find? uri d.documents).elim 0 (·.version) + 1⟩
        | none => TextMap.find? uri d.documents := by
  cases c with
  | followed r =>
    cases r with
    | addUri other text =>
      show TextMap.find? uri (TextMap.insert other _ d.documents) = _
      rw [TextMap.find?_insert]
      by_cases same : other = uri
      · simp [Change.closes, Change.textFor?, Request.closes?, same]
      · simp [Change.closes, Change.textFor?, Request.closes?, same]
    | remUri other =>
      show TextMap.find? uri (TextMap.erase other d.documents) = _
      rw [TextMap.find?_erase]
      by_cases same : other = uri
      · simp [Change.closes, Request.closes?, same]
      · simp [Change.closes, Change.textFor?, Request.closes?, same]
    | check | goto | hover | uses | codelens | runMain | runTests | runBenchmarks | version
    | shutdown => rfl
  | reported reports => rfl
  | checking => rfl

theorem sorted_undergo {d : Documents} (h : d.documents.Sorted) (c : Change) :
    (d.undergo c).2.documents.Sorted := by
  cases c with
  | followed r => exact sorted_follow h r
  | reported reports => exact h
  | checking => exact h

/-- **A document is what was made of it since it was last closed.** -/
theorem find?_undergoAll (cs : List Change) (uri : String) :
    TextMap.find? uri (({} : Documents).undergoAll cs).2.documents =
      Document.ofTexts? (textsSinceClose uri cs) := by
  induction cs using List.reverseRecOn with
  | nil => rfl
  | append_singleton cs c ih =>
    rw [undergoAll_append, undergoAll_singleton, find?_undergo, textsSinceClose_concat, ih]
    cases c.closes uri with
    | true => rfl
    | false =>
      cases c.textFor? uri with
      | none =>
        show Document.ofTexts? (textsSinceClose uri cs) = Document.ofTexts? (_ ++ [])
        rw [List.append_nil]
      | some text =>
        -- The version before the change is the number of the texts so far.
        show some (⟨text, (Document.ofTexts? _).elim 0 (·.version) + 1⟩ : Document) =
          Document.ofTexts? (textsSinceClose uri cs ++ [text])
        rw [Document.version_ofTexts?, Document.ofTexts?_concat]

theorem sorted_undergoAll (cs : List Change) :
    (({} : Documents).undergoAll cs).2.documents.Sorted := by
  induction cs using List.reverseRecOn with
  | nil => exact List.Pairwise.nil
  | append_singleton cs c ih =>
    rw [undergoAll_append, undergoAll_singleton]
    exact sorted_undergo ih c

/-! ## Texts -/

theorem find?_texts (d : Documents) (uri : String) :
    TextMap.find? uri d.texts = (TextMap.find? uri d.documents).map (·.text) :=
  TextMap.find?_mapValues uri Document.text d.documents

theorem find?_texts_undergoAll (cs : List Change) (uri : String) :
    TextMap.find? uri (({} : Documents).undergoAll cs).2.texts =
      (textsSinceClose uri cs).getLast? := by
  rw [find?_texts, find?_undergoAll, Document.ofTexts?, Option.map_map]
  exact Option.map_id'

/-- **A replay rebuilds the documents.** Take a new store through any updates, closings, clearings
    and reports. Who applies the edits of its replay to nothing has, for each document that was
    updated after it was last closed, the text of its last update, and nothing else. The replay
    names each of these documents once and in ascending order, and ends with one check; if there
    are none it is empty. And an update returns one more than the number of updates of the document
    since it was last closed. -/
theorem replay_rebuilds_documents (cs : List Change) :
    let d := (({} : Documents).undergoAll cs).2
    (∀ uri, TextMap.find? uri ((d.replay.filterMap Request.edit?).foldl TextMap.edit []) =
      (textsSinceClose uri cs).getLast?) ∧
    (∃ texts : TextMap String, texts.Sorted ∧
      (∀ uri text, (uri, text) ∈ texts ↔ (textsSinceClose uri cs).getLast? = some text) ∧
      d.replay = if texts = [] then []
        else (texts.map fun entry => .addUri entry.1 entry.2) ++ [.check none]) ∧
    ∀ uri text, (d.update uri text).1 = (textsSinceClose uri cs).length + 1 := by
  intro d
  have sorted : d.texts.Sorted := (sorted_undergoAll cs).mapValues (·.text)
  refine ⟨fun uri => ?_, ⟨d.texts, sorted, fun uri text => ?_, d.replay_eq⟩, fun uri text => ?_⟩
  · rw [replay_edits, sorted.foldl_edits]
    exact find?_texts_undergoAll cs uri
  · rw [← find?_texts_undergoAll cs uri]
    exact ⟨TextMap.find?_of_mem sorted.keys_nodup, TextMap.mem_of_find?⟩
  · show (TextMap.find? uri d.documents).elim 0 (·.version) + 1 = _
    rw [find?_undergoAll, Document.version_ofTexts?]

example :
    (({} : Documents).undergoAll [.followed (.addUri "b" "old"), .followed (.addUri "c" "gone"),
      .followed (.addUri "a" "only"), .followed (.remUri "c"), .followed (.addUri "b" "new"),
      .checking]).2.replay = [.addUri "a" "only", .addUri "b" "new", .check none] := by
  decide

end Documents

end WorkerBridge
