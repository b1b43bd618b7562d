/-
  WorkerBridge.Proofs.Targets

  Where a name is defined can be told without ambiguity.

  A definition is answered with one target or with an array of them, a target is a
  link or a location, and both of these may be written as arrays themselves. Still
  the first reading that fits is the only one: every target names a document, so
  that a target which is an array has a text among its items, and a text is no
  target (`not_list_of_target`).
-/
import WorkerBridge.Errand
import WorkerBridge.Proofs.Records

namespace WorkerBridge

open Json.Shape

/-! ## Locations and links -/

namespace Location

/-- The fields of a location. -/
def names : List String := ["uri", "range"]

theorem layout : Layout [field "uri" text, field "range" Range.decode] names 2 :=
  ⟨rfl, by decide, by decide⟩

/-- What is read as a location names its document and has its range. -/
theorem decode_eq_ok {v : Json} {l : Location} (read : decode v = .ok l) :
    v.member? names "uri" = some (.str l.uri) ∧
      ∃ w, v.member? names "range" = some w ∧ Range.decode w = .ok l.range := by
  simp only [decode, bind_eq_ok_iff, required_eq_ok_iff, text_eq_ok_iff] at read
  obtain ⟨kvs, hkvs, uri, ⟨_, huri, rfl⟩, range, hrange, done⟩ := read
  obtain ⟨-, rfl⟩ := layout.isRecord hkvs
  cases done
  exact ⟨huri, hrange⟩

end Location

namespace Link

/-- The fields of a link. -/
def names : List String :=
  ["originSelectionRange", "targetUri", "targetRange", "targetSelectionRange"]

theorem layout :
    Layout [lastField "originSelectionRange" (option Range.decode), field "targetUri" text,
      field "targetRange" Range.decode, field "targetSelectionRange" Range.decode] names 4 :=
  ⟨rfl, by decide, by decide⟩

/-- What is read as a link names the document of its target and has the part that is selected. -/
theorem decode_eq_ok {v : Json} {l : Link} (read : decode v = .ok l) :
    v.member? names "targetUri" = some (.str l.targetUri) ∧
      ∃ w, v.member? names "targetSelectionRange" = some w ∧
        Range.decode w = .ok l.targetSelection := by
  simp only [decode, bind_eq_ok_iff, required_eq_ok_iff, text_eq_ok_iff] at read
  obtain ⟨kvs, hkvs, origin, -, uri, ⟨_, huri, rfl⟩, range, -, selection, hselection, done⟩ := read
  obtain ⟨-, rfl⟩ := layout.isRecord hkvs
  cases done
  exact ⟨huri, hselection⟩

end Link

/-! ## Targets -/

namespace Target

theorem decode_eq_ok_iff {v : Json} {target : Target} :
    decode v = .ok target ↔
      (∃ l, Link.decode v = .ok l ∧ target = .link l) ∨
        (∀ l, Link.decode v ≠ .ok l) ∧ ∃ l, Location.decode v = .ok l ∧ target = .plain l := by
  rw [decode]
  cases Link.decode v <;> cases Location.decode v <;> simp [eq_comm]

/-- A target that is written as an array has the name of its document among its items. -/
theorem text_mem {items : List Json} {target : Target} (read : decode (.arr items) = .ok target) :
    .str target.location.uri ∈ items := by
  rcases decode_eq_ok_iff.1 read with ⟨l, link, rfl⟩ | ⟨-, l, plain, rfl⟩
  · exact Json.mem_of_member? (Link.decode_eq_ok link).1
  · exact Json.mem_of_member? (Location.decode_eq_ok plain).1

/-- **No target is a list of targets.** -/
theorem not_list_of_target {v : Json} {target : Target} (read : decode v = .ok target)
    (targets : List Target) : list decode v ≠ .ok targets := by
  intro many
  obtain ⟨items, rfl, each⟩ := list_eq_ok_iff.1 many
  -- The text among the items would have to be a target as well.
  have targets_only : ∀ w ∈ items, ∃ other, decode w = .ok other :=
    ((List.forall₂_and_left _ _).1 (each.imp fun w other read => ⟨⟨other, read⟩, read⟩)).1
  obtain ⟨other, text⟩ := targets_only _ (text_mem read)
  cases text

end Target

/-! ## Definitions -/

/-- **The order of the alternatives does not matter.** Definitions are an array of targets or one
target by itself, and whichever of them fits is what is read. -/
theorem decodeDefinitions_eq_ok_iff {v : Json} {targets : List Target} :
    decodeDefinitions v = .ok targets ↔
      (∃ ts, v = .arr ts ∧ List.Forall₂ (fun t target => Target.decode t = .ok target) ts targets) ∨
        ∃ target, Target.decode v = .ok target ∧ targets = [target] := by
  rw [← list_eq_ok_iff, decodeDefinitions]
  cases many : list Target.decode v with
  | ok all =>
    have notOne (target : Target) : Target.decode v ≠ .ok target := fun one =>
      Target.not_list_of_target one all many
    simp [notOne]
  | error e => cases Target.decode v <;> simp [eq_comm]

/-- What the caller of a definition query comes back with. -/
theorem conclude_goto {v : Json} {targets : List Target}
    (read : decodeDefinitions v = .ok targets) :
    Errand.conclude (.ok v) .goto = ([], .locations (targets.map (·.location))) := by
  have present : v ≠ .null := by
    rintro rfl
    cases read
  have found : Outcome.lookup? decodeDefinitions (.ok v) = some targets := by
    rw [Outcome.lookup?, option, read]
    · rfl
    · exact present
  rw [Errand.conclude, found, Option.getD_some]

/-- **Shapes of definitions agree.** A target by itself and the array of it alone lead to the one
location of the target; an array of targets leads to their locations in order, and a link to the
part of its target that is selected; and no target that is an array is a list of targets as well. -/
theorem definitions_agree :
    (∀ t target, Target.decode t = .ok target →
      decodeDefinitions t = .ok [target] ∧ decodeDefinitions (.arr [t]) = .ok [target] ∧
        Errand.conclude (.ok t) .goto = ([], .locations [target.location]) ∧
        Errand.conclude (.ok (.arr [t])) .goto = ([], .locations [target.location])) ∧
    (∀ ts targets, List.Forall₂ (fun t target => Target.decode t = .ok target) ts targets →
      decodeDefinitions (.arr ts) = .ok targets ∧
        Errand.conclude (.ok (.arr ts)) .goto =
          ([], .locations (targets.map (·.location)))) ∧
    (∀ t link, Target.decode t = .ok (.link link) →
      t.member? Link.names "targetUri" = some (.str (Target.link link).location.uri) ∧
        ∃ w, t.member? Link.names "targetSelectionRange" = some w ∧
          Range.decode w = .ok (Target.link link).location.range) ∧
    ∀ items target targets, Target.decode (.arr items) = .ok target →
      list Target.decode (.arr items) ≠ .ok targets := by
  have single {t : Json} {target : Target} (read : Target.decode t = .ok target) :
      decodeDefinitions t = .ok [target] :=
    decodeDefinitions_eq_ok_iff.2 (.inr ⟨target, read, rfl⟩)
  have many {ts : List Json} {targets : List Target}
      (each : List.Forall₂ (fun t target => Target.decode t = .ok target) ts targets) :
      decodeDefinitions (.arr ts) = .ok targets :=
    decodeDefinitions_eq_ok_iff.2 (.inl ⟨ts, rfl, each⟩)
  refine ⟨fun t target read => ?_, fun ts targets each => ?_, fun t link read => ?_,
    fun items target targets read => Target.not_list_of_target read targets⟩
  · have alone : decodeDefinitions (.arr [t]) = .ok [target] := many (.cons read .nil)
    exact ⟨single read, alone, conclude_goto (single read), conclude_goto alone⟩
  · exact ⟨many each, conclude_goto (many each)⟩
  · rcases Target.decode_eq_ok_iff.1 read with ⟨l, isLink, ⟨⟩⟩ | ⟨-, l, -, ⟨⟩⟩
    exact Link.decode_eq_ok isLink

/-- A range that is written as an array. -/
def firstCharacter : Json :=
  .arr [.arr [.ofNat 0, .ofNat 0], .arr [.ofNat 0, .ofNat 1]]

/-- A link and a location, both written as arrays. -/
theorem arrays_of_arrays_agree :
    Errand.conclude
        (.ok (.arr [.arr [.null, .str "a", firstCharacter, firstCharacter],
          .arr [.str "b", firstCharacter]])) .goto =
      ([], .locations [⟨"a", ⟨⟨0, 0⟩, ⟨0, 1⟩⟩⟩, ⟨"b", ⟨⟨0, 0⟩, ⟨0, 1⟩⟩⟩]) :=
  (definitions_agree.2.1 _ [.link ⟨none, "a", ⟨⟨0, 0⟩, ⟨0, 1⟩⟩, ⟨⟨0, 0⟩, ⟨0, 1⟩⟩⟩,
    .plain ⟨"b", ⟨⟨0, 0⟩, ⟨0, 1⟩⟩⟩] (.cons rfl (.cons rfl .nil))).2

end WorkerBridge
