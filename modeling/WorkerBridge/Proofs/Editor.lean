/-
  WorkerBridge.Proofs.Editor

  What an editor shows that does no more than heed the events.

  An editor starts with nothing, replaces what it shows for a document when it
  hears of its diagnostics, and drops it when it hears that the document was
  cleared or that nothing is left. `undergo_heed` says for each change to the
  documents that its events are exactly what such an editor needs; no change goes
  unsaid, and none is said in the wrong order. So after every run the editor
  shows what a snapshot holds (`editor_in_step`).
-/
import WorkerBridge.Proofs.Store

namespace WorkerBridge

/-! ## Heeding events -/

/-- The event that an effect is. -/
def Effect.event? : Effect → Option Event
  | .emit event => some event
  | _ => none

/-- The events among the effects, in order. -/
def events (effects : List Effect) : List Event :=
  effects.filterMap Effect.event?

/-- What an editor shows after one more event. -/
def heed (shown : TextMap (List Diagnostic)) : Event → TextMap (List Diagnostic)
  | .diagnostics uri items =>
    if items.isEmpty then TextMap.erase uri shown else TextMap.insert uri items shown
  | .cleared uri => TextMap.erase uri shown
  | _ => shown

/-- What an editor shows that has heard of the effects and nothing else. -/
def seen (effects : List Effect) : TextMap (List Diagnostic) :=
  (events effects).foldl heed []

/-- Only what is about what is shown makes a difference to the editor. -/
theorem foldl_heed_events (effects : List Effect) (shown : TextMap (List Diagnostic)) :
    (events effects).foldl heed shown = (shows effects).foldl heed shown := by
  induction effects generalizing shown with
  | nil => rfl
  | cons effect effects ih =>
    cases effect with
    | emit event =>
      cases event with
      | diagnostics uri items => exact ih (heed shown (.diagnostics uri items))
      | cleared uri => exact ih (heed shown (.cleared uri))
      | state | finished | progress | notify => exact ih shown
    | display | send | tell | exhibit | abandon | retire | retireAndWait | start | abortStart
    | dismiss => exact ih shown

theorem foldl_heed_cleared (uris : List String) (shown : TextMap (List Diagnostic)) :
    (uris.map Event.cleared).foldl heed shown = TextMap.without uris shown := by
  rw [List.foldl_map]
  exact TextMap.foldl_erase uris shown

/-- An editor that hears of the entries of a map, all of them behind what it shows, appends those
    that are not empty. -/
theorem foldl_heed_diagnostics {m front : TextMap (List Diagnostic)}
    (sorted : TextMap.Sorted (front ++ m)) :
    (m.map fun entry => Event.diagnostics entry.1 entry.2).foldl heed front =
      front ++ m.filter fun entry => !entry.2.isEmpty := by
  induction m generalizing front with
  | nil => exact (List.append_nil front).symm
  | cons entry m ih =>
    have smaller : ∀ other ∈ front, other.1 < entry.1 := fun other hother =>
      (List.pairwise_append.1 sorted).2.2 other hother entry List.mem_cons_self
    rw [List.map_cons, List.foldl_cons, List.filter_cons]
    cases empty : entry.2.isEmpty with
    | true =>
      -- There is nothing to drop: the document is not among those that are shown.
      have absent : heed front (.diagnostics entry.1 entry.2) = front := by
        rw [heed, empty, if_pos rfl, TextMap.erase, List.filter_eq_self]
        intro other hother
        exact decide_eq_true (String.ne_of_lt (smaller other hother))
      have rest : TextMap.Sorted (front ++ m) :=
        List.Pairwise.sublist ((List.sublist_cons_self entry m).append_left front) sorted
      rw [absent, ih rest]
      rfl
    | false =>
      have appended : heed front (.diagnostics entry.1 entry.2) = front ++ [entry] := by
        rw [heed, empty, if_neg Bool.false_ne_true, TextMap.insert_of_gt smaller]
      rw [appended, ih (by simpa using sorted), List.append_assoc]
      rfl

/-! ## Changes -/

namespace Documents

theorem clear_heed (d : Documents) : d.clear.1.foldl heed d.diagnostics = [] := by
  refine (foldl_heed_cleared (TextMap.keys d.diagnostics) d.diagnostics).trans ?_
  exact TextMap.without_keys d.diagnostics

/-- An editor that shows what the store shows, and hears of a change, shows what the store shows
    then. -/
theorem undergo_heed (d : Documents) (c : Change) :
    (d.undergo c).1.foldl heed d.diagnostics = (d.undergo c).2.diagnostics := by
  cases c with
  | followed r => cases r <;> rfl
  | reported reports =>
    -- All that was shown is cleared before the first report.
    show (d.clear.1 ++ (d.clear.2.merge reports).map fun entry =>
      Event.diagnostics entry.1 entry.2).foldl heed d.diagnostics = _
    rw [List.foldl_append, clear_heed]
    have sorted : TextMap.Sorted ([] ++ d.clear.2.merge reports) := d.clear.2.sorted_merge reports
    exact foldl_heed_diagnostics sorted
  | checking => exact d.clear_heed

theorem undergoAll_heed (d : Documents) (cs : List Change) :
    (d.undergoAll cs).1.foldl heed d.diagnostics = (d.undergoAll cs).2.diagnostics := by
  induction cs generalizing d with
  | nil => rfl
  | cons c cs ih =>
    show ((d.undergo c).1 ++ ((d.undergo c).2.undergoAll cs).1).foldl heed d.diagnostics =
      ((d.undergo c).2.undergoAll cs).2.diagnostics
    rw [List.foldl_append, undergo_heed, ih]

end Documents

/-! ## Runs -/

/-- In every turn the editor hears of all that changes in what is shown. -/
theorem Moment.heed_effects {m : Moment} (h : m.before.Consistent) :
    (events m.effects).foldl heed m.before.documents.diagnostics =
      m.after.documents.diagnostics := by
  have changed := Moment.undergoes h
  calc (events m.effects).foldl heed m.before.documents.diagnostics
      = (shows m.effects).foldl heed m.before.documents.diagnostics :=
        foldl_heed_events m.effects _
    _ = (m.before.documents.undergoAll m.changes).1.foldl heed m.before.documents.diagnostics :=
        congrArg (List.foldl heed _) changed.events
    _ = (m.before.documents.undergoAll m.changes).2.diagnostics :=
        Documents.undergoAll_heed _ _
    _ = m.after.documents.diagnostics :=
        congrArg Documents.diagnostics changed.documents.symm

namespace History

theorem run_seen (policy : RestartPolicy) (os : List Occasion) :
    seen (run policy os).effects = (run policy os).engine.documents.diagnostics := by
  induction os using List.reverseRecOn with
  | nil => rfl
  | append_singleton os o ih =>
    have turn := Moment.heed_effects (m := ⟨(run policy os).engine, o⟩) (run_consistent policy os)
    rw [run_concat, effects_extend, seen, events, List.filterMap_append, List.foldl_append]
    rw [seen] at ih
    exact (congrArg (fun shown => (events _).foldl heed shown) ih).trans turn

/-- **Events mirror the diagnostics.** After every turn of every run, an editor that started with
    nothing and heeded every event in order shows exactly what the store holds; and a snapshot, in
    which documents with errors come first, holds the same entries and for every document the same
    diagnostics. A snapshot is what the engine answers with when it is asked, as long as it has not
    shut down. -/
theorem editor_in_step (policy : RestartPolicy) (os : List Occasion) :
    let h := run policy os
    seen h.effects = h.engine.documents.diagnostics ∧
      h.engine.documents.snapshot.files.Perm (seen h.effects) ∧
      (∀ uri, h.engine.documents.snapshot.forUri? uri = TextMap.find? uri (seen h.effects)) ∧
      ∀ now caller, h.engine.lifecycle ≠ .stopped →
        (h.engine.step now (.command (.snapshot caller))).effects =
          [.exhibit caller h.engine.documents.snapshot] := by
  intro h
  have same : seen h.effects = h.engine.documents.diagnostics := run_seen policy os
  refine ⟨same, ?_, ?_, ?_⟩
  · rw [same]
    exact h.engine.documents.snapshot_perm
  · intro uri
    rw [same]
    exact Documents.snapshot_forUri? (run_shown_sorted policy os) uri
  · intro now caller alive
    have running : ¬ h.engine.hasEnded = true := fun ended => alive (h.engine.hasEnded_iff.1 ended)
    unfold Engine.step
    rw [if_neg running]
    rfl

end History

end WorkerBridge
