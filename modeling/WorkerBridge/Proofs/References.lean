/-
  WorkerBridge.Proofs.References

  References to variables in a text.

  A text is cut at its references from left to right: what stands before a
  reference has no opening mark, the name of a reference has no closing mark, and
  in what is left behind the last one no reference is closed. There is exactly one
  such cut (`exists_cut`, `IsCut.unique`). The expansion puts values in the place
  of the references of the cut and leaves everything else alone
  (`expandChars_of_isCut`), so texts can be expanded apart wherever the seam does
  not lie within a reference or its opening mark (`expandChars_append`).
-/
import Mathlib.Data.List.Infix
import Mathlib.Data.List.TakeWhile
import WorkerBridge.Settings.Expansion

namespace WorkerBridge.Expansion

variable {env : Environment}

/-! ## Marks -/

/-- The mark at which a reference opens. -/
def opening : List Char := ['$', '\x7b']

/-- The text before the mark and the text behind it form no other mark at their seam. -/
def Seamless (before behind : List Char) : Prop :=
  ¬ (before.getLast? = some '$' ∧ behind.head? = some '\x7b')

theorem seamless_nil (before : List Char) : Seamless before [] := by
  simp [Seamless]

theorem seamless_opening {before behind : List Char} : Seamless before (opening ++ behind) := by
  simp [Seamless, opening]

theorem prefix_opening_iff {cs : List Char} :
    opening <+: cs ↔ ∃ rest, cs = '$' :: '\x7b' :: rest := by
  constructor
  · rintro ⟨rest, rfl⟩
    exact ⟨rest, rfl⟩
  · rintro ⟨rest, rfl⟩
    exact ⟨rest, rfl⟩

/-- In front of a seam no reference opens if none opens within what stands there. -/
theorem not_opening_of_plain {c : Char} {before behind : List Char}
    (plain : ¬ opening <:+: c :: before) (seamless : Seamless (c :: before) behind) :
    ¬ opening <+: c :: (before ++ behind) := by
  rw [prefix_opening_iff]
  rintro ⟨rest, heq⟩
  rw [List.cons_eq_cons] at heq
  obtain ⟨rfl, heq⟩ := heq
  cases before with
  | nil =>
    rw [List.nil_append] at heq
    exact seamless ⟨rfl, by rw [heq]; rfl⟩
  | cons d before =>
    rw [List.cons_append, List.cons_eq_cons] at heq
    obtain ⟨rfl, -⟩ := heq
    exact plain (List.IsPrefix.isInfix (prefix_opening_iff.2 ⟨before, rfl⟩))

theorem plain_of_cons {c : Char} {cs : List Char} (plain : ¬ opening <:+: c :: cs) :
    ¬ opening <:+: cs :=
  fun inside => plain (inside.trans (List.suffix_cons c cs).isInfix)

theorem Seamless.of_cons {c : Char} {before behind : List Char}
    (seamless : Seamless (c :: before) behind) : Seamless before behind := by
  cases before with
  | nil => simp [Seamless]
  | cons d before => simpa [Seamless] using seamless

/-- A text has no opening mark, or it can be cut at its first one. -/
theorem plain_or_opens (cs : List Char) :
    ¬ opening <:+: cs ∨ ∃ before behind, cs = before ++ (opening ++ behind) ∧
      ¬ opening <:+: before := by
  induction cs with
  | nil => exact Or.inl (by simp [opening])
  | cons c cs ih =>
    by_cases opens : opening <+: c :: cs
    · obtain ⟨behind, heq⟩ := opens
      exact Or.inr ⟨[], behind, heq.symm, by simp [opening]⟩
    · rcases ih with plain | ⟨before, behind, rfl, plain⟩
      · left
        rw [List.infix_cons_iff]
        exact not_or.2 ⟨opens, plain⟩
      · refine Or.inr ⟨c :: before, behind, rfl, ?_⟩
        rw [List.infix_cons_iff]
        refine not_or.2 ⟨fun front => opens ?_, plain⟩
        exact front.trans (List.prefix_append (c :: before) _)

/-- There is only one first opening mark. -/
theorem opening_inj {before before' behind behind' : List Char} (plain : ¬ opening <:+: before)
    (plain' : ¬ opening <:+: before')
    (same : before ++ (opening ++ behind) = before' ++ (opening ++ behind')) :
    before = before' ∧ behind = behind' := by
  induction before generalizing before' with
  | nil =>
    cases before' with
    | nil => exact ⟨rfl, List.append_cancel_left same⟩
    | cons c before' =>
      exact absurd ⟨behind, same⟩ (not_opening_of_plain plain' seamless_opening)
  | cons c before ih =>
    cases before' with
    | nil =>
      exact absurd ⟨behind', same.symm⟩ (not_opening_of_plain plain seamless_opening)
    | cons c' before' =>
      rw [List.cons_append, List.cons_append, List.cons_eq_cons] at same
      obtain ⟨rfl, same⟩ := same
      obtain ⟨rfl, rfl⟩ := ih (plain_of_cons plain) (plain_of_cons plain') same
      exact ⟨rfl, rfl⟩

/-! ## Names -/

theorem closing?_append {name : List Char} (unclosed : '\x7d' ∉ name) (after : List Char) :
    closing? (name ++ '\x7d' :: after) = some (name, after) := by
  have open' : ∀ c ∈ name, decide (c ≠ '\x7d') = true := by
    intro c hc
    exact decide_eq_true (ne_of_mem_of_not_mem hc unclosed)
  rw [closing?, List.dropWhile_append_of_pos open', List.takeWhile_append_of_pos open']
  simp

theorem closing?_eq_none {cs : List Char} (unclosed : '\x7d' ∉ cs) : closing? cs = none := by
  have gone : cs.dropWhile (· ≠ '\x7d') = [] := by
    refine List.dropWhile_eq_nil_iff.2 fun c hc => ?_
    exact decide_eq_true (ne_of_mem_of_not_mem hc unclosed)
  rw [closing?, gone]

/-- A text has no closing mark, or it can be cut at its first one. -/
theorem unclosed_or_closes (cs : List Char) :
    '\x7d' ∉ cs ∨ ∃ name after, cs = name ++ '\x7d' :: after ∧ '\x7d' ∉ name := by
  by_cases closed : '\x7d' ∈ cs
  · obtain ⟨name, after, heq, unclosed⟩ := List.eq_append_cons_of_mem closed
    exact Or.inr ⟨name, after, heq, unclosed⟩
  · exact Or.inl closed

theorem closing_inj {name name' after after' : List Char} (unclosed : '\x7d' ∉ name)
    (unclosed' : '\x7d' ∉ name') (same : name ++ '\x7d' :: after = name' ++ '\x7d' :: after') :
    name = name' ∧ after = after' := by
  have read := closing?_append unclosed after
  rw [same, closing?_append unclosed' after'] at read
  cases read
  exact ⟨rfl, rfl⟩

/-! ## Steps of the expansion -/

theorem expandChars_closed {name : List Char} (unclosed : '\x7d' ∉ name) (after : List Char) :
    expandChars env (opening ++ (name ++ '\x7d' :: after)) =
      valueOf env name ++ expandChars env after := by
  rw [opening, List.cons_append, List.cons_append, List.nil_append, expandChars]
  split
  · next name' after' heq =>
    rw [closing?_append unclosed after] at heq
    cases heq
    rfl
  · next heq =>
    rw [closing?_append unclosed after] at heq
    cases heq

theorem expandChars_unclosed {behind : List Char} (unclosed : '\x7d' ∉ behind) :
    expandChars env (opening ++ behind) = opening ++ behind := by
  rw [opening, List.cons_append, List.cons_append, List.nil_append, expandChars]
  split
  · next name after heq =>
    rw [closing?_eq_none unclosed] at heq
    cases heq
  · rfl

theorem expandChars_cons {c : Char} {cs : List Char} (plain : ¬ opening <+: c :: cs) :
    expandChars env (c :: cs) = c :: expandChars env cs := by
  rw [expandChars]
  intro rest first second
  subst first second
  exact plain ⟨rest, rfl⟩

/-- What stands before the first opening mark stays as it is. -/
theorem expandChars_plain {before behind : List Char} (plain : ¬ opening <:+: before)
    (seamless : Seamless before behind) :
    expandChars env (before ++ behind) = before ++ expandChars env behind := by
  induction before with
  | nil => rfl
  | cons c before ih =>
    rw [List.cons_append, expandChars_cons (not_opening_of_plain plain seamless),
      ih (plain_of_cons plain) seamless.of_cons, List.cons_append]

/-! ## Cuts -/

/-- A text cut at its references: what stands before each of them and its name, and what is left. -/
structure Cut where
  references : List (List Char × List Char)
  rest : List Char

namespace Cut

/-- The references with what stands before them. -/
def front (cut : Cut) : List Char :=
  cut.references.flatMap fun (before, name) => before ++ (opening ++ (name ++ ['\x7d']))

/-- The values of the references with what stands before them. -/
def values (env : Environment) (cut : Cut) : List Char :=
  cut.references.flatMap fun (before, name) => before ++ valueOf env name

end Cut

/-- A reference is closed somewhere in the text. -/
def HasReference (cs : List Char) : Prop :=
  ∃ before name after, cs = before ++ (opening ++ (name ++ '\x7d' :: after))

/-- The cut of a text: each reference goes from the first opening mark to the first closing mark
behind it, and none is left. -/
structure IsCut (cut : Cut) (cs : List Char) : Prop where
  text : cs = cut.front ++ cut.rest
  plain : ∀ r ∈ cut.references, ¬ opening <:+: r.1
  unclosed : ∀ r ∈ cut.references, '\x7d' ∉ r.2
  rest : ¬ HasReference cut.rest

/-- A text in which no reference is closed is cut nowhere. -/
theorem isCut_nil {cs : List Char} (none : ¬ HasReference cs) : IsCut ⟨[], cs⟩ cs where
  text := rfl
  plain := by simp
  unclosed := by simp
  rest := none

theorem Cut.front_cons (before name : List Char) (references : List (List Char × List Char))
    (rest : List Char) :
    (Cut.mk ((before, name) :: references) rest).front ++ rest =
      before ++ (opening ++ (name ++ '\x7d' :: ((Cut.mk references rest).front ++ rest))) := by
  simp [Cut.front]

theorem IsCut.cons {before name after : List Char} {cut : Cut} (plain : ¬ opening <:+: before)
    (unclosed : '\x7d' ∉ name) (behind : IsCut cut after) :
    IsCut ⟨(before, name) :: cut.references, cut.rest⟩
      (before ++ (opening ++ (name ++ '\x7d' :: after))) where
  text := by rw [Cut.front_cons, behind.text]
  plain := by simpa using ⟨plain, fun a b h => behind.plain (a, b) h⟩
  unclosed := by simpa using ⟨unclosed, fun a b h => behind.unclosed (a, b) h⟩
  rest := behind.rest

/-- Behind an opening mark that is not closed no reference is. -/
theorem not_hasReference_of_unclosed {before behind : List Char} (plain : ¬ opening <:+: before)
    (unclosed : '\x7d' ∉ behind) : ¬ HasReference (before ++ (opening ++ behind)) := by
  rintro ⟨before', name, after, heq⟩
  -- The first opening mark is not behind that of the reference.
  rcases plain_or_opens before' with plain' | ⟨first, second, rfl, plain'⟩
  · obtain ⟨-, rfl⟩ := opening_inj plain plain' heq
    exact unclosed (by simp)
  · rw [List.append_assoc, List.append_assoc] at heq
    obtain ⟨-, rfl⟩ := opening_inj plain plain' heq
    exact unclosed (by simp)

theorem unclosed_of_not_hasReference {before behind : List Char}
    (none : ¬ HasReference (before ++ (opening ++ behind))) : '\x7d' ∉ behind := by
  intro closed
  obtain ⟨name, after, rfl⟩ := List.append_of_mem closed
  exact none ⟨before, name, after, rfl⟩

/-- Every text has a cut. -/
theorem exists_cut (cs : List Char) : ∃ cut, IsCut cut cs := by
  induction h : cs.length using Nat.strongRecOn generalizing cs with
  | ind n ih =>
    rcases plain_or_opens cs with plain | ⟨before, behind, rfl, plain⟩
    · refine ⟨⟨[], cs⟩, isCut_nil ?_⟩
      rintro ⟨before, name, after, rfl⟩
      exact plain ⟨before, name ++ '\x7d' :: after, by simp⟩
    · rcases unclosed_or_closes behind with unclosed | ⟨name, after, rfl, unclosed⟩
      · exact ⟨⟨[], _⟩, isCut_nil (not_hasReference_of_unclosed plain unclosed)⟩
      · have shorter : after.length < n := by
          rw [← h]
          simp only [List.length_append, List.length_cons]
          omega
        obtain ⟨cut, behind⟩ := ih after.length shorter after rfl
        exact ⟨_, behind.cons plain unclosed⟩

/-- The cut of what follows the first reference. -/
theorem IsCut.tail {before name rest cs : List Char} {references : List (List Char × List Char)}
    (h : IsCut ⟨(before, name) :: references, rest⟩ cs) :
    ∃ after, cs = before ++ (opening ++ (name ++ '\x7d' :: after)) ∧ ¬ opening <:+: before ∧
      '\x7d' ∉ name ∧ IsCut ⟨references, rest⟩ after := by
  have plain := List.forall_mem_cons.1 h.plain
  have unclosed := List.forall_mem_cons.1 h.unclosed
  exact ⟨_, h.text.trans (Cut.front_cons before name references rest), plain.1, unclosed.1,
    { text := rfl, plain := plain.2, unclosed := unclosed.2, rest := h.rest }⟩

/-- A text has only one cut. -/
theorem IsCut.unique {cut cut' : Cut} {cs : List Char} (h : IsCut cut cs) (h' : IsCut cut' cs) :
    cut = cut' := by
  obtain ⟨references, rest⟩ := cut
  obtain ⟨references', rest'⟩ := cut'
  induction references generalizing references' cs with
  | nil =>
    cases references' with
    | nil => rw [Cut.mk.injEq]; exact ⟨rfl, h.text.symm.trans h'.text⟩
    | cons r' references' =>
      obtain ⟨after', text', -⟩ := h'.tail
      exact absurd ⟨_, _, _, h.text.symm.trans text'⟩ h.rest
  | cons r references ih =>
    obtain ⟨after, text, plain, unclosed, behind⟩ := h.tail
    cases references' with
    | nil => exact absurd ⟨_, _, _, h'.text.symm.trans text⟩ h'.rest
    | cons r' references' =>
      obtain ⟨after', text', plain', unclosed', behind'⟩ := h'.tail
      -- Both begin with the same reference, and what follows it is the same text.
      obtain ⟨before, named⟩ := opening_inj plain plain' (text.symm.trans text')
      obtain ⟨name, rfl⟩ := closing_inj unclosed unclosed' named
      cases ih behind references' behind'
      rw [Prod.ext before name]

/-! ## Expansion along the cut -/

/-- The expansion goes over the references of a cut, and puts their values in their place. -/
theorem expandChars_front {cut : Cut} {cs : List Char} (h : IsCut cut cs) (behind : List Char) :
    expandChars env (cut.front ++ behind) = cut.values env ++ expandChars env behind := by
  obtain ⟨references, rest⟩ := cut
  induction references generalizing cs with
  | nil => rfl
  | cons r references ih =>
    obtain ⟨after, -, plain, unclosed, tail⟩ := h.tail
    calc expandChars env (Cut.front ⟨r :: references, rest⟩ ++ behind)
      _ = expandChars env (r.1 ++ (opening ++ (r.2 ++ '\x7d' ::
            (Cut.front ⟨references, rest⟩ ++ behind)))) := by simp [Cut.front]
      _ = r.1 ++ (valueOf env r.2 ++ expandChars env (Cut.front ⟨references, rest⟩ ++ behind)) := by
            rw [expandChars_plain plain seamless_opening, expandChars_closed unclosed]
      _ = r.1 ++ (valueOf env r.2 ++ (Cut.values env ⟨references, rest⟩ ++
            expandChars env behind)) := by rw [ih tail]
      _ = Cut.values env ⟨r :: references, rest⟩ ++ expandChars env behind := by
            simp [Cut.values]

/-- A text in which no reference is closed stays as it is. -/
theorem expandChars_of_not_hasReference {cs : List Char} (none : ¬ HasReference cs) :
    expandChars env cs = cs := by
  rcases plain_or_opens cs with plain | ⟨before, behind, rfl, plain⟩
  · have kept : expandChars env (cs ++ []) = cs ++ expandChars env [] :=
      expandChars_plain plain (seamless_nil cs)
    simpa [expandChars] using kept
  · rw [expandChars_plain plain seamless_opening,
      expandChars_unclosed (unclosed_of_not_hasReference none)]

/-- **What the expansion is.** The values of the references, each behind what stands before it, and
    then what is left. Values are not looked into. -/
theorem expandChars_of_isCut {cut : Cut} {cs : List Char} (h : IsCut cut cs) :
    expandChars env cs = cut.values env ++ cut.rest := by
  rw [h.text, expandChars_front h, expandChars_of_not_hasReference h.rest]

/-- Texts can be expanded apart if no mark is left open in the first one, nor at the seam. -/
theorem expandChars_append {cut : Cut} {cs : List Char} (h : IsCut cut cs)
    (plain : ¬ opening <:+: cut.rest) {behind : List Char} (seamless : Seamless cs behind) :
    expandChars env (cs ++ behind) = expandChars env cs ++ expandChars env behind := by
  have atRest : Seamless cut.rest behind := by
    rintro ⟨last, first⟩
    apply seamless
    rw [h.text, List.getLast?_append, last]
    exact ⟨rfl, first⟩
  rw [expandChars_of_isCut h, h.text, List.append_assoc, expandChars_front h,
    expandChars_plain plain atRest, List.append_assoc]

end WorkerBridge.Expansion
