/-
  WorkerBridge.Proofs.JsonReading

  The reader reads exactly the JSON texts.

  One direction is by induction on the fuel: whatever `readValue?`, `readItems?` and
  `readFields?` find with some fuel is in the grammar and within the limits, up to
  where they stop (`Sound`). The other is by induction on the grammar: a text in it
  that is within the limits is read up to its end with as much fuel as it has
  characters, whatever ends it (`IsRead`). Together they say that a text is read as
  a value if and only if it is a JSON text of that value within the limits
  (`parseChars?_eq_some_iff`, and `parseBytes?_eq_some_iff` for its bytes).
-/
import WorkerBridge.Proofs.Framing
import WorkerBridge.Proofs.JsonGrammar
import WorkerBridge.Proofs.TextMap

namespace WorkerBridge.Json

open WorkerBridge.Decimal

/-! ## What is read is in the grammar -/

theorem separated_singleton (part : List Char) : separated [part] = part :=
  List.append_nil part

theorem separated_cons {part : List Char} {parts : List (List Char)} (nonempty : parts ≠ []) :
    separated (part :: parts) = part ++ ',' :: separated parts := by
  obtain ⟨next, parts, rfl⟩ := List.exists_cons_of_ne_nil nonempty
  rw [separated, List.intercalate_cons_cons, List.append_assoc]
  rfl

/-- The reader does not mind blanks that are gone. -/
theorem skipGaps_skipGaps (cs : List Char) : skipGaps (skipGaps cs) = skipGaps cs := by
  obtain ⟨gap, blank, hcs⟩ := skipGaps_sound (Eq.refl (skipGaps cs))
  conv_rhs => rw [hcs, skipGaps_append blank]

theorem readValue?_skipGaps (fuel depth : Nat) (cs : List Char) :
    readValue? fuel depth (skipGaps cs) = readValue? fuel depth cs := by
  cases fuel with
  | zero => rfl
  | succ fuel => rw [readValue?, readValue?, skipGaps_skipGaps]

theorem readItems?_skipGaps (fuel depth : Nat) (acc : List Json) (cs : List Char) :
    readItems? fuel depth acc (skipGaps cs) = readItems? fuel depth acc cs := by
  cases fuel with
  | zero => rfl
  | succ fuel => rw [readItems?, readItems?, readValue?_skipGaps]

theorem readFields?_skipGaps (fuel depth : Nat) (acc : List (String × Json)) (cs : List Char) :
    readFields? fuel depth acc (skipGaps cs) = readFields? fuel depth acc cs := by
  cases fuel with
  | zero => rfl
  | succ fuel => rw [readFields?, readFields?, skipGaps_skipGaps]

/-- The text spells the tree, which is within the limits. -/
structure Fits (depth : Nat) (text : List Char) (t : Tree) : Prop where
  spells : Spells text t
  within : t.Within depth

theorem Fits.items {depth : Nat} {es : List Element} (nonempty : es ≠ [])
    (each : ∀ e ∈ es, Fits depth e.text e.tree) :
    Fits (depth + 1) ('[' :: (separated (es.map Element.chars) ++ [']']))
      (.arr (es.map (·.tree))) where
  spells := .items nonempty fun e he => (each e he).spells
  within := .arr (List.forall_mem_map.2 fun e he => (each e he).within)

theorem Fits.fields {depth : Nat} {ms : List Member} (nonempty : ms ≠ [])
    (each : ∀ m ∈ ms, m.key.Paired ∧ Fits depth m.text m.tree) :
    Fits (depth + 1) ('\x7b' :: (separated (ms.map Member.chars) ++ ['\x7d']))
      (.obj (ms.map Member.entry)) where
  spells := .fields nonempty fun m hm => (each m hm).2.spells
  within := .obj (List.forall_mem_map.2 fun m hm => (each m hm).1)
    (List.forall_mem_map.2 fun m hm => (each m hm).2.within)

/-- What the reader finds with some fuel is in the grammar and within the limits, up to where it
stops. -/
structure Sound (fuel : Nat) : Prop where
  value {depth : Nat} {cs : List Char} {v : Json} {rest : List Char} :
    readValue? fuel depth cs = some (v, rest) →
      ∃ gap text t, Gap gap ∧ cs = gap ++ (text ++ rest) ∧ Fits depth text t ∧ t.value = v
  items {depth : Nat} {acc : List Json} {cs : List Char} {v : Json} {rest : List Char} :
    readItems? fuel depth acc cs = some (v, rest) →
      ∃ es : List Element, es ≠ [] ∧ (∀ e ∈ es, Fits depth e.text e.tree) ∧
        cs = separated (es.map Element.chars) ++ ']' :: rest ∧
        v = .arr (acc.reverse ++ es.map (·.tree.value))
  fields {depth : Nat} {acc : List (String × Json)} {cs : List Char} {v : Json}
    {rest : List Char} :
    readFields? fuel depth acc cs = some (v, rest) →
      ∃ ms : List Member, ms ≠ [] ∧ (∀ m ∈ ms, m.key.Paired ∧ Fits depth m.text m.tree) ∧
        cs = separated (ms.map Member.chars) ++ '\x7d' :: rest ∧
        v = .obj ((ms.map Member.field).foldl (fun m e => TextMap.insert e.1 e.2 m) acc)

/-- A value that was read, and the blanks around it. -/
theorem Sound.element {fuel : Nat} (sound : Sound fuel) {depth : Nat} {cs : List Char} {v : Json}
    {rest tail : List Char} (read : readValue? fuel depth cs = some (v, rest))
    (skipped : skipGaps rest = tail) :
    ∃ e : Element, cs = e.chars ++ tail ∧ e.tree.value = v ∧ Fits depth e.text e.tree := by
  obtain ⟨before, text, t, hbefore, rfl, fits, hvalue⟩ := sound.value read
  obtain ⟨after, hafter, rfl⟩ := skipGaps_sound skipped
  exact ⟨⟨before, text, after, t, hbefore, hafter⟩, by simp [Element.chars], hvalue, fits⟩

theorem Sound.items_succ {fuel : Nat} (sound : Sound fuel) {depth : Nat} {acc : List Json}
    {cs : List Char} {v : Json} {rest : List Char}
    (read : readItems? (fuel + 1) depth acc cs = some (v, rest)) :
    ∃ es : List Element, es ≠ [] ∧ (∀ e ∈ es, Fits depth e.text e.tree) ∧
      cs = separated (es.map Element.chars) ++ ']' :: rest ∧
      v = .arr (acc.reverse ++ es.map (·.tree.value)) := by
  rw [readItems?] at read
  split at read
  · cases read
  · next w rest' first =>
    -- Behind a value stands a comma or the bracket; anything else is refused.
    split at read
    · next tail skipped =>
      obtain ⟨e, rfl, rfl, fits⟩ := sound.element first skipped
      obtain ⟨es, nonempty, each, rfl, rfl⟩ := sound.items read
      refine ⟨e :: es, by simp, List.forall_mem_cons.2 ⟨fits, each⟩, ?_, by simp⟩
      rw [List.map_cons, separated_cons (by simpa using nonempty)]
      simp
    · next tail skipped =>
      obtain ⟨e, rfl, rfl, fits⟩ := sound.element first skipped
      simp only [Option.some.injEq, Prod.mk.injEq] at read
      obtain ⟨rfl, rfl⟩ := read
      exact ⟨[e], by simp, by simpa using fits, by simp [separated_singleton], by simp⟩
    · cases read

theorem Sound.fields_succ {fuel : Nat} (sound : Sound fuel) {depth : Nat}
    {acc : List (String × Json)} {cs : List Char} {v : Json} {rest : List Char}
    (read : readFields? (fuel + 1) depth acc cs = some (v, rest)) :
    ∃ ms : List Member, ms ≠ [] ∧ (∀ m ∈ ms, m.key.Paired ∧ Fits depth m.text m.tree) ∧
      cs = separated (ms.map Member.chars) ++ '\x7d' :: rest ∧
      v = .obj ((ms.map Member.field).foldl (fun m e => TextMap.insert e.1 e.2 m) acc) := by
  rw [readFields?] at read
  -- Each split is one thing that must stand there: the quotation mark, the key, the colon, the
  -- value, and the comma or the brace.
  split at read
  · next rest₀ opening =>
    obtain ⟨lead, hlead, rfl⟩ := skipGaps_sound opening
    split at read
    · cases read
    · next key rest₁ readKey =>
      obtain ⟨spelling, letters, rfl, quoted, paired, hkey⟩ := readString?_sound readKey
      split at read
      · next rest₂ colon =>
        obtain ⟨trail, htrail, rfl⟩ := skipGaps_sound colon
        split at read
        · cases read
        · next w rest₃ readValue =>
          rw [String.empty_append] at hkey
          subst key
          split at read
          · next tail skipped =>
            obtain ⟨e, rfl, rfl, fits⟩ := sound.element readValue skipped
            obtain ⟨ms, nonempty, each, rfl, rfl⟩ := sound.fields read
            refine ⟨⟨e, lead, spelling, trail, letters, ⟨hlead, htrail⟩, quoted⟩ :: ms, by simp,
              List.forall_mem_cons.2 ⟨⟨paired, fits⟩, each⟩, ?_, rfl⟩
            rw [List.map_cons, separated_cons (by simpa using nonempty)]
            simp [Member.chars]
          · next tail skipped =>
            obtain ⟨e, rfl, rfl, fits⟩ := sound.element readValue skipped
            simp only [Option.some.injEq, Prod.mk.injEq] at read
            obtain ⟨rfl, rfl⟩ := read
            refine ⟨[⟨e, lead, spelling, trail, letters, ⟨hlead, htrail⟩, quoted⟩], by simp,
              List.forall_mem_singleton.2 ⟨paired, fits⟩, ?_, rfl⟩
            simp [Member.chars, separated_singleton]
          · cases read
      · cases read
  · cases read

theorem Sound.value_succ {fuel : Nat} (sound : Sound fuel) {depth : Nat} {cs : List Char}
    {v : Json} {rest : List Char} (read : readValue? (fuel + 1) depth cs = some (v, rest)) :
    ∃ gap text t, Gap gap ∧ cs = gap ++ (text ++ rest) ∧ Fits depth text t ∧ t.value = v := by
  obtain ⟨gap, blank, hcs⟩ := skipGaps_sound (Eq.refl (skipGaps cs))
  suffices ∃ text t, skipGaps cs = text ++ rest ∧ Fits depth text t ∧ t.value = v by
    obtain ⟨text, t, skipped, fits, hvalue⟩ := this
    exact ⟨gap, text, t, blank, by rw [hcs, skipped], fits, hvalue⟩
  rw [readValue?] at read
  -- The first characters tell what is read; what none of them begins must be a number.
  split at read
  · next rest' skipped =>
    cases read
    exact ⟨_, _, skipped, ⟨.null, .null⟩, rfl⟩
  · next rest' skipped =>
    cases read
    exact ⟨_, _, skipped, ⟨.true, .bool⟩, rfl⟩
  · next rest' skipped =>
    cases read
    exact ⟨_, _, skipped, ⟨.false, .bool⟩, rfl⟩
  · next rest' skipped =>
    obtain ⟨⟨text, rest''⟩, readText, eq⟩ := Option.map_eq_some_iff.1 read
    cases eq
    obtain ⟨body, s, rfl, quoted, paired, rfl⟩ := readString?_sound readText
    refine ⟨'"' :: (body ++ ['"']), _, by simp [skipped], ⟨.str quoted, .str paired⟩, ?_⟩
    rw [String.empty_append, Tree.value]
  · next rest' skipped =>
    split at read
    · cases read
    · next depth =>
      split at read
      · next rest'' closing =>
        cases read
        obtain ⟨inner, hinner, rfl⟩ := skipGaps_sound closing
        exact ⟨'[' :: (inner ++ [']']), _, by simp [skipped], ⟨.noItems hinner, .arr (by simp)⟩,
          rfl⟩
      · rw [readItems?_skipGaps] at read
        obtain ⟨es, nonempty, each, rfl, rfl⟩ := sound.items read
        exact ⟨_, _, by simp [skipped], .items nonempty each, value_items es⟩
  · next rest' skipped =>
    split at read
    · cases read
    · next depth =>
      split at read
      · next rest'' closing =>
        cases read
        obtain ⟨inner, hinner, rfl⟩ := skipGaps_sound closing
        exact ⟨'\x7b' :: (inner ++ ['\x7d']), _, by simp [skipped],
          ⟨.noFields hinner, .obj (by simp) (by simp)⟩, rfl⟩
      · rw [readFields?_skipGaps] at read
        obtain ⟨ms, nonempty, each, rfl, rfl⟩ := sound.fields read
        exact ⟨_, _, by simp [skipped], .fields nonempty each, value_fields ms⟩
  · obtain ⟨⟨n, rest'⟩, readNumber, eq⟩ := Option.map_eq_some_iff.1 read
    cases eq
    obtain ⟨text, l, skipped, numeral, denoted⟩ := readNumber?_sound readNumber
    refine ⟨text, _, skipped, ⟨.num numeral, .num (Option.isSome_of_eq_some denoted)⟩, ?_⟩
    rw [Tree.value, Number.ofLiteral, denoted, Option.getD_some]

theorem sound (fuel : Nat) : Sound fuel := by
  -- The readers call each other with less fuel, so that one induction serves all of them.
  induction fuel with
  | zero =>
    refine ⟨?_, ?_, ?_⟩
    · intro depth cs v rest read
      rw [readValue?] at read
      cases read
    · intro depth acc cs v rest read
      rw [readItems?] at read
      cases read
    · intro depth acc cs v rest read
      rw [readFields?] at read
      cases read
  | succ fuel ih => exact ⟨ih.value_succ, ih.items_succ, ih.fields_succ⟩

/-! ## What is in the grammar is read -/

/-- The text of a value is read up to its end, whatever ends it, and begins neither with a blank nor
with the end of an array. -/
structure IsRead (depth : Nat) (text : List Char) (v : Json) : Prop where
  opening : ∃ c cs, text = c :: cs ∧ isGap c = false ∧ c ≠ ']'
  read : ∀ {fuel : Nat} {rest : List Char}, text.length ≤ fuel → Ends rest →
    readValue? fuel depth (text ++ rest) = some (v, rest)

theorem IsRead.of_opening {depth : Nat} {v : Json} {c : Char} {cs : List Char}
    (visible : isGap c = false) (opens : c ≠ ']')
    (read : ∀ {fuel : Nat} {rest : List Char}, cs.length ≤ fuel → Ends rest →
      readValue? (fuel + 1) depth (c :: (cs ++ rest)) = some (v, rest)) :
    IsRead depth (c :: cs) v where
  opening := ⟨c, cs, rfl, visible, opens⟩
  read := by
    intro fuel rest enough follow
    rw [List.length_cons] at enough
    obtain ⟨fuel, rfl⟩ : ∃ n, fuel = n + 1 := ⟨fuel - 1, by omega⟩
    exact read (by omega) follow

/-- A mark ends a value, with or without blanks in front of it. -/
theorem Ends.mark {gap : List Char} (blank : Gap gap) {c : Char}
    (mark : c = ',' ∨ c = ']' ∨ c = '\x7d') (rest : List Char) : Ends (gap ++ c :: rest) := by
  cases gap with
  | nil => rintro d ⟨⟩; exact .inr mark
  | cons b gap => rintro d ⟨⟩; exact .inl (blank b List.mem_cons_self)

/-- A value between blanks is read, and the blanks in front of the mark that ends it are skipped. -/
theorem IsRead.element {depth : Nat} {e : Element} (isRead : IsRead depth e.text e.tree.value)
    {fuel : Nat} (enough : e.chars.length ≤ fuel) {c : Char}
    (mark : c = ',' ∨ c = ']' ∨ c = '\x7d') (rest : List Char) :
    readValue? fuel depth (e.chars ++ c :: rest) = some (e.tree.value, e.after ++ c :: rest) ∧
      skipGaps (e.after ++ c :: rest) = c :: rest := by
  have visible : isGap c = false := by rcases mark with rfl | rfl | rfl <;> decide
  simp only [Element.chars, List.length_append] at enough
  constructor
  · rw [Element.chars, ← readValue?_skipGaps, List.append_assoc, skipGaps_append e.gaps.1,
      readValue?_skipGaps, List.append_assoc]
    exact isRead.read (by omega) (.mark e.gaps.2 mark rest)
  · rw [skipGaps_append e.gaps.2, skipGaps_cons visible]

theorem readItems?_elements {depth : Nat} {es : List Element} (nonempty : es ≠ [])
    (each : ∀ e ∈ es, IsRead depth e.text e.tree.value) (acc : List Json) {fuel : Nat}
    (enough : (separated (es.map Element.chars)).length < fuel) (rest : List Char) :
    readItems? fuel depth acc (separated (es.map Element.chars) ++ ']' :: rest) =
      some (.arr (acc.reverse ++ es.map (·.tree.value)), rest) := by
  induction es generalizing acc fuel with
  | nil => exact absurd rfl nonempty
  | cons e es ih =>
    obtain ⟨first, later⟩ := List.forall_mem_cons.1 each
    obtain ⟨fuel, rfl⟩ : ∃ n, fuel = n + 1 := ⟨fuel - 1, by omega⟩
    -- The last value is ended by the bracket, every other one by a comma.
    by_cases last : es = []
    · subst last
      rw [List.map_singleton, separated_singleton] at enough ⊢
      have bracket : ']' = ',' ∨ ']' = ']' ∨ ']' = '\x7d' := .inr (.inl rfl)
      obtain ⟨read, skipped⟩ := first.element (show e.chars.length ≤ fuel by omega) bracket rest
      rw [readItems?, read]
      simp only [skipped, List.reverse_cons, List.map_singleton]
    · have more : es.map Element.chars ≠ [] := by simpa using last
      rw [List.map_cons, separated_cons more, List.length_append, List.length_cons] at enough
      have tail := ih last later (e.tree.value :: acc) (show _ < fuel by omega)
      obtain ⟨read, skipped⟩ := first.element (show e.chars.length ≤ fuel by omega) (.inl rfl)
        (separated (es.map Element.chars) ++ ']' :: rest)
      rw [List.map_cons, separated_cons more, List.append_assoc, List.cons_append, readItems?, read]
      simp only [skipped, tail, List.reverse_cons, List.append_assoc, List.map_cons,
        List.singleton_append]

/-- How the reader goes on after a field: with the next one, or with the end of the object. -/
def afterField? (fuel depth : Nat) (fields : List (String × Json)) :
    List Char → Option (Json × List Char)
  | ',' :: rest => readFields? fuel depth fields rest
  | '\x7d' :: rest => some (.obj fields, rest)
  | _ => none

/-- A key is read with its colon, and the value behind it. -/
theorem IsRead.member {depth : Nat} {m : Member} (paired : m.key.Paired)
    (isRead : IsRead depth m.text m.tree.value) {fuel : Nat} (enough : m.chars.length ≤ fuel)
    (acc : List (String × Json)) {c : Char} (mark : c = ',' ∨ c = ']' ∨ c = '\x7d')
    (rest : List Char) :
    readFields? (fuel + 1) depth acc (m.chars ++ c :: rest) =
      afterField? fuel depth (TextMap.insert m.key.text m.tree.value acc) (c :: rest) := by
  simp only [Member.chars, List.length_append, List.length_cons] at enough
  obtain ⟨read, skipped⟩ := isRead.element (show m.toElement.chars.length ≤ fuel by omega) mark rest
  have key := m.spelled.read paired "" (m.trail ++ ':' :: (m.toElement.chars ++ c :: rest))
  rw [String.empty_append] at key
  rw [readFields?, Member.chars, List.append_assoc, skipGaps_append m.around.1, List.cons_append,
    skipGaps_cons (by decide)]
  simp only [List.append_assoc, List.cons_append, key, skipGaps_append m.around.2,
    skipGaps_cons (show isGap ':' = false by decide), read, skipped]
  rfl

theorem readFields?_members {depth : Nat} {ms : List Member} (nonempty : ms ≠ [])
    (each : ∀ m ∈ ms, m.key.Paired ∧ IsRead depth m.text m.tree.value)
    (acc : List (String × Json)) {fuel : Nat}
    (enough : (separated (ms.map Member.chars)).length < fuel) (rest : List Char) :
    readFields? fuel depth acc (separated (ms.map Member.chars) ++ '\x7d' :: rest) =
      some
        (.obj ((ms.map Member.field).foldl (fun m e => TextMap.insert e.1 e.2 m) acc), rest) := by
  induction ms generalizing acc fuel with
  | nil => exact absurd rfl nonempty
  | cons m ms ih =>
    obtain ⟨first, later⟩ := List.forall_mem_cons.1 each
    obtain ⟨fuel, rfl⟩ : ∃ n, fuel = n + 1 := ⟨fuel - 1, by omega⟩
    -- The last field is ended by the brace, every other one by a comma.
    by_cases last : ms = []
    · subst last
      rw [List.map_singleton, separated_singleton] at enough ⊢
      rw [first.2.member first.1 (by omega) acc (.inr (.inr rfl)) rest]
      rfl
    · have more : ms.map Member.chars ≠ [] := by simpa using last
      rw [List.map_cons, separated_cons more, List.length_append, List.length_cons] at enough
      have tail :=
        ih last later (TextMap.insert m.key.text m.tree.value acc) (show _ < fuel by omega)
      rw [List.map_cons, separated_cons more, List.append_assoc, List.cons_append,
        first.2.member first.1 (by omega) acc (.inl rfl)]
      exact tail

theorem Numeral.opening {text : List Char} {l : Number.Literal} (numeral : Numeral text l) :
    ∃ c cs, text = c :: cs ∧ (c = '-' ∨ isDigit c) := by
  obtain @⟨negative, whole, point, fraction, power, exponent, isWhole, -, -⟩ := numeral
  cases negative with
  | true => exact ⟨'-', _, rfl, .inl rfl⟩
  | false =>
    cases isWhole with
    | zero => exact ⟨'0', _, rfl, .inr (by decide)⟩
    | digits digits _ =>
      obtain ⟨d, ds, rfl⟩ := List.exists_cons_of_ne_nil digits.1
      exact ⟨d, _, rfl, .inr (digits.2 d List.mem_cons_self)⟩

theorem IsRead.num {depth : Nat} {text : List Char} {l : Number.Literal}
    (numeral : Numeral text l) {n : Number} (denoted : Number.ofLiteral? l = some n) :
    IsRead depth text (.num n) := by
  obtain ⟨c, cs, rfl, first⟩ := numeral.opening
  have visible : isGap c = false := by
    simp only [isGap, Bool.or_eq_false_iff, beq_eq_false_iff_ne]
    refine ⟨⟨⟨?_, ?_⟩, ?_⟩, ?_⟩ <;> rintro rfl <;> exact absurd first (by decide)
  refine .of_opening visible ?_ ?_
  · rintro rfl
    exact absurd first (by decide)
  · intro fuel rest _ follow
    have number : readNumber? (c :: (cs ++ rest)) = some (n, rest) :=
      numeral.read denoted follow
    rw [readValue?, skipGaps_cons visible]
    -- No other value begins with a digit or a minus sign.
    split
    case h_7 => rw [number]; rfl
    all_goals
      next heq =>
        obtain ⟨rfl, -⟩ := List.cons.inj heq
        exact absurd first (by decide)

theorem IsRead.str {depth : Nat} {cs : List Char} {s : Letters} (quoted : Quoted cs s)
    (paired : s.Paired) : IsRead depth ('"' :: (cs ++ ['"'])) (.str s.text) := by
  refine .of_opening (by decide) (by decide) ?_
  intro fuel rest _ _
  have text := quoted.read paired "" rest
  rw [String.empty_append] at text
  rw [readValue?, skipGaps_cons (by decide)]
  simp only [List.append_assoc, List.singleton_append, text, Option.map_some]

theorem readValue?_array (fuel depth : Nat) (cs : List Char) :
    readValue? (fuel + 1) (depth + 1) ('[' :: cs) =
      match skipGaps cs with
      | ']' :: rest => some (.arr [], rest)
      | rest => readItems? fuel depth [] rest := by
  rw [readValue?, skipGaps_cons (by decide)]
  rfl

theorem readValue?_object (fuel depth : Nat) (cs : List Char) :
    readValue? (fuel + 1) (depth + 1) ('\x7b' :: cs) =
      match skipGaps cs with
      | '\x7d' :: rest => some (.obj [], rest)
      | rest => readFields? fuel depth [] rest := by
  rw [readValue?, skipGaps_cons (by decide)]
  rfl

theorem IsRead.noItems {depth : Nat} {cs : List Char} (gap : Gap cs) :
    IsRead (depth + 1) ('[' :: (cs ++ [']'])) (.arr []) := by
  refine .of_opening (by decide) (by decide) ?_
  intro fuel rest _ _
  rw [readValue?_array, List.append_assoc, List.singleton_append, skipGaps_append gap,
    skipGaps_cons (by decide)]
  rfl

theorem IsRead.noFields {depth : Nat} {cs : List Char} (gap : Gap cs) :
    IsRead (depth + 1) ('\x7b' :: (cs ++ ['\x7d'])) (.obj []) := by
  refine .of_opening (by decide) (by decide) ?_
  intro fuel rest _ _
  rw [readValue?_object, List.append_assoc, List.singleton_append, skipGaps_append gap,
    skipGaps_cons (by decide)]
  rfl

/-- Parts begin with the first of them. -/
theorem separated_front (part : List Char) (parts : List (List Char)) :
    ∃ more, separated (part :: parts) = part ++ more := by
  by_cases last : parts = []
  · exact ⟨[], by rw [last, separated_singleton, List.append_nil]⟩
  · exact ⟨_, separated_cons last⟩

theorem IsRead.items {depth : Nat} {es : List Element} (nonempty : es ≠ [])
    (each : ∀ e ∈ es, IsRead depth e.text e.tree.value) :
    IsRead (depth + 1) ('[' :: (separated (es.map Element.chars) ++ [']']))
      (.arr (es.map (·.tree.value))) := by
  refine .of_opening (by decide) (by decide) ?_
  intro fuel rest enough _
  rw [List.length_append, List.length_singleton] at enough
  have read := readItems?_elements nonempty each [] enough rest
  -- The first value does not begin with the bracket that would end the array.
  have opens : ∀ more,
      skipGaps (separated (es.map Element.chars) ++ ']' :: rest) ≠ ']' :: more := by
    intro more closed
    obtain ⟨e, es, rfl⟩ := List.exists_cons_of_ne_nil nonempty
    obtain ⟨c, cs, text, visible, opens⟩ := (each e List.mem_cons_self).opening
    obtain ⟨tail, front⟩ := separated_front e.chars (es.map Element.chars)
    rw [List.map_cons, front, Element.chars, text] at closed
    simp only [List.append_assoc, List.cons_append, skipGaps_append e.gaps.1,
      skipGaps_cons visible] at closed
    exact opens (List.cons.inj closed).1
  rw [readValue?_array, List.append_assoc, List.singleton_append]
  split
  · next closed => exact absurd closed (opens _)
  · rw [readItems?_skipGaps]
    exact read

theorem IsRead.fields {depth : Nat} {ms : List Member} (nonempty : ms ≠ [])
    (each : ∀ m ∈ ms, m.key.Paired ∧ IsRead depth m.text m.tree.value) :
    IsRead (depth + 1) ('\x7b' :: (separated (ms.map Member.chars) ++ ['\x7d']))
      (.obj (TextMap.ofList (ms.map Member.field))) := by
  refine .of_opening (by decide) (by decide) ?_
  intro fuel rest enough _
  rw [List.length_append, List.length_singleton] at enough
  have read := readFields?_members nonempty each [] enough rest
  -- The first key does not begin with the brace that would end the object.
  have opens : ∀ more,
      skipGaps (separated (ms.map Member.chars) ++ '\x7d' :: rest) ≠ '\x7d' :: more := by
    intro more closed
    obtain ⟨m, ms, rfl⟩ := List.exists_cons_of_ne_nil nonempty
    obtain ⟨tail, front⟩ := separated_front m.chars (ms.map Member.chars)
    rw [List.map_cons, front, Member.chars] at closed
    simp only [List.append_assoc, List.cons_append, skipGaps_append m.around.1,
      skipGaps_cons (show isGap '"' = false by decide)] at closed
    exact absurd (List.cons.inj closed).1 (by decide)
  rw [readValue?_object, List.append_assoc, List.singleton_append]
  split
  · next closed => exact absurd closed (opens _)
  · rw [readFields?_skipGaps]
    exact read

/-- **A text of the grammar is read**, if it is within the limits. -/
theorem Spells.isRead {text : List Char} {t : Tree} (spells : Spells text t) {depth : Nat}
    (within : t.Within depth) : IsRead depth text t.value := by
  induction spells generalizing depth with
  | null => exact .of_opening (by decide) (by decide) fun _ _ => rfl
  | true => exact .of_opening (by decide) (by decide) fun _ _ => rfl
  | false => exact .of_opening (by decide) (by decide) fun _ _ => rfl
  | num numeral =>
    cases within with
    | num fits =>
      obtain ⟨n, denoted⟩ := Option.isSome_iff_exists.1 fits
      rw [Tree.value, Number.ofLiteral, denoted, Option.getD_some]
      exact .num numeral denoted
  | str quoted =>
    cases within with
    | str paired => exact .str quoted paired
  | noItems gap =>
    cases within with
    | arr => exact .noItems gap
  | items nonempty _ ih =>
    cases within with
    | arr each =>
      rw [value_items]
      exact .items nonempty fun e he => ih e he (each _ (List.mem_map_of_mem he))
  | noFields gap =>
    cases within with
    | obj => exact .noFields gap
  | fields nonempty _ ih =>
    cases within with
    | obj keys each =>
      rw [value_fields]
      exact .fields nonempty fun m hm =>
        ⟨keys _ (List.mem_map_of_mem hm), ih m hm (each _ (List.mem_map_of_mem hm))⟩

/-- **The reader reads exactly the JSON texts** that are within its limits. -/
theorem parseChars?_eq_some_iff {depth : Nat} {cs : List Char} {v : Json} :
    parseChars? depth cs = some v ↔ ∃ t, IsText cs t ∧ t.Within depth ∧ t.value = v := by
  constructor
  · intro parsed
    rw [parseChars?] at parsed
    split at parsed
    · next w rest read =>
      split at parsed
      · next done =>
        cases parsed
        obtain ⟨e, rfl, rfl, fits⟩ := (sound _).element read done
        exact ⟨e.tree, ⟨e, List.append_nil _, rfl, fits.spells⟩, fits.within, rfl⟩
      · cases parsed
    · cases parsed
  · rintro ⟨_, ⟨e, rfl, rfl, spells⟩, within, rfl⟩
    have follow : Ends e.after := by
      intro c hc
      exact .inl (e.gaps.2 c (List.mem_of_mem_head? hc))
    have read : readValue? (e.chars.length + 1) depth e.chars =
        some (e.tree.value, e.after) := by
      rw [Element.chars, ← readValue?_skipGaps, skipGaps_append e.gaps.1, readValue?_skipGaps]
      refine (spells.isRead within).read ?_ follow
      simp only [List.length_append]
      omega
    have done : skipGaps e.after = [] := by
      rw [skipGaps_eq_dropWhile, List.dropWhile_eq_nil_iff]
      exact e.gaps.2
    simp only [parseChars?, read, done, if_true]

/-! ## Bytes -/

/-- The bytes of a JSON text, in UTF-8. -/
def IsJson (body : List UInt8) (t : Tree) : Prop :=
  ∃ s : String, body = Frame.utf8 s ∧ IsText s.toList t

/-- The bytes of a text are read as the text. -/
theorem parseBytes?_utf8 (s : String) : parseBytes? (Frame.utf8 s).toByteArray = parse? s := by
  have bytes : (Frame.utf8 s).toByteArray = s.toByteArray := by
    apply ByteArray.ext
    simp [Frame.utf8]
  have valid := s.isValidUTF8
  simp [parseBytes?, bytes, String.fromUTF8?, String.fromUTF8, valid]

/-- **The reader reads exactly the bytes of JSON texts** that are within its limits. -/
theorem parseBytes?_eq_some_iff {body : List UInt8} {v : Json} :
    parseBytes? body.toByteArray = some v ↔
      ∃ t, IsJson body t ∧ t.Within maxDepth ∧ t.value = v := by
  constructor
  · intro parsed
    obtain ⟨s, decoded, parsed⟩ := Option.bind_eq_some_iff.1 parsed
    obtain ⟨t, text, within, hvalue⟩ := parseChars?_eq_some_iff.1 parsed
    refine ⟨t, ⟨s, ?_, text⟩, within, hvalue⟩
    rw [String.fromUTF8?] at decoded
    split at decoded
    · cases decoded
      simp [Frame.utf8, String.fromUTF8]
    · cases decoded
  · rintro ⟨t, ⟨s, rfl, text⟩, within, hvalue⟩
    rw [parseBytes?_utf8]
    exact parseChars?_eq_some_iff.2 ⟨t, text, within, hvalue⟩

end WorkerBridge.Json
