/-
  WorkerBridge.Proofs.JsonGrammar

  The grammar of JSON texts, the values that texts hold, and the limits within
  which they are read.

  `Spells` says which characters spell which tree, and nothing about how they are
  read: blanks stand around values and keys, a number has no leading zero, and a
  character of a string is escaped where it must be. A tree keeps what is written:
  numbers of any size, escaped surrogates without a partner, nesting of any depth,
  and all fields of an object. `Tree.value` is the value that it stands for, in
  which of two fields with one key the later counts. `Tree.Within` are the limits
  of the reader, which belong to it and not to the grammar.

  Blanks, strings and numbers are what the reader takes in one go. Each has two
  lemmas: what is read of it is a word of the grammar (`_sound`), and a word of the
  grammar that is within the limits is read up to its end, if what follows does not
  go on with it (`.read`).
-/
import Mathlib.Data.List.TakeDrop
import Mathlib.Data.List.TakeWhile
import WorkerBridge.Json.Parser

namespace WorkerBridge.Json

open WorkerBridge.Decimal

/-! ## The grammar -/

/-- Blanks between the parts of a text. -/
def Gap (cs : List Char) : Prop :=
  ∀ c ∈ cs, isGap c

/-- What a string holds, one character after the other. A surrogate that is escaped without its
partner stands for no character. -/
abbrev Letters := List (Option Char)

/-- The text begins with an escaped low surrogate. -/
def OpensLow (cs : List Char) : Prop :=
  ∃ e f g h low rest, cs = '\\' :: 'u' :: e :: f :: g :: h :: rest ∧
    hexUnit? e f g h = some low ∧ 0xDC00 ≤ low ∧ low < 0xE000

/-- What stands between the quotation marks of a string, and what it holds. -/
inductive Quoted : List Char → Letters → Prop where
  | nil : Quoted [] []
  | plain {c : Char} {cs : List Char} {s : Letters} (quote : c ≠ '"') (backslash : c ≠ '\\')
      (printable : 0x20 ≤ c.toNat) (rest : Quoted cs s) : Quoted (c :: cs) (some c :: s)
  | short {e c : Char} {cs : List Char} {s : Letters} (stands : shortEscape? e = some c)
      (rest : Quoted cs s) : Quoted ('\\' :: e :: cs) (some c :: s)
  | unit {a b c d : Char} {n : Nat} {cs : List Char} {s : Letters}
      (digits : hexUnit? a b c d = some n) (whole : n < 0xD800 ∨ 0xE000 ≤ n)
      (rest : Quoted cs s) :
      Quoted ('\\' :: 'u' :: a :: b :: c :: d :: cs) (some (Char.ofNat n) :: s)
  | pair {a b c d e f g h : Char} {high low : Nat} {cs : List Char} {s : Letters}
      (first : hexUnit? a b c d = some high) (isHigh : 0xD800 ≤ high ∧ high < 0xDC00)
      (second : hexUnit? e f g h = some low) (isLow : 0xDC00 ≤ low ∧ low < 0xE000)
      (rest : Quoted cs s) :
      Quoted ('\\' :: 'u' :: a :: b :: c :: d :: '\\' :: 'u' :: e :: f :: g :: h :: cs)
        (some (Char.ofNat (0x10000 + (high - 0xD800) * 0x400 + (low - 0xDC00))) :: s)
  | lone {a b c d : Char} {n : Nat} {cs : List Char} {s : Letters}
      (digits : hexUnit? a b c d = some n) (surrogate : 0xD800 ≤ n ∧ n < 0xE000)
      (alone : n < 0xDC00 → ¬ OpensLow cs) (rest : Quoted cs s) :
      Quoted ('\\' :: 'u' :: a :: b :: c :: d :: cs) (none :: s)

/-- At least one digit, and nothing else. -/
def Digits (ds : List Char) : Prop :=
  ds ≠ [] ∧ ∀ d ∈ ds, isDigit d

/-- The digits before the point: a zero alone, or digits of which the first is no zero. -/
inductive Whole : List Char → Prop where
  | zero : Whole ['0']
  | digits {ds : List Char} (digits : Digits ds) (first : ds.head? ≠ some '0') : Whole ds

/-- A point with the digits after it, or nothing. -/
inductive Fraction : List Char → List Char → Prop where
  | absent : Fraction [] []
  | present {ds : List Char} (digits : Digits ds) : Fraction ('.' :: ds) ds

/-- An exponent with its sign and its digits, or nothing. -/
inductive Power : List Char → Option (Bool × List Char) → Prop where
  | absent : Power [] none
  | bare {mark : Char} (letter : mark = 'e' ∨ mark = 'E') {ds : List Char} (digits : Digits ds) :
      Power (mark :: ds) (some (false, ds))
  | plus {mark : Char} (letter : mark = 'e' ∨ mark = 'E') {ds : List Char} (digits : Digits ds) :
      Power (mark :: '+' :: ds) (some (false, ds))
  | minus {mark : Char} (letter : mark = 'e' ∨ mark = 'E') {ds : List Char} (digits : Digits ds) :
      Power (mark :: '-' :: ds) (some (true, ds))

/-- A number: sign, digits before the point, fraction and exponent. -/
inductive Numeral : List Char → Number.Literal → Prop where
  | mk (negative : Bool) {whole point fraction power : List Char}
      {exponent : Option (Bool × List Char)} (isWhole : Whole whole)
      (isFraction : Fraction point fraction) (isPower : Power power exponent) :
      Numeral ((if negative then ['-'] else []) ++ (whole ++ (point ++ power)))
        ⟨negative, whole, fraction, exponent⟩

/-- A JSON text taken apart. Numbers are kept as they are written, and all fields of an object in
their order. -/
inductive Tree where
  | null
  | bool (b : Bool)
  | num (l : Number.Literal)
  | str (s : Letters)
  | arr (items : List Tree)
  | obj (fields : List (Letters × Tree))
deriving Inhabited

/-- A value with the blanks around it. -/
structure Element where
  before : List Char
  text : List Char
  after : List Char
  tree : Tree
  gaps : Gap before ∧ Gap after

/-- The characters of a value and of the blanks around it. -/
def Element.chars (e : Element) : List Char :=
  e.before ++ (e.text ++ e.after)

/-- A key with the blanks around it, and the value that stands under it. -/
structure Member extends Element where
  lead : List Char
  spelling : List Char
  trail : List Char
  key : Letters
  around : Gap lead ∧ Gap trail
  spelled : Quoted spelling key

/-- The characters of a key and of what stands under it. -/
def Member.chars (m : Member) : List Char :=
  m.lead ++ '"' :: (m.spelling ++ '"' :: (m.trail ++ ':' :: m.toElement.chars))

/-- The key and what stands under it. -/
def Member.entry (m : Member) : Letters × Tree :=
  (m.key, m.tree)

/-- The parts of an array or of an object, with commas between them. -/
def separated (parts : List (List Char)) : List Char :=
  List.intercalate [','] parts

/-- **The grammar of JSON.** Which characters spell which tree. -/
inductive Spells : List Char → Tree → Prop where
  | null : Spells ['n', 'u', 'l', 'l'] .null
  | true : Spells ['t', 'r', 'u', 'e'] (.bool true)
  | false : Spells ['f', 'a', 'l', 's', 'e'] (.bool false)
  | num {cs : List Char} {l : Number.Literal} (numeral : Numeral cs l) : Spells cs (.num l)
  | str {cs : List Char} {s : Letters} (quoted : Quoted cs s) :
      Spells ('"' :: (cs ++ ['"'])) (.str s)
  | noItems {cs : List Char} (gap : Gap cs) : Spells ('[' :: (cs ++ [']'])) (.arr [])
  | items {es : List Element} (nonempty : es ≠ []) (each : ∀ e ∈ es, Spells e.text e.tree) :
      Spells ('[' :: (separated (es.map Element.chars) ++ [']'])) (.arr (es.map (·.tree)))
  | noFields {cs : List Char} (gap : Gap cs) : Spells ('\x7b' :: (cs ++ ['\x7d'])) (.obj [])
  | fields {ms : List Member} (nonempty : ms ≠ []) (each : ∀ m ∈ ms, Spells m.text m.tree) :
      Spells ('\x7b' :: (separated (ms.map Member.chars) ++ ['\x7d']))
        (.obj (ms.map Member.entry))

/-- A text that holds one value, and nothing else but blanks. -/
def IsText (cs : List Char) (t : Tree) : Prop :=
  ∃ e : Element, cs = e.chars ∧ t = e.tree ∧ Spells e.text t

/-! ## What a text stands for -/

/-- The text of a string. What stands for no character is replaced. -/
def Letters.text (s : Letters) : String :=
  String.ofList (s.map (·.getD '\ufffd'))

/-- The number that a literal denotes. Beyond all floating-point numbers it is infinite. -/
def Number.ofLiteral (l : Number.Literal) : Number :=
  (ofLiteral? l).getD (.float ⟨if l.negative then 0xFFF0000000000000 else 0x7FF0000000000000⟩)

mutual

/-- The value of a tree. Of the fields of an object with one key the last counts. -/
def Tree.value : Tree → Json
  | .null => .null
  | .bool b => .bool b
  | .num l => .num (Number.ofLiteral l)
  | .str s => .str s.text
  | .arr items => .arr (valuesOfItems items)
  | .obj fields => .obj (TextMap.ofList (valuesOfFields fields))

/-- The values of the items of an array. -/
def valuesOfItems : List Tree → List Json
  | [] => []
  | t :: rest => t.value :: valuesOfItems rest

/-- The keys of an object, each with the value under it. -/
def valuesOfFields : List (Letters × Tree) → List (String × Json)
  | [] => []
  | (key, t) :: rest => (key.text, t.value) :: valuesOfFields rest

end

theorem valuesOfItems_eq_map (items : List Tree) : valuesOfItems items = items.map Tree.value := by
  induction items with
  | nil => rfl
  | cons t items ih => rw [valuesOfItems, ih, List.map_cons]

theorem valuesOfFields_eq_map (fields : List (Letters × Tree)) :
    valuesOfFields fields = fields.map fun f => (f.1.text, f.2.value) := by
  induction fields with
  | nil => rfl
  | cons f fields ih => rw [valuesOfFields, ih, List.map_cons]

/-- The key and the value. -/
def Member.field (m : Member) : String × Json :=
  (m.key.text, m.tree.value)

theorem value_items (es : List Element) :
    (Tree.arr (es.map (·.tree))).value = .arr (es.map (·.tree.value)) := by
  rw [Tree.value, valuesOfItems_eq_map, List.map_map]
  rfl

theorem value_fields (ms : List Member) :
    (Tree.obj (ms.map Member.entry)).value = .obj (TextMap.ofList (ms.map Member.field)) := by
  rw [Tree.value, valuesOfFields_eq_map, List.map_map]
  rfl

/-! ## The limits of the reader -/

/-- No surrogate is escaped without its partner. -/
def Letters.Paired (s : Letters) : Prop :=
  ∀ c ∈ s, c.isSome

/-- **What the reader takes.** Arrays and objects are nested at most `depth` deep, no number is
beyond all floating-point numbers when it is computed, and no surrogate is escaped without its
partner. -/
inductive Tree.Within : (depth : Nat) → Tree → Prop where
  | null {depth : Nat} : Within depth .null
  | bool {depth : Nat} {b : Bool} : Within depth (.bool b)
  | num {depth : Nat} {l : Number.Literal} (fits : (Number.ofLiteral? l).isSome) :
      Within depth (.num l)
  | str {depth : Nat} {s : Letters} (paired : s.Paired) : Within depth (.str s)
  | arr {depth : Nat} {items : List Tree} (each : ∀ t ∈ items, Within depth t) :
      Within (depth + 1) (.arr items)
  | obj {depth : Nat} {fields : List (Letters × Tree)} (keys : ∀ f ∈ fields, f.1.Paired)
      (each : ∀ f ∈ fields, Within depth f.2) : Within (depth + 1) (.obj fields)

/-! ## Blanks -/

theorem Gap.nil : Gap [] :=
  fun _ hc => absurd hc List.not_mem_nil

theorem skipGaps_eq_dropWhile (cs : List Char) : skipGaps cs = cs.dropWhile isGap := by
  induction cs with
  | nil => rfl
  | cons c cs ih =>
    rw [skipGaps, List.dropWhile_cons, ih]

/-- What is skipped is blank. -/
theorem skipGaps_sound {cs rest : List Char} (skipped : skipGaps cs = rest) :
    ∃ gap, Gap gap ∧ cs = gap ++ rest := by
  rw [skipGaps_eq_dropWhile] at skipped
  refine ⟨cs.takeWhile isGap, fun c hc => List.mem_takeWhile_imp hc, ?_⟩
  rw [← skipped, List.takeWhile_append_dropWhile]

/-- Blanks are skipped up to the first character that is none. -/
theorem skipGaps_append {gap : List Char} (blank : Gap gap) (cs : List Char) :
    skipGaps (gap ++ cs) = skipGaps cs := by
  rw [skipGaps_eq_dropWhile, skipGaps_eq_dropWhile, List.dropWhile_append_of_pos blank]

theorem skipGaps_cons {c : Char} (visible : isGap c = false) (cs : List Char) :
    skipGaps (c :: cs) = c :: cs := by
  rw [skipGaps, if_neg (by simp [visible])]

/-! ## Strings -/

theorem Letters.Paired.nil : Letters.Paired [] :=
  fun _ none => absurd none List.not_mem_nil

theorem Letters.Paired.cons (c : Char) {s : Letters} (paired : s.Paired) :
    Letters.Paired (some c :: s) :=
  List.forall_mem_cons.2 ⟨rfl, paired⟩

/-- Letters that are characters stand for these. -/
theorem Letters.text_map_some (cs : List Char) :
    Letters.text (cs.map some) = String.ofList cs := by
  rw [Letters.text, List.map_map]
  exact congrArg String.ofList (List.map_id cs)

theorem Letters.paired_map_some (cs : List Char) : Letters.Paired (cs.map some) :=
  List.forall_mem_map.2 fun _ _ => rfl

/-- A character goes behind the text that was read before it. -/
theorem push_append_text (acc : String) (c : Char) (s : Letters) :
    acc.push c ++ s.text = acc ++ Letters.text (some c :: s) := by
  apply String.toList_injective
  simp [Letters.text]

/-- What is read of a string, up to its closing mark, is what it holds. -/
theorem readString?_sound {acc : String} {cs : List Char} {text : String} {rest : List Char}
    (read : readString? acc cs = some (text, rest)) :
    ∃ body s, cs = body ++ '"' :: rest ∧ Quoted body s ∧ s.Paired ∧ text = acc ++ s.text := by
  -- One case for each way in which the reader goes on; what it refuses is no result.
  fun_induction readString? acc cs with
  | case2 acc cs =>
    simp only [Option.some.injEq, Prod.mk.injEq] at read
    obtain ⟨rfl, rfl⟩ := read
    exact ⟨[], [], rfl, .nil, .nil, by simp [Letters.text]⟩
  | case5 acc a b c d high first isHigh e f g h cs low second isLow point ih =>
    obtain ⟨body, s, rfl, quoted, paired, rfl⟩ := ih read
    exact ⟨_, _, rfl, .pair first isHigh second isLow quoted, paired.cons _, push_append_text ..⟩
  | case9 acc a b c d cs n digits notHigh notLow ih =>
    obtain ⟨body, s, rfl, quoted, paired, rfl⟩ := ih read
    exact ⟨_, _, rfl, .unit digits (by omega) quoted, paired.cons _, push_append_text ..⟩
  | case10 acc e cs _ c stands ih =>
    obtain ⟨body, s, rfl, quoted, paired, rfl⟩ := ih read
    exact ⟨_, _, rfl, .short stands quoted, paired.cons _, push_append_text ..⟩
  | case13 acc c cs quote _ _ plain ih =>
    obtain ⟨body, s, rfl, quoted, paired, rfl⟩ := ih read
    rw [not_or, Nat.not_lt] at plain
    exact ⟨_, _, rfl, .plain quote plain.1 plain.2 quoted, paired.cons _, push_append_text ..⟩
  | _ => cases read

/-- A character that stands for itself is read as itself. -/
theorem readString?_plain (acc : String) {c : Char} (rest : List Char) (quote : c ≠ '"')
    (backslash : c ≠ '\\') (printable : ¬ c.toNat < 0x20) :
    readString? acc (c :: rest) = readString? (acc.push c) rest := by
  rw [readString?.eq_def]
  split
  · simp at *
  · simp_all
  · simp_all
  · simp_all
  · next heq =>
    obtain ⟨rfl, rfl⟩ := List.cons.inj heq
    rw [if_neg (by simp [backslash, printable])]

/-- **A quoted string is read** up to its closing mark. -/
theorem Quoted.read {body : List Char} {s : Letters} (quoted : Quoted body s) (paired : s.Paired)
    (acc : String) (rest : List Char) :
    readString? acc (body ++ '"' :: rest) = some (acc ++ s.text, rest) := by
  induction quoted generalizing acc with
  | nil => simp [readString?, Letters.text]
  | plain quote backslash printable _ ih =>
    rw [List.cons_append, readString?_plain acc _ quote backslash (by omega),
      ih (List.forall_mem_cons.1 paired).2, push_append_text]
  | @short e c cs s stands _ ih =>
    -- No letter of a short escape is that of the long one.
    have letter : e ≠ 'u' := by
      rintro rfl
      cases stands
    rw [List.cons_append, List.cons_append, readString?]
    · rw [stands]
      simp only
      rw [ih (List.forall_mem_cons.1 paired).2, push_append_text]
    · rintro a b c d rest rfl
      exact absurd rfl letter
  | unit digits whole _ ih =>
    simp only [List.cons_append]
    rw [readString?, digits]
    simp only
    rw [if_neg (by omega), if_neg (by omega), ih (List.forall_mem_cons.1 paired).2,
      push_append_text]
  | pair first isHigh second isLow _ ih =>
    simp only [List.cons_append]
    rw [readString?, first]
    simp only
    rw [if_pos isHigh, second]
    simp only
    rw [if_pos isLow, ih (List.forall_mem_cons.1 paired).2, push_append_text]
  | lone => cases (List.forall_mem_cons.1 paired).1

/-! ## Numbers -/

/-- What may follow a value: nothing, a blank, or a mark that ends it. -/
def Ends (rest : List Char) : Prop :=
  ∀ c ∈ rest.head?, isGap c ∨ c = ',' ∨ c = ']' ∨ c = '\x7d'

/-- A text that does not go on with a digit. -/
def NoDigit (rest : List Char) : Prop :=
  ∀ c ∈ rest.head?, isDigit c = false

theorem span_digits_sound {cs ds rest : List Char} (span : cs.span isDigit = (ds, rest))
    (nonempty : ds ≠ []) : cs = ds ++ rest ∧ Digits ds := by
  rw [List.span_eq_takeWhile_dropWhile, Prod.mk.injEq] at span
  obtain ⟨rfl, rfl⟩ := span
  exact ⟨List.takeWhile_append_dropWhile.symm, nonempty, fun d hd => List.mem_takeWhile_imp hd⟩

theorem Digits.span {ds rest : List Char} (digits : Digits ds) (follow : NoDigit rest) :
    (ds ++ rest).span isDigit = (ds, rest) := by
  have behind : rest.takeWhile isDigit = [] ∧ rest.dropWhile isDigit = rest := by
    cases rest with
    | nil => exact ⟨rfl, rfl⟩
    | cons c rest => simp [follow c rfl]
  rw [List.span_eq_takeWhile_dropWhile, List.takeWhile_append_of_pos digits.2,
    List.dropWhile_append_of_pos digits.2, behind.1, behind.2, List.append_nil]

theorem readWhole?_sound {cs whole rest : List Char} (read : readWhole? cs = some (whole, rest)) :
    cs = whole ++ rest ∧ Whole whole := by
  unfold readWhole? at read
  split at read
  · simp only [Option.some.injEq, Prod.mk.injEq] at read
    obtain ⟨rfl, rfl⟩ := read
    exact ⟨rfl, .zero⟩
  · next notZero =>
    split at read
    · cases read
    · next ds rest' nonempty span =>
      simp only [Option.some.injEq, Prod.mk.injEq] at read
      obtain ⟨rfl, rfl⟩ := read
      obtain ⟨rfl, digits⟩ := span_digits_sound span nonempty
      refine ⟨rfl, .digits digits ?_⟩
      -- A zero in front would have been read by itself.
      intro first
      cases ds with
      | nil => cases first
      | cons d ds =>
        cases first
        exact notZero (ds ++ rest') rfl

theorem Whole.read {whole rest : List Char} (isWhole : Whole whole) (follow : NoDigit rest) :
    readWhole? (whole ++ rest) = some (whole, rest) := by
  cases isWhole with
  | zero => rfl
  | digits digits first =>
    obtain ⟨d, ds, rfl⟩ := List.exists_cons_of_ne_nil digits.1
    have span := digits.span follow
    rw [List.cons_append] at span ⊢
    rw [readWhole?, span]
    rintro _ ⟨rfl, -⟩
    exact first rfl

theorem readFraction?_sound {cs fraction rest : List Char}
    (read : readFraction? cs = some (fraction, rest)) :
    ∃ point, cs = point ++ rest ∧ Fraction point fraction := by
  unfold readFraction? at read
  split at read
  · split at read
    · cases read
    · next ds rest' nonempty span =>
      simp only [Option.some.injEq, Prod.mk.injEq] at read
      obtain ⟨rfl, rfl⟩ := read
      obtain ⟨rfl, digits⟩ := span_digits_sound span nonempty
      exact ⟨'.' :: ds, rfl, .present digits⟩
  · simp only [Option.some.injEq, Prod.mk.injEq] at read
    obtain ⟨rfl, rfl⟩ := read
    exact ⟨[], rfl, .absent⟩

theorem Fraction.read {point fraction rest : List Char} (isFraction : Fraction point fraction)
    (follow : NoDigit rest) (noPoint : rest.head? ≠ some '.') :
    readFraction? (point ++ rest) = some (fraction, rest) := by
  cases isFraction with
  | absent =>
    rw [List.nil_append, readFraction?]
    rintro _ rfl
    exact noPoint rfl
  | present digits =>
    rw [List.cons_append, readFraction?, digits.span follow]
    obtain ⟨d, ds, rfl⟩ := List.exists_cons_of_ne_nil digits.1
    rfl

theorem readExponent?_sound {cs ds rest : List Char} {down : Bool} {mark : Char}
    (letter : mark = 'e' ∨ mark = 'E') (read : readExponent? cs = some ((down, ds), rest)) :
    ∃ power, mark :: cs = power ++ rest ∧ Power power (some (down, ds)) := by
  unfold readExponent? at read
  split at read
  next down' cs' hsign =>
    split at read
    · cases read
    · next ds' rest' nonempty span =>
      simp only [Option.some.injEq, Prod.mk.injEq] at read
      obtain ⟨⟨rfl, rfl⟩, rfl⟩ := read
      obtain ⟨rfl, digits⟩ := span_digits_sound span nonempty
      -- The sign that was split off tells which of the spellings it is.
      split at hsign
      all_goals
        obtain ⟨rfl, rfl⟩ := Prod.mk.inj hsign
      · exact ⟨mark :: '-' :: ds', rfl, .minus letter digits⟩
      · exact ⟨mark :: '+' :: ds', rfl, .plus letter digits⟩
      · exact ⟨mark :: ds', rfl, .bare letter digits⟩

theorem readPower?_sound {cs rest : List Char} {exponent : Option (Bool × List Char)}
    (read : readPower? cs = some (exponent, rest)) :
    ∃ power, cs = power ++ rest ∧ Power power exponent := by
  unfold readPower? at read
  split at read
  · obtain ⟨⟨⟨down, ds⟩, rest'⟩, digits, eq⟩ := Option.map_eq_some_iff.1 read
    obtain ⟨rfl, rfl⟩ := Prod.mk.inj eq
    exact readExponent?_sound (.inl rfl) digits
  · obtain ⟨⟨⟨down, ds⟩, rest'⟩, digits, eq⟩ := Option.map_eq_some_iff.1 read
    obtain ⟨rfl, rfl⟩ := Prod.mk.inj eq
    exact readExponent?_sound (.inr rfl) digits
  · simp only [Option.some.injEq, Prod.mk.injEq] at read
    obtain ⟨rfl, rfl⟩ := read
    exact ⟨[], rfl, .absent⟩

/-- The digits of an exponent are read behind each of its signs. -/
theorem Digits.readExponent? {ds rest : List Char} (digits : Digits ds) (follow : NoDigit rest) :
    readExponent? (ds ++ rest) = some ((false, ds), rest) ∧
      readExponent? ('+' :: (ds ++ rest)) = some ((false, ds), rest) ∧
      readExponent? ('-' :: (ds ++ rest)) = some ((true, ds), rest) := by
  have span := digits.span follow
  obtain ⟨d, ds, rfl⟩ := List.exists_cons_of_ne_nil digits.1
  have digit : isDigit d := digits.2 d List.mem_cons_self
  rw [List.cons_append] at span ⊢
  refine ⟨?_, ?_, ?_⟩
  · -- A digit is neither of the signs.
    unfold Json.readExponent?
    split
    next hsign =>
      split at hsign
      · next heq => cases heq; exact absurd digit (by decide)
      · next heq => cases heq; exact absurd digit (by decide)
      · obtain ⟨rfl, rfl⟩ := Prod.mk.inj hsign
        rw [span]
  · simp only [Json.readExponent?, span]
  · simp only [Json.readExponent?, span]

theorem readPower?_mark {mark : Char} (letter : mark = 'e' ∨ mark = 'E') (cs : List Char) :
    readPower? (mark :: cs) = (readExponent? cs).map fun (e, rest) => (some e, rest) := by
  rcases letter with rfl | rfl <;> rfl

/-- What ends a value does not go on with a number. -/
theorem Ends.noNumber {rest : List Char} (follow : Ends rest) {c : Char} (hc : c ∈ rest.head?) :
    isDigit c = false ∧ c ≠ '.' ∧ c ≠ 'e' ∧ c ≠ 'E' := by
  have mark := follow c hc
  simp only [isGap, Bool.or_eq_true, beq_iff_eq] at mark
  rcases mark with ((((rfl | rfl) | rfl) | rfl) | rfl | rfl | rfl) <;> decide

theorem Power.read {power rest : List Char} {exponent : Option (Bool × List Char)}
    (isPower : Power power exponent) (follow : Ends rest) :
    readPower? (power ++ rest) = some (exponent, rest) := by
  have noDigit : NoDigit rest := fun c hc => (follow.noNumber hc).1
  cases isPower with
  | absent =>
    rw [List.nil_append, readPower?]
    · rintro _ rfl
      exact (follow.noNumber rfl).2.2.1 rfl
    · rintro _ rfl
      exact (follow.noNumber rfl).2.2.2 rfl
  | bare letter digits =>
    rw [List.cons_append, readPower?_mark letter, (digits.readExponent? noDigit).1]
    rfl
  | plus letter digits =>
    rw [List.cons_append, List.cons_append, readPower?_mark letter,
      (digits.readExponent? noDigit).2.1]
    rfl
  | minus letter digits =>
    rw [List.cons_append, List.cons_append, readPower?_mark letter,
      (digits.readExponent? noDigit).2.2]
    rfl

/-- An exponent begins with its letter. -/
theorem Power.head {power rest : List Char} {exponent : Option (Bool × List Char)}
    (isPower : Power power exponent) (follow : Ends rest) {c : Char}
    (hc : c ∈ (power ++ rest).head?) : isDigit c = false ∧ c ≠ '.' := by
  cases isPower with
  | absent =>
    obtain ⟨noDigit, noPoint, -⟩ := follow.noNumber hc
    exact ⟨noDigit, noPoint⟩
  | bare letter _ => cases hc; rcases letter with rfl | rfl <;> decide
  | plus letter _ => cases hc; rcases letter with rfl | rfl <;> decide
  | minus letter _ => cases hc; rcases letter with rfl | rfl <;> decide

theorem readNumber?_sound {cs : List Char} {n : Number} {rest : List Char}
    (read : readNumber? cs = some (n, rest)) :
    ∃ text l, cs = text ++ rest ∧ Numeral text l ∧ Number.ofLiteral? l = some n := by
  have sign : cs = (if (readSign cs).1 then ['-'] else []) ++ (readSign cs).2 := by
    unfold readSign
    split <;> rfl
  simp only [readNumber?, Option.bind_eq_bind, Option.pure_def, Option.bind_eq_some_iff,
    Prod.exists, Option.some.injEq, Prod.mk.injEq] at read
  obtain ⟨whole, _, readWhole, fraction, _, readFraction, exponent, _, readPower, n, denoted, rfl,
    rfl⟩ := read
  obtain ⟨hwhole, isWhole⟩ := readWhole?_sound readWhole
  obtain ⟨point, rfl, isFraction⟩ := readFraction?_sound readFraction
  obtain ⟨power, rfl, isPower⟩ := readPower?_sound readPower
  refine ⟨_, _, ?_, .mk _ isWhole isFraction isPower, denoted⟩
  rw [hwhole] at sign
  simpa only [List.append_assoc] using sign

/-- Digits before the point are no sign. -/
theorem Whole.readSign {whole : List Char} (isWhole : Whole whole) (negative : Bool)
    (rest : List Char) :
    readSign ((if negative then ['-'] else []) ++ (whole ++ rest)) = (negative, whole ++ rest) := by
  have unsigned : ∀ more, whole ++ rest ≠ '-' :: more := by
    cases isWhole with
    | zero => simp
    | digits digits _ =>
      obtain ⟨d, ds, rfl⟩ := List.exists_cons_of_ne_nil digits.1
      rintro more ⟨rfl, -⟩
      exact absurd (digits.2 '-' List.mem_cons_self) (by decide)
  cases negative with
  | true => rfl
  | false =>
    rw [if_neg Bool.false_ne_true, List.nil_append, Json.readSign]
    exact unsigned

theorem Numeral.read {text : List Char} {l : Number.Literal} (numeral : Numeral text l)
    {n : Number} (denoted : Number.ofLiteral? l = some n) {rest : List Char}
    (follow : Ends rest) : readNumber? (text ++ rest) = some (n, rest) := by
  obtain @⟨negative, whole, point, fraction, power, exponent, isWhole, isFraction, isPower⟩ :=
    numeral
  -- Each part is read as far as it goes, since the next one begins with a mark of its own.
  have noDigit : NoDigit (power ++ rest) := fun c hc => (isPower.head follow hc).1
  have noPoint : (power ++ rest).head? ≠ some '.' := fun h => (isPower.head follow h).2 rfl
  have noDigit' : NoDigit (point ++ (power ++ rest)) := by
    cases isFraction with
    | absent => exact noDigit
    | present _ => rintro c ⟨⟩; decide
  simp only [readNumber?, List.append_assoc, isWhole.readSign, isWhole.read noDigit',
    isFraction.read noDigit noPoint, isPower.read follow, denoted, Option.bind_eq_bind,
    Option.bind_some, Option.pure_def]

end WorkerBridge.Json
