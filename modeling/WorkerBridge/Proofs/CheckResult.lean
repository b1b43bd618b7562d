/-
  WorkerBridge.Proofs.CheckResult

  The result of a check is read as a whole or not at all.

  The reports of a check are read one after the other, so what is read of two
  lists in a row is what is read of the one and then of the other, and the first
  report that is none decides the failure (`checkReports_append`). What a report
  says is what is written in it (`Report.reads`), diagnostic by diagnostic
  (`Diagnostic.reads`): the severity, the source and the code have each their own
  rule for what may be missing.
-/
import WorkerBridge.Proofs.Records
import WorkerBridge.Response

namespace WorkerBridge

open Json.Shape

/-! ## Diagnostics -/

namespace Severity

theorem ofNumber?_eq_some_iff {n : Nat} {s : Severity} : ofNumber? n = some s ↔ n = s.number := by
  constructor
  · intro known
    unfold ofNumber? at known
    split at known <;> cases known <;> rfl
  · rintro rfl
    cases s <;> rfl

/-- What the field for the severity says. A number that is no severity counts as an error, like no
number at all. -/
inductive Given : Option Json → Severity → Prop where
  | absent : Given none .error
  | null : Given (some .null) .error
  | known (s : Severity) : Given (some (.ofNat s.number)) s
  | unknown {n : Nat} (unsigned : n ≤ Json.maxUnsigned) (none_of : ∀ s : Severity, n ≠ s.number) :
      Given (some (.ofNat n)) .error

theorem given_iff {w : Option Json} {s : Severity} :
    Given w s ↔ ∃ n, Optional (fun n v => v = .ofNat n ∧ n ≤ Json.maxUnsigned) w n ∧
      (n.bind ofNumber?).getD .error = s := by
  constructor
  · intro given
    cases given with
    | absent => exact ⟨none, .absent, rfl⟩
    | null => exact ⟨none, .null, rfl⟩
    | known s =>
      have unsigned : s.number ≤ Json.maxUnsigned := by cases s <;> decide
      refine ⟨some s.number, .given (by nofun) ⟨rfl, unsigned⟩, ?_⟩
      rw [Option.bind_some, ofNumber?_eq_some_iff.2 rfl, Option.getD_some]
    | @unknown n unsigned none_of =>
      refine ⟨some n, .given (by nofun) ⟨rfl, unsigned⟩, ?_⟩
      have unknown : ofNumber? n = none :=
        Option.eq_none_iff_forall_ne_some.2 fun s known =>
          none_of s (ofNumber?_eq_some_iff.1 known)
      rw [Option.bind_some, unknown, Option.getD_none]
  · rintro ⟨n, optional, rfl⟩
    cases optional with
    | absent => exact .absent
    | null => exact .null
    | @given w n present value =>
      obtain ⟨rfl, unsigned⟩ := value
      rw [Option.bind_some]
      -- A number is read in any case, and either it is that of a severity or it is of none.
      cases known : ofNumber? n with
      | none =>
        refine .unknown unsigned fun s same => ?_
        cases known.symm.trans (ofNumber?_eq_some_iff.2 same)
      | some s =>
        cases ofNumber?_eq_some_iff.1 known
        exact .known s

end Severity

namespace Diagnostic

/-- What the field for the source says. -/
inductive Source : Option Json → String → Prop where
  | absent : Source none "flix"
  | null : Source (some .null) "flix"
  | text (s : String) : Source (some (.str s)) s

/-- What the field for the code says: a text or a number is a code, and nothing else. -/
inductive Code : Option Json → Option String → Prop where
  | text (s : String) : Code (some (.str s)) (some s)
  | number (n : Json.Number) : Code (some (.num n)) (some n.text)
  | other {w : Option Json} (noText : ∀ s, w ≠ some (.str s)) (noNumber : ∀ n, w ≠ some (.num n)) :
      Code w none

theorem source_iff {w : Option Json} {source : String} :
    Source w source ↔
      ∃ s, Optional (fun s v => v = .str s) w s ∧ s.getD defaultSource = source := by
  constructor
  · intro given
    cases given with
    | absent => exact ⟨none, .absent, rfl⟩
    | null => exact ⟨none, .null, rfl⟩
    | text => exact ⟨some source, .given (by nofun) rfl, rfl⟩
  · rintro ⟨s, optional, rfl⟩
    cases optional with
    | absent => exact .absent
    | null => exact .null
    | given present value =>
      cases value
      exact .text _

theorem code_iff {w : Option Json} {code : Option String} :
    Code w code ↔ ∃ c, Optional (fun c v => v = c) w c ∧ codeText c = code := by
  constructor
  · intro given
    cases given with
    | text s => exact ⟨some (.str s), .given (by nofun) rfl, rfl⟩
    | number n => exact ⟨some (.num n), .given (by nofun) rfl, rfl⟩
    | other noText noNumber =>
      match w with
      | none => exact ⟨none, .absent, rfl⟩
      | some .null => exact ⟨none, .null, rfl⟩
      | some (.bool b) => exact ⟨some (.bool b), .given (by nofun) rfl, rfl⟩
      | some (.arr items) => exact ⟨some (.arr items), .given (by nofun) rfl, rfl⟩
      | some (.obj fields) => exact ⟨some (.obj fields), .given (by nofun) rfl, rfl⟩
      | some (.str s) => exact absurd rfl (noText s)
      | some (.num n) => exact absurd rfl (noNumber n)
  · rintro ⟨c, optional, rfl⟩
    cases optional with
    | absent | null => exact .other (by nofun) (by nofun)
    | @given c _ present value =>
      -- Any value is taken for a code, and only afterwards told from what is none.
      cases value
      cases c with
      | str s => exact .text s
      | num n => exact .number n
      | _ => exact .other (by nofun) (by nofun)

/-- The fields of a diagnostic. -/
def names : List String := ["range", "severity", "source", "code", "message"]

/-- How a diagnostic is written. -/
structure WrittenAs (d : Diagnostic) (v : Json) : Prop where
  record : v.IsRecord 5 5
  range : ∃ w, v.member? names "range" = some w ∧ d.range.WrittenAs w
  severity : Severity.Given (v.member? names "severity") d.severity
  source : Source (v.member? names "source") d.source
  code : Code (v.member? names "code") d.code
  message : v.member? names "message" = some (.str d.message)

theorem layout :
    Layout [field "range" Range.decode, field "severity" (option (natural Json.maxUnsigned)),
      field "source" (option text), field "code" (option any), field "message" text] names 5 :=
  ⟨rfl, by decide, by decide⟩

theorem reads : Reads decode WrittenAs := by
  intro v proper d
  rw [decode, layout.read_iff proper]
  · simp only [bind_eq_ok_iff, Range.reads.required proper, (reads_natural _).optional proper,
      reads_text.optional proper, reads_any.optional proper, reads_text.required proper,
      exists_eq_right]
    constructor
    · rintro ⟨record, range, hrange, severity, hseverity, source, hsource, code, hcode, message,
        hmessage, read⟩
      cases read
      exact ⟨record, hrange, Severity.given_iff.2 ⟨severity, hseverity, rfl⟩,
        source_iff.2 ⟨source, hsource, rfl⟩, code_iff.2 ⟨code, hcode, rfl⟩, hmessage⟩
    · rintro ⟨record, hrange, hseverity, hsource, hcode, hmessage⟩
      obtain ⟨severity, hseverity, level⟩ := Severity.given_iff.1 hseverity
      obtain ⟨source, hsource, name⟩ := source_iff.1 hsource
      obtain ⟨code, hcode, tag⟩ := code_iff.1 hcode
      refine ⟨record, d.range, hrange, severity, hseverity, source, hsource, code, hcode,
        d.message, hmessage, ?_⟩
      rw [level, name, tag]
      rfl
  · intro read
    simp only [bind_eq_ok_iff] at read
    obtain ⟨range, hrange, severity, hseverity, source, hsource, code, hcode, message, hmessage,
      -⟩ := read
    simp only [List.forall_mem_cons, List.not_mem_nil, false_implies, implies_true, and_true]
    exact ⟨fun w => check_of_required hrange, fun w => check_of_defaulted hseverity,
      fun w => check_of_defaulted hsource, fun w => check_of_defaulted hcode,
      fun w => check_of_required hmessage⟩

end Diagnostic

/-! ## Reports -/

namespace Report

/-- The fields of a report. -/
def names : List String := ["uri", "diagnostics"]

/-- How a report is written: with its diagnostics one by one, or without any. -/
structure WrittenAs (r : Report) (v : Json) : Prop where
  record : v.IsRecord 1 2
  uri : v.member? names "uri" = some (.str r.uri)
  items : (v.member? names "diagnostics" = none ∧ r.items = []) ∨
    ∃ vs, v.member? names "diagnostics" = some (.arr vs) ∧
      List.Forall₂ (fun w d => d.WrittenAs w) vs r.items

theorem layout :
    Layout [field "uri" text, lastField "diagnostics" (list Diagnostic.decode)] names 1 :=
  ⟨rfl, by decide, by decide⟩

theorem reads : Reads decode WrittenAs := by
  intro v proper r
  rw [decode, layout.read_iff proper]
  · simp only [bind_eq_ok_iff, reads_text.required proper, exists_eq_right,
      Diagnostic.reads.list.defaulted proper]
    constructor
    · rintro ⟨record, uri, huri, items, hitems, read⟩
      cases read
      refine ⟨record, huri, hitems.imp_right ?_⟩
      rintro ⟨w, found, vs, rfl, each⟩
      exact ⟨vs, found, each⟩
    · rintro ⟨record, huri, hitems⟩
      refine ⟨record, r.uri, huri, r.items, hitems.imp_right ?_, rfl⟩
      rintro ⟨vs, found, each⟩
      exact ⟨_, found, vs, rfl, each⟩
  · intro read
    simp only [bind_eq_ok_iff] at read
    obtain ⟨uri, huri, items, hitems, -⟩ := read
    simp only [List.forall_mem_cons, List.not_mem_nil, false_implies, implies_true, and_true]
    exact ⟨fun w => check_of_required huri, fun w => check_of_defaulted hitems⟩

end Report

/-! ## Check results -/

theorem checkReports_arr (xs : List Json) :
    checkReports (.arr xs) =
      (items Report.decode xs).mapError fun e => .protocol (.badCheckResult e) := by
  rw [checkReports, decodeReports, list]
  · cases items Report.decode xs <;> rfl
  · rintro ⟨⟩

/-- The reports of two lists in a row are those of the one and then those of the other. -/
theorem checkReports_append (xs ys : List Json) :
    checkReports (.arr (xs ++ ys)) =
      (do return (← checkReports (.arr xs)) ++ (← checkReports (.arr ys))) := by
  simp only [checkReports_arr, items_append]
  -- The wrapping of the error is the same for both lists.
  cases items Report.decode xs with
  | error e => rfl
  | ok first => cases items Report.decode ys <;> rfl

/-- The reports of a check are what is written in them, one by one. -/
theorem checkReports_eq_ok_iff {xs : List Json} (proper : ∀ v ∈ xs, v.Proper)
    {reports : List Report} :
    checkReports (.arr xs) = .ok reports ↔ List.Forall₂ (fun v r => r.WrittenAs v) xs reports := by
  have same : checkReports (.arr xs) = .ok reports ↔
      list Report.decode (.arr xs) = .ok reports := by
    rw [checkReports_arr, list]
    cases items Report.decode xs <;> simp [Except.mapError]
  rw [same, Report.reads.list _ (.arr proper)]
  constructor
  · rintro ⟨vs, ⟨⟩, each⟩
    exact each
  · exact fun each => ⟨xs, rfl, each⟩

/-- **The result of a check is read as a whole or not at all.** The reports of two lists in a row
are read if and only if those of both lists are, and are then those of the one followed by those of
the other; if not, the failure is that of the first list that fails, and it says that the worker
broke the protocol. Reports that are read are what is written, in the order in which it is written:
each with its document and each of its diagnostics. -/
theorem check_results_compose (xs ys : List Json) :
    (∀ reports, checkReports (.arr (xs ++ ys)) = .ok reports ↔
      ∃ first second, checkReports (.arr xs) = .ok first ∧ checkReports (.arr ys) = .ok second ∧
        reports = first ++ second) ∧
    (∀ failure, checkReports (.arr (xs ++ ys)) = .error failure ↔
      checkReports (.arr xs) = .error failure ∨
        (∃ first, checkReports (.arr xs) = .ok first) ∧ checkReports (.arr ys) = .error failure) ∧
    (∀ failure, checkReports (.arr xs) = .error failure →
      ∃ e, failure = .protocol (.badCheckResult e)) ∧
    ((∀ v ∈ xs, v.Proper) → ∀ reports, checkReports (.arr xs) = .ok reports ↔
      List.Forall₂ (fun v r => r.WrittenAs v) xs reports) := by
  refine ⟨fun reports => ?_, fun failure => ?_, fun failure failed => ?_,
    fun proper reports => checkReports_eq_ok_iff proper⟩
  · rw [checkReports_append]
    cases checkReports (.arr xs) <;> cases checkReports (.arr ys) <;>
      simp [bind, Except.bind, pure, Except.pure, eq_comm]
  · rw [checkReports_append]
    cases checkReports (.arr xs) <;> cases checkReports (.arr ys) <;>
      simp [bind, Except.bind, pure, Except.pure]
  · rw [checkReports_arr] at failed
    cases read : items Report.decode xs with
    | ok reports =>
      rw [read] at failed
      cases failed
    | error e =>
      rw [read] at failed
      cases failed
      exact ⟨e, rfl⟩

/-- A report without diagnostics, written as an array. -/
def quietReport : Json :=
  .arr [.str "a"]

/-- A report with a diagnostic of no known severity and of no named source. -/
def loudReport : Json :=
  let origin : Json := .arr [.ofNat 0, .ofNat 0]
  .obj [("diagnostics", .arr [.arr [.arr [origin, origin], .ofNat 9, .null, .str "E1", .str "m"]]),
    ("uri", .str "b")]

/-- What the two reports say: the second has an error of the usual source. -/
def quietThenLoud : List Report :=
  [⟨"a", []⟩, ⟨"b", [⟨.error, "m", ⟨⟨0, 0⟩, ⟨0, 0⟩⟩, "flix", some "E1"⟩]⟩]

theorem reports_proper : ∀ v ∈ [quietReport, loudReport], v.Proper := by
  have pair {v : Json} (proper : v.Proper) : Json.Proper (.arr [v, v]) :=
    .arr (List.forall_mem_cons.2 ⟨proper, List.forall_mem_singleton.2 proper⟩)
  simp only [List.forall_mem_cons]
  refine ⟨.arr (List.forall_mem_singleton.2 (.str _)), ?_, by simp⟩
  refine .obj (List.pairwise_pair.2 (by decide)) ?_
  simp only [List.forall_mem_cons]
  refine ⟨.arr (List.forall_mem_singleton.2 (.arr ?_)), .str _, by simp⟩
  simp only [List.forall_mem_cons]
  exact ⟨pair (pair (.num _)), .num _, .null, .str _, .str _, by simp⟩

theorem loud_follows_quiet :
    checkReports (.arr [quietReport, loudReport]) = .ok quietThenLoud ∧
      (∀ v ∈ [quietReport, loudReport], v.Proper) ∧
      List.Forall₂ (fun v r => r.WrittenAs v) [quietReport, loudReport] quietThenLoud := by
  have read : checkReports (.arr [quietReport, loudReport]) = .ok quietThenLoud :=
    ((check_results_compose [quietReport] [loudReport]).1 _).2 ⟨_, _, rfl, rfl, rfl⟩
  obtain ⟨-, -, -, written⟩ := check_results_compose [quietReport, loudReport] []
  exact ⟨read, reports_proper, (written reports_proper _).1 read⟩

end WorkerBridge
