/-
  WorkerBridge.Proofs.Digits

  The decimal digits that are written for a number denote it.

  `digits_concat` and `digits_of_lt` give the digits as a recursion on the last
  one. The other facts follow it: that there is a digit, that there is nothing
  else, how many there are, and that they read back as the number.
-/
import Mathlib.Algebra.Group.Nat.Defs
import WorkerBridge.Decimal.Natural

namespace WorkerBridge.Decimal

/-! ## Single digits -/

theorem digitValue_digitChar : ∀ n < 10, digitValue (digitChar n) = n := by decide

theorem isDigit_digitChar : ∀ n < 10, isDigit (digitChar n) := by decide

/-! ## The last digit -/

theorem digitsOnto_eq (n : Nat) (rest : List Char) : digitsOnto n rest = digits n ++ rest := by
  have onto : ∀ rest more, digitsOnto n (rest ++ more) = digitsOnto n rest ++ more := by
    induction n using Nat.strongRecOn with
    | ind n ih =>
      intro rest more
      unfold digitsOnto
      split
      · rfl
      · next large => exact ih (n / 10) (by omega) (digitChar (n % 10) :: rest) more
  exact onto [] rest

theorem digits_of_lt {n : Nat} (small : n < 10) : digits n = [digitChar n] := by
  rw [digits, digitsOnto, if_pos small]

theorem digits_concat {n : Nat} (large : 10 ≤ n) :
    digits n = digits (n / 10) ++ [digitChar (n % 10)] := by
  rw [digits, digitsOnto, if_neg (by omega), digitsOnto_eq]

/-- Induction on the digits of a number, the last one first. -/
theorem digits_induction {P : Nat → Prop} (small : ∀ n < 10, P n)
    (large : ∀ n, 10 ≤ n → P (n / 10) → P n) (n : Nat) : P n := by
  induction n using Nat.strongRecOn with
  | ind n ih =>
    by_cases h : n < 10
    · exact small n h
    · exact large n (by omega) (ih (n / 10) (by omega))

/-! ## All digits -/

theorem digits_ne_nil (n : Nat) : digits n ≠ [] := by
  by_cases h : n < 10
  · simp [digits_of_lt h]
  · simp [digits_concat (Nat.le_of_not_lt h)]

theorem isDigit_of_mem_digits (n : Nat) : ∀ c ∈ digits n, isDigit c := by
  induction n using digits_induction with
  | small n h =>
    rw [digits_of_lt h, List.forall_mem_singleton]
    exact isDigit_digitChar n h
  | large n h ih =>
    rw [digits_concat h, List.forall_mem_append, List.forall_mem_singleton]
    exact ⟨ih, isDigit_digitChar _ (Nat.mod_lt _ (by decide))⟩

theorem length_digits_le {n k : Nat} (bound : n < 10 ^ (k + 1)) : (digits n).length ≤ k + 1 := by
  induction k generalizing n with
  | zero => simp [digits_of_lt (show n < 10 by omega)]
  | succ k ih =>
    by_cases h : n < 10
    · simp [digits_of_lt h]
    · have shorter : n / 10 < 10 ^ (k + 1) := by
        rw [Nat.pow_succ] at bound
        omega
      have tail := ih shorter
      rw [digits_concat (Nat.le_of_not_lt h), List.length_append, List.length_singleton]
      omega

theorem value_concat (cs : List Char) (c : Char) :
    value (cs ++ [c]) = value cs * 10 + digitValue c := by
  simp [value]

theorem value_digits (n : Nat) : value (digits n) = n := by
  induction n using digits_induction with
  | small n h => simp [digits_of_lt h, value, digitValue_digitChar n h]
  | large n h ih =>
    rw [digits_concat h, value_concat, ih, digitValue_digitChar _ (Nat.mod_lt _ (by decide))]
    omega

/-! ## Reading back -/

theorem read?_digits (n : Nat) : read? (digits n) = some n := by
  have digit := isDigit_of_mem_digits n
  have denoted := value_digits n
  cases hd : digits n with
  | nil => exact absurd hd (digits_ne_nil n)
  | cons c cs =>
    rw [hd] at digit denoted
    -- The first digit is no plus sign.
    have unsigned : c ≠ '+' := by
      rintro rfl
      exact absurd (digit '+' (by simp)) (by decide)
    rw [read?, if_pos (List.all_eq_true.2 digit), denoted]
    · simp
    · rintro rest ⟨rfl, -⟩
      exact unsigned rfl

/-- **Digits read back**, within a limit that the number keeps. -/
theorem readUpTo?_digits {limit n : Nat} (within : n ≤ limit) :
    readUpTo? limit (digits n) = some n := by
  simp [readUpTo?, read?_digits, within]

end WorkerBridge.Decimal
