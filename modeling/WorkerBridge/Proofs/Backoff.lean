/-
  WorkerBridge.Proofs.Backoff

  How long a restart is put off, in exact arithmetic.

  The delay is computed in words that stop at the largest one. `capped` is what
  stopping there does to a number. It may be done early: a factor that was capped
  gives the same capped product (`capped_mul_capped`). So the saturating product
  and power are the exact ones, capped once at the end (`toNat_satMul`,
  `toNat_satPow`), and the longest delay, which is a word, hides the cap.
-/
import Mathlib.Data.UInt
import WorkerBridge.Settings

namespace WorkerBridge

/-! ## Numbers that stop at the largest word -/

/-- The number, or the largest word if it is smaller. -/
def capped (n : Nat) : Nat :=
  min n (UInt64.size - 1)

theorem capped_of_lt {n : Nat} (fits : n < UInt64.size) : capped n = n :=
  Nat.min_eq_left (Nat.le_sub_one_of_lt fits)

theorem capped_of_le {n : Nat} (large : UInt64.size ≤ n) : capped n = UInt64.size - 1 :=
  Nat.min_eq_right (by omega)

/-- It makes no difference whether a factor was capped before. -/
theorem capped_mul_capped (m n : Nat) : capped (m * capped n) = capped (m * n) := by
  by_cases fits : n < UInt64.size
  · rw [capped_of_lt fits]
  · have large : UInt64.size ≤ n := Nat.le_of_not_lt fits
    cases m with
    | zero => rw [Nat.zero_mul, Nat.zero_mul]
    | succ m =>
      -- Either product reaches the largest word.
      have exact : UInt64.size - 1 ≤ (m + 1) * n :=
        Nat.le_trans (by omega) (Nat.le_mul_of_pos_left n m.succ_pos)
      have early : UInt64.size - 1 ≤ (m + 1) * (UInt64.size - 1) :=
        Nat.le_mul_of_pos_left _ m.succ_pos
      rw [capped_of_le large, capped, capped, Nat.min_eq_right exact, Nat.min_eq_right early]

theorem capped_capped_mul (m n : Nat) : capped (capped m * n) = capped (m * n) := by
  rw [Nat.mul_comm, capped_mul_capped, Nat.mul_comm]

/-- The saturating product is the capped product. -/
theorem toNat_satMul (a b : UInt64) : (satMul a b).toNat = capped (a.toNat * b.toNat) := by
  unfold satMul
  split
  · next fits => rw [UInt64.toNat_mul, Nat.mod_eq_of_lt fits, capped_of_lt fits]
  · next large => rw [capped_of_le (Nat.le_of_not_lt large)]; rfl

/-- The saturating power is the capped power. -/
theorem toNat_satPow (base : UInt64) (n : Nat) :
    (satPow base n).toNat = capped (base.toNat ^ n) := by
  induction n using Nat.strongRecOn with
  | ind n ih =>
    rw [satPow]
    split
    · next zero => rw [zero, Nat.pow_zero]; rfl
    · next positive =>
      have half := ih (n / 2) (by omega)
      -- The square of the half power, capped when it is formed and capped before.
      have square : (satMul (satPow base (n / 2)) (satPow base (n / 2))).toNat =
          capped (base.toNat ^ (n / 2 + n / 2)) := by
        rw [toNat_satMul, half, capped_mul_capped, capped_capped_mul, ← Nat.pow_add]
      dsimp only
      split
      · next even =>
        have twice : n / 2 + n / 2 = n := by omega
        rw [square, twice]
      · next odd =>
        have twice : n / 2 + n / 2 + 1 = n := by omega
        rw [toNat_satMul, square, capped_mul_capped, ← Nat.pow_add_one', twice]

/-! ## The delay -/

namespace RestartPolicy

/-- The delay over the unbounded numbers. What the cap takes away is above the longest delay. -/
theorem toNat_delay (p : RestartPolicy) (n : UInt32) :
    (p.delay n).toNat = min (p.initialDelay.toNat * 2 ^ n.toNat) p.maxDelay.toNat := by
  have word : p.maxDelay.toNat ≤ UInt64.size - 1 := Nat.le_sub_one_of_lt p.maxDelay.toNat_lt
  have product : (satMul p.initialDelay (satPow 2 n.toNat)).toNat =
      capped (p.initialDelay.toNat * 2 ^ n.toNat) := by
    rw [toNat_satMul, toNat_satPow, capped_mul_capped]
    rfl
  rw [delay, UInt64.toNat_min, product, capped, Nat.min_assoc, Nat.min_eq_right word]

/-- **Delays are exact.** For every policy, the delay before restart number `n` is the first delay
    times `2 ^ n`, or the longest delay if that is less, over the unbounded numbers. So it is never
    longer than the longest delay, and it never shrinks from one restart to the next. -/
theorem delays_exact (p : RestartPolicy) :
    (∀ n, (p.delay n).toNat = min (p.initialDelay.toNat * 2 ^ n.toNat) p.maxDelay.toNat) ∧
    (∀ n, p.delay n ≤ p.maxDelay) ∧ ∀ m n, m ≤ n → p.delay m ≤ p.delay n := by
  refine ⟨p.toNat_delay, fun n => ?_, fun m n earlier => ?_⟩
  · rw [UInt64.le_iff_toNat_le, toNat_delay]
    exact Nat.min_le_right ..
  · have powers : 2 ^ m.toNat ≤ 2 ^ n.toNat :=
      Nat.pow_le_pow_right (by decide) (UInt32.le_iff_toNat_le.1 earlier)
    have products := Nat.mul_le_mul_left p.initialDelay.toNat powers
    rw [UInt64.le_iff_toNat_le, toNat_delay, toNat_delay]
    omega

/-- At the edge of the words: the last power that fits, and the first that does not. -/
example :
    let p : RestartPolicy := { initialDelay := 1, maxDelay := 18446744073709551615 }
    (p.delay 63).toNat = 2 ^ 63 ∧ (p.delay 64).toNat = 2 ^ 64 - 1 := by
  simp only [toNat_delay]
  decide

end RestartPolicy

end WorkerBridge
