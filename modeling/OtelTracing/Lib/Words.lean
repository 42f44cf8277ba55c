import Mathlib.Tactic.Common
import Mathlib.Data.Nat.Bitwise

/-!
# Masks on 64-bit words

What masking with `2 ^ k - 1` and with its complement does to the number a 64-bit word stands for:
the first keeps the remainder modulo `2 ^ k`, the second rounds down to a multiple of `2 ^ k`.
-/

namespace Words

/-- Masking with `2 ^ k - 1` keeps the remainder modulo `2 ^ k`. -/
theorem toNat_and_mask (x m : UInt64) {k : Nat} (hm : m.toNat = 2 ^ k - 1) :
    (x &&& m).toNat = x.toNat % 2 ^ k := by
  rw [UInt64.toNat_and, hm, Nat.and_two_pow_sub_one_eq_mod]

/-- Masking with the complement of `2 ^ k - 1` rounds down to a multiple of `2 ^ k`. -/
theorem toNat_and_not_mask (x m : UInt64) {k : Nat} (hm : m.toNat = 2 ^ k - 1) :
    (x &&& ~~~m).toNat = x.toNat / 2 ^ k * 2 ^ k := by
  have hx := x.toNat_lt
  have hnot : (~~~m).toNat = 2 ^ 64 - (m.toNat + 1) := by
    rw [UInt64.toNat_not, UInt64.size]
    omega
  rw [← Nat.shiftRight_eq_div_pow, ← Nat.shiftLeft_eq]
  apply Nat.eq_of_testBit_eq
  intro i
  rw [UInt64.toNat_and, Nat.testBit_and, hnot, Nat.testBit_two_pow_sub_succ m.toNat_lt, hm,
    Nat.testBit_two_pow_sub_one, Nat.testBit_shiftLeft, Nat.testBit_shiftRight]
  by_cases hik : i < k
  · simp [hik, show ¬ k ≤ i by omega]
  · by_cases hi : i < 64
    · simp [hi, hik, show k ≤ i by omega]
    · have hxi : x.toNat.testBit i = false :=
        Nat.testBit_lt_two_pow (lt_of_lt_of_le hx (Nat.pow_le_pow_right (by omega) (by omega)))
      simp [hxi, show k ≤ i by omega]

/-- Rounding up to a multiple of `2 ^ k` by adding `2 ^ k - 1` and masking. -/
theorem toNat_align_up (x m : UInt64) {k : Nat} (hm : m.toNat = 2 ^ k - 1)
    (hx : x.toNat + (2 ^ k - 1) < 2 ^ 64) :
    ((x + m) &&& ~~~m).toNat = (x.toNat + (2 ^ k - 1)) / 2 ^ k * 2 ^ k := by
  rw [toNat_and_not_mask _ _ hm, UInt64.toNat_add, hm, Nat.mod_eq_of_lt hx]

end Words
