import Mathlib.Data.Int.GCD
import Mathlib.Data.Nat.ModEq
import Mathlib.Data.Nat.Prime.Basic
import Mathlib.Logic.Function.Iterate
import Mathlib.Tactic.Ring

/-!
# Multiplicative generators

A generator whose state is a number below `2 ^ w`, and whose step multiplies the state by an odd
number modulo `2 ^ w`; and the high half of a product, computed from the halves of the factors.
-/

namespace Lehmer

variable {w m k x y : Nat}

/-! ## The step -/

def step (w m x : Nat) : Nat := x * m % 2 ^ w

/-- Steps are one multiplication by a power. -/
theorem iterate_step (hx : x < 2 ^ w) (n : Nat) : (step w m)^[n] x = x * m ^ n % 2 ^ w := by
  induction n with
  | zero => rw [Function.iterate_zero_apply, pow_zero, Nat.mul_one, Nat.mod_eq_of_lt hx]
  | succ n ih =>
    rw [Function.iterate_succ_apply', ih, step, Nat.mod_mul_mod, pow_succ, Nat.mul_assoc]

theorem coprime_of_odd (hm : Odd m) (k : Nat) : Nat.Coprime (2 ^ k) m :=
  Nat.Coprime.pow_left k (Nat.coprime_two_left.mpr hm)

/-- A step keeps the powers of two that divide the state. -/
theorem dvd_step (hm : Odd m) (hk : k ≤ w) : 2 ^ k ∣ step w m x ↔ 2 ^ k ∣ x := by
  rw [step, Nat.dvd_mod_iff (Nat.pow_dvd_pow 2 hk)]
  constructor
  · intro h
    exact (coprime_of_odd hm k).dvd_of_dvd_mul_right h
  · intro h
    exact Dvd.dvd.mul_right h m

theorem step_eq_zero (hm : Odd m) (hx : x < 2 ^ w) : step w m x = 0 ↔ x = 0 := by
  constructor
  · intro h
    have hdvd : 2 ^ w ∣ x := (dvd_step hm (Nat.le_refl w)).mp (by rw [h]; exact Nat.dvd_zero _)
    exact Nat.eq_zero_of_dvd_of_lt hdvd hx
  · rintro rfl
    rw [step, Nat.zero_mul, Nat.zero_mod]

theorem step_injective (hm : Odd m) (hx : x < 2 ^ w) (hy : y < 2 ^ w)
    (h : step w m x = step w m y) : x = y := by
  have hmod : x ≡ y [MOD 2 ^ w] :=
    Nat.ModEq.cancel_right_of_coprime (coprime_of_odd hm w) h
  rwa [Nat.ModEq, Nat.mod_eq_of_lt hx, Nat.mod_eq_of_lt hy] at hmod

theorem step_surjective (hm : Odd m) (hw : 0 < w) (hx : x < 2 ^ w) :
    ∃ y < 2 ^ w, step w m y = x := by
  obtain ⟨i, -, hi⟩ := Nat.exists_mul_mod_eq_one_of_coprime (coprime_of_odd hm w).symm
    (Nat.one_lt_two_pow hw.ne')
  refine ⟨x * i % 2 ^ w, Nat.mod_lt _ (Nat.two_pow_pos w), ?_⟩
  calc step w m (x * i % 2 ^ w) = x * (m * i) % 2 ^ w := by
        rw [step, Nat.mod_mul_mod, Nat.mul_assoc, Nat.mul_comm i m]
    _ = x * (m * i % 2 ^ w) % 2 ^ w := by rw [Nat.mul_mod_mod]
    _ = x := by rw [hi, Nat.mul_one, Nat.mod_eq_of_lt hx]

/-! ## Trailing zeros -/

/-- The number of trailing zeros among the `w` low bits. -/
def trailingZeros : Nat → Nat → Nat
  | 0, _ => 0
  | w + 1, n => if n % 2 = 0 then trailingZeros w (n / 2) + 1 else 0

theorem trailingZeros_le (w n : Nat) : trailingZeros w n ≤ w := by
  induction w generalizing n with
  | zero => exact Nat.le_refl 0
  | succ w ih =>
    rw [trailingZeros]
    split_ifs
    · exact Nat.succ_le_succ (ih _)
    · exact Nat.zero_le _

theorem le_trailingZeros (hk : k ≤ w) : k ≤ trailingZeros w x ↔ 2 ^ k ∣ x := by
  induction w generalizing k x with
  | zero =>
    obtain rfl := Nat.le_zero.mp hk
    simp [trailingZeros]
  | succ w ih =>
    cases k with
    | zero => simp
    | succ k =>
      rw [trailingZeros]
      have hsplit : 2 ^ (k + 1) ∣ x ↔ x % 2 = 0 ∧ 2 ^ k ∣ x / 2 := by
        rw [pow_succ, Nat.mul_comm]
        constructor
        · rintro ⟨d, rfl⟩
          rw [Nat.mul_assoc, Nat.mul_mod_right, Nat.mul_div_cancel_left _ (by decide)]
          exact ⟨rfl, Dvd.intro d rfl⟩
        · rintro ⟨hmod, hdvd⟩
          rw [← Nat.mul_div_cancel' (Nat.dvd_of_mod_eq_zero hmod)]
          exact Nat.mul_dvd_mul_left 2 hdvd
      rw [hsplit]
      split_ifs with hmod
      · rw [Nat.succ_le_succ_iff, ih (Nat.le_of_succ_le_succ hk)]
        simp [hmod]
      · simp [hmod]

theorem trailingZeros_step (hm : Odd m) : trailingZeros w (step w m x) = trailingZeros w x := by
  apply Nat.le_antisymm
  · have hle := trailingZeros_le w (step w m x)
    exact (le_trailingZeros hle).mpr ((dvd_step hm hle).mp ((le_trailingZeros hle).mp le_rfl))
  · have hle := trailingZeros_le w x
    exact (le_trailingZeros hle).mpr ((dvd_step hm hle).mpr ((le_trailingZeros hle).mp le_rfl))

/-! ## Products of halves -/

variable {b a0 a1 b0 b1 : Nat}

/-- The high half of a product, with the carries of the low half. -/
theorem mul_high (hb : 0 < b) (a0 a1 b0 b1 : Nat) :
    (a1 * b + a0) * (b1 * b + b0) / (b * b) =
      a1 * b1 + (a1 * b0 + a0 * b0 / b) / b + ((a1 * b0 + a0 * b0 / b) % b + a0 * b1) / b := by
  have hproduct : (a1 * b + a0) * (b1 * b + b0) =
      a0 * b0 + (a1 * b0 + a0 * b1 + a1 * b1 * b) * b := by ring
  rw [hproduct, ← Nat.div_div_eq_div_mul, Nat.add_mul_div_right _ _ hb]
  generalize a0 * b0 / b = c
  have hmiddle : c + (a1 * b0 + a0 * b1 + a1 * b1 * b) =
      (a1 * b0 + c) % b + a0 * b1 + (a1 * b1 + (a1 * b0 + c) / b) * b := by
    have hsplit := Nat.mod_add_div (a1 * b0 + c) b
    calc c + (a1 * b0 + a0 * b1 + a1 * b1 * b) = (a1 * b0 + c) + a0 * b1 + a1 * b1 * b := by ring
      _ = ((a1 * b0 + c) % b + b * ((a1 * b0 + c) / b)) + a0 * b1 + a1 * b1 * b := by rw [hsplit]
      _ = _ := by ring
  rw [hmiddle, Nat.add_mul_div_right _ _ hb, Nat.add_comm]

/-- A product of halves leaves room for another half. -/
theorem mul_add_lt (ha : a0 < b) (hb : b0 < b) (hx : x < b) : a0 * b0 + x < b * b := by
  have hle : a0 * b0 ≤ (b - 1) * (b - 1) :=
    Nat.mul_le_mul (Nat.le_sub_one_of_lt ha) (Nat.le_sub_one_of_lt hb)
  obtain ⟨c, rfl⟩ : ∃ c, b = c + 1 := ⟨b - 1, by omega⟩
  rw [Nat.add_sub_cancel] at hle
  have hsquare : (c + 1) * (c + 1) = c * c + 2 * c + 1 := by ring
  omega

end Lehmer
