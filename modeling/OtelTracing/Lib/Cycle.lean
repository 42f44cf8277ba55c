import OtelTracing.Lib.Lehmer
import Mathlib.Data.Int.CardIntervalMod
import Mathlib.Dynamics.PeriodicPts.Lemmas
import Mathlib.RingTheory.ZMod.UnitsCyclic

/-!
# Cycles of multiplicative generators

If the multiplier is 5 modulo 8, the states that an odd state leads to are all those with its two low
bits, each of them once in a cycle. States with trailing zeros are multiples of odd states of a smaller
generator.
-/

namespace Lehmer

open Finset Function

variable {w m k n t x y : Nat}

/-! ## The order of the multiplier -/

theorem orderOf_multiplier (hm : m % 8 = 5) (w : Nat) :
    orderOf (m : ZMod (2 ^ (w + 2))) = 2 ^ w := by
  obtain ⟨a, rfl⟩ : ∃ a, m = 1 + 4 * a := ⟨m / 4, by omega⟩
  have hodd : Odd (a : Int) := by
    rw [Int.odd_coe_nat, Nat.odd_iff]
    omega
  have hcast : ((1 + 4 * a : Nat) : ZMod (2 ^ (w + 2))) = 1 + 4 * (a : Int) := by
    push_cast
    rfl
  rw [hcast]
  exact ZMod.orderOf_one_add_four_mul _ hodd w

/-- A state is back after `2 ^ w` steps. -/
theorem iterate_period (hm : m % 8 = 5) (hx : x < 2 ^ (w + 2)) :
    (step (w + 2) m)^[2 ^ w] x = x := by
  have hone : (m : ZMod (2 ^ (w + 2))) ^ 2 ^ w = 1 := by
    rw [← orderOf_multiplier hm w]
    exact pow_orderOf_eq_one _
  have hmod : m ^ 2 ^ w ≡ 1 [MOD 2 ^ (w + 2)] := by
    rw [← ZMod.natCast_eq_natCast_iff]
    push_cast
    exact hone
  rw [iterate_step hx, (hmod.mul_left x), Nat.mul_one, Nat.mod_eq_of_lt hx]

/-- The states of a cycle are different. -/
theorem iterate_injOn (hm : m % 8 = 5) (hodd : Odd x) (hx : x < 2 ^ (w + 2)) :
    Set.InjOn (fun n => (step (w + 2) m)^[n] x) (range (2 ^ w)) := by
  intro i hi j hj h
  have hi' : i < 2 ^ w := Finset.mem_range.mp hi
  have hj' : j < 2 ^ w := Finset.mem_range.mp hj
  replace h : (step (w + 2) m)^[i] x = (step (w + 2) m)^[j] x := h
  rw [iterate_step hx, iterate_step hx] at h
  have hpow : m ^ i ≡ m ^ j [MOD 2 ^ (w + 2)] :=
    Nat.ModEq.cancel_left_of_coprime (coprime_of_odd hodd (w + 2)) h
  rw [← ZMod.natCast_eq_natCast_iff] at hpow
  push_cast at hpow
  refine pow_injOn_Iio_orderOf ?_ ?_ hpow
  · rw [orderOf_multiplier hm]
    exact hi'
  · rw [orderOf_multiplier hm]
    exact hj'

/-- A state is not back earlier. -/
theorem minimalPeriod_step (hm : m % 8 = 5) (hodd : Odd x) (hx : x < 2 ^ (w + 2)) :
    minimalPeriod (step (w + 2) m) x = 2 ^ w := by
  have hperiod : IsPeriodicPt (step (w + 2) m) (2 ^ w) x := iterate_period hm hx
  apply Nat.le_antisymm
  · exact hperiod.minimalPeriod_le (Nat.two_pow_pos w)
  · by_contra hlt
    have hback : (step (w + 2) m)^[minimalPeriod (step (w + 2) m) x] x =
        (step (w + 2) m)^[0] x := iterate_minimalPeriod
    have hzero := iterate_injOn hm hodd hx (Finset.mem_coe.mpr (mem_range.mpr (not_le.mp hlt)))
      (Finset.mem_coe.mpr (mem_range.mpr (Nat.two_pow_pos w))) hback
    have hpos := hperiod.minimalPeriod_pos (Nat.two_pow_pos w)
    omega

/-! ## The states of a cycle -/

/-- The two low bits stay. -/
theorem iterate_mod_four (hm : m % 8 = 5) (n : Nat) :
    (step (w + 2) m)^[n] x % 4 = x % 4 := by
  induction n with
  | zero => rfl
  | succ n ih =>
    have hdvd : 4 ∣ 2 ^ (w + 2) := ⟨2 ^ w, by rw [pow_add]; ring⟩
    have hone : m % 4 = 1 := by omega
    rw [iterate_succ_apply', step, Nat.mod_mod_of_dvd _ hdvd, Nat.mul_mod, hone, Nat.mul_one,
      Nat.mod_mod, ih]

theorem card_mod_four (t v : Nat) : ((range (4 * t)).filter fun y => y % 4 = v % 4).card = t := by
  have hcount := Nat.count_modEq_card (4 * t) (r := 4) (by decide) v
  rw [Nat.count_eq_card_filter_range, Nat.mul_mod_right, if_neg (Nat.not_lt_zero _),
    Nat.mul_div_cancel_left _ (by decide), Nat.add_zero] at hcount
  exact hcount

/-- The cycle of an odd state consists of the states with its two low bits. -/
theorem image_iterate (hm : m % 8 = 5) (hodd : Odd x) (hx : x < 2 ^ (w + 2)) :
    (range (2 ^ w)).image (fun n => (step (w + 2) m)^[n] x) =
      (range (4 * 2 ^ w)).filter fun y => y % 4 = x % 4 := by
  apply Finset.eq_of_subset_of_card_le
  · intro y hy
    obtain ⟨n, -, rfl⟩ := mem_image.mp hy
    refine mem_filter.mpr ⟨mem_range.mpr ?_, iterate_mod_four hm n⟩
    have hlt : (step (w + 2) m)^[n] x < 2 ^ (w + 2) := by
      rw [iterate_step hx]
      exact Nat.mod_lt _ (Nat.two_pow_pos _)
    rw [pow_add] at hlt
    omega
  · rw [card_mod_four, card_image_of_injOn (iterate_injOn hm hodd hx), card_range]

/-- A cycle passes each bound in proportion. -/
theorem card_iterate_lt (hm : m % 8 = 5) (hodd : Odd x) (hx : x < 2 ^ (w + 2)) (ht : t ≤ 2 ^ w) :
    ((range (2 ^ w)).filter fun n => (step (w + 2) m)^[n] x < 4 * t).card = t := by
  have himage : ((range (2 ^ w)).filter fun n => (step (w + 2) m)^[n] x < 4 * t).image
      (fun n => (step (w + 2) m)^[n] x) = (range (4 * t)).filter fun y => y % 4 = x % 4 := by
    ext y
    constructor
    · intro hy
      obtain ⟨n, hn, rfl⟩ := mem_image.mp hy
      exact mem_filter.mpr ⟨mem_range.mpr (mem_filter.mp hn).2, iterate_mod_four hm n⟩
    · intro hy
      obtain ⟨hlt, hmod⟩ := mem_filter.mp hy
      have hbelow := mem_range.mp hlt
      have hmem : y ∈ (range (2 ^ w)).image fun n => (step (w + 2) m)^[n] x := by
        rw [image_iterate hm hodd hx]
        exact mem_filter.mpr ⟨mem_range.mpr (by omega), hmod⟩
      obtain ⟨n, hn, rfl⟩ := mem_image.mp hmem
      exact mem_image_of_mem _ (mem_filter.mpr ⟨hn, hbelow⟩)
  have hinj : Set.InjOn (fun n => (step (w + 2) m)^[n] x)
      ((range (2 ^ w)).filter fun n => (step (w + 2) m)^[n] x < 4 * t) :=
    (iterate_injOn hm hodd hx).mono (Finset.coe_subset.mpr (filter_subset _ _))
  rw [← card_image_of_injOn hinj, himage, card_mod_four]

/-! ## States with trailing zeros -/

theorem step_mul (k w m y : Nat) : step (k + w) m (2 ^ k * y) = 2 ^ k * step w m y := by
  rw [step, step, pow_add, Nat.mul_assoc, Nat.mul_mod_mul_left]

theorem iterate_multiple (k w m y n : Nat) :
    (step (k + w) m)^[n] (2 ^ k * y) = 2 ^ k * (step w m)^[n] y := by
  induction n with
  | zero => rfl
  | succ n ih => rw [iterate_succ_apply', iterate_succ_apply', ih, step_mul]

/-- A state is an odd multiple of the power of two in it. -/
theorem exists_odd (hk : trailingZeros w x = k) (hlt : k < w) : ∃ y, Odd y ∧ x = 2 ^ k * y := by
  obtain ⟨y, rfl⟩ := (le_trailingZeros (Nat.le_of_lt hlt)).mp (Nat.le_of_eq hk.symm)
  refine ⟨y, ?_, rfl⟩
  rw [← Nat.not_even_iff_odd]
  rintro ⟨z, rfl⟩
  have hmore : k + 1 ≤ trailingZeros w (2 ^ k * (z + z)) :=
    (le_trailingZeros hlt).mpr ⟨z, by rw [pow_succ]; ring⟩
  omega

theorem minimalPeriod_mul (k w m y : Nat) :
    minimalPeriod (step (k + w) m) (2 ^ k * y) = minimalPeriod (step w m) y := by
  refine minimalPeriod_eq_minimalPeriod_iff.mpr fun n => ?_
  unfold IsPeriodicPt IsFixedPt
  rw [iterate_multiple]
  constructor
  · intro h
    exact Nat.eq_of_mul_eq_mul_left (Nat.two_pow_pos k) h
  · intro h
    rw [h]

end Lehmer
