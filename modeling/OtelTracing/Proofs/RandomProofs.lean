import OtelTracing.Random

/-!
# Proofs: the generator of the ids

The limbs of `otelRandomNext` compute a product modulo `2 ^ 128`, and a step of the generator is the
multiplication by an odd number.
-/

namespace OtelTracing

open Lehmer

variable {st st' : OtelRandomState}

/-! ## Limbs -/

theorem toNat_low (x : UInt64) : x.toUInt32.toUInt64.toNat = x.toNat % 2 ^ 32 := by
  rw [UInt32.toNat_toUInt64, UInt64.toNat_toUInt32]

theorem toNat_high (x : UInt64) : (x >>> 32).toNat = x.toNat / 2 ^ 32 := by
  rw [UInt64.toNat_shiftRight, Nat.shiftRight_eq_div_pow]
  rfl

/-- The halves of a product of 64-bit words. -/
theorem mul_words (x y : Nat) : x * y / 2 ^ 64 =
    x / 2 ^ 32 * (y / 2 ^ 32) +
      (x / 2 ^ 32 * (y % 2 ^ 32) + x % 2 ^ 32 * (y % 2 ^ 32) / 2 ^ 32) / 2 ^ 32 +
      ((x / 2 ^ 32 * (y % 2 ^ 32) + x % 2 ^ 32 * (y % 2 ^ 32) / 2 ^ 32) % 2 ^ 32 +
        x % 2 ^ 32 * (y / 2 ^ 32)) / 2 ^ 32 := by
  have hhigh := mul_high (b := 2 ^ 32) (by decide) (x % 2 ^ 32) (x / 2 ^ 32) (y % 2 ^ 32)
    (y / 2 ^ 32)
  rw [Nat.div_add_mod', Nat.div_add_mod'] at hhigh
  exact hhigh

/-- The limbs of the multiplier. -/
theorem multiplier_limbs :
    (0xda942042e4dd58b5 : UInt64).toUInt32.toUInt64.toNat = otelRandomMultiplier % 2 ^ 32 ∧
      ((0xda942042e4dd58b5 : UInt64) >>> 32).toNat = otelRandomMultiplier / 2 ^ 32 := by
  decide

theorem otelRandomSums_eq (st : OtelRandomState) : otelRandomSums st =
    [st.lo.toNat / 2 ^ 32 * (otelRandomMultiplier % 2 ^ 32) +
        st.lo.toNat % 2 ^ 32 * (otelRandomMultiplier % 2 ^ 32) / 2 ^ 32,
      (st.lo.toNat / 2 ^ 32 * (otelRandomMultiplier % 2 ^ 32) +
        st.lo.toNat % 2 ^ 32 * (otelRandomMultiplier % 2 ^ 32) / 2 ^ 32) % 2 ^ 32 +
          st.lo.toNat % 2 ^ 32 * (otelRandomMultiplier / 2 ^ 32)] := by
  obtain ⟨hb0, hb1⟩ := multiplier_limbs
  rw [toNat_low] at hb0
  simp only [otelRandomSums, UInt64.toNat_toUInt32, toNat_high st.lo]
  rw [hb0, hb1]

/-- The sums of the limbs do not overflow. -/
theorem otelRandomSums_lt (st : OtelRandomState) : ∀ n ∈ otelRandomSums st, n < 2 ^ 64 := by
  have hlow := Nat.mod_lt st.lo.toNat (show 0 < 2 ^ 32 by decide)
  have hhigh : st.lo.toNat / 2 ^ 32 < 2 ^ 32 := Nat.div_lt_of_lt_mul st.lo.toNat_lt
  have hb0 : otelRandomMultiplier % 2 ^ 32 < 2 ^ 32 := by decide
  have hb1 : otelRandomMultiplier / 2 ^ 32 < 2 ^ 32 := by decide
  rw [otelRandomSums_eq]
  generalize otelRandomMultiplier % 2 ^ 32 = b0 at hb0 ⊢
  generalize otelRandomMultiplier / 2 ^ 32 = b1 at hb1 ⊢
  intro n hn
  rcases List.mem_cons.mp hn with rfl | hn
  · exact mul_add_lt hhigh hb0 (Nat.div_lt_of_lt_mul (Nat.mul_lt_mul'' hlow hb0))
  · rw [List.mem_singleton.mp hn, Nat.add_comm]
    exact mul_add_lt hlow hb1 (Nat.mod_lt _ (by decide))

/-! ## The product -/

theorem random_lo (st : OtelRandomState) : (otelRandomNext st).1.lo.toNat =
    st.lo.toNat * otelRandomMultiplier % 2 ^ 64 := UInt64.toNat_mul ..

/-- The high word of the next state. -/
theorem random_hi (st : OtelRandomState) : (otelRandomNext st).1.hi.toNat =
    (st.hi.toNat * otelRandomMultiplier + st.lo.toNat * otelRandomMultiplier / 2 ^ 64) % 2 ^ 64 := by
  obtain ⟨hb0, hb1⟩ := multiplier_limbs
  have hm : (0xda942042e4dd58b5 : UInt64).toNat = otelRandomMultiplier := rfl
  have hsums := otelRandomSums_lt st
  rw [otelRandomSums_eq] at hsums
  have ht := hsums _ (List.mem_cons_self ..)
  have hw1 := hsums _ (List.mem_cons_of_mem _ (List.mem_cons_self ..))
  have hlow := Nat.mod_lt st.lo.toNat (show 0 < 2 ^ 32 by decide)
  have hlimb : otelRandomMultiplier % 2 ^ 32 < 2 ^ 32 := by decide
  have hw0 : st.lo.toNat % 2 ^ 32 * (otelRandomMultiplier % 2 ^ 32) < 2 ^ 64 :=
    show _ < 2 ^ 32 * 2 ^ 32 from Nat.mul_lt_mul'' hlow hlimb
  rw [mul_words]
  simp only [otelRandomNext, UInt64.toNat_add, UInt64.toNat_mul, toNat_low, toNat_high, hb0, hb1, hm]
  generalize st.lo.toNat % 2 ^ 32 = a0 at *
  generalize st.lo.toNat / 2 ^ 32 = a1 at *
  generalize otelRandomMultiplier % 2 ^ 32 = b0 at *
  generalize otelRandomMultiplier / 2 ^ 32 = b1 at *
  have ha1b0 : a1 * b0 < 2 ^ 64 := Nat.lt_of_le_of_lt (Nat.le_add_right _ _) ht
  have ha0b1 : a0 * b1 < 2 ^ 64 := Nat.lt_of_le_of_lt (Nat.le_add_left _ _) hw1
  -- no sum wraps, so only the additions to the high word are modular
  rw [Nat.mod_eq_of_lt hw0, Nat.mod_eq_of_lt ha1b0, Nat.mod_eq_of_lt ht, Nat.mod_eq_of_lt ha0b1,
    Nat.mod_eq_of_lt hw1]
  simp only [Nat.mod_add_mod, Nat.add_mod_mod, Nat.add_assoc]

/-- A step of the generator multiplies the 128-bit state. -/
theorem toNat_next (st : OtelRandomState) : (otelRandomNext st).1.toNat =
    step 128 otelRandomMultiplier st.toNat := by
  have hsplit : st.toNat * otelRandomMultiplier =
      st.lo.toNat * otelRandomMultiplier + 2 ^ 64 * (st.hi.toNat * otelRandomMultiplier) := by
    rw [OtelRandomState.toNat]
    ring
  rw [step, show (2 : Nat) ^ 128 = 2 ^ 64 * 2 ^ 64 by decide, Nat.mod_mul, hsplit,
    Nat.add_mul_mod_self_left, Nat.add_mul_div_left _ _ (by decide), OtelRandomState.toNat,
    random_hi, random_lo, Nat.add_comm, Nat.mul_comm (2 ^ 64), Nat.add_comm (st.lo.toNat * _ / _)]

theorem next_hi (st : OtelRandomState) : (otelRandomNext st).2 = (otelRandomNext st).1.hi := rfl

/-! ## States as numbers -/

theorem toNat_lt (st : OtelRandomState) : st.toNat < 2 ^ 128 := by
  have hlo := st.lo.toNat_lt
  have hhi := st.hi.toNat_lt
  unfold OtelRandomState.toNat
  omega

theorem toNat_div (st : OtelRandomState) : st.toNat / 2 ^ 64 = st.hi.toNat := by
  have hlo := st.lo.toNat_lt
  unfold OtelRandomState.toNat
  omega

theorem state_eq (h : st.toNat = st'.toNat) : st = st' := by
  have hhi : st.hi = st'.hi := by
    rw [← UInt64.toNat_inj, ← toNat_div, ← toNat_div, h]
  have hlo : st.lo = st'.lo := by
    rw [← UInt64.toNat_inj]
    rw [OtelRandomState.toNat, OtelRandomState.toNat, hhi] at h
    exact Nat.add_left_cancel h
  cases st
  cases st'
  simp_all

/-- Every 128-bit number is a state. -/
theorem exists_state {x : Nat} (hx : x < 2 ^ 128) : ∃ st : OtelRandomState, st.toNat = x := by
  refine ⟨{ lo := .ofNat (x % 2 ^ 64), hi := .ofNat (x / 2 ^ 64) }, ?_⟩
  have hhi : x / 2 ^ 64 < 2 ^ 64 := Nat.div_lt_of_lt_mul hx
  have hlo : x % 2 ^ 64 < 2 ^ 64 := Nat.mod_lt x (by decide)
  rw [OtelRandomState.toNat, UInt64.toNat_ofNat_of_lt' hhi, UInt64.toNat_ofNat_of_lt' hlo,
    Nat.div_add_mod']

theorem odd_multiplier : Odd otelRandomMultiplier := by
  rw [Nat.odd_iff]
  rfl

theorem toNat_after (n : Nat) (st : OtelRandomState) : (otelRandomAfter n st).toNat =
    st.toNat * otelRandomMultiplier ^ n % 2 ^ 128 := by
  rw [← iterate_step (toNat_lt st)]
  induction n with
  | zero => rfl
  | succ n ih =>
    rw [otelRandomAfter, Function.iterate_succ_apply', Function.iterate_succ_apply', toNat_next]
    exact congrArg _ ih

/-! ## The generator -/

/-- The limbs of `otel_random_next` multiply 128-bit numbers without an overflow on the way, and so
every step permutes the states. -/
theorem random_multiplies :
    (∀ st : OtelRandomState,
      (otelRandomNext st).1.toNat = st.toNat * otelRandomMultiplier % 2 ^ 128 ∧
      (otelRandomNext st).2.toNat = st.toNat * otelRandomMultiplier % 2 ^ 128 / 2 ^ 64 ∧
      (∀ n ∈ otelRandomSums st, n < 2 ^ 64) ∧
      trailingZeros 128 (otelRandomNext st).1.toNat = trailingZeros 128 st.toNat ∧
      (st.toNat ≠ 0 → (otelRandomNext st).1.toNat ≠ 0) ∧
      ∀ n, (otelRandomAfter n st).toNat = st.toNat * otelRandomMultiplier ^ n % 2 ^ 128) ∧
    Function.Bijective fun st : OtelRandomState => (otelRandomNext st).1 := by
  constructor
  · intro st
    have hnext := toNat_next st
    refine ⟨hnext, ?_, otelRandomSums_lt st, ?_, ?_, fun n => toNat_after n st⟩
    · rw [next_hi, ← toNat_div, hnext, step]
    · rw [hnext, trailingZeros_step odd_multiplier]
    · intro hne hzero
      rw [hnext] at hzero
      exact hne ((step_eq_zero odd_multiplier (toNat_lt st)).mp hzero)
  · constructor
    · intro st st' h
      have hstep : step 128 otelRandomMultiplier st.toNat =
          step 128 otelRandomMultiplier st'.toNat := by
        rw [← toNat_next, ← toNat_next]
        exact congrArg _ h
      exact state_eq (step_injective odd_multiplier (toNat_lt st) (toNat_lt st') hstep)
    · intro st
      obtain ⟨x, hx, hstep⟩ := step_surjective odd_multiplier (by decide) (toNat_lt st)
      obtain ⟨st', rfl⟩ := exists_state hx
      exact ⟨st', state_eq ((toNat_next st').trans hstep)⟩

end OtelTracing
