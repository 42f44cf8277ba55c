import OtelTracing.Sampling
import OtelTracing.Lib.Cycle
import OtelTracing.Proofs.RandomProofs
import OtelTracing.Proofs.IdsProofs

/-!
# Proofs: the ratio sampler

A generator comes back to its state after a cycle, and of the states of the cycle the ratio's share is
below the threshold.
-/

namespace OtelTracing

open ByteMem Finset Function Lehmer

variable {t : Tracer} {tid : ThreadId} {a : CtxAddr} {c : OtelThreadCtx} {st : OtelRandomState}
  {ratio : Rat} {k : Nat}

/-! ## The cycle of a generator -/

/-- The generator on its states as numbers. -/
theorem toNat_after_iterate (n : Nat) (st : OtelRandomState) :
    (otelRandomAfter n st).toNat = (step 128 otelRandomMultiplier)^[n] st.toNat := by
  rw [iterate_step (toNat_lt st)]
  exact toNat_after n st

theorem multiplier_mod : otelRandomMultiplier % 8 = 5 := rfl

/-- The state as a multiple of an odd state of the generator without its trailing zeros. -/
theorem odd_part (hk : trailingZeros 128 st.toNat = k) (hle : k ≤ 62) :
    ∃ y, Odd y ∧ y < 2 ^ (126 - k + 2) ∧ st.toNat = 2 ^ k * y ∧ k + (126 - k + 2) = 128 := by
  obtain ⟨y, hodd, hy⟩ := exists_odd hk (by omega)
  have hsum : k + (126 - k + 2) = 128 := by omega
  refine ⟨y, hodd, ?_, hy, hsum⟩
  have hlt := toNat_lt st
  rw [hy, ← hsum, pow_add] at hlt
  exact Nat.lt_of_mul_lt_mul_left hlt

theorem after_eq_iff (n : Nat) (st : OtelRandomState) :
    otelRandomAfter n st = st ↔ IsPeriodicPt (step 128 otelRandomMultiplier) n st.toNat := by
  unfold IsPeriodicPt IsFixedPt
  rw [← toNat_after_iterate]
  constructor
  · intro h
    rw [h]
  · exact state_eq

/-- The length of a cycle. -/
theorem minimalPeriod_random (hk : trailingZeros 128 st.toNat = k) (hle : k ≤ 62) :
    minimalPeriod (fun st => (otelRandomNext st).1) st = 2 ^ (126 - k) := by
  obtain ⟨y, hodd, hlt, hy, hsum⟩ := odd_part hk hle
  have hnumber : minimalPeriod (step 128 otelRandomMultiplier) st.toNat = 2 ^ (126 - k) := by
    have hmul := minimalPeriod_mul k (126 - k + 2) otelRandomMultiplier y
    rw [hsum, minimalPeriod_step multiplier_mod hodd hlt] at hmul
    rw [hy]
    exact hmul
  rw [← hnumber]
  exact minimalPeriod_eq_minimalPeriod_iff.mpr fun n => after_eq_iff n st

/-- In a cycle the words that are drawn pass each threshold in proportion. -/
theorem card_draws (hk : trailingZeros 128 st.toNat = k) (hle : k ≤ 62) {threshold : Nat}
    (ht : threshold ≤ 2 ^ 64) :
    ((range (2 ^ (126 - k))).filter fun n =>
      (otelRandomNext (otelRandomAfter n st)).2.toNat < threshold).card =
      threshold * 2 ^ (62 - k) := by
  -- the words that are drawn are those of the states after the next
  have hnext : trailingZeros 128 (otelRandomNext st).1.toNat = k := by
    rw [toNat_next, trailingZeros_step odd_multiplier, hk]
  obtain ⟨z, hzodd, hzlt, hz, hsum⟩ := odd_part hnext hle
  have hscale : threshold * 2 ^ 64 = 2 ^ k * (4 * (threshold * 2 ^ (62 - k))) := by
    have hpow : (2 : Nat) ^ 64 = 2 ^ k * (4 * 2 ^ (62 - k)) := by
      have hexp : 64 = k + (2 + (62 - k)) := by omega
      conv_lhs => rw [hexp, pow_add, pow_add]
      rfl
    rw [hpow]
    ring
  have hshare : threshold * 2 ^ (62 - k) ≤ 2 ^ (126 - k) := by
    have hexp : 126 - k = 64 + (62 - k) := by omega
    rw [hexp, pow_add]
    exact Nat.mul_le_mul_right _ ht
  rw [← card_iterate_lt multiplier_mod hzodd hzlt hshare]
  congr 1
  refine filter_congr fun n _ => ?_
  have hdraw : (otelRandomNext (otelRandomAfter n st)).2.toNat =
      2 ^ k * (step (126 - k + 2) otelRandomMultiplier)^[n] z / 2 ^ 64 := by
    have hafter : (otelRandomNext (otelRandomAfter n st)).1 =
        otelRandomAfter n (otelRandomNext st).1 :=
      (iterate_succ_apply' (fun st => (otelRandomNext st).1) n st).symm.trans
        (iterate_succ_apply (fun st => (otelRandomNext st).1) n st)
    rw [next_hi, ← toNat_div, hafter, toNat_after_iterate, hz, ← hsum, iterate_multiple]
  rw [hdraw, Nat.div_lt_iff_lt_mul (by decide), hscale]
  exact Nat.mul_lt_mul_left (Nat.two_pow_pos k)

/-! ## The decision -/

theorem root_recording (always : Bool) (threshold now : UInt64) (st : OtelRandomState)
    (s : OtelSpan) (name : Option Bytes) (kind : UInt32) :
    otelSpanRecording (StartCall.root.run ⟨true, always, threshold, now⟩ (some st) s name kind).2 =
      (always || decide ((otelRandomNext st).2 < threshold)) := by
  simp only [StartCall.run, otelSpanStart, Bool.not_true, Bool.false_eq_true, if_false,
    otelSpanStartRoot_]
  cases always with
  | true =>
    simp only [Bool.not_true, Bool.false_and, Bool.false_eq_true, if_false, Bool.true_or]
    exact init_recording ..
  | false =>
    simp only [Bool.not_false, Bool.true_and, Bool.false_eq_true, if_false, Bool.false_or]
    by_cases hlt : (otelRandomNext st).2 < threshold
    · rw [if_neg (by simpa using hlt), decide_eq_true hlt]
      exact init_recording ..
    · rw [if_pos (by simpa using hlt), decide_eq_false hlt]
      exact notRecording_not_recording s

theorem recordsRoot_eq (htls : t.tls tid = some a) (henabled : t.enabled = true) (s : OtelSpan)
    (name : Option Bytes) (kind : UInt32) (now : UInt64) :
    recordsRoot (t.withRandstate a c st) tid s name kind now =
      (t.sampleAlways || decide ((otelRandomNext st).2 < t.sampleThreshold)) := by
  have hctx : (t.withRandstate a c st).ctxs a = some { c with randstate := st } :=
    Function.update_self ..
  have htls' : (t.withRandstate a c st).tls tid = some a := htls
  have hon : (t.withRandstate a c st).enabled = true := henabled
  unfold recordsRoot otelStart
  simp only [htls', hon, StartCall.usesCtx, if_true]
  rw [deref_of_live hctx]
  exact root_recording t.sampleAlways t.sampleThreshold now st s name kind

/-- The sampler records the ratio's share of the words. -/
theorem sampled_iff (t : Tracer) (ratio : Rat) (draw : UInt64) :
    ((otelSetSampler t (samplerRatio ratio)).sampleAlways ||
      decide (draw < (otelSetSampler t (samplerRatio ratio)).sampleThreshold)) = true ↔
      draw.toNat < samplerShare ratio := by
  unfold samplerRatio samplerShare
  split_ifs with hone hzero
  · have hshare : max 0 (min ratio 1) = 1 := by
      rw [min_eq_right hone]
      exact max_eq_right zero_le_one
    rw [hshare, one_mul]
    have hfloor : ⌊(2 : Rat) ^ 64⌋₊ = 2 ^ 64 := by
      exact_mod_cast Nat.floor_natCast (R := Rat) (2 ^ 64)
    rw [hfloor]
    exact ⟨fun _ => draw.toNat_lt, fun _ => rfl⟩
  · have hshare : max 0 (min ratio 1) = 0 := by
      rw [min_eq_left (hzero.trans zero_le_one)]
      exact max_eq_left hzero
    rw [hshare, zero_mul, Nat.floor_zero]
    simp [otelSetSampler]
  · have hshare : max 0 (min ratio 1) = ratio := by
      rw [min_eq_left (not_le.mp hone).le]
      exact max_eq_right (not_le.mp hzero).le
    have hpos : 0 ≤ ratio * 2 ^ 64 := mul_nonneg (not_le.mp hzero).le (by positivity)
    have hlt : ⌊ratio * 2 ^ 64⌋₊ < 2 ^ 64 := by
      rw [Nat.floor_lt hpos]
      push_cast
      exact mul_lt_of_lt_one_left (by positivity) (not_le.mp hone)
    rw [hshare, otelSetSampler, Bool.false_or, decide_eq_true_iff, UInt64.lt_iff_toNat_lt,
      UInt64.toNat_ofNat_of_lt' hlt]

theorem samplerShare_le (ratio : Rat) : samplerShare ratio ≤ 2 ^ 64 := by
  have hclamp : max 0 (min ratio 1) ≤ 1 := max_le zero_le_one (min_le_right ratio 1)
  have hfloor : (samplerShare ratio : Rat) ≤ ((2 ^ 64 : Nat) : Rat) := by
    refine (Nat.floor_le (mul_nonneg (le_max_left ..) (by positivity))).trans ?_
    push_cast
    exact mul_le_of_le_one_left (by positivity) hclamp
  exact_mod_cast hfloor

/-- A generator whose state has at most 62 trailing zeros goes through a cycle, and of the states of the
cycle exactly the ratio's share lets a root span be recorded, whatever the ratio. -/
theorem sampler_exact (t : Tracer) (tid : ThreadId) (a : CtxAddr) (c : OtelThreadCtx) (ratio : Rat)
    (s : OtelSpan) (name : Option Bytes) (kind : UInt32) (now : UInt64) (st : OtelRandomState)
    (htls : t.tls tid = some a) (henabled : t.enabled = true) (k : Nat)
    (hk : trailingZeros 128 st.toNat = k) (hle : k ≤ 62) :
    minimalPeriod (fun st => (otelRandomNext st).1) st = 2 ^ (126 - k) ∧
      ((range (2 ^ (126 - k))).filter fun n =>
        recordsRoot ((otelSetSampler t (samplerRatio ratio)).withRandstate a c
          (otelRandomAfter n st)) tid s name kind now).card = samplerShare ratio * 2 ^ (62 - k) := by
  refine ⟨minimalPeriod_random hk hle, ?_⟩
  have hset : (otelSetSampler t (samplerRatio ratio)).tls = t.tls ∧
      (otelSetSampler t (samplerRatio ratio)).enabled = t.enabled := by
    cases samplerRatio ratio with
    | _ => exact ⟨rfl, rfl⟩
  rw [← card_draws hk hle (samplerShare_le ratio)]
  congr 1
  refine filter_congr fun n _ => ?_
  rw [recordsRoot_eq (hset.1 ▸ htls) (hset.2 ▸ henabled)]
  exact sampled_iff t ratio _

/-- A tracer whose thread 2 has the context 7. -/
def samplingTracer : Tracer :=
  otelThreadRegister (otelSetTransport (otelInit Tracer.boot none none true).1 true) 2 7 ⟨1, 0⟩ 0

theorem sampler_exact_half :
    ((range (2 ^ 126)).filter fun n =>
      recordsRoot ((otelSetSampler samplingTracer (samplerRatio (1 / 2))).withRandstate 7
        (newCtx 4 7 ⟨1, 0⟩ 0) (otelRandomAfter n ⟨1, 0⟩)) 2 zeroSpan none 1 0).card = 2 ^ 125 := by
  have hshare : samplerShare (1 / 2) = 2 ^ 63 := by
    have hhalf : max 0 (min (1 / 2) 1) * 2 ^ 64 = ((2 ^ 63 : Nat) : Rat) := by norm_num
    rw [samplerShare, hhalf, Nat.floor_natCast]
  have hzeros : trailingZeros 128 (OtelRandomState.toNat ⟨1, 0⟩) = 0 := by
    rw [trailingZeros, if_neg (by decide)]
  have hexact := (sampler_exact samplingTracer 2 7 (newCtx 4 7 ⟨1, 0⟩ 0) (1 / 2) zeroSpan none 1 0
    ⟨1, 0⟩ rfl rfl 0 hzeros (Nat.zero_le _)).2
  rw [hshare] at hexact
  exact hexact

end OtelTracing
