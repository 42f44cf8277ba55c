import OtelTracing.Capacity
import OtelTracing.Proofs.RingProofs

/-!
# Proofs: ring capacities

The loop of `otel_set_ring_capacity` ends exactly for the requests that a power of two can serve, and
no step changes the capacity of a context.
-/

namespace OtelTracing

open ByteMem Locks Outcome

variable {pack : Proto.ExportTraceServiceRequest → Bytes} {σ σ' : Process} {t : ThreadId}
  {a : CtxAddr} {spans cap : UInt32} {old : Set CtxAddr}

/-! ## The loop -/

theorem capacityLoop_none (hspans : 2 ^ 31 < spans.toNat) (fuel : Nat)
    (hcap : cap = 0 ∨ PowerOfTwo cap) : capacityLoop spans fuel cap = none := by
  induction fuel generalizing cap with
  | zero => rfl
  | succ fuel ih =>
    have hlt : cap < spans := by
      rw [UInt32.lt_iff_toNat_lt]
      rcases hcap with rfl | ⟨k, hk, hpow⟩
      · exact Nat.lt_trans (by decide) hspans
      · rw [hpow]
        exact Nat.lt_of_le_of_lt (Nat.pow_le_pow_right (by decide) (by omega)) hspans
    rw [capacityLoop, if_pos hlt]
    exact ih (double_cases hcap)

theorem capacityLoop_least {k : Nat} (hspans : spans.toNat ≤ 2 ^ 31) (fuel : Nat) (hk : k ≤ 31)
    (hcap : cap.toNat = 2 ^ k) (hbelow : ∀ j < k, 2 ^ j < spans.toNat) (hfuel : 32 ≤ fuel + k) :
    ∃ m r, capacityLoop spans fuel cap = some r ∧ r.toNat = 2 ^ m ∧ spans.toNat ≤ 2 ^ m ∧
      ∀ j < m, 2 ^ j < spans.toNat := by
  induction fuel generalizing k cap with
  | zero => omega
  | succ fuel ih =>
    rw [capacityLoop]
    by_cases hlt : cap < spans
    · rw [if_pos hlt]
      rw [UInt32.lt_iff_toNat_lt, hcap] at hlt
      have hlast : k < 31 := (Nat.pow_lt_pow_iff_right (by decide)).mp (Nat.lt_of_lt_of_le hlt hspans)
      refine ih hlast (double_power hcap hlast) ?_ (by omega)
      intro j hj
      rcases Nat.lt_succ_iff_lt_or_eq.mp hj with hj | rfl
      · exact hbelow j hj
      · exact hlt
    · rw [if_neg hlt]
      rw [UInt32.lt_iff_toNat_lt, hcap] at hlt
      exact ⟨k, cap, rfl, hcap, Nat.le_of_not_lt hlt, hbelow⟩

theorem toNat_request (spans : UInt32) :
    (if spans < 2 then 2 else spans).toNat = max spans.toNat 2 := by
  have htwo : (2 : UInt32).toNat = 2 := rfl
  by_cases hsmall : spans < 2
  · rw [if_pos hsmall]
    rw [UInt32.lt_iff_toNat_lt] at hsmall
    omega
  · rw [if_neg hsmall]
    rw [UInt32.lt_iff_toNat_lt] at hsmall
    omega

theorem isLeast_power {n m cap : Nat} (hcap : cap = 2 ^ m) (hle : n ≤ 2 ^ m)
    (hbelow : ∀ j < m, 2 ^ j < n) : IsLeast {r | (∃ k, r = 2 ^ k) ∧ n ≤ r} cap := by
  refine ⟨⟨⟨m, hcap⟩, hcap ▸ hle⟩, ?_⟩
  rintro _ ⟨⟨k, rfl⟩, hk⟩
  by_contra hlt
  rw [hcap, Nat.not_le, Nat.pow_lt_pow_iff_right (by decide)] at hlt
  exact absurd (hbelow k hlt) (Nat.not_lt.mpr hk)

/-- Up to `2 ^ 31` spans the capacity is the right one. -/
theorem roundCapacity_right (hspans : spans.toNat ≤ 2 ^ 31) :
    ∃ cap, roundCapacity spans = some cap ∧ RightCapacity spans cap := by
  have hmax : max spans.toNat 2 ≤ 2 ^ 31 := Nat.max_le.mpr ⟨hspans, by decide⟩
  have hrequest := toNat_request spans
  unfold RightCapacity
  simp only [if_pos hmax]
  rw [← hrequest] at hmax ⊢
  have hone : (1 : UInt32).toNat = 2 ^ 0 := rfl
  obtain ⟨m, r, hloop, hpow, hle, hbelow⟩ :=
    capacityLoop_least hmax 33 (by decide) hone nofun (by decide)
  exact ⟨r, hloop, isLeast_power hpow hle hbelow⟩

/-- A larger request never leaves the loop. -/
theorem request_none (hspans : 2 ^ 31 < spans.toNat) (fuel : Nat) :
    capacityLoop (if spans < 2 then 2 else spans) fuel 1 = none := by
  refine capacityLoop_none ?_ fuel (Or.inr ⟨0, by decide, rfl⟩)
  rw [toNat_request]
  exact Nat.lt_of_lt_of_le hspans (Nat.le_max_left ..)

/-! ## Contexts -/

/-- The capacity that is set is `cap`, and all contexts but the old ones have it. -/
def Tracer.Sized (t : Tracer) (cap : UInt32) (old : Set CtxAddr) : Prop :=
  t.ringCapacity = cap ∧ ∀ a ∉ old, ∀ c, t.ctxs a = some c → c.capacity = cap

/-- The context at `a` is replaced by one with the same capacity. -/
theorem Tracer.Sized.setCtx {tr : Tracer} (h : tr.Sized cap old) {c c' : OtelThreadCtx}
    (hc : tr.ctxs a = some c) (hsame : c'.capacity = c.capacity) :
    (tr.setCtx a c').Sized cap old := by
  refine ⟨h.1, ?_⟩
  intro b hb d hd
  replace hd : Function.update tr.ctxs a (some c') b = some d := hd
  by_cases hba : b = a
  · rw [hba, Function.update_self] at hd
    cases hd
    exact hsame.trans (h.2 a (hba ▸ hb) c hc)
  · rw [Function.update_of_ne hba] at hd
    exact h.2 b hb d hd

/-- A context is allocated with the capacity that is set. -/
theorem sized_alloc {m : Shared} (h : m.tracer.Sized cap old) (a : CtxAddr)
    (seed : OtelRandomState) (now : UInt64) :
    (m.alloc a seed now).tracer.Sized cap (old \ {a}) := by
  refine ⟨h.1, ?_⟩
  intro b hb c hc
  replace hc : Function.update m.tracer.ctxs a _ b = some c := hc
  by_cases hba : b = a
  · rw [hba, Function.update_self] at hc
    cases hc
    exact h.1
  · rw [Function.update_of_ne hba] at hc
    exact h.2 b (fun hold => hb ⟨hold, hba⟩) c hc

theorem Tracer.Sized.mono {tr : Tracer} {old' : Set CtxAddr} (h : tr.Sized cap old)
    (hsub : old ⊆ old') : tr.Sized cap old' :=
  ⟨h.1, fun a ha => h.2 a fun hold => ha (hsub hold)⟩

theorem sized_end {m m' : Shared} {b : CtxAddr} {s : OtelSpan} {head : UInt64} {pc : EndPc}
    {pc' : Option EndPc} (h : m.tracer.Sized cap old) (hend : endStep m b s head pc = .ok (m', pc')) :
    m'.tracer.Sized cap old := by
  cases endStep_cases hend with
  | full c hc hfull => exact h.setCtx hc rfl
  | room c hc hroom => exact h
  | copy c hc => exact h.setCtx hc rfl
  | storeHead c hc => exact h.setCtx hc rfl

theorem sized_pass {m m' : Shared} {ctxs : List CtxAddr} {v v' : PassVars} {pc : PassPc}
    {pc' : Option PassPc} (h : m.tracer.Sized cap old)
    (hpass : passStep pack m ctxs v pc = .ok (m', pc', v')) : m'.tracer.Sized cap old := by
  cases pass_cases hpass with
  | loopEnd b c hc heq => exact h.setCtx hc rfl
  | loopAdd b c m' hc hne hadd =>
    obtain ⟨o, bufs, htracer⟩ := add_out hadd
    rw [htracer]
    exact h
  | flush t hflush =>
    obtain ⟨o, bufs, rfl⟩ := flush_out hflush
    exact h
  | _ => exact h

theorem sized_thread (h : σ.shared.tracer.Sized cap old) (hstep : Stepped pack σ t σ') :
    σ'.shared.tracer.Sized cap old := by
  cases hstep with
  | spanEnd b s head e e' m hpc hend => exact sized_end h hend
  | spanEnded b s head e m hpc hend => exact sized_end h hend
  | unregisterPass b p p' v v' m hpc hpass => exact sized_pass h hpass
  | unregisterPassed b p v v' m hpc hpass => exact sized_pass h hpass
  | drainPass k p p' v v' m hpc hpass => exact sized_pass h hpass
  | drainPassed k p v v' m hpc hpass => exact sized_pass h hpass
  | unregisterUnlink b m hpc hunlink =>
    obtain ⟨threads, -, hm⟩ := bind_ok hunlink
    cases hm
    exact h
  | unregisterFree b m hpc hfree =>
    obtain ⟨tracer, htracer, hm⟩ := bind_ok hfree
    obtain ⟨c, -, htracer⟩ := bind_ok htracer
    cases htracer
    cases hm
    refine ⟨h.1, ?_⟩
    intro d hd e he
    replace he : Function.update σ.shared.tracer.ctxs b none d = some e := he
    by_cases hdb : d = b
    · rw [hdb, Function.update_self] at he
      cases he
    · rw [Function.update_of_ne hdb] at he
      exact h.2 d hd e he
  | _ => exact h

theorem sized_step {x : Act} (h : σ.shared.tracer.Sized cap old) (hx : x.setsCapacity = false)
    (he : x.Possible σ) (hstep : processStep pack σ x = .ok σ') :
    σ'.shared.tracer.Sized cap old := by
  cases x with
  | timer =>
    cases hstep
    exact h
  | step t => exact sized_thread h (step_cases he hstep)
  | call t c =>
    cases call_cases hstep with
    | setRingCapacity spans cap hcap => cases hx
    | register b seed now htls => exact (sized_alloc h b seed now).mono Set.sdiff_subset
    | _ => exact h

theorem sized_run {acts : List Act} (h : σ.shared.tracer.Sized cap old)
    (hacts : ∀ x ∈ acts, x.setsCapacity = false) (hrun : (processMachine pack).Run σ acts σ') :
    σ'.shared.tracer.Sized cap old :=
  hrun.invariant (I := fun σ => σ.shared.tracer.Sized cap old) h
    fun _ _ hx _ hi he hstep => sized_step hi (hacts _ hx) he hstep

/-- A ring that agrees with a ledger is indexed by masking. -/
theorem serves_of_ctxOk {c : OtelThreadCtx} {l : Ledger} (h : CtxOk c l)
    (hrequested : min spans.toNat (2 ^ 31) ≤ c.capacity.toNat) : c.Serves spans := by
  have hfull := h.full_iff
  have hlength := h.length_staged
  have hpublished := h.published_le.trans h.taken_le
  obtain ⟨k, hk, hcap, hring⟩ := h
  have hmask := hring.mask_eq
  refine ⟨⟨k, hk, hcap⟩, ?_, ?_, hrequested, ?_⟩
  · have hone : (1 : UInt32).toNat = 1 := rfl
    have hpos := Nat.two_pow_pos k
    rw [UInt32.toNat_toUInt64] at hmask
    rw [← UInt32.toNat_inj, hmask, UInt32.toNat_sub_of_le, hcap, hone]
    rw [UInt32.le_iff_toNat_le, hone, hcap]
    exact hpos
  · intro i
    rw [hcap]
    constructor
    · rintro ⟨cursor, rfl⟩
      exact Ring.slot_lt hmask cursor
    · intro hi
      refine ⟨UInt64.ofNat i, ?_⟩
      rw [OtelThreadCtx.slot, Spsc.slot_ofNat hmask hring.bits_lt.le, Nat.mod_eq_of_lt hi]
  · rw [hfull, hlength]
    omega

theorem requested_le (h : RightCapacity spans cap) : min spans.toNat (2 ^ 31) ≤ cap.toNat := by
  unfold RightCapacity at h
  split_ifs at h with hmax
  · have hle := h.1.2
    omega
  · omega

/-- `otel_set_ring_capacity` does what it is for exactly if at most `2 ^ 31` spans are asked for:
for every other number its loop does not end. -/
theorem capacity_serves (pack : Proto.ExportTraceServiceRequest → Bytes) (σ₀ σ : Process)
    (acts : List Act) (t : ThreadId) (spans : UInt32) (h0 : σ₀.AtRest) (hv : σ₀.Vacant)
    (hrun : (processMachine pack).Run σ₀ acts σ) (hidle : σ.pcs t = .idle) :
    CapacityServes pack σ t spans ↔ spans.toNat ≤ 2 ^ 31 := by
  constructor
  · rintro ⟨⟨fuel, hsome⟩, -⟩
    by_contra hlarge
    rw [request_none (Nat.lt_of_not_le hlarge)] at hsome
    cases hsome
  · intro hspans
    obtain ⟨cap, hcap, hright⟩ := roundCapacity_right hspans
    have hset : processStep pack σ (.call t (.setRingCapacity spans)) = .ok { σ with
        shared := { σ.shared with
          tracer := { σ.shared.tracer with ringCapacity := cap } } } := by
      show (otelSetRingCapacity σ.shared.tracer spans >>= _) = _
      rw [otelSetRingCapacity, hcap]
      rfl
    refine ⟨⟨33, by rw [roundCapacity] at hcap; rw [hcap]; rfl⟩, _, hset, hright, ?_⟩
    intro acts₁ acts₂ σ₂ σ₃ u a seed now hrun₁ htls hrun₂ hacts c hc
    -- all contexts but those that are there already get the capacity
    have hsized : σ₂.shared.tracer.Sized cap Set.univ :=
      sized_run ⟨rfl, fun a ha => absurd (Set.mem_univ a) ha⟩
        (fun x hx => hacts x (List.mem_append_left _ hx)) hrun₁
    have hcall : (processMachine pack).Run σ [.call t (.setRingCapacity spans)] _ :=
      .one ⟨hidle, trivial⟩ hset
    have hheap : σ₃.HeapOk :=
      heapOk_run h0 hv ((hrun.append hcall).append (hrun₁.append hrun₂))
    obtain ⟨σ₄, -, halloc, hrun₃⟩ := hrun₂.cons_inv
    replace halloc : callStep σ₂ u (.register a seed now) = .ok σ₄ := halloc
    simp only [callStep, htls] at halloc
    cases halloc
    have hnew : σ₃.shared.tracer.Sized cap (Set.univ \ {a}) :=
      sized_run (sized_alloc hsized a seed now)
        (fun x hx => hacts x (List.mem_append_right _ hx)) hrun₃
    have hcapacity : c.capacity = cap := hnew.2 a (fun hold => hold.2 rfl) c hc
    exact serves_of_ctxOk (hheap.ring.rings a c hc) (hcapacity ▸ requested_le hright)

/-- A process that just started. -/
theorem capacity_serves_three :
    CapacityServes (fun _ => []) (Process.start Tracer.boot false 0 1) 2 3 ↔
      (3 : UInt32).toNat ≤ 2 ^ 31 :=
  capacity_serves _ _ _ [] 2 3 (start_atRest Tracer.boot false (by decide))
    ⟨fun _ => rfl, fun _ => rfl, rfl, ⟨11, by decide, rfl⟩, fun _ => rfl, rfl, rfl, rfl⟩ .nil rfl

/-- One span more than `2 ^ 31`: the loop runs for ever, so the call never returns. -/
theorem capacity_hangs :
    (∀ fuel, capacityLoop (if (0x80000001 : UInt32) < 2 then 2 else 0x80000001) fuel 1 = none) ∧
      ¬ CapacityServes (fun _ => []) (Process.start Tracer.boot false 0 1) 2 0x80000001 := by
  refine ⟨request_none (by decide), ?_⟩
  rintro ⟨⟨fuel, hsome⟩, -⟩
  rw [request_none (by decide)] at hsome
  cases hsome

end OtelTracing
