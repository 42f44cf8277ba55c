import OtelTracing.Lib.Spsc
import OtelTracing.Proofs.OwnProofs

/-!
# Proofs: rings and ledgers

In every state of the process each ring agrees with the ledger of its context: the producer is between
its load of `tail` and its store of `head`, or it is not; one pass at a time moves through the ring,
and outside of it the slots behind `tail` are those that the passes have not taken.
-/

namespace OtelTracing

open ByteMem Locks Outcome

variable {pack : Proto.ExportTraceServiceRequest → Bytes} {σ σ' : Process} {t u : ThreadId}
  {pc pc' : Pc} {a b : CtxAddr} {c : OtelThreadCtx} {l : Ledger} {m m' : Shared} {s : OtelSpan}
  {head : UInt64} {e : EndPc} {p : PassPc} {v v' : PassVars}

/-! ## Capacities -/

/-- `cap <<= 1` -/
theorem double_power {cap : UInt32} {k : Nat} (hcap : cap.toNat = 2 ^ k) (hk : k < 31) :
    (cap <<< 1).toNat = 2 ^ (k + 1) := by
  have hsmall : 2 ^ k ≤ 2 ^ 30 := Nat.pow_le_pow_right (by decide) (by omega)
  have hone : (1 : UInt32).toNat % 32 = 1 := rfl
  rw [UInt32.toNat_shiftLeft, hone, hcap, Nat.shiftLeft_eq, pow_one, ← pow_succ]
  exact Nat.mod_eq_of_lt (by omega)

/-- The largest power of two is shifted out. -/
theorem double_top {cap : UInt32} (hcap : cap.toNat = 2 ^ 31) : cap <<< 1 = 0 := by
  apply UInt32.toNat_inj.mp
  rw [UInt32.toNat_shiftLeft, hcap]
  rfl

theorem double_cases {cap : UInt32} (hcap : cap = 0 ∨ PowerOfTwo cap) :
    cap <<< 1 = 0 ∨ PowerOfTwo (cap <<< 1) := by
  rcases hcap with rfl | ⟨k, hk, hpow⟩
  · exact Or.inl rfl
  · by_cases hlast : k = 31
    · rw [hlast] at hpow
      exact Or.inl (double_top hpow)
    · exact Or.inr ⟨k + 1, by omega, double_power hpow (by omega)⟩

theorem capacityLoop_power {spans cap r : UInt32} (hspans : 0 < spans) (fuel : Nat)
    (hcap : cap = 0 ∨ PowerOfTwo cap) (h : capacityLoop spans fuel cap = some r) : PowerOfTwo r := by
  induction fuel generalizing cap with
  | zero => cases h
  | succ fuel ih =>
    rw [capacityLoop] at h
    by_cases hlt : cap < spans
    · rw [if_pos hlt] at h
      exact ih (double_cases hcap) h
    · rw [if_neg hlt] at h
      cases h
      rcases hcap with rfl | hpow
      · exact absurd hspans hlt
      · exact hpow

/-- The capacities that `otel_set_ring_capacity` sets. -/
theorem roundCapacity_power {spans cap : UInt32} (h : roundCapacity spans = some cap) :
    PowerOfTwo cap := by
  refine capacityLoop_power ?_ 33 (Or.inr ⟨0, by decide, rfl⟩) h
  by_cases hsmall : spans < 2
  · rw [if_pos hsmall]
    decide
  · rw [if_neg hsmall]
    rw [UInt32.lt_iff_toNat_lt] at hsmall ⊢
    have htwo : (2 : UInt32).toNat = 2 := rfl
    have hzero : (0 : UInt32).toNat = 0 := rfl
    omega

/-! ## A context and its ledger -/

/-- The ring of the context holds what its ledger says. -/
def CtxOk (c : OtelThreadCtx) (l : Ledger) : Prop :=
  ∃ k < 32, c.capacity.toNat = 2 ^ k ∧
    Spsc.Ok k c.ring c.mask.toUInt64 c.head c.tail l.staged l.published l.taken

theorem ctxOk_new {cap : UInt32} (hcap : PowerOfTwo cap) (a : CtxAddr) (seed : OtelRandomState)
    (now : UInt64) : CtxOk (newCtx cap a seed now) Ledger.empty := by
  obtain ⟨k, hk, hpow⟩ := hcap
  refine ⟨k, hk, hpow, Spsc.Ok.new ?_ (by omega) _⟩
  have hpos := Nat.two_pow_pos k
  have hone : (1 : UInt32).toNat = 1 := rfl
  show (cap - 1).toUInt64.toNat = 2 ^ k - 1
  rw [UInt32.toNat_toUInt64, UInt32.toNat_sub_of_le, hpow, hone]
  rw [UInt32.le_iff_toNat_le, hpow, hone]
  exact hpos

theorem CtxOk.taken_le (h : CtxOk c l) : l.taken ≤ l.staged.length := by
  obtain ⟨k, -, -, h⟩ := h
  exact h.taken_le

theorem CtxOk.published_le (h : CtxOk c l) : l.published ≤ l.taken := by
  obtain ⟨k, -, -, h⟩ := h
  exact h.released_le

theorem CtxOk.head_eq (h : CtxOk c l) : c.head = UInt64.ofNat l.staged.length := by
  obtain ⟨k, -, -, h⟩ := h
  exact h.head_eq

theorem CtxOk.tail_eq (h : CtxOk c l) : c.tail = UInt64.ofNat l.published := by
  obtain ⟨k, -, -, h⟩ := h
  exact h.tail_eq

theorem CtxOk.length_le (h : CtxOk c l) :
    l.staged.length ≤ l.published + c.capacity.toNat := by
  obtain ⟨k, -, hcap, h⟩ := h
  rw [hcap]
  exact h.length_le

theorem CtxOk.capacity_le (h : CtxOk c l) : c.capacity.toNat ≤ 2 ^ 31 := by
  obtain ⟨k, hk, hcap, -⟩ := h
  rw [hcap]
  exact Nat.pow_le_pow_right (by decide) (by omega)

/-- The producer finds the ring full when as many spans are staged as it has slots. -/
theorem CtxOk.full_iff (h : CtxOk c l) :
    c.head - c.tail ≥ c.capacity.toUInt64 ↔ l.staged.length = l.published + c.capacity.toNat := by
  have hle := h.length_le
  have hpub := h.published_le
  have htaken := h.taken_le
  obtain ⟨k, -, -, hring⟩ := h
  rw [ge_iff_le, UInt64.le_iff_toNat_le, hring.toNat_sub, UInt32.toNat_toUInt64]
  omega

/-- What is between `tail` and `head` is what is staged and not published as drained. -/
theorem CtxOk.staged_eq (h : CtxOk c l) (hcalm : l.published = l.taken) :
    c.staged = l.staged.drop l.taken := by
  have htail := h.tail_eq
  obtain ⟨k, -, -, hring⟩ := h
  rw [OtelThreadCtx.staged, htail, hcalm]
  exact hring.contents

theorem CtxOk.length_staged (h : CtxOk c l) : c.staged.length = l.staged.length - l.published := by
  obtain ⟨k, -, -, hring⟩ := h
  rw [OtelThreadCtx.staged, Ring.length_contents, hring.toNat_sub]

theorem CtxOk.contents (h : CtxOk c l) :
    Ring.contents c.ring c.mask.toUInt64 (UInt64.ofNat l.taken) c.head = l.staged.drop l.taken := by
  obtain ⟨k, -, -, hring⟩ := h
  exact hring.contents

theorem CtxOk.read (h : CtxOk c l) (hlt : l.taken < l.staged.length) :
    c.ring (c.slot (UInt64.ofNat l.taken)) = l.staged[l.taken] := by
  obtain ⟨k, -, -, hring⟩ := h
  exact hring.read hlt

/-- Counts within the ring are told apart by their cursors. -/
theorem CtxOk.cursor_eq_iff (h : CtxOk c l) {n : Nat} (hle : l.taken ≤ n)
    (hn : n ≤ l.staged.length) : UInt64.ofNat l.taken = UInt64.ofNat n ↔ l.taken = n := by
  have hlen := h.length_le
  have hpub := h.published_le
  have hcap := h.capacity_le
  exact Spsc.ofNat_eq_iff hle (by omega)

/-! ## A producer at its ring -/

/-- What a producer that has loaded `head` relies on. -/
structure Producing (c : OtelThreadCtx) (l : Ledger) (s : OtelSpan) (head : UInt64) (e : EndPc) :
    Prop where
  head_eq : head = c.head
  room : e ≠ .loadTail → l.staged.length < l.published + c.capacity.toNat
  written : e = .storeHead → c.ring (c.slot head) = s

/-- What a pass relies on that is at the ring with the ledger `l`. -/
def Walking (v : PassVars) (l : Ledger) : PassPc → Prop
  | .loadHead _ => v.tail = UInt64.ofNat l.taken
  | .loop _ => v.tail = UInt64.ofNat l.taken ∧
      ∃ n, v.head = UInt64.ofNat n ∧ l.taken ≤ n ∧ n ≤ l.staged.length
  | .emit _ _ => v.tail = UInt64.ofNat l.taken ∧
      ∃ n, v.head = UInt64.ofNat n ∧ l.taken < n ∧ n ≤ l.staged.length
  | _ => True

def Shared.PcOk (m : Shared) : Pc → Prop
  | .spanEnd a s head e => ∀ c, m.tracer.ctxs a = some c → Producing c (m.ledger a) s head e
  | .unregisterPass _ p v | .drainPass _ p v => ∀ a, p.ring = some a → Walking v (m.ledger a) p
  | _ => True

theorem pcOk_of_ring (h : pc.ring = none) (hend : ∀ a s head e, pc ≠ .spanEnd a s head e) :
    m.PcOk pc := by
  cases pc with
  | spanEnd a s head e => exact absurd rfl (hend a s head e)
  | unregisterPass a p v =>
    intro b hb
    rw [show p.ring = none from h] at hb
    cases hb
  | drainPass k p v =>
    intro b hb
    rw [show p.ring = none from h] at hb
    cases hb
  | _ => trivial

/-! ## Steps of a pass -/

/-- The contexts and the ledgers are as before, except that rings may have been drained. -/
structure Shared.Consumed (m m' : Shared) : Prop where
  ctx : ∀ a c, m'.tracer.ctxs a = some c → ∃ tail, m.tracer.ctxs a = some { c with tail := tail }
  staged : ∀ a, (m'.ledger a).staged = (m.ledger a).staged
  published : ∀ a, (m.ledger a).published ≤ (m'.ledger a).published

theorem consumed_of_same (hctxs : m'.tracer.ctxs = m.tracer.ctxs)
    (hledger : ∀ a, (m'.ledger a).staged = (m.ledger a).staged ∧
      (m'.ledger a).published = (m.ledger a).published) : m.Consumed m' where
  ctx a c hc := ⟨c.tail, by rw [← hctxs, hc]⟩
  staged a := (hledger a).1
  published a := (hledger a).2.ge

/-- A producer does not mind that its ring is drained. -/
theorem Shared.Consumed.producing (h : m.Consumed m')
    (hold : m.PcOk (.spanEnd a s head e)) : m'.PcOk (.spanEnd a s head e) := by
  intro c hc
  obtain ⟨tail, hc'⟩ := h.ctx a c hc
  have hprod := hold _ hc'
  refine ⟨hprod.head_eq, ?_, hprod.written⟩
  intro hne
  have hroom := hprod.room hne
  have hpub := h.published a
  rw [h.staged a]
  show (m.ledger a).staged.length < (m'.ledger a).published + c.capacity.toNat
  have hcap : ({ c with tail := tail } : OtelThreadCtx).capacity = c.capacity := rfl
  rw [hcap] at hroom
  omega

/-- The ledgers have the same spans, of which the passes have taken and published the same. -/
def Shared.SameRings (m m' : Shared) : Prop :=
  ∀ a, (m'.ledger a).staged = (m.ledger a).staged ∧ (m'.ledger a).taken = (m.ledger a).taken ∧
    (m'.ledger a).published = (m.ledger a).published

theorem setLedger_same {m : Shared} {l : Ledger} (hstaged : l.staged = (m.ledger a).staged)
    (htaken : l.taken = (m.ledger a).taken) (hpublished : l.published = (m.ledger a).published) :
    m.SameRings (m.setLedger a l) := by
  intro b
  show (Function.update m.ledger a l b).staged = _ ∧ (Function.update m.ledger a l b).taken = _ ∧
    (Function.update m.ledger a l b).published = _
  by_cases hb : b = a
  · subst hb
    rw [Function.update_self]
    exact ⟨hstaged, htaken, hpublished⟩
  · rw [Function.update_of_ne hb]
    exact ⟨rfl, rfl, rfl⟩

theorem add_rings {q : Slot} (h : m.add pack q = .ok m') :
    m'.tracer.ctxs = m.tracer.ctxs ∧ m.SameRings m' := by
  obtain ⟨o, bufs, ht⟩ := add_out h
  refine ⟨by rw [ht], ?_⟩
  obtain ⟨t, -, h⟩ := bind_ok h
  cases h
  by_cases hp : m.tracer.transportPresent = true
  · rw [if_pos hp]
    exact setLedger_same rfl rfl rfl
  · rw [if_neg hp]
    exact fun _ => ⟨rfl, rfl, rfl⟩

theorem CtxOk.congr {l' : Ledger} (h : CtxOk c l) (hstaged : l'.staged = l.staged)
    (htaken : l'.taken = l.taken) (hpublished : l'.published = l.published) : CtxOk c l' := by
  obtain ⟨k, hk, hcap, hring⟩ := h
  refine ⟨k, hk, hcap, ?_⟩
  rw [hstaged, htaken, hpublished]
  exact hring

/-- What a step of a pass leaves. -/
structure Shared.PassedOk (m m' : Shared) (p' : Option PassPc) (v' : PassVars) : Prop where
  rings : ∀ a c, m'.tracer.ctxs a = some c → CtxOk c (m'.ledger a)
  place : ∀ q, p' = some q → ∀ a, q.ring = some a → Walking v' (m'.ledger a) q
  calm : ∀ a, p'.bind PassPc.ring ≠ some a → (m'.ledger a).published = (m'.ledger a).taken
  consumed : m.Consumed m'

/-- A step that does not move through a ring. -/
theorem passedOk_of_same {p' : Option PassPc}
    (hrings : ∀ a c, m.tracer.ctxs a = some c → CtxOk c (m.ledger a))
    (hcalm : ∀ a, p.ring ≠ some a → (m.ledger a).published = (m.ledger a).taken)
    (hctxs : m'.tracer.ctxs = m.tracer.ctxs) (hsame : m.SameRings m')
    (hring : p'.bind PassPc.ring = p.ring)
    (hplace : ∀ q, p' = some q → ∀ a, q.ring = some a → Walking v' (m'.ledger a) q) :
    m.PassedOk m' p' v' where
  rings a c hc := by
    rw [hctxs] at hc
    obtain ⟨hstaged, htaken, hpublished⟩ := hsame a
    exact (hrings a c hc).congr hstaged htaken hpublished
  place := hplace
  calm a ha := by
    rw [hring] at ha
    rw [(hsame a).2.1, (hsame a).2.2]
    exact hcalm a ha
  consumed := consumed_of_same hctxs fun a => ⟨(hsame a).1, (hsame a).2.2⟩

/-- The pass moves past a span. -/
theorem passedOk_take {site : Site} {l' : Ledger}
    (hrings : ∀ a c, m.tracer.ctxs a = some c → CtxOk c (m.ledger a))
    (hcalm : ∀ b, some a ≠ some b → (m.ledger b).published = (m.ledger b).taken)
    (hwalk : Walking v (m.ledger a) (.emit a site)) (hctxs : m'.tracer.ctxs = m.tracer.ctxs)
    (hledger : m'.ledger = Function.update m.ledger a l')
    (hstaged : l'.staged = (m.ledger a).staged) (htaken : l'.taken = (m.ledger a).taken + 1)
    (hpublished : l'.published = (m.ledger a).published) :
    m.PassedOk m' (some (.loop a)) v.advance := by
  obtain ⟨htail, n, hhead, hlt, hle⟩ := hwalk
  refine ⟨?_, ?_, ?_, ?_⟩
  · intro b c hc
    rw [hctxs] at hc
    rw [hledger]
    by_cases hb : b = a
    · subst hb
      rw [Function.update_self]
      obtain ⟨k, hk, hcap, hring⟩ := hrings b c hc
      refine ⟨k, hk, hcap, ?_⟩
      rw [hstaged, htaken, hpublished]
      exact hring.take (by omega)
    · rw [Function.update_of_ne hb]
      exact hrings b c hc
  · rintro _ ⟨⟩ _ ⟨⟩
    rw [hledger, Function.update_self]
    refine ⟨?_, n, hhead, by omega, by rw [hstaged]; exact hle⟩
    show v.tail + 1 = UInt64.ofNat l'.taken
    rw [htail, htaken, Spsc.ofNat_succ]
  · intro b hb
    have hne : b ≠ a := by
      rintro rfl
      exact hb rfl
    rw [hledger, Function.update_of_ne hne]
    exact hcalm b fun heq => hne (Option.some.inj heq).symm
  · refine consumed_of_same hctxs fun b => ?_
    rw [hledger]
    by_cases hb : b = a
    · subst hb
      rw [Function.update_self]
      exact ⟨hstaged, hpublished⟩
    · rw [Function.update_of_ne hb]
      exact ⟨rfl, rfl⟩

/-- The pass leaves the ring, and publishes what it has taken. -/
theorem passedOk_leave (hrings : ∀ a c, m.tracer.ctxs a = some c → CtxOk c (m.ledger a))
    (hcalm : ∀ b, some a ≠ some b → (m.ledger b).published = (m.ledger b).taken)
    (htail : v.tail = UInt64.ofNat (m.ledger a).taken) (hc : m.tracer.ctxs a = some c) :
    m.PassedOk ((m.setCtx a { c with tail := v.tail }).publish a) (some .walk) v where
  rings b c' hc' := by
    show CtxOk c' (Function.update m.ledger a { m.ledger a with published := (m.ledger a).taken } b)
    replace hc' : Function.update m.tracer.ctxs a (some { c with tail := v.tail }) b = some c' := hc'
    by_cases hb : b = a
    · subst hb
      rw [Function.update_self] at hc' ⊢
      cases hc'
      obtain ⟨k, hk, hcap, hring⟩ := hrings b c hc
      refine ⟨k, hk, hcap, ?_⟩
      rw [htail]
      exact hring.release
    · rw [Function.update_of_ne hb] at hc' ⊢
      exact hrings b c' hc'
  place := by
    rintro _ ⟨⟩ _ ⟨⟩
  calm b _ := by
    show (Function.update m.ledger a { m.ledger a with published := (m.ledger a).taken } b).published =
      (Function.update m.ledger a { m.ledger a with published := (m.ledger a).taken } b).taken
    by_cases hb : b = a
    · subst hb
      rw [Function.update_self]
    · rw [Function.update_of_ne hb]
      exact hcalm b fun heq => hb (Option.some.inj heq).symm
  consumed := by
    refine ⟨?_, ?_, ?_⟩
    · intro b c' hc'
      replace hc' : Function.update m.tracer.ctxs a (some { c with tail := v.tail }) b = some c' := hc'
      by_cases hb : b = a
      · subst hb
        rw [Function.update_self] at hc'
        cases hc'
        exact ⟨c.tail, hc⟩
      · rw [Function.update_of_ne hb] at hc'
        exact ⟨c'.tail, hc'⟩
    · intro b
      show (Function.update m.ledger a _ b).staged = _
      by_cases hb : b = a
      · rw [hb, Function.update_self]
        rfl
      · rw [Function.update_of_ne hb]
    · intro b
      show _ ≤ (Function.update m.ledger a { m.ledger a with published := (m.ledger a).taken } b).published
      by_cases hb : b = a
      · rw [hb, Function.update_self]
        exact (hrings a c hc).published_le
      · rw [Function.update_of_ne hb]

theorem give_ledger (m : Shared) (q : Slot) : (m.give q).ledger q.ctx =
    { m.ledger q.ctx with given := (m.ledger q.ctx).given ++ [ringMem m.tracer.ctxs q] } :=
  Function.update_self ..

theorem pass_rings {ctxs : List CtxAddr} {p' : Option PassPc}
    (hrings : ∀ a c, m.tracer.ctxs a = some c → CtxOk c (m.ledger a))
    (hplace : ∀ a, p.ring = some a → Walking v (m.ledger a) p)
    (hcalm : ∀ a, p.ring ≠ some a → (m.ledger a).published = (m.ledger a).taken)
    (h : passStep pack m ctxs v p = .ok (m', p', v')) : m.PassedOk m' p' v' := by
  cases pass_cases h with
  | walkCtx a rest c hrest hc =>
    refine ⟨hrings, ?_, fun b _ => hcalm b nofun, consumed_of_same rfl fun _ => ⟨rfl, rfl⟩⟩
    rintro _ ⟨⟩ _ ⟨⟩
    show c.tail = UInt64.ofNat (m.ledger a).taken
    rw [(hrings a c hc).tail_eq, hcalm a nofun]
  | loadHead a c hc =>
    refine passedOk_of_same hrings hcalm rfl (fun _ => ⟨rfl, rfl, rfl⟩) rfl ?_
    rintro _ ⟨⟩ _ ⟨⟩
    exact ⟨hplace a rfl, _, (hrings a c hc).head_eq, (hrings a c hc).taken_le, Nat.le_refl _⟩
  | loopEnd a c hc heq => exact passedOk_leave hrings hcalm (hplace a rfl).1 hc
  | loopAdd a c m' hc hne hadd =>
    obtain ⟨hctxs, hsame⟩ := add_rings hadd
    refine passedOk_of_same hrings hcalm hctxs hsame rfl ?_
    rintro _ ⟨⟩ _ ⟨⟩
    obtain ⟨hstaged, htaken, -⟩ := hsame a
    obtain ⟨htail, n, hhead, hle, hlen⟩ := hplace a rfl
    rw [Walking, hstaged, htaken]
    refine ⟨htail, n, hhead, ?_, hlen⟩
    -- the cursors differ, so the counts do
    refine Nat.lt_of_le_of_ne hle fun heq => hne ?_
    rw [htail, hhead, heq]
  | emitStay a site site' hsite =>
    refine passedOk_of_same hrings hcalm rfl (fun _ => ⟨rfl, rfl, rfl⟩) rfl ?_
    rintro _ ⟨⟩ _ ⟨⟩
    exact hplace a rfl
  | emitSkip a site hsite =>
    exact passedOk_take hrings hcalm (hplace a rfl) rfl rfl rfl rfl rfl
  | emitCall a site c hsite hc =>
    refine passedOk_take hrings hcalm (hplace a rfl) rfl (Function.update_idem ..) ?_ ?_ ?_
    · show ((m.give ⟨a, c.slot v.tail⟩).ledger a).staged = _
      rw [give_ledger m ⟨a, c.slot v.tail⟩]
    · show ((m.give ⟨a, c.slot v.tail⟩).ledger a).taken + 1 = _
      rw [give_ledger m ⟨a, c.slot v.tail⟩]
    · show ((m.give ⟨a, c.slot v.tail⟩).ledger a).published = _
      rw [give_ledger m ⟨a, c.slot v.tail⟩]
  | flush tr ht =>
    obtain ⟨o, bufs, rfl⟩ := flush_out ht
    refine passedOk_of_same hrings hcalm rfl (fun _ => ⟨rfl, rfl, rfl⟩) rfl ?_
    rintro _ ⟨⟩ _ ⟨⟩
  | _ =>
    refine passedOk_of_same hrings hcalm rfl (fun _ => ⟨rfl, rfl, rfl⟩) rfl ?_
    nofun

theorem pass_ringCapacity {ctxs : List CtxAddr} {p' : Option PassPc}
    (h : passStep pack m ctxs v p = .ok (m', p', v')) :
    m'.tracer.ringCapacity = m.tracer.ringCapacity := by
  cases pass_cases h with
  | loopAdd a c m' hc hne hadd =>
    obtain ⟨o, bufs, hm⟩ := add_out hadd
    rw [hm]
  | flush tr ht =>
    obtain ⟨o, bufs, rfl⟩ := flush_out ht
    rfl
  | _ => rfl

/-! ## Steps of a producer -/

/-- A producer at the ring of `a` may have staged another span. -/
structure Shared.Produced (a : CtxAddr) (m m' : Shared) : Prop where
  ctx : ∀ b, b ≠ a → m'.tracer.ctxs b = m.tracer.ctxs b
  ledger : ∀ b, b ≠ a → m'.ledger b = m.ledger b
  staged : (m.ledger a).staged.length ≤ (m'.ledger a).staged.length
  taken : (m'.ledger a).taken = (m.ledger a).taken
  published : (m'.ledger a).published = (m.ledger a).published

/-- A pass does not mind that more is staged. -/
theorem Shared.Produced.walking (h : m.Produced a m') (hwalk : Walking v (m.ledger b) p) :
    Walking v (m'.ledger b) p := by
  by_cases hb : b = a
  · subst hb
    have hlen := h.staged
    cases p with
    | loadHead =>
      show v.tail = _
      rw [h.taken]
      exact hwalk
    | loop =>
      obtain ⟨htail, n, hhead, hle, hn⟩ := hwalk
      rw [Walking, h.taken]
      exact ⟨htail, n, hhead, hle, by omega⟩
    | emit =>
      obtain ⟨htail, n, hhead, hlt, hn⟩ := hwalk
      rw [Walking, h.taken]
      exact ⟨htail, n, hhead, hlt, by omega⟩
    | _ => trivial
  · rw [h.ledger b hb]
    exact hwalk

theorem setCtx_produced (m : Shared) (a : CtxAddr) (c : OtelThreadCtx) :
    m.Produced a (m.setCtx a c) where
  ctx _ hb := Function.update_of_ne hb ..
  ledger _ _ := rfl
  staged := Nat.le_refl _
  taken := rfl
  published := rfl

theorem rings_setCtx {c' : OtelThreadCtx}
    (hrings : ∀ a c, m.tracer.ctxs a = some c → CtxOk c (m.ledger a))
    (hledger : ∀ b, b ≠ a → m'.ledger b = m.ledger b)
    (hctxs : m'.tracer.ctxs = Function.update m.tracer.ctxs a (some c'))
    (hc' : CtxOk c' (m'.ledger a)) : ∀ b c, m'.tracer.ctxs b = some c → CtxOk c (m'.ledger b) := by
  intro b c hc
  rw [hctxs] at hc
  by_cases hb : b = a
  · subst hb
    rw [Function.update_self] at hc
    cases hc
    exact hc'
  · rw [Function.update_of_ne hb] at hc
    rw [hledger b hb]
    exact hrings b c hc

/-- What a step of a producer leaves. -/
structure Shared.EndedOk (m m' : Shared) (a : CtxAddr) (s : OtelSpan) (head : UInt64)
    (e' : Option EndPc) : Prop where
  rings : ∀ b c, m'.tracer.ctxs b = some c → CtxOk c (m'.ledger b)
  place : ∀ e, e' = some e → m'.PcOk (.spanEnd a s head e)
  produced : m.Produced a m'

theorem end_rings {e' : Option EndPc}
    (hrings : ∀ a c, m.tracer.ctxs a = some c → CtxOk c (m.ledger a))
    (hplace : m.PcOk (.spanEnd a s head e)) (h : endStep m a s head e = .ok (m', e')) :
    m.EndedOk m' a s head e' := by
  cases endStep_cases h with
  | full c hc hfull =>
    refine ⟨rings_setCtx hrings (fun _ _ => rfl) rfl (hrings a c hc), nofun, ?_⟩
    exact { setCtx_produced m a _ with }
  | room c hc hroom =>
    have hprod := hplace c hc
    have hctx := hrings a c hc
    refine ⟨hrings, ?_, ⟨fun _ _ => rfl, fun _ _ => rfl, Nat.le_refl _, rfl, rfl⟩⟩
    rintro _ ⟨⟩ c' hc'
    rw [hc] at hc'
    cases hc'
    refine ⟨hprod.head_eq, fun _ => ?_, nofun⟩
    rw [hprod.head_eq, hctx.full_iff] at hroom
    exact Nat.lt_of_le_of_ne hctx.length_le hroom
  | copy c hc =>
    have hprod := hplace c hc
    have hroom := hprod.room nofun
    refine ⟨rings_setCtx hrings (fun _ _ => rfl) rfl ?_, ?_, setCtx_produced m a _⟩
    · obtain ⟨k, hk, hcap, hring⟩ := hrings a c hc
      refine ⟨k, hk, hcap, ?_⟩
      rw [hprod.head_eq]
      exact hring.write (by rw [← hcap]; exact hroom) s
    · rintro _ ⟨⟩ c' hc'
      replace hc' : Function.update m.tracer.ctxs a _ a = some c' := hc'
      rw [Function.update_self] at hc'
      cases hc'
      exact ⟨hprod.head_eq, fun _ => hroom, fun _ => Function.update_self ..⟩
  | storeHead c hc =>
    have hprod := hplace c hc
    have hroom := hprod.room nofun
    have hledger : (Function.update m.ledger a
        { m.ledger a with staged := (m.ledger a).staged ++ [s] }) a =
        { m.ledger a with staged := (m.ledger a).staged ++ [s] } := Function.update_self ..
    refine ⟨rings_setCtx hrings (fun _ hb => Function.update_of_ne hb ..) rfl ?_, nofun, ?_⟩
    · show CtxOk _ (Function.update m.ledger a _ a)
      rw [hledger]
      obtain ⟨k, hk, hcap, hring⟩ := hrings a c hc
      refine ⟨k, hk, hcap, ?_⟩
      rw [hprod.head_eq]
      refine hring.push (by rw [← hcap]; exact hroom) ?_
      rw [← hprod.head_eq]
      exact hprod.written rfl
    · refine ⟨fun _ hb => Function.update_of_ne hb .., fun _ hb => Function.update_of_ne hb .., ?_, ?_, ?_⟩
      · show _ ≤ (Function.update m.ledger a _ a).staged.length
        rw [hledger, List.length_append]
        exact Nat.le_add_right ..
      · show (Function.update m.ledger a _ a).taken = _
        rw [hledger]
      · show (Function.update m.ledger a _ a).published = _
        rw [hledger]

structure Process.RingOk (σ : Process) : Prop where
  capacity : PowerOfTwo σ.shared.tracer.ringCapacity
  rings : ∀ a c, σ.shared.tracer.ctxs a = some c → CtxOk c (σ.shared.ledger a)
  places : ∀ t, σ.shared.PcOk (σ.pcs t)
  /-- no thread drains the ring of `a` -/
  calm : ∀ a, (∀ t, (σ.pcs t).ring ≠ some a) →
    (σ.shared.ledger a).published = (σ.shared.ledger a).taken

theorem end_ringCapacity {e' : Option EndPc} (h : endStep m a s head e = .ok (m', e')) :
    m'.tracer.ringCapacity = m.tracer.ringCapacity := by
  cases endStep_cases h with
  | full | room | copy | storeHead => rfl

/-! ## Steps of the process -/

theorem pcOk_congr (hctxs : m'.tracer.ctxs = m.tracer.ctxs) (hledger : m'.ledger = m.ledger)
    (h : m.PcOk pc) : m'.PcOk pc := by
  cases pc with
  | spanEnd a s head e =>
    intro c hc
    rw [hctxs] at hc
    rw [hledger]
    exact h c hc
  | unregisterPass a p v =>
    intro b hb
    rw [hledger]
    exact h b hb
  | drainPass k p v =>
    intro b hb
    rw [hledger]
    exact h b hb
  | _ => trivial

theorem Process.RingOk.move (h : σ.RingOk) (hpc : σ.pcs t = pc)
    (hpcs : σ'.pcs = Function.update σ.pcs t pc')
    (hctxs : σ'.shared.tracer.ctxs = σ.shared.tracer.ctxs)
    (hledger : σ'.shared.ledger = σ.shared.ledger)
    (hcap : σ'.shared.tracer.ringCapacity = σ.shared.tracer.ringCapacity)
    (hring : pc'.ring = pc.ring) (hok : σ.shared.PcOk pc') : σ'.RingOk := by
  subst hpc
  refine ⟨?_, ?_, ?_, ?_⟩
  · rw [hcap]
    exact h.capacity
  · rw [hctxs, hledger]
    exact h.rings
  · intro u
    refine pcOk_congr hctxs hledger ?_
    rw [hpcs]
    by_cases hut : u = t
    · subst hut
      rw [Function.update_self]
      exact hok
    · rw [Function.update_of_ne hut]
      exact h.places u
  · intro a ha
    rw [hledger]
    refine h.calm a fun u hu => ha u ?_
    have hsame : (Function.update σ.pcs t pc' u).ring = (σ.pcs u).ring := update_same hring u
    rw [hpcs, hsame]
    exact hu

/-- Only the thread that is in a pass drains a ring. -/
theorem Process.LockOk.other_ring (h : σ.LockOk) (hdrain : (σ.pcs t).holdsDrain = true)
    (hut : u ≠ t) (a : CtxAddr) : (σ.pcs u).ring ≠ some a := fun hring =>
  hut (h.drain.unique (ring_holdsDrain hring) hdrain)

theorem ringOk_pass {ctxs : List CtxAddr} {p' : Option PassPc} (h : σ.RingOk) (hlocks : σ.LockOk)
    (hpc : σ.pcs t = pc) (hdrain : pc.holdsDrain = true) (hring : pc.ring = p.ring)
    (hplace : ∀ a, p.ring = some a → Walking v (σ.shared.ledger a) p)
    (hpass : passStep pack σ.shared ctxs v p = .ok (m, p', v'))
    (hring' : pc'.ring = p'.bind PassPc.ring)
    (hok : (∀ q, p' = some q → ∀ a, q.ring = some a → Walking v' (m.ledger a) q) → m.PcOk pc') :
    ({ σ with shared := m }.goto t pc').RingOk := by
  have hdrain' : (σ.pcs t).holdsDrain = true := by rw [hpc, hdrain]
  have hself : ∀ a, p.ring ≠ some a →
      (σ.shared.ledger a).published = (σ.shared.ledger a).taken := by
    intro a ha
    refine h.calm a fun u hu => ?_
    by_cases hut : u = t
    · subst hut
      rw [hpc, hring] at hu
      exact ha hu
    · exact hlocks.other_ring hdrain' hut a hu
  have hpassed := pass_rings h.rings hplace hself hpass
  obtain ⟨hrings, hplace', hcalm, hconsumed⟩ := hpassed
  refine ⟨?_, hrings, ?_, ?_⟩
  · show PowerOfTwo m.tracer.ringCapacity
    rw [pass_ringCapacity hpass]
    exact h.capacity
  · intro u
    show m.PcOk (Function.update σ.pcs t pc' u)
    by_cases hut : u = t
    · subst hut
      rw [Function.update_self]
      exact hok hplace'
    · rw [Function.update_of_ne hut]
      have hold := h.places u
      cases hu : σ.pcs u with
      | spanEnd a s head e =>
        rw [hu] at hold
        exact hconsumed.producing hold
      | _ =>
        refine pcOk_of_ring ?_ nofun
        by_contra hne
        obtain ⟨a, ha⟩ := Option.ne_none_iff_exists'.mp hne
        exact hlocks.other_ring hdrain' hut a (by rw [hu, ha])
  · intro a ha
    refine hcalm a fun hnew => ha t ?_
    show (Function.update σ.pcs t pc' t).ring = some a
    rw [Function.update_self, hring', hnew]

theorem ringOk_end {e' : Option EndPc} (h : σ.RingOk) (hown : σ.OwnOk)
    (hpc : σ.pcs t = .spanEnd a s head e) (hend : endStep σ.shared a s head e = .ok (m, e'))
    (hring : pc'.ring = none) (hok : (∀ e, e' = some e → m.PcOk (.spanEnd a s head e)) → m.PcOk pc') :
    ({ σ with shared := m }.goto t pc').RingOk := by
  have hold := h.places t
  rw [hpc] at hold
  obtain ⟨hrings, hplace, hproduced⟩ := end_rings h.rings hold hend
  refine ⟨?_, hrings, ?_, ?_⟩
  · show PowerOfTwo m.tracer.ringCapacity
    rw [end_ringCapacity hend]
    exact h.capacity
  · intro u
    show m.PcOk (Function.update σ.pcs t pc' u)
    by_cases hut : u = t
    · subst hut
      rw [Function.update_self]
      exact hok hplace
    · rw [Function.update_of_ne hut]
      have hother := h.places u
      cases hu : σ.pcs u with
      | spanEnd b s' head' e' =>
        rw [hu] at hother
        have hb : b ≠ a := by
          rintro rfl
          exact hut (hown.distinct u t b (hown.owns_serving (by rw [hu]; rfl))
            (hown.owns_serving (by rw [hpc]; rfl)))
        intro c hc
        rw [hproduced.ctx b hb] at hc
        rw [hproduced.ledger b hb]
        exact hother c hc
      | unregisterPass b q w =>
        rw [hu] at hother
        exact fun d hd => hproduced.walking (hother d hd)
      | drainPass k q w =>
        rw [hu] at hother
        exact fun d hd => hproduced.walking (hother d hd)
      | _ => trivial
  · intro b hb
    have hcalm : (σ.shared.ledger b).published = (σ.shared.ledger b).taken := by
      refine h.calm b fun u hu => hb u ?_
      have hsame : (Function.update σ.pcs t pc' u).ring = (σ.pcs u).ring :=
        update_same (f := Pc.ring) (by rw [hring, hpc]; rfl) u
      exact hsame.trans hu
    show (m.ledger b).published = (m.ledger b).taken
    by_cases hba : b = a
    · subst hba
      rw [hproduced.published, hproduced.taken, hcalm]
    · rw [hproduced.ledger b hba, hcalm]

theorem ringOk_register {seed : OtelRandomState} {now : UInt64} (h : σ.RingOk) (hown : σ.OwnOk)
    (hreach : σ.ReachOk) (hfree : σ.shared.tracer.ctxs a = none) (hidle : σ.pcs t = .idle) :
    ({ σ with shared := σ.shared.alloc a seed now }.goto t (.registerLock a)).RingOk := by
  have hnew : (σ.shared.alloc a seed now).ledger a = Ledger.empty := Function.update_self ..
  have hledger : ∀ b, b ≠ a → (σ.shared.alloc a seed now).ledger b = σ.shared.ledger b :=
    fun b hb => Function.update_of_ne hb ..
  have hctxs : ∀ b, b ≠ a → (σ.shared.alloc a seed now).tracer.ctxs b = σ.shared.tracer.ctxs b :=
    fun b hb => Function.update_of_ne hb ..
  refine ⟨h.capacity, ?_, ?_, ?_⟩
  · refine rings_setCtx h.rings hledger rfl ?_
    show CtxOk _ ((σ.shared.alloc a seed now).ledger a)
    rw [hnew]
    exact ctxOk_new h.capacity a seed now
  · intro u
    show (σ.shared.alloc a seed now).PcOk (Function.update σ.pcs t (.registerLock a) u)
    by_cases hut : u = t
    · subst hut
      rw [Function.update_self]
      trivial
    · rw [Function.update_of_ne hut]
      have hold := h.places u
      have hring : ∀ b, (σ.pcs u).ring = some b → b ≠ a := by
        rintro b hb rfl
        have hlive := hown.linked_live (hreach u b (ring_mem_todo hb))
        rw [hfree] at hlive
        cases hlive
      cases hu : σ.pcs u with
      | spanEnd b s head e =>
        rw [hu] at hold
        have hb : b ≠ a := by
          rintro rfl
          have hlive := hown.live u b (hown.owns_serving (by rw [hu]; rfl))
          rw [hfree] at hlive
          cases hlive
        intro c hc
        rw [hctxs b hb] at hc
        rw [hledger b hb]
        exact hold c hc
      | unregisterPass b q w =>
        rw [hu] at hold
        intro d hd
        rw [hledger d (hring d (by rw [hu]; exact hd))]
        exact hold d hd
      | drainPass k q w =>
        rw [hu] at hold
        intro d hd
        rw [hledger d (hring d (by rw [hu]; exact hd))]
        exact hold d hd
      | _ => trivial
  · intro b hb
    show ((σ.shared.alloc a seed now).ledger b).published = ((σ.shared.alloc a seed now).ledger b).taken
    by_cases hba : b = a
    · rw [hba, hnew]
      rfl
    · rw [hledger b hba]
      refine h.calm b fun u hu => hb u ?_
      have hsame : (Function.update σ.pcs t (.registerLock a) u).ring = (σ.pcs u).ring :=
        update_same (f := Pc.ring) (by rw [hidle]; rfl) u
      exact hsame.trans hu

theorem ringOk_free (h : σ.RingOk) (hpc : σ.pcs t = .unregisterFree a)
    (hfree : σ.shared.free a = .ok m) :
    ({ σ with shared := m.setTls t none }.goto t .idle).RingOk := by
  obtain ⟨tracer, htracer, hm⟩ := bind_ok hfree
  obtain ⟨c, -, htracer⟩ := bind_ok htracer
  cases htracer
  cases hm
  have hctxs : ∀ b c, Function.update σ.shared.tracer.ctxs a none b = some c →
      σ.shared.tracer.ctxs b = some c := by
    intro b c hc
    by_cases hb : b = a
    · rw [hb, Function.update_self] at hc
      cases hc
    · rwa [Function.update_of_ne hb] at hc
  refine ⟨h.capacity, fun b c hc => h.rings b c (hctxs b c hc), ?_, ?_⟩
  · intro u
    by_cases hut : u = t
    · subst hut
      show Shared.PcOk _ (Function.update σ.pcs u .idle u)
      rw [Function.update_self]
      trivial
    · show Shared.PcOk _ (Function.update σ.pcs t .idle u)
      rw [Function.update_of_ne hut]
      have hold := h.places u
      cases hu : σ.pcs u with
      | spanEnd b s head e =>
        rw [hu] at hold
        exact fun c hc => hold c (hctxs b c hc)
      | unregisterPass b q w =>
        rw [hu] at hold
        exact hold
      | drainPass k q w =>
        rw [hu] at hold
        exact hold
      | _ => trivial
  · intro b hb
    refine h.calm b fun u hu => hb u ?_
    have hsame : (Function.update σ.pcs t .idle u).ring = (σ.pcs u).ring :=
      update_same (f := Pc.ring) (by rw [hpc]; rfl) u
    exact hsame.trans hu

theorem ring_ret (k : Caller) : k.ret.ring = none := by
  cases k with
  | user | flusher | close => rfl

theorem pcOk_ret (k : Caller) : m.PcOk k.ret := by
  cases k with
  | user | flusher | close => trivial

theorem ringOk_thread (h : σ.RingOk) (hown : σ.OwnOk) (hlocks : σ.LockOk)
    (hstep : Stepped pack σ t σ') : σ'.RingOk := by
  have hplace := h.places t
  cases hstep with
  | spanEnd a s head e e' m hpc hend =>
    exact ringOk_end h hown hpc hend rfl fun hok => hok e' rfl
  | spanEnded a s head e m hpc hend => exact ringOk_end h hown hpc hend rfl fun _ => trivial
  | unregisterPass a p p' v v' m hpc hpass =>
    rw [hpc] at hplace
    exact ringOk_pass h hlocks hpc rfl rfl hplace hpass rfl fun hok => hok p' rfl
  | unregisterPassed a p v v' m hpc hpass =>
    rw [hpc] at hplace
    exact ringOk_pass h hlocks hpc rfl rfl hplace hpass rfl fun _ => trivial
  | drainPass k p p' v v' m hpc hpass =>
    rw [hpc] at hplace
    exact ringOk_pass h hlocks hpc rfl rfl hplace hpass rfl fun hok => hok p' rfl
  | drainPassed k p v v' m hpc hpass =>
    rw [hpc] at hplace
    exact ringOk_pass h hlocks hpc rfl rfl hplace hpass rfl fun _ => trivial
  | unregisterStart a hpc => exact h.move hpc rfl rfl rfl rfl rfl nofun
  | drainRdlock k hpc => exact h.move hpc rfl rfl rfl rfl rfl nofun
  | unregisterFree a m hpc hfree => exact ringOk_free h hpc hfree
  | unregisterUnlink a m hpc hunlink =>
    obtain ⟨threads, -, hm⟩ := bind_ok hunlink
    cases hm
    exact h.move hpc rfl rfl rfl rfl rfl trivial
  | drainSkip k hpc => exact h.move hpc rfl rfl rfl rfl (ring_ret k) (pcOk_ret k)
  | drainUnlock k v hpc => exact h.move hpc rfl rfl rfl rfl (ring_ret k) (pcOk_ret k)
  | detachEnabled close hpc =>
    cases close with
    | false => exact h.move hpc rfl rfl rfl rfl rfl trivial
    | true => exact h.move hpc rfl rfl rfl rfl rfl trivial
  | _ =>
    refine h.move (by assumption) rfl rfl rfl rfl ?_ ?_
    · rfl
    · trivial

theorem ringOk_step {x : Act} (h : σ.RingOk) (hown : σ.OwnOk) (hreach : σ.ReachOk)
    (hlocks : σ.LockOk) (he : x.Possible σ) (hstep : processStep pack σ x = .ok σ') :
    σ'.RingOk := by
  cases x with
  | timer =>
    cases hstep
    exact h.move he rfl rfl rfl rfl rfl trivial
  | step t => exact ringOk_thread h hown hlocks (step_cases he hstep)
  | call t c =>
    obtain ⟨hidle, hpossible⟩ := he
    cases call_cases hstep with
    | refused => exact h
    | drop => exact { h with }
    | setRingCapacity spans cap hcap => exact { h with capacity := roundCapacity_power hcap }
    | register a seed now htls => exact ringOk_register h hown hreach hpossible hidle
    | finish a c s now hrec htls hc =>
      refine h.move hidle rfl rfl rfl rfl rfl ?_
      intro c' hc'
      rw [hc] at hc'
      cases hc'
      exact ⟨rfl, fun hne => absurd rfl hne, nofun⟩
    | _ =>
      refine h.move hidle rfl rfl rfl rfl rfl ?_
      trivial

/-! ## Runs -/

/-- What is known of the contexts and of the rings in every state that the process reaches. -/
structure Process.HeapOk (σ : Process) : Prop where
  control : σ.ControlOk
  own : σ.OwnOk
  reach : σ.ReachOk
  ring : σ.RingOk

theorem heapOk_step {x : Act} (h : σ.HeapOk) (he : x.Possible σ)
    (hstep : processStep pack σ x = .ok σ') : σ'.HeapOk where
  control := controlOk_step h.control he hstep
  own := ownOk_step h.own he hstep
  reach := reachOk_step h.reach h.own h.control.locks he hstep
  ring := ringOk_step h.ring h.own h.reach h.control.locks he hstep

theorem heapOk_start (h : σ.AtRest) (hv : σ.Vacant) : σ.HeapOk := by
  have hpcs : ∀ t, σ.pcs t = .idle ∨ σ.pcs t = .flusherLock ∨ σ.pcs t = .exited := by
    intro t
    by_cases ht : t = σ.flusher
    · rw [ht]
      exact Or.inr (atRest_flusher h)
    · exact Or.inl (h.idle t ht)
  have howns : ∀ t, σ.owns t = none := by
    intro t
    rw [Process.owns, show (σ.pcs t).registering = none by
      rcases hpcs t with hpc | hpc | hpc <;> rw [hpc] <;> rfl]
    exact hv.tls t
  refine ⟨controlOk_atRest h, ⟨?_, ?_, ?_, ?_, ?_, ?_, ?_⟩, ?_, ⟨hv.capacity, ?_, ?_, ?_⟩⟩
  · intro t a ha
    rcases hpcs t with hpc | hpc | hpc <;> rw [hpc] at ha <;> cases ha
  · intro t a _
    exact hv.tls t
  · intro t a ha
    rw [howns t] at ha
    cases ha
  · intro t u a ha
    rw [howns t] at ha
    cases ha
  · intro t a ha
    rw [howns t] at ha
    cases ha
  · rw [hv.threads]
    rintro a ⟨⟩
  · rw [hv.threads]
    exact List.nodup_nil
  · intro t a ha
    rcases hpcs t with hpc | hpc | hpc <;> rw [hpc] at ha <;> cases ha
  · intro a c hc
    rw [hv.ctxs a] at hc
    cases hc
  · intro t
    rcases hpcs t with hpc | hpc | hpc <;> rw [hpc] <;> trivial
  · intro a _
    rw [hv.ledger a]
    rfl

theorem heapOk_run {acts : List Act} {σ₀ : Process} (h0 : σ₀.AtRest) (hv : σ₀.Vacant)
    (h : (processMachine pack).Run σ₀ acts σ) : σ.HeapOk :=
  h.invariant (heapOk_start h0 hv) fun _ _ _ _ hi he hstep => heapOk_step hi he hstep

end OtelTracing
