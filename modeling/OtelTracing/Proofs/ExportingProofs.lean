import OtelTracing.Exporting
import OtelTracing.Proofs.LedgerProofs
import OtelTracing.Proofs.PassProofs

/-!
# Proofs: what the transport is given while spans are ended

The batch is described by the positions of its spans in the ledgers: from each context the last ones
that were added. As long as no producer stores a span in a slot of one of these positions, each
request is packed from the spans that were staged.
-/

namespace OtelTracing

open ByteMem Locks Outcome

variable {pack : Proto.ExportTraceServiceRequest → Bytes} {σ σ' : Process} {t u : ThreadId}
  {pc pc' : Pc} {a b : CtxAddr} {c : OtelThreadCtx} {l : Ledger} {m m' : Shared} {s : OtelSpan}
  {head : UInt64} {e : EndPc} {p : PassPc} {v v' : PassVars} {out : List Output}
  {qs qs' : List (CtxAddr × Nat)}

/-! ## The batch by positions -/

/-- The slot of the span number `q.2` that was staged on the thread of the context at `q.1`. -/
def Shared.slotOf (m : Shared) (q : CtxAddr × Nat) : Slot where
  ctx := q.1
  idx := match m.tracer.ctxs q.1 with
    | some c => c.slot (UInt64.ofNat q.2)
    | none => 0

def Shared.entry (m : Shared) (q : CtxAddr × Nat) : Slot × OtelSpan :=
  (m.slotOf q, (m.ledger q.1).staged[q.2]?.getD zeroSpan)

/-- The number of the positions in the context at `a`. -/
def tally (qs : List (CtxAddr × Nat)) (a : CtxAddr) : Nat := qs.countP fun q => q.1 = a

/-- The batch holds the spans at the positions `qs`, which are in their slots; the requests that were
sent since the outputs `out` and the batch are made of the spans that were added. -/
structure Shared.Exports (pack : Proto.ExportTraceServiceRequest → Bytes) (out : List Output)
    (qs : List (CtxAddr × Nat)) (m : Shared) : Prop where
  transport : m.tracer.transport = true
  transportPresent : m.tracer.transportPresent = true
  batch : Batch m.tracer.otlp (qs.map m.entry)
  mem_iff : ∀ a i, (a, i) ∈ qs ↔ (m.ledger a).added - tally qs a ≤ i ∧ i < (m.ledger a).added
  tally_le : ∀ a, tally qs a ≤ (m.ledger a).added
  inPlace : ∀ q ∈ qs, ∃ c, ∃ h : q.2 < (m.ledger q.1).staged.length,
    m.tracer.ctxs q.1 = some c ∧
      c.ring (c.slot (UInt64.ofNat q.2)) = (m.ledger q.1).staged[q.2]
  sent : ∃ reqs : List Proto.ExportTraceServiceRequest,
    buffers m.tracer.out = buffers out ++ reqs.map (fun r => grpcFrame (pack r)) ∧
    (reqs.flatMap fun r => r.spans).map some ++ qs.map (fun q => exported (m.entry q).2) =
      m.added.map exported

theorem tally_pos {q : CtxAddr × Nat} (h : q ∈ qs) : 0 < tally qs q.1 :=
  List.countP_pos_iff.mpr ⟨q, h, by simp⟩

theorem tally_snoc (qs : List (CtxAddr × Nat)) (a : CtxAddr) (i : Nat) (b : CtxAddr) :
    tally (qs ++ [(a, i)]) b = tally qs b + if a = b then 1 else 0 := by
  rw [tally, List.countP_append, List.countP_singleton, tally]
  by_cases hab : a = b
  · simp [hab]
  · simp [hab]

/-- A batch without positions. -/
theorem mem_iff_nil (n : Nat) (i : Nat) : (a, i) ∈ ([] : List (CtxAddr × Nat)) ↔
    n - tally [] a ≤ i ∧ i < n := by
  have hzero : tally [] a = 0 := rfl
  rw [hzero]
  constructor
  · intro h
    cases h
  · rintro ⟨hle, hlt⟩
    omega

theorem entry_of_live (hc : m.tracer.ctxs a = some c) {i : Nat}
    (hi : i < (m.ledger a).staged.length) :
    m.entry (a, i) = (⟨a, c.slot (UInt64.ofNat i)⟩, (m.ledger a).staged[i]) := by
  simp only [Shared.entry, Shared.slotOf, hc, List.getElem?_eq_getElem hi, Option.getD_some]

/-- What the batch refers to is what was staged. -/
theorem Shared.Exports.read (h : m.Exports pack out qs) :
    ∀ x ∈ qs.map m.entry, ringMem m.tracer.ctxs x.1 = x.2 := by
  intro x hx
  obtain ⟨⟨a, i⟩, hq, rfl⟩ := List.mem_map.mp hx
  obtain ⟨c, hi, hc, hring⟩ := h.inPlace (a, i) hq
  rw [entry_of_live hc hi]
  simp only [ringMem, hc]
  exact hring

/-- A step that keeps the batch and the slots that it refers to. -/
theorem Shared.Exports.keep (h : m.Exports pack out qs) (hotlp : m'.tracer.otlp = m.tracer.otlp)
    (htransport : m'.tracer.transport = m.tracer.transport)
    (hpresent : m'.tracer.transportPresent = m.tracer.transportPresent)
    (hout : buffers m'.tracer.out = buffers m.tracer.out) (hadded : m'.added = m.added)
    (hctx : ∀ q ∈ qs, ∀ c, m.tracer.ctxs q.1 = some c → ∃ c', m'.tracer.ctxs q.1 = some c' ∧
      c'.mask = c.mask ∧
      c'.ring (c.slot (UInt64.ofNat q.2)) = c.ring (c.slot (UInt64.ofNat q.2)))
    (hledger : ∀ q ∈ qs, (m.ledger q.1).staged <+: (m'.ledger q.1).staged ∧
      (m'.ledger q.1).added = (m.ledger q.1).added) : m'.Exports pack out qs := by
  have hplace : ∀ q ∈ qs, ∃ c', ∃ hi' : q.2 < (m'.ledger q.1).staged.length,
      m'.tracer.ctxs q.1 = some c' ∧
        c'.ring (c'.slot (UInt64.ofNat q.2)) = (m'.ledger q.1).staged[q.2] ∧
        m'.entry q = m.entry q := by
    rintro ⟨a, i⟩ hq
    obtain ⟨c, hi, hc, hring⟩ := h.inPlace (a, i) hq
    obtain ⟨c', hc', hmask, hsame⟩ := hctx (a, i) hq c hc
    have hprefix := (hledger (a, i) hq).1
    have hi' : i < (m'.ledger a).staged.length := hi.trans_le hprefix.length_le
    have hget : (m.ledger a).staged[i] = (m'.ledger a).staged[i] := hprefix.getElem hi
    have hslot : c'.slot (UInt64.ofNat i) = c.slot (UInt64.ofNat i) := by
      rw [OtelThreadCtx.slot, OtelThreadCtx.slot, hmask]
    refine ⟨c', hi', hc', ?_, ?_⟩
    · rw [hslot, hsame, hring, hget]
    · rw [entry_of_live hc hi, entry_of_live hc' hi', hslot, hget]
  have hentry : qs.map m'.entry = qs.map m.entry := by
    refine List.map_congr_left fun q hq => ?_
    obtain ⟨c', hi', -, -, hentry⟩ := hplace q hq
    exact hentry
  have hsame : ∀ a, 0 < tally qs a → (m'.ledger a).added = (m.ledger a).added := by
    intro a hpos
    obtain ⟨q, hq, hqa⟩ := List.countP_pos_iff.mp hpos
    obtain rfl : q.1 = a := by simpa using hqa
    exact (hledger q hq).2
  refine
    { transport := htransport.trans h.transport
      transportPresent := hpresent.trans h.transportPresent
      batch := by rw [hotlp, hentry]; exact h.batch
      mem_iff := ?_
      tally_le := ?_
      inPlace := ?_
      sent := ?_ }
  · intro a i
    by_cases hpos : 0 < tally qs a
    · rw [hsame a hpos]
      exact h.mem_iff a i
    · constructor
      · intro hq
        exact absurd (tally_pos hq) hpos
      · rintro ⟨hle, hlt⟩
        omega
  · intro a
    by_cases hpos : 0 < tally qs a
    · rw [hsame a hpos]
      exact h.tally_le a
    · omega
  · intro q hq
    obtain ⟨c', hi', hc', hring, -⟩ := hplace q hq
    exact ⟨c', hi', hc', hring⟩
  · obtain ⟨reqs, hbuf, hspans⟩ := h.sent
    refine ⟨reqs, hout.trans hbuf, ?_⟩
    have hexported : qs.map (fun q => exported (m'.entry q).2) =
        qs.map fun q => exported (m.entry q).2 := by
      have := congrArg (List.map fun x : Slot × OtelSpan => exported x.2) hentry
      simpa [Function.comp_def] using this
    rw [hexported, hadded]
    exact hspans

/-! ## Adding and flushing -/

theorem Shared.Exports.messages (h : m.Exports pack out qs) :
    (otlpRequest (ringMem m.tracer.ctxs) m.tracer.otlp).spans.map some =
      qs.map fun q => exported (m.entry q).2 := by
  have hmessages := h.batch.messages h.read
  rwa [List.map_map] at hmessages

/-- A flush sends what is in the batch. -/
theorem Shared.Exports.flushed {o : OtelOtlp Slot} {bufs : List Bytes} (h : m.Exports pack out qs)
    (hflush : otlpFlush pack m.tracer.transport (ringMem m.tracer.ctxs) m.tracer.otlp =
      .ok (o, bufs)) :
    Shared.Exports pack out [] { m with
      tracer := { m.tracer with otlp := o, out := m.tracer.out ++ bufs.map .transport } } := by
  rcases flush_cases pack m.tracer.transport (ringMem m.tracer.ctxs) h.batch with
    ⟨-, -, hfail⟩ | ⟨-, -, hfail⟩ | hok
  · rw [hfail] at hflush
    cases hflush
  · rw [hfail] at hflush
    cases hflush
  · rw [hok] at hflush
    cases hflush
    refine
      { transport := h.transport
        transportPresent := h.transportPresent
        batch := Batch.reset m.tracer.otlp
        mem_iff := fun a i => mem_iff_nil _ i
        tally_le := fun a => Nat.zero_le _
        inPlace := by rintro q ⟨⟩
        sent := ?_ }
    obtain ⟨reqs, hbuf, hspans⟩ := h.sent
    have hcount := h.batch.nSpans
    rw [List.length_map] at hcount
    by_cases hnil : qs = []
    · subst hnil
      have hzero : m.tracer.otlp.nSpans = 0 := hcount
      refine ⟨reqs, ?_, ?_⟩
      · rw [sentBy, if_pos (Or.inl hzero)]
        simpa using hbuf
      · exact hspans
    · have hsend : ¬ (m.tracer.otlp.nSpans = 0 ∨ m.tracer.transport = false) := by
        rw [hcount, h.transport]
        simpa using hnil
      refine ⟨reqs ++ [otlpRequest (ringMem m.tracer.ctxs) m.tracer.otlp], ?_, ?_⟩
      · rw [sentBy, if_neg hsend, buffers_append, hbuf, buffers_transport, List.map_append,
          List.append_assoc]
        rfl
      · rw [List.flatMap_append, List.map_append, List.flatMap_singleton, h.messages, hspans]
        exact List.append_nil _

/-- The next span of a context is added to the batch. -/
theorem Shared.Exports.enter {o : OtelOtlp Slot} {i : Nat} (h : m.Exports pack out qs)
    (hc : m.tracer.ctxs a = some c) (hi : i < (m.ledger a).staged.length)
    (hadded : (m.ledger a).added = i)
    (hring : c.ring (c.slot (UInt64.ofNat i)) = (m.ledger a).staged[i])
    (hbatch : Batch o (qs.map m.entry ++ [m.entry (a, i)])) :
    (Shared.enter { m with tracer := { m.tracer with otlp := o } } a).Exports pack out
      (qs ++ [(a, i)]) := by
  obtain ⟨reqs, hbuf, hspans⟩ := h.sent
  have hself : (Function.update m.ledger a { m.ledger a with added := (m.ledger a).added + 1 } a) =
      { m.ledger a with added := (m.ledger a).added + 1 } := Function.update_self ..
  have hother : ∀ b, b ≠ a → Function.update m.ledger a
      { m.ledger a with added := (m.ledger a).added + 1 } b = m.ledger b :=
    fun b hb => Function.update_of_ne hb ..
  have hstaged : ∀ b, ((Shared.enter { m with tracer := { m.tracer with otlp := o } } a).ledger
      b).staged = (m.ledger b).staged := by
    intro b
    show (Function.update m.ledger a _ b).staged = _
    by_cases hb : b = a
    · rw [hb, hself]
    · rw [hother b hb]
  have hentry : (Shared.enter { m with tracer := { m.tracer with otlp := o } } a).entry =
      m.entry := by
    funext q
    rw [Shared.entry, Shared.entry, hstaged]
    rfl
  refine
    { transport := h.transport
      transportPresent := h.transportPresent
      batch := by rw [hentry, List.map_append]; exact hbatch
      mem_iff := ?_
      tally_le := ?_
      inPlace := ?_
      sent := ⟨reqs, hbuf, ?_⟩ }
  · intro b j
    have hold := h.mem_iff b j
    have hle := h.tally_le b
    show _ ↔ (Function.update m.ledger a _ b).added - _ ≤ j ∧
      j < (Function.update m.ledger a _ b).added
    rw [tally_snoc, List.mem_append, List.mem_singleton, Prod.mk.injEq, hold]
    by_cases hb : b = a
    · subst hb
      rw [hself, if_pos rfl]
      show _ ↔ (m.ledger b).added + 1 - _ ≤ j ∧ j < (m.ledger b).added + 1
      simp only [true_and]
      omega
    · rw [hother b hb, if_neg (Ne.symm hb)]
      simp only [hb, false_and, or_false, Nat.add_zero]
  · intro b
    have hle := h.tally_le b
    show _ ≤ (Function.update m.ledger a _ b).added
    rw [tally_snoc]
    by_cases hb : b = a
    · subst hb
      rw [hself, if_pos rfl]
      exact Nat.succ_le_succ hle
    · rw [hother b hb, if_neg (Ne.symm hb)]
      exact hle
  · intro q hq
    rw [List.mem_append, List.mem_singleton] at hq
    rcases hq with hq | rfl
    · obtain ⟨c', hlt, hc', hring'⟩ := h.inPlace q hq
      refine ⟨c', by rw [hstaged]; exact hlt, hc', ?_⟩
      simp only [hstaged]
      exact hring'
    · refine ⟨c, by rw [hstaged]; exact hi, hc, ?_⟩
      simp only [hstaged]
      exact hring
  · show _ = (m.added ++ ((m.ledger a).staged[(m.ledger a).added]?).toList).map exported
    rw [hentry, List.map_append, ← List.append_assoc, hspans, hadded, List.getElem?_eq_getElem hi,
      List.map_append]
    congr 1
    rw [List.map_singleton, entry_of_live hc hi]
    rfl

theorem Shared.Exports.add {i : Nat} (h : m.Exports pack out qs) (hc : m.tracer.ctxs a = some c)
    (hi : i < (m.ledger a).staged.length) (hadded : (m.ledger a).added = i)
    (hring : c.ring (c.slot (UInt64.ofNat i)) = (m.ledger a).staged[i])
    (hfin : Finished (m.ledger a).staged[i])
    (hadd : m.add pack ⟨a, c.slot (UInt64.ofNat i)⟩ = .ok m') :
    ∃ qs', m'.Exports pack out qs' ∧ (qs' = qs ++ [(a, i)] ∨ qs' = [(a, i)]) := by
  obtain ⟨t, ht, hm⟩ := bind_ok hadd
  unfold emitTransport at ht
  rw [if_pos h.transportPresent] at ht hm
  obtain ⟨⟨o, bufs⟩, hspan, ht⟩ := bind_ok ht
  cases ht
  cases hm
  have hread : ringMem m.tracer.ctxs ⟨a, c.slot (UInt64.ofNat i)⟩ = (m.ledger a).staged[i] := by
    simp only [ringMem, hc]
    exact hring
  have hlast : m.entry (a, i) = (⟨a, c.slot (UInt64.ofNat i)⟩,
      ringMem m.tracer.ctxs ⟨a, c.slot (UInt64.ofNat i)⟩) := by
    rw [hread]
    exact entry_of_live hc hi
  have hfin' : Finished (ringMem m.tracer.ctxs ⟨a, c.slot (UInt64.ofNat i)⟩) := by
    rw [hread]
    exact hfin
  rcases addSpan_cases pack m.tracer.transport h.batch hfin' with
    ⟨-, f, hfail, -⟩ | ⟨-, o', hok, hbatch, -⟩ | ⟨-, o', hok, hflush, -, hbatch, -⟩
  · rw [hfail] at hspan
    cases hspan
  · rw [hok] at hspan
    cases hspan
    rw [← hlast] at hbatch
    refine ⟨qs ++ [(a, i)], ?_, Or.inl rfl⟩
    have hkept := h.enter hc hi hadded hring hbatch
    simpa using hkept
  · -- the batch was flushed before
    rw [hok] at hspan
    cases hspan
    rw [← hlast] at hbatch
    exact ⟨[(a, i)], (h.flushed hflush).enter hc hi hadded hring hbatch, Or.inr rfl⟩

/-! ## Steps of a pass -/

/-- The context whose next span was added to the batch, and is not taken yet. -/
def PassPc.emitting : PassPc → Option CtxAddr
  | .emit a _ => some a
  | _ => none

/-- The batch may hold spans when the pass is at the place. -/
def PassPc.batching : PassPc → Bool
  | .begin _ | .finish _ => false
  | _ => true

/-- The spans that were taken were added, and of the context `x` one more. -/
def Shared.Counted (m : Shared) (x : Option CtxAddr) : Prop :=
  ∀ a, (m.ledger a).added = (m.ledger a).taken + if x = some a then 1 else 0

theorem counted_update {x x' : Option CtxAddr} (h : m.Counted x)
    (hledger : m'.ledger = Function.update m.ledger a l)
    (hself : l.added = l.taken + if x' = some a then 1 else 0)
    (hother : ∀ b, b ≠ a → (x' = some b ↔ x = some b)) : m'.Counted x' := by
  intro b
  rw [hledger]
  by_cases hb : b = a
  · subst hb
    rw [Function.update_self]
    exact hself
  · rw [Function.update_of_ne hb, h b]
    simp only [hother b hb]

/-- The spans that a ledger has are kept by a change of what was taken of them, or of what follows
them. -/
theorem ledger_kept (hledger : m'.ledger = Function.update m.ledger a l)
    (hstaged : (m.ledger a).staged <+: l.staged) (hadded : l.added = (m.ledger a).added) :
    ∀ q ∈ qs, (m.ledger q.1).staged <+: (m'.ledger q.1).staged ∧
      (m'.ledger q.1).added = (m.ledger q.1).added := by
  rintro ⟨b, i⟩ hq
  rw [hledger]
  by_cases hb : b = a
  · subst hb
    rw [Function.update_self]
    exact ⟨hstaged, hadded⟩
  · rw [Function.update_of_ne hb]
    exact ⟨List.prefix_rfl, rfl⟩

/-- The slots of the batch are kept by a change of a context that leaves its slots of the batch. -/
theorem ctx_kept {c' : OtelThreadCtx} (hc : m.tracer.ctxs a = some c) (hmask : c'.mask = c.mask)
    (hring : ∀ i, (a, i) ∈ qs →
      c'.ring (c.slot (UInt64.ofNat i)) = c.ring (c.slot (UInt64.ofNat i))) :
    ∀ q ∈ qs, ∀ d, m.tracer.ctxs q.1 = some d →
      ∃ d', Function.update m.tracer.ctxs a (some c') q.1 = some d' ∧ d'.mask = d.mask ∧
        d'.ring (d.slot (UInt64.ofNat q.2)) = d.ring (d.slot (UInt64.ofNat q.2)) := by
  rintro ⟨b, i⟩ hq d hd
  by_cases hb : b = a
  · subst hb
    rw [Function.update_self]
    have hcd : c = d := Option.some.inj (hc.symm.trans hd)
    subst hcd
    exact ⟨c', rfl, hmask, hring i hq⟩
  · rw [Function.update_of_ne hb]
    exact ⟨d, hd, rfl, rfl⟩

/-- What a step of a pass leaves of the batch. -/
structure Shared.PassExports (pack : Proto.ExportTraceServiceRequest → Bytes) (out : List Output)
    (qs : List (CtxAddr × Nat)) (p : PassPc) (m' : Shared) (p' : Option PassPc)
    (qs' : List (CtxAddr × Nat)) : Prop where
  exports : m'.Exports pack out qs'
  counted : m'.Counted (p'.bind PassPc.emitting)
  empty : p'.any PassPc.batching = false → qs' = []
  mem : ∀ q ∈ qs', q ∈ qs ∨ p.ring = some q.1

theorem pass_exports {ctxs : List CtxAddr} {p' : Option PassPc} (h : m.Exports pack out qs)
    (hcounted : m.Counted p.emitting) (hempty : p.batching = false → qs = [])
    (hrings : ∀ a c, m.tracer.ctxs a = some c → CtxOk c (m.ledger a))
    (hplace : ∀ a, p.ring = some a → Walking v (m.ledger a) p)
    (hfin : ∀ a, ∀ s ∈ (m.ledger a).staged, Finished s)
    (hstep : passStep pack m ctxs v p = .ok (m', p', v')) :
    ∃ qs', Shared.PassExports pack out qs p m' p' qs' := by
  have hsame : ∀ o : Output, (∀ out, buffers (out ++ [o]) = buffers out) →
      (m.output o).Exports pack out qs := fun o ho =>
    h.keep rfl rfl rfl (ho _) rfl (fun _ _ c hc => ⟨c, hc, rfl, rfl⟩)
      fun _ _ => ⟨List.prefix_rfl, rfl⟩
  have hnext : ∀ a, p.emitting = some a → (m.ledger a).added = (m.ledger a).taken + 1 := by
    intro a ha
    rw [hcounted a, if_pos ha]
  cases pass_cases hstep with
  | beginStay site site' => exact ⟨qs, h, hcounted, fun _ => hempty rfl, fun q hq => Or.inl hq⟩
  | beginSkip => exact ⟨qs, h, hcounted, fun _ => hempty rfl, fun q hq => Or.inl hq⟩
  | beginCall =>
    refine ⟨qs, hsame _ fun out => ?_, hcounted, fun _ => hempty rfl, fun q hq => Or.inl hq⟩
    simp [buffers]
  | walkEnd hrest => exact ⟨qs, h, hcounted, by rintro ⟨⟩, fun q hq => Or.inl hq⟩
  | walkCtx a rest c hrest hc => exact ⟨qs, h, hcounted, by rintro ⟨⟩, fun q hq => Or.inl hq⟩
  | loadHead a c hc => exact ⟨qs, h, hcounted, by rintro ⟨⟩, fun q hq => Or.inl hq⟩
  | loopEnd a c hc heq =>
    refine ⟨qs, ?_, ?_, by rintro ⟨⟩, fun q hq => Or.inl hq⟩
    · exact h.keep rfl rfl rfl rfl rfl (ctx_kept hc rfl fun i _ => rfl)
        (ledger_kept rfl List.prefix_rfl rfl)
    · exact counted_update hcounted rfl (hcounted a) fun b _ => Iff.rfl
  | loopAdd a c m' hc hne hadd =>
    obtain ⟨htail, n, hhead, hle, hlen⟩ := hplace a rfl
    have hlt : (m.ledger a).taken < (m.ledger a).staged.length := by
      refine (Nat.lt_of_le_of_ne hle fun heq => hne ?_).trans_le hlen
      rw [htail, hhead, heq]
    have hadded : (m.ledger a).added = (m.ledger a).taken := hcounted a
    rw [htail] at hadd
    obtain ⟨qs', h', hqs'⟩ := h.add hc hlt hadded ((hrings a c hc).read hlt)
      (hfin a _ (List.getElem_mem hlt)) hadd
    refine ⟨qs', h', ?_, by rintro ⟨⟩, ?_⟩
    · obtain ⟨tracer, -, hadd⟩ := bind_ok hadd
      rw [if_pos h.transportPresent] at hadd
      cases hadd
      refine counted_update hcounted rfl ?_ ?_
      · show (m.ledger a).added + 1 = (m.ledger a).taken + _
        rw [hadded]
        simp [PassPc.emitting]
      · intro b hb
        simp [PassPc.emitting, Ne.symm hb]
    · intro q hq
      rcases hqs' with rfl | rfl
      · rw [List.mem_append, List.mem_singleton] at hq
        rcases hq with hq | rfl
        · exact Or.inl hq
        · exact Or.inr rfl
      · rw [List.mem_singleton] at hq
        rw [hq]
        exact Or.inr rfl
  | emitStay a site site' => exact ⟨qs, h, hcounted, by rintro ⟨⟩, fun q hq => Or.inl hq⟩
  | emitSkip a site hsite =>
    refine ⟨qs, ?_, ?_, by rintro ⟨⟩, fun q hq => Or.inl hq⟩
    · exact h.keep rfl rfl rfl rfl rfl (fun _ _ c hc => ⟨c, hc, rfl, rfl⟩)
        (ledger_kept rfl List.prefix_rfl rfl)
    · refine counted_update hcounted rfl (hnext a rfl) ?_
      intro b hb
      simp [PassPc.emitting, Ne.symm hb]
  | emitCall a site c hsite hc =>
    obtain ⟨htail, n, -, hlt, hle⟩ := hplace a rfl
    have hledger := give_take_ledger hc (hrings a c hc) htail (by omega)
    refine ⟨qs, ?_, ?_, by rintro ⟨⟩, fun q hq => Or.inl hq⟩
    · refine h.keep rfl rfl rfl ?_ rfl (fun _ _ c hc => ⟨c, hc, rfl, rfl⟩)
        (ledger_kept hledger List.prefix_rfl rfl)
      show buffers (m.tracer.out ++ [_]) = _
      simp [buffers]
    · refine counted_update hcounted hledger (hnext a rfl) ?_
      intro b hb
      simp [PassPc.emitting, Ne.symm hb]
  | flush t hflush =>
    obtain ⟨⟨o, bufs⟩, hsend, ht⟩ := bind_ok hflush
    cases ht
    exact ⟨[], h.flushed hsend, hcounted, fun _ => rfl, by rintro q ⟨⟩⟩
  | finishStay site site' => exact ⟨qs, h, hcounted, fun _ => hempty rfl, fun q hq => Or.inl hq⟩
  | finishSkip => exact ⟨qs, h, hcounted, fun _ => hempty rfl, fun q hq => Or.inl hq⟩
  | finishCall =>
    refine ⟨qs, hsame _ fun out => ?_, hcounted, fun _ => hempty rfl, fun q hq => Or.inl hq⟩
    simp [buffers]

/-! ## Steps of a producer -/

theorem Shared.Exports.traceId (h : m.Exports pack out qs) {i : Nat} (hi : i < qs.length) :
    (m.tracer.otlp.spans i).traceId = .traceId (m.slotOf qs[i]) := by
  obtain ⟨attrs, events, -, hstored⟩ := h.batch.stored i (by rw [List.length_map]; exact hi)
  rw [hstored.object, List.getElem_map]
  rfl

theorem Shared.Exports.nSpans (h : m.Exports pack out qs) : m.tracer.otlp.nSpans = qs.length := by
  rw [h.batch.nSpans, List.length_map]

theorem Shared.Exports.unpacked_eq (h : m.Exports pack out qs) (a : CtxAddr) :
    m.unpacked a = (m.ledger a).staged.length - (m.ledger a).added + tally qs a := by
  have hrefers : (List.range m.tracer.otlp.nSpans).map (m.tracer.refersTo a) =
      qs.map fun q => decide (q.1 = a) := by
    refine List.ext_getElem ?_ ?_
    · rw [List.length_map, List.length_range, List.length_map, h.nSpans]
    · intro i hi hi'
      rw [List.length_map] at hi'
      simp only [List.getElem_map, List.getElem_range, Tracer.refersTo, h.traceId hi']
      rfl
  have hcount := congrArg (List.countP id) hrefers
  rw [List.countP_map, List.countP_map] at hcount
  rw [Shared.unpacked, tally]
  exact congrArg _ hcount

/-- The slots that the batch refers to are those of its positions. -/
theorem Shared.Exports.refers_iff (h : m.Exports pack out qs) (hc : m.tracer.ctxs a = some c)
    (x : Nat) : (∃ i < m.tracer.otlp.nSpans, m.tracer.Refers i ⟨a, x⟩) ↔
      ∃ i, (a, i) ∈ qs ∧ c.slot (UInt64.ofNat i) = x := by
  rw [h.nSpans]
  constructor
  · rintro ⟨j, hj, hrefers⟩
    rw [Tracer.Refers, h.traceId hj] at hrefers
    have hslot : m.slotOf qs[j] = ⟨a, x⟩ := IdRef.traceId.inj hrefers
    obtain ⟨hctx, hidx⟩ := Slot.mk.inj hslot
    refine ⟨qs[j].2, ?_, ?_⟩
    · rw [← hctx]
      exact List.getElem_mem hj
    · rw [hctx, hc] at hidx
      exact hidx
  · rintro ⟨i, hi, rfl⟩
    obtain ⟨j, hj, hget⟩ := List.getElem_of_mem hi
    refine ⟨j, hj, ?_⟩
    rw [Tracer.Refers, h.traceId hj, hget, Shared.slotOf, hc]

/-- The spans that were added from a context with positions in the batch are staged. -/
theorem Shared.Exports.added_le (h : m.Exports pack out qs) (hpos : 0 < tally qs a) :
    (m.ledger a).added ≤ (m.ledger a).staged.length := by
  have hle := h.tally_le a
  have hlast : (a, (m.ledger a).added - 1) ∈ qs := by
    rw [h.mem_iff]
    omega
  obtain ⟨c, hlt, -⟩ := h.inPlace _ hlast
  have : (m.ledger a).added - 1 < (m.ledger a).staged.length := hlt
  omega

/-- The slot that a producer stores a span in next is one that the batch refers to if and only if the
spans of its thread that are not packed are as many as its ring has slots. -/
theorem Shared.Exports.keeps_iff (h : m.Exports pack out qs) (hctx : CtxOk c (m.ledger a))
    (hadded : (m.ledger a).taken ≤ (m.ledger a).added)
    (hroom : (m.ledger a).staged.length < (m.ledger a).published + c.capacity.toNat) :
    m.unpacked a < c.capacity.toNat ↔ ∀ i, (a, i) ∈ qs →
      c.slot (UInt64.ofNat i) ≠ c.slot c.head := by
  have hpublished := hctx.published_le
  obtain ⟨k, -, hcap, hring⟩ := hctx
  have hslot : ∀ i, c.slot (UInt64.ofNat i) = i % 2 ^ k :=
    fun i => Spsc.slot_ofNat hring.mask_eq hring.bits_lt.le i
  have hhead : c.slot c.head = (m.ledger a).staged.length % 2 ^ k := by
    rw [hring.head_eq, hslot]
  have hpow := Nat.two_pow_pos k
  have htally := h.tally_le a
  rw [hcap] at hroom ⊢
  rw [h.unpacked_eq]
  constructor
  · intro hlt i hi
    rw [hslot, hhead]
    have hstaged : (m.ledger a).added ≤ (m.ledger a).staged.length := h.added_le (tally_pos hi)
    obtain ⟨hle, hlast⟩ := (h.mem_iff a i).mp hi
    exact Spsc.mod_ne (by omega) (by omega)
  · intro hall
    by_contra hge
    have hstaged : (m.ledger a).added ≤ (m.ledger a).staged.length := by
      by_cases hpos : 0 < tally qs a
      · exact h.added_le hpos
      · omega
    -- the span that was staged a whole ring before is in the batch
    have hmem : (a, (m.ledger a).staged.length - 2 ^ k) ∈ qs := by
      rw [h.mem_iff]
      omega
    refine hall _ hmem ?_
    have hsum : (m.ledger a).staged.length = (m.ledger a).staged.length - 2 ^ k + 2 ^ k := by omega
    rw [hslot, hhead]
    conv_rhs => rw [hsum, Nat.add_mod_right]

theorem end_exports {e' : Option EndPc} (h : m.Exports pack out qs)
    (hrings : ∀ a c, m.tracer.ctxs a = some c → CtxOk c (m.ledger a))
    (hadded : (m.ledger a).taken ≤ (m.ledger a).added) (hplace : m.PcOk (.spanEnd a s head e))
    (hkeeps : e = .copy → ∀ c, m.tracer.ctxs a = some c → m.unpacked a < c.capacity.toNat)
    (hend : endStep m a s head e = .ok (m', e')) : m'.Exports pack out qs := by
  cases endStep_cases hend with
  | full c hc hfull =>
    exact h.keep rfl rfl rfl rfl rfl (ctx_kept hc rfl fun _ _ => rfl)
      fun _ _ => ⟨List.prefix_rfl, rfl⟩
  | room c hc hroom => exact h
  | copy c hc =>
    refine h.keep rfl rfl rfl rfl rfl (ctx_kept hc rfl fun i hi => ?_)
      fun _ _ => ⟨List.prefix_rfl, rfl⟩
    obtain ⟨hhead, hroom, -⟩ := hplace c hc
    have hne := (h.keeps_iff (hrings a c hc) hadded (hroom nofun)).mp (hkeeps rfl c hc) i hi
    rw [hhead]
    exact Function.update_of_ne hne ..
  | storeHead c hc =>
    exact h.keep rfl rfl rfl rfl rfl (ctx_kept hc rfl fun _ _ => rfl)
      (ledger_kept rfl (List.prefix_append ..) rfl)

end OtelTracing
