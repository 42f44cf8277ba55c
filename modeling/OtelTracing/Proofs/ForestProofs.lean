import OtelTracing.Forest
import OtelTracing.Proofs.ResidueProofs
import OtelTracing.Proofs.TracerProofs

/-!
# Proofs: trace-wide sampling

The decision to record is taken at a root, and every other call keeps it: a child is recording
exactly if its parent is, and a span that is not recording leaves no mark on the tracer
(`trace_wide_sampling`).
-/

namespace OtelTracing

open ByteMem Outcome

variable {pack : Proto.ExportTraceServiceRequest → Bytes} {t t' : Tracer} {w w' : Forest}

/-! ## What the tracer holds of spans -/

/-- All spans in the rings are recording. -/
def RingsRecorded (ctxs : CtxAddr → Option OtelThreadCtx) : Prop :=
  ∀ a c, ctxs a = some c → ∀ s ∈ c.staged, otelSpanRecording s = true

/-- All spans that the sink was given are recording. -/
def OutRecorded (out : List Output) : Prop :=
  ∀ s, Output.sinkSpan s ∈ out → otelSpanRecording s = true

theorem OutRecorded.append {out out' : List Output} (h : OutRecorded out) (h' : OutRecorded out') :
    OutRecorded (out ++ out') := by
  intro s hs
  rcases List.mem_append.mp hs with hs | hs
  · exact h s hs
  · exact h' s hs

theorem outRecorded_transport (bufs : List Bytes) : OutRecorded (bufs.map Output.transport) := by
  intro s hs
  simp at hs

theorem RingsRecorded.update {ctxs : CtxAddr → Option OtelThreadCtx} (h : RingsRecorded ctxs)
    (a : CtxAddr) {c : OtelThreadCtx} (hc : ∀ s ∈ c.staged, otelSpanRecording s = true) :
    RingsRecorded (Function.update ctxs a (some c)) := by
  intro b c' hb
  by_cases hba : b = a
  · subst hba
    rw [Function.update_self] at hb
    obtain rfl := Option.some.inj hb
    exact hc
  · rw [Function.update_of_ne hba] at hb
    exact h b c' hb

theorem RingsRecorded.sub {ctxs ctxs' : CtxAddr → Option OtelThreadCtx} (h : RingsRecorded ctxs)
    (hsub : ∀ a c, ctxs' a = some c → ctxs a = some c ∨ c.staged = []) : RingsRecorded ctxs' := by
  intro a c hc s hs
  rcases hsub a c hc with hold | hnil
  · exact h a c hold s hs
  · rw [hnil] at hs
    cases hs

theorem RingsRecorded.staged (h : RingsRecorded t.ctxs) (as : List CtxAddr) :
    ∀ s ∈ stagedIn t.ctxs as, otelSpanRecording s = true := by
  intro s hs
  obtain ⟨a, -, hs⟩ := List.mem_flatMap.mp hs
  unfold stagedAt at hs
  split at hs
  · exact h a _ ‹_› s hs
  · cases hs

/-! ## Passes -/

theorem emitSpan_recorded {p : Slot} (h : otelEmitSpan pack t p = .ok t') (hout : OutRecorded t.out)
    (hp : otelSpanRecording (ringMem t.ctxs p) = true) : OutRecorded t'.out ∧ t'.ctxs = t.ctxs := by
  obtain ⟨t₁, h1, h⟩ := bind_ok h
  obtain ⟨sink, -, h⟩ := bind_ok h
  obtain rfl := Except.ok.inj h
  have hfirst : OutRecorded t₁.out ∧ t₁.ctxs = t.ctxs := by
    unfold emitTransport at h1
    split_ifs at h1
    · obtain ⟨r, -, h1⟩ := bind_ok h1
      obtain rfl := Except.ok.inj h1
      exact ⟨hout.append (outRecorded_transport r.2), rfl⟩
    · obtain rfl := Except.ok.inj h1
      exact ⟨hout, rfl⟩
  refine ⟨?_, hfirst.2⟩
  show OutRecorded (if sink = true then _ else _)
  split_ifs
  · refine hfirst.1.append ?_
    intro s hs
    rw [List.mem_singleton] at hs
    cases hs
    rw [hfirst.2]
    exact hp
  · exact hfirst.1

theorem drainCtx_recorded {a : CtxAddr} {n : Int32} (h : otelDrainCtx pack t a = .ok (t', n))
    (hout : OutRecorded t.out) (hrings : RingsRecorded t.ctxs) :
    OutRecorded t'.out ∧ RingsRecorded t'.ctxs := by
  obtain ⟨c, o, out, hc, -, hframe⟩ := drainCtx_frame h
  refine ⟨?_, ?_⟩
  · obtain ⟨c', hderef, h⟩ := bind_ok h
    have hc' : c' = c := Option.some.inj ((deref_ok hderef).symm.trans hc)
    obtain ⟨t₁, hloop, h⟩ := bind_ok h
    obtain ⟨c'', -, h⟩ := bind_ok h
    obtain ⟨rfl, -⟩ := Prod.mk.inj (Except.ok.inj h)
    have hinv := foldlM_ok (I := fun t' => OutRecorded t'.out ∧ t'.ctxs = t.ctxs) hloop
      ⟨hout, rfl⟩ ?_
    · exact hinv.1
    · intro cursor hcursor b b' hb hstep
      have hmem : ringMem b.ctxs ⟨a, c'.slot cursor⟩ ∈ c.staged := by
        rw [hb.2, ringMem, hc, hc']
        exact List.mem_map.mpr ⟨cursor, hc' ▸ hcursor, rfl⟩
      obtain ⟨hout', hctxs⟩ := emitSpan_recorded hstep hb.1 (hrings a c hc _ hmem)
      exact ⟨hout', hctxs.trans hb.2⟩
  · rw [hframe]
    exact hrings.update a (by simp)

theorem drainPass_recorded {as : List CtxAddr} {n : Int32} (h : drainPass pack t as = .ok (t', n))
    (hout : OutRecorded t.out) (hrings : RingsRecorded t.ctxs) :
    OutRecorded t'.out ∧ RingsRecorded t'.ctxs := by
  have hmark : ∀ o : Output, (∀ s, o ≠ .sinkSpan s) → OutRecorded [o] := by
    intro o ho s hs
    rw [List.mem_singleton] at hs
    exact absurd hs.symm (ho s)
  obtain ⟨t₁, h1, h⟩ := bind_ok h
  obtain ⟨r, hloop, h⟩ := bind_ok h
  obtain ⟨t₂, h2, h⟩ := bind_ok h
  obtain ⟨t₃, h3, h⟩ := bind_ok h
  obtain ⟨rfl, -⟩ := Prod.mk.inj (Except.ok.inj h)
  have hbegin : OutRecorded t₁.out ∧ RingsRecorded t₁.ctxs := by
    obtain ⟨b, -, h1⟩ := bind_ok h1
    obtain rfl := Except.ok.inj h1
    split_ifs
    · exact ⟨hout.append (hmark _ (by simp)), hrings⟩
    · exact ⟨hout, hrings⟩
  have hdrained := foldlM_ok
    (I := fun r : Tracer × Int32 => OutRecorded r.1.out ∧ RingsRecorded r.1.ctxs) hloop hbegin ?_
  · have hflush : OutRecorded t₂.out ∧ RingsRecorded t₂.ctxs := by
      obtain ⟨f, -, h2⟩ := bind_ok h2
      obtain rfl := Except.ok.inj h2
      exact ⟨hdrained.1.append (outRecorded_transport f.2), hdrained.2⟩
    obtain ⟨b, -, h3⟩ := bind_ok h3
    obtain rfl := Except.ok.inj h3
    split_ifs
    · exact ⟨hflush.1.append (hmark _ (by simp)), hflush.2⟩
    · exact hflush
  · intro a _ b b' hb hstep
    obtain ⟨r', hctx, hstep⟩ := bind_ok hstep
    obtain rfl := Except.ok.inj hstep
    exact drainCtx_recorded hctx hb.1 hb.2

theorem drain_recorded {n : Int32} (h : otelDrain pack t = .ok (t', n)) (hout : OutRecorded t.out)
    (hrings : RingsRecorded t.ctxs) : OutRecorded t'.out ∧ RingsRecorded t'.ctxs := by
  unfold otelDrain at h
  split_ifs at h
  · obtain ⟨rfl, -⟩ := Prod.mk.inj (Except.ok.inj h)
    exact ⟨hout, hrings⟩
  · exact drainPass_recorded h hout hrings

/-! ## Calls -/

theorem ringPut_recorded {c : OtelThreadCtx} {s : OtelSpan}
    (hc : ∀ s ∈ c.staged, otelSpanRecording s = true) (hs : otelSpanRecording s = true) :
    ∀ s' ∈ (ringPut c s).1.staged, otelSpanRecording s' = true := by
  unfold ringPut
  split_ifs with hfull
  · exact hc
  · have hlt : (c.head - c.tail).toNat < c.capacity.toNat := by
      have hlt := UInt64.lt_iff_toNat_lt.mp (UInt64.not_le.mp hfull)
      simpa using hlt
    have hcap := c.capacity.toNat_lt
    intro s' hs'
    obtain ⟨cursor, hcursor, rfl⟩ := List.mem_map.mp hs'
    replace hcursor : cursor ∈ Ring.cursors c.tail (c.head + 1) := hcursor
    show otelSpanRecording (Function.update c.ring (c.slot c.head) s (c.slot cursor)) = true
    by_cases hslot : c.slot cursor = c.slot c.head
    · rw [hslot, Function.update_self]
      exact hs
    · rw [Function.update_of_ne hslot]
      rw [Ring.cursors_snoc (by omega), List.mem_append, List.mem_singleton] at hcursor
      rcases hcursor with hcursor | rfl
      · exact hc _ (List.mem_map.mpr ⟨cursor, hcursor, rfl⟩)
      · exact absurd rfl hslot

theorem tracer_recorded {op : Op} (hop : op.Global) (h : tracerStep pack t op = .ok t')
    (hout : OutRecorded t.out) (hrings : RingsRecorded t.ctxs) :
    OutRecorded t'.out ∧ RingsRecorded t'.ctxs := by
  cases op with
  | init service hostname buf =>
    obtain rfl := Except.ok.inj h
    cases hinit : t.initialized with
    | true =>
      rw [otelInit_of_initialized hinit]
      exact ⟨hout, hrings⟩
    | false =>
      rw [otelInit_of_not hinit]
      exact ⟨hout, hrings⟩
  | shutdown =>
    rcases shutdown_cases h with ⟨-, rfl⟩ | ⟨-, t₁, hpass, rfl⟩
    · exact ⟨hout, hrings⟩
    · have h₁ : OutRecorded t₁.out ∧ RingsRecorded t₁.ctxs := by
        rcases whenEnabled_ok hpass with ⟨-, n, hpass⟩ | ⟨-, rfl⟩
        · exact drain_recorded hpass hout hrings
        · exact ⟨hout, hrings⟩
      refine ⟨h₁.1, h₁.2.sub fun a c hc => ?_⟩
      replace hc : (if a ∈ t₁.threads then none else t₁.ctxs a) = some c := hc
      split_ifs at hc
      exact Or.inl hc
  | setTransport fn =>
    obtain rfl := Except.ok.inj h
    exact ⟨hout, hrings⟩
  | setSpanSink sink =>
    obtain rfl := Except.ok.inj h
    exact ⟨hout, hrings⟩
  | setEnabled enabled =>
    obtain rfl := Except.ok.inj h
    exact ⟨hout, hrings⟩
  | setRingCapacity spans =>
    obtain ⟨cap, -, rfl⟩ := setRingCapacity_frame h
    exact ⟨hout, hrings⟩
  | register tid a seed now =>
    obtain rfl := Except.ok.inj h
    cases htls : t.tls tid with
    | some b =>
      rw [register_of_some (by simp [htls])]
      exact ⟨hout, hrings⟩
    | none =>
      rw [register_of_none htls]
      exact ⟨hout, hrings.update a (by simp [newCtx, OtelThreadCtx.staged])⟩
  | unregister tid =>
    rcases unregister_cases h with ⟨-, rfl⟩ | ⟨a, t₁, threads, c, -, hpass, -, -, rfl⟩
    · exact ⟨hout, hrings⟩
    · have h₁ : OutRecorded t₁.out ∧ RingsRecorded t₁.ctxs := by
        rcases whenEnabled_ok hpass with ⟨-, n, hpass⟩ | ⟨-, rfl⟩
        · exact drainPass_recorded hpass hout hrings
        · exact ⟨hout, hrings⟩
      refine ⟨h₁.1, h₁.2.sub fun b c' hb => ?_⟩
      replace hb : Function.update t₁.ctxs a none b = some c' := hb
      by_cases hba : b = a
      · subst hba
        simp at hb
      · rw [Function.update_of_ne hba] at hb
        exact Or.inl hb
  | start tid call s name kind now => exact hop.elim
  | finish tid s now => exact hop.elim
  | drain =>
    obtain ⟨⟨t₁, n⟩, h1, rfl⟩ := map_ok h
    exact drain_recorded h1 hout hrings

/-- What the passes of a call take from the rings is recording. -/
theorem takes_recorded (hrings : RingsRecorded t.ctxs) (op : Op) :
    ∀ s ∈ t.takes op, otelSpanRecording s = true := by
  intro s hs
  cases op with
  | drain =>
    simp only [Tracer.takes] at hs
    split_ifs at hs
    · exact hrings.staged t.threads s hs
    · cases hs
  | unregister tid =>
    simp only [Tracer.takes] at hs
    split at hs
    · rename_i a _
      split_ifs at hs
      · exact hrings.staged [a] s (by simpa [stagedIn] using hs)
      · cases hs
    · cases hs
  | shutdown =>
    simp only [Tracer.takes] at hs
    split_ifs at hs
    · exact hrings.staged t.threads s hs
    · cases hs
  | _ => cases hs

/-! ## Starting a child -/

/-- The span `c` continues the trace of the span `p`, or neither is recording. -/
structure Inherits (p c : OtelSpan) : Prop where
  recording : otelSpanRecording c = otelSpanRecording p
  traceId : otelSpanRecording p = true → c.traceId = p.traceId
  parentId : otelSpanRecording p = true → c.parentId = p.spanId

/-- On a registered thread the start functions see the thread's generator. -/
theorem start_span {tid : ThreadId} {a : CtxAddr} {c : OtelThreadCtx} {call : StartCall}
    {s : OtelSpan} {name : Option Bytes} {kind : UInt32} {now : UInt64} {r : Tracer × OtelSpan}
    (htls : t.tls tid = some a) (hc : t.ctxs a = some c)
    (h : otelStart t tid call s name kind now = .ok r) :
    r.2 = (call.run ⟨t.enabled, t.sampleAlways, t.sampleThreshold, now⟩ (some c.randstate) s name
      kind).2 := by
  simp only [otelStart, htls] at h
  split_ifs at h with huses
  · obtain ⟨c', hderef, h⟩ := bind_ok h
    obtain rfl := Option.some.inj ((deref_ok hderef).symm.trans hc)
    obtain rfl := Except.ok.inj h
    rfl
  · obtain rfl := Except.ok.inj h
    cases call with
    | root =>
      simp only [StartCall.usesCtx] at huses
      simp [StartCall.run, otelSpanStart, huses]
    | child parent =>
      cases parent with
      | none => rfl
      | some parent =>
        have hno : otelSpanRecording parent = false := by
          simpa [StartCall.usesCtx] using huses
        simp [StartCall.run, otelSpanStartChild, hno]
    | remote traceId parentId sampled =>
      have hno : (!t.enabled || decide (sampled = 0)) = true := by
        cases hen : t.enabled <;> simp_all [StartCall.usesCtx]
      simp [StartCall.run, otelSpanStartRemote, hno]

theorem start_registered {tid : ThreadId} {call : StartCall} {s : OtelSpan} {name : Option Bytes}
    {kind : UInt32} {now : UInt64} {r : Tracer × OtelSpan} (hreg : t.Registered tid)
    (h : otelStart t tid call s name kind now = .ok r) :
    ∃ env st, r.2 = (call.run env (some st) s name kind).2 := by
  obtain ⟨a, c, htls, hc⟩ := hreg
  exact ⟨_, c.randstate, start_span htls hc h⟩

theorem startChild_inherits (env : StartEnv) (st : OtelRandomState) (s parent : OtelSpan)
    (name : Option Bytes) (kind : UInt32) :
    Inherits parent ((StartCall.child (some parent)).run env (some st) s name kind).2 := by
  cases hrec : otelSpanRecording parent with
  | false =>
    have hrun : ((StartCall.child (some parent)).run env (some st) s name kind).2 =
        notRecording s := by
      simp [StartCall.run, otelSpanStartChild, hrec]
    rw [hrun]
    exact ⟨by rw [notRecording_not_recording, hrec], by simp [hrec], by simp [hrec]⟩
  | true =>
    have hrun : ((StartCall.child (some parent)).run env (some st) s name kind).2 =
        otelSpanInit { s with
          traceId := parent.traceId, spanId := (otelRandomNext st).2
          parentId := parent.spanId } name kind.toUInt8 env.now := by
      simp [StartCall.run, otelSpanStartChild, hrec, otelSpanStartChild_]
    rw [hrun]
    have hhead := head_init { s with
      traceId := parent.traceId, spanId := (otelRandomNext st).2
      parentId := parent.spanId } name kind.toUInt8 env.now
    refine ⟨?_, fun _ => ?_, fun _ => ?_⟩
    · rw [hrec]
      exact recording_of_flags (congrArg SpanHead.flags hhead)
    · exact congrArg SpanHead.traceId hhead
    · exact congrArg SpanHead.parentId hhead

/-! ## Calls on a span -/

/-- What a child has inherited from a span, and what it has inherited itself, do not change. -/
structure SameIds (s s' : OtelSpan) : Prop where
  flags : s'.flags = s.flags
  traceId : s'.traceId = s.traceId
  spanId : s'.spanId = s.spanId
  parentId : s'.parentId = s.parentId

theorem SameIds.refl (s : OtelSpan) : SameIds s s := ⟨rfl, rfl, rfl, rfl⟩

theorem SameIds.recording {s s' : OtelSpan} (h : SameIds s s') :
    otelSpanRecording s' = otelSpanRecording s := by
  rw [otelSpanRecording, otelSpanRecording, h.flags]

theorem sameIds_call (σ : Session) (c : Call) : SameIds σ.span (σ.call c).span := by
  have hstamp : ∀ h : SpanHead, (c.stamp h).flags = h.flags ∧ (c.stamp h).traceId = h.traceId ∧
      (c.stamp h).spanId = h.spanId ∧ (c.stamp h).parentId = h.parentId := by
    intro h
    cases c <;> exact ⟨rfl, rfl, rfl, rfl⟩
  obtain ⟨hflags, htrace, hspan, hparent⟩ := hstamp σ.span.head
  have hcall := head_call σ c
  exact ⟨(congrArg SpanHead.flags hcall).trans hflags,
    (congrArg SpanHead.traceId hcall).trans htrace,
    (congrArg SpanHead.spanId hcall).trans hspan,
    (congrArg SpanHead.parentId hcall).trans hparent⟩

/-- A call on a span that is not recording does nothing. -/
theorem call_idle {σ : Session} (h : otelSpanRecording σ.span = false) (hhandles : σ.handles = [])
    {c : Call} (hc : ∀ now, c ≠ .finish now) : σ.call c = σ := by
  obtain ⟨span, handles⟩ := σ
  simp only at h hhandles
  subst hhandles
  cases c with
  | setName name => simp [Session.call, otelSpanSetName, h]
  | setStatus status message => simp [Session.call, otelSpanSetStatus, h]
  | attr key arg => simp [Session.call, otelSpanAttr, otelSpanAttr_, h]
  | event name now => simp [Session.call, otelSpanEvent, h]
  | eventAttr handle key arg => simp [Session.call, otelEventAttr, otelEventAttr_]
  | finish now => exact absurd rfl (hc now)

/-! ## The forest -/

/-- The invariant of the forest. -/
structure Grown (w : Forest) : Prop where
  handles : ∀ o n, w.nodes o = some n → n.recording = false → n.session.handles = []
  child : ∀ c n p, w.nodes c = some n → n.parent = some p →
    ∃ m, w.nodes p = some m ∧ Inherits m.span n.span
  rings : RingsRecorded w.tracer.ctxs
  out : OutRecorded w.tracer.out
  passed : ∀ s ∈ w.passed, otelSpanRecording s = true

theorem node_ok {o : SpanObj} {n : Node} (h : w.node o = .ok n) : w.nodes o = some n := by
  unfold Forest.node at h
  split at h
  · rw [← Except.ok.inj h]
    assumption
  · cases h

theorem node_of_some {o : SpanObj} {n : Node} (h : w.nodes o = some n) : w.node o = .ok n := by
  rw [Forest.node, h]

theorem nodes_setNode (w : Forest) (o : SpanObj) (n : Node) {c : SpanObj} {n' : Node}
    (h : (w.setNode o n).nodes c = some n') : (c = o ∧ n' = n) ∨ (c ≠ o ∧ w.nodes c = some n') := by
  replace h : Function.update w.nodes o (some n) c = some n' := h
  by_cases hc : c = o
  · left
    rw [hc, Function.update_self] at h
    exact ⟨hc, (Option.some.inj h).symm⟩
  · right
    rw [Function.update_of_ne hc] at h
    exact ⟨hc, h⟩

/-- Annotating or ending a span. -/
theorem Grown.setNode (h : Grown w) {o : SpanObj} {n n' : Node} (hn : w.nodes o = some n)
    (hids : SameIds n.span n'.span) (hparent : n'.parent = n.parent)
    (hhandles : n'.recording = false → n'.session.handles = []) : Grown (w.setNode o n') where
  handles := by
    intro c m hm hno
    rcases nodes_setNode w o n' hm with ⟨-, rfl⟩ | ⟨-, hm⟩
    · exact hhandles hno
    · exact h.handles c m hm hno
  child := by
    -- what is inherited is the same before and after
    have hsame : ∀ c m, (w.setNode o n').nodes c = some m →
        ∃ m₀, w.nodes c = some m₀ ∧ SameIds m₀.span m.span ∧ m.parent = m₀.parent := by
      intro c m hm
      rcases nodes_setNode w o n' hm with ⟨rfl, rfl⟩ | ⟨-, hm⟩
      · exact ⟨n, hn, hids, hparent⟩
      · exact ⟨m, hm, SameIds.refl _, rfl⟩
    have hback : ∀ c m₀, w.nodes c = some m₀ →
        ∃ m, (w.setNode o n').nodes c = some m ∧ SameIds m₀.span m.span := by
      intro c m₀ hm₀
      by_cases hc : c = o
      · subst hc
        obtain rfl := Option.some.inj (hn.symm.trans hm₀)
        exact ⟨n', Function.update_self .., hids⟩
      · exact ⟨m₀, (Function.update_of_ne hc ..).trans hm₀, SameIds.refl _⟩
    intro c m p hm hp
    obtain ⟨m₀, hm₀, hids₀, hparent₀⟩ := hsame c m hm
    obtain ⟨q₀, hq₀, hinherits⟩ := h.child c m₀ p hm₀ (hparent₀.symm.trans hp)
    obtain ⟨q, hq, hidsq⟩ := hback p q₀ hq₀
    refine ⟨q, hq, ?_, ?_, ?_⟩
    · rw [hids₀.recording, hidsq.recording]
      exact hinherits.recording
    · intro hrec
      rw [hidsq.recording] at hrec
      rw [hids₀.traceId, hidsq.traceId]
      exact hinherits.traceId hrec
    · intro hrec
      rw [hidsq.recording] at hrec
      rw [hids₀.parentId, hidsq.spanId]
      exact hinherits.parentId hrec
  rings := h.rings
  out := h.out
  passed := h.passed

/-- Starting a span on a fresh object. -/
theorem Grown.start (h : Grown w) {o : SpanObj} {n : Node} (hfresh : w.nodes o = none)
    (hhandles : n.session.handles = [])
    (hparent : ∀ p, n.parent = some p → ∃ m, w.nodes p = some m ∧ Inherits m.span n.span) :
    Grown (w.setNode o n) where
  handles := by
    intro c m hm hno
    rcases nodes_setNode w o n hm with ⟨-, rfl⟩ | ⟨-, hm⟩
    · exact hhandles
    · exact h.handles c m hm hno
  child := by
    have hkeep : ∀ p m, w.nodes p = some m → (w.setNode o n).nodes p = some m := by
      intro p m hm
      have hne : p ≠ o := by
        rintro rfl
        rw [hfresh] at hm
        cases hm
      exact (Function.update_of_ne hne ..).trans hm
    intro c m p hm hp
    rcases nodes_setNode w o n hm with ⟨-, rfl⟩ | ⟨-, hm⟩
    · obtain ⟨q, hq, hinherits⟩ := hparent p hp
      exact ⟨q, hkeep p q hq, hinherits⟩
    · obtain ⟨q, hq, hinherits⟩ := h.child c m p hm hp
      exact ⟨q, hkeep p q hq, hinherits⟩
  rings := h.rings
  out := h.out
  passed := h.passed

theorem Grown.withTracer (h : Grown w) (hrings : RingsRecorded t.ctxs) (hout : OutRecorded t.out) :
    Grown { w with tracer := t } :=
  ⟨h.handles, h.child, hrings, hout, h.passed⟩

theorem grown_step (h : Grown w) {op : ForestOp} (hpos : op.Possible w)
    (hstep : forestStep pack w op = .ok w') : Grown w' := by
  cases op with
  | start tid obj how mem name kind now =>
    obtain ⟨hfresh, hreg, hparent⟩ := hpos
    obtain ⟨r, hstart, hstep⟩ := bind_ok hstep
    obtain rfl := Except.ok.inj hstep
    have htracer : RingsRecorded r.1.ctxs ∧ OutRecorded r.1.out := by
      rcases start_cases hstart with hr | ⟨a, c, rand, hc, hr⟩
      · rw [hr]
        exact ⟨h.rings, h.out⟩
      · rw [hr]
        exact ⟨h.rings.update a (h.rings a c hc), h.out⟩
    refine (h.withTracer htracer.1 htracer.2).start hfresh rfl ?_
    intro p hp
    obtain ⟨m, hm⟩ := Option.isSome_iff_exists.mp (hparent p hp)
    refine ⟨m, hm, ?_⟩
    cases how with
    | root => cases hp
    | child parent =>
      obtain rfl : parent = some p := hp
      obtain ⟨env, st, hspan⟩ := start_registered hreg hstart
      have hcall : w.startCall (.child (some p)) = .child (some m.span) := by
        simp [Forest.startCall, hm]
      rw [hcall] at hspan
      show Inherits m.span r.2
      rw [hspan]
      exact startChild_inherits env st mem m.span name kind
    | remote traceId parentId sampled => cases hp
  | annotate obj c =>
    obtain ⟨n, hn, hstep⟩ := bind_ok hstep
    obtain rfl := Except.ok.inj hstep
    have hn := node_ok hn
    have hids := sameIds_call n.session c
    refine h.setNode hn hids rfl ?_
    intro hno
    have hidle : otelSpanRecording n.session.span = false := hids.recording.symm.trans hno
    rw [call_idle hidle (h.handles obj n hn hidle) hpos.2]
    exact h.handles obj n hn hidle
  | finish tid obj now =>
    obtain ⟨n, hn, hstep⟩ := bind_ok hstep
    obtain ⟨t, hend, hstep⟩ := bind_ok hstep
    obtain rfl := Except.ok.inj hstep
    have hn := node_ok hn
    have htracer : RingsRecorded t.ctxs ∧ OutRecorded t.out := by
      rcases spanEnd_cases hend with ⟨-, rfl⟩ | ⟨-, -, rfl⟩ | ⟨hrec, a, c, -, hc, rfl⟩
      · exact ⟨h.rings, h.out⟩
      · exact ⟨h.rings, h.out⟩
      · refine ⟨h.rings.update a (ringPut_recorded (h.rings a c hc) ?_), h.out⟩
        exact hrec
    refine (h.withTracer htracer.1 htracer.2).setNode hn ?_ rfl ?_
    · show SameIds n.session.span (if n.recording then _ else _ : Session).span
      split_ifs
      · exact sameIds_call n.session (.finish now)
      · exact SameIds.refl _
    · intro hno
      cases hrec : n.recording with
      | true =>
        exfalso
        rw [Node.recording, Node.span, hrec, if_pos rfl] at hno
        have := (sameIds_call n.session (.finish now)).recording.symm.trans hno
        rw [show otelSpanRecording n.session.span = true from hrec] at this
        cases this
      | false => exact h.handles obj n hn hrec
  | setSampler ratio =>
    obtain rfl := Except.ok.inj hstep
    cases ratio <;> exact h.withTracer h.rings h.out
  | tracer op =>
    obtain ⟨t, hop, hstep⟩ := bind_ok hstep
    obtain rfl := Except.ok.inj hstep
    obtain ⟨hout, hrings⟩ := tracer_recorded hpos.1 hop h.out h.rings
    refine ⟨h.handles, h.child, hrings, hout, ?_⟩
    intro s hs
    rcases List.mem_append.mp hs with hs | hs
    · exact h.passed s hs
    · exact takes_recorded h.rings op s hs

theorem grown_boot : Grown Forest.boot where
  handles o n hn := by cases hn
  child c n p hn := by cases hn
  rings a c hc := by cases hc
  out s hs := by cases hs
  passed s hs := by cases hs

theorem grown_run {ops : List ForestOp} (h : (forestMachine pack).Run Forest.boot ops w) : Grown w :=
  h.invariant grown_boot fun _ _ _ _ hi he hstep => grown_step hi he hstep

/-- Along the forest the decision to record and the trace id are passed on. -/
theorem Grown.descends (h : Grown w) {o d : SpanObj} (hd : Relation.TransGen w.ChildOf o d) {n m : Node}
    (hn : w.nodes o = some n) (hm : w.nodes d = some m) :
    m.recording = n.recording ∧ (n.recording = true → m.span.traceId = n.span.traceId) := by
  induction hd generalizing m with
  | single hchild =>
    obtain ⟨m', hm', hp⟩ := hchild
    obtain rfl := Option.some.inj (hm.symm.trans hm')
    obtain ⟨n', hn', hinherits⟩ := h.child _ m o hm hp
    obtain rfl := Option.some.inj (hn.symm.trans hn')
    exact ⟨hinherits.recording, hinherits.traceId⟩
  | @tail b c _ hchild ih =>
    obtain ⟨m', hm', hp⟩ := hchild
    obtain rfl := Option.some.inj (hm.symm.trans hm')
    obtain ⟨q, hq, hinherits⟩ := h.child c m b hm hp
    obtain ⟨hrec, htrace⟩ := ih hq
    refine ⟨hinherits.recording.trans hrec, fun htrue => ?_⟩
    rw [hinherits.traceId (hrec.trans htrue), htrace htrue]

/-- In every run of starts, annotations and ends on distinct objects, with all other calls in
between: a descendant of a span is recording exactly if the span is, and then it has the same trace
id; a child's parent id is the span id of its parent; calls on a span that is not recording change
nothing; and what is in the rings, was given to the sink or was taken from the rings by a pass is
recording. -/
theorem trace_wide_sampling (pack : Proto.ExportTraceServiceRequest → Bytes) (ops : List ForestOp)
    (w : Forest) (hrun : (forestMachine pack).Run Forest.boot ops w) :
    (∀ o d n m, Relation.TransGen w.ChildOf o d → w.nodes o = some n → w.nodes d = some m →
      m.recording = n.recording ∧ (n.recording = true → m.span.traceId = n.span.traceId)) ∧
    (∀ p c n m, w.ChildOf p c → w.nodes p = some n → w.nodes c = some m → n.recording = true →
      m.span.parentId = n.span.spanId) ∧
    (∀ o n, w.nodes o = some n → n.recording = false →
      (∀ c, (∀ now, c ≠ .finish now) → forestStep pack w (.annotate o c) = .ok w) ∧
      ∀ tid now, forestStep pack w (.finish tid o now) = .ok w) ∧
    (∀ a c, w.tracer.ctxs a = some c → ∀ s ∈ c.staged, otelSpanRecording s = true) ∧
    (∀ s, .sinkSpan s ∈ w.tracer.out → otelSpanRecording s = true) ∧
    ∀ s ∈ w.passed, otelSpanRecording s = true := by
  have h := grown_run hrun
  refine ⟨fun o d n m hd hn hm => h.descends hd hn hm, ?_, ?_, h.rings, h.out, h.passed⟩
  · rintro p c n m ⟨m', hm', hp⟩ hn hm hrec
    obtain rfl := Option.some.inj (hm.symm.trans hm')
    obtain ⟨n', hn', hinherits⟩ := h.child c m p hm hp
    obtain rfl := Option.some.inj (hn.symm.trans hn')
    exact hinherits.parentId hrec
  · intro o n hn hno
    have hsame : ∀ w' : Forest, w'.nodes = w.nodes → w'.setNode o n = w' := by
      intro w' hw'
      rw [Forest.setNode, hw', Function.update_eq_self_iff.mpr hn.symm, ← hw']
    refine ⟨fun c hc => ?_, fun tid now => ?_⟩
    · have hidle := call_idle hno (h.handles o n hn hno) hc
      show (w.node o >>= _) = _
      rw [node_of_some hn, ok_bind, hidle]
      exact congrArg Except.ok (hsame w rfl)
    · have hend : otelSpanEnd w.tracer tid n.span now = .ok w.tracer := by
        simp [otelSpanEnd, show otelSpanRecording n.span = false from hno]
      show (w.node o >>= _) = _
      rw [node_of_some hn, ok_bind, hend, ok_bind, hno, if_neg Bool.false_ne_true]
      exact congrArg Except.ok (hsame w rfl)

/-- A child that is started after sampling and tracing were switched off. -/
theorem trace_wide_sampling_sample : ∃ (w : Forest) (n m : Node),
    w.nodes 10 = some n ∧ w.nodes 11 = some m ∧ n.recording = true ∧ w.tracer.enabled = false ∧
      m.recording = n.recording := by
  have hrun : ∃ (w : Forest) (n m : Node), (forestMachine fun _ => []).Run Forest.boot
      [.tracer (.init none none true), .tracer (.setTransport true),
        .tracer (.register 0 3 ⟨1, 0⟩ 0), .start 0 10 .root zeroSpan none 1 5, .setSampler .never,
        .tracer (.setEnabled 0), .start 0 11 (.child (some 10)) zeroSpan none 1 6] w ∧
      w.nodes 10 = some n ∧ w.nodes 11 = some m ∧ m.parent = some 10 ∧ n.recording = true ∧
      w.tracer.enabled = false :=
    ⟨_, _, _, .cons ⟨trivial, trivial⟩ rfl (.cons ⟨trivial, trivial⟩ rfl (.cons ⟨trivial, rfl⟩ rfl
      (.cons ⟨rfl, ⟨_, _, rfl, rfl⟩, by rintro p ⟨⟩⟩ rfl (.cons trivial rfl
        (.cons ⟨trivial, trivial⟩ rfl
          (.cons ⟨rfl, ⟨_, _, rfl, rfl⟩, by rintro p ⟨⟩; rfl⟩ rfl .nil)))))),
      rfl, rfl, rfl, rfl, rfl⟩
  obtain ⟨w, n, m, hrun, hn, hm, hparent, hrec, hoff⟩ := hrun
  exact ⟨w, n, m, hn, hm, hrec, hoff, ((trace_wide_sampling (fun _ => []) _ w hrun).1 10 11 n m
    (.single ⟨m, hm, hparent⟩) hn hm).1⟩

end OtelTracing
