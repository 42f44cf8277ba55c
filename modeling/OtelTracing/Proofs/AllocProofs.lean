import OtelTracing.Alloc
import OtelTracing.Proofs.AvoidProofs

/-!
# Proofs: allocations that fail

A failed `otelInit` leaves a tracer that counts as initialized: as long as no consumer is set in it,
it is not live and nothing reaches the batch. A context without a ring stays empty as long as its
thread ends no recording span.
-/

namespace OtelTracing

open ByteMem Outcome

variable {pack : Proto.ExportTraceServiceRequest → Bytes} {t t' : Tracer} {s s' : Allocated}

/-! ## The invariant -/

structure AllocOk (s : Allocated) : Prop where
  ready : Ready s.tracer
  quiet : s.tracer.InitFailed → s.tracer.transportPresent = false ∧
    s.tracer.sinkPresent = false ∧ s.tracer.enabled = false
  runtimeOn : s.tracer.initialized = true → s.tracer.runtimeOn = true
  live : ∀ tid a, s.tracer.tls tid = some a → (s.tracer.ctxs a).isSome
  empty : ∀ a c, s.tracer.ctxs a = some c → s.hasRing a = false → c.head = c.tail ∧ 0 < c.capacity
  ringCapacity : s.tracer.ringCapacity = 2048

theorem AllocOk.boot : AllocOk Allocated.boot where
  ready := Ready.boot
  quiet h := by cases h.1
  runtimeOn h := by cases h
  live tid a h := by cases h
  empty a c h := by cases h
  ringCapacity := rfl

/-- A live tracer has its batch buffer. -/
theorem AllocOk.buf (h : AllocOk s) (hen : s.tracer.enabled = true) :
    s.tracer.otlp.buf = true := by
  by_contra hbuf
  have hquiet := h.quiet ⟨h.ready.enabled hen, by simpa using hbuf⟩
  rw [hen] at hquiet
  cases hquiet.2.2

theorem AllocOk.armed (h : AllocOk s) (hen : s.tracer.enabled = true) : Armed s.tracer :=
  ⟨fun _ => ⟨h.ready.numAttrs, h.ready.numEvents⟩, h.buf hen, h.ready.sinkPresent⟩

/-- A context without a ring has nothing staged. -/
theorem AllocOk.readable (h : AllocOk s) : s.unreadable = false := by
  unfold Allocated.unreadable
  rw [List.any_eq_false]
  intro a _ hbad
  rw [Bool.and_eq_true, Bool.not_eq_true', Bool.not_eq_true'] at hbad
  obtain ⟨hring, hstaged⟩ := hbad
  unfold stagedAt at hstaged
  cases hc : s.tracer.ctxs a with
  | none => simp [hc] at hstaged
  | some c =>
    have hcursors := (h.empty a c hc hring).1
    simp [hc, OtelThreadCtx.staged, hcursors] at hstaged

/-- A thread without a ring would not drop the span that it ends. -/
theorem AllocOk.not_drops (h : AllocOk s) {tid : ThreadId} {a : CtxAddr}
    (htls : s.tracer.tls tid = some a) (hring : s.hasRing a = false) :
    s.tracer.drops tid = false := by
  obtain ⟨c, hc⟩ := Option.isSome_iff_exists.mp (h.live tid a htls)
  obtain ⟨hcursors, hcap⟩ := h.empty a c hc hring
  have hroom : ¬ c.capacity.toUInt64 ≤ 0 := by
    rw [UInt64.le_iff_toNat_le, UInt32.toNat_toUInt64]
    have := UInt32.lt_iff_toNat_lt.mp hcap
    simpa using Nat.pos_iff_ne_zero.mp this
  simp [Tracer.drops, htls, hc, hcursors, hroom]

/-! ## Steps -/

/-- What the invariant says of the configuration. -/
theorem AllocOk.recompute (h : AllocOk s) (hready : Ready t')
    (hsame : ∃ transport sink transportPresent sinkPresent, t' = otelRecomputeEnabled
      { s.tracer with
        transport := transport, sink := sink
        transportPresent := transportPresent, sinkPresent := sinkPresent } ∧
      (s.tracer.InitFailed → transportPresent = false ∧ sinkPresent = false)) :
    AllocOk { s with tracer := t' } := by
  obtain ⟨transport, sink, transportPresent, sinkPresent, rfl, hnone⟩ := hsame
  exact
    { ready := hready
      quiet := by
        intro hfailed
        obtain ⟨h1, h2⟩ := hnone hfailed
        exact ⟨h1, h2, by simp [otelRecomputeEnabled, h1, h2]⟩
      runtimeOn := h.runtimeOn
      live := h.live
      empty := h.empty
      ringCapacity := h.ringCapacity }

/-- What the invariant says of the contexts, for a step that keeps the configuration. -/
theorem AllocOk.update (h : AllocOk s) {a : CtxAddr} (c' : OtelThreadCtx) (hready : Ready t')
    (hempty : s.hasRing a = false → c'.head = c'.tail ∧ 0 < c'.capacity)
    (hsame : ∃ ended droppedSpans, t' = { s.tracer with
      ctxs := Function.update s.tracer.ctxs a (some c')
      ended := ended, droppedSpans := droppedSpans }) : AllocOk { s with tracer := t' } := by
  obtain ⟨ended, droppedSpans, rfl⟩ := hsame
  refine
    { ready := hready
      quiet := h.quiet
      runtimeOn := h.runtimeOn
      live := ?_
      empty := ?_
      ringCapacity := h.ringCapacity }
  · intro tid b htls
    by_cases hb : b = a
    · simp [hb]
    · simpa [hb] using h.live tid b htls
  · intro b cb hcb hring
    by_cases hb : b = a
    · subst hb
      obtain rfl : c' = cb := by simpa using hcb
      exact hempty hring
    · exact h.empty b cb (by simpa [hb] using hcb) hring

theorem alloc_init (h : AllocOk s) (service hostname : Option Bytes) (buf : Bool) :
    AllocOk { s with tracer := (otelInit s.tracer service hostname buf).1 } := by
  have hready := h.ready.init service hostname buf
  cases hinit : s.tracer.initialized with
  | true =>
    rw [otelInit_of_initialized hinit]
    exact h
  | false =>
    rw [otelInit_of_not hinit] at hready ⊢
    exact
      { ready := hready
        quiet := fun _ => ⟨rfl, rfl, rfl⟩
        runtimeOn := fun _ => rfl
        live := h.live
        empty := h.empty
        ringCapacity := h.ringCapacity }

theorem allocRegister_cases {tid : ThreadId} {ctx : Option CtxAddr} {ring : Bool}
    {seed : OtelRandomState} {now : UInt64} (h : allocRegister s tid ctx ring seed now = .ok s') :
    ((s.tracer.tls tid).isSome ∧ s' = s) ∨
    (s.tracer.tls tid = none ∧ ∃ a, ctx = some a ∧
      s' = ⟨otelThreadRegister s.tracer tid a seed now, Function.update s.hasRing a ring⟩) := by
  unfold allocRegister at h
  split_ifs at h with htls
  · exact Or.inl ⟨htls, (Except.ok.inj h).symm⟩
  · cases hctx : ctx with
    | none => simp [hctx] at h
    | some a =>
      simp only [hctx, Except.ok.injEq] at h
      exact Or.inr ⟨by simpa using htls, a, rfl, h.symm⟩

theorem alloc_register (h : AllocOk s) {tid : ThreadId} {a : CtxAddr}
    (htls : s.tracer.tls tid = none) (hfree : s.tracer.ctxs a = none) (ring : Bool)
    (seed : OtelRandomState) (now : UInt64) : AllocOk
      ⟨otelThreadRegister s.tracer tid a seed now, Function.update s.hasRing a ring⟩ := by
  have hready : Ready (otelThreadRegister s.tracer tid a seed now) :=
    h.ready.register hfree seed now
  rw [register_of_none htls] at hready ⊢
  refine
    { ready := hready
      quiet := h.quiet
      runtimeOn := h.runtimeOn
      live := ?_
      empty := ?_
      ringCapacity := h.ringCapacity }
  · intro tid' b htls'
    replace htls' : Function.update s.tracer.tls tid (some a) tid' = some b := htls'
    by_cases htid : tid' = tid
    · rw [htid, Function.update_self] at htls'
      obtain rfl := Option.some.inj htls'
      simp
    · rw [Function.update_of_ne htid] at htls'
      by_cases hb : b = a
      · simp [hb]
      · simpa [hb] using h.live tid' b htls'
  · intro b c hc hring
    by_cases hb : b = a
    · subst hb
      obtain rfl : newCtx s.tracer.ringCapacity b seed now = c := by simpa using hc
      refine ⟨rfl, ?_⟩
      show (0 : UInt32) < s.tracer.ringCapacity
      rw [h.ringCapacity]
      decide
    · exact h.empty b c (by simpa [hb] using hc) (by simpa [hb] using hring)

theorem alloc_drain (h : AllocOk s) {n : Int32} (hdrain : otelDrain pack s.tracer = .ok (t', n)) :
    AllocOk { s with tracer := t' } := by
  have hready := h.ready.drain hdrain
  unfold otelDrain at hdrain
  split_ifs at hdrain
  · obtain ⟨rfl, -⟩ := Prod.mk.inj (Except.ok.inj hdrain)
    exact h
  · have hidle : Idle s.tracer.otlp := fun _ => ⟨h.ready.numAttrs, h.ready.numEvents⟩
    have hbuf := (drainPass_setup hdrain hidle).1.buf
    obtain ⟨o, out, rfl⟩ := drainPass_frame h.ready.nodup hdrain
    refine
      { ready := hready
        quiet := ?_
        runtimeOn := h.runtimeOn
        live := ?_
        empty := ?_
        ringCapacity := h.ringCapacity }
    · intro hfailed
      exact h.quiet ⟨hfailed.1, hbuf.symm.trans hfailed.2⟩
    · intro tid a htls
      rw [isSome_drainedCtxs]
      exact h.live tid a htls
    · intro a c hc hring
      replace hc : drainedCtxs s.tracer.threads s.tracer.ctxs a = some c := hc
      unfold drainedCtxs at hc
      split_ifs at hc
      · obtain ⟨c₀, hc₀, rfl⟩ := Option.map_eq_some_iff.mp hc
        exact ⟨rfl, (h.empty a c₀ hc₀ hring).2⟩
      · exact h.empty a c hc hring

/-- A call that meets the condition keeps the invariant. -/
theorem alloc_step (h : AllocOk s) {op : AllocOp} (hpos : op.Possible s) (hcond : Allocates s op)
    (hstep : allocStep pack s op = .ok s') : AllocOk s' := by
  cases op with
  | init service hostname buf =>
    obtain rfl := Except.ok.inj hstep
    exact alloc_init h service hostname buf
  | setTransport fn =>
    obtain rfl := Except.ok.inj hstep
    refine h.recompute { h.ready with transportPresent := rfl, enabled := recompute_enabled _ }
      ⟨fn, _, fn, _, rfl, ?_⟩
    intro hfailed
    exact ⟨hcond hfailed, (h.quiet hfailed).2.1⟩
  | setSpanSink sink =>
    obtain rfl := Except.ok.inj hstep
    refine h.recompute { h.ready with sinkPresent := rfl, enabled := recompute_enabled _ }
      ⟨_, sink, _, sink.isSome, rfl, ?_⟩
    intro hfailed
    exact ⟨(h.quiet hfailed).1, by rw [hcond hfailed]; rfl⟩
  | register tid ctx ring seed now =>
    rcases allocRegister_cases hstep with ⟨-, rfl⟩ | ⟨htls, a, rfl, rfl⟩
    · exact h
    · exact alloc_register h htls (hpos a rfl) ring seed now
  | start tid call span name kind now =>
    obtain ⟨r, h1, h2⟩ := bind_ok hstep
    obtain rfl := Except.ok.inj h2
    rcases start_cases h1 with hr | ⟨a, c, rand, hc, hr⟩
    · rw [hr]
      exact h
    · rw [hr]
      exact h.update { c with randstate := rand } (h.ready.setCtx a _ _ _) (h.empty a c hc)
        ⟨s.tracer.ended, s.tracer.droppedSpans, rfl⟩
  | finish tid span now =>
    replace hstep : (if s.noSlot tid span then Except.error Fault.nullDeref else
      otelSpanEnd s.tracer tid span now >>= fun t => pure { s with tracer := t }) = .ok s' := hstep
    split_ifs at hstep
    obtain ⟨t, h1, h2⟩ := bind_ok hstep
    obtain rfl := Except.ok.inj h2
    rcases spanEnd_cases h1 with ⟨-, rfl⟩ | ⟨-, -, rfl⟩ | ⟨hrec, a, c, htls, hc, rfl⟩
    · exact h
    · exact { h with ready := { h.ready with } }
    · refine h.update _ (h.ready.setCtx a _ _ _) ?_ ⟨_, _, rfl⟩
      intro hring
      rw [hcond hrec a htls] at hring
      cases hring
  | drain =>
    replace hstep : (if s.tracer.enabled && s.unreadable then Except.error Fault.nullDeref else
      otelDrain pack s.tracer >>= fun r => pure { s with tracer := r.1 }) = .ok s' := hstep
    split_ifs at hstep
    obtain ⟨⟨t, n⟩, h1, h2⟩ := bind_ok hstep
    obtain rfl := Except.ok.inj h2
    exact alloc_drain h h1

theorem AllocOk.run {ops : List AllocOp}
    (hrun : ((allocMachine pack).restrict Allocates).Run Allocated.boot ops s) : AllocOk s :=
  hrun.invariant AllocOk.boot fun _ _ _ _ hok he hstep => alloc_step hok he.1 he.2 hstep

/-! ## Safe calls -/

theorem AllocOk.start_avoids (h : AllocOk s) (tid : ThreadId) (call : StartCall) (span : OtelSpan)
    (name : Option Bytes) (kind : UInt32) (now : UInt64) :
    Avoids Fault.nullDeref (otelStart s.tracer tid call span name kind now) := by
  unfold otelStart
  cases htls : s.tracer.tls tid with
  | none => exact Avoids.ok _
  | some a =>
    simp only
    split_ifs
    · exact Avoids.bind (deref_avoids (h.live tid a htls)) fun _ _ => Avoids.pure _
    · exact Avoids.ok _

theorem AllocOk.end_avoids (h : AllocOk s) (tid : ThreadId) (span : OtelSpan) (now : UInt64) :
    Avoids Fault.nullDeref (otelSpanEnd s.tracer tid span now) := by
  unfold otelSpanEnd
  split_ifs
  · exact Avoids.ok _
  · unfold otelSpanEnd_
    cases htls : s.tracer.tls tid with
    | none => exact Avoids.ok _
    | some a =>
      simp only
      exact Avoids.bind (deref_avoids (h.live tid a htls)) fun _ _ => Avoids.pure _

theorem AllocOk.drain_avoids (h : AllocOk s) :
    Avoids Fault.nullDeref (otelDrain pack s.tracer) := by
  unfold otelDrain
  split_ifs with hen
  · exact Avoids.ok _
  · exact drainPass_avoids (Or.inr rfl) (fun _ => h.armed (by simpa using hen)) h.ready.live

/-- A thread that stores its spans in a ring has one if the condition is met. -/
theorem noSlot_of_cond {tid : ThreadId} {span : OtelSpan}
    (hcond : otelSpanRecording span = true → ∀ a, s.tracer.tls tid = some a → s.hasRing a = true) :
    s.noSlot tid span = false := by
  unfold Allocated.noSlot
  cases hrec : otelSpanRecording span with
  | false => rfl
  | true =>
    cases htls : s.tracer.tls tid with
    | none => simp
    | some a => simp [hcond hrec a htls]

/-- A call that meets the condition uses no null pointer. -/
theorem alloc_avoids (h : AllocOk s) {op : AllocOp} (hcond : Allocates s op) :
    Avoids Fault.nullDeref (allocStep pack s op) := by
  cases op with
  | init service hostname buf => exact Avoids.ok _
  | setTransport fn => exact Avoids.ok _
  | setSpanSink sink => exact Avoids.ok _
  | register tid ctx ring seed now =>
    show Avoids _ (allocRegister s tid ctx ring seed now)
    unfold allocRegister
    split_ifs with htls
    · exact Avoids.ok _
    · cases hctx : ctx with
      | none => exact absurd hctx (hcond (by simpa using htls))
      | some a => exact Avoids.ok _
  | start tid call span name kind now =>
    exact (h.start_avoids tid call span name kind now).bind fun _ _ => Avoids.pure _
  | finish tid span now =>
    show Avoids _ (if s.noSlot tid span then _ else _)
    rw [noSlot_of_cond hcond]
    exact (h.end_avoids tid span now).bind fun _ _ => Avoids.pure _
  | drain =>
    show Avoids _ (if s.tracer.enabled && s.unreadable then _ else _)
    rw [h.readable, Bool.and_false]
    exact h.drain_avoids.bind fun _ _ => Avoids.pure _

/-- An `otelInit` that reports success without a buffer was called after one that failed. -/
theorem alloc_report (service hostname : Option Bytes) (buf : Bool) (hnot : ¬ t.InitFailed)
    (hzero : (otelInit t service hostname buf).2 = 0) :
    (otelInit t service hostname buf).1.otlp.buf = true := by
  cases hinit : t.initialized with
  | true =>
    rw [otelInit_of_initialized hinit]
    by_contra hbuf
    exact hnot ⟨hinit, by simpa using hbuf⟩
  | false =>
    rw [otelInit_of_not hinit]
    rw [otelInit, if_neg (by simp [hinit])] at hzero
    cases buf with
    | true => rfl
    | false =>
      replace hzero : (-1 : Int32) = 0 := hzero
      exact absurd hzero (by decide)

theorem safe_of_cond (h : AllocOk s) {op : AllocOp} (hpos : op.Possible s)
    (hcond : Allocates s op) : SafeCall pack s op where
  live s' hstep hen := (alloc_step h hpos hcond hstep).buf hen
  report service hostname buf hop hzero := by
    subst hop
    exact alloc_report service hostname buf hcond hzero
  notNull := alloc_avoids h hcond

/-- Setting a consumer after a failed `otelInit` makes the tracer live. -/
theorem live_of_failed (h : AllocOk s) (hfailed : s.tracer.InitFailed)
    {transport transportPresent sinkPresent : Bool} {sink : Option OtelSpanSink}
    (hpresent : (transportPresent || sinkPresent) = true) :
    (otelRecomputeEnabled { s.tracer with
      transport := transport, sink := sink
      transportPresent := transportPresent, sinkPresent := sinkPresent }).enabled = true := by
  simp only [otelRecomputeEnabled, hfailed.1, hpresent, h.runtimeOn hfailed.1, Bool.and_true]

/-- A call that does not meet the condition is not safe. -/
theorem cond_of_safe (h : AllocOk s) {op : AllocOp} (hsafe : SafeCall pack s op) :
    Allocates s op := by
  cases op with
  | init service hostname buf =>
    intro hfailed
    have hreport := hsafe.report service hostname buf rfl
    rw [otelInit_of_initialized hfailed.1, otelInit, if_pos hfailed.1, hfailed.2] at hreport
    cases hreport rfl
  | setTransport fn =>
    intro hfailed
    by_contra hfn
    replace hfn : fn = true := by simpa using hfn
    have hbuf := hsafe.live _ rfl (live_of_failed h hfailed (by rw [hfn]; rfl))
    cases hfailed.2.symm.trans hbuf
  | setSpanSink sink =>
    intro hfailed
    cases sink with
    | none => rfl
    | some sink =>
      have hpresent : (s.tracer.transportPresent || (some sink).isSome) = true := Bool.or_true _
      have hbuf := hsafe.live _ rfl (live_of_failed h hfailed hpresent)
      cases hfailed.2.symm.trans hbuf
  | register tid ctx ring seed now =>
    rintro htls rfl
    refine hsafe.notNull ?_
    show allocRegister s tid none ring seed now = _
    rw [allocRegister, if_neg (by simp [htls])]
  | start tid call span name kind now => trivial
  | finish tid span now =>
    intro hrec a htls
    by_contra hring
    replace hring : s.hasRing a = false := by simpa using hring
    have hno : s.noSlot tid span = true := by
      simp [Allocated.noSlot, hrec, htls, hring, h.not_drops htls hring]
    refine hsafe.notNull ?_
    show (if s.noSlot tid span then _ else _) = _
    rw [if_pos hno]
  | drain => trivial

/-- In a run whose calls meet the condition, tracing is only live with a batch buffer, and the next
call is safe exactly if it meets the condition too. -/
theorem failed_allocations (pack : Proto.ExportTraceServiceRequest → Bytes) (ops : List AllocOp)
    (s : Allocated) (h : ((allocMachine pack).restrict Allocates).Run Allocated.boot ops s) :
    (s.tracer.enabled = true → s.tracer.otlp.buf = true) ∧
    ∀ op, op.Possible s → (SafeCall pack s op ↔ Allocates s op) := by
  have hok := AllocOk.run h
  refine ⟨hok.buf, fun op hpos => ⟨cond_of_safe hok, safe_of_cond hok hpos⟩⟩

/-- The buffer and a ring cannot be allocated, but no consumer is set, and the thread without a ring ends
no span: setting the sink would not be safe, draining is. -/
theorem failed_allocations_sample : ∃ s : Allocated,
    (s.tracer.otlp.buf = false ∧ s.hasRing 3 = false) ∧ s.tracer.enabled = false ∧
    SafeCall (fun _ => []) s .drain ∧
    ¬ SafeCall (fun _ => []) s (.setSpanSink (some ⟨false, true, false⟩)) ∧
    ¬ SafeCall (fun _ => []) s (.finish 0 (otelSpanInit zeroSpan none 0 0) 0) := by
  have hrun : ∃ s : Allocated,
      ((s.tracer.otlp.buf = false ∧ s.hasRing 3 = false) ∧ s.tracer.initialized = true ∧
        s.tracer.tls 0 = some 3) ∧
      ((allocMachine fun _ => []).restrict Allocates).Run Allocated.boot
        [.init none none false, .register 0 (some 3) false ⟨1, 0⟩ 0, .setTransport false,
          .setSpanSink none] s :=
    ⟨_, ⟨⟨rfl, rfl⟩, rfl, rfl⟩, .cons ⟨trivial, fun h => by cases h.1⟩ rfl
      (.cons ⟨fun _ _ => rfl, fun _ h => by cases h⟩ rfl
        (.cons ⟨trivial, fun _ => rfl⟩ rfl (.cons ⟨trivial, fun _ => rfl⟩ rfl .nil)))⟩
  obtain ⟨s, ⟨⟨hbuf, hring⟩, hinit, htls⟩, hrun⟩ := hrun
  obtain ⟨hlive, hsafe⟩ := failed_allocations (fun _ => []) _ s hrun
  refine ⟨s, ⟨hbuf, hring⟩, ?_, (hsafe .drain trivial).mpr trivial, ?_, ?_⟩
  · rw [← Bool.not_eq_true]
    intro hen
    exact absurd (hbuf.symm.trans (hlive hen)) Bool.false_ne_true
  · intro h
    have hcond := (hsafe (.setSpanSink (some ⟨false, true, false⟩)) trivial).mp h
    cases hcond ⟨hinit, hbuf⟩
  · intro h
    have hcond := (hsafe (.finish 0 (otelSpanInit zeroSpan none 0 0) 0) trivial).mp h
    exact absurd (hring.symm.trans (hcond rfl 3 htls)) Bool.false_ne_true

/-- After a failed `otelInit` the transport makes the tracer live, a second `otelInit` reports
success, the first drain that has a span writes through the null buffer, and a thread that registers
can use a null context or end a span in a null ring. -/
theorem failed_init_live :
    let recording := otelSpanInit zeroSpan none 0 0
    (otelInit Tracer.boot none none false).2 = -1 ∧
    (∃ s : Allocated, (allocMachine fun _ => []).Run Allocated.boot
        [.init none none false, .setTransport true, .register 0 (some 3) true ⟨1, 0⟩ 0,
          .finish 0 recording 0] s ∧
      s.tracer.enabled = true ∧ s.tracer.otlp.buf = false ∧
      (otelInit s.tracer none none true).2 = 0 ∧
      (otelInit s.tracer none none true).1.otlp.buf = false ∧
      allocStep (fun _ => []) s .drain = .error .nullDeref ∧
      allocStep (fun _ => []) s (.register 1 none true ⟨1, 0⟩ 0) = .error .nullDeref) ∧
    ∃ s : Allocated, (allocMachine fun _ => []).Run Allocated.boot
        [.init none none true, .register 0 (some 3) false ⟨1, 0⟩ 0] s ∧
      allocStep (fun _ => []) s (.finish 0 recording 0) = .error .nullDeref :=
  ⟨rfl,
    ⟨_, .cons trivial rfl (.cons trivial rfl (.cons (fun _ _ => rfl) rfl
      (.cons trivial rfl .nil))), rfl, rfl, rfl, rfl, rfl, rfl⟩,
    _, .cons trivial rfl (.cons (fun _ _ => rfl) rfl .nil), rfl⟩

end OtelTracing
