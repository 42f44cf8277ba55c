import OtelTracing.Lifecycle
import OtelTracing.Lib.Outcome

/-!
# Proofs: what a drain pass does to the tracer

A pass changes the batch, the outputs and the count of emitted spans, and moves the tails of the
contexts that it drains. It does not touch a freed context if all of these are live.
-/

namespace OtelTracing

open ByteMem Outcome

variable {pack : Proto.ExportTraceServiceRequest → Bytes} {t t' : Tracer} {p : Slot} {a : CtxAddr}

/-! ## Emitting spans -/

theorem deref_ok {c : OtelThreadCtx} (h : t.deref a = .ok c) : t.ctxs a = some c := by
  unfold Tracer.deref at h
  cases hc : t.ctxs a with
  | none => simp [hc] at h
  | some c' => simpa [hc] using h

theorem deref_of_live {c : OtelThreadCtx} (h : t.ctxs a = some c) : t.deref a = .ok c := by
  rw [Tracer.deref, h]

theorem sinkHas_ok {callback : OtelSpanSink → Bool} {b : Bool} (h : t.sinkHas callback = .ok b) :
    b = (t.sinkPresent && t.sink.any callback) := by
  unfold Tracer.sinkHas at h
  cases hp : t.sinkPresent with
  | false => simpa [hp] using h.symm
  | true =>
    cases hs : t.sink with
    | none => simp [hp, hs] at h
    | some sink => simpa [hp, hs] using h.symm

theorem emitTransport_frame (h : emitTransport pack t p = .ok t') :
    ∃ o out, t' = { t with otlp := o, out := out } := by
  unfold emitTransport at h
  split_ifs at h
  · obtain ⟨r, -, h⟩ := bind_ok h
    exact ⟨_, _, (Except.ok.inj h).symm⟩
  · exact ⟨_, _, (Except.ok.inj h).symm⟩

/-- Emitting a span counts it if there is anyone to hand it to. -/
theorem emitSpan_frame (h : otelEmitSpan pack t p = .ok t') :
    ∃ o out, t' = { t with
      otlp := o, out := out, emitted := t.emitted + if t.hasConsumer then 1 else 0 } := by
  unfold otelEmitSpan at h
  obtain ⟨t₁, h1, h⟩ := bind_ok h
  obtain ⟨sink, h2, h⟩ := bind_ok h
  obtain ⟨o, out, rfl⟩ := emitTransport_frame h1
  have hcount : (if t.transportPresent || sink then t.emitted + 1 else t.emitted) =
      t.emitted + if t.hasConsumer then 1 else 0 := by
    rw [sinkHas_ok h2, Tracer.hasConsumer]
    split_ifs <;> rfl
  refine ⟨o, if sink then out ++ [.sinkSpan (ringMem t.ctxs p)] else out, ?_⟩
  rw [← hcount]
  exact (Except.ok.inj h).symm

/-- The loop of `otelDrainCtx`. -/
theorem emitSpans_frame {cursors : List UInt64} {slot : UInt64 → Slot}
    (h : cursors.foldlM (fun t cursor => otelEmitSpan pack t (slot cursor)) t = .ok t') :
    ∃ o out, t' = { t with
      otlp := o, out := out
      emitted := t.emitted + cursors.length * if t.hasConsumer then 1 else 0 } := by
  induction cursors generalizing t with
  | nil =>
    obtain rfl : t = t' := Except.ok.inj h
    exact ⟨t.otlp, t.out, by simp⟩
  | cons cursor cursors ih =>
    rw [List.foldlM_cons] at h
    obtain ⟨t₁, h1, h2⟩ := bind_ok h
    obtain ⟨o₁, out₁, rfl⟩ := emitSpan_frame h1
    obtain ⟨o, out, rfl⟩ := ih h2
    refine ⟨o, out, ?_⟩
    rw [List.length_cons, Nat.add_mul, Nat.one_mul, Nat.add_comm (cursors.length * _),
      ← Nat.add_assoc]
    rfl

/-! ## Draining contexts -/

/-- The context after its ring was drained. -/
def OtelThreadCtx.drained (c : OtelThreadCtx) : OtelThreadCtx := { c with tail := c.head }

@[simp] theorem staged_drained (c : OtelThreadCtx) : c.drained.staged = [] :=
  Ring.contents_self ..

theorem drainCtx_frame {n : Int32} (h : otelDrainCtx pack t a = .ok (t', n)) :
    ∃ c o out, t.ctxs a = some c ∧ n = Int32.ofNat c.staged.length ∧ t' = { t with
      otlp := o, out := out
      emitted := t.emitted + c.staged.length * (if t.hasConsumer then 1 else 0)
      ctxs := Function.update t.ctxs a (some c.drained) } := by
  unfold otelDrainCtx at h
  obtain ⟨c, h1, h⟩ := bind_ok h
  obtain ⟨t₁, h2, h⟩ := bind_ok h
  obtain ⟨c', h3, h⟩ := bind_ok h
  have hc := deref_ok h1
  obtain ⟨o, out, rfl⟩ := emitSpans_frame h2
  obtain rfl : c = c' := by
    have hc' := deref_ok h3
    exact Option.some.inj (hc.symm.trans hc')
  obtain ⟨rfl, rfl⟩ := Prod.mk.inj (Except.ok.inj h)
  refine ⟨c, o, out, hc, ?_, ?_⟩
  · rw [OtelThreadCtx.staged, Ring.length_contents, Ring.length_cursors]
  · rw [OtelThreadCtx.staged, Ring.length_contents, Ring.length_cursors]
    rfl

/-- The heap after the contexts `as` were drained. -/
def drainedCtxs (as : List CtxAddr) (ctxs : CtxAddr → Option OtelThreadCtx) (a : CtxAddr) :
    Option OtelThreadCtx :=
  if a ∈ as then (ctxs a).map OtelThreadCtx.drained else ctxs a

@[simp] theorem drainedCtxs_nil (ctxs : CtxAddr → Option OtelThreadCtx) :
    drainedCtxs [] ctxs = ctxs := by
  funext a
  simp [drainedCtxs]

theorem drainedCtxs_cons {ctxs : CtxAddr → Option OtelThreadCtx} {c : OtelThreadCtx}
    {as : List CtxAddr} (ha : ctxs a = some c) (hnot : a ∉ as) :
    drainedCtxs as (Function.update ctxs a (some c.drained)) = drainedCtxs (a :: as) ctxs := by
  funext b
  unfold drainedCtxs
  by_cases hb : b = a
  · subst hb
    simp [hnot, ha]
  · simp [hb]

theorem isSome_drainedCtxs (as : List CtxAddr) (ctxs : CtxAddr → Option OtelThreadCtx)
    (a : CtxAddr) : (drainedCtxs as ctxs a).isSome = (ctxs a).isSome := by
  unfold drainedCtxs
  split_ifs <;> simp

theorem stagedAt_drainedCtxs (as : List CtxAddr) (ctxs : CtxAddr → Option OtelThreadCtx)
    (a : CtxAddr) : stagedAt (drainedCtxs as ctxs) a = if a ∈ as then [] else stagedAt ctxs a := by
  unfold stagedAt drainedCtxs
  split_ifs
  · cases ctxs a <;> simp
  · rfl

theorem stagedIn_update (ctxs : CtxAddr → Option OtelThreadCtx) (c : Option OtelThreadCtx)
    {as : List CtxAddr} (hnot : a ∉ as) : stagedIn (Function.update ctxs a c) as = stagedIn ctxs as := by
  unfold stagedIn
  refine List.flatMap_congr fun b hb => ?_
  have hne : b ≠ a := fun heq => hnot (heq ▸ hb)
  rw [stagedAt, Function.update_of_ne hne]
  rfl

/-- The loop of a pass. -/
theorem drainCtxs_frame {as : List CtxAddr} {n n' : Int32} (hnodup : as.Nodup)
    (h : as.foldlM (fun (r : Tracer × Int32) a => do
      let r' ← otelDrainCtx pack r.1 a
      pure (r'.1, r.2 + r'.2)) (t, n) = .ok (t', n')) :
    ∃ o out, t' = { t with
      otlp := o, out := out
      emitted := t.emitted + (stagedIn t.ctxs as).length * (if t.hasConsumer then 1 else 0)
      ctxs := drainedCtxs as t.ctxs } := by
  induction as generalizing t n with
  | nil =>
    obtain ⟨rfl, -⟩ := Prod.mk.inj (Except.ok.inj h)
    exact ⟨t.otlp, t.out, by simp [stagedIn]⟩
  | cons a as ih =>
    obtain ⟨hnot, hnodup⟩ := List.nodup_cons.mp hnodup
    rw [List.foldlM_cons] at h
    obtain ⟨r, h1, h2⟩ := bind_ok h
    obtain ⟨⟨t₁, n₁⟩, h3, h4⟩ := bind_ok h1
    obtain rfl := Except.ok.inj h4
    obtain ⟨c, o₁, out₁, hc, -, rfl⟩ := drainCtx_frame (t := t) h3
    obtain ⟨o, out, rfl⟩ := ih hnodup h2
    refine ⟨o, out, ?_⟩
    have hstaged : (stagedIn t.ctxs (a :: as)).length =
        c.staged.length + (stagedIn t.ctxs as).length := by
      simp [stagedIn, stagedAt, hc]
    simp only [drainedCtxs_cons hc hnot, stagedIn_update _ _ hnot, hstaged, Nat.add_mul,
      ← Nat.add_assoc]
    rfl

theorem sinkBegin_frame (h : t.sinkBegin = .ok t') : ∃ out, t' = { t with out := out } := by
  obtain ⟨sink, -, h⟩ := bind_ok h
  obtain rfl := Except.ok.inj h
  split_ifs
  · exact ⟨_, rfl⟩
  · exact ⟨t.out, rfl⟩

theorem sinkEnd_frame (h : t.sinkEnd = .ok t') : ∃ out, t' = { t with out := out } := by
  obtain ⟨sink, -, h⟩ := bind_ok h
  obtain rfl := Except.ok.inj h
  split_ifs
  · exact ⟨_, rfl⟩
  · exact ⟨t.out, rfl⟩

theorem flush_frame (h : t.flush pack = .ok t') :
    ∃ o out, t' = { t with otlp := o, out := out } := by
  obtain ⟨r, -, h⟩ := bind_ok h
  exact ⟨_, _, (Except.ok.inj h).symm⟩

/-- A pass empties the rings that it drains, and counts their spans if there is a consumer. -/
theorem drainPass_frame {as : List CtxAddr} {n : Int32} (hnodup : as.Nodup)
    (h : drainPass pack t as = .ok (t', n)) :
    ∃ o out, t' = { t with
      otlp := o, out := out
      emitted := t.emitted + (stagedIn t.ctxs as).length * (if t.hasConsumer then 1 else 0)
      ctxs := drainedCtxs as t.ctxs } := by
  unfold drainPass at h
  obtain ⟨t₁, h1, h⟩ := bind_ok h
  obtain ⟨⟨t₂, n₂⟩, h2, h⟩ := bind_ok h
  obtain ⟨t₃, h3, h⟩ := bind_ok h
  obtain ⟨t₄, h4, h⟩ := bind_ok h
  obtain ⟨rfl, -⟩ := Prod.mk.inj (Except.ok.inj h)
  obtain ⟨out₁, rfl⟩ := sinkBegin_frame h1
  obtain ⟨o₂, out₂, rfl⟩ := drainCtxs_frame hnodup h2
  obtain ⟨o₃, out₃, rfl⟩ := flush_frame h3
  obtain ⟨out₄, rfl⟩ := sinkEnd_frame h4
  exact ⟨o₃, out₄, rfl⟩

/-! ## What each function can do -/

theorem whenEnabled_ok {pass : Except Fault (Tracer × Int32)} (h : whenEnabled t pass = .ok t') :
    (t.enabled = true ∧ ∃ n, pass = .ok (t', n)) ∨ (t.enabled = false ∧ t' = t) := by
  unfold whenEnabled at h
  split_ifs at h with hen
  · obtain ⟨⟨t₁, n⟩, h1, rfl⟩ := map_ok h
    exact Or.inl ⟨hen, n, h1⟩
  · exact Or.inr ⟨by simpa using hen, (Except.ok.inj h).symm⟩

theorem spanEnd_cases {tid : ThreadId} {s : OtelSpan} {now : UInt64}
    (h : otelSpanEnd t tid s now = .ok t') :
    (otelSpanRecording s = false ∧ t' = t) ∨
    (otelSpanRecording s = true ∧ t.tls tid = none ∧
      t' = { t with ended := t.ended + 1, droppedSpans := t.droppedSpans + 1 }) ∨
    (otelSpanRecording s = true ∧ ∃ a c, t.tls tid = some a ∧ t.ctxs a = some c ∧ t' = { t with
      ended := t.ended + 1
      ctxs := Function.update t.ctxs a (some (ringPut c (stampEnd s now)).1)
      droppedSpans := if (ringPut c (stampEnd s now)).2 then t.droppedSpans + 1
        else t.droppedSpans }) := by
  unfold otelSpanEnd at h
  cases hrec : otelSpanRecording s with
  | false =>
    left
    rw [hrec] at h
    exact ⟨rfl, (Except.ok.inj h).symm⟩
  | true =>
    right
    rw [hrec] at h
    replace h : otelSpanEnd_ { t with ended := t.ended + 1 } tid s now = .ok t' := h
    unfold otelSpanEnd_ at h
    cases htls : t.tls tid with
    | none =>
      left
      simp only [htls] at h
      exact ⟨rfl, rfl, (Except.ok.inj h).symm⟩
    | some a =>
      right
      simp only [htls] at h
      obtain ⟨c, h1, h2⟩ := bind_ok h
      have hc : t.ctxs a = some c := deref_ok h1
      obtain rfl := Except.ok.inj h2
      refine ⟨rfl, a, c, rfl, hc, ?_⟩
      cases (ringPut c (stampEnd s now)).2 with
      | false => rfl
      | true => rfl

theorem start_cases {tid : ThreadId} {call : StartCall} {s : OtelSpan} {name : Option Bytes}
    {kind : UInt32} {now : UInt64} {r : Tracer × OtelSpan}
    (h : otelStart t tid call s name kind now = .ok r) :
    r.1 = t ∨ ∃ a c rand, t.ctxs a = some c ∧ r.1 = t.setCtx a { c with randstate := rand } := by
  unfold otelStart at h
  cases htls : t.tls tid with
  | none =>
    left
    simp only [htls, Except.ok.injEq] at h
    rw [← h]
  | some a =>
    simp only [htls] at h
    split_ifs at h
    · right
      obtain ⟨c, h1, h2⟩ := bind_ok h
      obtain rfl := Except.ok.inj h2
      exact ⟨a, c, _, deref_ok h1, rfl⟩
    · left
      obtain rfl := Except.ok.inj h
      rfl

theorem unregister_cases {tid : ThreadId} (h : otelThreadUnregister pack t tid = .ok t') :
    (t.tls tid = none ∧ t' = t) ∨
    ∃ a t₁ threads c, t.tls tid = some a ∧ whenEnabled t (drainPass pack t [a]) = .ok t₁ ∧
      unlink t₁ a t₁.threads = .ok threads ∧ t₁.ctxs a = some c ∧ t' = { t₁ with
        threads := threads
        ctxs := Function.update t₁.ctxs a none
        tls := Function.update t₁.tls tid none } := by
  unfold otelThreadUnregister at h
  cases htls : t.tls tid with
  | none =>
    left
    simp only [htls, Except.ok.injEq] at h
    exact ⟨rfl, h.symm⟩
  | some a =>
    right
    simp only [htls] at h
    obtain ⟨t₁, h1, h⟩ := bind_ok h
    obtain ⟨threads, h2, h⟩ := bind_ok h
    obtain ⟨t₂, h3, h⟩ := bind_ok h
    obtain ⟨c, h4, h3⟩ := bind_ok h3
    obtain rfl := Except.ok.inj h3
    obtain rfl := Except.ok.inj h
    exact ⟨a, t₁, threads, c, rfl, h1, h2, deref_ok h4, rfl⟩

theorem freeAll_frame {as : List CtxAddr} (h : as.foldlM Tracer.free t = .ok t') :
    t' = { t with ctxs := fun a => if a ∈ as then none else t.ctxs a } := by
  induction as generalizing t with
  | nil =>
    obtain rfl := Except.ok.inj h
    simp
  | cons a as ih =>
    rw [List.foldlM_cons] at h
    obtain ⟨t₁, h1, h2⟩ := bind_ok h
    obtain ⟨c, -, h1⟩ := bind_ok h1
    obtain rfl := Except.ok.inj h1
    obtain rfl := ih h2
    congr 1
    funext b
    by_cases hb : b = a
    · simp [hb]
    · simp [hb]

/-- Shutting down an initialized tracer drains it if it is enabled, and frees its contexts. -/
theorem shutdown_cases (h : otelShutdown pack t = .ok t') :
    (t.initialized = false ∧ t' = t) ∨
    (t.initialized = true ∧ ∃ t₁, whenEnabled t (otelDrain pack t) = .ok t₁ ∧ t' = { t₁ with
      threads := []
      otlp := { t₁.otlp with buf := false }
      initialized := false
      enabled := false
      ctxs := fun a => if a ∈ t₁.threads then none else t₁.ctxs a }) := by
  unfold otelShutdown at h
  cases hinit : t.initialized with
  | false =>
    left
    simp only [hinit, Bool.not_false, if_true, Except.ok.injEq] at h
    exact ⟨rfl, h.symm⟩
  | true =>
    right
    simp only [hinit, Bool.not_true, Bool.false_eq_true, if_false] at h
    obtain ⟨t₁, h1, h⟩ := bind_ok h
    obtain ⟨t₂, h2, h⟩ := bind_ok h
    obtain rfl := freeAll_frame h2
    obtain rfl := Except.ok.inj h
    exact ⟨rfl, t₁, h1, rfl⟩

/-- Unlinking removes the context from a list of live contexts. -/
theorem unlink_eq_erase {as : List CtxAddr} (h : ∀ b ∈ as, (t.ctxs b).isSome) :
    unlink t a as = .ok (as.erase a) := by
  induction as with
  | nil => rfl
  | cons b bs ih =>
    obtain ⟨c, hc⟩ := Option.isSome_iff_exists.mp (h b (by simp))
    have hbs := ih fun b' hb' => h b' (List.mem_cons_of_mem _ hb')
    unfold unlink
    rw [deref_of_live hc, List.erase_cons]
    by_cases hb : b = a
    · simp [hb, Pure.pure, Except.pure, Bind.bind, Except.bind]
    · simp [hb, hbs, Pure.pure, Except.pure, Bind.bind, Except.bind]

/-- Initializing an initialized tracer does nothing; else the new tracer has no contexts. -/
theorem otelInit_of_not (h : t.initialized = false) (service hostname : Option Bytes) (buf : Bool) :
    (otelInit t service hostname buf).1 = { t with
      transport := false, sink := none, sinkPresent := false, sampleAlways := true
      sampleThreshold := ~~~0, transportPresent := false, runtimeOn := true, threads := []
      otlp := otlpInit (name128 (service.getD (ascii "unknown")))
        (name128 (hostname.getD (ascii "unknown"))) buf
      droppedSpans := 0, enabled := false, initialized := true } := by
  rw [otelInit, if_neg (by simp [h])]

theorem otelInit_of_initialized (h : t.initialized = true) (service hostname : Option Bytes)
    (buf : Bool) : (otelInit t service hostname buf).1 = t := by
  rw [otelInit, if_pos h]

theorem setRingCapacity_frame {spans : UInt32} (h : otelSetRingCapacity t spans = .ok t') :
    ∃ cap, roundCapacity spans = some cap ∧ t' = { t with ringCapacity := cap } := by
  unfold otelSetRingCapacity at h
  cases hcap : roundCapacity spans with
  | none => simp [hcap] at h
  | some cap =>
    simp only [hcap, Except.ok.injEq] at h
    exact ⟨cap, rfl, h.symm⟩

theorem register_of_none {tid : ThreadId} (h : t.tls tid = none) (a : CtxAddr)
    (seed : OtelRandomState) (now : UInt64) : otelThreadRegister t tid a seed now = { t with
      threads := a :: t.threads
      ctxs := Function.update t.ctxs a (some (newCtx t.ringCapacity a seed now))
      tls := Function.update t.tls tid (some a) } := by
  rw [otelThreadRegister, if_neg (by simp [h])]
  rfl

theorem register_of_some {tid : ThreadId} (h : (t.tls tid).isSome) (a : CtxAddr)
    (seed : OtelRandomState) (now : UInt64) : otelThreadRegister t tid a seed now = t := by
  rw [otelThreadRegister, if_pos h]

end OtelTracing
