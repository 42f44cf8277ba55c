import OtelTracing.Proofs.PassProofs

/-!
# Proofs: the pointers that a drain pass uses

A pass over live contexts touches no freed one. If the batch has its buffer and the sink is set when
it is present, a pass uses no null pointer either.
-/

namespace OtelTracing

open ByteMem Outcome

variable {pack : Proto.ExportTraceServiceRequest → Bytes} {t t' : Tracer} {a : CtxAddr} {e : Fault}

/-- The fault is the use of a pointer that refers to nothing. -/
def Fault.Dangling (e : Fault) : Prop := e = .useAfterFree ∨ e = .nullDeref

theorem Fault.Dangling.not_bounds (he : e.Dangling) : Fault.outOfBounds ≠ e := by
  rcases he with rfl | rfl <;> decide

theorem Fault.Dangling.not_overflow (he : e.Dangling) : Fault.bufferOverflow ≠ e := by
  rcases he with rfl | rfl <;> decide

theorem Fault.Dangling.not_unterminated (he : e.Dangling) : Fault.unterminated ≠ e := by
  rcases he with rfl | rfl <;> decide

/-! ## The batch -/

section
variable {P : Type} {mem : P → OtelSpan} {o : OtelOtlp P} {p : P} {transport : Bool}

theorem assign_avoids (he : e.Dangling) {α : Type} (n : Nat) (xs : Nat → α) (i : Nat) (x : α) :
    Avoids e (assign n xs i x) := by
  unfold assign
  split_ifs
  · exact Avoids.ok _
  · exact Avoids.error he.not_bounds

theorem visited_avoids (he : e.Dangling) (walk : Option (List Nat)) : Avoids e (visited walk) := by
  cases walk with
  | none => exact Avoids.error he.not_unterminated
  | some rs => exact Avoids.ok rs

theorem addAttrs_avoids (he : e.Dangling) (as : List Nat) (o : OtelOtlp P) :
    Avoids e (as.foldlM (otlpAddAttr mem p) o) := by
  refine Avoids.foldlM (I := fun _ => True) trivial fun a _ o _ => ⟨?_, fun _ _ => trivial⟩
  exact Avoids.bind (assign_avoids he _ _ _ _) fun _ _ => Avoids.pure _

theorem fill_avoids (he : e.Dangling) : Avoids e (otlpFill mem o p) := by
  refine Avoids.bind (visited_avoids he _) fun attrs _ => ?_
  refine Avoids.bind (visited_avoids he _) fun events _ => ?_
  refine Avoids.bind (assign_avoids he _ _ _ _) fun spans _ => ?_
  refine Avoids.bind (assign_avoids he _ _ _ _) fun status _ => ?_
  refine Avoids.bind (addAttrs_avoids he _ _) fun o _ => Avoids.bind ?_ fun _ _ => Avoids.pure _
  refine Avoids.foldlM (I := fun _ => True) trivial fun e _ o _ => ⟨?_, fun _ _ => trivial⟩
  refine Avoids.bind (visited_avoids he _) fun attrs _ => ?_
  refine Avoids.bind (assign_avoids he _ _ _ _) fun event _ => ?_
  exact Avoids.bind (addAttrs_avoids he _ _) fun _ _ => Avoids.pure _

/-- A flush only writes through a null pointer if the batch has no buffer. -/
theorem otlpFlush_avoids (he : e.Dangling) (hbuf : e = .nullDeref → o.buf = true) :
    Avoids e (otlpFlush pack transport mem o) := by
  simp only [otlpFlush]
  split_ifs with hz hnot hfit
  · exact Avoids.ok _
  · refine Avoids.error ?_
    intro heq
    rw [hbuf heq.symm] at hnot
    cases hnot
  · exact Avoids.error he.not_overflow
  · exact Avoids.ok _
  · exact Avoids.ok _

theorem addSpan_avoids (he : e.Dangling) (hbuf : e = .nullDeref → o.buf = true) :
    Avoids e (otlpAddSpan pack transport mem o p) := by
  refine Avoids.bind ((visited_avoids he _).bind fun _ _ => Avoids.pure _) fun full _ => ?_
  cases full with
  | false =>
    refine Avoids.bind (Avoids.pure _) fun r _ => ?_
    exact Avoids.bind (fill_avoids he) fun _ _ => Avoids.pure _
  | true =>
    refine Avoids.bind (otlpFlush_avoids he hbuf) fun r _ => ?_
    exact Avoids.bind (fill_avoids he) fun _ _ => Avoids.pure _

end

/-! ## The pass -/

/-- The batch and the sink can be used. -/
structure Armed (t : Tracer) : Prop where
  idle : Idle t.otlp
  buf : t.otlp.buf = true
  sinkPresent : t.sinkPresent = t.sink.isSome

theorem Armed.output (h : Armed t) (out : List Output) : Armed { t with out := out } :=
  ⟨h.idle, h.buf, h.sinkPresent⟩

theorem Armed.emit (h : Armed t) {p : Slot} (hemit : otelEmitSpan pack t p = .ok t') :
    Armed t' := by
  obtain ⟨hsetup, hidle⟩ := emitSpan_setup hemit h.idle
  obtain ⟨o, out, rfl⟩ := emitSpan_frame hemit
  exact ⟨hidle, hsetup.buf.trans h.buf, h.sinkPresent⟩

theorem Armed.drainCtx (h : Armed t) {n : Int32} (hdrain : otelDrainCtx pack t a = .ok (t', n)) :
    Armed t' := by
  obtain ⟨hsetup, hidle⟩ := drainCtx_setup hdrain h.idle
  obtain ⟨c, o, out, -, -, rfl⟩ := drainCtx_frame hdrain
  exact ⟨hidle, hsetup.buf.trans h.buf, h.sinkPresent⟩

theorem deref_avoids (h : (t.ctxs a).isSome) : Avoids e (t.deref a) := by
  obtain ⟨c, hc⟩ := Option.isSome_iff_exists.mp h
  rw [deref_of_live hc]
  exact Avoids.ok c

theorem sinkHas_avoids (h : e = .nullDeref → Armed t) (callback : OtelSpanSink → Bool) :
    Avoids e (t.sinkHas callback) := by
  unfold Tracer.sinkHas
  split_ifs with hpresent
  · cases hs : t.sink with
    | none =>
      refine Avoids.error ?_
      intro heq
      have hsink := (h heq.symm).sinkPresent
      rw [hpresent, hs] at hsink
      cases hsink
    | some sink => exact Avoids.ok _
  · exact Avoids.ok _

theorem emitSpan_avoids (he : e.Dangling) (h : e = .nullDeref → Armed t) {p : Slot} :
    Avoids e (otelEmitSpan pack t p) := by
  refine Avoids.bind ?_ fun t₁ h1 => (sinkHas_avoids ?_ _).bind fun _ _ => Avoids.pure _
  · unfold emitTransport
    split_ifs
    · exact (addSpan_avoids he fun heq => (h heq).buf).bind fun _ _ => Avoids.pure _
    · exact Avoids.ok _
  · intro heq
    have harmed := h heq
    unfold emitTransport at h1
    split_ifs at h1
    · obtain ⟨r, hadd, h1⟩ := bind_ok h1
      obtain rfl := Except.ok.inj h1
      obtain ⟨hsetup, hidle⟩ := addSpan_setup hadd harmed.idle
      exact ⟨hidle, hsetup.buf.trans harmed.buf, harmed.sinkPresent⟩
    · obtain rfl := Except.ok.inj h1
      exact harmed

theorem drainCtx_avoids (he : e.Dangling) (h : e = .nullDeref → Armed t)
    (hlive : (t.ctxs a).isSome) : Avoids e (otelDrainCtx pack t a) := by
  refine (deref_avoids hlive).bind fun c _ => Avoids.bind ?_ fun t₁ hloop => ?_
  · exact Avoids.foldlM (I := fun t => e = .nullDeref → Armed t) h
      fun cursor _ t ht => ⟨emitSpan_avoids he ht, fun t' ht' heq => (ht heq).emit ht'⟩
  · obtain ⟨o, out, rfl⟩ := emitSpans_frame hloop
    exact (deref_avoids hlive).bind fun _ _ => Avoids.pure _

/-- A pass over live contexts touches no freed one, and no null pointer if it is armed. -/
theorem drainPass_avoids (he : e.Dangling) (h : e = .nullDeref → Armed t) {as : List CtxAddr}
    (hlive : ∀ a ∈ as, (t.ctxs a).isSome) : Avoids e (drainPass pack t as) := by
  refine Avoids.bind ((sinkHas_avoids h _).bind fun _ _ => Avoids.pure _) fun t₁ h1 => ?_
  obtain ⟨out, rfl⟩ := sinkBegin_frame h1
  have hbegin : e = .nullDeref → Armed { t with out := out } := fun heq => (h heq).output out
  have hturn : ∀ a (r r' : Tracer × Int32), (e = .nullDeref → Armed r.1) →
      (∀ b ∈ as, (r.1.ctxs b).isSome) →
      (otelDrainCtx pack r.1 a >>= fun r₁ => pure (r₁.1, r.2 + r₁.2)) = .ok r' →
      (e = .nullDeref → Armed r'.1) ∧ ∀ b ∈ as, (r'.1.ctxs b).isSome := by
    intro a r r' harmed hr hr'
    obtain ⟨⟨t₂, n₂⟩, h2, h3⟩ := bind_ok hr'
    obtain rfl := Except.ok.inj h3
    refine ⟨fun heq => (harmed heq).drainCtx h2, ?_⟩
    intro b hb
    obtain ⟨c, o, out, -, -, rfl⟩ := drainCtx_frame h2
    by_cases hab : b = a
    · simp [hab]
    · simpa [hab] using hr b hb
  refine Avoids.bind ?_ fun r hloop => ?_
  · refine Avoids.foldlM (I := fun r : Tracer × Int32 => (e = .nullDeref → Armed r.1) ∧
      ∀ b ∈ as, (r.1.ctxs b).isSome) ⟨hbegin, hlive⟩ ?_
    intro a ha r hr
    exact ⟨(drainCtx_avoids he hr.1 (hr.2 a ha)).bind fun _ _ => Avoids.pure _,
      fun r' hr' => hturn a r r' hr.1 hr.2 hr'⟩
  · have hr := foldlM_ok (I := fun r : Tracer × Int32 => (e = .nullDeref → Armed r.1) ∧
      ∀ b ∈ as, (r.1.ctxs b).isSome) hloop ⟨hbegin, hlive⟩
      fun a _ r r' hr hr' => hturn a r r' hr.1 hr.2 hr'
    refine Avoids.bind ((otlpFlush_avoids he fun heq => (hr.1 heq).buf).bind
      fun _ _ => Avoids.pure _) fun t₂ h2 => ?_
    refine Avoids.bind ((sinkHas_avoids ?_ _).bind fun _ _ => Avoids.pure _)
      fun _ _ => Avoids.pure _
    intro heq
    have harmed := hr.1 heq
    obtain ⟨r', hflush, h2⟩ := bind_ok h2
    obtain rfl := Except.ok.inj h2
    obtain ⟨hsetup, hz, ha, hev⟩ := flush_setup hflush harmed.idle
    exact ⟨fun _ => ⟨ha, hev⟩, hsetup.buf.trans harmed.buf, harmed.sinkPresent⟩

end OtelTracing
