import OtelTracing.Rows

/-!
# Proofs: the fields of a span outside of its arena

The annotation calls leave them alone, and what is exported of a span depends on them and on what can be
read from it.
-/

namespace OtelTracing

open ByteMem

variable {s s' : OtelSpan}

/-! ## The fields outside of the arena -/

/-- The fields of a span that the annotation calls leave alone. -/
structure SpanHead where
  traceId : Vector UInt8 16
  spanId : UInt64
  parentId : UInt64
  startUnixNs : UInt64
  endUnixNs : UInt64
  kind : UInt8
  flags : UInt8

def OtelSpan.head (s : OtelSpan) : SpanHead where
  traceId := s.traceId
  spanId := s.spanId
  parentId := s.parentId
  startUnixNs := s.startUnixNs
  endUnixNs := s.endUnixNs
  kind := s.kind
  flags := s.flags

theorem recording_congr (h : s.head = s'.head) : otelSpanRecording s = otelSpanRecording s' := by
  rw [otelSpanRecording, otelSpanRecording, show s.flags = s'.flags from congrArg SpanHead.flags h]

@[simp] theorem head_set (s : OtelSpan) (p : Nat) (f : Field) (v : Nat) :
    (s.set p f v).head = s.head := rfl

@[simp] theorem head_alloc (s : OtelSpan) (n : UInt64) : (otelArenaAlloc s n).1.head = s.head := by
  simp only [otelArenaAlloc]
  split <;> rfl

@[simp] theorem head_putn (s : OtelSpan) (str : Option Bytes) (len : UInt64) :
    (otelArenaPutn s str len).1.head = s.head := by
  cases str with
  | none => rfl
  | some bytes =>
    simp only [otelArenaPutn]
    split
    · exact head_alloc s (len + 1)
    · exact head_alloc s (len + 1)

@[simp] theorem head_put (s : OtelSpan) (str : Option Bytes) :
    (otelArenaPut s str).1.head = s.head := by
  cases str with
  | none => rfl
  | some bytes => exact head_putn s _ _

theorem head_setAttrValue (s : OtelSpan) (a : Nat) (arg : AttrArg) :
    (setAttrValue s a arg).head = s.head := by
  cases arg <;> simp [setAttrValue]

theorem head_initAttr (s : OtelSpan) (a koff : Nat) : (initAttr s a koff).head = s.head := by
  simp [initAttr]

theorem head_initEvent (s : OtelSpan) (e noff : Nat) (now : UInt64) :
    (initEvent s e noff now).head = s.head := by
  simp [initEvent]

theorem head_spanAttr_ (s : OtelSpan) (key : Option Bytes) :
    (otelSpanAttr_ s key).1.head = s.head := by
  have hput : (otelArenaAlloc (otelArenaPut s key).1 (UInt64.ofNat sizeofOtelAttr)).1.head =
      s.head := by simp
  simp only [otelSpanAttr_]
  generalize otelArenaAlloc (otelArenaPut s key).1 (UInt64.ofNat sizeofOtelAttr) = r at hput ⊢
  have hinit := (head_initAttr r.1 r.2 (otelArenaPut s key).2).trans hput
  generalize initAttr r.1 r.2 (otelArenaPut s key).2 = s₁ at hinit ⊢
  split_ifs
  · rfl
  · exact hput
  · exact hput
  · exact hinit
  · exact hinit

theorem head_spanAttr (s : OtelSpan) (key : Option Bytes) (arg : AttrArg) :
    (otelSpanAttr s key arg).head = s.head := by
  have h := head_spanAttr_ s key
  unfold otelSpanAttr
  split
  · simp_all
  · rw [head_setAttrValue]
    simp_all

theorem head_event (s : OtelSpan) (name : Option Bytes) (now : UInt64) :
    (otelSpanEvent s name now).1.head = s.head := by
  have hput : (otelArenaAlloc (otelArenaPut s name).1 (UInt64.ofNat sizeofOtelEvent)).1.head =
      s.head := by simp
  simp only [otelSpanEvent, otelSpanEvent_]
  generalize otelArenaAlloc (otelArenaPut s name).1 (UInt64.ofNat sizeofOtelEvent) = r at hput ⊢
  have hinit := (head_initEvent r.1 r.2 (otelArenaPut s name).2 now).trans hput
  generalize initEvent r.1 r.2 (otelArenaPut s name).2 now = s₁ at hinit ⊢
  split_ifs
  · rfl
  · exact hput
  · exact hput
  · exact hinit
  · exact hinit

theorem head_eventAttr_ (s : OtelSpan) (e : Option Nat) (key : Option Bytes) :
    (otelEventAttr_ s e key).1.head = s.head := by
  cases e with
  | none => rfl
  | some e =>
    have hput : (otelArenaAlloc (otelArenaPut s key).1 (UInt64.ofNat sizeofOtelAttr)).1.head =
        s.head := by simp
    simp only [otelEventAttr_]
    generalize otelArenaAlloc (otelArenaPut s key).1 (UInt64.ofNat sizeofOtelAttr) = r at hput ⊢
    have hinit := (head_initAttr r.1 r.2 (otelArenaPut s key).2).trans hput
    generalize initAttr r.1 r.2 (otelArenaPut s key).2 = s₁ at hinit ⊢
    split_ifs
    · exact hput
    · exact hput
    · rw [head_set, head_set, head_set]
      exact hinit
    · rw [head_set, head_set, head_set]
      exact hinit

theorem head_eventAttr (s : OtelSpan) (e : Option Nat) (key : Option Bytes) (arg : AttrArg) :
    (otelEventAttr s e key arg).head = s.head := by
  have h := head_eventAttr_ s e key
  unfold otelEventAttr
  split
  · simp_all
  · rw [head_setAttrValue]
    simp_all

theorem head_setName (s : OtelSpan) (name : Option Bytes) :
    (otelSpanSetName s name).head = s.head := by
  simp only [otelSpanSetName]
  split_ifs
  · rfl
  · exact head_put s name
  · exact head_put s name

theorem head_setStatus (s : OtelSpan) (status : UInt32) (message : Option Bytes) :
    (otelSpanSetStatus s status message).head = s.head := by
  simp only [otelSpanSetStatus]
  split_ifs
  · rfl
  · exact head_put { s with status := status.toUInt8 } message

theorem head_init (s : OtelSpan) (name : Option Bytes) (kind : UInt8) (now : UInt64) :
    (otelSpanInit s name kind now).head =
      { s.head with
        startUnixNs := now, endUnixNs := 0, kind := kind, flags := otelFlagRecording } :=
  head_put _ name

/-- What a call does to the fields outside of the arena. -/
def Call.stamp (h : SpanHead) : Call → SpanHead
  | .finish now => { h with endUnixNs := now }
  | _ => h

theorem head_call (σ : Session) (c : Call) : (σ.call c).span.head = c.stamp σ.span.head := by
  cases c with
  | setName name => exact head_setName σ.span name
  | setStatus status message => exact head_setStatus σ.span status message
  | attr key arg => exact head_spanAttr σ.span key arg
  | event name now => exact head_event σ.span name now
  | eventAttr handle key arg => exact head_eventAttr σ.span σ.handles[handle]? key arg
  | finish now => rfl

theorem head_calls (σ : Session) (cs : List Call) :
    (σ.calls cs).span.head = cs.foldl Call.stamp σ.span.head := by
  induction cs generalizing σ with
  | nil => rfl
  | cons c cs ih =>
    show ((σ.call c).calls cs).span.head = _
    rw [ih, head_call, List.foldl_cons]

theorem flags_calls (σ : Session) (cs : List Call) : (σ.calls cs).span.flags = σ.span.flags := by
  have hfold : ∀ h : SpanHead, (cs.foldl Call.stamp h).flags = h.flags := by
    induction cs with
    | nil => exact fun _ => rfl
    | cons c cs ih =>
      intro h
      rw [List.foldl_cons, ih]
      cases c <;> rfl
  have := congrArg SpanHead.flags (head_calls σ cs)
  exact this.trans (hfold _)

/-! ## Exporting -/

theorem spanProto_congr (h : s.head = s'.head) (v : SpanView) : spanProto s v = spanProto s' v := by
  simp only [OtelSpan.head, SpanHead.mk.injEq] at h
  obtain ⟨h1, h2, h3, h4, h5, h6, -⟩ := h
  simp only [spanProto, h1, h2, h3, h4, h5, h6]

theorem putSpan_congr (h : s.head = s'.head) (service : Bytes) (v : SpanView) (st : OtelSqlite) :
    putSpan service s v st = putSpan service s' v st := by
  have hrow : SpanView.row service s v = SpanView.row service s' v := by
    funext id origin
    simp only [OtelSpan.head, SpanHead.mk.injEq] at h
    obtain ⟨h1, h2, h3, h4, h5, h6, -⟩ := h
    simp only [SpanView.row, h1, h2, h3, h4, h5, h6]
  simp only [putSpan, hrow]

end OtelTracing
