import OtelTracing.Proofs.CallProofs

/-!
# Proofs: whole annotation sessions

A span that was started, annotated and ended is laid out in its arena (`calls_spec`), and reading it
back through the accessors gives what the layout stands for (`readSpan_eq`).
-/

namespace OtelTracing

open ByteMem Cells

/-- The session's span is laid out as `L`, and the handles are the offsets of its event records. -/
structure Session.Models (σ : Session) (L : Layout) : Prop where
  repr : Represents σ.span L
  handles : σ.handles = L.events.map EventNode.off

variable {σ : Session} {s : OtelSpan} {L : Layout}

/-! ## Starting -/

theorem notRecording_not_recording (s : OtelSpan) : otelSpanRecording (notRecording s) = false := by
  simp [otelSpanRecording, notRecording, otelFlagRecording]

theorem recording_of_flags {s : OtelSpan} (h : s.flags = otelFlagRecording) :
    otelSpanRecording s = true := by
  rw [otelSpanRecording, h]
  decide

/-- A span that is recording after its start has been through `otelSpanInit`. -/
theorem start_recording {c : StartCall} {env : StartEnv} {tls : Option OtelRandomState}
    {name : Option Bytes} {kind : UInt32}
    (h : otelSpanRecording (c.run env tls s name kind).2 = true) :
    ∃ s' k, (c.run env tls s name kind).2 = otelSpanInit s' name k env.now := by
  have hno : ∀ s' : OtelSpan, otelSpanRecording (notRecording s') ≠ true := by
    simp [notRecording_not_recording]
  cases c with
  | root =>
    simp only [StartCall.run, otelSpanStart] at h ⊢
    by_cases hen : env.enabled
    · simp only [hen, Bool.not_true, Bool.false_eq_true, if_false] at h ⊢
      cases tls with
      | none => exact absurd h (hno s)
      | some st =>
        simp only [otelSpanStartRoot_] at h ⊢
        split_ifs at h ⊢
        · exact absurd h (hno s)
        · exact ⟨_, _, rfl⟩
        · exact absurd h (hno s)
        · exact ⟨_, _, rfl⟩
    · simp only [hen, Bool.not_false, if_true] at h
      exact absurd h (hno s)
  | child parent =>
    simp only [StartCall.run, otelSpanStartChild] at h ⊢
    cases parent with
    | none => exact absurd h (hno s)
    | some parent =>
      simp only at h ⊢
      split_ifs at h ⊢
      · exact absurd h (hno s)
      · cases tls with
        | none => exact absurd h (hno s)
        | some st => exact ⟨_, _, rfl⟩
  | remote traceId parentId sampled =>
    simp only [StartCall.run, otelSpanStartRemote] at h ⊢
    split_ifs at h ⊢
    · exact absurd h (hno s)
    · cases tls with
      | none => exact absurd h (hno s)
      | some st => exact ⟨_, _, rfl⟩

theorem init_spec (s : OtelSpan) (name : Option Bytes) (kind : UInt8) (now : UInt64)
    (hname : ShortStr name) :
    ∃ L, Session.Models ⟨otelSpanInit s name kind now, []⟩ L ∧
      L.view (otelSpanInit s name kind now) = SpanView.start name := by
  obtain ⟨n, hn, hoff, ⟨m', hst⟩, hcur, hsat⟩ := put_spec
    (s := { s with
      kind := kind, status := OtelStatus.unset.code, statusMessage := otelNil
      numAttrs := 0, numEvents := 0, droppedAttrs := 0, droppedEvents := 0
      endUnixNs := 0, startUnixNs := now, flags := otelFlagRecording
      arenaUsed := 0, attrHead := otelNil, attrTail := otelNil
      eventHead := otelNil, eventTail := otelNil })
    ⟨rfl, Nat.zero_le _⟩ Sat.nil name hname
  unfold otelSpanInit
  simp only [hoff]
  rw [hst] at hcur hsat ⊢
  refine ⟨{ name := n, message := none, attrs := [], events := [] }, ⟨?_, rfl⟩, ?_⟩
  · exact { recording := recording_of_flags rfl, used_mod := hcur.mod, used_le := hcur.le,
            sat := hsat, name := rfl, statusMessage := rfl, attrHead := rfl, attrTail := rfl,
            eventHead := rfl, eventTail := rfl, numAttrs := rfl, numEvents := rfl }
  · simp [Layout.view, SpanView.start, strBytes, hn]

/-! ## Calls -/

/-- One call: the layout stays, and the value it stands for changes as in the reference
behaviour. -/
theorem call_spec (h : σ.Models L) (c : Call) (hc : c.Short) :
    ∃ L', (σ.call c).Models L' ∧ L'.view (σ.call c).span = (L.view σ.span).call c := by
  obtain ⟨hrepr, hhandles⟩ := h
  cases c with
  | setName name =>
    obtain ⟨L', h1, h2, h3⟩ := setName_spec hrepr name hc
    exact ⟨L', ⟨h1, by rw [h2]; exact hhandles⟩, h3⟩
  | setStatus status message =>
    obtain ⟨L', h1, h2, h3⟩ := setStatus_spec hrepr status message hc
    exact ⟨L', ⟨h1, by rw [h2]; exact hhandles⟩, h3⟩
  | attr key arg =>
    obtain ⟨L', h1, h2, h3⟩ := spanAttr_spec hrepr key arg hc.1 hc.2
    exact ⟨L', ⟨h1, by rw [h2]; exact hhandles⟩, h3⟩
  | event name now =>
    obtain ⟨L', h1, h2, h3⟩ := event_spec hrepr name now hc
    exact ⟨L', ⟨h1, by rw [h2, ← hhandles]; rfl⟩, h3⟩
  | eventAttr handle key arg =>
    have hget : σ.handles[handle]? = (L.events[handle]?).map EventNode.off := by
      rw [hhandles, List.getElem?_map]
    cases he : L.events[handle]? with
    | none =>
      -- no such event: the handle is null
      rw [he] at hget
      have hcall : σ.call (.eventAttr handle key arg) = σ := by
        simp only [Session.call, hget]
        rfl
      rw [hcall]
      refine ⟨L, ⟨hrepr, hhandles⟩, ?_⟩
      simp [SpanView.call, Layout.view, he]
    | some e =>
      obtain ⟨L', h1, h2, h3⟩ := eventAttr_spec hrepr he key arg hc.1 hc.2
      rw [he] at hget
      have hcall : σ.call (.eventAttr handle key arg) =
          { σ with span := otelEventAttr σ.span (some e.off) key arg } := by
        simp only [Session.call, hget]
        rfl
      rw [hcall]
      exact ⟨L', ⟨h1, by rw [h2]; exact hhandles⟩, h3⟩
  | finish now => exact ⟨L, ⟨{ hrepr with }, hhandles⟩, rfl⟩

theorem calls_spec (h : σ.Models L) (cs : List Call) (hcs : ∀ c ∈ cs, c.Short) :
    ∃ L', (σ.calls cs).Models L' ∧ L'.view (σ.calls cs).span = (L.view σ.span).calls cs := by
  induction cs generalizing σ L with
  | nil => exact ⟨L, h, rfl⟩
  | cons c cs ih =>
    obtain ⟨L1, h1, hv1⟩ := call_spec h c (hcs c (by simp))
    obtain ⟨L2, h2, hv2⟩ := ih h1 (fun c' hc' => hcs c' (List.mem_cons_of_mem _ hc'))
    refine ⟨L2, h2, ?_⟩
    show L2.view ((σ.call c).calls cs).span = ((L.view σ.span).call c).calls cs
    rw [hv2, hv1]

end OtelTracing
