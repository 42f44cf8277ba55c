import OtelTracing.Tracer
import OtelTracing.Proofs.AgreeProofs

/-!
# Proofs: no residue from reused span memory

The start functions overwrite every field of a span but the arena, and the calls after them read only
what has been written since: what is exported is the same on any memory (`no_residue`).
-/

namespace OtelTracing

open ByteMem

variable {s s' : OtelSpan}

/-! ## Starting -/

/-- A start function either starts the span on any memory, with the same fields, or on none. -/
theorem start_residue (c : StartCall) (env : StartEnv) (tls : Option OtelRandomState)
    (s s' : OtelSpan) (name : Option Bytes) (kind : UInt32) :
    (c.run env tls s name kind).1 = (c.run env tls s' name kind).1 ∧
    (((c.run env tls s name kind).2 = notRecording s ∧
        (c.run env tls s' name kind).2 = notRecording s') ∨
      (c.run env tls s name kind).2.head = (c.run env tls s' name kind).2.head) := by
  cases c with
  | root =>
    simp only [StartCall.run, otelSpanStart]
    split_ifs
    · exact ⟨rfl, Or.inl ⟨rfl, rfl⟩⟩
    · cases tls with
      | none => exact ⟨rfl, Or.inl ⟨rfl, rfl⟩⟩
      | some st =>
        simp only [otelSpanStartRoot_]
        split_ifs
        · exact ⟨rfl, Or.inl ⟨rfl, rfl⟩⟩
        · exact ⟨rfl, Or.inr (by rw [head_init, head_init]; rfl)⟩
        · exact ⟨rfl, Or.inl ⟨rfl, rfl⟩⟩
        · exact ⟨rfl, Or.inr (by rw [head_init, head_init]; rfl)⟩
  | child parent =>
    simp only [StartCall.run, otelSpanStartChild]
    cases parent with
    | none => exact ⟨rfl, Or.inl ⟨rfl, rfl⟩⟩
    | some parent =>
      simp only
      split_ifs
      · exact ⟨rfl, Or.inl ⟨rfl, rfl⟩⟩
      · cases tls with
        | none => exact ⟨rfl, Or.inl ⟨rfl, rfl⟩⟩
        | some st => exact ⟨rfl, Or.inr (by
            simp only [otelSpanStartChild_]
            rw [head_init, head_init]
            rfl)⟩
  | remote traceId parentId sampled =>
    simp only [StartCall.run, otelSpanStartRemote]
    split_ifs
    · exact ⟨rfl, Or.inl ⟨rfl, rfl⟩⟩
    · cases tls with
      | none => exact ⟨rfl, Or.inl ⟨rfl, rfl⟩⟩
      | some st => exact ⟨rfl, Or.inr (by
          simp only [otelSpanStartRemote_]
          rw [head_init, head_init]
          rfl)⟩

/-! ## What is exported -/

/-- Whatever the memory of a span held before it was started, the same start, annotation and end
calls draw the same random numbers and export the same: nothing if the span is not recording, and
otherwise the same message and the same rows, also if some of the statements fail. -/
theorem no_residue (service : Bytes) (c : StartCall) (env : StartEnv)
    (tls : Option OtelRandomState) (s₀ s₀' : OtelSpan) (name : Option Bytes) (kind : UInt32)
    (cs : List Call) (now : UInt64) (hname : ShortStr name) (hcs : ∀ c ∈ cs, c.Short) :
    let s := (Session.calls ⟨(c.run env tls s₀ name kind).2, []⟩ cs).span
    let s' := (Session.calls ⟨(c.run env tls s₀' name kind).2, []⟩ cs).span
    (c.run env tls s₀ name kind).1 = (c.run env tls s₀' name kind).1 ∧
    otelSpanRecording s = otelSpanRecording s' ∧
    (otelSpanRecording s = false → ∀ t tid,
      otelSpanEnd t tid s now = .ok t ∧ otelSpanEnd t tid s' now = .ok t) ∧
    (otelSpanRecording s = true →
      (∃ m, Encodes (stampEnd s now) m ∧ Encodes (stampEnd s' now) m) ∧
      ∀ st, otelSqliteSpan service st (stampEnd s now) =
        otelSqliteSpan service st (stampEnd s' now)) := by
  intro s s'
  obtain ⟨hdraws, hstart⟩ := start_residue c env tls s₀ s₀' name kind
  -- the flags are those of the start
  have hflags : otelSpanRecording s = otelSpanRecording (c.run env tls s₀ name kind).2 := by
    rw [otelSpanRecording, otelSpanRecording, flags_calls]
  have hflags' : otelSpanRecording s' = otelSpanRecording (c.run env tls s₀' name kind).2 := by
    rw [otelSpanRecording, otelSpanRecording, flags_calls]
  have hsame : otelSpanRecording s = otelSpanRecording s' := by
    rw [hflags, hflags']
    rcases hstart with ⟨h1, h2⟩ | hhead
    · rw [h1, h2, notRecording_not_recording, notRecording_not_recording]
    · exact recording_congr hhead
  refine ⟨hdraws, hsame, ?_, ?_⟩
  · intro hno t tid
    have hno' : otelSpanRecording s' = false := hsame ▸ hno
    exact ⟨by simp [otelSpanEnd, hno], by simp [otelSpanEnd, hno']⟩
  · intro hrec
    have hrec₀ := hflags.symm.trans hrec
    have hrec₀' := hflags'.symm.trans (hsame.symm.trans hrec)
    obtain ⟨L, hL, hview⟩ := session_spec hrec₀ hname hcs
    obtain ⟨L', hL', hview'⟩ := session_spec hrec₀' hname hcs
    have hrepr : Represents (stampEnd s now) L := { hL.repr with }
    have hrepr' : Represents (stampEnd s' now) L' := { hL'.repr with }
    have hviews : L.view (stampEnd s now) = L'.view (stampEnd s' now) :=
      hview.trans hview'.symm
    have hhead : (stampEnd s now).head = (stampEnd s' now).head := by
      have hstarted : (c.run env tls s₀ name kind).2.head =
          (c.run env tls s₀' name kind).2.head := by
        rcases hstart with ⟨h1, -⟩ | hhead
        · rw [h1, notRecording_not_recording] at hrec₀
          cases hrec₀
        · exact hhead
      have hcalls : s.head = s'.head := by
        rw [head_calls, head_calls, hstarted]
      exact congrArg (fun h : SpanHead => { h with endUnixNs := now }) hcalls
    refine ⟨⟨_, hrepr.encodes, ?_⟩, fun st => ?_⟩
    · rw [hviews, spanProto_congr hhead]
      exact hrepr'.encodes
    · rw [otelSqliteSpan_eq hrepr, otelSqliteSpan_eq hrepr', hviews, putSpan_congr hhead]

/-- Cleared memory, and memory that holds a span with records in a full arena. -/
theorem no_residue_sample :
    let start (s₀ : OtelSpan) := (StartCall.root.run ⟨true, true, 0, 7⟩ (some ⟨1, 0⟩) s₀
      (some [104, 105]) 1).2
    let annotate (s₀ : OtelSpan) := (Session.calls ⟨start s₀, []⟩
      [.attr (some [107]) (.bool 1), .event none 8]).span
    ∃ m, Encodes (stampEnd (annotate zeroSpan) 9) m ∧
      Encodes (stampEnd (annotate { zeroSpan with
        flags := 3, attrHead := 8, eventHead := 16, arenaUsed := 4024, arena := fun _ => 0xff }) 9)
        m :=
  ((no_residue [] .root ⟨true, true, 0, 7⟩ (some ⟨1, 0⟩) zeroSpan _ (some [104, 105]) 1
    [.attr (some [107]) (.bool 1), .event none 8] 9 (by simp [ShortStr])
    (by simp [Call.Short, AttrArg.Short, ShortStr])).2.2.2
    ((congrArg (fun flags => decide (flags &&& otelFlagRecording ≠ 0)) (flags_calls _ _)).trans
      (recording_of_flags rfl))).1

end OtelTracing
