import OtelTracing.Threads
import OtelTracing.Export

/-!
# Exporting spans while others are ended

The batch refers to ring slots until it is packed, which may be after the `tail` that is past these
slots was stored. The condition under which no producer stores a span in such a slot.
-/

namespace OtelTracing

/-- The span object `i` of the batch refers to the ring slot `p`. -/
def Tracer.Refers (t : Tracer) (i : Nat) (p : Slot) : Prop := (t.otlp.spans i).traceId = .traceId p

/-- The span object `i` of the batch refers to the ring of the context at `a`. -/
def Tracer.refersTo (t : Tracer) (a : CtxAddr) (i : Nat) : Bool :=
  match (t.otlp.spans i).traceId with
  | .traceId p => p.ctx = a
  | _ => false

/-- The number of the spans that were ended on the thread of the context at `a` and that no request
was packed with: those of its ring that no pass has added to the batch, and those in the batch. -/
def Shared.unpacked (m : Shared) (a : CtxAddr) : Nat :=
  (m.ledger a).staged.length - (m.ledger a).added +
    (List.range m.tracer.otlp.nSpans).countP (m.tracer.refersTo a)

/-- A producer that stores a span finds fewer spans not packed than its ring has slots. -/
def Process.KeepsBatch (σ : Process) : Act → Prop
  | .step t => ∀ a s head c, σ.pcs t = .spanEnd a s head .copy → σ.shared.tracer.ctxs a = some c →
      σ.shared.unpacked a < c.capacity.toNat
  | _ => True

/-- There is a transport, and the batch is empty. -/
structure Process.Exporting (σ : Process) : Prop where
  transport : σ.shared.tracer.transport = true
  transportPresent : σ.shared.tracer.transportPresent = true
  nSpans : σ.shared.tracer.otlp.nSpans = 0
  numAttrs : σ.shared.tracer.otlp.numAttrs = 0
  numEvents : σ.shared.tracer.otlp.numEvents = 0

/-- The action calls `otelSpanEnd`, which stages the span `s`. -/
def Act.Ends (s : OtelSpan) : Act → Prop
  | .call _ (.finish s₀ now) => otelSpanRecording s₀ = true ∧ s = stampEnd s₀ now
  | _ => False

end OtelTracing
