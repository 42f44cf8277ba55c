import OtelTracing.Forest
import OtelTracing.Random
import OtelTracing.Sqlite

/-!
# The ids of the spans

Zero stands for "no parent" and for "no trace", and the ids are drawn from a generator whose high word
may be zero. Here it is said what valid ids are, and which states of the generator a span must be
started in.
-/

namespace OtelTracing

open ByteMem

def zeroTraceId : Vector UInt8 16 := Vector.replicate 16 0

/-- The span is exported as a child: its message has a parent id, and so has its row. -/
def ExportsParent (s : OtelSpan) : Prop :=
  (∀ (P : Type) (mem : P → OtelSpan) (p : P) (as na es ne : Nat), mem p = s →
    ((otlpSpan s p as na es ne).parentSpanId.bytes mem).length = 8) ∧
  ∀ service id origin, (spanRow service s id origin).parentId ≠ none

/-- A root is a span without a parent object that no remote parent was given for. -/
def Node.isRoot (n : Node) : Prop := n.parent = none ∧ n.span.parentId = 0

structure Node.ValidIds (n : Node) : Prop where
  spanId : n.span.spanId ≠ 0
  traceId : n.isRoot → n.span.traceId ≠ zeroTraceId
  parent : n.parent.isSome → ExportsParent n.span

/-- The spans that are recording have valid ids. -/
def Forest.ValidIds (w : Forest) : Prop :=
  ∀ o n, w.nodes o = some n → n.recording = true → n.ValidIds

/-- Remote contexts supply ids that are not zero. -/
def ForestOp.Supplied : ForestOp → Prop
  | .start _ _ (.remote traceId parentId _) _ _ _ _ => traceId ≠ zeroTraceId ∧ parentId ≠ 0
  | _ => True

/-- From the state with the number `x`, the `k`-th draw is not zero. -/
def NonzeroDraw (x k : Nat) : Prop := 2 ^ 64 ≤ x * otelRandomMultiplier ^ k % 2 ^ 128

/-- The call starts a recording span, if the generator is in the state with the number `x`. -/
def StartCall.Records (t : Tracer) (x : Nat) : StartCall → Prop
  | .root => t.enabled = true ∧ (t.sampleAlways = true ∨
      x * otelRandomMultiplier % 2 ^ 128 / 2 ^ 64 < t.sampleThreshold.toNat)
  | .child parent => parent.any otelSpanRecording = true
  | .remote _ _ sampled => t.enabled = true ∧ sampled ≠ 0

/-- The ids that the call draws are not zero. A root may have drawn for the decision before. -/
def StartCall.DrawsIds (t : Tracer) (x : Nat) : StartCall → Prop
  | .root =>
    let k := if t.sampleAlways then 0 else 1
    NonzeroDraw x (k + 3) ∧ (NonzeroDraw x (k + 1) ∨ NonzeroDraw x (k + 2))
  | _ => NonzeroDraw x 1

/-- If the step starts a recording span, the generator of the thread draws valid ids. -/
def ForestOp.DrawsIds (w : Forest) : ForestOp → Prop
  | .start tid _ how _ _ _ _ => ∀ a c, w.tracer.tls tid = some a → w.tracer.ctxs a = some c →
      (w.startCall how).Records w.tracer c.randstate.toNat →
      (w.startCall how).DrawsIds w.tracer c.randstate.toNat
  | _ => True

end OtelTracing
