import OtelTracing.Delivery
import Mathlib.Order.Bounds.Basic

/-!
# Ring capacities

What `otel_set_ring_capacity` is to set for a requested number of spans, and what a context has from
it that is registered afterwards.
-/

namespace OtelTracing

open ByteMem

/-- The least power of two for the request, or the largest that a capacity can be. -/
def RightCapacity (spans cap : UInt32) : Prop :=
  if max spans.toNat 2 ≤ 2 ^ 31 then
    IsLeast {n | (∃ k, n = 2 ^ k) ∧ max spans.toNat 2 ≤ n} cap.toNat
  else
    cap.toNat = 2 ^ 31

/-- The ring has room for the request, and is indexed by masking. -/
structure OtelThreadCtx.Serves (c : OtelThreadCtx) (spans : UInt32) : Prop where
  power : PowerOfTwo c.capacity
  mask : c.mask = c.capacity - 1
  slots : ∀ i, (∃ cursor, c.slot cursor = i) ↔ i < c.capacity.toNat
  requested : min spans.toNat (2 ^ 31) ≤ c.capacity.toNat
  /-- `otel_span_end_` finds the ring full only if the whole capacity is staged. -/
  full : c.head - c.tail ≥ c.capacity.toUInt64 ↔ c.staged.length = c.capacity.toNat

def Act.setsCapacity : Act → Bool
  | .call _ (.setRingCapacity _) => true
  | _ => false

section
variable (pack : Proto.ExportTraceServiceRequest → Bytes)

/-- Thread `t` asks for rings of `spans` spans: the loop ends, the capacity is the right one, and so
are the contexts that are registered while it is set. -/
def CapacityServes (σ : Process) (t : ThreadId) (spans : UInt32) : Prop :=
  (∃ fuel, (capacityLoop (if spans < 2 then 2 else spans) fuel 1).isSome) ∧
  ∃ σ₁, processStep pack σ (.call t (.setRingCapacity spans)) = .ok σ₁ ∧
    RightCapacity spans σ₁.shared.tracer.ringCapacity ∧
    ∀ acts acts' σ₂ σ₃ u a seed now, (processMachine pack).Run σ₁ acts σ₂ →
      σ₂.shared.tracer.tls u = none →
      (processMachine pack).Run σ₂ (.call u (.register a seed now) :: acts') σ₃ →
      (∀ x ∈ acts ++ acts', x.setsCapacity = false) →
      ∀ c, σ₃.shared.tracer.ctxs a = some c → c.Serves spans

end

end OtelTracing
