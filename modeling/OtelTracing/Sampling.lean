import OtelTracing.Forest
import OtelTracing.Random
import Mathlib.Data.Rat.Floor

/-!
# The ratio sampler

The ratio of `otel_set_sampler` as a number. A finite `double` is a rational, its product with `2 ^ 64`
is exact when it is between 0 and 1, and the cast cuts the fraction off.
-/

namespace OtelTracing

/-- The arm of `otel_set_sampler` that the ratio leads to. -/
def samplerRatio (ratio : Rat) : SamplerRatio :=
  if ratio ≥ 1 then .always
  else if ratio ≤ 0 then .never
  else .between (UInt64.ofNat ⌊ratio * 2 ^ 64⌋₊)

/-- How many of `2 ^ 64` words stand for the ratio. -/
def samplerShare (ratio : Rat) : Nat := ⌊max 0 (min ratio 1) * 2 ^ 64⌋₊

/-- The generator of the context `a` is in the state `st`. -/
def Tracer.withRandstate (t : Tracer) (a : CtxAddr) (c : OtelThreadCtx) (st : OtelRandomState) :
    Tracer :=
  t.setCtx a { c with randstate := st }

/-- Whether a root span that the thread `tid` starts is recorded. -/
def recordsRoot (t : Tracer) (tid : ThreadId) (s : OtelSpan) (name : Option ByteMem.Bytes)
    (kind : UInt32) (now : UInt64) : Bool :=
  match otelStart t tid .root s name kind now with
  | .ok r => otelSpanRecording r.2
  | .error _ => false

end OtelTracing
