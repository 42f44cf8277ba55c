import OtelTracing.Start
import OtelTracing.Lib.Lehmer

/-!
# The generator of the ids

`otelRandomNext` as a generator of 128-bit numbers, the sums that its limbs go through, and what the
ids of the spans rest on: a state that is not zero may have a high word that is.
-/

namespace OtelTracing

def otelRandomMultiplier : Nat := 0xda942042e4dd58b5

/-- The state as a 128-bit number. -/
def OtelRandomState.toNat (st : OtelRandomState) : Nat := st.hi.toNat * 2 ^ 64 + st.lo.toNat

/-- The sums `t` and `w1 + a0 * b1` of `otel_random_next` over the natural numbers. -/
def otelRandomSums (st : OtelRandomState) : List Nat :=
  let multiplier : UInt64 := 0xda942042e4dd58b5
  let a0 := st.lo.toUInt32.toNat
  let a1 := (st.lo >>> 32).toNat
  let b0 := multiplier.toUInt32.toNat
  let b1 := (multiplier >>> 32).toNat
  let t := a1 * b0 + a0 * b0 / 2 ^ 32
  [t, t % 2 ^ 32 + a0 * b1]

/-- The state after `n` draws. -/
def otelRandomAfter (n : Nat) (st : OtelRandomState) : OtelRandomState :=
  (fun st => (otelRandomNext st).1)^[n] st

end OtelTracing
