import OtelTracing.Span

/-!
# Starting and ending spans

`otel_random_next`, the `otel_span_start*` functions and the part of `otel_span_end_` that touches
the span. What the functions read from the tracer is passed to them: the live flag, the sampler, the
generator of the calling thread's context (`none` for a null `otel_tls`) and the clock.
-/

namespace OtelTracing

open ByteMem

structure OtelRandomState where
  lo : UInt64
  hi : UInt64
  deriving DecidableEq

/-- The next state, whose high word is the result. The product is computed in 32-bit limbs. -/
def otelRandomNext (state : OtelRandomState) : OtelRandomState × UInt64 :=
  let multiplier : UInt64 := 0xda942042e4dd58b5
  let a0 := state.lo.toUInt32.toUInt64
  let a1 := state.lo >>> 32
  let b0 := multiplier.toUInt32.toUInt64
  let b1 := multiplier >>> 32
  let w0 := a0 * b0
  let t := a1 * b0 + (w0 >>> 32)
  let w1 := t.toUInt32.toUInt64
  let w2 := t >>> 32
  let w1 := w1 + a0 * b1
  let hi := state.hi * multiplier + a1 * b1 + w2 + (w1 >>> 32)
  ({ lo := state.lo * multiplier, hi := hi }, hi)

/-- What the start functions read from the tracer. -/
structure StartEnv where
  enabled : Bool
  sampleAlways : Bool
  sampleThreshold : UInt64
  now : UInt64

/-- The trace id whose two halves are stored as 64-bit words. -/
def traceIdOfWords (w0 w1 : UInt64) : Vector UInt8 16 :=
  ⟨(le 8 w0.toNat ++ le 8 w1.toNat).toArray, by simp⟩

/-- A span on which every later call is a no-op. -/
def notRecording (s : OtelSpan) : OtelSpan := { s with flags := 0 }

def otelSpanStartRoot_ (env : StartEnv) (tls : Option OtelRandomState) (s : OtelSpan)
    (name : Option Bytes) (kind : UInt8) : Option OtelRandomState × OtelSpan :=
  match tls with
  | none => (none, notRecording s)
  | some st =>
    -- the generator is only drawn from for the decision if `sample_always` is not set
    let draw := if env.sampleAlways then (st, (0 : UInt64)) else otelRandomNext st
    if !env.sampleAlways && draw.2 ≥ env.sampleThreshold then
      (some draw.1, notRecording s)
    else
      let r0 := otelRandomNext draw.1
      let r1 := otelRandomNext r0.1
      let r2 := otelRandomNext r1.1
      let s := { s with traceId := traceIdOfWords r0.2 r1.2, spanId := r2.2, parentId := 0 }
      (some r2.1, otelSpanInit s name kind env.now)

def otelSpanStartChild_ (env : StartEnv) (tls : Option OtelRandomState) (s : OtelSpan)
    (name : Option Bytes) (kind : UInt8) (parent : OtelSpan) : Option OtelRandomState × OtelSpan :=
  match tls with
  | none => (none, notRecording s)
  | some st =>
    let r := otelRandomNext st
    let s := { s with traceId := parent.traceId, spanId := r.2, parentId := parent.spanId }
    (some r.1, otelSpanInit s name kind env.now)

def otelSpanStartRemote_ (env : StartEnv) (tls : Option OtelRandomState) (s : OtelSpan)
    (name : Option Bytes) (kind : UInt8) (traceId : Vector UInt8 16) (parentId : UInt64) :
    Option OtelRandomState × OtelSpan :=
  match tls with
  | none => (none, notRecording s)
  | some st =>
    let r := otelRandomNext st
    let s := { s with traceId := traceId, spanId := r.2, parentId := parentId }
    (some r.1, otelSpanInit s name kind env.now)

def otelSpanStart (env : StartEnv) (tls : Option OtelRandomState) (s : OtelSpan)
    (name : Option Bytes) (kind : UInt32) : Option OtelRandomState × OtelSpan :=
  if !env.enabled then (tls, notRecording s)
  else otelSpanStartRoot_ env tls s name kind.toUInt8

def otelSpanStartChild (env : StartEnv) (tls : Option OtelRandomState) (s : OtelSpan)
    (name : Option Bytes) (kind : UInt32) (parent : Option OtelSpan) :
    Option OtelRandomState × OtelSpan :=
  match parent with
  | none => (tls, notRecording s)
  | some parent =>
    if !otelSpanRecording parent then (tls, notRecording s)
    else otelSpanStartChild_ env tls s name kind.toUInt8 parent

def otelSpanStartRemote (env : StartEnv) (tls : Option OtelRandomState) (s : OtelSpan)
    (name : Option Bytes) (kind : UInt32) (traceId : Vector UInt8 16) (parentId : UInt64)
    (sampled : Int32) : Option OtelRandomState × OtelSpan :=
  if !env.enabled || sampled = 0 then (tls, notRecording s)
  else otelSpanStartRemote_ env tls s name kind.toUInt8 traceId parentId

/-- The three ways to start a span. -/
inductive StartCall
  | root
  | child (parent : Option OtelSpan)
  | remote (traceId : Vector UInt8 16) (parentId : UInt64) (sampled : Int32)

/-- Start the span `s`. -/
def StartCall.run (c : StartCall) (env : StartEnv) (tls : Option OtelRandomState) (s : OtelSpan)
    (name : Option Bytes) (kind : UInt32) : Option OtelRandomState × OtelSpan :=
  match c with
  | .root => otelSpanStart env tls s name kind
  | .child parent => otelSpanStartChild env tls s name kind parent
  | .remote traceId parentId sampled =>
    otelSpanStartRemote env tls s name kind traceId parentId sampled

/-- The span as `otelSpanEnd` stages it: the only field that changes is the end time. -/
def stampEnd (s : OtelSpan) (now : UInt64) : OtelSpan := { s with endUnixNs := now }

end OtelTracing
