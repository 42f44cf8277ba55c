import OtelTracing.Otlp
import OtelTracing.Lib.Machine
import OtelTracing.Lib.Ring

/-!
# The tracer

The process-wide state of `oteltracing.c` and the functions of its API, each taken as one step: no
other thread runs while a function does, so the locks do nothing here. The heap of thread contexts
maps an address to a context, and a dereference of an address without one is a fault; the registry
list `OT.threads` is the list of its elements. What the transport and the sink are called with is
recorded in `out`.

`ended` and `emitted` are not in the source. They count the calls of `otelSpanEnd` on recording
spans, and the spans that were passed to the transport's batch or to the sink.
-/

namespace OtelTracing

open ByteMem

/-- The address of a `struct otel_thread_ctx`. -/
abbrev CtxAddr := Nat

abbrev ThreadId := Nat

structure OtelThreadCtx where
  ring : Nat → OtelSpan
  capacity : UInt32
  mask : UInt32
  head : UInt64
  tail : UInt64
  dropped : UInt64
  randstate : OtelRandomState

/-- The ring slot that a cursor refers to. -/
def OtelThreadCtx.slot (c : OtelThreadCtx) (cursor : UInt64) : Nat :=
  Ring.slot c.mask.toUInt64 cursor

/-- The spans in the ring that are not drained yet, the oldest first. -/
def OtelThreadCtx.staged (c : OtelThreadCtx) : List OtelSpan :=
  Ring.contents c.ring c.mask.toUInt64 c.tail c.head

/-- A `struct otel_span *` into a ring. -/
structure Slot where
  ctx : CtxAddr
  idx : Nat
  deriving DecidableEq

/-- `struct otel_span_sink`: which of the callbacks are set. -/
structure OtelSpanSink where
  hasBegin : Bool
  hasSpan : Bool
  hasEnd : Bool
  deriving DecidableEq

/-- A call of the transport or of the sink. -/
inductive Output
  | transport (buf : Bytes)
  | sinkBegin
  | sinkSpan (s : OtelSpan)
  | sinkEnd

structure Tracer where
  initialized : Bool
  transport : Bool
  sink : Option OtelSpanSink
  sinkPresent : Bool
  sampleAlways : Bool
  sampleThreshold : UInt64
  transportPresent : Bool
  runtimeOn : Bool
  threads : List CtxAddr
  otlp : OtelOtlp Slot
  droppedSpans : UInt64
  tls : ThreadId → Option CtxAddr
  ringCapacity : UInt32
  enabled : Bool
  ctxs : CtxAddr → Option OtelThreadCtx
  out : List Output
  ended : Nat
  emitted : Nat

/-- The state in which a program starts. -/
def Tracer.boot : Tracer where
  initialized := false
  transport := false
  sink := none
  sinkPresent := false
  sampleAlways := false
  sampleThreshold := 0
  transportPresent := false
  runtimeOn := false
  threads := []
  otlp := { otlpInit [] [] false with bufSize := 0 }
  droppedSpans := 0
  tls _ := none
  ringCapacity := 2048
  enabled := false
  ctxs _ := none
  out := []
  ended := 0
  emitted := 0

/-! ## The heap -/

def Tracer.deref (t : Tracer) (a : CtxAddr) : Except Fault OtelThreadCtx :=
  match t.ctxs a with
  | some c => .ok c
  | none => .error .useAfterFree

def Tracer.setCtx (t : Tracer) (a : CtxAddr) (c : OtelThreadCtx) : Tracer :=
  { t with ctxs := Function.update t.ctxs a (some c) }

/-- `free(ctx->ring)` and `free(ctx)` -/
def Tracer.free (t : Tracer) (a : CtxAddr) : Except Fault Tracer := do
  let _ ← t.deref a
  pure { t with ctxs := Function.update t.ctxs a none }

/-- The spans in the rings. -/
def ringMem (ctxs : CtxAddr → Option OtelThreadCtx) (p : Slot) : OtelSpan :=
  match ctxs p.ctx with
  | some c => c.ring p.idx
  | none => zeroSpan

/-! ## Configuration -/

/-- What `snprintf` leaves in a buffer of 128 bytes. -/
def name128 (str : Bytes) : Bytes := (cutStr str).take 127

def otelInit (t : Tracer) (service hostname : Option Bytes) (buf : Bool) : Tracer × Int32 :=
  if t.initialized then
    (t, 0)
  else
    let t := { t with
      transport := false, sink := none, sinkPresent := false, sampleAlways := true
      sampleThreshold := ~~~0, transportPresent := false, runtimeOn := true, threads := []
      otlp := otlpInit (name128 (service.getD (ascii "unknown")))
        (name128 (hostname.getD (ascii "unknown"))) buf
      droppedSpans := 0, enabled := false, initialized := true }
    (t, if buf then 0 else -1)

def otelRecomputeEnabled (t : Tracer) : Tracer :=
  { t with enabled := t.initialized && (t.transportPresent || t.sinkPresent) && t.runtimeOn }

/-- `otel_set_transport`; `fn` says whether the callback is not `NULL`. -/
def otelSetTransport (t : Tracer) (fn : Bool) : Tracer :=
  otelRecomputeEnabled { t with transport := fn, transportPresent := fn }

def otelSetSpanSink (t : Tracer) (sink : Option OtelSpanSink) : Tracer :=
  otelRecomputeEnabled { t with sink := sink, sinkPresent := sink.isSome }

def otelSetEnabled (t : Tracer) (enabled : Int32) : Tracer :=
  otelRecomputeEnabled { t with runtimeOn := enabled ≠ 0 }

/-- `while (cap < spans) cap <<= 1`, for at most `fuel` turns. -/
def capacityLoop (spans : UInt32) : Nat → UInt32 → Option UInt32
  | 0, _ => none
  | fuel + 1, cap => if cap < spans then capacityLoop spans fuel (cap <<< 1) else some cap

/-- The capacity that `otel_set_ring_capacity` computes. The loop does not end if more than `2 ^ 31`
spans are asked for: `cap` then becomes 0, and stays 0. -/
def roundCapacity (spans : UInt32) : Option UInt32 :=
  capacityLoop (if spans < 2 then 2 else spans) 33 1

def otelSetRingCapacity (t : Tracer) (spans : UInt32) : Except Fault Tracer :=
  match roundCapacity spans with
  | some cap => .ok { t with ringCapacity := cap }
  | none => .error .unterminated

/-! ## Starting and ending spans -/

/-- Whether the start function gets as far as using the thread's context. -/
def StartCall.usesCtx (enabled : Bool) : StartCall → Bool
  | .root => enabled
  | .child parent => parent.any otelSpanRecording
  | .remote _ _ sampled => enabled && sampled ≠ 0

/-- The start functions on the thread `tid`; the result is the caller's span. -/
def otelStart (t : Tracer) (tid : ThreadId) (call : StartCall) (s : OtelSpan) (name : Option Bytes)
    (kind : UInt32) (now : UInt64) : Except Fault (Tracer × OtelSpan) :=
  let env : StartEnv := ⟨t.enabled, t.sampleAlways, t.sampleThreshold, now⟩
  match t.tls tid with
  | none => .ok (t, (call.run env none s name kind).2)
  | some a =>
    if call.usesCtx t.enabled then do
      let c ← t.deref a
      let r := call.run env (some c.randstate) s name kind
      pure (t.setCtx a { c with randstate := r.1.getD c.randstate }, r.2)
    else
      .ok (t, (call.run env none s name kind).2)

/-- Copy a finished span into the ring, or drop it; the flag says whether it was dropped. -/
def ringPut (c : OtelThreadCtx) (s : OtelSpan) : OtelThreadCtx × Bool :=
  if c.head - c.tail ≥ c.capacity.toUInt64 then
    ({ c with dropped := c.dropped + 1 }, true)
  else
    ({ c with ring := Function.update c.ring (c.slot c.head) s, head := c.head + 1 }, false)

def otelSpanEnd_ (t : Tracer) (tid : ThreadId) (s : OtelSpan) (now : UInt64) :
    Except Fault Tracer :=
  match t.tls tid with
  | none => .ok { t with droppedSpans := t.droppedSpans + 1 }
  | some a => do
    let c ← t.deref a
    let r := ringPut c (stampEnd s now)
    let t := t.setCtx a r.1
    pure (if r.2 then { t with droppedSpans := t.droppedSpans + 1 } else t)

def otelSpanEnd (t : Tracer) (tid : ThreadId) (s : OtelSpan) (now : UInt64) :
    Except Fault Tracer :=
  if !otelSpanRecording s then .ok t
  else otelSpanEnd_ { t with ended := t.ended + 1 } tid s now

/-! ## Draining -/

/-- Whether a callback of the sink is to be called. -/
def Tracer.sinkHas (t : Tracer) (callback : OtelSpanSink → Bool) : Except Fault Bool :=
  if t.sinkPresent then
    match t.sink with
    | some sink => .ok (callback sink)
    | none => .error .nullDeref
  else
    .ok false

section
variable (pack : Proto.ExportTraceServiceRequest → Bytes)

def Tracer.flush (t : Tracer) : Except Fault Tracer := do
  let r ← otlpFlush pack t.transport (ringMem t.ctxs) t.otlp
  pure { t with otlp := r.1, out := t.out ++ r.2.map .transport }

/-- The first half of `otel_emit_span`. -/
def emitTransport (t : Tracer) (p : Slot) : Except Fault Tracer :=
  if t.transportPresent then do
    let r ← otlpAddSpan pack t.transport (ringMem t.ctxs) t.otlp p
    pure { t with otlp := r.1, out := t.out ++ r.2.map .transport }
  else
    .ok t

def otelEmitSpan (t : Tracer) (p : Slot) : Except Fault Tracer := do
  let t ← emitTransport pack t p
  let sink ← t.sinkHas OtelSpanSink.hasSpan
  pure { t with
    out := if sink then t.out ++ [.sinkSpan (ringMem t.ctxs p)] else t.out
    emitted := if t.transportPresent || sink then t.emitted + 1 else t.emitted }

/-- `otel_drain_ctx`; the result is the counter `n`, an `int`. -/
def otelDrainCtx (t : Tracer) (a : CtxAddr) : Except Fault (Tracer × Int32) := do
  let c ← t.deref a
  let cursors := Ring.cursors c.tail c.head
  let t ← cursors.foldlM (fun t cursor => otelEmitSpan pack t ⟨a, c.slot cursor⟩) t
  let c ← t.deref a
  pure (t.setCtx a { c with tail := c.head }, Int32.ofNat cursors.length)

def Tracer.sinkBegin (t : Tracer) : Except Fault Tracer := do
  let sink ← t.sinkHas OtelSpanSink.hasBegin
  pure (if sink then { t with out := t.out ++ [.sinkBegin] } else t)

def Tracer.sinkEnd (t : Tracer) : Except Fault Tracer := do
  let sink ← t.sinkHas OtelSpanSink.hasEnd
  pure (if sink then { t with out := t.out ++ [.sinkEnd] } else t)

/-- The part of a drain pass that `otel_drain` and `otel_thread_unregister` share: the contexts that
are drained are those of the list. -/
def drainPass (t : Tracer) (as : List CtxAddr) : Except Fault (Tracer × Int32) := do
  let t ← t.sinkBegin
  let r ← as.foldlM (fun (r : Tracer × Int32) a => do
    let r' ← otelDrainCtx pack r.1 a
    pure (r'.1, r.2 + r'.2)) (t, 0)
  let t ← r.1.flush pack
  let t ← t.sinkEnd
  pure (t, r.2)

def otelDrain (t : Tracer) : Except Fault (Tracer × Int32) :=
  if !t.enabled then .ok (t, 0) else drainPass pack t t.threads

def otelDroppedSpans (t : Tracer) : UInt64 := t.droppedSpans

/-! ## Threads and shutdown -/

/-- The context that `otel_thread_register` allocates at `a`. -/
def newCtx (capacity : UInt32) (a : CtxAddr) (seed : OtelRandomState) (now : UInt64) :
    OtelThreadCtx where
  ring _ := zeroSpan
  capacity := capacity
  mask := capacity - 1
  head := 0
  tail := 0
  dropped := 0
  randstate := if seed.lo = 0 ∧ seed.hi = 0 then { seed with lo := (UInt64.ofNat a ^^^ now) ||| 1 }
    else seed

/-- `otel_thread_register`, where `calloc` returns `a` and the generator is seeded with `seed`. -/
def otelThreadRegister (t : Tracer) (tid : ThreadId) (a : CtxAddr) (seed : OtelRandomState)
    (now : UInt64) : Tracer :=
  if (t.tls tid).isSome then
    t
  else
    let t := t.setCtx a (newCtx t.ringCapacity a seed now)
    { t with threads := a :: t.threads, tls := Function.update t.tls tid (some a) }

/-- The loop that unlinks the context `a` from the registry; every element up to it is read. -/
def unlink (t : Tracer) (a : CtxAddr) : List CtxAddr → Except Fault (List CtxAddr)
  | [] => .ok []
  | b :: bs => do
    let _ ← t.deref b
    if b = a then pure bs
    else do
      let bs ← unlink t a bs
      pure (b :: bs)

/-- `if (otel_enabled_) { .. }` around a pass. -/
def whenEnabled (t : Tracer) (pass : Except Fault (Tracer × Int32)) : Except Fault Tracer :=
  if t.enabled then Prod.fst <$> pass else .ok t

def otelThreadUnregister (t : Tracer) (tid : ThreadId) : Except Fault Tracer :=
  match t.tls tid with
  | none => .ok t
  | some a => do
    let t ← whenEnabled t (drainPass pack t [a])
    let threads ← unlink t a t.threads
    let t ← { t with threads := threads }.free a
    pure { t with tls := Function.update t.tls tid none }

def otelShutdown (t : Tracer) : Except Fault Tracer :=
  if !t.initialized then
    .ok t
  else do
    let t ← whenEnabled t (otelDrain pack t)
    let t ← t.threads.foldlM Tracer.free t
    pure { t with
      threads := [], otlp := { t.otlp with buf := false }, initialized := false, enabled := false }

/-! ## The tracer as a machine -/

/-- A call of the API, by some thread where it matters. -/
inductive Op
  | init (service hostname : Option Bytes) (buf : Bool)
  | shutdown
  | setTransport (fn : Bool)
  | setSpanSink (sink : Option OtelSpanSink)
  | setEnabled (enabled : Int32)
  | setRingCapacity (spans : UInt32)
  | register (tid : ThreadId) (a : CtxAddr) (seed : OtelRandomState) (now : UInt64)
  | unregister (tid : ThreadId)
  | start (tid : ThreadId) (call : StartCall) (s : OtelSpan) (name : Option Bytes) (kind : UInt32)
      (now : UInt64)
  | finish (tid : ThreadId) (s : OtelSpan) (now : UInt64)
  | drain

def tracerStep (t : Tracer) : Op → Except Fault Tracer
  | .init service hostname buf => .ok (otelInit t service hostname buf).1
  | .shutdown => otelShutdown pack t
  | .setTransport fn => .ok (otelSetTransport t fn)
  | .setSpanSink sink => .ok (otelSetSpanSink t sink)
  | .setEnabled enabled => .ok (otelSetEnabled t enabled)
  | .setRingCapacity spans => otelSetRingCapacity t spans
  | .register tid a seed now => .ok (otelThreadRegister t tid a seed now)
  | .unregister tid => otelThreadUnregister pack t tid
  | .start tid call s name kind now => Prod.fst <$> otelStart t tid call s name kind now
  | .finish tid s now => otelSpanEnd t tid s now
  | .drain => Prod.fst <$> otelDrain pack t

/-- An allocation returns an address that is not in use. -/
def Op.Possible (t : Tracer) : Op → Prop
  | .register _ a _ _ => t.ctxs a = none
  | _ => True

def tracerMachine : Machine Tracer Op Fault where
  enabled := Op.Possible
  step := tracerStep pack

end

end OtelTracing
