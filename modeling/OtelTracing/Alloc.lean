import OtelTracing.Lifecycle

/-!
# Allocations that fail

The calls of `otel_init` and of `otel_thread_register` again, where each `malloc` and each `calloc`
may return `NULL`. A context without a ring is a context whose address `hasRing` does not hold of;
using the context or the ring of a `NULL` pointer is a fault.
-/

namespace OtelTracing

open ByteMem

/-- The tracer, and which contexts have a ring. -/
structure Allocated where
  tracer : Tracer
  hasRing : CtxAddr → Bool

def Allocated.boot : Allocated where
  tracer := Tracer.boot
  hasRing _ := true

/-- A call, with what the allocations in it return: `buf`, `ctx` and `ring`. -/
inductive AllocOp
  | init (service hostname : Option Bytes) (buf : Bool)
  | setTransport (fn : Bool)
  | setSpanSink (sink : Option OtelSpanSink)
  | register (tid : ThreadId) (ctx : Option CtxAddr) (ring : Bool) (seed : OtelRandomState)
      (now : UInt64)
  | start (tid : ThreadId) (call : StartCall) (s : OtelSpan) (name : Option Bytes) (kind : UInt32)
      (now : UInt64)
  | finish (tid : ThreadId) (s : OtelSpan) (now : UInt64)
  | drain

/-- `otel_thread_register`, where the context is allocated at `ctx`. -/
def allocRegister (s : Allocated) (tid : ThreadId) (ctx : Option CtxAddr) (ring : Bool)
    (seed : OtelRandomState) (now : UInt64) : Except Fault Allocated :=
  if (s.tracer.tls tid).isSome then
    .ok s
  else
    match ctx with
    | none => .error .nullDeref
    | some a => .ok
      { tracer := otelThreadRegister s.tracer tid a seed now
        hasRing := Function.update s.hasRing a ring }

/-- Whether `otelSpanEnd` on the thread `tid` stores the span in a ring that does not exist. -/
def Allocated.noSlot (s : Allocated) (tid : ThreadId) (span : OtelSpan) : Bool :=
  otelSpanRecording span && !s.tracer.drops tid && (s.tracer.tls tid).any (!s.hasRing ·)

/-- Whether a pass reads a slot of a ring that does not exist. -/
def Allocated.unreadable (s : Allocated) : Bool :=
  s.tracer.threads.any fun a => !s.hasRing a && !(stagedAt s.tracer.ctxs a).isEmpty

variable (pack : Proto.ExportTraceServiceRequest → Bytes)

def allocStep (s : Allocated) : AllocOp → Except Fault Allocated
  | .init service hostname buf => .ok { s with tracer := (otelInit s.tracer service hostname buf).1 }
  | .setTransport fn => .ok { s with tracer := otelSetTransport s.tracer fn }
  | .setSpanSink sink => .ok { s with tracer := otelSetSpanSink s.tracer sink }
  | .register tid ctx ring seed now => allocRegister s tid ctx ring seed now
  | .start tid call span name kind now => do
    let r ← otelStart s.tracer tid call span name kind now
    pure { s with tracer := r.1 }
  | .finish tid span now =>
    if s.noSlot tid span then .error .nullDeref
    else do
      let t ← otelSpanEnd s.tracer tid span now
      pure { s with tracer := t }
  | .drain =>
    if s.tracer.enabled && s.unreadable then .error .nullDeref
    else do
      let r ← otelDrain pack s.tracer
      pure { s with tracer := r.1 }

/-- An allocation returns an address that is not in use. -/
def AllocOp.Possible (s : Allocated) : AllocOp → Prop
  | .register _ ctx _ _ _ => ∀ a, ctx = some a → s.tracer.ctxs a = none
  | _ => True

def allocMachine : Machine Allocated AllocOp Fault where
  enabled := AllocOp.Possible
  step := allocStep pack

/-! ## What is promised after a failed allocation -/

/-- The call `op` is safe: tracing is not live without a batch buffer, `otelInit` does not report a
success without one, and no null pointer is used. -/
structure SafeCall (s : Allocated) (op : AllocOp) : Prop where
  live : ∀ s', allocStep pack s op = .ok s' → s'.tracer.enabled = true →
    s'.tracer.otlp.buf = true
  report : ∀ service hostname buf, op = .init service hostname buf →
    (otelInit s.tracer service hostname buf).2 = 0 →
    (otelInit s.tracer service hostname buf).1.otlp.buf = true
  notNull : allocStep pack s op ≠ .error .nullDeref

/-- `otelInit` was called, and could not get its buffer. -/
def Tracer.InitFailed (t : Tracer) : Prop := t.initialized = true ∧ t.otlp.buf = false

/-- After a failed `otelInit` there is no further one and no consumer is set, a thread that registers
gets a context, and a thread that ends a recording span has a ring. -/
def Allocates (s : Allocated) : AllocOp → Prop
  | .init .. => ¬ s.tracer.InitFailed
  | .setTransport fn => s.tracer.InitFailed → fn = false
  | .setSpanSink sink => s.tracer.InitFailed → sink = none
  | .register tid ctx _ _ _ => s.tracer.tls tid = none → ctx ≠ none
  | .finish tid span _ => otelSpanRecording span = true →
      ∀ a, s.tracer.tls tid = some a → s.hasRing a = true
  | _ => True

end OtelTracing
