import OtelTracing.Tracer

/-!
# The life of contexts and of spans

What the tracer promises about its contexts and about the spans in their rings, and the conditions
on the calls under which it keeps the promises.
-/

namespace OtelTracing

/-! ## Contexts -/

/-- The registry, the heap and the threads' `otel_tls` agree. -/
structure RegistryOk (t : Tracer) : Prop where
  nodup : t.threads.Nodup
  live_iff : ∀ a, (t.ctxs a).isSome ↔ a ∈ t.threads
  listed : ∀ tid a, t.tls tid = some a → a ∈ t.threads
  owned : ∀ a ∈ t.threads, ∃ tid, t.tls tid = some a
  distinct : ∀ tid tid' a, t.tls tid = some a → t.tls tid' = some a → tid = tid'

/-- No thread is registered when `otelShutdown` tears the tracer down or `otelInit` sets it up. -/
def NoStraggler (t : Tracer) : Op → Prop
  | .init .. => t.initialized = false → t.threads = []
  | .shutdown => t.initialized = true → t.threads = []
  | _ => True

/-- What holds between the calls of the API: the registry can be walked, the batch is empty and, once
the tracer is initialized, it is set up as `otelInit` does. -/
structure Ready (t : Tracer) : Prop where
  nodup : t.threads.Nodup
  live : ∀ a ∈ t.threads, (t.ctxs a).isSome
  transportPresent : t.transportPresent = t.transport
  sinkPresent : t.sinkPresent = t.sink.isSome
  nSpans : t.otlp.nSpans = 0
  numAttrs : t.otlp.numAttrs = 0
  numEvents : t.otlp.numEvents = 0
  enabled : t.enabled = true → t.initialized = true
  service : t.initialized = true → t.otlp.service.length ≤ 127
  hostname : t.initialized = true → t.otlp.hostname.length ≤ 127
  bufSize : t.initialized = true →
    t.otlp.bufSize = sizeofGrpcHdr + otelBatchSpans * otelSpanSerialization

/-! ## Spans -/

/-- The spans staged in the ring of the context at `a`. -/
def stagedAt (ctxs : CtxAddr → Option OtelThreadCtx) (a : CtxAddr) : List OtelSpan :=
  match ctxs a with
  | some c => c.staged
  | none => []

/-- The spans staged in the rings of the contexts `as`, in the order in which a pass drains them. -/
def stagedIn (ctxs : CtxAddr → Option OtelThreadCtx) (as : List CtxAddr) : List OtelSpan :=
  as.flatMap (stagedAt ctxs)

/-- The spans staged in the rings of the registered threads. -/
def Tracer.staged (t : Tracer) : List OtelSpan := stagedIn t.ctxs t.threads

/-- Whether `otelEmitSpan` hands a span to anyone. -/
def Tracer.hasConsumer (t : Tracer) : Bool :=
  t.transportPresent || (t.sinkPresent && t.sink.any OtelSpanSink.hasSpan)

/-- Whether `otelSpanEnd` on the thread `tid` drops the span. -/
def Tracer.drops (t : Tracer) (tid : ThreadId) : Bool :=
  match t.tls tid with
  | none => true
  | some a =>
    match t.ctxs a with
    | some c => c.head - c.tail ≥ c.capacity.toUInt64
    | none => false

/-- The call does not lose count of a span: a ring is not freed with spans in it, a pass does not
discard the spans that it drains, and the drop counter does not wrap. -/
def Lossless (t : Tracer) : Op → Prop
  | .unregister tid => ∀ a, t.tls tid = some a →
      stagedAt t.ctxs a = [] ∨ (t.enabled = true ∧ t.hasConsumer = true)
  | .drain => t.enabled = true → t.staged = [] ∨ t.hasConsumer = true
  | .shutdown => t.initialized = true →
      t.staged = [] ∨ (t.enabled = true ∧ t.hasConsumer = true)
  | .finish tid s _ => otelSpanRecording s = true → t.drops tid = true →
      t.droppedSpans.toNat + 1 < 2 ^ 64
  | _ => True

/-- The finished spans that are accounted for. -/
def Tracer.accounted (t : Tracer) : Nat :=
  t.emitted + t.staged.length + (otelDroppedSpans t).toNat

/-- The calls between initializing the tracer and shutting it down. -/
def Op.Session : Op → Prop
  | .init .. => False
  | .shutdown => False
  | _ => True

end OtelTracing
