import OtelTracing.Otlp
import OtelTracing.Shape
import OtelTracing.Lib.Machine

/-!
# The exported form of a span

What the message for a span should be, field by field, in terms of what an exporter reads from the
span. It knows nothing of batches, cursors or pointers.
-/

namespace OtelTracing

open ByteMem

def AttrValue.proto : AttrValue → Proto.AnyValue
  | .str v => .stringValue v
  | .i64 v => .intValue v
  | .u64 v => .intValue v.toInt64
  | .f64 bits => .doubleValue bits
  | .bool v => .boolValue v

def AttrView.proto (a : AttrView) : Proto.KeyValue := { key := a.key, value := a.value.proto }

def EventView.proto (e : EventView) : Proto.Event where
  timeUnixNano := e.time
  name := e.name
  attributes := e.attrs.map AttrView.proto
  droppedAttributesCount := e.dropped

/-- The kinds of `trace.proto` have the numbers of the tracer's plus one; a byte that is no kind counts as
internal. -/
def protoKind (kind : UInt8) : Proto.SpanKind :=
  (Proto.SpanKind.ofCode (kind.toNat + 1)).getD .internal

/-- The status codes have the tracer's numbers; a byte that is no status counts as unset. -/
def protoStatus (status : UInt8) : Proto.StatusCode :=
  (Proto.StatusCode.ofCode status.toNat).getD .unset

/-- The message for the span `s`, whose name, status, attributes and events are `v`. -/
def spanProto (s : OtelSpan) (v : SpanView) : Proto.Span where
  traceId := s.traceId.toList
  spanId := le 8 s.spanId.toNat
  parentSpanId := if s.parentId = 0 then [] else le 8 s.parentId.toNat
  name := v.name
  kind := protoKind s.kind
  startTimeUnixNano := s.startUnixNs
  endTimeUnixNano := s.endUnixNs
  attributes := v.attrs.map AttrView.proto
  droppedAttributesCount := v.droppedAttrs
  events := v.events.map EventView.proto
  droppedEventsCount := v.droppedEvents
  status := { message := v.message, code := protoStatus v.status }

/-- The message for a span that can be read. -/
def exported (s : OtelSpan) : Option Proto.Span := (readSpan s).map (spanProto s)

/-- What the receiver of a buffer reads: a compression flag of 0, the length of the rest, a packed
request. -/
def readFrame (unpack : Bytes → Option Proto.ExportTraceServiceRequest) :
    Bytes → Option Proto.ExportTraceServiceRequest
  | 0 :: b0 :: b1 :: b2 :: b3 :: payload =>
    if (otelLoadBe32 b0 b1 b2 b3).toNat = payload.length then unpack payload else none
  | _ => none

/-- The records that an exporter visits: the attributes, and the events with their own attributes.
The counters of the span are the lengths of the lists, and a span has at most 167 records. -/
structure Visits (s : OtelSpan) (attrs : List Nat) (events : List (Nat × List Nat)) : Prop where
  walk_attrs : walkAttrs s (otelAttrFirst s) = some attrs
  walk_events : walkEvents s = some (events.map Prod.fst)
  walk_event_attrs : ∀ e ∈ events, walkAttrs s (otelEventAttrFirst s e.1) = some e.2
  num_attrs : s.numAttrs = attrs.length
  num_events : s.numEvents = events.length
  event_num_attrs : ∀ e ∈ events, s.get e.1 OtelEvent.numAttrs = e.2.length
  total_le : attrs.length + events.length + (events.map fun e => e.2.length).sum ≤ 167

/-- A finished span: started, annotated and ended through the API, on memory with any contents. -/
def Finished (s : OtelSpan) : Prop :=
  ∃ (c : StartCall) (env : StartEnv) (tls : Option OtelRandomState) (s₀ : OtelSpan)
    (name : Option Bytes) (kind : UInt32) (cs : List Call) (now : UInt64),
    otelSpanRecording (c.run env tls s₀ name kind).2 = true ∧ ShortStr name ∧
    (∀ c ∈ cs, c.Short) ∧
    s = stampEnd (Session.calls ⟨(c.run env tls s₀ name kind).2, []⟩ cs).span now

/-- The memory at the time of the operation. -/
def BatchOp.mem {P : Type} : BatchOp P → P → OtelSpan
  | .add mem _ => mem
  | .flush mem => mem

/-- The spans that are passed to the encoder are finished spans. -/
def BatchOp.Ok {P : Type} : BatchOp P → Prop
  | .add mem p => Finished (mem p)
  | .flush _ => True

/-! ## Runs of the encoder -/

variable {P : Type}

/-- The batch, and the spans that were added to it since it was packed last: their addresses and what
was read there. The entries are not in the source. -/
structure BatchState (P : Type) where
  otlp : OtelOtlp P
  entries : List (P × OtelSpan)

/-- The operation packs the batch: it is a flush, or the span that it adds does not fit. -/
def BatchOp.Packs (o : OtelOtlp P) : BatchOp P → Prop
  | .add mem p => otlpFull (mem p) o = .ok true
  | .flush _ => True

/-- The spans of the batch after the operation. -/
def BatchState.next (b : BatchState P) : BatchOp P → List (P × OtelSpan)
  | .add mem p =>
    match otlpFull (mem p) b.otlp with
    | .ok true => [(p, mem p)]
    | _ => b.entries ++ [(p, mem p)]
  | .flush _ => []

def batchMachine (pack : Proto.ExportTraceServiceRequest → Bytes) (transport : Bool) :
    Machine (BatchState P) (BatchOp P) Fault where
  enabled _ op := op.Ok
  step b op := (batchStep pack transport b.otlp op).map fun o => ⟨o, b.next op⟩

/-- An operation that packs the batch finds its spans as they were when they were added. -/
def KeepsSpans (b : BatchState P) (op : BatchOp P) : Prop :=
  op.Packs b.otlp → ∀ e ∈ b.entries, op.mem e.1 = e.2

end OtelTracing
