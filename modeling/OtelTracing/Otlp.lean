import OtelTracing.Reference
import OtelTracing.Proto
import OtelTracing.Lib.Slots

/-!
# The OTLP encoder

The pre-allocated batch that finished spans are mapped into, and its flush. The batch refers to the
ids and the strings of a span by pointer: these are read when the batch is packed, whereas numbers
and the structure of the lists are copied when the span is added. A pointer to a span is a value of
the type parameter `P`; the memory at the time of a call is a function from `P` to spans.

The arrays `attrp`, `eventp` and `spansp` are set up once by `otel_init` so that the `i`-th pointer
refers to the `i`-th object, so a slice of such an array is a start index and a length here.
-/

namespace OtelTracing

open ByteMem

def otelBatchSpans : Nat := 256

def otelBatchAttrs : Nat := 2048

def otelBatchEvents : Nat := 1024

def otelSpanSerialization : Nat := 8192

/-- What a C program must not do. -/
inductive Fault
  /-- an array index that is not in range -/
  | outOfBounds
  /-- a write past the end of the request buffer -/
  | bufferOverflow
  | nullDeref
  | useAfterFree
  /-- a list walk that does not end -/
  | unterminated
  deriving DecidableEq, Repr

/-! ## Objects of the batch -/

/-- A `char *` in the batch: a literal, or an offset in the arena of a span. -/
inductive CStr (P : Type)
  | lit (b : Bytes)
  | arena (p : P) (off : Nat)

/-- A `ProtobufCBinaryData` in the batch: empty, or an id of a span. -/
inductive IdRef (P : Type)
  | null
  | traceId (p : P)
  | spanId (p : P)
  | parentId (p : P)

/-- `otlp_any_t`: the member of the union that `value_case` selects. -/
inductive OtlpAny (P : Type)
  | str (v : CStr P)
  | int (v : Int64)
  | dbl (bits : UInt64)
  | bool (v : Bool)

structure OtlpKv (P : Type) where
  key : CStr P
  value : OtlpAny P

structure OtlpEvent (P : Type) where
  timeUnixNano : UInt64
  name : CStr P
  attributes : Nat
  nAttributes : Nat
  droppedAttributesCount : Nat

structure OtlpStatus (P : Type) where
  code : Proto.StatusCode
  message : CStr P

structure OtlpSpan (P : Type) where
  traceId : IdRef P
  spanId : IdRef P
  parentSpanId : IdRef P
  name : CStr P
  kind : Proto.SpanKind
  startTimeUnixNano : UInt64
  endTimeUnixNano : UInt64
  droppedAttributesCount : Nat
  droppedEventsCount : Nat
  attributes : Nat
  nAttributes : Nat
  events : Nat
  nEvents : Nat

/-- `struct otel_otlp`; `buf` says whether the buffer could be allocated. -/
structure OtelOtlp (P : Type) where
  service : Bytes
  hostname : Bytes
  nSpans : Nat
  spans : Nat → OtlpSpan P
  status : Nat → OtlpStatus P
  numAttrs : Nat
  attr : Nat → OtlpKv P
  numEvents : Nat
  event : Nat → OtlpEvent P
  buf : Bool
  bufSize : Nat

variable {P : Type}

/-- Assign to an element of an array of `n` elements. -/
def assign {α : Type} (n : Nat) (xs : Nat → α) (i : Nat) (x : α) : Except Fault (Nat → α) :=
  if i < n then .ok (Function.update xs i x) else .error .outOfBounds

/-- The records that a loop over a list visits. -/
def visited (walk : Option (List Nat)) : Except Fault (List Nat) :=
  match walk with
  | some rs => .ok rs
  | none => .error .unterminated

/-! ## Adding a span -/

def otlpKind (kind : UInt8) : Proto.SpanKind :=
  if kind = OtelSpanKind.server.code then .server
  else if kind = OtelSpanKind.client.code then .client
  else if kind = OtelSpanKind.producer.code then .producer
  else if kind = OtelSpanKind.consumer.code then .consumer
  else .internal

/-- The status code of the message. -/
def otlpStatusCode (status : UInt8) : Proto.StatusCode :=
  if status = OtelStatus.error.code then .error
  else if status = OtelStatus.ok.code then .ok
  else .unset

/-- The pointer that a read accessor returns, for the span at `p`. -/
def ArenaStr.ptr (p : P) : ArenaStr → CStr P
  | .empty => .lit []
  | .arena off => .arena p off

/-- The value that `otlp_add_attr` stores, by the type switch. -/
def otlpAny (s : OtelSpan) (p : P) (a : Nat) : OtlpAny P :=
  match OtelAttrType.ofCode (s.get a OtelAttr.type) with
  | some .str => .str ((otelAttrStrval s a).ptr p)
  | some .i64 => .int (UInt64.ofNat (s.get a OtelAttr.v)).toInt64
  | some .u64 => .int (UInt64.ofNat (s.get a OtelAttr.v)).toInt64
  | some .f64 => .dbl (UInt64.ofNat (s.get a OtelAttr.v))
  | some .bool => .bool (s.get a OtelAttr.vb ≠ 0)
  | none => .str (.lit [])

/-- The key-value pair for the attribute record `a` of the span at `p`. -/
def otlpKv (s : OtelSpan) (p : P) (a : Nat) : OtlpKv P where
  key := (otelAttrKey s a).ptr p
  value := otlpAny s p a

def otlpAddAttr (mem : P → OtelSpan) (p : P) (o : OtelOtlp P) (a : Nat) :
    Except Fault (OtelOtlp P) := do
  let attr ← assign otelBatchAttrs o.attr o.numAttrs (otlpKv (mem p) p a)
  pure { o with attr := attr, numAttrs := o.numAttrs + 1 }

/-- The event object for the event record `e` with `n` attributes, stored from `start` on. -/
def otlpEvent (s : OtelSpan) (p : P) (e start n : Nat) : OtlpEvent P where
  timeUnixNano := UInt64.ofNat (s.get e OtelEvent.timeUnixNs)
  name := (otelEventName s e).ptr p
  attributes := start
  nAttributes := n
  droppedAttributesCount := s.get e OtelEvent.droppedAttrs

/-- One turn of the event loop: the event `e` and its own attributes. -/
def otlpAddEvent (mem : P → OtelSpan) (p : P) (o : OtelOtlp P) (e : Nat) :
    Except Fault (OtelOtlp P) := do
  let attrs ← visited (walkAttrs (mem p) (otelEventAttrFirst (mem p) e))
  let event ← assign otelBatchEvents o.event o.numEvents
    (otlpEvent (mem p) p e o.numAttrs attrs.length)
  let o ← attrs.foldlM (otlpAddAttr mem p) { o with event := event }
  pure { o with numEvents := o.numEvents + 1 }

/-- Whether the span has to wait for the next batch. -/
def otlpFull (s : OtelSpan) (o : OtelOtlp P) : Except Fault Bool := do
  let events ← visited (walkEvents s)
  let eventAttrs := (events.map fun e => s.get e OtelEvent.numAttrs).sum
  pure (o.nSpans = otelBatchSpans || o.numAttrs + s.numAttrs + eventAttrs > otelBatchAttrs ||
    o.numEvents + s.numEvents > otelBatchEvents)

/-- The span object with `na` attributes from `as` on and `ne` events from `es` on. -/
def otlpSpan (s : OtelSpan) (p : P) (as na es ne : Nat) : OtlpSpan P where
  traceId := .traceId p
  spanId := .spanId p
  parentSpanId := if s.parentId ≠ 0 then .parentId p else .null
  name := (otelSpanName s).ptr p
  kind := otlpKind s.kind
  startTimeUnixNano := s.startUnixNs
  endTimeUnixNano := s.endUnixNs
  droppedAttributesCount := s.droppedAttrs
  droppedEventsCount := s.droppedEvents
  attributes := as
  nAttributes := na
  events := es
  nEvents := ne

def otlpStatus (s : OtelSpan) (p : P) : OtlpStatus P where
  code := otlpStatusCode s.status
  message := (otelSpanStatusMessage s).ptr p

/-- The part of `otlp_add_span` after the flush decision. -/
def otlpFill (mem : P → OtelSpan) (o : OtelOtlp P) (p : P) : Except Fault (OtelOtlp P) := do
  let s := mem p
  let attrs ← visited (walkAttrs s (otelAttrFirst s))
  let events ← visited (walkEvents s)
  let spans ← assign otelBatchSpans o.spans o.nSpans
    (otlpSpan s p o.numAttrs attrs.length o.numEvents events.length)
  let status ← assign otelBatchSpans o.status o.nSpans (otlpStatus s p)
  let o ← attrs.foldlM (otlpAddAttr mem p) { o with spans := spans, status := status }
  let o ← events.foldlM (otlpAddEvent mem p) o
  pure { o with nSpans := o.nSpans + 1 }

/-! ## Packing -/

def CStr.bytes (mem : P → OtelSpan) : CStr P → Bytes
  | .lit b => b
  | .arena p off => (ArenaStr.arena off).bytes (mem p)

def IdRef.bytes (mem : P → OtelSpan) : IdRef P → Bytes
  | .null => []
  | .traceId p => (mem p).traceId.toList
  | .spanId p => le 8 (mem p).spanId.toNat
  | .parentId p => le 8 (mem p).parentId.toNat

def OtlpAny.message (mem : P → OtelSpan) : OtlpAny P → Proto.AnyValue
  | .str v => .stringValue (v.bytes mem)
  | .int v => .intValue v
  | .dbl bits => .doubleValue bits
  | .bool v => .boolValue v

def OtlpKv.message (mem : P → OtelSpan) (kv : OtlpKv P) : Proto.KeyValue where
  key := kv.key.bytes mem
  value := kv.value.message mem

def OtlpEvent.message (mem : P → OtelSpan) (o : OtelOtlp P) (ev : OtlpEvent P) : Proto.Event where
  timeUnixNano := ev.timeUnixNano
  name := ev.name.bytes mem
  attributes := (Slots.slice o.attr ev.attributes ev.nAttributes).map (OtlpKv.message mem)
  droppedAttributesCount := ev.droppedAttributesCount

/-- The `i`-th span message of the batch, as packing reads it. -/
def otlpSpanMessage (mem : P → OtelSpan) (o : OtelOtlp P) (i : Nat) : Proto.Span where
  traceId := (o.spans i).traceId.bytes mem
  spanId := (o.spans i).spanId.bytes mem
  parentSpanId := (o.spans i).parentSpanId.bytes mem
  name := (o.spans i).name.bytes mem
  kind := (o.spans i).kind
  startTimeUnixNano := (o.spans i).startTimeUnixNano
  endTimeUnixNano := (o.spans i).endTimeUnixNano
  attributes := (Slots.slice o.attr (o.spans i).attributes (o.spans i).nAttributes).map
    (OtlpKv.message mem)
  droppedAttributesCount := (o.spans i).droppedAttributesCount
  events := (Slots.slice o.event (o.spans i).events (o.spans i).nEvents).map
    (OtlpEvent.message mem o)
  droppedEventsCount := (o.spans i).droppedEventsCount
  status := { message := (o.status i).message.bytes mem, code := (o.status i).code }

/-- The bytes of an ASCII literal. -/
def ascii (s : String) : Bytes := s.toList.map fun c => UInt8.ofNat c.toNat

/-- `o->request` as it is packed. -/
def otlpRequest (mem : P → OtelSpan) (o : OtelOtlp P) : Proto.ExportTraceServiceRequest where
  resourceSpans := [{
    resource := { attributes := [
      { key := ascii "service.name", value := .stringValue o.service },
      { key := ascii "host.name", value := .stringValue o.hostname }] }
    scopeSpans := [{
      scope := { name := o.service, version := ascii "0.1.0" }
      spans := (List.range o.nSpans).map (otlpSpanMessage mem o) }] }]

def sizeofGrpcHdr : Nat := 5

def otelStoreBe32 (value : UInt32) : Bytes :=
  [(value >>> 24).toUInt8, (value >>> 16).toUInt8, (value >>> 8).toUInt8, value.toUInt8]

def otelLoadBe32 (b0 b1 b2 b3 : UInt8) : UInt32 :=
  (b0.toUInt32 <<< 24) ||| (b1.toUInt32 <<< 16) ||| (b2.toUInt32 <<< 8) ||| b3.toUInt32

/-- The framed request: compression flag, length, payload. -/
def grpcFrame (payload : Bytes) : Bytes :=
  0 :: otelStoreBe32 (UInt32.ofNat payload.length) ++ payload

/-- `otlp_flush`, with the buffers that it gives to the transport. -/
def otlpFlush (pack : Proto.ExportTraceServiceRequest → Bytes) (transport : Bool)
    (mem : P → OtelSpan) (o : OtelOtlp P) : Except Fault (OtelOtlp P × List Bytes) :=
  if o.nSpans = 0 then
    .ok (o, [])
  else if !o.buf then
    .error .nullDeref
  else
    let payload := pack (otlpRequest mem o)
    if o.bufSize < sizeofGrpcHdr + payload.length then
      .error .bufferOverflow
    else
      .ok ({ o with nSpans := 0, numAttrs := 0, numEvents := 0 },
        if transport then [grpcFrame payload] else [])

def otlpAddSpan (pack : Proto.ExportTraceServiceRequest → Bytes) (transport : Bool)
    (mem : P → OtelSpan) (o : OtelOtlp P) (p : P) : Except Fault (OtelOtlp P × List Bytes) := do
  let full ← otlpFull (mem p) o
  let r ← if full then otlpFlush pack transport mem o else pure (o, [])
  let o ← otlpFill mem r.1 p
  pure (o, r.2)

/-! ## The encoder as a machine -/

/-- The batch after `otel_init`. -/
def otlpInit (service hostname : Bytes) (buf : Bool) : OtelOtlp P where
  service := service
  hostname := hostname
  nSpans := 0
  spans _ :=
    { traceId := .null, spanId := .null, parentSpanId := .null, name := .lit []
      kind := .unspecified, startTimeUnixNano := 0, endTimeUnixNano := 0
      droppedAttributesCount := 0, droppedEventsCount := 0, attributes := 0, nAttributes := 0
      events := 0, nEvents := 0 }
  status _ := { code := .unset, message := .lit [] }
  numAttrs := 0
  attr _ := { key := .lit [], value := .str (.lit []) }
  numEvents := 0
  event _ :=
    { timeUnixNano := 0, name := .lit [], attributes := 0, nAttributes := 0
      droppedAttributesCount := 0 }
  buf := buf
  bufSize := sizeofGrpcHdr + otelBatchSpans * otelSpanSerialization

/-- The sum of the events' attribute counters. -/
def eventAttrCount (s : OtelSpan) : Nat :=
  (((walkEvents s).getD []).map fun e => s.get e OtelEvent.numAttrs).sum

/-- An operation of the encoder, with the memory at the time of the call. -/
inductive BatchOp (P : Type)
  | add (mem : P → OtelSpan) (p : P)
  | flush (mem : P → OtelSpan)

def batchStep (pack : Proto.ExportTraceServiceRequest → Bytes) (transport : Bool)
    (o : OtelOtlp P) : BatchOp P → Except Fault (OtelOtlp P)
  | .add mem p => (otlpAddSpan pack transport mem o p).map Prod.fst
  | .flush mem => (otlpFlush pack transport mem o).map Prod.fst

/-- A sequence of operations of the encoder. -/
def batchRun (pack : Proto.ExportTraceServiceRequest → Bytes) (transport : Bool)
    (o : OtelOtlp P) (ops : List (BatchOp P)) : Except Fault (OtelOtlp P) :=
  ops.foldlM (batchStep pack transport) o

end OtelTracing
