import OtelTracing.Lib.Wire

/-!
# The OTLP messages

The messages of the repository's `.proto` files with the fields that the exporter sets, and their
standard proto3 encoding: fields in the order of their numbers, scalars with their default value left
out, the set member of a `oneof` and embedded messages always written.
-/

namespace OtelTracing.Proto

open ByteMem Wire

/-- `Span.SpanKind` -/
inductive SpanKind
  | unspecified | internal | server | client | producer | consumer
  deriving DecidableEq, Repr

def SpanKind.code : SpanKind → Nat
  | .unspecified => 0 | .internal => 1 | .server => 2 | .client => 3 | .producer => 4
  | .consumer => 5

def SpanKind.ofCode : Nat → Option SpanKind
  | 0 => some .unspecified | 1 => some .internal | 2 => some .server | 3 => some .client
  | 4 => some .producer | 5 => some .consumer | _ => none

/-- `Status.StatusCode` -/
inductive StatusCode
  | unset | ok | error
  deriving DecidableEq, Repr

def StatusCode.code : StatusCode → Nat
  | .unset => 0 | .ok => 1 | .error => 2

def StatusCode.ofCode : Nat → Option StatusCode
  | 0 => some .unset | 1 => some .ok | 2 => some .error | _ => none

/-- The members of `AnyValue`'s `oneof` that the exporter uses; a double is given by its bits. -/
inductive AnyValue
  | stringValue (v : Bytes)
  | boolValue (v : Bool)
  | intValue (v : Int64)
  | doubleValue (bits : UInt64)
  deriving DecidableEq

structure KeyValue where
  key : Bytes
  value : AnyValue
  deriving DecidableEq

structure Event where
  timeUnixNano : UInt64
  name : Bytes
  attributes : List KeyValue
  droppedAttributesCount : Nat
  deriving DecidableEq

structure Status where
  message : Bytes
  code : StatusCode
  deriving DecidableEq

structure Span where
  traceId : Bytes
  spanId : Bytes
  parentSpanId : Bytes
  name : Bytes
  kind : SpanKind
  startTimeUnixNano : UInt64
  endTimeUnixNano : UInt64
  attributes : List KeyValue
  droppedAttributesCount : Nat
  events : List Event
  droppedEventsCount : Nat
  status : Status
  deriving DecidableEq

structure InstrumentationScope where
  name : Bytes
  version : Bytes
  deriving DecidableEq

structure ScopeSpans where
  scope : InstrumentationScope
  spans : List Span
  deriving DecidableEq

structure Resource where
  attributes : List KeyValue
  deriving DecidableEq

structure ResourceSpans where
  resource : Resource
  scopeSpans : List ScopeSpans
  deriving DecidableEq

structure ExportTraceServiceRequest where
  resourceSpans : List ResourceSpans
  deriving DecidableEq

/-- The spans of a request, in order. -/
def ExportTraceServiceRequest.spans (r : ExportTraceServiceRequest) : List Span :=
  r.resourceSpans.flatMap fun rs => rs.scopeSpans.flatMap ScopeSpans.spans

/-! ## Encoding -/

def AnyValue.fields : AnyValue → List Entry
  | .stringValue v => [⟨1, .bytes v⟩]
  | .boolValue v => [⟨2, .varint (if v then 1 else 0)⟩]
  | .intValue v => [⟨3, .varint v.toUInt64.toNat⟩]
  | .doubleValue bits => [⟨4, .fixed64 bits⟩]

def KeyValue.fields (m : KeyValue) : List Entry :=
  scalarBytes 1 m.key ++ messages 2 [encode m.value.fields]

def Event.fields (m : Event) : List Entry :=
  scalarFixed64 1 m.timeUnixNano ++ (scalarBytes 2 m.name ++
    (messages 3 (m.attributes.map fun a => encode a.fields) ++
      scalarVarint 4 m.droppedAttributesCount))

def Status.fields (m : Status) : List Entry :=
  scalarBytes 2 m.message ++ scalarVarint 3 m.code.code

def Span.fields (m : Span) : List Entry :=
  scalarBytes 1 m.traceId ++ (scalarBytes 2 m.spanId ++ (scalarBytes 4 m.parentSpanId ++
    (scalarBytes 5 m.name ++ (scalarVarint 6 m.kind.code ++
      (scalarFixed64 7 m.startTimeUnixNano ++ (scalarFixed64 8 m.endTimeUnixNano ++
        (messages 9 (m.attributes.map fun a => encode a.fields) ++
          (scalarVarint 10 m.droppedAttributesCount ++
            (messages 11 (m.events.map fun e => encode e.fields) ++
              (scalarVarint 12 m.droppedEventsCount ++
                messages 15 [encode m.status.fields]))))))))))

def InstrumentationScope.fields (m : InstrumentationScope) : List Entry :=
  scalarBytes 1 m.name ++ scalarBytes 2 m.version

def ScopeSpans.fields (m : ScopeSpans) : List Entry :=
  messages 1 [encode m.scope.fields] ++ messages 2 (m.spans.map fun s => encode s.fields)

def Resource.fields (m : Resource) : List Entry :=
  messages 1 (m.attributes.map fun a => encode a.fields)

def ResourceSpans.fields (m : ResourceSpans) : List Entry :=
  messages 1 [encode m.resource.fields] ++
    messages 2 (m.scopeSpans.map fun s => encode s.fields)

def ExportTraceServiceRequest.fields (m : ExportTraceServiceRequest) : List Entry :=
  messages 1 (m.resourceSpans.map fun s => encode s.fields)

/-- The proto3 encoding of a request. -/
def ExportTraceServiceRequest.encode (m : ExportTraceServiceRequest) : Bytes :=
  Wire.encode m.fields

/-! ## Decoding -/

/-- The entries of the embedded message in a field; none if the field is absent. -/
def embedded (num : Nat) (es : List Entry) : Option (List Entry) :=
  decode (asBytes (all num es).getLast?)

/-- The embedded messages of a repeated field. -/
def repeated {α : Type} (num : Nat) (ofFields : List Entry → Option α) (es : List Entry) :
    Option (List α) :=
  (all num es).mapM fun v => (decode (asBytes (some v))).bind ofFields

def AnyValue.ofFields (es : List Entry) : Option AnyValue :=
  match es.getLast? with
  | some ⟨1, .bytes v⟩ => some (.stringValue v)
  | some ⟨2, .varint n⟩ => some (.boolValue (n ≠ 0))
  | some ⟨3, .varint n⟩ => some (.intValue (UInt64.ofNat n).toInt64)
  | some ⟨4, .fixed64 bits⟩ => some (.doubleValue bits)
  | _ => none

def KeyValue.ofFields (es : List Entry) : Option KeyValue := do
  let value ← (embedded 2 es).bind AnyValue.ofFields
  some { key := asBytes (all 1 es).getLast?, value := value }

def Event.ofFields (es : List Entry) : Option Event := do
  let attributes ← repeated 3 KeyValue.ofFields es
  some { timeUnixNano := asFixed64 (all 1 es).getLast?
         name := asBytes (all 2 es).getLast?
         attributes := attributes
         droppedAttributesCount := asVarint (all 4 es).getLast? }

def Status.ofFields (es : List Entry) : Option Status := do
  let code ← StatusCode.ofCode (asVarint (all 3 es).getLast?)
  some { message := asBytes (all 2 es).getLast?, code := code }

def Span.ofFields (es : List Entry) : Option Span := do
  let kind ← SpanKind.ofCode (asVarint (all 6 es).getLast?)
  let attributes ← repeated 9 KeyValue.ofFields es
  let events ← repeated 11 Event.ofFields es
  let status ← (embedded 15 es).bind Status.ofFields
  some { traceId := asBytes (all 1 es).getLast?
         spanId := asBytes (all 2 es).getLast?
         parentSpanId := asBytes (all 4 es).getLast?
         name := asBytes (all 5 es).getLast?
         kind := kind
         startTimeUnixNano := asFixed64 (all 7 es).getLast?
         endTimeUnixNano := asFixed64 (all 8 es).getLast?
         attributes := attributes
         droppedAttributesCount := asVarint (all 10 es).getLast?
         events := events
         droppedEventsCount := asVarint (all 12 es).getLast?
         status := status }

def InstrumentationScope.ofFields (es : List Entry) : Option InstrumentationScope :=
  some { name := asBytes (all 1 es).getLast?, version := asBytes (all 2 es).getLast? }

def ScopeSpans.ofFields (es : List Entry) : Option ScopeSpans := do
  let scope ← (embedded 1 es).bind InstrumentationScope.ofFields
  let spans ← repeated 2 Span.ofFields es
  some { scope := scope, spans := spans }

def Resource.ofFields (es : List Entry) : Option Resource := do
  let attributes ← repeated 1 KeyValue.ofFields es
  some { attributes := attributes }

def ResourceSpans.ofFields (es : List Entry) : Option ResourceSpans := do
  let resource ← (embedded 1 es).bind Resource.ofFields
  let scopeSpans ← repeated 2 ScopeSpans.ofFields es
  some { resource := resource, scopeSpans := scopeSpans }

def ExportTraceServiceRequest.ofFields (es : List Entry) : Option ExportTraceServiceRequest := do
  let resourceSpans ← repeated 1 ResourceSpans.ofFields es
  some { resourceSpans := resourceSpans }

/-- The request that bytes encode. -/
def ExportTraceServiceRequest.decode (bs : Bytes) : Option ExportTraceServiceRequest :=
  (Wire.decode bs).bind ofFields

end OtelTracing.Proto
