import OtelTracing.Retention
import OtelTracing.Export

/-!
# The rows of a span

What the sink writes for a span, in terms of what an exporter reads from the span (`putSpan`; it
knows nothing of offsets or list walks), and how the rows are read: ids by decoding the hex digits,
kinds and status codes by the functions of `otel-trace.c`, attribute values by their type column.
`Describes` compares the rows of a span with a message, and `Encodes` says which message the encoder
builds.
-/

namespace OtelTracing

open ByteMem Txn

/-! ## What the sink writes -/

/-- The type column of a value. -/
def AttrValue.type : AttrValue → OtelAttrType
  | .str _ => .str
  | .i64 _ => .i64
  | .u64 _ => .u64
  | .f64 _ => .f64
  | .bool _ => .bool

/-- The row of an attribute. -/
def AttrView.row (owner origin : Nat) (a : AttrView) : AttrRow :=
  let row : AttrRow :=
    { owner := owner, origin := origin, key := a.key, type := a.value.type.code
      sVal := none, iVal := none, dVal := none }
  match a.value with
  | .str v => { row with sVal := some v }
  | .i64 v => { row with iVal := some v }
  | .u64 v => { row with iVal := some v.toInt64 }
  | .f64 bits => { row with dVal := sqliteReal bits }
  | .bool v => { row with iVal := some (if v then 1 else 0) }

/-- The row of an event. -/
def EventView.row (span spanOrigin id origin : Nat) (e : EventView) : EventRow where
  id := id
  origin := origin
  span := span
  spanOrigin := spanOrigin
  name := e.name
  timeUnixNs := e.time.toInt64

/-- The row of the span `s`, whose name, status and drop counters are those of `v`. -/
def SpanView.row (service : Bytes) (s : OtelSpan) (v : SpanView) (id origin : Nat) : SpanRow where
  id := id
  origin := origin
  traceId := otelSqliteHex s.traceId.toList
  spanId := otelSqliteHex (le 8 s.spanId.toNat)
  parentId := if s.parentId ≠ 0 then some (otelSqliteHex (le 8 s.parentId.toNat)) else none
  service := service
  name := v.name
  kind := s.kind.toNat
  statusCode := v.status.toNat
  statusMessage := v.message
  startUnixNs := s.startUnixNs.toInt64
  endUnixNs := s.endUnixNs.toInt64
  durationNs := (s.endUnixNs - s.startUnixNs).toInt64
  droppedAttrs := v.droppedAttrs
  droppedEvents := v.droppedEvents

def putAttr (table : AttrTable) (owner origin : Nat) (st : OtelSqlite) (a : AttrView) :
    OtelSqlite :=
  (st.insert fun db => db.addAttr (a.row owner origin) table).1

def putEvent (spanOrigin : Nat) (st : OtelSqlite) (e : EventView) : OtelSqlite :=
  let id := st.conn.data.nextEvent
  let origin := st.written
  let r := st.insert fun db =>
    { db with spanEvents := db.spanEvents ++ [e.row st.curSpan spanOrigin db.nextEvent origin] }
  if r.2 then e.attrs.foldl (putAttr .event id origin) { r.1 with written := origin + 1 }
  else r.1

/-- What `otelSqliteSpan` does with the span `s`, whose annotations are `v`. -/
def putSpan (service : Bytes) (s : OtelSpan) (v : SpanView) (st : OtelSqlite) : OtelSqlite :=
  if st.inTxn then
    let id := st.conn.data.nextSpan
    let origin := st.written
    let r := st.insert fun db =>
      { db with spans := db.spans ++ [v.row service s db.nextSpan origin] }
    if r.2 then
      v.events.foldl (putEvent origin)
        (v.attrs.foldl (putAttr .span id origin) { r.1 with curSpan := id, written := origin + 1 })
    else r.1
  else
    st

/-! ## Reading the rows -/

/-- The value of a hex digit. -/
def unhexd (c : UInt8) : Option UInt8 :=
  if c ∈ hexd then some (UInt8.ofNat (hexd.idxOf c)) else none

def unhex : Bytes → Option Bytes
  | [] => some []
  | [_] => none
  | hi :: lo :: bs => do
    let hi ← unhexd hi
    let lo ← unhexd lo
    let bs ← unhex bs
    some ((hi <<< 4 ||| lo) :: bs)

/-- `kind_name` of `otel-trace.c` -/
def kindName (k : Int) : Bytes :=
  match k with
  | 1 => ascii "server"
  | 2 => ascii "client"
  | 3 => ascii "producer"
  | 4 => ascii "consumer"
  | _ => ascii "internal"

/-- `status_name` of `otel-trace.c` -/
def statusName (s : Int) : Bytes :=
  match s with
  | 1 => ascii "ok"
  | 2 => ascii "ERROR"
  | _ => ascii "unset"

/-- The name of the enum value in `trace.proto`. -/
def Proto.SpanKind.name : Proto.SpanKind → Bytes
  | .unspecified => ascii "SPAN_KIND_UNSPECIFIED"
  | .internal => ascii "SPAN_KIND_INTERNAL"
  | .server => ascii "SPAN_KIND_SERVER"
  | .client => ascii "SPAN_KIND_CLIENT"
  | .producer => ascii "SPAN_KIND_PRODUCER"
  | .consumer => ascii "SPAN_KIND_CONSUMER"

/-- The name of the enum value in `trace.proto`. -/
def Proto.StatusCode.name : Proto.StatusCode → Bytes
  | .unset => ascii "STATUS_CODE_UNSET"
  | .ok => ascii "STATUS_CODE_OK"
  | .error => ascii "STATUS_CODE_ERROR"

/-- ASCII letters in upper case. -/
def upper (bs : Bytes) : Bytes := bs.map fun b => if 97 ≤ b ∧ b ≤ 122 then b - 32 else b

/-- The value that the columns of a row stand for; columns of other types must be `NULL`. -/
def AttrRow.value (row : AttrRow) : Option Proto.AnyValue :=
  match OtelAttrType.ofCode row.type, row.sVal, row.iVal, row.dVal with
  | some .str, some v, none, none => some (.stringValue v)
  | some .i64, none, some v, none => some (.intValue v)
  | some .u64, none, some v, none => some (.intValue v)
  | some .f64, none, none, some bits => some (.doubleValue bits)
  | some .bool, none, some v, none => some (.boolValue (v ≠ 0))
  | _, _, _, _ => none

/-- The attribute that a row stands for. -/
def AttrRow.pair (row : AttrRow) : Option Proto.KeyValue :=
  row.value.map fun v => { key := row.key, value := v }

/-! ## Comparing rows and messages -/

/-- An integer column holds the 64 bits of a time; as numbers they are the same below `2 ^ 63`. -/
structure SameTime (column : Int64) (time : UInt64) : Prop where
  bits : column.toUInt64 = time
  number : column.toInt = time.toNat ↔ time.toNat < 2 ^ 63

/-- The columns of a row of `spans` say what the message says. -/
structure SpanRow.Agrees (row : SpanRow) (m : Proto.Span) : Prop where
  traceId : unhex row.traceId = some m.traceId
  spanId : unhex row.spanId = some m.spanId
  parentId : ∀ hex, row.parentId = some hex → unhex hex = some m.parentSpanId
  parentId_null : row.parentId = none ↔ m.parentSpanId = []
  name : row.name = m.name
  kind : ascii "SPAN_KIND_" ++ upper (kindName row.kind) = m.kind.name
  statusCode : ascii "STATUS_CODE_" ++ upper (statusName row.statusCode) = m.status.code.name
  statusMessage : row.statusMessage = m.status.message
  startTime : SameTime row.startUnixNs m.startTimeUnixNano
  endTime : SameTime row.endUnixNs m.endTimeUnixNano
  droppedAttrs : row.droppedAttrs = m.droppedAttributesCount
  droppedEvents : row.droppedEvents = m.droppedEventsCount

/-- The row `e`, with the attributes below it, says what the event says. -/
structure EventRow.Agrees (rows : Store) (e : EventRow) (ev : Proto.Event) : Prop where
  name : e.name = ev.name
  time : SameTime e.timeUnixNs ev.timeUnixNano
  attrs : (rows.spanEventAttrs.filter fun a => a.owner = e.id).map AttrRow.pair =
    ev.attributes.map some

/-- The rows are those of one span, and they say what the message says. -/
structure Describes (rows : Store) (row : SpanRow) (m : Proto.Span) : Prop where
  spans : rows.spans = [row]
  agrees : row.Agrees m
  attr_owner : ∀ a ∈ rows.spanAttrs, a.owner = row.id
  attrs : rows.spanAttrs.map AttrRow.pair = m.attributes.map some
  event_span : ∀ e ∈ rows.spanEvents, e.span = row.id
  event_ids : (rows.spanEvents.map EventRow.id).Nodup
  events : List.Forall₂ (EventRow.Agrees rows) rows.spanEvents m.events
  event_attr_owner : ∀ a ∈ rows.spanEventAttrs, a.owner ∈ rows.spanEvents.map EventRow.id

/-- The store `db` with `rows` inserted after its own. -/
def Store.append (db rows : Store) : Store where
  spans := db.spans ++ rows.spans
  spanAttrs := db.spanAttrs ++ rows.spanAttrs
  spanEvents := db.spanEvents ++ rows.spanEvents
  spanEventAttrs := db.spanEventAttrs ++ rows.spanEventAttrs

/-- The rows of `db'` after those of `db`. -/
def Store.since (db' db : Store) : Store where
  spans := db'.spans.drop db.spans.length
  spanAttrs := db'.spanAttrs.drop db.spanAttrs.length
  spanEvents := db'.spanEvents.drop db.spanEvents.length
  spanEventAttrs := db'.spanEventAttrs.drop db.spanEventAttrs.length

/-- The encoder's message for the span `s` is `m`, whatever batch with room the span is added to and
wherever the span is, as long as it is not overwritten. -/
def Encodes (s : OtelSpan) (m : Proto.Span) : Prop :=
  ∀ (P : Type) (mem : P → OtelSpan) (p : P) (o : OtelOtlp P), mem p = s →
    o.nSpans ≤ otelBatchSpans → otlpFull s o = .ok false →
    ∃ o', otlpFill mem o p = .ok o' ∧
      ∀ mem' : P → OtelSpan, mem' p = s → otlpSpanMessage mem' o' o.nSpans = m

end OtelTracing
