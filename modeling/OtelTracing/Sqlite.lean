import OtelTracing.Otlp
import OtelTracing.Lib.Machine
import OtelTracing.Lib.Txn

/-!
# The SQLite sink

The callbacks of `otel_sqlite.c` and the store that they write. SQLite is taken as documented: a row
gets the id after the largest one in its table, every statement is atomic, and a failing statement
may roll the open transaction back. The checkpoint of the write-ahead log in `otelSqliteEnd` does not
change the tables, and is left out.

The number of the pass, `inPass`, `refused` and `inserted` are not in the source. `refused` counts
the `BEGIN`s that failed since a transaction was open, and `inserted` records for each inserted row
the pass and the pass that had begun the open transaction. Neither are the origins of the rows: the
spans and events that are inserted are numbered by `written`, and a row carries the number of the
span or of the event that it was recorded on.
-/

namespace OtelTracing

open ByteMem Txn

/-! ## The store -/

structure SpanRow where
  id : Nat
  origin : Nat
  traceId : Bytes
  spanId : Bytes
  parentId : Option Bytes
  service : Bytes
  name : Bytes
  kind : Nat
  statusCode : Nat
  statusMessage : Bytes
  startUnixNs : Int64
  endUnixNs : Int64
  durationNs : Int64
  droppedAttrs : Nat
  droppedEvents : Nat
  deriving DecidableEq

/-- A row of `span_attrs` or of `span_event_attrs`; `owner` is the id of the span or of the event.
The real value is given by its bits. -/
structure AttrRow where
  owner : Nat
  origin : Nat
  key : Bytes
  type : Nat
  sVal : Option Bytes
  iVal : Option Int64
  dVal : Option UInt64
  deriving DecidableEq

structure EventRow where
  id : Nat
  origin : Nat
  span : Nat
  spanOrigin : Nat
  name : Bytes
  timeUnixNs : Int64
  deriving DecidableEq

structure Store where
  spans : List SpanRow
  spanAttrs : List AttrRow
  spanEvents : List EventRow
  spanEventAttrs : List AttrRow
  deriving DecidableEq

/-- The store that the schema creates. -/
def Store.empty : Store := ⟨[], [], [], []⟩

def maxId (ids : List Nat) : Nat := ids.foldr max 0

/-- The id of the next row of `spans`. -/
def Store.nextSpan (db : Store) : Nat := maxId (db.spans.map SpanRow.id) + 1

def Store.nextEvent (db : Store) : Nat := maxId (db.spanEvents.map EventRow.id) + 1

/-- The two tables of attributes. -/
inductive AttrTable
  | span
  | event

def Store.addAttr (db : Store) (row : AttrRow) : AttrTable → Store
  | .span => { db with spanAttrs := db.spanAttrs ++ [row] }
  | .event => { db with spanEventAttrs := db.spanEventAttrs ++ [row] }

/-! ## Rows -/

def hexd : Bytes := ascii "0123456789abcdef"

def otelSqliteHex (bs : Bytes) : Bytes :=
  bs.flatMap fun (b : UInt8) => [hexd.getD (b >>> 4).toNat 0, hexd.getD (b &&& 0xf).toNat 0]

/-- SQLite stores a NaN as `NULL`. -/
def sqliteReal (bits : UInt64) : Option UInt64 :=
  if bits &&& 0x7fffffffffffffff > 0x7ff0000000000000 then none else some bits

def attrRow (owner origin : Nat) (s : OtelSpan) (a : Nat) : AttrRow :=
  let row : AttrRow :=
    { owner := owner, origin := origin, key := (otelAttrKey s a).bytes s
      type := s.get a OtelAttr.type
      sVal := none, iVal := none, dVal := none }
  match OtelAttrType.ofCode (s.get a OtelAttr.type) with
  | some .str => { row with sVal := some ((otelAttrStrval s a).bytes s) }
  | some .i64 => { row with iVal := some (UInt64.ofNat (s.get a OtelAttr.v)).toInt64 }
  | some .u64 => { row with iVal := some (UInt64.ofNat (s.get a OtelAttr.v)).toInt64 }
  | some .f64 => { row with dVal := sqliteReal (UInt64.ofNat (s.get a OtelAttr.v)) }
  | some .bool => { row with iVal := some (if s.get a OtelAttr.vb ≠ 0 then 1 else 0) }
  | none => row

def spanRow (service : Bytes) (s : OtelSpan) (id origin : Nat) : SpanRow where
  id := id
  origin := origin
  traceId := otelSqliteHex s.traceId.toList
  spanId := otelSqliteHex (le 8 s.spanId.toNat)
  parentId := if s.parentId ≠ 0 then some (otelSqliteHex (le 8 s.parentId.toNat)) else none
  service := service
  name := (otelSpanName s).bytes s
  kind := s.kind.toNat
  statusCode := s.status.toNat
  statusMessage := (otelSpanStatusMessage s).bytes s
  startUnixNs := s.startUnixNs.toInt64
  endUnixNs := s.endUnixNs.toInt64
  durationNs := (s.endUnixNs - s.startUnixNs).toInt64
  droppedAttrs := s.droppedAttrs
  droppedEvents := s.droppedEvents

def eventRow (span spanOrigin : Nat) (s : OtelSpan) (e id origin : Nat) : EventRow where
  id := id
  origin := origin
  span := span
  spanOrigin := spanOrigin
  name := (otelEventName s e).bytes s
  timeUnixNs := (UInt64.ofNat (s.get e OtelEvent.timeUnixNs)).toInt64

/-! ## The callbacks -/

/-- Run a checkpoint and a prune every this many commits. -/
def otelSqliteMaintEvery : UInt64 := 64

/-- The part of the sink's state `S` that its callbacks use, with the connection. -/
structure OtelSqlite where
  conn : Conn Nat Store
  curSpan : Nat
  inTxn : Bool
  commits : UInt64
  maxSpans : UInt64
  pass : Nat
  inPass : Bool
  refused : Nat
  inserted : List (Nat × Option Nat)
  written : Nat

/-- The sink after it was opened on a store. -/
def OtelSqlite.opened (db : Store) : OtelSqlite where
  conn := { data := db, txn := none, answers := [] }
  curSpan := 0
  inTxn := false
  commits := 0
  maxSpans := 0
  pass := 0
  inPass := false
  refused := 0
  inserted := []
  written := 0

/-- Step a prepared `INSERT`; the flag says whether it succeeded. -/
def OtelSqlite.insert (st : OtelSqlite) (f : Store → Store) : OtelSqlite × Bool :=
  let r := st.conn.exec f
  ({ st with
    conn := r.1
    inserted := if r.2 then st.inserted ++ [(st.pass, st.conn.owner)] else st.inserted }, r.2)

/-- The result of the statement is ignored. -/
def otelSqliteInsertAttr (table : AttrTable) (owner origin : Nat) (s : OtelSpan) (st : OtelSqlite)
    (a : Nat) : OtelSqlite :=
  (st.insert fun db => db.addAttr (attrRow owner origin s a) table).1

def otelSqliteBegin (st : OtelSqlite) : OtelSqlite :=
  let r := st.conn.beginTxn (st.pass + 1)
  { st with
    conn := r.1, inTxn := r.2, pass := st.pass + 1
    refused := if st.conn.owner.isSome then st.refused + 1 else st.refused }

/-- One turn of the event loop: an event that cannot be inserted is skipped with its attributes. -/
def otelSqliteEvent (s : OtelSpan) (spanOrigin : Nat) (st : OtelSqlite) (e : Nat) :
    Except Fault OtelSqlite :=
  let id := st.conn.data.nextEvent
  let origin := st.written
  let r := st.insert fun db =>
    { db with
      spanEvents := db.spanEvents ++ [eventRow st.curSpan spanOrigin s e db.nextEvent origin] }
  if !r.2 then
    .ok r.1
  else do
    let attrs ← visited (walkAttrs s (otelEventAttrFirst s e))
    pure (attrs.foldl (otelSqliteInsertAttr .event id origin s)
      { r.1 with written := origin + 1 })

def otelSqliteSpan (service : Bytes) (st : OtelSqlite) (s : OtelSpan) :
    Except Fault OtelSqlite :=
  if !st.inTxn then
    .ok st
  else
    let id := st.conn.data.nextSpan
    let origin := st.written
    let r := st.insert fun db =>
      { db with spans := db.spans ++ [spanRow service s db.nextSpan origin] }
    if !r.2 then
      .ok r.1
    else do
      let attrs ← visited (walkAttrs s (otelAttrFirst s))
      let st := attrs.foldl (otelSqliteInsertAttr .span id origin s)
        { r.1 with curSpan := id, written := origin + 1 }
      let events ← visited (walkEvents s)
      events.foldlM (otelSqliteEvent s origin) st

/-- The statements of `otelSqlitePrune` after the `SELECT`. -/
def pruneStatements (cutoff : Int64) : List (Store → Store) :=
  let old (id : Nat) : Bool := (id : Int) ≤ cutoff.toInt
  [fun db => { db with spanEventAttrs := db.spanEventAttrs.filter fun row =>
      !db.spanEvents.any fun e => old e.span && e.id == row.owner },
    fun db => { db with spanAttrs := db.spanAttrs.filter fun row => !old row.owner },
    fun db => { db with spanEvents := db.spanEvents.filter fun e => !old e.span },
    fun db => { db with spans := db.spans.filter fun row => !old row.id }]

def otelSqlitePrune (st : OtelSqlite) : OtelSqlite :=
  if st.maxSpans = 0 then
    st
  else
    -- preparing and stepping the `SELECT` may fail, too
    let r := st.conn.exec id
    if !r.2 then
      { st with conn := r.1 }
    else
      let r' := r.1.exec id
      let maxid : Int64 := if r'.2 then Int64.ofNat (maxId (r.1.data.spans.map SpanRow.id)) else 0
      let cutoff := maxid - st.maxSpans.toInt64
      if cutoff ≤ 0 then
        { st with conn := r'.1 }
      else
        { st with conn := (r'.1.execAll (pruneStatements cutoff)).1 }

def otelSqliteEnd (st : OtelSqlite) : OtelSqlite :=
  if !st.inTxn then
    st
  else
    let st := { st with conn := st.conn.commit.1, inTxn := false, commits := st.commits + 1 }
    if st.commits % otelSqliteMaintEvery = 0 then otelSqlitePrune st else st

/-! ## The sink as a machine -/

/-- A call of a callback, with the answers to the statements that it executes, or a change of the
retention limit. -/
inductive SinkCall
  | begin (answers : List Answer)
  | span (s : OtelSpan) (answers : List Answer)
  | finish (answers : List Answer)
  | setMaxSpans (n : UInt64)

section
variable (service : Bytes)

def OtelSqlite.expect (st : OtelSqlite) (answers : List Answer) : OtelSqlite :=
  { st with conn := { st.conn with answers := answers } }

def sqliteStep (st : OtelSqlite) : SinkCall → Except Fault OtelSqlite
  | .begin answers => .ok { otelSqliteBegin (st.expect answers) with inPass := true }
  | .span s answers => otelSqliteSpan service (st.expect answers) s
  | .finish answers => .ok { otelSqliteEnd (st.expect answers) with inPass := false }
  | .setMaxSpans n => .ok { st with maxSpans := n }

/-- The callbacks bracket passes. -/
def SinkCall.InOrder (st : OtelSqlite) : SinkCall → Prop
  | .begin _ => st.inPass = false
  | .span _ _ => st.inPass = true
  | .finish _ => st.inPass = true
  | .setMaxSpans _ => True

/-- A call in its place, answered as often as it executes a statement. -/
def SinkCall.Possible (st : OtelSqlite) (call : SinkCall) : Prop :=
  call.InOrder st ∧ ∀ st', sqliteStep service st call = .ok st' → st'.conn.answers = []

def sqliteMachine : Machine OtelSqlite SinkCall Fault where
  enabled := SinkCall.Possible service
  step := sqliteStep service

end

/-! ## Transactions -/

/-- The flag says whether the pass has its transaction open, and all went by the flag: no `BEGIN` was
refused since an earlier pass had left its transaction open, and every row was inserted in the
transaction of its pass. -/
structure OtelSqlite.Synced (st : OtelSqlite) : Prop where
  flag : st.inTxn = true ↔ st.conn.owner = some st.pass
  current : ∀ n, st.conn.owner = some n → n = st.pass
  accepted : st.refused = 0
  inside : ∀ e ∈ st.inserted, e.2 = some e.1

/-- The database does not take the transaction away from a span callback, nor does it keep the
transaction that an end callback wants to commit. -/
def Contained (st : OtelSqlite) : SinkCall → Prop
  | .span _ answers => st.inTxn = true → Answer.rolledBack ∉ answers
  | .finish answers => st.inTxn = true → answers.head? = some .failed →
      Answer.rolledBack ∈ answers
  | _ => True

end OtelTracing
