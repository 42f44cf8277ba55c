import OtelTracing.Sqlite

/-!
# The store over time

The tables have no foreign keys: what they promise each other rests on the order in which the sink
inserts and deletes rows. Here the sink runs with statements that fail without effect, and with
prunes at any time.
-/

namespace OtelTracing

open ByteMem Txn

/-- A step of the sink: a call of a callback, or a prune. -/
inductive StoreOp
  | call (c : SinkCall)
  | prune (answers : List Answer)

def SinkCall.answers : SinkCall → List Answer
  | .begin answers => answers
  | .span _ answers => answers
  | .finish answers => answers
  | .setMaxSpans _ => []

def StoreOp.answers : StoreOp → List Answer
  | .call c => c.answers
  | .prune answers => answers

def storeStep (service : Bytes) (st : OtelSqlite) : StoreOp → Except Fault OtelSqlite
  | .call c => sqliteStep service st c
  | .prune answers => .ok (otelSqlitePrune (st.expect answers))

/-- Statements succeed, or they fail without effect. -/
def storeMachine (service : Bytes) : Machine OtelSqlite StoreOp Fault where
  enabled _ op := Answer.rolledBack ∉ op.answers
  step := storeStep service

/-- The rows of the store hang together: the ids of the spans are an interval, and every other row
refers to the row of the span or of the event that it was recorded on. -/
structure Store.Intact (db : Store) : Prop where
  contiguous : ∃ lo, 1 ≤ lo ∧ db.spans.map SpanRow.id = List.range' lo db.spans.length
  eventIds : (db.spanEvents.map EventRow.id).Nodup
  spanAttrs : ∀ a ∈ db.spanAttrs, ∃ r ∈ db.spans, r.id = a.owner ∧ r.origin = a.origin
  spanEvents : ∀ e ∈ db.spanEvents, ∃ r ∈ db.spans, r.id = e.span ∧ r.origin = e.spanOrigin
  eventAttrs : ∀ a ∈ db.spanEventAttrs, ∃ e ∈ db.spanEvents, e.id = a.owner ∧ e.origin = a.origin

/-- The store is intact, and no two spans and no two events have the same number. -/
structure OtelSqlite.Sound (st : OtelSqlite) : Prop where
  intact : st.conn.data.Intact
  spanOrigins : (st.conn.data.spans.map SpanRow.origin).Nodup
  spanWritten : ∀ r ∈ st.conn.data.spans, r.origin < st.written
  eventOrigins : (st.conn.data.spanEvents.map EventRow.origin).Nodup
  eventWritten : ∀ e ∈ st.conn.data.spanEvents, e.origin < st.written

/-- The store after a prune that deletes the spans up to the id `cutoff` with what is below them. -/
def Store.pruned (db : Store) (cutoff : Int) : Store where
  spans := db.spans.filter fun r => cutoff < r.id
  spanAttrs := db.spanAttrs.filter fun a => cutoff < a.owner
  spanEvents := db.spanEvents.filter fun e => cutoff < e.span
  spanEventAttrs := db.spanEventAttrs.filter fun a =>
    !db.spanEvents.any fun e => decide ((e.span : Int) ≤ cutoff) && e.id == a.owner

/-- Of the spans of `db` the store `db'` has those with fewer than `m` newer ones, which are the
newest `m` if there are as many, and of the other rows it has those below them. -/
structure Store.Retains (db db' : Store) (m : Nat) : Prop where
  spans : db'.spans = db.spans.filter fun r => (db.spans.filter fun r' => r.id < r'.id).length < m
  length : db'.spans.length = min db.spans.length m
  spanAttrs : db'.spanAttrs = db.spanAttrs.filter fun a => a.owner ∈ db'.spans.map SpanRow.id
  spanEvents : db'.spanEvents = db.spanEvents.filter fun e => e.span ∈ db'.spans.map SpanRow.id
  spanEventAttrs : db'.spanEventAttrs =
    db.spanEventAttrs.filter fun a => a.owner ∈ db'.spanEvents.map EventRow.id

end OtelTracing
