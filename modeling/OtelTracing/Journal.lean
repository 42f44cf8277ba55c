import OtelTracing.Delivery
import OtelTracing.Attach
import OtelTracing.Rows

/-!
# The journal of the SQLite store

What the store holds of the spans that a process gives to its sink. The callbacks run one after the
other, since the passes that call them hold a lock, and their statements succeed. A crash leaves the
data of the last commit.
-/

namespace OtelTracing

open ByteMem Txn

/-- The callbacks among the outputs. -/
def sinkCalls (out : List Output) : List SinkCall :=
  out.filterMap fun
    | .sinkBegin => some (.begin [])
    | .sinkSpan s => some (.span s [])
    | .sinkEnd => some (.finish [])
    | .transport _ => none

/-- The spans that were given to the sink in passes that called its `end`, and those that were given
to it since. -/
structure Journal where
  closed : List OtelSpan
  current : List OtelSpan

def Journal.output (j : Journal) : Output → Journal
  | .sinkSpan s => { j with current := j.current ++ [s] }
  | .sinkEnd => { closed := j.closed ++ j.current, current := [] }
  | _ => j

def journal (out : List Output) : Journal := out.foldl Journal.output ⟨[], []⟩

/-- The store is `db` with the rows of the spans after its own, span by span; the rows of a span are
what an exporter reads from it, and say what the encoder's message for it says. -/
inductive Store.Holds (service : Bytes) (db : Store) : List OtelSpan → Store → Prop
  | nil : Store.Holds service db [] db
  | snoc {ss : List OtelSpan} {db' rows : Store} {s : OtelSpan} {v : SpanView} {id origin : Nat}
      (h : Store.Holds service db ss db') (hread : readSpan s = some v)
      (hencodes : Encodes s (spanProto s v))
      (hdescribes : Describes rows (v.row service s id origin) (spanProto s v)) :
      Store.Holds service db (ss ++ [s]) (db'.append rows)

/-- The callbacks that the process has called lead from the store `db` to one that durably holds the
spans of the passes that are over, and that holds those of the pass that is in progress as well. -/
structure Process.Recorded (service : Bytes) (db : Store) (σ : Process) (st : OtelSqlite) : Prop where
  run : (sqliteMachine service).Run (OtelSqlite.opened db) (sinkCalls σ.shared.tracer.out) st
  durable : db.Holds service (journal σ.shared.tracer.out).closed st.conn.durable
  data : db.Holds service
    ((journal σ.shared.tracer.out).closed ++ (journal σ.shared.tracer.out).current) st.conn.data

/-- The store is `db` with the rows of the messages `ps` after its own, message by message. -/
inductive Store.Mirrors (db : Store) : List Proto.Span → Store → Prop
  | nil : Store.Mirrors db [] db
  | snoc {ps : List Proto.Span} {db' rows : Store} {row : SpanRow} {p : Proto.Span}
      (h : Store.Mirrors db ps db') (hdescribes : Describes rows row p) :
      Store.Mirrors db (ps ++ [p]) (db'.append rows)

/-! ## Committed transactions -/

/-- The transaction that the call commits, as the rows that were inserted in it. -/
def SinkCall.commits (st : OtelSqlite) : SinkCall → List Store
  | .finish answers =>
    if st.inTxn && (st.expect answers).conn.commit.2 then [st.conn.data.since st.conn.durable]
    else []
  | _ => []

/-- The rows of the transactions that the calls commit, transaction by transaction. -/
def committedRows (service : Bytes) (st : OtelSqlite) : List SinkCall → List Store
  | [] => []
  | call :: calls =>
    call.commits st ++
      match sqliteStep service st call with
      | .ok st' => committedRows service st' calls
      | .error _ => []

/-! ## Spans that were accepted -/

/-- The contexts are those that are there. -/
structure Process.Lists (σ : Process) (as : List CtxAddr) : Prop where
  nodup : as.Nodup
  live : ∀ a, a ∈ as ↔ (σ.shared.tracer.ctxs a).isSome

/-- The spans that were accepted into the rings of the contexts, and into rings that were freed. -/
def Process.accepted (σ : Process) (as : List CtxAddr) : List OtelSpan :=
  as.flatMap (fun a => (σ.shared.ledger a).staged) ++ σ.shared.freed.flatMap Ledger.staged

/-- The sink `sink` is attached, and it has been called with nothing. -/
structure Process.Fresh (sink : OtelSpanSink) (σ : Process) : Prop where
  enabled : σ.shared.tracer.enabled = true
  sink : σ.shared.tracer.sink = some sink
  sinkPresent : σ.shared.tracer.sinkPresent = true
  calls : sinkCalls σ.shared.tracer.out = []

/-- A thread at the place runs `otel_sqlite_close`, whose drain is not over. -/
def Pc.closing : Pc → Bool
  | .closeTest | .closeLock | .closeClear | .closeSignal | .closeUnlock | .closeJoin => true
  | .drainEnabled k | .drainLock k | .drainRdlock k | .drainPass k .. => k = .close
  | _ => false

end OtelTracing
