import OtelTracing.Lifecycle

/-!
# Attaching the SQLite store

`otel_sqlite_open` and `otel_sqlite_close` with the part of `S` that they use besides its statements,
each taken as one step. The environment decides which step of an open fails. Opening a store that is
open already fails at once; every other failure goes through `otelSqliteClose`.
-/

namespace OtelTracing

open ByteMem

/-- The part of `S` that opening and closing use; `db` says whether there is a handle. -/
structure OtelSqliteStore where
  db : Bool
  maxSpans : UInt64
  intervalMs : UInt32
  running : Bool
  haveThread : Bool
  deriving DecidableEq

/-- `S` after `memset`. -/
def OtelSqliteStore.zero : OtelSqliteStore := ⟨false, 0, 0, false, false⟩

/-- The tracer with the SQLite store. -/
structure Program where
  tracer : Tracer
  store : OtelSqliteStore

def Program.boot : Program := ⟨Tracer.boot, OtelSqliteStore.zero⟩

/-- `S.sink` once it is filled in -/
def otelSqliteSink : OtelSpanSink := ⟨true, true, true⟩

def otelSqliteDefaultIntervalMs : UInt32 := 250

/-- The step of `otel_sqlite_open` that fails; `sqlite3_open` may leave a handle all the same. -/
inductive OpenStep
  | open (handle : Bool)
  | schema
  | prepare
  | thread
  deriving DecidableEq

section
variable (pack : Proto.ExportTraceServiceRequest → Bytes)

/-- The flusher is joined, if there is one, and what is left in the rings is drained; then the sink
is detached, whichever it is. -/
def otelSqliteClose (σ : Program) : Except Fault Program := do
  let r ← otelDrain pack σ.tracer
  pure { tracer := otelSetSpanSink r.1 none, store := OtelSqliteStore.zero }

/-- Close, and return -1. -/
def otelSqliteFail (σ : Program) : Except Fault (Program × Int32) := do
  let σ ← otelSqliteClose pack σ
  pure (σ, -1)

def otelSqliteOpen (σ : Program) (flushIntervalMs : UInt32) (failure : Option OpenStep) :
    Except Fault (Program × Int32) :=
  if σ.store.db then
    .ok (σ, -1)
  else
    -- the sink is registered before the flusher is started
    let tracer := otelSetSpanSink σ.tracer (some otelSqliteSink)
    let store := { σ.store with
      db := true, intervalMs := if flushIntervalMs ≠ 0 then flushIntervalMs
                                else otelSqliteDefaultIntervalMs }
    match failure with
    | some (.open handle) => otelSqliteFail pack { σ with store := { σ.store with db := handle } }
    | some .schema => otelSqliteFail pack { σ with store := { σ.store with db := true } }
    | some .prepare => otelSqliteFail pack { σ with store := { σ.store with db := true } }
    | some .thread => otelSqliteFail pack ⟨tracer, { store with running := false }⟩
    | none => .ok (⟨tracer, { store with running := true, haveThread := true }⟩, 0)

def otelSqliteSetMaxSpans (σ : Program) (maxSpans : UInt64) : Program :=
  { σ with store := { σ.store with maxSpans := maxSpans } }

/-! ## The program as a machine -/

/-- A call of the API. -/
inductive ProgramOp
  | tracer (op : Op)
  | open (flushIntervalMs : UInt32) (failure : Option OpenStep)
  | close
  | setMaxSpans (n : UInt64)

def programStep (σ : Program) : ProgramOp → Except Fault Program
  | .tracer op => do
    let t ← tracerStep pack σ.tracer op
    pure { σ with tracer := t }
  | .open flushIntervalMs failure => Prod.fst <$> otelSqliteOpen pack σ flushIntervalMs failure
  | .close => otelSqliteClose pack σ
  | .setMaxSpans n => .ok (otelSqliteSetMaxSpans σ n)

def ProgramOp.Possible (σ : Program) : ProgramOp → Prop
  | .tracer op => op.Possible σ.tracer
  | _ => True

def programMachine : Machine Program ProgramOp Fault where
  enabled := ProgramOp.Possible
  step := programStep pack

end

/-! ## What a failed open may not touch -/

/-- The registered sink, the live flag, the staged spans and the retention limit are the same. -/
structure Kept (σ σ' : Program) : Prop where
  sink : σ'.tracer.sink = σ.tracer.sink
  sinkPresent : σ'.tracer.sinkPresent = σ.tracer.sinkPresent
  enabled : σ'.tracer.enabled = σ.tracer.enabled
  staged : σ'.tracer.staged = σ.tracer.staged
  maxSpans : σ'.store.maxSpans = σ.store.maxSpans

/-- Tracing is live when the failed open gets to draining the rings: once the store's own sink is
registered, it is unless it was switched off. -/
def Program.LiveAtFailure (σ : Program) (failure : Option OpenStep) : Prop :=
  if failure = some .thread then σ.tracer.initialized = true ∧ σ.tracer.runtimeOn = true
  else σ.tracer.enabled = true

/-- There is nothing that a failed open could lose: no sink is registered, no retention limit is
set, and no spans are staged, unless tracing is not live. -/
structure Program.Bare (σ : Program) (failure : Option OpenStep) : Prop where
  sink : σ.tracer.sink = none
  maxSpans : σ.store.maxSpans = 0
  staged : σ.LiveAtFailure failure → σ.tracer.staged = []

end OtelTracing
