import OtelTracing.Lifecycle

/-!
# The steps of a pass and of a producer

Ending a span and draining rings as they run next to other threads: each load or store of a ring
cursor, of `OT.sink` or of `OT.sink_present`, each copy of a span, each call of the encoder and each
call of a callback is one step. The tracer is the memory that the threads share. A pass walks the
registry while it holds its lock, so the contexts that it has still to drain are kept as a list.

The ledgers are not in the source. The ledger of a context holds the spans that its producer has
staged, that is published, how many of them were passed to the encoder, how many of them the passes
have moved past, how many of these are behind the `tail` that was stored last, and the spans that
were given to the sink from the ring; `freed` keeps the ledgers of the contexts that were freed.
`added` holds the spans that were passed to the encoder, in the form in which their producers
published them.
-/

namespace OtelTracing

open ByteMem

/-- What became of the spans that were ended on a thread. -/
structure Ledger where
  staged : List OtelSpan
  added : Nat
  taken : Nat
  published : Nat
  given : List OtelSpan

def Ledger.empty : Ledger := ⟨[], 0, 0, 0, []⟩

structure Shared where
  tracer : Tracer
  ledger : CtxAddr → Ledger
  freed : List Ledger
  added : List OtelSpan

def Shared.setLedger (m : Shared) (a : CtxAddr) (l : Ledger) : Shared :=
  { m with ledger := Function.update m.ledger a l }

def Shared.setCtx (m : Shared) (a : CtxAddr) (c : OtelThreadCtx) : Shared :=
  { m with tracer := m.tracer.setCtx a c }

/-! ## Call sites of callbacks -/

inductive Callback
  | begin
  | span
  | finish
  deriving DecidableEq

/-- Whether the sink has the callback. -/
def Callback.isSet : Callback → OtelSpanSink → Bool
  | .begin => OtelSpanSink.hasBegin
  | .span => OtelSpanSink.hasSpan
  | .finish => OtelSpanSink.hasEnd

/-- The next access in `if (OT.sink_present && OT.sink->f) { OT.sink->f(.., OT.sink->priv); }`. -/
inductive Site
  /-- read `OT.sink_present` -/
  | present
  /-- read `OT.sink`, to see whether there is a callback -/
  | test
  /-- read `OT.sink`, to get the callback -/
  | fetch
  /-- read `OT.sink`, to get its argument -/
  | priv
  /-- call it -/
  | call
  deriving DecidableEq

/-- Where a thread goes from a call site. -/
inductive SiteExit
  | stay (site : Site)
  | skip
  | called
  deriving DecidableEq

/-- `OT.sink->..` -/
def Tracer.derefSink (t : Tracer) : Except Fault OtelSpanSink :=
  match t.sink with
  | some sink => .ok sink
  | none => .error .nullDeref

def siteStep (t : Tracer) (f : Callback) : Site → Except Fault SiteExit
  | .present => .ok (if t.sinkPresent then .stay .test else .skip)
  | .test => do
    let sink ← t.derefSink
    pure (if f.isSet sink then .stay .fetch else .skip)
  | .fetch => do
    let _ ← t.derefSink
    pure (.stay .priv)
  | .priv => do
    let _ ← t.derefSink
    pure (.stay .call)
  | .call => .ok .called

/-! ## Passes -/

/-- The next step of a pass, with the context whose ring is drained. -/
inductive PassPc
  | begin (site : Site)
  | walk
  | loadHead (a : CtxAddr)
  | loop (a : CtxAddr)
  | emit (a : CtxAddr) (site : Site)
  | flush
  | finish (site : Site)
  deriving DecidableEq

/-- The variables of a pass: the contexts that come after the current one, `tail` and `head` of
`otel_drain_ctx`, and the counter. `base` is not in the source: it is the number of the spans that
the sink was given before the pass. -/
structure PassVars where
  rest : List CtxAddr
  tail : UInt64
  head : UInt64
  n : Int32
  base : Nat

/-- `tail++` and `n++` -/
def PassVars.advance (v : PassVars) : PassVars := { v with tail := v.tail + 1, n := v.n + 1 }

/-- The spans among the calls of the sink. -/
def sinkSpans (out : List Output) : List OtelSpan :=
  out.filterMap fun
    | .sinkSpan s => some s
    | _ => none

/-- The variables when a pass starts. -/
def PassVars.start (t : Tracer) : PassVars :=
  { rest := [], tail := 0, head := 0, n := 0, base := (sinkSpans t.out).length }

def Shared.output (m : Shared) (o : Output) : Shared :=
  { m with tracer := { m.tracer with out := m.tracer.out ++ [o] } }

/-- The pass moves past a span of the context `a`. -/
def Shared.take (m : Shared) (a : CtxAddr) : Shared :=
  m.setLedger a { m.ledger a with taken := (m.ledger a).taken + 1 }

/-- `tail` is stored for the context `a`. -/
def Shared.publish (m : Shared) (a : CtxAddr) : Shared :=
  m.setLedger a { m.ledger a with published := (m.ledger a).taken }

/-- `OT.sink->span(s, OT.sink->priv)` for the span at `p`. -/
def Shared.give (m : Shared) (p : Slot) : Shared :=
  let s := ringMem m.tracer.ctxs p
  let m := m.output (.sinkSpan s)
  m.setLedger p.ctx { m.ledger p.ctx with given := (m.ledger p.ctx).given ++ [s] }

section
variable (pack : Proto.ExportTraceServiceRequest → Bytes)

/-- The next span of the context is entered into the ledger as passed to the encoder. -/
def Shared.enter (m : Shared) (a : CtxAddr) : Shared :=
  let l := m.ledger a
  { m.setLedger a { l with added := l.added + 1 } with
    added := m.added ++ l.staged[l.added]?.toList }

/-- The span at `p` is passed to the encoder, if there is a transport. -/
def Shared.add (m : Shared) (p : Slot) : Except Fault Shared := do
  let t ← emitTransport pack m.tracer p
  pure (if m.tracer.transportPresent then { m with tracer := t }.enter p.ctx
    else { m with tracer := t })

/-- One step of a pass over the contexts `ctxs`; the result says where it goes, if it is not over. -/
def passStep (m : Shared) (ctxs : List CtxAddr) (v : PassVars) :
    PassPc → Except Fault (Shared × Option PassPc × PassVars)
  | .begin site => do
    match ← siteStep m.tracer .begin site with
    | .stay site => pure (m, some (.begin site), v)
    | .skip => pure (m, some .walk, { v with rest := ctxs })
    | .called => pure (m.output .sinkBegin, some .walk, { v with rest := ctxs })
  | .walk =>
    match v.rest with
    | [] => .ok (m, some .flush, v)
    | a :: rest => do
      let c ← m.tracer.deref a
      pure (m, some (.loadHead a), { v with rest := rest, tail := c.tail })
  | .loadHead a => do
    let c ← m.tracer.deref a
    pure (m, some (.loop a), { v with head := c.head })
  | .loop a => do
    let c ← m.tracer.deref a
    if v.tail = v.head then
      pure ((m.setCtx a { c with tail := v.tail }).publish a, some .walk, v)
    else
      let m ← m.add pack ⟨a, c.slot v.tail⟩
      pure (m, some (.emit a .present), v)
  | .emit a site => do
    match ← siteStep m.tracer .span site with
    | .stay site => pure (m, some (.emit a site), v)
    | .skip => pure (m.take a, some (.loop a), v.advance)
    | .called => do
      let c ← m.tracer.deref a
      pure ((m.give ⟨a, c.slot v.tail⟩).take a, some (.loop a), v.advance)
  | .flush => do
    let t ← m.tracer.flush pack
    pure ({ m with tracer := t }, some (.finish .present), v)
  | .finish site => do
    match ← siteStep m.tracer .finish site with
    | .stay site => pure (m, some (.finish site), v)
    | .skip => pure (m, none, v)
    | .called => pure (m.output .sinkEnd, none, v)

end

/-! ## Ending a span -/

/-- Where a producer is in `otel_span_end_`: the next step, the context, the finished span and the
loaded `head`. -/
inductive EndPc
  | loadTail
  | copy
  | storeHead
  deriving DecidableEq

/-- One step of a producer; the result says where it goes, if the call is not over. -/
def endStep (m : Shared) (a : CtxAddr) (s : OtelSpan) (head : UInt64) :
    EndPc → Except Fault (Shared × Option EndPc)
  | .loadTail => do
    let c ← m.tracer.deref a
    if head - c.tail ≥ c.capacity.toUInt64 then
      let m := m.setCtx a { c with dropped := c.dropped + 1 }
      pure ({ m with
        tracer := { m.tracer with droppedSpans := m.tracer.droppedSpans + 1 } }, none)
    else
      pure (m, some .copy)
  | .copy => do
    let c ← m.tracer.deref a
    pure (m.setCtx a { c with ring := Function.update c.ring (c.slot head) s }, some .storeHead)
  | .storeHead => do
    let c ← m.tracer.deref a
    let m := m.setCtx a { c with head := head + 1 }
    pure (m.setLedger a { m.ledger a with staged := (m.ledger a).staged ++ [s] }, none)

/-! ## Contexts -/

/-- `calloc` returns `a`, and the context is filled in. -/
def Shared.alloc (m : Shared) (a : CtxAddr) (seed : OtelRandomState) (now : UInt64) : Shared :=
  (m.setCtx a (newCtx m.tracer.ringCapacity a seed now)).setLedger a Ledger.empty

/-- `ctx->next = OT.threads; OT.threads = ctx;` -/
def Shared.link (m : Shared) (a : CtxAddr) : Shared :=
  { m with tracer := { m.tracer with threads := a :: m.tracer.threads } }

def Shared.unlink (m : Shared) (a : CtxAddr) : Except Fault Shared := do
  let threads ← OtelTracing.unlink m.tracer a m.tracer.threads
  pure { m with tracer := { m.tracer with threads := threads } }

/-- `free(ctx->ring)` and `free(ctx)` -/
def Shared.free (m : Shared) (a : CtxAddr) : Except Fault Shared := do
  let t ← m.tracer.free a
  pure { m with tracer := t, freed := m.ledger a :: m.freed }

/-- `otel_tls = ctx` on the thread `tid`. -/
def Shared.setTls (m : Shared) (tid : ThreadId) (ctx : Option CtxAddr) : Shared :=
  { m with tracer := { m.tracer with tls := Function.update m.tracer.tls tid ctx } }

end OtelTracing
