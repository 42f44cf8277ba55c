import OtelTracing.Steps
import OtelTracing.Lib.Locks

/-!
# Threads

The calls of the tracer's API that may run at the same time, the flusher of the SQLite store, and
`otel_sqlite_close`, as programs whose steps interleave. A thread is at a place of one of these
programs, or it is idle and may call a function; a step that takes a lock has to wait until the lock
can be had. One thread, the `closer`, may call `otel_sqlite_close`, once, or detach the sink.

`closeCalled`, `detached` and `finalized` are not in the source. They record that `otel_sqlite_close`
was called, that a call of `otel_set_span_sink(NULL)` has returned, and that the statements and the
database were finalized.
-/

namespace OtelTracing

open ByteMem Locks

/-! ## Places -/

/-- Who called `otel_drain`. -/
inductive Caller
  | user
  | flusher
  | close
  deriving DecidableEq

/-- The next step of a thread. -/
inductive Pc
  | idle
  -- `otel_thread_register`
  | registerLock (a : CtxAddr)
  | registerLink (a : CtxAddr)
  | registerUnlock (a : CtxAddr)
  -- `otel_span_end_`
  | spanEnd (a : CtxAddr) (s : OtelSpan) (head : UInt64) (pc : EndPc)
  -- `otel_thread_unregister`
  | unregisterLock (a : CtxAddr)
  | unregisterWrlock (a : CtxAddr)
  | unregisterEnabled (a : CtxAddr)
  | unregisterPass (a : CtxAddr) (pc : PassPc) (v : PassVars)
  | unregisterUnlink (a : CtxAddr)
  | unregisterWrunlock (a : CtxAddr)
  | unregisterUnlock (a : CtxAddr)
  | unregisterFree (a : CtxAddr)
  -- `otel_drain`
  | drainEnabled (k : Caller)
  | drainLock (k : Caller)
  | drainRdlock (k : Caller)
  | drainPass (k : Caller) (pc : PassPc) (v : PassVars)
  | drainRdunlock (k : Caller) (v : PassVars)
  | drainUnlock (k : Caller) (v : PassVars)
  -- `otel_sqlite_flusher`
  | flusherLock
  | flusherTest
  | flusherWait
  | flusherAsleep
  | flusherRelock
  | flusherUnlock
  | flusherLeave
  | exited
  -- `otel_sqlite_close`
  | closeTest
  | closeLock
  | closeClear
  | closeSignal
  | closeUnlock
  | closeJoin
  | closeFinalize
  -- `otel_set_span_sink(NULL)`, which `otel_sqlite_close` may have called
  | detachSink (close : Bool)
  | detachPresent (close : Bool)
  | detachEnabled (close : Bool)

/-- Where a thread goes when `otel_drain` returns. -/
def Caller.ret : Caller → Pc
  | .user => .idle
  | .flusher => .flusherLock
  | .close => .detachSink true

/-- A thread at the place holds `OT.drain_lock`. -/
def Pc.holdsDrain : Pc → Bool
  | .unregisterWrlock _ | .unregisterEnabled _ | .unregisterPass .. | .unregisterUnlink _
  | .unregisterWrunlock _ | .unregisterUnlock _ | .drainRdlock _ | .drainPass .. | .drainRdunlock ..
  | .drainUnlock .. => true
  | _ => false

/-- A thread at the place holds `OT.registry_lock` for writing. -/
def Pc.holdsWrite : Pc → Bool
  | .registerLink _ | .registerUnlock _ | .unregisterEnabled _ | .unregisterPass ..
  | .unregisterUnlink _ | .unregisterWrunlock _ => true
  | _ => false

/-- A thread at the place holds `OT.registry_lock` for reading. -/
def Pc.holdsRead : Pc → Bool
  | .drainPass .. | .drainRdunlock .. => true
  | _ => false

/-- A thread at the place holds `S.lock`. -/
def Pc.holdsStore : Pc → Bool
  | .flusherTest | .flusherWait | .flusherUnlock | .flusherLeave | .closeClear | .closeSignal
  | .closeUnlock => true
  | _ => false

/-! ## States -/

structure Process where
  shared : Shared
  pcs : ThreadId → Pc
  /-- `OT.drain_lock` -/
  drainLock : Option ThreadId
  /-- `OT.registry_lock` -/
  registryLock : RwLock ThreadId
  /-- `S.lock` -/
  storeLock : Option ThreadId
  /-- the flusher waits for `S.cond`, and was signalled -/
  signaled : Bool
  running : Bool
  haveThread : Bool
  flusher : ThreadId
  closer : ThreadId
  closeCalled : Bool
  detached : Bool
  finalized : Bool

/-- Thread `t` goes to `pc`. -/
def Process.goto (σ : Process) (t : ThreadId) (pc : Pc) : Process :=
  { σ with pcs := Function.update σ.pcs t pc }

/-- No call is in progress, and no lock is held; if the SQLite store is open, its flusher has just been
started. -/
structure Process.AtRest (σ : Process) : Prop where
  idle : ∀ t, t ≠ σ.flusher → σ.pcs t = .idle
  flusher : σ.pcs σ.flusher = if σ.haveThread then .flusherLock else .exited
  drainLock : σ.drainLock = none
  registryLock : σ.registryLock = RwLock.free
  storeLock : σ.storeLock = none
  running : σ.running = σ.haveThread
  closer : σ.closer ≠ σ.flusher
  closeCalled : σ.closeCalled = false
  detached : σ.detached = false
  finalized : σ.finalized = false

/-- The process at rest with the tracer `t`. -/
def Process.start (t : Tracer) (haveThread : Bool) (flusher closer : ThreadId) : Process where
  shared := { tracer := t, ledger _ := Ledger.empty, freed := [], added := [] }
  pcs u := if u = flusher then (if haveThread then .flusherLock else .exited) else .idle
  drainLock := none
  registryLock := RwLock.free
  storeLock := none
  signaled := false
  running := haveThread
  haveThread := haveThread
  flusher := flusher
  closer := closer
  closeCalled := false
  detached := false
  finalized := false

/-! ## Steps -/

/-- A call of the API. -/
inductive ThreadCall
  | register (a : CtxAddr) (seed : OtelRandomState) (now : UInt64)
  | finish (s : OtelSpan) (now : UInt64)
  | unregister
  | drain
  | setRingCapacity (spans : UInt32)
  | close
  | detach

/-- Thread `t` calls a function, and runs it up to its first step that others can see. -/
def callStep (σ : Process) (t : ThreadId) : ThreadCall → Except Fault Process
  | .register a seed now =>
    match σ.shared.tracer.tls t with
    | some _ => .ok σ
    | none => .ok ({ σ with shared := σ.shared.alloc a seed now }.goto t (.registerLock a))
  | .finish s now =>
    if !otelSpanRecording s then
      .ok σ
    else
      match σ.shared.tracer.tls t with
      | none => .ok { σ with
          shared := { σ.shared with
            tracer := { σ.shared.tracer with droppedSpans := σ.shared.tracer.droppedSpans + 1 } } }
      | some a => do
        let c ← σ.shared.tracer.deref a
        pure (σ.goto t (.spanEnd a (stampEnd s now) c.head .loadTail))
  | .unregister =>
    match σ.shared.tracer.tls t with
    | none => .ok σ
    | some a => .ok (σ.goto t (.unregisterLock a))
  | .drain => .ok (σ.goto t (.drainEnabled .user))
  | .setRingCapacity spans => do
    let tracer ← otelSetRingCapacity σ.shared.tracer spans
    pure { σ with shared := { σ.shared with tracer := tracer } }
  | .close => .ok ({ σ with closeCalled := true }.goto t .closeTest)
  | .detach => .ok (σ.goto t (.detachSink false))

section
variable (pack : Proto.ExportTraceServiceRequest → Bytes)

/-- The next step of thread `t`, which can be taken. -/
def threadStep (σ : Process) (t : ThreadId) : Except Fault Process :=
  match σ.pcs t with
  | .idle => .ok σ
  -- otel_thread_register
  | .registerLock a =>
    .ok ({ σ with registryLock := σ.registryLock.lockWrite t }.goto t (.registerLink a))
  | .registerLink a => .ok ({ σ with shared := σ.shared.link a }.goto t (.registerUnlock a))
  | .registerUnlock a =>
    .ok ({ σ with
      registryLock := σ.registryLock.unlockWrite
      shared := σ.shared.setTls t (some a) }.goto t .idle)
  -- otel_span_end_
  | .spanEnd a s head pc => do
    let r ← endStep σ.shared a s head pc
    pure ({ σ with shared := r.1 }.goto t (match r.2 with
      | some pc => .spanEnd a s head pc
      | none => .idle))
  -- otel_thread_unregister
  | .unregisterLock a => .ok ({ σ with drainLock := some t }.goto t (.unregisterWrlock a))
  | .unregisterWrlock a =>
    .ok ({ σ with registryLock := σ.registryLock.lockWrite t }.goto t (.unregisterEnabled a))
  | .unregisterEnabled a =>
    .ok (σ.goto t (if σ.shared.tracer.enabled then
        .unregisterPass a (.begin .present) (PassVars.start σ.shared.tracer)
      else .unregisterUnlink a))
  | .unregisterPass a pc v => do
    let r ← passStep pack σ.shared [a] v pc
    pure ({ σ with shared := r.1 }.goto t (match r.2.1 with
      | some pc => .unregisterPass a pc r.2.2
      | none => .unregisterUnlink a))
  | .unregisterUnlink a => do
    let m ← σ.shared.unlink a
    pure ({ σ with shared := m }.goto t (.unregisterWrunlock a))
  | .unregisterWrunlock a =>
    .ok ({ σ with registryLock := σ.registryLock.unlockWrite }.goto t (.unregisterUnlock a))
  | .unregisterUnlock a => .ok ({ σ with drainLock := none }.goto t (.unregisterFree a))
  | .unregisterFree a => do
    let m ← σ.shared.free a
    pure ({ σ with shared := m.setTls t none }.goto t .idle)
  -- otel_drain
  | .drainEnabled k =>
    .ok (σ.goto t (if σ.shared.tracer.enabled then .drainLock k else k.ret))
  | .drainLock k => .ok ({ σ with drainLock := some t }.goto t (.drainRdlock k))
  | .drainRdlock k =>
    .ok ({ σ with registryLock := σ.registryLock.lockRead t }.goto t
      (.drainPass k (.begin .present) (PassVars.start σ.shared.tracer)))
  | .drainPass k pc v => do
    let r ← passStep pack σ.shared σ.shared.tracer.threads v pc
    pure ({ σ with shared := r.1 }.goto t (match r.2.1 with
      | some pc => .drainPass k pc r.2.2
      | none => .drainRdunlock k r.2.2))
  | .drainRdunlock k v =>
    .ok ({ σ with registryLock := σ.registryLock.unlockRead t }.goto t (.drainUnlock k v))
  | .drainUnlock k _ => .ok ({ σ with drainLock := none }.goto t k.ret)
  -- otel_sqlite_flusher
  | .flusherLock => .ok ({ σ with storeLock := some t }.goto t .flusherTest)
  | .flusherTest => .ok (σ.goto t (if σ.running then .flusherWait else .flusherLeave))
  | .flusherWait => .ok ({ σ with storeLock := none, signaled := false }.goto t .flusherAsleep)
  | .flusherAsleep => .ok (σ.goto t .flusherRelock)
  | .flusherRelock => .ok ({ σ with storeLock := some t }.goto t .flusherUnlock)
  | .flusherUnlock => .ok ({ σ with storeLock := none }.goto t (.drainEnabled .flusher))
  | .flusherLeave => .ok ({ σ with storeLock := none }.goto t .exited)
  | .exited => .ok σ
  -- otel_sqlite_close
  | .closeTest =>
    .ok (σ.goto t (if σ.haveThread then .closeLock else .drainEnabled .close))
  | .closeLock => .ok ({ σ with storeLock := some t }.goto t .closeClear)
  | .closeClear => .ok ({ σ with running := false }.goto t .closeSignal)
  | .closeSignal =>
    .ok ({ σ with
      signaled := match σ.pcs σ.flusher with
        | .flusherAsleep => true
        | _ => σ.signaled }.goto t .closeUnlock)
  | .closeUnlock => .ok ({ σ with storeLock := none }.goto t .closeJoin)
  | .closeJoin => .ok ({ σ with haveThread := false }.goto t (.drainEnabled .close))
  | .closeFinalize => .ok ({ σ with finalized := true }.goto t .idle)
  -- otel_set_span_sink
  | .detachSink close =>
    .ok ({ σ with
      shared := { σ.shared with tracer := { σ.shared.tracer with sink := none } } }.goto t
      (.detachPresent close))
  | .detachPresent close =>
    .ok ({ σ with
      shared := { σ.shared with tracer := { σ.shared.tracer with sinkPresent := false } } }.goto t
      (.detachEnabled close))
  | .detachEnabled close =>
    .ok ({ σ with
      shared := { σ.shared with tracer := otelRecomputeEnabled σ.shared.tracer }
      detached := true }.goto t (if close then .closeFinalize else .idle))

/-! ## Waiting -/

/-- Thread `t` need not wait to take its next step. -/
def Process.Ready (σ : Process) (t : ThreadId) : Prop :=
  match σ.pcs t with
  | .idle | .exited => False
  | .registerLock _ | .unregisterWrlock _ => σ.registryLock.canWrite
  | .drainRdlock _ => σ.registryLock.canRead
  | .unregisterLock _ | .drainLock _ => σ.drainLock = none
  | .flusherLock | .flusherRelock | .closeLock => σ.storeLock = none
  | .flusherAsleep => σ.signaled = true
  | .closeJoin => σ.pcs σ.flusher = .exited
  | _ => True

/-- Thread `t` is in a call, or in the flusher's loop, or it has still to call
`otel_sqlite_close`. -/
def Process.Unfinished (σ : Process) (t : ThreadId) : Prop :=
  (σ.pcs t ≠ .idle ∧ σ.pcs t ≠ .exited) ∨ (t = σ.closer ∧ σ.closeCalled = false)

/-! ## The process as a machine -/

inductive Act
  | call (t : ThreadId) (c : ThreadCall)
  | step (t : ThreadId)
  /-- the flusher's wait ends by the timer, or for no reason -/
  | timer

/-- The action is a step of thread `t`: the next one of the call that it is in, or a new call. -/
def Act.isBy (t : ThreadId) : Act → Prop
  | .call u _ => u = t
  | .step u => u = t
  | .timer => False

/-- An allocation returns an address that is not in use, and only the closer closes or detaches. -/
def ThreadCall.Possible (σ : Process) (t : ThreadId) : ThreadCall → Prop
  | .register a _ _ => σ.shared.tracer.ctxs a = none
  | .close => t = σ.closer ∧ σ.closeCalled = false
  | .detach => t = σ.closer
  | _ => True

def Act.Possible (σ : Process) : Act → Prop
  | .call t c => σ.pcs t = .idle ∧ c.Possible σ t
  | .step t => σ.Ready t
  | .timer => σ.pcs σ.flusher = .flusherAsleep

def processStep (σ : Process) : Act → Except Fault Process
  | .call t c => callStep σ t c
  | .step t => threadStep pack σ t
  | .timer => .ok (σ.goto σ.flusher .flusherRelock)

def processMachine : Machine Process Act Fault where
  enabled := Act.Possible
  step := processStep pack

end

end OtelTracing
