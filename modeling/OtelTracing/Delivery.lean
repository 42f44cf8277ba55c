import OtelTracing.Detach

/-!
# Delivering spans

What is promised for the spans that threads end while others run passes, and the conditions on a state
under which it holds.
-/

namespace OtelTracing

open ByteMem

/-! ## Contexts of passes -/

/-- The context whose ring a pass drains. -/
def PassPc.ring : PassPc → Option CtxAddr
  | .loadHead a | .loop a | .emit a _ => some a
  | _ => none

/-- The context whose ring a thread drains. -/
def Pc.ring : Pc → Option CtxAddr
  | .unregisterPass _ pc _ | .drainPass _ pc _ => pc.ring
  | _ => none

/-- The contexts that a thread still has to drain. -/
def Pc.todo : Pc → List CtxAddr
  | .unregisterPass _ pc v | .drainPass _ pc v => pc.ring.toList ++ v.rest
  | _ => []

/-! ## Start -/

/-- A capacity that a ring may have. -/
def PowerOfTwo (cap : UInt32) : Prop := ∃ k < 32, cap.toNat = 2 ^ k

/-- No thread is registered, and none was. -/
structure Process.Vacant (σ : Process) : Prop where
  ctxs : ∀ a, σ.shared.tracer.ctxs a = none
  tls : ∀ t, σ.shared.tracer.tls t = none
  threads : σ.shared.tracer.threads = []
  capacity : PowerOfTwo σ.shared.tracer.ringCapacity
  ledger : ∀ a, σ.shared.ledger a = Ledger.empty
  freed : σ.shared.freed = []
  added : σ.shared.added = []
  spans : sinkSpans σ.shared.tracer.out = []

/-- A thread at the place is in `otel_set_span_sink`. -/
def Pc.detaching : Pc → Bool
  | .detachSink _ | .detachPresent _ | .detachEnabled _ => true
  | _ => false

/-- Tracing is enabled with the sink `sink`, which no thread is about to detach. -/
structure Process.Attached (sink : OtelSpanSink) (σ : Process) : Prop where
  enabled : σ.shared.tracer.enabled = true
  sink : σ.shared.tracer.sink = some sink
  sinkPresent : σ.shared.tracer.sinkPresent = true
  quiet : ∀ t, (σ.pcs t).detaching = false

/-- The action is not a call that detaches the sink. -/
def Act.keepsSink : Act → Bool
  | .call _ .close | .call _ .detach => false
  | _ => true

/-- The action is the next step of thread `t`. -/
def Act.isStep (t : ThreadId) : Act → Bool
  | .step u => u = t
  | _ => false

/-! ## What is promised -/

/-- The number of the spans that the sink was given since the pass with the variables `v` began. -/
def Process.emitted (σ : Process) (v : PassVars) : Nat :=
  (sinkSpans σ.shared.tracer.out).length - v.base

section
variable (pack : Proto.ExportTraceServiceRequest → Bytes)

/-- Thread `t` leaves the pass that it is in: within so many steps of its own, none of which has to
wait. -/
def Process.PassEnds (σ : Process) (t : ThreadId) : Prop :=
  σ.Ready t ∧ (∃ σ', threadStep pack σ t = .ok σ') ∧
    ∃ n : Nat, ∀ acts σ', (processMachine pack).Run σ acts σ' →
      n ≤ acts.countP (Act.isStep t) →
        ∃ acts₁ acts₂ σ₁, acts = acts₁ ++ acts₂ ∧ (processMachine pack).Run σ acts₁ σ₁ ∧
          (σ₁.pcs t).pass = none

/-- For each context, the spans that the sink was given and those that are left in the ring are the
spans that were staged, in order. -/
structure Process.Delivers (σ : Process) : Prop where
  given : ∀ a c, σ.shared.tracer.ctxs a = some c →
    (σ.shared.ledger a).given ++ Ring.contents c.ring c.mask.toUInt64
      (UInt64.ofNat (σ.shared.ledger a).given.length) c.head = (σ.shared.ledger a).staged
  freed : ∀ l ∈ σ.shared.freed, l.given = l.staged
  /-- the sink was given nothing else -/
  output : ∃ as : List CtxAddr, as.Nodup ∧ (∀ a, a ∈ as ↔ (σ.shared.tracer.ctxs a).isSome) ∧
    (sinkSpans σ.shared.tracer.out).Perm
      (as.flatMap (fun a => (σ.shared.ledger a).given) ++ σ.shared.freed.flatMap Ledger.given)
  dropped : ∀ t a s head c m, σ.pcs t = .spanEnd a s head .loadTail →
    σ.shared.tracer.ctxs a = some c → endStep σ.shared a s head .loadTail = .ok (m, none) →
    c.staged.length = c.capacity.toNat
  emptied : ∀ t a c, σ.pcs t = .unregisterFree a → σ.shared.tracer.ctxs a = some c →
    c.staged = [] ∧ a ∉ σ.shared.tracer.threads ∧ ∀ u, a ∉ (σ.pcs u).todo
  ends : ∀ t, (σ.pcs t).pass ≠ none → σ.PassEnds pack t
  counted : ∀ t k v, σ.pcs t = .drainUnlock k v → v.n.toInt = σ.emitted v

/-! ## Conditions -/

/-- The encoder does what the next step of a pass asks of it. -/
def PassPc.Encodes (m : Shared) (v : PassVars) : PassPc → Prop
  | .loop a => ∀ c, m.tracer.ctxs a = some c → v.tail ≠ v.head →
    ∃ t, emitTransport pack m.tracer ⟨a, c.slot v.tail⟩ = .ok t
  | .flush => ∃ t, m.tracer.flush pack = .ok t
  | _ => True

/-- A pass that is over has emitted fewer spans than an `int` can count, and the encoder does what
the passes ask of it. -/
structure Process.Countable (σ : Process) : Prop where
  emitted_lt : ∀ t k v, σ.pcs t = .drainUnlock k v → σ.emitted v < 2 ^ 31
  unregister : ∀ t a p v, σ.pcs t = .unregisterPass a p v → p.Encodes pack σ.shared v
  drain : ∀ t k p v, σ.pcs t = .drainPass k p v → p.Encodes pack σ.shared v

end

end OtelTracing
