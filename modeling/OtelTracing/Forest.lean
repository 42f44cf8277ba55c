import OtelTracing.Lifecycle

/-!
# The forest of spans

A program's span objects together with the tracer. Every object is started once, on a registered
thread; a child is started under another object. In between the tracer is used in any other way.

`passed` is not in the source: it lists the spans that the passes have taken from the rings, whoever
they were handed to.
-/

namespace OtelTracing

open ByteMem

/-- The address of a `struct otel_span`. -/
abbrev SpanObj := Nat

/-- A started object: the span with the event handles that it returned, and the object that it was
started under. -/
structure Node where
  session : Session
  parent : Option SpanObj

def Node.span (n : Node) : OtelSpan := n.session.span

def Node.recording (n : Node) : Bool := otelSpanRecording n.span

structure Forest where
  tracer : Tracer
  nodes : SpanObj → Option Node
  passed : List OtelSpan

def Forest.boot : Forest where
  tracer := Tracer.boot
  nodes _ := none
  passed := []

/-- What `otel_set_sampler` makes of the ratio, which is a `double`: at least 1, at most 0, or
between, where `threshold` is the product with `2 ^ 64`. -/
inductive SamplerRatio
  | always
  | never
  | between (threshold : UInt64)

def otelSetSampler (t : Tracer) : SamplerRatio → Tracer
  | .always => { t with sampleAlways := true, sampleThreshold := ~~~0 }
  | .never => { t with sampleAlways := false, sampleThreshold := 0 }
  | .between threshold => { t with sampleAlways := false, sampleThreshold := threshold }

/-- How an object is started. -/
inductive ForestStart
  | root
  | child (parent : Option SpanObj)
  | remote (traceId : Vector UInt8 16) (parentId : UInt64) (sampled : Int32)

def ForestStart.parent : ForestStart → Option SpanObj
  | .child parent => parent
  | _ => none

/-- The start call with the parent as it is in memory. -/
def Forest.startCall (w : Forest) : ForestStart → StartCall
  | .root => .root
  | .child parent => .child (parent.bind fun p => (w.nodes p).map Node.span)
  | .remote traceId parentId sampled => .remote traceId parentId sampled

/-- The spans that the passes of a call take from the rings. -/
def Tracer.takes (t : Tracer) : Op → List OtelSpan
  | .drain => if t.enabled then t.staged else []
  | .unregister tid =>
    match t.tls tid with
    | some a => if t.enabled then stagedAt t.ctxs a else []
    | none => []
  | .shutdown => if t.initialized && t.enabled then t.staged else []
  | _ => []

/-- A call of the API; `mem` is what the memory of the object held before. -/
inductive ForestOp
  | start (tid : ThreadId) (obj : SpanObj) (how : ForestStart) (mem : OtelSpan)
      (name : Option Bytes) (kind : UInt32) (now : UInt64)
  | annotate (obj : SpanObj) (c : Call)
  | finish (tid : ThreadId) (obj : SpanObj) (now : UInt64)
  | setSampler (ratio : SamplerRatio)
  | tracer (op : Op)

def Forest.node (w : Forest) (obj : SpanObj) : Except Fault Node :=
  match w.nodes obj with
  | some n => .ok n
  | none => .error .nullDeref

def Forest.setNode (w : Forest) (obj : SpanObj) (n : Node) : Forest :=
  { w with nodes := Function.update w.nodes obj (some n) }

section
variable (pack : Proto.ExportTraceServiceRequest → Bytes)

def forestStep (w : Forest) : ForestOp → Except Fault Forest
  | .start tid obj how mem name kind now => do
    let r ← otelStart w.tracer tid (w.startCall how) mem name kind now
    pure ({ w with tracer := r.1 }.setNode obj ⟨⟨r.2, []⟩, how.parent⟩)
  | .annotate obj c => do
    let n ← w.node obj
    pure (w.setNode obj { n with session := n.session.call c })
  | .finish tid obj now => do
    let n ← w.node obj
    let t ← otelSpanEnd w.tracer tid n.span now
    -- the end time is stamped on the object itself, if the span is recording
    let session := if n.recording then n.session.call (.finish now) else n.session
    pure ({ w with tracer := t }.setNode obj { n with session := session })
  | .setSampler ratio => .ok { w with tracer := otelSetSampler w.tracer ratio }
  | .tracer op => do
    let t ← tracerStep pack w.tracer op
    pure { w with tracer := t, passed := w.passed ++ w.tracer.takes op }

/-- The thread has a context. -/
def Tracer.Registered (t : Tracer) (tid : ThreadId) : Prop :=
  ∃ a c, t.tls tid = some a ∧ t.ctxs a = some c

/-- A call that is not about a span object. -/
def Op.Global : Op → Prop
  | .start .. => False
  | .finish .. => False
  | _ => True

/-- An object is started once, under an object that was started before; spans are started and ended on
registered threads. -/
def ForestOp.Possible (w : Forest) : ForestOp → Prop
  | .start tid obj how _ _ _ _ => w.nodes obj = none ∧ w.tracer.Registered tid ∧
      ∀ p, how.parent = some p → (w.nodes p).isSome
  | .annotate obj c => (w.nodes obj).isSome ∧ ∀ now, c ≠ .finish now
  | .finish tid obj _ => (w.nodes obj).isSome ∧ w.tracer.Registered tid
  | .setSampler _ => True
  | .tracer op => op.Global ∧ op.Possible w.tracer

def forestMachine : Machine Forest ForestOp Fault where
  enabled := ForestOp.Possible
  step := forestStep pack

end

/-- The object `c` was started under the object `p`. -/
def Forest.ChildOf (w : Forest) (p c : SpanObj) : Prop :=
  ∃ n, w.nodes c = some n ∧ n.parent = some p

end OtelTracing
