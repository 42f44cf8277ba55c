import OtelTracing.Threads

/-!
# Detaching the sink

What the users of a sink rely on when it is detached while other threads run passes, and the
condition on the steps under which they can.
-/

namespace OtelTracing

/-- The call site of a callback that a thread is at. -/
def PassPc.site : PassPc → Option (Callback × Site)
  | .begin site => some (.begin, site)
  | .emit _ site => some (.span, site)
  | .finish site => some (.finish, site)
  | _ => none

/-- The pass that a thread is in. -/
def Pc.pass : Pc → Option PassPc
  | .unregisterPass _ pc _ => some pc
  | .drainPass _ pc _ => some pc
  | _ => none

def Pc.site (pc : Pc) : Option (Callback × Site) := pc.pass.bind PassPc.site

/-- The pass has looked for a sink, and has not begun to call the last callback. -/
def PassPc.inSink : PassPc → Bool
  | .begin .present => false
  | .finish .call => false
  | _ => true

def Pc.inSink (pc : Pc) : Bool := pc.pass.any PassPc.inSink

/-- The pass is past its first call site. -/
def PassPc.begun : PassPc → Bool
  | .begin _ => false
  | _ => true

/-- The last of the calls of `begin` and `end` was one of `begin`. -/
def sinkOpen (out : List Output) : Bool :=
  out.foldl (fun isOpen o => match o with
    | .sinkBegin => true
    | .sinkEnd => false
    | _ => isOpen) false

/-- The sink `sink` can be detached: a pass that has called its `begin` has called its `end` when it
is over, `OT.sink` is not dereferenced while it is `NULL`, and no callback is about to be called once
the sink was detached or the database was finalized. -/
structure Process.SinkSafe (sink : OtelSpanSink) (σ : Process) : Prop where
  closed : sink.hasEnd = true → (∀ t, (σ.pcs t).pass = none) →
    sinkOpen σ.shared.tracer.out = false
  deref : ∀ t f site, (σ.pcs t).site = some (f, site) →
    siteStep σ.shared.tracer f site ≠ .error .nullDeref
  quiet : σ.detached = true ∨ σ.finalized = true → ∀ t f, (σ.pcs t).site ≠ some (f, .call)

/-- `OT.sink` is cleared while no pass is between its first look for a sink and the call of the last
callback, no pass takes this look before `OT.sink_present` is cleared as well, and a callback that is
being called returns before `otel_set_span_sink` does. -/
def Apart (σ : Process) : Act → Prop
  | .step t =>
    match σ.pcs t with
    | .unregisterPass _ (.begin .present) _ | .drainPass _ (.begin .present) _ =>
      σ.shared.tracer.sinkPresent = true → σ.shared.tracer.sink ≠ none
    | .detachSink _ => σ.shared.tracer.sink ≠ none → ∀ u, (σ.pcs u).inSink = false
    | .detachEnabled _ => ∀ u f, (σ.pcs u).site ≠ some (f, .call)
    | _ => True
  | _ => True

end OtelTracing
