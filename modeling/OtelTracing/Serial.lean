import OtelTracing.Threads
import OtelTracing.Lib.Simulation

/-!
# Calls that run alone

The functions of the API taken as one step each (`tracerMachine`), next to the same functions as
programs of threads (`processMachine`): a call that no other thread interrupts.
-/

namespace OtelTracing

open Locks

/-- The tracer with other values of the counters that are not in the source. -/
def Tracer.counting (t : Tracer) (ended emitted : Nat) : Tracer :=
  { t with ended := ended, emitted := emitted }

/-- The call that a function of the API is on its thread; where the thread does not matter, it is the
closer. -/
def Op.threadCall (closer : ThreadId) : Op → Option (ThreadId × ThreadCall)
  | .register tid a seed now => some (tid, .register a seed now)
  | .unregister tid => some (tid, .unregister)
  | .finish tid s now => some (tid, .finish s now)
  | .drain => some (closer, .drain)
  | .setRingCapacity spans => some (closer, .setRingCapacity spans)
  | .setSpanSink none => some (closer, .detach)
  | _ => none

/-- The call is made, and only its thread takes steps until it returns. -/
def Op.Alone (closer : ThreadId) (op : Op) (acts : List Act) : Prop :=
  ∃ t c n, op.threadCall closer = some (t, c) ∧ acts = .call t c :: List.replicate n (.step t)

/-- The function is a call of a thread that is not the flusher. -/
def Op.Threaded (flusher closer : ThreadId) (op : Op) : Prop :=
  ∃ t c, op.threadCall closer = some (t, c) ∧ t ≠ flusher

/-- Between calls the process, whose flusher is `f` and whose closer is `l`, has the tracer `t` up to the
counters, and no lock of the tracer is held. -/
structure Process.Serves (f l : ThreadId) (t : Tracer) (σ : Process) : Prop where
  tracer : ∃ ended emitted, σ.shared.tracer = t.counting ended emitted
  idle : ∀ u, u ≠ f → σ.pcs u = .idle
  drainLock : σ.drainLock = none
  registryLock : σ.registryLock = RwLock.free
  flusher : σ.flusher = f
  closer : σ.closer = l
  distinct : l ≠ f

end OtelTracing
