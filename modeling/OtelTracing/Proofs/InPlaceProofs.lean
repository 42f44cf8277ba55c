import OtelTracing.Proofs.ExportingProofs

/-!
# Proofs: the batch in place

In every run in which each producer that stores a span finds fewer unpacked spans than its ring has
slots, what the transport is given are the spans that were staged; the condition is also needed, for a
producer that does not meet it stores its span in a slot of the batch.
-/

namespace OtelTracing

open ByteMem Locks Outcome

variable {pack : Proto.ExportTraceServiceRequest → Bytes} {σ σ' : Process} {t u : ThreadId}
  {pc pc' : Pc} {a b : CtxAddr} {l : Ledger} {m m' : Shared} {s : OtelSpan} {head : UInt64}
  {e : EndPc} {p : PassPc} {v v' : PassVars} {out : List Output} {qs : List (CtxAddr × Nat)}

/-! ## Steps of the process -/

def Pc.emitting : Pc → Option CtxAddr
  | .unregisterPass _ p _ | .drainPass _ p _ => p.emitting
  | _ => none

def Pc.batching : Pc → Bool
  | .unregisterPass _ p _ | .drainPass _ p _ => p.batching
  | _ => false

/-- The batch holds the spans at the positions `qs`: those of the pass that is in progress, which are in
rings of the registry. -/
structure Process.Exports (pack : Proto.ExportTraceServiceRequest → Bytes) (out : List Output)
    (qs : List (CtxAddr × Nat)) (σ : Process) : Prop where
  shared : σ.shared.Exports pack out qs
  linked : ∀ q ∈ qs, q.1 ∈ σ.shared.tracer.threads
  counted : ∃ x, σ.shared.Counted x ∧ ∀ a, x = some a ↔ ∃ t, (σ.pcs t).emitting = some a
  empty : (∀ t, (σ.pcs t).batching = false) → qs = []

theorem emitting_ring (h : pc.emitting = some a) : pc.ring = some a := by
  cases pc with
  | unregisterPass b p v | drainPass k p v =>
    cases p with
    | emit b site => exact h
    | _ => cases h
  | _ => cases h

theorem batching_holdsDrain (h : pc.batching = true) : pc.holdsDrain = true := by
  cases pc with
  | unregisterPass b p v | drainPass k p v => rfl
  | _ => cases h

theorem Process.Exports.move (h : σ.Exports pack out qs) (hpc : σ.pcs t = pc)
    (hpcs : σ'.pcs = Function.update σ.pcs t pc') (hshared : σ'.shared.Exports pack out qs)
    (hcounted : ∀ x, (∀ a, x = some a → ∃ u, (σ.pcs u).emitting = some a) → σ.shared.Counted x →
      σ'.shared.Counted x)
    (hlinked : ∀ q ∈ qs, q.1 ∈ σ.shared.tracer.threads → q.1 ∈ σ'.shared.tracer.threads)
    (hemit : pc'.emitting = pc.emitting) (hbatch : pc'.batching = pc.batching) :
    σ'.Exports pack out qs := by
  subst hpc
  refine ⟨hshared, fun q hq => hlinked q hq (h.linked q hq), ?_, ?_⟩
  · obtain ⟨x, hx, hiff⟩ := h.counted
    refine ⟨x, hcounted x (fun a => (hiff a).mp) hx, fun a => (hiff a).trans ?_⟩
    rw [hpcs]
    simp only [update_same (f := Pc.emitting) hemit]
  · intro hquiet
    rw [hpcs] at hquiet
    simp only [update_same (f := Pc.batching) hbatch] at hquiet
    exact h.empty hquiet

/-- The contexts, the registry, the batch and what was sent are the same. -/
structure Shared.SameExports (m m' : Shared) : Prop where
  ctxs : m'.tracer.ctxs = m.tracer.ctxs
  threads : m'.tracer.threads = m.tracer.threads
  otlp : m'.tracer.otlp = m.tracer.otlp
  transport : m'.tracer.transport = m.tracer.transport
  transportPresent : m'.tracer.transportPresent = m.tracer.transportPresent
  out : m'.tracer.out = m.tracer.out
  ledger : m'.ledger = m.ledger
  added : m'.added = m.added

theorem Shared.Exports.congr (h : m.Exports pack out qs) (hsame : m.SameExports m') :
    m'.Exports pack out qs := by
  refine h.keep hsame.otlp hsame.transport hsame.transportPresent (by rw [hsame.out]) hsame.added
    ?_ ?_
  · intro q _ c hc
    exact ⟨c, by rw [hsame.ctxs, hc], rfl, rfl⟩
  · intro q _
    rw [hsame.ledger]
    exact ⟨List.prefix_rfl, rfl⟩

theorem Process.Exports.stay (h : σ.Exports pack out qs) (hpc : σ.pcs t = pc)
    (hpcs : σ'.pcs = Function.update σ.pcs t pc') (hsame : σ.shared.SameExports σ'.shared)
    (hemit : pc'.emitting = pc.emitting) (hbatch : pc'.batching = pc.batching) :
    σ'.Exports pack out qs := by
  refine h.move hpc hpcs (h.shared.congr hsame) ?_ ?_ hemit hbatch
  · intro x _ hx a
    rw [hsame.ledger]
    exact hx a
  · intro q _ hq
    rw [hsame.threads]
    exact hq

/-- Only the thread that is in a pass is about to give a span to the sink. -/
theorem emitting_eq {x : Option CtxAddr} (hlocks : σ.LockOk)
    (hdrain : (σ.pcs t).holdsDrain = true)
    (hiff : ∀ a, x = some a ↔ ∃ u, (σ.pcs u).emitting = some a) : x = (σ.pcs t).emitting := by
  refine Option.ext fun a => (hiff a).trans ?_
  constructor
  · rintro ⟨u, hu⟩
    by_cases hut : u = t
    · exact hut ▸ hu
    · exact absurd (emitting_ring hu) (hlocks.other_ring hdrain hut a)
  · intro ha
    exact ⟨t, ha⟩

theorem emitting_goto (hlocks : σ.LockOk) (hdrain : (σ.pcs t).holdsDrain = true) (a : CtxAddr) :
    pc'.emitting = some a ↔ ∃ u, (Function.update σ.pcs t pc' u).emitting = some a := by
  constructor
  · intro ha
    refine ⟨t, ?_⟩
    rw [Function.update_self, ha]
  · rintro ⟨u, hu⟩
    by_cases hut : u = t
    · subst hut
      rwa [Function.update_self] at hu
    · rw [Function.update_of_ne hut] at hu
      exact absurd (emitting_ring hu) (hlocks.other_ring hdrain hut a)

/-- The thread that is in a pass is the one that has the next span of a context in the batch. -/
theorem Process.Exports.counted_pass (h : σ.Exports pack out qs) (hlocks : σ.LockOk)
    (hdrain : (σ.pcs t).holdsDrain = true) : σ.shared.Counted (σ.pcs t).emitting := by
  obtain ⟨x, hx, hiff⟩ := h.counted
  exact emitting_eq hlocks hdrain hiff ▸ hx

theorem Process.Exports.empty_pass (h : σ.Exports pack out qs) (hlocks : σ.LockOk)
    (hdrain : (σ.pcs t).holdsDrain = true) (hbatch : (σ.pcs t).batching = false) : qs = [] := by
  refine h.empty fun u => ?_
  by_cases hut : u = t
  · exact hut ▸ hbatch
  · by_contra hbatching
    rw [Bool.not_eq_false] at hbatching
    exact hut (hlocks.drain.unique (batching_holdsDrain hbatching) hdrain)

theorem exports_pass {ctxs : List CtxAddr} {p' : Option PassPc} (h : σ.Exports pack out qs)
    (hheap : σ.HeapOk) (hfin : ∀ a, ∀ s ∈ (σ.shared.ledger a).staged, Finished s)
    (hpc : σ.pcs t = pc) (hdrain : pc.holdsDrain = true) (hring : pc.ring = p.ring)
    (hemit : pc.emitting = p.emitting) (hbatch : pc.batching = p.batching)
    (hplace : ∀ a, p.ring = some a → Walking v (σ.shared.ledger a) p)
    (hpass : passStep pack σ.shared ctxs v p = .ok (m, p', v'))
    (hemit' : pc'.emitting = p'.bind PassPc.emitting)
    (hbatch' : pc'.batching = p'.any PassPc.batching) :
    ∃ qs', ({ σ with shared := m }.goto t pc').Exports pack out qs' := by
  subst hpc
  have hlocks := hheap.control.locks
  have hcounted := h.counted_pass hlocks hdrain
  rw [hemit] at hcounted
  obtain ⟨qs', h', hcounted', hempty', hmem⟩ := pass_exports h.shared hcounted
    (fun hp => h.empty_pass hlocks hdrain (hbatch.trans hp)) hheap.ring.rings hplace hfin hpass
  have hself : Function.update σ.pcs t pc' t = pc' := Function.update_self ..
  refine ⟨qs', h', ?_, ⟨_, hcounted', ?_⟩, ?_⟩
  · intro q hq
    show q.1 ∈ m.tracer.threads
    rw [(sameOwners_pass hpass).threads]
    rcases hmem q hq with hold | hnew
    · exact h.linked q hold
    · exact hheap.reach t q.1 (ring_mem_todo (hring.trans hnew))
  · intro a
    rw [← hemit']
    exact emitting_goto hlocks hdrain a
  · intro hquiet
    refine hempty' ?_
    rw [← hbatch']
    have := hquiet t
    replace this : (Function.update σ.pcs t pc' t).batching = false := this
    rwa [hself] at this

theorem exports_end {e' : Option EndPc} (h : σ.Exports pack out qs) (hring : σ.RingOk)
    (hpc : σ.pcs t = .spanEnd a s head e) (hkeeps : σ.KeepsBatch (.step t))
    (hend : endStep σ.shared a s head e = .ok (m, e'))
    (hemit : pc'.emitting = none) (hbatch : pc'.batching = false) :
    ({ σ with shared := m }.goto t pc').Exports pack out qs := by
  obtain ⟨x, hx, -⟩ := h.counted
  have hplace := hring.places t
  rw [hpc] at hplace
  refine h.move hpc rfl ?_ ?_ ?_ hemit hbatch
  · refine end_exports h.shared hring.rings ?_ hplace ?_ hend
    · rw [hx a]
      exact Nat.le_add_right ..
    · rintro rfl c hc
      exact hkeeps a s head c hpc hc
  · intro y _ hy
    show m.Counted y
    rcases end_ledger hend with hsame | hstaged
    · intro b
      rw [hsame]
      exact hy b
    · exact counted_update hy hstaged (hy a) fun _ _ => Iff.rfl
  · intro q _ hq
    show q.1 ∈ m.tracer.threads
    rw [(sameOwners_end hend).threads]
    exact hq

/-- A context that is not in the registry is not seen by the batch. -/
theorem Process.Exports.apart (h : σ.Exports pack out qs)
    (ha : a ∉ σ.shared.tracer.threads) (hctxs : ∀ b, b ≠ a → m.tracer.ctxs b = σ.shared.tracer.ctxs b)
    (hledger : ∀ b, b ≠ a → m.ledger b = σ.shared.ledger b)
    (hotlp : m.tracer.otlp = σ.shared.tracer.otlp)
    (htransport : m.tracer.transport = σ.shared.tracer.transport)
    (hpresent : m.tracer.transportPresent = σ.shared.tracer.transportPresent)
    (hout : m.tracer.out = σ.shared.tracer.out) (hadded : m.added = σ.shared.added) :
    m.Exports pack out qs := by
  have hne : ∀ q ∈ qs, q.1 ≠ a := by
    rintro q hq rfl
    exact ha (h.linked q hq)
  refine h.shared.keep hotlp htransport hpresent (by rw [hout]) hadded ?_ ?_
  · intro q hq c hc
    exact ⟨c, by rw [hctxs q.1 (hne q hq), hc], rfl, rfl⟩
  · intro q hq
    rw [hledger q.1 (hne q hq)]
    exact ⟨List.prefix_rfl, rfl⟩

theorem exports_register {seed : OtelRandomState} {now : UInt64} (h : σ.Exports pack out qs)
    (hown : σ.OwnOk) (hreach : σ.ReachOk) (hfree : σ.shared.tracer.ctxs a = none)
    (hidle : σ.pcs t = .idle) :
    ({ σ with shared := σ.shared.alloc a seed now }.goto t (.registerLock a)).Exports pack out
      qs := by
  have hnot : a ∉ σ.shared.tracer.threads := by
    intro ha
    have hlive := hown.linked_live ha
    rw [hfree] at hlive
    cases hlive
  refine h.move hidle rfl ?_ ?_ (fun _ _ hq => hq) rfl rfl
  · exact h.apart hnot (fun b hb => Function.update_of_ne hb ..)
      (fun b hb => Function.update_of_ne hb ..) rfl rfl rfl rfl rfl
  · intro x hemitting hx
    have hnone : x ≠ some a := by
      intro hxa
      obtain ⟨u, hu⟩ := hemitting a hxa
      exact hnot (hreach u a (ring_mem_todo (emitting_ring hu)))
    refine counted_update hx rfl ?_ fun _ _ => Iff.rfl
    rw [if_neg hnone]
    rfl

theorem exports_unlink (h : σ.Exports pack out qs) (hlocks : σ.LockOk)
    (hpc : σ.pcs t = .unregisterUnlink a) (hunlink : σ.shared.unlink a = .ok m) :
    ({ σ with shared := m }.goto t (.unregisterWrunlock a)).Exports pack out qs := by
  -- the pass of the thread is over
  obtain rfl : qs = [] := h.empty_pass hlocks (t := t) (by rw [hpc]; rfl) (by rw [hpc]; rfl)
  obtain ⟨threads, -, hm⟩ := bind_ok hunlink
  cases hm
  refine h.move hpc rfl ?_ (fun _ _ hx => hx) (by rintro q ⟨⟩) rfl rfl
  exact h.shared.keep rfl rfl rfl rfl rfl (by rintro q ⟨⟩) (by rintro q ⟨⟩)

theorem exports_free (h : σ.Exports pack out qs) (hown : σ.OwnOk)
    (hpc : σ.pcs t = .unregisterFree a) (hfree : σ.shared.free a = .ok m) :
    ({ σ with shared := m.setTls t none }.goto t .idle).Exports pack out qs := by
  have hnot : a ∉ σ.shared.tracer.threads := by
    intro ha
    have hlisted := (hown.listed t a (hown.owns_serving (by rw [hpc]; rfl))).mp ha
    rw [hpc] at hlisted
    cases hlisted
  obtain ⟨tracer, htracer, hm⟩ := bind_ok hfree
  obtain ⟨c, -, htracer⟩ := bind_ok htracer
  cases htracer
  cases hm
  refine h.move hpc rfl ?_ (fun _ _ hx => hx) (fun _ _ hq => hq) rfl rfl
  exact h.apart hnot (fun b hb => Function.update_of_ne hb ..) (fun _ _ => rfl) rfl rfl rfl rfl rfl

theorem quiet_ret (k : Caller) : k.ret.emitting = none ∧ k.ret.batching = false := by
  cases k with
  | user | flusher | close => exact ⟨rfl, rfl⟩

theorem exports_thread (h : σ.Exports pack out qs) (hheap : σ.HeapOk)
    (hfin : ∀ a, ∀ s ∈ (σ.shared.ledger a).staged, Finished s) (hkeeps : σ.KeepsBatch (.step t))
    (hstep : Stepped pack σ t σ') : ∃ qs', σ'.Exports pack out qs' := by
  have hplace := hheap.ring.places t
  cases hstep with
  | registerLink a hpc =>
    exact ⟨qs, h.move hpc rfl (h.shared.keep rfl rfl rfl rfl rfl (fun _ _ c hc => ⟨c, hc, rfl, rfl⟩)
      fun _ _ => ⟨List.prefix_rfl, rfl⟩) (fun _ _ hx => hx)
      (fun _ _ hq => List.mem_cons_of_mem a hq) rfl rfl⟩
  | spanEnd a s head e e' m hpc hend =>
    exact ⟨qs, exports_end h hheap.ring hpc hkeeps hend rfl rfl⟩
  | spanEnded a s head e m hpc hend =>
    exact ⟨qs, exports_end h hheap.ring hpc hkeeps hend rfl rfl⟩
  | unregisterPass a p p' v v' m hpc hpass =>
    rw [hpc] at hplace
    exact exports_pass h hheap hfin hpc rfl rfl rfl rfl hplace hpass rfl rfl
  | unregisterPassed a p v v' m hpc hpass =>
    rw [hpc] at hplace
    exact exports_pass h hheap hfin hpc rfl rfl rfl rfl hplace hpass rfl rfl
  | drainPass k p p' v v' m hpc hpass =>
    rw [hpc] at hplace
    exact exports_pass h hheap hfin hpc rfl rfl rfl rfl hplace hpass rfl rfl
  | drainPassed k p v v' m hpc hpass =>
    rw [hpc] at hplace
    exact exports_pass h hheap hfin hpc rfl rfl rfl rfl hplace hpass rfl rfl
  | unregisterUnlink a m hpc hunlink =>
    exact ⟨qs, exports_unlink h hheap.control.locks hpc hunlink⟩
  | unregisterFree a m hpc hfree => exact ⟨qs, exports_free h hheap.own hpc hfree⟩
  | drainSkip k hpc =>
    obtain ⟨hemit, hbatch⟩ := quiet_ret k
    exact ⟨qs, h.stay hpc rfl ⟨rfl, rfl, rfl, rfl, rfl, rfl, rfl, rfl⟩ hemit hbatch⟩
  | drainUnlock k v hpc =>
    obtain ⟨hemit, hbatch⟩ := quiet_ret k
    exact ⟨qs, h.stay hpc rfl ⟨rfl, rfl, rfl, rfl, rfl, rfl, rfl, rfl⟩ hemit hbatch⟩
  | detachEnabled close hpc =>
    cases close with
    | false | true =>
      exact ⟨qs, h.stay hpc rfl ⟨rfl, rfl, rfl, rfl, rfl, rfl, rfl, rfl⟩ rfl rfl⟩
  | _ =>
    refine ⟨qs, h.stay (by assumption) rfl ?_ ?_ ?_⟩
    · exact ⟨rfl, rfl, rfl, rfl, rfl, rfl, rfl, rfl⟩
    · rfl
    · rfl

theorem exports_step {x : Act} (h : σ.Exports pack out qs) (hheap : σ.HeapOk)
    (hfin : ∀ a, ∀ s ∈ (σ.shared.ledger a).staged, Finished s) (he : x.Possible σ)
    (hkeeps : σ.KeepsBatch x) (hstep : processStep pack σ x = .ok σ') :
    ∃ qs', σ'.Exports pack out qs' := by
  cases x with
  | timer =>
    cases hstep
    exact ⟨qs, h.stay he rfl ⟨rfl, rfl, rfl, rfl, rfl, rfl, rfl, rfl⟩ rfl rfl⟩
  | step t => exact exports_thread h hheap hfin hkeeps (step_cases he hstep)
  | call t c =>
    obtain ⟨hidle, hpossible⟩ := he
    cases call_cases hstep with
    | refused => exact ⟨qs, h⟩
    | drop =>
      exact ⟨qs, { h with shared := h.shared.congr ⟨rfl, rfl, rfl, rfl, rfl, rfl, rfl, rfl⟩ }⟩
    | setRingCapacity =>
      exact ⟨qs, { h with shared := h.shared.congr ⟨rfl, rfl, rfl, rfl, rfl, rfl, rfl, rfl⟩ }⟩
    | register a seed now htls =>
      exact ⟨qs, exports_register h hheap.own hheap.reach hpossible hidle⟩
    | _ =>
      refine ⟨qs, h.stay hidle rfl ?_ ?_ ?_⟩
      · exact ⟨rfl, rfl, rfl, rfl, rfl, rfl, rfl, rfl⟩
      · rfl
      · rfl

/-! ## The spans of a run -/

variable {Q : OtelSpan → Prop}

/-- The spans that are being ended, that are staged and that were added satisfy `Q`. -/
structure Process.Only (Q : OtelSpan → Prop) (σ : Process) : Prop where
  ending : ∀ t a s head e, σ.pcs t = .spanEnd a s head e → Q s
  staged : ∀ a, ∀ s ∈ (σ.shared.ledger a).staged, Q s
  added : ∀ s ∈ σ.shared.added, Q s

theorem update_staged (hledger : m'.ledger = Function.update m.ledger a l)
    (hstaged : l.staged = (m.ledger a).staged) (b : CtxAddr) :
    (m'.ledger b).staged = (m.ledger b).staged := by
  rw [hledger]
  by_cases hb : b = a
  · rw [hb, Function.update_self, hstaged]
  · rw [Function.update_of_ne hb]

/-- A pass adds spans that are staged. -/
theorem pass_spans {ctxs : List CtxAddr} {p' : Option PassPc}
    (h : passStep pack m ctxs v p = .ok (m', p', v')) :
    (∀ b, (m'.ledger b).staged = (m.ledger b).staged) ∧
      ∀ s ∈ m'.added, s ∈ m.added ∨ ∃ b, s ∈ (m.ledger b).staged := by
  cases pass_cases h with
  | loopEnd a c hc heq => exact ⟨update_staged rfl rfl, fun s hs => Or.inl hs⟩
  | loopAdd a c m' hc hne hadd =>
    obtain ⟨tracer, -, hadd⟩ := bind_ok hadd
    cases hadd
    by_cases hp : m.tracer.transportPresent = true
    · rw [if_pos hp]
      refine ⟨update_staged rfl rfl, fun s hs => ?_⟩
      rcases List.mem_append.mp hs with hs | hs
      · exact Or.inl hs
      · rw [Option.mem_toList] at hs
        exact Or.inr ⟨a, List.mem_of_getElem? hs⟩
    · rw [if_neg hp]
      exact ⟨fun b => rfl, fun s hs => Or.inl hs⟩
  | emitSkip a site hsite => exact ⟨update_staged rfl rfl, fun s hs => Or.inl hs⟩
  | emitCall a site c hsite hc =>
    refine ⟨fun b => ?_, fun s hs => Or.inl hs⟩
    have htake : (((m.give ⟨a, c.slot v.tail⟩).take a).ledger b).staged =
        ((m.give ⟨a, c.slot v.tail⟩).ledger b).staged := by
      refine update_staged (a := a) rfl ?_ b
      rfl
    rw [htake]
    refine update_staged (a := a) rfl ?_ b
    rfl
  | _ => exact ⟨fun b => rfl, fun s hs => Or.inl hs⟩

theorem Process.Only.move (h : σ.Only Q) (hpcs : σ'.pcs = Function.update σ.pcs t pc')
    (hpc : ∀ a s head e, pc' = .spanEnd a s head e → Q s)
    (hstaged : ∀ a, ∀ s ∈ (σ'.shared.ledger a).staged, Q s)
    (hadded : ∀ s ∈ σ'.shared.added, Q s) : σ'.Only Q := by
  refine ⟨?_, hstaged, hadded⟩
  intro u a s head e hu
  rw [hpcs] at hu
  by_cases hut : u = t
  · subst hut
    rw [Function.update_self] at hu
    exact hpc a s head e hu
  · rw [Function.update_of_ne hut] at hu
    exact h.ending u a s head e hu

theorem only_pass {ctxs : List CtxAddr} {p' : Option PassPc} (h : σ.Only Q)
    (hpass : passStep pack σ.shared ctxs v p = .ok (m, p', v'))
    (hpc : ∀ a s head e, pc' ≠ .spanEnd a s head e) :
    ({ σ with shared := m }.goto t pc').Only Q := by
  obtain ⟨hstaged, hadded⟩ := pass_spans hpass
  refine h.move rfl (fun a s head e heq => absurd heq (hpc a s head e)) ?_ ?_
  · intro a s hs
    refine h.staged a s ?_
    rw [← hstaged a]
    exact hs
  · intro s hs
    rcases hadded s hs with hold | ⟨a, hs⟩
    · exact h.added s hold
    · exact h.staged a s hs

theorem only_end {e' : Option EndPc} (h : σ.Only Q) (hpc : σ.pcs t = .spanEnd a s head e)
    (hend : endStep σ.shared a s head e = .ok (m, e'))
    (hpc' : ∀ a' s' head' e', pc' = .spanEnd a' s' head' e' → s' = s) :
    ({ σ with shared := m }.goto t pc').Only Q := by
  have hs := h.ending t a s head e hpc
  refine h.move rfl (fun a' s' head' e' heq => hpc' a' s' head' e' heq ▸ hs) ?_ ?_
  · intro b s' hs'
    replace hs' : s' ∈ (m.ledger b).staged := hs'
    rcases end_ledger hend with hsame | hstaged
    · rw [hsame] at hs'
      exact h.staged b s' hs'
    · rw [hstaged] at hs'
      by_cases hb : b = a
      · rw [hb, Function.update_self] at hs'
        rcases List.mem_append.mp hs' with hold | hnew
        · exact h.staged a s' hold
        · rw [List.mem_singleton.mp hnew]
          exact hs
      · rw [Function.update_of_ne hb] at hs'
        exact h.staged b s' hs'
  · cases endStep_cases hend with
    | full | room | copy | storeHead => exact h.added

theorem only_thread (h : σ.Only Q) (hstep : Stepped pack σ t σ') : σ'.Only Q := by
  cases hstep with
  | spanEnd a s head e e' m hpc hend =>
    refine only_end h hpc hend ?_
    rintro a' s' head' e'' ⟨⟩
    rfl
  | spanEnded a s head e m hpc hend =>
    refine only_end h hpc hend ?_
    rintro a' s' head' e'' ⟨⟩
  | unregisterPass a p p' v v' m hpc hpass =>
    refine only_pass h hpass ?_
    rintro a s head e ⟨⟩
  | unregisterPassed a p v v' m hpc hpass =>
    refine only_pass h hpass ?_
    rintro a s head e ⟨⟩
  | drainPass k p p' v v' m hpc hpass =>
    refine only_pass h hpass ?_
    rintro a s head e ⟨⟩
  | drainPassed k p v v' m hpc hpass =>
    refine only_pass h hpass ?_
    rintro a s head e ⟨⟩
  | unregisterUnlink a m hpc hunlink =>
    obtain ⟨threads, -, hm⟩ := bind_ok hunlink
    cases hm
    refine h.move rfl ?_ h.staged h.added
    rintro a s head e ⟨⟩
  | unregisterFree a m hpc hfree =>
    obtain ⟨tracer, -, hm⟩ := bind_ok hfree
    cases hm
    refine h.move rfl ?_ h.staged h.added
    rintro a s head e ⟨⟩
  | drainSkip k hpc =>
    refine h.move rfl ?_ h.staged h.added
    cases k with
    | user | flusher | close => rintro a s head e ⟨⟩
  | drainUnlock k v hpc =>
    refine h.move rfl ?_ h.staged h.added
    cases k with
    | user | flusher | close => rintro a s head e ⟨⟩
  | detachEnabled close hpc =>
    refine h.move rfl ?_ h.staged h.added
    cases close with
    | false | true => rintro a s head e ⟨⟩
  | _ =>
    refine h.move rfl ?_ h.staged h.added
    rintro a s head e ⟨⟩

theorem only_step {x : Act} (h : σ.Only Q) (hx : ∀ s, x.Ends s → Q s) (he : x.Possible σ)
    (hstep : processStep pack σ x = .ok σ') : σ'.Only Q := by
  cases x with
  | timer =>
    cases hstep
    refine h.move rfl ?_ h.staged h.added
    rintro a s head e ⟨⟩
  | step t => exact only_thread h (step_cases he hstep)
  | call t c =>
    cases call_cases hstep with
    | refused => exact h
    | drop => exact { h with }
    | setRingCapacity => exact { h with }
    | register a seed now htls =>
      refine h.move rfl ?_ ?_ h.added
      · rintro a s head e ⟨⟩
      · intro b s hs
        replace hs : s ∈ (Function.update σ.shared.ledger a Ledger.empty b).staged := hs
        by_cases hb : b = a
        · rw [hb, Function.update_self] at hs
          cases hs
        · rw [Function.update_of_ne hb] at hs
          exact h.staged b s hs
    | finish a c s now hrec htls hc =>
      refine h.move rfl ?_ h.staged h.added
      rintro a s head e ⟨⟩
      exact hx _ ⟨hrec, rfl⟩
    | _ =>
      refine h.move rfl ?_ h.staged h.added
      rintro a s head e ⟨⟩

/-! ## Runs -/

theorem atRest_emitting (h : σ.AtRest) (t : ThreadId) : (σ.pcs t).emitting = none := by
  by_cases ht : t = σ.flusher
  · rcases atRest_flusher h with hpc | hpc
    · rw [ht, hpc]
      rfl
    · rw [ht, hpc]
      rfl
  · rw [h.idle t ht]
    rfl

/-- At rest no pass is about to give a span to the sink. -/
theorem emitting_atRest (h : σ.AtRest) (a : CtxAddr) :
    none = some a ↔ ∃ t, (σ.pcs t).emitting = some a := by
  constructor
  · rintro ⟨⟩
  · rintro ⟨t, ht⟩
    rw [atRest_emitting h t] at ht
    cases ht

theorem exports_atRest (h : σ.AtRest) (hv : σ.Vacant) (hexp : σ.Exporting) :
    σ.Exports pack σ.shared.tracer.out [] := by
  refine ⟨?_, by rintro q ⟨⟩, ⟨none, ?_, emitting_atRest h⟩, fun _ => rfl⟩
  · refine
      { transport := hexp.transport
        transportPresent := hexp.transportPresent
        batch := Batch.nil hexp.nSpans hexp.numAttrs hexp.numEvents
        mem_iff := fun a i => mem_iff_nil _ i
        tally_le := fun a => Nat.zero_le _
        inPlace := by rintro q ⟨⟩
        sent := ⟨[], ?_, ?_⟩ }
    · simp
    · rw [hv.added]
      rfl
  · intro a
    rw [hv.ledger a]
    rfl

theorem only_atRest (h : σ.AtRest) (hv : σ.Vacant) : σ.Only Q := by
  refine ⟨?_, ?_, ?_⟩
  · intro t a s head e ht
    by_cases hflusher : t = σ.flusher
    · rcases atRest_flusher h with hpc | hpc
      · rw [hflusher, hpc] at ht
        cases ht
      · rw [hflusher, hpc] at ht
        cases ht
    · rw [h.idle t hflusher] at ht
      cases ht
  · intro a s hs
    rw [hv.ledger a] at hs
    cases hs
  · intro s hs
    rw [hv.added] at hs
    cases hs

/-- What holds in every state of a run of `acts` in which the batch stays in place. -/
structure Process.Keeping (pack : Proto.ExportTraceServiceRequest → Bytes) (out : List Output)
    (acts : List Act) (σ : Process) : Prop where
  heap : σ.HeapOk
  only : σ.Only fun s => Finished s ∧ ∃ x ∈ acts, x.Ends s
  exports : ∃ qs, σ.Exports pack out qs

theorem keeping_step {acts : List Act} {x : Act} (h : σ.Keeping pack out acts)
    (hfin : ∀ x ∈ acts, ∀ s, x.Ends s → Finished s) (hx : x ∈ acts) (he : x.Possible σ)
    (hkeeps : σ.KeepsBatch x) (hstep : processStep pack σ x = .ok σ') :
    σ'.Keeping pack out acts := by
  obtain ⟨hheap, honly, qs, h⟩ := h
  refine ⟨heapOk_step hheap he hstep, only_step honly ?_ he hstep, ?_⟩
  · intro s hs
    exact ⟨hfin x hx s hs, x, hx, hs⟩
  · exact exports_step h hheap (fun a s hs => (honly.staged a s hs).1) he hkeeps hstep

theorem keeping_start {σ₀ : Process} (h0 : σ₀.AtRest) (hv : σ₀.Vacant) (hexp : σ₀.Exporting)
    (acts : List Act) : σ₀.Keeping pack σ₀.shared.tracer.out acts :=
  ⟨heapOk_start h0 hv, only_atRest h0 hv, [], exports_atRest h0 hv hexp⟩

theorem exports_run {acts : List Act} {σ₀ : Process} (h0 : σ₀.AtRest) (hv : σ₀.Vacant)
    (hexp : σ₀.Exporting) (hfin : ∀ x ∈ acts, ∀ s, x.Ends s → Finished s)
    (hrun : ((processMachine pack).restrict Process.KeepsBatch).Run σ₀ acts σ) :
    σ.Keeping pack σ₀.shared.tracer.out acts :=
  hrun.invariant (keeping_start h0 hv hexp acts) fun _ _ hx _ h he hstep =>
    keeping_step h hfin hx he.1 he.2 hstep

/-- A producer overwrites a slot of the batch if and only if it does not meet the condition. -/
theorem Process.Exports.keepsBatch_iff (h : σ.Exports pack out qs) (hring : σ.RingOk)
    (t : ThreadId) : σ.KeepsBatch (.step t) ↔
      ∀ a s head c, σ.pcs t = .spanEnd a s head .copy → σ.shared.tracer.ctxs a = some c →
        ∀ i < σ.shared.tracer.otlp.nSpans, ¬ σ.shared.tracer.Refers i ⟨a, c.slot head⟩ := by
  refine forall_congr' fun a => forall_congr' fun s => forall_congr' fun head =>
    forall_congr' fun c => forall_congr' fun hpc => forall_congr' fun hc => ?_
  obtain ⟨x, hx, -⟩ := h.counted
  have hplace := hring.places t
  rw [hpc] at hplace
  obtain ⟨hhead, hroom, -⟩ := hplace c hc
  have hadded : (σ.shared.ledger a).taken ≤ (σ.shared.ledger a).added := by
    rw [hx a]
    exact Nat.le_add_right ..
  rw [h.shared.keeps_iff (hring.rings a c hc) hadded (hroom (by rintro ⟨⟩)), hhead]
  have hrefers := h.shared.refers_iff hc (c.slot c.head)
  constructor
  · intro hall i hi hrefer
    obtain ⟨j, hj, hslot⟩ := hrefers.mp ⟨i, hi, hrefer⟩
    exact hall j hj hslot
  · intro hnone j hj hslot
    obtain ⟨i, hi, hrefer⟩ := hrefers.mpr ⟨j, hj, hslot⟩
    exact hnone i hi hrefer

/-- As long as each producer that stores a span finds fewer spans of its thread unpacked than its ring
has slots, the requests that the transport is given and the batch are, in order, the exported forms of
spans as they were ended; and this is when no producer stores a span in a slot of the batch. -/
theorem batch_in_place (pack : Proto.ExportTraceServiceRequest → Bytes) (σ₀ σ : Process)
    (acts : List Act) (h0 : σ₀.AtRest) (hv : σ₀.Vacant) (hexp : σ₀.Exporting)
    (hfin : ∀ x ∈ acts, ∀ s, x.Ends s → Finished s)
    (hrun : ((processMachine pack).restrict Process.KeepsBatch).Run σ₀ acts σ) :
    (∃ reqs : List Proto.ExportTraceServiceRequest,
      buffers σ.shared.tracer.out =
        buffers σ₀.shared.tracer.out ++ reqs.map (fun r => grpcFrame (pack r)) ∧
      (reqs.flatMap fun r => r.spans).map some ++
          (otlpRequest (ringMem σ.shared.tracer.ctxs) σ.shared.tracer.otlp).spans.map some =
        σ.shared.added.map exported) ∧
    (∀ s ∈ σ.shared.added, ∃ x ∈ acts, x.Ends s) ∧
    ∀ t, σ.KeepsBatch (.step t) ↔
      ∀ a s head c, σ.pcs t = .spanEnd a s head .copy → σ.shared.tracer.ctxs a = some c →
        ∀ i < σ.shared.tracer.otlp.nSpans, ¬ σ.shared.tracer.Refers i ⟨a, c.slot head⟩ := by
  obtain ⟨hheap, honly, qs, h⟩ := exports_run h0 hv hexp hfin hrun
  obtain ⟨reqs, hbuf, hspans⟩ := h.shared.sent
  refine ⟨⟨reqs, hbuf, ?_⟩, fun s hs => (honly.added s hs).2, h.keepsBatch_iff hheap.ring⟩
  rw [h.shared.messages]
  exact hspans

/-- A tracer with a transport. -/
def exportingTracer : Tracer := otelSetTransport (otelInit Tracer.boot none none true).1 true

theorem exporting_start : (Process.start exportingTracer false 0 1).AtRest ∧
    (Process.start exportingTracer false 0 1).Vacant ∧
    (Process.start exportingTracer false 0 1).Exporting :=
  ⟨start_atRest exportingTracer false (by decide),
    ⟨fun _ => rfl, fun _ => rfl, rfl, ⟨11, by decide, rfl⟩, fun _ => rfl, rfl, rfl, rfl⟩,
    ⟨rfl, rfl, rfl, rfl, rfl⟩⟩

/-- Thread 2 ends a span and drains it. -/
def exportingOne : List Act :=
  [.call 2 (.register 7 ⟨1, 0⟩ 0), .step 2, .step 2, .step 2,
    .call 2 (.finish (sampleSession [97]).span 1), .step 2, .step 2, .step 2, .call 2 .drain] ++
    List.replicate 9 (.step 2)

theorem exportingOne_finished : ∀ x ∈ exportingOne, ∀ s, x.Ends s → Finished s := by
  intro x hx s hs
  have hone : Finished (stampEnd (sampleSession [97]).span 1) :=
    finished_named 1 (by simp [ShortStr])
  simp only [exportingOne, List.mem_append, List.mem_cons, List.mem_replicate, List.not_mem_nil,
    or_false] at hx
  rcases hx with (rfl | rfl | rfl | rfl | rfl | rfl | rfl | rfl | rfl) | ⟨-, rfl⟩
  · cases hs
  · cases hs
  · cases hs
  · cases hs
  · rw [hs.2]
    exact hone
  all_goals cases hs

theorem batch_in_place_sample : ∃ (σ : Process) (reqs : List Proto.ExportTraceServiceRequest),
    buffers σ.shared.tracer.out = reqs.map (fun r => grpcFrame r.encode) ∧
    (reqs.flatMap fun r => r.spans).map some ++
        (otlpRequest (ringMem σ.shared.tracer.ctxs) σ.shared.tracer.otlp).spans.map some =
      [exported (stampEnd (sampleSession [97]).span 1)] := by
  have hrun : ∃ σ, σ.shared.added = [stampEnd (sampleSession [97]).span 1] ∧
      ((processMachine Proto.ExportTraceServiceRequest.encode).restrict Process.KeepsBatch).Run
        (Process.start exportingTracer false 0 1) exportingOne σ :=
    ⟨_, rfl, .cons ⟨⟨rfl, rfl⟩, trivial⟩ rfl (.cons ⟨⟨rfl, rfl⟩, by rintro _ _ _ _ ⟨⟩⟩ rfl
      (.cons ⟨trivial, by rintro _ _ _ _ ⟨⟩⟩ rfl (.cons ⟨trivial, by rintro _ _ _ _ ⟨⟩⟩ rfl
      (.cons ⟨⟨rfl, trivial⟩, trivial⟩ rfl (.cons ⟨trivial, by rintro _ _ _ _ ⟨⟩⟩ rfl
      (.cons ⟨trivial, by rintro _ _ _ _ ⟨⟩ ⟨⟩; decide⟩ rfl
      (.cons ⟨trivial, by rintro _ _ _ _ ⟨⟩⟩ rfl (.cons ⟨⟨rfl, trivial⟩, trivial⟩ rfl
      (.cons ⟨trivial, by rintro _ _ _ _ ⟨⟩⟩ rfl (.cons ⟨rfl, by rintro _ _ _ _ ⟨⟩⟩ rfl
      (.cons ⟨rfl, by rintro _ _ _ _ ⟨⟩⟩ rfl (.cons ⟨trivial, by rintro _ _ _ _ ⟨⟩⟩ rfl
      (.cons ⟨trivial, by rintro _ _ _ _ ⟨⟩⟩ rfl (.cons ⟨trivial, by rintro _ _ _ _ ⟨⟩⟩ rfl
      (.cons ⟨trivial, by rintro _ _ _ _ ⟨⟩⟩ rfl (.cons ⟨trivial, by rintro _ _ _ _ ⟨⟩⟩ rfl
      (.cons ⟨trivial, by rintro _ _ _ _ ⟨⟩⟩ rfl .nil)))))))))))))))))⟩
  obtain ⟨σ, hadded, h⟩ := hrun
  obtain ⟨⟨reqs, hbuf, hspans⟩, -⟩ := batch_in_place _ _ σ _ exporting_start.1 exporting_start.2.1
    exporting_start.2.2 exportingOne_finished h
  rw [hadded] at hspans
  exact ⟨σ, reqs, hbuf, hspans⟩

/-- Thread 2 fills a ring of two slots, which thread 3 drains up to the store of `tail`; then thread 2
stores another span in the first slot, and thread 3 flushes. -/
def overwriting : List Act :=
  [.call 2 (.setRingCapacity 2), .call 2 (.register 7 ⟨1, 0⟩ 0), .step 2, .step 2, .step 2,
    .call 2 (.finish (sampleSession [97]).span 1), .step 2, .step 2, .step 2,
    .call 2 (.finish (sampleSession [98]).span 2), .step 2, .step 2, .step 2, .call 3 .drain] ++
    List.replicate 11 (.step 3) ++
    [.call 2 (.finish (sampleSession [99]).span 3), .step 2, .step 2, .step 3, .step 3]

set_option maxRecDepth 20000 in
/-- The request has the name of the last span with the times of the first. -/
theorem batch_overwritten : ∃ (σ : Process) (r : Proto.ExportTraceServiceRequest),
    (processMachine Proto.ExportTraceServiceRequest.encode).Run
      (Process.start exportingTracer false 0 1) overwriting σ ∧
    buffers σ.shared.tracer.out = [grpcFrame r.encode] ∧
    r.spans.map (fun s => (s.name, s.endTimeUnixNano)) = [([99], 1), ([98], 2)] ∧
    σ.shared.added.map (fun s => ((otelSpanName s).bytes s, s.endUnixNs)) =
      [([97], 1), ([98], 2)] :=
  ⟨_, _, .cons ⟨rfl, trivial⟩ rfl (.cons ⟨rfl, rfl⟩ rfl (.cons ⟨rfl, rfl⟩ rfl (.cons trivial rfl
    (.cons trivial rfl (.cons ⟨rfl, trivial⟩ rfl (.cons trivial rfl (.cons trivial rfl
    (.cons trivial rfl (.cons ⟨rfl, trivial⟩ rfl (.cons trivial rfl (.cons trivial rfl
    (.cons trivial rfl (.cons ⟨rfl, trivial⟩ rfl (.cons trivial rfl (.cons rfl rfl (.cons rfl rfl
    (.cons trivial rfl (.cons trivial rfl (.cons trivial rfl (.cons trivial rfl (.cons trivial rfl
    (.cons trivial rfl (.cons trivial rfl (.cons trivial rfl (.cons ⟨rfl, trivial⟩ rfl
    (.cons trivial rfl (.cons trivial rfl (.cons trivial rfl (.cons trivial rfl
    .nil))))))))))))))))))))))))))))), rfl, rfl, rfl⟩

end OtelTracing
