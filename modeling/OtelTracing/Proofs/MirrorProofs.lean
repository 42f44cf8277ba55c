import OtelTracing.Proofs.JournalProofs

/-!
# Proofs: the transport and the store

In a process that has a transport and the store's sink, a pass adds each span that it moves past to the
batch and gives it to the sink. Between passes the store holds the rows of the spans that the transport
was given, in the same order.
-/

namespace OtelTracing

open ByteMem Locks Outcome

variable {pack : Proto.ExportTraceServiceRequest → Bytes} {σ σ' : Process} {t : ThreadId}
  {pc pc' : Pc} {a : CtxAddr} {m m' : Shared} {s : OtelSpan} {head : UInt64} {e : EndPc}
  {p : PassPc} {v v' : PassVars} {x : Option CtxAddr} {sink : OtelSpanSink} {out : List Output}
  {qs : List (CtxAddr × Nat)} {service : Bytes} {db db' : Store}

/-! ## Spans that were added and spans that were given -/

/-- The sink was given the spans that were added, but for the next one of the context `x`. -/
def Shared.Pairs (m : Shared) : Option CtxAddr → Prop
  | none => m.added = sinkSpans m.tracer.out
  | some a => ∃ s, (m.ledger a).staged[(m.ledger a).taken]? = some s ∧
      m.added = sinkSpans m.tracer.out ++ [s]

theorem Shared.Pairs.keep (h : m.Pairs x) (hadded : m'.added = m.added)
    (hout : sinkSpans m'.tracer.out = sinkSpans m.tracer.out)
    (hledger : ∀ a, x = some a → (m.ledger a).staged <+: (m'.ledger a).staged ∧
      (m'.ledger a).taken = (m.ledger a).taken) : m'.Pairs x := by
  cases x with
  | none =>
    unfold Shared.Pairs
    rw [hadded, hout]
    exact h
  | some a =>
    obtain ⟨s, hs, hlast⟩ := h
    obtain ⟨hgrows, htaken⟩ := hledger a rfl
    obtain ⟨hlt, hs⟩ := List.getElem?_eq_some_iff.mp hs
    refine ⟨s, ?_, ?_⟩
    · rw [htaken, List.getElem?_eq_getElem (hlt.trans_le hgrows.length_le), ← hs]
      exact congrArg some (hgrows.getElem hlt).symm
    · rw [hadded, hout]
      exact hlast

/-- At most one span was added that the sink was not given. -/
theorem Shared.Pairs.ahead (h : m.Pairs x) : ∃ ahead : List OtelSpan, ahead.length ≤ 1 ∧
    m.added = sinkSpans m.tracer.out ++ ahead := by
  cases x with
  | none => exact ⟨[], Nat.zero_le 1, by rw [List.append_nil]; exact h⟩
  | some a =>
    obtain ⟨s, -, hlast⟩ := h
    exact ⟨[s], le_rfl, hlast⟩

theorem pairs_pass {ctxs : List CtxAddr} {p' : Option PassPc} (h : m.Pairs p.emitting)
    (hcounted : m.Counted p.emitting) (hpresent : m.tracer.transportPresent = true)
    (hrings : ∀ a c, m.tracer.ctxs a = some c → CtxOk c (m.ledger a))
    (hplace : ∀ a, p.ring = some a → Walking v (m.ledger a) p)
    (hset : ∀ site, ¬ SiteStepped m.tracer .span site .skip)
    (hstep : passStep pack m ctxs v p = .ok (m', p', v')) :
    m'.Pairs (p'.bind PassPc.emitting) := by
  cases pass_cases hstep with
  | beginCall site hsite =>
    refine Shared.Pairs.keep h rfl ?_ ?_
    · simp [Shared.output, sinkSpans]
    · rintro a ⟨⟩
  | finishCall site hsite =>
    refine Shared.Pairs.keep h rfl ?_ ?_
    · simp [Shared.output, sinkSpans]
    · rintro a ⟨⟩
  | flush tr ht =>
    obtain ⟨o, bufs, rfl⟩ := flush_out ht
    refine Shared.Pairs.keep h rfl ?_ ?_
    · simp
    · rintro a ⟨⟩
  | loopEnd a c hc heq =>
    refine Shared.Pairs.keep h rfl rfl ?_
    rintro b ⟨⟩
  | loopAdd a c m' hc hne hadd =>
    -- the next span of the ring is added
    obtain ⟨htail, n, hhead, hle, hlen⟩ := hplace a rfl
    have hlt : (m.ledger a).taken < (m.ledger a).staged.length := by
      refine (Nat.lt_of_le_of_ne hle fun heq => hne ?_).trans_le hlen
      rw [htail, hhead, heq]
    have hnext : (m.ledger a).added = (m.ledger a).taken := hcounted a
    obtain ⟨o, bufs, htracer⟩ := add_out hadd
    have hout : sinkSpans m'.tracer.out = sinkSpans m.tracer.out := by
      rw [htracer]
      simp
    obtain ⟨tr, -, hadd⟩ := bind_ok hadd
    rw [if_pos hpresent] at hadd
    cases hadd
    have hself : Function.update m.ledger a
        { m.ledger a with added := (m.ledger a).added + 1 } a =
          { m.ledger a with added := (m.ledger a).added + 1 } := Function.update_self ..
    refine ⟨(m.ledger a).staged[(m.ledger a).taken], ?_, ?_⟩
    · show (Function.update m.ledger a _ a).staged[(Function.update m.ledger a _ a).taken]? = _
      rw [hself]
      exact List.getElem?_eq_getElem hlt
    · rw [hout]
      show m.added ++ ((m.ledger a).staged[(m.ledger a).added]?).toList = _
      rw [hnext, List.getElem?_eq_getElem hlt]
      exact congrArg (· ++ _) h
  | emitSkip a site hsite => exact absurd hsite (hset site)
  | emitCall a site c hsite hc =>
    -- the sink is given the span that was added last
    obtain ⟨htail, n, -, hlt, hle⟩ := hplace a rfl
    obtain ⟨s, hs, hlast⟩ := h
    obtain ⟨hlt, hs⟩ := List.getElem?_eq_some_iff.mp hs
    have hread : ringMem m.tracer.ctxs ⟨a, c.slot v.tail⟩ = s := by
      simp only [ringMem, hc]
      rw [htail, (hrings a c hc).read hlt, hs]
    show m.added = sinkSpans (m.tracer.out ++ [.sinkSpan (ringMem m.tracer.ctxs ⟨a, c.slot v.tail⟩)])
    rw [hread, sinkSpans_append]
    exact hlast
  | _ => exact h

/-! ## Steps of the process -/

/-- The sink was given the spans that were added, but for the one that a pass is about to give. -/
def Process.Paired (σ : Process) : Prop :=
  ∃ x, σ.shared.Pairs x ∧ ∀ a, x = some a ↔ ∃ t, (σ.pcs t).emitting = some a

theorem Process.Paired.move (h : σ.Paired) (hpc : σ.pcs t = pc)
    (hpcs : σ'.pcs = Function.update σ.pcs t pc')
    (hpairs : ∀ x, (∀ a, x = some a → ∃ u, (σ.pcs u).emitting = some a) → σ.shared.Pairs x →
      σ'.shared.Pairs x)
    (hemit : pc'.emitting = pc.emitting) : σ'.Paired := by
  subst hpc
  obtain ⟨x, hx, hiff⟩ := h
  refine ⟨x, hpairs x (fun a => (hiff a).mp) hx, fun a => (hiff a).trans ?_⟩
  rw [hpcs]
  simp only [update_same (f := Pc.emitting) hemit]

/-- A pass has the only span that was added and not given. -/
theorem Process.Paired.pass (h : σ.Paired) (hlocks : σ.LockOk)
    (hdrain : (σ.pcs t).holdsDrain = true) : σ.shared.Pairs (σ.pcs t).emitting := by
  obtain ⟨x, hx, hiff⟩ := h
  exact emitting_eq hlocks hdrain hiff ▸ hx

/-- While `OT.sink` is set. -/
def Process.PairedOk (σ : Process) : Prop := σ.shared.tracer.sink ≠ none → σ.Paired

theorem Process.PairedOk.stay (h : σ.PairedOk) (hpc : σ.pcs t = pc)
    (hpcs : σ'.pcs = Function.update σ.pcs t pc')
    (hsink : σ'.shared.tracer.sink = σ.shared.tracer.sink)
    (hadded : σ'.shared.added = σ.shared.added)
    (hout : σ'.shared.tracer.out = σ.shared.tracer.out)
    (hledger : ∀ a, (∃ u, (σ.pcs u).emitting = some a) →
      (σ.shared.ledger a).staged <+: (σ'.shared.ledger a).staged ∧
      (σ'.shared.ledger a).taken = (σ.shared.ledger a).taken)
    (hemit : pc'.emitting = pc.emitting) : σ'.PairedOk := by
  intro hsome
  rw [hsink] at hsome
  refine (h hsome).move hpc hpcs ?_ hemit
  intro x hx hpairs
  exact hpairs.keep hadded (by rw [hout]) fun a ha => hledger a (hx a ha)

theorem ledger_same (hledger : m'.ledger = m.ledger) (a : CtxAddr) :
    (m.ledger a).staged <+: (m'.ledger a).staged ∧ (m'.ledger a).taken = (m.ledger a).taken := by
  rw [hledger]
  exact ⟨List.prefix_refl _, rfl⟩

theorem paired_pass {ctxs : List CtxAddr} {p' : Option PassPc} (h : σ.PairedOk)
    (hexp : σ.Exports pack out qs) (hok : σ.CallsOk sink) (hspan : sink.hasSpan = true)
    (hpc : σ.pcs t = pc) (hdrain : pc.holdsDrain = true) (hemit : pc.emitting = p.emitting)
    (hplace : ∀ a, p.ring = some a → Walking v (σ.shared.ledger a) p)
    (hpass : passStep pack σ.shared ctxs v p = .ok (m, p', v'))
    (hemit' : pc'.emitting = p'.bind PassPc.emitting) :
    ({ σ with shared := m }.goto t pc').PairedOk := by
  subst hpc
  intro hsome
  have hlocks := hok.heap.control.locks
  replace hsome : σ.shared.tracer.sink ≠ none := by
    rw [← (pass_sameSink hpass).sink]
    exact hsome
  have hpairs := (h hsome).pass hlocks hdrain
  have hcounted := hexp.counted_pass hlocks hdrain
  rw [hemit] at hpairs hcounted
  refine ⟨_, pairs_pass hpairs hcounted hexp.shared.transportPresent hok.heap.ring.rings hplace ?_
    hpass, ?_⟩
  · intro site hsite
    exact hok.set.not_skip (f := .span) hspan hsome hsite
  · intro a
    rw [← hemit']
    exact emitting_goto hlocks hdrain a

theorem paired_end {e' : Option EndPc} (h : σ.PairedOk) (hpc : σ.pcs t = .spanEnd a s head e)
    (hend : endStep σ.shared a s head e = .ok (m, e')) (hemit : pc'.emitting = none) :
    ({ σ with shared := m }.goto t pc').PairedOk := by
  obtain ⟨hsink, -, hout⟩ := end_sink (endStep_cases hend)
  refine h.stay hpc rfl hsink ?_ hout ?_ hemit
  · cases endStep_cases hend with
    | full | room | copy | storeHead => rfl
  · intro b _
    show _ <+: (m.ledger b).staged ∧ (m.ledger b).taken = _
    rcases end_ledger hend with hsame | hstaged
    · exact ledger_same hsame b
    · rw [hstaged]
      by_cases hb : b = a
      · subst hb
        rw [Function.update_self]
        exact ⟨List.prefix_append .., rfl⟩
      · rw [Function.update_of_ne hb]
        exact ⟨List.prefix_refl _, rfl⟩

/-- A context that was allocated is not in the registry, where a pass has found its own. -/
theorem paired_register {seed : OtelRandomState} {now : UInt64} (h : σ.PairedOk)
    (hok : σ.CallsOk sink) (hfree : σ.shared.tracer.ctxs a = none) (hidle : σ.pcs t = .idle) :
    ({ σ with shared := σ.shared.alloc a seed now }.goto t (.registerLock a)).PairedOk := by
  refine h.stay hidle rfl rfl rfl rfl ?_ rfl
  rintro b ⟨u, hu⟩
  have hne : b ≠ a := by
    rintro rfl
    have hlive := hok.heap.own.linked_live (hok.heap.reach u b (ring_mem_todo (emitting_ring hu)))
    rw [hfree] at hlive
    cases hlive
  show _ <+: (Function.update σ.shared.ledger a Ledger.empty b).staged ∧
    (Function.update σ.shared.ledger a Ledger.empty b).taken = _
  rw [Function.update_of_ne hne]
  exact ⟨List.prefix_refl _, rfl⟩

theorem paired_thread (h : σ.PairedOk) (hexp : σ.Exports pack out qs) (hok : σ.CallsOk sink)
    (hspan : sink.hasSpan = true) (hstep : Stepped pack σ t σ') : σ'.PairedOk := by
  have hplace := hok.heap.ring.places t
  cases hstep with
  | spanEnd a s head e e' m hpc hend => exact paired_end h hpc hend rfl
  | spanEnded a s head e m hpc hend => exact paired_end h hpc hend rfl
  | unregisterPass a p p' v v' m hpc hpass =>
    rw [hpc] at hplace
    exact paired_pass h hexp hok hspan hpc rfl rfl hplace hpass rfl
  | unregisterPassed a p v v' m hpc hpass =>
    rw [hpc] at hplace
    exact paired_pass h hexp hok hspan hpc rfl rfl hplace hpass rfl
  | drainPass k p p' v v' m hpc hpass =>
    rw [hpc] at hplace
    exact paired_pass h hexp hok hspan hpc rfl rfl hplace hpass rfl
  | drainPassed k p v v' m hpc hpass =>
    rw [hpc] at hplace
    exact paired_pass h hexp hok hspan hpc rfl rfl hplace hpass rfl
  | unregisterUnlink a m hpc hunlink =>
    obtain ⟨threads, -, hm⟩ := bind_ok hunlink
    cases hm
    exact h.stay hpc rfl rfl rfl rfl (fun b _ => ledger_same rfl b) rfl
  | unregisterFree a m hpc hfree =>
    obtain ⟨tracer, htracer, hm⟩ := bind_ok hfree
    obtain ⟨c, -, htracer⟩ := bind_ok htracer
    cases htracer
    cases hm
    exact h.stay hpc rfl rfl rfl rfl (fun b _ => ledger_same rfl b) rfl
  | drainSkip k hpc =>
    exact h.stay hpc rfl rfl rfl rfl (fun b _ => ledger_same rfl b) (quiet_ret k).1
  | drainUnlock k v hpc =>
    exact h.stay hpc rfl rfl rfl rfl (fun b _ => ledger_same rfl b) (quiet_ret k).1
  | detachSink close hpc =>
    intro hsome
    exact absurd rfl hsome
  | detachEnabled close hpc =>
    cases close with
    | false | true => exact h.stay hpc rfl rfl rfl rfl (fun b _ => ledger_same rfl b) rfl
  | _ =>
    refine h.stay (by assumption) rfl ?_ ?_ ?_ (fun b _ => ledger_same ?_ b) ?_
    all_goals rfl

theorem paired_step {x : Act} (h : σ.PairedOk) (hexp : σ.Exports pack out qs)
    (hok : σ.CallsOk sink) (hspan : sink.hasSpan = true) (he : x.Possible σ)
    (hstep : processStep pack σ x = .ok σ') : σ'.PairedOk := by
  cases x with
  | timer =>
    cases hstep
    exact h.stay he rfl rfl rfl rfl (fun b _ => ledger_same rfl b) rfl
  | step t => exact paired_thread h hexp hok hspan (step_cases he hstep)
  | call t c =>
    obtain ⟨hidle, hpossible⟩ := he
    cases call_cases hstep with
    | refused => exact h
    | drop => exact h
    | setRingCapacity => exact h
    | register a seed now htls => exact paired_register h hok hpossible hidle
    | _ =>
      refine h.stay hidle rfl ?_ ?_ ?_ (fun b _ => ledger_same ?_ b) ?_
      all_goals rfl

/-! ## Runs -/

/-- Rows that say what messages say. -/
theorem Store.Holds.mirrors {ss : List OtelSpan} {ps : List Proto.Span}
    (h : db.Holds service ss db') (hps : ps.map some = ss.map exported) : db.Mirrors ps db' := by
  induction h generalizing ps with
  | nil =>
    obtain rfl : ps = [] := by simpa using hps
    exact .nil
  | @snoc ss db' rows s v id origin h hread hencodes hdescribes ih =>
    rw [List.map_append, List.map_singleton] at hps
    obtain ⟨ps, last, rfl, hold, hnew⟩ := List.map_eq_append_iff.mp hps
    obtain ⟨p, rfl, hp⟩ := List.map_eq_singleton_iff.mp hnew
    rw [exported, hread] at hp
    cases hp
    exact .snoc (ih hold) hdescribes

theorem pairedOk_atRest (h : σ.AtRest) (hv : σ.Vacant) (hf : σ.Fresh sink) : σ.PairedOk := by
  intro _
  refine ⟨none, ?_, emitting_atRest h⟩
  obtain ⟨bufs, hbufs⟩ := calls_nil hf.calls
  show σ.shared.added = sinkSpans σ.shared.tracer.out
  rw [hv.added, hbufs, sinkSpans_transport]

/-- What is known in every state of a process with both exporters. -/
structure Process.BothOk (pack : Proto.ExportTraceServiceRequest → Bytes) (service : Bytes)
    (db : Store) (out : List Output) (σ : Process) : Prop where
  calls : σ.CallsOk otelSqliteSink
  replays : ∃ st, Replays service db σ.shared.tracer.out st
  exports : ∃ qs, σ.Exports pack out qs
  paired : σ.PairedOk

theorem bothOk_run (service : Bytes) (db : Store) {acts : List Act} {σ₀ : Process} (h0 : σ₀.AtRest)
    (hv : σ₀.Vacant) (hexp : σ₀.Exporting) (hf : σ₀.Fresh otelSqliteSink)
    (hfin : ∀ x ∈ acts, ∀ s, x.Ends s → Finished s)
    (hrun : ((processMachine pack).restrict Process.KeepsBatch).Run σ₀ acts σ) :
    σ.BothOk pack service db σ₀.shared.tracer.out := by
  refine hrun.invariant (I := fun σ => σ.BothOk pack service db σ₀.shared.tracer.out)
    ⟨callsOk_start h0 hv hf, ⟨_, replays_nil hf.calls⟩, ⟨[], exports_atRest h0 hv hexp⟩,
      pairedOk_atRest h0 hv hf⟩ ?_
  rintro σ x hx σ' ⟨hok, ⟨st, hst⟩, ⟨qs, h⟩, hpaired⟩ ⟨he, hkeeps⟩ hstep
  have hok' := callsOk_step rfl rfl hok (hfin x hx) he hstep
  exact ⟨hok', replays_step hok hok' hst he hstep,
    exports_step h hok.heap hok.finished.staged he hkeeps hstep,
    paired_step hpaired h hok rfl he hstep⟩

/-- When no pass holds the lock the sink was given all that was added. -/
theorem Process.Paired.rest (h : σ.Paired) (hlocks : σ.LockOk) (hlock : σ.drainLock = none) :
    σ.shared.added = sinkSpans σ.shared.tracer.out := by
  obtain ⟨x, hx, hiff⟩ := h
  cases x with
  | none => exact hx
  | some a =>
    obtain ⟨t, ht⟩ := (hiff a).mp rfl
    exact absurd hlock (hlocks.drain.ne_none (ring_holdsDrain (emitting_ring ht)))

theorem Process.Exports.rest (h : σ.Exports pack out qs) (hlocks : σ.LockOk)
    (hlock : σ.drainLock = none) : qs = [] := by
  refine h.empty fun t => ?_
  by_contra hbatching
  rw [Bool.not_eq_false] at hbatching
  exact hlocks.drain.ne_none (batching_holdsDrain hbatching) hlock

/-- Under the condition on producers under which the batch is in place, and as long as the sink is
attached, the transport is at most one span ahead of the sink; and when no pass holds the lock, the
store durably holds the rows of the spans of all requests, in the order of the requests. -/
theorem exporters_match (pack : Proto.ExportTraceServiceRequest → Bytes) (service : Bytes)
    (db : Store) (σ₀ σ : Process) (acts : List Act) (h0 : σ₀.AtRest) (hv : σ₀.Vacant)
    (hexp : σ₀.Exporting) (hf : σ₀.Fresh otelSqliteSink)
    (hfin : ∀ x ∈ acts, ∀ s, x.Ends s → Finished s)
    (hrun : ((processMachine pack).restrict Process.KeepsBatch).Run σ₀ acts σ)
    (hsome : σ.shared.tracer.sink ≠ none) :
    ∃ (reqs : List Proto.ExportTraceServiceRequest) (st : OtelSqlite),
      buffers σ.shared.tracer.out =
        buffers σ₀.shared.tracer.out ++ reqs.map (fun r => grpcFrame (pack r)) ∧
      σ.Recorded service db st ∧
      (∃ ahead : List OtelSpan, ahead.length ≤ 1 ∧
        (reqs.flatMap fun r => r.spans).map some ++
            (otlpRequest (ringMem σ.shared.tracer.ctxs) σ.shared.tracer.otlp).spans.map some =
          (sinkSpans σ.shared.tracer.out ++ ahead).map exported) ∧
      (σ.drainLock = none → db.Mirrors (reqs.flatMap fun r => r.spans) st.conn.durable) := by
  obtain ⟨hok, ⟨st, hst⟩, ⟨qs, h⟩, hpaired⟩ := bothOk_run service db h0 hv hexp hf hfin hrun
  obtain ⟨reqs, hbuf, hspans⟩ := h.shared.sent
  have hlocks := hok.heap.control.locks
  refine ⟨reqs, st, hbuf, ⟨hst.run, hst.durable, hst.data⟩, ?_, ?_⟩
  · obtain ⟨x, hx, -⟩ := hpaired hsome
    obtain ⟨ahead, hlength, hadded⟩ := hx.ahead
    refine ⟨ahead, hlength, ?_⟩
    rw [h.shared.messages, hspans, hadded]
  · intro hlock
    obtain rfl := h.rest hlocks hlock
    refine hst.durable.mirrors ?_
    have hclosed : sinkSpans σ.shared.tracer.out = (journal σ.shared.tracer.out).closed := by
      rw [sinkSpans_journal, hok.current_nil hst hsome hlock, List.append_nil]
    rw [← hclosed, ← (hpaired hsome).rest hlocks hlock, ← hspans]
    exact (List.append_nil _).symm

/-- A tracer with a transport and the store's sink. -/
def mirroringTracer : Tracer := otelSetSpanSink exportingTracer (some otelSqliteSink)

theorem mirroring_start : (Process.start mirroringTracer false 0 1).AtRest ∧
    (Process.start mirroringTracer false 0 1).Vacant ∧
    (Process.start mirroringTracer false 0 1).Exporting ∧
    (Process.start mirroringTracer false 0 1).Fresh otelSqliteSink :=
  ⟨start_atRest mirroringTracer false (by decide),
    ⟨fun _ => rfl, fun _ => rfl, rfl, ⟨11, by decide, rfl⟩, fun _ => rfl, rfl, rfl, rfl⟩,
    ⟨rfl, rfl, rfl, rfl, rfl⟩, ⟨rfl, rfl, rfl, rfl⟩⟩

/-- Thread 2 ends a span and drains it, until it has unlocked the drain lock. -/
def mirroringOne : List Act := storingOne ++ List.replicate 2 (.step 2)

theorem mirroringOne_finished : ∀ x ∈ mirroringOne, ∀ s, x.Ends s → Finished s := by
  intro x hx s hs
  rcases List.mem_append.mp hx with hx | hx
  · exact storingOne_finished x hx s hs
  · rw [List.eq_of_mem_replicate hx] at hs
    cases hs

set_option maxRecDepth 20000 in
theorem exporters_match_sample : ∃ (σ : Process) (reqs : List Proto.ExportTraceServiceRequest)
    (st : OtelSqlite), buffers σ.shared.tracer.out = reqs.map (fun r => grpcFrame r.encode) ∧
      σ.Recorded [] Store.empty st ∧
      Store.empty.Mirrors (reqs.flatMap fun r => r.spans) st.conn.durable := by
  have hrun : ∃ σ, (σ.shared.tracer.sink ≠ none ∧ σ.drainLock = none) ∧
      ((processMachine Proto.ExportTraceServiceRequest.encode).restrict Process.KeepsBatch).Run
        (Process.start mirroringTracer false 0 1) mirroringOne σ :=
    ⟨_, ⟨by rintro ⟨⟩, rfl⟩, .cons ⟨⟨rfl, rfl⟩, trivial⟩ rfl
      (.cons ⟨⟨rfl, rfl⟩, by rintro _ _ _ _ ⟨⟩⟩ rfl
      (.cons ⟨trivial, by rintro _ _ _ _ ⟨⟩⟩ rfl (.cons ⟨trivial, by rintro _ _ _ _ ⟨⟩⟩ rfl
      (.cons ⟨⟨rfl, trivial⟩, trivial⟩ rfl (.cons ⟨trivial, by rintro _ _ _ _ ⟨⟩⟩ rfl
      (.cons ⟨trivial, by rintro _ _ _ _ ⟨⟩ ⟨⟩; decide⟩ rfl
      (.cons ⟨trivial, by rintro _ _ _ _ ⟨⟩⟩ rfl (.cons ⟨⟨rfl, trivial⟩, trivial⟩ rfl
      (.cons ⟨trivial, by rintro _ _ _ _ ⟨⟩⟩ rfl (.cons ⟨rfl, by rintro _ _ _ _ ⟨⟩⟩ rfl
      (.cons ⟨rfl, by rintro _ _ _ _ ⟨⟩⟩ rfl
      (.cons ⟨trivial, by rintro _ _ _ _ ⟨⟩⟩ rfl (.cons ⟨trivial, by rintro _ _ _ _ ⟨⟩⟩ rfl
      (.cons ⟨trivial, by rintro _ _ _ _ ⟨⟩⟩ rfl (.cons ⟨trivial, by rintro _ _ _ _ ⟨⟩⟩ rfl
      (.cons ⟨trivial, by rintro _ _ _ _ ⟨⟩⟩ rfl (.cons ⟨trivial, by rintro _ _ _ _ ⟨⟩⟩ rfl
      (.cons ⟨trivial, by rintro _ _ _ _ ⟨⟩⟩ rfl (.cons ⟨trivial, by rintro _ _ _ _ ⟨⟩⟩ rfl
      (.cons ⟨trivial, by rintro _ _ _ _ ⟨⟩⟩ rfl (.cons ⟨trivial, by rintro _ _ _ _ ⟨⟩⟩ rfl
      (.cons ⟨trivial, by rintro _ _ _ _ ⟨⟩⟩ rfl (.cons ⟨trivial, by rintro _ _ _ _ ⟨⟩⟩ rfl
      (.cons ⟨trivial, by rintro _ _ _ _ ⟨⟩⟩ rfl (.cons ⟨trivial, by rintro _ _ _ _ ⟨⟩⟩ rfl
      (.cons ⟨trivial, by rintro _ _ _ _ ⟨⟩⟩ rfl (.cons ⟨trivial, by rintro _ _ _ _ ⟨⟩⟩ rfl
      (.cons ⟨trivial, by rintro _ _ _ _ ⟨⟩⟩ rfl (.cons ⟨trivial, by rintro _ _ _ _ ⟨⟩⟩ rfl
      (.cons ⟨trivial, by rintro _ _ _ _ ⟨⟩⟩ rfl (.cons ⟨trivial, by rintro _ _ _ _ ⟨⟩⟩ rfl
      (.cons ⟨trivial, by rintro _ _ _ _ ⟨⟩⟩ rfl (.cons ⟨trivial, by rintro _ _ _ _ ⟨⟩⟩ rfl
      (.cons ⟨trivial, by rintro _ _ _ _ ⟨⟩⟩ rfl .nil))))))))))))))))))))))))))))))))))⟩
  obtain ⟨σ, ⟨hsome, hlock⟩, h⟩ := hrun
  obtain ⟨reqs, st, hbuf, hrec, -, hmirror⟩ := exporters_match _ [] Store.empty _ σ _
    mirroring_start.1 mirroring_start.2.1 mirroring_start.2.2.1 mirroring_start.2.2.2
    mirroringOne_finished h hsome
  exact ⟨σ, reqs, st, hbuf, hrec, hmirror hlock⟩

end OtelTracing
