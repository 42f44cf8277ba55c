import OtelTracing.Threads
import OtelTracing.Proofs.TracerProofs

/-!
# Proofs: what a step of the process can be

The cases of a step of a pass and of a producer, of a call, and of the step of a thread, with what the
thread did not have to wait for.
-/

namespace OtelTracing

open ByteMem Locks Outcome

variable {pack : Proto.ExportTraceServiceRequest → Bytes} {σ σ' : Process} {t u : ThreadId}
  {pc' : Pc}

/-! ## Call sites -/

inductive SiteStepped (t : Tracer) (f : Callback) : Site → SiteExit → Prop
  | present (h : t.sinkPresent = true) : SiteStepped t f .present (.stay .test)
  | absent (h : t.sinkPresent = false) : SiteStepped t f .present .skip
  | test (sink : OtelSpanSink) (h : t.sink = some sink) (hset : f.isSet sink = true) :
      SiteStepped t f .test (.stay .fetch)
  | unset (sink : OtelSpanSink) (h : t.sink = some sink) (hset : f.isSet sink = false) :
      SiteStepped t f .test .skip
  | fetch (sink : OtelSpanSink) (h : t.sink = some sink) : SiteStepped t f .fetch (.stay .priv)
  | priv (sink : OtelSpanSink) (h : t.sink = some sink) : SiteStepped t f .priv (.stay .call)
  | call : SiteStepped t f .call .called

theorem derefSink_ok {tr : Tracer} {sink : OtelSpanSink} (h : tr.derefSink = .ok sink) :
    tr.sink = some sink := by
  unfold Tracer.derefSink at h
  cases hs : tr.sink with
  | none => simp [hs] at h
  | some sink' => simpa [hs] using h

theorem site_cases {tr : Tracer} {f : Callback} {site : Site} {e : SiteExit}
    (h : siteStep tr f site = .ok e) : SiteStepped tr f site e := by
  cases site with
  | present =>
    cases h
    by_cases hp : tr.sinkPresent = true
    · rw [if_pos hp]
      exact .present hp
    · rw [if_neg hp]
      exact .absent (Bool.not_eq_true _ ▸ hp)
  | test =>
    obtain ⟨sink, hsink, h⟩ := bind_ok h
    cases h
    by_cases hset : f.isSet sink = true
    · rw [if_pos hset]
      exact .test sink (derefSink_ok hsink) hset
    · rw [if_neg hset]
      exact .unset sink (derefSink_ok hsink) (Bool.not_eq_true _ ▸ hset)
  | fetch =>
    obtain ⟨sink, hsink, h⟩ := bind_ok h
    cases h
    exact .fetch sink (derefSink_ok hsink)
  | priv =>
    obtain ⟨sink, hsink, h⟩ := bind_ok h
    cases h
    exact .priv sink (derefSink_ok hsink)
  | call =>
    cases h
    exact .call

/-! ## Passes -/

inductive Passed (pack : Proto.ExportTraceServiceRequest → Bytes) (m : Shared)
    (ctxs : List CtxAddr) (v : PassVars) : PassPc → Shared → Option PassPc → PassVars → Prop
  | beginStay (site site' : Site) (h : SiteStepped m.tracer .begin site (.stay site')) :
      Passed pack m ctxs v (.begin site) m (some (.begin site')) v
  | beginSkip (site : Site) (h : SiteStepped m.tracer .begin site .skip) :
      Passed pack m ctxs v (.begin site) m (some .walk) { v with rest := ctxs }
  | beginCall (site : Site) (h : SiteStepped m.tracer .begin site .called) :
      Passed pack m ctxs v (.begin site) (m.output .sinkBegin) (some .walk) { v with rest := ctxs }
  | walkEnd (hrest : v.rest = []) : Passed pack m ctxs v .walk m (some .flush) v
  | walkCtx (a : CtxAddr) (rest : List CtxAddr) (c : OtelThreadCtx) (hrest : v.rest = a :: rest)
      (hc : m.tracer.ctxs a = some c) :
      Passed pack m ctxs v .walk m (some (.loadHead a)) { v with rest := rest, tail := c.tail }
  | loadHead (a : CtxAddr) (c : OtelThreadCtx) (hc : m.tracer.ctxs a = some c) :
      Passed pack m ctxs v (.loadHead a) m (some (.loop a)) { v with head := c.head }
  | loopEnd (a : CtxAddr) (c : OtelThreadCtx) (hc : m.tracer.ctxs a = some c)
      (heq : v.tail = v.head) :
      Passed pack m ctxs v (.loop a) ((m.setCtx a { c with tail := v.tail }).publish a)
        (some .walk) v
  | loopAdd (a : CtxAddr) (c : OtelThreadCtx) (m' : Shared) (hc : m.tracer.ctxs a = some c)
      (hne : v.tail ≠ v.head) (hadd : m.add pack ⟨a, c.slot v.tail⟩ = .ok m') :
      Passed pack m ctxs v (.loop a) m' (some (.emit a .present)) v
  | emitStay (a : CtxAddr) (site site' : Site) (h : SiteStepped m.tracer .span site (.stay site')) :
      Passed pack m ctxs v (.emit a site) m (some (.emit a site')) v
  | emitSkip (a : CtxAddr) (site : Site) (h : SiteStepped m.tracer .span site .skip) :
      Passed pack m ctxs v (.emit a site) (m.take a) (some (.loop a)) v.advance
  | emitCall (a : CtxAddr) (site : Site) (c : OtelThreadCtx)
      (h : SiteStepped m.tracer .span site .called) (hc : m.tracer.ctxs a = some c) :
      Passed pack m ctxs v (.emit a site) ((m.give ⟨a, c.slot v.tail⟩).take a) (some (.loop a))
        v.advance
  | flush (t : Tracer) (h : m.tracer.flush pack = .ok t) :
      Passed pack m ctxs v .flush { m with tracer := t } (some (.finish .present)) v
  | finishStay (site site' : Site) (h : SiteStepped m.tracer .finish site (.stay site')) :
      Passed pack m ctxs v (.finish site) m (some (.finish site')) v
  | finishSkip (site : Site) (h : SiteStepped m.tracer .finish site .skip) :
      Passed pack m ctxs v (.finish site) m none v
  | finishCall (site : Site) (h : SiteStepped m.tracer .finish site .called) :
      Passed pack m ctxs v (.finish site) (m.output .sinkEnd) none v

theorem pass_cases {m m' : Shared} {ctxs : List CtxAddr} {v v' : PassVars} {pc : PassPc}
    {pc' : Option PassPc} (h : passStep pack m ctxs v pc = .ok (m', pc', v')) :
    Passed pack m ctxs v pc m' pc' v' := by
  cases pc with
  | begin site =>
    obtain ⟨e, he, h⟩ := bind_ok h
    cases e with
    | stay site' =>
      cases h
      exact .beginStay site site' (site_cases he)
    | skip =>
      cases h
      exact .beginSkip site (site_cases he)
    | called =>
      cases h
      exact .beginCall site (site_cases he)
  | walk =>
    cases hrest : v.rest with
    | nil =>
      simp only [passStep, hrest] at h
      cases h
      exact .walkEnd hrest
    | cons a rest =>
      simp only [passStep, hrest] at h
      obtain ⟨c, hc, h⟩ := bind_ok h
      cases h
      exact .walkCtx a rest c hrest (deref_ok hc)
  | loadHead a =>
    obtain ⟨c, hc, h⟩ := bind_ok h
    cases h
    exact .loadHead a c (deref_ok hc)
  | loop a =>
    obtain ⟨c, hc, h⟩ := bind_ok h
    by_cases heq : v.tail = v.head
    · rw [if_pos heq] at h
      cases h
      exact .loopEnd a c (deref_ok hc) heq
    · rw [if_neg heq] at h
      obtain ⟨_, hadd, h⟩ := bind_ok h
      cases h
      exact .loopAdd a c _ (deref_ok hc) heq hadd
  | emit a site =>
    obtain ⟨e, he, h⟩ := bind_ok h
    cases e with
    | stay site' =>
      cases h
      exact .emitStay a site site' (site_cases he)
    | skip =>
      cases h
      exact .emitSkip a site (site_cases he)
    | called =>
      obtain ⟨c, hc, h⟩ := bind_ok h
      cases h
      exact .emitCall a site c (site_cases he) (deref_ok hc)
  | flush =>
    obtain ⟨t, ht, h⟩ := bind_ok h
    cases h
    exact .flush t ht
  | finish site =>
    obtain ⟨e, he, h⟩ := bind_ok h
    cases e with
    | stay site' =>
      cases h
      exact .finishStay site site' (site_cases he)
    | skip =>
      cases h
      exact .finishSkip site (site_cases he)
    | called =>
      cases h
      exact .finishCall site (site_cases he)

theorem emitTransport_out {tr tr' : Tracer} {p : Slot} (h : emitTransport pack tr p = .ok tr') :
    ∃ (o : OtelOtlp Slot) (bufs : List Bytes),
      tr' = { tr with otlp := o, out := tr.out ++ bufs.map .transport } := by
  unfold emitTransport at h
  by_cases hp : tr.transportPresent = true
  · rw [if_pos hp] at h
    obtain ⟨r, -, h⟩ := bind_ok h
    cases h
    exact ⟨_, _, rfl⟩
  · rw [if_neg hp] at h
    cases h
    exact ⟨tr.otlp, [], by simp⟩

theorem add_out {m m' : Shared} {p : Slot} (h : m.add pack p = .ok m') :
    ∃ (o : OtelOtlp Slot) (bufs : List Bytes),
      m'.tracer = { m.tracer with otlp := o, out := m.tracer.out ++ bufs.map .transport } := by
  obtain ⟨t, ht, h⟩ := bind_ok h
  obtain ⟨o, bufs, rfl⟩ := emitTransport_out ht
  cases h
  refine ⟨o, bufs, ?_⟩
  by_cases hp : m.tracer.transportPresent = true
  · rw [if_pos hp]
    rfl
  · rw [if_neg hp]

theorem flush_out {tr tr' : Tracer} (h : tr.flush pack = .ok tr') :
    ∃ (o : OtelOtlp Slot) (bufs : List Bytes),
      tr' = { tr with otlp := o, out := tr.out ++ bufs.map .transport } := by
  obtain ⟨r, -, h⟩ := bind_ok h
  cases h
  exact ⟨_, _, rfl⟩

/-! ## Producers -/

inductive Ended (m : Shared) (a : CtxAddr) (s : OtelSpan) (head : UInt64) :
    EndPc → Shared → Option EndPc → Prop
  | full (c : OtelThreadCtx) (hc : m.tracer.ctxs a = some c)
      (hfull : head - c.tail ≥ c.capacity.toUInt64) :
      Ended m a s head .loadTail
        { m.setCtx a { c with dropped := c.dropped + 1 } with
          tracer := { (m.setCtx a { c with dropped := c.dropped + 1 }).tracer with
            droppedSpans := m.tracer.droppedSpans + 1 } } none
  | room (c : OtelThreadCtx) (hc : m.tracer.ctxs a = some c)
      (hroom : ¬ head - c.tail ≥ c.capacity.toUInt64) : Ended m a s head .loadTail m (some .copy)
  | copy (c : OtelThreadCtx) (hc : m.tracer.ctxs a = some c) :
      Ended m a s head .copy (m.setCtx a { c with ring := Function.update c.ring (c.slot head) s })
        (some .storeHead)
  | storeHead (c : OtelThreadCtx) (hc : m.tracer.ctxs a = some c) :
      Ended m a s head .storeHead
        ((m.setCtx a { c with head := head + 1 }).setLedger a
          { m.ledger a with staged := (m.ledger a).staged ++ [s] }) none

theorem endStep_cases {m m' : Shared} {a : CtxAddr} {s : OtelSpan} {head : UInt64} {pc : EndPc}
    {pc' : Option EndPc} (h : endStep m a s head pc = .ok (m', pc')) :
    Ended m a s head pc m' pc' := by
  cases pc with
  | loadTail =>
    obtain ⟨c, hc, h⟩ := bind_ok h
    by_cases hfull : head - c.tail ≥ c.capacity.toUInt64
    · rw [if_pos hfull] at h
      cases h
      exact .full c (deref_ok hc) hfull
    · rw [if_neg hfull] at h
      cases h
      exact .room c (deref_ok hc) hfull
  | copy =>
    obtain ⟨c, hc, h⟩ := bind_ok h
    cases h
    exact .copy c (deref_ok hc)
  | storeHead =>
    obtain ⟨c, hc, h⟩ := bind_ok h
    cases h
    exact .storeHead c (deref_ok hc)

/-! ## Calls -/

/-- What a call does up to its first step. -/
inductive Called (σ : Process) (t : ThreadId) : ThreadCall → Process → Prop
  | refused (c : ThreadCall) : Called σ t c σ
  | register (a : CtxAddr) (seed : OtelRandomState) (now : UInt64)
      (htls : σ.shared.tracer.tls t = none) :
      Called σ t (.register a seed now)
        ({ σ with shared := σ.shared.alloc a seed now }.goto t (.registerLock a))
  | drop (s : OtelSpan) (now : UInt64) (htls : σ.shared.tracer.tls t = none) :
      Called σ t (.finish s now)
        { σ with
          shared := { σ.shared with
            tracer := { σ.shared.tracer with droppedSpans := σ.shared.tracer.droppedSpans + 1 } } }
  | finish (a : CtxAddr) (c : OtelThreadCtx) (s : OtelSpan) (now : UInt64)
      (hrec : otelSpanRecording s = true) (htls : σ.shared.tracer.tls t = some a)
      (hc : σ.shared.tracer.ctxs a = some c) :
      Called σ t (.finish s now) (σ.goto t (.spanEnd a (stampEnd s now) c.head .loadTail))
  | unregister (a : CtxAddr) (htls : σ.shared.tracer.tls t = some a) :
      Called σ t .unregister (σ.goto t (.unregisterLock a))
  | drain : Called σ t .drain (σ.goto t (.drainEnabled .user))
  | setRingCapacity (spans cap : UInt32) (hcap : roundCapacity spans = some cap) :
      Called σ t (.setRingCapacity spans)
        { σ with
          shared := { σ.shared with tracer := { σ.shared.tracer with ringCapacity := cap } } }
  | close : Called σ t .close ({ σ with closeCalled := true }.goto t .closeTest)
  | detach : Called σ t .detach (σ.goto t (.detachSink false))

theorem call_cases {c : ThreadCall} (hstep : callStep σ t c = .ok σ') : Called σ t c σ' := by
  cases c with
  | register a seed now =>
    simp only [callStep] at hstep
    cases htls : σ.shared.tracer.tls t with
    | some b =>
      simp only [htls] at hstep
      cases hstep
      exact .refused _
    | none =>
      simp only [htls] at hstep
      cases hstep
      exact .register a seed now htls
  | finish s now =>
    simp only [callStep] at hstep
    by_cases hrec : otelSpanRecording s = true
    · simp only [hrec, Bool.not_true, Bool.false_eq_true, if_false] at hstep
      cases htls : σ.shared.tracer.tls t with
      | none =>
        simp only [htls] at hstep
        cases hstep
        exact .drop s now htls
      | some a =>
        simp only [htls] at hstep
        obtain ⟨c, hc, hstep⟩ := bind_ok hstep
        cases hstep
        exact .finish a c s now hrec htls (deref_ok hc)
    · simp only [Bool.not_eq_true] at hrec
      simp only [hrec, Bool.not_false, if_true] at hstep
      cases hstep
      exact .refused _
  | unregister =>
    simp only [callStep] at hstep
    cases htls : σ.shared.tracer.tls t with
    | none =>
      simp only [htls] at hstep
      cases hstep
      exact .refused _
    | some a =>
      simp only [htls] at hstep
      cases hstep
      exact .unregister a htls
  | drain =>
    cases hstep
    exact .drain
  | setRingCapacity spans =>
    obtain ⟨tracer, htracer, hstep⟩ := bind_ok hstep
    cases hstep
    obtain ⟨cap, hcap, rfl⟩ := setRingCapacity_frame htracer
    exact .setRingCapacity spans cap hcap
  | close =>
    cases hstep
    exact .close
  | detach =>
    cases hstep
    exact .detach

/-! ## Steps -/

/-- What the step of a thread does, if it is ready and the step does not fail. -/
inductive Stepped (pack : Proto.ExportTraceServiceRequest → Bytes) (σ : Process) (t : ThreadId) :
    Process → Prop
  | registerLock (a : CtxAddr) (hpc : σ.pcs t = .registerLock a) (hcan : σ.registryLock.canWrite) :
      Stepped pack σ t
        ({ σ with registryLock := σ.registryLock.lockWrite t }.goto t (.registerLink a))
  | registerLink (a : CtxAddr) (hpc : σ.pcs t = .registerLink a) :
      Stepped pack σ t ({ σ with shared := σ.shared.link a }.goto t (.registerUnlock a))
  | registerUnlock (a : CtxAddr) (hpc : σ.pcs t = .registerUnlock a) :
      Stepped pack σ t
        ({ σ with
          registryLock := σ.registryLock.unlockWrite
          shared := σ.shared.setTls t (some a) }.goto t .idle)
  | spanEnd (a : CtxAddr) (s : OtelSpan) (head : UInt64) (pc pc' : EndPc) (m : Shared)
      (hpc : σ.pcs t = .spanEnd a s head pc)
      (hend : endStep σ.shared a s head pc = .ok (m, some pc')) :
      Stepped pack σ t ({ σ with shared := m }.goto t (.spanEnd a s head pc'))
  | spanEnded (a : CtxAddr) (s : OtelSpan) (head : UInt64) (pc : EndPc) (m : Shared)
      (hpc : σ.pcs t = .spanEnd a s head pc)
      (hend : endStep σ.shared a s head pc = .ok (m, none)) :
      Stepped pack σ t ({ σ with shared := m }.goto t .idle)
  | unregisterLock (a : CtxAddr) (hpc : σ.pcs t = .unregisterLock a) (hfree : σ.drainLock = none) :
      Stepped pack σ t ({ σ with drainLock := some t }.goto t (.unregisterWrlock a))
  | unregisterWrlock (a : CtxAddr) (hpc : σ.pcs t = .unregisterWrlock a)
      (hcan : σ.registryLock.canWrite) :
      Stepped pack σ t
        ({ σ with registryLock := σ.registryLock.lockWrite t }.goto t (.unregisterEnabled a))
  | unregisterStart (a : CtxAddr) (hpc : σ.pcs t = .unregisterEnabled a)
      (henabled : σ.shared.tracer.enabled = true) :
      Stepped pack σ t (σ.goto t
        (.unregisterPass a (.begin .present) (PassVars.start σ.shared.tracer)))
  | unregisterSkip (a : CtxAddr) (hpc : σ.pcs t = .unregisterEnabled a)
      (henabled : σ.shared.tracer.enabled = false) :
      Stepped pack σ t (σ.goto t (.unregisterUnlink a))
  | unregisterPass (a : CtxAddr) (pc pc' : PassPc) (v v' : PassVars) (m : Shared)
      (hpc : σ.pcs t = .unregisterPass a pc v)
      (hpass : passStep pack σ.shared [a] v pc = .ok (m, some pc', v')) :
      Stepped pack σ t ({ σ with shared := m }.goto t (.unregisterPass a pc' v'))
  | unregisterPassed (a : CtxAddr) (pc : PassPc) (v v' : PassVars) (m : Shared)
      (hpc : σ.pcs t = .unregisterPass a pc v)
      (hpass : passStep pack σ.shared [a] v pc = .ok (m, none, v')) :
      Stepped pack σ t ({ σ with shared := m }.goto t (.unregisterUnlink a))
  | unregisterUnlink (a : CtxAddr) (m : Shared) (hpc : σ.pcs t = .unregisterUnlink a)
      (hunlink : σ.shared.unlink a = .ok m) :
      Stepped pack σ t ({ σ with shared := m }.goto t (.unregisterWrunlock a))
  | unregisterWrunlock (a : CtxAddr) (hpc : σ.pcs t = .unregisterWrunlock a) :
      Stepped pack σ t
        ({ σ with registryLock := σ.registryLock.unlockWrite }.goto t (.unregisterUnlock a))
  | unregisterUnlock (a : CtxAddr) (hpc : σ.pcs t = .unregisterUnlock a) :
      Stepped pack σ t ({ σ with drainLock := none }.goto t (.unregisterFree a))
  | unregisterFree (a : CtxAddr) (m : Shared) (hpc : σ.pcs t = .unregisterFree a)
      (hfree : σ.shared.free a = .ok m) :
      Stepped pack σ t ({ σ with shared := m.setTls t none }.goto t .idle)
  | drainStart (k : Caller) (hpc : σ.pcs t = .drainEnabled k)
      (henabled : σ.shared.tracer.enabled = true) : Stepped pack σ t (σ.goto t (.drainLock k))
  | drainSkip (k : Caller) (hpc : σ.pcs t = .drainEnabled k)
      (henabled : σ.shared.tracer.enabled = false) : Stepped pack σ t (σ.goto t k.ret)
  | drainLock (k : Caller) (hpc : σ.pcs t = .drainLock k) (hfree : σ.drainLock = none) :
      Stepped pack σ t ({ σ with drainLock := some t }.goto t (.drainRdlock k))
  | drainRdlock (k : Caller) (hpc : σ.pcs t = .drainRdlock k) (hcan : σ.registryLock.canRead) :
      Stepped pack σ t
        ({ σ with registryLock := σ.registryLock.lockRead t }.goto t
          (.drainPass k (.begin .present) (PassVars.start σ.shared.tracer)))
  | drainPass (k : Caller) (pc pc' : PassPc) (v v' : PassVars) (m : Shared)
      (hpc : σ.pcs t = .drainPass k pc v)
      (hpass : passStep pack σ.shared σ.shared.tracer.threads v pc = .ok (m, some pc', v')) :
      Stepped pack σ t ({ σ with shared := m }.goto t (.drainPass k pc' v'))
  | drainPassed (k : Caller) (pc : PassPc) (v v' : PassVars) (m : Shared)
      (hpc : σ.pcs t = .drainPass k pc v)
      (hpass : passStep pack σ.shared σ.shared.tracer.threads v pc = .ok (m, none, v')) :
      Stepped pack σ t ({ σ with shared := m }.goto t (.drainRdunlock k v'))
  | drainRdunlock (k : Caller) (v : PassVars) (hpc : σ.pcs t = .drainRdunlock k v) :
      Stepped pack σ t
        ({ σ with registryLock := σ.registryLock.unlockRead t }.goto t (.drainUnlock k v))
  | drainUnlock (k : Caller) (v : PassVars) (hpc : σ.pcs t = .drainUnlock k v) :
      Stepped pack σ t ({ σ with drainLock := none }.goto t k.ret)
  | flusherLock (hpc : σ.pcs t = .flusherLock) (hfree : σ.storeLock = none) :
      Stepped pack σ t ({ σ with storeLock := some t }.goto t .flusherTest)
  | flusherGoOn (hpc : σ.pcs t = .flusherTest) (hrunning : σ.running = true) :
      Stepped pack σ t (σ.goto t .flusherWait)
  | flusherStop (hpc : σ.pcs t = .flusherTest) (hrunning : σ.running = false) :
      Stepped pack σ t (σ.goto t .flusherLeave)
  | flusherWait (hpc : σ.pcs t = .flusherWait) :
      Stepped pack σ t ({ σ with storeLock := none, signaled := false }.goto t .flusherAsleep)
  | flusherAsleep (hpc : σ.pcs t = .flusherAsleep) (hsignaled : σ.signaled = true) :
      Stepped pack σ t (σ.goto t .flusherRelock)
  | flusherRelock (hpc : σ.pcs t = .flusherRelock) (hfree : σ.storeLock = none) :
      Stepped pack σ t ({ σ with storeLock := some t }.goto t .flusherUnlock)
  | flusherUnlock (hpc : σ.pcs t = .flusherUnlock) :
      Stepped pack σ t ({ σ with storeLock := none }.goto t (.drainEnabled .flusher))
  | flusherLeave (hpc : σ.pcs t = .flusherLeave) :
      Stepped pack σ t ({ σ with storeLock := none }.goto t .exited)
  | closeJoining (hpc : σ.pcs t = .closeTest) (hthread : σ.haveThread = true) :
      Stepped pack σ t (σ.goto t .closeLock)
  | closeAlone (hpc : σ.pcs t = .closeTest) (hthread : σ.haveThread = false) :
      Stepped pack σ t (σ.goto t (.drainEnabled .close))
  | closeLock (hpc : σ.pcs t = .closeLock) (hfree : σ.storeLock = none) :
      Stepped pack σ t ({ σ with storeLock := some t }.goto t .closeClear)
  | closeClear (hpc : σ.pcs t = .closeClear) :
      Stepped pack σ t ({ σ with running := false }.goto t .closeSignal)
  | closeSignal (signaled : Bool) (hpc : σ.pcs t = .closeSignal)
      (hwake : σ.pcs σ.flusher = .flusherAsleep → signaled = true) :
      Stepped pack σ t ({ σ with signaled := signaled }.goto t .closeUnlock)
  | closeUnlock (hpc : σ.pcs t = .closeUnlock) :
      Stepped pack σ t ({ σ with storeLock := none }.goto t .closeJoin)
  | closeJoin (hpc : σ.pcs t = .closeJoin) (hexited : σ.pcs σ.flusher = .exited) :
      Stepped pack σ t ({ σ with haveThread := false }.goto t (.drainEnabled .close))
  | closeFinalize (hpc : σ.pcs t = .closeFinalize) :
      Stepped pack σ t ({ σ with finalized := true }.goto t .idle)
  | detachSink (close : Bool) (hpc : σ.pcs t = .detachSink close) :
      Stepped pack σ t
        ({ σ with
          shared := { σ.shared with tracer := { σ.shared.tracer with sink := none } } }.goto t
          (.detachPresent close))
  | detachPresent (close : Bool) (hpc : σ.pcs t = .detachPresent close) :
      Stepped pack σ t
        ({ σ with
          shared := { σ.shared with tracer := { σ.shared.tracer with sinkPresent := false } } }.goto t
          (.detachEnabled close))
  | detachEnabled (close : Bool) (hpc : σ.pcs t = .detachEnabled close) :
      Stepped pack σ t
        ({ σ with
          shared := { σ.shared with tracer := otelRecomputeEnabled σ.shared.tracer }
          detached := true }.goto t (if close then .closeFinalize else .idle))

theorem step_cases (hready : σ.Ready t) (hstep : threadStep pack σ t = .ok σ') :
    Stepped pack σ t σ' := by
  unfold threadStep at hstep
  unfold Process.Ready at hready
  cases hpc : σ.pcs t with
  | idle => simp [hpc] at hready
  | exited => simp [hpc] at hready
  | registerLock a =>
    simp only [hpc] at hstep hready
    cases hstep
    exact .registerLock a hpc hready
  | registerLink a =>
    simp only [hpc] at hstep
    cases hstep
    exact .registerLink a hpc
  | registerUnlock a =>
    simp only [hpc] at hstep
    cases hstep
    exact .registerUnlock a hpc
  | spanEnd a s head pc =>
    simp only [hpc] at hstep
    obtain ⟨⟨m, pc'⟩, hend, hstep⟩ := bind_ok hstep
    cases hstep
    cases pc' with
    | some pc' => exact .spanEnd a s head pc pc' m hpc hend
    | none => exact .spanEnded a s head pc m hpc hend
  | unregisterLock a =>
    simp only [hpc] at hstep hready
    cases hstep
    exact .unregisterLock a hpc hready
  | unregisterWrlock a =>
    simp only [hpc] at hstep hready
    cases hstep
    exact .unregisterWrlock a hpc hready
  | unregisterEnabled a =>
    simp only [hpc] at hstep
    cases hstep
    by_cases henabled : σ.shared.tracer.enabled = true
    · rw [if_pos henabled]
      exact .unregisterStart a hpc henabled
    · rw [if_neg henabled]
      exact .unregisterSkip a hpc (Bool.not_eq_true _ ▸ henabled)
  | unregisterPass a pc v =>
    simp only [hpc] at hstep
    obtain ⟨⟨m, pc', v'⟩, hpass, hstep⟩ := bind_ok hstep
    cases hstep
    cases pc' with
    | some pc' => exact .unregisterPass a pc pc' v v' m hpc hpass
    | none => exact .unregisterPassed a pc v v' m hpc hpass
  | unregisterUnlink a =>
    simp only [hpc] at hstep
    obtain ⟨m, hunlink, hstep⟩ := bind_ok hstep
    cases hstep
    exact .unregisterUnlink a m hpc hunlink
  | unregisterWrunlock a =>
    simp only [hpc] at hstep
    cases hstep
    exact .unregisterWrunlock a hpc
  | unregisterUnlock a =>
    simp only [hpc] at hstep
    cases hstep
    exact .unregisterUnlock a hpc
  | unregisterFree a =>
    simp only [hpc] at hstep
    obtain ⟨m, hfree, hstep⟩ := bind_ok hstep
    cases hstep
    exact .unregisterFree a m hpc hfree
  | drainEnabled k =>
    simp only [hpc] at hstep
    cases hstep
    by_cases henabled : σ.shared.tracer.enabled = true
    · rw [if_pos henabled]
      exact .drainStart k hpc henabled
    · rw [if_neg henabled]
      exact .drainSkip k hpc (Bool.not_eq_true _ ▸ henabled)
  | drainLock k =>
    simp only [hpc] at hstep hready
    cases hstep
    exact .drainLock k hpc hready
  | drainRdlock k =>
    simp only [hpc] at hstep hready
    cases hstep
    exact .drainRdlock k hpc hready
  | drainPass k pc v =>
    simp only [hpc] at hstep
    obtain ⟨⟨m, pc', v'⟩, hpass, hstep⟩ := bind_ok hstep
    cases hstep
    cases pc' with
    | some pc' => exact .drainPass k pc pc' v v' m hpc hpass
    | none => exact .drainPassed k pc v v' m hpc hpass
  | drainRdunlock k v =>
    simp only [hpc] at hstep
    cases hstep
    exact .drainRdunlock k v hpc
  | drainUnlock k v =>
    simp only [hpc] at hstep
    cases hstep
    exact .drainUnlock k v hpc
  | flusherLock =>
    simp only [hpc] at hstep hready
    cases hstep
    exact .flusherLock hpc hready
  | flusherTest =>
    simp only [hpc] at hstep
    cases hstep
    by_cases hrunning : σ.running = true
    · rw [if_pos hrunning]
      exact .flusherGoOn hpc hrunning
    · rw [if_neg hrunning]
      exact .flusherStop hpc (Bool.not_eq_true _ ▸ hrunning)
  | flusherWait =>
    simp only [hpc] at hstep
    cases hstep
    exact .flusherWait hpc
  | flusherAsleep =>
    simp only [hpc] at hstep hready
    cases hstep
    exact .flusherAsleep hpc hready
  | flusherRelock =>
    simp only [hpc] at hstep hready
    cases hstep
    exact .flusherRelock hpc hready
  | flusherUnlock =>
    simp only [hpc] at hstep
    cases hstep
    exact .flusherUnlock hpc
  | flusherLeave =>
    simp only [hpc] at hstep
    cases hstep
    exact .flusherLeave hpc
  | closeTest =>
    simp only [hpc] at hstep
    cases hstep
    by_cases hthread : σ.haveThread = true
    · rw [if_pos hthread]
      exact .closeJoining hpc hthread
    · rw [if_neg hthread]
      exact .closeAlone hpc (Bool.not_eq_true _ ▸ hthread)
  | closeLock =>
    simp only [hpc] at hstep hready
    cases hstep
    exact .closeLock hpc hready
  | closeClear =>
    simp only [hpc] at hstep
    cases hstep
    exact .closeClear hpc
  | closeSignal =>
    simp only [hpc] at hstep
    cases hstep
    refine .closeSignal _ hpc ?_
    intro hasleep
    simp only [hasleep]
  | closeUnlock =>
    simp only [hpc] at hstep
    cases hstep
    exact .closeUnlock hpc
  | closeJoin =>
    simp only [hpc] at hstep hready
    cases hstep
    exact .closeJoin hpc hready
  | closeFinalize =>
    simp only [hpc] at hstep
    cases hstep
    exact .closeFinalize hpc
  | detachSink close =>
    simp only [hpc] at hstep
    cases hstep
    exact .detachSink close hpc
  | detachPresent close =>
    simp only [hpc] at hstep
    cases hstep
    exact .detachPresent close hpc
  | detachEnabled close =>
    simp only [hpc] at hstep
    cases hstep
    exact .detachEnabled close hpc

/-! ## Other threads -/

/-- A place that is reached only by the step from `pc'` was reached before, or by the step. -/
theorem goto_eq {q : Pc} (h : (σ.goto t pc').pcs u = q) : u = t ∧ pc' = q ∨ σ.pcs u = q := by
  replace h : Function.update σ.pcs t pc' u = q := h
  by_cases hu : u = t
  · subst hu
    rw [Function.update_self] at h
    exact Or.inl ⟨rfl, h⟩
  · rw [Function.update_of_ne hu] at h
    exact Or.inr h

/-- A thread that takes no step stays where it is. -/
theorem step_other {a : Act} (he : a.Possible σ) (hstep : processStep pack σ a = .ok σ')
    (hother : a ≠ .timer ∧ ¬ a.isBy u) : σ'.pcs u = σ.pcs u := by
  cases a with
  | timer => exact absurd rfl hother.1
  | call t c =>
    have hu : u ≠ t := Ne.symm hother.2
    cases call_cases hstep with
    | refused => rfl
    | drop => rfl
    | setRingCapacity => rfl
    | _ => exact Function.update_of_ne hu ..
  | step t =>
    have hu : u ≠ t := Ne.symm hother.2
    cases step_cases he hstep <;> exact Function.update_of_ne hu ..

theorem run_other {σ₀ : Process} {acts : List Act} (h : (processMachine pack).Run σ₀ acts σ)
    (hother : ∀ a ∈ acts, a ≠ .timer ∧ ¬ a.isBy u) : σ.pcs u = σ₀.pcs u := by
  refine h.invariant (I := fun σ => σ.pcs u = σ₀.pcs u) rfl ?_
  intro σ₁ a ha σ₂ hi he hstep
  rw [step_other he hstep (hother a ha), hi]

end OtelTracing
