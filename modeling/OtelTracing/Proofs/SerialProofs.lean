import OtelTracing.Serial
import OtelTracing.Proofs.StepProofs
import OtelTracing.Proofs.TracerProofs
import OtelTracing.Proofs.JournalProofs

/-!
# Proofs: calls that run alone

Each function of the API that threads call while others run does, when nothing interrupts it, what it
does as one step: pass by pass, span by span and callback by callback.
-/

namespace OtelTracing

open ByteMem Locks Machine Outcome

variable {pack : Proto.ExportTraceServiceRequest → Bytes} {T T' : Tracer} {i j : Nat}
  {m m' : Shared} {p p' : PassPc} {v v' : PassVars} {a : CtxAddr} {c : OtelThreadCtx}
  {ctxs : Shared → List CtxAddr} {σ σ' : Process} {t : ThreadId} {pc pc' : Pc}
  {d d' : Option ThreadId} {r r' : RwLock ThreadId}

/-! ## The counters -/

theorem emitTransport_counting {q : Slot} (h : emitTransport pack T q = .ok T') :
    emitTransport pack (T.counting i j) q = .ok (T'.counting i j) := by
  unfold emitTransport at h ⊢
  by_cases hpresent : T.transportPresent = true
  · have hpresent' : (T.counting i j).transportPresent = true := hpresent
    rw [if_pos hpresent] at h
    rw [if_pos hpresent']
    obtain ⟨r, hr, h⟩ := bind_ok h
    cases h
    show otlpAddSpan pack T.transport (ringMem T.ctxs) T.otlp q >>= _ = _
    rw [hr]
    rfl
  · have hpresent' : ¬ (T.counting i j).transportPresent = true := hpresent
    rw [if_neg hpresent] at h
    rw [if_neg hpresent']
    cases h
    rfl

theorem flush_counting (h : T.flush pack = .ok T') :
    (T.counting i j).flush pack = .ok (T'.counting i j) := by
  obtain ⟨r, hr, h⟩ := bind_ok h
  cases h
  show otlpFlush pack T.transport (ringMem T.ctxs) T.otlp >>= _ = _
  rw [hr]
  rfl

theorem unlink_counting (T : Tracer) (i j : Nat) (a : CtxAddr) (as : List CtxAddr) :
    unlink (T.counting i j) a as = unlink T a as := by
  induction as with
  | nil => rfl
  | cons b bs ih =>
    rw [unlink, unlink, ih]
    rfl

/-! ## Passes -/

/-- One step of a pass that goes on. -/
def PassNext (pack : Proto.ExportTraceServiceRequest → Bytes) (ctxs : Shared → List CtxAddr)
    (x y : Shared × PassPc × PassVars) : Prop :=
  passStep pack x.1 (ctxs x.1) x.2.2 x.2.1 = .ok (y.1, some y.2.1, y.2.2)

/-- The steps of a pass that nothing interrupts. -/
def PassTo (pack : Proto.ExportTraceServiceRequest → Bytes) (ctxs : Shared → List CtxAddr) :=
  Relation.ReflTransGen (PassNext pack ctxs)

theorem passTo_step (h : passStep pack m (ctxs m) v p = .ok (m', some p', v')) :
    PassTo pack ctxs (m, p, v) (m', p', v') :=
  Relation.ReflTransGen.single h

/-- A call site is left by the callback exactly if the sink has it. -/
theorem passTo_site (pack : Proto.ExportTraceServiceRequest → Bytes)
    (ctxs : Shared → List CtxAddr) (v : PassVars) {f : Callback} {b : Bool} (place : Site → PassPc)
    (hplace : ∀ site site', siteStep m.tracer f site = .ok (.stay site') →
      passStep pack m (ctxs m) v (place site) = .ok (m, some (place site'), v))
    (h : m.tracer.sinkHas f.isSet = .ok b) :
    ∃ site, PassTo pack ctxs (m, place .present, v) (m, place site, v) ∧
      siteStep m.tracer f site = .ok (if b then .called else .skip) := by
  unfold Tracer.sinkHas at h
  cases hpresent : m.tracer.sinkPresent with
  | false =>
    rw [hpresent] at h
    cases h
    exact ⟨.present, .refl, by rw [siteStep, hpresent]; rfl⟩
  | true =>
    rw [hpresent, if_pos rfl] at h
    cases hsink : m.tracer.sink with
    | none =>
      rw [hsink] at h
      cases h
    | some sink =>
      rw [hsink] at h
      have hset : f.isSet sink = b := Except.ok.inj h
      have hderef : m.tracer.derefSink = .ok sink := by rw [Tracer.derefSink, hsink]
      have htest : PassTo pack ctxs (m, place .present, v) (m, place .test, v) :=
        passTo_step (hplace .present .test (by rw [siteStep, hpresent]; rfl))
      cases b with
      | false =>
        refine ⟨.test, htest, ?_⟩
        rw [siteStep, hderef, ok_bind, hset]
        rfl
      | true =>
        have hfetch : PassTo pack ctxs (m, place .test, v) (m, place .fetch, v) :=
          passTo_step (hplace .test .fetch (by rw [siteStep, hderef, ok_bind, hset]; rfl))
        have hpriv : PassTo pack ctxs (m, place .fetch, v) (m, place .priv, v) :=
          passTo_step (hplace .fetch .priv (by rw [siteStep, hderef]; rfl))
        have hcall : PassTo pack ctxs (m, place .priv, v) (m, place .call, v) :=
          passTo_step (hplace .priv .call (by rw [siteStep, hderef]; rfl))
        exact ⟨.call, ((htest.trans hfetch).trans hpriv).trans hcall, rfl⟩

theorem sinkHas_counting (h : m.tracer = T.counting i j) (f : Callback) :
    m.tracer.sinkHas f.isSet = T.sinkHas f.isSet := by
  rw [h]
  rfl

section

variable (ctxs)

/-- The pass moves past a span. -/
theorem passTo_emit (hm : m.tracer = T.counting i j) (hc : T.ctxs a = some c)
    (hne : v.tail ≠ v.head) (h : otelEmitSpan pack T ⟨a, c.slot v.tail⟩ = .ok T') :
    ∃ m', m'.tracer = T'.counting i j ∧ PassTo pack ctxs (m, .loop a, v) (m', .loop a, v.advance) := by
  obtain ⟨T₁, htransport, h⟩ := bind_ok h
  obtain ⟨sink, hsink, h⟩ := bind_ok h
  cases h
  obtain ⟨o, out, hframe⟩ := emitTransport_frame htransport
  have hc₁ : T₁.ctxs a = some c := by
    rw [hframe]
    exact hc
  -- the encoder
  have hadd : ∃ m₁, m.add pack ⟨a, c.slot v.tail⟩ = .ok m₁ ∧ m₁.tracer = T₁.counting i j := by
    rw [Shared.add, hm, emitTransport_counting htransport, ok_bind]
    by_cases hpresent : (T.counting i j).transportPresent = true
    · rw [if_pos hpresent]
      exact ⟨_, rfl, rfl⟩
    · rw [if_neg hpresent]
      exact ⟨_, rfl, rfl⟩
  obtain ⟨m₁, hadd, hm₁⟩ := hadd
  have hderef : m.tracer.deref a = .ok c := by
    rw [hm]
    exact deref_of_live hc
  have hloop : PassTo pack ctxs (m, .loop a, v) (m₁, .emit a .present, v) := by
    refine passTo_step ?_
    rw [passStep, hderef, ok_bind, if_neg hne, hadd]
    rfl
  -- the callback
  have hsink' : m₁.tracer.sinkHas Callback.span.isSet = .ok sink := by
    rw [sinkHas_counting hm₁]
    exact hsink
  obtain ⟨site, hsite, hexit⟩ := passTo_site pack ctxs v (PassPc.emit a)
    (fun site site' hstay => by rw [passStep, hstay]; rfl) hsink'
  have hderef₁ : m₁.tracer.deref a = .ok c := by
    rw [hm₁]
    exact deref_of_live hc₁
  cases sink with
  | false =>
    refine ⟨m₁.take a, hm₁, (hloop.trans hsite).trans (passTo_step ?_)⟩
    rw [passStep, hexit]
    rfl
  | true =>
    refine ⟨(m₁.give ⟨a, c.slot v.tail⟩).take a, ?_,
      (hloop.trans hsite).trans (passTo_step ?_)⟩
    · show { m₁.tracer with
        out := m₁.tracer.out ++ [Output.sinkSpan (ringMem m₁.tracer.ctxs ⟨a, c.slot v.tail⟩)] } = _
      rw [hm₁]
      rfl
    · rw [passStep, hexit]
      show (m₁.tracer.deref a >>= _) = _
      rw [hderef₁]
      rfl

/-- The pass moves past all spans from `tail` to `head`. -/
theorem passTo_emits {cursors : List UInt64} (hm : m.tracer = T.counting i j)
    (hc : T.ctxs a = some c) (hcursors : Ring.cursors v.tail v.head = cursors)
    (h : cursors.foldlM (fun t cursor => otelEmitSpan pack t ⟨a, c.slot cursor⟩) T = .ok T') :
    ∃ m' v', m'.tracer = T'.counting i j ∧ v'.tail = v.head ∧ v'.head = v.head ∧ v'.rest = v.rest ∧
      PassTo pack ctxs (m, .loop a, v) (m', .loop a, v') := by
  induction cursors generalizing T m v with
  | nil =>
    cases h
    have heq : v.tail = v.head := by
      by_contra hne
      rw [Ring.cursors_cons hne] at hcursors
      cases hcursors
    exact ⟨m, v, hm, heq, rfl, rfl, .refl⟩
  | cons cursor cursors ih =>
    have hne : v.tail ≠ v.head := by
      intro heq
      rw [heq, Ring.cursors_self] at hcursors
      cases hcursors
    rw [Ring.cursors_cons hne] at hcursors
    obtain ⟨rfl, hrest⟩ := List.cons_eq_cons.mp hcursors
    rw [List.foldlM_cons] at h
    obtain ⟨T₁, hfirst, h⟩ := bind_ok h
    obtain ⟨m₁, hm₁, hto⟩ := passTo_emit ctxs hm hc hne hfirst
    obtain ⟨o, out, hframe⟩ := emitSpan_frame hfirst
    have hc₁ : T₁.ctxs a = some c := by
      rw [hframe]
      exact hc
    obtain ⟨m', v', hm', htail, hhead, hv', hto'⟩ := ih (v := v.advance) hm₁ hc₁ hrest h
    exact ⟨m', v', hm', htail, hhead, hv', hto.trans hto'⟩

/-- The pass drains the next context. -/
theorem passTo_ctx {rest : List CtxAddr} {n : Int32} (hm : m.tracer = T.counting i j)
    (hrest : v.rest = a :: rest) (h : otelDrainCtx pack T a = .ok (T', n)) :
    ∃ m' v', m'.tracer = T'.counting i j ∧ v'.rest = rest ∧
      PassTo pack ctxs (m, .walk, v) (m', .walk, v') := by
  obtain ⟨c, hderef, h⟩ := bind_ok h
  obtain ⟨T₁, hemits, h⟩ := bind_ok h
  obtain ⟨c₁, hderef₁, h⟩ := bind_ok h
  cases h
  have hc := deref_ok hderef
  have hderefm : m.tracer.deref a = .ok c := by
    rw [hm]
    exact hderef
  have hwalk : PassTo pack ctxs (m, .walk, v)
      (m, .loadHead a, { v with rest := rest, tail := c.tail }) := by
    refine passTo_step ?_
    rw [passStep, hrest]
    show (m.tracer.deref a >>= _) = _
    rw [hderefm]
    rfl
  have hload : PassTo pack ctxs (m, .loadHead a, { v with rest := rest, tail := c.tail })
      (m, .loop a, { v with rest := rest, tail := c.tail, head := c.head }) := by
    refine passTo_step ?_
    rw [passStep, hderefm]
    rfl
  obtain ⟨m₁, v₁, hm₁, htail, hhead, hv₁, hloop⟩ := passTo_emits ctxs
    (v := { v with rest := rest, tail := c.tail, head := c.head }) hm hc rfl hemits
  obtain ⟨o, out, hframe⟩ := emitSpans_frame hemits
  have hc₁ : T₁.ctxs a = some c := by
    rw [hframe]
    exact hc
  have hsame : c = c₁ := by
    have hc₁' := deref_ok hderef₁
    rw [hc₁] at hc₁'
    exact Option.some.inj hc₁'
  subst hsame
  have hderefm₁ : m₁.tracer.deref a = .ok c := by
    rw [hm₁]
    exact hderef₁
  refine ⟨(m₁.setCtx a { c with tail := v₁.tail }).publish a, v₁, ?_, hv₁,
    ((hwalk.trans hload).trans hloop).trans (passTo_step ?_)⟩
  · show m₁.tracer.setCtx a { c with tail := v₁.tail } = _
    rw [hm₁, htail]
    rfl
  · rw [passStep, hderefm₁, ok_bind, if_pos (htail.trans hhead.symm)]
    rfl

/-- The pass drains the contexts that are left. -/
theorem passTo_ctxs {as : List CtxAddr} {n n' : Int32} (hm : m.tracer = T.counting i j)
    (hrest : v.rest = as)
    (h : as.foldlM (fun (r : Tracer × Int32) a => do
      let r' ← otelDrainCtx pack r.1 a
      pure (r'.1, r.2 + r'.2)) (T, n) = .ok (T', n')) :
    ∃ m' v', m'.tracer = T'.counting i j ∧ v'.rest = [] ∧
      PassTo pack ctxs (m, .walk, v) (m', .walk, v') := by
  induction as generalizing T m v n with
  | nil =>
    cases h
    exact ⟨m, v, hm, hrest, .refl⟩
  | cons a as ih =>
    rw [List.foldlM_cons] at h
    obtain ⟨⟨T₁, n₁⟩, hfirst, h⟩ := bind_ok h
    obtain ⟨⟨T₂, n₂⟩, hctx, hfirst⟩ := bind_ok hfirst
    cases hfirst
    obtain ⟨m₁, v₁, hm₁, hrest₁, hto⟩ := passTo_ctx ctxs hm hrest hctx
    obtain ⟨m', v', hm', hrest', hto'⟩ := ih hm₁ hrest₁ h
    exact ⟨m', v', hm', hrest', hto.trans hto'⟩

/-- A whole pass. -/
theorem passTo_pass {as : List CtxAddr} {n : Int32} (hm : m.tracer = T.counting i j)
    (hctxs : ∀ m : Shared, m.tracer = T.counting i j → ctxs m = as)
    (h : drainPass pack T as = .ok (T', n)) :
    ∃ m₁ m' v' site, PassTo pack ctxs (m, .begin .present, v) (m₁, .finish site, v') ∧
      passStep pack m₁ (ctxs m₁) v' (.finish site) = .ok (m', none, v') ∧
      m'.tracer = T'.counting i j := by
  obtain ⟨T₁, hbegin, h⟩ := bind_ok h
  obtain ⟨⟨T₂, n₂⟩, hfold, h⟩ := bind_ok h
  obtain ⟨T₃, hflush, h⟩ := bind_ok h
  obtain ⟨T₄, hend, h⟩ := bind_ok h
  cases h
  -- `begin`
  obtain ⟨b, hsink, hbegin⟩ := bind_ok hbegin
  have hstart : ∃ m₁, m₁.tracer = T₁.counting i j ∧
      PassTo pack ctxs (m, .begin .present, v) (m₁, .walk, { v with rest := as }) := by
    have hsink' : m.tracer.sinkHas Callback.begin.isSet = .ok b := by
      rw [sinkHas_counting hm]
      exact hsink
    obtain ⟨site, hsite, hexit⟩ := passTo_site pack ctxs v PassPc.begin
      (fun site site' hstay => by rw [passStep, hstay]; rfl) hsink'
    cases b with
    | false =>
      cases hbegin
      refine ⟨m, hm, hsite.trans (passTo_step ?_)⟩
      rw [passStep, hexit, hctxs m hm]
      rfl
    | true =>
      cases hbegin
      refine ⟨m.output .sinkBegin, ?_, hsite.trans (passTo_step ?_)⟩
      · show { m.tracer with out := m.tracer.out ++ [Output.sinkBegin] } = _
        rw [hm]
        rfl
      · rw [passStep, hexit, hctxs m hm]
        rfl
  obtain ⟨m₁, hm₁, hto₁⟩ := hstart
  -- the contexts
  obtain ⟨m₂, v₂, hm₂, hrest₂, hto₂⟩ := passTo_ctxs ctxs (v := { v with rest := as }) hm₁ rfl hfold
  have hto₃ : PassTo pack ctxs (m₂, .walk, v₂) (m₂, .flush, v₂) := by
    refine passTo_step ?_
    rw [passStep, hrest₂]
  -- `flush`
  have hto₄ : PassTo pack ctxs (m₂, .flush, v₂)
      ({ m₂ with tracer := T₃.counting i j }, .finish .present, v₂) := by
    refine passTo_step ?_
    rw [passStep, hm₂, flush_counting hflush]
    rfl
  -- `end`
  obtain ⟨b', hsink', hend⟩ := bind_ok hend
  obtain ⟨site, hsite, hexit⟩ := passTo_site pack ctxs v₂
    (m := { m₂ with tracer := T₃.counting i j }) (f := .finish) PassPc.finish
    (fun site site' hstay => by rw [passStep, hstay]; rfl) hsink'
  have hto := (((hto₁.trans hto₂).trans hto₃).trans hto₄).trans hsite
  obtain ⟨m₃, hm₃⟩ : ∃ m₃ : Shared, m₃ = { m₂ with tracer := T₃.counting i j } := ⟨_, rfl⟩
  rw [← hm₃] at hto hexit
  cases b' with
  | false =>
    cases hend
    refine ⟨m₃, m₃, v₂, site, hto, ?_, by rw [hm₃]; rfl⟩
    rw [passStep, hexit]
    rfl
  | true =>
    cases hend
    refine ⟨m₃, m₃.output .sinkEnd, v₂, site, hto, ?_, by rw [hm₃]; rfl⟩
    rw [passStep, hexit]
    rfl

end

/-! ## A thread alone -/

/-- The process with the memory `m`, the lock `d` of the drains and the lock `r` of the registry, and
with the thread `t` at `pc`. -/
def Process.at (σ : Process) (t : ThreadId) (m : Shared) (d : Option ThreadId)
    (r : RwLock ThreadId) (pc : Pc) : Process :=
  { σ with shared := m, drainLock := d, registryLock := r }.goto t pc

theorem at_pcs (σ : Process) (t : ThreadId) (m : Shared) (d : Option ThreadId)
    (r : RwLock ThreadId) (pc : Pc) : (σ.at t m d r pc).pcs t = pc := Function.update_self ..

theorem at_move (σ : Process) (t : ThreadId) (m m' : Shared) (d d' : Option ThreadId)
    (r r' : RwLock ThreadId) (pc pc' : Pc) :
    { σ.at t m d r pc with shared := m', drainLock := d', registryLock := r' }.goto t pc' =
      σ.at t m' d' r' pc' := by
  simp only [Process.at, Process.goto, Function.update_idem]

/-- Thread `t` takes steps, and no other thread does. -/
def Alone (pack : Proto.ExportTraceServiceRequest → Bytes) (t : ThreadId) (σ σ' : Process) : Prop :=
  ∃ n, (processMachine pack).Run σ (List.replicate n (.step t)) σ'

theorem Alone.refl (σ : Process) : Alone pack t σ σ := ⟨0, .nil⟩

theorem Alone.trans {σ'' : Process} (h : Alone pack t σ σ') (h' : Alone pack t σ' σ'') :
    Alone pack t σ σ'' := by
  obtain ⟨n, hrun⟩ := h
  obtain ⟨n', hrun'⟩ := h'
  refine ⟨n + n', ?_⟩
  rw [List.replicate_add]
  exact hrun.append hrun'

/-- The next step of the thread, which may take or release the locks of the tracer. -/
theorem at_step (hready : (σ.at t m d r pc).Ready t)
    (hstep : threadStep pack (σ.at t m d r pc) t =
      .ok ({ σ.at t m d r pc with shared := m', drainLock := d', registryLock := r' }.goto t pc')) :
    Alone pack t (σ.at t m d r pc) (σ.at t m' d' r' pc') := by
  rw [at_move] at hstep
  exact ⟨1, .one hready hstep⟩

/-- Where a pass is run: a thread at `place p v` takes the step `p` of a pass over the contexts
`ctxs`, and is at `after v` when it is over. -/
structure Runs (pack : Proto.ExportTraceServiceRequest → Bytes) (ctxs : Shared → List CtxAddr)
    (place : PassPc → PassVars → Pc) (after : PassVars → Pc) : Prop where
  ready : ∀ (σ : Process) t p v, σ.pcs t = place p v → σ.Ready t
  next : ∀ (σ : Process) t p v m p' v', σ.pcs t = place p v →
    passStep pack σ.shared (ctxs σ.shared) v p = .ok (m, some p', v') →
    threadStep pack σ t = .ok ({ σ with shared := m }.goto t (place p' v'))
  last : ∀ (σ : Process) t p v m v', σ.pcs t = place p v →
    passStep pack σ.shared (ctxs σ.shared) v p = .ok (m, none, v') →
    threadStep pack σ t = .ok ({ σ with shared := m }.goto t (after v'))

theorem drain_runs (pack : Proto.ExportTraceServiceRequest → Bytes) (k : Caller) :
    Runs pack (fun m => m.tracer.threads) (.drainPass k) (.drainRdunlock k) := by
  refine ⟨?_, ?_, ?_⟩
  · intro σ t p v hpc
    simp only [Process.Ready, hpc]
  · intro σ t p v m p' v' hpc hpass
    simp only [threadStep, hpc, hpass]
    rfl
  · intro σ t p v m v' hpc hpass
    simp only [threadStep, hpc, hpass]
    rfl

theorem unregister_runs (pack : Proto.ExportTraceServiceRequest → Bytes) (a : CtxAddr) :
    Runs pack (fun _ => [a]) (.unregisterPass a) (fun _ => .unregisterUnlink a) := by
  refine ⟨?_, ?_, ?_⟩
  · intro σ t p v hpc
    simp only [Process.Ready, hpc]
  · intro σ t p v m p' v' hpc hpass
    simp only [threadStep, hpc, hpass]
    rfl
  · intro σ t p v m v' hpc hpass
    simp only [threadStep, hpc, hpass]
    rfl

theorem Runs.alone {place : PassPc → PassVars → Pc} {after : PassVars → Pc}
    (h : Runs pack ctxs place after) (σ : Process) (t : ThreadId) {x y : Shared × PassPc × PassVars}
    (hto : PassTo pack ctxs x y) :
    Alone pack t (σ.at t x.1 d r (place x.2.1 x.2.2)) (σ.at t y.1 d r (place y.2.1 y.2.2)) := by
  induction hto with
  | refl => exact .refl _
  | tail _ hnext ih =>
    exact ih.trans (at_step (h.ready _ _ _ _ (at_pcs ..)) (h.next _ _ _ _ _ _ _ (at_pcs ..) hnext))

/-- A thread runs a whole pass. -/
theorem Runs.pass {place : PassPc → PassVars → Pc} {after : PassVars → Pc} {as : List CtxAddr}
    {n : Int32} (h : Runs pack ctxs place after) (σ : Process) (t : ThreadId) (v : PassVars)
    (hm : m.tracer = T.counting i j) (hctxs : ∀ m : Shared, m.tracer = T.counting i j → ctxs m = as)
    (hpass : drainPass pack T as = .ok (T', n)) :
    ∃ m' v', m'.tracer = T'.counting i j ∧
      Alone pack t (σ.at t m d r (place (.begin .present) v)) (σ.at t m' d r (after v')) := by
  obtain ⟨m₁, m', v', site, hto, hlast, hm'⟩ := passTo_pass ctxs (v := v) hm hctxs hpass
  exact ⟨m', v', hm', (h.alone σ t hto).trans
    (at_step (h.ready _ _ _ _ (at_pcs ..)) (h.last _ _ _ _ _ _ (at_pcs ..) hlast))⟩

/-! ## Calls -/

/-- The state that a call leaves. -/
theorem Process.Serves.after {f l : ThreadId} (h : σ.Serves f l T) (hm : m.tracer = T'.counting i j) :
    (σ.at t m none RwLock.free .idle).Serves f l T' where
  tracer := ⟨i, j, hm⟩
  idle u hu := by
    by_cases hut : u = t
    · rw [hut]
      exact at_pcs ..
    · exact (Function.update_of_ne hut ..).trans (h.idle u hu)
  drainLock := rfl
  registryLock := rfl
  flusher := h.flusher
  closer := h.closer
  distinct := h.distinct

/-- The thread that makes a call. -/
theorem Process.Serves.at_call {f l : ThreadId} (h : σ.Serves f l T) (t : ThreadId) (m : Shared)
    (pc : Pc) : { σ with shared := m }.goto t pc = σ.at t m none RwLock.free pc := by
  rw [Process.at, ← h.drainLock, ← h.registryLock]

section

variable {f l : ThreadId} {op : Op} {call : ThreadCall}

/-- The process carries out the function by a call that runs alone. -/
def Process.Carries (pack : Proto.ExportTraceServiceRequest → Bytes) (f l : ThreadId) (op : Op)
    (T' : Tracer) (σ : Process) : Prop :=
  ∃ acts σ', op.Alone l acts ∧ (processMachine pack).Run σ acts σ' ∧ σ'.Serves f l T'

/-- The call is made, and then its thread runs alone. -/
theorem carries_call (h : σ.Serves f l T) (ht : t ≠ f) (hop : op.threadCall l = some (t, call))
    (hpossible : call.Possible σ t) (hcall : callStep σ t call = .ok σ')
    (hdone : ∃ σ'', Alone pack t σ' σ'' ∧ σ''.Serves f l T') : σ.Carries pack f l op T' := by
  obtain ⟨σ'', ⟨n, hrun⟩, hserves⟩ := hdone
  exact ⟨_, σ'', ⟨t, call, n, hop, rfl⟩, .cons ⟨h.idle t ht, hpossible⟩ hcall hrun, hserves⟩

theorem register_carries {tid : ThreadId} {seed : OtelRandomState} {now : UInt64}
    (h : σ.Serves f l T) (ht : tid ≠ f) (hfree : T.ctxs a = none)
    (hstep : otelThreadRegister T tid a seed now = T') :
    σ.Carries pack f l (.register tid a seed now) T' := by
  obtain ⟨i, j, hm⟩ := h.tracer
  have hpossible : σ.shared.tracer.ctxs a = none := by
    rw [hm]
    exact hfree
  cases htls : T.tls tid with
  | some b =>
    have htls' : σ.shared.tracer.tls tid = some b := by
      rw [hm]
      exact htls
    rw [otelThreadRegister, if_pos (by rw [htls]; rfl)] at hstep
    subst hstep
    refine carries_call h ht rfl hpossible ?_ ⟨σ, .refl σ, h⟩
    simp only [callStep, htls']
  | none =>
    have htls' : σ.shared.tracer.tls tid = none := by
      rw [hm]
      exact htls
    rw [otelThreadRegister, if_neg (by rw [htls]; rintro ⟨⟩)] at hstep
    subst hstep
    have hcall : callStep σ tid (.register a seed now) =
        .ok (σ.at tid (σ.shared.alloc a seed now) none RwLock.free (.registerLock a)) := by
      simp only [callStep, htls', h.at_call]
    have hlock : Alone pack tid
        (σ.at tid (σ.shared.alloc a seed now) none RwLock.free (.registerLock a))
        (σ.at tid (σ.shared.alloc a seed now) none (RwLock.free.lockWrite tid) (.registerLink a)) :=
      at_step (by simp only [Process.Ready, at_pcs]; exact ⟨rfl, rfl⟩)
        (by simp only [threadStep, at_pcs]; rfl)
    have hlink : Alone pack tid
        (σ.at tid (σ.shared.alloc a seed now) none (RwLock.free.lockWrite tid) (.registerLink a))
        (σ.at tid ((σ.shared.alloc a seed now).link a) none (RwLock.free.lockWrite tid)
          (.registerUnlock a)) :=
      at_step (by simp only [Process.Ready, at_pcs]) (by simp only [threadStep, at_pcs]; rfl)
    have hunlock : Alone pack tid
        (σ.at tid ((σ.shared.alloc a seed now).link a) none (RwLock.free.lockWrite tid)
          (.registerUnlock a))
        (σ.at tid (((σ.shared.alloc a seed now).link a).setTls tid (some a)) none RwLock.free
          .idle) :=
      at_step (by simp only [Process.Ready, at_pcs]) (by simp only [threadStep, at_pcs]; rfl)
    refine carries_call h ht rfl hpossible hcall
      ⟨_, (hlock.trans hlink).trans hunlock, h.after (i := i) (j := j) ?_⟩
    simp only [Shared.setTls, Shared.link, Shared.alloc, Shared.setLedger, Shared.setCtx, hm]
    rfl

/-- A step of `otel_span_end_`. -/
theorem alone_end {s : OtelSpan} {head : UInt64} {e : EndPc} {x : Option EndPc}
    (h : endStep m a s head e = .ok (m', x)) : Alone pack t (σ.at t m d r (.spanEnd a s head e))
      (σ.at t m' d r (x.elim .idle fun e => .spanEnd a s head e)) := by
  refine at_step (by simp only [Process.Ready, at_pcs]) ?_
  simp only [threadStep, at_pcs]
  show (endStep m a s head e >>= _) = _
  rw [h]
  cases x with
  | none | some => rfl

theorem finish_carries {tid : ThreadId} {s : OtelSpan} {now : UInt64} (h : σ.Serves f l T)
    (ht : tid ≠ f) (hstep : otelSpanEnd T tid s now = .ok T') :
    σ.Carries pack f l (.finish tid s now) T' := by
  obtain ⟨i, j, hm⟩ := h.tracer
  rcases spanEnd_cases hstep with ⟨hrec, rfl⟩ | ⟨hrec, htls, rfl⟩ | ⟨hrec, a, c, htls, hc, rfl⟩
  · refine carries_call h ht rfl trivial ?_ ⟨σ, .refl σ, h⟩
    simp only [callStep, hrec, Bool.not_false, if_true]
  · have htls' : σ.shared.tracer.tls tid = none := by
      rw [hm]
      exact htls
    refine carries_call h ht rfl trivial (by simp only [callStep, hrec, htls']; rfl)
      ⟨_, .refl _, ?_⟩
    exact { h with tracer := ⟨i, j, by rw [hm]; rfl⟩ }
  · have htls' : σ.shared.tracer.tls tid = some a := by
      rw [hm]
      exact htls
    have hderef : σ.shared.tracer.deref a = .ok c := by
      rw [hm]
      exact deref_of_live hc
    have hcall : callStep σ tid (.finish s now) = .ok (σ.at tid σ.shared none RwLock.free
        (.spanEnd a (stampEnd s now) c.head .loadTail)) := by
      simp only [callStep, hrec, htls', hderef, Bool.not_true, ok_bind, ← h.at_call]
      rfl
    by_cases hfull : c.head - c.tail ≥ c.capacity.toUInt64
    · -- the ring is full
      have hload : endStep σ.shared a (stampEnd s now) c.head .loadTail =
          .ok ({ σ.shared.setCtx a { c with dropped := c.dropped + 1 } with
            tracer := { σ.shared.tracer.setCtx a { c with dropped := c.dropped + 1 } with
              droppedSpans := σ.shared.tracer.droppedSpans + 1 } }, none) := by
        rw [endStep, hderef, ok_bind, if_pos hfull]
        rfl
      refine carries_call h ht rfl trivial hcall
        ⟨_, alone_end hload, h.after (i := i) (j := j) ?_⟩
      rw [ringPut, if_pos hfull]
      show { σ.shared.tracer.setCtx a { c with dropped := c.dropped + 1 } with
        droppedSpans := σ.shared.tracer.droppedSpans + 1 } = _
      rw [hm]
      rfl
    · obtain ⟨c', hc'⟩ : ∃ c' : OtelThreadCtx, c' =
          { c with ring := Function.update c.ring (c.slot c.head) (stampEnd s now) } := ⟨_, rfl⟩
      have hload : endStep σ.shared a (stampEnd s now) c.head .loadTail =
          .ok (σ.shared, some .copy) := by
        rw [endStep, hderef, ok_bind, if_neg hfull]
        rfl
      have hcopy : endStep σ.shared a (stampEnd s now) c.head .copy =
          .ok (σ.shared.setCtx a c', some .storeHead) := by
        rw [endStep, hderef, hc']
        rfl
      have hderef' : (σ.shared.setCtx a c').tracer.deref a = .ok c' :=
        deref_of_live (Function.update_self ..)
      have hstore : endStep (σ.shared.setCtx a c') a (stampEnd s now) c.head .storeHead =
          .ok (((σ.shared.setCtx a c').setCtx a { c' with head := c.head + 1 }).setLedger a
            { (σ.shared.setCtx a c').ledger a with
              staged := ((σ.shared.setCtx a c').ledger a).staged ++ [stampEnd s now] }, none) := by
        rw [endStep, hderef']
        rfl
      refine carries_call h ht rfl trivial hcall
        ⟨_, ((alone_end hload).trans (alone_end hcopy)).trans (alone_end hstore),
          h.after (i := i) (j := j) ?_⟩
      rw [ringPut, if_neg hfull]
      show (σ.shared.tracer.setCtx a c').setCtx a { c' with head := c.head + 1 } = _
      rw [hm, hc']
      simp only [Tracer.setCtx, Function.update_idem]
      rfl

theorem unregister_carries {tid : ThreadId} (h : σ.Serves f l T) (ht : tid ≠ f)
    (hstep : otelThreadUnregister pack T tid = .ok T') :
    σ.Carries pack f l (.unregister tid) T' := by
  obtain ⟨i, j, hm⟩ := h.tracer
  rcases unregister_cases hstep with ⟨htls, rfl⟩ | ⟨a, T₁, threads, c, htls, hpass, hunlink, hc, rfl⟩
  · have htls' : σ.shared.tracer.tls tid = none := by
      rw [hm]
      exact htls
    refine carries_call h ht rfl trivial ?_ ⟨σ, .refl σ, h⟩
    simp only [callStep, htls']
  · have htls' : σ.shared.tracer.tls tid = some a := by
      rw [hm]
      exact htls
    have hcall : callStep σ tid .unregister =
        .ok (σ.at tid σ.shared none RwLock.free (.unregisterLock a)) := by
      simp only [callStep, htls', ← h.at_call]
    have hlock : Alone pack tid (σ.at tid σ.shared none RwLock.free (.unregisterLock a))
        (σ.at tid σ.shared (some tid) RwLock.free (.unregisterWrlock a)) :=
      at_step (by simp only [Process.Ready, at_pcs]; rfl) (by simp only [threadStep, at_pcs]; rfl)
    have hwrlock : Alone pack tid (σ.at tid σ.shared (some tid) RwLock.free (.unregisterWrlock a))
        (σ.at tid σ.shared (some tid) (RwLock.free.lockWrite tid) (.unregisterEnabled a)) :=
      at_step (by simp only [Process.Ready, at_pcs]; exact ⟨rfl, rfl⟩)
        (by simp only [threadStep, at_pcs]; rfl)
    -- the pass, if tracing is enabled
    have hdrained : ∃ m', m'.tracer = T₁.counting i j ∧ Alone pack tid
        (σ.at tid σ.shared (some tid) (RwLock.free.lockWrite tid) (.unregisterEnabled a))
        (σ.at tid m' (some tid) (RwLock.free.lockWrite tid) (.unregisterUnlink a)) := by
      have henabled : σ.shared.tracer.enabled = T.enabled := by
        rw [hm]
        rfl
      rcases whenEnabled_ok hpass with ⟨hon, n, hpass⟩ | ⟨hoff, rfl⟩
      · rw [hon] at henabled
        obtain ⟨m', v', hm', halone⟩ := (unregister_runs pack a).pass (d := some tid)
          (r := RwLock.free.lockWrite tid) σ tid (PassVars.start σ.shared.tracer) hm
          (fun _ _ => rfl) hpass
        refine ⟨m', hm', .trans (at_step (by simp only [Process.Ready, at_pcs]) ?_) halone⟩
        simp only [threadStep, at_pcs]
        rw [if_pos]
        · rfl
        · exact henabled
      · rw [hoff] at henabled
        refine ⟨σ.shared, hm, at_step (by simp only [Process.Ready, at_pcs]) ?_⟩
        simp only [threadStep, at_pcs]
        rw [if_neg]
        · rfl
        · show ¬ σ.shared.tracer.enabled = true
          rw [henabled]
          rintro ⟨⟩
    obtain ⟨m', hm', hdrained⟩ := hdrained
    -- out of the registry
    obtain ⟨m₁, hm₁⟩ : ∃ m₁ : Shared, m₁ = { m' with
      tracer := { m'.tracer with threads := threads } } := ⟨_, rfl⟩
    have hunlinked : m'.unlink a = .ok m₁ := by
      have hthreads : unlink m'.tracer a m'.tracer.threads = .ok threads := by
        rw [hm', unlink_counting]
        exact hunlink
      rw [Shared.unlink, hthreads, hm₁]
      rfl
    have hunlink : Alone pack tid
        (σ.at tid m' (some tid) (RwLock.free.lockWrite tid) (.unregisterUnlink a))
        (σ.at tid m₁ (some tid) (RwLock.free.lockWrite tid) (.unregisterWrunlock a)) := by
      refine at_step (by simp only [Process.Ready, at_pcs]) ?_
      simp only [threadStep, at_pcs]
      show (m'.unlink a >>= _) = _
      rw [hunlinked]
      rfl
    have hwrunlock : Alone pack tid
        (σ.at tid m₁ (some tid) (RwLock.free.lockWrite tid) (.unregisterWrunlock a))
        (σ.at tid m₁ (some tid) RwLock.free (.unregisterUnlock a)) :=
      at_step (by simp only [Process.Ready, at_pcs]) (by simp only [threadStep, at_pcs]; rfl)
    have hunlock : Alone pack tid (σ.at tid m₁ (some tid) RwLock.free (.unregisterUnlock a))
        (σ.at tid m₁ none RwLock.free (.unregisterFree a)) :=
      at_step (by simp only [Process.Ready, at_pcs]) (by simp only [threadStep, at_pcs]; rfl)
    -- the context goes
    obtain ⟨m₂, hm₂⟩ : ∃ m₂ : Shared, m₂ = { m₁ with
      tracer := { m₁.tracer with ctxs := Function.update m₁.tracer.ctxs a none }
      freed := m₁.ledger a :: m₁.freed } := ⟨_, rfl⟩
    have hfreed : m₁.free a = .ok m₂ := by
      have hderef : m₁.tracer.deref a = .ok c := by
        rw [hm₁, hm']
        exact deref_of_live hc
      rw [Shared.free, Tracer.free, hderef, hm₂]
      rfl
    have hfree : Alone pack tid (σ.at tid m₁ none RwLock.free (.unregisterFree a))
        (σ.at tid (m₂.setTls tid none) none RwLock.free .idle) := by
      refine at_step (by simp only [Process.Ready, at_pcs]) ?_
      simp only [threadStep, at_pcs]
      show (m₁.free a >>= _) = _
      rw [hfreed]
      rfl
    have hall := ((((((hlock.trans hwrlock).trans hdrained).trans hunlink).trans hwrunlock).trans
      hunlock).trans hfree)
    refine carries_call h ht rfl trivial hcall ⟨_, hall, h.after (i := i) (j := j) ?_⟩
    rw [Shared.setTls, hm₂, hm₁, hm']
    rfl

theorem drain_carries {n : Int32} (h : σ.Serves f l T) (hstep : otelDrain pack T = .ok (T', n)) :
    σ.Carries pack f l .drain T' := by
  obtain ⟨i, j, hm⟩ := h.tracer
  have henabled : σ.shared.tracer.enabled = T.enabled := by
    rw [hm]
    rfl
  have hcall : callStep σ l .drain =
      .ok (σ.at l σ.shared none RwLock.free (.drainEnabled .user)) := by
    simp only [callStep, ← h.at_call]
  unfold otelDrain at hstep
  by_cases hon : T.enabled = true
  · rw [hon] at hstep henabled
    have hlook : Alone pack l (σ.at l σ.shared none RwLock.free (.drainEnabled .user))
        (σ.at l σ.shared none RwLock.free (.drainLock .user)) := by
      refine at_step (by simp only [Process.Ready, at_pcs]) ?_
      simp only [threadStep, at_pcs]
      rw [if_pos]
      · rfl
      · exact henabled
    have hlock : Alone pack l (σ.at l σ.shared none RwLock.free (.drainLock .user))
        (σ.at l σ.shared (some l) RwLock.free (.drainRdlock .user)) :=
      at_step (by simp only [Process.Ready, at_pcs]; rfl) (by simp only [threadStep, at_pcs]; rfl)
    have hrdlock : Alone pack l (σ.at l σ.shared (some l) RwLock.free (.drainRdlock .user))
        (σ.at l σ.shared (some l) (RwLock.free.lockRead l)
          (.drainPass .user (.begin .present) (PassVars.start σ.shared.tracer))) :=
      at_step (by simp only [Process.Ready, at_pcs]; rfl) (by simp only [threadStep, at_pcs]; rfl)
    obtain ⟨m', v', hm', hpass⟩ := (drain_runs pack .user).pass (d := some l)
      (r := RwLock.free.lockRead l) σ l (PassVars.start σ.shared.tracer) hm
      (fun m hm => by rw [hm]; rfl) hstep
    have hrdunlock : Alone pack l
        (σ.at l m' (some l) (RwLock.free.lockRead l) (.drainRdunlock .user v'))
        (σ.at l m' (some l) RwLock.free (.drainUnlock .user v')) := by
      have hfree : (RwLock.free.lockRead l).unlockRead l = RwLock.free := by
        simp [RwLock.lockRead, RwLock.unlockRead, RwLock.free]
      have hstep : Alone pack l
          (σ.at l m' (some l) (RwLock.free.lockRead l) (.drainRdunlock .user v'))
          (σ.at l m' (some l) ((RwLock.free.lockRead l).unlockRead l) (.drainUnlock .user v')) :=
        at_step (by simp only [Process.Ready, at_pcs]) (by simp only [threadStep, at_pcs]; rfl)
      rw [hfree] at hstep
      exact hstep
    have hunlock : Alone pack l (σ.at l m' (some l) RwLock.free (.drainUnlock .user v'))
        (σ.at l m' none RwLock.free .idle) :=
      at_step (by simp only [Process.Ready, at_pcs]) (by simp only [threadStep, at_pcs]; rfl)
    exact carries_call h h.distinct rfl trivial hcall
      ⟨_, ((((hlook.trans hlock).trans hrdlock).trans hpass).trans hrdunlock).trans hunlock,
        h.after hm'⟩
  · rw [Bool.not_eq_true] at hon
    rw [hon] at hstep henabled
    cases hstep
    have hlook : Alone pack l (σ.at l σ.shared none RwLock.free (.drainEnabled .user))
        (σ.at l σ.shared none RwLock.free .idle) := by
      refine at_step (by simp only [Process.Ready, at_pcs]) ?_
      simp only [threadStep, at_pcs]
      rw [if_neg]
      · rfl
      · show ¬ σ.shared.tracer.enabled = true
        rw [henabled]
        rintro ⟨⟩
    exact carries_call h h.distinct rfl trivial hcall ⟨_, hlook, h.after hm⟩

theorem setRingCapacity_carries {spans : UInt32} (h : σ.Serves f l T)
    (hstep : otelSetRingCapacity T spans = .ok T') :
    σ.Carries pack f l (.setRingCapacity spans) T' := by
  obtain ⟨i, j, hm⟩ := h.tracer
  unfold otelSetRingCapacity at hstep
  cases hround : roundCapacity spans with
  | none =>
    rw [hround] at hstep
    cases hstep
  | some cap =>
    rw [hround] at hstep
    cases hstep
    refine carries_call h h.distinct rfl trivial
      (by rw [callStep, otelSetRingCapacity, hround]; rfl) ⟨_, .refl _, ?_⟩
    exact { h with tracer := ⟨i, j, by rw [hm]; rfl⟩ }

theorem detach_carries (h : σ.Serves f l T) (hstep : otelSetSpanSink T none = T') :
    σ.Carries pack f l (.setSpanSink none) T' := by
  obtain ⟨i, j, hm⟩ := h.tracer
  subst hstep
  have hcall : callStep σ l .detach =
      .ok (σ.at l σ.shared none RwLock.free (.detachSink false)) := by
    simp only [callStep, ← h.at_call]
  obtain ⟨m₁, hm₁⟩ : ∃ m₁ : Shared, m₁ = { σ.shared with
    tracer := { σ.shared.tracer with sink := none } } := ⟨_, rfl⟩
  have hsink : Alone pack l (σ.at l σ.shared none RwLock.free (.detachSink false))
      (σ.at l m₁ none RwLock.free (.detachPresent false)) :=
    at_step (by simp only [Process.Ready, at_pcs]) (by simp only [threadStep, at_pcs, hm₁]; rfl)
  obtain ⟨m₂, hm₂⟩ : ∃ m₂ : Shared, m₂ = { m₁ with
    tracer := { m₁.tracer with sinkPresent := false } } := ⟨_, rfl⟩
  have hpresent : Alone pack l (σ.at l m₁ none RwLock.free (.detachPresent false))
      (σ.at l m₂ none RwLock.free (.detachEnabled false)) :=
    at_step (by simp only [Process.Ready, at_pcs]) (by simp only [threadStep, at_pcs, hm₂]; rfl)
  obtain ⟨m₃, hm₃⟩ : ∃ m₃ : Shared, m₃ = { m₂ with
    tracer := otelRecomputeEnabled m₂.tracer } := ⟨_, rfl⟩
  have henabled : Alone pack l (σ.at l m₂ none RwLock.free (.detachEnabled false))
      ({ σ with detached := true }.at l m₃ none RwLock.free .idle) := by
    refine ⟨1, .one (by simp only [processMachine, Act.Possible, Process.Ready, at_pcs]) ?_⟩
    show threadStep pack _ l = _
    simp only [threadStep, at_pcs]
    simp only [hm₃, Process.at, Process.goto, Function.update_idem]
    rfl
  have hserves : Process.Serves f l T { σ with detached := true } :=
    ⟨h.tracer, h.idle, h.drainLock, h.registryLock, h.flusher, h.closer, h.distinct⟩
  refine carries_call h h.distinct rfl h.closer.symm hcall
    ⟨_, (hsink.trans hpresent).trans henabled, hserves.after (i := i) (j := j) ?_⟩
  rw [hm₃, hm₂, hm₁, hm]
  rfl

/-! ## The refinement -/

/-- The process carries out the functions of the API that are calls of its threads. -/
theorem serial_carries (pack : Proto.ExportTraceServiceRequest → Bytes) (f l : ThreadId) :
    Machine.Carries ((tracerMachine pack).restrict fun _ op => op.Threaded f l)
      (processMachine pack) (fun T σ => σ.Serves f l T) (fun op acts => op.Alone l acts) := by
  intro T σ op T' h he hstep
  obtain ⟨hpossible, t, call, hop, ht⟩ := he
  replace hstep : tracerStep pack T op = .ok T' := hstep
  cases op with
  | register tid a seed now =>
    cases hop
    exact register_carries h ht hpossible (Except.ok.inj hstep)
  | unregister tid =>
    cases hop
    exact unregister_carries h ht hstep
  | finish tid s now =>
    cases hop
    exact finish_carries h ht hstep
  | drain =>
    obtain ⟨⟨T₁, n⟩, hdrain, hT⟩ := map_ok hstep
    subst hT
    exact drain_carries h hdrain
  | setRingCapacity spans => exact setRingCapacity_carries h hstep
  | setSpanSink sink =>
    cases sink with
    | some sink => cases hop
    | none => exact detach_carries h (Except.ok.inj hstep)
  | init | shutdown | setTransport | setEnabled | start => cases hop

/-- The functions of the API, each taken as one step, do what the programs of the threads do when no
call interrupts another: every run of them is a run of the process, call by call. -/
theorem serial_refinement (pack : Proto.ExportTraceServiceRequest → Bytes) (T T' : Tracer)
    (σ : Process) (f l : ThreadId) (ops : List Op) (h : σ.Serves f l T)
    (hrun : ((tracerMachine pack).restrict fun _ op => op.Threaded f l).Run T ops T') :
    ∃ acts σ', Machine.Blocks (fun op acts => op.Alone l acts) ops acts ∧
      (processMachine pack).Run σ acts σ' ∧ σ'.Serves f l T' :=
  (serial_carries pack f l).run h hrun

/-- Thread 2 registers, ends a span and unregisters; then the sink is detached. -/
def serialOps : List Op :=
  [.register 2 7 ⟨1, 0⟩ 0, .finish 2 (sampleSession [97]).span 1, .unregister 2, .drain,
    .setSpanSink none]

theorem serial_refinement_sample : ∃ (T' : Tracer) (acts : List Act) (σ' : Process),
    sinkSpans T'.out = [stampEnd (sampleSession [97]).span 1] ∧
      Machine.Blocks (fun op acts => op.Alone 1 acts) serialOps acts ∧
      (processMachine Proto.ExportTraceServiceRequest.encode).Run
        (Process.start storingTracer false 0 1) acts σ' ∧ σ'.Serves 0 1 T' := by
  have hrun : ∃ T', sinkSpans T'.out = [stampEnd (sampleSession [97]).span 1] ∧
      ((tracerMachine Proto.ExportTraceServiceRequest.encode).restrict
        fun _ op => op.Threaded 0 1).Run storingTracer serialOps T' :=
    ⟨_, rfl, .cons ⟨rfl, 2, _, rfl, by decide⟩ rfl (.cons ⟨trivial, 2, _, rfl, by decide⟩ rfl
      (.cons ⟨trivial, 2, _, rfl, by decide⟩ rfl (.cons ⟨trivial, 1, _, rfl, by decide⟩ rfl
      (.cons ⟨trivial, 1, _, rfl, by decide⟩ rfl .nil))))⟩
  have hserves : (Process.start storingTracer false 0 1).Serves 0 1 storingTracer := by
    refine ⟨⟨_, _, rfl⟩, fun u hu => ?_, rfl, rfl, rfl, rfl, by decide⟩
    exact if_neg hu
  obtain ⟨T', hspans, h⟩ := hrun
  obtain ⟨acts, σ', hblocks, hprocess, hserves'⟩ := serial_refinement _ _ _ _ 0 1 _ hserves h
  exact ⟨T', acts, σ', hspans, hblocks, hprocess, hserves'⟩

end

end OtelTracing
