import OtelTracing.Proofs.InPlaceProofs
import OtelTracing.Proofs.DeliverProofs
import OtelTracing.Proofs.MirrorProofs

/-!
# Proofs: what the passes ask of the encoder

In every run in which the batch stays in place, the encoder does what each pass asks of it: whatever
the threads do at the same time, no pass overflows the buffer or reads what is not a span.
-/

namespace OtelTracing

open ByteMem Outcome

variable {pack : Proto.ExportTraceServiceRequest → Bytes} {σ σ' : Process} {t : ThreadId}
  {a : CtxAddr} {m m' : Shared} {p : PassPc} {v v' : PassVars} {out : List OtelTracing.Output}
  {qs : List (CtxAddr × Nat)}

/-! ## The set-up of the batch -/

theorem OtelOtlp.Roomy.same {P : Type} {o o' : OtelOtlp P} (h : o.Roomy) (hsame : SameSetup o o') :
    o'.Roomy where
  service := hsame.service ▸ h.service
  hostname := hsame.hostname ▸ h.hostname
  buf := hsame.buf.trans h.buf
  bufSize := hsame.bufSize.trans h.bufSize

theorem Shared.Exports.idle (h : m.Exports pack out qs) : Idle m.tracer.otlp := by
  intro hz
  exact h.batch.empty (List.eq_nil_of_length_eq_zero (h.batch.nSpans.symm.trans hz))

/-- A pass keeps the names and the buffer of the batch. -/
theorem pass_setup {ctxs : List CtxAddr} {p' : Option PassPc} (hidle : Idle m.tracer.otlp)
    (h : passStep pack m ctxs v p = .ok (m', p', v')) : SameSetup m.tracer.otlp m'.tracer.otlp := by
  cases pass_cases h with
  | loopAdd a c m' hc hne hadd =>
    obtain ⟨tracer, htracer, hadd⟩ := bind_ok hadd
    have hsetup : SameSetup m.tracer.otlp tracer.otlp := by
      unfold emitTransport at htracer
      split_ifs at htracer
      · obtain ⟨r, hspan, htracer⟩ := bind_ok htracer
        obtain rfl := Except.ok.inj htracer
        exact (addSpan_setup hspan hidle).1
      · obtain rfl := Except.ok.inj htracer
        exact SameSetup.refl _
    obtain rfl := Except.ok.inj hadd
    split_ifs
    · exact hsetup
    · exact hsetup
  | flush tracer hflush =>
    obtain ⟨r, hsend, hflush⟩ := bind_ok hflush
    obtain rfl := Except.ok.inj hflush
    exact (flush_setup hsend hidle).1
  | _ => exact SameSetup.refl _

theorem roomy_step {x : Act} (hroomy : σ.shared.tracer.otlp.Roomy)
    (hidle : Idle σ.shared.tracer.otlp) (he : x.Possible σ)
    (hstep : processStep pack σ x = .ok σ') : σ'.shared.tracer.otlp.Roomy := by
  rcases otlp_step he hstep with ⟨hotlp, -⟩ | ⟨ctxs, p, v, p', v', hpass⟩
  · rw [hotlp]
    exact hroomy
  · exact hroomy.same (pass_setup hidle hpass)

/-! ## Steps of a pass -/

theorem Shared.Exports.entries_inPlace (h : m.Exports pack out qs)
    (hfin : ∀ a, ∀ s ∈ (m.ledger a).staged, Finished s) :
    InPlace (ringMem m.tracer.ctxs) (qs.map m.entry) := by
  intro x hx
  refine ⟨h.read x hx, ?_⟩
  obtain ⟨⟨a, i⟩, hq, rfl⟩ := List.mem_map.mp hx
  obtain ⟨c, hi, hc, -⟩ := h.inPlace (a, i) hq
  rw [entry_of_live hc hi]
  exact hfin a _ (List.getElem_mem hi)

/-- The encoder takes the next span of each ring, and packs the batch. -/
theorem Shared.Exports.encodes (h : m.Exports pack out qs) (hroomy : m.tracer.otlp.Roomy)
    (hlen : ∀ r, (pack r).length = r.encode.length)
    (hfin : ∀ a, ∀ s ∈ (m.ledger a).staged, Finished s)
    (hrings : ∀ a c, m.tracer.ctxs a = some c → CtxOk c (m.ledger a))
    (hplace : ∀ a, p.ring = some a → Walking v (m.ledger a) p) : p.Encodes pack m v := by
  have hflush := h.batch.flush_fits (h.entries_inPlace hfin) hroomy hlen m.tracer.transport
  cases p with
  | loop a =>
    intro c hc hne
    obtain ⟨htail, n, hhead, hle, hn⟩ := hplace a rfl
    have hlt : (m.ledger a).taken < (m.ledger a).staged.length := by
      refine (Nat.lt_of_le_of_ne hle fun heq => hne ?_).trans_le hn
      rw [htail, hhead, heq]
    have hread : ringMem m.tracer.ctxs ⟨a, c.slot v.tail⟩ =
        (m.ledger a).staged[(m.ledger a).taken] := by
      rw [htail]
      simp only [ringMem, hc]
      exact (hrings a c hc).read hlt
    have hspan : Finished (ringMem m.tracer.ctxs ⟨a, c.slot v.tail⟩) := by
      rw [hread]
      exact hfin a _ (List.getElem_mem hlt)
    have hadd : ∃ r, otlpAddSpan pack m.tracer.transport (ringMem m.tracer.ctxs) m.tracer.otlp
        ⟨a, c.slot v.tail⟩ = .ok r := by
      rcases addSpan_cases pack m.tracer.transport h.batch hspan with
        ⟨-, f, -, hfail, -⟩ | ⟨-, o', hok, -⟩ | ⟨-, o', hok, -⟩
      · rw [hflush] at hfail
        cases hfail
      · exact ⟨_, hok⟩
      · exact ⟨_, hok⟩
    obtain ⟨r, hr⟩ := hadd
    refine ⟨{ m.tracer with otlp := r.1, out := m.tracer.out ++ r.2.map .transport }, ?_⟩
    rw [emitTransport, if_pos h.transportPresent, hr]
    rfl
  | flush => exact ⟨_, by rw [Tracer.flush, hflush]; rfl⟩
  | _ => trivial

/-! ## Runs -/

theorem encodes_run {acts : List Act} {σ₀ : Process}
    (hlen : ∀ r, (pack r).length = r.encode.length) (h0 : σ₀.AtRest) (hv : σ₀.Vacant)
    (hexp : σ₀.Exporting) (hroomy : σ₀.shared.tracer.otlp.Roomy)
    (hfin : ∀ x ∈ acts, ∀ s, x.Ends s → Finished s)
    (hrun : ((processMachine pack).restrict Process.KeepsBatch).Run σ₀ acts σ) :
    (∀ t a p v, σ.pcs t = .unregisterPass a p v → p.Encodes pack σ.shared v) ∧
      ∀ t k p v, σ.pcs t = .drainPass k p v → p.Encodes pack σ.shared v := by
  have hinv : σ.Keeping pack σ₀.shared.tracer.out acts ∧ σ.shared.tracer.otlp.Roomy := by
    refine hrun.invariant (I := fun σ => σ.Keeping pack σ₀.shared.tracer.out acts ∧
      σ.shared.tracer.otlp.Roomy) ⟨keeping_start h0 hv hexp acts, hroomy⟩ ?_
    rintro σ x hx σ' ⟨h, hroom⟩ ⟨he, hkeeps⟩ hstep
    obtain ⟨qs, hexports⟩ := h.exports
    exact ⟨keeping_step h hfin hx he hkeeps hstep,
      roomy_step hroom hexports.shared.idle he hstep⟩
  obtain ⟨⟨hheap, honly, qs, h⟩, hroom⟩ := hinv
  have hfin' : ∀ a, ∀ s ∈ (σ.shared.ledger a).staged, Finished s :=
    fun a s hs => (honly.staged a s hs).1
  constructor
  · intro t a p v hpc
    have hplace := hheap.ring.places t
    rw [hpc] at hplace
    exact h.shared.encodes hroom hlen hfin' hheap.ring.rings hplace
  · intro t k p v hpc
    have hplace := hheap.ring.places t
    rw [hpc] at hplace
    exact h.shared.encodes hroom hlen hfin' hheap.ring.rings hplace

/-- While the batch stays in place, the encoder does what each pass asks of it; so, with a sink that
takes spans and stays attached, everything that is promised for the spans holds exactly if no pass that
is over has emitted more spans than an `int` can count. -/
theorem encoder_safe (pack : Proto.ExportTraceServiceRequest → Bytes) (acts : List Act)
    (σ₀ σ : Process) (hlen : ∀ r, (pack r).length = r.encode.length) (h0 : σ₀.AtRest)
    (hv : σ₀.Vacant) (hexp : σ₀.Exporting) (hroomy : σ₀.shared.tracer.otlp.Roomy)
    (hfin : ∀ x ∈ acts, ∀ s, x.Ends s → Finished s)
    (hrun : ((processMachine pack).restrict Process.KeepsBatch).Run σ₀ acts σ) :
    (∀ t a p v, σ.pcs t = .unregisterPass a p v → p.Encodes pack σ.shared v) ∧
    (∀ t k p v, σ.pcs t = .drainPass k p v → p.Encodes pack σ.shared v) ∧
    ∀ sink : OtelSpanSink, sink.hasSpan = true → σ₀.Attached sink →
      (∀ x ∈ acts, x.keepsSink = true) →
      (σ.Delivers pack ↔ ∀ t k v, σ.pcs t = .drainUnlock k v → σ.emitted v < 2 ^ 31) := by
  obtain ⟨hunregister, hdrain⟩ := encodes_run hlen h0 hv hexp hroomy hfin hrun
  refine ⟨hunregister, hdrain, fun sink hspan hattached hkeeps => ?_⟩
  have hok : σ.SpansOk sink := hrun.invariant (spansOk_start h0 hv hattached)
    fun _ x hx _ hi he hstep => spansOk_step hspan hi (hkeeps x hx) he.1 hstep
  exact ⟨fun h => (hok.countable h).emitted_lt, fun h => hok.delivers ⟨h, hunregister, hdrain⟩⟩

/-- Thread 2 ends a span and drains it, until it is about to flush the batch. -/
def flushingOne : List Act := exportingOne ++ List.replicate 9 (.step 2)

theorem flushingOne_finished : ∀ x ∈ flushingOne, ∀ s, x.Ends s → Finished s := by
  intro x hx s hs
  rcases List.mem_append.mp hx with hx | hx
  · exact exportingOne_finished x hx s hs
  · rw [List.eq_of_mem_replicate hx] at hs
    cases hs

theorem mirroring_attached : (Process.start mirroringTracer false 0 1).Attached otelSqliteSink := by
  refine ⟨rfl, rfl, rfl, ?_⟩
  intro t
  show Pc.detaching (if t = 0 then .exited else .idle) = false
  split_ifs
  · rfl
  · rfl

set_option maxRecDepth 20000 in
theorem encoder_safe_sample : ∃ (σ : Process) (v : PassVars),
    (σ.pcs 2 = .drainPass .user .flush v ∧ σ.shared.tracer.otlp.nSpans = 1) ∧
    PassPc.flush.Encodes Proto.ExportTraceServiceRequest.encode σ.shared v ∧
    (σ.Delivers Proto.ExportTraceServiceRequest.encode ↔
      ∀ t k v, σ.pcs t = .drainUnlock k v → σ.emitted v < 2 ^ 31) := by
  have hrun : ∃ σ : Process, (∃ v, σ.pcs 2 = .drainPass .user .flush v ∧
        σ.shared.tracer.otlp.nSpans = 1) ∧
      ((processMachine Proto.ExportTraceServiceRequest.encode).restrict Process.KeepsBatch).Run
        (Process.start mirroringTracer false 0 1) flushingOne σ :=
    ⟨_, ⟨_, rfl, rfl⟩,
      .cons ⟨⟨rfl, rfl⟩, trivial⟩ rfl (.cons ⟨⟨rfl, rfl⟩, by rintro _ _ _ _ ⟨⟩⟩ rfl
      (.cons ⟨trivial, by rintro _ _ _ _ ⟨⟩⟩ rfl (.cons ⟨trivial, by rintro _ _ _ _ ⟨⟩⟩ rfl
      (.cons ⟨⟨rfl, trivial⟩, trivial⟩ rfl (.cons ⟨trivial, by rintro _ _ _ _ ⟨⟩⟩ rfl
      (.cons ⟨trivial, by rintro _ _ _ _ ⟨⟩ ⟨⟩; decide⟩ rfl
      (.cons ⟨trivial, by rintro _ _ _ _ ⟨⟩⟩ rfl (.cons ⟨⟨rfl, trivial⟩, trivial⟩ rfl
      (.cons ⟨trivial, by rintro _ _ _ _ ⟨⟩⟩ rfl (.cons ⟨rfl, by rintro _ _ _ _ ⟨⟩⟩ rfl
      (.cons ⟨rfl, by rintro _ _ _ _ ⟨⟩⟩ rfl (.cons ⟨trivial, by rintro _ _ _ _ ⟨⟩⟩ rfl
      (.cons ⟨trivial, by rintro _ _ _ _ ⟨⟩⟩ rfl (.cons ⟨trivial, by rintro _ _ _ _ ⟨⟩⟩ rfl
      (.cons ⟨trivial, by rintro _ _ _ _ ⟨⟩⟩ rfl (.cons ⟨trivial, by rintro _ _ _ _ ⟨⟩⟩ rfl
      (.cons ⟨trivial, by rintro _ _ _ _ ⟨⟩⟩ rfl (.cons ⟨trivial, by rintro _ _ _ _ ⟨⟩⟩ rfl
      (.cons ⟨trivial, by rintro _ _ _ _ ⟨⟩⟩ rfl (.cons ⟨trivial, by rintro _ _ _ _ ⟨⟩⟩ rfl
      (.cons ⟨trivial, by rintro _ _ _ _ ⟨⟩⟩ rfl (.cons ⟨trivial, by rintro _ _ _ _ ⟨⟩⟩ rfl
      (.cons ⟨trivial, by rintro _ _ _ _ ⟨⟩⟩ rfl (.cons ⟨trivial, by rintro _ _ _ _ ⟨⟩⟩ rfl
      (.cons ⟨trivial, by rintro _ _ _ _ ⟨⟩⟩ rfl (.cons ⟨trivial, by rintro _ _ _ _ ⟨⟩⟩ rfl
      .nil))))))))))))))))))))))))))⟩
  obtain ⟨σ, ⟨v, hpc, hn⟩, h⟩ := hrun
  obtain ⟨-, hdrain, hdelivers⟩ := encoder_safe _ flushingOne _ σ (fun _ => rfl) mirroring_start.1
    mirroring_start.2.1 mirroring_start.2.2.1 ⟨by decide, by decide, rfl, rfl⟩ flushingOne_finished h
  exact ⟨σ, v, ⟨hpc, hn⟩, hdrain 2 .user .flush v hpc, hdelivers otelSqliteSink rfl
    mirroring_attached (by simp [flushingOne, exportingOne, Act.keepsSink])⟩

end OtelTracing
