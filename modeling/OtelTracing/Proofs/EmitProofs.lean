import OtelTracing.Proofs.PassProofs
import OtelTracing.Proofs.AccountProofs
import OtelTracing.Proofs.SinkProofs

/-!
# Proofs: the spans that are counted as emitted are in the outputs

`emitted` is a counter of the model only. A call raises it by the number of spans that its requests
carry, if there is a transport, and that the sink is given, if it takes spans.
-/

namespace OtelTracing

open ByteMem Outcome

variable {pack : Proto.ExportTraceServiceRequest → Bytes} {t t' t'' : Tracer}
  {reqs reqs' : List Proto.ExportTraceServiceRequest} {n n' : Nat}

/-! ## The batch -/

section
variable {P : Type} {ptrMem : P → OtelSpan} {o o' : OtelOtlp P} {p : P} {transport : Bool}
  {bufs : List Bytes}

theorem length_otlpRequest_spans (o : OtelOtlp P) :
    (otlpRequest ptrMem o).spans.length = o.nSpans := by
  simp [Proto.ExportTraceServiceRequest.spans, otlpRequest]

/-- A flush with a transport sends the spans of the batch. -/
theorem flush_messages (h : otlpFlush pack transport ptrMem o = .ok (o', bufs))
    (htransport : transport = false → o.nSpans = 0) :
    ∃ reqs : List Proto.ExportTraceServiceRequest, bufs = reqs.map (fun r => grpcFrame (pack r)) ∧
      (reqs.flatMap fun r => r.spans).length = o.nSpans ∧ o'.nSpans = 0 := by
  simp only [otlpFlush] at h
  split_ifs at h with hz hbuf hfit htr
  · obtain ⟨rfl, rfl⟩ := Prod.mk.inj (Except.ok.inj h)
    exact ⟨[], rfl, hz.symm, hz⟩
  · obtain ⟨rfl, rfl⟩ := Prod.mk.inj (Except.ok.inj h)
    refine ⟨[otlpRequest ptrMem o], rfl, ?_, rfl⟩
    rw [List.flatMap_singleton, length_otlpRequest_spans]
  · exact absurd (htransport (by simpa using htr)) hz

/-- Adding a span with a transport: it is in the batch, and what was in the batch is sent or is
still there. -/
theorem addSpan_messages (h : otlpAddSpan pack true ptrMem o p = .ok (o', bufs)) :
    ∃ reqs : List Proto.ExportTraceServiceRequest, bufs = reqs.map (fun r => grpcFrame (pack r)) ∧
      (reqs.flatMap fun r => r.spans).length + o'.nSpans = o.nSpans + 1 := by
  obtain ⟨full, -, h⟩ := bind_ok h
  have hfill : ∀ r : OtelOtlp P × List Bytes,
      (otlpFill ptrMem r.1 p >>= fun o => pure (o, r.2)) = .ok (o', bufs) →
      bufs = r.2 ∧ o'.nSpans = r.1.nSpans + 1 := by
    intro r hrest
    obtain ⟨o₁, hfill, hrest⟩ := bind_ok hrest
    obtain ⟨rfl, rfl⟩ := Prod.mk.inj (Except.ok.inj hrest)
    exact ⟨rfl, (fill_setup hfill).2⟩
  cases full with
  | false =>
    obtain ⟨rfl, hn⟩ := hfill (o, []) h
    exact ⟨[], rfl, by rw [hn]; exact Nat.zero_add _⟩
  | true =>
    obtain ⟨r, hflush, h⟩ := bind_ok h
    obtain ⟨rfl, hn⟩ := hfill r h
    obtain ⟨reqs, hbufs, hlen, hz⟩ := flush_messages hflush (by simp)
    exact ⟨reqs, hbufs, by rw [hn, hz, hlen]⟩

end

/-! ## A pass -/

/-- Between `t` and `t'`, the requests `reqs` were sent and `n` spans were emitted: they are messages
of these requests or of the batch, they were given to the sink, or both, depending on the consumers
that `t` has. -/
structure Handed (pack : Proto.ExportTraceServiceRequest → Bytes) (t t' : Tracer)
    (reqs : List Proto.ExportTraceServiceRequest) (n : Nat) : Prop where
  sent : buffers t'.out = buffers t.out ++ reqs.map fun r => grpcFrame (pack r)
  messages : (reqs.flatMap fun r => r.spans).length + t'.otlp.nSpans =
    t.otlp.nSpans + if t.transportPresent then n else 0
  given : (sinkSpans t'.out).length =
    (sinkSpans t.out).length + if t.sinkPresent && t.sink.any OtelSpanSink.hasSpan then n else 0
  emitted : t'.emitted = t.emitted + if t.hasConsumer then n else 0

/-- The consumers that `t'` has are those of `t`. -/
structure SameConsumers (t t' : Tracer) : Prop where
  transport : t'.transport = t.transport
  transportPresent : t'.transportPresent = t.transportPresent
  sinkPresent : t'.sinkPresent = t.sinkPresent
  sink : t'.sink = t.sink

theorem SameConsumers.refl (t : Tracer) : SameConsumers t t := ⟨rfl, rfl, rfl, rfl⟩

theorem SameConsumers.trans (h : SameConsumers t t') (h' : SameConsumers t' t'') :
    SameConsumers t t'' :=
  ⟨h'.transport.trans h.transport, h'.transportPresent.trans h.transportPresent,
    h'.sinkPresent.trans h.sinkPresent, h'.sink.trans h.sink⟩

/-- A change that is neither an output nor a change of the batch or of the counter. -/
theorem Handed.same (hout : t'.out = t.out) (hn : t'.otlp.nSpans = t.otlp.nSpans)
    (hemitted : t'.emitted = t.emitted) : Handed pack t t' [] 0 where
  sent := by simp [hout]
  messages := by simp [hn]
  given := by simp [hout]
  emitted := by simp [hemitted]

theorem Handed.trans (h : Handed pack t t' reqs n) (hsame : SameConsumers t t')
    (h' : Handed pack t' t'' reqs' n') : Handed pack t t'' (reqs ++ reqs') (n + n') where
  sent := by rw [h'.sent, h.sent, List.map_append, List.append_assoc]
  messages := by
    have h1 := h.messages
    have h2 := h'.messages
    rw [hsame.transportPresent] at h2
    rw [List.flatMap_append, List.length_append]
    split_ifs at h1 h2 ⊢ <;> omega
  given := by
    have h1 := h.given
    have h2 := h'.given
    rw [hsame.sinkPresent, hsame.sink] at h2
    split_ifs at h1 h2 ⊢ <;> omega
  emitted := by
    have h1 := h.emitted
    have h2 := h'.emitted
    have hconsumer : t'.hasConsumer = t.hasConsumer := by
      rw [Tracer.hasConsumer, hsame.transportPresent, hsame.sinkPresent, hsame.sink]
      rfl
    rw [hconsumer] at h2
    split_ifs at h1 h2 ⊢ <;> omega

theorem emitTransport_messages (htransport : t.transportPresent = t.transport) {p : Slot}
    (h : emitTransport pack t p = .ok t') :
    ∃ (o : OtelOtlp Slot) (out : List Output) (reqs : List Proto.ExportTraceServiceRequest),
      t' = { t with otlp := o, out := out } ∧
      buffers out = buffers t.out ++ reqs.map (fun r => grpcFrame (pack r)) ∧
      sinkSpans out = sinkSpans t.out ∧
      (reqs.flatMap fun r => r.spans).length + o.nSpans =
        t.otlp.nSpans + if t.transportPresent then 1 else 0 := by
  unfold emitTransport at h
  split_ifs at h with hpresent
  · obtain ⟨r, hadd, h⟩ := bind_ok h
    rw [← htransport, hpresent] at hadd
    obtain ⟨reqs, hbufs, hcount⟩ := addSpan_messages hadd
    refine ⟨r.1, _, reqs, (Except.ok.inj h).symm, ?_, ?_, by rw [if_pos hpresent, hcount]⟩
    · rw [buffers_append, buffers_transport, hbufs]
    · rw [sinkSpans_append, sinkSpans_transport, List.append_nil]
  · refine ⟨t.otlp, t.out, [], (Except.ok.inj h).symm, (List.append_nil _).symm, rfl, ?_⟩
    rw [if_neg hpresent]
    exact Nat.zero_add _

theorem emitSpan_handed (htransport : t.transportPresent = t.transport) {p : Slot}
    (h : otelEmitSpan pack t p = .ok t') :
    SameConsumers t t' ∧ ∃ reqs, Handed pack t t' reqs 1 := by
  obtain ⟨t₁, h1, h⟩ := bind_ok h
  obtain ⟨sink, h2, h⟩ := bind_ok h
  obtain ⟨o, out, reqs, rfl, hsent, hgiven, hmessages⟩ := emitTransport_messages htransport h1
  have hsink := sinkHas_ok h2
  obtain rfl := Except.ok.inj h
  refine ⟨⟨rfl, rfl, rfl, rfl⟩, reqs, ?_, hmessages, ?_, ?_⟩
  · show buffers (if sink then out ++ [.sinkSpan _] else out) = _
    split_ifs
    · rw [buffers_append, hsent]
      exact List.append_nil _
    · exact hsent
  · show (sinkSpans (if sink then out ++ [.sinkSpan _] else out)).length = _ + if _ then 1 else 0
    rw [hsink]
    split_ifs
    · rw [sinkSpans_append, hgiven, List.length_append]
      rfl
    · rw [hgiven]
      rfl
  · show (if t.transportPresent || sink then t.emitted + 1 else t.emitted) = _
    rw [hsink, Tracer.hasConsumer]
    split_ifs <;> rfl

theorem drainCtx_handed (htransport : t.transportPresent = t.transport) {a : CtxAddr} {m : Int32}
    (h : otelDrainCtx pack t a = .ok (t', m)) :
    SameConsumers t t' ∧ ∃ reqs n, Handed pack t t' reqs n := by
  obtain ⟨c, -, h⟩ := bind_ok h
  obtain ⟨t₁, hloop, h⟩ := bind_ok h
  obtain ⟨c', -, h⟩ := bind_ok h
  obtain ⟨rfl, -⟩ := Prod.mk.inj (Except.ok.inj h)
  have hloop := foldlM_ok
    (I := fun t' => SameConsumers t t' ∧ ∃ reqs n, Handed pack t t' reqs n) hloop
    ⟨SameConsumers.refl t, [], 0, Handed.same rfl rfl rfl⟩ (by
      rintro cursor - t₁ t₂ ⟨hsame, reqs, n, hhanded⟩ hstep
      have htransport₁ : t₁.transportPresent = t₁.transport := by
        rw [hsame.transportPresent, hsame.transport, htransport]
      obtain ⟨hsame', reqs', hhanded'⟩ := emitSpan_handed htransport₁ hstep
      exact ⟨hsame.trans hsame', _, _, hhanded.trans hsame hhanded'⟩)
  obtain ⟨hsame, reqs, n, hhanded⟩ := hloop
  exact ⟨⟨hsame.transport, hsame.transportPresent, hsame.sinkPresent, hsame.sink⟩, reqs, n,
    ⟨hhanded.sent, hhanded.messages, hhanded.given, hhanded.emitted⟩⟩

/-- The calls of the sink around a pass. -/
theorem output_handed {o : Output} (hbuffers : buffers [o] = []) (hspans : sinkSpans [o] = []) :
    Handed pack t { t with out := t.out ++ [o] } [] 0 where
  sent := by rw [buffers_append, hbuffers]; rfl
  messages := by simp
  given := by simp [hspans]
  emitted := by simp

theorem sinkBegin_handed (h : t.sinkBegin = .ok t') : SameConsumers t t' ∧ Handed pack t t' [] 0 := by
  obtain ⟨sink, -, h⟩ := bind_ok h
  obtain rfl := Except.ok.inj h
  split_ifs
  · exact ⟨⟨rfl, rfl, rfl, rfl⟩, output_handed rfl rfl⟩
  · exact ⟨SameConsumers.refl t, Handed.same rfl rfl rfl⟩

theorem sinkEnd_handed (h : t.sinkEnd = .ok t') : Handed pack t t' [] 0 := by
  obtain ⟨sink, -, h⟩ := bind_ok h
  obtain rfl := Except.ok.inj h
  split_ifs
  · exact output_handed rfl rfl
  · exact Handed.same rfl rfl rfl

theorem flush_handed (hempty : t.transport = false → t.otlp.nSpans = 0)
    (h : t.flush pack = .ok t') : SameConsumers t t' ∧ ∃ reqs, Handed pack t t' reqs 0 := by
  obtain ⟨r, hflush, h⟩ := bind_ok h
  obtain rfl := Except.ok.inj h
  obtain ⟨reqs, hbufs, hlen, hz⟩ := flush_messages hflush hempty
  refine ⟨⟨rfl, rfl, rfl, rfl⟩, reqs, ?_, ?_, ?_, by simp⟩
  · rw [buffers_append, buffers_transport, hbufs]
  · show _ + r.1.nSpans = _
    rw [hlen, hz, ite_self]
  · rw [sinkSpans_append, sinkSpans_transport, List.append_nil, ite_self, Nat.add_zero]

/-- A pass that starts with an empty batch leaves none of its spans in it. -/
theorem drainPass_handed (htransport : t.transportPresent = t.transport) (hz : t.otlp.nSpans = 0)
    {as : List CtxAddr} {m : Int32} (h : drainPass pack t as = .ok (t', m)) :
    ∃ reqs n, Handed pack t t' reqs n := by
  obtain ⟨t₁, h1, h⟩ := bind_ok h
  obtain ⟨r, hloop, h⟩ := bind_ok h
  obtain ⟨t₃, h3, h⟩ := bind_ok h
  obtain ⟨t₄, h4, h⟩ := bind_ok h
  obtain ⟨rfl, -⟩ := Prod.mk.inj (Except.ok.inj h)
  obtain ⟨hbegun, hbegin⟩ : SameConsumers t t₁ ∧ Handed pack t t₁ [] 0 := sinkBegin_handed h1
  have hloop := foldlM_ok
    (I := fun r : Tracer × Int32 => SameConsumers t r.1 ∧ ∃ reqs n, Handed pack t r.1 reqs n)
    hloop ⟨hbegun, [], 0, hbegin⟩ (by
      rintro a - r r' ⟨hsame, reqs, n, hhanded⟩ hstep
      obtain ⟨⟨t₂, m₂⟩, hdrain, hstep⟩ := bind_ok hstep
      obtain rfl := Except.ok.inj hstep
      have htransport₁ : r.1.transportPresent = r.1.transport := by
        rw [hsame.transportPresent, hsame.transport, htransport]
      obtain ⟨hsame', reqs', n', hhanded'⟩ := drainCtx_handed htransport₁ hdrain
      exact ⟨hsame.trans hsame', _, _, hhanded.trans hsame hhanded'⟩)
  obtain ⟨hsame, reqs, n, hhanded⟩ := hloop
  -- without a transport nothing is in the batch
  have hempty : r.1.transport = false → r.1.otlp.nSpans = 0 := by
    intro hoff
    have hmessages := hhanded.messages
    rw [htransport, ← hsame.transport, hoff, hz] at hmessages
    simp only [Bool.false_eq_true, if_false] at hmessages
    omega
  obtain ⟨hsame', reqs', hflushed⟩ := flush_handed hempty h3
  exact ⟨_, _, (hhanded.trans hsame hflushed).trans (hsame.trans hsame') (sinkEnd_handed h4)⟩

/-! ## Runs -/

theorem whenEnabled_handed {pass : Except Fault (Tracer × Int32)}
    (h : ∀ t' m, pass = .ok (t', m) → ∃ reqs n, Handed pack t t' reqs n)
    (hpass : whenEnabled t pass = .ok t') : ∃ reqs n, Handed pack t t' reqs n := by
  rcases whenEnabled_ok hpass with ⟨-, m, hpass⟩ | ⟨-, rfl⟩
  · exact h t' m hpass
  · exact ⟨[], 0, Handed.same rfl rfl rfl⟩

theorem drain_handed (h : Ready t) {m : Int32} (hdrain : otelDrain pack t = .ok (t', m)) :
    ∃ reqs n, Handed pack t t' reqs n := by
  unfold otelDrain at hdrain
  split_ifs at hdrain
  · obtain ⟨rfl, -⟩ := Prod.mk.inj (Except.ok.inj hdrain)
    exact ⟨[], 0, Handed.same rfl rfl rfl⟩
  · exact drainPass_handed h.transportPresent h.nSpans hdrain

theorem finish_handed {tid : ThreadId} {s : OtelSpan} {now : UInt64}
    (h : otelSpanEnd t tid s now = .ok t') : Handed pack t t' [] 0 := by
  rcases spanEnd_cases h with ⟨-, rfl⟩ | ⟨-, -, rfl⟩ | ⟨-, a, c, -, -, rfl⟩
  · exact Handed.same rfl rfl rfl
  · exact Handed.same rfl rfl rfl
  · exact Handed.same rfl rfl rfl

theorem start_handed {tid : ThreadId} {call : StartCall} {s : OtelSpan} {name : Option Bytes}
    {kind : UInt32} {now : UInt64} {r : Tracer × OtelSpan}
    (h : otelStart t tid call s name kind now = .ok r) : Handed pack t r.1 [] 0 := by
  rcases start_cases h with hr | ⟨a, c, rand, -, hr⟩
  · rw [hr]
    exact Handed.same rfl rfl rfl
  · rw [hr]
    exact Handed.same rfl rfl rfl

theorem init_handed (h : Ready t) (service hostname : Option Bytes) (buf : Bool) :
    Handed pack t (otelInit t service hostname buf).1 [] 0 := by
  cases hinit : t.initialized with
  | true =>
    rw [otelInit_of_initialized hinit]
    exact Handed.same rfl rfl rfl
  | false =>
    rw [otelInit_of_not hinit]
    exact Handed.same rfl h.nSpans.symm rfl

theorem register_handed (tid : ThreadId) (a : CtxAddr) (seed : OtelRandomState) (now : UInt64) :
    Handed pack t (otelThreadRegister t tid a seed now) [] 0 := by
  unfold otelThreadRegister
  split_ifs
  · exact Handed.same rfl rfl rfl
  · exact Handed.same rfl rfl rfl

/-- Each call counts the spans that it hands on. -/
theorem handed_step (h : Ready t) {op : Op} (hstep : tracerStep pack t op = .ok t') :
    ∃ reqs n, Handed pack t t' reqs n := by
  cases op with
  | shutdown =>
    rcases shutdown_cases hstep with ⟨-, rfl⟩ | ⟨-, t₁, hpass, rfl⟩
    · exact ⟨[], 0, Handed.same rfl rfl rfl⟩
    · obtain ⟨reqs, n, hhanded⟩ := whenEnabled_handed (fun _ _ => drain_handed h) hpass
      exact ⟨reqs, n, hhanded.sent, hhanded.messages, hhanded.given, hhanded.emitted⟩
  | unregister tid =>
    rcases unregister_cases hstep with ⟨-, rfl⟩ | ⟨a, t₁, threads, c, -, hpass, -, -, rfl⟩
    · exact ⟨[], 0, Handed.same rfl rfl rfl⟩
    · obtain ⟨reqs, n, hhanded⟩ := whenEnabled_handed
        (fun _ _ => drainPass_handed h.transportPresent h.nSpans) hpass
      exact ⟨reqs, n, hhanded.sent, hhanded.messages, hhanded.given, hhanded.emitted⟩
  | drain =>
    obtain ⟨⟨t₁, m⟩, h1, rfl⟩ := map_ok hstep
    exact drain_handed h h1
  | init service hostname buf =>
    obtain rfl := Except.ok.inj hstep
    exact ⟨[], 0, init_handed h service hostname buf⟩
  | register tid a seed now =>
    obtain rfl := Except.ok.inj hstep
    exact ⟨[], 0, register_handed tid a seed now⟩
  | start tid call s name kind now =>
    obtain ⟨r, h1, rfl⟩ := map_ok hstep
    exact ⟨[], 0, start_handed h1⟩
  | finish tid s now => exact ⟨[], 0, finish_handed hstep⟩
  | setRingCapacity spans =>
    obtain ⟨cap, -, rfl⟩ := setRingCapacity_frame hstep
    exact ⟨[], 0, Handed.same rfl rfl rfl⟩
  | setTransport | setSpanSink | setEnabled =>
    obtain rfl := Except.ok.inj hstep
    exact ⟨[], 0, Handed.same rfl rfl rfl⟩

/-- The buffers sent so far are those of requests. No span that these carry or that the sink was given
is missing in the count of the emitted spans, and the count has no others. -/
structure Tracer.EmittedOut (pack : Proto.ExportTraceServiceRequest → Bytes) (t : Tracer)
    (reqs : List Proto.ExportTraceServiceRequest) : Prop where
  sent : buffers t.out = reqs.map fun r => grpcFrame (pack r)
  messages_le : (reqs.flatMap fun r => r.spans).length ≤ t.emitted
  given_le : (sinkSpans t.out).length ≤ t.emitted
  emitted_le : t.emitted ≤ (reqs.flatMap fun r => r.spans).length + (sinkSpans t.out).length

theorem Tracer.EmittedOut.handed (h : t.EmittedOut pack reqs) (hz : t.otlp.nSpans = 0)
    (hz' : t'.otlp.nSpans = 0) (hhanded : Handed pack t t' reqs' n) :
    t'.EmittedOut pack (reqs ++ reqs') := by
  obtain ⟨hsent, hmessages, hgiven, hemitted⟩ := hhanded
  obtain ⟨hsent₀, hmessages₀, hgiven₀, hemitted₀⟩ := h
  rw [hz, hz'] at hmessages
  have hconsumer : (if t.hasConsumer then n else 0) = max (if t.transportPresent then n else 0)
      (if t.sinkPresent && t.sink.any OtelSpanSink.hasSpan then n else 0) := by
    unfold Tracer.hasConsumer
    cases t.transportPresent <;> cases t.sinkPresent && t.sink.any OtelSpanSink.hasSpan <;> simp
  rw [hconsumer] at hemitted
  generalize (if t.transportPresent then n else 0) = sent at hmessages hemitted
  generalize (if t.sinkPresent && t.sink.any OtelSpanSink.hasSpan then n else 0) = given
    at hgiven hemitted
  have hlength : ((reqs ++ reqs').flatMap fun r => r.spans).length =
      (reqs.flatMap fun r => r.spans).length + (reqs'.flatMap fun r => r.spans).length := by
    rw [List.flatMap_append, List.length_append]
  exact ⟨by rw [hsent, hsent₀, List.map_append], by omega, by omega, by omega⟩

/-- Between the calls of the API, the emitted spans are those in the requests and in the calls of the
sink, where one that is in both counts once. -/
theorem emitted_out {ops : List Op} (hrun : (tracerMachine pack).Run Tracer.boot ops t) :
    ∃ reqs, t.EmittedOut pack reqs := by
  have hinv : Ready t ∧ ∃ reqs, t.EmittedOut pack reqs := by
    refine hrun.invariant (I := fun t => Ready t ∧ ∃ reqs, t.EmittedOut pack reqs)
      ⟨Ready.boot, [], rfl, Nat.le_refl 0, Nat.le_refl 0, Nat.le_refl 0⟩ ?_
    rintro t op - t' ⟨hready, reqs, hout⟩ hpos hstep
    have hready' := ready_step hready hpos hstep
    obtain ⟨reqs', n, hhanded⟩ := handed_step hready hstep
    exact ⟨hready', _, hout.handed hready.nSpans hready'.nSpans hhanded⟩
  exact hinv.2

/-- On the wire: after a run that loses no span, and with no sink that takes spans, the ended spans are
those of the requests that were sent, those that are staged and those that were counted as dropped. -/
theorem ended_sent {service hostname : Option Bytes} {buf : Bool} {ops last : List Op}
    (hops : ∀ op ∈ ops, op.Session) (hlast : last = [] ∨ last = [.shutdown])
    (hrun : ((tracerMachine pack).restrict Lossless).Run Tracer.boot
      (.init service hostname buf :: (ops ++ last)) t) (hnone : sinkSpans t.out = []) :
    ∃ reqs : List Proto.ExportTraceServiceRequest,
      buffers t.out = reqs.map (fun r => grpcFrame (pack r)) ∧
      t.ended = (reqs.flatMap fun r => r.spans).length + t.staged.length +
        (otelDroppedSpans t).toNat := by
  obtain ⟨reqs, hsent, hmessages, -, hemitted⟩ := emitted_out hrun.of_restrict
  have haccount := (account_run hops hlast hrun.of_restrict).mpr hrun
  refine ⟨reqs, hsent, ?_⟩
  rw [hnone, List.length_nil, Nat.add_zero] at hemitted
  rw [haccount, Tracer.accounted, Nat.le_antisymm hemitted hmessages]

end OtelTracing
