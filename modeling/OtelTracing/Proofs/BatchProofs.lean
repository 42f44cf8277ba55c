import OtelTracing.Proofs.OtlpProofs
import OtelTracing.Proofs.ShapeProofs

/-!
# Proofs: runs of the OTLP encoder

Any sequence of finished spans can be added, with flushes in between: the flush decision counts
exactly the slots that adding the span takes, and a span always fits into an empty batch.
-/

namespace OtelTracing

open ByteMem Cells Slots

variable {P : Type} {mem : P → OtelSpan} {p : P} {o o' : OtelOtlp P} {s : OtelSpan}

/-! ## Finished spans -/

/-- A laid-out span has at most 167 records in all. -/
theorem total_records_le {L : Layout} (h : Represents s L) :
    L.attrs.length + L.events.length + (L.events.map fun e => e.attrs.length).sum ≤ 167 := by
  have hattrs := le_cost_attrs L.attrs otelNil
  have hevents := le_cost_events L.events otelNil
  have hcost := h.sat.cost_le
  have hle := h.used_le
  simp only [Layout.cells, cost_append] at hcost
  simp only [otelSpanArena] at hle
  omega

theorem Represents.visits {L : Layout} (h : Represents s L) :
    Visits s (attrList.offs L.attrs) (eventRecords L) where
  walk_attrs := by
    rw [otelAttrFirst, h.attrHead]
    exact walkAttrs_eq h.attrs_first h.cursor
  walk_events := by
    rw [walkEvents_eq h, eventRecords, List.map_map]
    rfl
  walk_event_attrs := by
    intro r hr
    obtain ⟨e, he, rfl⟩ := List.mem_map.mp hr
    obtain ⟨cs, hattrs⟩ := h.event_attrs_first he
    obtain ⟨nx, -, -, hhead, -⟩ := event_holds h he
    rw [otelEventAttrFirst, show s.get e.off OtelEvent.attrHead = _ from hhead]
    exact walkAttrs_eq hattrs h.cursor
  num_attrs := h.shape.num_attrs
  num_events := h.shape.num_events
  event_num_attrs := h.shape.event_num_attrs
  total_le := by
    have htotal := total_records_le h
    have hsum : (eventRecords L).map (fun e => e.2.length) =
        L.events.map fun e => e.attrs.length := by
      rw [eventRecords, List.map_map]
      refine List.map_congr_left fun e _ => ?_
      simp [Linked.offs]
    rw [hsum, Linked.offs, List.length_map, eventRecords, List.length_map]
    exact htotal

theorem Finished.represents (h : Finished s) : ∃ L, Represents s L := by
  obtain ⟨c, env, tls, s₀, name, kind, cs, now, hrec, hname, hcs, rfl⟩ := h
  obtain ⟨L, hL, -⟩ := session_spec hrec hname hcs
  exact ⟨L, { hL.repr with }⟩

theorem Finished.visits (h : Finished s) : ∃ attrs events, Visits s attrs events := by
  obtain ⟨L, hL⟩ := h.represents
  exact ⟨_, _, hL.visits⟩

theorem sampleSession_recording {name : Bytes} (hname : ShortStr (some name)) :
    otelSpanRecording (sampleSession name).span = true := by
  obtain ⟨L, hL, -⟩ := init_spec { zeroSpan with
    traceId := traceIdOfWords (otelRandomNext ⟨1, 0⟩).2 (otelRandomNext (otelRandomNext ⟨1, 0⟩).1).2
    spanId := (otelRandomNext (otelRandomNext (otelRandomNext ⟨1, 0⟩).1).1).2
    parentId := 0 } (some name) 1 7 hname
  exact hL.repr.recording

theorem finished_calls {name : Bytes} {cs : List Call} (now : UInt64)
    (hname : ShortStr (some name)) (hcs : ∀ c ∈ cs, c.Short) :
    Finished (stampEnd ((sampleSession name).calls cs).span now) :=
  ⟨.root, ⟨true, true, 0, 7⟩, some ⟨1, 0⟩, zeroSpan, some name, 1, cs, now,
    sampleSession_recording hname, hname, hcs, rfl⟩

theorem finished_named {name : Bytes} (now : UInt64) (hname : ShortStr (some name)) :
    Finished (stampEnd (sampleSession name).span now) :=
  finished_calls now hname (List.forall_mem_nil _)

/-! ## The batch invariant -/

/-- The batch holds the spans `entries`: their addresses and what was read there when they were
added. -/
structure Batch (o : OtelOtlp P) (entries : List (P × OtelSpan)) : Prop where
  nSpans : o.nSpans = entries.length
  nSpans_le : o.nSpans ≤ otelBatchSpans
  numAttrs_le : o.numAttrs ≤ otelBatchAttrs
  numEvents_le : o.numEvents ≤ otelBatchEvents
  empty : entries = [] → o.numAttrs = 0 ∧ o.numEvents = 0
  stored : ∀ (i : Nat) (h : i < entries.length), ∃ attrs events,
    Visits entries[i].2 attrs events ∧ SpanStored o i entries[i].1 entries[i].2 attrs events

/-- An empty batch, whatever the objects hold. -/
theorem Batch.nil (h : o.nSpans = 0) (ha : o.numAttrs = 0) (he : o.numEvents = 0) :
    Batch o ([] : List (P × OtelSpan)) where
  nSpans := h
  nSpans_le := by omega
  numAttrs_le := by omega
  numEvents_le := by omega
  empty _ := ⟨ha, he⟩
  stored i hi := absurd hi (Nat.not_lt_zero i)

theorem eventAttrCount_eq {attrs : List Nat} {events : List (Nat × List Nat)}
    (hv : Visits s attrs events) : eventAttrCount s = (eventAttrs events).length := by
  rw [eventAttrCount, hv.walk_events, length_eventAttrs, Option.getD_some, List.map_map]
  congr 1
  refine List.map_congr_left fun e he => ?_
  exact hv.event_num_attrs e he

/-- The flush decision counts the records that the loops visit. -/
theorem full_eq {attrs : List Nat} {events : List (Nat × List Nat)} (hv : Visits s attrs events) :
    otlpFull s o = .ok (decide (o.nSpans = otelBatchSpans) ||
      decide (o.numAttrs + attrs.length + (eventAttrs events).length > otelBatchAttrs) ||
      decide (o.numEvents + events.length > otelBatchEvents)) := by
  have hsum : ((events.map Prod.fst).map fun e => s.get e OtelEvent.numAttrs).sum =
      (eventAttrs events).length := by
    have := eventAttrCount_eq hv
    rwa [eventAttrCount, hv.walk_events, Option.getD_some] at this
  rw [otlpFull, hv.walk_events, visited]
  show Except.ok _ = _
  rw [hsum, hv.num_attrs, hv.num_events]

/-- A span that fits is added to the batch. -/
theorem Batch.fill {entries : List (P × OtelSpan)} {attrs : List Nat}
    {events : List (Nat × List Nat)} (h : Batch o entries) (hv : Visits (mem p) attrs events)
    (hfull : otlpFull (mem p) o = .ok false) :
    ∃ o', otlpFill mem o p = .ok o' ∧ Batch o' (entries ++ [(p, mem p)]) ∧
      o'.nSpans = o.nSpans + 1 ∧
      o'.numAttrs = o.numAttrs + attrs.length + (eventAttrs events).length ∧
      o'.numEvents = o.numEvents + events.length ∧
      o'.service = o.service ∧ o'.hostname = o.hostname ∧ o'.buf = o.buf ∧
      o'.bufSize = o.bufSize := by
  rw [full_eq hv] at hfull
  simp only [Except.ok.injEq, Bool.or_eq_false_iff, decide_eq_false_iff_not] at hfull
  obtain ⟨⟨hns, hna⟩, hne⟩ := hfull
  have hlt := Nat.lt_of_le_of_ne h.nSpans_le hns
  obtain ⟨o', hfill, hn, ha, he, hext, h1, h2, h3, h4, hstored⟩ :=
    fill_stored hv hlt (Nat.le_of_not_gt hna) (Nat.le_of_not_gt hne)
  refine ⟨o', hfill, ?_, hn, ha, he, h1, h2, h3, h4⟩
  have hcount := h.nSpans
  refine
    { nSpans := by rw [hn, hcount, List.length_append]; rfl
      nSpans_le := by omega
      numAttrs_le := by omega
      numEvents_le := by omega
      empty := fun hnil => absurd hnil (by simp)
      stored := ?_ }
  intro i hi
  rw [List.length_append, List.length_singleton] at hi
  by_cases hlt : i < entries.length
  · obtain ⟨as, es, hvis, hst⟩ := h.stored i hlt
    rw [List.getElem_append_left hlt]
    exact ⟨as, es, hvis, hst.extend hext (by omega)⟩
  · have hlast : i = o.nSpans := by omega
    subst hlast
    rw [List.getElem_append_right (by omega)]
    simp only [hcount, Nat.sub_self, List.getElem_cons_zero]
    exact ⟨attrs, events, hv, by rw [← hcount]; exact hstored⟩

/-- A span fits into an empty batch. -/
theorem full_empty {attrs : List Nat} {events : List (Nat × List Nat)} (hv : Visits s attrs events)
    (h : o.nSpans = 0) (ha : o.numAttrs = 0) (he : o.numEvents = 0) :
    otlpFull s o = .ok false := by
  have htotal := hv.total_le
  have hlen := length_eventAttrs events
  rw [full_eq hv, h, ha, he]
  have h1 : ¬ 0 = otelBatchSpans := by decide
  have h2 : ¬ 0 + attrs.length + (eventAttrs events).length > otelBatchAttrs := by
    simp only [otelBatchAttrs]
    omega
  have h3 : ¬ 0 + events.length > otelBatchEvents := by
    simp only [otelBatchEvents]
    omega
  simp only [h1, h2, h3, decide_false, Bool.or_self]

/-! ## Flushing -/

variable {pack : Proto.ExportTraceServiceRequest → Bytes} {transport : Bool}

/-- The batch with its cursors reset. -/
def resetBatch (o : OtelOtlp P) : OtelOtlp P :=
  { o with nSpans := 0, numAttrs := 0, numEvents := 0 }

theorem Batch.reset (o : OtelOtlp P) : Batch (resetBatch o) ([] : List (P × OtelSpan)) :=
  Batch.nil rfl rfl rfl

/-- What a flush gives to the transport. -/
def sentBy (pack : Proto.ExportTraceServiceRequest → Bytes) (transport : Bool)
    (mem : P → OtelSpan) (o : OtelOtlp P) : List Bytes :=
  if o.nSpans = 0 ∨ transport = false then [] else [grpcFrame (pack (otlpRequest mem o))]

/-- A flush resets the batch, unless it fails at the buffer. -/
theorem flush_cases (pack : Proto.ExportTraceServiceRequest → Bytes) (transport : Bool)
    (mem : P → OtelSpan) {entries : List (P × OtelSpan)} (h : Batch o entries) :
    (o.nSpans ≠ 0 ∧ o.buf = false ∧ otlpFlush pack transport mem o = .error .nullDeref) ∨
    (o.nSpans ≠ 0 ∧ o.bufSize < sizeofGrpcHdr + (pack (otlpRequest mem o)).length ∧
      otlpFlush pack transport mem o = .error .bufferOverflow) ∨
    otlpFlush pack transport mem o = .ok (resetBatch o, sentBy pack transport mem o) := by
  unfold otlpFlush sentBy
  by_cases hz : o.nSpans = 0
  · right
    right
    obtain ⟨ha, he⟩ := h.empty (List.eq_nil_of_length_eq_zero (by rw [← h.nSpans, hz]))
    have hsame : resetBatch o = o := by
      obtain ⟨service, hostname, nSpans, spans, status, numAttrs, attr, numEvents, event, buf,
        bufSize⟩ := o
      simp only at hz ha he
      subst hz ha he
      rfl
    rw [if_pos hz, if_pos (Or.inl hz), hsame]
  · rw [if_neg hz]
    by_cases hbuf : o.buf = false
    · left
      exact ⟨hz, hbuf, by simp [hbuf]⟩
    · right
      have htrue : o.buf = true := by simpa using hbuf
      simp only [htrue, Bool.not_true, Bool.false_eq_true, if_false]
      by_cases hfit : o.bufSize < sizeofGrpcHdr + (pack (otlpRequest mem o)).length
      · left
        exact ⟨hz, hfit, if_pos hfit⟩
      · right
        rw [if_neg hfit]
        cases transport <;> simp [hz, resetBatch, htrue]

theorem flush_overflow (h : otlpFlush pack transport mem o = .error .bufferOverflow) :
    o.bufSize < sizeofGrpcHdr + (pack (otlpRequest mem o)).length := by
  by_contra hfit
  simp only [otlpFlush, if_neg hfit] at h
  split_ifs at h
  cases h

/-! ## The messages of a batch -/

/-- As long as the spans of a batch are not overwritten, it is packed into their exported forms. -/
theorem Batch.message {entries : List (P × OtelSpan)} (h : Batch o entries)
    (hmem : ∀ e ∈ entries, mem e.1 = e.2) {i : Nat} (hi : i < entries.length) :
    exported entries[i].2 = some (otlpSpanMessage mem o i) := by
  obtain ⟨attrs, events, hv, hstored⟩ := h.stored i hi
  exact hstored.message hv (hmem _ (List.getElem_mem hi))

theorem otlpRequest_spans (mem : P → OtelSpan) (o : OtelOtlp P) :
    (otlpRequest mem o).spans = (List.range o.nSpans).map (otlpSpanMessage mem o) := by
  simp [Proto.ExportTraceServiceRequest.spans, otlpRequest]

theorem Batch.messages {entries : List (P × OtelSpan)} (h : Batch o entries)
    (hmem : ∀ e ∈ entries, mem e.1 = e.2) :
    (otlpRequest mem o).spans.map some = entries.map fun e => exported e.2 := by
  rw [otlpRequest_spans, h.nSpans]
  refine List.ext_getElem (by simp) ?_
  intro i h1 h2
  rw [List.length_map] at h2
  simp only [List.map_map, List.getElem_map, List.getElem_range, Function.comp_apply]
  exact (h.message hmem h2).symm

/-! ## Runs -/

/-- Adding a span: it is added to the batch if it fits, else to the batch that the flush has
emptied. -/
theorem addSpan_cases (pack : Proto.ExportTraceServiceRequest → Bytes) (transport : Bool)
    {entries : List (P × OtelSpan)} (h : Batch o entries)
    (hs : Finished (mem p)) :
    (otlpFull (mem p) o = .ok true ∧ ∃ f, otlpAddSpan pack transport mem o p = .error f ∧
      otlpFlush pack transport mem o = .error f ∧ o.nSpans ≠ 0 ∧
      (f = .nullDeref ∨ f = .bufferOverflow)) ∨
    (otlpFull (mem p) o = .ok false ∧ ∃ o', otlpAddSpan pack transport mem o p = .ok (o', []) ∧
      Batch o' (entries ++ [(p, mem p)]) ∧ o'.service = o.service ∧ o'.hostname = o.hostname ∧
      o'.buf = o.buf ∧ o'.bufSize = o.bufSize) ∨
    (otlpFull (mem p) o = .ok true ∧ ∃ o',
      otlpAddSpan pack transport mem o p = .ok (o', sentBy pack transport mem o) ∧
      otlpFlush pack transport mem o = .ok (resetBatch o, sentBy pack transport mem o) ∧
      entries ≠ [] ∧ Batch o' [(p, mem p)] ∧
      o'.service = o.service ∧ o'.hostname = o.hostname ∧ o'.buf = o.buf ∧
      o'.bufSize = o.bufSize) := by
  obtain ⟨attrs, events, hv⟩ := hs.visits
  have hfull := full_eq (o := o) hv
  cases hb : (decide (o.nSpans = otelBatchSpans) ||
      decide (o.numAttrs + attrs.length + (eventAttrs events).length > otelBatchAttrs) ||
      decide (o.numEvents + events.length > otelBatchEvents)) with
  | false =>
    right
    left
    rw [hb] at hfull
    obtain ⟨o', hfill, hbatch, -, -, -, h1⟩ := h.fill hv hfull
    refine ⟨hfull, o', ?_, hbatch, h1⟩
    rw [otlpAddSpan, hfull]
    show (otlpFill mem o p >>= fun o => pure (o, [])) = _
    rw [hfill]
    rfl
  | true =>
    rw [hb] at hfull
    have hne : o.nSpans ≠ 0 := by
      intro hz
      obtain ⟨ha, he⟩ := h.empty (List.eq_nil_of_length_eq_zero (by rw [← h.nSpans, hz]))
      rw [full_empty hv hz ha he] at hfull
      cases hfull
    have hadd : otlpAddSpan pack transport mem o p = (otlpFlush pack transport mem o >>= fun r =>
        otlpFill mem r.1 p >>= fun o => pure (o, r.2)) := by
      rw [otlpAddSpan, hfull]
      rfl
    rw [hadd]
    rcases flush_cases pack transport mem h with
      ⟨-, -, hflush⟩ | ⟨-, -, hflush⟩ | hflush
    · left
      exact ⟨hfull, _, by rw [hflush]; rfl, hflush, hne, Or.inl rfl⟩
    · left
      exact ⟨hfull, _, by rw [hflush]; rfl, hflush, hne, Or.inr rfl⟩
    · right
      right
      have hempty : otlpFull (mem p) (resetBatch o) = .ok false := full_empty hv rfl rfl rfl
      obtain ⟨o', hfill, hbatch, -, -, -, h1⟩ := (Batch.reset o).fill hv hempty
      refine ⟨hfull, o', ?_, hflush, ?_, hbatch, h1⟩
      · rw [hflush]
        show (otlpFill mem (resetBatch o) p >>= fun o => pure (o, _)) = _
        rw [hfill]
        rfl
      · intro hnil
        rw [hnil] at h
        exact hne h.nSpans

theorem BatchState.mem_next {b : BatchState P} {op : BatchOp P} {e : P × OtelSpan}
    (h : e ∈ b.next op) : e ∈ b.entries ∨ ∃ mem p, op = .add mem p ∧ e = (p, mem p) := by
  cases op with
  | add mem p =>
    unfold BatchState.next at h
    simp only at h
    split at h
    · exact Or.inr ⟨mem, p, rfl, List.mem_singleton.mp h⟩
    · rcases List.mem_append.mp h with h | h
      · exact Or.inl h
      · exact Or.inr ⟨mem, p, rfl, List.mem_singleton.mp h⟩
  | flush mem => cases h

/-- An operation keeps the invariant, unless it packs the batch and that fails. -/
theorem batchStep_cases (pack : Proto.ExportTraceServiceRequest → Bytes) (transport : Bool)
    {b : BatchState P} (h : Batch b.otlp b.entries) {op : BatchOp P} (hop : op.Ok) :
    batchStep pack transport b.otlp op = .error .nullDeref ∨
    (batchStep pack transport b.otlp op = .error .bufferOverflow ∧ op.Packs b.otlp ∧
      b.otlp.bufSize < sizeofGrpcHdr + (pack (otlpRequest op.mem b.otlp)).length) ∨
    ∃ o', batchStep pack transport b.otlp op = .ok o' ∧ Batch o' (b.next op) ∧
      o'.service = b.otlp.service ∧ o'.hostname = b.otlp.hostname ∧ o'.buf = b.otlp.buf ∧
      o'.bufSize = b.otlp.bufSize := by
  cases op with
  | add mem p =>
    rcases addSpan_cases pack transport h hop with
      ⟨hfull, f, hadd, hflush, -, hf⟩ | ⟨hfull, o', hadd, hb, hframe⟩ |
      ⟨hfull, o', hadd, -, -, hb, hframe⟩
    · have hstep : batchStep pack transport b.otlp (.add mem p) = .error f := by
        rw [batchStep, hadd]
        rfl
      rcases hf with rfl | rfl
      · exact Or.inl hstep
      · exact Or.inr (Or.inl ⟨hstep, hfull, flush_overflow hflush⟩)
    · refine Or.inr (Or.inr ⟨o', by rw [batchStep, hadd]; rfl, ?_, hframe⟩)
      simpa only [BatchState.next, hfull] using hb
    · refine Or.inr (Or.inr ⟨o', by rw [batchStep, hadd]; rfl, ?_, hframe⟩)
      simpa only [BatchState.next, hfull] using hb
  | flush mem =>
    rcases flush_cases pack transport mem h with
      ⟨-, -, hflush⟩ | ⟨-, hlt, hflush⟩ | hflush
    · exact Or.inl (by rw [batchStep, hflush]; rfl)
    · exact Or.inr (Or.inl ⟨by rw [batchStep, hflush]; rfl, trivial, hlt⟩)
    · exact Or.inr (Or.inr ⟨_, by rw [batchStep, hflush]; rfl, Batch.reset b.otlp, rfl, rfl, rfl,
        rfl⟩)

theorem batchRun_cons (op : BatchOp P) (ops : List (BatchOp P)) :
    batchRun pack transport o (op :: ops) =
      batchStep pack transport o op >>= fun o => batchRun pack transport o ops := by
  rw [batchRun, List.foldlM_cons]
  rfl

theorem batchRun_cases {ops : List (BatchOp P)} {entries : List (P × OtelSpan)} (h : Batch o entries)
    (hops : ∀ op ∈ ops, op.Ok) :
    (∃ f, batchRun pack transport o ops = .error f ∧ (f = .nullDeref ∨ f = .bufferOverflow)) ∨
    ∃ o' entries', batchRun pack transport o ops = .ok o' ∧ Batch o' entries' := by
  induction ops generalizing o entries with
  | nil => exact Or.inr ⟨o, entries, rfl, h⟩
  | cons op ops ih =>
    have hrest : ∀ op' ∈ ops, op'.Ok := fun op' hop' => hops op' (List.mem_cons_of_mem _ hop')
    rw [batchRun_cons]
    rcases batchStep_cases pack transport (b := ⟨o, entries⟩) h (hops op (by simp)) with
      hstep | ⟨hstep, -⟩ | ⟨o', hstep, hb, -⟩
    · exact Or.inl ⟨_, by rw [hstep]; rfl, Or.inl rfl⟩
    · exact Or.inl ⟨_, by rw [hstep]; rfl, Or.inr rfl⟩
    · rw [hstep]
      exact ih hb hrest

/-- No run of the encoder over finished spans leaves the batch arrays, and no list walk of it goes on
for ever. In every state that it reaches the flush decision is exact: a span that is added without a
flush takes the slots that its counters promise, and an empty batch has room for any span. -/
theorem batchRun_indices (pack : Proto.ExportTraceServiceRequest → Bytes) (transport : Bool)
    (o : OtelOtlp P) (hn : o.nSpans = 0) (ha : o.numAttrs = 0) (he : o.numEvents = 0)
    (ops : List (BatchOp P)) (hops : ∀ op ∈ ops, op.Ok) :
    (∀ f, batchRun pack transport o ops = .error f → f ≠ .outOfBounds ∧ f ≠ .unterminated) ∧
    ∀ o', batchRun pack transport o ops = .ok o' →
      o'.nSpans ≤ otelBatchSpans ∧ o'.numAttrs ≤ otelBatchAttrs ∧
      o'.numEvents ≤ otelBatchEvents ∧
      ∀ (mem : P → OtelSpan) (p : P), Finished (mem p) →
        (otlpFull (mem p) o' = .ok false → ∃ o'', otlpFill mem o' p = .ok o'' ∧
          o''.nSpans = o'.nSpans + 1 ∧
          o''.numAttrs = o'.numAttrs + (mem p).numAttrs + eventAttrCount (mem p) ∧
          o''.numEvents = o'.numEvents + (mem p).numEvents) ∧
        (o'.nSpans = 0 → otlpFull (mem p) o' = .ok false) := by
  rcases batchRun_cases (Batch.nil hn ha he) hops with
    ⟨f, hrun, hf⟩ | ⟨o', entries, hrun, hb⟩
  · refine ⟨?_, ?_⟩
    · intro f' hf'
      obtain rfl : f = f' := by
        rw [hrun] at hf'
        exact Except.error.inj hf'
      rcases hf with rfl | rfl <;> decide
    · intro o' ho'
      rw [hrun] at ho'
      cases ho'
  · refine ⟨?_, ?_⟩
    · intro f hf
      rw [hrun] at hf
      cases hf
    · intro o₁ ho₁
      obtain rfl : o' = o₁ := by
        rw [hrun] at ho₁
        exact Except.ok.inj ho₁
      refine ⟨hb.nSpans_le, hb.numAttrs_le, hb.numEvents_le, ?_⟩
      intro mem p hfin
      obtain ⟨attrs, events, hv⟩ := hfin.visits
      refine ⟨?_, ?_⟩
      · intro hfull
        obtain ⟨o'', hfill, -, h1, h2, h3, -⟩ := hb.fill hv hfull
        exact ⟨o'', hfill, h1, by rw [h2, hv.num_attrs, eventAttrCount_eq hv],
          by rw [h3, hv.num_events]⟩
      · intro hz
        obtain ⟨ha', he'⟩ := hb.empty (List.eq_nil_of_length_eq_zero (by rw [← hb.nSpans, hz]))
        exact full_empty hv hz ha' he'

theorem finished_sample : Finished (stampEnd (sampleSession [104, 105]).span 9) :=
  finished_named 9 (by simp [ShortStr])

theorem batchRun_indices_sample :
    let mem : Unit → OtelSpan := fun _ => stampEnd (sampleSession [104, 105]).span 9
    ∀ f, batchRun (fun _ => []) true (otlpInit [] [] true) [.add mem (), .add mem (), .flush mem] =
      .error f → f ≠ .outOfBounds ∧ f ≠ .unterminated :=
  (batchRun_indices (fun _ => []) true (otlpInit [] [] true) rfl rfl rfl _ (by
    simp [BatchOp.Ok, finished_sample])).1

end OtelTracing
