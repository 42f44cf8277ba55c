import OtelTracing.Proofs.BatchProofs
import OtelTracing.Proofs.ReferenceProofs

/-!
# Proofs: the encoded size of a request

The encoding of an attribute or of an event is at most three bytes longer than what its cells cost
in the arena, so a span is encoded in what its arena holds, three bytes for each record and a fixed
part. A full batch of such spans fits the request buffer, as long as its spans are packed as they were
when they were added: the batch refers to their slots, and slots may be used again.
-/

namespace OtelTracing

open ByteMem Cells Wire

variable {P : Type} {mem : P → OtelSpan} {p : P} {o : OtelOtlp P} {s : OtelSpan}

/-! ## Strings and values -/

theorem length_cutStr_le (b : Bytes) : (cutStr b).length ≤ b.length := by
  unfold cutStr
  exact (List.takeWhile_sublist _).length_le

/-- A stored string costs at least its length and a NUL. -/
theorem length_le_cost (n : StrNode) : n.bytes.length + 1 ≤ roundUp 8 (strCell n).size :=
  le_roundUp _ (by decide)

theorem strBytes_le_cost (n : Option StrNode) :
    (strBytes n).length ≤ cost 8 (optCells n) := by
  cases n with
  | none => exact Nat.zero_le _
  | some n =>
    have hn := length_le_cost n
    simp only [strBytes, optCells, Option.map_some, Option.getD_some, cost_cons, cost_nil]
    omega

/-- A number takes ten bytes and its tag. -/
theorem size_int_le (v : Int64) : size (Proto.AnyValue.intValue v).fields ≤ 11 := by
  have hlt : v.toUInt64.toNat < 128 ^ (9 + 1) := by
    have := v.toUInt64.toNat_lt
    omega
  have := length_varint_entry_le (f := 3) (by decide) hlt
  simpa [Proto.AnyValue.fields] using this

theorem size_value_le {v : ValNode} (h : cost 8 v.cells < 128 ^ 2) :
    size v.view.cut.proto.fields ≤ max 11 (cost 8 v.cells + 2) := by
  cases v with
  | str v =>
    cases v with
    | none => exact le_max_of_le_left (by decide)
    | some n =>
      have hn := length_le_cost n
      have hcut := length_cutStr_le n.bytes
      have hcost : cost 8 (ValNode.str (some n)).cells = roundUp 8 (strCell n).size := rfl
      rw [hcost] at h ⊢
      have hentry := length_bytes_le (f := 1) (k := 1) (b := cutStr n.bytes) (by decide)
        (by omega)
      have hsize : size (ValNode.str (some n)).view.cut.proto.fields =
          (Entry.encode ⟨1, .bytes (cutStr n.bytes)⟩).length := by
        simp [ValNode.view, AttrValue.cut, AttrValue.proto, Proto.AnyValue.fields, strBytes]
      omega
  | i64 v => exact le_max_of_le_left (size_int_le v)
  | u64 v => exact le_max_of_le_left (size_int_le v.toInt64)
  | bool v => exact le_max_of_le_left (by cases v <;> decide)

/-! ## Attributes -/

/-- The cells of an attribute with its key and value. -/
theorem cost_attr (a : AttrNode) (nx : Nat) :
    cost 8 (attrCell a nx :: attrList.rest a) =
      16 + (roundUp 8 (strCell a.key).size + cost 8 a.value.cells) := by
  have hrec : roundUp 8 sizeofOtelAttr = 16 := by decide
  rw [← hrec]
  rfl

theorem size_attr_le (a : AttrNode) (nx : Nat)
    (h : cost 8 (attrCell a nx :: attrList.rest a) < 128 ^ 2) :
    size a.view.cut.proto.fields ≤ cost 8 (attrCell a nx :: attrList.rest a) := by
  rw [cost_attr] at h ⊢
  have hkeycost := length_le_cost a.key
  have hcut := length_cutStr_le a.key.bytes
  have hvalue := size_value_le (v := a.value) (by omega)
  have hkey := size_scalarBytes_le (f := 1) (k := 1) (b := cutStr a.key.bytes) (by decide)
    (by omega)
  have hmessage := size_message_le (f := 2) (k := 1) (by decide) (by omega) hvalue
  simp only [AttrNode.view, AttrView.cut, AttrView.proto, Proto.KeyValue.fields, size_append]
  omega

theorem size_attrs_le {f : Nat} (hf : f < 16) (as : List AttrNode) (nx : Nat)
    (h : cost 8 (attrList.cells as nx) < 128 ^ 2) :
    size (messages f (as.map fun a => encode a.view.cut.proto.fields)) ≤
      cost 8 (attrList.cells as nx) + 3 * as.length := by
  induction as with
  | nil => exact Nat.zero_le _
  | cons a as ih =>
    have hcost : cost 8 (attrList.cells (a :: as) nx) =
        cost 8 (attrCell a (attrList.first as nx) :: attrList.rest a) +
          cost 8 (attrList.cells as nx) := by
      simp only [Linked.cells, cost_cons, cost_append, Nat.add_assoc]
      rfl
    rw [hcost] at h ⊢
    have ha := size_attr_le a (attrList.first as nx) (by omega)
    have has := ih (by omega)
    have hentry := length_bytes_le (k := 1) (b := encode a.view.cut.proto.fields) hf
      (by rw [← size]; omega)
    rw [← size] at hentry
    simp only [List.map_cons, messages_cons, size_cons, List.length_cons]
    omega

/-! ## Events -/

/-- The cells of an event with its name and attributes. -/
theorem cost_event (e : EventNode) (nx : Nat) :
    cost 8 (eventCell e nx :: eventList.rest e) =
      24 + (cost 8 (optCells e.name) + cost 8 (attrList.cells e.attrs otelNil)) := by
  have hrec : roundUp 8 sizeofOtelEvent = 24 := by decide
  rw [cost_cons, eventList, cost_append, ← hrec]
  rfl

theorem size_event_le (e : EventNode) (nx : Nat) (hdropped : e.dropped < 256)
    (h : cost 8 (eventCell e nx :: eventList.rest e) < 128 ^ 2) :
    size e.view.cut.proto.fields ≤
      cost 8 (eventCell e nx :: eventList.rest e) + 3 * e.attrs.length := by
  rw [cost_event] at h ⊢
  have hnamecost := strBytes_le_cost e.name
  have hcut := length_cutStr_le (strBytes e.name)
  have htime := size_scalarFixed64_le (f := 1) (by decide) e.time
  have hname := size_scalarBytes_le (f := 2) (k := 1) (b := cutStr (strBytes e.name)) (by decide)
    (by omega)
  have hattrs := size_attrs_le (f := 3) (by decide) e.attrs otelNil (by omega)
  have hdrop := size_scalarVarint_le (f := 4) (n := e.dropped) (k := 1) (by decide) (by omega)
  simp only [EventNode.view, EventView.cut, EventView.proto, Proto.Event.fields, size_append,
    List.map_map, Function.comp_def] at hattrs ⊢
  omega

theorem size_events_le {f : Nat} (hf : f < 16) (es : List EventNode) (nx : Nat)
    (hdropped : ∀ e ∈ es, e.dropped < 256) (h : cost 8 (eventList.cells es nx) + 3 * 256 < 128 ^ 2)
    (hattrs : (es.map fun e => e.attrs.length).sum ≤ 256) :
    size (messages f (es.map fun e => encode e.view.cut.proto.fields)) ≤
      cost 8 (eventList.cells es nx) +
        3 * (es.length + (es.map fun e => e.attrs.length).sum) := by
  induction es with
  | nil => exact Nat.zero_le _
  | cons e es ih =>
    have hcost : cost 8 (eventList.cells (e :: es) nx) =
        cost 8 (eventCell e (eventList.first es nx) :: eventList.rest e) +
          cost 8 (eventList.cells es nx) := by
      simp only [Linked.cells, cost_cons, cost_append, Nat.add_assoc]
      rfl
    simp only [List.map_cons, List.sum_cons, List.length_cons] at hattrs ⊢
    rw [hcost] at h ⊢
    have he := size_event_le e (eventList.first es nx) (hdropped e (by simp))
      (by omega)
    have hes := ih (fun e' he' => hdropped e' (List.mem_cons_of_mem _ he')) (by omega) (by omega)
    have hentry := length_bytes_le (k := 1) (b := encode e.view.cut.proto.fields) hf
      (by rw [← size]; omega)
    rw [← size] at hentry
    simp only [messages_cons, size_cons]
    omega

/-! ## Spans -/

/-- What a laid-out span is exported as takes at most 4600 bytes. -/
theorem size_layout_le {L : Layout} (h : Represents s L) (ha : s.droppedAttrs < 256)
    (he : s.droppedEvents < 256) :
    size (spanProto s (L.view s).cut).fields ≤ 4600 := by
  have hcost := h.sat.cost_le
  have hle := h.used_le
  simp only [Layout.cells, cost_append] at hcost
  simp only [otelSpanArena] at hle
  have htotal := total_records_le h
  have hname := strBytes_le_cost L.name
  have hmessage := strBytes_le_cost L.message
  have hcutname := length_cutStr_le (strBytes L.name)
  have hcutmessage := length_cutStr_le (strBytes L.message)
  have h1 := size_scalarBytes_le (f := 1) (k := 0) (b := s.traceId.toList) (by decide) (by simp)
  have h2 := size_scalarBytes_le (f := 2) (k := 0) (b := le 8 s.spanId.toNat) (by decide)
    (by simp)
  have h4 : size (scalarBytes 4 (if s.parentId = 0 then [] else le 8 s.parentId.toNat)) ≤ 10 := by
    split_ifs
    · exact Nat.zero_le _
    · have := size_scalarBytes_le (f := 4) (k := 0) (b := le 8 s.parentId.toNat) (by decide)
        (by simp)
      simpa using this
  have h5 := size_scalarBytes_le (f := 5) (k := 1) (b := cutStr (strBytes L.name)) (by decide)
    (by omega)
  have h6 := size_scalarVarint_le (f := 6) (n := (protoKind s.kind).code) (k := 0) (by decide)
    (by cases protoKind s.kind <;> decide)
  have h7 := size_scalarFixed64_le (f := 7) (by decide) s.startUnixNs
  have h8 := size_scalarFixed64_le (f := 8) (by decide) s.endUnixNs
  have h9 := size_attrs_le (f := 9) (by decide) L.attrs otelNil (by omega)
  have h10 := size_scalarVarint_le (f := 10) (n := s.droppedAttrs) (k := 1) (by decide)
    (by omega)
  have h11 := size_events_le (f := 11) (by decide) L.events otelNil
    (fun e he => by
      obtain ⟨nx, -, -, -, -, -, hdrop, -⟩ := event_holds h he
      rw [← hdrop]
      exact load_lt ..) (by omega) (by omega)
  have h12 := size_scalarVarint_le (f := 12) (n := s.droppedEvents) (k := 1) (by decide)
    (by omega)
  have hstatus2 := size_scalarBytes_le (f := 2) (k := 1) (b := cutStr (strBytes L.message))
    (by decide) (by omega)
  have hstatus3 := size_scalarVarint_le (f := 3) (n := (protoStatus s.status).code) (k := 0)
    (by decide) (by cases protoStatus s.status <;> decide)
  have hstatus : size (Proto.Status.fields
      { message := cutStr (strBytes L.message), code := protoStatus s.status }) ≤
      (strBytes L.message).length + 5 := by
    simp only [Proto.Status.fields, size_append]
    omega
  have h15 := size_message_le (f := 15) (k := 1) (by decide) (by omega) hstatus
  simp only [Vector.length_toList, length_le] at h1 h2
  simp only [spanProto, Layout.view, SpanView.cut, Proto.Span.fields, size_append, List.map_map,
    Function.comp_def] at h9 h11 ⊢
  omega

theorem bump_lt {n : Nat} (h : n < 256) : bump n < 256 := by
  unfold bump
  split_ifs <;> omega

/-- The drop counters of a span fit a byte. -/
theorem call_dropped {v : SpanView} (c : Call) (ha : v.droppedAttrs < 256)
    (he : v.droppedEvents < 256) :
    (v.call c).droppedAttrs < 256 ∧ (v.call c).droppedEvents < 256 := by
  cases c with
  | setName name => exact ⟨ha, he⟩
  | setStatus status message => exact ⟨ha, he⟩
  | attr key arg =>
    rcases hadd : addAttr v.used v.attrs key arg with ⟨u, _ | attrs⟩
    · simp only [SpanView.call, hadd]
      exact ⟨bump_lt ha, he⟩
    · simp only [SpanView.call, hadd]
      exact ⟨ha, he⟩
  | event name now =>
    rcases hfit : charge (chargeStr v.used name).1 sizeofOtelEvent with _ | u
    · simp only [SpanView.call, hfit]
      exact ⟨ha, bump_lt he⟩
    · simp only [SpanView.call, hfit]
      exact ⟨ha, he⟩
  | eventAttr handle key arg =>
    rcases hget : v.events[handle]? with _ | e
    · simp only [SpanView.call, hget]
      exact ⟨ha, he⟩
    · rcases hadd : addAttr v.used e.attrs key arg with ⟨u, _ | attrs⟩
      · simp only [SpanView.call, hget, hadd]
        exact ⟨ha, he⟩
      · simp only [SpanView.call, hget, hadd]
        exact ⟨ha, he⟩
  | finish now => exact ⟨ha, he⟩

theorem calls_dropped {v : SpanView} (cs : List Call) (ha : v.droppedAttrs < 256)
    (he : v.droppedEvents < 256) :
    (v.calls cs).droppedAttrs < 256 ∧ (v.calls cs).droppedEvents < 256 := by
  induction cs generalizing v with
  | nil => exact ⟨ha, he⟩
  | cons c cs ih =>
    obtain ⟨ha', he'⟩ := call_dropped c ha he
    exact ih ha' he'

/-- No finished span takes more than 4600 bytes in a request. -/
theorem Finished.size_le {m : Proto.Span} (h : Finished s) (hm : exported s = some m) :
    size m.fields ≤ 4600 := by
  obtain ⟨c, env, tls, s₀, name, kind, cs, now, hrec, hname, hcs, rfl⟩ := h
  obtain ⟨L, hL, hview⟩ := session_spec hrec hname hcs
  obtain ⟨ha, he⟩ := calls_dropped (v := SpanView.start name) cs (Nat.zero_lt_succ 255)
    (Nat.zero_lt_succ 255)
  rw [← hview] at ha he
  have hrepr : Represents (stampEnd (Session.calls ⟨(c.run env tls s₀ name kind).2, []⟩ cs).span
      now) L := { hL.repr with }
  rw [exported, readSpan_eq hrepr, Option.map_some, Option.some.injEq] at hm
  rw [← hm]
  exact size_layout_le hrepr ha he

/-! ## Requests -/

theorem size_strAttr_le (key v : Bytes) (hkey : key.length < 128) (hv : v.length < 128) :
    size (Proto.KeyValue.fields { key := key, value := .stringValue v }) ≤
      key.length + v.length + 7 := by
  have hkeyField := size_scalarBytes_le (f := 1) (k := 0) (b := key) (by decide) hkey
  have hentry := length_bytes_le (f := 1) (k := 0) (b := v) (by decide) hv
  have hvalue : size (Proto.AnyValue.stringValue v).fields ≤ v.length + 2 := by
    simpa [Proto.AnyValue.fields] using hentry
  have hmessage := size_message_le (f := 2) (k := 1) (by decide) (by omega) hvalue
  simp only [Proto.KeyValue.fields, size_append]
  omega

theorem size_resource_le {service hostname : Bytes} (hservice : service.length ≤ 127)
    (hhost : hostname.length ≤ 127) :
    size (Proto.Resource.fields { attributes := [
      { key := ascii "service.name", value := .stringValue service },
      { key := ascii "host.name", value := .stringValue hostname }] }) ≤ 300 := by
  have hattr1 := size_strAttr_le (ascii "service.name") service (by decide) (by omega)
  have hattr2 := size_strAttr_le (ascii "host.name") hostname (by decide) (by omega)
  have hlen1 : (ascii "service.name").length = 12 := by decide
  have hlen2 : (ascii "host.name").length = 9 := by decide
  have hmessages := size_messages_le (f := 1) (k := 1) (n := 146)
    ([encode (Proto.KeyValue.fields
        { key := ascii "service.name", value := .stringValue service }),
      encode (Proto.KeyValue.fields
        { key := ascii "host.name", value := .stringValue hostname })])
    (by decide) (by decide) (by
      intro b hb
      simp only [List.mem_cons, List.not_mem_nil, or_false] at hb
      rcases hb with rfl | rfl
      · rw [← size]
        omega
      · rw [← size]
        omega)
  exact hmessages.trans (Nat.le_of_ble_eq_true rfl)

theorem size_scope_le {service : Bytes} (hservice : service.length ≤ 127) :
    size (Proto.InstrumentationScope.fields { name := service, version := ascii "0.1.0" }) ≤ 136 := by
  have h1 := size_scalarBytes_le (f := 1) (k := 0) (b := service) (by decide) (by omega)
  have h2 := size_scalarBytes_le (f := 2) (k := 0) (b := ascii "0.1.0") (by decide) (by decide)
  have hlen : (ascii "0.1.0").length = 5 := by decide
  simp only [Proto.InstrumentationScope.fields, size_append]
  omega

/-- A request of at most 256 spans of at most 4600 bytes, from a service and a host with names of at
most 127 bytes. -/
theorem size_request_le (hservice : o.service.length ≤ 127) (hhost : o.hostname.length ≤ 127)
    (hn : o.nSpans ≤ otelBatchSpans)
    (hspans : ∀ i < o.nSpans, size (otlpSpanMessage mem o i).fields ≤ 4600) :
    size (otlpRequest mem o).fields ≤ 1200000 := by
  have hscope := size_message_le (f := 1) (k := 1) (by decide) (by decide)
    (size_scope_le hservice)
  have hmessages := size_messages_le (f := 2) (k := 1) (n := 4600)
    (((List.range o.nSpans).map (otlpSpanMessage mem o)).map fun s => encode s.fields)
    (by decide) (by decide) (by
      intro b hb
      simp only [List.map_map, List.mem_map, List.mem_range, Function.comp_apply] at hb
      obtain ⟨i, hi, rfl⟩ := hb
      exact hspans i hi)
  simp only [List.length_map, List.length_range, otelBatchSpans] at hmessages hn
  -- from the inside out: the scope with its spans, the resource with its scopes, the request
  have hscopeSpans : size (Proto.ScopeSpans.fields
      { scope := { name := o.service, version := ascii "0.1.0" }
        spans := (List.range o.nSpans).map (otlpSpanMessage mem o) }) ≤ 1180000 := by
    simp only [Proto.ScopeSpans.fields, size_append]
    omega
  have hresource := size_message_le (f := 1) (k := 1) (by decide) (by decide)
    (size_resource_le hservice hhost)
  have hscopes := size_message_le (f := 2) (k := 2) (by decide) (by decide) hscopeSpans
  have hresourceSpans : size (Proto.ResourceSpans.fields
      { resource := { attributes := [
          { key := ascii "service.name", value := .stringValue o.service },
          { key := ascii "host.name", value := .stringValue o.hostname }] }
        scopeSpans := [{
          scope := { name := o.service, version := ascii "0.1.0" }
          spans := (List.range o.nSpans).map (otlpSpanMessage mem o) }] }) ≤ 1190000 := by
    simp only [Proto.ResourceSpans.fields, List.map_cons, List.map_nil, size_append]
    omega
  have hrequest := size_message_le (f := 1) (k := 2) (by decide) (by decide) hresourceSpans
  exact hrequest.trans (by decide)

/-! ## Runs -/

/-- The entries of a batch are finished spans that are still in place. -/
def InPlace (mem : P → OtelSpan) (entries : List (P × OtelSpan)) : Prop :=
  ∀ e ∈ entries, mem e.1 = e.2 ∧ Finished e.2

theorem Batch.span_size_le {entries : List (P × OtelSpan)} (h : Batch o entries)
    (hplace : InPlace mem entries) {i : Nat} (hi : i < o.nSpans) :
    size (otlpSpanMessage mem o i).fields ≤ 4600 := by
  rw [h.nSpans] at hi
  have hmessage := h.message (fun e he => (hplace e he).1) hi
  exact (hplace _ (List.getElem_mem hi)).2.size_le hmessage

theorem Batch.request_size_le {entries : List (P × OtelSpan)} (h : Batch o entries)
    (hplace : InPlace mem entries) (hservice : o.service.length ≤ 127)
    (hhost : o.hostname.length ≤ 127) : size (otlpRequest mem o).fields ≤ 1200000 :=
  size_request_le hservice hhost h.nSpans_le fun _ hi => h.span_size_le hplace hi

variable {pack : Proto.ExportTraceServiceRequest → Bytes} {transport : Bool} {b b' : BatchState P}
  {op : BatchOp P}

/-- The batch that is reached from `o`: its entries are finished spans. -/
structure BatchState.Reached (o : OtelOtlp P) (b : BatchState P) : Prop where
  batch : Batch b.otlp b.entries
  finished : ∀ e ∈ b.entries, Finished e.2
  service : b.otlp.service = o.service
  hostname : b.otlp.hostname = o.hostname
  bufSize : b.otlp.bufSize = o.bufSize

/-- The request for entries in place fits the buffer. -/
theorem BatchState.Reached.request_le (h : b.Reached o) (hservice : o.service.length ≤ 127)
    (hhost : o.hostname.length ≤ 127) (hmem : ∀ e ∈ b.entries, mem e.1 = e.2) :
    (otlpRequest mem b.otlp).encode.length ≤ 1200000 :=
  h.batch.request_size_le (fun e he => ⟨hmem e he, h.finished e he⟩) (by rw [h.service]; exact hservice)
    (by rw [h.hostname]; exact hhost)

/-- What packs the batch with its entries in place does not overflow the buffer. -/
theorem BatchState.Reached.no_overflow (h : b.Reached o)
    (hpack : ∀ m, (pack m).length = m.encode.length) (hservice : o.service.length ≤ 127)
    (hhost : o.hostname.length ≤ 127)
    (hsize : o.bufSize = sizeofGrpcHdr + otelBatchSpans * otelSpanSerialization)
    (hmem : ∀ e ∈ b.entries, mem e.1 = e.2) :
    ¬ b.otlp.bufSize < sizeofGrpcHdr + (pack (otlpRequest mem b.otlp)).length := by
  have hle := h.request_le hservice hhost hmem
  rw [hpack, h.bufSize, hsize]
  simp only [sizeofGrpcHdr, otelBatchSpans, otelSpanSerialization]
  omega

theorem BatchState.Reached.step (h : b.Reached o) (hop : op.Ok)
    (hstep : (batchMachine pack transport).step b op = .ok b') : b'.Reached o := by
  have hentries : ∀ e ∈ b.next op, Finished e.2 := by
    intro e he
    rcases BatchState.mem_next he with hold | ⟨mem, p, rfl, rfl⟩
    · exact h.finished e hold
    · exact hop
  simp only [batchMachine] at hstep
  rcases batchStep_cases pack transport h.batch hop with
    hfail | ⟨hfail, -⟩ | ⟨o', hok, hb, hs, hh, -, hsz⟩
  · rw [hfail] at hstep
    cases hstep
  · rw [hfail] at hstep
    cases hstep
  · rw [hok] at hstep
    cases hstep
    exact ⟨hb, hentries, hs.trans h.service, hh.trans h.hostname, hsz.trans h.bufSize⟩

/-- In every run in which each operation that packs the batch finds the spans of the batch as they were
when they were added, the request fits the buffer that `otel_init` allocates for it and its length fits
the header, and no such operation writes past the buffer; and no finished span takes more than its share
of the buffer. The batch starts empty, with anything that earlier passes left in its objects. -/
theorem batchRun_request_size (pack : Proto.ExportTraceServiceRequest → Bytes) (transport : Bool)
    (hpack : ∀ m, (pack m).length = m.encode.length) (o : OtelOtlp P)
    (hn : o.nSpans = 0) (ha : o.numAttrs = 0) (he : o.numEvents = 0)
    (hservice : o.service.length ≤ 127) (hhost : o.hostname.length ≤ 127)
    (hsize : o.bufSize = sizeofGrpcHdr + otelBatchSpans * otelSpanSerialization)
    (ops : List (BatchOp P)) (b : BatchState P)
    (hrun : ((batchMachine pack transport).restrict KeepsSpans).Run ⟨o, []⟩ ops b) :
    (∀ mem : P → OtelSpan, (∀ e ∈ b.entries, mem e.1 = e.2) →
      (otlpRequest mem b.otlp).spans.map some = b.entries.map (fun e => exported e.2) ∧
      sizeofGrpcHdr + (otlpRequest mem b.otlp).encode.length ≤ b.otlp.bufSize ∧
      (otlpRequest mem b.otlp).encode.length < 2 ^ 32 ∧
      otlpFlush pack transport mem b.otlp ≠ .error .bufferOverflow) ∧
    b.otlp.bufSize = sizeofGrpcHdr + otelBatchSpans * otelSpanSerialization ∧
    (∀ op : BatchOp P, op.Ok → KeepsSpans b op →
      batchStep pack transport b.otlp op ≠ .error .bufferOverflow) ∧
    ∀ (s : OtelSpan) (m : Proto.Span), Finished s → exported s = some m →
      (encode m.fields).length ≤ otelSpanSerialization := by
  have h : b.Reached o := by
    refine hrun.invariant (I := fun b => b.Reached o)
      ⟨Batch.nil hn ha he, by simp, rfl, rfl, rfl⟩ ?_
    intro b op _ b' hb henabled hstep
    exact hb.step henabled.1 hstep
  refine ⟨?_, h.bufSize.trans hsize, ?_, ?_⟩
  · intro mem hmem
    have hfit := h.no_overflow hpack hservice hhost hsize hmem
    have hle := h.request_le hservice hhost hmem
    refine ⟨h.batch.messages hmem, ?_, by omega, ?_⟩
    · rw [← hpack]
      exact Nat.le_of_not_lt hfit
    · intro hflush
      exact hfit (flush_overflow hflush)
  · intro op hop hkeeps hoverflow
    rcases batchStep_cases pack transport h.batch hop with
      hfail | ⟨-, hpacks, hlt⟩ | ⟨o', hok, -⟩
    · rw [hfail] at hoverflow
      cases hoverflow
    · exact h.no_overflow hpack hservice hhost hsize (hkeeps hpacks) hlt
    · rw [hok] at hoverflow
      cases hoverflow
  · intro s m hs hm
    have hle : (encode m.fields).length ≤ 4600 := hs.size_le hm
    exact hle.trans (by decide)

/-- Two slots: one span stays, the other one is named `name`. -/
def sampleSlots (name : Bytes) (p : Bool) : OtelSpan :=
  stampEnd (sampleSession (if p then [104, 105] else name)).span 9

theorem finished_sampleSlots {name : Bytes} (hname : ShortStr (some name)) (p : Bool) :
    Finished (sampleSlots name p) := by
  cases p with
  | false => exact finished_named 9 hname
  | true => exact finished_sample

set_option maxRecDepth 20000 in
/-- The second slot is used again once the batch has been packed. -/
theorem batchRun_request_size_sample : ∃ b : BatchState Bool,
    b.entries = [(false, sampleSlots [99] false)] ∧
    sizeofGrpcHdr + (otlpRequest (sampleSlots [99]) b.otlp).encode.length ≤ b.otlp.bufSize := by
  have hrun : ∃ b : BatchState Bool, b.entries = [(false, sampleSlots [99] false)] ∧
      ((batchMachine Proto.ExportTraceServiceRequest.encode true).restrict KeepsSpans).Run
        ⟨otlpInit [115] [104] true, []⟩ [.add (sampleSlots [97]) true, .add (sampleSlots [98]) false,
          .flush (sampleSlots [98]), .add (sampleSlots [99]) false] b := by
    refine ⟨_, rfl, .cons ⟨finished_sample, ?_⟩ rfl
      (.cons ⟨finished_sampleSlots (by simp [ShortStr]) false, ?_⟩ rfl
      (.cons ⟨trivial, ?_⟩ rfl
      (.cons ⟨finished_sampleSlots (by simp [ShortStr]) false, ?_⟩ rfl .nil)))⟩
    · rintro - e ⟨⟩
    · rintro ⟨⟩
    · rintro - e he
      rcases List.mem_pair.mp he with rfl | rfl
      · rfl
      · rfl
    · rintro ⟨⟩
  obtain ⟨b, hentries, h⟩ := hrun
  refine ⟨b, hentries, ?_⟩
  obtain ⟨hfit, -⟩ := batchRun_request_size _ true (fun _ => rfl) (otlpInit [115] [104] true) rfl rfl
    rfl (by decide) (by decide) rfl _ b h
  refine (hfit (sampleSlots [99]) ?_).2.1
  rw [hentries]
  intro e he
  rw [List.mem_singleton.mp he]

/-! ## Slots that are used again -/

/-- The keys of a span's attributes are strings below its cursor. -/
theorem key_arena {L : Layout} (h : Represents s L) {a : Nat} (ha : a ∈ attrList.offs L.attrs) :
    ∃ off < s.arenaUsed, otelAttrKey s a = .arena off := by
  obtain ⟨n, hn, rfl⟩ := List.mem_map.mp ha
  obtain ⟨nx, hcell⟩ := Linked.cell_mem_cells (K := attrList) hn otelNil
  have hkey : strCell n.key ∈ attrList.rest n := List.mem_cons_self ..
  obtain ⟨-, hoff, -⟩ := h.sat.holds (attrCell n nx)
    (by simp [Layout.cells, show attrCell n nx ∈ _ from hcell])
  have hbelow := h.sat.below (strCell n.key)
    (by simp [Layout.cells, Linked.rest_mem_cells (K := attrList) hn hkey otelNil])
  have hle := h.used_le
  simp only [strCell] at hbelow
  simp only [otelSpanArena] at hle
  have hne : n.key.off ≠ otelNil := by
    simp only [otelNil]
    omega
  refine ⟨n.key.off, by omega, ?_⟩
  rw [otelAttrKey, OtelSpan.get, show getField s.arena (attrList.off n) OtelAttr.key = _ from hoff,
    otelSpanStrv, if_neg hne]

/-- There is a NUL at most in the last byte of the arena. -/
def NameFills (s : OtelSpan) : Prop := ∀ i < otelSpanArena - 1, s.arena i ≠ 0

theorem Represents.nameFills {L : Layout} {n : StrNode} (h : Represents s L) (hn : L.name = some n)
    (hlen : n.bytes.length + 1 = otelSpanArena) (hnul : (0 : UInt8) ∉ n.bytes) : NameFills s := by
  have hmem : strCell n ∈ L.cells := by simp [Layout.cells, hn, optCells]
  have hread : readBytes s.arena n.off (n.bytes.length + 1) = n.bytes ++ [0] := h.sat.holds _ hmem
  have hbelow := h.sat.below _ hmem
  have hle := h.used_le
  simp only [strCell] at hbelow
  have hoff : n.off = 0 := by omega
  intro i hi hzero
  refine hnul ?_
  have hget := getElem?_readBytes s.arena n.off (n.bytes.length + 1) (j := i) (by omega)
  rw [hread, hoff, Nat.zero_add, hzero, List.getElem?_append_left (by omega)] at hget
  exact List.mem_of_getElem? hget

/-- A pointer into an arena that a name fills points to the rest of the name. -/
theorem NameFills.le_length {off : Nat} (h : NameFills s) (hoff : off ≤ otelSpanArena - 1) :
    otelSpanArena - 1 - off ≤ ((ArenaStr.arena off).bytes s).length := by
  refine le_length_cstr (fun i hi => h (off + i) ?_) ?_
  · simp only [otelSpanArena] at hi hoff ⊢
    omega
  · omega

/-- The message of a span is at least as long as its keys are when it is packed. -/
theorem SpanStored.keys_le_size {i k : Nat} {attrs : List Nat} {events : List (Nat × List Nat)}
    (h : SpanStored o i p s attrs events)
    (hkeys : ∀ a ∈ attrs, k ≤ (((otelAttrKey s a).ptr p).bytes mem).length) :
    k * attrs.length ≤ size (otlpSpanMessage mem o i).fields := by
  have hattrs : (otlpSpanMessage mem o i).attributes =
      (attrs.map (otlpKv s p)).map (OtlpKv.message mem) := by
    rw [otlpSpanMessage, h.object]
    simp only [otlpSpan, h.attrs]
  have hmessages := le_size_messages k 9
    ((otlpSpanMessage mem o i).attributes.map fun a => encode a.fields) (by
      intro b hb
      rw [hattrs] at hb
      simp only [List.map_map, List.mem_map, Function.comp_apply] at hb
      obtain ⟨a, ha, rfl⟩ := hb
      have hkey := le_size_scalarBytes 1 ((otlpKv s p a).message mem).key
      have hle : k ≤ ((otlpKv s p a).message mem).key.length := hkeys a ha
      rw [← size]
      simp only [Proto.KeyValue.fields, size_append]
      omega)
  have hlen : (otlpSpanMessage mem o i).attributes.length = attrs.length := by simp [hattrs]
  rw [List.length_map, hlen] at hmessages
  simp only [Proto.Span.fields, size_append]
  omega

theorem spans_le_size {k : Nat} (h : ∀ i < o.nSpans, k ≤ size (otlpSpanMessage mem o i).fields) :
    k * o.nSpans ≤ size (otlpRequest mem o).fields := by
  have hmessages := le_size_messages k 2
    (((List.range o.nSpans).map (otlpSpanMessage mem o)).map fun s => encode s.fields) (by
      intro b hb
      simp only [List.map_map, List.mem_map, List.mem_range, Function.comp_apply] at hb
      obtain ⟨i, hi, rfl⟩ := hb
      exact h i hi)
  simp only [List.length_map, List.length_range] at hmessages
  have hscope : k * o.nSpans ≤ size (Proto.ScopeSpans.fields
      { scope := { name := o.service, version := ascii "0.1.0" }
        spans := (List.range o.nSpans).map (otlpSpanMessage mem o) }) := by
    simp only [Proto.ScopeSpans.fields, size_append]
    omega
  have hscopes := le_size_message 2 (Proto.ScopeSpans.fields
    { scope := { name := o.service, version := ascii "0.1.0" }
      spans := (List.range o.nSpans).map (otlpSpanMessage mem o) })
  have hresource : k * o.nSpans ≤ size (Proto.ResourceSpans.fields
      { resource := { attributes := [
          { key := ascii "service.name", value := .stringValue o.service },
          { key := ascii "host.name", value := .stringValue o.hostname }] }
        scopeSpans := [{
          scope := { name := o.service, version := ascii "0.1.0" }
          spans := (List.range o.nSpans).map (otlpSpanMessage mem o) }] }) := by
    simp only [Proto.ResourceSpans.fields, List.map_cons, List.map_nil, size_append]
    omega
  exact hresource.trans (le_size_message 1 _)

/-- The span `s`, which has no events, is added from `n` slots. -/
theorem adds_ok {attrs : List Nat} {o : OtelOtlp Nat}
    (pack : Proto.ExportTraceServiceRequest → Bytes) (transport : Bool) (hv : Visits s attrs [])
    (hs : o.nSpans = 0) (ha : o.numAttrs = 0) (he : o.numEvents = 0) {n : Nat}
    (hn : n ≤ otelBatchSpans) (hattrs : n * attrs.length ≤ otelBatchAttrs) :
    ∃ o', batchRun pack transport o ((List.range n).map (BatchOp.add fun _ => s)) = .ok o' ∧
      Batch o' ((List.range n).map fun i => (i, s)) ∧ o'.numAttrs = n * attrs.length ∧
      o'.numEvents = 0 ∧ o'.buf = o.buf ∧ o'.bufSize = o.bufSize := by
  induction n with
  | zero => exact ⟨o, rfl, Batch.nil hs ha he, by rw [ha, Nat.zero_mul], he, rfl, rfl⟩
  | succ n ih =>
    rw [Nat.succ_mul] at hattrs
    obtain ⟨o₁, hrun, hb, hna, hne, hbuf, hsize⟩ := ih (by omega) (by omega)
    have hcount : o₁.nSpans = n := by rw [hb.nSpans, List.length_map, List.length_range]
    have hfull : otlpFull s o₁ = .ok false := by
      rw [full_eq hv, hcount, hna, hne]
      simp only [eventAttrs, List.flatMap_nil, List.length_nil, Nat.add_zero,
        Except.ok.injEq, Bool.or_eq_false_iff, decide_eq_false_iff_not]
      refine ⟨⟨?_, ?_⟩, ?_⟩
      · omega
      · omega
      · exact Nat.not_lt_zero _
    obtain ⟨o', hfill, hb', -, hna', hne', -, -, hbuf', hsize'⟩ :=
      @Batch.fill _ (fun _ => s) n o₁ _ _ _ hb hv hfull
    have hadd : batchStep pack transport o₁ (.add (fun _ => s) n) = .ok o' := by
      rw [batchStep, otlpAddSpan, hfull]
      show ((otlpFill (fun _ => s) o₁ n >>= fun o => pure (o, [])).map Prod.fst) = _
      rw [hfill]
      rfl
    refine ⟨o', ?_, ?_, ?_, ?_, hbuf'.trans hbuf, hsize'.trans hsize⟩
    · rw [List.range_succ, List.map_append, batchRun, List.foldlM_append]
      show (batchRun pack transport o _ >>= fun o => _) = _
      rw [hrun]
      show (batchStep pack transport o₁ (.add (fun _ => s) n) >>= fun o => pure o) = _
      rw [hadd]
      rfl
    · rw [List.range_succ, List.map_append]
      exact hb'
    · rw [hna', hna, Nat.succ_mul]
      rfl
    · rw [hne', hne]
      rfl

theorem represents_calls {name : Bytes} {cs : List Call} (now : UInt64)
    (hname : ShortStr (some name)) (hcs : ∀ c ∈ cs, c.Short) :
    ∃ L, Represents (stampEnd ((sampleSession name).calls cs).span now) L ∧
      L.view ((sampleSession name).calls cs).span = (SpanView.start (some name)).calls cs := by
  have hrec : otelSpanRecording
      (StartCall.root.run ⟨true, true, 0, 7⟩ (some ⟨1, 0⟩) zeroSpan (some name) 1).2 = true :=
    sampleSession_recording hname
  obtain ⟨L, hL, hview⟩ := session_spec hrec hname hcs
  exact ⟨L, { hL.repr with }, hview⟩

/-- A span with eight attributes. -/
def keysSpan : OtelSpan :=
  stampEnd ((sampleSession [97]).calls (List.replicate 8 (.attr (some [107]) (.i64 0)))).span 9

def longName : Bytes := List.replicate 4023 97

/-- A span whose name fills the arena. -/
def nameSpan : OtelSpan := stampEnd ((sampleSession longName).calls []).span 9

theorem length_longName : longName.length = 4023 := List.length_replicate

theorem short_longName : ShortStr (some longName) := by
  rintro b ⟨⟩
  rw [length_longName]
  decide

theorem zero_not_mem_longName : (0 : UInt8) ∉ longName := by
  intro h
  exact absurd (List.eq_of_mem_replicate h) (by decide)

theorem short_key : ShortStr (some [97]) := by simp [ShortStr]

theorem short_keys : ∀ c ∈ List.replicate 8 (Call.attr (some [107]) (.i64 0)), c.Short := by
  intro c hc
  rw [List.eq_of_mem_replicate hc]
  simp [Call.Short, ShortStr, AttrArg.Short]

theorem keysSpan_represents : ∃ L, Represents keysSpan L ∧ L.attrs.length = 8 ∧ L.events = [] ∧
    keysSpan.arenaUsed = 200 := by
  obtain ⟨L, h, hview⟩ := represents_calls 9 short_key short_keys
  refine ⟨L, h, ?_, ?_, ?_⟩
  · have hattrs := congrArg (fun v => v.attrs.length) hview
    rwa [Layout.view, List.length_map] at hattrs
  · have hevents := congrArg SpanView.events hview
    exact List.map_eq_nil_iff.mp hevents
  · exact congrArg SpanView.used hview

theorem nameSpan_fills : NameFills nameSpan := by
  obtain ⟨L, h, hview⟩ := represents_calls 9 short_longName (List.forall_mem_nil _)
  have hstart : (SpanView.start (some longName)).name = longName := by
    have hcut : longName.takeWhile (· ≠ 0) = longName := cutStr_of_nulFree zero_not_mem_longName
    have hfit : chargeBytes 0 longName = (4024, some longName) := by
      rw [chargeBytes, length_longName]
      rfl
    simp only [SpanView.start, chargeStr, hcut, hfit, Option.getD_some]
  have hname : strBytes L.name = longName := (congrArg SpanView.name hview).trans hstart
  have hlen := length_longName
  cases hn : L.name with
  | none =>
    rw [← hname, hn] at hlen
    cases hlen
  | some n =>
    have hbytes : n.bytes = longName := by
      rw [hn] at hname
      exact hname
    refine h.nameFills hn ?_ ?_
    · rw [hbytes, hlen]
      rfl
    · rw [hbytes]
      exact zero_not_mem_longName

/-- Eighty spans with eight attributes each are added; before they are packed, their slots are used again
for spans whose name fills the arena. -/
theorem batchRun_overflows : (Finished keysSpan ∧ Finished nameSpan) ∧
    ∃ o : OtelOtlp Nat,
      batchRun Proto.ExportTraceServiceRequest.encode true (otlpInit [] [] true)
        ((List.range 80).map (BatchOp.add fun _ => keysSpan)) = .ok o ∧
      o.bufSize < sizeofGrpcHdr + (otlpRequest (fun _ => nameSpan) o).encode.length ∧
      otlpFlush Proto.ExportTraceServiceRequest.encode true (fun _ => nameSpan) o =
        .error .bufferOverflow := by
  obtain ⟨L, hL, hattrs, hevents, hused⟩ := keysSpan_represents
  have hv := hL.visits
  rw [eventRecords, hevents, List.map_nil] at hv
  have hlen : (attrList.offs L.attrs).length = 8 := by rw [Linked.offs, List.length_map, hattrs]
  obtain ⟨o, hrun, hb, -, -, hbuf, hsize⟩ := adds_ok Proto.ExportTraceServiceRequest.encode true hv
    (o := otlpInit [] [] true) (n := 80) rfl rfl rfl (by decide) (by rw [hlen]; decide)
  have hcount : o.nSpans = 80 := by rw [hb.nSpans, List.length_map, List.length_range]
  have hspans : ∀ i < o.nSpans, 3823 * 8 ≤ size (otlpSpanMessage (fun _ => nameSpan) o i).fields := by
    intro i hi
    rw [hcount] at hi
    obtain ⟨attrs, events, hvis, hstored⟩ := hb.stored i (by simpa using hi)
    simp only [List.getElem_map] at hvis hstored
    -- the stored records are those of the span that was added
    obtain rfl : attrs = attrList.offs L.attrs :=
      Option.some.inj (hvis.walk_attrs.symm.trans hv.walk_attrs)
    rw [← hlen]
    refine hstored.keys_le_size fun a ha => ?_
    obtain ⟨off, hlt, hkey⟩ := key_arena hL ha
    have hrest := nameSpan_fills.le_length (show off ≤ _ by simp only [otelSpanArena]; omega)
    rw [hkey]
    show 3823 ≤ ((ArenaStr.arena off).bytes nameSpan).length
    simp only [otelSpanArena] at hrest
    omega
  have hrequest := spans_le_size hspans
  rw [hcount] at hrequest
  have hover : o.bufSize < sizeofGrpcHdr + (otlpRequest (fun _ => nameSpan) o).encode.length := by
    rw [hsize, Proto.ExportTraceServiceRequest.encode, ← size]
    simp only [otlpInit, sizeofGrpcHdr, otelBatchSpans, otelSpanSerialization]
    omega
  refine ⟨⟨finished_calls 9 short_key short_keys,
    finished_calls 9 short_longName (List.forall_mem_nil _)⟩, o, hrun, hover, ?_⟩
  have hbuf' : o.buf = true := hbuf
  rw [otlpFlush, if_neg (by rw [hcount]; decide), hbuf']
  exact if_pos hover

end OtelTracing
