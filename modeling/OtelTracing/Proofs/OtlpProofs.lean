import OtelTracing.Export
import OtelTracing.Proofs.ReadBackProofs

/-!
# Proofs: the OTLP batch

Adding a span takes exactly the slots that the flush decision has counted, and stores a description
of the span from which its message is read back, as long as the span itself is not overwritten. Spans
that are already in the batch are not touched.
-/

namespace OtelTracing

open ByteMem Slots

variable {P : Type} {mem : P → OtelSpan} {p : P} {o o' : OtelOtlp P} {s : OtelSpan}

theorem assign_ok {α : Type} {n i : Nat} (h : i < n) (xs : Nat → α) (x : α) :
    assign n xs i x = .ok (Function.update xs i x) := if_pos h

/-! ## Filling the pools -/

/-- Adding attributes fills the slots from the cursor on. -/
theorem addAttrs_ok (as : List Nat) (h : o.numAttrs + as.length ≤ otelBatchAttrs) :
    as.foldlM (otlpAddAttr mem p) o = .ok { o with
      attr := place o.attr o.numAttrs (as.map (otlpKv (mem p) p))
      numAttrs := o.numAttrs + as.length } := by
  induction as generalizing o with
  | nil =>
    simp only [List.map_nil, place_nil, List.length_nil, Nat.add_zero]
    rfl
  | cons a as ih =>
    rw [List.length_cons] at h
    have hadd : otlpAddAttr mem p o a = .ok { o with
        attr := Function.update o.attr o.numAttrs (otlpKv (mem p) p a)
        numAttrs := o.numAttrs + 1 } := by
      rw [otlpAddAttr, assign_ok (by omega)]
      rfl
    rw [List.foldlM_cons, hadd]
    show List.foldlM (otlpAddAttr mem p) _ as = _
    rw [ih (by simp only; omega)]
    simp only [place_update, List.map_cons, List.length_cons, Nat.add_assoc, Nat.add_comm 1]

/-- The event objects for the given events, whose attributes are stored from `start` on. -/
def eventObjects (s : OtelSpan) (p : P) : Nat → List (Nat × List Nat) → List (OtlpEvent P)
  | _, [] => []
  | start, e :: es =>
    otlpEvent s p e.1 start e.2.length :: eventObjects s p (start + e.2.length) es

@[simp] theorem length_eventObjects (start : Nat) (es : List (Nat × List Nat)) :
    (eventObjects s p start es).length = es.length := by
  induction es generalizing start with
  | nil => rfl
  | cons e es ih => simp [eventObjects, ih]

/-- The attribute records of all events. -/
def eventAttrs (es : List (Nat × List Nat)) : List Nat := es.flatMap Prod.snd

theorem length_eventAttrs (es : List (Nat × List Nat)) :
    (eventAttrs es).length = (es.map fun e => e.2.length).sum := by
  rw [eventAttrs, List.length_flatMap]

/-- Adding events fills the slots from both cursors on. -/
theorem addEvents_ok (es : List (Nat × List Nat))
    (hwalk : ∀ e ∈ es, walkAttrs (mem p) (otelEventAttrFirst (mem p) e.1) = some e.2)
    (hevents : o.numEvents + es.length ≤ otelBatchEvents)
    (hattrs : o.numAttrs + (eventAttrs es).length ≤ otelBatchAttrs) :
    (es.map Prod.fst).foldlM (otlpAddEvent mem p) o = .ok { o with
      attr := place o.attr o.numAttrs ((eventAttrs es).map (otlpKv (mem p) p))
      numAttrs := o.numAttrs + (eventAttrs es).length
      event := place o.event o.numEvents (eventObjects (mem p) p o.numAttrs es)
      numEvents := o.numEvents + es.length } := by
  induction es generalizing o with
  | nil =>
    simp only [eventAttrs, List.flatMap_nil, List.map_nil, place_nil, List.length_nil,
      Nat.add_zero, eventObjects]
    rfl
  | cons e es ih =>
    have hlen : (eventAttrs (e :: es)).length = e.2.length + (eventAttrs es).length := by
      simp [eventAttrs]
    rw [List.length_cons] at hevents
    have hadd : otlpAddEvent mem p o e.1 = .ok { o with
        attr := place o.attr o.numAttrs (e.2.map (otlpKv (mem p) p))
        numAttrs := o.numAttrs + e.2.length
        event := Function.update o.event o.numEvents
          (otlpEvent (mem p) p e.1 o.numAttrs e.2.length)
        numEvents := o.numEvents + 1 } := by
      rw [otlpAddEvent, hwalk e (by simp), visited]
      show (assign otelBatchEvents o.event o.numEvents _ >>= fun event => _) = _
      rw [assign_ok (by omega)]
      show (List.foldlM (otlpAddAttr mem p) _ e.2 >>= fun o => _) = _
      rw [addAttrs_ok e.2 (by simp only; omega)]
      rfl
    rw [List.map_cons, List.foldlM_cons, hadd]
    show List.foldlM (otlpAddEvent mem p) _ (es.map Prod.fst) = _
    rw [ih (fun e' he' => hwalk e' (List.mem_cons_of_mem _ he')) (by simp only; omega)
      (by simp only; omega)]
    have hplace := place_append o.attr o.numAttrs (e.2.map (otlpKv (mem p) p))
      ((eventAttrs es).map (otlpKv (mem p) p))
    rw [List.length_map, ← List.map_append] at hplace
    have happ : eventAttrs (e :: es) = e.2 ++ eventAttrs es := rfl
    simp only [place_update, eventObjects, hplace, happ, List.length_append, List.length_cons,
      Nat.add_assoc, Nat.add_comm 1]

/-- Adding a span that fits succeeds, and takes as many slots as the span has records. -/
theorem fill_ok {attrs : List Nat} {events : List (Nat × List Nat)}
    (hv : Visits (mem p) attrs events) (hspans : o.nSpans < otelBatchSpans)
    (hattrs : o.numAttrs + attrs.length + (eventAttrs events).length ≤ otelBatchAttrs)
    (hevents : o.numEvents + events.length ≤ otelBatchEvents) :
    otlpFill mem o p = .ok { o with
      nSpans := o.nSpans + 1
      spans := Function.update o.spans o.nSpans
        (otlpSpan (mem p) p o.numAttrs attrs.length o.numEvents events.length)
      status := Function.update o.status o.nSpans (otlpStatus (mem p) p)
      attr := place o.attr o.numAttrs ((attrs ++ eventAttrs events).map (otlpKv (mem p) p))
      numAttrs := o.numAttrs + attrs.length + (eventAttrs events).length
      event := place o.event o.numEvents
        (eventObjects (mem p) p (o.numAttrs + attrs.length) events)
      numEvents := o.numEvents + events.length } := by
  rw [otlpFill]
  simp only [hv.walk_attrs, hv.walk_events, visited, assign_ok hspans]
  show (List.foldlM (otlpAddAttr mem p) _ attrs >>= fun o => _) = _
  rw [addAttrs_ok attrs (by simp only; omega)]
  show (List.foldlM (otlpAddEvent mem p) _ (events.map Prod.fst) >>= fun o => _) = _
  rw [addEvents_ok events hv.walk_event_attrs (by simpa using hevents) (by simpa using hattrs)]
  have hplace := place_append o.attr o.numAttrs (attrs.map (otlpKv (mem p) p))
    ((eventAttrs events).map (otlpKv (mem p) p))
  rw [List.length_map, ← List.map_append] at hplace
  simp only [hplace, List.length_map]
  rfl

/-! ## What the batch stores of a span -/

/-- The event object `ev` describes the event record `e.1` with the attribute records `e.2`. -/
structure EventStored (o : OtelOtlp P) (s : OtelSpan) (p : P) (e : Nat × List Nat)
    (ev : OtlpEvent P) : Prop where
  object : ev = otlpEvent s p e.1 ev.attributes e.2.length
  attrs_le : ev.attributes + e.2.length ≤ o.numAttrs
  attrs : slice o.attr ev.attributes e.2.length = e.2.map (otlpKv s p)

/-- The `i`-th span object describes the span `s`, read at `p` when it was added, whose records are
`attrs` and `events`. -/
structure SpanStored (o : OtelOtlp P) (i : Nat) (p : P) (s : OtelSpan) (attrs : List Nat)
    (events : List (Nat × List Nat)) : Prop where
  object : o.spans i = otlpSpan s p (o.spans i).attributes attrs.length (o.spans i).events
    events.length
  status : o.status i = otlpStatus s p
  attrs_le : (o.spans i).attributes + attrs.length ≤ o.numAttrs
  attrs : slice o.attr (o.spans i).attributes attrs.length = attrs.map (otlpKv s p)
  events_le : (o.spans i).events + events.length ≤ o.numEvents
  events : List.Forall₂ (EventStored o s p) events
    (slice o.event (o.spans i).events events.length)

/-- The batches `o` and `o'` agree on the slots that `o` uses, and `o'` uses at least these. -/
structure Extends (o o' : OtelOtlp P) : Prop where
  numAttrs_le : o.numAttrs ≤ o'.numAttrs
  numEvents_le : o.numEvents ≤ o'.numEvents
  spans : ∀ i < o.nSpans, o'.spans i = o.spans i
  status : ∀ i < o.nSpans, o'.status i = o.status i
  attr : ∀ i < o.numAttrs, o'.attr i = o.attr i
  event : ∀ i < o.numEvents, o'.event i = o.event i

theorem EventStored.extend {e : Nat × List Nat} {ev : OtlpEvent P}
    (h : EventStored o s p e ev) (hext : Extends o o') : EventStored o' s p e ev where
  object := h.object
  attrs_le := h.attrs_le.trans hext.numAttrs_le
  attrs := by
    rw [← h.attrs]
    refine slice_congr ?_
    intro i _ hi
    have := h.attrs_le
    exact hext.attr i (by omega)

theorem SpanStored.extend {i : Nat} {attrs : List Nat} {events : List (Nat × List Nat)}
    (h : SpanStored o i p s attrs events) (hext : Extends o o') (hi : i < o.nSpans) :
    SpanStored o' i p s attrs events := by
  have hspan := hext.spans i hi
  refine
    { object := by rw [hspan]; exact h.object
      status := by rw [hext.status i hi]; exact h.status
      attrs_le := by rw [hspan]; exact h.attrs_le.trans hext.numAttrs_le
      attrs := ?_
      events_le := by rw [hspan]; exact h.events_le.trans hext.numEvents_le
      events := ?_ }
  · rw [hspan, ← h.attrs]
    refine slice_congr ?_
    intro j _ hj
    have := h.attrs_le
    exact hext.attr j (by omega)
  · have hslice : slice o'.event (o.spans i).events events.length =
        slice o.event (o.spans i).events events.length := by
      refine slice_congr ?_
      intro j _ hj
      have := h.events_le
      exact hext.event j (by omega)
    rw [hspan, hslice]
    exact h.events.imp fun _ _ hev => hev.extend hext

theorem eventObjects_stored {es : List (Nat × List Nat)} {start : Nat}
    (hle : start + (eventAttrs es).length ≤ o.numAttrs)
    (hslice : slice o.attr start (eventAttrs es).length = (eventAttrs es).map (otlpKv s p)) :
    List.Forall₂ (EventStored o s p) es (eventObjects s p start es) := by
  induction es generalizing start with
  | nil => exact List.Forall₂.nil
  | cons e es ih =>
    have happ : eventAttrs (e :: es) = e.2 ++ eventAttrs es := rfl
    rw [happ, List.length_append, slice_add, List.map_append] at hslice
    rw [happ, List.length_append] at hle
    obtain ⟨h1, h2⟩ := List.append_inj hslice (by simp)
    refine List.Forall₂.cons ?_ (ih (by omega) h2)
    exact { object := rfl, attrs_le := by simp only [otlpEvent]; omega, attrs := h1 }

/-- Adding a span that fits leaves the batch as it was and stores the span in the next object. -/
theorem fill_stored {attrs : List Nat} {events : List (Nat × List Nat)}
    (hv : Visits (mem p) attrs events) (hspans : o.nSpans < otelBatchSpans)
    (hattrs : o.numAttrs + attrs.length + (eventAttrs events).length ≤ otelBatchAttrs)
    (hevents : o.numEvents + events.length ≤ otelBatchEvents) :
    ∃ o', otlpFill mem o p = .ok o' ∧ o'.nSpans = o.nSpans + 1 ∧
      o'.numAttrs = o.numAttrs + attrs.length + (eventAttrs events).length ∧
      o'.numEvents = o.numEvents + events.length ∧ Extends o o' ∧
      o'.service = o.service ∧ o'.hostname = o.hostname ∧ o'.buf = o.buf ∧
      o'.bufSize = o.bufSize ∧ SpanStored o' o.nSpans p (mem p) attrs events := by
  refine ⟨_, fill_ok hv hspans hattrs hevents, rfl, rfl, rfl, ?_, rfl, rfl, rfl, rfl, ?_⟩
  · refine
      { numAttrs_le := by simp only; omega
        numEvents_le := Nat.le_add_right _ _
        spans := fun i hi => Function.update_of_ne (by omega) ..
        status := fun i hi => Function.update_of_ne (by omega) ..
        attr := fun i hi => place_of_lt _ _ hi
        event := fun i hi => place_of_lt _ _ hi }
  · have hmap : (attrs ++ eventAttrs events).map (otlpKv (mem p) p) =
        attrs.map (otlpKv (mem p) p) ++ (eventAttrs events).map (otlpKv (mem p) p) :=
      List.map_append
    refine
      { object := ?_
        status := Function.update_self ..
        attrs_le := ?_
        attrs := ?_
        events_le := ?_
        events := ?_ }
    · simp only [Function.update_self, otlpSpan]
    · simp only [Function.update_self, otlpSpan]
      omega
    · simp only [Function.update_self, otlpSpan, hmap]
      have := slice_place_left o.attr o.numAttrs (attrs.map (otlpKv (mem p) p))
        ((eventAttrs events).map (otlpKv (mem p) p))
      rwa [List.length_map] at this
    · simp only [Function.update_self, otlpSpan, Nat.le_refl]
    · simp only [Function.update_self, otlpSpan]
      have hself := slice_place_self o.event o.numEvents
        (eventObjects (mem p) p (o.numAttrs + attrs.length) events)
      rw [length_eventObjects] at hself
      rw [hself]
      refine eventObjects_stored (Nat.le_refl _) ?_
      have := slice_place_right o.attr o.numAttrs (attrs.map (otlpKv (mem p) p))
        ((eventAttrs events).map (otlpKv (mem p) p))
      rw [List.length_map, List.length_map] at this
      simp only [hmap]
      exact this

/-! ## The message that is packed -/

theorem ptr_bytes (x : ArenaStr) (mem : P → OtelSpan) (p : P) :
    (x.ptr p).bytes mem = x.bytes (mem p) := by
  cases x <;> rfl

theorem otlpKv_message (h : mem p = s) (a : Nat) :
    (otlpKv s p a).message mem = (readAttr s a).proto := by
  subst h
  simp only [OtlpKv.message, otlpKv, AttrView.proto, readAttr, ptr_bytes]
  congr 1
  unfold otlpAny readValue
  rcases OtelAttrType.ofCode ((mem p).get a OtelAttr.type) with _ | t
  · rfl
  · cases t with
    | str => simp only [OtlpAny.message, AttrValue.proto, ptr_bytes]
    | i64 => rfl
    | u64 => rfl
    | f64 => rfl
    | bool => rfl

/-- What an exporter reads of the event `e.1` with the attributes `e.2`. -/
def eventView (s : OtelSpan) (e : Nat × List Nat) : EventView where
  name := (otelEventName s e.1).bytes s
  time := UInt64.ofNat (s.get e.1 OtelEvent.timeUnixNs)
  attrs := e.2.map (readAttr s)
  dropped := s.get e.1 OtelEvent.droppedAttrs

/-- Reading the span, given the records that are visited. -/
theorem readSpan_of_visits {attrs : List Nat} {events : List (Nat × List Nat)}
    (h : Visits s attrs events) :
    readSpan s = some
      { used := s.arenaUsed
        name := (otelSpanName s).bytes s
        status := s.status
        message := (otelSpanStatusMessage s).bytes s
        attrs := attrs.map (readAttr s)
        events := events.map (eventView s)
        droppedAttrs := s.droppedAttrs
        droppedEvents := s.droppedEvents } := by
  have hevents : (events.map Prod.fst).mapM (readEvent s) =
      some (events.map (eventView s)) := by
    refine mapM_some ?_
    intro e he
    simp only [readEvent, h.walk_event_attrs e he, Option.bind_eq_bind, Option.bind_some]
    rfl
  simp only [readSpan, h.walk_attrs, h.walk_events, hevents, Option.bind_eq_bind,
    Option.bind_some]

theorem attrs_message (h : mem p = s) (as : List Nat) :
    (as.map (otlpKv s p)).map (OtlpKv.message mem) =
      (as.map (readAttr s)).map AttrView.proto := by
  rw [List.map_map, List.map_map]
  exact List.map_congr_left fun a _ => otlpKv_message h a

theorem event_message {e : Nat × List Nat} {ev : OtlpEvent P} (h : EventStored o s p e ev)
    (hmem : mem p = s) : ev.message mem o = (eventView s e).proto := by
  rw [OtlpEvent.message, h.object]
  simp only [otlpEvent, h.attrs, attrs_message hmem, ptr_bytes, hmem]
  rfl

theorem events_message {es : List (Nat × List Nat)} {evs : List (OtlpEvent P)}
    (h : List.Forall₂ (EventStored o s p) es evs) (hmem : mem p = s) :
    evs.map (OtlpEvent.message mem o) = (es.map (eventView s)).map EventView.proto := by
  induction h with
  | nil => rfl
  | cons hev _ ih => rw [List.map_cons, ih, event_message hev hmem, List.map_cons, List.map_cons]

theorem otlpKind_eq (kind : UInt8) : otlpKind kind = protoKind kind := by
  unfold otlpKind
  split_ifs with h1 h2 h3 h4
  · rw [h1]
    rfl
  · rw [h2]
    rfl
  · rw [h3]
    rfl
  · rw [h4]
    rfl
  · have hother : ∀ c : UInt8, kind ≠ c → kind.toNat + 1 ≠ c.toNat + 1 :=
      fun c hc h => hc (UInt8.toNat_inj.mp (Nat.succ.inj h))
    unfold protoKind Proto.SpanKind.ofCode
    split
    · exact absurd ‹_› (Nat.succ_ne_zero _)
    · rfl
    · exact absurd ‹_› (hother 1 h1)
    · exact absurd ‹_› (hother 2 h2)
    · exact absurd ‹_› (hother 3 h3)
    · exact absurd ‹_› (hother 4 h4)
    · rfl

theorem otlpStatusCode_eq (status : UInt8) : otlpStatusCode status = protoStatus status := by
  unfold otlpStatusCode
  split_ifs with h1 h2
  · rw [h1]
    rfl
  · rw [h2]
    rfl
  · have hother : ∀ c : UInt8, status ≠ c → status.toNat ≠ c.toNat :=
      fun c hc h => hc (UInt8.toNat_inj.mp h)
    unfold protoStatus Proto.StatusCode.ofCode
    split
    · rfl
    · exact absurd ‹_› (hother 1 h2)
    · exact absurd ‹_› (hother 2 h1)
    · rfl

/-- As long as the span is not overwritten, its object is packed into its exported form. -/
theorem SpanStored.message {i : Nat} {attrs : List Nat} {events : List (Nat × List Nat)}
    (h : SpanStored o i p s attrs events) (hv : Visits s attrs events) (hmem : mem p = s) :
    exported s = some (otlpSpanMessage mem o i) := by
  have htrace : (IdRef.traceId p).bytes mem = s.traceId.toList := by rw [IdRef.bytes, hmem]
  have hspan : (IdRef.spanId p).bytes mem = le 8 s.spanId.toNat := by rw [IdRef.bytes, hmem]
  have hparent : (if s.parentId ≠ 0 then IdRef.parentId p else IdRef.null).bytes mem =
      if s.parentId = 0 then [] else le 8 s.parentId.toNat := by
    by_cases hz : s.parentId = 0
    · rw [if_neg (by simpa using hz), if_pos hz]
      rfl
    · rw [if_pos hz, if_neg hz, IdRef.bytes, hmem]
  rw [exported, readSpan_of_visits hv, Option.map_some, otlpSpanMessage, h.object, h.status]
  simp only [otlpSpan, otlpStatus, h.attrs, attrs_message hmem, events_message h.events hmem,
    htrace, hspan, hparent, ptr_bytes, hmem, otlpKind_eq, otlpStatusCode_eq]
  rfl

end OtelTracing
