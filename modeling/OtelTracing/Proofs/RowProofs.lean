import OtelTracing.Rows
import OtelTracing.Proofs.BatchProofs

/-!
# Proofs: what the sink writes for a laid-out span

The sink walks the records of a laid-out span and writes the rows of the value that the span stands
for (`otelSqliteSpan_eq`); the encoder builds the message of that value (`Represents.encodes`).
-/

namespace OtelTracing

open ByteMem Cells

variable {s : OtelSpan} {L : Layout} {cs : List Cell} {service : Bytes}

/-! ## Rows -/

/-- An attribute record of the span is written as the attribute it stands for. -/
theorem attrRow_eq (h : Sat 8 s.arenaUsed cs s.arena) (hu : Cursor s.arenaUsed) {a : AttrNode}
    {nx : Nat} (ha : attrCell a nx ∈ cs) (hkey : strCell a.key ∈ cs)
    (hval : ∀ c ∈ a.value.cells, c ∈ cs) (owner origin : Nat) :
    attrRow owner origin s a.off = a.view.cut.row owner origin := by
  obtain ⟨-, -, hv⟩ := h.holds _ ha
  have hread := readAttr_eq h hu ha hkey hval
  have hkeys : (otelAttrKey s a.off).bytes s = a.view.cut.key := congrArg AttrView.key hread
  have hvalue : readValue s a.off = a.view.cut.value := congrArg AttrView.value hread
  unfold attrRow
  rw [hkeys, AttrView.row, ← hvalue, readValue]
  cases hav : a.value with
  | str v =>
    rw [hav] at hv
    have ht : s.get a.off OtelAttr.type = OtelAttrType.str.code := hv.1
    rw [ht, ofCode_code]
    rfl
  | i64 v =>
    rw [hav] at hv
    have ht : s.get a.off OtelAttr.type = OtelAttrType.i64.code := hv.1
    rw [ht, ofCode_code]
    rfl
  | u64 v =>
    rw [hav] at hv
    have ht : s.get a.off OtelAttr.type = OtelAttrType.u64.code := hv.1
    rw [ht, ofCode_code]
    rfl
  | bool v =>
    rw [hav] at hv
    have ht : s.get a.off OtelAttr.type = OtelAttrType.bool.code := hv.1
    rw [ht, ofCode_code]
    simp only [AttrValue.type, decide_eq_true_eq]

/-- Inserting the attributes of a list of the span. -/
theorem insertAttrs_eq {as : List AttrNode} (h : Sat 8 s.arenaUsed (attrList.cells as otelNil ++ cs)
    s.arena) (hu : Cursor s.arenaUsed) (table : AttrTable) (owner origin : Nat)
    (st : OtelSqlite) :
    (attrList.offs as).foldl (otelSqliteInsertAttr table owner origin s) st =
      (as.map fun a => a.view.cut).foldl (putAttr table owner origin) st := by
  rw [Linked.offs, List.foldl_map, List.foldl_map]
  refine List.foldl_ext _ _ st ?_
  intro st a ha
  obtain ⟨nx, hcell⟩ := Linked.cell_mem_cells (K := attrList) ha otelNil
  have hrest : ∀ c ∈ strCell a.key :: a.value.cells, c ∈ attrList.cells as otelNil ++ cs :=
    fun c hc => List.mem_append_left _ (Linked.rest_mem_cells (K := attrList) ha hc otelNil)
  have hrow := attrRow_eq h hu (List.mem_append_left _ hcell) (hrest _ (by simp))
    (fun c hc => hrest c (List.mem_cons_of_mem _ hc)) owner origin
  show (st.insert fun db => db.addAttr (attrRow owner origin s a.off) table).1 = _
  rw [hrow]
  rfl

/-- Inserting an event of the span with its attributes. -/
theorem insertEvent_eq (h : Represents s L) {e : EventNode} (he : e ∈ L.events)
    (spanOrigin : Nat) (st : OtelSqlite) :
    otelSqliteEvent s spanOrigin st e.off = .ok (putEvent spanOrigin st e.view.cut) := by
  obtain ⟨cs', hattrs⟩ := h.event_attrs_first he
  have hread := readEvent_eq h he
  have hwalk : walkAttrs s (otelEventAttrFirst s e.off) = some (attrList.offs e.attrs) :=
    h.visits.walk_event_attrs (e.off, attrList.offs e.attrs) (List.mem_map.mpr ⟨e, he, rfl⟩)
  have hrow : ∀ span id origin, eventRow span spanOrigin s e.off id origin =
      e.view.cut.row span spanOrigin id origin := by
    intro span id origin
    rw [readEvent, hwalk] at hread
    have hview : EventView.mk ((otelEventName s e.off).bytes s)
        (UInt64.ofNat (s.get e.off OtelEvent.timeUnixNs)) _ _ = e.view.cut := Option.some.inj hread
    have hname : (otelEventName s e.off).bytes s = e.view.cut.name := by rw [← hview]
    have htime : UInt64.ofNat (s.get e.off OtelEvent.timeUnixNs) = e.view.cut.time := by
      rw [← hview]
    rw [eventRow, hname, htime]
    rfl
  have hlist : e.view.cut.attrs = e.attrs.map fun a => a.view.cut := by
    simp [EventView.cut, EventNode.view]
  simp only [otelSqliteEvent, putEvent, hrow]
  generalize (st.insert fun db => _) = r
  cases hr : r.2 with
  | false => simp
  | true =>
    rw [hwalk, hlist]
    simp only [Bool.not_true, Bool.false_eq_true, if_false, if_true, visited]
    rw [← insertAttrs_eq hattrs h.cursor]
    rfl

theorem insertEvents_eq (h : Represents s L) {es : List EventNode} (hes : ∀ e ∈ es, e ∈ L.events)
    (spanOrigin : Nat) (st : OtelSqlite) :
    (eventList.offs es).foldlM (otelSqliteEvent s spanOrigin) st =
      .ok ((es.map fun e => e.view.cut).foldl (putEvent spanOrigin) st) := by
  induction es generalizing st with
  | nil => rfl
  | cons e es ih =>
    have hstep := insertEvent_eq h (hes e (by simp)) spanOrigin st
    have hrest := ih (fun e' he' => hes e' (List.mem_cons_of_mem _ he'))
      (putEvent spanOrigin st e.view.cut)
    rw [List.map_cons, List.foldl_cons, ← hrest]
    show (otelSqliteEvent s spanOrigin st e.off >>= _) = _
    rw [hstep]
    rfl

/-- The sink writes a laid-out span as the value that it stands for. -/
theorem otelSqliteSpan_eq (h : Represents s L) (st : OtelSqlite) :
    otelSqliteSpan service st s = .ok (putSpan service s (L.view s).cut st) := by
  have hread := readSpan_eq h
  have hwalk : walkAttrs s (otelAttrFirst s) = some (attrList.offs L.attrs) := by
    rw [otelAttrFirst, h.attrHead]
    exact walkAttrs_eq h.attrs_first h.cursor
  have hrow : ∀ id origin, spanRow service s id origin =
      (L.view s).cut.row service s id origin := by
    intro id origin
    rw [readSpan_of_visits h.visits] at hread
    have hview := Option.some.inj hread
    have hname : (otelSpanName s).bytes s = (L.view s).cut.name :=
      congrArg SpanView.name hview
    have hmessage : (otelSpanStatusMessage s).bytes s = (L.view s).cut.message :=
      congrArg SpanView.message hview
    rw [spanRow, hname, hmessage]
    rfl
  have hattrs : (L.view s).cut.attrs = L.attrs.map fun a => a.view.cut := by
    simp [SpanView.cut, Layout.view]
  have hevents : (L.view s).cut.events = L.events.map fun e => e.view.cut := by
    simp [SpanView.cut, Layout.view]
  cases hin : st.inTxn with
  | false => simp [otelSqliteSpan, putSpan, hin]
  | true =>
    simp only [otelSqliteSpan, putSpan, hin, hrow, Bool.not_true, Bool.false_eq_true, if_false,
      if_true]
    generalize (st.insert fun db => _) = r
    cases hr : r.2 with
    | false => simp
    | true =>
      simp only [Bool.not_true, Bool.false_eq_true, if_false, if_true, hwalk, walkEvents_eq h,
        visited, hattrs, hevents, ← insertAttrs_eq h.attrs_first h.cursor]
      exact insertEvents_eq h (fun _ he => he) _ _

/-! ## The message -/

/-- The encoder's message for a laid-out span is that of the value it stands for. -/
theorem Represents.encodes (h : Represents s L) : Encodes s (spanProto s (L.view s).cut) := by
  intro P mem p o hmem hle hfull
  have hv := h.visits
  rw [full_eq hv] at hfull
  simp only [Except.ok.injEq, Bool.or_eq_false_iff, decide_eq_false_iff_not] at hfull
  obtain ⟨⟨hns, hna⟩, hne⟩ := hfull
  rw [← hmem] at hv
  obtain ⟨o', hfill, -, -, -, -, -, -, -, -, hstored⟩ := fill_stored hv
    (Nat.lt_of_le_of_ne hle hns) (Nat.le_of_not_gt hna) (Nat.le_of_not_gt hne)
  refine ⟨o', hfill, ?_⟩
  intro mem' hmem'
  have hmessage := hstored.message hv (hmem'.trans hmem.symm)
  rw [hmem, exported, readSpan_eq h] at hmessage
  exact (Option.some.inj hmessage).symm

end OtelTracing
