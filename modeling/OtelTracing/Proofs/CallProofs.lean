import OtelTracing.Proofs.RecordProofs

/-!
# Proofs: annotation calls

Every annotation call on a laid-out span leaves a laid-out span, and the value the layout stands for
changes as in the reference behaviour.
-/

namespace OtelTracing

open ByteMem Cells

variable {s : OtelSpan} {L : Layout} {cs : List Cell} {used : Nat} {m : Mem}

theorem Represents.cursor (h : Represents s L) : Cursor s.arenaUsed := ⟨h.used_mod, h.used_le⟩

/-! ## Offsets and counters of a represented span -/

theorem off_lt_of_sat {c : Cell} (h : Sat 8 used cs m) (hu : Cursor used) (hc : c ∈ cs)
    (hsize : 0 < c.size) : c.off < otelSpanArena := by
  have hb := h.below c hc
  have hle := hu.le
  omega

/-- The offset of a record is not the null offset. -/
theorem attr_off_ne {as : List AttrNode} {nx : Nat} (h : Sat 8 used (attrList.cells as nx ++ cs) m)
    (hu : Cursor used) : ∀ a ∈ as, attrList.off a ≠ otelNil := by
  intro a ha
  obtain ⟨nx', hmem⟩ := Linked.cell_mem_cells (K := attrList) ha nx
  have hlt := off_lt_of_sat h hu (List.mem_append_left _ hmem) (by rw [attrList.cell_size]; decide)
  rw [attrList.cell_off] at hlt
  simp only [otelSpanArena] at hlt
  simp only [otelNil]
  omega

theorem event_off_ne {es : List EventNode} {nx : Nat}
    (h : Sat 8 used (eventList.cells es nx ++ cs) m) (hu : Cursor used) :
    ∀ e ∈ es, eventList.off e ≠ otelNil := by
  intro e he
  obtain ⟨nx', hmem⟩ := Linked.cell_mem_cells (K := eventList) he nx
  have hlt := off_lt_of_sat h hu (List.mem_append_left _ hmem) (by rw [eventList.cell_size]; decide)
  rw [eventList.cell_off] at hlt
  simp only [otelSpanArena] at hlt
  simp only [otelNil]
  omega

/-- At most 167 records fit, so that no counter of records wraps. -/
theorem length_attrs_le {as : List AttrNode} {nx : Nat}
    (h : Sat 8 used (attrList.cells as nx ++ cs) m) (hu : Cursor used) : as.length ≤ 167 := by
  have hcost := h.cost_le
  have hlen := le_cost_attrs as nx
  have hle := hu.le
  rw [cost_append] at hcost
  simp only [otelSpanArena] at hle
  omega

theorem length_events_le {es : List EventNode} {nx : Nat}
    (h : Sat 8 used (eventList.cells es nx ++ cs) m) (hu : Cursor used) : es.length ≤ 167 := by
  have hcost := h.cost_le
  have hlen := le_cost_events es nx
  have hle := hu.le
  rw [cost_append] at hcost
  simp only [otelSpanArena] at hle
  omega

/-! ## The layout's cells, one list brought to the front -/

theorem Represents.attrs_first (h : Represents s L) :
    Sat 8 s.arenaUsed (attrList.cells L.attrs otelNil ++ (optCells L.name ++ (optCells L.message ++
      eventList.cells L.events otelNil))) s.arena := by
  refine h.sat.of_count fun c => ?_
  simp only [Layout.cells, List.count_append]
  omega

theorem Represents.events_first (h : Represents s L) :
    Sat 8 s.arenaUsed (eventList.cells L.events otelNil ++ (optCells L.name ++
      (optCells L.message ++ attrList.cells L.attrs otelNil))) s.arena := by
  refine h.sat.of_count fun c => ?_
  simp only [Layout.cells, List.count_append]
  omega

/-- The tail offset of a list is null exactly if the list is empty. -/
theorem Represents.attrTail_eq_nil (h : Represents s L) : s.attrTail = otelNil ↔ L.attrs = [] := by
  rw [h.attrTail]
  constructor
  · intro htail
    by_contra hne
    exact Linked.last_ne hne (attr_off_ne h.attrs_first h.cursor) htail
  · intro hnil
    rw [hnil, Linked.last_nil]

theorem Represents.eventTail_eq_nil (h : Represents s L) :
    s.eventTail = otelNil ↔ L.events = [] := by
  rw [h.eventTail]
  constructor
  · intro htail
    by_contra hne
    exact Linked.last_ne hne (event_off_ne h.events_first h.cursor) htail
  · intro hnil
    rw [hnil, Linked.last_nil]

/-! ## Name and status -/

theorem setName_spec (h : Represents s L) (name : Option Bytes)
    (hname : ShortStr name) :
    ∃ L', Represents (otelSpanSetName s name) L' ∧ L'.events = L.events ∧
      L'.view (otelSpanSetName s name) = (L.view s).call (.setName name) := by
  obtain ⟨n, hn, hoff, ⟨m', hst⟩, hcur, hsat⟩ := put_spec h.cursor h.sat name hname
  unfold otelSpanSetName
  rw [h.recording]
  simp only [Bool.not_true, Bool.false_eq_true, if_false]
  cases n with
  | none =>
    -- the string did not fit, or there was none: the old name is kept
    have hnil : (otelArenaPut s name).2 = otelNil := hoff
    rw [if_neg (by simpa using hnil)]
    have hview : (chargeStr s.arenaUsed name).2 = none := hn.symm
    refine ⟨L, ?_, rfl, ?_⟩
    · rw [hst] at hcur hsat ⊢
      exact { h with used_mod := hcur.mod, used_le := hcur.le, sat := hsat }
    · rw [hst]
      simp [Layout.view, SpanView.call, hview]
  | some n =>
    have hne : (otelArenaPut s name).2 ≠ otelNil := by
      rw [hoff]
      have hlt := off_lt_of_sat hsat hcur (c := strCell n) (by simp [optCells]) (by simp [strCell])
      simp only [otelSpanArena, strCell] at hlt
      simp only [strOff, otelNil]
      omega
    rw [if_pos hne, hoff]
    have hview : (chargeStr s.arenaUsed name).2 = some n.bytes := hn.symm
    refine ⟨{ L with name := some n }, ?_, rfl, ?_⟩
    · rw [hst] at hcur hsat ⊢
      refine { h with used_mod := hcur.mod, used_le := hcur.le, sat := ?_, name := rfl }
      refine hsat.of_count fun c => ?_
      simp only [Layout.cells, List.count_append]
      omega
    · rw [hst]
      simp [Layout.view, SpanView.call, hview, strBytes]

theorem setStatus_spec (h : Represents s L) (status : UInt32) (message : Option Bytes)
    (hmessage : ShortStr message) :
    ∃ L', Represents (otelSpanSetStatus s status message) L' ∧ L'.events = L.events ∧
      L'.view (otelSpanSetStatus s status message) =
        (L.view s).call (.setStatus status message) := by
  obtain ⟨n, hn, hoff, ⟨m', hst⟩, hcur, hsat⟩ :=
    put_spec (s := { s with status := status.toUInt8 }) h.cursor h.sat message hmessage
  unfold otelSpanSetStatus
  rw [h.recording]
  simp only [Bool.not_true, Bool.false_eq_true, if_false]
  refine ⟨{ L with message := n }, ?_, rfl, ?_⟩
  · rw [hoff]
    rw [hst] at hcur hsat ⊢
    refine { h with used_mod := hcur.mod, used_le := hcur.le, sat := ?_, statusMessage := rfl }
    refine hsat.of_count fun c => ?_
    simp only [Layout.cells, List.count_append]
    omega
  · rw [hst]
    simp [Layout.view, SpanView.call, strBytes, ← hn]

/-! ## Span attributes -/

/-- Linking the last record of a possibly empty attribute list to the record at `new`. -/
theorem link_attrs {as : List AttrNode} {new : Nat}
    (h : Sat 8 used (attrList.cells as otelNil ++ cs) m) (hnew : new < 2 ^ 16) :
    Sat 8 used (attrList.cells as new ++ cs)
      (if as = [] then m else setField m (attrList.last as otelNil) OtelAttr.next new) := by
  by_cases has : as = []
  · rw [if_pos has]
    rw [has] at h ⊢
    exact h
  · rw [if_neg has]
    exact relink_attr h has hnew

/-- The new last record of a list, with its value filled in. -/
theorem snoc_value {as : List AttrNode} {a : AttrNode} {v : ValNode} (nx : Nat) :
    attrList.cells (as ++ [{ a with value := v }]) nx =
      attrList.cells as a.off ++ attrCell { a with value := v } nx :: strCell a.key :: v.cells :=
  Linked.cells_snoc ..

theorem spanAttr_spec (h : Represents s L) (key : Option Bytes) (arg : AttrArg)
    (hkey : ShortStr key) (harg : arg.Short) :
    ∃ L', Represents (otelSpanAttr s key arg) L' ∧ L'.events = L.events ∧
      L'.view (otelSpanAttr s key arg) = (L.view s).call (.attr key arg) := by
  unfold otelSpanAttr otelSpanAttr_
  rw [h.recording]
  simp only [Bool.not_true, Bool.false_eq_true, if_false]
  rcases allocAttr_spec h.cursor h.sat key hkey with
    ⟨u, hch, hrej, ⟨m', hst⟩, hcur, hsat⟩ | ⟨u, bytes, hch, hacc, hst, hcur, hsat⟩
  · -- rejected: the attribute is counted as dropped
    rw [if_pos hrej]
    refine ⟨L, ?_, rfl, ?_⟩
    · rw [hst] at hsat ⊢
      exact { h with used_mod := hcur.mod, used_le := hcur.le, sat := hsat }
    · rw [hst]
      simp only [Layout.view, SpanView.call, addAttr, hch]
      rfl
  · rw [if_neg hacc]
    set r := otelArenaAlloc (otelArenaPut s key).1 (UInt64.ofNat sizeofOtelAttr) with hr
    set k := otelArenaPut s key
    set a : AttrNode := ⟨r.2, ⟨k.2, bytes⟩, .str none⟩ with ha
    have hnew : r.2 < 2 ^ 16 := by
      have := off_lt_of_sat hsat hcur (c := attrCell a otelNil) (by simp) (Nat.zero_lt_succ 15)
      simp only [otelSpanArena, attrCell, ha] at this
      omega
    have hfirst : Sat 8 u (attrList.cells L.attrs otelNil ++ (attrCell a otelNil ::
        strCell ⟨k.2, bytes⟩ :: (optCells L.name ++ (optCells L.message ++
          eventList.cells L.events otelNil)))) (initAttr r.1 r.2 k.2).arena := by
      refine hsat.of_count fun c => ?_
      simp only [Layout.cells, List.count_append, List.count_cons]
      omega
    have hlink := link_attrs hfirst hnew
    have hlen := length_attrs_le hfirst hcur
    obtain ⟨m1, hst1⟩ := hst
    rw [hst1] at hlink ⊢
    -- the new record is linked behind the last one
    have hlinked : ∃ m2, (if s.attrTail = otelNil then
          { s with arenaUsed := u, arena := m1, attrHead := r.2 }
        else OtelSpan.set { s with arenaUsed := u, arena := m1 } s.attrTail OtelAttr.next r.2) =
          { s with
            arenaUsed := u
            attrHead := attrList.first (L.attrs ++ [a]) otelNil
            arena := m2 } ∧
        Sat 8 u (attrCell a otelNil :: (attrList.cells L.attrs r.2 ++ strCell ⟨k.2, bytes⟩ ::
          (optCells L.name ++ (optCells L.message ++ eventList.cells L.events otelNil)))) m2 := by
      refine ⟨_, ?_, hlink.perm List.perm_middle⟩
      by_cases hnil : L.attrs = []
      · rw [if_pos (h.attrTail_eq_nil.mpr hnil), if_pos hnil, hnil]
        rfl
      · have hfst : attrList.first (L.attrs ++ [a]) otelNil = s.attrHead := by
          rw [h.attrHead]
          exact Linked.first_snoc_of_ne_nil hnil ..
        rw [if_neg (fun he => hnil (h.attrTail_eq_nil.mp he)), if_neg hnil, OtelSpan.set,
          ← h.attrTail, hfst]
    obtain ⟨m2, hst2, hsat2⟩ := hlinked
    simp only [hst2]
    -- the value of the new record is filled in
    obtain ⟨v, hv, ⟨m3, hst3⟩, hcur3, hsat3⟩ := setAttrValue_spec (a := a)
      (s := { s with
        arenaUsed := u
        attrHead := attrList.first (L.attrs ++ [a]) otelNil
        attrTail := r.2
        numAttrs := (s.numAttrs + 1) % 2 ^ 16
        arena := m2 }) hcur hsat2 rfl arg harg
    rw [hst3] at hcur3 hsat3 ⊢
    refine ⟨{ L with attrs := L.attrs ++ [{ a with value := v }] }, ?_, rfl, ?_⟩
    · refine { h with used_mod := hcur3.mod, used_le := hcur3.le, sat := ?_, attrHead := ?_,
                      attrTail := ?_, numAttrs := ?_ }
      · refine hsat3.of_count fun c => ?_
        simp only [Layout.cells, snoc_value]
        simp only [List.count_append, List.count_cons, ha]
        omega
      · simp only [Linked.first_append]
        rfl
      · rw [Linked.last_snoc]
        rfl
      · show (s.numAttrs + 1) % 2 ^ 16 = _
        rw [h.numAttrs, List.length_append, List.length_singleton]
        omega
    · simp [Layout.view, SpanView.call, addAttr, hch, AttrNode.view, hv, ha]

/-! ## Events -/

/-- Linking the last record of a possibly empty event list to the record at `new`. -/
theorem link_events {es : List EventNode} {new : Nat}
    (h : Sat 8 used (eventList.cells es otelNil ++ cs) m) (hnew : new < 2 ^ 16) :
    Sat 8 used (eventList.cells es new ++ cs)
      (if es = [] then m else setField m (eventList.last es otelNil) OtelEvent.next new) := by
  by_cases hes : es = []
  · rw [if_pos hes]
    rw [hes] at h ⊢
    exact h
  · rw [if_neg hes]
    exact relink_event h hes hnew

theorem event_spec (h : Represents s L) (name : Option Bytes) (now : UInt64)
    (hname : ShortStr name) :
    ∃ L', Represents (otelSpanEvent s name now).1 L' ∧
      L'.events.map EventNode.off =
        L.events.map EventNode.off ++ (otelSpanEvent s name now).2.toList ∧
      L'.view (otelSpanEvent s name now).1 = (L.view s).call (.event name now) := by
  unfold otelSpanEvent otelSpanEvent_
  rw [h.recording]
  simp only [Bool.not_true, Bool.false_eq_true, if_false]
  rcases allocEvent_spec h.cursor h.sat name now hname with
    ⟨hch, hrej, ⟨m', hst⟩, hcur, hsat⟩ | ⟨u, node, hch, hacc, hnode, hst, hcur, hsat⟩
  · -- rejected: the event is counted as dropped
    rw [if_pos hrej]
    refine ⟨L, ?_, by simp, ?_⟩
    · rw [hst] at hsat ⊢
      exact { h with used_mod := hcur.mod, used_le := hcur.le, sat := hsat }
    · rw [hst]
      simp only [Layout.view, SpanView.call, hch]
      rfl
  · rw [if_neg hacc]
    set r := otelArenaAlloc (otelArenaPut s name).1 (UInt64.ofNat sizeofOtelEvent) with hr
    set n := otelArenaPut s name
    set e : EventNode := ⟨r.2, node, now, [], 0⟩ with he
    have hnew : r.2 < 2 ^ 16 := by
      have := off_lt_of_sat hsat hcur (c := eventCell e otelNil) (by simp) (Nat.zero_lt_succ 23)
      simp only [otelSpanArena, eventCell, he] at this
      omega
    have hfirst : Sat 8 u (eventList.cells L.events otelNil ++ (eventCell e otelNil ::
        (optCells node ++ (optCells L.name ++ (optCells L.message ++
          attrList.cells L.attrs otelNil))))) (initEvent r.1 r.2 n.2 now).arena := by
      refine hsat.of_count fun c => ?_
      simp only [Layout.cells, List.count_append, List.count_cons]
      omega
    have hlink := link_events hfirst hnew
    have hlen := length_events_le hfirst hcur
    obtain ⟨m1, hst1⟩ := hst
    rw [hst1] at hlink ⊢
    -- the new record is linked behind the last one
    have hlinked : ∃ m2, (if s.eventTail = otelNil then
          { s with arenaUsed := u, arena := m1, eventHead := r.2 }
        else OtelSpan.set { s with arenaUsed := u, arena := m1 } s.eventTail OtelEvent.next r.2) =
          { s with
            arenaUsed := u
            eventHead := eventList.first (L.events ++ [e]) otelNil
            arena := m2 } ∧
        Sat 8 u (eventList.cells L.events r.2 ++ (eventCell e otelNil :: (optCells node ++
          (optCells L.name ++ (optCells L.message ++ attrList.cells L.attrs otelNil))))) m2 := by
      refine ⟨_, ?_, hlink⟩
      by_cases hnil : L.events = []
      · rw [if_pos (h.eventTail_eq_nil.mpr hnil), if_pos hnil, hnil]
        rfl
      · have hfst : eventList.first (L.events ++ [e]) otelNil = s.eventHead := by
          rw [h.eventHead]
          exact Linked.first_snoc_of_ne_nil hnil ..
        rw [if_neg (fun he => hnil (h.eventTail_eq_nil.mp he)), if_neg hnil, OtelSpan.set,
          ← h.eventTail, hfst]
    obtain ⟨m2, hst2, hsat2⟩ := hlinked
    simp only [hst2]
    refine ⟨{ L with events := L.events ++ [e] }, ?_, by simp [he], ?_⟩
    · refine { h with used_mod := hcur.mod, used_le := hcur.le, sat := ?_, eventHead := rfl,
                      eventTail := ?_, numEvents := ?_ }
      · have hcells : eventList.cells (L.events ++ [e]) otelNil =
            eventList.cells L.events r.2 ++ eventCell e otelNil :: (optCells node ++ []) :=
          Linked.cells_snoc ..
        refine hsat2.of_count fun c => ?_
        simp only [Layout.cells, hcells, List.count_append, List.count_cons, List.count_nil]
        omega
      · rw [Linked.last_snoc]
        rfl
      · show (s.numEvents + 1) % 2 ^ 16 = _
        rw [h.numEvents, List.length_append, List.length_singleton]
        omega
    · simp only [Layout.view, SpanView.call, hch, ← hnode]
      simp [EventNode.view, strBytes, he]

/-! ## Event attributes -/

/-- The cells of a layout besides the record and the attributes of the event `e`, which stands
between the events `es` and `fs`. -/
def eventRest (L : Layout) (es fs : List EventNode) (e : EventNode) : List Cell :=
  optCells L.name ++ (optCells L.message ++ (attrList.cells L.attrs otelNil ++
    (eventList.cells es e.off ++ (optCells e.name ++ eventList.cells fs otelNil))))

/-- The cells of a layout with the event `e` brought to the front. -/
theorem cells_perm_event (L : Layout) (es fs : List EventNode) (e : EventNode) :
    ({ L with events := es ++ e :: fs } : Layout).cells.Perm
      (eventCell e (eventList.first fs otelNil) ::
        (attrList.cells e.attrs otelNil ++ eventRest L es fs e)) := by
  classical
  have hmid : eventList.cells (es ++ e :: fs) otelNil = eventList.cells es e.off ++
      eventCell e (eventList.first fs otelNil) ::
        ((optCells e.name ++ attrList.cells e.attrs otelNil) ++ eventList.cells fs otelNil) :=
    Linked.cells_middle ..
  rw [List.perm_iff_count]
  intro c
  simp only [Layout.cells, eventRest, hmid, List.count_append, List.count_cons]
  omega

/-- Setting the tail and the counter of an event record to a new last attribute, and the head if the
list was empty. -/
theorem eventCell_append {e : EventNode} {a : AttrNode} {nx : Nat}
    (h : (eventCell e nx).holds m) (ha : a.off < 2 ^ 16) (hlen : e.attrs.length ≤ 167) :
    (eventCell { e with attrs := e.attrs ++ [a] } nx).holds
      (setField (setField (if e.attrs = [] then setField m e.off OtelEvent.attrHead a.off else m)
        e.off OtelEvent.attrTail a.off) e.off OtelEvent.numAttrs (e.attrs.length + 1)) := by
  obtain ⟨h1, h2, h3, h4, h5, h6, h7⟩ := h
  have hoff : a.off % 256 ^ 2 = a.off := Nat.mod_eq_of_lt ha
  have hnum : (e.attrs.length + 1) % 256 ^ 1 = e.attrs.length + 1 := Nat.mod_eq_of_lt (by omega)
  by_cases hnil : e.attrs = []
  · rw [if_pos hnil]
    simp only [eventCell]
    simp (disch := decide) only [getField_setField_ne, getField_setField_self]
    refine ⟨h1, h2, ?_, ?_, ?_, h6, h7⟩
    · rw [hnil]
      exact hoff
    · rw [Linked.last_snoc]
      exact hoff
    · rw [List.length_append]
      exact hnum
  · rw [if_neg hnil]
    simp only [eventCell]
    simp (disch := decide) only [getField_setField_ne, getField_setField_self]
    refine ⟨h1, h2, ?_, ?_, ?_, h6, h7⟩
    · rw [Linked.first_snoc_of_ne_nil hnil]
      exact h3
    · rw [Linked.last_snoc]
      exact hoff
    · rw [List.length_append]
      exact hnum

theorem sat_appendAttr {e : EventNode} {a : AttrNode} {nx : Nat}
    (h : Sat 8 used (eventCell e nx :: cs) m) (ha : a.off < 2 ^ 16) (hlen : e.attrs.length ≤ 167) :
    Sat 8 used (eventCell { e with attrs := e.attrs ++ [a] } nx :: cs)
      (setField (setField (if e.attrs = [] then setField m e.off OtelEvent.attrHead a.off else m)
        e.off OtelEvent.attrTail a.off) e.off OtelEvent.numAttrs (e.attrs.length + 1)) := by
  have hcell := h.holds (eventCell e nx) List.mem_cons_self
  refine h.update rfl rfl (fun i hi => ?_) (eventCell_append hcell ha hlen)
  replace hi : i < e.off ∨ e.off + 24 ≤ i := hi
  rw [← setField_frame (k := 24) (by decide) hi, ← setField_frame (k := 24) (by decide) hi]
  split_ifs
  · exact setField_frame (k := 24) (by decide) hi
  · rfl

/-- Counting a dropped attribute in an event record. -/
theorem sat_bump {e : EventNode} {nx : Nat} (h : Sat 8 used (eventCell e nx :: cs) m) :
    Sat 8 used (eventCell { e with dropped := bump e.dropped } nx :: cs)
      (if e.dropped < 255 then setField m e.off OtelEvent.droppedAttrs (e.dropped + 1) else m) := by
  obtain ⟨h1, h2, h3, h4, h5, h6, h7⟩ := h.holds (eventCell e nx) List.mem_cons_self
  by_cases hlt : e.dropped < 255
  · have hmod : (e.dropped + 1) % 256 ^ 1 = bump e.dropped := by
      rw [bump, if_pos hlt]
      omega
    rw [if_pos hlt]
    refine h.update rfl rfl (fun i hi => setField_frame (k := 24) (by decide) hi) ?_
    simp only [eventCell]
    simp (disch := decide) only [getField_setField_ne, getField_setField_self]
    exact ⟨h1, h2, h3, h4, h5, hmod, h7⟩
  · have hb : bump e.dropped = e.dropped := if_neg hlt
    rw [if_neg hlt, hb]
    exact h

/-- Replacing the event `e` by an event `e'` with the same record and name. -/
theorem Represents.setEvent {es fs : List EventNode} {e e' : EventNode} {u : Nat} {m' : Mem}
    (h : Represents s L) (hL : L.events = es ++ e :: fs) (hoff : e'.off = e.off)
    (hname : e'.name = e.name) (hcur : Cursor u)
    (hsat : Sat 8 u (eventCell e' (eventList.first fs otelNil) ::
      (attrList.cells e'.attrs otelNil ++ eventRest L es fs e)) m') :
    Represents { s with arenaUsed := u, arena := m' } { L with events := es ++ e' :: fs } := by
  have hrest : eventRest L es fs e' = eventRest L es fs e := by
    simp only [eventRest, hoff, hname]
  have hoffs : eventList.offs (es ++ e' :: fs) = eventList.offs L.events := by
    have : eventList.off e' = eventList.off e := hoff
    simp [hL, Linked.offs, this]
  refine { h with used_mod := hcur.mod, used_le := hcur.le, sat := ?_, eventHead := ?_,
                  eventTail := ?_, numEvents := ?_ }
  · exact (hrest ▸ hsat).perm (cells_perm_event L es fs e').symm
  · rw [h.eventHead, Linked.first, Linked.first, hoffs]
  · rw [h.eventTail, Linked.last, Linked.last, hoffs]
  · rw [h.numEvents, hL]
    simp

theorem eventAttr_spec (h : Represents s L) {i : Nat} {e : EventNode} (hi : L.events[i]? = some e)
    (key : Option Bytes) (arg : AttrArg) (hkey : ShortStr key) (harg : arg.Short) :
    ∃ L', Represents (otelEventAttr s (some e.off) key arg) L' ∧
      L'.events.map EventNode.off = L.events.map EventNode.off ∧
      L'.view (otelEventAttr s (some e.off) key arg) = (L.view s).call (.eventAttr i key arg) := by
  obtain ⟨es, fs, rfl, hL⟩ : ∃ es fs, es.length = i ∧ L.events = es ++ e :: fs := by
    obtain ⟨hlt, hget⟩ := List.getElem?_eq_some_iff.mp hi
    refine ⟨L.events.take i, L.events.drop (i + 1), by simp; omega, ?_⟩
    rw [← hget, ← List.drop_eq_getElem_cons hlt, List.take_append_drop]
  have hLe : L = { L with events := es ++ e :: fs } := by rw [← hL]
  have hview : (L.view s).events[es.length]? = some e.view := by
    simp [Layout.view, hL]
  have hset : ∀ e' : EventNode, e'.off = e.off → (es ++ e' :: fs).map EventNode.off =
      L.events.map EventNode.off := by
    intro e' he'
    simp [hL, he']
  unfold otelEventAttr otelEventAttr_
  simp only
  rcases allocAttr_spec h.cursor h.sat key hkey with
    ⟨u, hch, hrej, ⟨m', hst⟩, hcur, hsat⟩ | ⟨u, bytes, hch, hacc, hst, hcur, hsat⟩
  · -- rejected: the event counts the attribute as dropped
    rw [if_pos hrej]
    rw [hst] at hsat ⊢
    rw [hLe] at hsat
    replace hsat := hsat.perm (cells_perm_event L es fs e)
    obtain ⟨h1, h2, h3, h4, h5, h6, h7⟩ := hsat.holds _ List.mem_cons_self
    have hdrop : OtelSpan.get { s with arenaUsed := u, arena := m' } e.off
        OtelEvent.droppedAttrs = e.dropped := h6
    have hcall : (L.view s).call (.eventAttr es.length key arg) =
        { L.view s with
          used := u
          events := (L.view s).events.set es.length { e.view with dropped := bump e.dropped } } := by
      simp only [SpanView.call, hview]
      simp only [Layout.view, addAttr, hch]
      rfl
    have hstate : (if OtelSpan.get { s with arenaUsed := u, arena := m' } e.off
          OtelEvent.droppedAttrs < 255 then
          OtelSpan.set { s with arenaUsed := u, arena := m' } e.off OtelEvent.droppedAttrs
            (OtelSpan.get { s with arenaUsed := u, arena := m' } e.off OtelEvent.droppedAttrs + 1)
        else { s with arenaUsed := u, arena := m' }) =
        { s with
          arenaUsed := u
          arena := if e.dropped < 255 then
              setField m' e.off OtelEvent.droppedAttrs (e.dropped + 1)
            else m' } := by
      rw [hdrop]
      split_ifs <;> rfl
    refine ⟨{ L with events := es ++ { e with dropped := bump e.dropped } :: fs }, ?_,
      hset _ rfl, ?_⟩
    · rw [hstate]
      exact h.setEvent hL rfl rfl hcur (sat_bump hsat)
    · rw [hcall, hstate]
      simp [Layout.view, hL, EventNode.view]
  · rw [if_neg hacc]
    set r := otelArenaAlloc (otelArenaPut s key).1 (UInt64.ofNat sizeofOtelAttr) with hr
    set k := otelArenaPut s key
    set a : AttrNode := ⟨r.2, ⟨k.2, bytes⟩, .str none⟩ with ha
    have hnew : r.2 < 2 ^ 16 := by
      have := off_lt_of_sat hsat hcur (c := attrCell a otelNil) (by simp) (Nat.zero_lt_succ 15)
      simp only [otelSpanArena, attrCell, ha] at this
      omega
    have hcall : ∀ v : ValNode, v.view = (chargeValue u arg).2 →
        (L.view s).call (.eventAttr es.length key arg) =
          { L.view s with
            used := (chargeValue u arg).1
            events := (L.view s).events.set es.length
              { e.view with attrs := e.view.attrs ++ [⟨bytes, v.view⟩] } } := by
      intro v hv
      simp only [SpanView.call, hview]
      simp only [Layout.view, addAttr, hch, hv]
    obtain ⟨m1, hst1⟩ := hst
    rw [hst1] at hsat ⊢
    rw [hLe] at hsat
    replace hsat := hsat.perm (((cells_perm_event L es fs e).cons _).cons _)
    -- the new record is linked behind the last one
    have hlink : Sat 8 u (attrList.cells e.attrs r.2 ++ (eventCell e (eventList.first fs otelNil) ::
        attrCell a otelNil :: strCell ⟨k.2, bytes⟩ :: eventRest L es fs e))
        (if e.attrs = [] then m1
          else setField m1 (attrList.last e.attrs otelNil) OtelAttr.next r.2) := by
      refine link_attrs (hsat.of_count fun c => ?_) hnew
      simp only [List.count_append, List.count_cons]
      omega
    have hlen := length_attrs_le hlink hcur
    have htail : OtelSpan.get { s with arenaUsed := u, arena := m1 } e.off OtelEvent.attrTail =
        attrList.last e.attrs otelNil := by
      have he := hsat.holds (eventCell e (eventList.first fs otelNil)) (by simp)
      exact he.2.2.2.1
    have hnil : attrList.last e.attrs otelNil = otelNil ↔ e.attrs = [] := by
      constructor
      · intro hlast
        by_contra hne
        exact Linked.last_ne hne (attr_off_ne hlink hcur) hlast
      · intro hnil
        rw [hnil, Linked.last_nil]
    set m2 := (if e.attrs = [] then m1
      else setField m1 (attrList.last e.attrs otelNil) OtelAttr.next r.2) with hm2
    have hcell := hlink.holds (eventCell e (eventList.first fs otelNil)) (by simp)
    set m3 := setField (if e.attrs = [] then setField m2 e.off OtelEvent.attrHead r.2 else m2)
      e.off OtelEvent.attrTail r.2 with hm3
    have hlinked : OtelSpan.set (if OtelSpan.get { s with arenaUsed := u, arena := m1 } e.off
          OtelEvent.attrTail = otelNil then
          OtelSpan.set { s with arenaUsed := u, arena := m1 } e.off OtelEvent.attrHead r.2
        else OtelSpan.set { s with arenaUsed := u, arena := m1 }
          (OtelSpan.get { s with arenaUsed := u, arena := m1 } e.off OtelEvent.attrTail)
          OtelAttr.next r.2) e.off OtelEvent.attrTail r.2 =
        { s with arenaUsed := u, arena := m3 } := by
      rw [htail]
      by_cases hemp : e.attrs = []
      · rw [if_pos (hnil.mpr hemp), hm3, if_pos hemp, hm2, if_pos hemp]
        rfl
      · rw [if_neg (fun he => hemp (hnil.mp he)), hm3, if_neg hemp, hm2, if_neg hemp]
        rfl
    have hnum : OtelSpan.get { s with arenaUsed := u, arena := m3 } e.off OtelEvent.numAttrs =
        e.attrs.length := by
      show getField m3 e.off OtelEvent.numAttrs = _
      rw [hm3, getField_setField_ne _ (by decide), ← hcell.2.2.2.2.1]
      split_ifs
      · exact getField_setField_ne _ (by decide)
      · rfl
    simp only [hlinked, hnum]
    -- the event's record, and then the value of the new record, are filled in
    have hsat3 : Sat 8 u (attrCell a otelNil :: (eventCell { e with attrs := e.attrs ++ [a] }
        (eventList.first fs otelNil) :: (attrList.cells e.attrs r.2 ++
          strCell ⟨k.2, bytes⟩ :: eventRest L es fs e)))
        (setField m3 e.off OtelEvent.numAttrs (e.attrs.length + 1)) := by
      have happ := sat_appendAttr (a := a) (hlink.perm List.perm_middle) hnew hlen
      refine happ.of_count fun c => ?_
      simp only [List.count_append, List.count_cons]
      omega
    obtain ⟨v, hv, ⟨m4, hst4⟩, hcur4, hsat4⟩ := setAttrValue_spec (a := a)
      (s := { s with
        arenaUsed := u
        arena := setField m3 e.off OtelEvent.numAttrs (e.attrs.length + 1) }) hcur hsat3 rfl arg harg
    have hfill : setAttrValue (OtelSpan.set { s with arenaUsed := u, arena := m3 } e.off
        OtelEvent.numAttrs (e.attrs.length + 1)) r.2 arg =
        { s with arenaUsed := (chargeValue u arg).1, arena := m4 } := hst4
    have hcur5 : Cursor (chargeValue u arg).1 := by
      rw [hst4] at hcur4
      exact hcur4
    rw [hst4] at hsat4
    refine ⟨{ L with events :=
      es ++ { e with attrs := e.attrs ++ [{ a with value := v }] } :: fs }, ?_, hset _ rfl, ?_⟩
    · rw [hfill]
      refine h.setEvent hL rfl rfl hcur5 (hsat4.of_count fun c => ?_)
      have hsame : eventCell { e with attrs := e.attrs ++ [{ a with value := v }] }
          (eventList.first fs otelNil) = eventCell { e with attrs := e.attrs ++ [a] }
          (eventList.first fs otelNil) := by
        simp only [eventCell, Linked.first_append, Linked.last_snoc, List.length_append]
        rfl
      rw [hsame]
      simp only [snoc_value]
      simp only [List.count_append, List.count_cons, ha]
      omega
    · rw [hfill, hcall v hv]
      simp [Layout.view, hL, EventNode.view, AttrNode.view, ha]

end OtelTracing
