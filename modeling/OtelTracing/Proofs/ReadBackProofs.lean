import OtelTracing.Proofs.SessionProofs

/-!
# Proofs: reading a span back

The accessors walk the lists of a laid-out span from one record to the next, and every string they
return is the stored one up to its first NUL.
-/

namespace OtelTracing

open ByteMem Cells

variable {s : OtelSpan} {L : Layout} {cs : List Cell}

theorem recordAt_nil : recordAt otelNil = none := rfl

theorem recordAt_of_ne {off : Nat} (h : off ≠ otelNil) : recordAt off = some off := if_neg h

theorem ofCode_code (t : OtelAttrType) : OtelAttrType.ofCode t.code = some t := by
  cases t <;> rfl

/-! ## Strings -/

/-- A stored string is read up to its first NUL; the null offset is read as the empty string. -/
theorem strv_bytes (h : Sat 8 s.arenaUsed cs s.arena) (hu : Cursor s.arenaUsed)
    {n : Option StrNode} (hn : ∀ c ∈ optCells n, c ∈ cs) :
    (otelSpanStrv (strOff n)).bytes s = cutStr (strBytes n) := by
  cases n with
  | none => rfl
  | some n =>
    have hmem : strCell n ∈ cs := hn _ (by simp [optCells])
    have hb := h.below _ hmem
    have hle := hu.le
    simp only [strCell] at hb
    have hne : n.off ≠ otelNil := by
      simp only [otelSpanArena] at hle
      simp only [otelNil]
      omega
    rw [strOff, otelSpanStrv, if_neg hne]
    have hread : readBytes s.arena n.off (n.bytes.length + 1) = n.bytes ++ [0] := h.holds _ hmem
    have hcut : cstr s.arena n.off (otelSpanArena - n.off) = n.bytes.takeWhile (· ≠ 0) :=
      cstr_of_readBytes hread (by omega)
    exact hcut

/-! ## Attributes -/

/-- An attribute record of the span reads as the attribute it stands for. -/
theorem readAttr_eq (h : Sat 8 s.arenaUsed cs s.arena) (hu : Cursor s.arenaUsed) {a : AttrNode}
    {nx : Nat} (ha : attrCell a nx ∈ cs) (hkey : strCell a.key ∈ cs)
    (hval : ∀ c ∈ a.value.cells, c ∈ cs) : readAttr s a.off = a.view.cut := by
  obtain ⟨-, hk, hv⟩ := h.holds _ ha
  have hkeyval : (otelAttrKey s a.off).bytes s = cutStr a.key.bytes := by
    have := strv_bytes h hu (n := some a.key) (by simpa [optCells] using hkey)
    rw [otelAttrKey, OtelSpan.get, hk]
    exact this
  have hvalue : readValue s a.off = a.value.view.cut := by
    unfold readValue
    cases hav : a.value with
    | str v =>
      rw [hav] at hv hval
      obtain ⟨ht, hoff⟩ := hv
      rw [OtelSpan.get, ht, ofCode_code]
      simp only [otelAttrStrval, OtelSpan.get, hoff, strv_bytes h hu hval]
      rfl
    | i64 v =>
      rw [hav] at hv
      obtain ⟨ht, hnum⟩ := hv
      rw [OtelSpan.get, ht, ofCode_code]
      simp only [OtelSpan.get, hnum, UInt64.ofNat_toNat]
      rfl
    | u64 v =>
      rw [hav] at hv
      obtain ⟨ht, hnum⟩ := hv
      rw [OtelSpan.get, ht, ofCode_code]
      simp only [OtelSpan.get, hnum, UInt64.ofNat_toNat]
      rfl
    | bool v =>
      rw [hav] at hv
      obtain ⟨ht, hnum⟩ := hv
      rw [OtelSpan.get, ht, ofCode_code]
      simp only [OtelSpan.get, hnum]
      cases v <;> rfl
  rw [readAttr, hkeyval, hvalue]
  rfl

/-- The links of an attribute list of the span lead from each record to the next. -/
theorem attr_links {as : List AttrNode} (h : Sat 8 s.arenaUsed (attrList.cells as otelNil ++ cs)
    s.arena) (hu : Cursor s.arenaUsed) : Links (otelAttrNext s) (attrList.offs as) := by
  have hoff := attr_off_ne h hu
  refine Linked.links_of_holds (r := recordAt) (m := s.arena)
    (fun c hc => h.holds c (List.mem_append_left _ hc)) recordAt_nil
    (fun a ha => recordAt_of_ne (hoff a ha)) ?_
  intro a nx' hcell
  rw [otelAttrNext, OtelSpan.get]
  exact congrArg recordAt hcell.1

theorem attr_head {as : List AttrNode} (h : ∀ a ∈ as, attrList.off a ≠ otelNil) :
    recordAt (attrList.first as otelNil) = (attrList.offs as).head? := by
  cases as with
  | nil => rfl
  | cons a as => exact recordAt_of_ne (h a (by simp))

/-- Walking an attribute list of the span visits its records in order. -/
theorem walkAttrs_eq {as : List AttrNode} (h : Sat 8 s.arenaUsed (attrList.cells as otelNil ++ cs)
    s.arena) (hu : Cursor s.arenaUsed) :
    walkAttrs s (recordAt (attrList.first as otelNil)) = some (attrList.offs as) := by
  have hlen := length_attrs_le h hu
  rw [walkAttrs, attr_head (attr_off_ne h hu)]
  refine walk_links (attr_links h hu) ?_
  rw [Linked.offs, List.length_map]
  simp only [otelSpanArena]
  omega

theorem readAttrs_eq {as : List AttrNode} (h : Sat 8 s.arenaUsed (attrList.cells as otelNil ++ cs)
    s.arena) (hu : Cursor s.arenaUsed) :
    (attrList.offs as).map (readAttr s) = as.map fun a => a.view.cut := by
  rw [Linked.offs, List.map_map]
  refine List.map_congr_left fun a ha => ?_
  obtain ⟨nx, hcell⟩ := Linked.cell_mem_cells (K := attrList) ha otelNil
  have hrest : ∀ c ∈ strCell a.key :: a.value.cells, c ∈ attrList.cells as otelNil ++ cs :=
    fun c hc => List.mem_append_left _ (Linked.rest_mem_cells (K := attrList) ha hc otelNil)
  exact readAttr_eq h hu (List.mem_append_left _ hcell) (hrest _ (by simp))
    (fun c hc => hrest c (List.mem_cons_of_mem _ hc))

/-! ## Events -/

/-- The cells of an event's attribute list, brought to the front. -/
theorem Represents.event_attrs_first (h : Represents s L) {e : EventNode} (he : e ∈ L.events) :
    ∃ cs, Sat 8 s.arenaUsed (attrList.cells e.attrs otelNil ++ cs) s.arena := by
  obtain ⟨es, fs, hL⟩ := List.append_of_mem he
  have hsat := h.sat
  rw [show L = { L with events := es ++ e :: fs } by rw [← hL]] at hsat
  exact ⟨_, (hsat.perm (cells_perm_event L es fs e)).perm List.perm_middle.symm⟩

/-- An event record of the span reads as the event it stands for. -/
theorem readEvent_eq (h : Represents s L) {e : EventNode} (he : e ∈ L.events) :
    readEvent s e.off = some e.view.cut := by
  obtain ⟨cs', hattrs⟩ := h.event_attrs_first he
  obtain ⟨nx, hcell⟩ := Linked.cell_mem_cells (K := eventList) he otelNil
  have hsub : ∀ c ∈ eventList.cells L.events otelNil, c ∈ L.cells := by
    intro c hc
    simp [Layout.cells, hc]
  obtain ⟨-, hname, hhead, -, -, hdrop, htime⟩ := h.sat.holds _ (hsub _ hcell)
  have hnamebytes : (otelEventName s e.off).bytes s = cutStr (strBytes e.name) := by
    rw [otelEventName, OtelSpan.get, hname]
    refine strv_bytes h.sat h.cursor fun c hc => hsub c ?_
    exact Linked.rest_mem_cells (K := eventList) he (List.mem_append_left _ hc) otelNil
  have hwalk : walkAttrs s (otelEventAttrFirst s e.off) = some (attrList.offs e.attrs) := by
    rw [otelEventAttrFirst, OtelSpan.get, hhead]
    exact walkAttrs_eq hattrs h.cursor
  simp only [readEvent, hwalk, Option.bind_eq_bind, Option.bind_some, hnamebytes,
    readAttrs_eq hattrs h.cursor, OtelSpan.get, hdrop, htime, UInt64.ofNat_toNat]
  simp [EventNode.view, EventView.cut]

theorem event_links (h : Represents s L) : Links (otelEventNext s) (eventList.offs L.events) := by
  have hsat := h.events_first
  have hoff := event_off_ne hsat h.cursor
  refine Linked.links_of_holds (r := recordAt) (m := s.arena)
    (fun c hc => hsat.holds c (List.mem_append_left _ hc)) recordAt_nil
    (fun e he => recordAt_of_ne (hoff e he)) ?_
  intro e nx' hcell
  rw [otelEventNext, OtelSpan.get]
  exact congrArg recordAt hcell.1

theorem event_head (h : Represents s L) :
    otelEventFirst s = (eventList.offs L.events).head? := by
  have hoff := event_off_ne h.events_first h.cursor
  rw [otelEventFirst, h.eventHead]
  cases hev : L.events with
  | nil => rfl
  | cons e es => exact recordAt_of_ne (hoff e (by simp [hev]))

theorem walkEvents_eq (h : Represents s L) : walkEvents s = some (eventList.offs L.events) := by
  have hlen := length_events_le h.events_first h.cursor
  rw [walkEvents, event_head h]
  refine walk_links (event_links h) ?_
  rw [Linked.offs, List.length_map]
  simp only [otelSpanArena]
  omega

/-! ## The whole span -/

theorem mapM_some {α β γ : Type} {f : β → Option γ} {g : α → β} {k : α → γ} {l : List α}
    (h : ∀ a ∈ l, f (g a) = some (k a)) : (l.map g).mapM f = some (l.map k) := by
  induction l with
  | nil => rfl
  | cons a l ih =>
    have ha := h a (by simp)
    have hl := ih fun b hb => h b (List.mem_cons_of_mem _ hb)
    simp [List.mapM_cons, ha, hl]

/-- Reading a laid-out span back gives the value it stands for, every string up to its first
NUL. -/
theorem readSpan_eq (h : Represents s L) : readSpan s = some (L.view s).cut := by
  have hwalk : walkAttrs s (otelAttrFirst s) = some (attrList.offs L.attrs) := by
    rw [otelAttrFirst, h.attrHead]
    exact walkAttrs_eq h.attrs_first h.cursor
  have hevents : (eventList.offs L.events).mapM (readEvent s) =
      some (L.events.map fun e => e.view.cut) :=
    mapM_some fun e he => readEvent_eq h he
  have hname : (otelSpanName s).bytes s = cutStr (strBytes L.name) := by
    rw [otelSpanName, h.name]
    exact strv_bytes h.sat h.cursor fun c hc => by simp [Layout.cells, hc]
  have hmessage : (otelSpanStatusMessage s).bytes s = cutStr (strBytes L.message) := by
    rw [otelSpanStatusMessage, h.statusMessage]
    exact strv_bytes h.sat h.cursor fun c hc => by simp [Layout.cells, hc]
  simp only [readSpan, hwalk, walkEvents_eq h, hevents, Option.bind_eq_bind, Option.bind_some,
    hname, hmessage, readAttrs_eq h.attrs_first h.cursor]
  simp [Layout.view, SpanView.cut]

end OtelTracing
