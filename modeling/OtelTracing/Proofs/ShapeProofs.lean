import OtelTracing.Shape
import OtelTracing.Proofs.ReferenceProofs

/-!
# Proofs: the representation invariant of a span

A laid-out span has the shape that `SpanShape` describes.
-/

namespace OtelTracing

open ByteMem Cells

variable {s : OtelSpan} {L : Layout} {cs : List Cell}

/-! ## The blocks of a layout -/

/-- The range of a cell. -/
def block (c : Cell) : Block := ⟨c.off, c.size⟩

/-- The strings of an attribute. -/
def attrStrCells (a : AttrNode) : List Cell := strCell a.key :: a.value.cells

/-- The strings of a layout. -/
def strCells (L : Layout) : List Cell :=
  (optCells L.name ++ optCells L.message) ++ L.attrs.flatMap attrStrCells ++
    L.events.flatMap fun e => optCells e.name ++ e.attrs.flatMap attrStrCells

/-- The event records of a layout, each with its attribute records. -/
def eventRecords (L : Layout) : List (Nat × List Nat) :=
  L.events.map fun e => (e.off, attrList.offs e.attrs)

theorem attr_blocks_perm (as : List AttrNode) (nx : Nat) :
    ((attrList.cells as nx).map block).Perm
      ((attrList.offs as).map (⟨·, sizeofOtelAttr⟩) ++ (as.flatMap attrStrCells).map block) := by
  have h := Linked.map_cells_perm (K := attrList) (f := block) (g := fun a => ⟨a.off, sizeofOtelAttr⟩)
    (fun _ _ => rfl) as nx
  rw [Linked.offs, List.map_map, List.map_flatMap]
  exact h

/-- The blocks of the events: records and strings. -/
theorem event_blocks_perm (es : List EventNode) (nx : Nat) :
    ((eventList.cells es nx).map block).Perm
      ((es.flatMap fun e => ⟨e.off, sizeofOtelEvent⟩ ::
          (attrList.offs e.attrs).map (⟨·, sizeofOtelAttr⟩)) ++
        (es.flatMap fun e => optCells e.name ++ e.attrs.flatMap attrStrCells).map block) := by
  classical
  have h := Linked.map_cells_perm (K := eventList) (f := block)
    (g := fun e => ⟨e.off, sizeofOtelEvent⟩) (fun _ _ => rfl) es nx
  refine h.trans ?_
  clear h
  induction es with
  | nil => exact List.Perm.refl _
  | cons e es ih =>
    rw [List.perm_iff_count] at ih ⊢
    intro b
    have hb := ih b
    have ha := (List.perm_iff_count.mp (attr_blocks_perm e.attrs otelNil)) b
    simp only [List.map_cons, List.flatMap_cons, List.map_append, List.count_append,
      List.count_cons, eventList] at hb ha ⊢
    omega

/-- The cells of a layout are its strings and its records. -/
theorem blocks_perm (L : Layout) :
    (L.cells.map block).Perm
      ((strCells L).map block ++ recordBlocks (attrList.offs L.attrs) (eventRecords L)) := by
  classical
  rw [List.perm_iff_count]
  intro b
  have ha := (List.perm_iff_count.mp (attr_blocks_perm L.attrs otelNil)) b
  have he := (List.perm_iff_count.mp (event_blocks_perm L.events otelNil)) b
  simp only [Layout.cells, strCells, recordBlocks, eventRecords, List.flatMap_map, List.map_append,
    List.count_append] at ha he ⊢
  omega

/-! ## Strings -/

theorem mem_optCells {n : Option StrNode} {c : Cell} (h : c ∈ optCells n) : ∃ k, c = strCell k := by
  cases n with
  | none => simp [optCells] at h
  | some k => exact ⟨k, by simpa [optCells] using h⟩

theorem mem_attrStrCells {a : AttrNode} {c : Cell} (h : c ∈ attrStrCells a) :
    ∃ k, c = strCell k := by
  rcases List.mem_cons.mp h with rfl | h
  · exact ⟨a.key, rfl⟩
  · cases hv : a.value with
    | str v => exact mem_optCells (by simpa [ValNode.cells, hv] using h)
    | i64 v => simp [ValNode.cells, hv] at h
    | u64 v => simp [ValNode.cells, hv] at h
    | bool v => simp [ValNode.cells, hv] at h

theorem mem_strCells {c : Cell} (h : c ∈ strCells L) : ∃ k, c = strCell k := by
  simp only [strCells, List.mem_append, List.mem_flatMap] at h
  rcases h with ((h | h) | ⟨a, -, h⟩) | ⟨e, -, h | ⟨a, -, h⟩⟩
  · exact mem_optCells h
  · exact mem_optCells h
  · exact mem_attrStrCells h
  · exact mem_optCells h
  · exact mem_attrStrCells h

theorem attrStrCells_subset {as : List AttrNode} {c : Cell} (h : c ∈ as.flatMap attrStrCells)
    (nx : Nat) : c ∈ attrList.cells as nx := by
  obtain ⟨a, ha, hc⟩ := List.mem_flatMap.mp h
  exact Linked.rest_mem_cells (K := attrList) ha hc nx

theorem strCells_subset {c : Cell} (h : c ∈ strCells L) : c ∈ L.cells := by
  simp only [strCells, List.mem_append, List.mem_flatMap] at h
  simp only [Layout.cells, List.mem_append]
  rcases h with ((h | h) | ⟨a, ha, h⟩) | ⟨e, he, h⟩
  · exact Or.inl h
  · exact Or.inr (Or.inl h)
  · exact Or.inr (Or.inr (Or.inl (Linked.rest_mem_cells (K := attrList) ha h otelNil)))
  · refine Or.inr (Or.inr (Or.inr (Linked.rest_mem_cells (K := eventList) he ?_ otelNil)))
    rcases h with h | h
    · exact List.mem_append_left _ h
    · obtain ⟨a, ha, hc⟩ := h
      exact List.mem_append_right _ (attrStrCells_subset (List.mem_flatMap.mpr ⟨a, ha, hc⟩) otelNil)

theorem attrs_cells : ∀ c ∈ attrList.cells L.attrs otelNil, c ∈ L.cells := by
  intro c hc
  simp [Layout.cells, hc]

theorem events_cells : ∀ c ∈ eventList.cells L.events otelNil, c ∈ L.cells := by
  intro c hc
  simp [Layout.cells, hc]

theorem event_cells {e : EventNode} (he : e ∈ L.events) :
    ∀ c ∈ optCells e.name ++ attrList.cells e.attrs otelNil, c ∈ L.cells :=
  fun c hc => events_cells c (Linked.rest_mem_cells (K := eventList) he hc otelNil)

theorem attrs_strs : ∀ c ∈ L.attrs.flatMap attrStrCells, c ∈ strCells L := by
  intro c hc
  simp only [strCells, List.mem_append]
  exact Or.inl (Or.inr hc)

theorem event_strs {e : EventNode} (he : e ∈ L.events) :
    ∀ c ∈ optCells e.name ++ e.attrs.flatMap attrStrCells, c ∈ strCells L :=
  fun _ hc => List.mem_append_right _ (List.mem_flatMap.mpr ⟨e, he, hc⟩)

/-- The last byte of a stored string is a NUL. -/
theorem nul_of_strCell {m : Mem} {n : StrNode} (h : (strCell n).holds m) :
    m (n.off + n.bytes.length) = 0 := by
  have hread : readBytes m n.off (n.bytes.length + 1) = n.bytes ++ [0] := h
  rw [readBytes_add] at hread
  have hlast := (List.append_inj hread (by simp)).2
  simpa [readBytes] using hlast

theorem filter_strOff {n : Option StrNode} (h : ∀ c ∈ optCells n, c.off ≠ otelNil) :
    [strOff n].filter (· ≠ otelNil) = (optCells n).map Cell.off := by
  cases n with
  | none => rfl
  | some n =>
    have hne : n.off ≠ otelNil := h (strCell n) (by simp [optCells])
    simp [strOff, optCells, strCell, hne]

/-- The strings that an attribute record refers to. -/
theorem filter_attrStrs {a : AttrNode} {nx : Nat} (h : (attrCell a nx).holds s.arena)
    (hne : ∀ c ∈ attrStrCells a, c.off ≠ otelNil) :
    (attrStrs s a.off).filter (· ≠ otelNil) = (attrStrCells a).map Cell.off := by
  obtain ⟨-, hkey, hval⟩ := h
  have hk : a.key.off ≠ otelNil := hne (strCell a.key) (by simp [attrStrCells])
  have hrest : (if s.get a.off OtelAttr.type = OtelAttrType.str.code then
      [s.get a.off OtelAttr.val] else []).filter (· ≠ otelNil) = a.value.cells.map Cell.off := by
    cases hv : a.value with
    | str v =>
      rw [hv] at hval
      have ht : s.get a.off OtelAttr.type = OtelAttrType.str.code := hval.1
      have hoff : s.get a.off OtelAttr.val = strOff v := hval.2
      rw [if_pos ht, hoff]
      refine filter_strOff ?_
      intro c hc
      exact hne c (by simp [attrStrCells, ValNode.cells, hv, hc])
    | i64 v =>
      rw [hv] at hval
      have ht : s.get a.off OtelAttr.type = OtelAttrType.i64.code := hval.1
      rw [ht, if_neg (by decide)]
      rfl
    | u64 v =>
      rw [hv] at hval
      have ht : s.get a.off OtelAttr.type = OtelAttrType.u64.code := hval.1
      rw [ht, if_neg (by decide)]
      rfl
    | bool v =>
      rw [hv] at hval
      have ht : s.get a.off OtelAttr.type = OtelAttrType.bool.code := hval.1
      rw [ht, if_neg (by decide)]
      rfl
  rw [attrStrs, show s.get a.off OtelAttr.key = a.key.off from hkey,
    List.filter_cons_of_pos (by simpa using hk), hrest]
  rfl

/-- The string offsets that the span and its records store are those of the layout's strings. -/
theorem strCells_off (h : Represents s L) (hne : ∀ c ∈ strCells L, c.off ≠ otelNil) :
    (strCells L).map Cell.off = liveStrs s (attrList.offs L.attrs) (eventRecords L) := by
  have hattrs : ∀ (as : List AttrNode), (∀ c ∈ attrList.cells as otelNil, c ∈ L.cells) →
      (∀ c ∈ as.flatMap attrStrCells, c ∈ strCells L) →
      ((attrList.offs as).flatMap (attrStrs s)).filter (· ≠ otelNil) =
        (as.flatMap attrStrCells).map Cell.off := by
    intro as hcells hstrs
    rw [Linked.offs, List.flatMap_map, List.filter_flatMap, List.map_flatMap]
    refine List.flatMap_congr fun a ha => ?_
    obtain ⟨nx, hcell⟩ := Linked.cell_mem_cells (K := attrList) ha otelNil
    refine filter_attrStrs (h.sat.holds _ (hcells _ hcell)) ?_
    intro c hc
    exact hne c (hstrs c (List.mem_flatMap.mpr ⟨a, ha, hc⟩))
  have hname : [s.name].filter (· ≠ otelNil) = (optCells L.name).map Cell.off := by
    rw [h.name]
    exact filter_strOff fun c hc => hne c (by simp [strCells, hc])
  have hmessage : [s.statusMessage].filter (· ≠ otelNil) = (optCells L.message).map Cell.off := by
    rw [h.statusMessage]
    exact filter_strOff fun c hc => hne c (by simp [strCells, hc])
  have hevents : ((eventRecords L).flatMap fun e =>
      s.get e.1 OtelEvent.name :: e.2.flatMap (attrStrs s)).filter (· ≠ otelNil) =
      (L.events.flatMap fun e => optCells e.name ++ e.attrs.flatMap attrStrCells).map
        Cell.off := by
    rw [eventRecords, List.flatMap_map, List.filter_flatMap, List.map_flatMap]
    refine List.flatMap_congr fun e he => ?_
    obtain ⟨nx, hcell⟩ := Linked.cell_mem_cells (K := eventList) he otelNil
    have hnm : s.get e.off OtelEvent.name = strOff e.name :=
      (h.sat.holds _ (events_cells _ hcell)).2.1
    have h1 := filter_strOff fun c hc => hne c (event_strs he c (List.mem_append_left _ hc))
    have h2 := hattrs e.attrs (fun c hc => event_cells he c (List.mem_append_right _ hc))
      (fun c hc => event_strs he c (List.mem_append_right _ hc))
    simp only [hnm]
    rw [← List.singleton_append, List.filter_append, List.map_append, h1, h2]
  have hL := hattrs L.attrs attrs_cells attrs_strs
  rw [liveStrs, storedStrs, strCells, List.filter_append, List.filter_append, List.map_append,
    List.map_append, hL, hevents, ← List.singleton_append, List.filter_append, hname, hmessage,
    List.map_append]

/-! ## Lists -/

theorem attr_chain {as : List AttrNode} (h : Sat 8 s.arenaUsed (attrList.cells as otelNil ++ cs)
    s.arena) (hu : Cursor s.arenaUsed) :
    Chain (otelAttrNext s) (attrList.first as otelNil) (attrList.last as otelNil)
      (attrList.offs as) where
  links := attr_links h hu
  nodup := Linked.nodup_offs (List.pairwise_append.mp h.apart).1 (Nat.zero_lt_succ 15)
  head := attr_head (attr_off_ne h hu)
  tail := by
    have hoff := attr_off_ne h hu
    rcases List.eq_nil_or_concat as with rfl | ⟨as, a, rfl⟩
    · rfl
    · rw [List.concat_eq_append, Linked.last_snoc, recordAt_of_ne (hoff a (by simp))]
      simp [Linked.offs]

theorem event_chain (h : Represents s L) :
    Chain (otelEventNext s) s.eventHead s.eventTail (eventList.offs L.events) where
  links := event_links h
  nodup := Linked.nodup_offs (List.pairwise_append.mp h.events_first.apart).1 (Nat.zero_lt_succ 23)
  head := event_head h
  tail := by
    have hoff := event_off_ne h.events_first h.cursor
    rw [h.eventTail]
    rcases List.eq_nil_or_concat L.events with hnil | ⟨es, e, hsnoc⟩
    · rw [hnil]
      rfl
    · rw [hsnoc, List.concat_eq_append] at hoff ⊢
      rw [Linked.last_snoc, recordAt_of_ne (hoff e (by simp))]
      simp [Linked.offs]

/-- The record of an event. -/
theorem event_holds (h : Represents s L) {e : EventNode} (he : e ∈ L.events) :
    ∃ nx, (eventCell e nx).holds s.arena := by
  obtain ⟨nx, hcell⟩ := Linked.cell_mem_cells (K := eventList) he otelNil
  exact ⟨nx, h.sat.holds _ (by simp [Layout.cells, show eventCell e nx ∈ _ from hcell])⟩

/-! ## Copies -/

theorem forall₂_flatMap {α β γ : Type} {r : β → γ → Prop} {f : α → List β} {g : α → List γ}
    {as : List α} (h : ∀ a ∈ as, List.Forall₂ r (f a) (g a)) :
    List.Forall₂ r (as.flatMap f) (as.flatMap g) := by
  induction as with
  | nil => exact .nil
  | cons a as ih =>
    exact List.rel_append (h a List.mem_cons_self) (ih fun b hb => h b (List.mem_cons_of_mem a hb))

theorem copied_str (h : Represents s L) {n : Option StrNode} (hn : ∀ c ∈ optCells n, c ∈ strCells L) :
    Copied s ((strCells L).map block) (strOff n) (strBytes n) := by
  cases n with
  | none => exact Or.inl ⟨rfl, rfl⟩
  | some n =>
    have hc := hn (strCell n) (by simp [optCells])
    exact Or.inr ⟨List.mem_map_of_mem hc, h.sat.holds _ (strCells_subset hc)⟩

theorem copied_attr (h : Represents s L) {a : AttrNode} {nx : Nat}
    (hcell : (attrCell a nx).holds s.arena) (hstrs : ∀ c ∈ attrStrCells a, c ∈ strCells L) :
    List.Forall₂ (Copied s ((strCells L).map block)) (attrStrs s a.off) a.view.strs := by
  obtain ⟨-, hkey, hval⟩ := hcell
  have hk : Copied s ((strCells L).map block) a.key.off a.key.bytes := by
    refine copied_str h (n := some a.key) fun c hc => hstrs c ?_
    rw [attrStrCells, List.mem_singleton.mp hc]
    exact List.mem_cons_self
  rw [attrStrs, show s.get a.off OtelAttr.key = a.key.off from hkey]
  refine .cons hk ?_
  rw [AttrNode.view]
  cases hv : a.value with
  | str v =>
    rw [hv] at hval
    have ht : s.get a.off OtelAttr.type = OtelAttrType.str.code := hval.1
    have hoff : s.get a.off OtelAttr.val = strOff v := hval.2
    rw [if_pos ht, hoff]
    refine .cons (copied_str h fun c hc => hstrs c ?_) .nil
    rw [attrStrCells, hv]
    exact List.mem_cons_of_mem _ hc
  | i64 v =>
    rw [hv] at hval
    rw [show s.get a.off OtelAttr.type = OtelAttrType.i64.code from hval.1, if_neg (by decide)]
    exact .nil
  | u64 v =>
    rw [hv] at hval
    rw [show s.get a.off OtelAttr.type = OtelAttrType.u64.code from hval.1, if_neg (by decide)]
    exact .nil
  | bool v =>
    rw [hv] at hval
    rw [show s.get a.off OtelAttr.type = OtelAttrType.bool.code from hval.1, if_neg (by decide)]
    exact .nil

theorem copied_attrs (h : Represents s L) {as : List AttrNode}
    (hcells : ∀ c ∈ attrList.cells as otelNil, c ∈ L.cells)
    (hstrs : ∀ c ∈ as.flatMap attrStrCells, c ∈ strCells L) :
    List.Forall₂ (Copied s ((strCells L).map block)) ((attrList.offs as).flatMap (attrStrs s))
      ((as.map AttrNode.view).flatMap AttrView.strs) := by
  rw [Linked.offs, List.flatMap_map, List.flatMap_map]
  refine forall₂_flatMap fun a ha => ?_
  obtain ⟨nx, hcell⟩ := Linked.cell_mem_cells (K := attrList) ha otelNil
  refine copied_attr h (h.sat.holds _ (hcells _ hcell)) fun c hc => ?_
  exact hstrs c (List.mem_flatMap.mpr ⟨a, ha, hc⟩)

theorem attr_keys (h : Represents s L) (hne : ∀ c ∈ strCells L, c.off ≠ otelNil) {as : List AttrNode}
    (hcells : ∀ c ∈ attrList.cells as otelNil, c ∈ L.cells)
    (hstrs : ∀ c ∈ as.flatMap attrStrCells, c ∈ strCells L) :
    ∀ r ∈ attrList.offs as, s.get r OtelAttr.key ≠ otelNil := by
  intro r hr
  obtain ⟨a, ha, rfl⟩ := List.mem_map.mp hr
  obtain ⟨nx, hcell⟩ := Linked.cell_mem_cells (K := attrList) ha otelNil
  have hkey : s.get a.off OtelAttr.key = a.key.off := (h.sat.holds _ (hcells _ hcell)).2.1
  rw [show attrList.off a = a.off from rfl, hkey]
  exact hne (strCell a.key) (hstrs _ (List.mem_flatMap.mpr ⟨a, ha, List.mem_cons_self⟩))

/-- The strings that the span and its records refer to are copies of those of the view. -/
theorem Represents.copied (h : Represents s L) :
    List.Forall₂ (Copied s ((strCells L).map block))
      (storedStrs s (attrList.offs L.attrs) (eventRecords L)) (L.view s).strs := by
  have hname := copied_str h (n := L.name) fun c hc => by simp [strCells, hc]
  have hmessage := copied_str h (n := L.message) fun c hc => by simp [strCells, hc]
  rw [← h.name] at hname
  rw [← h.statusMessage] at hmessage
  refine List.rel_append (List.rel_append (.cons hname (.cons hmessage .nil)) ?_) ?_
  · exact copied_attrs h attrs_cells attrs_strs
  · rw [eventRecords, Layout.view, List.flatMap_map, List.flatMap_map]
    refine forall₂_flatMap fun e he => ?_
    obtain ⟨nx, hcell⟩ := Linked.cell_mem_cells (K := eventList) he otelNil
    have hnm : s.get e.off OtelEvent.name = strOff e.name :=
      (h.sat.holds _ (events_cells _ hcell)).2.1
    rw [hnm]
    refine .cons (copied_str h fun c hc => event_strs he c (List.mem_append_left _ hc)) ?_
    exact copied_attrs h (fun c hc => event_cells he c (List.mem_append_right _ hc)) fun c hc =>
      event_strs he c (List.mem_append_right _ hc)

/-! ## The representation invariant -/

theorem Represents.shape (h : Represents s L) :
    SpanShape s (attrList.offs L.attrs) (eventRecords L) ((strCells L).map block) := by
  have hperm := blocks_perm L
  have hinside : ∀ b ∈ (strCells L).map block ++
      recordBlocks (attrList.offs L.attrs) (eventRecords L),
      b.off % 8 = 0 ∧ b.off + b.size ≤ s.arenaUsed ∧ b.off ≠ otelNil := by
    intro b hb
    obtain ⟨c, hc, rfl⟩ := List.mem_map.mp (hperm.mem_iff.mpr hb)
    have hal := h.sat.aligned c hc
    have hbe := h.sat.below c hc
    have hle := h.used_le
    simp only [otelSpanArena] at hle
    refine ⟨hal, hbe, ?_⟩
    simp only [block, otelNil]
    omega
  have hmem : ∀ c ∈ strCells L, c ∈ L.cells ∧ c.off ≠ otelNil := by
    intro c hc
    have hb := hinside (block c) (List.mem_append_left _ (List.mem_map_of_mem hc))
    exact ⟨strCells_subset hc, hb.2.2⟩
  refine
    { used_aligned := h.used_mod
      used_le := h.used_le
      attr_list := by
        rw [h.attrHead, h.attrTail]
        exact attr_chain h.attrs_first h.cursor
      event_list := by
        have hoffs : (eventRecords L).map Prod.fst = eventList.offs L.events := by
          rw [eventRecords, List.map_map]
          rfl
        rw [hoffs]
        exact event_chain h
      event_attr_list := ?_
      num_attrs := by rw [h.numAttrs, Linked.offs, List.length_map]
      num_events := by rw [h.numEvents, eventRecords, List.length_map]
      event_num_attrs := ?_
      keys := ?_
      strs_off := ?_
      strs_nul := ?_
      apart := ?_
      inside := hinside }
  · intro r hr
    obtain ⟨e, he, rfl⟩ := List.mem_map.mp hr
    obtain ⟨cs', hattrs⟩ := h.event_attrs_first he
    obtain ⟨nx, -, -, hhead, htail, -⟩ := event_holds h he
    have hchain := attr_chain hattrs h.cursor
    rw [← hhead, ← htail] at hchain
    exact hchain
  · intro r hr
    obtain ⟨e, he, rfl⟩ := List.mem_map.mp hr
    obtain ⟨nx, -, -, -, -, hnum, -⟩ := event_holds h he
    rw [Linked.offs, List.length_map]
    exact hnum
  · intro r hr
    have hne := fun c hc => (hmem c hc).2
    rcases List.mem_append.mp hr with hr | hr
    · exact attr_keys h hne attrs_cells attrs_strs r hr
    · obtain ⟨e, he, hr⟩ := List.mem_flatMap.mp hr
      obtain ⟨e, hmem', rfl⟩ := List.mem_map.mp he
      exact attr_keys h hne (fun c hc => event_cells hmem' c (List.mem_append_right _ hc))
        (fun c hc => event_strs hmem' c (List.mem_append_right _ hc)) r hr
  · rw [List.map_map]
    exact strCells_off h fun c hc => (hmem c hc).2
  · intro b hb
    obtain ⟨c, hc, rfl⟩ := List.mem_map.mp hb
    obtain ⟨hin, -⟩ := hmem c hc
    obtain ⟨n, rfl⟩ := mem_strCells hc
    have hnul := nul_of_strCell (h.sat.holds _ hin)
    exact ⟨Nat.succ_pos _, hnul⟩
  · refine (hperm.pairwise_iff ?_).mp ?_
    · intro b c hbc
      exact Or.symm hbc
    · rw [List.pairwise_map]
      exact h.sat.apart

/-! ## The arena only grows -/

theorem le_of_charge {used n u : Nat} (h : charge used n = some u) : used ≤ u := by
  obtain ⟨rfl, -⟩ := charge_some h
  exact Nat.le_add_right _ _

theorem le_chargeBytes (used : Nat) (b : Bytes) : used ≤ (chargeBytes used b).1 := by
  unfold chargeBytes
  cases hc : charge used (b.length + 1) with
  | none => exact Nat.le_refl _
  | some u => exact le_of_charge hc

theorem le_chargeStr (used : Nat) (str : Option Bytes) : used ≤ (chargeStr used str).1 := by
  cases str with
  | none => exact Nat.le_refl _
  | some b => exact le_chargeBytes ..

theorem le_chargeAttr (used : Nat) (key : Option Bytes) : used ≤ (chargeAttr used key).1 := by
  have hkey := le_chargeStr used key
  unfold chargeAttr
  cases hc : charge (chargeStr used key).1 sizeofOtelAttr with
  | none => exact hkey
  | some u => exact hkey.trans (le_of_charge hc)

theorem le_chargeValue (used : Nat) (arg : AttrArg) : used ≤ (chargeValue used arg).1 := by
  cases arg with
  | str value => exact le_chargeStr used value
  | strn value len =>
    cases value with
    | none => exact Nat.le_refl _
    | some b => exact le_chargeBytes ..
  | i64 value => exact Nat.le_refl _
  | u64 value => exact Nat.le_refl _
  | bool value => exact Nat.le_refl _

theorem le_addAttr (used : Nat) (as : List AttrView) (key : Option Bytes) (arg : AttrArg) :
    used ≤ (addAttr used as key arg).1 := by
  have hkey := le_chargeAttr used key
  unfold addAttr
  rcases hc : chargeAttr used key with ⟨u, _ | k⟩
  · rw [hc] at hkey
    exact hkey
  · rw [hc] at hkey
    exact hkey.trans (le_chargeValue u arg)

theorem le_call_used (v : SpanView) (c : Call) : v.used ≤ (v.call c).used := by
  cases c with
  | setName name => exact le_chargeStr v.used name
  | setStatus status message => exact le_chargeStr v.used message
  | attr key arg =>
    have h := le_addAttr v.used v.attrs key arg
    rcases ha : addAttr v.used v.attrs key arg with ⟨u, _ | as⟩ <;>
      simpa [SpanView.call, ha] using h
  | event name now =>
    have h := le_chargeStr v.used name
    rcases hc : charge (chargeStr v.used name).1 sizeofOtelEvent with _ | u
    · simpa [SpanView.call, hc] using h
    · simpa [SpanView.call, hc] using h.trans (le_of_charge hc)
  | eventAttr handle key arg =>
    rcases hget : v.events[handle]? with _ | e
    · simp [SpanView.call, hget]
    · have h := le_addAttr v.used e.attrs key arg
      rcases ha : addAttr v.used e.attrs key arg with ⟨u, _ | as⟩ <;>
        simpa [SpanView.call, hget, ha] using h
  | finish now => exact Nat.le_refl _

theorem le_calls_used (v : SpanView) (cs : List Call) : v.used ≤ (v.calls cs).used := by
  induction cs generalizing v with
  | nil => exact Nat.le_refl _
  | cons c cs ih => exact (le_call_used v c).trans (ih (v.call c))

/-- In every state of a run on a recording span, the arena is well-formed, and its strings are copies of
those that the calls recorded; what has been allocated before stays allocated, and an exporter can read
the whole span. -/
theorem spanShape_calls (c : StartCall) (env : StartEnv) (tls : Option OtelRandomState)
    (s : OtelSpan) (name : Option Bytes) (kind : UInt32) (cs cs' : List Call)
    (hrec : otelSpanRecording (c.run env tls s name kind).2 = true) (hname : ShortStr name)
    (hcs : ∀ c ∈ cs ++ cs', c.Short) :
    let σ : Session := ⟨(c.run env tls s name kind).2, []⟩
    (∃ attrs events strs, SpanShape (σ.calls cs).span attrs events strs ∧
        List.Forall₂ (Copied (σ.calls cs).span strs) (storedStrs (σ.calls cs).span attrs events)
          ((SpanView.start name).calls cs).strs) ∧
      (σ.calls cs).span.arenaUsed ≤ (σ.calls (cs ++ cs')).span.arenaUsed ∧
      (readSpan (σ.calls cs).span).isSome := by
  intro σ
  obtain ⟨L, hL, hview⟩ := session_spec hrec hname fun c hc => hcs c (List.mem_append_left _ hc)
  obtain ⟨L', hL', hview'⟩ := session_spec hrec hname hcs
  have hcopied := hL.repr.copied
  rw [hview] at hcopied
  refine ⟨⟨_, _, _, hL.repr.shape, hcopied⟩, ?_, ?_⟩
  · have hu : (σ.calls cs).span.arenaUsed = ((SpanView.start name).calls cs).used :=
      congrArg SpanView.used hview
    have hu' : (σ.calls (cs ++ cs')).span.arenaUsed = ((SpanView.start name).calls (cs ++ cs')).used :=
      congrArg SpanView.used hview'
    rw [hu, hu', SpanView.calls, SpanView.calls, List.foldl_append]
    exact le_calls_used _ cs'
  · rw [readSpan_eq hL.repr]
    rfl

theorem spanShape_calls_sample :
    let σ := (sampleSession [104, 105]).calls [.event (some [101]) 9, .attr (some [107]) (.u64 5)]
    ∃ attrs events strs, SpanShape σ.span attrs events strs ∧
      List.Forall₂ (Copied σ.span strs) (storedStrs σ.span attrs events) [[104, 105], [], [107], [101]] :=
  (spanShape_calls .root ⟨true, true, 0, 7⟩ (some ⟨1, 0⟩) zeroSpan (some [104, 105]) 1
    [.event (some [101]) 9, .attr (some [107]) (.u64 5)] [.finish 11] (recording_of_flags rfl)
    (by simp [ShortStr]) (by simp [Call.Short, AttrArg.Short, ShortStr])).1

end OtelTracing
