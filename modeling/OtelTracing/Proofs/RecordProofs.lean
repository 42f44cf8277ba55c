import OtelTracing.Proofs.ArenaProofs

/-!
# Proofs: attribute and event records

What the annotation functions do to the cells of the arena: a fresh record becomes a cell, the last
record of a list is linked to it, and the value of an attribute record is filled in.
-/

namespace OtelTracing

open ByteMem Cells

variable {s : OtelSpan} {cs : List Cell} {used : Nat} {m : Mem}

/-! ## Fresh attribute records -/

theorem initAttr_frame (s : OtelSpan) {a koff i : Nat} (h : i < a ∨ a + sizeofOtelAttr ≤ i) :
    s.arena i = (initAttr s a koff).arena i := by
  simp only [sizeofOtelAttr] at h
  have hs : ∀ (m : Mem) (f : Field) (v : Nat), f.off + f.width ≤ 16 →
      m i = setField m a f v i := fun m f v hf =>
    agreeOn_setField m (b := i) (k := 1) (by omega) i (by omega) (by omega)
  simp only [initAttr, OtelSpan.set]
  rw [← hs _ _ _ (by decide), ← hs _ _ _ (by decide), ← hs _ _ _ (by decide),
    ← hs _ _ _ (by decide)]

theorem initAttr_holds (s : OtelSpan) {a koff : Nat} (hk : koff < 2 ^ 16) (key : Bytes) :
    (attrCell ⟨a, ⟨koff, key⟩, .str none⟩ otelNil).holds (initAttr s a koff).arena := by
  have hkey : koff % 256 ^ OtelAttr.key.width = koff := Nat.mod_eq_of_lt hk
  simp only [attrCell, ValNode.holds, initAttr, OtelSpan.set]
  simp (disch := decide) only [getField_setField_ne, getField_setField_self, hkey]
  exact ⟨rfl, trivial, rfl, rfl⟩

/-- The offset of a stored string fits 16 bits. -/
theorem strOff_lt (h : Sat 8 used (optCells n ++ cs) m) (hu : Cursor used) : strOff n < 2 ^ 16 := by
  cases n with
  | none => decide
  | some n =>
    have hb := h.below (strCell n) (by simp [optCells])
    have hle := hu.le
    simp only [otelSpanArena] at hle
    simp only [strCell] at hb
    show n.off < 2 ^ 16
    omega

/-- A key and a record are allocated: either the attribute is rejected and the other cells are kept,
or the record and the key are new cells. -/
theorem allocAttr_spec (hs : Cursor s.arenaUsed) (hsat : Sat 8 s.arenaUsed cs s.arena)
    (key : Option Bytes) (hkey : ShortStr key) :
    let k := otelArenaPut s key
    let r := otelArenaAlloc k.1 (UInt64.ofNat sizeofOtelAttr)
    (∃ u, chargeAttr s.arenaUsed key = (u, none) ∧ (k.2 = otelNil ∨ r.2 = otelNil) ∧
      Stored s r.1 u ∧ Cursor u ∧ Sat 8 u cs r.1.arena) ∨
    (∃ u bytes, chargeAttr s.arenaUsed key = (u, some bytes) ∧ ¬ (k.2 = otelNil ∨ r.2 = otelNil) ∧
      Stored s (initAttr r.1 r.2 k.2) u ∧ Cursor u ∧
      Sat 8 u (attrCell ⟨r.2, ⟨k.2, bytes⟩, .str none⟩ otelNil :: strCell ⟨k.2, bytes⟩ :: cs)
        (initAttr r.1 r.2 k.2).arena) := by
  intro k r
  obtain ⟨n, hn, hoff, hst, hcur, hsat1⟩ := put_spec hs hsat key hkey
  have hk1 : k.1.arenaUsed = (chargeStr s.arenaUsed key).1 := hst.arenaUsed
  have halloc : r = _ := otelArenaAlloc_eq hcur (n := UInt64.ofNat sizeofOtelAttr) (by decide)
  have hsz : (UInt64.ofNat sizeofOtelAttr).toNat = sizeofOtelAttr := by decide
  rw [hsz, hk1] at halloc
  have hklt : k.2 < 2 ^ 16 := by rw [hoff]; exact strOff_lt hsat1 hcur
  unfold chargeAttr
  cases hc : charge (chargeStr s.arenaUsed key).1 sizeofOtelAttr with
  | none =>
    rw [hc] at halloc
    refine Or.inl ⟨(chargeStr s.arenaUsed key).1, rfl, Or.inr (by rw [halloc]), ?_⟩
    rw [halloc]
    exact ⟨hst, hk1 ▸ hcur, hk1 ▸ hsat1.drop⟩
  | some u =>
    rw [hc] at halloc
    have hcur' : Cursor u := (hk1 ▸ hcur).charge hc
    obtain ⟨hu, -⟩ := charge_some hc
    have hr1 : r.1 = { k.1 with arenaUsed := u } := by rw [halloc]
    have hr2 : r.2 = k.1.arenaUsed := by rw [halloc, hk1]
    have hst' : Stored s r.1 u := hst.trans ⟨k.1.arena, hr1⟩
    cases n with
    | none =>
      refine Or.inl ⟨u, by rw [← hn]; rfl, Or.inl hoff, hst', hcur', ?_⟩
      rw [hr1]
      have hku : k.1.arenaUsed ≤ u := by omega
      exact hsat1.frame (fun _ _ _ => rfl) hku
    | some n =>
      have hbytes : (chargeStr s.arenaUsed key).2 = some n.bytes := hn.symm
      have hkoff : k.2 = n.off := hoff
      have hne : ¬ (k.2 = otelNil ∨ r.2 = otelNil) := by
        have hb : n.off + (n.bytes.length + 1) ≤ k.1.arenaUsed :=
          hsat1.below (strCell n) (by simp [optCells])
        have hle : k.1.arenaUsed ≤ 4024 := hcur.le
        rw [hkoff, hr2]
        simp only [otelNil]
        omega
      refine Or.inr ⟨u, n.bytes, by rw [hbytes], hne, hst'.trans ?_, hcur', ?_⟩
      · rw [hr1]
        exact ⟨_, rfl⟩
      · have hcell : strCell ⟨k.2, n.bytes⟩ = strCell n := by rw [hkoff]
        rw [hcell]
        refine Sat.alloc (show Sat 8 k.1.arenaUsed _ k.1.arena from hsat1) ?_
          (initAttr_holds r.1 hklt n.bytes) (by decide) hr2 hcur.mod ?_
        · intro i _ hi
          rw [← initAttr_frame r.1 (by rw [hr2]; omega), hr1]
        · show k.1.arenaUsed + roundUp 8 sizeofOtelAttr ≤ u
          rw [hk1, hu, roundUp8_eq]

/-! ## Fresh event records -/

theorem initEvent_frame (s : OtelSpan) {e noff i : Nat} {now : UInt64}
    (h : i < e ∨ e + sizeofOtelEvent ≤ i) : s.arena i = (initEvent s e noff now).arena i := by
  simp only [sizeofOtelEvent] at h
  have hs : ∀ (m : Mem) (f : Field) (v : Nat), f.off + f.width ≤ 24 →
      m i = setField m e f v i := fun m f v hf =>
    agreeOn_setField m (b := i) (k := 1) (by omega) i (by omega) (by omega)
  simp only [initEvent, OtelSpan.set]
  rw [← hs _ _ _ (by decide), ← hs _ _ _ (by decide), ← hs _ _ _ (by decide),
    ← hs _ _ _ (by decide), ← hs _ _ _ (by decide), ← hs _ _ _ (by decide),
    ← hs _ _ _ (by decide)]

theorem initEvent_stored (s : OtelSpan) (e noff : Nat) (now : UInt64) :
    Stored s (initEvent s e noff now) s.arenaUsed := by
  simp only [initEvent, OtelSpan.set]
  exact ⟨_, rfl⟩

theorem initEvent_holds (s : OtelSpan) {e : Nat} {name : Option StrNode} (now : UInt64)
    (hn : strOff name < 2 ^ 16) :
    (eventCell ⟨e, name, now, [], 0⟩ otelNil).holds (initEvent s e (strOff name) now).arena := by
  have hname : strOff name % 256 ^ OtelEvent.name.width = strOff name := Nat.mod_eq_of_lt hn
  have htime : now.toNat % 256 ^ OtelEvent.timeUnixNs.width = now.toNat :=
    Nat.mod_eq_of_lt now.toNat_lt
  simp only [eventCell, initEvent, OtelSpan.set]
  simp (disch := decide) only [getField_setField_ne, getField_setField_self, hname, htime]
  exact ⟨rfl, trivial, rfl, rfl, rfl, rfl, trivial⟩

/-- A name and a record are allocated: either the event is rejected and the other cells are kept, or
the record and the name, if it fitted, are new cells. -/
theorem allocEvent_spec (hs : Cursor s.arenaUsed) (hsat : Sat 8 s.arenaUsed cs s.arena)
    (name : Option Bytes) (now : UInt64) (hname : ShortStr name) :
    let n := otelArenaPut s name
    let r := otelArenaAlloc n.1 (UInt64.ofNat sizeofOtelEvent)
    (charge (chargeStr s.arenaUsed name).1 sizeofOtelEvent = none ∧ r.2 = otelNil ∧
      Stored s r.1 (chargeStr s.arenaUsed name).1 ∧ Cursor (chargeStr s.arenaUsed name).1 ∧
      Sat 8 (chargeStr s.arenaUsed name).1 cs r.1.arena) ∨
    (∃ u node, charge (chargeStr s.arenaUsed name).1 sizeofOtelEvent = some u ∧ r.2 ≠ otelNil ∧
      node.map StrNode.bytes = (chargeStr s.arenaUsed name).2 ∧
      Stored s (initEvent r.1 r.2 n.2 now) u ∧ Cursor u ∧
      Sat 8 u (eventCell ⟨r.2, node, now, [], 0⟩ otelNil :: (optCells node ++ cs))
        (initEvent r.1 r.2 n.2 now).arena) := by
  intro n r
  obtain ⟨node, hnode, hoff, hst, hcur, hsat1⟩ := put_spec hs hsat name hname
  have hn1 : n.1.arenaUsed = (chargeStr s.arenaUsed name).1 := hst.arenaUsed
  have halloc : r = _ := otelArenaAlloc_eq hcur (n := UInt64.ofNat sizeofOtelEvent) (by decide)
  have hsz : (UInt64.ofNat sizeofOtelEvent).toNat = sizeofOtelEvent := by decide
  rw [hsz, hn1] at halloc
  cases hc : charge (chargeStr s.arenaUsed name).1 sizeofOtelEvent with
  | none =>
    rw [hc] at halloc
    refine Or.inl ⟨rfl, by rw [halloc], ?_⟩
    rw [halloc]
    exact ⟨hst, hn1 ▸ hcur, hn1 ▸ hsat1.drop⟩
  | some u =>
    rw [hc] at halloc
    have hcur' : Cursor u := (hn1 ▸ hcur).charge hc
    obtain ⟨hu, -⟩ := charge_some hc
    have hr1 : r.1 = { n.1 with arenaUsed := u } := by rw [halloc]
    have hr2 : r.2 = n.1.arenaUsed := by rw [halloc, hn1]
    have hst' : Stored s r.1 u := hst.trans ⟨n.1.arena, hr1⟩
    refine Or.inr ⟨u, node, rfl, by rw [hr2]; exact hcur.ne_nil, hnode, hst'.trans ?_, hcur', ?_⟩
    · have := initEvent_stored r.1 r.2 n.2 now
      rwa [hst'.arenaUsed] at this
    · have hlt : strOff node < 2 ^ 16 := strOff_lt hsat1 hcur
      rw [show n.2 = strOff node from hoff]
      refine Sat.alloc (show Sat 8 n.1.arenaUsed _ n.1.arena from hsat1) ?_
        (initEvent_holds r.1 now hlt) (by decide) hr2 hcur.mod ?_
      · intro i _ hi
        rw [← initEvent_frame r.1 (by rw [hr2]; omega), hr1]
      · show n.1.arenaUsed + roundUp 8 sizeofOtelEvent ≤ u
        rw [hn1, hu, roundUp8_eq]

/-! ## Linking the last record -/

/-- An assignment to a field of the record at `p` only changes bytes of the record. -/
theorem setField_frame {p k v i : Nat} {f : Field} (hf : f.off + f.width ≤ k)
    (h : i < p ∨ p + k ≤ i) : m i = setField m p f v i :=
  agreeOn_setField m (b := i) (k := 1) (by omega) i (by omega) (by omega)

/-- Linking the last attribute record of a list to the record at `new`. -/
theorem relink_attr {as : List AttrNode} {new : Nat}
    (h : Sat 8 used (attrList.cells as otelNil ++ cs) m) (has : as ≠ []) (hnew : new < 2 ^ 16) :
    Sat 8 used (attrList.cells as new ++ cs)
      (setField m (attrList.last as otelNil) OtelAttr.next new) := by
  rcases List.eq_nil_or_concat as with rfl | ⟨as, a, rfl⟩
  · exact absurd rfl has
  rw [List.concat_eq_append] at h ⊢
  rw [Linked.last_snoc]
  have ha := h.holds (attrCell a otelNil) (by simp [Linked.cells_snoc, attrList])
  obtain ⟨-, hkey, hval⟩ := ha
  refine Linked.relink h (fun i hi => setField_frame (by decide) hi) ⟨?_, ?_, ?_⟩
  · exact (getField_setField_self ..).trans (Nat.mod_eq_of_lt hnew)
  · exact (getField_setField_of_apart _ (by simp [attrList, OtelAttr.key, OtelAttr.next])).trans hkey
  · exact ValNode.holds_congr (agreeOn_setField m (by simp [attrList, OtelAttr.next])) hval

/-- Linking the last event record of a list to the record at `new`. -/
theorem relink_event {es : List EventNode} {new : Nat}
    (h : Sat 8 used (eventList.cells es otelNil ++ cs) m) (hes : es ≠ []) (hnew : new < 2 ^ 16) :
    Sat 8 used (eventList.cells es new ++ cs)
      (setField m (eventList.last es otelNil) OtelEvent.next new) := by
  rcases List.eq_nil_or_concat es with rfl | ⟨es, e, rfl⟩
  · exact absurd rfl hes
  rw [List.concat_eq_append] at h ⊢
  rw [Linked.last_snoc]
  have he := h.holds (eventCell e otelNil) (by simp [Linked.cells_snoc, eventList])
  obtain ⟨-, h2, h3, h4, h5, h6, h7⟩ := he
  have hother : ∀ f : Field, 2 ≤ f.off →
      getField (setField m (eventList.off e) OtelEvent.next new) e.off f = getField m e.off f :=
    fun f hf => getField_setField_of_apart _ (by
      simp only [eventList, OtelEvent.next]
      omega)
  refine Linked.relink h (fun i hi => setField_frame (by decide) hi) ⟨?_, ?_, ?_, ?_, ?_, ?_, ?_⟩
  · exact (getField_setField_self ..).trans (Nat.mod_eq_of_lt hnew)
  · exact (hother _ (by decide)).trans h2
  · exact (hother _ (by decide)).trans h3
  · exact (hother _ (by decide)).trans h4
  · exact (hother _ (by decide)).trans h5
  · exact (hother _ (by decide)).trans h6
  · exact (hother _ (by decide)).trans h7

/-! ## How many records fit -/

/-- Every attribute costs at least 24 bytes: its record, and eight bytes for its key. -/
theorem le_cost_attrs (as : List AttrNode) (nx : Nat) :
    24 * as.length ≤ cost 8 (attrList.cells as nx) := by
  induction as with
  | nil => simp
  | cons a as ih =>
    have hrec : roundUp 8 (attrList.cell a (attrList.first as nx)).size = 16 := by
      rw [Linked.cell_size]
      decide
    have hkey : 8 ≤ roundUp 8 (strCell a.key).size := by
      simp only [roundUp, strCell]
      omega
    simp only [Linked.cells, attrList, cost_cons, cost_append, List.length_cons,
      List.cons_append] at ih hrec ⊢
    rw [hrec]
    omega

/-- Every event costs at least the 24 bytes of its record, besides its attributes. -/
theorem le_cost_events (es : List EventNode) (nx : Nat) :
    24 * (es.length + (es.map fun e => e.attrs.length).sum) ≤ cost 8 (eventList.cells es nx) := by
  induction es with
  | nil => simp
  | cons e es ih =>
    have hrec : roundUp 8 (eventList.cell e (eventList.first es nx)).size = 24 := by
      rw [Linked.cell_size]
      decide
    have hattrs := le_cost_attrs e.attrs otelNil
    simp only [Linked.cells, eventList, cost_cons, cost_append, List.length_cons,
      List.map_cons, List.sum_cons] at ih hrec ⊢
    rw [hrec]
    omega

/-! ## Attribute values -/

/-- Changing the type and the value of an attribute record. -/
theorem sat_setValue {a : AttrNode} {nx : Nat} {v : ValNode} (m' : Mem)
    (hsat : Sat 8 used (attrCell a nx :: cs) m)
    (hm : ∀ i, i < a.off + 4 ∨ a.off + sizeofOtelAttr ≤ i → m i = m' i)
    (hval : v.holds m' a.off) : Sat 8 used (attrCell { a with value := v } nx :: cs) m' := by
  obtain ⟨hnx, hkey, -⟩ := hsat.holds (attrCell a nx) (by simp)
  have hlow : AgreeOn a.off 4 m m' := fun i _ hi => hm i (Or.inl hi)
  refine hsat.update rfl rfl (fun i hi => hm i ?_) ⟨?_, ?_, hval⟩
  · simp only [attrCell] at hi
    omega
  · rw [← getField_congr hlow (by decide)]
    exact hnx
  · rw [← getField_congr hlow (by decide)]
    exact hkey

/-- Two assignments to the value part of an attribute record. -/
theorem setFields_frame {p i t x : Nat} {f g : Field} (hf : 4 ≤ f.off ∧ f.off + f.width ≤ 16)
    (hg : 4 ≤ g.off ∧ g.off + g.width ≤ 16) (h : i < p + 4 ∨ p + sizeofOtelAttr ≤ i) :
    m i = setField (setField m p f t) p g x i := by
  simp only [sizeofOtelAttr] at h
  rw [← agreeOn_setField _ (b := i) (k := 1) (by omega) i (by omega) (by omega)]
  exact agreeOn_setField _ (b := i) (k := 1) (by omega) i (by omega) (by omega)

/-- The value part of an attribute record holds the given number. -/
theorem sat_setNumber {a : AttrNode} {nx x : Nat} {g : Field} {t : OtelAttrType} {v : ValNode}
    (hsat : Sat 8 used (attrCell a nx :: cs) m) (hg : g.off = 8 ∧ g.width ≤ 8)
    (hx : x < 256 ^ g.width)
    (hv : ∀ m', getField m' a.off OtelAttr.type = t.code → getField m' a.off g = x →
      v.holds m' a.off) :
    Sat 8 used (attrCell { a with value := v } nx :: cs)
      (setField (setField m a.off OtelAttr.type t.code) a.off g x) := by
  refine sat_setValue _ hsat (fun i hi => setFields_frame (by decide) (by omega) hi) (hv _ ?_ ?_)
  · rw [getField_setField_of_apart _ (by simp only [OtelAttr.type]; omega), getField_setField_self]
    cases t <;> rfl
  · rw [getField_setField_self, Nat.mod_eq_of_lt hx]

/-- The value of an accepted attribute is filled in as in the reference behaviour. -/
theorem setAttrValue_spec {a : AttrNode} {nx : Nat} (hs : Cursor s.arenaUsed)
    (hsat : Sat 8 s.arenaUsed (attrCell a nx :: cs) s.arena) (ha : a.value = .str none)
    (arg : AttrArg) (harg : arg.Short) :
    ∃ v : ValNode, v.view = (chargeValue s.arenaUsed arg).2 ∧
      Stored s (setAttrValue s a.off arg) (chargeValue s.arenaUsed arg).1 ∧
      Cursor (setAttrValue s a.off arg).arenaUsed ∧
      Sat 8 (setAttrValue s a.off arg).arenaUsed
        (attrCell { a with value := v } nx :: (v.cells ++ cs)) (setAttrValue s a.off arg).arena := by
  -- a string value: the record is typed, the string is stored, and the record refers to it
  have hstr : ∀ (r : OtelSpan × Nat) (b : Nat × Option Bytes) (n : Option StrNode),
      n.map StrNode.bytes = b.2 → r.2 = strOff n →
      Stored (s.set a.off OtelAttr.type OtelAttrType.str.code) r.1 b.1 → Cursor r.1.arenaUsed →
      Sat 8 r.1.arenaUsed (optCells n ++ attrCell a nx :: cs) r.1.arena →
      ∃ v : ValNode, v.view = .str (b.2.getD []) ∧
        Stored s (r.1.set a.off OtelAttr.val r.2) b.1 ∧
        Cursor (r.1.set a.off OtelAttr.val r.2).arenaUsed ∧
        Sat 8 (r.1.set a.off OtelAttr.val r.2).arenaUsed
          (attrCell { a with value := v } nx :: (v.cells ++ cs))
          (r.1.set a.off OtelAttr.val r.2).arena := by
    intro r b n hn hoff hst hcur hsat1
    have hlt : r.2 < 2 ^ 16 := hoff ▸ strOff_lt hsat1 hcur
    refine ⟨.str n, ?_, ?_, hcur, ?_⟩
    · rw [ValNode.view, strBytes, hn]
    · obtain ⟨m', hm'⟩ := hst
      exact ⟨setField r.1.arena a.off OtelAttr.val r.2, by rw [hm']; rfl⟩
    · have hsat2 := hsat1.perm List.perm_middle
      have hcell := hsat2.holds (attrCell a nx) (by simp)
      refine sat_setValue _ hsat2 (fun i hi => ?_) ⟨?_, ?_⟩
      · simp only [sizeofOtelAttr] at hi
        exact agreeOn_setField _ (b := i) (k := 1) (by simp only [OtelAttr.val]; omega) i
          (by omega) (by omega)
      · rw [OtelSpan.set, getField_setField_of_apart _ (by simp [OtelAttr.type, OtelAttr.val])]
        have := hcell.2.2
        rw [ha] at this
        exact this.1
      · rw [OtelSpan.set, getField_setField_self]
        exact (Nat.mod_eq_of_lt hlt).trans hoff
  -- writing the type byte of a string leaves the fresh record as it is
  have htype : Sat 8 s.arenaUsed (attrCell a nx :: cs)
      (s.set a.off OtelAttr.type OtelAttrType.str.code).arena := by
    have hcell := hsat.holds (attrCell a nx) (by simp)
    have := sat_setValue (v := a.value)
      (s.set a.off OtelAttr.type OtelAttrType.str.code).arena hsat (fun i hi => ?_) ?_
    · exact this
    · simp only [sizeofOtelAttr] at hi
      exact agreeOn_setField _ (b := i) (k := 1) (by simp only [OtelAttr.type]; omega) i
        (by omega) (by omega)
    · have hval := hcell.2.2
      rw [ha] at hval ⊢
      refine ⟨getField_setField_self .., ?_⟩
      rw [OtelSpan.set, getField_setField_of_apart _ (by simp [OtelAttr.type, OtelAttr.val])]
      exact hval.2
  cases arg with
  | str value =>
    obtain ⟨n, hn, hoff, hst, hcur, hsat1⟩ := put_spec
      (s := s.set a.off OtelAttr.type OtelAttrType.str.code) hs htype value harg
    exact hstr _ _ n hn hoff hst hcur hsat1
  | strn value len =>
    cases value with
    | none => exact hstr _ (s.arenaUsed, none) none rfl rfl ⟨_, rfl⟩ hs htype
    | some bytes =>
      obtain ⟨n, hn, hoff, hst, hcur, hsat1⟩ := putn_spec
        (s := s.set a.off OtelAttr.type OtelAttrType.str.code) hs htype bytes harg
      exact hstr _ _ n hn hoff hst hcur hsat1
  | i64 value =>
    exact ⟨.i64 value, rfl, ⟨_, rfl⟩, hs, sat_setNumber (t := .i64) hsat (by decide)
      value.toUInt64.toNat_lt fun m' h1 h2 => ⟨h1, h2⟩⟩
  | u64 value =>
    exact ⟨.u64 value, rfl, ⟨_, rfl⟩, hs, sat_setNumber (t := .u64) hsat (by decide)
      value.toNat_lt fun m' h1 h2 => ⟨h1, h2⟩⟩
  | bool value =>
    refine ⟨.bool (value ≠ 0), rfl, ⟨_, rfl⟩, hs, sat_setNumber (t := .bool) hsat (by decide) ?_
      fun m' h1 h2 => ⟨h1, ?_⟩⟩
    · split_ifs <;> decide
    · rw [h2]
      simp

end OtelTracing
