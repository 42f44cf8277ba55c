import OtelTracing.ShowText
import OtelTracing.Proofs.ShowProofs
import OtelTracing.Proofs.PrintAttrsProofs
import OtelTracing.Proofs.JournalProofs

/-!
# Proofs: the text of `otel-trace show`

The text is that of the tree, line by line, and the rows that it is made of say what was recorded. So
what is printed of a store that a process has written is the listing of the spans that it recorded.
-/

namespace OtelTracing

open ByteMem Preorder

variable {g : UInt64 → Bytes} {dur : Int64 → Bytes} {nodes : List Snode} {t0 : Int64}
  {body : Nat → Nat → Bytes} {service trace : Bytes} {db : Store} {ss : List OtelSpan} {s : OtelSpan}
  {v : SpanView} {row : SpanRow}

/-! ## The tree as a text -/

theorem foldlM_render {α β γ : Type} {f : β → α → Option β} {f' : γ → α → Option γ} {r : β → γ}
    (h : ∀ b a, f' (r b) a = (f b a).map r) (l : List α) (b : β) :
    l.foldlM f' (r b) = (l.foldlM f b).map r := by
  induction l generalizing b with
  | nil => rfl
  | cons a l ih =>
    rw [List.foldlM_cons, List.foldlM_cons, h]
    cases f b a with
    | none => rfl
    | some b' => exact ih b'

/-- What is printed for a row at a depth. -/
def rowText (dur : Int64 → Bytes) (nodes : List Snode) (t0 : Int64) (body : Nat → Nat → Bytes)
    (x : Nat × Nat) : Bytes :=
  (nodes[x.1]?.map fun s => (showLine t0 s x.1 x.2).text dur ++ body x.1 x.2).getD []

/-- The state with the text of its lines. -/
def Printing.render (dur : Int64 → Bytes) (nodes : List Snode) (t0 : Int64)
    (body : Nat → Nat → Bytes) (st : Printing) : Showing where
  printed := st.printed
  out := (st.out.map ShowLine.pos).flatMap (rowText dur nodes t0 body)

theorem render_print {st : Printing} {s : Snode} {i depth : Nat} (hs : nodes[i]? = some s) :
    (st.render dur nodes t0 body).print i ((showLine t0 s i depth).text dur ++ body i depth) =
      (st.print t0 s i depth).render dur nodes t0 body := by
  have hrow : rowText dur nodes t0 body (i, depth) =
      (showLine t0 s i depth).text dur ++ body i depth := by
    simp [rowText, hs]
  simp only [Showing.print, Printing.print, Printing.render, List.map_append, List.flatMap_append]
  rw [← hrow]
  simp [ShowLine.pos, showLine]

theorem showSubtree_eq (fuel : Nat) (parent : Option Bytes) (depth : Nat) (st : Printing) :
    showSubtree dur nodes t0 body fuel parent depth (st.render dur nodes t0 body) =
      (printSubtree nodes t0 fuel parent depth st).map (Printing.render dur nodes t0 body) := by
  induction fuel generalizing parent depth st with
  | zero => rfl
  | succ fuel ih =>
    rw [printSubtree_succ, showSubtree]
    refine foldlM_render ?_ _ st
    intro st i
    unfold printTurn
    cases hs : nodes[i]? with
    | none => rfl
    | some s =>
      by_cases hskip : st.printed i || !s.belongs nodes parent
      · simp only [Printing.render, hskip, if_true, Option.map_some]
      · have hflag : (st.render dur nodes t0 body).printed i = st.printed i := rfl
        simp only [hflag, hskip]
        rw [render_print hs]
        exact ih (some s.spanId) (depth + 1) _

/-! ## The order of the rows -/

/-- What the rest of the loop prints, if its calls print siblings in the order of their numbers. -/
theorem printTurns_ordered {sub : Option Bytes → Nat → Printing → Option Printing}
    {parent : Option Bytes} {depth : Nat} {is : List Nat} {st st' : Printing}
    (hsub : ∀ parent depth st st', sub parent depth st = some st' → ∃ f : Preorder.Forest Nat,
      st'.out.map ShowLine.pos = st.out.map ShowLine.pos ++ f.lines depth ∧ f.Ordered (· < ·))
    (hsorted : is.Pairwise (· < ·))
    (h : is.foldlM (printTurn nodes t0 sub parent depth) st = some st') : ∃ f : Preorder.Forest Nat,
      st'.out.map ShowLine.pos = st.out.map ShowLine.pos ++ f.lines depth ∧ f.Ordered (· < ·) ∧
        f.roots ⊆ is := by
  induction is generalizing st with
  | nil =>
    cases h
    exact ⟨.nil, (List.append_nil _).symm, trivial, List.Subset.refl _⟩
  | cons i is ih =>
    rw [List.foldlM_cons] at h
    obtain ⟨st₁, hturn, hrest⟩ := Option.bind_eq_some_iff.mp h
    obtain ⟨hlt, hsorted⟩ := List.pairwise_cons.mp hsorted
    obtain ⟨rest, hout, hordered, hroots⟩ := ih hsorted hrest
    have hskip : st₁ = st → ∃ f : Preorder.Forest Nat,
        st'.out.map ShowLine.pos = st.out.map ShowLine.pos ++ f.lines depth ∧ f.Ordered (· < ·) ∧
          f.roots ⊆ i :: is := by
      intro hsame
      rw [hsame] at hout
      exact ⟨rest, hout, hordered, fun j hj => List.mem_cons_of_mem i (hroots hj)⟩
    unfold printTurn at hturn
    cases hs : nodes[i]? with
    | none =>
      rw [hs] at hturn
      exact hskip (Option.some.inj hturn).symm
    | some s =>
      rw [hs] at hturn
      by_cases hprinted : st.printed i || !s.belongs nodes parent
      · exact hskip (Option.some.inj ((if_pos hprinted).symm.trans hturn)).symm
      · obtain ⟨kids, hkidsout, hkids⟩ := hsub _ _ _ _ ((if_neg hprinted).symm.trans hturn)
        refine ⟨.node i kids rest, ?_, ⟨fun j hj => hlt j (hroots hj), hkids, hordered⟩, ?_⟩
        · rw [hout, hkidsout, Printing.print, List.map_append]
          simp [Preorder.Forest.lines, ShowLine.pos, showLine]
        · intro j hj
          rcases List.mem_cons.mp hj with rfl | hj
          · exact List.mem_cons_self
          · exact List.mem_cons_of_mem i (hroots hj)

theorem printSubtree_ordered {fuel : Nat} {parent : Option Bytes} {depth : Nat} {st st' : Printing}
    (h : printSubtree nodes t0 fuel parent depth st = some st') : ∃ f : Preorder.Forest Nat,
      st'.out.map ShowLine.pos = st.out.map ShowLine.pos ++ f.lines depth ∧ f.Ordered (· < ·) := by
  induction fuel generalizing parent depth st st' with
  | zero => cases h
  | succ fuel ih =>
    rw [printSubtree_succ] at h
    obtain ⟨f, hout, hordered, -⟩ :=
      printTurns_ordered (fun _ _ _ _ hsub => ih hsub) List.pairwise_lt_range h
    exact ⟨f, hout, hordered⟩

/-! ## Rows below a row -/

theorem forall₂_mem {α β : Type} {R : α → β → Prop} {xs : List α} {ys : List β}
    (h : List.Forall₂ R xs ys) {x : α} (hx : x ∈ xs) : ∃ y ∈ ys, R x y := by
  induction h with
  | nil => cases hx
  | @cons x' y xs ys hxy _ ih =>
    rcases List.mem_cons.mp hx with rfl | hx
    · exact ⟨y, List.mem_cons_self, hxy⟩
    · obtain ⟨y', hy', hxy'⟩ := ih hx
      exact ⟨y', List.mem_cons_of_mem y hy', hxy'⟩

theorem forall₂_imp_mem {α β : Type} {R S : α → β → Prop} {xs : List α} {ys : List β}
    (h : List.Forall₂ R xs ys) (himp : ∀ x ∈ xs, ∀ y ∈ ys, R x y → S x y) : List.Forall₂ S xs ys := by
  induction h with
  | nil => exact .nil
  | @cons x y xs ys hxy _ ih =>
    refine .cons (himp x List.mem_cons_self y List.mem_cons_self hxy) (ih ?_)
    exact fun x' hx y' hy => himp x' (List.mem_cons_of_mem x hx) y' (List.mem_cons_of_mem y hy)

section
variable {α : Type} {k : α → Nat} {xs ys : List α} {i : Nat}

theorem filter_left (h : ∀ y ∈ ys, k y ≠ i) :
    (xs ++ ys).filter (fun x => k x = i) = xs.filter fun x => k x = i := by
  have hys : ys.filter (fun y => k y = i) = [] :=
    List.filter_eq_nil_iff.mpr fun y hy => by simpa using h y hy
  rw [List.filter_append, hys, List.append_nil]

theorem filter_right (h : ∀ x ∈ xs, k x ≠ i) (h' : ∀ y ∈ ys, k y = i) :
    (xs ++ ys).filter (fun x => k x = i) = ys := by
  have hxs : xs.filter (fun x => k x = i) = [] :=
    List.filter_eq_nil_iff.mpr fun x hx => by simpa using h x hx
  have hys : ys.filter (fun y => k y = i) = ys :=
    List.filter_eq_self.mpr fun y hy => by simpa using h' y hy
  rw [List.filter_append, hxs, hys, List.nil_append]

end

/-- The row is that of the span, whose annotations are `v`, and the rows below it are those of its
attributes and events. -/
structure Store.Tells (service : Bytes) (db : Store) (s : OtelSpan) (v : SpanView) (row : SpanRow) :
    Prop where
  read : readSpan s = some v
  columns : row = v.row service s row.id row.origin
  attrs : (db.spanAttrs.filter fun a => a.owner = row.id).map AttrRow.pair =
    (v.attrs.map AttrView.proto).map some
  events : List.Forall₂ (EventRow.Agrees db) (db.spanEvents.filter fun e => e.span = row.id)
    (v.events.map EventView.proto)

/-- Every row is below another that is there. -/
structure Store.Rooted (db : Store) : Prop where
  attrs : ∀ a ∈ db.spanAttrs, a.owner ∈ db.spans.map SpanRow.id
  events : ∀ e ∈ db.spanEvents, e.span ∈ db.spans.map SpanRow.id
  eventAttrs : ∀ a ∈ db.spanEventAttrs, a.owner ∈ db.spanEvents.map EventRow.id

theorem Store.Rooted.append {rows : Store} {m : Proto.Span} (h : db.Rooted)
    (hrows : Describes rows row m) : (db.append rows).Rooted := by
  have hid : row.id ∈ (db.append rows).spans.map SpanRow.id := by
    simp [Store.append, hrows.spans]
  constructor
  · intro a ha
    rcases List.mem_append.mp ha with ha | ha
    · rw [Store.append, List.map_append]
      exact List.mem_append_left _ (h.attrs a ha)
    · rw [hrows.attr_owner a ha]
      exact hid
  · intro e he
    rcases List.mem_append.mp he with he | he
    · rw [Store.append, List.map_append]
      exact List.mem_append_left _ (h.events e he)
    · rw [hrows.event_span e he]
      exact hid
  · intro a ha
    rw [Store.append, List.map_append]
    rcases List.mem_append.mp ha with ha | ha
    · exact List.mem_append_left _ (h.eventAttrs a ha)
    · exact List.mem_append_right _ (hrows.event_attr_owner a ha)

/-- Rows below other rows come after those of the store. -/
theorem Store.Tells.keep {rows : Store} {row' : SpanRow} {m : Proto.Span}
    (h : db.Tells service s v row) (hrows : Describes rows row' m) (hne : row'.id ≠ row.id)
    (hids : ∀ e ∈ db.spanEvents, e.id ∉ rows.spanEvents.map EventRow.id) :
    (db.append rows).Tells service s v row := by
  refine ⟨h.read, h.columns, ?_, ?_⟩
  · rw [Store.append, filter_left (k := AttrRow.owner)]
    · exact h.attrs
    · intro a ha
      rw [hrows.attr_owner a ha]
      exact hne
  · rw [Store.append, filter_left (k := EventRow.span)]
    · refine forall₂_imp_mem h.events ?_
      intro e he ev _ hagrees
      refine ⟨hagrees.name, hagrees.time, ?_⟩
      rw [filter_left (k := AttrRow.owner)]
      · exact hagrees.attrs
      · intro a ha heq
        have hnew := hrows.event_attr_owner a ha
        rw [heq] at hnew
        exact hids e (List.mem_of_mem_filter he) hnew
    · intro e he
      rw [hrows.event_span e he]
      exact hne

/-- The rows of a span that is inserted. -/
theorem Describes.tells {rows : Store} {id origin : Nat} (h : db.Rooted) (hread : readSpan s = some v)
    (hrows : Describes rows (v.row service s id origin) (spanProto s v))
    (hid : id ∉ db.spans.map SpanRow.id)
    (hids : ∀ e ∈ rows.spanEvents, e.id ∉ db.spanEvents.map EventRow.id) :
    (db.append rows).Tells service s v (v.row service s id origin) := by
  refine ⟨hread, rfl, ?_, ?_⟩
  · rw [Store.append, filter_right (k := AttrRow.owner)]
    · exact hrows.attrs
    · intro a ha heq
      have hold := h.attrs a ha
      rw [heq] at hold
      exact hid hold
    · exact hrows.attr_owner
  · rw [Store.append, filter_right (k := EventRow.span)]
    · refine forall₂_imp_mem hrows.events ?_
      intro e he ev _ hagrees
      refine ⟨hagrees.name, hagrees.time, ?_⟩
      -- no attribute of an earlier event has the id of a new one
      have hnone : db.spanEventAttrs.filter (fun a => a.owner = e.id) = [] := by
        refine List.filter_eq_nil_iff.mpr fun a ha => ?_
        rw [decide_eq_true_eq]
        intro heq
        have hold := h.eventAttrs a ha
        rw [heq] at hold
        exact hids e he hold
      rw [List.filter_append, hnone]
      exact hagrees.attrs
    · intro e he heq
      have hold := h.events e he
      rw [heq] at hold
      exact hid hold
    · exact hrows.event_span

/-- With unique ids, every row of a store tells its span. -/
theorem Store.Holds.tells (h : Store.empty.Holds service ss db)
    (hspans : (db.spans.map SpanRow.id).Nodup) (hevents : (db.spanEvents.map EventRow.id).Nodup) :
    db.Rooted ∧ List.Forall₂ (fun s row => ∃ v, db.Tells service s v row) ss db.spans := by
  induction h with
  | nil =>
    refine ⟨⟨?_, ?_, ?_⟩, .nil⟩
    · rintro a ⟨⟩
    · rintro e ⟨⟩
    · rintro a ⟨⟩
  | @snoc ss db rows s v id origin _ hread _ hdescribes ih =>
    rw [Store.append, List.map_append, List.nodup_append] at hspans hevents
    obtain ⟨hrooted, htells⟩ := ih hspans.1 hevents.1
    have hid : ∀ row ∈ db.spans, row.id ≠ id := by
      intro row hrow
      refine hspans.2.2 row.id (List.mem_map_of_mem hrow) id ?_
      rw [hdescribes.spans]
      exact List.mem_singleton_self _
    have hids : ∀ e ∈ db.spanEvents, e.id ∉ rows.spanEvents.map EventRow.id :=
      fun e he hmem => hevents.2.2 e.id (List.mem_map_of_mem he) e.id hmem rfl
    refine ⟨hrooted.append hdescribes, ?_⟩
    show List.Forall₂ _ (ss ++ [s]) (db.spans ++ rows.spans)
    rw [hdescribes.spans]
    refine List.rel_append ?_ (List.Forall₂.cons ⟨v, ?_⟩ .nil)
    · refine forall₂_imp_mem htells ?_
      rintro s' _ row hrow ⟨v', hv'⟩
      exact ⟨v', hv'.keep hdescribes (hid row hrow).symm hids⟩
    · refine hdescribes.tells hrooted hread ?_ ?_
      · intro hmem
        obtain ⟨row, hrow, heq⟩ := List.mem_map.mp hmem
        exact hid row hrow heq
      · intro e he hmem
        obtain ⟨e', he', heq⟩ := List.mem_map.mp hmem
        exact hids e' he' (heq ▸ List.mem_map_of_mem he)

/-! ## What is to be shown -/

section
variable (g : UInt64 → Bytes) (dur : Int64 → Bytes)

def AttrView.line (width : Nat) (a : AttrView) : Bytes :=
  attrLine (makePad width) (cutStr a.key) (a.value.print g)

def EventView.text (width : Nat) (e : EventView) : Bytes :=
  eventLine (makePad width) (cutStr e.name) ++ e.attrs.flatMap (AttrView.line g (min width 60 + 2))

def SpanView.statusText (v : SpanView) : Bytes :=
  if v.status = 2 then
    if cutStr v.message = [] then ascii "  status=ERROR"
    else (ascii "  status=ERROR: " ++ cutStr v.message).take 159
  else
    []

/-- The text of the span `s` at a depth, whose annotations are `v`, with its events in a given
order. -/
def SpanView.text (t0 : Int64) (s : OtelSpan) (depth : Nat) (events : List EventView)
    (v : SpanView) : Bytes :=
  lineText depth (cutStr v.name) (kindName s.kind.toNat)
      (dur (s.endUnixNs.toInt64 - s.startUnixNs.toInt64)) (dur (s.startUnixNs.toInt64 - t0))
      v.statusText ++
    (v.attrs.flatMap (AttrView.line g (depth * 2 + 2)) ++
      events.flatMap (EventView.text g (depth * 2 + 2)))

/-- The block says what was recorded on the span, with the events in the order of their times. -/
def OtelSpan.ShownAs (t0 : Int64) (s : OtelSpan) (depth : Nat) (block : Bytes) : Prop :=
  ∃ v events, readSpan s = some v ∧ events.Perm v.events ∧
    (events.Pairwise fun a b => a.time.toInt64 ≤ b.time.toInt64) ∧
    block = v.text g dur t0 s depth events

end

variable {e : EventRow} {ev : EventView} {depth : Nat} {below : Below}

theorem attrs_text {rows : List AttrRow} {as : List AttrView} (width : Nat)
    (h : rows.map AttrRow.pair = (as.map AttrView.proto).map some) :
    rows.flatMap (printAttrRow g (makePad width)) = as.flatMap (AttrView.line g width) := by
  induction rows generalizing as with
  | nil =>
    cases as with
    | nil => rfl
    | cons a as => cases h
  | cons row rows ih =>
    cases as with
    | nil => cases h
    | cons a as =>
      rw [List.map_cons, List.map_cons, List.map_cons, List.cons.injEq] at h
      rw [List.flatMap_cons, List.flatMap_cons, printAttrRow_eq h.1, ih h.2]
      rfl

theorem event_text (width : Nat) (horder : InsertOrder db below) (h : e.Agrees db ev.proto) :
    eventLine (makePad width) (cutStr e.name) ++
      printEventAttrs g below e.id ((if width > 60 then 60 else width) + 2) = ev.text g width := by
  have hwidth : (if width > 60 then 60 else width) = min width 60 := by
    split_ifs <;> omega
  have hname : e.name = ev.name := h.name
  rw [hwidth, printEventAttrs, horder.eventAttrs, attrs_text _ h.attrs, hname]
  rfl

theorem event_time (h : e.Agrees db ev.proto) : e.timeUnixNs = ev.time.toInt64 := by
  have hbits : e.timeUnixNs.toUInt64 = ev.time := h.time.bits
  rw [← hbits, Int64.toInt64_toUInt64]

/-- The events of the span in the order in which they are printed. -/
theorem Store.Tells.events_sorted (h : db.Tells service s v row) (hevents : ShowEvents db below) :
    ∃ evs, evs.Perm v.events ∧
      (evs.Pairwise fun a b => a.time.toInt64 ≤ b.time.toInt64) ∧
      List.Forall₂ (fun e (ev : EventView) => e.Agrees db ev.proto) (below.events row.id) evs := by
  obtain ⟨evs, hagree, hperm⟩ := List.perm_comp_forall₂ (hevents.perm row.id)
    (List.forall₂_map_right_iff.mp h.events)
  refine ⟨evs, hperm, ?_, hagree⟩
  have htimes : evs.map (fun ev => ev.time.toInt64) = (below.events row.id).map EventRow.timeUnixNs := by
    generalize below.events row.id = es at hagree
    clear hperm
    induction hagree with
    | nil => rfl
    | cons he _ ih => rw [List.map_cons, List.map_cons, ih, event_time he]
  have hsorted := List.pairwise_map.mpr (hevents.sorted row.id)
  rw [← htimes] at hsorted
  exact List.pairwise_map.mp hsorted

theorem body_text {evs : List EventView} (horder : InsertOrder db below)
    (h : db.Tells service s v row)
    (hevs : List.Forall₂ (fun e (ev : EventView) => e.Agrees db ev.proto) (below.events row.id) evs) :
    printAttrsEvents g below row.id depth =
      v.attrs.flatMap (AttrView.line g (depth * 2 + 2)) ++
        evs.flatMap (EventView.text g (depth * 2 + 2)) := by
  simp only [printAttrsEvents]
  rw [horder.attrs, attrs_text _ h.attrs]
  congr 1
  generalize below.events row.id = es at hevs
  induction hevs with
  | nil => rfl
  | cons he _ ih => rw [List.flatMap_cons, List.flatMap_cons, ih, event_text _ horder he]

theorem toInt_ofUInt8 (b : UInt8) : (Int32.ofNat b.toNat).toInt = b.toNat := by
  have hlt := b.toNat_lt
  exact Int32.toInt_ofNat_of_lt (by omega)

/-- What follows the times on the line of a row. -/
theorem showStatus_eq (service : Bytes) (s : OtelSpan) (v : SpanView) (id origin : Nat) :
    showStatus (v.row service s id origin).showRow.snode = v.statusText := by
  have hflag : Int32.ofNat v.status.toNat = 2 ↔ v.status = 2 := by
    constructor
    · intro h
      have hint := toInt_ofUInt8 v.status
      rw [h] at hint
      exact UInt8.toNat_inj.mp (Int.ofNat.inj hint).symm
    · intro h
      rw [h]
      rfl
  have hstatus : (v.row service s id origin).showRow.snode.status = Int32.ofNat v.status.toNat :=
    rfl
  have hmessage : (v.row service s id origin).showRow.snode.statusMsg.getD [] = cutStr v.message :=
    rfl
  unfold showStatus SpanView.statusText
  rw [hstatus, hmessage]
  by_cases h : v.status = 2
  · rw [if_pos (hflag.mpr h), if_pos h]
    cases cutStr v.message with
    | nil => rfl
    | cons b bs => rfl
  · rw [if_neg (mt hflag.mp h), if_neg h]

theorem line_text (service : Bytes) (s : OtelSpan) (v : SpanView) (id origin i : Nat) :
    (showLine t0 (v.row service s id origin).showRow.snode i depth).text dur =
      lineText depth (cutStr v.name) (kindName s.kind.toNat)
        (dur (s.endUnixNs.toInt64 - s.startUnixNs.toInt64)) (dur (s.startUnixNs.toInt64 - t0))
        v.statusText := by
  show lineText depth (cutStr v.name) (kindName (Int32.ofNat s.kind.toNat).toInt) _ _
    (showStatus (v.row service s id origin).showRow.snode) = _
  rw [toInt_ofUInt8, showStatus_eq]
  rfl

/-! ## Ids -/

theorem hexd_ne_zero : ∀ n < 16, hexd.getD n 0 ≠ 0 := by decide

theorem cutStr_hex (bs : Bytes) : cutStr (otelSqliteHex bs) = otelSqliteHex bs := by
  refine cutStr_of_nulFree fun hzero => ?_
  obtain ⟨b, -, hb⟩ := List.mem_flatMap.mp hzero
  obtain ⟨hhi, hlo, -⟩ := byte_halves b.toNat b.toNat_lt
  rw [UInt8.ofNat_toNat] at hhi hlo
  rcases List.mem_cons.mp hb with hb | hb
  · exact hexd_ne_zero _ hhi hb.symm
  · exact hexd_ne_zero _ hlo (List.mem_singleton.mp hb).symm

theorem length_hex (bs : Bytes) : (otelSqliteHex bs).length = 2 * bs.length := by
  induction bs with
  | nil => rfl
  | cons b bs ih =>
    show (otelSqliteHex bs).length + 1 + 1 = 2 * (bs.length + 1)
    omega

/-- The hex digits of an id determine it. -/
theorem hexId_inj {x y : UInt64} (h : otelSqliteHex (le 8 x.toNat) = otelSqliteHex (le 8 y.toNat)) :
    x = y := by
  have hbytes := congrArg unhex h
  rw [unhex_otelSqliteHex, unhex_otelSqliteHex, Option.some.injEq] at hbytes
  have hnat := congrArg ofLe hbytes
  have hx := x.toNat_lt
  have hy := y.toNat_lt
  rw [ofLe_le, ofLe_le, Nat.mod_eq_of_lt (by omega), Nat.mod_eq_of_lt (by omega)] at hnat
  exact UInt64.toNat_inj.mp hnat

theorem Store.Tells.span_eq (h : db.Tells service s v row) :
    row.showRow.span = otelSqliteHex (le 8 s.spanId.toNat) := by
  rw [h.columns]
  exact cutStr_hex _

theorem Store.Tells.parent_eq (h : db.Tells service s v row) : row.showRow.parent =
    if s.parentId = 0 then [] else otelSqliteHex (le 8 s.parentId.toNat) := by
  rw [h.columns]
  show cutStr ((if s.parentId ≠ 0 then some (otelSqliteHex (le 8 s.parentId.toNat)) else none).getD
    []) = _
  by_cases hzero : s.parentId = 0
  · rw [if_neg (not_not.mpr hzero), if_pos hzero]
    rfl
  · rw [if_pos hzero, if_neg hzero]
    exact cutStr_hex _

theorem Store.Tells.start_eq (h : db.Tells service s v row) :
    row.startUnixNs = s.startUnixNs.toInt64 := by
  rw [h.columns]
  rfl

theorem Store.Tells.trace_eq (h : db.Tells service s v row) :
    row.traceId = otelSqliteHex s.traceId.toList := by
  rw [h.columns]
  rfl

theorem Store.Tells.short (h : db.Tells service s v row) : row.showRow.Short := by
  have hlength : ∀ x : UInt64, (otelSqliteHex (le 8 x.toNat)).length = 16 := by
    intro x
    rw [length_hex, length_le]
  constructor
  · rw [h.span_eq, hlength]
    omega
  · rw [h.parent_eq]
    split_ifs
    · exact Nat.zero_le _
    · rw [hlength]
      omega

/-! ## Parents -/

/-- The parent id of the span `s` is the id of the span `p`. -/
def ParentOf (p s : OtelSpan) : Prop := s.parentId ≠ 0 ∧ s.parentId = p.spanId

/-- The parent of the span is not among the spans, if it has one. -/
def TopOf (ss : List OtelSpan) (s : OtelSpan) : Prop := ∀ p ∈ ss, ¬ ParentOf p s

/-- No span is above itself: the ids of parents have lower ranks. -/
def Ranked (ss : List OtelSpan) : Prop :=
  ∃ rank : UInt64 → Nat, ∀ p ∈ ss, ∀ s ∈ ss, ParentOf p s → rank p.spanId < rank s.spanId

theorem parent_iff {p : OtelSpan} {v' : SpanView} {row' : SpanRow} (hp : db.Tells service p v' row')
    (hs : db.Tells service s v row) : row.showRow.parent = row'.showRow.span ↔ ParentOf p s := by
  have hlength : (otelSqliteHex (le 8 p.spanId.toNat)).length = 16 := by
    rw [length_hex, length_le]
  rw [hs.parent_eq, hp.span_eq]
  by_cases hzero : s.parentId = 0
  · rw [if_pos hzero]
    constructor
    · intro heq
      rw [← heq] at hlength
      cases hlength
    · rintro ⟨hne, -⟩
      exact absurd hzero hne
  · rw [if_neg hzero]
    constructor
    · intro heq
      exact ⟨hzero, hexId_inj heq⟩
    · rintro ⟨-, heq⟩
      rw [heq]

section
variable {rows : List SpanRow} {p i depth : Nat}

/-- The span of the row `i`. -/
def spanAt (ss : List OtelSpan) (i : Nat) : OtelSpan := ss.getD i zeroSpan

theorem map_spanAt (ss : List OtelSpan) : (List.range ss.length).map (spanAt ss) = ss := by
  refine List.ext_getElem (by simp) ?_
  intro i hi hi'
  simp [spanAt, List.getD, hi']

/-- The rows tell the spans, one by one. -/
def Store.TellsAll (service : Bytes) (db : Store) (ss : List OtelSpan) (rows : List SpanRow) : Prop :=
  List.Forall₂ (fun s row => ∃ v, db.Tells service s v row) ss rows

theorem Store.TellsAll.at (h : db.TellsAll service ss rows) (hi : rows[i]? = some row) :
    spanAt ss i ∈ ss ∧ ∃ v, db.Tells service (spanAt ss i) v row := by
  obtain ⟨s, hs, v, hv⟩ := forall₂_getElem? h hi
  have hspan : spanAt ss i = s := by
    rw [spanAt, List.getD_eq_getElem?_getD, hs]
    rfl
  rw [hspan]
  exact ⟨List.mem_of_getElem? hs, v, hv⟩

theorem getElem?_showRow {r : ShowRow} (h : (rows.map SpanRow.showRow)[i]? = some r) :
    ∃ row, rows[i]? = some row ∧ row.showRow = r := by
  rwa [List.getElem?_map, Option.map_eq_some_iff] at h

theorem Store.TellsAll.parent (h : db.TellsAll service ss rows)
    (hparent : ParentRow (rows.map SpanRow.showRow) p i) :
    spanAt ss p ∈ ss ∧ spanAt ss i ∈ ss ∧ ParentOf (spanAt ss p) (spanAt ss i) := by
  obtain ⟨q, r, hq, hr, heq⟩ := hparent
  obtain ⟨rowq, hrowq, rfl⟩ := getElem?_showRow hq
  obtain ⟨rowr, hrowr, rfl⟩ := getElem?_showRow hr
  obtain ⟨hp, vp, htellsp⟩ := h.at hrowq
  obtain ⟨hi, vi, htellsi⟩ := h.at hrowr
  exact ⟨hp, hi, (parent_iff htellsp htellsi).mp heq⟩

theorem Store.TellsAll.top (h : db.TellsAll service ss rows)
    (hroot : IsRoot (rows.map SpanRow.showRow) i) : TopOf ss (spanAt ss i) := by
  obtain ⟨r, hr, hroot⟩ := hroot
  obtain ⟨row, hrow, rfl⟩ := getElem?_showRow hr
  obtain ⟨-, v, htells⟩ := h.at hrow
  intro p hp hparent
  obtain ⟨row', hrow', v', htells'⟩ := forall₂_mem h hp
  have heq := (parent_iff htells' htells).mpr hparent
  rcases hroot with hnil | hnone
  · rw [htells.parent_eq, if_neg hparent.1] at hnil
    have hlength := length_hex (le 8 (spanAt ss i).parentId.toNat)
    rw [hnil, length_le] at hlength
    cases hlength
  · exact hnone row'.showRow (List.mem_map_of_mem hrow') heq.symm

theorem Store.TellsAll.acyclic (h : db.TellsAll service ss rows) (hranked : Ranked ss) :
    Acyclic (rows.map SpanRow.showRow) := by
  obtain ⟨rank, hrank⟩ := hranked
  have hstep : ∀ p i, HasParent (rows.map SpanRow.showRow) p i →
      rank (spanAt ss p).spanId < rank (spanAt ss i).spanId := by
    rintro p i ⟨hparent, -⟩
    obtain ⟨hp, hi, hparent⟩ := h.parent hparent
    exact hrank _ hp _ hi hparent
  have hchain : ∀ p i, Relation.TransGen (HasParent (rows.map SpanRow.showRow)) p i →
      rank (spanAt ss p).spanId < rank (spanAt ss i).spanId := by
    intro p i htrans
    induction htrans with
    | single hone => exact hstep _ _ hone
    | tail _ hone ih => exact ih.trans (hstep _ _ hone)
  exact fun i htrans => absurd (hchain i i htrans) (Nat.lt_irrefl _)

theorem Store.TellsAll.short (h : db.TellsAll service ss rows) :
    ∀ r ∈ rows.map SpanRow.showRow, r.Short := by
  intro r hr
  obtain ⟨row, hrow, rfl⟩ := List.mem_map.mp hr
  obtain ⟨i, hi⟩ := List.getElem?_of_mem hrow
  obtain ⟨-, v, htells⟩ := h.at hi
  exact htells.short

/-! ## The listing -/

/-- The text lists the spans in preorder, each below its parent and after siblings that started
earlier, and says what was recorded on each; a span is listed once, or not at all if it is above itself.
The offsets are from the earliest start. -/
structure Listing (g : UInt64 → Bytes) (dur : Int64 → Bytes) (trace : Bytes) (ss : List OtelSpan)
    (out : Bytes) (f : Preorder.Forest OtelSpan) (t0 : Int64) (blocks : List Bytes) : Prop where
  out : out = showHead trace ss.length ++ blocks.flatten
  blocks : List.Forall₂ (fun x block => x.1.ShownAs g dur t0 x.2 block) (f.lines 0) blocks
  linked : f.Linked ParentOf (TopOf ss)
  ordered : f.Ordered fun s s' => s.startUnixNs.toInt64 ≤ s'.startUnixNs.toInt64
  once : f.labels.Subperm ss
  all : Ranked ss → f.labels.Perm ss
  first : ∃ s ∈ ss, s.startUnixNs.toInt64 = t0
  earliest : ∀ s ∈ ss, t0 ≤ s.startUnixNs.toInt64

theorem Listing.perm {out : Bytes} {f : Preorder.Forest OtelSpan} {blocks : List Bytes}
    {ss' : List OtelSpan}
    (h : Listing g dur trace ss out f t0 blocks) (hperm : ss.Perm ss') :
    Listing g dur trace ss' out f t0 blocks := by
  refine ⟨?_, h.blocks, h.linked.imp ?_, h.ordered, h.once.trans hperm.subperm, ?_, ?_, ?_⟩
  · rw [h.out, hperm.length_eq]
  · exact fun s hs p hp => hs p (hperm.mem_iff.mpr hp)
  · rintro ⟨rank, hrank⟩
    refine (h.all ⟨rank, ?_⟩).trans hperm
    exact fun p hp s hs => hrank p (hperm.mem_iff.mp hp) s (hperm.mem_iff.mp hs)
  · obtain ⟨s, hs, heq⟩ := h.first
    exact ⟨s, hperm.mem_iff.mp hs, heq⟩
  · exact fun s hs => h.earliest s (hperm.mem_iff.mpr hs)

theorem earliest_spec {nodes : List Snode} (hne : nodes ≠ []) :
    (∃ s ∈ nodes, s.start = earliest nodes) ∧ ∀ s ∈ nodes, earliest nodes ≤ s.start := by
  -- the fold keeps the least start so far
  have hfold : ∀ (ss : List Snode) (t : Int64),
      let t' := ss.foldl (fun t0 s => if s.start < t0 then s.start else t0) t
      (t' = t ∨ ∃ s ∈ ss, s.start = t') ∧ t' ≤ t ∧ ∀ s ∈ ss, t' ≤ s.start := by
    intro ss
    induction ss with
    | nil => exact fun t => ⟨Or.inl rfl, Int64.le_refl t, by rintro s ⟨⟩⟩
    | cons s ss ih =>
      intro t
      obtain ⟨hmem, hle, hall⟩ := ih (if s.start < t then s.start else t)
      have hmin : (if s.start < t then s.start else t) ≤ t ∧
          (if s.start < t then s.start else t) ≤ s.start := by
        by_cases h : s.start < t
        · rw [if_pos h]
          exact ⟨Int64.le_of_lt h, Int64.le_refl _⟩
        · rw [if_neg h]
          exact ⟨Int64.le_refl t, Int64.not_lt.mp h⟩
      refine ⟨?_, Int64.le_trans hle hmin.1, ?_⟩
      · rcases hmem with heq | ⟨s', hs', heq⟩
        · by_cases h : s.start < t
          · exact Or.inr ⟨s, List.mem_cons_self, (heq.trans (if_pos h)).symm⟩
          · exact Or.inl (heq.trans (if_neg h))
        · exact Or.inr ⟨s', List.mem_cons_of_mem s hs', heq⟩
      · intro s' hs'
        rcases List.mem_cons.mp hs' with rfl | hs'
        · exact Int64.le_trans hle hmin.2
        · exact hall s' hs'
  cases nodes with
  | nil => exact absurd rfl hne
  | cons s ss =>
    obtain ⟨hmem, hle, hall⟩ := hfold ss s.start
    refine ⟨?_, ?_⟩
    · rcases hmem with heq | ⟨s', hs', heq⟩
      · exact ⟨s, List.mem_cons_self, heq.symm⟩
      · exact ⟨s', List.mem_cons_of_mem s hs', heq⟩
    · intro s' hs'
      rcases List.mem_cons.mp hs' with rfl | hs'
      · exact hle
      · exact hall s' hs'

/-- The rows of a forest that was printed are those that are to be shown. -/
theorem Printed.shown {rows : List ShowRow} {st : Printing} {f : Preorder.Forest Nat}
    (h : Printed (rows.map ShowRow.snode) none 0 (List.range (rows.map ShowRow.snode).length)
      ⟨fun _ => false, []⟩ st f) (hshort : ∀ r ∈ rows, r.Short) {i : Nat} (hi : Shown rows i) :
    i ∈ f.labels := by
  have hprint : ∀ i, st.printed i = true ↔ i ∈ f.labels := by
    intro i
    rw [h.flags]
    simp
  induction hi with
  | @root i hroot =>
    rw [← hprint]
    refine h.done i ?_ ((nodeBelongs_iff hshort i).mpr hroot)
    rw [List.mem_range, List.length_map]
    exact hroot.lt
  | @child p i _ hparent ih =>
    rw [← hprint]
    exact h.closed p ih i ((nodeParent_iff hshort p i).mpr hparent)

theorem Store.TellsAll.row_text (h : db.TellsAll service ss rows) (hevents : ShowEvents db below)
    (horder : InsertOrder db below) (hi : i < rows.length) : (spanAt ss i).ShownAs g dur t0 depth
      (rowText dur (rows.map fun row => row.showRow.snode) t0 (rowBody g below rows)
        (i, depth)) := by
  have hrow : rows[i]? = some rows[i] := List.getElem?_eq_getElem hi
  obtain ⟨-, v, htells⟩ := h.at hrow
  obtain ⟨evs, hperm, hsorted, hagree⟩ := htells.events_sorted hevents
  refine ⟨v, evs, htells.read, hperm, hsorted, ?_⟩
  have hline : (showLine t0 rows[i].showRow.snode i depth).text dur =
      lineText depth (cutStr v.name) (kindName (spanAt ss i).kind.toNat)
        (dur ((spanAt ss i).endUnixNs.toInt64 - (spanAt ss i).startUnixNs.toInt64))
        (dur ((spanAt ss i).startUnixNs.toInt64 - t0)) v.statusText := by
    rw [htells.columns]
    exact line_text ..
  have hbody : rowBody g below rows i depth =
      printAttrsEvents g below rows[i].id depth := by
    rw [rowBody, hrow]
    rfl
  rw [rowText, List.getElem?_map, hrow]
  show (showLine t0 rows[i].showRow.snode i depth).text dur ++ rowBody g below rows i depth = _
  rw [hline, hbody, body_text horder htells hagree]
  rfl

theorem Store.TellsAll.sorted {j : Nat} (h : db.TellsAll service ss rows)
    (hsorted : rows.Pairwise fun a b => a.start ≤ b.start) (hi : i < rows.length)
    (hj : j < rows.length) (hij : i < j) :
    (spanAt ss i).startUnixNs.toInt64 ≤ (spanAt ss j).startUnixNs.toInt64 := by
  obtain ⟨-, v, htells⟩ := h.at (List.getElem?_eq_getElem hi)
  obtain ⟨-, v', htells'⟩ := h.at (List.getElem?_eq_getElem hj)
  rw [← htells.start_eq, ← htells'.start_eq, Int64.le_iff_toInt_le]
  exact List.pairwise_iff_getElem.mp hsorted i j hi hj hij

/-- `cmd_show` lists the spans that its rows tell. -/
theorem Store.TellsAll.listing (h : db.TellsAll service ss rows)
    (hsorted : rows.Pairwise fun a b => a.start ≤ b.start) (hevents : ShowEvents db below)
    (horder : InsertOrder db below) (hne : rows ≠ []) (g : UInt64 → Bytes) (dur : Int64 → Bytes)
    (trace : Bytes) :
    ∃ out f t0 blocks,
      (∀ fuel, rows.length < fuel →
        cmdShowText g dur fuel trace rows below = some ⟨0, out⟩) ∧
      Listing g dur trace ss out f t0 blocks := by
  let nodes := rows.map fun row => row.showRow.snode
  have hnodes : nodes = (rows.map SpanRow.showRow).map ShowRow.snode := by
    rw [List.map_map]
    rfl
  have hlength : nodes.length = rows.length := List.length_map ..
  have hspans : ss.length = rows.length := List.Forall₂.length_eq h
  have hle := unprinted_le nodes ⟨fun _ => false, []⟩
  obtain ⟨st, f, hrun, hprinted⟩ := printSubtree_spec nodes (earliest nodes) (rows.length + 1) none 0
    ⟨fun _ => false, []⟩ (by omega)
  have hout : st.out.map ShowLine.pos = f.lines 0 := hprinted.out
  have hlt : ∀ i ∈ f.labels, i < rows.length := by
    intro i hi
    have hfresh := (hprinted.fresh i hi).2
    rwa [hlength] at hfresh
  rw [hnodes] at hprinted
  refine ⟨showHead trace rows.length ++
    ((f.lines 0).map (rowText dur nodes (earliest nodes) (rowBody g below rows))).flatten,
    f.map (spanAt ss), earliest nodes,
    (f.lines 0).map (rowText dur nodes (earliest nodes) (rowBody g below rows)), ?_, ?_⟩
  · intro fuel hfuel
    have hshow : showSubtree dur nodes (earliest nodes) (rowBody g below rows) fuel none 0
        ⟨fun _ => false, []⟩ = (printSubtree nodes (earliest nodes) fuel none 0
          ⟨fun _ => false, []⟩).map
            (Printing.render dur nodes (earliest nodes) (rowBody g below rows)) :=
      showSubtree_eq fuel none 0 ⟨fun _ => false, []⟩
    rw [hrun fuel hfuel] at hshow
    unfold cmdShowText
    show (if nodes.length = 0 then _ else _) = _
    rw [if_neg (by rwa [hlength, List.length_eq_zero_iff]), hshow, hlength]
    show some (ShowOutput.mk 0 (showHead trace rows.length ++
      (st.out.map ShowLine.pos).flatMap _)) = _
    rw [hout, List.flatMap_def]
  · have hnonempty : nodes ≠ [] := by
      intro hnil
      rw [hnil] at hlength
      exact hne (List.length_eq_zero_iff.mp hlength.symm)
    obtain ⟨hfirst, hearliest⟩ := earliest_spec hnonempty
    refine ⟨by rw [hspans], ?_, ?_, ?_, ?_, ?_, ?_, ?_⟩
    · rw [lines_map, List.forall₂_map_left_iff, List.forall₂_map_right_iff, List.forall₂_same]
      intro x hx
      refine h.row_text hevents horder (hlt x.1 ?_)
      rw [← map_fst_lines f 0]
      exact List.mem_map_of_mem hx
    · refine hprinted.linked.map ?_ ?_
      · exact fun i _ htop => h.top ((nodeBelongs_iff h.short i).mp htop)
      · exact fun p _ i _ hparent => (h.parent ((nodeParent_iff h.short p i).mp hparent)).2.2
    · obtain ⟨f', hout', hordered⟩ := printSubtree_ordered (hrun _ (Nat.lt_succ_self _))
      obtain rfl : f = f' := lines_inj (hout.symm.trans hout')
      refine hordered.map fun i hi j hj hij => ?_
      exact h.sorted hsorted (hlt i hi) (hlt j hj) hij
    · obtain ⟨is, hperm, hsub⟩ : f.labels.Subperm (List.range ss.length) := by
        refine List.subperm_of_subset hprinted.nodup fun i hi => ?_
        rw [List.mem_range, hspans]
        exact hlt i hi
      have hmap := hsub.map (spanAt ss)
      rw [map_spanAt] at hmap
      rw [labels_map]
      exact ⟨is.map (spanAt ss), hperm.map _, hmap⟩
    · intro hranked
      have hperm : f.labels.Perm (List.range ss.length) := by
        rw [List.perm_ext_iff_of_nodup hprinted.nodup List.nodup_range]
        intro i
        rw [List.mem_range, hspans]
        refine ⟨hlt i, fun hi => hprinted.shown h.short ?_⟩
        exact shown_of_acyclic (h.acyclic hranked) i (by rwa [List.length_map])
      have hmap := hperm.map (spanAt ss)
      rw [map_spanAt] at hmap
      rwa [labels_map]
    · obtain ⟨node, hnode, heq⟩ := hfirst
      obtain ⟨row, hrow, rfl⟩ := List.mem_map.mp hnode
      obtain ⟨i, hi⟩ := List.getElem?_of_mem hrow
      obtain ⟨hmem, v, htells⟩ := h.at hi
      exact ⟨_, hmem, htells.start_eq.symm.trans heq⟩
    · intro s hs
      obtain ⟨row, hrow, v, htells⟩ := forall₂_mem h hs
      rw [← htells.start_eq]
      exact hearliest _ (List.mem_map_of_mem hrow)

end

/-! ## Runs -/

/-- Whenever the threads of a process are stopped, `cmd_show` lists from what is durable the spans of
the trace that were given to the sink in passes that are over: the text has each of them once, below
its parent, with all that was recorded on it. If there is none, nothing is printed, and the command
fails. -/
theorem show_recorded (pack : Proto.ExportTraceServiceRequest → Bytes) (g : UInt64 → Bytes)
    (dur : Int64 → Bytes) (service trace : Bytes) (σ₀ σ : Process) (acts : List Act)
    (h0 : σ₀.AtRest) (hv : σ₀.Vacant) (hf : σ₀.Fresh otelSqliteSink)
    (hfin : ∀ x ∈ acts, ∀ s, x.Ends s → Finished s)
    (hrun : (processMachine pack).Run σ₀ acts σ) :
    ∃ st, σ.Recorded service Store.empty st ∧ ∀ rows below,
      ShowRows st.conn.durable trace rows → ShowEvents st.conn.durable below →
      InsertOrder st.conn.durable below →
      ∃ res, (∀ fuel, rows.length < fuel →
          cmdShowText g dur fuel trace rows below = some res) ∧
        let ss := (journal σ.shared.tracer.out).closed.filter fun s =>
          otelSqliteHex s.traceId.toList = trace
        (ss = [] → res.code = 1 ∧ res.stdout = []) ∧
        (ss ≠ [] → res.code = 0 ∧ ∃ f t0 blocks, Listing g dur trace ss res.stdout f t0 blocks) := by
  obtain ⟨-, st, hst⟩ := callsOk_run service Store.empty rfl rfl hfin (callsOk_start h0 hv hf)
    ⟨_, replays_nil hf.calls⟩ hrun
  refine ⟨st, ⟨hst.run, hst.durable, hst.data⟩, ?_⟩
  intro rows below hrows hevents horder
  have hintact := (hst.sound sound_opened).2
  have hids : (st.conn.durable.spans.map SpanRow.id).Nodup := by
    obtain ⟨lo, -, hlo⟩ := hintact.contiguous
    rw [hlo]
    exact List.nodup_range'
  obtain ⟨-, htells⟩ := hst.durable.tells hids hintact.eventIds
  -- the rows of the trace are those of its spans
  have hfilter : st.conn.durable.TellsAll service ((journal σ.shared.tracer.out).closed.filter fun s =>
      otelSqliteHex s.traceId.toList = trace) (st.conn.durable.spans.filter fun row =>
        row.traceId = trace) := by
    refine List.rel_filter ?_ htells
    rintro s row ⟨v, hv⟩
    show decide (otelSqliteHex s.traceId.toList = trace) = true ↔ decide (row.traceId = trace) = true
    rw [hv.trace_eq]
  generalize (journal σ.shared.tracer.out).closed.filter _ = ss at hfilter ⊢
  obtain ⟨ss', hperm, hall⟩ : ∃ ss', ss'.Perm ss ∧ st.conn.durable.TellsAll service ss' rows := by
    have hflip : List.Forall₂ (fun row s => ∃ v, st.conn.durable.Tells service s v row)
      (st.conn.durable.spans.filter fun row => row.traceId = trace) ss := hfilter.flip
    obtain ⟨ss', hall, hperm⟩ := List.perm_comp_forall₂ hrows.perm hflip
    exact ⟨ss', hperm, hall.flip⟩
  have hlength : ss.length = rows.length := by
    rw [← hperm.length_eq]
    exact List.Forall₂.length_eq hall
  by_cases hne : rows = []
  · subst hne
    refine ⟨⟨1, []⟩, fun fuel _ => rfl, fun _ => ⟨rfl, rfl⟩, ?_⟩
    intro hsome
    exact absurd (List.length_eq_zero_iff.mp hlength) hsome
  · obtain ⟨out, f, t0, blocks, hshow, hlisting⟩ := hall.listing hrows.sorted hevents horder hne g dur
      trace
    refine ⟨⟨0, out⟩, hshow, ?_, fun _ => ⟨rfl, f, t0, blocks, hlisting.perm hperm⟩⟩
    intro hnil
    rw [hnil] at hlength
    exact absurd (List.length_eq_zero_iff.mp hlength.symm) hne

/-- What is printed for the one span of a run. -/
theorem show_recorded_sample :
    let s := stampEnd (sampleSession [97]).span 1
    ∃ (σ : Process) (st : OtelSqlite), σ.Recorded [] Store.empty st ∧
      ∀ rows below, ShowRows st.conn.durable (otelSqliteHex s.traceId.toList) rows →
        ShowEvents st.conn.durable below → InsertOrder st.conn.durable below →
        ∃ res f t0 blocks, cmdShowText (fun _ => []) (fun _ => []) (rows.length + 1)
            (otelSqliteHex s.traceId.toList) rows below = some res ∧
          Listing (fun _ => []) (fun _ => []) (otelSqliteHex s.traceId.toList) [s] res.stdout f t0
            blocks := by
  intro s
  obtain ⟨σ, hclosed, h⟩ := storing_run
  obtain ⟨hrest, hvacant, hfresh⟩ := storing_start false
  obtain ⟨st, hst, hshow⟩ := show_recorded _ (fun _ => []) (fun _ => []) []
    (otelSqliteHex s.traceId.toList) _ σ _ hrest hvacant hfresh storingOne_finished h
  refine ⟨σ, st, hst, ?_⟩
  intro rows below hrows hevents horder
  obtain ⟨res, hres, -, hsome⟩ := hshow rows below hrows hevents horder
  have hfilter : ((journal σ.shared.tracer.out).closed.filter fun s' =>
      otelSqliteHex s'.traceId.toList = otelSqliteHex s.traceId.toList) = [s] := by
    rw [hclosed]
    refine List.filter_eq_self.mpr fun s' hs' => ?_
    rw [List.mem_singleton.mp hs']
    exact decide_eq_true rfl
  rw [hfilter] at hsome
  obtain ⟨-, f, t0, blocks, hlisting⟩ := hsome (List.cons_ne_nil s [])
  exact ⟨res, f, t0, blocks, hres _ (Nat.lt_succ_self _), hlisting⟩

end OtelTracing
