import OtelTracing.Show
import Mathlib.Data.Finset.Card
import Mathlib.Data.Fintype.EquivFin

/-!
# Proofs: `otel-trace show`

What a call of `print_subtree` prints is the listing of a forest. The recursion ends because every
call is preceded by the printing of a row that was not printed before.
-/

namespace OtelTracing

open ByteMem Preorder

variable {nodes : List Snode} {t0 : Int64} {parent : Option Bytes} {depth fuel : Nat}
  {st st₁ st₂ : Printing} {s : Snode} {i : Nat} {f kids rest : Forest Nat} {is : List Nat}

/-- The parent id of the node `i` is the span id of the node `p`. -/
def NodeParent (nodes : List Snode) (p i : Nat) : Prop :=
  ∃ q s, nodes[p]? = some q ∧ nodes[i]? = some s ∧ s.parentId = q.spanId

/-- The node `i` belongs under `parent`. -/
def NodeBelongs (nodes : List Snode) (parent : Option Bytes) (i : Nat) : Prop :=
  ∃ s, nodes[i]? = some s ∧ s.belongs nodes parent = true

/-- The forest `f` was printed; among the nodes `is`, all that belong under `parent` are printed
now. -/
structure Printed (nodes : List Snode) (parent : Option Bytes) (depth : Nat) (is : List Nat)
    (st st' : Printing) (f : Forest Nat) : Prop where
  out : st'.out.map ShowLine.pos = st.out.map ShowLine.pos ++ f.lines depth
  flags : ∀ i, st'.printed i = true ↔ st.printed i = true ∨ i ∈ f.labels
  fresh : ∀ i ∈ f.labels, st.printed i = false ∧ i < nodes.length
  nodup : f.labels.Nodup
  linked : f.Linked (NodeParent nodes) (NodeBelongs nodes parent)
  done : ∀ i ∈ is, NodeBelongs nodes parent i → st'.printed i = true
  closed : ∀ p ∈ f.labels, ∀ i, NodeParent nodes p i → st'.printed i = true

/-- The number of the nodes that are not printed. -/
def unprinted (nodes : List Snode) (st : Printing) : Nat :=
  ((Finset.range nodes.length).filter fun i => st.printed i = false).card

theorem unprinted_le (nodes : List Snode) (st : Printing) : unprinted nodes st ≤ nodes.length := by
  unfold unprinted
  exact (Finset.card_filter_le _ _).trans (Finset.card_range _).le

theorem unprinted_mono (h : ∀ i, st.printed i = true → st₁.printed i = true) :
    unprinted nodes st₁ ≤ unprinted nodes st := by
  apply Finset.card_le_card
  intro i hi
  rw [Finset.mem_filter] at hi ⊢
  refine ⟨hi.1, ?_⟩
  by_contra hprinted
  rw [Bool.not_eq_false] at hprinted
  rw [h i hprinted] at hi
  cases hi.2

theorem print_flag (st : Printing) (t0 : Int64) (s : Snode) (i depth j : Nat) :
    (st.print t0 s i depth).printed j = true ↔ st.printed j = true ∨ j = i := by
  show Function.update st.printed i true j = true ↔ _
  by_cases hj : j = i
  · subst hj
    simp
  · rw [Function.update_of_ne hj]
    simp [hj]

theorem unprinted_print (t0 : Int64) (depth : Nat) (hi : nodes[i]? = some s)
    (hno : st.printed i = false) :
    unprinted nodes (st.print t0 s i depth) < unprinted nodes st := by
  have hlt : i < nodes.length := (List.getElem?_eq_some_iff.mp hi).1
  apply Finset.card_lt_card
  refine ⟨?_, ?_⟩
  · intro j hj
    rw [Finset.mem_filter] at hj ⊢
    refine ⟨hj.1, ?_⟩
    by_contra hprinted
    rw [Bool.not_eq_false] at hprinted
    rw [(print_flag st t0 s i depth j).mpr (.inl hprinted)] at hj
    cases hj.2
  · intro hsub
    have hmem := hsub (Finset.mem_filter.mpr ⟨Finset.mem_range.mpr hlt, hno⟩)
    have hflag := (Finset.mem_filter.mp hmem).2
    rw [(print_flag st t0 s i depth i).mpr (.inr rfl)] at hflag
    cases hflag

/-! ## The loop -/

theorem printed_nil (nodes : List Snode) (parent : Option Bytes) (depth : Nat) (st : Printing) :
    Printed nodes parent depth [] st st .nil where
  out := (List.append_nil _).symm
  flags i := by simp [Forest.labels]
  fresh := nofun
  nodup := List.nodup_nil
  linked := trivial
  done := nofun
  closed := nofun

/-- A node is skipped that is printed already, or that does not belong here. -/
theorem Printed.skip (h : Printed nodes parent depth is st st₁ f)
    (hi : NodeBelongs nodes parent i → st.printed i = true) :
    Printed nodes parent depth (i :: is) st st₁ f := by
  refine { h with done := ?_ }
  intro j hj hbelongs
  rcases List.mem_cons.mp hj with rfl | hj
  · exact (h.flags j).mpr (.inl (hi hbelongs))
  · exact h.done j hj hbelongs

/-- A node is printed, then what belongs under it, then the rest of the loop. -/
theorem Printed.node (hs : nodes[i]? = some s) (hno : st.printed i = false)
    (hbelongs : s.belongs nodes parent = true)
    (hkids : Printed nodes (some s.spanId) (depth + 1) (List.range nodes.length)
      (st.print t0 s i depth) st₁ kids)
    (hrest : Printed nodes parent depth is st₁ st₂ rest) :
    Printed nodes parent depth (i :: is) st st₂ (.node i kids rest) := by
  have hflags : ∀ j, st₁.printed j = true ↔
      (st.printed j = true ∨ j = i) ∨ j ∈ kids.labels := by
    intro j
    rw [hkids.flags, print_flag]
  have hkeep : ∀ j, st₁.printed j = true → st₂.printed j = true :=
    fun j hj => (hrest.flags j).mpr (.inl hj)
  have hunder : ∀ j, NodeBelongs nodes (some s.spanId) j ↔ NodeParent nodes i j := by
    intro j
    constructor
    · rintro ⟨r, hr, hparent⟩
      exact ⟨s, r, hs, hr, by simpa [Snode.belongs] using hparent⟩
    · rintro ⟨q, r, hq, hr, hparent⟩
      obtain rfl := Option.some.inj (hs.symm.trans hq)
      exact ⟨r, hr, by simpa [Snode.belongs] using hparent⟩
  -- what was not printed before a part was printed was not printed at all before
  have hbefore : ∀ j, (st.print t0 s i depth).printed j = false → st.printed j = false ∧ j ≠ i := by
    intro j hj
    have hflag := print_flag st t0 s i depth j
    rw [hj] at hflag
    simpa using hflag
  have hfresh : ∀ j, st₁.printed j = false →
      (st.printed j = false ∧ j ≠ i) ∧ j ∉ kids.labels := by
    intro j hj
    have hflag := hflags j
    rw [hj] at hflag
    simpa using hflag
  refine ⟨?_, ?_, ?_, ?_, ⟨⟨s, hs, hbelongs⟩, ?_, hrest.linked⟩, ?_, ?_⟩
  · rw [hrest.out, hkids.out, Printing.print, List.map_append]
    simp [Forest.lines, ShowLine.pos, showLine]
  · intro j
    rw [hrest.flags, hflags]
    simp only [Forest.labels, List.mem_cons, List.mem_append]
    tauto
  · intro j hj
    rcases List.mem_cons.mp hj with rfl | hj
    · exact ⟨hno, (List.getElem?_eq_some_iff.mp hs).1⟩
    · rcases List.mem_append.mp hj with hj | hj
      · exact ⟨(hbefore j (hkids.fresh j hj).1).1, (hkids.fresh j hj).2⟩
      · exact ⟨(hfresh j (hrest.fresh j hj).1).1.1, (hrest.fresh j hj).2⟩
  · refine List.nodup_cons.mpr ⟨?_, List.Nodup.append hkids.nodup hrest.nodup ?_⟩
    · intro hi
      rcases List.mem_append.mp hi with hi | hi
      · exact (hbefore i (hkids.fresh i hi).1).2 rfl
      · exact (hfresh i (hrest.fresh i hi).1).1.2 rfl
    · intro j hj hj'
      exact (hfresh j (hrest.fresh j hj').1).2 hj
  · exact hkids.linked.imp fun j => (hunder j).mp
  · intro j hj hbelongs
    rcases List.mem_cons.mp hj with rfl | hj
    · exact hkeep j ((hflags j).mpr (.inl (.inr rfl)))
    · exact hrest.done j hj hbelongs
  · intro p hp j hparent
    rcases List.mem_cons.mp hp with rfl | hp
    · obtain ⟨q, r, -, hr, -⟩ := id hparent
      have hlt : j < nodes.length := (List.getElem?_eq_some_iff.mp hr).1
      exact hkeep j (hkids.done j (List.mem_range.mpr hlt) ((hunder j).mpr hparent))
    · rcases List.mem_append.mp hp with hp | hp
      · exact hkeep j (hkids.closed p hp j hparent)
      · exact hrest.closed p hp j hparent

/-- One turn of the loop of `printSubtree`; `sub` is the recursive call. -/
def printTurn (nodes : List Snode) (t0 : Int64)
    (sub : Option Bytes → Nat → Printing → Option Printing) (parent : Option Bytes) (depth : Nat)
    (st : Printing) (i : Nat) : Option Printing :=
  match nodes[i]? with
  | none => some st
  | some s =>
    if st.printed i || !s.belongs nodes parent then some st
    else sub (some s.spanId) (depth + 1) (st.print t0 s i depth)

theorem printSubtree_succ (nodes : List Snode) (t0 : Int64) (fuel : Nat) (parent : Option Bytes)
    (depth : Nat) (st : Printing) : printSubtree nodes t0 (fuel + 1) parent depth st =
      (List.range nodes.length).foldlM (printTurn nodes t0 (printSubtree nodes t0 fuel) parent depth)
        st := rfl

/-- With more fuel than there are nodes left to print, the call ends, whatever the fuel is. -/
theorem printSubtree_spec (nodes : List Snode) (t0 : Int64) (n : Nat) (parent : Option Bytes)
    (depth : Nat) (st : Printing) (hn : unprinted nodes st < n) :
    ∃ st' f, (∀ fuel, n ≤ fuel → printSubtree nodes t0 fuel parent depth st = some st') ∧
      Printed nodes parent depth (List.range nodes.length) st st' f := by
  induction n generalizing parent depth st with
  | zero => exact absurd hn (Nat.not_lt_zero _)
  | succ n ih =>
    -- the rest of the loop starts in the state that is left by its first turns
    have hloop : ∀ is st, unprinted nodes st ≤ n → ∃ st' f, (∀ fuel, n ≤ fuel →
        is.foldlM (printTurn nodes t0 (printSubtree nodes t0 fuel) parent depth) st = some st') ∧
        Printed nodes parent depth is st st' f := by
      intro is
      induction is with
      | nil => exact fun st _ => ⟨st, .nil, fun _ _ => rfl, printed_nil nodes parent depth st⟩
      | cons i is ihis =>
        intro st hle
        simp only [List.foldlM_cons, printTurn]
        cases hs : nodes[i]? with
        | none =>
          obtain ⟨st', f, hrun, hprinted⟩ := ihis st hle
          refine ⟨st', f, hrun, hprinted.skip ?_⟩
          rintro ⟨s, hsome, -⟩
          rw [hs] at hsome
          cases hsome
        | some s =>
          by_cases hskip : st.printed i || !s.belongs nodes parent
          · simp only [hskip]
            obtain ⟨st', f, hrun, hprinted⟩ := ihis st hle
            refine ⟨st', f, hrun, hprinted.skip ?_⟩
            rintro ⟨r, hsome, hbelongs⟩
            obtain rfl := Option.some.inj (hs.symm.trans hsome)
            rw [hbelongs] at hskip
            simpa using hskip
          · simp only [hskip]
            rw [Bool.not_eq_true, Bool.or_eq_false_iff, Bool.not_eq_false'] at hskip
            obtain ⟨hno, hbelongs⟩ := hskip
            have hlt := Nat.lt_of_lt_of_le (unprinted_print t0 depth hs hno) hle
            obtain ⟨st₁, kids, hkidsrun, hkids⟩ := ih (some s.spanId) (depth + 1) _ hlt
            have hle₁ : unprinted nodes st₁ ≤ n :=
              (unprinted_mono fun j hj => (hkids.flags j).mpr (.inl hj)).trans hlt.le
            obtain ⟨st₂, rest, hrestrun, hrest⟩ := ihis st₁ hle₁
            refine ⟨st₂, .node i kids rest, ?_, Printed.node hs hno hbelongs hkids hrest⟩
            intro fuel hfuel
            rw [if_neg Bool.false_ne_true, hkidsrun fuel hfuel]
            exact hrestrun fuel hfuel
    obtain ⟨st', f, hrun, hprinted⟩ :=
      hloop (List.range nodes.length) st (Nat.le_of_lt_succ hn)
    refine ⟨st', f, ?_, hprinted⟩
    intro fuel hfuel
    obtain ⟨fuel, rfl⟩ := Nat.exists_eq_add_of_lt hfuel
    rw [printSubtree_succ]
    exact hrun _ (Nat.le_add_right n fuel)

/-! ## Rows -/

variable {rows : List ShowRow}

/-- Ids that fit the buffers of `struct snode`. -/
def ShowRow.Short (r : ShowRow) : Prop := r.span.length ≤ 19 ∧ r.parent.length ≤ 19

instance (r : ShowRow) : Decidable r.Short := inferInstanceAs (Decidable (_ ∧ _))

theorem snode_ids {r : ShowRow} (h : r.Short) : r.snode.spanId = r.span ∧ r.snode.parentId = r.parent :=
  ⟨List.take_of_length_le h.1, List.take_of_length_le h.2⟩

theorem getElem?_snode (rows : List ShowRow) (i : Nat) (s : Snode) :
    (rows.map ShowRow.snode)[i]? = some s ↔ ∃ r, rows[i]? = some r ∧ r.snode = s := by
  rw [List.getElem?_map, Option.map_eq_some_iff]

theorem nodeParent_iff (h : ∀ r ∈ rows, r.Short) (p i : Nat) :
    NodeParent (rows.map ShowRow.snode) p i ↔ ParentRow rows p i := by
  constructor
  · rintro ⟨q, s, hq, hs, hparent⟩
    obtain ⟨q', hq', rfl⟩ := (getElem?_snode rows p q).mp hq
    obtain ⟨r, hr, rfl⟩ := (getElem?_snode rows i s).mp hs
    refine ⟨q', r, hq', hr, ?_⟩
    rw [(snode_ids (h r (List.mem_of_getElem? hr))).2,
      (snode_ids (h q' (List.mem_of_getElem? hq'))).1] at hparent
    exact hparent
  · rintro ⟨q, r, hq, hr, hparent⟩
    refine ⟨q.snode, r.snode, (getElem?_snode ..).mpr ⟨q, hq, rfl⟩,
      (getElem?_snode ..).mpr ⟨r, hr, rfl⟩, ?_⟩
    rw [(snode_ids (h r (List.mem_of_getElem? hr))).2, (snode_ids (h q (List.mem_of_getElem? hq))).1]
    exact hparent

theorem nodeBelongs_iff (h : ∀ r ∈ rows, r.Short) (i : Nat) :
    NodeBelongs (rows.map ShowRow.snode) none i ↔ IsRoot rows i := by
  have hbelongs : ∀ r ∈ rows, r.snode.belongs (rows.map ShowRow.snode) none = true ↔
      (r.parent = [] ∨ ∀ q ∈ rows, q.span ≠ r.parent) := by
    intro r hr
    simp only [Snode.belongs, Bool.or_eq_true, decide_eq_true_eq, Bool.not_eq_true',
      List.any_eq_false, List.mem_map, forall_exists_index, and_imp, forall_apply_eq_imp_iff₂]
    rw [(snode_ids (h r hr)).2]
    refine or_congr_right (forall₂_congr fun q hq => ?_)
    rw [(snode_ids (h q hq)).1]
  constructor
  · rintro ⟨s, hs, hroot⟩
    obtain ⟨r, hr, rfl⟩ := (getElem?_snode rows i s).mp hs
    exact ⟨r, hr, (hbelongs r (List.mem_of_getElem? hr)).mp hroot⟩
  · rintro ⟨r, hr, hroot⟩
    exact ⟨r.snode, (getElem?_snode ..).mpr ⟨r, hr, rfl⟩,
      (hbelongs r (List.mem_of_getElem? hr)).mpr hroot⟩

/-- Without a cycle, every row is shown. -/
theorem shown_of_acyclic (h : Acyclic rows) (i : Nat) (hi : i < rows.length) : Shown rows i := by
  -- on the finitely many rows, the ancestor relation is well-founded
  let above : Fin rows.length → Fin rows.length → Prop :=
    fun p i => Relation.TransGen (HasParent rows) p i
  have htrans : IsTrans _ above := ⟨fun _ _ _ => Relation.TransGen.trans⟩
  have hirrefl : Std.Irrefl above := ⟨fun i => h i⟩
  have hwf : WellFounded above := Finite.wellFounded_of_trans_of_irrefl above
  suffices hshown : ∀ i : Fin rows.length, Shown rows i from hshown ⟨i, hi⟩
  intro i
  induction i using hwf.induction with
  | h i ih =>
    have hr : rows[i.1]? = some rows[i] := List.getElem?_eq_getElem i.2
    by_cases hroot : IsRoot rows i
    · exact .root hroot
    · have hparent : rows[i].parent ≠ [] := fun hnil => hroot ⟨rows[i], hr, .inl hnil⟩
      have hknown : ∃ q ∈ rows, q.span = rows[i].parent := by
        by_contra hnone
        exact hroot ⟨rows[i], hr, .inr fun q hq heq => hnone ⟨q, hq, heq⟩⟩
      obtain ⟨q, hq, hspan⟩ := hknown
      obtain ⟨p, hp, rfl⟩ := List.getElem_of_mem hq
      have hedge : ParentRow rows p i :=
        ⟨rows[p], rows[i], List.getElem?_eq_getElem hp, hr, hspan.symm⟩
      exact .child (ih ⟨p, hp⟩ (.single ⟨hedge, rows[i], hr, hparent⟩)) hedge

theorem IsRoot.lt (h : IsRoot rows i) : i < rows.length := by
  obtain ⟨r, hr, -⟩ := h
  exact (List.getElem?_eq_some_iff.mp hr).1

theorem Shown.lt (h : Shown rows i) : i < rows.length := by
  cases h with
  | root h => exact h.lt
  | child _ h =>
    obtain ⟨q, r, -, hr, -⟩ := h
    exact (List.getElem?_eq_some_iff.mp hr).1

/-- What the call of `cmd_show` prints. -/
theorem cmdShow_spec (rows : List ShowRow) (hne : rows ≠ []) :
    ∃ st f, (∀ fuel, rows.length < fuel → cmdShow fuel rows = some (.tree rows.length st.out)) ∧
      Printed (rows.map ShowRow.snode) none 0 (List.range (rows.map ShowRow.snode).length)
        ⟨fun _ => false, []⟩ st f := by
  have hlength : (rows.map ShowRow.snode).length = rows.length := List.length_map ..
  have hle := unprinted_le (rows.map ShowRow.snode) ⟨fun _ => false, []⟩
  obtain ⟨st, f, hrun, hprinted⟩ := printSubtree_spec (rows.map ShowRow.snode)
    (earliest (rows.map ShowRow.snode)) (rows.length + 1) none 0 ⟨fun _ => false, []⟩ (by omega)
  refine ⟨st, f, ?_, hprinted⟩
  intro fuel hfuel
  unfold cmdShow
  rw [if_neg (by rwa [hlength, List.length_eq_zero_iff]), hrun fuel hfuel, hlength]
  rfl

/-- `print_subtree` ends for all rows and prints none twice. It prints the rows without a parent among
the rows, and what is below them: every other row in the subtree of a parent, one level deeper. Without
a cycle of parents, each of the announced rows is printed once. -/
theorem show_tree (rows : List ShowRow) (hshort : ∀ r ∈ rows, r.Short) :
    ∃ res, (∀ fuel, rows.length < fuel → cmdShow fuel rows = some res) ∧
      (res.lines.map ShowLine.row).Nodup ∧
      (∀ i, i ∈ res.lines.map ShowLine.row ↔ Shown rows i) ∧
      (∀ l ∈ res.lines, ¬ IsRoot rows l.row → ∃ l' ∈ res.lines, ParentRow rows l'.row l.row ∧
        Under (res.lines.map ShowLine.pos) l'.pos l.pos) ∧
      (Acyclic rows → rows ≠ [] → ∃ lines, res = .tree rows.length lines ∧
        (List.range rows.length).Perm (lines.map ShowLine.row)) := by
  by_cases hne : rows = []
  · subst hne
    refine ⟨.noSpans, fun fuel _ => rfl, List.nodup_nil, ?_, nofun, fun _ h => absurd rfl h⟩
    intro i
    exact iff_of_false (List.not_mem_nil) fun h => absurd h.lt (Nat.not_lt_zero i)
  · obtain ⟨st, f, hrun, hprinted⟩ := cmdShow_spec rows hne
    have hout : st.out.map ShowLine.pos = f.lines 0 := hprinted.out
    have hlabels : st.out.map ShowLine.row = f.labels := by
      rw [← map_fst_lines f 0, ← hout, List.map_map]
      rfl
    have hprint : ∀ i, st.printed i = true ↔ i ∈ f.labels := by
      intro i
      rw [hprinted.flags]
      simp
    have hmem : ∀ i, i ∈ f.labels ↔ Shown rows i := by
      intro i
      constructor
      · refine hprinted.linked.forall_labels ?_ ?_ i
        · intro i hi
          exact .root ((nodeBelongs_iff hshort i).mp hi)
        · intro p i hp hparent
          exact .child hp ((nodeParent_iff hshort p i).mp hparent)
      · intro hshown
        induction hshown with
        | @root i hroot =>
          rw [← hprint]
          refine hprinted.done i ?_ ((nodeBelongs_iff hshort i).mpr hroot)
          rw [List.mem_range, List.length_map]
          exact hroot.lt
        | @child p i _ hparent ih =>
          rw [← hprint]
          exact hprinted.closed p ih i ((nodeParent_iff hshort p i).mpr hparent)
    refine ⟨.tree rows.length st.out, hrun, ?_, ?_, ?_, ?_⟩
    · show (st.out.map ShowLine.row).Nodup
      rw [hlabels]
      exact hprinted.nodup
    · intro i
      show i ∈ st.out.map ShowLine.row ↔ _
      rw [hlabels, hmem]
    · intro l hl hroot
      have hpos : l.pos ∈ f.lines 0 := by
        rw [← hout]
        exact List.mem_map_of_mem hl
      rcases hprinted.linked.under hpos with ⟨-, htop⟩ | ⟨p, hparent, hunder⟩
      · exact absurd ((nodeBelongs_iff hshort l.row).mp htop) hroot
      · have hp := hunder.mem
        rw [← hout] at hp hunder
        obtain ⟨l', hl', rfl⟩ := List.mem_map.mp hp
        exact ⟨l', hl', (nodeParent_iff hshort _ _).mp hparent, hunder⟩
    · intro hacyclic _
      refine ⟨st.out, rfl, ?_⟩
      rw [hlabels, List.perm_ext_iff_of_nodup List.nodup_range hprinted.nodup]
      intro i
      rw [hmem, List.mem_range]
      exact ⟨shown_of_acyclic hacyclic i, Shown.lt⟩

/-- A row with the ids `span` and `parent`. -/
def idRow (span : Bytes) (parent : Option Bytes) : ShowRow where
  spanId := some span
  parentId := parent
  name := none
  kind := 0
  statusCode := 0
  statusMessage := none
  startUnixNs := 0
  endUnixNs := 0

/-- A child before its parent, and two rows that are each other's parents. -/
theorem show_tree_sample : ∃ res,
    (∀ fuel, 4 < fuel → cmdShow fuel [idRow [2] (some [1]), idRow [1] none, idRow [3] (some [4]),
      idRow [4] (some [3])] = some res) ∧
    (res.lines.map ShowLine.row).Nodup := by
  obtain ⟨res, hrun, hnodup, -⟩ := show_tree [idRow [2] (some [1]), idRow [1] none,
    idRow [3] (some [4]), idRow [4] (some [3])] (by decide)
  exact ⟨res, hrun, hnodup⟩

end OtelTracing
