import OtelTracing.Proofs.RetentionProofs

/-!
# Proofs: what a prune keeps

A prune whose statements succeed deletes the spans up to a cutoff, with all rows below them. As long
as the limit is a positive signed number the cutoff leaves the newest spans, as many as the limit
says. A larger limit is read as a negative number, and the cutoff is then above all ids.
-/

namespace OtelTracing

open ByteMem Txn Outcome

variable {service : Bytes} {st : OtelSqlite} {db : Store}

/-! ## The cutoff -/

theorem toInt_toInt64 (m : UInt64) : m.toInt64.toInt = (m.toNat : Int).bmod (2 ^ 64) :=
  BitVec.toInt_eq_toNat_bmod m.toBitVec

/-- The cutoff is the largest id less the limit, unless the limit is read as a negative number and
the difference does not overflow. -/
theorem cutoff_toInt {n : Nat} (hn : n < 2 ^ 63) (m : UInt64) :
    (Int64.ofNat n - m.toInt64).toInt =
      if 2 ^ 63 ≤ m.toNat ∧ n + (2 ^ 64 - m.toNat) < 2 ^ 63 then (n : Int) + 2 ^ 64 - m.toNat
      else (n : Int) - m.toNat := by
  have hm := m.toNat_lt
  rw [Int64.toInt_sub, Int64.toInt_ofNat_of_lt hn, toInt_toInt64]
  simp only [Int.bmod_def]
  split_ifs <;> omega

/-- A prune whose statements succeed. -/
theorem prune_done (hdone : ∀ r ∈ st.conn.answers, r = Answer.done) (hmax : st.maxSpans ≠ 0) :
    (otelSqlitePrune st).conn.data =
      if Int64.ofNat (maxId (st.conn.data.spans.map SpanRow.id)) - st.maxSpans.toInt64 ≤ 0 then
        st.conn.data
      else
        applyAll (pruneStatements (Int64.ofNat (maxId (st.conn.data.spans.map SpanRow.id)) -
          st.maxSpans.toInt64)) st.conn.data := by
  obtain ⟨as, has, hprepare⟩ := exec_done hdone id
  obtain ⟨bs, hbs, hselect⟩ := exec_done (c := { st.conn with answers := as }) has id
  simp only [otelSqlitePrune, hmax, if_false, hprepare, id, Bool.not_true, Bool.false_eq_true]
  simp only [id] at hselect
  simp only [hselect, if_true]
  split_ifs
  · rfl
  · obtain ⟨cs, -, hall⟩ := execAll_done (c := { st.conn with answers := bs }) hbs
      (pruneStatements _)
    rw [hall]

theorem applyAll_prune (cutoff : Int64) (db : Store) :
    applyAll (pruneStatements cutoff) db = db.pruned cutoff.toInt := by
  simp only [pruneStatements, applyAll, List.foldl, not_old, Store.pruned]

/-! ## The spans that are kept -/

/-- In an interval of ids, those above `c` are the last ones. -/
theorem filter_eq_drop {α : Type} {f : α → Nat} {xs : List α} {lo : Nat}
    (h : xs.map f = List.range' lo xs.length) (c : Int) :
    xs.filter (fun x => c < f x) = xs.drop ((c + 1).toNat - lo) := by
  induction xs generalizing lo with
  | nil => simp
  | cons x xs ih =>
    rw [List.map_cons, List.length_cons, List.range'_succ, List.cons.injEq] at h
    obtain ⟨hx, hxs⟩ := h
    have hrest := ih hxs
    rw [List.filter_cons]
    split_ifs with hc
    · simp only [hx, decide_eq_true_eq] at hc
      have hzero : (c + 1).toNat - lo = 0 := by omega
      have hzero' : (c + 1).toNat - (lo + 1) = 0 := by omega
      rw [hrest, hzero, hzero', List.drop_zero, List.drop_zero]
    · simp only [hx, decide_eq_true_eq] at hc
      have hsucc : (c + 1).toNat - lo = (c + 1).toNat - (lo + 1) + 1 := by omega
      rw [hrest, hsucc, List.drop_succ_cons]

theorem maxId_contiguous {ids : List Nat} {lo : Nat} (h : ids = List.range' lo ids.length)
    (hne : ids ≠ []) : maxId ids + 1 = lo + ids.length := by
  cases hn : ids.length with
  | zero => exact absurd (List.length_eq_zero_iff.mp hn) hne
  | succ n =>
    rw [hn] at h
    rw [h, maxId_range', Nat.add_assoc]

/-- The ids of the kept spans. -/
theorem mem_pruned_ids {c : Int} {i : Nat} :
    i ∈ (db.pruned c).spans.map SpanRow.id ↔ i ∈ db.spans.map SpanRow.id ∧ c < i := by
  simp only [Store.pruned, List.mem_map, List.mem_filter, decide_eq_true_eq]
  constructor
  · rintro ⟨r, ⟨hr, hlt⟩, rfl⟩
    exact ⟨⟨r, hr, rfl⟩, hlt⟩
  · rintro ⟨⟨r, hr, rfl⟩, hlt⟩
    exact ⟨r, ⟨hr, hlt⟩, rfl⟩

/-- Below the kept spans everything is kept, and below the others nothing. -/
theorem Store.Intact.retains_pruned (h : db.Intact) (m : Nat) :
    db.Retains (db.pruned ((maxId (db.spans.map SpanRow.id) : Int) - m)) m where
  spans := by
    obtain ⟨lo, hlo, hids⟩ := h.contiguous
    refine List.filter_congr fun r hr => ?_
    have hlast := maxId_contiguous (by rw [List.length_map]; exact hids)
      (List.ne_nil_of_mem (List.mem_map_of_mem hr))
    have hmem : r.id ∈ List.range' lo db.spans.length := by
      rw [← hids]
      exact List.mem_map_of_mem hr
    obtain ⟨i, hi, hid⟩ := List.mem_range'.mp hmem
    -- as many spans are newer as there are larger ids
    have hnewer := congrArg List.length (filter_eq_drop hids (r.id : Int))
    simp only [Nat.cast_lt, List.length_drop] at hnewer
    rw [hnewer, decide_eq_decide]
    rw [List.length_map] at hlast
    omega
  length := by
    obtain ⟨lo, hlo, hids⟩ := h.contiguous
    simp only [Store.pruned, filter_eq_drop hids, List.length_drop]
    cases hspans : db.spans with
    | nil => simp
    | cons r rs =>
      have hlast := maxId_contiguous (by rw [List.length_map]; exact hids) (by simp [hspans])
      rw [List.length_map, hspans] at hlast
      omega
  spanAttrs := by
    refine List.filter_congr fun a ha => ?_
    obtain ⟨r, hr, hid, -⟩ := h.spanAttrs a ha
    have hmem : a.owner ∈ db.spans.map SpanRow.id := List.mem_map.mpr ⟨r, hr, hid⟩
    simp [mem_pruned_ids, hmem]
  spanEvents := by
    refine List.filter_congr fun e he => ?_
    obtain ⟨r, hr, hid, -⟩ := h.spanEvents e he
    have hmem : e.span ∈ db.spans.map SpanRow.id := List.mem_map.mpr ⟨r, hr, hid⟩
    simp [mem_pruned_ids, hmem]
  spanEventAttrs := by
    generalize (maxId (db.spans.map SpanRow.id) : Int) - m = c
    refine List.filter_congr fun a ha => ?_
    obtain ⟨e, he, hid, -⟩ := h.eventAttrs a ha
    have hiff : (∀ e ∈ db.spanEvents, (e.span : Int) ≤ c → ¬ e.id = a.owner) ↔
        a.owner ∈ (db.pruned c).spanEvents.map EventRow.id := by
      simp only [Store.pruned, List.mem_map, List.mem_filter, decide_eq_true_eq]
      constructor
      · intro hall
        refine ⟨e, ⟨he, ?_⟩, hid⟩
        by_contra hle
        exact hall e he (Int.not_lt.mp hle) hid
      · rintro ⟨e', ⟨he', hlt⟩, hid'⟩ e'' he'' hle hid''
        rw [List.inj_on_of_nodup_map h.eventIds he'' he' (hid''.trans hid'.symm)] at hle
        omega
    rw [Bool.eq_iff_iff, decide_eq_true_iff, ← hiff]
    simp only [Bool.not_eq_true', List.any_eq_false, Bool.and_eq_true, decide_eq_true_eq, beq_iff_eq,
      not_and]

/-- A store without old spans is left unchanged. -/
theorem Store.Intact.pruned_eq (h : db.Intact) {c : Int}
    (hc : ∀ r ∈ db.spans, c < r.id) : db.pruned c = db := by
  have hspan : ∀ i, (∃ r ∈ db.spans, r.id = i) → c < (i : Int) := by
    rintro _ ⟨r, hr, rfl⟩
    exact hc r hr
  have h1 : db.spans.filter (fun r => decide (c < (r.id : Int))) = db.spans :=
    List.filter_eq_self.mpr fun r hr => by simpa using hc r hr
  have h2 : db.spanAttrs.filter (fun a => decide (c < (a.owner : Int))) = db.spanAttrs :=
    List.filter_eq_self.mpr fun a ha => by
      obtain ⟨r, hr, hid, -⟩ := h.spanAttrs a ha
      simpa using hspan a.owner ⟨r, hr, hid⟩
  have hevents : ∀ e ∈ db.spanEvents, c < (e.span : Int) := by
    intro e he
    obtain ⟨r, hr, hid, -⟩ := h.spanEvents e he
    exact hspan e.span ⟨r, hr, hid⟩
  have h3 : db.spanEvents.filter (fun e => decide (c < (e.span : Int))) = db.spanEvents :=
    List.filter_eq_self.mpr fun e he => by simpa using hevents e he
  have h4 : db.spanEventAttrs.filter (fun a => !db.spanEvents.any fun e =>
      decide ((e.span : Int) ≤ c) && e.id == a.owner) = db.spanEventAttrs :=
    List.filter_eq_self.mpr fun a ha => by
      simp only [Bool.not_eq_true', List.any_eq_false, Bool.and_eq_true, decide_eq_true_eq, not_and]
      intro e he hle
      have := hevents e he
      omega
  rw [Store.pruned, h1, h2, h3, h4]

/-! ## The limit -/

theorem mem_ids_pos (h : db.Intact) {r : SpanRow} (hr : r ∈ db.spans) :
    1 ≤ r.id ∧ r.id ≤ maxId (db.spans.map SpanRow.id) := by
  obtain ⟨lo, hlo, hids⟩ := h.contiguous
  have hmem : r.id ∈ db.spans.map SpanRow.id := List.mem_map_of_mem hr
  refine ⟨?_, le_maxId hmem⟩
  rw [hids] at hmem
  obtain ⟨i, -, hid⟩ := List.mem_range'.mp hmem
  omega

theorem maxId_lt {ids : List Nat} {n : Nat} (hn : 0 < n) (h : ∀ i ∈ ids, i < n) : maxId ids < n := by
  induction ids with
  | nil => exact hn
  | cons i ids ih =>
    exact Nat.max_lt.mpr ⟨h i (by simp), ih fun j hj => h j (List.mem_cons_of_mem _ hj)⟩

/-- A prune whose statements succeed keeps the newest spans, as many as the limit says, with all that
is below them, exactly if the limit is below `2 ^ 63`, or there is no span, or the difference of the
largest id and the limit overflows. -/
theorem prune_retains (service : Bytes) (ops : List StoreOp) (st : OtelSqlite)
    (answers : List Answer)
    (h : (storeMachine service).Run (OtelSqlite.opened Store.empty) ops st)
    (hids : ∀ r ∈ st.conn.data.spans, r.id < 2 ^ 63) (hdone : ∀ r ∈ answers, r = Answer.done)
    (hmax : st.maxSpans ≠ 0) :
    st.conn.data.Retains (otelSqlitePrune (st.expect answers)).conn.data st.maxSpans.toNat ↔
      st.maxSpans.toNat < 2 ^ 63 ∨ st.conn.data.spans = [] ∨
        2 ^ 63 ≤ maxId (st.conn.data.spans.map SpanRow.id) + (2 ^ 64 - st.maxSpans.toNat) := by
  have hintact := (sound_run h).intact
  have hlast : maxId (st.conn.data.spans.map SpanRow.id) < 2 ^ 63 :=
    maxId_lt (by decide) (by simpa using hids)
  have hanswers : ∀ r ∈ (st.expect answers).conn.answers, r = Answer.done := hdone
  have hprune := prune_done hanswers hmax
  have hcutoff := cutoff_toInt hlast st.maxSpans
  have hdata : (st.expect answers).conn.data = st.conn.data := rfl
  have hlimit : (st.expect answers).maxSpans = st.maxSpans := rfl
  rw [applyAll_prune, hdata, hlimit] at hprune
  simp only [Int64.le_iff_toInt_le, Int64.toInt_zero] at hprune
  by_cases hlarge : 2 ^ 63 ≤ st.maxSpans.toNat ∧
      maxId (st.conn.data.spans.map SpanRow.id) + (2 ^ 64 - st.maxSpans.toNat) < 2 ^ 63
  · -- the cutoff is above all ids
    rw [if_pos hlarge] at hcutoff
    have hlt := st.maxSpans.toNat_lt
    rw [hcutoff, if_neg (by omega)] at hprune
    have hempty : (otelSqlitePrune (st.expect answers)).conn.data.spans = [] := by
      rw [hprune]
      refine List.filter_eq_nil_iff.mpr fun r hr => ?_
      have := (mem_ids_pos hintact hr).2
      simp only [decide_eq_true_eq]
      omega
    constructor
    · intro hretains
      have hlen := hretains.length
      rw [hempty, List.length_nil] at hlen
      refine Or.inr (Or.inl (List.length_eq_zero_iff.mp ?_))
      omega
    · rintro (hsmall | hnone | hover)
      · omega
      · -- an empty store is left unchanged
        have hsame := hintact.pruned_eq
          (c := (maxId (st.conn.data.spans.map SpanRow.id) : Int) + 2 ^ 64 - st.maxSpans.toNat)
          (by simp [hnone])
        have hsame' := hintact.pruned_eq
          (c := (maxId (st.conn.data.spans.map SpanRow.id) : Int) - st.maxSpans.toNat)
          (by simp [hnone])
        rw [hprune, hsame, ← hsame']
        nth_rewrite 1 [hsame']
        exact hintact.retains_pruned _
      · omega
  · rw [if_neg hlarge] at hcutoff
    rw [hcutoff] at hprune
    have hpruned : (otelSqlitePrune (st.expect answers)).conn.data = st.conn.data.pruned
        ((maxId (st.conn.data.spans.map SpanRow.id) : Int) - st.maxSpans.toNat) := by
      rw [hprune]
      split_ifs with hle
      · refine (hintact.pruned_eq fun r hr => ?_).symm
        have := (mem_ids_pos hintact hr).1
        omega
      · rfl
    rw [hpruned]
    refine iff_of_true (hintact.retains_pruned _) ?_
    by_cases hsmall : st.maxSpans.toNat < 2 ^ 63
    · exact Or.inl hsmall
    · exact Or.inr (Or.inr (by omega))

theorem prune_retains_sample : ∃ st : OtelSqlite, st.conn.data.spans.length = 2 ∧
    (st.conn.data.Retains (otelSqlitePrune (st.expect [])).conn.data st.maxSpans.toNat ↔
      st.maxSpans.toNat < 2 ^ 63 ∨ st.conn.data.spans = [] ∨
        2 ^ 63 ≤ maxId (st.conn.data.spans.map SpanRow.id) + (2 ^ 64 - st.maxSpans.toNat)) :=
  ⟨_, rfl, prune_retains [] [.call (.begin []), .call (.span (sampleSession [104]).span []),
      .call (.span (sampleSession [105]).span []), .call (.setMaxSpans 1)] _ []
    (.cons List.not_mem_nil rfl
      (.cons List.not_mem_nil rfl
        (.cons List.not_mem_nil rfl
          (.cons List.not_mem_nil rfl .nil))))
    (fun r hr => by
      have hid : r.id ∈ [1, 2] := List.mem_map_of_mem (f := SpanRow.id) hr
      simp only [List.mem_cons, List.not_mem_nil, or_false] at hid
      omega) (by simp) (by decide)⟩

/-- With the largest limit a prune deletes a store of one span. -/
theorem prune_retains_none : ∃ st : OtelSqlite,
    (storeMachine []).Run (OtelSqlite.opened Store.empty) [.call (.begin []),
      .call (.span (sampleSession [104]).span []), .call (.finish []),
      .call (.setMaxSpans 18446744073709551615)] st ∧
    st.conn.data.spans.length = 1 ∧ (otelSqlitePrune (st.expect [])).conn.data.spans = [] :=
  ⟨_, .cons List.not_mem_nil rfl
    (.cons List.not_mem_nil rfl
      (.cons List.not_mem_nil rfl
        (.cons List.not_mem_nil rfl .nil))), rfl, rfl⟩

end OtelTracing
