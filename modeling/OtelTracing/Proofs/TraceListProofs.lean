import OtelTracing.TraceList
import OtelTracing.Proofs.QueryProofs

/-!
# Proofs: `otel-trace list`

A line is right exactly if all rows of its trace passed the row filters; the rest is a comparison of
two ways to select the most recent traces.
-/

namespace OtelTracing

open ByteMem Limit

variable {now : Int64} {f : Filters} {g : Given} {db : Store} {t : Bytes} {l : ListLine}
  {rows sub : List SpanRow} {row : SpanRow} {p : SpanRow → Bool}

set_option maxRecDepth 2000 in
theorem matched_list (now : Int64) (f : Filters) : Matched listHead listTail now f :=
  matched (by decide) now f

/-! ## Traces -/

theorem nodup_tracesOf (rows : List SpanRow) : (tracesOf rows).Nodup := List.nodup_dedup _

theorem mem_tracesOf : t ∈ tracesOf rows ↔ traceRows rows t ≠ [] := by
  unfold tracesOf traceRows
  rw [List.mem_dedup, List.mem_map, Ne, List.filter_eq_nil_iff]
  simp

theorem traceRows_filter (rows : List SpanRow) (p : SpanRow → Bool) (t : Bytes) :
    traceRows (rows.filter p) t = (traceRows rows t).filter p := by
  unfold traceRows
  rw [List.filter_filter, List.filter_filter]
  simp only [Bool.and_comm]

theorem minStart_le (h : row ∈ rows) : minStart rows ≤ row.start := by
  have hmem : row.start ∈ rows.map SpanRow.start := List.mem_map_of_mem h
  unfold minStart
  cases hmin : (rows.map SpanRow.start).min? with
  | none =>
    rw [List.min?_eq_none_iff] at hmin
    rw [hmin] at hmem
    cases hmem
  | some n => exact (List.min?_eq_some_iff.mp hmin).2 _ hmem

theorem exists_minStart (h : rows ≠ []) : ∃ row ∈ rows, row.start = minStart rows := by
  unfold minStart
  cases hmin : (rows.map SpanRow.start).min? with
  | none =>
    rw [List.min?_eq_none_iff, List.map_eq_nil_iff] at hmin
    exact absurd hmin h
  | some n => exact List.mem_map.mp (List.min?_eq_some_iff.mp hmin).1

theorem minStart_anti (hsub : sub ⊆ rows) (h : sub ≠ []) : minStart rows ≤ minStart sub := by
  obtain ⟨row, hmem, heq⟩ := exists_minStart h
  rw [← heq]
  exact minStart_le (hsub hmem)

theorem columnInt64_minStart (h : rows ≠ []) : columnInt64 (minStart rows) = minStart rows := by
  obtain ⟨row, -, heq⟩ := exists_minStart h
  have hlow := row.startUnixNs.le_toInt
  have hhigh := row.startUnixNs.toInt_lt
  unfold SpanRow.start at heq
  unfold columnInt64
  omega

/-! ## Lines -/

theorem exists_line (h : t ∈ tracesOf (db.spans.filter p)) :
    ∃ l, TraceLine db (db.spans.filter p) t l := by
  rw [mem_tracesOf] at h
  obtain ⟨row, hrow⟩ := List.exists_mem_of_ne_nil _ h
  rw [traceRows_filter] at hrow
  have hmem : row ∈ traceRows db.spans t := List.mem_of_mem_filter hrow
  let line (root : Bytes) : ListLine :=
    { trace := t, service := row.service
      start := columnInt64 (minStart (traceRows (db.spans.filter p) t))
      duration := columnInt64 (extent (traceRows (db.spans.filter p) t))
      spans := columnInt (traceRows (db.spans.filter p) t).length
      root := root, error := anyError (traceRows (db.spans.filter p) t) }
  have hspans : ∀ root,
      (line root).spans = columnInt (traceRows (db.spans.filter p) t).length := by
    intro root
    simp only [line]
  by_cases hroot : ∃ row ∈ traceRows db.spans t, row.parentId = none
  · obtain ⟨root, hroot, hparent⟩ := hroot
    exact ⟨line root.name, rfl, rfl, rfl, hspans _, rfl, .inl ⟨root, hroot, hparent, rfl⟩, row,
      hmem, rfl⟩
  · refine ⟨line (ascii "(no root)"), rfl, rfl, rfl, hspans _, rfl, .inr ⟨?_, rfl⟩, row, hmem, rfl⟩
    intro root hmem hparent
    exact hroot ⟨root, hmem, hparent⟩

theorem columnInt_eq_iff {m n : Nat} (hle : m ≤ n) :
    columnInt m = n ↔ m = n ∧ n < 2 ^ 31 := by
  unfold columnInt
  constructor
  · intro h
    have hlt := Int.bmod_lt (x := m) (m := 2 ^ 32) (by decide)
    have hn : n < 2 ^ 31 := by omega
    rw [Int.bmod_eq_of_le (by omega) (by omega)] at h
    omega
  · rintro ⟨rfl, hn⟩
    exact Int.bmod_eq_of_le (by omega) (by omega)

theorem columnInt64_eq_iff {n : Int} : columnInt64 n = n ↔ -2 ^ 63 ≤ n ∧ n < 2 ^ 63 := by
  unfold columnInt64
  omega

/-- The line of a trace says how the whole trace is, if and only if the trace is whole. -/
theorem right_iff_whole (hmem : t ∈ tracesOf (db.spans.filter (f.passes now)))
    (hline : TraceLine db (db.spans.filter (f.passes now)) t l) :
    TraceRight db t l ↔ WholeTrace now f db t := by
  have hsome := mem_tracesOf.mp hmem
  have hstart := hline.start
  have hduration := hline.duration
  have hspans := hline.spans
  have herror := hline.error
  rw [columnInt64_minStart hsome] at hstart
  rw [traceRows_filter] at hstart hduration hspans herror
  constructor
  · intro hright
    have hcount := hspans.symm.trans hright.spans
    rw [columnInt_eq_iff (List.length_filter_le _ _)] at hcount
    have hpasses := List.length_filter_eq_length_iff.mp hcount.1
    rw [List.filter_eq_self.mpr hpasses] at hduration
    refine ⟨hpasses, columnInt64_eq_iff.mp ?_, hcount.2⟩
    rw [← hduration]
    exact hright.duration
  · intro hwhole
    rw [List.filter_eq_self.mpr hwhole.passes] at hstart hduration hspans herror
    refine ⟨hline.trace, hstart, ?_, ?_, herror⟩
    · rw [hduration, columnInt64_eq_iff.mpr hwhole.extent_fits]
    · rw [hspans, (columnInt_eq_iff (le_refl _)).mpr ⟨rfl, hwhole.spans_fit⟩]

theorem map_trace {r : Bytes → ListLine → Prop} {ts : List Bytes} {out : List ListLine}
    (htrace : ∀ t l, r t l → l.trace = t) (h : List.Forall₂ r ts out) :
    out.map ListLine.trace = ts := by
  induction h with
  | nil => rfl
  | cons hhead _ ih => rw [List.map_cons, htrace _ _ hhead, ih]

theorem exists_lines {ts : List Bytes} (h : ∀ t ∈ ts, t ∈ tracesOf (db.spans.filter p)) :
    ∃ out, List.Forall₂ (TraceLine db (db.spans.filter p)) ts out := by
  induction ts with
  | nil => exact ⟨[], .nil⟩
  | cons t ts ih =>
    obtain ⟨out, hout⟩ := ih fun u hu => h u (List.mem_cons_of_mem t hu)
    obtain ⟨l, hl⟩ := exists_line (h t List.mem_cons_self)
    exact ⟨l :: out, .cons hl hout⟩

theorem lines_right_iff {ts : List Bytes} {out : List ListLine}
    (hmem : ∀ t ∈ ts, t ∈ tracesOf (db.spans.filter (f.passes now)))
    (h : List.Forall₂ (TraceLine db (db.spans.filter (f.passes now))) ts out) :
    List.Forall₂ (TraceRight db) ts out ↔ ∀ t ∈ ts, WholeTrace now f db t := by
  induction h with
  | nil => simp
  | cons hhead _ ih =>
    rw [List.forall₂_cons, List.forall_mem_cons, right_iff_whole (hmem _ List.mem_cons_self) hhead,
      ih fun u hu => hmem u (List.mem_cons_of_mem _ hu)]

/-! ## The list -/

theorem cmdList_iff (now : Int64) (g : Given) (db : Store) (out : List ListLine) :
    CmdList now g.filters db out ↔ ∃ traces,
      Top (fun t => minStart (traceRows (db.spans.filter (g.filters.passes now)) t)) g.rows
        (tracesOf (db.spans.filter (g.filters.passes now))) traces ∧
      List.Forall₂ (TraceLine db (db.spans.filter (g.filters.passes now))) traces out := by
  have hwhere : whereHolds (boundParams now g.filters) 1 g.filters.clauses = g.filters.passes now :=
    funext (whereHolds_eq now g.filters)
  unfold CmdList
  simp only [hwhere, (matched_list now g.filters).limit, limit_rows]
  constructor
  · rintro ⟨n, traces, hn, htop, hout⟩
    cases hn
    exact ⟨traces, htop, hout⟩
  · rintro ⟨traces, htop, hout⟩
    exact ⟨g.rows, traces, rfl, htop, hout⟩

/-- The lines are right for every choice among equal keys, if and only if the traces are. -/
theorem forall_lines_iff (now : Int64) (g : Given) (db : Store) :
    (∀ out, CmdList now g.filters db out → ListRight now g db out) ↔
      ∀ traces, Top (fun t => minStart (traceRows (db.spans.filter (g.filters.passes now)) t)) g.rows
          (tracesOf (db.spans.filter (g.filters.passes now))) traces →
        (∀ t ∈ traces, WholeTrace now g.filters db t) ∧
        Top (fun t => minStart (traceRows db.spans t)) g.rows
          ((tracesOf db.spans).filter (g.keeps now db)) traces := by
  constructor
  · intro hright traces htop
    have hmem := fun t (ht : t ∈ traces) => htop.mem ht
    obtain ⟨out, hout⟩ := exists_lines hmem
    obtain ⟨traces', htop', hlines⟩ := hright out ((cmdList_iff now g db out).mpr ⟨traces, htop, hout⟩)
    have hsame : traces' = traces := by
      rw [← map_trace (fun t l h => TraceRight.trace h) hlines]
      exact map_trace (fun t l h => TraceLine.trace h) hout
    subst hsame
    exact ⟨(lines_right_iff hmem hout).mp hlines, htop'⟩
  · intro htraces out hout
    obtain ⟨traces, htop, hlines⟩ := (cmdList_iff now g db out).mp hout
    obtain ⟨hwhole, htop'⟩ := htraces traces htop
    exact ⟨traces, htop', (lines_right_iff (fun t ht => htop.mem ht) hlines).mpr hwhole⟩

theorem mem_tracesOf_filter :
    t ∈ tracesOf (rows.filter p) ↔ ∃ row ∈ traceRows rows t, p row = true := by
  rw [mem_tracesOf, traceRows_filter, Ne, List.filter_eq_nil_iff]
  simp

theorem not_mem_tracesOf_filter :
    t ∉ tracesOf (rows.filter p) ↔ ∀ row ∈ traceRows rows t, p row = false := by
  rw [mem_tracesOf_filter]
  simp

/-- A row of the trace satisfies what a row that passes the filters satisfies. -/
theorem any_of_all (given : Option Bytes) (column : SpanRow → Bytes) (hrow : row ∈ rows)
    (h : given.all (fun s => column row = s) = true) :
    given.all (fun s => rows.any fun row => column row = s) = true := by
  cases given with
  | none => rfl
  | some s => exact List.any_eq_true.mpr ⟨row, hrow, h⟩

/-- A trace all of whose rows pass the row filters is to be kept if it is within the bounds. -/
theorem keeps_iff (hmem : t ∈ tracesOf db.spans)
    (hpasses : ∀ row ∈ traceRows db.spans t, g.filters.passes now row = true) :
    g.keeps now db t = true ↔ WithinBounds now g db t := by
  obtain ⟨row, hrow⟩ := List.exists_mem_of_ne_nil _ (mem_tracesOf.mp hmem)
  have hone := hpasses row hrow
  simp only [Filters.passes, Bool.and_eq_true] at hone
  obtain ⟨⟨⟨⟨hservice, hname⟩, hstatus⟩, -⟩, -⟩ := hone
  have herror : (g.status ≠ some (ascii "error") || anyError (traceRows db.spans t) : Bool) = true := by
    by_cases hgiven : g.status = some (ascii "error")
    · have herr : row.statusCode = 2 := by simpa [Given.filters, hgiven] using hstatus
      have hany : anyError (traceRows db.spans t) = true :=
        List.any_eq_true.mpr ⟨row, hrow, decide_eq_true herr⟩
      rw [hany, Bool.or_true]
    · simp [hgiven]
  have hservice' := any_of_all g.service SpanRow.service hrow hservice
  have hname' := any_of_all g.name SpanRow.name hrow hname
  unfold Given.keeps
  simp only [hservice', hname', herror, Bool.true_and, Bool.and_eq_true, Option.all_eq_true,
    List.any_eq_true, decide_eq_true_eq]
  exact ⟨fun h => ⟨h.1, h.2⟩, fun h => ⟨h.since, h.long⟩⟩

/-- The bounds hold if a row passes that is no longer than its trace, and no bound is a degenerate
one. -/
theorem WithinBounds.of_passes (hrow : row ∈ traceRows db.spans t)
    (hpasses : g.filters.passes now row = true)
    (hlong : row.durationNs.toInt ≤ extent (traceRows db.spans t))
    (hsince : SameBound (sinceBound now) g.since)
    (hduration : SameBound durationBound g.minDurationUs) : WithinBounds now g db t := by
  rw [(agree_iff now g).mpr ⟨hsince, hduration⟩] at hpasses
  simp only [Given.wants, Bool.and_eq_true] at hpasses
  obtain ⟨⟨-, hstart⟩, hdur⟩ := hpasses
  constructor
  · intro sec hsec
    rw [hsec] at hstart
    exact ⟨row, hrow, of_decide_eq_true hstart⟩
  · intro us hus
    rw [hus] at hdur
    exact (of_decide_eq_true hdur).trans hlong

/-- The statement of `otel-trace list` is as it should be; and what it prints is right, whichever way
equal keys are ordered, exactly if the traces that it may show are whole and within the bounds, and those
that are to be kept and have no row in the query are too old. -/
theorem list_whole (now : Int64) (opts : List FilterOption) (db : Store) :
    (Matched listHead listTail now (filtersOf opts) ∧
      ∀ out, CmdList now (filtersOf opts) db out → ListRight now (givenBy opts) db out) ↔
    WholeTraces now (givenBy opts) (filtersOf opts) db := by
  rw [filtersOf_eq, and_iff_right (matched_list now _)]
  generalize givenBy opts = g
  have hsub : ∀ t, t ∈ tracesOf (db.spans.filter (g.filters.passes now)) → t ∈ tracesOf db.spans := by
    intro t ht
    obtain ⟨row, hrow, -⟩ := mem_tracesOf_filter.mp ht
    exact mem_tracesOf.mpr (List.ne_nil_of_mem hrow)
  rw [forall_lines_iff, forall_top_iff (nodup_tracesOf _) ((nodup_tracesOf _).filter _)]
  · constructor
    · rintro ⟨hleads, hbeaten⟩
      constructor
      · intro t ht
        obtain ⟨hwhole, hmem⟩ := hleads t ht
        obtain ⟨hmem, hkeeps⟩ := List.mem_filter.mp hmem
        exact ⟨hwhole, (keeps_iff hmem hwhole.passes).mp hkeeps⟩
      · intro t ht hkeeps hnone
        exact hbeaten t (List.mem_filter.mpr ⟨ht, hkeeps⟩) (not_mem_tracesOf_filter.mpr hnone)
    · intro h
      constructor
      · intro t ht
        obtain ⟨hwhole, hbounds⟩ := h.whole t ht
        have hmem := hsub t ht.1
        exact ⟨hwhole, List.mem_filter.mpr ⟨hmem, (keeps_iff hmem hwhole.passes).mpr hbounds⟩⟩
      · intro t ht hno
        obtain ⟨hmem, hkeeps⟩ := List.mem_filter.mp ht
        exact h.beaten t hmem hkeeps (not_mem_tracesOf_filter.mp hno)
  · intro t ht
    rw [mem_tracesOf] at ht
    rw [traceRows_filter] at ht ⊢
    exact minStart_anti (List.filter_subset_self _) ht
  · intro t hwhole
    rw [traceRows_filter, List.filter_eq_self.mpr hwhole.passes]

/-- Without a filter, all that matters is that the numbers can be read. -/
theorem WholeTraces.of_unfiltered {limit : Option Int32}
    (hfit : ∀ t ∈ tracesOf db.spans, (-2 ^ 63 ≤ extent (traceRows db.spans t) ∧
      extent (traceRows db.spans t) < 2 ^ 63) ∧ (traceRows db.spans t).length < 2 ^ 31) :
    WholeTraces now ⟨none, none, none, none, none, limit⟩
      (Given.filters ⟨none, none, none, none, none, limit⟩) db := by
  have hpasses : ∀ row,
      (Given.filters ⟨none, none, none, none, none, limit⟩).passes now row = true := by
    intro row
    simp [Filters.passes, Given.filters]
  constructor
  · intro t ht
    obtain ⟨row, hrow, -⟩ := mem_tracesOf_filter.mp ht.1
    obtain ⟨hextent, hspans⟩ := hfit t (mem_tracesOf.mpr (List.ne_nil_of_mem hrow))
    exact ⟨⟨fun row _ => hpasses row, hextent, hspans⟩, by rintro sec ⟨⟩, by rintro us ⟨⟩⟩
  · intro t ht _ hnone
    obtain ⟨row, hrow⟩ := List.exists_mem_of_ne_nil _ (mem_tracesOf.mp ht)
    have := hnone row hrow
    rw [hpasses] at this
    cases this

/-- Two spans of one trace: a request of 3 µs, and the query that it makes. -/
def twoSpans : Store :=
  let request := (givenBy [.name (ascii "GET")]).sample 1700000000000000000 3000
  let query := (givenBy [.name (ascii "db")]).sample 1700000000000001000 1000
  { Store.empty with
    spans := [{ query with parentId := some request.spanId, spanId := ascii "0000000000000002" },
      { request with id := 2 }] }

/-- The line of the trace with `--name db`. -/
def oneSpanLine : ListLine where
  trace := ascii "00000000000000000000000000000001"
  service := []
  start := 1700000000000001000
  duration := 1000
  spans := 1
  root := ascii "GET"
  error := true

/-- `--name db` lists the trace with one span of 1 µs. -/
theorem list_partial :
    CmdList 1700000001 (filtersOf [.name (ascii "db")]) twoSpans [oneSpanLine] ∧
      ¬ ListRight 1700000001 (givenBy [.name (ascii "db")]) twoSpans [oneSpanLine] := by
  constructor
  · rw [filtersOf_eq, cmdList_iff]
    refine ⟨[oneSpanLine.trace], (top_singleton (rows_pos _)).mpr rfl, .cons ?_ .nil⟩
    refine ⟨rfl, by decide, by decide, by decide, by decide, .inl ?_, ?_⟩
    · exact ⟨twoSpans.spans[1], by decide, rfl, rfl⟩
    · exact ⟨twoSpans.spans[1], by decide, rfl⟩
  · rintro ⟨traces, -, hlines⟩
    cases hlines with
    | cons hline hrest =>
      have hspans := hline.spans
      have htrace := hline.trace
      subst htrace
      revert hspans
      decide

end OtelTracing
