import OtelTracing.Query

/-!
# Proofs: the filters of `otel-trace`
-/

namespace OtelTracing

open ByteMem Limit

variable {now : Int64} {f : Filters} {g : Given} {opts : List FilterOption} {row : SpanRow}
  {db : Store}

/-! ## Options -/

/-- What `main` makes of the options that are given. -/
def Given.filters (g : Given) : Filters where
  service := g.service
  name := g.name
  statusError := g.status = some (ascii "error")
  sinceSec := g.since.getD 0
  minDurationUs := g.minDurationUs.getD 0
  limit := g.limit.getD 0

theorem with_filters (g : Given) (opt : FilterOption) :
    (g.with opt).filters = g.filters.set opt := by
  cases opt with
  | status s => simp [Given.with, Given.filters, Filters.set]
  | _ => rfl

theorem foldl_filters (opts : List FilterOption) (g : Given) :
    (opts.foldl Given.with g).filters = opts.foldl Filters.set g.filters := by
  induction opts generalizing g with
  | nil => rfl
  | cons opt opts ih => rw [List.foldl_cons, List.foldl_cons, ih, with_filters]

theorem filtersOf_eq (opts : List FilterOption) : filtersOf opts = (givenBy opts).filters := by
  unfold filtersOf givenBy
  rw [foldl_filters]
  rfl

theorem limit_rows (g : Given) (n : Nat) :
    (SqlValue.int (if g.filters.limit > 0 then g.filters.limit.toInt64 else 50)).limit n =
      some g.rows := by
  have hzero : ¬ (50 : Int64) < 0 := by decide
  unfold SqlValue.limit Given.rows Given.filters
  cases hlimit : g.limit with
  | none => simp [hzero]
  | some v =>
    by_cases hv : 0 < v
    · have hpos : ¬ v.toInt64 < 0 := by
        rw [Int64.lt_iff_toInt_lt, Int32.toInt_toInt64]
        rw [Int32.lt_iff_toInt_lt] at hv
        have : (0 : Int32).toInt = 0 := rfl
        have : (0 : Int64).toInt = 0 := rfl
        omega
      simp [hv, hpos]
    · simp [hv, hzero]

/-! ## Placeholders -/

theorem params_eq (c : Clause) : c.params = if c = .statusError then 0 else 1 := by
  cases c <;> rfl

theorem appendFilters_eq (sql : Bytes) (cap : Nat) (f : Filters) :
    appendFilters sql cap f = (f.clauses.map Clause.text).foldl (strncat cap) sql := by
  obtain ⟨service, name, status, since, dur, limit⟩ := f
  cases service <;> cases name <;> cases status <;> by_cases hs : since = 0 <;>
    by_cases hd : dur = 0 <;> simp [appendFilters, Filters.clauses, hs, hd]

theorem foldl_strncat {cap : Nat} (texts : List Bytes) (sql : Bytes)
    (hcap : sql.length + texts.flatten.length < cap) :
    texts.foldl (strncat cap) sql = sql ++ texts.flatten := by
  induction texts generalizing sql with
  | nil => simp
  | cons text texts ih =>
    rw [List.flatten_cons, List.length_append] at hcap
    have hone : strncat cap sql text = sql ++ text := by
      unfold strncat
      rw [List.take_of_length_le (by omega)]
    rw [List.foldl_cons, hone, ih, List.flatten_cons, List.append_assoc]
    rw [List.length_append]
    omega

theorem length_clauses (f : Filters) : (f.clauses.map Clause.text).flatten.length ≤ 93 := by
  obtain ⟨service, name, status, since, dur, limit⟩ := f
  cases service <;> cases name <;> cases status <;> by_cases hs : since = 0 <;>
    by_cases hd : dur = 0 <;> simp [Filters.clauses, Clause.text, hs, hd, ascii]

/-- There is room for the whole statement. -/
theorem querySql_eq {head tail : Bytes} (hlength : head.length + tail.length ≤ 900) (f : Filters) :
    querySql head tail f = head ++ f.clauses.flatMap Clause.text ++ tail := by
  have hclauses := length_clauses f
  have htail : ∀ sql : Bytes, strncat 1024 sql tail = [tail].foldl (strncat 1024) sql := fun _ => rfl
  unfold querySql
  rw [appendFilters_eq, List.take_of_length_le (by omega), htail, ← List.foldl_append,
    foldl_strncat]
  · simp [List.flatMap_def]
  · simp only [List.flatten_append, List.length_append, List.flatten_singleton]
    omega

theorem matched {head tail : Bytes} (hlength : head.length + tail.length ≤ 900) (now : Int64)
    (f : Filters) : Matched head tail now f := by
  refine ⟨querySql_eq hlength f, ?_, ?_⟩
  · obtain ⟨service, name, status, since, dur, limit⟩ := f
    cases service <;> cases name <;> cases status <;> by_cases hs : since = 0 <;>
      by_cases hd : dur = 0 <;>
      simp [placeholders, Filters.clauses, boundParams, bindFilters, params_eq, Clause.value, hs, hd]
  · obtain ⟨service, name, status, since, dur, limit⟩ := f
    cases service <;> cases name <;> cases status <;> by_cases hs : since = 0 <;>
      by_cases hd : dur = 0 <;>
      simp [limitPlaceholder, Filters.clauses, boundParams, bindFilters, params_eq, hs, hd]

theorem matched_spans (now : Int64) (f : Filters) : Matched spansHead spansTail now f :=
  matched (by decide) now f

theorem whereHolds_eq (now : Int64) (f : Filters) (row : SpanRow) :
    whereHolds (boundParams now f) 1 f.clauses row = f.passes now row := by
  obtain ⟨service, name, status, since, dur, limit⟩ := f
  cases service <;> cases name <;> cases status <;> by_cases hs : since = 0 <;>
    by_cases hd : dur = 0 <;>
    simp [Filters.clauses, Filters.passes, whereHolds, boundParams, bindFilters, params_eq,
      Clause.holds, hs, hd, eq_comm, Bool.and_assoc]

theorem cmdSpans_iff (now : Int64) (g : Given) (db : Store) (out : List SpansLine) :
    CmdSpans now g.filters db out ↔
      ∃ rows, Top SpanRow.start g.rows (db.spans.filter (g.filters.passes now)) rows ∧
        out = rows.map spansLine := by
  have hwhere : whereHolds (boundParams now g.filters) 1 g.filters.clauses = g.filters.passes now :=
    funext (whereHolds_eq now g.filters)
  unfold CmdSpans
  simp only [hwhere, (matched_spans now g.filters).limit, limit_rows]
  constructor
  · rintro ⟨n, rows, hn, htop, hout⟩
    cases hn
    exact ⟨rows, htop, hout⟩
  · rintro ⟨rows, htop, hout⟩
    exact ⟨g.rows, rows, rfl, htop, hout⟩

theorem rows_pos (g : Given) : 0 < g.rows := by
  unfold Given.rows
  cases g.limit with
  | none => simp
  | some n =>
    show 0 < if 0 < n then n.toInt.toNat else 50
    by_cases hn : 0 < n
    · rw [if_pos hn]
      rw [Int32.lt_iff_toInt_lt] at hn
      have : (0 : Int32).toInt = 0 := rfl
      omega
    · rw [if_neg hn]
      omega

/-! ## Bounds -/

theorem toInt_sinceNs (now sec : Int64) :
    (sinceNs now sec).toInt = (sinceBound now sec).bmod (2 ^ 64) := by
  have hscale : (1000000000 : Int64).toInt = 10 ^ 9 := rfl
  unfold sinceNs sinceBound
  rw [Int64.toInt_mul, Int64.toInt_sub, hscale, Int.bmod_mul_bmod]

theorem toInt_durationNs (us : Int64) :
    (us * 1000).toInt = (durationBound us).bmod (2 ^ 64) := by
  have hscale : (1000 : Int64).toInt = 1000 := rfl
  unfold durationBound
  rw [Int64.toInt_mul, hscale]

theorem exists_int64 {n : Int} (hlow : -2 ^ 63 ≤ n) (hhigh : n < 2 ^ 63) :
    ∃ x : Int64, x.toInt = n :=
  ⟨Int64.ofInt n, Int64.toInt_ofInt_of_le hlow hhigh⟩

/-- A bound and its 64 bits select the same numbers. -/
theorem bound_iff (t : Int) :
    (∀ x : Int64, t.bmod (2 ^ 64) ≤ x.toInt ↔ t ≤ x.toInt) ↔
      -2 ^ 63 ≤ t ∧ t < 2 ^ 63 ∨ t < -2 ^ 63 ∧ t.bmod (2 ^ 64) = -2 ^ 63 := by
  have hlow : -2 ^ 63 ≤ t.bmod (2 ^ 64) := by
    have := Int.le_bmod (x := t) (m := 2 ^ 64) (by decide)
    omega
  have hhigh : t.bmod (2 ^ 64) < 2 ^ 63 := by
    have := Int.bmod_lt (x := t) (m := 2 ^ 64) (by decide)
    omega
  constructor
  · intro h
    obtain ⟨least, hleast⟩ := exists_int64 (n := -2 ^ 63) (by decide) (by decide)
    obtain ⟨most, hmost⟩ := exists_int64 (n := 2 ^ 63 - 1) (by decide) (by decide)
    have h₁ := h least
    have h₂ := h most
    rw [hleast] at h₁
    rw [hmost] at h₂
    omega
  · rintro (⟨h₁, h₂⟩ | ⟨h₁, h₂⟩) x
    · rw [Int.bmod_eq_of_le (by omega) (by omega)]
    · have := x.le_toInt
      omega

/-- What the code compares with selects as what is asked for. -/
theorem sameBound_iff {bits : Int64 → Int64} {bound : Int64 → Int} {given : Option Int64}
    (hbits : ∀ v, (bits v).toInt = (bound v).bmod (2 ^ 64)) :
    (∀ x : Int64, (given.getD 0 = 0 || bits (given.getD 0) ≤ x : Bool) =
        given.all fun v => bound v ≤ x.toInt) ↔ SameBound bound given := by
  unfold SameBound
  cases given with
  | none => simp
  | some v =>
    simp only [Option.getD_some, Option.all_some, Option.some.injEq, forall_eq']
    by_cases hv : v = 0
    · rw [if_pos hv]
      simp only [hv, decide_true, Bool.true_or, true_eq_decide_iff]
      constructor
      · intro h
        obtain ⟨least, hleast⟩ := exists_int64 (n := -2 ^ 63) (by decide) (by decide)
        rw [← hleast]
        exact h least
      · intro h x
        exact h.trans x.le_toInt
    · rw [if_neg hv, ← bound_iff]
      simp only [hv, decide_false, Bool.false_or, decide_eq_decide, Int64.le_iff_toInt_le, hbits]

/-! ## Selections -/

/-- A row with the texts and the status that are asked for. -/
def Given.sample (g : Given) (start duration : Int64) : SpanRow where
  id := 1
  origin := 0
  traceId := ascii "00000000000000000000000000000001"
  spanId := ascii "0000000000000001"
  parentId := none
  service := g.service.getD []
  name := g.name.getD []
  kind := 1
  statusCode := 2
  statusMessage := []
  startUnixNs := start
  endUnixNs := start + duration
  durationNs := duration
  droppedAttrs := 0
  droppedEvents := 0

theorem sample_passes (now : Int64) (g : Given) (start duration : Int64) :
    g.filters.passes now (g.sample start duration) =
      ((g.since.getD 0 = 0 || sinceNs now (g.since.getD 0) ≤ start) &&
        (g.minDurationUs.getD 0 = 0 || g.minDurationUs.getD 0 * 1000 ≤ duration)) := by
  obtain ⟨service, name, status, since, us, limit⟩ := g
  unfold Filters.passes Given.sample Given.filters
  cases service <;> cases name <;> simp

theorem sample_wants (now : Int64) (g : Given) (start duration : Int64) :
    g.wants now (g.sample start duration) =
      (g.since.all (fun sec => sinceBound now sec ≤ start.toInt) &&
        g.minDurationUs.all (fun us => durationBound us ≤ duration.toInt)) := by
  obtain ⟨service, name, status, since, us, limit⟩ := g
  unfold Given.wants Given.sample
  cases service <;> cases name <;> simp

/-- Every 64-bit bound admits the largest number. -/
theorem passes_most {most : Int64} (hmost : most.toInt = 2 ^ 63 - 1) (bits : Int64 → Int64)
    (given : Option Int64) : (given.getD 0 = 0 || bits (given.getD 0) ≤ most : Bool) = true := by
  have hle : bits (given.getD 0) ≤ most := by
    rw [Int64.le_iff_toInt_le, hmost]
    have := (bits (given.getD 0)).toInt_lt
    omega
  simp [hle]

theorem agree_iff (now : Int64) (g : Given) :
    (∀ row, g.filters.passes now row = g.wants now row) ↔
      SameBound (sinceBound now) g.since ∧ SameBound durationBound g.minDurationUs := by
  rw [← sameBound_iff (toInt_sinceNs now), ← sameBound_iff toInt_durationNs]
  constructor
  · intro hagree
    obtain ⟨most, hmost⟩ := exists_int64 (n := 2 ^ 63 - 1) (by decide) (by decide)
    have hrow : ∀ start duration, _ := fun start duration => hagree (g.sample start duration)
    simp only [sample_passes, sample_wants] at hrow
    -- the code admits a row with the largest numbers, so it is wanted
    have hboth := hrow most most
    rw [passes_most hmost (sinceNs now), passes_most hmost (· * 1000), Bool.and_true, eq_comm,
      Bool.and_eq_true] at hboth
    constructor
    · intro start
      have h := hrow start most
      rw [passes_most hmost (· * 1000), hboth.2, Bool.and_true, Bool.and_true] at h
      exact h
    · intro duration
      have h := hrow most duration
      rw [passes_most hmost (sinceNs now), hboth.1, Bool.true_and, Bool.true_and] at h
      exact h
  · rintro ⟨hsince, hduration⟩ row
    unfold Filters.passes Given.wants
    rw [← hsince row.startUnixNs, ← hduration row.durationNs]
    unfold Given.filters
    congr 4
    simp

/-- A query that prints for one row what it should. -/
theorem agree_of_right (h : ∀ db out, CmdSpans now g.filters db out → SpansRight now g db out)
    (row : SpanRow) : g.filters.passes now row = g.wants now row := by
  let db : Store := { Store.empty with spans := [row] }
  have hone : ∀ p : SpanRow → Bool, db.spans.filter p = if p row then [row] else [] := by
    intro p
    rw [List.filter_singleton]
    cases p row <;> rfl
  have hright := fun out hout => h db out ((cmdSpans_iff now g db out).mpr hout)
  unfold SpansRight at hright
  simp only [hone] at hright
  cases hpasses : g.filters.passes now row with
  | true =>
    rw [hpasses, if_pos rfl] at hright
    obtain ⟨rows, htop, hout⟩ :=
      hright [spansLine row] ⟨[row], (top_singleton (rows_pos g)).mpr rfl, rfl⟩
    by_contra hwants
    rw [if_neg (fun hw => hwants hw.symm), top_nil] at htop
    rw [htop] at hout
    cases hout
  | false =>
    rw [hpasses, if_neg Bool.false_ne_true] at hright
    obtain ⟨rows, htop, hout⟩ := hright [] ⟨[], top_nil.mpr rfl, rfl⟩
    by_contra hwants
    rw [if_pos (Bool.eq_true_of_not_eq_false (fun hw => hwants hw.symm)),
      top_singleton (rows_pos g)] at htop
    rw [htop] at hout
    cases hout

/-- `otel-trace spans` prints what is asked for, from every store, exactly if each bound that is given
does not overflow and is not 0, or no row can be below it. -/
theorem spans_right (now : Int64) (opts : List FilterOption) :
    (Matched spansHead spansTail now (filtersOf opts) ∧
      ∀ db out, CmdSpans now (filtersOf opts) db out → SpansRight now (givenBy opts) db out) ↔
    SameBound (sinceBound now) (givenBy opts).since ∧
      SameBound durationBound (givenBy opts).minDurationUs := by
  rw [filtersOf_eq, ← agree_iff]
  constructor
  · rintro ⟨-, hright⟩
    exact agree_of_right hright
  · intro hagree
    refine ⟨matched_spans now _, ?_⟩
    intro db out hout
    rw [cmdSpans_iff, funext hagree] at hout
    exact hout

/-- A span of 1 µs. -/
def shortSpan : SpanRow := (givenBy []).sample 1700000000000000000 1000

/-- `--min-duration-us 9223372036854776`, some 292 years, prints a span of 1 µs. -/
theorem spans_overflow :
    CmdSpans 1700000000 (filtersOf [.minDurationUs 9223372036854776])
        { Store.empty with spans := [shortSpan] } [spansLine shortSpan] ∧
      ¬ SpansRight 1700000000 (givenBy [.minDurationUs 9223372036854776])
        { Store.empty with spans := [shortSpan] } [spansLine shortSpan] := by
  rw [filtersOf_eq, cmdSpans_iff]
  constructor
  · refine ⟨[shortSpan], ?_, rfl⟩
    exact (top_singleton (rows_pos _)).mpr rfl
  · rintro ⟨rows, htop, hout⟩
    have hnone : ([shortSpan].filter
        ((givenBy [.minDurationUs 9223372036854776]).wants 1700000000)) = [] := rfl
    rw [hnone, top_nil] at htop
    rw [htop] at hout
    cases hout

end OtelTracing
