import OtelTracing.Retention
import OtelTracing.Lib.Outcome
import Mathlib.Data.List.Nodup
import Mathlib.Tactic.IntervalCases

/-!
# Proofs: the store over time

Every statement of the sink keeps the store intact: rows are inserted below rows that are there, and
deleted before the rows that they refer to.
-/

namespace OtelTracing

open ByteMem Txn Outcome

variable {service : Bytes} {st st' : OtelSqlite} {db : Store}

/-! ## Ids -/

theorem le_maxId {ids : List Nat} {i : Nat} (h : i ∈ ids) : i ≤ maxId ids := by
  induction ids with
  | nil => cases h
  | cons j ids ih =>
    rcases List.mem_cons.mp h with rfl | h
    · exact Nat.le_max_left ..
    · exact (ih h).trans (Nat.le_max_right ..)

theorem maxId_range' (lo n : Nat) : maxId (List.range' lo (n + 1)) = lo + n := by
  induction n generalizing lo with
  | zero => simp [maxId]
  | succ n ih =>
    have hrest := ih (lo + 1)
    rw [List.range'_succ, maxId, List.foldr_cons, ← maxId, hrest]
    omega

/-- The next id continues the interval. -/
theorem contiguous_snoc {ids : List Nat} (h : ∃ lo, 1 ≤ lo ∧ ids = List.range' lo ids.length) :
    ∃ lo, 1 ≤ lo ∧ ids ++ [maxId ids + 1] = List.range' lo (ids.length + 1) := by
  obtain ⟨lo, hlo, hids⟩ := h
  cases hn : ids.length with
  | zero =>
    obtain rfl := List.length_eq_zero_iff.mp hn
    exact ⟨1, Nat.le_refl 1, rfl⟩
  | succ n =>
    rw [hn] at hids
    refine ⟨lo, hlo, ?_⟩
    have hsnoc : List.range' lo (n + 1 + 1) = List.range' lo (n + 1) ++ [lo + (n + 1)] := by
      rw [List.range'_concat, Nat.one_mul]
    rw [hids, maxId_range', hsnoc, Nat.add_assoc]

/-- Dropping the ids up to `c` leaves an interval. -/
theorem contiguous_filter {ids : List Nat} (h : ∃ lo, 1 ≤ lo ∧ ids = List.range' lo ids.length)
    (c : Int) : ∃ lo, 1 ≤ lo ∧ (ids.filter fun (i : Nat) => c < i) =
      List.range' lo (ids.filter fun (i : Nat) => c < i).length := by
  obtain ⟨lo, hlo, hids⟩ := h
  rw [hids]
  generalize ids.length = n at hids
  clear hids
  induction n generalizing lo with
  | zero => exact ⟨1, Nat.le_refl 1, rfl⟩
  | succ n ih =>
    rw [List.range'_succ, List.filter_cons]
    split_ifs with hc
    · -- the ids from the first kept one on are all kept
      have hall : (List.range' (lo + 1) n).filter (fun (i : Nat) => c < i) =
          List.range' (lo + 1) n := by
        refine List.filter_eq_self.mpr fun i hi => ?_
        obtain ⟨j, -, rfl⟩ := List.mem_range'.mp hi
        simp only [decide_eq_true_eq] at hc ⊢
        omega
      refine ⟨lo, hlo, ?_⟩
      rw [hall, List.length_cons, List.length_range', List.range'_succ]
    · exact ih (lo + 1) (by omega)

/-! ## Inserting rows -/

theorem Store.Intact.insertSpan (h : db.Intact) (row : SpanRow) (hid : row.id = db.nextSpan) :
    Store.Intact { db with spans := db.spans ++ [row] } where
  contiguous := by
    have hrows : ∃ lo, 1 ≤ lo ∧
        db.spans.map SpanRow.id = List.range' lo (db.spans.map SpanRow.id).length := by
      rw [List.length_map]
      exact h.contiguous
    obtain ⟨lo, hlo, hids⟩ := contiguous_snoc hrows
    refine ⟨lo, hlo, ?_⟩
    simpa [hid, Store.nextSpan] using hids
  eventIds := h.eventIds
  spanAttrs a ha := by
    obtain ⟨r, hr, heq⟩ := h.spanAttrs a ha
    exact ⟨r, List.mem_append_left _ hr, heq⟩
  spanEvents e he := by
    obtain ⟨r, hr, heq⟩ := h.spanEvents e he
    exact ⟨r, List.mem_append_left _ hr, heq⟩
  eventAttrs := h.eventAttrs

theorem Store.Intact.insertEvent (h : db.Intact) (row : EventRow) (hid : row.id = db.nextEvent)
    (hspan : ∃ r ∈ db.spans, r.id = row.span ∧ r.origin = row.spanOrigin) :
    Store.Intact { db with spanEvents := db.spanEvents ++ [row] } where
  contiguous := h.contiguous
  eventIds := by
    rw [List.map_append, List.map_singleton, List.nodup_append]
    refine ⟨h.eventIds, List.nodup_singleton _, ?_⟩
    intro i hi j hj hij
    rw [List.mem_singleton.mp hj, hid] at hij
    have hle := le_maxId hi
    rw [hij, Store.nextEvent] at hle
    omega
  spanAttrs := h.spanAttrs
  spanEvents e he := by
    rcases List.mem_append.mp he with he | he
    · exact h.spanEvents e he
    · rw [List.mem_singleton.mp he]
      exact hspan
  eventAttrs a ha := by
    obtain ⟨e, he, heq⟩ := h.eventAttrs a ha
    exact ⟨e, List.mem_append_left _ he, heq⟩

/-- The row that an attribute of a table belongs under is there, with its number. -/
def Store.Owns (db : Store) (owner origin : Nat) : AttrTable → Prop
  | .span => ∃ r ∈ db.spans, r.id = owner ∧ r.origin = origin
  | .event => ∃ e ∈ db.spanEvents, e.id = owner ∧ e.origin = origin

theorem Store.Intact.insertAttr (h : db.Intact) (row : AttrRow) (table : AttrTable)
    (howns : db.Owns row.owner row.origin table) : (db.addAttr row table).Intact := by
  cases table with
  | span =>
    refine ⟨h.contiguous, h.eventIds, fun a ha => ?_, h.spanEvents, h.eventAttrs⟩
    rcases List.mem_append.mp ha with ha | ha
    · exact h.spanAttrs a ha
    · rw [List.mem_singleton.mp ha]
      exact howns
  | event =>
    refine ⟨h.contiguous, h.eventIds, h.spanAttrs, h.spanEvents, fun a ha => ?_⟩
    rcases List.mem_append.mp ha with ha | ha
    · exact h.eventAttrs a ha
    · rw [List.mem_singleton.mp ha]
      exact howns

/-! ## Pruning -/

theorem Store.Intact.deleteEventAttrs (h : db.Intact) (p : AttrRow → Bool) :
    Store.Intact { db with spanEventAttrs := db.spanEventAttrs.filter p } :=
  ⟨h.contiguous, h.eventIds, h.spanAttrs, h.spanEvents,
    fun a ha => h.eventAttrs a (List.mem_of_mem_filter ha)⟩

theorem Store.Intact.deleteSpanAttrs (h : db.Intact) (p : AttrRow → Bool) :
    Store.Intact { db with spanAttrs := db.spanAttrs.filter p } :=
  ⟨h.contiguous, h.eventIds, fun a ha => h.spanAttrs a (List.mem_of_mem_filter ha), h.spanEvents,
    h.eventAttrs⟩

/-- Events may be deleted if no attribute refers to them. -/
theorem Store.Intact.deleteEvents (h : db.Intact) (p : EventRow → Bool)
    (hp : ∀ a ∈ db.spanEventAttrs, ∀ e ∈ db.spanEvents, e.id = a.owner → p e = true) :
    Store.Intact { db with spanEvents := db.spanEvents.filter p } where
  contiguous := h.contiguous
  eventIds := h.eventIds.sublist ((List.filter_sublist).map _)
  spanAttrs := h.spanAttrs
  spanEvents e he := h.spanEvents e (List.mem_of_mem_filter he)
  eventAttrs a ha := by
    obtain ⟨e, he, hid, horigin⟩ := h.eventAttrs a ha
    exact ⟨e, List.mem_filter.mpr ⟨he, hp a ha e he hid⟩, hid, horigin⟩

/-- The oldest spans may be deleted if nothing refers to them. -/
theorem Store.Intact.deleteSpans (h : db.Intact) (c : Int)
    (hattrs : ∀ a ∈ db.spanAttrs, c < a.owner) (hevents : ∀ e ∈ db.spanEvents, c < e.span) :
    Store.Intact { db with spans := db.spans.filter fun r => c < r.id } where
  contiguous := by
    have hrows : ∃ lo, 1 ≤ lo ∧
        db.spans.map SpanRow.id = List.range' lo (db.spans.map SpanRow.id).length := by
      rw [List.length_map]
      exact h.contiguous
    obtain ⟨lo, hlo, hids⟩ := contiguous_filter hrows c
    refine ⟨lo, hlo, ?_⟩
    rw [List.filter_map, List.length_map] at hids
    exact hids
  eventIds := h.eventIds
  spanAttrs a ha := by
    obtain ⟨r, hr, hid, horigin⟩ := h.spanAttrs a ha
    have hlt := hattrs a ha
    rw [← hid] at hlt
    exact ⟨r, List.mem_filter.mpr ⟨hr, by simpa using hlt⟩, hid, horigin⟩
  spanEvents e he := by
    obtain ⟨r, hr, hid, horigin⟩ := h.spanEvents e he
    have hlt := hevents e he
    rw [← hid] at hlt
    exact ⟨r, List.mem_filter.mpr ⟨hr, by simpa using hlt⟩, hid, horigin⟩
  eventAttrs := h.eventAttrs

theorem not_old (cutoff : Int64) (i : Nat) :
    (!decide ((i : Int) ≤ cutoff.toInt)) = decide (cutoff.toInt < i) := by
  by_cases h : (i : Int) ≤ cutoff.toInt
  · simp [h]
  · simp [h, Int.lt_of_not_ge h]

/-- Whatever statement of a prune is the last one to succeed, the store stays intact. -/
theorem Store.Intact.prune (h : db.Intact) (cutoff : Int64) {k : Nat} (hk : k ≤ 4) :
    (applyAll ((pruneStatements cutoff).take k) db).Intact := by
  have h1 := h.deleteEventAttrs fun row => !db.spanEvents.any fun e =>
    decide ((e.span : Int) ≤ cutoff.toInt) && e.id == row.owner
  have h2 := h1.deleteSpanAttrs fun row => !decide ((row.owner : Int) ≤ cutoff.toInt)
  have h3 := h2.deleteEvents (fun e => !decide ((e.span : Int) ≤ cutoff.toInt)) (by
    intro a ha e he hid
    have hkept := (List.mem_filter.mp ha).2
    simp only [Bool.not_eq_true', List.any_eq_false] at hkept
    have := hkept e he
    simpa [hid] using this)
  have h4 := h3.deleteSpans cutoff.toInt (by
    intro a ha
    have hkept := (List.mem_filter.mp ha).2
    rwa [not_old, decide_eq_true_eq] at hkept) (by
    intro e he
    have hkept := (List.mem_filter.mp he).2
    rwa [not_old, decide_eq_true_eq] at hkept)
  interval_cases k
  · exact h
  · exact h1
  · exact h2
  · exact h3
  · simpa only [pruneStatements, List.take, applyAll, List.foldl, not_old] using h4

/-! ## The sink -/

/-- The store is sound, and no statement to come rolls back. -/
structure OtelSqlite.Calm (st : OtelSqlite) : Prop where
  sound : st.Sound
  answers : Answer.rolledBack ∉ st.conn.answers

theorem OtelSqlite.Sound.congr (h : st.Sound) (hdata : st'.conn.data = st.conn.data)
    (hwritten : st'.written = st.written) : st'.Sound := by
  obtain ⟨h1, h2, h3, h4, h5⟩ := h
  constructor
  · rwa [hdata]
  · rwa [hdata]
  · rwa [hdata, hwritten]
  · rwa [hdata]
  · rwa [hdata, hwritten]

theorem insert_calm (h : Answer.rolledBack ∉ st.conn.answers) (f : Store → Store) :
    ∃ as ins, Answer.rolledBack ∉ as ∧
      (st.insert f = ({ st with
          conn := { st.conn with data := f st.conn.data, answers := as }, inserted := ins }, true) ∨
        st.insert f = ({ st with
          conn := { st.conn with answers := as }, inserted := ins }, false)) := by
  obtain ⟨as, has, hexec | hexec⟩ := exec_calm h f
  · exact ⟨as, _, has, Or.inl (by simp only [OtelSqlite.insert, hexec]; rfl)⟩
  · exact ⟨as, _, has, Or.inr (by simp only [OtelSqlite.insert, hexec]; rfl)⟩

theorem fresh_nodup {α : Type} {xs : List α} {f : α → Nat} {n : Nat} (h : (xs.map f).Nodup)
    (hlt : ∀ x ∈ xs, f x < n) {x : α} (hx : f x = n) : ((xs ++ [x]).map f).Nodup := by
  rw [List.map_append, List.map_singleton, List.nodup_append]
  refine ⟨h, List.nodup_singleton _, fun i hi j hj hij => ?_⟩
  obtain ⟨y, hy, rfl⟩ := List.mem_map.mp hi
  have := hlt y hy
  rw [hij, List.mem_singleton.mp hj, hx] at this
  exact Nat.lt_irrefl n this

/-- Inserting attributes under a row that is there. -/
theorem attrs_calm (h : st.Calm) (table : AttrTable) (owner origin : Nat)
    (howns : st.conn.data.Owns owner origin table) (s : OtelSpan) (attrs : List Nat) :
    (attrs.foldl (otelSqliteInsertAttr table owner origin s) st).Calm ∧
    (attrs.foldl (otelSqliteInsertAttr table owner origin s) st).conn.data.spans =
      st.conn.data.spans ∧
    (attrs.foldl (otelSqliteInsertAttr table owner origin s) st).conn.data.spanEvents =
      st.conn.data.spanEvents ∧
    (attrs.foldl (otelSqliteInsertAttr table owner origin s) st).curSpan = st.curSpan := by
  induction attrs generalizing st with
  | nil => exact ⟨h, rfl, rfl, rfl⟩
  | cons a attrs ih =>
    rw [List.foldl_cons]
    obtain ⟨as, ins, has, hins | hins⟩ := insert_calm h.answers
      fun db => db.addAttr (attrRow owner origin s a) table
    · have hrow : (attrRow owner origin s a).owner = owner ∧
          (attrRow owner origin s a).origin = origin := by
        unfold attrRow
        split <;> exact ⟨rfl, rfl⟩
      have hintact := h.sound.intact.insertAttr (attrRow owner origin s a) table (by
        rwa [hrow.1, hrow.2])
      have hspans : (st.conn.data.addAttr (attrRow owner origin s a) table).spans =
          st.conn.data.spans := by cases table <;> rfl
      have hevents : (st.conn.data.addAttr (attrRow owner origin s a) table).spanEvents =
          st.conn.data.spanEvents := by cases table <;> rfl
      have hst : otelSqliteInsertAttr table owner origin s st a = { st with
          conn := { st.conn with
            data := st.conn.data.addAttr (attrRow owner origin s a) table, answers := as }
          inserted := ins } := congrArg Prod.fst hins
      have hsound : (otelSqliteInsertAttr table owner origin s st a).Sound := by
        rw [hst]
        exact
          { intact := hintact
            spanOrigins := by rw [hspans]; exact h.sound.spanOrigins
            spanWritten := by rw [hspans]; exact h.sound.spanWritten
            eventOrigins := by rw [hevents]; exact h.sound.eventOrigins
            eventWritten := by rw [hevents]; exact h.sound.eventWritten }
      have howns' : (otelSqliteInsertAttr table owner origin s st a).conn.data.Owns owner origin
          table := by
        rw [hst]
        cases table with
        | span => exact howns
        | event => exact howns
      obtain ⟨hcalm, h1, h2, h3⟩ := ih ⟨hsound, by rw [hst]; exact has⟩ howns'
      refine ⟨hcalm, h1.trans ?_, h2.trans ?_, h3.trans ?_⟩
      · rw [hst]
        exact hspans
      · rw [hst]
        exact hevents
      · rw [hst]
    · have hst : otelSqliteInsertAttr table owner origin s st a = { st with
          conn := { st.conn with answers := as }, inserted := ins } := congrArg Prod.fst hins
      have hsame : (otelSqliteInsertAttr table owner origin s st a).Calm :=
        ⟨h.sound.congr (by rw [hst]) (by rw [hst]), by rw [hst]; exact has⟩
      obtain ⟨hcalm, h1, h2, h3⟩ := ih hsame (by rw [hst]; exact howns)
      refine ⟨hcalm, h1.trans ?_, h2.trans ?_, h3.trans ?_⟩
      · rw [hst]
      · rw [hst]
      · rw [hst]

/-- Inserting an event under the current span. -/
theorem event_calm (h : st.Calm) {origin : Nat} (howns : st.conn.data.Owns st.curSpan origin .span)
    {s : OtelSpan} {e : Nat} (hstep : otelSqliteEvent s origin st e = .ok st') :
    st'.Calm ∧ st'.conn.data.Owns st'.curSpan origin .span := by
  simp only [otelSqliteEvent] at hstep
  obtain ⟨as, ins, has, hins | hins⟩ := insert_calm h.answers fun db =>
    { db with
      spanEvents := db.spanEvents ++ [eventRow st.curSpan origin s e db.nextEvent st.written] }
  · simp only [hins, Bool.not_true, Bool.false_eq_true, if_false] at hstep
    obtain ⟨attrs, -, hstep⟩ := bind_ok hstep
    obtain rfl := Except.ok.inj hstep
    have hcalm : OtelSqlite.Calm { st with
        conn := { st.conn with
          data := { st.conn.data with spanEvents := st.conn.data.spanEvents ++
            [eventRow st.curSpan origin s e st.conn.data.nextEvent st.written] }
          answers := as }
        inserted := ins, written := st.written + 1 } :=
      { sound :=
          { intact := h.sound.intact.insertEvent _ rfl howns
            spanOrigins := h.sound.spanOrigins
            spanWritten := fun r hr => Nat.lt_succ_of_lt (h.sound.spanWritten r hr)
            eventOrigins := fresh_nodup h.sound.eventOrigins h.sound.eventWritten rfl
            eventWritten := by
              intro e' he'
              rcases List.mem_append.mp he' with he' | he'
              · exact Nat.lt_succ_of_lt (h.sound.eventWritten e' he')
              · rw [List.mem_singleton.mp he']
                exact Nat.lt_succ_self _ }
        answers := has }
    obtain ⟨hcalm', hspans, -, hcur⟩ := attrs_calm hcalm .event st.conn.data.nextEvent st.written
      ⟨_, List.mem_append_right _ (List.mem_singleton_self _), rfl, rfl⟩ s attrs
    refine ⟨hcalm', ?_⟩
    rw [Store.Owns, hspans, hcur]
    exact howns
  · simp only [hins, Bool.not_false, if_true, Except.ok.injEq] at hstep
    subst hstep
    exact ⟨⟨h.sound.congr rfl rfl, has⟩, howns⟩

theorem events_calm (h : st.Calm) {origin : Nat}
    (howns : st.conn.data.Owns st.curSpan origin .span) {s : OtelSpan} {events : List Nat}
    (hstep : events.foldlM (otelSqliteEvent s origin) st = .ok st') : st'.Calm := by
  induction events generalizing st with
  | nil =>
    obtain rfl := Except.ok.inj hstep
    exact h
  | cons e events ih =>
    rw [List.foldlM_cons] at hstep
    obtain ⟨st₁, h1, h2⟩ := bind_ok hstep
    obtain ⟨hcalm, howns₁⟩ := event_calm h howns h1
    exact ih hcalm howns₁ h2

theorem span_calm (h : st.Calm) {s : OtelSpan} (hstep : otelSqliteSpan service st s = .ok st') :
    st'.Calm := by
  simp only [otelSqliteSpan] at hstep
  cases hin : st.inTxn with
  | false =>
    simp only [hin, Bool.not_false, if_true, Except.ok.injEq] at hstep
    subst hstep
    exact h
  | true =>
    simp only [hin, Bool.not_true, Bool.false_eq_true, if_false] at hstep
    obtain ⟨as, ins, has, hins | hins⟩ := insert_calm h.answers fun db =>
      { db with spans := db.spans ++ [spanRow service s db.nextSpan st.written] }
    · simp only [hins, Bool.not_true, Bool.false_eq_true, if_false] at hstep
      obtain ⟨attrs, -, hstep⟩ := bind_ok hstep
      obtain ⟨events, -, hstep⟩ := bind_ok hstep
      have hcalm : OtelSqlite.Calm { st with
          conn := { st.conn with
            data := { st.conn.data with spans := st.conn.data.spans ++
              [spanRow service s st.conn.data.nextSpan st.written] }
            answers := as }
          inserted := ins, curSpan := st.conn.data.nextSpan, written := st.written + 1 } :=
        { sound :=
            { intact := h.sound.intact.insertSpan _ rfl
              spanOrigins := fresh_nodup h.sound.spanOrigins h.sound.spanWritten rfl
              spanWritten := by
                intro r hr
                rcases List.mem_append.mp hr with hr | hr
                · exact Nat.lt_succ_of_lt (h.sound.spanWritten r hr)
                · rw [List.mem_singleton.mp hr]
                  exact Nat.lt_succ_self _
              eventOrigins := h.sound.eventOrigins
              eventWritten := fun e he => Nat.lt_succ_of_lt (h.sound.eventWritten e he) }
          answers := has }
      obtain ⟨hcalm', hspans, -, hcur⟩ := attrs_calm hcalm .span st.conn.data.nextSpan st.written
        ⟨_, List.mem_append_right _ (List.mem_singleton_self _), rfl, rfl⟩ s attrs
      refine events_calm hcalm' ?_ hstep
      rw [Store.Owns, hspans, hcur]
      exact ⟨_, List.mem_append_right _ (List.mem_singleton_self _), rfl, rfl⟩
    · simp only [hins, Bool.not_false, if_true, Except.ok.injEq] at hstep
      subst hstep
      exact ⟨h.sound.congr rfl rfl, has⟩

/-! ## Pruning the store of the sink -/

/-- A prune without rollbacks has the effect of some of its statements, from the first on. -/
theorem prune_calm (h : Answer.rolledBack ∉ st.conn.answers) :
    ∃ as cutoff k, Answer.rolledBack ∉ as ∧ k ≤ 4 ∧ otelSqlitePrune st = { st with
      conn := { st.conn with
        data := applyAll ((pruneStatements cutoff).take k) st.conn.data, answers := as } } := by
  unfold otelSqlitePrune
  split_ifs with hmax
  · exact ⟨st.conn.answers, 0, 0, h, Nat.zero_le _, rfl⟩
  · obtain ⟨as, has, hprepare | hprepare⟩ := exec_calm h id
    · have hdata : (st.conn.exec id).1 = { st.conn with answers := as } := congrArg Prod.fst hprepare
      have hok : (st.conn.exec id).2 = true := congrArg Prod.snd hprepare
      obtain ⟨bs, hbs, hselect⟩ := exec_calm (c := { st.conn with answers := as }) has id
      have hdata' : ((st.conn.exec id).1.exec id).1 = { st.conn with answers := bs } := by
        rw [hdata]
        rcases hselect with hselect | hselect <;> exact congrArg Prod.fst hselect
      simp only [hok, Bool.not_true, Bool.false_eq_true, if_false, hdata']
      generalize (if ((st.conn.exec id).1.exec id).2 = true then
        Int64.ofNat (maxId ((st.conn.exec id).1.data.spans.map SpanRow.id)) else 0) -
          st.maxSpans.toInt64 = cutoff
      split_ifs
      · exact ⟨bs, 0, 0, hbs, Nat.zero_le _, rfl⟩
      · obtain ⟨cs, k, hcs, hk, hall, -⟩ := execAll_calm (c := { st.conn with answers := bs }) hbs
          (pruneStatements cutoff)
        exact ⟨cs, cutoff, k, hcs, hk, by rw [hall]⟩
    · refine ⟨as, 0, 0, has, Nat.zero_le _, ?_⟩
      simp only [hprepare]
      rfl

theorem prune_sound (h : st.Calm) : (otelSqlitePrune st).Calm := by
  obtain ⟨as, cutoff, k, has, hk, heq⟩ := prune_calm h.answers
  have hdelete : ∀ db : Store, (applyAll ((pruneStatements cutoff).take k) db).spans.Sublist db.spans ∧
      (applyAll ((pruneStatements cutoff).take k) db).spanEvents.Sublist db.spanEvents := by
    intro db
    interval_cases k
    · exact ⟨List.Sublist.refl _, List.Sublist.refl _⟩
    · exact ⟨List.Sublist.refl _, List.Sublist.refl _⟩
    · exact ⟨List.Sublist.refl _, List.Sublist.refl _⟩
    · exact ⟨List.Sublist.refl _, List.filter_sublist⟩
    · exact ⟨List.filter_sublist, List.filter_sublist⟩
  obtain ⟨hspans, hevents⟩ := hdelete st.conn.data
  rw [heq]
  exact
    { sound :=
        { intact := h.sound.intact.prune cutoff hk
          spanOrigins := h.sound.spanOrigins.sublist (hspans.map _)
          spanWritten := fun r hr => h.sound.spanWritten r (hspans.subset hr)
          eventOrigins := h.sound.eventOrigins.sublist (hevents.map _)
          eventWritten := fun e he => h.sound.eventWritten e (hevents.subset he) }
      answers := has }

/-! ## Runs -/

theorem end_calm (h : st.Calm) : (otelSqliteEnd st).Calm := by
  obtain ⟨hdata, hanswers⟩ := data_commit h.answers
  have hcalm : OtelSqlite.Calm
      { st with conn := st.conn.commit.1, inTxn := false, commits := st.commits + 1 } :=
    ⟨h.sound.congr hdata rfl, hanswers⟩
  simp only [otelSqliteEnd]
  split_ifs
  · exact h
  · exact prune_sound hcalm
  · exact hcalm

theorem OtelSqlite.Sound.expect (h : st.Sound) (answers : List Answer) : (st.expect answers).Sound :=
  h.congr rfl rfl

theorem store_step (h : st.Sound) {op : StoreOp} (hcalm : Answer.rolledBack ∉ op.answers)
    (hstep : storeStep service st op = .ok st') : st'.Sound := by
  cases op with
  | prune answers =>
    obtain rfl := Except.ok.inj hstep
    exact (prune_sound ⟨h.expect answers, hcalm⟩).sound
  | call c =>
    cases c with
    | begin answers =>
      obtain rfl := Except.ok.inj hstep
      exact h.congr (data_beginTxn (st.expect answers).conn _) rfl
    | span s answers => exact (span_calm ⟨h.expect answers, hcalm⟩ hstep).sound
    | finish answers =>
      obtain rfl := Except.ok.inj hstep
      exact (end_calm ⟨h.expect answers, hcalm⟩).sound.congr rfl rfl
    | setMaxSpans n =>
      obtain rfl := Except.ok.inj hstep
      exact h.congr rfl rfl

theorem sound_opened : (OtelSqlite.opened Store.empty).Sound where
  intact :=
    { contiguous := ⟨1, Nat.le_refl 1, rfl⟩
      eventIds := List.nodup_nil
      spanAttrs := by simp [OtelSqlite.opened, Store.empty]
      spanEvents := by simp [OtelSqlite.opened, Store.empty]
      eventAttrs := by simp [OtelSqlite.opened, Store.empty] }
  spanOrigins := List.nodup_nil
  spanWritten := by simp [OtelSqlite.opened, Store.empty]
  eventOrigins := List.nodup_nil
  eventWritten := by simp [OtelSqlite.opened, Store.empty]

theorem sound_run {ops : List StoreOp}
    (h : (storeMachine service).Run (OtelSqlite.opened Store.empty) ops st) : st.Sound :=
  h.invariant sound_opened fun _ _ _ _ hi hcalm hstep => store_step hi hcalm hstep

/-- In every run from an empty store, whatever statements fail and whenever the store is pruned, the
rows of attributes and of events are below the one row with their owner's id, which is the row of the
span or event that they were recorded on, and the ids of the spans are an interval. -/
theorem store_integrity (service : Bytes) (ops : List StoreOp) (st : OtelSqlite)
    (h : (storeMachine service).Run (OtelSqlite.opened Store.empty) ops st) :
    (∀ a ∈ st.conn.data.spanAttrs, (∃ r ∈ st.conn.data.spans, r.id = a.owner) ∧
      ∀ r ∈ st.conn.data.spans, r.id = a.owner → r.origin = a.origin) ∧
    (∀ e ∈ st.conn.data.spanEvents, (∃ r ∈ st.conn.data.spans, r.id = e.span) ∧
      ∀ r ∈ st.conn.data.spans, r.id = e.span → r.origin = e.spanOrigin) ∧
    (∀ a ∈ st.conn.data.spanEventAttrs, (∃ e ∈ st.conn.data.spanEvents, e.id = a.owner) ∧
      ∀ e ∈ st.conn.data.spanEvents, e.id = a.owner → e.origin = a.origin) ∧
    (st.conn.data.spans.map SpanRow.origin).Nodup ∧
    (st.conn.data.spanEvents.map EventRow.origin).Nodup ∧
    ∃ lo, st.conn.data.spans.map SpanRow.id = List.range' lo st.conn.data.spans.length := by
  have hsound := sound_run h
  obtain ⟨lo, -, hids⟩ := hsound.intact.contiguous
  have hnodup : (st.conn.data.spans.map SpanRow.id).Nodup := by
    rw [hids]
    exact List.nodup_range'
  refine ⟨fun a ha => ?_, fun e he => ?_, fun a ha => ?_, hsound.spanOrigins, hsound.eventOrigins,
    lo, hids⟩
  · obtain ⟨r, hr, hid, horigin⟩ := hsound.intact.spanAttrs a ha
    refine ⟨⟨r, hr, hid⟩, fun r' hr' hid' => ?_⟩
    rw [List.inj_on_of_nodup_map hnodup hr' hr (hid'.trans hid.symm)]
    exact horigin
  · obtain ⟨r, hr, hid, horigin⟩ := hsound.intact.spanEvents e he
    refine ⟨⟨r, hr, hid⟩, fun r' hr' hid' => ?_⟩
    rw [List.inj_on_of_nodup_map hnodup hr' hr (hid'.trans hid.symm)]
    exact horigin
  · obtain ⟨e, he, hid, horigin⟩ := hsound.intact.eventAttrs a ha
    refine ⟨⟨e, he, hid⟩, fun e' he' hid' => ?_⟩
    rw [List.inj_on_of_nodup_map hsound.intact.eventIds he' he (hid'.trans hid.symm)]
    exact horigin

/-- Two spans, the first with an attribute; the statement that inserts the event of the second fails. -/
theorem store_integrity_sample : ∃ st : OtelSqlite,
    st.conn.data.spanAttrs.map AttrRow.owner = [1] ∧ st.conn.data.spanEvents = [] ∧
    ∃ lo, st.conn.data.spans.map SpanRow.id = List.range' lo st.conn.data.spans.length :=
  ⟨_, rfl, rfl, (store_integrity [] [.call (.begin []),
      .call (.span (otelSpanAttrI64 (sampleSession [104]).span (some [107]) 5) []),
      .call (.span (otelSpanEvent (sampleSession [104]).span (some [101]) 9).1 [.done, .failed]),
      .call (.finish [])] _
    (.cons List.not_mem_nil rfl
      (.cons List.not_mem_nil rfl
        (.cons (show Answer.rolledBack ∉ [Answer.done, .failed] by decide) rfl
          (.cons List.not_mem_nil rfl .nil))))).2.2.2.2.2⟩

end OtelTracing
