import OtelTracing.Proofs.HeadProofs
import OtelTracing.Proofs.RowProofs
import OtelTracing.Proofs.SqliteProofs
import OtelTracing.Proofs.RetentionProofs

/-!
# Proofs: the exporters agree

If no statement fails, the rows that the sink inserts for a span say what the encoder's message says
(`exporters_agree`).
-/

namespace OtelTracing

open ByteMem Txn Outcome

variable {st st' st'' : OtelSqlite} {service : Bytes}

/-! ## Hex digits -/

theorem unhexd_hexd : ∀ n < 16, unhexd (hexd.getD n 0) = some (UInt8.ofNat n) := by decide

theorem byte_halves : ∀ n < 256, (UInt8.ofNat n >>> 4).toNat < 16 ∧
    (UInt8.ofNat n &&& 0xf).toNat < 16 ∧
    (UInt8.ofNat n >>> 4) <<< 4 ||| (UInt8.ofNat n &&& 0xf) = UInt8.ofNat n := by
  decide +kernel

/-- Decoding the hex digits of a string gives the string back. -/
theorem unhex_otelSqliteHex (bs : Bytes) : unhex (otelSqliteHex bs) = some bs := by
  induction bs with
  | nil => rfl
  | cons b bs ih =>
    obtain ⟨hhi, hlo, hb⟩ := byte_halves b.toNat b.toNat_lt
    rw [UInt8.ofNat_toNat] at hhi hlo hb
    have hcons : otelSqliteHex (b :: bs) = hexd.getD (b >>> 4).toNat 0 ::
        hexd.getD (b &&& 0xf).toNat 0 :: otelSqliteHex bs := rfl
    rw [hcons, unhex, unhexd_hexd _ hhi, unhexd_hexd _ hlo, ih, UInt8.ofNat_toNat,
      UInt8.ofNat_toNat]
    simp [hb]

/-! ## Columns -/

theorem sameTime (time : UInt64) : SameTime time.toInt64 time where
  bits := by simp
  number := by
    have hlt := time.toNat_lt
    have hint : time.toInt64.toInt = if 2 * time.toNat < 2 ^ 64 then (time.toNat : Int)
        else time.toNat - (2 ^ 64 : Nat) :=
      BitVec.toInt_eq_toNat_cond time.toBitVec
    rw [hint]
    split_ifs <;> omega

theorem kindName_agrees (k : UInt8) :
    ascii "SPAN_KIND_" ++ upper (kindName k.toNat) = (protoKind k).name := by
  rw [← otlpKind_eq]
  unfold otlpKind
  split_ifs with h1 h2 h3 h4
  · rw [h1]
    decide
  · rw [h2]
    decide
  · rw [h3]
    decide
  · rw [h4]
    decide
  · have hother : ∀ c : UInt8, k ≠ c → (k.toNat : Int) ≠ c.toNat :=
      fun c hc h => hc (UInt8.toNat_inj.mp (Int.ofNat.inj h))
    have hdefault : kindName k.toNat = ascii "internal" := by
      unfold kindName
      split
      · exact absurd ‹_› (hother 1 h1)
      · exact absurd ‹_› (hother 2 h2)
      · exact absurd ‹_› (hother 3 h3)
      · exact absurd ‹_› (hother 4 h4)
      · rfl
    rw [hdefault]
    decide

theorem statusName_agrees (s : UInt8) :
    ascii "STATUS_CODE_" ++ upper (statusName s.toNat) = (protoStatus s).name := by
  rw [← otlpStatusCode_eq]
  unfold otlpStatusCode
  split_ifs with h1 h2
  · rw [h1]
    decide
  · rw [h2]
    decide
  · have hother : ∀ c : UInt8, s ≠ c → (s.toNat : Int) ≠ c.toNat :=
      fun c hc h => hc (UInt8.toNat_inj.mp (Int.ofNat.inj h))
    have hdefault : statusName s.toNat = ascii "unset" := by
      unfold statusName
      split
      · exact absurd ‹_› (hother 1 h2)
      · exact absurd ‹_› (hother 2 h1)
      · rfl
    rw [hdefault]
    decide

/-- The row of a span says what its message says. -/
theorem row_agrees (s : OtelSpan) (v : SpanView) (id origin : Nat) :
    (v.row service s id origin).Agrees (spanProto s v) where
  traceId := unhex_otelSqliteHex _
  spanId := unhex_otelSqliteHex _
  parentId := by
    intro hex hhex
    by_cases hz : s.parentId = 0
    · simp [SpanView.row, hz] at hhex
    · simp only [SpanView.row, ne_eq, hz, not_false_iff, if_true, Option.some.injEq] at hhex
      rw [← hhex, unhex_otelSqliteHex, spanProto, if_neg hz]
  parentId_null := by
    by_cases hz : s.parentId = 0
    · simp [SpanView.row, spanProto, hz]
    · have hlen : (le 8 s.parentId.toNat).length = 8 := by simp
      have hne : le 8 s.parentId.toNat ≠ [] := by
        intro hnil
        simp [hnil] at hlen
      simp [SpanView.row, spanProto, hz, hne]
  name := rfl
  kind := kindName_agrees s.kind
  statusCode := statusName_agrees v.status
  statusMessage := rfl
  startTime := sameTime _
  endTime := sameTime _
  droppedAttrs := rfl
  droppedEvents := rfl

/-- SQLite can store the value of the attribute. -/
def AttrView.Storable (a : AttrView) : Prop :=
  ∀ bits, a.value = .f64 bits → sqliteReal bits = some bits

/-- The row of an attribute stands for the pair in the message. -/
theorem row_pair {a : AttrView} (h : a.Storable) (owner origin : Nat) :
    (a.row owner origin).pair = some a.proto := by
  obtain ⟨key, value⟩ := a
  cases value with
  | str v => rfl
  | i64 v => rfl
  | u64 v => rfl
  | f64 bits =>
    simp only [AttrRow.pair, AttrView.row, h bits rfl]
    rfl
  | bool v => cases v <;> rfl

theorem rows_pairs {as : List AttrView} (h : ∀ a ∈ as, a.Storable) (owner origin : Nat) :
    (as.map (AttrView.row owner origin)).map AttrRow.pair = (as.map AttrView.proto).map some := by
  rw [List.map_map, List.map_map]
  exact List.map_congr_left fun a ha => row_pair (h a ha) owner origin

theorem row_owner (a : AttrView) (owner origin : Nat) : (a.row owner origin).owner = owner := by
  obtain ⟨key, value⟩ := a
  cases value <;> rfl

theorem AttrNode.storable (a : AttrNode) : a.view.cut.Storable := by
  intro bits hbits
  obtain ⟨off, key, value⟩ := a
  cases value <;> simp [AttrNode.view, AttrView.cut, ValNode.view, AttrValue.cut] at hbits

/-- All attributes of a laid-out span can be stored. -/
theorem Layout.storable (L : Layout) (s : OtelSpan) :
    (∀ a ∈ (L.view s).cut.attrs, a.Storable) ∧
      ∀ e ∈ (L.view s).cut.events, ∀ a ∈ e.attrs, a.Storable := by
  constructor
  · intro a ha
    simp only [SpanView.cut, Layout.view, List.map_map, List.mem_map] at ha
    obtain ⟨node, -, rfl⟩ := ha
    exact node.storable
  · intro e he a ha
    simp only [SpanView.cut, Layout.view, List.map_map, List.mem_map] at he
    obtain ⟨event, -, rfl⟩ := he
    simp only [Function.comp_apply, EventView.cut, EventNode.view, List.map_map,
      List.mem_map] at ha
    obtain ⟨node, -, rfl⟩ := ha
    exact node.storable

/-! ## Inserting without failures -/

/-- From `st` to `st'` the rows were inserted, and no statement failed. -/
structure Wrote (rows : Store) (st st' : OtelSqlite) : Prop where
  data : st'.conn.data = st.conn.data.append rows
  done : ∀ r ∈ st'.conn.answers, r = Answer.done
  curSpan : st'.curSpan = st.curSpan

theorem append_empty (db : Store) : db.append Store.empty = db := by
  simp [Store.append, Store.empty]

theorem append_assoc (db rows rows' : Store) :
    (db.append rows).append rows' = db.append (rows.append rows') := by
  simp [Store.append]

theorem since_append (db rows : Store) : (db.append rows).since db = rows := by
  simp [Store.since, Store.append]

theorem Wrote.trans {rows rows' : Store} (h : Wrote rows st st') (h' : Wrote rows' st' st'') :
    Wrote (rows.append rows') st st'' where
  data := by rw [h'.data, h.data, append_assoc]
  done := h'.done
  curSpan := h'.curSpan.trans h.curSpan

theorem insert_done (h : ∀ r ∈ st.conn.answers, r = Answer.done) (f : Store → Store) :
    (st.insert f).2 = true ∧ (st.insert f).1.conn.data = f st.conn.data ∧
    (∀ r ∈ (st.insert f).1.conn.answers, r = Answer.done) ∧
    (st.insert f).1.curSpan = st.curSpan := by
  obtain ⟨as, has, hexec⟩ := exec_done h f
  rw [OtelSqlite.insert, hexec]
  exact ⟨rfl, rfl, has, rfl⟩

/-- Rows of one of the two tables of attributes. -/
def AttrTable.rows (as : List AttrRow) : AttrTable → Store
  | .span => { Store.empty with spanAttrs := as }
  | .event => { Store.empty with spanEventAttrs := as }

theorem wrote_attrs (h : ∀ r ∈ st.conn.answers, r = Answer.done) (table : AttrTable)
    (owner origin : Nat) (as : List AttrView) :
    Wrote (table.rows (as.map (AttrView.row owner origin))) st
      (as.foldl (putAttr table owner origin) st) := by
  induction as generalizing st with
  | nil =>
    refine ⟨?_, h, rfl⟩
    cases table <;> exact (append_empty _).symm
  | cons a as ih =>
    obtain ⟨-, hdata, hdone, hcur⟩ :=
      insert_done h fun db => db.addAttr (a.row owner origin) table
    have hhead : Wrote (table.rows [a.row owner origin]) st (putAttr table owner origin st a) := by
      refine ⟨?_, hdone, hcur⟩
      rw [putAttr, hdata]
      cases table <;> simp [Store.addAttr, Store.append, AttrTable.rows, Store.empty]
    have htail := hhead.trans (ih hdone)
    have hrows : (table.rows [a.row owner origin]).append
        (table.rows (as.map (AttrView.row owner origin))) =
        table.rows ((a :: as).map (AttrView.row owner origin)) := by
      cases table <;> simp [Store.append, AttrTable.rows, Store.empty]
    rwa [hrows] at htail

theorem maxId_append (xs ys : List Nat) : maxId (xs ++ ys) = max (maxId xs) (maxId ys) := by
  induction xs with
  | nil => simp [maxId]
  | cons x xs ih =>
    show max x (maxId (xs ++ ys)) = max (max x (maxId xs)) (maxId ys)
    rw [ih, Nat.max_assoc]

/-- The row of an event with those of its attributes. -/
def eventRows (span spanOrigin id origin : Nat) (e : EventView) : Store where
  spans := []
  spanAttrs := []
  spanEvents := [e.row span spanOrigin id origin]
  spanEventAttrs := e.attrs.map (AttrView.row id origin)

theorem wrote_event (h : ∀ r ∈ st.conn.answers, r = Answer.done) (spanOrigin : Nat)
    (e : EventView) :
    Wrote (eventRows st.curSpan spanOrigin st.conn.data.nextEvent st.written e) st
        (putEvent spanOrigin st e) ∧
      (putEvent spanOrigin st e).conn.data.nextEvent = st.conn.data.nextEvent + 1 := by
  have hrow := insert_done h fun db =>
    { db with
      spanEvents := db.spanEvents ++ [e.row st.curSpan spanOrigin db.nextEvent st.written] }
  simp only [putEvent]
  generalize (st.insert fun db => _) = r at hrow ⊢
  obtain ⟨hok, hdata, hdone, hcur⟩ := hrow
  rw [if_pos hok]
  have hstart : ∀ a ∈ { r.1 with written := st.written + 1 }.conn.answers, a = Answer.done := hdone
  have hattrs := wrote_attrs hstart .event st.conn.data.nextEvent st.written e.attrs
  have hwrote : Wrote (eventRows st.curSpan spanOrigin st.conn.data.nextEvent st.written e) st
      (e.attrs.foldl (putAttr .event st.conn.data.nextEvent st.written)
        { r.1 with written := st.written + 1 }) := by
    refine ⟨?_, hattrs.done, hattrs.curSpan.trans hcur⟩
    rw [hattrs.data]
    show r.1.conn.data.append _ = _
    rw [hdata]
    simp [Store.append, AttrTable.rows, Store.empty, eventRows]
  refine ⟨hwrote, ?_⟩
  rw [Store.nextEvent, hwrote.data]
  have hid : (e.row st.curSpan spanOrigin st.conn.data.nextEvent st.written).id =
      maxId (st.conn.data.spanEvents.map EventRow.id) + 1 := rfl
  simp only [Store.append, eventRows, List.map_append, maxId_append, List.map_cons, List.map_nil,
    hid]
  simp [maxId, Store.nextEvent]

/-- The rows of the events `es` of one span, with ids from `lo` on. -/
structure EventsWritten (span lo : Nat) (rows : Store) (es : List EventView) : Prop where
  spans : rows.spans = []
  spanAttrs : rows.spanAttrs = []
  span : ∀ e ∈ rows.spanEvents, e.span = span
  ids : rows.spanEvents.map EventRow.id = List.range' lo es.length
  agree : List.Forall₂ (EventRow.Agrees rows) rows.spanEvents (es.map EventView.proto)
  owner : ∀ a ∈ rows.spanEventAttrs, lo ≤ a.owner ∧ a.owner < lo + es.length

theorem wrote_events (h : ∀ r ∈ st.conn.answers, r = Answer.done) (spanOrigin : Nat)
    {es : List EventView} (hes : ∀ e ∈ es, ∀ a ∈ e.attrs, a.Storable) :
    ∃ rows, Wrote rows st (es.foldl (putEvent spanOrigin) st) ∧
      EventsWritten st.curSpan st.conn.data.nextEvent rows es := by
  induction es generalizing st with
  | nil =>
    refine ⟨Store.empty, ⟨(append_empty _).symm, h, rfl⟩, ?_⟩
    exact ⟨rfl, rfl, by simp [Store.empty], rfl, List.Forall₂.nil, by simp [Store.empty]⟩
  | cons e es ih =>
    obtain ⟨hhead, hnext⟩ := wrote_event h spanOrigin e
    obtain ⟨rows, htail, hrows⟩ := ih hhead.done fun e' he' => hes e' (List.mem_cons_of_mem _ he')
    rw [hnext, hhead.curSpan] at hrows
    refine ⟨_, hhead.trans htail, ?_⟩
    generalize st.conn.data.nextEvent = id at hhead hnext hrows ⊢
    have hown : ∀ a ∈ e.attrs.map (AttrView.row id st.written), a.owner = id := by
      intro a ha
      obtain ⟨v, -, rfl⟩ := List.mem_map.mp ha
      exact row_owner v id st.written
    constructor
    · exact hrows.spans
    · exact hrows.spanAttrs
    · intro e' he'
      rcases List.mem_append.mp he' with he' | he'
      · rw [List.mem_singleton.mp he']
        rfl
      · exact hrows.span e' he'
    · show id :: rows.spanEvents.map EventRow.id = _
      rw [hrows.ids, List.length_cons, List.range'_succ]
    · refine List.Forall₂.cons ?_ ?_
      · -- the later rows have other owners
        refine ⟨rfl, sameTime _, ?_⟩
        have hmine : (e.attrs.map (AttrView.row id st.written)).filter
            (fun a => a.owner = id) = e.attrs.map (AttrView.row id st.written) :=
          List.filter_eq_self.mpr fun a ha => by simp [hown a ha]
        have hothers : rows.spanEventAttrs.filter (fun a => a.owner = id) = [] := by
          refine List.filter_eq_nil_iff.mpr fun a ha => ?_
          have := (hrows.owner a ha).1
          simp only [decide_eq_true_eq]
          omega
        show (((e.attrs.map (AttrView.row id st.written)) ++ rows.spanEventAttrs).filter
          fun a => a.owner = id).map AttrRow.pair = _
        rw [List.filter_append, hmine, hothers, List.append_nil]
        exact rows_pairs (hes e (by simp)) id st.written
      · -- the attributes of this event have another owner
        refine (List.forall₂_iff_get.mpr ?_)
        obtain ⟨hlen, hget⟩ := List.forall₂_iff_get.mp hrows.agree
        refine ⟨hlen, fun i hi hj => ?_⟩
        obtain ⟨hname, htime, hattrs⟩ := hget i hi hj
        refine ⟨hname, htime, ?_⟩
        have hmem : (rows.spanEvents.get ⟨i, hi⟩).id ∈ rows.spanEvents.map EventRow.id :=
          List.mem_map.mpr ⟨_, List.get_mem _ _, rfl⟩
        rw [hrows.ids, List.mem_range'_1] at hmem
        have hnone : (e.attrs.map (AttrView.row id st.written)).filter
            (fun a => a.owner = (rows.spanEvents.get ⟨i, hi⟩).id) = [] := by
          refine List.filter_eq_nil_iff.mpr fun a ha => ?_
          simp only [hown a ha, decide_eq_true_eq]
          omega
        show (((e.attrs.map (AttrView.row id st.written)) ++ rows.spanEventAttrs).filter
          fun a => a.owner = (rows.spanEvents.get ⟨i, hi⟩).id).map AttrRow.pair = _
        rw [List.filter_append, hnone, List.nil_append]
        exact hattrs
    · intro a ha
      rw [List.length_cons]
      rcases List.mem_append.mp ha with ha | ha
      · have := hown a ha
        omega
      · have := hrows.owner a ha
        omega

/-- The rows of a span. -/
theorem wrote_span (service : Bytes) (h : ∀ r ∈ st.conn.answers, r = Answer.done)
    (hin : st.inTxn = true) (s : OtelSpan) {v : SpanView} (hattrs : ∀ a ∈ v.attrs, a.Storable)
    (hevents : ∀ e ∈ v.events, ∀ a ∈ e.attrs, a.Storable) :
    ∃ rows row, (putSpan service s v st).conn.data = st.conn.data.append rows ∧
      Describes rows row (spanProto s v) := by
  have hrow := insert_done h fun db =>
    { db with spans := db.spans ++ [v.row service s db.nextSpan st.written] }
  simp only [putSpan, hin, if_true]
  generalize (st.insert fun db => _) = r at hrow ⊢
  obtain ⟨hok, hdata, hdone, -⟩ := hrow
  rw [if_pos hok]
  have hstart : ∀ a ∈ { r.1 with
      curSpan := st.conn.data.nextSpan, written := st.written + 1 }.conn.answers,
      a = Answer.done := hdone
  have has := wrote_attrs hstart .span st.conn.data.nextSpan st.written v.attrs
  obtain ⟨rows, hes, hrows⟩ := wrote_events has.done st.written hevents
  rw [has.curSpan] at hrows
  refine ⟨{ spans := [v.row service s st.conn.data.nextSpan st.written]
            spanAttrs := v.attrs.map (AttrView.row st.conn.data.nextSpan st.written)
            spanEvents := rows.spanEvents
            spanEventAttrs := rows.spanEventAttrs },
    v.row service s st.conn.data.nextSpan st.written, ?_, ?_⟩
  · rw [hes.data, has.data]
    show (r.1.conn.data.append _).append _ = _
    rw [hdata]
    simp [Store.append, AttrTable.rows, Store.empty, hrows.spans, hrows.spanAttrs]
  · refine
      { spans := rfl
        agrees := row_agrees s v _ _
        attr_owner := ?_
        attrs := rows_pairs hattrs _ _
        event_span := hrows.span
        event_ids := ?_
        events := hrows.agree.imp fun _ _ hagree => ⟨hagree.name, hagree.time, hagree.attrs⟩
        event_attr_owner := ?_ }
    · intro a ha
      obtain ⟨view, -, rfl⟩ := List.mem_map.mp ha
      exact row_owner view _ _
    · rw [hrows.ids]
      exact List.nodup_range'
    · intro a ha
      rw [hrows.ids, List.mem_range'_1]
      exact hrows.owner a ha

/-! ## Runs without failures -/

/-- A pass has its transaction open. -/
structure OtelSqlite.Smooth (st : OtelSqlite) : Prop where
  inTxn : st.inTxn = st.inPass
  owner : st.conn.owner.isSome = st.inPass

theorem beginTxn_done {c : Conn Nat Store} (h : c.owner = none)
    (hdone : ∀ r ∈ c.answers, r = Answer.done) (who : Nat) :
    (c.beginTxn who).2 = true ∧ (c.beginTxn who).1.owner = some who := by
  have htxn := owner_eq_none.mp h
  unfold Conn.beginTxn
  rw [if_neg (by simp [htxn])]
  split
  · exact ⟨rfl, rfl⟩
  · exact ⟨rfl, rfl⟩
  · rename_i r as hne has
    exact absurd (hdone r (by simp [has])) hne

theorem smooth_step {call : SinkCall} (h : st.Smooth) (he : call.Possible service st)
    (hdone : ∀ r ∈ call.answers, r = Answer.done) (hstep : sqliteStep service st call = .ok st') :
    st'.Smooth := by
  obtain ⟨horder, hall⟩ := he
  have hnil := hall st' hstep
  cases call with
  | begin answers =>
    obtain rfl := Except.ok.inj hstep
    have howner : (st.expect answers).conn.owner = none := by
      have := h.owner
      rw [show st.inPass = false from horder] at this
      simpa [OtelSqlite.expect, Conn.owner] using this
    obtain ⟨hok, hnew⟩ := beginTxn_done howner hdone ((st.expect answers).pass + 1)
    refine ⟨hok, ?_⟩
    show (Conn.owner _).isSome = true
    simp only [otelSqliteBegin, hnew, Option.isSome_some]
  | span s answers =>
    obtain ⟨as, hins, -⟩ := inserts_span hstep
    have hcalm : Answer.rolledBack ∉ as := by
      intro hmem
      have hanswers : answers = as ++ st'.conn.answers := hins.executes.answers
      have hfailed : Answer.rolledBack ∈ answers := by
        rw [hanswers]
        exact List.mem_append_left _ hmem
      exact absurd (hdone _ hfailed) (by decide)
    have howner := hins.executes.owner
    rw [if_neg hcalm] at howner
    refine ⟨hins.inTxn.trans (h.inTxn.trans hins.inPass.symm), ?_⟩
    rw [howner, hins.inPass]
    exact h.owner
  | finish answers =>
    obtain rfl := Except.ok.inj hstep
    have hin : (st.expect answers).inTxn = true := h.inTxn.trans horder
    have howner : (st.expect answers).conn.owner ≠ none := by
      have := h.owner
      rw [show st.inPass = true from horder] at this
      exact Option.isSome_iff_ne_none.mp this
    obtain ⟨hclosed, -, hflag, -⟩ := end_cases hin howner
    refine ⟨hflag, ?_⟩
    have hnone := (hclosed hnil).mpr fun hhead =>
      absurd (hdone .failed (List.mem_of_mem_head? hhead)) (by decide)
    show (Conn.owner _).isSome = false
    simp [hnone]
  | setMaxSpans n =>
    obtain rfl := Except.ok.inj hstep
    exact ⟨h.inTxn, h.owner⟩

/-- In every run in which no statement fails, the rows that the sink inserts for a finished span say
what the encoder's message for the span says: the ids, the names, the status, the drop counters of
the span, the attributes and the events with their attributes are the same, and the times have the
same 64 bits. -/
theorem exporters_agree (service : Bytes) (db : Store) (calls : List SinkCall) (st : OtelSqlite)
    (hrun : (sqliteMachine service).Run (OtelSqlite.opened db) calls st)
    (hcalls : ∀ call ∈ calls, ∀ r ∈ call.answers, r = Answer.done) (s : OtelSpan)
    (hs : Finished s) (answers : List Answer)
    (he : (sqliteMachine service).enabled st (.span s answers))
    (hanswers : ∀ r ∈ answers, r = Answer.done) :
    ∃ st' rows row m, sqliteStep service st (.span s answers) = .ok st' ∧
      st'.conn.data = st.conn.data.append rows ∧ Encodes s m ∧ Describes rows row m := by
  have hsmooth : st.Smooth := hrun.invariant (I := OtelSqlite.Smooth) ⟨rfl, rfl⟩
    fun st call hcall st' hi he hstep => smooth_step hi he (hcalls call hcall) hstep
  have hin : (st.expect answers).inTxn = true := hsmooth.inTxn.trans he.1
  obtain ⟨L, hL⟩ := hs.represents
  obtain ⟨hattrs, hevents⟩ := L.storable s
  have hexpect : ∀ r ∈ (st.expect answers).conn.answers, r = Answer.done := hanswers
  obtain ⟨rows, row, hdata, hdescribes⟩ := wrote_span service hexpect hin s hattrs hevents
  exact ⟨_, rows, row, _, otelSqliteSpan_eq hL _, hdata, hL.encodes, hdescribes⟩

/-- A span in the first pass over an empty store. -/
theorem exporters_agree_sample : ∃ st' rows row m,
    sqliteStep [] { OtelSqlite.opened Store.empty with
        conn := { data := Store.empty, txn := some (1, Store.empty), answers := [] }
        inTxn := true, pass := 1, inPass := true }
      (.span (stampEnd (sampleSession [104, 105]).span 9) [.done]) = .ok st' ∧
    st'.conn.data = Store.empty.append rows ∧
    Encodes (stampEnd (sampleSession [104, 105]).span 9) m ∧ Describes rows row m :=
  exporters_agree [] Store.empty [.begin [.done]] _
    (.cons ⟨rfl, by rintro _ ⟨⟩; rfl⟩ rfl .nil) (by simp [SinkCall.answers]) _ finished_sample
    [.done] ⟨rfl, by rintro _ ⟨⟩; rfl⟩ (by simp)

/-- A span that has an event, after `more` calls. -/
def eventful (more : List Call) : OtelSpan :=
  stampEnd (Session.calls (sampleSession [104, 105]) (.event (some [101]) 9 :: more)).span 12

theorem eventful_spec (more : List Call) (hmore : ∀ c ∈ more, c.Short) :
    Finished (eventful more) ∧ ∃ L, Represents (eventful more) L ∧ L.view (eventful more) =
      (SpanView.start (some [104, 105])).calls (.event (some [101]) 9 :: more) := by
  have hcalls : ∀ c ∈ Call.event (some [101]) 9 :: more, c.Short :=
    List.forall_mem_cons.mpr ⟨by simp [Call.Short, ShortStr], hmore⟩
  have hrec : otelSpanRecording (StartCall.root.run ⟨true, true, 0, 7⟩ (some ⟨1, 0⟩) zeroSpan
      (some [104, 105]) 1).2 = true := recording_of_flags rfl
  have hname : ShortStr (some [104, 105]) := by simp [ShortStr]
  obtain ⟨L, hL, hview⟩ := session_spec hrec hname hcalls
  exact ⟨⟨.root, ⟨true, true, 0, 7⟩, some ⟨1, 0⟩, zeroSpan, some [104, 105], 1, _, 12, hrec, hname,
    hcalls, rfl⟩, L, { hL.repr with }, hview⟩

theorem head_eventful (more : List Call) : (eventful more).head =
    { more.foldl Call.stamp (sampleSession [104, 105]).span.head with endUnixNs := 12 } := by
  have hcalls := head_calls (sampleSession [104, 105]) (.event (some [101]) 9 :: more)
  show { (Session.calls (sampleSession [104, 105]) (.event (some [101]) 9 :: more)).span.head with
    endUnixNs := 12 } = _
  rw [hcalls]
  rfl

/-- The time of a span that is ended when the clock reads `2 ^ 63`; and the rows of two spans, whose
messages differ in what was dropped from an event. -/
theorem exporters_disagree :
    (let s := stampEnd (sampleSession [104, 105]).span 0x8000000000000000
      ∃ st st' row m, (sqliteMachine []).Run (OtelSqlite.opened Store.empty) [.begin [.done]] st ∧
        Finished s ∧ sqliteStep [] st (.span s [.done]) = .ok st' ∧ st'.conn.data.spans = [row] ∧
        Encodes s m ∧ row.endUnixNs.toInt = -2 ^ 63 ∧ m.endTimeUnixNano.toNat = 2 ^ 63) ∧
    ∃ st s s' st' m m', (sqliteMachine []).Run (OtelSqlite.opened Store.empty) [.begin [.done]] st ∧
      (Finished s ∧ Finished s') ∧
      (sqliteStep [] st (.span s []) = .ok st' ∧ sqliteStep [] st (.span s' []) = .ok st') ∧
      (Encodes s m ∧ Encodes s' m') ∧
      m.events.map Proto.Event.droppedAttributesCount = [0] ∧
      m'.events.map Proto.Event.droppedAttributesCount = [1] := by
  constructor
  · have hfinished : Finished (stampEnd (sampleSession [104, 105]).span 0x8000000000000000) :=
      finished_named _ (by simp [ShortStr])
    obtain ⟨L, hL⟩ := hfinished.represents
    refine ⟨_, _, _, _, .cons ⟨rfl, by rintro _ ⟨⟩; rfl⟩ rfl .nil, hfinished, rfl, rfl, hL.encodes,
      ?_, ?_⟩
    · show (0x8000000000000000 : UInt64).toInt64.toInt = -2 ^ 63
      decide
    · show (0x8000000000000000 : UInt64).toNat = 2 ^ 63
      decide
  · -- an attribute without a key is dropped
    obtain ⟨hs, L, hL, hview⟩ := eventful_spec [] (by simp)
    obtain ⟨hs', L', hL', hview'⟩ := eventful_spec [.eventAttr 0 none (.u64 5)]
      (by simp [Call.Short, AttrArg.Short, ShortStr])
    have hput : ∀ st : OtelSqlite, putSpan [] (eventful []) (L.view (eventful [])).cut st =
        putSpan [] (eventful [.eventAttr 0 none (.u64 5)])
          (L'.view (eventful [.eventAttr 0 none (.u64 5)])).cut st := by
      intro st
      have hhead := (head_eventful []).trans (head_eventful [.eventAttr 0 none (.u64 5)]).symm
      rw [hview, hview', putSpan_congr hhead]
      rfl
    have hrun : ∃ st, (sqliteMachine []).Run (OtelSqlite.opened Store.empty) [.begin [.done]] st :=
      ⟨_, .cons ⟨rfl, by rintro _ ⟨⟩; rfl⟩ rfl .nil⟩
    obtain ⟨st, hrun⟩ := hrun
    have hstep : sqliteStep [] st (.span (eventful []) []) = _ := otelSqliteSpan_eq hL _
    have hstep' : sqliteStep [] st (.span (eventful [.eventAttr 0 none (.u64 5)]) []) = _ :=
      otelSqliteSpan_eq hL' _
    rw [← hput] at hstep'
    refine ⟨st, _, _, _, _, _, hrun, ⟨hs, hs'⟩, ⟨hstep, hstep'⟩, ⟨hL.encodes, hL'.encodes⟩, ?_, ?_⟩
    · rw [hview]
      rfl
    · rw [hview']
      rfl

end OtelTracing
