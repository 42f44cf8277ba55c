import OtelTracing.Proofs.BracketProofs
import OtelTracing.Proofs.AgreeProofs
import OtelTracing.Proofs.InPlaceProofs

/-!
# Proofs: the journal of the SQLite store

The callbacks that a process calls are a run of the sink, and after a crash the store has the spans of
the passes that are over.
-/

namespace OtelTracing

open ByteMem Locks Outcome Txn

variable {pack : Proto.ExportTraceServiceRequest → Bytes} {σ σ' : Process} {t u : ThreadId}
  {pc pc' : Pc} {m m' : Shared} {p : PassPc} {v v' : PassVars} {service : Bytes} {db db' : Store}
  {st st' st'' : OtelSqlite} {out : List Output} {ss : List OtelSpan}

/-! ## Outputs -/

@[simp] theorem sinkCalls_append (out out' : List Output) :
    sinkCalls (out ++ out') = sinkCalls out ++ sinkCalls out' := List.filterMap_append ..

@[simp] theorem sinkCalls_transport (bufs : List Bytes) :
    sinkCalls (bufs.map Output.transport) = [] := by
  simp [sinkCalls]

theorem journal_append (out out' : List Output) :
    journal (out ++ out') = out'.foldl Journal.output (journal out) := List.foldl_append ..

theorem journal_snoc (out : List Output) (o : Output) :
    journal (out ++ [o]) = (journal out).output o := journal_append out [o]

@[simp] theorem journal_transport (out : List Output) (bufs : List Bytes) :
    journal (out ++ bufs.map .transport) = journal out := by
  rw [journal_append]
  induction bufs with
  | nil => rfl
  | cons b bufs ih => exact ih

/-- The journal has the spans that the sink was given. -/
theorem sinkSpans_journal (out : List Output) :
    sinkSpans out = (journal out).closed ++ (journal out).current := by
  induction out using List.reverseRecOn with
  | nil => rfl
  | append_singleton out o ih =>
    rw [sinkSpans_append, journal_snoc, ih]
    cases o with
    | transport b | sinkBegin | sinkSpan s | sinkEnd => simp [sinkSpans, Journal.output]

/-- What was committed stays. -/
theorem journal_closed_grows (out out' : List Output) :
    (journal out).closed <+: (journal (out ++ out')).closed := by
  induction out' using List.reverseRecOn with
  | nil => simp
  | append_singleton out' o ih =>
    rw [← List.append_assoc, journal_snoc]
    refine ih.trans ?_
    cases o with
    | transport b | sinkBegin | sinkSpan s => exact List.prefix_refl _
    | sinkEnd => exact List.prefix_append ..

/-! ## Statements of a callback -/

/-- From `st` to `st'` rows were inserted, while no statement failed. -/
structure Calm (st st' : OtelSqlite) : Prop where
  txn : st'.conn.txn = st.conn.txn
  answers : st'.conn.answers = []
  maxSpans : st'.maxSpans = st.maxSpans
  inTxn : st'.inTxn = st.inTxn
  inPass : st'.inPass = st.inPass

theorem Calm.refl (h : st.conn.answers = []) : Calm st st := ⟨rfl, h, rfl, rfl, rfl⟩

theorem Calm.trans (h : Calm st st') (h' : Calm st' st'') : Calm st st'' :=
  ⟨h'.txn.trans h.txn, h'.answers, h'.maxSpans.trans h.maxSpans, h'.inTxn.trans h.inTxn,
    h'.inPass.trans h.inPass⟩

theorem insert_nil (h : st.conn.answers = []) (f : Store → Store) :
    Calm st (st.insert f).1 ∧ (st.insert f).2 = true := by
  rw [OtelSqlite.insert, exec_nil h f]
  exact ⟨⟨rfl, h, rfl, rfl, rfl⟩, rfl⟩

theorem calm_foldl {α : Type} {f : OtelSqlite → α → OtelSqlite}
    (hf : ∀ (st : OtelSqlite) (a : α), st.conn.answers = [] → Calm st (f st a))
    (h : st.conn.answers = []) (as : List α) : Calm st (as.foldl f st) := by
  induction as generalizing st with
  | nil => exact Calm.refl h
  | cons a as ih =>
    have hhead := hf st a h
    exact hhead.trans (ih hhead.answers)

theorem calm_putAttr (table : AttrTable) (owner origin : Nat) (st : OtelSqlite) (a : AttrView)
    (h : st.conn.answers = []) : Calm st (putAttr table owner origin st a) :=
  (insert_nil h _).1

theorem calm_putEvent {spanOrigin : Nat} (st : OtelSqlite) (e : EventView)
    (h : st.conn.answers = []) : Calm st (putEvent spanOrigin st e) := by
  obtain ⟨hcalm, hok⟩ := insert_nil h fun db =>
    { db with
      spanEvents := db.spanEvents ++ [e.row st.curSpan spanOrigin db.nextEvent st.written] }
  simp only [putEvent]
  generalize (st.insert fun db => _) = r at hcalm hok ⊢
  rw [if_pos hok]
  have hnumbered : Calm st { r.1 with written := st.written + 1 } :=
    ⟨hcalm.txn, hcalm.answers, hcalm.maxSpans, hcalm.inTxn, hcalm.inPass⟩
  exact hnumbered.trans (calm_foldl (calm_putAttr _ _ _) hnumbered.answers e.attrs)

theorem calm_putSpan (service : Bytes) (s : OtelSpan) (view : SpanView) (h : st.conn.answers = []) :
    Calm st (putSpan service s view st) := by
  cases hin : st.inTxn with
  | false =>
    simp only [putSpan, hin, Bool.false_eq_true, if_false]
    exact Calm.refl h
  | true =>
    obtain ⟨hcalm, hok⟩ := insert_nil h fun db =>
      { db with spans := db.spans ++ [view.row service s db.nextSpan st.written] }
    simp only [putSpan, hin, if_true]
    generalize (st.insert fun db => _) = r at hcalm hok ⊢
    rw [if_pos hok]
    have hnumbered : Calm st
        { r.1 with curSpan := st.conn.data.nextSpan, written := st.written + 1 } :=
      ⟨hcalm.txn, hcalm.answers, hcalm.maxSpans, hcalm.inTxn, hcalm.inPass⟩
    have hattrs := hnumbered.trans (calm_foldl
      (calm_putAttr .span st.conn.data.nextSpan st.written) hnumbered.answers view.attrs)
    exact hattrs.trans (calm_foldl calm_putEvent hattrs.answers view.events)

/-- The row of the span comes after those of the earlier ones. -/
theorem spans_putSpan (service : Bytes) (h : ∀ r ∈ st.conn.answers, r = Answer.done)
    (hin : st.inTxn = true) (s : OtelSpan) (view : SpanView)
    (hevents : ∀ e ∈ view.events, ∀ a ∈ e.attrs, a.Storable) :
    (putSpan service s view st).conn.data.spans =
      st.conn.data.spans ++ [view.row service s st.conn.data.nextSpan st.written] := by
  have hrow := insert_done h fun db =>
    { db with spans := db.spans ++ [view.row service s db.nextSpan st.written] }
  simp only [putSpan, hin, if_true]
  generalize (st.insert fun db => _) = r at hrow ⊢
  obtain ⟨hok, hdata, hdone, -⟩ := hrow
  rw [if_pos hok]
  have hstart : ∀ a ∈ { r.1 with
      curSpan := st.conn.data.nextSpan, written := st.written + 1 }.conn.answers,
      a = Answer.done := hdone
  have hattrs := wrote_attrs hstart .span st.conn.data.nextSpan st.written view.attrs
  obtain ⟨rows, hwrote, hrows⟩ := wrote_events hattrs.done st.written hevents
  rw [hwrote.data, hattrs.data]
  show (r.1.conn.data.spans ++ []) ++ rows.spans = _
  rw [hrows.spans, List.append_nil, List.append_nil, hdata]

/-! ## Replaying the callbacks -/

/-- The callbacks of `out` lead from the store `db` to the state `st` of the sink. -/
structure Replays (service : Bytes) (db : Store) (out : List Output) (st : OtelSqlite) : Prop where
  run : (sqliteMachine service).Run (OtelSqlite.opened db) (sinkCalls out) st
  inTxn : st.inTxn = sinkOpen out
  inPass : st.inPass = sinkOpen out
  txn : st.conn.txn.isSome = sinkOpen out
  answers : st.conn.answers = []
  maxSpans : st.maxSpans = 0
  durable : db.Holds service (journal out).closed st.conn.durable
  data : db.Holds service ((journal out).closed ++ (journal out).current) st.conn.data
  sound : (OtelSqlite.opened db).Sound → st.Sound ∧ st.conn.durable.Intact
  current : sinkOpen out = false → (journal out).current = []

/-- Without calls of the sink there are only buffers. -/
theorem calls_nil (h : sinkCalls out = []) : ∃ bufs : List Bytes, out = bufs.map .transport := by
  have hquiet : ∀ o ∈ out, ∃ b, o = .transport b := by
    intro o ho
    cases o with
    | transport b => exact ⟨b, rfl⟩
    | _ => simpa [sinkCalls] using List.filterMap_eq_nil_iff.mp h _ ho
  clear h
  induction out with
  | nil => exact ⟨[], rfl⟩
  | cons o out ih =>
    obtain ⟨b, rfl⟩ := hquiet o (by simp)
    obtain ⟨bufs, rfl⟩ := ih fun o ho => hquiet o (List.mem_cons_of_mem _ ho)
    exact ⟨b :: bufs, rfl⟩

theorem replays_nil (h : sinkCalls out = []) : Replays service db out (OtelSqlite.opened db) := by
  obtain ⟨bufs, rfl⟩ := calls_nil h
  have hopen : sinkOpen (bufs.map .transport) = false := sinkOpen_transport [] bufs
  have hjournal : journal (bufs.map .transport) = ⟨[], []⟩ := journal_transport [] bufs
  refine ⟨?_, hopen.symm, hopen.symm, hopen.symm, rfl, rfl, ?_, ?_, fun h0 => ⟨h0, h0.intact⟩, ?_⟩
  · rw [h]
    exact .nil
  · rw [hjournal]
    exact .nil
  · rw [hjournal]
    exact .nil
  · rw [hjournal]
    exact fun _ => rfl

theorem Replays.transport (h : Replays service db out st) (bufs : List Bytes) :
    Replays service db (out ++ bufs.map .transport) st := by
  constructor
  · rw [sinkCalls_append, sinkCalls_transport, List.append_nil]
    exact h.run
  · rw [sinkOpen_transport]
    exact h.inTxn
  · rw [sinkOpen_transport]
    exact h.inPass
  · rw [sinkOpen_transport]
    exact h.txn
  · exact h.answers
  · exact h.maxSpans
  · rw [journal_transport]
    exact h.durable
  · rw [journal_transport]
    exact h.data
  · exact h.sound
  · rw [journal_transport, sinkOpen_transport]
    exact h.current

theorem expect_nil (h : st.conn.answers = []) : st.expect [] = st := by
  rw [OtelSqlite.expect, ← h]

/-- One more call, all of whose statements succeed. -/
theorem Replays.snoc (h : Replays service db out st) {o : Output} {call : SinkCall}
    (ho : sinkCalls [o] = [call]) (horder : call.InOrder st)
    (hstep : sqliteStep service st call = .ok st') (hanswers : st'.conn.answers = []) :
    (sqliteMachine service).Run (OtelSqlite.opened db) (sinkCalls (out ++ [o])) st' := by
  rw [sinkCalls_append, ho]
  refine .snoc h.run ⟨horder, ?_⟩ hstep
  intro st'' hst''
  rw [hstep] at hst''
  cases hst''
  exact hanswers

/-- A call whose statements succeed keeps the store sound. -/
theorem sound_call {call : SinkCall} (h : st.Sound) (hcall : Answer.rolledBack ∉ call.answers)
    (hstep : sqliteStep service st call = .ok st') : st'.Sound := by
  have hcalm : Answer.rolledBack ∉ (StoreOp.call call).answers := hcall
  exact store_step h hcalm hstep

/-- The sink in a pass that has begun its transaction. -/
def OtelSqlite.begun (st : OtelSqlite) : OtelSqlite :=
  { st with
    conn := { st.conn with txn := some (st.pass + 1, st.conn.data) }
    inTxn := true, pass := st.pass + 1, inPass := true }

theorem step_begin (h : st.conn.answers = []) (hnone : st.conn.txn = none) :
    sqliteStep service st (.begin []) = .ok st.begun := by
  rw [sqliteStep, expect_nil h, otelSqliteBegin, beginTxn_nil hnone h, Conn.owner, hnone]
  rfl

/-- The sink after a pass whose transaction was committed. -/
def OtelSqlite.committed (st : OtelSqlite) : OtelSqlite :=
  { st with
    conn := { st.conn with txn := none }
    inTxn := false, commits := st.commits + 1, inPass := false }

theorem step_finish (h : st.conn.answers = []) (hsome : st.conn.txn.isSome = true)
    (hin : st.inTxn = true) (hzero : st.maxSpans = 0) :
    sqliteStep service st (.finish []) = .ok st.committed := by
  have hprune : otelSqlitePrune { st with
      conn := { st.conn with txn := none }, inTxn := false, commits := st.commits + 1 } =
      { st with
        conn := { st.conn with txn := none }, inTxn := false, commits := st.commits + 1 } := by
    rw [otelSqlitePrune, if_pos hzero]
  rw [sqliteStep, expect_nil h, otelSqliteEnd, hin, commit_nil hsome h]
  simp only [Bool.not_true, Bool.false_eq_true, if_false]
  rw [hprune, ite_self]
  rfl

/-- `begin` opens a transaction. -/
theorem Replays.begin (h : Replays service db out st) (hopen : sinkOpen out = false) :
    Replays service db (out ++ [.sinkBegin]) st.begun := by
  have hnone : st.conn.txn = none := by
    have htxn := h.txn
    rw [hopen] at htxn
    exact Option.isNone_iff_eq_none.mp (by simpa using htxn)
  have hdurable := h.durable
  rw [durable_none hnone] at hdurable
  refine ⟨h.snoc rfl (h.inPass.trans hopen) (step_begin h.answers hnone) h.answers,
    (sinkOpen_begin out).symm, (sinkOpen_begin out).symm, (sinkOpen_begin out).symm, h.answers,
    h.maxSpans, ?_, ?_, ?_, ?_⟩
  · rw [journal_snoc]
    exact hdurable
  · rw [journal_snoc]
    exact h.data
  · intro h0
    have hsound := (h.sound h0).1
    have hstep : sqliteStep service st (.begin []) = .ok st.begun := step_begin h.answers hnone
    exact ⟨sound_call hsound List.not_mem_nil hstep, hsound.intact⟩
  · rw [sinkOpen_begin]
    rintro ⟨⟩

/-- `span` inserts the rows of the span, if all its statements succeed. -/
theorem step_span (service : Bytes) (h : st.conn.answers = []) (hin : st.inTxn = true)
    {s : OtelSpan} (hs : Finished s) : ∃ (st' : OtelSqlite) (rows : Store) (v : SpanView)
    (id origin : Nat), sqliteStep service st (.span s []) = .ok st' ∧ Calm st st' ∧
      st'.conn.data = st.conn.data.append rows ∧ readSpan s = some v ∧ Encodes s (spanProto s v) ∧
      Describes rows (v.row service s id origin) (spanProto s v) := by
  obtain ⟨L, hL⟩ := hs.represents
  obtain ⟨hattrs, hevents⟩ := L.storable s
  have hdone : ∀ r ∈ st.conn.answers, r = Answer.done := by
    rw [h]
    rintro r ⟨⟩
  obtain ⟨rows, row, hdata, hdescribes⟩ := wrote_span service hdone hin s hattrs hevents
  have hspans := spans_putSpan service hdone hin s (L.view s).cut hevents
  have hrow : row = (L.view s).cut.row service s st.conn.data.nextSpan st.written := by
    rw [hdata, Store.append, hdescribes.spans] at hspans
    exact List.singleton_inj.mp (List.append_cancel_left hspans)
  rw [hrow] at hdescribes
  refine ⟨_, rows, (L.view s).cut, _, _, ?_, calm_putSpan service s (L.view s).cut h, hdata,
    readSpan_eq hL, hL.encodes, hdescribes⟩
  rw [sqliteStep, expect_nil h, otelSqliteSpan_eq hL]

theorem Replays.span (h : Replays service db out st) (hopen : sinkOpen out = true) {s : OtelSpan}
    (hs : Finished s) : ∃ st', Replays service db (out ++ [.sinkSpan s]) st' := by
  obtain ⟨st', rows, v, id, origin, hstep, hcalm, hdata, hread, hencodes, hdescribes⟩ :=
    step_span service h.answers (h.inTxn.trans hopen) hs
  refine ⟨st', h.snoc rfl (h.inPass.trans hopen) hstep hcalm.answers,
    ?_, ?_, ?_, hcalm.answers, hcalm.maxSpans.trans h.maxSpans, ?_, ?_, ?_, ?_⟩
  · rw [sinkOpen_span, hcalm.inTxn, h.inTxn]
  · rw [sinkOpen_span, hcalm.inPass, h.inPass]
  · rw [sinkOpen_span, hcalm.txn, h.txn]
  · rw [journal_snoc, durable_congr hcalm.txn (h.txn.trans hopen)]
    exact h.durable
  · rw [journal_snoc, Journal.output, hdata, ← List.append_assoc]
    exact .snoc h.data hread hencodes hdescribes
  · intro h0
    obtain ⟨hsound, hdurable⟩ := h.sound h0
    refine ⟨sound_call hsound List.not_mem_nil hstep, ?_⟩
    rwa [durable_congr hcalm.txn (h.txn.trans hopen)]
  · rw [sinkOpen_span, hopen]
    rintro ⟨⟩

/-- `end` commits the transaction. -/
theorem Replays.finish (h : Replays service db out st) (hopen : sinkOpen out = true) :
    Replays service db (out ++ [.sinkEnd]) st.committed := by
  refine ⟨h.snoc rfl (h.inPass.trans hopen) (step_finish h.answers (h.txn.trans hopen)
      (h.inTxn.trans hopen) h.maxSpans) h.answers,
    (sinkOpen_end out).symm, (sinkOpen_end out).symm, (sinkOpen_end out).symm, h.answers,
    h.maxSpans, ?_, ?_, ?_, ?_⟩
  · rw [journal_snoc]
    exact h.data
  · rw [journal_snoc, Journal.output, List.append_nil]
    exact h.data
  · intro h0
    have hstep : sqliteStep service st (.finish []) = .ok st.committed :=
      step_finish h.answers (h.txn.trans hopen) (h.inTxn.trans hopen) h.maxSpans
    have hsound := sound_call (h.sound h0).1 List.not_mem_nil hstep
    exact ⟨hsound, hsound.intact⟩
  · rw [journal_snoc]
    exact fun _ => rfl

/-! ## Steps of the process -/

/-- What a step calls, and which call the callbacks before it leave room for. -/
inductive Calls (m m' : Shared) : Prop
  | quiet (bufs : List Bytes) (hout : m'.tracer.out = m.tracer.out ++ bufs.map .transport)
  | begin (hopen : sinkOpen m.tracer.out = false)
      (hout : m'.tracer.out = m.tracer.out ++ [.sinkBegin])
  | span (a : CtxAddr) (s : OtelSpan) (hopen : sinkOpen m.tracer.out = true)
      (hgiven : s ∈ (m'.ledger a).given) (hout : m'.tracer.out = m.tracer.out ++ [.sinkSpan s])
  | finish (hopen : sinkOpen m.tracer.out = true)
      (hout : m'.tracer.out = m.tracer.out ++ [.sinkEnd])

theorem calls_same (hout : m'.tracer.out = m.tracer.out) : Calls m m' :=
  .quiet [] (by simp [hout])

theorem calls_pass {ctxs : List CtxAddr} {p' : Option PassPc}
    (hopen : p.Served m.tracer → sinkOpen m.tracer.out = p.begun)
    (hpass : passStep pack m ctxs v p = .ok (m', p', v')) : Calls m m' := by
  cases pass_cases hpass with
  | beginCall site hsite =>
    obtain rfl := called_site hsite
    exact .begin (hopen (Or.inr ⟨_, rfl⟩)) rfl
  | loopAdd a c m' hc hne hadd =>
    obtain ⟨o, bufs, htracer⟩ := add_out hadd
    exact .quiet bufs (by rw [htracer])
  | emitCall a site c hsite hc =>
    obtain rfl := called_site hsite
    refine .span a (ringMem m.tracer.ctxs ⟨a, c.slot v.tail⟩) (hopen (Or.inr ⟨_, rfl⟩)) ?_ rfl
    have htake : (((m.give ⟨a, c.slot v.tail⟩).take a).ledger a).given =
        ((m.give ⟨a, c.slot v.tail⟩).ledger a).given := by
      refine update_given (a := a) ?_ a
      rfl
    rw [htake, give_ledger m ⟨a, c.slot v.tail⟩]
    exact List.mem_append_right _ (List.mem_singleton_self _)
  | flush tr ht =>
    obtain ⟨o, bufs, rfl⟩ := flush_out ht
    exact .quiet bufs rfl
  | finishCall site hsite =>
    obtain rfl := called_site hsite
    exact .finish (hopen (Or.inr ⟨_, rfl⟩)) rfl
  | _ => exact calls_same rfl

theorem calls_thread (h : σ.Bracketed) (hstep : Stepped pack σ t σ') :
    Calls σ.shared σ'.shared := by
  have hself := h.pass t
  cases hstep with
  | spanEnd a s head e e' m hpc hend => exact calls_same (end_sink (endStep_cases hend)).2.2
  | spanEnded a s head e m hpc hend => exact calls_same (end_sink (endStep_cases hend)).2.2
  | unregisterPass a p p' v v' m hpc hpass => exact calls_pass (hself p (by rw [hpc]; rfl)) hpass
  | unregisterPassed a p v v' m hpc hpass => exact calls_pass (hself p (by rw [hpc]; rfl)) hpass
  | drainPass k p p' v v' m hpc hpass => exact calls_pass (hself p (by rw [hpc]; rfl)) hpass
  | drainPassed k p v v' m hpc hpass => exact calls_pass (hself p (by rw [hpc]; rfl)) hpass
  | unregisterUnlink a m hpc hunlink =>
    obtain ⟨threads, -, hm⟩ := bind_ok hunlink
    cases hm
    exact calls_same rfl
  | unregisterFree a m hpc hfree =>
    obtain ⟨tracer, htracer, hm⟩ := bind_ok hfree
    obtain ⟨c, -, htracer⟩ := bind_ok htracer
    cases htracer
    cases hm
    exact calls_same rfl
  | _ => exact calls_same rfl

theorem calls_step {x : Act} (h : σ.Bracketed) (he : x.Possible σ)
    (hstep : processStep pack σ x = .ok σ') : Calls σ.shared σ'.shared := by
  cases x with
  | timer =>
    cases hstep
    exact calls_same rfl
  | step t => exact calls_thread h (step_cases he hstep)
  | call t c =>
    cases call_cases hstep with
    | _ => exact calls_same rfl

/-- What is known of the callbacks in every state. -/
structure Process.CallsOk (sink : OtelSpanSink) (σ : Process) : Prop where
  heap : σ.HeapOk
  set : σ.SetOk sink
  bracketed : σ.Bracketed
  given : σ.GivenOk
  finished : σ.Only Finished

theorem callsOk_step {sink : OtelSpanSink} {x : Act} (hbegin : sink.hasBegin = true)
    (hend : sink.hasEnd = true) (h : σ.CallsOk sink) (hx : ∀ s, x.Ends s → Finished s)
    (he : x.Possible σ) (hstep : processStep pack σ x = .ok σ') : σ'.CallsOk sink where
  heap := heapOk_step h.heap he hstep
  set := setOk_step h.set he hstep
  bracketed := bracketed_step h.bracketed h.heap.control.locks h.set hbegin hend he hstep
  given := givenOk_step h.given h.heap.ring he hstep
  finished := only_step h.finished hx he hstep

theorem Process.CallsOk.given_finished {sink : OtelSpanSink} {a : CtxAddr} {s : OtelSpan}
    (h : σ.CallsOk sink) (hs : s ∈ (σ.shared.ledger a).given) : Finished s :=
  h.finished.staged a s (List.mem_of_mem_take ((h.given.ledger a).subset hs))

theorem replays_step {sink : OtelSpanSink} {x : Act} (h : σ.CallsOk sink) (h' : σ'.CallsOk sink)
    (hst : Replays service db σ.shared.tracer.out st) (he : x.Possible σ)
    (hstep : processStep pack σ x = .ok σ') :
    ∃ st', Replays service db σ'.shared.tracer.out st' := by
  cases calls_step h.bracketed he hstep with
  | quiet bufs hout =>
    rw [hout]
    exact ⟨st, hst.transport bufs⟩
  | begin hopen hout =>
    rw [hout]
    exact ⟨_, hst.begin hopen⟩
  | span a s hopen hgiven hout =>
    rw [hout]
    exact hst.span hopen (h'.given_finished hgiven)
  | finish hopen hout =>
    rw [hout]
    exact ⟨_, hst.finish hopen⟩

/-! ## Runs -/

theorem atRest_pass (h : σ.AtRest) (t : ThreadId) : (σ.pcs t).pass = none := by
  by_cases ht : t = σ.flusher
  · rcases atRest_flusher h with hpc | hpc
    · rw [ht, hpc]
      rfl
    · rw [ht, hpc]
      rfl
  · rw [h.idle t ht]
    rfl

theorem callsOk_start {sink : OtelSpanSink} (h0 : σ.AtRest) (hv : σ.Vacant) (hf : σ.Fresh sink) :
    σ.CallsOk sink := by
  have hreplays : Replays [] Store.empty σ.shared.tracer.out (OtelSqlite.opened Store.empty) :=
    replays_nil hf.calls
  have hopen := hreplays.inPass
  refine ⟨heapOk_start h0 hv, ⟨fun _ => hf.enabled, fun _ => hf.sink, fun _ => hf.sinkPresent, ?_⟩,
    ⟨?_, fun _ _ => hopen.symm⟩, ⟨?_, ?_⟩, only_atRest h0 hv⟩
  · intro t ht
    by_cases hflusher : t = σ.flusher
    · rcases atRest_flusher h0 with hpc | hpc
      · rw [hflusher, hpc] at ht
        cases ht
      · rw [hflusher, hpc] at ht
        cases ht
    · rw [h0.idle t hflusher] at ht
      cases ht
  · intro t p hp
    rw [atRest_pass h0 t] at hp
    cases hp
  · intro a
    rw [hv.ledger a]
    exact List.Sublist.refl _
  · rw [hv.freed]
    rintro l ⟨⟩

theorem callsOk_run (service : Bytes) (db : Store) {sink : OtelSpanSink} {acts : List Act}
    {σ₀ : Process} (hbegin : sink.hasBegin = true) (hend : sink.hasEnd = true)
    (hfin : ∀ x ∈ acts, ∀ s, x.Ends s → Finished s) (h0 : σ₀.CallsOk sink)
    (hst : ∃ st, Replays service db σ₀.shared.tracer.out st)
    (hrun : (processMachine pack).Run σ₀ acts σ) :
    σ.CallsOk sink ∧ ∃ st, Replays service db σ.shared.tracer.out st := by
  refine hrun.invariant
    (I := fun σ => σ.CallsOk sink ∧ ∃ st, Replays service db σ.shared.tracer.out st) ⟨h0, hst⟩ ?_
  rintro σ x hx σ' ⟨h, st, hst⟩ he hstep
  have h' := callsOk_step hbegin hend h (hfin x hx) he hstep
  exact ⟨h', replays_step h h' hst he hstep⟩

/-- Between passes nothing is left to commit. -/
theorem Process.CallsOk.current_nil {sink : OtelSpanSink} (h : σ.CallsOk sink)
    (hst : Replays service db σ.shared.tracer.out st) (hsome : σ.shared.tracer.sink ≠ none)
    (hlock : σ.drainLock = none) : (journal σ.shared.tracer.out).current = [] := by
  refine hst.current (h.bracketed.rest hsome fun t => ?_)
  by_contra hne
  obtain ⟨p, hp⟩ := Option.ne_none_iff_exists'.mp hne
  exact h.heap.control.locks.drain.ne_none (pass_holdsDrain hp) hlock

/-- A tracer with the store's sink. -/
def storingTracer : Tracer :=
  otelSetSpanSink (otelInit Tracer.boot none none true).1 (some otelSqliteSink)

theorem storing_start (haveThread : Bool) : (Process.start storingTracer haveThread 0 1).AtRest ∧
    (Process.start storingTracer haveThread 0 1).Vacant ∧
    (Process.start storingTracer haveThread 0 1).Fresh otelSqliteSink :=
  ⟨start_atRest storingTracer haveThread (by decide),
    ⟨fun _ => rfl, fun _ => rfl, rfl, ⟨11, by decide, rfl⟩, fun _ => rfl, rfl, rfl, rfl⟩,
    ⟨rfl, rfl, rfl, rfl⟩⟩

/-- Thread 2 ends a span and drains it. -/
def storingOne : List Act := exportingOne ++ List.replicate 15 (.step 2)

theorem storingOne_finished : ∀ x ∈ storingOne, ∀ s, x.Ends s → Finished s := by
  intro x hx s hs
  rcases List.mem_append.mp hx with hx | hx
  · exact exportingOne_finished x hx s hs
  · rw [List.eq_of_mem_replicate hx] at hs
    cases hs

theorem storing_run : ∃ σ,
    (journal σ.shared.tracer.out).closed = [stampEnd (sampleSession [97]).span 1] ∧
      (processMachine Proto.ExportTraceServiceRequest.encode).Run
        (Process.start storingTracer false 0 1) storingOne σ :=
  ⟨_, rfl, .cons ⟨rfl, rfl⟩ rfl (.cons ⟨rfl, rfl⟩ rfl (.cons trivial rfl (.cons trivial rfl
    (.cons ⟨rfl, trivial⟩ rfl (.cons trivial rfl (.cons trivial rfl (.cons trivial rfl
    (.cons ⟨rfl, trivial⟩ rfl (.cons trivial rfl (.cons rfl rfl (.cons rfl rfl
    (.cons trivial rfl (.cons trivial rfl (.cons trivial rfl (.cons trivial rfl
    (.cons trivial rfl (.cons trivial rfl (.cons trivial rfl (.cons trivial rfl
    (.cons trivial rfl (.cons trivial rfl (.cons trivial rfl (.cons trivial rfl
    (.cons trivial rfl (.cons trivial rfl (.cons trivial rfl (.cons trivial rfl
    (.cons trivial rfl (.cons trivial rfl (.cons trivial rfl (.cons trivial rfl
    (.cons trivial rfl .nil))))))))))))))))))))))))))))))))⟩

/-- Whatever the threads do, and whenever the sink is detached, the callbacks that the process calls are
a run of the store's sink, which durably holds the spans of the passes that are over, in the order in
which the sink was given them. While the sink is attached nothing else was given to it when no pass
holds the lock. -/
theorem store_journal (pack : Proto.ExportTraceServiceRequest → Bytes) (service : Bytes) (db : Store)
    (σ₀ σ : Process) (acts : List Act) (h0 : σ₀.AtRest) (hv : σ₀.Vacant)
    (hf : σ₀.Fresh otelSqliteSink) (hfin : ∀ x ∈ acts, ∀ s, x.Ends s → Finished s)
    (hrun : (processMachine pack).Run σ₀ acts σ) :
    (∃ st, σ.Recorded service db st) ∧
      sinkSpans σ.shared.tracer.out =
        (journal σ.shared.tracer.out).closed ++ (journal σ.shared.tracer.out).current ∧
      (σ.shared.tracer.sink ≠ none → σ.drainLock = none →
        (journal σ.shared.tracer.out).current = []) := by
  obtain ⟨hok, st, hst⟩ := callsOk_run service db rfl rfl hfin (callsOk_start h0 hv hf)
    ⟨_, replays_nil hf.calls⟩ hrun
  exact ⟨⟨st, hst.run, hst.durable, hst.data⟩, sinkSpans_journal _,
    fun hsome hlock => hok.current_nil hst hsome hlock⟩

theorem store_journal_sample : ∃ (σ : Process) (st : OtelSqlite),
    (journal σ.shared.tracer.out).closed = [stampEnd (sampleSession [97]).span 1] ∧
      σ.Recorded [] Store.empty st := by
  obtain ⟨σ, hclosed, h⟩ := storing_run
  obtain ⟨hrest, hvacant, hfresh⟩ := storing_start false
  obtain ⟨⟨st, hst⟩, -⟩ := store_journal _ [] Store.empty _ σ _ hrest hvacant hfresh
    storingOne_finished h
  exact ⟨σ, st, hclosed, hst⟩

end OtelTracing
