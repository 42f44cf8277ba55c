import OtelTracing.Proofs.DurableProofs

/-!
# Proofs: the committed transactions

Each pass that calls `end` commits one transaction, which has the rows of the spans of the pass, and
whatever the retention limit is and whenever it is changed: rows are only deleted after the commit.
So `otel_sqlite_close` commits each span that was accepted before it, once.
-/

namespace OtelTracing

open ByteMem Locks Outcome Txn

variable {pack : Proto.ExportTraceServiceRequest → Bytes} {σ σ' : Process} {service : Bytes}
  {db : Store} {st st' : OtelSqlite} {out : List Output} {calls : List SinkCall} {call : SinkCall}
  {passes : List (List OtelSpan)}

/-! ## Calls that commit -/

theorem committedRows_snoc (hrun : (sqliteMachine service).Run st calls st') (call : SinkCall) :
    committedRows service st (calls ++ [call]) =
      committedRows service st calls ++ call.commits st' := by
  induction calls generalizing st with
  | nil =>
    rw [hrun.nil_inv]
    cases h : sqliteStep service st call with
    | ok st'' => simp [committedRows, h]
    | error f => simp [committedRows, h]
  | cons c calls ih =>
    obtain ⟨st₁, -, hstep, hrest⟩ := hrun.cons_inv
    have hok : sqliteStep service st c = .ok st₁ := hstep
    simp only [List.cons_append, committedRows, hok, ih hrest, List.append_assoc]

theorem committedRows_quiet (hrun : (sqliteMachine service).Run st calls st')
    (hcall : call.commits st' = []) :
    committedRows service st (calls ++ [call]) = committedRows service st calls := by
  rw [committedRows_snoc hrun, hcall, List.append_nil]

/-- Pruning changes nothing but the data. -/
theorem prune_nil (h : st.conn.answers = []) :
    ∃ data, otelSqlitePrune st = { st with conn := { st.conn with data := data } } := by
  have hread : st.conn.exec id = (st.conn, true) := exec_nil h id
  unfold otelSqlitePrune
  split_ifs with hzero
  · exact ⟨st.conn.data, rfl⟩
  · simp only [hread, Bool.not_true, Bool.false_eq_true, if_false, if_true]
    split_ifs
    · exact ⟨st.conn.data, rfl⟩
    · rw [execAll_nil h]
      exact ⟨_, rfl⟩

/-- `end` commits the transaction; then rows may be deleted. -/
theorem step_finish_prune (service : Bytes) (h : st.conn.answers = [])
    (hsome : st.conn.txn.isSome = true) (hin : st.inTxn = true) :
    ∃ data, sqliteStep service st (.finish []) =
      .ok { st.committed with conn := { st.committed.conn with data := data } } := by
  have hend : ∃ data, otelSqliteEnd st = { st with
      conn := { st.conn with txn := none, data := data }, inTxn := false
      commits := st.commits + 1 } := by
    unfold otelSqliteEnd
    rw [hin, commit_nil hsome h]
    simp only [Bool.not_true, Bool.false_eq_true, if_false]
    split_ifs
    · exact prune_nil h
    · exact ⟨st.conn.data, rfl⟩
  obtain ⟨data, hend⟩ := hend
  refine ⟨data, ?_⟩
  rw [sqliteStep, expect_nil h, hend]
  rfl

/-- The call of `end` commits the rows since `begin`. -/
theorem commits_finish (h : st.conn.answers = []) (hsome : st.conn.txn.isSome = true)
    (hin : st.inTxn = true) :
    (SinkCall.finish []).commits st = [st.conn.data.since st.conn.durable] := by
  rw [SinkCall.commits, expect_nil h, commit_nil hsome h, hin]
  rfl

/-! ## Replaying the callbacks -/

/-- The calls, which are the callbacks of `out` and changes of the retention limit, lead from the store
`db` to the state `st` of the sink and commit the transactions of `passes`. -/
structure Commits (service : Bytes) (db : Store) (calls : List SinkCall) (out : List Output)
    (st : OtelSqlite) (passes : List (List OtelSpan)) : Prop where
  run : (sqliteMachine service).Run (OtelSqlite.opened db) calls st
  inTxn : st.inTxn = sinkOpen out
  inPass : st.inPass = sinkOpen out
  txn : st.conn.txn.isSome = sinkOpen out
  answers : st.conn.answers = []
  closed : passes.flatten = (journal out).closed
  rows : List.Forall₂ (Store.Holds service Store.empty) passes
    (committedRows service (OtelSqlite.opened db) calls)
  current : ∃ rows, st.conn.data = st.conn.durable.append rows ∧
    Store.empty.Holds service (journal out).current rows
  quiet : sinkOpen out = false → (journal out).current = []

theorem Commits.transport (h : Commits service db calls out st passes) (bufs : List Bytes) :
    Commits service db calls (out ++ bufs.map .transport) st passes := by
  refine ⟨h.run, ?_, ?_, ?_, h.answers, ?_, h.rows, ?_, ?_⟩
  · rw [sinkOpen_transport]
    exact h.inTxn
  · rw [sinkOpen_transport]
    exact h.inPass
  · rw [sinkOpen_transport]
    exact h.txn
  · rw [journal_transport]
    exact h.closed
  · rw [journal_transport]
    exact h.current
  · rw [journal_transport, sinkOpen_transport]
    exact h.quiet

/-- The retention limit is changed. -/
theorem Commits.setMaxSpans (h : Commits service db calls out st passes) (n : UInt64) :
    Commits service db (calls ++ [.setMaxSpans n]) out { st with maxSpans := n } passes := by
  refine ⟨?_, h.inTxn, h.inPass, h.txn, h.answers, h.closed, ?_, h.current, h.quiet⟩
  · refine h.run.snoc ⟨trivial, ?_⟩ rfl
    rintro st' ⟨⟩
    exact h.answers
  · rw [committedRows_quiet h.run rfl]
    exact h.rows

/-- One more call, all of whose statements succeed. -/
theorem Commits.snoc (h : Commits service db calls out st passes) (horder : call.InOrder st)
    (hstep : sqliteStep service st call = .ok st') (hanswers : st'.conn.answers = []) :
    (sqliteMachine service).Run (OtelSqlite.opened db) (calls ++ [call]) st' := by
  refine h.run.snoc ⟨horder, ?_⟩ hstep
  intro st'' hst''
  rw [hstep] at hst''
  cases hst''
  exact hanswers

theorem Commits.begin (h : Commits service db calls out st passes) (hopen : sinkOpen out = false) :
    Commits service db (calls ++ [.begin []]) (out ++ [.sinkBegin]) st.begun passes := by
  have hnone : st.conn.txn = none := by
    have htxn := h.txn
    rw [hopen] at htxn
    exact Option.isNone_iff_eq_none.mp (by simpa using htxn)
  refine ⟨h.snoc (h.inPass.trans hopen) (step_begin h.answers hnone) h.answers,
    (sinkOpen_begin out).symm, (sinkOpen_begin out).symm, (sinkOpen_begin out).symm, h.answers,
    ?_, ?_, ⟨Store.empty, (append_empty _).symm, ?_⟩, ?_⟩
  · rw [journal_snoc]
    exact h.closed
  · rw [committedRows_quiet h.run rfl]
    exact h.rows
  · rw [journal_snoc, show ((journal out).output .sinkBegin).current = [] from h.quiet hopen]
    exact .nil
  · rw [sinkOpen_begin]
    rintro ⟨⟩

theorem Commits.span (h : Commits service db calls out st passes) (hopen : sinkOpen out = true)
    {s : OtelSpan} (hs : Finished s) :
    ∃ st', Commits service db (calls ++ [.span s []]) (out ++ [.sinkSpan s]) st' passes := by
  obtain ⟨st', rows, v, id, origin, hstep, hcalm, hdata, hread, hencodes, hdescribes⟩ :=
    step_span service h.answers (h.inTxn.trans hopen) hs
  obtain ⟨before, hbefore, hholds⟩ := h.current
  refine ⟨st', h.snoc (h.inPass.trans hopen) hstep hcalm.answers, ?_, ?_, ?_, hcalm.answers,
    ?_, ?_, ⟨before.append rows, ?_, ?_⟩, ?_⟩
  · rw [sinkOpen_span, hcalm.inTxn, h.inTxn]
  · rw [sinkOpen_span, hcalm.inPass, h.inPass]
  · rw [sinkOpen_span, hcalm.txn, h.txn]
  · rw [journal_snoc]
    exact h.closed
  · rw [committedRows_quiet h.run rfl]
    exact h.rows
  · rw [hdata, durable_congr hcalm.txn (h.txn.trans hopen), hbefore, append_assoc]
  · rw [journal_snoc]
    exact .snoc hholds hread hencodes hdescribes
  · rw [sinkOpen_span, hopen]
    rintro ⟨⟩

/-- The spans of the pass are in the transaction that `end` commits. -/
theorem Commits.finish (h : Commits service db calls out st passes) (hopen : sinkOpen out = true) :
    ∃ st', Commits service db (calls ++ [.finish []]) (out ++ [.sinkEnd]) st'
      (passes ++ [(journal out).current]) := by
  obtain ⟨rows, hrows, hholds⟩ := h.current
  have hsome := h.txn.trans hopen
  have hin := h.inTxn.trans hopen
  obtain ⟨data, hstep⟩ := step_finish_prune service h.answers hsome hin
  refine ⟨_, h.snoc (h.inPass.trans hopen) hstep h.answers,
    (sinkOpen_end out).symm, (sinkOpen_end out).symm, (sinkOpen_end out).symm, h.answers,
    ?_, ?_, ⟨Store.empty, (append_empty _).symm, ?_⟩, ?_⟩
  · rw [journal_snoc, Journal.output, ← h.closed, List.flatten_append, List.flatten_singleton]
  · rw [committedRows_snoc h.run, commits_finish h.answers hsome hin, hrows, since_append]
    exact List.rel_append h.rows (.cons hholds .nil)
  · rw [journal_snoc]
    exact .nil
  · rw [journal_snoc]
    exact fun _ => rfl

/-! ## Runs -/

end OtelTracing
