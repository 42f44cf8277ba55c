import OtelTracing.Sqlite
import OtelTracing.Lib.Outcome

/-!
# Proofs: the transactions of the SQLite sink

As long as the database neither takes a transaction away from a pass nor keeps one that the pass
commits, the flag of the sink follows the connection.
-/

namespace OtelTracing

open ByteMem Txn Outcome

variable {service : Bytes} {st st' st'' : OtelSqlite} {as bs : List Answer}

/-! ## Inserting rows -/

/-- From `st` to `st'` statements were executed within a callback, which were answered by `as`. -/
structure Inserts (as : List Answer) (st st' : OtelSqlite) : Prop where
  executes : Executes as st.conn st'.conn
  pass : st'.pass = st.pass
  inTxn : st'.inTxn = st.inTxn
  inPass : st'.inPass = st.inPass
  refused : st'.refused = st.refused
  inside : Answer.rolledBack ∉ as →
    ∀ e ∈ st'.inserted, e ∈ st.inserted ∨ e = (st.pass, st.conn.owner)

theorem Inserts.refl (st : OtelSqlite) : Inserts [] st st where
  executes := Executes.refl st.conn
  pass := rfl
  inTxn := rfl
  inPass := rfl
  refused := rfl
  inside _ _ he := Or.inl he

theorem Inserts.trans (h : Inserts as st st') (h' : Inserts bs st' st'') :
    Inserts (as ++ bs) st st'' where
  executes := h.executes.trans h'.executes
  pass := h'.pass.trans h.pass
  inTxn := h'.inTxn.trans h.inTxn
  inPass := h'.inPass.trans h.inPass
  refused := h'.refused.trans h.refused
  inside hnot e he := by
    simp only [List.mem_append, not_or] at hnot
    rcases h'.inside hnot.2 e he with hmem | rfl
    · exact h.inside hnot.1 e hmem
    · right
      rw [h.pass, h.executes.owner, if_neg hnot.1]

/-- The current span and the number of rows do not matter. -/
theorem Inserts.numbered (h : Inserts as st st') (curSpan written : Nat) :
    Inserts as st { st' with curSpan := curSpan, written := written } :=
  ⟨h.executes, h.pass, h.inTxn, h.inPass, h.refused, h.inside⟩

theorem inserts_insert (st : OtelSqlite) (f : Store → Store) :
    ∃ as, Inserts as st (st.insert f).1 := by
  obtain ⟨as, has, hdone⟩ := executes_exec st.conn f
  refine ⟨as, has, rfl, rfl, rfl, rfl, fun _ e he => ?_⟩
  simp only [OtelSqlite.insert] at he
  split_ifs at he
  · rcases List.mem_append.mp he with hmem | hmem
    · exact Or.inl hmem
    · exact Or.inr (List.mem_singleton.mp hmem)
  · exact Or.inl he

theorem inserts_attrs (table : AttrTable) (owner origin : Nat) (s : OtelSpan) (attrs : List Nat)
    (st : OtelSqlite) :
    ∃ as, Inserts as st (attrs.foldl (otelSqliteInsertAttr table owner origin s) st) := by
  induction attrs generalizing st with
  | nil => exact ⟨[], Inserts.refl st⟩
  | cons a attrs ih =>
    obtain ⟨as, has⟩ := inserts_insert st fun db => db.addAttr (attrRow owner origin s a) table
    obtain ⟨bs, hbs⟩ := ih (otelSqliteInsertAttr table owner origin s st a)
    exact ⟨as ++ bs, has.trans hbs⟩

theorem inserts_event {s : OtelSpan} {o e : Nat} (h : otelSqliteEvent s o st e = .ok st') :
    ∃ as, Inserts as st st' := by
  obtain ⟨as, has⟩ := inserts_insert st fun db =>
    { db with
      spanEvents := db.spanEvents ++ [eventRow st.curSpan o s e db.nextEvent st.written] }
  simp only [otelSqliteEvent] at h
  split_ifs at h
  · obtain rfl := Except.ok.inj h
    exact ⟨as, has⟩
  · obtain ⟨attrs, -, h⟩ := bind_ok h
    obtain rfl := Except.ok.inj h
    obtain ⟨bs, hbs⟩ := inserts_attrs .event st.conn.data.nextEvent st.written s attrs _
    exact ⟨as ++ bs, (has.numbered _ _).trans hbs⟩

theorem inserts_events {s : OtelSpan} {o : Nat} {events : List Nat}
    (h : events.foldlM (otelSqliteEvent s o) st = .ok st') : ∃ as, Inserts as st st' := by
  induction events generalizing st with
  | nil =>
    obtain rfl := Except.ok.inj h
    exact ⟨[], Inserts.refl st⟩
  | cons e events ih =>
    rw [List.foldlM_cons] at h
    obtain ⟨st₁, h1, h2⟩ := bind_ok h
    obtain ⟨as, has⟩ := inserts_event h1
    obtain ⟨bs, hbs⟩ := ih h2
    exact ⟨as ++ bs, has.trans hbs⟩

/-- The span callback. -/
theorem inserts_span {s : OtelSpan} (h : otelSqliteSpan service st s = .ok st') :
    ∃ as, Inserts as st st' ∧ (st.inTxn = false → st' = st) := by
  simp only [otelSqliteSpan] at h
  cases hin : st.inTxn with
  | false =>
    simp only [hin, Bool.not_false, if_true, Except.ok.injEq] at h
    subst h
    exact ⟨[], Inserts.refl st, fun _ => rfl⟩
  | true =>
    simp only [hin, Bool.not_true, Bool.false_eq_true, if_false] at h
    obtain ⟨as, has⟩ := inserts_insert st fun db =>
      { db with spans := db.spans ++ [spanRow service s db.nextSpan st.written] }
    split_ifs at h
    · obtain rfl := Except.ok.inj h
      exact ⟨as, has, by simp⟩
    · obtain ⟨attrs, -, h⟩ := bind_ok h
      obtain ⟨events, -, h⟩ := bind_ok h
      obtain ⟨bs, hbs⟩ := inserts_attrs .span st.conn.data.nextSpan st.written s attrs _
      obtain ⟨cs, hcs⟩ := inserts_events h
      exact ⟨as ++ bs ++ cs, ((has.numbered _ _).trans hbs).trans hcs, by simp⟩

/-! ## Pruning -/

/-- Pruning executes statements, and leaves the flags alone. -/
theorem prune_frame (st : OtelSqlite) : ∃ as c, Executes as st.conn c ∧
    otelSqlitePrune st = { st with conn := c } := by
  obtain ⟨as, has, -⟩ := executes_exec st.conn id
  obtain ⟨bs, hbs, -⟩ := executes_exec (st.conn.exec id).1 id
  simp only [otelSqlitePrune]
  generalize (if ((st.conn.exec id).1.exec id).2 = true then
    Int64.ofNat (maxId ((st.conn.exec id).1.data.spans.map SpanRow.id)) else 0) = maxid
  split_ifs
  · exact ⟨[], st.conn, Executes.refl _, rfl⟩
  · exact ⟨as, _, has, rfl⟩
  · exact ⟨as ++ bs, _, has.trans hbs, rfl⟩
  · obtain ⟨cs, hcs⟩ := executes_execAll ((st.conn.exec id).1.exec id).1
      (pruneStatements (maxid - st.maxSpans.toInt64))
    exact ⟨as ++ bs ++ cs, _, (has.trans hbs).trans hcs, rfl⟩

/-- The end callback commits, and what it executes afterwards does not begin a transaction. -/
theorem end_cases (hin : st.inTxn = true) (howner : st.conn.owner ≠ none) :
    ((otelSqliteEnd st).conn.answers = [] → ((otelSqliteEnd st).conn.owner = none ↔
      (st.conn.answers.head? = some .failed → Answer.rolledBack ∈ st.conn.answers))) ∧
    ((otelSqliteEnd st).conn.owner = none ∨ (otelSqliteEnd st).conn.owner = st.conn.owner) ∧
    (otelSqliteEnd st).inTxn = false ∧ (otelSqliteEnd st).pass = st.pass ∧
    (otelSqliteEnd st).refused = st.refused ∧ (otelSqliteEnd st).inserted = st.inserted := by
  -- what follows the COMMIT
  have hrest : ∃ as c, Executes as st.conn.commit.1 c ∧ otelSqliteEnd st = { st with
      conn := c, inTxn := false, commits := st.commits + 1 } := by
    simp only [otelSqliteEnd, hin, Bool.not_true, Bool.false_eq_true, if_false]
    split_ifs
    · obtain ⟨as, c, has, hprune⟩ := prune_frame
        { st with conn := st.conn.commit.1, inTxn := false, commits := st.commits + 1 }
      exact ⟨as, c, has, hprune⟩
    · exact ⟨[], st.conn.commit.1, Executes.refl _, rfl⟩
  obtain ⟨as, c, has, heq⟩ := hrest
  rw [heq]
  refine ⟨?_, ?_, rfl, rfl, rfl, rfl⟩
  · intro hnil
    replace hnil : c.answers = [] := hnil
    rcases commit_cases howner with ⟨hhead, hnone⟩ | ⟨bs, hbs, hkeep, hanswers⟩
    · refine iff_of_true ?_ fun h => absurd h hhead
      show c.owner = none
      rw [has.owner, hnone, ite_self]
    · have has' : as = bs := by
        have := has.answers
        rw [hanswers, hnil, List.append_nil] at this
        exact this.symm
      show c.owner = none ↔ _
      rw [has.owner, hkeep, hbs, has']
      by_cases hroll : Answer.rolledBack ∈ bs
      · simp [hroll]
      · simp [hroll, howner]
  · show c.owner = none ∨ c.owner = st.conn.owner
    rw [has.owner]
    rcases commit_cases howner with ⟨-, hnone⟩ | ⟨bs, -, hkeep, -⟩
    · left
      rw [hnone, ite_self]
    · rw [hkeep]
      split_ifs
      · exact Or.inl rfl
      · exact Or.inr rfl

/-! ## Steps -/

/-- The flag says whether the pass has its transaction open. -/
def OtelSqlite.Flagged (st : OtelSqlite) : Prop := st.inTxn = true ↔ st.conn.owner = some st.pass

theorem OtelSqlite.Synced.expect (h : st.Synced) (answers : List Answer) :
    (st.expect answers).Synced :=
  ⟨h.flag, h.current, h.accepted, h.inside⟩

theorem OtelSqlite.Synced.withPass (h : st.Synced) (b : Bool) :
    OtelSqlite.Synced { st with inPass := b } :=
  ⟨h.flag, h.current, h.accepted, h.inside⟩

theorem OtelSqlite.Synced.withMax (h : st.Synced) (n : UInt64) :
    OtelSqlite.Synced { st with maxSpans := n } :=
  ⟨h.flag, h.current, h.accepted, h.inside⟩

theorem begin_synced (h : st.Synced) (hin : st.inTxn = false) : (otelSqliteBegin st).Synced := by
  have hnone : st.conn.owner = none := by
    cases howner : st.conn.owner with
    | none => rfl
    | some n =>
      have hflag := h.flag.mpr (by rw [howner, h.current n howner])
      rw [hin] at hflag
      cases hflag
  have hrefused : (otelSqliteBegin st).refused = 0 := by
    simp [otelSqliteBegin, hnone, h.accepted]
  rcases beginTxn_cases hnone (st.pass + 1) with ⟨hflag, howner⟩ | ⟨hflag, howner⟩
  · exact ⟨iff_of_true hflag howner, fun n hn => Option.some.inj (hn.symm.trans howner), hrefused,
      h.inside⟩
  · refine ⟨iff_of_false ?_ ?_, fun n hn => ?_, hrefused, h.inside⟩
    · show ¬ (st.conn.beginTxn (st.pass + 1)).2 = true
      simp [hflag]
    · show ¬ (st.conn.beginTxn (st.pass + 1)).1.owner = some (st.pass + 1)
      simp [howner]
    · exact absurd (hn.symm.trans howner) (by simp)

theorem span_synced {s : OtelSpan} (h : st.Synced) (hin : st.inTxn = true)
    (hstep : otelSqliteSpan service st s = .ok st') (hdone : st'.conn.answers = []) :
    st'.inPass = st.inPass ∧ (Answer.rolledBack ∉ st.conn.answers → st'.Synced) ∧
    (Answer.rolledBack ∈ st.conn.answers → ¬ st'.Flagged) := by
  obtain ⟨as, has, -⟩ := inserts_span hstep
  obtain rfl : as = st.conn.answers := by
    rw [has.executes.answers, hdone, List.append_nil]
  have howner := h.flag.mp hin
  have hin' := has.inTxn.trans hin
  refine ⟨has.inPass, fun hnot => ?_, fun hmem hflag => ?_⟩
  · have howner' : st'.conn.owner = some st'.pass := by
      rw [has.executes.owner, if_neg hnot, howner, has.pass]
    refine ⟨iff_of_true hin' howner', fun n hn => Option.some.inj (hn.symm.trans howner'),
      has.refused.trans h.accepted, fun e he => ?_⟩
    rcases has.inside hnot e he with hold | rfl
    · exact h.inside e hold
    · exact howner
  · have howner' := hflag.mp hin'
    rw [has.executes.owner, if_pos hmem] at howner'
    cases howner'

theorem end_synced (h : st.Synced) (hin : st.inTxn = true)
    (hdone : (otelSqliteEnd st).conn.answers = []) :
    (otelSqliteEnd st).inTxn = false ∧
    ((st.conn.answers.head? = some .failed → Answer.rolledBack ∈ st.conn.answers) →
      (otelSqliteEnd st).Synced) ∧
    (¬ (st.conn.answers.head? = some .failed → Answer.rolledBack ∈ st.conn.answers) →
      ¬ (otelSqliteEnd st).Flagged) := by
  have howner := h.flag.mp hin
  obtain ⟨hiff, hcases, hin', hpass, hrefused, hinserted⟩ := end_cases hin (by simp [howner])
  refine ⟨hin', fun hcond => ?_, fun hcond hflag => ?_⟩
  · have hnone := (hiff hdone).mpr hcond
    exact ⟨by simp [hin', hnone], by simp [hnone], hrefused.trans h.accepted,
      by rw [hinserted]; exact h.inside⟩
  · have hsome : (otelSqliteEnd st).conn.owner = some (otelSqliteEnd st).pass := by
      rcases hcases with hnone | hkeep
      · exact absurd ((hiff hdone).mp hnone) hcond
      · rw [hkeep, hpass, howner]
    have hflag' := hflag.mpr hsome
    rw [hin'] at hflag'
    cases hflag'

/-- A callback leaves the flag in step with the connection exactly if the database meets the
condition. -/
theorem synced_step (h : st.Synced) (houtside : st.inPass = false → st.inTxn = false)
    {call : SinkCall} (hpos : call.Possible service st)
    (hstep : sqliteStep service st call = .ok st') :
    (st'.inPass = false → st'.inTxn = false) ∧ (Contained st call → st'.Synced) ∧
      (¬ Contained st call → ¬ st'.Flagged) := by
  obtain ⟨horder, hanswers⟩ := hpos
  have hdone := hanswers st' hstep
  cases call with
  | begin answers =>
    obtain rfl := Except.ok.inj hstep
    refine ⟨by simp, fun _ => ?_, fun hc => absurd trivial hc⟩
    exact (begin_synced (h.expect answers) (houtside horder)).withPass true
  | span s answers =>
    cases hin : st.inTxn with
    | false =>
      obtain ⟨as, has, hsame⟩ := inserts_span hstep
      obtain rfl := hsame hin
      refine ⟨fun _ => hin, fun _ => h.expect answers, fun hc => ?_⟩
      simp [Contained, hin] at hc
    | true =>
      obtain ⟨hpass, hkeep, hlose⟩ := span_synced (h.expect answers) hin hstep hdone
      refine ⟨fun hout => ?_, fun hc => hkeep (hc hin), fun hc => hlose ?_⟩
      · have hin' : st.inPass = true := horder
        rw [hpass] at hout
        exact absurd (hin'.symm.trans hout) (by decide)
      · have hmem : Answer.rolledBack ∈ answers := by simpa [Contained, hin] using hc
        exact hmem
  | finish answers =>
    obtain rfl := Except.ok.inj hstep
    cases hin : st.inTxn with
    | false =>
      have hsame : otelSqliteEnd (st.expect answers) = st.expect answers := by
        simp [otelSqliteEnd, OtelSqlite.expect, hin]
      refine ⟨fun _ => ?_, fun _ => ?_, fun hc => ?_⟩
      · rw [hsame]
        exact hin
      · rw [hsame]
        exact (h.expect answers).withPass false
      · simp [Contained, hin] at hc
    | true =>
      obtain ⟨hin', hkeep, hlose⟩ := end_synced (h.expect answers) hin hdone
      refine ⟨fun _ => hin', fun hc => (hkeep (hc hin)).withPass false, fun hc => hlose fun hok => ?_⟩
      exact hc fun _ => hok
  | setMaxSpans n =>
    obtain rfl := Except.ok.inj hstep
    exact ⟨houtside, fun _ => h.withMax n, fun hc => absurd trivial hc⟩

/-! ## Runs -/

theorem synced_opened (db : Store) : (OtelSqlite.opened db).Synced :=
  ⟨by simp [OtelSqlite.opened, Conn.owner], by simp [OtelSqlite.opened, Conn.owner], rfl,
    by simp [OtelSqlite.opened]⟩

/-- As long as the database meets the condition, the flag says in every state between callbacks
whether the pass has its transaction open, no `BEGIN` is refused for an earlier pass's transaction,
and all rows are inserted in the transaction of their pass. The condition is exact: a callback during
which the database does not meet it leaves the flag wrong. -/
theorem sqlite_transactions (service : Bytes) (db : Store) (calls : List SinkCall)
    (st : OtelSqlite)
    (h : ((sqliteMachine service).restrict Contained).Run (OtelSqlite.opened db) calls st) :
    ((st.inTxn = true ↔ st.conn.owner = some st.pass) ∧
      (∀ n, st.conn.owner = some n → n = st.pass) ∧ st.refused = 0 ∧
      ∀ e ∈ st.inserted, e.2 = some e.1) ∧
    ∀ call st', (sqliteMachine service).enabled st call → ¬ Contained st call →
      sqliteStep service st call = .ok st' →
      ¬ (st'.inTxn = true ↔ st'.conn.owner = some st'.pass) := by
  have hinv : st.Synced ∧ (st.inPass = false → st.inTxn = false) := by
    refine h.invariant (I := fun st => st.Synced ∧ (st.inPass = false → st.inTxn = false))
      ⟨synced_opened db, fun _ => rfl⟩ ?_
    intro st call _ st' hi he hstep
    obtain ⟨houtside, hkeep, -⟩ := synced_step hi.1 hi.2 he.1 hstep
    exact ⟨hkeep he.2, houtside⟩
  obtain ⟨hsynced, houtside⟩ := hinv
  refine ⟨⟨hsynced.flag, hsynced.current, hsynced.accepted, hsynced.inside⟩, ?_⟩
  intro call st' he hcond hstep
  exact (synced_step hsynced houtside he hstep).2.2 hcond

/-- A span without attributes and events. -/
def bareSpan : OtelSpan := { zeroSpan with attrHead := otelNil, eventHead := otelNil }

/-- In the first pass `BEGIN` fails, in the second an `INSERT` and the `COMMIT`. -/
theorem sqlite_transactions_sample : ∃ st : OtelSqlite,
    (st.inserted = [(2, some 2), (3, some 3)] ∧ st.conn.owner = some 3) ∧
      (st.inTxn = true ↔ st.conn.owner = some st.pass) :=
  ⟨_, ⟨rfl, rfl⟩, (sqlite_transactions [] Store.empty
    [.begin [.failed], .span bareSpan [], .finish [], .begin [.done], .span bareSpan [.failed],
      .span bareSpan [.done], .finish [.rolledBack], .begin [.done], .span bareSpan [.done]] _
    (.cons ⟨⟨rfl, by rintro _ ⟨⟩; rfl⟩, trivial⟩ rfl
      (.cons ⟨⟨rfl, by rintro _ ⟨⟩; rfl⟩, fun _ => by decide⟩ rfl
      (.cons ⟨⟨rfl, by rintro _ ⟨⟩; rfl⟩, by rintro ⟨⟩⟩ rfl
      (.cons ⟨⟨rfl, by rintro _ ⟨⟩; rfl⟩, trivial⟩ rfl
      (.cons ⟨⟨rfl, by rintro _ ⟨⟩; rfl⟩, fun _ => by decide⟩ rfl
      (.cons ⟨⟨rfl, by rintro _ ⟨⟩; rfl⟩, fun _ => by decide⟩ rfl
      (.cons ⟨⟨rfl, by rintro _ ⟨⟩; rfl⟩, by rintro _ ⟨⟩⟩ rfl
      (.cons ⟨⟨rfl, by rintro _ ⟨⟩; rfl⟩, trivial⟩ rfl
      (.cons ⟨⟨rfl, by rintro _ ⟨⟩; rfl⟩, fun _ => by decide⟩ rfl .nil)))))))))).1.1⟩

/-- After a `COMMIT` that left the transaction open the next pass is refused at `BEGIN`. After an
`INSERT` that rolled the transaction back the next span is inserted outside of any transaction. -/
theorem sqlite_transactions_lost :
    (∃ st : OtelSqlite, (sqliteMachine []).Run (OtelSqlite.opened Store.empty)
      [.begin [.done], .finish [.failed], .begin []] st ∧
      st.refused = 1 ∧ st.inTxn = false ∧ st.conn.owner = some 1) ∧
    ∃ st : OtelSqlite, (sqliteMachine []).Run (OtelSqlite.opened Store.empty)
      [.begin [.done], .span bareSpan [.rolledBack], .span bareSpan [.done]] st ∧
      st.inTxn = true ∧ st.conn.owner = none ∧ st.inserted = [(1, none)] := by
  refine ⟨⟨_, .cons ⟨rfl, ?_⟩ rfl (.cons ⟨rfl, ?_⟩ rfl (.cons ⟨rfl, ?_⟩ rfl .nil)), rfl, rfl, rfl⟩,
    ⟨_, .cons ⟨rfl, ?_⟩ rfl (.cons ⟨rfl, ?_⟩ rfl (.cons ⟨rfl, ?_⟩ rfl .nil)), rfl, rfl, rfl⟩⟩
  all_goals
    rintro _ ⟨⟩
    rfl

end OtelTracing
