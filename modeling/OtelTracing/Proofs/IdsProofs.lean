import OtelTracing.Ids
import OtelTracing.Proofs.ForestProofs
import OtelTracing.Proofs.RandomProofs

/-!
# Proofs: the ids of the spans

Which draws are zero is a matter of the state before the start, and a forest keeps valid ids exactly
as long as no span is started in such a state.
-/

namespace OtelTracing

open ByteMem Lehmer Outcome

variable {pack : Proto.ExportTraceServiceRequest → Bytes} {w w' : Forest} {t : Tracer}
  {st : OtelRandomState} {s : OtelSpan}

/-! ## Draws -/

theorem draw_toNat (n : Nat) (st : OtelRandomState) :
    (otelRandomNext (otelRandomAfter n st)).2.toNat =
      st.toNat * otelRandomMultiplier ^ (n + 1) % 2 ^ 128 / 2 ^ 64 := by
  rw [next_hi, ← toNat_div, toNat_next, toNat_after, step, Nat.mod_mul_mod, Nat.mul_assoc,
    ← pow_succ]

theorem draw_ne_zero (n : Nat) (st : OtelRandomState) :
    (otelRandomNext (otelRandomAfter n st)).2 ≠ 0 ↔ NonzeroDraw st.toNat (n + 1) := by
  rw [Ne, ← UInt64.toNat_inj, draw_toNat]
  show ¬ _ / 2 ^ 64 = 0 ↔ _
  rw [Nat.div_eq_zero_iff_lt (by decide), Nat.not_lt]
  rfl

theorem after_zero (st : OtelRandomState) : otelRandomAfter 0 st = st := rfl

theorem after_succ (n : Nat) (st : OtelRandomState) :
    (otelRandomNext (otelRandomAfter n st)).1 = otelRandomAfter (n + 1) st := by
  unfold otelRandomAfter
  rw [Function.iterate_succ_apply']

theorem le_eq_zero {x : UInt64} (h : le 8 x.toNat = le 8 0) : x = 0 := by
  have hlt := x.toNat_lt
  have hbytes := congrArg ofLe h
  rw [ofLe_le, ofLe_le] at hbytes
  apply UInt64.toNat_inj.mp
  show x.toNat = 0
  omega

/-- A trace id is zero if both of its halves are. -/
theorem traceIdOfWords_eq_zero (x y : UInt64) :
    traceIdOfWords x y = zeroTraceId ↔ x = 0 ∧ y = 0 := by
  constructor
  · intro h
    have hbytes : le 8 x.toNat ++ le 8 y.toNat = le 8 0 ++ le 8 0 := congrArg Vector.toList h
    obtain ⟨hx, hy⟩ := List.append_inj hbytes (by rw [length_le, length_le])
    exact ⟨le_eq_zero hx, le_eq_zero hy⟩
  · rintro ⟨rfl, rfl⟩
    rfl

/-! ## Starts -/

/-- The environment of a start. -/
abbrev Tracer.env (t : Tracer) (now : UInt64) : StartEnv :=
  ⟨t.enabled, t.sampleAlways, t.sampleThreshold, now⟩

/-- The parent id that the call leaves in a recording span. -/
def StartCall.GivesParent (s : OtelSpan) : StartCall → Prop
  | .root => s.parentId = 0
  | .child parent => ∀ p, parent = some p → s.parentId = p.spanId
  | .remote _ parentId _ => s.parentId = parentId

/-- The span `s` is what the call makes of the generator's state with the number `x`. -/
structure Drawn (t : Tracer) (x : Nat) (call : StartCall) (s : OtelSpan) : Prop where
  recording : otelSpanRecording s = true ↔ call.Records t x
  ids : otelSpanRecording s = true →
    (call.DrawsIds t x ↔ s.spanId ≠ 0 ∧ (call = .root → s.traceId ≠ zeroTraceId))
  parentId : otelSpanRecording s = true → call.GivesParent s

theorem drawn_of_not {x : Nat} {call : StartCall} (hno : ¬ call.Records t x) (s : OtelSpan) :
    Drawn t x call (notRecording s) := by
  have hrec : otelSpanRecording (notRecording s) ≠ true := by
    rw [notRecording_not_recording]
    decide
  exact ⟨iff_of_false hrec hno, fun h => absurd h hrec, fun h => absurd h hrec⟩

theorem init_recording (s : OtelSpan) (name : Option Bytes) (kind : UInt8) (now : UInt64) :
    otelSpanRecording (otelSpanInit s name kind now) = true :=
  recording_of_flags (congrArg SpanHead.flags (head_init s name kind now))

theorem init_spanId (s : OtelSpan) (name : Option Bytes) (kind : UInt8) (now : UInt64) :
    (otelSpanInit s name kind now).spanId = s.spanId :=
  congrArg SpanHead.spanId (head_init s name kind now)

theorem init_traceId (s : OtelSpan) (name : Option Bytes) (kind : UInt8) (now : UInt64) :
    (otelSpanInit s name kind now).traceId = s.traceId :=
  congrArg SpanHead.traceId (head_init s name kind now)

theorem init_parentId (s : OtelSpan) (name : Option Bytes) (kind : UInt8) (now : UInt64) :
    (otelSpanInit s name kind now).parentId = s.parentId :=
  congrArg SpanHead.parentId (head_init s name kind now)

/-- A root after the decision to record, for which `k` words were drawn. -/
theorem drawn_root {k : Nat} (hk : k = if t.sampleAlways then 0 else 1)
    (hrec : StartCall.root.Records t st.toNat) (st' : OtelRandomState)
    (hst : st' = otelRandomAfter k st) (name : Option Bytes) (kind : UInt8) (now : UInt64) :
    Drawn t st.toNat .root (otelSpanInit { s with
      traceId := traceIdOfWords (otelRandomNext st').2 (otelRandomNext (otelRandomNext st').1).2
      spanId := (otelRandomNext (otelRandomNext (otelRandomNext st').1).1).2
      parentId := 0 } name kind now) := by
  subst hst
  rw [after_succ, after_succ]
  refine ⟨iff_of_true (init_recording ..) hrec, fun _ => ?_, fun _ => init_parentId ..⟩
  rw [init_spanId, init_traceId, draw_ne_zero, Ne, traceIdOfWords_eq_zero, not_and_or,
    ← Ne, ← Ne, draw_ne_zero, draw_ne_zero]
  unfold StartCall.DrawsIds
  rw [← hk]
  constructor
  · rintro ⟨hspan, htrace⟩
    exact ⟨hspan, fun _ => htrace⟩
  · rintro ⟨hspan, htrace⟩
    exact ⟨hspan, htrace rfl⟩

/-- A child or a span with a remote parent draws one word. -/
theorem drawn_below {call : StartCall} (hrec : call.Records t st.toNat) (hroot : call ≠ .root)
    (hdraws : call.DrawsIds t st.toNat = NonzeroDraw st.toNat 1) (s : OtelSpan)
    (name : Option Bytes) (kind : UInt8) (now : UInt64) (hspan : s.spanId = (otelRandomNext st).2)
    (hparent : call.GivesParent (otelSpanInit s name kind now)) :
    Drawn t st.toNat call (otelSpanInit s name kind now) := by
  refine ⟨iff_of_true (init_recording ..) hrec, fun _ => ?_, fun _ => hparent⟩
  rw [init_spanId, hspan, hdraws, ← after_zero st, draw_ne_zero]
  exact ⟨fun h => ⟨h, fun heq => absurd heq hroot⟩, fun h => h.1⟩

theorem startRoot_drawn (henabled : t.enabled = true) (st : OtelRandomState) (s : OtelSpan)
    (name : Option Bytes) (kind : UInt8) (now : UInt64) :
    Drawn t st.toNat .root (otelSpanStartRoot_ (t.env now) (some st) s name kind).2 := by
  unfold otelSpanStartRoot_
  cases halways : t.sampleAlways with
  | true =>
    have hk : 0 = if t.sampleAlways then 0 else 1 := by rw [halways]; rfl
    simp only [halways]
    exact drawn_root hk ⟨henabled, .inl halways⟩ _ rfl name kind now
  | false =>
    have hk : 1 = if t.sampleAlways then 0 else 1 := by rw [halways]; rfl
    have hdraw := draw_toNat 0 st
    rw [after_zero, zero_add, pow_one] at hdraw
    simp only [halways, Bool.false_eq_true, if_false, Bool.not_false, Bool.true_and,
      decide_eq_true_eq]
    by_cases hlt : (otelRandomNext st).2 ≥ t.sampleThreshold
    · rw [if_pos hlt]
      refine drawn_of_not ?_ s
      rintro ⟨-, h | h⟩
      · rw [halways] at h
        cases h
      · rw [← hdraw, ← UInt64.lt_iff_toNat_lt] at h
        exact absurd h (UInt64.not_lt.mpr hlt)
    · rw [if_neg hlt]
      refine drawn_root hk ⟨henabled, .inr ?_⟩ _ rfl name kind now
      rw [← hdraw, ← UInt64.lt_iff_toNat_lt]
      exact UInt64.not_le.mp hlt

theorem run_drawn (t : Tracer) (st : OtelRandomState) (call : StartCall) (s : OtelSpan)
    (name : Option Bytes) (kind : UInt32) (now : UInt64) :
    Drawn t st.toNat call (call.run (t.env now) (some st) s name kind).2 := by
  cases call with
  | root =>
    by_cases henabled : t.enabled = true
    · have hrun : (StartCall.root.run (t.env now) (some st) s name kind).2 =
          (otelSpanStartRoot_ (t.env now) (some st) s name kind.toUInt8).2 := by
        simp [StartCall.run, otelSpanStart, henabled]
      rw [hrun]
      exact startRoot_drawn henabled st s name _ now
    · have hrun : (StartCall.root.run (t.env now) (some st) s name kind).2 = notRecording s := by
        simp [StartCall.run, otelSpanStart, henabled]
      have hno : ¬ StartCall.root.Records t st.toNat := fun h => henabled h.1
      rw [hrun]
      exact drawn_of_not hno s
  | child parent =>
    cases parent with
    | none =>
      have hno : ¬ (StartCall.child none).Records t st.toNat := by rintro ⟨⟩
      exact drawn_of_not hno s
    | some parent =>
      by_cases hrec : (StartCall.child (some parent)).Records t st.toNat
      · have hparent : otelSpanRecording parent = true := hrec
        have hrun : ((StartCall.child (some parent)).run (t.env now) (some st) s name kind).2 =
            otelSpanInit { s with
              traceId := parent.traceId, spanId := (otelRandomNext st).2
              parentId := parent.spanId } name kind.toUInt8 now := by
          simp [StartCall.run, otelSpanStartChild, hparent, otelSpanStartChild_]
        rw [hrun]
        refine drawn_below hrec (by rintro ⟨⟩) rfl _ name _ _ rfl ?_
        intro p hp
        cases hp
        exact init_parentId ..
      · have hparent : ¬ otelSpanRecording parent = true := hrec
        have hrun : ((StartCall.child (some parent)).run (t.env now) (some st) s name kind).2 =
            notRecording s := by
          simp [StartCall.run, otelSpanStartChild, hparent]
        rw [hrun]
        exact drawn_of_not hrec s
  | remote traceId parentId sampled =>
    by_cases hrec : (StartCall.remote traceId parentId sampled).Records t st.toNat
    · have hrun : ((StartCall.remote traceId parentId sampled).run (t.env now) (some st) s name
          kind).2 = otelSpanInit { s with
            traceId := traceId, spanId := (otelRandomNext st).2
            parentId := parentId } name kind.toUInt8 now := by
        simp [StartCall.run, otelSpanStartRemote, hrec.1, hrec.2, otelSpanStartRemote_]
      rw [hrun]
      exact drawn_below hrec (by rintro ⟨⟩) rfl _ name _ _ rfl (init_parentId ..)
    · have hrun : ((StartCall.remote traceId parentId sampled).run (t.env now) (some st) s name
          kind).2 = notRecording s := by
        by_cases henabled : t.enabled = true
        · have hsampled : sampled = 0 := by
            by_contra h
            exact hrec ⟨henabled, h⟩
          simp [StartCall.run, otelSpanStartRemote, hsampled]
        · simp [StartCall.run, otelSpanStartRemote, henabled]
      rw [hrun]
      exact drawn_of_not hrec s

/-! ## The forest -/

theorem exportsParent_iff (s : OtelSpan) : ExportsParent s ↔ s.parentId ≠ 0 := by
  constructor
  · rintro ⟨-, hrow⟩ hzero
    exact hrow [] 0 0 (if_neg (not_not.mpr hzero))
  · intro hne
    constructor
    · rintro P mem p as na es ne rfl
      unfold otlpSpan
      rw [if_pos hne, IdRef.bytes, length_le]
    · intro service id origin hnone
      unfold spanRow at hnone
      rw [if_pos hne] at hnone
      cases hnone

variable {n n' : Node} {obj : SpanObj}

theorem validIds_congr (hids : SameIds n.span n'.span) (hparent : n'.parent = n.parent) :
    n'.ValidIds ↔ n.ValidIds := by
  have hroot : n'.isRoot ↔ n.isRoot := by
    rw [Node.isRoot, Node.isRoot, hparent, hids.parentId]
  constructor
  · rintro ⟨hspan, htrace, hexports⟩
    rw [exportsParent_iff, hids.parentId, hparent] at hexports
    rw [hids.spanId] at hspan
    rw [hids.traceId, hroot] at htrace
    exact ⟨hspan, htrace, by rwa [exportsParent_iff]⟩
  · rintro ⟨hspan, htrace, hexports⟩
    rw [exportsParent_iff] at hexports
    refine ⟨by rwa [hids.spanId], by rwa [hids.traceId, hroot], ?_⟩
    rwa [exportsParent_iff, hids.parentId, hparent]

/-- Annotating or ending a span. -/
theorem validIds_setNode (hn : w.nodes obj = some n) (hids : SameIds n.span n'.span)
    (hparent : n'.parent = n.parent) : (w.setNode obj n').ValidIds ↔ w.ValidIds := by
  have hrec : n'.recording = n.recording := hids.recording
  have hvalid := validIds_congr hids hparent
  constructor
  · intro h o m hm hm'
    by_cases ho : o = obj
    · rw [ho, hn] at hm
      cases hm
      exact hvalid.mp (h obj n' (Function.update_self ..) (hrec.trans hm'))
    · exact h o m ((Function.update_of_ne ho ..).trans hm) hm'
  · intro h o m hm hm'
    rcases nodes_setNode w obj n' hm with ⟨-, rfl⟩ | ⟨-, hm⟩
    · exact hvalid.mpr (h obj n hn (hrec.symm.trans hm'))
    · exact h o m hm hm'

/-- Starting a span on a fresh object. -/
theorem validIds_start (hfresh : w.nodes obj = none) :
    (w.setNode obj n).ValidIds ↔ w.ValidIds ∧ (n.recording = true → n.ValidIds) := by
  constructor
  · intro h
    refine ⟨?_, h obj n (Function.update_self ..)⟩
    intro o m hm
    have ho : o ≠ obj := by
      rintro rfl
      rw [hfresh] at hm
      cases hm
    exact h o m ((Function.update_of_ne ho ..).trans hm)
  · rintro ⟨h, hnew⟩ o m hm
    rcases nodes_setNode w obj n hm with ⟨-, rfl⟩ | ⟨-, hm⟩
    · exact hnew
    · exact h o m hm

/-- The node of a start is valid exactly if its ids were drawn from a state that gives valid ids. -/
theorem validIds_drawn {x : Nat} {how : ForestStart} (h : w.ValidIds)
    (hparents : ∀ p, how.parent = some p → (w.nodes p).isSome)
    (hsupplied : ∀ traceId parentId sampled, how = .remote traceId parentId sampled → parentId ≠ 0)
    (hparent : n.parent = how.parent) (hdrawn : Drawn w.tracer x (w.startCall how) n.span)
    (hrec : n.recording = true) :
    n.ValidIds ↔ (w.startCall how).DrawsIds w.tracer x := by
  rw [hdrawn.ids hrec]
  have hgives := hdrawn.parentId hrec
  have hrecords := hdrawn.recording.mp hrec
  cases how with
  | root =>
    constructor
    · intro hvalid
      exact ⟨hvalid.spanId, fun _ => hvalid.traceId ⟨hparent, hgives⟩⟩
    · rintro ⟨hspan, htrace⟩
      exact ⟨hspan, fun _ => htrace rfl, by rw [hparent]; rintro ⟨⟩⟩
  | child parent =>
    cases parent with
    | none => cases hrecords
    | some p =>
      obtain ⟨m, hm⟩ := Option.isSome_iff_exists.mp (hparents p rfl)
      have hcall : w.startCall (.child (some p)) = .child (some m.span) := by
        simp [Forest.startCall, hm]
      rw [hcall] at hgives hrecords ⊢
      have hne : n.span.parentId ≠ 0 := by
        rw [hgives m.span rfl]
        exact (h p m hm hrecords).spanId
      constructor
      · intro hvalid
        exact ⟨hvalid.spanId, by rintro ⟨⟩⟩
      · rintro ⟨hspan, -⟩
        exact ⟨hspan, fun hroot => absurd hroot.2 hne, fun _ => (exportsParent_iff _).mpr hne⟩
  | remote traceId parentId sampled =>
    have hne : n.span.parentId ≠ 0 := by
      rw [show n.span.parentId = parentId from hgives]
      exact hsupplied traceId parentId sampled rfl
    constructor
    · intro hvalid
      exact ⟨hvalid.spanId, by rintro ⟨⟩⟩
    · rintro ⟨hspan, -⟩
      exact ⟨hspan, fun hroot => absurd hroot.2 hne, by rw [hparent]; rintro ⟨⟩⟩

theorem validIds_step {op : ForestOp} (hpos : op.Possible w) (hsupplied : op.Supplied)
    (hstep : forestStep pack w op = .ok w') : w'.ValidIds ↔ w.ValidIds ∧ op.DrawsIds w := by
  cases op with
  | start tid obj how mem name kind now =>
    obtain ⟨hfresh, ⟨a, c, htls, hc⟩, hparents⟩ := hpos
    obtain ⟨r, hstart, hstep⟩ := bind_ok hstep
    obtain rfl := Except.ok.inj hstep
    have hdrawn : Drawn w.tracer c.randstate.toNat (w.startCall how) r.2 := by
      rw [start_span htls hc hstart]
      exact run_drawn w.tracer c.randstate (w.startCall how) mem name kind now
    have hnonzero : ∀ traceId parentId sampled, how = .remote traceId parentId sampled →
        parentId ≠ 0 := by
      rintro traceId parentId sampled rfl
      exact hsupplied.2
    have hstarted : ({ w with tracer := r.1 }.setNode obj ⟨⟨r.2, []⟩, how.parent⟩).ValidIds ↔
        w.ValidIds ∧ (otelSpanRecording r.2 = true → Node.ValidIds ⟨⟨r.2, []⟩, how.parent⟩) :=
      validIds_start hfresh
    refine hstarted.trans (and_congr_right fun h => ?_)
    have hvalid : otelSpanRecording r.2 = true → (Node.ValidIds ⟨⟨r.2, []⟩, how.parent⟩ ↔
        (w.startCall how).DrawsIds w.tracer c.randstate.toNat) :=
      validIds_drawn (n := ⟨⟨r.2, []⟩, how.parent⟩) h hparents hnonzero rfl hdrawn
    constructor
    · intro hnew b d hb hd hrecords
      rw [htls] at hb
      cases hb
      rw [hc] at hd
      cases hd
      have hrec := hdrawn.recording.mpr hrecords
      exact (hvalid hrec).mp (hnew hrec)
    · intro hdraws hrec
      exact (hvalid hrec).mpr (hdraws a c htls hc (hdrawn.recording.mp hrec))
  | annotate obj c =>
    obtain ⟨n, hn, hstep⟩ := bind_ok hstep
    obtain rfl := Except.ok.inj hstep
    have hset : (w.setNode obj { n with session := n.session.call c }).ValidIds ↔ w.ValidIds :=
      validIds_setNode (node_ok hn) (sameIds_call n.session c) rfl
    exact hset.trans (and_iff_left trivial).symm
  | finish tid obj now =>
    obtain ⟨n, hn, hstep⟩ := bind_ok hstep
    obtain ⟨t, hend, hstep⟩ := bind_ok hstep
    obtain rfl := Except.ok.inj hstep
    generalize hsession : (if n.recording then n.session.call (.finish now) else n.session) = session
    have hids : SameIds n.session.span session.span := by
      rw [← hsession]
      split_ifs
      · exact sameIds_call n.session (.finish now)
      · exact SameIds.refl _
    have hset : ({ w with tracer := t }.setNode obj { n with session := session }).ValidIds ↔
        w.ValidIds := validIds_setNode (node_ok hn) hids rfl
    exact hset.trans (and_iff_left trivial).symm
  | setSampler ratio =>
    obtain rfl := Except.ok.inj hstep
    exact (and_iff_left trivial).symm
  | tracer op =>
    obtain ⟨t, hop, hstep⟩ := bind_ok hstep
    obtain rfl := Except.ok.inj hstep
    exact (and_iff_left trivial).symm

/-- After a run in which remote contexts supply ids that are not zero, the ids of all recording spans
are valid exactly if every span was started in a state of the generator that gives valid ids. -/
theorem ids_valid (pack : Proto.ExportTraceServiceRequest → Bytes) (ops : List ForestOp) (w : Forest)
    (hrun : (forestMachine pack).Run Forest.boot ops w) (hsupplied : ∀ op ∈ ops, op.Supplied) :
    w.ValidIds ↔ ((forestMachine pack).restrict ForestOp.DrawsIds).Run Forest.boot ops w := by
  have hboot : Forest.boot.ValidIds := by
    intro o n hn
    cases hn
  exact (hrun.iff_restrict (I := fun _ => True) trivial hboot
    fun w op hop w' _ hpos hstep => ⟨trivial, validIds_step hpos (hsupplied op hop) hstep⟩).2

/-- A root, its child, and a span whose parent is remote, from a good seed. -/
def startingThree : List ForestOp :=
  [.tracer (.init none none true), .tracer (.setTransport true), .tracer (.register 0 3 ⟨1, 0⟩ 0),
    .start 0 10 .root zeroSpan none 1 5, .start 0 11 (.child (some 10)) zeroSpan none 1 6,
    .start 0 12 (.remote (Vector.replicate 16 7) 9 1) zeroSpan none 1 7]

theorem ids_valid_sample : ∃ w : Forest, ((w.nodes 11).isSome ∧ (w.nodes 12).isSome) ∧ (w.ValidIds ↔
    ((forestMachine fun _ => []).restrict ForestOp.DrawsIds).Run Forest.boot startingThree w) := by
  have hrun : ∃ w : Forest, ((w.nodes 11).isSome ∧ (w.nodes 12).isSome) ∧
      (forestMachine fun _ => []).Run Forest.boot startingThree w :=
    ⟨_, ⟨rfl, rfl⟩, .cons ⟨trivial, trivial⟩ rfl (.cons ⟨trivial, trivial⟩ rfl
      (.cons ⟨trivial, rfl⟩ rfl (.cons ⟨rfl, ⟨_, _, rfl, rfl⟩, by rintro p ⟨⟩⟩ rfl
      (.cons ⟨rfl, ⟨_, _, rfl, rfl⟩, by rintro p ⟨⟩; rfl⟩ rfl
      (.cons ⟨rfl, ⟨_, _, rfl, rfl⟩, by rintro p ⟨⟩⟩ rfl .nil)))))⟩
  obtain ⟨w, hsome, hrun⟩ := hrun
  refine ⟨w, hsome, ids_valid _ _ w hrun ?_⟩
  simp only [startingThree, List.forall_mem_cons, ForestOp.Supplied, true_and]
  exact ⟨⟨by decide, by decide⟩, by rintro op ⟨⟩⟩

/-- The inverse of the multiplier is a seed whose first two draws are zero, and the inverse of its
fourth power one whose fourth draw is: a root gets a trace id of zeroes, a child gets a span id of
zero, and a child of that is exported as a root. -/
theorem ids_zero :
    (∃ (w : Forest) (n : Node), (forestMachine fun _ => []).Run Forest.boot
      [.tracer (.init none none true), .tracer (.setTransport true),
        .tracer (.register 0 3 ⟨0x8b838d0354ead59d, 0x0cd365d2cb1a6a6c⟩ 0),
        .start 0 10 .root zeroSpan none 1 5] w ∧
      w.nodes 10 = some n ∧ n.recording = true ∧ n.isRoot ∧ n.span.traceId = zeroTraceId) ∧
    ∃ (w : Forest) (n m : Node), (forestMachine fun _ => []).Run Forest.boot
      [.tracer (.init none none true), .tracer (.setTransport true),
        .tracer (.register 0 3 ⟨0x5ed3d9bede8478d1, 0xfb9eaf9ffc30e534⟩ 0),
        .start 0 10 .root zeroSpan none 1 5, .start 0 11 (.child (some 10)) zeroSpan none 1 6,
        .start 0 12 (.child (some 11)) zeroSpan none 1 7] w ∧
      w.nodes 11 = some n ∧ n.recording = true ∧ n.span.spanId = 0 ∧
      w.nodes 12 = some m ∧ m.recording = true ∧ m.parent = some 11 ∧
      (spanRow [] m.span 0 0).parentId = none ∧ ¬ ExportsParent m.span := by
  constructor
  · exact ⟨_, _, .cons ⟨trivial, trivial⟩ rfl (.cons ⟨trivial, trivial⟩ rfl (.cons ⟨trivial, rfl⟩ rfl
      (.cons ⟨rfl, ⟨_, _, rfl, rfl⟩, by rintro p ⟨⟩⟩ rfl .nil))), rfl, rfl, ⟨rfl, rfl⟩, by decide⟩
  · refine ⟨_, _, _, .cons ⟨trivial, trivial⟩ rfl (.cons ⟨trivial, trivial⟩ rfl
      (.cons ⟨trivial, rfl⟩ rfl (.cons ⟨rfl, ⟨_, _, rfl, rfl⟩, by rintro p ⟨⟩⟩ rfl
        (.cons ⟨rfl, ⟨_, _, rfl, rfl⟩, by rintro p ⟨⟩; rfl⟩ rfl
          (.cons ⟨rfl, ⟨_, _, rfl, rfl⟩, by rintro p ⟨⟩; rfl⟩ rfl .nil))))),
      rfl, rfl, rfl, rfl, rfl, rfl, rfl, ?_⟩
    rintro ⟨-, hrow⟩
    exact hrow [] 0 0 rfl

end OtelTracing
