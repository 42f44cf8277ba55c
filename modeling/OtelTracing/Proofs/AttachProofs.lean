import OtelTracing.Attach
import OtelTracing.Proofs.PassProofs

/-!
# Proofs: attaching the SQLite store

An open that fails tears down what it did not set up: it drains the rings, detaches whatever sink is
registered and clears the retention limit. It leaves the tracer as it was exactly if there was
nothing to lose (`failed_open`).
-/

namespace OtelTracing

open ByteMem Outcome

variable {pack : Proto.ExportTraceServiceRequest → Bytes} {t t' : Tracer} {σ σ' : Program}

/-! ## The live flag -/

/-- The live flag is what `otelRecomputeEnabled` makes of its inputs. -/
def LiveFlag (t : Tracer) : Prop :=
  t.enabled = (t.initialized && (t.transportPresent || t.sinkPresent) && t.runtimeOn)

theorem LiveFlag.congr (h : LiveFlag t) (henabled : t'.enabled = t.enabled)
    (hinit : t'.initialized = t.initialized) (htransport : t'.transportPresent = t.transportPresent)
    (hsink : t'.sinkPresent = t.sinkPresent) (hon : t'.runtimeOn = t.runtimeOn) : LiveFlag t' := by
  rw [LiveFlag, henabled, hinit, htransport, hsink, hon]
  exact h

theorem LiveFlag.drain (hnodup : t.threads.Nodup) (h : LiveFlag t) {n : Int32}
    (hdrain : otelDrain pack t = .ok (t', n)) : LiveFlag t' := by
  unfold otelDrain at hdrain
  split_ifs at hdrain
  · obtain ⟨rfl, -⟩ := Prod.mk.inj (Except.ok.inj hdrain)
    exact h
  · obtain ⟨o, out, rfl⟩ := drainPass_frame hnodup hdrain
    exact h.congr rfl rfl rfl rfl rfl

theorem liveFlag_step (hready : Ready t) (h : LiveFlag t) {op : Op}
    (hstep : tracerStep pack t op = .ok t') : LiveFlag t' := by
  cases op with
  | init service hostname buf =>
    obtain rfl := Except.ok.inj hstep
    cases hinit : t.initialized with
    | true =>
      rw [otelInit_of_initialized hinit]
      exact h
    | false =>
      rw [otelInit_of_not hinit]
      exact rfl
  | shutdown =>
    rcases shutdown_cases hstep with ⟨-, rfl⟩ | ⟨-, t₁, -, rfl⟩
    · exact h
    · exact rfl
  | setTransport fn =>
    obtain rfl := Except.ok.inj hstep
    exact rfl
  | setSpanSink sink =>
    obtain rfl := Except.ok.inj hstep
    exact rfl
  | setEnabled enabled =>
    obtain rfl := Except.ok.inj hstep
    exact rfl
  | setRingCapacity spans =>
    obtain ⟨cap, -, rfl⟩ := setRingCapacity_frame hstep
    exact h
  | register tid a seed now =>
    obtain rfl := Except.ok.inj hstep
    cases htls : t.tls tid with
    | some b =>
      rw [register_of_some (by simp [htls])]
      exact h
    | none =>
      rw [register_of_none htls]
      exact h
  | unregister tid =>
    rcases unregister_cases hstep with ⟨-, rfl⟩ | ⟨a, t₁, threads, c, -, hpass, -, -, rfl⟩
    · exact h
    · rcases whenEnabled_ok hpass with ⟨-, n, hpass⟩ | ⟨-, rfl⟩
      · obtain ⟨o, out, rfl⟩ := drainPass_frame (by simp) hpass
        exact h.congr rfl rfl rfl rfl rfl
      · exact h
  | start tid call s name kind now =>
    obtain ⟨r, h1, rfl⟩ := map_ok hstep
    rcases start_cases h1 with hr | ⟨a, c, rand, -, hr⟩
    · rw [hr]
      exact h
    · rw [hr]
      exact h
  | finish tid s now =>
    rcases spanEnd_cases hstep with ⟨-, rfl⟩ | ⟨-, -, rfl⟩ | ⟨-, a, c, -, -, rfl⟩
    · exact h
    · exact h
    · exact h
  | drain =>
    obtain ⟨⟨t₁, n⟩, h1, rfl⟩ := map_ok hstep
    exact h.drain hready.nodup h1

/-! ## Runs of the program -/

/-- What holds between the calls of the API. -/
structure ProgramOk (σ : Program) : Prop where
  ready : Ready σ.tracer
  live : LiveFlag σ.tracer

theorem ProgramOk.setSink (h : ProgramOk σ) (sink : Option OtelSpanSink) (store : OtelSqliteStore) :
    ProgramOk ⟨otelSetSpanSink σ.tracer sink, store⟩ where
  ready := { h.ready with sinkPresent := rfl, enabled := recompute_enabled _ }
  live := rfl

theorem close_cases (h : otelSqliteClose pack σ = .ok σ') :
    ∃ t n, otelDrain pack σ.tracer = .ok (t, n) ∧
      σ' = ⟨otelSetSpanSink t none, OtelSqliteStore.zero⟩ := by
  obtain ⟨⟨t, n⟩, hdrain, h⟩ := bind_ok h
  exact ⟨t, n, hdrain, (Except.ok.inj h).symm⟩

theorem ProgramOk.close (hσ : ProgramOk σ) (h : otelSqliteClose pack σ = .ok σ') :
    ProgramOk σ' := by
  obtain ⟨t, n, hdrain, rfl⟩ := close_cases h
  have ht : ProgramOk ⟨t, σ.store⟩ :=
    ⟨hσ.ready.drain hdrain, hσ.live.drain hσ.ready.nodup hdrain⟩
  exact ht.setSink none _

/-- Opening: the store is open already, the open succeeds, or it fails and everything is closed. -/
theorem open_cases {ms : UInt32} {failure : Option OpenStep} {r : Int32}
    (h : otelSqliteOpen pack σ ms failure = .ok (σ', r)) :
    (σ.store.db = true ∧ σ' = σ ∧ r = -1) ∨
    (σ.store.db = false ∧ r = 0 ∧ ∃ store,
      σ' = ⟨otelSetSpanSink σ.tracer (some otelSqliteSink), store⟩) ∨
    (σ.store.db = false ∧ r = -1 ∧ ∃ store, otelSqliteClose pack
      ⟨if failure = some .thread then otelSetSpanSink σ.tracer (some otelSqliteSink) else σ.tracer,
        store⟩ = .ok σ') := by
  have hfail : ∀ σ₁, otelSqliteFail pack σ₁ = .ok (σ', r) →
      r = -1 ∧ otelSqliteClose pack σ₁ = .ok σ' := by
    intro σ₁ h
    obtain ⟨σ₂, hclose, h⟩ := bind_ok h
    obtain ⟨rfl, rfl⟩ := Prod.mk.inj (Except.ok.inj h)
    exact ⟨rfl, hclose⟩
  unfold otelSqliteOpen at h
  cases hdb : σ.store.db with
  | true =>
    rw [hdb, if_pos rfl] at h
    obtain ⟨rfl, rfl⟩ := Prod.mk.inj (Except.ok.inj h)
    exact Or.inl ⟨rfl, rfl, rfl⟩
  | false =>
    rw [hdb, if_neg Bool.false_ne_true] at h
    right
    cases failure with
    | none =>
      obtain ⟨rfl, rfl⟩ := Prod.mk.inj (Except.ok.inj h)
      exact Or.inl ⟨rfl, rfl, _, rfl⟩
    | some step =>
      right
      cases step with
      | «open» handle =>
        obtain ⟨hr, hclose⟩ := hfail _ h
        exact ⟨rfl, hr, _, hclose⟩
      | schema =>
        obtain ⟨hr, hclose⟩ := hfail _ h
        exact ⟨rfl, hr, _, hclose⟩
      | prepare =>
        obtain ⟨hr, hclose⟩ := hfail _ h
        exact ⟨rfl, hr, _, hclose⟩
      | thread =>
        obtain ⟨hr, hclose⟩ := hfail _ h
        exact ⟨rfl, hr, _, hclose⟩

theorem program_step (h : ProgramOk σ) {op : ProgramOp} (hpos : op.Possible σ)
    (hstep : programStep pack σ op = .ok σ') : ProgramOk σ' := by
  cases op with
  | tracer op =>
    obtain ⟨t, hop, hstep⟩ := bind_ok hstep
    obtain rfl := Except.ok.inj hstep
    exact ⟨ready_step h.ready hpos hop, liveFlag_step h.ready h.live hop⟩
  | «open» ms failure =>
    obtain ⟨⟨σ₁, r⟩, hopen, rfl⟩ := map_ok hstep
    rcases open_cases hopen with ⟨-, rfl, -⟩ | ⟨-, -, store, rfl⟩ | ⟨-, -, store, hclose⟩
    · exact h
    · exact h.setSink _ store
    · refine ProgramOk.close ?_ hclose
      split_ifs
      · exact h.setSink _ store
      · exact ⟨h.ready, h.live⟩
  | close => exact h.close hstep
  | setMaxSpans n =>
    obtain rfl := Except.ok.inj hstep
    exact ⟨h.ready, h.live⟩

theorem program_run {ops : List ProgramOp}
    (h : (programMachine pack).Run Program.boot ops σ) : ProgramOk σ :=
  h.invariant (I := ProgramOk) ⟨Ready.boot, rfl⟩ fun _ _ _ _ hok he hstep =>
    program_step hok he hstep

/-! ## Failures -/

theorem stagedIn_drained (t : Tracer) :
    stagedIn (drainedCtxs t.threads t.ctxs) t.threads = [] := by
  rw [stagedIn, List.flatMap_eq_nil_iff]
  intro a ha
  rw [stagedAt_drainedCtxs, if_pos ha]

/-- What closing leaves of the tracer. -/
theorem close_effect (hnodup : σ.tracer.threads.Nodup) (h : otelSqliteClose pack σ = .ok σ') :
    σ'.tracer.sink = none ∧ σ'.tracer.sinkPresent = false ∧ σ'.store.maxSpans = 0 ∧
    σ'.tracer.enabled =
      (σ.tracer.initialized && σ.tracer.transportPresent && σ.tracer.runtimeOn) ∧
    σ'.tracer.staged = if σ.tracer.enabled then [] else σ.tracer.staged := by
  obtain ⟨t, n, hdrain, rfl⟩ := close_cases h
  unfold otelDrain at hdrain
  cases hen : σ.tracer.enabled with
  | false =>
    rw [hen] at hdrain
    obtain ⟨rfl, -⟩ := Prod.mk.inj (Except.ok.inj hdrain)
    exact ⟨rfl, rfl, rfl, by simp [otelSetSpanSink, otelRecomputeEnabled], rfl⟩
  | true =>
    rw [hen] at hdrain
    obtain ⟨o, out, rfl⟩ := drainPass_frame hnodup hdrain
    refine ⟨rfl, rfl, rfl, by simp [otelSetSpanSink, otelRecomputeEnabled], ?_⟩
    exact stagedIn_drained σ.tracer

/-- An open that returns -1 leaves the tracer as it was exactly if the store is open already, or no
sink is registered, no retention limit is set, and no spans are staged while tracing is live. A close
without an open store leaves the registered sink alone exactly if there is none. -/
theorem failed_open (pack : Proto.ExportTraceServiceRequest → Bytes) (ops : List ProgramOp)
    (σ : Program) (hrun : (programMachine pack).Run Program.boot ops σ) :
    (∀ ms failure σ', otelSqliteOpen pack σ ms failure = .ok (σ', -1) →
      (Kept σ σ' ↔ σ.store.db = true ∨ σ.Bare failure)) ∧
    ∀ σ', σ.store.db = false → otelSqliteClose pack σ = .ok σ' →
      (σ'.tracer.sink = σ.tracer.sink ↔ σ.tracer.sink = none) := by
  have hok := program_run hrun
  refine ⟨?_, ?_⟩
  · intro ms failure σ' hopen
    rcases open_cases hopen with ⟨hdb, rfl, -⟩ | ⟨-, hr, -⟩ | ⟨hdb, -, store, hclose⟩
    · exact iff_of_true ⟨rfl, rfl, rfl, rfl, rfl⟩ (Or.inl hdb)
    · cases hr
    · set t₁ := if failure = some .thread then
          otelSetSpanSink σ.tracer (some otelSqliteSink) else σ.tracer with ht₁
      have hframe : t₁.threads = σ.tracer.threads ∧ t₁.staged = σ.tracer.staged ∧
          t₁.initialized = σ.tracer.initialized ∧ t₁.runtimeOn = σ.tracer.runtimeOn ∧
          t₁.transportPresent = σ.tracer.transportPresent := by
        rw [ht₁]
        split_ifs <;> exact ⟨rfl, rfl, rfl, rfl, rfl⟩
      have hlive : t₁.enabled = true ↔ σ.LiveAtFailure failure := by
        rw [ht₁, Program.LiveAtFailure]
        split_ifs
        · simp [otelSetSpanSink, otelRecomputeEnabled]
        · exact Iff.rfl
      obtain ⟨hthreads, hstaged₁, hinit, hon, htransport⟩ := hframe
      obtain ⟨hsink, hpresent, hmax, henabled, hstaged⟩ :=
        close_effect (by rw [show Program.tracer ⟨t₁, store⟩ = t₁ from rfl, hthreads]
                         exact hok.ready.nodup) hclose
      replace henabled : σ'.tracer.enabled =
          (t₁.initialized && t₁.transportPresent && t₁.runtimeOn) := henabled
      replace hstaged : σ'.tracer.staged = if t₁.enabled then [] else t₁.staged := hstaged
      rw [hinit, htransport, hon] at henabled
      rw [hstaged₁] at hstaged
      constructor
      · intro hkept
        right
        refine ⟨hkept.sink.symm.trans hsink, hkept.maxSpans.symm.trans hmax, fun hl => ?_⟩
        rw [← hkept.staged, hstaged, if_pos (hlive.mpr hl)]
      · rintro (hopened | hbare)
        · rw [hdb] at hopened
          cases hopened
        · have hnosink : σ.tracer.sinkPresent = false := by
            rw [hok.ready.sinkPresent, hbare.sink]
            rfl
          refine ⟨hsink.trans hbare.sink.symm, hpresent.trans hnosink.symm, ?_, ?_,
            hmax.trans hbare.maxSpans.symm⟩
          · rw [henabled, show σ.tracer.enabled = _ from hok.live, hnosink, Bool.or_false]
          · rw [hstaged]
            split_ifs with hen
            · exact (hbare.staged (hlive.mp hen)).symm
            · rfl
  · intro σ' hdb hclose
    rw [(close_effect hok.ready.nodup hclose).1]
    exact eq_comm

/-- A transport is registered, and tracing is switched off with a span staged: an open that fails at the
flusher changes nothing, and neither does a close without an open store. -/
theorem failed_open_sample : ∃ σ σ' σ'' : Program,
    (σ.tracer.transport = true ∧ σ.tracer.staged.length = 1) ∧
    (otelSqliteOpen (fun _ => []) σ 0 (some .thread) = .ok (σ', -1) ∧ Kept σ σ') ∧
    otelSqliteClose (fun _ => []) σ = .ok σ'' ∧ σ''.tracer.sink = σ.tracer.sink := by
  have hrun : ∃ σ, ((σ.tracer.transport = true ∧ σ.tracer.staged.length = 1) ∧
        (σ.tracer.runtimeOn = false ∧ σ.tracer.sink = none ∧ σ.store = OtelSqliteStore.zero) ∧
        (∃ σ', otelSqliteOpen (fun _ => []) σ 0 (some .thread) = .ok (σ', -1)) ∧
        ∃ σ'', otelSqliteClose (fun _ => []) σ = .ok σ'') ∧
      (programMachine fun _ => []).Run Program.boot
        [.tracer (.init none none true), .tracer (.setTransport true),
          .tracer (.register 0 3 ⟨1, 0⟩ 0), .tracer (.finish 0 (sampleSession [104]).span 9),
          .tracer (.setEnabled 0)] σ :=
    ⟨_, ⟨⟨rfl, rfl⟩, ⟨rfl, rfl, rfl⟩, ⟨_, rfl⟩, _, rfl⟩, .cons trivial rfl (.cons trivial rfl
      (.cons rfl rfl (.cons trivial rfl (.cons trivial rfl .nil))))⟩
  obtain ⟨σ, ⟨hstaged, ⟨hoff, hsink, hstore⟩, ⟨σ', hopen⟩, σ'', hclose⟩, hrun⟩ := hrun
  obtain ⟨hfailed, hunopened⟩ := failed_open (fun _ => []) _ σ hrun
  refine ⟨σ, σ', σ'', hstaged, ⟨hopen, (hfailed 0 (some .thread) σ' hopen).mpr (Or.inr ?_)⟩,
    hclose, (hunopened σ'' (by rw [hstore]; rfl) hclose).mpr hsink⟩
  refine ⟨hsink, by rw [hstore]; rfl, ?_⟩
  intro hlive
  rw [Program.LiveAtFailure, if_pos rfl, hoff] at hlive
  cases hlive.2

/-- Another sink is registered, a span is staged and a retention limit is set. An open that fails at
the schema hands the span to that sink, detaches it, switches tracing off and clears the limit. A
close without an open store does the same. -/
theorem failed_open_detaches : ∃ σ : Program,
    (programMachine fun _ => []).Run Program.boot
      [.tracer (.init none none true), .tracer (.setSpanSink (some ⟨false, true, false⟩)),
        .tracer (.register 0 3 ⟨1, 0⟩ 0), .tracer (.finish 0 (sampleSession [104]).span 9),
        .setMaxSpans 5] σ ∧
    σ.store.db = false ∧ σ.tracer.sink = some ⟨false, true, false⟩ ∧ σ.tracer.enabled = true ∧
    σ.tracer.staged.length = 1 ∧ σ.store.maxSpans = 5 ∧
    (∃ σ', otelSqliteOpen (fun _ => []) σ 0 (some .schema) = .ok (σ', -1) ∧
      σ'.tracer.sink = none ∧ σ'.tracer.enabled = false ∧ σ'.tracer.staged = [] ∧
      σ'.store.maxSpans = 0) ∧
    ∃ σ', otelSqliteClose (fun _ => []) σ = .ok σ' ∧ σ'.tracer.sink = none :=
  ⟨_, .cons trivial rfl (.cons trivial rfl (.cons rfl rfl (.cons trivial rfl
    (.cons trivial rfl .nil)))), rfl, rfl, rfl, rfl, rfl, ⟨_, rfl, rfl, rfl, rfl, rfl⟩, _, rfl, rfl⟩

end OtelTracing
