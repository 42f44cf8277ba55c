import OtelTracing.Detach
import OtelTracing.Proofs.LockProofs

/-!
# Proofs: detaching the sink

If the sink is detached apart from the passes, every pass that has begun with it ends with it, and
nothing of it is used afterwards. If it is not, all of this may fail.
-/

namespace OtelTracing

open ByteMem Locks Outcome

variable {pack : Proto.ExportTraceServiceRequest → Bytes} {σ σ' : Process} {t u : ThreadId}
  {pc pc' : Pc} {sink : OtelSpanSink}

/-! ## The calls of the sink -/

@[simp] theorem sinkOpen_transport (out : List Output) (bufs : List Bytes) :
    sinkOpen (out ++ bufs.map .transport) = sinkOpen out := by
  induction bufs generalizing out with
  | nil => simp
  | cons b bufs ih =>
    have := ih (out ++ [.transport b])
    simp only [List.append_assoc, List.singleton_append] at this
    rw [List.map_cons, this]
    simp [sinkOpen, List.foldl_append]

@[simp] theorem sinkOpen_begin (out : List Output) : sinkOpen (out ++ [.sinkBegin]) = true := by
  simp [sinkOpen, List.foldl_append]

@[simp] theorem sinkOpen_span (out : List Output) (s : OtelSpan) :
    sinkOpen (out ++ [.sinkSpan s]) = sinkOpen out := by
  simp [sinkOpen, List.foldl_append]

@[simp] theorem sinkOpen_end (out : List Output) : sinkOpen (out ++ [.sinkEnd]) = false := by
  simp [sinkOpen, List.foldl_append]

/-! ## The invariant -/

/-- The process may have `begin` to answer for: a pass with the sink is in progress. -/
def Process.Answers (σ : Process) : Prop :=
  ∃ u pc, (σ.pcs u).pass = some pc ∧ pc.begun = true ∧
    (σ.shared.tracer.sink ≠ none ∨ pc = .finish .call)

/-- The sink is attached, or it is detached and not used any more. While only `OT.sink` is cleared no
pass may look at it. -/
structure Process.DetachOk (sink : OtelSpanSink) (σ : Process) : Prop where
  attached : σ.shared.tracer.sink ≠ none →
    σ.shared.tracer.sink = some sink ∧ σ.shared.tracer.sinkPresent = true
  between : σ.shared.tracer.sink = none → σ.shared.tracer.sinkPresent = true →
    ∀ u, (σ.pcs u).inSink = false
  site : ∀ u f s, (σ.pcs u).site = some (f, s) → s ≠ .present →
    σ.shared.tracer.sink ≠ none ∨ (f = .finish ∧ s = .call)
  answers : sink.hasEnd = true → sinkOpen σ.shared.tracer.out = true → σ.Answers
  cleared : ∀ u close, σ.pcs u = .detachPresent close → σ.shared.tracer.sink = none
  absent : ∀ u close, σ.pcs u = .detachEnabled close →
    σ.shared.tracer.sink = none ∧ σ.shared.tracer.sinkPresent = false
  finalizing : ∀ u, σ.pcs u = .closeFinalize → σ.detached = true
  finalized : σ.finalized = true → σ.detached = true
  detached : σ.detached = true → σ.shared.tracer.sink = none ∧
    σ.shared.tracer.sinkPresent = false ∧ ∀ u f, (σ.pcs u).site ≠ some (f, .call)

/-- A move that does not detach anything: which places for the sink it leads to. -/
structure SinkMove (tr : Tracer) (pc pc' : Pc) : Prop where
  inSink : pc'.inSink = true → pc.inSink = true ∨ tr.sink ≠ none ∨ tr.sinkPresent = false
  site : ∀ f s, pc'.site = some (f, s) → s ≠ .present → tr.sink ≠ none
  present : ∀ close, pc' ≠ .detachPresent close
  enabled : ∀ close, pc' ≠ .detachEnabled close
  finalize : pc' ≠ .closeFinalize

theorem Process.DetachOk.move (h : σ.DetachOk sink) (hpc : σ.pcs t = pc)
    (hpcs : σ'.pcs = Function.update σ.pcs t pc')
    (hsink : σ'.shared.tracer.sink = σ.shared.tracer.sink)
    (hpresent : σ'.shared.tracer.sinkPresent = σ.shared.tracer.sinkPresent)
    (hdetached : σ'.detached = σ.detached) (hfinalized : σ'.finalized = σ.finalized)
    (hmove : SinkMove σ.shared.tracer pc pc')
    (hanswers : sink.hasEnd = true → sinkOpen σ'.shared.tracer.out = true → σ'.Answers) :
    σ'.DetachOk sink := by
  subst hpc
  refine ⟨?_, ?_, ?_, hanswers, ?_, ?_, ?_, ?_, ?_⟩
  · rw [hsink, hpresent]
    exact h.attached
  · rw [hsink, hpresent]
    intro hnone hp u
    by_cases hu : u = t
    · subst hu
      rw [hpcs, Function.update_self]
      by_contra hin
      rcases hmove.inSink (Bool.not_eq_false _ ▸ hin) with hold | hsome | habsent
      · rw [h.between hnone hp u] at hold
        cases hold
      · exact hsome hnone
      · rw [hp] at habsent
        cases habsent
    · rw [hpcs, Function.update_of_ne hu]
      exact h.between hnone hp u
  · rw [hsink]
    intro u f s hsite hs
    by_cases hu : u = t
    · subst hu
      rw [hpcs, Function.update_self] at hsite
      exact Or.inl (hmove.site f s hsite hs)
    · rw [hpcs, Function.update_of_ne hu] at hsite
      exact h.site u f s hsite hs
  · rw [hsink]
    intro u close hu'
    by_cases hu : u = t
    · subst hu
      rw [hpcs, Function.update_self] at hu'
      exact absurd hu' (hmove.present close)
    · rw [hpcs, Function.update_of_ne hu] at hu'
      exact h.cleared u close hu'
  · rw [hsink, hpresent]
    intro u close hu'
    by_cases hu : u = t
    · subst hu
      rw [hpcs, Function.update_self] at hu'
      exact absurd hu' (hmove.enabled close)
    · rw [hpcs, Function.update_of_ne hu] at hu'
      exact h.absent u close hu'
  · rw [hdetached]
    intro u hu'
    by_cases hu : u = t
    · subst hu
      rw [hpcs, Function.update_self] at hu'
      exact absurd hu' hmove.finalize
    · rw [hpcs, Function.update_of_ne hu] at hu'
      exact h.finalizing u hu'
  · rw [hdetached, hfinalized]
    exact h.finalized
  · rw [hdetached, hsink, hpresent]
    intro hdone
    obtain ⟨hnone, habsent, hcall⟩ := h.detached hdone
    refine ⟨hnone, habsent, ?_⟩
    intro u f
    by_cases hu : u = t
    · subst hu
      rw [hpcs, Function.update_self]
      intro hsite
      exact hmove.site f .call hsite nofun hnone
    · rw [hpcs, Function.update_of_ne hu]
      exact hcall u f

/-- The pass that answers for `begin` is that of another thread, or goes on. -/
theorem Process.Answers.move (h : σ.Answers) (hpc : σ.pcs t = pc)
    (hpcs : σ'.pcs = Function.update σ.pcs t pc')
    (hsink : σ'.shared.tracer.sink = σ.shared.tracer.sink)
    (hgoes : ∀ q, pc.pass = some q → q.begun = true →
      σ.shared.tracer.sink ≠ none ∨ q = .finish .call →
      ∃ q', pc'.pass = some q' ∧ q'.begun = true ∧ σ.shared.tracer.sink ≠ none) :
    σ'.Answers := by
  subst hpc
  obtain ⟨u, q, hq, hbegun, hanswer⟩ := h
  by_cases hu : u = t
  · subst hu
    obtain ⟨q', hq', hbegun', hsome⟩ := hgoes q hq hbegun hanswer
    refine ⟨u, q', ?_, hbegun', Or.inl (by rwa [hsink])⟩
    rw [hpcs, Function.update_self]
    exact hq'
  · refine ⟨u, q, ?_, hbegun, ?_⟩
    · rw [hpcs, Function.update_of_ne hu]
      exact hq
    · rw [hsink]
      exact hanswer

/-- A move outside of passes. -/
theorem Process.DetachOk.keep (h : σ.DetachOk sink) (hpc : σ.pcs t = pc)
    (hpcs : σ'.pcs = Function.update σ.pcs t pc')
    (hsink : σ'.shared.tracer.sink = σ.shared.tracer.sink)
    (hpresent : σ'.shared.tracer.sinkPresent = σ.shared.tracer.sinkPresent)
    (hdetached : σ'.detached = σ.detached) (hfinalized : σ'.finalized = σ.finalized)
    (hout : σ'.shared.tracer.out = σ.shared.tracer.out) (hpass : pc.pass = none)
    (hmove : SinkMove σ.shared.tracer pc pc') : σ'.DetachOk sink := by
  refine h.move hpc hpcs hsink hpresent hdetached hfinalized hmove ?_
  intro hend hopen
  rw [hout] at hopen
  refine (h.answers hend hopen).move hpc hpcs hsink ?_
  rw [hpass]
  nofun

/-! ## Steps of a pass -/

/-- A place where a pass may be, with what it may look at. -/
theorem Process.DetachOk.looks (h : σ.DetachOk sink) {q : PassPc} (hq : (σ.pcs t).pass = some q)
    (hin : q.inSink = true) (hpresent : σ.shared.tracer.sinkPresent = true) :
    σ.shared.tracer.sink ≠ none := by
  intro hnone
  have hout := h.between hnone hpresent t
  rw [Pc.inSink, hq] at hout
  simp [hin] at hout

/-- A call site is gone on with only if there is a sink, as long as a pass that finds
`OT.sink_present` set finds one. -/
theorem stay_sink {tr : Tracer} {f : Callback} {site site' : Site}
    (h : SiteStepped tr f site (.stay site'))
    (hlooks : site = .present → tr.sinkPresent = true → tr.sink ≠ none) :
    site ≠ .call ∧ tr.sink ≠ none := by
  cases h with
  | present hp => exact ⟨nofun, hlooks rfl hp⟩
  | test sink hs hset => exact ⟨nofun, by simp [hs]⟩
  | fetch sink hs => exact ⟨nofun, by simp [hs]⟩
  | priv sink hs => exact ⟨nofun, by simp [hs]⟩

theorem skip_sink {tr : Tracer} {f : Callback} {site : Site} (h : SiteStepped tr f site .skip) :
    site ≠ .call ∧
      (tr.sinkPresent = false ∨ ∃ sink, tr.sink = some sink ∧ f.isSet sink = false) := by
  cases h with
  | absent hp => exact ⟨nofun, Or.inl hp⟩
  | unset sink hs hset => exact ⟨nofun, Or.inr ⟨sink, hs, hset⟩⟩

theorem called_site {tr : Tracer} {f : Callback} {site : Site}
    (h : SiteStepped tr f site .called) : site = .call := by
  cases h
  rfl

/-- A step within a pass. -/
theorem Process.DetachOk.pass_move (h : σ.DetachOk sink) {q q' : PassPc} {m : Shared}
    (hpc : σ.pcs t = pc) (hq : pc.pass = some q) (hq' : pc'.pass = some q')
    (hsink : m.tracer.sink = σ.shared.tracer.sink)
    (hpresent : m.tracer.sinkPresent = σ.shared.tracer.sinkPresent)
    (hin : q'.inSink = true → q.inSink = true ∨ σ.shared.tracer.sink ≠ none ∨
      σ.shared.tracer.sinkPresent = false)
    (hsite : ∀ f s, q'.site = some (f, s) → s ≠ .present → σ.shared.tracer.sink ≠ none)
    (hopen : sinkOpen m.tracer.out = true → sinkOpen σ.shared.tracer.out = true ∧
        (q.begun = true → q'.begun = true ∧ q ≠ .finish .call) ∨
      q'.begun = true ∧ σ.shared.tracer.sink ≠ none) :
    ({ σ with shared := m }.goto t pc').DetachOk sink := by
  refine h.move hpc rfl hsink hpresent rfl rfl ⟨?_, ?_, ?_, ?_, ?_⟩ ?_
  · simpa [Pc.inSink, hq, hq'] using hin
  · simpa [Pc.site, hq'] using hsite
  · intro close hclose
    rw [hclose] at hq'
    cases hq'
  · intro close hclose
    rw [hclose] at hq'
    cases hq'
  · intro hclose
    rw [hclose] at hq'
    cases hq'
  · intro hend hopen'
    rcases hopen hopen' with ⟨hold, hbegun⟩ | ⟨hbegun, hsome⟩
    · refine (h.answers hend hold).move hpc rfl hsink ?_
      rw [hq]
      rintro _ ⟨⟩ hb hanswer
      obtain ⟨hb', hne⟩ := hbegun hb
      refine ⟨q', hq', hb', ?_⟩
      rcases hanswer with hsome | hlast
      · exact hsome
      · exact absurd hlast hne
    · refine ⟨t, q', ?_, hbegun, Or.inl ?_⟩
      · show (Function.update σ.pcs t pc' t).pass = some q'
        rw [Function.update_self, hq']
      · exact fun hnone => hsome (hsink ▸ hnone)

theorem detachOk_pass {ctxs : List CtxAddr} {v v' : PassVars} {m : Shared} {q q' : PassPc}
    (h : σ.DetachOk sink) (hpc : σ.pcs t = pc) (hq : pc.pass = some q)
    (hpass : Passed pack σ.shared ctxs v q m (some q') v') (hq' : pc'.pass = some q')
    (hlook : q = .begin .present → σ.shared.tracer.sinkPresent = true →
      σ.shared.tracer.sink ≠ none) :
    ({ σ with shared := m }.goto t pc').DetachOk sink := by
  have hqt : (σ.pcs t).pass = some q := hpc ▸ hq
  have hlooks := fun hin => h.looks hqt hin
  cases hpass with
  | beginStay site site' hsite =>
    obtain ⟨-, hsome⟩ := stay_sink hsite (fun hp => hlook (by rw [hp]))
    exact h.pass_move hpc hq hq' rfl rfl (fun _ => Or.inr (Or.inl hsome)) (fun _ _ _ _ => hsome)
      fun hopen => Or.inl ⟨hopen, nofun⟩
  | beginSkip site hsite =>
    obtain ⟨-, hskip⟩ := skip_sink hsite
    refine h.pass_move hpc hq hq' rfl rfl (fun _ => ?_) nofun fun hopen => Or.inl ⟨hopen, nofun⟩
    rcases hskip with habsent | ⟨sink', hs, -⟩
    · exact Or.inr (Or.inr habsent)
    · exact Or.inr (Or.inl (by simp [hs]))
  | beginCall site hsite =>
    obtain rfl := called_site hsite
    have hsome : σ.shared.tracer.sink ≠ none := by
      rcases h.site t .begin .call (by rw [Pc.site, hqt]; rfl) nofun with hsome | ⟨⟨⟩, -⟩
      exact hsome
    exact h.pass_move hpc hq hq' rfl rfl (fun _ => Or.inr (Or.inl hsome)) nofun
      fun _ => Or.inr ⟨rfl, hsome⟩
  | walkEnd hrest =>
    exact h.pass_move hpc hq hq' rfl rfl (fun _ => Or.inl rfl) nofun
      fun hopen => Or.inl ⟨hopen, fun _ => ⟨rfl, nofun⟩⟩
  | walkCtx a rest c hrest hc =>
    exact h.pass_move hpc hq hq' rfl rfl (fun _ => Or.inl rfl) nofun
      fun hopen => Or.inl ⟨hopen, fun _ => ⟨rfl, nofun⟩⟩
  | loadHead a c hc =>
    exact h.pass_move hpc hq hq' rfl rfl (fun _ => Or.inl rfl) nofun
      fun hopen => Or.inl ⟨hopen, fun _ => ⟨rfl, nofun⟩⟩
  | loopEnd a c hc heq =>
    exact h.pass_move hpc hq hq' rfl rfl (fun _ => Or.inl rfl) nofun
      fun hopen => Or.inl ⟨hopen, fun _ => ⟨rfl, nofun⟩⟩
  | loopAdd a c m hc hne hadd =>
    obtain ⟨o, bufs, htracer⟩ := add_out hadd
    refine h.pass_move hpc hq hq' (by rw [htracer]) (by rw [htracer]) (fun _ => Or.inl rfl) ?_ ?_
    · rintro _ _ ⟨⟩ hs
      exact absurd rfl hs
    · intro hopen
      rw [htracer] at hopen
      exact Or.inl ⟨by simpa using hopen, fun _ => ⟨rfl, nofun⟩⟩
  | emitStay a site site' hsite =>
    obtain ⟨-, hsome⟩ := stay_sink hsite (fun _ => hlooks rfl)
    exact h.pass_move hpc hq hq' rfl rfl (fun _ => Or.inl rfl) (fun _ _ _ _ => hsome)
      fun hopen => Or.inl ⟨hopen, fun _ => ⟨rfl, nofun⟩⟩
  | emitSkip a site hsite =>
    exact h.pass_move hpc hq hq' rfl rfl (fun _ => Or.inl rfl) nofun
      fun hopen => Or.inl ⟨hopen, fun _ => ⟨rfl, nofun⟩⟩
  | emitCall a site c hsite hc =>
    refine h.pass_move hpc hq hq' rfl rfl (fun _ => Or.inl rfl) nofun fun hopen => Or.inl ⟨?_, ?_⟩
    · have hout : sinkOpen (σ.shared.tracer.out ++
          [.sinkSpan (ringMem σ.shared.tracer.ctxs ⟨a, c.slot v.tail⟩)]) = true := hopen
      rwa [sinkOpen_span] at hout
    · exact fun _ => ⟨rfl, nofun⟩
  | flush tr hflush =>
    obtain ⟨o, bufs, rfl⟩ := flush_out hflush
    refine h.pass_move hpc hq hq' rfl rfl (fun _ => Or.inl rfl) ?_ ?_
    · rintro _ _ ⟨⟩ hs
      exact absurd rfl hs
    · intro hopen
      exact Or.inl ⟨by simpa using hopen, fun _ => ⟨rfl, nofun⟩⟩
  | finishStay site site' hsite =>
    have hin : site = .present → PassPc.inSink (.finish site) = true := by
      rintro rfl
      rfl
    obtain ⟨hne, hsome⟩ := stay_sink hsite (fun hp => hlooks (hin hp))
    refine h.pass_move hpc hq hq' rfl rfl (fun _ => Or.inr (Or.inl hsome)) (fun _ _ _ _ => hsome)
      fun hopen => Or.inl ⟨hopen, fun _ => ⟨rfl, ?_⟩⟩
    rintro ⟨⟩
    exact hne rfl

/-- The last step of a pass: it has called `end`, if there is one, or it has not called `begin`. -/
theorem detachOk_passed {ctxs : List CtxAddr} {v v' : PassVars} {m : Shared} {q : PassPc}
    (h : σ.DetachOk sink) (hpc : σ.pcs t = pc) (hq : pc.pass = some q)
    (hpass : Passed pack σ.shared ctxs v q m none v')
    (hmove : SinkMove σ.shared.tracer pc pc') :
    ({ σ with shared := m }.goto t pc').DetachOk sink := by
  cases hpass with
  | finishSkip site hsite =>
    obtain ⟨hne, hskip⟩ := skip_sink hsite
    refine h.move hpc rfl rfl rfl rfl rfl hmove ?_
    intro hend hopen
    refine (h.answers hend hopen).move hpc rfl rfl ?_
    rw [hq]
    rintro _ ⟨⟩ - hanswer
    exfalso
    rcases hanswer with hsome | hlast
    · obtain ⟨hattached, hpresent⟩ := h.attached hsome
      rcases hskip with habsent | ⟨sink', hs, hset⟩
      · rw [hpresent] at habsent
        cases habsent
      · obtain rfl := Option.some.inj (hattached.symm.trans hs)
        rw [show Callback.finish.isSet sink = sink.hasEnd from rfl, hend] at hset
        cases hset
    · cases hlast
      exact hne rfl
  | finishCall site hsite =>
    refine h.move hpc rfl rfl rfl rfl rfl hmove ?_
    intro _ hopen
    have hout : sinkOpen (σ.shared.tracer.out ++ [.sinkEnd]) = true := hopen
    rw [sinkOpen_end] at hout
    cases hout

/-! ## Steps of a thread -/

/-- A producer has nothing to do with the sink. -/
theorem end_sink {m m' : Shared} {a : CtxAddr} {s : OtelSpan} {head : UInt64} {pc : EndPc}
    {pc' : Option EndPc} (h : Ended m a s head pc m' pc') :
    m'.tracer.sink = m.tracer.sink ∧ m'.tracer.sinkPresent = m.tracer.sinkPresent ∧
      m'.tracer.out = m.tracer.out := by
  cases h <;> exact ⟨rfl, rfl, rfl⟩

/-- A pass that is not in the sink, and is past its first look, is at its last call. -/
theorem last_of_not_inSink {q : PassPc} (hin : q.inSink = false) (hne : q ≠ .begin .present) :
    q = .finish .call := by
  unfold PassPc.inSink at hin
  split at hin
  · exact absurd rfl hne
  · rfl
  · cases hin

/-- A thread clears `OT.sink`, while no pass is in the sink. -/
theorem detachOk_detachSink {close : Bool} (h : σ.DetachOk sink) (hpc : σ.pcs t = .detachSink close)
    (hapart : σ.shared.tracer.sink ≠ none → ∀ u, (σ.pcs u).inSink = false) :
    ({ σ with
      shared := { σ.shared with tracer := { σ.shared.tracer with sink := none } } }.goto t
      (.detachPresent close)).DetachOk sink := by
  have hpass : ∀ u, (Function.update σ.pcs t (.detachPresent close) u).pass = (σ.pcs u).pass :=
    fun u => update_same (by rw [hpc]; rfl) u
  have hlast : ∀ {u q}, σ.shared.tracer.sink ≠ none → (σ.pcs u).pass = some q →
      q ≠ .begin .present → q = .finish .call := by
    intro u q hsome hq hne
    have hin := hapart hsome u
    rw [Pc.inSink, hq] at hin
    exact last_of_not_inSink (by simpa using hin) hne
  refine ⟨fun hsome => absurd rfl hsome, ?_, ?_, ?_, fun _ _ _ => rfl, ?_, ?_, h.finalized, ?_⟩
  · intro _ hp u
    have hold : ∀ u, (σ.pcs u).inSink = false := by
      by_cases hnone : σ.shared.tracer.sink = none
      · exact h.between hnone hp
      · exact hapart hnone
    show (Function.update σ.pcs t (.detachPresent close) u).inSink = false
    rw [Pc.inSink, hpass u]
    exact hold u
  · intro u f s hsite hs
    have hold : (σ.pcs u).site = some (f, s) := by
      rw [Pc.site, ← hpass u]
      exact hsite
    by_cases hnone : σ.shared.tracer.sink = none
    · rcases h.site u f s hold hs with hsome | hcall
      · exact absurd hnone hsome
      · exact Or.inr hcall
    · obtain ⟨q, hq, hqs⟩ := Option.bind_eq_some_iff.mp hold
      have hqlast := hlast hnone hq (by
        rintro rfl
        cases hqs
        exact hs rfl)
      subst hqlast
      cases hqs
      exact Or.inr ⟨rfl, rfl⟩
  · intro hend hopen
    obtain ⟨u, q, hq, hbegun, hanswer⟩ := h.answers hend hopen
    refine ⟨u, q, (hpass u).trans hq, hbegun, Or.inr ?_⟩
    rcases hanswer with hsome | hqlast
    · refine hlast hsome hq ?_
      rintro rfl
      cases hbegun
    · exact hqlast
  · intro u close' hu
    rcases goto_eq hu with ⟨-, ⟨⟩⟩ | hu
    exact ⟨rfl, (h.absent u close' hu).2⟩
  · intro u hu
    rcases goto_eq hu with ⟨-, ⟨⟩⟩ | hu
    exact h.finalizing u hu
  · intro hdone
    obtain ⟨-, habsent, hcall⟩ := h.detached hdone
    refine ⟨rfl, habsent, ?_⟩
    intro u f
    show (Function.update σ.pcs t (.detachPresent close) u).site ≠ _
    rw [Pc.site, hpass u]
    exact hcall u f

/-- A step of a thread that is not in a pass, after which there is no sink, and there was none
before. -/
theorem Process.DetachOk.none_move (h : σ.DetachOk sink) (hpc : σ.pcs t = pc)
    (hpcs : σ'.pcs = Function.update σ.pcs t pc') (hpass : pc.pass = none) (hpass' : pc'.pass = none)
    (hnone : σ.shared.tracer.sink = none) (hnone' : σ'.shared.tracer.sink = none)
    (habsent : σ'.shared.tracer.sinkPresent = false)
    (hout : σ'.shared.tracer.out = σ.shared.tracer.out)
    (hfinalizing : ∀ u, σ'.pcs u = .closeFinalize → σ'.detached = true)
    (hfinalized : σ'.finalized = true → σ'.detached = true)
    (hcall : σ'.detached = true → ∀ u f, (σ.pcs u).site ≠ some (f, .call)) : σ'.DetachOk sink := by
  subst hpc
  have hsame : ∀ u, (σ'.pcs u).pass = (σ.pcs u).pass := by
    intro u
    rw [hpcs]
    exact update_same (hpass'.trans hpass.symm) u
  have hsites : ∀ u, (σ'.pcs u).site = (σ.pcs u).site := by
    intro u
    rw [Pc.site, Pc.site, hsame u]
  refine ⟨fun hsome => absurd hnone' hsome, ?_, ?_, ?_, fun _ _ _ => hnone', fun _ _ _ =>
    ⟨hnone', habsent⟩, hfinalizing, hfinalized, ?_⟩
  · intro _ hp
    rw [habsent] at hp
    cases hp
  · intro u f s hsite hs
    rw [hsites u] at hsite
    rcases h.site u f s hsite hs with hsome | hlast
    · exact absurd hnone hsome
    · exact Or.inr hlast
  · intro hend hopen
    rw [hout] at hopen
    obtain ⟨u, q, hq, hbegun, hanswer⟩ := h.answers hend hopen
    refine ⟨u, q, (hsame u).trans hq, hbegun, Or.inr ?_⟩
    rcases hanswer with hsome | hlast
    · exact absurd hnone hsome
    · exact hlast
  · intro hdone
    refine ⟨hnone', habsent, ?_⟩
    intro u f
    rw [hsites u]
    exact hcall hdone u f

theorem detachOk_step {a : Act} (h : σ.DetachOk sink) (he : a.Possible σ) (hapart : Apart σ a)
    (hstep : processStep pack σ a = .ok σ') : σ'.DetachOk sink := by
  cases a with
  | timer =>
    cases hstep
    exact h.keep he rfl rfl rfl rfl rfl rfl rfl ⟨nofun, nofun, nofun, nofun, nofun⟩
  | call t c =>
    obtain ⟨hidle, -⟩ := he
    cases call_cases hstep with
    | refused => exact h
    | drop =>
      exact ⟨h.attached, h.between, h.site, h.answers, h.cleared, h.absent, h.finalizing,
        h.finalized, h.detached⟩
    | setRingCapacity =>
      exact ⟨h.attached, h.between, h.site, h.answers, h.cleared, h.absent, h.finalizing,
        h.finalized, h.detached⟩
    | _ => exact h.keep hidle rfl rfl rfl rfl rfl rfl rfl ⟨nofun, nofun, nofun, nofun, nofun⟩
  | step t =>
    unfold Apart at hapart
    cases step_cases he hstep with
    | unregisterPass a q q' v v' m hpc hpass =>
      refine detachOk_pass h hpc rfl (pass_cases hpass) rfl ?_
      rintro rfl
      simpa only [hpc] using hapart
    | drainPass k q q' v v' m hpc hpass =>
      refine detachOk_pass h hpc rfl (pass_cases hpass) rfl ?_
      rintro rfl
      simpa only [hpc] using hapart
    | unregisterPassed a q v v' m hpc hpass =>
      exact detachOk_passed h hpc rfl (pass_cases hpass) ⟨nofun, nofun, nofun, nofun, nofun⟩
    | drainPassed k q v v' m hpc hpass =>
      exact detachOk_passed h hpc rfl (pass_cases hpass) ⟨nofun, nofun, nofun, nofun, nofun⟩
    | detachSink close hpc =>
      simp only [hpc] at hapart
      exact detachOk_detachSink h hpc hapart
    | detachPresent close hpc =>
      have hnone := h.cleared t close hpc
      refine h.none_move hpc rfl rfl rfl hnone hnone rfl rfl ?_ h.finalized fun hdone =>
        (h.detached hdone).2.2
      intro u hu
      rcases goto_eq hu with ⟨-, ⟨⟩⟩ | hu
      exact h.finalizing u hu
    | detachEnabled close hpc =>
      simp only [hpc] at hapart
      obtain ⟨hnone, habsent⟩ := h.absent t close hpc
      refine h.none_move hpc rfl rfl ?_ hnone hnone habsent rfl (fun _ _ => rfl) (fun _ => rfl)
        fun _ => hapart
      cases close <;> rfl
    | closeFinalize hpc =>
      have hdone := h.finalizing t hpc
      obtain ⟨hnone, habsent, hcall⟩ := h.detached hdone
      exact h.none_move hpc rfl rfl rfl hnone hnone habsent rfl (fun _ _ => hdone) (fun _ => hdone)
        fun _ => hcall
    | spanEnd a s head pc pc' m hpc hend =>
      obtain ⟨hs, hp, hout⟩ := end_sink (endStep_cases hend)
      exact h.keep hpc rfl hs hp rfl rfl hout rfl ⟨nofun, nofun, nofun, nofun, nofun⟩
    | spanEnded a s head pc m hpc hend =>
      obtain ⟨hs, hp, hout⟩ := end_sink (endStep_cases hend)
      exact h.keep hpc rfl hs hp rfl rfl hout rfl ⟨nofun, nofun, nofun, nofun, nofun⟩
    | unregisterUnlink a m hpc hunlink =>
      obtain ⟨_, -, hunlink⟩ := bind_ok hunlink
      cases hunlink
      exact h.keep hpc rfl rfl rfl rfl rfl rfl rfl ⟨nofun, nofun, nofun, nofun, nofun⟩
    | unregisterFree a m hpc hfree =>
      obtain ⟨_, ht, hfree⟩ := bind_ok hfree
      obtain ⟨_, -, ht⟩ := bind_ok ht
      cases ht
      cases hfree
      exact h.keep hpc rfl rfl rfl rfl rfl rfl rfl ⟨nofun, nofun, nofun, nofun, nofun⟩
    | drainSkip k hpc =>
      refine h.keep hpc rfl rfl rfl rfl rfl rfl rfl ?_
      cases k with
      | user => exact ⟨nofun, nofun, nofun, nofun, nofun⟩
      | flusher => exact ⟨nofun, nofun, nofun, nofun, nofun⟩
      | close => exact ⟨nofun, nofun, nofun, nofun, nofun⟩
    | drainUnlock k v hpc =>
      refine h.keep hpc rfl rfl rfl rfl rfl rfl rfl ?_
      cases k with
      | user => exact ⟨nofun, nofun, nofun, nofun, nofun⟩
      | flusher => exact ⟨nofun, nofun, nofun, nofun, nofun⟩
      | close => exact ⟨nofun, nofun, nofun, nofun, nofun⟩
    | unregisterStart a hpc =>
      refine h.keep hpc rfl rfl rfl rfl rfl rfl rfl ⟨nofun, ?_, nofun, nofun, nofun⟩
      rintro _ _ ⟨⟩ hs
      exact absurd rfl hs
    | drainRdlock k hpc =>
      refine h.keep hpc rfl rfl rfl rfl rfl rfl rfl ⟨nofun, ?_, nofun, nofun, nofun⟩
      rintro _ _ ⟨⟩ hs
      exact absurd rfl hs
    | _ =>
      refine h.keep (by assumption) rfl rfl rfl rfl rfl rfl ?_ ?_
      · rfl
      · exact ⟨nofun, nofun, nofun, nofun, nofun⟩

/-! ## The main results -/

theorem detachOk_atRest (h : σ.AtRest) (hsink : σ.shared.tracer.sink = some sink)
    (hpresent : σ.shared.tracer.sinkPresent = true)
    (hclosed : sinkOpen σ.shared.tracer.out = false) : σ.DetachOk sink := by
  have hpc : ∀ t, σ.pcs t = .idle ∨ σ.pcs t = .flusherLock ∨ σ.pcs t = .exited := by
    intro t
    by_cases ht : t = σ.flusher
    · rw [ht]
      exact Or.inr (atRest_flusher h)
    · exact Or.inl (h.idle t ht)
  have hsite : ∀ t, (σ.pcs t).site = none := by
    intro t
    rcases hpc t with hpc | hpc | hpc
    · rw [hpc]
      rfl
    · rw [hpc]
      rfl
    · rw [hpc]
      rfl
  refine ⟨fun _ => ⟨hsink, hpresent⟩, ?_, ?_, ?_, ?_, ?_, ?_, ?_, ?_⟩
  · intro hnone
    rw [hsink] at hnone
    cases hnone
  · intro u f s hu
    rw [hsite u] at hu
    cases hu
  · intro _ hopen
    rw [hclosed] at hopen
    cases hopen
  · intro u close hu
    rcases hpc u with hpc | hpc | hpc
    all_goals
      rw [hpc] at hu
      cases hu
  · intro u close hu
    rcases hpc u with hpc | hpc | hpc
    all_goals
      rw [hpc] at hu
      cases hu
  · intro u hu
    rcases hpc u with hpc | hpc | hpc
    all_goals
      rw [hpc] at hu
      cases hu
  · intro hfinalized
    rw [h.finalized] at hfinalized
    cases hfinalized
  · intro hdetached
    rw [h.detached] at hdetached
    cases hdetached

theorem Process.DetachOk.safe (h : σ.DetachOk sink) : σ.SinkSafe sink where
  closed := by
    intro hend hnone
    by_contra hopen
    obtain ⟨u, q, hq, -⟩ := h.answers hend (Bool.not_eq_false _ ▸ hopen)
    rw [hnone u] at hq
    cases hq
  deref := by
    intro t f site hsite
    cases hs : σ.shared.tracer.sink with
    | some sink' =>
      cases site <;>
        simp [siteStep, Tracer.derefSink, hs, bind, Except.bind, pure, Except.pure]
    | none =>
      have hlast : site ≠ .present → f = .finish ∧ site = .call := by
        intro hne
        rcases h.site t f site hsite hne with hsome | hlast
        · exact absurd hs hsome
        · exact hlast
      cases site with
      | present => simp [siteStep]
      | call => simp [siteStep]
      | test => cases (hlast nofun).2
      | fetch => cases (hlast nofun).2
      | priv => cases (hlast nofun).2
  quiet := by
    intro hdone
    have hdetached : σ.detached = true := by
      rcases hdone with hdetached | hfinalized
      · exact hdetached
      · exact h.finalized hfinalized
    exact (h.detached hdetached).2.2

/-- In every run in which the sink is detached apart from the passes, each pass that has called its
`begin` calls its `end`, `OT.sink` is not dereferenced while it is `NULL`, and no callback is called
after the sink was detached or the database finalized. -/
theorem detach_safe (pack : Proto.ExportTraceServiceRequest → Bytes) (σ₀ σ : Process)
    (acts : List Act) (sink : OtelSpanSink) (h0 : σ₀.AtRest)
    (hsink : σ₀.shared.tracer.sink = some sink)
    (hpresent : σ₀.shared.tracer.sinkPresent = true)
    (hclosed : sinkOpen σ₀.shared.tracer.out = false)
    (h : ((processMachine pack).restrict Apart).Run σ₀ acts σ) : σ.SinkSafe sink :=
  (h.invariant (detachOk_atRest h0 hsink hpresent hclosed)
    fun _ _ _ _ hi he hstep => detachOk_step hi he.1 he.2 hstep).safe

/-- The tracer with a sink that has all callbacks. -/
def attachedTracer : Tracer :=
  otelSetSpanSink (otelInit Tracer.boot none none true).1 (some ⟨true, true, true⟩)

/-- What holds of idle and exited threads and of the threads that take part in a run holds of all. -/
theorem attached_all {P : Pc → Prop} {acts : List Act}
    (h : (processMachine pack).Run (Process.start attachedTracer false 0 1) acts σ)
    (hacts : ∀ x ∈ acts, x.isBy 1 ∨ x.isBy 2 ∨ x.isBy 3) (hidle : P .idle) (hexited : P .exited)
    (h1 : P (σ.pcs 1)) (h2 : P (σ.pcs 2)) (h3 : P (σ.pcs 3)) (u : ThreadId) : P (σ.pcs u) := by
  by_cases hu : u = 1 ∨ u = 2 ∨ u = 3
  · rcases hu with rfl | rfl | rfl
    · exact h1
    · exact h2
    · exact h3
  have hother : σ.pcs u = (Process.start attachedTracer false 0 1).pcs u := by
    refine run_other h fun x hx => ?_
    have hby := hacts x hx
    cases x with
    | timer => exact absurd hby (by simp [Act.isBy])
    | call v c =>
      refine ⟨by rintro ⟨⟩, ?_⟩
      rintro rfl
      exact hu hby
    | step v =>
      refine ⟨by rintro ⟨⟩, ?_⟩
      rintro rfl
      exact hu hby
  rw [hother]
  show P (if u = 0 then .exited else .idle)
  split_ifs
  · exact hexited
  · exact hidle

/-- The sink is detached while a pass looks at it, while a pass is in progress, and while a pass that
began after the last drain of `otel_sqlite_close` calls it. -/
theorem detach_races :
    (∃ σ, (processMachine fun _ => []).Run (Process.start attachedTracer false 0 1)
        [.call 2 .drain, .step 2, .step 2, .step 2, .step 2, .call 1 .detach, .step 1] σ ∧
      (σ.pcs 2).site = some (.begin, .test) ∧
      siteStep σ.shared.tracer .begin .test = .error .nullDeref) ∧
    (∃ σ, (processMachine fun _ => []).Run (Process.start attachedTracer false 0 1)
        ([.call 2 .drain] ++ List.replicate 8 (.step 2) ++ [.call 1 .detach] ++
          List.replicate 3 (.step 1) ++ List.replicate 3 (.step 2)) σ ∧
      (∀ t, (σ.pcs t).pass = none) ∧ sinkOpen σ.shared.tracer.out = true) ∧
    (∃ σ, (processMachine fun _ => []).Run (Process.start attachedTracer false 0 1)
        ([.call 1 .close] ++ List.replicate 18 (.step 1) ++ [.call 2 .drain] ++
          List.replicate 7 (.step 2) ++ List.replicate 4 (.step 1)) σ ∧
      σ.finalized = true ∧ (σ.pcs 2).site = some (.begin, .call)) := by
  have hpass : ∃ σ, (processMachine fun _ => []).Run (Process.start attachedTracer false 0 1)
      ([.call 2 .drain] ++ List.replicate 8 (.step 2) ++ [.call 1 .detach] ++
        List.replicate 3 (.step 1) ++ List.replicate 3 (.step 2)) σ ∧
      (σ.pcs 1).pass = none ∧ (σ.pcs 2).pass = none ∧ (σ.pcs 3).pass = none ∧
      sinkOpen σ.shared.tracer.out = true :=
    ⟨_, .cons ⟨rfl, trivial⟩ rfl (.cons trivial rfl (.cons rfl rfl (.cons rfl rfl
      (.cons trivial rfl (.cons trivial rfl (.cons trivial rfl (.cons trivial rfl (.cons trivial rfl
      (.cons ⟨rfl, rfl⟩ rfl (.cons trivial rfl (.cons trivial rfl (.cons trivial rfl
      (.cons trivial rfl (.cons trivial rfl (.cons trivial rfl .nil))))))))))))))), rfl, rfl, rfl, rfl⟩
  refine ⟨?_, ?_, ?_⟩
  · exact ⟨_, .cons ⟨rfl, trivial⟩ rfl (.cons trivial rfl (.cons rfl rfl (.cons rfl rfl
      (.cons trivial rfl (.cons ⟨rfl, rfl⟩ rfl (.cons trivial rfl .nil)))))), rfl, rfl⟩
  · obtain ⟨σ, hrun, h1, h2, h3, hopen⟩ := hpass
    refine ⟨σ, hrun, ?_, hopen⟩
    exact attached_all (P := fun pc => pc.pass = none) hrun (by simp [Act.isBy]) rfl rfl h1 h2 h3
  · exact ⟨_, .cons ⟨rfl, rfl, rfl⟩ rfl (.cons trivial rfl (.cons trivial rfl (.cons rfl rfl
      (.cons rfl rfl (.cons trivial rfl (.cons trivial rfl (.cons trivial rfl (.cons trivial rfl
      (.cons trivial rfl (.cons trivial rfl (.cons trivial rfl (.cons trivial rfl (.cons trivial rfl
      (.cons trivial rfl (.cons trivial rfl (.cons trivial rfl (.cons trivial rfl (.cons trivial rfl
      (.cons ⟨rfl, trivial⟩ rfl (.cons trivial rfl (.cons rfl rfl (.cons rfl rfl (.cons trivial rfl
      (.cons trivial rfl (.cons trivial rfl (.cons trivial rfl (.cons trivial rfl (.cons trivial rfl
      (.cons trivial rfl (.cons trivial rfl .nil)))))))))))))))))))))))))))))), rfl, rfl⟩

/-- Thread 2 ends a span and drains its ring, while thread 1 calls `otel_sqlite_close` and thread 3
calls `otel_drain`; the drain of thread 1 comes next. -/
def closingBetween : List Act :=
  [.call 2 (.register 7 ⟨1, 0⟩ 0), .step 2, .step 2, .step 2,
    .call 2 (.finish (sampleSession [97]).span 1), .step 2, .step 2, .step 2, .call 2 .drain] ++
    List.replicate 10 (.step 2) ++ [.call 1 .close, .step 1, .step 1, .call 3 .drain, .step 3] ++
    List.replicate 16 (.step 2) ++ List.replicate 19 (.step 1)

set_option maxRecDepth 20000 in
/-- Thread 3 begins its pass while thread 1 detaches the sink and finalizes the database. -/
theorem closingBetween_run :
    ∃ σ₁, (σ₁.pcs 1 = .detachSink true ∧ σ₁.pcs 2 = .idle ∧ σ₁.pcs 3 = .drainLock .user) ∧
      ((processMachine fun _ => []).restrict Apart).Run (Process.start attachedTracer false 0 1)
        closingBetween σ₁ ∧
      ∃ σ₂, (σ₂.pcs 1 = .detachEnabled true ∧ σ₂.pcs 2 = .idle ∧
          (σ₂.pcs 3).site = some (.begin, .present)) ∧
        ((∀ u, (σ₁.pcs u).inSink = false) →
          ((processMachine fun _ => []).restrict Apart).Run σ₁ [.step 1, .step 3, .step 3, .step 1]
            σ₂) ∧
        ∃ σ₃, (σ₃.detached = true ∧ σ₃.finalized = true ∧
            (σ₃.pcs 3).site = some (.begin, .present)) ∧
          ((∀ u f, (σ₂.pcs u).site ≠ some (f, .call)) →
            ((processMachine fun _ => []).restrict Apart).Run σ₂ [.step 1, .step 1] σ₃) ∧
          ∃ σ, (σ.pcs 1 = .idle ∧ σ.pcs 2 = .idle ∧ σ.pcs 3 = .idle ∧ σ.shared.tracer.out =
              [.sinkBegin, .sinkSpan (stampEnd (sampleSession [97]).span 1), .sinkEnd, .sinkBegin,
                .sinkEnd]) ∧
            ((processMachine fun _ => []).restrict Apart).Run σ₃ (List.replicate 9 (.step 3)) σ :=
  ⟨_, ⟨rfl, rfl, rfl⟩,
    .cons ⟨⟨rfl, rfl⟩, trivial⟩ rfl (.cons ⟨⟨rfl, rfl⟩, trivial⟩ rfl
    (.cons ⟨trivial, trivial⟩ rfl (.cons ⟨trivial, trivial⟩ rfl
    (.cons ⟨⟨rfl, trivial⟩, trivial⟩ rfl (.cons ⟨trivial, trivial⟩ rfl
    (.cons ⟨trivial, trivial⟩ rfl (.cons ⟨trivial, trivial⟩ rfl
    (.cons ⟨⟨rfl, trivial⟩, trivial⟩ rfl (.cons ⟨trivial, trivial⟩ rfl (.cons ⟨rfl, trivial⟩ rfl
    (.cons ⟨rfl, trivial⟩ rfl (.cons ⟨trivial, fun _ => by rintro ⟨⟩⟩ rfl
    (.cons ⟨trivial, trivial⟩ rfl (.cons ⟨trivial, trivial⟩ rfl (.cons ⟨trivial, trivial⟩ rfl
    (.cons ⟨trivial, trivial⟩ rfl (.cons ⟨trivial, trivial⟩ rfl (.cons ⟨trivial, trivial⟩ rfl
    (.cons ⟨⟨rfl, rfl, rfl⟩, trivial⟩ rfl (.cons ⟨trivial, trivial⟩ rfl
    (.cons ⟨trivial, trivial⟩ rfl (.cons ⟨⟨rfl, trivial⟩, trivial⟩ rfl
    (.cons ⟨trivial, trivial⟩ rfl (.cons ⟨trivial, trivial⟩ rfl (.cons ⟨trivial, trivial⟩ rfl
    (.cons ⟨trivial, trivial⟩ rfl (.cons ⟨trivial, trivial⟩ rfl (.cons ⟨trivial, trivial⟩ rfl
    (.cons ⟨trivial, trivial⟩ rfl (.cons ⟨trivial, trivial⟩ rfl (.cons ⟨trivial, trivial⟩ rfl
    (.cons ⟨trivial, trivial⟩ rfl (.cons ⟨trivial, trivial⟩ rfl (.cons ⟨trivial, trivial⟩ rfl
    (.cons ⟨trivial, trivial⟩ rfl (.cons ⟨trivial, trivial⟩ rfl (.cons ⟨trivial, trivial⟩ rfl
    (.cons ⟨trivial, trivial⟩ rfl (.cons ⟨trivial, trivial⟩ rfl (.cons ⟨rfl, trivial⟩ rfl
    (.cons ⟨rfl, trivial⟩ rfl (.cons ⟨trivial, fun _ => by rintro ⟨⟩⟩ rfl
    (.cons ⟨trivial, trivial⟩ rfl (.cons ⟨trivial, trivial⟩ rfl (.cons ⟨trivial, trivial⟩ rfl
    (.cons ⟨trivial, trivial⟩ rfl (.cons ⟨trivial, trivial⟩ rfl (.cons ⟨trivial, trivial⟩ rfl
    (.cons ⟨trivial, trivial⟩ rfl (.cons ⟨trivial, trivial⟩ rfl (.cons ⟨trivial, trivial⟩ rfl
    (.cons ⟨trivial, trivial⟩ rfl (.cons ⟨trivial, trivial⟩ rfl (.cons ⟨trivial, trivial⟩ rfl
    (.cons ⟨trivial, trivial⟩ rfl (.cons ⟨trivial, trivial⟩ rfl (.cons ⟨trivial, trivial⟩ rfl
    (.cons ⟨trivial, trivial⟩ rfl .nil)))))))))))))))))))))))))))))))))))))))))))))))))))))))))),
    _, ⟨rfl, rfl, rfl⟩, fun hquiet =>
    .cons ⟨trivial, fun _ => hquiet⟩ rfl (.cons ⟨rfl, trivial⟩ rfl (.cons ⟨rfl, trivial⟩ rfl
    (.cons ⟨trivial, trivial⟩ rfl .nil))),
    _, ⟨rfl, rfl, rfl⟩, fun hcalls =>
    .cons ⟨trivial, hcalls⟩ rfl (.cons ⟨trivial, trivial⟩ rfl .nil),
    _, ⟨rfl, rfl, rfl, rfl⟩,
    .cons ⟨trivial, by rintro ⟨⟩⟩ rfl (.cons ⟨trivial, trivial⟩ rfl (.cons ⟨trivial, trivial⟩ rfl
    (.cons ⟨trivial, trivial⟩ rfl (.cons ⟨trivial, trivial⟩ rfl (.cons ⟨trivial, trivial⟩ rfl
    (.cons ⟨trivial, trivial⟩ rfl (.cons ⟨trivial, trivial⟩ rfl (.cons ⟨trivial, trivial⟩ rfl
    .nil))))))))⟩

/-- A pass that begins before the sink is detached ends before; one that begins later finds the database
closed and calls nothing. -/
theorem detach_safe_sample : ∃ σ₁ σ : Process,
    (σ₁.detached = true ∧ σ₁.finalized = true ∧ (σ₁.pcs 3).site = some (.begin, .present) ∧
      σ₁.SinkSafe ⟨true, true, true⟩) ∧
    ((∀ t, (σ.pcs t).pass = none) ∧ σ.shared.tracer.out =
        [.sinkBegin, .sinkSpan (stampEnd (sampleSession [97]).span 1), .sinkEnd, .sinkBegin,
          .sinkEnd] ∧
      σ.SinkSafe ⟨true, true, true⟩) := by
  have hstart : (Process.start attachedTracer false 0 1).AtRest :=
    start_atRest attachedTracer false (by decide)
  obtain ⟨σ₁, ⟨h11, h12, h13⟩, hrun₁, σ₂, ⟨h21, h22, h23⟩, hrun₂, σ₃, ⟨hdet, hfinal, h33⟩, hrun₃, σ,
    ⟨h1, h2, h3, hout⟩, hrun₄⟩ := closingBetween_run
  have hquiet : ∀ u, (σ₁.pcs u).inSink = false :=
    attached_all (P := fun pc => pc.inSink = false) hrun₁.of_restrict
      (by simp [closingBetween, Act.isBy]) rfl rfl (by rw [h11]; rfl) (by rw [h12]; rfl)
      (by rw [h13]; rfl)
  replace hrun₂ := hrun₁.append (hrun₂ hquiet)
  have hcalls : ∀ u f, (σ₂.pcs u).site ≠ some (f, .call) :=
    attached_all (P := fun pc => ∀ f, pc.site ≠ some (f, .call)) hrun₂.of_restrict
      (by simp [closingBetween, Act.isBy]) (by rintro _ ⟨⟩) (by rintro _ ⟨⟩)
      (by rw [h21]; rintro _ ⟨⟩) (by rw [h22]; rintro _ ⟨⟩) (by rw [h23]; rintro _ ⟨⟩)
  replace hrun₃ := hrun₂.append (hrun₃ hcalls)
  replace hrun₄ := hrun₃.append hrun₄
  refine ⟨σ₃, σ, ⟨hdet, hfinal, h33, detach_safe _ _ σ₃ _ _ hstart rfl rfl rfl hrun₃⟩, ?_, hout,
    detach_safe _ _ σ _ _ hstart rfl rfl rfl hrun₄⟩
  exact attached_all (P := fun pc => pc.pass = none) hrun₄.of_restrict
    (by simp [closingBetween, Act.isBy]) rfl rfl (by rw [h1]; rfl) (by rw [h2]; rfl)
    (by rw [h3]; rfl)

end OtelTracing
