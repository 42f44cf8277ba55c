import OtelTracing.Journal
import OtelTracing.Proofs.DetachProofs
import OtelTracing.Proofs.SinkProofs

/-!
# Proofs: the order of the callbacks

While `OT.sink` is set, and also when it is cleared while a callback is about to be called, passes call
`begin`, then `span`, then `end`, and no two passes do so at the same time.
-/

namespace OtelTracing

open ByteMem Locks Outcome

variable {pack : Proto.ExportTraceServiceRequest → Bytes} {σ σ' : Process} {t u : ThreadId}
  {pc pc' : Pc} {m : Shared} {p : PassPc} {v v' : PassVars} {sink : OtelSpanSink}

/-! ## The registered sink -/

/-- A thread at the place has cleared `OT.sink`. -/
def Pc.cleared : Pc → Bool
  | .detachPresent _ | .detachEnabled _ => true
  | _ => false

/-- As long as `OT.sink` is set it is `sink`, and tracing is enabled. -/
structure Process.SetOk (sink : OtelSpanSink) (σ : Process) : Prop where
  enabled : σ.shared.tracer.sink ≠ none → σ.shared.tracer.enabled = true
  sink : σ.shared.tracer.sink ≠ none → σ.shared.tracer.sink = some sink
  sinkPresent : σ.shared.tracer.sink ≠ none → σ.shared.tracer.sinkPresent = true
  cleared : ∀ t, (σ.pcs t).cleared = true → σ.shared.tracer.sink = none

theorem Process.SetOk.move (h : σ.SetOk sink) (hpcs : σ'.pcs = Function.update σ.pcs t pc')
    (hsame : σ.shared.tracer.SameSink σ'.shared.tracer) (hcleared : pc'.cleared = false) :
    σ'.SetOk sink := by
  obtain ⟨henabled, hsink, hpresent⟩ := hsame
  refine ⟨?_, ?_, ?_, ?_⟩
  · rw [hsink, henabled]
    exact h.enabled
  · rw [hsink]
    exact h.sink
  · rw [hsink, hpresent]
    exact h.sinkPresent
  · intro u hu
    rw [hpcs] at hu
    rw [hsink]
    by_cases hut : u = t
    · rw [hut, Function.update_self, hcleared] at hu
      cases hu
    · rw [Function.update_of_ne hut] at hu
      exact h.cleared u hu

/-- Nothing is promised once `OT.sink` is cleared. -/
theorem setOk_none (hnone : σ.shared.tracer.sink = none) : σ.SetOk sink :=
  ⟨fun h => absurd hnone h, fun h => absurd hnone h, fun h => absurd hnone h, fun _ _ => hnone⟩

theorem cleared_ret (k : Caller) : k.ret.cleared = false := by
  cases k with
  | user | flusher | close => rfl

theorem setOk_thread (h : σ.SetOk sink) (hstep : Stepped pack σ t σ') : σ'.SetOk sink := by
  have hself := h.cleared t
  cases hstep with
  | spanEnd a s head e e' m hpc hend => exact h.move rfl (end_sameSink hend) rfl
  | spanEnded a s head e m hpc hend => exact h.move rfl (end_sameSink hend) rfl
  | unregisterPass a p p' v v' m hpc hpass => exact h.move rfl (pass_sameSink hpass) rfl
  | unregisterPassed a p v v' m hpc hpass => exact h.move rfl (pass_sameSink hpass) rfl
  | drainPass k p p' v v' m hpc hpass => exact h.move rfl (pass_sameSink hpass) rfl
  | drainPassed k p v v' m hpc hpass => exact h.move rfl (pass_sameSink hpass) rfl
  | unregisterUnlink a m hpc hunlink =>
    obtain ⟨threads, -, hm⟩ := bind_ok hunlink
    cases hm
    exact h.move rfl ⟨rfl, rfl, rfl⟩ rfl
  | unregisterFree a m hpc hfree =>
    obtain ⟨tracer, htracer, hm⟩ := bind_ok hfree
    obtain ⟨c, -, htracer⟩ := bind_ok htracer
    cases htracer
    cases hm
    exact h.move rfl ⟨rfl, rfl, rfl⟩ rfl
  | drainSkip k hpc => exact h.move rfl ⟨rfl, rfl, rfl⟩ (cleared_ret k)
  | drainUnlock k v hpc => exact h.move rfl ⟨rfl, rfl, rfl⟩ (cleared_ret k)
  | detachSink close hpc => exact setOk_none rfl
  | detachPresent close hpc =>
    rw [hpc] at hself
    exact setOk_none (hself rfl)
  | detachEnabled close hpc =>
    rw [hpc] at hself
    exact setOk_none (hself rfl)
  | _ => exact h.move rfl ⟨rfl, rfl, rfl⟩ rfl

theorem setOk_step {x : Act} (h : σ.SetOk sink) (he : x.Possible σ)
    (hstep : processStep pack σ x = .ok σ') : σ'.SetOk sink := by
  cases x with
  | timer =>
    cases hstep
    exact h.move rfl ⟨rfl, rfl, rfl⟩ rfl
  | step t => exact setOk_thread h (step_cases he hstep)
  | call t c =>
    cases call_cases hstep with
    | refused => exact h
    | drop => exact ⟨h.enabled, h.sink, h.sinkPresent, h.cleared⟩
    | setRingCapacity => exact ⟨h.enabled, h.sink, h.sinkPresent, h.cleared⟩
    | _ => exact h.move rfl ⟨rfl, rfl, rfl⟩ rfl

/-! ## Passes and their callbacks -/

/-- `OT.sink` is set, or the pass is about to call a callback that it has fetched. -/
def PassPc.Served (tr : Tracer) (p : PassPc) : Prop :=
  tr.sink ≠ none ∨ ∃ f, p.site = some (f, .call)

/-- A pass has called `begin`, and not yet `end`, if it is past its first call site. -/
structure Process.Bracketed (σ : Process) : Prop where
  pass : ∀ t p, (σ.pcs t).pass = some p → p.Served σ.shared.tracer →
    sinkOpen σ.shared.tracer.out = p.begun
  rest : σ.shared.tracer.sink ≠ none → (∀ t, (σ.pcs t).pass = none) →
    sinkOpen σ.shared.tracer.out = false

theorem pass_holdsDrain (h : pc.pass = some p) : pc.holdsDrain = true := by
  cases pc <;> first | rfl | cases h

/-- No other thread is in a pass. -/
theorem Process.LockOk.no_pass (h : σ.LockOk) (ht : (σ.pcs t).holdsDrain = true) (hut : u ≠ t) :
    (σ.pcs u).pass = none := by
  by_contra hne
  obtain ⟨p, hp⟩ := Option.ne_none_iff_exists'.mp hne
  exact hut (h.drain.unique (pass_holdsDrain hp) ht)

/-- A move of a thread that holds the lock, or that does not call the sink. -/
theorem Process.Bracketed.move (h : σ.Bracketed) (hlocks : σ.LockOk) (hpc : σ.pcs t = pc)
    (hpcs : σ'.pcs = Function.update σ.pcs t pc')
    (hsink : σ'.shared.tracer.sink = σ.shared.tracer.sink)
    (hpass : ∀ q, pc'.pass = some q → q.Served σ.shared.tracer →
      sinkOpen σ'.shared.tracer.out = q.begun)
    (hrest : pc'.pass = none → σ.shared.tracer.sink ≠ none → (∀ u, u ≠ t → (σ.pcs u).pass = none) →
      sinkOpen σ'.shared.tracer.out = false)
    (hother : pc.holdsDrain = true ∨ sinkOpen σ'.shared.tracer.out = sinkOpen σ.shared.tracer.out) :
    σ'.Bracketed := by
  subst hpc
  refine ⟨?_, ?_⟩
  · intro u q hq hserved
    rw [hpcs] at hq
    rw [PassPc.Served, hsink] at hserved
    by_cases hut : u = t
    · subst hut
      rw [Function.update_self] at hq
      exact hpass q hq hserved
    · rw [Function.update_of_ne hut] at hq
      rcases hother with hdrain | hsame
      · rw [hlocks.no_pass hdrain hut] at hq
        cases hq
      · rw [hsame]
        exact h.pass u q hq hserved
  · rw [hsink, hpcs]
    intro hsome hnone
    refine hrest ?_ hsome ?_
    · have ht := hnone t
      rwa [Function.update_self] at ht
    · intro u hut
      have hu := hnone u
      rwa [Function.update_of_ne hut] at hu

/-- A move outside of passes. -/
theorem Process.Bracketed.keep (h : σ.Bracketed) (hlocks : σ.LockOk) (hpc : σ.pcs t = pc)
    (hpcs : σ'.pcs = Function.update σ.pcs t pc')
    (hsink : σ'.shared.tracer.sink = σ.shared.tracer.sink)
    (hout : σ'.shared.tracer.out = σ.shared.tracer.out) (hpass : pc.pass = none)
    (hpass' : pc'.pass = none) : σ'.Bracketed := by
  refine h.move hlocks hpc hpcs hsink ?_ ?_ (Or.inr (by rw [hout]))
  · rw [hpass']
    rintro q ⟨⟩
  · intro _ hsome hnone
    rw [hout]
    refine h.rest hsome fun u => ?_
    by_cases hut : u = t
    · rw [hut, hpc, hpass]
    · exact hnone u hut

/-- A pass begins when no other pass is in progress. -/
theorem Process.Bracketed.start (h : σ.Bracketed) (hlocks : σ.LockOk) (hpc : σ.pcs t = pc)
    (hpcs : σ'.pcs = Function.update σ.pcs t pc')
    (hsink : σ'.shared.tracer.sink = σ.shared.tracer.sink)
    (hout : σ'.shared.tracer.out = σ.shared.tracer.out) (hdrain : pc.holdsDrain = true)
    (hpass : pc.pass = none) (hpass' : pc'.pass = some (.begin .present)) : σ'.Bracketed := by
  refine h.move hlocks hpc hpcs hsink ?_ ?_ (Or.inl hdrain)
  · rw [hpass']
    rintro q ⟨⟩ (hsome | ⟨f, ⟨⟩⟩)
    rw [hout]
    refine h.rest hsome fun u => ?_
    by_cases hut : u = t
    · rw [hut, hpc, hpass]
    · exact hlocks.no_pass (by rw [hpc, hdrain]) hut
  · rw [hpass']
    rintro ⟨⟩

/-- A call site is left for the next one only if `OT.sink` is set or not looked at. -/
theorem stay_call {tr : Tracer} {f : Callback} {site : Site}
    (h : SiteStepped tr f site (.stay .call)) : tr.sink ≠ none := by
  cases h with
  | priv sink hs => simp [hs]

/-- While `OT.sink` is set no call site with a callback is skipped. -/
theorem Process.SetOk.not_skip {f : Callback} {site : Site} (h : σ.SetOk sink)
    (hset : f.isSet sink = true) (hsome : σ.shared.tracer.sink ≠ none)
    (hsite : SiteStepped σ.shared.tracer f site .skip) : False := by
  obtain ⟨-, habsent | ⟨sink', hs, hunset⟩⟩ := skip_sink hsite
  · rw [h.sinkPresent hsome] at habsent
    cases habsent
  · rw [h.sink hsome] at hs
    cases hs
    rw [hset] at hunset
    cases hunset

/-- What a step of a pass leaves of the bracket that it is in. -/
theorem bracketed_passed {ctxs : List CtxAddr} {p' : Option PassPc} (h : σ.SetOk sink)
    (hbegin : sink.hasBegin = true) (hend : sink.hasEnd = true)
    (hold : p.Served σ.shared.tracer → sinkOpen σ.shared.tracer.out = p.begun)
    (hpass : Passed pack σ.shared ctxs v p m p' v') :
    m.tracer.sink = σ.shared.tracer.sink ∧
      (∀ q, p' = some q → q.Served σ.shared.tracer → sinkOpen m.tracer.out = q.begun) ∧
      (p' = none → σ.shared.tracer.sink ≠ none → sinkOpen m.tracer.out = false) := by
  have hset : σ.shared.tracer.sink ≠ none → sinkOpen σ.shared.tracer.out = p.begun :=
    fun hsome => hold (Or.inl hsome)
  cases hpass with
  | beginStay site site' hsite =>
    refine ⟨rfl, ?_, by rintro ⟨⟩⟩
    rintro _ ⟨⟩ (hsome | ⟨f, ⟨⟩⟩)
    · exact hset hsome
    · exact hset (stay_call hsite)
  | beginSkip site hsite =>
    refine ⟨rfl, ?_, by rintro ⟨⟩⟩
    rintro _ ⟨⟩ (hsome | ⟨f, ⟨⟩⟩)
    exact (h.not_skip (f := .begin) hbegin hsome hsite).elim
  | beginCall site hsite =>
    refine ⟨rfl, ?_, by rintro ⟨⟩⟩
    rintro _ ⟨⟩ -
    exact sinkOpen_begin σ.shared.tracer.out
  | walkEnd hrest =>
    refine ⟨rfl, ?_, by rintro ⟨⟩⟩
    rintro _ ⟨⟩ (hsome | ⟨f, ⟨⟩⟩)
    exact hset hsome
  | walkCtx a rest c hrest hc =>
    refine ⟨rfl, ?_, by rintro ⟨⟩⟩
    rintro _ ⟨⟩ (hsome | ⟨f, ⟨⟩⟩)
    exact hset hsome
  | loadHead a c hc =>
    refine ⟨rfl, ?_, by rintro ⟨⟩⟩
    rintro _ ⟨⟩ (hsome | ⟨f, ⟨⟩⟩)
    exact hset hsome
  | loopEnd a c hc heq =>
    refine ⟨rfl, ?_, by rintro ⟨⟩⟩
    rintro _ ⟨⟩ (hsome | ⟨f, ⟨⟩⟩)
    exact hset hsome
  | loopAdd a c m hc hne hadd =>
    obtain ⟨o, bufs, htracer⟩ := add_out hadd
    rw [htracer]
    refine ⟨rfl, ?_, by rintro ⟨⟩⟩
    rintro _ ⟨⟩ (hsome | ⟨f, ⟨⟩⟩)
    exact (sinkOpen_transport ..).trans (hset hsome)
  | emitStay a site site' hsite =>
    refine ⟨rfl, ?_, by rintro ⟨⟩⟩
    rintro _ ⟨⟩ (hsome | ⟨f, ⟨⟩⟩)
    · exact hset hsome
    · exact hset (stay_call hsite)
  | emitSkip a site hsite =>
    refine ⟨rfl, ?_, by rintro ⟨⟩⟩
    rintro _ ⟨⟩ (hsome | ⟨f, ⟨⟩⟩)
    exact hset hsome
  | emitCall a site c hsite hc =>
    refine ⟨rfl, ?_, by rintro ⟨⟩⟩
    rintro _ ⟨⟩ (hsome | ⟨f, ⟨⟩⟩)
    exact (sinkOpen_span ..).trans (hset hsome)
  | flush tr ht =>
    obtain ⟨o, bufs, rfl⟩ := flush_out ht
    refine ⟨rfl, ?_, by rintro ⟨⟩⟩
    rintro _ ⟨⟩ (hsome | ⟨f, ⟨⟩⟩)
    exact (sinkOpen_transport ..).trans (hset hsome)
  | finishStay site site' hsite =>
    refine ⟨rfl, ?_, by rintro ⟨⟩⟩
    rintro _ ⟨⟩ (hsome | ⟨f, ⟨⟩⟩)
    · exact hset hsome
    · exact hset (stay_call hsite)
  | finishSkip site hsite =>
    refine ⟨rfl, by rintro q ⟨⟩, fun _ hsome => ?_⟩
    exact (h.not_skip (f := .finish) hend hsome hsite).elim
  | finishCall site hsite =>
    exact ⟨rfl, by rintro q ⟨⟩, fun _ _ => sinkOpen_end σ.shared.tracer.out⟩

theorem bracketed_pass {ctxs : List CtxAddr} {p' : Option PassPc} (h : σ.Bracketed)
    (hlocks : σ.LockOk) (hset : σ.SetOk sink) (hbegin : sink.hasBegin = true)
    (hend : sink.hasEnd = true) (hpc : σ.pcs t = pc) (hp : pc.pass = some p)
    (hpass : passStep pack σ.shared ctxs v p = .ok (m, p', v')) (hp' : pc'.pass = p') :
    ({ σ with shared := m }.goto t pc').Bracketed := by
  obtain ⟨hsink, hgoes, hends⟩ := bracketed_passed hset hbegin hend
    (h.pass t p (by rw [hpc, hp])) (pass_cases hpass)
  refine h.move hlocks hpc rfl hsink ?_ ?_ (Or.inl (pass_holdsDrain hp))
  · rw [hp']
    exact hgoes
  · rw [hp']
    exact fun hnone hsome _ => hends hnone hsome

theorem pass_ret (k : Caller) : k.ret.pass = none := by
  cases k with
  | user | flusher | close => rfl

theorem bracketed_thread (h : σ.Bracketed) (hlocks : σ.LockOk) (hset : σ.SetOk sink)
    (hbegin : sink.hasBegin = true) (hend : sink.hasEnd = true) (hstep : Stepped pack σ t σ') :
    σ'.Bracketed := by
  cases hstep with
  | unregisterStart a hpc => exact h.start hlocks hpc rfl rfl rfl rfl rfl rfl
  | drainRdlock k hpc => exact h.start hlocks hpc rfl rfl rfl rfl rfl rfl
  | unregisterPass a p p' v v' m hpc hpass =>
    exact bracketed_pass h hlocks hset hbegin hend hpc rfl hpass rfl
  | unregisterPassed a p v v' m hpc hpass =>
    exact bracketed_pass h hlocks hset hbegin hend hpc rfl hpass rfl
  | drainPass k p p' v v' m hpc hpass =>
    exact bracketed_pass h hlocks hset hbegin hend hpc rfl hpass rfl
  | drainPassed k p v v' m hpc hpass =>
    exact bracketed_pass h hlocks hset hbegin hend hpc rfl hpass rfl
  | spanEnd a s head e e' m hpc hstep =>
    obtain ⟨hsink, -, hout⟩ := end_sink (endStep_cases hstep)
    exact h.keep hlocks hpc rfl hsink hout rfl rfl
  | spanEnded a s head e m hpc hstep =>
    obtain ⟨hsink, -, hout⟩ := end_sink (endStep_cases hstep)
    exact h.keep hlocks hpc rfl hsink hout rfl rfl
  | unregisterUnlink a m hpc hunlink =>
    obtain ⟨threads, -, hm⟩ := bind_ok hunlink
    cases hm
    exact h.keep hlocks hpc rfl rfl rfl rfl rfl
  | unregisterFree a m hpc hfree =>
    obtain ⟨tracer, htracer, hm⟩ := bind_ok hfree
    obtain ⟨c, -, htracer⟩ := bind_ok htracer
    cases htracer
    cases hm
    exact h.keep hlocks hpc rfl rfl rfl rfl rfl
  | drainSkip k hpc => exact h.keep hlocks hpc rfl rfl rfl rfl (pass_ret k)
  | drainUnlock k v hpc => exact h.keep hlocks hpc rfl rfl rfl rfl (pass_ret k)
  | detachSink close hpc =>
    -- what was fetched may still be called
    refine ⟨?_, fun hsome => absurd rfl hsome⟩
    intro u q hq hserved
    have hpass : ((σ.goto t (.detachPresent close)).pcs u).pass = (σ.pcs u).pass :=
      update_same (f := Pc.pass) (by rw [hpc]; rfl) u
    refine h.pass u q (hpass.symm.trans hq) (Or.inr ?_)
    rcases hserved with hsome | hcall
    · exact absurd rfl hsome
    · exact hcall
  | detachEnabled close hpc =>
    cases close with
    | false => exact h.keep hlocks hpc rfl rfl rfl rfl rfl
    | true => exact h.keep hlocks hpc rfl rfl rfl rfl rfl
  | _ => exact h.keep hlocks (by assumption) rfl rfl rfl rfl rfl

theorem bracketed_step {x : Act} (h : σ.Bracketed) (hlocks : σ.LockOk) (hset : σ.SetOk sink)
    (hbegin : sink.hasBegin = true) (hend : sink.hasEnd = true) (he : x.Possible σ)
    (hstep : processStep pack σ x = .ok σ') : σ'.Bracketed := by
  cases x with
  | timer =>
    cases hstep
    exact h.keep hlocks he rfl rfl rfl rfl rfl
  | step t => exact bracketed_thread h hlocks hset hbegin hend (step_cases he hstep)
  | call t c =>
    obtain ⟨hidle, -⟩ := he
    cases call_cases hstep with
    | refused => exact h
    | drop => exact ⟨h.pass, h.rest⟩
    | setRingCapacity => exact ⟨h.pass, h.rest⟩
    | _ => exact h.keep hlocks hidle rfl rfl rfl rfl rfl

end OtelTracing
