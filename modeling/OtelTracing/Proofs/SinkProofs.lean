import OtelTracing.Proofs.LedgerProofs

/-!
# Proofs: what the sink is given

While a sink stays attached it is given all the spans that the passes take, a context is freed when its
spans were all given, and the passes count what they give.
-/

namespace OtelTracing

open ByteMem Locks Outcome

variable {pack : Proto.ExportTraceServiceRequest → Bytes} {σ σ' : Process} {t u : ThreadId}
  {pc pc' : Pc} {a b : CtxAddr} {c : OtelThreadCtx} {l l' : Ledger} {m m' : Shared} {s : OtelSpan}
  {head : UInt64} {e : EndPc} {p : PassPc} {v v' : PassVars} {sink : OtelSpanSink}

/-! ## The sink stays attached -/

structure Tracer.SameSink (tr tr' : Tracer) : Prop where
  enabled : tr'.enabled = tr.enabled
  sink : tr'.sink = tr.sink
  sinkPresent : tr'.sinkPresent = tr.sinkPresent

theorem pass_sameSink {ctxs : List CtxAddr} {p' : Option PassPc}
    (h : passStep pack m ctxs v p = .ok (m', p', v')) : m.tracer.SameSink m'.tracer := by
  cases pass_cases h with
  | loopAdd a c m' hc hne hadd =>
    obtain ⟨o, bufs, hm⟩ := add_out hadd
    exact ⟨by rw [hm], by rw [hm], by rw [hm]⟩
  | flush tr ht =>
    obtain ⟨o, bufs, rfl⟩ := flush_out ht
    exact ⟨rfl, rfl, rfl⟩
  | _ => exact ⟨rfl, rfl, rfl⟩

theorem end_sameSink {e' : Option EndPc} (h : endStep m a s head e = .ok (m', e')) :
    m.tracer.SameSink m'.tracer := by
  cases endStep_cases h with
  | full | room | copy | storeHead => exact ⟨rfl, rfl, rfl⟩

theorem Process.Attached.keep (h : σ.Attached sink)
    (hsame : σ.shared.tracer.SameSink σ'.shared.tracer)
    (hquiet : ∀ t, (σ'.pcs t).detaching = false) : σ'.Attached sink where
  enabled := by rw [hsame.enabled, h.enabled]
  sink := by rw [hsame.sink, h.sink]
  sinkPresent := by rw [hsame.sinkPresent, h.sinkPresent]
  quiet := hquiet

theorem attached_thread (h : σ.Attached sink) (hstep : Stepped pack σ t σ')
    (hquiet : ∀ t, (σ'.pcs t).detaching = false) : σ'.Attached sink := by
  have hself := h.quiet t
  cases hstep with
  | spanEnd a s head e e' m hpc hend => exact h.keep (end_sameSink hend) hquiet
  | spanEnded a s head e m hpc hend => exact h.keep (end_sameSink hend) hquiet
  | unregisterPass a p p' v v' m hpc hpass => exact h.keep (pass_sameSink hpass) hquiet
  | unregisterPassed a p v v' m hpc hpass => exact h.keep (pass_sameSink hpass) hquiet
  | drainPass k p p' v v' m hpc hpass => exact h.keep (pass_sameSink hpass) hquiet
  | drainPassed k p v v' m hpc hpass => exact h.keep (pass_sameSink hpass) hquiet
  | unregisterUnlink a m hpc hunlink =>
    obtain ⟨threads, -, hm⟩ := bind_ok hunlink
    cases hm
    exact h.keep ⟨rfl, rfl, rfl⟩ hquiet
  | unregisterFree a m hpc hfree =>
    obtain ⟨tracer, htracer, hm⟩ := bind_ok hfree
    obtain ⟨c, -, htracer⟩ := bind_ok htracer
    cases htracer
    cases hm
    exact h.keep ⟨rfl, rfl, rfl⟩ hquiet
  | detachSink close hpc =>
    rw [hpc] at hself
    cases hself
  | detachPresent close hpc =>
    rw [hpc] at hself
    cases hself
  | detachEnabled close hpc =>
    rw [hpc] at hself
    cases hself
  | _ => exact h.keep ⟨rfl, rfl, rfl⟩ hquiet

theorem attached_step {x : Act} (h : σ.Attached sink) (he : x.Possible σ)
    (hstep : processStep pack σ x = .ok σ') (hquiet : ∀ t, (σ'.pcs t).detaching = false) :
    σ'.Attached sink := by
  cases x with
  | timer =>
    cases hstep
    exact h.keep ⟨rfl, rfl, rfl⟩ hquiet
  | step t => exact attached_thread h (step_cases he hstep) hquiet
  | call t c =>
    cases call_cases hstep with
    | _ => exact h.keep ⟨rfl, rfl, rfl⟩ hquiet

/-- No thread is in `otel_sqlite_close` or in `otel_set_span_sink`. -/
structure Process.Undisturbed (σ : Process) : Prop where
  closeCalled : σ.closeCalled = false
  quiet : ∀ t, (σ.pcs t).detaching = false

theorem Process.Undisturbed.move (h : σ.Undisturbed) (hpcs : σ'.pcs = Function.update σ.pcs t pc')
    (hcalled : σ'.closeCalled = σ.closeCalled) (hquiet : pc'.detaching = false) :
    σ'.Undisturbed := by
  refine ⟨hcalled.trans h.closeCalled, ?_⟩
  intro u
  rw [hpcs]
  by_cases hut : u = t
  · subst hut
    rw [Function.update_self]
    exact hquiet
  · rw [Function.update_of_ne hut]
    exact h.quiet u

/-- Before `otel_sqlite_close` is called no pass runs on its behalf. -/
theorem Process.Undisturbed.ret (h : σ.Undisturbed) (hroles : σ.RolesOk) {k : Caller}
    (hpc : σ.pcs t = pc) (hclose : k = .close → pc.ofClose = true) : k.ret.detaching = false := by
  cases k with
  | user | flusher => rfl
  | close =>
    subst hpc
    have hcalled := (hroles.closer t (hclose rfl)).2
    rw [h.closeCalled] at hcalled
    cases hcalled

theorem undisturbed_step {x : Act} (h : σ.Undisturbed) (hroles : σ.RolesOk)
    (hkeeps : x.keepsSink = true) (he : x.Possible σ) (hstep : processStep pack σ x = .ok σ') :
    σ'.Undisturbed := by
  cases x with
  | timer =>
    cases hstep
    exact h.move rfl rfl rfl
  | call t c =>
    cases call_cases hstep with
    | refused => exact h
    | drop => exact { h with }
    | setRingCapacity => exact { h with }
    | close => cases hkeeps
    | detach => cases hkeeps
    | _ => exact h.move rfl rfl rfl
  | step t =>
    have hself := h.quiet t
    cases step_cases he hstep with
    | drainSkip k hpc =>
      exact h.move rfl rfl (h.ret hroles hpc fun hk => by rw [hk]; rfl)
    | drainUnlock k v hpc =>
      exact h.move rfl rfl (h.ret hroles hpc fun hk => by rw [hk]; rfl)
    | detachSink close hpc =>
      rw [hpc] at hself
      cases hself
    | detachPresent close hpc =>
      rw [hpc] at hself
      cases hself
    | detachEnabled close hpc =>
      rw [hpc] at hself
      cases hself
    | _ => exact h.move rfl rfl rfl

/-! ## Nothing is skipped -/

theorem Process.Attached.not_skips (h : σ.Attached sink) (hspan : sink.hasSpan = true) :
    ¬ σ.shared.tracer.SkipsSpans := by
  rintro (habsent | ⟨sink', hsink, hset⟩)
  · rw [h.sinkPresent] at habsent
    cases habsent
  · rw [h.sink] at hsink
    cases hsink
    rw [hspan] at hset
    cases hset

/-- The sink was given all the spans that the passes have taken. -/
def Process.KeptOk (σ : Process) : Prop :=
  ∀ a, (σ.shared.ledger a).given.length = (σ.shared.ledger a).taken

theorem keptOk_step {x : Act} (h : σ.KeptOk) (hring : σ.RingOk)
    (hskips : ¬ σ.shared.tracer.SkipsSpans) (he : x.Possible σ)
    (hstep : processStep pack σ x = .ok σ') : σ'.KeptOk := by
  intro a
  have hold := h a
  have hledger := ledger_step hring he hstep a
  revert hledger hold
  generalize σ.shared.ledger a = l
  generalize σ'.shared.ledger a = l'
  intro hold hledger
  cases hledger with
  | same | stage | enter | publish => exact hold
  | new => rfl
  | skip hlt hskip => exact absurd hskip hskips
  | give hlt =>
    show (l.given ++ [l.staged[l.taken]]).length = l.taken + 1
    rw [List.length_append, hold]
    rfl

/-- The sink was given the spans that the passes have taken. -/
theorem given_eq (hgiven : σ.GivenOk) (hkept : σ.KeptOk) (a : CtxAddr)
    (hle : (σ.shared.ledger a).taken ≤ (σ.shared.ledger a).staged.length) :
    (σ.shared.ledger a).given =
      (σ.shared.ledger a).staged.take (σ.shared.ledger a).taken := by
  refine (hgiven.ledger a).eq_of_length ?_
  rw [hkept a, List.length_take]
  omega

/-- Contexts are freed when all their spans were given to the sink. -/
def Process.FreedOk (σ : Process) : Prop := ∀ l ∈ σ.shared.freed, l.given = l.staged

theorem freedOk_step {x : Act} (h : σ.FreedOk) (hgiven : σ.GivenOk)
    (hkept : σ.KeptOk) (hleave : σ.LeaveOk) (he : x.Possible σ)
    (hstep : processStep pack σ x = .ok σ') : σ'.FreedOk := by
  cases x with
  | timer =>
    cases hstep
    exact h
  | call t c =>
    cases call_cases hstep with
    | _ => exact h
  | step t =>
    rcases freed_thread (step_cases he hstep) with hsame | ⟨a, hpc, hfreed⟩
    · rw [Process.FreedOk, hsame]
      exact h
    · rw [Process.FreedOk, hfreed]
      intro l hl
      rcases List.mem_cons.mp hl with rfl | hl
      · have hall := hleave t
        rw [hpc] at hall
        replace hall : (σ.shared.ledger a).taken = (σ.shared.ledger a).staged.length := hall
        rw [given_eq hgiven hkept a (by omega), hall, List.take_length]
      · exact h l hl

/-! ## The calls of the sink -/

@[simp] theorem sinkSpans_append (out out' : List Output) :
    sinkSpans (out ++ out') = sinkSpans out ++ sinkSpans out' := List.filterMap_append ..

@[simp] theorem sinkSpans_transport (bufs : List Bytes) :
    sinkSpans (bufs.map Output.transport) = [] := by
  simp [sinkSpans]

/-- What a step of a pass gives to the sink. -/
inductive Gave (m m' : Shared) (v v' : PassVars) : Prop
  | nothing (hout : sinkSpans m'.tracer.out = sinkSpans m.tracer.out)
      (hgiven : ∀ b, (m'.ledger b).given = (m.ledger b).given)
      (hcount : v'.n = v.n ∨ m.tracer.SkipsSpans)
  | span (a : CtxAddr) (s : OtelSpan) (hlive : (m.tracer.ctxs a).isSome)
      (hout : sinkSpans m'.tracer.out = sinkSpans m.tracer.out ++ [s])
      (hself : (m'.ledger a).given = (m.ledger a).given ++ [s])
      (hother : ∀ b, b ≠ a → (m'.ledger b).given = (m.ledger b).given)
      (hcount : v'.n = v.n + 1)

theorem update_given {ledger : CtxAddr → Ledger} (h : l.given = (ledger a).given) (b : CtxAddr) :
    (Function.update ledger a l b).given = (ledger b).given := by
  by_cases hb : b = a
  · rw [hb, Function.update_self, h]
  · rw [Function.update_of_ne hb]

theorem pass_gave {ctxs : List CtxAddr} {p' : Option PassPc}
    (h : passStep pack m ctxs v p = .ok (m', p', v')) : v'.base = v.base ∧ Gave m m' v v' := by
  cases pass_cases h with
  | beginCall => exact ⟨rfl, .nothing (by simp [Shared.output, sinkSpans]) (fun _ => rfl) (Or.inl rfl)⟩
  | finishCall => exact ⟨rfl, .nothing (by simp [Shared.output, sinkSpans]) (fun _ => rfl) (Or.inl rfl)⟩
  | loopEnd a c hc heq => exact ⟨rfl, .nothing rfl (fun b => update_given (by rfl) b) (Or.inl rfl)⟩
  | loopAdd a c m' hc hne hadd =>
    obtain ⟨o, bufs, hm⟩ := add_out hadd
    refine ⟨rfl, .nothing (by rw [hm]; simp) ?_ (Or.inl rfl)⟩
    intro b
    rcases add_ledger hadd with hsame | henter
    · rw [hsame]
    · rw [henter]
      exact update_given (by rfl) b
  | emitSkip a site hsite =>
    refine ⟨rfl, .nothing rfl (fun b => update_given (by rfl) b) (Or.inr ?_)⟩
    cases hsite with
    | absent hp => exact Or.inl hp
    | unset sink hs hset => exact Or.inr ⟨sink, hs, hset⟩
  | emitCall a site c hsite hc =>
    refine ⟨rfl, .span a (ringMem m.tracer.ctxs ⟨a, c.slot v.tail⟩) (by rw [hc]; rfl) ?_ ?_ ?_ rfl⟩
    · simp [Shared.take, Shared.give, Shared.output, Shared.setLedger, sinkSpans]
    · show ((m.give ⟨a, c.slot v.tail⟩).take a |>.ledger a).given = _
      simp only [Shared.take, Shared.setLedger, Function.update_self]
      rw [give_ledger m ⟨a, c.slot v.tail⟩]
    · intro b hb
      rw [show ((m.give ⟨a, c.slot v.tail⟩).take a).ledger b = (m.give ⟨a, c.slot v.tail⟩).ledger b from
        Function.update_of_ne hb .., show (m.give ⟨a, c.slot v.tail⟩).ledger b = m.ledger b from
        Function.update_of_ne hb ..]
  | flush tr ht =>
    obtain ⟨o, bufs, rfl⟩ := flush_out ht
    exact ⟨rfl, .nothing (by simp) (fun _ => rfl) (Or.inl rfl)⟩
  | _ => exact ⟨rfl, .nothing rfl (fun _ => rfl) (Or.inl rfl)⟩

theorem end_spans {e' : Option EndPc} (h : endStep m a s head e = .ok (m', e')) :
    sinkSpans m'.tracer.out = sinkSpans m.tracer.out := by
  cases endStep_cases h with
  | full | room | copy | storeHead => rfl

theorem end_freed {e' : Option EndPc} (h : endStep m a s head e = .ok (m', e')) :
    m'.freed = m.freed := by
  cases endStep_cases h with
  | full | room | copy | storeHead => rfl

theorem end_given {e' : Option EndPc} (h : endStep m a s head e = .ok (m', e')) (b : CtxAddr) :
    (m'.ledger b).given = (m.ledger b).given := by
  rcases end_ledger h with hsame | hstaged
  · rw [hsame]
  · rw [hstaged]
    exact update_given (by rfl) b

/-- The variables of the pass that a thread is in, or returns from. -/
def Pc.vars : Pc → Option PassVars
  | .unregisterPass _ _ v | .drainPass _ _ v | .drainRdunlock _ v | .drainUnlock _ v => some v
  | _ => none

theorem vars_holdsDrain (h : pc.vars = some v) : pc.holdsDrain = true := by
  cases pc <;> first | rfl | cases h

/-- The counter of a pass is the number of the spans that it has emitted, as an `int`. -/
def Counted (out : List Output) (v : PassVars) : Prop :=
  v.base ≤ (sinkSpans out).length ∧ v.n = Int32.ofNat ((sinkSpans out).length - v.base)

theorem counted_start (t : Tracer) : Counted t.out (PassVars.start t) := by
  refine ⟨Nat.le_refl _, ?_⟩
  show (0 : Int32) = Int32.ofNat ((sinkSpans t.out).length - (sinkSpans t.out).length)
  rw [Nat.sub_self]
  rfl

theorem counted_gave (h : Counted m.tracer.out v) (hskips : ¬ m.tracer.SkipsSpans)
    (hbase : v'.base = v.base) (hgave : Gave m m' v v') : Counted m'.tracer.out v' := by
  obtain ⟨hle, hn⟩ := h
  cases hgave with
  | nothing hout hgiven hcount =>
    rcases hcount with hcount | hskip
    · rw [Counted, hout, hbase, hcount]
      exact ⟨hle, hn⟩
    · exact absurd hskip hskips
  | span a s hlive hout hself hother hcount =>
    rw [Counted, hout, hbase, hcount, hn, List.length_append, List.length_singleton]
    refine ⟨by omega, ?_⟩
    rw [Nat.sub_add_comm hle, Int32.ofNat_add]
    rfl

def Process.CountOk (σ : Process) : Prop :=
  ∀ t v, (σ.pcs t).vars = some v → Counted σ.shared.tracer.out v

theorem Process.CountOk.move (h : σ.CountOk) (hlocks : σ.LockOk) (hpc : σ.pcs t = pc)
    (hpcs : σ'.pcs = Function.update σ.pcs t pc')
    (hspans : sinkSpans σ'.shared.tracer.out = sinkSpans σ.shared.tracer.out ∨
      pc.holdsDrain = true)
    (hself : ∀ v, pc'.vars = some v → Counted σ'.shared.tracer.out v) : σ'.CountOk := by
  intro u v hv
  rw [hpcs] at hv
  by_cases hut : u = t
  · subst hut
    rw [Function.update_self] at hv
    exact hself v hv
  · rw [Function.update_of_ne hut] at hv
    rcases hspans with hsame | hdrain
    · rw [Counted, hsame]
      exact h u v hv
    · -- no other thread is in a pass
      exact absurd (hlocks.drain.unique (vars_holdsDrain hv) (by rw [hpc, hdrain])) hut

theorem vars_ret (k : Caller) : k.ret.vars = none := by
  cases k with
  | user | flusher | close => rfl

theorem countOk_thread (h : σ.CountOk) (hlocks : σ.LockOk)
    (hskips : ¬ σ.shared.tracer.SkipsSpans) (hstep : Stepped pack σ t σ') : σ'.CountOk := by
  have hself := h t
  cases hstep with
  | unregisterStart a hpc =>
    exact h.move hlocks hpc rfl (Or.inl rfl) (by rintro _ ⟨⟩; exact counted_start _)
  | drainRdlock k hpc =>
    exact h.move hlocks hpc rfl (Or.inl rfl) (by rintro _ ⟨⟩; exact counted_start _)
  | unregisterPass a p p' v v' m hpc hpass =>
    rw [hpc] at hself
    obtain ⟨hbase, hgave⟩ := pass_gave hpass
    refine h.move hlocks hpc rfl (Or.inr rfl) ?_
    rintro _ ⟨⟩
    exact counted_gave (hself v rfl) hskips hbase hgave
  | unregisterPassed a p v v' m hpc hpass => exact h.move hlocks hpc rfl (Or.inr rfl) nofun
  | drainPass k p p' v v' m hpc hpass =>
    rw [hpc] at hself
    obtain ⟨hbase, hgave⟩ := pass_gave hpass
    refine h.move hlocks hpc rfl (Or.inr rfl) ?_
    rintro _ ⟨⟩
    exact counted_gave (hself v rfl) hskips hbase hgave
  | drainPassed k p v v' m hpc hpass =>
    rw [hpc] at hself
    obtain ⟨hbase, hgave⟩ := pass_gave hpass
    refine h.move hlocks hpc rfl (Or.inr rfl) ?_
    rintro _ ⟨⟩
    exact counted_gave (hself v rfl) hskips hbase hgave
  | drainRdunlock k v hpc =>
    rw [hpc] at hself
    exact h.move hlocks hpc rfl (Or.inl rfl) hself
  | spanEnd a s head e e' m hpc hend =>
    exact h.move hlocks hpc rfl (Or.inl (end_spans hend)) nofun
  | spanEnded a s head e m hpc hend =>
    exact h.move hlocks hpc rfl (Or.inl (end_spans hend)) nofun
  | unregisterUnlink a m hpc hunlink => exact h.move hlocks hpc rfl (Or.inr rfl) nofun
  | unregisterFree a m hpc hfree =>
    obtain ⟨tracer, htracer, hm⟩ := bind_ok hfree
    obtain ⟨c, -, htracer⟩ := bind_ok htracer
    cases htracer
    cases hm
    exact h.move hlocks hpc rfl (Or.inl rfl) nofun
  | drainSkip k hpc =>
    refine h.move hlocks hpc rfl (Or.inl rfl) ?_
    rw [vars_ret k]
    nofun
  | drainUnlock k v hpc =>
    refine h.move hlocks hpc rfl (Or.inl rfl) ?_
    rw [vars_ret k]
    nofun
  | detachEnabled close hpc =>
    cases close with
    | false => exact h.move hlocks hpc rfl (Or.inl rfl) nofun
    | true => exact h.move hlocks hpc rfl (Or.inl rfl) nofun
  | _ =>
    refine h.move hlocks (by assumption) rfl (Or.inl rfl) ?_
    exact nofun

theorem countOk_step {x : Act} (h : σ.CountOk) (hlocks : σ.LockOk)
    (hskips : ¬ σ.shared.tracer.SkipsSpans) (he : x.Possible σ)
    (hstep : processStep pack σ x = .ok σ') : σ'.CountOk := by
  cases x with
  | timer =>
    cases hstep
    exact h.move hlocks he rfl (Or.inl rfl) nofun
  | step t => exact countOk_thread h hlocks hskips (step_cases he hstep)
  | call t c =>
    obtain ⟨hidle, hpossible⟩ := he
    cases call_cases hstep with
    | refused | drop | setRingCapacity => exact h
    | _ => exact h.move hlocks hidle rfl (Or.inl rfl) nofun

/-! ## Nothing else is given -/

/-- The spans that the sink was given are those of the ledgers, of the contexts `as` and of those that
were freed. -/
structure Shared.Output (m : Shared) (as : List CtxAddr) : Prop where
  nodup : as.Nodup
  live : ∀ a, a ∈ as ↔ (m.tracer.ctxs a).isSome
  spans : (sinkSpans m.tracer.out).Perm
    (as.flatMap (fun a => (m.ledger a).given) ++ m.freed.flatMap Ledger.given)

theorem Shared.Output.keep {as : List CtxAddr} (h : m.Output as)
    (hlive : ∀ a, (m'.tracer.ctxs a).isSome = (m.tracer.ctxs a).isSome)
    (hgiven : ∀ a, (m'.ledger a).given = (m.ledger a).given) (hfreed : m'.freed = m.freed)
    (hout : sinkSpans m'.tracer.out = sinkSpans m.tracer.out) : m'.Output as := by
  refine ⟨h.nodup, fun a => by rw [hlive a]; exact h.live a, ?_⟩
  rw [hout, hfreed, funext hgiven]
  exact h.spans

/-- A list that is given one more element at `a`. -/
theorem flatMap_snoc {α β : Type} [DecidableEq α] {as : List α} {f g : α → List β} {a : α} {x : β}
    (ha : a ∈ as) (hnodup : as.Nodup) (hself : g a = f a ++ [x])
    (hother : ∀ b, b ≠ a → g b = f b) : (as.flatMap g).Perm (as.flatMap f ++ [x]) := by
  have hperm := List.perm_cons_erase ha
  have hrest : (as.erase a).flatMap g = (as.erase a).flatMap f := by
    refine List.flatMap_congr fun b hb => hother b ?_
    rintro rfl
    exact (hnodup.mem_erase_iff.mp hb).1 rfl
  have hg : (as.flatMap g).Perm (f a ++ [x] ++ (as.erase a).flatMap f) := by
    refine (hperm.flatMap_right g).trans ?_
    rw [List.flatMap_cons, hself, hrest]
  have hf : (as.flatMap f ++ [x]).Perm (f a ++ (as.erase a).flatMap f ++ [x]) := by
    refine List.Perm.append_right [x] ((hperm.flatMap_right f).trans ?_)
    rw [List.flatMap_cons]
  refine hg.trans (List.Perm.trans ?_ hf.symm)
  rw [List.append_assoc, List.append_assoc]
  exact List.Perm.append_left _ List.perm_append_comm

theorem Shared.Output.gave {as : List CtxAddr} (h : m.Output as) (hgave : Gave m m' v v')
    (hlive : ∀ a, (m'.tracer.ctxs a).isSome = (m.tracer.ctxs a).isSome)
    (hfreed : m'.freed = m.freed) : m'.Output as := by
  cases hgave with
  | nothing hout hgiven hcount => exact h.keep hlive hgiven hfreed hout
  | span a s ha hout hself hother hcount =>
    refine ⟨h.nodup, fun b => by rw [hlive b]; exact h.live b, ?_⟩
    rw [hout, hfreed]
    have hsnoc := flatMap_snoc (f := fun b => (m.ledger b).given)
      (g := fun b => (m'.ledger b).given) ((h.live a).mpr ha) h.nodup hself hother
    refine (h.spans.append_right [s]).trans ?_
    refine List.Perm.trans ?_ (hsnoc.symm.append_right _)
    rw [List.append_assoc, List.append_assoc]
    exact List.Perm.append_left _ List.perm_append_comm

theorem output_alloc {as : List CtxAddr} {seed : OtelRandomState} {now : UInt64} (h : m.Output as)
    (hfree : m.tracer.ctxs a = none) : (m.alloc a seed now).Output (a :: as) := by
  have hnew : a ∉ as := by
    intro ha
    have hlive := (h.live a).mp ha
    rw [hfree] at hlive
    cases hlive
  refine ⟨List.nodup_cons.mpr ⟨hnew, h.nodup⟩, ?_, ?_⟩
  · intro b
    show b ∈ a :: as ↔ (Function.update m.tracer.ctxs a _ b).isSome
    by_cases hb : b = a
    · rw [hb, Function.update_self]
      simp
    · rw [Function.update_of_ne hb, List.mem_cons, ← h.live b]
      simp [hb]
  · have hsame : ∀ b ∈ as, ((m.alloc a seed now).ledger b).given = (m.ledger b).given := by
      intro b hb
      refine congrArg Ledger.given (Function.update_of_ne ?_ ..)
      rintro rfl
      exact hnew hb
    have hself : ((m.alloc a seed now).ledger a).given = [] := by
      show (Function.update m.ledger a Ledger.empty a).given = []
      rw [Function.update_self]
      rfl
    rw [List.flatMap_cons, hself, List.flatMap_congr hsame]
    exact h.spans

theorem output_free {as : List CtxAddr} (h : m.Output as) (hfree : m.free a = .ok m') :
    m'.Output (as.erase a) := by
  obtain ⟨tracer, htracer, hm⟩ := bind_ok hfree
  obtain ⟨c, hc, htracer⟩ := bind_ok htracer
  cases htracer
  cases hm
  have ha : a ∈ as := (h.live a).mpr (by rw [deref_ok hc]; rfl)
  refine ⟨h.nodup.erase a, ?_, ?_⟩
  · intro b
    show b ∈ as.erase a ↔ (Function.update m.tracer.ctxs a none b).isSome
    rw [h.nodup.mem_erase_iff, h.live b]
    by_cases hb : b = a
    · rw [hb, Function.update_self]
      simp
    · rw [Function.update_of_ne hb]
      simp [hb]
  · refine h.spans.trans ?_
    show (as.flatMap (fun b => (m.ledger b).given) ++ m.freed.flatMap Ledger.given).Perm
      ((as.erase a).flatMap (fun b => (m.ledger b).given) ++
        (m.ledger a :: m.freed).flatMap Ledger.given)
    have hperm := (List.perm_cons_erase ha).flatMap_right fun b => (m.ledger b).given
    refine (hperm.append_right _).trans ?_
    rw [List.flatMap_cons, List.flatMap_cons, ← List.append_assoc]
    exact List.Perm.append_right _ List.perm_append_comm

def Process.OutputOk (σ : Process) : Prop := ∃ as, σ.shared.Output as

theorem outputOk_thread (h : σ.OutputOk) (hstep : Stepped pack σ t σ') : σ'.OutputOk := by
  obtain ⟨as, h⟩ := h
  cases hstep with
  | spanEnd a s head e e' m hpc hend =>
    refine ⟨as, h.keep (sameOwners_end hend).live ?_ (end_freed hend) (end_spans hend)⟩
    exact end_given hend
  | spanEnded a s head e m hpc hend =>
    refine ⟨as, h.keep (sameOwners_end hend).live ?_ (end_freed hend) (end_spans hend)⟩
    exact end_given hend
  | unregisterPass a p p' v v' m hpc hpass =>
    exact ⟨as, h.gave (pass_gave hpass).2 (sameOwners_pass hpass).live (pass_freed hpass)⟩
  | unregisterPassed a p v v' m hpc hpass =>
    exact ⟨as, h.gave (pass_gave hpass).2 (sameOwners_pass hpass).live (pass_freed hpass)⟩
  | drainPass k p p' v v' m hpc hpass =>
    exact ⟨as, h.gave (pass_gave hpass).2 (sameOwners_pass hpass).live (pass_freed hpass)⟩
  | drainPassed k p v v' m hpc hpass =>
    exact ⟨as, h.gave (pass_gave hpass).2 (sameOwners_pass hpass).live (pass_freed hpass)⟩
  | unregisterUnlink a m hpc hunlink =>
    obtain ⟨threads, -, hm⟩ := bind_ok hunlink
    cases hm
    exact ⟨as, h.keep (fun _ => rfl) (fun _ => rfl) rfl rfl⟩
  | unregisterFree a m hpc hfree =>
    have hfreed := output_free h hfree
    exact ⟨as.erase a, hfreed.keep (fun _ => rfl) (fun _ => rfl) rfl rfl⟩
  | _ => exact ⟨as, h.keep (fun _ => rfl) (fun _ => rfl) rfl rfl⟩

theorem outputOk_step {x : Act} (h : σ.OutputOk) (he : x.Possible σ)
    (hstep : processStep pack σ x = .ok σ') : σ'.OutputOk := by
  cases x with
  | timer =>
    cases hstep
    exact h
  | step t => exact outputOk_thread h (step_cases he hstep)
  | call t c =>
    obtain ⟨hidle, hpossible⟩ := he
    cases call_cases hstep with
    | register a seed now htls =>
      obtain ⟨as, h⟩ := h
      exact ⟨a :: as, output_alloc h hpossible⟩
    | drop s now htls =>
      obtain ⟨as, h⟩ := h
      exact ⟨as, h.keep (fun _ => rfl) (fun _ => rfl) rfl rfl⟩
    | setRingCapacity spans cap hcap =>
      obtain ⟨as, h⟩ := h
      exact ⟨as, h.keep (fun _ => rfl) (fun _ => rfl) rfl rfl⟩
    | _ => exact h

end OtelTracing
