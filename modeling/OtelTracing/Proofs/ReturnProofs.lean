import OtelTracing.Proofs.DurableProofs
import Mathlib.Algebra.Order.BigOperators.Group.Finset

/-!
# Proofs: calls return

The calls that are in progress return after so many steps, whatever thread is the next one to take a
step. Each place of a program has a bound on the steps that are left of the call; it counts a pass that
has not begun as one over all contexts that there are, and the loop of the flusher up to its next wait.
-/

namespace OtelTracing

open ByteMem Locks Outcome

variable {pack : Proto.ExportTraceServiceRequest → Bytes} {σ σ' : Process} {t u : ThreadId}
  {pc pc' : Pc} {a : CtxAddr} {n : Nat}

/-! ## The flusher is woken to stop -/

/-- The flusher is signalled only when it has to stop. -/
def Process.WokenOk (σ : Process) : Prop :=
  σ.pcs σ.flusher = .flusherAsleep → σ.signaled = true → σ.running = false

theorem Process.WokenOk.keep (h : σ.WokenOk) (hpcs : σ'.pcs = Function.update σ.pcs t pc')
    (hflusher : σ'.flusher = σ.flusher) (hsignaled : σ'.signaled = σ.signaled)
    (hrunning : σ'.running = σ.running) (hasleep : pc' ≠ .flusherAsleep) : σ'.WokenOk := by
  intro hpc hsig
  rw [hrunning]
  rw [hsignaled] at hsig
  refine h ?_ hsig
  rw [hflusher, hpcs] at hpc
  by_cases hut : σ.flusher = t
  · rw [hut, Function.update_self] at hpc
    exact absurd hpc hasleep
  · rwa [Function.update_of_ne hut] at hpc

theorem wokenOk_thread (h : σ.WokenOk) (hcontrol : σ.ControlOk) (hstep : Stepped pack σ t σ') :
    σ'.WokenOk := by
  cases hstep with
  | flusherWait hpc =>
    intro _ hsig
    cases hsig
  | closeClear hpc => exact fun _ _ => rfl
  | closeSignal signaled hpc hwake =>
    intro _ _
    obtain ⟨rfl, hcalled⟩ := hcontrol.roles.is_closer hpc rfl
    exact hcontrol.stop.stopped hcalled (by rw [hpc]; rfl)
  | drainSkip k hpc =>
    refine h.keep rfl rfl rfl rfl ?_
    cases k with
    | user | flusher | close => rintro ⟨⟩
  | drainUnlock k v hpc =>
    refine h.keep rfl rfl rfl rfl ?_
    cases k with
    | user | flusher | close => rintro ⟨⟩
  | detachEnabled close hpc =>
    refine h.keep rfl rfl rfl rfl ?_
    cases close with
    | false | true => rintro ⟨⟩
  | _ =>
    refine h.keep rfl rfl rfl rfl ?_
    rintro ⟨⟩

theorem wokenOk_step {x : Act} (h : σ.WokenOk) (hcontrol : σ.ControlOk) (he : x.Possible σ)
    (hstep : processStep pack σ x = .ok σ') : σ'.WokenOk := by
  cases x with
  | timer =>
    cases hstep
    refine h.keep rfl rfl rfl rfl ?_
    rintro ⟨⟩
  | step t => exact wokenOk_thread h hcontrol (step_cases he hstep)
  | call t c =>
    cases call_cases hstep with
    | refused => exact h
    | drop => exact h
    | setRingCapacity => exact h
    | _ =>
      refine h.keep rfl rfl rfl rfl ?_
      rintro ⟨⟩

/-! ## Steps that are left -/

/-- A bound on the steps of a pass over `n` contexts. -/
def passSteps (n : Nat) : Nat := n * ringSteps + 13

/-- A bound on the steps of `otel_drain`. -/
def drainSteps (n : Nat) : Nat := passSteps n + 5

/-- A bound on the steps that are left of a call when `otel_drain` has returned to it. -/
def Caller.stepsLeft (n : Nat) (running : Bool) : Caller → Nat
  | .user => 0
  | .flusher => if running then drainSteps n + 9 else 3
  | .close => 4

/-- A bound on the steps that are left of a call at the place, without those of the pass that it is
in. -/
def Pc.stepsLeft (n : Nat) (running : Bool) : Pc → Nat
  | .idle | .exited => 0
  | .registerLock _ => 3
  | .registerLink _ => 2
  | .registerUnlock _ => 1
  | .spanEnd _ _ _ .loadTail => 3
  | .spanEnd _ _ _ .copy => 2
  | .spanEnd _ _ _ .storeHead => 1
  | .unregisterLock _ => passSteps 1 + 7
  | .unregisterWrlock _ => passSteps 1 + 6
  | .unregisterEnabled _ => passSteps 1 + 5
  | .unregisterPass .. | .unregisterUnlink _ => 4
  | .unregisterWrunlock _ => 3
  | .unregisterUnlock _ => 2
  | .unregisterFree _ => 1
  | .drainEnabled k => drainSteps n + k.stepsLeft n running
  | .drainLock k => passSteps n + 4 + k.stepsLeft n running
  | .drainRdlock k => passSteps n + 3 + k.stepsLeft n running
  | .drainPass k .. | .drainRdunlock k _ => 2 + k.stepsLeft n running
  | .drainUnlock k _ => 1 + k.stepsLeft n running
  | .flusherLock => Caller.flusher.stepsLeft n running
  | .flusherTest => if running then drainSteps n + 8 else 2
  | .flusherWait => drainSteps n + 7
  | .flusherAsleep => drainSteps n + 6
  | .flusherRelock => drainSteps n + 2 + Caller.flusher.stepsLeft n running
  | .flusherUnlock => drainSteps n + 1 + Caller.flusher.stepsLeft n running
  | .flusherLeave => 1
  | .closeTest => drainSteps n + 10
  | .closeLock => drainSteps n + 9
  | .closeClear => drainSteps n + 8
  | .closeSignal => drainSteps n + 7
  | .closeUnlock => drainSteps n + 6
  | .closeJoin => drainSteps n + 5
  | .closeFinalize => 1
  | .detachSink close => if close then 4 else 3
  | .detachPresent close => if close then 3 else 2
  | .detachEnabled close => if close then 2 else 1

/-- A bound on the steps that are left of the call that thread `t` is in. -/
def Process.callSteps (n : Nat) (σ : Process) (t : ThreadId) : Nat :=
  σ.stepsLeft t + (σ.pcs t).stepsLeft n σ.running

/-- Stopping the flusher leaves it less to do. -/
theorem stepsLeft_stop (n : Nat) (running : Bool) (pc : Pc) :
    pc.stepsLeft n false ≤ pc.stepsLeft n running := by
  have hcaller : ∀ k : Caller, k.stepsLeft n false ≤ k.stepsLeft n running := by
    intro k
    cases running with
    | false => exact le_rfl
    | true =>
      cases k with
      | user | close => exact le_rfl
      | flusher =>
        simp only [Caller.stepsLeft, Bool.false_eq_true, if_false, if_true]
        omega
  cases running with
  | false => exact le_rfl
  | true =>
    cases pc with
    | drainEnabled k | drainLock k | drainRdlock k | drainPass k | drainRdunlock k | drainUnlock k =>
      exact Nat.add_le_add_left (hcaller k) _
    | flusherLock => exact hcaller .flusher
    | flusherRelock | flusherUnlock => exact Nat.add_le_add_left (hcaller .flusher) _
    | flusherTest =>
      simp only [Pc.stepsLeft, Bool.false_eq_true, if_false, if_true]
      omega
    | spanEnd a s head e => cases e <;> exact le_rfl
    | _ => exact le_rfl

theorem stepsLeft_ret (n : Nat) (running : Bool) (k : Caller) :
    k.ret.stepsLeft n running = k.stepsLeft n running := by
  cases k with
  | user | flusher | close => rfl

/-- A move of a thread to a place outside of passes. -/
theorem callSteps_move (hpc : σ.pcs t = pc) (hself : σ'.pcs t = pc') (hpass : pc'.pass = none)
    (hrunning : σ'.running = σ.running ∨ σ'.running = false)
    (hlt : pc'.stepsLeft n σ.running < pc.stepsLeft n σ.running) :
    σ'.callSteps n t < σ.callSteps n t := by
  have hzero : σ'.stepsLeft t = 0 := by
    unfold Process.stepsLeft
    rw [hself]
    cases pc' with
    | unregisterPass | drainPass => cases hpass
    | _ => rfl
  have hle : pc'.stepsLeft n σ'.running ≤ pc'.stepsLeft n σ.running := by
    rcases hrunning with hsame | hstopped
    · rw [hsame]
    · rw [hstopped]
      exact stepsLeft_stop n σ.running pc'
  unfold Process.callSteps
  rw [hzero, hself, hpc]
  omega

theorem callSteps_self (h : σ.HeapOk) (hwoken : σ.WokenOk)
    (hn : σ.shared.tracer.threads.length ≤ n) (hstep : Stepped pack σ t σ') :
    σ'.callSteps n t < σ.callSteps n t := by
  have hself : ∀ pc', Function.update σ.pcs t pc' t = pc' := fun _ => Function.update_self ..
  have hpassing : (σ.pcs t).pass ≠ none → (σ'.pcs t).stepsLeft n σ'.running ≤
      (σ.pcs t).stepsLeft n σ.running → σ'.callSteps n t < σ.callSteps n t := by
    intro hin hle
    have hlt := stepsLeft_self h hin hstep
    unfold Process.callSteps
    omega
  cases hstep with
  | unregisterPass a p p' v v' m hpc hpass | unregisterPassed a p v v' m hpc hpass
  | drainPass k p p' v v' m hpc hpass | drainPassed k p v v' m hpc hpass =>
    refine hpassing ?_ ?_
    · rw [hpc]
      rintro ⟨⟩
    · simp only [Process.goto, hself, hpc]
      exact le_rfl
  | unregisterStart a hpc henabled =>
    simp only [Process.callSteps, Process.stepsLeft, Process.goto, hself, hpc, Pc.stepsLeft,
      PassPc.stepsLeft, Site.stepsLeft, passSteps, List.length_singleton]
    omega
  | drainRdlock k hpc hcan =>
    have hmul := Nat.mul_le_mul_right ringSteps hn
    simp only [Process.callSteps, Process.stepsLeft, Process.goto, hself, hpc, Pc.stepsLeft,
      PassPc.stepsLeft, Site.stepsLeft, passSteps]
    omega
  | drainSkip k hpc henabled =>
    refine callSteps_move hpc (hself _) ?_ (Or.inl rfl) ?_
    · cases k with
      | user | flusher | close => rfl
    · rw [stepsLeft_ret]
      simp only [Pc.stepsLeft, drainSteps]
      omega
  | drainUnlock k v hpc =>
    refine callSteps_move hpc (hself _) ?_ (Or.inl rfl) ?_
    · cases k with
      | user | flusher | close => rfl
    · rw [stepsLeft_ret]
      simp only [Pc.stepsLeft]
      omega
  | spanEnd a s head e e' m hpc hend =>
    refine callSteps_move hpc (hself _) rfl (Or.inl rfl) ?_
    cases endStep_cases hend with
    | room | copy => simp only [Pc.stepsLeft]; omega
  | spanEnded a s head e m hpc hend =>
    refine callSteps_move hpc (hself _) rfl (Or.inl rfl) ?_
    cases endStep_cases hend with
    | full | storeHead => simp only [Pc.stepsLeft]; omega
  | flusherAsleep hpc hsignaled =>
    -- it goes round its loop only if it has not to stop
    obtain rfl := h.control.roles.is_flusher hpc rfl
    refine callSteps_move hpc (hself _) rfl (Or.inl rfl) ?_
    rw [hwoken hpc hsignaled]
    simp only [Pc.stepsLeft, Caller.stepsLeft, Bool.false_eq_true, if_false]
    omega
  | flusherGoOn hpc hrunning =>
    refine callSteps_move hpc (hself _) rfl (Or.inl rfl) ?_
    rw [hrunning]
    simp only [Pc.stepsLeft, if_true]
    omega
  | flusherStop hpc hrunning =>
    refine callSteps_move hpc (hself _) rfl (Or.inl rfl) ?_
    rw [hrunning]
    simp only [Pc.stepsLeft, Bool.false_eq_true, if_false]
    omega
  | flusherLock hpc hfree =>
    refine callSteps_move hpc (hself _) rfl (Or.inl rfl) ?_
    simp only [Pc.stepsLeft, Caller.stepsLeft]
    split <;> omega
  | closeClear hpc =>
    refine callSteps_move hpc (hself _) rfl (Or.inr rfl) ?_
    simp only [Pc.stepsLeft]
    omega
  | detachSink close hpc | detachPresent close hpc =>
    refine callSteps_move hpc (hself _) rfl (Or.inl rfl) ?_
    cases close with
    | false | true => exact Nat.lt_succ_self _
  | detachEnabled close hpc =>
    refine callSteps_move hpc (hself _) ?_ (Or.inl rfl) ?_
    · cases close with
      | false | true => rfl
    · cases close with
      | false | true => exact Nat.lt_succ_self _
  | _ =>
    refine callSteps_move (by assumption) (hself _) ?_ ?_ ?_
    · rfl
    · exact Or.inl rfl
    · simp only [Pc.stepsLeft, Caller.stepsLeft, drainSteps]
      omega

/-- A step starts no other thread of the flusher. -/
theorem running_thread (hstep : Stepped pack σ t σ') :
    σ'.running = σ.running ∨ σ'.running = false := by
  cases hstep with
  | closeClear hpc => exact Or.inr rfl
  | _ => exact Or.inl rfl

theorem stepsLeft_outside (h : (σ.pcs t).pass = none) : σ.stepsLeft t = 0 := by
  unfold Process.stepsLeft
  cases hpc : σ.pcs t with
  | unregisterPass | drainPass =>
    rw [hpc] at h
    cases h
  | _ => rfl

theorem callSteps_other (h : σ.HeapOk) (hut : u ≠ t) (he : σ.Ready t)
    (hstep : threadStep pack σ t = .ok σ') : σ'.callSteps n u ≤ σ.callSteps n u := by
  replace hstep : processStep pack σ (.step t) = .ok σ' := hstep
  have hpc : σ'.pcs u = σ.pcs u := by
    refine step_other (a := .step t) he hstep ⟨?_, ?_⟩
    · rintro ⟨⟩
    · exact Ne.symm hut
  have hpass : σ'.stepsLeft u = σ.stepsLeft u := by
    by_cases hin : (σ.pcs u).pass = none
    · rw [stepsLeft_outside hin, stepsLeft_outside (hpc ▸ hin)]
    · refine stepsLeft_other (x := .step t) h.control.locks hin ?_ he hstep
      simp [Act.isStep, Ne.symm hut]
  have hle : (σ.pcs u).stepsLeft n σ'.running ≤ (σ.pcs u).stepsLeft n σ.running := by
    rcases running_thread (step_cases he hstep) with hsame | hstopped
    · rw [hsame]
    · rw [hstopped]
      exact stepsLeft_stop n σ.running _
  unfold Process.callSteps
  rw [hpass, hpc]
  exact Nat.add_le_add_left hle _

/-! ## Finitely many threads and contexts -/

/-- The threads that are not idle are in `ts`, and the contexts that there are in `as`. -/
structure Process.Within (ts : Finset ThreadId) (as : List CtxAddr) (σ : Process) : Prop where
  threads : ∀ t, t ∉ ts → σ.pcs t = .idle
  ctxs : ∀ a, (σ.shared.tracer.ctxs a).isSome → a ∈ as

theorem Process.Within.registry {ts : Finset ThreadId} {as : List CtxAddr} (h : σ.Within ts as)
    (hown : σ.OwnOk) : σ.shared.tracer.threads.length ≤ as.length := by
  refine (List.subperm_of_subset hown.nodup ?_).length_le
  intro a ha
  exact h.ctxs a (hown.linked_live ha)

theorem Process.Within.thread {ts : Finset ThreadId} {as : List CtxAddr} (h : σ.Within ts as)
    (he : σ.Ready t) (hstep : threadStep pack σ t = .ok σ') : t ∈ ts ∧ σ'.Within ts as := by
  have ht : t ∈ ts := by
    by_contra ht
    unfold Process.Ready at he
    rw [h.threads t ht] at he
    exact he
  refine ⟨ht, ?_, ?_⟩
  · intro u hu
    have hut : u ≠ t := by
      rintro rfl
      exact hu ht
    have hpc : σ'.pcs u = σ.pcs u := by
      replace hstep : processStep pack σ (.step t) = .ok σ' := hstep
      refine step_other (a := .step t) he hstep ⟨?_, ?_⟩
      · rintro ⟨⟩
      · exact Ne.symm hut
    rw [hpc]
    exact h.threads u hu
  · intro a ha
    exact h.ctxs a (live_thread (step_cases he hstep) ha)

theorem within_call {ts : Finset ThreadId} {as : List CtxAddr} {c : ThreadCall}
    (h : σ.Within ts as) (hstep : callStep σ t c = .ok σ') :
    ∃ as', σ'.Within (insert t ts) as' := by
  have hmove : ∀ pc', ∀ u ∉ insert t ts, Function.update σ.pcs t pc' u = .idle := by
    intro pc' u hu
    rw [Finset.mem_insert, not_or] at hu
    rw [Function.update_of_ne hu.1]
    exact h.threads u hu.2
  have hsame : ∀ u ∉ insert t ts, σ.pcs u = .idle := by
    intro u hu
    rw [Finset.mem_insert, not_or] at hu
    exact h.threads u hu.2
  cases call_cases hstep with
  | refused | drop | setRingCapacity => exact ⟨as, hsame, h.ctxs⟩
  | register a seed now htls =>
    refine ⟨a :: as, hmove _, ?_⟩
    intro b hb
    rw [List.mem_cons]
    by_cases hab : b = a
    · exact Or.inl hab
    · replace hb : (Function.update σ.shared.tracer.ctxs a _ b).isSome := hb
      rw [Function.update_of_ne hab] at hb
      exact Or.inr (h.ctxs b hb)
  | _ => exact ⟨as, hmove _, h.ctxs⟩

theorem within_run {acts : List Act} {σ₀ : Process} (h0 : σ₀.AtRest) (hv : σ₀.Vacant)
    (hrun : (processMachine pack).Run σ₀ acts σ) : ∃ ts as, σ.Within ts as := by
  have hstart : σ₀.Within {σ₀.flusher} [] := by
    refine ⟨fun t ht => h0.idle t (by simpa using ht), ?_⟩
    intro a ha
    rw [hv.ctxs a] at ha
    cases ha
  refine hrun.invariant (I := fun σ => ∃ ts as, σ.Within ts as) ⟨_, _, hstart⟩ ?_
  rintro σ x - σ' ⟨ts, as, h⟩ he hstep
  cases x with
  | timer =>
    cases hstep
    refine ⟨insert σ.flusher ts, as, ?_, h.ctxs⟩
    intro u hu
    rw [Finset.mem_insert, not_or] at hu
    show Function.update σ.pcs σ.flusher _ u = _
    rw [Function.update_of_ne hu.1]
    exact h.threads u hu.2
  | step t => exact ⟨ts, as, (h.thread he hstep).2⟩
  | call t c => exact ⟨_, within_call h hstep⟩

/-! ## Runs of steps -/

/-- The action is the next step of a thread that is in a call, or of the flusher. -/
def Process.OnlySteps (_ : Process) : Act → Prop
  | .step _ => True
  | _ => False

/-- A bound on the steps that the threads `ts` have left. -/
def Process.totalSteps (ts : Finset ThreadId) (n : Nat) (σ : Process) : Nat :=
  ∑ t ∈ ts, σ.callSteps n t

/-- What is known in every state of a run of steps. -/
structure Process.ReturnOk (ts : Finset ThreadId) (as : List CtxAddr) (σ : Process) : Prop where
  heap : σ.HeapOk
  woken : σ.WokenOk
  within : σ.Within ts as

theorem returnOk_step {ts : Finset ThreadId} {as : List CtxAddr} {x : Act}
    (h : σ.ReturnOk ts as) (he : x.Possible σ) (honly : σ.OnlySteps x)
    (hstep : processStep pack σ x = .ok σ') :
    σ'.ReturnOk ts as ∧ σ'.totalSteps ts as.length < σ.totalSteps ts as.length := by
  cases x with
  | timer => cases honly
  | call t c => cases honly
  | step t =>
    obtain ⟨ht, hwithin⟩ := h.within.thread he hstep
    refine ⟨⟨heapOk_step h.heap he hstep, wokenOk_step h.woken h.heap.control he hstep, hwithin⟩, ?_⟩
    refine Finset.sum_lt_sum ?_ ⟨t, ht, ?_⟩
    · intro u _
      by_cases hut : u = t
      · subst hut
        exact (callSteps_self h.heap h.woken (h.within.registry h.heap.own)
          (step_cases he hstep)).le
      · exact callSteps_other h.heap hut he hstep
    · exact callSteps_self h.heap h.woken (h.within.registry h.heap.own) (step_cases he hstep)

theorem wokenOk_run {acts : List Act} {σ₀ : Process} (h0 : σ₀.AtRest)
    (hrun : (processMachine pack).Run σ₀ acts σ) : σ.ControlOk ∧ σ.WokenOk := by
  have hstart : σ₀.WokenOk := by
    intro hpc
    rcases atRest_flusher h0 with hrest | hrest
    · rw [hrest] at hpc
      cases hpc
    · rw [hrest] at hpc
      cases hpc
  refine hrun.invariant (I := fun σ => σ.ControlOk ∧ σ.WokenOk) ⟨controlOk_atRest h0, hstart⟩ ?_
  rintro σ x - σ' ⟨hcontrol, hwoken⟩ he hstep
  exact ⟨controlOk_step hcontrol he hstep, wokenOk_step hwoken hcontrol he hstep⟩

/-! ## Calls return -/

/-- When no thread is ready, no call is in progress; and the flusher sleeps, unless it has exited. -/
theorem quiet_of_unready (h : σ.ControlOk) (hquiet : ∀ t, ¬ σ.Ready t) :
    (∀ t, t ≠ σ.flusher → σ.pcs t = .idle) ∧
      (σ.pcs σ.flusher = .exited ∨ σ.pcs σ.flusher = .flusherAsleep ∧ σ.closeCalled = false) := by
  have hprogress : ∀ {q : Prop}, (∃ u, σ.Ready u) → q := by
    rintro q ⟨u, hu⟩
    exact absurd hu (hquiet u)
  have hnojoin : ∀ t, σ.pcs t ≠ .closeJoin := by
    intro t hjoin
    obtain ⟨rfl, hcalled⟩ := h.roles.is_closer hjoin rfl
    rcases join_progress h.locks h.roles h.stop hjoin with hready | ⟨hidle, -⟩
    · exact hprogress hready
    · rw [hjoin] at hidle
      cases hidle
  refine ⟨?_, ?_⟩
  · intro t ht
    by_contra hidle
    have hother : (σ.pcs t).ofFlusher ≠ true := fun hf => ht ((h.roles.flusher t).mp hf)
    refine hprogress (thread_progress h.locks hidle ?_ ?_ (hnojoin t))
    · intro hpc
      exact hother (by rw [hpc]; rfl)
    · intro hpc
      exact hother (by rw [hpc]; rfl)
  · by_cases hasleep : σ.pcs σ.flusher = .flusherAsleep
    · rcases asleep_progress h.locks h.roles h.stop hasleep with hready | ⟨-, hcalled⟩
      · exact hprogress hready
      · exact Or.inr ⟨hasleep, hcalled⟩
    · refine Or.inl ?_
      by_contra hexited
      have hflusher : (σ.pcs σ.flusher).ofFlusher = true := (h.roles.flusher _).mpr rfl
      refine hprogress (thread_progress h.locks ?_ hexited hasleep (hnojoin _))
      intro hpc
      rw [hpc] at hflusher
      cases hflusher

/-! ## Steps do not fail -/

/-- The sink is there where a pass dereferences it, and the encoder does what the passes ask of it. -/
structure Process.PassesOk (pack : Proto.ExportTraceServiceRequest → Bytes) (σ : Process) : Prop where
  deref : ∀ t f site, (σ.pcs t).site = some (f, site) →
    siteStep σ.shared.tracer f site ≠ .error .nullDeref
  unregister : ∀ t a p v, σ.pcs t = .unregisterPass a p v → p.Encodes pack σ.shared v
  drain : ∀ t k p v, σ.pcs t = .drainPass k p v → p.Encodes pack σ.shared v

theorem site_ok {tr : Tracer} {f : Callback} {site : Site}
    (h : siteStep tr f site ≠ .error .nullDeref) : ∃ x, siteStep tr f site = .ok x := by
  cases site with
  | present => exact ⟨_, rfl⟩
  | call => exact ⟨_, rfl⟩
  | test | fetch | priv =>
    cases hsink : tr.sink with
    | none =>
      have hderef : tr.derefSink = .error .nullDeref := by rw [Tracer.derefSink, hsink]
      rw [siteStep, hderef] at h
      exact absurd rfl h
    | some sink =>
      have hderef : tr.derefSink = .ok sink := by rw [Tracer.derefSink, hsink]
      rw [siteStep, hderef]
      exact ⟨_, rfl⟩

theorem pass_ok {m : Shared} {p : PassPc} {v : PassVars} (ctxs : List CtxAddr)
    (hsite : ∀ f site, p.site = some (f, site) → ∃ x, siteStep m.tracer f site = .ok x)
    (hlive : ∀ a ∈ p.ring.toList ++ v.rest, ∃ c, m.tracer.ctxs a = some c)
    (hencodes : p.Encodes pack m v) : ∃ r, passStep pack m ctxs v p = .ok r := by
  unfold passStep
  cases p with
  | begin site | finish site =>
    obtain ⟨x, hx⟩ := hsite _ _ rfl
    simp only [hx]
    cases x with
    | stay | skip | called => exact ⟨_, rfl⟩
  | emit a site =>
    obtain ⟨c, hc⟩ := hlive a (by simp [PassPc.ring])
    obtain ⟨x, hx⟩ := hsite _ _ rfl
    simp only [hx, deref_of_live hc]
    cases x with
    | stay | skip | called => exact ⟨_, rfl⟩
  | walk =>
    cases hrest : v.rest with
    | nil => exact ⟨_, rfl⟩
    | cons a rest =>
      obtain ⟨c, hc⟩ := hlive a (by simp [hrest])
      simp only [deref_of_live hc]
      exact ⟨_, rfl⟩
  | loadHead a =>
    obtain ⟨c, hc⟩ := hlive a (by simp [PassPc.ring])
    simp only [deref_of_live hc]
    exact ⟨_, rfl⟩
  | loop a =>
    obtain ⟨c, hc⟩ := hlive a (by simp [PassPc.ring])
    simp only [deref_of_live hc]
    by_cases heq : v.tail = v.head
    · exact ⟨_, if_pos heq⟩
    · obtain ⟨tr, htr⟩ := hencodes c hc heq
      have hadd : ∃ m', m.add pack ⟨a, c.slot v.tail⟩ = .ok m' := ⟨_, by rw [Shared.add, htr]; rfl⟩
      obtain ⟨m', hm'⟩ := hadd
      refine ⟨(m', some (.emit a .present), v), (if_neg heq).trans ?_⟩
      rw [hm']
      rfl
  | flush =>
    obtain ⟨tr, htr⟩ := hencodes
    simp only [htr]
    exact ⟨_, rfl⟩

theorem end_ok {m : Shared} {c : OtelThreadCtx} (hc : m.tracer.ctxs a = some c) (s : OtelSpan)
    (head : UInt64) (e : EndPc) : ∃ r, endStep m a s head e = .ok r := by
  unfold endStep
  cases e with
  | loadTail =>
    simp only [deref_of_live hc]
    by_cases hfull : head - c.tail ≥ c.capacity.toUInt64
    · exact ⟨_, if_pos hfull⟩
    · exact ⟨_, if_neg hfull⟩
  | copy | storeHead =>
    simp only [deref_of_live hc]
    exact ⟨_, rfl⟩

theorem Process.HeapOk.served_live (h : σ.HeapOk) (ha : (σ.pcs t).serving = some a) :
    ∃ c, σ.shared.tracer.ctxs a = some c :=
  Option.isSome_iff_exists.mp (h.own.live t a (h.own.owns_serving ha))

/-- Only steps of passes may fail. -/
theorem ready_ok (h : σ.HeapOk) (hok : σ.PassesOk pack) (t : ThreadId) :
    ∃ σ', threadStep pack σ t = .ok σ' := by
  unfold threadStep
  have hdrained : ∀ a ∈ (σ.pcs t).todo, ∃ c, σ.shared.tracer.ctxs a = some c :=
    fun a ha => h.todo_live ha
  have hsite : ∀ f site, (σ.pcs t).site = some (f, site) →
      ∃ x, siteStep σ.shared.tracer f site = .ok x :=
    fun f site hf => site_ok (hok.deref t f site hf)
  cases hpc : σ.pcs t with
  | spanEnd a s head e =>
    obtain ⟨c, hc⟩ := h.served_live (t := t) (a := a) (by rw [hpc]; rfl)
    obtain ⟨r, hr⟩ := end_ok hc s head e
    simp only [hr]
    exact ⟨_, rfl⟩
  | unregisterPass a p v =>
    rw [hpc] at hdrained hsite
    obtain ⟨r, hr⟩ := pass_ok [a] hsite hdrained (hok.unregister t a p v hpc)
    simp only [hr]
    exact ⟨_, rfl⟩
  | drainPass k p v =>
    rw [hpc] at hdrained hsite
    obtain ⟨r, hr⟩ := pass_ok σ.shared.tracer.threads hsite hdrained (hok.drain t k p v hpc)
    simp only [hr]
    exact ⟨_, rfl⟩
  | unregisterUnlink a =>
    have hunlink := unlink_eq_erase (t := σ.shared.tracer) (a := a)
      (fun b hb => h.own.linked_live (a := b) hb)
    simp only [Shared.unlink, hunlink]
    exact ⟨_, rfl⟩
  | unregisterFree a =>
    obtain ⟨c, hc⟩ := h.served_live (t := t) (a := a) (by rw [hpc]; rfl)
    simp only [Shared.free, Tracer.free, deref_of_live hc]
    exact ⟨_, rfl⟩
  | _ => exact ⟨_, rfl⟩

/-- From every state that the process reaches the calls in progress return after a bounded number of
steps, in whatever order the threads take them: a run of steps is no longer than the bound, and as long
as not all calls have returned, some thread can take its next step, if no pass is about to dereference
a sink that was detached or to fail in the encoder. The flusher then sleeps until the timer, or has
exited, which it has if `otel_sqlite_close` was called. -/
theorem calls_return (pack : Proto.ExportTraceServiceRequest → Bytes) (σ₀ σ : Process)
    (acts : List Act) (h0 : σ₀.AtRest) (hv : σ₀.Vacant)
    (hrun : (processMachine pack).Run σ₀ acts σ) :
    ∃ bound : Nat, ∀ (steps : List Act) (σ' : Process),
      ((processMachine pack).restrict Process.OnlySteps).Run σ steps σ' →
        steps.length ≤ bound ∧
        (σ'.PassesOk pack → (∃ t σ'', σ'.Ready t ∧ threadStep pack σ' t = .ok σ'') ∨
          (∀ t, t ≠ σ'.flusher → σ'.pcs t = .idle) ∧
            (σ'.pcs σ'.flusher = .exited ∨
              σ'.pcs σ'.flusher = .flusherAsleep ∧ σ'.closeCalled = false)) := by
  obtain ⟨hcontrol, hwoken⟩ := wokenOk_run h0 hrun
  obtain ⟨ts, as, hwithin⟩ := within_run h0 hv hrun
  have hok : σ.ReturnOk ts as := ⟨heapOk_run h0 hv hrun, hwoken, hwithin⟩
  refine ⟨σ.totalSteps ts as.length, ?_⟩
  intro steps σ' hsteps
  obtain ⟨hok', hle⟩ := hsteps.length_le (I := Process.ReturnOk ts as)
    (Process.totalSteps ts as.length) hok fun σ₁ x σ₂ h he hstep => returnOk_step h he.1 he.2 hstep
  refine ⟨by omega, ?_⟩
  intro hpasses
  by_cases hready : ∃ t, σ'.Ready t
  · obtain ⟨t, ht⟩ := hready
    obtain ⟨σ'', hstep⟩ := ready_ok hok'.heap hpasses t
    exact Or.inl ⟨t, σ'', ht, hstep⟩
  · exact Or.inr (quiet_of_unready hok'.heap.control (not_exists.mp hready))

/-- Thread 2 has begun to drain, and thread 1 has called `otel_sqlite_close`. -/
theorem calls_return_sample : ∃ (σ : Process) (bound : Nat),
    σ.pcs 2 = .drainLock .user ∧ σ.pcs 1 = .closeTest ∧ ∀ (steps : List Act) (σ' : Process),
      ((processMachine fun _ => []).restrict Process.OnlySteps).Run σ steps σ' →
        steps.length ≤ bound ∧ (σ'.PassesOk (fun _ => []) →
          (∃ t σ'', σ'.Ready t ∧ threadStep (fun _ => []) σ' t = .ok σ'') ∨
          (∀ t, t ≠ σ'.flusher → σ'.pcs t = .idle) ∧
            (σ'.pcs σ'.flusher = .exited ∨
              σ'.pcs σ'.flusher = .flusherAsleep ∧ σ'.closeCalled = false)) := by
  have hrun : ∃ σ : Process, σ.pcs 2 = .drainLock .user ∧ σ.pcs 1 = .closeTest ∧
      (processMachine fun _ => []).Run (Process.start storingTracer true 0 1)
        [.step 0, .call 2 .drain, .step 2, .call 1 .close] σ :=
    ⟨_, rfl, rfl, .cons rfl rfl (.cons ⟨rfl, trivial⟩ rfl (.cons trivial rfl
      (.cons ⟨rfl, rfl, rfl⟩ rfl .nil)))⟩
  obtain ⟨σ, h2, h1, h⟩ := hrun
  have hvacant : (Process.start storingTracer true 0 1).Vacant :=
    ⟨fun _ => rfl, fun _ => rfl, rfl, ⟨11, by decide, rfl⟩, fun _ => rfl, rfl, rfl, rfl⟩
  obtain ⟨bound, hbound⟩ := calls_return (fun _ => []) _ σ _
    (start_atRest storingTracer true (by decide)) hvacant h
  exact ⟨σ, bound, h2, h1, hbound⟩

end OtelTracing
