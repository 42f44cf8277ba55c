import OtelTracing.Proofs.AvoidProofs
import Mathlib.Data.List.Nodup

/-!
# Proofs: the thread registry

As long as no thread is registered when the tracer is torn down or set up again, the registry, the
heap and the threads' own pointers agree, so no function acts on a freed context.
-/

namespace OtelTracing

open ByteMem Outcome

variable {pack : Proto.ExportTraceServiceRequest → Bytes} {t t' : Tracer} {a : CtxAddr}

/-! ## Draining and freeing keep the registry -/

/-- Passes leave the registry alone. -/
theorem RegistryOk.drained (h : RegistryOk t) (as : List CtxAddr) (o : OtelOtlp Slot)
    (out : List Output) (emitted : Nat) : RegistryOk { t with
      otlp := o, out := out, emitted := emitted, ctxs := drainedCtxs as t.ctxs } where
  nodup := h.nodup
  live_iff a := by
    rw [isSome_drainedCtxs]
    exact h.live_iff a
  listed := h.listed
  owned := h.owned
  distinct := h.distinct

theorem RegistryOk.drainPass (h : RegistryOk t) {as : List CtxAddr} {n : Int32} (hnodup : as.Nodup)
    (hpass : drainPass pack t as = .ok (t', n)) :
    RegistryOk t' ∧ t'.threads = t.threads ∧ t'.tls = t.tls := by
  obtain ⟨o, out, rfl⟩ := drainPass_frame hnodup hpass
  exact ⟨h.drained as o out _, rfl, rfl⟩

/-- The part of `otelThreadUnregister` after the pass. -/
theorem RegistryOk.unregister (h : RegistryOk t) {tid : ThreadId} (htls : t.tls tid = some a) :
    RegistryOk { t with
      threads := t.threads.erase a
      ctxs := Function.update t.ctxs a none
      tls := Function.update t.tls tid none } where
  nodup := h.nodup.erase a
  live_iff b := by
    rw [h.nodup.mem_erase_iff]
    by_cases hb : b = a
    · simp [hb]
    · simpa [hb] using h.live_iff b
  listed tid' b hb := by
    replace hb : Function.update t.tls tid none tid' = some b := hb
    by_cases htid : tid' = tid
    · simp [htid] at hb
    · rw [Function.update_of_ne htid] at hb
      have hne : b ≠ a := by
        rintro rfl
        exact htid (h.distinct tid' tid b hb htls)
      exact (List.mem_erase_of_ne hne).mpr (h.listed tid' b hb)
  owned b hb := by
    obtain ⟨hne, hmem⟩ := h.nodup.mem_erase_iff.mp hb
    obtain ⟨tid', htid'⟩ := h.owned b hmem
    have hother : tid' ≠ tid := by
      rintro rfl
      exact hne (Option.some.inj (htid'.symm.trans htls))
    exact ⟨tid', by simpa [hother] using htid'⟩
  distinct tid₁ tid₂ b h1 h2 := by
    replace h1 : Function.update t.tls tid none tid₁ = some b := h1
    replace h2 : Function.update t.tls tid none tid₂ = some b := h2
    by_cases ht1 : tid₁ = tid
    · simp [ht1] at h1
    · by_cases ht2 : tid₂ = tid
      · simp [ht2] at h2
      · rw [Function.update_of_ne ht1] at h1
        rw [Function.update_of_ne ht2] at h2
        exact h.distinct tid₁ tid₂ b h1 h2

theorem RegistryOk.register (h : RegistryOk t) {tid : ThreadId} (htls : t.tls tid = none)
    (hfree : t.ctxs a = none) (c : OtelThreadCtx) :
    RegistryOk { t with
      threads := a :: t.threads
      ctxs := Function.update t.ctxs a (some c)
      tls := Function.update t.tls tid (some a) } := by
  have hnew : a ∉ t.threads := by
    intro hmem
    have hlive := (h.live_iff a).mpr hmem
    rw [hfree] at hlive
    cases hlive
  refine
    { nodup := List.nodup_cons.mpr ⟨hnew, h.nodup⟩
      live_iff := ?_
      listed := ?_
      owned := ?_
      distinct := ?_ }
  · intro b
    by_cases hb : b = a
    · simp [hb]
    · simpa [hb] using h.live_iff b
  · intro tid' b hb
    replace hb : Function.update t.tls tid (some a) tid' = some b := hb
    by_cases htid : tid' = tid
    · rw [htid, Function.update_self] at hb
      obtain rfl := Option.some.inj hb
      exact List.mem_cons_self
    · rw [Function.update_of_ne htid] at hb
      exact List.mem_cons_of_mem _ (h.listed tid' b hb)
  · intro b hb
    rcases List.mem_cons.mp hb with rfl | hb
    · exact ⟨tid, Function.update_self ..⟩
    · obtain ⟨tid', htid'⟩ := h.owned b hb
      have hother : tid' ≠ tid := by
        rintro rfl
        rw [htls] at htid'
        cases htid'
      exact ⟨tid', by simpa [hother] using htid'⟩
  · -- the other threads' contexts are in the old list, which the new address is not
    have hold : ∀ tid', tid' ≠ tid → t.tls tid' ≠ some a := by
      intro tid' _ htid'
      exact hnew (h.listed tid' a htid')
    intro tid₁ tid₂ b h1 h2
    replace h1 : Function.update t.tls tid (some a) tid₁ = some b := h1
    replace h2 : Function.update t.tls tid (some a) tid₂ = some b := h2
    by_cases ht1 : tid₁ = tid
    · by_cases ht2 : tid₂ = tid
      · rw [ht1, ht2]
      · rw [ht1, Function.update_self] at h1
        rw [Function.update_of_ne ht2, ← h1] at h2
        exact absurd h2 (hold tid₂ ht2)
    · rw [Function.update_of_ne ht1] at h1
      by_cases ht2 : tid₂ = tid
      · rw [ht2, Function.update_self] at h2
        rw [← h2] at h1
        exact absurd h1 (hold tid₁ ht1)
      · rw [Function.update_of_ne ht2] at h2
        exact h.distinct tid₁ tid₂ b h1 h2

/-! ## Steps -/

/-- The invariant only depends on the list, on which contexts are live and on the threads' pointers. -/
theorem RegistryOk.congr (h : RegistryOk t) (hthreads : t'.threads = t.threads)
    (hctxs : ∀ a, (t'.ctxs a).isSome = (t.ctxs a).isSome) (htls : t'.tls = t.tls) :
    RegistryOk t' where
  nodup := by rw [hthreads]; exact h.nodup
  live_iff a := by rw [hthreads, hctxs]; exact h.live_iff a
  listed tid a ha := by rw [hthreads]; rw [htls] at ha; exact h.listed tid a ha
  owned a ha := by rw [htls]; rw [hthreads] at ha; exact h.owned a ha
  distinct tid tid' a h1 h2 := by rw [htls] at h1 h2; exact h.distinct tid tid' a h1 h2

theorem isSome_update {ctxs : CtxAddr → Option OtelThreadCtx} (h : (ctxs a).isSome)
    (c' : OtelThreadCtx) (b : CtxAddr) :
    (Function.update ctxs a (some c') b).isSome = (ctxs b).isSome := by
  by_cases hb : b = a
  · simp [hb, h]
  · simp [hb]

/-- Shutting down frees every context of the registry once. -/
theorem freeAll_eq {as : List CtxAddr} (hnodup : as.Nodup) (h : ∀ a ∈ as, (t.ctxs a).isSome) :
    as.foldlM Tracer.free t = .ok { t with ctxs := fun a => if a ∈ as then none else t.ctxs a } := by
  induction as generalizing t with
  | nil => simp [Pure.pure, Except.pure]
  | cons a as ih =>
    obtain ⟨hnot, hnodup⟩ := List.nodup_cons.mp hnodup
    obtain ⟨c, hc⟩ := Option.isSome_iff_exists.mp (h a (by simp))
    have hfree : t.free a = .ok { t with ctxs := Function.update t.ctxs a none } := by
      rw [Tracer.free, deref_of_live hc]
      rfl
    have hrest : ∀ b ∈ as, (Function.update t.ctxs a none b).isSome := by
      intro b hb
      have hne : b ≠ a := fun heq => hnot (heq ▸ hb)
      rw [Function.update_of_ne hne]
      exact h b (List.mem_cons_of_mem _ hb)
    rw [List.foldlM_cons, hfree]
    refine (ih (t := { t with ctxs := Function.update t.ctxs a none }) hnodup hrest).trans ?_
    congr 2
    funext b
    by_cases hb : b = a
    · simp [hb]
    · simp [hb]

theorem otelThreadUnregister_registry (h : RegistryOk t) {tid : ThreadId}
    (hstep : otelThreadUnregister pack t tid = .ok t') : RegistryOk t' := by
  rcases unregister_cases hstep with ⟨-, rfl⟩ | ⟨a, t₁, threads, c, htls, hpass, hunlink, -, rfl⟩
  · exact h
  · have hok : RegistryOk t₁ ∧ t₁.tls = t.tls := by
      rcases whenEnabled_ok hpass with ⟨-, n, hpass⟩ | ⟨-, rfl⟩
      · obtain ⟨hok, -, htls⟩ := h.drainPass (by simp) hpass
        exact ⟨hok, htls⟩
      · exact ⟨h, rfl⟩
    rw [unlink_eq_erase fun b hb => (hok.1.live_iff b).mpr hb] at hunlink
    obtain rfl := Except.ok.inj hunlink
    exact hok.1.unregister (by rw [hok.2]; exact htls)

theorem otelDrain_registry (h : RegistryOk t) {n : Int32}
    (hstep : otelDrain pack t = .ok (t', n)) :
    RegistryOk t' ∧ t'.threads = t.threads ∧ t'.tls = t.tls := by
  unfold otelDrain at hstep
  split_ifs at hstep
  · obtain ⟨rfl, -⟩ := Prod.mk.inj (Except.ok.inj hstep)
    exact ⟨h, rfl, rfl⟩
  · exact h.drainPass h.nodup hstep

/-- The pass at the start of a shutdown. -/
theorem shutdownPass_registry (h : RegistryOk t)
    (hpass : whenEnabled t (otelDrain pack t) = .ok t') :
    RegistryOk t' ∧ t'.threads = t.threads ∧ t'.tls = t.tls := by
  rcases whenEnabled_ok hpass with ⟨-, n, hdrain⟩ | ⟨-, rfl⟩
  · exact otelDrain_registry h hdrain
  · exact ⟨h, rfl, rfl⟩

theorem otelShutdown_registry (h : RegistryOk t)
    (hnone : t.initialized = true → t.threads = [])
    (hstep : otelShutdown pack t = .ok t') : RegistryOk t' := by
  rcases shutdown_cases hstep with ⟨-, rfl⟩ | ⟨hinit, t₁, hpass, rfl⟩
  · exact h
  · obtain ⟨hok, hthreads, -⟩ := shutdownPass_registry h hpass
    rw [hnone hinit] at hthreads
    exact hok.congr hthreads.symm (fun a => by simp [hthreads]) rfl

/-- A step that meets the condition keeps the registry in order. -/
theorem registry_step (h : RegistryOk t) {op : Op} (hpos : op.Possible t)
    (hcond : NoStraggler t op) (hstep : tracerStep pack t op = .ok t') : RegistryOk t' := by
  cases op with
  | init service hostname buf =>
    obtain rfl := Except.ok.inj hstep
    cases hinit : t.initialized with
    | true =>
      rw [otelInit_of_initialized hinit]
      exact h
    | false =>
      rw [otelInit_of_not hinit]
      exact h.congr (hcond hinit).symm (fun _ => rfl) rfl
  | shutdown => exact otelShutdown_registry h hcond hstep
  | setTransport fn =>
    obtain rfl := Except.ok.inj hstep
    exact h.congr rfl (fun _ => rfl) rfl
  | setSpanSink sink =>
    obtain rfl := Except.ok.inj hstep
    exact h.congr rfl (fun _ => rfl) rfl
  | setEnabled enabled =>
    obtain rfl := Except.ok.inj hstep
    exact h.congr rfl (fun _ => rfl) rfl
  | setRingCapacity spans =>
    obtain ⟨cap, -, rfl⟩ := setRingCapacity_frame hstep
    exact h.congr rfl (fun _ => rfl) rfl
  | register tid a seed now =>
    obtain rfl := Except.ok.inj hstep
    cases htls : t.tls tid with
    | some a' =>
      rw [register_of_some (by simp [htls])]
      exact h
    | none =>
      rw [register_of_none htls]
      exact h.register htls hpos _
  | unregister tid => exact otelThreadUnregister_registry h hstep
  | start tid call s name kind now =>
    obtain ⟨r, h1, rfl⟩ := map_ok hstep
    rcases start_cases h1 with hr | ⟨a, c, rand, hc, hr⟩
    · rw [hr]
      exact h
    · rw [hr]
      exact h.congr rfl (isSome_update (by simp [hc]) _) rfl
  | finish tid s now =>
    rcases spanEnd_cases hstep with ⟨-, rfl⟩ | ⟨-, -, rfl⟩ | ⟨-, a, c, -, hc, rfl⟩
    · exact h
    · exact h.congr rfl (fun _ => rfl) rfl
    · exact h.congr rfl (isSome_update (by simp [hc]) _) rfl
  | drain =>
    obtain ⟨⟨t₁, n⟩, h1, rfl⟩ := map_ok hstep
    exact (otelDrain_registry h h1).1

theorem whenEnabled_avoids {pass : Except Fault (Tracer × Int32)}
    (h : Avoids Fault.useAfterFree pass) : Avoids Fault.useAfterFree (whenEnabled t pass) := by
  unfold whenEnabled
  split_ifs
  · exact h.map
  · exact Avoids.ok _

/-- A pass over live contexts touches no freed one. -/
theorem drainPass_avoids_freed {as : List CtxAddr} (h : ∀ a ∈ as, (t.ctxs a).isSome) :
    Avoids Fault.useAfterFree (drainPass pack t as) :=
  drainPass_avoids (Or.inl rfl) (fun heq => by cases heq) h

/-- No function acts on a freed context. -/
theorem tracerStep_avoids (h : RegistryOk t) (op : Op) :
    Avoids Fault.useAfterFree (tracerStep pack t op) := by
  have hlive : ∀ tid a, t.tls tid = some a → (t.ctxs a).isSome :=
    fun tid a htls => (h.live_iff a).mpr (h.listed tid a htls)
  have hthreads : ∀ a ∈ t.threads, (t.ctxs a).isSome := fun a ha => (h.live_iff a).mpr ha
  have hdrain : Avoids Fault.useAfterFree (otelDrain pack t) := by
    unfold otelDrain
    split_ifs
    · exact Avoids.ok _
    · exact drainPass_avoids_freed hthreads
  cases op with
  | init service hostname buf => exact Avoids.ok _
  | shutdown =>
    show Avoids _ (otelShutdown pack t)
    unfold otelShutdown
    split_ifs
    · exact Avoids.ok _
    · refine Avoids.bind (whenEnabled_avoids hdrain) fun t₁ h1 => ?_
      have hok := (shutdownPass_registry h h1).1
      rw [freeAll_eq hok.nodup fun a ha => (hok.live_iff a).mpr ha]
      exact Avoids.ok _
  | setTransport fn => exact Avoids.ok _
  | setSpanSink sink => exact Avoids.ok _
  | setEnabled enabled => exact Avoids.ok _
  | setRingCapacity spans =>
    show Avoids _ (otelSetRingCapacity t spans)
    unfold otelSetRingCapacity
    cases roundCapacity spans with
    | none => exact Avoids.error (by decide)
    | some cap => exact Avoids.ok _
  | register tid a seed now => exact Avoids.ok _
  | unregister tid =>
    show Avoids _ (otelThreadUnregister pack t tid)
    unfold otelThreadUnregister
    cases htls : t.tls tid with
    | none => exact Avoids.ok _
    | some a =>
      have hpass : Avoids Fault.useAfterFree (drainPass pack t [a]) :=
        drainPass_avoids_freed (by simpa using hlive tid a htls)
      refine Avoids.bind (whenEnabled_avoids hpass) fun t₁ h1 => ?_
      have hok : RegistryOk t₁ ∧ t₁.threads = t.threads := by
        rcases whenEnabled_ok h1 with ⟨-, n, h2⟩ | ⟨-, rfl⟩
        · obtain ⟨hok, hths, -⟩ := h.drainPass (by simp) h2
          exact ⟨hok, hths⟩
        · exact ⟨h, rfl⟩
      obtain ⟨hok, hths⟩ := hok
      rw [unlink_eq_erase fun b hb => (hok.live_iff b).mpr hb]
      refine Avoids.bind (Avoids.ok _) fun threads _ => ?_
      refine Avoids.bind (Avoids.bind (deref_avoids ?_) fun _ _ => Avoids.pure _)
        fun _ _ => Avoids.pure _
      refine (hok.live_iff a).mpr ?_
      rw [hths]
      exact h.listed tid a htls
  | start tid call s name kind now =>
    refine Avoids.map ?_
    unfold otelStart
    cases htls : t.tls tid with
    | none => exact Avoids.ok _
    | some a =>
      simp only
      split_ifs
      · exact Avoids.bind (deref_avoids (hlive tid a htls)) fun _ _ => Avoids.pure _
      · exact Avoids.ok _
  | finish tid s now =>
    show Avoids _ (otelSpanEnd t tid s now)
    unfold otelSpanEnd
    split_ifs
    · exact Avoids.ok _
    · unfold otelSpanEnd_
      cases htls : t.tls tid with
      | none => exact Avoids.ok _
      | some a =>
        simp only
        exact Avoids.bind (deref_avoids (hlive tid a htls)) fun _ _ => Avoids.pure _
  | drain => exact hdrain.map

/-! ## Runs -/

theorem RegistryOk.boot : RegistryOk Tracer.boot where
  nodup := List.nodup_nil
  live_iff a := by simp [Tracer.boot]
  listed tid a h := by simp [Tracer.boot] at h
  owned a h := by simp [Tracer.boot] at h
  distinct tid tid' a h := by simp [Tracer.boot] at h

theorem RegistryOk.run (h : RegistryOk t) {ops : List Op}
    (hrun : ((tracerMachine pack).restrict NoStraggler).Run t ops t') : RegistryOk t' :=
  hrun.invariant h fun _ _ _ _ hok he hstep => registry_step hok he.1 he.2 hstep

/-- A step that does not meet the condition leaves some thread with a context that is not in the
registry. -/
theorem straggler_step (h : RegistryOk t) {op : Op} (hcond : ¬ NoStraggler t op)
    (hstep : tracerStep pack t op = .ok t') :
    ∃ tid a, t'.tls tid = some a ∧ t'.threads.count a = 0 := by
  have howner : t.threads ≠ [] → ∃ tid a, t.tls tid = some a := by
    intro hne
    obtain ⟨a, ha⟩ := List.exists_mem_of_ne_nil _ hne
    obtain ⟨tid, htid⟩ := h.owned a ha
    exact ⟨tid, a, htid⟩
  cases op with
  | init service hostname buf =>
    simp only [NoStraggler, Classical.not_imp] at hcond
    obtain ⟨tid, a, htid⟩ := howner hcond.2
    obtain rfl := Except.ok.inj hstep
    rw [otelInit_of_not hcond.1]
    exact ⟨tid, a, htid, List.count_nil⟩
  | shutdown =>
    simp only [NoStraggler, Classical.not_imp] at hcond
    obtain ⟨tid, a, htid⟩ := howner hcond.2
    rcases shutdown_cases hstep with ⟨hinit, -⟩ | ⟨-, t₁, hpass, rfl⟩
    · rw [hcond.1] at hinit
      cases hinit
    · obtain ⟨-, -, htls⟩ := shutdownPass_registry h hpass
      exact ⟨tid, a, by rw [← htid, ← htls], List.count_nil⟩
  | _ => exact absurd trivial hcond

/-- As long as no thread is registered when the tracer is shut down or initialized, every thread's
context is live, in the registry once and its own, no function acts on a freed context, and a thread
that registers is in the list that `otelDrain` walks. The condition is exact: the first step that
does not meet it leaves some thread with a context that is not in the registry. -/
theorem registry_runs (pack : Proto.ExportTraceServiceRequest → Bytes)
    (service hostname : Option Bytes) (buf : Bool) (ops : List Op) (t : Tracer)
    (h : ((tracerMachine pack).restrict NoStraggler).Run Tracer.boot
      (.init service hostname buf :: ops) t) :
    (∀ tid a, t.tls tid = some a → (t.ctxs a).isSome ∧ t.threads.count a = 1) ∧
    (∀ tid tid' a, t.tls tid = some a → t.tls tid' = some a → tid = tid') ∧
    (∀ op, tracerStep pack t op ≠ .error .useAfterFree) ∧
    (∀ tid a seed now, t.tls tid = none → t.ctxs a = none →
      (otelThreadRegister t tid a seed now).tls tid = some a ∧
      a ∈ (otelThreadRegister t tid a seed now).threads) ∧
    ∀ op t', ¬ NoStraggler t op → tracerStep pack t op = .ok t' →
      ∃ tid a, t'.tls tid = some a ∧ t'.threads.count a = 0 := by
  have hok := RegistryOk.boot.run h
  refine ⟨?_, hok.distinct, fun op => tracerStep_avoids hok op, ?_, ?_⟩
  · intro tid a htid
    have hmem := hok.listed tid a htid
    exact ⟨(hok.live_iff a).mpr hmem, List.count_eq_one_of_mem hok.nodup hmem⟩
  · intro tid a seed now htls _
    rw [register_of_none htls]
    exact ⟨Function.update_self .., List.mem_cons_self⟩
  · intro op t' hcond hstep
    exact straggler_step hok hcond hstep

theorem registry_runs_sample : ∃ t : Tracer, t.tls 0 = some 5 ∧
    ∀ op, tracerStep (fun _ => []) t op ≠ .error .useAfterFree :=
  ⟨_, rfl, (registry_runs (fun _ => []) none none true
    [.register 0 3 ⟨1, 0⟩ 0, .unregister 0, .shutdown, .init none none true,
      .register 0 5 ⟨1, 0⟩ 0] _
    (.cons ⟨trivial, fun _ => rfl⟩ rfl (.cons ⟨rfl, trivial⟩ rfl (.cons ⟨trivial, trivial⟩ rfl
      (.cons ⟨trivial, fun _ => rfl⟩ rfl (.cons ⟨trivial, fun _ => rfl⟩ rfl
        (.cons ⟨rfl, trivial⟩ rfl .nil))))))).2.2.1⟩

/-- A thread that is still registered at shutdown keeps a pointer to its freed context: it is not
registered again after the tracer was re-initialized, and its next unregistration acts on the freed
context. -/
theorem registry_straggler : ∃ t : Tracer,
    (tracerMachine fun _ => []).Run Tracer.boot
      [.init none none true, .register 0 3 ⟨1, 0⟩ 0, .shutdown, .init none none true,
        .register 0 5 ⟨1, 0⟩ 0] t ∧
    t.tls 0 = some 3 ∧ t.ctxs 3 = none ∧ t.threads = [] ∧
    tracerStep (fun _ => []) t (.unregister 0) = .error .useAfterFree :=
  ⟨_, .cons trivial rfl (.cons rfl rfl (.cons trivial rfl (.cons trivial rfl
    (.cons rfl rfl .nil)))), rfl, rfl, rfl, rfl⟩

end OtelTracing
