import OtelTracing.Delivery
import OtelTracing.Proofs.LockProofs

/-!
# Proofs: whose context it is

Each context that a thread uses belongs to it alone, from its allocation until it is freed, and is in
the registry from the link to the unlink. A pass walks contexts that are in the registry, and these
stay there while it does.
-/

namespace OtelTracing

open ByteMem Locks Outcome

variable {pack : Proto.ExportTraceServiceRequest → Bytes} {σ σ' : Process} {t u : ThreadId}
  {pc pc' : Pc} {a b : CtxAddr}

/-! ## Contexts of places -/

/-- The context that the thread is registering. -/
def Pc.registering : Pc → Option CtxAddr
  | .registerLock a | .registerLink a | .registerUnlock a => some a
  | _ => none

/-- The context of the thread that a call in progress works on. -/
def Pc.serving : Pc → Option CtxAddr
  | .spanEnd a _ _ _ | .unregisterLock a | .unregisterWrlock a | .unregisterEnabled a
  | .unregisterPass a _ _ | .unregisterUnlink a | .unregisterWrunlock a | .unregisterUnlock a
  | .unregisterFree a => some a
  | _ => none

/-- The context of the thread is not in the registry. -/
def Pc.unlinked : Pc → Bool
  | .registerLock _ | .registerLink _ | .unregisterWrunlock _ | .unregisterUnlock _
  | .unregisterFree _ => true
  | _ => false

/-- The context that belongs to the thread. -/
def Process.owns (σ : Process) (t : ThreadId) : Option CtxAddr :=
  match (σ.pcs t).registering with
  | some a => some a
  | none => σ.shared.tracer.tls t

structure Process.OwnOk (σ : Process) : Prop where
  serving : ∀ t a, (σ.pcs t).serving = some a → σ.shared.tracer.tls t = some a
  fresh : ∀ t a, (σ.pcs t).registering = some a → σ.shared.tracer.tls t = none
  live : ∀ t a, σ.owns t = some a → (σ.shared.tracer.ctxs a).isSome
  distinct : ∀ t u a, σ.owns t = some a → σ.owns u = some a → t = u
  listed : ∀ t a, σ.owns t = some a → (a ∈ σ.shared.tracer.threads ↔ (σ.pcs t).unlinked = false)
  owned : ∀ a ∈ σ.shared.tracer.threads, ∃ t, σ.owns t = some a
  nodup : σ.shared.tracer.threads.Nodup

theorem Process.OwnOk.linked_live (h : σ.OwnOk) (ha : a ∈ σ.shared.tracer.threads) :
    (σ.shared.tracer.ctxs a).isSome := by
  obtain ⟨t, ht⟩ := h.owned a ha
  exact h.live t a ht

theorem owns_of_registering (h : (σ.pcs t).registering = some a) : σ.owns t = some a := by
  rw [Process.owns, h]

theorem owns_of_tls (hpc : (σ.pcs t).registering = none) (h : σ.shared.tracer.tls t = some a) :
    σ.owns t = some a := by
  rw [Process.owns, hpc, h]

theorem registering_of_serving (h : pc.serving = some a) : pc.registering = none := by
  cases pc <;> first | rfl | cases h

theorem Process.OwnOk.owns_serving (h : σ.OwnOk) (hpc : (σ.pcs t).serving = some a) :
    σ.owns t = some a :=
  owns_of_tls (registering_of_serving hpc) (h.serving t a hpc)

/-- A step that does not allocate, free, link or unlink. -/
theorem Process.OwnOk.keep (h : σ.OwnOk) (hpc : σ.pcs t = pc)
    (hpcs : σ'.pcs = Function.update σ.pcs t pc')
    (hctxs : ∀ a, (σ'.shared.tracer.ctxs a).isSome = (σ.shared.tracer.ctxs a).isSome)
    (hthreads : σ'.shared.tracer.threads = σ.shared.tracer.threads)
    (htls : σ'.shared.tracer.tls = σ.shared.tracer.tls)
    (hserving : ∀ a, pc'.serving = some a → σ.shared.tracer.tls t = some a)
    (hregistering : pc'.registering = pc.registering) (hunlinked : pc'.unlinked = pc.unlinked) :
    σ'.OwnOk := by
  subst hpc
  have hreg : ∀ u, (σ'.pcs u).registering = (σ.pcs u).registering := by
    intro u
    rw [hpcs]
    exact update_same hregistering u
  have howns : ∀ u, σ'.owns u = σ.owns u := by
    intro u
    rw [Process.owns, Process.owns, hreg u, htls]
  refine ⟨?_, ?_, ?_, ?_, ?_, ?_, ?_⟩
  · intro u a hu
    rw [htls]
    rw [hpcs] at hu
    by_cases hut : u = t
    · subst hut
      rw [Function.update_self] at hu
      exact hserving a hu
    · rw [Function.update_of_ne hut] at hu
      exact h.serving u a hu
  · intro u a hu
    rw [hreg u] at hu
    rw [htls]
    exact h.fresh u a hu
  · intro u a hu
    rw [howns u] at hu
    rw [hctxs a]
    exact h.live u a hu
  · intro u v a hu hv
    rw [howns u] at hu
    rw [howns v] at hv
    exact h.distinct u v a hu hv
  · intro u a hu
    rw [howns u] at hu
    rw [hthreads, hpcs, update_same hunlinked]
    exact h.listed u a hu
  · rw [hthreads]
    intro a ha
    obtain ⟨u, hu⟩ := h.owned a ha
    exact ⟨u, (howns u).trans hu⟩
  · rw [hthreads]
    exact h.nodup

/-! ## Allocating, linking, unlinking, freeing -/

/-- A step after which the thread `t` owns `x`, and the others what they did. -/
theorem owns_move {x : Option CtxAddr} (hpcs : σ'.pcs = Function.update σ.pcs t pc')
    (hself : (match pc'.registering with | some a => some a | none => σ'.shared.tracer.tls t) = x)
    (htls : ∀ u, u ≠ t → σ'.shared.tracer.tls u = σ.shared.tracer.tls u) (u : ThreadId) :
    σ'.owns u = if u = t then x else σ.owns u := by
  by_cases hu : u = t
  · subst hu
    rw [if_pos rfl, Process.owns, hpcs, Function.update_self]
    exact hself
  · rw [if_neg hu, Process.owns, Process.owns, hpcs, Function.update_of_ne hu, htls u hu]

theorem ownOk_register {seed : OtelRandomState} {now : UInt64} (h : σ.OwnOk)
    (hidle : σ.pcs t = .idle) (htls : σ.shared.tracer.tls t = none)
    (hfree : σ.shared.tracer.ctxs a = none) :
    ({ σ with shared := σ.shared.alloc a seed now }.goto t (.registerLock a)).OwnOk := by
  have hnew : ∀ u, σ.owns u ≠ some a := by
    intro u hu
    have hlive := h.live u a hu
    rw [hfree] at hlive
    cases hlive
  have hmem : a ∉ σ.shared.tracer.threads := by
    intro ha
    obtain ⟨u, hu⟩ := h.owned a ha
    exact hnew u hu
  have hnone : σ.owns t = none := by
    rw [Process.owns, hidle]
    exact htls
  have howns : ∀ u, ({ σ with shared := σ.shared.alloc a seed now }.goto t (.registerLock a)).owns u =
      if u = t then some a else σ.owns u := owns_move rfl rfl fun _ _ => rfl
  refine ⟨?_, ?_, ?_, ?_, ?_, ?_, h.nodup⟩
  · intro u b hu
    by_cases hut : u = t
    · subst hut
      simp [Process.goto, Pc.serving] at hu
    · exact h.serving u b (by simpa [Process.goto, Function.update_of_ne hut] using hu)
  · intro u b hu
    by_cases hut : u = t
    · subst hut
      exact htls
    · exact h.fresh u b (by simpa [Process.goto, Function.update_of_ne hut] using hu)
  · intro u b hu
    show (Function.update σ.shared.tracer.ctxs a _ b).isSome
    by_cases hb : b = a
    · rw [hb, Function.update_self]
      rfl
    · rw [Function.update_of_ne hb]
      rw [howns u] at hu
      by_cases hut : u = t
      · rw [if_pos hut] at hu
        exact absurd (Option.some.inj hu).symm hb
      · rw [if_neg hut] at hu
        exact h.live u b hu
  · intro u v b hu hv
    rw [howns u] at hu
    rw [howns v] at hv
    by_cases hut : u = t
    · by_cases hvt : v = t
      · rw [hut, hvt]
      · rw [if_pos hut] at hu
        rw [if_neg hvt, ← hu] at hv
        exact absurd hv (hnew v)
    · rw [if_neg hut] at hu
      by_cases hvt : v = t
      · rw [if_pos hvt] at hv
        rw [← hv] at hu
        exact absurd hu (hnew u)
      · rw [if_neg hvt] at hv
        exact h.distinct u v b hu hv
  · intro u b hu
    rw [howns u] at hu
    by_cases hut : u = t
    · subst hut
      rw [if_pos rfl] at hu
      obtain rfl := Option.some.inj hu
      simp [Process.goto, Pc.unlinked, Shared.alloc, Shared.setCtx, Shared.setLedger, Tracer.setCtx,
        hmem]
    · rw [if_neg hut] at hu
      have hold := h.listed u b hu
      simpa [Process.goto, Function.update_of_ne hut, Shared.alloc, Shared.setCtx, Shared.setLedger,
        Tracer.setCtx] using hold
  · intro b hb
    obtain ⟨u, hu⟩ := h.owned b hb
    refine ⟨u, ?_⟩
    rw [howns u, if_neg]
    · exact hu
    · rintro rfl
      rw [hnone] at hu
      cases hu

/-- A step that changes the registry, where the thread that takes it owns the context that is linked
or unlinked. -/
theorem Process.OwnOk.relink {threads : List CtxAddr} (h : σ.OwnOk) (hpc : σ.pcs t = pc)
    (hpcs : σ'.pcs = Function.update σ.pcs t pc')
    (hctxs : σ'.shared.tracer.ctxs = σ.shared.tracer.ctxs)
    (hthreads : σ'.shared.tracer.threads = threads)
    (htls : σ'.shared.tracer.tls = σ.shared.tracer.tls) (howns : σ.owns t = some a)
    (hserving : pc'.serving = pc.serving) (hregistering : pc'.registering = pc.registering)
    (hothers : ∀ b, b ≠ a → (b ∈ threads ↔ b ∈ σ.shared.tracer.threads))
    (hself : a ∈ threads ↔ pc'.unlinked = false) (hnodup : threads.Nodup) : σ'.OwnOk := by
  subst hpc
  have hreg : ∀ u, (σ'.pcs u).registering = (σ.pcs u).registering := by
    intro u
    rw [hpcs]
    exact update_same hregistering u
  have hserve : ∀ u, (σ'.pcs u).serving = (σ.pcs u).serving := by
    intro u
    rw [hpcs]
    exact update_same hserving u
  have hsame : ∀ u, σ'.owns u = σ.owns u := by
    intro u
    rw [Process.owns, Process.owns, hreg u, htls]
  refine ⟨?_, ?_, ?_, ?_, ?_, ?_, ?_⟩
  · intro u b hu
    rw [hserve u] at hu
    rw [htls]
    exact h.serving u b hu
  · intro u b hu
    rw [hreg u] at hu
    rw [htls]
    exact h.fresh u b hu
  · intro u b hu
    rw [hsame u] at hu
    rw [hctxs]
    exact h.live u b hu
  · intro u v b hu hv
    rw [hsame u] at hu
    rw [hsame v] at hv
    exact h.distinct u v b hu hv
  · intro u b hu
    rw [hsame u] at hu
    rw [hthreads, hpcs]
    by_cases hut : u = t
    · subst hut
      rw [howns] at hu
      obtain rfl := Option.some.inj hu
      rw [Function.update_self]
      exact hself
    · have hb : b ≠ a := by
        rintro rfl
        exact hut (h.distinct u t b hu howns)
      rw [Function.update_of_ne hut, hothers b hb]
      exact h.listed u b hu
  · rw [hthreads]
    intro b hb
    by_cases hba : b = a
    · exact ⟨t, (hsame t).trans (hba ▸ howns)⟩
    · obtain ⟨u, hu⟩ := h.owned b ((hothers b hba).mp hb)
      exact ⟨u, (hsame u).trans hu⟩
  · rw [hthreads]
    exact hnodup

theorem ownOk_link (h : σ.OwnOk) (hpc : σ.pcs t = .registerLink a) :
    ({ σ with shared := σ.shared.link a }.goto t (.registerUnlock a)).OwnOk := by
  have howns : σ.owns t = some a := owns_of_registering (by rw [hpc]; rfl)
  have hnew : a ∉ σ.shared.tracer.threads := by
    intro ha
    have hunlinked := (h.listed t a howns).mp ha
    rw [hpc] at hunlinked
    cases hunlinked
  have hothers : ∀ b, b ≠ a → (b ∈ a :: σ.shared.tracer.threads ↔ b ∈ σ.shared.tracer.threads) := by
    intro b hb
    simp [hb]
  have hself : a ∈ a :: σ.shared.tracer.threads ↔ (Pc.registerUnlock a).unlinked = false := by
    simp [Pc.unlinked]
  exact h.relink hpc rfl rfl rfl rfl howns rfl rfl hothers hself (List.nodup_cons.mpr ⟨hnew, h.nodup⟩)

theorem ownOk_unlink {m : Shared} (h : σ.OwnOk) (hpc : σ.pcs t = .unregisterUnlink a)
    (hunlink : σ.shared.unlink a = .ok m) :
    ({ σ with shared := m }.goto t (.unregisterWrunlock a)).OwnOk := by
  obtain ⟨threads, hthreads, hm⟩ := bind_ok hunlink
  rw [unlink_eq_erase fun b hb => h.linked_live hb] at hthreads
  cases hthreads
  cases hm
  have howns := h.owns_serving (t := t) (a := a) (by rw [hpc]; rfl)
  have hothers : ∀ b, b ≠ a →
      (b ∈ σ.shared.tracer.threads.erase a ↔ b ∈ σ.shared.tracer.threads) := by
    intro b hb
    exact List.mem_erase_of_ne hb
  have hself : a ∈ σ.shared.tracer.threads.erase a ↔ (Pc.unregisterWrunlock a).unlinked = false := by
    simp [Pc.unlinked, h.nodup.mem_erase_iff]
  exact h.relink hpc rfl rfl rfl rfl howns rfl rfl hothers hself (h.nodup.erase a)

/-- The context goes from the call to the thread. -/
theorem ownOk_setTls {σ' : Process} (h : σ.OwnOk) (hpc : σ.pcs t = .registerUnlock a)
    (hpcs : σ'.pcs = Function.update σ.pcs t .idle) (hshared : σ'.shared = σ.shared.setTls t (some a)) :
    σ'.OwnOk := by
  have howns : σ.owns t = some a := owns_of_registering (by rw [hpc]; rfl)
  have hsame : ∀ u, σ'.owns u = σ.owns u := by
    intro u
    rw [owns_move hpcs (x := some a) ?_ ?_ u]
    · by_cases hu : u = t
      · rw [if_pos hu, hu, howns]
      · rw [if_neg hu]
    · rw [hshared]
      exact Function.update_self ..
    · intro u hu
      rw [hshared]
      exact Function.update_of_ne hu ..
  have hctxs : σ'.shared.tracer.ctxs = σ.shared.tracer.ctxs := by rw [hshared]; rfl
  have hthreads : σ'.shared.tracer.threads = σ.shared.tracer.threads := by rw [hshared]; rfl
  refine ⟨?_, ?_, ?_, ?_, ?_, ?_, ?_⟩
  · intro u b hu
    rw [hpcs] at hu
    by_cases hut : u = t
    · subst hut
      rw [Function.update_self] at hu
      cases hu
    · rw [Function.update_of_ne hut] at hu
      rw [hshared]
      exact (Function.update_of_ne hut ..).trans (h.serving u b hu)
  · intro u b hu
    rw [hpcs] at hu
    by_cases hut : u = t
    · subst hut
      rw [Function.update_self] at hu
      cases hu
    · rw [Function.update_of_ne hut] at hu
      rw [hshared]
      exact (Function.update_of_ne hut ..).trans (h.fresh u b hu)
  · intro u b hu
    rw [hsame u] at hu
    rw [hctxs]
    exact h.live u b hu
  · intro u v b hu hv
    rw [hsame u] at hu
    rw [hsame v] at hv
    exact h.distinct u v b hu hv
  · intro u b hu
    rw [hsame u] at hu
    have hunlinked : (Function.update σ.pcs t .idle u).unlinked = (σ.pcs u).unlinked :=
      update_same (f := Pc.unlinked) (by rw [hpc]; rfl) u
    rw [hthreads, hpcs, hunlinked]
    exact h.listed u b hu
  · rw [hthreads]
    intro b hb
    obtain ⟨u, hu⟩ := h.owned b hb
    exact ⟨u, (hsame u).trans hu⟩
  · rw [hthreads]
    exact h.nodup

theorem ownOk_free {m : Shared} (h : σ.OwnOk) (hpc : σ.pcs t = .unregisterFree a)
    (hfree : σ.shared.free a = .ok m) :
    ({ σ with shared := m.setTls t none }.goto t .idle).OwnOk := by
  obtain ⟨tracer, htracer, hm⟩ := bind_ok hfree
  obtain ⟨c, -, htracer⟩ := bind_ok htracer
  cases htracer
  cases hm
  have howner := h.owns_serving (t := t) (a := a) (by rw [hpc]; rfl)
  have hunlinked : a ∉ σ.shared.tracer.threads := by
    intro ha
    have hlinked := (h.listed t a howner).mp ha
    rw [hpc] at hlinked
    cases hlinked
  have howns : ∀ u, ({ σ with
      shared := Shared.setTls { σ.shared with
        tracer := { σ.shared.tracer with ctxs := Function.update σ.shared.tracer.ctxs a none }
        freed := σ.shared.ledger a :: σ.shared.freed } t none }.goto t .idle).owns u =
      if u = t then none else σ.owns u :=
    owns_move rfl (Function.update_self ..) fun u hu => Function.update_of_ne hu ..
  have hmoved : ∀ u b, (if u = t then none else σ.owns u) = some b → u ≠ t ∧ σ.owns u = some b := by
    intro u b hu
    by_cases hut : u = t
    · rw [if_pos hut] at hu
      cases hu
    · rw [if_neg hut] at hu
      exact ⟨hut, hu⟩
  refine ⟨?_, ?_, ?_, ?_, ?_, ?_, h.nodup⟩
  · intro u b hu
    by_cases hut : u = t
    · subst hut
      simp [Process.goto, Pc.serving] at hu
    · exact (Function.update_of_ne hut ..).trans
        (h.serving u b (by simpa [Process.goto, Function.update_of_ne hut] using hu))
  · intro u b hu
    by_cases hut : u = t
    · subst hut
      exact Function.update_self ..
    · exact (Function.update_of_ne hut ..).trans
        (h.fresh u b (by simpa [Process.goto, Function.update_of_ne hut] using hu))
  · intro u b hu
    rw [howns u] at hu
    obtain ⟨hut, hu⟩ := hmoved u b hu
    show (Function.update σ.shared.tracer.ctxs a none b).isSome
    rw [Function.update_of_ne]
    · exact h.live u b hu
    · rintro rfl
      exact hut (h.distinct u t b hu howner)
  · intro u v b hu hv
    rw [howns u] at hu
    rw [howns v] at hv
    exact h.distinct u v b (hmoved u b hu).2 (hmoved v b hv).2
  · intro u b hu
    rw [howns u] at hu
    obtain ⟨hut, hu⟩ := hmoved u b hu
    show b ∈ σ.shared.tracer.threads ↔ (Function.update σ.pcs t .idle u).unlinked = false
    rw [Function.update_of_ne hut]
    exact h.listed u b hu
  · intro b hb
    obtain ⟨u, hu⟩ := h.owned b hb
    refine ⟨u, ?_⟩
    rw [howns u, if_neg]
    · exact hu
    · rintro rfl
      rw [howner] at hu
      obtain rfl := Option.some.inj hu
      exact hunlinked hb

/-! ## Steps -/

/-- The contexts that there are, the registry and the threads' contexts are the same. -/
structure Shared.SameOwners (m m' : Shared) : Prop where
  live : ∀ a, (m'.tracer.ctxs a).isSome = (m.tracer.ctxs a).isSome
  threads : m'.tracer.threads = m.tracer.threads
  tls : m'.tracer.tls = m.tracer.tls

theorem sameOwners_setCtx {m : Shared} {c c' : OtelThreadCtx} (hc : m.tracer.ctxs a = some c) :
    m.SameOwners (m.setCtx a c') where
  live b := by
    show (Function.update m.tracer.ctxs a (some c') b).isSome = (m.tracer.ctxs b).isSome
    by_cases hb : b = a
    · rw [hb, Function.update_self, hc]
      rfl
    · rw [Function.update_of_ne hb]
  threads := rfl
  tls := rfl

theorem sameOwners_pass {m m' : Shared} {ctxs : List CtxAddr} {v v' : PassVars} {pc : PassPc}
    {pc' : Option PassPc} (h : passStep pack m ctxs v pc = .ok (m', pc', v')) :
    m.SameOwners m' := by
  cases pass_cases h with
  | loopEnd a c hc heq => exact ⟨(sameOwners_setCtx hc).live, rfl, rfl⟩
  | loopAdd a c m' hc hne hadd =>
    obtain ⟨o, bufs, hm⟩ := add_out hadd
    exact ⟨fun b => by rw [hm], by rw [hm], by rw [hm]⟩
  | flush t ht =>
    obtain ⟨o, bufs, rfl⟩ := flush_out ht
    exact ⟨fun _ => rfl, rfl, rfl⟩
  | _ => exact ⟨fun _ => rfl, rfl, rfl⟩

theorem sameOwners_end {m m' : Shared} {s : OtelSpan} {head : UInt64} {pc : EndPc}
    {pc' : Option EndPc} (h : endStep m a s head pc = .ok (m', pc')) : m.SameOwners m' := by
  cases endStep_cases h with
  | full c hc => exact ⟨(sameOwners_setCtx hc).live, rfl, rfl⟩
  | room c hc => exact ⟨fun _ => rfl, rfl, rfl⟩
  | copy c hc => exact sameOwners_setCtx hc
  | storeHead c hc => exact ⟨(sameOwners_setCtx hc).live, rfl, rfl⟩

/-- A move that neither begins nor ends the use of a context. -/
structure Pc.SameCtx (pc pc' : Pc) : Prop where
  serving : pc'.serving = none ∨ pc'.serving = pc.serving
  registering : pc'.registering = pc.registering
  unlinked : pc'.unlinked = pc.unlinked

theorem sameCtx_ret (k : Caller) : Pc.idle.SameCtx k.ret := by
  cases k with
  | user => exact ⟨Or.inl rfl, rfl, rfl⟩
  | flusher => exact ⟨Or.inl rfl, rfl, rfl⟩
  | close => exact ⟨Or.inl rfl, rfl, rfl⟩

theorem Process.OwnOk.move (h : σ.OwnOk) (hpc : σ.pcs t = pc)
    (hpcs : σ'.pcs = Function.update σ.pcs t pc') (hshared : σ.shared.SameOwners σ'.shared)
    (hsame : pc.SameCtx pc') : σ'.OwnOk := by
  refine h.keep hpc hpcs hshared.live hshared.threads hshared.tls ?_ hsame.registering hsame.unlinked
  intro a ha
  rcases hsame.serving with hnone | hserving
  · rw [hnone] at ha
    cases ha
  · rw [hserving, ← hpc] at ha
    exact h.serving t a ha

theorem ownOk_thread (h : σ.OwnOk) (hstep : Stepped pack σ t σ') : σ'.OwnOk := by
  cases hstep with
  | registerLink a hpc => exact ownOk_link h hpc
  | registerUnlock a hpc => exact ownOk_setTls h hpc rfl rfl
  | unregisterUnlink a m hpc hunlink => exact ownOk_unlink h hpc hunlink
  | unregisterFree a m hpc hfree => exact ownOk_free h hpc hfree
  | spanEnd a s head pc pc' m hpc hend =>
    exact h.move hpc rfl (sameOwners_end hend) ⟨Or.inr rfl, rfl, rfl⟩
  | spanEnded a s head pc m hpc hend =>
    exact h.move hpc rfl (sameOwners_end hend) ⟨Or.inl rfl, rfl, rfl⟩
  | unregisterPass a pc pc' v v' m hpc hpass =>
    exact h.move hpc rfl (sameOwners_pass hpass) ⟨Or.inr rfl, rfl, rfl⟩
  | unregisterPassed a pc v v' m hpc hpass =>
    exact h.move hpc rfl (sameOwners_pass hpass) ⟨Or.inr rfl, rfl, rfl⟩
  | drainPass k pc pc' v v' m hpc hpass =>
    exact h.move hpc rfl (sameOwners_pass hpass) ⟨Or.inl rfl, rfl, rfl⟩
  | drainPassed k pc v v' m hpc hpass =>
    exact h.move hpc rfl (sameOwners_pass hpass) ⟨Or.inl rfl, rfl, rfl⟩
  | drainSkip k hpc =>
    have hret := sameCtx_ret k
    exact h.move hpc rfl ⟨fun _ => rfl, rfl, rfl⟩ ⟨hret.serving, hret.registering, hret.unlinked⟩
  | drainUnlock k v hpc =>
    have hret := sameCtx_ret k
    exact h.move hpc rfl ⟨fun _ => rfl, rfl, rfl⟩ ⟨hret.serving, hret.registering, hret.unlinked⟩
  | detachEnabled close hpc =>
    cases close with
    | false => exact h.move hpc rfl ⟨fun _ => rfl, rfl, rfl⟩ ⟨Or.inl rfl, rfl, rfl⟩
    | true => exact h.move hpc rfl ⟨fun _ => rfl, rfl, rfl⟩ ⟨Or.inl rfl, rfl, rfl⟩
  | _ =>
    refine h.move (by assumption) rfl ⟨fun _ => rfl, rfl, rfl⟩ ?_
    first
      | exact ⟨Or.inl rfl, rfl, rfl⟩
      | exact ⟨Or.inr rfl, rfl, rfl⟩

theorem ownOk_step {x : Act} (h : σ.OwnOk) (he : x.Possible σ)
    (hstep : processStep pack σ x = .ok σ') : σ'.OwnOk := by
  cases x with
  | timer =>
    cases hstep
    exact h.move he rfl ⟨fun _ => rfl, rfl, rfl⟩ ⟨Or.inl rfl, rfl, rfl⟩
  | step t => exact ownOk_thread h (step_cases he hstep)
  | call t c =>
    obtain ⟨hidle, hpossible⟩ := he
    cases call_cases hstep with
    | refused => exact h
    | drop => exact { h with }
    | setRingCapacity => exact { h with }
    | register a seed now htls => exact ownOk_register h hidle htls hpossible
    | finish a c s now hrec htls hc =>
      exact h.keep hidle rfl (fun _ => rfl) rfl rfl (fun b hb => by cases hb; exact htls) rfl rfl
    | unregister a htls =>
      exact h.keep hidle rfl (fun _ => rfl) rfl rfl (fun b hb => by cases hb; exact htls) rfl rfl
    | drain => exact h.move hidle rfl ⟨fun _ => rfl, rfl, rfl⟩ ⟨Or.inl rfl, rfl, rfl⟩
    | close => exact h.move hidle rfl ⟨fun _ => rfl, rfl, rfl⟩ ⟨Or.inl rfl, rfl, rfl⟩
    | detach => exact h.move hidle rfl ⟨fun _ => rfl, rfl, rfl⟩ ⟨Or.inl rfl, rfl, rfl⟩

/-! ## The contexts of a pass -/

theorem todo_holdsDrain (h : a ∈ pc.todo) : pc.holdsDrain = true := by
  cases pc with
  | unregisterPass | drainPass => rfl
  | _ => cases h

theorem ring_mem_todo (h : pc.ring = some a) : a ∈ pc.todo := by
  cases pc with
  | unregisterPass b p v => simp [Pc.todo, show p.ring = some a from h]
  | drainPass k p v => simp [Pc.todo, show p.ring = some a from h]
  | _ => cases h

theorem ring_holdsDrain (h : pc.ring = some a) : pc.holdsDrain = true :=
  todo_holdsDrain (ring_mem_todo h)

theorem pass_todo {m m' : Shared} {ctxs : List CtxAddr} {v v' : PassVars} {p p' : PassPc}
    (h : passStep pack m ctxs v p = .ok (m', some p', v')) (ha : a ∈ p'.ring.toList ++ v'.rest) :
    a ∈ p.ring.toList ++ v.rest ∨ a ∈ ctxs := by
  cases pass_cases h with
  | beginSkip => exact Or.inr ha
  | beginCall => exact Or.inr ha
  | walkCtx b rest c hrest hc =>
    refine Or.inl ?_
    rw [hrest]
    exact ha
  | loopEnd b => exact Or.inl (List.mem_append_right _ ha)
  | _ => exact Or.inl ha

/-- The passes drain contexts that are in the registry. -/
def Process.ReachOk (σ : Process) : Prop :=
  ∀ t, ∀ a ∈ (σ.pcs t).todo, a ∈ σ.shared.tracer.threads

theorem Process.ReachOk.move (h : σ.ReachOk) (hpc : σ.pcs t = pc)
    (hpcs : σ'.pcs = Function.update σ.pcs t pc')
    (hthreads : σ'.shared.tracer.threads = σ.shared.tracer.threads)
    (htodo : ∀ a ∈ pc'.todo, a ∈ pc.todo ∨ a ∈ σ.shared.tracer.threads) : σ'.ReachOk := by
  subst hpc
  intro u b hb
  rw [hpcs] at hb
  rw [hthreads]
  by_cases hut : u = t
  · subst hut
    rw [Function.update_self] at hb
    rcases htodo b hb with hold | hnew
    · exact h u b hold
    · exact hnew
  · rw [Function.update_of_ne hut] at hb
    exact h u b hb

theorem todo_ret (k : Caller) : k.ret.todo = [] := by
  cases k with
  | user | flusher | close => rfl

theorem reachOk_thread (h : σ.ReachOk) (hown : σ.OwnOk) (hlocks : σ.LockOk)
    (hstep : Stepped pack σ t σ') : σ'.ReachOk := by
  cases hstep with
  | registerLink a hpc =>
    intro u b hb
    refine List.mem_cons_of_mem a ?_
    by_cases hut : u = t
    · subst hut
      simp [Process.goto, Pc.todo] at hb
    · exact h u b (by simpa [Process.goto, Function.update_of_ne hut] using hb)
  | unregisterUnlink a m hpc hunlink =>
    intro u b hb
    by_cases hut : u = t
    · subst hut
      simp [Process.goto, Pc.todo] at hb
    · -- the thread that unlinks holds the drain lock
      have hbold : b ∈ (σ.pcs u).todo := by simpa [Process.goto, Function.update_of_ne hut] using hb
      have hsame := hlocks.drain.unique (t := t) (by rw [hpc]; rfl) (todo_holdsDrain hbold)
      exact absurd hsame.symm hut
  | unregisterPass a p p' v v' m hpc hpass =>
    refine h.move hpc rfl (sameOwners_pass hpass).threads ?_
    intro b hb
    rcases pass_todo hpass hb with hold | hnew
    · exact Or.inl hold
    · obtain rfl := List.mem_singleton.mp hnew
      exact Or.inr ((hown.listed t b (hown.owns_serving (by rw [hpc]; rfl))).mpr (by rw [hpc]; rfl))
  | unregisterPassed a p v v' m hpc hpass =>
    exact h.move hpc rfl (sameOwners_pass hpass).threads nofun
  | drainPass k p p' v v' m hpc hpass =>
    refine h.move hpc rfl (sameOwners_pass hpass).threads ?_
    intro b hb
    exact pass_todo hpass hb
  | drainPassed k p v v' m hpc hpass =>
    exact h.move hpc rfl (sameOwners_pass hpass).threads nofun
  | spanEnd a s head pc pc' m hpc hend =>
    exact h.move hpc rfl (sameOwners_end hend).threads nofun
  | spanEnded a s head pc m hpc hend => exact h.move hpc rfl (sameOwners_end hend).threads nofun
  | unregisterFree a m hpc hfree =>
    obtain ⟨tracer, htracer, hm⟩ := bind_ok hfree
    obtain ⟨c, -, htracer⟩ := bind_ok htracer
    cases htracer
    cases hm
    exact h.move hpc rfl rfl nofun
  | drainSkip k hpc => exact h.move hpc rfl rfl (by rw [todo_ret]; nofun)
  | drainUnlock k v hpc => exact h.move hpc rfl rfl (by rw [todo_ret]; nofun)
  | detachEnabled close hpc =>
    cases close with
    | false => exact h.move hpc rfl rfl nofun
    | true => exact h.move hpc rfl rfl nofun
  | _ =>
    refine h.move (by assumption) rfl rfl ?_
    exact nofun

theorem reachOk_step {x : Act} (h : σ.ReachOk) (hown : σ.OwnOk) (hlocks : σ.LockOk)
    (he : x.Possible σ) (hstep : processStep pack σ x = .ok σ') : σ'.ReachOk := by
  cases x with
  | timer =>
    cases hstep
    exact h.move he rfl rfl nofun
  | step t => exact reachOk_thread h hown hlocks (step_cases he hstep)
  | call t c =>
    obtain ⟨hidle, hpossible⟩ := he
    cases call_cases hstep with
    | refused | drop | setRingCapacity => exact h
    | _ => exact h.move hidle rfl rfl nofun

end OtelTracing
