import OtelTracing.Proofs.JournalProofs
import OtelTracing.Proofs.DeliverProofs
import Mathlib.Data.List.Flatten

/-!
# Proofs: what is durable when the store is closed

The drain of `otel_sqlite_close` takes what was accepted before it walks the registry, and commits it.
Contexts that are not in the registry any more have nothing left to take.
-/

namespace OtelTracing

open ByteMem Locks Outcome Txn

variable {pack : Proto.ExportTraceServiceRequest → Bytes} {σ σ' : Process} {t u : ThreadId}
  {pc pc' : Pc} {a b : CtxAddr} {m m' : Shared} {p : PassPc} {v v' : PassVars}
  {sink : OtelSpanSink} {service : Bytes} {db : Store} {es : List OtelSpan}
  {mark : CtxAddr → Nat}

/-! ## What a step leaves of the contexts -/

/-- Threads allocate no context, and free only the one that they unregister. -/
theorem heap_thread (hstep : Stepped pack σ t σ') :
    ((∀ b, (σ'.shared.tracer.ctxs b).isSome = (σ.shared.tracer.ctxs b).isSome) ∧
      σ'.shared.freed = σ.shared.freed) ∨
    ∃ a, σ.pcs t = .unregisterFree a ∧ (σ.shared.tracer.ctxs a).isSome ∧
      σ'.shared.tracer.ctxs = Function.update σ.shared.tracer.ctxs a none ∧
      σ'.shared.freed = σ.shared.ledger a :: σ.shared.freed ∧
      σ'.shared.ledger = σ.shared.ledger := by
  cases hstep with
  | spanEnd a s head e e' m hpc hend => exact Or.inl ⟨(sameOwners_end hend).live, end_freed hend⟩
  | spanEnded a s head e m hpc hend => exact Or.inl ⟨(sameOwners_end hend).live, end_freed hend⟩
  | unregisterPass a p p' v v' m hpc hpass =>
    exact Or.inl ⟨(sameOwners_pass hpass).live, pass_freed hpass⟩
  | unregisterPassed a p v v' m hpc hpass =>
    exact Or.inl ⟨(sameOwners_pass hpass).live, pass_freed hpass⟩
  | drainPass k p p' v v' m hpc hpass =>
    exact Or.inl ⟨(sameOwners_pass hpass).live, pass_freed hpass⟩
  | drainPassed k p v v' m hpc hpass =>
    exact Or.inl ⟨(sameOwners_pass hpass).live, pass_freed hpass⟩
  | unregisterUnlink a m hpc hunlink =>
    obtain ⟨threads, -, hm⟩ := bind_ok hunlink
    cases hm
    exact Or.inl ⟨fun _ => rfl, rfl⟩
  | unregisterFree a m hpc hfree =>
    obtain ⟨tracer, htracer, hm⟩ := bind_ok hfree
    obtain ⟨c, hc, htracer⟩ := bind_ok htracer
    cases htracer
    cases hm
    exact Or.inr ⟨a, hpc, by rw [deref_ok hc]; rfl, rfl, rfl, rfl⟩
  | _ => exact Or.inl ⟨fun _ => rfl, rfl⟩

/-- Only the thread of a context takes it out of the registry. -/
theorem linked_thread (hnodup : σ.shared.tracer.threads.Nodup)
    (hlive : ∀ b ∈ σ.shared.tracer.threads, (σ.shared.tracer.ctxs b).isSome)
    (hstep : Stepped pack σ t σ') (hb : b ∈ σ.shared.tracer.threads) :
    b ∈ σ'.shared.tracer.threads ∨ σ.pcs t = .unregisterUnlink b := by
  have hkeep : ∀ {m : Shared}, m.tracer.threads = σ.shared.tracer.threads →
      b ∈ m.tracer.threads ∨ σ.pcs t = .unregisterUnlink b := by
    intro m hsame
    rw [hsame]
    exact Or.inl hb
  cases hstep with
  | registerLink a hpc => exact Or.inl (List.mem_cons_of_mem a hb)
  | spanEnd a s head e e' m hpc hend => exact hkeep (sameOwners_end hend).threads
  | spanEnded a s head e m hpc hend => exact hkeep (sameOwners_end hend).threads
  | unregisterPass a p p' v v' m hpc hpass => exact hkeep (sameOwners_pass hpass).threads
  | unregisterPassed a p v v' m hpc hpass => exact hkeep (sameOwners_pass hpass).threads
  | drainPass k p p' v v' m hpc hpass => exact hkeep (sameOwners_pass hpass).threads
  | drainPassed k p v v' m hpc hpass => exact hkeep (sameOwners_pass hpass).threads
  | unregisterUnlink a m hpc hunlink =>
    obtain ⟨threads, hthreads, hm⟩ := bind_ok hunlink
    cases hm
    rw [unlink_eq_erase hlive] at hthreads
    cases hthreads
    by_cases hba : b = a
    · rw [hba]
      exact Or.inr hpc
    · exact Or.inl (hnodup.mem_erase_iff.mpr ⟨hba, hb⟩)
  | unregisterFree a m hpc hfree =>
    obtain ⟨tracer, htracer, hm⟩ := bind_ok hfree
    obtain ⟨c, hc, htracer⟩ := bind_ok htracer
    cases htracer
    cases hm
    exact Or.inl hb
  | _ => exact Or.inl hb

/-- Spans are staged by their threads, and stay in the ledger. -/
theorem staged_thread (hstep : Stepped pack σ t σ') (b : CtxAddr) :
    (σ.shared.ledger b).staged <+: (σ'.shared.ledger b).staged ∧
      ((σ'.shared.ledger b).staged = (σ.shared.ledger b).staged ∨
        ∃ s head e, σ.pcs t = .spanEnd b s head e) := by
  have hended : ∀ {a s head e e' m}, σ.pcs t = .spanEnd a s head e →
      endStep σ.shared a s head e = .ok (m, e') →
      (σ.shared.ledger b).staged <+: (m.ledger b).staged ∧
        ((m.ledger b).staged = (σ.shared.ledger b).staged ∨
          ∃ s head e, σ.pcs t = .spanEnd b s head e) := by
    intro a s head e e' m hpc hend
    rcases end_ledger hend with hsame | hstaged
    · rw [hsame]
      exact ⟨List.prefix_refl _, Or.inl rfl⟩
    · rw [hstaged]
      by_cases hb : b = a
      · subst hb
        rw [Function.update_self]
        exact ⟨List.prefix_append .., Or.inr ⟨s, head, e, hpc⟩⟩
      · rw [Function.update_of_ne hb]
        exact ⟨List.prefix_refl _, Or.inl rfl⟩
  have hpassed : ∀ {ctxs p p' v v' m},
      passStep pack σ.shared ctxs v p = .ok (m, p', v') →
      (σ.shared.ledger b).staged <+: (m.ledger b).staged ∧
        ((m.ledger b).staged = (σ.shared.ledger b).staged ∨
          ∃ s head e, σ.pcs t = .spanEnd b s head e) := by
    intro ctxs p p' v v' m hpass
    have hsame := (pass_spans hpass).1 b
    exact ⟨⟨[], by rw [hsame, List.append_nil]⟩, Or.inl hsame⟩
  cases hstep with
  | spanEnd a s head e e' m hpc hend => exact hended hpc hend
  | spanEnded a s head e m hpc hend => exact hended hpc hend
  | unregisterPass a p p' v v' m hpc hpass => exact hpassed hpass
  | unregisterPassed a p v v' m hpc hpass => exact hpassed hpass
  | drainPass k p p' v v' m hpc hpass => exact hpassed hpass
  | drainPassed k p v v' m hpc hpass => exact hpassed hpass
  | unregisterUnlink a m hpc hunlink =>
    obtain ⟨threads, -, hm⟩ := bind_ok hunlink
    cases hm
    exact ⟨List.prefix_refl _, Or.inl rfl⟩
  | unregisterFree a m hpc hfree =>
    obtain ⟨tracer, -, hm⟩ := bind_ok hfree
    cases hm
    exact ⟨List.prefix_refl _, Or.inl rfl⟩
  | _ => exact ⟨List.prefix_refl _, Or.inl rfl⟩

/-- The passes of other threads move forward, too. -/
theorem taken_thread (h : σ.RingOk) (hstep : Stepped pack σ t σ')
    (hle : (σ.shared.ledger b).taken ≤ (σ.shared.ledger b).staged.length) :
    (σ.shared.ledger b).taken ≤ (σ'.shared.ledger b).taken := by
  have hledger := ledger_thread h hstep b
  have hprefix := (staged_thread hstep b).1
  revert hledger hprefix hle
  generalize σ.shared.ledger b = l
  generalize σ'.shared.ledger b = l'
  intro hle hledger hprefix
  cases hledger with
  | same | stage | enter | publish => exact Nat.le_refl _
  | skip | give => exact Nat.le_succ _
  | new =>
    have hnil : l.staged = [] := List.prefix_nil.mp hprefix
    rw [hnil] at hle
    exact hle

/-! ## Contexts that are not in the registry -/

/-- There is nothing left to take in the ring of a context that is not in the registry. -/
def Process.LinkedOk (σ : Process) : Prop :=
  ∀ a, (σ.shared.tracer.ctxs a).isSome → a ∈ σ.shared.tracer.threads ∨
    (σ.shared.ledger a).taken = (σ.shared.ledger a).staged.length

theorem linkedOk_thread (h : σ.LinkedOk) (hheap : σ.HeapOk) (hheap' : σ'.HeapOk)
    (hleave : σ.LeaveOk) (hstep : Stepped pack σ t σ') : σ'.LinkedOk := by
  intro b hlive'
  have hlive : (σ.shared.tracer.ctxs b).isSome := by
    rcases heap_thread hstep with ⟨hsame, -⟩ | ⟨a, -, -, hctxs, -, -⟩
    · rw [← hsame b]
      exact hlive'
    · rw [hctxs] at hlive'
      by_cases hb : b = a
      · rw [hb, Function.update_self] at hlive'
        cases hlive'
      · rwa [Function.update_of_ne hb] at hlive'
  obtain ⟨c', hc'⟩ := Option.isSome_iff_exists.mp hlive'
  obtain ⟨c, hc⟩ := Option.isSome_iff_exists.mp hlive
  have hle' := (hheap'.ring.rings b c' hc').taken_le
  have hle := (hheap.ring.rings b c hc).taken_le
  have htaken := taken_thread hheap.ring hstep hle
  -- what was taken before stays taken, and the thread of the context stages nothing
  have hstays : (σ.shared.ledger b).taken = (σ.shared.ledger b).staged.length →
      (∀ s head e, σ.pcs t ≠ .spanEnd b s head e) →
      (σ'.shared.ledger b).taken = (σ'.shared.ledger b).staged.length := by
    intro hall hnot
    rcases (staged_thread hstep b).2 with hsame | ⟨s, head, e, hpc⟩
    · rw [hsame] at hle' ⊢
      omega
    · exact absurd hpc (hnot s head e)
  by_cases hending : ∃ s head e, σ.pcs t = .spanEnd b s head e
  · obtain ⟨s, head, e, hpc⟩ := hending
    have hmem : b ∈ σ.shared.tracer.threads :=
      (hheap.own.listed t b (hheap.own.owns_serving (by rw [hpc]; rfl))).mpr (by rw [hpc]; rfl)
    rcases linked_thread hheap.own.nodup (fun _ => hheap.own.linked_live) hstep hmem with hin | hout
    · exact Or.inl hin
    · rw [hpc] at hout
      cases hout
  · simp only [not_exists] at hending
    rcases h b hlive with hmem | hall
    · rcases linked_thread hheap.own.nodup (fun _ => hheap.own.linked_live) hstep hmem with hin | hout
      · exact Or.inl hin
      · have hleaving := hleave t
        rw [hout] at hleaving
        exact Or.inr (hstays hleaving hending)
    · exact Or.inr (hstays hall hending)

theorem linkedOk_step {x : Act} (h : σ.LinkedOk) (hheap : σ.HeapOk) (hheap' : σ'.HeapOk)
    (hleave : σ.LeaveOk) (he : x.Possible σ) (hstep : processStep pack σ x = .ok σ') :
    σ'.LinkedOk := by
  cases x with
  | timer =>
    cases hstep
    exact h
  | step t => exact linkedOk_thread h hheap hheap' hleave (step_cases he hstep)
  | call t c =>
    cases call_cases hstep with
    | register a seed now htls =>
      intro b hb
      replace hb : (Function.update σ.shared.tracer.ctxs a _ b).isSome := hb
      show b ∈ σ.shared.tracer.threads ∨ (Function.update σ.shared.ledger a Ledger.empty b).taken =
        (Function.update σ.shared.ledger a Ledger.empty b).staged.length
      by_cases hba : b = a
      · rw [hba, Function.update_self]
        exact Or.inr rfl
      · rw [Function.update_of_ne hba] at hb
        rw [Function.update_of_ne hba]
        exact h b hb
    | _ => exact h

/-! ## As long as the sink is set -/

/-- A thread that is not about to detach the sink leaves it as it is. -/
theorem sameSink_thread (hstep : Stepped pack σ t σ') (hquiet : (σ.pcs t).detaching = false) :
    σ.shared.tracer.SameSink σ'.shared.tracer := by
  cases hstep with
  | spanEnd a s head e e' m hpc hend => exact end_sameSink hend
  | spanEnded a s head e m hpc hend => exact end_sameSink hend
  | unregisterPass a p p' v v' m hpc hpass => exact pass_sameSink hpass
  | unregisterPassed a p v v' m hpc hpass => exact pass_sameSink hpass
  | drainPass k p p' v v' m hpc hpass => exact pass_sameSink hpass
  | drainPassed k p v v' m hpc hpass => exact pass_sameSink hpass
  | unregisterUnlink a m hpc hunlink =>
    obtain ⟨threads, -, hm⟩ := bind_ok hunlink
    cases hm
    exact ⟨rfl, rfl, rfl⟩
  | unregisterFree a m hpc hfree =>
    obtain ⟨tracer, htracer, hm⟩ := bind_ok hfree
    obtain ⟨c, -, htracer⟩ := bind_ok htracer
    cases htracer
    cases hm
    exact ⟨rfl, rfl, rfl⟩
  | detachSink close hpc =>
    rw [hpc] at hquiet
    cases hquiet
  | detachPresent close hpc =>
    rw [hpc] at hquiet
    cases hquiet
  | detachEnabled close hpc =>
    rw [hpc] at hquiet
    cases hquiet
  | _ => exact ⟨rfl, rfl, rfl⟩

/-- `OT.sink` is not set again. -/
theorem sink_step {x : Act} (he : x.Possible σ) (hstep : processStep pack σ x = .ok σ')
    (hsome : σ'.shared.tracer.sink ≠ none) : σ.shared.tracer.sink ≠ none := by
  cases x with
  | timer =>
    cases hstep
    exact hsome
  | call t c =>
    cases call_cases hstep with
    | _ => exact hsome
  | step t =>
    by_cases hquiet : (σ.pcs t).detaching = false
    · rw [(sameSink_thread (step_cases he hstep) hquiet).sink] at hsome
      exact hsome
    · replace hstep : threadStep pack σ t = .ok σ' := hstep
      unfold threadStep at hstep
      cases hpc : σ.pcs t with
      | detachSink close =>
        simp only [hpc] at hstep
        cases hstep
        exact absurd rfl hsome
      | detachPresent close =>
        simp only [hpc] at hstep
        cases hstep
        exact hsome
      | detachEnabled close =>
        simp only [hpc] at hstep
        cases hstep
        exact hsome
      | _ =>
        rw [hpc] at hquiet
        exact absurd rfl hquiet

/-- What is known of the spans while the sink is set. -/
structure Process.SetSpans (σ : Process) : Prop where
  kept : σ.KeptOk
  leave : σ.LeaveOk
  freed : σ.FreedOk
  linked : σ.LinkedOk

/-- What is known of the spans in every state. -/
structure Process.StoredOk (sink : OtelSpanSink) (σ : Process) : Prop where
  calls : σ.CallsOk sink
  output : σ.OutputOk
  spans : σ.shared.tracer.sink ≠ none → σ.SetSpans
  /-- only the closer detaches the sink -/
  detacher : ∀ t, (σ.pcs t).detaching = true → t = σ.closer

theorem Process.SetOk.not_skips (h : σ.SetOk sink) (hspan : sink.hasSpan = true)
    (hsome : σ.shared.tracer.sink ≠ none) : ¬ σ.shared.tracer.SkipsSpans := by
  rintro (habsent | ⟨sink', hsink, hset⟩)
  · rw [h.sinkPresent hsome] at habsent
    cases habsent
  · rw [h.sink hsome] at hsink
    cases hsink
    rw [hspan] at hset
    cases hset

theorem closer_step {x : Act} (he : x.Possible σ) (hstep : processStep pack σ x = .ok σ') :
    σ'.closer = σ.closer := by
  cases x with
  | timer =>
    cases hstep
    rfl
  | call t c =>
    cases call_cases hstep with
    | _ => rfl
  | step t =>
    cases step_cases he hstep with
    | _ => rfl

theorem detacher_step {x : Act} (h : ∀ t, (σ.pcs t).detaching = true → t = σ.closer)
    (hroles : σ.RolesOk) (he : x.Possible σ) (hstep : processStep pack σ x = .ok σ') :
    ∀ t, (σ'.pcs t).detaching = true → t = σ'.closer := by
  have hmove : ∀ {t pc'}, (pc'.detaching = true → t = σ.closer) →
      ∀ u, (Function.update σ.pcs t pc' u).detaching = true → u = σ.closer := by
    intro t pc' hself u hu
    by_cases hut : u = t
    · rw [hut, Function.update_self] at hu
      rw [hut]
      exact hself hu
    · rw [Function.update_of_ne hut] at hu
      exact h u hu
  rw [closer_step he hstep]
  cases x with
  | timer =>
    cases hstep
    exact hmove (by rintro ⟨⟩)
  | call t c =>
    obtain ⟨hidle, hpossible⟩ := he
    cases call_cases hstep with
    | refused => exact h
    | drop => exact h
    | setRingCapacity => exact h
    | detach => exact hmove fun _ => hpossible
    | _ => exact hmove (by rintro ⟨⟩)
  | step t =>
    have hself := h t
    have hret : ∀ k : Caller, (k = .close → (σ.pcs t).ofClose = true) →
        k.ret.detaching = true → t = σ.closer := by
      intro k hk hdetaching
      cases k with
      | user => cases hdetaching
      | flusher => cases hdetaching
      | close => exact (hroles.closer t (hk rfl)).1
    cases step_cases he hstep with
    | drainSkip k hpc =>
      refine hmove (hret k ?_)
      rintro rfl
      rw [hpc]
      rfl
    | drainUnlock k v hpc =>
      refine hmove (hret k ?_)
      rintro rfl
      rw [hpc]
      rfl
    | detachSink close hpc => exact hmove fun _ => hself (by rw [hpc]; rfl)
    | detachPresent close hpc => exact hmove fun _ => hself (by rw [hpc]; rfl)
    | detachEnabled close hpc => exact hmove fun _ => hself (by rw [hpc]; rfl)
    | _ => exact hmove (by rintro ⟨⟩)

theorem storedOk_step {x : Act} (hbegin : sink.hasBegin = true) (hspan : sink.hasSpan = true)
    (hend : sink.hasEnd = true) (h : σ.StoredOk sink) (hx : ∀ s, x.Ends s → Finished s)
    (he : x.Possible σ) (hstep : processStep pack σ x = .ok σ') : σ'.StoredOk sink := by
  have hcalls := callsOk_step hbegin hend h.calls hx he hstep
  refine ⟨hcalls, outputOk_step h.output he hstep, ?_,
    detacher_step h.detacher h.calls.heap.control.roles he hstep⟩
  intro hsome'
  have hsome := sink_step he hstep hsome'
  obtain ⟨hkept, hleave, hfreed, hlinked⟩ := h.spans hsome
  exact
    { kept := keptOk_step hkept h.calls.heap.ring (h.calls.set.not_skips hspan hsome) he hstep
      leave := leaveOk_step hleave h.calls.heap (h.calls.set.enabled hsome) he hstep
      freed := freedOk_step hfreed h.calls.given hkept hleave he hstep
      linked := linkedOk_step hlinked h.calls.heap hcalls.heap hleave he hstep }

theorem storedOk_start (h0 : σ.AtRest) (hv : σ.Vacant) (hf : σ.Fresh sink) : σ.StoredOk sink := by
  have hquiet : ∀ t, (σ.pcs t).detaching = false := by
    intro t
    by_cases ht : t = σ.flusher
    · rcases atRest_flusher h0 with hpc | hpc
      · rw [ht, hpc]
        rfl
      · rw [ht, hpc]
        rfl
    · rw [h0.idle t ht]
      rfl
  have hspans := spansOk_start h0 hv ⟨hf.enabled, hf.sink, hf.sinkPresent, hquiet⟩
  refine ⟨callsOk_start h0 hv hf, hspans.output,
    fun _ => ⟨hspans.kept, hspans.leave, hspans.freed, ?_⟩, ?_⟩
  · intro a ha
    rw [hv.ctxs a] at ha
    cases ha
  · intro t ht
    rw [hquiet t] at ht
    cases ht

/-! ## Spans that are still to be committed -/

theorem Process.Lists.perm {as bs : List CtxAddr} (h : σ.Lists as) (h' : σ.Lists bs) :
    as.Perm bs :=
  (List.perm_ext_iff_of_nodup h.nodup h'.nodup).mpr fun a => (h.live a).trans (h'.live a).symm

theorem lists_singleton (honly : ∀ b, (σ.shared.tracer.ctxs b).isSome → b = a)
    (hlive : (σ.shared.tracer.ctxs a).isSome) : σ.Lists [a] := by
  refine ⟨List.nodup_singleton _, fun b => ⟨?_, ?_⟩⟩
  · intro hb
    rw [List.mem_singleton.mp hb]
    exact hlive
  · intro hb
    exact List.mem_singleton.mpr (honly b hb)

theorem lists_congr {as : List CtxAddr} (h : σ.Lists as)
    (hlive : ∀ a, (σ'.shared.tracer.ctxs a).isSome = (σ.shared.tracer.ctxs a).isSome) :
    σ'.Lists as :=
  ⟨h.nodup, fun a => by rw [hlive a]; exact h.live a⟩

/-- The first `mark a` spans that were accepted into the ring of each context `a` of `as`, and those
that were accepted into rings that were freed. -/
def Process.marked (σ : Process) (mark : CtxAddr → Nat) (as : List CtxAddr) : List OtelSpan :=
  as.flatMap (fun a => (σ.shared.ledger a).staged.take (mark a)) ++
    σ.shared.freed.flatMap Ledger.staged

/-- The spans `es` are among those that are marked. -/
structure Process.Covers (σ : Process) (es : List OtelSpan) (mark : CtxAddr → Nat) : Prop where
  lists : ∃ as, σ.Lists as ∧ es.Subperm (σ.marked mark as)
  le : ∀ a, (σ.shared.tracer.ctxs a).isSome → mark a ≤ (σ.shared.ledger a).staged.length

/-- What was accepted is covered. -/
theorem covers_accepted {as : List CtxAddr} (h : σ.Lists as) :
    σ.Covers (σ.accepted as) fun a => (σ.shared.ledger a).staged.length := by
  refine ⟨⟨as, h, ?_⟩, fun _ _ => Nat.le_refl _⟩
  have hall : σ.marked (fun a => (σ.shared.ledger a).staged.length) as = σ.accepted as := by
    simp only [Process.marked, List.take_length]
    rfl
  rw [hall]

/-- A step that allocates and frees nothing. -/
theorem Process.Covers.keep (h : σ.Covers es mark)
    (hlive : ∀ a, (σ'.shared.tracer.ctxs a).isSome = (σ.shared.tracer.ctxs a).isSome)
    (hfreed : σ'.shared.freed = σ.shared.freed)
    (hstaged : ∀ a, (σ.shared.ledger a).staged <+: (σ'.shared.ledger a).staged) :
    σ'.Covers es mark := by
  obtain ⟨⟨as, has, hes⟩, hle⟩ := h
  refine ⟨⟨as, lists_congr has hlive, ?_⟩, ?_⟩
  · have hsame : σ'.marked mark as = σ.marked mark as := by
      unfold Process.marked
      rw [hfreed]
      congr 1
      refine List.flatMap_congr fun a ha => ?_
      obtain ⟨more, hmore⟩ := hstaged a
      rw [← hmore, List.take_append_of_le_length (hle a ((has.live a).mp ha))]
    rw [hsame]
    exact hes
  · intro a ha
    rw [hlive a] at ha
    exact (hle a ha).trans (hstaged a).length_le

theorem Process.Covers.free (h : σ.Covers es mark) (ha : (σ.shared.tracer.ctxs a).isSome)
    (hctxs : σ'.shared.tracer.ctxs = Function.update σ.shared.tracer.ctxs a none)
    (hfreed : σ'.shared.freed = σ.shared.ledger a :: σ.shared.freed)
    (hledger : σ'.shared.ledger = σ.shared.ledger) : σ'.Covers es mark := by
  obtain ⟨⟨as, has, hes⟩, hle⟩ := h
  have hmem : a ∈ as := (has.live a).mpr ha
  refine ⟨⟨as.erase a, ⟨has.nodup.erase a, ?_⟩, hes.trans ?_⟩, ?_⟩
  · intro b
    rw [hctxs, has.nodup.mem_erase_iff, has.live b]
    by_cases hb : b = a
    · rw [hb, Function.update_self]
      simp
    · rw [Function.update_of_ne hb]
      simp [hb]
  · unfold Process.marked
    rw [hfreed, hledger, List.flatMap_cons]
    have hperm := (List.perm_cons_erase hmem).flatMap_right
      fun a => (σ.shared.ledger a).staged.take (mark a)
    rw [List.flatMap_cons] at hperm
    refine (hperm.append_right _).subperm.trans ?_
    -- all spans of the context are put away with it
    have htake : ((σ.shared.ledger a).staged.take (mark a)).Subperm (σ.shared.ledger a).staged :=
      (List.take_sublist ..).subperm
    have hall := htake.append (List.Subperm.refl
      ((as.erase a).flatMap (fun a => (σ.shared.ledger a).staged.take (mark a)) ++
        σ.shared.freed.flatMap Ledger.staged))
    rw [← List.append_assoc] at hall
    refine hall.trans ?_
    rw [← List.append_assoc, ← List.append_assoc]
    exact (List.perm_append_comm.append_right _).subperm
  · intro b hb
    rw [hctxs] at hb
    rw [hledger]
    by_cases hba : b = a
    · rw [hba, Function.update_self] at hb
      cases hb
    · rw [Function.update_of_ne hba] at hb
      exact hle b hb

/-- Nothing of a new context is marked. -/
theorem Process.Covers.alloc {c : OtelThreadCtx} (h : σ.Covers es mark)
    (hfree : σ.shared.tracer.ctxs a = none)
    (hctxs : σ'.shared.tracer.ctxs = Function.update σ.shared.tracer.ctxs a (some c))
    (hfreed : σ'.shared.freed = σ.shared.freed)
    (hledger : σ'.shared.ledger = Function.update σ.shared.ledger a Ledger.empty) :
    σ'.Covers es (Function.update mark a 0) := by
  obtain ⟨⟨as, has, hes⟩, hle⟩ := h
  have hnew : a ∉ as := by
    intro ha
    have hlive := (has.live a).mp ha
    rw [hfree] at hlive
    cases hlive
  refine ⟨⟨a :: as, ⟨List.nodup_cons.mpr ⟨hnew, has.nodup⟩, ?_⟩, ?_⟩, ?_⟩
  · intro b
    rw [hctxs]
    by_cases hb : b = a
    · rw [hb, Function.update_self]
      simp
    · rw [Function.update_of_ne hb, List.mem_cons, ← has.live b]
      simp [hb]
  · have hsame : σ'.marked (Function.update mark a 0) (a :: as) = σ.marked mark as := by
      unfold Process.marked
      rw [hfreed, hledger, List.flatMap_cons, Function.update_self, Function.update_self]
      congr 1
      refine List.flatMap_congr fun b hb => ?_
      have hba : b ≠ a := fun hba => hnew (hba ▸ hb)
      rw [Function.update_of_ne hba, Function.update_of_ne hba]
    rw [hsame]
    exact hes
  · intro b hb
    rw [hctxs] at hb
    rw [hledger]
    by_cases hba : b = a
    · rw [hba, Function.update_self, Function.update_self]
      exact Nat.zero_le _
    · rw [Function.update_of_ne hba] at hb
      rw [Function.update_of_ne hba, Function.update_of_ne hba]
      exact hle b hb

/-- The pass has still to take the first `n` spans of the context `a`. -/
def PassPc.Awaits (m : Shared) (v : PassVars) (a : CtxAddr) (n : Nat) : PassPc → Prop
  | .begin _ => a ∈ m.tracer.threads
  | .walk => a ∈ v.rest
  | .loadHead b => a = b ∨ a ∈ v.rest
  | .loop b | .emit b _ =>
    (a = b ∧ ∃ k, v.head = UInt64.ofNat k ∧ n ≤ k ∧ k ≤ (m.ledger a).staged.length) ∨ a ∈ v.rest
  | .flush | .finish _ => False

/-- The drain of `otel_sqlite_close` has still to take the first `n` spans of the context `a`. -/
def Pc.Awaits (m : Shared) (a : CtxAddr) (n : Nat) : Pc → Prop
  | .drainPass _ p v => p.Awaits m v a n
  | _ => a ∈ m.tracer.threads

/-- `otel_sqlite_close` will take the marked spans, unless they were taken. -/
structure Process.Closing (σ : Process) (es : List OtelSpan) (mark : CtxAddr → Nat) : Prop where
  covers : σ.Covers es mark
  awaits : ∀ a, (σ.shared.tracer.ctxs a).isSome → mark a ≤ (σ.shared.ledger a).taken ∨
    (σ.pcs σ.closer).Awaits σ.shared a (mark a)

/-- A context stays awaited while others go on. -/
theorem awaits_mono {n : Nat} (h : pc.Awaits m a n)
    (hthreads : a ∈ m.tracer.threads → a ∈ m'.tracer.threads)
    (hstaged : (m.ledger a).staged <+: (m'.ledger a).staged) : pc.Awaits m' a n := by
  cases pc with
  | drainPass k p v =>
    cases p with
    | begin site => exact hthreads h
    | walk => exact h
    | loadHead b => exact h
    | loop b =>
      rcases h with ⟨rfl, k, hk, hle, hlen⟩ | hrest
      · exact Or.inl ⟨rfl, k, hk, hle, hlen.trans hstaged.length_le⟩
      · exact Or.inr hrest
    | emit b site =>
      rcases h with ⟨rfl, k, hk, hle, hlen⟩ | hrest
      · exact Or.inl ⟨rfl, k, hk, hle, hlen.trans hstaged.length_le⟩
      · exact Or.inr hrest
    | flush => exact h
    | finish site => exact h
  | _ => exact hthreads h

/-- Each step of the closer's own pass takes what it has to take. -/
theorem awaits_pass {k : Caller} {p' : PassPc} {n : Nat} (hheap : σ.HeapOk)
    (hpc : σ.pcs t = .drainPass k p v)
    (hpass : passStep pack σ.shared σ.shared.tracer.threads v p = .ok (m, some p', v'))
    (hlive : (σ.shared.tracer.ctxs a).isSome) (hn : n ≤ (σ.shared.ledger a).staged.length)
    (h : n ≤ (σ.shared.ledger a).taken ∨ p.Awaits σ.shared v a n) :
    n ≤ (m.ledger a).taken ∨ p'.Awaits m v' a n := by
  obtain ⟨c₀, hc₀⟩ := Option.isSome_iff_exists.mp hlive
  have hctx := hheap.ring.rings a c₀ hc₀
  have hstep : Stepped pack σ t ({ σ with shared := m }.goto t (.drainPass k p' v')) :=
    .drainPass k p p' v v' m hpc hpass
  have htaken : (σ.shared.ledger a).taken ≤ (m.ledger a).taken :=
    taken_thread hheap.ring hstep hctx.taken_le
  have hsame : (m.ledger a).staged = (σ.shared.ledger a).staged := (pass_spans hpass).1 a
  rcases h with hle | h
  · exact Or.inl (hle.trans htaken)
  cases pass_cases hpass with
  | beginStay => exact Or.inr h
  | beginSkip => exact Or.inr h
  | beginCall => exact Or.inr h
  | walkEnd hrest =>
    replace h : a ∈ v.rest := h
    rw [hrest] at h
    cases h
  | walkCtx b rest c hrest hc =>
    replace h : a ∈ v.rest := h
    rw [hrest] at h
    exact Or.inr (List.mem_cons.mp h)
  | loadHead b c hc =>
    rcases h with rfl | hrest
    · exact Or.inr (Or.inl ⟨rfl, _, (hheap.ring.rings a c hc).head_eq, hn, Nat.le_refl _⟩)
    · exact Or.inr (Or.inr hrest)
  | loopEnd b c hc heq =>
    rcases h with ⟨rfl, j, hj, hle, hlen⟩ | hrest
    · -- the pass has caught up with the head that it loaded
      have hplace := hheap.ring.places t
      rw [hpc] at hplace
      obtain ⟨htail, -⟩ := hplace a rfl
      refine Or.inl (le_trans ?_ htaken)
      by_cases hjt : j ≤ (σ.shared.ledger a).taken
      · exact hle.trans hjt
      · rw [htail, hj] at heq
        rw [(hctx.cursor_eq_iff (by omega) hlen).mp heq]
        exact hle
    · exact Or.inr hrest
  | loopAdd b c m hc hne hadd =>
    rcases h with ⟨rfl, j, hj, hle, hlen⟩ | hrest
    · exact Or.inr (Or.inl ⟨rfl, j, hj, hle, by rw [hsame]; exact hlen⟩)
    · exact Or.inr (Or.inr hrest)
  | emitStay b site site' hsite => exact Or.inr h
  | emitSkip b site hsite =>
    rcases h with ⟨rfl, j, hj, hle, hlen⟩ | hrest
    · exact Or.inr (Or.inl ⟨rfl, j, hj, hle, by rw [hsame]; exact hlen⟩)
    · exact Or.inr (Or.inr hrest)
  | emitCall b site c hsite hc =>
    rcases h with ⟨rfl, j, hj, hle, hlen⟩ | hrest
    · exact Or.inr (Or.inl ⟨rfl, j, hj, hle, by rw [hsame]; exact hlen⟩)
    · exact Or.inr (Or.inr hrest)
  | flush tr ht => exact h.elim
  | finishStay site site' hsite => exact h.elim

/-- Another thread, or the closer outside of its pass. -/
theorem Process.Closing.move (h : σ.Closing es mark) (hok : σ.StoredOk sink)
    (hsome : σ.shared.tracer.sink ≠ none) (hstep : Stepped pack σ t σ')
    (hcovers : σ'.Covers es mark)
    (hlive : ∀ a, (σ'.shared.tracer.ctxs a).isSome → (σ.shared.tracer.ctxs a).isSome)
    (hself : ∀ a, (σ.pcs σ.closer).Awaits σ.shared a (mark a) →
      (a ∈ σ.shared.tracer.threads → a ∈ σ'.shared.tracer.threads) →
      (σ'.pcs σ'.closer).Awaits σ'.shared a (mark a)) : σ'.Closing es mark := by
  refine ⟨hcovers, ?_⟩
  intro a ha'
  have ha := hlive a ha'
  obtain ⟨c, hc⟩ := Option.isSome_iff_exists.mp ha
  have hheap := hok.calls.heap
  have htaken := taken_thread (b := a) hheap.ring hstep (hheap.ring.rings a c hc).taken_le
  rcases h.awaits a ha with hle | hawaits
  · exact Or.inl (hle.trans htaken)
  · by_cases hleaving : σ.pcs t = .unregisterUnlink a
    · -- what leaves the registry has been emptied
      have hall := (hok.spans hsome).leave t
      rw [hleaving] at hall
      replace hall : (σ.shared.ledger a).taken = (σ.shared.ledger a).staged.length := hall
      have hle := h.covers.le a ha
      exact Or.inl (by omega)
    · refine Or.inr (hself a hawaits fun hmem => ?_)
      rcases linked_thread hheap.own.nodup (fun _ => hheap.own.linked_live) hstep hmem with hin | hout
      · exact hin
      · exact absurd hout hleaving

/-- The drain of `otel_sqlite_close` has still to take spans of `es`, or they are committed. -/
def Process.Durable (σ : Process) (es : List OtelSpan) : Prop :=
  ((σ.pcs σ.closer).closing = true ∧ σ.shared.tracer.sink ≠ none ∧ ∃ mark, σ.Closing es mark) ∨
    es.Subperm (journal σ.shared.tracer.out).closed

theorem covers_thread (h : σ.Covers es mark) (hstep : Stepped pack σ t σ') : σ'.Covers es mark := by
  rcases heap_thread hstep with ⟨hlive, hfreed⟩ | ⟨a, -, ha, hctxs, hfreed, hledger⟩
  · exact h.keep hlive hfreed fun b => (staged_thread hstep b).1
  · exact h.free ha hctxs hfreed hledger

theorem live_thread (hstep : Stepped pack σ t σ') (h : (σ'.shared.tracer.ctxs a).isSome) :
    (σ.shared.tracer.ctxs a).isSome := by
  rcases heap_thread hstep with ⟨hlive, -⟩ | ⟨b, -, -, hctxs, -, -⟩
  · rwa [← hlive a]
  · rw [hctxs] at h
    by_cases hab : a = b
    · rw [hab, Function.update_self] at h
      cases h
    · rwa [Function.update_of_ne hab] at h

/-- When nothing is awaited any more, the sink was given all that is marked. -/
theorem Process.Covers.given (h : σ.Covers es mark) (hok : σ.StoredOk sink)
    (hsome : σ.shared.tracer.sink ≠ none)
    (hall : ∀ a, (σ.shared.tracer.ctxs a).isSome → mark a ≤ (σ.shared.ledger a).taken) :
    es.Subperm (sinkSpans σ.shared.tracer.out) := by
  obtain ⟨⟨as, has, hes⟩, -⟩ := h
  obtain ⟨bs, hbs⟩ := hok.output
  obtain ⟨hkept, -, hfreed, -⟩ := hok.spans hsome
  refine hes.trans ?_
  have hgiven : ∀ a ∈ as, ((σ.shared.ledger a).staged.take (mark a)).Sublist
      (σ.shared.ledger a).given := by
    intro a ha
    have hlive := (has.live a).mp ha
    obtain ⟨c, hc⟩ := Option.isSome_iff_exists.mp hlive
    rw [given_eq hok.calls.given hkept a (hok.calls.heap.ring.rings a c hc).taken_le]
    exact List.take_sublist_take_left (hall a hlive)
  have hlists : as.Perm bs := Process.Lists.perm has ⟨hbs.nodup, hbs.live⟩
  have hfreed' : σ.shared.freed.flatMap Ledger.staged = σ.shared.freed.flatMap Ledger.given :=
    List.flatMap_congr fun l hl => (hfreed l hl).symm
  have hsub := List.Sublist.flatMap_right as hgiven
  unfold Process.marked
  rw [hfreed']
  refine (hsub.append_right _).subperm.trans ?_
  exact (((hlists.flatMap_right _).append_right _).trans hbs.spans.symm).subperm

/-- The closer goes on to a place where the registry is still to be walked. -/
theorem Process.Closing.next (h : σ.Closing es mark) (hsome : σ.shared.tracer.sink ≠ none)
    (hpc : σ.pcs σ.closer = pc) (hpcs : σ'.pcs = Function.update σ.pcs σ.closer pc')
    (hcloser : σ'.closer = σ.closer) (hshared : σ'.shared = σ.shared)
    (hclosing : pc'.closing = true)
    (hawaits : ∀ a n, pc.Awaits σ.shared a n → a ∈ σ.shared.tracer.threads)
    (hawaits' : ∀ a n, a ∈ σ.shared.tracer.threads → pc'.Awaits σ.shared a n) :
    σ'.Durable es := by
  have hself : σ'.pcs σ'.closer = pc' := by
    rw [hpcs, hcloser, Function.update_self]
  refine Or.inl ⟨?_, ?_, mark, ?_, ?_⟩
  · rw [hself]
    exact hclosing
  · rw [hshared]
    exact hsome
  · exact h.covers.keep (by rw [hshared]; exact fun _ => rfl) (by rw [hshared])
      (by rw [hshared]; exact fun _ => List.prefix_refl _)
  · rw [hself, hshared]
    intro a ha
    rcases h.awaits a ha with hle | hold
    · exact Or.inl hle
    · rw [hpc] at hold
      exact Or.inr (hawaits' a _ (hawaits a _ hold))

/-- The closer takes a step of `otel_sqlite_close`, before its drain is over. -/
theorem closing_self (hok : σ.StoredOk sink) (hend : sink.hasEnd = true)
    (hclosing : (σ.pcs σ.closer).closing = true) (hsome : σ.shared.tracer.sink ≠ none)
    (h : σ.Closing es mark) (hstep : Stepped pack σ σ.closer σ') : σ'.Durable es := by
  have hcovers := covers_thread h.covers hstep
  have hlive : ∀ a, (σ'.shared.tracer.ctxs a).isSome → (σ.shared.tracer.ctxs a).isSome :=
    fun a => live_thread hstep
  have hnot : ∀ {pc}, σ.pcs σ.closer = pc → pc.closing = false → σ'.Durable es := by
    intro pc hpc hno
    rw [hpc, hno] at hclosing
    cases hclosing
  cases hstep with
  | closeJoining hpc | closeAlone hpc | closeLock hpc | closeClear hpc | closeSignal _ hpc
  | closeUnlock hpc | closeJoin hpc =>
    exact h.next hsome hpc rfl rfl rfl rfl (fun _ _ hmem => hmem) fun _ _ hmem => hmem
  | drainStart k hpc =>
    rw [hpc] at hclosing
    exact h.next hsome hpc rfl rfl rfl hclosing (fun _ _ hmem => hmem) fun _ _ hmem => hmem
  | drainLock k hpc =>
    rw [hpc] at hclosing
    exact h.next hsome hpc rfl rfl rfl hclosing (fun _ _ hmem => hmem) fun _ _ hmem => hmem
  | drainRdlock k hpc =>
    rw [hpc] at hclosing
    exact h.next hsome hpc rfl rfl rfl hclosing (fun _ _ hmem => hmem) fun _ _ hmem => hmem
  | drainSkip k hpc hoff =>
    rw [hok.calls.set.enabled hsome] at hoff
    cases hoff
  | drainPass k p p' v v' m hpc hpass =>
    rw [hpc] at hclosing
    have hself : ({ σ with shared := m }.goto σ.closer (.drainPass k p' v')).pcs σ.closer =
        .drainPass k p' v' := Function.update_self ..
    refine Or.inl ⟨?_, ?_, mark, hcovers, ?_⟩
    · show (({ σ with shared := m }.goto σ.closer (.drainPass k p' v')).pcs σ.closer).closing = true
      rw [hself]
      exact hclosing
    · show m.tracer.sink ≠ none
      rw [(pass_sameSink hpass).sink]
      exact hsome
    · intro a ha
      show mark a ≤ (m.ledger a).taken ∨
        (({ σ with shared := m }.goto σ.closer (.drainPass k p' v')).pcs σ.closer).Awaits m a (mark a)
      rw [hself]
      have hold := h.awaits a (hlive a ha)
      rw [hpc] at hold
      exact awaits_pass hok.calls.heap hpc hpass (hlive a ha) (h.covers.le a (hlive a ha)) hold
  | drainPassed k p v v' m hpc hpass =>
    -- the pass is over, and its `end` commits
    have hall : ∀ a, (σ.shared.tracer.ctxs a).isSome → mark a ≤ (σ.shared.ledger a).taken := by
      intro a ha
      rcases h.awaits a ha with hle | hold
      · exact hle
      · rw [hpc] at hold
        cases pass_cases hpass with
        | finishSkip => exact hold.elim
        | finishCall => exact hold.elim
    refine Or.inr ?_
    show es.Subperm (journal m.tracer.out).closed
    cases pass_cases hpass with
    | finishSkip site hsite =>
      exact (hok.calls.set.not_skip (f := .finish) hend hsome hsite).elim
    | finishCall site hsite =>
      have hgiven := h.covers.given hok hsome hall
      rw [sinkSpans_journal] at hgiven
      show es.Subperm (journal (σ.shared.tracer.out ++ [.sinkEnd])).closed
      rw [journal_snoc]
      exact hgiven
  | _ => exact hnot (by assumption) rfl

/-- Another thread takes a step. -/
theorem closing_other (hok : σ.StoredOk sink) (hclosing : (σ.pcs σ.closer).closing = true)
    (hsome : σ.shared.tracer.sink ≠ none) (h : σ.Closing es mark) (hstep : Stepped pack σ t σ')
    (hpcs : σ'.pcs σ.closer = σ.pcs σ.closer) (hcloser : σ'.closer = σ.closer) (ht : t ≠ σ.closer) :
    σ'.Durable es := by
  have hquiet : (σ.pcs t).detaching = false := by
    by_contra hdetaching
    exact ht (hok.detacher t (Bool.not_eq_false _ ▸ hdetaching))
  refine Or.inl ⟨?_, ?_, mark, h.move hok hsome hstep (covers_thread h.covers hstep)
    (fun a => live_thread hstep) ?_⟩
  · rw [hcloser, hpcs]
    exact hclosing
  · rw [(sameSink_thread hstep hquiet).sink]
    exact hsome
  · intro a hawaits hmem
    rw [hcloser, hpcs]
    exact awaits_mono hawaits hmem (staged_thread hstep a).1

/-- A call that does not touch the contexts, or a wake-up. -/
theorem closing_same (h : σ.Closing es mark) (hclosing : (σ.pcs σ.closer).closing = true)
    (hsome : σ.shared.tracer.sink ≠ none) (hpcs : σ'.pcs σ.closer = σ.pcs σ.closer)
    (hcloser : σ'.closer = σ.closer) (hsink : σ'.shared.tracer.sink = σ.shared.tracer.sink)
    (hctxs : σ'.shared.tracer.ctxs = σ.shared.tracer.ctxs)
    (hthreads : σ'.shared.tracer.threads = σ.shared.tracer.threads)
    (hledger : σ'.shared.ledger = σ.shared.ledger) (hfreed : σ'.shared.freed = σ.shared.freed) :
    σ'.Durable es := by
  have hstaged : ∀ a, (σ.shared.ledger a).staged <+: (σ'.shared.ledger a).staged :=
    fun a => ⟨[], by rw [hledger, List.append_nil]⟩
  refine Or.inl ⟨by rw [hcloser, hpcs]; exact hclosing, by rw [hsink]; exact hsome, mark,
    h.covers.keep (fun a => by rw [hctxs]) hfreed hstaged, ?_⟩
  intro a ha
  rw [hctxs] at ha
  rw [hcloser, hpcs, hledger]
  rcases h.awaits a ha with hle | hold
  · exact Or.inl hle
  · exact Or.inr (awaits_mono hold (by rw [hthreads]; exact id) (hstaged a))

/-- A context is allocated while `otel_sqlite_close` runs. -/
theorem closing_alloc {seed : OtelRandomState} {now : UInt64} (h : σ.Closing es mark)
    (hclosing : (σ.pcs σ.closer).closing = true) (hsome : σ.shared.tracer.sink ≠ none)
    (hne : t ≠ σ.closer) (hfree : σ.shared.tracer.ctxs a = none) :
    ({ σ with shared := σ.shared.alloc a seed now }.goto t (.registerLock a)).Durable es := by
  have hpcs : Function.update σ.pcs t (.registerLock a) σ.closer = σ.pcs σ.closer :=
    Function.update_of_ne hne.symm ..
  refine Or.inl ⟨?_, hsome, Function.update mark a 0, ?_, ?_⟩
  · show (Function.update σ.pcs t (.registerLock a) σ.closer).closing = true
    rw [hpcs]
    exact hclosing
  · exact h.covers.alloc hfree rfl rfl rfl
  · intro b hb
    replace hb : (Function.update σ.shared.tracer.ctxs a _ b).isSome := hb
    show Function.update mark a 0 b ≤ (Function.update σ.shared.ledger a Ledger.empty b).taken ∨
      (Function.update σ.pcs t (.registerLock a) σ.closer).Awaits (σ.shared.alloc a seed now) b
        (Function.update mark a 0 b)
    rw [hpcs]
    by_cases hba : b = a
    · rw [hba, Function.update_self]
      exact Or.inl (Nat.zero_le _)
    · rw [Function.update_of_ne hba] at hb
      rw [Function.update_of_ne hba, Function.update_of_ne hba]
      rcases h.awaits b hb with hle | hold
      · exact Or.inl hle
      · refine Or.inr (awaits_mono hold id ?_)
        refine ⟨[], ?_⟩
        show _ = (Function.update σ.shared.ledger a Ledger.empty b).staged
        rw [Function.update_of_ne hba, List.append_nil]

theorem calls_extends (h : Calls m m') : ∃ more, m'.tracer.out = m.tracer.out ++ more := by
  cases h with
  | quiet bufs hout => exact ⟨_, hout⟩
  | begin hopen hout => exact ⟨_, hout⟩
  | span a s hopen hgiven hout => exact ⟨_, hout⟩
  | finish hopen hout => exact ⟨_, hout⟩

theorem durable_step {x : Act} (hend : sink.hasEnd = true) (hok : σ.StoredOk sink)
    (h : σ.Durable es) (he : x.Possible σ) (hstep : processStep pack σ x = .ok σ') :
    σ'.Durable es := by
  rcases h with ⟨hclosing, hsome, mark, h⟩ | hdone
  · have hcloser := closer_step he hstep
    cases x with
    | timer =>
      cases hstep
      have hne := hok.calls.heap.control.roles.distinct
      exact closing_same h hclosing hsome (Function.update_of_ne hne ..) rfl rfl rfl rfl rfl rfl
    | step t =>
      have hstepped := step_cases he hstep
      by_cases ht : t = σ.closer
      · subst ht
        exact closing_self hok hend hclosing hsome h hstepped
      · have hpcs : σ'.pcs σ.closer = σ.pcs σ.closer :=
          step_other he hstep ⟨by rintro ⟨⟩, ht⟩
        exact closing_other hok hclosing hsome h hstepped hpcs hcloser ht
    | call t c =>
      have hne : t ≠ σ.closer := by
        rintro rfl
        rw [he.1] at hclosing
        cases hclosing
      have hpcs : σ'.pcs σ.closer = σ.pcs σ.closer := step_other he hstep ⟨by rintro ⟨⟩, hne⟩
      cases call_cases hstep with
      | register a seed now htls => exact closing_alloc h hclosing hsome hne he.2
      | _ => exact closing_same h hclosing hsome hpcs hcloser rfl rfl rfl rfl rfl
  · obtain ⟨more, hmore⟩ := calls_extends (calls_step hok.calls.bracketed he hstep)
    refine Or.inr (hdone.trans ?_)
    rw [hmore]
    exact (journal_closed_grows _ _).sublist.subperm

/-! ## Closing the store -/

/-- The sink is given no span more often than it was accepted. -/
theorem Process.StoredOk.accepted (h : σ.StoredOk sink) :
    ∃ as, σ.Lists as ∧ (sinkSpans σ.shared.tracer.out).Subperm (σ.accepted as) := by
  obtain ⟨as, has⟩ := h.output
  refine ⟨as, ⟨has.nodup, has.live⟩, has.spans.subperm.trans ?_⟩
  have hlive := List.Sublist.flatMap_right as fun a _ =>
    (h.calls.given.ledger a).trans (List.take_sublist ..)
  exact (hlive.append (List.Sublist.flatMap_right _ h.calls.given.freed)).subperm

/-- What is known of the spans and of the store in every state. -/
def Process.Stored (sink : OtelSpanSink) (service : Bytes) (db : Store) (σ : Process) : Prop :=
  σ.StoredOk sink ∧ ∃ st, Replays service db σ.shared.tracer.out st

theorem stored_step {x : Act} (hbegin : sink.hasBegin = true) (hspan : sink.hasSpan = true)
    (hend : sink.hasEnd = true) (h : σ.Stored sink service db) (hx : ∀ s, x.Ends s → Finished s)
    (he : x.Possible σ) (hstep : processStep pack σ x = .ok σ') : σ'.Stored sink service db := by
  obtain ⟨hok, st, hst⟩ := h
  have hok' := storedOk_step hbegin hspan hend hok hx he hstep
  exact ⟨hok', replays_step hok.calls hok'.calls hst he hstep⟩

/-- When `otel_sqlite_close` is called, its drain has all to take that is left in the rings. -/
theorem durable_call {as : List CtxAddr} (h : σ.StoredOk sink)
    (hsome : σ.shared.tracer.sink ≠ none) (has : σ.Lists as) :
    ({ σ with closeCalled := true }.goto σ.closer .closeTest).Durable (σ.accepted as) := by
  have hpcs : Function.update σ.pcs σ.closer .closeTest σ.closer = .closeTest :=
    Function.update_self ..
  refine Or.inl ⟨?_, hsome, fun a => (σ.shared.ledger a).staged.length, ?_, ?_⟩
  · show (Function.update σ.pcs σ.closer .closeTest σ.closer).closing = true
    rw [hpcs]
    rfl
  · exact (covers_accepted has).keep (fun _ => rfl) rfl fun _ => List.prefix_refl _
  · intro a ha
    show (σ.shared.ledger a).staged.length ≤ (σ.shared.ledger a).taken ∨
      (Function.update σ.pcs σ.closer .closeTest σ.closer).Awaits σ.shared a _
    rw [hpcs]
    rcases (h.spans hsome).linked a ha with hmem | hall
    · exact Or.inr hmem
    · exact Or.inl (le_of_eq hall.symm)

/-- What is known of the spans and of the store after `otel_sqlite_close` was called. -/
theorem stored_close (service : Bytes) (db : Store) {σ₀ σ₁ : Process} {acts₁ acts₂ : List Act}
    {as : List CtxAddr} (h0 : σ₀.AtRest) (hv : σ₀.Vacant) (hf : σ₀.Fresh otelSqliteSink)
    (hfin : ∀ x ∈ acts₁ ++ acts₂, ∀ s, x.Ends s → Finished s)
    (hrun₁ : (processMachine pack).Run σ₀ acts₁ σ₁) (hsink : σ₁.shared.tracer.sink ≠ none)
    (hrun₂ : (processMachine pack).Run σ₁ (.call σ₁.closer .close :: acts₂) σ)
    (has : σ₁.Lists as) :
    σ.Stored otelSqliteSink service db ∧ σ.Durable (σ₁.accepted as) := by
  have hstored₀ : σ₀.Stored otelSqliteSink service db :=
    ⟨storedOk_start h0 hv hf, _, replays_nil hf.calls⟩
  have hstored₁ : σ₁.Stored otelSqliteSink service db := hrun₁.invariant hstored₀
    fun _ x hx _ hi he hstep =>
      stored_step rfl rfl rfl hi (hfin x (List.mem_append_left _ hx)) he hstep
  obtain ⟨σ₂, he, hcall, hrun⟩ := hrun₂.cons_inv
  have hpossible : Act.Possible σ₁ (.call σ₁.closer .close) := he
  have hclose : processStep pack σ₁ (.call σ₁.closer .close) = .ok σ₂ := hcall
  have hstored₂ : σ₂.Stored otelSqliteSink service db :=
    stored_step rfl rfl rfl hstored₁ (by rintro s ⟨⟩) hpossible hclose
  have hdurable₂ : σ₂.Durable (σ₁.accepted as) := by
    cases hcall
    exact durable_call hstored₁.1 hsink has
  refine hrun.invariant (I := fun σ => σ.Stored otelSqliteSink service db ∧
    σ.Durable (σ₁.accepted as)) ⟨hstored₂, hdurable₂⟩ ?_
  rintro σ x hx σ' ⟨hi, hd⟩ he hstep
  exact ⟨stored_step rfl rfl rfl hi (hfin x (List.mem_append_right _ hx)) he hstep,
    durable_step rfl hi.1 hd he hstep⟩

/-- The drain of `otel_sqlite_close` is over. -/
theorem Process.Durable.over {es : List OtelSpan} (h : σ.Durable es)
    (hover : (σ.pcs σ.closer).closing = false) :
    es.Subperm (journal σ.shared.tracer.out).closed := by
  rcases h with ⟨hclosing, -⟩ | hdone
  · rw [hover] at hclosing
    cases hclosing
  · exact hdone

/-- The store is closed: all spans that were accepted into rings before `otel_sqlite_close` was called are
durable when its drain is over, and from then on, whatever other threads do meanwhile and afterwards;
and no span was given to the store more often than it was accepted. -/
theorem close_durable (pack : Proto.ExportTraceServiceRequest → Bytes) (service : Bytes) (db : Store)
    (σ₀ σ₁ σ : Process) (acts₁ acts₂ : List Act) (as : List CtxAddr) (h0 : σ₀.AtRest)
    (hv : σ₀.Vacant) (hf : σ₀.Fresh otelSqliteSink)
    (hfin : ∀ x ∈ acts₁ ++ acts₂, ∀ s, x.Ends s → Finished s)
    (hrun₁ : (processMachine pack).Run σ₀ acts₁ σ₁) (hsink : σ₁.shared.tracer.sink ≠ none)
    (hrun₂ : (processMachine pack).Run σ₁ (.call σ₁.closer .close :: acts₂) σ)
    (has : σ₁.Lists as) (hover : (σ.pcs σ.closer).closing = false) :
    ∃ st, σ.Recorded service db st ∧
      (σ₁.accepted as).Subperm (journal σ.shared.tracer.out).closed ∧
      ∃ as', σ.Lists as' ∧
        ((journal σ.shared.tracer.out).closed ++ (journal σ.shared.tracer.out).current).Subperm
          (σ.accepted as') := by
  obtain ⟨⟨hok, st, hst⟩, hdurable⟩ := stored_close service db h0 hv hf hfin hrun₁ hsink hrun₂ has
  refine ⟨st, ⟨hst.run, hst.durable, hst.data⟩, hdurable.over hover, ?_⟩
  rw [← sinkSpans_journal]
  exact hok.accepted

/-- Thread 2 ends a span. -/
def acceptingOne : List Act := exportingOne.take 8

theorem acceptingOne_finished : ∀ x ∈ acceptingOne ++ List.replicate 31 (.step 1), ∀ s,
    x.Ends s → Finished s := by
  intro x hx s hs
  rcases List.mem_append.mp hx with hx | hx
  · exact exportingOne_finished x (List.mem_of_mem_take hx) s hs
  · rw [List.eq_of_mem_replicate hx] at hs
    cases hs

theorem close_durable_sample : ∃ (σ : Process) (st : OtelSqlite), σ.finalized = true ∧
    σ.Recorded [] Store.empty st ∧
    [stampEnd (sampleSession [97]).span 1].Subperm (journal σ.shared.tracer.out).closed := by
  have hrun₁ : ∃ σ₁, ((σ₁.closer = 1 ∧ σ₁.shared.tracer.sink ≠ none) ∧
      (∀ a, (σ₁.shared.tracer.ctxs a).isSome → a = 7) ∧ (σ₁.shared.tracer.ctxs 7).isSome ∧
      σ₁.accepted [7] = [stampEnd (sampleSession [97]).span 1]) ∧
      (processMachine Proto.ExportTraceServiceRequest.encode).Run
        (Process.start storingTracer false 0 1) acceptingOne σ₁ ∧
      ∃ σ, (σ.closer = 1 ∧ (σ.pcs 1).closing = false ∧ σ.finalized = true) ∧
        (processMachine Proto.ExportTraceServiceRequest.encode).Run σ₁
          (.call 1 .close :: List.replicate 31 (.step 1)) σ := by
    refine ⟨_, ⟨⟨rfl, by rintro ⟨⟩⟩, ?_, rfl, rfl⟩, .cons ⟨rfl, rfl⟩ rfl (.cons ⟨rfl, rfl⟩ rfl
      (.cons trivial rfl (.cons trivial rfl (.cons ⟨rfl, trivial⟩ rfl (.cons trivial rfl
      (.cons trivial rfl (.cons trivial rfl .nil))))))), _, ⟨rfl, rfl, rfl⟩,
      .cons ⟨rfl, rfl, rfl⟩ rfl (.cons trivial rfl (.cons trivial rfl (.cons rfl rfl
      (.cons rfl rfl (.cons trivial rfl (.cons trivial rfl (.cons trivial rfl (.cons trivial rfl
      (.cons trivial rfl (.cons trivial rfl (.cons trivial rfl (.cons trivial rfl
      (.cons trivial rfl (.cons trivial rfl (.cons trivial rfl (.cons trivial rfl
      (.cons trivial rfl (.cons trivial rfl (.cons trivial rfl (.cons trivial rfl
      (.cons trivial rfl (.cons trivial rfl (.cons trivial rfl (.cons trivial rfl
      (.cons trivial rfl (.cons trivial rfl (.cons trivial rfl (.cons trivial rfl
      (.cons trivial rfl (.cons trivial rfl (.cons trivial rfl .nil)))))))))))))))))))))))))))))))⟩
    intro a ha
    by_contra hne
    replace ha : (Function.update (Function.update (Function.update (fun _ => none) 7 _) 7 _) 7 _
      a).isSome := ha
    rw [Function.update_of_ne hne, Function.update_of_ne hne, Function.update_of_ne hne] at ha
    cases ha
  obtain ⟨σ₁, ⟨⟨hcloser, hsink⟩, honly, hlive, haccepted⟩, h₁, σ, ⟨hcloser', hover, hfinal⟩, h⟩ :=
    hrun₁
  replace h : (processMachine Proto.ExportTraceServiceRequest.encode).Run σ₁
      (.call σ₁.closer .close :: List.replicate 31 (.step 1)) σ := by
    rw [hcloser]
    exact h
  have hlists := lists_singleton honly hlive
  obtain ⟨hrest, hvacant, hfresh⟩ := storing_start false
  obtain ⟨st, hst, hdone, -⟩ := close_durable _ [] Store.empty _ σ₁ σ _ _ [7] hrest hvacant hfresh
    acceptingOne_finished h₁ hsink h hlists
    (by rw [hcloser']; exact hover)
  rw [haccepted] at hdone
  exact ⟨σ, st, hfinal, hst, hdone⟩

end OtelTracing
