import OtelTracing.Proofs.RingProofs

/-!
# Proofs: ledgers

What a step can do to a ledger, and what the ledgers say of the spans that the sink was given.
-/

namespace OtelTracing

open ByteMem Locks Outcome

variable {pack : Proto.ExportTraceServiceRequest → Bytes} {σ σ' : Process} {t u : ThreadId}
  {pc pc' : Pc} {a b : CtxAddr} {c : OtelThreadCtx} {l l' : Ledger} {m m' : Shared} {s : OtelSpan}
  {head : UInt64} {e : EndPc} {p : PassPc} {v v' : PassVars}

/-! ## Steps of a ledger -/

/-- A pass that looks for a `span` callback does not find one. -/
def Tracer.SkipsSpans (tr : Tracer) : Prop :=
  tr.sinkPresent = false ∨ ∃ sink, tr.sink = some sink ∧ sink.hasSpan = false

inductive LedgerStep (tr : Tracer) (l : Ledger) : Ledger → Prop
  | same : LedgerStep tr l l
  | new : LedgerStep tr l Ledger.empty
  | stage (s : OtelSpan) : LedgerStep tr l { l with staged := l.staged ++ [s] }
  | enter : LedgerStep tr l { l with added := l.added + 1 }
  | skip (hlt : l.taken < l.staged.length) (h : tr.SkipsSpans) :
      LedgerStep tr l { l with taken := l.taken + 1 }
  | give (hlt : l.taken < l.staged.length) :
      LedgerStep tr l { l with given := l.given ++ [l.staged[l.taken]], taken := l.taken + 1 }
  | publish : LedgerStep tr l { l with published := l.taken }

theorem ledgerStep_set {tr : Tracer} {ledger : CtxAddr → Ledger} (h : LedgerStep tr (ledger a) l)
    (b : CtxAddr) : LedgerStep tr (ledger b) (Function.update ledger a l b) := by
  by_cases hb : b = a
  · subst hb
    rw [Function.update_self]
    exact h
  · rw [Function.update_of_ne hb]
    exact .same

theorem add_ledger {q : Slot} (h : m.add pack q = .ok m') :
    m'.ledger = m.ledger ∨
      m'.ledger = Function.update m.ledger q.ctx
        { m.ledger q.ctx with added := (m.ledger q.ctx).added + 1 } := by
  obtain ⟨t, -, h⟩ := bind_ok h
  cases h
  by_cases hp : m.tracer.transportPresent = true
  · rw [if_pos hp]
    exact Or.inr rfl
  · rw [if_neg hp]
    exact Or.inl rfl

/-- What a pass gives to the sink is the next span that it has not taken. -/
theorem give_take_ledger (hc : m.tracer.ctxs a = some c) (hctx : CtxOk c (m.ledger a))
    (htail : v.tail = UInt64.ofNat (m.ledger a).taken)
    (hlt : (m.ledger a).taken < (m.ledger a).staged.length) :
    ((m.give ⟨a, c.slot v.tail⟩).take a).ledger = Function.update m.ledger a
      { m.ledger a with
        given := (m.ledger a).given ++ [(m.ledger a).staged[(m.ledger a).taken]]
        taken := (m.ledger a).taken + 1 } := by
  have hread : ringMem m.tracer.ctxs ⟨a, c.slot v.tail⟩ =
      (m.ledger a).staged[(m.ledger a).taken] := by
    simp only [ringMem, hc]
    rw [htail]
    exact hctx.read hlt
  have hgive := give_ledger m ⟨a, c.slot v.tail⟩
  rw [hread] at hgive
  show Function.update (Function.update m.ledger a _) a { (m.give _).ledger a with
    taken := ((m.give ⟨a, c.slot v.tail⟩).ledger a).taken + 1 } = _
  rw [Function.update_idem, hgive]

theorem pass_ledger {ctxs : List CtxAddr} {p' : Option PassPc}
    (hrings : ∀ a c, m.tracer.ctxs a = some c → CtxOk c (m.ledger a))
    (hplace : ∀ a, p.ring = some a → Walking v (m.ledger a) p)
    (h : passStep pack m ctxs v p = .ok (m', p', v')) (b : CtxAddr) :
    LedgerStep m.tracer (m.ledger b) (m'.ledger b) := by
  cases pass_cases h with
  | loopEnd a c hc heq => exact ledgerStep_set .publish b
  | loopAdd a c m' hc hne hadd =>
    rcases add_ledger hadd with hsame | henter
    · rw [hsame]
      exact .same
    · rw [henter]
      exact ledgerStep_set .enter b
  | emitSkip a site hsite =>
    obtain ⟨-, n, -, hlt, hle⟩ := hplace a rfl
    refine ledgerStep_set (.skip (by omega) ?_) b
    cases hsite with
    | absent hp => exact Or.inl hp
    | unset sink hs hset => exact Or.inr ⟨sink, hs, hset⟩
  | emitCall a site c hsite hc =>
    obtain ⟨htail, n, -, hlt, hle⟩ := hplace a rfl
    rw [give_take_ledger hc (hrings a c hc) htail (by omega)]
    exact ledgerStep_set (.give (by omega)) b
  | _ => exact .same

theorem pass_ledger_other {ctxs : List CtxAddr} {p' : Option PassPc}
    (h : passStep pack m ctxs v p = .ok (m', p', v')) (hb : p.ring ≠ some b) :
    m'.ledger b = m.ledger b := by
  have hne : ∀ a, p.ring = some a → b ≠ a := by
    rintro a ha rfl
    exact hb ha
  cases pass_cases h with
  | loopEnd a => exact Function.update_of_ne (hne a rfl) ..
  | loopAdd a c m' hc hneq hadd =>
    rcases add_ledger hadd with hsame | henter
    · rw [hsame]
    · rw [henter]
      exact Function.update_of_ne (hne a rfl) ..
  | emitSkip a => exact Function.update_of_ne (hne a rfl) ..
  | emitCall a =>
    exact (Function.update_of_ne (hne a rfl) ..).trans (Function.update_of_ne (hne a rfl) ..)
  | _ => rfl

theorem pass_freed {ctxs : List CtxAddr} {p' : Option PassPc}
    (h : passStep pack m ctxs v p = .ok (m', p', v')) : m'.freed = m.freed := by
  cases pass_cases h with
  | loopAdd a c m' hc hne hadd =>
    obtain ⟨t, -, hadd⟩ := bind_ok hadd
    cases hadd
    by_cases hp : m.tracer.transportPresent = true
    · rw [if_pos hp]
      rfl
    · rw [if_neg hp]
  | _ => rfl

theorem end_ledger {e' : Option EndPc} (h : endStep m a s head e = .ok (m', e')) :
    m'.ledger = m.ledger ∨
      m'.ledger = Function.update m.ledger a
        { m.ledger a with staged := (m.ledger a).staged ++ [s] } := by
  cases endStep_cases h with
  | full => exact Or.inl rfl
  | room => exact Or.inl rfl
  | copy => exact Or.inl rfl
  | storeHead => exact Or.inr rfl

theorem ledger_thread (h : σ.RingOk) (hstep : Stepped pack σ t σ') (b : CtxAddr) :
    LedgerStep σ.shared.tracer (σ.shared.ledger b) (σ'.shared.ledger b) := by
  have hplace := h.places t
  cases hstep with
  | spanEnd a s head e e' m hpc hend =>
    show LedgerStep _ _ (m.ledger b)
    rcases end_ledger hend with hsame | hstaged
    · rw [hsame]
      exact .same
    · rw [hstaged]
      exact ledgerStep_set (.stage s) b
  | spanEnded a s head e m hpc hend =>
    show LedgerStep _ _ (m.ledger b)
    rcases end_ledger hend with hsame | hstaged
    · rw [hsame]
      exact .same
    · rw [hstaged]
      exact ledgerStep_set (.stage s) b
  | unregisterPass a p p' v v' m hpc hpass =>
    rw [hpc] at hplace
    exact pass_ledger h.rings hplace hpass b
  | unregisterPassed a p v v' m hpc hpass =>
    rw [hpc] at hplace
    exact pass_ledger h.rings hplace hpass b
  | drainPass k p p' v v' m hpc hpass =>
    rw [hpc] at hplace
    exact pass_ledger h.rings hplace hpass b
  | drainPassed k p v v' m hpc hpass =>
    rw [hpc] at hplace
    exact pass_ledger h.rings hplace hpass b
  | unregisterUnlink a m hpc hunlink =>
    obtain ⟨threads, -, hm⟩ := bind_ok hunlink
    cases hm
    exact .same
  | unregisterFree a m hpc hfree =>
    obtain ⟨tracer, -, hm⟩ := bind_ok hfree
    cases hm
    exact .same
  | _ => exact .same

theorem ledger_step {x : Act} (h : σ.RingOk) (he : x.Possible σ)
    (hstep : processStep pack σ x = .ok σ') (b : CtxAddr) :
    LedgerStep σ.shared.tracer (σ.shared.ledger b) (σ'.shared.ledger b) := by
  cases x with
  | timer =>
    cases hstep
    exact .same
  | step t => exact ledger_thread h (step_cases he hstep) b
  | call t c =>
    cases call_cases hstep with
    | register a seed now htls => exact ledgerStep_set .new b
    | _ => exact .same

theorem ledger_frame (hstep : Stepped pack σ t σ') (hring : (σ.pcs t).ring ≠ some b)
    (hend : ∀ s head e, σ.pcs t ≠ .spanEnd b s head e) :
    σ'.shared.ledger b = σ.shared.ledger b := by
  cases hstep with
  | spanEnd a s head e e' m hpc hstep =>
    have hb : b ≠ a := fun hba => hend s head e (hba ▸ hpc)
    show m.ledger b = _
    rcases end_ledger hstep with hsame | hstaged
    · rw [hsame]
    · rw [hstaged]
      exact Function.update_of_ne hb ..
  | spanEnded a s head e m hpc hstep =>
    have hb : b ≠ a := fun hba => hend s head e (hba ▸ hpc)
    show m.ledger b = _
    rcases end_ledger hstep with hsame | hstaged
    · rw [hsame]
    · rw [hstaged]
      exact Function.update_of_ne hb ..
  | unregisterPass a p p' v v' m hpc hpass =>
    rw [hpc] at hring
    exact pass_ledger_other hpass hring
  | unregisterPassed a p v v' m hpc hpass =>
    rw [hpc] at hring
    exact pass_ledger_other hpass hring
  | drainPass k p p' v v' m hpc hpass =>
    rw [hpc] at hring
    exact pass_ledger_other hpass hring
  | drainPassed k p v v' m hpc hpass =>
    rw [hpc] at hring
    exact pass_ledger_other hpass hring
  | unregisterUnlink a m hpc hunlink =>
    obtain ⟨threads, -, hm⟩ := bind_ok hunlink
    cases hm
    rfl
  | unregisterFree a m hpc hfree =>
    obtain ⟨tracer, -, hm⟩ := bind_ok hfree
    cases hm
    rfl
  | _ => rfl

/-- The only ledgers that are put away are those of contexts that are freed. -/
theorem freed_thread (hstep : Stepped pack σ t σ') :
    σ'.shared.freed = σ.shared.freed ∨
      ∃ a, σ.pcs t = .unregisterFree a ∧ σ'.shared.freed = σ.shared.ledger a :: σ.shared.freed := by
  cases hstep with
  | spanEnd a s head e e' m hpc hend =>
    left
    cases endStep_cases hend with
    | room | copy => rfl
  | spanEnded a s head e m hpc hend =>
    left
    cases endStep_cases hend with
    | full | storeHead => rfl
  | unregisterPass a p p' v v' m hpc hpass => exact Or.inl (pass_freed hpass)
  | unregisterPassed a p v v' m hpc hpass => exact Or.inl (pass_freed hpass)
  | drainPass k p p' v v' m hpc hpass => exact Or.inl (pass_freed hpass)
  | drainPassed k p v v' m hpc hpass => exact Or.inl (pass_freed hpass)
  | unregisterUnlink a m hpc hunlink =>
    obtain ⟨threads, -, hm⟩ := bind_ok hunlink
    cases hm
    exact Or.inl rfl
  | unregisterFree a m hpc hfree =>
    obtain ⟨tracer, -, hm⟩ := bind_ok hfree
    cases hm
    exact Or.inr ⟨a, hpc, rfl⟩
  | _ => exact Or.inl rfl

/-! ## What the sink was given -/

/-- The sink was given spans that the passes have taken, in order. -/
structure Process.GivenOk (σ : Process) : Prop where
  ledger : ∀ a, (σ.shared.ledger a).given.Sublist
    ((σ.shared.ledger a).staged.take (σ.shared.ledger a).taken)
  freed : ∀ l ∈ σ.shared.freed, l.given.Sublist l.staged

theorem given_ledgerStep {tr : Tracer} (h : l.given.Sublist (l.staged.take l.taken))
    (hstep : LedgerStep tr l l') : l'.given.Sublist (l'.staged.take l'.taken) := by
  cases hstep with
  | same => exact h
  | new => exact List.Sublist.refl _
  | stage s =>
    show l.given.Sublist ((l.staged ++ [s]).take l.taken)
    rw [List.take_append]
    exact h.trans (List.sublist_append_left ..)
  | enter => exact h
  | skip hlt hskip => exact h.trans (List.take_sublist_take_left (Nat.le_succ _))
  | give hlt =>
    show List.Sublist (l.given ++ [l.staged[l.taken]]) (l.staged.take (l.taken + 1))
    rw [List.take_succ_eq_append_getElem hlt]
    exact h.append (List.Sublist.refl _)
  | publish => exact h

theorem givenOk_step {x : Act} (h : σ.GivenOk) (hring : σ.RingOk) (he : x.Possible σ)
    (hstep : processStep pack σ x = .ok σ') : σ'.GivenOk := by
  refine ⟨fun a => given_ledgerStep (h.ledger a) (ledger_step hring he hstep a), ?_⟩
  cases x with
  | timer =>
    cases hstep
    exact h.freed
  | step t =>
    rcases freed_thread (step_cases he hstep) with hsame | ⟨a, hpc, hfreed⟩
    · rw [hsame]
      exact h.freed
    · rw [hfreed]
      intro l hl
      rcases List.mem_cons.mp hl with rfl | hl
      · exact (h.ledger a).trans (List.take_sublist ..)
      · exact h.freed l hl
  | call t c =>
    cases call_cases hstep with
    | _ => exact h.freed

/-! ## Unregistering -/

/-- The pass of `otel_thread_unregister` over the ring of `a` has emptied it when it gets to its
flush. -/
def Clearing (a : CtxAddr) (l : Ledger) (v : PassVars) : PassPc → Prop
  | .begin _ => True
  | .walk => v.rest = [a] ∨ (v.rest = [] ∧ l.taken = l.staged.length)
  | .loadHead b => b = a ∧ v.rest = []
  | .loop b | .emit b _ => b = a ∧ v.rest = [] ∧ v.head = UInt64.ofNat l.staged.length
  | .flush | .finish _ => l.taken = l.staged.length

def Shared.Leaving (m : Shared) : Pc → Prop
  | .unregisterPass a p v => Clearing a (m.ledger a) v p
  | .unregisterUnlink a | .unregisterWrunlock a | .unregisterUnlock a | .unregisterFree a =>
    (m.ledger a).taken = (m.ledger a).staged.length
  | _ => True

def Process.LeaveOk (σ : Process) : Prop := ∀ t, σ.shared.Leaving (σ.pcs t)

/-- The context that a thread is about to leave. -/
def Pc.leaving : Pc → Option CtxAddr
  | .unregisterPass a _ _ | .unregisterUnlink a | .unregisterWrunlock a | .unregisterUnlock a
  | .unregisterFree a => some a
  | _ => none

theorem leaving_congr (hledger : ∀ a, pc.leaving = some a → m'.ledger a = m.ledger a)
    (h : m.Leaving pc) : m'.Leaving pc := by
  cases pc with
  | unregisterPass a | unregisterUnlink a | unregisterWrunlock a | unregisterUnlock a
  | unregisterFree a =>
    simp only [Shared.Leaving] at h ⊢
    rw [hledger a rfl]
    exact h
  | _ => trivial

theorem serving_of_leaving (h : pc.leaving = some a) : pc.serving = some a := by
  cases pc <;> first | exact h | cases h

/-- Nobody else touches a ring that its thread is about to leave. -/
theorem leaving_alone (h : σ.HeapOk) (hleaving : (σ.pcs u).leaving = some a) (hut : u ≠ t) :
    (σ.pcs t).ring ≠ some a ∧ ∀ s head e, σ.pcs t ≠ .spanEnd a s head e := by
  have hserving := serving_of_leaving hleaving
  refine ⟨?_, ?_⟩
  · intro hring
    by_cases hdrain : (σ.pcs u).holdsDrain = true
    · exact h.control.locks.other_ring hdrain (Ne.symm hut) a hring
    · -- only at its last step the thread does not hold the lock
      have hlisted := (h.own.listed u a (h.own.owns_serving hserving)).mp
        (h.reach t a (ring_mem_todo hring))
      cases hu : σ.pcs u with
      | unregisterFree b =>
        rw [hu] at hlisted
        cases hlisted
      | _ => simp_all [Pc.leaving, Pc.holdsDrain]
  · intro s head e hpc
    exact hut (h.own.distinct u t a (h.own.owns_serving hserving)
      (h.own.owns_serving (by rw [hpc]; rfl)))

/-- The pass of `otel_thread_unregister` empties the ring. -/
theorem clearing_pass {p' : Option PassPc}
    (hrings : ∀ a c, m.tracer.ctxs a = some c → CtxOk c (m.ledger a))
    (hplace : ∀ a, p.ring = some a → Walking v (m.ledger a) p)
    (h : passStep pack m [a] v p = .ok (m', p', v')) (hclear : Clearing a (m.ledger a) v p) :
    (∀ q, p' = some q → Clearing a (m'.ledger a) v' q) ∧
      (p' = none → (m'.ledger a).taken = (m'.ledger a).staged.length) := by
  cases pass_cases h with
  | beginStay => exact ⟨by rintro _ ⟨⟩; trivial, nofun⟩
  | beginSkip => exact ⟨by rintro _ ⟨⟩; exact Or.inl rfl, nofun⟩
  | beginCall => exact ⟨by rintro _ ⟨⟩; exact Or.inl rfl, nofun⟩
  | walkEnd hrest =>
    refine ⟨?_, nofun⟩
    rintro _ ⟨⟩
    rcases hclear with hone | ⟨-, hempty⟩
    · rw [hrest] at hone
      cases hone
    · exact hempty
  | walkCtx b rest c hrest hc =>
    refine ⟨?_, nofun⟩
    rintro _ ⟨⟩
    rcases hclear with hone | ⟨hnil, -⟩
    · rw [hrest] at hone
      obtain ⟨rfl, rfl⟩ := List.cons.inj hone
      exact ⟨rfl, rfl⟩
    · rw [hrest] at hnil
      cases hnil
  | loadHead b c hc =>
    refine ⟨?_, nofun⟩
    rintro _ ⟨⟩
    obtain ⟨rfl, hrest⟩ := hclear
    exact ⟨rfl, hrest, (hrings b c hc).head_eq⟩
  | loopEnd b c hc heq =>
    refine ⟨?_, nofun⟩
    rintro _ ⟨⟩
    obtain ⟨rfl, hrest, hhead⟩ := hclear
    have hctx := hrings b c hc
    have hall : (m.ledger b).taken = (m.ledger b).staged.length := by
      rw [(hplace b rfl).1, hhead] at heq
      exact (hctx.cursor_eq_iff hctx.taken_le (Nat.le_refl _)).mp heq
    refine Or.inr ⟨hrest, ?_⟩
    show (Function.update m.ledger b _ b).taken = (Function.update m.ledger b _ b).staged.length
    rw [Function.update_self]
    exact hall
  | loopAdd b c m' hc hne hadd =>
    refine ⟨?_, nofun⟩
    rintro _ ⟨⟩
    obtain ⟨rfl, hrest, hhead⟩ := hclear
    refine ⟨rfl, hrest, ?_⟩
    rw [((add_rings hadd).2 b).1]
    exact hhead
  | emitStay b site site' hsite =>
    refine ⟨?_, nofun⟩
    rintro _ ⟨⟩
    exact hclear
  | emitSkip b site hsite =>
    refine ⟨?_, nofun⟩
    rintro _ ⟨⟩
    obtain ⟨rfl, hrest, hhead⟩ := hclear
    refine ⟨rfl, hrest, ?_⟩
    show v.head = UInt64.ofNat (Function.update m.ledger b _ b).staged.length
    rw [Function.update_self]
    exact hhead
  | emitCall b site c hsite hc =>
    refine ⟨?_, nofun⟩
    rintro _ ⟨⟩
    obtain ⟨rfl, hrest, hhead⟩ := hclear
    obtain ⟨htail, n, -, hlt, hle⟩ := hplace b rfl
    refine ⟨rfl, hrest, ?_⟩
    rw [give_take_ledger hc (hrings b c hc) htail (by omega), Function.update_self]
    exact hhead
  | flush tr ht => exact ⟨by rintro _ ⟨⟩; exact hclear, nofun⟩
  | finishStay => exact ⟨by rintro _ ⟨⟩; exact hclear, nofun⟩
  | finishSkip => exact ⟨nofun, fun _ => hclear⟩
  | finishCall => exact ⟨nofun, fun _ => hclear⟩

theorem Process.LeaveOk.move (h : σ.LeaveOk) (hpcs : σ'.pcs = Function.update σ.pcs t pc')
    (hself : σ'.shared.Leaving pc')
    (hother : ∀ u, u ≠ t → ∀ a, (σ.pcs u).leaving = some a →
      σ'.shared.ledger a = σ.shared.ledger a) : σ'.LeaveOk := by
  intro u
  rw [hpcs]
  by_cases hut : u = t
  · subst hut
    rw [Function.update_self]
    exact hself
  · rw [Function.update_of_ne hut]
    exact leaving_congr (hother u hut) (h u)

theorem leaving_ret (k : Caller) : m.Leaving k.ret := by
  cases k with
  | user | flusher | close => trivial

theorem leaveOk_thread (h : σ.LeaveOk) (hheap : σ.HeapOk) (henabled : σ.shared.tracer.enabled = true)
    (hstep : Stepped pack σ t σ') : σ'.LeaveOk := by
  have hother : ∀ u, u ≠ t → ∀ a, (σ.pcs u).leaving = some a →
      σ'.shared.ledger a = σ.shared.ledger a := by
    intro u hut a ha
    obtain ⟨hring, hend⟩ := leaving_alone hheap ha hut
    exact ledger_frame hstep hring hend
  have hself := h t
  have hplace := hheap.ring.places t
  cases hstep with
  | unregisterStart a hpc hon => exact h.move rfl trivial hother
  | unregisterSkip a hpc hoff =>
    rw [henabled] at hoff
    cases hoff
  | unregisterPass a p p' v v' m hpc hpass =>
    rw [hpc] at hself hplace
    exact h.move rfl ((clearing_pass hheap.ring.rings hplace hpass hself).1 p' rfl) hother
  | unregisterPassed a p v v' m hpc hpass =>
    rw [hpc] at hself hplace
    exact h.move rfl ((clearing_pass hheap.ring.rings hplace hpass hself).2 rfl) hother
  | unregisterUnlink a m hpc hunlink =>
    rw [hpc] at hself
    obtain ⟨threads, -, hm⟩ := bind_ok hunlink
    cases hm
    exact h.move rfl hself hother
  | unregisterWrunlock a hpc =>
    rw [hpc] at hself
    exact h.move rfl hself hother
  | unregisterUnlock a hpc =>
    rw [hpc] at hself
    exact h.move rfl hself hother
  | drainSkip k hpc => exact h.move rfl (leaving_ret k) hother
  | drainUnlock k v hpc => exact h.move rfl (leaving_ret k) hother
  | detachEnabled close hpc =>
    cases close with
    | false => exact h.move rfl trivial hother
    | true => exact h.move rfl trivial hother
  | _ =>
    refine h.move rfl ?_ hother
    trivial

theorem leaveOk_step {x : Act} (h : σ.LeaveOk) (hheap : σ.HeapOk)
    (henabled : σ.shared.tracer.enabled = true) (he : x.Possible σ)
    (hstep : processStep pack σ x = .ok σ') : σ'.LeaveOk := by
  cases x with
  | timer =>
    cases hstep
    exact h.move rfl trivial fun _ _ _ _ => rfl
  | step t => exact leaveOk_thread h hheap henabled (step_cases he hstep)
  | call t c =>
    obtain ⟨hidle, hpossible⟩ := he
    cases call_cases hstep with
    | refused | drop | setRingCapacity => exact h
    | register a seed now htls =>
      refine h.move rfl trivial ?_
      intro u hut b hb
      refine Function.update_of_ne ?_ ..
      rintro rfl
      have hlive := hheap.own.live u b (hheap.own.owns_serving (serving_of_leaving hb))
      rw [hpossible] at hlive
      cases hlive
    | _ =>
      refine h.move rfl ?_ fun _ _ _ _ => rfl
      trivial

end OtelTracing
