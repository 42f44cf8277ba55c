import OtelTracing.Proofs.SinkProofs

/-!
# Proofs: delivering spans

With a sink that stays attached each span that is staged is given to it once, in order, and a pass
ends and counts the spans that it emits, as long as an `int` can.
-/

namespace OtelTracing

open ByteMem Locks Outcome

variable {pack : Proto.ExportTraceServiceRequest → Bytes} {σ σ' : Process} {t u : ThreadId}
  {pc pc' : Pc} {a b : CtxAddr} {c : OtelThreadCtx} {l l' : Ledger} {m m' : Shared} {s : OtelSpan}
  {head : UInt64} {e : EndPc} {p : PassPc} {v v' : PassVars} {sink : OtelSpanSink}

/-! ## Passes end -/

/-- The number of steps from a call site on. -/
def Site.stepsLeft : Site → Nat
  | .present => 5
  | .test => 4
  | .fetch => 3
  | .priv => 2
  | .call => 1

/-- A bound on the number of steps that a pass needs for a ring. -/
def ringSteps : Nat := 6 * 2 ^ 64 + 1

/-- A bound on the number of steps that are left of a pass over the contexts `ctxs`. -/
def PassPc.stepsLeft (ctxs : List CtxAddr) (v : PassVars) : PassPc → Nat
  | .begin site => site.stepsLeft + ctxs.length * ringSteps + 7
  | .walk => v.rest.length * ringSteps + 7
  | .loadHead _ => 6 * 2 ^ 64 + v.rest.length * ringSteps + 7
  | .loop _ => 6 * (v.head - v.tail).toNat + 1 + v.rest.length * ringSteps + 7
  | .emit _ site =>
    site.stepsLeft + 6 * ((v.head - v.tail).toNat - 1) + 1 + v.rest.length * ringSteps + 7
  | .flush => 6
  | .finish site => site.stepsLeft

theorem site_stepsLeft {tr : Tracer} {f : Callback} {site site' : Site}
    (h : SiteStepped tr f site (.stay site')) : site'.stepsLeft < site.stepsLeft := by
  cases h with
  | present | test | fetch | priv => decide

theorem site_stepsLeft_pos (site : Site) : 0 < site.stepsLeft := by
  cases site <;> decide

/-- Each step of a pass brings it nearer to its end. -/
theorem pass_stepsLeft {ctxs : List CtxAddr} {q : PassPc}
    (hmore : ∀ a site, p = .emit a site → v.tail ≠ v.head)
    (h : passStep pack m ctxs v p = .ok (m', some q, v')) :
    q.stepsLeft ctxs v' < p.stepsLeft ctxs v := by
  cases pass_cases h with
  | beginStay site site' hsite =>
    have hlt := site_stepsLeft hsite
    simp only [PassPc.stepsLeft]
    omega
  | beginSkip site hsite =>
    have hpos := site_stepsLeft_pos site
    simp only [PassPc.stepsLeft]
    omega
  | beginCall site hsite =>
    have hpos := site_stepsLeft_pos site
    simp only [PassPc.stepsLeft]
    omega
  | walkEnd hrest =>
    simp only [PassPc.stepsLeft]
    omega
  | walkCtx a rest c hrest hc =>
    simp only [PassPc.stepsLeft, hrest, List.length_cons, ringSteps]
    omega
  | loadHead a c hc =>
    have hlt := (c.head - v.tail).toNat_lt
    simp only [PassPc.stepsLeft]
    omega
  | loopEnd a c hc heq =>
    simp only [PassPc.stepsLeft]
    omega
  | loopAdd a c m' hc hne hadd =>
    have hpos : (v.head - v.tail).toNat ≠ 0 := fun hz => hne (Ring.toNat_sub_eq_zero.mp hz)
    simp only [PassPc.stepsLeft, Site.stepsLeft]
    omega
  | emitStay a site site' hsite =>
    have hlt := site_stepsLeft hsite
    simp only [PassPc.stepsLeft]
    omega
  | emitSkip a site hsite =>
    have hpos := site_stepsLeft_pos site
    have hsucc := Ring.toNat_sub_succ (hmore a site rfl)
    simp only [PassPc.stepsLeft, PassVars.advance]
    omega
  | emitCall a site c hsite hc =>
    have hpos := site_stepsLeft_pos site
    have hsucc := Ring.toNat_sub_succ (hmore a site rfl)
    simp only [PassPc.stepsLeft, PassVars.advance]
    omega
  | flush tr ht =>
    simp only [PassPc.stepsLeft, Site.stepsLeft]
    omega
  | finishStay site site' hsite => exact site_stepsLeft hsite

/-- A bound on the number of steps that a thread takes before it leaves its pass. -/
def Process.stepsLeft (σ : Process) (t : ThreadId) : Nat :=
  match σ.pcs t with
  | .unregisterPass a p v => p.stepsLeft [a] v + 1
  | .drainPass _ p v => p.stepsLeft σ.shared.tracer.threads v + 1
  | _ => 0

theorem stepsLeft_zero (h : σ.stepsLeft t = 0) : (σ.pcs t).pass = none := by
  unfold Process.stepsLeft at h
  cases hpc : σ.pcs t with
  | unregisterPass a p v => simp [hpc] at h
  | drainPass k p v => simp [hpc] at h
  | _ => rfl

/-- The cursors of a pass that is at a span are apart. -/
theorem walking_ne (hctx : CtxOk c l) {site : Site} (hwalk : Walking v l (.emit a site)) :
    v.tail ≠ v.head := by
  obtain ⟨htail, n, hhead, hlt, hle⟩ := hwalk
  intro heq
  rw [htail, hhead] at heq
  have hsame := (hctx.cursor_eq_iff hlt.le hle).mp heq
  omega

/-- The contexts of a pass are there. -/
theorem Process.HeapOk.todo_live (h : σ.HeapOk) (ha : a ∈ (σ.pcs t).todo) :
    ∃ c, σ.shared.tracer.ctxs a = some c :=
  Option.isSome_iff_exists.mp (h.own.linked_live (h.reach t a ha))

/-- While a thread reads the registry no other thread changes it. -/
theorem threads_frame (hlocks : σ.LockOk) (hread : (σ.pcs u).holdsRead = true)
    (hstep : Stepped pack σ t σ') : σ'.shared.tracer.threads = σ.shared.tracer.threads := by
  have hnowrite : ∀ w, (σ.pcs w).holdsWrite ≠ true := by
    intro w hw
    have hwriter := (hlocks.registry.writer w).mpr hw
    have hreader := (hlocks.registry.readers u).mpr hread
    rw [hlocks.registry.exclusive (by rw [hwriter]; nofun)] at hreader
    cases hreader
  cases hstep with
  | registerLink a hpc => exact absurd (by rw [hpc]; rfl) (hnowrite t)
  | unregisterUnlink a m hpc => exact absurd (by rw [hpc]; rfl) (hnowrite t)
  | spanEnd a s head e e' m hpc hend => exact (sameOwners_end hend).threads
  | spanEnded a s head e m hpc hend => exact (sameOwners_end hend).threads
  | unregisterPass a p p' v v' m hpc hpass => exact (sameOwners_pass hpass).threads
  | unregisterPassed a p v v' m hpc hpass => exact (sameOwners_pass hpass).threads
  | drainPass k p p' v v' m hpc hpass => exact (sameOwners_pass hpass).threads
  | drainPassed k p v v' m hpc hpass => exact (sameOwners_pass hpass).threads
  | unregisterFree a m hpc hfree =>
    obtain ⟨tracer, htracer, hm⟩ := bind_ok hfree
    obtain ⟨c, -, htracer⟩ := bind_ok htracer
    cases htracer
    cases hm
    rfl
  | _ => rfl

/-- The steps of other threads do not keep a thread from the end of its pass. -/
theorem stepsLeft_other {x : Act} (hlocks : σ.LockOk) (hpass : (σ.pcs t).pass ≠ none)
    (hx : x.isStep t = false) (he : x.Possible σ) (hstep : processStep pack σ x = .ok σ') :
    σ'.stepsLeft t = σ.stepsLeft t := by
  have hpcs : σ'.pcs t = σ.pcs t := by
    cases x with
    | timer =>
      cases hstep
      refine Function.update_of_ne ?_ ..
      rintro rfl
      rw [show σ.pcs σ.flusher = .flusherAsleep from he] at hpass
      exact hpass rfl
    | call u c =>
      refine step_other he hstep ⟨nofun, ?_⟩
      rintro rfl
      rw [he.1] at hpass
      exact hpass rfl
    | step u =>
      refine step_other he hstep ⟨nofun, ?_⟩
      rintro rfl
      simp [Act.isStep] at hx
  have hthreads : (σ.pcs t).holdsRead = true →
      σ'.shared.tracer.threads = σ.shared.tracer.threads := by
    intro hread
    cases x with
    | timer =>
      cases hstep
      rfl
    | call u c =>
      cases call_cases hstep with
      | _ => rfl
    | step u => exact threads_frame hlocks hread (step_cases he hstep)
  unfold Process.stepsLeft
  rw [hpcs]
  cases hpc : σ.pcs t with
  | drainPass k p v => simp only [hthreads (by rw [hpc]; rfl)]
  | _ => rfl

theorem emit_more (h : σ.HeapOk) (hring : (σ.pcs t).ring = p.ring)
    (hplace : ∀ a, p.ring = some a → Walking v (σ.shared.ledger a) p) (a : CtxAddr) (site : Site)
    (hp : p = .emit a site) : v.tail ≠ v.head := by
  subst hp
  obtain ⟨c, hc⟩ := h.todo_live (ring_mem_todo (show (σ.pcs t).ring = some a from hring))
  exact walking_ne (h.ring.rings a c hc) (hplace a rfl)

theorem stepsLeft_self (h : σ.HeapOk) (hin : (σ.pcs t).pass ≠ none)
    (hstep : Stepped pack σ t σ') : σ'.stepsLeft t < σ.stepsLeft t := by
  have hplace := h.ring.places t
  have hself : ∀ pc', Function.update σ.pcs t pc' t = pc' := fun _ => Function.update_self ..
  cases hstep with
  | unregisterPass a p p' v v' m hpc hpass =>
    rw [hpc] at hplace
    have hlt := pass_stepsLeft (emit_more h (by rw [hpc]; rfl) hplace) hpass
    simp only [Process.stepsLeft, Process.goto, hself, hpc]
    omega
  | unregisterPassed a p v v' m hpc hpass =>
    simp only [Process.stepsLeft, Process.goto, hself, hpc]
    omega
  | drainPass k p p' v v' m hpc hpass =>
    rw [hpc] at hplace
    have hlt := pass_stepsLeft (emit_more h (by rw [hpc]; rfl) hplace) hpass
    simp only [Process.stepsLeft, Process.goto, hself, hpc, (sameOwners_pass hpass).threads]
    omega
  | drainPassed k p v v' m hpc hpass =>
    simp only [Process.stepsLeft, Process.goto, hself, hpc]
    omega
  | _ =>
    refine absurd ?_ hin
    rename_i hpc
    simp_all [Pc.pass]

/-- A pass goes on as long as the encoder does what it asks of it. -/
theorem pass_progress (ctxs : List CtxAddr) (hsink : m.tracer.sink = some sink)
    (hlive : ∀ a ∈ p.ring.toList ++ v.rest, ∃ c, m.tracer.ctxs a = some c)
    (hencodes : p.Encodes pack m v) : ∃ r, passStep pack m ctxs v p = .ok r := by
  have hderef : m.tracer.derefSink = .ok sink := by rw [Tracer.derefSink, hsink]
  have hsite : ∀ f site, ∃ x, siteStep m.tracer f site = .ok x := by
    intro f site
    cases site with
    | present => exact ⟨_, rfl⟩
    | call => exact ⟨_, rfl⟩
    | test | fetch | priv => exact ⟨_, by rw [siteStep, hderef]; rfl⟩
  cases p with
  | begin site =>
    obtain ⟨x, hx⟩ := hsite .begin site
    rw [passStep, hx]
    cases x with
    | stay | skip | called => exact ⟨_, rfl⟩
  | finish site =>
    obtain ⟨x, hx⟩ := hsite .finish site
    rw [passStep, hx]
    cases x with
    | stay | skip | called => exact ⟨_, rfl⟩
  | emit a site =>
    obtain ⟨c, hc⟩ := hlive a (by simp [PassPc.ring])
    obtain ⟨x, hx⟩ := hsite .span site
    rw [passStep, hx]
    cases x with
    | stay => exact ⟨_, rfl⟩
    | skip => exact ⟨_, rfl⟩
    | called => exact ⟨_, by rw [deref_of_live hc]; rfl⟩
  | walk =>
    cases hrest : v.rest with
    | nil => exact ⟨_, by simp only [passStep, hrest]; rfl⟩
    | cons a rest =>
      obtain ⟨c, hc⟩ := hlive a (by simp [hrest])
      exact ⟨_, by simp only [passStep, hrest, deref_of_live hc]; rfl⟩
  | loadHead a =>
    obtain ⟨c, hc⟩ := hlive a (by simp [PassPc.ring])
    exact ⟨_, by rw [passStep, deref_of_live hc]; rfl⟩
  | loop a =>
    obtain ⟨c, hc⟩ := hlive a (by simp [PassPc.ring])
    by_cases heq : v.tail = v.head
    · exact ⟨_, by rw [passStep, deref_of_live hc]; exact if_pos heq⟩
    · obtain ⟨tr, htr⟩ := hencodes c hc heq
      have hadd : ∃ m', m.add pack ⟨a, c.slot v.tail⟩ = .ok m' := ⟨_, by rw [Shared.add, htr]; rfl⟩
      obtain ⟨m', hm'⟩ := hadd
      refine ⟨(m', some (.emit a .present), v), ?_⟩
      rw [passStep, deref_of_live hc]
      refine (if_neg heq).trans ?_
      rw [hm']
      rfl
  | flush =>
    obtain ⟨tr, htr⟩ := hencodes
    exact ⟨_, by rw [passStep, htr]; rfl⟩

/-- The encoder did what a step of a pass that was taken asked of it. -/
theorem encodes_of_ok {ctxs : List CtxAddr} {r : Shared × Option PassPc × PassVars}
    (h : passStep pack m ctxs v p = .ok r) : p.Encodes pack m v := by
  cases p with
  | loop a =>
    intro c hc hne
    rw [passStep, deref_of_live hc] at h
    replace h := (if_neg hne).symm.trans h
    obtain ⟨m', hadd, -⟩ := bind_ok h
    obtain ⟨tr, htr, -⟩ := bind_ok hadd
    exact ⟨tr, htr⟩
  | flush =>
    obtain ⟨tr, htr, -⟩ := bind_ok h
    exact ⟨tr, htr⟩
  | _ => trivial

theorem passEnds (h : σ.HeapOk) (hattached : σ.Attached sink) (hin : (σ.pcs t).pass ≠ none)
    (hunregister : ∀ a p v, σ.pcs t = .unregisterPass a p v → p.Encodes pack σ.shared v)
    (hdrain : ∀ k p v, σ.pcs t = .drainPass k p v → p.Encodes pack σ.shared v) :
    σ.PassEnds pack t := by
  have hlive : ∀ a ∈ (σ.pcs t).todo, ∃ c, σ.shared.tracer.ctxs a = some c :=
    fun a ha => h.todo_live ha
  refine ⟨?_, ?_, σ.stepsLeft t, ?_⟩
  · cases hpc : σ.pcs t with
    | unregisterPass | drainPass => simp [Process.Ready, hpc]
    | _ => simp [hpc, Pc.pass] at hin
  · cases hpc : σ.pcs t with
    | unregisterPass a p v =>
      rw [hpc] at hlive
      obtain ⟨r, hr⟩ := pass_progress [a] hattached.sink hlive (hunregister a p v hpc)
      exact ⟨_, by rw [threadStep]; simp only [hpc]; rw [hr]; rfl⟩
    | drainPass k p v =>
      rw [hpc] at hlive
      obtain ⟨r, hr⟩ := pass_progress σ.shared.tracer.threads hattached.sink hlive
        (hdrain k p v hpc)
      exact ⟨_, by rw [threadStep]; simp only [hpc]; rw [hr]; rfl⟩
    | _ => simp [hpc, Pc.pass] at hin
  · intro acts σ' hrun hcount
    refine hrun.reaches (I := Process.HeapOk) (P := fun σ => (σ.pcs t).pass = none) h hcount
      (fun _ _ hzero => stepsLeft_zero hzero) ?_
    intro σ₁ x σ₂ hheap hpass he hstep
    refine ⟨heapOk_step hheap he hstep, ?_⟩
    cases hx : x.isStep t with
    | false => exact ⟨(stepsLeft_other hheap.control.locks hpass hx he hstep).le, by rintro ⟨⟩⟩
    | true =>
      cases x with
      | step u =>
        obtain rfl : u = t := by simpa [Act.isStep] using hx
        have hlt := stepsLeft_self hheap hpass (step_cases he hstep)
        exact ⟨hlt.le, fun _ => hlt⟩
      | _ => cases hx

/-! ## The main results -/

/-- There is no transport, and nothing in the batch. -/
def Tracer.Unsent (tr : Tracer) : Prop := tr.transportPresent = false ∧ tr.otlp.nSpans = 0

theorem add_unsent {q : Slot} (h : m.tracer.Unsent) : m.add pack q = .ok m := by
  rw [Shared.add, emitTransport, h.1]
  rfl

theorem flush_unsent {tr : Tracer} (h : tr.Unsent) :
    tr.flush pack = .ok { tr with out := tr.out ++ [] } := by
  rw [Tracer.flush, otlpFlush, if_pos h.2]
  rfl

theorem pass_unsent {ctxs : List CtxAddr} {p' : Option PassPc} (hunsent : m.tracer.Unsent)
    (h : passStep pack m ctxs v p = .ok (m', p', v')) : m'.tracer.Unsent := by
  cases pass_cases h with
  | loopAdd a c m' hc hne hadd =>
    rw [add_unsent hunsent] at hadd
    cases hadd
    exact hunsent
  | flush tr ht =>
    rw [flush_unsent hunsent] at ht
    cases ht
    exact hunsent
  | _ => exact hunsent

/-- Only the passes use the encoder. -/
theorem otlp_step {x : Act} (he : x.Possible σ) (hstep : processStep pack σ x = .ok σ') :
    (σ'.shared.tracer.otlp = σ.shared.tracer.otlp ∧
      σ'.shared.tracer.transportPresent = σ.shared.tracer.transportPresent) ∨
    ∃ ctxs p v p' v', passStep pack σ.shared ctxs v p = .ok (σ'.shared, p', v') := by
  cases x with
  | timer =>
    cases hstep
    exact Or.inl ⟨rfl, rfl⟩
  | call t c =>
    cases call_cases hstep with
    | _ => exact Or.inl ⟨rfl, rfl⟩
  | step t =>
    cases step_cases he hstep with
    | spanEnd a s head e e' m hpc hend =>
      cases endStep_cases hend with
      | room | copy => exact Or.inl ⟨rfl, rfl⟩
    | spanEnded a s head e m hpc hend =>
      cases endStep_cases hend with
      | full | storeHead => exact Or.inl ⟨rfl, rfl⟩
    | unregisterPass a p p' v v' m hpc hpass => exact Or.inr ⟨_, p, v, _, _, hpass⟩
    | unregisterPassed a p v v' m hpc hpass => exact Or.inr ⟨_, p, v, _, _, hpass⟩
    | drainPass k p p' v v' m hpc hpass => exact Or.inr ⟨_, p, v, _, _, hpass⟩
    | drainPassed k p v v' m hpc hpass => exact Or.inr ⟨_, p, v, _, _, hpass⟩
    | unregisterUnlink a m hpc hunlink =>
      obtain ⟨threads, -, hm⟩ := bind_ok hunlink
      cases hm
      exact Or.inl ⟨rfl, rfl⟩
    | unregisterFree a m hpc hfree =>
      obtain ⟨tracer, htracer, hm⟩ := bind_ok hfree
      obtain ⟨c, -, htracer⟩ := bind_ok htracer
      cases htracer
      cases hm
      exact Or.inl ⟨rfl, rfl⟩
    | _ => exact Or.inl ⟨rfl, rfl⟩

theorem unsent_step {x : Act} (hunsent : σ.shared.tracer.Unsent) (he : x.Possible σ)
    (hstep : processStep pack σ x = .ok σ') : σ'.shared.tracer.Unsent := by
  rcases otlp_step he hstep with ⟨hotlp, hpresent⟩ | ⟨ctxs, p, v, p', v', hpass⟩
  · rw [Tracer.Unsent, hotlp, hpresent]
    exact hunsent
  · exact pass_unsent hunsent hpass

/-- Without a transport the encoder has nothing to do. -/
theorem encodes_unsent (h : m.tracer.Unsent) : p.Encodes pack m v := by
  cases p with
  | loop a => exact fun c _ _ => ⟨m.tracer, by rw [emitTransport, h.1]; rfl⟩
  | flush => exact ⟨_, flush_unsent h⟩
  | _ => trivial

/-- What is known of the spans in every state that is reached while the sink stays attached. -/
structure Process.SpansOk (sink : OtelSpanSink) (σ : Process) : Prop where
  heap : σ.HeapOk
  attached : σ.Attached sink
  undisturbed : σ.Undisturbed
  given : σ.GivenOk
  kept : σ.KeptOk
  leave : σ.LeaveOk
  freed : σ.FreedOk
  count : σ.CountOk
  output : σ.OutputOk

theorem spansOk_step {x : Act} (hspan : sink.hasSpan = true) (h : σ.SpansOk sink)
    (hkeeps : x.keepsSink = true) (he : x.Possible σ) (hstep : processStep pack σ x = .ok σ') :
    σ'.SpansOk sink := by
  have hskips := h.attached.not_skips hspan
  have hundisturbed := undisturbed_step h.undisturbed h.heap.control.roles hkeeps he hstep
  exact
    { heap := heapOk_step h.heap he hstep
      attached := attached_step h.attached he hstep hundisturbed.quiet
      undisturbed := hundisturbed
      given := givenOk_step h.given h.heap.ring he hstep
      kept := keptOk_step h.kept h.heap.ring hskips he hstep
      leave := leaveOk_step h.leave h.heap h.attached.enabled he hstep
      freed := freedOk_step h.freed h.given h.kept h.leave he hstep
      count := countOk_step h.count h.heap.control.locks hskips he hstep
      output := outputOk_step h.output he hstep }

theorem spansOk_start (h0 : σ.AtRest) (hv : σ.Vacant) (hattached : σ.Attached sink) :
    σ.SpansOk sink := by
  have hpcs : ∀ t, σ.pcs t = .idle ∨ σ.pcs t = .flusherLock ∨ σ.pcs t = .exited := by
    intro t
    by_cases ht : t = σ.flusher
    · rw [ht]
      exact Or.inr (atRest_flusher h0)
    · exact Or.inl (h0.idle t ht)
  refine ⟨heapOk_start h0 hv, hattached, ⟨h0.closeCalled, hattached.quiet⟩, ⟨?_, ?_⟩, ?_, ?_, ?_, ?_,
    ⟨[], List.nodup_nil, ?_, ?_⟩⟩
  · intro a
    rw [hv.ledger a]
    exact List.Sublist.refl _
  · rw [hv.freed]
    nofun
  · intro a
    rw [hv.ledger a]
    rfl
  · intro t
    rcases hpcs t with hpc | hpc | hpc <;> rw [hpc] <;> trivial
  · rw [Process.FreedOk, hv.freed]
    nofun
  · intro t v hvars
    rcases hpcs t with hpc | hpc | hpc <;> rw [hpc] at hvars <;> cases hvars
  · intro a
    rw [hv.ctxs a]
    simp
  · rw [hv.spans, hv.freed]
    exact List.Perm.refl _

theorem Process.SpansOk.given_live (h : σ.SpansOk sink) (hc : σ.shared.tracer.ctxs a = some c) :
    (σ.shared.ledger a).given =
      (σ.shared.ledger a).staged.take (σ.shared.ledger a).taken :=
  given_eq h.given h.kept a (h.heap.ring.rings a c hc).taken_le

/-- A context that is about to be freed is in no thread's way. -/
theorem Process.SpansOk.emptied (h : σ.SpansOk sink) (hpc : σ.pcs t = .unregisterFree a)
    (hc : σ.shared.tracer.ctxs a = some c) :
    c.staged = [] ∧ a ∉ σ.shared.tracer.threads ∧ ∀ u, a ∉ (σ.pcs u).todo := by
  have hunlinked : a ∉ σ.shared.tracer.threads := by
    intro ha
    have hlinked := (h.heap.own.listed t a (h.heap.own.owns_serving (by rw [hpc]; rfl))).mp ha
    rw [hpc] at hlinked
    cases hlinked
  have htodo : ∀ u, a ∉ (σ.pcs u).todo := fun u hu => hunlinked (h.heap.reach u a hu)
  refine ⟨?_, hunlinked, htodo⟩
  have hall := h.leave t
  rw [hpc] at hall
  replace hall : (σ.shared.ledger a).taken = (σ.shared.ledger a).staged.length := hall
  have hcalm := h.heap.ring.calm a fun u hu => htodo u (ring_mem_todo hu)
  rw [(h.heap.ring.rings a c hc).staged_eq hcalm, hall, List.drop_length]

theorem toInt_counted {out : List Output} (h : Counted out v) :
    v.n.toInt = ((sinkSpans out).length - v.base : Nat) ↔
      (sinkSpans out).length - v.base < 2 ^ 31 := by
  rw [h.2]
  generalize (sinkSpans out).length - v.base = n
  have hsize : (Int32.size : Int) = 4294967296 := rfl
  rw [Int32.toInt_ofNat']
  constructor
  · intro heq
    have hlt := Int.bmod_lt (x := (n : Int)) (m := Int32.size) (by decide)
    rw [heq, hsize] at hlt
    omega
  · intro hlt
    apply Int.bmod_eq_of_le
    · rw [hsize]
      omega
    · rw [hsize]
      omega

theorem Process.SpansOk.counted_iff (h : σ.SpansOk sink) {k : Caller}
    (hpc : σ.pcs t = .drainUnlock k v) : v.n.toInt = σ.emitted v ↔ σ.emitted v < 2 ^ 31 :=
  toInt_counted (h.count t v (by rw [hpc]; rfl))

theorem Process.SpansOk.dropped (h : σ.SpansOk sink) (hpc : σ.pcs t = .spanEnd a s head .loadTail)
    (hc : σ.shared.tracer.ctxs a = some c)
    (hend : endStep σ.shared a s head .loadTail = .ok (m, none)) :
    c.staged.length = c.capacity.toNat := by
  have hctx := h.heap.ring.rings a c hc
  have hplace := h.heap.ring.places t
  rw [hpc] at hplace
  have hhead := (hplace c hc).head_eq
  generalize hnone : (none : Option EndPc) = e' at hend
  cases endStep_cases hend with
  | full c' hc' hfull =>
    rw [hc] at hc'
    cases hc'
    rw [hhead] at hfull
    have hlen := hctx.full_iff.mp hfull
    rw [hctx.length_staged]
    omega
  | room => cases hnone

theorem Process.SpansOk.delivers (h : σ.SpansOk sink) (hcountable : σ.Countable pack) :
    σ.Delivers pack where
  given a c hc := by
    have hctx := h.heap.ring.rings a c hc
    rw [h.kept a, hctx.contents, h.given_live hc, List.take_append_drop]
  freed := h.freed
  output := by
    obtain ⟨as, has⟩ := h.output
    exact ⟨as, has.nodup, has.live, has.spans⟩
  dropped _ _ _ _ _ _ hpc hc hend := h.dropped hpc hc hend
  emptied _ _ _ hpc hc := h.emptied hpc hc
  ends t hin := passEnds h.heap h.attached hin (hcountable.unregister t) (hcountable.drain t)
  counted t k v hpc := (h.counted_iff hpc).mpr (hcountable.emitted_lt t k v hpc)

theorem Process.SpansOk.countable (h : σ.SpansOk sink) (hdelivers : σ.Delivers pack) :
    σ.Countable pack where
  emitted_lt t k v hpc := (h.counted_iff hpc).mp (hdelivers.counted t k v hpc)
  unregister t a p v hpc := by
    obtain ⟨-, ⟨σ', hstep⟩, -⟩ := hdelivers.ends t (by rw [hpc]; nofun)
    rw [threadStep] at hstep
    simp only [hpc] at hstep
    obtain ⟨r, hr, -⟩ := bind_ok hstep
    exact encodes_of_ok hr
  drain t k p v hpc := by
    obtain ⟨-, ⟨σ', hstep⟩, -⟩ := hdelivers.ends t (by rw [hpc]; nofun)
    rw [threadStep] at hstep
    simp only [hpc] at hstep
    obtain ⟨r, hr, -⟩ := bind_ok hstep
    exact encodes_of_ok hr

/-- In every state that is reached while a sink stays attached, what is promised for the spans holds
exactly if no pass that is over has emitted more spans than an `int` can count, and the encoder does
what the passes ask of it, which it does if there is no transport. -/
theorem delivery (pack : Proto.ExportTraceServiceRequest → Bytes) (sink : OtelSpanSink)
    (σ₀ σ : Process) (acts : List Act) (hspan : sink.hasSpan = true) (h0 : σ₀.AtRest)
    (hv : σ₀.Vacant) (hattached : σ₀.Attached sink) (hkeeps : ∀ x ∈ acts, x.keepsSink = true)
    (h : (processMachine pack).Run σ₀ acts σ) :
    (σ.Delivers pack ↔ σ.Countable pack) ∧
      (σ₀.shared.tracer.transportPresent = false → σ₀.shared.tracer.otlp.nSpans = 0 →
        (σ.Delivers pack ↔ ∀ t k v, σ.pcs t = .drainUnlock k v → σ.emitted v < 2 ^ 31)) := by
  have hok : σ.SpansOk sink := h.invariant (spansOk_start h0 hv hattached)
    fun _ x hx _ hi he hstep => spansOk_step hspan hi (hkeeps x hx) he hstep
  refine ⟨⟨hok.countable, hok.delivers⟩, ?_⟩
  intro htransport hbatch
  have hunsent : σ.shared.tracer.Unsent :=
    h.invariant (I := fun σ => σ.shared.tracer.Unsent) ⟨htransport, hbatch⟩
      fun _ _ _ _ hi he hstep => unsent_step hi he hstep
  constructor
  · intro hdelivers
    exact (hok.countable hdelivers).emitted_lt
  · intro hlt
    exact hok.delivers ⟨hlt, fun _ _ _ _ _ => encodes_unsent hunsent,
      fun _ _ _ _ _ => encodes_unsent hunsent⟩

/-- A tracer whose sink takes spans only. -/
def countingTracer : Tracer :=
  otelSetSpanSink (otelInit Tracer.boot none none true).1 (some ⟨false, true, false⟩)

/-- A span that can be ended. -/
def endedSpan : OtelSpan := { zeroSpan with flags := otelFlagRecording }

theorem counting_start : (Process.start countingTracer false 0 1).AtRest ∧
    (Process.start countingTracer false 0 1).Vacant :=
  ⟨start_atRest countingTracer false (by decide),
    ⟨fun _ => rfl, fun _ => rfl, rfl, ⟨11, by decide, rfl⟩, fun _ => rfl, rfl, rfl, rfl⟩⟩

theorem counting_spansOk :
    (Process.start countingTracer false 0 1).SpansOk ⟨false, true, false⟩ := by
  refine spansOk_start counting_start.1 counting_start.2 ⟨rfl, rfl, rfl, ?_⟩
  intro t
  show Pc.detaching (if t = 0 then .exited else .idle) = false
  by_cases ht : t = 0
  · rw [if_pos ht]
    rfl
  · rw [if_neg ht]
    rfl

/-- Thread 2 ends a span, and drains its ring. -/
def drainingOne : List Act :=
  [.call 2 (.register 3 ⟨1, 0⟩ 0), .step 2, .step 2, .step 2, .call 2 (.finish endedSpan 5), .step 2,
    .step 2, .step 2, .call 2 .drain] ++ List.replicate 19 (.step 2)

/-- The pass is over, and has given the span to the sink. -/
theorem delivery_sample : ∃ σ : Process, (σ.shared.ledger 3).given = [stampEnd endedSpan 5] ∧
    (∃ v, σ.pcs 2 = .drainUnlock .user v ∧ σ.emitted v = 1) ∧
    (σ.Delivers (fun _ => []) ↔ ∀ t k v, σ.pcs t = .drainUnlock k v → σ.emitted v < 2 ^ 31) := by
  have hrun : ∃ σ : Process, ((σ.shared.ledger 3).given = [stampEnd endedSpan 5] ∧
        ∃ v, σ.pcs 2 = .drainUnlock .user v ∧ σ.emitted v = 1) ∧
      (processMachine fun _ => []).Run (Process.start countingTracer false 0 1) drainingOne σ :=
    ⟨_, ⟨rfl, _, rfl, rfl⟩,
      .cons ⟨rfl, rfl⟩ rfl (.cons ⟨rfl, rfl⟩ rfl (.cons trivial rfl (.cons trivial rfl
      (.cons ⟨rfl, trivial⟩ rfl (.cons trivial rfl (.cons trivial rfl (.cons trivial rfl
      (.cons ⟨rfl, trivial⟩ rfl (.cons trivial rfl (.cons rfl rfl (.cons rfl rfl
      (.cons trivial rfl (.cons trivial rfl (.cons trivial rfl (.cons trivial rfl
      (.cons trivial rfl (.cons trivial rfl (.cons trivial rfl (.cons trivial rfl
      (.cons trivial rfl (.cons trivial rfl (.cons trivial rfl (.cons trivial rfl
      (.cons trivial rfl (.cons trivial rfl (.cons trivial rfl (.cons trivial rfl
      .nil)))))))))))))))))))))))))))⟩
  obtain ⟨σ, ⟨hgiven, hover⟩, h⟩ := hrun
  exact ⟨σ, hgiven, hover, (delivery _ _ _ σ _ rfl counting_start.1 counting_start.2
    counting_spansOk.attached (by simp [drainingOne, Act.keepsSink]) h).2 rfl rfl⟩

/-! ## More spans than an `int` can count -/

/-- The process gets from one state to the other while the sink stays attached. -/
def Gets (σ σ' : Process) : Prop :=
  ∃ acts, (∀ x ∈ acts, x.keepsSink = true) ∧ (processMachine fun _ => []).Run σ acts σ'

theorem Gets.refl (σ : Process) : Gets σ σ := ⟨[], nofun, .nil⟩

theorem Gets.trans {σ'' : Process} (h : Gets σ σ') (h' : Gets σ' σ'') : Gets σ σ'' := by
  obtain ⟨acts, hkeeps, hrun⟩ := h
  obtain ⟨acts', hkeeps', hrun'⟩ := h'
  refine ⟨acts ++ acts', ?_, hrun.append hrun'⟩
  intro x hx
  rcases List.mem_append.mp hx with hx | hx
  · exact hkeeps x hx
  · exact hkeeps' x hx

theorem Gets.step (hready : σ.Ready t) (hstep : threadStep (fun _ => []) σ t = .ok σ') :
    Gets σ σ' :=
  ⟨[.step t], by simp [Act.keepsSink], .one hready hstep⟩

theorem Gets.call {c : ThreadCall} (he : (Act.call t c).Possible σ) (hstep : callStep σ t c = .ok σ')
    (hkeeps : (Act.call t c).keepsSink = true) : Gets σ σ' :=
  ⟨[.call t c], by simpa using hkeeps, .one he hstep⟩

/-- Thread 2 has the only context, at the address 3, with `n` spans in a ring of `2 ^ 31`; the sink
was given `i` spans. -/
structure Filled (n i : Nat) (m : Shared) : Prop where
  tls : m.tracer.tls 2 = some 3
  ctx : ∃ c, m.tracer.ctxs 3 = some c ∧ c.capacity = 0x80000000 ∧ c.head = UInt64.ofNat n ∧
    c.tail = 0
  threads : m.tracer.threads = [3]
  enabled : m.tracer.enabled = true
  sink : m.tracer.sink = some ⟨false, true, false⟩
  sinkPresent : m.tracer.sinkPresent = true
  transport : m.tracer.transportPresent = false
  batch : m.tracer.otlp.nSpans = 0
  spans : (sinkSpans m.tracer.out).length = i

theorem goto_self (σ : Process) (t : ThreadId) (pc : Pc) : (σ.goto t pc).pcs t = pc :=
  Function.update_self ..

theorem setCtx_self (m : Shared) (a : CtxAddr) (c : OtelThreadCtx) :
    (m.setCtx a c).tracer.ctxs a = some c := Function.update_self ..

/-- Thread 2 gets to `pc`, with the memory `m`, by a step that does not touch a lock. -/
structure Moves (σ σ' : Process) (m : Shared) (pc : Pc) : Prop where
  gets : Gets σ σ'
  shared : σ'.shared = m
  pcs : σ'.pcs 2 = pc
  drainLock : σ'.drainLock = σ.drainLock
  registryLock : σ'.registryLock = σ.registryLock

theorem moves_end {x : Option EndPc} (hpc : σ.pcs 2 = .spanEnd a s head e)
    (hend : endStep σ.shared a s head e = .ok (m, x)) :
    ∃ σ', Moves σ σ' m (x.elim .idle fun pc => .spanEnd a s head pc) := by
  refine ⟨{ σ with shared := m }.goto 2 (x.elim .idle fun pc => .spanEnd a s head pc), ?_, rfl,
    goto_self .., rfl, rfl⟩
  refine .step (t := 2) (by simp [Process.Ready, hpc]) ?_
  rw [threadStep]
  simp only [hpc]
  rw [hend]
  cases x with
  | none | some => rfl

theorem moves_pass {k : Caller} {x : Option PassPc} {w : PassVars} (hpc : σ.pcs 2 = .drainPass k p v)
    (hpass : passStep (fun _ => []) σ.shared σ.shared.tracer.threads v p = .ok (m, x, w)) :
    ∃ σ', Moves σ σ' m (x.elim (.drainRdunlock k w) fun pc => .drainPass k pc w) := by
  refine ⟨{ σ with shared := m }.goto 2
    (x.elim (.drainRdunlock k w) fun pc => .drainPass k pc w), ?_, rfl,
    goto_self .., rfl, rfl⟩
  refine .step (t := 2) (by simp [Process.Ready, hpc]) ?_
  rw [threadStep]
  simp only [hpc]
  rw [hpass]
  cases x with
  | none | some => rfl

/-- Thread 2 ends a span. -/
theorem filled_finish {n : Nat} (h : Filled n 0 σ.shared) (hn : n < 2 ^ 31)
    (hpc : σ.pcs 2 = .idle) : ∃ σ' m, Moves σ σ' m .idle ∧ Filled (n + 1) 0 m := by
  obtain ⟨c, hc, hcap, hhead, htail⟩ := h.ctx
  have hroom : ¬ c.head - c.tail ≥ c.capacity.toUInt64 := by
    have hval : (0x80000000 : UInt32).toUInt64.toNat = 2 ^ 31 := rfl
    rw [hhead, htail, hcap, ge_iff_le, UInt64.le_iff_toNat_le, UInt64.sub_zero, UInt64.toNat_ofNat',
      hval]
    omega
  have hcall : ∃ σ', Moves σ σ' σ.shared (.spanEnd 3 (stampEnd endedSpan 0) c.head .loadTail) := by
    refine ⟨σ.goto 2 (.spanEnd 3 (stampEnd endedSpan 0) c.head .loadTail), ?_, rfl,
      goto_self .., rfl, rfl⟩
    refine .call (t := 2) (c := .finish endedSpan 0) ⟨hpc, trivial⟩ ?_ rfl
    rw [callStep, if_neg (by decide)]
    simp only [h.tls, deref_of_live hc]
    rfl
  obtain ⟨σ₁, h1⟩ := hcall
  obtain ⟨σ₂, h2⟩ := moves_end (m := σ.shared) (x := some .copy) h1.pcs (by
    rw [h1.shared, endStep, deref_of_live hc]
    exact if_neg hroom)
  obtain ⟨σ₃, h3⟩ := moves_end (x := some .storeHead) h2.pcs (by
    rw [h2.shared, endStep, deref_of_live hc]
    rfl)
  obtain ⟨σ₄, h4⟩ := moves_end (x := none) h3.pcs (by
    rw [h3.shared, endStep, deref_of_live (setCtx_self ..)]
    rfl)
  refine ⟨σ₄, _, ⟨h1.gets.trans (h2.gets.trans (h3.gets.trans h4.gets)), h4.shared, h4.pcs,
    h4.drainLock.trans (h3.drainLock.trans (h2.drainLock.trans h1.drainLock)),
    h4.registryLock.trans (h3.registryLock.trans (h2.registryLock.trans h1.registryLock))⟩, ?_⟩
  refine { h with ctx := ⟨_, setCtx_self .., hcap, ?_, htail⟩ }
  show c.head + 1 = UInt64.ofNat (n + 1)
  rw [hhead, Spsc.ofNat_succ]

theorem filled_finishes (h : Filled 0 0 σ.shared) (hpc : σ.pcs 2 = .idle) (n : Nat)
    (hn : n ≤ 2 ^ 31) : ∃ σ' m, Moves σ σ' m .idle ∧ Filled n 0 m := by
  induction n with
  | zero => exact ⟨σ, σ.shared, ⟨Gets.refl σ, rfl, hpc, rfl, rfl⟩, h⟩
  | succ n ih =>
    obtain ⟨σ₁, m₁, h1, hfilled⟩ := ih (by omega)
    rw [← h1.shared] at hfilled
    obtain ⟨σ₂, m₂, h2, hfilled'⟩ := filled_finish hfilled (by omega) h1.pcs
    exact ⟨σ₂, m₂, ⟨h1.gets.trans h2.gets, h2.shared, h2.pcs, h2.drainLock.trans h1.drainLock,
      h2.registryLock.trans h1.registryLock⟩, hfilled'⟩

/-- Thread 2 calls `otel_drain`, and gets to its pass. -/
theorem gets_drain (henabled : σ.shared.tracer.enabled = true) (hpc : σ.pcs 2 = .idle)
    (hdrain : σ.drainLock = none) (hregistry : σ.registryLock.canRead) :
    ∃ σ', Gets σ σ' ∧ σ'.shared = σ.shared ∧
      σ'.pcs 2 = .drainPass .user (.begin .present) (PassVars.start σ.shared.tracer) := by
  obtain ⟨σ₁, hσ₁⟩ : ∃ σ₁, σ₁ = σ.goto 2 (.drainEnabled .user) := ⟨_, rfl⟩
  have hpc₁ : σ₁.pcs 2 = .drainEnabled .user := by rw [hσ₁, goto_self]
  have h1 : Gets σ σ₁ := .call (t := 2) (c := .drain) ⟨hpc, trivial⟩ (by rw [hσ₁]; rfl) rfl
  obtain ⟨σ₂, hσ₂⟩ : ∃ σ₂, σ₂ = σ₁.goto 2 (.drainLock .user) := ⟨_, rfl⟩
  have hpc₂ : σ₂.pcs 2 = .drainLock .user := by rw [hσ₂, goto_self]
  have h2 : Gets σ₁ σ₂ := by
    refine .step (t := 2) (by simp [Process.Ready, hpc₁]) ?_
    rw [threadStep]
    simp only [hpc₁]
    rw [if_pos (by rw [hσ₁]; exact henabled), hσ₂]
  obtain ⟨σ₃, hσ₃⟩ : ∃ σ₃, σ₃ = { σ₂ with drainLock := some 2 }.goto 2 (.drainRdlock .user) :=
    ⟨_, rfl⟩
  have hpc₃ : σ₃.pcs 2 = .drainRdlock .user := by rw [hσ₃, goto_self]
  have h3 : Gets σ₂ σ₃ := by
    refine .step (t := 2) ?_ ?_
    · simp only [Process.Ready, hpc₂]
      rw [hσ₂, hσ₁]
      exact hdrain
    · rw [threadStep]
      simp only [hpc₂]
      rw [hσ₃]
  have hshared : σ₃.shared = σ.shared := by
    rw [hσ₃, hσ₂, hσ₁]
    rfl
  refine ⟨{ σ₃ with registryLock := σ₃.registryLock.lockRead 2 }.goto 2
    (.drainPass .user (.begin .present) (PassVars.start σ.shared.tracer)),
    h1.trans (h2.trans (h3.trans (.step (t := 2) ?_ ?_))), hshared, goto_self ..⟩
  · simp only [Process.Ready, hpc₃]
    rw [hσ₃, hσ₂, hσ₁]
    exact hregistry
  · rw [threadStep]
    simp only [hpc₃]
    rw [hshared]

/-- The pass of thread 2 moves past a span. -/
theorem filled_take {n i : Nat} (h : Filled n i σ.shared) {k : Caller}
    (hpc : σ.pcs 2 = .drainPass k (.loop 3) v) (hne : v.tail ≠ v.head) :
    ∃ σ' m, Moves σ σ' m (.drainPass k (.loop 3) v.advance) ∧ Filled n (i + 1) m := by
  obtain ⟨c, hc, hcap, hhead, htail⟩ := h.ctx
  have hderef : σ.shared.tracer.derefSink = .ok ⟨false, true, false⟩ := by
    rw [Tracer.derefSink, h.sink]
  obtain ⟨σ₁, h1⟩ := moves_pass (m := σ.shared) (x := some (.emit 3 .present)) (w := v) hpc (by
    rw [passStep, deref_of_live hc]
    refine (if_neg hne).trans ?_
    rw [Shared.add, emitTransport, h.transport]
    rfl)
  obtain ⟨σ₂, h2⟩ := moves_pass (m := σ.shared) (x := some (.emit 3 .test)) (w := v) h1.pcs (by
    rw [h1.shared, passStep, siteStep, h.sinkPresent]
    rfl)
  obtain ⟨σ₃, h3⟩ := moves_pass (m := σ.shared) (x := some (.emit 3 .fetch)) (w := v) h2.pcs (by
    rw [h2.shared, passStep, siteStep, hderef]
    rfl)
  obtain ⟨σ₄, h4⟩ := moves_pass (m := σ.shared) (x := some (.emit 3 .priv)) (w := v) h3.pcs (by
    rw [h3.shared, passStep, siteStep, hderef]
    rfl)
  obtain ⟨σ₅, h5⟩ := moves_pass (m := σ.shared) (x := some (.emit 3 .call)) (w := v) h4.pcs (by
    rw [h4.shared, passStep, siteStep, hderef]
    rfl)
  obtain ⟨σ₆, h6⟩ := moves_pass (x := some (.loop 3)) (w := v.advance) h5.pcs (by
    rw [h5.shared, passStep, siteStep]
    show (σ.shared.tracer.deref 3 >>= _) = _
    rw [deref_of_live hc]
    rfl)
  refine ⟨σ₆, _, ⟨h1.gets.trans (h2.gets.trans (h3.gets.trans (h4.gets.trans (h5.gets.trans h6.gets)))),
    h6.shared, h6.pcs, ?_, ?_⟩, { h with spans := ?_ }⟩
  · rw [h6.drainLock, h5.drainLock, h4.drainLock, h3.drainLock, h2.drainLock, h1.drainLock]
  · rw [h6.registryLock, h5.registryLock, h4.registryLock, h3.registryLock, h2.registryLock,
      h1.registryLock]
  · show (sinkSpans (σ.shared.tracer.out ++ [.sinkSpan _])).length = i + 1
    rw [sinkSpans_append, List.length_append, h.spans]
    rfl

theorem filled_takes {n : Nat} (h : Filled n 0 σ.shared) (hn : n ≤ 2 ^ 31) {k : Caller}
    (hpc : σ.pcs 2 = .drainPass k (.loop 3) v) (htail : v.tail = 0)
    (hhead : v.head = UInt64.ofNat n) (i : Nat) (hi : i ≤ n) :
    ∃ σ' m w, Moves σ σ' m (.drainPass k (.loop 3) w) ∧ Filled n i m ∧ w.tail = UInt64.ofNat i ∧
      w.head = v.head ∧ w.rest = v.rest ∧ w.base = v.base := by
  induction i with
  | zero => exact ⟨σ, σ.shared, v, ⟨Gets.refl σ, rfl, hpc, rfl, rfl⟩, h, htail, rfl, rfl, rfl⟩
  | succ i ih =>
    obtain ⟨σ₁, m₁, w, h1, hfilled, hwtail, hwhead, hrest, hbase⟩ := ih (by omega)
    rw [← h1.shared] at hfilled
    have hne : w.tail ≠ w.head := by
      intro heq
      rw [hwtail, hwhead, hhead] at heq
      have hsame := (Spsc.ofNat_eq_iff (show i ≤ n by omega) (by omega)).mp heq
      omega
    obtain ⟨σ₂, m₂, h2, hfilled'⟩ := filled_take hfilled h1.pcs hne
    refine ⟨σ₂, m₂, w.advance, ⟨h1.gets.trans h2.gets, h2.shared, h2.pcs,
      h2.drainLock.trans h1.drainLock, h2.registryLock.trans h1.registryLock⟩, hfilled', ?_, hwhead,
      hrest, hbase⟩
    show w.tail + 1 = UInt64.ofNat (i + 1)
    rw [hwtail, Spsc.ofNat_succ]

/-- Thread 2 drains a ring of `n` spans, and is about to return from `otel_drain`. -/
theorem filled_drain {n : Nat} (h : Filled n 0 σ.shared) (hn : n ≤ 2 ^ 31) (hpc : σ.pcs 2 = .idle)
    (hdrain : σ.drainLock = none) (hregistry : σ.registryLock.canRead) :
    ∃ σ' v, Gets σ σ' ∧ σ'.pcs 2 = .drainUnlock .user v ∧ σ'.emitted v = n := by
  obtain ⟨c, hc, hcap, hhead, htail⟩ := h.ctx
  have hderef : σ.shared.tracer.derefSink = .ok ⟨false, true, false⟩ := by
    rw [Tracer.derefSink, h.sink]
  obtain ⟨σ₀, h0, hshared, hpc₀⟩ := gets_drain h.enabled hpc hdrain hregistry
  obtain ⟨v₀, hv₀⟩ : ∃ v, v = PassVars.start σ.shared.tracer := ⟨_, rfl⟩
  rw [← hv₀] at hpc₀
  obtain ⟨σ₁, h1⟩ := moves_pass (m := σ.shared) (x := some (.begin .test)) (w := v₀) hpc₀ (by
    rw [hshared, passStep, siteStep, h.sinkPresent]
    rfl)
  obtain ⟨σ₂, h2⟩ := moves_pass (m := σ.shared) (x := some .walk) (w := { v₀ with rest := [3] })
    h1.pcs (by
      rw [h1.shared, passStep, siteStep, hderef, h.threads]
      rfl)
  obtain ⟨σ₃, h3⟩ := moves_pass (m := σ.shared) (x := some (.loadHead 3))
    (w := { v₀ with rest := [], tail := c.tail }) h2.pcs (by
      rw [h2.shared, passStep]
      show (σ.shared.tracer.deref 3 >>= _) = _
      rw [deref_of_live hc]
      rfl)
  obtain ⟨σ₄, h4⟩ := moves_pass (m := σ.shared) (x := some (.loop 3))
    (w := { v₀ with rest := [], tail := c.tail, head := c.head }) h3.pcs (by
      rw [h3.shared, passStep, deref_of_live hc]
      rfl)
  have h' := h
  rw [← h4.shared] at h
  obtain ⟨σ₅, m₅, w, h5, hfilled, hwtail, hwhead, hrest, hbase⟩ :=
    filled_takes h hn h4.pcs htail hhead n (Nat.le_refl n)
  obtain ⟨c', hc', -, -, -⟩ := hfilled.ctx
  obtain ⟨σ₆, h6⟩ := moves_pass (x := some .walk) (w := w) h5.pcs (by
    rw [h5.shared, passStep, deref_of_live hc']
    refine if_pos ?_
    rw [hwtail, hwhead]
    exact hhead.symm)
  have hbatch : σ₆.shared.tracer.otlp.nSpans = 0 := by rw [h6.shared]; exact hfilled.batch
  have hpresent : σ₆.shared.tracer.sinkPresent = true := by rw [h6.shared]; exact hfilled.sinkPresent
  have hsink : σ₆.shared.tracer.sink = some ⟨false, true, false⟩ := by
    rw [h6.shared]
    exact hfilled.sink
  have hspans : (sinkSpans σ₆.shared.tracer.out).length = n := by
    rw [h6.shared]
    exact hfilled.spans
  obtain ⟨σ₇, h7⟩ := moves_pass (m := σ₆.shared) (x := some .flush) (w := w) h6.pcs (by
    rw [passStep, show w.rest = [] from hrest])
  have hflush : σ₆.shared.tracer.flush (fun _ => []) =
      .ok { σ₆.shared.tracer with out := σ₆.shared.tracer.out ++ [] } := by
    rw [Tracer.flush, otlpFlush, if_pos hbatch]
    rfl
  obtain ⟨σ₈, h8⟩ := moves_pass (x := some (.finish .present)) (w := w) h7.pcs (by
    rw [h7.shared, passStep, hflush]
    rfl)
  have hderef₈ : σ₈.shared.tracer.derefSink = .ok ⟨false, true, false⟩ := by
    rw [h8.shared, Tracer.derefSink]
    simp only [hsink]
  obtain ⟨σ₉, h9⟩ := moves_pass (m := σ₈.shared) (x := some (.finish .test)) (w := w) h8.pcs (by
    rw [passStep, siteStep, h8.shared]
    simp only [hpresent]
    rfl)
  obtain ⟨σ₁₀, h10⟩ := moves_pass (m := σ₈.shared) (x := none) (w := w) h9.pcs (by
    rw [h9.shared, passStep, siteStep, hderef₈]
    rfl)
  have hunlock : Gets σ₁₀ ({ σ₁₀ with registryLock := σ₁₀.registryLock.unlockRead 2 }.goto 2
      (.drainUnlock .user w)) := by
    refine .step (t := 2) (by simp [Process.Ready, h10.pcs]) ?_
    rw [threadStep]
    simp only [h10.pcs]
    rfl
  refine ⟨_, w, h0.trans (h1.gets.trans (h2.gets.trans (h3.gets.trans (h4.gets.trans (h5.gets.trans
    (h6.gets.trans (h7.gets.trans (h8.gets.trans (h9.gets.trans (h10.gets.trans hunlock)))))))))),
    goto_self .., ?_⟩
  have hstart : w.base = 0 := by
    rw [show w.base = v₀.base from hbase, hv₀]
    exact h'.spans
  show (sinkSpans σ₁₀.shared.tracer.out).length - w.base = n
  rw [h10.shared, h8.shared, hstart]
  show (sinkSpans (σ₆.shared.tracer.out ++ [])).length - 0 = n
  rw [List.append_nil, hspans, Nat.sub_zero]

/-- A drain of a full ring of `2 ^ 31` spans is about to return a negative number. -/
theorem delivery_overflow : ∃ acts σ v, (∀ x ∈ acts, x.keepsSink = true) ∧
    (processMachine fun _ => []).Run (Process.start countingTracer false 0 1) acts σ ∧
    σ.pcs 2 = .drainUnlock .user v ∧ σ.emitted v = 2 ^ 31 ∧ v.n.toInt = -2 ^ 31 ∧
    ¬ σ.Delivers fun _ => [] := by
  have hregister : ∃ σ, Gets (Process.start countingTracer false 0 1) σ ∧ Filled 0 0 σ.shared ∧
      σ.pcs 2 = .idle ∧ σ.drainLock = none ∧ σ.registryLock.canRead := by
    refine ⟨_, ⟨[.call 2 (.setRingCapacity 0x80000000), .call 2 (.register 3 ⟨1, 0⟩ 0), .step 2,
      .step 2, .step 2], by simp [Act.keepsSink], .cons ⟨rfl, trivial⟩ rfl (.cons ⟨rfl, rfl⟩ rfl
      (.cons ⟨rfl, rfl⟩ rfl (.cons trivial rfl (.cons trivial rfl .nil))))⟩, ?_, rfl, rfl, rfl⟩
    exact ⟨rfl, ⟨_, rfl, rfl, rfl, rfl⟩, rfl, rfl, rfl, rfl, rfl, rfl, rfl⟩
  obtain ⟨σ₁, h1, hfilled, hpc, hdrain, hregistry⟩ := hregister
  obtain ⟨σ₂, m, h2, hfilled'⟩ := filled_finishes hfilled hpc (2 ^ 31) (Nat.le_refl _)
  rw [← h2.shared] at hfilled'
  obtain ⟨σ, v, h3, hreturn, hemitted⟩ := filled_drain hfilled' (Nat.le_refl _) h2.pcs
    (h2.drainLock.trans hdrain) (h2.registryLock ▸ hregistry)
  obtain ⟨acts, hkeeps, hrun⟩ := h1.trans (h2.gets.trans h3)
  have hok : σ.SpansOk ⟨false, true, false⟩ := hrun.invariant counting_spansOk
    fun _ x hx _ hi he hstep => spansOk_step rfl hi (hkeeps x hx) he hstep
  have hcount := hok.count 2 v (by rw [hreturn]; rfl)
  have hvalue : v.n.toInt = -2 ^ 31 := by
    rw [hcount.2, show (sinkSpans σ.shared.tracer.out).length - v.base = 2 ^ 31 from hemitted]
    rfl
  refine ⟨acts, σ, v, hkeeps, hrun, hreturn, hemitted, hvalue, ?_⟩
  intro hdelivers
  have hequal := hdelivers.counted 2 .user v hreturn
  rw [hvalue, hemitted] at hequal
  exact absurd hequal (by decide)

end OtelTracing
