import OtelTracing.Proofs.RegistryProofs
import Mathlib.Data.List.Flatten

/-!
# Proofs: no span disappears uncounted

A call changes the number of ended spans and the number of spans accounted for by the same amount,
unless it loses spans: then the second falls behind, for good.
-/

namespace OtelTracing

open ByteMem Outcome

variable {pack : Proto.ExportTraceServiceRequest → Bytes} {t t' : Tracer} {a : CtxAddr}

/-! ## Staged spans -/

theorem length_stagedIn (ctxs : CtxAddr → Option OtelThreadCtx) (as : List CtxAddr) :
    (stagedIn ctxs as).length = (as.map fun a => (stagedAt ctxs a).length).sum := by
  rw [stagedIn, List.length_flatMap]

theorem length_stagedIn_erase (ctxs : CtxAddr → Option OtelThreadCtx) {as : List CtxAddr}
    (ha : a ∈ as) : (stagedIn ctxs as).length =
      (stagedAt ctxs a).length + (stagedIn ctxs (as.erase a)).length := by
  have hperm := (List.perm_cons_erase ha).map fun a => (stagedAt ctxs a).length
  rw [length_stagedIn, length_stagedIn, hperm.sum_eq]
  rfl

/-- Changing one context changes the total by as much as that context. -/
theorem length_stagedIn_update (ctxs : CtxAddr → Option OtelThreadCtx) {as : List CtxAddr}
    (hnodup : as.Nodup) (ha : a ∈ as) (c : OtelThreadCtx) :
    (stagedIn (Function.update ctxs a (some c)) as).length + (stagedAt ctxs a).length =
      (stagedIn ctxs as).length + c.staged.length := by
  have hrest : stagedIn (Function.update ctxs a (some c)) (as.erase a) =
      stagedIn ctxs (as.erase a) := stagedIn_update _ _ hnodup.not_mem_erase
  have hnew : stagedAt (Function.update ctxs a (some c)) a = c.staged := by
    simp [stagedAt]
  rw [length_stagedIn_erase _ ha, length_stagedIn_erase ctxs ha, hrest, hnew]
  omega

theorem stagedIn_congr {ctxs : CtxAddr → Option OtelThreadCtx} {c : OtelThreadCtx}
    (hc : ctxs a = some c) (c' : OtelThreadCtx) (hstaged : c'.staged = c.staged) (as : List CtxAddr) :
    stagedIn (Function.update ctxs a (some c')) as = stagedIn ctxs as := by
  unfold stagedIn
  refine List.flatMap_congr fun b _ => ?_
  by_cases hb : b = a
  · simp [stagedAt, hb, hc, hstaged]
  · simp [stagedAt, hb]

/-- A span that is not dropped is staged behind the others. -/
theorem ringPut_cases (c : OtelThreadCtx) (s : OtelSpan) :
    (c.head - c.tail ≥ c.capacity.toUInt64 ∧ (ringPut c s).2 = true ∧
      (ringPut c s).1.staged = c.staged) ∨
    (¬ c.head - c.tail ≥ c.capacity.toUInt64 ∧ (ringPut c s).2 = false ∧
      (ringPut c s).1.staged.length = c.staged.length + 1) := by
  unfold ringPut
  by_cases hfull : c.head - c.tail ≥ c.capacity.toUInt64
  · left
    rw [if_pos hfull]
    exact ⟨hfull, rfl, rfl⟩
  · right
    rw [if_neg hfull]
    refine ⟨hfull, rfl, ?_⟩
    have hlt : (c.head - c.tail).toNat < c.capacity.toNat := by
      have hlt := UInt64.lt_iff_toNat_lt.mp (UInt64.not_le.mp hfull)
      simpa using hlt
    have hcap := c.capacity.toNat_lt
    simp only [OtelThreadCtx.staged, Ring.length_contents]
    exact Ring.toNat_sub_add_one (by omega)

/-! ## The account of a call -/

/-- The call adds to the ended spans what it adds to those accounted for, and `lost` spans. -/
def Loses (t t' : Tracer) (lost : Nat) : Prop :=
  t'.ended + t.accounted = t.ended + t'.accounted + lost

theorem Loses.same (hended : t'.ended = t.ended) (haccounted : t'.accounted = t.accounted) :
    Loses t t' 0 := by
  rw [Loses, hended, haccounted]
  rfl

/-- Counting one more drop loses nothing, unless the counter wraps. -/
theorem toNat_succ_cases (n : UInt64) :
    (n.toNat + 1 < 2 ^ 64 ∧ (n + 1).toNat = n.toNat + 1) ∨
    (¬ n.toNat + 1 < 2 ^ 64 ∧ (n + 1).toNat = 0 ∧ n.toNat + 1 = 2 ^ 64) := by
  have hlt := n.toNat_lt
  have hone : (1 : UInt64).toNat = 1 := rfl
  rw [UInt64.toNat_add, hone]
  omega

theorem finish_account (h : RegistryOk t) {tid : ThreadId} {s : OtelSpan} {now : UInt64}
    (hstep : otelSpanEnd t tid s now = .ok t') :
    ∃ lost, Loses t t' lost ∧ (lost = 0 ↔ Lossless t (.finish tid s now)) := by
  rcases spanEnd_cases hstep with ⟨hrec, rfl⟩ | ⟨hrec, htls, rfl⟩ | ⟨hrec, a, c, htls, hc, rfl⟩
  · exact ⟨0, Loses.same rfl rfl, by simp [Lossless, hrec]⟩
  · have hdrops : t.drops tid = true := by rw [Tracer.drops, htls]
    simp only [Lossless, hrec, hdrops, forall_const, Loses, Tracer.accounted, otelDroppedSpans,
      Tracer.staged]
    rcases toNat_succ_cases t.droppedSpans with ⟨hlt, hsucc⟩ | ⟨hge, hsucc, hmax⟩
    · exact ⟨0, by omega, iff_of_true rfl hlt⟩
    · exact ⟨2 ^ 64, by omega, iff_of_false (by decide) hge⟩
  · have hdrops : t.drops tid = decide (c.head - c.tail ≥ c.capacity.toUInt64) := by
      simp only [Tracer.drops, htls, hc]
    have hmem := h.listed tid a htls
    rcases ringPut_cases c (stampEnd s now) with ⟨hfull, hflag, hstaged⟩ | ⟨hfull, hflag, hlen⟩
    · have hsame := stagedIn_congr hc _ hstaged t.threads
      simp only [Lossless, hrec, hdrops, hfull, decide_true, forall_const, Loses,
        Tracer.accounted, otelDroppedSpans, Tracer.staged, hflag, if_true, hsame]
      rcases toNat_succ_cases t.droppedSpans with ⟨hlt, hsucc⟩ | ⟨hge, hsucc, hmax⟩
      · exact ⟨0, by omega, iff_of_true rfl hlt⟩
      · exact ⟨2 ^ 64, by omega, iff_of_false (by decide) hge⟩
    · have hupdate := length_stagedIn_update t.ctxs h.nodup hmem
        (ringPut c (stampEnd s now)).1
      have hat : stagedAt t.ctxs a = c.staged := by simp [stagedAt, hc]
      rw [hat, hlen] at hupdate
      refine ⟨0, ?_, by simp [Lossless, hdrops, hfull]⟩
      simp only [Loses, Tracer.accounted, otelDroppedSpans, Tracer.staged, hflag]
      simp only [Bool.false_eq_true, if_false]
      omega

/-- A pass over all rings loses their spans if there is no consumer. -/
theorem drain_account (h : RegistryOk t) {n : Int32} (hstep : otelDrain pack t = .ok (t', n)) :
    ∃ lost, Loses t t' lost ∧ (lost = 0 ↔ Lossless t .drain) := by
  unfold otelDrain at hstep
  cases hen : t.enabled with
  | false =>
    rw [hen] at hstep
    obtain ⟨rfl, -⟩ := Prod.mk.inj (Except.ok.inj hstep)
    exact ⟨0, Loses.same rfl rfl, by simp [Lossless, hen]⟩
  | true =>
    rw [hen] at hstep
    obtain ⟨o, out, rfl⟩ := drainPass_frame h.nodup hstep
    have hempty : stagedIn (drainedCtxs t.threads t.ctxs) t.threads = [] := by
      refine List.flatMap_eq_nil_iff.mpr fun a ha => ?_
      rw [stagedAt_drainedCtxs, if_pos ha]
    simp only [Lossless, hen, forall_const, Loses, Tracer.accounted, Tracer.staged, hempty,
      otelDroppedSpans, List.length_nil]
    cases hcons : t.hasConsumer with
    | true =>
      refine ⟨0, ?_, by simp⟩
      simp only [if_true, Nat.mul_one]
      omega
    | false =>
      refine ⟨(stagedIn t.ctxs t.threads).length, ?_, by simp [List.length_eq_zero_iff]⟩
      simp only [Bool.false_eq_true, if_false, Nat.mul_zero]
      omega

theorem unregister_account (h : RegistryOk t) {tid : ThreadId}
    (hstep : otelThreadUnregister pack t tid = .ok t') :
    ∃ lost, Loses t t' lost ∧ (lost = 0 ↔ Lossless t (.unregister tid)) := by
  rcases unregister_cases hstep with ⟨htls, rfl⟩ | ⟨a, t₁, threads, c, htls, hpass, hunlink, -, rfl⟩
  · exact ⟨0, Loses.same rfl rfl, by simp [Lossless, htls]⟩
  · have hmem := h.listed tid a htls
    have hlossless : Lossless t (.unregister tid) ↔
        (stagedAt t.ctxs a = [] ∨ t.enabled = true ∧ t.hasConsumer = true) := by
      simp [Lossless, htls]
    have hnot : a ∉ t.threads.erase a := h.nodup.not_mem_erase
    have herase := length_stagedIn_erase t.ctxs hmem
    rw [hlossless]
    rcases whenEnabled_ok hpass with ⟨hen, n, hpass⟩ | ⟨hen, rfl⟩
    · -- the pass empties the ring, then it is freed
      have hok := (h.drainPass (by simp) hpass).1
      obtain ⟨o, out, rfl⟩ := drainPass_frame (by simp) hpass
      rw [unlink_eq_erase fun b hb => (hok.live_iff b).mpr hb] at hunlink
      obtain rfl := Except.ok.inj hunlink
      have hothers : stagedIn (Function.update (drainedCtxs [a] t.ctxs) a none)
          (t.threads.erase a) = stagedIn t.ctxs (t.threads.erase a) := by
        rw [stagedIn_update _ _ hnot]
        refine List.flatMap_congr fun b hb => ?_
        rw [stagedAt_drainedCtxs, if_neg]
        simpa using fun hba : b = a => hnot (hba ▸ hb)
      have hone : (stagedIn t.ctxs [a]).length = (stagedAt t.ctxs a).length := by
        simp [stagedIn]
      simp only [Loses, Tracer.accounted, Tracer.staged, hothers, hone, otelDroppedSpans, hen,
        true_and, herase]
      cases hcons : t.hasConsumer with
      | true =>
        refine ⟨0, ?_, by simp⟩
        simp only [if_true, Nat.mul_one]
        omega
      | false =>
        refine ⟨(stagedAt t.ctxs a).length, ?_, by simp [List.length_eq_zero_iff]⟩
        simp only [Bool.false_eq_true, if_false, Nat.mul_zero]
        omega
    · rw [unlink_eq_erase fun b hb => (h.live_iff b).mpr hb] at hunlink
      obtain rfl := Except.ok.inj hunlink
      have hothers := stagedIn_update t₁.ctxs none hnot
      refine ⟨(stagedAt t₁.ctxs a).length, ?_, ?_⟩
      · simp only [Loses, Tracer.accounted, Tracer.staged, hothers, otelDroppedSpans, herase]
        omega
      · simp [hen, List.length_eq_zero_iff]

theorem shutdown_account (h : RegistryOk t) (hstep : otelShutdown pack t = .ok t') :
    ∃ lost, Loses t t' lost ∧ (lost = 0 ↔ Lossless t .shutdown) := by
  rcases shutdown_cases hstep with ⟨hinit, rfl⟩ | ⟨hinit, t₁, hpass, rfl⟩
  · exact ⟨0, Loses.same rfl rfl, by simp [Lossless, hinit]⟩
  · have hlossless : Lossless t .shutdown ↔
        (t.staged = [] ∨ t.enabled = true ∧ t.hasConsumer = true) := by
      simp [Lossless, hinit]
    rw [hlossless]
    rcases whenEnabled_ok hpass with ⟨hen, n, hpass⟩ | ⟨hen, rfl⟩
    · rw [otelDrain, hen] at hpass
      obtain ⟨o, out, rfl⟩ := drainPass_frame h.nodup hpass
      simp only [Loses, Tracer.accounted, Tracer.staged, otelDroppedSpans, hen, true_and,
        stagedIn, List.flatMap_nil, List.length_nil]
      cases hcons : t.hasConsumer with
      | true =>
        refine ⟨0, ?_, by simp⟩
        simp only [if_true, Nat.mul_one]
        omega
      | false =>
        refine ⟨(t.threads.flatMap (stagedAt t.ctxs)).length, ?_, ?_⟩
        · simp only [Bool.false_eq_true, if_false, Nat.mul_zero]
          omega
        · rw [List.length_eq_zero_iff]
          simp
    · refine ⟨t₁.staged.length, ?_, ?_⟩
      · simp only [Loses, Tracer.accounted, Tracer.staged, otelDroppedSpans, stagedIn,
          List.flatMap_nil, List.length_nil]
        omega
      · simp [hen, List.length_eq_zero_iff]

/-- A new ring is empty. -/
theorem register_account (h : RegistryOk t) {tid : ThreadId} {seed : OtelRandomState}
    {now : UInt64} (hpos : t.ctxs a = none) :
    Loses t (otelThreadRegister t tid a seed now) 0 := by
  cases htls : t.tls tid with
  | some b =>
    rw [register_of_some (by simp [htls])]
    exact Loses.same rfl rfl
  | none =>
    rw [register_of_none htls]
    have hnot : a ∉ t.threads := by
      intro hmem
      have hlive := (h.live_iff a).mpr hmem
      rw [hpos] at hlive
      cases hlive
    have hnew : (newCtx t.ringCapacity a seed now).staged = [] := Ring.contents_self ..
    refine Loses.same rfl ?_
    have hstaged : stagedIn (Function.update t.ctxs a (some (newCtx t.ringCapacity a seed now)))
        (a :: t.threads) = stagedIn t.ctxs t.threads := by
      have hrest := stagedIn_update t.ctxs (some (newCtx t.ringCapacity a seed now)) hnot
      have hat : stagedAt (Function.update t.ctxs a (some (newCtx t.ringCapacity a seed now))) a =
          [] := by
        rw [stagedAt, Function.update_self]
        exact hnew
      rw [← hrest, stagedIn, List.flatMap_cons, hat]
      rfl
    simp only [Tracer.accounted, Tracer.staged, otelDroppedSpans, hstaged]

theorem start_account {tid : ThreadId} {call : StartCall} {s : OtelSpan} {name : Option Bytes}
    {kind : UInt32} {now : UInt64} {r : Tracer × OtelSpan}
    (hstep : otelStart t tid call s name kind now = .ok r) : Loses t r.1 0 := by
  rcases start_cases hstep with hr | ⟨a, c, rand, hc, hr⟩
  · rw [hr]
    exact Loses.same rfl rfl
  · rw [hr]
    have hsame := stagedIn_congr hc { c with randstate := rand } rfl t.threads
    refine Loses.same rfl ?_
    simp only [Tracer.accounted, Tracer.staged, Tracer.setCtx, otelDroppedSpans, hsame]

/-- A call loses spans exactly if it does not meet the condition. -/
theorem account_step (h : RegistryOk t) {op : Op} (hop : op.Session ∨ op = .shutdown)
    (hpos : op.Possible t) (hstep : tracerStep pack t op = .ok t') :
    ∃ lost, Loses t t' lost ∧ (lost = 0 ↔ Lossless t op) := by
  cases op with
  | init service hostname buf => simp [Op.Session] at hop
  | shutdown => exact shutdown_account h hstep
  | setTransport fn =>
    obtain rfl := Except.ok.inj hstep
    exact ⟨0, Loses.same rfl rfl, iff_of_true rfl trivial⟩
  | setSpanSink sink =>
    obtain rfl := Except.ok.inj hstep
    exact ⟨0, Loses.same rfl rfl, iff_of_true rfl trivial⟩
  | setEnabled enabled =>
    obtain rfl := Except.ok.inj hstep
    exact ⟨0, Loses.same rfl rfl, iff_of_true rfl trivial⟩
  | setRingCapacity spans =>
    obtain ⟨cap, -, rfl⟩ := setRingCapacity_frame hstep
    exact ⟨0, Loses.same rfl rfl, iff_of_true rfl trivial⟩
  | register tid a seed now =>
    obtain rfl := Except.ok.inj hstep
    exact ⟨0, register_account h hpos, iff_of_true rfl trivial⟩
  | unregister tid => exact unregister_account h hstep
  | start tid call s name kind now =>
    obtain ⟨r, h1, rfl⟩ := map_ok hstep
    exact ⟨0, start_account h1, iff_of_true rfl trivial⟩
  | finish tid s now => exact finish_account h hstep
  | drain =>
    obtain ⟨⟨t₁, n⟩, h1, rfl⟩ := map_ok hstep
    exact drain_account h h1

/-- Once spans were lost, the account stays unbalanced. -/
theorem balanced_step (h : RegistryOk t) (hle : t.accounted ≤ t.ended) {op : Op}
    (hop : op.Session ∨ op = .shutdown) (hpos : op.Possible t)
    (hstep : tracerStep pack t op = .ok t') : t'.accounted ≤ t'.ended ∧
      (t'.ended = t'.accounted ↔ t.ended = t.accounted ∧ Lossless t op) := by
  obtain ⟨lost, hloses, hiff⟩ := account_step h hop hpos hstep
  rw [Loses] at hloses
  refine ⟨by omega, ?_⟩
  rw [← hiff]
  constructor
  · intro heq
    omega
  · rintro ⟨heq, rfl⟩
    omega

/-! ## Runs -/

/-- During a session the registry stays in order, and the account is balanced as long as no call
loses spans. -/
theorem session_account (h : RegistryOk t) (heq : t.ended = t.accounted) {ops : List Op}
    (hops : ∀ op ∈ ops, op.Session) (hrun : (tracerMachine pack).Run t ops t') :
    (RegistryOk t' ∧ t'.accounted ≤ t'.ended) ∧
      (t'.ended = t'.accounted ↔ ((tracerMachine pack).restrict Lossless).Run t ops t') := by
  refine hrun.iff_restrict (I := fun t => RegistryOk t ∧ t.accounted ≤ t.ended)
    (G := fun t => t.ended = t.accounted) ⟨h, heq.ge⟩ heq ?_
  intro t op hmem t' hi hpos hstep
  have hop := hops op hmem
  have hcond : NoStraggler t op := by
    cases op with
    | init service hostname buf => exact hop.elim
    | shutdown => exact hop.elim
    | _ => trivial
  obtain ⟨hle, hiff⟩ := balanced_step hi.1 hi.2 (Or.inl hop) hpos hstep
  exact ⟨⟨registry_step hi.1 hpos hcond hstep, hle⟩, hiff⟩

/-- A shutdown at the end of a session may lose spans, too. -/
theorem shutdown_balanced (h : RegistryOk t) (heq : t.ended = t.accounted) {ops : List Op}
    (hops : ∀ op ∈ ops, op.Session) (hrun : (tracerMachine pack).Run t (ops ++ [.shutdown]) t') :
    t'.ended = t'.accounted ↔
      ((tracerMachine pack).restrict Lossless).Run t (ops ++ [.shutdown]) t' := by
  constructor
  · intro hbalanced
    obtain ⟨t₁, hrun₁, hpos, hstep⟩ := hrun.snoc_inv
    obtain ⟨⟨hok, hle⟩, hiff⟩ := session_account h heq hops hrun₁
    obtain ⟨heq₁, hlossless⟩ := (balanced_step hok hle (Or.inr rfl) hpos hstep).2.mp hbalanced
    exact Machine.Run.snoc (hiff.mp heq₁) ⟨hpos, hlossless⟩ hstep
  · intro hrestrict
    obtain ⟨t₁, hrun₁, ⟨hpos, hlossless⟩, hstep⟩ := hrestrict.snoc_inv
    obtain ⟨⟨hok, hle⟩, hiff⟩ := session_account h heq hops hrun₁.of_restrict
    exact (balanced_step hok hle (Or.inr rfl) hpos hstep).2.mpr ⟨hiff.mpr hrun₁, hlossless⟩

theorem account_run {service hostname : Option Bytes} {buf : Bool} {ops last : List Op}
    (hops : ∀ op ∈ ops, op.Session) (hlast : last = [] ∨ last = [.shutdown])
    (hrun : (tracerMachine pack).Run Tracer.boot (.init service hostname buf :: (ops ++ last)) t) :
    t.ended = t.accounted ↔ ((tracerMachine pack).restrict Lossless).Run Tracer.boot
      (.init service hostname buf :: (ops ++ last)) t := by
  obtain ⟨t₀, hpos, hinit, hrest⟩ := hrun.cons_inv
  have hok : RegistryOk t₀ := by
    obtain rfl := Except.ok.inj hinit
    exact RegistryOk.boot.congr rfl (fun _ => rfl) rfl
  have heq : t₀.ended = t₀.accounted := by
    obtain rfl := Except.ok.inj hinit
    rfl
  have hbalanced : t.ended = t.accounted ↔
      ((tracerMachine pack).restrict Lossless).Run t₀ (ops ++ last) t := by
    rcases hlast with rfl | rfl
    · rw [List.append_nil] at hrest ⊢
      exact (session_account hok heq hops hrest).2
    · exact shutdown_balanced hok heq hops hrest
  refine hbalanced.trans ⟨fun h => Machine.Run.cons ⟨hpos, trivial⟩ hinit h, fun h => ?_⟩
  obtain ⟨t₀', -, hinit', h⟩ := h.cons_inv
  obtain rfl := Except.ok.inj (hinit.symm.trans hinit')
  exact h

/-- After `otelInit` and any calls, up to and including a shutdown, every ended span was emitted, is
staged or was counted as dropped, exactly if no call lost spans. -/
theorem conservation (pack : Proto.ExportTraceServiceRequest → Bytes)
    (service hostname : Option Bytes) (buf : Bool) (ops last : List Op) (t : Tracer)
    (hops : ∀ op ∈ ops, op.Session) (hlast : last = [] ∨ last = [.shutdown])
    (hrun : (tracerMachine pack).Run Tracer.boot (.init service hostname buf :: (ops ++ last)) t) :
    t.ended = t.emitted + t.staged.length + (otelDroppedSpans t).toNat ↔
      ((tracerMachine pack).restrict Lossless).Run Tracer.boot
        (.init service hostname buf :: (ops ++ last)) t :=
  account_run hops hlast hrun

/-- A span that a thread starts while tracing is enabled. -/
def startedSpan : OtelSpan := (otelSpanStart ⟨true, true, ~~~0, 0⟩ (some ⟨1, 0⟩) zeroSpan none 1).2

/-- A span is drained, another is drained when its thread unregisters, and a third at the shutdown. -/
theorem conservation_sample : ∃ t : Tracer, (t.ended = 3 ∧ t.emitted = 3 ∧ t.threads = []) ∧
    (t.ended = t.emitted + t.staged.length + (otelDroppedSpans t).toNat ↔
      ((tracerMachine fun _ => []).restrict Lossless).Run Tracer.boot
        (.init none none true ::
          ([.setTransport true, .setSpanSink (some ⟨true, true, true⟩), .register 0 3 ⟨1, 0⟩ 0,
            .register 1 4 ⟨1, 0⟩ 0, .finish 0 startedSpan 0, .drain, .finish 0 startedSpan 1,
            .unregister 0, .finish 1 startedSpan 2] ++ [.shutdown])) t) :=
  ⟨_, ⟨rfl, rfl, rfl⟩, conservation (fun _ => []) none none true
    [.setTransport true, .setSpanSink (some ⟨true, true, true⟩), .register 0 3 ⟨1, 0⟩ 0,
      .register 1 4 ⟨1, 0⟩ 0, .finish 0 startedSpan 0, .drain, .finish 0 startedSpan 1,
      .unregister 0, .finish 1 startedSpan 2] [.shutdown] _ (by simp [Op.Session]) (.inr rfl)
    (.cons trivial rfl (.cons trivial rfl (.cons trivial rfl (.cons rfl rfl (.cons rfl rfl
      (.cons trivial rfl (.cons trivial rfl (.cons trivial rfl (.cons trivial rfl
      (.cons trivial rfl (.cons trivial rfl .nil)))))))))))⟩

/-- A thread ends a recording span while tracing is enabled; after tracing was disabled the thread
unregisters, and the span is gone without being emitted or counted. -/
theorem conservation_disabled : ∃ t : Tracer,
    (tracerMachine fun _ => []).Run Tracer.boot
      [.init none none true, .setTransport true, .register 0 3 ⟨1, 0⟩ 0,
        .start 0 .root zeroSpan none 1 0, .finish 0 startedSpan 0, .setEnabled 0, .unregister 0,
        .shutdown] t ∧
    t.ended = 1 ∧ t.emitted + t.staged.length + (otelDroppedSpans t).toNat = 0 :=
  ⟨_, .cons trivial rfl (.cons trivial rfl (.cons rfl rfl (.cons trivial rfl (.cons trivial rfl
    (.cons trivial rfl (.cons trivial rfl (.cons trivial rfl .nil))))))), rfl, rfl⟩

end OtelTracing
