import OtelTracing.Proofs.ReadBackProofs
import Mathlib.Data.List.TakeWhile

/-!
# Proofs: the reference behaviour on strings without NUL bytes

If no string that is passed to a call contains a NUL byte, then no string of the resulting value
does, and a span reads back exactly as the reference behaviour says (`readSpan_calls`).
-/

namespace OtelTracing

open ByteMem

variable {v : SpanView}

theorem cutStr_of_nulFree {b : Bytes} (h : (0 : UInt8) ∉ b) : cutStr b = b := by
  refine List.takeWhile_eq_self_iff.mpr ?_
  intro x hx
  have hne : x ≠ 0 := by
    rintro rfl
    exact h hx
  simpa using hne

theorem cutStr_cutStr (b : Bytes) : cutStr (cutStr b) = cutStr b := by
  refine cutStr_of_nulFree ?_
  intro hmem
  have := List.mem_takeWhile_imp hmem
  simp at this

/-! ## Charging -/

theorem chargeBytes_cut {used : Nat} {b : Bytes} (h : cutStr b = b) :
    cutStr ((chargeBytes used b).2.getD []) = (chargeBytes used b).2.getD [] := by
  unfold chargeBytes
  cases charge used (b.length + 1) with
  | none => rfl
  | some used' => exact h

theorem chargeStr_cut (used : Nat) (str : Option Bytes) :
    cutStr ((chargeStr used str).2.getD []) = (chargeStr used str).2.getD [] := by
  cases str with
  | none => rfl
  | some b => exact chargeBytes_cut (cutStr_cutStr b)

theorem chargeStrn_cut {used : Nat} {len : UInt64} {str : Option Bytes} (h : NulFreeStr str)
    (hlen : ∀ b ∈ str, len.toNat ≤ b.length) :
    cutStr ((chargeStrn used len str).2.getD []) = (chargeStrn used len str).2.getD [] := by
  cases str with
  | none => rfl
  | some b =>
    refine chargeBytes_cut (cutStr_of_nulFree ?_)
    rw [List.takeD_eq_take _ (hlen b rfl)]
    intro hmem
    exact h b rfl (List.mem_of_mem_take hmem)

theorem chargeAttr_cut {used u : Nat} {key : Option Bytes} {k : Bytes}
    (h : chargeAttr used key = (u, some k)) : cutStr k = k := by
  unfold chargeAttr at h
  have hkey := chargeStr_cut used key
  cases hc : charge (chargeStr used key).1 sizeofOtelAttr with
  | none => simp [hc] at h
  | some u' =>
    simp only [hc, Prod.mk.injEq] at h
    simpa [h.2] using hkey

theorem chargeValue_cut (used : Nat) {arg : AttrArg} (h : arg.NulFree) :
    (chargeValue used arg).2.cut = (chargeValue used arg).2 := by
  cases arg with
  | str value => exact congrArg AttrValue.str (chargeStr_cut used value)
  | strn value len => exact congrArg AttrValue.str (chargeStrn_cut h.1 h.2)
  | i64 value => rfl
  | u64 value => rfl
  | bool value => rfl

theorem addAttr_cut {used u : Nat} {as as' : List AttrView} {key : Option Bytes} {arg : AttrArg}
    (h : addAttr used as key arg = (u, some as')) (has : as.map AttrView.cut = as)
    (harg : arg.NulFree) : as'.map AttrView.cut = as' := by
  unfold addAttr at h
  rcases hc : chargeAttr used key with ⟨u', _ | k⟩
  · simp [hc] at h
  · simp only [hc, Prod.mk.injEq, Option.some.injEq] at h
    obtain ⟨-, rfl⟩ := h
    simp [has, AttrView.cut, chargeAttr_cut hc, chargeValue_cut u' harg]

/-! ## Calls -/

/-- A value whose strings have no NUL byte keeps that property. -/
theorem call_cut {c : Call} (h : v.cut = v) (hc : c.NulFree) : (v.call c).cut = v.call c := by
  obtain ⟨used, name, status, message, attrs, events, droppedAttrs, droppedEvents⟩ := v
  simp only [SpanView.cut, SpanView.mk.injEq, true_and, and_true] at h
  obtain ⟨hname, hmessage, hattrs, hevents⟩ := h
  cases c with
  | setName newName =>
    have hnew := chargeStr_cut used newName
    simp only [SpanView.call, SpanView.cut, hmessage, hattrs, hevents]
    cases hn : (chargeStr used newName).2 with
    | none => simp [hname]
    | some b =>
      rw [hn] at hnew
      simpa using hnew
  | setStatus newStatus newMessage =>
    simp only [SpanView.call, SpanView.cut, hname, hattrs, hevents,
      chargeStr_cut used newMessage]
  | attr key arg =>
    rcases ha : addAttr used attrs key arg with ⟨u, _ | attrs'⟩
    · simp only [SpanView.call, SpanView.cut, ha, hname, hmessage, hattrs, hevents]
    · simp only [SpanView.call, SpanView.cut, ha, hname, hmessage, hevents,
        addAttr_cut ha hattrs hc.2]
  | event newName now =>
    rcases he : charge (chargeStr used newName).1 sizeofOtelEvent with _ | u
    · simp only [SpanView.call, SpanView.cut, he, hname, hmessage, hattrs, hevents]
    · simp only [SpanView.call, SpanView.cut, he, hname, hmessage, hattrs, List.map_append, hevents]
      simp [EventView.cut, chargeStr_cut used newName]
  | eventAttr handle key arg =>
    rcases hget : events[handle]? with _ | e
    · simp only [SpanView.call, SpanView.cut, hget, hname, hmessage, hattrs, hevents]
    · -- the event with the handle is NUL-free as all others are
      have he : e.cut = e := by
        have hmap : (events.map EventView.cut)[handle]? = some e.cut := by
          rw [List.getElem?_map, hget]
          rfl
        rw [hevents, hget] at hmap
        exact (Option.some.inj hmap).symm
      obtain ⟨ename, etime, eattrs, edropped⟩ := e
      simp only [EventView.cut, EventView.mk.injEq, true_and, and_true] at he
      obtain ⟨hename, heattrs⟩ := he
      rcases ha : addAttr used eattrs key arg with ⟨u, _ | attrs'⟩
      · simp only [SpanView.call, SpanView.cut, hget, ha, hname, hmessage, hattrs, List.map_set,
          hevents, EventView.cut, hename, heattrs]
      · simp only [SpanView.call, SpanView.cut, hget, ha, hname, hmessage, hattrs, List.map_set,
          hevents, EventView.cut, hename, addAttr_cut ha heattrs hc.2]
  | finish now =>
    simp only [SpanView.call, SpanView.cut, hname, hmessage, hattrs, hevents]

theorem calls_cut (h : v.cut = v) {cs : List Call} (hcs : ∀ c ∈ cs, c.NulFree) :
    (v.calls cs).cut = v.calls cs := by
  induction cs generalizing v with
  | nil => exact h
  | cons c cs ih =>
    exact ih (call_cut h (hcs c (by simp))) fun c' hc' => hcs c' (List.mem_cons_of_mem _ hc')

theorem start_cut (name : Option Bytes) : (SpanView.start name).cut = SpanView.start name := by
  simp only [SpanView.start, SpanView.cut, chargeStr_cut 0 name]
  rfl

/-! ## Reading back -/

/-- A span that was started through the API and then annotated, on any memory, is laid out. -/
theorem session_spec {c : StartCall} {env : StartEnv} {tls : Option OtelRandomState}
    {s : OtelSpan} {name : Option Bytes} {kind : UInt32} {cs : List Call}
    (hrec : otelSpanRecording (c.run env tls s name kind).2 = true) (hname : ShortStr name)
    (hcs : ∀ c ∈ cs, c.Short) :
    ∃ L, (Session.calls ⟨(c.run env tls s name kind).2, []⟩ cs).Models L ∧
      L.view (Session.calls ⟨(c.run env tls s name kind).2, []⟩ cs).span =
        (SpanView.start name).calls cs := by
  obtain ⟨s', k, hinit⟩ := start_recording hrec
  obtain ⟨L, hL, hview⟩ := init_spec s' name k env.now hname
  rw [hinit]
  obtain ⟨L', hL', hview'⟩ := calls_spec hL cs hcs
  exact ⟨L', hL', by rw [hview', hview]⟩

/-- A recording span that was annotated by any sequence of calls reads back as the reference
behaviour says. -/
theorem readSpan_calls (c : StartCall) (env : StartEnv) (tls : Option OtelRandomState)
    (s : OtelSpan) (name : Option Bytes) (kind : UInt32) (cs : List Call)
    (hrec : otelSpanRecording (c.run env tls s name kind).2 = true) (hname : ShortStr name)
    (hcs : ∀ c ∈ cs, c.Short) (hnul : ∀ c ∈ cs, c.NulFree) :
    readSpan (Session.calls ⟨(c.run env tls s name kind).2, []⟩ cs).span =
      some ((SpanView.start name).calls cs) := by
  obtain ⟨L, hL, hview⟩ := session_spec hrec hname hcs
  rw [readSpan_eq hL.repr, hview, calls_cut (start_cut name) hnul]

theorem readSpan_calls_sample :
    readSpan (Session.calls (sampleSession [104, 105]) [.event (some [101]) 9,
        .attr (some [107]) (.u64 5), .eventAttr 0 (some [109]) (.str (some [110, 111])),
        .setName (some [120])]).span =
      some { used := 104, name := [120], status := 0, message := []
             attrs := [⟨[107], .u64 5⟩]
             events := [⟨[101], 9, [⟨[109], .str [110, 111]⟩], 0⟩]
             droppedAttrs := 0, droppedEvents := 0 } :=
  (readSpan_calls .root ⟨true, true, 0, 7⟩ (some ⟨1, 0⟩) zeroSpan (some [104, 105]) 1 _
    (recording_of_flags rfl) (by simp [ShortStr])
    (by simp [Call.Short, AttrArg.Short, ShortStr])
    (by simp [Call.NulFree, AttrArg.NulFree, NulFreeStr])).trans rfl

end OtelTracing
