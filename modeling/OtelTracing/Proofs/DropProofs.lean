import OtelTracing.Proofs.ReferenceProofs

/-!
# Proofs: what a rejected call costs

A call that adds an attribute or an event makes two allocations, and it is dropped if the wrong one
fails. What the other one took is not given back, so that the call leaves the span alone exactly if
both fail (`rejected_span`).
-/

namespace OtelTracing

open ByteMem Cells

variable {s : OtelSpan} {σ : Session} {used n : Nat}

/-! ## Allocations that fail, and allocations that do not -/

theorem charge_none : charge used n = none ↔ ¬ Fits used n := by
  unfold charge Fits
  split_ifs with h
  · simp [h]
  · simp [h]

/-- An allocation that does not fit leaves the span alone, one that fits moves the cursor. -/
theorem alloc_cases (hs : Cursor s.arenaUsed) {n : UInt64} (hn : n.toNat ≤ 2 ^ 63)
    (hpos : 0 < n.toNat) :
    (¬ Fits s.arenaUsed n.toNat ∧ otelArenaAlloc s n = (s, otelNil)) ∨
    (Fits s.arenaUsed n.toNat ∧ s.arenaUsed < (otelArenaAlloc s n).1.arenaUsed ∧
      (otelArenaAlloc s n).2 ≠ otelNil) := by
  rw [otelArenaAlloc_eq hs hn]
  cases hc : charge s.arenaUsed n.toNat with
  | none => exact Or.inl ⟨charge_none.mp hc, rfl⟩
  | some used =>
    obtain ⟨rfl, hle⟩ := charge_some hc
    have := le_roundUp8 n.toNat
    refine Or.inr ⟨hle, ?_, hs.ne_nil⟩
    show s.arenaUsed < s.arenaUsed + roundUp8 n.toNat
    omega

/-- A string that does not fit leaves the span alone, one that fits moves the cursor. -/
theorem put_cases (hs : Cursor s.arenaUsed) {str : Option Bytes} (hstr : ShortStr str) :
    (¬ StrFits s.arenaUsed str ∧ otelArenaPut s str = (s, otelNil)) ∨
    (StrFits s.arenaUsed str ∧ s.arenaUsed < (otelArenaPut s str).1.arenaUsed ∧
      Cursor (otelArenaPut s str).1.arenaUsed) := by
  cases str with
  | none => exact Or.inl ⟨id, rfl⟩
  | some bytes =>
    have hb : bytes.length < 2 ^ 63 := hstr bytes rfl
    have hlen : strlen bytes ≤ bytes.length := (List.takeWhile_prefix _).length_le
    have hadd : (UInt64.ofNat (strlen bytes) + 1).toNat = strlen bytes + 1 := by
      rw [UInt64.toNat_add, UInt64.toNat_ofNat']
      simp only [UInt64.reduceToNat]
      omega
    have halloc := alloc_cases hs (n := UInt64.ofNat (strlen bytes) + 1) (by omega) (by omega)
    rw [hadd] at halloc
    rcases halloc with ⟨hfit, hnil⟩ | ⟨hfit, hlt, hne⟩
    · left
      exact ⟨hfit, by simp [otelArenaPut, otelArenaPutn, hnil]⟩
    · right
      obtain ⟨-, -, -, -, hcursor, -⟩ := put_spec hs Sat.nil (some bytes) hstr
      refine ⟨hfit, ?_, hcursor⟩
      simp only [otelArenaPut, otelArenaPutn, if_neg hne]
      exact hlt

/-- The two allocations of a call leave the span alone exactly if both fail; otherwise they move the
cursor. -/
theorem allocs_cases (hs : Cursor s.arenaUsed) {str : Option Bytes} (hstr : ShortStr str)
    {size : Nat} (hsize : 0 < size) (hle : size ≤ 24) :
    ((¬ StrFits s.arenaUsed str ∧ ¬ Fits s.arenaUsed size) ∧
      otelArenaAlloc (otelArenaPut s str).1 (UInt64.ofNat size) = (s, otelNil)) ∨
    (¬ (¬ StrFits s.arenaUsed str ∧ ¬ Fits s.arenaUsed size) ∧
      s.arenaUsed < (otelArenaAlloc (otelArenaPut s str).1 (UInt64.ofNat size)).1.arenaUsed) := by
  have hto : (UInt64.ofNat size).toNat = size := by
    rw [UInt64.toNat_ofNat']
    omega
  rcases put_cases hs hstr with ⟨hstrfit, hput⟩ | ⟨hstrfit, hlt, hcursor⟩
  · rw [hput]
    have halloc := alloc_cases hs (n := UInt64.ofNat size) (by omega) (by omega)
    rw [hto] at halloc
    rcases halloc with ⟨hfit, hnil⟩ | ⟨hfit, hmore, -⟩
    · exact Or.inl ⟨⟨hstrfit, hfit⟩, hnil⟩
    · exact Or.inr ⟨fun h => h.2 hfit, hmore⟩
  · right
    refine ⟨fun h => h.1 hstrfit, ?_⟩
    rcases alloc_cases hcursor (n := UInt64.ofNat size) (by omega) (by omega) with
      ⟨-, hnil⟩ | ⟨-, hmore, -⟩
    · rw [hnil]
      exact hlt
    · exact hlt.trans hmore

/-! ## Rejected calls -/

/-- A rejected call counts the drop on the span that its two allocations have left. -/
theorem rejected_eq (hrec : otelSpanRecording σ.span = true) {c : Call} (h : σ.Rejects c) :
    ∃ str size, 0 < size ∧ size ≤ 24 ∧ (c.Short → ShortStr str) ∧
      (σ.NoRoom c ↔ ¬ StrFits σ.span.arenaUsed str ∧ ¬ Fits σ.span.arenaUsed size) ∧
      (σ.call c).span = Session.countDrop
        { σ with span := (otelArenaAlloc (otelArenaPut σ.span str).1 (UInt64.ofNat size)).1 } c := by
  cases c with
  | attr key arg =>
    refine ⟨key, sizeofOtelAttr, by decide, by decide, fun hc => hc.1, Iff.rfl, ?_⟩
    have hnil : (otelArenaPut σ.span key).2 = otelNil ∨ (otelArenaAlloc (otelArenaPut σ.span key).1
        (UInt64.ofNat sizeofOtelAttr)).2 = otelNil := by
      by_contra hne
      simp only [Session.Rejects, otelSpanAttr_, hrec, Bool.not_true, Bool.false_eq_true, if_false,
        if_neg hne] at h
      cases h
    simp only [Session.call, otelSpanAttr, otelSpanAttr_, hrec, Bool.not_true, Bool.false_eq_true,
      if_false, if_pos hnil]
    rfl
  | event name now =>
    refine ⟨name, sizeofOtelEvent, by decide, by decide, fun hc => hc, Iff.rfl, ?_⟩
    have hnil : (otelArenaAlloc (otelArenaPut σ.span name).1
        (UInt64.ofNat sizeofOtelEvent)).2 = otelNil := by
      by_contra hne
      simp only [Session.Rejects, otelSpanEvent, otelSpanEvent_, hrec, Bool.not_true,
        Bool.false_eq_true, if_false, if_neg hne] at h
      cases h
    simp only [Session.call, otelSpanEvent, otelSpanEvent_, hrec, Bool.not_true,
      Bool.false_eq_true, if_false, if_pos hnil]
    rfl
  | eventAttr handle key arg =>
    refine ⟨key, sizeofOtelAttr, by decide, by decide, fun hc => hc.1, Iff.rfl, ?_⟩
    obtain ⟨e, he, h⟩ := h
    have hnil : (otelArenaPut σ.span key).2 = otelNil ∨ (otelArenaAlloc (otelArenaPut σ.span key).1
        (UInt64.ofNat sizeofOtelAttr)).2 = otelNil := by
      by_contra hne
      simp only [otelEventAttr_, if_neg hne] at h
      cases h
    simp only [Session.call, he, otelEventAttr, otelEventAttr_, if_pos hnil, Session.countDrop]
  | setName name => exact absurd h id
  | setStatus status message => exact absurd h id
  | finish now => exact absurd h id

theorem countDrop_used (σ : Session) (c : Call) :
    (σ.countDrop c).arenaUsed = σ.span.arenaUsed := by
  cases c with
  | eventAttr handle key arg =>
    simp only [Session.countDrop]
    split
    · split <;> rfl
    · rfl
  | _ => rfl

/-- A rejected call leaves the span alone but for a drop counter exactly if there was room neither
for its string nor for its record, and otherwise it uses up room. -/
theorem rejected_span (hrec : otelSpanRecording σ.span = true) (hs : Cursor σ.span.arenaUsed)
    {c : Call} (hc : c.Short) (h : σ.Rejects c) :
    (σ.NoRoom c ∧ (σ.call c).span = σ.countDrop c) ∨
    (¬ σ.NoRoom c ∧ σ.span.arenaUsed < (σ.call c).span.arenaUsed) := by
  obtain ⟨str, size, hpos, hle, hshort, hroom, hspan⟩ := rejected_eq hrec h
  rw [hspan, hroom]
  rcases allocs_cases hs (hshort hc) hpos hle with ⟨hno, heq⟩ | ⟨hroom, hlt⟩
  · left
    exact ⟨hno, by rw [heq]⟩
  · right
    refine ⟨hroom, ?_⟩
    rw [countDrop_used]
    exact hlt

theorem rejectsAll_used {L : Layout} (hL : σ.Models L) {calls : List Call}
    (hcalls : ∀ call ∈ calls, call.Short) (h : σ.RejectsAll calls) :
    (σ.calls calls).span.arenaUsed = σ.span.arenaUsed := by
  induction calls generalizing σ L with
  | nil => rfl
  | cons call calls ih =>
    obtain ⟨⟨hrej, hroom⟩, hrest⟩ := h
    have hshort : call.Short := hcalls call (by simp)
    obtain ⟨L', hL', -⟩ := call_spec hL call hshort
    have hone : (σ.call call).span.arenaUsed = σ.span.arenaUsed := by
      rcases rejected_span hL.repr.recording hL.repr.cursor hshort hrej with
        ⟨-, heq⟩ | ⟨hno, -⟩
      · rw [heq, countDrop_used]
      · exact absurd hroom hno
    exact (ih hL' (fun c hc => hcalls c (List.mem_cons_of_mem _ hc)) hrest).trans hone

/-- A call that is rejected on a span of the API leaves the span alone, but for one drop counter,
exactly if there was room neither for its key or name nor for its record. Otherwise it uses up room.
Calls that all meet the condition use up no room, however many there are. -/
theorem rejected_calls (c : StartCall) (env : StartEnv) (tls : Option OtelRandomState)
    (s : OtelSpan) (name : Option Bytes) (kind : UInt32) (cs : List Call)
    (hrec : otelSpanRecording (c.run env tls s name kind).2 = true) (hname : ShortStr name)
    (hcs : ∀ c ∈ cs, c.Short) :
    let σ := Session.calls ⟨(c.run env tls s name kind).2, []⟩ cs
    (∀ call : Call, call.Short → σ.Rejects call →
      ((σ.call call).span = σ.countDrop call ↔ σ.NoRoom call) ∧
      ((σ.call call).span.arenaUsed = σ.span.arenaUsed ↔ σ.NoRoom call)) ∧
    ∀ calls : List Call, (∀ call ∈ calls, call.Short) → σ.RejectsAll calls →
      (σ.calls calls).span.arenaUsed = σ.span.arenaUsed := by
  intro σ
  obtain ⟨L, hL, -⟩ := session_spec hrec hname hcs
  refine ⟨?_, ?_⟩
  · intro call hcall hrej
    rcases rejected_span hL.repr.recording hL.repr.cursor hcall hrej with
      ⟨hroom, heq⟩ | ⟨hroom, hlt⟩
    · exact ⟨iff_of_true heq hroom, iff_of_true (by rw [heq, countDrop_used]) hroom⟩
    · refine ⟨iff_of_false (fun heq => ?_) hroom, iff_of_false hlt.ne' hroom⟩
      rw [heq, countDrop_used] at hlt
      exact Nat.lt_irrefl _ hlt
  · exact fun calls hcalls hall => rejectsAll_used hL hcalls hall

/-- An attribute without a key costs its record. -/
theorem rejected_calls_sample :
    let σ := Session.calls (sampleSession [104, 105]) []
    (σ.call (.attr none (.u64 5))).span.arenaUsed ≠ σ.span.arenaUsed :=
  fun heq => absurd (((rejected_calls .root ⟨true, true, 0, 7⟩ (some ⟨1, 0⟩) zeroSpan
    (some [104, 105]) 1 [] (recording_of_flags rfl) (by simp [ShortStr]) (by simp)).1
    (.attr none (.u64 5)) (by simp [Call.Short, AttrArg.Short, ShortStr]) rfl).2.mp heq).2
    (not_not_intro (show Fits 8 sizeofOtelAttr by decide))

theorem put_replicate (s : OtelSpan) (n : Nat) {b : UInt8} (hb : b ≠ 0) :
    otelArenaPut s (some (List.replicate n b)) =
      otelArenaPutn s (some (List.replicate n b)) (UInt64.ofNat n) := by
  simp [otelArenaPut, strlen, hb]

/-- A span with 24 bytes left: its name was set to 3991 bytes. -/
def fullSession : Session where
  span :=
    let n := otelArenaPutn (sampleSession [104, 105]).span (some (List.replicate 3991 120)) 3991
    if n.2 ≠ otelNil then { n.1 with name := n.2 } else n.1
  handles := []

theorem setName_full :
    (sampleSession [104, 105]).call (.setName (some (List.replicate 3991 120))) = fullSession := by
  have hrec : otelSpanRecording (sampleSession [104, 105]).span = true := recording_of_flags rfl
  rw [Session.call, otelSpanSetName, hrec, put_replicate _ 3991 (b := 120) (by decide)]
  rfl

/-- With 24 bytes left, an attribute with a key of 30 bytes is rejected and takes 16 of them: an
attribute that fitted before is then dropped, too. -/
theorem rejected_costs :
    let σ := (sampleSession [104, 105]).call (.setName (some (List.replicate 3991 120)))
    let big : Call := .attr (some (List.replicate 30 107)) (.u64 1)
    let small : Call := .attr (some [107]) (.u64 2)
    σ.Rejects big ∧ (σ.call big).span ≠ σ.countDrop big ∧
      σ.span.arenaUsed = 4000 ∧ (σ.call big).span.arenaUsed = 4016 ∧
      (σ.call small).span.numAttrs = 1 ∧ ((σ.call big).call small).span.numAttrs = 0 := by
  intro σ big small
  have hσ : σ = fullSession := setName_full
  have hused : σ.span.arenaUsed = 4000 := by
    rw [hσ]
    rfl
  have hbig : (σ.call big).span.arenaUsed = 4016 := by
    rw [hσ]
    rfl
  refine ⟨?_, ?_, hused, hbig, ?_, ?_⟩
  · rw [hσ]
    rfl
  · intro heq
    have := countDrop_used σ big
    rw [← heq, hused, hbig] at this
    cases this
  · rw [hσ]
    rfl
  · rw [hσ]
    simp only [big, small]
    decide +kernel

end OtelTracing
