import OtelTracing.Layout
import OtelTracing.Lib.Words

/-!
# Proofs: allocation in the arena

`otelArenaAlloc` charges the budget of the reference behaviour, and a string that is put into the
arena becomes a cell of its own above all earlier cells.
-/

namespace OtelTracing

open ByteMem Cells

theorem roundUp8_eq (n : Nat) : roundUp8 n = roundUp 8 n := rfl

theorem le_roundUp8 (n : Nat) : n ≤ roundUp8 n := by
  unfold roundUp8
  omega

theorem roundUp8_mod (n : Nat) : roundUp8 n % 8 = 0 := by
  unfold roundUp8
  omega

/-- An accepted charge: the cursor moves by the rounded size and stays inside the arena. -/
theorem charge_some {used n used' : Nat} (h : charge used n = some used') :
    used' = used + roundUp8 n ∧ used' ≤ otelSpanArena := by
  unfold charge at h
  split_ifs at h with hle
  obtain rfl := Option.some.inj h
  exact ⟨rfl, hle⟩

/-- The cursor of a span under construction. -/
structure Cursor (used : Nat) : Prop where
  mod : used % 8 = 0
  le : used ≤ otelSpanArena

theorem Cursor.charge {used n used' : Nat} (h : Cursor used) (hc : charge used n = some used') :
    Cursor used' := by
  obtain ⟨rfl, hle⟩ := charge_some hc
  have hr := roundUp8_mod n
  exact ⟨by have := h.mod; omega, hle⟩

/-- A fresh offset is not the null offset. -/
theorem Cursor.ne_nil {used : Nat} (h : Cursor used) : used ≠ otelNil := by
  have hle := h.le
  simp only [otelSpanArena, otelNil] at hle ⊢
  omega

/-- The numbers that `otelArenaAlloc` computes. -/
theorem alloc_words {s : OtelSpan} (hs : s.arenaUsed ≤ otelSpanArena) (n : UInt64) :
    otelArenaAlloc s n =
      if otelSpanArena < (roundUp8 s.arenaUsed + (n.toNat + 7) % 2 ^ 64 / 8 * 8) % 2 ^ 64 then
        (s, otelNil)
      else
        ({ s with arenaUsed :=
            (roundUp8 s.arenaUsed + (n.toNat + 7) % 2 ^ 64 / 8 * 8) % 2 ^ 64 % 2 ^ 16 },
          roundUp8 s.arenaUsed) := by
  have hmask : (otelArenaAlign - 1).toNat = 2 ^ 3 - 1 := by decide
  have hlim : (UInt64.ofNat otelSpanArena).toNat = otelSpanArena := by decide
  have hused : (UInt64.ofNat s.arenaUsed).toNat = s.arenaUsed := by
    rw [UInt64.toNat_ofNat']
    simp only [otelSpanArena] at hs
    omega
  have hoff : ((UInt64.ofNat s.arenaUsed + (otelArenaAlign - 1)) &&&
      ~~~(otelArenaAlign - 1)).toNat = roundUp8 s.arenaUsed := by
    simp only [otelSpanArena] at hs
    rw [Words.toNat_align_up _ _ hmask (by rw [hused]; omega), hused]
    rfl
  have hreq : ((n + (otelArenaAlign - 1)) &&& ~~~(otelArenaAlign - 1)).toNat =
      (n.toNat + 7) % 2 ^ 64 / 8 * 8 := by
    rw [Words.toNat_and_not_mask _ _ hmask, UInt64.toNat_add, hmask]
    rfl
  have hsmall : roundUp8 s.arenaUsed < 2 ^ 16 := by
    simp only [otelSpanArena] at hs
    unfold roundUp8
    omega
  unfold otelArenaAlloc
  simp only [gt_iff_lt, UInt64.lt_iff_toNat_lt, UInt64.toNat_add (_ &&& _), hoff, hreq, hlim,
    Nat.mod_eq_of_lt hsmall]

/-- `otelArenaAlloc` on a request that does not overflow `size_t`. -/
theorem otelArenaAlloc_eq {s : OtelSpan} {n : UInt64} (hs : Cursor s.arenaUsed)
    (hn : n.toNat ≤ 2 ^ 63) :
    otelArenaAlloc s n =
      match charge s.arenaUsed n.toNat with
      | some used => ({ s with arenaUsed := used }, s.arenaUsed)
      | none => (s, otelNil) := by
  have hle := hs.le
  have hlim : otelSpanArena = 4024 := rfl
  have haligned : roundUp8 s.arenaUsed = s.arenaUsed := by
    have hmod := hs.mod
    unfold roundUp8
    omega
  have hreq : (n.toNat + 7) % 2 ^ 64 / 8 * 8 = roundUp8 n.toNat := by
    unfold roundUp8
    omega
  have hstop : (s.arenaUsed + roundUp8 n.toNat) % 2 ^ 64 = s.arenaUsed + roundUp8 n.toNat := by
    unfold roundUp8
    omega
  rw [alloc_words hle, haligned, hreq, hstop]
  unfold charge
  by_cases hfit : s.arenaUsed + roundUp8 n.toNat ≤ otelSpanArena
  · have hsmall : s.arenaUsed + roundUp8 n.toNat < 2 ^ 16 := by omega
    rw [if_neg (by omega), if_pos hfit, Nat.mod_eq_of_lt hsmall]
  · rw [if_pos (by omega), if_neg hfit]

/-- The memory after copying the bytes `bs` and a NUL to address `a`. -/
theorem readBytes_copied (m : Mem) (a : Nat) (bs : Bytes) :
    readBytes (writeBytes (writeBytes m a bs) (a + bs.length) [0]) a (bs.length + 1) = bs ++ [0] := by
  have hlow : AgreeOn a bs.length (writeBytes m a bs) (writeBytes (writeBytes m a bs) (a + bs.length) [0]) :=
    agreeOn_writeBytes _ _ (by omega)
  have hnul : writeBytes (writeBytes m a bs) (a + bs.length) [0] (a + bs.length) = 0 := by
    simpa using writeBytes_of_mem (writeBytes m a bs) (a := a + bs.length) (j := 0) [0] (by simp)
  rw [readBytes_add, ← readBytes_congr hlow, readBytes_writeBytes_self]
  simp [readBytes, hnul]

/-- Only the arena and its cursor have changed, and the cursor is now `used'`. -/
def Stored (s s' : OtelSpan) (used' : Nat) : Prop :=
  ∃ m', s' = { s with arenaUsed := used', arena := m' }

theorem Stored.refl (s : OtelSpan) : Stored s s s.arenaUsed := ⟨s.arena, rfl⟩

theorem Stored.trans {s s' s'' : OtelSpan} {used' used'' : Nat} (h : Stored s s' used')
    (h' : Stored s' s'' used'') : Stored s s'' used'' := by
  obtain ⟨m', rfl⟩ := h
  obtain ⟨m'', rfl⟩ := h'
  exact ⟨m'', rfl⟩

theorem Stored.arenaUsed {s s' : OtelSpan} {used' : Nat} (h : Stored s s' used') :
    s'.arenaUsed = used' := by
  obtain ⟨m', rfl⟩ := h
  rfl

theorem Stored.set (s : OtelSpan) (p : Nat) (f : Field) (v : Nat) :
    Stored s (s.set p f v) s.arenaUsed :=
  ⟨_, rfl⟩

variable {s : OtelSpan} {cs : List Cell}

/-- Storing known bytes: the result of the reference behaviour, and a new cell if they fitted. -/
theorem putn_spec (hs : Cursor s.arenaUsed) (hsat : Sat 8 s.arenaUsed cs s.arena)
    (bytes : Bytes) {len : UInt64} (hlen : len.toNat < 2 ^ 63) :
    ∃ n : Option StrNode,
      n.map StrNode.bytes = (chargeBytes s.arenaUsed (bytes.takeD len.toNat 0)).2 ∧
      (otelArenaPutn s (some bytes) len).2 = strOff n ∧
      Stored s (otelArenaPutn s (some bytes) len).1
        (chargeBytes s.arenaUsed (bytes.takeD len.toNat 0)).1 ∧
      Cursor (otelArenaPutn s (some bytes) len).1.arenaUsed ∧
      Sat 8 (otelArenaPutn s (some bytes) len).1.arenaUsed (optCells n ++ cs)
        (otelArenaPutn s (some bytes) len).1.arena := by
  have hadd : (len + 1).toNat = len.toNat + 1 := by
    rw [UInt64.toNat_add]
    simp only [UInt64.reduceToNat]
    omega
  have halloc := otelArenaAlloc_eq hs (n := len + 1) (by omega)
  have hlenD : (bytes.takeD len.toNat 0).length = len.toNat := List.takeD_length ..
  unfold chargeBytes
  rw [hlenD]
  rw [hadd] at halloc
  cases hc : charge s.arenaUsed (len.toNat + 1) with
  | none =>
    rw [hc] at halloc
    have hput : otelArenaPutn s (some bytes) len = (s, otelNil) := by
      simp [otelArenaPutn, halloc]
    rw [hput]
    exact ⟨none, rfl, rfl, Stored.refl s, hs, by simpa [optCells] using hsat⟩
  | some used =>
    rw [hc] at halloc
    obtain ⟨hu, hle⟩ := charge_some hc
    set m' := writeBytes (writeBytes s.arena s.arenaUsed (bytes.takeD len.toNat 0))
      (s.arenaUsed + len.toNat) [0] with hm'
    have hput : otelArenaPutn s (some bytes) len =
        ({ s with arenaUsed := used, arena := m' }, s.arenaUsed) := by
      simp [otelArenaPutn, halloc, hs.ne_nil, hm']
    rw [hput]
    have hag : AgreeOn 0 s.arenaUsed s.arena m' :=
      (agreeOn_writeBytes s.arena _ (by omega)).trans (agreeOn_writeBytes _ _ (by omega))
    have hread : readBytes m' s.arenaUsed (len.toNat + 1) = bytes.takeD len.toNat 0 ++ [0] := by
      have := readBytes_copied s.arena s.arenaUsed (bytes.takeD len.toNat 0)
      rwa [hlenD] at this
    refine ⟨some ⟨s.arenaUsed, bytes.takeD len.toNat 0⟩, rfl, rfl, ⟨m', rfl⟩,
      hs.charge hc, ?_⟩
    refine hsat.alloc hag ?_ (by decide) rfl hs.mod ?_
    · simpa [strCell, hlenD] using hread
    · show s.arenaUsed + roundUp 8 ((bytes.takeD len.toNat 0).length + 1) ≤ used
      rw [hlenD, hu, roundUp8_eq]

/-- Storing a C string. -/
theorem put_spec (hs : Cursor s.arenaUsed) (hsat : Sat 8 s.arenaUsed cs s.arena)
    (str : Option Bytes) (hlen : ShortStr str) :
    ∃ n : Option StrNode,
      n.map StrNode.bytes = (chargeStr s.arenaUsed str).2 ∧
      (otelArenaPut s str).2 = strOff n ∧
      Stored s (otelArenaPut s str).1 (chargeStr s.arenaUsed str).1 ∧
      Cursor (otelArenaPut s str).1.arenaUsed ∧
      Sat 8 (otelArenaPut s str).1.arenaUsed (optCells n ++ cs) (otelArenaPut s str).1.arena := by
  cases str with
  | none =>
    exact ⟨none, rfl, rfl, Stored.refl s, hs, hsat⟩
  | some bytes =>
    have hb : bytes.length < 2 ^ 63 := hlen bytes rfl
    have htw : (bytes.takeWhile (· ≠ 0)).length ≤ bytes.length :=
      (List.takeWhile_prefix _).length_le
    have hstr : (UInt64.ofNat (strlen bytes)).toNat = (bytes.takeWhile (· ≠ 0)).length := by
      rw [UInt64.toNat_ofNat', strlen]
      omega
    have htake : bytes.takeD (UInt64.ofNat (strlen bytes)).toNat 0 = bytes.takeWhile (· ≠ 0) := by
      rw [hstr, List.takeD_eq_take _ htw]
      exact (List.prefix_iff_eq_take.mp (List.takeWhile_prefix _)).symm
    have hlt : (UInt64.ofNat (strlen bytes)).toNat < 2 ^ 63 := by omega
    have h := putn_spec hs hsat bytes hlt
    rw [htake] at h
    exact h

/-! ## Requests of every size -/

/-- What a request for `r` bytes may leave: a null offset and the cursor as it was, or an aligned
offset of `r` bytes between the old cursor and the new one. -/
def Reserved (s : OtelSpan) (res : OtelSpan × Nat) (r : Nat) : Prop :=
  (res.2 = otelNil ∧ res.1.arenaUsed = s.arenaUsed) ∨
    (res.2 % 8 = 0 ∧ s.arenaUsed ≤ res.2 ∧ res.2 + r ≤ res.1.arenaUsed ∧
      res.1.arenaUsed ≤ otelSpanArena)

/-- A request is refused or reserved exactly if its end does not wrap. -/
theorem reserved_iff (hs : s.arenaUsed ≤ otelSpanArena) {n : UInt64} {r : Nat}
    (hn : n.toNat = r % 2 ^ 64) (hr : r ≤ 2 ^ 64) :
    Reserved s (otelArenaAlloc s n) r ↔ roundUp8 s.arenaUsed + r ≤ 2 ^ 64 - 8 := by
  have hle := le_roundUp8 s.arenaUsed
  have hmod := roundUp8_mod s.arenaUsed
  have hlim : otelSpanArena = 4024 := rfl
  have hfit : roundUp8 s.arenaUsed ≤ otelSpanArena := by
    unfold roundUp8
    omega
  rw [alloc_words hs, hn]
  generalize roundUp8 s.arenaUsed = u at *
  by_cases hend : otelSpanArena < (u + (r % 2 ^ 64 + 7) % 2 ^ 64 / 8 * 8) % 2 ^ 64
  · rw [if_pos hend]
    constructor
    · intro _
      omega
    · intro _
      exact .inl ⟨rfl, rfl⟩
  · rw [if_neg hend]
    constructor
    · rintro (⟨hnil, -⟩ | ⟨-, -, hin, hout⟩)
      · simp only [otelNil] at hnil
        omega
      · dsimp only at hin hout
        omega
    · intro hsum
      refine .inr ⟨hmod, hle, ?_, ?_⟩
      · show u + r ≤ (u + (r % 2 ^ 64 + 7) % 2 ^ 64 / 8 * 8) % 2 ^ 64 % 2 ^ 16
        omega
      · show (u + (r % 2 ^ 64 + 7) % 2 ^ 64 / 8 * 8) % 2 ^ 64 % 2 ^ 16 ≤ otelSpanArena
        omega

theorem alloc_arena (s : OtelSpan) (n : UInt64) : (otelArenaAlloc s n).1.arena = s.arena := by
  unfold otelArenaAlloc
  dsimp only
  split_ifs <;> rfl

/-- `otelArenaPutn` moves the cursor as its request does. -/
theorem putn_request (s : OtelSpan) (bytes : Bytes) (len : UInt64) :
    (otelArenaPutn s (some bytes) len).2 = (otelArenaAlloc s (len + 1)).2 ∧
      (otelArenaPutn s (some bytes) len).1.arenaUsed =
        (otelArenaAlloc s (len + 1)).1.arenaUsed := by
  unfold otelArenaPutn
  dsimp only
  split_ifs with hnil
  · exact ⟨hnil.symm, rfl⟩
  · exact ⟨rfl, rfl⟩

/-- The stores of a reserved request stay in the reserved bytes. -/
theorem putn_frame {bytes : Bytes} {len : UInt64}
    (h : Reserved s (otelArenaPutn s (some bytes) len) (len.toNat + 1)) {a : Nat}
    (ha : a < s.arenaUsed ∨ (otelArenaPutn s (some bytes) len).1.arenaUsed ≤ a) :
    (otelArenaPutn s (some bytes) len).1.arena a = s.arena a := by
  obtain ⟨hoff, hused⟩ := putn_request s bytes len
  unfold Reserved at h
  rw [hoff, hused] at h
  rw [hused] at ha
  unfold otelArenaPutn
  dsimp only
  split_ifs with hnil
  · rw [alloc_arena]
  · obtain ⟨-, hlow, hhigh, -⟩ := h.resolve_left fun h => hnil h.1
    have hlen : (bytes.takeD len.toNat 0).length = len.toNat := List.takeD_length ..
    show writeBytes (writeBytes _ _ _) _ _ a = _
    rw [writeBytes_of_not_mem _ _ (by rw [List.length_singleton]; omega),
      writeBytes_of_not_mem _ _ (by omega), alloc_arena]

/-- `otel_arena_alloc` refuses or reserves every request whose end does not wrap, and no other one;
so does `otel_arena_putn`, and then its stores stay in the reserved bytes. -/
theorem arena_reserves (hs : s.arenaUsed ≤ otelSpanArena) :
    (∀ n : UInt64, Reserved s (otelArenaAlloc s n) n.toNat ↔
      roundUp8 s.arenaUsed + n.toNat ≤ 2 ^ 64 - 8) ∧
    ∀ (bytes : Bytes) (len : UInt64),
      (Reserved s (otelArenaAlloc s (len + 1)) (len.toNat + 1) ∧
        Reserved s (otelArenaPutn s (some bytes) len) (len.toNat + 1) ∧
        ∀ a, a < s.arenaUsed ∨ (otelArenaPutn s (some bytes) len).1.arenaUsed ≤ a →
          (otelArenaPutn s (some bytes) len).1.arena a = s.arena a) ↔
      roundUp8 s.arenaUsed + (len.toNat + 1) ≤ 2 ^ 64 - 8 := by
  constructor
  · intro n
    have hn := n.toNat_lt
    exact reserved_iff hs (Nat.mod_eq_of_lt hn).symm (Nat.le_of_lt hn)
  · intro bytes len
    have halloc := reserved_iff hs (UInt64.toNat_add len 1) len.toNat_lt
    constructor
    · rintro ⟨hres, -, -⟩
      exact halloc.mp hres
    · intro hsum
      have hres := halloc.mpr hsum
      have hput : Reserved s (otelArenaPutn s (some bytes) len) (len.toNat + 1) := by
        obtain ⟨hoff, hused⟩ := putn_request s bytes len
        unfold Reserved
        rw [hoff, hused]
        exact hres
      exact ⟨hres, hput, fun a ha => putn_frame hput ha⟩

theorem arena_reserves_zeroSpan :
    Reserved zeroSpan (otelArenaAlloc zeroSpan 4000) 4000 ↔ roundUp8 0 + 4000 ≤ 2 ^ 64 - 8 :=
  (arena_reserves (s := zeroSpan) (by decide)).1 4000

/-- The largest lengths wrap to a request that any arena has room for. -/
theorem arena_wraps : zeroSpan.arenaUsed ≤ otelSpanArena ∧
    ¬ Reserved zeroSpan (otelArenaAlloc zeroSpan (0xffffffffffffffff + 1))
      ((0xffffffffffffffff : UInt64).toNat + 1) ∧
    ¬ Reserved zeroSpan (otelArenaAlloc zeroSpan 0xffffffffffffffff)
      (0xffffffffffffffff : UInt64).toNat := by
  unfold Reserved
  decide

end OtelTracing
