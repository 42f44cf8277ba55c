import OtelTracing.Lib.Words
import Mathlib.Logic.Function.Basic
import Mathlib.Data.List.Basic

/-!
# Ring buffers with free-running cursors

A ring of `2 ^ k` slots is used through two 64-bit cursors that are only ever incremented, also past
`2 ^ 64`; a cursor is masked when a slot is accessed. The queue held by the ring is the list of the
slots from the consumer's cursor up to the producer's.
-/

namespace Ring

variable {α : Type} {t h m mask : UInt64} {k : Nat}

/-! ## Cursors -/

/-- The values of the cursor in `for (; tail != head; tail++)`. -/
def cursors (tail head : UInt64) : List UInt64 :=
  (List.range (head - tail).toNat).map fun i => tail + UInt64.ofNat i

@[simp] theorem length_cursors (t h : UInt64) : (cursors t h).length = (h - t).toNat := by
  simp [cursors]

@[simp] theorem cursors_self (t : UInt64) : cursors t t = [] := by
  simp [cursors]

theorem toNat_sub_eq_zero : (h - t).toNat = 0 ↔ t = h := by
  constructor
  · intro hz
    have hsub : h - t = 0 := UInt64.toNat_inj.mp hz
    have heq : h - t + t = 0 + t := by rw [hsub]
    rw [UInt64.sub_add_cancel, UInt64.zero_add] at heq
    exact heq.symm
  · rintro rfl
    simp

theorem toNat_sub_add_one (hlt : (h - t).toNat < 2 ^ 64 - 1) :
    (h + 1 - t).toNat = (h - t).toNat + 1 := by
  rw [UInt64.toNat_sub] at hlt ⊢
  rw [UInt64.toNat_sub, UInt64.toNat_add]
  have h1 : (1 : UInt64).toNat = 1 := rfl
  have h2 := h.toNat_lt
  have h3 := t.toNat_lt
  omega

theorem toNat_sub_succ (hne : t ≠ h) : (h - t).toNat = (h - (t + 1)).toNat + 1 := by
  have hpos : (h - t).toNat ≠ 0 := fun hz => hne (toNat_sub_eq_zero.mp hz)
  rw [UInt64.toNat_sub] at hpos ⊢
  rw [UInt64.toNat_sub, UInt64.toNat_add]
  have h1 : (1 : UInt64).toNat = 1 := rfl
  have h2 := h.toNat_lt
  have h3 := t.toNat_lt
  omega

theorem add_ofNat_add (t : UInt64) (i j : Nat) :
    t + UInt64.ofNat (i + j) = t + UInt64.ofNat i + UInt64.ofNat j := by
  rw [UInt64.ofNat_add, UInt64.add_assoc]

theorem add_toNat_sub (t m : UInt64) : t + UInt64.ofNat (m - t).toNat = m := by
  rw [UInt64.ofNat_toNat, UInt64.add_comm, UInt64.sub_add_cancel]

/-- Distances add up along a loop. -/
theorem toNat_sub_split (hle : (m - t).toNat ≤ (h - t).toNat) :
    (h - t).toNat = (m - t).toNat + (h - m).toNat := by
  simp only [UInt64.toNat_sub] at hle ⊢
  have h1 := h.toNat_lt
  have h2 := t.toNat_lt
  have h3 := m.toNat_lt
  omega

theorem cursors_append (hle : (m - t).toNat ≤ (h - t).toNat) :
    cursors t h = cursors t m ++ cursors m h := by
  rw [cursors, toNat_sub_split hle, List.range_add, List.map_append, List.map_map]
  congr 1
  rw [cursors]
  refine List.map_congr_left fun i _ => ?_
  rw [Function.comp_apply, add_ofNat_add, add_toNat_sub]

theorem cursors_cons (hne : t ≠ h) : cursors t h = t :: cursors (t + 1) h := by
  have hone : ((t + 1) - t).toNat = 1 := by
    rw [UInt64.add_comm, UInt64.add_sub_cancel]
    rfl
  have hpos := toNat_sub_succ hne
  rw [cursors_append (m := t + 1) (by omega), cursors, hone]
  simp

theorem cursors_snoc (hlt : (h - t).toNat < 2 ^ 64 - 1) :
    cursors t (h + 1) = cursors t h ++ [h] := by
  have hnext := toNat_sub_add_one hlt
  have hone : ((h + 1) - h).toNat = 1 := by
    rw [UInt64.add_comm, UInt64.add_sub_cancel]
    rfl
  rw [cursors_append (m := h) (by omega)]
  congr 1
  rw [cursors, hone]
  simp

/-! ## Slots -/

/-- The slot that a cursor refers to. -/
def slot (mask cursor : UInt64) : Nat := (cursor &&& mask).toNat

theorem slot_lt (hm : mask.toNat = 2 ^ k - 1) (c : UInt64) : slot mask c < 2 ^ k := by
  rw [slot, Words.toNat_and_mask c mask hm]
  exact Nat.mod_lt _ (Nat.two_pow_pos k)

/-! ## The queue -/

/-- The elements between the cursors, the oldest first. -/
def contents (ring : Nat → α) (mask tail head : UInt64) : List α :=
  (cursors tail head).map fun c => ring (slot mask c)

@[simp] theorem length_contents (ring : Nat → α) (mask t h : UInt64) :
    (contents ring mask t h).length = (h - t).toNat := by
  rw [contents, List.length_map, length_cursors]

@[simp] theorem contents_self (ring : Nat → α) (mask t : UInt64) : contents ring mask t t = [] := by
  rw [contents, cursors_self, List.map_nil]

end Ring
