import OtelTracing.Lib.Ring
import Mathlib.Data.Nat.ModEq

/-!
# One producer and one consumer

A ring with free-running 64-bit cursors that is shared by a producer and a consumer. The history of
the ring is the list `pushed` of the elements that the producer has published, with the number of
those that the consumer has taken and of those whose slots it has released by storing its cursor.
These counts do not wrap: a cursor is such a count modulo `2 ^ 64`, and the element `i` is in the slot
`i % 2 ^ k`.
-/

namespace Spsc

variable {α : Type} {k i j : Nat} {ring : Nat → α} {mask head tail : UInt64} {pushed : List α}
  {released taken : Nat} {x : α}

/-! ## Cursors of counts -/

theorem slot_ofNat (hm : mask.toNat = 2 ^ k - 1) (hk : k ≤ 64) (i : Nat) :
    Ring.slot mask (UInt64.ofNat i) = i % 2 ^ k := by
  rw [Ring.slot, Words.toNat_and_mask _ _ hm, UInt64.toNat_ofNat',
    Nat.mod_mod_of_dvd _ (Nat.pow_dvd_pow 2 hk)]

theorem toNat_ofNat_sub (hij : i ≤ j) (hlt : j - i < 2 ^ 64) :
    (UInt64.ofNat j - UInt64.ofNat i).toNat = j - i := by
  rw [UInt64.toNat_sub, UInt64.toNat_ofNat', UInt64.toNat_ofNat']
  omega

theorem ofNat_eq_iff (hij : i ≤ j) (hlt : j - i < 2 ^ 64) :
    UInt64.ofNat i = UInt64.ofNat j ↔ i = j := by
  constructor
  · intro heq
    have hsub := toNat_ofNat_sub hij hlt
    rw [heq, UInt64.sub_self] at hsub
    have hzero : j - i = 0 := hsub.symm
    omega
  · intro heq
    rw [heq]

theorem ofNat_succ (i : Nat) : UInt64.ofNat i + 1 = UInt64.ofNat (i + 1) := by
  rw [UInt64.ofNat_add]
  rfl

/-- Counts that are less than `2 ^ k` apart use different slots. -/
theorem mod_ne (hij : i < j) (hlt : j < i + 2 ^ k) : i % 2 ^ k ≠ j % 2 ^ k := by
  intro heq
  have hdvd : 2 ^ k ∣ j - i := (Nat.modEq_iff_dvd' hij.le).mp heq
  have hle := Nat.le_of_dvd (by omega) hdvd
  omega

/-! ## The invariant -/

/-- The ring agrees with its history: the elements that are not taken are in their slots. -/
structure Ok (k : Nat) (ring : Nat → α) (mask head tail : UInt64) (pushed : List α)
    (released taken : Nat) : Prop where
  mask_eq : mask.toNat = 2 ^ k - 1
  bits_lt : k < 64
  head_eq : head = UInt64.ofNat pushed.length
  tail_eq : tail = UInt64.ofNat released
  released_le : released ≤ taken
  taken_le : taken ≤ pushed.length
  length_le : pushed.length ≤ released + 2 ^ k
  stored : ∀ (i : Nat) (h : i < pushed.length), taken ≤ i → ring (i % 2 ^ k) = pushed[i]

theorem pow_le (hk : k < 64) : 2 ^ k ≤ 2 ^ 63 := Nat.pow_le_pow_right (by decide) (by omega)

/-- A new ring, whatever is in its slots. -/
theorem Ok.new (hm : mask.toNat = 2 ^ k - 1) (hk : k < 64) (ring : Nat → α) :
    Ok k ring mask 0 0 [] 0 0 where
  mask_eq := hm
  bits_lt := hk
  head_eq := rfl
  tail_eq := rfl
  released_le := Nat.le_refl 0
  taken_le := Nat.le_refl 0
  length_le := Nat.zero_le _
  stored i hi := absurd hi (Nat.not_lt_zero i)

/-- The distance of the cursors is the number of the elements whose slots are in use. -/
theorem Ok.toNat_sub (h : Ok k ring mask head tail pushed released taken) :
    (head - tail).toNat = pushed.length - released := by
  have hpow := pow_le h.bits_lt
  have h1 := h.released_le
  have h2 := h.taken_le
  have h3 := h.length_le
  rw [h.head_eq, h.tail_eq, toNat_ofNat_sub (by omega) (by omega)]

/-- Writing the slot at `head` of a ring that is not full does not touch what is in the ring. -/
theorem Ok.write (h : Ok k ring mask head tail pushed released taken)
    (hroom : pushed.length < released + 2 ^ k) (x : α) :
    Ok k (Function.update ring (Ring.slot mask head) x) mask head tail pushed released taken :=
  { h with
    stored := by
      intro i hi htaken
      have hle := h.released_le
      have hne : i % 2 ^ k ≠ Ring.slot mask head := by
        rw [h.head_eq, slot_ofNat h.mask_eq h.bits_lt.le]
        exact mod_ne hi (by omega)
      rw [Function.update_of_ne hne]
      exact h.stored i hi htaken }

/-- Storing `head` publishes the element that was written. -/
theorem Ok.push (h : Ok k ring mask head tail pushed released taken)
    (hroom : pushed.length < released + 2 ^ k) (hx : ring (Ring.slot mask head) = x) :
    Ok k ring mask (head + 1) tail (pushed ++ [x]) released taken :=
  { h with
    head_eq := by rw [h.head_eq, ofNat_succ, List.length_append, List.length_singleton]
    taken_le := by
      have := h.taken_le
      rw [List.length_append, List.length_singleton]
      omega
    length_le := by
      rw [List.length_append, List.length_singleton]
      omega
    stored := by
      intro i hi htaken
      rw [List.length_append, List.length_singleton] at hi
      by_cases hlast : i = pushed.length
      · subst hlast
        rw [List.getElem_concat_length rfl, ← hx, h.head_eq, slot_ofNat h.mask_eq h.bits_lt.le]
      · rw [List.getElem_append_left (by omega)]
        exact h.stored i (by omega) htaken }

/-- The next element is read from its slot. -/
theorem Ok.read (h : Ok k ring mask head tail pushed released taken) (hlt : taken < pushed.length) :
    ring (Ring.slot mask (UInt64.ofNat taken)) = pushed[taken] := by
  rw [slot_ofNat h.mask_eq h.bits_lt.le]
  exact h.stored taken hlt (Nat.le_refl taken)

theorem Ok.take (h : Ok k ring mask head tail pushed released taken) (hlt : taken < pushed.length) :
    Ok k ring mask head tail pushed released (taken + 1) :=
  { h with
    released_le := Nat.le_succ_of_le h.released_le
    taken_le := hlt
    stored := fun i hi htaken => h.stored i hi (by omega) }

/-- Storing `tail` releases the slots of the elements that were taken. -/
theorem Ok.release (h : Ok k ring mask head tail pushed released taken) :
    Ok k ring mask head (UInt64.ofNat taken) pushed taken taken :=
  { h with
    tail_eq := rfl
    released_le := Nat.le_refl taken
    length_le := by
      have h1 := h.released_le
      have h2 := h.length_le
      omega }

/-- What is between a cursor of the consumer and `head` are the elements that are not taken. -/
theorem Ok.contents (h : Ok k ring mask head tail pushed released taken) :
    Ring.contents ring mask (UInt64.ofNat taken) head = pushed.drop taken := by
  have hpow := pow_le h.bits_lt
  have h1 := h.released_le
  have h2 := h.taken_le
  have h3 := h.length_le
  have hdist : (head - UInt64.ofNat taken).toNat = pushed.length - taken := by
    rw [h.head_eq, toNat_ofNat_sub h2 (by omega)]
  refine List.ext_getElem (by rw [Ring.length_contents, List.length_drop, hdist]) ?_
  intro i hi hi'
  rw [List.length_drop] at hi'
  simp only [Ring.contents, Ring.cursors, List.getElem_map, List.getElem_range, List.getElem_drop]
  rw [← UInt64.ofNat_add, slot_ofNat h.mask_eq h.bits_lt.le]
  exact h.stored (taken + i) (by omega) (by omega)

end Spsc
