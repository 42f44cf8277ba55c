import Mathlib.Logic.Function.Basic
import Mathlib.Data.List.Basic
import Mathlib.Tactic.Common

/-!
# Runs of slots

A pool of slots is a function from indices to contents. Filling slots one after the other at a cursor
places a list, which is read back as a slice; slots below the cursor keep their contents.
-/

namespace Slots

variable {α β : Type}

/-- The pool with the list `xs` in the slots from `k` on. -/
def place (f : Nat → α) (k : Nat) (xs : List α) : Nat → α := fun i =>
  if k ≤ i then (xs[i - k]?).getD (f i) else f i

/-- The contents of the `n` slots from `k` on. -/
def slice (f : Nat → α) (k n : Nat) : List α := (List.range n).map fun i => f (k + i)

@[simp] theorem length_slice (f : Nat → α) (k n : Nat) : (slice f k n).length = n := by
  simp [slice]

theorem slice_congr {f g : Nat → α} {k n : Nat} (h : ∀ i, k ≤ i → i < k + n → f i = g i) :
    slice f k n = slice g k n := by
  refine List.map_congr_left fun i hi => ?_
  have hlt := List.mem_range.mp hi
  exact h (k + i) (by omega) (by omega)

theorem slice_add (f : Nat → α) (k n j : Nat) :
    slice f k (n + j) = slice f k n ++ slice f (k + n) j := by
  simp only [slice, List.range_add, List.map_append, List.map_map]
  congr 1
  refine List.map_congr_left fun i _ => ?_
  simp [Nat.add_assoc]

/-- The slots below the cursor keep their contents. -/
theorem place_of_lt (f : Nat → α) {k i : Nat} (xs : List α) (h : i < k) : place f k xs i = f i :=
  if_neg (by omega)

@[simp] theorem place_nil (f : Nat → α) (k : Nat) : place f k [] = f := by
  funext i
  simp [place]

/-- Filling the slot at the cursor, and then the slots after it. -/
theorem place_update (f : Nat → α) (k : Nat) (x : α) (xs : List α) :
    place (Function.update f k x) (k + 1) xs = place f k (x :: xs) := by
  funext i
  unfold place
  rcases Nat.lt_trichotomy i k with h | h | h
  · rw [if_neg (by omega), if_neg (by omega), Function.update_of_ne (by omega)]
  · subst h
    rw [if_neg (by omega), if_pos (Nat.le_refl i)]
    simp
  · obtain ⟨j, rfl⟩ : ∃ j, i = k + 1 + j := ⟨i - (k + 1), by omega⟩
    rw [if_pos (by omega), if_pos (by omega), Function.update_of_ne (by omega)]
    simp [show k + 1 + j - k = j + 1 by omega]

/-- Placing one list after the other. -/
theorem place_append (f : Nat → α) (k : Nat) (xs ys : List α) :
    place (place f k xs) (k + xs.length) ys = place f k (xs ++ ys) := by
  induction xs generalizing f k with
  | nil => simp
  | cons x xs ih =>
    have h := ih (Function.update f k x) (k + 1)
    rw [place_update, Nat.add_assoc, Nat.add_comm 1] at h
    rw [List.length_cons, h, List.cons_append, place_update]

/-- The placed list is read back. -/
theorem slice_place_self (f : Nat → α) (k : Nat) (xs : List α) :
    slice (place f k xs) k xs.length = xs := by
  refine List.ext_getElem (by simp) ?_
  intro i h1 h2
  simp [slice, place, h2]

/-- The first of two placed lists is read back. -/
theorem slice_place_left (f : Nat → α) (k : Nat) (xs ys : List α) :
    slice (place f k (xs ++ ys)) k xs.length = xs := by
  rw [← place_append]
  refine (slice_congr ?_).trans (slice_place_self f k xs)
  intro i _ hi
  exact place_of_lt _ _ hi

/-- The second of two placed lists is read back. -/
theorem slice_place_right (f : Nat → α) (k : Nat) (xs ys : List α) :
    slice (place f k (xs ++ ys)) (k + xs.length) ys.length = ys := by
  rw [← place_append]
  exact slice_place_self _ _ ys

end Slots
