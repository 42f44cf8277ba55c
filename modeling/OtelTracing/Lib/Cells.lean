import OtelTracing.Lib.ByteMem
import Mathlib.Data.List.Pairwise
import Mathlib.Data.List.Perm.Subperm
import Mathlib.Data.List.Count
import Mathlib.Algebra.BigOperators.Group.List.Basic
import Mathlib.Algebra.Order.BigOperators.Group.List
import Mathlib.Algebra.Order.Group.Nat

/-!
# Disjoint cells in a bump-allocated memory

A cell is an assertion about the bytes of one range of addresses. A memory satisfies a list of cells
when every assertion holds and the ranges are pairwise disjoint; the order of the list does not
matter. The rules say how a memory satisfying a list of cells is extended by a fresh cell, and how
one cell is changed while the others are framed out.

The cells lie below the allocation cursor of a bump allocator that rounds every request up to a
multiple of the alignment `al`, and their rounded sizes add up to at most the cursor.
-/

namespace Cells

open ByteMem

/-- An assertion that only depends on the bytes of the range `[off, off + size)`. -/
structure Cell where
  /-- The first address of the range. -/
  off : Nat
  /-- The number of bytes of the range. -/
  size : Nat
  /-- The assertion. -/
  holds : Mem → Prop
  /-- The assertion only depends on the bytes of the range. -/
  local_ : ∀ {m m' : Mem}, AgreeOn off size m m' → holds m → holds m'

/-- The size of a request of `n` bytes, rounded up to a multiple of `al`. -/
def roundUp (al n : Nat) : Nat := (n + (al - 1)) / al * al

theorem le_roundUp {al : Nat} (n : Nat) (hal : 0 < al) : n ≤ roundUp al n := by
  unfold roundUp
  have h := Nat.div_add_mod (n + (al - 1)) al
  have hlt := Nat.mod_lt (n + (al - 1)) hal
  rw [Nat.mul_comm] at h
  omega

/-- The ranges of two cells are disjoint. -/
def Cell.Apart (c d : Cell) : Prop := c.off + c.size ≤ d.off ∨ d.off + d.size ≤ c.off

theorem Cell.Apart.symm {c d : Cell} (h : c.Apart d) : d.Apart c := Or.symm h

/-- The bytes that allocating the cells costs. -/
def cost (al : Nat) (cs : List Cell) : Nat := (cs.map fun c => roundUp al c.size).sum

@[simp] theorem cost_nil (al : Nat) : cost al [] = 0 := rfl

@[simp] theorem cost_cons (al : Nat) (c : Cell) (cs : List Cell) :
    cost al (c :: cs) = roundUp al c.size + cost al cs := rfl

@[simp] theorem cost_append (al : Nat) (cs ds : List Cell) :
    cost al (cs ++ ds) = cost al cs + cost al ds := by
  simp [cost]

theorem cost_perm {al : Nat} {cs ds : List Cell} (h : cs.Perm ds) : cost al cs = cost al ds :=
  (h.map _).sum_eq

/-- The memory `m` satisfies the cells `cs`, which lie below the allocation cursor `used`. -/
structure Sat (al used : Nat) (cs : List Cell) (m : Mem) : Prop where
  holds : ∀ c ∈ cs, c.holds m
  apart : cs.Pairwise Cell.Apart
  aligned : ∀ c ∈ cs, c.off % al = 0
  below : ∀ c ∈ cs, c.off + c.size ≤ used
  cost_le : cost al cs ≤ used

variable {al used : Nat} {cs ds : List Cell} {m m' : Mem}

theorem Sat.nil : Sat al used [] m :=
  ⟨by simp, List.Pairwise.nil, by simp, by simp, by simp⟩

theorem Sat.perm (h : Sat al used cs m) (hp : cs.Perm ds) : Sat al used ds m where
  holds c hc := h.holds c (hp.mem_iff.mpr hc)
  apart := (hp.pairwise_iff fun {_ _} => Cell.Apart.symm).mp h.apart
  aligned c hc := h.aligned c (hp.mem_iff.mpr hc)
  below c hc := h.below c (hp.mem_iff.mpr hc)
  cost_le := cost_perm hp ▸ h.cost_le

/-- Forgetting some of the cells. -/
theorem Sat.sublist (h : Sat al used cs m) (hs : ds.Sublist cs) : Sat al used ds m where
  holds c hc := h.holds c (hs.subset hc)
  apart := h.apart.sublist hs
  aligned c hc := h.aligned c (hs.subset hc)
  below c hc := h.below c (hs.subset hc)
  cost_le := ((hs.map _).sum_le_sum fun _ _ => Nat.zero_le _).trans h.cost_le

theorem Sat.drop (h : Sat al used (cs ++ ds) m) : Sat al used ds m :=
  h.sublist (List.sublist_append_right cs ds)

open Classical in
/-- Reordering the cells and forgetting some of them: every cell must still be there often
enough. -/
theorem Sat.of_count (h : Sat al used cs m) (hc : ∀ c, ds.count c ≤ cs.count c) :
    Sat al used ds m := by
  obtain ⟨l, hl, hs⟩ := List.subperm_ext_iff.mpr fun c _ => hc c
  exact (h.sublist hs).perm hl

/-- Memory changes at or above the cursor do not matter, and the cursor may grow. -/
theorem Sat.frame {used' : Nat} (h : Sat al used cs m) (hm : AgreeOn 0 used m m')
    (hu : used ≤ used') : Sat al used' cs m' where
  holds c hc := c.local_ (hm.mono (by omega) (by have := h.below c hc; omega)) (h.holds c hc)
  apart := h.apart
  aligned := h.aligned
  below c hc := (h.below c hc).trans hu
  cost_le := h.cost_le.trans hu

/-- Allocating a fresh cell at the cursor. -/
theorem Sat.alloc {c : Cell} {used' : Nat} (h : Sat al used cs m) (hm : AgreeOn 0 used m m')
    (hc : c.holds m') (hal : 0 < al) (hoff : c.off = used) (hmod : used % al = 0)
    (hu : used + roundUp al c.size ≤ used') : Sat al used' (c :: cs) m' := by
  have hsz := le_roundUp c.size hal
  have hf : Sat al used' cs m' := h.frame hm (by omega)
  refine
    { holds := List.forall_mem_cons.mpr ⟨hc, hf.holds⟩
      apart := List.pairwise_cons.mpr ⟨fun d hd => ?_, hf.apart⟩
      aligned := List.forall_mem_cons.mpr ⟨by rw [hoff]; exact hmod, hf.aligned⟩
      below := List.forall_mem_cons.mpr ⟨by omega, hf.below⟩
      cost_le := ?_ }
  · have := h.below d hd
    exact Or.inr (by omega)
  · have := h.cost_le
    rw [cost_cons]
    omega

/-- Changing the contents of one cell: the other cells are framed out. -/
theorem Sat.update {c c' : Cell} (h : Sat al used (c :: cs) m) (hoff : c'.off = c.off)
    (hsize : c'.size = c.size)
    (hm : ∀ i, i < c.off ∨ c.off + c.size ≤ i → m i = m' i) (hc : c'.holds m') :
    Sat al used (c' :: cs) m' := by
  obtain ⟨hap, hrest⟩ := List.pairwise_cons.mp h.apart
  have hal := List.forall_mem_cons.mp h.aligned
  have hbe := List.forall_mem_cons.mp h.below
  refine
    { holds := List.forall_mem_cons.mpr ⟨hc, fun d hd => ?_⟩
      apart := List.pairwise_cons.mpr ⟨fun d hd => ?_, hrest⟩
      aligned := List.forall_mem_cons.mpr ⟨by rw [hoff]; exact hal.1, hal.2⟩
      below := List.forall_mem_cons.mpr ⟨by rw [hoff, hsize]; exact hbe.1, hbe.2⟩
      cost_le := ?_ }
  · refine d.local_ (fun i h1 h2 => hm i ?_) (h.holds d (List.mem_cons_of_mem _ hd))
    have := hap d hd
    unfold Cell.Apart at this
    omega
  · have := hap d hd
    unfold Cell.Apart at this ⊢
    rw [hoff, hsize]
    exact this
  · have := h.cost_le
    rw [cost_cons] at this ⊢
    rw [hsize]
    exact this

/-- `Sat.update` in the middle of the list. -/
theorem Sat.update_middle {c c' : Cell} (h : Sat al used (cs ++ c :: ds) m) (hoff : c'.off = c.off)
    (hsize : c'.size = c.size)
    (hm : ∀ i, i < c.off ∨ c.off + c.size ≤ i → m i = m' i) (hc : c'.holds m') :
    Sat al used (cs ++ c' :: ds) m' :=
  ((h.perm List.perm_middle).update hoff hsize hm hc).perm List.perm_middle.symm

end Cells
