import Mathlib.Data.List.Sort
import Mathlib.Data.List.Dedup

/-!
# The elements with the largest keys

`Top key n xs out` says that `out` has the `n` elements of `xs` with the largest keys, or all of them
if there are fewer, in descending order; the order of elements with the same key is left open. An
element leads when it may be among them, whatever is done about equal keys.
-/

namespace Limit

variable {α : Type} {key key' : α → Int} {n : Nat} {xs ys out : List α} {a : α}

structure Top (key : α → Int) (n : Nat) (xs out : List α) : Prop where
  sorted : out.Pairwise fun a b => key b ≤ key a
  length : out.length = min n xs.length
  rest : ∃ rest, (out ++ rest).Perm xs ∧ ∀ a ∈ out, ∀ b ∈ rest, key b ≤ key a

/-- Fewer than `n` elements have a larger key than `a`. -/
def Leads (key : α → Int) (n : Nat) (xs : List α) (a : α) : Prop :=
  a ∈ xs ∧ (xs.filter fun b => key a < key b).length < n

theorem Top.mem (h : Top key n xs out) (ha : a ∈ out) : a ∈ xs := by
  obtain ⟨rest, hperm, -⟩ := h.rest
  exact hperm.subset (List.mem_append_left rest ha)

theorem exists_top (key : α → Int) (n : Nat) (xs : List α) : ∃ out, Top key n xs out := by
  let sorted := xs.mergeSort fun a b => decide (key b ≤ key a)
  have hperm : sorted.Perm xs := List.mergeSort_perm _ _
  have hsorted : sorted.Pairwise fun a b => key b ≤ key a := by
    have h : sorted.Pairwise fun a b => decide (key b ≤ key a) = true := by
      apply List.pairwise_mergeSort
      · intro a b c hab hbc
        simp only [decide_eq_true_eq] at hab hbc ⊢
        omega
      · intro a b
        simp only [Bool.or_eq_true, decide_eq_true_eq]
        omega
    exact h.imp fun hab => of_decide_eq_true hab
  refine ⟨sorted.take n, hsorted.sublist (List.take_sublist n sorted), ?_, sorted.drop n, ?_, ?_⟩
  · rw [List.length_take, hperm.length_eq]
  · rw [List.take_append_drop]
    exact hperm
  · rw [← List.take_append_drop n sorted] at hsorted
    exact (List.pairwise_append.mp hsorted).2.2

theorem top_nil : Top key n [] out ↔ out = [] := by
  constructor
  · intro h
    rw [← List.length_eq_zero_iff, h.length, List.length_nil, Nat.min_zero]
  · rintro rfl
    exact ⟨.nil, by simp, [], .refl _, by simp⟩

theorem top_singleton (hn : 0 < n) : Top key n [a] out ↔ out = [a] := by
  constructor
  · intro h
    have hlength := h.length
    obtain ⟨rest, hperm, -⟩ := h.rest
    have hrest : rest = [] := by
      have := hperm.length_eq
      rw [List.length_append, List.length_singleton] at this
      rw [List.length_singleton] at hlength
      rw [← List.length_eq_zero_iff]
      omega
    rw [hrest, List.append_nil] at hperm
    exact List.perm_singleton.mp hperm
  · rintro rfl
    refine ⟨List.pairwise_singleton _ _, ?_, [], .refl _, by simp⟩
    rw [List.length_singleton]
    omega

/-- A finer order keeps the elements in order. -/
theorem Top.coarsen (h : Top key' n xs out) (hle : ∀ a b, key' b ≤ key' a → key b ≤ key a) :
    Top key n xs out := by
  obtain ⟨rest, hperm, hrest⟩ := h.rest
  refine ⟨h.sorted.imp (hle _ _), h.length, rest, hperm, ?_⟩
  intro a ha b hb
  exact hle a b (hrest a ha b hb)

/-- If all elements of `out` satisfy `p`, then `xs` has as many that do. -/
theorem Top.length_le (h : Top key n xs out) (p : α → Bool) (hp : ∀ a ∈ out, p a = true) :
    out.length ≤ (xs.filter p).length := by
  obtain ⟨rest, hperm, -⟩ := h.rest
  rw [← (hperm.filter p).length_eq, List.filter_append, List.length_append,
    List.filter_eq_self.mpr hp]
  exact Nat.le_add_right _ _

/-- What is left out has a key that is not above that of any element of `out`. -/
theorem Top.le (h : Top key n xs out) (ha : a ∈ out) {b : α} (hb : b ∈ xs) (hno : b ∉ out) :
    key b ≤ key a := by
  obtain ⟨rest, hperm, hrest⟩ := h.rest
  rcases List.mem_append.mp (hperm.symm.subset hb) with hout | hmem
  · exact absurd hout hno
  · exact hrest a ha b hmem

theorem Top.full (h : Top key n xs out) {b : α} (hb : b ∈ xs) (hno : b ∉ out) :
    out.length = n := by
  obtain ⟨rest, hperm, -⟩ := h.rest
  have hlength := hperm.length_eq
  rw [List.length_append] at hlength
  have hmin := h.length
  rcases List.mem_append.mp (hperm.symm.subset hb) with hout | hmem
  · exact absurd hout hno
  · have := List.length_pos_of_mem hmem
    omega

theorem Top.leads (h : Top key n xs out) (ha : a ∈ out) : Leads key n xs a := by
  refine ⟨h.mem ha, ?_⟩
  obtain ⟨rest, hperm, hrest⟩ := h.rest
  have hnone : rest.filter (fun b => key a < key b) = [] := by
    rw [List.filter_eq_nil_iff]
    intro b hb
    have := hrest a ha b hb
    simp only [decide_eq_true_eq]
    omega
  have hlt : (out.filter fun b => key a < key b).length < out.length := by
    rw [List.length_filter_lt_length_iff_exists]
    exact ⟨a, ha, by simp⟩
  have hlength := h.length
  rw [← (hperm.filter _).length_eq, List.filter_append, hnone, List.append_nil]
  omega

/-- An element that leads is among those that one way to order equal keys selects. -/
theorem Leads.exists_top [DecidableEq α] (h : Leads key n xs a) :
    ∃ out, Top key n xs out ∧ a ∈ out := by
  -- of those with its key, `a` goes first
  let key' : α → Int := fun b => 2 * key b + if b = a then 1 else 0
  obtain ⟨out, hout⟩ := Limit.exists_top key' n xs
  have hle : ∀ b c, key' c ≤ key' b → key c ≤ key b := by
    intro b c hcb
    simp only [key'] at hcb
    split_ifs at hcb <;> omega
  refine ⟨out, hout.coarsen hle, ?_⟩
  by_contra hno
  have hlength := hout.full h.1 hno
  have hlarger : ∀ b ∈ out, decide (key a < key b) = true := by
    intro b hb
    have hne : b ≠ a := by
      rintro rfl
      exact hno hb
    have := hout.le hb h.1 hno
    simp only [key', if_true, if_neg hne] at this
    simp only [decide_eq_true_eq]
    omega
  have := hout.length_le _ hlarger
  have := h.2
  omega

/-- When every selection from `xs` is one from `ys`, too. Both keys are those of `ys` where the
selected elements satisfy `P`. -/
theorem forall_top_iff [DecidableEq α] {P : α → Prop} (hxs : xs.Nodup) (hys : ys.Nodup)
    (hle : ∀ a ∈ xs, key' a ≤ key a) (hP : ∀ a, P a → key' a = key a) :
    (∀ out, Top key n xs out → (∀ a ∈ out, P a) ∧ Top key' n ys out) ↔
      (∀ a, Leads key n xs a → P a ∧ a ∈ ys) ∧
      ∀ b ∈ ys, b ∉ xs → n ≤ (xs.filter fun a => key' b ≤ key a).length := by
  constructor
  · intro hall
    constructor
    · intro a ha
      obtain ⟨out, hout, hmem⟩ := ha.exists_top
      exact ⟨(hall out hout).1 a hmem, (hall out hout).2.mem hmem⟩
    · intro b hb hno
      obtain ⟨out, hout⟩ := exists_top key n xs
      obtain ⟨-, htop⟩ := hall out hout
      have hnot : b ∉ out := fun hmem => hno (hout.mem hmem)
      have hlarger : ∀ a ∈ out, decide (key' b ≤ key a) = true := by
        intro a ha
        have := htop.le ha hb hnot
        have := hle a (hout.mem ha)
        simp only [decide_eq_true_eq]
        omega
      rw [← htop.full hb hnot]
      exact hout.length_le _ hlarger
  · rintro ⟨hleads, hbeaten⟩ out hout
    have hout' : ∀ a ∈ out, P a ∧ a ∈ ys := fun a ha => hleads a (hout.leads ha)
    have hkey : ∀ a ∈ out, key' a = key a := fun a ha => hP a (hout' a ha).1
    refine ⟨fun a ha => (hout' a ha).1, ?_⟩
    have hnodup : out.Nodup := by
      obtain ⟨rest, hperm, -⟩ := hout.rest
      exact (List.nodup_append.mp (hperm.nodup_iff.mpr hxs)).1
    obtain ⟨out', hperm, hsub⟩ := List.subperm_of_subset hnodup fun a ha => (hout' a ha).2
    obtain ⟨rest, happend⟩ := hsub.exists_perm_append
    have hrest : ys.Perm (out ++ rest) := happend.trans (hperm.append_right rest)
    have hnot : ∀ b ∈ rest, b ∈ ys ∧ b ∉ out := by
      intro b hb
      refine ⟨hrest.symm.subset (List.mem_append_right out hb), ?_⟩
      intro hmem
      exact (List.nodup_append.mp (hrest.nodup_iff.mp hys)).2.2 b hmem b hb rfl
    refine ⟨?_, ?_, rest, hrest.symm, ?_⟩
    · apply hout.sorted.imp_of_mem
      intro a b ha hb hab
      rw [hkey a ha, hkey b hb]
      exact hab
    · have hlength := hrest.length_eq
      rw [List.length_append] at hlength
      have hmin := hout.length
      rcases rest with - | ⟨b, rest⟩
      · rw [List.length_nil] at hlength
        omega
      · have hfull : out.length = n := by
          obtain ⟨hb, hno⟩ := hnot b List.mem_cons_self
          by_cases hmem : b ∈ xs
          · exact hout.full hmem hno
          · have := hbeaten b hb hmem
            have := List.length_filter_le (fun a => decide (key' b ≤ key a)) xs
            omega
        omega
    · intro a ha b hb
      obtain ⟨hb, hno⟩ := hnot b hb
      rw [hkey a ha]
      by_cases hmem : b ∈ xs
      · have := hout.le ha hmem hno
        have := hle b hmem
        omega
      · -- otherwise the `n` elements of `xs` that beat `b` are all before `a`
        by_contra hlt
        have hbeat := hbeaten b hb hmem
        have hsublist : (xs.filter fun c => key' b ≤ key c).Sublist
            (xs.filter fun c => key a < key c) := by
          apply List.monotone_filter_right
          intro c hc
          simp only [decide_eq_true_eq] at hc ⊢
          omega
        have := hsublist.length_le
        have := (hout.leads ha).2
        omega

end Limit
