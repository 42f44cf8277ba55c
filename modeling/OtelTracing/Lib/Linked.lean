import OtelTracing.Lib.Cells

/-!
# Singly linked lists in memory

The records of a singly linked list are cells, each of which says where the record after it is. The
rules cover the two things that happen to such a list: it is extended at its end by writing the last
record's link (`Linked.relink`), and it is walked from its first record (`walk_links`).
-/

namespace Cells

open ByteMem

/-! ## Walking a list -/

/-- The records that the loop `for (p = first; p; p = next(p))` visits, in order; `none` if it has
not reached the null pointer after `fuel` records. -/
def walk (next : Nat → Option Nat) : Nat → Option Nat → Option (List Nat)
  | _, none => some []
  | 0, some _ => none
  | fuel + 1, some p => (walk next fuel (next p)).map (p :: ·)

/-- `next` leads from every record of the list to the one after it, and from the last one to the
null pointer. -/
def Links (next : Nat → Option Nat) : List Nat → Prop
  | [] => True
  | p :: ps => next p = ps.head? ∧ Links next ps

/-- With enough fuel a walk visits exactly the records of the list. -/
theorem walk_links {next : Nat → Option Nat} {ps : List Nat} {fuel : Nat} (h : Links next ps)
    (hf : ps.length ≤ fuel) : walk next fuel ps.head? = some ps := by
  induction ps generalizing fuel with
  | nil => cases fuel <;> rfl
  | cons p ps ih =>
    obtain ⟨fuel, rfl⟩ : ∃ k, fuel = k + 1 := ⟨fuel - 1, by simp at hf; omega⟩
    obtain ⟨hp, hps⟩ := h
    have hw := ih hps (by simpa using hf)
    show (walk next fuel (next p)).map (p :: ·) = some (p :: ps)
    rw [hp, hw]
    rfl

/-! ## Records as cells -/

/-- How the nodes of a list are laid out. -/
structure Linked (α : Type) where
  /-- The address of a node's record. -/
  off : α → Nat
  /-- The size of a record. -/
  size : Nat
  /-- The record of a node, followed by the record at the given address. -/
  cell : α → Nat → Cell
  /-- The other cells that a node owns. -/
  rest : α → List Cell
  cell_off : ∀ a nx, (cell a nx).off = off a
  cell_size : ∀ a nx, (cell a nx).size = size

namespace Linked

variable {α : Type} (K : Linked α)

/-- The addresses of the records of a list. -/
def offs (as : List α) : List Nat := as.map K.off

/-- The address of the first record of a list, `nx` if it is empty. -/
def first (as : List α) (nx : Nat) : Nat := (K.offs as).headD nx

/-- The address of the last record of a list, `d` if it is empty. -/
def last (as : List α) (d : Nat) : Nat := (K.offs as).getLastD d

/-- The cells of a list whose last record is followed by the record at `nx`. -/
def cells : List α → Nat → List Cell
  | [], _ => []
  | a :: as, nx => K.cell a (K.first as nx) :: (K.rest a ++ cells as nx)

variable {K} {al used : Nat} {cs : List Cell} {m m' : Mem}

@[simp] theorem first_nil (nx : Nat) : K.first [] nx = nx := rfl

@[simp] theorem first_cons (a : α) (as : List α) (nx : Nat) : K.first (a :: as) nx = K.off a := rfl

@[simp] theorem last_nil (d : Nat) : K.last [] d = d := rfl

@[simp] theorem last_snoc (as : List α) (a : α) (d : Nat) : K.last (as ++ [a]) d = K.off a := by
  simp [last, offs]

/-- The last record of a nonempty list is not at the null address `d`. -/
theorem last_ne {as : List α} {d : Nat} (has : as ≠ []) (h : ∀ a ∈ as, K.off a ≠ d) :
    K.last as d ≠ d := by
  rcases List.eq_nil_or_concat as with rfl | ⟨as, a, rfl⟩
  · exact absurd rfl has
  · rw [List.concat_eq_append, last_snoc]
    exact h a (by simp)

theorem first_append (as bs : List α) (nx : Nat) :
    K.first (as ++ bs) nx = K.first as (K.first bs nx) := by
  cases as <;> rfl

theorem first_snoc_of_ne_nil {as : List α} (has : as ≠ []) (a : α) (nx : Nat) :
    K.first (as ++ [a]) nx = K.first as nx := by
  cases as with
  | nil => exact absurd rfl has
  | cons b bs => rfl

theorem cells_append (as bs : List α) (nx : Nat) :
    K.cells (as ++ bs) nx = K.cells as (K.first bs nx) ++ K.cells bs nx := by
  induction as with
  | nil => rfl
  | cons a as ih => simp [cells, first_append, ih]

theorem cells_snoc (as : List α) (a : α) (nx : Nat) :
    K.cells (as ++ [a]) nx = K.cells as (K.off a) ++ K.cell a nx :: K.rest a := by
  simp [cells_append, cells]

/-- The cells of a list with one node singled out. -/
theorem cells_middle (as bs : List α) (a : α) (nx : Nat) :
    K.cells (as ++ a :: bs) nx =
      K.cells as (K.off a) ++ K.cell a (K.first bs nx) :: (K.rest a ++ K.cells bs nx) := by
  simp [cells_append, cells]

/-- Writing the link of the last record. -/
theorem relink {as : List α} {a : α} {nx nx' : Nat}
    (h : Sat al used (K.cells (as ++ [a]) nx ++ cs) m)
    (hm : ∀ i, i < K.off a ∨ K.off a + K.size ≤ i → m i = m' i)
    (hc : (K.cell a nx').holds m') : Sat al used (K.cells (as ++ [a]) nx' ++ cs) m' := by
  rw [cells_snoc, List.append_assoc, List.cons_append] at h ⊢
  refine h.update_middle ?_ ?_ ?_ hc
  · rw [K.cell_off, K.cell_off]
  · rw [K.cell_size, K.cell_size]
  · rw [K.cell_off, K.cell_size]
    exact hm

/-- Every node's record is one of the cells of the list. -/
theorem cell_mem_cells {as : List α} {a : α} (ha : a ∈ as) (nx : Nat) :
    ∃ nx', K.cell a nx' ∈ K.cells as nx := by
  obtain ⟨s, t, rfl⟩ := List.append_of_mem ha
  exact ⟨K.first t nx, by rw [cells_middle]; simp⟩

/-- The other cells of a node are cells of the list. -/
theorem rest_mem_cells {as : List α} {a : α} (ha : a ∈ as) {c : Cell} (hc : c ∈ K.rest a)
    (nx : Nat) : c ∈ K.cells as nx := by
  obtain ⟨s, t, rfl⟩ := List.append_of_mem ha
  rw [cells_middle]
  simp [hc]

/-- If the cells hold, the function that follows the link of a record walks the list. -/
theorem links_of_holds {next : Nat → Option Nat} {r : Nat → Option Nat} {as : List α} {nx : Nat}
    (h : ∀ c ∈ K.cells as nx, c.holds m) (hnx : r nx = none)
    (hoff : ∀ a ∈ as, r (K.off a) = some (K.off a))
    (hnext : ∀ a nx', (K.cell a nx').holds m → next (K.off a) = r nx') :
    Links next (K.offs as) := by
  induction as with
  | nil => trivial
  | cons a as ih =>
    have hc := h (K.cell a (K.first as nx)) (by simp [cells])
    refine ⟨?_, ih (fun c hc => h c (by simp [cells, hc]))
      (fun b hb => hoff b (List.mem_cons_of_mem _ hb))⟩
    rw [hnext a _ hc]
    cases as with
    | nil => exact hnx
    | cons b bs => exact hoff b (by simp)

/-- The records of a list are pairwise different. -/
theorem nodup_offs {as : List α} {nx : Nat} (h : (K.cells as nx).Pairwise Cell.Apart)
    (hsize : 0 < K.size) : (K.offs as).Nodup := by
  induction as with
  | nil => exact List.nodup_nil
  | cons a as ih =>
    obtain ⟨hap, hrest⟩ := List.pairwise_cons.mp h
    refine List.nodup_cons.mpr ⟨?_, ih (List.pairwise_append.mp hrest).2.1⟩
    intro hmem
    obtain ⟨b, hb, hoff⟩ := List.mem_map.mp hmem
    obtain ⟨nx', hcell⟩ := K.cell_mem_cells hb nx
    have hab := hap _ (List.mem_append_right _ hcell)
    unfold Cell.Apart at hab
    rw [K.cell_off, K.cell_off, K.cell_size, K.cell_size] at hab
    omega

/-- Up to order, the cells of a list are its records and the other cells of its nodes; `f` is any
function of a cell that does not depend on links. -/
theorem map_cells_perm {β : Type} {f : Cell → β} {g : α → β}
    (hf : ∀ a nx', f (K.cell a nx') = g a) (as : List α) (nx : Nat) :
    ((K.cells as nx).map f).Perm (as.map g ++ as.flatMap fun a => (K.rest a).map f) := by
  induction as with
  | nil => exact List.Perm.refl _
  | cons a as ih =>
    simp only [cells, List.map_cons, List.map_append, List.flatMap_cons, hf, List.cons_append]
    refine List.Perm.cons _ ?_
    refine (ih.append_left _).trans ?_
    rw [← List.append_assoc, ← List.append_assoc]
    exact List.perm_append_comm.append_right _

end Linked

end Cells
