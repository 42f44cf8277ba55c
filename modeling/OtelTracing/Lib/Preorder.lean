import Mathlib.Data.List.Basic

/-!
# Preorder listings with depths

A forest is listed in preorder, every label with its depth. The listing alone says what stands under
what: a line belongs to the subtree of an earlier one if all lines in between are deeper.
-/

namespace Preorder

variable {α : Type}

/-- The first tree, as its label and the forest under it, and the other trees. -/
inductive Forest (α : Type)
  | nil
  | node (a : α) (kids rest : Forest α)

def Forest.lines : Forest α → Nat → List (α × Nat)
  | nil, _ => []
  | node a kids rest, d => (a, d) :: (kids.lines (d + 1) ++ rest.lines d)

def Forest.labels : Forest α → List α
  | nil => []
  | node a kids rest => a :: (kids.labels ++ rest.labels)

/-- The roots meet `top`, and every other label is related to the one that it is right under. -/
def Forest.Linked (R : α → α → Prop) : Forest α → (α → Prop) → Prop
  | nil, _ => True
  | node a kids rest, top => top a ∧ kids.Linked R (R a) ∧ rest.Linked R top

/-- The line `x` is in the subtree of the line `p`, and one level deeper. -/
def Under (out : List (α × Nat)) (p x : α × Nat) : Prop :=
  ∃ pre mid post, out = pre ++ p :: (mid ++ x :: post) ∧ x.2 = p.2 + 1 ∧ ∀ y ∈ mid, p.2 < y.2

variable {R : α → α → Prop} {top : α → Prop} {f : Forest α} {out : List (α × Nat)} {p x : α × Nat}

theorem Under.mem (h : Under out p x) : p ∈ out := by
  obtain ⟨pre, mid, post, rfl, -, -⟩ := h
  simp

theorem Under.append (h : Under out p x) (l r : List (α × Nat)) : Under (l ++ (out ++ r)) p x := by
  obtain ⟨pre, mid, post, rfl, hdepth, hmid⟩ := h
  exact ⟨l ++ pre, mid, post ++ r, by simp, hdepth, hmid⟩

theorem map_fst_lines (f : Forest α) (d : Nat) : (f.lines d).map Prod.fst = f.labels := by
  induction f generalizing d with
  | nil => rfl
  | node a kids rest ihkids ihrest =>
    rw [Forest.lines, Forest.labels, List.map_cons, List.map_append, ihkids, ihrest]

/-- What holds of the roots, and is passed on, holds of all labels. -/
theorem Forest.Linked.forall_labels {P : α → Prop} (h : f.Linked R top) (htop : ∀ a, top a → P a)
    (hkid : ∀ a b, P a → R a b → P b) : ∀ a ∈ f.labels, P a := by
  induction f generalizing top with
  | nil => exact nofun
  | node a kids rest ihkids ihrest =>
    obtain ⟨hroot, hkids, hrest⟩ := h
    intro b hb
    rcases List.mem_cons.mp hb with rfl | hb
    · exact htop b hroot
    · rcases List.mem_append.mp hb with hb | hb
      · exact ihkids hkids (fun c => hkid a c (htop a hroot)) b hb
      · exact ihrest hrest htop b hb

theorem Forest.Linked.imp {top' : α → Prop} (h : f.Linked R top) (himp : ∀ a, top a → top' a) :
    f.Linked R top' := by
  induction f with
  | nil => trivial
  | node a kids rest _ ihrest => exact ⟨himp a h.1, h.2.1, ihrest h.2.2⟩

theorem le_depth {d : Nat} (hx : x ∈ f.lines d) : d ≤ x.2 := by
  induction f generalizing d with
  | nil => cases hx
  | node a kids rest ihkids ihrest =>
    rcases List.mem_cons.mp hx with rfl | hx
    · exact Nat.le_refl d
    · rcases List.mem_append.mp hx with hx | hx
      · exact Nat.le_of_succ_le (ihkids hx)
      · exact ihrest hx

/-- Every line is that of a root, or it stands under a line that it is related to. -/
theorem Forest.Linked.under {d : Nat} (h : f.Linked R top) (hx : x ∈ f.lines d) :
    (x.2 = d ∧ top x.1) ∨ ∃ p, R p.1 x.1 ∧ Under (f.lines d) p x := by
  induction f generalizing d top with
  | nil => cases hx
  | node a kids rest ihkids ihrest =>
    obtain ⟨htop, hkids, hrest⟩ := h
    rcases List.mem_cons.mp hx with rfl | hx
    · exact .inl ⟨rfl, htop⟩
    · rcases List.mem_append.mp hx with hx | hx
      · right
        rcases ihkids hkids hx with ⟨hdepth, hrel⟩ | ⟨p, hrel, hunder⟩
        · obtain ⟨mid, post, hsplit⟩ := List.append_of_mem hx
          refine ⟨(a, d), hrel, [], mid, post ++ rest.lines d, ?_, hdepth, ?_⟩
          · rw [Forest.lines, hsplit]
            simp
          · intro y hy
            exact le_depth (f := kids) (by rw [hsplit]; exact List.mem_append_left _ hy)
        · exact ⟨p, hrel, hunder.append [(a, d)] (rest.lines d)⟩
      · rcases ihrest hrest hx with hroot | ⟨p, hrel, hunder⟩
        · exact .inl hroot
        · right
          have hlast := hunder.append ((a, d) :: kids.lines (d + 1)) []
          rw [List.append_nil] at hlast
          exact ⟨p, hrel, hlast⟩

/-! ## Listings determine forests -/

/-- The lines below the first root are those that are deeper, up to the next root. -/
theorem takeWhile_lines (kids rest : Forest α) (d : Nat) :
    (kids.lines (d + 1) ++ rest.lines d).takeWhile (fun x => d < x.2) = kids.lines (d + 1) := by
  have hkids : ∀ x ∈ kids.lines (d + 1), decide (d < x.2) = true :=
    fun x hx => decide_eq_true (le_depth hx)
  have hrest : (rest.lines d).takeWhile (fun x => d < x.2) = [] := by
    cases rest with
    | nil => rfl
    | node a kids rest => exact List.takeWhile_cons_of_neg (by simp)
  rw [List.takeWhile_append_of_pos hkids, hrest, List.append_nil]

theorem lines_inj {f f' : Forest α} {d : Nat} (h : f.lines d = f'.lines d) : f = f' := by
  induction f generalizing f' d with
  | nil =>
    cases f' with
    | nil => rfl
    | node a kids rest => cases h
  | node a kids rest ihkids ihrest =>
    cases f' with
    | nil => cases h
    | node a' kids' rest' =>
      obtain ⟨hroot, htail⟩ := List.cons.inj h
      obtain rfl : a = a' := congrArg Prod.fst hroot
      have hkids : kids.lines (d + 1) = kids'.lines (d + 1) := by
        rw [← takeWhile_lines kids rest, htail, takeWhile_lines]
      rw [hkids] at htail
      rw [ihkids hkids, ihrest (List.append_cancel_left htail)]

/-! ## The order of siblings -/

def Forest.roots : Forest α → List α
  | nil => []
  | node a _ rest => a :: rest.roots

/-- Siblings are related to those after them. -/
def Forest.Ordered (R : α → α → Prop) : Forest α → Prop
  | nil => True
  | node a kids rest => (∀ b ∈ rest.roots, R a b) ∧ kids.Ordered R ∧ rest.Ordered R

theorem Forest.roots_subset (f : Forest α) : f.roots ⊆ f.labels := by
  induction f with
  | nil => exact List.Subset.refl _
  | node a kids rest _ ihrest =>
    intro b hb
    rcases List.mem_cons.mp hb with rfl | hb
    · exact List.mem_cons_self
    · exact List.mem_cons_of_mem a (List.mem_append_right _ (ihrest hb))

/-! ## Relabelling -/

variable {β : Type} {g : α → β}

def Forest.map (g : α → β) : Forest α → Forest β
  | nil => nil
  | node a kids rest => node (g a) (kids.map g) (rest.map g)

theorem lines_map (f : Forest α) (g : α → β) (d : Nat) :
    (f.map g).lines d = (f.lines d).map fun x => (g x.1, x.2) := by
  induction f generalizing d with
  | nil => rfl
  | node a kids rest ihkids ihrest =>
    simp only [Forest.map, Forest.lines, ihkids, ihrest, List.map_cons, List.map_append]

theorem labels_map (f : Forest α) (g : α → β) : (f.map g).labels = f.labels.map g := by
  induction f with
  | nil => rfl
  | node a kids rest ihkids ihrest =>
    simp only [Forest.map, Forest.labels, ihkids, ihrest, List.map_cons, List.map_append]

theorem roots_map (f : Forest α) (g : α → β) : (f.map g).roots = f.roots.map g := by
  induction f with
  | nil => rfl
  | node a kids rest _ ihrest => rw [Forest.map, Forest.roots, Forest.roots, ihrest, List.map_cons]

theorem Forest.Ordered.map {S : β → β → Prop} (h : f.Ordered R)
    (hmap : ∀ a ∈ f.labels, ∀ b ∈ f.labels, R a b → S (g a) (g b)) : (f.map g).Ordered S := by
  induction f with
  | nil => trivial
  | node a kids rest ihkids ihrest =>
    obtain ⟨hroots, hkids, hrest⟩ := h
    have ha : a ∈ (node a kids rest).labels := List.mem_cons_self
    have hsub : ∀ b ∈ kids.labels ++ rest.labels, b ∈ (node a kids rest).labels :=
      fun b hb => List.mem_cons_of_mem a hb
    refine ⟨?_, ihkids hkids ?_, ihrest hrest ?_⟩
    · intro b hb
      rw [roots_map] at hb
      obtain ⟨c, hc, rfl⟩ := List.mem_map.mp hb
      exact hmap a ha c (hsub c (List.mem_append_right _ (rest.roots_subset hc))) (hroots c hc)
    · intro b hb c hc
      exact hmap b (hsub b (List.mem_append_left _ hb)) c (hsub c (List.mem_append_left _ hc))
    · intro b hb c hc
      exact hmap b (hsub b (List.mem_append_right _ hb)) c (hsub c (List.mem_append_right _ hc))

/-- Relations between the labels are kept when they hold of the new labels. -/
theorem Forest.Linked.map {S : β → β → Prop} {top' : β → Prop} (h : f.Linked R top)
    (htop : ∀ a ∈ f.labels, top a → top' (g a))
    (hkid : ∀ a ∈ f.labels, ∀ b ∈ f.labels, R a b → S (g a) (g b)) :
    (f.map g).Linked S top' := by
  induction f generalizing top top' with
  | nil => trivial
  | node a kids rest ihkids ihrest =>
    obtain ⟨hroot, hkids, hrest⟩ := h
    have ha : a ∈ (node a kids rest).labels := List.mem_cons_self
    have hsub : ∀ b ∈ kids.labels ++ rest.labels, b ∈ (node a kids rest).labels :=
      fun b hb => List.mem_cons_of_mem a hb
    refine ⟨htop a ha hroot, ihkids hkids ?_ ?_, ihrest hrest ?_ ?_⟩
    · intro b hb
      exact hkid a ha b (hsub b (List.mem_append_left _ hb))
    · intro b hb c hc
      exact hkid b (hsub b (List.mem_append_left _ hb)) c (hsub c (List.mem_append_left _ hc))
    · intro b hb
      exact htop b (hsub b (List.mem_append_right _ hb))
    · intro b hb c hc
      exact hkid b (hsub b (List.mem_append_right _ hb)) c (hsub c (List.mem_append_right _ hc))

end Preorder
