import Mathlib.Data.List.Induction

/-!
# Machines and their runs

A machine has states and actions: `enabled` says which actions the environment may take, `step` what
the machine does, which may be to fail. Facts about every state that a machine reaches are proved by
an invariant (`Run.invariant`). `Run.iff_restrict` is the rule for a property that a step keeps
exactly if it meets a condition: the property holds after a run exactly if every step of the run met
the condition.
-/

structure Machine (σ α ε : Type) where
  /-- The actions that the environment may take in a state. -/
  enabled : σ → α → Prop
  step : σ → α → Except ε σ

namespace Machine

variable {σ α ε : Type}

/-- The actions `as` lead from `s` to the state. -/
inductive Run (M : Machine σ α ε) (s : σ) : List α → σ → Prop
  | nil : Run M s [] s
  | snoc {as : List α} {a : α} {s' s'' : σ} : Run M s as s' → M.enabled s' a →
      M.step s' a = .ok s'' → Run M s (as ++ [a]) s''

/-- The machine whose environment also keeps to the condition `C`. -/
def restrict (M : Machine σ α ε) (C : σ → α → Prop) : Machine σ α ε where
  enabled s a := M.enabled s a ∧ C s a
  step := M.step

variable {M : Machine σ α ε} {C : σ → α → Prop} {s s' s'' : σ} {as bs : List α} {a : α}

theorem Run.one (he : M.enabled s a) (hs : M.step s a = .ok s') : M.Run s [a] s' :=
  Run.snoc Run.nil he hs

theorem Run.append (h : M.Run s as s') (h' : M.Run s' bs s'') : M.Run s (as ++ bs) s'' := by
  induction h' with
  | nil => rwa [List.append_nil]
  | snoc _ he hs ih =>
    rw [← List.append_assoc]
    exact Run.snoc ih he hs

theorem Run.cons (he : M.enabled s a) (hs : M.step s a = .ok s') (h : M.Run s' as s'') :
    M.Run s (a :: as) s'' :=
  (Run.one he hs).append h

theorem Run.nil_inv (h : M.Run s [] s') : s' = s := by
  generalize has : ([] : List α) = as at h
  cases h with
  | nil => rfl
  | snoc => simp at has

theorem Run.snoc_inv (h : M.Run s (as ++ [a]) s'') :
    ∃ s', M.Run s as s' ∧ M.enabled s' a ∧ M.step s' a = .ok s'' := by
  generalize hbs : as ++ [a] = bs at h
  cases h with
  | nil => simp at hbs
  | snoc hrun he hs =>
    obtain ⟨rfl, hlast⟩ := List.append_inj' hbs rfl
    obtain rfl := List.singleton_inj.mp hlast
    exact ⟨_, hrun, he, hs⟩

theorem Run.append_inv (h : M.Run s (as ++ bs) s'') : ∃ s', M.Run s as s' ∧ M.Run s' bs s'' := by
  induction bs using List.reverseRecOn generalizing s'' with
  | nil => exact ⟨s'', by simpa using h, Run.nil⟩
  | append_singleton bs b ih =>
    rw [← List.append_assoc] at h
    obtain ⟨s₁, hrun, he, hs⟩ := h.snoc_inv
    obtain ⟨s', has, hbs⟩ := ih hrun
    exact ⟨s', has, Run.snoc hbs he hs⟩

theorem Run.cons_inv (h : M.Run s (a :: as) s'') :
    ∃ s', M.enabled s a ∧ M.step s a = .ok s' ∧ M.Run s' as s'' := by
  obtain ⟨s', hone, has⟩ := Run.append_inv (show M.Run s ([a] ++ as) s'' from h)
  obtain ⟨s₀, hnil, he, hs⟩ := Run.snoc_inv (show M.Run s ([] ++ [a]) s' from hone)
  rw [hnil.nil_inv] at he hs
  exact ⟨s', he, hs, has⟩

/-- What holds at the start and is kept by the actions of the run holds in the state reached. -/
theorem Run.invariant {I : σ → Prop} (h : M.Run s as s') (hs : I s)
    (hstep : ∀ s, ∀ a ∈ as, ∀ s', I s → M.enabled s a → M.step s a = .ok s' → I s') : I s' := by
  induction h with
  | nil => exact hs
  | snoc _ he hstep' ih =>
    exact hstep _ _ (by simp) _ (ih fun s a ha => hstep s a (by simp [ha])) he hstep'

theorem Run.of_restrict (h : (M.restrict C).Run s as s') : M.Run s as s' := by
  induction h with
  | nil => exact Run.nil
  | snoc _ he hs ih => exact Run.snoc ih he.1 hs

/-- A property that a step keeps exactly if it meets `C` holds after a run exactly if all its steps
meet `C`. -/
theorem Run.iff_restrict {I G : σ → Prop} (h : M.Run s as s') (hs : I s) (hG : G s)
    (hstep : ∀ s, ∀ a ∈ as, ∀ s', I s → M.enabled s a → M.step s a = .ok s' →
      I s' ∧ (G s' ↔ G s ∧ C s a)) :
    I s' ∧ (G s' ↔ (M.restrict C).Run s as s') := by
  have hforward : I s' ∧ (G s' → (M.restrict C).Run s as s') := by
    induction h with
    | nil => exact ⟨hs, fun _ => Run.nil⟩
    | snoc _ he hstep' ih =>
      obtain ⟨hi, hrun⟩ := ih fun s a ha => hstep s a (by simp [ha])
      obtain ⟨hi', hiff⟩ := hstep _ _ (by simp) _ hi he hstep'
      refine ⟨hi', fun hg => ?_⟩
      obtain ⟨hg', hc⟩ := hiff.mp hg
      exact Run.snoc (hrun hg') ⟨he, hc⟩ hstep'
  refine ⟨hforward.1, hforward.2, ?_⟩
  intro hrun
  have hboth : I s' ∧ G s' := by
    refine hrun.invariant (I := fun s => I s ∧ G s) ⟨hs, hG⟩ ?_
    intro s a ha s' hi he hstep'
    obtain ⟨hi', hiff⟩ := hstep s a ha s' hi.1 he.1 hstep'
    exact ⟨hi', hiff.mpr ⟨hi.2, he.2⟩⟩
  exact hboth.2

/-- Actions of a kind that each bring the machine nearer to `P`, which the others do not undo, make it
reach `P` if there are enough of them. -/
theorem Run.reaches {I P : σ → Prop} {left : σ → Nat} {kind : α → Bool} (h : M.Run s as s')
    (hs : I s) (hcount : left s ≤ as.countP kind) (hzero : ∀ s, I s → left s = 0 → P s)
    (hstep : ∀ s a s', I s → ¬ P s → M.enabled s a → M.step s a = .ok s' →
      I s' ∧ left s' ≤ left s ∧ (kind a = true → left s' < left s)) :
    ∃ as₁ as₂ s₁, as = as₁ ++ as₂ ∧ M.Run s as₁ s₁ ∧ P s₁ := by
  induction as generalizing s with
  | nil => exact ⟨[], [], s, rfl, Run.nil, hzero s hs (by simpa using hcount)⟩
  | cons a as ih =>
    by_cases hP : P s
    · exact ⟨[], a :: as, s, rfl, Run.nil, hP⟩
    · obtain ⟨s₁, he, hs₁, hrun⟩ := h.cons_inv
      obtain ⟨hI, hle, hlt⟩ := hstep s a s₁ hs hP he hs₁
      have hcount' : left s₁ ≤ as.countP kind := by
        rw [List.countP_cons] at hcount
        by_cases hkind : kind a = true
        · have := hlt hkind
          rw [if_pos hkind] at hcount
          omega
        · rw [if_neg hkind] at hcount
          omega
      obtain ⟨as₁, as₂, s₂, rfl, hrun₁, hP₁⟩ := ih hrun hI hcount'
      exact ⟨a :: as₁, as₂, s₂, rfl, Run.cons he hs₁ hrun₁, hP₁⟩

/-- If each action makes `rank` smaller, a run has no more actions than the rank that it starts from. -/
theorem Run.length_le {I : σ → Prop} (rank : σ → Nat) (h : M.Run s as s') (hs : I s)
    (hstep : ∀ s a s', I s → M.enabled s a → M.step s a = .ok s' → I s' ∧ rank s' < rank s) :
    I s' ∧ as.length + rank s' ≤ rank s := by
  induction h with
  | nil => exact ⟨hs, by simp⟩
  | snoc _ he hs' ih =>
    obtain ⟨hI, hle⟩ := ih
    obtain ⟨hI', hlt⟩ := hstep _ _ _ hI he hs'
    refine ⟨hI', ?_⟩
    rw [List.length_append, List.length_singleton]
    omega

end Machine
