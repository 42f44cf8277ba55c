import OtelTracing.Lib.Machine

/-!
# Machines that carry out other machines

A machine carries out another one if it takes a block of its own actions for each action of the other.
A run of the other machine is then a run of blocks.
-/

namespace Machine

variable {σ τ α β ε δ : Type} {A : Machine σ α ε} {C : Machine τ β δ} {R : σ → τ → Prop}
  {B : α → List β → Prop} {s s' : σ} {t : τ} {as : List α}

/-- Each action with a block of its own. -/
inductive Blocks (B : α → List β → Prop) : List α → List β → Prop
  | nil : Blocks B [] []
  | snoc {as : List α} {a : α} {bs cs : List β} : Blocks B as bs → B a cs →
      Blocks B (as ++ [a]) (bs ++ cs)

/-- From states that are related, `C` carries out each action of `A` by a block. -/
def Carries (A : Machine σ α ε) (C : Machine τ β δ) (R : σ → τ → Prop) (B : α → List β → Prop) :
    Prop :=
  ∀ s t a s', R s t → A.enabled s a → A.step s a = .ok s' →
    ∃ bs t', B a bs ∧ C.Run t bs t' ∧ R s' t'

theorem Carries.run (h : Carries A C R B) (hR : R s t) (hrun : A.Run s as s') :
    ∃ bs t', Blocks B as bs ∧ C.Run t bs t' ∧ R s' t' := by
  induction hrun with
  | nil => exact ⟨[], t, .nil, .nil, hR⟩
  | snoc _ he hstep ih =>
    obtain ⟨bs, t', hblocks, hrun, hR'⟩ := ih
    obtain ⟨cs, t'', hblock, hrun', hR''⟩ := h _ _ _ _ hR' he hstep
    exact ⟨bs ++ cs, t'', .snoc hblocks hblock, hrun.append hrun', hR''⟩

end Machine
