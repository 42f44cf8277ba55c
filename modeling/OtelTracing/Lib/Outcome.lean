import Mathlib.Data.List.Basic

/-!
# Computations that may fail

How a successful computation in `Except` is taken apart, and how to show that a computation does not
fail with a certain error.
-/

namespace Outcome

variable {ε α β : Type} {e : ε}

theorem ok_bind (a : α) (f : α → Except ε β) : (Except.ok a >>= f) = f a := rfl

theorem bind_ok {x : Except ε α} {f : α → Except ε β} {b : β} (h : x >>= f = .ok b) :
    ∃ a, x = .ok a ∧ f a = .ok b := by
  cases x with
  | error e => cases h
  | ok a => exact ⟨a, rfl, h⟩

theorem map_ok {x : Except ε α} {f : α → β} {b : β} (h : f <$> x = .ok b) :
    ∃ a, x = .ok a ∧ f a = b := by
  cases x with
  | error e => cases h
  | ok a => exact ⟨a, rfl, Except.ok.inj h⟩

/-- The invariant rule for a loop that succeeds. -/
theorem foldlM_ok {I : β → Prop} {f : β → α → Except ε β} {as : List α} {b b' : β}
    (h : as.foldlM f b = .ok b') (hb : I b)
    (hf : ∀ a ∈ as, ∀ b b', I b → f b a = .ok b' → I b') : I b' := by
  induction as generalizing b with
  | nil =>
    obtain rfl : b = b' := Except.ok.inj h
    exact hb
  | cons a as ih =>
    rw [List.foldlM_cons] at h
    obtain ⟨b₁, h1, h2⟩ := bind_ok h
    exact ih h2 (hf a (by simp) b b₁ hb h1) fun a' ha' => hf a' (by simp [ha'])

/-- The computation does not fail with the error `e`. -/
def Avoids (e : ε) (x : Except ε α) : Prop := x ≠ .error e

theorem Avoids.ok (a : α) : Avoids e (.ok a : Except ε α) := by
  intro h
  cases h

theorem Avoids.pure (a : α) : Avoids e (Pure.pure a : Except ε α) := Avoids.ok a

theorem Avoids.error {e' : ε} (h : e' ≠ e) : Avoids e (.error e' : Except ε α) := by
  intro h'
  exact h (Except.error.inj h')

theorem Avoids.bind {x : Except ε α} {f : α → Except ε β} (hx : Avoids e x)
    (hf : ∀ a, x = .ok a → Avoids e (f a)) : Avoids e (x >>= f) := by
  cases x with
  | error e' =>
    intro h
    exact hx (congrArg Except.error (Except.error.inj h))
  | ok a => exact hf a rfl

theorem Avoids.map {x : Except ε α} {f : α → β} (hx : Avoids e x) : Avoids e (f <$> x) := by
  cases x with
  | error e' =>
    intro h
    exact hx (congrArg Except.error (Except.error.inj h))
  | ok a => exact Avoids.ok (f a)

/-- The rule for a loop, with an invariant. -/
theorem Avoids.foldlM {I : β → Prop} {f : β → α → Except ε β} {as : List α} {b : β} (hb : I b)
    (hf : ∀ a ∈ as, ∀ b, I b → Avoids e (f b a) ∧ ∀ b', f b a = .ok b' → I b') :
    Avoids e (as.foldlM f b) := by
  induction as generalizing b with
  | nil => exact Avoids.ok b
  | cons a as ih =>
    rw [List.foldlM_cons]
    obtain ⟨havoid, hinv⟩ := hf a (by simp) b hb
    refine havoid.bind fun b' hb' => ?_
    exact ih (hinv b' hb') fun a' ha' => hf a' (by simp [ha'])

end Outcome
