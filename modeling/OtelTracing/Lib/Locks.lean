import Mathlib.Logic.Function.Basic
import Mathlib.Data.List.Basic
import Mathlib.Tactic.Common

/-!
# Locks and who holds them

A mutex is the thread that holds it, if one does; a read-write lock has readers or a writer. What a
thread holds is also a matter of where it is in its program: `Holds` says that the two agree. When a
thread moves, they still agree if the move takes or releases the lock accordingly, or else keeps what
the thread holds.
-/

namespace Locks

variable {τ π : Type} {t u : τ} {pc : τ → π} {pc' : π} {holds : π → Bool}

/-- A move that is not seen by `f` is not seen by `f` in any thread. -/
theorem update_same [DecidableEq τ] {α : Type} {f : π → α} (hsame : f pc' = f (pc t)) (u : τ) :
    f (Function.update pc t pc' u) = f (pc u) := by
  by_cases hu : u = t
  · subst hu
    rw [Function.update_self, hsame]
  · rw [Function.update_of_ne hu]

/-! ## Mutexes -/

/-- The thread that holds the mutex `l` is the one whose place says so. -/
def Holds (l : Option τ) (holds : π → Bool) (pc : τ → π) : Prop :=
  ∀ t, l = some t ↔ holds (pc t) = true

theorem Holds.unique {l : Option τ} (h : Holds l holds pc) (ht : holds (pc t) = true)
    (hu : holds (pc u) = true) : t = u := by
  have hlt := (h t).mpr ht
  rw [(h u).mpr hu] at hlt
  exact (Option.some.inj hlt).symm

/-- A mutex that is taken is held by a thread whose place says so. -/
theorem Holds.holder {l : Option τ} (h : Holds l holds pc) (htaken : l ≠ none) :
    ∃ t, l = some t ∧ holds (pc t) = true := by
  obtain ⟨t, ht⟩ := Option.ne_none_iff_exists'.mp htaken
  exact ⟨t, ht, (h t).mp ht⟩

theorem Holds.ne_none {l : Option τ} (h : Holds l holds pc) (ht : holds (pc t) = true) :
    l ≠ none := by
  rw [(h t).mpr ht]
  exact Option.some_ne_none t

section

variable [DecidableEq τ]

theorem Holds.keep {l : Option τ} (h : Holds l holds pc) (hsame : holds pc' = holds (pc t)) :
    Holds l holds (Function.update pc t pc') := by
  intro u
  rw [update_same hsame]
  exact h u

theorem Holds.acquire (h : Holds none holds pc) (hnew : holds pc' = true) :
    Holds (some t) holds (Function.update pc t pc') := by
  intro u
  by_cases hu : u = t
  · subst hu
    simp [hnew]
  · have hfree := h u
    simp only [reduceCtorEq, false_iff] at hfree
    simp [Function.update_of_ne hu, hfree, Ne.symm hu]

theorem Holds.release {l : Option τ} (h : Holds l holds pc) (hold : holds (pc t) = true)
    (hnew : holds pc' = false) : Holds none holds (Function.update pc t pc') := by
  intro u
  by_cases hu : u = t
  · subst hu
    simp [hnew]
  · have hother := h u
    rw [(h t).mpr hold] at hother
    simp only [Option.some.injEq] at hother
    have hne : ¬ holds (pc u) = true := fun hholds => hu (hother.mpr hholds).symm
    simp [Function.update_of_ne hu, hne]

end

/-! ## Read-write locks -/

structure RwLock (τ : Type) where
  readers : List τ
  writer : Option τ

namespace RwLock

def free : RwLock τ := ⟨[], none⟩

def canRead (l : RwLock τ) : Prop := l.writer = none

def canWrite (l : RwLock τ) : Prop := l.writer = none ∧ l.readers = []

def lockRead (l : RwLock τ) (t : τ) : RwLock τ := { l with readers := t :: l.readers }

def unlockRead [DecidableEq τ] (l : RwLock τ) (t : τ) : RwLock τ :=
  { l with readers := l.readers.erase t }

def lockWrite (l : RwLock τ) (t : τ) : RwLock τ := { l with writer := some t }

def unlockWrite (l : RwLock τ) : RwLock τ := { l with writer := none }

variable {l : RwLock τ} {reads writes : π → Bool}

/-- The threads that hold `l` are those whose places say so, and no thread reads while one writes. -/
structure Holds (l : RwLock τ) (reads writes : π → Bool) (pc : τ → π) : Prop where
  writer : Locks.Holds l.writer writes pc
  readers : ∀ t, t ∈ l.readers ↔ reads (pc t) = true
  nodup : l.readers.Nodup
  exclusive : l.writer ≠ none → l.readers = []

variable [DecidableEq τ]

theorem Holds.keep (h : l.Holds reads writes pc) (hreads : reads pc' = reads (pc t))
    (hwrites : writes pc' = writes (pc t)) : l.Holds reads writes (Function.update pc t pc') where
  writer := h.writer.keep hwrites
  readers u := by
    rw [update_same hreads]
    exact h.readers u
  nodup := h.nodup
  exclusive := h.exclusive

theorem Holds.lockRead (h : l.Holds reads writes pc) (hcan : l.canRead)
    (hold : reads (pc t) = false) (hreads : reads pc' = true) (hwrites : writes pc' = writes (pc t)) :
    (l.lockRead t).Holds reads writes (Function.update pc t pc') where
  writer := h.writer.keep hwrites
  readers u := by
    by_cases hu : u = t
    · subst hu
      simp [RwLock.lockRead, hreads]
    · have := h.readers u
      simp [RwLock.lockRead, hu, this]
  nodup := by
    refine List.nodup_cons.mpr ⟨?_, h.nodup⟩
    intro hmem
    rw [(h.readers t).mp hmem] at hold
    cases hold
  exclusive hwriter := absurd hcan hwriter

theorem Holds.unlockRead (h : l.Holds reads writes pc) (hreads : reads pc' = false)
    (hwrites : writes pc' = writes (pc t)) :
    (l.unlockRead t).Holds reads writes (Function.update pc t pc') where
  writer := h.writer.keep hwrites
  readers u := by
    show u ∈ l.readers.erase t ↔ _
    rw [h.nodup.mem_erase_iff, h.readers u]
    by_cases hu : u = t
    · subst hu
      simp [hreads]
    · simp [hu]
  nodup := h.nodup.erase t
  exclusive hwriter := by
    have := h.exclusive hwriter
    simp [RwLock.unlockRead, this]

theorem Holds.lockWrite (h : l.Holds reads writes pc) (hcan : l.canWrite)
    (hwrites : writes pc' = true) (hreads : reads pc' = reads (pc t)) :
    (l.lockWrite t).Holds reads writes (Function.update pc t pc') where
  writer := by
    have hfree : Locks.Holds none writes pc := hcan.1 ▸ h.writer
    exact hfree.acquire hwrites
  readers u := by
    rw [update_same hreads]
    exact h.readers u
  nodup := h.nodup
  exclusive _ := hcan.2

theorem Holds.unlockWrite (h : l.Holds reads writes pc) (hold : writes (pc t) = true)
    (hwrites : writes pc' = false) (hreads : reads pc' = reads (pc t)) :
    l.unlockWrite.Holds reads writes (Function.update pc t pc') where
  writer := h.writer.release hold hwrites
  readers u := by
    rw [update_same hreads]
    exact h.readers u
  nodup := h.nodup
  exclusive hwriter := absurd rfl hwriter

end RwLock

end Locks
