import Mathlib.Data.Option.Basic
import Mathlib.Data.List.Basic

/-!
# Transactions that may be lost

A connection to a database whose statements may fail. At most one transaction is open; it remembers
who began it and the data that a rollback restores. A statement that fails has no effect of its own,
but it may roll the open transaction back. The environment decides how each statement is answered.
-/

namespace Txn

/-- How a statement is answered. -/
inductive Answer
  | done
  /-- the statement fails and has no effect -/
  | failed
  /-- the statement fails, and the open transaction is rolled back -/
  | rolledBack
  deriving DecidableEq

/-- A connection to data of type `σ`, with transactions begun by values of type `τ`. The next
statements are answered by `answers`; when these are used up, statements succeed. -/
structure Conn (τ σ : Type) where
  data : σ
  txn : Option (τ × σ)
  answers : List Answer

variable {τ σ : Type} {c c' c'' : Conn τ σ} {as bs : List Answer}

/-- Who began the open transaction. -/
def Conn.owner (c : Conn τ σ) : Option τ := c.txn.map Prod.fst

def Conn.rollback (c : Conn τ σ) : Conn τ σ :=
  match c.txn with
  | some (_, saved) => { c with data := saved, txn := none }
  | none => c

/-- What a crash leaves: the data as of the last commit. -/
def Conn.durable (c : Conn τ σ) : σ :=
  match c.txn with
  | some (_, saved) => saved
  | none => c.data

/-- A statement that reads or writes, in the open transaction if there is one. -/
def Conn.exec (c : Conn τ σ) (f : σ → σ) : Conn τ σ × Bool :=
  match c.answers with
  | [] => ({ c with data := f c.data }, true)
  | .done :: as => ({ c with data := f c.data, answers := as }, true)
  | .failed :: as => ({ c with answers := as }, false)
  | .rolledBack :: as => ({ c.rollback with answers := as }, false)

/-- Statements that are executed until one fails. -/
def Conn.execAll (c : Conn τ σ) : List (σ → σ) → Conn τ σ × Bool
  | [] => (c, true)
  | f :: fs =>
    let r := c.exec f
    if r.2 then r.1.execAll fs else r

/-- `BEGIN`, which fails if a transaction is open. -/
def Conn.beginTxn (c : Conn τ σ) (who : τ) : Conn τ σ × Bool :=
  if c.txn.isSome then
    (c, false)
  else
    match c.answers with
    | [] => ({ c with txn := some (who, c.data) }, true)
    | .done :: as => ({ c with txn := some (who, c.data), answers := as }, true)
    | _ :: as => ({ c with answers := as }, false)

/-- `COMMIT`, which fails if no transaction is open. -/
def Conn.commit (c : Conn τ σ) : Conn τ σ × Bool :=
  if c.txn.isNone then
    (c, false)
  else
    match c.answers with
    | [] => ({ c with txn := none }, true)
    | .done :: as => ({ c with txn := none, answers := as }, true)
    | .failed :: as => ({ c with answers := as }, false)
    | .rolledBack :: as => ({ c.rollback with answers := as }, false)

@[simp] theorem owner_rollback (c : Conn τ σ) : c.rollback.owner = none := by
  unfold Conn.rollback Conn.owner
  split <;> simp_all

theorem owner_eq_none : c.owner = none ↔ c.txn = none := Option.map_eq_none_iff

/-! ## Executing statements -/

/-- From `c` to `c'` statements were executed, which were answered by `as`. -/
structure Executes (as : List Answer) (c c' : Conn τ σ) : Prop where
  answers : c.answers = as ++ c'.answers
  owner : c'.owner = if Answer.rolledBack ∈ as then none else c.owner

theorem Executes.refl (c : Conn τ σ) : Executes [] c c where
  answers := rfl
  owner := by simp

theorem Executes.trans (h : Executes as c c') (h' : Executes bs c' c'') :
    Executes (as ++ bs) c c'' where
  answers := by rw [h.answers, h'.answers, List.append_assoc]
  owner := by
    rw [h'.owner, h.owner]
    by_cases ha : Answer.rolledBack ∈ as
    · simp [ha]
    · simp [ha]

/-- A statement that takes its answer from `c`. -/
theorem executes_exec (c : Conn τ σ) (f : σ → σ) :
    ∃ as, Executes as c (c.exec f).1 ∧ ((c.exec f).2 = true → Answer.rolledBack ∉ as) := by
  unfold Conn.exec
  split
  · exact ⟨[], ⟨by simp_all, by simp [Conn.owner]⟩, by simp⟩
  · exact ⟨[.done], ⟨by simp_all, by simp [Conn.owner]⟩, by simp⟩
  · exact ⟨[.failed], ⟨by simp_all, by simp [Conn.owner]⟩, by simp⟩
  · refine ⟨[.rolledBack], ⟨by simp_all, ?_⟩, by simp⟩
    have := owner_rollback c
    simpa [Conn.owner] using this

theorem executes_execAll (c : Conn τ σ) (fs : List (σ → σ)) :
    ∃ as, Executes as c (c.execAll fs).1 := by
  induction fs generalizing c with
  | nil => exact ⟨[], Executes.refl c⟩
  | cons f fs ih =>
    obtain ⟨as, has, -⟩ := executes_exec c f
    simp only [Conn.execAll]
    split_ifs
    · obtain ⟨bs, hbs⟩ := ih (c.exec f).1
      exact ⟨as ++ bs, has.trans hbs⟩
    · exact ⟨as, has⟩

/-! ## Without rollbacks -/

/-- The data after the statements `fs`. -/
def applyAll (fs : List (σ → σ)) (d : σ) : σ := fs.foldl (fun d f => f d) d

/-- A statement that does not roll back has its effect, or none. -/
theorem exec_calm (h : Answer.rolledBack ∉ c.answers) (f : σ → σ) :
    ∃ as, Answer.rolledBack ∉ as ∧
      (c.exec f = ({ c with data := f c.data, answers := as }, true) ∨
        c.exec f = ({ c with answers := as }, false)) := by
  unfold Conn.exec
  split
  · rename_i hnil
    exact ⟨[], by simp, Or.inl (by rw [← hnil])⟩
  · rename_i as has
    exact ⟨as, fun hmem => h (by simp [has, hmem]), Or.inl rfl⟩
  · rename_i as has
    exact ⟨as, fun hmem => h (by simp [has, hmem]), Or.inr rfl⟩
  · rename_i as has
    exact absurd (by simp [has]) h

/-- Statements that are executed until one fails have the effect of some of them, from the first on;
of all of them if none fails. -/
theorem execAll_calm (h : Answer.rolledBack ∉ c.answers) (fs : List (σ → σ)) :
    ∃ as k, Answer.rolledBack ∉ as ∧ k ≤ fs.length ∧
      (c.execAll fs).1 = { c with data := applyAll (fs.take k) c.data, answers := as } ∧
      ((c.execAll fs).2 = true → k = fs.length) := by
  induction fs generalizing c with
  | nil => exact ⟨c.answers, 0, h, Nat.le_refl 0, rfl, fun _ => rfl⟩
  | cons f fs ih =>
    obtain ⟨as, has, hdone | hfail⟩ := exec_calm h f
    · obtain ⟨bs, k, hbs, hk, heq, hall⟩ := ih (c := { c with data := f c.data, answers := as }) has
      refine ⟨bs, k + 1, hbs, by simpa using hk, ?_, ?_⟩
      · simp only [Conn.execAll, hdone, if_true, heq]
        rfl
      · simpa [Conn.execAll, hdone] using hall
    · refine ⟨as, 0, has, Nat.zero_le _, ?_, ?_⟩
      · simp [Conn.execAll, hfail, applyAll]
      · simp [Conn.execAll, hfail]

theorem exec_done (h : ∀ r ∈ c.answers, r = Answer.done) (f : σ → σ) :
    ∃ as, (∀ r ∈ as, r = Answer.done) ∧
      c.exec f = ({ c with data := f c.data, answers := as }, true) := by
  unfold Conn.exec
  split
  · rename_i hnil
    exact ⟨[], by simp, by rw [← hnil]⟩
  · rename_i as has
    exact ⟨as, fun r hr => h r (by simp [has, hr]), rfl⟩
  · rename_i as has
    exact absurd (h .failed (by simp [has])) (by decide)
  · rename_i as has
    exact absurd (h .rolledBack (by simp [has])) (by decide)

theorem execAll_done (h : ∀ r ∈ c.answers, r = Answer.done) (fs : List (σ → σ)) :
    ∃ as, (∀ r ∈ as, r = Answer.done) ∧
      c.execAll fs = ({ c with data := applyAll fs c.data, answers := as }, true) := by
  induction fs generalizing c with
  | nil => exact ⟨c.answers, h, rfl⟩
  | cons f fs ih =>
    obtain ⟨as, has, hexec⟩ := exec_done h f
    obtain ⟨bs, hbs, hrest⟩ := ih (c := { c with data := f c.data, answers := as }) has
    refine ⟨bs, hbs, ?_⟩
    simp only [Conn.execAll, hexec, if_true, hrest]
    rfl

/-! ## Statements that succeed -/

theorem exec_nil (h : c.answers = []) (f : σ → σ) :
    c.exec f = ({ c with data := f c.data }, true) := by
  rw [Conn.exec, h]

theorem execAll_nil (h : c.answers = []) (fs : List (σ → σ)) :
    c.execAll fs = ({ c with data := applyAll fs c.data }, true) := by
  induction fs generalizing c with
  | nil => rfl
  | cons f fs ih =>
    simp only [Conn.execAll, exec_nil h, if_true]
    exact ih (c := { c with data := f c.data }) h

theorem beginTxn_nil (htxn : c.txn = none) (h : c.answers = []) (who : τ) :
    c.beginTxn who = ({ c with txn := some (who, c.data) }, true) := by
  rw [Conn.beginTxn, htxn, h]
  rfl

theorem commit_nil (htxn : c.txn.isSome = true) (h : c.answers = []) :
    c.commit = ({ c with txn := none }, true) := by
  rw [Conn.commit, if_neg (by rw [Option.isNone_iff_eq_none]; rintro hn; simp [hn] at htxn), h]

theorem durable_none (htxn : c.txn = none) : c.durable = c.data := by
  rw [Conn.durable, htxn]

/-- Within a transaction what is durable does not change. -/
theorem durable_congr (htxn : c'.txn = c.txn) (h : c.txn.isSome = true) :
    c'.durable = c.durable := by
  obtain ⟨x, hx⟩ := Option.isSome_iff_exists.mp h
  rw [Conn.durable, Conn.durable, htxn, hx]

/-! ## Beginning and committing -/

/-- Beginning a transaction while none is open. -/
theorem beginTxn_cases (h : c.owner = none) (who : τ) :
    ((c.beginTxn who).2 = true ∧ (c.beginTxn who).1.owner = some who) ∨
    ((c.beginTxn who).2 = false ∧ (c.beginTxn who).1.owner = none) := by
  have htxn := owner_eq_none.mp h
  unfold Conn.beginTxn
  rw [if_neg (by simp [htxn])]
  split
  · exact Or.inl ⟨rfl, rfl⟩
  · exact Or.inl ⟨rfl, rfl⟩
  · exact Or.inr ⟨rfl, h⟩

theorem data_beginTxn (c : Conn τ σ) (who : τ) : (c.beginTxn who).1.data = c.data := by
  unfold Conn.beginTxn
  split_ifs
  · rfl
  · split <;> rfl

theorem data_commit (h : Answer.rolledBack ∉ c.answers) : c.commit.1.data = c.data ∧
    Answer.rolledBack ∉ c.commit.1.answers := by
  unfold Conn.commit
  split_ifs
  · exact ⟨rfl, h⟩
  · split
    · exact ⟨rfl, h⟩
    · exact ⟨rfl, fun hmem => h (by simp_all)⟩
    · exact ⟨rfl, fun hmem => h (by simp_all)⟩
    · exact absurd (by simp_all) h

/-- Committing the open transaction closes it, unless the answer is a failure without a rollback. -/
theorem commit_cases (h : c.owner ≠ none) :
    (c.answers.head? ≠ some .failed ∧ c.commit.1.owner = none) ∨
    (∃ as, c.answers = .failed :: as ∧ c.commit.1.owner = c.owner ∧ c.commit.1.answers = as) := by
  have htxn : ¬ c.txn.isNone := by
    rw [Option.isNone_iff_eq_none]
    exact fun hn => h (owner_eq_none.mpr hn)
  unfold Conn.commit
  rw [if_neg htxn]
  split
  · exact Or.inl ⟨by simp_all, rfl⟩
  · exact Or.inl ⟨by simp_all, rfl⟩
  · rename_i as has
    exact Or.inr ⟨as, has, rfl, rfl⟩
  · refine Or.inl ⟨by simp_all, ?_⟩
    have := owner_rollback c
    simpa [Conn.owner] using this

end Txn
