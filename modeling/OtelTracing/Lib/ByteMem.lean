import Mathlib.Algebra.GroupWithZero.Nat
import Mathlib.Data.List.Basic
import Mathlib.Tactic.Common

/-!
# Byte-addressed memory

A memory is a function from addresses to bytes. Integers are stored little-endian in a fixed number
of bytes, and a C string is read up to its terminating NUL. The frame lemmas say which reads a
write leaves alone.
-/

namespace ByteMem

/-- A sequence of bytes. -/
abbrev Bytes := List UInt8

/-- The contents of a byte-addressed memory. -/
abbrev Mem := Nat → UInt8

/-- The memory after writing the bytes `bs` at address `a`. -/
def writeBytes (m : Mem) (a : Nat) (bs : Bytes) : Mem := fun i =>
  if a ≤ i then (bs[i - a]?).getD (m i) else m i

/-- The `n` bytes at address `a`. -/
def readBytes (m : Mem) : Nat → Nat → Bytes
  | _, 0 => []
  | a, n + 1 => m a :: readBytes m (a + 1) n

/-- The `n` little-endian bytes of `v`, modulo `256 ^ n`. -/
def le : Nat → Nat → Bytes
  | 0, _ => []
  | n + 1, v => UInt8.ofNat v :: le n (v / 256)

/-- The number that little-endian bytes stand for. -/
def ofLe : Bytes → Nat
  | [] => 0
  | b :: bs => b.toNat + 256 * ofLe bs

/-- The unsigned little-endian integer of `n` bytes at address `a`. -/
def load (m : Mem) (a n : Nat) : Nat := ofLe (readBytes m a n)

/-- The memory after storing the integer `v` in the `n` bytes at address `a`. -/
def store (m : Mem) (a n v : Nat) : Mem := writeBytes m a (le n v)

/-- The C string at address `a`, looking at no more than `n` bytes. -/
def cstr (m : Mem) : Nat → Nat → Bytes
  | _, 0 => []
  | a, n + 1 => if m a = 0 then [] else m a :: cstr m (a + 1) n

/-- A field of a C structure: its byte offset in the structure and its width in bytes. -/
structure Field where
  /-- The offset from the start of the structure. -/
  off : Nat
  /-- The number of bytes. -/
  width : Nat

/-- The unsigned value of field `f` of the structure at address `p`. -/
def getField (m : Mem) (p : Nat) (f : Field) : Nat := load m (p + f.off) f.width

/-- The memory after assigning `v` to field `f` of the structure at address `p`. -/
def setField (m : Mem) (p : Nat) (f : Field) (v : Nat) : Mem := store m (p + f.off) f.width v

/-- The memories `m` and `m'` agree on the `n` bytes from address `a` on. -/
def AgreeOn (a n : Nat) (m m' : Mem) : Prop := ∀ i, a ≤ i → i < a + n → m i = m' i

/-! ## Agreement -/

theorem AgreeOn.symm {a n : Nat} {m m' : Mem} (h : AgreeOn a n m m') : AgreeOn a n m' m :=
  fun i h1 h2 => (h i h1 h2).symm

theorem AgreeOn.trans {a n : Nat} {m m' m'' : Mem} (h : AgreeOn a n m m')
    (h' : AgreeOn a n m' m'') : AgreeOn a n m m'' :=
  fun i h1 h2 => (h i h1 h2).trans (h' i h1 h2)

theorem AgreeOn.mono {a n b k : Nat} {m m' : Mem} (h : AgreeOn a n m m') (h1 : a ≤ b)
    (h2 : b + k ≤ a + n) : AgreeOn b k m m' :=
  fun i hi hi' => h i (by omega) (by omega)

/-- A write leaves the addresses outside its range alone. -/
theorem writeBytes_of_not_mem (m : Mem) {a i : Nat} (bs : Bytes) (h : i < a ∨ a + bs.length ≤ i) :
    writeBytes m a bs i = m i := by
  unfold writeBytes
  split_ifs with ha
  · rw [List.getElem?_eq_none (by omega)]
    rfl
  · rfl

/-- A write puts its `j`-th byte at the `j`-th address of its range. -/
theorem writeBytes_of_mem (m : Mem) {a j : Nat} (bs : Bytes) (h : j < bs.length) :
    writeBytes m a bs (a + j) = bs[j] := by
  simp [writeBytes, h]

theorem agreeOn_writeBytes (m : Mem) {a b n : Nat} (bs : Bytes)
    (h : b + n ≤ a ∨ a + bs.length ≤ b) : AgreeOn b n m (writeBytes m a bs) :=
  fun i h1 h2 => (writeBytes_of_not_mem m bs (by omega)).symm

/-! ## Reading back -/

@[simp] theorem length_readBytes (m : Mem) (a n : Nat) : (readBytes m a n).length = n := by
  induction n generalizing a with
  | zero => rfl
  | succ n ih => simp [readBytes, ih]

theorem readBytes_congr {m m' : Mem} {a n : Nat} (h : AgreeOn a n m m') :
    readBytes m a n = readBytes m' a n := by
  induction n generalizing a with
  | zero => rfl
  | succ n ih =>
    have h0 : m a = m' a := h a (by omega) (by omega)
    have ht : AgreeOn (a + 1) n m m' := h.mono (by omega) (by omega)
    simp [readBytes, h0, ih ht]

/-- If the memory holds `bs` byte by byte at address `a`, then reading gives `bs`. -/
theorem readBytes_eq_of_forall {m : Mem} {a : Nat} {bs : Bytes}
    (h : ∀ (j : Nat) (hj : j < bs.length), m (a + j) = bs[j]) : readBytes m a bs.length = bs := by
  induction bs generalizing a with
  | nil => rfl
  | cons b bs ih =>
    have h0 : m a = b := h 0 (by simp)
    have ht : readBytes m (a + 1) bs.length = bs := by
      refine ih fun j hj => ?_
      have := h (j + 1) (by simpa using hj)
      simpa [Nat.add_assoc, Nat.add_comm 1 j] using this
    simp [readBytes, h0, ht]

theorem readBytes_writeBytes_self (m : Mem) (a : Nat) (bs : Bytes) :
    readBytes (writeBytes m a bs) a bs.length = bs :=
  readBytes_eq_of_forall fun _ hj => writeBytes_of_mem m bs hj

theorem getElem?_readBytes (m : Mem) (a n : Nat) {j : Nat} (h : j < n) :
    (readBytes m a n)[j]? = some (m (a + j)) := by
  induction n generalizing a j with
  | zero => exact absurd h (Nat.not_lt_zero j)
  | succ n ih =>
    cases j with
    | zero => rfl
    | succ j =>
      have hj := ih (a + 1) (j := j) (by omega)
      simpa [readBytes, Nat.add_assoc, Nat.add_comm 1 j] using hj

theorem readBytes_add (m : Mem) (a n k : Nat) :
    readBytes m a (n + k) = readBytes m a n ++ readBytes m (a + n) k := by
  induction n generalizing a with
  | zero => simp [readBytes]
  | succ n ih =>
    rw [show n + 1 + k = (n + k) + 1 by omega]
    simp [readBytes, ih, Nat.add_assoc, Nat.add_comm 1 n]

/-! ## Little-endian integers -/

@[simp] theorem length_le (n v : Nat) : (le n v).length = n := by
  induction n generalizing v with
  | zero => rfl
  | succ n ih => simp [le, ih]

theorem ofLe_le (n v : Nat) : ofLe (le n v) = v % 256 ^ n := by
  induction n generalizing v with
  | zero => simp [le, ofLe, Nat.mod_one]
  | succ n ih =>
    have hb : (UInt8.ofNat v).toNat = v % 256 := by simp
    rw [le, ofLe, ih, hb, Nat.pow_succ, Nat.mul_comm (256 ^ n) 256, Nat.mod_mul]

theorem ofLe_lt (bs : Bytes) : ofLe bs < 256 ^ bs.length := by
  induction bs with
  | nil => simp [ofLe]
  | cons b bs ih =>
    have hb : b.toNat < 256 := b.toNat_lt
    simp only [ofLe, List.length_cons, Nat.pow_succ]
    omega

theorem load_lt (m : Mem) (a n : Nat) : load m a n < 256 ^ n := by
  simpa [load] using ofLe_lt (readBytes m a n)

theorem load_congr {m m' : Mem} {a n : Nat} (h : AgreeOn a n m m') : load m a n = load m' a n := by
  rw [load, load, readBytes_congr h]

theorem load_store_self (m : Mem) (a n v : Nat) : load (store m a n v) a n = v % 256 ^ n := by
  have h := readBytes_writeBytes_self m a (le n v)
  rw [length_le] at h
  rw [load, store, h, ofLe_le]

theorem agreeOn_store (m : Mem) {a b n k v : Nat} (h : b + k ≤ a ∨ a + n ≤ b) :
    AgreeOn b k m (store m a n v) :=
  agreeOn_writeBytes m _ (by simpa using h)

/-- A store leaves the integers outside its range alone. -/
theorem load_store_of_apart (m : Mem) {a b n k v : Nat} (h : b + k ≤ a ∨ a + n ≤ b) :
    load (store m a n v) b k = load m b k :=
  (load_congr (agreeOn_store m h)).symm

/-! ## Structure fields -/

theorem getField_congr {m m' : Mem} {p size : Nat} {f : Field} (h : AgreeOn p size m m')
    (hf : f.off + f.width ≤ size) : getField m p f = getField m' p f :=
  load_congr (h.mono (by omega) (by omega))

theorem getField_setField_self (m : Mem) (p v : Nat) (f : Field) :
    getField (setField m p f v) p f = v % 256 ^ f.width :=
  load_store_self ..

/-- An assignment leaves the other fields alone. -/
theorem getField_setField_of_apart (m : Mem) {p q v : Nat} {f g : Field}
    (h : q + g.off + g.width ≤ p + f.off ∨ p + f.off + f.width ≤ q + g.off) :
    getField (setField m p f v) q g = getField m q g :=
  load_store_of_apart m h

/-- An assignment leaves the other fields of the same structure alone. -/
theorem getField_setField_ne (m : Mem) {p v : Nat} {f g : Field}
    (h : g.off + g.width ≤ f.off ∨ f.off + f.width ≤ g.off) :
    getField (setField m p f v) p g = getField m p g :=
  getField_setField_of_apart m (by omega)

theorem agreeOn_setField (m : Mem) {p b k v : Nat} {f : Field}
    (h : b + k ≤ p + f.off ∨ p + f.off + f.width ≤ b) : AgreeOn b k m (setField m p f v) :=
  agreeOn_store m h

/-! ## C strings -/

/-- A C string is at least as long as the bytes before its first NUL. -/
theorem le_length_cstr {m : Mem} {a n k : Nat} (h : ∀ i < k, m (a + i) ≠ 0) (hk : k ≤ n) :
    k ≤ (cstr m a n).length := by
  induction k generalizing a n with
  | zero => exact Nat.zero_le _
  | succ k ih =>
    obtain ⟨n, rfl⟩ : ∃ n', n = n' + 1 := ⟨n - 1, by omega⟩
    have hrest : k ≤ (cstr m (a + 1) n).length := by
      refine ih (fun i hi => ?_) (by omega)
      have := h (i + 1) (by omega)
      rwa [Nat.add_comm i 1, ← Nat.add_assoc] at this
    have h0 : m a ≠ 0 := h 0 (Nat.succ_pos k)
    rw [cstr, if_neg h0, List.length_cons]
    omega

/-- If the memory holds `bs` and a NUL at `a`, the C string there is `bs` up to its first NUL. -/
theorem cstr_of_readBytes {m : Mem} {a n : Nat} {bs : Bytes}
    (h : readBytes m a (bs.length + 1) = bs ++ [0]) (hn : bs.length < n) :
    cstr m a n = bs.takeWhile (· ≠ 0) := by
  induction bs generalizing a n with
  | nil =>
    have h0 : m a = 0 := by simpa [readBytes] using h
    obtain ⟨n, rfl⟩ : ∃ k, n = k + 1 := ⟨n - 1, by simp at hn; omega⟩
    simp [cstr, h0]
  | cons b bs ih =>
    obtain ⟨n, rfl⟩ : ∃ k, n = k + 1 := ⟨n - 1, by simp at hn; omega⟩
    simp only [List.length_cons, readBytes, List.cons_append, List.cons.injEq] at h
    obtain ⟨h0, ht⟩ := h
    have := ih ht (by simp at hn; omega)
    by_cases hb : b = 0
    · simp [cstr, h0, hb]
    · simp [cstr, h0, hb, this]

end ByteMem
