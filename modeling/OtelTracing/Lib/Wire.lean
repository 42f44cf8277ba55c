import OtelTracing.Lib.ByteMem

/-!
# The protobuf wire format

A message is a sequence of entries, each with a field number and a value: a varint, a 64-bit integer
or a byte string (which may itself be an encoded message). Decoding inverts encoding, and the length
of a varint grows by one byte for every seven bits.
-/

namespace Wire

open ByteMem

/-! ## Varints -/

def varintAux : Nat → Nat → Bytes
  | 0, n => [UInt8.ofNat n]
  | fuel + 1, n =>
    if n < 128 then [UInt8.ofNat n] else UInt8.ofNat (n % 128 + 128) :: varintAux fuel (n / 128)

/-- Seven bits a byte, the lowest first; the high bit of a byte says that more follow. -/
def varint (n : Nat) : Bytes := varintAux n n

def readVarint : Bytes → Option (Nat × Bytes)
  | [] => none
  | b :: bs =>
    if b.toNat < 128 then some (b.toNat, bs)
    else (readVarint bs).map fun r => (b.toNat - 128 + 128 * r.1, r.2)

theorem readVarint_varintAux {fuel n : Nat} (h : n ≤ fuel) (rest : Bytes) :
    readVarint (varintAux fuel n ++ rest) = some (n, rest) := by
  induction fuel generalizing n with
  | zero =>
    obtain rfl : n = 0 := by omega
    rfl
  | succ fuel ih =>
    unfold varintAux
    by_cases hn : n < 128
    · have hb : (UInt8.ofNat n).toNat = n := by
        rw [UInt8.toNat_ofNat']
        omega
      rw [if_pos hn, List.singleton_append, readVarint, hb, if_pos hn]
    · have hb : (UInt8.ofNat (n % 128 + 128)).toNat = n % 128 + 128 := by
        rw [UInt8.toNat_ofNat']
        omega
      rw [if_neg hn, List.cons_append, readVarint, hb, if_neg (by omega), ih (by omega)]
      simp only [Option.map_some, Option.some.injEq, Prod.mk.injEq, and_true]
      omega

theorem readVarint_varint (n : Nat) (rest : Bytes) :
    readVarint (varint n ++ rest) = some (n, rest) :=
  readVarint_varintAux (Nat.le_refl n) rest

theorem length_varintAux_pos (fuel n : Nat) : 0 < (varintAux fuel n).length := by
  cases fuel with
  | zero => exact Nat.one_pos
  | succ fuel =>
    unfold varintAux
    split_ifs
    · exact Nat.one_pos
    · exact Nat.succ_pos _

theorem length_varintAux_le {fuel n k : Nat} (h : n < 128 ^ (k + 1)) :
    (varintAux fuel n).length ≤ k + 1 := by
  induction fuel generalizing n k with
  | zero => exact Nat.succ_le_succ (Nat.zero_le k)
  | succ fuel ih =>
    unfold varintAux
    by_cases hn : n < 128
    · rw [if_pos hn]
      exact Nat.succ_le_succ (Nat.zero_le k)
    · rw [if_neg hn, List.length_cons]
      cases k with
      | zero => exact absurd (by simpa using h) hn
      | succ k =>
        have hdiv : n / 128 < 128 ^ (k + 1) := by
          rw [Nat.pow_succ] at h
          exact Nat.div_lt_of_lt_mul (by rw [Nat.mul_comm]; exact h)
        exact Nat.succ_le_succ (ih hdiv)

/-- A number below `128 ^ (k + 1)` takes at most `k + 1` bytes. -/
theorem length_varint_le {n k : Nat} (h : n < 128 ^ (k + 1)) : (varint n).length ≤ k + 1 :=
  length_varintAux_le h

/-! ## Entries -/

inductive Value
  | varint (n : Nat)
  | fixed64 (v : UInt64)
  | bytes (b : Bytes)
  deriving DecidableEq

structure Entry where
  num : Nat
  val : Value
  deriving DecidableEq

def Value.wireType : Value → Nat
  | .varint _ => 0
  | .fixed64 _ => 1
  | .bytes _ => 2

def Value.payload : Value → Bytes
  | .varint n => Wire.varint n
  | .fixed64 v => le 8 v.toNat
  | .bytes b => Wire.varint b.length ++ b

def Entry.encode (e : Entry) : Bytes := varint (e.num * 8 + e.val.wireType) ++ e.val.payload

def encode (es : List Entry) : Bytes := es.flatMap Entry.encode

/-- The value of the given wire type at the start of the bytes. -/
def readValue (wireType : Nat) (bs : Bytes) : Option (Value × Bytes) :=
  match wireType with
  | 0 => (readVarint bs).map fun r => (.varint r.1, r.2)
  | 1 =>
    if 8 ≤ bs.length then some (.fixed64 (UInt64.ofNat (ofLe (bs.take 8))), bs.drop 8) else none
  | 2 => do
    let r ← readVarint bs
    if r.1 ≤ r.2.length then some (.bytes (r.2.take r.1), r.2.drop r.1) else none
  | _ => none

def readEntry (bs : Bytes) : Option (Entry × Bytes) := do
  let tag ← readVarint bs
  let v ← readValue (tag.1 % 8) tag.2
  some (⟨tag.1 / 8, v.1⟩, v.2)

def decodeAux : Nat → Bytes → Option (List Entry)
  | _, [] => some []
  | 0, _ :: _ => none
  | fuel + 1, b :: bs => do
    let r ← readEntry (b :: bs)
    let es ← decodeAux fuel r.2
    some (r.1 :: es)

def decode (bs : Bytes) : Option (List Entry) := decodeAux bs.length bs

theorem readValue_payload (v : Value) (rest : Bytes) :
    readValue v.wireType (v.payload ++ rest) = some (v, rest) := by
  cases v with
  | varint n => simp [readValue, Value.wireType, Value.payload, readVarint_varint]
  | fixed64 v =>
    have hlt : v.toNat < 256 ^ 8 := v.toNat_lt
    have hval : ofLe (le 8 v.toNat) = v.toNat := by rw [ofLe_le, Nat.mod_eq_of_lt hlt]
    have htake : (le 8 v.toNat ++ rest).take 8 = le 8 v.toNat := by
      rw [List.take_append_of_le_length (by simp), List.take_of_length_le (by simp)]
    have hdrop : (le 8 v.toNat ++ rest).drop 8 = rest :=
      List.drop_left' (length_le 8 v.toNat)
    simp only [readValue, Value.wireType, Value.payload, htake, hdrop, hval, UInt64.ofNat_toNat]
    rw [if_pos (by simp)]
  | bytes b =>
    simp only [readValue, Value.wireType, Value.payload, List.append_assoc, readVarint_varint,
      Option.bind_eq_bind, Option.bind_some]
    rw [if_pos (by simp), List.take_left', List.drop_left'] <;> rfl

theorem readEntry_encode (e : Entry) (rest : Bytes) :
    readEntry (e.encode ++ rest) = some (e, rest) := by
  have hwt : e.val.wireType < 8 := by cases e.val <;> simp [Value.wireType]
  have hmod : (e.num * 8 + e.val.wireType) % 8 = e.val.wireType := by omega
  have hdiv : (e.num * 8 + e.val.wireType) / 8 = e.num := by omega
  simp only [readEntry, Entry.encode, List.append_assoc, readVarint_varint, Option.bind_eq_bind,
    Option.bind_some, hmod, readValue_payload, hdiv]

theorem length_encode_pos (e : Entry) : 0 < e.encode.length := by
  have h := length_varintAux_pos (e.num * 8 + e.val.wireType) (e.num * 8 + e.val.wireType)
  rw [Entry.encode, List.length_append, varint]
  omega

theorem decodeAux_encode {es : List Entry} {fuel : Nat} (h : (encode es).length ≤ fuel) :
    decodeAux fuel (encode es) = some es := by
  induction es generalizing fuel with
  | nil => cases fuel <;> rfl
  | cons e es ih =>
    have hpos := length_encode_pos e
    have hcons : encode (e :: es) = e.encode ++ encode es := rfl
    rw [hcons, List.length_append] at h
    obtain ⟨fuel, rfl⟩ : ∃ k, fuel = k + 1 := ⟨fuel - 1, by omega⟩
    obtain ⟨b, bs, hb⟩ := List.exists_cons_of_length_pos (l := encode (e :: es)) (by
      rw [hcons, List.length_append]
      omega)
    have hread : readEntry (b :: bs) = some (e, encode es) := by
      rw [← hb, hcons]
      exact readEntry_encode e _
    rw [hb]
    show ((readEntry (b :: bs)).bind fun r =>
      (decodeAux fuel r.2).bind fun es => some (r.1 :: es)) = _
    rw [hread, Option.bind_some, ih (by omega), Option.bind_some]

/-- Decoding gives back the encoded entries. -/
theorem decode_encode (es : List Entry) : decode (encode es) = some es :=
  decodeAux_encode (Nat.le_refl _)

/-! ## Fields of a message

In proto3 a scalar field with its default value is not written. -/

def scalarBytes (num : Nat) (b : Bytes) : List Entry := if b = [] then [] else [⟨num, .bytes b⟩]

def scalarVarint (num n : Nat) : List Entry := if n = 0 then [] else [⟨num, .varint n⟩]

def scalarFixed64 (num : Nat) (v : UInt64) : List Entry :=
  if v = 0 then [] else [⟨num, .fixed64 v⟩]

/-- One entry for each embedded message. -/
def messages (num : Nat) (bs : List Bytes) : List Entry := bs.map fun b => ⟨num, .bytes b⟩

/-- The values of all entries with the given field number. -/
def all (num : Nat) (es : List Entry) : List Value :=
  es.filterMap fun e => if e.num = num then some e.val else none

def asBytes : Option Value → Bytes
  | some (.bytes b) => b
  | _ => []

def asVarint : Option Value → Nat
  | some (.varint n) => n
  | _ => 0

def asFixed64 : Option Value → UInt64
  | some (.fixed64 v) => v
  | _ => 0

@[simp] theorem all_append (num : Nat) (es fs : List Entry) :
    all num (es ++ fs) = all num es ++ all num fs := List.filterMap_append ..

@[simp] theorem all_scalarBytes_ne {num num' : Nat} (h : num' ≠ num) (b : Bytes) :
    all num (scalarBytes num' b) = [] := by
  unfold scalarBytes
  split_ifs <;> simp [all, h]

@[simp] theorem all_scalarVarint_ne {num num' : Nat} (h : num' ≠ num) (n : Nat) :
    all num (scalarVarint num' n) = [] := by
  unfold scalarVarint
  split_ifs <;> simp [all, h]

@[simp] theorem all_scalarFixed64_ne {num num' : Nat} (h : num' ≠ num) (v : UInt64) :
    all num (scalarFixed64 num' v) = [] := by
  unfold scalarFixed64
  split_ifs <;> simp [all, h]

@[simp] theorem all_messages_ne {num num' : Nat} (h : num' ≠ num) (bs : List Bytes) :
    all num (messages num' bs) = [] := by
  simp [all, messages, h]

@[simp] theorem all_messages (num : Nat) (bs : List Bytes) :
    all num (messages num bs) = bs.map Value.bytes := by
  simp [all, messages, List.filterMap_map]

/-- A scalar field reads back, also when it was left out. -/
@[simp] theorem asBytes_scalarBytes (num : Nat) (b : Bytes) :
    asBytes (all num (scalarBytes num b)).getLast? = b := by
  unfold scalarBytes
  split_ifs with h
  · rw [h]
    rfl
  · simp [all, asBytes]

@[simp] theorem asVarint_scalarVarint (num n : Nat) :
    asVarint (all num (scalarVarint num n)).getLast? = n := by
  unfold scalarVarint
  split_ifs with h
  · rw [h]
    rfl
  · simp [all, asVarint]

@[simp] theorem asFixed64_scalarFixed64 (num : Nat) (v : UInt64) :
    asFixed64 (all num (scalarFixed64 num v)).getLast? = v := by
  unfold scalarFixed64
  split_ifs with h
  · rw [h]
    rfl
  · simp [all, asFixed64]

/-! ## Encoded sizes

A field number below 16 takes a tag of one byte. -/

/-- The length of the encoding. -/
def size (es : List Entry) : Nat := (encode es).length

@[simp] theorem size_nil : size [] = 0 := rfl

@[simp] theorem size_cons (e : Entry) (es : List Entry) :
    size (e :: es) = e.encode.length + size es := by
  rw [size, encode, List.flatMap_cons, List.length_append]
  rfl

@[simp] theorem size_append (es fs : List Entry) : size (es ++ fs) = size es + size fs := by
  rw [size, encode, List.flatMap_append, List.length_append]
  rfl

theorem length_tag_le {f w : Nat} (h : f < 16) (hw : w < 8) :
    (varint (f * 8 + w)).length ≤ 1 :=
  length_varint_le (k := 0) (by omega)

theorem length_bytes_le {f k : Nat} {b : Bytes} (hf : f < 16)
    (h : b.length < 128 ^ (k + 1)) :
    (Entry.encode ⟨f, .bytes b⟩).length ≤ b.length + (k + 2) := by
  have htag := length_tag_le (w := 2) hf (by decide)
  have hlen := length_varint_le h
  simp only [Entry.encode, Value.wireType, Value.payload, List.length_append]
  omega

theorem length_varint_entry_le {f n k : Nat} (hf : f < 16) (h : n < 128 ^ (k + 1)) :
    (Entry.encode ⟨f, .varint n⟩).length ≤ k + 2 := by
  have htag := length_tag_le (w := 0) hf (by decide)
  have hlen := length_varint_le h
  simp only [Entry.encode, Value.wireType, Value.payload, List.length_append]
  omega

theorem length_fixed64_le {f : Nat} (hf : f < 16) (v : UInt64) :
    (Entry.encode ⟨f, .fixed64 v⟩).length ≤ 9 := by
  have htag := length_tag_le (w := 1) hf (by decide)
  simp only [Entry.encode, Value.wireType, Value.payload, List.length_append, length_le]
  omega

theorem size_scalarBytes_le {f k : Nat} {b : Bytes} (hf : f < 16)
    (h : b.length < 128 ^ (k + 1)) : size (scalarBytes f b) ≤ b.length + (k + 2) := by
  unfold scalarBytes
  split_ifs
  · exact Nat.zero_le _
  · have := length_bytes_le hf h
    simpa using this

theorem size_scalarVarint_le {f n k : Nat} (hf : f < 16) (h : n < 128 ^ (k + 1)) :
    size (scalarVarint f n) ≤ k + 2 := by
  unfold scalarVarint
  split_ifs
  · exact Nat.zero_le _
  · have := length_varint_entry_le hf h
    simpa using this

theorem size_scalarFixed64_le {f : Nat} (hf : f < 16) (v : UInt64) :
    size (scalarFixed64 f v) ≤ 9 := by
  unfold scalarFixed64
  split_ifs
  · exact Nat.zero_le _
  · have := length_fixed64_le hf v
    simpa using this

theorem messages_cons (f : Nat) (b : Bytes) (bs : List Bytes) :
    messages f (b :: bs) = ⟨f, .bytes b⟩ :: messages f bs := rfl

/-- Embedded messages of at most `n` bytes each. -/
theorem size_messages_le {f k n : Nat} (bs : List Bytes) (hf : f < 16)
    (hn : n < 128 ^ (k + 1)) (h : ∀ b ∈ bs, b.length ≤ n) :
    size (messages f bs) ≤ (n + (k + 2)) * bs.length := by
  induction bs with
  | nil => exact Nat.zero_le _
  | cons b bs ih =>
    have hb := h b (by simp)
    have hentry := length_bytes_le (k := k) (b := b) hf (by omega)
    have hrest := ih fun c hc => h c (List.mem_cons_of_mem _ hc)
    rw [messages_cons, size_cons, List.length_cons, Nat.mul_succ]
    omega

/-- One embedded message of at most `n` bytes. -/
theorem size_message_le {f k n : Nat} {es : List Entry} (hf : f < 16)
    (hn : n < 128 ^ (k + 1)) (h : size es ≤ n) :
    size (messages f [encode es]) ≤ n + (k + 2) := by
  have hmessages := size_messages_le [encode es] hf hn (by simpa [size] using h)
  simpa using hmessages

/-! A field is at least as long as what it holds. -/

theorem le_length_bytes (f : Nat) (b : Bytes) : b.length ≤ (Entry.encode ⟨f, .bytes b⟩).length := by
  simp only [Entry.encode, Value.payload, List.length_append]
  omega

theorem le_size_scalarBytes (f : Nat) (b : Bytes) : b.length ≤ size (scalarBytes f b) := by
  unfold scalarBytes
  split_ifs with hb
  · rw [hb]
    exact Nat.zero_le _
  · have := le_length_bytes f b
    simpa using this

theorem le_size_messages (k f : Nat) (bs : List Bytes) (h : ∀ b ∈ bs, k ≤ b.length) :
    k * bs.length ≤ size (messages f bs) := by
  induction bs with
  | nil => exact Nat.zero_le _
  | cons b bs ih =>
    have hb := h b (by simp)
    have hentry := le_length_bytes f b
    have hrest := ih fun c hc => h c (List.mem_cons_of_mem _ hc)
    rw [messages_cons, size_cons, List.length_cons, Nat.mul_succ]
    omega

theorem le_size_message (f : Nat) (es : List Entry) : size es ≤ size (messages f [encode es]) := by
  have h := le_size_messages (size es) f [encode es] (by simp [size])
  simpa using h

end Wire
