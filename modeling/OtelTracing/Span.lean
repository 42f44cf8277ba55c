import OtelTracing.Lib.ByteMem

/-!
# Spans and their arena

`struct otel_span` and the inline functions of `oteltracing.h` that build and read it. A span holds
its strings, attribute records and event records in one byte arena and refers to them by 16-bit
offsets; `otelNil` marks an absent string or the end of a list. A pointer to a record is the offset
of the record in the arena, and a null pointer is `none`.

Every definition has the words of the C identifier it stands for (`otelArenaAlloc` is
`otel_arena_alloc`). Offsets and counters are natural numbers, reduced modulo the width of the C
field wherever the code stores them. A `const char *` argument is `none` for `NULL` and otherwise
the bytes it points to.
-/

namespace OtelTracing

open ByteMem

/-! ## Constants -/

def otelSpanArena : Nat := 4024

def otelArenaAlign : UInt64 := 8

def otelNil : Nat := 0xFFFF

def otelFlagRecording : UInt8 := 1

inductive OtelSpanKind
  | internal | server | client | producer | consumer
  deriving DecidableEq, Repr

/-- The byte that stands for a kind. -/
def OtelSpanKind.code : OtelSpanKind → UInt8
  | .internal => 0 | .server => 1 | .client => 2 | .producer => 3 | .consumer => 4

inductive OtelAttrType
  | str | i64 | u64 | f64 | bool
  deriving DecidableEq, Repr

/-- The byte that stands for an attribute type. -/
def OtelAttrType.code : OtelAttrType → Nat
  | .str => 0 | .i64 => 1 | .u64 => 2 | .f64 => 3 | .bool => 4

/-- The case of `switch (a->type)` that a type byte selects; `none` is the default case. -/
def OtelAttrType.ofCode : Nat → Option OtelAttrType
  | 0 => some .str | 1 => some .i64 | 2 => some .u64 | 3 => some .f64 | 4 => some .bool
  | _ => none

inductive OtelStatus
  | unset | ok | error
  deriving DecidableEq, Repr

/-- The byte that stands for a status. -/
def OtelStatus.code : OtelStatus → UInt8
  | .unset => 0 | .ok => 1 | .error => 2

/-! ## Records -/

def sizeofOtelAttr : Nat := 16

namespace OtelAttr

def next : Field := ⟨0, 2⟩
def key : Field := ⟨2, 2⟩
def val : Field := ⟨4, 2⟩
def type : Field := ⟨6, 1⟩
/-- `v.i`, `v.u` and `v.d`, which share their eight bytes -/
def v : Field := ⟨8, 8⟩
/-- `v.b`, an `int` in the low four bytes of the union -/
def vb : Field := ⟨8, 4⟩

end OtelAttr

/-- `sizeof(struct otel_event)`; four bytes of padding precede `time_unix_ns`. -/
def sizeofOtelEvent : Nat := 24

namespace OtelEvent

def next : Field := ⟨0, 2⟩
def name : Field := ⟨2, 2⟩
def attrHead : Field := ⟨4, 2⟩
def attrTail : Field := ⟨6, 2⟩
def numAttrs : Field := ⟨8, 1⟩
def droppedAttrs : Field := ⟨9, 1⟩
def timeUnixNs : Field := ⟨16, 8⟩

end OtelEvent

structure OtelSpan where
  traceId : Vector UInt8 16
  spanId : UInt64
  parentId : UInt64
  startUnixNs : UInt64
  endUnixNs : UInt64
  name : Nat
  statusMessage : Nat
  attrHead : Nat
  attrTail : Nat
  eventHead : Nat
  eventTail : Nat
  arenaUsed : Nat
  numAttrs : Nat
  numEvents : Nat
  kind : UInt8
  flags : UInt8
  status : UInt8
  droppedAttrs : Nat
  droppedEvents : Nat
  arena : Mem

/-- A span whose bytes are all zero. -/
def zeroSpan : OtelSpan where
  traceId := Vector.replicate 16 0
  spanId := 0
  parentId := 0
  startUnixNs := 0
  endUnixNs := 0
  name := 0
  statusMessage := 0
  attrHead := 0
  attrTail := 0
  eventHead := 0
  eventTail := 0
  arenaUsed := 0
  numAttrs := 0
  numEvents := 0
  kind := 0
  flags := 0
  status := 0
  droppedAttrs := 0
  droppedEvents := 0
  arena _ := 0

/-- The field `f` of the record at `p`. -/
def OtelSpan.get (s : OtelSpan) (p : Nat) (f : Field) : Nat := getField s.arena p f

/-- Assign `v` to the field `f` of the record at `p`. -/
def OtelSpan.set (s : OtelSpan) (p : Nat) (f : Field) (v : Nat) : OtelSpan :=
  { s with arena := setField s.arena p f v }

def otelSpanRecording (s : OtelSpan) : Bool := s.flags &&& otelFlagRecording ≠ 0

/-! ## Allocation -/

/-- `otel_arena_alloc`: the offset of `n` fresh bytes, or `otelNil`. The sums are those of a 64-bit
`size_t`, and both results are cast to `uint16_t`. -/
def otelArenaAlloc (s : OtelSpan) (n : UInt64) : OtelSpan × Nat :=
  let off := (UInt64.ofNat s.arenaUsed + (otelArenaAlign - 1)) &&& ~~~(otelArenaAlign - 1)
  let stop := off + ((n + (otelArenaAlign - 1)) &&& ~~~(otelArenaAlign - 1))
  if stop > UInt64.ofNat otelSpanArena then
    (s, otelNil)
  else
    ({ s with arenaUsed := stop.toNat % 2 ^ 16 }, off.toNat % 2 ^ 16)

/-- `otel_arena_putn`: copy `len` bytes of `str` and a NUL into the arena. -/
def otelArenaPutn (s : OtelSpan) (str : Option Bytes) (len : UInt64) : OtelSpan × Nat :=
  match str with
  | none => (s, otelNil)
  | some bytes =>
    let r := otelArenaAlloc s (len + 1)
    if r.2 = otelNil then
      (r.1, otelNil)
    else
      let copied := writeBytes r.1.arena r.2 (bytes.takeD len.toNat 0)
      ({ r.1 with arena := writeBytes copied (r.2 + len.toNat) [0] }, r.2)

def strlen (str : Bytes) : Nat := (str.takeWhile (· ≠ 0)).length

def otelArenaPut (s : OtelSpan) (str : Option Bytes) : OtelSpan × Nat :=
  match str with
  | none => (s, otelNil)
  | some bytes => otelArenaPutn s str (UInt64.ofNat (strlen bytes))

/-! ## Read accessors -/

/-- The result of `otel_span_strv`: the literal `""` or a pointer into the arena. -/
inductive ArenaStr
  | empty
  | arena (off : Nat)
  deriving DecidableEq, Repr

/-- The C string that a pointer returned by `otel_span_strv` points to. -/
def ArenaStr.bytes (s : OtelSpan) : ArenaStr → Bytes
  | .empty => []
  | .arena off => cstr s.arena off (otelSpanArena - off)

def otelSpanStrv (off : Nat) : ArenaStr := if off = otelNil then .empty else .arena off

/-- The record that an offset refers to: `NULL` for `otelNil`. -/
def recordAt (off : Nat) : Option Nat := if off = otelNil then none else some off

def otelSpanName (s : OtelSpan) : ArenaStr := otelSpanStrv s.name

def otelSpanStatusMessage (s : OtelSpan) : ArenaStr := otelSpanStrv s.statusMessage

def otelAttrFirst (s : OtelSpan) : Option Nat := recordAt s.attrHead

def otelAttrNext (s : OtelSpan) (a : Nat) : Option Nat := recordAt (s.get a OtelAttr.next)

def otelAttrKey (s : OtelSpan) (a : Nat) : ArenaStr := otelSpanStrv (s.get a OtelAttr.key)

def otelAttrStrval (s : OtelSpan) (a : Nat) : ArenaStr := otelSpanStrv (s.get a OtelAttr.val)

def otelEventFirst (s : OtelSpan) : Option Nat := recordAt s.eventHead

def otelEventNext (s : OtelSpan) (e : Nat) : Option Nat := recordAt (s.get e OtelEvent.next)

def otelEventName (s : OtelSpan) (e : Nat) : ArenaStr := otelSpanStrv (s.get e OtelEvent.name)

def otelEventAttrFirst (s : OtelSpan) (e : Nat) : Option Nat :=
  recordAt (s.get e OtelEvent.attrHead)

/-! ## Attributes -/

/-- The value argument of the five `otel_*_attr_*` functions. -/
inductive AttrArg
  | str (value : Option Bytes)
  | strn (value : Option Bytes) (len : UInt64)
  | i64 (value : Int64)
  | u64 (value : UInt64)
  | bool (value : Int32)

/-- What the five `otel_*_attr_*` functions do with the fresh record `a`. -/
def setAttrValue (s : OtelSpan) (a : Nat) : AttrArg → OtelSpan
  | .str value =>
    let s := s.set a OtelAttr.type OtelAttrType.str.code
    let r := otelArenaPut s value
    r.1.set a OtelAttr.val r.2
  | .strn value len =>
    let s := s.set a OtelAttr.type OtelAttrType.str.code
    let r := otelArenaPutn s value len
    r.1.set a OtelAttr.val r.2
  | .i64 value =>
    let s := s.set a OtelAttr.type OtelAttrType.i64.code
    s.set a OtelAttr.v value.toUInt64.toNat
  | .u64 value =>
    let s := s.set a OtelAttr.type OtelAttrType.u64.code
    s.set a OtelAttr.v value.toNat
  | .bool value =>
    let s := s.set a OtelAttr.type OtelAttrType.bool.code
    s.set a OtelAttr.vb (if value ≠ 0 then 1 else 0)

/-- The assignments to a fresh attribute record `a` with the key at `koff`. -/
def initAttr (s : OtelSpan) (a koff : Nat) : OtelSpan :=
  (((s.set a OtelAttr.next otelNil).set a OtelAttr.key koff).set a OtelAttr.val otelNil).set a
    OtelAttr.type OtelAttrType.str.code

def otelSpanAttr_ (s : OtelSpan) (key : Option Bytes) : OtelSpan × Option Nat :=
  if !otelSpanRecording s then
    (s, none)
  else
    let k := otelArenaPut s key
    let r := otelArenaAlloc k.1 (UInt64.ofNat sizeofOtelAttr)
    let s := r.1
    if k.2 = otelNil ∨ r.2 = otelNil then
      ({ s with droppedAttrs := if s.droppedAttrs < 255 then s.droppedAttrs + 1
                                else s.droppedAttrs }, none)
    else
      let s := initAttr s r.2 k.2
      let s := if s.attrTail = otelNil then { s with attrHead := r.2 }
               else s.set s.attrTail OtelAttr.next r.2
      ({ s with attrTail := r.2, numAttrs := (s.numAttrs + 1) % 2 ^ 16 }, some r.2)

/-- The body that the five `otel_span_attr_*` functions share. -/
def otelSpanAttr (s : OtelSpan) (key : Option Bytes) (arg : AttrArg) : OtelSpan :=
  match otelSpanAttr_ s key with
  | (s, none) => s
  | (s, some a) => setAttrValue s a arg

def otelSpanAttrStr (s : OtelSpan) (key value : Option Bytes) : OtelSpan :=
  otelSpanAttr s key (.str value)

def otelSpanAttrStrn (s : OtelSpan) (key value : Option Bytes) (len : UInt64) : OtelSpan :=
  otelSpanAttr s key (.strn value len)

def otelSpanAttrI64 (s : OtelSpan) (key : Option Bytes) (value : Int64) : OtelSpan :=
  otelSpanAttr s key (.i64 value)

def otelSpanAttrU64 (s : OtelSpan) (key : Option Bytes) (value : UInt64) : OtelSpan :=
  otelSpanAttr s key (.u64 value)

def otelSpanAttrBool (s : OtelSpan) (key : Option Bytes) (value : Int32) : OtelSpan :=
  otelSpanAttr s key (.bool value)

/-! ## Events -/

/-- The assignments to a fresh event record `e` with the name at `noff`. -/
def initEvent (s : OtelSpan) (e noff : Nat) (now : UInt64) : OtelSpan :=
  let s := ((s.set e OtelEvent.next otelNil).set e OtelEvent.name noff).set e
    OtelEvent.attrHead otelNil
  let s := ((s.set e OtelEvent.attrTail otelNil).set e OtelEvent.numAttrs 0).set e
    OtelEvent.droppedAttrs 0
  s.set e OtelEvent.timeUnixNs now.toNat

/-- `otel_span_event_`; `now` is what `OT.clock()` returns. -/
def otelSpanEvent_ (s : OtelSpan) (name : Option Bytes) (now : UInt64) : OtelSpan × Option Nat :=
  let n := otelArenaPut s name
  let r := otelArenaAlloc n.1 (UInt64.ofNat sizeofOtelEvent)
  let s := r.1
  if r.2 = otelNil then
    ({ s with droppedEvents := if s.droppedEvents < 255 then s.droppedEvents + 1
                               else s.droppedEvents }, none)
  else
    let s := initEvent s r.2 n.2 now
    let s := if s.eventTail = otelNil then { s with eventHead := r.2 }
             else s.set s.eventTail OtelEvent.next r.2
    ({ s with eventTail := r.2, numEvents := (s.numEvents + 1) % 2 ^ 16 }, some r.2)

def otelSpanEvent (s : OtelSpan) (name : Option Bytes) (now : UInt64) : OtelSpan × Option Nat :=
  if !otelSpanRecording s then (s, none) else otelSpanEvent_ s name now

def otelEventAttr_ (s : OtelSpan) (e : Option Nat) (key : Option Bytes) : OtelSpan × Option Nat :=
  match e with
  | none => (s, none)
  | some e =>
    let k := otelArenaPut s key
    let r := otelArenaAlloc k.1 (UInt64.ofNat sizeofOtelAttr)
    let s := r.1
    if k.2 = otelNil ∨ r.2 = otelNil then
      (if s.get e OtelEvent.droppedAttrs < 255 then
         s.set e OtelEvent.droppedAttrs (s.get e OtelEvent.droppedAttrs + 1)
       else s, none)
    else
      let s := initAttr s r.2 k.2
      let s := if s.get e OtelEvent.attrTail = otelNil then s.set e OtelEvent.attrHead r.2
               else s.set (s.get e OtelEvent.attrTail) OtelAttr.next r.2
      let s := s.set e OtelEvent.attrTail r.2
      (s.set e OtelEvent.numAttrs (s.get e OtelEvent.numAttrs + 1), some r.2)

/-- The body that the five `otel_event_attr_*` functions share. -/
def otelEventAttr (s : OtelSpan) (e : Option Nat) (key : Option Bytes) (arg : AttrArg) :
    OtelSpan :=
  match otelEventAttr_ s e key with
  | (s, none) => s
  | (s, some a) => setAttrValue s a arg

def otelEventAttrStr (s : OtelSpan) (e : Option Nat) (key value : Option Bytes) : OtelSpan :=
  otelEventAttr s e key (.str value)

def otelEventAttrStrn (s : OtelSpan) (e : Option Nat) (key value : Option Bytes) (len : UInt64) :
    OtelSpan :=
  otelEventAttr s e key (.strn value len)

def otelEventAttrI64 (s : OtelSpan) (e : Option Nat) (key : Option Bytes) (value : Int64) :
    OtelSpan :=
  otelEventAttr s e key (.i64 value)

def otelEventAttrU64 (s : OtelSpan) (e : Option Nat) (key : Option Bytes) (value : UInt64) :
    OtelSpan :=
  otelEventAttr s e key (.u64 value)

def otelEventAttrBool (s : OtelSpan) (e : Option Nat) (key : Option Bytes) (value : Int32) :
    OtelSpan :=
  otelEventAttr s e key (.bool value)

/-! ## Name, status, start and end -/

def otelSpanSetName (s : OtelSpan) (name : Option Bytes) : OtelSpan :=
  if !otelSpanRecording s then
    s
  else
    let n := otelArenaPut s name
    if n.2 ≠ otelNil then { n.1 with name := n.2 } else n.1

/-- `otel_span_set_status`; the status is cast to `uint8_t`. -/
def otelSpanSetStatus (s : OtelSpan) (status : UInt32) (message : Option Bytes) : OtelSpan :=
  if !otelSpanRecording s then
    s
  else
    let m := otelArenaPut { s with status := status.toUInt8 } message
    { m.1 with statusMessage := m.2 }

/-- `otel_span_init`; `now` is what `OT.clock()` returns. -/
def otelSpanInit (s : OtelSpan) (name : Option Bytes) (kind : UInt8) (now : UInt64) : OtelSpan :=
  let s := { s with
    kind := kind, status := OtelStatus.unset.code, statusMessage := otelNil
    numAttrs := 0, numEvents := 0, droppedAttrs := 0, droppedEvents := 0
    endUnixNs := 0, startUnixNs := now, flags := otelFlagRecording
    arenaUsed := 0, attrHead := otelNil, attrTail := otelNil
    eventHead := otelNil, eventTail := otelNil }
  let n := otelArenaPut s name
  { n.1 with name := n.2 }

end OtelTracing
