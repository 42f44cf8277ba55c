import OtelTracing.Reference

/-!
# The layout of a span's arena

A layout lists the strings, attribute records and event records that a span currently refers to,
with their offsets, in list order. Its cells say what the bytes at these offsets must be: a string is
followed by a NUL, a record holds the offsets of its key, name or value, the `next` field holds the
offset of the following record and `otelNil` at the end of the list.

`Represents s L` states that the span `s` is laid out as `L`; it is the invariant of the annotation
calls.
-/

namespace OtelTracing

open ByteMem Cells

/-- A string stored in the arena. -/
structure StrNode where
  off : Nat
  bytes : Bytes

/-- The value of a stored attribute; a string value is itself stored in the arena. -/
inductive ValNode
  | str (v : Option StrNode)
  | i64 (v : Int64)
  | u64 (v : UInt64)
  | bool (v : Bool)

/-- An attribute record stored in the arena. -/
structure AttrNode where
  off : Nat
  key : StrNode
  value : ValNode

/-- An event record stored in the arena, with its attribute list. -/
structure EventNode where
  off : Nat
  name : Option StrNode
  time : UInt64
  attrs : List AttrNode
  dropped : Nat

/-- Everything that a span refers to. -/
structure Layout where
  name : Option StrNode
  message : Option StrNode
  attrs : List AttrNode
  events : List EventNode

/-! ## Offsets -/

/-- The offset field that refers to an optional string. -/
def strOff : Option StrNode → Nat
  | none => otelNil
  | some n => n.off

/-! ## Cells -/

/-- A string and its NUL. -/
def strCell (n : StrNode) : Cell where
  off := n.off
  size := n.bytes.length + 1
  holds m := readBytes m n.off (n.bytes.length + 1) = n.bytes ++ [0]
  local_ h hs := by rw [← readBytes_congr h]; exact hs

/-- The type byte and the value of an attribute record. -/
def ValNode.holds (m : Mem) (p : Nat) : ValNode → Prop
  | .str v => getField m p OtelAttr.type = OtelAttrType.str.code ∧ getField m p OtelAttr.val = strOff v
  | .i64 v => getField m p OtelAttr.type = OtelAttrType.i64.code ∧
      getField m p OtelAttr.v = v.toUInt64.toNat
  | .u64 v => getField m p OtelAttr.type = OtelAttrType.u64.code ∧ getField m p OtelAttr.v = v.toNat
  | .bool v => getField m p OtelAttr.type = OtelAttrType.bool.code ∧
      getField m p OtelAttr.vb = if v then 1 else 0

/-- The type byte and the value lie in the bytes 4 to 15 of a record. -/
theorem ValNode.holds_congr {m m' : Mem} {p : Nat} {v : ValNode} (h : AgreeOn (p + 4) 12 m m')
    (hv : v.holds m p) : v.holds m' p := by
  have ht : getField m p OtelAttr.type = getField m' p OtelAttr.type :=
    load_congr (h.mono (by simp [OtelAttr.type]) (by simp [OtelAttr.type]))
  have hval : getField m p OtelAttr.val = getField m' p OtelAttr.val :=
    load_congr (h.mono (by simp [OtelAttr.val]) (by simp [OtelAttr.val]))
  have hnum : getField m p OtelAttr.v = getField m' p OtelAttr.v :=
    load_congr (h.mono (by simp [OtelAttr.v]) (by simp [OtelAttr.v]))
  have hb : getField m p OtelAttr.vb = getField m' p OtelAttr.vb :=
    load_congr (h.mono (by simp [OtelAttr.vb]) (by simp [OtelAttr.vb]))
  cases v <;> simpa only [ValNode.holds, ht, hval, hnum, hb] using hv

/-- An attribute record followed by the record at `nx`. -/
def attrCell (a : AttrNode) (nx : Nat) : Cell where
  off := a.off
  size := sizeofOtelAttr
  holds m := getField m a.off OtelAttr.next = nx ∧ getField m a.off OtelAttr.key = a.key.off ∧
    a.value.holds m a.off
  local_ h hs := by
    obtain ⟨hnx, hkey, hval⟩ := hs
    exact ⟨by rw [← getField_congr h (by decide)]; exact hnx,
      by rw [← getField_congr h (by decide)]; exact hkey,
      ValNode.holds_congr (h.mono (by omega) (by simp [sizeofOtelAttr])) hval⟩

/-- The cells of an optional string. -/
def optCells : Option StrNode → List Cell
  | none => []
  | some n => [strCell n]

/-- The cells of an attribute's value. -/
def ValNode.cells : ValNode → List Cell
  | .str v => optCells v
  | _ => []

/-- Attribute lists: a record owns the cells of its key and of its value. -/
def attrList : Linked AttrNode where
  off := AttrNode.off
  size := sizeofOtelAttr
  cell := attrCell
  rest a := strCell a.key :: a.value.cells
  cell_off _ _ := rfl
  cell_size _ _ := rfl

/-- An event record followed by the record at `nx`. -/
def eventCell (e : EventNode) (nx : Nat) : Cell where
  off := e.off
  size := sizeofOtelEvent
  holds m := getField m e.off OtelEvent.next = nx ∧
    getField m e.off OtelEvent.name = strOff e.name ∧
    getField m e.off OtelEvent.attrHead = attrList.first e.attrs otelNil ∧
    getField m e.off OtelEvent.attrTail = attrList.last e.attrs otelNil ∧
    getField m e.off OtelEvent.numAttrs = e.attrs.length ∧
    getField m e.off OtelEvent.droppedAttrs = e.dropped ∧
    getField m e.off OtelEvent.timeUnixNs = e.time.toNat
  local_ h hs := by
    obtain ⟨h1, h2, h3, h4, h5, h6, h7⟩ := hs
    refine ⟨?_, ?_, ?_, ?_, ?_, ?_, ?_⟩
    · rw [← getField_congr h (by decide)]; exact h1
    · rw [← getField_congr h (by decide)]; exact h2
    · rw [← getField_congr h (by decide)]; exact h3
    · rw [← getField_congr h (by decide)]; exact h4
    · rw [← getField_congr h (by decide)]; exact h5
    · rw [← getField_congr h (by decide)]; exact h6
    · rw [← getField_congr h (by decide)]; exact h7

/-- Event lists: a record owns the cells of its name and of its attribute list. -/
def eventList : Linked EventNode where
  off := EventNode.off
  size := sizeofOtelEvent
  cell := eventCell
  rest e := optCells e.name ++ attrList.cells e.attrs otelNil
  cell_off _ _ := rfl
  cell_size _ _ := rfl

/-- The cells of a layout. -/
def Layout.cells (L : Layout) : List Cell :=
  optCells L.name ++ (optCells L.message ++ (attrList.cells L.attrs otelNil ++
    eventList.cells L.events otelNil))

/-! ## The span that a layout describes -/

/-- The recording span `s` is laid out as `L`. -/
structure Represents (s : OtelSpan) (L : Layout) : Prop where
  recording : otelSpanRecording s = true
  used_mod : s.arenaUsed % 8 = 0
  used_le : s.arenaUsed ≤ otelSpanArena
  sat : Sat 8 s.arenaUsed L.cells s.arena
  name : s.name = strOff L.name
  statusMessage : s.statusMessage = strOff L.message
  attrHead : s.attrHead = attrList.first L.attrs otelNil
  attrTail : s.attrTail = attrList.last L.attrs otelNil
  eventHead : s.eventHead = eventList.first L.events otelNil
  eventTail : s.eventTail = eventList.last L.events otelNil
  numAttrs : s.numAttrs = L.attrs.length
  numEvents : s.numEvents = L.events.length

/-- The bytes of an optional string. -/
def strBytes (n : Option StrNode) : Bytes := (n.map StrNode.bytes).getD []

def ValNode.view : ValNode → AttrValue
  | .str v => .str (strBytes v)
  | .i64 v => .i64 v
  | .u64 v => .u64 v
  | .bool v => .bool v

def AttrNode.view (a : AttrNode) : AttrView := { key := a.key.bytes, value := a.value.view }

def EventNode.view (e : EventNode) : EventView where
  name := strBytes e.name
  time := e.time
  attrs := e.attrs.map AttrNode.view
  dropped := e.dropped

/-- The value that a laid-out span stands for. -/
def Layout.view (L : Layout) (s : OtelSpan) : SpanView where
  used := s.arenaUsed
  name := strBytes L.name
  status := s.status
  message := strBytes L.message
  attrs := L.attrs.map AttrNode.view
  events := L.events.map EventNode.view
  droppedAttrs := s.droppedAttrs
  droppedEvents := s.droppedEvents

end OtelTracing
