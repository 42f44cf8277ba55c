import OtelTracing.Start
import OtelTracing.Lib.Linked

/-!
# Spans as values

What a span says once the arena is forgotten: a name, a status, a list of attributes and a list of
events, each event with attributes of its own. `SpanView.call` is the reference behaviour of the
annotation calls on such values. It charges every string, attribute record and event record to a
budget of `otelSpanArena` bytes, in the order in which the code allocates, and drops what does not
fit; it knows nothing of offsets, records or lists.
-/

namespace OtelTracing

open ByteMem Cells

/-- The value of an attribute. -/
inductive AttrValue
  | str (v : Bytes)
  | i64 (v : Int64)
  | u64 (v : UInt64)
  | f64 (bits : UInt64)
  | bool (v : Bool)
  deriving DecidableEq

/-- An attribute. -/
structure AttrView where
  key : Bytes
  value : AttrValue
  deriving DecidableEq

/-- An event with its own attributes. -/
structure EventView where
  name : Bytes
  time : UInt64
  attrs : List AttrView
  dropped : Nat
  deriving DecidableEq

/-- The annotations of a span, and what is used of its budget. -/
structure SpanView where
  used : Nat
  name : Bytes
  status : UInt8
  message : Bytes
  attrs : List AttrView
  events : List EventView
  droppedAttrs : Nat
  droppedEvents : Nat
  deriving DecidableEq

/-- A call on a recording span. An event handle is the position of the event among those accepted
so far; any other number stands for a null handle. -/
inductive Call
  | setName (name : Option Bytes)
  | setStatus (status : UInt32) (message : Option Bytes)
  | attr (key : Option Bytes) (arg : AttrArg)
  | event (name : Option Bytes) (now : UInt64)
  | eventAttr (handle : Nat) (key : Option Bytes) (arg : AttrArg)
  | finish (now : UInt64)

/-! ## Admissible strings -/

/-- The length of a C string fits `size_t` with room to spare. -/
def ShortStr (str : Option Bytes) : Prop := ∀ b ∈ str, b.length < 2 ^ 63

def NulFreeStr (str : Option Bytes) : Prop := ∀ b ∈ str, (0 : UInt8) ∉ b

def AttrArg.Short : AttrArg → Prop
  | .str value => ShortStr value
  | .strn _ len => len.toNat < 2 ^ 63
  | _ => True

/-- The strings of an argument have no NUL byte; a string given with its length is that long. -/
def AttrArg.NulFree : AttrArg → Prop
  | .str value => NulFreeStr value
  | .strn value len => NulFreeStr value ∧ ∀ b ∈ value, len.toNat ≤ b.length
  | _ => True

def Call.Short : Call → Prop
  | .setName name => ShortStr name
  | .setStatus _ message => ShortStr message
  | .attr key arg => ShortStr key ∧ arg.Short
  | .event name _ => ShortStr name
  | .eventAttr _ key arg => ShortStr key ∧ arg.Short
  | .finish _ => True

def Call.NulFree : Call → Prop
  | .setName name => NulFreeStr name
  | .setStatus _ message => NulFreeStr message
  | .attr key arg => NulFreeStr key ∧ arg.NulFree
  | .event name _ => NulFreeStr name
  | .eventAttr _ key arg => NulFreeStr key ∧ arg.NulFree
  | .finish _ => True

/-! ## The budget -/

/-- A multiple of eight bytes is charged for every allocation. -/
def roundUp8 (n : Nat) : Nat := (n + 7) / 8 * 8

/-- Charge `n` bytes to the budget; `none` if they do not fit. -/
def charge (used n : Nat) : Option Nat :=
  if used + roundUp8 n ≤ otelSpanArena then some (used + roundUp8 n) else none

/-- Charge a string of known bytes: what is used afterwards, and the string if it fitted. -/
def chargeBytes (used : Nat) (bytes : Bytes) : Nat × Option Bytes :=
  match charge used (bytes.length + 1) with
  | some used => (used, some bytes)
  | none => (used, none)

/-- Charge a C string, which ends before its first NUL; a null string costs nothing. -/
def chargeStr (used : Nat) : Option Bytes → Nat × Option Bytes
  | none => (used, none)
  | some bytes => chargeBytes used (bytes.takeWhile (· ≠ 0))

/-- Charge the first `len` bytes of a string. -/
def chargeStrn (used : Nat) (len : UInt64) : Option Bytes → Nat × Option Bytes
  | none => (used, none)
  | some bytes => chargeBytes used (bytes.takeD len.toNat 0)

/-- Charge the key and the record of a new attribute. The key is returned if both fitted; a key
without its record, or a record without its key, is still paid for. -/
def chargeAttr (used : Nat) (key : Option Bytes) : Nat × Option Bytes :=
  match charge (chargeStr used key).1 sizeofOtelAttr with
  | some used' => (used', (chargeStr used key).2)
  | none => ((chargeStr used key).1, none)

/-- Charge the value of an accepted attribute; a string that does not fit is empty. -/
def chargeValue (used : Nat) : AttrArg → Nat × AttrValue
  | .str value => ((chargeStr used value).1, .str ((chargeStr used value).2.getD []))
  | .strn value len =>
    ((chargeStrn used len value).1, .str ((chargeStrn used len value).2.getD []))
  | .i64 value => (used, .i64 value)
  | .u64 value => (used, .u64 value)
  | .bool value => (used, .bool (value ≠ 0))

/-! ## The reference behaviour -/

/-- A drop counter stops at 255. -/
def bump (n : Nat) : Nat := if n < 255 then n + 1 else n

/-- Add an attribute to a list: what is used afterwards, and the new list unless it was dropped. -/
def addAttr (used : Nat) (attrs : List AttrView) (key : Option Bytes) (arg : AttrArg) :
    Nat × Option (List AttrView) :=
  match chargeAttr used key with
  | (used, none) => (used, none)
  | (used, some key) =>
    let r := chargeValue used arg
    (r.1, some (attrs ++ [{ key := key, value := r.2 }]))

/-- The reference behaviour of one call. -/
def SpanView.call (v : SpanView) : Call → SpanView
  | .setName name =>
    let r := chargeStr v.used name
    { v with used := r.1, name := r.2.getD v.name }
  | .setStatus status message =>
    let r := chargeStr v.used message
    { v with used := r.1, status := status.toUInt8, message := r.2.getD [] }
  | .attr key arg =>
    match addAttr v.used v.attrs key arg with
    | (used, some attrs) => { v with used := used, attrs := attrs }
    | (used, none) => { v with used := used, droppedAttrs := bump v.droppedAttrs }
  | .event name now =>
    let n := chargeStr v.used name
    match charge n.1 sizeofOtelEvent with
    | some used =>
      { v with used := used
               events := v.events ++ [{ name := n.2.getD [], time := now, attrs := [],
                                        dropped := 0 }] }
    | none => { v with used := n.1, droppedEvents := bump v.droppedEvents }
  | .eventAttr handle key arg =>
    match v.events[handle]? with
    | none => v
    | some e =>
      match addAttr v.used e.attrs key arg with
      | (used, some attrs) => { v with used := used, events := v.events.set handle { e with attrs } }
      | (used, none) =>
        { v with used := used, events := v.events.set handle { e with dropped := bump e.dropped } }
  | .finish _ => v

/-- A freshly started span. -/
def SpanView.start (name : Option Bytes) : SpanView :=
  let r := chargeStr 0 name
  { used := r.1, name := r.2.getD [], status := OtelStatus.unset.code, message := [], attrs := [],
    events := [], droppedAttrs := 0, droppedEvents := 0 }

/-- The reference behaviour of a sequence of calls. -/
def SpanView.calls (v : SpanView) (cs : List Call) : SpanView := cs.foldl SpanView.call v

/-! ## C strings

A string value may contain NUL bytes (`otelSpanAttrStrn` copies a given number of bytes), but a
reader of C strings stops at the first one. -/

/-- The part of a string that a reader of C strings sees. -/
def cutStr (bytes : Bytes) : Bytes := bytes.takeWhile (· ≠ 0)

def AttrValue.cut : AttrValue → AttrValue
  | .str v => .str (cutStr v)
  | v => v

def AttrView.cut (a : AttrView) : AttrView := { key := cutStr a.key, value := a.value.cut }

def EventView.cut (e : EventView) : EventView :=
  { e with name := cutStr e.name, attrs := e.attrs.map AttrView.cut }

def SpanView.cut (v : SpanView) : SpanView :=
  { v with
    name := cutStr v.name
    message := cutStr v.message
    attrs := v.attrs.map AttrView.cut
    events := v.events.map EventView.cut }

/-! ## Calls on spans, and reading a span back -/

/-- A span under annotation and the event handles returned so far. -/
structure Session where
  span : OtelSpan
  handles : List Nat

/-- One call on the span; of `otelSpanEnd` only what it does to the span. -/
def Session.call (σ : Session) : Call → Session
  | .setName name => { σ with span := otelSpanSetName σ.span name }
  | .setStatus status message => { σ with span := otelSpanSetStatus σ.span status message }
  | .attr key arg => { σ with span := otelSpanAttr σ.span key arg }
  | .event name now =>
    let r := otelSpanEvent σ.span name now
    { span := r.1, handles := σ.handles ++ r.2.toList }
  | .eventAttr handle key arg =>
    { σ with span := otelEventAttr σ.span σ.handles[handle]? key arg }
  | .finish now => { σ with span := stampEnd σ.span now }

/-- A sequence of calls on the span. -/
def Session.calls (σ : Session) (cs : List Call) : Session := cs.foldl Session.call σ

/-! ## Rejected calls -/

/-- The call is dropped: it adds no attribute or event. -/
def Session.Rejects (σ : Session) : Call → Prop
  | .attr key _ => (otelSpanAttr_ σ.span key).2 = none
  | .event name now => (otelSpanEvent σ.span name now).2 = none
  | .eventAttr handle key _ =>
    ∃ e, σ.handles[handle]? = some e ∧ (otelEventAttr_ σ.span (some e) key).2 = none
  | _ => False

/-- The span with the call's drop counter, which stops at 255, one higher. -/
def Session.countDrop (σ : Session) : Call → OtelSpan
  | .attr _ _ => { σ.span with droppedAttrs := bump σ.span.droppedAttrs }
  | .event _ _ => { σ.span with droppedEvents := bump σ.span.droppedEvents }
  | .eventAttr handle _ _ =>
    match σ.handles[handle]? with
    | some e =>
      if σ.span.get e OtelEvent.droppedAttrs < 255 then
        σ.span.set e OtelEvent.droppedAttrs (σ.span.get e OtelEvent.droppedAttrs + 1)
      else σ.span
    | none => σ.span
  | _ => σ.span

/-- There is room for `n` bytes. -/
def Fits (used n : Nat) : Prop := used + roundUp8 n ≤ otelSpanArena

instance (used n : Nat) : Decidable (Fits used n) :=
  inferInstanceAs (Decidable (used + roundUp8 n ≤ otelSpanArena))

/-- There is room for a string; there is none for `NULL`. -/
def StrFits (used : Nat) : Option Bytes → Prop
  | none => False
  | some bytes => Fits used (strlen bytes + 1)

/-- There is room neither for the string of the call nor for its record. -/
def Session.NoRoom (σ : Session) : Call → Prop
  | .attr key _ => ¬ StrFits σ.span.arenaUsed key ∧ ¬ Fits σ.span.arenaUsed sizeofOtelAttr
  | .event name _ => ¬ StrFits σ.span.arenaUsed name ∧ ¬ Fits σ.span.arenaUsed sizeofOtelEvent
  | .eventAttr _ key _ => ¬ StrFits σ.span.arenaUsed key ∧ ¬ Fits σ.span.arenaUsed sizeofOtelAttr
  | _ => False

/-- Every one of the calls is rejected for want of any room. -/
def Session.RejectsAll (σ : Session) : List Call → Prop
  | [] => True
  | c :: cs => (σ.Rejects c ∧ σ.NoRoom c) ∧ (σ.call c).RejectsAll cs

/-- A root span of a tracer that records everything. -/
def sampleSession (name : Bytes) : Session where
  span := (StartCall.root.run ⟨true, true, 0, 7⟩ (some ⟨1, 0⟩) zeroSpan (some name) 1).2
  handles := []

/-- The value of the attribute record `a`, by the type switch of the exporters. -/
def readValue (s : OtelSpan) (a : Nat) : AttrValue :=
  match OtelAttrType.ofCode (s.get a OtelAttr.type) with
  | some .str => .str ((otelAttrStrval s a).bytes s)
  | some .i64 => .i64 (UInt64.ofNat (s.get a OtelAttr.v)).toInt64
  | some .u64 => .u64 (UInt64.ofNat (s.get a OtelAttr.v))
  | some .f64 => .f64 (UInt64.ofNat (s.get a OtelAttr.v))
  | some .bool => .bool (s.get a OtelAttr.vb ≠ 0)
  | none => .str []

/-- The attribute record `a`. -/
def readAttr (s : OtelSpan) (a : Nat) : AttrView :=
  { key := (otelAttrKey s a).bytes s, value := readValue s a }

/-- The records visited from `first` on by `otelAttrNext`. -/
def walkAttrs (s : OtelSpan) (first : Option Nat) : Option (List Nat) :=
  walk (otelAttrNext s) otelSpanArena first

/-- The event record `e`. -/
def readEvent (s : OtelSpan) (e : Nat) : Option EventView := do
  let attrs ← walkAttrs s (otelEventAttrFirst s e)
  some { name := (otelEventName s e).bytes s
         time := UInt64.ofNat (s.get e OtelEvent.timeUnixNs)
         attrs := attrs.map (readAttr s)
         dropped := s.get e OtelEvent.droppedAttrs }

/-- The records visited by `otelEventFirst` and `otelEventNext`. -/
def walkEvents (s : OtelSpan) : Option (List Nat) :=
  walk (otelEventNext s) otelSpanArena (otelEventFirst s)

/-- Read a span back through the accessors. -/
def readSpan (s : OtelSpan) : Option SpanView := do
  let attrs ← walkAttrs s (otelAttrFirst s)
  let events ← walkEvents s
  let events ← events.mapM (readEvent s)
  some { used := s.arenaUsed
         name := (otelSpanName s).bytes s
         status := s.status
         message := (otelSpanStatusMessage s).bytes s
         attrs := attrs.map (readAttr s)
         events := events
         droppedAttrs := s.droppedAttrs
         droppedEvents := s.droppedEvents }

end OtelTracing
