import OtelTracing.Rows

/-!
# The attributes that `otel-trace show` prints

`print_attr_rows`, on the rows that the sink inserts for a span. `g` renders a real number like `%g`.
-/

namespace OtelTracing

open ByteMem

/-! ## Lines -/

/-- `%llu` -/
def digits (n : Nat) : Bytes := (Nat.toDigits 10 n).map fun c => UInt8.ofNat c.toNat

/-- `%lld` -/
def decimal (n : Int) : Bytes := if n < 0 then 45 :: digits n.natAbs else digits n.natAbs

def quoted (text : Bytes) : Bytes := 34 :: (text ++ [34])

def attrLine (pad key value : Bytes) : Bytes :=
  pad ++ (ascii "- " ++ (key ++ (ascii " = " ++ (value ++ [10]))))

section
variable (g : UInt64 → Bytes)

/-- A column that is `NULL` reads as 0, and `printf` prints it as a string in its own way. -/
def printValue (row : AttrRow) : Bytes :=
  match row.type with
  | 0 => quoted (cutStr (row.sVal.getD (ascii "(null)")))
  | 1 => decimal (row.iVal.getD 0).toInt
  | 2 => decimal (row.iVal.getD 0).toInt
  | 3 => g (row.dVal.getD 0)
  | 4 => if row.iVal.getD 0 ≠ 0 then ascii "true" else ascii "false"
  | _ => ascii "?"

def printAttrRow (pad : Bytes) (row : AttrRow) : Bytes :=
  attrLine pad (cutStr row.key) (printValue g row)

/-! ## The rows of a span -/

/-- The place of an attribute: its number among those of the span, or among those of an event. -/
inductive AttrPos
  | span (i : Nat)
  | event (e i : Nat)

/-- The line that is printed for the attribute; `rows` are those of one span. -/
def Store.attrLine (rows : Store) (pad : Bytes) : AttrPos → Option Bytes
  | .span i => do
    let row ← rows.spans[0]?
    ((rows.spanAttrs.filter fun a => a.owner = row.id).map (printAttrRow g pad))[i]?
  | .event e i => do
    let event ← rows.spanEvents[e]?
    ((rows.spanEventAttrs.filter fun a => a.owner = event.id).map (printAttrRow g pad))[i]?

end

/-! ## Recording an attribute -/

/-- What an attribute is recorded on; an event is given by its handle. -/
inductive AttrTarget
  | span
  | event (handle : Nat)

def AttrTarget.call (key : Bytes) (arg : AttrArg) : AttrTarget → Call
  | .span => .attr (some key) arg
  | .event handle => .eventAttr handle (some key) arg

/-- The string of the argument fits into what is left of the arena. -/
def AttrArg.Fits (used : Nat) : AttrArg → Prop
  | .str value => (chargeStr used value).2.isSome
  | .strn value len => (chargeStrn used len value).2.isSome
  | _ => True

/-- The key, the record and the value of the attribute fit. -/
def SpanView.Accepts (v : SpanView) (target : AttrTarget) (key : Bytes) (arg : AttrArg) : Prop :=
  (∀ handle, target = .event handle → handle < v.events.length) ∧
  ∃ used k, chargeAttr v.used (some key) = (used, some k) ∧ arg.Fits used

/-- The place of the next attribute. -/
def SpanView.nextPos (v : SpanView) : AttrTarget → AttrPos
  | .span => .span v.attrs.length
  | .event handle => .event handle ((v.events[handle]?.map fun e => e.attrs.length).getD 0)

/-- The value of the argument as a text: all bytes of a string that is given with its length. -/
def AttrArg.text : AttrArg → Bytes
  | .str value => quoted (cutStr (value.getD []))
  | .strn value len => quoted ((value.getD []).takeD len.toNat 0)
  | .i64 value => decimal value.toInt
  | .u64 value => digits value.toNat
  | .bool value => if value ≠ 0 then ascii "true" else ascii "false"

/-- A number fits in `int64_t`, and a string that is given with its length has no NUL. -/
def AttrArg.Printable : AttrArg → Prop
  | .strn value len => 0 ∉ (value.getD []).takeD len.toNat 0
  | .u64 value => value.toNat < 2 ^ 63
  | _ => True

end OtelTracing
