import OtelTracing.Layout

/-!
# The shape of a span's arena

What a well-formed arena looks like from outside, in terms of the span's fields and of the records
that the accessors reach, without reference to a layout: aligned and pairwise disjoint blocks, and
lists that end, have the right last element and the right length.
-/

namespace OtelTracing

open ByteMem Cells

/-- The bytes `[off, off + size)` of the arena. -/
structure Block where
  off : Nat
  size : Nat

def Block.Apart (b c : Block) : Prop := b.off + b.size ≤ c.off ∨ c.off + c.size ≤ b.off

/-- `rs` are the records of a list with the given head, tail and link: the list visits each of them
once and ends there. -/
structure Chain (next : Nat → Option Nat) (head tail : Nat) (rs : List Nat) : Prop where
  links : Links next rs
  nodup : rs.Nodup
  head : recordAt head = rs.head?
  tail : recordAt tail = rs.getLast?

/-- The string offsets that an attribute record stores. -/
def attrStrs (s : OtelSpan) (a : Nat) : List Nat :=
  s.get a OtelAttr.key ::
    if s.get a OtelAttr.type = OtelAttrType.str.code then [s.get a OtelAttr.val] else []

/-- The string offsets that the span and its records store, given the attribute records and the event
records, each with its own attribute records. -/
def storedStrs (s : OtelSpan) (attrs : List Nat) (events : List (Nat × List Nat)) : List Nat :=
  [s.name, s.statusMessage] ++ attrs.flatMap (attrStrs s) ++
    events.flatMap fun e => s.get e.1 OtelEvent.name :: e.2.flatMap (attrStrs s)

/-- The offsets of the live strings. -/
def liveStrs (s : OtelSpan) (attrs : List Nat) (events : List (Nat × List Nat)) : List Nat :=
  (storedStrs s attrs events).filter (· ≠ otelNil)

/-- The blocks of the records. -/
def recordBlocks (attrs : List Nat) (events : List (Nat × List Nat)) : List Block :=
  attrs.map (⟨·, sizeofOtelAttr⟩) ++
    events.flatMap fun e => ⟨e.1, sizeofOtelEvent⟩ :: e.2.map (⟨·, sizeofOtelAttr⟩)

/-- The representation invariant of a recording span. -/
structure SpanShape (s : OtelSpan) (attrs : List Nat) (events : List (Nat × List Nat))
    (strs : List Block) : Prop where
  used_aligned : s.arenaUsed % 8 = 0
  used_le : s.arenaUsed ≤ otelSpanArena
  attr_list : Chain (otelAttrNext s) s.attrHead s.attrTail attrs
  event_list : Chain (otelEventNext s) s.eventHead s.eventTail (events.map Prod.fst)
  event_attr_list : ∀ e ∈ events,
    Chain (otelAttrNext s) (s.get e.1 OtelEvent.attrHead) (s.get e.1 OtelEvent.attrTail) e.2
  num_attrs : s.numAttrs = attrs.length
  num_events : s.numEvents = events.length
  event_num_attrs : ∀ e ∈ events, s.get e.1 OtelEvent.numAttrs = e.2.length
  /-- every attribute has a key -/
  keys : ∀ a ∈ attrs ++ events.flatMap Prod.snd, s.get a OtelAttr.key ≠ otelNil
  /-- the live strings, each of which ends with a NUL -/
  strs_off : strs.map Block.off = liveStrs s attrs events
  strs_nul : ∀ b ∈ strs, 0 < b.size ∧ s.arena (b.off + b.size - 1) = 0
  apart : (strs ++ recordBlocks attrs events).Pairwise Block.Apart
  /-- in particular no offset is `otelNil` -/
  inside : ∀ b ∈ strs ++ recordBlocks attrs events,
    b.off % 8 = 0 ∧ b.off + b.size ≤ s.arenaUsed ∧ b.off ≠ otelNil

/-! ## The strings that were copied -/

/-- The strings of an attribute, in the order of `attrStrs`. -/
def AttrView.strs (a : AttrView) : List Bytes :=
  a.key :: match a.value with
    | .str v => [v]
    | _ => []

/-- The strings of a span, in the order of `storedStrs`. -/
def SpanView.strs (v : SpanView) : List Bytes :=
  [v.name, v.message] ++ v.attrs.flatMap AttrView.strs ++
    v.events.flatMap fun e => e.name :: e.attrs.flatMap AttrView.strs

/-- At the offset there is a copy of the string and its NUL, in a block of just this size; a string that
was not given, or did not fit, is empty and has no block. -/
def Copied (s : OtelSpan) (strs : List Block) (off : Nat) (b : Bytes) : Prop :=
  (off = otelNil ∧ b = []) ∨
    ((⟨off, b.length + 1⟩ : Block) ∈ strs ∧ readBytes s.arena off (b.length + 1) = b ++ [0])

end OtelTracing
