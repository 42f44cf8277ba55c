import OtelTracing.Rows
import OtelTracing.Lib.Preorder
import Mathlib.Logic.Relation

/-!
# `otel-trace show`

The tree that `cmd_show` prints for the rows of a trace. A row is printed when `print_subtree` first
finds it, and a flag on the row keeps it from being printed again. `fuel` bounds the depth of the
recursion. The times of a line are numbers here, and the attributes and events that follow it are left
out: they are those of the row.
-/

namespace OtelTracing

open ByteMem Preorder

/-- A row of the query in `cmd_show`; a text is `none` for `NULL`. -/
structure ShowRow where
  spanId : Option Bytes
  parentId : Option Bytes
  name : Option Bytes
  kind : Int32
  statusCode : Int32
  statusMessage : Option Bytes
  startUnixNs : Int64
  endUnixNs : Int64

/-- `struct snode`, less its flag -/
structure Snode where
  spanId : Bytes
  parentId : Bytes
  name : Option Bytes
  kind : Int32
  status : Int32
  statusMsg : Option Bytes
  start : Int64
  stop : Int64

/-- What `snprintf` leaves of a text in a buffer of `n` bytes. -/
def snprintfText (n : Nat) (text : Option Bytes) : Bytes := (cutStr (text.getD [])).take (n - 1)

def ShowRow.snode (r : ShowRow) : Snode where
  spanId := snprintfText 20 r.spanId
  parentId := snprintfText 20 r.parentId
  name := r.name.map cutStr
  kind := r.kind
  status := r.statusCode
  statusMsg := r.statusMessage.map cutStr
  start := r.startUnixNs
  stop := r.endUnixNs

/-! ## Lines -/

structure ShowLine where
  row : Nat
  depth : Nat
  name : Bytes
  kind : Bytes
  duration : Int64
  offset : Int64
  status : Bytes

/-- Which row a line is for, and how far it is indented. -/
def ShowLine.pos (l : ShowLine) : Nat × Nat := (l.row, l.depth)

/-- `sbuf` of `print_subtree` -/
def showStatus (s : Snode) : Bytes :=
  if s.status = 2 then
    match s.statusMsg.getD [] with
    | [] => ascii "  status=ERROR"
    | msg => (ascii "  status=ERROR: " ++ msg).take 159
  else
    []

def showLine (t0 : Int64) (s : Snode) (i depth : Nat) : ShowLine where
  row := i
  depth := depth
  name := s.name.getD (ascii "?")
  kind := kindName s.kind.toInt
  duration := s.stop - s.start
  offset := s.start - t0
  status := showStatus s

/-! ## The tree -/

/-- The flags of the rows, and what was printed. -/
structure Printing where
  printed : Nat → Bool
  out : List ShowLine

/-- Print the line of the row `i`. -/
def Printing.print (st : Printing) (t0 : Int64) (s : Snode) (i depth : Nat) : Printing where
  printed := Function.update st.printed i true
  out := st.out ++ [showLine t0 s i depth]

/-- Whether the row is to be printed under `parent`, which is `none` at the top: there, rows without a
parent are, and those with an unknown one. -/
def Snode.belongs (nodes : List Snode) (parent : Option Bytes) (s : Snode) : Bool :=
  match parent with
  | some parent => s.parentId = parent
  | none => s.parentId = [] || !nodes.any fun t => t.spanId = s.parentId

def printSubtree (nodes : List Snode) (t0 : Int64) :
    Nat → Option Bytes → Nat → Printing → Option Printing
  | 0, _, _, _ => none
  | fuel + 1, parent, depth, st =>
    (List.range nodes.length).foldlM (fun st i =>
      match nodes[i]? with
      | none => some st
      | some s =>
        if st.printed i || !s.belongs nodes parent then some st
        else printSubtree nodes t0 fuel (some s.spanId) (depth + 1) (st.print t0 s i depth)) st

/-- What `cmd_show` prints. -/
inductive ShowResult
  | noSpans
  /-- the announced number of rows, and the tree -/
  | tree (n : Nat) (lines : List ShowLine)

def ShowResult.lines : ShowResult → List ShowLine
  | noSpans => []
  | tree _ lines => lines

/-- `t0`, the earliest start -/
def earliest : List Snode → Int64
  | [] => 0
  | s :: ss => ss.foldl (fun t0 s => if s.start < t0 then s.start else t0) s.start

def cmdShow (fuel : Nat) (rows : List ShowRow) : Option ShowResult :=
  let nodes := rows.map ShowRow.snode
  if nodes.length = 0 then
    some .noSpans
  else do
    let st ← printSubtree nodes (earliest nodes) fuel none 0 ⟨fun _ => false, []⟩
    some (.tree nodes.length st.out)

/-! ## What is to be shown -/

/-- The id as a string; `NULL` reads as the empty one. -/
def ShowRow.span (r : ShowRow) : Bytes := cutStr (r.spanId.getD [])

def ShowRow.parent (r : ShowRow) : Bytes := cutStr (r.parentId.getD [])

section
variable (rows : List ShowRow)

/-- The row `i` has no parent id, or one that no row has as its span id. -/
def IsRoot (i : Nat) : Prop :=
  ∃ r, rows[i]? = some r ∧ (r.parent = [] ∨ ∀ q ∈ rows, q.span ≠ r.parent)

/-- The parent id of the row `i` is the span id of the row `p`. -/
def ParentRow (p i : Nat) : Prop :=
  ∃ q r, rows[p]? = some q ∧ rows[i]? = some r ∧ r.parent = q.span

/-- The least set of rows that has the roots, and the children of its rows. -/
inductive Shown : Nat → Prop
  | root {i : Nat} (h : IsRoot rows i) : Shown i
  | child {p i : Nat} (hp : Shown p) (h : ParentRow rows p i) : Shown i

/-- The row `i` has a parent id, and it is the span id of the row `p`. -/
def HasParent (p i : Nat) : Prop :=
  ParentRow rows p i ∧ ∃ r, rows[i]? = some r ∧ r.parent ≠ []

/-- Parent chains have no cycle. -/
def Acyclic : Prop := ∀ i, ¬ Relation.TransGen (HasParent rows) i i

end

end OtelTracing
