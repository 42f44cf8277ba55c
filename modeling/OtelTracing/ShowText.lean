import OtelTracing.Query
import OtelTracing.PrintAttrs
import OtelTracing.Show

/-!
# The text of `otel-trace show`

All that `cmd_show` prints for a store: the lines of the tree, each of them followed by the attributes
and the events of its row. Rows that `ORDER BY` finds equal come in any order, and so do those of a query
without one, so what the queries return is an argument. `g` renders a real number like `%g`, and `dur`
a duration like `fmt_dur`.
-/

namespace OtelTracing

open ByteMem

/-! ## The queries -/

/-- The columns of the row that `cmd_show` reads. -/
def SpanRow.showRow (row : SpanRow) : ShowRow where
  spanId := some row.spanId
  parentId := row.parentId
  name := some row.name
  kind := Int32.ofNat row.kind
  statusCode := Int32.ofNat row.statusCode
  statusMessage := some row.statusMessage
  startUnixNs := row.startUnixNs
  endUnixNs := row.endUnixNs

/-- The query of `cmd_show` may return the rows. -/
structure ShowRows (db : Store) (trace : Bytes) (rows : List SpanRow) : Prop where
  perm : rows.Perm (db.spans.filter fun row => row.traceId = trace)
  sorted : rows.Pairwise fun a b => a.start ≤ b.start

/-- What the queries of `print_attrs_events` and `print_event_attrs` return: the attributes and the events
of a span, and the attributes of an event. -/
structure Below where
  attrs : Nat → List AttrRow
  events : Nat → List EventRow
  eventAttrs : Nat → List AttrRow

/-- The query of `print_attrs_events` may return the events. -/
structure ShowEvents (db : Store) (below : Below) : Prop where
  perm : ∀ id, (below.events id).Perm (db.spanEvents.filter fun e => e.span = id)
  sorted : ∀ id, (below.events id).Pairwise fun a b => a.timeUnixNs ≤ b.timeUnixNs

/-- The queries without `ORDER BY` return the rows in the order in which they were inserted, which is that
of the index. -/
structure InsertOrder (db : Store) (below : Below) : Prop where
  attrs : ∀ id, below.attrs id = db.spanAttrs.filter fun a => a.owner = id
  eventAttrs : ∀ id, below.eventAttrs id = db.spanEventAttrs.filter fun a => a.owner = id

/-! ## Lines -/

def makePad (width : Nat) : Bytes := List.replicate (min width 60) 32

/-- The line of a span; its parts are texts already. -/
def lineText (depth : Nat) (name kind duration offset status : Bytes) : Bytes :=
  List.replicate (depth * 2) 32 ++ (name ++ (ascii " [" ++ (kind ++ (ascii "] " ++ (duration ++
    (ascii " (+" ++ (offset ++ (ascii ")" ++ (status ++ [10])))))))))

def eventLine (pad name : Bytes) : Bytes := pad ++ (ascii "* event: " ++ (name ++ [10]))

/-- The first line. -/
def showHead (trace : Bytes) (n : Nat) : Bytes :=
  ascii "trace " ++ (trace ++ (ascii "  (" ++ (digits n ++ (ascii " spans)" ++ [10]))))

section
variable (g : UInt64 → Bytes) (dur : Int64 → Bytes)

def ShowLine.text (l : ShowLine) : Bytes :=
  lineText l.depth l.name l.kind (dur l.duration) (dur l.offset) l.status

def printEventAttrs (below : Below) (event width : Nat) : Bytes :=
  (below.eventAttrs event).flatMap (printAttrRow g (makePad width))

def printAttrsEvents (below : Below) (span depth : Nat) : Bytes :=
  let p := depth * 2 + 2
  let pad := makePad p
  let p := if p > 60 then 60 else p
  (below.attrs span).flatMap (printAttrRow g pad) ++
    (below.events span).flatMap fun e =>
      eventLine pad (cutStr e.name) ++ printEventAttrs g below e.id (p + 2)

/-- What `print_attrs_events` prints for the row `i`. -/
def rowBody (below : Below) (rows : List SpanRow) (i depth : Nat) : Bytes :=
  (rows[i]?.map fun row => printAttrsEvents g below row.id depth).getD []

/-! ## The tree -/

/-- The flags of the rows, and the text that was printed. -/
structure Showing where
  printed : Nat → Bool
  out : Bytes

def Showing.print (st : Showing) (i : Nat) (text : Bytes) : Showing where
  printed := Function.update st.printed i true
  out := st.out ++ text

/-- `print_subtree`; `body i depth` is what is printed after the line of the row `i`. -/
def showSubtree (nodes : List Snode) (t0 : Int64) (body : Nat → Nat → Bytes) :
    Nat → Option Bytes → Nat → Showing → Option Showing
  | 0, _, _, _ => none
  | fuel + 1, parent, depth, st =>
    (List.range nodes.length).foldlM (fun st i =>
      match nodes[i]? with
      | none => some st
      | some s =>
        if st.printed i || !s.belongs nodes parent then some st
        else showSubtree nodes t0 body fuel (some s.spanId) (depth + 1)
          (st.print i ((showLine t0 s i depth).text dur ++ body i depth))) st

/-- The exit code, and what is printed. -/
structure ShowOutput where
  code : Nat
  stdout : Bytes

/-- `cmd_show`, when its query returns `rows`, and those that follow what is `below` -/
def cmdShowText (fuel : Nat) (trace : Bytes) (rows : List SpanRow) (below : Below) :
    Option ShowOutput :=
  let nodes := rows.map fun row => row.showRow.snode
  if nodes.length = 0 then
    some ⟨1, []⟩
  else do
    let st ← showSubtree dur nodes (earliest nodes) (rowBody g below rows) fuel none 0
      ⟨fun _ => false, []⟩
    some ⟨0, showHead trace nodes.length ++ st.out⟩

end

end OtelTracing
