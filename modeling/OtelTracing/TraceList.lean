import OtelTracing.Query

/-!
# `otel-trace list`

The query of `cmd_list`: one line for each trace that has a row which passes the filters. The
aggregates are over those rows, and the root's name and the service are taken from any row of the
trace. SQLite computes a difference that is no 64-bit number in floating point, and gives the nearest
64-bit number when it is read as one. The texts of a line are those of the columns, which `printf`
prints up to a NUL; the numbers are not rendered.
-/

namespace OtelTracing

open ByteMem Limit

/-! ## Aggregates -/

/-- `MIN(start_unix_ns)` -/
def minStart (rows : List SpanRow) : Int := (rows.map SpanRow.start).min?.getD 0

/-- `MAX(end_unix_ns)` -/
def maxEnd (rows : List SpanRow) : Int := (rows.map fun row => row.endUnixNs.toInt).max?.getD 0

def extent (rows : List SpanRow) : Int := maxEnd rows - minStart rows

/-- `MAX(CASE WHEN status_code=2 THEN 1 ELSE 0 END)` -/
def anyError (rows : List SpanRow) : Bool := rows.any fun row => row.statusCode = 2

/-- A number of SQLite read with `sqlite3_column_int64`. -/
def columnInt64 (n : Int) : Int := max (-2 ^ 63) (min n (2 ^ 63 - 1))

/-- A number of SQLite read with `sqlite3_column_int`. -/
def columnInt (n : Int) : Int := n.bmod (2 ^ 32)

/-! ## The query -/

/-- The rows of a trace. -/
def traceRows (rows : List SpanRow) (t : Bytes) : List SpanRow :=
  rows.filter fun row => row.traceId = t

/-- The traces that have a row. -/
def tracesOf (rows : List SpanRow) : List Bytes := (rows.map SpanRow.traceId).dedup

structure ListLine where
  trace : Bytes
  service : Bytes
  start : Int
  duration : Int
  spans : Int
  root : Bytes
  error : Bool
  deriving DecidableEq

/-- The line of the trace; `selected` are the rows of the store that pass the filters. -/
structure TraceLine (db : Store) (selected : List SpanRow) (t : Bytes) (l : ListLine) : Prop where
  trace : l.trace = t
  start : l.start = columnInt64 (minStart (traceRows selected t))
  duration : l.duration = columnInt64 (extent (traceRows selected t))
  spans : l.spans = columnInt (traceRows selected t).length
  error : l.error = anyError (traceRows selected t)
  root : (∃ row ∈ traceRows db.spans t, row.parentId = none ∧ l.root = row.name) ∨
    (∀ row ∈ traceRows db.spans t, row.parentId ≠ none) ∧ l.root = ascii "(no root)"
  service : ∃ row ∈ traceRows db.spans t, l.service = row.service

/-- `cmd_list` may print the lines. -/
def CmdList (now : Int64) (f : Filters) (db : Store) (out : List ListLine) : Prop :=
  let params := boundParams now f
  let selected := db.spans.filter (whereHolds params 1 f.clauses)
  ∃ n traces, (params (limitPlaceholder f.clauses)).limit db.spans.length = some n ∧
    Top (fun t => minStart (traceRows selected t)) n (tracesOf selected) traces ∧
    List.Forall₂ (TraceLine db selected) traces out

def listHead : Bytes :=
  ascii "SELECT trace_id," ++
  ascii "       MIN(start_unix_ns)," ++
  ascii "       MAX(end_unix_ns) - MIN(start_unix_ns)," ++
  ascii "       COUNT(*)," ++
  ascii "       MAX(CASE WHEN status_code=2 THEN 1 ELSE 0 END)," ++
  ascii "       (SELECT name FROM spans r WHERE r.trace_id=s.trace_id " ++
  ascii "          AND r.parent_id IS NULL LIMIT 1)," ++
  ascii "       (SELECT service FROM spans v WHERE v.trace_id=s.trace_id LIMIT 1)" ++
  ascii " FROM spans s WHERE 1=1"

def listTail : Bytes := ascii " GROUP BY trace_id ORDER BY MIN(start_unix_ns) DESC LIMIT ?"

/-! ## What is asked for -/

/-- The trace satisfies every given filter. -/
def Given.keeps (now : Int64) (g : Given) (db : Store) (t : Bytes) : Bool :=
  let rows := traceRows db.spans t
  g.service.all (fun s => rows.any fun row => row.service = s) &&
  g.name.all (fun s => rows.any fun row => row.name = s) &&
  (g.status ≠ some (ascii "error") || anyError rows) &&
  g.since.all (fun sec => rows.any fun row => sinceBound now sec ≤ row.startUnixNs.toInt) &&
  g.minDurationUs.all (fun us => durationBound us ≤ extent rows)

/-- The line says how the whole trace is. -/
structure TraceRight (db : Store) (t : Bytes) (l : ListLine) : Prop where
  trace : l.trace = t
  start : l.start = minStart (traceRows db.spans t)
  duration : l.duration = extent (traceRows db.spans t)
  spans : l.spans = (traceRows db.spans t).length
  error : l.error = anyError (traceRows db.spans t)

/-- The lines are those of the most recent traces that satisfy the filters. -/
def ListRight (now : Int64) (g : Given) (db : Store) (out : List ListLine) : Prop :=
  ∃ traces, Top (fun t => minStart (traceRows db.spans t)) g.rows
      ((tracesOf db.spans).filter (g.keeps now db)) traces ∧
    List.Forall₂ (TraceRight db) traces out

/-! ## When the list is right -/

/-- Every row of the trace passes the row filters, and the numbers of the trace can be read. -/
structure WholeTrace (now : Int64) (f : Filters) (db : Store) (t : Bytes) : Prop where
  passes : ∀ row ∈ traceRows db.spans t, f.passes now row = true
  extent_fits : -2 ^ 63 ≤ extent (traceRows db.spans t) ∧
    extent (traceRows db.spans t) < 2 ^ 63
  spans_fit : (traceRows db.spans t).length < 2 ^ 31

/-- The bounds that are asked for hold of the trace. -/
structure WithinBounds (now : Int64) (g : Given) (db : Store) (t : Bytes) : Prop where
  since : ∀ sec, g.since = some sec →
    ∃ row ∈ traceRows db.spans t, sinceBound now sec ≤ row.startUnixNs.toInt
  long : ∀ us, g.minDurationUs = some us → durationBound us ≤ extent (traceRows db.spans t)

/-- Every trace that can be among the first `g.rows` groups is whole and within the bounds; and one that
is to be kept, but has no row that passes the row filters, is older than `g.rows` groups. -/
structure WholeTraces (now : Int64) (g : Given) (f : Filters) (db : Store) : Prop where
  whole : ∀ t, Leads (fun t => minStart (traceRows (db.spans.filter (f.passes now)) t)) g.rows
      (tracesOf (db.spans.filter (f.passes now))) t →
    WholeTrace now f db t ∧ WithinBounds now g db t
  beaten : ∀ t ∈ tracesOf db.spans, g.keeps now db t = true →
    (∀ row ∈ traceRows db.spans t, f.passes now row = false) →
    g.rows ≤ ((tracesOf (db.spans.filter (f.passes now))).filter fun u =>
      minStart (traceRows db.spans t) ≤
        minStart (traceRows (db.spans.filter (f.passes now)) u)).length

end OtelTracing
