import OtelTracing.Rows
import OtelTracing.Lib.Limit

/-!
# The filters of `otel-trace`

The options of the command line, the clauses that `append_filters` writes for them, the values that
`bind_filters` binds, and the query of `cmd_spans`. SQLite is taken as documented: the placeholders of
a statement are numbered from 1 in the order in which they stand, and rows that `ORDER BY` finds equal
come in any order. The products of `bind_filters` wrap when they overflow. The times of a line are
numbers here.
-/

namespace OtelTracing

open ByteMem Limit

/-- `struct filters` -/
structure Filters where
  service : Option Bytes
  name : Option Bytes
  statusError : Bool
  sinceSec : Int64
  minDurationUs : Int64
  limit : Int32

/-! ## Options -/

/-- A filter option with its argument; the numbers are those that `strtoll` and `atoi` return. -/
inductive FilterOption
  | service (s : Bytes)
  | name (s : Bytes)
  | status (s : Bytes)
  | since (n : Int64)
  | minDurationUs (n : Int64)
  | limit (n : Int32)

def Filters.set (f : Filters) : FilterOption → Filters
  | .service s => { f with service := some s }
  | .name s => { f with name := some s }
  | .status s => { f with statusError := s = ascii "error" }
  | .since n => { f with sinceSec := n }
  | .minDurationUs n => { f with minDurationUs := n }
  | .limit n => { f with limit := n }

/-- What `main` has in `f` after the options. -/
def filtersOf (opts : List FilterOption) : Filters :=
  opts.foldl Filters.set ⟨none, none, false, 0, 0, 0⟩

/-! ## The statement -/

/-- What `append_filters` may append. -/
inductive Clause
  | service
  | name
  | statusError
  | since
  | minDuration
  deriving DecidableEq

def Clause.text : Clause → Bytes
  | .service => ascii " AND service = ?"
  | .name => ascii " AND name = ?"
  | .statusError => ascii " AND status_code = 2"
  | .since => ascii " AND start_unix_ns >= ?"
  | .minDuration => ascii " AND duration_ns >= ?"

/-- The number of placeholders in the clause. -/
def Clause.params (c : Clause) : Nat := c.text.count 63

def Filters.clauses (f : Filters) : List Clause :=
  (if f.service.isSome then [.service] else []) ++
  (if f.name.isSome then [.name] else []) ++
  (if f.statusError then [.statusError] else []) ++
  (if f.sinceSec ≠ 0 then [.since] else []) ++
  (if f.minDurationUs ≠ 0 then [.minDuration] else [])

/-- `strncat(sql, text, cap - strlen(sql) - 1)` -/
def strncat (cap : Nat) (sql text : Bytes) : Bytes := sql ++ text.take (cap - sql.length - 1)

def appendFilters (sql : Bytes) (cap : Nat) (f : Filters) : Bytes :=
  let sql := if f.service.isSome then strncat cap sql Clause.service.text else sql
  let sql := if f.name.isSome then strncat cap sql Clause.name.text else sql
  let sql := if f.statusError then strncat cap sql Clause.statusError.text else sql
  let sql := if f.sinceSec ≠ 0 then strncat cap sql Clause.since.text else sql
  if f.minDurationUs ≠ 0 then strncat cap sql Clause.minDuration.text else sql

def spansHead : Bytes :=
  ascii "SELECT start_unix_ns,duration_ns,service,name,kind,status_code,trace_id FROM spans WHERE 1=1"

def spansTail : Bytes := ascii " ORDER BY start_unix_ns DESC LIMIT ?"

/-- `sql`, when it is prepared. -/
def querySql (head tail : Bytes) (f : Filters) : Bytes :=
  strncat 1024 (appendFilters (head.take 1023) 1024 f) tail

/-! ## The placeholders -/

inductive SqlValue
  | null
  | text (s : Bytes)
  | int (n : Int64)
  deriving DecidableEq

/-- The values of the placeholders, by number; one that was not bound is `NULL`. -/
abbrev Params := Nat → SqlValue

section
variable (now : Int64) (f : Filters)

def sinceNs (sec : Int64) : Int64 := (now - sec) * 1000000000

def bindFilters (idx : Nat) (params : Params) : Params × Nat :=
  let bind (given : Bool) (v : SqlValue) (r : Params × Nat) : Params × Nat :=
    if given then (Function.update r.1 r.2 v, r.2 + 1) else r
  bind (f.minDurationUs ≠ 0) (.int (f.minDurationUs * 1000))
    (bind (f.sinceSec ≠ 0) (.int (sinceNs now f.sinceSec))
      (bind f.name.isSome (.text (f.name.getD []))
        (bind f.service.isSome (.text (f.service.getD [])) (params, idx))))

/-- The values when the statement is stepped. -/
def boundParams : Params :=
  let r := bindFilters now f 1 fun _ => .null
  Function.update r.1 r.2 (.int (if f.limit > 0 then f.limit.toInt64 else 50))

end

/-- The numbers of the placeholders of the clauses, from `k` on. -/
def placeholders : Nat → List Clause → List (Nat × Clause)
  | _, [] => []
  | k, c :: cs => (List.range c.params).map (fun i => (k + i, c)) ++ placeholders (k + c.params) cs

/-- The number of the placeholder after `LIMIT`. -/
def limitPlaceholder (cs : List Clause) : Nat := 1 + (cs.map Clause.params).sum

/-! ## Evaluation -/

/-- A row satisfies a clause, whose placeholder has the value `v`. -/
def Clause.holds (v : SqlValue) (row : SpanRow) : Clause → Bool
  | .service => v = .text row.service
  | .name => v = .text row.name
  | .statusError => row.statusCode = 2
  | .since => match v with
    | .int t => t ≤ row.startUnixNs
    | _ => false
  | .minDuration => match v with
    | .int t => t ≤ row.durationNs
    | _ => false

/-- The `WHERE` clause, when its first placeholder has the number `k`. -/
def whereHolds (params : Params) : Nat → List Clause → SpanRow → Bool
  | _, [], _ => true
  | k, c :: cs, row => c.holds (params k) row && whereHolds params (k + c.params) cs row

/-- `LIMIT` of a table with `n` rows: a negative limit is none, and one that is no number fails. -/
def SqlValue.limit (n : Nat) : SqlValue → Option Nat
  | .int v => some (if v < 0 then n else v.toInt.toNat)
  | _ => none

/-! ## `cmd_spans` -/

structure SpansLine where
  start : Int64
  duration : Int64
  service : Bytes
  kind : Bytes
  status : Bytes
  name : Bytes
  trace : Bytes
  deriving DecidableEq

def spansLine (row : SpanRow) : SpansLine where
  start := row.startUnixNs
  duration := row.durationNs
  service := cutStr row.service
  kind := kindName (Int32.ofNat row.kind).toInt
  status := statusName (Int32.ofNat row.statusCode).toInt
  name := cutStr row.name
  trace := cutStr row.traceId

def SpanRow.start (row : SpanRow) : Int := row.startUnixNs.toInt

/-- `cmd_spans` may print the lines. -/
def CmdSpans (now : Int64) (f : Filters) (db : Store) (out : List SpansLine) : Prop :=
  let params := boundParams now f
  ∃ n rows, (params (limitPlaceholder f.clauses)).limit db.spans.length = some n ∧
    Top SpanRow.start n (db.spans.filter (whereHolds params 1 f.clauses)) rows ∧
    out = rows.map spansLine

/-- The row satisfies the clauses with the values that are bound. -/
def Filters.passes (now : Int64) (f : Filters) (row : SpanRow) : Bool :=
  f.service.all (fun s => row.service = s) && f.name.all (fun s => row.name = s) &&
  (!f.statusError || row.statusCode = 2) &&
  (f.sinceSec = 0 || sinceNs now f.sinceSec ≤ row.startUnixNs) &&
  (f.minDurationUs = 0 || f.minDurationUs * 1000 ≤ row.durationNs)

/-! ## What is asked for -/

/-- The last argument of each option, if it was given. -/
structure Given where
  service : Option Bytes
  name : Option Bytes
  status : Option Bytes
  since : Option Int64
  minDurationUs : Option Int64
  limit : Option Int32

def Given.with (g : Given) : FilterOption → Given
  | .service s => { g with service := some s }
  | .name s => { g with name := some s }
  | .status s => { g with status := some s }
  | .since n => { g with since := some n }
  | .minDurationUs n => { g with minDurationUs := some n }
  | .limit n => { g with limit := some n }

def givenBy (opts : List FilterOption) : Given :=
  opts.foldl Given.with ⟨none, none, none, none, none, none⟩

/-- `--limit`, with its default -/
def Given.rows (g : Given) : Nat :=
  match g.limit with
  | some n => if 0 < n then n.toInt.toNat else 50
  | none => 50

/-- The number that a start is compared with. -/
def sinceBound (now sec : Int64) : Int := (now.toInt - sec.toInt) * 10 ^ 9

def durationBound (us : Int64) : Int := us.toInt * 1000

/-- The row satisfies every given filter. -/
def Given.wants (now : Int64) (g : Given) (row : SpanRow) : Bool :=
  g.service.all (fun s => row.service = s) && g.name.all (fun s => row.name = s) &&
  (g.status ≠ some (ascii "error") || row.statusCode = 2) &&
  g.since.all (fun sec => sinceBound now sec ≤ row.startUnixNs.toInt) &&
  g.minDurationUs.all (fun us => durationBound us ≤ row.durationNs.toInt)

/-- The lines are those of the most recent rows that satisfy the filters. -/
def SpansRight (now : Int64) (g : Given) (db : Store) (out : List SpansLine) : Prop :=
  ∃ rows, Top SpanRow.start g.rows (db.spans.filter (g.wants now)) rows ∧ out = rows.map spansLine

/-- What the placeholder of the clause is to be compared with. -/
def Clause.value (now : Int64) (f : Filters) : Clause → SqlValue
  | .service => .text (f.service.getD [])
  | .name => .text (f.name.getD [])
  | .statusError => .null
  | .since => .int (sinceNs now f.sinceSec)
  | .minDuration => .int (f.minDurationUs * 1000)

/-- The statement between `head` and `tail` is complete, and its placeholders have the values that belong
to them. -/
structure Matched (head tail : Bytes) (now : Int64) (f : Filters) : Prop where
  text : querySql head tail f = head ++ f.clauses.flatMap Clause.text ++ tail
  values : ∀ p ∈ placeholders 1 f.clauses, boundParams now f p.1 = p.2.value now f
  limit : boundParams now f (limitPlaceholder f.clauses) =
    .int (if f.limit > 0 then f.limit.toInt64 else 50)

/-- `v` is given as the argument of an option, the rows are to be compared with `bound v`, and they
are compared with the 64 bits of it, or not at all if `v` is 0. The bound is a 64-bit number; or it is
below all of them, and so are its 64 bits. -/
def SameBound (bound : Int64 → Int) (given : Option Int64) : Prop :=
  ∀ v, given = some v →
    if v = 0 then bound v ≤ -2 ^ 63
    else -2 ^ 63 ≤ bound v ∧ bound v < 2 ^ 63 ∨
      bound v < -2 ^ 63 ∧ (bound v).bmod (2 ^ 64) = -2 ^ 63

end OtelTracing
