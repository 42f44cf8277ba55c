import OtelTracing.Query
import OtelTracing.PrintAttrs

/-!
# The command line of `otel-trace`

`main`, up to the call of a command: the loop over the arguments, the checks after it, and what is
written to `stderr` when it gives up. A word is an argument without its terminating zero. `strtoll`
and `atoi` are those of the C library where a `long` has 64 bits.
-/

namespace OtelTracing

open ByteMem

/-! ## Numbers -/

/-- `isspace` in the C locale -/
def isSpace (b : UInt8) : Bool := b = 32 || (9 ≤ b && b ≤ 13)

def isDigit (b : UInt8) : Bool := 48 ≤ b && b ≤ 57

/-- The value of the digits in front. -/
def digitsValue (s : Bytes) : Nat :=
  (s.takeWhile isDigit).foldl (fun n b => 10 * n + (b.toNat - 48)) 0

/-- The nearest number that a `long long` can have. -/
def nearest (n : Int) : Int64 := Int64.ofInt (max (-2 ^ 63) (min n (2 ^ 63 - 1)))

/-- `strtoll(s, NULL, 10)` -/
def strtoll (s : Bytes) : Int64 :=
  match s.dropWhile isSpace with
  | 45 :: s => nearest (-digitsValue s)
  | 43 :: s => nearest (digitsValue s)
  | s => nearest (digitsValue s)

/-- `(int) strtol(s, NULL, 10)` -/
def atoi (s : Bytes) : Int32 := (strtoll s).toInt32

/-! ## The loop over the arguments -/

/-- The options that take an argument. -/
inductive Flag
  | db
  | service
  | name
  | status
  | since
  | minDurationUs
  | limit
  deriving DecidableEq

def Flag.text : Flag → Bytes
  | .db => ascii "--db"
  | .service => ascii "--service"
  | .name => ascii "--name"
  | .status => ascii "--status"
  | .since => ascii "--since"
  | .minDurationUs => ascii "--min-duration-us"
  | .limit => ascii "--limit"

/-- The comparisons of `argv[i]`, in the order in which they are made. -/
def Flag.find (w : Bytes) : Option Flag :=
  [Flag.db, .service, .name, .status, .since, .minDurationUs, .limit].find? fun o => o.text = w

/-- The variables of `main`. -/
structure MainVars where
  dbPath : Bytes
  f : Filters
  cmd : Option Bytes
  arg : Option Bytes

/-- The option `o` is followed by the argument `v`. -/
def MainVars.store (m : MainVars) (v : Bytes) : Flag → MainVars
  | .db => { m with dbPath := v }
  | .service => { m with f := m.f.set (.service v) }
  | .name => { m with f := m.f.set (.name v) }
  | .status => { m with f := m.f.set (.status v) }
  | .since => { m with f := m.f.set (.since (strtoll v)) }
  | .minDurationUs => { m with f := m.f.set (.minDurationUs (strtoll v)) }
  | .limit => { m with f := m.f.set (.limit (atoi v)) }

/-- Why `main` returns before it has called a command. -/
inductive Exit
  | help
  | unknownOption (w : Bytes)
  | noCommand
  | cannotOpen (path msg : Bytes)
  | needsTraceId
  | needsQuery
  | unknownCommand (w : Bytes)

def Exit.code : Exit → Nat
  | .help => 0
  | .cannotOpen .. => 1
  | _ => 2

def usage : Bytes :=
  ascii "usage: otel-trace [--db PATH] <command> [args]\n" ++
  ascii "\n" ++
  ascii "commands:\n" ++
  ascii "  list                 recent traces (one row per trace)\n" ++
  ascii "  show <trace_id>      full span tree for one trace\n" ++
  ascii "  spans                individual spans\n" ++
  ascii "  stats                per-name span counts and latency\n" ++
  ascii "  sql \"<query>\"        run a read-only SQL query\n" ++
  ascii "\n" ++
  ascii "filters (list, spans):\n" ++
  ascii "  --service S          only this service\n" ++
  ascii "  --name N             only spans named N\n" ++
  ascii "  --status error       only traces/spans with an error status\n" ++
  ascii "  --since SECONDS      only the last SECONDS\n" ++
  ascii "  --min-duration-us US only spans/traces at least US microseconds\n" ++
  ascii "  --limit N            cap rows (default 50)\n" ++
  ascii "\n" ++
  ascii "The database path defaults to $OTEL_TRACE_DB or ./traces.db.\n"

/-- What is written to `stderr`. -/
def Exit.message : Exit → Bytes
  | .help | .noCommand => usage
  | .unknownOption w => ascii "otel-trace: unknown option " ++ w ++ ascii "\n" ++ usage
  | .cannotOpen path msg =>
    ascii "otel-trace: cannot open " ++ path ++ ascii ": " ++ msg ++ ascii "\n"
  | .needsTraceId => ascii "otel-trace: show needs a trace_id\n"
  | .needsQuery => ascii "otel-trace: sql needs a query\n"
  | .unknownCommand w => ascii "otel-trace: unknown command " ++ w ++ ascii "\n" ++ usage

/-- The words that the message is about. -/
def Exit.names : Exit → List Bytes
  | .unknownOption w | .unknownCommand w => [w]
  | .cannotOpen path msg => [path, msg]
  | .help | .noCommand | .needsTraceId | .needsQuery => []

def MainVars.positional (m : MainVars) (w : Bytes) : MainVars :=
  if m.cmd.isNone then { m with cmd := some w }
  else if m.arg.isNone then { m with arg := some w }
  else m

/-- The argument `w`, when it is not an option that is followed by an argument. -/
def MainVars.word (m : MainVars) (w : Bytes) : Except Exit MainVars :=
  if w = ascii "-h" ∨ w = ascii "--help" then .error .help
  else if w.head? = some 45 then .error (.unknownOption w)
  else .ok (m.positional w)

def scanArgs (m : MainVars) : List Bytes → Except Exit MainVars
  | [] => .ok m
  | [w] => m.word w
  | w :: v :: ws =>
    match Flag.find w with
    | some o => scanArgs (m.store v o) ws
    | none =>
      match m.word w with
      | .ok m => scanArgs m (v :: ws)
      | .error e => .error e

/-! ## Commands -/

inductive Command
  | list
  | show (traceId : Bytes)
  | spans
  | stats
  | sql (query : Bytes)
  deriving DecidableEq

def MainVars.command (m : MainVars) (cmd : Bytes) : Except Exit Command :=
  if cmd = ascii "list" then .ok .list
  else if cmd = ascii "show" then
    match m.arg with
    | none => .error .needsTraceId
    | some id => .ok (.show id)
  else if cmd = ascii "spans" then .ok .spans
  else if cmd = ascii "stats" then .ok .stats
  else if cmd = ascii "sql" then
    match m.arg with
    | none => .error .needsQuery
    | some query => .ok (.sql query)
  else .error (.unknownCommand cmd)

/-- The command that is called, on the database at the path, and the filters. -/
structure Request where
  dbPath : Bytes
  f : Filters
  command : Command

/-! ## `main` -/

/-- After the loop. `db_open` returns what it has to say when it fails. -/
def MainVars.call (dbOpen : Bytes → Option Bytes) (m : MainVars) : Except Exit Request :=
  match m.cmd with
  | none => .error .noCommand
  | some cmd =>
    match dbOpen m.dbPath with
    | some msg => .error (.cannotOpen m.dbPath msg)
    | none => (m.command cmd).map fun command => ⟨m.dbPath, m.f, command⟩

def otelTraceMain (env : Option Bytes) (dbOpen : Bytes → Option Bytes) (argv : List Bytes) :
    Except Exit Request :=
  match scanArgs ⟨env.getD (ascii "traces.db"), filtersOf [], none, none⟩ argv with
  | .ok m => m.call dbOpen
  | .error e => .error e

/-! ## The grammar of the arguments -/

/-- An option with its argument, or another word. -/
inductive Item
  | option (o : Flag) (v : Bytes)
  | word (w : Bytes)
  deriving DecidableEq

def Item.words : Item → List Bytes
  | .option o v => [o.text, v]
  | .word w => [w]

/-- A word that is not the argument of an option does not look like an option. -/
def Item.Ok : Item → Prop
  | .option .. => True
  | .word w => w.head? ≠ some 45

def Item.filter : Item → Option FilterOption
  | .option .db _ | .word _ => none
  | .option .service v => some (.service v)
  | .option .name v => some (.name v)
  | .option .status v => some (.status v)
  | .option .since v => some (.since (strtoll v))
  | .option .minDurationUs v => some (.minDurationUs (strtoll v))
  | .option .limit v => some (.limit (atoi v))

def Item.path : Item → Option Bytes
  | .option .db v => some v
  | _ => none

def Item.positional : Item → Option Bytes
  | .word w => some w
  | _ => none

/-- The arguments are those items. -/
def Reads (argv : List Bytes) (items : List Item) : Prop :=
  (∀ i ∈ items, i.Ok) ∧ items.flatMap Item.words = argv

/-- After some items comes a word that looks like an option and is not one, or has no argument. -/
def StopsAt (argv : List Bytes) (w : Bytes) : Prop :=
  ∃ (items : List Item) (ws : List Bytes), (∀ i ∈ items, i.Ok) ∧
    items.flatMap Item.words ++ w :: ws = argv ∧ w.head? = some 45 ∧ (ws = [] ∨ Flag.find w = none)

/-- The exit at a word that looks like an option. -/
def exitAt (w : Bytes) : Exit :=
  if w = ascii "-h" ∨ w = ascii "--help" then .help else .unknownOption w

def commandNames : List Bytes :=
  [ascii "list", ascii "show", ascii "spans", ascii "stats", ascii "sql"]

/-- The words do not call a command on the database at the path, for the reason `e`. -/
def Refuses (dbOpen : Bytes → Option Bytes) (path : Bytes) (e : Exit) : List Bytes → Prop
  | [] => e = .noCommand
  | cmd :: ps =>
    match dbOpen path with
    | some msg => e = .cannotOpen path msg
    | none =>
      (cmd :: ps = [ascii "show"] ∧ e = .needsTraceId) ∨
        (cmd :: ps = [ascii "sql"] ∧ e = .needsQuery) ∨
        (cmd ∉ commandNames ∧ e = .unknownCommand cmd)

/-- What the items say: the last `--db` and the filters, of which the later ones count, and the
first two words. -/
def varsOf (path : Bytes) (items : List Item) : MainVars where
  dbPath := (items.filterMap Item.path).getLastD path
  f := filtersOf (items.filterMap Item.filter)
  cmd := (items.filterMap Item.positional)[0]?
  arg := (items.filterMap Item.positional)[1]?

/-- The words after the options that call the command. -/
def Command.words : Command → List Bytes
  | .list => [ascii "list"]
  | .show id => [ascii "show", id]
  | .spans => [ascii "spans"]
  | .stats => [ascii "stats"]
  | .sql query => [ascii "sql", query]

/-- Arguments that ask for the request. -/
def Request.items (r : Request) : List Item :=
  [.option .db r.dbPath] ++
  (r.f.service.map (Item.option .service)).toList ++
  (r.f.name.map (Item.option .name)).toList ++
  (if r.f.statusError then [.option .status (ascii "error")] else []) ++
  [.option .since (decimal r.f.sinceSec.toInt),
    .option .minDurationUs (decimal r.f.minDurationUs.toInt),
    .option .limit (decimal r.f.limit.toInt)] ++
  r.command.words.map Item.word

def Request.argv (r : Request) : List Bytes := r.items.flatMap Item.words

/-- The words of the command do not look like options. -/
def Request.Ok (r : Request) : Prop := ∀ w ∈ r.command.words, w.head? ≠ some 45

end OtelTracing
