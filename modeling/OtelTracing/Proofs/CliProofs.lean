import OtelTracing.Cli
import OtelTracing.Proofs.PrintAttrsProofs

/-!
# Proofs: the command line of `otel-trace`

The loop over the arguments takes them apart into options, each with its argument, and other words,
or it stops at a word that looks like an option. A request that is written out as arguments is read
back.
-/

namespace OtelTracing

open ByteMem

variable {m : MainVars} {w path : Bytes} {argv ws : List Bytes} {o : Flag} {i : Item}
  {items : List Item} {e : Exit} {c : Command} {r : Request} {dbOpen : Bytes → Option Bytes}

/-! ## One word -/

theorem find_text (o : Flag) : Flag.find o.text = some o := by
  cases o <;> rfl

theorem find_some (h : Flag.find w = some o) : w = o.text := by
  unfold Flag.find at h
  have htext := List.find?_some h
  exact (of_decide_eq_true htext).symm

theorem text_head (o : Flag) : o.text.head? = some 45 := by
  cases o <;> rfl

theorem find_none (h : w.head? ≠ some 45) : Flag.find w = none := by
  cases hfind : Flag.find w with
  | none => rfl
  | some o =>
    rw [find_some hfind] at h
    exact absurd (text_head o) h

theorem word_ok (m : MainVars) (h : w.head? ≠ some 45) : m.word w = .ok (m.positional w) := by
  unfold MainVars.word
  have hhelp : ¬(w = ascii "-h" ∨ w = ascii "--help") := by
    rintro (rfl | rfl)
    · exact h rfl
    · exact h rfl
  rw [if_neg hhelp, if_neg h]

theorem word_error (m : MainVars) (h : w.head? = some 45) : m.word w = .error (exitAt w) := by
  unfold MainVars.word exitAt
  by_cases hhelp : w = ascii "-h" ∨ w = ascii "--help"
  · rw [if_pos hhelp, if_pos hhelp]
  · rw [if_neg hhelp, if_neg hhelp, if_pos h]

/-! ## The loop -/

def MainVars.item (m : MainVars) : Item → MainVars
  | .option o v => m.store v o
  | .word w => m.positional w

theorem scan_item (m : MainVars) (h : i.Ok) (ws : List Bytes) :
    scanArgs m (i.words ++ ws) = scanArgs (m.item i) ws := by
  cases i with
  | option o v =>
    change scanArgs m (o.text :: v :: ws) = _
    rw [scanArgs, find_text]
    rfl
  | word w =>
    cases ws with
    | nil => exact word_ok m h
    | cons v ws =>
      change scanArgs m (w :: v :: ws) = _
      rw [scanArgs, find_none h, word_ok m h]
      rfl

theorem scan_items (m : MainVars) (h : ∀ i ∈ items, i.Ok) (ws : List Bytes) :
    scanArgs m (items.flatMap Item.words ++ ws) = scanArgs (items.foldl MainVars.item m) ws := by
  induction items generalizing m with
  | nil => rfl
  | cons i items ih =>
    rw [List.flatMap_cons, List.append_assoc, scan_item m (h i List.mem_cons_self)]
    exact ih (m.item i) fun j hj => h j (List.mem_cons_of_mem _ hj)

theorem scan_reads (m : MainVars) (h : Reads argv items) :
    scanArgs m argv = .ok (items.foldl MainVars.item m) := by
  obtain ⟨hitems, rfl⟩ := h
  have hscan := scan_items m hitems []
  rw [List.append_nil] at hscan
  exact hscan

theorem scan_stops (m : MainVars) (h : StopsAt argv w) : scanArgs m argv = .error (exitAt w) := by
  obtain ⟨items, ws, hitems, rfl, hw, hrest⟩ := h
  rw [scan_items m hitems]
  cases ws with
  | nil => exact word_error _ hw
  | cons v ws =>
    rcases hrest with hnil | hfind
    · cases hnil
    · rw [scanArgs, hfind, word_error _ hw]

/-! ## All arguments -/

theorem Reads.item (hi : i.Ok) (h : Reads ws items) : Reads (i.words ++ ws) (i :: items) := by
  obtain ⟨hitems, rfl⟩ := h
  exact ⟨List.forall_mem_cons.mpr ⟨hi, hitems⟩, List.flatMap_cons⟩

theorem StopsAt.item (hi : i.Ok) (h : StopsAt ws w) : StopsAt (i.words ++ ws) w := by
  obtain ⟨items, rest, hitems, rfl, hw, hrest⟩ := h
  refine ⟨i :: items, rest, List.forall_mem_cons.mpr ⟨hi, hitems⟩, ?_, hw, hrest⟩
  rw [List.flatMap_cons, List.append_assoc]

theorem reads_or_stops_item (hi : i.Ok)
    (h : (∃ items, Reads ws items) ∨ ∃ w, StopsAt ws w) :
    (∃ items, Reads (i.words ++ ws) items) ∨ ∃ w, StopsAt (i.words ++ ws) w := by
  rcases h with ⟨items, h⟩ | ⟨w, h⟩
  · exact .inl ⟨i :: items, h.item hi⟩
  · exact .inr ⟨w, h.item hi⟩

/-- The induction is along the recursion of `scanArgs`. -/
theorem reads_or_stops (argv : List Bytes) :
    (∃ items, Reads argv items) ∨ ∃ w, StopsAt argv w := by
  induction argv using List.twoStepInduction with
  | nil => exact .inl ⟨[], List.forall_mem_nil _, rfl⟩
  | singleton w =>
    by_cases hw : w.head? = some 45
    · exact .inr ⟨w, [], [], List.forall_mem_nil _, rfl, hw, .inl rfl⟩
    · exact .inl ⟨[.word w], List.forall_mem_singleton.mpr hw, rfl⟩
  | cons_cons w v ws ihopt ihword =>
    cases hfind : Flag.find w with
    | some o =>
      rw [find_some hfind]
      exact reads_or_stops_item (i := .option o v) trivial ihopt
    | none =>
      by_cases hw : w.head? = some 45
      · exact .inr ⟨w, [], v :: ws, List.forall_mem_nil _, rfl, hw, .inr hfind⟩
      · exact reads_or_stops_item (i := .word w) hw (ihword v)

theorem words_inj {j : Item} {ws' : List Bytes} (hi : i.Ok) (hj : j.Ok)
    (h : i.words ++ ws = j.words ++ ws') : i = j ∧ ws = ws' := by
  cases i with
  | option o v =>
    cases j with
    | option o' v' =>
      obtain ⟨htext, hrest⟩ := List.cons.inj h
      obtain ⟨rfl, rfl⟩ := List.cons.inj hrest
      have hfind := congrArg Flag.find htext
      rw [find_text, find_text] at hfind
      cases hfind
      exact ⟨rfl, rfl⟩
    | word w =>
      obtain ⟨rfl, -⟩ := List.cons.inj h
      exact absurd (text_head o) hj
  | word w =>
    cases j with
    | option o v =>
      obtain ⟨rfl, -⟩ := List.cons.inj h
      exact absurd (text_head o) hi
    | word w' =>
      obtain ⟨rfl, rfl⟩ := List.cons.inj h
      exact ⟨rfl, rfl⟩

theorem words_ne_nil (i : Item) : i.words ≠ [] := by
  cases i with
  | option o v => exact List.cons_ne_nil _ _
  | word w => exact List.cons_ne_nil _ _

/-- The grammar is unambiguous. -/
theorem reads_unique {items' : List Item} (h : Reads argv items) (h' : Reads argv items') :
    items = items' := by
  obtain ⟨hitems, rfl⟩ := h
  obtain ⟨hitems', heq⟩ := h'
  induction items generalizing items' with
  | nil =>
    cases items' with
    | nil => rfl
    | cons j items' =>
      rw [List.flatMap_cons] at heq
      exact absurd (List.append_eq_nil_iff.mp heq).1 (words_ne_nil j)
  | cons i items ih =>
    cases items' with
    | nil =>
      rw [List.flatMap_cons] at heq
      exact absurd (List.append_eq_nil_iff.mp heq.symm).1 (words_ne_nil i)
    | cons j items' =>
      rw [List.flatMap_cons, List.flatMap_cons] at heq
      obtain ⟨rfl, hrest⟩ := words_inj (hitems' j List.mem_cons_self)
        (hitems i List.mem_cons_self) heq
      rw [ih (fun k hk => hitems k (List.mem_cons_of_mem _ hk))
        (fun k hk => hitems' k (List.mem_cons_of_mem _ hk)) hrest]

/-- The variables after the loop, as the items say them; the induction is on the last item. -/
theorem foldl_item (path : Bytes) (items : List Item) :
    items.foldl MainVars.item ⟨path, filtersOf [], none, none⟩ = varsOf path items := by
  induction items using List.reverseRecOn with
  | nil => rfl
  | append_singleton items i ih =>
    rw [List.foldl_concat, ih]
    cases i with
    | option o v =>
      cases o <;>
        simp [MainVars.item, MainVars.store, varsOf, List.filterMap_cons, Item.path, Item.filter,
          Item.positional, filtersOf]
    | word w =>
      rcases hps : items.filterMap Item.positional with _ | ⟨a, _ | ⟨b, ps⟩⟩ <;>
        simp [MainVars.item, MainVars.positional, varsOf, List.filterMap_cons, Item.path,
          Item.filter, Item.positional, hps]

theorem main_reads (env : Option Bytes) (h : Reads argv items) :
    otelTraceMain env dbOpen argv = (varsOf (env.getD (ascii "traces.db")) items).call dbOpen := by
  unfold otelTraceMain
  rw [scan_reads _ h, foldl_item]

theorem main_stops (env : Option Bytes) (h : StopsAt argv w) :
    otelTraceMain env dbOpen argv = .error (exitAt w) := by
  unfold otelTraceMain
  rw [scan_stops _ h]

/-! ## Commands -/

theorem command_words {cmd : Bytes} {ps : List Bytes} (harg : m.arg = ps.head?)
    (h : m.command cmd = .ok c) : c.words <+: cmd :: ps := by
  unfold MainVars.command at h
  split_ifs at h with hlist hshow hspans hstats hsql
  · cases h
    exact ⟨ps, by rw [hlist]; rfl⟩
  · cases ps with
    | nil =>
      rw [harg] at h
      cases h
    | cons id ps =>
      rw [harg] at h
      cases h
      exact ⟨ps, by rw [hshow]; rfl⟩
  · cases h
    exact ⟨ps, by rw [hspans]; rfl⟩
  · cases h
    exact ⟨ps, by rw [hstats]; rfl⟩
  · cases ps with
    | nil =>
      rw [harg] at h
      cases h
    | cons query ps =>
      rw [harg] at h
      cases h
      exact ⟨ps, by rw [hsql]; rfl⟩

theorem words_command {cmd : Bytes} {ps : List Bytes} (harg : m.arg = ps.head?)
    (h : c.words <+: cmd :: ps) : m.command cmd = .ok c := by
  obtain ⟨rest, hrest⟩ := h
  unfold MainVars.command
  cases c with
  | list =>
    cases hrest
    rfl
  | «show» id =>
    cases hrest
    rw [harg]
    rfl
  | spans =>
    cases hrest
    rfl
  | stats =>
    cases hrest
    rfl
  | sql query =>
    cases hrest
    rw [harg]
    rfl

theorem call_none (hcmd : m.cmd = none) : m.call dbOpen = .error .noCommand := by
  unfold MainVars.call
  rw [hcmd]

theorem call_closed {cmd msg : Bytes} (hcmd : m.cmd = some cmd)
    (hopen : dbOpen m.dbPath = some msg) :
    m.call dbOpen = .error (.cannotOpen m.dbPath msg) := by
  unfold MainVars.call
  simp only [hcmd, hopen]

theorem call_opened {cmd : Bytes} (hcmd : m.cmd = some cmd) (hopen : dbOpen m.dbPath = none) :
    m.call dbOpen = (m.command cmd).map fun command => ⟨m.dbPath, m.f, command⟩ := by
  unfold MainVars.call
  simp only [hcmd, hopen]

theorem call_ok_iff : m.call dbOpen = .ok r ↔
    (∃ cmd, m.cmd = some cmd ∧ m.command cmd = .ok r.command) ∧ m.dbPath = r.dbPath ∧ m.f = r.f ∧
      dbOpen r.dbPath = none := by
  constructor
  · intro h
    cases hcmd : m.cmd with
    | none =>
      rw [call_none hcmd] at h
      cases h
    | some cmd =>
      cases hopen : dbOpen m.dbPath with
      | some msg =>
        rw [call_closed hcmd hopen] at h
        cases h
      | none =>
        rw [call_opened hcmd hopen] at h
        cases hc : m.command cmd with
        | error e =>
          rw [hc] at h
          cases h
        | ok c =>
          rw [hc] at h
          cases h
          exact ⟨⟨cmd, rfl, hc⟩, rfl, rfl, hopen⟩
  · rintro ⟨⟨cmd, hcmd, hc⟩, hpath, hf, hopen⟩
    rw [← hpath] at hopen
    rw [call_opened hcmd hopen, hc, hpath, hf]
    rfl

theorem main_ok_iff (env : Option Bytes) (h : Reads argv items) :
    otelTraceMain env dbOpen argv = .ok r ↔ r.command.words <+: items.filterMap Item.positional ∧
      (items.filterMap Item.path).getLastD (env.getD (ascii "traces.db")) = r.dbPath ∧
      filtersOf (items.filterMap Item.filter) = r.f ∧ dbOpen r.dbPath = none := by
  rw [main_reads env h, call_ok_iff]
  refine and_congr_left' ?_
  change (∃ cmd, (items.filterMap Item.positional)[0]? = some cmd ∧ _) ↔ _
  cases hps : items.filterMap Item.positional with
  | nil =>
    constructor
    · rintro ⟨cmd, hcmd, -⟩
      cases hcmd
    · intro hwords
      cases hc : r.command <;> simp [hc, Command.words] at hwords
  | cons cmd ps =>
    have harg : (varsOf (env.getD (ascii "traces.db")) items).arg = ps.head? := by
      unfold varsOf
      rw [hps, List.getElem?_cons_succ, List.head?_eq_getElem?]
    constructor
    · rintro ⟨cmd', hcmd, hc⟩
      cases hcmd
      exact command_words harg hc
    · intro hwords
      exact ⟨cmd, rfl, words_command harg hwords⟩

/-- `main` calls a command exactly when the arguments are options, each with its argument, and words
of which the first are those of the command, and when the database opens. -/
theorem main_accepts (env : Option Bytes) (dbOpen : Bytes → Option Bytes) (argv : List Bytes)
    (r : Request) : otelTraceMain env dbOpen argv = .ok r ↔ ∃! items, Reads argv items ∧
      r.command.words <+: items.filterMap Item.positional ∧
      (items.filterMap Item.path).getLastD (env.getD (ascii "traces.db")) = r.dbPath ∧
      filtersOf (items.filterMap Item.filter) = r.f ∧ dbOpen r.dbPath = none := by
  constructor
  · intro h
    rcases reads_or_stops argv with ⟨items, hreads⟩ | ⟨w, hstops⟩
    · refine ⟨items, ⟨hreads, (main_ok_iff env hreads).mp h⟩, ?_⟩
      rintro items' ⟨hreads', -⟩
      exact reads_unique hreads' hreads
    · rw [main_stops env hstops] at h
      cases h
  · rintro ⟨items, ⟨hreads, hitems⟩, -⟩
    exact (main_ok_iff env hreads).mpr hitems

/-! ## Refusals -/

theorem command_error_iff {cmd : Bytes} {ps : List Bytes} (harg : m.arg = ps.head?) :
    m.command cmd = .error e ↔ (cmd :: ps = [ascii "show"] ∧ e = .needsTraceId) ∨
      (cmd :: ps = [ascii "sql"] ∧ e = .needsQuery) ∨
      (cmd ∉ commandNames ∧ e = .unknownCommand cmd) := by
  unfold MainVars.command
  constructor
  · intro h
    split_ifs at h with hlist hshow hspans hstats hsql
    · cases ps with
      | nil =>
        rw [harg] at h
        cases h
        exact .inl ⟨by rw [hshow], rfl⟩
      | cons id ps =>
        rw [harg] at h
        cases h
    · cases ps with
      | nil =>
        rw [harg] at h
        cases h
        exact .inr (.inl ⟨by rw [hsql], rfl⟩)
      | cons query ps =>
        rw [harg] at h
        cases h
    · cases h
      exact .inr (.inr ⟨by simp [commandNames, hlist, hshow, hspans, hstats, hsql], rfl⟩)
  · rintro (⟨hshow, rfl⟩ | ⟨hsql, rfl⟩ | ⟨hunknown, rfl⟩)
    · cases hshow
      rw [harg]
      rfl
    · cases hsql
      rw [harg]
      rfl
    · simp only [commandNames, List.mem_cons, List.not_mem_nil, or_false, not_or] at hunknown
      obtain ⟨hlist, hshow, hspans, hstats, hsql⟩ := hunknown
      rw [if_neg hlist, if_neg hshow, if_neg hspans, if_neg hstats, if_neg hsql]

theorem call_error_iff {ps : List Bytes} (hcmd : m.cmd = ps.head?) (harg : m.arg = ps.tail.head?) :
    m.call dbOpen = .error e ↔ Refuses dbOpen m.dbPath e ps := by
  unfold Refuses
  cases ps with
  | nil =>
    rw [call_none hcmd]
    constructor
    · rintro ⟨⟩
      rfl
    · rintro rfl
      rfl
  | cons cmd ps =>
    cases hopen : dbOpen m.dbPath with
    | some msg =>
      rw [call_closed hcmd hopen]
      constructor
      · rintro ⟨⟩
        rfl
      · rintro rfl
        rfl
    | none =>
      have hsecond : m.arg = ps.head? := harg
      refine Iff.trans ?_ (command_error_iff hsecond)
      rw [call_opened hcmd hopen]
      cases m.command cmd with
      | ok c =>
        constructor
        · rintro ⟨⟩
        · rintro ⟨⟩
      | error e' =>
        constructor
        · rintro ⟨⟩
          rfl
        · rintro ⟨⟩
          rfl

theorem vars_refuses (items : List Item) : (varsOf path items).call dbOpen = .error e ↔
    Refuses dbOpen ((items.filterMap Item.path).getLastD path) e
      (items.filterMap Item.positional) := by
  refine call_error_iff ?_ ?_
  · exact List.head?_eq_getElem?.symm
  · rw [List.head?_eq_getElem?, List.getElem?_tail]
    rfl

/-- `main` gives up at the first word that looks like an option and cannot be one, or for what the
other words say. -/
theorem main_exits (env : Option Bytes) (dbOpen : Bytes → Option Bytes) (argv : List Bytes)
    (e : Exit) : otelTraceMain env dbOpen argv = .error e ↔
      (∃ w, StopsAt argv w ∧ exitAt w = e) ∨ ∃ items, Reads argv items ∧
        Refuses dbOpen ((items.filterMap Item.path).getLastD (env.getD (ascii "traces.db"))) e
          (items.filterMap Item.positional) := by
  constructor
  · intro h
    rcases reads_or_stops argv with ⟨items, hreads⟩ | ⟨w, hstops⟩
    · rw [main_reads env hreads] at h
      exact .inr ⟨items, hreads, (vars_refuses items).mp h⟩
    · rw [main_stops env hstops] at h
      cases h
      exact .inl ⟨w, hstops, rfl⟩
  · rintro (⟨w, hstops, rfl⟩ | ⟨items, hreads, hrefuses⟩)
    · exact main_stops env hstops
    · rw [main_reads env hreads]
      exact (vars_refuses items).mpr hrefuses

/-- An option without its argument -/
example : otelTraceMain none (fun _ => none)
    [ascii "--limit", ascii "5", ascii "list", ascii "--db"] =
      .error (.unknownOption (ascii "--db")) := rfl

theorem refuses_code {ps : List Bytes} (h : Refuses dbOpen path e ps) : e.code ≠ 0 := by
  unfold Refuses at h
  split at h
  · simp [h, Exit.code]
  · split at h
    · simp [h, Exit.code]
    · rcases h with ⟨-, rfl⟩ | ⟨-, rfl⟩ | ⟨-, rfl⟩ <;> simp [Exit.code]

theorem exitAt_code : (exitAt w).code = 0 ↔ w = ascii "-h" ∨ w = ascii "--help" := by
  unfold exitAt
  by_cases hhelp : w = ascii "-h" ∨ w = ascii "--help"
  · rw [if_pos hhelp]
    exact iff_of_true rfl hhelp
  · rw [if_neg hhelp]
    exact iff_of_false (by simp [Exit.code]) hhelp

/-- Without a command, `main` returns zero only where it is asked for help. -/
theorem main_code {env : Option Bytes} (h : otelTraceMain env dbOpen argv = .error e) :
    e.code = 0 ↔ ∃ w, StopsAt argv w ∧ (w = ascii "-h" ∨ w = ascii "--help") := by
  constructor
  · intro hcode
    rcases reads_or_stops argv with ⟨items, hreads⟩ | ⟨w, hstops⟩
    · rw [main_reads env hreads] at h
      exact absurd hcode (refuses_code ((vars_refuses items).mp h))
    · rw [main_stops env hstops] at h
      cases h
      exact ⟨w, hstops, exitAt_code.mp hcode⟩
  · rintro ⟨w, hstops, hhelp⟩
    rw [main_stops env hstops] at h
    cases h
    exact exitAt_code.mpr hhelp

theorem message_names (h : w ∈ e.names) : w <:+: e.message := by
  cases e with
  | unknownOption w' =>
    cases List.mem_singleton.mp h
    exact ⟨ascii "otel-trace: unknown option ", ascii "\n" ++ usage, (List.append_assoc ..).symm⟩
  | unknownCommand w' =>
    cases List.mem_singleton.mp h
    exact ⟨ascii "otel-trace: unknown command ", ascii "\n" ++ usage, (List.append_assoc ..).symm⟩
  | cannotOpen path msg =>
    rcases List.mem_pair.mp h with rfl | rfl
    · exact ⟨ascii "otel-trace: cannot open ", ascii ": " ++ msg ++ ascii "\n",
        by simp only [Exit.message, List.append_assoc]⟩
    · exact ⟨ascii "otel-trace: cannot open " ++ path ++ ascii ": ", ascii "\n", rfl⟩
  | help => cases h
  | noCommand => cases h
  | needsTraceId => cases h
  | needsQuery => cases h

/-! ## Numbers -/

theorem isDigit_of_mem {n : Nat} {b : UInt8} (h : b ∈ digits n) : isDigit b = true := by
  obtain ⟨d, hd, rfl⟩ := List.mem_map.mp h
  obtain ⟨hlow, hhigh, hbyte⟩ := digit_range hd
  have hle : 48 ≤ UInt8.ofNat d.toNat := UInt8.le_iff_toNat_le.mpr (hbyte.symm ▸ hlow)
  have hge : UInt8.ofNat d.toNat ≤ 57 := UInt8.le_iff_toNat_le.mpr (hbyte.symm ▸ hhigh)
  unfold isDigit
  rw [decide_eq_true hle, decide_eq_true hge, Bool.and_self]

theorem not_space {b : UInt8} (h : isDigit b = true) : isSpace b = false := by
  unfold isDigit at h
  rw [Bool.and_eq_true, decide_eq_true_eq, decide_eq_true_eq, UInt8.le_iff_toNat_le] at h
  have hlow : 48 ≤ b.toNat := h.1
  have hne : b ≠ 32 := by
    rintro rfl
    exact absurd hlow (by decide)
  have hgt : ¬b ≤ 13 := by
    intro hle
    have hhigh : b.toNat ≤ 13 := UInt8.le_iff_toNat_le.mp hle
    omega
  unfold isSpace
  rw [decide_eq_false hne, decide_eq_false hgt, Bool.and_false, Bool.or_self]

theorem digitsValue_digits (n : Nat) : digitsValue (digits n) = n := by
  unfold digitsValue
  rw [List.takeWhile_eq_self_iff.mpr fun b hb => isDigit_of_mem hb]
  calc (digits n).foldl (fun k b => 10 * k + (b.toNat - 48)) 0
      = (Nat.toDigits 10 n).foldl (fun k d => 10 * k + (d.toNat - '0'.toNat)) 0 := by
        unfold digits
        rw [List.foldl_map]
        refine List.foldl_ext _ _ 0 fun k d hd => ?_
        rw [(digit_range hd).2.2]
        rfl
    _ = n := by rw [← Nat.ofDigitChars_eq_foldl, Nat.ofDigitChars_ten_toDigits]

theorem strtoll_digits (n : Nat) : strtoll (digits n) = nearest n := by
  have hne : digits n ≠ [] := by simp [digits]
  obtain ⟨b, s, hcons⟩ := List.exists_cons_of_ne_nil hne
  have hfirst : ∀ b s, digits n = b :: s → isDigit b = true := by
    intro b s h
    exact isDigit_of_mem (h ▸ List.mem_cons_self : b ∈ digits n)
  have hdrop : (digits n).dropWhile isSpace = digits n := by
    rw [hcons, List.dropWhile_cons_of_neg (by simp [not_space (hfirst b s hcons)])]
  unfold strtoll
  rw [hdrop]
  split
  · next s' hminus => exact absurd (hfirst 45 s' hminus) (by decide)
  · next s' hplus => exact absurd (hfirst 43 s' hplus) (by decide)
  · rw [digitsValue_digits]

theorem strtoll_minus (n : Nat) : strtoll (45 :: digits n) = nearest (-n) := by
  unfold strtoll
  rw [List.dropWhile_cons_of_neg (by decide)]
  change nearest (-(digitsValue (digits n) : Int)) = _
  rw [digitsValue_digits]

theorem nearest_toInt (n : Int64) : nearest n.toInt = n := by
  have hlow := n.le_toInt
  have hhigh := n.toInt_lt
  unfold nearest
  rw [min_eq_left (by omega), max_eq_right (by omega), Int64.ofInt_toInt]

/-- A number that is printed with `%lld` is read back. -/
theorem strtoll_decimal (n : Int64) : strtoll (decimal n.toInt) = n := by
  unfold decimal
  by_cases hneg : n.toInt < 0
  · rw [if_pos hneg, strtoll_minus, show -(n.toInt.natAbs : Int) = n.toInt by omega, nearest_toInt]
  · rw [if_neg hneg, strtoll_digits, show (n.toInt.natAbs : Int) = n.toInt by omega, nearest_toInt]

theorem atoi_decimal (n : Int32) : atoi (decimal n.toInt) = n := by
  have hlong := strtoll_decimal n.toInt64
  rw [Int32.toInt_toInt64] at hlong
  unfold atoi
  rw [hlong, Int32.toInt32_toInt64]

/-! ## Requests as arguments -/

theorem path_items (r : Request) : r.items.filterMap Item.path = [r.dbPath] := by
  obtain ⟨dbPath, ⟨service, name, statusError, since, dur, limit⟩, command⟩ := r
  have hwords : (command.words.map Item.word).filterMap Item.path = [] :=
    List.filterMap_eq_nil_iff.mpr (by simp [Item.path])
  cases service <;> cases name <;> cases statusError <;>
    simp [Request.items, List.filterMap_cons, Item.path, hwords]

theorem positional_items (r : Request) : r.items.filterMap Item.positional = r.command.words := by
  obtain ⟨dbPath, ⟨service, name, statusError, since, dur, limit⟩, command⟩ := r
  have hwords : (command.words.map Item.word).filterMap Item.positional = command.words := by
    rw [List.filterMap_map]
    exact List.filterMap_some
  cases service <;> cases name <;> cases statusError <;>
    simp [Request.items, List.filterMap_cons, Item.positional, hwords]

theorem filter_items (r : Request) : filtersOf (r.items.filterMap Item.filter) = r.f := by
  obtain ⟨dbPath, ⟨service, name, statusError, since, dur, limit⟩, command⟩ := r
  have hwords : (command.words.map Item.word).filterMap Item.filter = [] :=
    List.filterMap_eq_nil_iff.mpr (by simp [Item.filter])
  cases service <;> cases name <;> cases statusError <;>
    simp [Request.items, List.filterMap_cons, Item.filter, hwords, filtersOf, Filters.set,
      strtoll_decimal, atoi_decimal]

theorem reads_argv (h : r.Ok) : Reads r.argv r.items := by
  refine ⟨fun i hi => ?_, rfl⟩
  cases i with
  | option o v => trivial
  | word w =>
    refine h w ?_
    rw [← positional_items]
    exact List.mem_filterMap.mpr ⟨.word w, hi, rfl⟩

theorem main_argv (env : Option Bytes) (h : r.Ok) (hopen : dbOpen r.dbPath = none) :
    otelTraceMain env dbOpen r.argv = .ok r := by
  rw [main_ok_iff env (reads_argv h), positional_items, path_items]
  exact ⟨List.prefix_rfl, rfl, filter_items r, hopen⟩

/-- The words of a command that is called do not look like options. -/
theorem main_request_ok {env : Option Bytes} (h : otelTraceMain env dbOpen argv = .ok r) :
    r.Ok ∧ dbOpen r.dbPath = none := by
  rcases reads_or_stops argv with ⟨items, hreads⟩ | ⟨w, hstops⟩
  · obtain ⟨hwords, -, -, hopen⟩ := (main_ok_iff env hreads).mp h
    refine ⟨fun w hw => ?_, hopen⟩
    obtain ⟨i, hi, hword⟩ := List.mem_filterMap.mp (hwords.subset hw)
    cases i with
    | option o v => cases hword
    | word w' =>
      cases hword
      exact hreads.1 _ hi
  · rw [main_stops env hstops] at h
    cases h

/-- A request that can be made at all is read back from arguments of one form, whatever the
environment says. -/
theorem main_round_trip (env : Option Bytes) (dbOpen : Bytes → Option Bytes) (r : Request) :
    (otelTraceMain env dbOpen r.argv = .ok r ↔ r.Ok ∧ dbOpen r.dbPath = none) ∧
      ∀ env' argv, otelTraceMain env' dbOpen argv = .ok r →
        otelTraceMain env dbOpen r.argv = .ok r := by
  constructor
  · constructor
    · exact main_request_ok
    · rintro ⟨hok, hopen⟩
      exact main_argv env hok hopen
  · intro env' argv h
    obtain ⟨hok, hopen⟩ := main_request_ok h
    exact main_argv env hok hopen

end OtelTracing
