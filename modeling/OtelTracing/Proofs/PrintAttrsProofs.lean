import OtelTracing.PrintAttrs
import OtelTracing.Proofs.AgreeProofs

/-!
# Proofs: the attributes that are printed

What is printed of a row depends on the pair that the row stands for; and an attribute that was
recorded keeps its place among those of the span or of the event.
-/

namespace OtelTracing

open ByteMem

variable {g : UInt64 → Bytes} {pad key : Bytes} {arg : AttrArg} {target : AttrTarget}
  {pos : AttrPos} {v : SpanView} {a : AttrView} {row : AttrRow}

/-! ## Numbers and strings -/

theorem digit_range {n : Nat} {d : Char} (hd : d ∈ Nat.toDigits 10 n) :
    48 ≤ d.toNat ∧ d.toNat ≤ 57 ∧ (UInt8.ofNat d.toNat).toNat = d.toNat := by
  have hdigit := Nat.isDigit_of_mem_toDigits (by decide) (by decide) hd
  simp only [Char.isDigit, ge_iff_le, Bool.and_eq_true, decide_eq_true_eq, UInt32.le_iff_toNat_le]
    at hdigit
  have hlow : 48 ≤ d.toNat := hdigit.1
  have hhigh : d.toNat ≤ 57 := hdigit.2
  refine ⟨hlow, hhigh, ?_⟩
  rw [UInt8.toNat_ofNat']
  omega

theorem minus_not_mem_digits (n : Nat) : (45 : UInt8) ∉ digits n := by
  intro h
  obtain ⟨d, hd, hb⟩ := List.mem_map.mp h
  obtain ⟨hlow, -, hbyte⟩ := digit_range hd
  rw [hb] at hbyte
  have : (45 : UInt8).toNat = 45 := rfl
  omega

/-- An unsigned number that is printed as a signed one. -/
theorem decimal_toInt64 (u : UInt64) : decimal u.toInt64.toInt = digits u.toNat ↔ u.toNat < 2 ^ 63 := by
  have hint : u.toInt64.toInt = if 2 * u.toNat < 2 ^ 64 then (u.toNat : Int)
      else u.toNat - (2 ^ 64 : Nat) :=
    BitVec.toInt_eq_toNat_cond u.toBitVec
  have hlt := u.toNat_lt
  unfold decimal
  by_cases hsmall : u.toNat < 2 ^ 63
  · rw [if_pos (by omega)] at hint
    rw [hint, if_neg (by omega), Int.natAbs_natCast]
    exact iff_of_true rfl hsmall
  · rw [if_neg (by omega)] at hint
    rw [hint, if_pos (by omega)]
    constructor
    · intro h
      exact absurd (h ▸ List.mem_cons_self) (minus_not_mem_digits u.toNat)
    · intro h
      exact absurd h hsmall

theorem cutStr_eq_iff (b : Bytes) : cutStr b = b ↔ 0 ∉ b := by
  constructor
  · intro h hmem
    rw [← h] at hmem
    have := List.mem_takeWhile_imp hmem
    simp at this
  · exact cutStr_of_nulFree

theorem quoted_inj {x y : Bytes} : quoted x = quoted y ↔ x = y := by
  simp [quoted]

theorem attrLine_inj {x y : Bytes} : attrLine pad key x = attrLine pad key y ↔ x = y := by
  simp [attrLine]

/-! ## Rows -/

/-- What is printed of a value that is stored. -/
def AttrValue.print (g : UInt64 → Bytes) : AttrValue → Bytes
  | .str text => quoted (cutStr text)
  | .i64 n => decimal n.toInt
  | .u64 n => decimal n.toInt64.toInt
  | .f64 bits => g bits
  | .bool b => if b then ascii "true" else ascii "false"

theorem type_of_ofCode {n : Nat} {t : OtelAttrType} (h : OtelAttrType.ofCode n = some t) :
    n = t.code := by
  unfold OtelAttrType.ofCode at h
  split at h <;> cases h <;> rfl

/-- What is printed of a row, by the pair that it stands for. -/
theorem printAttrRow_eq (hpair : row.pair = some a.proto) :
    printAttrRow g pad row = attrLine pad (cutStr a.key) (a.value.print g) := by
  obtain ⟨value, hvalue, hproto⟩ := Option.map_eq_some_iff.mp hpair
  have hkey : row.key = a.key := congrArg Proto.KeyValue.key hproto
  have hval : value = a.value.proto := congrArg Proto.KeyValue.value hproto
  unfold printAttrRow
  rw [hkey]
  apply congrArg
  unfold AttrRow.value at hvalue
  unfold printValue
  obtain ⟨key, av⟩ := a
  split at hvalue
  · rename_i text htype hs hi hd
    rw [type_of_ofCode htype, hs]
    cases hvalue
    cases av <;> cases hval
    rfl
  · rename_i n htype hs hi hd
    rw [type_of_ofCode htype, hi]
    cases hvalue
    cases av <;> cases hval <;> rfl
  · rename_i n htype hs hi hd
    rw [type_of_ofCode htype, hi]
    cases hvalue
    cases av <;> cases hval <;> rfl
  · rename_i bits htype hs hi hd
    rw [type_of_ofCode htype, hd]
    cases hvalue
    cases av <;> cases hval
    rfl
  · rename_i n htype hs hi hd
    rw [type_of_ofCode htype, hi]
    cases hvalue
    cases av <;> cases hval
    by_cases hn : n = 0
    · subst hn
      rfl
    · simp [OtelAttrType.code, AttrValue.print, hn]
  · cases hvalue

/-! ## Places -/

def SpanView.attrAt (v : SpanView) : AttrPos → Option AttrView
  | .span i => v.attrs[i]?
  | .event e i => v.events[e]?.bind fun event => event.attrs[i]?

theorem addAttr_some {used used' : Nat} {as as' : List AttrView} {key : Option Bytes}
    (h : addAttr used as key arg = (used', some as')) : ∃ a, as' = as ++ [a] := by
  unfold addAttr at h
  rcases hcharge : chargeAttr used key with ⟨u, _ | k⟩
  · rw [hcharge] at h
    cases h
  · rw [hcharge] at h
    cases h
    exact ⟨_, rfl⟩

theorem getElem?_append {α : Type} {xs ys : List α} {i : Nat} {x : α} (h : xs[i]? = some x) :
    (xs ++ ys)[i]? = some x := by
  rw [List.getElem?_append_left (List.getElem?_eq_some_iff.mp h).1]
  exact h

/-- Attributes may be added to an event. -/
theorem attrAt_set {handle : Nat} {old : EventView} {attrs : List AttrView} {used dropped : Nat}
    (hold : v.events[handle]? = some old)
    (hattrs : ∀ i : Nat, old.attrs[i]? = some a → attrs[i]? = some a) (h : v.attrAt pos = some a) :
    SpanView.attrAt { v with
      used := used
      events := v.events.set handle { old with attrs := attrs, dropped := dropped } } pos =
        some a := by
  cases pos with
  | span i => exact h
  | event e i =>
    obtain ⟨event, hevent, hattr⟩ := Option.bind_eq_some_iff.mp h
    apply Option.bind_eq_some_iff.mpr
    by_cases he : handle = e
    · subst he
      rw [hold] at hevent
      cases hevent
      exact ⟨_, List.getElem?_set_self (List.getElem?_eq_some_iff.mp hold).1, hattrs i hattr⟩
    · refine ⟨event, ?_, hattr⟩
      rw [List.getElem?_set_ne he]
      exact hevent

/-- A call leaves every attribute where it is. -/
theorem attrAt_call (c : Call) (h : v.attrAt pos = some a) : (v.call c).attrAt pos = some a := by
  cases c with
  | setName name => cases pos <;> exact h
  | setStatus status message => cases pos <;> exact h
  | finish now => cases pos <;> exact h
  | attr key arg =>
    rcases hadd : addAttr v.used v.attrs key arg with ⟨used, _ | attrs⟩
    · simp only [SpanView.call, hadd]
      cases pos <;> exact h
    · simp only [SpanView.call, hadd]
      cases pos with
      | span i =>
        obtain ⟨new, rfl⟩ := addAttr_some hadd
        exact getElem?_append h
      | event e i => exact h
  | event name now =>
    rcases hcharge : charge (chargeStr v.used name).1 sizeofOtelEvent with _ | used
    · simp only [SpanView.call, hcharge]
      cases pos <;> exact h
    · simp only [SpanView.call, hcharge]
      cases pos with
      | span i => exact h
      | event e i =>
        obtain ⟨event, hevent, hattr⟩ := Option.bind_eq_some_iff.mp h
        exact Option.bind_eq_some_iff.mpr ⟨event, getElem?_append hevent, hattr⟩
  | eventAttr handle key arg =>
    rcases hold : v.events[handle]? with _ | old
    · simp only [SpanView.call, hold]
      exact h
    · rcases hadd : addAttr v.used old.attrs key arg with ⟨used, _ | attrs⟩
      · simp only [SpanView.call, hold, hadd]
        exact attrAt_set hold (fun i hi => hi) h
      · simp only [SpanView.call, hold, hadd]
        obtain ⟨new, rfl⟩ := addAttr_some hadd
        exact attrAt_set hold (fun i hi => getElem?_append hi) h

theorem attrAt_calls (cs : List Call) (h : v.attrAt pos = some a) :
    (v.calls cs).attrAt pos = some a := by
  induction cs generalizing v with
  | nil => exact h
  | cons c cs ih => exact ih (attrAt_call c h)

/-! ## What is recorded -/

def AttrArg.value : AttrArg → AttrValue
  | .str value => .str (cutStr (value.getD []))
  | .strn value len => .str ((value.getD []).takeD len.toNat 0)
  | .i64 value => .i64 value
  | .u64 value => .u64 value
  | .bool value => .bool (value ≠ 0)

theorem chargeBytes_snd {used : Nat} {b k : Bytes} (h : (chargeBytes used b).2 = some k) : k = b := by
  unfold chargeBytes at h
  cases hcharge : charge used (b.length + 1) with
  | none =>
    rw [hcharge] at h
    cases h
  | some used' =>
    rw [hcharge] at h
    exact (Option.some.inj h).symm

theorem chargeAttr_key {used used' : Nat} {k : Bytes}
    (h : chargeAttr used (some key) = (used', some k)) : k = cutStr key := by
  unfold chargeAttr at h
  cases hcharge : charge (chargeStr used (some key)).1 sizeofOtelAttr with
  | none =>
    rw [hcharge] at h
    cases h
  | some used'' =>
    rw [hcharge] at h
    exact chargeBytes_snd (congrArg Prod.snd h)

theorem chargeValue_eq {used : Nat} (h : arg.Fits used) : (chargeValue used arg).2 = arg.value := by
  cases arg with
  | str value =>
    obtain ⟨b, hb⟩ := Option.isSome_iff_exists.mp h
    cases value with
    | none => cases hb
    | some value =>
      simp only [chargeValue, hb, chargeBytes_snd hb]
      rfl
  | strn value len =>
    obtain ⟨b, hb⟩ := Option.isSome_iff_exists.mp h
    cases value with
    | none => cases hb
    | some value =>
      simp only [chargeValue, hb, chargeBytes_snd hb]
      rfl
  | i64 value => rfl
  | u64 value => rfl
  | bool value => rfl

/-- An attribute that fits gets the next place. -/
theorem attrAt_nextPos (h : v.Accepts target key arg) :
    (v.call (target.call key arg)).attrAt (v.nextPos target) = some ⟨cutStr key, arg.value⟩ := by
  obtain ⟨hhandle, used, k, hcharge, hfits⟩ := h
  have hadd : ∀ as, addAttr v.used as (some key) arg =
      ((chargeValue used arg).1, some (as ++ [⟨cutStr key, arg.value⟩])) := by
    intro as
    simp only [addAttr, hcharge, chargeAttr_key hcharge, chargeValue_eq hfits]
  cases target with
  | span =>
    simp only [AttrTarget.call, SpanView.call, hadd]
    exact List.getElem?_concat_length
  | event handle =>
    have hlt := hhandle handle rfl
    have hold : v.events[handle]? = some v.events[handle] := List.getElem?_eq_getElem hlt
    simp only [AttrTarget.call, SpanView.call, SpanView.nextPos, hold, hadd, Option.map_some,
      Option.getD_some]
    exact Option.bind_eq_some_iff.mpr
      ⟨_, List.getElem?_set_self hlt, List.getElem?_concat_length⟩

/-- The value is printed as it should be exactly if it is printable. -/
theorem print_eq_text (g : UInt64 → Bytes) (arg : AttrArg) :
    arg.value.cut.print g = arg.text ↔ arg.Printable := by
  cases arg with
  | str value =>
    refine iff_of_true ?_ trivial
    show quoted (cutStr (cutStr (cutStr _))) = quoted (cutStr _)
    rw [cutStr_cutStr, cutStr_cutStr]
  | strn value len =>
    show quoted (cutStr (cutStr _)) = quoted _ ↔ _
    rw [cutStr_cutStr, quoted_inj]
    exact cutStr_eq_iff _
  | i64 value => exact iff_of_true rfl trivial
  | u64 value => exact decimal_toInt64 value
  | bool value =>
    refine iff_of_true ?_ trivial
    by_cases hvalue : value = 0
    · subst hvalue
      rfl
    · simp [AttrArg.value, AttrValue.cut, AttrValue.print, AttrArg.text, hvalue]

/-! ## The lines of a span -/

theorem forall₂_getElem? {α β : Type} {r : α → β → Prop} {xs : List α} {ys : List β} {i : Nat}
    {y : β} (h : List.Forall₂ r xs ys) (hy : ys[i]? = some y) : ∃ x, xs[i]? = some x ∧ r x y := by
  induction h generalizing i with
  | nil => cases hy
  | cons hhead _ ih =>
    cases i with
    | zero =>
      cases hy
      exact ⟨_, rfl, hhead⟩
    | succ i => exact ih hy

/-- The line of a row, from the list of the pairs that the rows stand for. -/
theorem line_of_pairs {rows : List AttrRow} {as : List AttrView} {i : Nat}
    (hpairs : rows.map AttrRow.pair = (as.map AttrView.proto).map some) (ha : as[i]? = some a) :
    (rows.map (printAttrRow g pad))[i]? = some (attrLine pad (cutStr a.key) (a.value.print g)) := by
  have hget := congrArg (fun l => l[i]?) hpairs
  simp only [List.getElem?_map, ha, Option.map_some] at hget
  obtain ⟨row, hrow, hpair⟩ := Option.map_eq_some_iff.mp hget
  rw [List.getElem?_map, hrow, Option.map_some, printAttrRow_eq hpair]

theorem attrLine_of_describes {rows : Store} {row : SpanRow} {s : OtelSpan}
    (h : Describes rows row (spanProto s v.cut)) (ha : v.attrAt pos = some a) :
    rows.attrLine g pad pos =
      some (attrLine pad (cutStr a.cut.key) (a.cut.value.print g)) := by
  cases pos with
  | span i =>
    have hmine : rows.spanAttrs.filter (fun a => a.owner = row.id) = rows.spanAttrs :=
      List.filter_eq_self.mpr fun a ha => by simp [h.attr_owner a ha]
    simp only [Store.attrLine, h.spans, List.getElem?_cons_zero, Option.bind_eq_bind,
      Option.bind_some, hmine]
    have hcut : (v.attrs.map AttrView.cut)[i]? = some a.cut := by
      rw [List.getElem?_map]
      exact congrArg (Option.map AttrView.cut) ha
    exact line_of_pairs h.attrs hcut
  | event e i =>
    obtain ⟨event, hevent, hattr⟩ := Option.bind_eq_some_iff.mp ha
    have hproto : ((v.events.map EventView.cut).map EventView.proto)[e]? = some event.cut.proto := by
      rw [List.getElem?_map, List.getElem?_map, hevent]
      rfl
    obtain ⟨er, her, hagrees⟩ := forall₂_getElem? h.events hproto
    simp only [Store.attrLine, her, Option.bind_eq_bind, Option.bind_some]
    have hcut : (event.attrs.map AttrView.cut)[i]? = some a.cut := by
      rw [List.getElem?_map, hattr]
      rfl
    exact line_of_pairs hagrees.attrs hcut

/-- What is printed of an attribute that fitted when it was recorded. -/
theorem recorded_line (g : UInt64 → Bytes) (pad service : Bytes) (c : StartCall) (env : StartEnv)
    (tls : Option OtelRandomState) (s₀ : OtelSpan) (name : Option Bytes) (kind : UInt32)
    (pre post : List Call) (target : AttrTarget) (key : Bytes) (arg : AttrArg) (now : UInt64)
    (st : OtelSqlite) (hrec : otelSpanRecording (c.run env tls s₀ name kind).2 = true)
    (hname : ShortStr name) (hcalls : ∀ c ∈ pre ++ target.call key arg :: post, c.Short)
    (hfits : ((SpanView.start name).calls pre).Accepts target key arg)
    (hin : st.inTxn = true) (hdone : ∀ r ∈ st.conn.answers, r = Txn.Answer.done) :
    ∃ st', otelSqliteSpan service st (stampEnd (Session.calls
        ⟨(c.run env tls s₀ name kind).2, []⟩ (pre ++ target.call key arg :: post)).span now) =
          .ok st' ∧
      (st'.conn.data.since st.conn.data).attrLine g pad
          (((SpanView.start name).calls pre).nextPos target) =
        some (attrLine pad (cutStr key) (arg.value.cut.print g)) := by
  obtain ⟨L, hL, hview⟩ := session_spec hrec hname hcalls
  have hrepr := hL.repr
  generalize Session.span (Session.calls _ _) = s at hrepr hview ⊢
  have hrepr' : Represents (stampEnd s now) L := { hrepr with }
  obtain ⟨hattrs, hevents⟩ := L.storable (stampEnd s now)
  obtain ⟨rows, row, hdata, hdescribes⟩ :=
    wrote_span service hdone hin (stampEnd s now) hattrs hevents
  have hat : (L.view (stampEnd s now)).attrAt (((SpanView.start name).calls pre).nextPos target) =
      some ⟨cutStr key, arg.value⟩ := by
    have hlist : ((SpanView.start name).calls (pre ++ target.call key arg :: post)) =
        (((SpanView.start name).calls pre).call (target.call key arg)).calls post :=
      List.foldl_append
    have hplace := attrAt_calls post (attrAt_nextPos hfits)
    rw [← hlist, ← hview] at hplace
    exact hplace
  refine ⟨_, otelSqliteSpan_eq hrepr' st, ?_⟩
  rw [hdata, since_append, attrLine_of_describes hdescribes hat]
  show some (attrLine pad (cutStr (cutStr (cutStr key))) _) = _
  rw [cutStr_cutStr, cutStr_cutStr]
  rfl

/-- An attribute that was recorded through the API, on a span or on an event, is printed with exactly
its value, if and only if the value is no `uint64_t` above `INT64_MAX` and no string with a NUL among
its bytes. -/
theorem attrs_printed (g : UInt64 → Bytes) (pad service : Bytes) (c : StartCall) (env : StartEnv)
    (tls : Option OtelRandomState) (s₀ : OtelSpan) (name : Option Bytes) (kind : UInt32)
    (pre post : List Call) (target : AttrTarget) (key : Bytes) (arg : AttrArg) (now : UInt64)
    (st : OtelSqlite) (hrec : otelSpanRecording (c.run env tls s₀ name kind).2 = true)
    (hname : ShortStr name) (hcalls : ∀ c ∈ pre ++ target.call key arg :: post, c.Short)
    (hfits : ((SpanView.start name).calls pre).Accepts target key arg)
    (hin : st.inTxn = true) (hdone : ∀ r ∈ st.conn.answers, r = Txn.Answer.done) :
    ∃ st', otelSqliteSpan service st (stampEnd (Session.calls
        ⟨(c.run env tls s₀ name kind).2, []⟩ (pre ++ target.call key arg :: post)).span now) =
          .ok st' ∧
      ((st'.conn.data.since st.conn.data).attrLine g pad
          (((SpanView.start name).calls pre).nextPos target) =
        some (attrLine pad (cutStr key) arg.text) ↔ arg.Printable) := by
  obtain ⟨st', hst', hline⟩ := recorded_line g pad service c env tls s₀ name kind pre post target
    key arg now st hrec hname hcalls hfits hin hdone
  refine ⟨st', hst', ?_⟩
  rw [hline, Option.some_inj, attrLine_inj]
  exact print_eq_text g arg

/-- The sink in the transaction of its first pass over an empty store. -/
def firstPass : OtelSqlite :=
  { OtelSqlite.opened Store.empty with
    conn := { data := Store.empty, txn := some (1, Store.empty), answers := [] }
    inTxn := true, pass := 1, inPass := true }

/-- A string of two bytes on an event. -/
theorem attrs_printed_event : ∃ st',
    otelSqliteSpan [] firstPass (stampEnd (Session.calls (sampleSession [104, 105])
      [.event (some [101]) 9, .eventAttr 0 (some [109]) (.strn (some [110, 111, 0]) 2),
        .setName (some [120])]).span 12) = .ok st' ∧
    (st'.conn.data.since Store.empty).attrLine (fun _ => []) [] (.event 0 0) =
      some (attrLine [] [109] (quoted [110, 111])) := by
  obtain ⟨st', hst', hline⟩ := attrs_printed (fun _ => []) [] [] .root ⟨true, true, 0, 7⟩
    (some ⟨1, 0⟩) zeroSpan (some [104, 105]) 1 [.event (some [101]) 9] [.setName (some [120])]
    (.event 0) [109] (.strn (some [110, 111, 0]) 2) 12 firstPass (recording_of_flags rfl)
    (by simp [ShortStr]) (by simp [AttrTarget.call, Call.Short, AttrArg.Short, ShortStr])
    ⟨by rintro handle ⟨⟩; decide, _, _, rfl, rfl⟩ rfl (by simp [firstPass])
  have hprintable : (0 : UInt8) ∉ List.takeD 2 [110, 111, 0] 0 := by decide
  exact ⟨st', hst', hline.mpr hprintable⟩

/-- The largest `uint64_t` is printed as -1. -/
theorem attrs_printed_signed : ∃ st',
    otelSqliteSpan [] firstPass (stampEnd (Session.calls (sampleSession [104, 105])
      [.attr (some [107]) (.u64 0xffffffffffffffff)]).span 12) = .ok st' ∧
    (st'.conn.data.since Store.empty).attrLine (fun _ => []) [] (.span 0) =
      some (attrLine [] [107] (ascii "-1")) ∧
    (st'.conn.data.since Store.empty).attrLine (fun _ => []) [] (.span 0) ≠
      some (attrLine [] [107] (AttrArg.text (.u64 0xffffffffffffffff))) := by
  obtain ⟨st', hst', hline⟩ := recorded_line (fun _ => []) [] [] .root ⟨true, true, 0, 7⟩
    (some ⟨1, 0⟩) zeroSpan (some [104, 105]) 1 [] [] .span [107] (.u64 0xffffffffffffffff) 12
    firstPass (recording_of_flags rfl) (by simp [ShortStr])
    (by simp [AttrTarget.call, Call.Short, ShortStr, AttrArg.Short])
    ⟨by rintro handle ⟨⟩, _, _, rfl, trivial⟩ rfl (by simp [firstPass])
  refine ⟨st', hst', hline, ?_⟩
  intro htext
  have hsame := attrLine_inj.mp (Option.some.inj (hline.symm.trans htext))
  revert hsame
  decide

end OtelTracing
