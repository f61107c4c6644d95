import Mathlib.Algebra.Group.Int.Defs
import Mathlib.Algebra.Group.Nat.Defs
import QuoteStreamer.Lib.InPlace
import QuoteStreamer.QuoteServer.Step

/-!
# The quote generator

`update_quotes` of the generator and of the server. The parallel iterator hands quotes to closures
that write them in place, field by field; what the samples and the clock give for each quote, and
which quotes are handed out in which order, are inputs. When a clock reading fails, what has been
written stays.
-/

namespace QuoteStreamer

/-- Errors of the quote generator. -/
inductive QuoteGeneratorError where
  | invalidVolatility (volatility : F64)
  | timeError (text : Str)
  | distributionError (text : Str)
  deriving DecidableEq, Repr

/-- The product of two `f64`. -/
def F64.mul (a b : F64) : F64 :=
  ⟨(Float.ofBits a.bits * Float.ofBits b.bits).toBits⟩

/-- The value is not a number: the exponent is all ones and the fraction is not zero. -/
def F64.isNaN (a : F64) : Bool :=
  0x7FF0000000000000 < a.bits.toNat % 2 ^ 63

/-- Numbers in the order of their values; the two zeros are equal. -/
def F64.rank (a : F64) : Int :=
  if a.bits.toNat < 2 ^ 63 then a.bits.toNat else 2 ^ 63 - (a.bits.toNat : Int)

/-- `a <= b`, which is false when one of them is not a number. -/
def F64.le (a b : F64) : Bool :=
  !a.isNaN && !b.isNaN && decide (a.rank ≤ b.rank)

/-- `a > b`. -/
def F64.gt (a b : F64) : Bool :=
  !a.isNaN && !b.isNaN && decide (b.rank < a.rank)

/-- `QuoteGenerator::new`, the generator being its volatility. -/
def QuoteGenerator.new (volatility : F64) : Except QuoteGeneratorError F64 :=
  if volatility.le ⟨0⟩ || volatility.gt ⟨0x3FF0000000000000⟩ then
    .error (.invalidVolatility volatility)
  else .ok volatility

/-- What the random samples and the clock give for one quote. -/
structure Draw where
  /-- `log_normal.sample(rng)`. -/
  multiplier : F64
  /-- `(rand::random::<f64>() * scale) as u32`, with the scale that belongs to the ticker. -/
  scaled : UInt32
  /-- `SystemTime::now().duration_since(UNIX_EPOCH)` in milliseconds, or the text of its error. -/
  clock : Except Str UInt64

/-- The volume that a quote of this ticker gets. -/
def newVolume (ticker : Str) (scaled : UInt32) : UInt32 :=
  if ticker = "AAPL".toList ∨ ticker = "MSFT".toList ∨ ticker = "TSLA".toList then 1000 + scaled
  else 100 + scaled

/-- `update_single_quote`: the quote as it leaves it, and its result. -/
def updateSingleQuote (q : StockQuote) (draw : Draw) :
    StockQuote × Except QuoteGeneratorError Unit :=
  let q := { q with price := q.price.mul draw.multiplier }
  let q := { q with volume := newVolume q.ticker draw.scaled }
  match draw.clock with
  | .ok millis => ({ q with timestamp := millis }, .ok ())
  | .error text => (q, .error (.timeError text))

/-- `try_for_each` over the quotes that are handed to closures, in this order: the map as it
leaves it, and the first error. -/
def tryForEach (draws : Str → Draw) (quotes : Quotes) :
    List Str → Quotes × Except QuoteGeneratorError Unit
  | [] => (quotes, .ok ())
  | key :: rest =>
      match quotes.lookup key with
      | some q =>
          let (updated, result) := updateSingleQuote q (draws key)
          let (after, later) := tryForEach draws (quotes.replace key updated) rest
          (after, result >>= fun _ => later)
      | none => tryForEach draws quotes rest

/-- `QuoteGenerator::update_quotes`; `distribution` is the result of `LogNormal::new`. -/
def QuoteGenerator.updateQuotes (distribution : Except Str Unit) (draws : Str → Draw)
    (order : List Str) (quotes : Quotes) : Quotes × Except QuoteGeneratorError Unit :=
  match distribution with
  | .ok () => tryForEach draws quotes order
  | .error text => (quotes, .error (.distributionError text))

/-- `QuoteServer::update_quotes`; `acquired` says whether a `try_write` succeeds before the
timeout. -/
def Server.updateQuotes (acquired : Bool) (distribution : Except Str Unit) (draws : Str → Draw)
    (order : List Str) (quotes : Quotes) : Quotes × Except QuoteServerError Unit :=
  if acquired then
    match QuoteGenerator.updateQuotes distribution draws order quotes with
    | (after, .ok ()) => (after, .ok ())
    | (after, .error _) => (after, .error (.updateQuoteError "Failed to update quotes".toList))
  else (quotes, .error (.updateQuoteError "Timeout after 1s".toList))

/-- What `par_bridge` and `try_for_each` promise: no quote is handed out twice, and all are when no
closure fails. -/
structure HandedOut (draws : Str → Draw) (quotes : Quotes) (order : List Str) : Prop where
  nodup : order.Nodup
  known : ∀ key ∈ order, key ∈ quotes
  complete : (∀ key ∈ order, ∃ millis, (draws key).clock = .ok millis) → ∀ key ∈ quotes, key ∈ order

/-- The price is multiplied, and volume and timestamp are replaced. -/
def Updated (q : StockQuote) (draw : Draw) (updated : StockQuote) : Prop :=
  ∃ millis, draw.clock = .ok millis ∧ updated = { q with
    price := q.price.mul draw.multiplier
    volume := newVolume q.ticker draw.scaled
    timestamp := millis }

/-- The clock could not be read after price and volume were written. -/
def HalfUpdated (q : StockQuote) (draw : Draw) (updated : StockQuote) : Prop :=
  ∃ text, draw.clock = .error text ∧ updated = { q with
    price := q.price.mul draw.multiplier, volume := newVolume q.ticker draw.scaled }

variable {draws : Str → Draw} {quotes after : Quotes} {order : List Str}
  {q : StockQuote} {draw : Draw}

/-- What `update_single_quote` leaves of a quote. -/
theorem update_single_quote_cases (q : StockQuote) (draw : Draw) :
    (updateSingleQuote q draw).2 = .ok () ∧ Updated q draw (updateSingleQuote q draw).1 ∨
      (∃ e, (updateSingleQuote q draw).2 = .error e) ∧
        HalfUpdated q draw (updateSingleQuote q draw).1 := by
  cases hclock : draw.clock with
  | ok millis =>
      refine .inl ⟨?_, millis, hclock, ?_⟩
      · simp only [updateSingleQuote, hclock]
      · simp only [updateSingleQuote, hclock]
  | error text =>
      refine .inr ⟨⟨.timeError text, ?_⟩, text, hclock, ?_⟩
      · simp only [updateSingleQuote, hclock]
      · simp only [updateSingleQuote, hclock]

/-- The writes are those of a visit in the server's background thread. -/
theorem update_single_quote_visited (q : StockQuote) (draw : Draw) :
    (updateSingleQuote q draw).1 =
      q.visited (q.price.mul draw.multiplier) (newVolume q.ticker draw.scaled)
        draw.clock.toOption := by
  cases hclock : draw.clock with
  | ok millis =>
      simp only [updateSingleQuote, hclock, StockQuote.visited, Except.toOption, Option.getD]
  | error text =>
      simp only [updateSingleQuote, hclock, StockQuote.visited, Except.toOption, Option.getD]

/-- The loop visits the quotes in place. -/
theorem try_for_each_map (draws : Str → Draw) (quotes : Quotes) (order : List Str) :
    (tryForEach draws quotes order).1 =
      InPlace.visitAll (fun key q => (updateSingleQuote q (draws key)).1) quotes order := by
  induction order generalizing quotes with
  | nil => rfl
  | cons key rest ih =>
      rw [tryForEach]
      show _ = InPlace.visitAll _ (InPlace.visit _ quotes key) rest
      rw [InPlace.visit]
      split
      · next q hq => simp only [ih, hq]
      · next hnone => simp only [ih, hnone]

/-- The loop succeeds exactly when every closure does. -/
theorem try_for_each_ok_iff (hknown : ∀ key ∈ order, key ∈ quotes) :
    (tryForEach draws quotes order).2 = .ok () ↔
      ∀ key ∈ order, ∃ millis, (draws key).clock = .ok millis := by
  induction order generalizing quotes with
  | nil => simp [tryForEach]
  | cons key rest ih =>
      obtain ⟨hkey, hrest⟩ := List.forall_mem_cons.mp hknown
      obtain ⟨q, hq⟩ := Option.isSome_iff_exists.mp (AList.lookup_isSome.mpr hkey)
      have hlater := @ih (quotes.replace key (updateSingleQuote q (draws key)).1)
        fun other hmem => AList.mem_replace.mpr (hrest other hmem)
      rw [tryForEach, hq, List.forall_mem_cons]
      show ((updateSingleQuote q (draws key)).2 >>=
        fun _ => (tryForEach draws _ rest).2) = .ok () ↔ _
      rcases update_single_quote_cases q (draws key) with
        ⟨hok, millis, hclock, -⟩ | ⟨⟨e, he⟩, text, hclock, -⟩
      · rw [hok]
        exact hlater.trans ⟨fun h => ⟨⟨millis, hclock⟩, h⟩, fun h => h.2⟩
      · rw [he]
        refine ⟨nofun, ?_⟩
        rintro ⟨⟨millis, hmillis⟩, -⟩
        rw [hclock] at hmillis
        cases hmillis

/-- Each quote is written once if it is handed out, and otherwise untouched. -/
theorem try_for_each_lookup (hnodup : order.Nodup) (key : Str) :
    (tryForEach draws quotes order).1.lookup key =
      (quotes.lookup key).map fun q =>
        if key ∈ order then (updateSingleQuote q (draws key)).1 else q := by
  rw [try_for_each_map, InPlace.lookup_visit_all hnodup]
  by_cases hkey : key ∈ order
  · simp only [if_pos hkey]
  · simp only [if_neg hkey]

/-- When no clock reading fails, every quote is updated, and the order does not show. -/
theorem try_for_each_ok (hhanded : HandedOut draws quotes order)
    (hok : ∀ key ∈ order, ∃ millis, (draws key).clock = .ok millis) (key : Str) :
    (tryForEach draws quotes order).1.lookup key =
      (quotes.lookup key).map fun q => (updateSingleQuote q (draws key)).1 := by
  rw [try_for_each_lookup hhanded.nodup]
  cases hq : quotes.lookup key with
  | none => rfl
  | some q =>
      have hkey : key ∈ quotes := AList.lookup_isSome.mp (by rw [hq]; rfl)
      simp only [Option.map_some, if_pos (hhanded.complete hok key hkey)]

/-- When one fails, its quote is left with a new price and volume and the old timestamp. -/
theorem try_for_each_error (hhanded : HandedOut draws quotes order)
    (herror : ¬ ∀ key ∈ order, ∃ millis, (draws key).clock = .ok millis) :
    ∃ key q updated, quotes.lookup key = some q ∧
      (tryForEach draws quotes order).1.lookup key = some updated ∧
        HalfUpdated q (draws key) updated := by
  push Not at herror
  obtain ⟨key, hkey, hclock⟩ := herror
  obtain ⟨q, hq⟩ := Option.isSome_iff_exists.mp (AList.lookup_isSome.mpr (hhanded.known key hkey))
  refine ⟨key, q, (updateSingleQuote q (draws key)).1, hq, ?_, ?_⟩
  · rw [try_for_each_lookup hhanded.nodup, hq]
    simp only [Option.map_some, if_pos hkey]
  · rcases update_single_quote_cases q (draws key) with ⟨-, millis, hmillis, -⟩ | ⟨-, hhalf⟩
    · exact absurd hmillis (hclock millis)
    · exact hhalf

/-- What any visit leaves of a quote. -/
theorem try_for_each_cases (hnodup : order.Nodup) {key : Str} (hq : quotes.lookup key = some q) :
    ∃ updated, (tryForEach draws quotes order).1.lookup key = some updated ∧
      (updated = q ∨ Updated q (draws key) updated ∨ HalfUpdated q (draws key) updated) := by
  rw [try_for_each_lookup hnodup, hq, Option.map_some]
  by_cases hkey : key ∈ order
  · rw [if_pos hkey]
    refine ⟨_, rfl, ?_⟩
    rcases update_single_quote_cases q (draws key) with ⟨-, hupdated⟩ | ⟨-, hhalf⟩
    · exact .inr (.inl hupdated)
    · exact .inr (.inr hhalf)
  · rw [if_neg hkey]
    exact ⟨q, rfl, .inl rfl⟩

theorem server_update_acquired (draws : Str → Draw) (order : List Str) (quotes : Quotes) :
    Server.updateQuotes true (.ok ()) draws order quotes = ((tryForEach draws quotes order).1,
      if (tryForEach draws quotes order).2 = .ok () then .ok ()
      else .error (.updateQuoteError "Failed to update quotes".toList)) := by
  simp only [Server.updateQuotes, QuoteGenerator.updateQuotes, if_true]
  rcases tryForEach draws quotes order with ⟨left, _ | _⟩ <;> rfl

/-- The method gives up before it touches a quote, or answers as the loop does. -/
theorem server_update_cases {acquired : Bool} {distribution : Except Str Unit}
    {result : Except QuoteServerError Unit}
    (h : Server.updateQuotes acquired distribution draws order quotes = (after, result)) :
    ((∃ e, result = .error e) ∧ after = quotes) ∨
      ((∀ order', Server.updateQuotes acquired distribution draws order' quotes =
          ((tryForEach draws quotes order').1,
            if (tryForEach draws quotes order').2 = .ok () then .ok ()
            else .error (.updateQuoteError "Failed to update quotes".toList)))) := by
  cases acquired with
  | false =>
      cases h
      exact .inl ⟨⟨_, rfl⟩, rfl⟩
  | true =>
      cases distribution with
      | error text =>
          cases h
          exact .inl ⟨⟨_, rfl⟩, rfl⟩
      | ok => exact .inr fun order' => server_update_acquired draws order' quotes

/-- `update_quotes` of the server returns `Ok` with every quote updated once, in whatever order
the quotes are visited, or an error. With an error each quote is untouched, updated, or left with
a new price and volume and the old timestamp because its clock reading failed; one of the last
kind is there unless nothing was touched at all. No key and no ticker changes. -/
theorem update_quotes_outcome {acquired : Bool} {distribution : Except Str Unit}
    {result : Except QuoteServerError Unit} (hhanded : HandedOut draws quotes order)
    (h : Server.updateQuotes acquired distribution draws order quotes = (after, result)) :
    after.keys = quotes.keys ∧
    (result = .ok () →
      (∀ key q, quotes.lookup key = some q →
        ∃ updated, after.lookup key = some updated ∧ Updated q (draws key) updated) ∧
      ∀ order', HandedOut draws quotes order' →
        ∃ after', Server.updateQuotes acquired distribution draws order' quotes = (after', .ok ()) ∧
          ∀ key, after'.lookup key = after.lookup key) ∧
    (∀ e, result = .error e →
      (∀ key q, quotes.lookup key = some q → ∃ updated, after.lookup key = some updated ∧
        (updated = q ∨ Updated q (draws key) updated ∨ HalfUpdated q (draws key) updated)) ∧
      (after = quotes ∨ ∃ key q updated, quotes.lookup key = some q ∧
        after.lookup key = some updated ∧ HalfUpdated q (draws key) updated)) := by
  rcases server_update_cases h with ⟨⟨e, rfl⟩, rfl⟩ | hserver
  · exact ⟨rfl, nofun, fun _ _ => ⟨fun key q hq => ⟨q, hq, .inl rfl⟩, .inl rfl⟩⟩
  · obtain ⟨rfl, rfl⟩ := Prod.mk.inj (h.symm.trans (hserver order))
    have hkeys : (tryForEach draws quotes order).1.keys = quotes.keys := by
      rw [try_for_each_map]
      exact InPlace.keys_visit_all ..
    refine ⟨hkeys, fun hok => ?_, fun e herror => ?_⟩
    · have hresult : (tryForEach draws quotes order).2 = .ok () := by
        by_contra hnot
        rw [if_neg hnot] at hok
        cases hok
      have hclocks := (try_for_each_ok_iff hhanded.known).mp hresult
      refine ⟨fun key q hq => ?_, fun order' hhanded' => ?_⟩
      · have hkey : key ∈ quotes := AList.lookup_isSome.mp (by rw [hq]; rfl)
        obtain ⟨millis, hmillis⟩ := hclocks key (hhanded.complete hclocks key hkey)
        refine ⟨_, (try_for_each_ok hhanded hclocks key).trans (congrArg _ hq), ?_⟩
        rcases update_single_quote_cases q (draws key) with ⟨-, hupdated⟩ | ⟨-, text, htext, -⟩
        · exact hupdated
        · rw [hmillis] at htext
          cases htext
      · -- the same clocks are read in any order, so they fail in none
        have hclocks' : ∀ key ∈ order', ∃ millis, (draws key).clock = .ok millis := fun key hkey =>
          hclocks key (hhanded.complete hclocks key (hhanded'.known key hkey))
        refine ⟨_, (hserver order').trans
          (by rw [if_pos ((try_for_each_ok_iff hhanded'.known).mpr hclocks')]),
          fun key => ?_⟩
        rw [try_for_each_ok hhanded' hclocks', try_for_each_ok hhanded hclocks]
    · have hresult : ¬ (tryForEach draws quotes order).2 = .ok () := by
        intro hok
        rw [if_pos hok] at herror
        cases herror
      refine ⟨fun key q hq => try_for_each_cases hhanded.nodup hq, .inr ?_⟩
      exact try_for_each_error hhanded (mt (try_for_each_ok_iff hhanded.known).mpr hresult)

/-- All quotes may be handed out, in any order. -/
theorem handed_out_perm (h : order.Perm quotes.keys) : HandedOut draws quotes order where
  nodup := h.nodup_iff.mpr quotes.keys_nodup
  known _ hkey := h.mem_iff.mp hkey
  complete _ _ hkey := h.mem_iff.mpr hkey

/-- A fresh quote. -/
def freshQuote : Quotes :=
  AList.singleton ['A'] ⟨['A'], ⟨0⟩, 0, 0⟩

/-- Two fresh quotes. -/
def freshQuotes : Quotes :=
  freshQuote.insert ['B'] ⟨['B'], ⟨0⟩, 0, 0⟩

/-- The clock cannot be read for the second of them. -/
def halfWayDraws (key : Str) : Draw :=
  ⟨⟨0⟩, 7, if key = ['B'] then .error [] else .ok 5⟩

theorem update_quotes_outcome_fresh :
    (∃ after after' updated, (∀ key, after'.lookup key = after.lookup key) ∧
      Server.updateQuotes true (.ok ()) (fun _ => ⟨⟨0⟩, 7, .ok 5⟩) [['A'], ['B']] freshQuotes =
        (after, .ok ()) ∧
      Server.updateQuotes true (.ok ()) (fun _ => ⟨⟨0⟩, 7, .ok 5⟩) [['B'], ['A']] freshQuotes =
        (after', .ok ()) ∧
      after.lookup ['A'] = some updated ∧ updated.volume = 107 ∧ updated.timestamp = 5) ∧
    ∃ after e updated, Server.updateQuotes true (.ok ()) halfWayDraws [['A'], ['B']] freshQuotes =
        (after, .error e) ∧ after.keys = freshQuotes.keys ∧
      after.lookup ['B'] = some updated ∧ updated.volume = 107 ∧ updated.timestamp = 0 := by
  have hsame : List.Perm [['A'], ['B']] freshQuotes.keys := List.Perm.swap ..
  have hswapped : List.Perm [['B'], ['A']] freshQuotes.keys := .refl _
  constructor
  · obtain ⟨after, hafter⟩ : ∃ after, Server.updateQuotes true (.ok ())
        (fun _ => ⟨⟨0⟩, 7, .ok 5⟩) [['A'], ['B']] freshQuotes = (after, .ok ()) := ⟨_, rfl⟩
    obtain ⟨-, hok, -⟩ := update_quotes_outcome (handed_out_perm hsame) hafter
    obtain ⟨hupdated, horders⟩ := hok rfl
    obtain ⟨updated, hlookup, millis, hmillis, rfl⟩ := hupdated ['A'] _ rfl
    obtain ⟨after', hafter', hequal⟩ := horders _ (handed_out_perm hswapped)
    cases hmillis
    exact ⟨after, after', _, hequal, hafter, hafter', hlookup, rfl, rfl⟩
  · obtain ⟨after, e, hafter, first, hfirst, hvolume⟩ : ∃ after e, Server.updateQuotes true
        (.ok ()) halfWayDraws [['A'], ['B']] freshQuotes = (after, .error e) ∧
          ∃ first, after.lookup ['A'] = some first ∧ first.volume = 107 := ⟨_, _, rfl, _, rfl, rfl⟩
    obtain ⟨hkeys, -, herror⟩ := update_quotes_outcome (handed_out_perm hsame) hafter
    rcases (herror e rfl).2 with rfl | ⟨key, q, updated, hq, hlookup, text, htext, rfl⟩
    · cases hfirst
      cases hvolume
    · -- only the clock of the second quote has failed
      obtain rfl : key = ['B'] := by
        by_contra hkey
        rw [halfWayDraws, if_neg hkey] at htext
        cases htext
      cases hq
      exact ⟨after, e, _, hafter, hkeys, hlookup, rfl, rfl⟩

/-- The clock could not be read, and the quote has a new volume. -/
theorem update_fails_half_way : HandedOut (fun _ => ⟨⟨0⟩, 7, .error []⟩) freshQuote [['A']] ∧
    ∃ after e updated, Server.updateQuotes true (.ok ()) (fun _ => ⟨⟨0⟩, 7, .error []⟩) [['A']]
        freshQuote = (after, .error e) ∧
      freshQuote.lookup ['A'] = some ⟨['A'], ⟨0⟩, 0, 0⟩ ∧
      after.lookup ['A'] = some updated ∧ updated.volume = 107 :=
  ⟨handed_out_perm (.refl _), _, _, _, rfl, rfl, rfl, rfl⟩

/-! ## The update in the server's background thread -/

namespace Server

variable {s : Server} {b : Nat} {todo : List Str} {failed : Bool}

/-- The step in which a background thread visits a quote of this map. -/
def visitAction (b : Nat) (draws : Str → Draw) (quotes : Quotes) (key : Str) : Action :=
  let q := (quotes.lookup key).getD ⟨key, ⟨0⟩, 0, 0⟩
  .background b (.visit key (q.price.mul (draws key).multiplier)
    (newVolume q.ticker (draws key).scaled) (draws key).clock.toOption)

/-- The closures of the loop are steps of the thread. -/
theorem visits_run (draws : Str → Draw) (hnodup : order.Nodup) (htodo : ∀ key ∈ order, key ∈ todo)
    (hquotes : ∀ key ∈ order, s.quotes.lookup key = quotes.lookup key ∧ key ∈ quotes)
    (hat : s.background b = .updating todo failed) :
    ∃ t, Transition.run step s (order.map (visitAction b draws quotes)) = some t ∧
      t.quotes = (tryForEach draws s.quotes order).1 ∧
      t.background b = .updating (todo.diff order)
        (failed || order.any fun key => (draws key).clock.toOption.isNone) := by
  induction order generalizing s todo failed with
  | nil => exact ⟨s, rfl, rfl, by simpa using hat⟩
  | cons key rest ih =>
      obtain ⟨hnot, hrest⟩ := List.nodup_cons.mp hnodup
      obtain ⟨hkey, hlater⟩ := List.forall_mem_cons.mp hquotes
      obtain ⟨htodoKey, htodoRest⟩ := List.forall_mem_cons.mp htodo
      obtain ⟨q, hq⟩ := Option.isSome_iff_exists.mp (AList.lookup_isSome.mpr hkey.2)
      have hlookup : s.quotes.lookup key = some q := hkey.1.trans hq
      have hstep : s.step (visitAction b draws quotes key) = some
          ({ s with
            quotes := s.quotes.replace key (updateSingleQuote q (draws key)).1 }.setBackground b
            (.updating (todo.erase key) (failed || (draws key).clock.toOption.isNone))) := by
        simp only [visitAction, hq, Option.getD_some, step, backgroundStep, hat,
          hlookup, if_pos htodoKey, update_single_quote_visited]
      -- each key comes up once, so the later visits find the quotes of the beginning
      have hne : ∀ other ∈ rest, other ≠ key := by
        rintro other hother rfl
        exact hnot hother
      obtain ⟨t, hrun, htquotes, htat⟩ := ih (s := { s with
          quotes := s.quotes.replace key (updateSingleQuote q (draws key)).1 }.setBackground b
            (.updating (todo.erase key) (failed || (draws key).clock.toOption.isNone))) hrest
        (fun other hother => (List.mem_erase_of_ne (hne other hother)).mpr (htodoRest other hother))
        (fun other hother => by
          refine ⟨?_, (hlater other hother).2⟩
          show (s.quotes.replace key _).lookup other = _
          rw [InPlace.lookup_replace, if_neg (hne other hother)]
          exact (hlater other hother).1)
        (Function.update_self ..)
      refine ⟨t, ?_, ?_, ?_⟩
      · rw [List.map_cons, Transition.run, hstep]
        exact hrun
      · rw [htquotes, tryForEach, hlookup]
        rfl
      · rw [htat, List.diff_cons, List.any_cons, Bool.or_assoc]

/-- From the acquired lock to its release the thread does what `update_quotes` computes. -/
theorem update_run (hat : s.background b = .tryWrite)
    (hfree : s.writer = none ∧ s.readers = [] ∧ s.poisoned = false)
    (hhanded : HandedOut draws s.quotes order) :
    ∃ t, Transition.run step s (.background b .proceed ::
      order.map (visitAction b draws s.quotes) ++
        [.background b .proceed]) = some t ∧
      t.quotes = (updateQuotes true (.ok ()) draws order s.quotes).1 ∧
      t.background b = .notifyLock := by
  have hlocked : s.step (.background b .proceed) = some
      ({ s with writer := some b, version := s.version + 1 }.setBackground b
        (.updating s.quotes.keys false)) := by
    simp only [step, backgroundStep, hat, if_pos hfree]
  obtain ⟨t, (hrun : Transition.run step _ (order.map (visitAction b draws s.quotes)) = some t),
      htquotes, htat⟩ := visits_run (s := { s with
        writer := some b
        version := s.version + 1 }.setBackground b (.updating s.quotes.keys false))
    draws hhanded.nodup (fun key hkey => hhanded.known key hkey)
    (fun key hkey => ⟨rfl, hhanded.known key hkey⟩) (Function.update_self ..)
  -- a full visit leaves nothing to do, a shorter one has failed
  have hdone : s.quotes.keys.diff order = [] ∨
      (false || order.any fun key => (draws key).clock.toOption.isNone) = true := by
    by_cases hclocks : ∀ key ∈ order, ∃ millis, (draws key).clock = .ok millis
    · refine .inl (List.eq_nil_iff_forall_not_mem.mpr fun key hkey => ?_)
      obtain ⟨hmem, hnot⟩ := s.quotes.keys_nodup.mem_sdiff_iff.mp hkey
      exact hnot (hhanded.complete hclocks key hmem)
    · push Not at hclocks
      obtain ⟨key, hkey, hclock⟩ := hclocks
      refine .inr (List.any_eq_true.mpr ⟨key, hkey, ?_⟩)
      cases hdraw : (draws key).clock with
      | ok millis => exact absurd hdraw (hclock millis)
      | error text => rfl
  have hreleased : t.step (.background b .proceed) = some
      ({ t with writer := none }.setBackground b .notifyLock) := by
    simp only [step, backgroundStep, htat, if_pos hdone]
  refine ⟨{ t with writer := none }.setBackground b .notifyLock, ?_, ?_, Function.update_self ..⟩
  · rw [List.cons_append, Transition.run, hlocked]
    show Transition.run step _ (order.map (visitAction b draws s.quotes) ++
      [.background b .proceed]) = _
    rw [Transition.run_append hrun, Transition.run, hreleased]
    rfl
  · rw [server_update_acquired]
    exact htquotes

end Server

end QuoteStreamer
