import QuoteStreamer.Defs
import QuoteStreamer.Lib.SplitAfter
import QuoteStreamer.QuoteGenerator
import QuoteStreamer.Uppercase

/-!
# The configuration of the server

`QuoteServer::from_config`: the lines of the file, trimmed and in upper case, are the tickers. The
map that it loads has a quote for each line that is not blank, under the line's own ticker, and no
other; updates keep it so.
-/

namespace QuoteStreamer

/-- `StockQuote::new`, with the price that is drawn and the time. -/
def StockQuote.new (ticker : Str) (price : F64) (timestamp : UInt64) : StockQuote :=
  ⟨ticker, price, 0, timestamp⟩

/-- What `BufRead::lines` takes away behind a line: a newline, and a carriage return in front of
it. -/
def chomp (line : Str) : Str :=
  if line.getLast? = some '\n' then
    if line.dropLast.getLast? = some '\r' then line.dropLast.dropLast else line.dropLast
  else line

/-- `BufRead::lines`: every line without its end, or the error for one that is not UTF-8. -/
def readLines (bytes : List UInt8) : List (Except Str Str) :=
  (SplitAfter.splitAfter (· == 10) bytes).map fun part =>
    match Text.decode part with
    | some line => .ok (chomp line)
    | none => .error "stream did not contain valid UTF-8".toList

/-- The ticker of a line. -/
def tickerOf (line : Str) : Str :=
  Text.toUppercase (Text.trim line)

/-- The loop of `from_config` from line `number` on; `draws` are the prices and times of the new
quotes. -/
def loadTickers (draws : Nat → F64 × UInt64) (number : Nat) (hashmap : Quotes) :
    List (Except Str Str) → Except QuoteServerError Quotes
  | [] => .ok hashmap
  | .error text :: _ => .error (.invalidConfig text)
  | .ok line :: rest =>
      let ticker := tickerOf line
      if ticker = [] then loadTickers draws (number + 1) hashmap rest
      else
        let quote := StockQuote.new ticker (draws number).1 (draws number).2
        loadTickers draws (number + 1) (hashmap.insert ticker quote) rest

/-- `QuoteServer::from_config`; `file` is what opening the file gives, its content or the text of an
error. -/
def Server.fromConfig (draws : Nat → F64 × UInt64) (file : Except Str (List UInt8)) :
    Except QuoteServerError Server := do
  let bytes ← file.mapError .invalidConfig
  let hashmap ← loadTickers draws 0 ∅ (readLines bytes)
  let _ ← (QuoteGenerator.new Defs.volatility).mapError fun _ =>
    .initializationError "Failed to create Quote Generator".toList
  pure (.init hashmap)

/-- Every quote stands under its own ticker. -/
def Quotes.Named (quotes : Quotes) : Prop :=
  ∀ key q, quotes.lookup key = some q → q.ticker = key

variable {draws : Nat → F64 × UInt64} {number : Nat} {hashmap quotes : Quotes}
  {lines : List (Except Str Str)} {line : Str}

/-- A line that is not blank has a ticker. -/
theorem ticker_of_eq_nil : tickerOf line = [] ↔ Text.Blank line := by
  rw [tickerOf, Text.to_uppercase_eq_nil, Text.trim_eq_nil_iff]

/-- The loaded tickers are those of the lines. -/
theorem load_keys (h : loadTickers draws number hashmap lines = .ok quotes) (key : Str) :
    key ∈ quotes ↔ key ∈ hashmap ∨ ∃ line, .ok line ∈ lines ∧ tickerOf line = key ∧ key ≠ [] := by
  induction lines generalizing number hashmap with
  | nil =>
      cases h
      simp
  | cons first rest ih =>
      cases first with
      | error text => cases h
      | ok line =>
          have hcons : (∃ line', Except.ok line' ∈ Except.ok line :: rest ∧
            tickerOf line' = key ∧ key ≠ []) ↔
              (tickerOf line = key ∧ key ≠ []) ∨
                ∃ line', .ok line' ∈ rest ∧ tickerOf line' = key ∧ key ≠ [] := by
            simp [or_and_right, exists_or]
          rw [hcons]
          simp only [loadTickers] at h
          split at h
          · next hnil =>
              rw [ih h, hnil]
              refine or_congr_right (Iff.symm (or_iff_right ?_))
              rintro ⟨rfl, hne⟩
              exact hne rfl
          · next hne =>
              rw [ih h, AList.mem_insert, or_assoc, or_left_comm]
              refine or_congr_right (or_congr_left ⟨?_, fun heq => heq.1.symm⟩)
              rintro rfl
              exact ⟨rfl, hne⟩

theorem Quotes.Named.insert (h : hashmap.Named) (ticker : Str) (price : F64) (timestamp : UInt64) :
    Quotes.Named (hashmap.insert ticker (.new ticker price timestamp)) := by
  intro key q hq
  rcases InPlace.lookup_insert_cases hq with ⟨rfl, rfl⟩ | ⟨-, hq⟩
  · rfl
  · exact h key q hq

/-- Every loaded quote stands under its own ticker. -/
theorem load_named (h : loadTickers draws number hashmap lines = .ok quotes)
    (hnamed : hashmap.Named) :
    quotes.Named := by
  induction lines generalizing number hashmap with
  | nil =>
      cases h
      exact hnamed
  | cons first rest ih =>
      cases first with
      | error text => cases h
      | ok line =>
          simp only [loadTickers] at h
          split at h
          · exact ih h hnamed
          · exact ih h (hnamed.insert _ _ _)

/-- The volatility of the server is one that the generator accepts. -/
theorem generator_new : QuoteGenerator.new Defs.volatility = .ok Defs.volatility := rfl

/-- What `from_config` returns: a fresh server whose tickers are those of the lines, each with a
quote under its own name. -/
theorem from_config_ok {file : Except Str (List UInt8)} {s : Server}
    (h : Server.fromConfig draws file = .ok s) : ∃ bytes, file = .ok bytes ∧ s = .init s.quotes ∧
      s.quotes.Named ∧ ∀ key, key ∈ s.quotes ↔
        ∃ line, .ok line ∈ readLines bytes ∧ tickerOf line = key ∧ key ≠ [] := by
  cases file with
  | error text => cases h
  | ok bytes =>
      cases hload : loadTickers draws 0 ∅ (readLines bytes) with
      | error e =>
          simp [Server.fromConfig, Except.mapError, bind, Except.bind, hload] at h
      | ok quotes =>
          have hserver : Server.fromConfig draws (.ok bytes) = .ok (.init quotes) := by
            simp [Server.fromConfig, Except.mapError, bind, Except.bind, hload, generator_new, pure,
              Except.pure]
          obtain rfl := Except.ok.inj (hserver.symm.trans h)
          have hkeys : ∀ key, key ∈ quotes ↔
              ∃ line, .ok line ∈ readLines bytes ∧ tickerOf line = key ∧ key ≠ [] := by
            simpa using load_keys hload
          exact ⟨bytes, rfl, rfl, load_named hload (by simp [Quotes.Named]), hkeys⟩

end QuoteStreamer
