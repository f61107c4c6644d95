import QuoteStreamer.QuoteServer.Config
import QuoteStreamer.QuoteServer.Snapshots

/-!
# Tickers stay under their names

`from_config` puts a quote under the ticker of every line, updates write quotes in place, and a
client looks a quote up by a ticker and sends the ticker that is in the quote. The map keeps its
keys and every quote its own ticker, so the message for an entry of a ticker list names the entry.
-/

namespace QuoteStreamer

/-- The tickers of one map are those of the other, and every quote stands under its own. -/
structure Quotes.Stocks (quotes current : Quotes) : Prop where
  keys : ∀ key, key ∈ current ↔ key ∈ quotes
  named : current.Named

/-- A visit changes no ticker. -/
theorem Quotes.Stocks.visit {quotes current : Quotes} (h : quotes.Stocks current) {key : Str}
    {q : StockQuote} (hq : current.lookup key = some q) (price : F64) (volume : UInt32)
    (timestamp : Option UInt64) :
    quotes.Stocks (current.replace key (q.visited price volume timestamp)) where
  keys other := by rw [AList.mem_replace, h.keys]
  named other q' hq' := by
    rw [InPlace.lookup_replace] at hq'
    split at hq'
    · next hkey =>
        rw [hq] at hq'
        cases hq'
        exact (h.named key q hq).trans hkey.symm
    · exact h.named other q' hq'

/-- `update_quotes` changes no ticker, however it ends. -/
theorem Quotes.Stocks.update {quotes current : Quotes} (h : quotes.Stocks current)
    (acquired : Bool) (distribution : Except Str Unit) (draws : Str → Draw) (order : List Str) :
    quotes.Stocks (Server.updateQuotes acquired distribution draws order current).1 := by
  have hvisited : quotes.Stocks (tryForEach draws current order).1 := by
    rw [try_for_each_map]
    refine ⟨fun key => ?_, InPlace.visit_all_keeps (fun key q hname => ?_) h.named⟩
    · rw [← h.keys, AList.mem_keys, InPlace.keys_visit_all, ← AList.mem_keys]
    · rw [update_single_quote_visited]
      exact hname
  cases acquired with
  | false => exact h
  | true =>
      cases distribution with
      | error text => exact h
      | ok =>
          rw [server_update_acquired]
          exact hvisited

namespace Server

/-- The map, and every map that a round has read, has the tickers of the configuration. -/
structure Stocked (quotes : Quotes) (s : Server) : Prop where
  current : quotes.Stocks s.quotes
  rounds : ∀ i, ∀ r ∈ (s.threads i).rounds, quotes.Stocks r.quotes

variable {s t : Server} {action : Action} {quotes : Quotes}

theorem stocked_step (hcustody : s.Custody) (h : s.Stocked quotes) (hmove : Move s action t) :
    t.Stocked quotes where
  current := by
    cases hmove with
    | visit b key price volume timestamp todo failed q hat hq =>
        exact h.current.visit hq price volume timestamp
    | _ => exact h.current
  rounds i r hr := by
    rcases (thread_step hcustody hmove i).round_origin hr with
      ⟨r', hr', -, hquotes⟩ | ⟨-, -, -, hquotes⟩
    · exact hquotes ▸ h.rounds i r' hr'
    · exact hquotes ▸ h.current

theorem Reachable.stocked (hs : Reachable quotes s) (hnamed : quotes.Named) : s.Stocked quotes := by
  refine Transition.Reaches.invariant_with (Stocked quotes) hs (fun hrun => Reachable.custody hrun)
    ⟨⟨fun _ => Iff.rfl, hnamed⟩, fun i r hr => by cases hr⟩ ?_
  exact fun hcustody _ h _ hstep => stocked_step hcustody h (step_move hstep)

end Server

end QuoteStreamer
