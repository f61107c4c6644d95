import Mathlib.Data.List.AList
import QuoteStreamer.Text

/-!
# Stock quotes

`StockQuote` and the map of quotes that the server shares with its clients. A price is an IEEE
binary64 value kept as its bit pattern, because no result below computes with prices: the
generator draws them at random and the clients pass them on.
-/

namespace QuoteStreamer

/-- An `f64`, as its bit pattern. -/
structure F64 where
  bits : UInt64
  deriving DecidableEq, Repr

/-- A single real-time stock quote. -/
structure StockQuote where
  ticker : Str
  price : F64
  volume : UInt32
  /-- Milliseconds since the UNIX epoch. -/
  timestamp : UInt64
  deriving DecidableEq, Repr

/-- The JSON object that a client's callback receives, before serialization. -/
structure Message where
  ticker : Str
  price : F64
  volume : UInt32
  timestamp : UInt64
  deriving DecidableEq, Repr

/-- The object that the client loop builds from a quote. -/
def StockQuote.message (q : StockQuote) : Message :=
  ⟨q.ticker, q.price, q.volume, q.timestamp⟩

/-- `HashMap<String, StockQuote>`; the order of its entries carries no meaning. -/
abbrev Quotes := AList fun _ : Str => StockQuote

end QuoteStreamer
