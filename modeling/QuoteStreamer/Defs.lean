import QuoteStreamer.StockQuote

/-!
# Shared constants

The constants of `defs.rs` that the modelled code reads.
-/

namespace QuoteStreamer.Defs

/-- `VOLATILITY`, which is 0.000082. -/
def volatility : F64 := ⟨0x3F157EED45E9185D⟩

/-- `CLIENT_KEEP_ALIVE_SEC`: the longest silence of a connection, in seconds. -/
def clientKeepAliveSec : Nat := 5

/-- `TCP_CONNECTION_TICK_PERIOD_MSEC`: the read timeout and the sleep of a connection, in
milliseconds. -/
def tcpConnectionTickPeriodMsec : Nat := 200

/-- `QUOTE_UPDATE_RETRY_PERIOD_MSEC`: the sleep between two attempts to get the write lock of the
quotes, in milliseconds. -/
def quoteUpdateRetryPeriodMsec : Nat := 10

/-- `WRITE_TIMEOUT_MS`: how long an update tries to get the write lock, in milliseconds. -/
def writeTimeoutMs : Nat := 1000

end QuoteStreamer.Defs
