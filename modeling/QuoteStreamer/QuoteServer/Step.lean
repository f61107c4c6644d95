import Mathlib.Data.List.Perm.Basic
import QuoteStreamer.Lib.Transition
import QuoteStreamer.QuoteServer.State

/-!
# The steps of the server

`Server.step` is one step of one thread: the code from one program point to the next, as the
methods of `QuoteServer` and the client loop run it. The scheduler picks the thread, and with it
what the code cannot decide: how a callback ends, the random samples and the clock of an update,
the iteration order of a hash map, and when the retry loop of `update_quotes` times out. A step
that would block is not enabled.

The mutexes of the registry and of the background handle are never poisoned: no code that runs
under them panics. The lock of the quotes is poisoned when an update panics.
-/

namespace QuoteStreamer

/-- What the scheduler decides for a background thread. -/
inductive BackgroundChoice where
  | proceed
  /-- `start.elapsed() < timeout` is false. -/
  | timeout
  /-- The parallel update visits this quote; without a timestamp the clock could not be read. -/
  | visit (key : Str) (price : F64) (volume : UInt32) (timestamp : Option UInt64)
  /-- The order in which `clients.iter_mut()` goes over the registry. -/
  | order (todo : List UInt64)
  /-- The update panics. -/
  | panic
  deriving DecidableEq, Repr

/-- The scheduler's choice of a step. -/
inductive Action where
  /-- An idle caller calls a method. -/
  | call (k : Caller) (request : Request)
  /-- A caller goes on inside its call. -/
  | caller (k : Caller)
  /-- A caller takes the value that its call has returned. -/
  | take (k : Caller)
  /-- A client thread goes on; a callback it invokes ends with this result. -/
  | client (t : Nat) (result : CallbackResult)
  /-- A background thread goes on. -/
  | background (b : Nat) (choice : BackgroundChoice)
  deriving DecidableEq, Repr

/-- The first program point of a method. -/
def Request.entry : Request → Call
  | .addClient tickers callback => .addLock tickers callback
  | .removeClient id => .removeLock id
  | .start => .startLock
  | .shutdown => .shutdownFlag

/-- The in-place writes of `update_single_quote`: price and volume, then the timestamp unless the
clock could not be read. -/
def StockQuote.visited (q : StockQuote) (price : F64) (volume : UInt32)
    (timestamp : Option UInt64) : StockQuote :=
  { q with price := price, volume := volume, timestamp := timestamp.getD q.timestamp }

namespace Server

/-- `clients.lock()`, when the mutex is free. -/
def lockClients (s : Server) (holder : ThreadId) : Option Server :=
  if s.clientsLock = none then
    some { s with clientsLock := some holder, atLock := s.clients }
  else none

/-- `bg_thread.lock()`, when the mutex is free. -/
def lockBg (s : Server) (k : Caller) : Option Server :=
  if s.bgLock = none then some { s with bgLock := some k } else none

/-- One step of a caller inside `add_client`, `remove_client`, `start` or `shutdown`. -/
def callerStep (s : Server) (k : Caller) : Option Server :=
  match s.callers k with
  | .idle | .returned _ => none
  | .addLock tickers callback => do
      let s ← s.lockClients (.caller k)
      pure (s.setCall k (.addStart tickers callback))
  | .addStart tickers callback =>
      some ({ s with
        threads := Function.update s.threads s.spawned (.spawn tickers callback)
        spawned := s.spawned + 1 }.setCall k
          (.addInsert ((Client.new tickers callback).start s.spawned)))
  | .addInsert client =>
      let id := s.clientsCount
      let inserted := { s with clientsCount := id + 1, clients := s.clients.insert id client }
      let entry := Event.added k id (client.tx.getD 0)
      match s.clients.lookup id with
      | some old =>
          -- the value that `insert` returns is dropped at the end of the statement
          some ({ inserted with
            history := entry :: .replaced id (old.tx.getD 0) :: s.history }.setCall k
              (.dropSend old (.added id)))
      | none =>
          some ({ inserted with history := entry :: s.history }.setCall k (.unlock (.added id)))
  | .removeLock id => do
      let s ← s.lockClients (.caller k)
      pure (s.setCall k (.removeTake id))
  | .removeTake id =>
      match s.clients.lookup id with
      | some client =>
          some ({ s with
            clients := s.clients.erase id
            history := .removed id (client.tx.getD 0) :: s.history }.setCall k
              (.removeSend id client))
      | none => some (s.setCall k (.unlock (.removed id none (.ok ()))))
  | .removeSend id client =>
      match client.trySend .shutdown s.version s.threads with
      | .ok threads => some ({ s with threads := threads }.setCall k (.removeJoin id client))
      | .error e =>
          -- the `?` leaves the method, and the client goes out of scope
          some (s.setCall k (.dropSend client
            (.removed id client.tx (.error (.ofClientError e)))))
  | .removeJoin id client =>
      if client.joined s.threads then
        some ({ s with threads := client.dropSender s.threads }.setCall k
          (.dropSend client.stopped (.removed id client.tx (.ok ()))))
      else none
  | .dropSend client reply =>
      some ({ s with threads := client.sendIgnored .shutdown s.version s.threads }.setCall k
        (.dropJoin client reply))
  | .dropJoin client reply =>
      if client.joined s.threads then
        some ({ s with threads := client.dropSender s.threads }.setCall k (.unlock reply))
      else none
  | .unlock reply => some ({ s with clientsLock := none }.setCall k (.returned reply))
  | .startLock => do
      let s ← s.lockBg k
      pure (s.setCall k .startCheck)
  | .startCheck =>
      if s.bgThread.isSome then
        some ({ s with bgLock := none }.setCall k (.returned .started))
      else
        some ({ s with
          background := Function.update s.background s.bgSpawned .check
          bgSpawned := s.bgSpawned + 1 }.setCall k (.startStore s.bgSpawned))
  | .startStore number =>
      some ({ s with bgThread := some number, bgLock := none }.setCall k (.returned .started))
  | .shutdownFlag => some ({ s with shutdownFlag := true }.setCall k .shutdownLock)
  | .shutdownLock => do
      let s ← s.lockBg k
      pure (s.setCall k .shutdownTake)
  | .shutdownTake =>
      let next := match s.bgThread with
        | some number => .shutdownJoin number
        | none => .returned .stopped
      some ({ s with bgThread := none, bgLock := none }.setCall k next)
  | .shutdownJoin number =>
      if s.background number = .exited then some (s.setCall k (.returned .stopped)) else none

/-- One step of a client thread. -/
def clientStep (s : Server) (t : Nat) (result : CallbackResult) : Option Server :=
  let th := s.threads t
  match th.point with
  | .recv => th.recv.map (s.setThread t)
  | .readLock enqueued =>
      if s.writer = none then
        if s.poisoned then some (s.setThread t th.skipRound)
        else
          some ({ s with readers := t :: s.readers }.setThread t
            (th.beginRound enqueued s.quotes s.version))
      else none
  | .round (ticker :: rest) =>
      if th.callback.allows result then
        let next := th.processTicker ticker rest s.quotes s.version result
        some ({ s with
          readers := if next.point.reading then s.readers else s.readers.erase t }.setThread t next)
      else none
  | .round [] => some ({ s with readers := s.readers.erase t }.setThread t th.endRound)
  | .leaving => some (s.setThread t th.dropReceiver)
  | .closed => some (s.setThread t th.terminate)
  | .exited => none

/-- One step of a background thread. A failed `try_write` changes nothing and is not a step. -/
def backgroundStep (s : Server) (b : Nat) (choice : BackgroundChoice) : Option Server :=
  match s.background b, choice with
  | .check, .proceed =>
      some (s.setBackground b (if s.shutdownFlag then .exited else .sleep))
  | .sleep, .proceed => some (s.setBackground b .tryWrite)
  | .tryWrite, .proceed =>
      if s.writer = none ∧ s.readers = [] ∧ s.poisoned = false then
        some ({ s with writer := some b, version := s.version + 1 }.setBackground b
          (.updating s.quotes.keys false))
      else none
  | .tryWrite, .timeout => some (s.setBackground b .notifyLock)
  | .updating todo failed, .visit key price volume timestamp =>
      match s.quotes.lookup key with
      | some q =>
          if key ∈ todo then
            some ({ s with
              quotes := s.quotes.replace key (q.visited price volume timestamp) }.setBackground b
                (.updating (todo.erase key) (failed || timestamp.isNone)))
          else none
      | none => none
  | .updating todo failed, .proceed =>
      -- `try_for_each` may stop early once a visit has failed
      if todo = [] ∨ failed then
        some ({ s with writer := none }.setBackground b .notifyLock)
      else none
  | .updating _ _, .panic =>
      some ({ s with writer := none, poisoned := true }.setBackground b .exited)
  | .notifyLock, .order todo => do
      let locked ← s.lockClients (.background b)
      if todo.Perm s.clients.keys then
        pure ({ locked with history := .notified :: s.history }.setBackground b (.notifying todo))
      else none
  | .notifying (id :: rest), .proceed =>
      match s.clients.lookup id with
      | some client =>
          some ({ s with
            threads := client.sendIgnored .update s.version s.threads }.setBackground b
              (.notifying rest))
      | none => none
  | .notifying [], .proceed => some ({ s with clientsLock := none }.setBackground b .check)
  | _, _ => none

/-- One step of the server under the scheduler's choice. -/
def step (s : Server) : Action → Option Server
  | .call k request =>
      match s.callers k with
      | .idle => some (s.setCall k request.entry)
      | _ => none
  | .caller k => s.callerStep k
  | .take k =>
      match s.callers k with
      | .returned _ => some (s.setCall k .idle)
      | _ => none
  | .client t result => s.clientStep t result
  | .background b choice => s.backgroundStep b choice

/-- The server reaches this state from `from_config` with these quotes. -/
def Reachable (quotes : Quotes) (s : Server) : Prop :=
  Transition.Reachable step (init quotes) s

end Server

end QuoteStreamer
