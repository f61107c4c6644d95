import QuoteStreamer.Client.Handle

/-!
# The state of the `QuoteServer` and of every thread that uses it

The shared fields of `QuoteServer`, and for each thread the point of the source at which it
stands: callers (TCP handlers, `main`, tests) inside `add_client`, `remove_client`, `start` or
`shutdown`; background threads inside the loop of `start`; client threads inside the loop of
`Client::start`. A lock is the name of its holder. The fields from `version` on record history for
the theorems, and no step reads them.
-/

namespace QuoteStreamer

/-- A thread that calls methods of the server: the handler of a TCP connection, or another. -/
inductive Caller where
  | connection (number : Nat)
  | other (number : Nat)
  deriving DecidableEq, Repr

/-- Any thread of the process that can hold or wait for something. -/
inductive ThreadId where
  | caller (caller : Caller)
  | background (number : Nat)
  | client (slot : Nat)
  deriving DecidableEq, Repr

/-- `HashMap<u64, Client>`; the order of its entries carries no meaning. -/
abbrev Registry := AList fun _ : UInt64 => Client

/-- A method call with its arguments. -/
inductive Request where
  | addClient (tickers : List Str) (callback : Callback)
  | removeClient (id : UInt64)
  | start
  | shutdown
  deriving DecidableEq, Repr

/-- What a method call returns. The answer of `remove_client` also records the slot of the client
it took out of the registry. -/
inductive Reply where
  | added (id : UInt64)
  | removed (id : UInt64) (slot : Option Nat) (result : Except QuoteServerError Unit)
  | started
  | stopped

/-- Where a caller stands. -/
inductive Call where
  | idle
  /-- `add_client`, at `clients.lock()`. -/
  | addLock (tickers : List Str) (callback : Callback)
  /-- `add_client`, at `Client::new` and `client.start()`. -/
  | addStart (tickers : List Str) (callback : Callback)
  /-- `add_client`, at `fetch_add` and `insert`. -/
  | addInsert (client : Client)
  /-- `remove_client`, at `clients.lock()`. -/
  | removeLock (id : UInt64)
  /-- `remove_client`, at `clients_lock.remove(&id)`. -/
  | removeTake (id : UInt64)
  /-- `remove_client`, at `tx.send(Shutdown)` in `Client::send`. -/
  | removeSend (id : UInt64) (client : Client)
  /-- `remove_client`, at `handle.join()` in `Client::send`. -/
  | removeJoin (id : UInt64) (client : Client)
  /-- At `tx.send(Shutdown)` in `Drop for Client`. -/
  | dropSend (client : Client) (reply : Reply)
  /-- At `handle.join()` in `Drop for Client`. -/
  | dropJoin (client : Client) (reply : Reply)
  /-- About to drop the guard of the clients mutex and return. -/
  | unlock (reply : Reply)
  /-- `start`, at `bg_thread.lock()`. -/
  | startLock
  /-- `start`, at `guard.is_some()` and the spawn. -/
  | startCheck
  /-- `start`, at `*guard = Some(handle)`. -/
  | startStore (number : Nat)
  /-- `shutdown`, at `shutdown_flag.store(true)`. -/
  | shutdownFlag
  /-- `shutdown`, at `bg_thread.lock()`. -/
  | shutdownLock
  /-- `shutdown`, at `guard.take()`, which also drops the guard. -/
  | shutdownTake
  /-- `shutdown`, at `handle.join()`. -/
  | shutdownJoin (number : Nat)
  /-- The call has returned this, and the caller has not looked at it yet. -/
  | returned (reply : Reply)

/-- Where a background thread stands. -/
inductive Background where
  /-- At the loop condition, which loads the shutdown flag. -/
  | check
  /-- At `thread::sleep`. -/
  | sleep
  /-- `update_quotes`, at the head of the retry loop. -/
  | tryWrite
  /-- `update_quotes` under the write guard: these quotes are not visited yet, and some visit has
  failed. -/
  | updating (todo : List Str) (failed : Bool)
  /-- `notify_clients`, at `clients.lock()`. -/
  | notifyLock
  /-- `notify_clients` under the guard, with these clients left in the loop. -/
  | notifying (todo : List UInt64)
  | exited
  deriving DecidableEq, Repr

/-- The entries of the registry's history. -/
inductive Event where
  /-- `add_client` of this caller inserted the client of this slot under this id. -/
  | added (caller : Caller) (id : UInt64) (slot : Nat)
  /-- `insert` dropped the client of this slot, which had the id already. -/
  | replaced (id : UInt64) (slot : Nat)
  /-- `remove_client(id)` took the client of this slot out. -/
  | removed (id : UInt64) (slot : Nat)
  /-- A `notify_clients` pass locked the registry. -/
  | notified
  deriving DecidableEq, Repr

/-- The server and all threads that use it. -/
structure Server where
  quotes : Quotes
  /-- The background thread that holds the write guard of the quotes. -/
  writer : Option Nat
  /-- The client threads that hold a read guard of the quotes. -/
  readers : List Nat
  /-- A writer of the quotes has panicked. -/
  poisoned : Bool
  clients : Registry
  clientsLock : Option ThreadId
  clientsCount : UInt64
  bgThread : Option Nat
  bgLock : Option Caller
  shutdownFlag : Bool
  callers : Caller → Call
  background : Nat → Background
  /-- The number of background threads spawned so far. -/
  bgSpawned : Nat
  threads : Threads
  /-- The number of client threads spawned so far. -/
  spawned : Nat
  /-- Counts the write-locked passes over the quotes. -/
  version : Nat
  /-- What happened to the registry, newest first. -/
  history : List Event
  /-- The registry when the clients mutex was last acquired. -/
  atLock : Registry

namespace Call

/-- The caller holds the clients mutex. -/
def holdsClients : Call → Bool
  | .addStart .. | .addInsert _ | .removeTake _ | .removeSend .. | .removeJoin .. | .dropSend ..
  | .dropJoin .. | .unlock _ => true
  | _ => false

/-- The caller holds the mutex of the background handle. -/
def holdsBg : Call → Bool
  | .startCheck | .startStore _ | .shutdownTake => true
  | _ => false

end Call

namespace Background

/-- The thread holds the clients mutex. -/
def holdsClients : Background → Bool
  | .notifying _ => true
  | _ => false

/-- The thread holds the write guard of the quotes. -/
def writing : Background → Bool
  | .updating .. => true
  | _ => false

end Background

namespace Server

/-- `QuoteServer::from_config` has returned; nothing has been called yet. -/
def init (quotes : Quotes) : Server where
  quotes := quotes
  writer := none
  readers := []
  poisoned := false
  clients := ∅
  clientsLock := none
  clientsCount := 0
  bgThread := none
  bgLock := none
  shutdownFlag := false
  callers _ := .idle
  background _ := .exited
  bgSpawned := 0
  threads _ := .absent
  spawned := 0
  version := 0
  history := []
  atLock := ∅

/-- The thread holds the clients mutex. -/
def holdsClients (s : Server) : ThreadId → Prop
  | .caller k => (s.callers k).holdsClients
  | .background b => (s.background b).holdsClients
  | .client _ => False

/-- Move a caller. -/
def setCall (s : Server) (k : Caller) (call : Call) : Server :=
  { s with callers := Function.update s.callers k call }

@[simp] theorem set_call_self (s : Server) (k : Caller) (call : Call) :
    (s.setCall k call).callers k = call :=
  Function.update_self ..

theorem set_call_of_ne {s : Server} {j k : Caller} {call : Call} (h : j ≠ k) :
    (s.setCall k call).callers j = s.callers j :=
  Function.update_of_ne h ..

/-- Move a background thread. -/
def setBackground (s : Server) (b : Nat) (point : Background) : Server :=
  { s with background := Function.update s.background b point }

/-- Replace a client thread. -/
def setThread (s : Server) (t : Nat) (th : ClientThread) : Server :=
  { s with threads := Function.update s.threads t th }

end Server

end QuoteStreamer
