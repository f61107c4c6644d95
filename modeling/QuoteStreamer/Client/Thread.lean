import QuoteStreamer.Errors
import QuoteStreamer.SocketAddr
import QuoteStreamer.StockQuote

/-!
# The client thread

The thread that `Client::start` spawns, cut at its blocking operations: `rx.recv()`,
`quotes.read()`, one iteration of the ticker loop under the read guard, and the end of the
closure. Each definition below is one such piece of the loop. What the thread has done is
recorded in the fields `sent`, `rounds` and `panicked`, which no piece reads.
-/

namespace QuoteStreamer

/-- Commands sent from the server to a client thread. -/
inductive ClientCommand where
  | update
  | shutdown
  deriving DecidableEq, Repr

/-- A client's callback: the closure of `handle_stream`, which sends to a UDP address, or any
other closure, known only by a number. -/
inductive Callback where
  | udp (addr : SocketAddr)
  | closure (number : Nat)
  deriving DecidableEq, Repr

/-- How one invocation of a callback ends. -/
inductive CallbackResult where
  | ok
  | err
  | panic
  deriving DecidableEq, Repr

/-- The closure of `handle_stream` ignores the result of `send_to` and returns `Ok(())`; any other
closure may do anything. -/
def Callback.allows : Callback → CallbackResult → Bool
  | .udp _, result => result = .ok
  | .closure _, _ => true

/-- A command in a channel, with the version of the quotes map when it was sent. -/
structure Queued where
  command : ClientCommand
  version : Nat
  deriving DecidableEq, Repr

/-- One invocation of the callback: the entry of the ticker list it was for, the message, the
version of the map the message was read from, and how the callback ended. -/
structure Invocation where
  ticker : Str
  message : Message
  version : Nat
  result : CallbackResult
  deriving DecidableEq, Repr

/-- One update round: the version when its `Update` was sent, the version and the contents of the
map when the read guard was obtained, and the invocations of the callback so far. -/
structure Round where
  enqueued : Nat
  version : Nat
  quotes : Quotes
  calls : List Invocation

/-- Where the thread stands. -/
inductive LoopPoint where
  /-- At `rx.recv()`. -/
  | recv
  /-- An `Update` sent at this version was received; at `quotes.read()`. -/
  | readLock (enqueued : Nat)
  /-- Under the read guard, with these tickers left in the loop. -/
  | round (rest : List Str)
  /-- The loop was left or the callback panicked; `rx` is not dropped yet. -/
  | leaving
  /-- `rx` is dropped, the thread has not terminated yet. -/
  | closed
  /-- The thread has terminated. -/
  | exited
  deriving DecidableEq, Repr

/-- A client thread with its channel. -/
structure ClientThread where
  tickers : List Str
  callback : Callback
  point : LoopPoint
  queue : List Queued
  /-- A `Sender` of the channel still exists. -/
  connected : Bool
  /-- Every command the channel has accepted, oldest first. -/
  sent : List ClientCommand
  /-- The update rounds, newest first. -/
  rounds : List Round
  /-- A callback has panicked. -/
  panicked : Bool

/-- All client threads, by the order in which they were spawned. -/
abbrev Threads := Nat → ClientThread

namespace LoopPoint

/-- The thread holds a read guard on the quotes. -/
def reading : LoopPoint → Bool
  | .round _ => true
  | _ => false

/-- The receiving end of the channel still exists. -/
def receiving : LoopPoint → Bool
  | .closed | .exited => false
  | _ => true

/-- The thread is inside its loop. -/
def looping : LoopPoint → Bool
  | .recv | .readLock _ | .round _ => true
  | _ => false

theorem receiving_of_looping {point : LoopPoint} (h : point.looping = true) :
    point.receiving = true := by
  cases point <;> simp [looping, receiving] at h ⊢

end LoopPoint

/-- The newest round with one more invocation. -/
def recordCall (call : Invocation) : List Round → List Round
  | [] => []
  | current :: older => { current with calls := current.calls ++ [call] } :: older

namespace ClientThread

/-- The thread right after `thread::spawn`, with a fresh channel. -/
def spawn (tickers : List Str) (callback : Callback) : ClientThread where
  tickers := tickers
  callback := callback
  point := .recv
  queue := []
  connected := true
  sent := []
  rounds := []
  panicked := false

/-- A table entry that no `thread::spawn` has filled yet. -/
def absent : ClientThread :=
  { spawn [] (.closure 0) with point := .exited, connected := false }

/-- `tx.send(cmd)` on a channel whose receiver exists. -/
def push (th : ClientThread) (cmd : ClientCommand) (version : Nat) : ClientThread :=
  { th with queue := th.queue ++ [⟨cmd, version⟩], sent := th.sent ++ [cmd] }

/-- `tx.send(cmd)` with the error ignored. -/
def offer (th : ClientThread) (cmd : ClientCommand) (version : Nat) : ClientThread :=
  if th.point.receiving then th.push cmd version else th

/-- The last `Sender` is dropped. -/
def disconnect (th : ClientThread) : ClientThread :=
  { th with connected := false }

/-- `rx.recv()` and the match on its result; `none` while the channel is empty and connected. -/
def recv (th : ClientThread) : Option ClientThread :=
  match th.queue with
  | ⟨.update, version⟩ :: rest => some { th with queue := rest, point := .readLock version }
  | ⟨.shutdown, _⟩ :: rest => some { th with queue := rest, point := .leaving }
  | [] => if th.connected then none else some { th with point := .leaving }

/-- `quotes.read()` fails because the lock is poisoned: the round is skipped. -/
def skipRound (th : ClientThread) : ClientThread :=
  { th with point := .recv }

/-- The read guard is obtained and the ticker loop begins. -/
def beginRound (th : ClientThread) (enqueued : Nat) (quotes : Quotes) (version : Nat) :
    ClientThread :=
  { th with point := .round th.tickers, rounds := ⟨enqueued, version, quotes, []⟩ :: th.rounds }

/-- One iteration of the ticker loop: look the ticker up, and invoke the callback if it is there. A
callback that panics unwinds the thread, which drops the read guard. -/
def processTicker (th : ClientThread) (ticker : Str) (rest : List Str) (quotes : Quotes)
    (version : Nat) (result : CallbackResult) : ClientThread :=
  match quotes.lookup ticker with
  | some q =>
      { th with
        rounds := recordCall ⟨ticker, q.message, version, result⟩ th.rounds
        point := if result = .panic then .leaving else .round rest
        panicked := th.panicked || result = .panic }
  | none => { th with point := .round rest }

/-- The read guard is dropped at the end of the ticker loop. -/
def endRound (th : ClientThread) : ClientThread :=
  { th with point := .recv }

/-- `rx` is dropped with the closure, and with it every command still queued. -/
def dropReceiver (th : ClientThread) : ClientThread :=
  { th with point := .closed, queue := [] }

/-- The thread terminates. -/
def terminate (th : ClientThread) : ClientThread :=
  { th with point := .exited }

section Offer

variable (th : ClientThread) (cmd : ClientCommand) (version : Nat)

@[simp] theorem tickers_offer : (th.offer cmd version).tickers = th.tickers := by
  unfold offer
  split <;> rfl

@[simp] theorem point_offer : (th.offer cmd version).point = th.point := by
  unfold offer
  split <;> rfl

@[simp] theorem rounds_offer : (th.offer cmd version).rounds = th.rounds := by
  unfold offer
  split <;> rfl

@[simp] theorem panicked_offer : (th.offer cmd version).panicked = th.panicked := by
  unfold offer
  split <;> rfl

@[simp] theorem connected_offer : (th.offer cmd version).connected = th.connected := by
  unfold offer
  split <;> rfl

end Offer

/-- What receiving a command changes: it takes the head of the queue, or finds the channel
disconnected. -/
theorem recv_cases {th after : ClientThread} (h : th.recv = some after) :
    (∃ version rest, th.queue = ⟨.update, version⟩ :: rest ∧
      after = { th with queue := rest, point := .readLock version }) ∨
    (∃ version rest, th.queue = ⟨.shutdown, version⟩ :: rest ∧
      after = { th with queue := rest, point := .leaving }) ∨
    (th.queue = [] ∧ th.connected = false ∧ after = { th with point := .leaving }) := by
  unfold recv at h
  split at h
  case h_1 version rest hqueue => exact .inl ⟨version, rest, hqueue, (Option.some.inj h).symm⟩
  case h_2 version rest hqueue =>
    exact .inr (.inl ⟨version, rest, hqueue, (Option.some.inj h).symm⟩)
  case h_3 hqueue =>
    split at h <;> rename_i hconnected <;> cases h
    exact .inr (.inr ⟨hqueue, by simpa using hconnected, rfl⟩)

end ClientThread

end QuoteStreamer
