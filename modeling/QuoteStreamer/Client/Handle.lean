import QuoteStreamer.Client.Thread

/-!
# The `Client` handle

The struct through which the server reaches a client thread. `Client::start` gives the thread and
its channel one index in the table of threads, so `tx` and `threadHandle` are such indices.
`Client::send` and `Drop for Client` are split where they block in `join`: `trySend` is what both
do before, and the joins themselves are program points of the callers.
-/

namespace QuoteStreamer

/-- A client that listens for real-time stock quote updates. -/
structure Client where
  tickers : List Str
  callback : Callback
  /-- The channel to the client loop, `none` before `start` and after a completed `Shutdown`. -/
  tx : Option Nat
  /-- The thread of the client loop, as long as nobody has joined it. -/
  threadHandle : Option Nat
  deriving DecidableEq, Repr

namespace Client

/-- `Client::new`. -/
def new (tickers : List Str) (callback : Callback) : Client :=
  ⟨tickers, callback, none, none⟩

/-- `Client::start`, whose thread and channel get the index `slot`. -/
def start (client : Client) (slot : Nat) : Client :=
  { client with tx := some slot, threadHandle := some slot }

/-- The channel part of `Client::send`: hand the command to the channel, or fail because the client
is not started or its thread has dropped the receiver. -/
def trySend (client : Client) (cmd : ClientCommand) (version : Nat) (threads : Threads) :
    Except ClientError Threads :=
  match client.tx with
  | some tx =>
      if (threads tx).point.receiving then
        .ok (Function.update threads tx ((threads tx).push cmd version))
      else
        .error (.initializationError
          "Failed to send command: sending on a closed channel".toList)
  | none =>
      .error (.initializationError "Client loop not started or already shutdown".toList)

/-- The threads after a send whose error is only logged. -/
def sendIgnored (client : Client) (cmd : ClientCommand) (version : Nat) (threads : Threads) :
    Threads :=
  match client.trySend cmd version threads with
  | .ok threads => threads
  | .error _ => threads

/-- What `join` waits for: the thread of the handle has terminated, if there is one. -/
def joined (client : Client) (threads : Threads) : Bool :=
  match client.threadHandle with
  | some handle => (threads handle).point = .exited
  | none => true

/-- The threads after the client's `Sender` is dropped. -/
def dropSender (client : Client) (threads : Threads) : Threads :=
  match client.tx with
  | some tx => Function.update threads tx (threads tx).disconnect
  | none => threads

/-- The client after `Client::send(Shutdown)` has joined its thread. -/
def stopped (client : Client) : Client :=
  { client with tx := none, threadHandle := none }

/-- The client drives the thread and the channel with this index. -/
def Drives (client : Client) (slot : Nat) : Prop :=
  client.tx = some slot ∧ client.threadHandle = some slot

variable {client : Client} {slot : Nat} {cmd : ClientCommand} {version : Nat} {threads : Threads}

/-- A successful send is a push to the channel of the client. -/
theorem try_send_eq_ok {after : Threads} (h : client.trySend cmd version threads = .ok after) :
    ∃ tx, client.tx = some tx ∧ (threads tx).point.receiving = true ∧
      after = Function.update threads tx ((threads tx).push cmd version) := by
  unfold trySend at h
  split at h <;> rename_i htx
  · split at h <;> rename_i hlive <;> cases h
    exact ⟨_, htx, hlive, rfl⟩
  · cases h

/-- No send moves a thread. -/
theorem point_send_ignored (i : Nat) :
    (client.sendIgnored cmd version threads i).point = (threads i).point := by
  unfold sendIgnored
  cases heq : client.trySend cmd version threads with
  | error e => rfl
  | ok after =>
      obtain ⟨tx, _, _, rfl⟩ := try_send_eq_ok heq
      by_cases hi : i = tx
      · subst i
        simp [ClientThread.push]
      · simp [hi]

/-- Dropping a client's `Sender` moves no thread. -/
theorem point_drop_sender (i : Nat) :
    (client.dropSender threads i).point = (threads i).point := by
  unfold dropSender
  cases client.tx with
  | none => rfl
  | some tx =>
      by_cases hi : i = tx
      · subst i
        simp [ClientThread.disconnect]
      · simp [hi]

/-- A freshly started client drives its slot. -/
theorem start_drives (client : Client) (slot : Nat) : (client.start slot).Drives slot :=
  ⟨rfl, rfl⟩

/-- A client drives one thread only. -/
theorem Drives.slot_eq {other : Nat} (h : client.Drives slot) (hother : client.Drives other) :
    slot = other :=
  Option.some.inj (h.1.symm.trans hother.1)

/-- A send to a live receiver appends to that channel. -/
theorem Drives.try_send_ok (h : client.Drives slot)
    (hlive : (threads slot).point.receiving = true) :
    client.trySend cmd version threads =
      .ok (Function.update threads slot ((threads slot).push cmd version)) := by
  simp [trySend, h.1, hlive]

/-- A send fails when the receiver is gone. -/
theorem Drives.try_send_error (h : client.Drives slot)
    (hdead : (threads slot).point.receiving = false) :
    client.trySend cmd version threads =
      .error (.initializationError
        "Failed to send command: sending on a closed channel".toList) := by
  simp [trySend, h.1, hdead]

/-- A logged send offers the command to the client's own channel. -/
theorem Drives.send_ignored (h : client.Drives slot) :
    client.sendIgnored cmd version threads =
      Function.update threads slot ((threads slot).offer cmd version) := by
  cases hlive : (threads slot).point.receiving with
  | true => simp [sendIgnored, h.try_send_ok hlive, ClientThread.offer, hlive]
  | false => simp [sendIgnored, h.try_send_error hlive, ClientThread.offer, hlive]

/-- Dropping the client disconnects its own channel. -/
theorem Drives.drop_sender (h : client.Drives slot) :
    client.dropSender threads = Function.update threads slot (threads slot).disconnect := by
  simp [dropSender, h.1]

/-- A join waits for the client's own thread. -/
theorem Drives.joined_iff (h : client.Drives slot) :
    client.joined threads = true ↔ (threads slot).point = .exited := by
  simp [joined, h.2]

end Client

end QuoteStreamer
