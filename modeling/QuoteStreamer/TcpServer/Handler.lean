import QuoteStreamer.Defs
import QuoteStreamer.Errors
import QuoteStreamer.QuoteServer.State

/-!
# The handler of one TCP connection

`handle_connection` with the four command handlers, cut at its blocking operations. What such an
operation answers is an input of `Handler.step`, so that every exit of the source is a branch of
one function. Times are in milliseconds.
-/

namespace QuoteStreamer

/-- What `reader.read_line(&mut line)` returns: the line it has read, with its newline unless the
stream ended, empty for `Ok(0)`; a `WouldBlock` or `TimedOut` error; or another error. -/
inductive ReadResult where
  | ok (line : Str)
  | timedOut
  | failed (text : Str)
  deriving DecidableEq, Repr

/-- Why `remove_client` is called. -/
inductive RemoveCause where
  | stop
  | keepAlive
  | readError (text : Str)
  deriving DecidableEq, Repr

/-- Where the handler stands. -/
inductive HandlerPoint where
  /-- At `stream.try_clone()`. -/
  | tryClone
  /-- At `cloned.set_read_timeout(..)`. -/
  | setReadTimeout
  /-- At `reader.read_line(&mut line)`. -/
  | readLine
  /-- At `stream.write_all(..)` with this reply. -/
  | write (reply : Str)
  /-- `handle_stream`, at `UdpSocket::bind`. -/
  | bind (addr : SocketAddr) (tickers : List Str)
  /-- `handle_stream`, at `quote_server.add_client(..)`. -/
  | addClient (addr : SocketAddr) (tickers : List Str)
  /-- At `quote_server.remove_client(id)`. -/
  | removeClient (id : UInt64) (cause : RemoveCause)
  /-- At `thread::sleep` after a read timeout. -/
  | sleep
  /-- The handler has returned. -/
  | returned (result : Except TcpServerError Unit)
  deriving DecidableEq

/-- The handler's point and its local variables. -/
structure Handler where
  point : HandlerPoint
  clientId : Option UInt64
  lastPing : Nat
  deriving DecidableEq

/-- What the operation at the handler's point answers. -/
inductive HandlerInput where
  | cloned (result : Except Str Unit)
  | timeoutSet (result : Except Str Unit)
  | read (result : ReadResult) (now : Nat)
  | wrote (result : Except Str Unit)
  | bound (result : Except Str Unit)
  | added (result : Except QuoteServerError UInt64)
  | removed (result : Except QuoteServerError Unit)
  | slept
  deriving DecidableEq

/-- The input is the answer of a method call. -/
def HandlerInput.isAnswer : HandlerInput → Bool
  | .added _ | .removed _ => true
  | _ => false

namespace Handler

/-- The handler right after `accept`, before `try_clone`. -/
def accepted (now : Nat) : Handler :=
  ⟨.tryClone, none, now⟩

/-- The handler goes to a point. -/
def goto (h : Handler) (point : HandlerPoint) : Handler :=
  { h with point := point }

/-- The handler returns `Err`. -/
def fail (h : Handler) (error : TcpServerError) : Handler :=
  h.goto (.returned (.error error))

/-- `stream.write_all(reply)` comes next. -/
def reply (h : Handler) (text : String) : Handler :=
  h.goto (.write text.toList)

/-- `handle_ping`. -/
def handlePing (h : Handler) : Handler :=
  h.reply "PONG\n"

/-- `handle_stream` up to `UdpSocket::bind`. -/
def handleStream (h : Handler) (msg : Str) : Handler :=
  match Text.splitWhitespace msg with
  | _ :: udpAddr :: ticker :: tickers =>
      match SocketAddr.parse udpAddr with
      | some addr => h.goto (.bind addr (ticker :: tickers))
      | none => h.fail (.invalidCommand "Bad UDP address".toList)
  | _ => h.fail (.invalidCommand "STREAM host:port TICKER...".toList)

/-- `handle_stop` up to `remove_client`. -/
def handleStop (h : Handler) : Handler :=
  match h.clientId with
  | some id => { h with clientId := none, point := .removeClient id .stop }
  | none => h.reply "STOP OK\n"

/-- `handle_invalid`. -/
def handleInvalid (h : Handler) : Handler :=
  h.reply "ERR Invalid command\n"

/-- The dispatch on the trimmed line. -/
def dispatch (h : Handler) (msg : Str) : Handler :=
  if Text.startsWith msg "PING".toList then h.handlePing
  else if Text.startsWith msg "STREAM ".toList then h.handleStream msg
  else if Text.startsWith msg "STOP".toList then h.handleStop
  else h.handleInvalid

/-- `client_id.take()` and `remove_client`, or the end of the handler if there is no client. -/
def disconnect (h : Handler) (cause : RemoveCause) (result : Except TcpServerError Unit) :
    Handler :=
  match h.clientId with
  | some id => { h with clientId := none, point := .removeClient id cause }
  | none => h.goto (.returned result)

/-- The match on the result of `read_line`. -/
def received (h : Handler) (result : ReadResult) (now : Nat) : Handler :=
  match result with
  | .ok [] => h.goto (.returned (.ok ()))
  | .ok line =>
      let h := { h with lastPing := now, point := .readLine }
      let msg := Text.trim line
      if msg = [] then h else h.dispatch msg
  | .timedOut =>
      if Defs.clientKeepAliveSec < (now - h.lastPing) / 1000 then h.disconnect .keepAlive (.ok ())
      else h.goto .sleep
  | .failed text => h.disconnect (.readError text) (.error (.clientIoError text))

/-- After `remove_client` has returned. -/
def removed (h : Handler) (cause : RemoveCause) (result : Except QuoteServerError Unit) : Handler :=
  match result, cause with
  | .error e, _ => h.fail (.quoteServerError e)
  | .ok (), .stop => h.reply "STOP OK\n"
  | .ok (), .keepAlive => h.goto (.returned (.ok ()))
  | .ok (), .readError text => h.fail (.clientIoError text)

/-- One step of the handler, given what the operation at its point answers. -/
def step (h : Handler) (input : HandlerInput) : Option Handler :=
  match h.point, input with
  | .tryClone, .cloned (.ok ()) => some (h.goto .setReadTimeout)
  | .tryClone, .cloned (.error text) => some (h.fail (.clientIoError text))
  | .setReadTimeout, .timeoutSet (.ok ()) => some (h.goto .readLine)
  | .setReadTimeout, .timeoutSet (.error text) => some (h.fail (.clientIoError text))
  | .readLine, .read result now => some (h.received result now)
  | .write _, .wrote (.ok ()) => some (h.goto .readLine)
  | .write _, .wrote (.error text) => some (h.fail (.clientIoError text))
  | .bind addr tickers, .bound (.ok ()) => some (h.goto (.addClient addr tickers))
  | .bind _ _, .bound (.error text) => some (h.fail (.clientIoError text))
  | .addClient _ _, .added (.ok id) =>
      some { h with clientId := some id, point := .write "STREAM OK\n".toList }
  | .addClient _ _, .added (.error e) => some (h.fail (.quoteServerError e))
  | .removeClient _ cause, .removed result => some (h.removed cause result)
  | .sleep, .slept => some (h.goto .readLine)
  | _, _ => none

/-- The method call that the handler makes at its point. -/
def request (h : Handler) : Option Request :=
  match h.point with
  | .addClient addr tickers => some (.addClient tickers (.udp addr))
  | .removeClient id _ => some (.removeClient id)
  | _ => none

/-- The handler has returned. -/
def Returned (h : Handler) : Prop :=
  ∃ result, h.point = .returned result

/-- The id that the handler still has to do with: its `client_id`, or the one it took from there to
have it removed. -/
def holding (h : Handler) : Option UInt64 :=
  match h.point with
  | .removeClient id _ => some id
  | _ => h.clientId

/-- At `remove_client` the id has been taken out of `client_id`. -/
def Released (h : Handler) : Prop :=
  ∀ id cause, h.point = .removeClient id cause → h.clientId = none

/-- The arguments that `handle_stream` accepts. -/
def streamArguments (msg : Str) : Option (SocketAddr × List Str) :=
  match Text.splitWhitespace msg with
  | _ :: udpAddr :: ticker :: tickers => (SocketAddr.parse udpAddr).map (·, ticker :: tickers)
  | _ => none

/-- The line is dispatched to `handle_stream`, which rejects it. -/
def Malformed (msg : Str) : Prop :=
  Text.startsWith msg "PING".toList = false ∧ Text.startsWith msg "STREAM ".toList = true ∧
    streamArguments msg = none

instance (msg : Str) : Decidable (Malformed msg) :=
  inferInstanceAs (Decidable (_ ∧ _ ∧ _))

variable {h next : Handler}

/-- There is no whitespace in the keyword. -/
theorem stream_keyword_word : ∀ c ∈ "STREAM".toList, Text.isWhitespace c = false := by
  simp [Text.isWhitespace]

/-- `handle_stream` goes on to the bind when it accepts the arguments. -/
theorem handle_stream_accepted {msg : Str} {addr : SocketAddr} {tickers : List Str}
    (harguments : streamArguments msg = some (addr, tickers)) :
    h.handleStream msg = h.goto (.bind addr tickers) := by
  unfold streamArguments at harguments
  unfold handleStream
  generalize Text.splitWhitespace msg = words at harguments ⊢
  rcases words with _ | ⟨keyword, _ | ⟨udpAddr, _ | ⟨ticker, rest⟩⟩⟩
  · cases harguments
  · cases harguments
  · cases harguments
  · obtain ⟨parsed, hparse, heq⟩ := Option.map_eq_some_iff.mp harguments
    cases heq
    show (match SocketAddr.parse udpAddr with
      | some addr => h.goto (.bind addr (ticker :: rest))
      | none => h.fail (.invalidCommand "Bad UDP address".toList)) = _
    rw [hparse]

/-- Otherwise it returns an error, without a reply. -/
theorem handle_stream_rejected {msg : Str} (harguments : streamArguments msg = none) :
    ∃ text, h.handleStream msg = h.fail (.invalidCommand text) := by
  unfold streamArguments at harguments
  unfold handleStream
  generalize Text.splitWhitespace msg = words at harguments ⊢
  rcases words with _ | ⟨keyword, _ | ⟨udpAddr, _ | ⟨ticker, rest⟩⟩⟩
  · exact ⟨_, rfl⟩
  · exact ⟨_, rfl⟩
  · exact ⟨_, rfl⟩
  · have hparse : SocketAddr.parse udpAddr = none := Option.map_eq_none_iff.mp harguments
    refine ⟨"Bad UDP address".toList, ?_⟩
    show (match SocketAddr.parse udpAddr with
      | some addr => h.goto (.bind addr (ticker :: rest))
      | none => h.fail (.invalidCommand "Bad UDP address".toList)) = _
    rw [hparse]

/-- The dispatch returns at once for a malformed `STREAM`, and for nothing else. -/
theorem dispatch_returned_iff {msg : Str} : (h.dispatch msg).Returned ↔ Malformed msg := by
  constructor
  · rintro ⟨result, hpoint⟩
    unfold dispatch at hpoint
    split at hpoint
    · cases hpoint
    · rename_i hping
      split at hpoint
      · rename_i hstream
        cases harguments : streamArguments msg with
        | some arguments =>
            rw [handle_stream_accepted harguments] at hpoint
            cases hpoint
        | none => exact ⟨by simpa using hping, hstream, harguments⟩
      · split at hpoint
        · unfold handleStop at hpoint
          split at hpoint <;> cases hpoint
        · cases hpoint
  · rintro ⟨hping, hstream, harguments⟩
    obtain ⟨text, hfail⟩ := handle_stream_rejected (h := h) harguments
    refine ⟨.error (.invalidCommand text), ?_⟩
    rw [dispatch, if_neg (by rw [hping]; exact Bool.false_ne_true), if_pos hstream, hfail]
    rfl

/-! ## The id across the steps of the handler -/

theorem holding_goto {point : HandlerPoint} (hpoint : ∀ id cause, point ≠ .removeClient id cause) :
    (h.goto point).holding = h.clientId ∧ (h.goto point).Released := by
  refine ⟨?_, fun id cause hat => absurd hat (hpoint id cause)⟩
  cases point with
  | removeClient id cause => exact absurd rfl (hpoint id cause)
  | _ => rfl

theorem holding_handle_stream (msg : Str) :
    (h.handleStream msg).holding = h.clientId ∧ (h.handleStream msg).Released := by
  unfold handleStream
  split
  · split
    · exact holding_goto (by simp)
    · exact holding_goto (by simp)
  · exact holding_goto (by simp)

theorem holding_handle_stop : h.handleStop.holding = h.clientId ∧ h.handleStop.Released := by
  unfold handleStop
  split <;> rename_i hid
  · exact ⟨hid.symm, fun _ _ _ => rfl⟩
  · exact holding_goto (by simp)

theorem holding_dispatch (msg : Str) :
    (h.dispatch msg).holding = h.clientId ∧ (h.dispatch msg).Released := by
  unfold dispatch
  split
  · exact holding_goto (by simp)
  · split
    · exact holding_handle_stream msg
    · split
      · exact holding_handle_stop
      · exact holding_goto (by simp)

theorem holding_disconnect (cause : RemoveCause) (result : Except TcpServerError Unit) :
    (h.disconnect cause result).holding = h.clientId ∧ (h.disconnect cause result).Released := by
  unfold disconnect
  split <;> rename_i hid
  · exact ⟨hid.symm, fun _ _ _ => rfl⟩
  · exact holding_goto (by simp)

theorem holding_received (result : ReadResult) (now : Nat) :
    (h.received result now).holding = h.clientId ∧ (h.received result now).Released := by
  unfold received
  split
  · exact holding_goto (by simp)
  · dsimp only
    split
    · exact ⟨rfl, fun id cause hat => by cases hat⟩
    · exact holding_dispatch _
  · split
    · exact holding_disconnect _ _
    · exact holding_goto (by simp)
  · exact holding_disconnect _ _

/-- Outside the answers of method calls a step keeps the id. -/
theorem holding_step {input : HandlerInput} (hstep : h.step input = some next)
    (hexternal : input.isAnswer = false) : next.holding = h.holding ∧ next.Released := by
  unfold step at hstep
  split at hstep <;> cases hstep
  case h_5 hat =>
    have hholding : h.holding = h.clientId := by rw [holding, hat]
    rw [hholding]
    exact holding_received _ _
  case h_10 | h_11 | h_12 => cases hexternal
  all_goals
    rename_i hat
    have hholding : h.holding = h.clientId := by rw [holding, hat]
    rw [hholding]
    exact holding_goto (by simp)

/-- A handler that stands at a method call takes no other input. -/
theorem request_of_step {input : HandlerInput} (hstep : h.step input = some next)
    (hexternal : input.isAnswer = false) : h.request = none := by
  unfold step at hstep
  split at hstep <;> cases hstep
  case h_10 | h_11 | h_12 => cases hexternal
  all_goals
    rename_i hat
    rw [request, hat]

/-- `add_client` has answered: the handler holds the new id. -/
theorem step_added {id : UInt64} (hstep : h.step (.added (.ok id)) = some next) :
    (∃ addr tickers, h.point = .addClient addr tickers) ∧
      next = { h with clientId := some id, point := .write "STREAM OK\n".toList } := by
  unfold step at hstep
  cases hpoint : h.point with
  | addClient addr tickers =>
      rw [hpoint] at hstep
      cases hstep
      exact ⟨⟨addr, tickers, rfl⟩, rfl⟩
  | _ =>
      rw [hpoint] at hstep
      cases hstep

/-- `remove_client` has answered: the handler holds no id. -/
theorem step_removed {result : Except QuoteServerError Unit}
    (hstep : h.step (.removed result) = some next) (hreleased : h.Released) :
    ∃ id cause, h.point = .removeClient id cause ∧ next = h.removed cause result ∧
      next.clientId = none ∧ next.holding = none ∧ next.Released := by
  have hgoto : ∀ point : HandlerPoint, (∀ id cause, point ≠ .removeClient id cause) →
      h.clientId = none → (h.goto point).clientId = none ∧ (h.goto point).holding = none ∧
        (h.goto point).Released := by
    intro point hpoint hnone
    obtain ⟨hholding, hrel⟩ := holding_goto (h := h) hpoint
    exact ⟨hnone, hholding.trans hnone, hrel⟩
  unfold step at hstep
  cases hpoint : h.point with
  | removeClient id cause =>
      have hnone := hreleased id cause hpoint
      rw [hpoint] at hstep
      cases hstep
      refine ⟨id, cause, rfl, rfl, ?_⟩
      unfold removed
      split <;> exact hgoto _ (by simp) hnone
  | _ =>
      rw [hpoint] at hstep
      cases hstep

end Handler

end QuoteStreamer
