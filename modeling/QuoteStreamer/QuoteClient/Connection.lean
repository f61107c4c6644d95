import QuoteStreamer.TcpServer.Reader
import QuoteStreamer.Utf8

/-!
# One connection between the client and the server

The bytes on their way in both directions, and the handler at the server's end. Each byte that the
client writes carries the request it belongs to, and each byte of a reply the requests whose bytes
made up the line that the handler had read when it wrote it; no step reads these marks. What the
`QuoteServer` answers is up to the scheduler.
-/

namespace QuoteStreamer

/-- A request of the client, with the connection on which its bytes were written. -/
structure Origin where
  request : Nat
  connection : Nat
  deriving DecidableEq, Repr

/-- A byte on its way to the server. -/
structure RequestByte where
  byte : UInt8
  origin : Origin
  deriving DecidableEq, Repr

/-- A byte on its way to the client. -/
structure ReplyByte where
  byte : UInt8
  handling : List Origin
  deriving DecidableEq, Repr

/-- A connection. -/
structure Connection where
  toServer : List RequestByte
  toClient : List ReplyByte
  handler : Handler
  /-- The origins of the bytes of the line that the handler has read last. -/
  handling : List Origin
  /-- The client has dropped both its handles. -/
  closed : Bool
  deriving DecidableEq

/-- What happens at the server's end of a connection. -/
inductive ServerEvent where
  /-- `read_line` has read up to a newline. -/
  | line (now : Nat)
  /-- `read_line` times out after it has taken some bytes. -/
  | timeout (count now : Nat)
  /-- `read_line` finds the end of the stream. -/
  | endOfStream (now : Nat)
  /-- `read_line` fails in another way. -/
  | readFails (text : Str) (now : Nat)
  /-- `write_all` has written the reply. -/
  | wrote
  /-- `write_all` fails after some bytes. -/
  | writeFails (count : Nat) (text : Str)
  /-- Another operation of the handler answers. -/
  | answer (input : HandlerInput)
  deriving DecidableEq

/-- The input is not about the stream. -/
def HandlerInput.isOther : HandlerInput → Bool
  | .read .. | .wrote _ => false
  | _ => true

namespace Connection

/-- A connection right after `connect` and `accept`. -/
def fresh (now : Nat) : Connection where
  toServer := []
  toClient := []
  handler := .accepted now
  handling := []
  closed := false

/-- The client writes bytes for a request. -/
def send (c : Connection) (origin : Origin) (bytes : List UInt8) : Connection :=
  { c with toServer := c.toServer ++ bytes.map (⟨·, origin⟩) }

/-- What `read_line` takes at the client: a line, or all that is left once the server has dropped
the connection. -/
def takeLine (c : Connection) : Option (List ReplyByte × Connection) :=
  match c.toClient.dropWhile (·.byte ≠ 10), c.handler.point with
  | newline :: rest, _ =>
      some (c.toClient.takeWhile (·.byte ≠ 10) ++ [newline], { c with toClient := rest })
  | [], .returned _ => some (c.toClient, { c with toClient := [] })
  | [], _ => none

/-- A reply, or the beginning of one. -/
def reply (c : Connection) (bytes : List UInt8) : List ReplyByte :=
  bytes.map (⟨·, c.handling⟩)

/-- One step at the server's end. -/
def serverStep (c : Connection) : ServerEvent → Option Connection
  | .line now =>
      match c.toServer.dropWhile (·.byte ≠ 10) with
      | newline :: rest => do
          let line := c.toServer.takeWhile (·.byte ≠ 10) ++ [newline]
          let h ← c.handler.step (.read (LineResult.ofBytes (line.map (·.byte))).read now)
          pure { c with handler := h, toServer := rest, handling := line.map (·.origin) }
      | [] => none
  | .timeout count now =>
      if (c.toServer.take count).all (·.byte ≠ 10) then do
        let h ← c.handler.step (.read .timedOut now)
        pure { c with handler := h, toServer := c.toServer.drop count }
      else none
  | .endOfStream now =>
      if c.closed && c.toServer.all (·.byte ≠ 10) then do
        let h ← c.handler.step (.read (LineResult.ofBytes (c.toServer.map (·.byte))).read now)
        pure { c with handler := h, toServer := [], handling := c.toServer.map (·.origin) }
      else none
  | .readFails text now => do
      let h ← c.handler.step (.read (.failed text) now)
      pure { c with handler := h }
  | .wrote =>
      match c.handler.point with
      | .write text => do
          let h ← c.handler.step (.wrote (.ok ()))
          pure { c with handler := h, toClient := c.toClient ++ c.reply (Text.encode text) }
      | _ => none
  | .writeFails count error =>
      match c.handler.point with
      | .write text => do
          let h ← c.handler.step (.wrote (.error error))
          pure { c with
            handler := h
            toClient := c.toClient ++ c.reply ((Text.encode text).take count) }
      | _ => none
  | .answer input =>
      if input.isOther then do
        let h ← c.handler.step input
        pure { c with handler := h }
      else none

end Connection

/-- Bytes with at most one newline, at their end. -/
def OneLine (bytes : List UInt8) : Prop :=
  ∀ front rest, bytes = front ++ 10 :: rest → rest = []

theorem one_line_nil : OneLine [] := by
  intro front rest heq
  simp at heq

theorem one_line_prefix {front rest : List UInt8}
    (h : OneLine (front ++ rest)) : OneLine front := by
  intro before after heq
  have hnil := h before (after ++ rest) (by rw [heq, List.append_assoc, List.cons_append])
  exact (List.append_eq_nil_iff.mp hnil).1

theorem one_line_suffix {front rest : List UInt8} (h : OneLine (front ++ rest)) : OneLine rest := by
  intro before after heq
  exact h (front ++ before) after (by rw [heq, List.append_assoc])

theorem one_line_newline {b : List UInt8} (hclean : 10 ∉ b) : OneLine (b ++ [10]) := by
  intro before rest heq
  rcases List.append_eq_append_iff.mp heq with ⟨more, -, htail⟩ | ⟨more, hsplit, htail⟩
  · cases more with
    | nil => exact (List.cons.inj htail).2.symm
    | cons byte more => simp at htail
  · cases more with
    | nil => exact (List.cons.inj htail).2
    | cons byte more =>
        obtain ⟨rfl, -⟩ := List.cons.inj htail
        exact absurd (by rw [hsplit]; simp) hclean

namespace Handler

/-- The handler is between a command and the reply to it. -/
def Busy (h : Handler) : Prop :=
  match h.point with
  | .write _ | .bind .. | .addClient .. | .removeClient _ .stop => True
  | _ => False

/-- What the handler is about to write is one line. -/
def Plain (h : Handler) : Prop :=
  ∀ text, h.point = .write text → OneLine (Text.encode text)

variable {h next : Handler} {input : HandlerInput}

theorem returned_no_step (hreturned : h.Returned) (input : HandlerInput) : h.step input = none := by
  obtain ⟨result, hpoint⟩ := hreturned
  unfold step
  rw [hpoint]

/-- The handler reads between the commands. -/
theorem read_step {result : ReadResult} {now : Nat}
    (hstep : h.step (.read result now) = some next) :
    ¬ h.Busy ∧ next = h.received result now := by
  unfold step at hstep
  cases hpoint : h.point with
  | readLine =>
      rw [hpoint] at hstep
      cases hstep
      exact ⟨by rw [Busy, hpoint]; exact id, rfl⟩
  | _ =>
      rw [hpoint] at hstep
      cases hstep

/-- Once it has written, the handler reads again or has returned. -/
theorem write_step {result : Except Str Unit} (hstep : h.step (.wrote result) = some next) :
    ¬ next.Busy := by
  unfold step at hstep
  cases hpoint : h.point with
  | write text =>
      rw [hpoint] at hstep
      cases result <;> cases hstep <;> exact id
  | _ =>
      rw [hpoint] at hstep
      cases hstep

/-- Only a line makes the handler busy. -/
theorem not_busy_step (hstep : h.step input = some next) (hnot : ¬ h.Busy)
    (hline : ∀ line now, input ≠ .read (.ok line) now) : ¬ next.Busy := by
  have hdisconnect : ∀ cause result, cause ≠ RemoveCause.stop →
      ¬ (h.disconnect cause result).Busy := by
    intro cause result hcause
    unfold disconnect
    split
    · cases cause with
      | stop => exact absurd rfl hcause
      | _ => exact id
    · exact id
  unfold step at hstep
  split at hstep <;> cases hstep
  case h_5 result now hat =>
    cases result with
    | ok line => exact absurd rfl (hline line now)
    | timedOut =>
        unfold received
        dsimp only
        split
        · exact hdisconnect .keepAlive _ nofun
        · exact id
    | failed text => exact hdisconnect (.readError text) _ nofun
  case h_12 number cause result hat =>
    cases cause with
    | stop => exact absurd (by rw [Busy, hat]; trivial) hnot
    | _ => cases result <;> exact id
  case h_8 hat | h_10 hat => exact absurd (by rw [Busy, hat]; trivial) hnot
  all_goals exact id

/-- A busy handler is so until it has written the reply, or returned. -/
theorem busy_step (hstep : h.step input = some next) (hbusy : h.Busy)
    (hother : input.isOther = true) : next.Busy ∨ next.Returned := by
  unfold step at hstep
  split at hstep <;> cases hstep
  case h_1 hat | h_3 hat | h_13 hat => exact absurd hbusy (by rw [Busy, hat]; exact id)
  case h_5 | h_6 | h_7 => cases hother
  case h_8 | h_10 => exact .inl trivial
  case h_12 number cause result hat =>
    cases cause with
    | stop =>
        cases result with
        | ok _ => exact .inl trivial
        | error e => exact .inr ⟨_, rfl⟩
    | _ => exact absurd hbusy (by rw [Busy, hat]; exact id)
  all_goals exact .inr ⟨_, rfl⟩

/-! ## The replies are lines -/

theorem plain_goto {point : HandlerPoint} (hpoint : ∀ text, point ≠ .write text) :
    (h.goto point).Plain :=
  fun text hat => absurd hat (hpoint text)

theorem plain_reply {p : Str} (hpoint : h.point = .write (p ++ ['\n']))
    (hclean : 10 ∉ Text.encode p) : h.Plain := by
  intro text hwrite
  obtain rfl : p ++ ['\n'] = text := HandlerPoint.write.inj (hpoint.symm.trans hwrite)
  rw [Text.encode_append]
  exact one_line_newline hclean

theorem plain_stop_ok : (h.reply "STOP OK\n").Plain :=
  plain_reply (p := "STOP OK".toList) rfl (by decide)

theorem plain_handle_stream (msg : Str) : (h.handleStream msg).Plain := by
  unfold handleStream
  split
  · split <;> exact plain_goto nofun
  · exact plain_goto nofun

theorem plain_dispatch (msg : Str) : (h.dispatch msg).Plain := by
  unfold dispatch
  split
  · exact plain_reply (p := "PONG".toList) rfl (by decide)
  · split
    · exact plain_handle_stream msg
    · split
      · unfold handleStop
        split
        · exact fun _ hat => by cases hat
        · exact plain_stop_ok
      · exact plain_reply (p := "ERR Invalid command".toList) rfl (by decide)

theorem plain_disconnect (cause : RemoveCause) (result : Except TcpServerError Unit) :
    (h.disconnect cause result).Plain := by
  unfold disconnect
  split
  · exact fun _ hat => by cases hat
  · exact plain_goto nofun

theorem plain_received (result : ReadResult) (now : Nat) : (h.received result now).Plain := by
  unfold received
  split
  · exact plain_goto nofun
  · dsimp only
    split
    · exact fun _ hat => by cases hat
    · exact plain_dispatch _
  · split
    · exact plain_disconnect _ _
    · exact plain_goto nofun
  · exact plain_disconnect _ _

theorem plain_step (hstep : h.step input = some next) : next.Plain := by
  unfold step at hstep
  split at hstep <;> cases hstep
  case h_5 result now hat => exact plain_received result now
  case h_10 => exact plain_reply (p := "STREAM OK".toList) rfl (by decide)
  case h_12 number cause result hat =>
    unfold removed
    split
    case h_2 => exact plain_stop_ok
    all_goals exact plain_goto nofun
  all_goals exact plain_goto nofun

end Handler

end QuoteStreamer
