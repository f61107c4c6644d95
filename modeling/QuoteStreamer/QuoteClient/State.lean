import QuoteStreamer.Lib.Transition
import QuoteStreamer.QuoteClient.Connection

/-!
# The client

The two threads of the client that share a connection: the command loop at the end of `main`, and
the keep-alive thread. Both take the mutex of the stream and then that of the reader, talk to the
server, and put a new stream and a new reader in their place when anything fails. `requests` and
`answers` record history for the theorems, and no step depends on them.
-/

namespace QuoteStreamer

namespace QuoteClient

inductive Thread where
  /-- The command loop of `main`. -/
  | cli
  | keepAlive
  deriving DecidableEq, Repr

/-- Where a thread stands. -/
inductive Point where
  /-- The command loop at `stdin.read_line`, the keep-alive thread at `thread::sleep`. -/
  | idle
  /-- At `stream.lock()`; these are the arguments of the calls of `write_all` to come. -/
  | lockStream (writes : List (List UInt8))
  /-- At `reader.lock()`. -/
  | lockReader (writes : List (List UInt8))
  /-- `send_command` or `send_ping`, with these calls of `write_all` still to come. -/
  | write (request : Nat) (todo : List (List UInt8))
  /-- At `reader.read_line(&mut buf)`. -/
  | read (request : Nat)
  /-- In the loop of `reconnect`. -/
  | reconnect
  /-- At `*s = new_s`. -/
  | assignStream (connection : Nat)
  /-- At `*r = new_r`. -/
  | assignReader (connection : Nat)
  /-- About to drop the guard of the reader. -/
  | unlockReader
  /-- About to drop the guard of the stream. -/
  | unlockStream
  /-- `main` has returned. -/
  | exited
  deriving DecidableEq, Repr

/-- A line that `send_command` has returned or `send_ping` has compared with `PONG`. -/
structure Answer where
  thread : Thread
  request : Nat
  /-- The connection of the reader. -/
  connection : Nat
  line : List ReplyByte
  deriving DecidableEq, Repr

/-- The thread holds the mutex of the stream. -/
def Point.holdsStream : Point → Bool
  | .idle | .lockStream _ | .exited => false
  | _ => true

/-- The thread holds the mutex of the reader. -/
def Point.holdsReader : Point → Bool
  | .idle | .lockStream _ | .lockReader _ | .unlockStream | .exited => false
  | _ => true

end QuoteClient

/-- The client, and every connection it has opened so far. -/
structure QuoteClient where
  /-- The connection of the `TcpStream`. -/
  stream : Nat
  /-- The connection of the `BufReader`. -/
  reader : Nat
  streamLock : Option QuoteClient.Thread
  readerLock : Option QuoteClient.Thread
  points : QuoteClient.Thread → QuoteClient.Point
  connections : Nat → Connection
  /-- The number of connections opened so far. -/
  opened : Nat
  /-- The number of requests begun so far. -/
  requests : Nat
  answers : List QuoteClient.Answer

namespace QuoteClient

/-- `main` has connected and spawned the keep-alive thread. -/
def init (now : Nat) : QuoteClient where
  stream := 0
  reader := 0
  streamLock := none
  readerLock := none
  points _ := .idle
  connections _ := .fresh now
  opened := 1
  requests := 0
  answers := []

/-- Move a thread. -/
def goto (s : QuoteClient) (t : Thread) (point : Point) : QuoteClient :=
  { s with points := Function.update s.points t point }

/-- Replace a connection. -/
def setConnection (s : QuoteClient) (number : Nat) (c : Connection) : QuoteClient :=
  { s with connections := Function.update s.connections number c }

@[simp]
theorem set_connection_stream (s : QuoteClient) (number : Nat) (c : Connection) :
    (s.setConnection number c).stream = s.stream :=
  rfl

@[simp]
theorem set_connection_self (s : QuoteClient) (number : Nat) (c : Connection) :
    (s.setConnection number c).connections number = c :=
  Function.update_self ..

@[simp]
theorem set_connection_other {number other : Nat} (h : other ≠ number) (s : QuoteClient)
    (c : Connection) : (s.setConnection number c).connections other = s.connections other :=
  Function.update_of_ne h ..

/-- What `send_command` writes. -/
def sendCommand (command : Str) : List (List UInt8) :=
  [Text.encode command, Text.encode "\n".toList]

/-- What `send_ping` writes. -/
def sendPing : List (List UInt8) :=
  [Text.encode "PING\n".toList]

/-- The command loop up to the first lock; the line is missing where `read_line` fails. -/
def input (s : QuoteClient) (line : Option Str) : QuoteClient :=
  match line with
  | none => s.goto .cli .exited
  | some line =>
      let command := Text.trim line
      if command = [] then s
      else if Text.eqIgnoreAsciiCase command "EXIT".toList then s.goto .cli .exited
      else s.goto .cli (.lockStream (sendCommand command))

/-- What `send_command` or `send_ping` does with the line it has read. -/
def received (s : QuoteClient) (t : Thread) (request : Nat) (line : List ReplyByte) : QuoteClient :=
  match Text.decode (line.map (·.byte)) with
  | none => s.goto t .reconnect
  | some buf =>
      if line = [] then s.goto t .reconnect
      else
        let s := { s with answers := ⟨t, request, s.reader, line⟩ :: s.answers }
        if t = .keepAlive ∧ Text.trim buf ≠ "PONG".toList then s.goto t .reconnect
        else s.goto t .unlockReader

/-- The next operation of a thread succeeds. -/
def advance (s : QuoteClient) (t : Thread) : Option QuoteClient :=
  match s.points t with
  | .lockStream writes =>
      if s.streamLock = none then some { s.goto t (.lockReader writes) with streamLock := some t }
      else none
  | .lockReader writes =>
      if s.readerLock = none then
        some { s.goto t (.write s.requests writes) with
          readerLock := some t, requests := s.requests + 1 }
      else none
  | .write request (bytes :: todo) =>
      let c := (s.connections s.stream).send ⟨request, s.stream⟩ bytes
      some ((s.setConnection s.stream c).goto t (.write request todo))
  | .write request [] => some (s.goto t (.read request))
  | .read request =>
      match (s.connections s.reader).takeLine with
      | some (line, c) => some ((s.setConnection s.reader c).received t request line)
      | none => none
  | .assignStream number => some { s.goto t (.assignReader number) with stream := number }
  | .assignReader number =>
      -- the last handle of the old connection is gone
      let old := { s.connections s.reader with closed := true }
      some { (s.setConnection s.reader old).goto t .unlockReader with reader := number }
  | .unlockReader => some { s.goto t .unlockStream with readerLock := none }
  | .unlockStream => some { s.goto t .idle with streamLock := none }
  | .idle | .reconnect | .exited => none

/-- A call of `write_all` or `read_line` fails, or times out, after some bytes. -/
def fails (s : QuoteClient) (t : Thread) (count : Nat) : Option QuoteClient :=
  match s.points t with
  | .write request (bytes :: _) =>
      let c := (s.connections s.stream).send ⟨request, s.stream⟩ (bytes.take count)
      some ((s.setConnection s.stream c).goto t .reconnect)
  | .read _ =>
      let c := s.connections s.reader
      some
        ((s.setConnection s.reader { c with toClient := c.toClient.drop count }).goto t .reconnect)
  | _ => none

/-- What the scheduler can do. -/
inductive Action where
  /-- The command loop reads a line from the standard input, or fails to. -/
  | input (line : Option Str)
  /-- The keep-alive thread has slept. -/
  | wake
  | advance (t : Thread)
  | fails (t : Thread) (count : Nat)
  /-- `connect` succeeds in `reconnect`. -/
  | connected (t : Thread) (now : Nat)
  /-- A step at the server's end of a connection. -/
  | server (number : Nat) (event : ServerEvent)
  deriving DecidableEq

/-- A line as `stdin.read_line` returns it. -/
def isLine : Option Str → Bool
  | none => true
  | some line => '\n' ∉ line.dropLast

/-- One step. The process ends with `main`. -/
def step (s : QuoteClient) (action : Action) : Option QuoteClient :=
  if s.points .cli = .exited then none
  else
    match action with
    | .input line => if s.points .cli = .idle ∧ isLine line then some (s.input line) else none
    | .wake =>
        if s.points .keepAlive = .idle then some (s.goto .keepAlive (.lockStream sendPing))
        else none
    | .advance t => s.advance t
    | .fails t count => s.fails t count
    | .connected t now =>
        if s.points t = .reconnect then
          some { (s.setConnection s.opened (.fresh now)).goto t (.assignStream s.opened) with
            opened := s.opened + 1 }
        else none
    | .server number event =>
        if number < s.opened then do
          let c ← (s.connections number).serverStep event
          pure (s.setConnection number c)
        else none

/-- The states that the client can come to. -/
def Reachable (s : QuoteClient) : Prop :=
  ∃ now, Transition.Reachable step (init now) s

/-- Thread `t` waits for a mutex that thread `u` holds. -/
def Waits (s : QuoteClient) (t u : Thread) : Prop :=
  (∃ writes, s.points t = .lockStream writes ∧ s.streamLock = some u) ∨
    ∃ writes, s.points t = .lockReader writes ∧ s.readerLock = some u

end QuoteClient

end QuoteStreamer
