import QuoteStreamer.Lib.Transition
import QuoteStreamer.TcpServer.Reader

/-!
# A connection with a clock

`handle_connection` in time, counted in milliseconds. Bytes arrive at the socket and time passes
whenever the scheduler wants; a `read` of the socket that has found nothing for the tick period
times out, and a sleep takes the tick period. Everything else takes as long as the scheduler says.
The fields from `lastNewline` on record history for the theorems, and no step looks at them to
decide.
-/

namespace QuoteStreamer

/-- The capacity of a `BufReader`. -/
def bufferCapacity : Nat := 8192

/-- What the handler is doing. -/
inductive ReadPhase where
  /-- The connection is accepted, and the handler has not begun. -/
  | accepted
  /-- At the handler's point, outside the operations below. -/
  | running
  /-- Inside `read_line`, with these bytes in its `String`, in a `read` of the socket since then. -/
  | reading (line : List UInt8) (since : Nat)
  /-- `read_line` has come to the end of the line or of the stream with these bytes. -/
  | readDone (line : List UInt8)
  /-- The `read` timed out at this moment, and the keep-alive check is next. -/
  | timedOut (moment : Nat)
  /-- In `thread::sleep` since then. -/
  | sleeping (since : Nat)
  deriving DecidableEq, Repr

/-- A connection and the time. -/
structure Clocked where
  now : Nat
  /-- The bytes that have arrived at the socket and are not read yet. -/
  inbox : List UInt8
  /-- The peer has closed its side. -/
  closed : Bool
  /-- The bytes in the buffer of the `BufReader`. -/
  buffer : List UInt8
  handler : Handler
  phase : ReadPhase
  /-- When the last newline arrived, or the connection was accepted. -/
  lastNewline : Nat
  /-- When the lines were read, newest first. -/
  lines : List Nat
  /-- Since the last line a check has let more than the keep-alive time pass, or a `read` has gone
  on behind bytes without a newline more than a tick period after the keep-alive time. -/
  late : Bool

/-- The scheduler's choice of a step. -/
inductive ClockAction where
  /-- Time passes. -/
  | elapse (ms : Nat)
  | arrive (first : UInt8) (rest : List UInt8)
  | close
  /-- The handler begins, which sets `last_ping`. -/
  | begin
  /-- An operation of the handler that is neither a read nor a sleep answers. -/
  | answer (input : HandlerInput)
  /-- The handler calls `read_line`. -/
  | readLine
  /-- The `read` of the socket returns what has arrived, or the end of the stream. -/
  | receive
  /-- The `read` of the socket fails. -/
  | fail (text : Str)
  /-- The `read` of the socket times out. -/
  | expire
  /-- The handler goes on with the result of `read_line`. -/
  | finish
  /-- The sleep ends. -/
  | wake

/-- The operation has a time limit of its own. -/
def HandlerInput.isTimed : HandlerInput → Bool
  | .read .. | .slept => true
  | _ => false

namespace Clocked

/-- The keep-alive time in milliseconds. -/
def keepAliveMsec : Nat := Defs.clientKeepAliveSec * 1000

/-- The connection has just been accepted. -/
def init : Clocked where
  now := 0
  inbox := []
  closed := false
  buffer := []
  handler := .accepted 0
  phase := .accepted
  lastNewline := 0
  lines := []
  late := false

/-- `read_until` has these bytes in the buffer: it takes the line up to the newline, or all of
them and reads on. -/
def scan (s : Clocked) (line chunk : List UInt8) : Clocked :=
  let front := line ++ chunk.takeWhile (· ≠ 10)
  match chunk.dropWhile (· ≠ 10) with
  | newline :: rest => { s with buffer := rest, phase := .readDone (front ++ [newline]) }
  | [] => { s with buffer := [], phase := .reading front s.now }

/-- The handler goes on after `read_line` has found the end of the line or the stream. -/
def lineRead (s : Clocked) (h : Handler) (line : List UInt8) : Clocked :=
  match LineResult.ofBytes line with
  | .ok (_ :: _) =>
      { s with handler := h, phase := .running, lines := s.now :: s.lines, late := false }
  | _ => { s with handler := h, phase := .running }

/-- The handler goes on after the keep-alive check. -/
def checked (s : Clocked) (h : Handler) : Clocked :=
  if h.point = .sleep then
    { s with
      handler := h
      phase := .sleeping s.now
      late := s.late || decide (s.handler.lastPing + keepAliveMsec < s.now) }
  else { s with handler := h, phase := .running }

/-- One step under the scheduler's choice. -/
def step (s : Clocked) : ClockAction → Option Clocked
  | .elapse ms => some { s with now := s.now + ms }
  | .arrive first rest =>
      if s.closed then none
      else
        some { s with
          inbox := s.inbox ++ first :: rest
          lastNewline := if 10 ∈ first :: rest then s.now else s.lastNewline }
  | .close => some { s with closed := true }
  | .begin =>
      match s.phase with
      | .accepted => some { s with handler := .accepted s.now, phase := .running }
      | _ => none
  | .answer input =>
      match s.phase with
      | .running =>
          if input.isTimed then none
          else (s.handler.step input).map fun h => { s with handler := h }
      | _ => none
  | .readLine =>
      match s.phase with
      | .running => if s.handler.point = .readLine then some (s.scan [] s.buffer) else none
      | _ => none
  | .receive =>
      match s.phase with
      | .reading line _ =>
          if s.inbox = [] then if s.closed then some { s with phase := .readDone line } else none
          else
            let after := { s with inbox := s.inbox.drop bufferCapacity }.scan line
              (s.inbox.take bufferCapacity)
            let unfinished := 10 ∉ s.inbox.take bufferCapacity
            some { after with
              late := s.late || decide (unfinished ∧
                s.handler.lastPing + keepAliveMsec + Defs.tcpConnectionTickPeriodMsec < s.now) }
      | _ => none
  | .fail text =>
      match s.phase with
      | .reading _ _ =>
          (s.handler.step (.read (.failed text) s.now)).map fun h =>
            { s with handler := h, phase := .running }
      | _ => none
  | .expire =>
      match s.phase with
      | .reading _ since =>
          if s.inbox = [] ∧ s.closed = false ∧ since + Defs.tcpConnectionTickPeriodMsec ≤ s.now then
            some { s with phase := .timedOut s.now }
          else none
      | _ => none
  | .finish =>
      match s.phase with
      | .readDone line =>
          (s.handler.step (.read (LineResult.ofBytes line).read s.now)).map fun h =>
            s.lineRead h line
      | .timedOut _ => (s.handler.step (.read .timedOut s.now)).map fun h => s.checked h
      | _ => none
  | .wake =>
      match s.phase with
      | .sleeping since =>
          if since + Defs.tcpConnectionTickPeriodMsec ≤ s.now then
            (s.handler.step .slept).map fun h => { s with handler := h, phase := .running }
          else none
      | _ => none

/-- The transitions of a connection and its clock. -/
inductive Move (s : Clocked) : ClockAction → Clocked → Prop where
  | elapse (ms : Nat) : Move s (.elapse ms) { s with now := s.now + ms }
  | arrive (first : UInt8) (rest : List UInt8) :
      Move s (.arrive first rest) { s with
        inbox := s.inbox ++ first :: rest
        lastNewline := if 10 ∈ first :: rest then s.now else s.lastNewline }
  | close : Move s .close { s with closed := true }
  | begin (hat : s.phase = .accepted) :
      Move s .begin { s with handler := .accepted s.now, phase := .running }
  | answer (input : HandlerInput) (h : Handler) (hat : s.phase = .running)
      (htimed : input.isTimed = false) (hstep : s.handler.step input = some h) :
      Move s (.answer input) { s with handler := h }
  | readLine (hat : s.phase = .running) (hpoint : s.handler.point = .readLine) :
      Move s .readLine (s.scan [] s.buffer)
  | receive (line : List UInt8) (since : Nat) (hat : s.phase = .reading line since)
      (hinbox : s.inbox ≠ []) :
      Move s .receive { { s with inbox := s.inbox.drop bufferCapacity }.scan line
        (s.inbox.take bufferCapacity) with
          late := s.late || decide (10 ∉ s.inbox.take bufferCapacity ∧
            s.handler.lastPing + keepAliveMsec + Defs.tcpConnectionTickPeriodMsec < s.now) }
  | receiveEnd (line : List UInt8) (since : Nat) (hat : s.phase = .reading line since)
      (hinbox : s.inbox = []) (hclosed : s.closed = true) :
      Move s .receive { s with phase := .readDone line }
  | fail (text : Str) (line : List UInt8) (since : Nat) (h : Handler)
      (hat : s.phase = .reading line since)
      (hstep : s.handler.step (.read (.failed text) s.now) = some h) :
      Move s (.fail text) { s with handler := h, phase := .running }
  | expire (line : List UInt8) (since : Nat) (hat : s.phase = .reading line since)
      (hinbox : s.inbox = []) (hopen : s.closed = false)
      (hwaited : since + Defs.tcpConnectionTickPeriodMsec ≤ s.now) :
      Move s .expire { s with phase := .timedOut s.now }
  | finishLine (line : List UInt8) (h : Handler) (hat : s.phase = .readDone line)
      (hstep : s.handler.step (.read (LineResult.ofBytes line).read s.now) = some h) :
      Move s .finish (s.lineRead h line)
  | finishTimeout (moment : Nat) (h : Handler) (hat : s.phase = .timedOut moment)
      (hstep : s.handler.step (.read .timedOut s.now) = some h) : Move s .finish (s.checked h)
  | wake (since : Nat) (h : Handler) (hat : s.phase = .sleeping since)
      (hwaited : since + Defs.tcpConnectionTickPeriodMsec ≤ s.now)
      (hstep : s.handler.step .slept = some h) :
      Move s .wake { s with handler := h, phase := .running }

variable {s t : Clocked} {action : ClockAction}

/-- Every step is one of the listed transitions. -/
theorem step_move (h : s.step action = some t) : Move s action t := by
  cases action with
  | elapse ms =>
      cases h
      exact .elapse ms
  | arrive first rest =>
      simp only [step] at h
      split at h <;> cases h
      exact .arrive first rest
  | close =>
      cases h
      exact .close
  | begin =>
      simp only [step] at h
      split at h <;> rename_i hat <;> cases h
      exact .begin hat
  | answer input =>
      simp only [step] at h
      split at h <;> rename_i hat
      · split at h <;> rename_i htimed
        · cases h
        · obtain ⟨next, hstep, rfl⟩ := Option.map_eq_some_iff.mp h
          exact .answer input next hat (by simpa using htimed) hstep
      · cases h
  | readLine =>
      simp only [step] at h
      split at h <;> rename_i hat
      · split at h <;> rename_i hpoint <;> cases h
        exact .readLine hat hpoint
      · cases h
  | receive =>
      simp only [step] at h
      split at h <;> rename_i hat
      · split at h <;> rename_i hinbox
        · split at h <;> rename_i hclosed <;> cases h
          exact .receiveEnd _ _ hat hinbox hclosed
        · cases h
          exact .receive _ _ hat hinbox
      · cases h
  | fail text =>
      simp only [step] at h
      split at h <;> rename_i hat
      · obtain ⟨next, hstep, rfl⟩ := Option.map_eq_some_iff.mp h
        exact .fail text _ _ next hat hstep
      · cases h
  | expire =>
      simp only [step] at h
      split at h <;> rename_i hat
      · split at h <;> rename_i hguard <;> cases h
        exact .expire _ _ hat hguard.1 hguard.2.1 hguard.2.2
      · cases h
  | finish =>
      simp only [step] at h
      split at h <;> rename_i hat
      · obtain ⟨next, hstep, rfl⟩ := Option.map_eq_some_iff.mp h
        exact .finishLine _ next hat hstep
      · obtain ⟨next, hstep, rfl⟩ := Option.map_eq_some_iff.mp h
        exact .finishTimeout _ next hat hstep
      · cases h
  | wake =>
      simp only [step] at h
      split at h <;> rename_i hat
      · split at h <;> rename_i hwaited
        · obtain ⟨next, hstep, rfl⟩ := Option.map_eq_some_iff.mp h
          exact .wake _ next hat hwaited hstep
        · cases h
      · cases h

/-- The bytes have a newline, and the line ends behind the first one, or all of them are taken. -/
theorem scan_cases (s : Clocked) (line chunk : List UInt8) :
    (∃ front rest, chunk = front ++ 10 :: rest ∧ 10 ∉ front ∧
      s.scan line chunk = { s with buffer := rest, phase := .readDone (line ++ front ++ [10]) }) ∨
    (10 ∉ chunk ∧
      s.scan line chunk = { s with buffer := [], phase := .reading (line ++ chunk) s.now }) := by
  have hchunk := List.takeWhile_append_dropWhile (p := (· ≠ (10 : UInt8))) (l := chunk)
  cases hdrop : chunk.dropWhile (· ≠ 10) with
  | cons newline rest =>
      obtain rfl := (BufReader.read_until_newline hdrop []).1
      rw [hdrop] at hchunk
      have hfront : 10 ∉ chunk.takeWhile (· ≠ 10) := fun hmem => by
        simpa using List.mem_takeWhile_imp hmem
      exact .inl ⟨_, rest, hchunk.symm, hfront, by rw [scan, hdrop]⟩
  | nil =>
      have hclean : 10 ∉ chunk := fun hmem => by
        have hall := List.dropWhile_eq_nil_iff.mp hdrop 10 hmem
        simp at hall
      rw [hdrop, List.append_nil] at hchunk
      exact .inr ⟨hclean, by rw [scan, hdrop, hchunk]⟩

/-! ## What `read_line` finds -/

open BufReader

/-- What a step takes from the socket. -/
def taken (s : Clocked) : ClockAction → List Arrival
  | .receive =>
      match s.inbox.take bufferCapacity with
      | first :: rest => [.bytes first rest]
      | [] => []
  | _ => []

/-- The step does not leave `read_line`. -/
def Inside (_ : Clocked) : ClockAction → Prop
  | .finish | .fail _ => False
  | _ => True

/-- How far `read_line` has come that found these bytes in the buffer and then these arrivals. -/
def Agrees (buffer : List UInt8) (arrivals : List Arrival) (s : Clocked) : Prop :=
  match s.phase with
  | .reading line _ => ∀ later, readUntil buffer (arrivals ++ later) =
      (line ++ (readUntil [] later).1, (readUntil [] later).2)
  | .readDone line =>
      (∀ later, readUntil buffer (arrivals ++ later) = (line, .delimiter, ⟨s.buffer, later⟩)) ∨
        readUntil buffer arrivals = (line, .endOfStream, ⟨[], []⟩)
  | .timedOut _ => ∃ line, ∀ secs later,
      readUntil buffer (arrivals ++ .timeout secs :: later) = (line, .timedOut secs, ⟨[], later⟩)
  | _ => False

variable {buffer : List UInt8} {arrivals : List Arrival}

/-- Scanned bytes are what `read_until` goes on with. -/
theorem agrees_scan {line chunk : List UInt8} (h : ∀ later, readUntil buffer (arrivals ++ later) =
    (line ++ (readUntil chunk later).1, (readUntil chunk later).2)) :
    (s.scan line chunk).Agrees buffer arrivals := by
  rcases scan_cases s line chunk with
    ⟨front, rest, rfl, hfront, hscan⟩ | ⟨hclean, hscan⟩ <;> rw [hscan]
  · refine .inl fun later => ?_
    rw [h, read_until_line front rest hfront, List.append_assoc]
  · intro later
    rw [h, read_until_clean hclean, List.append_assoc]

theorem agrees_step (h : s.Agrees buffer arrivals) (hinside : Inside s action)
    (hmove : Move s action t) :
    t.Agrees buffer (arrivals ++ s.taken action) := by
  have hnothing : ∀ {after : Clocked}, after.phase = s.phase → after.buffer = s.buffer →
      s.taken action = [] → after.Agrees buffer (arrivals ++ s.taken action) := by
    intro after hphase hbuffer htaken
    rw [htaken, List.append_nil]
    unfold Agrees at h ⊢
    rw [hphase, hbuffer]
    exact h
  cases hmove with
  | elapse | arrive | close => exact hnothing rfl rfl rfl
  | begin hat | answer _ _ hat | readLine hat | wake _ _ hat =>
      unfold Agrees at h
      simp only [hat] at h
  | receive line since hat hinbox =>
      unfold Agrees at h
      simp only [hat] at h
      cases htake : s.inbox.take bufferCapacity with
      | nil =>
          exact absurd htake (by simp [hinbox, bufferCapacity])
      | cons first rest =>
          rw [show s.taken .receive = [.bytes first rest] by rw [taken, htake]]
          refine agrees_scan fun later => ?_
          rw [List.append_assoc, h, List.singleton_append, read_until_more List.dropWhile_nil]
          rfl
  | receiveEnd line since hat hinbox hclosed =>
      unfold Agrees at h
      simp only [hat] at h
      rw [show s.taken .receive = [] by rw [taken, hinbox]; rfl, List.append_nil]
      have hend := h []
      rw [List.append_nil, read_until_more List.dropWhile_nil] at hend
      exact .inr (by simpa using hend)
  | fail | finishLine | finishTimeout => cases hinside
  | expire line since hat hinbox hopen hwaited =>
      unfold Agrees at h
      simp only [hat] at h
      rw [show s.taken .expire = [] from rfl, List.append_nil]
      refine ⟨line, fun secs later => ?_⟩
      rw [h, read_until_more List.dropWhile_nil]
      simp

/-- Where `read_line` ends, it has found what it finds in the buffer and the arrivals without a
clock: a line, the end of the stream or a timeout. -/
theorem read_line_agrees {reading : Clocked} (hcall : step s .readLine = some reading)
    (hrun : Transition.Traces step Inside taken reading arrivals t) :
    t.Agrees s.buffer arrivals := by
  have hknown : ∀ {state : Clocked}, Transition.Reaches step Inside reading state → True :=
    fun _ => trivial
  refine Transition.Traces.invariant_with (fun arrivals state => state.Agrees s.buffer arrivals)
    hrun hknown ?_ ?_
  · cases step_move hcall with
    | readLine hat hpoint => exact agrees_scan fun later => rfl
  · intro arrivals state next action _ h hinside hstep
    exact agrees_step h hinside (step_move hstep)

end Clocked

end QuoteStreamer
