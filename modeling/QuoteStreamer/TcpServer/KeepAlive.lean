import QuoteStreamer.TcpServer.Clock

/-!
# Keep-alive in time

The handler looks at the time only behind a `read` that has timed out, when nothing is left to be
read. So a peer whose newlines come in time is let go on as long as the check itself is not put
off, and a silent one is found out, but not before a whole second more has passed, and not at all
while bytes without a newline keep coming.
-/

namespace QuoteStreamer

/-- The handler is on its way out. -/
def HandlerPoint.leaving : HandlerPoint → Bool
  | .returned _ | .removeClient _ .keepAlive | .removeClient _ (.readError _) => true
  | _ => false

namespace Handler

variable {h next : Handler}

theorem last_ping_handle_stream (msg : Str) : (h.handleStream msg).lastPing = h.lastPing := by
  unfold handleStream
  split
  · split <;> rfl
  · rfl

theorem last_ping_handle_stop : h.handleStop.lastPing = h.lastPing := by
  unfold handleStop
  split <;> rfl

theorem last_ping_dispatch (msg : Str) : (h.dispatch msg).lastPing = h.lastPing := by
  unfold dispatch
  split
  · rfl
  · split
    · exact last_ping_handle_stream msg
    · split
      · exact last_ping_handle_stop
      · rfl

/-- A line that has been read is a sign of life. -/
theorem last_ping_received {line : Str} (hline : line ≠ []) (now : Nat) :
    (h.received (.ok line) now).lastPing = now := by
  cases line with
  | nil => exact absurd rfl hline
  | cons c line =>
      show (if Text.trim (c :: line) = [] then
        ({ h with lastPing := now, point := .readLine } : Handler)
        else ({ h with lastPing := now, point := .readLine } : Handler).dispatch
          (Text.trim (c :: line))).lastPing = now
      split
      · rfl
      · exact last_ping_dispatch _

theorem last_ping_disconnect (cause : RemoveCause) (result : Except TcpServerError Unit) :
    (h.disconnect cause result).lastPing = h.lastPing := by
  unfold disconnect
  split <;> rfl

theorem disconnect_leaving {cause : RemoveCause} (hcause : cause ≠ .stop)
    (result : Except TcpServerError Unit) : (h.disconnect cause result).point.leaving = true := by
  unfold disconnect
  split
  · cases cause with
    | stop => exact absurd rfl hcause
    | keepAlive | readError text => rfl
  · rfl

/-- Only reading sets `last_ping`. -/
theorem last_ping_step {input : HandlerInput} (hstep : h.step input = some next)
    (htimed : input.isTimed = false) : next.lastPing = h.lastPing := by
  unfold step at hstep
  split at hstep <;> cases hstep
  case h_5 | h_13 => cases htimed
  case h_12 =>
    unfold removed
    split <;> rfl
  all_goals rfl

/-- Nothing keeps the handler from leaving. -/
theorem leaving_step {input : HandlerInput} (hstep : h.step input = some next)
    (hleaving : h.point.leaving = true) : next.point.leaving = true := by
  unfold step at hstep
  split at hstep <;> rename_i hat <;> cases hstep <;> rw [hat] at hleaving
  case h_12 id cause result =>
    cases cause with
    | stop => cases hleaving
    | keepAlive | readError text => cases result <;> rfl
  all_goals cases hleaving

/-- A handler that is not on its way out was not so before. -/
theorem staying_step {input : HandlerInput} (hstep : h.step input = some next)
    (hstays : next.point.leaving = false) : h.point.leaving = false := by
  by_contra hleaving
  rw [leaving_step hstep (by simpa using hleaving)] at hstays
  cases hstays

/-- The handler leaves when a read fails. -/
theorem failed_leaving (text : Str) (now : Nat) :
    (h.received (.failed text) now).point.leaving = true :=
  disconnect_leaving (by simp) _

/-- A read comes to an end at `read_line` only. -/
theorem step_read_eq {result : ReadResult} {now : Nat}
    (hstep : h.step (.read result now) = some next) :
    h.point = .readLine ∧ next = h.received result now := by
  unfold step at hstep
  cases hpoint : h.point with
  | readLine =>
      rw [hpoint] at hstep
      exact ⟨rfl, (Option.some.inj hstep).symm⟩
  | _ =>
      rw [hpoint] at hstep
      cases hstep

theorem step_slept_eq (hstep : h.step .slept = some next) :
    h.point = .sleep ∧ next = h.goto .readLine := by
  unfold step at hstep
  cases hpoint : h.point with
  | sleep =>
      rw [hpoint] at hstep
      exact ⟨rfl, (Option.some.inj hstep).symm⟩
  | _ =>
      rw [hpoint] at hstep
      cases hstep

/-- Outside the keep-alive time the handler leaves, within it it sleeps. -/
theorem received_timed_out (now : Nat) :
    (h.received .timedOut now = h.goto .sleep ∧
      (now - h.lastPing) / 1000 ≤ Defs.clientKeepAliveSec) ∨
      ((h.received .timedOut now).point.leaving = true ∧
        (h.received .timedOut now).lastPing = h.lastPing ∧
        Defs.clientKeepAliveSec < (now - h.lastPing) / 1000) := by
  by_cases hlate : Defs.clientKeepAliveSec < (now - h.lastPing) / 1000
  · have hleave : h.received .timedOut now = h.disconnect .keepAlive (.ok ()) := if_pos hlate
    rw [hleave]
    exact .inr ⟨disconnect_leaving (by simp) _, last_ping_disconnect _ _, hlate⟩
  · exact .inl ⟨if_neg hlate, by omega⟩

/-- What `read_line` has found: a line, which is a sign of life, or a reason to leave. -/
theorem received_line (line : List UInt8) (now : Nat) :
    (∃ c rest, LineResult.ofBytes line = .ok (c :: rest) ∧
      (h.received (LineResult.ofBytes line).read now).lastPing = now) ∨
    ((∀ c rest, LineResult.ofBytes line ≠ .ok (c :: rest)) ∧
      (h.received (LineResult.ofBytes line).read now).point.leaving = true ∧
      (h.received (LineResult.ofBytes line).read now).lastPing = h.lastPing) := by
  cases hline : LineResult.ofBytes line with
  | ok text =>
      cases text with
      | nil => exact .inr ⟨by simp, rfl, rfl⟩
      | cons c rest => exact .inl ⟨c, rest, rfl, last_ping_received (List.cons_ne_nil c rest) now⟩
  | timedOut secs =>
      unfold LineResult.ofBytes at hline
      split at hline <;> cases hline
  | failed =>
      exact .inr ⟨by simp, failed_leaving _ now, last_ping_disconnect _ _⟩

end Handler

namespace Clocked

/-- What more than the keep-alive time in whole seconds is in milliseconds. -/
theorem late_msec {ms : Nat} (hlate : Defs.clientKeepAliveSec < ms / 1000) :
    keepAliveMsec + 1000 ≤ ms := by
  have hthousand : 0 < 1000 := by decide
  have hms := (Nat.le_div_iff_mul_le hthousand).mp (Nat.succ_le_of_lt hlate)
  rwa [Nat.succ_mul] at hms

section Finish

variable {s : Clocked} {h : Handler} {line : List UInt8}

theorem line_read_ok {c : Char} {rest : Str} (hline : LineResult.ofBytes line = .ok (c :: rest)) :
    s.lineRead h line =
      { s with handler := h, phase := .running, lines := s.now :: s.lines, late := false } := by
  rw [lineRead, hline]

theorem line_read_other (hline : ∀ c rest, LineResult.ofBytes line ≠ .ok (c :: rest)) :
    s.lineRead h line = { s with handler := h, phase := .running } := by
  unfold lineRead
  split
  · next c rest heq => exact absurd heq (hline c rest)
  · rfl

theorem checked_sleep (hpoint : h.point = .sleep) : s.checked h =
    { s with
      handler := h
      phase := .sleeping s.now
      late := s.late || decide (s.handler.lastPing + keepAliveMsec < s.now) } :=
  if_pos hpoint

theorem checked_leave (hleaving : h.point.leaving = true) :
    s.checked h = { s with handler := h, phase := .running } :=
  if_neg fun hpoint => by rw [hpoint] at hleaving; cases hleaving

end Finish

/-! ## Active connections -/

/-- As long as the peer has not closed its side, a newline arrives within the keep-alive time
after the one before, or after the connection was accepted. -/
def Active (s : Clocked) : ClockAction → Prop
  | .elapse ms => s.closed = false → s.now + ms ≤ s.lastNewline + keepAliveMsec
  | _ => True

/-- When the check behind a read that timed out has to be made, a second after the timeout. -/
def checkLimit (s : Clocked) : Option Nat :=
  match s.phase with
  | .timedOut moment => some (moment + 1000)
  | _ => none

/-- The keep-alive check is made less than a second after the `read` has timed out. -/
def ChecksSoon (s : Clocked) : ClockAction → Prop
  | .elapse ms => ∀ limit ∈ s.checkLimit, s.now + ms < limit
  | _ => True

instance (s : Clocked) (action : ClockAction) : Decidable (Active s action) :=
  match action with
  | .elapse _ => inferInstanceAs (Decidable (_ → _))
  | .arrive .. | .close | .begin | .answer _ | .readLine | .receive | .fail _ | .expire | .finish
  | .wake => isTrue trivial

instance (s : Clocked) (action : ClockAction) : Decidable (ChecksSoon s action) :=
  match action with
  | .elapse ms => inferInstanceAs (Decidable (∀ limit ∈ s.checkLimit, s.now + ms < limit))
  | .arrive .. | .close | .begin | .answer _ | .readLine | .receive | .fail _ | .expire | .finish
  | .wake => isTrue trivial

/-- The last newline has been read, or waits to be. -/
def Heard (s : Clocked) : Prop :=
  s.lastNewline ≤ s.handler.lastPing ∨ 10 ∈ s.inbox ∨ 10 ∈ s.buffer ∨
    ∃ line, s.phase = .readDone line ∧ 10 ∈ line

/-- What keeps the connection from being timed out. -/
structure Attended (s : Clocked) : Prop where
  past : s.lastNewline ≤ s.now
  active : s.closed = false → s.now ≤ s.lastNewline + keepAliveMsec
  heard : s.phase ≠ .accepted → s.handler.point.leaving = false → s.Heard
  reading : ∀ line since, s.phase = .reading line since → s.buffer = [] ∧
    s.handler.point = .readLine
  checking : ∀ moment, s.phase = .timedOut moment →
    moment ≤ s.handler.lastPing + keepAliveMsec ∧ s.now < moment + 1000

variable {s t : Clocked} {action : ClockAction}

/-- The last newline stays heard while nothing is taken from the socket or the buffer. -/
theorem Heard.keep (h : s.Heard) (hnewline : t.lastNewline = s.lastNewline)
    (hping : s.handler.lastPing ≤ t.handler.lastPing) (hinbox : ∀ b ∈ s.inbox, b ∈ t.inbox)
    (hbuffer : t.buffer = s.buffer)
    (hphase : ∀ line, s.phase = .readDone line → 10 ∈ line → t.phase = s.phase) :
    t.Heard := by
  rcases h with hread | hmem | hmem | ⟨line, hat, hmem⟩
  · exact .inl (hnewline ▸ hread.trans hping)
  · exact .inr (.inl (hinbox 10 hmem))
  · exact .inr (.inr (.inl (hbuffer ▸ hmem)))
  · exact .inr (.inr (.inr ⟨line, (hphase line hat hmem).trans hat, hmem⟩))

/-- A scanned newline is heard, and the rest waits as before. -/
theorem heard_scan (line chunk : List UInt8)
    (h : s.lastNewline ≤ s.handler.lastPing ∨ 10 ∈ s.inbox ∨ 10 ∈ chunk) :
    (s.scan line chunk).Heard := by
  rcases scan_cases s line chunk with ⟨front, rest, rfl, -, hscan⟩ | ⟨hclean, hscan⟩
  · rw [hscan]
    exact .inr (.inr (.inr ⟨_, rfl, by simp⟩))
  · rw [hscan]
    rcases h with hread | hmem | hmem
    · exact .inl hread
    · exact .inr (.inl hmem)
    · exact absurd hmem hclean

/-- During a `read` the last newline has been read, or is about to be received. -/
theorem Attended.unread (h : s.Attended) {line : List UInt8} {since : Nat}
    (hat : s.phase = .reading line since) : s.lastNewline ≤ s.handler.lastPing ∨ 10 ∈ s.inbox := by
  obtain ⟨hempty, hpoint⟩ := h.reading line since hat
  rcases h.heard (by rw [hat]; nofun) (by rw [hpoint]; rfl) with
    hread | hmem | hmem | ⟨_, hphase, -⟩
  · exact .inl hread
  · exact .inr hmem
  · rw [hempty] at hmem
    cases hmem
  · rw [hat] at hphase
    cases hphase

/-- Once the handler has begun, or goes on, outside a read. -/
theorem Attended.go_on (h : s.Attended) (hnow : t.now = s.now) (hclosed : t.closed = s.closed)
    (hnewline : t.lastNewline = s.lastNewline) (hheard : t.handler.point.leaving = false → t.Heard)
    (hreading : ∀ line since, t.phase = .reading line since →
      t.buffer = [] ∧ t.handler.point = .readLine)
    (hchecking : ∀ moment, t.phase ≠ .timedOut moment) : t.Attended where
  past := by rw [hnewline, hnow]; exact h.past
  active hopen := by rw [hnewline, hnow]; exact h.active (hclosed ▸ hopen)
  heard _ := hheard
  reading := hreading
  checking moment hat := absurd hat (hchecking moment)

/-- What scanning makes of the state. -/
theorem scan_frame (s : Clocked) (line chunk : List UInt8) : (s.scan line chunk).now = s.now ∧
    (s.scan line chunk).closed = s.closed ∧ (s.scan line chunk).lastNewline = s.lastNewline ∧
    (s.scan line chunk).handler = s.handler ∧ (s.scan line chunk).lines = s.lines ∧
    (s.scan line chunk).late = s.late := by
  rcases scan_cases s line chunk with ⟨front, rest, -, -, hscan⟩ | ⟨-, hscan⟩ <;> rw [hscan] <;>
    exact ⟨rfl, rfl, rfl, rfl, rfl, rfl⟩

/-- Scanning ends with an empty buffer or a whole line. -/
theorem scan_phase (s : Clocked) (line chunk : List UInt8) :
    (∀ line' since, (s.scan line chunk).phase = .reading line' since →
      (s.scan line chunk).buffer = []) ∧
      (∀ moment, (s.scan line chunk).phase ≠ .timedOut moment) ∧
      (s.scan line chunk).phase ≠ .accepted := by
  rcases scan_cases s line chunk with ⟨front, rest, -, -, hscan⟩ | ⟨-, hscan⟩ <;> rw [hscan]
  · exact ⟨nofun, nofun, nofun⟩
  · exact ⟨fun _ _ _ => rfl, nofun, nofun⟩

theorem attended_step (h : s.Attended) (hactive : Active s action) (hsoon : ChecksSoon s action)
    (hmove : Move s action t) : t.Attended := by
  cases hmove with
  | elapse ms =>
      -- only here time passes, so only here the two assumptions are needed
      have hpast := h.past
      exact ⟨by dsimp only; omega, hactive, h.heard, h.reading,
        fun moment hat => ⟨(h.checking moment hat).1,
          hsoon (moment + 1000) (by rw [checkLimit, hat]; rfl)⟩⟩
  | arrive first rest =>
      refine ⟨?_, fun hopen => ?_, fun hbegun hstays => ?_, h.reading, h.checking⟩
      · dsimp only
        split
        · exact Nat.le_refl _
        · exact h.past
      · have hnow := h.active hopen
        dsimp only
        split <;> omega
      · by_cases hmem : 10 ∈ first :: rest
        · exact .inr (.inl (List.mem_append_right _ hmem))
        · exact (h.heard hbegun hstays).keep (if_neg hmem) (Nat.le_refl _)
            (fun _ hb => List.mem_append_left _ hb) rfl (fun _ _ _ => rfl)
  | close => exact ⟨h.past, nofun, h.heard, h.reading, h.checking⟩
  | begin hat => exact h.go_on rfl rfl rfl (fun _ => .inl h.past) nofun nofun
  | answer input handler hat htimed hstep =>
      refine h.go_on rfl rfl rfl (fun hstays => ?_) (fun line since hreading => ?_)
        (fun moment hchecking => ?_)
      · have hheard := h.heard (by rw [hat]; nofun) (Handler.staying_step hstep hstays)
        exact hheard.keep rfl (Handler.last_ping_step hstep htimed).ge (fun _ => id) rfl
          (fun _ _ _ => rfl)
      · rw [hat] at hreading
        cases hreading
      · rw [hat] at hchecking
        cases hchecking
  | readLine hat hpoint =>
      obtain ⟨hnow, hclosed, hnewline, hhandler, -⟩ := scan_frame s [] s.buffer
      have hheard : s.Heard := h.heard (by rw [hat]; nofun) (by rw [hpoint]; rfl)
      obtain ⟨hbuffer, hchecking, -⟩ := scan_phase s [] s.buffer
      refine h.go_on hnow hclosed hnewline (fun _ => heard_scan [] s.buffer ?_)
        (fun line since hreading => ⟨hbuffer line since hreading, by rw [hhandler, hpoint]⟩)
        hchecking
      rcases hheard with hread | hmem | hmem | ⟨line, hphase, -⟩
      · exact .inl hread
      · exact .inr (.inl hmem)
      · exact .inr (.inr hmem)
      · rw [hat] at hphase
        cases hphase
  | receive line since hat hinbox =>
      obtain ⟨hempty, hpoint⟩ := h.reading line since hat
      have hheard := h.unread hat
      obtain ⟨hnow, hclosed, hnewline, hhandler, -⟩ :=
        scan_frame { s with inbox := s.inbox.drop bufferCapacity }
          line (s.inbox.take bufferCapacity)
      obtain ⟨hbuffer, hchecking, -⟩ :=
        scan_phase { s with inbox := s.inbox.drop bufferCapacity }
          line (s.inbox.take bufferCapacity)
      refine h.go_on hnow hclosed hnewline (fun _ => ?_)
        (fun line since hreading => ⟨hbuffer line since hreading, by rw [hhandler, hpoint]⟩)
        hchecking
      -- the newline is in what is taken out of the inbox, or in what stays behind
      refine heard_scan _ _ (hheard.imp_right fun hmem => ?_)
      rw [← List.take_append_drop bufferCapacity s.inbox] at hmem
      exact (List.mem_append.mp hmem).symm
  | receiveEnd line since hat hinbox hclosed =>
      have hread : s.lastNewline ≤ s.handler.lastPing :=
        (h.unread hat).resolve_right (by rw [hinbox]; exact List.not_mem_nil)
      exact h.go_on rfl rfl rfl (fun _ => .inl hread) nofun nofun
  | fail text line since handler hat hstep =>
      obtain ⟨-, rfl⟩ := Handler.step_read_eq hstep
      refine h.go_on rfl rfl rfl (fun hstays => ?_) nofun nofun
      rw [Handler.failed_leaving] at hstays
      cases hstays
  | expire line since hat hinbox hopen hwaited =>
      have hread : s.lastNewline ≤ s.handler.lastPing :=
        (h.unread hat).resolve_right (by rw [hinbox]; exact List.not_mem_nil)
      have hactive := h.active hopen
      refine ⟨h.past, fun _ => hactive, fun _ _ => .inl hread, nofun, fun moment hchecking => ?_⟩
      cases hchecking
      dsimp only
      omega
  | finishLine line handler hat hstep =>
      obtain ⟨-, rfl⟩ := Handler.step_read_eq hstep
      rcases Handler.received_line (h := s.handler) line s.now with
        ⟨c, rest, hline, hping⟩ | ⟨hline, hleaving, -⟩
      · rw [line_read_ok hline]
        exact h.go_on rfl rfl rfl (fun _ => .inl (hping.symm ▸ h.past)) nofun nofun
      · rw [line_read_other hline]
        refine h.go_on rfl rfl rfl (fun hstays => ?_) nofun nofun
        rw [hleaving] at hstays
        cases hstays
  | finishTimeout moment handler hat hstep =>
      obtain ⟨hpoint, rfl⟩ := Handler.step_read_eq hstep
      have hheard : s.Heard := h.heard (by rw [hat]; nofun) (by rw [hpoint]; rfl)
      rcases Handler.received_timed_out (h := s.handler) s.now with ⟨hsleep, -⟩ | ⟨hleaving, -⟩
      · rw [hsleep, checked_sleep rfl]
        refine h.go_on rfl rfl rfl (fun _ =>
          hheard.keep rfl (Nat.le_refl _) (fun _ => id) rfl ?_) nofun nofun
        intro line hdone
        rw [hat] at hdone
        cases hdone
      · rw [checked_leave hleaving]
        refine h.go_on rfl rfl rfl (fun hstays => ?_) nofun nofun
        rw [hleaving] at hstays
        cases hstays
  | wake since handler hat hwaited hstep =>
      obtain ⟨hpoint, rfl⟩ := Handler.step_slept_eq hstep
      have hheard : s.Heard := h.heard (by rw [hat]; nofun) (by rw [hpoint]; rfl)
      refine h.go_on rfl rfl rfl (fun _ =>
        hheard.keep rfl (Nat.le_refl _) (fun _ => id) rfl ?_) nofun nofun
      intro line hdone
      rw [hat] at hdone
      cases hdone

theorem attended_init : init.Attended where
  past := Nat.le_refl _
  active _ := Nat.zero_le _
  heard hbegun := absurd rfl hbegun
  reading := nofun
  checking := nofun

/-- When a newline arrives within the keep-alive time after the one before, however the bytes
between them are cut up and whatever the delays, the handler goes on to sleep behind every read
that times out, as long as it gets to the check less than a second after the timeout. -/
theorem active_connection_stays {s : Clocked}
    (hs : Transition.Reaches step (fun s action => Active s action ∧ ChecksSoon s action) init s)
    {moment : Nat} (hat : s.phase = .timedOut moment) :
    s.handler.received .timedOut s.now = s.handler.goto .sleep := by
  have hattended : s.Attended := hs.invariant Attended attended_init
    fun h hok hstep => attended_step h hok.1 hok.2 (step_move hstep)
  obtain ⟨hping, hsoon⟩ := hattended.checking moment hat
  rcases Handler.received_timed_out (h := s.handler) s.now with ⟨hsleep, -⟩ | ⟨-, -, hlate⟩
  · exact hsleep
  · have hpassed : keepAliveMsec + 1000 ≤ s.now - s.handler.lastPing := late_msec hlate
    omega

/-- The handler gets ready to read. -/
def connecting : List ClockAction :=
  [.begin, .answer (.cloned (.ok ())), .answer (.timeoutSet (.ok ()))]

/-- A read times out at once after the tick period, and the handler sleeps as long. -/
def polls (count : Nat) : List ClockAction :=
  (List.replicate count [.readLine, .elapse 200, .expire, .finish, .elapse 200, .wake]).flatten

theorem active_connection_stays_polling : ∃ s, Transition.Reaches step
      (fun s action => Active s action ∧ ChecksSoon s action) init s ∧ s.phase = .timedOut 5000 ∧
    s.handler.received .timedOut s.now = s.handler.goto .sleep := by
  obtain ⟨s, hrun, hat⟩ : ∃ s, Transition.run
      (Transition.restrict step fun s action => Active s action ∧ ChecksSoon s action) init
        (connecting ++ polls 12 ++ [.readLine, .elapse 200, .expire]) = some s ∧
          s.phase = .timedOut 5000 :=
    ⟨_, rfl, rfl⟩
  have hs := Transition.reaches_of_restricted_run hrun
  exact ⟨s, hs, hat, active_connection_stays hs hat⟩

/-- A newline arrives five seconds after the connection was accepted, and the handler, which is
kept from its check for a second, leaves. -/
theorem delayed_check_leaves : ∃ s t, Transition.Reaches step Active init s ∧
    s.phase = .timedOut 5000 ∧
    s.lastNewline = 5000 ∧ step s .finish = some t ∧ t.handler.point = .returned (.ok ()) := by
  obtain ⟨s, hrun, hat, hnewline, t, hstep, hreturned⟩ : ∃ s,
      Transition.run (Transition.restrict step Active) init (connecting ++ polls 12 ++
        [.readLine, .elapse 200, .expire, .arrive 10 [], .elapse 1000]) = some s ∧
      s.phase = .timedOut 5000 ∧ s.lastNewline = 5000 ∧
      ∃ t, step s .finish = some t ∧ t.handler.point = .returned (.ok ()) :=
    ⟨_, rfl, rfl, rfl, _, rfl, rfl⟩
  exact ⟨s, t, Transition.reaches_of_restricted_run hrun, hat, hnewline, hstep, hreturned⟩

end Clocked

end QuoteStreamer
