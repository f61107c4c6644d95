import QuoteStreamer.TcpServer.KeepAlive

/-!
# Silent connections

With exact timeouts and sleeps and no other delay, lines that follow each other are read at most
the keep-alive time and one poll cycle apart, unless one of two things has let a longer silence
pass: the check compares whole seconds, and `read_line` goes on reading behind bytes that do not
end a line.
-/

namespace QuoteStreamer.Clocked

/-- The longest time between two lines that the keep-alive is meant to allow: the keep-alive time,
a read timeout and a sleep. -/
def lineGap : Nat := keepAliveMsec + 2 * Defs.tcpConnectionTickPeriodMsec

/-- How far time may go on before the next step of the handler is due, when nothing but a `read`
that waits and a sleep takes time. -/
def patience (s : Clocked) : Option Nat :=
  match s.handler.point, s.phase with
  | .returned _, _ => none
  | _, .reading _ since =>
      some (if s.inbox = [] ∧ s.closed = false then
        since + Defs.tcpConnectionTickPeriodMsec else s.now)
  | _, .sleeping since => some (since + Defs.tcpConnectionTickPeriodMsec)
  | _, _ => some s.now

/-- Timeouts and sleeps are exact, and nothing else takes time. -/
def Exact (s : Clocked) : ClockAction → Prop
  | .elapse ms => ∀ limit ∈ s.patience, s.now + ms ≤ limit
  | _ => True

/-- `read_line` has come back with a line, which the handler processes next. -/
def lineReady (s : Clocked) : Bool :=
  match s.phase with
  | .readDone line =>
      match LineResult.ofBytes line with
      | .ok (_ :: _) => true
      | _ => false
  | _ => false

/-- No line after the first is processed when, since the line before it, a check has let more than
the keep-alive time pass, or a `read` has gone on behind bytes without a newline more than a tick
period after the keep-alive time. Every other step is free, the disconnection of a silent peer
among them. -/
def NotLate (s : Clocked) : ClockAction → Prop
  | .finish => s.lineReady = true → s.lines ≠ [] → s.late = false
  | _ => True

instance (s : Clocked) (action : ClockAction) : Decidable (Exact s action) :=
  match action with
  | .elapse ms => inferInstanceAs (Decidable (∀ limit ∈ s.patience, s.now + ms ≤ limit))
  | .arrive .. | .close | .begin | .answer _ | .readLine | .receive | .fail _ | .expire | .finish
  | .wake => isTrue trivial

instance (s : Clocked) (action : ClockAction) : Decidable (NotLate s action) :=
  match action with
  | .finish => inferInstanceAs (Decidable (_ → _ → _))
  | .elapse _ | .arrive .. | .close | .begin | .answer _ | .readLine | .receive | .fail _ | .expire
  | .wake => isTrue trivial

/-- Where the clock stands at each phase, when nothing has been let pass. -/
def Timely (s : Clocked) : Prop :=
  match s.phase with
  | .accepted => False
  | .running => s.now ≤ s.handler.lastPing + keepAliveMsec + Defs.tcpConnectionTickPeriodMsec
  | .reading _ since =>
      since ≤ s.handler.lastPing + keepAliveMsec + Defs.tcpConnectionTickPeriodMsec ∧
        s.now ≤ since + Defs.tcpConnectionTickPeriodMsec
  | .readDone _ => s.now ≤ s.handler.lastPing + lineGap
  | .timedOut _ => True
  | .sleeping since =>
      since ≤ s.handler.lastPing + keepAliveMsec ∧ s.now ≤ since + Defs.tcpConnectionTickPeriodMsec

/-- The lines so far have come in time, and the next one will if nothing is let pass. -/
structure Punctual (s : Clocked) : Prop where
  chain : s.lines.IsChain fun newer older => newer ≤ older + lineGap
  last : ∀ moment ∈ s.lines.head?, s.handler.lastPing = moment
  fresh : s.phase = .accepted → s.lines = []
  timely : s.lines ≠ [] → s.late = false → s.handler.point.leaving = false → s.Timely

variable {s t : Clocked} {action : ClockAction}

/-- Steps that read no line keep the lines and the last one. -/
theorem Punctual.keep (h : s.Punctual) (hlines : t.lines = s.lines)
    (hping : t.handler.lastPing = s.handler.lastPing) (hfresh : t.phase ≠ .accepted)
    (htimely : t.lines ≠ [] → t.late = false → t.handler.point.leaving = false → t.Timely) :
    t.Punctual where
  chain := by rw [hlines]; exact h.chain
  last moment hmem := by rw [hping]; exact h.last moment (hlines ▸ hmem)
  fresh hat := absurd hat hfresh
  timely := htimely

/-- Scanned bytes end a line, or are read by now. -/
theorem timely_scan (line chunk : List UInt8)
    (hdone : s.now ≤ s.handler.lastPing + lineGap)
    (hmore : 10 ∉ chunk → s.now ≤ s.handler.lastPing + keepAliveMsec +
      Defs.tcpConnectionTickPeriodMsec) :
    (s.scan line chunk).Timely := by
  rcases scan_cases s line chunk with ⟨front, rest, -, -, hscan⟩ | ⟨hclean, hscan⟩ <;> rw [hscan]
  · exact hdone
  · exact ⟨hmore hclean, Nat.le_add_right _ _⟩

/-- A handler that is not leaving waits for nothing but a `read` and a sleep. -/
theorem patience_of_staying (hstays : s.handler.point.leaving = false) : s.patience =
    match s.phase with
    | .reading _ since =>
        some (if s.inbox = [] ∧ s.closed = false then
          since + Defs.tcpConnectionTickPeriodMsec else s.now)
    | .sleeping since => some (since + Defs.tcpConnectionTickPeriodMsec)
    | _ => some s.now := by
  unfold patience
  cases hpoint : s.handler.point with
  | returned result =>
      rw [hpoint] at hstays
      cases hstays
  | _ => cases s.phase <;> rfl

/-- Time that passes exactly leaves the clock within its bounds. -/
theorem timely_elapse (h : s.Timely) (hstays : s.handler.point.leaving = false) {ms : Nat}
    (hexact : Exact s (.elapse ms)) : ({ s with now := s.now + ms } : Clocked).Timely := by
  simp only [Exact, patience_of_staying hstays] at hexact
  unfold Timely at h ⊢
  dsimp only
  cases hat : s.phase with
  | accepted => simp only [hat] at h
  | timedOut moment => trivial
  | running | readDone line =>
      simp only [hat, Option.mem_def, Option.some.injEq, forall_eq'] at h hexact ⊢
      omega
  | reading line since =>
      simp only [hat, Option.mem_def, Option.some.injEq, forall_eq'] at h hexact ⊢
      split at hexact <;> omega
  | sleeping since =>
      simp only [hat, Option.mem_def, Option.some.injEq, forall_eq'] at h hexact ⊢
      omega

theorem punctual_step (h : s.Punctual) (hexact : Exact s action) (hlate : NotLate s action)
    (hmove : Move s action t) : t.Punctual := by
  cases hmove with
  | elapse ms =>
      exact ⟨h.chain, h.last, h.fresh, fun hlines hok hstays =>
        timely_elapse (h.timely hlines hok hstays) hstays hexact⟩
  | arrive first rest => exact ⟨h.chain, h.last, h.fresh, h.timely⟩
  | close => exact ⟨h.chain, h.last, h.fresh, h.timely⟩
  | begin hat =>
      have hnone := h.fresh hat
      exact ⟨h.chain, fun moment hmem => (by rw [hnone] at hmem; cases hmem), nofun,
        fun hlines => absurd hnone hlines⟩
  | answer input handler hat htimed hstep =>
      have hping := Handler.last_ping_step hstep htimed
      refine h.keep rfl hping (by rw [hat]; nofun) fun hlines hok hstays => ?_
      have htimely := h.timely hlines hok (Handler.staying_step hstep hstays)
      simp only [Timely, hat, hping] at htimely ⊢
      exact htimely
  | readLine hat hpoint =>
      obtain ⟨-, -, -, hhandler, hlines, hlate'⟩ := scan_frame s [] s.buffer
      refine h.keep hlines (by rw [hhandler]) (scan_phase s [] s.buffer).2.2 fun hsome hok _ => ?_
      have htimely := h.timely (hlines ▸ hsome) (hlate' ▸ hok) (by rw [hpoint]; rfl)
      simp only [Timely, hat] at htimely
      refine timely_scan [] s.buffer ?_ fun _ => htimely
      unfold lineGap
      omega
  | receive line since hat hinbox =>
      obtain ⟨-, -, -, hhandler, hlines, -⟩ :=
        scan_frame { s with inbox := s.inbox.drop bufferCapacity }
          line (s.inbox.take bufferCapacity)
      obtain ⟨-, -, hphase⟩ :=
        scan_phase { s with inbox := s.inbox.drop bufferCapacity }
          line (s.inbox.take bufferCapacity)
      refine h.keep hlines (by rw [hhandler]) hphase fun hsome hok hstays => ?_
      obtain ⟨hok, hgone⟩ := Bool.or_eq_false_iff.mp hok
      have htimely := h.timely (hlines ▸ hsome) hok (hhandler ▸ hstays)
      simp only [Timely, hat] at htimely
      refine timely_scan line (s.inbox.take bufferCapacity) ?_ fun hclean => ?_
      · show s.now ≤ s.handler.lastPing + lineGap
        unfold lineGap
        omega
      · have hnot := of_decide_eq_false hgone
        exact Nat.le_of_not_lt fun hlt => hnot ⟨hclean, hlt⟩
  | receiveEnd line since hat hinbox hclosed =>
      refine h.keep rfl rfl nofun fun hlines hok hstays => ?_
      have htimely := h.timely hlines hok hstays
      simp only [Timely, hat, lineGap] at htimely ⊢
      omega
  | fail text line since handler hat hstep =>
      obtain ⟨-, rfl⟩ := Handler.step_read_eq hstep
      refine h.keep rfl (Handler.last_ping_disconnect _ _) nofun fun _ _ hstays => ?_
      rw [Handler.failed_leaving] at hstays
      cases hstays
  | expire line since hat hinbox hopen hwaited =>
      exact h.keep rfl rfl nofun fun _ _ _ => trivial
  | finishLine line handler hat hstep =>
      obtain ⟨hpoint, rfl⟩ := Handler.step_read_eq hstep
      rcases Handler.received_line (h := s.handler) line s.now with
        ⟨c, rest, hline, hping⟩ | ⟨hline, hleaving, hping⟩
      · rw [line_read_ok hline]
        refine ⟨?_, fun moment hmem => ?_, nofun, fun _ _ _ => ?_⟩
        · -- the gap to the line before is what `Timely` bounds once a line has been read
          cases hlines : s.lines with
          | nil => exact .singleton _
          | cons older rest =>
              have hsome : s.lines ≠ [] := by rw [hlines]; nofun
              have hready : s.lineReady = true := by rw [lineReady, hat]; simp [hline]
              have htimely := h.timely hsome (hlate hready hsome) (by rw [hpoint]; rfl)
              simp only [Timely, hat] at htimely
              rw [h.last older (by rw [hlines]; rfl)] at htimely
              exact .cons_cons htimely (hlines ▸ h.chain)
        · cases hmem
          exact hping
        · show s.now ≤ _ + _ + _
          rw [hping]
          omega
      · rw [line_read_other hline]
        refine h.keep rfl hping nofun fun _ _ hstays => ?_
        rw [hleaving] at hstays
        cases hstays
  | finishTimeout moment handler hat hstep =>
      obtain ⟨hpoint, rfl⟩ := Handler.step_read_eq hstep
      rcases Handler.received_timed_out (h := s.handler) s.now with
        ⟨hsleep, -⟩ | ⟨hleaving, hping, -⟩
      · rw [hsleep, checked_sleep rfl]
        refine h.keep rfl rfl nofun fun _ hok _ => ?_
        have hintime := of_decide_eq_false (Bool.or_eq_false_iff.mp hok).2
        exact ⟨Nat.le_of_not_lt hintime, Nat.le_add_right _ _⟩
      · rw [checked_leave hleaving]
        refine h.keep rfl hping nofun fun _ _ hstays => ?_
        rw [hleaving] at hstays
        cases hstays
  | wake since handler hat hwaited hstep =>
      obtain ⟨hpoint, rfl⟩ := Handler.step_slept_eq hstep
      refine h.keep rfl rfl nofun fun hlines hok _ => ?_
      have htimely := h.timely hlines hok (by rw [hpoint]; rfl)
      simp only [Timely, hat] at htimely ⊢
      show s.now ≤ s.handler.lastPing + _ + _
      omega

theorem punctual_init : init.Punctual :=
  ⟨.nil, nofun, fun _ => rfl, fun hlines => absurd rfl hlines⟩

/-- With exact timeouts and sleeps and no other delay, lines that the handler processes one after
the other are read at most the keep-alive time and one poll cycle apart, in every run in which no
line is processed after the handler has let a longer silence pass. -/
theorem silence_is_detected {s : Clocked}
    (hs : Transition.Reaches step (fun s action => Exact s action ∧ NotLate s action) init s) :
    s.lines.IsChain fun newer older => newer ≤ older + lineGap :=
  have hpunctual : s.Punctual := hs.invariant Punctual punctual_init
    fun h hok hstep => punctual_step h hok.1 hok.2 (step_move hstep)
  hpunctual.chain

/-- The peer sends `PING`, and the handler reads it and answers. -/
def ping : List ClockAction :=
  [.arrive 80 [73, 78, 71, 10], .readLine, .receive, .finish, .answer (.wrote (.ok ()))]

set_option maxRecDepth 2000 in
/-- The peer sends a second line after 4.8 seconds and nothing more: the keep-alive check 6.2
seconds after that line ends the connection. -/
theorem silence_is_detected_pings : ∃ s, Transition.Reaches step
      (fun s action => Exact s action ∧ NotLate s action) init s ∧ s.lines = [4800, 0] ∧
    s.handler.point = .returned (.ok ()) ∧ s.now = 4800 + 6200 ∧
    s.lines.IsChain fun newer older => newer ≤ older + lineGap := by
  obtain ⟨s, hrun, hlines, hpoint, hnow⟩ : ∃ s, Transition.run
      (Transition.restrict step fun s action => Exact s action ∧ NotLate s action) init
        (connecting ++ ping ++ polls 12 ++ ping ++ polls 15 ++
          [.readLine, .elapse 200, .expire, .finish]) = some s ∧
      s.lines = [4800, 0] ∧ s.handler.point = .returned (.ok ()) ∧ s.now = 4800 + 6200 :=
    ⟨_, rfl, rfl, rfl, rfl⟩
  have hs := Transition.reaches_of_restricted_run hrun
  exact ⟨s, hs, hlines, hpoint, hnow, silence_is_detected hs⟩

set_option maxRecDepth 2000 in
/-- The peer is silent for 5.9 seconds and then sends a line, which is processed: the check at 5.8
seconds has found five whole seconds, which is not more than five. -/
theorem whole_seconds_pass : ∃ s, Transition.Reaches step Exact init s ∧ s.lines = [6000, 0] ∧
    ¬ s.lines.IsChain fun newer older => newer ≤ older + lineGap := by
  obtain ⟨s, hrun, hlines⟩ : ∃ s, Transition.run (Transition.restrict step Exact) init
      (connecting ++ ping ++ polls 14 ++ [.readLine, .elapse 200, .expire, .finish, .elapse 100,
        .arrive 80 [73, 78, 71, 10], .elapse 100, .wake, .readLine, .receive, .finish]) = some s ∧
      s.lines = [6000, 0] :=
    ⟨_, rfl, rfl⟩
  refine ⟨s, Transition.reaches_of_restricted_run hrun, hlines, ?_⟩
  rw [hlines]
  decide

end QuoteStreamer.Clocked
