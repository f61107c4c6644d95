import QuoteStreamer.Lib.Locks
import QuoteStreamer.QuoteClient.Exchange
import QuoteStreamer.QuoteClient.State

/-!
# Requests and answers

Whoever holds the mutex of the stream has the connection for itself, from the first lock to the last
unlock. So there is one invariant, about the point of the holder: before the request the connection
is quiet, during the request nothing else is on it, and after an error both halves are replaced
before anybody reads again. `replies_are_paired` follows, and since both threads take the two
mutexes in one order, neither waits in a cycle.
-/

namespace QuoteStreamer.QuoteClient

/-- The stream and the reader are the two halves of one connection. -/
def Joined (s : QuoteClient) : Prop :=
  s.reader = s.stream ∧ s.stream < s.opened ∧ (s.connections s.stream).closed = false

/-- `reconnect` has opened the connection, and nobody has used it yet. -/
def Spare (s : QuoteClient) (number : Nat) : Prop :=
  number ≠ s.reader ∧ number < s.opened ∧ (s.connections number).closed = false ∧
    (s.connections number).Quiet

/-- The request is the last one begun, and this much of it is still to be written. -/
def Current (s : QuoteClient) (request : Nat) (todo : List UInt8) : Prop :=
  s.Joined ∧ (s.connections s.stream).Exchange ⟨request, s.stream⟩ todo ∧
    s.requests = request + 1 ∧ ∀ a ∈ s.answers, a.request < request

/-- What holds while the holder of the stream stands at the point. -/
def Fits (s : QuoteClient) : Point → Prop
  | .write request todo => s.Current request todo.flatten
  | .read request => s.Current request []
  | .reconnect => s.Joined
  | .assignStream number => s.Joined ∧ s.Spare number
  | .assignReader number => s.stream = number ∧ s.Spare number
  | _ => s.Joined ∧ (s.connections s.stream).Quiet

/-- The point of the holder of the stream. -/
def phase (s : QuoteClient) : Point :=
  match s.streamLock with
  | some t => s.points t
  | none => .idle

/-- What a thread is about to write is one line. -/
def Point.Command : Point → Prop
  | .lockStream writes | .lockReader writes => OneLine writes.flatten
  | _ => True

/-- The server has written the line while it handled this request. -/
def Answer.Paired (a : Answer) : Prop :=
  a.line ≠ [] ∧ ∀ b ∈ a.line, Handles ⟨a.request, a.connection⟩ b.handling

/-- The answers belong to their requests, and no two of them to the same. -/
def Recorded (s : QuoteClient) : Prop :=
  (∀ a ∈ s.answers, a.Paired ∧ a.request < s.requests) ∧
    s.answers.Pairwise fun later earlier => earlier.request < later.request

/-- The invariant of the client. -/
structure Paired (s : QuoteClient) : Prop where
  streamHeld : Locks.HeldAt s.streamLock s.points Point.holdsStream
  readerHeld : Locks.HeldAt s.readerLock s.points Point.holdsReader
  commands : ∀ t, (s.points t).Command
  plain : ∀ number, (s.connections number).handler.Plain
  fits : s.Fits s.phase
  recorded : s.Recorded

variable {s next : QuoteClient} {t : Thread} {point : Point}

/-! ## Moving one thread -/

theorem phase_eq (h : s.Paired) (hholds : (s.points t).holdsStream = true) :
    s.phase = s.points t := by
  rw [phase, (h.streamHeld t).mpr hholds]

/-- Who does not hold the stream does not hold the reader. -/
theorem holds_reader_false (h : point.holdsStream = false) : point.holdsReader = false := by
  cases point <;> first | rfl | cases h

theorem commands_update (h : ∀ t, (s.points t).Command) (point : Point) (hcommand : point.Command)
    (t u : Thread) : (Function.update s.points t point u).Command :=
  (Function.forall_update_iff s.points fun _ => Point.Command).mpr ⟨hcommand, fun u _ => h u⟩ u

/-- A thread moves on without the mutexes. -/
theorem Paired.outside (h : s.Paired) (hfrom : (s.points t).holdsStream = false)
    (hto : point.holdsStream = false) (hcommand : point.Command) : (s.goto t point).Paired where
  streamHeld := h.streamHeld.keep (hto.trans hfrom.symm)
  readerHeld := h.readerHeld.keep
    ((holds_reader_false hto).trans (holds_reader_false hfrom).symm)
  commands := commands_update h.commands point hcommand t
  plain := h.plain
  fits := by
    have hphase : (s.goto t point).phase = s.phase := by
      unfold phase goto
      cases hlock : s.streamLock with
      | none => rfl
      | some u =>
          have hne : u ≠ t := by
            rintro rfl
            simp [(h.streamHeld u).mp hlock] at hfrom
          exact Function.update_of_ne hne _ _
    rw [hphase]
    exact h.fits
  recorded := h.recorded

/-- The holder of the stream moves on. -/
theorem Paired.inside (h : s.Paired) (point : Point) (hfrom : (s.points t).holdsStream = true)
    (hto : point.holdsStream = true) (hcommand : point.Command)
    (hlock : next.streamLock = s.streamLock)
    (hpoints : next.points = Function.update s.points t point)
    (hreader : Locks.HeldAt next.readerLock next.points Point.holdsReader)
    (hplain : ∀ number, (next.connections number).handler.Plain) (hfits : next.Fits point)
    (hrecorded : next.Recorded) : next.Paired where
  streamHeld := by
    rw [hlock, hpoints]
    exact h.streamHeld.keep (hto.trans hfrom.symm)
  readerHeld := hreader
  commands := by
    rw [hpoints]
    exact commands_update h.commands point hcommand t
  plain := hplain
  fits := by
    have hphase : next.phase = point := by
      rw [phase, hlock, (h.streamHeld t).mpr hfrom, hpoints]
      exact Function.update_self ..
    rw [hphase]
    exact hfits
  recorded := hrecorded

/-! ## The steps of the holder -/

/-- A connection changes at its ends only. -/
theorem plain_set {number : Nat} {c : Connection}
    (h : ∀ number, (s.connections number).handler.Plain) (hc : c.handler.Plain) (other : Nat) :
    ((s.setConnection number c).connections other).handler.Plain := by
  by_cases hother : other = number
  · subst hother
    rwa [set_connection_self]
  · rw [set_connection_other hother]
    exact h other

/-- The commands of the client are lines. -/
theorem send_command_one_line {line : Str} (h : isLine (some line) = true) :
    OneLine (sendCommand (Text.trim line)).flatten := by
  have hclean : '\n' ∉ Text.trim line := by
    have hinit : '\n' ∉ line.dropLast := by simpa [isLine] using h
    intro hmem
    rcases List.eq_nil_or_concat line with rfl | ⟨front, c, rfl⟩
    · simpa using Text.mem_of_mem_trim hmem
    · rw [List.concat_eq_append, List.dropLast_concat] at hinit
      rw [List.concat_eq_append] at hmem
      by_cases hc : Text.isWhitespace c = true
      · rw [Text.trim_append_right (by simpa [Text.Blank] using hc)] at hmem
        exact hinit (Text.mem_of_mem_trim hmem)
      · rcases List.mem_append.mp (Text.mem_of_mem_trim hmem) with hmem | hmem
        · exact hinit hmem
        · obtain rfl := List.mem_singleton.mp hmem
          exact hc rfl
  have hbytes : (sendCommand (Text.trim line)).flatten = Text.encode (Text.trim line) ++ [10] := by
    simp [sendCommand, Text.encode]
    rfl
  rw [hbytes]
  exact one_line_newline fun hmem => hclean (Text.newline_mem_iff.mp hmem)

theorem send_ping_one_line : OneLine sendPing.flatten :=
  one_line_newline (b := Text.encode "PING".toList) (by decide)

theorem paired_input {line : Option Str} (h : s.Paired) (hidle : s.points .cli = .idle)
    (hline : isLine line = true) : (s.input line).Paired := by
  have hgoto : ∀ point : Point, point.holdsStream = false → point.Command →
      (s.goto .cli point).Paired := fun point => h.outside (by rw [hidle]; rfl)
  unfold input
  split
  · exact hgoto .exited rfl trivial
  · dsimp only
    split
    · exact h
    · split
      · exact hgoto .exited rfl trivial
      · exact hgoto _ rfl (send_command_one_line hline)

theorem paired_lock_stream {writes : List (List UInt8)} (h : s.Paired)
    (hpoint : s.points t = .lockStream writes) (hfree : s.streamLock = none) :
    { s.goto t (.lockReader writes) with streamLock := some t }.Paired where
  streamHeld := h.streamHeld.acquire hfree rfl
  readerHeld := h.readerHeld.keep (by rw [hpoint]; rfl)
  commands := by
    have hcommand := h.commands t
    rw [hpoint] at hcommand
    exact commands_update h.commands (.lockReader writes) hcommand t
  plain := h.plain
  fits := by
    have hfits := h.fits
    rw [phase, hfree] at hfits
    have hphase : { s.goto t (.lockReader writes) with streamLock := some t }.phase =
      .lockReader writes := Function.update_self ..
    rw [hphase]
    exact hfits
  recorded := h.recorded

/-- What the invariant says at a point of the holder. -/
theorem fits_at (h : s.Paired) (hpoint : s.points t = point) (hholds : point.holdsStream = true) :
    s.Fits point := by
  have hphase := phase_eq h (by rw [hpoint]; exact hholds)
  rw [← hpoint, ← hphase]
  exact h.fits

/-- The holder of both mutexes keeps them. -/
theorem reader_kept (h : s.Paired) (hfrom : (s.points t).holdsReader = true)
    (hto : point.holdsReader = true) :
    Locks.HeldAt s.readerLock (Function.update s.points t point) Point.holdsReader :=
  h.readerHeld.keep (hto.trans hfrom.symm)

theorem paired_lock_reader {writes : List (List UInt8)} (h : s.Paired)
    (hpoint : s.points t = .lockReader writes) (hfree : s.readerLock = none) :
    { s.goto t (.write s.requests writes) with
      readerLock := some t, requests := s.requests + 1 }.Paired := by
  obtain ⟨hjoined, hquiet⟩ := fits_at h hpoint rfl
  have hline : OneLine writes.flatten := by
    have hcommand := h.commands t
    rwa [hpoint] at hcommand
  refine h.inside (.write s.requests writes) (by rw [hpoint]; rfl) rfl trivial rfl rfl
    (h.readerHeld.acquire hfree rfl) h.plain
    ⟨hjoined, hquiet.exchange _ hline, rfl, fun a ha => (h.recorded.1 a ha).2⟩ ?_
  exact ⟨fun a ha => ⟨(h.recorded.1 a ha).1, Nat.lt_succ_of_lt (h.recorded.1 a ha).2⟩, h.recorded.2⟩

theorem paired_write {request : Nat} {bytes : List UInt8} {todo : List (List UInt8)} (h : s.Paired)
    (hpoint : s.points t = .write request (bytes :: todo)) :
    ((s.setConnection s.stream ((s.connections s.stream).send ⟨request, s.stream⟩ bytes)).goto t
      (.write request todo)).Paired := by
  obtain ⟨⟨hsame, hopened, hopen⟩, hexchange, hcurrent⟩ := fits_at h hpoint rfl
  rw [List.flatten_cons] at hexchange
  refine h.inside (.write request todo) (by rw [hpoint]; rfl) rfl trivial rfl rfl
    (reader_kept h (by rw [hpoint]; rfl) rfl) (plain_set h.plain (h.plain s.stream)) ?_ h.recorded
  refine ⟨⟨hsame, hopened, ?_⟩, ?_, hcurrent⟩
  · simpa [goto, Connection.send] using hopen
  · simpa [goto] using hexchange.send

theorem paired_flush {request : Nat} (h : s.Paired) (hpoint : s.points t = .write request []) :
    (s.goto t (.read request)).Paired := by
  have hcurrent := fits_at h hpoint rfl
  exact h.inside (.read request) (by rw [hpoint]; rfl) rfl trivial rfl rfl
    (reader_kept h (by rw [hpoint]; rfl) rfl) h.plain hcurrent h.recorded

/-- Whatever the server has sent, the holder may go and reconnect. -/
theorem paired_error {c : Connection} (h : s.Paired) (hreads : (s.points t).holdsReader = true)
    (hjoined : s.Joined) (hopen : c.closed = false) (hplain : c.handler.Plain) :
    ((s.setConnection s.stream c).goto t .reconnect).Paired := by
  obtain ⟨hsame, hopened, -⟩ := hjoined
  have hholds : (s.points t).holdsStream = true := by
    by_contra hnot
    simp [holds_reader_false (Bool.eq_false_iff.mpr hnot)] at hreads
  refine h.inside .reconnect hholds rfl trivial rfl rfl (reader_kept h hreads rfl)
    (plain_set h.plain hplain) ⟨hsame, hopened, ?_⟩ h.recorded
  simpa [goto] using hopen

theorem paired_read {request : Nat} {line : List ReplyByte} {c : Connection} (h : s.Paired)
    (hpoint : s.points t = .read request)
    (htake : (s.connections s.reader).takeLine = some (line, c)) :
    ((s.setConnection s.reader c).received t request line).Paired := by
  have hcurrent := fits_at h hpoint rfl
  obtain ⟨hjoined, hexchange, hnumber, hlast⟩ := hcurrent
  obtain ⟨hsame, hopened, hopen⟩ := hjoined
  have hreads : (s.points t).holdsReader = true := by rw [hpoint]; rfl
  rw [hsame] at htake
  obtain ⟨rest, hclient, rfl, htaken⟩ := Connection.take_line_eq htake
  rw [hsame]
  have hplain := h.plain s.stream
  have herror := paired_error (c := { s.connections s.stream with toClient := rest }) h hreads
    ⟨hsame, hopened, hopen⟩ hopen hplain
  unfold received
  split
  · exact herror
  · split
    · exact herror
    case isFalse hne =>
      obtain ⟨hreplies, hquiet⟩ := hexchange.answer hclient hne htaken
      have hanswer : Answer.Paired ⟨t, request, s.reader, line⟩ := by
        rw [hsame]
        exact ⟨hne, hreplies⟩
      have hrecorded :
          Recorded { s with answers := ⟨t, request, s.reader, line⟩ :: s.answers } := by
        refine ⟨fun a ha => ?_, List.pairwise_cons.mpr ⟨hlast, h.recorded.2⟩⟩
        rcases List.mem_cons.mp ha with rfl | ha
        · exact ⟨hanswer, by rw [hnumber]; exact Nat.lt_succ_self request⟩
        · exact h.recorded.1 a ha
      dsimp only
      split
      · exact h.inside .reconnect (by rw [hpoint]; rfl) rfl trivial rfl rfl
          (reader_kept h hreads rfl) (plain_set h.plain hplain)
          ⟨hsame, hopened, by simpa [goto, setConnection] using hopen⟩ hrecorded
      · exact h.inside .unlockReader (by rw [hpoint]; rfl) rfl trivial rfl rfl
          (reader_kept h hreads rfl) (plain_set h.plain hplain)
          ⟨⟨hsame, hopened, by simpa [goto, setConnection] using hopen⟩,
            by simpa [goto, setConnection] using hquiet⟩ hrecorded

theorem paired_fails {count : Nat} (h : s.Paired) (hstep : s.fails t count = some next) :
    next.Paired := by
  unfold fails at hstep
  split at hstep <;> cases hstep
  case h_1 request bytes todo hpoint =>
    have hcurrent := fits_at h hpoint rfl
    exact paired_error h (by rw [hpoint]; rfl) hcurrent.1 hcurrent.1.2.2 (h.plain s.stream)
  case h_2 request hpoint =>
    have hcurrent := fits_at h hpoint rfl
    rw [hcurrent.1.1]
    exact paired_error h (by rw [hpoint]; rfl) hcurrent.1 hcurrent.1.2.2 (h.plain s.stream)

theorem paired_connected {now : Nat} (h : s.Paired) (hpoint : s.points t = .reconnect) :
    { (s.setConnection s.opened (.fresh now)).goto t (.assignStream s.opened) with
      opened := s.opened + 1 }.Paired := by
  have hjoined := fits_at h hpoint rfl
  obtain ⟨hsame, hopened, hopen⟩ := hjoined
  have hne : s.stream ≠ s.opened := Nat.ne_of_lt hopened
  refine h.inside (.assignStream s.opened) (by rw [hpoint]; rfl) rfl trivial rfl rfl
    (reader_kept h (by rw [hpoint]; rfl) rfl) (plain_set h.plain (fun _ hat => by cases hat)) ?_
    h.recorded
  refine ⟨⟨hsame, Nat.lt_succ_of_lt hopened, ?_⟩, ?_, Nat.lt_succ_self _, ?_, ?_⟩
  · simpa [goto, set_connection_other hne] using hopen
  · exact fun heq => hne (hsame ▸ heq.symm)
  · simp [goto, Connection.fresh]
  · simpa [goto] using Connection.quiet_fresh now

theorem paired_assign_stream {number : Nat} (h : s.Paired)
    (hpoint : s.points t = .assignStream number) :
    { s.goto t (.assignReader number) with stream := number }.Paired := by
  have hfits := fits_at h hpoint rfl
  exact h.inside (.assignReader number) (by rw [hpoint]; rfl) rfl trivial rfl rfl
    (reader_kept h (by rw [hpoint]; rfl) rfl) h.plain ⟨rfl, hfits.2⟩ h.recorded

theorem paired_assign_reader {number : Nat} (h : s.Paired)
    (hpoint : s.points t = .assignReader number) :
    { (s.setConnection s.reader { s.connections s.reader with closed := true }).goto t
        .unlockReader with reader := number }.Paired := by
  have hfits := fits_at h hpoint rfl
  obtain ⟨hstream, hne, hopened, hopen, hquiet⟩ := hfits
  refine h.inside .unlockReader (by rw [hpoint]; rfl) rfl trivial rfl rfl
    (reader_kept h (by rw [hpoint]; rfl) rfl) (plain_set h.plain (h.plain s.reader)) ?_ h.recorded
  rw [← hstream] at hne hopened hopen hquiet
  refine ⟨⟨hstream.symm, hopened, ?_⟩, ?_⟩
  · simpa [goto, set_connection_other hne] using hopen
  · simpa [goto, set_connection_other hne] using hquiet

theorem paired_unlock_reader (h : s.Paired) (hpoint : s.points t = .unlockReader) :
    { s.goto t .unlockStream with readerLock := none }.Paired := by
  have hfits := fits_at h hpoint rfl
  exact h.inside .unlockStream (by rw [hpoint]; rfl) rfl trivial rfl rfl
    (h.readerHeld.release (by rw [hpoint]; rfl) rfl) h.plain hfits h.recorded

theorem paired_unlock_stream (h : s.Paired) (hpoint : s.points t = .unlockStream) :
    { s.goto t .idle with streamLock := none }.Paired where
  streamHeld := h.streamHeld.release (by rw [hpoint]; rfl) rfl
  readerHeld := h.readerHeld.keep (by rw [hpoint]; rfl)
  commands := commands_update h.commands .idle trivial t
  plain := h.plain
  fits := by
    have hfits := fits_at h hpoint rfl
    exact hfits
  recorded := h.recorded

theorem paired_advance (h : s.Paired) (hstep : s.advance t = some next) : next.Paired := by
  unfold advance at hstep
  split at hstep
  case h_1 writes hpoint =>
    split at hstep
    case isTrue hfree =>
      cases hstep
      exact paired_lock_stream h hpoint hfree
    case isFalse => cases hstep
  case h_2 writes hpoint =>
    split at hstep
    case isTrue hfree =>
      cases hstep
      exact paired_lock_reader h hpoint hfree
    case isFalse => cases hstep
  case h_3 request bytes todo hpoint =>
    cases hstep
    exact paired_write h hpoint
  case h_4 request hpoint =>
    cases hstep
    exact paired_flush h hpoint
  case h_5 request hpoint =>
    split at hstep
    case h_1 line c htake =>
      cases hstep
      exact paired_read h hpoint htake
    case h_2 => cases hstep
  case h_6 number hpoint =>
    cases hstep
    exact paired_assign_stream h hpoint
  case h_7 number hpoint =>
    cases hstep
    exact paired_assign_reader h hpoint
  case h_8 hpoint =>
    cases hstep
    exact paired_unlock_reader h hpoint
  case h_9 hpoint =>
    cases hstep
    exact paired_unlock_stream h hpoint
  all_goals cases hstep

/-! ## The steps at the server's end -/

theorem paired_server {number : Nat} {c : Connection} (h : s.Paired)
    (hserved : (s.connections number).Served c) : (s.setConnection number c).Paired := by
  obtain ⟨hclosed, hplain⟩ := hserved.frame
  have hopen : ∀ other, (s.connections other).closed = false →
      ((s.setConnection number c).connections other).closed = false := by
    intro other hother
    by_cases heq : other = number
    · subst heq
      rw [set_connection_self, hclosed, hother]
    · rwa [set_connection_other heq]
  -- the server changes one connection, and `Served` keeps what is said of it
  have hkept : ∀ {keeps : Connection → Prop} (other : Nat),
      (∀ next : Connection, (s.connections other).Served next → keeps next) →
      keeps (s.connections other) → keeps ((s.setConnection number c).connections other) := by
    intro keeps other hserve hnow
    by_cases heq : other = number
    · subst heq
      rw [set_connection_self]
      exact hserve c hserved
    · rwa [set_connection_other heq]
  have hquiet : ∀ other, (s.connections other).closed = false → (s.connections other).Quiet →
      ((s.setConnection number c).connections other).Quiet := fun other hother hnow =>
    hkept other (fun next hnext => hnow.served (h.plain other) hother hnext) hnow
  have hexchange : ∀ {request : Nat} {todo : List UInt8}, s.Current request todo →
      (s.setConnection number c).Current request todo := by
    rintro request todo ⟨⟨hsame, hopened, hcurrent⟩, hnow, hrest⟩
    refine ⟨⟨hsame, hopened, hopen _ hcurrent⟩, ?_, hrest⟩
    exact hkept s.stream (fun next hnext => hnow.served (h.plain _) hcurrent hnext) hnow
  have hjoined : s.Joined → (s.setConnection number c).Joined := fun ⟨hsame, hopened, hcurrent⟩ =>
    ⟨hsame, hopened, hopen _ hcurrent⟩
  have hspare : ∀ {other : Nat}, s.Spare other → (s.setConnection number c).Spare other :=
    fun ⟨hne, hopened, hother, hnow⟩ => ⟨hne, hopened, hopen _ hother, hquiet _ hother hnow⟩
  exact {
    streamHeld := h.streamHeld
    readerHeld := h.readerHeld
    commands := h.commands
    plain := plain_set h.plain hplain
    fits := by
      have hfits := h.fits
      have hphase : (s.setConnection number c).phase = s.phase := rfl
      rw [hphase]
      generalize s.phase = point at hfits
      cases point with
      | write request todo => exact hexchange hfits
      | read request => exact hexchange hfits
      | reconnect => exact hjoined hfits
      | assignStream other => exact ⟨hjoined hfits.1, hspare hfits.2⟩
      | assignReader other => exact ⟨hfits.1, hspare hfits.2⟩
      | _ => exact ⟨hjoined hfits.1, hquiet _ hfits.1.2.2 hfits.2⟩
    recorded := h.recorded }

/-! ## Runs -/

theorem paired_init (now : Nat) : (init now).Paired where
  streamHeld t := ⟨nofun, nofun⟩
  readerHeld t := ⟨nofun, nofun⟩
  commands t := trivial
  plain number text hat := by cases hat
  fits := ⟨⟨rfl, Nat.one_pos, rfl⟩, Connection.quiet_fresh now⟩
  recorded := ⟨nofun, .nil⟩

theorem paired_step {action : Action} (h : s.Paired) (hstep : s.step action = some next) :
    next.Paired := by
  unfold step at hstep
  split at hstep
  · cases hstep
  · cases action with
    | input line =>
        dsimp only at hstep
        split at hstep
        case isTrue hguard =>
          cases hstep
          exact paired_input h hguard.1 hguard.2
        case isFalse => cases hstep
    | wake =>
        dsimp only at hstep
        split at hstep
        case isTrue hidle =>
          cases hstep
          exact h.outside (by rw [hidle]; rfl) rfl send_ping_one_line
        case isFalse => cases hstep
    | advance t => exact paired_advance h hstep
    | fails t count => exact paired_fails h hstep
    | connected t now =>
        dsimp only at hstep
        split at hstep
        case isTrue hpoint =>
          cases hstep
          exact paired_connected h hpoint
        case isFalse => cases hstep
    | server number event =>
        dsimp only at hstep
        split at hstep
        case isTrue hopened =>
          obtain ⟨c, hserver, heq⟩ := Option.bind_eq_some_iff.mp hstep
          cases heq
          exact paired_server h (Connection.served_of_step hserver)
        case isFalse => cases hstep

theorem paired_reachable (h : s.Reachable) : s.Paired := by
  obtain ⟨now, hrun⟩ := h
  exact hrun.invariant Paired (paired_init now) fun hinv _ hstep => paired_step hinv hstep

/-- How far a thread still is from both mutexes. -/
def rank (s : QuoteClient) (t : Thread) : Nat :=
  match s.points t with
  | .lockStream _ => 2
  | .lockReader _ => 1
  | _ => 0

/-- A thread waits only for threads that are further. -/
theorem rank_lt_of_waits (h : s.Paired) (t u : Thread) (hwaits : s.Waits t u) :
    s.rank u < s.rank t := by
  rcases hwaits with ⟨writes, hpoint, hlock⟩ | ⟨writes, hpoint, hlock⟩
  · have hholds := (h.streamHeld u).mp hlock
    rw [rank, rank, hpoint]
    cases hu : s.points u with
    | lockStream _ => simp [hu, Point.holdsStream] at hholds
    | _ => simp
  · have hholds := (h.readerHeld u).mp hlock
    rw [rank, rank, hpoint]
    cases hu : s.points u with
    | lockStream _ | lockReader _ => simp [hu, Point.holdsReader] at hholds
    | _ => simp

/-- Every line that a thread takes for the answer to its request was written by the server while it
handled this request on the same connection, no two answers are to one request, and the threads do
not wait for each other in a cycle. -/
theorem replies_are_paired (h : s.Reachable) :
    (∀ a ∈ s.answers, a.line ≠ [] ∧
      ∀ b ∈ a.line, Handles ⟨a.request, a.connection⟩ b.handling) ∧
    (s.answers.Pairwise fun later earlier => earlier.request < later.request) ∧
    ∀ t, ¬ Relation.TransGen s.Waits t t := by
  have hpaired := paired_reachable h
  exact ⟨fun a ha => (hpaired.recorded.1 a ha).1, hpaired.recorded.2,
    Locks.acyclic_of_rank (rank_lt_of_waits hpaired)⟩

/-- The handler of a connection goes to its loop. -/
def accepting (number : Nat) : List Action :=
  [.server number (.answer (.cloned (.ok ()))), .server number (.answer (.timeoutSet (.ok ())))]

/-- The answer to a `PING` is lost, and the next one is read from a new connection. -/
def retried : List Action :=
  accepting 0 ++ [.wake] ++ List.replicate 4 (.advance .keepAlive) ++ [.server 0 (.line 0),
    .input (some "PING\n".toList), .fails .keepAlive 0,
      .connected .keepAlive 0, .server 0 .wrote] ++
    List.replicate 4 (.advance .keepAlive) ++ accepting 1 ++ List.replicate 5 (.advance .cli) ++
    [.server 1 (.line 0), .server 1 .wrote, .advance .cli]

theorem replies_are_paired_retried : ∃ s a, Reachable s ∧ s.answers = [a] ∧ a.request = 1 ∧
    a.line.map (·.byte) = Text.encode "PONG\n".toList ∧
      ∀ b ∈ a.line, Handles ⟨1, 1⟩ b.handling := by
  obtain ⟨s, a, hrun, hanswers, hrequest, hconnection, hline⟩ : ∃ s a,
      Transition.run step (init 0) retried = some s ∧ s.answers = [a] ∧ a.request = 1 ∧
      a.connection = 1 ∧ a.line.map (·.byte) = Text.encode "PONG\n".toList :=
    ⟨_, _, rfl, rfl, rfl, rfl, rfl⟩
  have hs : Reachable s := ⟨0, Transition.reachable_of_run hrun⟩
  have hreplies := ((replies_are_paired hs).1 a (by rw [hanswers]; simp)).2
  rw [hrequest, hconnection] at hreplies
  exact ⟨s, a, hs, hanswers, hrequest, hline, hreplies⟩

end QuoteStreamer.QuoteClient
