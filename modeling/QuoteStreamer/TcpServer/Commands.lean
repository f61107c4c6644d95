import QuoteStreamer.TcpServer.Serving

/-!
# The language of commands

The documentation gives three commands and one answer for everything else. The handler recognises
them by a prefix of the trimmed line, and `handle_stream` splits the line again. The two languages
agree on a word exactly when it does not merely begin with `PING` or `STOP`, and begins with
`STREAM` and a space only if it is a complete `STREAM` command, as every complete one then does.
-/

namespace QuoteStreamer

/-- `STREAM host:port TICKER...`: the word `STREAM`, a socket address and at least one ticker, with
whitespace between them. -/
def streamCommand (w : Str) : Option (SocketAddr × List Str) :=
  match Text.splitWhitespace w with
  | keyword :: udpAddr :: ticker :: tickers =>
      if keyword = "STREAM".toList then (SocketAddr.parse udpAddr).map (·, ticker :: tickers)
      else none
  | _ => none

/-- Behind the keyword and a space the arguments of `handle_stream` are those of the command. -/
theorem stream_command_eq {w : Str} (hstream : "STREAM ".toList <+: w) :
    streamCommand w = Handler.streamArguments w := by
  obtain ⟨rest, rfl⟩ := hstream
  have hwords : Text.splitWhitespace ("STREAM ".toList ++ rest) =
      "STREAM".toList :: Text.splitWhitespace rest :=
    Text.split_whitespace_keyword Handler.stream_keyword_word (by decide) rest
  unfold streamCommand Handler.streamArguments
  rw [hwords]
  rcases Text.splitWhitespace rest with _ | ⟨udpAddr, _ | ⟨ticker, tickers⟩⟩
  · rfl
  · rfl
  · exact if_pos rfl

namespace Handler

variable {h : Handler}

/-- A line that is not blank is dispatched. -/
theorem step_read {line : Str} {now : Nat} (hpoint : h.point = .readLine)
    (hline : Text.trim line ≠ []) : h.step (.read (.ok line) now) =
      some (({ h with lastPing := now, point := .readLine } : Handler).dispatch
        (Text.trim line)) := by
  have hreceived : h.received (.ok line) now =
      ({ h with lastPing := now, point := .readLine } : Handler).dispatch (Text.trim line) := by
    cases line with
    | nil => exact absurd rfl hline
    | cons c rest => exact if_neg hline
  unfold step
  rw [hpoint]
  exact congrArg some hreceived

/-- The dispatch leaves the handler in front of a reply, of the bind or of a removal, or
returned. -/
theorem dispatch_dispatched (msg : Str) : (h.dispatch msg).Dispatched := by
  unfold dispatch
  split
  · trivial
  · split
    · cases harguments : streamArguments msg with
      | some arguments =>
          rw [handle_stream_accepted harguments]
          trivial
      | none =>
          obtain ⟨text, hfail⟩ := handle_stream_rejected (h := h) harguments
          rw [hfail]
          trivial
    · split
      · unfold handleStop
        split <;> trivial
      · trivial

end Handler

namespace Stage

variable {start h : Handler} {call : Call} {trace : List Effect}

/-- The line is served: the handler is back at `read_line`, or has returned. -/
theorem finished (hstage : Stage start h call trace) (hdone : h.point = .readLine ∨ h.Returned) :
    (start.Returned ∧ trace = []) ∨
    (∃ text, start.point = .write text ∧ h = start.goto .readLine ∧ trace = [.wrote text]) ∨
    (∃ addr id client, start.point = .bind addr client.tickers ∧ client.callback = .udp addr ∧
      h = { start with clientId := some id, point := .readLine } ∧
      trace = [.inserted id client, .wrote "STREAM OK\n".toList]) ∨
    ∃ id erased, start.point = .removeClient id .stop ∧ (erased = [] ∨ erased = [.erased id]) ∧
      trace = erased ++ [.wrote "STOP OK\n".toList] := by
  cases hstage with
  | opened hstart =>
      refine .inl ⟨hdone.resolve_left fun hpoint => ?_, rfl⟩
      simp [Handler.Dispatched, hpoint] at hstart
  | replied text hstart => exact .inr (.inl ⟨text, hstart, rfl, rfl⟩)
  | streaming addr id client hstart hcallback =>
      exact .inr (.inr (.inl ⟨addr, id, client, hstart, hcallback, rfl, rfl⟩))
  | stopped id hstart erased herased => exact .inr (.inr (.inr ⟨id, erased, hstart, herased, rfl⟩))
  | seeking id _ hstart | sought id _ hstart =>
      rcases hdone with hpoint | ⟨_, hpoint⟩ <;> rw [hstart] at hpoint <;> cases hpoint
  | _ => rcases hdone with hpoint | ⟨_, hpoint⟩ <;> cases hpoint

theorem finished_reply (hstage : Stage start h call trace)
    (hdone : h.point = .readLine ∨ h.Returned) {text : Str} (hstart : start.point = .write text) :
    h = start.goto .readLine ∧ trace = [.wrote text] := by
  rcases hstage.finished hdone with ⟨⟨_, hpoint⟩, -⟩ | ⟨text', hpoint, hh, htrace⟩ |
    ⟨_, _, _, hpoint, -⟩ | ⟨_, _, hpoint, -⟩ <;> rw [hstart] at hpoint <;> cases hpoint
  exact ⟨hh, htrace⟩

end Stage

namespace System

/-- What the documentation says about a word that a handler with this `client_id` receives: one
reply, which the command determines, and for no command neither a change of the registry nor of
`client_id`. -/
def Documented (w : Str) (clientId : Option UInt64) (h : Handler) (trace : List Effect) : Prop :=
  ∃ reply, Effect.replies trace = [reply] ∧
    (reply = "PONG\n".toList ↔ w = "PING".toList) ∧
    (reply = "STOP OK\n".toList ↔ w = "STOP".toList) ∧
    (reply = "STREAM OK\n".toList ↔ (streamCommand w).isSome) ∧
    (∀ addr tickers, streamCommand w = some (addr, tickers) → ∃ id client,
      .inserted id client ∈ trace ∧ client.tickers = tickers ∧ client.callback = .udp addr ∧
      h.clientId = some id) ∧
    (w ≠ "PING".toList → w ≠ "STOP".toList → streamCommand w = none →
      trace = [.wrote "ERR Invalid command\n".toList] ∧ h.clientId = clientId ∧ h.point = .readLine)

/-- The prefixes that the handler looks for tell the commands. -/
def Unambiguous (w : Str) : Prop :=
  ("PING".toList <+: w → w = "PING".toList) ∧ ("STOP".toList <+: w → w = "STOP".toList) ∧
    ("STREAM ".toList <+: w ↔ (streamCommand w).isSome)

instance (w : Str) : Decidable (Unambiguous w) :=
  inferInstanceAs (Decidable (_ ∧ _ ∧ _))

section Words

variable {w : Str} {clientId : Option UInt64} {h : Handler} {trace : List Effect}

/-- The answer to a word that begins with `PING`. -/
theorem documented_ping (hping : "PING".toList <+: w) (hreplies : Effect.replies trace =
    ["PONG\n".toList]) : Documented w clientId h trace ↔ Unambiguous w := by
  constructor
  · rintro ⟨reply, hreply, hpong, -⟩
    obtain rfl := List.singleton_inj.mp (hreplies.symm.trans hreply)
    rw [hpong.mp rfl]
    decide
  · intro hword
    obtain rfl := hword.1 hping
    have hnone : streamCommand "PING".toList = none := by decide
    refine ⟨_, hreplies, by decide, by decide, by decide, fun addr tickers hsome => ?_,
      fun hne => absurd rfl hne⟩
    rw [hnone] at hsome
    cases hsome

/-- The answer to a word that begins with `STOP`. -/
theorem documented_stop (hstop : "STOP".toList <+: w) (hreplies : Effect.replies trace =
    ["STOP OK\n".toList]) : Documented w clientId h trace ↔ Unambiguous w := by
  constructor
  · rintro ⟨reply, hreply, -, hstopped, -⟩
    obtain rfl := List.singleton_inj.mp (hreplies.symm.trans hreply)
    rw [hstopped.mp rfl]
    decide
  · intro hword
    obtain rfl := hword.2.1 hstop
    have hnone : streamCommand "STOP".toList = none := by decide
    refine ⟨_, hreplies, by decide, by decide, by decide, fun addr tickers hsome => ?_,
      fun _ hne => absurd rfl hne⟩
    rw [hnone] at hsome
    cases hsome

/-- The answer to a word that begins with `STREAM` and a space and is a command. -/
theorem documented_stream (hstream : "STREAM ".toList <+: w) {addr : SocketAddr} {id : UInt64}
    {client : Client} (hcommand : streamCommand w = some (addr, client.tickers))
    (hcallback : client.callback = .udp addr) (hid : h.clientId = some id)
    (htrace : trace = [.inserted id client, .wrote "STREAM OK\n".toList]) :
    Documented w clientId h trace := by
  subst htrace
  have hnotPing : w ≠ "PING".toList := by
    rintro rfl
    revert hstream
    decide
  have hnotStop : w ≠ "STOP".toList := by
    rintro rfl
    revert hstream
    decide
  refine ⟨"STREAM OK\n".toList, rfl, ?_, ?_, ?_, fun addr' tickers hsome => ?_, fun _ _ hnone => ?_⟩
  · exact iff_of_false (by decide) hnotPing
  · exact iff_of_false (by decide) hnotStop
  · exact iff_of_true rfl (by rw [hcommand]; rfl)
  · rw [hcommand] at hsome
    cases hsome
    exact ⟨id, client, List.mem_cons_self, rfl, hcallback, hid⟩
  · rw [hcommand] at hnone
    cases hnone

/-- The answer to a word that begins with no keyword. -/
theorem documented_invalid (hping : ¬ "PING".toList <+: w) (hstop : ¬ "STOP".toList <+: w)
    (hstream : ¬ "STREAM ".toList <+: w)
    (htrace : trace = [.wrote "ERR Invalid command\n".toList]) (hid : h.clientId = clientId)
    (hpoint : h.point = .readLine) : Documented w clientId h trace ↔ Unambiguous w := by
  subst htrace
  have hnotPing : w ≠ "PING".toList := by
    rintro rfl
    exact hping (List.prefix_refl _)
  have hnotStop : w ≠ "STOP".toList := by
    rintro rfl
    exact hstop (List.prefix_refl _)
  have hword : Unambiguous w ↔ ¬ (streamCommand w).isSome := by
    simp only [Unambiguous, hping, hstop, hstream, false_implies, true_and, false_iff]
  rw [hword]
  constructor
  · rintro ⟨reply, hreply, -, -, hstreamed, -⟩ hsome
    have heq : "ERR Invalid command\n".toList = reply := List.singleton_inj.mp hreply
    have hok := heq.trans (hstreamed.mpr hsome)
    revert hok
    decide
  · intro hnone
    refine ⟨"ERR Invalid command\n".toList, rfl, ?_, ?_, ?_, fun addr tickers hsome => ?_,
      fun _ _ _ => ⟨rfl, hid, hpoint⟩⟩
    · exact iff_of_false (by decide) hnotPing
    · exact iff_of_false (by decide) hnotStop
    · exact iff_of_false (by decide) hnone
    · exact absurd (by rw [hsome]; rfl) hnone

/-- The whole answer, given the stage in which the handler is through with the word. -/
theorem documented_iff {start : Handler} {call : Call}
    (hstage : Stage (start.dispatch w) h call trace) (hdone : h.point = .readLine ∨ h.Returned) :
    Documented w start.clientId h trace ↔ Unambiguous w := by
  by_cases hping : "PING".toList <+: w
  · have hstart : start.dispatch w = start.handlePing := if_pos (Text.starts_with_iff.mpr hping)
    rw [hstart] at hstage
    obtain ⟨-, rfl⟩ := hstage.finished_reply hdone rfl
    exact documented_ping hping rfl
  have hnotPing : ¬ Text.startsWith w "PING".toList = true := fun h =>
    hping (Text.starts_with_iff.mp h)
  by_cases hstream : "STREAM ".toList <+: w
  · have hstart : start.dispatch w = start.handleStream w :=
      (if_neg hnotPing).trans (if_pos (Text.starts_with_iff.mpr hstream))
    rw [hstart] at hstage
    have hstop : ¬ "STOP".toList <+: w := fun h =>
      Text.prefix_unique h hstream (by decide) (by decide)
    have hcommand := stream_command_eq hstream
    have hword : Unambiguous w ↔ (streamCommand w).isSome := by
      simp only [Unambiguous, hping, hstop, hstream, false_implies, true_and, true_iff]
    rw [hword]
    cases harguments : Handler.streamArguments w with
    | none =>
        rw [harguments] at hcommand
        -- rejected arguments end the connection without a reply
        obtain ⟨text, hfail⟩ := Handler.handle_stream_rejected (h := start) harguments
        rw [hfail] at hstage
        rcases hstage.finished hdone with ⟨-, rfl⟩ | ⟨_, hpoint, -⟩ | ⟨_, _, _, hpoint, -⟩ |
          ⟨_, _, hpoint, -⟩
        · refine iff_of_false ?_ (by rw [hcommand]; decide)
          rintro ⟨reply, hreply, -⟩
          cases hreply
        · cases hpoint
        · cases hpoint
        · cases hpoint
    | some arguments =>
        obtain ⟨addr', tickers⟩ := arguments
        rw [harguments] at hcommand
        rw [Handler.handle_stream_accepted harguments] at hstage
        refine iff_of_true ?_ (by rw [hcommand]; rfl)
        rcases hstage.finished hdone with ⟨⟨_, hpoint⟩, -⟩ | ⟨_, hpoint, -⟩ |
          ⟨addr, id, client, hpoint, hcallback, rfl, htrace⟩ | ⟨_, _, hpoint, -⟩
        · cases hpoint
        · cases hpoint
        · cases hpoint
          exact documented_stream hstream hcommand hcallback rfl htrace
        · cases hpoint
  have hnotStream : ¬ Text.startsWith w "STREAM ".toList = true :=
    fun h => hstream (Text.starts_with_iff.mp h)
  by_cases hstop : "STOP".toList <+: w
  · have hstart : start.dispatch w = start.handleStop :=
      (if_neg hnotPing).trans ((if_neg hnotStream).trans (if_pos (Text.starts_with_iff.mpr hstop)))
    rw [hstart] at hstage
    refine documented_stop hstop ?_
    unfold Handler.handleStop at hstage
    split at hstage
    · rcases hstage.finished hdone with ⟨⟨_, hpoint⟩, -⟩ | ⟨_, hpoint, -⟩ | ⟨_, _, _, hpoint, -⟩ |
        ⟨_, _, -, rfl | rfl, rfl⟩
      · cases hpoint
      · cases hpoint
      · cases hpoint
      · rfl
      · rfl
    · obtain ⟨-, rfl⟩ := hstage.finished_reply hdone rfl
      rfl
  · have hnotStop : ¬ Text.startsWith w "STOP".toList = true :=
      fun h => hstop (Text.starts_with_iff.mp h)
    have hstart : start.dispatch w = start.handleInvalid :=
      (if_neg hnotPing).trans ((if_neg hnotStream).trans (if_neg hnotStop))
    rw [hstart] at hstage
    obtain ⟨rfl, htrace⟩ := hstage.finished_reply hdone rfl
    exact documented_invalid hping hstop hstream htrace rfl rfl

end Words

variable {s t u : System} {j : Nat}

/-- From the dispatch on, the handler goes through the stages of the line. -/
theorem served {start h : Handler} {trace : List Effect} {quotes : Quotes} (ht : Reachable quotes t)
    (hstart : t.handlers j = some start) (hidle : t.server.callers (.connection j) = .idle)
    (hdispatched : start.Dispatched)
    (hrun : Transition.Traces step (Succeeds j) (effects j) t trace u)
    (hh : u.handlers j = some h) : Stage start h (u.server.callers (.connection j)) trace := by
  obtain ⟨h', hh', hstage⟩ : ∃ h, u.handlers j = some h ∧
      Stage start h (u.server.callers (.connection j)) trace := by
    refine Transition.Traces.invariant_with (fun trace state => ∃ h, state.handlers j = some h ∧
      Stage start h (state.server.callers (.connection j)) trace) hrun
      (fun hrun => Reachable.holding (ht.trans hrun.reachable)) ⟨start, hstart, ?_⟩ ?_
    · rw [hidle]
      exact .opened hdispatched
    · rintro trace state next action hholding ⟨h, hh, hstage⟩ hok hstep
      exact stage_step hholding hh hstage hok (step_move hstep)
  obtain rfl := Option.some.inj (hh.symm.trans hh')
  exact hstage

/-- A line that is not blank is answered as documented exactly when the prefixes tell its command:
it does not merely begin with `PING` or `STOP`, and it begins with `STREAM` and a space if and only
if it is a complete `STREAM` command. -/
theorem command_language {quotes : Quotes} (hs : Reachable quotes s) {h h' : Handler}
    (hh : s.handlers j = some h) (hpoint : h.point = .readLine) {line : Str} {now : Nat}
    (hline : Text.trim line ≠ []) (hread : step s (.input j (.read (.ok line) now)) = some t)
    {trace : List Effect} (hrun : Transition.Traces step (Succeeds j) (effects j) t trace u)
    (hh' : u.handlers j = some h') (hdone : h'.point = .readLine ∨ h'.Returned) :
    Documented (Text.trim line) h.clientId h' trace ↔ Unambiguous (Text.trim line) := by
  have ht : Reachable quotes t := hs.tail trivial hread
  cases step_move hread with
  | input _ _ h₀ start hh₀ hexternal hstep =>
      obtain rfl := Option.some.inj (hh.symm.trans hh₀)
      have hidle := (Reachable.holding hs).idle_of_input hh hexternal hstep
      rw [Handler.step_read hpoint hline] at hstep
      obtain rfl := Option.some.inj hstep
      have hstage := served ht (Function.update_self ..)
        hidle (Handler.dispatch_dispatched _) hrun hh'
      have hdocumented := documented_iff hstage hdone
      exact hdocumented

/-- From the bind to the answer of `add_client`. -/
def untilAnswer (j : Nat) : List SystemAction :=
  [.input j (.bound (.ok ())), .request j] ++
    List.replicate 4 (.server (.caller (.connection j)))

theorem command_language_stream : ∃ s t u h trace, Reachable ∅ s ∧
    step s (.input 0 (.read (.ok streamLine) 0)) = some t ∧
    Transition.Traces step (Succeeds 0) (effects 0) t trace u ∧ u.handlers 0 = some h ∧
    h.point = .readLine ∧ Documented (Text.trim streamLine) none h trace := by
  obtain ⟨s, hrun, h, hh, hpoint, hid, t, hread, v, hcalled, hanswer, w, htake, u, hwrote, h', hh',
      hpoint'⟩ :
      ∃ s, Transition.run step (init ∅) (connecting 0) = some s ∧
        ∃ h, s.handlers 0 = some h ∧ h.point = .readLine ∧ h.clientId = none ∧
        ∃ t, step s (.input 0 (.read (.ok streamLine) 0)) = some t ∧
        ∃ v, Transition.run step t (untilAnswer 0) = some v ∧ v.answerOf 0 = some (.added 0) ∧
        ∃ w, step v (.answer 0) = some w ∧
        ∃ u, step w (.input 0 (.wrote (.ok ()))) = some u ∧
        ∃ h', u.handlers 0 = some h' ∧ h'.point = .readLine :=
    ⟨_, rfl, _, rfl, rfl, rfl, _, rfl, _, rfl, rfl, _, rfl, _, rfl, _, rfl, rfl⟩
  have hs : Reachable ∅ s := Transition.reachable_of_run hrun
  have hasked : Transition.Traces step (Succeeds 0) (effects 0) t _ v :=
    Transition.traces_of_run hcalled (by simp [untilAnswer, Succeeds])
  have hsuccess : Succeeds 0 v (.answer 0) := by
    intro _ id recorded e hfail
    rw [hanswer] at hfail
    cases hfail
  have hanswered : Succeeds 0 w (.input 0 (.wrote (.ok ()))) := trivial
  have htrace := (hasked.tail hsuccess htake).tail hanswered hwrote
  have hline : Text.trim streamLine ≠ [] := by decide
  have hdocumented := (command_language hs hh hpoint hline hread htrace hh' (.inl hpoint')).mpr
    (by decide)
  rw [hid] at hdocumented
  exact ⟨s, t, u, h', _, hs, hread, htrace, hh', hpoint', hdocumented⟩

/-- A `STREAM` command without an address ends the connection without an answer. -/
theorem command_language_malformed : ∃ s h t h', Reachable ∅ s ∧ s.handlers 0 = some h ∧
    h.point = .readLine ∧ step s (.input 0 (.read (.ok "STREAM AAPL\n".toList) 0)) = some t ∧
    t.handlers 0 = some h' ∧ h'.Returned ∧
    Transition.Traces step (Succeeds 0) (effects 0) t [] t ∧
    ¬ Documented (Text.trim "STREAM AAPL\n".toList) h.clientId h' [] := by
  obtain ⟨s, hrun, h, hh, hpoint, t, hread, h', hh', hreturned⟩ :
      ∃ s, Transition.run step (init ∅) (connecting 0) = some s ∧
        ∃ h, s.handlers 0 = some h ∧ h.point = .readLine ∧
        ∃ t, step s (.input 0 (.read (.ok "STREAM AAPL\n".toList) 0)) = some t ∧
        ∃ h', t.handlers 0 = some h' ∧ h'.point =
          .returned (.error (.invalidCommand "STREAM host:port TICKER...".toList)) :=
    ⟨_, rfl, _, rfl, rfl, _, rfl, _, rfl, rfl⟩
  refine ⟨s, h, t, h', Transition.reachable_of_run hrun, hh, hpoint, hread, hh', ⟨_, hreturned⟩,
    .refl, ?_⟩
  rintro ⟨reply, hreply, -⟩
  cases hreply

end System

end QuoteStreamer
