import QuoteStreamer.QuoteServer.Names
import QuoteStreamer.TcpServer.Commands

/-!
# Subscribing to a configured ticker

`from_config` trims and upper-cases a whole line, `handle_stream` takes the words of the command
as they are written, and the two meet in the look-up of the client thread. A subscription to a
line's text gets that line's quote exactly when the text is one word in upper case.
-/

namespace QuoteStreamer

/-- The text that a line is trimmed to is its own ticker: one word, in upper case. -/
def Verbatim (w : Str) : Prop :=
  (∀ c ∈ w, Text.isWhitespace c = false) ∧ Text.toUppercase w = w

instance (w : Str) : Decidable (Verbatim w) :=
  @instDecidableAnd _ _ (List.decidableBAll _ w) inferInstance

/-! ## The map and the rounds that read it -/

namespace Server

/-- The thread runs this client. -/
structure Runs (s : Server) (client : Client) (slot : Nat) : Prop where
  bound : slot < s.spawned
  drives : client.Drives slot
  tickers : (s.threads slot).tickers = client.tickers
  callback : (s.threads slot).callback = client.callback

/-- A UDP callback has never panicked. -/
def UdpCalm (s : Server) : Prop :=
  ∀ i addr, (s.threads i).callback = .udp addr → (s.threads i).panicked = false

variable {s t : Server} {action : Action} {quotes : Quotes} {client : Client} {slot : Nat}

theorem Runs.step (hcustody : s.Custody) (h : s.Runs client slot) (hmove : Move s action t) :
    t.Runs client slot := by
  obtain ⟨htickers, hcallback⟩ := (thread_step hcustody hmove slot).frame h.bound
  exact ⟨h.bound.trans_le (spawned_le_step hmove), h.drives, htickers.trans h.tickers,
    hcallback.trans h.callback⟩

/-- What a step makes of a thread has not panicked in a UDP callback. -/
theorem ThreadMove.udp_calm {i : Nat} {th : ClientThread}
    (hmove : ThreadMove s i th) (h : s.UdpCalm)
    {addr : SocketAddr} (hcallback : th.callback = .udp addr) : th.panicked = false := by
  cases hmove with
  | spawn => rfl
  | update | shutdown =>
      rw [ClientThread.panicked_offer]
      refine h i addr ?_
      unfold ClientThread.offer at hcallback
      split at hcallback <;> exact hcallback
  | recv th hat hrecv =>
      rcases ClientThread.recv_cases hrecv with ⟨_, _, _, rfl⟩ | ⟨_, _, _, rfl⟩ | ⟨_, _, rfl⟩ <;>
        exact h i addr hcallback
  | processTicker result ticker rest hat hallowed =>
      have hthread : (s.threads i).callback = .udp addr := by
        unfold ClientThread.processTicker at hcallback
        split at hcallback <;> exact hcallback
      rw [hthread] at hallowed
      have hok : result = .ok := of_decide_eq_true hallowed
      unfold ClientThread.processTicker
      split
      · simp [h i addr hthread, hok]
      · exact h i addr hthread
  | same | disconnect | skipRound | beginRound | endRound | dropReceiver | terminate =>
      exact h i addr hcallback

theorem Reachable.udp_calm (hs : Reachable quotes s) : s.UdpCalm := by
  refine Transition.Reaches.invariant_with UdpCalm hs (fun hrun => Reachable.custody hrun)
    (fun i addr hcallback => rfl) ?_
  exact fun hcustody _ h _ hstep i addr hcallback =>
    (thread_step hcustody (step_move hstep) i).udp_calm h hcallback

/-- What a client thread delivers for UDP callbacks is all that is due. -/
theorem Reachable.delivers (hs : Reachable quotes s) {i : Nat} {addr : SocketAddr}
    (hcallback : (s.threads i).callback = .udp addr) {r : Round} (hr : r ∈ (s.threads i).done) :
    r.delivered = due r.quotes (s.threads i).tickers :=
  ((Reachable.coherent hs).threads i).complete (Reachable.udp_calm hs i addr hcallback) r hr

end Server

/-! ## The command -/

/-- The dispatch takes a line that begins with `STREAM` and a space for that command. -/
theorem Handler.dispatch_stream {h : Handler} {msg : Str} {addr : SocketAddr} {tickers : List Str}
    (hstream : "STREAM ".toList <+: msg)
    (harguments : Handler.streamArguments msg = some (addr, tickers)) :
    h.dispatch msg = h.goto (.bind addr tickers) := by
  have hping : ¬ Text.startsWith msg "PING".toList = true := fun hping =>
    Text.prefix_unique (Text.starts_with_iff.mp hping) hstream (by decide) (by decide)
  rw [Handler.dispatch, if_neg hping, if_pos (Text.starts_with_iff.mpr hstream),
    Handler.handle_stream_accepted harguments]

/-- The `STREAM` command for this address and this text. -/
def streamTo (a w : Str) : Str :=
  "STREAM".toList ++ ' ' :: a ++ ' ' :: w ++ ['\n']

section Command

variable {a line : Str} {addr : SocketAddr}

/-- `handle_stream` finds the address and the words of the line. -/
theorem stream_to_arguments (ha : SocketAddr.parse a = some addr) (hline : Text.trim line ≠ []) :
    Text.trim (streamTo a (Text.trim line)) =
        "STREAM".toList ++ ' ' :: (a ++ ' ' :: Text.trim line) ∧
      Handler.streamArguments (Text.trim (streamTo a (Text.trim line))) =
        some (addr, Text.splitWhitespace (Text.trim line)) := by
  obtain ⟨hne, hword⟩ := SocketAddr.parse_word ha
  have htrimmed : ∀ keyword : Str, (∀ c ∈ keyword, Text.isWhitespace c = false) → keyword ≠ [] →
      Text.trim (keyword ++ ' ' :: a ++ ' ' :: Text.trim line ++ ['\n']) =
        keyword ++ ' ' :: (a ++ ' ' :: Text.trim line) := by
    intro keyword hkeyword hkeywordNe
    have hspaces : keyword ++ ' ' :: a ++ ' ' :: Text.trim line =
        keyword ++ (' ' :: (a ++ [' ']) ++ Text.trim line) := by simp
    have hnewline : Text.Blank ['\n'] := by decide
    rw [Text.trim_append_right hnewline, hspaces, Text.trim_between hkeyword hkeywordNe _ hline]
    simp
  have htrim : Text.trim (streamTo a (Text.trim line)) =
      "STREAM".toList ++ ' ' :: (a ++ ' ' :: Text.trim line) :=
        htrimmed _ Handler.stream_keyword_word (by decide)
  refine ⟨htrim, ?_⟩
  rw [htrim, Handler.streamArguments,
    Text.split_whitespace_keyword Handler.stream_keyword_word (by decide),
    Text.split_whitespace_keyword hword hne]
  cases hwords : Text.splitWhitespace (Text.trim line) with
  | nil =>
      have hblank : ¬ Text.Blank (Text.trim line) := fun hblank =>
        absurd (hblank _ (List.getLast_mem hline)) (by rw [Text.last_of_trim hline]; decide)
      exact absurd hwords (Text.split_whitespace_ne_nil hblank)
  | cons ticker tickers => simp [ha]

/-- Among the words of a line's text is the line's ticker exactly when the text is that ticker. -/
theorem ticker_mem_words (hline : Text.trim line ≠ []) :
    tickerOf line ∈ Text.splitWhitespace (Text.trim line) ↔ Verbatim (Text.trim line) := by
  constructor
  · intro hmem
    have hword := Text.word_to_uppercase.mp (Text.mem_split_whitespace hmem)
    rw [Text.split_whitespace_word hword hline] at hmem
    exact ⟨hword, List.mem_singleton.mp hmem⟩
  · rintro ⟨hword, hupper⟩
    rw [Text.split_whitespace_word hword hline]
    exact List.mem_singleton.mpr hupper

end Command

/-- What is due to a subscriber is for a quote of this ticker exactly when it subscribed to the
ticker, if the map has it. -/
theorem due_ticker {quotes current : Quotes} (h : quotes.Stocks current) {key : Str}
    (hkey : key ∈ quotes) {tickers : List Str} :
    (∃ ticker message, (ticker, message) ∈ due current tickers ∧ message.ticker = key) ↔
      key ∈ tickers := by
  constructor
  · rintro ⟨ticker, message, hdue, rfl⟩
    obtain ⟨hmem, q, hq, rfl⟩ := mem_due hdue
    have hname : q.message.ticker = ticker := h.named ticker q hq
    rwa [hname]
  · intro hmem
    obtain ⟨q, hq⟩ := Option.isSome_iff_exists.mp (AList.lookup_isSome.mpr ((h.keys key).mpr hkey))
    exact ⟨key, q.message, List.mem_filterMap.mpr ⟨key, hmem, by rw [hq]; rfl⟩, h.named key q hq⟩

namespace Server

variable {s : Server} {k : Caller} {client : Client}

/-- The client that `add_client` is about to insert runs already. -/
theorem Custody.inserting (h : s.Custody) (hat : s.callers k = .addInsert client) :
    ∃ slot, s.Runs client slot := by
  have hsound := h.calls k
  rw [hat] at hsound
  obtain ⟨slot, hheld, -, -, -, htickers, hcallback⟩ := hsound
  exact ⟨slot, hheld.bound, hheld.drives, htickers, hcallback⟩

end Server

namespace System

variable {s t u : System} {action : SystemAction} {j : Nat} {client : Client} {slot : Nat}

theorem runs_step (hcustody : s.server.Custody) (h : s.server.Runs client slot)
    (hmove : Move s action t) : t.server.Runs client slot := by
  rcases server_step hmove with hsame | ⟨action, hstep⟩
  · rw [hsame]
    exact h
  · exact h.step hcustody (Server.step_move hstep)

/-- A client is inserted where `add_client` does it. -/
theorem effects_inserted {id : UInt64} (h : .inserted id client ∈ effects j s action) :
    s.server.callers (.connection j) = .addInsert client := by
  unfold effects at h
  split at h
  · split at h
    · split at h <;> simp at h
    · cases h
  · split at h
    · next i heq =>
        subst heq
        unfold Server.effects at h
        split at h
        · next client' hat =>
            cases List.mem_singleton.mp h
            exact hat
        · split at h <;> simp at h
        · cases h
    · cases h
  · cases h

/-- An inserted client has a thread. -/
theorem inserted_runs {quotes : Quotes} (hs : Reachable quotes s) {trace : List Effect}
    (hrun : Transition.Traces step (Succeeds j) (effects j) s trace t) {id : UInt64}
    (hinserted : .inserted id client ∈ trace) : ∃ slot, t.server.Runs client slot := by
  refine Transition.Traces.invariant_with (fun trace state => ∀ id client,
    .inserted id client ∈ trace → ∃ slot, state.server.Runs client slot) hrun
    (fun hrun => Server.Reachable.custody (Reachable.server (hs.trans hrun.reachable)))
    (fun id client h => by cases h) ?_ id client hinserted
  intro trace state next action hcustody hinv _ hstep id client hmem
  have hmove := step_move hstep
  obtain ⟨slot, hruns⟩ : ∃ slot, state.server.Runs client slot := by
    rcases List.mem_append.mp hmem with hmem | hmem
    · exact hinv id client hmem
    · exact hcustody.inserting (effects_inserted hmem)
  exact ⟨slot, runs_step hcustody hruns hmove⟩

/-- Whatever happens, the thread runs its client. -/
theorem Reachable.runs {quotes : Quotes} (hs : Reachable quotes s) (h : s.server.Runs client slot)
    (hrun : Transition.Reachable step s t) : t.server.Runs client slot :=
  Transition.Reaches.invariant_with (fun state : System => state.server.Runs client slot) hrun
    (fun hrun => Server.Reachable.custody (Reachable.server (hs.trans hrun)))
    h (fun hcustody _ hruns _ hstep => runs_step hcustody hruns (step_move hstep))

/-- A client that serves the `STREAM` command for this text. -/
theorem served_stream {quotes : Quotes} (hs : Reachable quotes s) {h h' : Handler}
    (hh : s.handlers j = some h) (hpoint : h.point = .readLine) {a line : Str} {addr : SocketAddr}
    (ha : SocketAddr.parse a = some addr) (hline : Text.trim line ≠ []) {now : Nat}
    (hread : step s (.input j (.read (.ok (streamTo a (Text.trim line))) now)) = some t)
    {trace : List Effect} (hrun : Transition.Traces step (Succeeds j) (effects j) t trace u)
    (hh' : u.handlers j = some h') (hdone : h'.point = .readLine ∨ h'.Returned) :
    ∃ id client, h'.clientId = some id ∧ client.tickers = Text.splitWhitespace (Text.trim line) ∧
      client.callback = .udp addr ∧ trace = [.inserted id client, .wrote "STREAM OK\n".toList] := by
  have ht : Reachable quotes t := hs.tail trivial hread
  obtain ⟨htrim, harguments⟩ := stream_to_arguments ha hline
  have hprefix : "STREAM ".toList <+: Text.trim (streamTo a (Text.trim line)) := by
    rw [htrim]
    exact ⟨a ++ ' ' :: Text.trim line, rfl⟩
  have hne : Text.trim (streamTo a (Text.trim line)) ≠ [] := by
    rw [htrim]
    exact List.append_ne_nil_of_right_ne_nil _ (List.cons_ne_nil _ _)
  cases step_move hread with
  | input _ _ h₀ start hh₀ hexternal hstep =>
      obtain rfl := Option.some.inj (hh.symm.trans hh₀)
      have hidle := (Reachable.holding hs).idle_of_input hh hexternal hstep
      rw [Handler.step_read hpoint hne] at hstep
      obtain rfl := Option.some.inj hstep
      have hstage := served ht (Function.update_self ..)
        hidle (Handler.dispatch_dispatched _) hrun hh'
      have hdispatch := Handler.dispatch_stream
        (h := { h with lastPing := now, point := .readLine }) hprefix harguments
      rw [hdispatch] at hstage
      -- of the four ways to finish, `handle_stream` has led to the one with a client
      rcases hstage.finished hdone with ⟨⟨_, hat⟩, -⟩ | ⟨_, hat, -⟩ |
        ⟨addr', id, client, hat, hcallback, rfl, htrace⟩ | ⟨_, _, hat, -⟩
      · cases hat
      · cases hat
      · obtain ⟨rfl, htickers⟩ := HandlerPoint.bind.inj hat
        exact ⟨id, client, rfl, htickers.symm, hcallback, htrace⟩
      · cases hat

/-- Every line of the configuration that is not blank has its quote in the map; the command that
names its trimmed text is answered `STREAM OK` and registers a client; and each round of that
client delivers a message for the line's quote if and only if the text is one word in upper
case. Upper case is that of Unicode 16.0; a compiler with a later version differs on the characters
that this version has added. -/
theorem configured_ticker {draws : Nat → F64 × UInt64} {bytes : List UInt8} {quotes : Quotes}
    (hconfig : Server.fromConfig draws (.ok bytes) = .ok (.init quotes)) {line : Str}
    (hline : .ok line ∈ readLines bytes) (hblank : Text.trim line ≠ [])
    {a : Str} {addr : SocketAddr}
    (ha : SocketAddr.parse a = some addr) (hs : Reachable quotes s) {h h' : Handler}
    (hh : s.handlers j = some h) (hpoint : h.point = .readLine) {now : Nat}
    (hread : step s (.input j (.read (.ok (streamTo a (Text.trim line))) now)) = some t)
    {trace : List Effect} (hrun : Transition.Traces step (Succeeds j) (effects j) t trace u)
    (hh' : u.handlers j = some h') (hdone : h'.point = .readLine ∨ h'.Returned) :
    (∃ q, quotes.lookup (tickerOf line) = some q ∧ q.ticker = tickerOf line) ∧
    ∃ id client slot, trace = [.inserted id client, .wrote "STREAM OK\n".toList] ∧
      h'.clientId = some id ∧ client.Drives slot ∧
      ∀ v, Transition.Reachable step u v → ∀ r ∈ (v.server.threads slot).done,
        ((∃ call ∈ r.calls, call.message.ticker = tickerOf line) ↔ Verbatim (Text.trim line)) := by
  obtain ⟨bytes', hbytes, -, hnamed, hkeys⟩ := from_config_ok hconfig
  cases hbytes
  have hkey : tickerOf line ∈ quotes :=
    (hkeys _).mpr ⟨line, hline, rfl, fun hnil =>
      hblank (Text.trim_eq_nil_iff.mpr (ticker_of_eq_nil.mp hnil))⟩
  obtain ⟨q, hq⟩ := Option.isSome_iff_exists.mp (AList.lookup_isSome.mpr hkey)
  refine ⟨⟨q, hq, hnamed _ q hq⟩, ?_⟩
  obtain ⟨id, client, hid, htickers, hcallback, rfl⟩ :=
    served_stream hs hh hpoint ha hblank hread hrun hh' hdone
  have ht : Reachable quotes t := hs.tail trivial hread
  obtain ⟨slot, hruns⟩ := inserted_runs ht hrun List.mem_cons_self
  refine ⟨id, client, slot, rfl, hid, hruns.drives, fun v hv r hr => ?_⟩
  have hu : Reachable quotes u := ht.trans hrun.reaches.reachable
  have hserver := Reachable.server (hu.trans hv)
  have hrunsLater := Reachable.runs hu hruns hv
  have hdelivered := Server.Reachable.delivers hserver (hrunsLater.callback.trans hcallback) hr
  rw [hrunsLater.tickers, htickers] at hdelivered
  have hround : r ∈ (v.server.threads slot).rounds := by
    unfold ClientThread.done at hr
    split at hr
    · exact List.mem_of_mem_tail hr
    · exact hr
  have hstocks := (Server.Reachable.stocked hserver hnamed).rounds slot r hround
  rw [← ticker_mem_words hblank, ← due_ticker hstocks hkey, ← hdelivered]
  simp [Round.delivered]

/-- The server starts, updates the only quote and notifies its only client, which works off the
round. -/
def oneUpdate (key : Str) : List SystemAction :=
  ([.call (.other 0) .start, .caller (.other 0), .caller (.other 0), .caller (.other 0),
    .background 0 .proceed, .background 0 .proceed, .background 0 .proceed,
    .background 0 (.visit key ⟨7⟩ 2 (some 5)), .background 0 .proceed, .background 0 (.order [0]),
    .background 0 .proceed, .client 0 .ok, .client 0 .ok, .client 0 .ok, .client 0 .ok] :
      List Action).map .server

/-- The client of this text at the port 50000 of this machine. -/
def localClient (w : Str) : Client :=
  (Client.new [w] (.udp (.v4 [127, 0, 0, 1] 50000))).start 0

/-- The server is configured with the one line `w`, connection 0 subscribes to it, and then a
round of its client takes place. -/
structure FirstRound (w key : Str) (quotes : Quotes) (s t u v : System)
    (h h' : Handler) : Prop where
  config : Server.fromConfig (fun _ => (⟨0⟩, 0)) (.ok (Text.encode w)) = .ok (.init quotes)
  connected : Transition.run step (init quotes) (connecting 0) = some s
  handler : s.handlers 0 = some h
  listening : h.point = .readLine
  read : step s (.input 0 (.read (.ok (streamTo "127.0.0.1:50000".toList w)) 0)) = some t
  served : Transition.Traces step (Succeeds 0) (effects 0) t
    [.inserted 0 (localClient w), .wrote "STREAM OK\n".toList] u
  handler' : u.handlers 0 = some h'
  listening' : h'.point = .readLine
  later : Transition.run step u (oneUpdate key) = some v

/-- From the bind to the reply. -/
theorem subscribed {w : Str} {t x y u : System}
    (hasked : Transition.run step t (untilAnswer 0) = some x)
    (hout : Transition.outputs step (effects 0) t (untilAnswer 0) = [.inserted 0 (localClient w)])
    (hanswer : x.answerOf 0 = some (.added 0)) (htake : step x (.answer 0) = some y)
    (hreply : effects 0 y (.input 0 (.wrote (.ok ()))) = [.wrote "STREAM OK\n".toList])
    (hwrote : step y (.input 0 (.wrote (.ok ()))) = some u) :
    Transition.Traces step (Succeeds 0) (effects 0) t
      [.inserted 0 (localClient w), .wrote "STREAM OK\n".toList] u := by
  have hbefore : Transition.Traces step (Succeeds 0) (effects 0) t _ x :=
    Transition.traces_of_run hasked (by simp [untilAnswer, Succeeds])
  have hanswered : Succeeds 0 x (.answer 0) := by
    intro _ id recorded e hfail
    rw [hanswer] at hfail
    cases hfail
  have hwritten : Succeeds 0 y (.input 0 (.wrote (.ok ()))) := trivial
  have hafter := (hbefore.tail hanswered htake).tail hwritten hwrote
  rw [hout, hreply] at hafter
  exact hafter

theorem configured_ticker_aapl : ∃ quotes s t u v h h' r call,
    FirstRound "AAPL".toList "AAPL".toList quotes s t u v h h' ∧ (v.server.threads 0).done = [r] ∧
    call ∈ r.calls ∧ call.message.ticker = "AAPL".toList := by
  obtain ⟨quotes, s, t, u, v, h, h', hfirst, r, hr⟩ : ∃ quotes s t u v h h',
      FirstRound "AAPL".toList "AAPL".toList quotes s t u v h h' ∧
      ∃ r, (v.server.threads 0).done = [r] :=
    ⟨_, _, _, _, _, _, _,
      ⟨rfl, rfl, rfl, rfl, rfl, subscribed rfl rfl rfl rfl rfl rfl, rfl, rfl, rfl⟩,
      _, rfl⟩
  have hs : Reachable quotes s := Transition.reachable_of_run hfirst.connected
  have hv : Transition.Reachable step u v := Transition.reachable_of_run hfirst.later
  have hline : .ok "AAPL".toList ∈ readLines (Text.encode "AAPL".toList) := by decide
  have haddr : SocketAddr.parse "127.0.0.1:50000".toList =
      some (.v4 [127, 0, 0, 1] 50000) := by decide
  obtain ⟨-, id, client, slot, htrace, -, hdrives, hrounds⟩ := configured_ticker hfirst.config hline
    (by decide) haddr hs hfirst.handler hfirst.listening hfirst.read hfirst.served hfirst.handler'
    (.inl hfirst.listening')
  cases htrace
  obtain rfl : 0 = slot := Option.some.inj hdrives.1
  obtain ⟨call, hcall, hticker⟩ :=
    (hrounds v hv r (by rw [hr]; exact List.mem_cons_self)).mpr (by decide)
  exact ⟨quotes, s, t, u, v, h, h', r, call, hfirst, hr, hcall, hticker⟩

/-- A ticker that the configuration has in lower case gets no messages under the text that is
written there. -/
theorem lower_case_is_missed : ∃ quotes s t u v h h' r,
    FirstRound "aapl".toList "AAPL".toList quotes s t u v h h' ∧
    .ok "aapl".toList ∈ readLines (Text.encode "aapl".toList) ∧
    (quotes.lookup (tickerOf "aapl".toList)).isSome ∧ (v.server.threads 0).done = [r] ∧
    ¬ ∃ call ∈ r.calls, call.message.ticker = tickerOf "aapl".toList := by
  obtain ⟨quotes, s, t, u, v, h, h', hfirst, hquote, r, hr, hcalls⟩ : ∃ quotes s t u v h h',
      FirstRound "aapl".toList "AAPL".toList quotes s t u v h h' ∧
      (quotes.lookup (tickerOf "aapl".toList)).isSome ∧
      ∃ r, (v.server.threads 0).done = [r] ∧ r.calls = [] :=
    ⟨_, _, _, _, _, _, _,
      ⟨rfl, rfl, rfl, rfl, rfl, subscribed rfl rfl rfl rfl rfl rfl, rfl, rfl, rfl⟩,
      rfl, _, rfl, rfl⟩
  refine ⟨quotes, s, t, u, v, h, h', r, hfirst, by decide, hquote, hr, ?_⟩
  rintro ⟨call, hcall, -⟩
  rw [hcalls] at hcall
  cases hcall

end System

end QuoteStreamer
