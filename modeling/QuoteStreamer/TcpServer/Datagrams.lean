import QuoteStreamer.QuoteServer.Orphans
import QuoteStreamer.TcpServer.Cleanup
import QuoteStreamer.TcpServer.Subscription

/-!
# What goes out over UDP

`wire` shows what a peer can see of the system at the two ends of a stream: the `STREAM` lines that
the handlers read, the `STOP OK`s that they write, and the datagrams that the client threads send.
A request is open from its line to the next `STOP OK` of its connection. As long as no connection
asks for a second stream while it has one, every datagram is for an open request: `Provenance`
carries each request from the handler to the caller inside `add_client` and on to the client thread,
and the thread has come to its end before `STOP OK` is written.
-/

namespace QuoteStreamer

/-- What can be seen of the streams. -/
inductive Wire where
  /-- The handler of connection `j` reads a command that `handle_stream` accepts. -/
  | asked (j : Nat) (addr : SocketAddr) (tickers : List Str)
  /-- `STOP OK` is written to connection `j`. -/
  | stopped (j : Nat)
  /-- A callback of `handle_stream` sends a message. -/
  | datagram (addr : SocketAddr) (message : Message)

/-- Connection `j` has asked for these tickers at this address, and has not been told since that
its stream is stopped. -/
def OpenRequest (j : Nat) (addr : SocketAddr) (tickers : List Str) (trace : List Wire) : Prop :=
  ∃ before after, trace = before ++ .asked j addr tickers :: after ∧ .stopped j ∉ after

section OpenRequest

variable {j : Nat} {addr : SocketAddr} {tickers : List Str} {trace events : List Wire}

theorem open_asked : OpenRequest j addr tickers (trace ++ [.asked j addr tickers]) :=
  ⟨trace, [], rfl, by simp⟩

/-- A request stays open until `STOP OK`. -/
theorem OpenRequest.append (h : OpenRequest j addr tickers trace) (hnot : .stopped j ∉ events) :
    OpenRequest j addr tickers (trace ++ events) := by
  obtain ⟨before, after, rfl, hafter⟩ := h
  refine ⟨before, after ++ events, by simp, ?_⟩
  simp [hafter, hnot]

end OpenRequest

/-- The stream that a trimmed line asks for: it is dispatched to `handle_stream`, which accepts its
arguments. -/
def Handler.asks (msg : Str) : Option (SocketAddr × List Str) :=
  if Text.startsWith msg "STREAM ".toList then streamArguments msg else none

/-- The stream that the handler is setting up. -/
def Handler.wants (h : Handler) : Option (SocketAddr × List Str) :=
  match h.point with
  | .bind addr tickers | .addClient addr tickers => some (addr, tickers)
  | _ => none

/-- The stream that the caller is setting up. -/
def Call.wants : Call → Option (List Str × Callback)
  | .addLock tickers callback | .addStart tickers callback => some (tickers, callback)
  | _ => none

/-- A removal that has found its client is one. -/
theorem Call.removing_of_removes {call : Call} {id : UInt64} (h : call.removes = some id) :
    call.removing = some id := by
  cases call with
  | removeSend | removeJoin => exact h
  | dropSend _ reply | dropJoin _ reply | unlock reply => cases reply <;> exact h
  | _ => cases h

namespace Handler

variable {h next : Handler}

theorem wants_dispatch {msg : Str} {stream : SocketAddr × List Str}
    (hwants : (h.dispatch msg).wants = some stream) : asks msg = some stream := by
  unfold dispatch at hwants
  split at hwants
  · cases hwants
  · split at hwants
    · rename_i hstream
      rw [asks, if_pos hstream]
      cases harguments : streamArguments msg with
      | some arguments =>
          rw [handle_stream_accepted harguments] at hwants
          exact hwants
      | none =>
          obtain ⟨text, hfail⟩ := handle_stream_rejected (h := h) harguments
          rw [hfail] at hwants
          cases hwants
    · split at hwants
      · unfold handleStop at hwants
        split at hwants <;> cases hwants
      · cases hwants

/-- A handler sets up a stream that it was setting up before, or has just read the command. -/
theorem wants_step {input : HandlerInput} {stream : SocketAddr × List Str}
    (hstep : h.step input = some next) (hwants : next.wants = some stream) :
    (h.wants = some stream ∧ ∃ result, input = .bound result) ∨
      ∃ line now, input = .read (.ok line) now ∧ asks (Text.trim line) = some stream := by
  unfold step at hstep
  split at hstep <;> cases hstep <;> rename_i hpoint
  case h_5 result now =>
    unfold received at hwants
    split at hwants
    · cases hwants
    · dsimp only at hwants
      split at hwants
      · cases hwants
      · exact .inr ⟨_, now, rfl, wants_dispatch hwants⟩
    · split at hwants
      · unfold disconnect at hwants
        split at hwants <;> cases hwants
      · cases hwants
    · unfold disconnect at hwants
      split at hwants <;> cases hwants
  case h_8 addr tickers =>
    cases hwants
    exact .inl ⟨by rw [wants, hpoint], _, rfl⟩
  case h_12 cause result =>
    unfold removed at hwants
    split at hwants <;> cases hwants
  all_goals cases hwants

end Handler

namespace Server

variable {s t : Server} {action : Action} {k : Caller} {client : Client} {id : UInt64} {slot : Nat}
  {stream : List Str × Callback}

/-- The client of this thread was registered by this caller, or is about to be. -/
def Brought (s : Server) (k : Caller) (slot : Nat) : Prop :=
  (∃ id, .added k id slot ∈ s.history) ∨
    ∃ client, s.callers k = .addInsert client ∧ client.Drives slot

theorem brought_step (hmove : Move s action t) (h : s.Brought k slot) : t.Brought k slot := by
  rcases h with ⟨id, hmem⟩ | ⟨client, hat, hdrives⟩
  · exact .inl ⟨id, System.history_grows hmove hmem⟩
  · have hstays : ∀ {j : Caller} {call : Call}, t.callers = Function.update s.callers j call →
        s.callers j ≠ .addInsert client → t.Brought k slot := by
      intro j call hcallers hj
      refine .inr ⟨client, ?_, hdrives⟩
      rw [hcallers]
      exact Locks.stays hat hj
    cases hmove with
    | addInsert j other hat' | addReplace j other _ hat' =>
        by_cases hj : k = j
        · subst hj
          rw [hat] at hat'
          cases hat'
          refine .inl ⟨s.clientsCount, ?_⟩
          simp [setCall, hdrives.1]
        · refine .inr ⟨client, ?_, hdrives⟩
          rw [set_call_of_ne hj]
          exact hat
    | call j _ hat' | take j _ hat' | addLock j _ _ hat' | addStart j _ _ hat' | removeLock j _ hat'
    | removeTake j _ _ hat' | removeNone j _ hat' | removeSend j _ _ _ hat'
    | removeSendFails j _ _ _ hat' | removeJoin j _ _ hat' | dropSend j _ _ hat'
    | dropJoin j _ _ hat' | unlock j _ hat' | startLock j hat' | startRunning j hat'
    | startSpawn j hat' | startStore j _ hat' | shutdownFlag j hat' | shutdownLock j hat'
    | shutdownTake j _ hat' | shutdownNone j hat' | shutdownJoin j _ hat' =>
        exact hstays rfl (by rw [hat']; simp)
    | _ => exact .inr ⟨client, hat, hdrives⟩

/-- A caller sets up a stream that it was setting up before, or has just made the call. -/
theorem wants_step (hmove : Move s action t) (hwants : (t.callers k).wants = some stream) :
    (s.callers k).wants = some stream ∨
      ∃ request, action = .call k request ∧ request.entry.wants = some stream := by
  have hself : ∀ {j : Caller} {call : Call}, t.callers = Function.update s.callers j call →
      (call.wants = some stream → (s.callers j).wants = some stream) →
      (s.callers k).wants = some stream := by
    intro j call hcallers hcall
    rw [hcallers] at hwants
    by_cases hk : k = j
    · subst hk
      rw [Function.update_self] at hwants
      exact hcall hwants
    · rwa [Function.update_of_ne hk] at hwants
  cases hmove with
  | call j request =>
      by_cases hk : k = j
      · subst hk
        rw [set_call_self] at hwants
        exact .inr ⟨request, rfl, hwants⟩
      · rw [set_call_of_ne hk] at hwants
        exact .inl hwants
  | addLock j tickers callback hat =>
      exact .inl (hself rfl fun hcall => by rw [hat]; exact hcall)
  | take | addStart | addInsert | addReplace | removeLock | removeTake | removeNone | removeSend
  | removeSendFails | removeJoin | dropSend | dropJoin | unlock | startLock | startRunning
  | startSpawn | startStore | shutdownFlag | shutdownLock | shutdownTake | shutdownNone
  | shutdownJoin => exact .inl (hself rfl fun hnone => by cases hnone)
  | _ => exact .inl hwants

/-- A new client thread is that of a caller inside `add_client`. -/
theorem thread_origin (hmove : Move s action t) (hnew : s.spawned ≤ slot)
    (hslot : slot < t.spawned) : ∃ k tickers callback,
      (s.callers k).wants = some (tickers, callback) ∧ (t.threads slot).tickers = tickers ∧
      (t.threads slot).callback = callback ∧ t.Brought k slot := by
  cases hmove with
  | addStart k tickers callback hat =>
      obtain rfl : slot = s.spawned := Nat.le_antisymm (Nat.le_of_lt_succ hslot) hnew
      refine ⟨k, tickers, callback, by rw [hat]; rfl, ?_, ?_,
        .inr ⟨_, set_call_self .., Client.start_drives ..⟩⟩ <;> simp [setCall, ClientThread.spawn]
  | _ => exact absurd hslot (Nat.not_lt.mpr hnew)

/-- The recorded slot is that of the id. -/
theorem Recorded.key (h : s.Recorded id (some slot)) : id = .ofNat slot := by
  rcases h with ⟨-, hnone⟩ | ⟨client, other, htook, heq⟩
  · cases hnone
  · cases heq
    exact htook.key

/-- Who removes the client of a thread names the id of this thread. -/
theorem removes_key {quotes : Quotes} (hs : Reachable quotes s)
    (hremoves : (s.callers k).removes = some id) (hclient : (s.callers k).client = some client)
    (hdrives : client.Drives slot) : id = .ofNat slot := by
  have htaken := Reachable.taken hs k
  have hsound := (Reachable.custody hs).calls k
  have hdriving : ¬ (client.tx = none) := by simp [hdrives.1]
  cases hat : s.callers k <;> rw [hat] at hremoves hclient htaken hsound <;> try cases hclient
  case addInsert => cases hremoves
  case removeSend | removeJoin =>
    cases hremoves
    obtain ⟨⟨other, htook⟩, -⟩ := htaken
    obtain rfl := htook.drives.slot_eq hdrives
    exact htook.key
  case dropSend reply =>
    cases reply <;> cases hremoves
    rcases hsound with ⟨hnone, -⟩ | ⟨other, hheld, -, hconcerns⟩
    · exact absurd hnone hdriving
    · obtain rfl := hheld.drives.slot_eq hdrives
      obtain rfl : _ = some other := hconcerns
      exact htaken.1.key
  case dropJoin reply =>
    cases reply <;> cases hremoves
    rcases hsound with ⟨hnone, -⟩ | ⟨other, hheld, hconcerns, -⟩
    · exact absurd hnone hdriving
    · obtain rfl := hheld.drives.slot_eq hdrives
      obtain rfl : _ = some other := hconcerns
      exact htaken.1.key

/-- An entry about an addition was there before, or the caller is about to return its id. -/
theorem added_origin (hmove : Move s action t) (hmem : .added k id slot ∈ t.history) :
    .added k id slot ∈ s.history ∨ (t.callers k).adds = some id := by
  cases hmove with
  | addInsert j client hat | addReplace j client old hat =>
      simp only [setCall, List.mem_cons, Event.added.injEq, reduceCtorEq, false_or] at hmem
      rcases hmem with ⟨rfl, rfl, -⟩ | hmem
      · exact .inr (by rw [set_call_self]; rfl)
      · exact .inl hmem
  | removeTake j id' client hat =>
      simp only [setCall, List.mem_cons, reduceCtorEq, false_or] at hmem
      exact .inl hmem
  | notifyLock =>
      simp only [setBackground, List.mem_cons, reduceCtorEq, false_or] at hmem
      exact .inl hmem
  | _ => exact .inl hmem

/-- The id is returned until the answer is taken. -/
theorem adds_stays (hmove : Move s action t) (hadds : (s.callers k).adds = some id)
    (htake : action ≠ .take k) : (t.callers k).adds = some id := by
  rcases callers_step (k := k) hmove with hsame | rfl | ⟨request, rfl⟩ | rfl
  · rw [hsame]
    exact hadds
  · exact (added_step hmove hadds).1
  · cases hmove with
    | call _ _ hidle =>
        rw [hidle] at hadds
        cases hadds
  · exact absurd rfl htake

end Server

namespace System

/-- What a step shows. -/
def wire (s : System) : SystemAction → List Wire
  | .input j (.read (.ok line) _) =>
      match Handler.asks (Text.trim line) with
      | some (addr, tickers) => [.asked j addr tickers]
      | none => []
  | .input j (.wrote (.ok ())) =>
      match s.handlers j with
      | some h => if h.point = .write "STOP OK\n".toList then [.stopped j] else []
      | none => []
  | .server (.client t _) =>
      match (s.server.threads t).point, (s.server.threads t).callback with
      | .round (ticker :: _), .udp addr =>
          match s.server.quotes.lookup ticker with
          | some q => [.datagram addr q.message]
          | none => []
      | _, _ => []
  | _ => []

/-- No connection asks for a second stream while it has one, and only handlers pass callbacks that
send datagrams. -/
def Polite (s : System) (action : SystemAction) : Prop :=
  (∀ j, Single j s action) ∧
    ∀ n tickers addr, action ≠ .server (.call (.other n) (.addClient tickers (.udp addr)))

variable {s t : System} {action : SystemAction} {j : Nat} {id : UInt64} {slot : Nat}
  {trace : List Wire} {addr : SocketAddr} {message : Message}

theorem wire_length (s : System) (action : SystemAction) : (s.wire action).length ≤ 1 := by
  unfold wire
  repeat' split
  all_goals simp

theorem stopped_mem_wire (h : .stopped j ∈ s.wire action) : ∃ handler,
    action = .input j (.wrote (.ok ())) ∧ s.handlers j = some handler ∧
      handler.point = .write "STOP OK\n".toList := by
  unfold wire at h
  split at h
  · split at h <;> simp at h
  · split at h
    · rename_i i _ handler hhandler
      split at h <;> rename_i hpoint
      · cases List.mem_singleton.mp h
        exact ⟨handler, rfl, hhandler, hpoint⟩
      · cases h
    · cases h
  · split at h
    · split at h <;> simp at h
    · cases h
  · cases h

theorem datagram_mem_wire (h : .datagram addr message ∈ s.wire action) :
    ∃ slot result ticker rest q, action = .server (.client slot result) ∧
      (s.server.threads slot).point = .round (ticker :: rest) ∧
      (s.server.threads slot).callback = .udp addr ∧
      s.server.quotes.lookup ticker = some q ∧ message = q.message := by
  unfold wire at h
  split at h
  · split at h <;> simp at h
  · split at h
    · split at h <;> simp at h
    · cases h
  · rename_i slot result
    split at h
    · rename_i ticker rest addr' hpoint hcallback
      split at h
      · rename_i q hq
        cases List.mem_singleton.mp h
        exact ⟨slot, result, ticker, rest, q, rfl, hpoint, hcallback, hq, rfl⟩
      · cases h
    · cases h
  · cases h

/-! ## A stopped stream is at its end -/

/-- The ids that a connection has registered have been returned to it, or are about to be. -/
def Credited (s : System) : Prop :=
  ∀ j id slot, .added (.connection j) id slot ∈ s.server.history →
    id ∈ s.registered j ∨ (s.server.callers (.connection j)).adds = some id

theorem credited_step (h : s.Credited) (hmove : Move s action t) : t.Credited := by
  intro j id slot hmem
  cases hmove with
  | accept | input => exact h j id slot hmem
  | request i handler request hat hrequest hidle =>
      rcases h j id slot hmem with hid | hadds
      · exact .inl hid
      · refine .inr ?_
        by_cases hj : j = i
        · subst hj
          rw [hidle] at hadds
          cases hadds
        · rwa [Server.set_call_of_ne (by simpa using hj)]
  | answerAdded i handler next newId hat hreply =>
      by_cases hj : j = i
      · subst hj
        refine .inl ?_
        show id ∈ Function.update s.registered j (newId :: s.registered j) j
        rw [Function.update_self]
        rcases h j id slot hmem with hid | hadds
        · exact List.mem_cons_of_mem _ hid
        · rw [hreply] at hadds
          cases hadds
          exact List.mem_cons_self
      · rcases h j id slot hmem with hid | hadds
        · refine .inl ?_
          show id ∈ Function.update s.registered i (newId :: s.registered i) j
          rwa [Function.update_of_ne hj]
        · exact .inr (by rwa [Server.set_call_of_ne (by simpa using hj)])
  | answerRemoved i handler next oldId recorded result hat hreply =>
      rcases h j id slot hmem with hid | hadds
      · refine .inl ?_
        show id ∈ Function.update s.registered i (s.registered i) j
        rwa [Function.update_eq_self]
      · by_cases hj : j = i
        · subst hj
          rw [hreply] at hadds
          cases hadds
        · exact .inr (by rwa [Server.set_call_of_ne (by simpa using hj)])
  | server action next hallowed hstep =>
      have hmove := Server.step_move hstep
      rcases Server.added_origin hmove hmem with hold | hnew
      · rcases h j id slot hold with hid | hadds
        · exact .inl hid
        · refine .inr (Server.adds_stays hmove hadds ?_)
          rintro rfl
          cases hallowed
      · exact .inr hnew

theorem Reachable.credited {quotes : Quotes} (h : Reachable quotes s) : s.Credited :=
  Transition.Reaches.invariant Credited h (fun _ _ _ hmem => by cases hmem)
    fun hinv _ hstep => credited_step hinv (step_move hstep)

/-- A thread that is being removed belongs to the connection that is at `remove_client`. -/
theorem Holding.remover_owns {quotes : Quotes} (hholding : s.Holding)
    (hserver : Server.Reachable quotes s.server) (hbound : s.server.spawned ≤ 2 ^ 64) {k : Caller}
    {client : Client} (hremoves : (s.server.callers k).removes ≠ none)
    (hclient : (s.server.callers k).client = some client) (hdrives : client.Drives slot)
    {owner : Caller} (hadded : .added owner id slot ∈ s.server.history) : k = owner := by
  have hdeeds := Server.Reachable.deeds hserver
  obtain ⟨removed, hremoved⟩ := Option.ne_none_iff_exists'.mp hremoves
  have hsame : removed = id := by
    rw [Server.removes_key hserver hremoved hclient hdrives, (hdeeds.key _ _ _ hadded).1]
  subst hsame
  have hremoving := Call.removing_of_removes hremoved
  cases k with
  | connection i =>
      obtain ⟨-, other, hmem⟩ := hholding.removing_owned hremoving
      exact (hdeeds.caller_eq hbound hmem hadded).1
  | other n =>
      rw [hholding.others n] at hremoving
      cases hremoving

/-- When `STOP OK` is about to be written, every thread of a client that the connection has
registered has come to its end. -/
theorem stopped_finished {quotes : Quotes} (hs : Transition.Reaches step (Single j) (init quotes) s)
    (hbound : s.server.spawned ≤ 2 ^ 64) {h : Handler} (hh : s.handlers j = some h)
    (hpoint : h.point = .write "STOP OK\n".toList)
    (hadded : .added (.connection j) id slot ∈ s.server.history) : s.server.Finished slot := by
  have hserver := Reachable.server hs.reachable
  have hholding := Reachable.holding hs.reachable
  have hsole := sole_of_reaches hs hbound
  have hdeeds := Server.Reachable.deeds hserver
  obtain ⟨hkey, hslot⟩ := hdeeds.key _ _ _ hadded
  have hidle : s.server.callers (.connection j) = .idle := by
    rcases hholding.coupled j with hidle | ⟨h', hh', hcall⟩
    · exact hidle
    · obtain rfl := Option.some.inj (hh.symm.trans hh')
      rcases hcall with ⟨_, _, hat, -⟩ | ⟨_, _, hat, -⟩ <;> simp [hpoint] at hat
  cases Server.Reachable.tended hserver slot hslot with
  | finished hfinished => exact hfinished
  | enlisted henlisted =>
      obtain ⟨id', client, hfound, hdrives⟩ := henlisted
      obtain ⟨k, hadded'⟩ := hdeeds.registered id' client slot hfound hdrives
      rw [(hdeeds.key _ _ _ hadded').1, ← hkey] at hfound
      rcases Reachable.credited hs.reachable j id slot hadded with hid | hadds
      · obtain ⟨h', hh', hheld⟩ := hsole.only id client hid hfound
        obtain rfl := Option.some.inj (hh.symm.trans hh')
        rw [Handler.holding, hpoint] at hheld
        have hnone := hsole.stopping h hh hpoint
        rw [show h.clientId = some id from hheld] at hnone
        cases hnone
      · rw [hidle] at hadds
        cases hadds
  | inHand k client hclient hdrives hcause =>
      rcases hcause with ⟨new, hat⟩ | hremoves | ⟨id', hreplaced⟩
      · rw [hat] at hclient
        cases hclient
        exact absurd hdrives (hdeeds.inserted _ _ _ k _ hadded hat)
      · obtain rfl := hholding.remover_owns hserver hbound hremoves hclient hdrives hadded
        rw [hidle] at hclient
        cases hclient
      · exact absurd hreplaced (hdeeds.replaced hbound _ _)

/-! ## From the request to the datagram -/

/-- Every stream that is set up, and every thread that sends datagrams, is for an open request. -/
structure Provenance (trace : List Wire) (s : System) : Prop where
  handlers : ∀ j h addr tickers, s.handlers j = some h → h.wants = some (addr, tickers) →
    OpenRequest j addr tickers trace
  calls : ∀ j addr tickers, (s.server.callers (.connection j)).wants = some (tickers, .udp addr) →
    OpenRequest j addr tickers trace
  others : ∀ n addr tickers, (s.server.callers (.other n)).wants ≠ some (tickers, .udp addr)
  threads : ∀ slot < s.server.spawned, ∀ addr, (s.server.threads slot).callback = .udp addr →
    s.server.Finished slot ∨ ∃ j, OpenRequest j addr (s.server.threads slot).tickers trace ∧
      s.server.Brought (.connection j) slot

/-- The handler of a connection moves outside its calls. -/
theorem Provenance.input {quotes : Quotes} (h : Provenance trace s)
    (hs : Transition.Reaches step Polite (init quotes) s) (hbound : s.server.spawned ≤ 2 ^ 64)
    {input : HandlerInput} {handler next : Handler} (hh : s.handlers j = some handler)
    (hexternal : input.isAnswer = false) (hstep : handler.step input = some next) :
    Provenance (trace ++ s.wire (.input j input)) (s.setHandler j next) := by
  have hidle : s.server.callers (.connection j) = .idle :=
    (Reachable.holding hs.reachable).idle_of_input hh hexternal hstep
  have hother : ∀ {i : Nat}, i ≠ j → .stopped i ∉ s.wire (.input j input) := by
    intro i hi hmem
    obtain ⟨_, haction, -⟩ := stopped_mem_wire hmem
    cases haction
    exact hi rfl
  refine ⟨fun i h' addr tickers hh' hwants => ?_, fun i addr tickers hwants => ?_, h.others,
    fun slot hslot addr hcallback => ?_⟩
  · by_cases hi : i = j
    · subst hi
      obtain rfl : next = h' := by simpa [setHandler] using hh'
      rcases Handler.wants_step hstep hwants with
        ⟨hbefore, result, rfl⟩ | ⟨line, now, rfl, hcommand⟩
      · have hopen := h.handlers i handler addr tickers hh hbefore
        simpa [wire] using hopen
      · simpa [wire, hcommand] using open_asked
    · have hsame : s.handlers i = some h' := by simpa [setHandler, hi] using hh'
      exact (h.handlers i h' addr tickers hsame hwants).append (hother hi)
  · by_cases hi : i = j
    · subst hi
      rw [show (s.setHandler i next).server.callers = s.server.callers from rfl, hidle] at hwants
      cases hwants
    · exact (h.calls i addr tickers hwants).append (hother hi)
  · rcases h.threads slot hslot addr hcallback with hfinished | ⟨i, hopen, hbrought⟩
    · exact .inl hfinished
    · by_cases hstopped : .stopped i ∈ s.wire (.input j input)
      · -- the connection is told that its stream is stopped, and all its threads have ended
        obtain ⟨stopping, haction, hstopping, hpoint⟩ := stopped_mem_wire hstopped
        cases haction
        rcases hbrought with ⟨id, hadded⟩ | ⟨client, hat, -⟩
        · have hfinished : s.server.Finished slot := stopped_finished
            (hs.mono fun _ _ hpolite => hpolite.1 j) hbound hstopping hpoint hadded
          exact .inl hfinished
        · rw [hidle] at hat
          cases hat
      · exact .inr ⟨i, hopen.append hstopped, hbrought⟩

/-- A caller of the server moves, or a thread of it. -/
theorem Provenance.server_step (h : Provenance trace s) (hcustody : s.server.Custody)
    {action : Action} {next : Server} (hmove : Server.Move s.server action next)
    (hothers : ∀ n tickers addr, action ≠ .call (.other n) (.addClient tickers (.udp addr)))
    {events : List Wire} (hevents : ∀ i, .stopped i ∉ events)
    (hconnections : ∀ j request, action ≠ .call (.connection j) request) :
    Provenance (trace ++ events) { s with server := next } := by
  have hcalls : ∀ j addr tickers, (next.callers (.connection j)).wants =
      some (tickers, .udp addr) → OpenRequest j addr tickers trace := by
    intro j addr tickers hwants
    rcases Server.wants_step hmove hwants with hbefore | ⟨request, rfl, -⟩
    · exact h.calls j addr tickers hbefore
    · exact absurd rfl (hconnections j request)
  refine ⟨fun i h' addr tickers hh hwants => (h.handlers i h' addr tickers hh hwants).append
    (hevents i), fun j addr tickers hwants => (hcalls j addr tickers hwants).append (hevents j),
    fun n addr tickers hwants => ?_, fun slot hslot addr hcallback => ?_⟩
  · rcases Server.wants_step hmove hwants with hbefore | ⟨request, rfl, hentry⟩
    · exact h.others n addr tickers hbefore
    · cases request with
      | addClient tickers' callback =>
          cases hentry
          exact absurd rfl (hothers n tickers addr)
      | _ => cases hentry
  · by_cases hnew : slot < s.server.spawned
    · obtain ⟨htickers, hsame⟩ := (Server.thread_step hcustody hmove slot).frame hnew
      show next.Finished slot ∨ ∃ j,
        OpenRequest j addr (next.threads slot).tickers (trace ++ events) ∧
          next.Brought (.connection j) slot
      rw [htickers]
      rcases h.threads slot hnew addr (hsame.symm.trans hcallback) with hfinished | ⟨i, hopen, hby⟩
      · exact .inl (Server.finished_step hcustody hmove hfinished)
      · exact .inr ⟨i, hopen.append (hevents i), Server.brought_step hmove hby⟩
    · obtain ⟨k, tickers, callback, hwants, htickers, hsame, hby⟩ :=
        Server.thread_origin hmove (Nat.not_lt.mp hnew) hslot
      have hudp : callback = .udp addr := hsame.symm.trans hcallback
      subst hudp
      cases k with
      | connection j =>
          refine .inr ⟨j, ?_, hby⟩
          show OpenRequest j addr (next.threads slot).tickers (trace ++ events)
          rw [htickers]
          exact (h.calls j addr tickers hwants).append (hevents j)
      | other n => exact absurd hwants (h.others n addr tickers)

/-- The caller of a connection enters a method or leaves one. -/
theorem Provenance.set_call (h : Provenance trace s) {call : Call}
    (hserver : t.server = s.server.setCall (.connection j) call)
    (hthen : ∀ client, s.server.callers (.connection j) ≠ .addInsert client)
    (hhandlers : ∀ i h' addr tickers, t.handlers i = some h' → h'.wants = some (addr, tickers) →
      OpenRequest i addr tickers trace)
    (hcall : ∀ addr tickers, call.wants = some (tickers, .udp addr) →
      OpenRequest j addr tickers trace) : Provenance trace t := by
  refine ⟨hhandlers, fun i addr tickers hwants => ?_, fun n addr tickers => ?_,
    fun slot hslot addr hcallback => ?_⟩
  · by_cases hi : i = j
    · subst hi
      rw [hserver, Server.set_call_self] at hwants
      exact hcall addr tickers hwants
    · rw [hserver, Server.set_call_of_ne (by simpa using hi)] at hwants
      exact h.calls i addr tickers hwants
  · rw [hserver, Server.set_call_of_ne (by simp)]
    exact h.others n addr tickers
  · rw [hserver] at hslot hcallback ⊢
    rcases h.threads slot hslot addr hcallback with hfinished | ⟨i, hopen, hbrought⟩
    · exact .inl hfinished
    · refine .inr ⟨i, hopen, ?_⟩
      rcases hbrought with hadded | ⟨client, hat, hdrives⟩
      · exact .inl hadded
      · exact .inr ⟨client, Locks.stays hat (hthen client), hdrives⟩

theorem provenance_step {quotes : Quotes} (h : Provenance trace s)
    (hs : Transition.Reaches step Polite (init quotes) s) (hbound : s.server.spawned ≤ 2 ^ 64)
    (hpolite : Polite s action) (hmove : Move s action t) :
    Provenance (trace ++ s.wire action) t := by
  have hcustody := Server.Reachable.custody (Reachable.server hs.reachable)
  -- the other handlers are as they were, and this one is setting nothing up
  have hhandlers : ∀ {j : Nat} {next : Handler}, next.wants = none → ∀ i h' addr tickers,
      (s.setHandler j next).handlers i = some h' → h'.wants = some (addr, tickers) →
      OpenRequest i addr tickers trace := by
    intro j next hnone i h' addr tickers hh hwants
    by_cases hi : i = j
    · subst hi
      obtain rfl : next = h' := by simpa [setHandler] using hh
      rw [hnone] at hwants
      cases hwants
    · exact h.handlers i h' addr tickers (by simpa [setHandler, hi] using hh) hwants
  have hanswered : ∀ {handler next : Handler} {input : HandlerInput}, input.isAnswer = true →
      handler.step input = some next → next.wants = none := by
    intro handler next input hanswer hstep
    by_contra hwants
    obtain ⟨stream, hstream⟩ := Option.ne_none_iff_exists'.mp hwants
    rcases Handler.wants_step hstep hstream with ⟨-, result, rfl⟩ | ⟨line, now, rfl, -⟩ <;>
      cases hanswer
  cases hmove with
  | accept j now hnew =>
      rw [show s.wire (.accept j now) = [] from rfl, List.append_nil]
      exact ⟨hhandlers rfl, h.calls, h.others, h.threads⟩
  | input j input handler next hh hexternal hstep => exact h.input hs hbound hh hexternal hstep
  | request j handler request hh hrequest hidle =>
      rw [show s.wire (.request j) = [] from rfl, List.append_nil]
      refine h.set_call rfl (by rw [hidle]; simp) h.handlers fun addr tickers hwants => ?_
      refine h.handlers j handler addr tickers hh ?_
      unfold Handler.request at hrequest
      split at hrequest <;> cases hrequest <;> rename_i hpoint
      · cases hwants
        rw [Handler.wants, hpoint]
      · cases hwants
  | answerAdded j handler next id hh hreply hstep =>
      rw [show s.wire (.answer j) = [] from rfl, List.append_nil]
      exact h.set_call rfl (by rw [hreply]; simp) (hhandlers (hanswered rfl hstep))
        (by simp [Call.wants])
  | answerRemoved j handler next id recorded result hh hreply hstep =>
      rw [show s.wire (.answer j) = [] from rfl, List.append_nil]
      exact h.set_call rfl (by rw [hreply]; simp) (hhandlers (hanswered rfl hstep))
        (by simp [Call.wants])
  | server action next hallowed hstep =>
      refine h.server_step hcustody (Server.step_move hstep) (fun n tickers addr heq => ?_)
        (fun i hmem => ?_) fun j request heq => ?_
      · exact hpolite.2 n tickers addr (congrArg SystemAction.server heq)
      · obtain ⟨_, haction, -⟩ := stopped_mem_wire hmem
        cases haction
      · subst heq
        cases hallowed

/-- In every run without a second stream on one connection, as long as ids do not wrap around. -/
theorem provenance_of_traces {quotes : Quotes}
    (h : Transition.Traces step Polite wire (init quotes) trace s)
    (hbound : s.server.spawned ≤ 2 ^ 64) : Provenance trace s := by
  have hknown := fun {state : System} (hrun : Transition.Reaches step Polite (init quotes) state) =>
    hrun
  refine Transition.Traces.invariant_with
    (fun trace state => state.server.spawned ≤ 2 ^ 64 → Provenance trace state) h hknown
    (fun _ => ⟨fun j h' _ _ hh => ?_, fun j _ _ hwants => ?_, fun n _ _ hwants => ?_,
      fun slot hslot => absurd hslot (Nat.not_lt_zero _)⟩) ?_ hbound
  · cases hh
  · cases hwants
  · cases hwants
  · intro trace state next action hrun hinv hpolite hstep hbound
    have hmove := step_move hstep
    have hthen := Nat.le_trans (spawned_step hmove) hbound
    exact provenance_step (hinv hthen) hrun hthen hpolite hmove

/-- The ticker that a round comes to is one of the client's list. -/
theorem round_ticker_mem {server : Server} (hcoherent : server.Coherent) {ticker : Str}
    {rest : List Str} {q : StockQuote}
    (hpoint : (server.threads slot).point = .round (ticker :: rest))
    (hq : server.quotes.lookup ticker = some q) : ticker ∈ (server.threads slot).tickers := by
  obtain ⟨now, older, hrounds, hdelivered⟩ := (hcoherent.threads slot).current _ hpoint
  obtain ⟨now', older', hrounds', -, hquotes⟩ := hcoherent.reading slot _ hpoint
  rw [hrounds] at hrounds'
  cases hrounds'
  rw [hquotes, due_found hq] at hdelivered
  have hmem : (ticker, q.message) ∈ due server.quotes (server.threads slot).tickers := by
    rw [← hdelivered]
    simp
  exact (mem_due hmem).1

/-- Every datagram that goes out is for a `STREAM` command of some connection that has not been
answered by a `STOP OK` since: it goes to the address of the command, and the message is for one
of its tickers, which is one of the configuration. -/
theorem datagrams_answer_open_requests {draws : Nat → F64 × UInt64} {bytes : List UInt8}
    {configured : Server} (hconfig : Server.fromConfig draws (.ok bytes) = .ok configured)
    (h : Transition.Traces step Polite wire (init configured.quotes) trace s)
    (hbound : s.server.spawned ≤ 2 ^ 64) {before after : List Wire}
    (hsplit : trace = before ++ .datagram addr message :: after) :
    ∃ j tickers, OpenRequest j addr tickers before ∧ message.ticker ∈ tickers ∧
      message.ticker ∈ configured.quotes := by
  obtain ⟨_, -, -, hnamed, -⟩ := from_config_ok hconfig
  obtain ⟨u, action, next, hbefore, hstep, hwire, hrest⟩ := h.cut wire_length hsplit
  have hserver := Reachable.server hbefore.reaches.reachable
  obtain ⟨slot, result, ticker, rest, q, rfl, hpoint, hcallback, hq, rfl⟩ :=
    datagram_mem_wire (show .datagram addr message ∈ u.wire action by rw [hwire]; simp)
  have hstocked := Server.Reachable.stocked hserver hnamed
  have hslot : slot < u.server.spawned := by
    by_contra hfresh
    have hexited := (Server.Reachable.locks_held hserver).freshThreads slot (Nat.not_lt.mp hfresh)
    rw [hpoint] at hexited
    cases hexited
  have hspawned : u.server.spawned ≤ s.server.spawned :=
    hrest.invariant (fun state : System => u.server.spawned ≤ state.server.spawned) le_rfl
      fun hinv _ hstep => hinv.trans (spawned_step (step_move hstep))
  have hprovenance := provenance_of_traces hbefore (hspawned.trans hbound)
  rcases hprovenance.threads slot hslot addr hcallback with hfinished | ⟨j, hopen, -⟩
  · rw [hfinished.2.2] at hpoint
    cases hpoint
  · have hname : q.message.ticker = ticker := hstocked.current.named ticker q hq
    have hkey : ticker ∈ u.server.quotes := by
      rw [← AList.lookup_isSome, hq]
      rfl
    rw [hname]
    exact ⟨j, _, hopen, round_ticker_mem (Server.Reachable.coherent hserver) hpoint hq,
      (hstocked.current.keys ticker).mp hkey⟩

theorem polite_of_quiet (hrequest : ∀ j, action ≠ .request j)
    (hcall : ∀ n request, action ≠ .server (.call (.other n) request) ∨ request = .start) :
    Polite s action := by
  refine ⟨fun j h addr tickers haction => absurd haction (hrequest j),
    fun n tickers addr haction => ?_⟩
  rcases hcall n (.addClient tickers (.udp addr)) with hne | hstart
  · exact hne haction
  · cases hstart

/-- Connection 0 subscribes to the only configured ticker, and one round of its client begins. -/
theorem datagrams_answer_open_requests_aapl : ∃ quotes s addr tickers message,
    Transition.Traces step Polite wire (init quotes)
      [.asked 0 addr tickers, .datagram addr message] s ∧
    ∃ j tickers', OpenRequest j addr tickers' [.asked 0 addr tickers] ∧
      message.ticker ∈ tickers' := by
  obtain ⟨quotes, t, h, u, s, addr, tickers, message, hconfig, hbefore, hasked, hh, hnone, hrequest,
    hafter, hsent, hspawned⟩ : ∃ quotes t h u s addr tickers message,
        Server.fromConfig (fun _ => (⟨0⟩, 0)) (.ok (Text.encode "AAPL".toList)) =
          .ok (.init quotes) ∧
        Transition.run step (init quotes) (beforeAdding 0) = some t ∧
        Transition.outputs step wire (init quotes) (beforeAdding 0) = [.asked 0 addr tickers] ∧
        t.handlers 0 = some h ∧ h.clientId = none ∧ step t (.request 0) = some u ∧
        Transition.run step u (afterAdding 0 ++ oneUpdate "AAPL".toList) = some s ∧
        Transition.outputs step wire u (afterAdding 0 ++ oneUpdate "AAPL".toList) =
          [.datagram addr message] ∧ s.server.spawned = 1 :=
    ⟨_, _, _, _, _, _, _, _, rfl, rfl, rfl, rfl, rfl, rfl, rfl, rfl, rfl⟩
  have hfirst : Transition.Traces step Polite wire (init quotes) _ t :=
    Transition.traces_of_run hbefore fun action hmem state => polite_of_quiet
      (by rintro j rfl; simp [beforeAdding, connecting] at hmem)
      (fun n request => .inl (by rintro rfl; simp [beforeAdding, connecting] at hmem))
  have hlast : Transition.Traces step Polite wire u _ s :=
    Transition.traces_of_run hafter fun action hmem state => polite_of_quiet
      (by rintro j rfl; simp [afterAdding, oneUpdate] at hmem) fun n request => by
        by_cases hstart : request = .start
        · exact .inr hstart
        · refine .inl ?_
          rintro rfl
          simp [afterAdding, oneUpdate, hstart] at hmem
  have hpolite : Polite t (.request 0) := by
    refine ⟨fun j h' _ _ haction hh' _ => ?_, fun _ _ _ haction => by cases haction⟩
    cases haction
    rw [hh] at hh'
    cases hh'
    exact hnone
  rw [hasked] at hfirst
  rw [hsent] at hlast
  have htrace := (hfirst.tail hpolite hrequest).trans hlast
  obtain ⟨j, tickers', hopen, hmem, -⟩ := datagrams_answer_open_requests hconfig htrace
    (by rw [hspawned]; decide) (show _ = [Wire.asked 0 addr tickers] ++ .datagram addr message :: []
      from rfl)
  exact ⟨quotes, s, addr, tickers, message, htrace, j, tickers', hopen, hmem⟩

end System

end QuoteStreamer
