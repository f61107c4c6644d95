import QuoteStreamer.QuoteServer.Step

/-!
# What one step can do

`Move s action t` lists the transitions of the server, one constructor for each branch of
`Server.step`, with the guard of the branch and the state after it. `step_move` says that every
step is one of them, so that each invariant is a case analysis over `Move` and `step` is unfolded
nowhere else.
-/

namespace QuoteStreamer.Server

/-- The transitions of the server. -/
inductive Move (s : Server) : Action → Server → Prop where
  | call (k : Caller) (request : Request) (hat : s.callers k = .idle) :
      Move s (.call k request) (s.setCall k request.entry)
  | take (k : Caller) (reply : Reply) (hat : s.callers k = .returned reply) :
      Move s (.take k) (s.setCall k .idle)
  | addLock (k : Caller) (tickers : List Str) (callback : Callback)
      (hat : s.callers k = .addLock tickers callback) (hfree : s.clientsLock = none) :
      Move s (.caller k) ({ s with
        clientsLock := some (.caller k), atLock := s.clients }.setCall k
          (.addStart tickers callback))
  | addStart (k : Caller) (tickers : List Str) (callback : Callback)
      (hat : s.callers k = .addStart tickers callback) :
      Move s (.caller k) ({ s with
        threads := Function.update s.threads s.spawned (.spawn tickers callback)
        spawned := s.spawned + 1 }.setCall k
          (.addInsert ((Client.new tickers callback).start s.spawned)))
  | addInsert (k : Caller) (client : Client) (hat : s.callers k = .addInsert client)
      (hnew : s.clients.lookup s.clientsCount = none) :
      Move s (.caller k) ({ s with
        clientsCount := s.clientsCount + 1
        clients := s.clients.insert s.clientsCount client
        history := .added k s.clientsCount (client.tx.getD 0) :: s.history }.setCall k
          (.unlock (.added s.clientsCount)))
  | addReplace (k : Caller) (client old : Client) (hat : s.callers k = .addInsert client)
      (hold : s.clients.lookup s.clientsCount = some old) :
      Move s (.caller k) ({ s with
        clientsCount := s.clientsCount + 1
        clients := s.clients.insert s.clientsCount client
        history := .added k s.clientsCount (client.tx.getD 0) ::
          .replaced s.clientsCount (old.tx.getD 0) :: s.history }.setCall k
          (.dropSend old (.added s.clientsCount)))
  | removeLock (k : Caller) (id : UInt64) (hat : s.callers k = .removeLock id)
      (hfree : s.clientsLock = none) :
      Move s (.caller k) ({ s with
        clientsLock := some (.caller k), atLock := s.clients }.setCall k (.removeTake id))
  | removeTake (k : Caller) (id : UInt64) (client : Client)
      (hat : s.callers k = .removeTake id) (hfound : s.clients.lookup id = some client) :
      Move s (.caller k) ({ s with
        clients := s.clients.erase id
        history := .removed id (client.tx.getD 0) :: s.history }.setCall k
          (.removeSend id client))
  | removeNone (k : Caller) (id : UInt64) (hat : s.callers k = .removeTake id)
      (hnone : s.clients.lookup id = none) :
      Move s (.caller k) (s.setCall k (.unlock (.removed id none (.ok ()))))
  | removeSend (k : Caller) (id : UInt64) (client : Client) (threads : Threads)
      (hat : s.callers k = .removeSend id client)
      (hsend : client.trySend .shutdown s.version s.threads = .ok threads) :
      Move s (.caller k) ({ s with threads := threads }.setCall k (.removeJoin id client))
  | removeSendFails (k : Caller) (id : UInt64) (client : Client) (error : ClientError)
      (hat : s.callers k = .removeSend id client)
      (hsend : client.trySend .shutdown s.version s.threads = .error error) :
      Move s (.caller k) (s.setCall k
        (.dropSend client (.removed id client.tx (.error (.ofClientError error)))))
  | removeJoin (k : Caller) (id : UInt64) (client : Client)
      (hat : s.callers k = .removeJoin id client) (hjoin : client.joined s.threads = true) :
      Move s (.caller k) ({ s with threads := client.dropSender s.threads }.setCall k
        (.dropSend client.stopped (.removed id client.tx (.ok ()))))
  | dropSend (k : Caller) (client : Client) (reply : Reply)
      (hat : s.callers k = .dropSend client reply) :
      Move s (.caller k) ({ s with
        threads := client.sendIgnored .shutdown s.version s.threads }.setCall k
          (.dropJoin client reply))
  | dropJoin (k : Caller) (client : Client) (reply : Reply)
      (hat : s.callers k = .dropJoin client reply) (hjoin : client.joined s.threads = true) :
      Move s (.caller k) ({ s with threads := client.dropSender s.threads }.setCall k
        (.unlock reply))
  | unlock (k : Caller) (reply : Reply) (hat : s.callers k = .unlock reply) :
      Move s (.caller k) ({ s with clientsLock := none }.setCall k (.returned reply))
  | startLock (k : Caller) (hat : s.callers k = .startLock) (hfree : s.bgLock = none) :
      Move s (.caller k) ({ s with bgLock := some k }.setCall k .startCheck)
  | startRunning (k : Caller) (hat : s.callers k = .startCheck)
      (hrunning : s.bgThread.isSome = true) :
      Move s (.caller k) ({ s with bgLock := none }.setCall k (.returned .started))
  | startSpawn (k : Caller) (hat : s.callers k = .startCheck) (hnone : s.bgThread = none) :
      Move s (.caller k) ({ s with
        background := Function.update s.background s.bgSpawned .check
        bgSpawned := s.bgSpawned + 1 }.setCall k (.startStore s.bgSpawned))
  | startStore (k : Caller) (number : Nat) (hat : s.callers k = .startStore number) :
      Move s (.caller k) ({ s with bgThread := some number, bgLock := none }.setCall k
        (.returned .started))
  | shutdownFlag (k : Caller) (hat : s.callers k = .shutdownFlag) :
      Move s (.caller k) ({ s with shutdownFlag := true }.setCall k .shutdownLock)
  | shutdownLock (k : Caller) (hat : s.callers k = .shutdownLock) (hfree : s.bgLock = none) :
      Move s (.caller k) ({ s with bgLock := some k }.setCall k .shutdownTake)
  | shutdownTake (k : Caller) (number : Nat) (hat : s.callers k = .shutdownTake)
      (hsome : s.bgThread = some number) :
      Move s (.caller k) ({ s with bgThread := none, bgLock := none }.setCall k
        (.shutdownJoin number))
  | shutdownNone (k : Caller) (hat : s.callers k = .shutdownTake) (hnone : s.bgThread = none) :
      Move s (.caller k) ({ s with bgThread := none, bgLock := none }.setCall k
        (.returned .stopped))
  | shutdownJoin (k : Caller) (number : Nat) (hat : s.callers k = .shutdownJoin number)
      (hjoin : s.background number = .exited) :
      Move s (.caller k) (s.setCall k (.returned .stopped))
  | recv (t : Nat) (result : CallbackResult) (th : ClientThread)
      (hat : (s.threads t).point = .recv) (hrecv : (s.threads t).recv = some th) :
      Move s (.client t result) (s.setThread t th)
  | skipRound (t : Nat) (result : CallbackResult) (enqueued : Nat)
      (hat : (s.threads t).point = .readLock enqueued) (hfree : s.writer = none)
      (hpoisoned : s.poisoned = true) :
      Move s (.client t result) (s.setThread t (s.threads t).skipRound)
  | beginRound (t : Nat) (result : CallbackResult) (enqueued : Nat)
      (hat : (s.threads t).point = .readLock enqueued) (hfree : s.writer = none)
      (hpoisoned : s.poisoned = false) :
      Move s (.client t result) ({ s with readers := t :: s.readers }.setThread t
        ((s.threads t).beginRound enqueued s.quotes s.version))
  | processTicker (t : Nat) (result : CallbackResult) (ticker : Str) (rest : List Str)
      (hat : (s.threads t).point = .round (ticker :: rest))
      (hallowed : (s.threads t).callback.allows result = true) :
      Move s (.client t result) ({ s with
        readers :=
          if ((s.threads t).processTicker ticker rest s.quotes s.version result).point.reading
          then s.readers else s.readers.erase t }.setThread t
            ((s.threads t).processTicker ticker rest s.quotes s.version result))
  | endRound (t : Nat) (result : CallbackResult) (hat : (s.threads t).point = .round []) :
      Move s (.client t result) ({ s with readers := s.readers.erase t }.setThread t
        (s.threads t).endRound)
  | dropReceiver (t : Nat) (result : CallbackResult) (hat : (s.threads t).point = .leaving) :
      Move s (.client t result) (s.setThread t (s.threads t).dropReceiver)
  | terminate (t : Nat) (result : CallbackResult) (hat : (s.threads t).point = .closed) :
      Move s (.client t result) (s.setThread t (s.threads t).terminate)
  | check (b : Nat) (hat : s.background b = .check) :
      Move s (.background b .proceed)
        (s.setBackground b (if s.shutdownFlag then .exited else .sleep))
  | sleep (b : Nat) (hat : s.background b = .sleep) :
      Move s (.background b .proceed) (s.setBackground b .tryWrite)
  | tryWrite (b : Nat) (hat : s.background b = .tryWrite) (hwriter : s.writer = none)
      (hreaders : s.readers = []) (hpoisoned : s.poisoned = false) :
      Move s (.background b .proceed) ({ s with
        writer := some b, version := s.version + 1 }.setBackground b
          (.updating s.quotes.keys false))
  | timeout (b : Nat) (hat : s.background b = .tryWrite) :
      Move s (.background b .timeout) (s.setBackground b .notifyLock)
  | visit (b : Nat) (key : Str) (price : F64) (volume : UInt32) (timestamp : Option UInt64)
      (todo : List Str) (failed : Bool) (q : StockQuote)
      (hat : s.background b = .updating todo failed) (hq : s.quotes.lookup key = some q)
      (hkey : key ∈ todo) :
      Move s (.background b (.visit key price volume timestamp)) ({ s with
        quotes := s.quotes.replace key (q.visited price volume timestamp) }.setBackground b
          (.updating (todo.erase key) (failed || timestamp.isNone)))
  | finishUpdate (b : Nat) (todo : List Str) (failed : Bool)
      (hat : s.background b = .updating todo failed) (hdone : todo = [] ∨ failed = true) :
      Move s (.background b .proceed) ({ s with writer := none }.setBackground b .notifyLock)
  | panic (b : Nat) (todo : List Str) (failed : Bool)
      (hat : s.background b = .updating todo failed) :
      Move s (.background b .panic) ({ s with
        writer := none, poisoned := true }.setBackground b .exited)
  | notifyLock (b : Nat) (todo : List UInt64) (hat : s.background b = .notifyLock)
      (hfree : s.clientsLock = none) (horder : todo.Perm s.clients.keys) :
      Move s (.background b (.order todo)) ({ s with
        clientsLock := some (.background b)
        atLock := s.clients
        history := .notified :: s.history }.setBackground b (.notifying todo))
  | notify (b : Nat) (id : UInt64) (rest : List UInt64) (client : Client)
      (hat : s.background b = .notifying (id :: rest))
      (hfound : s.clients.lookup id = some client) :
      Move s (.background b .proceed) ({ s with
        threads := client.sendIgnored .update s.version s.threads }.setBackground b
          (.notifying rest))
  | notified (b : Nat) (hat : s.background b = .notifying []) :
      Move s (.background b .proceed) ({ s with clientsLock := none }.setBackground b .check)

variable {s t : Server} {k : Caller} {action : Action}

theorem lock_clients_eq {holder : ThreadId} (h : s.lockClients holder = some t) :
    s.clientsLock = none ∧ t = { s with clientsLock := some holder, atLock := s.clients } := by
  unfold lockClients at h
  split at h
  · exact ⟨‹_›, (Option.some.inj h).symm⟩
  · cases h

theorem lock_bg_eq (h : s.lockBg k = some t) :
    s.bgLock = none ∧ t = { s with bgLock := some k } := by
  unfold lockBg at h
  split at h
  · exact ⟨‹_›, (Option.some.inj h).symm⟩
  · cases h

theorem caller_step_move (h : s.callerStep k = some t) : Move s (.caller k) t := by
  unfold callerStep at h
  split at h
  case h_1 | h_2 => cases h
  case h_3 tickers callback hat =>
    simp only [bind, Option.bind_eq_some_iff, pure, Option.some.injEq] at h
    obtain ⟨locked, hlock, rfl⟩ := h
    obtain ⟨hfree, rfl⟩ := lock_clients_eq hlock
    exact .addLock k tickers callback hat hfree
  case h_4 tickers callback hat =>
    cases h
    exact .addStart k tickers callback hat
  case h_5 client hat =>
    dsimp only at h
    split at h <;> rename_i heq <;> cases h
    · exact .addReplace k client _ hat heq
    · exact .addInsert k client hat heq
  case h_6 id hat =>
    simp only [bind, Option.bind_eq_some_iff, pure, Option.some.injEq] at h
    obtain ⟨locked, hlock, rfl⟩ := h
    obtain ⟨hfree, rfl⟩ := lock_clients_eq hlock
    exact .removeLock k id hat hfree
  case h_7 id hat =>
    split at h <;> rename_i heq <;> cases h
    · exact .removeTake k id _ hat heq
    · exact .removeNone k id hat heq
  case h_8 id client hat =>
    split at h <;> rename_i heq <;> cases h
    · exact .removeSend k id client _ hat heq
    · exact .removeSendFails k id client _ hat heq
  case h_9 id client hat =>
    split at h <;> rename_i hjoin <;> cases h
    exact .removeJoin k id client hat hjoin
  case h_10 client reply hat =>
    cases h
    exact .dropSend k client reply hat
  case h_11 client reply hat =>
    split at h <;> rename_i hjoin <;> cases h
    exact .dropJoin k client reply hat hjoin
  case h_12 reply hat =>
    cases h
    exact .unlock k reply hat
  case h_13 hat =>
    simp only [bind, Option.bind_eq_some_iff, pure, Option.some.injEq] at h
    obtain ⟨locked, hlock, rfl⟩ := h
    obtain ⟨hfree, rfl⟩ := lock_bg_eq hlock
    exact .startLock k hat hfree
  case h_14 hat =>
    split at h <;> rename_i hslot <;> cases h
    · exact .startRunning k hat hslot
    · exact .startSpawn k hat (by simpa using hslot)
  case h_15 number hat =>
    cases h
    exact .startStore k number hat
  case h_16 hat =>
    cases h
    exact .shutdownFlag k hat
  case h_17 hat =>
    simp only [bind, Option.bind_eq_some_iff, pure, Option.some.injEq] at h
    obtain ⟨locked, hlock, rfl⟩ := h
    obtain ⟨hfree, rfl⟩ := lock_bg_eq hlock
    exact .shutdownLock k hat hfree
  case h_18 hat =>
    cases h
    split <;> rename_i heq
    · exact .shutdownTake k _ hat heq
    · exact .shutdownNone k hat heq
  case h_19 number hat =>
    split at h <;> rename_i hjoin <;> cases h
    exact .shutdownJoin k number hat hjoin

theorem client_step_move {slot : Nat} {result : CallbackResult}
    (h : s.clientStep slot result = some t) : Move s (.client slot result) t := by
  unfold clientStep at h
  dsimp only at h
  split at h
  case h_1 hat =>
    obtain ⟨th, hrecv, rfl⟩ := Option.map_eq_some_iff.mp h
    exact .recv slot result th hat hrecv
  case h_2 enqueued hat =>
    split at h <;> rename_i hfree
    · split at h <;> rename_i hpoisoned <;> cases h
      · exact .skipRound slot result enqueued hat hfree hpoisoned
      · exact .beginRound slot result enqueued hat hfree (by simpa using hpoisoned)
    · cases h
  case h_3 ticker rest hat =>
    split at h <;> rename_i hallowed <;> cases h
    exact .processTicker slot result ticker rest hat hallowed
  case h_4 hat =>
    cases h
    exact .endRound slot result hat
  case h_5 hat =>
    cases h
    exact .dropReceiver slot result hat
  case h_6 hat =>
    cases h
    exact .terminate slot result hat
  case h_7 => cases h

theorem background_step_move {b : Nat} {choice : BackgroundChoice}
    (h : s.backgroundStep b choice = some t) : Move s (.background b choice) t := by
  unfold backgroundStep at h
  split at h
  case h_1 hat =>
    cases h
    exact .check b hat
  case h_2 hat =>
    cases h
    exact .sleep b hat
  case h_3 hat =>
    split at h <;> rename_i hfree <;> cases h
    exact .tryWrite b hat hfree.1 hfree.2.1 hfree.2.2
  case h_4 hat =>
    cases h
    exact .timeout b hat
  case h_5 todo failed key price volume timestamp hat =>
    split at h <;> rename_i hq
    · split at h <;> rename_i hkey <;> cases h
      exact .visit b key price volume timestamp todo failed _ hat hq hkey
    · cases h
  case h_6 todo failed hat =>
    split at h <;> rename_i hdone <;> cases h
    exact .finishUpdate b todo failed hat hdone
  case h_7 todo failed hat =>
    cases h
    exact .panic b todo failed hat
  case h_8 todo hat =>
    simp only [bind, Option.bind_eq_some_iff] at h
    obtain ⟨locked, hlock, h⟩ := h
    obtain ⟨hfree, rfl⟩ := lock_clients_eq hlock
    split at h <;> rename_i horder <;> cases h
    exact .notifyLock b todo hat hfree horder
  case h_9 id rest hat =>
    split at h <;> rename_i hfound <;> cases h
    exact .notify b id rest _ hat hfound
  case h_10 hat =>
    cases h
    exact .notified b hat
  case h_11 => cases h

/-- Every step is one of the listed transitions. -/
theorem step_move (h : s.step action = some t) : Move s action t := by
  cases action with
  | call k request =>
      simp only [step] at h
      split at h <;> rename_i hat <;> cases h
      exact .call k request hat
  | caller k => exact caller_step_move h
  | take k =>
      simp only [step] at h
      split at h <;> rename_i reply hat <;> cases h
      exact .take k reply hat
  | client slot result => exact client_step_move h
  | background b choice => exact background_step_move h

/-- A caller moves by its own steps only. -/
theorem callers_step (hmove : Move s action t) :
    t.callers k = s.callers k ∨ action = .caller k ∨ (∃ request, action = .call k request) ∨
      action = .take k := by
  have hother : ∀ {j : Caller} {call : Call}, t.callers = Function.update s.callers j call →
      t.callers k = s.callers k ∨ k = j := by
    intro j call hcallers
    by_cases hk : k = j
    · exact .inr hk
    · exact .inl (by rw [hcallers, Function.update_of_ne hk])
  cases hmove with
  | call j request =>
      rcases hother rfl with hsame | rfl
      · exact .inl hsame
      · exact .inr (.inr (.inl ⟨request, rfl⟩))
  | take j =>
      rcases hother rfl with hsame | rfl
      · exact .inl hsame
      · exact .inr (.inr (.inr rfl))
  | recv | skipRound | beginRound | processTicker | endRound | dropReceiver | terminate | check
  | sleep | tryWrite | timeout | visit | finishUpdate | panic | notifyLock | notify | notified =>
      exact .inl rfl
  | _ =>
      rcases hother rfl with hsame | rfl
      · exact .inl hsame
      · exact .inr (.inl rfl)

end QuoteStreamer.Server
