import QuoteStreamer.QuoteServer.Step

/-!
# The threads of one `Client`

A `Client` in the hands of its owner, who calls `start`, `send` and finally `drop` in any order,
and all the threads that the calls have spawned. `start` overwrites the sender and the join handle
of the thread before, which then nobody can wait for; as long as it is called only when that
thread has ended, a completed shutdown or drop leaves no thread behind.
-/

namespace QuoteStreamer

/-- One step of a client thread, with the quotes that it reads; a callback it invokes ends with this
result. -/
def ClientThread.step (th : ClientThread) (quotes : Quotes) (version : Nat) (poisoned : Bool)
    (result : CallbackResult) : Option ClientThread :=
  match th.point with
  | .recv => th.recv
  | .readLock enqueued =>
      some (if poisoned then th.skipRound else th.beginRound enqueued quotes version)
  | .round (ticker :: rest) =>
      if th.callback.allows result then some (th.processTicker ticker rest quotes version result)
      else none
  | .round [] => some th.endRound
  | .leaving => some th.dropReceiver
  | .closed => some th.terminate
  | .exited => none

/-- The client threads of the server take these steps. -/
theorem Server.client_step_thread {s t : Server} {slot : Nat} {result : CallbackResult}
    (h : s.clientStep slot result = some t) :
    (s.threads slot).step s.quotes s.version s.poisoned result = some (t.threads slot) := by
  have hset : ∀ (s : Server) (th : ClientThread), (s.setThread slot th).threads slot = th :=
    fun s th => Function.update_self ..
  unfold clientStep at h
  unfold ClientThread.step
  cases hat : (s.threads slot).point with
  | recv =>
      simp only [hat] at h ⊢
      obtain ⟨th, hrecv, rfl⟩ := Option.map_eq_some_iff.mp h
      rw [hset]
      exact hrecv
  | readLock enqueued =>
      simp only [hat] at h ⊢
      split at h
      · split at h <;> rename_i hpoisoned <;> cases h <;> simp [hset, hpoisoned]
      · cases h
  | round todo =>
      cases todo with
      | nil =>
          simp only [hat] at h ⊢
          cases h
          rw [hset]
      | cons ticker rest =>
          simp only [hat] at h ⊢
          split at h <;> rename_i hallowed <;> cases h
          simp [hset, hallowed]
  | leaving | closed =>
      simp only [hat] at h ⊢
      cases h
      rw [hset]
  | exited =>
      simp only [hat] at h
      cases h

/-- Where the owner stands. -/
inductive OwnerCall where
  | idle
  /-- `send(Shutdown)`, at `handle.join()`. -/
  | join
  /-- `drop`, at `handle.join()`. -/
  | dropJoin
  /-- `start`, or `send` of this command, has returned. -/
  | returned (cmd : Option ClientCommand) (result : Except ClientError Unit)
  | dropped

/-- A client, its owner and the threads it has spawned. -/
structure Owner where
  client : Client
  call : OwnerCall
  threads : Threads
  /-- The number of threads spawned so far. -/
  spawned : Nat
  quotes : Quotes
  poisoned : Bool
  /-- Counts the writes of the quotes. -/
  version : Nat

/-- The scheduler's choice of a step. -/
inductive OwnerAction where
  | start
  | send (cmd : ClientCommand)
  | drop
  /-- The owner goes on inside its call. -/
  | proceed
  /-- The owner takes the result of its call. -/
  | take
  /-- A thread goes on; a callback it invokes ends with this result. -/
  | thread (i : Nat) (result : CallbackResult)
  /-- Somebody else writes the quotes, and may panic while it does. -/
  | write (quotes : Quotes) (poisoned : Bool)

namespace Owner

/-- `Client::new` has returned. -/
def init (tickers : List Str) (callback : Callback) (quotes : Quotes) : Owner where
  client := .new tickers callback
  call := .idle
  threads _ := .absent
  spawned := 0
  quotes := quotes
  poisoned := false
  version := 0

/-- One step under the scheduler's choice. -/
def step (s : Owner) : OwnerAction → Option Owner
  | .start =>
      match s.call with
      | .idle =>
          -- the sender and the handle of the thread before go with their fields' old values
          some { s with
            client := s.client.start s.spawned
            threads := Function.update (s.client.dropSender s.threads) s.spawned
              (.spawn s.client.tickers s.client.callback)
            spawned := s.spawned + 1
            call := .returned none (.ok ()) }
      | _ => none
  | .send cmd =>
      match s.call with
      | .idle =>
          match s.client.trySend cmd s.version s.threads with
          | .ok threads =>
              let next := if cmd = .shutdown then .join else .returned (some cmd) (.ok ())
              some { s with threads := threads, call := next }
          | .error e => some { s with call := .returned (some cmd) (.error e) }
      | _ => none
  | .drop =>
      match s.call with
      | .idle =>
          some { s with
            threads := s.client.sendIgnored .shutdown s.version s.threads, call := .dropJoin }
      | _ => none
  | .proceed =>
      let ended : Owner :=
        { s with threads := s.client.dropSender s.threads, client := s.client.stopped }
      match s.call with
      | .join =>
          if s.client.joined s.threads then
            some { ended with call := .returned (some .shutdown) (.ok ()) }
          else none
      | .dropJoin =>
          if s.client.joined s.threads then some { ended with call := .dropped } else none
      | _ => none
  | .take =>
      match s.call with
      | .returned .. => some { s with call := .idle }
      | _ => none
  | .thread i result => do
      let th ← (s.threads i).step s.quotes s.version s.poisoned result
      pure { s with threads := Function.update s.threads i th }
  | .write quotes poisoned =>
      if ∀ i < s.spawned, (s.threads i).point.reading = false then
        some { s with
          quotes := quotes, poisoned := s.poisoned || poisoned, version := s.version + 1 }
      else none

/-- `start` is called only when the thread whose handle the client holds has ended, if there is
one. -/
def StartsAlone (s : Owner) : OwnerAction → Prop
  | .start => s.client.joined s.threads = true
  | _ => True

/-- The client is not started again. -/
def NoStart (_ : Owner) : OwnerAction → Prop
  | .start => False
  | _ => True

end Owner

/-- `send(Shutdown)` has returned `Ok`, or `drop` has completed. -/
def OwnerCall.ended : OwnerCall → Bool
  | .returned (some .shutdown) (.ok ()) | .dropped => true
  | _ => false

/-! ## What has ended stays so -/

/-- The thread stands where it stood and has not invoked the callback any more. -/
def ClientThread.Still (th after : ClientThread) : Prop :=
  after.point = th.point ∧ after.rounds = th.rounds

theorem ClientThread.Still.trans {first second third : ClientThread} (h : first.Still second)
    (hrest : second.Still third) : first.Still third :=
  ⟨hrest.1.trans h.1, hrest.2.trans h.2⟩

namespace Client

variable {client : Client} {cmd : ClientCommand} {version : Nat} {threads after : Threads}

theorem try_send_still (h : client.trySend cmd version threads = .ok after) (i : Nat) :
    (threads i).Still (after i) := by
  obtain ⟨tx, -, -, rfl⟩ := try_send_eq_ok h
  by_cases hi : i = tx
  · subst i
    simp [ClientThread.Still, ClientThread.push]
  · simp [ClientThread.Still, hi]

theorem send_ignored_still (i : Nat) :
    (threads i).Still (client.sendIgnored cmd version threads i) := by
  unfold sendIgnored
  cases h : client.trySend cmd version threads with
  | ok after => exact try_send_still h i
  | error e => exact ⟨rfl, rfl⟩

theorem drop_sender_still (i : Nat) : (threads i).Still (client.dropSender threads i) := by
  unfold dropSender
  cases client.tx with
  | none => exact ⟨rfl, rfl⟩
  | some tx =>
      by_cases hi : i = tx
      · subst i
        simp [ClientThread.Still, ClientThread.disconnect]
      · simp [ClientThread.Still, hi]

/-- The thread of the handle has ended. -/
theorem exited_of_joined (h : client.joined threads = true) {i : Nat}
    (hhandle : client.threadHandle = some i) : (threads i).point = .exited := by
  simpa [joined, hhandle] using h

end Client

namespace Owner

/-- The transitions of a client and its threads. -/
inductive Move (s : Owner) : OwnerAction → Owner → Prop where
  | start (hat : s.call = .idle) :
      Move s .start { s with
        client := s.client.start s.spawned
        threads := Function.update (s.client.dropSender s.threads) s.spawned
          (.spawn s.client.tickers s.client.callback)
        spawned := s.spawned + 1
        call := .returned none (.ok ()) }
  | send (cmd : ClientCommand) (threads : Threads) (hat : s.call = .idle)
      (hsend : s.client.trySend cmd s.version s.threads = .ok threads) :
      Move s (.send cmd) { s with
        threads := threads
        call := if cmd = .shutdown then .join else .returned (some cmd) (.ok ()) }
  | sendFails (cmd : ClientCommand) (e : ClientError) (hat : s.call = .idle) :
      Move s (.send cmd) { s with call := .returned (some cmd) (.error e) }
  | drop (hat : s.call = .idle) :
      Move s .drop { s with
        threads := s.client.sendIgnored .shutdown s.version s.threads, call := .dropJoin }
  | joined (next : OwnerCall) (hjoined : s.client.joined s.threads = true) :
      Move s .proceed { s with
        threads := s.client.dropSender s.threads, client := s.client.stopped, call := next }
  | take : Move s .take { s with call := .idle }
  | thread (i : Nat) (result : CallbackResult) (th : ClientThread)
      (hlive : (s.threads i).point ≠ .exited) :
      Move s (.thread i result) { s with threads := Function.update s.threads i th }
  | write (quotes : Quotes) (poisoned : Bool) :
      Move s (.write quotes poisoned) { s with
        quotes := quotes, poisoned := s.poisoned || poisoned, version := s.version + 1 }

variable {s t : Owner} {action : OwnerAction} {i : Nat}

/-- Every step is one of the listed transitions. -/
theorem step_move (h : s.step action = some t) : Move s action t := by
  unfold step at h
  split at h
  case h_1 =>
    split at h <;> rename_i hat <;> cases h
    exact .start hat
  case h_2 cmd =>
    split at h <;> rename_i hat
    · split at h <;> rename_i hsend <;> cases h
      · exact .send cmd _ hat hsend
      · exact .sendFails cmd _ hat
    · cases h
  case h_3 =>
    split at h <;> rename_i hat <;> cases h
    exact .drop hat
  case h_4 =>
    dsimp only at h
    split at h
    · split at h <;> rename_i hjoined <;> cases h
      exact .joined _ hjoined
    · split at h <;> rename_i hjoined <;> cases h
      exact .joined _ hjoined
    · cases h
  case h_5 =>
    split at h <;> cases h
    exact .take
  case h_6 j result =>
    simp only [bind, Option.bind_eq_some_iff, pure, Option.some.injEq] at h
    obtain ⟨th, hth, rfl⟩ := h
    refine .thread j result th fun hexited => ?_
    rw [ClientThread.step, hexited] at hth
    cases hth
  case h_7 quotes poisoned =>
    split at h <;> cases h
    exact .write quotes poisoned

theorem spawned_le_step (hmove : Move s action t) : s.spawned ≤ t.spawned := by
  cases hmove with
  | start => exact Nat.le_succ _
  | _ => exact Nat.le_refl _

/-- A thread that has ended is left alone by every step but the one that spawns it. -/
theorem still_step (hmove : Move s action t) (hold : action = .start → i ≠ s.spawned)
    (hexited : (s.threads i).point = .exited) : (s.threads i).Still (t.threads i) := by
  cases hmove with
  | start =>
      have hsame : Function.update (s.client.dropSender s.threads) s.spawned
          (.spawn s.client.tickers s.client.callback) i = s.client.dropSender s.threads i :=
        Function.update_of_ne (hold rfl) _ _
      have hstill : (s.threads i).Still (s.client.dropSender s.threads i) :=
        Client.drop_sender_still i
      rw [← hsame] at hstill
      exact hstill
  | send cmd threads hat hsend => exact Client.try_send_still hsend i
  | drop => exact Client.send_ignored_still i
  | joined => exact Client.drop_sender_still i
  | thread j result th hlive =>
      have hne : i ≠ j := fun heq => hlive (heq ▸ hexited)
      show (s.threads i).Still (Function.update s.threads j th i)
      rw [Function.update_of_ne hne]
      exact ⟨rfl, rfl⟩
  | sendFails | take | write => exact ⟨rfl, rfl⟩

/-! ## The only thread -/

/-- All threads have ended but the one whose handle the client holds, and after a shutdown or a
drop it holds none. -/
structure Sole (s : Owner) : Prop where
  held : ∀ i, (s.threads i).point = .exited ∨ s.client.threadHandle = some i
  ended : s.call.ended = true → s.client.threadHandle = none

/-- A join leaves no thread. -/
theorem Sole.exited_of_joined (h : s.Sole) (hjoined : s.client.joined s.threads = true) (i : Nat) :
    (s.threads i).point = .exited :=
  (h.held i).elim id (Client.exited_of_joined hjoined)

theorem sole_step (h : s.Sole) (hok : StartsAlone s action) (hmove : Move s action t) : t.Sole := by
  have hkeep : action ≠ .start → t.client.threadHandle = s.client.threadHandle →
      ∀ i, (t.threads i).point = .exited ∨ t.client.threadHandle = some i := by
    intro hstart hhandle i
    rcases h.held i with hexited | hheld
    · exact .inl ((still_step hmove (fun heq => absurd heq hstart) hexited).1.trans hexited)
    · exact .inr (hhandle.trans hheld)
  cases hmove with
  | start hat =>
      refine ⟨fun i => ?_, fun hover => by cases hover⟩
      by_cases hi : i = s.spawned
      · exact .inr (congrArg some hi.symm)
      · -- `start` is called on a client whose thread before has ended
        have hexited := h.exited_of_joined hok i
        exact .inl ((still_step (.start hat) (fun _ => hi) hexited).1.trans hexited)
  | send cmd threads hat hsend =>
      refine ⟨hkeep nofun rfl, fun hover => ?_⟩
      dsimp only at hover
      split at hover
      · cases hover
      · next hcmd =>
          cases cmd with
          | update => cases hover
          | shutdown => exact absurd rfl hcmd
  | sendFails cmd e hat =>
      refine ⟨hkeep nofun rfl, fun hover => ?_⟩
      cases cmd <;> cases hover
  | drop hat => exact ⟨hkeep nofun rfl, fun hover => by cases hover⟩
  | joined next hjoined =>
      refine ⟨fun i => .inl ?_, fun _ => rfl⟩
      have hexited := h.exited_of_joined hjoined i
      exact (Client.drop_sender_still i).1.trans hexited
  | take => exact ⟨hkeep nofun rfl, fun hover => by cases hover⟩
  | thread j result th hlive => exact ⟨hkeep nofun rfl, h.ended⟩
  | write quotes poisoned => exact ⟨hkeep nofun rfl, h.ended⟩

/-- When every `start` was made while no earlier thread was running: once `send(Shutdown)` has
returned `Ok` or `drop` has completed, every thread spawned so far has ended, for good, and until
the next `start` the callback is not invoked again. -/
theorem no_thread_outlives {tickers : List Str} {callback : Callback} {quotes : Quotes}
    (hs : Transition.Reaches step StartsAlone (init tickers callback quotes) s)
    (hover : s.call.ended = true) :
    (∀ i, (s.threads i).point = .exited) ∧
    (∀ u, Transition.Reachable step s u → ∀ i < s.spawned,
      (u.threads i).point = .exited ∧ (u.threads i).rounds = (s.threads i).rounds) ∧
    ∀ u, Transition.Reaches step NoStart s u →
      ∀ i, (u.threads i).rounds = (s.threads i).rounds := by
  have hsole : s.Sole := hs.invariant Sole ⟨fun _ => .inl rfl, nofun⟩
    (fun h hok hstep => sole_step h hok (step_move hstep))
  have hexited : ∀ i, (s.threads i).point = .exited := fun i =>
    (hsole.held i).resolve_right (by rw [hsole.ended hover]; nofun)
  refine ⟨hexited, fun u hu i hi => ?_, fun u hu i => ?_⟩
  · have hstill : i < u.spawned ∧ (s.threads i).Still (u.threads i) := by
      refine hu.invariant (fun state => i < state.spawned ∧ (s.threads i).Still (state.threads i))
        ⟨hi, rfl, rfl⟩ ?_
      rintro state next action ⟨hbound, hstill⟩ - hstep
      have hnext := still_step (step_move hstep) (fun _ => hbound.ne) (hstill.1.trans (hexited i))
      exact ⟨hbound.trans_le (spawned_le_step (step_move hstep)), hstill.trans hnext⟩
    exact ⟨hstill.2.1.trans (hexited i), hstill.2.2⟩
  · have hstill : (s.threads i).Still (u.threads i) := by
      refine hu.invariant (fun state => (s.threads i).Still (state.threads i)) ⟨rfl, rfl⟩ ?_
      intro state next action hstill hok hstep
      refine hstill.trans (still_step (step_move hstep) ?_ (hstill.1.trans (hexited i)))
      rintro rfl
      cases hok
    exact hstill.2

/-- The thread of this number takes the `Shutdown` and ends. -/
def ending (i : Nat) : List OwnerAction :=
  List.replicate 3 (.thread i .ok)

theorem no_thread_outlives_restarted :
    ∃ s, Transition.Reaches step StartsAlone (init [] (.closure 0) ∅) s ∧
    s.call = .dropped ∧ s.spawned = 2 ∧ ∀ i, (s.threads i).point = .exited := by
  obtain ⟨first, hfirst, stopped, hstopped, hjoined, second, hsecond, s,
    hdropped, hcall, hspawned⟩ :
      ∃ first, step (init [] (.closure 0) ∅) .start = some first ∧
      ∃ stopped,
        Transition.run step first ([.take, .send .shutdown] ++ ending 0 ++ [.proceed, .take]) =
        some stopped ∧ stopped.client.joined stopped.threads = true ∧
      ∃ second, step stopped .start = some second ∧
      ∃ s, Transition.run step second ([.take, .drop] ++ ending 1 ++ [.proceed]) = some s ∧
        s.call = .dropped ∧ s.spawned = 2 :=
    ⟨_, rfl, _, rfl, rfl, _, rfl, _, rfl, rfl, rfl⟩
  have hfresh : StartsAlone (init [] (.closure 0) ∅) .start := rfl
  have hstarted := Transition.Reaches.single hfresh hfirst
  have hstart : StartsAlone stopped .start := hjoined
  have hrestarted := (hstarted.trans (Transition.reaches_of_run hstopped
    (by simp [ending, StartsAlone]))).tail hstart hsecond
  have hs := hrestarted.trans (Transition.reaches_of_run hdropped (by simp [ending, StartsAlone]))
  exact ⟨s, hs, hcall, hspawned, (no_thread_outlives hs (by rw [hcall]; rfl)).1⟩

/-- `send(Shutdown)` returns `Ok` while the first of two threads still runs, which then invokes the
callback. -/
theorem first_thread_outlives : ∃ quotes s u,
    Transition.run step (init [['A']] (.closure 0) quotes)
      ([.start, .take, .send .update, .take, .start, .take, .send .shutdown] ++
        ending 1 ++ [.proceed]) =
        some s ∧
    s.call = .returned (some .shutdown) (.ok ()) ∧ (s.threads 0).point = .recv ∧
    (s.threads 0).rounds = [] ∧
    Transition.run step s [.thread 0 .ok, .thread 0 .ok, .thread 0 .ok] = some u ∧
    ∃ r, (u.threads 0).rounds = [r] ∧ r.calls.length = 1 :=
  ⟨AList.singleton ['A'] ⟨['A'], ⟨0⟩, 1, 0⟩, _, _, rfl, rfl, rfl, rfl, rfl, _, rfl, rfl⟩

end Owner

end QuoteStreamer
