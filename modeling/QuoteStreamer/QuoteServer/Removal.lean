import Mathlib.Algebra.Group.Nat.Defs
import QuoteStreamer.QuoteServer.Snapshots

/-!
# What a removal leaves behind

A finished thread never changes again: nobody has a `Sender` of its channel, and it has terminated.
`remove_client` finishes the thread of the client it takes out on every path, so whatever the other
threads do afterwards, that thread receives nothing and calls nothing. `Taken` ties the registry
at each point of a removal to the registry at the moment the clients mutex was acquired.
-/

namespace QuoteStreamer.Server

variable {s t u : Server} {action : Action} {k : Caller} {call : Call} {client : Client}
  {id : UInt64} {slot : Nat} {recorded : Option Nat} {result : Except QuoteServerError Unit}

/-! ## Finished threads -/

/-- A thread that still has a `Sender` is not finished. -/
theorem Finished.ne_of_connected (h : s.Finished slot) {other : Nat}
    (hother : (s.threads other).connected = true) : slot ≠ other := by
  rintro rfl
  rw [h.2.1] at hother
  cases hother

/-- No step changes a finished thread. -/
theorem finished_unchanged (hcustody : s.Custody) (hmove : Move s action t)
    (h : s.Finished slot) : t.threads slot = s.threads slot := by
  obtain ⟨hbound, hconnected, hexited⟩ := h
  generalize hth : t.threads slot = th
  have hthread : ThreadMove s slot th := hth ▸ thread_step hcustody hmove slot
  cases hthread with
  | same => rfl
  | spawn tickers callback hnew => omega
  | update hservice | shutdown hservice =>
      have hsender := hservice.1
      rw [hconnected] at hsender
      cases hsender
  | disconnect hsender =>
      rw [hconnected] at hsender
      cases hsender
  | recv _ hat | skipRound _ hat | beginRound _ hat | processTicker _ _ _ hat | endRound hat
  | dropReceiver hat | terminate hat =>
      rw [hexited] at hat
      cases hat

/-- A finished thread stays finished. -/
theorem finished_step (hcustody : s.Custody) (hmove : Move s action t) (h : s.Finished slot) :
    t.Finished slot := by
  have hsame := finished_unchanged hcustody hmove h
  refine ⟨Nat.lt_of_lt_of_le h.1 (spawned_le_step hmove), ?_, ?_⟩ <;> rw [hsame]
  · exact h.2.1
  · exact h.2.2

/-- Whatever happens next, a finished thread is as it was. -/
theorem Reachable.finished_forever {quotes : Quotes} (hs : Reachable quotes s)
    (hrun : Transition.Reachable step s u) (h : s.Finished slot) :
    u.Finished slot ∧ u.threads slot = s.threads slot := by
  have hknown : ∀ {state : Server}, Transition.Reachable step s state → state.Custody :=
    fun hrest => Reachable.custody (hs.trans hrest)
  refine Transition.Reaches.invariant_with
    (fun state => state.Finished slot ∧ state.threads slot = s.threads slot) hrun hknown ⟨h, rfl⟩ ?_
  rintro state next action hcustody - ⟨hfinished, hsame⟩ - hstep
  have hmove := step_move hstep
  exact ⟨finished_step hcustody hmove hfinished,
    (finished_unchanged hcustody hmove hfinished).trans hsame⟩

/-- As long as ids do not wrap around, the id of a finished thread is not in the registry. -/
theorem Custody.absent_of_finished (h : s.Custody) (hbound : s.spawned ≤ 2 ^ 64)
    (hslot : s.Finished slot) : s.clients.lookup (.ofNat slot) = none := by
  cases hfound : s.clients.lookup (.ofNat slot) with
  | none => rfl
  | some client =>
      obtain ⟨other, hreg⟩ := h.registered _ _ hfound
      have hkey := congrArg UInt64.toNat hreg.key
      have hlt := hslot.1
      have hother := hreg.bound
      rw [UInt64.toNat_ofNat_of_lt' (show slot < 2 ^ 64 by omega),
        UInt64.toNat_ofNat_of_lt' (show other < 2 ^ 64 by omega)] at hkey
      exact absurd hkey (hslot.ne_of_connected hreg.service.1)

/-! ## The registry across a removal -/

/-- The registry has lost this id since the clients mutex was acquired, and nothing else. -/
def Dropped (s : Server) (id : UInt64) : Prop :=
  s.clients.lookup id = none ∧
    ∀ other, other ≠ id → s.clients.lookup other = s.atLock.lookup other

/-- The registry had this client under this id when the mutex was acquired. -/
structure Took (s : Server) (id : UInt64) (client : Client) (slot : Nat) : Prop where
  found : s.atLock.lookup id = some client
  drives : client.Drives slot
  key : id = .ofNat slot

/-- What `remove_client(id)` records about the client that the registry had under the id. -/
def Recorded (s : Server) (id : UInt64) (recorded : Option Nat) : Prop :=
  (s.atLock.lookup id = none ∧ recorded = none) ∨
    ∃ client slot, s.Took id client slot ∧ recorded = some slot

/-- The registry against the registry at the time of the lock, at each point of a removal. -/
def Taken (s : Server) : Call → Prop
  | .removeTake _ => s.clients = s.atLock
  | .removeSend id client | .removeJoin id client => (∃ slot, s.Took id client slot) ∧ s.Dropped id
  | .dropSend _ (.removed id recorded _) | .dropJoin _ (.removed id recorded _)
  | .unlock (.removed id recorded _) => s.Recorded id recorded ∧ s.Dropped id
  | _ => True

theorem Taken.of_not_holding (hnot : call.holdsClients = false) : s.Taken call := by
  cases call with
  | removeTake | removeSend | removeJoin | dropSend | dropJoin | unlock => cases hnot
  | _ => trivial

/-- A step that neither locks nor changes the registry keeps what the points say about it. -/
theorem Taken.keep (h : s.Taken call) (hclients : t.clients = s.clients)
    (hlock : t.atLock = s.atLock) : t.Taken call := by
  have hdropped : ∀ id, s.Dropped id → t.Dropped id := by
    rintro id ⟨hnone, hother⟩
    exact ⟨by rw [hclients]; exact hnone, by rw [hclients, hlock]; exact hother⟩
  have htook : ∀ id client slot, s.Took id client slot → t.Took id client slot :=
    fun id client slot htook => ⟨by rw [hlock]; exact htook.found, htook.drives, htook.key⟩
  cases call with
  | removeTake id => exact hclients.trans (h.trans hlock.symm)
  | removeSend id client | removeJoin id client =>
      obtain ⟨⟨slot, hslot⟩, hid⟩ := h
      exact ⟨⟨slot, htook id client slot hslot⟩, hdropped id hid⟩
  | dropSend client reply | dropJoin client reply | unlock reply =>
      cases reply with
      | removed id recorded result =>
          obtain ⟨⟨hnone, hrecorded⟩ | ⟨client, slot, hslot, hrecorded⟩, hid⟩ := h
          · exact ⟨.inl ⟨by rw [hlock]; exact hnone, hrecorded⟩, hdropped id hid⟩
          · exact ⟨.inr ⟨client, slot, htook id client slot hslot, hrecorded⟩, hdropped id hid⟩
      | _ => trivial
  | _ => trivial

/-- A caller that keeps the registry and the recorded lock moves. -/
theorem taken_move (h : ∀ k, s.Taken (s.callers k))
    (hcallers : t.callers = Function.update s.callers k call) (hclients : t.clients = s.clients)
    (hlock : t.atLock = s.atLock) (hcall : s.Taken call) : ∀ k, t.Taken (t.callers k) := by
  rw [hcallers]
  exact (Function.forall_update_iff s.callers fun _ => t.Taken).mpr
    ⟨hcall.keep hclients hlock, fun j _ => (h j).keep hclients hlock⟩

/-- A caller inside the critical section moves, after which it alone holds the mutex. -/
theorem taken_critical (howned : Locks.Owned t.clientsLock t.holdsClients)
    (hcallers : t.callers = Function.update s.callers k call) (hhold : call.holdsClients = true)
    (hcall : t.Taken call) : ∀ k, t.Taken (t.callers k) := by
  intro j
  by_cases hj : j = k
  · subst j
    rw [hcallers, Function.update_self]
    exact hcall
  · refine .of_not_holding ?_
    by_contra hother
    have hk : t.holdsClients (.caller k) := by simpa [holdsClients, hcallers] using hhold
    have hsame := howned.unique
      (show t.holdsClients (.caller j) by simpa [holdsClients] using hother) hk
    injection hsame with hsame
    exact hj hsame

theorem taken_step (hlocks : s.LocksHeld) (hcustody : s.Custody) (h : ∀ k, s.Taken (s.callers k))
    (hmove : Move s action t) : ∀ k, t.Taken (t.callers k) := by
  -- a caller without the mutex has nothing to keep, and only one can have it
  have howned := clients_owned_step hlocks hmove
  have hkeep : t.clients = s.clients → t.atLock = s.atLock → t.callers = s.callers →
      ∀ k, t.Taken (t.callers k) := by
    intro hclients hlock hcallers j
    rw [hcallers]
    exact (h j).keep hclients hlock
  cases hmove with
  | call k request =>
      exact taken_move h rfl rfl rfl (.of_not_holding (entry_holds_nothing request).1)
  | addLock k tickers callback => exact taken_critical howned rfl rfl trivial
  | removeLock k id => exact taken_critical howned rfl rfl (show s.clients = s.clients from rfl)
  | addInsert k client => exact taken_critical howned rfl rfl trivial
  | addReplace k client old => exact taken_critical howned rfl rfl trivial
  | removeTake k id client hat hfound =>
      have htaken := h k
      rw [hat] at htaken
      obtain ⟨slot, hreg⟩ := hcustody.registered id client hfound
      refine taken_critical howned rfl rfl
        ⟨⟨slot, ?_, hreg.drives, hreg.key⟩, ?_, fun other hother => ?_⟩
      · show s.atLock.lookup id = some client
        rw [← hfound, htaken]
      · exact AList.lookup_erase _ _
      · rw [show AList.lookup other _ = s.clients.lookup other from AList.lookup_erase_ne hother]
        rw [htaken]
        rfl
  | removeNone k id hat hnone =>
      have htaken := h k
      rw [hat] at htaken
      have hlock : s.atLock = s.clients := htaken.symm
      refine taken_critical howned rfl rfl ⟨.inl ⟨?_, rfl⟩, hnone, fun other hother => ?_⟩
      · show s.atLock.lookup id = none
        rw [hlock, hnone]
      · show s.clients.lookup other = s.atLock.lookup other
        rw [hlock]
  | removeSend k id client threads hat =>
      have htaken := h k
      rw [hat] at htaken
      exact taken_move h rfl rfl rfl htaken
  | removeSendFails k id client error hat | removeJoin k id client hat =>
      have htaken := h k
      rw [hat] at htaken
      obtain ⟨⟨slot, htook⟩, hdropped⟩ := htaken
      exact taken_move h rfl rfl rfl ⟨.inr ⟨client, slot, htook, htook.drives.1⟩, hdropped⟩
  | dropSend k client reply hat | dropJoin k client reply hat =>
      have htaken := h k
      rw [hat] at htaken
      exact taken_move h rfl rfl rfl (by cases reply <;> exact htaken)
  | notifyLock b todo hat hfree =>
      have hclients := hlocks.clients
      rw [hfree] at hclients
      intro j
      have hnot : (s.callers j).holdsClients = false := by
        simpa [holdsClients] using hclients.free (.caller j)
      exact .of_not_holding hnot
  | take k | addStart k | unlock k | startLock k | startRunning k | startSpawn k | startStore k
  | shutdownFlag k | shutdownLock k | shutdownTake k | shutdownNone k | shutdownJoin k =>
      exact taken_move h rfl rfl rfl trivial
  | _ => exact hkeep rfl rfl rfl

/-- In every reachable state the points of a removal tell the truth about the registry. -/
theorem Reachable.taken {quotes : Quotes} (h : Reachable quotes s) :
    ∀ k, s.Taken (s.callers k) := by
  refine Transition.Reaches.invariant_with (fun state => ∀ k, state.Taken (state.callers k)) h
    (fun hrun => And.intro (Reachable.locks_held hrun) (Reachable.custody hrun))
    (fun _ => trivial) ?_
  rintro state next action ⟨hlocks, hcustody⟩ - hinv - hstep
  exact taken_step hlocks hcustody hinv (step_move hstep)

/-- What a step makes of an old thread has the same tickers and callback. -/
theorem ThreadMove.frame {th : ClientThread} {i : Nat} (h : ThreadMove s i th)
    (hold : i < s.spawned) :
    th.tickers = (s.threads i).tickers ∧ th.callback = (s.threads i).callback := by
  cases h with
  | spawn tickers callback hnew => omega
  | update | shutdown =>
      unfold ClientThread.offer
      split <;> exact ⟨rfl, rfl⟩
  | recv th hat hrecv =>
      rcases ClientThread.recv_cases hrecv with ⟨_, _, _, rfl⟩ | ⟨_, _, _, rfl⟩ | ⟨_, _, rfl⟩ <;>
        exact ⟨rfl, rfl⟩
  | processTicker =>
      unfold ClientThread.processTicker
      split <;> exact ⟨rfl, rfl⟩
  | _ => exact ⟨rfl, rfl⟩

/-- The clients that the registry had when the mutex was acquired drive threads with their tickers
and their callbacks. -/
def LockedClients (s : Server) : Prop :=
  ∀ id client, s.atLock.lookup id = some client → ∃ slot, slot < s.spawned ∧ client.Drives slot ∧
    (s.threads slot).tickers = client.tickers ∧ (s.threads slot).callback = client.callback

theorem locked_clients_step (hcustody : s.Custody) (h : s.LockedClients)
    (hmove : Move s action t) : t.LockedClients := by
  have hframe := fun i => (thread_step hcustody hmove i).frame
  have hspawned := spawned_le_step hmove
  have hkeep : t.atLock = s.atLock → t.LockedClients := by
    intro hlock id client hfound
    rw [hlock] at hfound
    obtain ⟨slot, hbound, hdrives, htickers, hcallback⟩ := h id client hfound
    obtain ⟨hsame, hsame'⟩ := hframe slot hbound
    exact ⟨slot, by omega, hdrives, hsame.trans htickers, hsame'.trans hcallback⟩
  have hregistered : ∀ id client, s.clients.lookup id = some client → ∃ slot, slot < s.spawned ∧
      client.Drives slot ∧ (s.threads slot).tickers = client.tickers ∧
      (s.threads slot).callback = client.callback := by
    intro id client hfound
    obtain ⟨slot, hreg⟩ := hcustody.registered id client hfound
    exact ⟨slot, hreg.bound, hreg.drives, hreg.tickers, hreg.callback⟩
  cases hmove with
  | addLock | removeLock | notifyLock => exact hregistered
  | _ => exact hkeep rfl

theorem Reachable.locked_clients {quotes : Quotes} (h : Reachable quotes s) : s.LockedClients := by
  refine Transition.Reaches.invariant_with LockedClients h (fun hrun => Reachable.custody hrun)
    (fun id client hfound => ?_) ?_
  · simp [init] at hfound
  · exact fun hcustody _ hinv _ hstep => locked_clients_step hcustody hinv (step_move hstep)

/-! ## Removal is final -/

/-- When `remove_client(id)` is about to return, with either result, the registry has lost exactly
this id; and if the registry had a client under it, then from here on, whatever the other threads
do, its thread has terminated, nothing stands behind a `Shutdown` in what its channel accepted,
its callback is not invoked again, and the id stays out of the registry until ids wrap around. -/
theorem removal_is_final {quotes : Quotes} (hs : Reachable quotes s)
    (hat : s.callers k = .unlock (.removed id recorded result)) :
    s.clients.lookup id = none ∧
    (∀ other, other ≠ id → s.clients.lookup other = s.atLock.lookup other) ∧
    ∀ client, s.atLock.lookup id = some client → ∃ slot, client.Drives slot ∧
      recorded = some slot ∧ ∀ u, Transition.Reachable step s u →
        (u.threads slot).point = .exited ∧
        (∀ before behind, (u.threads slot).sent = before ++ .shutdown :: behind → behind = []) ∧
        (u.threads slot).rounds = (s.threads slot).rounds ∧
        (u.spawned ≤ 2 ^ 64 → u.clients.lookup id = none) := by
  have htaken := Reachable.taken hs k
  have hsettled := (Reachable.custody hs).calls k
  rw [hat] at htaken hsettled
  obtain ⟨hrecorded, hnone, hother⟩ := htaken
  refine ⟨hnone, hother, fun client hfound => ?_⟩
  rcases hrecorded with ⟨hmissing, -⟩ | ⟨taken, slot, htook, rfl⟩
  · rw [hmissing] at hfound
    cases hfound
  · obtain rfl : taken = client := Option.some.inj (htook.found.symm.trans hfound)
    refine ⟨slot, htook.drives, rfl, fun u hrun => ?_⟩
    obtain ⟨hfinished, hsame⟩ := Reachable.finished_forever hs hrun hsettled
    have hcustody : u.Custody := Reachable.custody (hs.trans hrun)
    refine ⟨hfinished.2.2, fun before behind => (hcustody.orderly slot).nothing_after_shutdown,
      by rw [hsame], fun hbound => ?_⟩
    rw [htook.key]
    exact hcustody.absent_of_finished hbound hfinished

/-- As in `oneTick`, but the client is removed while its `Update` is still in the channel: its
thread takes it and then the `Shutdown`. -/
def removedBehindUpdate : List Action :=
  oneTick.take 19 ++ [.call (.other 0) (.removeClient 0), .caller (.other 0), .caller (.other 0),
    .caller (.other 0)] ++ List.replicate 7 (.client 0 .ok) ++ List.replicate 3 (.caller (.other 0))

theorem removal_is_final_one_client : ∃ s, Reachable oneQuote s ∧
    s.atLock.lookup 0 = some ⟨[['A']], .closure 0, some 0, some 0⟩ ∧ s.clients.lookup 0 = none ∧
    ∃ r, (s.threads 0).rounds = [r] ∧ r.delivered = [(['A'], ⟨['A'], ⟨7⟩, 2, 5⟩)] ∧
      ∀ u, Transition.Reachable step s u → (u.threads 0).point = .exited ∧
        (u.threads 0).rounds = [r] := by
  obtain ⟨s, hrun, hat, hfound, r, hrounds, hdelivered⟩ :
      ∃ s, Transition.run step (init oneQuote) removedBehindUpdate = some s ∧
        s.callers (.other 0) = .unlock (.removed 0 (some 0) (.ok ())) ∧
        s.atLock.lookup 0 = some ⟨[['A']], .closure 0, some 0, some 0⟩ ∧
        ∃ r, (s.threads 0).rounds = [r] ∧ r.delivered = [(['A'], ⟨['A'], ⟨7⟩, 2, 5⟩)] :=
    ⟨_, rfl, rfl, rfl, _, rfl, rfl⟩
  have hs : Reachable oneQuote s := Transition.reachable_of_run hrun
  obtain ⟨hnone, -, hfinal⟩ := removal_is_final hs hat
  obtain ⟨slot, -, hslot, hlater⟩ := hfinal _ hfound
  obtain rfl : 0 = slot := Option.some.inj hslot
  refine ⟨s, hs, hfound, hnone, r, hrounds, hdelivered, fun u hu => ?_⟩
  obtain ⟨hexited, -, hsame, -⟩ := hlater u hu
  exact ⟨hexited, hsame.trans hrounds⟩

end QuoteStreamer.Server
