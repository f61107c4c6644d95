import QuoteStreamer.Client.Backlog
import QuoteStreamer.Lib.InPlace
import QuoteStreamer.QuoteServer.LockOwnership

/-!
# Who may send to a client thread

Each client thread is in one place at a time: driven by a client in the registry, by a client that
a caller holds inside its critical section, or by none because its client was torn down. `Custody`
states this together with what the channel of each thread has accepted: `Update`s and at most one
`Shutdown` behind them. Everything that must not happen after a removal follows from it.
-/

namespace QuoteStreamer

namespace ClientThread

/-- A change that neither tears the thread down nor lets it escape a teardown: the thread's own
steps, and an `Update` sent to it. -/
structure Calm (th after : ClientThread) : Prop where
  tickers : after.tickers = th.tickers
  callback : after.callback = th.callback
  connected : after.connected = th.connected
  sent : after.sent = th.sent ∨ after.sent = th.sent ++ [.update]
  closed : th.point.receiving = false → after.point.receiving = false
  exited : th.point = .exited → after.point = .exited

variable {th after : ClientThread}

theorem Calm.refl (th : ClientThread) : th.Calm th :=
  ⟨rfl, rfl, rfl, .inl rfl, id, id⟩

theorem Calm.shutdown_mem_iff (h : th.Calm after) :
    ClientCommand.shutdown ∈ after.sent ↔ ClientCommand.shutdown ∈ th.sent := by
  rcases h.sent with hsent | hsent <;> simp [hsent]

theorem Calm.in_service (h : th.Calm after) (hservice : th.InService) : after.InService :=
  ⟨h.connected.trans hservice.1, fun hmem => hservice.2 (h.shutdown_mem_iff.mp hmem)⟩

/-- An `Update` offered to a thread does not disturb it. -/
theorem calm_offer (th : ClientThread) (version : Nat) : th.Calm (th.offer .update version) := by
  unfold offer
  split
  · exact ⟨rfl, rfl, rfl, .inr rfl, id, id⟩
  · exact .refl th

/-- Receiving a command is calm. -/
theorem calm_recv (h : th.recv = some after) (hat : th.point = .recv) :
    th.Calm after ∧ after.sent = th.sent := by
  have hnot : th.point ≠ .exited := by simp [hat]
  have hreceiving : th.point.receiving = true := by rw [hat]; rfl
  rcases recv_cases h with ⟨_, _, _, rfl⟩ | ⟨_, _, _, rfl⟩ | ⟨_, _, rfl⟩ <;>
    exact ⟨⟨rfl, rfl, rfl, .inl rfl, by simp [hreceiving], fun h => absurd h hnot⟩, rfl⟩

/-- One iteration of the ticker loop is calm. -/
theorem calm_process {ticker : Str} {rest : List Str} (hat : th.point = .round (ticker :: rest))
    (quotes : Quotes) (version : Nat) (result : CallbackResult) :
    th.Calm (th.processTicker ticker rest quotes version result) ∧
      (th.processTicker ticker rest quotes version result).sent = th.sent := by
  have hnot : th.point ≠ .exited := by simp [hat]
  have hreceiving : th.point.receiving = true := by rw [hat]; rfl
  unfold processTicker
  split <;>
    exact ⟨⟨rfl, rfl, rfl, .inl rfl, by simp [hreceiving], fun h => absurd h hnot⟩, rfl⟩

/-- Sending an `Update` to a thread in service keeps its channel orderly. -/
theorem Orderly.offer_update (h : th.Orderly) (hnone : ClientCommand.shutdown ∉ th.sent)
    (version : Nat) : (th.offer .update version).Orderly := by
  unfold offer
  split
  · obtain ⟨count, hsent | hsent⟩ := h
    · exact ⟨count + 1, .inl (by simp [push, hsent, List.replicate_succ'])⟩
    · exact absurd (by simp [hsent]) hnone
  · exact h

/-- So does the first `Shutdown`. -/
theorem Orderly.push_shutdown (h : th.Orderly) (hnone : ClientCommand.shutdown ∉ th.sent)
    (version : Nat) : (th.push .shutdown version).Orderly := by
  obtain ⟨count, hsent | hsent⟩ := h
  · exact ⟨count, .inr (by simp [push, hsent])⟩
  · exact absurd (by simp [hsent]) hnone

end ClientThread

/-- If the answer is about a removal, then of the client with this slot. -/
def Reply.Concerns (slot : Nat) : Reply → Prop
  | .removed _ recorded _ => recorded = some slot
  | _ => True

namespace Server

variable {s t : Server} {action : Action} {k : Caller} {call : Call} {client : Client}
  {id : UInt64} {slot : Nat} {reply : Reply}

/-! ## The invariant -/

/-- No client in the registry drives the thread. -/
def Unregistered (s : Server) (slot : Nat) : Prop :=
  ∀ id client, s.clients.lookup id = some client → ¬ client.Drives slot

/-- The thread was spawned, no `Sender` of its channel is left, and it has terminated. -/
def Finished (s : Server) (slot : Nat) : Prop :=
  slot < s.spawned ∧ (s.threads slot).connected = false ∧ (s.threads slot).point = .exited

/-- The registry holds this client, whose thread is in service. Ids are slots modulo `2 ^ 64`. -/
structure Registered (s : Server) (id : UInt64) (client : Client) (slot : Nat) : Prop where
  bound : slot < s.spawned
  drives : client.Drives slot
  key : id = .ofNat slot
  service : (s.threads slot).InService
  tickers : (s.threads slot).tickers = client.tickers
  callback : (s.threads slot).callback = client.callback

/-- A caller holds this client outside the registry, with the `Sender` of its thread. -/
structure Held (s : Server) (client : Client) (slot : Nat) : Prop where
  bound : slot < s.spawned
  drives : client.Drives slot
  connected : (s.threads slot).connected = true
  unregistered : s.Unregistered slot

/-- The answer of `remove_client` names no thread, or a finished one. -/
def Settled (s : Server) : Reply → Prop
  | .removed _ (some slot) _ => s.Finished slot
  | _ => True

/-- What holds at each point of a critical section of the clients mutex, and of an answer. -/
def Sound (s : Server) : Call → Prop
  | .addInsert client => ∃ slot, s.Held client slot ∧ (s.threads slot).InService ∧
      s.spawned = slot + 1 ∧ s.clientsCount = .ofNat slot ∧
      (s.threads slot).tickers = client.tickers ∧ (s.threads slot).callback = client.callback
  | .removeSend _ client => ∃ slot, s.Held client slot ∧ (s.threads slot).InService
  | .removeJoin _ client => ∃ slot, s.Held client slot ∧ .shutdown ∈ (s.threads slot).sent
  | .dropSend client reply => (client.tx = none ∧ client.threadHandle = none ∧ s.Settled reply) ∨
      ∃ slot, s.Held client slot ∧ (s.threads slot).InService ∧ reply.Concerns slot
  | .dropJoin client reply => (client.tx = none ∧ client.threadHandle = none ∧ s.Settled reply) ∨
      ∃ slot, s.Held client slot ∧ reply.Concerns slot ∧
        (.shutdown ∈ (s.threads slot).sent ∨ (s.threads slot).point.receiving = false)
  | .unlock reply | .returned reply => s.Settled reply
  | _ => True

/-- Every client thread is driven by a registered client, by a client that a caller holds, or by
none. -/
structure Custody (s : Server) : Prop where
  registered : ∀ id client, s.clients.lookup id = some client →
    ∃ slot, s.Registered id client slot
  calls : ∀ k, s.Sound (s.callers k)
  counted : (∀ k client, s.callers k ≠ .addInsert client) → s.clientsCount = .ofNat s.spawned
  orderly : ∀ i, (s.threads i).Orderly

/-! ## Steps that leave the registry and the handles alone -/

/-- Nothing that the points of the callers depend on has changed for the worse. -/
structure Kept (s t : Server) : Prop where
  clients : t.clients = s.clients
  spawned : t.spawned = s.spawned
  count : t.clientsCount = s.clientsCount
  calm : ∀ i, (s.threads i).Calm (t.threads i)

theorem Kept.unregistered (h : s.Kept t) (hslot : s.Unregistered slot) : t.Unregistered slot := by
  intro id client hfound
  rw [h.clients] at hfound
  exact hslot id client hfound

theorem Kept.held (h : s.Kept t) (hheld : s.Held client slot) : t.Held client slot where
  bound := by rw [h.spawned]; exact hheld.bound
  drives := hheld.drives
  connected := (h.calm slot).connected.trans hheld.connected
  unregistered := h.unregistered hheld.unregistered

theorem Kept.finished (h : s.Kept t) (hslot : s.Finished slot) : t.Finished slot := by
  obtain ⟨hbound, hconnected, hpoint⟩ := hslot
  exact ⟨by rw [h.spawned]; exact hbound, (h.calm slot).connected.trans hconnected,
    (h.calm slot).exited hpoint⟩

theorem Kept.settled (h : s.Kept t) (hreply : s.Settled reply) : t.Settled reply := by
  cases reply with
  | removed id recorded result =>
      cases recorded with
      | none => trivial
      | some slot => exact h.finished hreply
  | _ => trivial

theorem Kept.registered (h : s.Kept t) (hreg : s.Registered id client slot) :
    t.Registered id client slot where
  bound := by rw [h.spawned]; exact hreg.bound
  drives := hreg.drives
  key := hreg.key
  service := (h.calm slot).in_service hreg.service
  tickers := (h.calm slot).tickers.trans hreg.tickers
  callback := (h.calm slot).callback.trans hreg.callback

theorem Kept.sound (h : s.Kept t) (hcall : s.Sound call) : t.Sound call := by
  cases call with
  | addInsert client =>
      obtain ⟨slot, hheld, hservice, hspawned, hcount, htickers, hcallback⟩ := hcall
      refine ⟨slot, h.held hheld, (h.calm slot).in_service hservice, ?_, ?_, ?_, ?_⟩
      · rw [h.spawned, hspawned]
      · rw [h.count, hcount]
      · rw [(h.calm slot).tickers, htickers]
      · rw [(h.calm slot).callback, hcallback]
  | removeSend id client =>
      obtain ⟨slot, hheld, hservice⟩ := hcall
      exact ⟨slot, h.held hheld, (h.calm slot).in_service hservice⟩
  | removeJoin id client =>
      obtain ⟨slot, hheld, hsent⟩ := hcall
      exact ⟨slot, h.held hheld, (h.calm slot).shutdown_mem_iff.mpr hsent⟩
  | dropSend client reply =>
      rcases hcall with ⟨htx, hhandle, hreply⟩ | ⟨slot, hheld, hservice, hconcerns⟩
      · exact .inl ⟨htx, hhandle, h.settled hreply⟩
      · exact .inr ⟨slot, h.held hheld, (h.calm slot).in_service hservice, hconcerns⟩
  | dropJoin client reply =>
      rcases hcall with ⟨htx, hhandle, hreply⟩ | ⟨slot, hheld, hconcerns, hsent | hclosed⟩
      · exact .inl ⟨htx, hhandle, h.settled hreply⟩
      · exact .inr ⟨slot, h.held hheld, hconcerns,
          .inl ((h.calm slot).shutdown_mem_iff.mpr hsent)⟩
      · exact .inr ⟨slot, h.held hheld, hconcerns, .inr ((h.calm slot).closed hclosed)⟩
  | unlock reply | returned reply => exact h.settled hcall
  | _ => trivial

/-- A step of a client or background thread. -/
theorem Custody.keep (h : s.Custody) (hkept : s.Kept t) (hcallers : t.callers = s.callers)
    (horderly : ∀ i, (t.threads i).Orderly) : t.Custody where
  registered id client hfound := by
    rw [hkept.clients] at hfound
    obtain ⟨slot, hreg⟩ := h.registered id client hfound
    exact ⟨slot, hkept.registered hreg⟩
  calls k := by
    rw [hcallers]
    exact hkept.sound (h.calls k)
  counted hnone := by
    rw [hcallers] at hnone
    rw [hkept.count, hkept.spawned, h.counted hnone]
  orderly := horderly

/-- A caller moves and touches neither the threads nor the registry. -/
theorem Custody.move (h : s.Custody) (hcallers : t.callers = Function.update s.callers k call)
    (hclients : t.clients = s.clients) (hthreads : t.threads = s.threads)
    (hspawned : t.spawned = s.spawned) (hcount : t.clientsCount = s.clientsCount)
    (hcall : s.Sound call) (hnot : ∀ client, s.callers k ≠ .addInsert client) : t.Custody := by
  have hkept : s.Kept t := ⟨hclients, hspawned, hcount, fun i => by rw [hthreads]; exact .refl _⟩
  refine ⟨fun id client hfound => ?_, fun j => ?_, fun hnone => ?_, fun i => ?_⟩
  · rw [hclients] at hfound
    obtain ⟨slot, hreg⟩ := h.registered id client hfound
    exact ⟨slot, hkept.registered hreg⟩
  · rw [hcallers]
    exact (Function.forall_update_iff s.callers fun _ => t.Sound).mpr
      ⟨hkept.sound hcall, fun i _ => hkept.sound (h.calls i)⟩ j
  · rw [hcount, hspawned]
    refine h.counted fun j client => ?_
    by_cases hj : j = k
    · subst j
      exact hnot client
    · have hother := hnone j client
      rw [hcallers, Function.update_of_ne hj] at hother
      exact hother
  · rw [hthreads]
    exact h.orderly i

/-! ## Steps inside the critical section of the clients mutex -/

/-- Only one caller is at a point that holds the clients mutex. -/
theorem LocksHeld.other_not_holding (h : s.LocksHeld) {j : Caller}
    (hk : (s.callers k).holdsClients = true) (hj : j ≠ k) : (s.callers j).holdsClients = false := by
  by_contra hholds
  have hholds' : (s.callers j).holdsClients = true := by simpa using hholds
  have hsame : ThreadId.caller j = ThreadId.caller k := h.clients.unique hholds' hk
  injection hsame with hsame
  exact hj hsame

/-- Outside the critical section a caller depends only on which threads are finished. -/
theorem Sound.of_not_holding (hcall : s.Sound call) (hnot : call.holdsClients = false)
    (hfinished : ∀ slot, s.Finished slot → t.Finished slot) : t.Sound call := by
  cases call with
  | returned reply =>
      cases reply with
      | removed id recorded result =>
          cases recorded with
          | none => trivial
          | some slot => exact hfinished slot hcall
      | _ => trivial
  | addInsert | removeSend | removeJoin | dropSend | dropJoin | unlock => cases hnot
  | _ => trivial

/-- The caller in the critical section moves. -/
theorem Custody.critical (h : s.Custody) (hlocks : s.LocksHeld)
    (hhold : (s.callers k).holdsClients = true)
    (hcallers : t.callers = Function.update s.callers k call)
    (hregistered : ∀ id client, t.clients.lookup id = some client →
      ∃ slot, t.Registered id client slot)
    (hfinished : ∀ slot, s.Finished slot → t.Finished slot) (hcall : t.Sound call)
    (hcounted : (∀ client, call ≠ .addInsert client) → t.clientsCount = .ofNat t.spawned)
    (horderly : ∀ i, (t.threads i).Orderly) : t.Custody where
  registered := hregistered
  calls j := by
    rw [hcallers]
    have hother : ∀ i, i ≠ k → t.Sound (s.callers i) := fun i hi =>
      (h.calls i).of_not_holding (hlocks.other_not_holding hhold hi) hfinished
    exact (Function.forall_update_iff s.callers fun _ => t.Sound).mpr ⟨hcall, hother⟩ j
  counted hnone := by
    refine hcounted fun client => ?_
    have hself := hnone k client
    rwa [hcallers, Function.update_self] at hself
  orderly := horderly

section OneThread

variable {th : ClientThread} (hthreads : t.threads = Function.update s.threads slot th)
include hthreads

/-- A thread with a `Sender` is not finished, so replacing it keeps the finished ones. -/
theorem finished_of_update (hspawned : s.spawned ≤ t.spawned)
    (hslot : (s.threads slot).connected = true ∨ s.spawned ≤ slot) {i : Nat}
    (hi : s.Finished i) : t.Finished i := by
  obtain ⟨hbound, hconnected, hpoint⟩ := hi
  have hne : i ≠ slot := by
    rintro rfl
    rcases hslot with hslot | hslot
    · rw [hslot] at hconnected
      cases hconnected
    · omega
  refine ⟨by omega, ?_, ?_⟩ <;> rw [hthreads, Function.update_of_ne hne]
  · exact hconnected
  · exact hpoint

/-- Replacing another thread keeps a registered client in service. -/
theorem Registered.of_update {i : Nat} (hreg : s.Registered id client i) (hne : i ≠ slot)
    (hspawned : s.spawned ≤ t.spawned) : t.Registered id client i := by
  have hsame : t.threads i = s.threads i := by rw [hthreads, Function.update_of_ne hne]
  have hbound := hreg.bound
  refine ⟨by omega, hreg.drives, hreg.key, ?_, ?_, ?_⟩ <;> rw [hsame]
  · exact hreg.service
  · exact hreg.tickers
  · exact hreg.callback

/-- Replacing a thread by an orderly one keeps all threads orderly. -/
theorem orderly_of_update (h : s.Custody) (horderly : th.Orderly) (i : Nat) :
    (t.threads i).Orderly := by
  rw [hthreads]
  by_cases hi : i = slot
  · subst i
    simpa using horderly
  · simpa [hi] using h.orderly i

/-- The caller in the critical section changes a thread that no registered client drives. -/
theorem Custody.touch (h : s.Custody) (hlocks : s.LocksHeld)
    (hhold : (s.callers k).holdsClients = true)
    (hcallers : t.callers = Function.update s.callers k call) (hclients : t.clients = s.clients)
    (hslot : s.Unregistered slot) (hspawned : s.spawned ≤ t.spawned)
    (hsender : (s.threads slot).connected = true ∨ s.spawned ≤ slot) (horderly : th.Orderly)
    (hcall : t.Sound call)
    (hcounted : (∀ client, call ≠ .addInsert client) → t.clientsCount = .ofNat t.spawned) :
    t.Custody := by
  refine h.critical hlocks hhold hcallers (fun id client hfound => ?_)
    (fun i => finished_of_update hthreads hspawned hsender) hcall hcounted
    (orderly_of_update hthreads h horderly)
  rw [hclients] at hfound
  obtain ⟨i, hreg⟩ := h.registered id client hfound
  have hne : i ≠ slot := by
    rintro rfl
    exact hslot id client hfound hreg.drives
  exact ⟨i, hreg.of_update hthreads hne hspawned⟩

end OneThread

/-- Nobody has spawned a thread into the next slot, so no registered client drives it. -/
theorem Custody.next_unregistered (h : s.Custody) : s.Unregistered s.spawned := by
  intro id client hfound hdrives
  obtain ⟨slot, hreg⟩ := h.registered id client hfound
  have heq := hreg.drives.slot_eq hdrives
  have hbound := hreg.bound
  omega

/-- While a caller holds the clients mutex at another point, the counter is up to date. -/
theorem Custody.counted_inside (h : s.Custody) (hlocks : s.LocksHeld)
    (hhold : (s.callers k).holdsClients = true) (hnot : ∀ client, s.callers k ≠ .addInsert client) :
    s.clientsCount = .ofNat s.spawned := by
  refine h.counted fun j client hj => ?_
  by_cases hjk : j = k
  · subst j
    exact hnot client hj
  · have hfree := hlocks.other_not_holding hhold hjk
    rw [hj] at hfree
    cases hfree

/-- `Client::start` under the lock. -/
theorem custody_add_start (h : s.Custody) (hlocks : s.LocksHeld) {tickers : List Str}
    {callback : Callback} (hat : s.callers k = .addStart tickers callback) :
    ({ s with
      threads := Function.update s.threads s.spawned (.spawn tickers callback)
      spawned := s.spawned + 1 }.setCall k
        (.addInsert ((Client.new tickers callback).start s.spawned))).Custody := by
  have hhold : (s.callers k).holdsClients = true := by rw [hat]; rfl
  have hcount := h.counted_inside hlocks hhold (by rw [hat]; simp)
  have hspawn : (ClientThread.spawn tickers callback).InService :=
    ⟨rfl, by simp [ClientThread.spawn]⟩
  refine h.touch rfl hlocks hhold rfl rfl h.next_unregistered (Nat.le_succ _)
    (.inr (Nat.le_refl _)) ⟨0, .inl rfl⟩ ⟨s.spawned, ⟨?_, ?_, ?_, ?_⟩, ?_, rfl, hcount, ?_, ?_⟩
    fun hno => absurd rfl (hno _)
  · exact Nat.lt_succ_self _
  · exact Client.start_drives _ _
  · simpa [setCall] using hspawn.1
  · exact h.next_unregistered
  · simpa [setCall] using hspawn
  · simp [setCall, ClientThread.spawn, Client.new, Client.start]
  · simp [setCall, ClientThread.spawn, Client.new, Client.start]

/-- A registered client after an insertion is the new one, or was there before under another id. -/
theorem registered_insert (h : s.Custody) {new : Client} {newId : UInt64}
    (hclients : t.clients = s.clients.insert newId new) (hthreads : t.threads = s.threads)
    (hspawned : t.spawned = s.spawned) (hnew : ∃ slot, t.Registered newId new slot)
    (hfound : t.clients.lookup id = some client) : ∃ slot, t.Registered id client slot := by
  rw [hclients] at hfound
  rcases InPlace.lookup_insert_cases hfound with ⟨rfl, rfl⟩ | ⟨-, hfound⟩
  · exact hnew
  · obtain ⟨slot, hreg⟩ := h.registered id client hfound
    have hkept : s.Registered id client slot → t.Registered id client slot := fun hreg =>
      ⟨by rw [hspawned]; exact hreg.bound, hreg.drives, hreg.key,
        by rw [hthreads]; exact hreg.service, by rw [hthreads]; exact hreg.tickers,
        by rw [hthreads]; exact hreg.callback⟩
    exact ⟨slot, hkept hreg⟩

/-- `fetch_add` and `insert` under the lock; `next` is where the caller goes. -/
theorem custody_insert (h : s.Custody) (hlocks : s.LocksHeld) {history : List Event}
    (hat : s.callers k = .addInsert client)
    (hcall : ({ s with
      clientsCount := s.clientsCount + 1
      clients := s.clients.insert s.clientsCount client
      history := history }.setCall k call).Sound call) :
    ({ s with
      clientsCount := s.clientsCount + 1
      clients := s.clients.insert s.clientsCount client
      history := history }.setCall k call).Custody := by
  have hhold : (s.callers k).holdsClients = true := by rw [hat]; rfl
  have hsound := h.calls k
  rw [hat] at hsound
  obtain ⟨slot, hheld, hservice, hspawned, hcount, htickers, hcallback⟩ := hsound
  refine h.critical hlocks hhold rfl (fun id' client' hfound => ?_) (fun i hi => hi) hcall
    (fun _ => ?_) h.orderly
  · exact registered_insert h rfl rfl rfl
      ⟨slot, hheld.bound, hheld.drives, hcount, hservice, htickers, hcallback⟩ hfound
  · show s.clientsCount + 1 = UInt64.ofNat s.spawned
    rw [hcount, hspawned]
    exact (UInt64.ofNat_add slot 1).symm

/-- `remove` takes a client out of the registry. -/
theorem custody_take (h : s.Custody) (hlocks : s.LocksHeld)
    (hat : s.callers k = .removeTake id) (hfound : s.clients.lookup id = some client) :
    ({ s with
      clients := s.clients.erase id
      history := .removed id (client.tx.getD 0) :: s.history }.setCall k
        (.removeSend id client)).Custody := by
  have hhold : (s.callers k).holdsClients = true := by rw [hat]; rfl
  have hcount := h.counted_inside hlocks hhold (by rw [hat]; simp)
  obtain ⟨slot, hreg⟩ := h.registered id client hfound
  refine h.critical hlocks hhold rfl (fun id' client' hlookup => ?_) (fun i hi => hi)
    ⟨slot, ⟨hreg.bound, hreg.drives, hreg.service.1, fun id' client' hlookup hdrives => ?_⟩,
      hreg.service⟩ (fun _ => hcount) h.orderly
  · obtain ⟨other, hother⟩ := h.registered id' client' (InPlace.lookup_of_erase hlookup).2
    exact ⟨other, hother.bound, hother.drives, hother.key, hother.service, hother.tickers,
      hother.callback⟩
  · obtain ⟨hne, hlookup⟩ := InPlace.lookup_of_erase hlookup
    obtain ⟨other, hother⟩ := h.registered id' client' hlookup
    have heq := hother.drives.slot_eq hdrives
    exact hne (by rw [hother.key, hreg.key, heq])

/-- `tx.send(Shutdown)` to a live receiver, in `Client::send`. -/
theorem custody_send (h : s.Custody) (hlocks : s.LocksHeld) {threads : Threads}
    (hat : s.callers k = .removeSend id client)
    (hsend : client.trySend .shutdown s.version s.threads = .ok threads) :
    ({ s with threads := threads }.setCall k (.removeJoin id client)).Custody := by
  have hhold : (s.callers k).holdsClients = true := by rw [hat]; rfl
  have hcount := h.counted_inside hlocks hhold (by rw [hat]; simp)
  have hsound := h.calls k
  rw [hat] at hsound
  obtain ⟨slot, hheld, hservice⟩ := hsound
  obtain ⟨tx, htx, -, rfl⟩ := Client.try_send_eq_ok hsend
  obtain rfl : slot = tx := Option.some.inj (hheld.drives.1.symm.trans htx)
  refine h.touch rfl hlocks hhold rfl rfl hheld.unregistered (Nat.le_refl _)
    (.inl hheld.connected) ((h.orderly slot).push_shutdown hservice.2 _)
    ⟨slot, ⟨hheld.bound, hheld.drives, ?_, hheld.unregistered⟩, ?_⟩ fun _ => hcount
  · simpa [setCall, ClientThread.push] using hheld.connected
  · simp [setCall, ClientThread.push]

/-- The last `Sender` of a terminated thread is dropped, and the caller goes on with an answer that
concerns this thread. -/
theorem custody_disconnect (h : s.Custody) (hlocks : s.LocksHeld)
    (hhold : (s.callers k).holdsClients = true) (hnot : ∀ client, s.callers k ≠ .addInsert client)
    (hheld : s.Held client slot) (hjoin : client.joined s.threads = true)
    (hconcerns : reply.Concerns slot)
    (hcall : ∀ t : Server, t.Settled reply → t.Sound call) :
    ({ s with threads := client.dropSender s.threads }.setCall k call).Custody := by
  have hcount := h.counted_inside hlocks hhold hnot
  have hexited := hheld.drives.joined_iff.mp hjoin
  rw [hheld.drives.drop_sender]
  refine h.touch rfl hlocks hhold rfl rfl hheld.unregistered (Nat.le_refl _)
    (.inl hheld.connected) (h.orderly slot) (hcall _ ?_) fun _ => hcount
  cases reply with
  | removed id recorded result =>
      obtain rfl : recorded = some slot := hconcerns
      refine ⟨hheld.bound, ?_, ?_⟩
      · simp [setCall, ClientThread.disconnect]
      · simpa [setCall, ClientThread.disconnect] using hexited
  | _ => trivial

/-- `tx.send(Shutdown)` in `Drop for Client`. -/
theorem custody_drop_send (h : s.Custody) (hlocks : s.LocksHeld)
    (hat : s.callers k = .dropSend client reply) :
    ({ s with threads := client.sendIgnored .shutdown s.version s.threads }.setCall k
      (.dropJoin client reply)).Custody := by
  have hhold : (s.callers k).holdsClients = true := by rw [hat]; rfl
  have hnot : ∀ client, s.callers k ≠ .addInsert client := by rw [hat]; simp
  have hsound := h.calls k
  rw [hat] at hsound
  rcases hsound with ⟨htx, hhandle, hreply⟩ | ⟨slot, hheld, hservice, hconcerns⟩
  · have hsame : client.sendIgnored .shutdown s.version s.threads = s.threads := by
      simp [Client.sendIgnored, Client.trySend, htx]
    rw [hsame]
    exact h.move rfl rfl rfl rfl rfl (.inl ⟨htx, hhandle, hreply⟩) hnot
  · have hcount := h.counted_inside hlocks hhold hnot
    rw [hheld.drives.send_ignored]
    refine h.touch rfl hlocks hhold rfl rfl hheld.unregistered (Nat.le_refl _)
      (.inl hheld.connected) ?_
      (.inr ⟨slot, ⟨hheld.bound, hheld.drives, ?_, hheld.unregistered⟩, hconcerns, ?_⟩)
      fun _ => hcount
    · unfold ClientThread.offer
      split
      · exact (h.orderly slot).push_shutdown hservice.2 _
      · exact h.orderly slot
    · simpa [setCall] using hheld.connected
    · simp only [setCall, Function.update_self, ClientThread.offer]
      split <;> rename_i hlive
      · exact .inl (by simp [ClientThread.push])
      · exact .inr (by simpa using hlive)

/-! ## The invariant holds in every reachable state -/

/-- A client thread's own step. -/
theorem custody_set_thread (h : s.Custody) {th : ClientThread} (hcallers : t.callers = s.callers)
    (hthreads : t.threads = Function.update s.threads slot th) (hclients : t.clients = s.clients)
    (hspawned : t.spawned = s.spawned) (hcount : t.clientsCount = s.clientsCount)
    (hcalm : (s.threads slot).Calm th) (horderly : th.Orderly) : t.Custody := by
  refine h.keep ⟨hclients, hspawned, hcount, fun i => ?_⟩ hcallers
    (orderly_of_update hthreads h horderly)
  rw [hthreads]
  by_cases hi : i = slot
  · subst i
    simpa using hcalm
  · simpa [hi] using ClientThread.Calm.refl _

theorem custody_step (hlocks : s.LocksHeld) (h : s.Custody) (hmove : Move s action t) :
    t.Custody := by
  have hkept : ∀ i, (s.threads i).Calm (s.threads i) := fun i => .refl _
  cases hmove with
  | call k request hat =>
      exact h.move rfl rfl rfl rfl rfl (by cases request <;> trivial) (by rw [hat]; simp)
  | take k _ hat | addLock k _ _ hat | removeLock k _ hat | removeNone k _ hat | startLock k hat
  | startRunning k hat | startSpawn k hat | startStore k _ hat | shutdownFlag k hat
  | shutdownLock k hat | shutdownTake k _ hat | shutdownNone k hat | shutdownJoin k _ hat =>
      exact h.move rfl rfl rfl rfl rfl trivial (by rw [hat]; simp)
  | unlock k reply hat =>
      have hreply := h.calls k
      rw [hat] at hreply
      exact h.move rfl rfl rfl rfl rfl hreply (by rw [hat]; simp)
  | addStart k tickers callback hat => exact custody_add_start h hlocks hat
  | addInsert k client hat => exact custody_insert h hlocks hat trivial
  | addReplace k client old hat hold =>
      have hsound := h.calls k
      rw [hat] at hsound
      obtain ⟨slot, hheld, -, -, hcount, -, -⟩ := hsound
      -- the client that `insert` returns is dropped, and nobody else drives its slot
      obtain ⟨other, hreg⟩ := h.registered _ _ hold
      refine custody_insert h hlocks hat (.inr ⟨other, ⟨hreg.bound, hreg.drives, hreg.service.1,
        fun id client' hfound hdrives => ?_⟩, hreg.service, trivial⟩)
      rcases InPlace.lookup_insert_cases hfound with ⟨rfl, rfl⟩ | ⟨hid, hfound⟩
      · have hsame := hheld.drives.slot_eq hdrives
        subst hsame
        exact hheld.unregistered _ _ hold hreg.drives
      · obtain ⟨third, hthird⟩ := h.registered _ _ hfound
        have heq := hthird.drives.slot_eq hdrives
        exact hid (by rw [hthird.key, hreg.key, heq])
  | removeTake k id client hat hfound => exact custody_take h hlocks hat hfound
  | removeSend k id client threads hat hsend => exact custody_send h hlocks hat hsend
  | removeSendFails k id client error hat hsend =>
      have hsound := h.calls k
      rw [hat] at hsound
      obtain ⟨slot, hheld, hservice⟩ := hsound
      exact h.move rfl rfl rfl rfl rfl (.inr ⟨slot, hheld, hservice, hheld.drives.1⟩)
        (by rw [hat]; simp)
  | removeJoin k id client hat hjoin =>
      have hsound := h.calls k
      rw [hat] at hsound
      obtain ⟨slot, hheld, hsent⟩ := hsound
      have hconcerns : (Reply.removed id client.tx (.ok ())).Concerns slot := hheld.drives.1
      exact custody_disconnect h hlocks (by rw [hat]; rfl) (by rw [hat]; simp) hheld hjoin
        hconcerns fun t hreply => .inl ⟨rfl, rfl, hreply⟩
  | dropSend k client reply hat => exact custody_drop_send h hlocks hat
  | dropJoin k client reply hat hjoin =>
      have hsound := h.calls k
      rw [hat] at hsound
      rcases hsound with ⟨htx, hhandle, hreply⟩ | ⟨slot, hheld, hconcerns, -⟩
      · have hsame : client.dropSender s.threads = s.threads := by simp [Client.dropSender, htx]
        rw [hsame]
        exact h.move rfl rfl rfl rfl rfl hreply (by rw [hat]; simp)
      · exact custody_disconnect h hlocks (by rw [hat]; rfl) (by rw [hat]; simp) hheld hjoin
          hconcerns fun t hreply => hreply
  | recv slot result th hat hrecv =>
      obtain ⟨hcalm, hsent⟩ := ClientThread.calm_recv hrecv hat
      refine custody_set_thread h rfl rfl rfl rfl rfl hcalm ?_
      simpa [ClientThread.Orderly, hsent] using h.orderly slot
  | processTicker slot result ticker rest hat =>
      obtain ⟨hcalm, hsent⟩ := ClientThread.calm_process hat s.quotes s.version result
      refine custody_set_thread h rfl rfl rfl rfl rfl hcalm ?_
      simpa [ClientThread.Orderly, hsent] using h.orderly slot
  | skipRound slot result _ hat | beginRound slot result _ hat | endRound slot result hat
  | dropReceiver slot result hat | terminate slot result hat =>
      refine custody_set_thread h rfl rfl rfl rfl rfl ?_ (h.orderly slot)
      exact ⟨rfl, rfl, rfl, .inl rfl, by simp [hat, LoopPoint.receiving, ClientThread.terminate],
        by simp [hat]⟩
  | notify b id rest client hat hfound =>
      obtain ⟨slot, hreg⟩ := h.registered id client hfound
      rw [hreg.drives.send_ignored]
      exact custody_set_thread h rfl rfl rfl rfl rfl (ClientThread.calm_offer _ _)
        ((h.orderly slot).offer_update hreg.service.2 _)
  | _ => exact h.keep ⟨rfl, rfl, rfl, hkept⟩ rfl h.orderly

theorem custody_init (quotes : Quotes) : (init quotes).Custody where
  registered id client hfound := by simp [init] at hfound
  calls _ := trivial
  counted _ := rfl
  orderly _ := ⟨0, .inl rfl⟩

/-- In every reachable state every client thread is in somebody's custody. -/
theorem Reachable.custody {quotes : Quotes} (h : Reachable quotes s) : s.Custody :=
  Transition.Reaches.invariant_with Custody h (fun hrun => Reachable.locks_held hrun)
    (custody_init quotes) fun hlocks _ hinv _ hstep => custody_step hlocks hinv (step_move hstep)

end Server
end QuoteStreamer
