import QuoteStreamer.QuoteServer.Registry

/-!
# No client thread without a client

Whoever takes a client out of somebody's hands takes over its thread: `add_client` hands it to the
registry, `remove_client` and a replacing `insert` take it from there, and they let it go only when
it has been joined. So whenever no caller is at work on the registry, the client threads that have
not come to their end are those of the registered clients.
-/

namespace QuoteStreamer

/-- The client that the caller has in its hands. -/
def Call.client : Call → Option Client
  | .addInsert client | .removeSend _ client | .removeJoin _ client | .dropSend client _
  | .dropJoin client _ => some client
  | _ => none

/-- A client is in somebody's hands only under the mutex. -/
theorem Call.holds_of_client {call : Call} {client : Client} (h : call.client = some client) :
    call.holdsClients = true := by
  cases call <;> first | rfl | cases h

namespace Server

variable {s t : Server} {action : Action} {k : Caller} {call : Call} {client : Client} {slot : Nat}

/-- A registered client drives this thread. -/
def Enlisted (s : Server) (slot : Nat) : Prop :=
  ∃ id client, s.clients.lookup id = some client ∧ client.Drives slot

/-- Why a caller has the client of this thread in its hands: to insert it, to remove it, or because
its `insert` has replaced it. -/
def Cause (s : Server) (slot : Nat) (call : Call) : Prop :=
  (∃ client, call = .addInsert client) ∨ call.removes ≠ none ∨ ∃ id, .replaced id slot ∈ s.history

/-- Somebody has the client of this thread, or the thread has come to its end. -/
inductive Tended (s : Server) (slot : Nat) : Prop where
  | enlisted (h : s.Enlisted slot)
  | inHand (k : Caller) (client : Client) (hclient : (s.callers k).client = some client)
      (hdrives : client.Drives slot) (hcause : s.Cause slot (s.callers k))
  | finished (h : s.Finished slot)

/-- One caller moves: what it had in its hands is seen to, and what the registry had. -/
theorem Tended.move (h : s.Tended slot) (hcallers : t.callers = Function.update s.callers k call)
    (hhistory : ∀ event ∈ s.history, event ∈ t.history)
    (hfinished : s.Finished slot → t.Finished slot) (henlisted : s.Enlisted slot → t.Tended slot)
    (hself : ∀ client, (s.callers k).client = some client → client.Drives slot →
      s.Cause slot (s.callers k) → t.Tended slot) : t.Tended slot := by
  cases h with
  | enlisted h => exact henlisted h
  | inHand j client hclient hdrives hcause =>
      by_cases hj : j = k
      · subst hj
        exact hself client hclient hdrives hcause
      · have hsame : t.callers j = s.callers j := by rw [hcallers, Function.update_of_ne hj]
        refine .inHand j client (by rw [hsame, hclient]) hdrives ?_
        rw [hsame]
        rcases hcause with hinsert | hremoves | ⟨id, hmem⟩
        · exact .inl hinsert
        · exact .inr (.inl hremoves)
        · exact .inr (.inr ⟨id, hhistory _ hmem⟩)
  | finished h => exact .finished (hfinished h)

/-- A caller without a client moves, and the registry stays. -/
theorem Tended.keep (h : s.Tended slot) (hcallers : t.callers = Function.update s.callers k call)
    (hnone : (s.callers k).client = none) (hclients : t.clients = s.clients)
    (hhistory : t.history = s.history) (hfinished : s.Finished slot → t.Finished slot) :
    t.Tended slot := by
  refine h.move hcallers (by rw [hhistory]; exact fun _ => id) hfinished (fun henlisted => ?_) ?_
  · rw [Enlisted, ← hclients] at henlisted
    exact .enlisted henlisted
  · intro client hclient
    rw [hnone] at hclient
    cases hclient

/-- Nothing changes but threads and the history. -/
theorem Tended.same (h : s.Tended slot) (hcallers : t.callers = s.callers)
    (hclients : t.clients = s.clients) (hhistory : ∀ event ∈ s.history, event ∈ t.history)
    (hfinished : s.Finished slot → t.Finished slot) : t.Tended slot := by
  cases h with
  | enlisted h =>
      rw [Enlisted, ← hclients] at h
      exact .enlisted h
  | inHand j client hclient hdrives hcause =>
      rw [← hcallers] at hclient hcause
      refine .inHand j client hclient hdrives ?_
      rcases hcause with hinsert | hremoves | ⟨id, hmem⟩
      · exact .inl hinsert
      · exact .inr (.inl hremoves)
      · exact .inr (.inr ⟨id, hhistory _ hmem⟩)
  | finished h => exact .finished (hfinished h)

/-- A thread whose client is dropped after the join has come to its end. -/
theorem finished_of_joined (hbound : slot < s.spawned) (hdrives : client.Drives slot)
    (hjoin : client.joined s.threads = true) :
    ({ s with threads := client.dropSender s.threads }.setCall k call).Finished slot := by
  have hexited := hdrives.joined_iff.mp hjoin
  refine ⟨hbound, ?_, ?_⟩ <;>
    simp [setCall, hdrives.drop_sender, ClientThread.disconnect, hexited]

/-- The caller keeps its client in its hands. -/
theorem Tended.hold (h : s.Tended slot) (hcallers : t.callers = Function.update s.callers k call)
    (hclient : call.client = (s.callers k).client)
    (hcause : s.Cause slot (s.callers k) → s.Cause slot call) (hclients : t.clients = s.clients)
    (hhistory : t.history = s.history) (hfinished : s.Finished slot → t.Finished slot) :
    t.Tended slot := by
  refine h.move hcallers (by rw [hhistory]; exact fun _ => id) hfinished (fun henlisted => ?_) ?_
  · rw [Enlisted, ← hclients] at henlisted
    exact .enlisted henlisted
  · intro client hheld hdrives hwhy
    have hnow : t.callers k = call := by rw [hcallers, Function.update_self]
    refine .inHand k client (by rw [hnow, hclient, hheld]) hdrives ?_
    rw [hnow, Cause, hhistory]
    exact hcause hwhy

/-- The caller lets its client go after the join. -/
theorem Tended.joined (h : s.Tended slot) (hat : (s.callers k).client = some client)
    (hjoin : client.joined s.threads = true) (hbound : slot < s.spawned)
    (hfinished : s.Finished slot → ({ s with threads := client.dropSender s.threads }.setCall k
      call).Finished slot) :
    ({ s with threads := client.dropSender s.threads }.setCall k call).Tended slot := by
  refine h.move rfl (fun _ => id) hfinished (fun henlisted => .enlisted henlisted)
    fun other hother hdrives _ => ?_
  rw [hat] at hother
  cases hother
  exact .finished (finished_of_joined hbound hdrives hjoin)

theorem tended_step (hcustody : s.Custody) (h : ∀ slot < s.spawned, s.Tended slot)
    (hmove : Move s action t) : ∀ slot < t.spawned, t.Tended slot := by
  have hfinished : ∀ slot, s.Finished slot → t.Finished slot :=
    fun _ => finished_step hcustody hmove
  intro slot hslot
  cases hmove with
  | addStart k tickers callback hat =>
      by_cases hnew : slot = s.spawned
      · subst hnew
        exact .inHand k _ (by rw [set_call_self]; rfl) (Client.start_drives ..)
          (.inl ⟨_, by rw [set_call_self]⟩)
      · have hlt : slot < s.spawned := Nat.lt_of_le_of_ne (Nat.le_of_lt_succ hslot) hnew
        exact (h slot hlt).keep rfl (by rw [hat]; rfl) rfl rfl (hfinished slot)
  | addInsert k client hat hnew =>
      refine (h slot hslot).move rfl (fun _ => List.mem_cons_of_mem _) (hfinished slot) ?_ ?_
      · rintro ⟨id, other, hfound, hdrives⟩
        have hid : id ≠ s.clientsCount := by
          rintro rfl
          rw [hnew] at hfound
          cases hfound
        exact .enlisted ⟨id, other, (AList.lookup_insert_ne hid).trans hfound, hdrives⟩
      · intro other hother hdrives _
        rw [hat] at hother
        cases hother
        exact .enlisted ⟨_, client, AList.lookup_insert _, hdrives⟩
  | addReplace k client old hat hold =>
      refine (h slot hslot).move rfl (fun _ hmem => List.mem_cons_of_mem _
        (List.mem_cons_of_mem _ hmem)) (hfinished slot) ?_ ?_
      · rintro ⟨id, other, hfound, hdrives⟩
        by_cases hid : id = s.clientsCount
        · -- the client that had the id is in the hands of the caller now
          subst hid
          obtain rfl := Option.some.inj (hfound.symm.trans hold)
          refine .inHand k other (by rw [set_call_self]; rfl) hdrives
            (.inr (.inr ⟨s.clientsCount, ?_⟩))
          simp [setCall, hdrives.1]
        · exact .enlisted ⟨id, other, (AList.lookup_insert_ne hid).trans hfound, hdrives⟩
      · intro other hother hdrives _
        rw [hat] at hother
        cases hother
        exact .enlisted ⟨_, client, AList.lookup_insert _, hdrives⟩
  | removeTake k id client hat hfound =>
      refine (h slot hslot).move rfl (fun _ => List.mem_cons_of_mem _) (hfinished slot) ?_ ?_
      · rintro ⟨other, client', hfound', hdrives⟩
        by_cases hid : other = id
        · subst hid
          obtain rfl := Option.some.inj (hfound'.symm.trans hfound)
          exact .inHand k client' (by rw [set_call_self]; rfl) hdrives
            (.inr (.inl (by rw [set_call_self]; simp [Call.removes])))
        · exact .enlisted ⟨other, client', (AList.lookup_erase_ne hid).trans hfound', hdrives⟩
      · intro other hother
        rw [hat] at hother
        cases hother
  | removeSend k id client threads hat | removeSendFails k id client error hat =>
      refine (h slot hslot).hold rfl (by rw [hat]; rfl) (fun _ => .inr (.inl ?_)) rfl rfl
        (hfinished slot)
      simp [Call.removes]
  | dropSend k client reply hat =>
      refine (h slot hslot).hold rfl (by rw [hat]; rfl) (fun hcause => ?_) rfl rfl (hfinished slot)
      rw [hat] at hcause
      rcases hcause with ⟨other, hother⟩ | hremoves | hreplaced
      · cases hother
      · exact .inr (.inl (by cases reply <;> exact hremoves))
      · exact .inr (.inr hreplaced)
  | removeJoin k _ client hat hjoin | dropJoin k client _ hat hjoin =>
      exact (h slot hslot).joined (by rw [hat]; rfl) hjoin hslot (hfinished slot)
  | call k _ hat | take k _ hat | addLock k _ _ hat | removeLock k _ hat | removeNone k _ hat
  | unlock k _ hat | startLock k hat | startRunning k hat | startSpawn k hat | startStore k _ hat
  | shutdownFlag k hat | shutdownLock k hat | shutdownTake k _ hat | shutdownNone k hat
  | shutdownJoin k _ hat =>
      exact (h slot hslot).keep rfl (by rw [hat]; rfl) rfl rfl (hfinished slot)
  | notifyLock =>
      exact (h slot hslot).same rfl rfl (fun _ => List.mem_cons_of_mem _) (hfinished slot)
  | _ => exact (h slot hslot).same rfl rfl (fun _ => id) (hfinished slot)

/-- In every reachable state somebody has the client of each thread that has not come to its end. -/
theorem Reachable.tended {quotes : Quotes} (h : Reachable quotes s) :
    ∀ slot < s.spawned, s.Tended slot :=
  Transition.Reaches.invariant_with (fun state => ∀ slot < state.spawned, state.Tended slot) h
    (fun hrun => Reachable.custody hrun) (fun _ hslot => absurd hslot (Nat.not_lt_zero _))
    fun hcustody _ hinv _ hstep => tended_step hcustody hinv (step_move hstep)

/-- Whenever no caller holds the clients mutex, a client thread that was ever spawned has come to
its end, with no sender of its channel left, unless a client in the registry drives it, and then
only one does. -/
theorem no_orphan_threads {quotes : Quotes} (hs : Reachable quotes s)
    (hfree : ∀ k, s.clientsLock ≠ some (.caller k)) (hslot : slot < s.spawned) :
    (s.Finished slot ↔ ¬ s.Enlisted slot) ∧
    ∀ id id' client client', s.clients.lookup id = some client → client.Drives slot →
      s.clients.lookup id' = some client' → client'.Drives slot → id = id' := by
  have hcustody := Reachable.custody hs
  have hkey : ∀ id client, s.clients.lookup id = some client → client.Drives slot →
      s.Registered id client slot := by
    intro id client hfound hdrives
    obtain ⟨other, hreg⟩ := hcustody.registered id client hfound
    obtain rfl := hreg.drives.slot_eq hdrives
    exact hreg
  refine ⟨⟨?_, fun hnot => ?_⟩, ?_⟩
  · rintro hfinished ⟨id, client, hfound, hdrives⟩
    exact hfinished.ne_of_connected (hkey id client hfound hdrives).service.1 rfl
  · cases Reachable.tended hs slot hslot with
    | enlisted h => exact absurd h hnot
    | inHand k client hclient =>
        have hholds : s.holdsClients (.caller k) := Call.holds_of_client hclient
        exact absurd (((Reachable.locks_held hs).clients (.caller k)).mpr hholds) (hfree k)
    | finished h => exact h
  · intro id id' client client' hfound hdrives hfound' hdrives'
    rw [(hkey id client hfound hdrives).key, (hkey id' client' hfound' hdrives').key]

/-- One client is added and removed again, its thread taking the `Shutdown` in between. -/
def oneRemoval : List Action :=
  [.call (.other 0) (.addClient [] (.closure 0)), .caller (.other 0), .caller (.other 0),
    .caller (.other 0), .caller (.other 0), .take (.other 0),
    .call (.other 0) (.removeClient 0), .caller (.other 0), .caller (.other 0),
    .caller (.other 0), .client 0 .ok, .client 0 .ok, .client 0 .ok, .caller (.other 0),
    .caller (.other 0), .caller (.other 0)]

/-- One client is added, removed and added again: the first thread is gone, the second is not. -/
theorem no_orphan_threads_added_again : ∃ s, Reachable ∅ s ∧ s.spawned = 2 ∧ s.Finished 0 ∧
    ¬ s.Finished 1 := by
  obtain ⟨s, hrun, hlock, hspawned, hclients⟩ :
      ∃ s, Transition.run step (init ∅) (oneRemoval ++ [.caller (.other 0), .take (.other 0)] ++
          oneRemoval.take 6) = some s ∧ s.clientsLock = none ∧ s.spawned = 2 ∧
        s.clients = AList.singleton 1 ⟨[], .closure 0, some 1, some 1⟩ := ⟨_, rfl, rfl, rfl, rfl⟩
  have hs : Reachable ∅ s := Transition.reachable_of_run hrun
  have hfree : ∀ k, s.clientsLock ≠ some (.caller k) := by simp [hlock]
  have honly : ∀ slot, s.Enlisted slot ↔ slot = 1 := by
    intro slot
    constructor
    · rintro ⟨id, client, hfound, hdrives⟩
      have hmem := AList.mem_lookup_iff.mp hfound
      rw [hclients] at hmem
      cases List.mem_singleton.mp hmem
      exact hdrives.slot_eq ⟨rfl, rfl⟩
    · rintro rfl
      exact ⟨1, ⟨[], .closure 0, some 1, some 1⟩, by rw [hclients]; rfl, rfl, rfl⟩
  have hfirst := (no_orphan_threads hs hfree (show 0 < s.spawned by omega)).1
  have hsecond := (no_orphan_threads hs hfree (show 1 < s.spawned by omega)).1
  refine ⟨s, hs, hspawned, hfirst.mpr (by simp [honly]), fun hfinished => ?_⟩
  exact hsecond.mp hfinished ((honly 1).mpr rfl)

end Server

end QuoteStreamer
