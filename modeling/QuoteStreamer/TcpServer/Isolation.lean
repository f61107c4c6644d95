import QuoteStreamer.TcpServer.Holding

/-!
# Connections do not cancel each other

The id that a connection holds stays in the registry until the connection removes it: whoever
removes an id holds it, and an id has one holder. So every removal finds its client, removes it
once, and leaves the clients of all other connections alone.
-/

namespace QuoteStreamer

namespace Call

/-- The caller has taken the branch of `remove_client` for a client that is not there. -/
def missed : Call → Bool
  | .dropSend _ (.removed _ none _) | .dropJoin _ (.removed _ none _)
  | .unlock (.removed _ none _) | .returned (.removed _ none _) => true
  | _ => false

end Call

namespace Server

variable {s t : Server} {action : Action} {k : Caller} {client : Client} {id : UInt64}
  {slot : Nat}

/-- Only a removal of this id takes it out of the registry. -/
theorem lookup_step (hmove : Move s action t) (hfound : s.clients.lookup id = some client) :
    (∃ client, t.clients.lookup id = some client) ∨ ∃ k, action = .caller k ∧
      s.callers k = .removeTake id ∧ (t.callers k).tookOut = true := by
  have hinsert : ∀ (newId : UInt64) (new : Client),
      ∃ client, (s.clients.insert newId new).lookup id = some client := by
    intro newId new
    by_cases hid : id = newId
    · subst hid
      exact ⟨new, AList.lookup_insert _⟩
    · exact ⟨client, by rwa [AList.lookup_insert_ne hid]⟩
  cases hmove with
  | addInsert k new hat => exact .inl (hinsert _ _)
  | addReplace k new old hat => exact .inl (hinsert _ _)
  | removeTake k id' client' hat hfound' =>
      by_cases hid : id = id'
      · subst hid
        refine .inr ⟨k, rfl, hat, ?_⟩
        simp [setCall, Call.tookOut]
      · exact .inl ⟨client, by rwa [show AList.lookup id _ = s.clients.lookup id from
          AList.lookup_erase_ne hid]⟩
  | _ => exact .inl ⟨client, hfound⟩

/-- An id about to be returned was so before, or has just been inserted. -/
theorem adds_step (hmove : Move s action t) (hadds : (t.callers k).adds = some id) :
    (s.callers k).adds = some id ∨ ∃ client, t.clients.lookup id = some client := by
  have hself : ∀ {j : Caller} {call : Call}, t.callers = Function.update s.callers j call →
      (k = j → call.adds = some id → (s.callers j).adds = some id) →
      (s.callers k).adds = some id := by
    intro j call hcallers hcall
    rw [hcallers] at hadds
    by_cases hk : k = j
    · subst hk
      rw [Function.update_self] at hadds
      exact hcall rfl hadds
    · rwa [Function.update_of_ne hk] at hadds
  cases hmove with
  | addInsert j client hat | addReplace j client old hat =>
      by_cases hk : k = j
      · subst hk
        simp only [set_call_self, Call.adds, Option.some.injEq] at hadds
        subst hadds
        exact .inr ⟨client, AList.lookup_insert _⟩
      · rw [set_call_of_ne hk] at hadds
        exact .inl hadds
  | call j request hat =>
      refine .inl (hself rfl fun _ hnone => ?_)
      cases request <;> cases hnone
  | dropSend j client reply hat | dropJoin j client reply hat | unlock j reply hat =>
      refine .inl (hself rfl fun _ hsome => ?_)
      rw [hat]
      cases reply <;> exact hsome
  | take | addLock | addStart | removeLock | removeTake | removeNone | removeSend
  | removeSendFails | removeJoin | startLock | startRunning | startSpawn | startStore
  | shutdownFlag | shutdownLock | shutdownTake | shutdownNone | shutdownJoin =>
      exact .inl (hself rfl fun _ hnone => by cases hnone)
  | _ => exact .inl hadds

/-- A removal takes the branch for a missing client only if the registry has no such id. -/
theorem missed_step (hcustody : s.Custody) (hmove : Move s action t)
    (hmissed : (t.callers k).missed = true) :
    (s.callers k).missed = true ∨ ∃ id, s.callers k = .removeTake id ∧
      s.clients.lookup id = none := by
  have hself : ∀ {j : Caller} {call : Call}, t.callers = Function.update s.callers j call →
      (call.missed = true → (s.callers j).missed = true) → (s.callers k).missed = true := by
    intro j call hcallers hcall
    rw [hcallers] at hmissed
    by_cases hk : k = j
    · subst hk
      rw [Function.update_self] at hmissed
      exact hcall hmissed
    · rwa [Function.update_of_ne hk] at hmissed
  cases hmove with
  | removeNone j id hat hnone =>
      by_cases hk : k = j
      · subst hk
        exact .inr ⟨id, hat, hnone⟩
      · rw [set_call_of_ne hk] at hmissed
        exact .inl hmissed
  | removeSendFails j id client error hat | removeJoin j id client hat =>
      have hsound := hcustody.calls j
      rw [hat] at hsound
      obtain ⟨slot, hheld, -⟩ := hsound
      refine .inl (hself rfl fun hnone => ?_)
      rw [hheld.drives.1] at hnone
      cases hnone
  | dropSend j client reply hat | dropJoin j client reply hat | unlock j reply hat =>
      refine .inl (hself rfl fun hsome => ?_)
      rw [hat]
      cases reply with
      | removed id recorded result => cases recorded <;> first | rfl | cases hsome
      | _ => cases hsome
  | call j request hat =>
      refine .inl (hself rfl fun hnone => ?_)
      cases request <;> cases hnone
  | take | addLock | addStart | addInsert | addReplace | removeLock | removeTake | removeSend
  | startLock | startRunning | startSpawn | startStore | shutdownFlag | shutdownLock
  | shutdownTake | shutdownNone | shutdownJoin =>
      exact .inl (hself rfl fun hnone => by cases hnone)
  | _ => exact .inl hmissed

end Server

/-- The step is one of connection `j`: of its handler, or of a call that its handler makes. -/
def SystemAction.By (j : Nat) : SystemAction → Prop
  | .accept i _ | .input i _ | .request i | .answer i => i = j
  | .server (.caller (.connection i)) => i = j
  | .server _ => False

namespace System

/-- The ids that are held, or about to be handed out, are in the registry. -/
structure Live (s : System) : Prop where
  held : ∀ j h id, s.handlers j = some h → h.holding = some id →
    (s.server.callers (.connection j)).tookOut = false →
    ∃ client, s.server.clients.lookup id = some client
  answered : ∀ j id, (s.server.callers (.connection j)).adds = some id →
    ∃ client, s.server.clients.lookup id = some client
  found : ∀ k, (s.server.callers k).missed = false

variable {s t : System} {action : SystemAction} {j : Nat} {id : UInt64} {slot : Nat}

/-- A connection removes only ids that its own `add_client` calls have returned. -/
theorem Holding.removing_owned (hs : s.Holding)
    (hat : (s.server.callers (.connection j)).removing = some id) :
    (s.registered j).head? = some id ∧
      ∃ slot, .added (.connection j) id slot ∈ s.server.history := by
  obtain ⟨h, cause, hh, hpoint, hid⟩ := hs.removing_held hat
  have hhead := hs.newest j h id hh hid
  exact ⟨hhead, hs.owned j id (List.mem_of_mem_head? hhead)⟩

/-- Whoever takes an id out of the registry is the connection that registered it. -/
theorem Holding.remover (hs : s.Holding) (hdeeds : s.server.Deeds)
    (hbound : s.server.spawned ≤ 2 ^ 64) {k owner : Caller}
    (hat : s.server.callers k = .removeTake id)
    (howner : .added owner id slot ∈ s.server.history) : k = owner := by
  cases k with
  | connection i =>
      have hremoving : (s.server.callers (.connection i)).removing = some id := by
        rw [hat]
        rfl
      obtain ⟨-, slot', hmem⟩ := hs.removing_owned hremoving
      exact (hdeeds.caller_eq hbound hmem howner).1
  | other n =>
      have hnone := hs.others n
      rw [hat] at hnone
      cases hnone

/-- A step of the server keeps the held ids in the registry. -/
theorem Live.server_step (h : s.Live) (hs : s.Holding) (hcustody : s.server.Custody)
    (hdeeds : s.server.Deeds) (hbound : s.server.spawned ≤ 2 ^ 64) {action : Action} {next : Server}
    (hallowed : action.allowed = true) (hmove : Server.Move s.server action next) :
    Live { s with server := next } where
  held j handler id hh hid htook := by
    have hthen : (s.server.callers (.connection j)).tookOut = false := by
      rcases Server.callers_step (k := .connection j) hmove with hsame | rfl | ⟨_, rfl⟩ | rfl
      · rw [← hsame]
        exact htook
      · by_contra hnot
        have hlater := (Server.same_call_step hmove).2.2.1 (by simpa using hnot)
        rw [show (next.callers (.connection j)).tookOut = false from htook] at hlater
        cases hlater
      · cases hallowed
      · cases hallowed
    obtain ⟨client, hfound⟩ := h.held j handler id hh hid hthen
    rcases Server.lookup_step hmove hfound with hstill | ⟨k, -, hat, hgone⟩
    · exact hstill
    · -- the remover is the holder itself, which has looked the id up
      obtain ⟨slot, hmem⟩ := hs.owned j id (List.mem_of_mem_head? (hs.newest j handler id hh hid))
      obtain rfl := hs.remover hdeeds hbound hat hmem
      rw [show (next.callers (.connection j)).tookOut = false from htook] at hgone
      cases hgone
  answered j id hadds := by
    rcases Server.adds_step hmove hadds with hthen | hnew
    · obtain ⟨client, hfound⟩ := h.answered j id hthen
      rcases Server.lookup_step hmove hfound with hstill | ⟨k, -, hat, -⟩
      · exact hstill
      · obtain ⟨slot, hmem⟩ := hdeeds.answered (.connection j) id hthen
        obtain rfl := hs.remover hdeeds hbound hat hmem
        rw [hat] at hthen
        cases hthen
    · exact hnew
  found k := by
    show (next.callers k).missed = false
    cases hmissed : (next.callers k).missed with
    | false => rfl
    | true =>
        -- a connection removes only the id that it holds, and nobody else removes at all
        rcases Server.missed_step hcustody hmove hmissed with hthen | ⟨id, hat, hnone⟩
        · rw [h.found k] at hthen
          cases hthen
        · cases k with
          | connection i =>
              obtain ⟨handler, -, hh, -, hid⟩ := hs.removing_held
                (show (s.server.callers (.connection i)).removing = some id by rw [hat]; rfl)
              obtain ⟨client, hfound⟩ := h.held i handler id hh hid (by rw [hat]; rfl)
              rw [hnone] at hfound
              cases hfound
          | other n =>
              have hother := hs.others n
              rw [hat] at hother
              cases hother

/-- One handler changes. -/
theorem Live.set_handler (h : s.Live) {next : Handler} (hserver : t.server = s.server)
    (hhandlers : t.handlers = Function.update s.handlers j (some next))
    (hnext : ∀ id, next.holding = some id →
      ∃ client, s.server.clients.lookup id = some client) : t.Live := by
  refine ⟨fun i handler id hi hid htook => ?_, ?_, ?_⟩ <;> rw [hserver] at *
  · rw [hhandlers] at hi
    rcases Locks.moved_cases hi with ⟨-, heq⟩ | ⟨-, hi⟩
    · cases heq
      exact hnext id hid
    · exact h.held i handler id hi hid htook
  · exact h.answered
  · exact h.found

/-- A connection enters or leaves a method. -/
theorem Live.set_call (h : s.Live) {call : Call}
    (hidle : (s.server.callers (.connection j)).tookOut = false ∨
      ∀ handler, s.handlers j = some handler → handler.holding = none)
    (hadds : call.adds = none) (hmissed : call.missed = false) :
    Live { s with server := s.server.setCall (.connection j) call } where
  held i handler id hi hid htook := by
    by_cases hij : i = j
    · subst i
      rcases hidle with hidle | hnone
      · exact h.held j handler id hi hid hidle
      · rw [hnone handler hi] at hid
        cases hid
    · have hne : Caller.connection i ≠ .connection j := by simpa using hij
      exact h.held i handler id hi hid (by simpa [Server.setCall, hne] using htook)
  answered i id hid := by
    by_cases hij : i = j
    · subst i
      simp only [Server.set_call_self] at hid
      rw [hadds] at hid
      cases hid
    · have hne : Caller.connection i ≠ .connection j := by simpa using hij
      exact h.answered i id (by simpa [Server.setCall, hne] using hid)
  found k := by
    by_cases hk : k = .connection j
    · subst hk
      simpa [Server.setCall] using hmissed
    · simpa [Server.setCall, hk] using h.found k

/-- Every step keeps the held ids in the registry. -/
theorem live_step (hs : s.Holding) (hcustody : s.server.Custody) (hdeeds : s.server.Deeds)
    (hbound : s.server.spawned ≤ 2 ^ 64) (h : s.Live) (hmove : Move s action t) : t.Live := by
  cases hmove with
  | accept j now hnew => exact h.set_handler rfl rfl fun id hid => (by cases hid)
  | input j input handler next hh hexternal hstep =>
      obtain ⟨hholding, -⟩ := Handler.holding_step hstep hexternal
      have hidle := hs.idle_of_input hh hexternal hstep
      exact h.set_handler rfl rfl fun id hid =>
        h.held j handler id hh (hholding.symm.trans hid) (by rw [hidle]; rfl)
  | request j handler request hh hrequest hidle =>
      exact h.set_call (.inl (by rw [hidle]; rfl)) (by cases request <;> rfl)
        (by cases request <;> rfl)
  | answerAdded j handler next id hh hreply hstep =>
      obtain ⟨-, rfl⟩ := Handler.step_added hstep
      have hfound := h.answered j id (by rw [hreply]; rfl)
      have hset : Live { s.setHandler j { handler with
          clientId := some id, point := .write "STREAM OK\n".toList } with
          registered := Function.update s.registered j (id :: s.registered j) } :=
        h.set_handler rfl rfl fun id' hid => by
          cases hid
          exact hfound
      exact hset.set_call (.inl (show (s.server.callers (.connection j)).tookOut = false by
        rw [hreply]; rfl)) rfl rfl
  | answerRemoved j handler next id recorded result hh hreply hstep =>
      obtain ⟨_, _, _, -, -, hnone, -⟩ := Handler.step_removed hstep (hs.released j handler hh)
      have hset : Live { s.setHandler j next with
          registered := Function.update s.registered j (s.registered j) } :=
        h.set_handler rfl rfl fun id' hid => by
          rw [hnone] at hid
          cases hid
      refine hset.set_call (.inr fun handler' hh' => ?_) rfl rfl
      simp only [setHandler, Function.update_self, Option.some.injEq] at hh'
      rw [← hh', hnone]
  | server action next hallowed hstep =>
      exact h.server_step hs hcustody hdeeds hbound hallowed (Server.step_move hstep)

theorem spawned_step (hmove : Move s action t) : s.server.spawned ≤ t.server.spawned := by
  rcases server_step hmove with hsame | ⟨action, hstep⟩
  · rw [hsame]
  · exact Server.spawned_le_step (Server.step_move hstep)

theorem live_init (quotes : Quotes) : (init quotes).Live where
  held _ _ _ hh := by cases hh
  answered _ _ hid := by cases hid
  found _ := rfl

/-- As long as ids do not wrap around, the held ids are in the registry. -/
theorem Reachable.live {quotes : Quotes} (h : Reachable quotes s)
    (hbound : s.server.spawned ≤ 2 ^ 64) : s.Live := by
  refine Transition.Reaches.invariant_with
    (fun state : System => state.server.spawned ≤ 2 ^ 64 → state.Live) h
    (fun hrun => And.intro (Reachable.holding hrun) (Reachable.server hrun))
    (fun _ => live_init quotes) ?_ hbound
  rintro state next action ⟨hholding, hserver⟩ - hinv - hstep hbound
  have hmove := step_move hstep
  have hthen := Nat.le_trans (spawned_step hmove) hbound
  exact live_step hholding (Server.Reachable.custody hserver) (Server.Reachable.deeds hserver) hthen
    (hinv hthen) hmove

/-- A step of a connection keeps the clients that others have registered. -/
theorem foreign_client_kept (hs : s.Holding) (hcustody : s.server.Custody)
    (hdeeds : s.server.Deeds) (hbound : s.server.spawned ≤ 2 ^ 64) (hby : action.By j)
    (hmove : Move s action t) {k : Caller} (howner : .added k id slot ∈ s.server.history)
    (hforeign : k ≠ .connection j) : t.server.clients.lookup id = s.server.clients.lookup id := by
  cases hmove with
  | accept | input | request | answerAdded | answerRemoved => rfl
  | server action next hallowed hstep =>
      have hmove := Server.step_move hstep
      cases hmove with
      | addInsert i client hat | addReplace i client old hat =>
          exact AList.lookup_insert_ne (hdeeds.insert_unnamed hcustody hbound howner hat)
      | removeTake i id' client hat =>
          have hne : id ≠ id' := by
            rintro rfl
            obtain rfl := hs.remover hdeeds hbound hat howner
            cases i with
            | connection i => exact hforeign (congrArg Caller.connection hby)
            | other n => exact hby
          exact AList.lookup_erase_ne hne
      | _ => rfl

/-- With fewer than `2 ^ 64` clients added in all: every `remove_client` call of a connection is
made with the id that its own newest `add_client` has returned, and finds a client under it; no id
is removed twice; the branch for a missing client is never taken; and a step of one connection
changes nothing under the ids that others have registered. -/
theorem connections_are_isolated {quotes : Quotes} (hs : Reachable quotes s)
    (hbound : s.server.spawned ≤ 2 ^ 64) :
    (∀ j id, s.server.callers (.connection j) = .removeLock id ∨
      s.server.callers (.connection j) = .removeTake id →
      (s.registered j).head? = some id ∧ ∃ client, s.server.clients.lookup id = some client) ∧
    (s.server.history.Pairwise fun later earlier => ∀ id slot slot',
      later = .removed id slot → earlier ≠ .removed id slot') ∧
    (∀ k, (s.server.callers k).missed = false) ∧
    ∀ j action t, step s action = some t → action.By j → ∀ k id slot,
      .added k id slot ∈ s.server.history → k ≠ .connection j →
      t.server.clients.lookup id = s.server.clients.lookup id := by
  have hholding := Reachable.holding hs
  have hserver := Reachable.server hs
  have hdeeds := Server.Reachable.deeds hserver
  have hlive := Reachable.live hs hbound
  refine ⟨fun j id hat => ?_, ?_, hlive.found, fun j action t hstep hby k id slot howner hforeign =>
    foreign_client_kept hholding (Server.Reachable.custody hserver) hdeeds hbound hby
      (step_move hstep) howner hforeign⟩
  · have hremoving : (s.server.callers (.connection j)).removing = some id ∧
        (s.server.callers (.connection j)).tookOut = false := by
      rcases hat with hat | hat <;> rw [hat] <;> exact ⟨rfl, rfl⟩
    obtain ⟨h, cause, hh, -, hid⟩ := hholding.removing_held hremoving.1
    exact ⟨(hholding.removing_owned hremoving.1).1, hlive.held j h id hh hid hremoving.2⟩
  · refine hdeeds.once.imp_of_mem
      fun {later earlier} hlater hearlier honce id slot slot' heq heq' => ?_
    subst heq heq'
    obtain ⟨k, hmem⟩ := hdeeds.removed id slot hlater
    obtain ⟨k', hmem'⟩ := hdeeds.removed id slot' hearlier
    obtain ⟨-, rfl⟩ := hdeeds.caller_eq hbound hmem hmem'
    exact honce id id slot rfl rfl

/-- A line that `handle_stream` accepts. -/
def streamLine : Str :=
  "STREAM 127.0.0.1:50000 AAPL\n".toList

/-- Handler `j` calls `add_client` and takes its answer. -/
def adding (j : Nat) : List SystemAction :=
  .request j :: List.replicate 4 (.server (.caller (.connection j))) ++ [.answer j]

/-- Connection `j` sends a `STREAM` line and is written the answer. -/
def streaming (j : Nat) : List SystemAction :=
  [.input j (.read (.ok streamLine) 0), .input j (.bound (.ok ()))] ++ adding j ++
    [.input j (.wrote (.ok ()))]

/-- The listener accepts connection `j`, whose handler goes to its loop. -/
def connecting (j : Nat) : List SystemAction :=
  [.accept j 0, .input j (.cloned (.ok ())), .input j (.timeoutSet (.ok ()))]

theorem connections_are_isolated_two : ∃ s, Reachable ∅ s ∧
    s.server.callers (.connection 1) = .removeTake 1 ∧ (s.registered 1).head? = some 1 ∧
    (∃ client, s.server.clients.lookup 1 = some client) ∧ s.registered 0 = [0] := by
  obtain ⟨s, hrun, hat, hspawned, hfirst⟩ : ∃ s, Transition.run step (init ∅)
      (connecting 0 ++ streaming 0 ++ connecting 1 ++ streaming 1 ++
        [.input 1 (.read (.ok "STOP\n".toList) 0), .request 1,
          .server (.caller (.connection 1))]) = some s ∧
      s.server.callers (.connection 1) = .removeTake 1 ∧ s.server.spawned = 2 ∧
      s.registered 0 = [0] := ⟨_, rfl, rfl, rfl, rfl⟩
  have hs : Reachable ∅ s := Transition.reachable_of_run hrun
  have hbound : s.server.spawned ≤ 2 ^ 64 := by rw [hspawned]; decide
  obtain ⟨hhead, hfound⟩ := (connections_are_isolated hs hbound).1 1 1 (.inr hat)
  exact ⟨s, hs, hat, hhead, hfound, hfirst⟩

end System

end QuoteStreamer
