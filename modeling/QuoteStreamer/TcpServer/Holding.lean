import QuoteStreamer.TcpServer.System

/-!
# The ids that connections hold

Each connection is inside `add_client` or `remove_client` only when its handler stands at that call,
and the id that a handler holds is the one its most recent `add_client` returned. Until its
removal takes it out, it is in the registry: nobody else removes it, because every removal is
made with the id of the connection that makes it.
-/

namespace QuoteStreamer

namespace Call

/-- The caller is inside `add_client`. -/
def adding : Call → Bool
  | .addLock .. | .addStart .. | .addInsert _ => true
  | .dropSend _ (.added _) | .dropJoin _ (.added _) | .unlock (.added _)
  | .returned (.added _) => true
  | _ => false

/-- The caller is inside `remove_client` of this id. -/
def removing : Call → Option UInt64
  | .removeLock id | .removeTake id | .removeSend id _ | .removeJoin id _ => some id
  | .dropSend _ (.removed id _ _) | .dropJoin _ (.removed id _ _) | .unlock (.removed id _ _)
  | .returned (.removed id _ _) => some id
  | _ => none

/-- The removal has looked its id up. -/
def tookOut : Call → Bool
  | .removeSend .. | .removeJoin .. => true
  | .dropSend _ (.removed ..) | .dropJoin _ (.removed ..) | .unlock (.removed ..)
  | .returned (.removed ..) => true
  | _ => false

end Call

namespace Server

variable {s t : Server} {action : Action} {k : Caller}

/-- The two points belong to the same call, and a look-up is not undone between them. -/
def SameCall (before after : Call) : Prop :=
  after.adding = before.adding ∧ after.removing = before.removing ∧
    (before.tookOut = true → after.tookOut = true) ∧ after ≠ .idle

/-- Inside a call the caller stays in it. -/
theorem same_call_step (hmove : Move s (.caller k) t) : SameCall (s.callers k) (t.callers k) := by
  have hself : ∀ {call : Call}, t.callers = Function.update s.callers k call →
      SameCall (s.callers k) call → SameCall (s.callers k) (t.callers k) := by
    intro call hcallers hcall
    rwa [hcallers, Function.update_self]
  cases hmove with
  | dropSend _ client reply hat | dropJoin _ client reply hat | unlock _ reply hat =>
      refine hself rfl ?_
      rw [hat]
      cases reply <;> exact ⟨rfl, rfl, id, by simp⟩
  | addLock _ _ _ hat | addStart _ _ _ hat | addInsert _ _ hat | addReplace _ _ _ hat
  | removeLock _ _ hat | startLock _ hat | startRunning _ hat | startSpawn _ hat
  | startStore _ _ hat
  | shutdownFlag _ hat | shutdownLock _ hat | shutdownTake _ _ hat | shutdownNone _ hat
  | shutdownJoin _ _ hat =>
      refine hself rfl ?_
      rw [hat]
      exact ⟨rfl, rfl, fun hnot => (by cases hnot), by simp⟩
  | removeTake _ _ _ hat | removeNone _ _ hat | removeSend _ _ _ _ hat | removeSendFails _ _ _ _ hat
  | removeJoin _ _ _ hat =>
      refine hself rfl ?_
      rw [hat]
      exact ⟨rfl, rfl, fun _ => rfl, by simp⟩

end Server

namespace System

/-- What the connections hold. -/
structure Holding (s : System) : Prop where
  released : ∀ j h, s.handlers j = some h → h.Released
  /-- A connection is inside a call only while its handler stands at that call. -/
  coupled : ∀ j, s.server.callers (.connection j) = .idle ∨ ∃ h, s.handlers j = some h ∧
    ((∃ addr tickers, h.point = .addClient addr tickers ∧
        (s.server.callers (.connection j)).adding = true ∧
        (s.server.callers (.connection j)).removing = none) ∨
      ∃ id cause, h.point = .removeClient id cause ∧
        (s.server.callers (.connection j)).adding = false ∧
        (s.server.callers (.connection j)).removing = some id)
  others : ∀ n, (s.server.callers (.other n)).removing = none
  owned : ∀ j, ∀ id ∈ s.registered j, ∃ slot, .added (.connection j) id slot ∈ s.server.history
  newest : ∀ j h id, s.handlers j = some h → h.holding = some id →
    (s.registered j).head? = some id

variable {s t : System} {action : SystemAction} {j : Nat} {id : UInt64}

/-- A handler whose caller is removing an id holds this id. -/
theorem Holding.removing_held (hs : s.Holding)
    (hat : (s.server.callers (.connection j)).removing = some id) :
    ∃ h cause, s.handlers j = some h ∧ h.point = .removeClient id cause ∧
      h.holding = some id := by
  rcases hs.coupled j with hidle | ⟨h, hh, ⟨_, _, _, _, hnone⟩ | ⟨id', cause, hpoint, _, hid⟩⟩
  · rw [hidle] at hat
    cases hat
  · rw [hnone] at hat
    cases hat
  · rw [hid] at hat
    cases hat
    exact ⟨h, cause, hh, hpoint, by rw [Handler.holding, hpoint]⟩

/-- A handler at a call takes no other input, so an input comes to it outside its calls. -/
theorem Holding.idle_of_input (hs : s.Holding) {h next : Handler} {input : HandlerInput}
    (hh : s.handlers j = some h) (hexternal : input.isAnswer = false)
    (hstep : h.step input = some next) : s.server.callers (.connection j) = .idle := by
  rcases hs.coupled j with hidle | ⟨h', hh', hpoint⟩
  · exact hidle
  · obtain rfl := Option.some.inj (hh.symm.trans hh')
    have hnone := Handler.request_of_step hstep hexternal
    rcases hpoint with ⟨_, _, hpoint, _⟩ | ⟨_, _, hpoint, _⟩ <;>
      simp [Handler.request, hpoint] at hnone

/-- Entries of the history stay. -/
theorem history_grows {server next : Server} {action : Action} {event : Event}
    (hmove : Server.Move server action next) (hmem : event ∈ server.history) :
    event ∈ next.history := by
  cases hmove with
  | addInsert | removeTake | notifyLock => exact List.mem_cons_of_mem _ hmem
  | addReplace => exact List.mem_cons_of_mem _ (List.mem_cons_of_mem _ hmem)
  | _ => exact hmem

/-- Only handler `j` changes, and it may have been given ids. -/
theorem Holding.set_handler (ids : List UInt64) (hs : s.Holding) {next : Handler}
    (hserver : t.server = s.server)
    (hhandlers : t.handlers = Function.update s.handlers j (some next))
    (hregistered : t.registered = Function.update s.registered j (ids ++ s.registered j))
    (hidle : s.server.callers (.connection j) = .idle) (hreleased : next.Released)
    (hids : ∀ id ∈ ids, ∃ slot, .added (.connection j) id slot ∈ s.server.history)
    (hholding : ∀ id, next.holding = some id → (ids ++ s.registered j).head? = some id) :
    t.Holding := by
  refine ⟨fun i h hi => ?_, fun i => ?_, ?_, fun i id hid => ?_, fun i h id hi hid => ?_⟩
  · rw [hhandlers] at hi
    rcases Locks.moved_cases hi with ⟨-, heq⟩ | ⟨-, hi⟩
    · cases heq
      exact hreleased
    · exact hs.released i h hi
  · rw [hserver, hhandlers]
    by_cases hij : i = j
    · subst i
      exact .inl hidle
    · rw [Function.update_of_ne hij]
      exact hs.coupled i
  · rw [hserver]
    exact hs.others
  · rw [hregistered] at hid
    rw [hserver]
    by_cases hij : i = j
    · subst i
      rw [Function.update_self] at hid
      rcases List.mem_append.mp hid with hid | hid
      · exact hids id hid
      · exact hs.owned j id hid
    · rw [Function.update_of_ne hij] at hid
      exact hs.owned i id hid
  · rw [hhandlers] at hi
    rw [hregistered]
    rcases Locks.moved_cases hi with ⟨rfl, heq⟩ | ⟨hij, hi⟩
    · cases heq
      rw [Function.update_self]
      exact hholding id hid
    · rw [Function.update_of_ne hij]
      exact hs.newest i h id hi hid

/-- The call of connection `j` begins or ends, and its handler stands at it or has left it. -/
theorem Holding.set_call (hs : s.Holding) {call : Call}
    (hcoupled : call = .idle ∨ ∃ h, s.handlers j = some h ∧
      ((∃ addr tickers, h.point = .addClient addr tickers ∧ call.adding = true ∧
          call.removing = none) ∨
        ∃ id cause, h.point = .removeClient id cause ∧ call.adding = false ∧
          call.removing = some id)) :
    Holding { s with server := s.server.setCall (.connection j) call } where
  released := hs.released
  coupled i := by
    by_cases hij : i = j
    · subst i
      simpa [Server.setCall] using hcoupled
    · have hne : Caller.connection i ≠ .connection j := by simpa using hij
      simpa [Server.setCall, hne] using hs.coupled i
  others n := by simpa [Server.setCall] using hs.others n
  owned := hs.owned
  newest := hs.newest

/-- A step of the server that no handler takes. -/
theorem Holding.server_step (hs : s.Holding) {action : Action} {next : Server}
    (hallowed : action.allowed = true) (hmove : Server.Move s.server action next) :
    Holding { s with server := next } where
  released := hs.released
  coupled i := by
    rcases Server.callers_step (k := .connection i) hmove with hsame | rfl | ⟨request, rfl⟩ | rfl
    · rw [show ({ s with server := next } : System).server.callers (.connection i) =
        s.server.callers (.connection i) from hsame]
      exact hs.coupled i
    · obtain ⟨hadding, hremoving, -, hidle⟩ := Server.same_call_step hmove
      rcases hs.coupled i with hthen | ⟨h, hh, hpoint⟩
      · cases hmove <;> rename_i hat <;> rw [hat] at hthen <;> cases hthen
      · refine .inr ⟨h, hh, ?_⟩
        rwa [← hadding, ← hremoving] at hpoint
    · cases hallowed
    · cases hallowed
  others n := by
    rcases Server.callers_step (k := .other n) hmove with hsame | rfl | ⟨request, rfl⟩ | rfl
    · rw [show ({ s with server := next } : System).server.callers (.other n) =
        s.server.callers (.other n) from hsame]
      exact hs.others n
    · exact (Server.same_call_step hmove).2.1.trans (hs.others n)
    · cases hmove with
      | call _ _ _ =>
          show (Function.update s.server.callers (.other n) request.entry (.other n)).removing =
            none
          rw [Function.update_self]
          cases request <;> first | rfl | cases hallowed
    · cases hmove with
      | take _ _ _ =>
          show (Function.update s.server.callers (.other n) .idle (.other n)).removing = none
          rw [Function.update_self]
          rfl
  owned i id hid := by
    obtain ⟨slot, hmem⟩ := hs.owned i id hid
    exact ⟨slot, history_grows hmove hmem⟩
  newest := hs.newest

/-- A handler enters the method at which it stands. -/
theorem request_coupled {h : Handler} {request : Request} (hrequest : h.request = some request) :
    (∃ addr tickers, h.point = .addClient addr tickers ∧ request.entry.adding = true ∧
        request.entry.removing = none) ∨
      ∃ id cause, h.point = .removeClient id cause ∧ request.entry.adding = false ∧
        request.entry.removing = some id := by
  unfold Handler.request at hrequest
  split at hrequest <;> rename_i hpoint <;> cases hrequest
  · exact .inl ⟨_, _, hpoint, rfl, rfl⟩
  · exact .inr ⟨_, _, hpoint, rfl, rfl⟩

/-- Every step keeps track of what the connections hold. -/
theorem holding_step (hdeeds : s.server.Deeds) (hs : s.Holding) (hmove : Move s action t) :
    t.Holding := by
  cases hmove with
  | accept j now hnew =>
      have hidle : s.server.callers (.connection j) = .idle := by
        rcases hs.coupled j with hidle | ⟨h, hh, -⟩
        · exact hidle
        · rw [hnew] at hh
          cases hh
      refine Holding.set_handler [] hs rfl rfl ?_ hidle (fun id cause hat => (by cases hat))
        (by simp) fun id hid => (by cases hid)
      simp [setHandler]
  | input j input h next hh hexternal hstep =>
      obtain ⟨hholding, hreleased⟩ := Handler.holding_step hstep hexternal
      refine Holding.set_handler [] hs rfl rfl ?_ (hs.idle_of_input hh hexternal hstep) hreleased
        (by simp) fun id hid => hs.newest j h id hh (hholding.symm.trans hid)
      simp [setHandler]
  | request j h request hh hrequest hidle =>
      exact hs.set_call (.inr ⟨h, hh, request_coupled hrequest⟩)
  | answerAdded j h next id hh hreply hstep =>
      obtain ⟨-, rfl⟩ := Handler.step_added hstep
      obtain ⟨slot, hmem⟩ := hdeeds.answered (.connection j) id (by rw [hreply]; rfl)
      have hidle : Holding { s with server := s.server.setCall (.connection j) .idle } :=
        hs.set_call (.inl rfl)
      refine Holding.set_handler [id] hidle rfl rfl rfl (by simp [Server.setCall])
        (fun id cause hat => (by cases hat)) ?_ ?_
      · intro id' hid'
        rw [List.mem_singleton.mp hid']
        exact ⟨slot, hmem⟩
      · intro id' hid'
        exact hid'
  | answerRemoved j h next id recorded result hh hreply hstep =>
      obtain ⟨_, _, _, -, -, hnone, hreleased⟩ :=
        Handler.step_removed hstep (hs.released j h hh)
      have hidle : Holding { s with server := s.server.setCall (.connection j) .idle } :=
        hs.set_call (.inl rfl)
      refine Holding.set_handler [] hidle rfl rfl rfl (by simp [Server.setCall]) hreleased (by simp)
        fun id hid => ?_
      rw [hnone] at hid
      cases hid
  | server action next hallowed hstep => exact hs.server_step hallowed (Server.step_move hstep)

theorem holding_init (quotes : Quotes) : (init quotes).Holding where
  released _ _ hh := by cases hh
  coupled _ := .inl rfl
  others _ := rfl
  owned _ _ hid := by cases hid
  newest _ _ _ hh := by cases hh

/-- In every reachable state the ids that handlers hold are their newest ones. -/
theorem Reachable.holding {quotes : Quotes} (h : Reachable quotes s) : s.Holding := by
  refine Transition.Reaches.invariant_with Holding h
    (fun hrun => Server.Reachable.deeds (Reachable.server hrun)) (holding_init quotes) ?_
  exact fun hdeeds _ hinv _ hstep => holding_step hdeeds hinv (step_move hstep)

end System

end QuoteStreamer
