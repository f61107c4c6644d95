import QuoteStreamer.TcpServer.Isolation

/-!
# What a connection leaves registered

A handler keeps one `client_id` and cleans up only when it looks at it. As long as `add_client`
answers only handlers without a client, the ids of a connection that are in the registry are
exactly the one its handler holds; and as long as, besides, a handler with a client never leaves by
one of the exits without cleanup, nothing is left when it returns. Both conditions can fail:
a second `STREAM` overwrites the id of the first, and the end of the stream, a failing write, a
malformed `STREAM` and a failing bind return at once.
-/

namespace QuoteStreamer

namespace Handler

/-- The answers on which the handler returns without a look at `client_id`: a failing operation
other than `read_line`, the end of the stream, and a malformed `STREAM`. -/
def Abrupt : HandlerInput → Prop
  | .cloned (.error _) | .timeoutSet (.error _) | .wrote (.error _) | .bound (.error _) => True
  | .read (.ok []) _ => True
  | .read (.ok line) _ => Malformed (Text.trim line)
  | _ => False

/-- No operation that succeeds makes the handler leave. -/
theorem not_abrupt_ok : ¬ Abrupt (.cloned (.ok ())) ∧ ¬ Abrupt (.timeoutSet (.ok ())) ∧
    ¬ Abrupt (.wrote (.ok ())) ∧ ¬ Abrupt (.bound (.ok ())) :=
  ⟨id, id, id, id⟩

variable {h next : Handler}

theorem disconnect_returned {cause : RemoveCause} {result : Except TcpServerError Unit}
    (hreturned : (h.disconnect cause result).Returned) :
    (h.disconnect cause result).clientId = none := by
  obtain ⟨_, hpoint⟩ := hreturned
  unfold disconnect at hpoint ⊢
  split at hpoint <;> rename_i hid
  · cases hpoint
  · exact hid

/-- A handler that returns has no client, unless the answer was an abrupt one. -/
theorem returned_step {input : HandlerInput} (hstep : h.step input = some next)
    (hexternal : input.isAnswer = false) (hreturned : next.Returned) :
    Abrupt input ∨ next.clientId = none := by
  unfold step at hstep
  split at hstep <;> cases hstep
  case h_5 result now hat =>
    unfold received at hreturned ⊢
    split at hreturned
    · exact .inl trivial
    · rename_i line hline
      dsimp only at hreturned
      split at hreturned
      · obtain ⟨_, hpoint⟩ := hreturned
        cases hpoint
      · have hmalformed := dispatch_returned_iff.mp hreturned
        cases line with
        | nil => exact absurd rfl hline
        | cons c rest => exact .inl hmalformed
    · split at hreturned <;> rename_i hlate
      · rw [if_pos hlate]
        exact .inr (disconnect_returned hreturned)
      · obtain ⟨_, hpoint⟩ := hreturned
        cases hpoint
    · exact .inr (disconnect_returned hreturned)
  case h_10 | h_11 | h_12 => cases hexternal
  case h_2 | h_4 | h_7 | h_9 => exact .inl trivial
  all_goals
    obtain ⟨_, hpoint⟩ := hreturned
    cases hpoint

theorem Returned.holding (hreturned : h.Returned) : h.holding = h.clientId := by
  obtain ⟨result, hpoint⟩ := hreturned
  rw [Handler.holding, hpoint]

/-- Outside its calls a handler holds what `client_id` says. -/
theorem holding_of_input {input : HandlerInput} (hstep : h.step input = some next)
    (hexternal : input.isAnswer = false) : h.holding = h.clientId := by
  have hnone := request_of_step hstep hexternal
  unfold holding
  split <;> rename_i hpoint
  · simp [request, hpoint] at hnone
  · rfl

/-- `STOP OK` is written by a handler without a client. -/
def Stopping (h : Handler) : Prop :=
  h.point = .write "STOP OK\n".toList → h.clientId = none

theorem stopping_dispatch (msg : Str) : (h.dispatch msg).Stopping := by
  intro hpoint
  unfold dispatch at hpoint ⊢
  split at hpoint
  · cases hpoint
  · rename_i hping
    split at hpoint
    · rename_i hstream
      cases harguments : streamArguments msg with
      | some arguments =>
          rw [handle_stream_accepted harguments] at hpoint
          cases hpoint
      | none =>
          obtain ⟨text, hfail⟩ := handle_stream_rejected (h := h) harguments
          rw [hfail] at hpoint
          cases hpoint
    · rename_i hstream
      rw [if_neg hping, if_neg hstream]
      split at hpoint
      · rename_i hstop
        rw [if_pos hstop]
        unfold handleStop at hpoint ⊢
        split at hpoint <;> rename_i hid
        · cases hpoint
        · exact hid
      · cases hpoint

theorem stopping_step {input : HandlerInput} (hstep : h.step input = some next)
    (hexternal : input.isAnswer = false) : next.Stopping := by
  intro hpoint
  unfold step at hstep
  split at hstep <;> cases hstep
  case h_5 result now hat =>
    unfold received at hpoint ⊢
    split at hpoint
    · cases hpoint
    · dsimp only at hpoint ⊢
      split at hpoint <;> rename_i hblank
      · cases hpoint
      · rw [if_neg hblank]
        exact stopping_dispatch _ hpoint
    · split at hpoint <;> rename_i hlate
      · unfold disconnect at hpoint
        split at hpoint <;> cases hpoint
      · cases hpoint
    · unfold disconnect at hpoint
      split at hpoint <;> cases hpoint
  case h_10 | h_11 | h_12 => cases hexternal
  all_goals cases hpoint

end Handler

namespace Server

variable {s t : Server} {action : Action} {k : Caller} {client : Client} {id : UInt64}

/-- Only an insertion puts an id into the registry. -/
theorem lookup_back (hmove : Move s action t) (hfound : t.clients.lookup id = some client) :
    (∃ client, s.clients.lookup id = some client) ∨
      ∃ k client, s.callers k = .addInsert client ∧ id = s.clientsCount := by
  have hinsert : ∀ (k : Caller) (new : Client), s.callers k = .addInsert new →
      (s.clients.insert s.clientsCount new).lookup id = some client →
      (∃ client, s.clients.lookup id = some client) ∨
        ∃ k client, s.callers k = .addInsert client ∧ id = s.clientsCount := by
    intro k new hat hlookup
    rcases InPlace.lookup_insert_cases hlookup with ⟨hid, -⟩ | ⟨-, hlookup⟩
    · exact .inr ⟨k, new, hat, hid⟩
    · exact .inl ⟨client, hlookup⟩
  cases hmove with
  | addInsert k new hat => exact hinsert k new hat hfound
  | addReplace k new old hat => exact hinsert k new hat hfound
  | removeTake k id' client' hat hfound' =>
      exact .inl ⟨client, (InPlace.lookup_of_erase hfound).2⟩
  | _ => exact .inl ⟨client, hfound⟩

/-- Right after a removal has looked its id up, the registry has no such id. -/
theorem took_step (hmove : Move s (.caller k) t) (hremoving : (t.callers k).removing = some id)
    (htook : (t.callers k).tookOut = true) :
    (s.callers k).tookOut = true ∨ t.clients.lookup id = none := by
  have hself : ∀ {call : Call}, t.callers = Function.update s.callers k call →
      (call.tookOut = true → (s.callers k).tookOut = true) → (s.callers k).tookOut = true := by
    intro call hcallers hcall
    rw [hcallers, Function.update_self] at htook
    exact hcall htook
  cases hmove with
  | removeTake _ id' client hat hfound =>
      simp only [set_call_self, Call.removing, Option.some.injEq] at hremoving
      subst hremoving
      exact .inr (AList.lookup_erase ..)
  | removeNone _ id' hat hnone =>
      simp only [set_call_self, Call.removing, Option.some.injEq] at hremoving
      subst hremoving
      exact .inr hnone
  | removeSend _ _ _ _ hat | removeSendFails _ _ _ _ hat | removeJoin _ _ _ hat =>
      exact .inl (by rw [hat]; rfl)
  | dropSend _ client reply hat | dropJoin _ client reply hat | unlock _ reply hat =>
      refine .inl (hself rfl fun hthen => ?_)
      rw [hat]
      cases reply <;> exact hthen
  | _ => exact .inl (hself rfl fun hnot => by cases hnot)

end Server

namespace System

/-- Handler `j` does not call `add_client` while it has a client. -/
def Single (j : Nat) (s : System) (action : SystemAction) : Prop :=
  ∀ h addr tickers, action = .request j → s.handlers j = some h →
    h.point = .addClient addr tickers → h.clientId = none

/-- Besides, handler `j` leaves by none of the exits without cleanup while it has a client. -/
def Tidy (j : Nat) (s : System) (action : SystemAction) : Prop :=
  Single j s action ∧ ∀ h input, action = .input j input → s.handlers j = some h →
    h.clientId = none ∨ ¬ Handler.Abrupt input

/-- The clients that connection `j` has in the registry are those that its handler holds. -/
structure Sole (s : System) (j : Nat) : Prop where
  alone : ∀ h, s.handlers j = some h → (s.server.callers (.connection j)).adding = true →
    h.clientId = none
  only : ∀ id client, id ∈ s.registered j → s.server.clients.lookup id = some client →
    ∃ h, s.handlers j = some h ∧ h.holding = some id
  gone : ∀ id, (s.server.callers (.connection j)).removing = some id →
    (s.server.callers (.connection j)).tookOut = true → s.server.clients.lookup id = none
  stopping : ∀ h, s.handlers j = some h → h.Stopping

variable {s t : System} {action : SystemAction} {j : Nat} {id : UInt64}

/-- Nothing that concerns connection `j` changes. -/
theorem Sole.frame (h : s.Sole j) (hhandler : t.handlers j = s.handlers j)
    (hregistered : t.registered j = s.registered j)
    (hcall : t.server.callers (.connection j) = s.server.callers (.connection j))
    (hclients : t.server.clients = s.server.clients) : t.Sole j := by
  constructor
  · rw [hhandler, hcall]
    exact h.alone
  · rw [hhandler, hregistered, hclients]
    exact h.only
  · rw [hcall, hclients]
    exact h.gone
  · rw [hhandler]
    exact h.stopping

/-- The handler changes outside its calls, and it may have been given ids. -/
theorem Sole.set_handler (ids : List UInt64) {next : Handler}
    (hhandler : t.handlers j = some next) (hregistered : t.registered j = ids ++ s.registered j)
    (hidle : t.server.callers (.connection j) = .idle)
    (hclients : t.server.clients = s.server.clients)
    (honly : ∀ id client, id ∈ ids ++ s.registered j →
      s.server.clients.lookup id = some client → next.holding = some id)
    (hstopping : next.Stopping) : t.Sole j := by
  refine ⟨fun h hh hadding => ?_, fun id client hid hfound => ?_, fun id hremoving => ?_,
    fun h hh => ?_⟩
  · rw [hidle] at hadding
    cases hadding
  · rw [hregistered] at hid
    rw [hclients] at hfound
    exact ⟨next, hhandler, honly id client hid hfound⟩
  · rw [hidle] at hremoving
    cases hremoving
  · rw [hhandler] at hh
    cases hh
    exact hstopping

/-- The handler enters a method. -/
theorem Sole.request (h : s.Sole j) {call : Call}
    (halone : call.adding = true → ∀ h, s.handlers j = some h → h.clientId = none)
    (hgone : call.tookOut = false) :
    Sole { s with server := s.server.setCall (.connection j) call } j where
  alone handler hh hadding := by
    simp only [Server.set_call_self] at hadding
    exact halone hadding handler hh
  only := h.only
  gone id hremoving htook := by
    simp only [Server.set_call_self] at htook
    rw [hgone] at htook
    cases htook
  stopping := h.stopping

/-- A step of the server does not bring back what a connection has registered. -/
theorem registered_stays_out (hs : s.Holding) (hcustody : s.server.Custody)
    (hdeeds : s.server.Deeds) (hbound : s.server.spawned ≤ 2 ^ 64) {action : Action}
    {next : Server} (hmove : Server.Move s.server action next) (hid : id ∈ s.registered j)
    {client : Client} (hfound : next.clients.lookup id = some client) :
    ∃ client, s.server.clients.lookup id = some client := by
  rcases Server.lookup_back hmove hfound with hthen | ⟨k, new, hat, heq⟩
  · exact hthen
  · obtain ⟨slot, howner⟩ := hs.owned j id hid
    exact absurd heq (hdeeds.insert_unnamed hcustody hbound howner hat)

/-- A step of the server that no handler takes. -/
theorem Sole.server_step (h : s.Sole j) (hs : s.Holding) (hcustody : s.server.Custody)
    (hdeeds : s.server.Deeds) (hbound : s.server.spawned ≤ 2 ^ 64) {action : Action} {next : Server}
    (hallowed : action.allowed = true) (hmove : Server.Move s.server action next) :
    Sole { s with server := next } j where
  alone handler hh hadding := by
    rcases Server.callers_step (k := .connection j) hmove with hsame | rfl | ⟨_, rfl⟩ | rfl
    · exact h.alone handler hh (by rw [← hsame]; exact hadding)
    · exact h.alone handler hh (by rw [← (Server.same_call_step hmove).1]; exact hadding)
    · cases hallowed
    · cases hallowed
  only id client hid hfound := by
    obtain ⟨client, hthen⟩ := registered_stays_out hs hcustody hdeeds hbound hmove hid hfound
    exact h.only id client hid hthen
  gone id hremoving htook := by
    have hstays : (s.server.callers (.connection j)).removing = some id →
        (s.server.callers (.connection j)).tookOut = true → next.clients.lookup id = none := by
      intro hthen hout
      have hid := List.mem_of_mem_head? (hs.removing_owned hthen).1
      cases hfound : next.clients.lookup id with
      | none => rfl
      | some client =>
          obtain ⟨client, hback⟩ := registered_stays_out hs hcustody hdeeds hbound hmove hid hfound
          rw [h.gone id hthen hout] at hback
          cases hback
    rcases Server.callers_step (k := .connection j) hmove with hsame | rfl | ⟨_, rfl⟩ | rfl
    · exact hstays (by rw [← hsame]; exact hremoving) (by rw [← hsame]; exact htook)
    · rcases Server.took_step hmove hremoving htook with hout | hnone
      · exact hstays (by rw [← (Server.same_call_step hmove).2.1]; exact hremoving) hout
      · exact hnone
    · cases hallowed
    · cases hallowed
  stopping := h.stopping

/-- `add_client` has answered: the connection had no client in the registry before. -/
theorem Sole.answer_added (h : s.Sole j) {handler next : Handler}
    (hh : s.handlers j = some handler)
    (hreply : s.server.callers (.connection j) = .returned (.added id))
    (hstep : handler.step (.added (.ok id)) = some next) {id' : UInt64} {client : Client}
    (hid : id' ∈ [id] ++ s.registered j) (hfound : s.server.clients.lookup id' = some client) :
    next.holding = some id' := by
  obtain ⟨⟨addr, tickers, hpoint⟩, rfl⟩ := Handler.step_added hstep
  have hnone := h.alone handler hh (by rw [hreply]; rfl)
  rcases List.mem_cons.mp hid with rfl | hid
  · rfl
  · obtain ⟨handler', hh', hholding⟩ := h.only id' client hid hfound
    obtain rfl := Option.some.inj (hh.symm.trans hh')
    rw [Handler.holding, hpoint] at hholding
    rw [show handler.clientId = some id' from hholding] at hnone
    cases hnone

/-- `remove_client` has answered: the connection has no client in the registry now. -/
theorem Sole.answer_removed (h : s.Sole j) (hs : s.Holding) {recorded : Option Nat}
    {result : Except QuoteServerError Unit}
    (hreply : s.server.callers (.connection j) = .returned (.removed id recorded result))
    {id' : UInt64} (hid : id' ∈ s.registered j) : s.server.clients.lookup id' = none := by
  cases hfound : s.server.clients.lookup id' with
  | none => rfl
  | some client =>
      obtain ⟨handler, hh, hholding⟩ := h.only id' client hid hfound
      have hremoving : (s.server.callers (.connection j)).removing = some id := by
        rw [hreply]
        rfl
      obtain ⟨handler', _, hh', -, hheld⟩ := hs.removing_held hremoving
      obtain rfl := Option.some.inj (hh.symm.trans hh')
      obtain rfl := Option.some.inj (hheld.symm.trans hholding)
      rw [h.gone id (by rw [hreply]; rfl) (by rw [hreply]; rfl)] at hfound
      cases hfound

/-- A step in which handler `j` does not add a second client keeps the registry in line with it. -/
theorem sole_step (hs : s.Holding) (hcustody : s.server.Custody) (hdeeds : s.server.Deeds)
    (hbound : s.server.spawned ≤ 2 ^ 64) (h : s.Sole j) (hsingle : Single j s action)
    (hmove : Move s action t) : t.Sole j := by
  have hcall : ∀ {i : Nat}, i ≠ j → ∀ call : Call,
      (s.server.setCall (.connection i) call).callers (.connection j) =
        s.server.callers (.connection j) := by
    intro i hi call
    exact Function.update_of_ne (by simpa using Ne.symm hi) _ _
  cases hmove with
  | accept i now hnew =>
      by_cases hi : i = j
      · subst hi
        have hidle : s.server.callers (.connection i) = .idle := by
          rcases hs.coupled i with hidle | ⟨handler, hh, -⟩
          · exact hidle
          · rw [hnew] at hh
            cases hh
        refine Sole.set_handler [] (Function.update_self ..) rfl hidle rfl
          (fun id client hid hfound => ?_) (fun hpoint => (by cases hpoint))
        obtain ⟨handler, hh, -⟩ := h.only id client hid hfound
        rw [hnew] at hh
        cases hh
      · exact h.frame (Function.update_of_ne (Ne.symm hi) _ _) rfl rfl rfl
  | input i input handler next hh hexternal hstep =>
      by_cases hi : i = j
      · subst hi
        refine Sole.set_handler [] (Function.update_self ..) rfl
          (hs.idle_of_input hh hexternal hstep) rfl (fun id client hid hfound => ?_)
          (Handler.stopping_step hstep hexternal)
        obtain ⟨handler', hh', hholding⟩ := h.only id client hid hfound
        obtain rfl := Option.some.inj (hh.symm.trans hh')
        exact (Handler.holding_step hstep hexternal).1.trans hholding
      · exact h.frame (Function.update_of_ne (Ne.symm hi) _ _) rfl rfl rfl
  | request i handler request hh hrequest hidle =>
      by_cases hi : i = j
      · subst hi
        refine h.request (fun hadding handler' hh' => ?_) (by cases request <;> rfl)
        obtain rfl := Option.some.inj (hh.symm.trans hh')
        rcases request_coupled hrequest with ⟨addr, tickers, hpoint, -⟩ | ⟨_, _, -, hnot, -⟩
        · exact hsingle handler addr tickers rfl hh hpoint
        · rw [hnot] at hadding
          cases hadding
      · exact h.frame rfl rfl (hcall hi _) rfl
  | answerAdded i handler next id hh hreply hstep =>
      by_cases hi : i = j
      · subst hi
        refine Sole.set_handler [id] (Function.update_self ..) (Function.update_self ..)
          (Function.update_self ..) rfl (fun id' client hid hfound =>
            h.answer_added hh hreply hstep hid hfound) (fun hpoint => ?_)
        obtain ⟨-, rfl⟩ := Handler.step_added hstep
        cases hpoint
      · exact h.frame (Function.update_of_ne (Ne.symm hi) _ _)
          (Function.update_of_ne (Ne.symm hi) _ _) (hcall hi _) rfl
  | answerRemoved i handler next id recorded result hh hreply hstep =>
      by_cases hi : i = j
      · subst hi
        obtain ⟨id', cause, hpoint, -, hnone, -, -⟩ :=
          Handler.step_removed hstep (hs.released i handler hh)
        refine Sole.set_handler [] (Function.update_self ..) (Function.update_self ..)
          (Function.update_self ..) rfl (fun id' client hid hfound => ?_) (fun _ => hnone)
        rw [h.answer_removed hs hreply hid] at hfound
        cases hfound
      · exact h.frame (Function.update_of_ne (Ne.symm hi) _ _)
          (Function.update_of_ne (Ne.symm hi) _ _) (hcall hi _) rfl
  | server action next hallowed hstep =>
      exact h.server_step hs hcustody hdeeds hbound hallowed (Server.step_move hstep)

theorem sole_init (quotes : Quotes) (j : Nat) : (init quotes).Sole j where
  alone _ hh := by cases hh
  only _ _ hid := by cases hid
  gone _ hid := by cases hid
  stopping _ hh := by cases hh

/-- In every run in which handler `j` never adds a second client, the registry is in line with
it. -/
theorem sole_of_reaches {quotes : Quotes} (h : Transition.Reaches step (Single j) (init quotes) s)
    (hbound : s.server.spawned ≤ 2 ^ 64) : s.Sole j := by
  refine Transition.Reaches.invariant_with
    (fun state : System => state.server.spawned ≤ 2 ^ 64 → state.Sole j) h
    (fun hrun => And.intro (Reachable.holding hrun.reachable) (Reachable.server hrun.reachable))
    (fun _ => sole_init quotes j) ?_ hbound
  rintro state next action ⟨hholding, hserver⟩ - hinv hsingle hstep hbound
  have hmove := step_move hstep
  have hthen := Nat.le_trans (spawned_step hmove) hbound
  exact sole_step hholding (Server.Reachable.custody hserver) (Server.Reachable.deeds hserver) hthen
    (hinv hthen) hsingle hmove

/-! ## One subscription at a time -/

/-- Between two iterations the clients that connection `j` has in the registry are exactly the one
in `client_id`, and there is none when `STOP OK` is written. -/
def Known (s : System) (j : Nat) : Prop :=
  ∀ h, s.handlers j = some h →
    (h.point = .readLine → ∀ id, (id ∈ s.registered j ∧
      ∃ client, s.server.clients.lookup id = some client) ↔ h.clientId = some id) ∧
    (h.point = .write "STOP OK\n".toList →
      ∀ id ∈ s.registered j, s.server.clients.lookup id = none)

/-- As long as its handler does not call `add_client` with a client in `client_id`, and ids do not
wrap around, a connection has at most one subscription, which the handler knows. -/
theorem at_most_one_subscription {quotes : Quotes}
    (hs : Transition.Reaches step (Single j) (init quotes) s)
    (hbound : s.server.spawned ≤ 2 ^ 64) : s.Known j := by
  have hsole := sole_of_reaches hs hbound
  have hholding := Reachable.holding hs.reachable
  intro h hh
  refine ⟨fun hpoint id => ⟨?_, fun hid => ?_⟩, fun hpoint id hid => ?_⟩
  · rintro ⟨hid, client, hfound⟩
    obtain ⟨h', hh', hheld⟩ := hsole.only id client hid hfound
    obtain rfl := Option.some.inj (hh.symm.trans hh')
    rwa [Handler.holding, hpoint] at hheld
  · have hheld : h.holding = some id := by rw [Handler.holding, hpoint, hid]
    have hidle : s.server.callers (.connection j) = .idle := by
      rcases hholding.coupled j with hidle | ⟨h', hh', hcall⟩
      · exact hidle
      · obtain rfl := Option.some.inj (hh.symm.trans hh')
        rcases hcall with ⟨_, _, hat, -⟩ | ⟨_, _, hat, -⟩ <;> simp [hpoint] at hat
    refine ⟨List.mem_of_mem_head? (hholding.newest j h id hh hheld), ?_⟩
    exact (Reachable.live hs.reachable hbound).held j h id hh hheld (by rw [hidle]; rfl)
  · cases hfound : s.server.clients.lookup id with
    | none => rfl
    | some client =>
        obtain ⟨h', hh', hheld⟩ := hsole.only id client hid hfound
        obtain rfl := Option.some.inj (hh.symm.trans hh')
        have hnone := hsole.stopping h hh hpoint
        rw [Handler.holding, hpoint] at hheld
        rw [show h.clientId = some id from hheld] at hnone
        cases hnone

/-- Up to the call of `add_client` for the first `STREAM`. -/
def beforeAdding (j : Nat) : List SystemAction :=
  connecting j ++ [.input j (.read (.ok streamLine) 0), .input j (.bound (.ok ()))]

/-- From the call on until the handler is back in its loop. -/
def afterAdding (j : Nat) : List SystemAction :=
  List.replicate 4 (.server (.caller (.connection j))) ++ [.answer j, .input j (.wrote (.ok ()))]

theorem at_most_one_subscription_stream : ∃ s, Transition.Reaches step (Single 0) (init ∅) s ∧
    s.registered 0 = [0] ∧ s.Known 0 := by
  obtain ⟨t, hbefore, h, hh, hnone, u, hrequest, s, hafter, hspawned, hregistered⟩ :
      ∃ t, Transition.run step (init ∅) (beforeAdding 0) = some t ∧
        ∃ h, t.handlers 0 = some h ∧ h.clientId = none ∧
        ∃ u, step t (.request 0) = some u ∧
        ∃ s, Transition.run step u (afterAdding 0) = some s ∧ s.server.spawned = 1 ∧
          s.registered 0 = [0] := ⟨_, rfl, _, rfl, rfl, _, rfl, _, rfl, rfl, rfl⟩
  have hfirst : Transition.Reaches step (Single 0) (init ∅) t :=
    Transition.reaches_of_run hbefore (by simp [beforeAdding, connecting, Single])
  have hlast : Transition.Reaches step (Single 0) u s :=
    Transition.reaches_of_run hafter (by simp [afterAdding, Single])
  have hs := (hfirst.tail (fun h' _ _ _ hh' _ => by
    rw [hh] at hh'
    cases hh'
    exact hnone) hrequest).trans hlast
  exact ⟨s, hs, hregistered, at_most_one_subscription hs (by rw [hspawned]; decide)⟩

/-- The rest of a `remove_client` call of connection `j`, the client's thread taking the `Shutdown`
in between. -/
def removal (j slot : Nat) : List SystemAction :=
  List.replicate 3 (.server (.caller (.connection j))) ++
    List.replicate 3 (.server (.client slot .ok)) ++
    List.replicate 4 (.server (.caller (.connection j))) ++ [.answer j]

/-- A second `STREAM` registers a second client, and the first one outlives `STOP OK`. -/
theorem second_stream_is_forgotten : ∃ s, Reachable ∅ s ∧ s.registered 0 = [1, 0] ∧
    (s.handlers 0).map (·.point) = some (.write "STOP OK\n".toList) ∧
    (∃ client, s.server.clients.lookup 0 = some client) ∧ ¬ s.Known 0 := by
  obtain ⟨s, hrun, hregistered, h, hh, hpoint, client, hfound⟩ :
      ∃ s, Transition.run step (init ∅) (connecting 0 ++ streaming 0 ++ streaming 0 ++
          [.input 0 (.read (.ok "STOP\n".toList) 0), .request 0] ++ removal 0 1) = some s ∧
        s.registered 0 = [1, 0] ∧ ∃ h, s.handlers 0 = some h ∧
        h.point = .write "STOP OK\n".toList ∧
        ∃ client, s.server.clients.lookup 0 = some client := ⟨_, rfl, rfl, _, rfl, rfl, _, rfl⟩
  refine ⟨s, Transition.reachable_of_run hrun, hregistered, by rw [hh, ← hpoint]; rfl,
    ⟨client, hfound⟩, fun hknown => ?_⟩
  have hnone := (hknown h hh).2 hpoint 0 (by rw [hregistered]; simp)
  rw [hfound] at hnone
  cases hnone

/-! ## No subscription left behind -/

/-- When the handler of connection `j` has returned, nothing that it registered is in the
registry. -/
def Cleaned (s : System) (j : Nat) : Prop :=
  ∀ h, s.handlers j = some h → h.Returned → ∀ id ∈ s.registered j,
    s.server.clients.lookup id = none

/-- A handler that has returned holds no client. -/
theorem tidy_step (hs : s.Holding) (htidy : Tidy j s action) (hmove : Move s action t)
    (h : ∀ h, s.handlers j = some h → h.Returned → h.clientId = none) :
    ∀ h, t.handlers j = some h → h.Returned → h.clientId = none := by
  have hother : ∀ {i : Nat} {next : Handler},
      t.handlers = Function.update s.handlers i (some next) →
      (i = j → next.Returned → next.clientId = none) →
      ∀ h, t.handlers j = some h → h.Returned → h.clientId = none := by
    intro i next hhandlers hnext handler hh hreturned
    rw [hhandlers] at hh
    rcases Locks.moved_cases hh with ⟨rfl, heq⟩ | ⟨-, hh⟩
    · cases heq
      exact hnext rfl hreturned
    · exact h handler hh hreturned
  cases hmove with
  | accept i now hnew => exact hother rfl fun _ _ => rfl
  | input i input handler next hh hexternal hstep =>
      refine hother rfl fun hi hreturned => ?_
      subst hi
      rcases Handler.returned_step hstep hexternal hreturned with habrupt | hnone
      · have hnone := (htidy.2 handler input rfl hh).resolve_right (not_not_intro habrupt)
        have hholding := (Handler.holding_step hstep hexternal).1
        rw [hreturned.holding, Handler.holding_of_input hstep hexternal] at hholding
        exact hholding.trans hnone
      · exact hnone
  | answerAdded i handler next id hh hreply hstep =>
      refine hother rfl fun _ hreturned => ?_
      obtain ⟨-, rfl⟩ := Handler.step_added hstep
      obtain ⟨_, hpoint⟩ := hreturned
      cases hpoint
  | answerRemoved i handler next id recorded result hh hreply hstep =>
      refine hother rfl fun _ _ => ?_
      obtain ⟨_, _, -, -, hnone, -⟩ := Handler.step_removed hstep (hs.released i handler hh)
      exact hnone
  | request | server => exact h

/-- As long as, besides, its handler does not leave by an exit without cleanup while it has a
client, a connection leaves nothing in the registry. -/
theorem no_leaked_subscription {quotes : Quotes}
    (hs : Transition.Reaches step (Tidy j) (init quotes) s)
    (hbound : s.server.spawned ≤ 2 ^ 64) : s.Cleaned j := by
  have hsole := sole_of_reaches (hs.mono fun _ _ => And.left) hbound
  have hreturned : ∀ h, s.handlers j = some h → h.Returned → h.clientId = none := by
    refine Transition.Reaches.invariant_with
      (fun state : System => ∀ h, state.handlers j = some h → h.Returned → h.clientId = none) hs
      (fun hrun => Reachable.holding hrun.reachable) (fun h hh => (by cases hh)) ?_
    exact fun hholding _ hinv htidy hstep => tidy_step hholding htidy (step_move hstep) hinv
  intro h hh hat id hid
  cases hfound : s.server.clients.lookup id with
  | none => rfl
  | some client =>
      obtain ⟨h', hh', hheld⟩ := hsole.only id client hid hfound
      obtain rfl := Option.some.inj (hh.symm.trans hh')
      rw [hat.holding, hreturned h hh hat] at hheld
      cases hheld

/-- A handler without a client may call any method. -/
theorem tidy_request {h : Handler} (hh : s.handlers j = some h) (hnone : h.clientId = none) :
    Tidy j s (.request j) := by
  refine ⟨fun h' _ _ _ hh' _ => ?_, fun _ _ hinput => (by cases hinput)⟩
  obtain rfl := Option.some.inj (hh.symm.trans hh')
  exact hnone

theorem no_leaked_subscription_timeout : ∃ s, Transition.Reaches step (Tidy 0) (init ∅) s ∧
    s.registered 0 = [0] ∧ (s.handlers 0).map (·.point) = some (.returned (.ok ())) ∧
    s.server.clients.lookup 0 = none := by
  obtain ⟨t, hbefore, h, hh, hnone, u, hrequest, v, hbetween, h', hh', hnone', w, hrequest', s,
      hafter, hspawned, hregistered, h'', hh'', hpoint⟩ :
      ∃ t, Transition.run step (init ∅) (beforeAdding 0) = some t ∧
        ∃ h, t.handlers 0 = some h ∧ h.clientId = none ∧
        ∃ u, step t (.request 0) = some u ∧
        ∃ v, Transition.run step u (afterAdding 0 ++ [.input 0 (.read .timedOut 6000)]) = some v ∧
        ∃ h, v.handlers 0 = some h ∧ h.clientId = none ∧
        ∃ w, step v (.request 0) = some w ∧
        ∃ s, Transition.run step w (removal 0 0) = some s ∧
          s.server.spawned = 1 ∧ s.registered 0 = [0] ∧ ∃ h, s.handlers 0 = some h ∧
          h.point = .returned (.ok ()) :=
    ⟨_, rfl, _, rfl, rfl, _, rfl, _, rfl, _, rfl, rfl, _, rfl, _, rfl, rfl, rfl, _, rfl, rfl⟩
  have hstream : ¬ Handler.Abrupt (.read (.ok streamLine) 0) :=
    show ¬ Handler.Malformed (Text.trim streamLine) by decide
  have htimeout : ¬ Handler.Abrupt (.read .timedOut 6000) := id
  have hfirst : Transition.Reaches step (Tidy 0) (init ∅) t := Transition.reaches_of_run hbefore
    (by simp [beforeAdding, connecting, Tidy, Single, hstream, Handler.not_abrupt_ok])
  have hsecond : Transition.Reaches step (Tidy 0) u v := Transition.reaches_of_run hbetween
    (by simp [afterAdding, Tidy, Single, htimeout, Handler.not_abrupt_ok])
  have hthird : Transition.Reaches step (Tidy 0) w s := Transition.reaches_of_run hafter
    (by simp [removal, Tidy, Single])
  have hs := ((((hfirst.tail (tidy_request hh hnone) hrequest).trans hsecond).tail
    (tidy_request hh' hnone') hrequest')).trans hthird
  refine ⟨s, hs, hregistered, by rw [hh'', ← hpoint]; rfl, ?_⟩
  exact no_leaked_subscription hs (by rw [hspawned]; decide) h'' hh'' ⟨_, hpoint⟩ 0
    (by rw [hregistered]; simp)

/-- A connection that streams and then closes leaves its client in the registry. -/
theorem closed_connection_leaks : ∃ s, Reachable ∅ s ∧ s.registered 0 = [0] ∧
    (s.handlers 0).map (·.point) = some (.returned (.ok ())) ∧
    (∃ client, s.server.clients.lookup 0 = some client) ∧ ¬ s.Cleaned 0 := by
  obtain ⟨s, hrun, hregistered, h, hh, hpoint, client, hfound⟩ :
      ∃ s, Transition.run step (init ∅) (connecting 0 ++ streaming 0 ++
          [.input 0 (.read (.ok []) 0)]) = some s ∧
        s.registered 0 = [0] ∧ ∃ h, s.handlers 0 = some h ∧ h.point = .returned (.ok ()) ∧
        ∃ client, s.server.clients.lookup 0 = some client := ⟨_, rfl, rfl, _, rfl, rfl, _, rfl⟩
  refine ⟨s, Transition.reachable_of_run hrun, hregistered, by rw [hh, ← hpoint]; rfl,
    ⟨client, hfound⟩, fun hcleaned => ?_⟩
  have hnone := hcleaned h hh ⟨_, hpoint⟩ 0 (by rw [hregistered]; simp)
  rw [hfound] at hnone
  cases hnone

end System

end QuoteStreamer
