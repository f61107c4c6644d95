import QuoteStreamer.QuoteServer.Ownership
import QuoteStreamer.TcpServer.Handler

/-!
# Connections sharing one `QuoteServer`

Any number of handlers, each the caller `connection j` of the server. A handler's call of
`add_client` or `remove_client` is a step that enters the method and a later step that takes its
answer; in between the server moves the caller. Besides the handlers only other callers of
`add_client`, `start` and `shutdown` use the server. `registered` records the ids that the
`add_client` calls of each connection have returned, newest first, and no step reads it.
-/

namespace QuoteStreamer

/-- The server with the handlers of its connections. -/
structure System where
  server : Server
  handlers : Nat → Option Handler
  registered : Nat → List UInt64

/-- The scheduler's choice of a step. -/
inductive SystemAction where
  /-- The listener accepts connection `j`. -/
  | accept (j : Nat) (now : Nat)
  /-- An operation of handler `j` other than a method call answers. -/
  | input (j : Nat) (input : HandlerInput)
  /-- Handler `j` enters the method it calls. -/
  | request (j : Nat)
  /-- Handler `j` takes the answer of its call. -/
  | answer (j : Nat)
  /-- A step of the server, or of another caller. -/
  | server (action : Action)
  deriving DecidableEq

/-- What the handler gets to see of an answer. -/
def Reply.input : Reply → Option HandlerInput
  | .added id => some (.added (.ok id))
  | .removed _ _ result => some (.removed result)
  | _ => none

/-- The ids that an answer has handed out. -/
def Reply.ids : Reply → List UInt64
  | .added id => [id]
  | _ => []

/-- The steps of the server that are not steps of a handler. Only handlers call
`remove_client`. -/
def Action.allowed : Action → Bool
  | .call (.connection _) _ | .take (.connection _) => false
  | .call (.other _) (.removeClient _) => false
  | _ => true

namespace System

/-- A server without connections. -/
def init (quotes : Quotes) : System :=
  ⟨.init quotes, fun _ => none, fun _ => []⟩

/-- Replace a handler. -/
def setHandler (s : System) (j : Nat) (h : Handler) : System :=
  { s with handlers := Function.update s.handlers j (some h) }

/-- The answer that the caller has not taken yet. -/
def answerOf (s : System) (j : Nat) : Option Reply :=
  match s.server.callers (.connection j) with
  | .returned reply => some reply
  | _ => none

/-- One step under the scheduler's choice. -/
def step (s : System) : SystemAction → Option System
  | .accept j now =>
      match s.handlers j with
      | none => some (s.setHandler j (.accepted now))
      | some _ => none
  | .input j input =>
      if input.isAnswer then none
      else do
        let h ← s.handlers j
        let h ← h.step input
        pure (s.setHandler j h)
  | .request j => do
      let h ← s.handlers j
      let request ← h.request
      let server ← s.server.step (.call (.connection j) request)
      pure { s with server := server }
  | .answer j => do
      let h ← s.handlers j
      let reply ← s.answerOf j
      let input ← reply.input
      let h ← h.step input
      let server ← s.server.step (.take (.connection j))
      pure { s.setHandler j h with
        server := server
        registered := Function.update s.registered j (reply.ids ++ s.registered j) }
  | .server action =>
      if action.allowed then do
        let server ← s.server.step action
        pure { s with server := server }
      else none

/-- The system reaches this state from a fresh server with these quotes. -/
def Reachable (quotes : Quotes) (s : System) : Prop :=
  Transition.Reachable step (init quotes) s

/-- The transitions of the system. -/
inductive Move (s : System) : SystemAction → System → Prop where
  | accept (j now : Nat) (hnew : s.handlers j = none) :
      Move s (.accept j now) (s.setHandler j (.accepted now))
  | input (j : Nat) (input : HandlerInput) (h h' : Handler) (hat : s.handlers j = some h)
      (hexternal : input.isAnswer = false) (hstep : h.step input = some h') :
      Move s (.input j input) (s.setHandler j h')
  | request (j : Nat) (h : Handler) (request : Request) (hat : s.handlers j = some h)
      (hrequest : h.request = some request) (hidle : s.server.callers (.connection j) = .idle) :
      Move s (.request j) { s with server := s.server.setCall (.connection j) request.entry }
  | answerAdded (j : Nat) (h h' : Handler) (id : UInt64) (hat : s.handlers j = some h)
      (hreply : s.server.callers (.connection j) = .returned (.added id))
      (hstep : h.step (.added (.ok id)) = some h') :
      Move s (.answer j) { s.setHandler j h' with
        server := s.server.setCall (.connection j) .idle
        registered := Function.update s.registered j (id :: s.registered j) }
  | answerRemoved (j : Nat) (h h' : Handler) (id : UInt64) (recorded : Option Nat)
      (result : Except QuoteServerError Unit) (hat : s.handlers j = some h)
      (hreply : s.server.callers (.connection j) = .returned (.removed id recorded result))
      (hstep : h.step (.removed result) = some h') :
      Move s (.answer j) { s.setHandler j h' with
        server := s.server.setCall (.connection j) .idle
        registered := Function.update s.registered j (s.registered j) }
  | server (action : Action) (next : Server) (hallowed : action.allowed = true)
      (hstep : s.server.step action = some next) : Move s (.server action) { s with server := next }

variable {s t : System} {action : SystemAction}

/-- Every step is one of the listed transitions. -/
theorem step_move (h : s.step action = some t) : Move s action t := by
  cases action with
  | accept j now =>
      simp only [step] at h
      split at h <;> rename_i hnew <;> cases h
      exact .accept j now hnew
  | input j input =>
      simp only [step] at h
      split at h <;> rename_i hanswer
      · cases h
      · simp only [bind, Option.bind_eq_some_iff, pure, Option.some.injEq] at h
        obtain ⟨handler, hat, next, hstep, rfl⟩ := h
        exact .input j input handler next hat (by simpa using hanswer) hstep
  | request j =>
      simp only [step, bind, Option.bind_eq_some_iff, pure, Option.some.injEq] at h
      obtain ⟨handler, hat, request, hrequest, server, hserver, rfl⟩ := h
      cases Server.step_move hserver with
      | call _ _ hidle => exact .request j handler request hat hrequest hidle
  | answer j =>
      simp only [step, bind, Option.bind_eq_some_iff, pure, Option.some.injEq] at h
      obtain ⟨handler, hat, reply, hreply, input, hinput, next, hstep, server, hserver, rfl⟩ := h
      unfold answerOf at hreply
      split at hreply <;> rename_i reply' hcall <;> cases hreply
      cases Server.step_move hserver with
      | take _ _ _ =>
          cases reply <;> cases hinput
          · exact .answerAdded j handler next _ hat hcall hstep
          · exact .answerRemoved j handler next _ _ _ hat hcall hstep
  | server action =>
      simp only [step] at h
      split at h <;> rename_i hallowed
      · simp only [bind, Option.bind_eq_some_iff, pure, Option.some.injEq] at h
        obtain ⟨next, hserver, rfl⟩ := h
        exact .server action next hallowed hserver
      · cases h

/-- On the server a step of the system does nothing or is a step of the server. -/
theorem server_step (hmove : Move s action t) :
    t.server = s.server ∨ ∃ action, s.server.step action = some t.server := by
  cases hmove with
  | accept | input => exact .inl rfl
  | request j h request hat hrequest hidle =>
      exact .inr ⟨.call (.connection j) request, by simp [Server.step, hidle]⟩
  | answerAdded j h h' id hat hreply =>
      exact .inr ⟨.take (.connection j), by simp [Server.step, hreply]⟩
  | answerRemoved j h h' id recorded result hat hreply =>
      exact .inr ⟨.take (.connection j), by simp [Server.step, hreply]⟩
  | server action next hallowed hstep => exact .inr ⟨action, hstep⟩

/-- The server of a reachable system is a reachable server. -/
theorem Reachable.server {quotes : Quotes} (h : Reachable quotes s) :
    Server.Reachable quotes s.server := by
  refine Transition.Reaches.invariant (fun state : System => Server.Reachable quotes state.server) h
    .refl ?_
  intro state next action hserver _ hstep
  rcases server_step (step_move hstep) with hsame | ⟨action, hserverStep⟩
  · rw [hsame]
    exact hserver
  · exact .tail hserver trivial hserverStep

end System

end QuoteStreamer
