import QuoteStreamer.TcpServer.Isolation

/-!
# What a connection does outside while it serves one line

The effects of a connection are the replies it writes and the changes that its calls make to the
registry. `Stage` says at which points of the source the handler can stand between two `read_line`
calls and which effects it has had on the way there, in any interleaving with other threads, as
long as its own operations succeed.
-/

namespace QuoteStreamer

/-- What a connection does outside its handler. -/
inductive Effect where
  /-- A reply has been written. -/
  | wrote (reply : Str)
  /-- A client has been inserted into the registry. -/
  | inserted (id : UInt64) (client : Client)
  /-- An entry of the registry has been removed. -/
  | erased (id : UInt64)
  deriving DecidableEq

/-- The registry after an effect. -/
def Effect.apply (clients : Registry) : Effect → Registry
  | .wrote _ => clients
  | .inserted id client => clients.insert id client
  | .erased id => clients.erase id

/-- The replies among the effects. -/
def Effect.replies (effects : List Effect) : List Str :=
  effects.filterMap fun
    | .wrote reply => some reply
    | _ => none

namespace Call

/-- The caller is in front of, or inside, `add_client` with these arguments and has not inserted
anything yet. -/
def Asks (tickers : List Str) (callback : Callback) : Call → Prop
  | .idle => True
  | .addLock tickers' callback' | .addStart tickers' callback' =>
      tickers' = tickers ∧ callback' = callback
  | .addInsert client => client.tickers = tickers ∧ client.callback = callback
  | _ => False

/-- The caller is in front of, or inside, `remove_client` of this id and has not looked it up
yet. -/
def Seeks (id : UInt64) : Call → Prop
  | .idle => True
  | .removeLock id' | .removeTake id' => id' = id
  | _ => False

/-- The caller has looked up the id that it removes. -/
def Sought (id : UInt64) (call : Call) : Prop :=
  call.removing = some id ∧ call.tookOut = true

end Call

namespace Server

/-- What the next step of a caller does to the registry. -/
def effects (s : Server) (k : Caller) : List Effect :=
  match s.callers k with
  | .addInsert client => [.inserted s.clientsCount client]
  | .removeTake id => if (s.clients.lookup id).isSome then [.erased id] else []
  | _ => []

variable {s t : Server} {k : Caller} {id : UInt64} {tickers : List Str} {callback : Callback}

/-- The effects of a caller's step are what it does to the registry. -/
theorem effects_sound (hmove : Move s (.caller k) t) :
    t.clients = (s.effects k).foldl Effect.apply s.clients := by
  unfold effects
  cases hmove with
  | removeTake _ id client hat hfound =>
      rw [hat]
      simp [hfound, Effect.apply, setCall]
  | removeNone _ id hat hnone =>
      rw [hat]
      simp [hnone, setCall]
  | dropSend _ _ _ hat | dropJoin _ _ _ hat | unlock _ _ hat | addLock _ _ _ hat
  | addStart _ _ _ hat | addInsert _ _ hat | addReplace _ _ _ hat | removeLock _ _ hat
  | removeSend _ _ _ _ hat | removeSendFails _ _ _ _ hat | removeJoin _ _ _ hat
  | startLock _ hat | startRunning _ hat | startSpawn _ hat | startStore _ _ hat
  | shutdownFlag _ hat | shutdownLock _ hat | shutdownTake _ _ hat | shutdownNone _ hat
  | shutdownJoin _ _ hat =>
      rw [hat]
      rfl

/-- `add_client` inserts a client with its arguments, once. -/
theorem asks_step (hmove : Move s (.caller k) t) (hasks : (s.callers k).Asks tickers callback) :
    ((t.callers k).Asks tickers callback ∧ s.effects k = []) ∨
      ∃ id client, client.tickers = tickers ∧ client.callback = callback ∧
        (t.callers k).adds = some id ∧ s.effects k = [.inserted id client] := by
  unfold effects
  cases hmove with
  | addLock _ _ _ hat =>
      rw [hat] at hasks ⊢
      exact .inl ⟨by simpa [setCall, Call.Asks] using hasks, rfl⟩
  | addStart _ _ _ hat =>
      rw [hat] at hasks ⊢
      exact .inl ⟨by simpa [setCall, Call.Asks, Client.new, Client.start] using hasks, rfl⟩
  | addInsert _ client hat | addReplace _ client _ hat =>
      rw [hat] at hasks ⊢
      exact .inr ⟨_, client, hasks.1, hasks.2, by simp [setCall, Call.adds], rfl⟩
  | dropSend _ _ _ hat | dropJoin _ _ _ hat | unlock _ _ hat | removeLock _ _ hat
  | removeTake _ _ _ hat | removeNone _ _ hat | removeSend _ _ _ _ hat
  | removeSendFails _ _ _ _ hat | removeJoin _ _ _ hat | startLock _ hat | startRunning _ hat
  | startSpawn _ hat | startStore _ _ hat | shutdownFlag _ hat | shutdownLock _ hat
  | shutdownTake _ _ hat | shutdownNone _ hat | shutdownJoin _ _ hat =>
      rw [hat] at hasks
      cases hasks

/-- After the insertion the rest of `add_client` leaves the registry alone. -/
theorem added_step (hmove : Move s (.caller k) t) (hadds : (s.callers k).adds = some id) :
    (t.callers k).adds = some id ∧ s.effects k = [] := by
  unfold effects
  cases hmove with
  | dropSend _ _ reply hat | dropJoin _ _ reply hat | unlock _ reply hat =>
      rw [hat] at hadds ⊢
      refine ⟨?_, rfl⟩
      rw [set_call_self]
      cases reply <;> exact hadds
  | addLock _ _ _ hat | addStart _ _ _ hat | addInsert _ _ hat | addReplace _ _ _ hat
  | removeLock _ _ hat | removeTake _ _ _ hat | removeNone _ _ hat | removeSend _ _ _ _ hat
  | removeSendFails _ _ _ _ hat | removeJoin _ _ _ hat | startLock _ hat | startRunning _ hat
  | startSpawn _ hat | startStore _ _ hat | shutdownFlag _ hat | shutdownLock _ hat
  | shutdownTake _ _ hat | shutdownNone _ hat | shutdownJoin _ _ hat =>
      rw [hat] at hadds
      cases hadds

/-- `remove_client` removes its id at most, and once. -/
theorem seeks_step (hmove : Move s (.caller k) t) (hseeks : (s.callers k).Seeks id) :
    ((t.callers k).Seeks id ∧ s.effects k = []) ∨
      ((t.callers k).Sought id ∧ (s.effects k = [] ∨ s.effects k = [.erased id])) := by
  unfold effects
  cases hmove with
  | removeLock _ _ hat =>
      rw [hat] at hseeks ⊢
      exact .inl ⟨by simpa [setCall, Call.Seeks] using hseeks, rfl⟩
  | removeTake _ id' client hat hfound =>
      rw [hat] at hseeks ⊢
      obtain rfl : id' = id := hseeks
      exact .inr ⟨by simp [setCall, Call.Sought, Call.removing, Call.tookOut],
        .inr (by simp [hfound])⟩
  | removeNone _ id' hat hnone =>
      rw [hat] at hseeks ⊢
      obtain rfl : id' = id := hseeks
      exact .inr ⟨by simp [setCall, Call.Sought, Call.removing, Call.tookOut],
        .inl (by simp [hnone])⟩
  | dropSend _ _ _ hat | dropJoin _ _ _ hat | unlock _ _ hat | addLock _ _ _ hat
  | addStart _ _ _ hat | addInsert _ _ hat | addReplace _ _ _ hat | removeSend _ _ _ _ hat
  | removeSendFails _ _ _ _ hat | removeJoin _ _ _ hat | startLock _ hat | startRunning _ hat
  | startSpawn _ hat | startStore _ _ hat | shutdownFlag _ hat | shutdownLock _ hat
  | shutdownTake _ _ hat | shutdownNone _ hat | shutdownJoin _ _ hat =>
      rw [hat] at hseeks
      cases hseeks

/-- A caller outside its calls does not go on. -/
theorem not_idle_of_move (hmove : Move s (.caller k) t) : s.callers k ≠ .idle := by
  intro hidle
  cases hmove <;> rename_i hat <;> rw [hat] at hidle <;> cases hidle

/-- After the look-up the rest of `remove_client` leaves the registry alone. -/
theorem sought_step (hmove : Move s (.caller k) t) (hsought : (s.callers k).Sought id) :
    (t.callers k).Sought id ∧ s.effects k = [] := by
  obtain ⟨-, hremoving, htook, -⟩ := same_call_step hmove
  refine ⟨⟨hremoving.trans hsought.1, htook hsought.2⟩, ?_⟩
  unfold effects
  split <;> rename_i hat
  · rw [hat] at hsought
    cases hsought.1
  · rw [hat] at hsought
    cases hsought.2
  · rfl

end Server

namespace Handler

/-- Where the dispatch on a line leaves the handler. -/
def Dispatched (h : Handler) : Prop :=
  match h.point with
  | .write _ | .bind .. | .removeClient _ .stop | .returned _ => True
  | _ => False

variable {h next : Handler}

/-- An operation other than `read_line` and the method calls has succeeded. -/
theorem step_succeeds {input : HandlerInput} (hstep : h.step input = some next)
    (hexternal : input.isAnswer = false) (hread : ∀ result now, input ≠ .read result now)
    (hwrote : ∀ text, input ≠ .wrote (.error text))
      (hbound : ∀ text, input ≠ .bound (.error text)) :
    (∃ text, h.point = .write text ∧ input = .wrote (.ok ()) ∧ next = h.goto .readLine) ∨
      (∃ addr tickers, h.point = .bind addr tickers ∧ input = .bound (.ok ()) ∧
        next = h.goto (.addClient addr tickers)) ∨
      h.point = .tryClone ∨ h.point = .setReadTimeout ∨ h.point = .sleep := by
  unfold step at hstep
  split at hstep <;> cases hstep
  case h_6 text hat => exact .inl ⟨text, hat, rfl, rfl⟩
  case h_8 addr tickers hat => exact .inr (.inl ⟨addr, tickers, hat, rfl, rfl⟩)
  case h_5 => exact absurd rfl (hread _ _)
  case h_7 => exact absurd rfl (hwrote _)
  case h_9 => exact absurd rfl (hbound _)
  case h_10 | h_11 | h_12 => cases hexternal
  case h_1 hat | h_2 hat => exact .inr (.inr (.inl hat))
  case h_3 hat | h_4 hat => exact .inr (.inr (.inr (.inl hat)))
  case h_13 hat => exact .inr (.inr (.inr (.inr hat)))

end Handler

/-- Where a handler stands while it serves one line, whose dispatch has left it at `start`, with the
point of its call and the effects it has had. -/
inductive Stage (start : Handler) : Handler → Call → List Effect → Prop where
  | opened (hstart : start.Dispatched) : Stage start start .idle []
  | replied (text : Str) (hstart : start.point = .write text) :
      Stage start (start.goto .readLine) .idle [.wrote text]
  | adding (addr : SocketAddr) (tickers : List Str) (call : Call)
      (hstart : start.point = .bind addr tickers) (hasks : call.Asks tickers (.udp addr)) :
      Stage start (start.goto (.addClient addr tickers)) call []
  | inserted (addr : SocketAddr) (id : UInt64) (client : Client) (call : Call)
      (hstart : start.point = .bind addr client.tickers) (hcallback : client.callback = .udp addr)
      (hadds : call.adds = some id) :
      Stage start (start.goto (.addClient addr client.tickers)) call [.inserted id client]
  | added (addr : SocketAddr) (id : UInt64) (client : Client)
      (hstart : start.point = .bind addr client.tickers) (hcallback : client.callback = .udp addr) :
      Stage start { start with clientId := some id, point := .write "STREAM OK\n".toList } .idle
        [.inserted id client]
  | streaming (addr : SocketAddr) (id : UInt64) (client : Client)
      (hstart : start.point = .bind addr client.tickers) (hcallback : client.callback = .udp addr) :
      Stage start { start with clientId := some id, point := .readLine } .idle
        [.inserted id client, .wrote "STREAM OK\n".toList]
  | seeking (id : UInt64) (call : Call) (hstart : start.point = .removeClient id .stop)
      (hseeks : call.Seeks id) : Stage start start call []
  | sought (id : UInt64) (call : Call) (hstart : start.point = .removeClient id .stop)
      (hsought : call.Sought id) (erased : List Effect)
      (herased : erased = [] ∨ erased = [.erased id]) : Stage start start call erased
  | removed (id : UInt64) (hstart : start.point = .removeClient id .stop) (erased : List Effect)
      (herased : erased = [] ∨ erased = [.erased id]) :
      Stage start (start.goto (.write "STOP OK\n".toList)) .idle erased
  | stopped (id : UInt64) (hstart : start.point = .removeClient id .stop) (erased : List Effect)
      (herased : erased = [] ∨ erased = [.erased id]) :
      Stage start (start.goto .readLine) .idle (erased ++ [.wrote "STOP OK\n".toList])

namespace Stage

variable {start h next : Handler} {call : Call} {effects : List Effect}

/-- At an operation of its own the handler is outside its calls. -/
theorem write (hstage : Stage start h call effects) {text : Str} (hpoint : h.point = .write text) :
    Stage start (h.goto .readLine) call (effects ++ [.wrote text]) := by
  cases hstage with
  | opened _ => exact .replied text hpoint
  | added addr id client hstart hcallback =>
      cases hpoint
      exact .streaming addr id client hstart hcallback
  | removed id hstart erased herased =>
      cases hpoint
      exact .stopped id hstart _ herased
  | seeking id call hstart | sought id call hstart =>
      rw [hstart] at hpoint
      cases hpoint
  | _ => cases hpoint

theorem bind (hstage : Stage start h call effects) {addr : SocketAddr} {tickers : List Str}
    (hpoint : h.point = .bind addr tickers) :
    Stage start (h.goto (.addClient addr tickers)) call effects := by
  cases hstage with
  | opened _ => exact .adding addr tickers .idle hpoint trivial
  | seeking id call hstart | sought id call hstart =>
      rw [hstart] at hpoint
      cases hpoint
  | _ => cases hpoint

/-- While it serves a line the handler does not get ready or sleep. -/
theorem not_waiting (hstage : Stage start h call effects) :
    h.point ≠ .tryClone ∧ h.point ≠ .setReadTimeout ∧ h.point ≠ .sleep := by
  cases hstage with
  | opened hstart =>
      unfold Handler.Dispatched at hstart
      refine ⟨fun hpoint => ?_, fun hpoint => ?_, fun hpoint => ?_⟩ <;> simp [hpoint] at hstart
  | seeking id call hstart | sought id call hstart =>
      rw [hstart]
      simp
  | _ => simp [Handler.goto]

/-- The handler enters the method at which it stands. -/
theorem request (hstage : Stage start h .idle effects) {request : Request}
    (hrequest : h.request = some request) : Stage start h request.entry effects := by
  unfold Handler.request at hrequest
  cases hstage with
  | opened hstart =>
      unfold Handler.Dispatched at hstart
      split at hrequest <;> rename_i hpoint <;> cases hrequest
      · simp [hpoint] at hstart
      · rename_i id cause
        cases cause with
        | stop => exact .seeking id _ hpoint rfl
        | _ => simp [hpoint] at hstart
  | adding addr tickers _ hstart _ =>
      cases hrequest
      exact .adding addr tickers _ hstart ⟨rfl, rfl⟩
  | inserted _ _ _ _ _ _ hadds => cases hadds
  | seeking id _ hstart _ =>
      rw [hstart] at hrequest
      cases hrequest
      exact .seeking id _ hstart rfl
  | sought _ _ _ hsought => cases hsought.1
  | _ => cases hrequest

/-- `add_client` has answered. -/
theorem answer_added {id : UInt64}
    (hstage : Stage start h (.returned (.added id)) effects) :
    Stage start { h with clientId := some id, point := .write "STREAM OK\n".toList } .idle
      effects := by
  cases hstage with
  | adding _ _ _ _ hasks => cases hasks
  | inserted addr id' client _ hstart hcallback hadds =>
      cases hadds
      exact .added addr id client hstart hcallback
  | seeking _ _ _ hseeks => cases hseeks
  | sought _ _ _ hsought => cases hsought.1

/-- `remove_client` has answered without an error. -/
theorem answer_removed {id id' : UInt64} {cause : RemoveCause} {recorded : Option Nat}
    {result : Except QuoteServerError Unit}
    (hstage : Stage start h (.returned (.removed id recorded result)) effects)
    (hpoint : h.point = .removeClient id' cause) :
    Stage start (h.removed cause (.ok ())) .idle effects := by
  cases hstage with
  | adding _ _ _ _ hasks => cases hasks
  | inserted _ _ _ _ _ _ hadds => cases hadds
  | seeking _ _ _ hseeks => cases hseeks
  | sought id _ hstart _ _ herased =>
      rw [hstart] at hpoint
      cases hpoint
      exact .removed id' hstart _ herased

/-- The handler's call goes on. -/
theorem caller_step {s t : Server} {k : Caller} (hmove : Server.Move s (.caller k) t)
    (hstage : Stage start h (s.callers k) effects) :
    Stage start h (t.callers k) (effects ++ s.effects k) := by
  have hidle := Server.not_idle_of_move hmove
  generalize hcall : s.callers k = call at hstage
  cases hstage with
  | adding addr tickers _ hstart hasks =>
      rw [← hcall] at hasks
      rcases Server.asks_step hmove hasks with
        ⟨hstill, heffects⟩ | ⟨id, client, rfl, hcallback, hadds, heffects⟩
      · rw [heffects]
        exact .adding addr tickers _ hstart hstill
      · rw [heffects]
        exact .inserted addr id client _ hstart hcallback hadds
  | inserted addr id client _ hstart hcallback hadds =>
      rw [← hcall] at hadds
      obtain ⟨hstill, heffects⟩ := Server.added_step hmove hadds
      rw [heffects]
      exact .inserted addr id client _ hstart hcallback hstill
  | seeking id _ hstart hseeks =>
      rw [← hcall] at hseeks
      rcases Server.seeks_step hmove hseeks with ⟨hstill, heffects⟩ | ⟨hsought, heffects⟩
      · rw [heffects]
        exact .seeking id _ hstart hstill
      · exact .sought id _ hstart hsought _ heffects
  | sought id _ hstart hsought erased herased =>
      rw [← hcall] at hsought
      obtain ⟨hstill, heffects⟩ := Server.sought_step hmove hsought
      rw [heffects, List.append_nil]
      exact .sought id _ hstart hstill _ herased
  | _ => exact absurd hcall hidle

end Stage

namespace System

/-- What a step does outside for connection `j`: a reply that its handler has written, and what its
call does to the registry. -/
def effects (j : Nat) (s : System) : SystemAction → List Effect
  | .input i (.wrote (.ok ())) =>
      if i = j then
        match s.handlers i with
        | some ⟨.write reply, _, _⟩ => [.wrote reply]
        | _ => []
      else []
  | .server (.caller (.connection i)) =>
      if i = j then s.server.effects (.connection i) else []
  | _ => []

/-- The operations of connection `j` succeed, and it does not read another line. -/
def Succeeds (j : Nat) (s : System) : SystemAction → Prop
  | .input i (.read ..) | .input i (.wrote (.error _)) | .input i (.bound (.error _)) => i ≠ j
  | .answer i => i = j → ∀ id recorded e, s.answerOf j ≠ some (.removed id recorded (.error e))
  | _ => True

variable {s t : System} {action : SystemAction} {j : Nat}

/-- The effects of a connection's steps are all that they do to the registry. -/
theorem effects_sound (hby : action.By j) (hmove : Move s action t) :
    t.server.clients = (effects j s action).foldl Effect.apply s.server.clients := by
  cases hmove with
  | accept | request | answerAdded | answerRemoved => rfl
  | input i input h next hh hexternal hstep =>
      unfold effects
      split
      · split
        · split <;> rfl
        · rfl
      · rename_i heq
        cases heq
      · rfl
  | server action next hallowed hstep =>
      cases action with
      | caller k =>
          cases k with
          | connection i =>
              have heffects : effects j s (.server (.caller (.connection i))) =
                  s.server.effects (.connection i) := if_pos hby
              rw [heffects]
              exact Server.effects_sound (Server.step_move hstep)
          | other n => cases hby
      | _ => cases hby

/-- The steps of others do not concern the connection. -/
theorem untouched_step (hby : ¬ action.By j) (hmove : Move s action t) :
    t.handlers j = s.handlers j ∧
      t.server.callers (.connection j) = s.server.callers (.connection j) ∧
      effects j s action = [] := by
  have hhandler : ∀ {i : Nat} (next : Handler), i ≠ j →
      Function.update s.handlers i (some next) j = s.handlers j := by
    intro i next hi
    exact Function.update_of_ne (Ne.symm hi) _ _
  have hcall : ∀ {i : Nat} (call : Call), i ≠ j →
      (s.server.setCall (.connection i) call).callers (.connection j) =
        s.server.callers (.connection j) := by
    intro i call hi
    exact Function.update_of_ne (by simpa using Ne.symm hi) _ _
  cases hmove with
  | accept i now hnew => exact ⟨hhandler _ hby, rfl, rfl⟩
  | input i input h next hh hexternal hstep =>
      refine ⟨hhandler _ hby, rfl, ?_⟩
      unfold effects
      split
      · rename_i heq
        cases heq
        exact if_neg hby
      · rename_i heq
        cases heq
      · rfl
  | request i h request hh hrequest hidle => exact ⟨rfl, hcall _ hby, rfl⟩
  | answerAdded i h next id hh hreply hstep => exact ⟨hhandler _ hby, hcall _ hby, rfl⟩
  | answerRemoved i h next id recorded result hh hreply hstep =>
      exact ⟨hhandler _ hby, hcall _ hby, rfl⟩
  | server action next hallowed hstep =>
      refine ⟨rfl, ?_, ?_⟩
      · rcases Server.callers_step (k := .connection j) (Server.step_move hstep) with
          hsame | rfl | ⟨_, rfl⟩ | rfl
        · exact hsame
        · exact absurd rfl hby
        · cases hallowed
        · cases hallowed
      · unfold effects
        split
        · rename_i heq
          cases heq
        · rename_i i heq
          cases heq
          exact if_neg hby
        · rfl

/-- While a line is served, every step of the system leads from stage to stage. -/
theorem stage_step (hs : s.Holding) {start h : Handler} {trace : List Effect}
    (hh : s.handlers j = some h)
    (hstage : Stage start h (s.server.callers (.connection j)) trace) (hok : Succeeds j s action)
    (hmove : Move s action t) :
    ∃ h, t.handlers j = some h ∧
      Stage start h (t.server.callers (.connection j)) (trace ++ effects j s action) := by
  by_cases hby : action.By j
  · cases hmove with
    | accept i now hnew =>
        obtain rfl : i = j := hby
        rw [hnew] at hh
        cases hh
    | input i input h' next hh' hexternal hstep =>
        obtain rfl : i = j := hby
        obtain rfl := Option.some.inj (hh.symm.trans hh')
        refine ⟨next, Function.update_self .., ?_⟩
        have hsucceeds := Handler.step_succeeds hstep hexternal
          (fun result now heq => (by subst heq; exact hok rfl))
          (fun text heq => (by subst heq; exact hok rfl))
          (fun text heq => (by subst heq; exact hok rfl))
        rcases hsucceeds with ⟨text, hpoint, rfl, rfl⟩ | ⟨addr, tickers,
          hpoint, rfl, rfl⟩ | hwaiting
        · have heffects : effects i s (.input i (.wrote (.ok ()))) = [.wrote text] := by
            obtain ⟨point, clientId, lastPing⟩ := h
            obtain rfl : point = .write text := hpoint
            simp [effects, hh]
          rw [heffects]
          exact hstage.write hpoint
        · rw [show effects i s (.input i (.bound (.ok ()))) = [] from rfl, List.append_nil]
          exact hstage.bind hpoint
        · -- in the middle of a command the handler waits for nothing but its writes and its calls
          obtain ⟨hclone, htimeout, hsleep⟩ := hstage.not_waiting
          rcases hwaiting with hpoint | hpoint | hpoint
          · exact absurd hpoint hclone
          · exact absurd hpoint htimeout
          · exact absurd hpoint hsleep
    | request i h' request hh' hrequest hidle =>
        obtain rfl : i = j := hby
        obtain rfl := Option.some.inj (hh.symm.trans hh')
        refine ⟨h, hh, ?_⟩
        rw [hidle] at hstage
        rw [show effects i s (.request i) = [] from rfl, List.append_nil]
        show Stage start h ((s.server.setCall (.connection i) request.entry).callers _) trace
        rw [Server.set_call_self]
        exact hstage.request hrequest
    | answerAdded i h' next id hh' hreply hstep =>
        obtain rfl : i = j := hby
        obtain rfl := Option.some.inj (hh.symm.trans hh')
        obtain ⟨-, rfl⟩ := Handler.step_added hstep
        refine ⟨_, Function.update_self .., ?_⟩
        rw [hreply] at hstage
        rw [show effects i s (.answer i) = [] from rfl, List.append_nil]
        show Stage start _ ((s.server.setCall (.connection i) .idle).callers _) trace
        rw [Server.set_call_self]
        exact hstage.answer_added
    | answerRemoved i h' next id recorded result hh' hreply hstep =>
        obtain rfl : i = j := hby
        obtain rfl := Option.some.inj (hh.symm.trans hh')
        obtain ⟨id', cause, hpoint, rfl, -⟩ := Handler.step_removed hstep (hs.released i h hh)
        obtain rfl : result = .ok () := by
          cases result with
          | ok value => rfl
          | error e => exact absurd (by simp [answerOf, hreply]) (hok rfl id recorded e)
        refine ⟨_, Function.update_self .., ?_⟩
        rw [hreply] at hstage
        rw [show effects i s (.answer i) = [] from rfl, List.append_nil]
        show Stage start _ ((s.server.setCall (.connection i) .idle).callers _) trace
        rw [Server.set_call_self]
        exact hstage.answer_removed hpoint
    | server action next hallowed hstep =>
        cases action with
        | caller k =>
            cases k with
            | connection i =>
                obtain rfl : i = j := hby
                refine ⟨h, hh, ?_⟩
                rw [show effects i s (.server (.caller (.connection i))) =
                  s.server.effects (.connection i) from if_pos rfl]
                exact hstage.caller_step (Server.step_move hstep)
            | other n => cases hby
        | _ => cases hby
  · -- a step that is not taken for this connection leaves its handler and its call alone
    obtain ⟨hhandler, hcall, heffects⟩ := untouched_step hby hmove
    refine ⟨h, hhandler.trans hh, ?_⟩
    rw [hcall, heffects, List.append_nil]
    exact hstage

end System

end QuoteStreamer
