import QuoteStreamer.QuoteServer.Config
import QuoteStreamer.QuoteServer.Handles
import QuoteStreamer.QuoteServer.Heartbeat
import QuoteStreamer.TcpServer.System

/-!
# The server process

`main` of the server binary with `TcpServer::new` and the accept loop of `TcpServer::start`. `main`
is the caller `other 0` of the server, every accepted connection gets the next handler, and
`main` calls no method but `start`. `main`, the `TcpServer`, every handler and the background thread
own an `Arc` of the server each, and whoever gives up the last one executes `Drop for QuoteServer`.
When `main` returns, the process ends with all its threads.
-/

namespace QuoteStreamer

/-- Where `main` stands after `QuoteServer::from_config`. -/
inductive MainPoint where
  /-- At `quote_server.start()`. -/
  | start
  /-- Inside `quote_server.start()`. -/
  | starting
  /-- `TcpServer::new`, at `TcpListener::bind(addr)`. -/
  | bind
  /-- `TcpServer::start`, at `self.listener.accept()`. -/
  | accept
  /-- `main` leaves with this error, and its local variables are dropped. -/
  | leaving (error : CliError)
  /-- `main` has returned, and the process is over. -/
  | returned (result : Except CliError Unit)
  deriving DecidableEq

/-- The process: `main`, the server with its connections, the number of connections, and the `Arc`s
with the thread that executes `drop`, as in `Shared`. -/
structure Process where
  main : MainPoint
  system : System
  accepted : Nat
  handles : List Caller
  holding : List Nat
  dropping : Option (ThreadId × DropPoint)

/-- The scheduler's choice of a step. -/
inductive ProcessAction where
  /-- `main` calls `quote_server.start()`. -/
  | enter
  /-- `quote_server.start()` has returned. -/
  | leave
  /-- `TcpListener::bind` answers. -/
  | bound (result : Except Str Unit)
  /-- `self.listener.accept()` answers: a connection, at this time, or an error. -/
  | accepted (result : Except Str Nat)
  /-- A thread gives up an `Arc`, or goes on inside `drop`. -/
  | arc (action : SharedAction)
  /-- `main` has dropped its local variables. -/
  | exit
  /-- Any other step of a thread of the process. -/
  | thread (action : SystemAction)
  deriving DecidableEq

/-- The thread that runs `main`, as a caller of the server. -/
def mainThread : Caller := .other 0

namespace MainPoint

/-- `main` has given up, and leaves. -/
def closing : MainPoint → Bool
  | .leaving _ | .returned _ => true
  | _ => false

/-- `main` has returned. -/
def ended : MainPoint → Bool
  | .returned _ => true
  | _ => false

end MainPoint

/-- The steps that threads make by themselves: the handlers, and whoever is inside a method or a
loop of the server. -/
def SystemAction.ofThread : SystemAction → Bool
  | .accept .. | .server (.call ..) | .server (.take _) => false
  | _ => true

namespace Process

/-- `main` after `from_config`. -/
def init (quotes : Quotes) : Process :=
  ⟨.start, .init quotes, 0, [mainThread], [], none⟩

/-- `main` up to `quote_server.start()`. -/
def launch (draws : Nat → F64 × UInt64) (file : Except Str (List UInt8)) :
    Except CliError Process := do
  let server ← (Server.fromConfig draws file).mapError .ofQuoteServerError
  pure ⟨.start, ⟨server, fun _ => none, fun _ => []⟩, 0, [mainThread], [], none⟩

/-- The server with its `Arc`s. -/
def shared (p : Process) : Shared :=
  ⟨p.system.server, p.handles, p.holding, p.dropping⟩

/-- The process after a step of the server with its `Arc`s. -/
def withShared (p : Process) (s : Shared) : Process :=
  { p with
    system := { p.system with server := s.server }
    handles := s.handles
    holding := s.holding
    dropping := s.dropping }

/-- `main` and the system go on; a background thread that is spawned gets an `Arc`. -/
def goto (p : Process) (main : MainPoint) (system : System) : Process :=
  { p with
    main := main
    system := system
    holding := if system.server.bgSpawned = p.system.server.bgSpawned then p.holding
      else p.system.server.bgSpawned :: p.holding }

/-- `main` turns an error of the TCP server into its own and leaves; `debug` is `Debug` for
`str`. -/
def fail (debug : Str → Str) (p : Process) (error : TcpServerError) : Process :=
  { p with main := .leaving (.generalError (error.toDebug debug)) }

/-- The `Arc`s that can be given up: those of `main` when it leaves, that of a handler when it has
returned, that of a background thread when it has ended. -/
def mayDrop (p : Process) : SharedAction → Bool
  | .drop k =>
      match k with
      | .connection j =>
          match p.system.handlers j with
          | some h => match h.point with
            | .returned _ => true
            | _ => false
          | none => false
      | .other _ => decide (k = mainThread) && p.main.closing
  | .release _ | .dropping => true
  | .server _ | .clone .. => false

/-- `main` is not inside `drop`. -/
def mainOutside (p : Process) : Bool :=
  match p.dropping with
  | some (.caller k, point) => decide (k ≠ mainThread) || decide (point = .done)
  | _ => true

/-- One step under the scheduler's choice. -/
def step (debug : Str → Str) (p : Process) : ProcessAction → Option Process
  | .enter =>
      match p.main with
      | .start => (p.system.step (.server (.call mainThread .start))).map (p.goto .starting)
      | _ => none
  | .leave =>
      match p.main, p.system.server.callers mainThread with
      | .starting, .returned .started =>
          -- `TcpServer::new` gets a clone of the `Arc`
          (p.system.step (.server (.take mainThread))).map fun system =>
            { p.goto .bind system with handles := mainThread :: p.handles }
      | _, _ => none
  | .bound result =>
      match p.main, result with
      | .bind, .ok () => some { p with main := .accept }
      | .bind, .error text => some (fail debug p (.bindError text))
      | _, _ => none
  | .accepted result =>
      match p.main, result with
      | .accept, .ok now =>
          -- the thread of the handler gets a clone of the `Arc`
          (p.system.step (.accept p.accepted now)).map fun system =>
            { p.goto .accept system with
              accepted := p.accepted + 1
              handles := .connection p.accepted :: p.handles }
      | .accept, .error text => some (fail debug p (.acceptError text))
      | _, _ => none
  | .arc action =>
      if p.main.ended = false ∧ p.mayDrop action = true then
        (p.shared.step action).map p.withShared
      else none
  | .exit =>
      match p.main with
      | .leaving error =>
          if mainThread ∉ p.handles ∧ p.mainOutside = true then
            some { p with main := .returned (.error error) }
          else none
      | _ => none
  | .thread action =>
      if p.main.ended = false ∧ action.ofThread = true then
        (p.system.step action).map (p.goto p.main)
      else none

/-- The process reaches this state after `from_config` has loaded these quotes. -/
def Reachable (debug : Str → Str) (quotes : Quotes) (p : Process) : Prop :=
  Transition.Reachable (step debug) (init quotes) p

variable {debug : Str → Str} {p q : Process} {action : ProcessAction} {quotes : Quotes}

/-- What `launch` returns is a process whose server has the tickers of the configuration. -/
theorem launch_ok {draws : Nat → F64 × UInt64} {file : Except Str (List UInt8)}
    (h : launch draws file = .ok p) :
    ∃ s, Server.fromConfig draws file = .ok s ∧ p = init s.quotes := by
  cases hconfig : Server.fromConfig draws file with
  | error e => simp [launch, hconfig, Except.mapError, bind, Except.bind] at h
  | ok s =>
      obtain ⟨-, -, hfresh, -⟩ := from_config_ok hconfig
      simp only [launch, hconfig, Except.mapError, bind, Except.bind, pure, Except.pure,
        Except.ok.injEq] at h
      refine ⟨s, rfl, ?_⟩
      rw [← h, init, System.init, ← hfresh]

/-- The transitions of the process. -/
inductive Move (debug : Str → Str) (p : Process) : ProcessAction → Process → Prop where
  | enter (system : System) (hmain : p.main = .start)
      (hstep : p.system.step (.server (.call mainThread .start)) = some system) :
      Move debug p .enter (p.goto .starting system)
  | leave (system : System) (hmain : p.main = .starting)
      (hcall : p.system.server.callers mainThread = .returned .started)
      (hstep : p.system.step (.server (.take mainThread)) = some system) :
      Move debug p .leave { p.goto .bind system with handles := mainThread :: p.handles }
  | bound (hmain : p.main = .bind) : Move debug p (.bound (.ok ())) { p with main := .accept }
  | bindFails (text : Str) (hmain : p.main = .bind) :
      Move debug p (.bound (.error text)) (fail debug p (.bindError text))
  | accepted (now : Nat) (system : System) (hmain : p.main = .accept)
      (hstep : p.system.step (.accept p.accepted now) = some system) :
      Move debug p (.accepted (.ok now)) { p.goto .accept system with
        accepted := p.accepted + 1
        handles := .connection p.accepted :: p.handles }
  | acceptFails (text : Str) (hmain : p.main = .accept) :
      Move debug p (.accepted (.error text)) (fail debug p (.acceptError text))
  | arc (action : SharedAction) (s : Shared) (hmain : p.main.ended = false)
      (hmay : p.mayDrop action = true) (hstep : p.shared.step action = some s) :
      Move debug p (.arc action) (p.withShared s)
  | exit (error : CliError) (hmain : p.main = .leaving error) (hgone : mainThread ∉ p.handles)
      (houtside : p.mainOutside = true) :
      Move debug p .exit { p with main := .returned (.error error) }
  | thread (action : SystemAction) (system : System) (hmain : p.main.ended = false)
      (hown : action.ofThread = true) (hstep : p.system.step action = some system) :
      Move debug p (.thread action) (p.goto p.main system)

/-- Every step is one of the listed transitions. -/
theorem step_move (h : step debug p action = some q) : Move debug p action q := by
  cases action with
  | enter =>
      simp only [step] at h
      split at h <;> try cases h
      rename_i hmain
      obtain ⟨system, hstep, rfl⟩ := Option.map_eq_some_iff.mp h
      exact .enter system hmain hstep
  | leave =>
      simp only [step] at h
      split at h <;> try cases h
      rename_i hmain hcall
      obtain ⟨system, hstep, rfl⟩ := Option.map_eq_some_iff.mp h
      exact .leave system hmain hcall hstep
  | bound result =>
      simp only [step] at h
      split at h <;> cases h <;> rename_i hmain
      · exact .bound hmain
      · exact .bindFails _ hmain
  | accepted result =>
      simp only [step] at h
      split at h
      · next now hmain =>
          obtain ⟨system, hstep, rfl⟩ := Option.map_eq_some_iff.mp h
          exact .accepted now system hmain hstep
      · next text hmain =>
          cases h
          exact .acceptFails text hmain
      · cases h
  | arc action =>
      simp only [step] at h
      split at h
      · next hrunning =>
          obtain ⟨s, hstep, rfl⟩ := Option.map_eq_some_iff.mp h
          exact .arc action s hrunning.1 hrunning.2 hstep
      · cases h
  | exit =>
      simp only [step] at h
      split at h
      · next error hmain =>
          split at h
          · next hgone =>
              cases h
              exact .exit error hmain hgone.1 hgone.2
          · cases h
      · cases h
  | thread action =>
      simp only [step] at h
      split at h
      · next hrunning =>
          obtain ⟨system, hstep, rfl⟩ := Option.map_eq_some_iff.mp h
          exact .thread action system hrunning.1 hrunning.2 hstep
      · cases h

end Process

end QuoteStreamer
