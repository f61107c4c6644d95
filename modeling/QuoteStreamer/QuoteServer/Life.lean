import QuoteStreamer.QuoteServer.LockOwnership

/-!
# The life of the background threads

What `start`, `shutdown` and the loops of the background threads do to each other, and nothing
else: `Life` is the part of the server's state that they share, with a whole tick as one phase,
and `LifeMove` lists its transitions. `life_move` says that a step of the server is one of these
or leaves this part alone, so that what holds of the handle slot, the flag and the loops is proved
here, without the registry and the clients.
-/

namespace QuoteStreamer

/-- Where a caller stands in `start` or `shutdown`; `away` is anywhere else. -/
inductive LifeCall where
  | away
  | startLock
  | startCheck
  | startStore (number : Nat)
  /-- `start` has returned. -/
  | started
  | shutdownFlag
  | shutdownLock
  | shutdownTake
  | shutdownJoin (number : Nat)
  /-- `shutdown` has returned. -/
  | stopped
  deriving DecidableEq, Repr

/-- Where a background thread stands. -/
inductive Phase where
  /-- At the loop condition. -/
  | check
  /-- Inside a tick: between the loop condition and the end of `notify_clients`. -/
  | tick
  | ended
  deriving DecidableEq, Repr

/-- The handle slot with its mutex, the flag, the callers and the loops. -/
structure Life where
  slot : Option Nat
  lock : Option Caller
  flag : Bool
  calls : Caller → LifeCall
  phases : Nat → Phase
  spawned : Nat

/-- The part of a call that the background threads see. -/
def Call.life : Call → LifeCall
  | .startLock => .startLock
  | .startCheck => .startCheck
  | .startStore number => .startStore number
  | .shutdownFlag => .shutdownFlag
  | .shutdownLock => .shutdownLock
  | .shutdownTake => .shutdownTake
  | .shutdownJoin number => .shutdownJoin number
  | .returned .started => .started
  | .returned .stopped => .stopped
  | _ => .away

/-- The phase of a program point. -/
def Background.phase : Background → Phase
  | .check => .check
  | .exited => .ended
  | _ => .tick

namespace LifeCall

/-- The caller holds the mutex of the slot. -/
def holds : LifeCall → Bool
  | .startCheck | .startStore _ | .shutdownTake => true
  | _ => false

/-- The caller has set the flag. -/
def stopping : LifeCall → Bool
  | .shutdownLock | .shutdownTake | .shutdownJoin _ | .stopped => true
  | _ => false

end LifeCall

namespace Life

/-- Move a caller. -/
def setCall (l : Life) (k : Caller) (call : LifeCall) : Life :=
  { l with calls := Function.update l.calls k call }

/-- Move a background thread. -/
def setPhase (l : Life) (b : Nat) (phase : Phase) : Life :=
  { l with phases := Function.update l.phases b phase }

end Life

/-- The life of the background threads of a server. -/
def Server.life (s : Server) : Life where
  slot := s.bgThread
  lock := s.bgLock
  flag := s.shutdownFlag
  calls k := (s.callers k).life
  phases b := (s.background b).phase
  spawned := s.bgSpawned

/-- The transitions of this part of the state. -/
inductive LifeMove (l : Life) : Action → Life → Prop where
  | start (k : Caller) (hat : l.calls k = .away) :
      LifeMove l (.call k .start) (l.setCall k .startLock)
  | shutdown (k : Caller) (hat : l.calls k = .away) :
      LifeMove l (.call k .shutdown) (l.setCall k .shutdownFlag)
  | take (k : Caller) (hat : l.calls k = .started ∨ l.calls k = .stopped) :
      LifeMove l (.take k) (l.setCall k .away)
  | startLock (k : Caller) (hat : l.calls k = .startLock) (hfree : l.lock = none) :
      LifeMove l (.caller k) ({ l with lock := some k }.setCall k .startCheck)
  | startRunning (k : Caller) (hat : l.calls k = .startCheck) (hsome : l.slot.isSome = true) :
      LifeMove l (.caller k) ({ l with lock := none }.setCall k .started)
  | startSpawn (k : Caller) (hat : l.calls k = .startCheck) (hnone : l.slot = none) :
      LifeMove l (.caller k)
        ({ l.setPhase l.spawned .check with spawned := l.spawned + 1 }.setCall k
          (.startStore l.spawned))
  | startStore (k : Caller) (number : Nat) (hat : l.calls k = .startStore number) :
      LifeMove l (.caller k) ({ l with slot := some number, lock := none }.setCall k .started)
  | shutdownFlag (k : Caller) (hat : l.calls k = .shutdownFlag) :
      LifeMove l (.caller k) ({ l with flag := true }.setCall k .shutdownLock)
  | shutdownLock (k : Caller) (hat : l.calls k = .shutdownLock) (hfree : l.lock = none) :
      LifeMove l (.caller k) ({ l with lock := some k }.setCall k .shutdownTake)
  | shutdownTake (k : Caller) (number : Nat) (hat : l.calls k = .shutdownTake)
      (hsome : l.slot = some number) :
      LifeMove l (.caller k)
        ({ l with slot := none, lock := none }.setCall k (.shutdownJoin number))
  | shutdownNone (k : Caller) (hat : l.calls k = .shutdownTake) (hnone : l.slot = none) :
      LifeMove l (.caller k) ({ l with slot := none, lock := none }.setCall k .stopped)
  | shutdownJoin (k : Caller) (number : Nat) (hat : l.calls k = .shutdownJoin number)
      (hended : l.phases number = .ended) : LifeMove l (.caller k) (l.setCall k .stopped)
  | check (b : Nat) (hat : l.phases b = .check) :
      LifeMove l (.background b .proceed) (l.setPhase b (if l.flag then .ended else .tick))
  | finish (b : Nat) (hat : l.phases b = .tick) :
      LifeMove l (.background b .proceed) (l.setPhase b .check)
  | panic (b : Nat) (hat : l.phases b = .tick) :
      LifeMove l (.background b .panic) (l.setPhase b .ended)

namespace Server

variable {s t : Server} {action : Action} {k : Caller} {call : Call} {b : Nat} {point : Background}

theorem life_set_call : (s.setCall k call).life = s.life.setCall k call.life := by
  unfold life setCall Life.setCall
  congr 1
  funext j
  by_cases hj : j = k
  · subst hj
    simp
  · simp [hj]

theorem life_set_background : (s.setBackground b point).life = s.life.setPhase b point.phase := by
  unfold life setBackground Life.setPhase
  congr 1
  funext c
  by_cases hc : c = b
  · subst hc
    simp
  · simp [hc]

/-- A caller moves outside `start` and `shutdown`. -/
theorem life_call_away (hat : (s.callers k).life = .away) (hcall : call.life = .away) :
    (s.setCall k call).life = s.life := by
  rw [life_set_call, hcall, ← hat, Life.setCall]
  exact congrArg (fun calls => { s.life with calls := calls }) (Function.update_eq_self k _)

/-- A background thread moves inside its tick. -/
theorem life_same_phase (hphase : point.phase = (s.background b).phase) :
    (s.setBackground b point).life = s.life := by
  rw [life_set_background, hphase, Life.setPhase]
  exact congrArg (fun phases => { s.life with phases := phases }) (Function.update_eq_self b _)

/-- What is returned from under the clients mutex is not the answer of `start` or `shutdown`. -/
def Answers (call : Call) : Prop :=
  match call with
  | .dropSend _ reply | .dropJoin _ reply | .unlock reply => (Call.returned reply).life = .away
  | _ => True

theorem answers_set_call (h : ∀ k, Answers (s.callers k))
    (hcallers : t.callers = Function.update s.callers k call) (hcall : Answers call) (j : Caller) :
    Answers (t.callers j) := by
  rw [hcallers]
  exact (Function.forall_update_iff s.callers fun _ => Answers).mpr ⟨hcall, fun i _ => h i⟩ j

theorem answers_step (h : ∀ k, Answers (s.callers k)) (hmove : Move s action t) :
    ∀ k, Answers (t.callers k) := by
  cases hmove with
  | call k request hat => exact answers_set_call h rfl (by cases request <;> trivial)
  | dropSend k client reply hat | dropJoin k client reply hat =>
      have hreply := h k
      rw [hat] at hreply
      exact answers_set_call h rfl hreply
  | addInsert k _ hat | addReplace k _ _ hat | removeNone k _ hat | removeSendFails k _ _ _ hat
  | removeJoin k _ _ hat => exact answers_set_call h rfl rfl
  | take k | unlock k | addLock k | addStart k | removeLock k | removeTake k | removeSend k
  | startLock k | startRunning k | startSpawn k | startStore k | shutdownFlag k | shutdownLock k
  | shutdownTake k | shutdownNone k | shutdownJoin k => exact answers_set_call h rfl trivial
  | _ => exact h

theorem Reachable.answers {quotes : Quotes} (h : Reachable quotes s) : ∀ k, Answers (s.callers k) :=
  Transition.Reaches.invariant (fun s : Server => ∀ k, Answers (s.callers k)) h (fun _ => trivial)
    fun hinv _ hstep => answers_step hinv (step_move hstep)

/-- Every step of the server is a transition of its life or leaves it alone. -/
theorem life_move (hanswers : ∀ k, Answers (s.callers k)) (hmove : Move s action t) :
    t.life = s.life ∨ LifeMove s.life action t.life := by
  have hcalls : ∀ {k : Caller} {call : Call}, s.callers k = call → s.life.calls k = call.life :=
    fun hat => congrArg Call.life hat
  have hphases : ∀ {b : Nat} {point : Background}, s.background b = point →
      s.life.phases b = point.phase := fun hat => congrArg Background.phase hat
  cases hmove with
  | call k request hat =>
      have haway := hcalls hat
      rw [life_set_call]
      cases request with
      | start => exact .inr (.start k haway)
      | shutdown => exact .inr (.shutdown k haway)
      | addClient _ _ | removeClient _ =>
          rw [← life_set_call]
          exact .inl (life_call_away haway rfl)
  | take k reply hat =>
      have hreturned := hcalls hat
      cases reply with
      | started =>
          rw [life_set_call]
          exact .inr (.take k (.inl hreturned))
      | stopped =>
          rw [life_set_call]
          exact .inr (.take k (.inr hreturned))
      | added _ | removed _ _ _ => exact .inl (life_call_away hreturned rfl)
  | addLock k _ _ hat | addStart k _ _ hat | addInsert k _ hat | addReplace k _ _ hat
  | removeLock k _ hat | removeTake k _ _ hat | removeNone k _ hat | removeSend k _ _ _ hat
  | removeSendFails k _ _ _ hat | removeJoin k _ _ hat | dropSend k _ _ hat | dropJoin k _ _ hat =>
      exact .inl (life_call_away (hcalls hat) rfl)
  | unlock k reply hat =>
      -- only the two methods on the registry unlock the clients mutex
      have hreply := hanswers k
      rw [hat] at hreply
      exact .inl (life_call_away (hcalls hat) hreply)
  | startLock k hat hfree =>
      rw [life_set_call]
      exact .inr (.startLock k (hcalls hat) hfree)
  | startRunning k hat hrunning =>
      rw [life_set_call]
      exact .inr (.startRunning k (hcalls hat) hrunning)
  | startSpawn k hat hnone =>
      rw [life_set_call]
      have hspawn : { s with
          background := Function.update s.background s.bgSpawned .check
          bgSpawned := s.bgSpawned + 1 }.life =
          { s.life.setPhase s.bgSpawned .check with spawned := s.bgSpawned + 1 } :=
        congrArg (fun l : Life => { l with spawned := s.bgSpawned + 1 }) life_set_background
      rw [hspawn]
      exact .inr (.startSpawn k (hcalls hat) hnone)
  | startStore k number hat =>
      rw [life_set_call]
      exact .inr (.startStore k number (hcalls hat))
  | shutdownFlag k hat =>
      rw [life_set_call]
      exact .inr (.shutdownFlag k (hcalls hat))
  | shutdownLock k hat hfree =>
      rw [life_set_call]
      exact .inr (.shutdownLock k (hcalls hat) hfree)
  | shutdownTake k number hat hsome =>
      rw [life_set_call]
      exact .inr (.shutdownTake k number (hcalls hat) hsome)
  | shutdownNone k hat hnone =>
      rw [life_set_call]
      exact .inr (.shutdownNone k (hcalls hat) hnone)
  | shutdownJoin k number hat hjoin =>
      rw [life_set_call]
      exact .inr (.shutdownJoin k number (hcalls hat) (hphases hjoin))
  | recv | skipRound | beginRound | processTicker | endRound | dropReceiver | terminate =>
      exact .inl rfl
  | check b hat =>
      have hphase : Background.phase (if s.shutdownFlag then .exited else .sleep) =
          if s.life.flag then .ended else .tick := by
        rw [apply_ite Background.phase]
        rfl
      rw [life_set_background, hphase]
      exact .inr (.check b (hphases hat))
  | sleep b hat | tryWrite b hat | timeout b hat | visit b _ _ _ _ _ _ _ hat
  | finishUpdate b _ _ hat | notifyLock b _ hat | notify b _ _ _ hat =>
      exact .inl (life_same_phase (hphases hat).symm)
  | panic b todo failed hat =>
      rw [life_set_background]
      exact .inr (.panic b (hphases hat))
  | notified b hat =>
      rw [life_set_background]
      exact .inr (.finish b (hphases hat))

end Server

end QuoteStreamer
