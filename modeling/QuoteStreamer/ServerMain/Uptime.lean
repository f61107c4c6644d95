import QuoteStreamer.ServerMain.Process

/-!
# The process goes on

`main` starts the one ticker and never stops it: as long as somebody owns an `Arc` of the server the
flag stays down and the handle stays in its slot, and only an update that panics ends the thread.
`main` itself ends with an error of `bind` or of `accept` and in no other way; only then, and only
if an update has panicked and the handlers have returned, the last `Arc` can go while the process
runs. Under a strongly fair scheduler the process sends out quotes until then.
-/

namespace QuoteStreamer

open Fairness (Execution Enabled Projection Moment)

/-- `main` has started the server. -/
def MainPoint.started : MainPoint → Bool
  | .start | .starting => false
  | _ => true

/-- Where `main` stands, its call of `start`, the number of background threads, and the slot of
their handle. -/
inductive BootStage : MainPoint → LifeCall → Nat → Option Nat → Prop where
  | before : BootStage .start .away 0 none
  | locking : BootStage .starting .startLock 0 none
  | checking : BootStage .starting .startCheck 0 none
  | storing : BootStage .starting (.startStore 0) 1 none
  | returning : BootStage .starting .started 1 (some 0)
  | after {main : MainPoint} (hmain : main.started = true) : BootStage main .away 1 (some 0)

namespace BootStage

variable {main : MainPoint} {call : LifeCall} {spawned : Nat} {slot : Option Nat}

theorem of_start (h : BootStage .start call spawned slot) :
    call = .away ∧ spawned = 0 ∧ slot = none := by
  cases h with
  | before => exact ⟨rfl, rfl, rfl⟩
  | after hmain => cases hmain

theorem of_returning (h : BootStage main .started spawned slot) : spawned = 1 ∧ slot = some 0 := by
  cases h
  exact ⟨rfl, rfl⟩

theorem of_started (h : BootStage main call spawned slot) (hmain : main.started = true) :
    call = .away ∧ spawned = 1 ∧ slot = some 0 := by
  cases h with
  | after => exact ⟨rfl, rfl, rfl⟩
  | _ => cases hmain

end BootStage

/-- Nobody but `main` calls `start`, and nobody calls `shutdown`. -/
structure Startup (main : MainPoint) (l : Life) : Prop where
  flag : l.flag = false
  others : ∀ k, k ≠ mainThread → l.calls k = .away
  stage : BootStage main (l.calls mainThread) l.spawned l.slot

/-- The step does not call `start` or `shutdown`, and is not the one with which `main` takes an
answer. -/
def Action.Plain (action : Action) : Prop :=
  (∀ k, action ≠ .call k .start ∧ action ≠ .call k .shutdown) ∧ action ≠ .take mainThread

namespace Startup

variable {main : MainPoint} {l m : Life} {action : Action}

/-- Whoever is inside `start` or `shutdown` is `main`, which is inside `start`. -/
theorem at_main (h : Startup main l) {k : Caller} {call : LifeCall} (hat : l.calls k = call)
    (hcall : call ≠ .away) : k = mainThread ∧ BootStage main call l.spawned l.slot := by
  obtain rfl : k = mainThread := by
    by_contra hk
    exact hcall (hat.symm.trans (h.others k hk))
  exact ⟨rfl, hat ▸ h.stage⟩

/-- `main` moves on. -/
theorem set_call (h : Startup main l) {main' : MainPoint} {call : LifeCall} (hflag : m.flag = false)
    (hcalls : m.calls = Function.update l.calls mainThread call)
    (hstage : BootStage main' call m.spawned m.slot) : Startup main' m where
  flag := hflag
  others k hk := by
    rw [hcalls, Function.update_of_ne hk]
    exact h.others k hk
  stage := by
    rw [hcalls, Function.update_self]
    exact hstage

/-- What the other steps do to the life of the background threads are the steps of `start` and of
the loops. -/
theorem life_step (h : Startup main l) (hplain : action.Plain) (hmove : LifeMove l action m) :
    Startup main m := by
  obtain ⟨slot, lock, flag, calls, phases, spawned⟩ := l
  cases hmove with
  | start k => exact absurd rfl (hplain.1 k).1
  | shutdown k => exact absurd rfl (hplain.1 k).2
  | take k hat =>
      have hk : k = mainThread := by
        rcases hat with hat | hat <;> exact (h.at_main hat (by simp)).1
      exact absurd (congrArg Action.take hk) hplain.2
  | startLock k hat =>
      obtain ⟨rfl, hstage⟩ := h.at_main hat (by simp)
      cases hstage
      exact h.set_call h.flag rfl .checking
  | startRunning k hat hsome =>
      obtain ⟨rfl, hstage⟩ := h.at_main hat (by simp)
      cases hstage
      cases hsome
  | startSpawn k hat hnone =>
      obtain ⟨rfl, hstage⟩ := h.at_main hat (by simp)
      cases hstage
      exact h.set_call h.flag rfl .storing
  | startStore k number hat =>
      obtain ⟨rfl, hstage⟩ := h.at_main hat (by simp)
      cases hstage
      exact h.set_call h.flag rfl .returning
  | shutdownFlag k hat | shutdownLock k hat | shutdownTake k _ hat | shutdownNone k hat
  | shutdownJoin k _ hat =>
      obtain ⟨-, hstage⟩ := h.at_main hat (by simp)
      cases hstage
  | check | finish | panic => exact ⟨h.flag, h.others, h.stage⟩

/-- `main` calls `start`. -/
theorem enter (h : Startup .start l) :
    Startup .starting (l.setCall mainThread .startLock) := by
  obtain ⟨-, hspawned, hslot⟩ := h.stage.of_start
  refine h.set_call h.flag rfl ?_
  show BootStage _ _ l.spawned l.slot
  rw [hspawned, hslot]
  exact .locking

/-- `main` takes the answer of `start`. -/
theorem leave (h : Startup .starting l) (hat : l.calls mainThread = .started) :
    Startup .bind (l.setCall mainThread .away) := by
  have hstage := h.stage
  rw [hat] at hstage
  obtain ⟨hspawned, hslot⟩ := hstage.of_returning
  refine h.set_call h.flag rfl ?_
  show BootStage _ _ l.spawned l.slot
  rw [hspawned, hslot]
  exact .after rfl

theorem calls_start {s t : Server} (h : Startup .start s.life)
    (hmove : Server.Move s (.call mainThread .start) t) : Startup .starting t.life := by
  cases hmove
  rw [Server.life_set_call]
  exact h.enter

theorem takes_answer {s t : Server} (h : Startup .starting s.life)
    (hcall : s.callers mainThread = .returned .started)
    (hmove : Server.Move s (.take mainThread) t) : Startup .bind t.life := by
  cases hmove
  rw [Server.life_set_call]
  exact h.leave (congrArg Call.life hcall)

/-- `main` goes on after `start`. -/
theorem goes_on {main' : MainPoint} (h : Startup main l) (hbefore : main.started = true)
    (hafter : main'.started = true) : Startup main' l := by
  obtain ⟨hcall, hspawned, hslot⟩ := h.stage.of_started hbefore
  refine ⟨h.flag, h.others, ?_⟩
  rw [hcall, hspawned, hslot]
  exact .after hafter

/-- A step of the server that `main` does not make keeps it so. -/
theorem server_step {s t : Server} (h : Startup main s.life)
    (hanswers : ∀ k, Server.Answers (s.callers k)) (hplain : action.Plain)
    (hmove : Server.Move s action t) : Startup main t.life := by
  rcases Server.life_move hanswers hmove with hsame | hlife
  · rw [hsame]
    exact h
  · exact h.life_step hplain hlife

end Startup

/-! ## The server under `main` -/

/-- The step of the server that a step of the system is. -/
def System.label (s : System) : SystemAction → Option Action
  | .accept .. | .input .. => none
  | .request j => ((s.handlers j).bind Handler.request).map (.call (.connection j))
  | .answer j => some (.take (.connection j))
  | .server action => some action

/-- The step of the system that a step of the process is. -/
def Process.label (p : Process) : ProcessAction → Option SystemAction
  | .enter => some (.server (.call mainThread .start))
  | .leave => some (.server (.take mainThread))
  | .accepted (.ok now) => some (.accept p.accepted now)
  | .bound _ | .accepted (.error _) | .arc _ | .exit => none
  | .thread action => some action

theorem System.moment {s t : System} {action : SystemAction} (h : s.step action = some t) :
    Moment Server.step s.server (s.label action) t.server := by
  cases System.step_move h with
  | accept | input => exact .still
  | request j h request hat hrequest hidle =>
      have hstep : s.server.step (.call (.connection j) request) =
          some (s.server.setCall (.connection j) request.entry) := by
        simp [Server.step, hidle]
      simpa [label, hat, hrequest] using Moment.act hstep
  | answerAdded j _ _ _ _ hreply | answerRemoved j _ _ _ _ _ _ hreply =>
      have hstep : s.server.step (.take (.connection j)) =
          some (s.server.setCall (.connection j) .idle) := by
        simp [Server.step, hreply]
      exact .act hstep
  | server action next _ hstep => exact .act hstep

/-- A step of the system does not touch the server, or is a step of it. -/
theorem System.moves_server {s t : System} {action : SystemAction} (h : s.step action = some t) :
    s.label action = none ∧ t.server = s.server ∨
      ∃ shown, s.label action = some shown ∧ s.server.step shown = some t.server := by
  have hmoment := System.moment h
  generalize s.label action = label at hmoment ⊢
  generalize t.server = server at hmoment ⊢
  cases hmoment with
  | still => exact .inl ⟨rfl, rfl⟩
  | act hstep => exact .inr ⟨_, rfl, hstep⟩

/-- A handler does not call `start` or `shutdown`. -/
theorem Handler.request_registry {h : Handler} {request : Request}
    (hat : h.request = some request) : request ≠ .start ∧ request ≠ .shutdown := by
  unfold Handler.request at hat
  split at hat <;> cases hat <;> simp

/-- What the threads of a process do on the server is not a call of `start` or `shutdown`. -/
theorem System.plain_of_thread {s : System} {action : SystemAction} {shown : Action}
    (hown : action.ofThread = true) (hshown : s.label action = some shown) : shown.Plain := by
  cases action with
  | accept | input => cases hshown
  | request j =>
      obtain ⟨request, hrequest, rfl⟩ := Option.map_eq_some_iff.mp hshown
      obtain ⟨h, -, hat⟩ := Option.bind_eq_some_iff.mp hrequest
      obtain ⟨hstart, hshutdown⟩ := Handler.request_registry hat
      exact ⟨fun k => by simp [hstart, hshutdown], by simp⟩
  | answer j =>
      cases hshown
      exact ⟨fun k => by simp, by simp [mainThread]⟩
  | server action =>
      obtain rfl : action = shown := Option.some.inj hshown
      cases action with
      | call | take => cases hown
      | caller | client | background => exact ⟨fun k => by simp, by simp⟩

/-- Without the flag, the first background thread ends only when an update panics. -/
theorem Server.ticker_step {s t : Server} {action : Action} (hlocks : s.LocksHeld)
    (hmove : Server.Move s action t) (hflag : s.shutdownFlag = false)
    (h : 0 < s.bgSpawned → s.background 0 ≠ .exited ∨ s.poisoned = true)
    (hspawned : 0 < t.bgSpawned) : t.background 0 ≠ .exited ∨ t.poisoned = true := by
  by_cases hbefore : 0 < s.bgSpawned
  · rcases h hbefore with hrunning | hpoisoned
    · exact Server.running_step hlocks hmove hrunning hflag
    · exact .inr (Server.stays_poisoned hmove hpoisoned)
  · cases hmove with
    | startSpawn =>
        have hzero : s.bgSpawned = 0 := by omega
        exact .inl (by simp [Server.setCall, hzero])
    | _ => exact absurd hspawned hbefore

/-- A handler that has returned makes no step. -/
theorem Handler.not_returned_of_step {h next : Handler} {input : HandlerInput}
    (hstep : h.step input = some next) : ¬ h.Returned := by
  rintro ⟨result, hpoint⟩
  unfold Handler.step at hstep
  rw [hpoint] at hstep
  cases input <;> cases hstep

/-- A handler is new, or has not returned before it moves. -/
theorem System.handlers_step {s t : System} {action : SystemAction} (hmove : Move s action t)
    {j : Nat} {h : Handler} (hh : t.handlers j = some h) : s.handlers j = some h ∨
      (∃ old, s.handlers j = some old ∧ ¬ old.Returned) ∨ ∃ now, action = .accept j now := by
  have hset : ∀ {i : Nat} {old next : Handler},
      t.handlers = Function.update s.handlers i (some next) → s.handlers i = some old →
      ¬ old.Returned → s.handlers j = some h ∨
        (∃ old, s.handlers j = some old ∧ ¬ old.Returned) ∨ ∃ now, action = .accept j now := by
    intro i old next hhandlers hold hnot
    rw [hhandlers] at hh
    rcases Locks.moved_cases hh with ⟨rfl, -⟩ | ⟨-, hh⟩
    · exact .inr (.inl ⟨old, hold, hnot⟩)
    · exact .inl hh
  cases hmove with
  | accept i now =>
      rcases Locks.moved_cases hh with ⟨rfl, -⟩ | ⟨-, hh⟩
      · exact .inr (.inr ⟨now, rfl⟩)
      · exact .inl hh
  | input i input old next hat _ hstep => exact hset rfl hat (Handler.not_returned_of_step hstep)
  | answerAdded i old next _ hat _ hstep => exact hset rfl hat (Handler.not_returned_of_step hstep)
  | answerRemoved i old next _ _ _ hat _ hstep =>
      exact hset rfl hat (Handler.not_returned_of_step hstep)
  | request | server => exact .inl hh

namespace Process

variable {debug : Str → Str} {p q : Process} {action : ProcessAction} {quotes : Quotes}

/-- Who owns an `Arc`: whoever is inside a method, a handler until it returns, `main` until it
leaves, and a background thread until it ends. -/
structure Owned (p : Process) : Prop where
  callers : ∀ k, p.system.server.callers k ≠ .idle → k ∈ p.handles
  handlers : ∀ j h, p.system.handlers j = some h → h.Returned ∨ .connection j ∈ p.handles
  main : p.main.closing = false → mainThread ∈ p.handles
  tickers : ∀ b, b ∉ p.holding → p.system.server.background b = .exited

/-- Nobody owns an `Arc` any more. -/
structure Gone (p : Process) : Prop where
  handles : p.handles = []
  holding : p.holding = []
  spawned : p.system.server.bgSpawned = 1
  poisoned : p.system.server.poisoned = true

/-- What holds of `main` and the server as long as the process runs. -/
structure Running (quotes : Quotes) (p : Process) : Prop where
  owned : Owned p
  /-- Until the last `Arc` goes, the run is one of the system. -/
  system : p.dropping = none → System.Reachable quotes p.system
  startup : p.dropping = none → Startup p.main p.system.server.life
  /-- Only an update that panics ends the ticker. -/
  ticker : 0 < p.system.server.bgSpawned →
    p.system.server.background 0 ≠ .exited ∨ p.system.server.poisoned = true
  gone : p.dropping ≠ none → Gone p

/-- As long as `main` does not leave, it owns an `Arc`. -/
theorem Running.serving (h : Running quotes p) (hmain : p.main.closing = false) :
    p.dropping = none := by
  by_contra hdropping
  have hmem := h.owned.main hmain
  rw [(h.gone hdropping).handles] at hmem
  cases hmem

theorem started_of_closing {main : MainPoint} (h : main.closing = true) : main.started = true := by
  cases main with
  | leaving | returned => rfl
  | start | starting | bind | accept => cases h

/-! ### While somebody owns an `Arc` -/

/-- A step of the system, if whoever calls a method and every new connection owns an `Arc`. -/
theorem Owned.system_step (h : Owned p) {action : SystemAction}
    (hstep : p.system.step action = some q.system) (hkeep : ∀ k ∈ p.handles, k ∈ q.handles)
    (hcall : ∀ k request, p.system.label action = some (.call k request) → k ∈ q.handles)
    (haccept : ∀ j now, action = .accept j now → .connection j ∈ q.handles)
    (hmain : q.main.closing = false → mainThread ∈ q.handles)
    (htickers : ∀ b, b ∉ q.holding → q.system.server.background b = .exited) : Owned q where
  callers := by
    have hbefore : ∀ k, p.system.server.callers k ≠ .idle → k ∈ q.handles := fun k hk =>
      hkeep k (h.callers k hk)
    rcases System.moves_server hstep with ⟨-, hsame⟩ | ⟨shown, hshown, hmoved⟩
    · rw [hsame]
      exact hbefore
    · refine Shared.owned_step hbefore ?_ hmoved
      rintro k request rfl
      exact hcall k request hshown
  handlers j handler hh := by
    rcases System.handlers_step (System.step_move hstep) hh with
      hsame | ⟨old, hold, hnot⟩ | ⟨now, rfl⟩
    · exact (h.handlers j handler hsame).imp_right (hkeep _)
    · exact .inr (hkeep _ ((h.handlers j old hold).resolve_left hnot))
    · exact .inr (haccept j now rfl)
  main := hmain
  tickers := htickers

/-- A background thread that owns no `Arc` has ended. -/
theorem Owned.tickers_step (h : Owned p) {server : Server} {shown : Action}
    (hlife : server.life = p.system.server.life ∨ LifeMove p.system.server.life shown server.life)
    {b : Nat} (hb : b ∉ if server.bgSpawned = p.system.server.bgSpawned then p.holding
      else p.system.server.bgSpawned :: p.holding) : server.background b = .exited := by
  have hended : ∀ b, b ∉ p.holding → p.system.server.life.phases b = .ended := fun b hb =>
    Server.life_ended_iff.mpr (h.tickers b hb)
  refine Server.life_ended_iff.mp ?_
  rcases hlife with hsame | hlife
  · have hspawned : server.bgSpawned = p.system.server.bgSpawned := congrArg Life.spawned hsame
    rw [if_pos hspawned] at hb
    rw [hsame]
    exact hended b hb
  · exact Shared.ended_step hlife hended hb

/-- A step of the system, if `main` goes where it should. -/
theorem Running.system_step (h : Running quotes p) (hnone : p.dropping = none)
    {action : SystemAction} (hstep : p.system.step action = some q.system)
    (hdropping : q.dropping = none) (howned : Owned q)
    (hstartup : Startup q.main q.system.server.life) : Running quotes q where
  owned := howned
  system _ := .tail (h.system hnone) trivial hstep
  startup _ := hstartup
  ticker := by
    have hreachable := System.Reachable.server (h.system hnone)
    rcases System.moves_server hstep with ⟨-, hsame⟩ | ⟨shown, -, hmoved⟩
    · rw [hsame]
      exact h.ticker
    · exact Server.ticker_step (Server.Reachable.locks_held hreachable) (Server.step_move hmoved)
        (h.startup hnone).flag h.ticker
  gone hsome := absurd hdropping hsome

/-- What a step of the system does to the background threads. -/
theorem Running.life_step (h : Running quotes p) (hnone : p.dropping = none)
    {action : SystemAction} {system : System} (hstep : p.system.step action = some system) :
    ∃ shown, system.server.life = p.system.server.life ∨
      LifeMove p.system.server.life shown system.server.life := by
  rcases System.moves_server hstep with ⟨-, hsame⟩ | ⟨shown, -, hmoved⟩
  · exact ⟨.take mainThread, .inl (by rw [hsame])⟩
  · have hanswers := Server.Reachable.answers (System.Reachable.server (h.system hnone))
    exact ⟨shown, Server.life_move hanswers (Server.step_move hmoved)⟩

/-- `main` goes on to the next point without the server. -/
theorem Running.main_step (h : Running quotes p) {main : MainPoint}
    (hbefore : p.main.started = true) (hafter : main.started = true)
    (hmain : main.closing = false → mainThread ∈ p.handles) :
    Running quotes { p with main := main } where
  owned := ⟨h.owned.callers, h.owned.handlers, hmain, h.owned.tickers⟩
  system := h.system
  startup hnone := (h.startup hnone).goes_on hbefore hafter
  ticker := h.ticker
  gone hsome :=
    have hgone := h.gone hsome
    ⟨hgone.handles, hgone.holding, hgone.spawned, hgone.poisoned⟩

/-- Somebody gives up an `Arc`. If it is the last one, `main` has given up its own before, so it has
started the server, and the background thread, which has ended, has panicked. -/
theorem Running.give_up (h : Running quotes p) (hnone : p.dropping = none) {handles : List Caller}
    {holding : List Nat} (thread : ThreadId)
    (howned : Owned { p with handles := handles, holding := holding }) :
    Running quotes (p.withShared
      (({ p.shared with handles := handles, holding := holding } : Shared).released thread)) := by
  unfold Shared.released
  split
  · next hlast =>
      have hclosing : p.main.closing = true := by
        by_contra hmain
        have hmem := howned.main (by simpa using hmain)
        rw [show handles = [] from hlast.1] at hmem
        cases hmem
      obtain ⟨-, hspawned, -⟩ :=
        (h.startup hnone).stage.of_started (started_of_closing hclosing)
      have hexited : p.system.server.background 0 = .exited := by
        refine howned.tickers 0 ?_
        rw [show holding = [] from hlast.2]
        exact List.not_mem_nil
      have hpoisoned : p.system.server.poisoned = true :=
        (h.ticker (Nat.lt_of_lt_of_eq Nat.one_pos hspawned.symm)).resolve_left
          (not_not_intro hexited)
      exact {
        owned := ⟨howned.callers, howned.handlers, howned.main, howned.tickers⟩
        system := nofun
        startup := nofun
        ticker := h.ticker
        gone := fun _ => ⟨hlast.1, hlast.2, hspawned, hpoisoned⟩ }
  · exact {
      owned := ⟨howned.callers, howned.handlers, howned.main, howned.tickers⟩
      system := h.system
      startup := h.startup
      ticker := h.ticker
      gone := fun hsome => absurd hnone hsome }

/-! ### When the last `Arc` has gone -/

/-- Only client threads move, and what they do does not concern the background threads. -/
theorem Running.gone_step (h : Running quotes p) (hgone : Gone p) {action : SystemAction}
    {system : System} (hown : action.ofThread = true) (hstep : p.system.step action = some system) :
    system.handlers = p.system.handlers ∧ system.server.callers = p.system.server.callers ∧
      system.server.background = p.system.server.background ∧
      system.server.life = p.system.server.life ∧ system.server.poisoned = true := by
  have hreturned : ∀ j handler, p.system.handlers j = some handler → handler.Returned := by
    intro j handler hh
    refine (h.owned.handlers j handler hh).resolve_right ?_
    rw [hgone.handles]
    exact List.not_mem_nil
  have hidle : ∀ k, p.system.server.callers k = .idle := by
    intro k
    by_contra hk
    have hmem := h.owned.callers k hk
    rw [hgone.handles] at hmem
    cases hmem
  have hended : ∀ b, p.system.server.background b = .exited := by
    intro b
    refine h.owned.tickers b ?_
    rw [hgone.holding]
    exact List.not_mem_nil
  cases System.step_move hstep with
  | accept => cases hown
  | input j input old next hat _ hnext =>
      exact absurd (hreturned j old hat) (Handler.not_returned_of_step hnext)
  | request j old request hat hrequest =>
      obtain ⟨result, hpoint⟩ := hreturned j old hat
      rw [Handler.request, hpoint] at hrequest
      cases hrequest
  | answerAdded j old next id hat hreply | answerRemoved j old next id _ _ hat hreply =>
      rw [hidle] at hreply
      cases hreply
  | server action next _ hnext =>
      have hcall : ∀ k request, action ≠ .call k request := by
        rintro k request rfl
        cases hown
      obtain ⟨hcallers, hbackground, hlife⟩ := Shared.only_clients hidle hended hcall hnext
      exact ⟨rfl, hcallers, hbackground, hlife,
        Server.stays_poisoned (Server.step_move hnext) hgone.poisoned⟩

/-- `drop` goes on. -/
theorem Running.drop_step (h : Running quotes p) {s : Shared} (hstep : p.shared.dropStep = some s) :
    Running quotes (p.withShared s) := by
  have hset : ∀ (server : Server) (next : ThreadId × DropPoint), p.dropping ≠ none →
      server.callers = p.system.server.callers → server.background = p.system.server.background →
      server.bgSpawned = p.system.server.bgSpawned →
      server.poisoned = p.system.server.poisoned →
      Running quotes (p.withShared { p.shared with server := server, dropping := some next }) := by
    intro server next hsome hcallers hbackground hspawned hpoisoned
    have hgone := h.gone hsome
    exact {
      owned := ⟨fun k hk => h.owned.callers k (hcallers ▸ hk), h.owned.handlers, h.owned.main,
        fun b hb => (congrFun hbackground b).trans (h.owned.tickers b hb)⟩
      system := nofun
      startup := nofun
      ticker := fun _ => .inr (hpoisoned.trans hgone.poisoned)
      gone := fun _ => ⟨hgone.handles, hgone.holding, hspawned.trans hgone.spawned,
        hpoisoned.trans hgone.poisoned⟩ }
  unfold Shared.dropStep at hstep
  split at hstep
  · next thread hdropping =>
      have hsome : p.dropping ≠ none := by rw [show p.dropping = _ from hdropping]; nofun
      cases hstep
      exact hset { p.system.server with shutdownFlag := true } _ hsome rfl rfl rfl rfl
  · next thread hdropping =>
      have hsome : p.dropping ≠ none := by rw [show p.dropping = _ from hdropping]; nofun
      split at hstep
      · cases hstep
        exact hset { p.system.server with bgThread := none } _ hsome rfl rfl rfl rfl
      · cases hstep
  · next thread number hdropping =>
      have hsome : p.dropping ≠ none := by rw [show p.dropping = _ from hdropping]; nofun
      split at hstep
      · cases hstep
        exact hset p.system.server _ hsome rfl rfl rfl rfl
      · cases hstep
  · cases hstep
  · cases hstep

/-! ### Every step -/

theorem may_drop_connection {j : Nat} (h : p.mayDrop (.drop (.connection j)) = true) :
    ∃ handler, p.system.handlers j = some handler ∧ handler.Returned := by
  simp only [mayDrop] at h
  split at h
  · next handler hh =>
      split at h
      · next result hpoint => exact ⟨handler, hh, result, hpoint⟩
      · cases h
  · cases h

theorem may_drop_main (h : p.mayDrop (.drop mainThread) = true) : p.main.closing = true :=
  have hboth : (decide (mainThread = mainThread) && p.main.closing) = true := h
  (Bool.and_eq_true_iff.mp hboth).2

/-- Whoever calls a method by itself owns an `Arc`. -/
theorem Owned.call_mem (h : Owned p) {action : SystemAction} (hown : action.ofThread = true)
    {k : Caller} {request : Request} (hshown : p.system.label action = some (.call k request)) :
    k ∈ p.handles := by
  cases action with
  | accept | input => cases hshown
  | answer j => cases hshown
  | server action =>
      cases hshown
      cases hown
  | request j =>
      obtain ⟨asked, hrequest, heq⟩ := Option.map_eq_some_iff.mp hshown
      obtain ⟨handler, hh, hat⟩ := Option.bind_eq_some_iff.mp hrequest
      cases heq
      refine (h.handlers j handler hh).resolve_left ?_
      rintro ⟨result, hpoint⟩
      rw [Handler.request, hpoint] at hat
      cases hat

/-- `main` and the system go on. -/
theorem Running.goto_step (h : Running quotes p) (hnone : p.dropping = none)
    {action : SystemAction} {system : System} (hstep : p.system.step action = some system)
    {main : MainPoint} {accepted : Nat} {handles : List Caller}
    (hkeep : ∀ k ∈ p.handles, k ∈ handles)
    (hcall : ∀ k request, p.system.label action = some (.call k request) → k ∈ p.handles)
    (haccept : ∀ j now, action = .accept j now → .connection j ∈ handles)
    (hmain : main.closing = false → mainThread ∈ handles)
    (hstartup : Startup main system.server.life) :
    Running quotes { p.goto main system with accepted := accepted, handles := handles } := by
  obtain ⟨shown, hlife⟩ := h.life_step hnone hstep
  refine h.system_step hnone hstep hnone ?_ hstartup
  exact h.owned.system_step hstep hkeep (fun k request hshown => hkeep k (hcall k request hshown))
    haccept hmain fun b hb => h.owned.tickers_step hlife hb

/-- A thread of the process goes on. -/
theorem Running.thread_step (h : Running quotes p) {action : SystemAction} {system : System}
    (hown : action.ofThread = true) (hstep : p.system.step action = some system) :
    Running quotes (p.goto p.main system) := by
  by_cases hnone : p.dropping = none
  · refine h.goto_step hnone hstep (fun _ => id) (fun _ _ => h.owned.call_mem hown) ?_
      h.owned.main ?_
    · rintro j now rfl
      cases hown
    · rcases System.moves_server hstep with ⟨-, hsame⟩ | ⟨shown, hshown, hmoved⟩
      · exact hsame ▸ h.startup hnone
      · have hanswers := Server.Reachable.answers (System.Reachable.server (h.system hnone))
        exact (h.startup hnone).server_step hanswers (System.plain_of_thread hown hshown)
          (Server.step_move hmoved)
  · have hgone := h.gone hnone
    obtain ⟨hhandlers, hcallers, hbackground, hlife, hpoisoned⟩ := h.gone_step hgone hown hstep
    have hspawned : system.server.bgSpawned = p.system.server.bgSpawned :=
      congrArg Life.spawned hlife
    have hholding : (p.goto p.main system).holding = p.holding := if_pos hspawned
    exact {
      owned := {
        callers := fun k hk => h.owned.callers k (hcallers ▸ hk)
        handlers := fun j handler hh => h.owned.handlers j handler (hhandlers ▸ hh)
        main := h.owned.main
        tickers := fun b hb => (congrFun hbackground b).trans (h.owned.tickers b (hholding ▸ hb)) }
      system := fun hsame => absurd hsame hnone
      startup := fun hsame => absurd hsame hnone
      ticker := fun _ => .inr hpoisoned
      gone := fun _ => ⟨hgone.handles, hholding.trans hgone.holding, hspawned.trans hgone.spawned,
        hpoisoned⟩ }

/-- A thread gives up an `Arc`, or goes on inside `drop`. -/
theorem Running.arc_step (h : Running quotes p) {action : SharedAction} {s : Shared}
    (hmay : p.mayDrop action = true) (hstep : p.shared.step action = some s) :
    Running quotes (p.withShared s) := by
  cases action with
  | server | clone => cases hmay
  | dropping => exact h.drop_step hstep
  | drop k =>
      simp only [Shared.step] at hstep
      split at hstep
      · next hidle =>
          split at hstep
          · next hk =>
              cases hstep
              have hnone : p.dropping = none := by
                by_contra hsome
                rw [show p.shared.handles = [] from (h.gone hsome).handles] at hk
                cases hk
              refine h.give_up hnone (.caller k) ⟨fun j hj => ?_, fun j handler hh => ?_,
                fun hmain => ?_, h.owned.tickers⟩
              · have hne : j ≠ k := by
                  rintro rfl
                  exact hj hidle
                exact (List.mem_erase_of_ne hne).mpr (h.owned.callers j hj)
              · by_cases hj : .connection j = k
                · subst hj
                  obtain ⟨other, hother, hreturned⟩ := may_drop_connection hmay
                  obtain rfl := Option.some.inj (hother.symm.trans hh)
                  exact .inl hreturned
                · exact (h.owned.handlers j handler hh).imp_right (List.mem_erase_of_ne hj).mpr
              · have hne : mainThread ≠ k := by
                  rintro rfl
                  rw [may_drop_main hmay] at hmain
                  cases hmain
                exact (List.mem_erase_of_ne hne).mpr (h.owned.main hmain)
          · cases hstep
      · cases hstep
  | release b =>
      simp only [Shared.step] at hstep
      split at hstep
      · next hb =>
          cases hstep
          have hnone : p.dropping = none := by
            by_contra hsome
            have hmem := hb.1
            rw [show p.shared.holding = [] from (h.gone hsome).holding] at hmem
            cases hmem
          refine h.give_up hnone (.background b) ⟨h.owned.callers, h.owned.handlers, h.owned.main,
            fun c hc => ?_⟩
          by_cases hcb : c = b
          · rw [hcb]
            exact hb.2
          · exact h.owned.tickers c fun hmem => hc ((List.mem_erase_of_ne hcb).mpr hmem)
      · cases hstep

theorem running_init (quotes : Quotes) : Running quotes (init quotes) where
  owned := ⟨fun _ hk => absurd rfl hk, nofun, fun _ => List.mem_cons_self, fun _ _ => rfl⟩
  system _ := .refl
  startup _ := ⟨rfl, fun _ _ => rfl, .before⟩
  ticker hspawned := absurd hspawned (Nat.lt_irrefl 0)
  gone hsome := absurd rfl hsome

theorem running_step (h : Running quotes p) (hmove : Move debug p action q) :
    Running quotes q := by
  have hserving : p.main.closing = false → p.dropping = none ∧ mainThread ∈ p.handles :=
    fun hmain => ⟨h.serving hmain, h.owned.main hmain⟩
  cases hmove with
  | enter system hmain hstep =>
      obtain ⟨hnone, hmem⟩ := hserving (by rw [hmain]; rfl)
      refine h.goto_step hnone hstep (fun _ => id) ?_ nofun (fun _ => hmem) ?_
      · rintro k request hshown
        cases hshown
        exact hmem
      · rcases System.moves_server hstep with ⟨hunseen, -⟩ | ⟨shown, hshown, hmoved⟩
        · cases hunseen
        · cases hshown
          exact (hmain ▸ h.startup hnone).calls_start (Server.step_move hmoved)
  | leave system hmain hcall hstep =>
      obtain ⟨hnone, hmem⟩ := hserving (by rw [hmain]; rfl)
      refine h.goto_step hnone hstep (fun _ => List.mem_cons_of_mem _) nofun nofun
        (fun _ => List.mem_cons_self) ?_
      rcases System.moves_server hstep with ⟨hunseen, -⟩ | ⟨shown, hshown, hmoved⟩
      · cases hunseen
      · cases hshown
        exact (hmain ▸ h.startup hnone).takes_answer hcall (Server.step_move hmoved)
  | accepted now system hmain hstep =>
      obtain ⟨hnone, hmem⟩ := hserving (by rw [hmain]; rfl)
      refine h.goto_step hnone hstep (fun _ => List.mem_cons_of_mem _) nofun ?_
        (fun _ => List.mem_cons_of_mem _ hmem) ?_
      · rintro j now hsame
        cases hsame
        exact List.mem_cons_self
      · rcases System.moves_server hstep with ⟨-, hsame⟩ | ⟨shown, hshown, -⟩
        · exact hsame ▸ hmain ▸ h.startup hnone
        · cases hshown
  | bound hmain =>
      have hmem := (hserving (by rw [hmain]; rfl)).2
      exact h.main_step (by rw [hmain]; rfl) rfl fun _ => hmem
  | bindFails text hmain | acceptFails text hmain =>
      exact h.main_step (by rw [hmain]; rfl) rfl nofun
  | exit error hmain => exact h.main_step (by rw [hmain]; rfl) rfl nofun
  | arc action s _ hmay hstep => exact h.arc_step hmay hstep
  | thread action system _ hown hstep => exact h.thread_step hown hstep

theorem Reachable.running (h : Reachable debug quotes p) : Running quotes p :=
  Transition.Reaches.invariant (Running quotes) h (running_init quotes)
    fun hinv _ hstep => running_step hinv (step_move hstep)

/-- The error that `main` makes of a failing `bind` or `accept`. -/
def GaveUp (debug : Str → Str) (error : CliError) : Prop :=
  ∃ text, error = .generalError ((TcpServerError.bindError text).toDebug debug) ∨
    error = .generalError ((TcpServerError.acceptError text).toDebug debug)

/-- `main` gives up only when `bind` or `accept` fails. -/
theorem Reachable.returned (h : Reachable debug quotes p) {result : Except CliError Unit}
    (hmain : p.main = .returned result) : ∃ error, result = .error error ∧ GaveUp debug error := by
  have hall : (∀ error, p.main = .leaving error → GaveUp debug error) ∧ ∀ result,
      p.main = .returned result → ∃ error, result = .error error ∧ GaveUp debug error := by
    refine Transition.Reaches.invariant (fun p : Process =>
      (∀ error, p.main = .leaving error → GaveUp debug error) ∧
        ∀ result, p.main = .returned result → ∃ error, result = .error error ∧ GaveUp debug error) h
      ⟨nofun, nofun⟩ ?_
    intro p q action hinv _ hstep
    cases step_move hstep with
    | bindFails text =>
        refine ⟨fun error heq => ?_, nofun⟩
        cases heq
        exact ⟨text, .inl rfl⟩
    | acceptFails text =>
        refine ⟨fun error heq => ?_, nofun⟩
        cases heq
        exact ⟨text, .inr rfl⟩
    | exit error hmain =>
        refine ⟨nofun, fun result heq => ?_⟩
        cases heq
        exact ⟨error, rfl, hinv.1 error hmain⟩
    | enter | leave | bound | accepted => exact ⟨nofun, nofun⟩
    | arc | thread => exact hinv
  exact hall.2 result hmain

/-- As long as somebody owns an `Arc` of the server, the flag is down and the handle of the
background thread, once `main` has started it, is in its slot. There is one such thread, which only
an update that panics ends. The last `Arc` goes only when `main` leaves, with an error of `bind` or
of `accept`, an update has panicked and every handler has returned. -/
theorem never_shut_down {draws : Nat → F64 × UInt64} {file : Except Str (List UInt8)}
    (h : launch draws file = .ok p) (hrun : Transition.Reachable (step debug) p q) :
    (q.dropping = none → q.system.server.shutdownFlag = false ∧
      (q.main.started = true → q.system.server.bgThread = some 0)) ∧
    (q.main.started = true → q.system.server.bgSpawned = 1 ∧
      (q.system.server.background 0 ≠ .exited ∨ q.system.server.poisoned = true)) ∧
    (q.dropping ≠ none → q.main.closing = true ∧ q.handles = [] ∧ q.holding = [] ∧
      q.system.server.poisoned = true ∧
      ∀ j handler, q.system.handlers j = some handler → handler.Returned) ∧
    ∀ result, q.main = .returned result → ∃ error, result = .error error ∧ GaveUp debug error := by
  obtain ⟨s, -, rfl⟩ := launch_ok h
  have hrunning := Reachable.running hrun
  refine ⟨fun hnone => ⟨(hrunning.startup hnone).flag, fun hstarted => ?_⟩, fun hstarted => ?_,
    fun hsome => ?_, fun result => Reachable.returned hrun⟩
  · exact ((hrunning.startup hnone).stage.of_started hstarted).2.2
  · have hspawned : q.system.server.bgSpawned = 1 := by
      by_cases hnone : q.dropping = none
      · exact ((hrunning.startup hnone).stage.of_started hstarted).2.1
      · exact (hrunning.gone hnone).spawned
    exact ⟨hspawned, hrunning.ticker (by rw [hspawned]; exact Nat.one_pos)⟩
  · have hgone := hrunning.gone hsome
    refine ⟨?_, hgone.handles, hgone.holding, hgone.poisoned, fun j handler hh => ?_⟩
    · by_contra hmain
      have hnone := hrunning.serving (by simpa using hmain)
      exact hsome hnone
    · refine (hrunning.owned.handlers j handler hh).resolve_right ?_
      rw [hgone.handles]
      exact List.not_mem_nil

/-- `main` starts the server and goes on to `TcpListener::bind`. -/
def booting : List ProcessAction :=
  .enter :: List.replicate 3 (.thread (.server (.caller mainThread))) ++ [.leave]

/-- `accept` fails after an update has panicked, and `main` drops the last `Arc`. -/
def lastArc : List ProcessAction :=
  booting ++ [.bound (.ok ())] ++ List.replicate 3 (.thread (.server (.background 0 .proceed))) ++
    [.thread (.server (.background 0 .panic)), .arc (.release 0),
      .accepted (.error "Too many open files".toList), .arc (.drop mainThread),
      .arc (.drop mainThread)] ++
    List.replicate 3 (.arc .dropping) ++ [.exit]

/-- If the port is taken, the process ends without a shutdown. If `accept` fails after a panic, the
server is shut down first. -/
theorem never_shut_down_port_taken : ∃ p, launch (fun _ => (⟨0⟩, 0)) (.ok []) = .ok p ∧
    (∃ q, Transition.Reachable (step id) p q ∧
      q.main = .returned (.error (.generalError "BindError(Address already in use)".toList)) ∧
      q.system.server.shutdownFlag = false ∧ q.system.server.bgThread = some 0) ∧
    ∃ q, Transition.Reachable (step id) p q ∧
      q.main = .returned (.error (.generalError "AcceptError(Too many open files)".toList)) ∧
      q.system.server.shutdownFlag = true ∧ q.system.server.poisoned = true := by
  obtain ⟨p, q, r, hlaunch, hrun, hmain, hnone, hrest, hleft, hflag, hsome⟩ : ∃ p q r,
      launch (fun _ => (⟨0⟩, 0)) (.ok []) = .ok p ∧ Transition.run (step id) p (booting ++
        [.bound (.error "Address already in use".toList), .arc (.drop mainThread),
          .arc (.drop mainThread), .exit]) = some q ∧
      q.main = .returned (.error (.generalError "BindError(Address already in use)".toList)) ∧
      q.dropping = none ∧ Transition.run (step id) p lastArc = some r ∧
      r.main = .returned (.error (.generalError "AcceptError(Too many open files)".toList)) ∧
      r.system.server.shutdownFlag = true ∧ r.dropping = some (.caller mainThread, .done) :=
    ⟨_, _, _, rfl, rfl, rfl, rfl, rfl, rfl, rfl, rfl⟩
  have hq : Transition.Reachable (step id) p q := Transition.reachable_of_run hrun
  have hr : Transition.Reachable (step id) p r := Transition.reachable_of_run hrest
  obtain ⟨hdown, hslot⟩ := (never_shut_down hlaunch hq).1 hnone
  have hlast := (never_shut_down hlaunch hr).2.2.1 (by rw [hsome]; nofun)
  exact ⟨p, hlaunch, ⟨q, hq, hmain, hdown, hslot (by rw [hmain]; rfl)⟩,
    r, hr, hleft, hflag, hlast.2.2.2.1⟩

end Process

/-! ## Fair executions -/

/-- The server's thread that takes a step of the system. The handlers of the connections belong to
nobody here: they need not go on. -/
def SystemAction.owner : SystemAction → Option ThreadId
  | .server action => action.owner
  | _ => none

/-- The server's thread that takes a step of the process. -/
def ProcessAction.owner : ProcessAction → Option ThreadId
  | .thread action => action.owner
  | _ => none

/-- The server inside the system. -/
def System.onServer (quotes : Quotes) : Projection System.step (System.init quotes) Server.step :=
  ⟨System.server, System.label, fun _ => System.moment⟩

/-- `main` serves: it has not given up. -/
def Process.Serving (p : Process) (_ : ProcessAction) : Prop :=
  p.main.closing = false

instance (p : Process) (action : ProcessAction) : Decidable (p.Serving action) :=
  inferInstanceAs (Decidable (_ = _))

/-- As long as `main` serves, nobody is inside `drop`, and giving up an `Arc` is nothing to the
server. -/
theorem Process.moment {debug : Str → Str} {quotes : Quotes} {p q : Process}
    {action : ProcessAction} (h : Running quotes p) (hmain : p.main.closing = false)
    (hmove : Move debug p action q) :
    Moment System.step p.system (p.label action) q.system := by
  have hnone := h.serving hmain
  cases hmove with
  | enter _ _ hstep | leave _ _ _ hstep | accepted _ _ _ hstep | thread _ _ _ _ hstep =>
      exact .act hstep
  | bound | bindFails | acceptFails | exit => exact .still
  | arc action s _ hmay hstep =>
      have hsame : s.server = p.system.server := by
        cases action with
        | server | clone => cases hmay
        | dropping =>
            simp only [Shared.step, Shared.dropStep, shared, hnone] at hstep
            cases hstep
        | drop | release =>
            simp only [Shared.step, Shared.released] at hstep
            repeat' split at hstep
            all_goals cases hstep
            all_goals rfl
      have hsystem : (p.withShared s).system = p.system := by
        rw [withShared, hsame]
      rw [hsystem]
      exact .still

/-- The system inside the process, as long as `main` serves. -/
def Process.onSystem (debug : Str → Str) (quotes : Quotes) :
    Projection (Transition.restrict (Process.step debug) Process.Serving) (Process.init quotes)
      System.step where
  view := Process.system
  label := Process.label
  moment hreach hstep :=
    have hrun := hreach.invariant (Process.Reachable debug quotes) .refl fun h _ hstep =>
      h.tail trivial (Transition.restrict_eq_some_iff.mp hstep).2
    have hmoved := Transition.restrict_eq_some_iff.mp hstep
    Process.moment (Process.Reachable.running hrun) hmoved.1 (Process.step_move hmoved.2)

/-- What a thread of the server does by itself it may do in the system and in the process. -/
theorem Action.allowed_of_owner {action : Action} {i : ThreadId} (h : action.owner = some i) :
    action.allowed = true ∧ (SystemAction.server action).ofThread = true := by
  cases action with
  | call | take => cases h
  | caller | client | background => exact ⟨rfl, rfl⟩

theorem SystemAction.server_of_owner {action : SystemAction} {i : ThreadId}
    (h : action.owner = some i) : ∃ shown, action = .server shown ∧ shown.owner = some i := by
  cases action with
  | server shown => exact ⟨shown, rfl, h⟩
  | accept | input | request | answer => cases h

section Executions

variable {debug : Str → Str} {quotes : Quotes} {i : ThreadId}

/-- A thread of the server can go on in the system if it can on the server. -/
theorem System.fair_on_server {e : Execution System.step (System.init quotes)}
    (h : e.StronglyFair SystemAction.owner i) :
    (e.map (System.onServer quotes)).StronglyFair Action.owner i := by
  refine h.map _ (fun state action howner => ?_) fun n => ?_
  · obtain ⟨shown, rfl, howner⟩ := SystemAction.server_of_owner howner
    exact ⟨shown, rfl, howner⟩
  · rintro ⟨action, next, howner, hstep⟩
    have hallowed := (Action.allowed_of_owner howner).1
    have hmoved : (e.state n).step (.server action) = some { e.state n with server := next } := by
      have hstep : (e.state n).server.step action = some next := hstep
      simp [System.step, hallowed, hstep]
    exact ⟨.server action, _, howner, hmoved⟩

/-- A thread of the server can go on in the process if it can in the system, as long as `main`
serves. -/
theorem Process.fair_on_system {e : Execution (Process.step debug) (Process.init quotes)}
    (h : e.StronglyFair ProcessAction.owner i) (hmain : ∀ n, (e.state n).main.closing = false) :
    ((e.restrict fun n _ _ => hmain n).map (Process.onSystem debug quotes)).StronglyFair
      SystemAction.owner i := by
  refine (h.restrict fun n _ _ => hmain n).map _ (fun state action howner => ?_) fun n => ?_
  · cases action with
    | thread action => exact ⟨action, rfl, howner⟩
    | enter | leave | bound | accepted | arc | exit => cases howner
  · rintro ⟨action, next, howner, hstep⟩
    obtain ⟨shown, rfl, hshown⟩ := SystemAction.server_of_owner howner
    have hown := (Action.allowed_of_owner hshown).2
    have hover : (e.state n).main.ended = false := by
      have hserving := hmain n
      generalize (e.state n).main = main at hserving ⊢
      cases main with
      | leaving | returned => cases hserving
      | start | starting | bind | accept => rfl
    have hmoved : (e.state n).step debug (.thread (.server shown)) =
        some ((e.state n).goto (e.state n).main next) := by
      have hstep : (e.state n).system.step (.server shown) = some next := hstep
      simp [Process.step, hover, hown, hstep]
    exact ⟨.thread (.server shown), _, howner,
      Transition.restrict_eq_some_iff.mpr ⟨hmain n, hmoved⟩⟩

/-- `main` does not come back. -/
theorem Process.closing_step {p q : Process} {action : ProcessAction}
    (hmove : Move debug p action q) (hclosing : p.main.closing = true) : q.main.closing = true := by
  cases hmove with
  | enter _ hmain | leave _ hmain | bound hmain | accepted _ _ hmain =>
      rw [hmain] at hclosing
      cases hclosing
  | bindFails | acceptFails | exit => rfl
  | arc | thread => exact hclosing

/-- What happens on the server under a fair scheduler happens in the process, or `main` gives up. -/
theorem Process.leads_to_of_server {e : Execution (Process.step debug) (Process.init quotes)}
    (hfair : ∀ i, e.StronglyFair ProcessAction.owner i) {P Q : Server → Prop}
    (h : ∀ e : Execution Server.step (Server.init quotes),
      (∀ i, e.StronglyFair Action.owner i) → e.LeadsTo P Q) :
    e.LeadsTo (fun p => P p.system.server)
      (fun p => p.main.closing = true ∨ Q p.system.server) := by
  intro n hn
  by_cases hclosing : ∃ m, n ≤ m ∧ (e.state m).main.closing = true
  · obtain ⟨m, hle, hm⟩ := hclosing
    exact ⟨m, hle, .inl hm⟩
  · have hmain : ∀ m, (e.state m).main.closing = false := by
      intro m
      by_contra hgave
      refine hclosing ⟨max n m, Nat.le_max_left n m, ?_⟩
      exact e.stable (P := fun p => p.main.closing = true)
        (fun _ hbefore hstep => Process.closing_step (Process.step_move hstep) hbefore)
        (by simpa using hgave) (Nat.le_max_right n m)
    have hserver := fun i => System.fair_on_server (Process.fair_on_system (hfair i) hmain)
    obtain ⟨m, hle, hm⟩ := h _ hserver n hn
    exact ⟨m, hle, .inr hm⟩

/-- What follows on the server from its ticker, unless somebody calls `shutdown`, happens in the
process once `main` has started the server. -/
theorem Process.leads_to_of_ticking {e : Execution (Process.step debug) (Process.init quotes)}
    (hfair : ∀ i, e.StronglyFair ProcessAction.owner i) {Q : Server → Prop}
    (hpanic : ∀ s : Server, s.poisoned = true → Q s)
    (h : ∀ e : Execution Server.step (Server.init quotes), (∀ i, e.StronglyFair Action.owner i) →
      e.LeadsTo (fun s => s.background 0 ≠ .exited) (fun s => s.shutdownFlag = true ∨ Q s)) :
    e.LeadsTo (fun p => p.main.started = true)
      (fun p => p.main.closing = true ∨ Q p.system.server) := by
  intro n hstarted
  by_cases hclosing : (e.state n).main.closing = true
  · exact ⟨n, le_rfl, .inl hclosing⟩
  have hrunning := Process.Reachable.running (e.reachable n)
  have hnone := hrunning.serving (by simpa using hclosing)
  obtain ⟨-, hspawned, -⟩ := (hrunning.startup hnone).stage.of_started hstarted
  rcases hrunning.ticker (Nat.lt_of_lt_of_eq Nat.one_pos hspawned.symm) with hticking | hpoisoned
  · obtain ⟨m, hle, hgave | hflag | hdone⟩ := Process.leads_to_of_server hfair h n hticking
    · exact ⟨m, hle, .inl hgave⟩
    · -- only `drop` sets the flag, and only after `main` has given up
      refine ⟨m, hle, .inl ?_⟩
      by_contra hserving
      have hlater := Process.Reachable.running (e.reachable m)
      have hdown := (hlater.startup (hlater.serving (by simpa using hserving))).flag
      exact Bool.false_ne_true (hdown.symm.trans hflag)
    · exact ⟨m, hle, .inr hdone⟩
  · exact ⟨n, le_rfl, .inr (hpanic _ hpoisoned)⟩

/-- The process notifies its clients again and again, until `main` gives up or an update panics. -/
theorem Process.notifies_for_ever {e : Execution (Process.step debug) (Process.init quotes)}
    (hfair : ∀ i, e.StronglyFair ProcessAction.owner i) (count : Nat) :
    e.LeadsTo (fun p => p.main.started = true) (fun p => p.main.closing = true ∨
      p.system.server.poisoned = true ∨ count ≤ p.system.server.history.count .notified) :=
  Process.leads_to_of_ticking hfair (fun _ hpoisoned => .inl hpoisoned) fun _ hfair =>
    Server.passes_begin_again hfair 0 count

/-- A stream is served any number of times, as long as its client is in the registry and `main` has
not given up, unless an update panics. -/
theorem Process.serves_streams {e : Execution (Process.step debug) (Process.init quotes)}
    (hfair : ∀ i, e.StronglyFair ProcessAction.owner i) (slot count : Nat) :
    e.LeadsTo (fun p => p.main.started = true) (fun p => p.main.closing = true ∨
      Server.live slot p.system.server.history = false ∨ p.system.server.Served slot count) :=
  Process.leads_to_of_ticking hfair (fun _ hpoisoned => .inr (.inr (.inl hpoisoned))) fun _ hfair =>
    Server.registered_client_is_served hfair 0 slot count

end Executions

end QuoteStreamer
