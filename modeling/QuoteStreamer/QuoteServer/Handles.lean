import QuoteStreamer.QuoteServer.Quiescence

/-!
# The handles of the server

Every thread that uses the server owns clones of its `Arc`, and a background thread owns one until
it ends, so `Drop for QuoteServer` runs on the thread that gives up the last of them. If the
background thread in the slot has ended when the last handle outside is dropped, that thread runs
`drop`, and no background thread is left. Otherwise the handle in the loop keeps the server alive.
-/

namespace QuoteStreamer

/-- Where a thread stands in `Drop for QuoteServer`, which calls `shutdown`. -/
inductive DropPoint where
  /-- `shutdown`, at `shutdown_flag.store(true)`. -/
  | flag
  /-- `shutdown`, at `bg_thread.lock()` and `guard.take()`. -/
  | take
  /-- `shutdown`, at `handle.join()`. -/
  | join (number : Nat)
  /-- `shutdown` has returned. -/
  | done
  deriving DecidableEq, Repr

/-- The server together with the `Arc`s that keep it alive. -/
structure Shared where
  server : Server
  /-- The owner of each handle outside the background threads. -/
  handles : List Caller
  /-- The background threads that still own their clone. -/
  holding : List Nat
  /-- The thread that executes `drop`. -/
  dropping : Option (ThreadId × DropPoint)

/-- The scheduler's choice of a step. -/
inductive SharedAction where
  /-- Some thread of the server makes a step. -/
  | server (action : Action)
  /-- `Arc::clone` outside: the clone goes to the second thread. -/
  | clone (k j : Caller)
  /-- A thread drops one of its handles. -/
  | drop (k : Caller)
  /-- The closure of a background thread ends and drops its clone. -/
  | release (b : Nat)
  /-- The thread that executes `drop` goes on. -/
  | dropping
  deriving DecidableEq, Repr

namespace Shared

/-- `from_config` has returned, and the caller has wrapped the server in an `Arc`. -/
def init (quotes : Quotes) : Shared where
  server := Server.init quotes
  handles := [.other 0]
  holding := []
  dropping := none

/-- A method is called through a handle of the calling thread, and a thread is joined when its
closure has been dropped. -/
def enabled (s : Shared) : Action → Bool
  | .call k _ => k ∈ s.handles
  | .caller k =>
      match s.server.callers k with
      | .shutdownJoin number => number ∉ s.holding
      | _ => true
  | _ => true

/-- Whoever gives up the last `Arc` executes `drop`. -/
def released (s : Shared) (thread : ThreadId) : Shared :=
  if s.handles = [] ∧ s.holding = [] then { s with dropping := some (thread, .flag) } else s

/-- One step of the thread that executes `drop`. -/
def dropStep (s : Shared) : Option Shared :=
  match s.dropping with
  | some (thread, .flag) =>
      some { s with
        server := { s.server with shutdownFlag := true }
        dropping := some (thread, .take) }
  | some (thread, .take) =>
      if s.server.bgLock = none then
        let next := match s.server.bgThread with
          | some number => .join number
          | none => .done
        some { s with
          server := { s.server with bgThread := none }
          dropping := some (thread, next) }
      else none
  | some (thread, .join number) =>
      -- a thread that joins itself goes no further: the deadlock is reported, and `join` panics
      if number ∉ s.holding ∧ thread ≠ .background number then
        some { s with dropping := some (thread, .done) }
      else none
  | some (_, .done) | none => none

/-- One step under the scheduler's choice. -/
def step (s : Shared) : SharedAction → Option Shared
  | .server action =>
      if s.enabled action then
        (s.server.step action).map fun next =>
          { s with
            server := next
            -- `start` clones the `Arc` for the thread that it spawns
            holding := if next.bgSpawned = s.server.bgSpawned then s.holding
              else s.server.bgSpawned :: s.holding }
      else none
  | .clone k j =>
      match s.server.callers k with
      | .idle => if k ∈ s.handles then some { s with handles := j :: s.handles } else none
      | _ => none
  | .drop k =>
      match s.server.callers k with
      | .idle =>
          if k ∈ s.handles then
            some ({ s with handles := s.handles.erase k }.released (.caller k))
          else none
      | _ => none
  | .release b =>
      if b ∈ s.holding ∧ s.server.background b = .exited then
        some ({ s with holding := s.holding.erase b }.released (.background b))
      else none
  | .dropping => s.dropStep

/-- When the last handle outside is dropped, the background thread in the slot, if there is one, has
ended. -/
def Prompt (s : Shared) (action : SharedAction) : Prop :=
  ∀ k, action = .drop k → s.handles = [k] →
    ∀ number, s.server.bgThread = some number → number ∉ s.holding

/-- The handles outside are gone, and so is the thread that drops the last of them, at least past
the point where `drop` sets the flag. -/
def Dropped (s : Shared) : Prop :=
  s.handles = [] ∧ ∀ k, s.dropping ≠ some (.caller k, .flag)

/-- What the `Arc`s have to do with the threads, in runs where the last handle outside is dropped
after the end of the background threads. -/
structure Counted (quotes : Quotes) (s : Shared) : Prop where
  owned : ∀ k, s.server.callers k ≠ .idle → k ∈ s.handles
  ended : ∀ b, b ∉ s.holding → s.server.background b = .exited
  kept : ∀ b ∈ s.holding, s.server.life.Kept b
  reachable : s.handles ≠ [] → Server.Reachable quotes s.server
  gone : s.handles = [] → s.holding = []
  flagged : s.Dropped → s.server.shutdownFlag = true
  dropped : ∀ thread point, s.dropping = some (thread, point) → s.handles = [] ∧
    ∃ k, thread = .caller k

variable {s t : Shared} {quotes : Quotes} {action : Action} {k : Caller} {b : Nat}

theorem counted_init (quotes : Quotes) : Counted quotes (init quotes) where
  owned _ h := absurd rfl h
  ended _ _ := rfl
  kept _ := nofun
  reachable _ := .refl
  gone := nofun
  flagged h := by cases h.1
  dropped _ _ := nofun

/-- Whoever stores a handle has found the slot empty. -/
theorem storing_of_reachable {s : Server} (h : Server.Reachable quotes s)
    (k : Caller) (number : Nat)
    (hk : s.life.calls k = .startStore number) : s.life.slot = none := by
  refine Transition.Reaches.invariant_with
    (fun s : Server => ∀ k number, s.life.calls k = .startStore number → s.life.slot = none) h
    (fun hrun => (hrun : Server.Reachable quotes _)) (fun _ _ => nofun) ?_ k number hk
  intro state next action hstate _ hinv _ hstep
  rcases Server.life_move (Server.Reachable.answers hstate) (Server.step_move hstep) with
    hsame | hmove
  · rw [hsame]
    exact hinv
  · exact Covered.storing_step (Server.Reachable.one_ticker hstate) hinv hmove

/-- A caller in a call owns a handle. -/
theorem owned_step {s next : Server} {handles : List Caller}
    (h : ∀ k, s.callers k ≠ .idle → k ∈ handles)
    (hcall : ∀ k request, action = .call k request → k ∈ handles)
    (hstep : s.step action = some next) (k : Caller) (hk : next.callers k ≠ .idle) :
    k ∈ handles := by
  rcases Server.callers_step (Server.step_move hstep) (k := k) with
    hsame | rfl | ⟨request, rfl⟩ | rfl
  · exact h k (hsame ▸ hk)
  · refine h k fun hidle => ?_
    simp [Server.step, Server.callerStep, hidle] at hstep
  · exact hcall k request rfl
  · refine h k fun hidle => ?_
    simp [Server.step, hidle] at hstep

/-- When nobody is in a call and no background thread is left, only client threads move. -/
theorem only_clients {s t : Server} (hidle : ∀ k, s.callers k = .idle)
    (hended : ∀ b, s.background b = .exited) (hcall : ∀ k request, action ≠ .call k request)
    (hstep : s.step action = some t) :
    t.callers = s.callers ∧ t.background = s.background ∧ t.life = s.life := by
  cases action with
  | call k request => exact absurd rfl (hcall k request)
  | caller k => simp [Server.step, Server.callerStep, hidle] at hstep
  | take k => simp [Server.step, hidle] at hstep
  | background b choice => cases choice <;>
    simp [Server.step, Server.backgroundStep, hended] at hstep
  | client slot result => cases Server.step_move hstep <;> exact ⟨rfl, rfl, rfl⟩

section Holding

variable {l m : Life} {holding : List Nat}

/-- A thread that owns no clone has ended, or has never been spawned. -/
theorem ended_step (hmove : LifeMove l action m) (h : ∀ b, b ∉ holding → l.phases b = .ended)
    (hb : b ∉ if m.spawned = l.spawned then holding else l.spawned :: holding) :
    m.phases b = .ended := by
  by_cases hspawned : m.spawned = l.spawned
  · rw [if_pos hspawned] at hb
    cases hmove with
    | startSpawn => exact absurd hspawned (Nat.succ_ne_self _)
    | check c hat | finish c hat | panic c hat => exact Locks.stays (h b hb) (by rw [hat]; nofun)
    | _ => exact h b hb
  · rw [if_neg hspawned, List.mem_cons, not_or] at hb
    cases hmove with
    | startSpawn => exact (Function.update_of_ne hb.1 _ _).trans (h b hb.2)
    | _ => exact absurd rfl hspawned

/-- The handle of a thread that owns a clone is in the slot or with a caller. -/
theorem kept_step (hone : OneTicker l)
    (hstoring : ∀ k number, l.calls k = .startStore number → l.slot = none)
    (hjoin : ∀ k number, action = .caller k → l.calls k = .shutdownJoin number → number ∉ holding)
    (hmove : LifeMove l action m) (h : ∀ b ∈ holding, l.Kept b)
    (hb : b ∈ if m.spawned = l.spawned then holding else l.spawned :: holding) : m.Kept b := by
  have hbefore : b ∈ holding → m.Kept b := fun hmem =>
    Covered.kept_step hone hstoring (fun k hk hat => hjoin k b hk hat hmem) hmove (h b hmem)
  by_cases hspawned : m.spawned = l.spawned
  · rw [if_pos hspawned] at hb
    exact hbefore hb
  · rw [if_neg hspawned] at hb
    rcases List.mem_cons.mp hb with rfl | hmem
    · cases hmove with
      | startSpawn k hat hnone => exact .inr ⟨k, .inl (Function.update_self ..)⟩
      | _ => exact absurd rfl hspawned
    · exact hbefore hmem

end Holding

theorem server_step (h : Counted quotes s) (henabled : s.enabled action = true) {next : Server}
    (hstep : s.server.step action = some next) :
    Counted quotes { s with
      server := next
      holding := if next.bgSpawned = s.server.bgSpawned then s.holding
        else s.server.bgSpawned :: s.holding } := by
  by_cases hhandles : s.handles = []
  · -- without a handle only the threads of the clients are left
    have hholding := h.gone hhandles
    have hidle : ∀ k, s.server.callers k = .idle := by
      intro k
      by_contra hk
      have hmem := h.owned k hk
      rw [hhandles] at hmem
      cases hmem
    have hended : ∀ b, s.server.background b = .exited := fun b =>
      h.ended b (by rw [hholding]; exact List.not_mem_nil)
    obtain ⟨hcallers, hbackground, hlife⟩ := only_clients hidle hended (by
      rintro k request rfl
      simp [enabled, hhandles] at henabled) hstep
    have hspawned : next.bgSpawned = s.server.bgSpawned := congrArg Life.spawned hlife
    rw [if_pos hspawned]
    exact {
      owned := fun k hk => h.owned k (hcallers ▸ hk)
      ended := fun b hb => by
        show next.background b = _
        rw [hbackground]
        exact hended b
      kept := fun b hb => by
        rw [show s.holding = [] from hholding] at hb
        cases hb
      reachable := fun hne => absurd hhandles hne
      gone := fun _ => hholding
      flagged := fun hdropped => (congrArg Life.flag hlife).trans (h.flagged hdropped)
      dropped := h.dropped }
  · -- with a handle the run so far is one of the server, whose invariants apply
    have hreachable := h.reachable hhandles
    have hmove := Server.step_move hstep
    have hlife := Server.life_move (Server.Reachable.answers hreachable) hmove
    have hended : ∀ b, b ∉ s.holding → s.server.life.phases b = .ended := fun b hb =>
      Server.life_ended_iff.mpr (h.ended b hb)
    have hjoin : ∀ k number, action = .caller k → s.server.life.calls k = .shutdownJoin number →
        number ∉ s.holding := by
      rintro k number rfl hat
      simpa [enabled, Server.life_eq_iff.mp hat] using henabled
    have hthreads : (∀ b, b ∉ (if next.bgSpawned = s.server.bgSpawned then s.holding
          else s.server.bgSpawned :: s.holding) → next.life.phases b = .ended) ∧
        ∀ b ∈ (if next.bgSpawned = s.server.bgSpawned then s.holding
          else s.server.bgSpawned :: s.holding), next.life.Kept b := by
      rcases hlife with hsame | hlife
      · have hspawned : next.bgSpawned = s.server.bgSpawned := congrArg Life.spawned hsame
        rw [if_pos hspawned, hsame]
        exact ⟨hended, h.kept⟩
      · exact ⟨fun b hb => ended_step hlife hended hb, fun b hb =>
          kept_step (Server.Reachable.one_ticker hreachable) (storing_of_reachable hreachable) hjoin
            hlife h.kept hb⟩
    exact {
      owned := owned_step h.owned (by
        rintro k request rfl
        simpa [enabled] using henabled) hstep
      ended := fun b hb => Server.life_ended_iff.mp (hthreads.1 b hb)
      kept := hthreads.2
      reachable := fun _ => .tail hreachable trivial hstep
      gone := fun hnil => absurd hnil hhandles
      flagged := fun hdropped => absurd hdropped.1 hhandles
      dropped := h.dropped }

theorem drop_step (h : Counted quotes s) (hidle : s.server.callers k = .idle) (hk : k ∈ s.handles)
    (hprompt : s.Prompt (.drop k)) :
    Counted quotes ({ s with handles := s.handles.erase k }.released (.caller k)) := by
  have hgone : s.handles.erase k = [] → s.holding = [] := by
    intro hnil
    have hlast : s.handles = [k] :=
      (List.erase_eq_nil_iff.mp hnil).resolve_left (List.ne_nil_of_mem hk)
    -- nobody is inside a call: the last handle is that of an idle caller
    have hall : ∀ j, s.server.callers j = .idle := by
      intro j
      by_contra hj
      have hmem := h.owned j hj
      rw [hlast, List.mem_singleton] at hmem
      rw [hmem] at hj
      exact hj hidle
    refine List.eq_nil_iff_forall_not_mem.mpr fun b hb => ?_
    rcases h.kept b hb with hslot | ⟨j, hj⟩
    · exact hprompt k rfl hlast b hslot hb
    · have haway : s.server.life.calls j = .away := congrArg Call.life (hall j)
      rcases hj with hj | hj <;> rw [haway] at hj <;> cases hj
  have howned : ∀ j, s.server.callers j ≠ .idle → j ∈ s.handles.erase k := by
    intro j hj
    have hne : j ≠ k := by
      rintro rfl
      exact hj hidle
    exact (List.mem_erase_of_ne hne).mpr (h.owned j hj)
  have hreachable := h.reachable (List.ne_nil_of_mem hk)
  unfold released
  split
  · next hlast =>
      exact {
        owned := howned
        ended := h.ended
        kept := h.kept
        reachable := fun _ => hreachable
        gone := fun _ => hlast.2
        flagged := fun hdropped => absurd rfl (hdropped.2 k)
        dropped := fun thread point hdropping => by
          cases hdropping
          exact ⟨hlast.1, k, rfl⟩ }
  · next hnot =>
      exact {
        owned := howned
        ended := h.ended
        kept := h.kept
        reachable := fun _ => hreachable
        gone := hgone
        flagged := fun hdropped => absurd ⟨hdropped.1, hgone hdropped.1⟩ hnot
        dropped := fun thread point hdropping =>
          absurd (h.dropped thread point hdropping).1 (List.ne_nil_of_mem hk) }

theorem release_step (h : Counted quotes s) (hb : b ∈ s.holding)
    (hexited : s.server.background b = .exited) :
    Counted quotes ({ s with holding := s.holding.erase b }.released (.background b)) := by
  have hhandles : s.handles ≠ [] := by
    intro hnil
    rw [h.gone hnil] at hb
    cases hb
  unfold released
  rw [if_neg fun hlast => hhandles hlast.1]
  exact {
    owned := h.owned
    ended := fun c hc => by
      by_cases hcb : c = b
      · rw [hcb]
        exact hexited
      · exact h.ended c fun hmem => hc ((List.mem_erase_of_ne hcb).mpr hmem)
    kept := fun c hc => h.kept c (List.mem_of_mem_erase hc)
    reachable := h.reachable
    gone := fun hnil => absurd hnil hhandles
    flagged := fun hdropped => absurd hdropped.1 hhandles
    dropped := h.dropped }

/-- Inside `drop` no background thread is left, and nobody is in a call. -/
theorem dropping_counted (h : Counted quotes s) {thread : ThreadId} {point : DropPoint}
    (hdropping : s.dropping = some (thread, point)) (server : Server)
    (hcallers : server.callers = s.server.callers)
    (hbackground : server.background = s.server.background)
    (hflag : server.shutdownFlag = true) (next : DropPoint) :
    Counted quotes { s with server := server, dropping := some (thread, next) } := by
  obtain ⟨hhandles, howner⟩ := h.dropped thread point hdropping
  have hholding := h.gone hhandles
  exact {
    owned := fun k hk => h.owned k (hcallers ▸ hk)
    ended := fun b hb => by
      show server.background b = _
      rw [hbackground]
      exact h.ended b hb
    kept := fun b hb => by
      rw [show s.holding = [] from hholding] at hb
      cases hb
    reachable := fun hne => absurd hhandles hne
    gone := fun _ => hholding
    flagged := fun _ => hflag
    dropped := fun other _ hother => by
      cases hother
      exact ⟨hhandles, howner⟩ }

theorem dropping_step (h : Counted quotes s) (hstep : s.dropStep = some t) : Counted quotes t := by
  have hflag : ∀ {thread : ThreadId} {point : DropPoint}, s.dropping = some (thread, point) →
      point ≠ .flag → s.server.shutdownFlag = true := by
    intro thread point hdropping hpoint
    refine h.flagged ⟨(h.dropped thread point hdropping).1, fun k hk => ?_⟩
    rw [hdropping] at hk
    cases hk
    exact hpoint rfl
  unfold dropStep at hstep
  split at hstep
  · next thread hdropping =>
      cases hstep
      exact dropping_counted h hdropping { s.server with shutdownFlag := true } rfl rfl rfl .take
  · next thread hdropping =>
      split at hstep
      · cases hstep
        exact dropping_counted h hdropping { s.server with bgThread := none } rfl rfl
          (hflag hdropping nofun) _
      · cases hstep
  · next thread number hdropping =>
      split at hstep
      · cases hstep
        exact dropping_counted h hdropping s.server rfl rfl (hflag hdropping nofun) .done
      · cases hstep
  · cases hstep
  · cases hstep

theorem counted_step {action : SharedAction} (h : Counted quotes s) (hprompt : s.Prompt action)
    (hstep : s.step action = some t) : Counted quotes t := by
  cases action with
  | server action =>
      simp only [step] at hstep
      split at hstep
      · next henabled =>
          obtain ⟨next, hnext, rfl⟩ := Option.map_eq_some_iff.mp hstep
          exact server_step h henabled hnext
      · cases hstep
  | clone k j =>
      simp only [step] at hstep
      split at hstep
      · split at hstep
        · next hk =>
            cases hstep
            have hhandles : s.handles ≠ [] := List.ne_nil_of_mem hk
            exact {
              owned := fun i hi => List.mem_cons_of_mem j (h.owned i hi)
              ended := h.ended
              kept := h.kept
              reachable := fun _ => h.reachable hhandles
              gone := nofun
              flagged := fun hdropped => by cases hdropped.1
              dropped := fun thread point hdropping =>
                absurd (h.dropped thread point hdropping).1 hhandles }
        · cases hstep
      · cases hstep
  | drop k =>
      simp only [step] at hstep
      split at hstep
      · next hidle =>
          split at hstep
          · next hk =>
              cases hstep
              exact drop_step h hidle hk hprompt
          · cases hstep
      · cases hstep
  | release b =>
      simp only [step] at hstep
      split at hstep
      · next hb =>
          cases hstep
          exact release_step h hb.1 hb.2
      · cases hstep
  | dropping => exact dropping_step h hstep

theorem counted_reaches (h : Transition.Reaches step Prompt (init quotes) s) : Counted quotes s :=
  Transition.Reaches.invariant (fun s : Shared => Counted quotes s) h (counted_init quotes)
    counted_step

/-- Handles come from handles. -/
theorem handles_gone {action : SharedAction} (hstep : s.step action = some t) (h : s.handles = []) :
    t.handles = [] := by
  cases action with
  | server action =>
      simp only [step] at hstep
      split at hstep
      · obtain ⟨next, -, rfl⟩ := Option.map_eq_some_iff.mp hstep
        exact h
      · cases hstep
  | clone k j =>
      simp only [step, h, List.not_mem_nil, if_false] at hstep
      split at hstep <;> cases hstep
  | drop k =>
      simp only [step, h, List.not_mem_nil, if_false] at hstep
      split at hstep <;> cases hstep
  | release b =>
      simp only [step, released] at hstep
      split at hstep
      · cases hstep
        split <;> exact h
      · cases hstep
  | dropping =>
      simp only [step, dropStep] at hstep
      split at hstep
      · cases hstep
        exact h
      · split at hstep
        · cases hstep
          exact h
        · cases hstep
      · split at hstep
        · cases hstep
          exact h
        · cases hstep
      · cases hstep
      · cases hstep

/-- If the background thread in the slot has ended when the last handle outside is dropped, the
flag is set once the handles are gone, no background thread ticks from then on, and no thread
joins itself in `drop`. -/
theorem drop_stops_cleanly (h : Transition.Reaches step Prompt (init quotes) s) :
    (s.Dropped → s.server.shutdownFlag = true) ∧
    (s.handles = [] → ∀ t, Transition.Reaches step Prompt s t → ∀ b, ¬ t.server.Ticking b) ∧
    ∀ thread number, s.dropping = some (thread, .join number) → thread ≠ .background number := by
  have hcounted := counted_reaches h
  refine ⟨hcounted.flagged, fun hhandles t hrest b hticking => ?_, ?_⟩
  · have hgone : t.handles = [] :=
      Transition.Reaches.invariant (fun t : Shared => t.handles = []) hrest hhandles
        fun hnil _ hstep => handles_gone hstep hnil
    have hlater := counted_reaches (h.trans hrest)
    refine hticking.2 (hlater.ended b ?_)
    rw [hlater.gone hgone]
    exact List.not_mem_nil
  · rintro thread number hdropping rfl
    obtain ⟨-, k, hk⟩ := hcounted.dropped _ _ hdropping
    cases hk

/-- The caller calls `start` and takes its value. -/
def starting : List SharedAction :=
  (Server.calling 0 .start 3 ++ [Action.take (.other 0)]).map .server

/-- The caller calls `shutdown`, and the background thread ends at its next check. -/
def stopping : List SharedAction :=
  (Server.calling 0 .shutdown 3 ++ [Action.background 0 .proceed]).map .server ++
    [.release 0, .server (.caller (.other 0)), .server (.take (.other 0))]

theorem drop_stops_cleanly_joined : ∃ s : Shared, s.dropping = some (.caller (.other 0), .done) ∧
    s.server.bgSpawned = 1 ∧ s.server.shutdownFlag = true := by
  obtain ⟨u, hbefore, hholding, v, hdrop, s, hafter, hhandles, hdropping, hspawned⟩ : ∃ u,
      Transition.run step (init ∅) (starting ++ stopping) = some u ∧ u.holding = [] ∧
      ∃ v, step u (.drop (.other 0)) = some v ∧
      ∃ s, Transition.run step v [.dropping, .dropping] = some s ∧
      s.handles = [] ∧ s.dropping = some (.caller (.other 0), .done) ∧ s.server.bgSpawned = 1 :=
    ⟨_, rfl, rfl, _, rfl, _, rfl, rfl, rfl, rfl⟩
  have hfirst : Transition.Reaches step Prompt (init ∅) u :=
    Transition.reaches_of_run hbefore fun action hmem _ k hk => by
      subst hk
      simp [starting, stopping, Server.calling] at hmem
  have hprompt : u.Prompt (.drop (.other 0)) := by
    rintro k - - number -
    rw [hholding]
    exact List.not_mem_nil
  have hlast : Transition.Reaches step Prompt v s :=
    Transition.reaches_of_run hafter fun action hmem _ k hk => by
      subst hk
      simp at hmem
  have hs := (hfirst.trans (.single hprompt hdrop)).trans hlast
  have hdropped : s.Dropped := ⟨hhandles, fun k => by rw [hdropping]; nofun⟩
  exact ⟨s, hdropping, hspawned, (drop_stops_cleanly hs).1 hdropped⟩

/-- The handle in the loop keeps the server alive after the last handle outside is gone, and the
ticks go on; and the thread that gives up the last handle may find itself in the slot. -/
theorem loop_keeps_server : (∃ s, Transition.Reachable step (init ∅) s ∧ s.Dropped ∧
      s.server.shutdownFlag = false ∧ s.server.Ticking 0) ∧
    ∃ s, Transition.Reachable step (init ∅) s ∧ s.dropping = some (.background 1, .join 1) := by
  constructor
  · obtain ⟨s, hrun, hhandles, hdropping, hflag, hat⟩ : ∃ s : Shared, Transition.run step (init ∅)
        (starting ++ [.drop (.other 0), .server (.background 0 .proceed)]) = some s ∧
        s.handles = [] ∧ s.dropping = none ∧ s.server.shutdownFlag = false ∧
        s.server.background 0 = .sleep := ⟨_, rfl, rfl, rfl, rfl, rfl⟩
    refine ⟨s, Transition.reachable_of_run hrun,
      ⟨hhandles, fun k => by simp [hdropping]⟩, hflag, ?_⟩
    simp [Server.Ticking, hat]
  · obtain ⟨s, hrun, hdropping⟩ : ∃ s : Shared, Transition.run step (init ∅)
        (starting ++ stopping ++ starting ++
          [.server (.background 1 .proceed), .drop (.other 0), .release 1, .dropping, .dropping]) =
          some s ∧ s.dropping = some (.background 1, .join 1) := ⟨_, rfl, rfl⟩
    exact ⟨s, Transition.reachable_of_run hrun, hdropping⟩

end Shared

end QuoteStreamer
