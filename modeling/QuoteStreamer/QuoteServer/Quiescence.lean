import QuoteStreamer.QuoteServer.Ticker

/-!
# Shutdown and the tick under way

`shutdown` waits for the thread whose handle it has found in the slot. Another `shutdown` that comes
while the first one is waiting finds the slot empty, or with the handle of a thread that `start` has
spawned since, and returns while the tick is still under way. As long as that does not happen, no
thread ticks once a `shutdown` has returned.
-/

namespace QuoteStreamer

/-- A caller that looks into the slot finds nobody waiting for a thread that has not ended. -/
def Life.Alone (l : Life) (action : Action) : Prop :=
  ∀ k, action = .caller k → l.calls k = .shutdownTake →
    ∀ j number, l.calls j = .shutdownJoin number → l.phases number = .ended

/-- The handle of the thread is in the slot, or with a caller that is about to store it or waits for
the thread. -/
def Life.Kept (l : Life) (b : Nat) : Prop :=
  l.slot = some b ∨ ∃ k, l.calls k = .startStore b ∨ l.calls k = .shutdownJoin b

/-- Where the handle of the ticking thread is, and who knows that it does not tick. -/
structure Covered (l : Life) : Prop where
  handle : l.phases 0 ≠ .ended → l.Kept 0
  storing : ∀ k number, l.calls k = .startStore number → l.slot = none
  joining : ∀ k number, l.calls k = .shutdownJoin number → number ≠ 0 → l.phases 0 ≠ .tick
  stopped : ∀ k, l.calls k = .stopped → l.phases 0 ≠ .tick

namespace Covered

variable {l m : Life} {action : Action} {j k : Caller} {b : Nat}

/-- Once the flag is set, no thread begins a tick. -/
theorem not_tick_step (hmove : LifeMove l action m) (hflag : l.flag = true)
    (hb : l.phases b ≠ .tick) : m.phases b ≠ .tick := by
  cases hmove with
  | startSpawn | finish | panic => exact Locks.keeps_away nofun fun _ => hb
  | check c hat =>
      rw [hflag]
      exact Locks.keeps_away nofun fun _ => hb
  | _ => exact hb

/-- Whoever is about to store a handle has found the slot empty. -/
theorem storing_step (hone : OneTicker l)
    (h : ∀ k number, l.calls k = .startStore number → l.slot = none) (hmove : LifeMove l action m)
    (j : Caller) (number : Nat) (hj : m.calls j = .startStore number) : m.slot = none := by
  cases hmove with
  | startSpawn k hat hnone => exact hnone
  | startStore k other hat =>
      -- the caller that stores its handle is the only one under the mutex
      rcases Locks.moved_cases hj with ⟨-, hcall⟩ | ⟨hne, hj⟩
      · cases hcall
      · exact absurd (hone.lock.unique (by rw [hj]; rfl) (by rw [hat]; rfl)) hne
  | shutdownTake | shutdownNone => rfl
  | start | shutdown | take | startLock | startRunning | shutdownFlag | shutdownLock
  | shutdownJoin =>
      rcases Locks.moved_cases hj with ⟨-, hcall⟩ | ⟨-, hj⟩
      · cases hcall
      · exact h j number hj
  | check | finish | panic => exact h j number hj

/-- Who has the handle of a thread keeps it while another caller moves. -/
theorem keeper_kept {call : LifeCall} (hstore : l.calls k ≠ .startStore b)
    (hjoin : l.calls k ≠ .shutdownJoin b)
    (h : ∃ j, l.calls j = .startStore b ∨ l.calls j = .shutdownJoin b) :
    ∃ j, Function.update l.calls k call j = .startStore b ∨
      Function.update l.calls k call j = .shutdownJoin b := by
  obtain ⟨j, hj | hj⟩ := h
  · exact ⟨j, .inl (Locks.stays hj hstore)⟩
  · exact ⟨j, .inr (Locks.stays hj hjoin)⟩

/-- A handle goes from the caller that stores it to the slot and on to a caller that waits, and is
given up only when that wait is over. -/
theorem kept_step (hone : OneTicker l)
    (hstoring : ∀ k number, l.calls k = .startStore number → l.slot = none)
    (hjoin : ∀ k, action = .caller k → l.calls k ≠ .shutdownJoin b) (hmove : LifeMove l action m)
    (h : l.Kept b) : m.Kept b := by
  have hkeep : ∀ {k : Caller} {call : LifeCall}, l.calls k ≠ .startStore b →
      l.calls k ≠ .shutdownJoin b → l.slot = some b ∨
        ∃ j, Function.update l.calls k call j = .startStore b ∨
          Function.update l.calls k call j = .shutdownJoin b :=
    fun hstore hjoin => h.imp_right (keeper_kept hstore hjoin)
  cases hmove with
  | startStore k number hat =>
      rcases h with hslot | ⟨j, hj | hj⟩
      · rw [hstoring k number hat] at hslot
        cases hslot
      · -- both are under the mutex
        obtain rfl : j = k := hone.lock.unique (by rw [hj]; rfl) (by rw [hat]; rfl)
        rw [hat] at hj
        cases hj
        exact .inl rfl
      · exact .inr ⟨j, .inr (Locks.stays hj (by rw [hat]; nofun))⟩
  | shutdownTake k number hat hsome =>
      rcases h with hslot | hkeeper
      · obtain rfl : number = b := Option.some.inj (hsome.symm.trans hslot)
        exact .inr ⟨k, .inr (Function.update_self ..)⟩
      · exact .inr (keeper_kept (by rw [hat]; nofun) (by rw [hat]; nofun) hkeeper)
  | shutdownNone k hat hnone =>
      rcases h with hslot | hkeeper
      · rw [hnone] at hslot
        cases hslot
      · exact .inr (keeper_kept (by rw [hat]; nofun) (by rw [hat]; nofun) hkeeper)
  | shutdownJoin k number hat => exact hkeep (by rw [hat]; nofun) (hjoin k rfl)
  | take k hat => refine hkeep ?_ ?_ <;> rcases hat with hat | hat <;> rw [hat] <;> nofun
  | start k hat | shutdown k hat | startLock k hat | startRunning k hat | startSpawn k hat
  | shutdownFlag k hat | shutdownLock k hat => exact hkeep (by rw [hat]; nofun) (by rw [hat]; nofun)
  | check | finish | panic => exact h

theorem handle_step (hone : OneTicker l) (h : Covered l) (hmove : LifeMove l action m)
    (hphase : m.phases 0 ≠ .ended) : m.Kept 0 := by
  by_cases hended : l.phases 0 = .ended
  · -- a thread that had ended runs because it has just been spawned
    cases hmove with
    | startSpawn k hat hnone =>
        by_cases hfirst : l.spawned = 0
        · rw [hfirst]
          exact .inr ⟨k, .inl (Function.update_self ..)⟩
        · exact absurd ((Function.update_of_ne (Ne.symm hfirst) _ _).trans hended) hphase
    | check c hat | finish c hat | panic c hat =>
        exact absurd (Locks.stays hended (by rw [hat]; nofun)) hphase
    | _ => exact absurd hended hphase
  · refine kept_step hone h.storing (fun k hk hat => ?_) hmove (h.handle hended)
    subst hk
    cases hmove with
    | shutdownJoin _ number hjoin hnumber =>
        rw [hat] at hjoin
        cases hjoin
        exact hended hnumber
    | startLock _ hpoint | startRunning _ hpoint | startSpawn _ hpoint | startStore _ _ hpoint
    | shutdownFlag _ hpoint | shutdownLock _ hpoint | shutdownTake _ _ hpoint
    | shutdownNone _ hpoint =>
        rw [hat] at hpoint
        cases hpoint

/-- Nobody ticks when a caller that is alone finds no handle, or the handle of a later thread. -/
theorem not_tick_of_take (hone : OneTicker l) (h : Covered l) (halone : l.Alone (.caller k))
    (hat : l.calls k = .shutdownTake) (hslot : l.slot ≠ some 0) : l.phases 0 ≠ .tick := by
  intro htick
  rcases h.handle (by rw [htick]; nofun) with hzero | ⟨j, hj | hj⟩
  · exact hslot hzero
  · obtain rfl : j = k := hone.lock.unique (by rw [hj]; rfl) (by rw [hat]; rfl)
    rw [hat] at hj
    cases hj
  · rw [halone k rfl hat j 0 hj] at htick
    cases htick

theorem joining_step (hone : OneTicker l) (h : Covered l) (halone : l.Alone action)
    (hmove : LifeMove l action m) (j : Caller) (number : Nat)
    (hj : m.calls j = .shutdownJoin number) (hnumber : number ≠ 0) : m.phases 0 ≠ .tick := by
  have hkeep : l.calls j = .shutdownJoin number → m.phases 0 ≠ .tick := fun hbefore =>
    not_tick_step hmove (hone.stopping j (by rw [hbefore]; rfl))
      (h.joining j number hbefore hnumber)
  cases hmove with
  | shutdownTake k other hat hsome =>
      rcases Locks.moved_cases hj with ⟨-, hcall⟩ | ⟨-, hj⟩
      · cases hcall
        have hnot := not_tick_of_take hone h halone hat (by rw [hsome]; simpa using hnumber)
        exact hnot
      · exact hkeep hj
  | start | shutdown | take | startLock | startRunning | startSpawn | startStore | shutdownFlag
  | shutdownLock | shutdownNone | shutdownJoin =>
      rcases Locks.moved_cases hj with ⟨-, hcall⟩ | ⟨-, hj⟩
      · cases hcall
      · exact hkeep hj
  | check | finish | panic => exact hkeep hj

theorem stopped_step (hone : OneTicker l) (h : Covered l) (halone : l.Alone action)
    (hmove : LifeMove l action m) (j : Caller) (hj : m.calls j = .stopped) :
    m.phases 0 ≠ .tick := by
  have hkeep : l.calls j = .stopped → m.phases 0 ≠ .tick := fun hbefore =>
    not_tick_step hmove (hone.stopping j (by rw [hbefore]; rfl)) (h.stopped j hbefore)
  cases hmove with
  | shutdownNone k hat hnone =>
      rcases Locks.moved_cases hj with ⟨-, -⟩ | ⟨-, hj⟩
      · have hnot := not_tick_of_take hone h halone hat (by rw [hnone]; nofun)
        exact hnot
      · exact hkeep hj
  | shutdownJoin k number hat hended =>
      rcases Locks.moved_cases hj with ⟨-, -⟩ | ⟨-, hj⟩
      · by_cases hnumber : number = 0
        · subst hnumber
          exact fun htick => by simp [show l.phases 0 = .tick from htick] at hended
        · exact h.joining k number hat hnumber
      · exact hkeep hj
  | start | shutdown | take | startLock | startRunning | startSpawn | startStore | shutdownFlag
  | shutdownLock | shutdownTake =>
      rcases Locks.moved_cases hj with ⟨-, hcall⟩ | ⟨-, hj⟩
      · cases hcall
      · exact hkeep hj
  | check | finish | panic => exact hkeep hj

theorem step (hone : OneTicker l) (h : Covered l) (halone : l.Alone action)
    (hmove : LifeMove l action m) : Covered m where
  handle := handle_step hone h hmove
  storing := storing_step hone h.storing hmove
  joining := joining_step hone h halone hmove
  stopped := stopped_step hone h halone hmove

end Covered

namespace Server

variable {s t : Server} {quotes : Quotes} {action : Action}

/-- A `shutdown` that looks into the handle slot finds no other waiting for a thread that has not
ended. -/
def Alone (s : Server) (action : Action) : Prop :=
  ∀ k, action = .caller k → s.callers k = .shutdownTake →
    ∀ j number, s.callers j = .shutdownJoin number → s.background number = .exited

theorem life_eq_iff {k : Caller} {number : Nat} :
    s.life.calls k = .shutdownJoin number ↔ s.callers k = .shutdownJoin number := by
  show (s.callers k).life = _ ↔ _
  cases s.callers k with
  | returned reply => cases reply <;> simp [Call.life]
  | _ => simp [Call.life]

theorem life_take_iff {k : Caller} :
    s.life.calls k = .shutdownTake ↔ s.callers k = .shutdownTake := by
  show (s.callers k).life = _ ↔ _
  cases s.callers k with
  | returned reply => cases reply <;> simp [Call.life]
  | _ => simp [Call.life]

theorem life_ended_iff {b : Nat} : s.life.phases b = .ended ↔ s.background b = .exited := by
  show (s.background b).phase = _ ↔ _
  cases s.background b <;> simp [Background.phase]

theorem Alone.life (h : s.Alone action) : s.life.Alone action := by
  intro k hk hat j number hj
  exact life_ended_iff.mpr (h k hk (life_take_iff.mp hat) j number (life_eq_iff.mp hj))

theorem covered_init (quotes : Quotes) : Covered (init quotes).life where
  handle h := absurd rfl h
  storing _ _ := nofun
  joining _ _ := nofun
  stopped _ := nofun

theorem covered_reaches (h : Transition.Reaches step Alone (init quotes) s) : Covered s.life := by
  have hknown : ∀ {t : Server}, Transition.Reaches step Alone (init quotes) t →
      Reachable quotes t :=
    fun hrun => hrun.reachable
  refine Transition.Reaches.invariant_with (fun s : Server => Covered s.life) h hknown
    (covered_init quotes) ?_
  intro state next action hstate _ hinv halone hstep
  rcases life_move (Reachable.answers hstate) (step_move hstep) with hsame | hmove
  · rw [hsame]
    exact hinv
  · exact hinv.step (Reachable.one_ticker hstate) halone.life hmove

/-- When the flag is set and nobody ticks, nobody ticks again. -/
theorem still_not_ticking (hs : Reachable quotes s) (hflag : s.life.flag = true)
    (hnone : ∀ b, s.life.phases b ≠ .tick) (hrest : Transition.Reachable step s t) (b : Nat) :
    t.life.phases b ≠ .tick := by
  have hknown : ∀ {u : Server}, Transition.Reachable step s u → Reachable quotes u :=
    fun hrun => hs.trans hrun
  have hkept : t.life.flag = true ∧ ∀ b, t.life.phases b ≠ .tick := by
    refine Transition.Reaches.invariant_with
      (fun t : Server => t.life.flag = true ∧ ∀ b, t.life.phases b ≠ .tick) hrest hknown
      ⟨hflag, hnone⟩ ?_
    intro state next action hstate _ ⟨hset, hnot⟩ _ hstep
    rcases life_move (Reachable.answers hstate) (step_move hstep) with hsame | hmove
    · rw [hsame]
      exact ⟨hset, hnot⟩
    · exact ⟨OneTicker.flag_step hmove hset, fun b => Covered.not_tick_step hmove hset (hnot b)⟩
  exact hkept.2 b

/-- If every `shutdown` that looks into the handle slot finds no other one waiting for a running
thread, then no thread ticks once a `shutdown` has returned. -/
theorem shutdown_is_quiescent (h : Transition.Reaches step Alone (init quotes) s) {k : Caller}
    (hreturned : s.callers k = .returned .stopped)
    (hrest : Transition.Reachable step s t) (b : Nat) :
    ¬ t.Ticking b := by
  have hs : Reachable quotes s := h.reachable
  have hstopped : s.life.calls k = .stopped := congrArg Call.life hreturned
  have hone := Reachable.one_ticker hs
  have hnone : ∀ b, s.life.phases b ≠ .tick := by
    intro b htick
    obtain rfl := hone.ticking b htick
    exact (covered_reaches h).stopped k hstopped htick
  rw [ticking_iff]
  exact still_not_ticking hs (hone.stopping k (by rw [hstopped]; rfl)) hnone hrest b

/-- A caller calls a method and makes some steps. -/
def calling (number : Nat) (request : Request) (count : Nat) : List Action :=
  .call (.other number) request :: List.replicate count (.caller (.other number))

/-- The second `shutdown` returns while the first one waits for the end of the tick. -/
theorem second_shutdown_returns : ∃ s, Reachable ∅ s ∧
    s.callers (.other 1) = .returned .stopped ∧ s.Ticking 0 := by
  obtain ⟨s, hrun, hreturned, hat⟩ : ∃ s, Transition.run step (init ∅)
      (calling 0 .start 3 ++ [.take (.other 0), .background 0 .proceed] ++ calling 0 .shutdown 3 ++
        calling 1 .shutdown 3) = some s ∧
      s.callers (.other 1) = .returned .stopped ∧ s.background 0 = .sleep := ⟨_, rfl, rfl, rfl⟩
  refine ⟨s, Transition.reachable_of_run hrun, hreturned, ?_⟩
  simp [Ticking, hat]

/-- Everybody but one caller is idle. -/
def Solo (s : Server) : Prop := ∀ j, j ≠ .other 0 → s.callers j = .idle

/-- No other caller acts, and no tick panics. -/
def soloAction : Action → Bool
  | .call k _ | .caller k | .take k => k == .other 0
  | .client _ _ => true
  | .background _ choice => choice != .panic

theorem Solo.step (h : s.Solo) (hsolo : soloAction action = true)
    (hstep : s.step action = some t) : t.Solo := by
  intro j hj
  rcases callers_step (step_move hstep) (k := j) with hsame | rfl | ⟨_, rfl⟩ | rfl
  · rw [hsame]
    exact h j hj
  · exact absurd (eq_of_beq hsolo) hj
  · exact absurd (eq_of_beq hsolo) hj
  · exact absurd (eq_of_beq hsolo) hj

theorem Solo.eq {k : Caller} (h : s.Solo) (hk : s.callers k ≠ .idle) : k = .other 0 := by
  by_contra hne
  exact hk (h k hne)

theorem Solo.alone (h : s.Solo) : s.Alone action := by
  intro k _ hat j number hj
  obtain rfl := h.eq (k := k) (by rw [hat]; nofun)
  obtain rfl := h.eq (k := j) (by rw [hj]; nofun)
  rw [hat] at hj
  cases hj

/-- In a run of one caller, calls do not run side by side. -/
theorem solo_reaches {quotes : Quotes} {actions : List Action}
    (hrun : Transition.run step (init quotes) actions = some s)
    (hactions : actions.all soloAction = true) :
    Transition.Reaches step Alone (init quotes) s ∧ s.Solo :=
  Transition.reaches_of_run_with Solo hrun (fun _ _ => rfl) fun action hmem _ _ hsolo hstep =>
    ⟨hsolo.alone, hsolo.step (List.all_eq_true.mp hactions action hmem) hstep⟩

/-- The end of a tick without quotes and clients, and the exit at the loop condition. -/
def finishing : List Action :=
  List.replicate 3 (.background 0 .proceed) ++ [.background 0 (.order [])] ++
    List.replicate 2 (.background 0 .proceed)

/-- `start`, and `shutdown` during the tick. -/
def joining : List Action :=
  calling 0 .start 3 ++ [.take (.other 0), .background 0 .proceed] ++ calling 0 .shutdown 3 ++
    finishing ++ [.caller (.other 0)]

theorem shutdown_is_quiescent_joined : ∃ s, s.callers (.other 0) = .returned .stopped ∧
    s.bgSpawned = 1 ∧ ∀ t, Transition.Reachable step s t → ∀ b, ¬ t.Ticking b := by
  obtain ⟨s, hrun, hreturned, hspawned⟩ : ∃ s, Transition.run step (init ∅) joining = some s ∧
      s.callers (.other 0) = .returned .stopped ∧ s.bgSpawned = 1 := ⟨_, rfl, rfl, rfl⟩
  obtain ⟨hs, -⟩ := solo_reaches hrun rfl
  exact ⟨s, hreturned, hspawned, fun t hrest b => shutdown_is_quiescent hs hreturned hrest b⟩

end Server

end QuoteStreamer
