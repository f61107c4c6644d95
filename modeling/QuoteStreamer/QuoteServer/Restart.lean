import QuoteStreamer.QuoteServer.Quiescence

/-!
# Starting again

The calls of `start` and `shutdown` one after the other. The flag that `shutdown` sets is never
reset, so the thread of a later `start` ends at its first check, although `start` returns `Ok`;
before any `shutdown` the thread of the first `start` is in its loop, and stays there.
-/

namespace QuoteStreamer

/-- The calls that control the background threads. -/
inductive ControlCall where
  | start
  | shutdown
  deriving DecidableEq, Repr

/-- The call of `start` or `shutdown` that an action is. -/
def Action.control : Action → List ControlCall
  | .call _ .start => [.start]
  | .call _ .shutdown => [.shutdown]
  | _ => []

/-- The caller is inside `start` or `shutdown`. -/
def LifeCall.inside : LifeCall → Bool
  | .away | .started | .stopped => false
  | _ => true

namespace Life

/-- Nobody is inside `start` or `shutdown` when one of them is called, and no tick panics. -/
def Sequential (l : Life) (action : Action) : Prop :=
  (∀ k, action = .call k .start ∨ action = .call k .shutdown → ∀ j, (l.calls j).inside = false) ∧
    ∀ b, action ≠ .background b .panic

/-- What a run of calls one after the other has left behind. -/
structure Orderly (calls : List ControlCall) (l : Life) : Prop where
  covered : Covered l
  one : ∀ j k, (l.calls j).inside = true → (l.calls k).inside = true → j = k
  slotted : ∀ number, l.slot = some number → number < l.spawned
  stored : ∀ k number, l.calls k = .startStore number → number < l.spawned
  untouched : ControlCall.shutdown ∉ calls → l.flag = false ∧ ∀ k, l.calls k ≠ .shutdownFlag
  looping : l.flag = false → ∀ b, b < l.spawned → l.phases b ≠ .ended
  running : ControlCall.start ∈ calls → 0 < l.spawned ∨
    ∃ k, l.calls k = .startLock ∨ l.calls k = .startCheck
  stopped : ControlCall.shutdown ∈ calls → (∀ b, l.phases b ≠ .tick) ∧ l.flag = true ∨
    ∃ k, l.calls k = .shutdownFlag ∨ (l.calls k).inside = true ∧ (l.calls k).stopping = true

variable {l m : Life} {action : Action} {calls : List ControlCall} {k : Caller}

/-- Whoever is inside a call was so before, unless it has just called. -/
theorem inside_before (hmove : LifeMove l action m) (hcall : action.control = [])
    (j : Caller) (hj : (m.calls j).inside = true) : (l.calls j).inside = true := by
  have hset : ∀ {k : Caller} {call : LifeCall}, (Function.update l.calls k call j).inside = true →
      ((l.calls k).inside = true ∨ call.inside = false) → (l.calls j).inside = true := by
    intro k call hnow hbefore
    by_cases hjk : j = k
    · subst hjk
      rw [Function.update_self] at hnow
      exact hbefore.resolve_right (by rw [hnow]; nofun)
    · rwa [Function.update_of_ne hjk] at hnow
  cases hmove with
  | start | shutdown => cases hcall
  | take => exact hset hj (.inr rfl)
  | startLock k hat | startRunning k hat | startSpawn k hat | startStore k _ hat
  | shutdownFlag k hat | shutdownLock k hat | shutdownTake k _ hat | shutdownNone k hat
  | shutdownJoin k _ hat =>
      exact hset hj (.inl (by rw [hat]; rfl))
  | check | finish | panic => exact hj

theorem one_step (h : Orderly calls l) (hsequential : l.Sequential action)
    (hmove : LifeMove l action m) (i j : Caller) (hi : (m.calls i).inside = true)
    (hj : (m.calls j).inside = true) : i = j := by
  have hfirst : ∀ {k : Caller} {call : LifeCall}, (∀ j, (l.calls j).inside = false) →
      ∀ j, (Function.update l.calls k call j).inside = true → j = k := by
    intro k call hnone j hnow
    by_contra hjk
    rw [Function.update_of_ne hjk, hnone j] at hnow
    cases hnow
  by_cases hcall : action.control = []
  · exact h.one i j (inside_before hmove hcall i hi) (inside_before hmove hcall j hj)
  · cases hmove with
    | start k =>
        have hnone := hsequential.1 k (.inl rfl)
        exact (hfirst hnone i hi).trans (hfirst hnone j hj).symm
    | shutdown k =>
        have hnone := hsequential.1 k (.inr rfl)
        exact (hfirst hnone i hi).trans (hfirst hnone j hj).symm
    | _ => exact absurd rfl hcall

/-- A caller in a sequence of calls is alone. -/
theorem Orderly.alone (h : Orderly calls l) (action : Action) : l.Alone action := by
  intro k _ hat j number hj
  obtain rfl := h.one j k (by rw [hj]; rfl) (by rw [hat]; rfl)
  rw [hat] at hj
  cases hj

theorem slotted_step (h : Orderly calls l) (hmove : LifeMove l action m) (number : Nat)
    (hslot : m.slot = some number) : number < m.spawned := by
  cases hmove with
  | startSpawn k hat hnone =>
      rw [show l.slot = some number from hslot] at hnone
      cases hnone
  | startStore k other hat =>
      obtain rfl : other = number := Option.some.inj hslot
      exact h.stored k other hat
  | shutdownTake | shutdownNone => cases hslot
  | _ => exact h.slotted number hslot

theorem stored_step (h : Orderly calls l) (hmove : LifeMove l action m) (j : Caller) (number : Nat)
    (hj : m.calls j = .startStore number) : number < m.spawned := by
  cases hmove with
  | startSpawn k hat hnone =>
      rcases Locks.moved_cases hj with ⟨-, hcall⟩ | ⟨-, hj⟩
      · cases hcall
        exact Nat.lt_succ_self _
      · exact Nat.lt_succ_of_lt (h.stored j number hj)
  | check | finish | panic => exact h.stored j number hj
  | _ =>
      rcases Locks.moved_cases hj with ⟨-, hcall⟩ | ⟨-, hj⟩
      · cases hcall
      · exact h.stored j number hj

theorem untouched_step (h : Orderly calls l) (hmove : LifeMove l action m)
    (hnone : ControlCall.shutdown ∉ calls ++ action.control) :
    m.flag = false ∧ ∀ k, m.calls k ≠ .shutdownFlag := by
  have hcalls : ControlCall.shutdown ∉ calls := fun hmem => hnone (List.mem_append_left _ hmem)
  obtain ⟨hflag, hnobody⟩ := h.untouched hcalls
  cases hmove with
  | shutdown => exact absurd (List.mem_append_right calls List.mem_cons_self) hnone
  | shutdownFlag k hat => exact absurd hat (hnobody k)
  | check | finish | panic => exact ⟨hflag, hnobody⟩
  | _ => exact ⟨hflag, fun j => Locks.keeps_away nofun fun _ => hnobody j⟩

theorem looping_step (h : Orderly calls l) (hsequential : l.Sequential action)
    (hmove : LifeMove l action m) (hflag : m.flag = false) (b : Nat) (hb : b < m.spawned) :
    m.phases b ≠ .ended := by
  cases hmove with
  | startSpawn k hat hnone =>
      refine Locks.keeps_away nofun fun hne => h.looping hflag b ?_
      have hlt : b < l.spawned + 1 := hb
      omega
  | shutdownFlag => cases hflag
  | check c hat =>
      refine Locks.keeps_away ?_ fun _ => h.looping hflag b hb
      rw [show l.flag = false from hflag]
      nofun
  | finish c hat => exact Locks.keeps_away nofun fun _ => h.looping hflag b hb
  | panic c hat => exact absurd rfl (hsequential.2 c)
  | _ => exact h.looping hflag b hb

theorem running_step (h : Orderly calls l) (hmove : LifeMove l action m)
    (hstart : ControlCall.start ∈ calls ++ action.control) :
    0 < m.spawned ∨ ∃ k, m.calls k = .startLock ∨ m.calls k = .startCheck := by
  have hbefore : ControlCall.start ∉ action.control →
      0 < l.spawned ∨ ∃ k, l.calls k = .startLock ∨ l.calls k = .startCheck := fun hnot =>
    h.running ((List.mem_append.mp hstart).resolve_right hnot)
  have hkeep : ∀ {k : Caller} {call : LifeCall}, l.calls k ≠ .startLock → l.calls k ≠ .startCheck →
      (0 < l.spawned ∨ ∃ j, l.calls j = .startLock ∨ l.calls j = .startCheck) →
      0 < l.spawned ∨ ∃ j, Function.update l.calls k call j = .startLock ∨
        Function.update l.calls k call j = .startCheck := by
    intro k call hlock hcheck hnow
    refine hnow.imp_right ?_
    rintro ⟨j, hj | hj⟩
    · exact ⟨j, .inl (Locks.stays hj hlock)⟩
    · exact ⟨j, .inr (Locks.stays hj hcheck)⟩
  cases hmove with
  | start k => exact .inr ⟨k, .inl (Function.update_self ..)⟩
  | startLock k => exact .inr ⟨k, .inr (Function.update_self ..)⟩
  | startRunning k hat hsome =>
      obtain ⟨number, hslot⟩ := Option.isSome_iff_exists.mp hsome
      exact .inl (Nat.zero_lt_of_lt (h.slotted number hslot))
  | startSpawn => exact .inl (Nat.succ_pos _)
  | startStore k number hat => exact .inl (Nat.zero_lt_of_lt (h.stored k number hat))
  | take k hat =>
      refine hkeep ?_ ?_ (hbefore nofun) <;> rcases hat with hat | hat <;> rw [hat] <;> nofun
  | shutdown k hat =>
      exact hkeep (by rw [hat]; nofun) (by rw [hat]; nofun) (hbefore (by simp [Action.control]))
  | shutdownFlag k hat | shutdownLock k hat | shutdownTake k _ hat | shutdownNone k hat
  | shutdownJoin k _ hat =>
      exact hkeep (by rw [hat]; nofun) (by rw [hat]; nofun) (hbefore nofun)
  | check | finish | panic => exact hbefore nofun

/-- When a caller returns from `shutdown`, nobody ticks. -/
theorem quiet_of_stopped (hone : OneTicker l) (hcovered : Covered l) (hat : l.calls k = .stopped) :
    (∀ b, l.phases b ≠ .tick) ∧ l.flag = true := by
  refine ⟨fun b htick => ?_, hone.stopping k (by rw [hat]; rfl)⟩
  obtain rfl := hone.ticking b htick
  exact hcovered.stopped k hat htick

theorem stopped_step (h : Orderly calls l) (hone : OneTicker l) (hmove : LifeMove l action m)
    (hcovered : Covered m) (hshutdown : ControlCall.shutdown ∈ calls ++ action.control) :
    (∀ b, m.phases b ≠ .tick) ∧ m.flag = true ∨
      ∃ k, m.calls k = .shutdownFlag ∨ (m.calls k).inside = true ∧ (m.calls k).stopping = true := by
  have hnext := hone.step hmove
  -- unless it is called right now, `shutdown` has been called before
  have hbefore : ControlCall.shutdown ∉ action.control → (∀ b, l.phases b ≠ .tick) ∧ l.flag = true ∨
      ∃ k, l.calls k = .shutdownFlag ∨ (l.calls k).inside = true ∧ (l.calls k).stopping = true :=
    fun hnot => h.stopped ((List.mem_append.mp hshutdown).resolve_right hnot)
  have hstill : (∀ b, l.phases b ≠ .tick) ∧ l.flag = true →
      (∀ b, m.phases b ≠ .tick) ∧ m.flag = true := fun ⟨hquiet, hset⟩ =>
    ⟨fun b => Covered.not_tick_step hmove hset (hquiet b), OneTicker.flag_step hmove hset⟩
  have harrive : ∀ {k : Caller} {call : LifeCall}, m.calls = Function.update l.calls k call →
      call.inside = true → call.stopping = true → (∀ b, m.phases b ≠ .tick) ∧ m.flag = true ∨
        ∃ j, m.calls j = .shutdownFlag ∨ (m.calls j).inside = true ∧
          (m.calls j).stopping = true := by
    intro k call hcalls hinside hstopping
    refine .inr ⟨k, .inr ?_⟩
    rw [hcalls, Function.update_self]
    exact ⟨hinside, hstopping⟩
  have hkeep : ∀ {k : Caller} {call : LifeCall}, m.calls = Function.update l.calls k call →
      l.calls k ≠ .shutdownFlag → ((l.calls k).inside = false ∨ (l.calls k).stopping = false) →
      ControlCall.shutdown ∉ action.control → (∀ b, m.phases b ≠ .tick) ∧ m.flag = true ∨
        ∃ j, m.calls j = .shutdownFlag ∨ (m.calls j).inside = true ∧
          (m.calls j).stopping = true := by
    intro k call hcalls hflag hnot hcontrol
    rcases hbefore hcontrol with hquiet | ⟨j, hj⟩
    · exact .inl (hstill hquiet)
    · have hne : j ≠ k := by
        rintro rfl
        rcases hj with hj | ⟨hinside, hstopping⟩
        · exact hflag hj
        · simp [hinside, hstopping] at hnot
      refine .inr ⟨j, ?_⟩
      rwa [hcalls, Function.update_of_ne hne]
  cases hmove with
  | shutdown k => exact .inr ⟨k, .inl (Function.update_self ..)⟩
  | shutdownFlag k | shutdownLock k | shutdownTake k => exact harrive rfl rfl rfl
  | shutdownNone k hat | shutdownJoin k _ hat =>
      exact .inl (quiet_of_stopped (k := k) hnext hcovered (Function.update_self ..))
  | start k hat | startLock k hat | startRunning k hat | startSpawn k hat | startStore k _ hat =>
      exact hkeep rfl (by rw [hat]; nofun) (by rw [hat]; exact .inr rfl) (by simp [Action.control])
  | take k hat =>
      rcases hat with hat | hat <;>
        exact hkeep rfl (by rw [hat]; nofun) (by rw [hat]; exact .inl rfl) nofun
  | check | finish | panic => exact (hbefore nofun).imp_left hstill

theorem Orderly.step (h : Orderly calls l) (hone : OneTicker l) (hsequential : l.Sequential action)
    (hmove : LifeMove l action m) : Orderly (calls ++ action.control) m :=
  have hcovered := h.covered.step hone (h.alone action) hmove
  { covered := hcovered
    one := one_step h hsequential hmove
    slotted := slotted_step h hmove
    stored := stored_step h hmove
    untouched := untouched_step h hmove
    looping := looping_step h hsequential hmove
    running := running_step h hmove
    stopped := stopped_step h hone hmove hcovered }

/-- A thread that is in its loop stays there as long as nobody calls `shutdown`. -/
theorem loop_kept {b : Nat} (hmove : LifeMove l action m) (hcall : ∀ k, action ≠ .call k .shutdown)
    (hpanic : ∀ b, action ≠ .background b .panic) (hflag : l.flag = false)
    (hnobody : ∀ k, l.calls k ≠ .shutdownFlag) (hb : l.phases b ≠ .ended) :
    m.flag = false ∧ (∀ k, m.calls k ≠ .shutdownFlag) ∧ m.phases b ≠ .ended := by
  have hcalls : ∀ {k : Caller} {call : LifeCall}, call ≠ .shutdownFlag →
      ∀ j, Function.update l.calls k call j ≠ .shutdownFlag :=
    fun hne j => Locks.keeps_away hne fun _ => hnobody j
  have hphases : ∀ {c : Nat} {phase : Phase}, phase ≠ .ended →
      Function.update l.phases c phase b ≠ .ended := fun hne => Locks.keeps_away hne fun _ => hb
  cases hmove with
  | shutdown k => exact absurd rfl (hcall k)
  | shutdownFlag k hat => exact absurd hat (hnobody k)
  | panic c => exact absurd rfl (hpanic c)
  | startSpawn => exact ⟨hflag, hcalls nofun, hphases nofun⟩
  | check =>
      refine ⟨hflag, hnobody, hphases ?_⟩
      rw [hflag]
      nofun
  | finish => exact ⟨hflag, hnobody, hphases nofun⟩
  | _ => exact ⟨hflag, hcalls nofun, hb⟩

end Life

namespace Server

variable {s t : Server} {quotes : Quotes} {action : Action} {calls : List ControlCall}

/-- `start` and `shutdown` are called one after the other, and no tick panics. -/
def Sequential (s : Server) (action : Action) : Prop :=
  (∀ k, action = .call k .start ∨ action = .call k .shutdown →
    ∀ j, (s.callers j).life.inside = false) ∧ ∀ b, action ≠ .background b .panic

/-- Nobody calls `shutdown`, and no tick panics. -/
def Undisturbed (_ : Server) (action : Action) : Prop :=
  (∀ k, action ≠ .call k .shutdown) ∧ ∀ b, action ≠ .background b .panic

theorem orderly_init (quotes : Quotes) : Life.Orderly [] (init quotes).life where
  covered := covered_init quotes
  one _ _ := nofun
  slotted _ := nofun
  stored _ _ := nofun
  untouched _ := ⟨rfl, fun _ => nofun⟩
  looping _ _ := nofun
  running := nofun
  stopped := nofun

/-- A step that leaves the background threads alone calls neither `start` nor `shutdown`. -/
theorem control_of_same (hmove : Move s action t) (hsame : t.life = s.life) :
    action.control = [] := by
  cases hmove with
  | call k request hat =>
      have hbefore : s.life.calls k = .away := congrArg Call.life hat
      have hafter : (s.setCall k request.entry).life.calls k = request.entry.life := by
        rw [life_set_call]
        exact Function.update_self ..
      rw [hsame, hbefore] at hafter
      cases request <;> first | rfl | cases hafter
  | _ => rfl

theorem orderly_traces (h : Transition.Traces step Sequential (fun _ action => action.control)
    (init quotes) calls s) : Life.Orderly calls s.life := by
  have hknown : ∀ {t : Server}, Transition.Reaches step Sequential (init quotes) t →
      Reachable quotes t := fun hrun => hrun.reachable
  refine Transition.Traces.invariant_with (fun calls (s : Server) => Life.Orderly calls s.life) h
    hknown (orderly_init quotes) ?_
  intro calls state next action hstate hinv hsequential hstep
  have hmove := step_move hstep
  rcases life_move (Reachable.answers hstate) hmove with hsame | hlife
  · rw [hsame, control_of_same hmove hsame, List.append_nil]
    exact hinv
  · exact hinv.step (Reachable.one_ticker hstate) hsequential hlife

/-- Some background thread is in its loop and stays there until somebody calls `shutdown`. -/
def Running (s : Server) : Prop :=
  ∃ b, ∀ t, Transition.Reaches step Undisturbed s t → t.background b ≠ .exited

/-- After calls one after the other of which the last was a `start` that has returned, a background
thread is running exactly when there was no `shutdown` among them. -/
theorem start_means_running (h : Transition.Traces step Sequential (fun _ action => action.control)
    (init quotes) calls s) (hlast : calls.getLast? = some .start)
    (hreturned : ∀ k, (s.callers k).life.inside = false) :
    s.Running ↔ ControlCall.shutdown ∉ calls := by
  have horderly := orderly_traces h
  have hs : Reachable quotes s := h.reaches.reachable
  constructor
  · rintro ⟨b, hrunning⟩ hshutdown
    rcases horderly.stopped hshutdown with ⟨hquiet, hflag⟩ | ⟨k, hk⟩
    · -- the flag is up, so the thread would leave its loop at the next check
      have hnow := hrunning s .refl
      have hcheck : s.background b = .check := by
        by_contra hne
        exact hquiet b (ticking_iff.mp ⟨hne, hnow⟩)
      have hstep : s.step (.background b .proceed) = some (s.setBackground b .exited) := by
        have hset : s.shutdownFlag = true := hflag
        simp only [step, backgroundStep, hcheck]
        rw [if_pos hset]
      have hok : s.Undisturbed (.background b .proceed) := ⟨fun _ => by simp, fun _ => by simp⟩
      exact hrunning _ (.single hok hstep) (Function.update_self ..)
    · have hnot : (s.life.calls k).inside = false := hreturned k
      rcases hk with hk | ⟨hinside, -⟩
      · rw [hk] at hnot
        cases hnot
      · rw [hinside] at hnot
        cases hnot
  · intro hnone
    obtain ⟨hflag, hnobody⟩ := horderly.untouched hnone
    have hspawned : 0 < s.life.spawned := by
      refine (horderly.running (List.mem_of_getLast? hlast)).resolve_right ?_
      rintro ⟨k, hk⟩
      have hnot : (s.life.calls k).inside = false := hreturned k
      rcases hk with hk | hk <;> rw [hk] at hnot <;> cases hnot
    refine ⟨0, fun t hrest => ?_⟩
    have hknown : ∀ {u : Server}, Transition.Reaches step Undisturbed s u → Reachable quotes u :=
      fun hrun => hs.trans hrun.reachable
    -- nobody has called `shutdown`, so nobody is about to set the flag
    have hkept : t.life.flag = false ∧ (∀ k, t.life.calls k ≠ .shutdownFlag) ∧
        t.life.phases 0 ≠ .ended := by
      refine Transition.Reaches.invariant_with
        (fun t : Server => t.life.flag = false ∧ (∀ k, t.life.calls k ≠ .shutdownFlag) ∧
          t.life.phases 0 ≠ .ended) hrest hknown
        ⟨hflag, hnobody, horderly.looping hflag 0 hspawned⟩ ?_
      rintro state next action hstate - ⟨hset, hno, hloop⟩ hok hstep
      rcases life_move (Reachable.answers hstate) (step_move hstep) with hsame | hmove
      · rw [hsame]
        exact ⟨hset, hno, hloop⟩
      · exact Life.loop_kept hmove hok.1 hok.2 hset hno hloop
    exact mt life_ended_iff.mpr hkept.2.2

theorem Solo.sequential (h : s.Solo) (hsolo : soloAction action = true)
    (hstep : s.step action = some t) : s.Sequential action := by
  refine ⟨fun k hcall j => ?_, fun b hpanic => by rw [hpanic] at hsolo; cases hsolo⟩
  have hidle : s.callers k = .idle := by
    rcases hcall with rfl | rfl <;> cases step_move hstep with
    | call _ _ hat => exact hat
  have hk : k = .other 0 := by
    rcases hcall with rfl | rfl <;> exact eq_of_beq hsolo
  have hall : s.callers j = .idle := by
    by_cases hj : j = .other 0
    · rw [hj, ← hk]
      exact hidle
    · exact h j hj
  rw [hall]
  rfl

/-- Runs of one caller are sequential. -/
theorem sequential_traces {actions : List Action}
    (hrun : Transition.run step (init ∅) actions = some s)
    (hactions : actions.all soloAction = true) :
    Transition.Traces step Sequential (fun _ action => action.control) (init ∅)
      (Transition.outputs step (fun _ action => action.control) (init ∅) actions) s ∧ s.Solo :=
  Transition.traces_of_run_with Solo hrun (fun _ _ => rfl) fun action hmem _ _ hsolo hstep =>
    have haction := List.all_eq_true.mp hactions action hmem
    ⟨hsolo.sequential haction hstep, hsolo.step haction hstep⟩

/-- After one caller has returned, nobody is inside a call. -/
theorem Solo.outside (h : s.Solo) (hreturned : s.callers (.other 0) = .returned .started)
    (k : Caller) : (s.callers k).life.inside = false := by
  by_cases hk : k = .other 0
  · rw [hk, hreturned]
    rfl
  · rw [h k hk]
    rfl

theorem start_means_running_first : ∃ s : Server, s.callers (.other 0) = .returned .started ∧
    s.Running := by
  obtain ⟨s, hrun, hreturned⟩ : ∃ s, Transition.run step (init ∅) (calling 0 .start 3) = some s ∧
      s.callers (.other 0) = .returned .started := ⟨_, rfl, rfl⟩
  obtain ⟨htraces, hsolo⟩ := sequential_traces hrun rfl
  exact ⟨s, hreturned,
    (start_means_running htraces rfl (hsolo.outside hreturned)).mpr (by decide)⟩

/-- After a `shutdown`, `start` returns `Ok`, and the thread that it has spawned ends at its first
check. -/
theorem restart_ends : ∃ calls s,
    Transition.Traces step Sequential (fun _ action => action.control) (init ∅) calls s ∧
    calls.getLast? = some .start ∧ (∀ k, (s.callers k).life.inside = false) ∧
    s.callers (.other 0) = .returned .started ∧ ¬ s.Running := by
  obtain ⟨s, hrun, hreturned, hfirst, hsecond, hflag, hspawned⟩ : ∃ s,
      Transition.run step (init ∅) (joining ++ .take (.other 0) :: calling 0 .start 3) = some s ∧
      s.callers (.other 0) = .returned .started ∧ s.background 0 = .exited ∧
      s.background 1 = .check ∧ s.shutdownFlag = true ∧ s.bgSpawned = 2 :=
    ⟨_, rfl, rfl, rfl, rfl, rfl, rfl⟩
  obtain ⟨htraces, hsolo⟩ := sequential_traces hrun rfl
  refine ⟨_, s, htraces, rfl, hsolo.outside hreturned, hreturned, ?_⟩
  rintro ⟨b, hrunning⟩
  have hone := Reachable.one_ticker (s := s) htraces.reaches.reachable
  have hb : b < 2 := by
    by_contra hge
    refine hrunning s .refl (life_ended_iff.mp (hone.fresh b ?_))
    show s.bgSpawned ≤ b
    omega
  obtain rfl | rfl : b = 0 ∨ b = 1 := by omega
  · exact hrunning s .refl hfirst
  · have hstep : s.step (.background 1 .proceed) = some (s.setBackground 1 .exited) := by
      simp only [step, backgroundStep, hsecond]
      rw [if_pos hflag]
    have hok : s.Undisturbed (.background 1 .proceed) := ⟨fun _ => by simp, fun _ => by simp⟩
    have hexited : (s.setBackground 1 .exited).background 1 = .exited := by
      simp only [setBackground, Function.update_self]
    exact hrunning _ (.single hok hstep) hexited

end Server

end QuoteStreamer
