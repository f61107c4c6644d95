import QuoteStreamer.QuoteServer.Life

/-!
# One ticker

A second background thread is spawned only after a `shutdown` has emptied the handle slot, and then
the flag is set for ever, so that its loop ends at the first check. Only the first thread ticks.
-/

namespace QuoteStreamer

/-- What the slot, the flag and the loops have to do with each other. -/
structure OneTicker (l : Life) : Prop where
  lock : Locks.HeldAt l.lock l.calls LifeCall.holds
  fresh : ∀ b, l.spawned ≤ b → l.phases b = .ended
  stopping : ∀ k, (l.calls k).stopping = true → l.flag = true
  /-- As long as nobody has called `shutdown`, a spawned thread is in the slot or about to be. -/
  slot : l.flag = false → l.slot = none → 0 < l.spawned → ∃ k number, l.calls k = .startStore number
  second : 1 < l.spawned → l.flag = true
  ticking : ∀ b, l.phases b = .tick → b = 0

namespace OneTicker

variable {l m : Life} {action : Action} {k : Caller} {call : LifeCall} {b : Nat}

theorem lock_step (h : OneTicker l) (hmove : LifeMove l action m) :
    Locks.HeldAt m.lock m.calls LifeCall.holds := by
  have hlock := h.lock
  cases hmove with
  | startLock k hat hfree | shutdownLock k hat hfree => exact hlock.acquire hfree rfl
  | startRunning k hat | startStore k _ hat | shutdownTake k _ hat | shutdownNone k hat =>
      exact hlock.release (by rw [hat]; rfl) rfl
  | start k hat | shutdown k hat | startSpawn k hat | shutdownFlag k hat | shutdownJoin k _ hat =>
      exact hlock.keep (by rw [hat]; rfl)
  | take k hat => exact hlock.keep (by rcases hat with hat | hat <;> rw [hat] <;> rfl)
  | check | finish | panic => exact hlock

/-- The flag is never reset. -/
theorem flag_step (hmove : LifeMove l action m) (hflag : l.flag = true) : m.flag = true := by
  cases hmove with
  | shutdownFlag => rfl
  | _ => exact hflag

theorem fresh_step (h : OneTicker l) (hmove : LifeMove l action m) (b : Nat) (hb : m.spawned ≤ b) :
    m.phases b = .ended := by
  cases hmove with
  | startSpawn k hat hnone =>
      have hne : b ≠ l.spawned := Nat.ne_of_gt hb
      exact (Function.update_of_ne hne _ _).trans (h.fresh b (Nat.le_of_succ_le hb))
  | check c hat | finish c hat | panic c hat =>
      exact Locks.stays (h.fresh b hb) (by rw [hat]; nofun)
  | _ => exact h.fresh b hb

theorem stopping_step (h : OneTicker l) (hmove : LifeMove l action m) (j : Caller)
    (hj : (m.calls j).stopping = true) : m.flag = true := by
  have hset : ∀ {k : Caller} {call : LifeCall},
      (Function.update l.calls k call j).stopping = true →
      (call.stopping = true → l.flag = true) → l.flag = true := by
    intro k call hnow hcall
    have hpoint : Function.update l.calls k call j = Function.update l.calls k call j := rfl
    rcases Locks.moved_cases hpoint with ⟨-, hmoved⟩ | ⟨-, hstayed⟩
    · exact hcall (hmoved ▸ hnow)
    · exact h.stopping j (hstayed ▸ hnow)
  cases hmove with
  | shutdownFlag => rfl
  | shutdownLock k hat | shutdownTake k _ hat | shutdownNone k hat | shutdownJoin k _ hat =>
      exact hset hj fun _ => h.stopping k (by rw [hat]; rfl)
  | start | shutdown | take | startLock | startRunning | startSpawn | startStore =>
      exact hset hj nofun
  | check | finish | panic => exact h.stopping j hj

theorem slot_step (h : OneTicker l) (hmove : LifeMove l action m) (hflag : m.flag = false)
    (hslot : m.slot = none) (hspawned : 0 < m.spawned) :
    ∃ k number, m.calls k = .startStore number := by
  -- whoever is about to store its handle stays there while another caller moves
  have hother : ∀ {k : Caller} {call : LifeCall}, (∀ number, l.calls k ≠ .startStore number) →
      (∃ k number, l.calls k = .startStore number) →
      ∃ j number, Function.update l.calls k call j = .startStore number := by
    rintro k call hnot ⟨j, number, hj⟩
    exact ⟨j, number, Locks.stays hj (hnot number)⟩
  cases hmove with
  | startSpawn k hat hnone => exact ⟨k, l.spawned, Function.update_self ..⟩
  | startStore => cases hslot
  | startRunning k hat hsome =>
      rw [show l.slot = none from hslot] at hsome
      cases hsome
  | shutdownTake k _ hat | shutdownNone k hat =>
      have hstop := h.stopping k (by rw [hat]; rfl)
      rw [show l.flag = false from hflag] at hstop
      cases hstop
  | shutdownFlag => cases hflag
  | take k hat =>
      exact hother (fun _ => by rcases hat with hat | hat <;> rw [hat] <;> nofun)
        (h.slot hflag hslot hspawned)
  | start k hat | shutdown k hat | startLock k hat | shutdownLock k hat | shutdownJoin k _ hat =>
      exact hother (fun _ => by rw [hat]; nofun) (h.slot hflag hslot hspawned)
  | check | finish | panic => exact h.slot hflag hslot hspawned

theorem second_step (h : OneTicker l) (hmove : LifeMove l action m) (hsecond : 1 < m.spawned) :
    m.flag = true := by
  cases hmove with
  | startSpawn k hat hnone =>
      by_contra hflag
      obtain ⟨j, number, hj⟩ := h.slot (Bool.eq_false_iff.mpr hflag)
        hnone (Nat.lt_of_succ_lt_succ hsecond)
      obtain rfl : j = k := h.lock.unique (by rw [hj]; rfl) (by rw [hat]; rfl)
      rw [hat] at hj
      cases hj
  | shutdownFlag => rfl
  | _ => exact h.second hsecond

theorem ticking_step (h : OneTicker l) (hmove : LifeMove l action m) (c : Nat)
    (hc : m.phases c = .tick) : c = 0 := by
  have hset : ∀ {b : Nat} {phase : Phase}, Function.update l.phases b phase c = .tick →
      (phase = .tick → b = 0) → c = 0 := by
    intro b phase hnow hphase
    rcases Locks.moved_cases hnow with ⟨rfl, htick⟩ | ⟨-, htick⟩
    · exact hphase htick
    · exact h.ticking c htick
  cases hmove with
  | startSpawn => exact hset hc nofun
  | check b hat =>
      refine hset hc fun htick => ?_
      by_contra hb
      have hspawned : b < l.spawned := by
        by_contra hle
        rw [h.fresh b (Nat.le_of_not_lt hle)] at hat
        cases hat
      rw [h.second (by omega)] at htick
      cases htick
  | finish | panic => exact hset hc nofun
  | _ => exact h.ticking c hc

theorem step (h : OneTicker l) (hmove : LifeMove l action m) : OneTicker m where
  lock := lock_step h hmove
  fresh := fresh_step h hmove
  stopping := stopping_step h hmove
  slot := slot_step h hmove
  second := second_step h hmove
  ticking := ticking_step h hmove

end OneTicker

namespace Server

variable {s t : Server} {quotes : Quotes}

theorem one_ticker_init (quotes : Quotes) : OneTicker (init quotes).life where
  lock _ := ⟨nofun, nofun⟩
  fresh _ _ := rfl
  stopping _ := nofun
  slot _ _ := nofun
  second := nofun
  ticking _ := nofun

theorem Reachable.one_ticker (h : Reachable quotes s) : OneTicker s.life := by
  refine Transition.Reaches.invariant_with (fun s : Server => OneTicker s.life) h
    (fun hrun => Reachable.answers hrun) (one_ticker_init quotes) ?_
  intro state next action hanswers _ hinv _ hstep
  rcases life_move hanswers (step_move hstep) with hsame | hmove
  · rw [hsame]
    exact hinv
  · exact hinv.step hmove

/-- The thread is inside a tick. -/
def Ticking (s : Server) (b : Nat) : Prop :=
  s.background b ≠ .check ∧ s.background b ≠ .exited

theorem ticking_iff {b : Nat} : s.Ticking b ↔ s.life.phases b = .tick := by
  show s.background b ≠ .check ∧ s.background b ≠ .exited ↔ (s.background b).phase = .tick
  cases s.background b <;> simp [Background.phase]

/-- The quotes change within ticks. -/
theorem ticking_of_advance {b : Nat} {choice : BackgroundChoice}
    (hstep : s.step (.background b choice) = some t) (hquotes : t.quotes ≠ s.quotes) :
    s.Ticking b := by
  cases step_move hstep with
  | visit b key price volume timestamp todo failed q hat =>
      rw [Ticking, hat]
      exact ⟨nofun, nofun⟩
  | _ => exact absurd rfl hquotes

/-- At most one background thread is ever inside a tick, and at most one ever advances the
quotes. -/
theorem single_ticker (h : Reachable quotes s) (hrest : Transition.Reachable step s t) {b : Nat}
    (hb : s.Ticking b) : (∀ c, t.Ticking c → b = c) ∧
      ∀ c choice next, t.step (.background c choice) = some next →
        next.quotes ≠ t.quotes → b = c := by
  have hfirst := (Reachable.one_ticker h).ticking b (ticking_iff.mp hb)
  have hticking : ∀ c, t.Ticking c → b = c := by
    intro c hc
    have hlater := (Reachable.one_ticker (h.trans hrest)).ticking c (ticking_iff.mp hc)
    exact hfirst.trans hlater.symm
  exact ⟨hticking, fun c _ _ hstep hquotes => hticking c (ticking_of_advance hstep hquotes)⟩

/-- `start` is called and the background thread begins a tick. -/
def beginning : List Action :=
  .call (.other 0) .start :: List.replicate 3 (.caller (.other 0)) ++ [.background 0 .proceed]

/-- While a tick goes on, a caller of `shutdown` takes the handle and waits for the thread, and
`start` is called again. -/
def beginningAgain : List Action :=
  beginning ++ [.take (.other 0), .call (.other 1) .shutdown] ++
    List.replicate 3 (.caller (.other 1)) ++ beginning.take 4

theorem single_ticker_start : ∃ s, Reachable ∅ s ∧ s.Ticking 0 ∧ s.bgSpawned = 2 ∧
    s.background 1 = .check ∧
    ∀ t, Transition.Reachable step s t → ∀ c, t.Ticking c → 0 = c := by
  obtain ⟨s, hrun, hat, hspawned, hsecond⟩ : ∃ s,
      Transition.run step (init ∅) beginningAgain = some s ∧ s.background 0 = .sleep ∧
        s.bgSpawned = 2 ∧ s.background 1 = .check := ⟨_, rfl, rfl, rfl, rfl⟩
  have hs : Reachable ∅ s := Transition.reachable_of_run hrun
  have htick : s.Ticking 0 := by
    rw [Ticking, hat]
    exact ⟨nofun, nofun⟩
  exact ⟨s, hs, htick, hspawned, hsecond, fun t ht => (single_ticker hs ht htick).1⟩

end Server

end QuoteStreamer
