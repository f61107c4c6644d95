import QuoteStreamer.QuoteServer.Delivery

/-!
# Passes begin again and again

Under a strongly fair scheduler the ticking thread comes back to `notify_clients`, as long as nobody
has called `shutdown` and no update has panicked: readers that keep the write lock busy only make an
update time out, and the clients mutex is free again and again. So a client that stays in the
registry is served any number of times. The last section has an execution in which one client is.
-/

namespace QuoteStreamer

open Fairness (Execution Enabled Descends)

/-- A bound on the steps ahead of a background thread up to its next pass, when the map has this
many quotes. -/
def Background.untilPass (quotes : Nat) : Background → Nat
  | .notifying todo => todo.length + quotes + 6
  | point => point.work quotes

namespace Server

variable {s t : Server} {action : Action} {b slot count : Nat} {choice : BackgroundChoice}

/-- Each step of a running background thread brings it nearer to its next pass, or begins one, or
ends the thread; it ends only when the flag is set or the update panics. -/
theorem until_pass_lt (hmove : Move s (.background b choice) t) (hflag : s.shutdownFlag = false) :
    (∃ todo, choice = .order todo) ∨ t.poisoned = true ∨
    t.background b ≠ .exited ∧ (t.background b).untilPass t.quotes.keys.length <
      (s.background b).untilPass s.quotes.keys.length := by
  rw [quotes_keys_step hmove]
  cases hmove with
  | notifyLock b todo => exact .inl ⟨todo, rfl⟩
  | panic => exact .inr (.inl rfl)
  | visit _ key _ _ _ todo failed _ hat _ hkey =>
      have hlength := List.length_erase_of_mem hkey
      have hpositive := List.length_pos_of_mem hkey
      refine .inr (.inr ⟨by simp [setBackground], ?_⟩)
      simp only [setBackground, Function.update_self, hat, Background.untilPass, Background.work]
      omega
  | check _ hat =>
      refine .inr (.inr ⟨by simp [setBackground, hflag], ?_⟩)
      simp [setBackground, hat, hflag, Background.untilPass, Background.work]
  | sleep _ hat | tryWrite _ hat | timeout _ hat | finishUpdate _ _ _ hat | notify _ _ _ _ hat
  | notified _ hat =>
      refine .inr (.inr ⟨by simp [setBackground], ?_⟩)
      simp [setBackground, hat, Background.untilPass, Background.work]

/-- A running background thread goes on, unless the flag is set or an update panics. -/
theorem running_step (hlocks : s.LocksHeld) (hmove : Move s action t)
    (hrunning : s.background b ≠ .exited) (hflag : s.shutdownFlag = false) :
    t.background b ≠ .exited ∨ t.poisoned = true := by
  by_cases hself : ∃ choice, action = .background b choice
  · obtain ⟨choice, rfl⟩ := hself
    rcases until_pass_lt hmove hflag with ⟨todo, rfl⟩ | hpoisoned | ⟨hnot, -⟩
    · cases hmove with
      | notifyLock => exact .inl (by simp [setBackground])
    · exact .inr hpoisoned
    · exact .inl hnot
  · have hstays := background_stays hlocks hmove hrunning fun choice hchoice =>
      hself ⟨choice, hchoice⟩
    exact .inl fun hended => hrunning (hstays.symm.trans hended)

/-- A poisoned lock stays so. -/
theorem stays_poisoned (hmove : Move s action t) (hpoisoned : s.poisoned = true) :
    t.poisoned = true := by
  by_contra hsound
  rw [poisoned_step hmove (by simpa using hsound)] at hpoisoned
  cases hpoisoned

/-- A pass is counted for every client that it finds in the registry. -/
theorem passes_of_order {todo : List UInt64} (hmove : Move s (.background b (.order todo)) t)
    (hlive : live slot s.history = true) : passes slot s.history < passes slot t.history := by
  cases hmove with
  | notifyLock => simp [setBackground, passes, hlive]

/-- Every pass is counted. -/
theorem notified_of_order {todo : List UInt64} (hmove : Move s (.background b (.order todo)) t) :
    s.history.count .notified < t.history.count .notified := by
  cases hmove with
  | notifyLock => simp [setBackground]

theorem notified_le_step (hmove : Move s action t) :
    s.history.count .notified ≤ t.history.count .notified := by
  cases hmove with
  | notifyLock | addInsert | addReplace | removeTake => simp [setBackground, setCall]
  | _ => exact le_rfl

section Executions

variable {quotes : Quotes} {e : Execution step (init quotes)}

/-- While something lasts, a running background thread comes to its next pass, unless `shutdown` is
called or an update panics. -/
theorem pass_begins (hfair : ∀ i, e.StronglyFair Action.owner i) (b : Nat) {P Q : Server → Prop}
    (hkeep : ∀ {s t : Server} {action : Action}, P s → Move s action t → Q t ∨ P t)
    (hpass : ∀ {s t : Server} {todo : List UInt64}, P s →
      Move s (.background b (.order todo)) t → Q t) :
    e.LeadsTo (fun s => P s ∧ s.background b ≠ .exited)
      (fun s => s.shutdownFlag = true ∨ s.poisoned = true ∨ Q s) := by
  have hdescends : Descends step (init quotes) Action.owner
      (fun s => (P s ∧ s.background b ≠ .exited) ∧ s.shutdownFlag = false)
      (fun s => s.shutdownFlag = true ∨ s.poisoned = true ∨ Q s)
      (fun s => (s.background b).untilPass s.quotes.keys.length) (fun _ => .background b) := by
    rintro s t action hs ⟨⟨hholds, hrunning⟩, hflag⟩ hstep
    have hmove := step_move hstep
    cases hset : t.shutdownFlag with
    | true => exact .inl (.inl hset)
    | false =>
        rcases hkeep hholds hmove with hdone | hkept
        · exact .inl (.inr (.inr hdone))
        by_cases hself : ∃ choice, action = .background b choice
        · obtain ⟨choice, rfl⟩ := hself
          rcases until_pass_lt hmove hflag with ⟨todo, rfl⟩ | hpoisoned | ⟨hnot, hless⟩
          · exact .inl (.inr (.inr (hpass hholds hmove)))
          · exact .inl (.inr (.inl hpoisoned))
          · exact .inr ⟨⟨⟨hkept, hnot⟩, hset⟩, .inl hless⟩
        · have hstays := background_stays (Reachable.locks_held hs) hmove hrunning
            (fun choice hchoice => hself ⟨choice, hchoice⟩)
          refine .inr ⟨⟨⟨hkept, fun hended => hrunning (hstays.symm.trans hended)⟩, hset⟩, .inr ?_⟩
          refine ⟨?_, rfl, fun howner => hself (owner_background howner)⟩
          show (t.background b).untilPass _ = (s.background b).untilPass _
          rw [hstays, quotes_keys_step hmove]
  have hleads : e.LeadsTo (fun s => (P s ∧ s.background b ≠ .exited) ∧ s.shutdownFlag = false)
      (fun s => s.shutdownFlag = true ∨ s.poisoned = true ∨ Q s) := by
    refine Execution.leads_to_of_recurring hfair hdescends fun n hblocked => ?_
    -- a thread that is never let on stands at the clients mutex, which is free some time
    have hpoint : ∀ m, n ≤ m → (e.state m).background b = .notifyLock := fun m hle =>
      blocked_background (Reachable.listed (e.reachable m)) (hblocked m hle).1.1.2
        (hblocked m hle).2.2
    obtain ⟨m, hle, hfree⟩ := clients_mutex_released (fun i => (hfair i).weakly_fair) n
    exact (hblocked m hle).2.2 (notify_lock_enabled (hpoint m hle) hfree)
  intro n hn
  cases hflag : (e.state n).shutdownFlag with
  | true => exact ⟨n, le_rfl, .inl hflag⟩
  | false => exact hleads n ⟨hn, hflag⟩

/-- A running background thread runs until the flag is set or an update panics. -/
theorem running_later (b : Nat) {n m : Nat} (hrunning : (e.state n).background b ≠ .exited)
    (hle : n ≤ m) : (e.state m).background b ≠ .exited ∨ (e.state m).shutdownFlag = true ∨
      (e.state m).poisoned = true := by
  refine e.stable (P := fun s => s.background b ≠ .exited ∨ s.shutdownFlag = true ∨
    s.poisoned = true) (fun {s t action} hs hup hstep => ?_) (.inl hrunning) hle
  have hmove := step_move hstep
  rcases hup with hrunning | hflag | hpoisoned
  · cases hflag : s.shutdownFlag with
    | true => exact .inr (.inl (flag_step hmove hflag))
    | false =>
        rcases running_step (Reachable.locks_held hs) hmove hrunning hflag with hnot | hpoisoned
        · exact .inl hnot
        · exact .inr (.inr hpoisoned)
  · exact .inr (.inl (flag_step hmove hflag))
  · exact .inr (.inr (stays_poisoned hmove hpoisoned))

/-- What each pass counts up gets as large as one likes, until the thing counted is gone. -/
theorem counts_up (hfair : ∀ i, e.StronglyFair Action.owner i) (b : Nat) (counted : Server → Nat)
    (gone : Server → Prop)
    (hmono : ∀ {s t : Server} {action : Action}, Move s action t → counted s ≤ counted t)
    (hpass : ∀ {s t : Server} {todo : List UInt64}, ¬ gone s →
      Move s (.background b (.order todo)) t → counted s < counted t) (count : Nat) :
    e.LeadsTo (fun s => s.background b ≠ .exited)
      (fun s => s.shutdownFlag = true ∨ s.poisoned = true ∨ gone s ∨ count ≤ counted s) := by
  induction count with
  | zero => exact fun n _ => ⟨n, le_rfl, .inr (.inr (.inr (Nat.zero_le _)))⟩
  | succ count ih =>
      intro n hrunning
      obtain ⟨m, hle, hm⟩ := ih n hrunning
      have hnext := pass_begins hfair b (P := fun s => ¬ gone s ∧ count ≤ counted s)
        (Q := fun s => gone s ∨ count + 1 ≤ counted s) (fun {s t action} hP hmove => ?_)
        fun hP hmove => .inr (hP.2.trans_lt (hpass hP.1 hmove))
      · rcases hm with hflag | hpoisoned | hover | hcount
        · exact ⟨m, hle, .inl hflag⟩
        · exact ⟨m, hle, .inr (.inl hpoisoned)⟩
        · exact ⟨m, hle, .inr (.inr (.inl hover))⟩
        · rcases running_later b hrunning hle with hstill | hflag | hpoisoned
          · by_cases hover : gone (e.state m)
            · exact ⟨m, hle, .inr (.inr (.inl hover))⟩
            · obtain ⟨l, hlater, hl⟩ := hnext m ⟨⟨hover, hcount⟩, hstill⟩
              exact ⟨l, hle.trans hlater, hl⟩
          · exact ⟨m, hle, .inl hflag⟩
          · exact ⟨m, hle, .inr (.inl hpoisoned)⟩
      · by_cases hover : gone t
        · exact .inl (.inl hover)
        · exact .inr ⟨hover, hP.2.trans (hmono hmove)⟩

/-- Passes begin again and again, until `shutdown` is called or an update panics. -/
theorem passes_begin_again (hfair : ∀ i, e.StronglyFair Action.owner i) (b count : Nat) :
    e.LeadsTo (fun s => s.background b ≠ .exited)
      (fun s => s.shutdownFlag = true ∨ s.poisoned = true ∨ count ≤ s.history.count .notified) := by
  intro n hrunning
  obtain ⟨m, hle, hm⟩ := counts_up hfair b (fun s => s.history.count .notified) (fun _ => False)
    notified_le_step (fun _ hmove => notified_of_order hmove) count n hrunning
  exact ⟨m, hle, by simpa using hm⟩

/-- A client is served any number of times, as long as it stays in the registry and nobody calls
`shutdown`, unless its callback or an update of the quotes panics. As everywhere here, the callbacks
of all clients return and do not call the server. -/
theorem registered_client_is_served (hfair : ∀ i, e.StronglyFair Action.owner i)
    (b slot count : Nat) :
    e.LeadsTo (fun s => s.background b ≠ .exited)
      (fun s => s.shutdownFlag = true ∨ live slot s.history = false ∨ s.Served slot count) := by
  intro n hrunning
  obtain ⟨m, hle, hm⟩ := counts_up hfair b (fun s => passes slot s.history)
    (fun s => live slot s.history = false) passes_step
    (fun hlive hmove => passes_of_order hmove (by simpa using hlive)) count n hrunning
  rcases hm with hflag | hpoisoned | hgone | hcount
  · exact ⟨m, hle, .inl hflag⟩
  · exact ⟨m, hle, .inr (.inr (.inr (.inl hpoisoned)))⟩
  · exact ⟨m, hle, .inr (.inl hgone)⟩
  · obtain ⟨l, hlater, hl⟩ := every_pass_is_served hfair slot count m hcount
    exact ⟨l, hle.trans hlater, .inr (.inr hl)⟩

end Executions

/-! ## A server that ticks for ever -/

/-- The background thread and the client thread go on, and nothing panics. -/
def tickAction : Action → Bool
  | .background 0 choice => choice != .panic
  | .client 0 result => result == .ok
  | _ => false

/-- A client thread whose callback does not panic. -/
theorem calm_step (hcustody : s.Custody) (hmove : Move s action t)
    (htick : tickAction action = true) (hcalm : (s.threads 0).panicked = false) :
    (t.threads 0).panicked = false := by
  have hupdate : ∀ {i : Nat} {th : ClientThread}, (i = 0 → th.panicked = false) →
      (Function.update s.threads i th 0).panicked = false := by
    intro i th hth
    by_cases hi : i = 0
    · subst hi
      rw [Function.update_self]
      exact hth rfl
    · rw [Function.update_of_ne (Ne.symm hi)]
      exact hcalm
  cases hmove with
  | notify b id rest client hat hfound =>
      obtain ⟨slot, hreg⟩ := hcustody.registered id client hfound
      rw [hreg.drives.send_ignored]
      refine hupdate ?_
      rintro rfl
      simpa using hcalm
  | recv i result th hat hrecv =>
      refine hupdate ?_
      rintro rfl
      rcases ClientThread.recv_cases hrecv with ⟨_, _, _, rfl⟩ | ⟨_, _, _, rfl⟩ | ⟨_, _, rfl⟩ <;>
        exact hcalm
  | processTicker i result ticker rest hat hallowed =>
      refine hupdate ?_
      rintro rfl
      obtain rfl : result = .ok := eq_of_beq htick
      unfold ClientThread.processTicker
      split
      · simpa using hcalm
      · exact hcalm
  | skipRound | beginRound | endRound | dropReceiver | terminate =>
      refine hupdate ?_
      rintro rfl
      exact hcalm
  | call | take | addLock | addStart | addInsert | addReplace | removeLock | removeTake
  | removeNone | removeSend | removeSendFails | removeJoin | dropSend | dropJoin | unlock
  | startLock | startRunning | startSpawn | startStore | shutdownFlag | shutdownLock
  | shutdownTake | shutdownNone | shutdownJoin => cases htick
  | _ => exact hcalm

/-- One client is in the registry, every method call has returned, and nothing has panicked. -/
structure Steady (s : Server) : Prop where
  calls : ∀ k, s.callers k = .idle
  spawned : s.spawned = 1
  bgSpawned : s.bgSpawned = 1
  flag : s.shutdownFlag = false
  live : live 0 s.history = true
  sound : s.poisoned = false
  calm : (s.threads 0).panicked = false

theorem Steady.step (hcustody : s.Custody) (h : s.Steady) (htick : tickAction action = true)
    (hmove : Move s action t) : t.Steady := by
  have hcalm := calm_step hcustody hmove htick h.calm
  obtain ⟨hcalls, hspawned, hbgSpawned, hflag, hlive, hsound, -⟩ := h
  cases hmove with
  | call | take | addLock | addStart | addInsert | addReplace | removeLock | removeTake
  | removeNone | removeSend | removeSendFails | removeJoin | dropSend | dropJoin | unlock
  | startLock | startRunning | startSpawn | startStore | shutdownFlag | shutdownLock
  | shutdownTake | shutdownNone | shutdownJoin => cases htick
  | panic b => cases b <;> cases htick
  | _ => exact ⟨hcalls, hspawned, hbgSpawned, hflag, hlive, hsound, hcalm⟩

/-- Before a tick, with the client of `oneTick` waiting for its next command. -/
structure BetweenTicks (s : Server) : Prop where
  ticker : s.background 0 = .check
  flag : s.shutdownFlag = false
  unlocked : s.writer = none ∧ s.readers = [] ∧ s.poisoned = false ∧ s.clientsLock = none
  quotes : ∃ q, s.quotes = AList.singleton ['A'] q
  clients : s.clients = AList.singleton 0 ⟨[['A']], .closure 0, some 0, some 0⟩
  thread : ∃ sent rounds, s.threads 0 =
    { ClientThread.spawn [['A']] (.closure 0) with sent := sent, rounds := rounds }

/-- A tick and the round of the client can follow. -/
theorem BetweenTicks.tick (h : s.BetweenTicks) :
    ∃ t, Transition.run step s (oneTick.drop 11) = some t ∧ t.BetweenTicks := by
  obtain ⟨hticker, hflag, ⟨hwriter, hreaders, hsound, hfree⟩, ⟨q, hquotes⟩, hclients,
    sent, rounds, hthread⟩ := h
  have hbackground : s.background = Function.update s.background 0 .check := by
    rw [← hticker, Function.update_eq_self]
  have hthreads : s.threads = Function.update s.threads 0
      { ClientThread.spawn [['A']] (.closure 0) with sent := sent, rounds := rounds } := by
    rw [← hthread, Function.update_eq_self]
  -- with the fields in place the run computes
  cases s
  dsimp only at *
  subst hflag hwriter hreaders hsound hfree hquotes hclients
  rw [hbackground, hthreads]
  exact ⟨_, rfl, rfl, rfl, ⟨rfl, rfl, rfl, rfl⟩, ⟨_, rfl⟩, rfl, _, _, rfl⟩

/-- The tick of `oneTick` over and over. -/
def ticking : Execution step (init oneQuote) :=
  .ofRounds step (init oneQuote) (oneTick.take 11) (oneTick.drop 11)

theorem ticking_begins : ∃ s, Transition.run step (init oneQuote) (oneTick.take 11) = some s ∧
    Reachable oneQuote s ∧ s.Steady ∧ s.BetweenTicks := by
  obtain ⟨s, hrun, hcallers, hsteady, hbetween⟩ : ∃ s,
      Transition.run step (init oneQuote) (oneTick.take 11) = some s ∧
        s.callers (.other 0) = .idle ∧
        ((∀ k, s.callers k = .idle) → s.Steady) ∧ s.BetweenTicks :=
    ⟨_, rfl, rfl, fun hcalls => ⟨hcalls, rfl, rfl, rfl, rfl, rfl, rfl⟩,
      rfl, rfl, ⟨rfl, rfl, rfl, rfl⟩, ⟨_, rfl⟩, rfl, _, _, rfl⟩
  obtain ⟨hs, hsolo⟩ := solo_reaches hrun rfl
  refine ⟨s, hrun, hs.reachable, hsteady fun k => ?_, hbetween⟩
  by_cases hk : k = .other 0
  · rw [hk, hcallers]
  · exact hsolo k hk

/-- What the ticks keep. -/
theorem steady_keeps : ∀ action ∈ oneTick.drop 11, ∀ {s t : Server},
    Reachable oneQuote s ∧ s.Steady → s.step action = some t → Reachable oneQuote t ∧ t.Steady := by
  intro action hmem s t ⟨hs, hsteady⟩ hstep
  have hactions : (oneTick.drop 11).all tickAction = true := rfl
  exact ⟨.tail hs trivial hstep, hsteady.step (Reachable.custody hs)
    (List.all_eq_true.mp hactions action hmem) (step_move hstep)⟩

theorem ticking_steady {n : Nat} (hn : 11 ≤ n) : (ticking.state n).Steady := by
  obtain ⟨s, hrun, hs, hsteady, -⟩ := ticking_begins
  exact (Execution.rounds_keep hrun ⟨hs, hsteady⟩ steady_keeps hn).2

/-- The ticker and the client have their turns in each round, and nobody else has anything to do. -/
theorem ticking_fair (i : ThreadId) : ticking.StronglyFair Action.owner i := by
  obtain ⟨s, hrun, hs, hsteady, hbetween⟩ := ticking_begins
  have hothers : (∀ {s : Server}, Reachable oneQuote s ∧ s.Steady → s.Resting i) →
      ticking.StronglyFair Action.owner i := fun hrest =>
    Execution.strongly_fair_of_disabled hrun ⟨hs, hsteady⟩ steady_keeps
      fun hstate => (hrest hstate).disabled
  have hspawned : ∀ {s : Server}, Reachable oneQuote s ∧ s.Steady → ∀ number,
      s.Resting (.background (number + 1)) ∧ s.Resting (.client (number + 1)) :=
    fun ⟨hs, hsteady⟩ => Reachable.resting hs (Nat.le_of_eq hsteady.spawned)
      (Nat.le_of_eq hsteady.bgSpawned)
  match i with
  | .background 0 =>
      exact Execution.strongly_fair_of_turn hrun hbetween BetweenTicks.tick
        ⟨.background 0 .proceed, by simp [oneTick], rfl⟩
  | .client 0 =>
      exact Execution.strongly_fair_of_turn hrun hbetween BetweenTicks.tick
        ⟨.client 0 .ok, by simp [oneTick], rfl⟩
  | .background (b + 1) => exact hothers fun hstate => (hspawned hstate b).1
  | .client (slot + 1) => exact hothers fun hstate => (hspawned hstate slot).2
  | .caller k =>
      refine hothers fun hstate => ?_
      show (Server.callers _ k).ahead = 0
      rw [hstate.2.calls k]
      rfl

theorem registered_client_is_served_ticking : ∃ e : Execution step (init oneQuote),
    (∀ i, e.StronglyFair Action.owner i) ∧
    (∀ n, 11 ≤ n → (e.state n).shutdownFlag = false ∧ live 0 (e.state n).history = true) ∧
    ∀ count, ∃ m, 11 ≤ m ∧ count ≤ ((e.state m).threads 0).done.length := by
  refine ⟨ticking, ticking_fair, fun n hn => ⟨(ticking_steady hn).flag, (ticking_steady hn).live⟩,
    fun count => ?_⟩
  have hrunning : (ticking.state 11).background 0 = .check := rfl
  obtain ⟨m, hm, hserved⟩ := registered_client_is_served ticking_fair 0 0 count 11
    fun hended => by cases hrunning.symm.trans hended
  -- none of the exceptions comes about
  have hsteady := ticking_steady hm
  rw [hsteady.flag, hsteady.live, Served, hsteady.calm, hsteady.sound] at hserved
  rcases hserved with hflag | hgone | hpanicked | hpoisoned | ⟨hcount, -⟩
  · cases hflag
  · cases hgone
  · cases hpanicked
  · cases hpoisoned
  · exact ⟨m, hm, hcount⟩

end Server

end QuoteStreamer
