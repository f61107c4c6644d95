import QuoteStreamer.QuoteServer.Service
import QuoteStreamer.QuoteServer.Ticker

/-!
# A panicking update

An update that panics poisons the lock of the quotes and ends the only thread that ever ticks. The
server goes on to accept clients, but no quote changes any more, no pass begins, and every client
thread skips its rounds; no error reaches anybody.
-/

namespace QuoteStreamer.Server

variable {s t : Server} {action : Action} {quotes : Quotes} {b : Nat} {i : Nat}

/-- The event is one of `add_client` or `remove_client`. -/
def Clerical : PubSub.Event Nat Str Message → Prop
  | .subscribed .. | .cancelled _ | .left _ => True
  | _ => False

/-- The ticker has ended after it has poisoned the lock of the quotes, and nobody holds the lock. -/
structure Halted (s : Server) : Prop where
  poisoned : s.poisoned = true
  ticker : s.background 0 = .exited
  spawned : 0 < s.bgSpawned
  writer : s.writer = none
  readers : ∀ i rest, (s.threads i).point ≠ .round rest

/-- In a halted server no background thread is inside a tick. -/
theorem Halted.not_ticking (h : s.Halted) (hone : OneTicker s.life) : ¬ s.Ticking b := by
  intro htick
  obtain rfl := hone.ticking b (ticking_iff.mp htick)
  exact htick.2 h.ticker

/-- Under a poisoned lock no round begins. -/
theorem ThreadMove.not_round {th : ClientThread} (hmove : ThreadMove s i th)
    (hpoisoned : s.poisoned = true) (h : ∀ rest, (s.threads i).point ≠ .round rest)
    (rest : List Str) : th.point ≠ .round rest := by
  cases hmove with
  | same => exact h rest
  | update | shutdown =>
      rw [ClientThread.point_offer]
      exact h rest
  | disconnect => exact h rest
  | recv _ hat hrecv =>
      rcases ClientThread.recv_cases hrecv with ⟨_, _, -, rfl⟩ | ⟨_, _, -, rfl⟩ | ⟨-, -, rfl⟩ <;>
        simp
  | beginRound _ _ _ hsound =>
      rw [hpoisoned] at hsound
      cases hsound
  | processTicker _ ticker others hat => exact absurd hat (h _)
  | endRound hat => exact absurd hat (h _)
  | spawn | skipRound | dropReceiver | terminate => simp [ClientThread.spawn,
      ClientThread.skipRound, ClientThread.dropReceiver, ClientThread.terminate]

/-- A halted server stays so, and its quotes stay as they are. -/
theorem halted_step (hone : OneTicker s.life) (hcustody : s.Custody) (h : s.Halted)
    (hmove : Move s action t) : t.Halted ∧ t.quotes = s.quotes := by
  have hreaders : ∀ i rest, (t.threads i).point ≠ .round rest := fun i =>
    (thread_step hcustody hmove i).not_round h.poisoned (h.readers i)
  have hidle : ∀ {b : Nat} {point : Background}, s.background b = point → point ≠ .check →
      point ≠ .exited → False := by
    rintro b point rfl hcheck hexited
    exact h.not_ticking hone ⟨hcheck, hexited⟩
  cases hmove with
  | startSpawn k hat hnone =>
      refine ⟨⟨h.poisoned, ?_, Nat.succ_pos _, h.writer, hreaders⟩, rfl⟩
      exact (Function.update_of_ne (Nat.ne_of_lt h.spawned) ..).trans h.ticker
  | check b hat =>
      refine ⟨⟨h.poisoned, ?_, h.spawned, h.writer, hreaders⟩, rfl⟩
      exact Locks.stays h.ticker (by rw [hat]; simp)
  | sleep b hat | tryWrite b hat | timeout b hat | visit b _ _ _ _ _ _ _ hat
  | finishUpdate b _ _ hat | panic b _ _ hat | notifyLock b _ hat | notify b _ _ _ hat
  | notified b hat => exact (hidle hat (by simp) (by simp)).elim
  | _ => exact ⟨⟨h.poisoned, h.ticker, h.spawned, h.writer, hreaders⟩, rfl⟩

/-- What can be seen of a halted server are its clients that come and go. -/
theorem halted_seen (hone : OneTicker s.life) (h : s.Halted) :
    ∀ event ∈ s.seen action, Clerical event := by
  have hnotify : ∀ b, s.background b ≠ .notifyLock := fun b hat =>
    h.not_ticking hone (b := b) ⟨by simp [hat], by simp [hat]⟩
  intro event hmem
  unfold seen at hmem
  split at hmem
  · split at hmem
    · dsimp only at hmem
      split at hmem
      · rcases List.mem_cons.mp hmem with rfl | hmem
        · trivial
        · rw [List.mem_singleton.mp hmem]
          trivial
      · rw [List.mem_singleton.mp hmem]
        trivial
    · split at hmem
      · rw [List.mem_singleton.mp hmem]
        trivial
      · cases hmem
    · rw [List.mem_singleton.mp hmem]
      trivial
    · cases hmem
  · split at hmem
    · rename_i hat
      exact absurd hat (h.readers _ _)
    · cases hmem
  · split at hmem
    · rename_i hat
      exact absurd hat (hnotify _)
    · cases hmem
  · cases hmem

/-- When an update panics the server halts. -/
theorem halted_of_panic (hlocks : s.LocksHeld) (hone : OneTicker s.life) {todo : List Str}
    {failed : Bool} (hat : s.background b = .updating todo failed) :
    ({ s with writer := none, poisoned := true }.setBackground b .exited).Halted := by
  have hzero : b = 0 := hone.ticking b (ticking_iff.mp (by rw [Ticking, hat]; simp))
  subst hzero
  refine ⟨rfl, by simp [setBackground], ?_, rfl, fun i rest hround => ?_⟩
  · by_contra hnone
    rw [hlocks.freshBackground 0 (Nat.not_lt.mp hnone)] at hat
    cases hat
  · have hreading := (hlocks.readers i).mpr
      (show (s.threads i).point.reading = true by
        rw [show (s.threads i).point = .round rest from hround]
        rfl)
    rw [hlocks.excluded (hlocks.writer_some hat)] at hreading
    cases hreading

/-- A server whose lock of the quotes is poisoned has halted. -/
theorem Reachable.halted (hs : Reachable quotes s) (hpoisoned : s.poisoned = true) : s.Halted := by
  refine Transition.Reaches.invariant_with
    (fun state : Server => state.poisoned = true → state.Halted) hs
    (fun hrun => And.intro (Reachable.locks_held hrun)
      (And.intro (Reachable.custody hrun) (Reachable.one_ticker hrun))) (fun h => by cases h) ?_
    hpoisoned
  rintro state next action ⟨hlocks, hcustody, hone⟩ - hinv - hstep hpoisoned
  have hmove := step_move hstep
  by_cases hbefore : state.poisoned = true
  · exact (halted_step hone hcustody (hinv hbefore) hmove).1
  · cases hmove with
    | panic b todo failed hat => exact halted_of_panic hlocks hone hat
    | _ => exact absurd hpoisoned hbefore

/-- After an update has panicked, whatever the callers do, no quote changes any more, no pass
begins, and no callback is invoked; clients may still come and go. -/
theorem panicked_update_is_final (hs : Reachable quotes s) (hpoisoned : s.poisoned = true)
    {trace : List (PubSub.Event Nat Str Message)}
    (h : Transition.Traces step Transition.anyStep seen s trace t) :
    t.poisoned = true ∧ t.quotes = s.quotes ∧ ∀ event ∈ trace, Clerical event := by
  have hinv := h.invariant_with
    (fun trace state => state.Halted ∧ state.quotes = s.quotes ∧ ∀ event ∈ trace, Clerical event)
    (fun hrun => And.intro (Reachable.custody (hs.trans hrun))
      (Reachable.one_ticker (hs.trans hrun)))
    ⟨Reachable.halted hs hpoisoned, rfl, fun _ hmem => by cases hmem⟩ ?_
  · exact ⟨hinv.1.poisoned, hinv.2⟩
  · rintro trace state next action ⟨hcustody, hone⟩ ⟨hhalted, hquotes, hevents⟩ - hstep
    obtain ⟨hnext, hsame⟩ := halted_step hone hcustody hhalted (step_move hstep)
    refine ⟨hnext, hsame.trans hquotes, fun event hmem => ?_⟩
    rcases List.mem_append.mp hmem with hmem | hmem
    · exact hevents event hmem
    · exact halted_seen hone hhalted event hmem

/-- The first update panics, and then a client is added as if nothing had happened. -/
theorem panicked_update_is_final_first : ∃ s t, Reachable oneQuote s ∧ s.poisoned = true ∧
    Transition.Traces step Transition.anyStep seen s [.subscribed 0 [['A']]] t ∧
    t.callers (.other 1) = .returned (.added 0) ∧ t.quotes = s.quotes := by
  obtain ⟨s, t, hpanic, hpoisoned, hadd, hseen, hadds⟩ : ∃ s t,
      Transition.run step (init oneQuote) (beginning ++ [.background 0 .proceed,
        .background 0 .proceed, .background 0 .panic]) = some s ∧ s.poisoned = true ∧
      Transition.run step s (.call (.other 1) (.addClient [['A']] (.closure 0)) ::
        List.replicate 4 (.caller (.other 1))) = some t ∧
      Transition.outputs step seen s (.call (.other 1) (.addClient [['A']] (.closure 0)) ::
        List.replicate 4 (.caller (.other 1))) = [.subscribed 0 [['A']]] ∧
      t.callers (.other 1) = .returned (.added 0) := ⟨_, _, rfl, rfl, rfl, rfl, rfl⟩
  have hs : Reachable oneQuote s := Transition.reachable_of_run hpanic
  have htrace : Transition.Traces step Transition.anyStep seen s _ t :=
    Transition.traces_of_run hadd fun _ _ _ => trivial
  rw [hseen] at htrace
  exact ⟨s, t, hs, hpoisoned, htrace, hadds, (panicked_update_is_final hs hpoisoned htrace).2.1⟩

end QuoteStreamer.Server
