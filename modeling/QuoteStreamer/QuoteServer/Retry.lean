import QuoteStreamer.Defs
import QuoteStreamer.Lib.Polling
import QuoteStreamer.QuoteServer.Ahead
import QuoteStreamer.QuoteServer.Poison

/-!
# Waiting for the write lock

The retry loop of `update_quotes` in time, counted in nanoseconds as `Instant` does. The other
threads move as they like, so that the server is a function of the time; the loop attempts
`try_write`, sleeps, and gives up after `WRITE_TIMEOUT_MS`. In `Server.step` the whole loop is one
step of the background thread, which the scheduler chooses; here it is said which, and when.
-/

namespace QuoteStreamer.Server

open Polling (Poller Outcome)

/-- Milliseconds in nanoseconds. -/
def nanos (ms : Nat) : Nat :=
  ms * 1000000

/-- `try_write` succeeds: nobody holds the lock of the quotes, and it is not poisoned. -/
def writable (s : Server) : Bool :=
  s.writer = none && s.readers = [] && s.poisoned = false

/-- The attempt at this time would succeed. -/
def writableAt (state : Nat → Server) (time : Nat) : Bool :=
  (state time).writable

/-- The loop of `update_quotes` that begins at `start`. -/
def awaitWrite (p : Poller) (state : Nat → Server) (start : Nat) : Outcome :=
  p.poll (writableAt state) start (nanos Defs.writeTimeoutMs) start

/-- The server from the time on at which a background thread has come to the loop. As long as the
loop goes on, only the other threads move. -/
structure Meanwhile (quotes : Quotes) (p : Poller) (b start : Nat) (state : Nat → Server) :
    Prop where
  reachable : Reachable quotes (state start)
  waiting : (state start).background b = .tryWrite
  moves : ∀ time ≥ start, time < (awaitWrite p state start).time → Transition.Reaches step
    (fun _ action => ∀ choice, action ≠ .background b choice) (state time) (state (time + 1))

variable {p : Poller} {state : Nat → Server} {start gap b time : Nat} {quotes : Quotes}
variable {s : Server}

theorem writable_iff :
    s.writable = true ↔ s.writer = none ∧ s.readers = [] ∧ s.poisoned = false := by
  simp [writable, and_assoc]

/-- At each moment of the loop the server is in a state that it can reach, and the thread is at the
loop. -/
theorem Meanwhile.at_loop (h : Meanwhile quotes p b start state) (htime : start ≤ time)
    (hend : time ≤ (awaitWrite p state start).time) :
    Reachable quotes (state time) ∧ (state time).background b = .tryWrite := by
  induction time, htime using Nat.le_induction with
  | base => exact ⟨h.reachable, h.waiting⟩
  | succ time htime ih =>
      obtain ⟨hreachable, hat⟩ := ih (by omega)
      have hothers := h.moves time htime hend
      refine ⟨hreachable.trans hothers.reachable, ?_⟩
      refine hothers.invariant_with (fun s => s.background b = .tryWrite)
        (fun hrun => Reachable.locks_held (hreachable.trans hrun.reachable)) hat ?_
      intro s t action hlocks _ hat hother hstep
      have hrunning : s.background b ≠ .exited := by simp [hat]
      exact (background_stays hlocks (step_move hstep) hrunning hother).trans hat

/-- Where a thread waits for the write lock, the lock is not poisoned, so somebody holds it or it
can be had. -/
theorem held_of_waiting (hs : Reachable quotes s) (hat : s.background b = .tryWrite)
    (hbusy : s.writable = false) : s.writer ≠ none ∨ s.readers ≠ [] := by
  have hsound : s.poisoned = false := by
    by_contra hpoisoned
    have hhalted := Reachable.halted hs (by simpa using hpoisoned)
    exact hhalted.not_ticking (Reachable.one_ticker hs) (b := b)
      ⟨by rw [hat]; nofun, by rw [hat]; nofun⟩
  by_contra hfree
  push Not at hfree
  rw [writable_iff.mpr ⟨hfree.1, hfree.2, hsound⟩] at hbusy
  cases hbusy

/-- Whoever finds the lock free obtains it. -/
theorem acquired_step (hwaiting : s.background b = .tryWrite) (hfree : s.writable = true) :
    ∃ next, s.step (.background b .proceed) = some next ∧ next.writer = some b := by
  have hstep : s.step (.background b .proceed) = some ({ s with
      writer := some b, version := s.version + 1 }.setBackground b
        (.updating s.quotes.keys false)) := by
    simp only [step, backgroundStep, hwaiting]
    exact if_pos (writable_iff.mp hfree)
  exact ⟨_, hstep, rfl⟩

/-- Giving up is a step of the background thread. -/
theorem timed_out_step (hwaiting : s.background b = .tryWrite) :
    ∃ next, s.step (.background b .timeout) = some next ∧ next.background b = .notifyLock := by
  have hstep : s.step (.background b .timeout) = some (s.setBackground b .notifyLock) := by
    simp only [step, backgroundStep, hwaiting]
  exact ⟨_, hstep, by simp [setBackground]⟩

/-- The loop ends in bounded time, and its end is a step of the background thread. It obtains the
lock, or it gives up after the timeout; and then in every span of time that is as long as the slack
between two attempts, somebody held the lock at some moment. -/
theorem update_waits (hslack : p.Slack gap) (h : Meanwhile quotes p b start state) :
    (∃ time next, awaitWrite p state start = .acquired time ∧
      (start ≤ time ∧ time < start + nanos Defs.writeTimeoutMs + gap) ∧
      (state time).step (.background b .proceed) = some next ∧ next.writer = some b) ∨
    ∃ time next, awaitWrite p state start = .timedOut time ∧
      (start + nanos Defs.writeTimeoutMs ≤ time ∧
        time ≤ start + nanos Defs.writeTimeoutMs + gap) ∧
      (state time).step (.background b .timeout) = some next ∧ next.background b = .notifyLock ∧
      ∀ a, start ≤ a → a + gap < start + nanos Defs.writeTimeoutMs →
        ∃ m, a ≤ m ∧ m ≤ a + gap ∧ ((state m).writer ≠ none ∨ (state m).readers ≠ []) := by
  cases houtcome : awaitWrite p state start with
  | acquired time =>
      obtain ⟨hready, hlater, hbound⟩ := Poller.acquired_of_poll hslack le_rfl houtcome
      obtain ⟨next, hstep, hwriter⟩ :=
        acquired_step (h.at_loop hlater (by rw [houtcome]; rfl)).2 hready
      exact .inl ⟨time, next, rfl, ⟨hlater, hbound⟩, hstep, hwriter⟩
  | timedOut time =>
      have hbounds := Poller.timed_out_of_poll hslack le_rfl (by omega) houtcome
      have hlater : start ≤ time := by omega
      obtain ⟨next, hstep, hpoint⟩ := timed_out_step (h.at_loop hlater (by rw [houtcome]; rfl)).2
      refine .inr ⟨time, next, rfl, hbounds, hstep, hpoint, fun a ha hend => ?_⟩
      -- otherwise the lock would have been obtained within the span
      by_contra htaken
      have hfree : ∀ m, a ≤ m → m ≤ a + gap → writableAt state m = true := by
        intro m hm hm'
        by_contra hbusy
        have hended : m ≤ (awaitWrite p state start).time := by
          rw [houtcome]
          show m ≤ time
          omega
        obtain ⟨hreachable, hwaiting⟩ := h.at_loop (by omega) hended
        exact htaken ⟨m, hm, hm',
          held_of_waiting hreachable hwaiting (by simpa [writableAt] using hbusy)⟩
      have hlag := hslack start start
      obtain ⟨early, -, hacquired⟩ :=
        Poller.acquired_in_window hslack (le_refl start) (by omega) hfree hend
      rw [awaitWrite, hacquired] at houtcome
      cases houtcome

/-- The poller of `update_quotes` on a schedule without delays. -/
def promptPoller : Poller :=
  .exact (nanos Defs.quoteUpdateRetryPeriodMsec) (by decide)

/-- Without delays the lock is tried a hundred times, and readers that hold it at each of these
moments keep the update from happening, however long it is free in between. -/
theorem prompt_update_times_out_iff :
    awaitWrite promptPoller state start = .timedOut (start + nanos Defs.writeTimeoutMs) ↔
      ∀ n < 100, writableAt state (start + n * nanos Defs.quoteUpdateRetryPeriodMsec) = false :=
  Poller.exact_timed_out_iff _ le_rfl
    (by simp only [nanos, Defs.writeTimeoutMs, Defs.quoteUpdateRetryPeriodMsec])

/-- The second update comes to the loop while the client is still in the round of the first, which
ends five milliseconds later. -/
def readerFirst (reading free : Server) (time : Nat) : Server :=
  if time < nanos 5 then reading else free

/-- A reader holds the lock at first, and the update obtains it afterwards. -/
theorem update_waits_for_reader : ∃ reading free, (reading.readers = [0] ∧ free.readers = []) ∧
    Meanwhile oneQuote promptPoller 0 0 (readerFirst reading free) ∧
    ∃ time next, awaitWrite promptPoller (readerFirst reading free) 0 = .acquired time ∧
      (readerFirst reading free time).step (.background 0 .proceed) = some next ∧
      next.writer = some 0 := by
  obtain ⟨reading, free, hrun, hat, hreaders, hround, hgone, hwriter⟩ : ∃ reading free,
      Transition.run step (init oneQuote) (oneTick.take 21 ++ [.background 0 .proceed,
        .background 0 .proceed]) = some reading ∧ reading.background 0 = .tryWrite ∧
      reading.readers = [0] ∧ Transition.run step reading (oneTick.drop 21) = some free ∧
      free.readers = [] ∧ free.writer = none := ⟨_, _, rfl, rfl, rfl, rfl, rfl, rfl⟩
  have hends : Transition.Reaches step (fun _ action => ∀ choice, action ≠ .background 0 choice)
      reading free :=
    Transition.reaches_of_run hround (by simp [oneTick])
  have hmeanwhile : Meanwhile oneQuote promptPoller 0 0 (readerFirst reading free) := by
    refine ⟨Transition.reachable_of_run hrun, hat, fun time _ _ => ?_⟩
    by_cases hbefore : time < nanos 5
    · rw [readerFirst, if_pos hbefore]
      by_cases hafter : time + 1 < nanos 5
      · rw [readerFirst, if_pos hafter]
        exact .refl
      · rw [readerFirst, if_neg hafter]
        exact hends
    · rw [readerFirst, readerFirst, if_neg hbefore, if_neg (by omega)]
      exact .refl
  refine ⟨reading, free, ⟨hreaders, hgone⟩, hmeanwhile, ?_⟩
  rcases update_waits (Poller.exact_slack _) hmeanwhile with
    ⟨time, next, hacquired, -, hstep, hwriter⟩ | ⟨time, next, -, -, -, -, htaken⟩
  · exact ⟨time, next, hacquired, hstep, hwriter⟩
  · -- from the end of the round on nobody holds the lock
    obtain ⟨m, hlater, -, hheld⟩ := htaken (nanos 5) (Nat.zero_le _) (by
      simp only [nanos, Defs.writeTimeoutMs, Defs.quoteUpdateRetryPeriodMsec]
      decide)
    rw [readerFirst, if_neg (Nat.not_lt.mpr hlater)] at hheld
    exact absurd hgone (hheld.resolve_left (not_not_intro hwriter))

end QuoteStreamer.Server
