import Mathlib.Algebra.Order.Group.Nat

/-!
# Polling with a timeout

A loop that attempts something, sleeps for a period when it has failed, and gives up after a
timeout. Clocks are natural numbers. The scheduler decides how much later than the reading of the
clock an attempt comes, and by how much a sleep is too long; `Slack` bounds both. Whatever is
possible for as long as the slack allows between two attempts is done.
-/

namespace QuoteStreamer.Polling

/-- How a loop is scheduled. -/
structure Poller where
  /-- The time of a sleep. -/
  period : ℕ
  /-- From the reading of the clock at this time to the attempt. -/
  lag : ℕ → ℕ
  /-- By how much a sleep that begins at this time is too long. -/
  oversleep : ℕ → ℕ
  positive : 0 < period

inductive Outcome where
  /-- The attempt at this time has succeeded. -/
  | acquired (time : ℕ)
  /-- The timeout was noticed at this time. -/
  | timedOut (time : ℕ)
  deriving DecidableEq, Repr

/-- When the loop has ended. -/
def Outcome.time : Outcome → ℕ
  | acquired time | timedOut time => time

/-- A poller that is never late. -/
def Poller.exact (period : ℕ) (positive : 0 < period) : Poller :=
  ⟨period, fun _ => 0, fun _ => 0, positive⟩

namespace Poller

variable (p : Poller) (ready : ℕ → Bool) (start timeout : ℕ)

/-- The loop from the reading of the clock at `now` on. -/
def poll (now : ℕ) : Outcome :=
  if now - start < timeout then
    let time := now + p.lag now
    if ready time then .acquired time
    else poll (time + p.period + p.oversleep time)
  else .timedOut now
termination_by start + timeout - now
decreasing_by
  have hperiod := p.positive
  omega

variable {p ready start timeout} {now time gap a : ℕ}

/-- From one attempt to the next it takes no longer than this. -/
def Slack (p : Poller) (gap : ℕ) : Prop :=
  ∀ before after, p.period + p.oversleep before + p.lag after ≤ gap

/-- A poller that is never late attempts once in each period. -/
theorem exact_slack {period : ℕ} (positive : 0 < period) : (exact period positive).Slack period :=
  fun _ _ => le_rfl

/-- A success is one, and comes before long. -/
theorem acquired_of_poll (hslack : p.Slack gap) (hnow : start ≤ now)
    (h : p.poll ready start timeout now = .acquired time) :
    ready time = true ∧ now ≤ time ∧ time < start + timeout + gap := by
  fun_induction poll p ready start timeout now with
  | case1 now hearly attempt hready =>
      have hsame : attempt = time := Outcome.acquired.inj h
      have hlag := hslack now now
      rw [← hsame]
      exact ⟨hready, Nat.le_add_right _ _, by omega⟩
  | case2 now hearly attempt hbusy ih =>
      obtain ⟨hready, hlater, hbound⟩ := ih (by omega) h
      exact ⟨hready, by omega, hbound⟩
  | case3 => cases h

/-- The loop gives up when the timeout is over, and before long. -/
theorem timed_out_of_poll (hslack : p.Slack gap) (hstart : start ≤ now)
    (hnow : now ≤ start + timeout + gap) (h : p.poll ready start timeout now = .timedOut time) :
    start + timeout ≤ time ∧ time ≤ start + timeout + gap := by
  fun_induction poll p ready start timeout now with
  | case1 => cases h
  | case2 now hearly attempt hbusy ih =>
      have hgap := hslack attempt now
      exact ih (by omega) (by omega) h
  | case3 now hlate =>
      cases h
      omega

/-- What can be done at any time of a span that is no shorter than the slack is done, unless the
loop has succeeded before. -/
theorem acquired_in_window (hslack : p.Slack gap) (hstart : start ≤ now)
    (hnow : now + p.lag now ≤ a + gap)
    (hready : ∀ m, a ≤ m → m ≤ a + gap → ready m = true) (hend : a + gap < start + timeout) :
    ∃ time ≤ a + gap, p.poll ready start timeout now = .acquired time := by
  fun_induction poll p ready start timeout now with
  | case1 now hearly attempt hfree => exact ⟨_, hnow, rfl⟩
  | case2 now hearly attempt hbusy ih =>
      -- this attempt was too early for the span, so that the next one is not too late
      have hbefore : attempt < a := by
        by_contra hinside
        exact hbusy (hready attempt (by omega) hnow)
      have hgap := hslack attempt (attempt + p.period + p.oversleep attempt)
      exact ih (by omega) (by omega)
  | case3 now hlate => omega

/-- On a schedule without delays there is one attempt in each period, and the loop gives up exactly
when all of them fail. -/
theorem exact_timed_out_iff {period : ℕ} (positive : 0 < period) {left : ℕ} (hnow : start ≤ now)
    (hleft : start + timeout = now + left * period) :
    (exact period positive).poll ready start timeout now = .timedOut (start + timeout) ↔
      ∀ n < left, ready (now + n * period) = false := by
  induction left generalizing now with
  | zero =>
      rw [poll, if_neg (by omega)]
      simp [hleft]
  | succ left ih =>
      have hnext : start + timeout = now + period + left * period := by
        rw [hleft, Nat.succ_mul]
        omega
      have hearly : now - start < timeout := by
        have hperiod := positive
        omega
      have hfirst : (exact period positive).poll ready start timeout now =
          if ready now then .acquired now
          else (exact period positive).poll ready start timeout (now + period) := by
        rw [poll, if_pos hearly]
        rfl
      have hshift : ∀ n, now + (n + 1) * period = now + period + n * period := by
        intro n
        rw [Nat.succ_mul]
        omega
      rw [hfirst, Nat.forall_lt_succ_left, Nat.zero_mul, Nat.add_zero]
      cases hready : ready now with
      | true => simp
      | false =>
          simp only [hshift, true_and, Bool.false_eq_true, if_false]
          exact ih (by omega) hnext

end Poller

end QuoteStreamer.Polling
