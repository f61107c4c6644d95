import QuoteStreamer.Lib.Transition

/-!
# Refinement by forward simulation

A specification is a relation `next before events after`: a step with the events that it shows.
`Observes` collects the events along a run of it. If each step of an executable system, taken in
a reachable state, can be answered by a run of the specification that shows the same events, then
every trace of the system is one of the specification.
-/

namespace QuoteStreamer.Simulation

open Transition (Traces Reachable anyStep)

variable {σ α ε τ : Type*} {next : τ → List ε → τ → Prop}

/-- A run of the specification from the first state to the last shows these events. -/
inductive Observes (next : τ → List ε → τ → Prop) (start : τ) : List ε → τ → Prop where
  | refl : Observes next start [] start
  | tail {trace events : List ε} {middle finish : τ} :
      Observes next start trace middle → next middle events finish →
      Observes next start (trace ++ events) finish

section Observes

variable {start middle finish : τ} {trace events : List ε}

/-- One step. -/
theorem Observes.single (h : next start events finish) : Observes next start events finish :=
  .tail .refl h

/-- Runs compose. -/
theorem Observes.trans {rest : List ε} (h : Observes next start trace middle)
    (hrest : Observes next middle rest finish) : Observes next start (trace ++ rest) finish := by
  induction hrest with
  | refl =>
      rw [List.append_nil]
      exact h
  | tail _ hstep ih =>
      rw [← List.append_assoc]
      exact .tail ih hstep

/-- A step in front of a run. -/
theorem Observes.head {rest : List ε} (h : next start events middle)
    (hrest : Observes next middle rest finish) : Observes next start (events ++ rest) finish :=
  (Observes.single h).trans hrest

/-- What holds of the start and the empty trace and is kept by every step holds at the end. -/
theorem Observes.invariant (inv : List ε → τ → Prop) (h : Observes next start trace finish)
    (hstart : inv [] start)
    (hkeep : ∀ {trace events : List ε} {before after : τ}, inv trace before →
      next before events after → inv (trace ++ events) after) : inv trace finish := by
  induction h with
  | refl => exact hstart
  | tail _ hstep ih => exact hkeep ih hstep

end Observes

/-- The states of the system are related to states of the specification, the starts are, and each
step in a reachable state is answered with the same events. -/
structure Simulates (step : σ → α → Option σ) (out : σ → α → List ε) (start : σ)
    (next : τ → List ε → τ → Prop) (specStart : τ) (R : σ → τ → Prop) : Prop where
  init : R start specStart
  answer : ∀ {state after : σ} {action : α} {spec : τ}, Reachable step start state →
    R state spec → step state action = some after →
    ∃ spec', Observes next spec (out state action) spec' ∧ R after spec'

variable {step : σ → α → Option σ} {out : σ → α → List ε} {start finish : σ} {specStart : τ}
  {R : σ → τ → Prop} {trace : List ε}

/-- Every trace of the system is a trace of the specification. -/
theorem Simulates.traces (h : Simulates step out start next specStart R)
    (htrace : Traces step anyStep out start trace finish) :
    ∃ spec, Observes next specStart trace spec ∧ R finish spec := by
  induction htrace with
  | refl => exact ⟨specStart, .refl, h.init⟩
  | tail hrun _ hstep ih =>
      obtain ⟨spec, hspec, hrel⟩ := ih
      obtain ⟨spec', hanswer, hrel'⟩ := h.answer hrun.reaches hrel hstep
      exact ⟨spec', hspec.trans hanswer, hrel'⟩

end QuoteStreamer.Simulation
