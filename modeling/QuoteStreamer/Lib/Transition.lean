import Mathlib.Logic.Function.Basic
import Mathlib.Logic.Relation

/-!
# Runs of an executable transition system

A system is a partial function `step : σ → α → Option σ`: the state, the action the
scheduler picks, and the next state, `none` where the action is not enabled. `run` executes a
list of actions. `Reaches step ok s u` says that some run leads from `s` to `u` and that every
step of it was taken in a state and with an action that `ok` allows. `Traces` also
collects what the steps put out. The rules below are the only inductions over runs: an invariant is
given by its step lemma, and so is a relation between the two ends of a run.
-/

namespace QuoteStreamer.Transition

variable {σ α : Type*}

/-- Execute the actions in order, failing at the first one that is not enabled. -/
def run (step : σ → α → Option σ) : σ → List α → Option σ
  | state, [] => some state
  | state, action :: rest => step state action >>= fun next => run step next rest

/-- Some run leads from `start` to the state, and each of its steps is allowed by `ok`. -/
inductive Reaches (step : σ → α → Option σ) (ok : σ → α → Prop) (start : σ) : σ → Prop where
  | refl : Reaches step ok start start
  | tail {middle finish : σ} {action : α} :
      Reaches step ok start middle → ok middle action → step middle action = some finish →
      Reaches step ok start finish

/-- Every step is allowed. -/
def anyStep (_ : σ) (_ : α) : Prop := True

/-- Some run leads from `start` to the state. -/
abbrev Reachable (step : σ → α → Option σ) (start : σ) : σ → Prop :=
  Reaches step anyStep start

variable {step : σ → α → Option σ} {ok : σ → α → Prop} {start middle finish : σ}

/-- Runs compose. -/
theorem Reaches.trans (h : Reaches step ok start middle) (hrest : Reaches step ok middle finish) :
    Reaches step ok start finish := by
  induction hrest with
  | refl => exact h
  | tail _ hok hstep ih => exact .tail ih hok hstep

/-- One allowed step is a run. -/
theorem Reaches.single {action : α} (hok : ok start action)
    (hstep : step start action = some finish) :
    Reaches step ok start finish :=
  .tail .refl hok hstep

/-- A run may forget what its steps were known to satisfy. -/
theorem Reaches.mono {ok' : σ → α → Prop} (h : Reaches step ok start finish)
    (himp : ∀ state action, ok state action → ok' state action) :
    Reaches step ok' start finish := by
  induction h with
  | refl => exact .refl
  | tail _ hok hstep ih => exact .tail ih (himp _ _ hok) hstep

/-- Every run is a run of unrestricted steps. -/
theorem Reaches.reachable (h : Reaches step ok start finish) : Reachable step start finish :=
  h.mono fun _ _ _ => trivial

/-- What holds at the start and is kept by every allowed step holds at the end. -/
theorem Reaches.invariant (inv : σ → Prop) (h : Reaches step ok start finish) (hstart : inv start)
    (hkeep : ∀ {state next : σ} {action : α}, inv state → ok state action →
      step state action = some next → inv next) : inv finish := by
  induction h with
  | refl => exact hstart
  | tail _ hok hstep ih => exact hkeep ih hok hstep

/-- An invariant may use another one that is already known of every state of the run. -/
theorem Reaches.invariant_with (inv : σ → Prop) {known : σ → Prop}
    (h : Reaches step ok start finish)
    (hknown : ∀ {state : σ}, Reaches step ok start state → known state) (hstart : inv start)
    (hkeep : ∀ {state next : σ} {action : α}, known state → known next → inv state →
      ok state action → step state action = some next → inv next) : inv finish := by
  induction h with
  | refl => exact hstart
  | tail hrun hok hstep ih =>
      exact hkeep (hknown hrun) (hknown (.tail hrun hok hstep)) ih hok hstep

/-- A run of two lists of actions is a run of the second after one of the first. -/
theorem run_append {first second : List α} (h : run step start first = some middle) :
    run step start (first ++ second) = run step middle second := by
  induction first generalizing start with
  | nil =>
      cases h
      rfl
  | cons action rest ih =>
      simp only [run, bind, Option.bind_eq_some_iff] at h
      obtain ⟨next, hstep, hrest⟩ := h
      rw [List.cons_append, run, hstep]
      exact ih hrest

/-! ## Runs that put something out -/

/-- Some run of allowed steps leads from `start` to the state, and its steps have put out the
list. -/
inductive Traces {ε : Type*} (step : σ → α → Option σ) (ok : σ → α → Prop) (out : σ → α → List ε)
    (start : σ) : List ε → σ → Prop where
  | refl : Traces step ok out start [] start
  | tail {trace : List ε} {middle finish : σ} {action : α} :
      Traces step ok out start trace middle → ok middle action → step middle action = some finish →
      Traces step ok out start (trace ++ out middle action) finish

variable {ε : Type*} {out : σ → α → List ε} {trace : List ε}

/-- A trace belongs to a run. -/
theorem Traces.reaches (h : Traces step ok out start trace finish) :
    Reaches step ok start finish := by
  induction h with
  | refl => exact .refl
  | tail _ hok hstep ih => exact .tail ih hok hstep

/-- What holds of the start and the empty trace, and is kept by every allowed step, holds of the end
and the trace; what is known of every state of the run may be used. -/
theorem Traces.invariant_with (inv : List ε → σ → Prop) {known : σ → Prop}
    (h : Traces step ok out start trace finish)
    (hknown : ∀ {state : σ}, Reaches step ok start state → known state) (hstart : inv [] start)
    (hkeep : ∀ {trace : List ε} {state next : σ} {action : α}, known state → inv trace state →
      ok state action → step state action = some next → inv (trace ++ out state action) next) :
    inv trace finish := by
  induction h with
  | refl => exact hstart
  | tail hrun hok hstep ih => exact hkeep (hknown hrun.reaches) ih hok hstep

/-- Traces compose. -/
theorem Traces.trans {rest : List ε} (h : Traces step ok out start trace middle)
    (hrest : Traces step ok out middle rest finish) :
    Traces step ok out start (trace ++ rest) finish := by
  induction hrest with
  | refl =>
      rw [List.append_nil]
      exact h
  | tail _ hok hstep ih =>
      rw [← List.append_assoc]
      exact .tail ih hok hstep

/-- Where steps put out one event at most, an event of the trace is that of one step of the run. -/
theorem Traces.cut (hone : ∀ state action, (out state action).length ≤ 1)
    (h : Traces step ok out start trace finish) {before after : List ε} {event : ε}
    (hsplit : trace = before ++ event :: after) : ∃ state action next,
      Traces step ok out start before state ∧ step state action = some next ∧
        out state action = [event] ∧ Reaches step ok state finish := by
  induction h generalizing after with
  | refl => simp at hsplit
  | tail hrun hok hstep ih =>
      rename_i trace middle last action
      have hearlier : ∀ {rest : List ε}, trace = before ++ event :: rest → ∃ state action next,
          Traces step ok out start before state ∧ step state action = some next ∧
            out state action = [event] ∧ Reaches step ok state last := by
        intro rest htrace
        obtain ⟨state, earlier, next, hbefore, hnext, hout, hreaches⟩ := ih htrace
        exact ⟨state, earlier, next, hbefore, hnext, hout, hreaches.tail hok hstep⟩
      rcases List.eq_nil_or_concat after with rfl | ⟨rest, final, rfl⟩
      · rcases hout : out middle action with _ | ⟨shown, _ | ⟨_, _⟩⟩
        · rw [hout, List.append_nil] at hsplit
          exact hearlier hsplit
        · rw [hout] at hsplit
          obtain ⟨rfl, heq⟩ := List.append_inj' hsplit rfl
          cases heq
          exact ⟨middle, action, last, hrun, hstep, hout, .single hok hstep⟩
        · have hlength := hone middle action
          simp [hout] at hlength
      · rcases hout : out middle action with _ | ⟨shown, _ | ⟨_, _⟩⟩
        · rw [hout, List.append_nil] at hsplit
          exact hearlier hsplit
        · rw [hout, List.concat_eq_append, ← List.cons_append, ← List.append_assoc] at hsplit
          exact hearlier (List.append_inj_left' hsplit rfl)
        · have hlength := hone middle action
          simp [hout] at hlength

/-- The outputs of a list of actions, as far as they are enabled. -/
def outputs (step : σ → α → Option σ) (out : σ → α → List ε) : σ → List α → List ε
  | _, [] => []
  | state, action :: rest =>
      match step state action with
      | some next => out state action ++ outputs step out next rest
      | none => []

/-- What `run` computes has the trace that `outputs` computes, if each step that it takes is
allowed; an invariant of the run may be used for that. -/
theorem traces_of_run_with (inv : σ → Prop) {actions : List α}
    (h : run step start actions = some finish) (hstart : inv start)
    (hok : ∀ action ∈ actions, ∀ {state next : σ}, inv state → step state action = some next →
      ok state action ∧ inv next) :
    Traces step ok out start (outputs step out start actions) finish ∧ inv finish := by
  induction actions generalizing start with
  | nil =>
      cases h
      exact ⟨.refl, hstart⟩
  | cons action rest ih =>
      simp only [run, bind, Option.bind_eq_some_iff] at h
      obtain ⟨next, hstep, hrest⟩ := h
      obtain ⟨hallowed, hnext⟩ := hok action List.mem_cons_self hstart hstep
      have hfirst : Traces step ok out start ([] ++ out start action) next :=
        .tail .refl hallowed hstep
      rw [List.nil_append] at hfirst
      obtain ⟨htraces, hfinish⟩ :=
        ih hrest hnext fun other hmem => hok other (List.mem_cons_of_mem action hmem)
      simp only [outputs, hstep]
      exact ⟨hfirst.trans htraces, hfinish⟩

/-- What `run` computes from allowed actions has the trace that `outputs` computes. -/
theorem traces_of_run {actions : List α} (h : run step start actions = some finish)
    (hok : ∀ action ∈ actions, ∀ state, ok state action) :
    Traces step ok out start (outputs step out start actions) finish :=
  have htraces := traces_of_run_with (fun _ => True) h trivial
    fun action hmem state _ _ _ => ⟨hok action hmem state, trivial⟩
  htraces.1

/-- What `run` computes is reached by allowed steps, if each step that it takes is allowed; an
invariant of the run may be used for that. -/
theorem reaches_of_run_with (inv : σ → Prop) {actions : List α}
    (h : run step start actions = some finish) (hstart : inv start)
    (hok : ∀ action ∈ actions, ∀ {state next : σ}, inv state → step state action = some next →
      ok state action ∧ inv next) : Reaches step ok start finish ∧ inv finish :=
  have htraces : Traces step ok (fun _ _ => ([] : List Unit)) start _ finish ∧ inv finish :=
    traces_of_run_with inv h hstart hok
  ⟨htraces.1.reaches, htraces.2⟩

/-- What `run` computes from allowed actions is reached by allowed steps. -/
theorem reaches_of_run {actions : List α} (h : run step start actions = some finish)
    (hok : ∀ action ∈ actions, ∀ state, ok state action) : Reaches step ok start finish :=
  have hreaches := reaches_of_run_with (fun _ => True) h trivial
    fun action hmem state _ _ _ => ⟨hok action hmem state, trivial⟩
  hreaches.1

/-- What `run` computes is reachable. -/
theorem reachable_of_run {actions : List α} (h : run step start actions = some finish) :
    Reachable step start finish :=
  reaches_of_run h fun _ _ _ => trivial

/-- The step function that makes allowed steps only. -/
def restrict (step : σ → α → Option σ) (ok : σ → α → Prop)
    [∀ state action, Decidable (ok state action)] (state : σ) (action : α) : Option σ :=
  if ok state action then step state action else none

theorem restrict_eq_some_iff [∀ state action, Decidable (ok state action)] {action : α} :
    restrict step ok start action = some finish ↔
      ok start action ∧ step start action = some finish := by
  unfold restrict
  split
  · next hok => exact (and_iff_right hok).symm
  · next hnot => simp [hnot]

/-- What `run` computes with allowed steps only is reached by them. -/
theorem reaches_of_restricted_run [∀ state action, Decidable (ok state action)] {actions : List α}
    (h : run (restrict step ok) start actions = some finish) : Reaches step ok start finish := by
  induction actions generalizing start with
  | nil =>
      cases h
      exact .refl
  | cons action rest ih =>
      simp only [run, bind, Option.bind_eq_some_iff] at h
      obtain ⟨next, hstep, hrest⟩ := h
      obtain ⟨hok, hstep⟩ := restrict_eq_some_iff.mp hstep
      exact (Reaches.single hok hstep).trans (ih hrest)

end QuoteStreamer.Transition
