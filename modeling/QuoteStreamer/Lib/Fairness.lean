import Mathlib.Order.WellFounded
import QuoteStreamer.Lib.Transition

/-!
# Executions and fairness

An execution is an infinite run of an executable transition system. The system may also stand still,
so that a finite run is an execution as well. `owner` says which thread takes an action; actions
without an owner belong to the environment, which need not take them. A weakly fair execution lets
a thread act that is enabled from some moment on, a strongly fair one also a thread that is enabled
again and again. `leads_to_of_rank` is the rule for proving that something happens: the rank
of the state goes down along a well-founded order, and as long as it stays, one helpful thread
waits for its turn. The two rules after it say why that turn comes. The last section builds
executions from lists of actions, one of them taken over and over.
-/

namespace QuoteStreamer.Fairness

open Transition (run Reachable)

variable {σ α ι : Type*}

/-- One moment of an execution: an action is taken, or the system stands still. -/
inductive Moment (step : σ → α → Option σ) (state : σ) : Option α → σ → Prop where
  | still : Moment step state none state
  | act {action : α} {next : σ} (hstep : step state action = some next) :
      Moment step state (some action) next

/-- An infinite run with the actions that it takes. -/
structure Execution (step : σ → α → Option σ) (start : σ) where
  state : ℕ → σ
  action : ℕ → Option α
  begins : state 0 = start
  moment : ∀ n, Moment step (state n) (action n) (state (n + 1))

/-- The thread can act. -/
def Enabled (step : σ → α → Option σ) (owner : α → Option ι) (i : ι) (state : σ) : Prop :=
  ∃ action next, owner action = some i ∧ step state action = some next

/-- Every step from `P` leads to `Q`, or keeps `P` and lowers the rank, or keeps `P`, the rank and
the helpful thread, and is not a step of that thread. -/
def Descends {β : Type*} [LT β] (step : σ → α → Option σ) (start : σ) (owner : α → Option ι)
    (P Q : σ → Prop) (rank : σ → β) (helper : σ → ι) : Prop :=
  ∀ {state next : σ} {action : α}, Reachable step start state → P state →
    step state action = some next →
    Q next ∨ P next ∧ (rank next < rank state ∨
      rank next = rank state ∧ helper next = helper state ∧ owner action ≠ some (helper state))

/-- The other system is what can be seen of this one: a step is one of the other system under its
label, and without a label it cannot be seen. -/
structure Projection {τ β : Type*} (step : σ → α → Option σ) (start : σ)
    (step' : τ → β → Option τ) where
  view : σ → τ
  label : σ → α → Option β
  moment : ∀ {state next : σ} {action : α}, Reachable step start state →
    step state action = some next → Moment step' (view state) (label state action) (view next)

namespace Execution

variable {step : σ → α → Option σ} {start finish : σ} {owner : α → Option ι}
  {P Q : σ → Prop} {i : ι}

/-- What happens in one moment. -/
theorem moment_cases (e : Execution step start) (n : ℕ) :
    e.action n = none ∧ e.state (n + 1) = e.state n ∨
    ∃ action, e.action n = some action ∧ step (e.state n) action = some (e.state (n + 1)) := by
  have hmoment := e.moment n
  generalize e.action n = taken at hmoment ⊢
  generalize e.state (n + 1) = next at hmoment ⊢
  cases hmoment with
  | still => exact .inl ⟨rfl, rfl⟩
  | act hstep => exact .inr ⟨_, rfl, hstep⟩

/-- Every state of an execution is reachable. -/
theorem reachable (e : Execution step start) (n : ℕ) : Reachable step start (e.state n) := by
  induction n with
  | zero =>
      rw [e.begins]
      exact .refl
  | succ n ih =>
      rcases e.moment_cases n with ⟨-, hstill⟩ | ⟨action, -, hstep⟩
      · rw [hstill]
        exact ih
      · exact .tail ih trivial hstep

/-- What no step undoes holds for ever. -/
theorem stable (e : Execution step start)
    (hkeep : ∀ {state next : σ} {action : α}, Reachable step start state → P state →
      step state action = some next → P next) {n m : ℕ} (hn : P (e.state n)) (hle : n ≤ m) :
    P (e.state m) := by
  induction m, hle using Nat.le_induction with
  | base => exact hn
  | succ m _ ih =>
      rcases e.moment_cases m with ⟨-, hstill⟩ | ⟨action, -, hstep⟩
      · rw [hstill]
        exact ih
      · exact hkeep (e.reachable m) ih hstep

/-- The thread takes the action of this moment. -/
def Acts (e : Execution step start) (owner : α → Option ι) (i : ι) (n : ℕ) : Prop :=
  ∃ action, e.action n = some action ∧ owner action = some i

/-- A thread that is enabled from some moment on acts after it. -/
def WeaklyFair (e : Execution step start) (owner : α → Option ι) (i : ι) : Prop :=
  ∀ n, (∀ m, n ≤ m → Enabled step owner i (e.state m)) → ∃ m, n ≤ m ∧ e.Acts owner i m

/-- A thread that is enabled again and again acts again and again. -/
def StronglyFair (e : Execution step start) (owner : α → Option ι) (i : ι) : Prop :=
  (∀ n, ∃ m, n ≤ m ∧ Enabled step owner i (e.state m)) → ∀ n, ∃ m, n ≤ m ∧ e.Acts owner i m

theorem StronglyFair.weakly_fair {e : Execution step start} (h : e.StronglyFair owner i) :
    e.WeaklyFair owner i := by
  intro n henabled
  refine h (fun m => ?_) n
  exact ⟨max n m, Nat.le_max_right n m, henabled _ (Nat.le_max_left n m)⟩

/-- Whenever `P` holds, `Q` holds then or later. -/
def LeadsTo (e : Execution step start) (P Q : σ → Prop) : Prop :=
  ∀ n, P (e.state n) → ∃ m, n ≤ m ∧ Q (e.state m)

/-- While a thread is disabled, what only its own steps change stays. -/
theorem frozen (e : Execution step start) {γ : Type*} (view : σ → γ)
    (hkeep : ∀ {state next : σ} {action : α}, Reachable step start state → P state →
      step state action = some next → owner action ≠ some i → view next = view state) {n : ℕ}
    (hdisabled : ∀ m, n ≤ m → P (e.state m) ∧ ¬ Enabled step owner i (e.state m)) {m : ℕ}
    (hle : n ≤ m) : view (e.state m) = view (e.state n) := by
  induction m, hle using Nat.le_induction with
  | base => rfl
  | succ m hle ih =>
      obtain ⟨hm, hnot⟩ := hdisabled m hle
      rcases e.moment_cases m with ⟨-, hstill⟩ | ⟨action, -, hstep⟩
      · rw [hstill, ih]
      · have hother : owner action ≠ some i := fun howner => hnot ⟨action, _, howner, hstep⟩
        exact (hkeep (e.reachable m) hm hstep hother).trans ih

/-! ## Progress by rank -/

section Rank

variable {β : Type*} [LT β] {rank : σ → β} {helper : σ → ι} {e : Execution step start}

/-- As long as neither `Q` nor a lower rank is reached, `P`, the rank and the helper stay. -/
theorem stays (hdescends : Descends step start owner P Q rank helper) {n : ℕ} (hn : P (e.state n))
    (hnever : ∀ m, n ≤ m → ¬ Q (e.state m) ∧
      ¬ (P (e.state m) ∧ rank (e.state m) < rank (e.state n))) {m : ℕ} (hle : n ≤ m) :
    P (e.state m) ∧ rank (e.state m) = rank (e.state n) ∧
      helper (e.state m) = helper (e.state n) := by
  induction m, hle using Nat.le_induction with
  | base => exact ⟨hn, rfl, rfl⟩
  | succ m hle ih =>
      obtain ⟨hm, hrank, hhelper⟩ := ih
      rcases e.moment_cases m with ⟨-, hstill⟩ | ⟨action, -, hstep⟩
      · rw [hstill]
        exact ⟨hm, hrank, hhelper⟩
      · obtain ⟨hnot, hlower⟩ := hnever (m + 1) (Nat.le_succ_of_le hle)
        rcases hdescends (e.reachable m) hm hstep with hQ | ⟨hP, hless | ⟨hsame, hhelp, -⟩⟩
        · exact absurd hQ hnot
        · exact absurd ⟨hP, hrank ▸ hless⟩ hlower
        · exact ⟨hP, hsame.trans hrank, hhelp.trans hhelper⟩

/-- If the helper acts whenever it has to, then `Q` or a lower rank is reached. -/
theorem descends_once (hdescends : Descends step start owner P Q rank helper)
    (hacts : ∀ n, (∀ m, n ≤ m → P (e.state m) ∧ ¬ Q (e.state m) ∧
      helper (e.state m) = helper (e.state n)) →
        ∃ m, n ≤ m ∧ e.Acts owner (helper (e.state n)) m) {n : ℕ} (hn : P (e.state n)) :
    ∃ m, n ≤ m ∧ (Q (e.state m) ∨ P (e.state m) ∧ rank (e.state m) < rank (e.state n)) := by
  by_contra hnone
  have hnever : ∀ m, n ≤ m → ¬ Q (e.state m) ∧
      ¬ (P (e.state m) ∧ rank (e.state m) < rank (e.state n)) := fun m hle =>
    ⟨fun hQ => hnone ⟨m, hle, .inl hQ⟩, fun hlower => hnone ⟨m, hle, .inr hlower⟩⟩
  obtain ⟨m, hle, action, haction, howner⟩ := hacts n fun m hle =>
    have hstays := stays hdescends hn hnever hle
    ⟨hstays.1, (hnever m hle).1, hstays.2.2⟩
  obtain ⟨hm, hrank, hhelper⟩ := stays hdescends hn hnever hle
  rcases e.moment_cases m with ⟨hstill, -⟩ | ⟨taken, htaken, hstep⟩
  · rw [hstill] at haction
    cases haction
  · obtain rfl : taken = action := Option.some.inj (htaken.symm.trans haction)
    obtain ⟨hnot, hlower⟩ := hnever (m + 1) (Nat.le_succ_of_le hle)
    rcases hdescends (e.reachable m) hm hstep with hQ | ⟨hP, hless | ⟨-, -, hother⟩⟩
    · exact hnot hQ
    · exact hlower ⟨hP, hrank ▸ hless⟩
    · exact hother (hhelper ▸ howner)

/-- The rank cannot go down for ever, so `Q` is reached. -/
theorem leads_to_of_rank [WellFoundedLT β] (hdescends : Descends step start owner P Q rank helper)
    (hacts : ∀ n, (∀ m, n ≤ m → P (e.state m) ∧ ¬ Q (e.state m) ∧
      helper (e.state m) = helper (e.state n)) →
        ∃ m, n ≤ m ∧ e.Acts owner (helper (e.state n)) m) : e.LeadsTo P Q := by
  have hgoal : ∀ r n, rank (e.state n) = r → P (e.state n) → ∃ m, n ≤ m ∧ Q (e.state m) := by
    intro r
    induction r using WellFoundedLT.induction with
    | ind r ih =>
        intro n hr hn
        obtain ⟨m, hle, hQ | ⟨hm, hlower⟩⟩ := descends_once hdescends hacts hn
        · exact ⟨m, hle, hQ⟩
        · obtain ⟨l, hlater, hl⟩ := ih (rank (e.state m)) (hr ▸ hlower) m rfl hm
          exact ⟨l, hle.trans hlater, hl⟩
  exact fun n hn => hgoal _ n rfl hn

/-- Under weak fairness the helper must be enabled all the time. -/
theorem leads_to_of_enabled [WellFoundedLT β] (hfair : ∀ i, e.WeaklyFair owner i)
    (hdescends : Descends step start owner P Q rank helper)
    (henabled : ∀ {state : σ}, Reachable step start state → P state → ¬ Q state →
      Enabled step owner (helper state) state) : e.LeadsTo P Q := by
  refine leads_to_of_rank hdescends fun n hstays => hfair _ n fun m hle => ?_
  obtain ⟨hm, hnot, hhelper⟩ := hstays m hle
  exact hhelper ▸ henabled (e.reachable m) hm hnot

/-- Under strong fairness it is enough that the helper is not disabled for ever, as long as nothing
is achieved. -/
theorem leads_to_of_recurring [WellFoundedLT β] (hfair : ∀ i, e.StronglyFair owner i)
    (hdescends : Descends step start owner P Q rank helper)
    (hrecurs : ∀ n, ¬ ∀ m, n ≤ m → P (e.state m) ∧ ¬ Q (e.state m) ∧
      ¬ Enabled step owner (helper (e.state n)) (e.state m)) : e.LeadsTo P Q := by
  refine leads_to_of_rank hdescends fun n hstays => hfair _ (fun l => ?_) n
  by_contra hnever
  refine hrecurs (max n l) fun m hle => ?_
  obtain ⟨hm, hnot, -⟩ := hstays m ((Nat.le_max_left n l).trans hle)
  have hhelper := (hstays (max n l) (Nat.le_max_left n l)).2.2
  rw [hhelper]
  exact ⟨hm, hnot, fun henabled => hnever ⟨m, (Nat.le_max_right n l).trans hle, henabled⟩⟩

end Rank

/-! ## Views of a system -/

section Projection

variable {τ β κ : Type*} {step' : τ → β → Option τ} {owner' : β → Option κ} {j : κ}

/-- An execution seen through a projection. -/
def map (e : Execution step start) (p : Projection step start step') :
    Execution step' (p.view start) where
  state n := p.view (e.state n)
  action n := (e.action n).bind (p.label (e.state n))
  begins := congrArg p.view e.begins
  moment n := by
    rcases e.moment_cases n with ⟨htaken, hstill⟩ | ⟨action, htaken, hstep⟩
    · rw [htaken, hstill]
      exact .still
    · rw [htaken]
      exact p.moment (e.reachable n) hstep

/-- Fairness to a thread that both systems have: its steps can be seen, and it can go on whenever
that can be seen. -/
theorem StronglyFair.map {e : Execution step start} (h : e.StronglyFair owner i)
    (p : Projection step start step')
    (hlabel : ∀ state action, owner action = some i →
      ∃ shown, p.label state action = some shown ∧ owner' shown = some j)
    (henabled : ∀ n, Enabled step' owner' j (p.view (e.state n)) →
      Enabled step owner i (e.state n)) :
    (e.map p).StronglyFair owner' j := by
  intro hrecurs n
  have hagain : ∀ n, ∃ m, n ≤ m ∧ Enabled step owner i (e.state m) := by
    intro n
    obtain ⟨m, hle, hm⟩ := hrecurs n
    exact ⟨m, hle, henabled m hm⟩
  obtain ⟨m, hle, action, htaken, howner⟩ := h hagain n
  obtain ⟨shown, hshown, hsame⟩ := hlabel (e.state m) action howner
  refine ⟨m, hle, shown, ?_, hsame⟩
  show (e.action m).bind (p.label (e.state m)) = some shown
  rw [htaken]
  exact hshown

end Projection

/-! ## Allowed steps -/

section Restrict

variable {ok : σ → α → Prop} [∀ state action, Decidable (ok state action)]

/-- An execution that takes allowed actions only. -/
def restrict (e : Execution step start)
    (hok : ∀ n action, e.action n = some action → ok (e.state n) action) :
    Execution (Transition.restrict step ok) start where
  state := e.state
  action := e.action
  begins := e.begins
  moment n := by
    rcases e.moment_cases n with ⟨htaken, hstill⟩ | ⟨action, htaken, hstep⟩
    · rw [htaken, hstill]
      exact .still
    · rw [htaken]
      exact .act (Transition.restrict_eq_some_iff.mpr ⟨hok n action htaken, hstep⟩)

/-- A thread that can take an allowed action can act. -/
theorem StronglyFair.restrict {e : Execution step start} (h : e.StronglyFair owner i)
    (hok : ∀ n action, e.action n = some action → ok (e.state n) action) :
    (e.restrict hok).StronglyFair owner i := by
  intro hrecurs
  refine h fun n => ?_
  obtain ⟨m, hle, action, next, howner, hstep⟩ := hrecurs n
  exact ⟨m, hle, action, next, howner, (Transition.restrict_eq_some_iff.mp hstep).2⟩

end Restrict

/-! ## Executions that are given by their actions -/

/-- The state and the action of each moment when the actions are taken one after the other, and then
those of `again` over and over. Between two rounds, and after an action that is not enabled, the
system stands still. -/
def playback (step : σ → α → Option σ) (again : List α) : σ → List α → ℕ → σ × Option α
  | state, [], 0 => (state, none)
  | state, [], n + 1 => playback step again state again n
  | state, action :: _, 0 => (state, (step state action).map fun _ => action)
  | state, action :: rest, n + 1 =>
      match step state action with
      | some next => playback step again next rest n
      | none => (state, none)

section Playback

variable {again actions : List α} {state : σ}

/-- The first moment is the start. -/
theorem playback_zero (state : σ) (actions : List α) :
    (playback step again state actions 0).1 = state := by
  cases actions <;> rfl

/-- Each moment is one of the system. -/
theorem playback_moment (state : σ) (actions : List α) (n : ℕ) :
    Moment step (playback step again state actions n).1 (playback step again state actions n).2
      (playback step again state actions (n + 1)).1 := by
  induction n generalizing state actions with
  | zero =>
      cases actions with
      | nil =>
          simp only [playback, playback_zero]
          exact .still
      | cons action rest =>
          simp only [playback]
          cases hstep : step state action with
          | none => exact .still
          | some next =>
              simp only [playback_zero]
              exact .act hstep
  | succ n ih =>
      cases actions with
      | nil => exact ih state again
      | cons action rest =>
          simp only [playback]
          cases step state action with
          | none => exact .still
          | some next => exact ih next rest

/-- After the actions come the rounds. -/
theorem playback_add (h : run step state actions = some finish) (n : ℕ) :
    playback step again state actions (actions.length + n) =
      playback step again finish [] n := by
  induction actions generalizing state with
  | nil =>
      cases h
      rw [List.length_nil, Nat.zero_add]
  | cons action rest ih =>
      simp only [run, bind, Option.bind_eq_some_iff] at h
      obtain ⟨next, hstep, hrest⟩ := h
      rw [List.length_cons, Nat.add_right_comm, playback, hstep]
      exact ih hrest

/-- Each of the actions has its moment. -/
theorem playback_acts (h : run step state actions = some finish) {action : α}
    (hmem : action ∈ actions) : ∃ n, (playback step again state actions n).2 = some action := by
  induction actions generalizing state with
  | nil => cases hmem
  | cons first rest ih =>
      simp only [run, bind, Option.bind_eq_some_iff] at h
      obtain ⟨next, hstep, hrest⟩ := h
      rcases List.mem_cons.mp hmem with rfl | hlater
      · exact ⟨0, by rw [playback, hstep, Option.map_some]⟩
      · obtain ⟨n, hn⟩ := ih hrest hlater
        exact ⟨n + 1, by rw [playback, hstep]; exact hn⟩

/-- What the actions keep holds at each moment. -/
theorem playback_keeps (hkeep : ∀ action ∈ again, ∀ {state next : σ}, P state →
      step state action = some next → P next) (hactions : actions ⊆ again) (hstate : P state)
    (n : ℕ) : P (playback step again state actions n).1 := by
  induction n generalizing state actions with
  | zero =>
      rw [playback_zero]
      exact hstate
  | succ n ih =>
      cases actions with
      | nil => exact ih (List.Subset.refl _) hstate
      | cons action rest =>
          obtain ⟨hmem, hrest⟩ := List.cons_subset.mp hactions
          simp only [playback]
          cases hstep : step state action with
          | none => exact hstate
          | some next => exact ih hrest (hkeep action hmem hstate hstep)

end Playback

/-- The execution that takes these actions, and then goes round those of `again`. -/
def ofRounds (step : σ → α → Option σ) (start : σ) (actions again : List α) :
    Execution step start where
  state n := (playback step again start actions n).1
  action n := (playback step again start actions n).2
  begins := playback_zero start actions
  moment := playback_moment start actions

/-- A finite run as an execution. -/
def ofActions (step : σ → α → Option σ) (start : σ) (actions : List α) : Execution step start :=
  ofRounds step start actions []

section Rounds

variable {actions again : List α}

/-- What a round keeps holds from the first round on. -/
theorem rounds_keep (h : run step start actions = some finish) (hfinish : P finish)
    (hkeep : ∀ action ∈ again, ∀ {state next : σ}, P state → step state action = some next →
      P next) {n : ℕ} (hn : actions.length ≤ n) :
    P ((ofRounds step start actions again).state n) := by
  obtain ⟨later, rfl⟩ := Nat.exists_eq_add_of_le hn
  show P (playback step again start actions _).1
  rw [playback_add h]
  exact playback_keeps hkeep (List.nil_subset _) hfinish later

/-- If each round can follow another, rounds begin again and again. -/
theorem rounds_begin_again (h : run step start actions = some finish) (hfinish : P finish)
    (hround : ∀ {state : σ}, P state → ∃ next, run step state again = some next ∧ P next) (n : ℕ) :
    ∃ m, n ≤ m ∧ ∃ state, P state ∧
      ∀ l, playback step again start actions (m + l) = playback step again state [] l := by
  induction n with
  | zero => exact ⟨actions.length, Nat.zero_le _, finish, hfinish, playback_add h⟩
  | succ n ih =>
      obtain ⟨m, hle, state, hstate, hsame⟩ := ih
      obtain ⟨next, hrun, hnext⟩ := hround hstate
      refine ⟨m + (again.length + 1), by omega, next, hnext, fun l => ?_⟩
      rw [Nat.add_assoc, hsame, Nat.add_right_comm]
      exact playback_add hrun l

/-- Such an execution is fair to every thread that has a turn in a round. -/
theorem strongly_fair_of_turn (h : run step start actions = some finish) (hfinish : P finish)
    (hround : ∀ {state : σ}, P state → ∃ next, run step state again = some next ∧ P next)
    (hturn : ∃ action ∈ again, owner action = some i) :
    (ofRounds step start actions again).StronglyFair owner i := by
  intro _ n
  obtain ⟨action, hmem, howner⟩ := hturn
  obtain ⟨m, hle, state, hstate, hsame⟩ := rounds_begin_again h hfinish hround n
  obtain ⟨next, hrun, -⟩ := hround hstate
  obtain ⟨l, hl⟩ : ∃ l, (playback step again state again l).2 = some action :=
    playback_acts hrun hmem
  refine ⟨m + (l + 1), by omega, action, ?_, howner⟩
  show (playback step again start actions _).2 = some action
  rw [hsame]
  exact hl

/-- It is fair to a thread that is not enabled from the first round on. -/
theorem strongly_fair_of_disabled (h : run step start actions = some finish) (hfinish : P finish)
    (hkeep : ∀ action ∈ again, ∀ {state next : σ}, P state → step state action = some next →
      P next) (hdisabled : ∀ {state : σ}, P state → ¬ Enabled step owner i state) :
    (ofRounds step start actions again).StronglyFair owner i := by
  intro hrecurs
  obtain ⟨m, hle, henabled⟩ := hrecurs actions.length
  exact absurd henabled (hdisabled (rounds_keep h hfinish hkeep hle))

/-- A finite run is fair to every thread that is not enabled at its end. -/
theorem strongly_fair_of_actions (h : run step start actions = some finish)
    (hend : ¬ Enabled step owner i finish) :
    (ofActions step start actions).StronglyFair owner i :=
  strongly_fair_of_disabled (P := (· = finish)) h rfl (by nofun)
    fun heq => by rw [heq]; exact hend

end Rounds

end Execution

end QuoteStreamer.Fairness
