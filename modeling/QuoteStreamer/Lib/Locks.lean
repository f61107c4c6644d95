import Mathlib.Logic.Function.Basic
import Mathlib.Logic.Relation

/-!
# Locks and waiting

Two facts about blocking synchronization that do not depend on what is locked. `Owned` ties the
word of a mutual-exclusion lock to the program points at which it is held, with one rule each for
acquiring it, releasing it, and any step that does neither. `acyclic_of_rank` is the ranking
argument against deadlock: if every thread waits only for threads of smaller rank, no cycle of
waiting threads exists.
-/

namespace QuoteStreamer.Locks

section Ownership

variable {ι : Type*} {lock : Option ι} {holds holds' : ι → Prop} {i j : ι}

/-- The lock names its holder: thread `i` is at a point where it holds the lock exactly when the
lock word is `some i`. -/
def Owned (lock : Option ι) (holds : ι → Prop) : Prop :=
  ∀ i, lock = some i ↔ holds i

/-- At most one thread holds the lock. -/
theorem Owned.unique (h : Owned lock holds) (hi : holds i) (hj : holds j) : i = j :=
  Option.some.inj (((h i).mpr hi).symm.trans ((h j).mpr hj))

/-- Nobody holds a free lock. -/
theorem Owned.free (h : Owned none holds) (i : ι) : ¬ holds i :=
  fun hi => by simpa using (h i).mpr hi

/-- A thread takes a free lock. -/
theorem Owned.acquire (h : Owned none holds) (hself : holds' i)
    (hother : ∀ j, j ≠ i → (holds' j ↔ holds j)) : Owned (some i) holds' := by
  intro j
  by_cases hji : j = i
  · subst j
    simp [hself]
  · have hfree := h.free j
    simp [hother j hji, hfree, Ne.symm hji]

/-- The holder lets the lock go. -/
theorem Owned.release (h : Owned lock holds) (hi : holds i) (hself : ¬ holds' i)
    (hother : ∀ j, j ≠ i → (holds' j ↔ holds j)) : Owned none holds' := by
  intro j
  by_cases hji : j = i
  · subst j
    simp [hself]
  · have hnot : ¬ holds j := fun hj => hji (h.unique hj hi)
    simp [hother j hji, hnot]

/-- A step that moves no thread into or out of the critical section. -/
theorem Owned.keep (h : Owned lock holds) (hsame : ∀ j, holds' j ↔ holds j) : Owned lock holds' :=
  fun j => (h j).trans (hsame j).symm

end Ownership

section PointMaps

variable {ι β : Type*} [DecidableEq ι] {lock : Option ι} {points : ι → β} {holds : β → Bool}
  {i : ι} {point : β}

/-- After one thread has moved, a thread stands where the move has led, or is another one and stands
where it stood. -/
theorem moved_cases {j : ι} {target : β}
    (h : Function.update points i point j = target) :
    (j = i ∧ point = target) ∨ (j ≠ i ∧ points j = target) := by
  by_cases hji : j = i
  · subst hji
    rw [Function.update_self] at h
    exact .inl ⟨rfl, h⟩
  · rw [Function.update_of_ne hji] at h
    exact .inr ⟨hji, h⟩

/-- A thread stays where it stands when one that stands elsewhere moves. -/
theorem stays {j : ι} {target : β} (hj : points j = target) (hi : points i ≠ target) :
    Function.update points i point j = target := by
  have hne : j ≠ i := by
    rintro rfl
    exact hi hj
  exact (Function.update_of_ne hne _ _).trans hj

/-- Nobody gets to a point that the moving thread does not move to. -/
theorem keeps_away {j : ι} {target : β} (hpoint : point ≠ target) (hj : j ≠ i → points j ≠ target) :
    Function.update points i point j ≠ target := by
  intro hnow
  rcases moved_cases hnow with ⟨-, hmoved⟩ | ⟨hne, hstayed⟩
  · exact hpoint hmoved
  · exact hj hne hstayed

/-- The lock names its holder, where thread `i` stands at `points i` and `holds` marks the points
of the critical section. -/
def HeldAt (lock : Option ι) (points : ι → β) (holds : β → Bool) : Prop :=
  Owned lock fun i => holds (points i) = true

/-- One thread moves, without entering or leaving its critical section. -/
theorem HeldAt.keep (h : HeldAt lock points holds) (hsame : holds point = holds (points i)) :
    HeldAt lock (Function.update points i point) holds := by
  refine Owned.keep h fun j => ?_
  by_cases hji : j = i
  · subst j
    simp [hsame]
  · simp [hji]

/-- One thread moves and takes the free lock. -/
theorem HeldAt.acquire (h : HeldAt lock points holds) (hfree : lock = none)
    (hpoint : holds point = true) :
    HeldAt (some i) (Function.update points i point) holds := by
  subst hfree
  refine Owned.acquire h (by simpa using hpoint) fun j hji => ?_
  simp [hji]

/-- The holder moves and lets the lock go. -/
theorem HeldAt.release (h : HeldAt lock points holds) (hi : holds (points i) = true)
    (hpoint : holds point = false) :
    HeldAt none (Function.update points i point) holds := by
  refine Owned.release h hi (by simpa using hpoint) fun j hji => ?_
  simp [hji]

end PointMaps

section Waiting

variable {τ : Type*} {waits : τ → τ → Prop}

/-- Waiting strictly decreases the rank along every chain. -/
theorem rank_lt_of_chain {rank : τ → Nat} (hrank : ∀ i j, waits i j → rank j < rank i) {i j : τ}
    (h : Relation.TransGen waits i j) : rank j < rank i := by
  induction h with
  | single hwait => exact hrank _ _ hwait
  | tail _ hwait ih => exact Nat.lt_trans (hrank _ _ hwait) ih

/-- If every thread waits only for threads of smaller rank, no cycle of waits exists. -/
theorem acyclic_of_rank {rank : τ → Nat} (hrank : ∀ i j, waits i j → rank j < rank i) (i : τ) :
    ¬ Relation.TransGen waits i i :=
  fun h => Nat.lt_irrefl _ (rank_lt_of_chain hrank h)

end Waiting

end QuoteStreamer.Locks
