import Mathlib.Data.List.Induction
import Mathlib.Logic.Function.Basic

/-!
# Registers by the history of their changes

A register holds a value under some keys and is changed by putting a value under a key and by
dropping a key. `replay` is the register after a list of changes, oldest first. `Holds` reads the
list instead: the key was put and not changed since. `replay_eq_some_iff` shows that they agree.
-/

namespace QuoteStreamer.Register

/-- One change of a register. -/
inductive Change (κ ν : Type*) where
  | put (key : κ) (value : ν)
  | drop (key : κ)

variable {κ ν : Type*}

namespace Change

/-- The key that the change is about. -/
def key : Change κ ν → κ
  | .put key _ => key
  | .drop key => key

/-- What stands under the key after the change. -/
def value : Change κ ν → Option ν
  | .put _ value => some value
  | .drop _ => none

/-- The key of a `put`. -/
def putKey : Change κ ν → Option κ
  | .put key _ => some key
  | .drop _ => none

end Change

/-- The keys that were put, oldest first. -/
def putKeys (changes : List (Change κ ν)) : List κ :=
  changes.filterMap Change.putKey

/-- The value was put under the key and the key was not changed since. -/
def Holds (changes : List (Change κ ν)) (key : κ) (value : ν) : Prop :=
  ∃ before after, changes = before ++ .put key value :: after ∧ ∀ change ∈ after, change.key ≠ key

variable {changes : List (Change κ ν)} {change : Change κ ν} {key : κ} {value : ν}

/-- What the last change has to do with it. -/
theorem holds_concat_iff : Holds (changes ++ [change]) key value ↔
    change = .put key value ∨ change.key ≠ key ∧ Holds changes key value := by
  constructor
  · rintro ⟨before, after, hsplit, hafter⟩
    rcases List.eq_nil_or_concat after with rfl | ⟨front, last, rfl⟩
    · obtain ⟨-, hlast⟩ := List.append_inj' hsplit rfl
      exact .inl (List.singleton_inj.mp hlast)
    · have hsplit' : changes ++ [change] = (before ++ .put key value :: front) ++ [last] := by
        simpa using hsplit
      obtain ⟨hfront, hlast⟩ := List.append_inj' hsplit' rfl
      obtain rfl := List.singleton_inj.mp hlast
      refine .inr ⟨hafter change (by simp), before, front, hfront, fun other hmem => ?_⟩
      exact hafter other (by simp [hmem])
  · rintro (rfl | ⟨hkey, before, after, rfl, hafter⟩)
    · exact ⟨changes, [], rfl, by simp⟩
    · refine ⟨before, after ++ [change], by simp, fun other hmem => ?_⟩
      rcases List.mem_append.mp hmem with hmem | hmem
      · exact hafter other hmem
      · rwa [List.mem_singleton.mp hmem]

theorem put_keys_put : putKeys (changes ++ [.put key value]) = putKeys changes ++ [key] := by
  rw [putKeys, List.filterMap_append]
  rfl

theorem put_keys_drop : putKeys (changes ++ [.drop key]) = putKeys changes := by
  rw [putKeys, List.filterMap_append]
  exact List.append_nil _

/-- What is held was put. -/
theorem Holds.mem_put_keys (h : Holds changes key value) : key ∈ putKeys changes := by
  obtain ⟨before, after, rfl, -⟩ := h
  exact List.mem_filterMap.mpr ⟨.put key value, by simp, rfl⟩

/-- If no key is put twice, then a value is held until its key is dropped. -/
theorem holds_iff_of_nodup (hnodup : (putKeys changes).Nodup) : Holds changes key value ↔
    ∃ before after, changes = before ++ .put key value :: after ∧ .drop key ∉ after := by
  constructor
  · rintro ⟨before, after, rfl, hafter⟩
    exact ⟨before, after, rfl, fun hmem => hafter _ hmem rfl⟩
  · rintro ⟨before, after, rfl, hdrop⟩
    refine ⟨before, after, rfl, fun change hmem hkey => ?_⟩
    cases change with
    | put other last =>
        obtain rfl : other = key := hkey
        have hafter : other ∈ putKeys after := List.mem_filterMap.mpr ⟨_, hmem, rfl⟩
        rw [putKeys, List.filterMap_append] at hnodup
        have hrest : (other :: putKeys after).Nodup := (List.nodup_append.mp hnodup).2.1
        exact (List.nodup_cons.mp hrest).1 hafter
    | drop other =>
        obtain rfl : other = key := hkey
        exact hdrop hmem

variable [DecidableEq κ]

/-- The register after the changes, which started out empty. -/
def replay (changes : List (Change κ ν)) : κ → Option ν :=
  changes.foldl (fun register change => Function.update register change.key change.value)
    fun _ => none

/-- One more change applies to what the changes before it have made. -/
theorem replay_concat (changes : List (Change κ ν)) (change : Change κ ν) :
    replay (changes ++ [change]) = Function.update (replay changes) change.key change.value := by
  rw [replay, List.foldl_append]
  rfl

theorem replay_put : replay (changes ++ [.put key value]) =
    Function.update (replay changes) key (some value) :=
  replay_concat changes (.put key value)

theorem replay_drop : replay (changes ++ [.drop key]) =
    Function.update (replay changes) key none :=
  replay_concat changes (.drop key)

/-- The register holds what was put last and not changed since. -/
theorem replay_eq_some_iff : replay changes key = some value ↔ Holds changes key value := by
  induction changes using List.reverseRecOn with
  | nil => simp [replay, Holds]
  | append_singleton changes change ih =>
      rw [replay_concat, holds_concat_iff, ← ih]
      by_cases hkey : change.key = key
      · subst hkey
        rw [Function.update_self]
        cases change with
        | put key last => simp [Change.key, Change.value]
        | drop key => simp [Change.key, Change.value]
      · have hput : change ≠ .put key value := fun h => hkey (by rw [h, Change.key])
        rw [Function.update_of_ne (Ne.symm hkey)]
        simp [hput, hkey]

/-- The register has nothing under a key that was never put. -/
theorem replay_eq_none_of_not_mem (h : key ∉ putKeys changes) : replay changes key = none := by
  cases hreplay : replay changes key with
  | none => rfl
  | some value => exact absurd (replay_eq_some_iff.mp hreplay).mem_put_keys h

end QuoteStreamer.Register
