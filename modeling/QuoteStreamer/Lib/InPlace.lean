import Mathlib.Data.List.AList

/-!
# Updating a map in place

What stands under a key after an insertion, an erasure or a replacement.

`visitAll update m keys` visits the entries of `m` under the given keys one after the other and
replaces each value by what `update` makes of it. An entry changes once for every time that its key
comes up, so for a list without repetitions the order of the visits does not matter.
-/

namespace QuoteStreamer.InPlace

variable {κ β : Type*} [DecidableEq κ] {key other : κ} {value : β} {m : AList fun _ : κ => β}
  {update : κ → β → β} {keys : List κ}

/-- What is found after an insertion is the new value, or was there under another key. -/
theorem lookup_insert_cases {found : β} (h : (m.insert key value).lookup other = some found) :
    (other = key ∧ value = found) ∨ (other ≠ key ∧ m.lookup other = some found) := by
  by_cases hother : other = key
  · subst hother
    rw [AList.lookup_insert] at h
    exact .inl ⟨rfl, Option.some.inj h⟩
  · rw [AList.lookup_insert_ne hother] at h
    exact .inr ⟨hother, h⟩

/-- What is found after an erasure was there under another key. -/
theorem lookup_of_erase {found : β} (h : (m.erase key).lookup other = some found) :
    other ≠ key ∧ m.lookup other = some found := by
  have hother : other ≠ key := by
    rintro rfl
    rw [AList.lookup_erase] at h
    cases h
  rw [AList.lookup_erase_ne hother] at h
  exact ⟨hother, h⟩

/-- What stands under a key after `replace`. -/
theorem lookup_replace (m : AList fun _ : κ => β) (key other : κ) (value : β) :
    (m.replace key value).lookup other =
      if other = key then (m.lookup key).map fun _ => value else m.lookup other := by
  obtain ⟨entries, hnodup⟩ := m
  show List.dlookup other (List.kreplace key value entries) =
    if other = key then (List.dlookup key entries).map fun _ => value
    else List.dlookup other entries
  clear hnodup
  induction entries with
  | nil => split <;> rfl
  | cons entry entries ih =>
      obtain ⟨first, old⟩ := entry
      by_cases hkey : key = first
      · subst hkey
        have hreplaced : List.kreplace key value (⟨key, old⟩ :: entries) =
            ⟨key, value⟩ :: entries := by
          exact List.lookmap_cons_some _ _ (by simp)
        rw [hreplaced]
        by_cases hother : other = key
        · subst hother
          simp
        · simp [hother]
      · have hkept : List.kreplace key value (⟨first, old⟩ :: entries) =
            ⟨first, old⟩ :: List.kreplace key value entries := by
          exact List.lookmap_cons_none _ _ (by simp [hkey])
        rw [hkept]
        by_cases hother : other = first
        · subst hother
          simp [Ne.symm hkey]
        · have hskip : ∀ a : κ, a ≠ first → ∀ l : List (Σ _ : κ, β),
              List.dlookup a (⟨first, old⟩ :: l) = List.dlookup a l :=
            fun a ha l => List.dlookup_cons_ne l ⟨first, old⟩ ha
          rw [hskip other hother, ih, hskip other hother, hskip key hkey]

/-- Visit the entry under one key. -/
def visit (update : κ → β → β) (m : AList fun _ : κ => β) (key : κ) : AList fun _ : κ => β :=
  match m.lookup key with
  | some value => m.replace key (update key value)
  | none => m

/-- Visit the entries under the keys. -/
def visitAll (update : κ → β → β) (m : AList fun _ : κ => β) (keys : List κ) :
    AList fun _ : κ => β :=
  keys.foldl (visit update) m

theorem keys_visit (update : κ → β → β) (m : AList fun _ : κ => β) (key : κ) :
    (visit update m key).keys = m.keys := by
  unfold visit
  split
  · exact AList.keys_replace ..
  · rfl

theorem lookup_visit (update : κ → β → β) (m : AList fun _ : κ => β) (key other : κ) :
    (visit update m key).lookup other =
      if other = key then (m.lookup key).map (update key) else m.lookup other := by
  unfold visit
  split
  · next value hvalue =>
      rw [lookup_replace, hvalue]
      rfl
  · next hnone =>
      rw [hnone]
      split
      · next heq => rw [heq, hnone]; rfl
      · rfl

/-- No key is added or removed. -/
theorem keys_visit_all (update : κ → β → β) (m : AList fun _ : κ => β) (keys : List κ) :
    (visitAll update m keys).keys = m.keys := by
  induction keys generalizing m with
  | nil => rfl
  | cons key keys ih => exact (ih (visit update m key)).trans (keys_visit update m key)

/-- What every update keeps of an entry, the visits keep of all of them. -/
theorem visit_all_keeps {p : κ → β → Prop} (hkeep : ∀ key value, p key value →
    p key (update key value)) (h : ∀ key value, m.lookup key = some value → p key value) :
    ∀ key value, (visitAll update m keys).lookup key = some value → p key value := by
  induction keys generalizing m with
  | nil => exact h
  | cons first keys ih =>
      refine ih (m := visit update m first) fun key value hvalue => ?_
      rw [lookup_visit] at hvalue
      split at hvalue
      · next heq =>
          obtain ⟨old, hold, rfl⟩ := Option.map_eq_some_iff.mp hvalue
          rw [heq]
          exact hkeep first old (h first old hold)
      · exact h key value hvalue

/-- Each entry is updated once if its key is among the keys, and otherwise untouched. -/
theorem lookup_visit_all (hnodup : keys.Nodup) (other : κ) :
    (visitAll update m keys).lookup other =
      (m.lookup other).map fun value => if other ∈ keys then update other value else value := by
  induction keys generalizing m with
  | nil => simp [visitAll]
  | cons key keys ih =>
      obtain ⟨hnot, hrest⟩ := List.nodup_cons.mp hnodup
      have hvisit : visitAll update m (key :: keys) =
        visitAll update (visit update m key) keys := rfl
      rw [hvisit, ih hrest, lookup_visit]
      by_cases hother : other = key
      · subst hother
        simp [hnot, Option.map_map, Function.comp_def]
      · simp [hother]

end QuoteStreamer.InPlace
