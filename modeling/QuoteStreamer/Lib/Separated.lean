import Mathlib.Data.List.Basic

/-!
# Fields joined by a separator

`[sep].intercalate fields` writes fields in a row with a separator between them and `splitOn` cuts
the row again. The fields come back as they were when none of them has a separator of its own, and
a row has one field more than it has separators.
-/

namespace QuoteStreamer.Separated

variable {α : Type*} [DecidableEq α] {sep : α} {row : List α} {fields : List (List α)}

/-- A row has one field more than it has separators. -/
theorem length_split_on (sep : α) (row : List α) :
    (row.splitOn sep).length = row.count sep + 1 := by
  induction row with
  | nil => rfl
  | cons x row ih =>
      rw [List.splitOn_cons_eq_if_modifyHead, List.count_cons]
      split
      · rw [List.length_cons, ih]
      · rw [List.length_modifyHead, ih, Nat.add_zero]

/-- A field that comes out of a split has no separator. -/
theorem not_mem_of_mem_split_on {field : List α} (h : field ∈ row.splitOn sep) : sep ∉ field := by
  induction row generalizing field with
  | nil =>
      rw [List.splitOn_nil, List.mem_singleton] at h
      simp [h]
  | cons x row ih =>
      rw [List.splitOn_cons_eq_if_modifyHead] at h
      split at h
      · rcases List.mem_cons.mp h with rfl | hrest
        · simp
        · exact ih hrest
      · next hx =>
          cases hsplit : row.splitOn sep with
          | nil => exact absurd hsplit (List.splitOn_ne_nil sep row)
          | cons first rest =>
              rw [hsplit, List.modifyHead_cons, List.mem_cons] at h
              rcases h with rfl | hrest
              · have hfirst : sep ∉ first := ih (by simp [hsplit])
                have hne : sep ≠ x := fun heq => hx (by simp [heq])
                simp [hne, hfirst]
              · exact ih (by simp [hsplit, hrest])

/-- What a split returns, by what it was given. -/
theorem split_on_eq_iff : row.splitOn sep = fields ↔
    fields ≠ [] ∧ row = [sep].intercalate fields ∧ ∀ field ∈ fields, sep ∉ field := by
  constructor
  · rintro rfl
    exact ⟨List.splitOn_ne_nil sep row, (List.intercalate_splitOn sep).symm,
      fun _ => not_mem_of_mem_split_on⟩
  · rintro ⟨hne, rfl, hclean⟩
    exact List.splitOn_intercalate sep hclean hne

end QuoteStreamer.Separated
