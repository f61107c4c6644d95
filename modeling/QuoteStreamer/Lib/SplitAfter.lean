import Mathlib.Data.List.Basic

/-!
# Splitting a list after its delimiters

`splitAfter p l` cuts `l` behind every element that satisfies `p`, so that each part but perhaps the
last one ends with such an element, and nothing is lost. `cut_or_clean` is the case distinction
that proofs go by: the list has no delimiter, or it is a first part, its delimiter and the rest.
-/

namespace QuoteStreamer.SplitAfter

variable {α : Type*} {p : α → Bool}

/-- The parts of the list, each with its delimiter at the end. -/
def splitAfter (p : α → Bool) : List α → List (List α)
  | [] => []
  | x :: rest =>
      if p x then [x] :: splitAfter p rest
      else
        match splitAfter p rest with
        | [] => [[x]]
        | part :: parts => (x :: part) :: parts

/-- A list has no delimiter, or a first one. -/
theorem cut_or_clean (p : α → Bool) (l : List α) : (∀ x ∈ l, p x = false) ∨
    ∃ part d rest, l = part ++ d :: rest ∧ p d = true ∧ ∀ x ∈ part, p x = false := by
  induction l with
  | nil => exact .inl (by simp)
  | cons x l ih =>
      cases hx : p x with
      | true => exact .inr ⟨[], x, l, rfl, hx, by simp⟩
      | false =>
          rcases ih with hclean | ⟨part, d, rest, rfl, hd, hpart⟩
          · exact .inl (by simpa [hx] using hclean)
          · exact .inr ⟨x :: part, d, rest, rfl, hd, by simpa [hx] using hpart⟩

/-- The first part ends with the first delimiter. -/
theorem split_after_append {part : List α} (hpart : ∀ x ∈ part, p x = false) {d : α}
    (hd : p d = true) (rest : List α) :
    splitAfter p (part ++ d :: rest) = (part ++ [d]) :: splitAfter p rest := by
  induction part with
  | nil => simp [splitAfter, hd]
  | cons x part ih =>
      have hx : p x = false := hpart x List.mem_cons_self
      have hrest := ih fun y hy => hpart y (List.mem_cons_of_mem x hy)
      simp [splitAfter, hx, hrest]

/-- A nonempty list without a delimiter is one part. -/
theorem split_after_clean {l : List α} (hclean : ∀ x ∈ l, p x = false) (hne : l ≠ []) :
    splitAfter p l = [l] := by
  induction l with
  | nil => exact absurd rfl hne
  | cons x l ih =>
      have hx : p x = false := hclean x List.mem_cons_self
      cases l with
      | nil => simp [splitAfter, hx]
      | cons y l =>
          have hrest := ih (fun z hz => hclean z (List.mem_cons_of_mem x hz)) (by simp)
          rw [splitAfter, hx, hrest]
          rfl

/-- What stands in front without a delimiter belongs to the first part. -/
theorem split_after_prepend {front : List α} (hfront : ∀ x ∈ front, p x = false) {part : List α}
    {parts : List (List α)} {l : List α} (hl : splitAfter p l = part :: parts) :
    splitAfter p (front ++ l) = (front ++ part) :: parts := by
  induction front with
  | nil => exact hl
  | cons x front ih =>
      have hx : p x = false := hfront x List.mem_cons_self
      have hrest := ih fun y hy => hfront y (List.mem_cons_of_mem x hy)
      rw [List.cons_append, splitAfter, hx, hrest]
      rfl

/-- Only the empty list has no parts. -/
theorem split_after_eq_nil {l : List α} : splitAfter p l = [] ↔ l = [] := by
  constructor
  · intro h
    rcases cut_or_clean p l with hclean | ⟨part, d, rest, rfl, hd, hpart⟩
    · by_contra hne
      rw [split_after_clean hclean hne] at h
      cases h
    · rw [split_after_append hpart hd] at h
      cases h
  · rintro rfl
    rfl

/-- What holds of lists without a delimiter, and of a list if it holds of what follows the first
delimiter, holds of all lists. -/
theorem parts_induction (p : α → Bool) {motive : List α → Prop}
    (clean : ∀ l, (∀ x ∈ l, p x = false) → motive l)
    (cut : ∀ part d rest, (∀ x ∈ part, p x = false) → p d = true → motive rest →
      motive (part ++ d :: rest)) (l : List α) : motive l := by
  induction hlength : l.length using Nat.strongRecOn generalizing l with
  | ind n ih =>
      rcases cut_or_clean p l with hclean | ⟨part, d, rest, rfl, hd, hpart⟩
      · exact clean l hclean
      · refine cut part d rest hpart hd (ih rest.length ?_ rest rfl)
        simp only [List.length_append, List.length_cons] at hlength
        omega

/-- Nothing is lost. -/
theorem flatten_split_after (p : α → Bool) (l : List α) : (splitAfter p l).flatten = l := by
  induction l using parts_induction p with
  | clean l hclean =>
      by_cases hne : l = []
      · subst hne
        rfl
      · rw [split_after_clean hclean hne, List.flatten_singleton]
  | cut part d rest hpart hd ih =>
      rw [split_after_append hpart hd, List.flatten_cons, ih, List.append_assoc,
        List.singleton_append]

/-- The first parts, put together, are cut where they were. -/
theorem split_after_take (p : α → Bool) (n : Nat) (l : List α) :
    splitAfter p ((splitAfter p l).take n).flatten = (splitAfter p l).take n := by
  induction l using parts_induction p generalizing n with
  | clean l hclean =>
      by_cases hne : l = []
      · subst hne
        rw [splitAfter, List.take_nil]
        rfl
      · rw [split_after_clean hclean hne]
        cases n with
        | zero => rfl
        | succ n =>
            rw [List.take_succ_cons, List.take_nil, List.flatten_singleton,
              split_after_clean hclean hne]
  | cut part d rest hpart hd ih =>
      rw [split_after_append hpart hd]
      cases n with
      | zero => rfl
      | succ n =>
          rw [List.take_succ_cons, List.flatten_cons, List.append_assoc, List.singleton_append,
            split_after_append hpart hd, ih]

/-- Nothing is added. -/
theorem mem_of_mem_part {l part : List α} {x : α} (hpart : part ∈ splitAfter p l) (hx : x ∈ part) :
    x ∈ l := by
  induction l using parts_induction p with
  | clean l hclean =>
      by_cases hne : l = []
      · subst hne
        cases hpart
      · rw [split_after_clean hclean hne, List.mem_singleton] at hpart
        exact hpart ▸ hx
  | cut front d rest hfront hd ih =>
      rw [split_after_append hfront hd, List.mem_cons] at hpart
      rcases hpart with rfl | hpart
      · simp only [List.mem_append, List.mem_singleton] at hx
        rcases hx with hx | rfl
        · exact List.mem_append_left _ hx
        · exact List.mem_append_right _ List.mem_cons_self
      · exact List.mem_append_right _ (List.mem_cons_of_mem d (ih hpart))

/-- A list that is empty or ends with a delimiter is cut by itself, whatever follows. -/
theorem split_after_ended {front : List α}
    (hended : ∀ hne : front ≠ [], p (front.getLast hne) = true)
    (rest : List α) : splitAfter p (front ++ rest) = splitAfter p front ++ splitAfter p rest := by
  induction front using parts_induction p with
  | clean front hclean =>
      obtain rfl : front = [] := by
        by_contra hne
        have hlast := hended hne
        rw [hclean _ (List.getLast_mem hne)] at hlast
        cases hlast
      rfl
  | cut part d more hpart hd ih =>
      have hmore : ∀ hne : more ≠ [], p (more.getLast hne) = true := by
        intro hne
        have hlast := hended (by simp)
        rwa [List.getLast_append_of_ne_nil _ (by simp), List.getLast_cons hne] at hlast
      rw [List.append_assoc, List.cons_append, split_after_append hpart hd,
        split_after_append hpart hd, ih hmore]
      rfl

end QuoteStreamer.SplitAfter
