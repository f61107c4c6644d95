import Mathlib.Data.List.Basic

/-!
# Bounded decimal numbers

Numbers are printed by `Nat.toDigits 10`. `parse bound` reads one back: an optional plus sign and at
least one digit, whose value is added up with a check against `bound` at every digit. `Denotes` says
which number a text stands for, whatever its size; `parse_eq_some_iff` shows that `parse` returns
that number when it is within the bound, and nothing otherwise.
-/

namespace QuoteStreamer.Decimal

/-- The value of a decimal digit. -/
def toDigit (c : Char) : Option Nat :=
  if c.isDigit then some (c.toNat - '0'.toNat) else none

/-- The loop over the digits: it stops at another character and where the value passes the bound. -/
def parseDigits (bound : Nat) : Nat → List Char → Option Nat
  | value, [] => some value
  | value, c :: rest => do
      let digit ← toDigit c
      if value * 10 + digit ≤ bound then parseDigits bound (value * 10 + digit) rest else none

/-- The number that the text stands for, if it is at most `bound`. -/
def parse (bound : Nat) : List Char → Option Nat
  | [] => none
  | ['+'] => none
  | ['-'] => none
  | '+' :: digits => parseDigits bound 0 digits
  | digits => parseDigits bound 0 digits

/-- The text is an optional plus sign and digits with this value. -/
def Denotes (text : List Char) (n : Nat) : Prop :=
  ∃ digits, (text = digits ∨ text = '+' :: digits) ∧ digits ≠ [] ∧
    (∀ c ∈ digits, c.isDigit = true) ∧ Nat.ofDigitChars 10 digits 0 = n

variable {bound value n m : Nat} {text digits : List Char}

/-- Every digit makes the value larger, or keeps it. -/
theorem le_of_digit_chars (digits : List Char) (value : Nat) :
    value ≤ Nat.ofDigitChars 10 digits value := by
  rw [Nat.ofDigitChars_eq_ofDigitChars_zero]
  have hscaled : value ≤ 10 ^ digits.length * value :=
    Nat.le_mul_of_pos_left value (Nat.pow_pos (by decide))
  omega

/-- The loop returns the value of the digits when the bound allows it. -/
theorem parse_digits_eq_some_iff (hvalue : value ≤ bound) :
    parseDigits bound value digits = some n ↔
      (∀ c ∈ digits, c.isDigit = true) ∧ Nat.ofDigitChars 10 digits value = n ∧ n ≤ bound := by
  induction digits generalizing value with
  | nil =>
      rw [parseDigits, Nat.ofDigitChars_nil, Option.some.injEq]
      constructor
      · rintro rfl
        exact ⟨by simp, rfl, hvalue⟩
      · exact fun h => h.2.1
  | cons c digits ih =>
      rw [parseDigits, Nat.ofDigitChars_cons, Nat.mul_comm 10 value]
      cases hc : c.isDigit with
      | false => simp [toDigit, hc]
      | true =>
          simp only [toDigit, hc, if_true, Option.bind_eq_bind, Option.bind_some]
          split
          · next hnext =>
              rw [ih hnext]
              simp [hc]
          · next hover =>
              have hmono := le_of_digit_chars digits (value * 10 + (c.toNat - '0'.toNat))
              constructor
              · intro h
                cases h
              · rintro ⟨-, rfl, hn⟩
                omega

/-- After a plus sign stand the digits. -/
theorem denotes_plus : Denotes ('+' :: digits) n ↔
    digits ≠ [] ∧ (∀ c ∈ digits, c.isDigit = true) ∧ Nat.ofDigitChars 10 digits 0 = n := by
  constructor
  · rintro ⟨_, rfl | hplus, hne, hdigits, hn⟩
    · exact absurd (hdigits '+' List.mem_cons_self) (by decide)
    · cases hplus
      exact ⟨hne, hdigits, hn⟩
  · exact fun h => ⟨digits, .inr rfl, h⟩

/-- Without a plus sign all of the text is digits. -/
theorem denotes_plain (hplain : ∀ rest, text ≠ '+' :: rest) : Denotes text n ↔
    text ≠ [] ∧ (∀ c ∈ text, c.isDigit = true) ∧ Nat.ofDigitChars 10 text 0 = n := by
  constructor
  · rintro ⟨digits, rfl | hplus, h⟩
    · exact h
    · exact absurd hplus (hplain digits)
  · exact fun h => ⟨text, .inl rfl, h⟩

/-- A text stands for one number. -/
theorem Denotes.unique (hn : Denotes text n) (hm : Denotes text m) : n = m := by
  by_cases hplus : ∃ digits, text = '+' :: digits
  · obtain ⟨digits, rfl⟩ := hplus
    rw [denotes_plus] at hn hm
    exact hn.2.2.symm.trans hm.2.2
  · rw [denotes_plain fun digits h => hplus ⟨digits, h⟩] at hn hm
    exact hn.2.2.symm.trans hm.2.2

/-- `parse` returns the number that the text stands for, unless it is over the bound. -/
theorem parse_eq_some_iff : parse bound text = some n ↔ Denotes text n ∧ n ≤ bound := by
  unfold parse
  split
  · simp [denotes_plain]
  · simp [denotes_plus]
  · simp [denotes_plain]
  · next digits hsome =>
      have hne : digits ≠ [] := hsome
      rw [parse_digits_eq_some_iff (Nat.zero_le bound), denotes_plus, and_iff_right hne, and_assoc]
  · next hsome _ _ hplain =>
      have hne : text ≠ [] := hsome
      rw [parse_digits_eq_some_iff (Nat.zero_le bound), denotes_plain hplain, and_iff_right hne,
        and_assoc]

/-- A printed number stands for itself. -/
theorem denotes_to_digits (n : Nat) : Denotes (Nat.toDigits 10 n) n :=
  ⟨Nat.toDigits 10 n, .inl rfl, Nat.toDigits_ne_nil,
    fun _ => Nat.isDigit_of_mem_toDigits (by decide) (by decide), Nat.ofDigitChars_ten_toDigits⟩

/-- A type of bounded numbers is parsed by its conversions from and to `Nat`. -/
theorem map_parse_eq_some_iff {α : Type*} {ofNat : Nat → α} {toNat : α → Nat} {v : α}
    (hto : ∀ n ≤ bound, toNat (ofNat n) = n) (hof : ∀ v, ofNat (toNat v) = v)
    (hbound : ∀ v, toNat v ≤ bound) :
    (parse bound text).map ofNat = some v ↔ Denotes text (toNat v) := by
  rw [Option.map_eq_some_iff]
  constructor
  · rintro ⟨n, hparse, rfl⟩
    obtain ⟨htext, hn⟩ := parse_eq_some_iff.mp hparse
    rwa [hto n hn]
  · exact fun htext => ⟨toNat v, parse_eq_some_iff.mpr ⟨htext, hbound v⟩, hof v⟩

/-- A number over the bound is rejected. -/
theorem parse_eq_none_of_lt (h : Denotes text n) (hover : bound < n) : parse bound text = none := by
  cases hparse : parse bound text with
  | none => rfl
  | some m =>
      obtain ⟨hm, hle⟩ := parse_eq_some_iff.mp hparse
      have hsame : n = m := h.unique hm
      omega

/-- A text that stands for a number consists of digits and plus signs. -/
theorem Denotes.mem (h : Denotes text n) {c : Char} (hc : c ∈ text) :
    c = '+' ∨ c.isDigit = true := by
  obtain ⟨digits, rfl | rfl, -, hdigits, -⟩ := h
  · exact .inr (hdigits c hc)
  · rcases List.mem_cons.mp hc with rfl | hc
    · exact .inl rfl
    · exact .inr (hdigits c hc)

end QuoteStreamer.Decimal
