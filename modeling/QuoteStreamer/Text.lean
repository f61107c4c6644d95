import Mathlib.Data.List.DropRight

/-!
# Text as the program handles it

A Rust `str` is a sequence of Unicode scalar values, so `Str` is `List Char`. The operations are
those the server applies to received lines and to configuration lines: `trim`,
`split_whitespace`, `starts_with`, and the UTF-8 coding that `BufRead::read_line` checks.
-/

namespace QuoteStreamer

/-- The contents of a Rust `str` or `String`. -/
abbrev Str := List Char

namespace Text

/-- `char::is_whitespace`: the Unicode property `White_Space`. -/
def isWhitespace (c : Char) : Bool :=
  ('\t' ≤ c && c ≤ '\r') || c == ' ' || c == '\u0085' || c == '\u00A0' || c == '\u1680' ||
    ('\u2000' ≤ c && c ≤ '\u200A') || c == '\u2028' || c == '\u2029' || c == '\u202F' ||
    c == '\u205F' || c == '\u3000'

/-- `str::trim`. -/
def trim (s : Str) : Str :=
  (s.dropWhile isWhitespace).rdropWhile isWhitespace

/-- `str::split_whitespace`, collected: the maximal runs without whitespace. -/
def splitWhitespace (s : Str) : List Str :=
  (s.splitOnP isWhitespace).filter (· ≠ [])

/-- `str::starts_with` for a string pattern. -/
def startsWith (s pattern : Str) : Bool :=
  pattern.isPrefixOf s

/-- `str::eq_ignore_ascii_case`. -/
def eqIgnoreAsciiCase (s t : Str) : Bool :=
  s.map Char.toLower == t.map Char.toLower

/-- `str::as_bytes`: the UTF-8 encoding. -/
def encode (s : Str) : List UInt8 :=
  s.flatMap String.utf8EncodeChar

/-- `str::from_utf8`: the text the bytes encode, or `none` when they are not valid UTF-8. -/
def decode (bytes : List UInt8) : Option Str :=
  bytes.toByteArray.utf8Decode?.map Array.toList

variable {s p q : Str}

/-- Nothing but whitespace. -/
def Blank (s : Str) : Prop :=
  ∀ c ∈ s, isWhitespace c = true

instance (s : Str) : Decidable (Blank s) :=
  List.decidableBAll _ s

/-- The code points of whitespace. -/
def whitespaceCodes : List Nat :=
  [0x9, 0xA, 0xB, 0xC, 0xD, 0x20, 0x85, 0xA0, 0x1680, 0x2000, 0x2001, 0x2002, 0x2003, 0x2004,
    0x2005, 0x2006, 0x2007, 0x2008, 0x2009, 0x200A, 0x2028, 0x2029, 0x202F, 0x205F, 0x3000]

theorem whitespace_iff {c : Char} : isWhitespace c = true ↔ c.toNat ∈ whitespaceCodes := by
  have hle : ∀ a b : Char, a ≤ b ↔ a.toNat ≤ b.toNat := fun a b => UInt32.le_iff_toNat_le
  have heq : ∀ a b : Char, a = b ↔ a.toNat = b.toNat := fun a b =>
    ⟨congrArg Char.toNat, fun h => Char.ext (UInt32.toNat_inj.mp h)⟩
  simp only [isWhitespace, Bool.or_eq_true, Bool.and_eq_true, decide_eq_true_eq, beq_iff_eq, hle,
    heq, whitespaceCodes, List.mem_cons, List.not_mem_nil, or_false]
  simp only [show '\t'.toNat = 9 from rfl, show '\r'.toNat = 13 from rfl,
    show ' '.toNat = 32 from rfl,
    show '\u0085'.toNat = 0x85 from rfl, show '\u00A0'.toNat = 0xA0 from rfl,
    show '\u1680'.toNat = 0x1680 from rfl, show '\u2000'.toNat = 0x2000 from rfl,
    show '\u200A'.toNat = 0x200A from rfl, show '\u2028'.toNat = 0x2028 from rfl,
    show '\u2029'.toNat = 0x2029 from rfl, show '\u202F'.toNat = 0x202F from rfl,
    show '\u205F'.toNat = 0x205F from rfl, show '\u3000'.toNat = 0x3000 from rfl]
  omega

/-- `trim` takes whitespace away only. -/
theorem filter_trim (s : Str) :
    (trim s).filter (!isWhitespace ·) = s.filter (!isWhitespace ·) := by
  have hfront : ∀ t : Str, (t.dropWhile isWhitespace).filter (!isWhitespace ·) =
      t.filter (!isWhitespace ·) := by
    intro t
    conv_rhs => rw [← List.takeWhile_append_dropWhile (p := isWhitespace) (l := t)]
    have hnone : (t.takeWhile isWhitespace).filter (!isWhitespace ·) = [] :=
      List.filter_eq_nil_iff.mpr fun c hc => by simp [List.mem_takeWhile_imp hc]
    rw [List.filter_append, hnone, List.nil_append]
  have hback : ∀ t : Str, (t.rdropWhile isWhitespace).filter (!isWhitespace ·) =
      t.filter (!isWhitespace ·) := by
    intro t
    rw [List.rdropWhile, List.filter_reverse, hfront, ← List.filter_reverse, List.reverse_reverse]
  rw [trim, hback, hfront]

theorem trim_eq_nil_iff : trim s = [] ↔ Blank s := by
  constructor
  · intro h
    have hnone := filter_trim s
    rw [h, List.filter_nil, eq_comm, List.filter_eq_nil_iff] at hnone
    intro c hc
    simpa using hnone c hc
  · intro h
    rw [trim, List.dropWhile_eq_nil_iff.mpr h]
    rfl

theorem mem_of_mem_trim {c : Char} (h : c ∈ trim s) : c ∈ s :=
  (List.dropWhile_sublist _).subset ((List.rdropWhile_prefix isWhitespace _).subset h)

/-- Whitespace in front does not matter. -/
theorem trim_append (hp : Blank p) : trim (p ++ q) = trim q := by
  rw [trim, trim, List.dropWhile_append_of_pos hp]

/-- Anything else in front does. -/
theorem blank_of_trim_append (h : trim (p ++ q) = trim q) : Blank p := by
  have hfilter := congrArg (List.filter (!isWhitespace ·)) h
  rw [filter_trim, filter_trim, List.filter_append] at hfilter
  have hnone := List.append_left_eq_self.mp hfilter
  rw [List.filter_eq_nil_iff] at hnone
  intro c hc
  simpa using hnone c hc

/-- Neither does whitespace at the end. -/
theorem trim_append_right (hq : Blank q) : trim (p ++ q) = trim p := by
  have hback : ∀ t : Str, (t ++ q).rdropWhile isWhitespace = t.rdropWhile isWhitespace := by
    intro t
    have hreverse : ∀ c ∈ q.reverse, isWhitespace c = true := fun c hc =>
      hq c (List.mem_reverse.mp hc)
    rw [List.rdropWhile, List.reverse_append,
      List.dropWhile_append_of_pos hreverse, List.rdropWhile]
  by_cases hp : Blank p
  · rw [trim_append hp, trim_eq_nil_iff.mpr hp, trim_eq_nil_iff.mpr hq]
  · have hne : (p.dropWhile isWhitespace).isEmpty = false := by
      rw [List.isEmpty_eq_false_iff]
      exact fun h => hp (List.dropWhile_eq_nil_iff.mp h)
    rw [trim, trim, List.dropWhile_append, hne, if_neg (by simp), hback]

/-- Anything else at the end does. -/
theorem blank_of_trim_append_right (h : trim (p ++ q) = trim p) : Blank q := by
  have hfilter := congrArg (List.filter (!isWhitespace ·)) h
  rw [filter_trim, filter_trim, List.filter_append] at hfilter
  have hnone := List.append_right_eq_self.mp hfilter
  rw [List.filter_eq_nil_iff] at hnone
  intro c hc
  simpa using hnone c hc

/-- What is left of a text is at the end of what is left with something in front of it. -/
theorem trim_suffix (p q : Str) : trim q <:+ trim (p ++ q) := by
  have hback : ∀ front back : Str,
      back.rdropWhile isWhitespace <:+ (front ++ back).rdropWhile isWhitespace := by
    intro front back
    rw [List.rdropWhile, List.rdropWhile, List.reverse_append, List.reverse_suffix,
      List.dropWhile_append]
    split
    · next hnil =>
        rw [List.isEmpty_iff.mp hnil]
        exact List.nil_prefix
    · exact List.prefix_append _ _
  have hfront : q.dropWhile isWhitespace <:+ (p ++ q).dropWhile isWhitespace := by
    rw [List.dropWhile_append]
    split
    · exact List.suffix_rfl
    · exact (List.dropWhile_suffix _).trans (List.suffix_append _ _)
  obtain ⟨front, hfront⟩ := hfront
  rw [trim, trim, ← hfront]
  exact hback front _

/-- A trimmed text does not end with whitespace. -/
theorem last_of_trim (hne : trim s ≠ []) : isWhitespace ((trim s).getLast hne) = false := by
  exact Bool.eq_false_iff.mpr (List.rdropWhile_last_not isWhitespace (s.dropWhile isWhitespace) hne)

/-- Between a word and a trimmed text nothing is trimmed. -/
theorem trim_between {keyword : Str} (hword : ∀ c ∈ keyword, isWhitespace c = false)
    (hkeyword : keyword ≠ []) (middle : Str) (hne : trim s ≠ []) :
    trim (keyword ++ (middle ++ trim s)) = keyword ++ (middle ++ trim s) := by
  cases keyword with
  | nil => exact absurd rfl hkeyword
  | cons first rest =>
      have hfirst : isWhitespace first = false := hword first List.mem_cons_self
      have hlast : ∀ h, isWhitespace ((first :: rest ++ (middle ++ trim s)).getLast h) = false := by
        intro h
        have hsplit : first :: rest ++ (middle ++ trim s) =
          (first :: rest ++ middle) ++ trim s := by simp
        simp only [hsplit, List.getLast_append_of_ne_nil _ hne]
        exact last_of_trim hne
      rw [List.cons_append, trim, List.dropWhile_cons_of_neg (by simp [hfirst])]
      exact List.rdropWhile_eq_self_iff.mpr fun h => Bool.eq_false_iff.mp (hlast h)

/-- A keyword in front of a space is the first word. -/
theorem split_whitespace_keyword {keyword : Str} (hword : ∀ c ∈ keyword, isWhitespace c = false)
    (hne : keyword ≠ []) (rest : Str) :
    splitWhitespace (keyword ++ ' ' :: rest) = keyword :: splitWhitespace rest := by
  unfold splitWhitespace
  rw [List.splitOnP_append_cons_of_forall_mem hword ' ' (by decide) rest,
    List.filter_cons_of_pos (by simpa using hne)]

/-- A word is its own only word. -/
theorem split_whitespace_word (hword : ∀ c ∈ s, isWhitespace c = false) (hne : s ≠ []) :
    splitWhitespace s = [s] := by
  rw [splitWhitespace, List.splitOnP_eq_singleton hword,
    List.filter_cons_of_pos (by simpa using hne),
    List.filter_nil]

/-- The parts of a text have no whitespace. -/
theorem mem_split_whitespace {token : Str} (h : token ∈ splitWhitespace s) :
    ∀ c ∈ token, isWhitespace c = false := by
  have hpart : ∀ part ∈ s.splitOnP isWhitespace, ∀ c ∈ part, isWhitespace c = false := by
    clear h
    induction s with
    | nil =>
        intro part hpart c hc
        rw [List.splitOnP_nil, List.mem_singleton] at hpart
        subst hpart
        cases hc
    | cons d s ih =>
        intro part hpart
        rw [List.splitOnP_cons_eq_if_modifyHead] at hpart
        split at hpart
        · rcases List.mem_cons.mp hpart with rfl | hpart
          · exact fun c hc => by cases hc
          · exact ih part hpart
        · next hd =>
            cases hsplit : s.splitOnP isWhitespace with
            | nil => exact absurd hsplit (List.splitOnP_ne_nil _ _)
            | cons first rest =>
                rw [hsplit] at hpart ih
                rcases List.mem_cons.mp hpart with rfl | hpart
                · exact List.forall_mem_cons.mpr ⟨by simpa using hd, ih first List.mem_cons_self⟩
                · exact ih part (List.mem_cons_of_mem _ hpart)
  exact hpart token (List.mem_filter.mp h).1

/-- A text that is not blank has a word. -/
theorem split_whitespace_ne_nil (h : ¬ Blank s) : splitWhitespace s ≠ [] := by
  have hpart : ∀ c ∈ s, isWhitespace c = false → ∃ part ∈ s.splitOnP isWhitespace, c ∈ part := by
    clear h
    induction s with
    | nil => exact fun c hc => by cases hc
    | cons d s ih =>
        intro c hc hword
        rw [List.splitOnP_cons_eq_if_modifyHead]
        by_cases hd : isWhitespace d = true
        · rw [if_pos hd]
          have hrest : c ∈ s := by
            refine (List.mem_cons.mp hc).resolve_left fun heq => ?_
            rw [heq, hd] at hword
            cases hword
          obtain ⟨part, hpart, hmem⟩ := ih c hrest hword
          exact ⟨part, List.mem_cons_of_mem _ hpart, hmem⟩
        · rw [if_neg hd]
          cases hsplit : s.splitOnP isWhitespace with
          | nil => exact absurd hsplit (List.splitOnP_ne_nil _ _)
          | cons first rest =>
              rw [hsplit] at ih
              rcases List.mem_cons.mp hc with rfl | hrest
              · exact ⟨_, List.mem_cons_self, List.mem_cons_self⟩
              · obtain ⟨part, hpart, hmem⟩ := ih c hrest hword
                rcases List.mem_cons.mp hpart with rfl | hpart
                · exact ⟨_, List.mem_cons_self, List.mem_cons_of_mem _ hmem⟩
                · exact ⟨part, List.mem_cons_of_mem _ hpart, hmem⟩
  intro hnil
  refine h fun c hc => ?_
  by_contra hword
  obtain ⟨part, hmem, hc⟩ := hpart c hc (by simpa using hword)
  have hempty : part = [] := by simpa using List.filter_eq_nil_iff.mp hnil part hmem
  rw [hempty] at hc
  cases hc

/-- Of two words of which neither begins with the other, a text begins with at most one. -/
theorem prefix_unique {first second : Str} (hfirst : first <+: s) (hsecond : second <+: s)
    (hnot : ¬ first <+: second) (hnot' : ¬ second <+: first) : False := by
  rcases Nat.le_total first.length second.length with hle | hle
  · exact hnot (List.prefix_of_prefix_length_le hfirst hsecond hle)
  · exact hnot' (List.prefix_of_prefix_length_le hsecond hfirst hle)

theorem starts_with_iff {text : Str} : startsWith s text = true ↔ text <+: s :=
  List.isPrefixOf_iff_prefix

end Text

end QuoteStreamer
