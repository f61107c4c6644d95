import QuoteStreamer.Lib.Decimal
import QuoteStreamer.Lib.Separated
import QuoteStreamer.QuoteGenerator
import QuoteStreamer.Utf8

/-!
# The text format of a quote

`Display`, `to_bytes` and `from_string` of `StockQuote`: the fields `ticker|price|volume|timestamp`.
How an `f64` is printed and parsed is the standard library's business and enters as `F64Text`; the
integers are printed and parsed by the decimal functions of the library.
-/

namespace QuoteStreamer

/-- `Display` and `FromStr` of `f64`. -/
structure F64Text where
  display : F64 → Str
  parse : Str → Option F64

/-- What the standard library says about them, as far as the format of a quote relies on it. -/
structure F64Text.Documented (text : F64Text) : Prop where
  /-- Printing a number and parsing it again gives the same number. -/
  round_trip : ∀ x : F64, x.isNaN = false → text.parse (text.display x) = some x
  /-- A number is printed without a bar. -/
  no_bar : ∀ x : F64, x.isNaN = false → '|' ∉ text.display x

/-- `u32::to_string`. -/
def displayU32 (v : UInt32) : Str :=
  Nat.toDigits 10 v.toNat

/-- `u64::to_string`. -/
def displayU64 (v : UInt64) : Str :=
  Nat.toDigits 10 v.toNat

/-- `str::parse::<u32>`. -/
def parseU32 (field : Str) : Option UInt32 :=
  (Decimal.parse (UInt32.size - 1) field).map UInt32.ofNat

/-- `str::parse::<u64>`. -/
def parseU64 (field : Str) : Option UInt64 :=
  (Decimal.parse (UInt64.size - 1) field).map UInt64.ofNat

namespace StockQuote

/-- `StockQuote::from_string`. -/
def fromString (text : F64Text) (s : Str) : Option StockQuote :=
  match s.splitOn '|' with
  | [ticker, price, volume, timestamp] => do
      let price ← text.parse price
      let volume ← parseU32 volume
      let timestamp ← parseU64 timestamp
      some ⟨ticker, price, volume, timestamp⟩
  | _ => none

/-- `StockQuote::to_bytes`. -/
def toBytes (text : F64Text) (q : StockQuote) : List UInt8 :=
  Text.encode q.ticker ++ [124] ++ Text.encode (text.display q.price) ++ [124] ++
    Text.encode (displayU32 q.volume) ++ [124] ++ Text.encode (displayU64 q.timestamp)

/-- `Display for StockQuote`. -/
def display (text : F64Text) (q : StockQuote) : Str :=
  q.ticker ++ '|' :: text.display q.price ++ '|' :: displayU32 q.volume ++
    '|' :: displayU64 q.timestamp

end StockQuote

variable {text : F64Text} {s field ticker price volume timestamp : Str} {q : StockQuote}

/-- A `u32` is parsed from a text that stands for it. -/
theorem parse_u32_iff {v : UInt32} : parseU32 field = some v ↔ Decimal.Denotes field v.toNat :=
  Decimal.map_parse_eq_some_iff
    (fun n hn => UInt32.toNat_ofNat_of_lt' (Nat.lt_of_le_sub_one (by decide) hn))
    (fun _ => UInt32.ofNat_toNat) fun v => Nat.le_sub_one_of_lt v.toNat_lt

/-- So is a `u64`. -/
theorem parse_u64_iff {v : UInt64} : parseU64 field = some v ↔ Decimal.Denotes field v.toNat :=
  Decimal.map_parse_eq_some_iff
    (fun n hn => UInt64.toNat_ofNat_of_lt' (Nat.lt_of_le_sub_one (by decide) hn))
    (fun _ => UInt64.ofNat_toNat) fun v => Nat.le_sub_one_of_lt v.toNat_lt

/-- A number that does not fit is rejected. -/
theorem parse_u32_of_size_le {n : Nat} (h : Decimal.Denotes field n) (hn : UInt32.size ≤ n) :
    parseU32 field = none := by
  have hover : UInt32.size - 1 < n := Nat.sub_one_lt_of_le (by decide) hn
  rw [parseU32, Decimal.parse_eq_none_of_lt h hover, Option.map_none]

/-- Here as well. -/
theorem parse_u64_of_size_le {n : Nat} (h : Decimal.Denotes field n) (hn : UInt64.size ≤ n) :
    parseU64 field = none := by
  have hover : UInt64.size - 1 < n := Nat.sub_one_lt_of_le (by decide) hn
  rw [parseU64, Decimal.parse_eq_none_of_lt h hover, Option.map_none]

/-- No number is written with a bar. -/
theorem bar_not_mem_of_denotes {n : Nat} (h : Decimal.Denotes field n) : '|' ∉ field := by
  intro hbar
  rcases h.mem hbar with hplus | hdigit
  · exact absurd hplus (by decide)
  · exact absurd hdigit (by decide)

namespace StockQuote

/-- What `from_string` does with four fields. -/
theorem from_string_fields (hsplit : s.splitOn '|' = [ticker, price, volume, timestamp]) :
    fromString text s =
      (text.parse price).bind fun price => (parseU32 volume).bind fun volume =>
        (parseU64 timestamp).bind fun timestamp => some ⟨ticker, price, volume, timestamp⟩ := by
  simp only [fromString, hsplit]
  rfl

/-- With any other number of fields it returns nothing. -/
theorem from_string_of_length (hlength : (s.splitOn '|').length ≠ 4) :
    fromString text s = none := by
  unfold fromString
  split
  · next hsplit =>
      rw [hsplit] at hlength
      exact absurd rfl hlength
  · rfl

/-- Which texts `from_string` accepts, and as which quote. -/
theorem from_string_eq_some_iff : fromString text s = some q ↔
    ∃ price volume timestamp, s.splitOn '|' = [q.ticker, price, volume, timestamp] ∧
      text.parse price = some q.price ∧ Decimal.Denotes volume q.volume.toNat ∧
      Decimal.Denotes timestamp q.timestamp.toNat := by
  constructor
  · intro h
    have hlength : (s.splitOn '|').length = 4 := by
      by_contra hne
      rw [from_string_of_length hne] at h
      cases h
    obtain ⟨ticker, price, volume, timestamp, hsplit⟩ := List.length_eq_four.mp hlength
    rw [from_string_fields hsplit] at h
    simp only [Option.bind_eq_some_iff] at h
    obtain ⟨_, hprice, _, hvolume, _, htimestamp, hq⟩ := h
    cases hq
    exact ⟨price, volume, timestamp, hsplit, hprice, parse_u32_iff.mp hvolume,
      parse_u64_iff.mp htimestamp⟩
  · rintro ⟨price, volume, timestamp, hsplit, hprice, hvolume, htimestamp⟩
    rw [from_string_fields hsplit, hprice, parse_u32_iff.mpr hvolume,
      parse_u64_iff.mpr htimestamp]
    rfl

/-- The printed quote is its fields with bars between them. -/
theorem display_eq (text : F64Text) (q : StockQuote) : q.display text = ['|'].intercalate
    [q.ticker, text.display q.price, displayU32 q.volume, displayU64 q.timestamp] := by
  simp [display, List.intercalate]

/-- `to_bytes` writes the printed quote. -/
theorem to_bytes_eq (text : F64Text) (q : StockQuote) :
    q.toBytes text = Text.encode (q.display text) := by
  have hbar : String.utf8EncodeChar '|' = [124] := by decide
  simp only [toBytes, display, Text.encode_append, Text.encode_cons, hbar, List.append_assoc,
    List.singleton_append]

/-- A printed quote is read back if its ticker has no bar. -/
theorem from_string_display (htext : text.Documented) (hprice : q.price.isNaN = false)
    (hticker : '|' ∉ q.ticker) : fromString text (q.display text) = some q := by
  rw [from_string_eq_some_iff]
  refine ⟨text.display q.price, displayU32 q.volume, displayU64 q.timestamp, ?_,
    htext.round_trip q.price hprice, Decimal.denotes_to_digits _, Decimal.denotes_to_digits _⟩
  rw [Separated.split_on_eq_iff]
  refine ⟨by simp, display_eq text q, ?_⟩
  simp only [List.forall_mem_cons]
  exact ⟨hticker, htext.no_bar q.price hprice, bar_not_mem_of_denotes (Decimal.denotes_to_digits _),
    bar_not_mem_of_denotes (Decimal.denotes_to_digits _), by simp⟩

/-- A ticker with a bar makes at least five fields. -/
theorem from_string_display_of_bar (hticker : '|' ∈ q.ticker) :
    fromString text (q.display text) = none := by
  refine from_string_of_length ?_
  have hbars : 0 < q.ticker.count '|' := List.count_pos_iff.mpr hticker
  rw [Separated.length_split_on, display]
  simp only [List.count_append, List.count_cons_self]
  omega

/-- Decoding a printed quote never yields a different one. -/
theorem display_injective_of_decoded (htext : text.Documented) (hprice : q.price.isNaN = false)
    {decoded : StockQuote} (h : fromString text (q.display text) = some decoded) : decoded = q := by
  by_cases hticker : '|' ∈ q.ticker
  · rw [from_string_display_of_bar hticker] at h
    cases h
  · rw [from_string_display htext hprice hticker] at h
    exact (Option.some.inj h).symm

/-- An accepted text has three bars, whose fields are the ticker, a price and two numbers that
stand in the text with the value they have in the quote. -/
theorem fields_of_from_string (h : fromString text s = some q) :
    s.count '|' = 3 ∧ '|' ∉ q.ticker ∧ ∃ price volume timestamp,
      s = ['|'].intercalate [q.ticker, price, volume, timestamp] ∧
      Decimal.Denotes volume q.volume.toNat ∧ Decimal.Denotes timestamp q.timestamp.toNat := by
  obtain ⟨price, volume, timestamp, hsplit, -, hvolume, htimestamp⟩ :=
    from_string_eq_some_iff.mp h
  have hlength := Separated.length_split_on '|' s
  rw [hsplit] at hlength
  obtain ⟨-, hs, hclean⟩ := Separated.split_on_eq_iff.mp hsplit
  have hcount : s.count '|' = 3 := by simpa using hlength.symm
  exact ⟨hcount, hclean q.ticker List.mem_cons_self, price, volume, timestamp, hs, hvolume,
    htimestamp⟩

/-- A text whose volume or timestamp is too large for its type is rejected. -/
theorem from_string_of_overflow {n : Nat}
    (hsplit : s.splitOn '|' = [ticker, price, volume, timestamp])
    (hover : (Decimal.Denotes volume n ∧ UInt32.size ≤ n) ∨
      (Decimal.Denotes timestamp n ∧ UInt64.size ≤ n)) : fromString text s = none := by
  rw [from_string_fields hsplit]
  rcases hover with ⟨hvolume, hn⟩ | ⟨htimestamp, hn⟩
  · simp [parse_u32_of_size_le hvolume hn]
  · simp [parse_u64_of_size_le htimestamp hn]

/-- The encoders and the decoder agree. For every quote with a price that is a number, `to_bytes`
is the UTF-8 of its print, which is read back exactly when the ticker has no bar and is rejected
otherwise; every accepted text has three bars, holds the volume and the timestamp unwrapped, and
its quote prints to a text that is read back as that quote. -/
theorem codec_round_trip (text : F64Text) (htext : text.Documented) :
    (∀ q : StockQuote, q.price.isNaN = false →
      q.toBytes text = Text.encode (q.display text) ∧
      ('|' ∉ q.ticker → fromString text (q.display text) = some q) ∧
      ('|' ∈ q.ticker → fromString text (q.display text) = none) ∧
      ∀ decoded, fromString text (q.display text) = some decoded → decoded = q) ∧
    (∀ s q, fromString text s = some q → q.price.isNaN = false →
      s.count '|' = 3 ∧
      (∃ price volume timestamp, s = ['|'].intercalate [q.ticker, price, volume, timestamp] ∧
        Decimal.Denotes volume q.volume.toNat ∧ Decimal.Denotes timestamp q.timestamp.toNat) ∧
      fromString text (q.display text) = some q) ∧
    (∀ s ticker price volume timestamp n, s.splitOn '|' = [ticker, price, volume, timestamp] →
      (Decimal.Denotes volume n ∧ UInt32.size ≤ n) ∨
        (Decimal.Denotes timestamp n ∧ UInt64.size ≤ n) → fromString text s = none) := by
  refine ⟨fun q hprice => ?_, fun s q h hprice => ?_, fun s ticker price volume timestamp n => ?_⟩
  · exact ⟨to_bytes_eq text q, from_string_display htext hprice, from_string_display_of_bar,
      fun _ => display_injective_of_decoded htext hprice⟩
  · obtain ⟨hcount, hticker, hfields⟩ := fields_of_from_string h
    exact ⟨hcount, hfields, from_string_display htext hprice hticker⟩
  · exact from_string_of_overflow

end StockQuote

/-- `1.5` printed and parsed as the standard library does it, and any other value as the number of
its bit pattern. -/
def F64Text.bitPattern : F64Text where
  display x := if x = ⟨0x3FF8000000000000⟩ then ['1', '.', '5'] else displayU64 x.bits
  parse field :=
    if field = ['1', '.', '5'] then some ⟨0x3FF8000000000000⟩ else (parseU64 field).map F64.mk

theorem F64Text.bit_pattern_documented : F64Text.bitPattern.Documented where
  round_trip x _ := by
    unfold bitPattern
    by_cases hx : x = ⟨0x3FF8000000000000⟩
    · simp [hx]
    · have hdigits : displayU64 x.bits ≠ ['1', '.', '5'] := by
        intro h
        have hdot : '.' ∈ displayU64 x.bits := by simp [h]
        have hdigit : '.'.isDigit = true :=
          Nat.isDigit_of_mem_toDigits (by decide) (by decide) hdot
        exact absurd hdigit (by decide)
      have hparse : parseU64 (displayU64 x.bits) = some x.bits :=
        parse_u64_iff.mpr (Decimal.denotes_to_digits _)
      simp [hx, hdigits, hparse]
  no_bar x _ := by
    unfold bitPattern
    by_cases hx : x = ⟨0x3FF8000000000000⟩
    · simp [hx]
    · have hbar : '|' ∉ displayU64 x.bits := bar_not_mem_of_denotes (Decimal.denotes_to_digits _)
      simp [hx, hbar]

namespace StockQuote

/-- The largest volume and timestamp come back, a ticker with a bar and a volume of `2 ^ 32` are
rejected, and a plus sign is accepted. -/
theorem codec_round_trip_limits :
    fromString .bitPattern ("é |1.5|4294967295|18446744073709551615".toList) =
      some ⟨['é', ' '], ⟨0x3FF8000000000000⟩, 4294967295, 18446744073709551615⟩ ∧
    fromString .bitPattern ("A|B|1.5|0|0".toList) = none ∧
    ("|1.5|+7|00".toList).count '|' = 3 ∧
    fromString .bitPattern ("|1.5|7|0".toList) = some ⟨[], ⟨0x3FF8000000000000⟩, 7, 0⟩ ∧
    fromString .bitPattern ("A|1.5|4294967296|0".toList) = none := by
  have h := codec_round_trip .bitPattern F64Text.bit_pattern_documented
  have hlimits := h.1 ⟨['é', ' '], ⟨0x3FF8000000000000⟩, 4294967295, 18446744073709551615⟩
    (by decide)
  have hbar := h.1 ⟨['A', '|', 'B'], ⟨0x3FF8000000000000⟩, 0, 0⟩ (by decide)
  have hplus := h.2.1 "|1.5|+7|00".toList ⟨[], ⟨0x3FF8000000000000⟩, 7, 0⟩ (by decide) (by decide)
  have hlarge := h.2.2 "A|1.5|4294967296|0".toList ['A'] ['1', '.', '5'] "4294967296".toList ['0']
    4294967296 (by decide)
    (.inl ⟨⟨"4294967296".toList, .inl rfl, by decide, by simp, by decide⟩, by decide⟩)
  exact ⟨hlimits.2.1 (by decide), hbar.2.2.1 (by decide), hplus.1, hplus.2.2, hlarge⟩

end StockQuote

end QuoteStreamer
