import QuoteStreamer.Text

/-!
# The bytes of a text

UTF-8 as far as the framing of lines needs it: the coding is injective and goes character by
character, so a cut through the bytes of a text leaves valid text on both sides, where it falls
between two characters, or on neither; and the newline byte stands for nothing but the newline.
-/

namespace QuoteStreamer.Text

variable {p q t : Str} {a b : List UInt8}

theorem encode_append (p q : Str) : encode (p ++ q) = encode p ++ encode q :=
  List.flatMap_append

theorem encode_cons (c : Char) (t : Str) : encode (c :: t) = String.utf8EncodeChar c ++ encode t :=
  rfl

theorem encode_flatten (texts : List Str) : encode texts.flatten = (texts.map encode).flatten := by
  induction texts with
  | nil => rfl
  | cons t texts ih => rw [List.flatten_cons, encode_append, ih, List.map_cons, List.flatten_cons]

theorem utf8_encode_eq (t : Str) : t.utf8Encode = (encode t).toByteArray :=
  rfl

theorem decode_encode (t : Str) : decode (encode t) = some t := by
  rw [decode, ← utf8_encode_eq, List.utf8Decode?_utf8Encode]
  rfl

theorem encode_of_decode (h : decode b = some t) : b = encode t := by
  obtain ⟨chars, hchars, rfl⟩ := Option.map_eq_some_iff.mp h
  have hbytes : chars.toList.utf8Encode = b.toByteArray := by
    have hget := ByteArray.utf8Encode_get_utf8Decode? (b := b.toByteArray)
      (h := by rw [hchars]; rfl)
    simpa [hchars] using hget
  have hlists := congrArg (fun bytes => bytes.data.toList) hbytes
  simpa [utf8_encode_eq] using hlists.symm

theorem encode_injective (h : encode p = encode q) : p = q := by
  have hdecode := congrArg decode h
  rw [decode_encode, decode_encode] at hdecode
  exact Option.some.inj hdecode

/-- The first character of some bytes is determined. -/
theorem encode_char_unique {c d : Char} {rest rest' : List UInt8}
    (h : String.utf8EncodeChar c ++ rest = String.utf8EncodeChar d ++ rest') : c = d := by
  have hfirst : ∀ (c : Char) (rest : List UInt8),
      (String.utf8EncodeChar c ++ rest).toByteArray.utf8DecodeChar? 0 = some c := by
    intro c rest
    rw [List.toByteArray_append, ByteArray.utf8DecodeChar?_utf8EncodeChar_append]
  have hsame := hfirst c rest
  rw [h, hfirst] at hsame
  exact (Option.some.inj hsame).symm

/-- A byte that can begin a character does not stand further back in one. -/
theorem first_byte_index {c : Char} {i : Nat} (hi : i < (String.utf8EncodeChar c).length)
    (h : ((String.utf8EncodeChar c)[i]).IsUTF8FirstByte) : i = 0 :=
  UInt8.isUTF8FirstByte_getElem_utf8EncodeChar.mp h

/-- The newline byte is the newline. -/
theorem newline_of_mem {c : Char} (h : 10 ∈ String.utf8EncodeChar c) : c = '\n' := by
  obtain ⟨i, hi, hbyte⟩ := List.mem_iff_getElem.mp h
  obtain rfl : i = 0 := first_byte_index hi (by rw [hbyte]; decide)
  cases hbytes : String.utf8EncodeChar c with
  | nil => simp [hbytes] at hi
  | cons byte rest =>
      have hnewline : byte = 10 := by simpa [hbytes] using hbyte
      have hsame : String.utf8EncodeChar c ++ [] = String.utf8EncodeChar '\n' ++ rest := by
        rw [hbytes, hnewline, List.append_nil]
        rfl
      exact encode_char_unique hsame

/-- A newline byte in the bytes of a text is a newline in the text. -/
theorem newline_mem_iff : 10 ∈ encode t ↔ '\n' ∈ t := by
  constructor
  · intro h
    obtain ⟨c, hc, hbyte⟩ := List.mem_flatMap.mp h
    rwa [← newline_of_mem hbyte]
  · exact fun h => List.mem_flatMap.mpr ⟨'\n', h, by decide⟩

/-- What follows the bytes of a text within another text are the bytes of its rest. -/
theorem encode_prefix (h : encode p ++ b = encode t) : ∃ q, t = p ++ q ∧ b = encode q := by
  induction p generalizing t with
  | nil => exact ⟨t, rfl, h⟩
  | cons c p ih =>
      cases t with
      | nil => simp [encode] at h
      | cons d t =>
          rw [encode_cons, encode_cons, List.append_assoc] at h
          obtain rfl := encode_char_unique h
          obtain ⟨q, rfl, hb⟩ := ih (List.append_cancel_left h)
          exact ⟨q, rfl, hb⟩

/-- A cut inside a character does not leave the bytes of a text behind it. -/
theorem not_encode_inside {c : Char} {x y rest : List UInt8}
    (hchar : String.utf8EncodeChar c = x ++ y)
    (hx : x ≠ []) (hy : y ≠ []) : encode q ≠ y ++ rest := by
  intro h
  cases q with
  | nil =>
      have hnil : y ++ rest = [] := h.symm
      exact hy (List.append_eq_nil_iff.mp hnil).1
  | cons d q =>
      cases y with
      | nil => exact hy rfl
      | cons byte y =>
          rw [encode_cons] at h
          have hpos : 0 < (String.utf8EncodeChar d).length :=
            List.length_pos_of_ne_nil String.utf8EncodeChar_ne_nil
          have hfirst : (String.utf8EncodeChar d)[0].IsUTF8FirstByte :=
            UInt8.isUTF8FirstByte_getElem_utf8EncodeChar.mpr rfl
          have hbyte : (String.utf8EncodeChar d)[0] = byte := by
            have hhead : (String.utf8EncodeChar d ++ encode q)[0]? = some byte := by
              rw [h]
              rfl
            rw [List.getElem?_append_left hpos, List.getElem?_eq_getElem hpos] at hhead
            exact Option.some.inj hhead
          rw [hbyte] at hfirst
          have hindex : x.length < (String.utf8EncodeChar c).length := by simp [hchar]
          have hzero : x.length = 0 := first_byte_index hindex (by simpa [hchar] using hfirst)
          exact hx (List.length_eq_zero_iff.mp hzero)

/-- What stands in front of the bytes of a text within another text are bytes of a text. -/
theorem encode_suffix (h : a ++ encode q = encode t) : ∃ p, t = p ++ q ∧ a = encode p := by
  induction t generalizing a with
  | nil =>
      obtain ⟨rfl, hq⟩ := List.append_eq_nil_iff.mp h
      obtain rfl : q = [] := encode_injective (hq.trans rfl)
      exact ⟨[], rfl, rfl⟩
  | cons c t ih =>
      rw [encode_cons] at h
      rcases List.append_eq_append_iff.mp h with ⟨x, hchar, hq⟩ | ⟨x, ha, hrest⟩
      · -- the cut is inside the first character, or at one of its ends
        by_cases ha : a = []
        · subst ha
          obtain rfl : q = c :: t := encode_injective (by rw [encode_cons, hchar, hq]; rfl)
          exact ⟨[], rfl, rfl⟩
        · by_cases hx : x = []
          · subst hx
            obtain rfl : q = t := encode_injective hq
            exact ⟨[c], rfl, by simpa [encode] using hchar.symm⟩
          · exact absurd hq (not_encode_inside hchar ha hx)
      · obtain ⟨p, rfl, rfl⟩ := ih hrest.symm
        exact ⟨c :: p, rfl, ha⟩

/-- If one side of a cut through a text is a text, so is the other. -/
theorem decode_front (h : a ++ b = encode t) (hb : decode b = some q) :
    ∃ p, decode a = some p ∧ t = p ++ q := by
  rw [encode_of_decode hb] at h
  obtain ⟨p, ht, rfl⟩ := encode_suffix h
  exact ⟨p, decode_encode p, ht⟩

theorem decode_back (h : a ++ b = encode t) (ha : decode a = some p) :
    ∃ q, decode b = some q ∧ t = p ++ q := by
  rw [encode_of_decode ha] at h
  obtain ⟨q, ht, rfl⟩ := encode_prefix h
  exact ⟨q, decode_encode q, ht⟩

end QuoteStreamer.Text
