import QuoteStreamer.Text

/-!
# Socket addresses

`str::parse::<SocketAddr>` as `core::net` implements it: a backtracking reader over the text that
tries an IPv4 address with a port, then a bracketed IPv6 address with an optional scope id and a
port, and that must consume the whole text. Every reader takes the remaining text and returns its
value with what is left, or `none`; the caller then goes on from where it was, which is the
source's `read_atomically`.
-/

namespace QuoteStreamer

/-- `core::net::SocketAddr`; the flow info of a parsed IPv6 address is always zero. -/
inductive SocketAddr where
  | v4 (octets : List Nat) (port : Nat)
  | v6 (segments : List Nat) (scopeId port : Nat)
  deriving DecidableEq, Repr

namespace SocketAddr

/-- `char::to_digit` for radix 10 and 16. -/
def toDigit (radix : Nat) (c : Char) : Option Nat :=
  if '0' ≤ c ∧ c ≤ '9' then some (c.toNat - '0'.toNat)
  else if radix = 16 ∧ 'a' ≤ c ∧ c ≤ 'f' then some (c.toNat - 'a'.toNat + 10)
  else if radix = 16 ∧ 'A' ≤ c ∧ c ≤ 'F' then some (c.toNat - 'A'.toNat + 10)
  else none

/-- The digits at the front of the text, with the rest. -/
def readDigits (radix : Nat) : Str → List Nat × Str
  | [] => ([], [])
  | c :: rest =>
      match toDigit radix c with
      | some digit => ((digit :: (readDigits radix rest).1), (readDigits radix rest).2)
      | none => ([], c :: rest)

/-- `read_number`: at most `maxDigits` digits when that is given, no leading zero unless allowed,
and a value of at most `bound`. -/
def readNumber (radix : Nat) (maxDigits : Option Nat) (allowZeroPrefix : Bool) (bound : Nat)
    (text : Str) : Option (Nat × Str) :=
  let (digits, rest) := readDigits radix text
  let value := digits.foldl (fun acc digit => acc * radix + digit) 0
  if digits = [] then none
  else if maxDigits.any (· < digits.length) then none
  else if !allowZeroPrefix && text.head? == some '0' && 1 < digits.length then none
  else if value ≤ bound then some (value, rest)
  else none

/-- `read_given_char`. -/
def readGivenChar (target : Char) : Str → Option Str
  | [] => none
  | c :: rest => if c = target then some rest else none

/-- The separator that `read_separator` reads before every element but the first. -/
def readSeparator (separator : Char) (index : Nat) (text : Str) : Option Str :=
  if 0 < index then readGivenChar separator text else some text

/-- `read_ipv4_addr`: the octets from number `index` on, of which `count` are left. -/
def readIpv4From (index : Nat) : Nat → Str → Option (List Nat × Str)
  | 0, text => some ([], text)
  | count + 1, text => do
      let text ← readSeparator '.' index text
      let (octet, text) ← readNumber 10 (some 3) false 255 text
      let (octets, text) ← readIpv4From (index + 1) count text
      pure (octet :: octets, text)

/-- `read_ipv4_addr`. -/
def readIpv4Addr (text : Str) : Option (List Nat × Str) :=
  readIpv4From 0 4 text

/-- `read_groups`: groups of hexadecimal digits from number `index` on, at most `room` of them, and
whether the last two came from an embedded IPv4 address. -/
def readGroups (index : Nat) : Nat → Str → List Nat × Bool × Str
  | 0, text => ([], false, text)
  | room + 1, text =>
      let embedded := if 0 < room then readSeparator ':' index text >>= readIpv4Addr else none
      match embedded with
      | some ([a, b, c, d], rest) => ([a * 256 + b, c * 256 + d], true, rest)
      | _ =>
          match readSeparator ':' index text >>= readNumber 16 (some 4) true 65535 with
          | some (group, rest) =>
              let (groups, ipv4, rest) := readGroups (index + 1) room rest
              (group :: groups, ipv4, rest)
          | none => ([], false, text)

/-- `read_ipv6_addr`: the eight segments, either all written out or with one `::`. -/
def readIpv6Addr (text : Str) : Option (List Nat × Str) :=
  let (head, headIpv4, rest) := readGroups 0 8 text
  if head.length = 8 then some (head, rest)
  else if headIpv4 then none
  else do
    let rest ← readGivenChar ':' rest
    let rest ← readGivenChar ':' rest
    let (tail, _, rest) := readGroups 0 (7 - head.length) rest
    pure (head ++ List.replicate (8 - head.length - tail.length) 0 ++ tail, rest)

/-- `read_port`. -/
def readPort (text : Str) : Option (Nat × Str) := do
  let text ← readGivenChar ':' text
  readNumber 10 none true 65535 text

/-- `read_scope_id`. -/
def readScopeId (text : Str) : Option (Nat × Str) := do
  let text ← readGivenChar '%' text
  readNumber 10 none true 4294967295 text

/-- `read_socket_addr_v4`. -/
def readSocketAddrV4 (text : Str) : Option (SocketAddr × Str) := do
  let (octets, text) ← readIpv4Addr text
  let (port, text) ← readPort text
  pure (.v4 octets port, text)

/-- `read_socket_addr_v6`. -/
def readSocketAddrV6 (text : Str) : Option (SocketAddr × Str) := do
  let text ← readGivenChar '[' text
  let (segments, text) ← readIpv6Addr text
  let (scopeId, text) := (readScopeId text).getD (0, text)
  let text ← readGivenChar ']' text
  let (port, text) ← readPort text
  pure (.v6 segments scopeId port, text)

/-- `<SocketAddr as FromStr>::from_str`. -/
def parse (text : Str) : Option SocketAddr :=
  match (readSocketAddrV4 text).orElse fun _ => readSocketAddrV6 text with
  | some (addr, []) => some addr
  | _ => none

example : parse "127.0.0.1:50000".toList = some (.v4 [127, 0, 0, 1] 50000) := by decide

example : parse "[::ffff:10.0.0.1%7]:80".toList =
    some (.v6 [0, 0, 0, 0, 0, 65535, 2560, 1] 7 80) := by decide

example : parse "localhost:50000".toList = none := by decide

/-! ## Addresses are words -/

/-- The text begins with characters that are not whitespace, and this is the rest. -/
def Reads (text rest : Str) : Prop :=
  ∃ front, text = front ++ rest ∧ ∀ c ∈ front, Text.isWhitespace c = false

variable {text rest middle : Str}

theorem Reads.refl (text : Str) : Reads text text :=
  ⟨[], rfl, fun _ hc => by cases hc⟩

theorem Reads.trans (h : Reads text middle) (hrest : Reads middle rest) : Reads text rest := by
  obtain ⟨front, rfl, hfront⟩ := h
  obtain ⟨more, rfl, hmore⟩ := hrest
  refine ⟨front ++ more, by simp, fun c hc => ?_⟩
  exact (List.mem_append.mp hc).elim (hfront c) (hmore c)

theorem Reads.cons {c : Char} (hc : Text.isWhitespace c = false) (h : Reads text rest) :
    Reads (c :: text) rest := by
  obtain ⟨front, rfl, hfront⟩ := h
  exact ⟨c :: front, rfl, List.forall_mem_cons.mpr ⟨hc, hfront⟩⟩

/-- A digit is not whitespace. -/
theorem to_digit_word {radix digit : Nat} {c : Char} (h : toDigit radix c = some digit) :
    Text.isWhitespace c = false := by
  have hword : ∀ lo hi : Char, lo ≤ c ∧ c ≤ hi → 32 < lo.toNat → hi.toNat < 127 →
      Text.isWhitespace c = false := by
    intro lo hi ⟨hlo, hhi⟩ hfloor hceiling
    rw [Bool.eq_false_iff, ne_eq, Text.whitespace_iff]
    have hge : lo.toNat ≤ c.toNat := hlo
    have hle : c.toNat ≤ hi.toNat := hhi
    simp only [Text.whitespaceCodes, List.mem_cons, List.not_mem_nil, or_false]
    omega
  unfold toDigit at h
  split at h
  · next hrange => exact hword '0' '9' hrange (by decide) (by decide)
  · split at h
    · next hrange => exact hword 'a' 'f' hrange.2 (by decide) (by decide)
    · split at h
      · next hrange => exact hword 'A' 'F' hrange.2 (by decide) (by decide)
      · cases h

theorem read_digits_reads (radix : Nat) (text : Str) : Reads text (readDigits radix text).2 := by
  induction text with
  | nil => exact .refl []
  | cons c text ih =>
      rw [readDigits]
      split
      · next digit hdigit => exact ih.cons (to_digit_word hdigit)
      · exact .refl _

theorem read_number_reads {radix bound value : Nat} {maxDigits : Option Nat}
    {allowZeroPrefix : Bool}
    (h : readNumber radix maxDigits allowZeroPrefix bound text = some (value, rest)) :
    Reads text rest := by
  simp only [readNumber] at h
  split at h
  · cases h
  · split at h
    · cases h
    · split at h
      · cases h
      · split at h
        · cases h
          exact read_digits_reads radix text
        · cases h

theorem read_given_char_reads {target : Char} (htarget : Text.isWhitespace target = false)
    (h : readGivenChar target text = some rest) : Reads text rest := by
  cases text with
  | nil => cases h
  | cons c text =>
      rw [readGivenChar] at h
      split at h
      · next heq =>
          cases h
          exact (Reads.refl _).cons (heq ▸ htarget)
      · cases h

theorem read_separator_reads {separator : Char} (hseparator : Text.isWhitespace separator = false)
    {index : Nat} (h : readSeparator separator index text = some rest) : Reads text rest := by
  rw [readSeparator] at h
  split at h
  · exact read_given_char_reads hseparator h
  · cases h
    exact .refl _

theorem read_ipv4_from_reads {index count : Nat} {octets : List Nat}
    (h : readIpv4From index count text = some (octets, rest)) : Reads text rest := by
  induction count generalizing index text octets with
  | zero =>
      cases h
      exact .refl _
  | succ count ih =>
      simp only [readIpv4From, bind, Option.bind_eq_some_iff, pure, Option.some.injEq] at h
      obtain ⟨behind, hseparator, ⟨octet, after⟩, hnumber, ⟨others, last⟩, hfrom, heq⟩ := h
      cases heq
      exact ((read_separator_reads (by decide) hseparator).trans (read_number_reads hnumber)).trans
        (ih hfrom)

theorem read_groups_reads (index room : Nat) (text : Str) :
    Reads text (readGroups index room text).2.2 := by
  induction room generalizing index text with
  | zero => exact .refl _
  | succ room ih =>
      rw [readGroups]
      dsimp only
      split
      · next embedded a b c d rest hembedded =>
          split at hembedded
          · obtain ⟨behind, hseparator, haddr⟩ := Option.bind_eq_some_iff.mp hembedded
            exact (read_separator_reads (by decide) hseparator).trans (read_ipv4_from_reads haddr)
          · cases hembedded
      · split
        · next group rest hgroup =>
            obtain ⟨behind, hseparator, hnumber⟩ := Option.bind_eq_some_iff.mp hgroup
            exact ((read_separator_reads (by decide) hseparator).trans
              (read_number_reads hnumber)).trans
              (ih (index + 1) rest)
        · exact .refl _

theorem read_ipv6_addr_reads {segments : List Nat} (h : readIpv6Addr text = some (segments, rest)) :
    Reads text rest := by
  have hhead := read_groups_reads 0 8 text
  simp only [readIpv6Addr] at h
  split at h
  · cases h
    exact hhead
  · split at h
    · cases h
    · simp only [bind, Option.bind_eq_some_iff, pure, Option.some.injEq] at h
      obtain ⟨first, hfirst, second, hsecond, heq⟩ := h
      cases heq
      exact ((hhead.trans (read_given_char_reads (by decide) hfirst)).trans
        (read_given_char_reads (by decide) hsecond)).trans (read_groups_reads 0 _ second)

theorem read_port_reads {port : Nat} (h : readPort text = some (port, rest)) : Reads text rest := by
  simp only [readPort, bind, Option.bind_eq_some_iff] at h
  obtain ⟨behind, hcolon, hnumber⟩ := h
  exact (read_given_char_reads (by decide) hcolon).trans (read_number_reads hnumber)

theorem read_scope_id_reads (text : Str) : Reads text ((readScopeId text).getD (0, text)).2 := by
  cases h : readScopeId text with
  | none => exact .refl _
  | some result =>
      obtain ⟨scope, rest⟩ := result
      simp only [readScopeId, bind, Option.bind_eq_some_iff] at h
      obtain ⟨behind, hpercent, hnumber⟩ := h
      exact (read_given_char_reads (by decide) hpercent).trans (read_number_reads hnumber)

theorem read_socket_addr_v4_reads {addr : SocketAddr}
    (h : readSocketAddrV4 text = some (addr, rest)) :
    Reads text rest := by
  simp only [readSocketAddrV4, bind, Option.bind_eq_some_iff, pure, Option.some.injEq] at h
  obtain ⟨⟨octets, behind⟩, haddr, ⟨port, last⟩, hport, heq⟩ := h
  cases heq
  exact (read_ipv4_from_reads haddr).trans (read_port_reads hport)

theorem read_socket_addr_v6_reads {addr : SocketAddr}
    (h : readSocketAddrV6 text = some (addr, rest)) :
    Reads text rest := by
  simp only [readSocketAddrV6, bind, Option.bind_eq_some_iff, pure, Option.some.injEq] at h
  obtain ⟨behind, hopen, ⟨segments, after⟩, haddr, last, hclose, ⟨port, final⟩, hport, heq⟩ := h
  cases heq
  exact ((((read_given_char_reads (by decide) hopen).trans (read_ipv6_addr_reads haddr)).trans
    (read_scope_id_reads after)).trans (read_given_char_reads (by decide) hclose)).trans
      (read_port_reads hport)

/-- The text of an address is a word. -/
theorem parse_word {addr : SocketAddr} (h : parse text = some addr) :
    text ≠ [] ∧ ∀ c ∈ text, Text.isWhitespace c = false := by
  have hne : text ≠ [] := by
    rintro rfl
    cases h
  refine ⟨hne, fun c hc => ?_⟩
  unfold parse at h
  split at h
  · next addr' hread =>
      obtain ⟨front, htext, hfront⟩ : Reads text [] := by
        cases hv4 : readSocketAddrV4 text with
        | some result =>
            rw [hv4] at hread
            exact read_socket_addr_v4_reads (hv4.trans hread)
        | none =>
            rw [hv4] at hread
            exact read_socket_addr_v6_reads hread
      rw [htext, List.append_nil] at hc
      exact hfront c hc
  · cases h

end SocketAddr

end QuoteStreamer
