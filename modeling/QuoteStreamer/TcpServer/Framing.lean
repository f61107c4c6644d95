import QuoteStreamer.TcpServer.Reader
import QuoteStreamer.Utf8

/-!
# Commands and the timing of their bytes

The loop dispatches what is left of each line when the bytes that arrived before the last timeout
inside it are dropped. So it dispatches the lines of the stream exactly when nothing but whitespace
is dropped, as long as there is still a command to come and no malformed `STREAM` has ended the
loop. One equality of two sequences can still come about by chance, when a later line repeats what
was lost; that takes a malformed `STREAM` and another one behind it.
-/

namespace QuoteStreamer

open SplitAfter BufReader

namespace Item

/-- The newline ends a line. -/
def isNewline : Item → Bool
  | .byte b => b == 10
  | .tick _ => false

def isTick : Item → Bool
  | .byte _ => false
  | .tick _ => true

/-- The bytes among the items. -/
def bytes (items : List Item) : List UInt8 :=
  items.filterMap fun
    | .byte b => some b
    | .tick _ => none

/-- The bytes behind the last timeout. -/
def kept : List Item → List UInt8
  | [] => []
  | .tick _ :: rest => kept rest
  | .byte b :: rest => if rest.any isTick then kept rest else b :: kept rest

/-- The bytes in front of the last timeout. -/
def dropped : List Item → List UInt8
  | [] => []
  | .tick _ :: rest => dropped rest
  | .byte b :: rest => if rest.any isTick then b :: dropped rest else []

/-- The lines of the stream, with the timeouts inside them. -/
def lines (items : List Item) : List (List Item) :=
  splitAfter isNewline items

/-- No timeout in the line comes after the keep-alive time. -/
def quick (line : List Item) : Bool :=
  line.all fun
    | .byte _ => true
    | .tick elapsedSecs => elapsedSecs ≤ Defs.clientKeepAliveSec

theorem quick_bytes (bs : List UInt8) : quick (bs.map .byte) = true := by
  simp [quick]

theorem quick_append (front back : List Item) :
    quick (front ++ back) = (quick front && quick back) :=
  List.all_append

theorem kept_bytes (bs : List UInt8) : kept (bs.map .byte) = bs := by
  induction bs with
  | nil => rfl
  | cons b bs ih =>
      have hno : (bs.map Item.byte).any isTick = false := by simp [isTick]
      rw [List.map_cons, kept, hno, ih]
      rfl

theorem kept_tick (front : List Item) (elapsedSecs : Nat) (rest : List Item) :
    kept (front ++ .tick elapsedSecs :: rest) = kept rest := by
  induction front with
  | nil => rfl
  | cons item front ih =>
      cases item with
      | tick _ => exact ih
      | byte b =>
          have hyes : (front ++ .tick elapsedSecs :: rest).any isTick = true := by simp [isTick]
          rw [List.cons_append, kept, hyes]
          exact ih

/-- Nothing of a line is lost beside what is dropped. -/
theorem dropped_append_kept (items : List Item) : dropped items ++ kept items = bytes items := by
  have hnone : ∀ items : List Item, items.any isTick = false → dropped items = [] := by
    intro items hno
    cases items with
    | nil => rfl
    | cons item rest =>
        cases item with
        | tick _ => simp [isTick] at hno
        | byte b =>
            have hrest : rest.any isTick = false := by simpa [isTick] using hno
            rw [dropped, hrest]
            rfl
  induction items with
  | nil => rfl
  | cons item rest ih =>
      cases item with
      | tick _ => exact ih
      | byte b =>
          rw [dropped, kept]
          cases hany : rest.any isTick with
          | true => exact congrArg (b :: ·) ih
          | false =>
              rw [hnone rest hany] at ih
              exact congrArg (b :: ·) ih

end Item

/-- The commands among the given lines, up to one that is not UTF-8 or whose handler returns
`Err`. -/
def dispatchLines (fails : List Str → Bool) (history : List Str) : List (List UInt8) → List Str
  | [] => []
  | bytes :: rest =>
      match Text.decode bytes with
      | some line =>
          if Text.trim line = [] then dispatchLines fails history rest
          else if ReturnsErr fails history (Text.trim line) then [Text.trim line]
          else Text.trim line :: dispatchLines fails (history ++ [Text.trim line]) rest
      | none => []

section Loop

variable {fails : List Str → Bool} {r reader : BufReader}

theorem handle_connection_timeout {elapsedSecs : Nat}
    (hline : r.readLine = (.timedOut elapsedSecs, reader))
    (hquick : elapsedSecs ≤ Defs.clientKeepAliveSec) (history : List Str) :
    handleConnection fails history r = handleConnection fails history reader := by
  rw [handleConnection]
  split <;> rename_i heq <;> rw [hline] at heq <;> cases heq
  exact if_neg (by omega)

theorem handle_connection_late {elapsedSecs : Nat}
    (hline : r.readLine = (.timedOut elapsedSecs, reader))
    (hlate : ¬ elapsedSecs ≤ Defs.clientKeepAliveSec) (history : List Str) :
    handleConnection fails history r = [] := by
  rw [handleConnection]
  split <;> rename_i heq <;> rw [hline] at heq <;> cases heq
  exact if_pos (by omega)

theorem handle_connection_end (hline : r.readLine = (.ofBytes [], reader)) (history : List Str) :
    handleConnection fails history r = [] := by
  rw [handleConnection]
  split <;> rename_i heq <;> rw [hline] at heq <;> first | rfl | cases heq

theorem handle_connection_line {bytes : List UInt8} (hline : r.readLine = (.ofBytes bytes, reader))
    {rest : List (List UInt8)} (hrest : ∀ history, handleConnection fails history reader =
      dispatchLines fails history rest) (hne : bytes ≠ []) (history : List Str) :
    handleConnection fails history r = dispatchLines fails history (bytes :: rest) := by
  rw [dispatchLines]
  cases hdecode : Text.decode bytes with
  | none =>
      rw [LineResult.ofBytes, hdecode] at hline
      rw [handleConnection]
      split <;> rename_i heq <;> rw [hline] at heq <;> cases heq
  | some line =>
      have hbytes := Text.encode_of_decode hdecode
      rw [LineResult.ofBytes, hdecode] at hline
      rw [handleConnection]
      split <;> rename_i heq <;> rw [hline] at heq <;> cases heq
      · exact absurd hbytes hne
      · simp only [hrest]

section Tick

variable {front : List UInt8} {elapsedSecs : Nat} {rest : List Item}

/-- A timeout does not end a line. -/
theorem tick_clean (elapsedSecs : Nat)
    (hclean : ∀ item ∈ front.map Item.byte, item.isNewline = false) :
    ∀ item ∈ front.map Item.byte ++ [.tick elapsedSecs], item.isNewline = false := by
  intro item hitem
  rcases List.mem_append.mp hitem with hitem | hitem
  · exact hclean item hitem
  · rw [List.mem_singleton.mp hitem]
    rfl

theorem quick_tick : Item.quick (front.map Item.byte ++ [.tick elapsedSecs]) =
    decide (elapsedSecs ≤ Defs.clientKeepAliveSec) := by
  rw [Item.quick_append, Item.quick_bytes]
  simp [Item.quick]

/-- What stands in front of a timeout belongs to the next line, of which it is not kept: the same
is dispatched without it. -/
theorem dispatch_after_quick_tick {history : List Str}
    (hclean : ∀ item ∈ front.map Item.byte, item.isNewline = false)
    (hquick : elapsedSecs ≤ Defs.clientKeepAliveSec) :
    dispatchLines fails history (((Item.lines rest).takeWhile Item.quick).map Item.kept) =
      dispatchLines fails history (((Item.lines
        ((front.map .byte ++ [.tick elapsedSecs]) ++ rest)).takeWhile Item.quick).map
          Item.kept) := by
  have htick := tick_clean elapsedSecs hclean
  cases hlines : Item.lines rest with
  | nil =>
      have hnil : rest = [] := split_after_eq_nil.mp hlines
      rw [hnil, List.append_nil, Item.lines, split_after_clean htick (by simp),
        List.takeWhile_cons_of_pos (by rw [quick_tick]; simpa using hquick),
        List.map_cons, Item.kept_tick]
      rfl
  | cons line lines =>
      have hsame : Item.quick ((front.map Item.byte ++ [.tick elapsedSecs]) ++ line) =
          Item.quick line := by
        rw [Item.quick_append, quick_tick]
        simp [hquick]
      rw [Item.lines, split_after_prepend htick hlines, List.takeWhile_cons,
        List.takeWhile_cons, hsame]
      cases Item.quick line with
      | false => rfl
      | true =>
          rw [if_pos rfl, if_pos rfl, List.map_cons, List.map_cons, List.append_assoc]
          exact congrArg (fun bytes => dispatchLines fails history (bytes :: _))
            (Item.kept_tick _ _ _).symm

/-- A timeout that comes too late is in the first line, so no line is dispatched. -/
theorem quick_lines_after_late_tick
    (hclean : ∀ item ∈ front.map Item.byte, item.isNewline = false)
    (hlate : ¬ elapsedSecs ≤ Defs.clientKeepAliveSec) :
    (Item.lines ((front.map .byte ++ [.tick elapsedSecs]) ++ rest)).takeWhile Item.quick = [] := by
  have htick := tick_clean elapsedSecs hclean
  cases hlines : Item.lines rest with
  | nil =>
      have hnil : rest = [] := split_after_eq_nil.mp hlines
      rw [hnil, List.append_nil, Item.lines, split_after_clean htick (by simp),
        List.takeWhile_cons_of_neg (by rw [quick_tick]; simpa using hlate)]
  | cons line lines =>
      have hslow : Item.quick ((front.map Item.byte ++ [.tick elapsedSecs]) ++ line) = false := by
        rw [Item.quick_append, quick_tick]
        simp [hlate]
      rw [Item.lines, split_after_prepend htick hlines,
        List.takeWhile_cons_of_neg (by rw [hslow]; nofun)]

end Tick

/-- The loop dispatches what is kept of the lines, up to one in which a timeout comes too late. -/
theorem handle_connection_items (fails : List Str → Bool) (history : List Str) (r : BufReader) :
    handleConnection fails history r =
      dispatchLines fails history (((Item.lines r.items).takeWhile Item.quick).map Item.kept) := by
  -- on the number of items left, of which a line and a timeout each take at least one
  induction hlength : r.items.length using Nat.strongRecOn generalizing r history with
  | ind n ih =>
      have hsplit : ∀ {front : List UInt8}, (∀ b ∈ front, b ≠ 10) →
          ∀ item ∈ front.map Item.byte, item.isNewline = false := by
        intro front hfront item hitem
        obtain ⟨b, hb, rfl⟩ := List.mem_map.mp hitem
        simpa [Item.isNewline] using hfront b hb
      cases r.line_taken with
      | newline front reader hfront hline hitems =>
          have hrest : ∀ history, handleConnection fails history reader =
            dispatchLines fails history
              (((Item.lines reader.items).takeWhile Item.quick).map Item.kept) := by
            intro history
            refine ih _ ?_ history reader rfl
            rw [← hlength, hitems]
            simp only [List.length_append, List.length_cons]
            omega
          have hbytes : front.map Item.byte ++ [.byte 10] = (front ++ [10]).map Item.byte := by simp
          rw [hitems, Item.lines, split_after_append (hsplit hfront) rfl, hbytes,
            List.takeWhile_cons_of_pos (Item.quick_bytes _), List.map_cons, Item.kept_bytes]
          exact handle_connection_line hline hrest (by simp) history
      | endOfStream front reader hfront hline hitems hrest =>
          by_cases hne : front = []
          · subst hne
            rw [hitems]
            exact handle_connection_end hline history
          · have hclean : Item.lines (front.map .byte) = [front.map .byte] :=
              split_after_clean (hsplit hfront) (by simpa using hne)
            rw [hitems, hclean, List.takeWhile_cons_of_pos (Item.quick_bytes _), List.map_cons,
              Item.kept_bytes]
            refine handle_connection_line hline (fun history => ?_) hne history
            cases reader.line_taken with
            | newline _ _ _ _ hnot | timedOut _ _ _ _ _ hnot => simp [hrest] at hnot
            | endOfStream more _ _ hend hmore _ =>
                rw [hrest] at hmore
                obtain rfl : more = [] := by simpa using hmore.symm
                exact handle_connection_end hend history
      | timedOut front reader elapsedSecs hfront hline hitems =>
          have happend : r.items = (front.map .byte ++ [.tick elapsedSecs]) ++ reader.items := by
            rw [hitems]
            simp
          have hshort : reader.items.length < n := by
            rw [← hlength, hitems]
            simp only [List.length_append, List.length_cons]
            omega
          by_cases hquick : elapsedSecs ≤ Defs.clientKeepAliveSec
          · rw [handle_connection_timeout hline hquick history, ih _ hshort history reader rfl,
              happend, dispatch_after_quick_tick (hsplit hfront) hquick]
          · rw [handle_connection_late hline hquick history, happend,
              quick_lines_after_late_tick (hsplit hfront) hquick]
            rfl

/-- If no timeout comes too late, the loop dispatches what is kept of all lines. -/
theorem handle_connection_eq (fails : List Str → Bool) (history : List Str) (r : BufReader)
    (hquick : ∀ elapsedSecs, .tick elapsedSecs ∈ r.items → elapsedSecs ≤ Defs.clientKeepAliveSec) :
    handleConnection fails history r =
      dispatchLines fails history ((Item.lines r.items).map Item.kept) := by
  have hall : (Item.lines r.items).takeWhile Item.quick = Item.lines r.items := by
    refine List.takeWhile_eq_self_iff.mpr fun line hline => ?_
    refine List.all_eq_true.mpr fun item hitem => ?_
    cases item with
    | byte b => rfl
    | tick elapsedSecs =>
        have hmem : .tick elapsedSecs ∈ r.items := mem_of_mem_part hline hitem
        simpa using hquick elapsedSecs hmem
  rw [handle_connection_items, hall]

/-- The loop goes the way of the handler: it dispatches where the handler does, goes on where the
handler is back at `read_line` or sleeps, and ends where the handler returns or disconnects. -/
theorem handle_connection_received (h : Handler) {result : LineResult}
    (hline : r.readLine = (result, reader)) (history : List Str) :
    let next := h.received result.read (h.lastPing + 1000 * result.elapsedSecs)
    (∃ msg, msg ≠ [] ∧ next = ({ h with point := .readLine } : Handler).dispatch msg ∧
      (next.Returned → handleConnection fails history r = [msg]) ∧
      handleConnection fails history r = if ReturnsErr fails history msg then [msg]
        else msg :: handleConnection fails (history ++ [msg]) reader) ∨
    ((next.point = .readLine ∨ next.point = .sleep) ∧
      handleConnection fails history r = handleConnection fails history reader) ∨
    ((next.Returned ∨ ∃ id cause, next.point = .removeClient id cause) ∧
      handleConnection fails history r = []) := by
  have hdisconnect : ∀ (cause : RemoveCause) (result : Except TcpServerError Unit),
      (h.disconnect cause result).Returned ∨
        ∃ id cause', (h.disconnect cause result).point = .removeClient id cause' := by
    intro cause result
    unfold Handler.disconnect
    split
    · exact .inr ⟨_, _, rfl⟩
    · exact .inl ⟨_, rfl⟩
  rw [handleConnection]
  split <;> rename_i heq <;> rw [hline] at heq <;> cases heq
  · exact .inr (.inr ⟨.inl ⟨_, rfl⟩, rfl⟩)
  · rename_i c line
    by_cases hblank : Text.trim (c :: line) = []
    · refine .inr (.inl ⟨.inl ?_, if_pos hblank⟩)
      simp [LineResult.read, Handler.received, hblank]
    · have hnext : h.received (LineResult.ok (c :: line)).read
          (h.lastPing + 1000 * (LineResult.ok (c :: line)).elapsedSecs) =
            ({ h with point := .readLine } : Handler).dispatch (Text.trim (c :: line)) := by
        simp [LineResult.read, LineResult.elapsedSecs, Handler.received, hblank]
      refine .inl ⟨Text.trim (c :: line), hblank, hnext, fun hreturned => ?_, if_neg hblank⟩
      rw [hnext] at hreturned
      rw [if_neg hblank, if_pos (.inl (Handler.dispatch_returned_iff.mp hreturned))]
  · rename_i elapsedSecs
    have helapsed : (h.lastPing + 1000 * elapsedSecs - h.lastPing) / 1000 = elapsedSecs := by omega
    by_cases hlate : Defs.clientKeepAliveSec < elapsedSecs
    · refine .inr (.inr ⟨?_, if_pos hlate⟩)
      simp only [LineResult.read, LineResult.elapsedSecs, Handler.received, helapsed, if_pos hlate]
      exact hdisconnect _ _
    · refine .inr (.inl ⟨.inr ?_, if_neg hlate⟩)
      simp only [LineResult.read, LineResult.elapsedSecs, Handler.received, helapsed, if_neg hlate]
      rfl
  · exact .inr (.inr ⟨hdisconnect _ _, rfl⟩)

end Loop

/-! ## The commands of a text -/

/-- The trimmed lines of a text that are not blank. -/
def commands (text : Str) : List Str :=
  ((text.splitOnP (· == '\n')).map Text.trim).filter (· ≠ [])

/-- The commands up to the first one whose handler returns `Err`. -/
def upToFailure (fails : List Str → Bool) (history : List Str) : List Str → List Str
  | [] => []
  | msg :: rest =>
      if ReturnsErr fails history msg then [msg]
      else msg :: upToFailure fails (history ++ [msg]) rest

/-- The commands among some lines of text. -/
def nonBlank (lines : List Str) : List Str :=
  (lines.map Text.trim).filter (· ≠ [])

/-- The bytes are whitespace. -/
def BlankBytes (bytes : List UInt8) : Prop :=
  ∃ text, Text.decode bytes = some text ∧ Text.Blank text

/-- The line is a malformed `STREAM`, behind which the loop does not go. -/
def Item.Rejected (line : List Item) : Prop :=
  ∃ text, Text.decode (Item.bytes line) = some text ∧ Handler.Malformed (Text.trim text)

/-- As long as there is still a command to come, no timeout drops anything but whitespace. What
follows a malformed `STREAM` does not matter. -/
def Whole : List (List Item) → Prop
  | [] => True
  | line :: rest =>
      ((∃ other ∈ line :: rest, ¬ BlankBytes (Item.bytes other)) → BlankBytes (Item.dropped line)) ∧
        (Item.Rejected line ∨ Whole rest)

/-- No command behind a malformed `STREAM` ends with it. -/
def Unrepeated (msgs : List Str) : Prop :=
  msgs.Pairwise fun first later => Handler.Malformed first → ¬ first <:+ later

/-- The stream up to the end of its `n`-th line. -/
def Item.upTo (n : Nat) (items : List Item) : List Item :=
  ((Item.lines items).take n).flatten

section Lines

variable {fails : List Str → Bool} {history : List Str} {text line p q t : Str}

theorem non_blank_cons_of_blank (ht : Text.Blank t) (lines : List Str) :
    nonBlank (t :: lines) = nonBlank lines := by
  rw [nonBlank, List.map_cons, Text.trim_eq_nil_iff.mpr ht]
  rfl

theorem non_blank_cons (ht : ¬ Text.Blank t) (lines : List Str) :
    nonBlank (t :: lines) = Text.trim t :: nonBlank lines := by
  have hne : Text.trim t ≠ [] := fun h => ht (Text.trim_eq_nil_iff.mp h)
  rw [nonBlank, List.map_cons, List.filter_cons_of_pos (by simpa using hne)]
  rfl

theorem non_blank_eq_nil {lines : List Str} : nonBlank lines = [] ↔ ∀ t ∈ lines, Text.Blank t := by
  induction lines with
  | nil => simp [nonBlank]
  | cons t lines ih =>
      by_cases ht : Text.Blank t
      · rw [non_blank_cons_of_blank ht, ih]
        simp [ht]
      · rw [non_blank_cons ht]
        simp [ht]

theorem blank_bytes_encode : BlankBytes (Text.encode t) ↔ Text.Blank t := by
  constructor
  · rintro ⟨text, hdecode, hblank⟩
    rw [Text.decode_encode] at hdecode
    obtain rfl := Option.some.inj hdecode
    exact hblank
  · exact fun hblank => ⟨t, Text.decode_encode t, hblank⟩

theorem dispatch_lines_undecoded {bytes : List UInt8} (hnone : Text.decode bytes = none)
    (rest : List (List UInt8)) : dispatchLines fails history (bytes :: rest) = [] := by
  rw [dispatchLines, hnone]

theorem dispatch_lines_blank {bytes : List UInt8} (hsome : Text.decode bytes = some t)
    (hblank : Text.Blank t) (rest : List (List UInt8)) :
    dispatchLines fails history (bytes :: rest) = dispatchLines fails history rest := by
  rw [dispatchLines, hsome]
  exact if_pos (Text.trim_eq_nil_iff.mpr hblank)

theorem dispatch_lines_command {bytes : List UInt8} (hsome : Text.decode bytes = some t)
    (hword : ¬ Text.Blank t) (rest : List (List UInt8)) :
    dispatchLines fails history (bytes :: rest) =
      if ReturnsErr fails history (Text.trim t) then [Text.trim t]
      else Text.trim t :: dispatchLines fails (history ++ [Text.trim t]) rest := by
  rw [dispatchLines, hsome]
  exact if_neg fun h => hword (Text.trim_eq_nil_iff.mp h)

/-- A newline ends the first line of the bytes where it ends the first line of the text. -/
theorem first_line_eq {front rest : List UInt8} (hfront : ∀ b ∈ front, b ≠ 10) (hp : '\n' ∉ p)
    (h : front ++ 10 :: rest = Text.encode (p ++ '\n' :: q)) :
    front = Text.encode p ∧ rest = Text.encode q := by
  have hencode : Text.encode (p ++ '\n' :: q) = Text.encode p ++ 10 :: Text.encode q := by
    rw [Text.encode_append, Text.encode_cons]
    rfl
  have hclean : ∀ b ∈ Text.encode p, (b == 10) = false := by
    intro b hb
    have hne : b ≠ 10 := fun hten => hp (Text.newline_mem_iff.mp (hten ▸ hb))
    simpa using hne
  have hparts := congrArg (splitAfter (· == 10)) (h.trans hencode)
  rw [split_after_append (by simpa using hfront) (by simp) rest,
    split_after_append hclean (by simp) (Text.encode q)] at hparts
  obtain rfl := List.append_cancel_right (List.cons.inj hparts).1
  have hrest := List.append_cancel_left (h.trans hencode)
  exact ⟨rfl, (List.cons.inj hrest).2⟩

/-- Items that end no line hold no newline byte. -/
theorem clean_bytes {items : List Item} (hclean : ∀ item ∈ items, item.isNewline = false) :
    ∀ b ∈ Item.bytes items, b ≠ 10 := by
  rintro b hb rfl
  obtain ⟨item, hitem, hbyte⟩ := List.mem_filterMap.mp hb
  cases item with
  | tick _ => cases hbyte
  | byte b =>
      cases hbyte
      have hfalse := hclean _ hitem
      cases hfalse

/-- The lines of a stream are the lines of its text, blank ones aside. -/
theorem lines_of_text (items : List Item) : ∀ text : Str, Item.bytes items = Text.encode text →
    ∃ lines : List Str, (Item.lines items).map Item.bytes = lines.map Text.encode ∧
      nonBlank lines = commands text := by
  -- on the lines, of which `part` is the first up to its newline
  induction items using parts_induction Item.isNewline with
  | clean items hclean =>
      intro text htext
      have hno : ∀ c ∈ text, (c == '\n') = false := by
        intro c hc
        have hne : c ≠ '\n' := by
          rintro rfl
          have hmem := Text.newline_mem_iff.mpr hc
          rw [← htext] at hmem
          exact clean_bytes hclean _ hmem rfl
        simpa using hne
      have hcommands : commands text = nonBlank [text] := by
        rw [commands, List.splitOnP_eq_singleton hno, nonBlank]
      by_cases hne : items = []
      · subst hne
        obtain rfl : text = [] := Text.encode_injective htext.symm
        exact ⟨[], rfl, hcommands.symm⟩
      · exact ⟨[text], by rw [Item.lines, split_after_clean hclean hne]; simp [htext],
          hcommands.symm⟩
  | cut part d rest hpart hd ih =>
      intro text htext
      obtain rfl : d = .byte 10 := by
        cases d with
        | tick _ => cases hd
        | byte b => rw [show b = 10 by simpa [Item.isNewline] using hd]
      have hbytes : Item.bytes (part ++ .byte 10 :: rest) = Item.bytes part ++
          10 :: Item.bytes rest := by
        simp [Item.bytes]
      rw [hbytes] at htext
      rcases cut_or_clean (· == '\n') text with hclean | ⟨p, c, q, rfl, hc, hp⟩
      · have hmem : '\n' ∈ text := Text.newline_mem_iff.mp (by rw [← htext]; simp)
        have hfalse := hclean _ hmem
        simp at hfalse
      · obtain rfl : c = '\n' := by simpa using hc
        have hnotin : '\n' ∉ p := fun hmem => by simpa using hp _ hmem
        obtain ⟨hpart', hrest⟩ := first_line_eq (clean_bytes hpart) hnotin htext
        obtain ⟨lines, hlines, hcommands⟩ := ih q hrest
        refine ⟨(p ++ ['\n']) :: lines, ?_, ?_⟩
        · rw [Item.lines, split_after_append hpart rfl, List.map_cons, List.map_cons,
            show (splitAfter Item.isNewline rest).map Item.bytes = _ from hlines,
            Text.encode_append, ← hpart']
          simp [Item.bytes, Text.encode, String.utf8EncodeChar]
        · have htrim : Text.trim (p ++ ['\n']) = Text.trim p := Text.trim_append_right (by decide)
          have hrest' : nonBlank lines = nonBlank (q.splitOnP (· == '\n')) := hcommands
          have hsplit : commands (p ++ '\n' :: q) = nonBlank (p :: q.splitOnP (· == '\n')) := by
            rw [commands, List.splitOnP_append_cons_of_forall_mem hp '\n' rfl, nonBlank]
          rw [hsplit]
          by_cases hblank : Text.Blank p
          · rw [non_blank_cons_of_blank hblank, ← hrest', non_blank_cons_of_blank]
            rwa [← Text.trim_eq_nil_iff, htrim, Text.trim_eq_nil_iff]
          · rw [non_blank_cons hblank, ← hrest', non_blank_cons, htrim]
            rwa [← Text.trim_eq_nil_iff, htrim, Text.trim_eq_nil_iff]

end Lines

/-! ## What a timeout inside a line does -/

section Timing

variable {fails : List Str → Bool} {history : List Str} {items : List Item} {t : Str}

/-- A line is cut between two characters, or neither side of the cut is text. -/
theorem kept_cases (htext : Item.bytes items = Text.encode t) :
    (Text.decode (Item.kept items) = none ∧ ¬ BlankBytes (Item.dropped items)) ∨
      ∃ p q, Text.decode (Item.dropped items) = some p ∧ Text.decode (Item.kept items) = some q ∧
        t = p ++ q := by
  have hcut := (Item.dropped_append_kept items).trans htext
  cases hkept : Text.decode (Item.kept items) with
  | some q =>
      obtain ⟨p, hdropped, ht⟩ := Text.decode_front hcut hkept
      exact .inr ⟨p, q, hdropped, rfl, ht⟩
  | none =>
      refine .inl ⟨rfl, ?_⟩
      rintro ⟨p, hdropped, -⟩
      obtain ⟨q, hq, -⟩ := Text.decode_back hcut hdropped
      rw [hkept] at hq
      cases hq

/-- A blank line is no command at all. -/
theorem malformed_not_blank (h : Handler.Malformed (Text.trim t)) : ¬ Text.Blank t := by
  intro hblank
  rw [Text.trim_eq_nil_iff.mpr hblank] at h
  exact absurd h (by decide)

theorem rejected_iff (htext : Item.bytes items = Text.encode t) :
    Item.Rejected items ↔ Handler.Malformed (Text.trim t) := by
  rw [Item.Rejected, htext, Text.decode_encode]
  constructor
  · rintro ⟨_, ⟨⟩, hmalformed⟩
    exact hmalformed
  · exact fun hmalformed => ⟨t, rfl, hmalformed⟩

theorem Whole.of_blank {lines : List (List Item)}
    (h : ∀ line ∈ lines, BlankBytes (Item.bytes line)) : Whole lines := by
  induction lines with
  | nil => trivial
  | cons line lines ih =>
      refine ⟨?_, .inr (ih fun other hother => h other (List.mem_cons_of_mem line hother))⟩
      rintro ⟨other, hother, hnot⟩
      exact absurd (h other hother) hnot

theorem Whole.rest {lines : List (List Item)} (h : Whole (items :: lines))
    (htext : Item.bytes items = Text.encode t) (hgood : ¬ Handler.Malformed (Text.trim t)) :
    Whole lines :=
  h.2.resolve_left (mt (rejected_iff htext).mp hgood)

theorem Whole.take {lines : List (List Item)} (h : Whole lines) (n : Nat) :
    Whole (lines.take n) := by
  induction lines generalizing n with
  | nil => rwa [List.take_nil]
  | cons line lines ih =>
      cases n with
      | zero => trivial
      | succ n =>
          refine ⟨?_, h.2.imp_right fun hrest => ih hrest n⟩
          rintro ⟨other, hother, hnot⟩
          exact h.1 ⟨other, List.mem_of_mem_take (i := n + 1) hother, hnot⟩

theorem blank_lines_iff {lines : List (List Item)} {texts : List Str}
    (htexts : lines.map Item.bytes = texts.map Text.encode) :
    (∀ line ∈ lines, BlankBytes (Item.bytes line)) ↔ ∀ t ∈ texts, Text.Blank t := by
  have hmap : (∀ bytes ∈ lines.map Item.bytes, BlankBytes bytes) ↔
      ∀ bytes ∈ texts.map Text.encode, BlankBytes bytes := by rw [htexts]
  simpa only [List.forall_mem_map, blank_bytes_encode] using hmap

/-- Blank lines give no command, whatever is dropped of them. -/
theorem dispatch_blank {lines : List (List Item)} {texts : List Str}
    (htexts : lines.map Item.bytes = texts.map Text.encode) (hblank : ∀ t ∈ texts, Text.Blank t) :
    dispatchLines fails history (lines.map Item.kept) = [] := by
  induction lines generalizing texts with
  | nil => rfl
  | cons line lines ih =>
      cases texts with
      | nil => cases htexts
      | cons t texts =>
          obtain ⟨htext, hrest⟩ := List.cons.inj htexts
          rcases kept_cases htext with ⟨hnone, -⟩ | ⟨p, q, -, hq, rfl⟩
          · exact dispatch_lines_undecoded hnone _
          · have hqBlank : Text.Blank q := fun c hc =>
              hblank _ List.mem_cons_self c (List.mem_append_right p hc)
            rw [List.map_cons, dispatch_lines_blank hq hqBlank]
            exact ih hrest fun t ht => hblank t (List.mem_cons_of_mem _ ht)

/-- What is dispatched when nothing but whitespace is dropped. -/
theorem dispatch_of_whole {lines : List (List Item)} {texts : List Str}
    (htexts : lines.map Item.bytes = texts.map Text.encode) (hwhole : Whole lines) :
    dispatchLines fails history (lines.map Item.kept) =
      upToFailure fails history (nonBlank texts) := by
  induction lines generalizing texts history with
  | nil =>
      obtain rfl : texts = [] := by simpa using htexts.symm
      rfl
  | cons line lines ih =>
      by_cases hblank : ∀ t ∈ texts, Text.Blank t
      · rw [dispatch_blank htexts hblank, non_blank_eq_nil.mpr hblank]
        rfl
      · have hcommand : ∃ other ∈ line :: lines, ¬ BlankBytes (Item.bytes other) := by
          by_contra hnone
          push Not at hnone
          exact hblank ((blank_lines_iff htexts).mp hnone)
        cases texts with
        | nil => cases htexts
        | cons t texts =>
            obtain ⟨htext, htail⟩ := List.cons.inj htexts
            rcases kept_cases htext with ⟨-, hnot⟩ | ⟨p, q, hp, hq, rfl⟩
            · exact absurd (hwhole.1 hcommand) hnot
            · obtain ⟨p', hp', hpBlank⟩ := hwhole.1 hcommand
              obtain rfl := Option.some.inj (hp.symm.trans hp')
              have htrim := Text.trim_append (q := q) hpBlank
              have hblanks : Text.Blank (p ++ q) ↔ Text.Blank q := by
                rw [← Text.trim_eq_nil_iff, htrim, Text.trim_eq_nil_iff]
              rw [List.map_cons]
              by_cases hqBlank : Text.Blank q
              · have hgood := mt malformed_not_blank (not_not_intro (hblanks.mpr hqBlank))
                rw [dispatch_lines_blank hq hqBlank, non_blank_cons_of_blank (hblanks.mpr hqBlank),
                  ih htail (hwhole.rest htext hgood)]
              · rw [dispatch_lines_command hq hqBlank, non_blank_cons (mt hblanks.mp hqBlank),
                  htrim, upToFailure]
                split
                · rfl
                · next hgoes =>
                    have hgood : ¬ Handler.Malformed (Text.trim (p ++ q)) := fun hmalformed =>
                      hgoes (.inl (htrim ▸ hmalformed))
                    rw [ih htail (hwhole.rest htext hgood)]

/-- No operation of a handler fails. -/
def neverFails (_ : List Str) : Bool :=
  false

theorem returns_err_never {msg : Str} :
    ReturnsErr neverFails history msg ↔ Handler.Malformed msg := by
  simp [ReturnsErr, neverFails]

theorem head_up_to_failure (fails : List Str → Bool) (history : List Str) (msg : Str)
    (rest : List Str) :
    (upToFailure fails history (msg :: rest)).head? = some msg := by
  rw [upToFailure]
  split <;> rfl

/-- Where the command of the first line is dispatched first, nothing but whitespace was dropped from
that line, and the rest is dispatched from the other lines, unless the loop has ended. -/
theorem first_dispatched {q : Str} {bytes : List UInt8} {rest : List (List UInt8)}
    {msgs : List Str} (hq : Text.decode bytes = some q) (hqBlank : ¬ Text.Blank q)
    (h : dispatchLines fails history (bytes :: rest) =
      upToFailure fails history (Text.trim t :: msgs)) :
    Text.trim q = Text.trim t ∧ (ReturnsErr fails history (Text.trim t) ∨
      dispatchLines fails (history ++ [Text.trim t]) rest =
        upToFailure fails (history ++ [Text.trim t]) msgs) := by
  rw [dispatch_lines_command hq hqBlank] at h
  have htrim : Text.trim q = Text.trim t := by
    have hhead := head_up_to_failure fails history (Text.trim t) msgs
    rw [← h] at hhead
    split at hhead <;> exact Option.some.inj hhead
  refine ⟨htrim, or_iff_not_imp_left.mpr fun hgoes => ?_⟩
  rw [htrim, upToFailure, if_neg hgoes, if_neg hgoes] at h
  exact (List.cons.inj h).2

/-- If after any number of lines every command has been dispatched, nothing but whitespace was
dropped. -/
theorem whole_of_take {lines : List (List Item)} {texts : List Str}
    (htexts : lines.map Item.bytes = texts.map Text.encode)
    (h : ∀ n, dispatchLines neverFails history ((lines.take n).map Item.kept) =
      upToFailure neverFails history (nonBlank (texts.take n))) : Whole lines := by
  induction lines generalizing texts history with
  | nil => trivial
  | cons line lines ih =>
      by_cases hblank : ∀ t ∈ texts, Text.Blank t
      · exact .of_blank ((blank_lines_iff htexts).mpr hblank)
      cases texts with
      | nil => cases htexts
      | cons t texts =>
          obtain ⟨htext, htail⟩ := List.cons.inj htexts
          have hfirst := h 1
          have hmore := fun n => h (n + 1)
          simp only [List.take_succ_cons, List.take_zero, List.map_cons] at hfirst hmore
          rcases kept_cases htext with ⟨hnone, -⟩ | ⟨p, q, hp, hq, rfl⟩
          · -- the loop ends here, and there is a command left
            have hlength : texts.length = lines.length := by
              simpa using (congrArg List.length htail).symm
            have hnil := hmore lines.length
            rw [dispatch_lines_undecoded hnone, ← hlength, List.take_length] at hnil
            obtain ⟨msg, rest, hmsgs⟩ := List.exists_cons_of_ne_nil (mt non_blank_eq_nil.mp hblank)
            rw [hmsgs] at hnil
            have hhead := head_up_to_failure neverFails history msg rest
            rw [← hnil] at hhead
            cases hhead
          · by_cases hqBlank : Text.Blank q
            · by_cases hword : Text.Blank (p ++ q)
              · have hpBlank : Text.Blank p := fun c hc => hword c (List.mem_append_left q hc)
                simp only [dispatch_lines_blank hq hqBlank, non_blank_cons_of_blank hword] at hmore
                exact ⟨fun _ => ⟨p, hp, hpBlank⟩, .inr (ih htail hmore)⟩
              · -- the command is lost
                have hhead := head_up_to_failure neverFails history (Text.trim (p ++ q))
                  (nonBlank [])
                rw [← non_blank_cons hword, ← hfirst, dispatch_lines_blank hq hqBlank] at hhead
                cases hhead
            · have hword : ¬ Text.Blank (p ++ q) := fun h =>
                hqBlank fun c hc => h c (List.mem_append_right p hc)
              simp only [non_blank_cons hword] at hfirst hmore
              obtain ⟨htrim, -⟩ := first_dispatched hq hqBlank hfirst
              refine ⟨fun _ => ⟨p, hp, Text.blank_of_trim_append htrim.symm⟩, ?_⟩
              by_cases hmalformed : Handler.Malformed (Text.trim (p ++ q))
              · exact .inl ((rejected_iff htext).mpr hmalformed)
              · have hlater := fun n => (first_dispatched hq hqBlank (hmore n)).2.resolve_left
                  (mt returns_err_never.mp hmalformed)
                exact .inr (ih htail hlater)

/-- Every command that is dispatched is at the end of one of the text. -/
theorem mem_dispatch {lines : List (List Item)} {texts : List Str} {msg : Str}
    (htexts : lines.map Item.bytes = texts.map Text.encode)
    (h : msg ∈ dispatchLines fails history (lines.map Item.kept)) :
    ∃ command ∈ nonBlank texts, msg <:+ command := by
  induction lines generalizing texts history with
  | nil => cases h
  | cons line lines ih =>
      cases texts with
      | nil => cases htexts
      | cons t texts =>
          obtain ⟨htext, htail⟩ := List.cons.inj htexts
          have hlater : ∀ {history : List Str},
              msg ∈ dispatchLines fails history (lines.map Item.kept) →
              ∃ command ∈ nonBlank (t :: texts), msg <:+ command := by
            intro history hmem
            obtain ⟨command, hcommand, hsuffix⟩ := ih htail hmem
            refine ⟨command, ?_, hsuffix⟩
            by_cases hword : Text.Blank t
            · rwa [non_blank_cons_of_blank hword]
            · rw [non_blank_cons hword]
              exact List.mem_cons_of_mem _ hcommand
          rw [List.map_cons] at h
          rcases kept_cases htext with ⟨hnone, -⟩ | ⟨p, q, -, hq, rfl⟩
          · rw [dispatch_lines_undecoded hnone] at h
            cases h
          · by_cases hqBlank : Text.Blank q
            · rw [dispatch_lines_blank hq hqBlank] at h
              exact hlater h
            · have hword : ¬ Text.Blank (p ++ q) := fun h =>
                hqBlank fun c hc => h c (List.mem_append_right p hc)
              have hfirst : msg = Text.trim q →
                  ∃ command ∈ nonBlank ((p ++ q) :: texts), msg <:+ command := by
                rintro rfl
                rw [non_blank_cons hword]
                exact ⟨_, List.mem_cons_self, Text.trim_suffix p q⟩
              rw [dispatch_lines_command hq hqBlank] at h
              split at h
              · exact hfirst (List.mem_singleton.mp h)
              · rcases List.mem_cons.mp h with heq | h
                · exact hfirst heq
                · exact hlater h

theorem Unrepeated.rest {msg : Str} {msgs : List Str} (h : Unrepeated (msg :: msgs)) :
    Unrepeated msgs :=
  (List.pairwise_cons.mp h).2

/-- A malformed `STREAM` that is not repeated comes out of its own line only. -/
theorem Unrepeated.not_dispatched {msg : Str} {lines : List (List Item)} {texts : List Str}
    (h : Unrepeated (msg :: nonBlank texts)) (hmalformed : Handler.Malformed msg)
    (htexts : lines.map Item.bytes = texts.map Text.encode) :
    msg ∉ dispatchLines fails history (lines.map Item.kept) := by
  intro hmem
  obtain ⟨command, hcommand, hsuffix⟩ := mem_dispatch htexts hmem
  exact (List.pairwise_cons.mp h).1 command hcommand hmalformed hsuffix

/-- No line gives more than one command, so not more of them are dispatched than there are up to
the malformed `STREAM` that ends both sequences. -/
theorem dispatch_length_le {lines : List (List Item)} {texts : List Str} {other : List Str}
    (htexts : lines.map Item.bytes = texts.map Text.encode)
    (hunrepeated : Unrepeated (nonBlank texts))
    (hfound : ∀ msg ∈ upToFailure neverFails other (nonBlank texts), Handler.Malformed msg →
      msg ∈ dispatchLines neverFails history (lines.map Item.kept)) :
    (dispatchLines neverFails history (lines.map Item.kept)).length ≤
      (upToFailure neverFails other (nonBlank texts)).length := by
  induction lines generalizing texts history other with
  | nil => exact Nat.zero_le _
  | cons line lines ih =>
      cases texts with
      | nil => cases htexts
      | cons t texts =>
          obtain ⟨htext, htail⟩ := List.cons.inj htexts
          rw [List.map_cons] at hfound ⊢
          rcases kept_cases htext with ⟨hnone, -⟩ | ⟨p, q, -, hq, rfl⟩
          · rw [dispatch_lines_undecoded hnone]
            exact Nat.zero_le _
          · by_cases hword : Text.Blank (p ++ q)
            · have hqBlank : Text.Blank q := fun c hc => hword c (List.mem_append_right p hc)
              rw [dispatch_lines_blank hq hqBlank, non_blank_cons_of_blank hword] at hfound ⊢
              rw [non_blank_cons_of_blank hword] at hunrepeated
              exact ih htail hunrepeated hfound
            · rw [non_blank_cons hword] at hfound hunrepeated ⊢
              by_cases hmalformed : Handler.Malformed (Text.trim (p ++ q))
              · have hreturns : ReturnsErr neverFails other (Text.trim (p ++ q)) :=
                  returns_err_never.mpr hmalformed
                rw [upToFailure, if_pos hreturns] at hfound ⊢
                have hmem := hfound _ List.mem_cons_self hmalformed
                have hnot : ∀ history, Text.trim (p ++ q) ∉
                    dispatchLines neverFails history (lines.map Item.kept) := fun _ =>
                  hunrepeated.not_dispatched hmalformed htail
                by_cases hqBlank : Text.Blank q
                · rw [dispatch_lines_blank hq hqBlank] at hmem
                  exact absurd hmem (hnot _)
                · rw [dispatch_lines_command hq hqBlank] at hmem ⊢
                  split at hmem
                  · next hreturns => rw [if_pos hreturns]; exact Nat.le_refl _
                  · next hgoes =>
                      rcases List.mem_cons.mp hmem with heq | hmem
                      · exact absurd (returns_err_never.mpr (heq ▸ hmalformed)) hgoes
                      · exact absurd hmem (hnot _)
              · have hgoes : ¬ ReturnsErr neverFails other (Text.trim (p ++ q)) :=
                  mt returns_err_never.mp hmalformed
                rw [upToFailure, if_neg hgoes] at hfound ⊢
                by_cases hqBlank : Text.Blank q
                · rw [dispatch_lines_blank hq hqBlank] at hfound ⊢
                  refine (ih htail hunrepeated.rest fun msg hmsg => ?_).trans (Nat.le_succ _)
                  exact hfound msg (List.mem_cons_of_mem _ hmsg)
                · rw [dispatch_lines_command hq hqBlank] at hfound ⊢
                  split
                  · exact Nat.succ_le_succ (Nat.zero_le _)
                  · next hgoes =>
                      rw [if_neg hgoes] at hfound
                      refine Nat.succ_le_succ (ih htail hunrepeated.rest fun msg hmsg hbad => ?_)
                      have hmem := hfound msg (List.mem_cons_of_mem _ hmsg) hbad
                      refine (List.mem_cons.mp hmem).resolve_left ?_
                      rintro rfl
                      exact hgoes (returns_err_never.mpr hbad)

/-- If every command is dispatched, nothing but whitespace was dropped, unless a malformed `STREAM`
is repeated. -/
theorem whole_of_dispatch {lines : List (List Item)} {texts : List Str}
    (htexts : lines.map Item.bytes = texts.map Text.encode)
    (hunrepeated : Unrepeated (nonBlank texts))
    (h : dispatchLines neverFails history (lines.map Item.kept) =
      upToFailure neverFails history (nonBlank texts)) : Whole lines := by
  induction lines generalizing texts history with
  | nil => trivial
  | cons line lines ih =>
      by_cases hblank : ∀ t ∈ texts, Text.Blank t
      · exact .of_blank ((blank_lines_iff htexts).mpr hblank)
      obtain ⟨msg, rest, hmsgs⟩ := List.exists_cons_of_ne_nil (mt non_blank_eq_nil.mp hblank)
      cases texts with
      | nil => cases htexts
      | cons t texts =>
          obtain ⟨htext, htail⟩ := List.cons.inj htexts
          rw [List.map_cons] at h
          rcases kept_cases htext with ⟨hnone, -⟩ | ⟨p, q, hp, hq, rfl⟩
          · have hhead := head_up_to_failure neverFails history msg rest
            rw [← hmsgs, ← h, dispatch_lines_undecoded hnone] at hhead
            cases hhead
          · by_cases hword : Text.Blank (p ++ q)
            · have hpBlank : Text.Blank p := fun c hc => hword c (List.mem_append_left q hc)
              have hqBlank : Text.Blank q := fun c hc => hword c (List.mem_append_right p hc)
              rw [non_blank_cons_of_blank hword] at hunrepeated h
              rw [dispatch_lines_blank hq hqBlank] at h
              exact ⟨fun _ => ⟨p, hp, hpBlank⟩, .inr (ih htail hunrepeated h)⟩
            · rw [non_blank_cons hword] at hunrepeated h
              by_cases hqBlank : Text.Blank q
              · -- the command is lost, and no other line can make up for it
                rw [dispatch_lines_blank hq hqBlank, upToFailure] at h
                by_cases hmalformed : Handler.Malformed (Text.trim (p ++ q))
                · rw [if_pos (returns_err_never.mpr hmalformed)] at h
                  have hnot : Text.trim (p ++ q) ∉
                      dispatchLines neverFails history (lines.map Item.kept) :=
                    hunrepeated.not_dispatched hmalformed htail
                  rw [h] at hnot
                  exact absurd List.mem_cons_self hnot
                · rw [if_neg (mt returns_err_never.mp hmalformed)] at h
                  have hlength := dispatch_length_le htail hunrepeated.rest fun msg hmsg _ =>
                    h ▸ List.mem_cons_of_mem _ hmsg
                  rw [h, List.length_cons] at hlength
                  omega
              · obtain ⟨htrim, hmore⟩ := first_dispatched hq hqBlank h
                refine ⟨fun _ => ⟨p, hp, Text.blank_of_trim_append htrim.symm⟩, ?_⟩
                by_cases hmalformed : Handler.Malformed (Text.trim (p ++ q))
                · exact .inl ((rejected_iff htext).mpr hmalformed)
                · exact .inr (ih htail hunrepeated.rest
                    (hmore.resolve_left (mt returns_err_never.mp hmalformed)))

/-! ## The loop after any number of lines -/

theorem prefix_up_to_lines (n : Nat) (items : List Item) : Item.upTo n items <+: items := by
  have hlines : (Item.lines items).flatten = items := flatten_split_after _ items
  have happend : Item.upTo n items ++ ((Item.lines items).drop n).flatten = items := by
    rw [Item.upTo, ← List.flatten_append, List.take_append_drop, hlines]
  exact ⟨_, happend⟩

theorem lines_up_to (n : Nat) (items : List Item) :
    Item.lines (Item.upTo n items) = (Item.lines items).take n :=
  split_after_take Item.isNewline n items

/-- A reader of these items. -/
def BufReader.ofItems (items : List Item) : BufReader :=
  ⟨[], items.map fun
    | .byte b => .bytes b []
    | .tick elapsedSecs => .timeout elapsedSecs⟩

theorem items_of_items (items : List Item) : (BufReader.ofItems items).items = items := by
  induction items with
  | nil => rfl
  | cons item items ih =>
      have hrest : (BufReader.ofItems (item :: items)).items =
          item :: (BufReader.ofItems items).items := by
        cases item <;> rfl
      rw [hrest, ih]

/-- The bytes of whole lines of text are text. -/
theorem bytes_up_to {texts : List Str} {n : Nat}
    (htexts : (Item.lines items).map Item.bytes = texts.map Text.encode) :
    Item.bytes (Item.upTo n items) = Text.encode (texts.take n).flatten := by
  rw [Text.encode_flatten, List.map_take, ← htexts, ← List.map_take, Item.upTo, Item.bytes,
    List.filterMap_flatten]
  rfl

section UpTo

variable {r p : BufReader} {front : Str} {n : Nat}

/-- What the loop dispatches of the first lines, and what stands there. -/
theorem dispatch_up_to {texts : List Str}
    (hquick : ∀ elapsedSecs, .tick elapsedSecs ∈ r.items → elapsedSecs ≤ Defs.clientKeepAliveSec)
    (htexts : (Item.lines r.items).map Item.bytes = texts.map Text.encode)
    (hp : p.items = Item.upTo n r.items) (hfront : Item.bytes p.items = Text.encode front) :
    (∀ fails, handleConnection fails [] p =
      dispatchLines fails [] (((Item.lines r.items).take n).map Item.kept)) ∧
    commands front = nonBlank (texts.take n) := by
  have hlines : Item.lines p.items = (Item.lines r.items).take n := hp ▸ lines_up_to n r.items
  constructor
  · intro fails
    rw [handle_connection_eq fails [] p fun elapsedSecs htick =>
      hquick elapsedSecs ((prefix_up_to_lines n r.items).subset (hp ▸ htick)), hlines]
  · obtain ⟨texts', htexts', hcommands⟩ := lines_of_text p.items front hfront
    rw [hlines, List.map_take, htexts, ← List.map_take] at htexts'
    have hinjective : Function.Injective Text.encode := fun _ _ => Text.encode_injective
    rw [← hcommands, hinjective.list_map htexts']

end UpTo

/-- The commands that a connection dispatches are the trimmed lines that are not blank, up to the
first one whose handler returns `Err`. -/
def BufReader.Framed (r : BufReader) (text : Str) : Prop :=
  ∀ fails, handleConnection fails [] r = upToFailure fails [] (commands text)

/-- The commands that a connection dispatches do not depend on when their bytes arrive, and are
after any number of lines the commands in them, exactly when no read timeout drops anything but
whitespace from a line at or before the last command, behind a malformed `STREAM` aside. That is
also when the whole stream gives its commands, unless a malformed `STREAM` is repeated in it. -/
theorem command_framing (text : Str) (r : BufReader)
    (hbytes : Item.bytes r.items = Text.encode text)
    (hquick : ∀ elapsedSecs, .tick elapsedSecs ∈ r.items → elapsedSecs ≤ Defs.clientKeepAliveSec) :
    ((∀ (n : Nat) (p : BufReader) (front : Str), p.items = Item.upTo n r.items →
        Item.bytes p.items = Text.encode front → p.Framed front) ↔ Whole (Item.lines r.items)) ∧
    (Whole (Item.lines r.items) → r.Framed text) ∧
    (Unrepeated (commands text) → (r.Framed text ↔ Whole (Item.lines r.items))) := by
  obtain ⟨texts, htexts, hcommands⟩ := lines_of_text r.items text hbytes
  have hwhole : Whole (Item.lines r.items) → r.Framed text := by
    intro hwhole fails
    rw [handle_connection_eq fails [] r hquick, ← hcommands]
    exact dispatch_of_whole htexts hwhole
  refine ⟨⟨fun h => ?_, fun hwhole n p front hp hfront fails => ?_⟩, hwhole,
    fun hunrepeated => ⟨fun h => ?_, hwhole⟩⟩
  · have htake : ∀ n, dispatchLines neverFails [] (((Item.lines r.items).take n).map Item.kept) =
        upToFailure neverFails [] (nonBlank (texts.take n)) := by
      intro n
      -- the first `n` lines, as a stream of their own
      have hitems := items_of_items (Item.upTo n r.items)
      have hfront := (congrArg Item.bytes hitems).trans (bytes_up_to htexts)
      obtain ⟨hdispatch, hmsgs⟩ := dispatch_up_to hquick htexts hitems hfront
      rw [← hdispatch, ← hmsgs]
      exact h n _ _ hitems hfront neverFails
    exact whole_of_take htexts htake
  · obtain ⟨hdispatch, hmsgs⟩ := dispatch_up_to hquick htexts hp hfront
    rw [hdispatch, hmsgs]
    have htake : ((Item.lines r.items).take n).map Item.bytes = (texts.take n).map Text.encode := by
      rw [List.map_take, htexts, List.map_take]
    exact dispatch_of_whole htake (hwhole.take n)
  · have hnever := h neverFails
    rw [handle_connection_eq _ _ r hquick, ← hcommands] at hnever
    rw [← hcommands] at hunrepeated
    exact whole_of_dispatch htexts hunrepeated hnever

/-- A timeout in front of each of two commands, and one of them in two writes. -/
def betweenCommands : BufReader :=
  ⟨[], [.timeout 1, .bytes 80 [73, 78, 71], .bytes 10 [], .timeout 2, .bytes 83 [84, 79, 80, 10]]⟩

/-- A malformed `STREAM` in front of a command that is cut in two. -/
def behindMalformed : BufReader :=
  ⟨[], [.bytes 83 [84, 82, 69, 65, 77, 32, 88, 32, 89, 10], .bytes 80 [73], .timeout 0,
    .bytes 78 [71, 10]]⟩

theorem command_framing_between :
    betweenCommands.Framed "PING\nSTOP\n".toList ∧
      behindMalformed.Framed "STREAM X Y\nPING\n".toList := by
  have hempty : BlankBytes [] := ⟨[], Text.decode_encode [], by decide⟩
  constructor
  · refine ((command_framing _ betweenCommands (by decide)
      (by simp [betweenCommands, items, Defs.clientKeepAliveSec])).2.2 ?_).mpr ?_
    · unfold Unrepeated
      decide
    have hlines : Item.lines betweenCommands.items = [.tick 1 :: [80, 73, 78, 71, 10].map .byte,
        .tick 2 :: [83, 84, 79, 80, 10].map .byte] := rfl
    rw [hlines]
    exact ⟨fun _ => hempty, .inr ⟨fun _ => hempty, .inr trivial⟩⟩
  · refine (command_framing _ behindMalformed (by decide) (by simp [behindMalformed, items])).2.1 ?_
    have hlines : Item.lines behindMalformed.items =
        [[83, 84, 82, 69, 65, 77, 32, 88, 32, 89, 10].map .byte,
          [.byte 80, .byte 73, .tick 0, .byte 78, .byte 71, .byte 10]] := rfl
    have hrejected : Item.Rejected ([83, 84, 82, 69, 65, 77, 32, 88, 32, 89, 10].map .byte) :=
      ⟨"STREAM X Y\n".toList, by decide, by decide⟩
    rw [hlines]
    exact ⟨fun _ => hempty, .inl hrejected⟩

/-- A command and its newline in two writes, with a timeout between them. -/
def twoWrites : BufReader :=
  ⟨[], [.bytes 80 [73, 78, 71], .timeout 0, .bytes 10 []]⟩

/-- The command is lost. -/
theorem command_framing_two_writes : Item.bytes twoWrites.items = Text.encode "PING\n".toList ∧
    handleConnection neverFails [] twoWrites = [] ∧
    upToFailure neverFails [] (commands "PING\n".toList) = ["PING".toList] := by
  refine ⟨by decide, ?_, rfl⟩
  rw [handle_connection_eq _ _ _ (by simp [twoWrites, items])]
  have hkept : (Item.lines twoWrites.items).map Item.kept = [Text.encode ['\n']] := by decide
  rw [hkept, dispatchLines, Text.decode_encode]
  rfl

end Timing

end QuoteStreamer
