import QuoteStreamer.TcpServer.Framing

/-!
# Connections that are cut off

At the end of the stream `read_line` returns what it has read, without a newline, and the loop
dispatches it like any other line. So a connection that is cut inside a line has the front of that
line executed, unless what there is of it is blank.
-/

namespace QuoteStreamer

open SplitAfter BufReader

namespace Item

/-- The items up to the last newline. -/
def finished (items : List Item) : List Item :=
  items.rdropWhile (!·.isNewline)

/-- The items behind the last newline. -/
def fragment (items : List Item) : List Item :=
  items.rtakeWhile (!·.isNewline)

/-- The loop gets past the line, unless an operation of its handler fails: no timeout inside it
comes too late, and what is kept of it is text and no malformed `STREAM`. -/
def Passed (line : List Item) : Prop :=
  quick line = true ∧
    ∃ text, Text.decode (kept line) = some text ∧ ¬ Handler.Malformed (Text.trim text)

/-- The loop does not come to the end of the stream, or finds no command behind the last newline. -/
def NothingUnfinished (items : List Item) : Prop :=
  (∀ line ∈ lines (finished items), Passed line) → quick (fragment items) = true →
    ∀ text, Text.decode (kept (fragment items)) = some text → Text.Blank text

theorem fragment_clean (items : List Item) : ∀ item ∈ fragment items, item.isNewline = false :=
  fun _ hitem => by simpa using List.mem_rtakeWhile_imp hitem

/-- The finished lines are the same whatever follows. -/
theorem lines_append (items rest : List Item) :
    lines (items ++ rest) = lines (finished items) ++ lines (fragment items ++ rest) := by
  have hended : ∀ hne : finished items ≠ [], ((finished items).getLast hne).isNewline = true := by
    intro hne
    have hlast := List.rdropWhile_last_not (fun item : Item => !item.isNewline) items hne
    simpa [finished] using hlast
  have hitems : finished items ++ fragment items = items := List.rdropWhile_append_rtakeWhile ..
  calc lines (items ++ rest) = lines (finished items ++ (fragment items ++ rest)) := by
        rw [← List.append_assoc, hitems]
    _ = lines (finished items) ++ lines (fragment items ++ rest) := split_after_ended hended _

theorem kept_append_bytes (items : List Item) (bs : List UInt8) :
    kept (items ++ bs.map .byte) = kept items ++ bs := by
  induction items with
  | nil => exact kept_bytes bs
  | cons item items ih =>
      cases item with
      | tick _ => exact ih
      | byte b =>
          have hany : (items ++ bs.map Item.byte).any isTick = items.any isTick := by
            rw [List.any_append]
            simp [isTick]
          rw [List.cons_append, kept, kept, hany, ih]
          split <;> rfl

end Item

/-- The commands that the loop dispatches from these lines. -/
def dispatchItems (fails : List Str → Bool) (history : List Str)
    (lines : List (List Item)) : List Str :=
  dispatchLines fails history ((lines.takeWhile Item.quick).map Item.kept)

section Dispatch

variable {fails : List Str → Bool} {history : List Str} {line : List Item}
  {xs ys zs : List (List Item)}

theorem dispatch_slow (hslow : Item.quick line = false) (rest : List (List Item)) :
    dispatchItems fails history (line :: rest) = [] := by
  rw [dispatchItems, List.takeWhile_cons_of_neg (by rw [hslow]; nofun)]
  rfl

theorem dispatch_undecoded (hnone : Text.decode (Item.kept line) = none) (rest : List (List Item)) :
    dispatchItems fails history (line :: rest) = [] := by
  cases hquick : Item.quick line with
  | false => exact dispatch_slow hquick rest
  | true =>
      rw [dispatchItems, List.takeWhile_cons_of_pos hquick, List.map_cons,
        dispatch_lines_undecoded hnone]

theorem dispatch_text {text : Str} (hquick : Item.quick line = true)
    (hsome : Text.decode (Item.kept line) = some text) (rest : List (List Item)) :
    dispatchItems fails history (line :: rest) =
      if Text.trim text = [] then dispatchItems fails history rest
      else if ReturnsErr fails history (Text.trim text) then [Text.trim text]
      else Text.trim text :: dispatchItems fails (history ++ [Text.trim text]) rest := by
  rw [dispatchItems, List.takeWhile_cons_of_pos hquick, List.map_cons, dispatchLines, hsome]
  rfl

/-- A command is dispatched first, whatever its handler does. -/
theorem dispatch_command {text : Str} (hquick : Item.quick line = true)
    (hsome : Text.decode (Item.kept line) = some text) (hword : ¬ Text.Blank text)
    (rest : List (List Item)) :
    ∃ msgs, dispatchItems fails history (line :: rest) = Text.trim text :: msgs := by
  rw [dispatch_text hquick hsome, if_neg fun h => hword (Text.trim_eq_nil_iff.mp h)]
  split
  · exact ⟨[], rfl⟩
  · exact ⟨_, rfl⟩

/-- A line gives nothing and ends the loop, or it is text, and the loop gets past it unless it is a
malformed `STREAM`. -/
theorem passed_or_stopped (line : List Item) :
    (∀ fails history rest, dispatchItems fails history (line :: rest) = []) ∧ ¬ Item.Passed line ∨
      ∃ text, Item.quick line = true ∧ Text.decode (Item.kept line) = some text ∧
        (Item.Passed line ↔ ¬ Handler.Malformed (Text.trim text)) := by
  cases hquick : Item.quick line with
  | false =>
      exact .inl ⟨fun _ _ => dispatch_slow hquick, fun h => by rw [h.1] at hquick; cases hquick⟩
  | true =>
      cases hdecode : Text.decode (Item.kept line) with
      | none =>
          refine .inl ⟨fun _ _ => dispatch_undecoded hdecode, ?_⟩
          rintro ⟨-, text, hsome, -⟩
          rw [hdecode] at hsome
          cases hsome
      | some text =>
          refine .inr ⟨text, rfl, rfl, ?_, fun hgood => ⟨hquick, text, hdecode, hgood⟩⟩
          rintro ⟨-, text', hsome, hgood⟩
          obtain rfl := Option.some.inj (hdecode.symm.trans hsome)
          exact hgood

/-- What is dispatched of a prefix that ends behind a newline is a prefix of what is dispatched. -/
theorem dispatch_prefix
    (h : ∀ history, dispatchItems fails history ys <+: dispatchItems fails history zs) :
    dispatchItems fails history (xs ++ ys) <+: dispatchItems fails history (xs ++ zs) := by
  induction xs generalizing history with
  | nil => exact h history
  | cons line xs ih =>
      rcases passed_or_stopped line with ⟨hstop, -⟩ | ⟨text, hquick, hsome, -⟩
      · rw [List.cons_append, hstop]
        exact List.nil_prefix
      · rw [List.cons_append, List.cons_append, dispatch_text hquick hsome,
          dispatch_text hquick hsome]
        split
        · exact ih
        · split
          · exact List.prefix_rfl
          · exact List.prefix_cons_inj _ |>.mpr ih

/-- Behind a line that the loop does not get past, nothing matters. -/
theorem dispatch_stopped (hstop : ¬ ∀ line ∈ xs, Item.Passed line) :
    dispatchItems fails history (xs ++ ys) = dispatchItems fails history (xs ++ zs) := by
  induction xs generalizing history with
  | nil => exact absurd (fun _ => nofun) hstop
  | cons line xs ih =>
      rcases passed_or_stopped line with ⟨hall, -⟩ | ⟨text, hquick, hsome, hpassed⟩
      · rw [List.cons_append, List.cons_append, hall, hall]
      · rw [List.cons_append, List.cons_append, dispatch_text hquick hsome,
          dispatch_text hquick hsome]
        by_cases hmalformed : Handler.Malformed (Text.trim text)
        · rw [if_pos (show ReturnsErr fails history _ from .inl hmalformed),
            if_pos (show ReturnsErr fails history _ from .inl hmalformed),
            if_neg fun h => malformed_not_blank hmalformed (Text.trim_eq_nil_iff.mp h),
            if_neg fun h => malformed_not_blank hmalformed (Text.trim_eq_nil_iff.mp h)]
        · have hrest : ¬ ∀ line ∈ xs, Item.Passed line := fun hxs =>
            hstop (List.forall_mem_cons.mpr ⟨hpassed.mpr hmalformed, hxs⟩)
          rw [ih hrest, ih hrest]

/-- Lines that the loop gets past put their commands in front. -/
theorem dispatch_passed (hpassed : ∀ line ∈ xs, Item.Passed line) (history : List Str) :
    ∃ msgs history', ∀ ys, dispatchItems neverFails history (xs ++ ys) =
      msgs ++ dispatchItems neverFails history' ys := by
  induction xs generalizing history with
  | nil => exact ⟨[], history, fun _ => rfl⟩
  | cons line xs ih =>
      obtain ⟨⟨hquick, text, hsome, hgood⟩, hrest⟩ := List.forall_mem_cons.mp hpassed
      have hgoes : ¬ ReturnsErr neverFails history (Text.trim text) :=
        mt returns_err_never.mp hgood
      by_cases hblank : Text.trim text = []
      · obtain ⟨msgs, history', h⟩ := ih hrest history
        refine ⟨msgs, history', fun ys => ?_⟩
        rw [List.cons_append, dispatch_text hquick hsome, if_pos hblank, h]
      · obtain ⟨msgs, history', h⟩ := ih hrest (history ++ [Text.trim text])
        refine ⟨Text.trim text :: msgs, history', fun ys => ?_⟩
        rw [List.cons_append, dispatch_text hquick hsome, if_neg hblank, if_neg hgoes, h]
        rfl

end Dispatch

section CutOff

variable {fails : List Str → Bool} {history : List Str} {items : List Item}
  {bytes : List UInt8} {more : List Item}

theorem lines_fragment (items : List Item) :
    Item.lines (Item.fragment items) =
      if Item.fragment items = [] then [] else [Item.fragment items] := by
  split
  · next hnil =>
      rw [hnil]
      rfl
  · next hne => exact split_after_clean (Item.fragment_clean items) hne

/-- What the loop dispatches at the end of the stream. -/
theorem dispatch_fragment_nil (h : Item.quick (Item.fragment items) = true →
    ∀ text, Text.decode (Item.kept (Item.fragment items)) = some text → Text.Blank text) :
    dispatchItems fails history (Item.lines (Item.fragment items)) = [] := by
  rw [lines_fragment]
  split
  · rfl
  · rcases passed_or_stopped (Item.fragment items) with ⟨hstop, -⟩ | ⟨text, hquick, hsome, -⟩
    · exact hstop fails history []
    · rw [dispatch_text hquick hsome, if_pos (Text.trim_eq_nil_iff.mpr (h hquick text hsome))]
      rfl

/-- With nothing unfinished the commands of a cut stream are the first ones of the whole. -/
theorem prefix_of_nothing_unfinished (h : Item.NothingUnfinished items) (rest : List Item) :
    dispatchItems fails history (Item.lines items) <+:
      dispatchItems fails history (Item.lines (items ++ rest)) := by
  have hwhole : Item.lines items =
      Item.lines (Item.finished items) ++ Item.lines (Item.fragment items) := by
    have hlines := Item.lines_append items []
    rwa [List.append_nil, List.append_nil] at hlines
  rw [hwhole, Item.lines_append items rest]
  by_cases hpassed : ∀ line ∈ Item.lines (Item.finished items), Item.Passed line
  · refine dispatch_prefix fun history => ?_
    rw [dispatch_fragment_nil (h hpassed)]
    exact List.nil_prefix
  · have hstopped : dispatchItems fails history (Item.lines (Item.finished items) ++
          Item.lines (Item.fragment items)) = dispatchItems fails history
        (Item.lines (Item.finished items) ++ Item.lines (Item.fragment items ++ rest)) :=
      dispatch_stopped hpassed
    exact hstopped ▸ List.prefix_rfl

/-- The line that was cut, in the whole stream. -/
theorem cut_line (hne : Item.fragment items ≠ []) (hbytes : ∀ b ∈ bytes, b ≠ 10)
    (hmore : ∀ item ∈ more.head?, item = .byte 10) : ∃ ending lines, (ending = [] ∨ ending = [10]) ∧
      Item.lines (Item.fragment items ++ (bytes.map .byte ++ more)) =
        (Item.fragment items ++ (bytes ++ ending).map .byte) :: lines := by
  have hclean : ∀ item ∈ Item.fragment items ++ bytes.map .byte, item.isNewline = false := by
    intro item hitem
    rcases List.mem_append.mp hitem with hitem | hitem
    · exact Item.fragment_clean items item hitem
    · obtain ⟨b, hb, rfl⟩ := List.mem_map.mp hitem
      simpa [Item.isNewline] using hbytes b hb
  cases more with
  | nil =>
      refine ⟨[], [], .inl rfl, ?_⟩
      rw [List.append_nil, List.append_nil]
      exact split_after_clean hclean (by simp [hne])
  | cons item more =>
      obtain rfl : item = .byte 10 := hmore item rfl
      refine ⟨[10], Item.lines more, .inr rfl, ?_⟩
      have hsplit := split_after_append hclean (show Item.isNewline (.byte 10) = true from rfl) more
      simpa [Item.lines] using hsplit

/-- Whether there is a newline at the end does not matter for blank bytes. -/
theorem blank_ending {ending : List UInt8} (hending : ending = [] ∨ ending = [10]) :
    BlankBytes (bytes ++ ending) ↔ BlankBytes bytes := by
  rcases hending with rfl | rfl
  · rw [List.append_nil]
  · have hnewline : ([10] : List UInt8) = Text.encode ['\n'] := rfl
    constructor
    · rintro ⟨text, hdecode, hblank⟩
      obtain ⟨front, hfront, rfl⟩ := Text.decode_front (Text.encode_of_decode hdecode)
        (hnewline ▸ Text.decode_encode ['\n'])
      exact ⟨front, hfront, fun c hc => hblank c (List.mem_append_left _ hc)⟩
    · rintro ⟨text, hdecode, hblank⟩
      refine ⟨text ++ ['\n'], ?_, ?_⟩
      · rw [Text.encode_of_decode hdecode, hnewline, ← Text.encode_append, Text.decode_encode]
      · intro c hc
        rcases List.mem_append.mp hc with hc | hc
        · exact hblank c hc
        · rw [List.mem_singleton.mp hc]
          decide

/-- The front of a command is dispatched as the whole command exactly when the rest is blank. -/
theorem cut_command {q : Str} (hquick : Item.quick (Item.fragment items) = true)
    (hsome : Text.decode (Item.kept (Item.fragment items)) = some q) (hq : ¬ Text.Blank q)
    (lines : List (List Item)) :
    (∃ history, dispatchItems neverFails history [Item.fragment items] <+:
      dispatchItems neverFails history ((Item.fragment items ++ bytes.map .byte) :: lines)) →
    BlankBytes bytes := by
  rintro ⟨history, hprefix⟩
  have hline : Item.quick (Item.fragment items ++ bytes.map .byte) = true := by
    rw [Item.quick_append, hquick, Item.quick_bytes]
    rfl
  obtain ⟨front, hfront⟩ :
      ∃ msgs, dispatchItems neverFails history [Item.fragment items] = Text.trim q :: msgs :=
    dispatch_command hquick hsome hq []
  rw [hfront] at hprefix
  cases hdecode : Text.decode (Item.kept (Item.fragment items ++ bytes.map .byte)) with
  | none =>
      rw [dispatch_undecoded hdecode] at hprefix
      cases List.prefix_nil.mp hprefix
  | some text =>
      have htext := Text.encode_of_decode hdecode
      rw [Item.kept_append_bytes] at htext
      obtain ⟨w, hw, rfl⟩ := Text.decode_back htext hsome
      refine ⟨w, hw, ?_⟩
      have hwhole : ¬ Text.Blank (q ++ w) := fun h =>
        hq fun c hc => h c (List.mem_append_left w hc)
      obtain ⟨msgs, hmsgs⟩ := dispatch_command hline hdecode hwhole lines
      rw [hmsgs, List.cons_prefix_cons] at hprefix
      exact Text.blank_of_trim_append_right hprefix.1.symm

theorem whole_command {q : Str} (hquick : Item.quick (Item.fragment items) = true)
    (hsome : Text.decode (Item.kept (Item.fragment items)) = some q) (hq : ¬ Text.Blank q)
    (hbytes : BlankBytes bytes) (lines : List (List Item)) :
    dispatchItems fails history [Item.fragment items] <+:
      dispatchItems fails history ((Item.fragment items ++ bytes.map .byte) :: lines) := by
  obtain ⟨w, hw, hblank⟩ := hbytes
  have hline : Item.quick (Item.fragment items ++ bytes.map .byte) = true := by
    rw [Item.quick_append, hquick, Item.quick_bytes]
    rfl
  have hword : Text.trim q ≠ [] := fun h => hq (Text.trim_eq_nil_iff.mp h)
  have hdecode : Text.decode (Item.kept (Item.fragment items ++ bytes.map .byte)) =
      some (q ++ w) := by
    rw [Item.kept_append_bytes, Text.encode_of_decode hsome, Text.encode_of_decode hw,
      ← Text.encode_append, Text.decode_encode]
  rw [dispatch_text hquick hsome, dispatch_text hline hdecode, Text.trim_append_right hblank,
    if_neg hword, if_neg hword]
  split
  · exact List.prefix_rfl
  · exact List.cons_prefix_cons.mpr ⟨rfl, List.nil_prefix⟩

/-- Otherwise the loop comes to the end of the stream and finds a command there. -/
theorem unfinished_command (h : ¬ Item.NothingUnfinished items) :
    (∀ line ∈ Item.lines (Item.finished items), Item.Passed line) ∧
      Item.lines items = Item.lines (Item.finished items) ++ [Item.fragment items] ∧
      Item.fragment items ≠ [] ∧ Item.quick (Item.fragment items) = true ∧
      ∃ q, Text.decode (Item.kept (Item.fragment items)) = some q ∧ ¬ Text.Blank q := by
  simp only [Item.NothingUnfinished, not_forall] at h
  obtain ⟨hpassed, hquick, q, hsome, hq⟩ := h
  have hne : Item.fragment items ≠ [] := by
    intro hnil
    rw [hnil] at hsome
    obtain rfl : [] = q := Option.some.inj hsome
    exact hq fun c hc => by cases hc
  have hlines := Item.lines_append items []
  rw [List.append_nil, List.append_nil, lines_fragment, if_neg hne] at hlines
  exact ⟨fun line hline => hpassed line hline, hlines, hne, hquick, q, hsome, hq⟩

/-- A stream that is cut inside a line gives a prefix of the commands of the whole stream exactly
when nothing is unfinished or only whitespace is missing from the line. -/
theorem cut_prefix_iff (hbytes : ∀ b ∈ bytes, b ≠ 10)
    (hmore : ∀ item ∈ more.head?, item = .byte 10) :
    (∀ fails, dispatchItems fails [] (Item.lines items) <+:
      dispatchItems fails [] (Item.lines (items ++ (bytes.map .byte ++ more)))) ↔
    Item.NothingUnfinished items ∨ BlankBytes bytes := by
  by_cases hnothing : Item.NothingUnfinished items
  · exact ⟨fun _ => .inl hnothing, fun _ fails => prefix_of_nothing_unfinished hnothing _⟩
  · obtain ⟨hpassed, hlines, hne, hquick, q, hsome, hq⟩ := unfinished_command hnothing
    obtain ⟨ending, lines, hending, hcut⟩ := cut_line hne hbytes hmore
    rw [hlines, Item.lines_append items, hcut]
    constructor
    · intro h
      refine .inr ((blank_ending hending).mp ?_)
      obtain ⟨msgs, history, hmsgs⟩ := dispatch_passed hpassed []
      have hprefix := h neverFails
      rw [hmsgs, hmsgs, List.prefix_append_right_inj] at hprefix
      exact cut_command hquick hsome hq lines ⟨history, hprefix⟩
    · rintro (h | hblank) fails
      · exact absurd h hnothing
      · exact dispatch_prefix fun history =>
          whole_command hquick hsome hq ((blank_ending hending).mpr hblank) lines

/-- A stream without its last, unfinished line gives the same commands exactly when nothing is
unfinished. -/
theorem cut_back_iff : (∀ fails, dispatchItems fails [] (Item.lines items) =
    dispatchItems fails [] (Item.lines (Item.finished items))) ↔ Item.NothingUnfinished items := by
  constructor
  · intro h
    by_contra hnothing
    obtain ⟨hpassed, hlines, -, hquick, q, hsome, hq⟩ := unfinished_command hnothing
    obtain ⟨msgs, history, hmsgs⟩ := dispatch_passed hpassed []
    obtain ⟨front, hfront⟩ := dispatch_command hquick hsome hq []
    have hfinished := hmsgs []
    rw [List.append_nil] at hfinished
    -- the unfinished command is dispatched, without any counterpart once it is cut away
    have hsame := h neverFails
    rw [hlines, hmsgs, hfinished, List.append_right_inj, hfront] at hsame
    cases hsame
  · intro hnothing fails
    have hlines := Item.lines_append items []
    rw [List.append_nil, List.append_nil] at hlines
    by_cases hpassed : ∀ line ∈ Item.lines (Item.finished items), Item.Passed line
    · have hnone : ∀ history, dispatchItems fails history (Item.lines (Item.fragment items)) = [] :=
        fun _ => dispatch_fragment_nil (hnothing hpassed)
      have hfront : dispatchItems fails [] (Item.lines items) <+:
          dispatchItems fails [] (Item.lines (Item.finished items) ++ []) := by
        rw [hlines]
        exact dispatch_prefix fun history => by rw [hnone]; exact List.nil_prefix
      have hback : dispatchItems fails [] (Item.lines (Item.finished items) ++ []) <+:
          dispatchItems fails [] (Item.lines items) := by
        rw [hlines]
        exact dispatch_prefix fun history => List.nil_prefix
      rw [List.append_nil] at hfront hback
      exact hfront.eq_of_length_le hback.length_le
    · have hstopped : dispatchItems fails [] (Item.lines (Item.finished items) ++
            Item.lines (Item.fragment items)) =
          dispatchItems fails [] (Item.lines (Item.finished items) ++ []) :=
            dispatch_stopped hpassed
      rw [hlines, hstopped, List.append_nil]

/-- The commands of a connection that is cut off are the first commands of the whole stream, and
those of the finished lines, exactly when the loop ends before the cut or what the timeouts leave
of the unfinished line is blank or not text. When no timeout comes into the rest of the line, a
particular stream gives the same commands also if only whitespace is missing. -/
theorem cut_off (p : BufReader) :
    ((∀ r : BufReader, p.items <+: r.items →
        ∀ fails, handleConnection fails [] p <+: handleConnection fails [] r) ↔
      Item.NothingUnfinished p.items) ∧
    (∀ q : BufReader, q.items = Item.finished p.items →
      ((∀ fails, handleConnection fails [] p = handleConnection fails [] q) ↔
        Item.NothingUnfinished p.items)) ∧
    ∀ (r : BufReader) (bytes : List UInt8) (more : List Item),
      r.items = p.items ++ (bytes.map .byte ++ more) → (∀ b ∈ bytes, b ≠ 10) →
      (∀ item ∈ more.head?, item = .byte 10) →
      ((∀ fails, handleConnection fails [] p <+: handleConnection fails [] r) ↔
        Item.NothingUnfinished p.items ∨ BlankBytes bytes) := by
  have heq : ∀ (fails : List Str → Bool) (r : BufReader),
      handleConnection fails [] r = dispatchItems fails [] (Item.lines r.items) :=
    fun fails r => handle_connection_items fails [] r
  simp only [heq]
  refine ⟨⟨fun h => ?_, fun h r hprefix fails => ?_⟩, fun q hq => ?_,
    fun r bytes more hr hbytes hmore => ?_⟩
  · -- put one more command behind `p`: its message tells whether something was unfinished
    have hitems := items_of_items (p.items ++ ([88].map .byte ++ [.byte 10]))
    have hprefix := h _ (hitems ▸ List.prefix_append _ _)
    rw [hitems] at hprefix
    refine ((cut_prefix_iff (by simp) (by simp)).mp hprefix).resolve_right fun hblank => ?_
    have hencoded : BlankBytes (Text.encode ['X']) := hblank
    exact absurd (blank_bytes_encode.mp hencoded) (by decide)
  · obtain ⟨rest, hrest⟩ := hprefix
    rw [← hrest]
    exact prefix_of_nothing_unfinished h rest
  · rw [hq]
    exact cut_back_iff
  · rw [hr]
    exact cut_prefix_iff hbytes hmore

/-- A stream that arrives at once. -/
def BufReader.ofText (text : String) : BufReader :=
  .ofItems ((Text.encode text.toList).map .byte)

/-- Cut behind a command, in the next one, in front of it, and behind a malformed `STREAM`. -/
theorem cut_off_between :
    (∀ fails, handleConnection fails [] (.ofText "PING\n ") =
      handleConnection fails [] (.ofText "PING\n")) ∧
    ¬ (∀ fails, handleConnection fails [] (.ofText "PING\nST") =
      handleConnection fails [] (.ofText "PING\n")) ∧
    ¬ (∀ fails, handleConnection fails [] (.ofText "PING\nST") <+:
      handleConnection fails [] (.ofText "PING\nSTOP\n")) ∧
    ∀ r : BufReader, (BufReader.ofText "STREAM X Y\nPI").items <+: r.items →
      ∀ fails, handleConnection fails [] (.ofText "STREAM X Y\nPI") <+:
        handleConnection fails [] r := by
  have hblank : Item.NothingUnfinished (BufReader.ofText "PING\n ").items := by
    rintro - - text htext
    have hspace : Text.decode (Item.kept (Item.fragment (BufReader.ofText "PING\n ").items)) =
        some [' '] := by decide
    rw [hspace] at htext
    cases htext
    decide
  have hstop : ¬ Item.NothingUnfinished (BufReader.ofText "PING\nST").items := by
    intro h
    have hword : Text.Blank "ST".toList := by
      refine h ?_ (by decide) _ (by decide)
      have hlines : Item.lines (Item.finished (BufReader.ofText "PING\nST").items) =
          [(Text.encode "PING\n".toList).map .byte] := by decide
      rw [hlines, List.forall_mem_singleton]
      exact ⟨by decide, "PING\n".toList, by decide, by decide⟩
    exact absurd hword (by decide)
  have hmalformed : Item.NothingUnfinished (BufReader.ofText "STREAM X Y\nPI").items := by
    intro hpassed
    obtain ⟨-, text, htext, hgood⟩ := hpassed ((Text.encode "STREAM X Y\n".toList).map .byte)
      (by decide)
    rw [Item.kept_bytes, Text.decode_encode] at htext
    cases htext
    exact absurd (by decide) hgood
  refine ⟨((cut_off _).2.1 _ (by decide)).mpr hblank, mt ((cut_off _).2.1 _ (by decide)).mp hstop,
    fun h => ?_, (cut_off _).1.mpr hmalformed⟩
  have hcut := ((cut_off _).2.2 _ [79, 80] [.byte 10] (by decide) (by simp) (by simp)).mp h
  have hencoded : BlankBytes (Text.encode ['O', 'P']) := hcut.resolve_left hstop
  exact absurd (blank_bytes_encode.mp hencoded) (by decide)

/-- A command whose last two letters and newline come in a second write. -/
def cutCommand : BufReader :=
  ⟨[], [.bytes 83 [84, 82, 69, 65, 77, 32, 49, 46, 49, 46, 49, 46, 49, 58, 49, 32, 65, 65]]⟩

/-- The whole of it. -/
def wholeCommand : BufReader :=
  ⟨[], [.bytes 83 [84, 82, 69, 65, 77, 32, 49, 46, 49, 46, 49, 46, 49, 58, 49, 32, 65, 65],
    .bytes 80 [76, 10]]⟩

/-- The front of the command is another command. -/
theorem cut_off_in_ticker : cutCommand.items <+: wholeCommand.items ∧
    handleConnection neverFails [] cutCommand = ["STREAM 1.1.1.1:1 AA".toList] ∧
    handleConnection neverFails [] wholeCommand = ["STREAM 1.1.1.1:1 AAPL".toList] ∧
    ¬ handleConnection neverFails [] cutCommand <+:
      handleConnection neverFails [] wholeCommand := by
  have hcut : handleConnection neverFails [] cutCommand = ["STREAM 1.1.1.1:1 AA".toList] := by
    rw [handle_connection_items]
    rfl
  have hwhole : handleConnection neverFails [] wholeCommand = ["STREAM 1.1.1.1:1 AAPL".toList] := by
    rw [handle_connection_items]
    rfl
  exact ⟨by decide, hcut, hwhole, by rw [hcut, hwhole]; decide⟩

end CutOff

end QuoteStreamer
