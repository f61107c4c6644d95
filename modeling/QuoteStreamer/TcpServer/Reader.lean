import QuoteStreamer.Lib.SplitAfter
import QuoteStreamer.TcpServer.Handler

/-!
# The read loop of a connection

The `BufReader` of `handle_connection` over a socket with a read timeout, and the loop that reads
lines from it. The socket is the list of what happens on it: bytes arrive, or a read times out.
`read_line` keeps what it has read in the `String` it is given, and the loop gives it a fresh one in
every iteration, so that the bytes read before a timeout are gone.
-/

namespace QuoteStreamer

/-- What happens on the socket. -/
inductive Arrival where
  /-- Bytes arrive, at least one. -/
  | bytes (first : UInt8) (rest : List UInt8)
  /-- The read timeout passes; at the check that follows `last_ping.elapsed().as_secs()` is this. -/
  | timeout (elapsedSecs : Nat)
  deriving DecidableEq, Repr

/-- The `BufReader`: the bytes in its buffer, and what is still to happen on the socket. Its
capacity only cuts what arrives into more pieces. -/
structure BufReader where
  buffer : List UInt8
  arrivals : List Arrival
  deriving DecidableEq, Repr

/-- Where `read_until` stops. -/
inductive Stop where
  | delimiter
  | endOfStream
  | timedOut (elapsedSecs : Nat)
  deriving DecidableEq, Repr

/-- What `read_line` returns; `failed` is its error for bytes that are not UTF-8. -/
inductive LineResult where
  | ok (line : Str)
  | timedOut (elapsedSecs : Nat)
  | failed
  deriving DecidableEq, Repr

/-- The check of `read_line` that the bytes it has read are UTF-8. -/
def LineResult.ofBytes (bytes : List UInt8) : LineResult :=
  match Text.decode bytes with
  | some line => .ok line
  | none => .failed

/-- The result as the handler sees it. -/
def LineResult.read : LineResult → ReadResult
  | .ok line => .ok line
  | .timedOut _ => .timedOut
  | .failed => .failed "stream did not contain valid UTF-8".toList

/-- The seconds since the last line, as far as the handler looks at them. -/
def LineResult.elapsedSecs : LineResult → Nat
  | .timedOut elapsedSecs => elapsedSecs
  | _ => 0

/-- A byte of the stream, or a timeout between two of them. -/
inductive Item where
  | byte (b : UInt8)
  | tick (elapsedSecs : Nat)
  deriving DecidableEq, Repr

namespace BufReader

/-- `read_until(b'\n', buf)`: what it appends to `buf`, where it stops, and the reader after it. -/
def readUntil (buffer : List UInt8) (arrivals : List Arrival) : List UInt8 × Stop × BufReader :=
  let front := buffer.takeWhile (· ≠ 10)
  match buffer.dropWhile (· ≠ 10) with
  | newline :: rest => (front ++ [newline], .delimiter, ⟨rest, arrivals⟩)
  | [] =>
      match arrivals with
      | [] => (front, .endOfStream, ⟨[], []⟩)
      | .timeout elapsedSecs :: arrivals => (front, .timedOut elapsedSecs, ⟨[], arrivals⟩)
      | .bytes first rest :: arrivals =>
          let (more, stop, reader) := readUntil (first :: rest) arrivals
          (front ++ more, stop, reader)

/-- `read_line` into an empty `String`. -/
def readLine (r : BufReader) : LineResult × BufReader :=
  match readUntil r.buffer r.arrivals with
  | (_, .timedOut elapsedSecs, reader) => (.timedOut elapsedSecs, reader)
  | (bytes, _, reader) => (.ofBytes bytes, reader)

/-- The bytes and timeouts that are left, one by one. -/
def items (r : BufReader) : List Item :=
  r.buffer.map .byte ++ r.arrivals.flatMap fun
    | .bytes first rest => .byte first :: rest.map .byte
    | .timeout elapsedSecs => [.tick elapsedSecs]

/-- What `read_until` has done with the items. -/
inductive Taken (items : List Item) : List UInt8 × Stop × BufReader → Prop where
  | delimiter (front : List UInt8) (reader : BufReader) (hfront : ∀ b ∈ front, b ≠ 10)
      (hitems : items = front.map .byte ++ .byte 10 :: reader.items) :
      Taken items (front ++ [10], .delimiter, reader)
  | endOfStream (front : List UInt8) (reader : BufReader) (hfront : ∀ b ∈ front, b ≠ 10)
      (hitems : items = front.map .byte) (hrest : reader.items = []) :
      Taken items (front, .endOfStream, reader)
  | timedOut (front : List UInt8) (reader : BufReader) (elapsedSecs : Nat)
      (hfront : ∀ b ∈ front, b ≠ 10)
      (hitems : items = front.map .byte ++ .tick elapsedSecs :: reader.items) :
      Taken items (front, .timedOut elapsedSecs, reader)

/-- A newline in the buffer ends `read_until`. -/
theorem read_until_newline {buffer rest : List UInt8} {newline : UInt8}
    (hdrop : buffer.dropWhile (· ≠ 10) = newline :: rest) (arrivals : List Arrival) :
    newline = 10 ∧ readUntil buffer arrivals =
      (buffer.takeWhile (· ≠ 10) ++ [newline], .delimiter, ⟨rest, arrivals⟩) := by
  constructor
  · have hhead := List.head?_dropWhile_not (· ≠ (10 : UInt8)) buffer
    rw [hdrop] at hhead
    simpa using hhead
  · rw [readUntil.eq_def, hdrop]

/-- Without one, `read_until` goes on with what happens next. -/
theorem read_until_more {buffer : List UInt8} (hdrop : buffer.dropWhile (· ≠ 10) = [])
    (arrivals : List Arrival) : readUntil buffer arrivals =
      match arrivals with
      | [] => (buffer, .endOfStream, ⟨[], []⟩)
      | .timeout elapsedSecs :: arrivals => (buffer, .timedOut elapsedSecs, ⟨[], arrivals⟩)
      | .bytes first rest :: arrivals =>
          (buffer ++ (readUntil (first :: rest) arrivals).1,
            (readUntil (first :: rest) arrivals).2) := by
  have hfront : buffer.takeWhile (· ≠ 10) = buffer := by
    conv_rhs => rw [← List.takeWhile_append_dropWhile (p := (· ≠ 10)) (l := buffer)]
    rw [hdrop, List.append_nil]
  rw [readUntil.eq_def, hdrop, hfront]

/-- Bytes without a newline come in front of what `read_until` finds behind them. -/
theorem read_until_clean {chunk : List UInt8} (hclean : 10 ∉ chunk) (arrivals : List Arrival) :
    readUntil chunk arrivals = (chunk ++ (readUntil [] arrivals).1, (readUntil [] arrivals).2) := by
  have hdrop : chunk.dropWhile (· ≠ 10) = [] :=
    List.dropWhile_eq_nil_iff.mpr fun b hb => decide_eq_true fun heq => hclean (heq ▸ hb)
  rw [read_until_more hdrop, read_until_more List.dropWhile_nil]
  cases arrivals with
  | nil => simp
  | cons arrival arrivals => cases arrival <;> simp

/-- With a newline among them they are a line and the rest. -/
theorem read_until_line (front rest : List UInt8) (hfront : 10 ∉ front) (arrivals : List Arrival) :
    readUntil (front ++ 10 :: rest) arrivals = (front ++ [10], .delimiter, ⟨rest, arrivals⟩) := by
  have hall : ∀ b ∈ front, decide (b ≠ 10) = true := fun b hb =>
    decide_eq_true fun heq => hfront (heq ▸ hb)
  have hdrop : (front ++ 10 :: rest).dropWhile (· ≠ 10) = 10 :: rest := by
    rw [List.dropWhile_append_of_pos hall, List.dropWhile_cons_of_neg (by simp)]
  have htake : (front ++ 10 :: rest).takeWhile (· ≠ 10) = front := by
    rw [List.takeWhile_append_of_pos hall, List.takeWhile_cons_of_neg (by simp), List.append_nil]
  rw [(read_until_newline hdrop arrivals).2, htake]

/-- Bytes without a newline in front of what `read_until` takes. -/
theorem Taken.prepend {left : List Item} {result : List UInt8 × Stop × BufReader}
    (h : Taken left result) {front : List UInt8} (hfront : ∀ b ∈ front, b ≠ 10) :
    Taken (front.map .byte ++ left) (front ++ result.1, result.2) := by
  cases h with
  | delimiter more reader hmore hitems =>
      rw [← List.append_assoc]
      refine .delimiter _ reader (fun b hb => ?_) (by rw [hitems]; simp)
      exact (List.mem_append.mp hb).elim (hfront b) (hmore b)
  | endOfStream more reader hmore hitems hrest =>
      refine .endOfStream _ reader (fun b hb => ?_) (by rw [hitems]; simp) hrest
      exact (List.mem_append.mp hb).elim (hfront b) (hmore b)
  | timedOut more reader elapsedSecs hmore hitems =>
      refine .timedOut _ reader elapsedSecs (fun b hb => ?_) (by rw [hitems]; simp)
      exact (List.mem_append.mp hb).elim (hfront b) (hmore b)

/-- What `read_until` takes when there is a newline in the buffer. -/
theorem newline_taken {buffer rest : List UInt8} {newline : UInt8}
    (hdrop : buffer.dropWhile (· ≠ 10) = newline :: rest) (arrivals : List Arrival) :
    Taken (items ⟨buffer, arrivals⟩) (readUntil buffer arrivals) := by
  obtain ⟨rfl, heq⟩ := read_until_newline hdrop arrivals
  rw [heq]
  refine .delimiter _ _ (fun b hb => by simpa using List.mem_takeWhile_imp hb) ?_
  have hbuffer := List.takeWhile_append_dropWhile (p := (· ≠ (10 : UInt8))) (l := buffer)
  rw [hdrop] at hbuffer
  have hmap := congrArg (List.map Item.byte) hbuffer
  rw [items, ← hmap]
  simp only [items, List.map_append, List.map_cons, List.append_assoc, List.cons_append]

/-- `read_until` takes the items up to the first newline, timeout or end. -/
theorem read_until_taken (buffer : List UInt8) (arrivals : List Arrival) :
    Taken (items ⟨buffer, arrivals⟩) (readUntil buffer arrivals) := by
  induction arrivals generalizing buffer with
  | nil =>
      cases hdrop : buffer.dropWhile (· ≠ 10) with
      | cons newline rest => exact newline_taken hdrop []
      | nil =>
          rw [read_until_more hdrop]
          exact .endOfStream _ _ (by simpa using List.dropWhile_eq_nil_iff.mp hdrop)
            (by simp [items]) (by simp [items])
  | cons arrival arrivals ih =>
      cases hdrop : buffer.dropWhile (· ≠ 10) with
      | cons newline rest => exact newline_taken hdrop (arrival :: arrivals)
      | nil =>
          have hclean : ∀ b ∈ buffer, b ≠ 10 := by
            simpa using List.dropWhile_eq_nil_iff.mp hdrop
          rw [read_until_more hdrop]
          cases arrival with
          | timeout elapsedSecs => exact .timedOut _ _ elapsedSecs hclean (by simp [items])
          | bytes first rest =>
              have hitems : items ⟨buffer, .bytes first rest :: arrivals⟩ =
                  buffer.map .byte ++ items ⟨first :: rest, arrivals⟩ := by simp [items]
              rw [hitems]
              exact (ih (first :: rest)).prepend hclean

/-- The three ways `read_line` ends: behind a newline, at the end of the stream, at a timeout. -/
inductive LineTaken (r : BufReader) : Prop where
  | newline (front : List UInt8) (reader : BufReader) (hfront : ∀ b ∈ front, b ≠ 10)
      (hline : r.readLine = (.ofBytes (front ++ [10]), reader))
      (hitems : r.items = front.map .byte ++ .byte 10 :: reader.items)
  | endOfStream (front : List UInt8) (reader : BufReader) (hfront : ∀ b ∈ front, b ≠ 10)
      (hline : r.readLine = (.ofBytes front, reader)) (hitems : r.items = front.map .byte)
      (hrest : reader.items = [])
  | timedOut (front : List UInt8) (reader : BufReader) (elapsedSecs : Nat)
      (hfront : ∀ b ∈ front, b ≠ 10) (hline : r.readLine = (.timedOut elapsedSecs, reader))
      (hitems : r.items = front.map .byte ++ .tick elapsedSecs :: reader.items)

theorem line_taken (r : BufReader) : r.LineTaken := by
  have htaken := read_until_taken r.buffer r.arrivals
  generalize hresult : readUntil r.buffer r.arrivals = result at htaken
  cases htaken with
  | delimiter front reader hfront hitems =>
      exact .newline front reader hfront (by rw [readLine, hresult]) hitems
  | endOfStream front reader hfront hitems hrest =>
      exact .endOfStream front reader hfront (by rw [readLine, hresult]) hitems hrest
  | timedOut front reader elapsedSecs hfront hitems =>
      exact .timedOut front reader elapsedSecs hfront (by rw [readLine, hresult]) hitems

/-- Every `read_line` that does not find the end of the stream takes something. -/
theorem read_line_shorter {r reader : BufReader} {result : LineResult}
    (h : r.readLine = (result, reader)) (hne : result ≠ .ok []) :
    reader.items.length < r.items.length := by
  cases r.line_taken with
  | newline front _ _ hline hitems | timedOut front _ _ _ hline hitems =>
      obtain ⟨-, rfl⟩ := Prod.mk.inj (h.symm.trans hline)
      rw [hitems]
      simp only [List.length_append, List.length_cons]
      omega
  | endOfStream front _ _ hline hitems hrest =>
      obtain ⟨rfl, rfl⟩ := Prod.mk.inj (h.symm.trans hline)
      rw [hitems, hrest, List.length_nil, List.length_map]
      refine List.length_pos_of_ne_nil fun hnil => hne ?_
      rw [hnil]
      rfl

end BufReader

/-- The handler of the command `msg` returns `Err`: always if it is a malformed `STREAM`, otherwise
when one of its operations fails, which is what `fails` says, given the commands dispatched so far
and this one. -/
def ReturnsErr (fails : List Str → Bool) (history : List Str) (msg : Str) : Prop :=
  Handler.Malformed msg ∨ fails (history ++ [msg]) = true

instance (fails : List Str → Bool) (history : List Str) (msg : Str) :
    Decidable (ReturnsErr fails history msg) :=
  inferInstanceAs (Decidable (_ ∨ _))

/-- The loop of `handle_connection` as far as commands are concerned: the trimmed lines that it
dispatches, `history` being those dispatched so far. -/
def handleConnection (fails : List Str → Bool) (history : List Str) (r : BufReader) : List Str :=
  match _ : r.readLine with
  | (.ok [], _) => []
  | (.ok (c :: line), reader) =>
      let msg := Text.trim (c :: line)
      if msg = [] then handleConnection fails history reader
      else if ReturnsErr fails history msg then [msg]
      else msg :: handleConnection fails (history ++ [msg]) reader
  | (.timedOut elapsedSecs, reader) =>
      if Defs.clientKeepAliveSec < elapsedSecs then []
      else handleConnection fails history reader
  | (.failed, _) => []
termination_by r.items.length
decreasing_by all_goals exact BufReader.read_line_shorter (by assumption) (by simp)

end QuoteStreamer
