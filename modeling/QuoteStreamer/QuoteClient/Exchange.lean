import QuoteStreamer.QuoteClient.Connection

/-!
# One request on a connection

What the two directions of a connection can hold while one request is under way on it, and that no
step at the server's end leaves this. The server answers a line with at most one line, and only
when it has read the whole of it, so that nothing is left on the connection once the client has read
the answer.
-/

namespace QuoteStreamer

/-- The origins are those of one request. -/
def Handles (o : Origin) (handling : List Origin) : Prop :=
  handling ≠ [] ∧ ∀ origin ∈ handling, origin = o

namespace Connection

/-- The server has not returned, and these bytes of the request are still to be written. -/
structure Underway (o : Origin) (c : Connection) (todo : List UInt8) : Prop where
  own : ∀ b ∈ c.toServer, b.origin = o
  oneLine : OneLine (c.toServer.map (·.byte) ++ todo)
  busy : c.handler.Busy → Handles o c.handling ∧ c.toServer = [] ∧ todo = [] ∧ c.toClient = []
  answered : c.toClient ≠ [] → c.toServer = [] ∧ todo = []

/-- The only request on the connection is this one. -/
structure Exchange (o : Origin) (c : Connection) (todo : List UInt8) : Prop where
  replies : ∀ b ∈ c.toClient, Handles o b.handling
  oneReply : OneLine (c.toClient.map (·.byte))
  underway : c.handler.Returned ∨ c.Underway o todo

/-- There is no request on the connection. -/
def Quiet (c : Connection) : Prop :=
  c.toClient = [] ∧ (c.handler.Returned ∨ (¬ c.handler.Busy ∧ c.toServer = []))

/-- What a step at the server's end does. -/
inductive Served (c : Connection) : Connection → Prop where
  /-- The handler has read a line. -/
  | line (front rest : List RequestByte) (newline : RequestByte) (result : ReadResult) (now : Nat)
      (h : Handler) (hbytes : c.toServer = front ++ newline :: rest) (hnewline : newline.byte = 10)
      (hstep : c.handler.step (.read result now) = some h) :
      Served c { c with
        handler := h, toServer := rest, handling := (front ++ [newline]).map (·.origin) }
  /-- The handler has read no line, and has lost some bytes. -/
  | dropped (count : Nat) (result : ReadResult) (now : Nat) (h : Handler)
      (hresult : ∀ line, result ≠ .ok line)
      (hstep : c.handler.step (.read result now) = some h) :
      Served c { c with handler := h, toServer := c.toServer.drop count }
  /-- The handler has read the rest of what the client wrote before it dropped the connection. -/
  | ended (result : ReadResult) (now : Nat) (h : Handler) (hclosed : c.closed = true)
      (hstep : c.handler.step (.read result now) = some h) :
      Served c { c with
        handler := h, toServer := [], handling := c.toServer.map (·.origin) }
  /-- The handler has written its reply or the beginning of it. -/
  | wrote (text : Str) (sent : List UInt8) (input : HandlerInput) (h : Handler)
      (hpoint : c.handler.point = .write text) (hsent : sent <+: Text.encode text)
      (hstep : c.handler.step input = some h) (hidle : ¬ h.Busy) :
      Served c { c with handler := h, toClient := c.toClient ++ c.reply sent }
  /-- The handler has gone on without the stream. -/
  | answer (input : HandlerInput) (h : Handler) (hother : input.isOther = true)
      (hstep : c.handler.step input = some h) : Served c { c with handler := h }

variable {c next : Connection} {o : Origin} {todo : List UInt8}

theorem served_of_step {event : ServerEvent}
    (hstep : c.serverStep event = some next) : c.Served next := by
  unfold serverStep at hstep
  split at hstep
  case h_1 now =>
    split at hstep
    case h_1 newline rest hdrop =>
      obtain ⟨h, hhandler, heq⟩ := Option.bind_eq_some_iff.mp hstep
      cases heq
      have hnewline := List.head?_dropWhile_not (·.byte ≠ 10) c.toServer
      rw [hdrop] at hnewline
      have hbytes := List.takeWhile_append_dropWhile (p := (·.byte ≠ 10)) (l := c.toServer)
      rw [hdrop] at hbytes
      exact .line _ rest newline _ now h hbytes.symm (by simpa using hnewline) hhandler
    case h_2 => cases hstep
  case h_2 count now =>
    split at hstep
    · obtain ⟨h, hhandler, heq⟩ := Option.bind_eq_some_iff.mp hstep
      cases heq
      exact .dropped count .timedOut now h nofun hhandler
    · cases hstep
  case h_3 now =>
    split at hstep
    case isTrue hend =>
      obtain ⟨h, hhandler, heq⟩ := Option.bind_eq_some_iff.mp hstep
      cases heq
      exact .ended _ now h (Bool.and_eq_true_iff.mp hend).1 hhandler
    case isFalse => cases hstep
  case h_4 text now =>
    obtain ⟨h, hhandler, heq⟩ := Option.bind_eq_some_iff.mp hstep
    cases heq
    exact .dropped 0 (.failed text) now h nofun hhandler
  case h_5 =>
    split at hstep
    case h_1 text hpoint =>
      obtain ⟨h, hhandler, heq⟩ := Option.bind_eq_some_iff.mp hstep
      cases heq
      exact .wrote text _ _ h hpoint List.prefix_rfl hhandler (Handler.write_step hhandler)
    case h_2 => cases hstep
  case h_6 count error =>
    split at hstep
    case h_1 text hpoint =>
      obtain ⟨h, hhandler, heq⟩ := Option.bind_eq_some_iff.mp hstep
      cases heq
      exact .wrote text _ _ h hpoint (List.take_prefix count _)
        hhandler (Handler.write_step hhandler)
    case h_2 => cases hstep
  case h_7 input =>
    split at hstep
    case isTrue hother =>
      obtain ⟨h, hhandler, heq⟩ := Option.bind_eq_some_iff.mp hstep
      cases heq
      exact .answer input h hother hhandler
    case isFalse => cases hstep

/-- The connection stays with the client, and what the handler writes next is a line. -/
theorem Served.frame (h : c.Served next) : next.closed = c.closed ∧ next.handler.Plain := by
  cases h <;> exact ⟨rfl, Handler.plain_step (by assumption)⟩

theorem quiet_fresh (now : Nat) : (fresh now).Quiet :=
  ⟨rfl, .inr ⟨id, rfl⟩⟩

/-- A new request on a quiet connection. -/
theorem Quiet.exchange (h : c.Quiet) (o : Origin) (htodo : OneLine todo) : c.Exchange o todo := by
  obtain ⟨hclient, hquiet⟩ := h
  refine ⟨by simp [hclient], ?_, hquiet.imp_right fun ⟨hidle, hserver⟩ => ?_⟩
  · rw [hclient]
    exact one_line_nil
  · exact {
      own := by simp [hserver]
      oneLine := by simpa [hserver] using htodo
      busy := fun hbusy => absurd hbusy hidle
      answered := fun hne => absurd hclient hne }

/-- What could belong to any request belongs to none. -/
theorem quiet_of_exchange (h : ∀ o, c.Exchange o []) : c.Quiet := by
  have htwo : ∀ origin : Origin, ¬ ∀ o, origin = o := by
    intro origin hall
    have hsame := (hall ⟨0, 0⟩).symm.trans (hall ⟨1, 0⟩)
    simp at hsame
  have hnone : ∀ handling, ¬ ∀ o, Handles o handling := by
    intro handling hall
    obtain ⟨origin, hmem⟩ := List.exists_mem_of_ne_nil _ (hall ⟨0, 0⟩).1
    exact htwo origin fun o => (hall o).2 origin hmem
  have hclient : c.toClient = [] := by
    rw [List.eq_nil_iff_forall_not_mem]
    exact fun b hb => hnone b.handling fun o => (h o).replies b hb
  refine ⟨hclient, (Classical.em c.handler.Returned).imp_right fun hrunning => ?_⟩
  have hunderway : ∀ o, c.Underway o [] := fun o => (h o).underway.resolve_left hrunning
  refine ⟨fun hbusy => hnone c.handling fun o => ((hunderway o).busy hbusy).1, ?_⟩
  rw [List.eq_nil_iff_forall_not_mem]
  exact fun b hb => htwo b.origin fun o => (hunderway o).own b hb

/-- The client writes the next bytes of the request. -/
theorem Exchange.send {bytes : List UInt8} (h : c.Exchange o (bytes ++ todo)) :
    (c.send o bytes).Exchange o todo := by
  refine ⟨h.replies, h.oneReply, h.underway.imp_right fun hu => ?_⟩
  have hwritten : bytes ++ todo = [] → (c.send o bytes).toServer = c.toServer ∧ todo = [] := by
    intro hnil
    obtain ⟨rfl, rfl⟩ := List.append_eq_nil_iff.mp hnil
    exact ⟨List.append_nil _, rfl⟩
  constructor
  · intro b hb
    rcases List.mem_append.mp hb with hb | hb
    · exact hu.own b hb
    · obtain ⟨byte, -, rfl⟩ := List.mem_map.mp hb
      rfl
  · simpa [Connection.send, Function.comp_def] using hu.oneLine
  · intro hbusy
    obtain ⟨hhandles, hserver, htodo, hclient⟩ := hu.busy hbusy
    obtain ⟨hsame, hnil⟩ := hwritten htodo
    exact ⟨hhandles, hsame.trans hserver, hnil, hclient⟩
  · intro hne
    obtain ⟨hserver, htodo⟩ := hu.answered hne
    obtain ⟨hsame, hnil⟩ := hwritten htodo
    exact ⟨hsame.trans hserver, hnil⟩

/-- No step at the server's end brings in anything of another request. -/
theorem Exchange.served (h : c.Exchange o todo) (hplain : c.handler.Plain)
    (hopen : c.closed = false) (hserved : c.Served next) : next.Exchange o todo := by
  have hrunning : ∀ {input : HandlerInput} {after : Handler},
      c.handler.step input = some after → c.Underway o todo := by
    intro input after hstep
    refine h.underway.resolve_left fun hreturned => ?_
    rw [Handler.returned_no_step hreturned] at hstep
    cases hstep
  cases hserved with
  | line front rest newline result now after hbytes hnewline hstep =>
      have hu := hrunning hstep
      -- the only newline on the way ends the request, so that nothing stands behind it
      have hline := hu.oneLine
      rw [hbytes, List.map_append, List.map_cons, hnewline, List.append_assoc, List.cons_append]
        at hline
      obtain ⟨hrest, htodo⟩ := List.append_eq_nil_iff.mp (hline _ _ rfl)
      obtain rfl : rest = [] := List.map_eq_nil_iff.mp hrest
      subst htodo
      have hclient : c.toClient = [] := by
        by_contra hne
        simp [(hu.answered hne).1] at hbytes
      refine ⟨h.replies, h.oneReply, .inr ⟨by simp, one_line_nil, fun _ => ?_, fun _ => ⟨rfl, rfl⟩⟩⟩
      refine ⟨⟨by simp, fun origin hmem => ?_⟩, rfl, rfl, hclient⟩
      obtain ⟨b, hb, rfl⟩ := List.mem_map.mp hmem
      exact hu.own b (by rw [hbytes]; exact hb)
  | dropped count result now after hresult hstep =>
      have hu := hrunning hstep
      have hidle := Handler.not_busy_step hstep (Handler.read_step hstep).1
        (fun line now' heq => hresult line (HandlerInput.read.inj heq).1)
      refine ⟨h.replies, h.oneReply, .inr ⟨fun b hb => hu.own b (List.mem_of_mem_drop hb), ?_,
        fun hbusy => absurd hbusy hidle, fun hne => ?_⟩⟩
      · have hline := hu.oneLine
        rw [← List.take_append_drop count c.toServer, List.map_append, List.append_assoc] at hline
        exact one_line_suffix hline
      · obtain ⟨hserver, htodo⟩ := hu.answered hne
        exact ⟨by simp [hserver], htodo⟩
  | ended result now after hclosed hstep => simp [hopen] at hclosed
  | wrote text sent input after hpoint hsent hstep hidle =>
      have hu := hrunning hstep
      -- a busy handler has its one request, and what it writes is the one reply
      obtain ⟨hhandles, hserver, htodo, hclient⟩ := hu.busy (by rw [Handler.Busy, hpoint]; trivial)
      obtain ⟨rest, hencode⟩ := hsent
      refine ⟨fun b hb => ?_, ?_, .inr ⟨hu.own, hu.oneLine, fun hbusy => absurd hbusy hidle,
        fun _ => ⟨hserver, htodo⟩⟩⟩
      · rw [hclient, List.nil_append] at hb
        obtain ⟨byte, -, rfl⟩ := List.mem_map.mp hb
        exact hhandles
      · have hline := hplain text hpoint
        rw [← hencode] at hline
        simpa [hclient, reply, Function.comp_def] using one_line_prefix hline
  | answer input after hother hstep =>
      have hu := hrunning hstep
      refine ⟨h.replies, h.oneReply, ?_⟩
      by_cases hbusy : c.handler.Busy
      · exact (Handler.busy_step hstep hbusy hother).symm.imp_right fun _ =>
          ⟨hu.own, hu.oneLine, fun _ => hu.busy hbusy, hu.answered⟩
      · have hidle := Handler.not_busy_step hstep hbusy
          (fun line now heq => by rw [heq] at hother; cases hother)
        exact .inr ⟨hu.own, hu.oneLine, fun h => absurd h hidle, hu.answered⟩

theorem Quiet.served (h : c.Quiet) (hplain : c.handler.Plain) (hopen : c.closed = false)
    (hserved : c.Served next) : next.Quiet :=
  quiet_of_exchange fun o => (h.exchange o one_line_nil).served hplain hopen hserved

/-- `read_line` takes a whole line, or everything that is left. -/
theorem take_line_eq {line : List ReplyByte} (htake : c.takeLine = some (line, next)) :
    ∃ rest, c.toClient = line ++ rest ∧ next = { c with toClient := rest } ∧
      ((∃ front newline, line = front ++ [newline] ∧ newline.byte = 10) ∨
        (rest = [] ∧ c.handler.Returned)) := by
  unfold takeLine at htake
  have hfront := List.takeWhile_append_dropWhile (p := (·.byte ≠ 10)) (l := c.toClient)
  split at htake
  case h_1 newline rest hdrop =>
    cases htake
    have hnewline := List.head?_dropWhile_not (·.byte ≠ 10) c.toClient
    rw [hdrop] at hnewline hfront
    refine ⟨rest, by simpa using hfront.symm, rfl, .inl ⟨_, newline, rfl, by simpa using hnewline⟩⟩
  case h_2 result hdrop hpoint =>
    cases htake
    exact ⟨[], (List.append_nil _).symm, rfl, .inr ⟨rfl, result, hpoint⟩⟩
  case h_3 => cases htake

/-- The client reads the answer to its request, and nothing is left behind it. -/
theorem Exchange.answer {line rest : List ReplyByte} (h : c.Exchange o [])
    (hclient : c.toClient = line ++ rest) (hne : line ≠ [])
    (htaken : (∃ front newline, line = front ++ [newline] ∧ newline.byte = 10) ∨
      (rest = [] ∧ c.handler.Returned)) :
    (∀ b ∈ line, Handles o b.handling) ∧ { c with toClient := rest }.Quiet := by
  have hrest : rest = [] := by
    rcases htaken with ⟨front, newline, rfl, hnewline⟩ | ⟨hrest, -⟩
    · have hline := h.oneReply (front.map (·.byte)) (rest.map (·.byte))
        (by simp [hclient, hnewline])
      exact List.map_eq_nil_iff.mp hline
    · exact hrest
  subst hrest
  rw [List.append_nil] at hclient
  refine ⟨fun b hb => h.replies b (by rw [hclient]; exact hb), rfl,
    h.underway.imp_right fun hu => ?_⟩
  have hanswered : c.toClient ≠ [] := by rwa [hclient]
  exact ⟨fun hbusy => hanswered (hu.busy hbusy).2.2.2, (hu.answered hanswered).1⟩

end Connection

end QuoteStreamer
