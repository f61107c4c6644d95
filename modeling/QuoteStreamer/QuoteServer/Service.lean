import QuoteStreamer.Lib.PubSub
import QuoteStreamer.QuoteServer.Passes

/-!
# The server is a publish/subscribe service

The mutex around the registry, the lock of the quotes, the channels and the threads of the clients
refine the service of `PubSub`, in which everything happens at once. `seen` says what a step shows:
a client enters the registry or leaves it, a pass begins, a callback is invoked or panics, and
`remove_client` returns. The whole of a pass shows at its lock, the whole of an update at the
release of the write guard. `Serves` relates the states; every observable trace of the server is
one of the service.
-/

namespace QuoteStreamer

open PubSub (Subscription Service)
open Simulation (Observes Simulates)

/-- The tickers left in the round that the thread is in. -/
def LoopPoint.tickersLeft : LoopPoint → Option (List Str)
  | .round rest => some rest
  | _ => none

namespace Server

variable {s t : Server} {x : Service Nat Str Message} {action : Action} {k : Caller} {slot : Nat}

/-- What a step shows of the service. -/
def seen (s : Server) : Action → List (PubSub.Event Nat Str Message)
  | .caller k =>
      match s.callers k with
      | .addInsert client =>
          let inserted := [PubSub.Event.subscribed (client.tx.getD 0) client.tickers]
          match s.clients.lookup s.clientsCount with
          | some old => .cancelled (old.tx.getD 0) :: inserted
          | none => inserted
      | .removeTake id =>
          match s.clients.lookup id with
          | some client => [.cancelled (client.tx.getD 0)]
          | none => []
      | .unlock (.removed _ (some slot) _) => [.left slot]
      | _ => []
  | .client t result =>
      match (s.threads t).point with
      | .round (ticker :: _) =>
          match s.quotes.lookup ticker with
          | some q => .delivered t ticker q.message :: if result = .panic then [.failed t] else []
          | none => []
      | _ => []
  | .background b _ =>
      match s.background b with
      | .notifyLock => [.published]
      | _ => []
  | _ => []

/-- The board of the service: for each ticker of the map, the message that a callback would get. -/
def board (s : Server) (ticker : Str) : Option Message :=
  (s.quotes.lookup ticker).map StockQuote.message

/-- No client with this slot was ever inserted: its thread is not spawned yet, or a caller is about
to insert it. -/
def Absent (s : Server) (slot : Nat) : Prop :=
  s.spawned ≤ slot ∨ ∃ k client, s.callers k = .addInsert client ∧ client.Drives slot

/-- The subscription of the client thread with this slot. -/
inductive Subscribed (s : Server) (slot : Nat) : Option (Subscription Str) → Prop where
  | absent (habsent : s.Absent slot) (hlive : live slot s.history = false)
      (hpasses : passes slot s.history = 0) (hrounds : (s.threads slot).rounds = [])
      (hcalm : (s.threads slot).panicked = false) : Subscribed s slot none
  | present (sub : Subscription Str) (hpresent : ¬ s.Absent slot)
      (htopics : sub.topics = (s.threads slot).tickers)
      (hactive : sub.active = live slot s.history)
      (hround : sub.round = (s.threads slot).point.tickersLeft)
      (hfailed : sub.failed = (s.threads slot).panicked)
      (howed : (s.threads slot).panicked = false → s.poisoned = false →
        sub.owed + (s.threads slot).rounds.length = passes slot s.history) :
      Subscribed s slot (some sub)

/-- The service that the server provides. While the quotes are being written, the board still shows
the quotes from before. -/
structure Serves (s : Server) (x : Service Nat Str Message) : Prop where
  board : s.writer = none → x.board = s.board
  topics : ∀ ticker, (x.board ticker).isSome = (s.board ticker).isSome
  broken : x.broken = s.poisoned
  subs : ∀ slot, s.Subscribed slot (x.subs slot)

/-! ## Steps that the service does not see -/

/-- What the service sees of a thread has not changed. -/
structure Alike (th after : ClientThread) : Prop where
  tickers : after.tickers = th.tickers
  left : after.point.tickersLeft = th.point.tickersLeft
  rounds : after.rounds = th.rounds
  panicked : after.panicked = th.panicked

theorem Alike.refl (th : ClientThread) : Alike th th :=
  ⟨rfl, rfl, rfl, rfl⟩

section Alike

variable {threads after : Threads} {th : ClientThread} {client : Client} {cmd : ClientCommand}
  {version : Nat}

theorem alike_update (h : Alike (threads slot) th) (i : Nat) :
    Alike (threads i) (Function.update threads slot th i) := by
  by_cases hi : i = slot
  · subst hi
    rw [Function.update_self]
    exact h
  · rw [Function.update_of_ne hi]
    exact .refl _

theorem alike_try_send (h : client.trySend cmd version threads = .ok after) (i : Nat) :
    Alike (threads i) (after i) := by
  obtain ⟨tx, -, -, rfl⟩ := Client.try_send_eq_ok h
  have hpush : Alike (threads tx) ((threads tx).push cmd version) := ⟨rfl, rfl, rfl, rfl⟩
  exact alike_update hpush i

theorem alike_send_ignored (i : Nat) :
    Alike (threads i) (client.sendIgnored cmd version threads i) := by
  unfold Client.sendIgnored
  cases h : client.trySend cmd version threads with
  | ok after => exact alike_try_send h i
  | error e => exact .refl _

theorem alike_drop_sender (i : Nat) : Alike (threads i) (client.dropSender threads i) := by
  unfold Client.dropSender
  cases client.tx with
  | none => exact .refl _
  | some tx =>
      have hdisconnect : Alike (threads tx) (threads tx).disconnect := ⟨rfl, rfl, rfl, rfl⟩
      exact alike_update hdisconnect i

end Alike

/-- Nothing that this subscription depends on has changed. -/
theorem Subscribed.keep {entry : Option (Subscription Str)} (h : s.Subscribed slot entry)
    (hlive : live slot t.history = live slot s.history)
    (hpasses : passes slot t.history = passes slot s.history)
    (hpoisoned : t.poisoned = false → s.poisoned = false) (habsent : t.Absent slot ↔ s.Absent slot)
    (halike : Alike (s.threads slot) (t.threads slot)) : t.Subscribed slot entry := by
  cases h with
  | absent hfresh hdead hzero hrounds hcalm =>
      exact .absent (habsent.mpr hfresh) (hlive.trans hdead) (hpasses.trans hzero)
        (halike.rounds.trans hrounds) (halike.panicked.trans hcalm)
  | present sub hpresent htopics hactive hround hfailed howed =>
      refine .present sub (fun h => hpresent (habsent.mp h)) (htopics.trans halike.tickers.symm)
        (hactive.trans hlive.symm) (hround.trans halike.left.symm)
        (hfailed.trans halike.panicked.symm) fun hcalm hsound => ?_
      rw [halike.rounds, hpasses]
      exact howed (halike.panicked.symm.trans hcalm) (hpoisoned hsound)

/-- A caller moves, but not to or from the point where it inserts a client. -/
theorem absent_move {call : Call} (hspawned : t.spawned = s.spawned)
    (hcallers : t.callers = Function.update s.callers k call)
    (hthen : ∀ client, s.callers k ≠ .addInsert client) (hnow : ∀ client, call ≠ .addInsert client)
    (slot : Nat) : t.Absent slot ↔ s.Absent slot := by
  unfold Absent
  rw [hspawned, hcallers]
  refine or_congr_right ⟨?_, ?_⟩
  · rintro ⟨j, client, hj, hdrives⟩
    rcases Locks.moved_cases hj with ⟨-, hmoved⟩ | ⟨-, hstayed⟩
    · exact absurd hmoved (hnow client)
    · exact ⟨j, client, hstayed, hdrives⟩
  · rintro ⟨j, client, hj, hdrives⟩
    exact ⟨j, client, Locks.stays hj (hthen client), hdrives⟩

theorem board_congr (h : t.quotes = s.quotes) : t.board = s.board := by
  unfold board
  rw [h]

/-- A step that shows nothing and changes nothing that the service depends on. -/
theorem Serves.keep (h : s.Serves x) (hquotes : t.quotes = s.quotes)
    (hwriter : t.writer = none → s.writer = none) (hpoisoned : t.poisoned = s.poisoned)
    (hhistory : t.history = s.history) (habsent : ∀ slot, t.Absent slot ↔ s.Absent slot)
    (halike : ∀ slot, Alike (s.threads slot) (t.threads slot)) : t.Serves x where
  board hfree := (h.board (hwriter hfree)).trans (board_congr hquotes).symm
  topics ticker := by
    rw [board_congr hquotes]
    exact h.topics ticker
  broken := h.broken.trans hpoisoned.symm
  subs slot := (h.subs slot).keep (by rw [hhistory]) (by rw [hhistory])
    (fun hsound => hpoisoned.symm.trans hsound) (habsent slot) (halike slot)

/-- A caller moves, and no thread, no quote and nothing of the registry's history changes. -/
theorem Serves.move {call : Call} (h : s.Serves x) (hquotes : t.quotes = s.quotes)
    (hwriter : t.writer = s.writer) (hpoisoned : t.poisoned = s.poisoned)
    (hhistory : t.history = s.history) (hspawned : t.spawned = s.spawned)
    (hcallers : t.callers = Function.update s.callers k call)
    (hthen : ∀ client, s.callers k ≠ .addInsert client) (hnow : ∀ client, call ≠ .addInsert client)
    (halike : ∀ slot, Alike (s.threads slot) (t.threads slot)) : t.Serves x :=
  h.keep hquotes (fun hfree => hwriter.symm.trans hfree) hpoisoned hhistory
    (absent_move hspawned hcallers hthen hnow) halike

/-- A client thread is spawned, which nobody is subscribed for yet. -/
theorem serves_spawn (h : s.Serves x) {tickers : List Str}
    {callback : Callback} (hat : s.callers k = .addStart tickers callback) :
    ({ s with
      threads := Function.update s.threads s.spawned (.spawn tickers callback)
      spawned := s.spawned + 1 }.setCall k
        (.addInsert ((Client.new tickers callback).start s.spawned))).Serves x where
  board := h.board
  topics := h.topics
  broken := h.broken
  subs slot := by
    by_cases hnew : slot = s.spawned
    · subst hnew
      have hentry := h.subs s.spawned
      generalize x.subs s.spawned = entry at hentry ⊢
      cases hentry with
      | absent habsent hlive hpasses hrounds hcalm =>
          refine .absent (.inr ⟨k, _, set_call_self .., Client.start_drives ..⟩) hlive hpasses
            ?_ ?_ <;> simp [setCall, ClientThread.spawn]
      | present sub hpresent => exact absurd (.inl le_rfl) hpresent
    · refine (h.subs slot).keep rfl rfl id ?_ (by simpa [setCall, hnew] using Alike.refl _)
      unfold Absent
      constructor
      · rintro (hfresh | ⟨j, client, hj, hdrives⟩)
        · exact .inl (Nat.le_of_succ_le hfresh)
        · rcases Locks.moved_cases hj with ⟨-, hmoved⟩ | ⟨-, hstayed⟩
          · cases hmoved
            exact absurd (hdrives.slot_eq (Client.start_drives ..)) hnew
          · exact .inr ⟨j, client, hstayed, hdrives⟩
      · rintro (hfresh | ⟨j, client, hj, hdrives⟩)
        · exact .inl (Nat.lt_of_le_of_ne hfresh (Ne.symm hnew))
        · exact .inr ⟨j, client, Locks.stays hj (by rw [hat]; simp), hdrives⟩

/-! ## Subscriptions begin and end -/

/-- Only one caller is about to insert a client, and when it has, that slot is not absent any
more. -/
theorem absent_insert (hlocks : s.LocksHeld) {client : Client}
    (hat : s.callers k = .addInsert client) (hdrives : client.Drives slot)
    (hbound : slot < s.spawned) {call : Call} (hspawned : t.spawned = s.spawned)
    (hcallers : t.callers = Function.update s.callers k call)
    (hcall : ∀ client, call ≠ .addInsert client) (i : Nat) :
    t.Absent i ↔ s.Absent i ∧ i ≠ slot := by
  have honly : ∀ {j : Caller} {other : Client}, s.callers j = .addInsert other → j = k := by
    intro j other hj
    by_contra hne
    have hnot := hlocks.other_not_holding (k := k) (by rw [hat]; rfl) hne
    rw [hj] at hnot
    cases hnot
  unfold Absent
  rw [hspawned, hcallers]
  constructor
  · rintro (hfresh | ⟨j, other, hj, hother⟩)
    · exact ⟨.inl hfresh, by omega⟩
    · rcases Locks.moved_cases hj with ⟨-, hmoved⟩ | ⟨hne, hstayed⟩
      · exact absurd hmoved (hcall other)
      · exact absurd (honly hstayed) hne
  · rintro ⟨hfresh | ⟨j, other, hj, hother⟩, hne⟩
    · exact .inl hfresh
    · obtain rfl := honly hj
      rw [hat] at hj
      cases hj
      exact absurd (hother.slot_eq hdrives) hne

/-- Who is live is subscribed. -/
theorem Serves.live_some (h : s.Serves x) (hlive : live slot s.history = true) :
    ∃ sub, x.subs slot = some sub := by
  have hentry := h.subs slot
  generalize x.subs slot = entry at hentry ⊢
  cases hentry with
  | absent _ hdead =>
      rw [hlive] at hdead
      cases hdead
  | present sub => exact ⟨sub, rfl⟩

/-- The subscription of one slot is replaced. -/
theorem Serves.put (h : s.Serves x) (hboard : t.board = s.board) (hwriter : t.writer = s.writer)
    (hpoisoned : t.poisoned = s.poisoned) {sub : Subscription Str}
    (hself : t.Subscribed slot (some sub))
    (hother : ∀ i, i ≠ slot → s.Subscribed i (x.subs i) → t.Subscribed i (x.subs i)) :
    t.Serves (x.put slot sub) where
  board hfree := (h.board (hwriter.symm.trans hfree)).trans hboard.symm
  topics ticker := by
    rw [hboard]
    exact h.topics ticker
  broken := h.broken.trans hpoisoned.symm
  subs i := by
    show t.Subscribed i (Function.update x.subs slot (some sub) i)
    by_cases hi : i = slot
    · subst hi
      rw [Function.update_self]
      exact hself
    · rw [Function.update_of_ne hi]
      exact hother i hi (h.subs i)

section Registry

variable (hthreads : t.threads = s.threads) (hquotes : t.quotes = s.quotes)
  (hwriter : t.writer = s.writer) (hpoisoned : t.poisoned = s.poisoned)
include hthreads hquotes hwriter hpoisoned

/-- The client of a live slot leaves the registry. -/
theorem serves_cancel (h : s.Serves x) {id : UInt64} (hlive : live slot s.history = true)
    (hhistory : t.history = .removed id slot :: s.history ∨
      t.history = .replaced id slot :: s.history)
    (habsent : ∀ i, t.Absent i ↔ s.Absent i) :
    ∃ x', x.Step [.cancelled slot] x' ∧ t.Serves x' := by
  obtain ⟨sub, hat⟩ := h.live_some hlive
  have hself := h.subs slot
  have halike : ∀ i, Alike (s.threads i) (t.threads i) := fun i => by
    rw [hthreads]
    exact .refl _
  have hpasses : ∀ i, passes i t.history = passes i s.history := fun i => by
    rcases hhistory with hhistory | hhistory <;> rw [hhistory] <;> rfl
  rw [hat] at hself
  refine ⟨_, .cancel slot sub hat, h.put (board_congr hquotes) hwriter hpoisoned ?_ ?_⟩
  · cases hself with
    | present _ hpresent htopics hactive hround hfailed howed =>
        refine .present _ (fun h => hpresent ((habsent slot).mp h)) ?_ ?_ ?_ ?_
          fun hcalm hsound => ?_
        · rw [hthreads, htopics]
        · rcases hhistory with hhistory | hhistory <;> simp [hhistory, live]
        · rw [hthreads, hround]
        · rw [hthreads, hfailed]
        · rw [hthreads, hpasses]
          exact howed (by rw [← hthreads]; exact hcalm) (hpoisoned.symm.trans hsound)
  · intro i hi hentry
    refine hentry.keep ?_ (hpasses i) (fun hsound => hpoisoned.symm.trans hsound) (habsent i)
      (halike i)
    rcases hhistory with hhistory | hhistory <;> rw [hhistory] <;> simp [live, Ne.symm hi]

/-- The client of an absent slot enters the registry. -/
theorem serves_enter (h : s.Serves x) (hcoherent : ∀ rest, (s.threads slot).point = .round rest →
      (s.threads slot).rounds ≠ []) {id : UInt64} {tickers : List Str}
    (htickers : (s.threads slot).tickers = tickers)
    (hhistory : t.history = .added k id slot :: s.history)
    (hslot : s.Absent slot) (habsent : ∀ i, t.Absent i ↔ s.Absent i ∧ i ≠ slot) :
    ∃ x', x.Step [.subscribed slot tickers] x' ∧ t.Serves x' := by
  have hself := h.subs slot
  generalize hat : x.subs slot = entry at hself
  cases hself with
  | present _ hpresent => exact absurd hslot hpresent
  | absent _ _ hzero hrounds hcalm =>
      have hleft : (s.threads slot).point.tickersLeft = none := by
        cases hpoint : (s.threads slot).point with
        | round rest => exact absurd hrounds (hcoherent rest hpoint)
        | _ => rfl
      refine ⟨_, .subscribe slot tickers hat, h.put (board_congr hquotes) hwriter hpoisoned ?_ ?_⟩
      · refine .present _ (fun h => ((habsent slot).mp h).2 rfl) ?_ ?_ ?_ ?_ fun _ _ => ?_
        · rw [hthreads, htickers]
          rfl
        · simp [hhistory, live, Subscription.fresh]
        · rw [hthreads, hleft]
          rfl
        · rw [hthreads, hcalm]
          rfl
        · rw [hthreads, hrounds, hhistory]
          exact hzero.symm
      · intro i hi hentry
        refine hentry.keep ?_ (by rw [hhistory]; rfl) (fun hsound => hpoisoned.symm.trans hsound)
          ((habsent i).trans (and_iff_left hi)) (by rw [hthreads]; exact .refl _)
        rw [hhistory]
        simp [live, Ne.symm hi]

end Registry

/-! ## Rounds -/

/-- A thread changes what the service sees of it, and its subscription does so too. -/
theorem serves_thread (h : s.Serves x) {sub sub' : Subscription Str} {th : ClientThread}
    {readers : List Nat} (hat : x.subs slot = some sub)
    (htickers : th.tickers = (s.threads slot).tickers)
    (htopics : sub'.topics = sub.topics) (hactive : sub'.active = sub.active)
    (hround : sub'.round = th.point.tickersLeft) (hfailed : sub'.failed = th.panicked)
    (howed : th.panicked = false → (s.threads slot).panicked = false ∧
      sub'.owed + th.rounds.length = sub.owed + (s.threads slot).rounds.length) :
    ({ s with readers := readers }.setThread slot th).Serves (x.put slot sub') := by
  refine h.put (t := { s with readers := readers }.setThread slot th) rfl rfl rfl ?_
    fun i hi hentry => ?_
  · have hself := h.subs slot
    rw [hat] at hself
    cases hself with
    | present _ hpresent htopics' hactive' _ _ howed' =>
        have hthread : ({ s with readers := readers }.setThread slot th).threads slot = th :=
          Function.update_self ..
        refine .present _ hpresent ?_ (hactive.trans hactive') ?_ ?_ fun hcalm hsound => ?_ <;>
          rw [hthread] at *
        · rw [htopics, htopics', htickers]
        · exact hround
        · exact hfailed
        · obtain ⟨hbefore, hsame⟩ := howed hcalm
          exact hsame.trans (howed' hbefore hsound)
  · refine hentry.keep rfl rfl id Iff.rfl ?_
    have hsame : ({ s with readers := readers }.setThread slot th).threads i = s.threads i :=
      Function.update_of_ne hi ..
    rw [hsame]
    exact .refl _

/-- A round begins only for a pass that the client has not had its round for. -/
theorem rounds_lt_passes (hbacklog : (s.threads slot).Backlog s.poisoned)
    (hsnapshots : (s.threads slot).Snapshots) (hledger : s.Ledger) {enqueued : Nat}
    (hat : (s.threads slot).point = .readLock enqueued) (hsound : s.poisoned = false) :
    (s.threads slot).rounds.length < passes slot s.history := by
  have hlooping : (s.threads slot).point.looping = true := by rw [hat]; rfl
  have hcalm := hsnapshots.alive hlooping
  obtain ⟨before, hsent, hnone, hlength⟩ := hbacklog.queued hlooping
  have htaken : before.length = (s.threads slot).rounds.length + 1 := by
    simpa [ClientThread.taken, hat] using hlength hsound
  have hupdates : before.length ≤ (s.threads slot).updates := by
    rw [ClientThread.updates, hsent, List.count_append, ClientThread.count_update hnone]
    exact Nat.le_add_right _ _
  by_cases hpending : s.Pending slot
  · have howing := hledger.owing slot hcalm hpending
    omega
  · have hsettled := hledger.settled slot hcalm hpending
    omega

/-- A thread in a round is the one of a subscription in that round. -/
theorem Serves.in_round (h : s.Serves x) (hcoherent : s.Coherent) {rest : List Str}
    (hat : (s.threads slot).point = .round rest) :
    ∃ sub, x.subs slot = some sub ∧ sub.round = some rest ∧ sub.failed = false ∧
      (s.threads slot).panicked = false := by
  have hcalm := (hcoherent.threads slot).alive (by rw [hat]; rfl)
  obtain ⟨now, older, hrounds, -⟩ := hcoherent.reading slot _ hat
  have hself := h.subs slot
  generalize x.subs slot = entry at hself ⊢
  cases hself with
  | absent _ _ _ hnone =>
      rw [hrounds] at hnone
      cases hnone
  | present sub _ _ _ hround hfailed =>
      exact ⟨sub, rfl, hround.trans (by rw [hat]; rfl), hfailed.trans hcalm, hcalm⟩

/-- The read guard is obtained: the subscription opens a round that it is owed. -/
theorem begin_answer (h : s.Serves x) (hbacklog : (s.threads slot).Backlog s.poisoned)
    (hsnapshots : (s.threads slot).Snapshots) (hledger : s.Ledger) {enqueued : Nat}
    (hat : (s.threads slot).point = .readLock enqueued) (hsound : s.poisoned = false) :
    ∃ x', x.Step [] x' ∧ ({ s with readers := slot :: s.readers }.setThread slot
      ((s.threads slot).beginRound enqueued s.quotes s.version)).Serves x' := by
  have hcalm := hsnapshots.alive (by rw [hat]; rfl)
  have hless := rounds_lt_passes hbacklog hsnapshots hledger hat hsound
  have hself := h.subs slot
  generalize hentry : x.subs slot = entry at hself
  cases hself with
  | absent _ _ hzero => omega
  | present sub _ htopics hactive hround hfailed howed =>
      have hbalance := howed hcalm hsound
      obtain ⟨count, hcount⟩ : ∃ count, sub.owed = count + 1 :=
        Nat.exists_eq_succ_of_ne_zero (by omega)
      rw [hat] at hround
      refine ⟨_, .openRound slot sub count hentry hcount hround (hfailed.trans hcalm)
        (h.broken.trans hsound), serves_thread h hentry rfl rfl rfl ?_ ?_ fun _ => ⟨hcalm, ?_⟩⟩
      · rw [htopics]
        rfl
      · exact hfailed
      · simp only [ClientThread.beginRound, List.length_cons]
        omega

/-- One iteration of the ticker loop: an item is delivered, and a callback that panics breaks the
subscription off; or the board does not have the ticker. -/
theorem process_answer (h : s.Serves x) (hlocks : s.LocksHeld) (hcoherent : s.Coherent)
    {ticker : Str} {rest : List Str} {result : CallbackResult} {readers : List Nat}
    (hat : (s.threads slot).point = .round (ticker :: rest)) :
    ∃ x', Observes Service.Step x (s.seen (.client slot result)) x' ∧
      ({ s with readers := readers }.setThread slot
        ((s.threads slot).processTicker ticker rest s.quotes s.version result)).Serves x' := by
  obtain ⟨sub, hentry, hround, hfailed, hcalm⟩ := h.in_round hcoherent hat
  have hfree : s.writer = none := by
    by_contra hwriter
    have hreading := (hlocks.readers slot).mpr (by rw [hat]; rfl)
    rw [hlocks.excluded hwriter] at hreading
    cases hreading
  have hboard : x.board ticker = s.board ticker := congrFun (h.board hfree) ticker
  simp only [seen, hat, ClientThread.processTicker]
  cases hq : s.quotes.lookup ticker with
  | none =>
      have hnone : x.board ticker = none := by rw [hboard, board, hq]; rfl
      exact ⟨_, .single (.pass slot sub ticker rest hentry hround hnone),
        serves_thread h hentry rfl rfl rfl rfl (hfailed.trans hcalm.symm) fun _ => ⟨hcalm, rfl⟩⟩
  | some q =>
      have hitem : x.board ticker = some q.message := by rw [hboard, board, hq]; rfl
      have hdeliver := Service.Step.deliver slot sub ticker rest q.message hentry hround hitem
      by_cases hpanic : result = .panic
      · subst hpanic
        refine ⟨_, .head hdeliver (.single (.fail slot _ rest (Service.subs_put_self ..) rfl)), ?_⟩
        rw [Service.put_put]
        refine serves_thread h hentry rfl rfl rfl rfl (by simp) fun hcalm => ?_
        simp at hcalm
      · simp only [hpanic, if_false]
        refine ⟨_, .single hdeliver, serves_thread h hentry rfl rfl rfl rfl ?_ fun _ => ⟨hcalm, ?_⟩⟩
        · simp [hfailed, hcalm]
        · simp [ClientThread.length_record_call]

/-- The read guard is dropped. -/
theorem end_answer (h : s.Serves x) (hcoherent : s.Coherent)
    (hat : (s.threads slot).point = .round []) {readers : List Nat} :
    ∃ x', x.Step [] x' ∧
      ({ s with readers := readers }.setThread slot (s.threads slot).endRound).Serves x' := by
  obtain ⟨sub, hentry, hround, hfailed, hcalm⟩ := h.in_round hcoherent hat
  exact ⟨_, .closeRound slot sub hentry hround,
    serves_thread h hentry rfl rfl rfl rfl (hfailed.trans hcalm.symm) fun _ => ⟨hcalm, rfl⟩⟩

/-! ## Every step is answered -/

/-- The service answers a step of the server with the events that the step shows. -/
def Reflected (s : Server) (x : Service Nat Str Message) (action : Action) (t : Server) : Prop :=
  ∃ x', Observes Service.Step x (s.seen action) x' ∧ t.Serves x'

theorem reflected_silent (hseen : s.seen action = []) (h : t.Serves x) :
    Reflected s x action t :=
  ⟨x, by rw [hseen]; exact .refl, h⟩

/-- A thread in a round has begun it. -/
theorem Coherent.begun (h : s.Coherent) {rest : List Str}
    (hat : (s.threads slot).point = .round rest) : (s.threads slot).rounds ≠ [] := by
  obtain ⟨now, older, hrounds, -⟩ := h.reading slot rest hat
  rw [hrounds]
  exact List.cons_ne_nil _ _

/-- A client is inserted under a new id. -/
theorem insert_answer (h : s.Serves x) (hlocks : s.LocksHeld) (hcustody : s.Custody)
    (hcoherent : s.Coherent) {client : Client} (hat : s.callers k = .addInsert client)
    (hnew : s.clients.lookup s.clientsCount = none) :
    Reflected s x (.caller k) ({ s with
      clientsCount := s.clientsCount + 1
      clients := s.clients.insert s.clientsCount client
      history := .added k s.clientsCount (client.tx.getD 0) :: s.history }.setCall k
        (.unlock (.added s.clientsCount))) := by
  obtain ⟨slot, hheld, -, -, -, htickers, -⟩ : s.Sound (.addInsert client) := hat ▸ hcustody.calls k
  have htx : client.tx.getD 0 = slot := by rw [hheld.drives.1]; rfl
  obtain ⟨x', hstep, hserves⟩ := serves_enter (s := s) (k := k)
    (t := { s with
      clientsCount := s.clientsCount + 1
      clients := s.clients.insert s.clientsCount client
      history := .added k s.clientsCount (client.tx.getD 0) :: s.history }.setCall k
        (.unlock (.added s.clientsCount))) rfl rfl rfl rfl h (fun _ => hcoherent.begun) htickers
    (show _ = Event.added k s.clientsCount slot :: s.history by rw [htx]; rfl)
    (.inr ⟨k, client, hat, hheld.drives⟩)
    (absent_insert hlocks hat hheld.drives hheld.bound rfl rfl (by simp))
  refine ⟨x', .single ?_, hserves⟩
  simpa only [seen, hat, hnew, htx] using hstep

/-- A client is inserted under an id in use: the old client is cancelled at the same moment. -/
theorem replace_answer (h : s.Serves x) (hlocks : s.LocksHeld) (hcustody : s.Custody)
    (hcoherent : s.Coherent) (hledger : s.Ledger) {client old : Client}
    (hat : s.callers k = .addInsert client) (hold : s.clients.lookup s.clientsCount = some old) :
    Reflected s x (.caller k) ({ s with
      clientsCount := s.clientsCount + 1
      clients := s.clients.insert s.clientsCount client
      history := .added k s.clientsCount (client.tx.getD 0) ::
        .replaced s.clientsCount (old.tx.getD 0) :: s.history }.setCall k
          (.dropSend old (.added s.clientsCount))) := by
  obtain ⟨slot, hheld, -, -, -, htickers, -⟩ : s.Sound (.addInsert client) := hat ▸ hcustody.calls k
  have htx : client.tx.getD 0 = slot := by rw [hheld.drives.1]; rfl
  obtain ⟨oldSlot, hreg⟩ := hcustody.registered _ old hold
  have holdTx : old.tx.getD 0 = oldSlot := by rw [hreg.drives.1]; rfl
  have hlive := (hledger.registered oldSlot).mpr ⟨_, old, hold, hreg.drives⟩
  obtain ⟨y, hcancel, hcancelled⟩ := serves_cancel (s := s)
    (t := { s with history := .replaced s.clientsCount oldSlot :: s.history }) rfl rfl rfl rfl h
    hlive (.inr (Eq.refl (Event.replaced s.clientsCount oldSlot :: s.history))) fun _ => Iff.rfl
  obtain ⟨x', hstep, hserves⟩ := serves_enter (k := k)
    (s := { s with history := .replaced s.clientsCount oldSlot :: s.history })
    (t := { s with
      clientsCount := s.clientsCount + 1
      clients := s.clients.insert s.clientsCount client
      history := .added k s.clientsCount (client.tx.getD 0) ::
        .replaced s.clientsCount (old.tx.getD 0) :: s.history }.setCall k
          (.dropSend old (.added s.clientsCount))) rfl rfl rfl rfl hcancelled
    (fun _ => hcoherent.begun) htickers
    (show _ = Event.added k s.clientsCount slot ::
      .replaced s.clientsCount oldSlot :: s.history by rw [htx, holdTx]; rfl)
    (.inr ⟨k, client, hat, hheld.drives⟩)
    (absent_insert (s := s) hlocks hat hheld.drives hheld.bound rfl rfl (by simp))
  refine ⟨x', ?_, hserves⟩
  simpa only [seen, hat, hold, htx, holdTx, List.cons_append, List.nil_append] using
    Observes.head hcancel (.single hstep)

/-- A client is taken out of the registry. -/
theorem take_answer (h : s.Serves x) (hcustody : s.Custody) (hledger : s.Ledger) {id : UInt64}
    {client : Client} (hat : s.callers k = .removeTake id)
    (hfound : s.clients.lookup id = some client) :
    Reflected s x (.caller k) ({ s with
      clients := s.clients.erase id
      history := .removed id (client.tx.getD 0) :: s.history }.setCall k
        (.removeSend id client)) := by
  obtain ⟨slot, hreg⟩ := hcustody.registered id client hfound
  have htx : client.tx.getD 0 = slot := by rw [hreg.drives.1]; rfl
  have hlive := (hledger.registered slot).mpr ⟨id, client, hfound, hreg.drives⟩
  obtain ⟨x', hstep, hserves⟩ := serves_cancel (s := s)
    (t := { s with
      clients := s.clients.erase id
      history := .removed id (client.tx.getD 0) :: s.history }.setCall k
        (.removeSend id client)) rfl rfl rfl rfl h hlive
    (.inl (show _ = Event.removed id slot :: s.history by rw [htx]; rfl))
    (absent_move rfl rfl (by rw [hat]; simp) (by simp))
  refine ⟨x', .single ?_, hserves⟩
  simpa only [seen, hat, hfound, htx] using hstep

/-- The subscription of a terminated thread is over. -/
theorem Serves.over (h : s.Serves x) (hcustody : s.Custody)
    (hbacklog : (s.threads slot).Backlog s.poisoned) (hledger : s.Ledger)
    (hslot : s.Finished slot) : x.Step [.left slot] x := by
  have hself := h.subs slot
  obtain ⟨hbound, hconnected, hexited⟩ := id hslot
  generalize hentry : x.subs slot = entry at hself
  cases hself with
  | absent habsent =>
      rcases habsent with hfresh | ⟨k, client, hk, hdrives⟩
      · omega
      · obtain ⟨other, hheld, -⟩ : s.Sound (.addInsert client) := hk ▸ hcustody.calls k
        exact absurd (hheld.drives.slot_eq hdrives).symm (hslot.ne_of_connected hheld.connected)
  | present sub _ _ hactive hround hfailed howed =>
      refine .leave slot sub hentry ?_ ?_ ?_
      · rw [hactive, Bool.eq_false_iff, Ne, hledger.registered slot]
        rintro ⟨id, client, hfound, hdrives⟩
        obtain ⟨other, hreg⟩ := hcustody.registered id client hfound
        exact absurd (hreg.drives.slot_eq hdrives).symm (hslot.ne_of_connected hreg.service.1)
      · rw [hround, hexited]
        rfl
      · by_cases hcalm : (s.threads slot).panicked = false
        · by_cases hsound : s.poisoned = false
          · have hrounds := (hbacklog.ended hcalm (by rw [hexited]; rfl)).2 hsound
            have hpasses := finished_balance hcustody hledger hslot hcalm
            have hbalance := howed hcalm hsound
            exact .inr (.inr (by omega))
          · exact .inr (.inl (h.broken.trans (by simpa using hsound)))
        · exact .inl (hfailed.trans (by simpa using hcalm))

/-- A method releases the clients mutex and returns. -/
theorem unlock_answer (h : s.Serves x) (hcustody : s.Custody)
    (hbacklog : ∀ i, (s.threads i).Backlog s.poisoned) (hledger : s.Ledger) {reply : Reply}
    (hat : s.callers k = .unlock reply) :
    Reflected s x (.caller k) ({ s with clientsLock := none }.setCall k (.returned reply)) := by
  have hmoved : ({ s with clientsLock := none }.setCall k (.returned reply)).Serves x :=
    h.move rfl rfl rfl rfl rfl rfl (by rw [hat]; simp) (by simp) fun _ => .refl _
  have hsound : s.Settled reply := by
    have hcall := hcustody.calls k
    rw [hat] at hcall
    exact hcall
  cases reply with
  | removed id recorded result =>
      cases recorded with
      | none => exact reflected_silent (by simp [seen, hat]) hmoved
      | some slot =>
          refine ⟨x, .single ?_, hmoved⟩
          simpa only [seen, hat] using h.over hcustody (hbacklog slot) hledger hsound
  | _ => exact reflected_silent (by simp [seen, hat]) hmoved

/-- While the quotes are being written no subscription is in a round. -/
theorem Serves.idle (h : s.Serves x) (hlocks : s.LocksHeld) (hwriter : s.writer ≠ none) :
    x.Idle := by
  intro slot sub hentry
  have hself := h.subs slot
  rw [hentry] at hself
  cases hself with
  | present _ _ _ _ hround =>
      rw [hround]
      cases hpoint : (s.threads slot).point with
      | round rest =>
          have hreading := (hlocks.readers slot).mpr (by rw [hpoint]; rfl)
          rw [hlocks.excluded hwriter] at hreading
          cases hreading
      | _ => rfl

/-- The thread that writes the quotes is named by their lock. -/
theorem LocksHeld.writer_some (h : s.LocksHeld) {b : Nat} {todo : List Str} {failed : Bool}
    (hat : s.background b = .updating todo failed) : s.writer ≠ none := by
  have hwriting : (s.background b).writing = true := by rw [hat]; rfl
  rw [(h.writer b).mpr hwriting]
  simp

/-- A visit writes one quote under the write guard; the board does not show it yet. -/
theorem serves_visit (h : s.Serves x) (hwriter : s.writer ≠ none) {b : Nat} {key : Str}
    {q new : StockQuote} {point : Background} (hq : s.quotes.lookup key = some q) :
    ({ s with quotes := s.quotes.replace key new }.setBackground b point).Serves x where
  board hfree := absurd hfree hwriter
  topics ticker := by
    rw [h.topics ticker]
    show ((s.quotes.lookup ticker).map StockQuote.message).isSome =
      (((s.quotes.replace key new).lookup ticker).map StockQuote.message).isSome
    rw [InPlace.lookup_replace]
    by_cases hticker : ticker = key
    · subst hticker
      simp [hq]
    · simp [hticker]
  broken := h.broken
  subs slot := (h.subs slot).keep rfl rfl id Iff.rfl (.refl _)

/-- The write guard is released: the board shows the update as a whole. -/
theorem finish_answer (h : s.Serves x) (hlocks : s.LocksHeld) (hwriter : s.writer ≠ none) {b : Nat}
    {point : Background} :
    ∃ x', x.Step [] x' ∧ ({ s with writer := none }.setBackground b point).Serves x' := by
  refine ⟨_, .revise s.board (h.idle hlocks hwriter) fun ticker => (h.topics ticker).symm, ?_⟩
  exact ⟨fun _ => rfl, fun _ => rfl, h.broken, fun slot =>
    (h.subs slot).keep rfl rfl id Iff.rfl (.refl _)⟩

/-- An update panics: the board shows what it has written, and the service is broken. -/
theorem panic_answer (h : s.Serves x) (hlocks : s.LocksHeld) (hwriter : s.writer ≠ none) {b : Nat}
    {point : Background} :
    ∃ x', Observes Service.Step x [] x' ∧
      ({ s with writer := none, poisoned := true }.setBackground b point).Serves x' := by
  have hidle := h.idle hlocks hwriter
  have hrevise : x.Step [] { x with board := s.board } :=
    .revise s.board hidle fun ticker => (h.topics ticker).symm
  refine ⟨_, .head hrevise (.single (.breakDown hidle)), ?_⟩
  exact ⟨fun _ => rfl, fun _ => rfl, rfl, fun slot =>
    (h.subs slot).keep rfl rfl (fun hsound => by cases hsound) Iff.rfl (.refl _)⟩

/-- A pass locks the registry: every client in it is owed one more round. -/
theorem notify_answer (h : s.Serves x) {b : Nat} {point : Background} {holder : Option ThreadId}
    {atLock : Registry} :
    ∃ x', x.Step [.published] x' ∧ ({ s with
      clientsLock := holder
      atLock := atLock
      history := .notified :: s.history }.setBackground b point).Serves x' := by
  refine ⟨_, .publish, h.board, h.topics, h.broken, fun slot => ?_⟩
  have hself := h.subs slot
  show Subscribed _ slot ((x.subs slot).map .notify)
  generalize x.subs slot = entry at hself
  cases hself with
  | absent habsent hlive hpasses hrounds hcalm =>
      refine .absent habsent hlive ?_ hrounds hcalm
      show passes slot (.notified :: s.history) = 0
      rw [passes, hpasses, hlive]
      rfl
  | present sub hpresent htopics hactive hround hfailed howed =>
      cases hat : sub.active with
      | false =>
          rw [Option.map_some, Subscription.notify_inactive hat]
          refine .present _ hpresent htopics hactive hround hfailed fun hcalm hsound => ?_
          show sub.owed + (s.threads slot).rounds.length = passes slot (.notified :: s.history)
          rw [passes, ← hactive, hat]
          exact howed hcalm hsound
      | true =>
          rw [Option.map_some, Subscription.notify_active hat]
          refine .present _ hpresent htopics hactive hround hfailed fun hcalm hsound => ?_
          show sub.owed + 1 + (s.threads slot).rounds.length = passes slot (.notified :: s.history)
          rw [passes, ← hactive, hat, if_pos rfl, ← howed hcalm hsound]
          omega

/-- A thread changes nothing that the service sees. -/
theorem serves_alike (h : s.Serves x) {th : ClientThread} (halike : Alike (s.threads slot) th) :
    (s.setThread slot th).Serves x :=
  h.keep rfl id rfl rfl (fun _ => Iff.rfl) (alike_update halike)

theorem alike_recv {th : ClientThread} (hat : (s.threads slot).point = .recv)
    (hrecv : (s.threads slot).recv = some th) : Alike (s.threads slot) th := by
  have hleft : (s.threads slot).point.tickersLeft = none := by rw [hat]; rfl
  rcases ClientThread.recv_cases hrecv with ⟨_, _, -, rfl⟩ | ⟨_, _, -, rfl⟩ | ⟨-, -, rfl⟩ <;>
    exact ⟨rfl, hleft.symm, rfl, rfl⟩

/-- Every step of the server is answered by the service. -/
theorem move_answer (h : s.Serves x) (hlocks : s.LocksHeld) (hcustody : s.Custody)
    (hbacklog : ∀ i, (s.threads i).Backlog s.poisoned) (hcoherent : s.Coherent) (hledger : s.Ledger)
    (hmove : Move s action t) : Reflected s x action t := by
  have hrefl : ∀ i, Alike (s.threads i) (s.threads i) := fun i => .refl _
  cases hmove with
  | call k request hat =>
      exact reflected_silent rfl (h.move rfl rfl rfl rfl rfl rfl (by rw [hat]; simp)
        (by cases request <;> simp [Request.entry]) hrefl)
  | take k reply hat =>
      exact reflected_silent rfl (h.move rfl rfl rfl rfl rfl rfl (by rw [hat]; simp) (by simp)
        hrefl)
  | addLock k _ _ hat | removeLock k _ hat | removeNone k _ hat hnone | startLock k hat
  | startRunning k hat | startSpawn k hat | startStore k _ hat | shutdownFlag k hat
  | shutdownLock k hat | shutdownTake k _ hat | shutdownNone k hat | shutdownJoin k _ hat
  | removeSendFails k _ _ _ hat =>
      exact reflected_silent (by simp [seen, *]) (h.move rfl rfl rfl rfl rfl rfl
        (by rw [hat]; simp) (by simp) hrefl)
  | addStart k tickers callback hat =>
      exact reflected_silent (by simp [seen, hat]) (serves_spawn h hat)
  | addInsert k client hat hnew => exact insert_answer h hlocks hcustody hcoherent hat hnew
  | addReplace k client old hat hold =>
      exact replace_answer h hlocks hcustody hcoherent hledger hat hold
  | removeTake k id client hat hfound => exact take_answer h hcustody hledger hat hfound
  | removeSend k id client threads hat hsend =>
      exact reflected_silent (by simp [seen, hat]) (h.move rfl rfl rfl rfl rfl rfl
        (by rw [hat]; simp) (by simp) (alike_try_send hsend))
  | removeJoin k id client hat hjoin =>
      exact reflected_silent (by simp [seen, hat]) (h.move rfl rfl rfl rfl rfl rfl
        (by rw [hat]; simp) (by simp) alike_drop_sender)
  | dropSend k client reply hat =>
      exact reflected_silent (by simp [seen, hat]) (h.move rfl rfl rfl rfl rfl rfl
        (by rw [hat]; simp) (by simp) alike_send_ignored)
  | dropJoin k client reply hat hjoin =>
      exact reflected_silent (by simp [seen, hat]) (h.move rfl rfl rfl rfl rfl rfl
        (by rw [hat]; simp) (by simp) alike_drop_sender)
  | unlock k reply hat => exact unlock_answer h hcustody hbacklog hledger hat
  | recv slot result th hat hrecv =>
      exact reflected_silent (by simp [seen, hat]) (serves_alike h (alike_recv hat hrecv))
  | skipRound slot result enqueued hat =>
      exact reflected_silent (by simp [seen, hat])
        (serves_alike h ⟨rfl, by rw [hat]; rfl, rfl, rfl⟩)
  | beginRound slot result enqueued hat hfree hsound =>
      obtain ⟨x', hstep, hserves⟩ :=
        begin_answer h (hbacklog slot) (hcoherent.threads slot) hledger hat hsound
      exact ⟨x', .single (by simpa only [seen, hat] using hstep), hserves⟩
  | processTicker slot result ticker rest hat =>
      exact process_answer h hlocks hcoherent hat
  | endRound slot result hat =>
      obtain ⟨x', hstep, hserves⟩ := end_answer h hcoherent hat
      exact ⟨x', .single (by simpa only [seen, hat] using hstep), hserves⟩
  | dropReceiver slot result hat | terminate slot result hat =>
      exact reflected_silent (by simp [seen, hat])
        (serves_alike h ⟨rfl, by rw [hat]; rfl, rfl, rfl⟩)
  | check b hat | sleep b hat | timeout b hat | notified b hat =>
      exact reflected_silent (by simp [seen, hat]) (h.keep rfl id rfl rfl (fun _ => Iff.rfl) hrefl)
  | tryWrite b hat =>
      exact reflected_silent (by simp [seen, hat]) (h.keep rfl (fun hfree => by cases hfree) rfl rfl
        (fun _ => Iff.rfl) hrefl)
  | visit b key price volume timestamp todo failed q hat hq =>
      exact reflected_silent (by simp [seen, hat]) (serves_visit h (hlocks.writer_some hat) hq)
  | finishUpdate b todo failed hat =>
      obtain ⟨x', hstep, hserves⟩ := finish_answer h hlocks (hlocks.writer_some hat)
      exact ⟨x', .single (by simpa only [seen, hat] using hstep), hserves⟩
  | panic b todo failed hat =>
      obtain ⟨x', hsteps, hserves⟩ := panic_answer h hlocks (hlocks.writer_some hat)
      exact ⟨x', by simpa only [seen, hat] using hsteps, hserves⟩
  | notifyLock b todo hat =>
      obtain ⟨x', hstep, hserves⟩ := notify_answer h
      exact ⟨x', .single (by simpa only [seen, hat] using hstep), hserves⟩
  | notify b _ rest client hat hfound =>
      exact reflected_silent (by simp [seen, hat]) (h.keep rfl id rfl rfl (fun _ => Iff.rfl)
        alike_send_ignored)

theorem serves_init (quotes : Quotes) :
    (init quotes).Serves (Service.init (init quotes).board) where
  board _ := rfl
  topics _ := rfl
  broken := rfl
  subs slot := .absent (.inl (Nat.zero_le slot)) rfl rfl rfl rfl

/-- The server simulates the service. -/
theorem simulates_service (quotes : Quotes) :
    Simulates step seen (init quotes) Service.Step (Service.init (init quotes).board) Serves where
  init := serves_init quotes
  answer hrun h hstep := move_answer h (Reachable.locks_held hrun) (Reachable.custody hrun)
    (Reachable.backlog hrun) (Reachable.coherent hrun) (Reachable.ledger hrun) (step_move hstep)

/-- The removal of the run with one tick returns. -/
def oneTickReturned : List Action :=
  oneTickRemoved ++ [.caller (.other 0)]

/-- What can be seen of that run. -/
def oneTickSeen : List (PubSub.Event Nat Str Message) :=
  [.subscribed 0 [['A']], .published,
    .delivered 0 ['A'] (StockQuote.message ⟨['A'], ⟨7⟩, 2, 5⟩), .cancelled 0, .left 0]

theorem one_tick_traces : ∃ s,
    Transition.Traces step Transition.anyStep seen (init oneQuote) oneTickSeen s ∧
      s.poisoned = false := by
  obtain ⟨s, hrun, hsound⟩ : ∃ s, Transition.run step (init oneQuote) oneTickReturned = some s ∧
      s.poisoned = false := ⟨_, rfl, rfl⟩
  have hseen : Transition.outputs step seen (init oneQuote) oneTickReturned = oneTickSeen := rfl
  have htrace : Transition.Traces step Transition.anyStep seen (init oneQuote) _ s :=
    Transition.traces_of_run hrun fun _ _ _ => trivial
  rw [hseen] at htrace
  exact ⟨s, htrace, hsound⟩

/-- What can be seen of the server, in any run and under any interleaving, can be seen of the
service, and the server is then in a state that provides the service. -/
theorem refines_service {quotes : Quotes} {trace : List (PubSub.Event Nat Str Message)}
    (h : Transition.Traces step Transition.anyStep seen (init quotes) trace s) :
    ∃ x, Observes Service.Step (Service.init (init quotes).board) trace x ∧ s.Serves x :=
  (simulates_service quotes).traces h

theorem refines_service_one_tick :
    ∃ x, Observes Service.Step (Service.init (init oneQuote).board) oneTickSeen x := by
  obtain ⟨s, htrace, -⟩ := one_tick_traces
  obtain ⟨x, hx, -⟩ := refines_service htrace
  exact ⟨x, hx⟩

/-- Callbacks are invoked for the tickers of the client that the server knows, in the order of its
list, over and over: at most once for each pass that found the client in the registry, and exactly
so often by the time that its removal returns, unless a callback or an update has panicked. -/
theorem tickers_delivered {quotes : Quotes} {trace : List (PubSub.Event Nat Str Message)}
    {tickers : List Str}
    (h : Transition.Traces step Transition.anyStep seen (init quotes) trace s)
    (hmem : .subscribed slot tickers ∈ trace) :
    PubSub.topicsDelivered slot trace <+: PubSub.courses (PubSub.publications slot trace)
      (tickers.filter fun ticker => (quotes.lookup ticker).isSome) ∧
    (.left slot ∈ trace → .failed slot ∉ trace → s.poisoned = false →
      PubSub.topicsDelivered slot trace = PubSub.courses (PubSub.publications slot trace)
        (tickers.filter fun ticker => (quotes.lookup ticker).isSome)) := by
  obtain ⟨x, hx, hserves⟩ := (simulates_service quotes).traces h
  obtain ⟨hstarted, hall⟩ := PubSub.topics_delivered hx hmem
  have hknown : (fun ticker => ((init quotes).board ticker).isSome) =
      fun ticker => (quotes.lookup ticker).isSome :=
    funext fun ticker => Option.isSome_map ..
  rw [hknown] at hstarted hall
  exact ⟨hstarted, fun hleft hcalm hsound => hall hleft hcalm (hserves.broken.trans hsound)⟩

theorem tickers_delivered_one_tick :
    PubSub.topicsDelivered 0 oneTickSeen = PubSub.courses 1 [['A']] := by
  obtain ⟨s, htrace, hsound⟩ := one_tick_traces
  have hdelivered := @tickers_delivered _ 0 _ _ [['A']] htrace (by simp [oneTickSeen])
  exact hdelivered.2 (by simp [oneTickSeen]) (by simp [oneTickSeen]) hsound

end Server

end QuoteStreamer
