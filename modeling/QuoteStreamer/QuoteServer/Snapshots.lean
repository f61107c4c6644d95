import QuoteStreamer.Client.Rounds
import QuoteStreamer.QuoteServer.ThreadSteps

/-!
# Versions of the quotes

The map of quotes gets a new version with every write-locked pass. `Coherent` says that a version
names one content for all readers, that the round in progress reads the current version, and that
no command in a channel was sent after it. With the invariant of the rounds of one thread this
makes every round a consistent snapshot that is not older than its command.
-/

namespace QuoteStreamer.Server

/-- Every round is a consistent snapshot of a version of the map. -/
structure Coherent (s : Server) : Prop where
  threads : ∀ i, (s.threads i).Snapshots
  queued : ∀ i, ∀ q ∈ (s.threads i).queue, q.version ≤ s.version
  received : ∀ i enqueued, (s.threads i).point = .readLock enqueued → enqueued ≤ s.version
  past : ∀ i, ∀ r ∈ (s.threads i).rounds, r.version ≤ s.version
  /-- No round has read the version that a pass is writing. -/
  writing : s.writer ≠ none → ∀ i, ∀ r ∈ (s.threads i).rounds, r.version < s.version
  /-- Outside a pass the map is what the rounds of its version have read. -/
  stable : s.writer = none → s.poisoned = false → ∀ i, ∀ r ∈ (s.threads i).rounds,
    r.version = s.version → r.quotes = s.quotes
  reading : ∀ i rest, (s.threads i).point = .round rest → ∃ now older,
    (s.threads i).rounds = now :: older ∧ now.version = s.version ∧ now.quotes = s.quotes
  unique : ∀ i j, ∀ r ∈ (s.threads i).rounds, ∀ r' ∈ (s.threads j).rounds,
    r.version = r'.version → r.quotes = r'.quotes

/-- What a step can do to the map of quotes and its lock. -/
inductive QuotesMove (s t : Server) : Prop where
  | keep (hquotes : t.quotes = s.quotes) (hversion : t.version = s.version)
      (hwriter : t.writer = s.writer) (hpoisoned : t.poisoned = s.poisoned)
  | lock (hthreads : t.threads = s.threads) (hversion : t.version = s.version + 1)
      (hwriter : t.writer ≠ none) (hreaders : s.readers = [])
  | visit (hthreads : t.threads = s.threads) (hversion : t.version = s.version)
      (hwriting : s.writer ≠ none) (hwriter : t.writer ≠ none)
  | unlock (hthreads : t.threads = s.threads) (hquotes : t.quotes = s.quotes)
      (hversion : t.version = s.version) (hwriting : s.writer ≠ none)

variable {s t : Server} {action : Action} {i : Nat} {th : ClientThread}

/-- A background thread at a point of the update is the writer. -/
theorem LocksHeld.writing (h : s.LocksHeld) {b : Nat} (hat : (s.background b).writing = true) :
    s.writer ≠ none := by
  rw [(h.writer b).mpr hat]
  simp

/-- While somebody writes, nobody reads. -/
theorem LocksHeld.not_reading (h : s.LocksHeld) (hnone : s.readers = []) {rest : List Str} :
    (s.threads i).point ≠ .round rest := by
  intro hat
  have hreader := (h.readers i).mpr (by rw [hat]; rfl)
  rw [hnone] at hreader
  cases hreader

theorem quotes_step (hlocks : s.LocksHeld) (hmove : Move s action t) : QuotesMove s t := by
  cases hmove with
  | tryWrite b hat hwriter hreaders => exact .lock rfl rfl (by simp [setBackground]) hreaders
  | visit b key price volume timestamp todo failed q hat =>
      have hwriting := hlocks.writing (show (s.background b).writing = true by rw [hat]; rfl)
      exact .visit rfl rfl hwriting hwriting
  | finishUpdate b todo failed hat | panic b todo failed hat =>
      exact .unlock rfl rfl rfl
        (hlocks.writing (show (s.background b).writing = true by rw [hat]; rfl))
  | _ => exact .keep rfl rfl rfl rfl

/-! ## Steps of client threads -/

/-- A round after a step was there before, up to its invocations, or reads the current map. -/
theorem ThreadMove.round_origin (h : ThreadMove s i th) {r : Round} (hr : r ∈ th.rounds) :
    (∃ r' ∈ (s.threads i).rounds, r'.version = r.version ∧ r'.quotes = r.quotes) ∨
      (s.writer = none ∧ s.poisoned = false ∧ r.version = s.version ∧ r.quotes = s.quotes) := by
  have hold : r ∈ (s.threads i).rounds →
      ∃ r' ∈ (s.threads i).rounds, r'.version = r.version ∧ r'.quotes = r.quotes :=
    fun hr => ⟨r, hr, rfl, rfl⟩
  cases h with
  | spawn => cases hr
  | update | shutdown => exact .inl (hold (by simpa using hr))
  | recv th hat hrecv =>
      rcases ClientThread.recv_cases hrecv with ⟨_, _, _, rfl⟩ | ⟨_, _, _, rfl⟩ | ⟨_, _, rfl⟩ <;>
        exact .inl (hold hr)
  | beginRound enqueued hat hfree hpoisoned =>
      rcases List.mem_cons.mp hr with rfl | hr
      · exact .inr ⟨hfree, hpoisoned, rfl, rfl⟩
      · exact .inl (hold hr)
  | processTicker result ticker rest hat =>
      unfold ClientThread.processTicker at hr
      split at hr
      · cases hrounds : (s.threads i).rounds with
        | nil =>
            rw [hrounds] at hr
            cases hr
        | cons now older =>
            rw [hrounds] at hr hold
            rcases List.mem_cons.mp hr with rfl | hr
            · exact .inl ⟨now, List.mem_cons_self, rfl, rfl⟩
            · exact .inl (hold (List.mem_cons_of_mem _ hr))
      · exact .inl (hold hr)
  | same | disconnect | skipRound | endRound | dropReceiver | terminate => exact .inl (hold hr)

/-- A command in a channel was there before, or was sent now. -/
theorem ThreadMove.queue_origin (h : ThreadMove s i th) {q : Queued} (hq : q ∈ th.queue) :
    q ∈ (s.threads i).queue ∨ q.version = s.version := by
  have hoffer : ∀ cmd, q ∈ ((s.threads i).offer cmd s.version).queue →
      q ∈ (s.threads i).queue ∨ q.version = s.version := by
    intro cmd hq
    unfold ClientThread.offer at hq
    split at hq
    · rcases List.mem_append.mp hq with hq | hq
      · exact .inl hq
      · obtain rfl := List.mem_singleton.mp hq
        exact .inr rfl
    · exact .inl hq
  cases h with
  | spawn => cases hq
  | update => exact hoffer _ hq
  | shutdown => exact hoffer _ hq
  | recv th hat hrecv =>
      rcases ClientThread.recv_cases hrecv with
        ⟨version, rest, hqueue, rfl⟩ | ⟨version, rest, hqueue, rfl⟩ | ⟨hqueue, _, rfl⟩
      · exact .inl (by rw [hqueue]; exact List.mem_cons_of_mem _ hq)
      · exact .inl (by rw [hqueue]; exact List.mem_cons_of_mem _ hq)
      · exact .inl hq
  | dropReceiver => cases hq
  | processTicker result ticker rest hat =>
      unfold ClientThread.processTicker at hq
      split at hq <;> exact .inl hq
  | same | disconnect | skipRound | beginRound | endRound | terminate => exact .inl hq

/-- Every step of a thread keeps the invariant of its rounds. -/
theorem Coherent.snapshots_step (h : s.Coherent) (hmove : ThreadMove s i th) : th.Snapshots := by
  have hthread := h.threads i
  cases hmove with
  | same => exact hthread
  | spawn tickers callback => exact ClientThread.snapshots_spawn tickers callback
  | update | shutdown => exact hthread.offer _ _
  | recv th hat hrecv =>
      have hreading : (s.threads i).point.reading = false := by rw [hat]; rfl
      rcases ClientThread.recv_cases hrecv with ⟨_, _, _, rfl⟩ | ⟨_, _, _, rfl⟩ | ⟨_, _, rfl⟩ <;>
        exact hthread.keep rfl rfl rfl hreading rfl fun _ => by rw [hat]; rfl
  | beginRound enqueued hat =>
      exact hthread.begin_round hat (h.received i enqueued hat) (h.past i)
  | processTicker result ticker rest hat =>
      obtain ⟨now, older, hrounds, hversion, hquotes⟩ := h.reading i _ hat
      rw [← hversion, ← hquotes]
      exact hthread.process_ticker hat hrounds result
  | endRound hat => exact hthread.end_round hat
  | disconnect hconnected hat =>
      have hreading : (s.threads i).point.reading = false := by rw [hat]; rfl
      exact hthread.keep rfl rfl rfl hreading hreading id
  | skipRound enqueued hat =>
      have hreading : (s.threads i).point.reading = false := by rw [hat]; rfl
      exact hthread.keep rfl rfl rfl hreading rfl fun _ => by rw [hat]; rfl
  | dropReceiver hat | terminate hat =>
      have hreading : (s.threads i).point.reading = false := by rw [hat]; rfl
      exact hthread.keep rfl rfl rfl hreading rfl fun hloop => by cases hloop

/-- An `Update` that was received had been in the channel. -/
theorem Coherent.received_step (h : s.Coherent) (hmove : ThreadMove s i th) {enqueued : Nat}
    (hat : th.point = .readLock enqueued) : enqueued ≤ s.version := by
  cases hmove with
  | same => exact h.received i enqueued hat
  | spawn => cases hat
  | update | shutdown => exact h.received i enqueued (by simpa using hat)
  | recv th hrecvAt hrecv =>
      rcases ClientThread.recv_cases hrecv with
        ⟨version, rest, hqueue, rfl⟩ | ⟨version, rest, hqueue, rfl⟩ | ⟨hqueue, _, rfl⟩
      · obtain rfl : version = enqueued := LoopPoint.readLock.inj hat
        exact h.queued i ⟨.update, version⟩ (by rw [hqueue]; exact List.mem_cons_self)
      · cases hat
      · cases hat
  | disconnect hconnected hexited =>
      rw [show (s.threads i).disconnect.point = .exited from hexited] at hat
      cases hat
  | processTicker result ticker rest hround =>
      unfold ClientThread.processTicker at hat
      split at hat
      · dsimp only at hat
        split at hat <;> cases hat
      · cases hat
  | skipRound | beginRound | endRound | dropReceiver | terminate => cases hat

/-- The round in progress after a step of the thread reads the current map. -/
theorem Coherent.reading_step (h : s.Coherent) (hmove : ThreadMove s i th) {rest : List Str}
    (hat : th.point = .round rest) : ∃ now older,
      th.rounds = now :: older ∧ now.version = s.version ∧ now.quotes = s.quotes := by
  cases hmove with
  | same => exact h.reading i rest hat
  | spawn => cases hat
  | update | shutdown => simpa using h.reading i rest (by simpa using hat)
  | recv th hrecvAt hrecv =>
      rcases ClientThread.recv_cases hrecv with ⟨_, _, _, rfl⟩ | ⟨_, _, _, rfl⟩ | ⟨_, _, rfl⟩ <;>
        cases hat
  | disconnect hconnected hexited =>
      rw [show (s.threads i).disconnect.point = .exited from hexited] at hat
      cases hat
  | beginRound enqueued => exact ⟨_, _, rfl, rfl, rfl⟩
  | processTicker result ticker rest' hround =>
      obtain ⟨now, older, hrounds, hversion, hquotes⟩ := h.reading i _ hround
      have hrecorded : ∀ call, recordCall call (s.threads i).rounds =
          { now with calls := now.calls ++ [call] } :: older := fun call => by rw [hrounds]; rfl
      unfold ClientThread.processTicker
      split
      · exact ⟨_, older, hrecorded _, hversion, hquotes⟩
      · exact ⟨now, older, hrounds, hversion, hquotes⟩
  | skipRound | endRound | dropReceiver | terminate => cases hat

/-- A step that leaves the map and its lock alone. -/
theorem Coherent.keep (h : s.Coherent) (hthread : ∀ i, ThreadMove s i (t.threads i))
    (hquotes : t.quotes = s.quotes) (hversion : t.version = s.version)
    (hwriter : t.writer = s.writer) (hpoisoned : t.poisoned = s.poisoned) : t.Coherent where
  threads i := h.snapshots_step (hthread i)
  queued i q hq := by
    rcases (hthread i).queue_origin hq with hq | hq
    · rw [hversion]
      exact h.queued i q hq
    · rw [hversion, hq]
  received i enqueued hat := by
    rw [hversion]
    exact h.received_step (hthread i) hat
  past i r hr := by
    rw [hversion]
    rcases (hthread i).round_origin hr with ⟨r', hr', heq, -⟩ | ⟨-, -, heq, -⟩
    · rw [← heq]
      exact h.past i r' hr'
    · exact Nat.le_of_eq heq
  writing hwriting i r hr := by
    rw [hversion]
    rw [hwriter] at hwriting
    rcases (hthread i).round_origin hr with ⟨r', hr', heq, -⟩ | ⟨hfree, -, -, -⟩
    · rw [← heq]
      exact h.writing hwriting i r' hr'
    · exact absurd hfree hwriting
  stable hfree hcalm i r hr hcurrent := by
    rw [hwriter] at hfree
    rw [hpoisoned] at hcalm
    rw [hversion] at hcurrent
    rw [hquotes]
    rcases (hthread i).round_origin hr with ⟨r', hr', heq, hsame⟩ | ⟨-, -, -, hsame⟩
    · rw [← hsame]
      exact h.stable hfree hcalm i r' hr' (heq.trans hcurrent)
    · exact hsame
  reading i rest hat := by
    rw [hversion, hquotes]
    exact h.reading_step (hthread i) hat
  unique i j r hr r' hr' heq := by
    rcases (hthread i).round_origin hr with ⟨q, hq, hqv, hqq⟩ | ⟨hfree, hcalm, hrv, hrq⟩
    · rcases (hthread j).round_origin hr' with ⟨q', hq', hqv', hqq'⟩ | ⟨hfree, hcalm, hrv', hrq'⟩
      · rw [← hqq, ← hqq']
        exact h.unique i j q hq q' hq' (by rw [hqv, hqv', heq])
      · rw [← hqq, hrq']
        exact h.stable hfree hcalm i q hq (by rw [hqv, heq, hrv'])
    · rcases (hthread j).round_origin hr' with ⟨q', hq', hqv', hqq'⟩ | ⟨-, -, hrv', hrq'⟩
      · rw [← hqq', hrq]
        exact (h.stable hfree hcalm j q' hq' (by rw [hqv', ← heq, hrv])).symm
      · rw [hrq, hrq']

/-- Every step keeps the versions coherent. -/
theorem coherent_step (hlocks : s.LocksHeld) (hcustody : s.Custody) (h : s.Coherent)
    (hmove : Move s action t) : t.Coherent := by
  cases quotes_step hlocks hmove with
  | keep hquotes hversion hwriter hpoisoned =>
      exact h.keep (thread_step hcustody hmove) hquotes hversion hwriter hpoisoned
  | lock hthreads hversion hwriter hreaders =>
      refine ⟨?threads, ?queued, ?received, ?past, ?writing, fun hfree => absurd hfree hwriter,
        ?reading, ?unique⟩ <;> rw [hthreads]
      case threads => exact h.threads
      case queued =>
        intro i q hq
        have hle := h.queued i q hq
        omega
      case received =>
        intro i enqueued hat
        have hle := h.received i enqueued hat
        omega
      case past =>
        intro i r hr
        have hle := h.past i r hr
        omega
      case writing =>
        intro _ i r hr
        have hle := h.past i r hr
        omega
      case reading => exact fun i rest hat => absurd hat (hlocks.not_reading hreaders)
      case unique => exact h.unique
  | visit hthreads hversion hwriting hwriter =>
      have hreaders := hlocks.excluded hwriting
      refine ⟨?threads, ?queued, ?received, ?past, ?writing, fun hfree => absurd hfree hwriter,
        ?reading, ?unique⟩ <;> rw [hthreads]
      case threads => exact h.threads
      case queued =>
        rw [hversion]
        exact h.queued
      case received =>
        rw [hversion]
        exact h.received
      case past =>
        rw [hversion]
        exact h.past
      case writing =>
        rw [hversion]
        exact fun _ => h.writing hwriting
      case reading => exact fun i rest hat => absurd hat (hlocks.not_reading hreaders)
      case unique => exact h.unique
  | unlock hthreads hquotes hversion hwriting =>
      have hreaders := hlocks.excluded hwriting
      have hbefore := h.writing hwriting
      refine ⟨?threads, ?queued, ?received, ?past, ?writing, ?stable, ?reading, ?unique⟩ <;>
        rw [hthreads]
      case threads => exact h.threads
      case queued =>
        rw [hversion]
        exact h.queued
      case received =>
        rw [hversion]
        exact h.received
      case past =>
        rw [hversion]
        exact h.past
      case writing =>
        rw [hversion]
        exact fun _ => hbefore
      case stable =>
        intro _ _ i r hr hcurrent
        have hlt := hbefore i r hr
        omega
      case reading => exact fun i rest hat => absurd hat (hlocks.not_reading hreaders)
      case unique => exact h.unique

theorem coherent_init (quotes : Quotes) : (init quotes).Coherent where
  threads i := ⟨by simp [init, ClientThread.absent, ClientThread.spawn], .nil,
    by simp [init, ClientThread.absent, LoopPoint.looping],
    by simp [init, ClientThread.absent, ClientThread.spawn, ClientThread.done, LoopPoint.reading],
    by simp [init, ClientThread.absent]⟩
  queued := by simp [init, ClientThread.absent, ClientThread.spawn]
  received := by simp [init, ClientThread.absent]
  past := by simp [init, ClientThread.absent, ClientThread.spawn]
  writing hwriting := absurd rfl hwriting
  stable := by simp [init, ClientThread.absent, ClientThread.spawn]
  reading := by simp [init, ClientThread.absent]
  unique := by simp [init, ClientThread.absent, ClientThread.spawn]

/-- In every reachable state the versions are coherent. -/
theorem Reachable.coherent {quotes : Quotes} (h : Reachable quotes s) : s.Coherent := by
  refine Transition.Reaches.invariant_with Coherent h
    (fun hrun => And.intro (Reachable.locks_held hrun) (Reachable.custody hrun))
    (coherent_init quotes) ?_
  rintro state next action ⟨hlocks, hcustody⟩ - hinv - hstep
  exact coherent_step hlocks hcustody hinv (step_move hstep)

/-- All messages of a round come from one version of the map, which is not older than the version
at which the round's `Update` was sent; the versions of successive rounds of a client never
decrease; and rounds of the same version, of whatever clients, have read the same map. -/
theorem rounds_are_snapshots {quotes : Quotes} (hs : Reachable quotes s) (i : Nat) :
    (∀ r ∈ (s.threads i).rounds, r.enqueued ≤ r.version ∧ r.version ≤ s.version ∧
      ∀ call ∈ r.calls, call.version = r.version ∧
        ∃ q, r.quotes.lookup call.ticker = some q ∧ call.message = q.message) ∧
    ((s.threads i).rounds.Pairwise fun newer older => older.version ≤ newer.version) ∧
    ∀ j, ∀ r ∈ (s.threads i).rounds, ∀ r' ∈ (s.threads j).rounds,
      r.version = r'.version → r.quotes = r'.quotes := by
  have hcoherent := Reachable.coherent hs
  have hthread := hcoherent.threads i
  refine ⟨fun r hr => ?_, hthread.ordered, hcoherent.unique i⟩
  have hround := hthread.consistent r hr
  refine ⟨hround.fresh, hcoherent.past i r hr, fun call hcall => ⟨hround.version call hcall, ?_⟩⟩
  have hmem : (call.ticker, call.message) ∈ r.delivered :=
    List.mem_map.mpr ⟨call, hcall, rfl⟩
  exact (mem_due (hround.inOrder.subset hmem)).2

/-- The map of quotes with one ticker. -/
def oneQuote : Quotes :=
  AList.singleton ['A'] ⟨['A'], ⟨0⟩, 1, 0⟩

/-- A client for the ticker is added, one tick of the background thread updates its quote, and the
client thread works off the round. -/
def oneTick : List Action :=
  [.call (.other 0) .start, .caller (.other 0), .caller (.other 0), .caller (.other 0),
    .take (.other 0), .call (.other 0) (.addClient [['A']] (.closure 0)), .caller (.other 0),
    .caller (.other 0), .caller (.other 0), .caller (.other 0), .take (.other 0),
    .background 0 .proceed, .background 0 .proceed, .background 0 .proceed,
    .background 0 (.visit ['A'] ⟨7⟩ 2 (some 5)), .background 0 .proceed,
    .background 0 (.order [0]), .background 0 .proceed, .background 0 .proceed,
    .client 0 .ok, .client 0 .ok, .client 0 .ok, .client 0 .ok]

theorem rounds_are_snapshots_one_tick : ∃ s, Reachable oneQuote s ∧
    ∃ r, (s.threads 0).rounds = [r] ∧ r.version = 1 ∧ r.enqueued ≤ r.version ∧
      r.delivered = [(['A'], ⟨['A'], ⟨7⟩, 2, 5⟩)] ∧ ∀ call ∈ r.calls, call.version = r.version := by
  obtain ⟨s, hrun, r, hrounds, hversion, hdelivered⟩ :
      ∃ s, Transition.run step (init oneQuote) oneTick = some s ∧ ∃ r,
        (s.threads 0).rounds = [r] ∧ r.version = 1 ∧
        r.delivered = [(['A'], ⟨['A'], ⟨7⟩, 2, 5⟩)] := ⟨_, rfl, _, rfl, rfl, rfl⟩
  have hs : Reachable oneQuote s := Transition.reachable_of_run hrun
  obtain ⟨hfresh, -, hcalls⟩ := (rounds_are_snapshots hs 0).1 r (by rw [hrounds]; simp)
  exact ⟨s, hs, r, hrounds, hversion, hfresh, hdelivered, fun call hcall => (hcalls call hcall).1⟩

end QuoteStreamer.Server
