import QuoteStreamer.Client.Thread

/-!
# Update rounds of one client

What a thread's rounds look like after any of its steps: every message of a round comes from the
map that the round's read guard protects, in the order of the ticker list, and a round that was
not cut short by a panic has delivered everything that was due.
-/

namespace QuoteStreamer

/-- The messages due for these tickers: one for each entry that the map knows, in list order. -/
def due (quotes : Quotes) (tickers : List Str) : List (Str × Message) :=
  tickers.filterMap fun ticker => (quotes.lookup ticker).map fun q => (ticker, q.message)

section Due

variable {quotes : Quotes} {ticker : Str} {rest : List Str} {q : StockQuote}

@[simp] theorem due_nil : due quotes [] = [] := rfl

theorem due_found (h : quotes.lookup ticker = some q) :
    due quotes (ticker :: rest) = (ticker, q.message) :: due quotes rest := by
  simp [due, h]

theorem due_missing (h : quotes.lookup ticker = none) :
    due quotes (ticker :: rest) = due quotes rest := by
  simp [due, h]

/-- What is due is for a ticker of the list, and it is the message of that ticker's quote. -/
theorem mem_due {tickers : List Str} {message : Message}
    (h : (ticker, message) ∈ due quotes tickers) :
    ticker ∈ tickers ∧ ∃ q, quotes.lookup ticker = some q ∧ message = q.message := by
  obtain ⟨entry, hentry, hq⟩ := List.mem_filterMap.mp h
  obtain ⟨q, hlookup, heq⟩ := Option.map_eq_some_iff.mp hq
  cases heq
  exact ⟨hentry, q, hlookup, rfl⟩

end Due

namespace Round

/-- The tickers and messages the callback was invoked with, in order. -/
def delivered (r : Round) : List (Str × Message) :=
  r.calls.map fun call => (call.ticker, call.message)

/-- The round read one version of the map, not older than its command, and delivered in order. -/
structure Consistent (r : Round) (tickers : List Str) : Prop where
  version : ∀ call ∈ r.calls, call.version = r.version
  fresh : r.enqueued ≤ r.version
  inOrder : r.delivered <+: due r.quotes tickers

/-- The round delivered everything that was due. -/
def Complete (r : Round) (tickers : List Str) : Prop :=
  r.delivered = due r.quotes tickers

end Round

namespace ClientThread

/-- The rounds that are over. -/
def done (th : ClientThread) : List Round :=
  if th.point.reading then th.rounds.tail else th.rounds

/-- The invariant of the rounds of a thread. -/
structure Snapshots (th : ClientThread) : Prop where
  consistent : ∀ r ∈ th.rounds, r.Consistent th.tickers
  ordered : th.rounds.Pairwise fun newer older => older.version ≤ newer.version
  alive : th.point.looping = true → th.panicked = false
  complete : th.panicked = false → ∀ r ∈ th.done, r.Complete th.tickers
  current : ∀ rest, th.point = .round rest → ∃ now older, th.rounds = now :: older ∧
    now.delivered ++ due now.quotes rest = due now.quotes th.tickers

variable {th after : ClientThread}

theorem snapshots_spawn (tickers : List Str) (callback : Callback) :
    (spawn tickers callback).Snapshots where
  consistent := by simp [spawn]
  ordered := .nil
  alive _ := rfl
  complete := by simp [spawn, done, LoopPoint.reading]
  current := by simp [spawn]

/-- A change outside the ticker loop that adds no round. -/
theorem Snapshots.keep (h : th.Snapshots) (htickers : after.tickers = th.tickers)
    (hrounds : after.rounds = th.rounds) (hpanicked : after.panicked = th.panicked)
    (hthen : th.point.reading = false) (hnow : after.point.reading = false)
    (hlooping : after.point.looping = true → th.point.looping = true) : after.Snapshots where
  consistent := by rw [hrounds, htickers]; exact h.consistent
  ordered := by rw [hrounds]; exact h.ordered
  alive hloop := hpanicked.trans (h.alive (hlooping hloop))
  complete hcalm := by
    have hdone := h.complete (hpanicked.symm.trans hcalm)
    rw [done, hthen] at hdone
    rw [done, hnow, hrounds, htickers]
    exact hdone
  current rest hat := by
    rw [hat] at hnow
    cases hnow

/-- A command offered to the thread. -/
theorem Snapshots.offer (h : th.Snapshots) (cmd : ClientCommand) (version : Nat) :
    (th.offer cmd version).Snapshots where
  consistent := by simpa using h.consistent
  ordered := by simpa using h.ordered
  alive := by simpa using h.alive
  complete := by simpa [done] using h.complete
  current := by simpa using h.current

/-- The read guard is obtained. -/
theorem Snapshots.begin_round (h : th.Snapshots) {enqueued version : Nat} {quotes : Quotes}
    (hat : th.point = .readLock enqueued) (hfresh : enqueued ≤ version)
    (hpast : ∀ r ∈ th.rounds, r.version ≤ version) :
    (th.beginRound enqueued quotes version).Snapshots where
  consistent r hr := by
    rcases List.mem_cons.mp hr with rfl | hr
    · exact ⟨by simp, hfresh, List.nil_prefix⟩
    · exact h.consistent r hr
  ordered := List.pairwise_cons.mpr ⟨hpast, h.ordered⟩
  alive _ := h.alive (by rw [hat]; rfl)
  complete hcalm r hr := by
    have hdone := h.complete hcalm
    rw [done, hat] at hdone
    exact hdone r hr
  current rest hpoint := by
    obtain rfl : th.tickers = rest := LoopPoint.round.inj hpoint
    exact ⟨_, _, rfl, rfl⟩

/-- One iteration of the ticker loop, on the map and the version that the round began with. -/
theorem Snapshots.process_ticker (h : th.Snapshots) {ticker : Str} {rest : List Str}
    {now : Round} {older : List Round} (hat : th.point = .round (ticker :: rest))
    (hrounds : th.rounds = now :: older) (result : CallbackResult) :
    (th.processTicker ticker rest now.quotes now.version result).Snapshots := by
  obtain ⟨now', older', hrounds', hcurrent⟩ := h.current _ hat
  obtain ⟨rfl, rfl⟩ := List.cons.inj (hrounds.symm.trans hrounds')
  have hcalm : th.panicked = false := h.alive (by rw [hat]; rfl)
  have hdone := h.complete hcalm
  have hordered := h.ordered
  have hnow := h.consistent now (by rw [hrounds]; exact List.mem_cons_self)
  rw [done, hat, hrounds] at hdone
  rw [hrounds] at hordered
  unfold processTicker
  cases hq : now.quotes.lookup ticker with
  | none =>
      rw [due_missing hq] at hcurrent
      exact ⟨h.consistent, h.ordered, fun _ => hcalm, fun _ => by simpa [done, hrounds,
        LoopPoint.reading] using hdone, fun tail htail => ⟨now, older, hrounds, by
          rwa [← LoopPoint.round.inj htail]⟩⟩
  | some q =>
      rw [due_found hq] at hcurrent
      -- the round with the new invocation
      have hcalls : ∀ call, ({ now with calls := now.calls ++ [call] } : Round).delivered =
          now.delivered ++ [(call.ticker, call.message)] := by
        intro call
        simp [Round.delivered]
      refine ⟨fun r hr => ?_, ?_, fun hloop => ?_, fun hquiet r hr => ?_, fun tail htail => ?_⟩
      · rw [hrounds] at hr
        rcases List.mem_cons.mp hr with rfl | hr
        · refine ⟨fun call hcall => ?_, hnow.fresh, ?_⟩
          · rcases List.mem_append.mp hcall with hcall | hcall
            · exact hnow.version call hcall
            · obtain rfl := List.mem_singleton.mp hcall
              rfl
          · rw [hcalls]
            refine ⟨due now.quotes rest, ?_⟩
            rw [List.append_assoc]
            exact hcurrent
        · exact h.consistent r (by rw [hrounds]; exact List.mem_cons_of_mem _ hr)
      · rw [hrounds]
        exact List.pairwise_cons.mpr (List.pairwise_cons.mp hordered)
      · by_cases hpanic : result = .panic
        · simp [hpanic, LoopPoint.looping] at hloop
        · simp [hcalm, hpanic]
      · have hresult : result ≠ .panic := by
          rintro rfl
          simp at hquiet
        simp only [done, hresult, if_false, LoopPoint.reading, if_true, hrounds, recordCall,
          List.tail_cons] at hr
        exact hdone r hr
      · have hresult : result ≠ .panic := by
          rintro rfl
          simp at htail
        simp only [hresult, if_false, LoopPoint.round.injEq] at htail
        subst htail
        refine ⟨_, older, by rw [hrounds]; rfl, ?_⟩
        rw [hcalls, List.append_assoc]
        exact hcurrent

/-- The end of the ticker loop completes the round. -/
theorem Snapshots.end_round (h : th.Snapshots) (hat : th.point = .round []) :
    th.endRound.Snapshots where
  consistent := h.consistent
  ordered := h.ordered
  alive _ := h.alive (by rw [hat]; rfl)
  complete hcalm r hr := by
    obtain ⟨now, older, hrounds, hcurrent⟩ := h.current _ hat
    have hdone := h.complete hcalm
    rw [done, hat, hrounds] at hdone
    have hr : r ∈ now :: older := by rw [← hrounds]; exact hr
    rcases List.mem_cons.mp hr with rfl | hr
    · show r.delivered = due r.quotes th.tickers
      simpa using hcurrent
    · exact hdone r hr
  current rest hpoint := by cases hpoint

end ClientThread

end QuoteStreamer
