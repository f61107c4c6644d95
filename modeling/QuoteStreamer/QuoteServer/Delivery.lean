import QuoteStreamer.QuoteServer.Progress

/-!
# Every pass is served

Under a strongly fair scheduler no update is left in a channel: for each `notify_clients` pass that
found a client in the registry, the client's thread has its round some time, and the round gets to
its end. The exceptions are the ones of the code: the client's own callback panics, or an update
of the quotes has panicked and poisoned their lock.
-/

namespace QuoteStreamer

open Fairness (Execution Enabled Descends)

/-- What is ahead of a thread until it has gone through this many rounds: the rounds that it has not
begun, and the steps up to its next `rx.recv()`. -/
def ClientThread.serving (count : Nat) (th : ClientThread) : ℕ ×ₗ ℕ :=
  toLex (count - th.rounds.length,
    match th.point with
    | .round rest => rest.length + 3
    | .recv => 2
    | .readLock _ => 1
    | _ => 0)

namespace Server

variable {s t : Server} {action : Action} {slot i count : Nat} {th : ClientThread}

/-- The thread has ended this many rounds, and each has delivered everything that was due; or the
callback or an update has panicked. -/
def Served (s : Server) (slot count : Nat) : Prop :=
  (s.threads slot).panicked = true ∨ s.poisoned = true ∨
    count ≤ (s.threads slot).done.length ∧
      ∀ r ∈ (s.threads slot).done, r.Complete (s.threads slot).tickers

/-- What is not served yet. -/
structure Unserved (s : Server) (slot count : Nat) : Prop where
  calm : (s.threads slot).panicked = false
  sound : s.poisoned = false
  fewer : (s.threads slot).done.length < count

theorem unserved_of_not {quotes : Quotes} (hs : Reachable quotes s) (h : ¬ s.Served slot count) :
    s.Unserved slot count := by
  have hcalm : (s.threads slot).panicked = false := by
    by_contra hpanicked
    exact h (.inl (by simpa using hpanicked))
  have hsound : s.poisoned = false := by
    by_contra hpoisoned
    exact h (.inr (.inl (by simpa using hpoisoned)))
  refine ⟨hcalm, hsound, Nat.lt_of_not_le fun hle => h (.inr (.inr ⟨hle, ?_⟩))⟩
  exact ((Reachable.coherent hs).threads slot).complete hcalm

/-- A thread that has not served all its updates is in its loop. -/
theorem Unserved.looping {quotes : Quotes} (h : s.Unserved slot count) (hs : Reachable quotes s)
    (hsent : count ≤ (s.threads slot).updates) : (s.threads slot).point.looping = true := by
  by_contra hleft
  have hleft : (s.threads slot).point.looping = false := by simpa using hleft
  have hcount := ((Reachable.backlog hs slot).ended h.calm hleft).2 h.sound
  have hfewer := h.fewer
  have hdone : (s.threads slot).done = (s.threads slot).rounds := by
    unfold ClientThread.done
    cases hat : (s.threads slot).point <;> rw [hat] at hleft <;> first | rfl | cases hleft
  rw [hdone] at hfewer
  omega

/-- One step of anybody brings the thread nearer to what it has to serve, or leaves it where it
was, or takes it out of its loop. -/
theorem ThreadMove.serving (h : ThreadMove s slot th) (hbound : slot < s.spawned)
    (hlooping : (s.threads slot).point.looping = true) (hunserved : s.Unserved slot count) :
    th.point.looping = false ∨ th.serving count < (s.threads slot).serving count ∨
      th.point = (s.threads slot).point ∧
        th.serving count = (s.threads slot).serving count := by
  have hnear : ∀ {rounds left left' : Nat}, left < left' →
      toLex (count - rounds, left) < toLex (count - rounds, left') := fun hless =>
    Prod.Lex.toLex_lt_toLex.mpr (.inr ⟨rfl, hless⟩)
  cases h with
  | same => exact .inr (.inr ⟨rfl, rfl⟩)
  | spawn _ _ hnew => exact absurd hbound (Nat.not_lt.mpr (Nat.le_of_eq hnew.symm))
  | update | shutdown =>
      exact .inr (.inr ⟨ClientThread.point_offer .., by simp [ClientThread.serving]⟩)
  | disconnect _ hexited =>
      rw [hexited] at hlooping
      cases hlooping
  | recv _ hat hrecv =>
      rcases ClientThread.recv_cases hrecv with ⟨_, _, _, rfl⟩ | ⟨_, _, _, rfl⟩ | ⟨_, _, rfl⟩
      · refine .inr (.inl ?_)
        simp only [ClientThread.serving, hat]
        exact hnear (by omega)
      · exact .inl rfl
      · exact .inl rfl
  | skipRound _ _ hpoisoned =>
      rw [hunserved.sound] at hpoisoned
      cases hpoisoned
  | beginRound enqueued hat =>
      have hfewer := hunserved.fewer
      rw [ClientThread.done, hat] at hfewer
      have hfewer : (s.threads slot).rounds.length < count := hfewer
      refine .inr (.inl (Prod.Lex.toLex_lt_toLex.mpr (.inl ?_)))
      simp only [ClientThread.beginRound, List.length_cons]
      omega
  | processTicker result ticker rest hat =>
      unfold ClientThread.processTicker
      split
      · by_cases hpanic : result = .panic
        · exact .inl (by simp [hpanic, LoopPoint.looping])
        · refine .inr (.inl ?_)
          simp only [ClientThread.serving, hat, hpanic, if_false, List.length_cons,
            ClientThread.length_record_call]
          exact hnear (by omega)
      · refine .inr (.inl ?_)
        simp only [ClientThread.serving, hat, List.length_cons]
        exact hnear (by omega)
  | endRound hat =>
      refine .inr (.inl ?_)
      simp only [ClientThread.serving, ClientThread.endRound, hat, List.length_nil]
      exact hnear (by omega)
  | dropReceiver hat | terminate hat =>
      rw [hat] at hlooping
      cases hlooping

/-- No step takes an update back. -/
theorem ThreadMove.updates_le (h : ThreadMove s slot th) (hbound : slot < s.spawned) :
    (s.threads slot).updates ≤ th.updates := by
  have hoffer : ∀ cmd, (s.threads slot).updates ≤
      ((s.threads slot).offer cmd s.version).updates := by
    intro cmd
    unfold ClientThread.offer
    split
    · simp [ClientThread.updates, ClientThread.push]
    · exact le_rfl
  cases h with
  | spawn _ _ hnew => exact absurd hbound (Nat.not_lt.mpr (Nat.le_of_eq hnew.symm))
  | update | shutdown => exact hoffer _
  | recv _ hat hrecv => exact Nat.le_of_eq (by rw [ClientThread.updates, ClientThread.updates,
      (ClientThread.calm_recv hrecv hat).2])
  | processTicker result ticker rest hat => exact Nat.le_of_eq (by rw [ClientThread.updates,
      ClientThread.updates, (ClientThread.calm_process hat _ _ _).2])
  | _ => exact le_rfl

/-- A looping thread that stands still, with an update left to serve, waits for a writer. -/
theorem Unserved.blocked {quotes : Quotes} (h : s.Unserved slot count) (hs : Reachable quotes s)
    (hsent : count ≤ (s.threads slot).updates)
    (hblocked : ¬ Enabled step Action.owner (.client slot) s) :
    (∃ enqueued, (s.threads slot).point = .readLock enqueued) ∧ s.writer ≠ none := by
  have hlooping := h.looping hs hsent
  rcases blocked_client_waits (client_step_none hblocked) with
    hexited | ⟨j, hwaits⟩ | ⟨hrecv, hempty, -⟩
  · rw [hexited] at hlooping
    cases hlooping
  · cases hwaits with
    | read _ b enqueued hat hwriter => exact ⟨⟨enqueued, hat⟩, by rw [hwriter]; nofun⟩
  · -- with an empty channel all updates are served
    obtain ⟨before, heq, hnone, hlength⟩ := (Reachable.backlog hs slot).queued hlooping
    have hfewer := h.fewer
    have htaken := hlength h.sound
    rw [ClientThread.updates, heq, hempty, List.map_nil, List.append_nil,
      ClientThread.count_update hnone, htaken] at hsent
    rw [ClientThread.done, hrecv] at hfewer
    rw [ClientThread.taken, hrecv] at hsent
    exact absurd hfewer (Nat.not_lt.mpr hsent)

/-- The passes that have found a client stay counted. -/
theorem passes_step (hmove : Move s action t) : passes slot s.history ≤ passes slot t.history := by
  cases hmove with
  | notifyLock => exact Nat.le_add_right _ _
  | addInsert | addReplace | removeTake => exact le_rfl
  | _ => exact le_rfl

section Executions

variable {quotes : Quotes} {e : Execution step (init quotes)}

/-- Every update that a channel has accepted is served. -/
theorem every_update_is_served (hfair : ∀ i, e.StronglyFair Action.owner i) (slot count : Nat) :
    e.LeadsTo (fun s => slot < s.spawned ∧ count ≤ (s.threads slot).updates)
      (fun s => s.Served slot count) := by
  have hdescends : Descends step (init quotes) Action.owner
      (fun s => (slot < s.spawned ∧ count ≤ (s.threads slot).updates) ∧ ¬ s.Served slot count)
      (fun s => s.Served slot count) (fun s => (s.threads slot).serving count)
      (fun _ => .client slot) := by
    rintro s t action hs ⟨⟨hbound, hsent⟩, hnot⟩ hstep
    have hmove := step_move hstep
    have hcustody := Reachable.custody hs
    have ht : Reachable quotes t := .tail hs trivial hstep
    have hunserved := unserved_of_not hs hnot
    by_cases hserved : t.Served slot count
    · exact .inl hserved
    have hkept : slot < t.spawned ∧ count ≤ (t.threads slot).updates :=
      ⟨hbound.trans_le (spawned_le_step hmove),
        hsent.trans ((thread_step hcustody hmove slot).updates_le hbound)⟩
    refine .inr ⟨⟨hkept, hserved⟩, ?_⟩
    rcases (thread_step hcustody hmove slot).serving hbound (hunserved.looping hs hsent)
      hunserved with hleft | hless | ⟨hpoint, hsame⟩
    · rw [(unserved_of_not ht hserved).looping ht hkept.2] at hleft
      cases hleft
    · exact .inl hless
    · refine .inr ⟨hsame, rfl, fun howner => ?_⟩
      obtain ⟨result, rfl⟩ := owner_client howner
      exact client_point_ne hmove hpoint
  have hunserved : e.LeadsTo
      (fun s => (slot < s.spawned ∧ count ≤ (s.threads slot).updates) ∧ ¬ s.Served slot count)
      (fun s => s.Served slot count) := by
    refine Execution.leads_to_of_recurring hfair hdescends fun n hblocked => ?_
    have hwaits : ∀ m, n ≤ m → (∃ enqueued, ((e.state m).threads slot).point = .readLock enqueued) ∧
        (e.state m).writer ≠ none := fun m hle =>
      (unserved_of_not (e.reachable m) (hblocked m hle).2.1).blocked (e.reachable m)
        (hblocked m hle).1.1.2 (hblocked m hle).2.2
    obtain ⟨m, hle, hfree⟩ := write_guard_released (fun i => (hfair i).weakly_fair) n
    exact (hwaits m hle).2 hfree
  intro n hn
  by_cases hserved : (e.state n).Served slot count
  · exact ⟨n, le_rfl, hserved⟩
  · exact hunserved n ⟨hn, hserved⟩

/-- Every `notify_clients` pass that found the client in the registry is served: the thread of the
client has ended as many rounds some time, and each of its rounds has delivered everything that was
due, unless the client's callback has panicked or an update of the quotes has. As everywhere here,
the callbacks of all clients return and do not call the server. -/
theorem every_pass_is_served (hfair : ∀ i, e.StronglyFair Action.owner i) (slot count : Nat) :
    e.LeadsTo (fun s => count ≤ passes slot s.history) (fun s => s.Served slot count) := by
  intro n hn
  obtain ⟨m, hle, hfree⟩ := clients_mutex_released (fun i => (hfair i).weakly_fair) n
  have hm : count ≤ passes slot (e.state m).history :=
    e.stable (P := fun s => count ≤ passes slot s.history)
      (fun _ hcount hstep => hcount.trans (passes_step (step_move hstep))) hn hle
  have hs := e.reachable m
  by_cases hserved : (e.state m).Served slot count
  · exact ⟨m, hle, hserved⟩
  have hunserved := unserved_of_not hs hserved
  have hpending : ¬ (e.state m).Pending slot := by
    rintro ⟨b, todo, -, -, hat, -⟩
    have hheld := ((Reachable.locks_held hs).clients (.background b)).mpr
      (show ((e.state m).background b).holdsClients = true by rw [hat]; rfl)
    rw [hfree] at hheld
    cases hheld
  have hbalance := (Reachable.ledger hs).settled slot hunserved.calm hpending
  have hbound : slot < (e.state m).spawned := by
    by_contra hfresh
    have hnone := (Reachable.ledger hs).fresh slot (Nat.le_of_not_lt hfresh)
    have hfewer := hunserved.fewer
    omega
  obtain ⟨l, hlater, hl⟩ :=
    every_update_is_served hfair slot count m ⟨hbound, hbalance ▸ hm⟩
  exact ⟨l, hle.trans hlater, hl⟩

theorem every_pass_is_served_whole_life : ∃ e : Execution step (init oneQuote),
    (∀ i, e.StronglyFair Action.owner i) ∧ passes 0 (e.state 17).history = 1 ∧
    ∃ m, 17 ≤ m ∧ (e.state m).Served 0 1 :=
  ⟨_, whole_life_fair, rfl, every_pass_is_served whole_life_fair 0 1 17 le_rfl⟩

end Executions

end Server

end QuoteStreamer
