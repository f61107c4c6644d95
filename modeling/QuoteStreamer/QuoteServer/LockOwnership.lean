import QuoteStreamer.Lib.Locks
import QuoteStreamer.QuoteServer.Moves

/-!
# Locks and the program points that hold them

`LocksHeld` ties the words of the three locks to the points at which threads hold them. It is
kept by every step, so in every reachable state each mutex has at most one holder and a write
guard of the quotes excludes every read guard.
-/

namespace QuoteStreamer.Server

/-- The lock words agree with the program points, and table entries past the spawn counters belong
to no running thread. -/
structure LocksHeld (s : Server) : Prop where
  clients : Locks.Owned s.clientsLock s.holdsClients
  bg : Locks.HeldAt s.bgLock s.callers Call.holdsBg
  writer : Locks.HeldAt s.writer s.background Background.writing
  readers : ∀ t, t ∈ s.readers ↔ (s.threads t).point.reading
  nodup : s.readers.Nodup
  excluded : s.writer ≠ none → s.readers = []
  freshBackground : ∀ b, s.bgSpawned ≤ b → s.background b = .exited
  freshThreads : ∀ t, s.spawned ≤ t → (s.threads t).point = .exited

variable {s t : Server} {action : Action} {k : Caller} {call : Call} {b : Nat}
  {point : Background}

/-! ## The clients mutex -/

section Clients

variable (h : Locks.Owned s.clientsLock s.holdsClients)
include h

/-- A caller moves without entering or leaving its critical section. -/
theorem clients_keep_call (hlock : t.clientsLock = s.clientsLock)
    (hcallers : t.callers = Function.update s.callers k call)
    (hbackground : t.background = s.background)
    (hsame : call.holdsClients = (s.callers k).holdsClients) :
    Locks.Owned t.clientsLock t.holdsClients := by
  rw [hlock]
  refine h.keep fun i => ?_
  cases i with
  | caller j =>
      by_cases hj : j = k
      · subst j
        simp [holdsClients, hcallers, hsame]
      · simp [holdsClients, hcallers, hj]
  | background c => simp [holdsClients, hbackground]
  | client slot => rfl

/-- A background thread moves without entering or leaving its critical section. -/
theorem clients_keep_background (hlock : t.clientsLock = s.clientsLock)
    (hcallers : t.callers = s.callers)
    (hbackground : t.background = Function.update s.background b point)
    (hsame : point.holdsClients = (s.background b).holdsClients) :
    Locks.Owned t.clientsLock t.holdsClients := by
  rw [hlock]
  refine h.keep fun i => ?_
  cases i with
  | caller j => simp [holdsClients, hcallers]
  | background c =>
      by_cases hc : c = b
      · subst c
        simp [holdsClients, hbackground, hsame]
      · simp [holdsClients, hbackground, hc]
  | client slot => rfl

theorem clients_keep_client (hlock : t.clientsLock = s.clientsLock)
    (hcallers : t.callers = s.callers) (hbackground : t.background = s.background) :
    Locks.Owned t.clientsLock t.holdsClients := by
  rw [hlock]
  exact h.keep fun i => by cases i <;> simp [holdsClients, hcallers, hbackground]

theorem clients_acquire_call (hfree : s.clientsLock = none)
    (hlock : t.clientsLock = some (.caller k))
    (hcallers : t.callers = Function.update s.callers k call)
    (hbackground : t.background = s.background) (hholds : call.holdsClients = true) :
    Locks.Owned t.clientsLock t.holdsClients := by
  rw [hfree] at h
  rw [hlock]
  refine h.acquire (by simp [holdsClients, hcallers, hholds]) fun i hi => ?_
  cases i with
  | caller j =>
      have hj : j ≠ k := fun heq => hi (by rw [heq])
      simp [holdsClients, hcallers, hj]
  | background c => simp [holdsClients, hbackground]
  | client slot => rfl

theorem clients_release_call (hholds : (s.callers k).holdsClients = true)
    (hlock : t.clientsLock = none)
    (hcallers : t.callers = Function.update s.callers k call)
    (hbackground : t.background = s.background) (hnot : call.holdsClients = false) :
    Locks.Owned t.clientsLock t.holdsClients := by
  rw [hlock]
  refine h.release (i := .caller k) hholds (by simp [holdsClients, hcallers, hnot]) fun i hi => ?_
  cases i with
  | caller j =>
      have hj : j ≠ k := fun heq => hi (by rw [heq])
      simp [holdsClients, hcallers, hj]
  | background c => simp [holdsClients, hbackground]
  | client slot => rfl

theorem clients_acquire_background (hfree : s.clientsLock = none)
    (hlock : t.clientsLock = some (.background b)) (hcallers : t.callers = s.callers)
    (hbackground : t.background = Function.update s.background b point)
    (hholds : point.holdsClients = true) :
    Locks.Owned t.clientsLock t.holdsClients := by
  rw [hfree] at h
  rw [hlock]
  refine h.acquire (by simp [holdsClients, hbackground, hholds]) fun i hi => ?_
  cases i with
  | caller j => simp [holdsClients, hcallers]
  | background c =>
      have hc : c ≠ b := fun heq => hi (by rw [heq])
      simp [holdsClients, hbackground, hc]
  | client slot => rfl

theorem clients_release_background (hholds : (s.background b).holdsClients = true)
    (hlock : t.clientsLock = none)
    (hcallers : t.callers = s.callers)
    (hbackground : t.background = Function.update s.background b point)
    (hnot : point.holdsClients = false) :
    Locks.Owned t.clientsLock t.holdsClients := by
  rw [hlock]
  refine h.release (i := .background b) hholds (by simp [holdsClients, hbackground, hnot])
    fun i hi => ?_
  cases i with
  | caller j => simp [holdsClients, hcallers]
  | background c =>
      have hc : c ≠ b := fun heq => hi (by rw [heq])
      simp [holdsClients, hbackground, hc]
  | client slot => rfl

end Clients

/-- The points at which a method begins hold no lock. -/
theorem entry_holds_nothing (request : Request) :
    request.entry.holdsClients = false ∧ request.entry.holdsBg = false := by
  cases request <;> exact ⟨rfl, rfl⟩

/-- Every step keeps the ownership of the clients mutex. -/
theorem clients_owned_step (h : s.LocksHeld) (hmove : Move s action t) :
    Locks.Owned t.clientsLock t.holdsClients := by
  have hclients := h.clients
  cases hmove with
  | call k request hat =>
      exact clients_keep_call hclients rfl rfl rfl
        (by rw [hat]; exact (entry_holds_nothing request).1)
  | addLock k tickers callback hat hfree | removeLock k id hat hfree =>
      exact clients_acquire_call hclients hfree rfl rfl rfl rfl
  | unlock k reply hat => exact clients_release_call hclients (by rw [hat]; rfl) rfl rfl rfl rfl
  | take k _ hat | addStart k _ _ hat | addInsert k _ hat | addReplace k _ _ hat
  | removeTake k _ _ hat | removeNone k _ hat | removeSend k _ _ _ hat
  | removeSendFails k _ _ _ hat | removeJoin k _ _ hat | dropSend k _ _ hat | dropJoin k _ _ hat
  | startLock k hat | startRunning k hat | startStore k _ hat
  | shutdownFlag k hat | shutdownLock k hat | shutdownTake k _ hat | shutdownNone k hat
  | shutdownJoin k _ hat =>
      exact clients_keep_call hclients rfl rfl rfl (by rw [hat]; rfl)
  | startSpawn k hat hnone =>
      -- two program points change: the caller's, and the unused entry of the new thread
      have hfresh := h.freshBackground s.bgSpawned (Nat.le_refl _)
      have hspawn : Locks.Owned (s.setBackground s.bgSpawned .check).clientsLock
          (s.setBackground s.bgSpawned .check).holdsClients :=
        clients_keep_background hclients rfl rfl rfl (by rw [hfresh]; rfl)
      exact clients_keep_call hspawn rfl rfl rfl
        (by rw [show (s.setBackground s.bgSpawned .check).callers k = _ from hat]; rfl)
  | recv | skipRound | beginRound | processTicker | endRound | dropReceiver | terminate =>
      exact clients_keep_client hclients rfl rfl rfl
  | check b hat =>
      exact clients_keep_background hclients rfl rfl rfl (by rw [hat]; split <;> rfl)
  | notifyLock b todo hat hfree horder =>
      exact clients_acquire_background hclients hfree rfl rfl rfl rfl
  | notified b hat =>
      exact clients_release_background hclients (by rw [hat]; rfl) rfl rfl rfl rfl
  | sleep b hat | tryWrite b hat | timeout b hat | visit b _ _ _ _ _ _ _ hat
  | finishUpdate b _ _ hat | panic b _ _ hat | notify b _ _ _ hat =>
      exact clients_keep_background hclients rfl rfl rfl (by rw [hat]; rfl)

/-! ## The mutex of the background handle and the lock of the quotes -/

/-- Every step keeps the ownership of the mutex of the background handle. -/
theorem bg_owned_step (h : s.LocksHeld) (hmove : Move s action t) :
    Locks.HeldAt t.bgLock t.callers Call.holdsBg := by
  have hbg := h.bg
  cases hmove with
  | call k request hat =>
      exact hbg.keep (by rw [hat]; exact (entry_holds_nothing request).2)
  | startLock k hat hfree | shutdownLock k hat hfree => exact hbg.acquire hfree rfl
  | startRunning k hat | startStore k _ hat | shutdownTake k _ hat | shutdownNone k hat =>
      exact hbg.release (by rw [hat]; rfl) rfl
  | take k _ hat | addLock k _ _ hat | addStart k _ _ hat | addInsert k _ hat
  | addReplace k _ _ hat | removeLock k _ hat | removeTake k _ _ hat | removeNone k _ hat
  | removeSend k _ _ _ hat | removeSendFails k _ _ _ hat | removeJoin k _ _ hat
  | dropSend k _ _ hat | dropJoin k _ _ hat | unlock k _ hat | startSpawn k hat
  | shutdownFlag k hat | shutdownJoin k _ hat =>
      exact hbg.keep (by rw [hat]; rfl)
  | recv | skipRound | beginRound | processTicker | endRound | dropReceiver | terminate | check
  | sleep | tryWrite | timeout | visit | finishUpdate | panic | notifyLock | notify | notified =>
      exact hbg

/-- Every step keeps the ownership of the write guard of the quotes. -/
theorem writer_owned_step (h : s.LocksHeld) (hmove : Move s action t) :
    Locks.HeldAt t.writer t.background Background.writing := by
  have hwriter := h.writer
  cases hmove with
  | tryWrite b hat hfree => exact hwriter.acquire hfree rfl
  | finishUpdate b _ _ hat | panic b _ _ hat => exact hwriter.release (by rw [hat]; rfl) rfl
  | startSpawn k hat =>
      exact hwriter.keep (by rw [h.freshBackground s.bgSpawned (Nat.le_refl _)]; rfl)
  | check b hat => exact hwriter.keep (by rw [hat]; split <;> rfl)
  | sleep b hat | timeout b hat | visit b _ _ _ _ _ _ _ hat | notifyLock b _ hat
  | notify b _ _ _ hat | notified b hat =>
      exact hwriter.keep (by rw [hat]; rfl)
  | call | take | addLock | addStart | addInsert | addReplace | removeLock | removeTake
  | removeNone | removeSend | removeSendFails | removeJoin | dropSend | dropJoin | unlock
  | startLock | startRunning | startStore | shutdownFlag | shutdownLock | shutdownTake
  | shutdownNone | shutdownJoin | recv | skipRound | beginRound | processTicker | endRound
  | dropReceiver | terminate =>
      exact hwriter

/-! ## Read guards and spawn counters -/

/-- Only a client thread moves itself; every other step at most spawns one. -/
theorem point_step (hmove : Move s action t) (hclient : ∀ i result, action ≠ .client i result)
    (i : Nat) :
    (t.threads i).point = (s.threads i).point ∨
      i = s.spawned ∧ t.spawned = s.spawned + 1 ∧ (t.threads i).point = .recv := by
  cases hmove with
  | addStart k tickers callback hat =>
      by_cases hi : i = s.spawned
      · subst i
        exact .inr ⟨rfl, rfl, by simp [setCall, ClientThread.spawn]⟩
      · exact .inl (by simp [setCall, hi])
  | removeSend k id client threads hat hsend =>
      obtain ⟨tx, _, _, rfl⟩ := Client.try_send_eq_ok hsend
      refine .inl ?_
      by_cases hi : i = tx
      · subst i
        simp [setCall, ClientThread.push]
      · simp [setCall, hi]
  | dropSend | notify => exact .inl (Client.point_send_ignored i)
  | removeJoin | dropJoin => exact .inl (Client.point_drop_sender i)
  | recv | skipRound | beginRound | processTicker | endRound | dropReceiver | terminate =>
      exact absurd rfl (hclient _ _)
  | _ => exact .inl rfl

/-- The spawn counter of client threads moves only with a spawn. -/
theorem spawned_le_step (hmove : Move s action t) : s.spawned ≤ t.spawned := by
  cases hmove with
  | addStart => exact Nat.le_succ _
  | _ => exact Nat.le_refl _

/-- Read guards belong to the threads inside a ticker loop. -/
theorem readers_step (h : s.LocksHeld) (hmove : Move s action t) (i : Nat) :
    i ∈ t.readers ↔ (t.threads i).point.reading := by
  have hreaders := h.readers i
  have hother : (∀ i result, action ≠ .client i result) → t.readers = s.readers →
      (i ∈ t.readers ↔ (t.threads i).point.reading) := by
    intro hclient hsame
    rcases point_step hmove hclient i with hpoint | ⟨hi, -, hpoint⟩
    · rw [hsame, hpoint, hreaders]
    · rw [h.freshThreads i (Nat.le_of_eq hi.symm)] at hreaders
      rw [hsame, hpoint, hreaders]
      rfl
  cases hmove with
  | recv slot result th hat hrecv =>
      by_cases hi : i = slot
      · subst i
        have hpoint : th.point.reading = false := by
          rcases ClientThread.recv_cases hrecv with
            ⟨_, _, _, rfl⟩ | ⟨_, _, _, rfl⟩ | ⟨_, _, rfl⟩ <;> rfl
        rw [hat] at hreaders
        simp only [setThread, Function.update_self, hpoint]
        exact hreaders
      · simp [setThread, hi, hreaders]
  | skipRound slot result enqueued hat =>
      by_cases hi : i = slot
      · subst i
        simp [setThread, hreaders, hat, LoopPoint.reading, ClientThread.skipRound]
      · simp [setThread, hi, hreaders]
  | beginRound slot result enqueued hat =>
      by_cases hi : i = slot
      · subst i
        simp [setThread, LoopPoint.reading, ClientThread.beginRound]
      · simp [setThread, hi, hreaders]
  | processTicker slot result ticker rest hat =>
      by_cases hi : i = slot
      · subst i
        rw [hat] at hreaders
        simp only [setThread, Function.update_self]
        split <;> rename_i hreading
        · exact iff_of_true (hreaders.mpr rfl) hreading
        · simp [hreading, h.nodup.mem_erase_iff]
      · simp only [setThread, Function.update_of_ne hi]
        split
        · exact hreaders
        · rw [List.mem_erase_of_ne hi, hreaders]
  | endRound slot result hat =>
      by_cases hi : i = slot
      · subst i
        simp [setThread, LoopPoint.reading, ClientThread.endRound, h.nodup.mem_erase_iff]
      · simp only [setThread, Function.update_of_ne hi]
        rw [List.mem_erase_of_ne hi, hreaders]
  | dropReceiver slot result hat =>
      by_cases hi : i = slot
      · subst i
        simp [setThread, hreaders, hat, LoopPoint.reading, ClientThread.dropReceiver]
      · simp [setThread, hi, hreaders]
  | terminate slot result hat =>
      by_cases hi : i = slot
      · subst i
        simp [setThread, hreaders, hat, LoopPoint.reading, ClientThread.terminate]
      · simp [setThread, hi, hreaders]
  | _ => exact hother (by simp) rfl

/-- A read guard is taken only by a thread that has none, so the list of readers has no
repetition. -/
theorem readers_nodup_step (h : s.LocksHeld) (hmove : Move s action t) : t.readers.Nodup := by
  cases hmove with
  | beginRound slot result enqueued hat =>
      have hnot : slot ∉ s.readers := by
        rw [h.readers, hat]
        simp [LoopPoint.reading]
      exact List.nodup_cons.mpr ⟨hnot, h.nodup⟩
  | processTicker =>
      simp only [setThread]
      split
      · exact h.nodup
      · exact h.nodup.erase _
  | endRound => exact h.nodup.erase _
  | _ => exact h.nodup

/-- A write guard excludes every read guard. -/
theorem excluded_step (h : s.LocksHeld) (hmove : Move s action t) :
    t.writer ≠ none → t.readers = [] := by
  intro hwriter
  cases hmove with
  | beginRound slot result enqueued hat hfree => exact absurd hfree hwriter
  | tryWrite b hat hfree hreaders => exact hreaders
  | finishUpdate | panic => exact absurd rfl hwriter
  | processTicker =>
      have hnil := h.excluded hwriter
      simp [setThread, hnil]
  | endRound =>
      have hnil := h.excluded hwriter
      simp [setThread, hnil]
  | _ => exact h.excluded hwriter

/-- Background threads past the spawn counter do not run. -/
theorem fresh_background_step (h : s.LocksHeld) (hmove : Move s action t) (b : Nat)
    (hb : t.bgSpawned ≤ b) : t.background b = .exited := by
  cases hmove with
  | startSpawn k hat =>
      have hlt : s.bgSpawned < b := hb
      have hne : b ≠ s.bgSpawned := Nat.ne_of_gt hlt
      simp [setCall, hne, h.freshBackground b (Nat.le_of_lt hlt)]
  | check c hat | sleep c hat | tryWrite c hat | timeout c hat | visit c _ _ _ _ _ _ _ hat
  | finishUpdate c _ _ hat | panic c _ _ hat | notifyLock c _ hat | notify c _ _ _ hat
  | notified c hat =>
      have hexited := h.freshBackground b hb
      have hne : b ≠ c := by
        rintro rfl
        rw [hexited] at hat
        cases hat
      simp [setBackground, hne, hexited]
  | _ => exact h.freshBackground b hb

/-- Client threads past the spawn counter do not run. -/
theorem fresh_threads_step (h : s.LocksHeld) (hmove : Move s action t) (i : Nat)
    (hi : t.spawned ≤ i) : (t.threads i).point = .exited := by
  have hexited := h.freshThreads i (Nat.le_trans (spawned_le_step hmove) hi)
  have hother : (∀ i result, action ≠ .client i result) → (t.threads i).point = .exited := by
    intro hclient
    rcases point_step hmove hclient i with hpoint | ⟨rfl, hspawned, -⟩
    · rw [hpoint, hexited]
    · omega
  cases hmove with
  | recv slot result th hat | skipRound slot result enqueued hat | beginRound slot _ _ hat
  | processTicker slot _ _ _ hat | endRound slot _ hat | dropReceiver slot _ hat
  | terminate slot _ hat =>
      have hne : i ≠ slot := by
        rintro rfl
        rw [hexited] at hat
        cases hat
      simp [setThread, hne, hexited]
  | _ => exact hother (by simp)

/-! ## The invariant -/

theorem locks_held_init (quotes : Quotes) : (init quotes).LocksHeld where
  clients i := by cases i <;> simp [init, holdsClients, Call.holdsClients, Background.holdsClients]
  bg k := by simp [init, Call.holdsBg]
  writer b := by simp [init, Background.writing]
  readers t := by simp [init, ClientThread.absent, LoopPoint.reading]
  nodup := List.nodup_nil
  excluded _ := rfl
  freshBackground _ _ := rfl
  freshThreads _ _ := rfl

theorem locks_held_step (h : s.LocksHeld) (hmove : Move s action t) : t.LocksHeld where
  clients := clients_owned_step h hmove
  bg := bg_owned_step h hmove
  writer := writer_owned_step h hmove
  readers := readers_step h hmove
  nodup := readers_nodup_step h hmove
  excluded := excluded_step h hmove
  freshBackground := fresh_background_step h hmove
  freshThreads := fresh_threads_step h hmove

/-- In every reachable state the locks are held exactly where the program holds them. -/
theorem Reachable.locks_held {quotes : Quotes} (h : Reachable quotes s) : s.LocksHeld :=
  Transition.Reaches.invariant LocksHeld h (locks_held_init quotes)
    fun hinv _ hstep => locks_held_step hinv (step_move hstep)

end QuoteStreamer.Server
