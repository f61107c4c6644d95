import QuoteStreamer.QuoteServer.Passes

/-!
# Who waits for whom

`Waits` lists the ways in which a thread of the server is held up by another: a mutex the other
holds, the lock of the quotes, or a join. Every wait goes from a higher to a lower rank of program
points, so no cycle of waiting threads is reachable; `blocked_caller_waits` and
`blocked_client_waits` say that nothing else blocks. A client thread that somebody joins finds a
`Shutdown` in its channel, unless it has left its loop.
-/

namespace QuoteStreamer

namespace Call

/-- At `clients.lock()`. -/
def locksClients : Call → Bool
  | .addLock .. | .removeLock _ => true
  | _ => false

/-- At `bg_thread.lock()`. -/
def locksBg : Call → Bool
  | .startLock | .shutdownLock => true
  | _ => false

/-- The client thread that the caller is joining. -/
def joinsClient : Call → Option Nat
  | .removeJoin _ client | .dropJoin client _ => client.threadHandle
  | _ => none

/-- The rank of a program point; a caller that waits for nothing has rank zero. -/
def rank : Call → Nat
  | .startLock | .shutdownLock => 1
  | .removeJoin .. | .dropJoin .. => 2
  | .addLock .. | .removeLock _ => 3
  | .shutdownJoin _ => 4
  | _ => 0

variable {call : Call} {slot : Nat}

theorem rank_holds_clients (h : call.holdsClients = true) : call.rank ≤ 2 := by
  cases call <;> simp [holdsClients, rank] at h ⊢

theorem rank_holds_bg (h : call.holdsBg = true) : call.rank = 0 := by
  cases call <;> simp [holdsBg, rank] at h ⊢

theorem rank_locks_clients (h : call.locksClients = true) : call.rank = 3 := by
  cases call <;> simp [locksClients, rank] at h ⊢

theorem rank_locks_bg (h : call.locksBg = true) : call.rank = 1 := by
  cases call <;> simp [locksBg, rank] at h ⊢

theorem rank_joins_client (h : call.joinsClient = some slot) : call.rank = 2 := by
  cases call <;> simp [joinsClient, rank] at h ⊢

end Call

namespace Background

def rank : Background → Nat
  | .tryWrite => 1
  | .notifyLock => 3
  | _ => 0

variable {point : Background}

theorem rank_le (point : Background) : point.rank ≤ 3 := by
  cases point <;> simp [rank]

theorem rank_holds_clients (h : point.holdsClients = true) : point.rank = 0 := by
  cases point <;> simp [holdsClients, rank] at h ⊢

theorem rank_writing (h : point.writing = true) : point.rank = 0 := by
  cases point <;> simp [writing, rank] at h ⊢

end Background

namespace LoopPoint

def rank : LoopPoint → Nat
  | .readLock _ => 1
  | _ => 0

variable {point : LoopPoint}

theorem rank_le (point : LoopPoint) : point.rank ≤ 1 := by
  cases point <;> simp [rank]

theorem rank_reading (h : point.reading = true) : point.rank = 0 := by
  cases point <;> simp [reading, rank] at h ⊢

end LoopPoint

namespace Server

/-- The first thread is held up by the second. -/
inductive Waits (s : Server) : ThreadId → ThreadId → Prop where
  | clientsLock (k : Caller) (holder : ThreadId) (hat : (s.callers k).locksClients = true)
      (hlock : s.clientsLock = some holder) : Waits s (.caller k) holder
  | bgLock (k j : Caller) (hat : (s.callers k).locksBg = true) (hlock : s.bgLock = some j) :
      Waits s (.caller k) (.caller j)
  | joinClient (k : Caller) (slot : Nat) (hat : (s.callers k).joinsClient = some slot)
      (hrunning : (s.threads slot).point ≠ .exited) : Waits s (.caller k) (.client slot)
  | joinBackground (k : Caller) (b : Nat) (hat : s.callers k = .shutdownJoin b)
      (hrunning : s.background b ≠ .exited) : Waits s (.caller k) (.background b)
  | notify (b : Nat) (holder : ThreadId) (hat : s.background b = .notifyLock)
      (hlock : s.clientsLock = some holder) : Waits s (.background b) holder
  | writeBehindReader (b t : Nat) (hat : s.background b = .tryWrite) (hreader : t ∈ s.readers) :
      Waits s (.background b) (.client t)
  | writeBehindWriter (b c : Nat) (hat : s.background b = .tryWrite) (hwriter : s.writer = some c) :
      Waits s (.background b) (.background c)
  | read (t b enqueued : Nat) (hat : (s.threads t).point = .readLock enqueued)
      (hwriter : s.writer = some b) : Waits s (.client t) (.background b)

/-- The rank of the point at which a thread stands. -/
def rank (s : Server) : ThreadId → Nat
  | .caller k => (s.callers k).rank
  | .background b => (s.background b).rank
  | .client t => (s.threads t).point.rank

variable {s : Server} {k : Caller} {slot : Nat}

/-! ## Ranks -/

/-- Whoever holds the clients mutex waits at most for a client thread. -/
theorem rank_clients_holder (hlocks : s.LocksHeld) {holder : ThreadId}
    (hlock : s.clientsLock = some holder) : s.rank holder ≤ 2 := by
  have hholds := (hlocks.clients holder).mp hlock
  cases holder with
  | caller k => exact Call.rank_holds_clients hholds
  | background b => exact (Background.rank_holds_clients hholds).trans_le (Nat.zero_le _)
  | client t => exact hholds.elim

/-- Whoever writes the quotes waits for nothing. -/
theorem rank_writer (hlocks : s.LocksHeld) {b : Nat} (hwriter : s.writer = some b) :
    (s.background b).rank = 0 :=
  Background.rank_writing ((hlocks.writer b).mp hwriter)

/-- Every wait goes down in rank. -/
theorem rank_lt_of_waits (hlocks : s.LocksHeld) (i j : ThreadId) (h : s.Waits i j) :
    s.rank j < s.rank i := by
  cases h with
  | clientsLock k holder hat hlock =>
      have hholder := rank_clients_holder hlocks hlock
      have hrank := Call.rank_locks_clients hat
      show s.rank j < (s.callers k).rank
      omega
  | bgLock k j hat hlock =>
      have hholder := Call.rank_holds_bg ((hlocks.bg j).mp hlock)
      have hrank := Call.rank_locks_bg hat
      show (s.callers j).rank < (s.callers k).rank
      omega
  | joinClient k slot hat =>
      have hrank := Call.rank_joins_client hat
      have hpoint := LoopPoint.rank_le (s.threads slot).point
      show (s.threads slot).point.rank < (s.callers k).rank
      omega
  | joinBackground k b hat =>
      have hpoint := Background.rank_le (s.background b)
      show (s.background b).rank < (s.callers k).rank
      rw [hat]
      exact Nat.lt_succ_of_le hpoint
  | notify b holder hat hlock =>
      have hholder := rank_clients_holder hlocks hlock
      show s.rank j < (s.background b).rank
      rw [hat]
      exact Nat.lt_succ_of_le hholder
  | writeBehindReader b t hat hreader =>
      have hpoint := LoopPoint.rank_reading ((hlocks.readers t).mp hreader)
      show (s.threads t).point.rank < (s.background b).rank
      rw [hat, hpoint]
      exact Nat.one_pos
  | writeBehindWriter b c hat hwriter =>
      show (s.background c).rank < (s.background b).rank
      rw [hat, rank_writer hlocks hwriter]
      exact Nat.one_pos
  | read t b enqueued hat hwriter =>
      show (s.background b).rank < (s.threads t).point.rank
      rw [hat, rank_writer hlocks hwriter]
      exact Nat.one_pos

/-! ## Nothing else blocks -/

/-- A caller inside a call that cannot go on waits for another thread. -/
theorem blocked_caller_waits (hidle : s.callers k ≠ .idle)
    (hreturned : ∀ reply, s.callers k ≠ .returned reply) (h : s.callerStep k = none) :
    ∃ j, s.Waits (.caller k) j := by
  have hlockClients : ∀ holder, s.lockClients holder = none → ∃ j, s.clientsLock = some j := by
    intro holder hnone
    unfold lockClients at hnone
    split at hnone <;> rename_i hlock
    · cases hnone
    · exact Option.ne_none_iff_exists'.mp hlock
  have hlockBg : s.lockBg k = none → ∃ j, s.bgLock = some j := by
    intro hnone
    unfold lockBg at hnone
    split at hnone <;> rename_i hlock
    · cases hnone
    · exact Option.ne_none_iff_exists'.mp hlock
  have hjoin : ∀ client : Client, client.joined s.threads = false →
      ∃ slot, client.threadHandle = some slot ∧ (s.threads slot).point ≠ .exited := by
    intro client hrunning
    unfold Client.joined at hrunning
    split at hrunning <;> rename_i hhandle
    · exact ⟨_, hhandle, by simpa using hrunning⟩
    · cases hrunning
  unfold callerStep at h
  split at h
  case h_1 hat => exact absurd hat hidle
  case h_2 reply hat => exact absurd hat (hreturned reply)
  -- `add_client` and `remove_client` wait for the clients mutex
  case h_3 hat | h_6 hat =>
    simp only [bind, Option.bind_eq_none_iff, pure] at h
    cases hlock : s.lockClients (.caller k) with
    | some locked => cases h locked hlock
    | none =>
        obtain ⟨j, hj⟩ := hlockClients _ hlock
        exact ⟨j, .clientsLock k j (by rw [hat]; rfl) hj⟩
  case h_4 | h_10 | h_12 | h_15 | h_16 => cases h
  case h_5 =>
    dsimp only at h
    split at h <;> cases h
  case h_7 => split at h <;> cases h
  case h_8 => split at h <;> cases h
  -- a removed client is joined, which waits for its thread
  case h_9 id client hat =>
    split at h <;> rename_i hjoined
    · cases h
    · obtain ⟨slot, hhandle, hrunning⟩ := hjoin client (by simpa using hjoined)
      exact ⟨.client slot, .joinClient k slot (by rw [hat]; exact hhandle) hrunning⟩
  case h_11 client reply hat =>
    split at h <;> rename_i hjoined
    · cases h
    · obtain ⟨slot, hhandle, hrunning⟩ := hjoin client (by simpa using hjoined)
      exact ⟨.client slot, .joinClient k slot (by rw [hat]; exact hhandle) hrunning⟩
  -- `start` and `shutdown` wait for the mutex around the handle
  case h_13 hat | h_17 hat =>
    simp only [bind, Option.bind_eq_none_iff, pure] at h
    cases hlock : s.lockBg k with
    | some locked => cases h locked hlock
    | none =>
        obtain ⟨j, hj⟩ := hlockBg hlock
        exact ⟨.caller j, .bgLock k j (by rw [hat]; rfl) hj⟩
  case h_14 => split at h <;> cases h
  case h_18 => cases h
  case h_19 number hat =>
    split at h <;> rename_i hjoined
    · cases h
    · exact ⟨.background number, .joinBackground k number hat hjoined⟩

/-- A client thread that cannot go on has terminated, waits for the writer of the quotes, or has an
empty channel that somebody can still send to. -/
theorem blocked_client_waits (h : ∀ result, s.clientStep slot result = none) :
    (s.threads slot).point = .exited ∨ (∃ j, s.Waits (.client slot) j) ∨
      ((s.threads slot).point = .recv ∧ (s.threads slot).queue = [] ∧
        (s.threads slot).connected = true) := by
  have hok := h .ok
  unfold clientStep at hok
  dsimp only at hok
  split at hok
  case h_1 hat =>
    refine .inr (.inr ⟨hat, ?_⟩)
    rw [Option.map_eq_none_iff] at hok
    unfold ClientThread.recv at hok
    split at hok <;> try cases hok
    rename_i hqueue
    split at hok <;> rename_i hconnected
    · exact ⟨hqueue, hconnected⟩
    · cases hok
  case h_2 enqueued hat =>
    split at hok <;> rename_i hwriter
    · split at hok <;> cases hok
    · obtain ⟨b, hb⟩ := Option.ne_none_iff_exists'.mp hwriter
      exact .inr (.inl ⟨.background b, .read slot b enqueued hat hb⟩)
  case h_3 ticker rest hat =>
    have hallowed : (s.threads slot).callback.allows .ok = true := by
      cases (s.threads slot).callback <;> rfl
    rw [if_pos hallowed] at hok
    cases hok
  case h_4 | h_5 | h_6 => cases hok
  case h_7 hat => exact .inl hat

/-! ## No deadlock -/

/-- A caller that joins a client thread holds the client that drives it, and the thread has been
told to stop unless its receiver is gone. -/
theorem joined_client (hcustody : s.Custody) (hat : (s.callers k).joinsClient = some slot) :
    ClientCommand.shutdown ∈ (s.threads slot).sent ∨
      (s.threads slot).point.receiving = false := by
  have hsound := hcustody.calls k
  cases hcall : s.callers k <;> rw [hcall] at hat hsound <;> try cases hat
  case removeJoin id client =>
    obtain ⟨other, hheld, hsent⟩ := hsound
    obtain rfl : other = slot := Option.some.inj (hheld.drives.2.symm.trans hat)
    exact .inl hsent
  case dropJoin client reply =>
    rcases hsound with ⟨-, hhandle, -⟩ | ⟨other, hheld, -, hsent⟩
    · rw [show client.threadHandle = some slot from hat] at hhandle
      cases hhandle
    · obtain rfl : other = slot := Option.some.inj (hheld.drives.2.symm.trans hat)
      exact hsent

/-- No cycle of waiting threads is reachable; and whenever a caller is joining a client thread,
the thread has left its loop or has a `Shutdown` in its queue, so that it does not wait on an empty
channel. -/
theorem no_deadlock {quotes : Quotes} (hs : Reachable quotes s) :
    (∀ i, ¬ Relation.TransGen s.Waits i i) ∧
    ∀ k slot, (s.callers k).joinsClient = some slot →
      ((s.threads slot).point.looping = false ∨
        ∃ q ∈ (s.threads slot).queue, q.command = .shutdown) ∧
      ((s.threads slot).point = .recv → (s.threads slot).queue ≠ []) := by
  have hlocks := Reachable.locks_held hs
  refine ⟨Locks.acyclic_of_rank (rank_lt_of_waits hlocks), fun k slot hat => ?_⟩
  have hjoined : (s.threads slot).point.looping = false ∨
      ∃ q ∈ (s.threads slot).queue, q.command = .shutdown := by
    cases hloop : (s.threads slot).point.looping with
    | false => exact .inl rfl
    | true =>
        rcases joined_client (Reachable.custody hs) hat with hsent | hclosed
        · exact .inr ((Reachable.backlog hs slot).shutdown_queued hloop hsent)
        · rw [LoopPoint.receiving_of_looping hloop] at hclosed
          cases hclosed
  refine ⟨hjoined, fun hrecv hempty => ?_⟩
  rcases hjoined with hleft | ⟨q, hq, -⟩
  · rw [hrecv] at hleft
    cases hleft
  · rw [hempty] at hq
    cases hq

/-- A removal in progress: the client thread has not taken its `Shutdown` yet. -/
def removalInProgress : List Action :=
  [.call (.other 0) (.addClient [] (.closure 0)), .caller (.other 0), .caller (.other 0),
    .caller (.other 0), .caller (.other 0), .take (.other 0),
    .call (.other 0) (.removeClient 0), .caller (.other 0), .caller (.other 0), .caller (.other 0)]

theorem no_deadlock_removal : ∃ s, Reachable ∅ s ∧ s.Waits (.caller (.other 0)) (.client 0) ∧
    (∀ i, ¬ Relation.TransGen s.Waits i i) ∧ (s.threads 0).queue ≠ [] := by
  obtain ⟨s, hrun, hjoin, hpoint⟩ :
      ∃ s, Transition.run step (init ∅) removalInProgress = some s ∧
        (s.callers (.other 0)).joinsClient = some 0 ∧ (s.threads 0).point = .recv :=
    ⟨_, rfl, rfl, rfl⟩
  have hs : Reachable ∅ s := Transition.reachable_of_run hrun
  obtain ⟨hacyclic, hjoins⟩ := no_deadlock hs
  exact ⟨s, hs, .joinClient _ 0 hjoin (by rw [hpoint]; simp), hacyclic, (hjoins _ 0 hjoin).2 hpoint⟩

end Server

end QuoteStreamer
