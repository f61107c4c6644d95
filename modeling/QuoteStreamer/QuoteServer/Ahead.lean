import Mathlib.Data.Prod.Lex
import QuoteStreamer.QuoteServer.Ticker
import QuoteStreamer.QuoteServer.Waiting

/-!
# What is ahead of each thread

Bounds on the steps that a thread can still make: a caller up to the end of its call, the background
thread up to the clients mutex or to its loop condition, a client thread that is sent nothing more
up to its end. Each step of the thread lowers its bound, and what the steps of the others do to
it is said here once; nothing in this module depends on how the threads are scheduled.
-/

namespace QuoteStreamer

/-- A bound on the steps ahead of a thread that is sent nothing more. -/
def ClientThread.work (th : ClientThread) : Nat :=
  let backlog := (th.tickers.length + 3) * th.queue.length
  match th.point with
  | .exited => 0
  | .closed => 1
  | .leaving => 2
  | .recv => backlog + 3
  | .round rest => backlog + rest.length + 4
  | .readLock _ => backlog + th.tickers.length + 5

/-- A bound on the steps ahead of a background thread, up to the clients mutex, when the map has
this many quotes. -/
def Background.work (quotes : Nat) : Background → Nat
  | .check => quotes + 5
  | .sleep => quotes + 4
  | .tryWrite => quotes + 3
  | .updating todo _ => todo.length + 2
  | .notifyLock => 1
  | .notifying _ | .exited => 0

/-- What is left of a tick up to the loop condition. -/
def Background.toCheck : Background → ℕ ×ₗ ℕ
  | .check | .exited => toLex (0, 0)
  | .notifying todo => toLex (1, todo.length)
  | .notifyLock => toLex (2, 0)
  | .updating todo _ => toLex (3, todo.length)
  | .tryWrite => toLex (4, 0)
  | .sleep => toLex (5, 0)

/-- A bound on the steps of a caller up to the end of its call. -/
def Call.ahead : Call → Nat
  | .idle | .returned _ => 0
  | .removeLock _ => 7
  | .addLock .. | .removeTake _ => 6
  | .addStart .. | .removeSend .. => 5
  | .addInsert _ | .removeJoin .. | .shutdownFlag => 4
  | .dropSend .. | .startLock | .shutdownLock => 3
  | .dropJoin .. | .startCheck | .shutdownTake => 2
  | .unlock _ | .startStore _ | .shutdownJoin _ => 1

/-- A call that is not under way has not begun or has returned. -/
theorem Call.ahead_cases (call : Call) :
    call = .idle ∨ (∃ reply, call = .returned reply) ∨ 0 < call.ahead := by
  cases call <;> simp [ahead]

/-- Clients are joined under the clients mutex. -/
theorem Call.holds_clients_of_joins {call : Call} {slot : Nat}
    (h : call.joinsClient = some slot) : call.holdsClients = true := by
  cases call <;> simp [joinsClient, holdsClients] at h ⊢

namespace Server

variable {s t : Server} {action : Action} {k : Caller} {slot : Nat} {result : CallbackResult}

/-! ## Client threads -/

/-- A step of a client thread moves it to another point. -/
theorem client_point_ne (hmove : Move s (.client slot result) t) :
    (t.threads slot).point ≠ (s.threads slot).point := by
  cases hmove with
  | recv _ _ th hat hrecv =>
      rcases ClientThread.recv_cases hrecv with
        ⟨_, _, _, rfl⟩ | ⟨_, _, _, rfl⟩ | ⟨_, _, rfl⟩ <;> simp [setThread, hat]
  | processTicker _ _ ticker rest hat =>
      simp only [setThread, Function.update_self, ClientThread.processTicker, hat]
      split
      · by_cases hpanic : result = .panic <;> simp [hpanic]
      · simp
  | skipRound _ _ _ hat | beginRound _ _ _ hat | endRound _ _ hat | dropReceiver _ _ hat
  | terminate _ _ hat =>
      simp [setThread, hat, ClientThread.skipRound, ClientThread.beginRound, ClientThread.endRound,
        ClientThread.dropReceiver, ClientThread.terminate]

/-- The work ahead of a thread that has been told to stop shrinks with each step that moves it, and
nothing is added to it. -/
theorem ThreadMove.work {th : ClientThread} (h : ThreadMove s slot th) (hbound : slot < s.spawned)
    (hstopped : ClientCommand.shutdown ∈ (s.threads slot).sent ∨
      (s.threads slot).point.receiving = false) :
    th.work < (s.threads slot).work ∨
      th.work = (s.threads slot).work ∧ th.point = (s.threads slot).point := by
  have hoffer : ∀ cmd, (s.threads slot).InService →
      (s.threads slot).offer cmd s.version = s.threads slot := by
    intro cmd hservice
    rcases hstopped with hsent | hclosed
    · exact absurd hsent hservice.2
    · simp [ClientThread.offer, hclosed]
  cases h with
  | same => exact .inr ⟨rfl, rfl⟩
  | spawn _ _ hnew => exact absurd hbound (Nat.not_lt.mpr (Nat.le_of_eq hnew.symm))
  | update hservice | shutdown hservice =>
      rw [hoffer _ hservice]
      exact .inr ⟨rfl, rfl⟩
  | disconnect => exact .inr ⟨rfl, rfl⟩
  | recv _ hat hrecv =>
      left
      rcases ClientThread.recv_cases hrecv with
        ⟨_, _, hqueue, rfl⟩ | ⟨_, _, hqueue, rfl⟩ | ⟨hqueue, _, rfl⟩
      · simp only [ClientThread.work, hat, hqueue, List.length_cons, Nat.mul_succ]
        omega
      · simp only [ClientThread.work, hat]
        omega
      · simp only [ClientThread.work, hat]
        omega
  | processTicker result ticker rest hat =>
      left
      unfold ClientThread.processTicker
      split
      · by_cases hpanic : result = .panic <;>
          simp only [hpanic, if_true, if_false, ClientThread.work, hat, List.length_cons] <;> omega
      · simp only [ClientThread.work, hat, List.length_cons]
        omega
  | skipRound _ hat | beginRound _ hat =>
      left
      simp only [ClientThread.skipRound, ClientThread.beginRound, ClientThread.work, hat]
      omega
  | endRound hat | dropReceiver hat | terminate hat =>
      left
      simp only [ClientThread.endRound, ClientThread.dropReceiver, ClientThread.terminate,
        ClientThread.work, hat]
      omega

/-- A joined thread was spawned, and has been told to stop. -/
theorem Custody.joined (h : s.Custody) (hat : (s.callers k).joinsClient = some slot) :
    slot < s.spawned ∧ (ClientCommand.shutdown ∈ (s.threads slot).sent ∨
      (s.threads slot).point.receiving = false) := by
  refine ⟨?_, joined_client h hat⟩
  have hsound := h.calls k
  cases hcall : s.callers k <;> rw [hcall] at hat hsound <;> try cases hat
  case removeJoin id client =>
    obtain ⟨other, hheld, -⟩ := hsound
    obtain rfl : other = slot := Option.some.inj (hheld.drives.2.symm.trans hat)
    exact hheld.bound
  case dropJoin client reply =>
    rcases hsound with ⟨-, hhandle, -⟩ | ⟨other, hheld, -⟩
    · rw [show client.threadHandle = some slot from hat] at hhandle
      cases hhandle
    · obtain rfl : other = slot := Option.some.inj (hheld.drives.2.symm.trans hat)
      exact hheld.bound

/-! ## Callers -/

/-- The steps of a caller inside a call bring it nearer to the end. -/
theorem caller_ahead_lt (hmove : Move s (.caller k) t) :
    (t.callers k).ahead < (s.callers k).ahead ∧ t.callers k ≠ .idle := by
  cases hmove with
  | addLock _ _ _ hat | addStart _ _ _ hat | addInsert _ _ hat | addReplace _ _ _ hat
  | removeLock _ _ hat | removeTake _ _ _ hat | removeNone _ _ hat | removeSend _ _ _ _ hat
  | removeSendFails _ _ _ _ hat | removeJoin _ _ _ hat | dropSend _ _ _ hat | dropJoin _ _ _ hat
  | unlock _ _ hat | startLock _ hat | startRunning _ hat | startSpawn _ hat | startStore _ _ hat
  | shutdownFlag _ hat | shutdownLock _ hat | shutdownTake _ _ hat | shutdownNone _ hat
  | shutdownJoin _ _ hat =>
      simp [set_call_self, hat, Call.ahead]

/-- Inside a call a caller moves by its own steps only. -/
theorem caller_stays (hmove : Move s action t) (hahead : 0 < (s.callers k).ahead)
    (hother : action ≠ .caller k) : t.callers k = s.callers k := by
  rcases callers_step hmove (k := k) with hsame | hcaller | ⟨request, rfl⟩ | rfl
  · exact hsame
  · exact absurd hcaller hother
  all_goals
    cases hmove
    rename_i hat
    rw [hat] at hahead
    cases hahead

theorem ahead_pos_of_holds {call : Call} (h : call.holdsClients = true ∨ call.holdsBg = true) :
    0 < call.ahead := by
  cases call <;> simp [Call.holdsClients, Call.holdsBg, Call.ahead] at h ⊢

/-- A caller keeps the clients mutex until it unlocks it. -/
theorem caller_keeps_clients (hmove : Move s (.caller k) t)
    (hholds : (s.callers k).holdsClients = true) :
    t.clientsLock = none ∨ (t.callers k).holdsClients = true := by
  cases hmove with
  | unlock => exact .inl rfl
  | addStart _ _ _ hat | addInsert _ _ hat | addReplace _ _ _ hat | removeTake _ _ _ hat
  | removeNone _ _ hat | removeSend _ _ _ _ hat | removeSendFails _ _ _ _ hat
  | removeJoin _ _ _ hat | dropSend _ _ _ hat | dropJoin _ _ _ hat =>
      exact .inr (by simp [Call.holdsClients])
  | addLock _ _ _ hat | removeLock _ _ hat | startLock _ hat | startRunning _ hat
  | startSpawn _ hat | startStore _ _ hat | shutdownFlag _ hat | shutdownLock _ hat
  | shutdownTake _ _ hat | shutdownNone _ hat | shutdownJoin _ _ hat =>
      rw [hat] at hholds
      cases hholds

/-- A caller keeps the mutex of the background handle until it unlocks it. -/
theorem caller_keeps_bg (hmove : Move s (.caller k) t) (hholds : (s.callers k).holdsBg = true) :
    t.bgLock = none ∨ (t.callers k).holdsBg = true := by
  cases hmove with
  | startRunning | startStore | shutdownTake | shutdownNone => exact .inl rfl
  | startSpawn => exact .inr (by simp [Call.holdsBg])
  | addLock _ _ _ hat | addStart _ _ _ hat | addInsert _ _ hat | addReplace _ _ _ hat
  | removeLock _ _ hat | removeTake _ _ _ hat | removeNone _ _ hat | removeSend _ _ _ _ hat
  | removeSendFails _ _ _ _ hat | removeJoin _ _ _ hat | dropSend _ _ _ hat | dropJoin _ _ _ hat
  | unlock _ _ hat | startLock _ hat | shutdownFlag _ hat | shutdownLock _ hat
  | shutdownJoin _ _ hat =>
      rw [hat] at hholds
      cases hholds

/-! ## Background threads -/

/-- A running background thread moves by its own steps only. -/
theorem background_stays (hlocks : s.LocksHeld) (hmove : Move s action t) {b : Nat}
    (hrunning : s.background b ≠ .exited) (hother : ∀ choice, action ≠ .background b choice) :
    t.background b = s.background b := by
  have hset : ∀ {c : Nat} {point : Background}, b ≠ c →
      Function.update s.background c point b = s.background b := fun hne =>
    Function.update_of_ne hne ..
  cases hmove with
  | startSpawn =>
      refine hset ?_
      rintro rfl
      exact hrunning (hlocks.freshBackground s.bgSpawned (Nat.le_refl _))
  | check | sleep | tryWrite | timeout | visit | finishUpdate | panic | notifyLock | notify
  | notified =>
      refine hset ?_
      rintro rfl
      exact hother _ rfl
  | _ => rfl

/-- The writer of the quotes is the first background thread. -/
theorem writer_eq (hlocks : s.LocksHeld) (hone : OneTicker s.life) {b : Nat}
    (hwriter : s.writer = some b) : b = 0 := by
  have hwriting : (s.background b).writing = true := (hlocks.writer b).mp hwriter
  refine hone.ticking b ?_
  show (s.background b).phase = .tick
  cases hat : s.background b <;> rw [hat] at hwriting <;> first | rfl | cases hwriting

/-- The flag is never reset. -/
theorem flag_step (hmove : Move s action t) (hflag : s.shutdownFlag = true) :
    t.shutdownFlag = true := by
  cases hmove with
  | shutdownFlag => rfl
  | _ => exact hflag

/-- With the flag set, a background thread ends at the loop condition. -/
theorem check_ends {b : Nat} {choice : BackgroundChoice}
    (hmove : Move s (.background b choice) t) (hat : s.background b = .check)
    (hflag : s.shutdownFlag = true) : t.background b = .exited := by
  cases hmove with
  | check => simp [setBackground, hflag]
  | sleep _ hpoint | tryWrite _ hpoint | timeout _ hpoint | visit _ _ _ _ _ _ _ _ hpoint
  | finishUpdate _ _ _ hpoint | panic _ _ _ hpoint | notifyLock _ _ hpoint
  | notify _ _ _ _ hpoint | notified _ hpoint =>
      rw [hat] at hpoint
      cases hpoint

/-- Each other step of a background thread brings it nearer to the loop condition, or it ends. -/
theorem tick_goes_on {b : Nat} {choice : BackgroundChoice}
    (hmove : Move s (.background b choice) t) (hnot : s.background b ≠ .check) :
    t.background b = .exited ∨ (t.background b).toCheck < (s.background b).toCheck := by
  cases hmove with
  | check _ hat => exact absurd hat hnot
  | panic => exact .inl (by simp [setBackground])
  | visit _ key _ _ _ todo failed _ hat _ hkey =>
      have hlength := List.length_erase_of_mem hkey
      have hpositive := List.length_pos_of_mem hkey
      refine .inr ?_
      simp only [setBackground, Function.update_self, hat, Background.toCheck]
      exact Prod.Lex.toLex_lt_toLex.mpr (.inr ⟨rfl, by omega⟩)
  | sleep _ hat | tryWrite _ hat | timeout _ hat | finishUpdate _ _ _ hat | notifyLock _ _ hat
  | notify _ _ _ _ hat | notified _ hat =>
      exact .inr (by simp [setBackground, hat, Background.toCheck, Prod.Lex.toLex_lt_toLex])

/-- A bound on the steps of the ticking thread up to the clients mutex, its spawn included. -/
def tickWork (s : Server) : Nat :=
  let quotes := s.quotes.keys.length
  if s.bgSpawned = 0 then quotes + 6 else (s.background 0).work quotes

/-- The first background thread goes on. -/
theorem tick_work_lt (hlocks : s.LocksHeld) {point : Background}
    (hrunning : s.background 0 ≠ .exited)
    (hbackground : t.background = Function.update s.background 0 point)
    (hspawned : t.bgSpawned = s.bgSpawned)
    (hquotes : t.quotes.keys.length = s.quotes.keys.length)
    (hless : point.work s.quotes.keys.length < (s.background 0).work s.quotes.keys.length) :
    t.tickWork < s.tickWork := by
  have hsome : s.bgSpawned ≠ 0 := fun hzero =>
    hrunning (hlocks.freshBackground 0 (Nat.le_of_eq hzero))
  simpa [tickWork, hspawned, hsome, hquotes, hbackground] using hless

/-- While a caller holds the clients mutex, each step of the ticking thread shortens what it can
still do, and nobody else writes the quotes. -/
theorem tick_work_step (hlocks : s.LocksHeld) (hone : OneTicker s.life)
    (hlock : s.clientsLock = some (.caller k)) (hmove : Move s action t) :
    t.tickWork < s.tickWork ∨ t.tickWork = s.tickWork ∧ t.writer = s.writer ∧
      ∀ choice, action ≠ .background 0 choice := by
  have hticking : ∀ {b : Nat} {point : Background}, s.background b = point → point.phase = .tick →
      b = 0 := fun hat hphase => hone.ticking _ ((congrArg Background.phase hat).trans hphase)
  cases hmove with
  | startSpawn k hat hnone =>
      by_cases hzero : s.bgSpawned = 0
      · left
        simp [tickWork, setCall, hzero, Background.work]
      · right
        simp [tickWork, setCall, hzero, Ne.symm hzero]
  | check b hat =>
      by_cases hb : b = 0
      · subst hb
        refine .inl (tick_work_lt hlocks (by simp [hat]) rfl rfl rfl ?_)
        rw [hat]
        split <;> simp [Background.work]
      · exact .inr (by simp [tickWork, setBackground, Ne.symm hb, hb])
  | visit b key price volume timestamp todo failed q hat hq hkey =>
      obtain rfl := hticking hat rfl
      refine .inl (tick_work_lt hlocks (by simp [hat]) rfl rfl
        (congrArg List.length (AList.keys_replace ..)) ?_)
      have hlength := List.length_erase_of_mem hkey
      have hpos := List.length_pos_of_mem hkey
      rw [hat]
      simp only [Background.work]
      omega
  | sleep b hat | tryWrite b hat | timeout b hat | finishUpdate b _ _ hat | panic b _ _ hat =>
      obtain rfl := hticking hat rfl
      exact .inl (tick_work_lt hlocks (by simp [hat]) rfl rfl rfl
        (by rw [hat]; simp [Background.work]))
  | notifyLock b todo hat hfree =>
      rw [hlock] at hfree
      cases hfree
  | notify b id rest client hat =>
      have hholder := (hlocks.clients (.background b)).mpr
        (show (s.background b).holdsClients = true by rw [hat]; rfl)
      rw [hlock] at hholder
      cases hholder
  | notified b hat =>
      have hholder := (hlocks.clients (.background b)).mpr
        (show (s.background b).holdsClients = true by rw [hat]; rfl)
      rw [hlock] at hholder
      cases hholder
  | _ => exact .inr ⟨rfl, rfl, by simp⟩

/-! ## What is left to visit and to notify -/

/-- What a background thread has still to visit or to notify is in the map or in the registry. -/
structure Listed (s : Server) : Prop where
  update : ∀ b todo failed, s.background b = .updating todo failed →
    ∀ key ∈ todo, key ∈ s.quotes.keys
  pass : ∀ b todo, s.background b = .notifying todo → ∀ id ∈ todo, id ∈ s.clients.keys

/-- The keys of the map never change. -/
theorem quotes_keys_step (hmove : Move s action t) : t.quotes.keys = s.quotes.keys := by
  cases hmove with
  | visit => exact AList.keys_replace ..
  | _ => rfl

theorem listed_update_step (h : s.Listed) (hmove : Move s action t) {b : Nat} {todo : List Str}
    {failed : Bool} (hb : t.background b = .updating todo failed) {key : Str} (hkey : key ∈ todo) :
    key ∈ t.quotes.keys := by
  rw [quotes_keys_step hmove]
  have hset : ∀ {c : Nat} {point : Background},
      Function.update s.background c point b = .updating todo failed →
      (point = .updating todo failed → key ∈ s.quotes.keys) → key ∈ s.quotes.keys := by
    intro c point hb hpoint
    rcases Locks.moved_cases hb with ⟨-, hmoved⟩ | ⟨-, hstayed⟩
    · exact hpoint hmoved
    · exact h.update b todo failed hstayed key hkey
  cases hmove with
  | check c hat => exact hset hb fun hpoint => by split at hpoint <;> cases hpoint
  | tryWrite =>
      refine hset hb fun hpoint => ?_
      cases hpoint
      exact hkey
  | visit c key' _ _ _ todo' failed' _ hat =>
      refine hset hb fun hpoint => ?_
      cases hpoint
      exact h.update c todo' failed' hat key (List.mem_of_mem_erase hkey)
  | startSpawn | sleep | timeout | finishUpdate | panic | notifyLock | notify | notified =>
      exact hset hb nofun
  | _ => exact h.update b todo failed hb key hkey

theorem listed_pass_step (hlocks : s.LocksHeld) (h : s.Listed) (hmove : Move s action t) {b : Nat}
    {todo : List UInt64} (hb : t.background b = .notifying todo) {id : UInt64} (hid : id ∈ todo) :
    id ∈ t.clients.keys := by
  have hset : ∀ {c : Nat} {point : Background},
      Function.update s.background c point b = .notifying todo →
      (point = .notifying todo → id ∈ s.clients.keys) → id ∈ s.clients.keys := by
    intro c point hb hpoint
    rcases Locks.moved_cases hb with ⟨-, hmoved⟩ | ⟨-, hstayed⟩
    · exact hpoint hmoved
    · exact h.pass b todo hstayed id hid
  cases hmove with
  | addInsert k _ hat | addReplace k _ _ hat | removeTake k _ _ hat =>
      -- the registry changes under the mutex, which a pass in progress holds
      exact absurd hb (hlocks.no_pass (k := k) (by rw [hat]; rfl))
  | check c hat => exact hset hb fun hpoint => by split at hpoint <;> cases hpoint
  | notifyLock c todo' hat hfree horder =>
      refine hset hb fun hpoint => ?_
      cases hpoint
      exact horder.mem_iff.mp hid
  | notify c id' rest client hat =>
      refine hset hb fun hpoint => ?_
      cases hpoint
      exact h.pass c _ hat id (List.mem_cons_of_mem id' hid)
  | startSpawn | sleep | tryWrite | timeout | visit | finishUpdate | panic | notified =>
      exact hset hb nofun
  | _ => exact h.pass b todo hb id hid

theorem Reachable.listed {quotes : Quotes} (h : Reachable quotes s) : s.Listed := by
  refine Transition.Reaches.invariant_with Listed h (fun hrun => Reachable.locks_held hrun)
    ⟨fun _ _ _ => nofun, fun _ _ => nofun⟩ ?_
  exact fun hlocks _ hinv _ hstep =>
    ⟨fun _ _ _ hb _ => listed_update_step hinv (step_move hstep) hb,
      fun _ _ hb _ => listed_pass_step hlocks hinv (step_move hstep) hb⟩

end Server

end QuoteStreamer
