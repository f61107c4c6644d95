import QuoteStreamer.Lib.Fairness
import QuoteStreamer.QuoteServer.Ahead
import QuoteStreamer.QuoteServer.Quiescence

/-!
# Every call returns

Executions of the server under a fair scheduler. Under weak fairness each critical section of the
two mutexes comes to its end, also the one of `remove_client` that joins the client's thread: the
thread is sent nothing more, so that the work ahead of it only shrinks, and what it may wait for is
one tick, which cannot go past `notify_clients` while the registry is locked. Under strong fairness
a caller that waits for a mutex gets it some time, and so every call returns.
-/

namespace QuoteStreamer

open Fairness (Execution Enabled Descends)

/-- The thread that takes an action. Whether a method is called and when its answer is looked at is
up to the users of the server. -/
def Action.owner : Action → Option ThreadId
  | .call .. | .take _ => none
  | .caller k => some (.caller k)
  | .client t _ => some (.client t)
  | .background b _ => some (.background b)

namespace Server

variable {s t : Server} {action : Action} {k : Caller} {slot : Nat} {result : CallbackResult}

/-! ## Who can go on -/

/-- The thread that the holder of the clients mutex waits for, or the holder itself. -/
def helper (s : Server) (k : Caller) : ThreadId :=
  match (s.callers k).joinsClient with
  | none => .caller k
  | some slot =>
      match (s.threads slot).point, s.writer with
      | .exited, _ => .caller k
      | .readLock _, some b => .background b
      | _, _ => .client slot

/-- The work ahead of those that the holder of the clients mutex waits for. -/
def joinWork (s : Server) (k : Caller) : Nat :=
  match (s.callers k).joinsClient with
  | none => 0
  | some slot => (s.threads slot).work + s.tickWork

section Owner

variable {b : Nat}

theorem owner_caller (h : action.owner = some (.caller k)) : action = .caller k := by
  cases action <;> simp_all [Action.owner]

theorem owner_client (h : action.owner = some (.client slot)) :
    ∃ result, action = .client slot result := by
  cases action <;> simp_all [Action.owner]

theorem owner_background (h : action.owner = some (.background b)) :
    ∃ choice, action = .background b choice := by
  cases action <;> simp_all [Action.owner]

end Owner

/-- While another thread than the holder moves, the work that the holder waits for shrinks, or
nothing of it changes and the helpful thread has not moved. -/
theorem join_work_step (hlocks : s.LocksHeld) (hcustody : s.Custody) (hone : OneTicker s.life)
    (hlock : s.clientsLock = some (.caller k)) (hmove : Move s action t)
    (hstays : t.callers k = s.callers k) (hother : action ≠ .caller k) :
    t.joinWork k < s.joinWork k ∨ t.joinWork k = s.joinWork k ∧ t.helper k = s.helper k ∧
      action.owner ≠ some (s.helper k) := by
  have hcaller : action.owner ≠ some (.caller k) := fun howner => hother (owner_caller howner)
  cases hjoins : (s.callers k).joinsClient with
  | none =>
      have hself : s.helper k = .caller k := by simp [helper, hjoins]
      refine .inr ⟨by simp [joinWork, hstays, hjoins], by simp [helper, hstays, hjoins], ?_⟩
      rw [hself]
      exact hcaller
  | some slot =>
      obtain ⟨hbound, hstopped⟩ := hcustody.joined hjoins
      have htick := tick_work_step hlocks hone hlock hmove
      have hthread := (thread_step hcustody hmove slot).work hbound hstopped
      simp only [joinWork, hstays, hjoins]
      rcases htick with hless | ⟨htick, hwriter, hquiet⟩
      · left
        omega
      rcases hthread with hless | ⟨hwork, hpoint⟩
      · left
        omega
      refine .inr ⟨by rw [hwork, htick], by simp only [helper, hstays, hjoins, hpoint, hwriter],
        fun howner => ?_⟩
      simp only [helper, hjoins] at howner
      split at howner
      · exact hcaller howner
      · next b _ hsome =>
          obtain rfl := writer_eq hlocks hone hsome
          obtain ⟨choice, rfl⟩ := owner_background howner
          exact hquiet choice rfl
      · obtain ⟨result, rfl⟩ := owner_client howner
        exact client_point_ne hmove hpoint

theorem caller_enabled_of_ne (h : s.callerStep k ≠ none) :
    Enabled step Action.owner (.caller k) s := by
  obtain ⟨next, hnext⟩ := Option.ne_none_iff_exists'.mp h
  exact ⟨.caller k, next, rfl, hnext⟩

theorem client_step_none (h : ¬ Enabled step Action.owner (.client slot) s)
    (result : CallbackResult) : s.clientStep slot result = none := by
  by_contra hstep
  obtain ⟨next, hnext⟩ := Option.ne_none_iff_exists'.mp hstep
  exact h ⟨.client slot result, next, rfl, hnext⟩

/-- Inside a call a caller goes on or waits. -/
theorem caller_waits (hahead : 0 < (s.callers k).ahead)
    (hblocked : ¬ Enabled step Action.owner (.caller k) s) : ∃ j, s.Waits (.caller k) j := by
  have hidle : s.callers k ≠ .idle := fun hat => by simp [hat, Call.ahead] at hahead
  have hreturned : ∀ reply, s.callers k ≠ .returned reply := fun reply hat => by
    simp [hat, Call.ahead] at hahead
  refine blocked_caller_waits hidle hreturned ?_
  by_contra hstep
  exact hblocked (caller_enabled_of_ne hstep)

/-- The rank of a caller that waits says what it waits for. -/
theorem Waits.caller_cases {j : ThreadId} (h : s.Waits (.caller k) j) :
    ((s.callers k).rank = 3 ∧ s.clientsLock ≠ none) ∨ ((s.callers k).rank = 1 ∧ s.bgLock ≠ none) ∨
    (∃ slot, (s.callers k).rank = 2 ∧ (s.callers k).joinsClient = some slot ∧
      (s.threads slot).point ≠ .exited) ∨
    ∃ b, (s.callers k).rank = 4 ∧ s.callers k = .shutdownJoin b ∧ s.background b ≠ .exited := by
  cases h with
  | clientsLock _ holder hat hlock =>
      exact .inl ⟨Call.rank_locks_clients hat, by rw [hlock]; nofun⟩
  | bgLock _ holder hat hlock =>
      exact .inr (.inl ⟨Call.rank_locks_bg hat, by rw [hlock]; nofun⟩)
  | joinClient _ slot hat hrunning =>
      exact .inr (.inr (.inl ⟨slot, Call.rank_joins_client hat, hat, hrunning⟩))
  | joinBackground _ b hat hrunning => exact .inr (.inr (.inr ⟨b, by rw [hat]; rfl, hat, hrunning⟩))

/-- An update can go on: it visits a quote that is left, or ends. -/
theorem update_enabled (hlisted : s.Listed) {b : Nat}
    (hwriting : (s.background b).writing = true) :
    Enabled step Action.owner (.background b) s := by
  cases hat : s.background b <;> rw [hat] at hwriting <;> try cases hwriting
  case updating todo failed =>
    cases todo with
    | nil =>
        have hfinish : s.step (.background b .proceed) =
            some ({ s with writer := none }.setBackground b .notifyLock) := by
          simp [step, backgroundStep, hat]
        exact ⟨_, _, rfl, hfinish⟩
    | cons key rest =>
        have hkey := hlisted.update b _ failed hat key List.mem_cons_self
        obtain ⟨q, hq⟩ := Option.isSome_iff_exists.mp (AList.lookup_isSome.mpr hkey)
        have hvisit : s.step (.background b (.visit key q.price q.volume none)) = some ({ s with
            quotes := s.quotes.replace key (q.visited q.price q.volume none) }.setBackground b
              (.updating rest true)) := by
          simp [step, backgroundStep, hat, hq]
        exact ⟨_, _, rfl, hvisit⟩

/-- The holder of the clients mutex goes on unless it joins a running thread. -/
theorem holder_enabled (hholds : (s.callers k).holdsClients = true)
    (hjoins : ∀ slot, (s.callers k).joinsClient = some slot → (s.threads slot).point = .exited) :
    Enabled step Action.owner (.caller k) s := by
  by_contra hblocked
  obtain ⟨j, hwaits⟩ := caller_waits (ahead_pos_of_holds (.inl hholds)) hblocked
  have hrank := Call.rank_holds_clients hholds
  rcases hwaits.caller_cases with
    ⟨hwait, -⟩ | ⟨hwait, -⟩ | ⟨slot, -, hat, hrunning⟩ | ⟨b, hwait, -⟩
  · omega
  · cases hat : s.callers k <;> rw [hat] at hholds hwait <;> cases hholds <;> cases hwait
  · exact hrunning (hjoins slot hat)
  · omega

/-- The helpful thread can go on. -/
theorem helper_enabled {quotes : Quotes} (hs : Reachable quotes s)
    (hholds : (s.callers k).holdsClients = true) :
    Enabled step Action.owner (s.helper k) s := by
  unfold helper
  split
  case h_1 hjoins =>
    exact holder_enabled hholds fun slot hat => by rw [hjoins] at hat; cases hat
  case h_2 slot hjoins =>
    split
    case h_1 hexited =>
      refine holder_enabled hholds fun other hat => ?_
      obtain rfl : slot = other := Option.some.inj (hjoins.symm.trans hat)
      exact hexited
    case h_2 b _ hwriter =>
      exact update_enabled (Reachable.listed hs) (((Reachable.locks_held hs).writer b).mp hwriter)
    case h_3 hrunning hfree =>
      by_contra hblocked
      rcases blocked_client_waits (client_step_none hblocked) with
        hexited | ⟨j, hwaits⟩ | ⟨hrecv, hempty, -⟩
      · exact hrunning hexited
      · cases hwaits with
        | read _ b enqueued hat hwriter => exact hfree enqueued b hat hwriter
      · exact ((no_deadlock hs).2 k slot hjoins).2 hrecv hempty

/-- A pass can go on: it notifies a client that is left, or ends. -/
theorem pass_enabled (hlisted : s.Listed) {b : Nat}
    (hholds : (s.background b).holdsClients = true) :
    Enabled step Action.owner (.background b) s := by
  cases hat : s.background b <;> rw [hat] at hholds <;> try cases hholds
  case notifying todo =>
    cases todo with
    | nil =>
        have hfinish : s.step (.background b .proceed) =
            some ({ s with clientsLock := none }.setBackground b .check) := by
          simp [step, backgroundStep, hat]
        exact ⟨_, _, rfl, hfinish⟩
    | cons id rest =>
        have hid := hlisted.pass b _ hat id List.mem_cons_self
        obtain ⟨client, hfound⟩ := Option.isSome_iff_exists.mp (AList.lookup_isSome.mpr hid)
        have hnotify : s.step (.background b .proceed) = some ({ s with
            threads := client.sendIgnored .update s.version s.threads }.setBackground b
              (.notifying rest)) := by
          simp [step, backgroundStep, hat, hfound]
        exact ⟨_, _, rfl, hnotify⟩

/-- A running background thread that cannot go on stands at the clients mutex. -/
theorem blocked_background (hlisted : s.Listed) {b : Nat} (hrunning : s.background b ≠ .exited)
    (hblocked : ¬ Enabled step Action.owner (.background b) s) : s.background b = .notifyLock := by
  have hnone : ∀ choice, s.backgroundStep b choice = none := by
    intro choice
    by_contra hstep
    obtain ⟨next, hnext⟩ := Option.ne_none_iff_exists'.mp hstep
    exact hblocked ⟨.background b choice, next, rfl, hnext⟩
  cases hat : s.background b with
  | check | sleep =>
      have hproceed := hnone .proceed
      simp [backgroundStep, hat] at hproceed
  | tryWrite =>
      have htimeout := hnone .timeout
      simp [backgroundStep, hat] at htimeout
  | updating => exact absurd (update_enabled hlisted (by rw [hat]; rfl)) hblocked
  | notifyLock => rfl
  | notifying => exact absurd (pass_enabled hlisted (by rw [hat]; rfl)) hblocked
  | exited => exact absurd hat hrunning

theorem notify_lock_enabled {b : Nat} (hat : s.background b = .notifyLock)
    (hfree : s.clientsLock = none) : Enabled step Action.owner (.background b) s := by
  have hstep : s.step (.background b (.order s.clients.keys)) = some ({ s with
      clientsLock := some (.background b)
      atLock := s.clients
      history := .notified :: s.history }.setBackground b (.notifying s.clients.keys)) := by
    simp [step, backgroundStep, hat, lockClients, hfree]
  exact ⟨_, _, rfl, hstep⟩

/-! ## Executions that come to an end -/

/-- The thread has nothing left to do. -/
def Resting (s : Server) : ThreadId → Prop
  | .caller k => (s.callers k).ahead = 0
  | .background b => s.background b = .exited
  | .client slot => (s.threads slot).point = .exited

theorem Resting.disabled {i : ThreadId} (h : s.Resting i) : ¬ Enabled step Action.owner i s := by
  rintro ⟨action, next, howner, hstep⟩
  cases i with
  | caller k =>
      obtain rfl := owner_caller howner
      have hless := (caller_ahead_lt (step_move hstep)).1
      rw [show (s.callers k).ahead = 0 from h] at hless
      exact absurd hless (Nat.not_lt_zero _)
  | background b =>
      obtain ⟨choice, rfl⟩ := owner_background howner
      simp [step, backgroundStep, show s.background b = .exited from h] at hstep
  | client slot =>
      obtain ⟨result, rfl⟩ := owner_client howner
      simp [step, clientStep, show (s.threads slot).point = .exited from h] at hstep

/-- Where only the first threads were spawned, the other ones rest. -/
theorem Reachable.resting {quotes : Quotes} (hs : Reachable quotes s) (hspawned : s.spawned ≤ 1)
    (hbgSpawned : s.bgSpawned ≤ 1) (number : Nat) :
    s.Resting (.background (number + 1)) ∧ s.Resting (.client (number + 1)) :=
  ⟨(Reachable.locks_held hs).freshBackground _ (by omega),
    (Reachable.locks_held hs).freshThreads _ (by omega)⟩

/-- After the tick and the removal of `oneTickRemoved` the server is shut down. -/
def wholeLife : List Action :=
  oneTickRemoved ++ [.caller (.other 0), .take (.other 0)] ++ calling 0 .shutdown 3 ++
    [.background 0 .proceed, .caller (.other 0)]

theorem whole_life_fair (i : ThreadId) :
    (Execution.ofActions step (init oneQuote) wholeLife).StronglyFair Action.owner i := by
  obtain ⟨s, hrun, hcaller, hspawned, hbgSpawned, hthread, hbackground⟩ :
      ∃ s, Transition.run step (init oneQuote) wholeLife = some s ∧
        (s.callers (.other 0)).ahead = 0 ∧ s.spawned = 1 ∧ s.bgSpawned = 1 ∧
        (s.threads 0).point = .exited ∧ s.background 0 = .exited :=
    ⟨_, rfl, rfl, rfl, rfl, rfl, rfl⟩
  obtain ⟨hs, hsolo⟩ := solo_reaches hrun rfl
  have hothers := Reachable.resting hs.reachable (Nat.le_of_eq hspawned) (Nat.le_of_eq hbgSpawned)
  have hrest : s.Resting i := by
    match i with
    | .caller k =>
        show (s.callers k).ahead = 0
        by_cases hk : k = .other 0
        · rw [hk, hcaller]
        · rw [hsolo k hk]
          rfl
    | .background 0 => exact hbackground
    | .background (b + 1) => exact (hothers b).1
    | .client 0 => exact hthread
    | .client (slot + 1) => exact (hothers slot).2
  exact Execution.strongly_fair_of_actions hrun hrest.disabled

/-! ## The mutexes are released -/

section Executions

variable {quotes : Quotes} {e : Execution step (init quotes)}

/-- A caller in its critical section gets to the end of it. -/
theorem caller_releases_clients (hfair : ∀ i, e.WeaklyFair Action.owner i) (k : Caller) :
    e.LeadsTo (fun s => (s.callers k).holdsClients = true) (fun s => s.clientsLock = none) := by
  have hdescends : Descends step (init quotes) Action.owner
      (fun s => (s.callers k).holdsClients = true) (fun s => s.clientsLock = none)
      (fun s => toLex ((s.callers k).ahead, s.joinWork k)) (fun s => s.helper k) := by
    intro s t action hs hholds hstep
    have hmove := step_move hstep
    have hlocks := Reachable.locks_held hs
    have hlock : s.clientsLock = some (.caller k) := (hlocks.clients (.caller k)).mpr hholds
    by_cases hself : action = .caller k
    · subst hself
      rcases caller_keeps_clients hmove hholds with hreleased | hkept
      · exact .inl hreleased
      · exact .inr ⟨hkept, .inl (Prod.Lex.toLex_lt_toLex.mpr (.inl (caller_ahead_lt hmove).1))⟩
    · have hstays := caller_stays hmove (ahead_pos_of_holds (.inl hholds)) hself
      refine .inr ⟨(congrArg Call.holdsClients hstays).trans hholds, ?_⟩
      rcases join_work_step hlocks (Reachable.custody hs) (Reachable.one_ticker hs) hlock hmove
        hstays hself with hless | ⟨hwork, hhelper, howner⟩
      · exact .inl (Prod.Lex.toLex_lt_toLex.mpr (.inr ⟨congrArg Call.ahead hstays, hless⟩))
      · exact .inr ⟨by simp only [hstays, hwork], hhelper, howner⟩
  exact Execution.leads_to_of_enabled hfair hdescends fun hs hholds _ => helper_enabled hs hholds

/-- A background thread gets to the end of a section of its tick in which nothing blocks. -/
theorem background_gets_on (hfair : ∀ i, e.WeaklyFair Action.owner i) {holds : Background → Bool}
    {Q : Server → Prop} (b : Nat) (hcheck : holds .check = false) (hexited : holds .exited = false)
    (hown : ∀ {s t : Server} {choice : BackgroundChoice}, Move s (.background b choice) t →
      holds (s.background b) = true → Q t ∨ holds (t.background b) = true)
    (henabled : ∀ {s : Server}, s.Listed → holds (s.background b) = true →
      Enabled step Action.owner (.background b) s) :
    e.LeadsTo (fun s => holds (s.background b) = true) Q := by
  have hdescends : Descends step (init quotes) Action.owner
      (fun s => holds (s.background b) = true) Q (fun s => (s.background b).toCheck)
      (fun _ => .background b) := by
    intro s t action hs hholds hstep
    have hmove := step_move hstep
    by_cases hself : ∃ choice, action = .background b choice
    · obtain ⟨choice, rfl⟩ := hself
      rcases hown hmove hholds with hdone | hkept
      · exact .inl hdone
      · refine .inr ⟨hkept, .inl ?_⟩
        rcases tick_goes_on hmove (fun hat => by simp [hat, hcheck] at hholds) with hended | hless
        · rw [hended, hexited] at hkept
          cases hkept
        · exact hless
    · have hstays := background_stays (Reachable.locks_held hs) hmove
        (fun hended => by simp [hended, hexited] at hholds)
        (fun choice hchoice => hself ⟨choice, hchoice⟩)
      exact .inr ⟨(congrArg holds hstays).trans hholds, .inr ⟨congrArg Background.toCheck hstays,
        rfl, fun howner => hself (owner_background howner)⟩⟩
  exact Execution.leads_to_of_enabled hfair hdescends fun hs hholds _ =>
    henabled (Reachable.listed hs) hholds

/-- A pass gets to its end. -/
theorem pass_releases_clients (hfair : ∀ i, e.WeaklyFair Action.owner i) (b : Nat) :
    e.LeadsTo (fun s => (s.background b).holdsClients = true) (fun s => s.clientsLock = none) := by
  refine background_gets_on hfair b rfl rfl (fun hmove hholds => ?_)
    fun hlisted => pass_enabled hlisted
  cases hmove with
  | notified => exact .inl rfl
  | notify => exact .inr (by simp [setBackground, Background.holdsClients])
  | check _ hat | sleep _ hat | tryWrite _ hat | timeout _ hat | visit _ _ _ _ _ _ _ _ hat
  | finishUpdate _ _ _ hat | panic _ _ _ hat | notifyLock _ _ hat =>
      rw [hat] at hholds
      cases hholds

/-- An update gets to its end. -/
theorem update_releases_quotes (hfair : ∀ i, e.WeaklyFair Action.owner i) (b : Nat) :
    e.LeadsTo (fun s => (s.background b).writing = true) (fun s => s.writer = none) := by
  refine background_gets_on hfair b rfl rfl (fun hmove hwriting => ?_)
    fun hlisted => update_enabled hlisted
  cases hmove with
  | finishUpdate | panic => exact .inl rfl
  | visit => exact .inr (by simp [setBackground, Background.writing])
  | check _ hat | sleep _ hat | tryWrite _ hat | timeout _ hat | notifyLock _ _ hat
  | notify _ _ _ _ hat | notified _ hat =>
      rw [hat] at hwriting
      cases hwriting

/-- Under weak fairness the clients mutex is free again and again. An invocation of a callback is
one step here: callbacks return, or panic, and do not call the server. -/
theorem clients_mutex_released (hfair : ∀ i, e.WeaklyFair Action.owner i) (n : Nat) :
    ∃ m, n ≤ m ∧ (e.state m).clientsLock = none := by
  cases hlock : (e.state n).clientsLock with
  | none => exact ⟨n, le_rfl, hlock⟩
  | some holder =>
      have hholds := ((Reachable.locks_held (e.reachable n)).clients holder).mp hlock
      cases holder with
      | caller k => exact caller_releases_clients hfair k n hholds
      | background b => exact pass_releases_clients hfair b n hholds
      | client slot => exact hholds.elim

theorem clients_mutex_released_whole_life : ∃ e : Execution step (init oneQuote),
    (∀ i, e.WeaklyFair Action.owner i) ∧
    (e.state 7).clientsLock = some (.caller (.other 0)) ∧
    ∃ m, 7 ≤ m ∧ (e.state m).clientsLock = none :=
  have hfair := fun i => (whole_life_fair i).weakly_fair
  ⟨_, hfair, rfl, clients_mutex_released hfair 7⟩

/-- The caller under the mutex of the background handle gets to the end of its critical section. -/
theorem caller_releases_bg (hfair : ∀ i, e.WeaklyFair Action.owner i) (k : Caller) :
    e.LeadsTo (fun s => (s.callers k).holdsBg = true) (fun s => s.bgLock = none) := by
  have hdescends : Descends step (init quotes) Action.owner
      (fun s => (s.callers k).holdsBg = true) (fun s => s.bgLock = none)
      (fun s => (s.callers k).ahead) (fun _ => .caller k) := by
    intro s t action hs hholds hstep
    have hmove := step_move hstep
    by_cases hself : action = .caller k
    · subst hself
      rcases caller_keeps_bg hmove hholds with hreleased | hkept
      · exact .inl hreleased
      · exact .inr ⟨hkept, .inl (caller_ahead_lt hmove).1⟩
    · have hstays := caller_stays hmove (ahead_pos_of_holds (.inr hholds)) hself
      exact .inr ⟨(congrArg Call.holdsBg hstays).trans hholds,
        .inr ⟨congrArg Call.ahead hstays, rfl, fun howner => hself (owner_caller howner)⟩⟩
  refine Execution.leads_to_of_enabled hfair hdescends fun hs hholds _ => ?_
  by_contra hblocked
  obtain ⟨j, hwaits⟩ := caller_waits (ahead_pos_of_holds (.inr hholds)) hblocked
  have hrank := Call.rank_holds_bg hholds
  rcases hwaits.caller_cases with ⟨hwait, -⟩ | ⟨hwait, -⟩ | ⟨_, hwait, -⟩ | ⟨_, hwait, -⟩ <;> omega

/-- Under weak fairness the mutex of the background handle is free again and again. -/
theorem bg_mutex_released (hfair : ∀ i, e.WeaklyFair Action.owner i) (n : Nat) :
    ∃ m, n ≤ m ∧ (e.state m).bgLock = none := by
  cases hlock : (e.state n).bgLock with
  | none => exact ⟨n, le_rfl, hlock⟩
  | some k =>
      exact caller_releases_bg hfair k n (((Reachable.locks_held (e.reachable n)).bg k).mp hlock)

/-- Under weak fairness the quotes are free of writers again and again. -/
theorem write_guard_released (hfair : ∀ i, e.WeaklyFair Action.owner i) (n : Nat) :
    ∃ m, n ≤ m ∧ (e.state m).writer = none := by
  cases hwriter : (e.state n).writer with
  | none => exact ⟨n, le_rfl, hwriter⟩
  | some b =>
      exact update_releases_quotes hfair b n
        (((Reachable.locks_held (e.reachable n)).writer b).mp hwriter)

/-! ## Every call returns -/

/-- Once the flag is set, every background thread ends. -/
theorem background_ends (hfair : ∀ i, e.StronglyFair Action.owner i) (b : Nat) :
    e.LeadsTo (fun s => s.shutdownFlag = true) (fun s => s.background b = .exited) := by
  have hdescends : Descends step (init quotes) Action.owner
      (fun s => s.shutdownFlag = true ∧ s.background b ≠ .exited)
      (fun s => s.background b = .exited) (fun s => (s.background b).toCheck)
      (fun _ => .background b) := by
    rintro s t action hs ⟨hflag, hrunning⟩ hstep
    have hmove := step_move hstep
    have hset := flag_step hmove hflag
    by_cases hself : ∃ choice, action = .background b choice
    · obtain ⟨choice, rfl⟩ := hself
      by_cases hended : t.background b = .exited
      · exact .inl hended
      · rcases tick_goes_on hmove (fun hat => hended (check_ends hmove hat hflag)) with hnow | hless
        · exact absurd hnow hended
        · exact .inr ⟨⟨hset, hended⟩, .inl hless⟩
    · have hstays := background_stays (Reachable.locks_held hs) hmove hrunning
        (fun choice hchoice => hself ⟨choice, hchoice⟩)
      exact .inr ⟨⟨hset, fun hended => hrunning (hstays.symm.trans hended)⟩,
        .inr ⟨congrArg Background.toCheck hstays, rfl,
          fun howner => hself (owner_background howner)⟩⟩
  have hrunning : e.LeadsTo (fun s => s.shutdownFlag = true ∧ s.background b ≠ .exited)
      (fun s => s.background b = .exited) := by
    refine Execution.leads_to_of_recurring hfair hdescends fun n hblocked => ?_
    -- a thread that is never let on stands at the clients mutex, which is free some time
    have hpoint : ∀ m, n ≤ m → (e.state m).background b = .notifyLock := fun m hle =>
      blocked_background (Reachable.listed (e.reachable m)) (hblocked m hle).1.2
        (hblocked m hle).2.2
    obtain ⟨m, hle, hfree⟩ := clients_mutex_released (fun i => (hfair i).weakly_fair) n
    exact (hblocked m hle).2.2 (notify_lock_enabled (hpoint m hle) hfree)
  intro n hflag
  by_cases hended : (e.state n).background b = .exited
  · exact ⟨n, le_rfl, hended⟩
  · exact hrunning n ⟨hflag, hended⟩

/-- Under strong fairness every call returns, if callbacks return and do not call the server. -/
theorem every_call_returns (hfair : ∀ i, e.StronglyFair Action.owner i) (k : Caller) :
    e.LeadsTo (fun s => s.callers k ≠ .idle) (fun s => ∃ reply, s.callers k = .returned reply) := by
  have hdescends : Descends step (init quotes) Action.owner
      (fun s => 0 < (s.callers k).ahead) (fun s => ∃ reply, s.callers k = .returned reply)
      (fun s => (s.callers k).ahead) (fun _ => .caller k) := by
    intro s t action hs hahead hstep
    have hmove := step_move hstep
    by_cases hself : action = .caller k
    · subst hself
      obtain ⟨hless, hidle⟩ := caller_ahead_lt hmove
      rcases Call.ahead_cases (t.callers k) with hat | hreturned | hpositive
      · exact absurd hat hidle
      · exact .inl hreturned
      · exact .inr ⟨hpositive, .inl hless⟩
    · have hstays := caller_stays hmove hahead hself
      exact .inr ⟨hahead.trans_eq (congrArg Call.ahead hstays).symm,
        .inr ⟨congrArg Call.ahead hstays, rfl, fun howner => hself (owner_caller howner)⟩⟩
  have hahead : e.LeadsTo (fun s => 0 < (s.callers k).ahead)
      (fun s => ∃ reply, s.callers k = .returned reply) := by
    refine Execution.leads_to_of_recurring hfair hdescends fun n hblocked => ?_
    -- a caller that is never let on stays where it waits, and what it waits for happens some time
    have hstays : ∀ m, n ≤ m → (e.state m).callers k = (e.state n).callers k := fun m hle =>
      e.frozen (fun s => s.callers k)
        (fun _ hahead hstep howner =>
          caller_stays (step_move hstep) hahead fun hself => howner (by rw [hself]; rfl))
        (fun m hle => ⟨(hblocked m hle).1, (hblocked m hle).2.2⟩) hle
    have hwaits : ∀ m, n ≤ m → ∃ j, (e.state m).Waits (.caller k) j := fun m hle =>
      caller_waits (hblocked m hle).1 (hblocked m hle).2.2
    have hrank : ∀ m, n ≤ m → ((e.state m).callers k).rank = ((e.state n).callers k).rank :=
      fun m hle => congrArg Call.rank (hstays m hle)
    have hweak : ∀ i, e.WeaklyFair Action.owner i := fun i => (hfair i).weakly_fair
    obtain ⟨j, hnow⟩ := hwaits n le_rfl
    rcases hnow.caller_cases with
      ⟨hclients, -⟩ | ⟨hbg, -⟩ | ⟨slot, hjoin, hslot, -⟩ | ⟨b, hjoin, hat, -⟩
    · obtain ⟨m, hle, hfree⟩ := clients_mutex_released hweak n
      obtain ⟨j, hlater⟩ := hwaits m hle
      have hsame := hrank m hle
      rcases hlater.caller_cases with ⟨-, hheld⟩ | ⟨hwait, -⟩ | ⟨_, hwait, -⟩ | ⟨_, hwait, -⟩
      · exact hheld hfree
      all_goals omega
    · obtain ⟨m, hle, hfree⟩ := bg_mutex_released hweak n
      obtain ⟨j, hlater⟩ := hwaits m hle
      have hsame := hrank m hle
      rcases hlater.caller_cases with ⟨hwait, -⟩ | ⟨-, hheld⟩ | ⟨_, hwait, -⟩ | ⟨_, hwait, -⟩
      · omega
      · exact hheld hfree
      all_goals omega
    · obtain ⟨m, hle, hfree⟩ := clients_mutex_released hweak n
      have hholds : ((e.state m).callers k).holdsClients = true := by
        rw [hstays m hle]
        exact Call.holds_clients_of_joins hslot
      have hheld := ((Reachable.locks_held (e.reachable m)).clients (.caller k)).mpr hholds
      rw [hfree] at hheld
      cases hheld
    · have hflag : (e.state n).shutdownFlag = true :=
        (Reachable.one_ticker (e.reachable n)).stopping k
          (congrArg (fun call => call.life.stopping) hat)
      obtain ⟨m, hle, hended⟩ := background_ends hfair b n hflag
      obtain ⟨j, hlater⟩ := hwaits m hle
      have hsame := hrank m hle
      rcases hlater.caller_cases with
        ⟨hwait, -⟩ | ⟨hwait, -⟩ | ⟨_, hwait, -⟩ | ⟨c, -, hat', hrunning⟩
      · omega
      · omega
      · omega
      · rw [hstays m hle, hat] at hat'
        cases hat'
        exact hrunning hended
  intro n hcalled
  rcases Call.ahead_cases ((e.state n).callers k) with hat | hreturned | hpositive
  · exact absurd hat hcalled
  · exact ⟨n, le_rfl, hreturned⟩
  · exact hahead n hpositive

theorem every_call_returns_whole_life : ∃ e : Execution step (init oneQuote),
    (∀ i, e.StronglyFair Action.owner i) ∧
    ∃ m, 7 ≤ m ∧ ∃ reply, (e.state m).callers (.other 0) = .returned reply :=
  ⟨_, whole_life_fair, every_call_returns whole_life_fair (.other 0) 7 (by nofun)⟩

end Executions

end Server

end QuoteStreamer
