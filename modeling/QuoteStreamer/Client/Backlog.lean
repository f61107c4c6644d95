import QuoteStreamer.Client.Rounds

/-!
# The backlog of one client

Every command that a channel has accepted is in one of two places: the thread has taken it, or it is
still queued. As long as the thread loops it has taken `Update`s only, one for each of its rounds;
when it has left the loop without a panic, every `Update` it was ever sent has had its round.
-/

namespace QuoteStreamer

namespace ClientThread

/-- A `Sender` of the channel exists and no `Shutdown` was sent. -/
def InService (th : ClientThread) : Prop :=
  th.connected = true ∧ ClientCommand.shutdown ∉ th.sent

/-- The channel has accepted `Update`s and at most one `Shutdown`, which came last. -/
def Orderly (th : ClientThread) : Prop :=
  ∃ count, th.sent = List.replicate count .update ∨
    th.sent = List.replicate count .update ++ [.shutdown]

/-- The number of `Update`s taken from the channel, given that no round was skipped. -/
def taken (th : ClientThread) : Nat :=
  match th.point with
  | .readLock _ => th.rounds.length + 1
  | _ => th.rounds.length

/-- The number of `Update`s sent. -/
def updates (th : ClientThread) : Nat :=
  th.sent.count .update

/-- Where the accepted commands are. Rounds are skipped only when the lock of the quotes is
poisoned. -/
structure Backlog (th : ClientThread) (poisoned : Bool) : Prop where
  queued : th.point.looping = true → ∃ before, th.sent = before ++ th.queue.map Queued.command ∧
    ClientCommand.shutdown ∉ before ∧ (poisoned = false → before.length = th.taken)
  ended : th.panicked = false → th.point.looping = false → ¬ th.InService ∧
    (poisoned = false → th.updates = th.rounds.length)

variable {th after : ClientThread} {poisoned : Bool}

/-- Without a `Shutdown` there are only `Update`s. -/
theorem count_update {commands : List ClientCommand} (h : ClientCommand.shutdown ∉ commands) :
    commands.count .update = commands.length := by
  refine List.count_eq_length.mpr fun cmd hcmd => ?_
  cases cmd with
  | update => rfl
  | shutdown => exact absurd hcmd h

/-- In an orderly channel nothing follows a `Shutdown`. -/
theorem Orderly.nothing_after_shutdown (h : th.Orderly) {before behind : List ClientCommand}
    (hsplit : th.sent = before ++ .shutdown :: behind) : behind = [] := by
  obtain ⟨count, hsent | hsent⟩ := h
  · have hmem : ClientCommand.shutdown ∈ List.replicate count ClientCommand.update := by
      rw [← hsent, hsplit]
      simp
    simp at hmem
  · rcases List.eq_nil_or_concat behind with hnil | ⟨front, last, rfl⟩
    · exact hnil
    · have hdrop : List.replicate count ClientCommand.update = before ++ .shutdown :: front := by
        have hlists := congrArg List.dropLast (hsent.symm.trans hsplit)
        simpa [List.dropLast_append_of_ne_nil, List.dropLast_cons_of_ne_nil] using hlists
      have hmem : ClientCommand.shutdown ∈ List.replicate count ClientCommand.update := by
        rw [hdrop]
        simp
      simp at hmem

/-- A thread in service that has not panicked is in its loop. -/
theorem Backlog.looping (h : th.Backlog poisoned) (hservice : th.InService)
    (hcalm : th.panicked = false) : th.point.looping = true := by
  by_contra hleft
  exact (h.ended hcalm (by simpa using hleft)).1 hservice

/-- A looping thread that was sent a `Shutdown` has it in its queue. -/
theorem Backlog.shutdown_queued (h : th.Backlog poisoned) (hloop : th.point.looping = true)
    (hsent : ClientCommand.shutdown ∈ th.sent) : ∃ q ∈ th.queue, q.command = .shutdown := by
  obtain ⟨before, heq, hbefore, -⟩ := h.queued hloop
  rw [heq] at hsent
  rcases List.mem_append.mp hsent with hsent | hsent
  · exact absurd hsent hbefore
  · exact List.mem_map.mp hsent

theorem backlog_spawn (tickers : List Str) (callback : Callback) :
    (spawn tickers callback).Backlog poisoned where
  queued _ := ⟨[], rfl, by simp, fun _ => rfl⟩
  ended _ hleft := by cases hleft

/-- Nothing is known of the skipped rounds once the lock is poisoned. -/
theorem Backlog.mono (h : th.Backlog poisoned) {poisoned' : Bool}
    (himp : poisoned' = false → poisoned = false) : th.Backlog poisoned' where
  queued hloop := by
    obtain ⟨before, heq, hbefore, hlength⟩ := h.queued hloop
    exact ⟨before, heq, hbefore, fun hsound => hlength (himp hsound)⟩
  ended hcalm hleft := by
    obtain ⟨hservice, hcount⟩ := h.ended hcalm hleft
    exact ⟨hservice, fun hsound => hcount (himp hsound)⟩

/-- A command offered to a thread in service. -/
theorem Backlog.offer (h : th.Backlog poisoned) (hservice : th.InService) (cmd : ClientCommand)
    (version : Nat) : (th.offer cmd version).Backlog poisoned := by
  unfold ClientThread.offer
  split
  · refine ⟨fun hloop => ?_, fun hcalm hleft => absurd hservice (h.ended hcalm hleft).1⟩
    obtain ⟨before, heq, hbefore, hlength⟩ := h.queued hloop
    refine ⟨before, ?_, hbefore, hlength⟩
    simp [push, heq]
  · exact h

/-- The thread takes a command, or finds the channel disconnected. -/
theorem Backlog.recv (h : th.Backlog poisoned) (horderly : th.Orderly) (hat : th.point = .recv)
    (hrecv : th.recv = some after) : after.Backlog poisoned := by
  obtain ⟨before, heq, hbefore, hlength⟩ := h.queued (by rw [hat]; rfl)
  have hlength : poisoned = false → before.length = th.rounds.length := by
    simpa [taken, hat] using hlength
  rcases recv_cases hrecv with
    ⟨version, rest, hqueue, rfl⟩ | ⟨version, rest, hqueue, rfl⟩ | ⟨hqueue, hconnected, rfl⟩
  · refine ⟨fun _ => ⟨before ++ [.update], ?_, ?_, fun hsound => ?_⟩, fun _ hleft => by cases hleft⟩
    · simpa [hqueue] using heq
    · simpa using hbefore
    · have hsame := hlength hsound
      simp only [List.length_append, List.length_singleton, taken]
      omega
  · rw [hqueue, List.map_cons] at heq
    have hrest := horderly.nothing_after_shutdown heq
    refine ⟨fun hloop => (by cases hloop), fun _ _ => ⟨fun hservice => ?_, fun hsound => ?_⟩⟩
    · exact hservice.2 (by show ClientCommand.shutdown ∈ th.sent; rw [heq]; simp)
    · show th.sent.count .update = th.rounds.length
      rw [heq, hrest, ← hlength hsound, ← count_update hbefore]
      simp
  · rw [hqueue] at heq
    refine ⟨fun hloop => (by cases hloop), fun _ _ => ⟨fun hservice => ?_, fun hsound => ?_⟩⟩
    · rw [show th.connected = true from hservice.1] at hconnected
      cases hconnected
    · show th.sent.count .update = th.rounds.length
      rw [heq, ← hlength hsound, ← count_update hbefore]
      simp

/-- A round is skipped because the lock is poisoned. -/
theorem Backlog.skip_round (h : th.Backlog true) {enqueued : Nat}
    (hat : th.point = .readLock enqueued) : th.skipRound.Backlog true where
  queued _ := by
    obtain ⟨before, heq, hbefore, -⟩ := h.queued (by rw [hat]; rfl)
    exact ⟨before, heq, hbefore, fun hsound => by cases hsound⟩
  ended _ hleft := by cases hleft

theorem Backlog.begin_round (h : th.Backlog poisoned) {enqueued version : Nat} {quotes : Quotes}
    (hat : th.point = .readLock enqueued) :
    (th.beginRound enqueued quotes version).Backlog poisoned where
  queued _ := by
    obtain ⟨before, heq, hbefore, hlength⟩ := h.queued (by rw [hat]; rfl)
    rw [taken, hat] at hlength
    exact ⟨before, heq, hbefore, hlength⟩
  ended _ hleft := by cases hleft

@[simp] theorem length_record_call (call : Invocation) (rounds : List Round) :
    (recordCall call rounds).length = rounds.length := by
  cases rounds <;> rfl

theorem Backlog.process_ticker (h : th.Backlog poisoned) {ticker : Str} {rest : List Str}
    (hat : th.point = .round (ticker :: rest)) (quotes : Quotes) (version : Nat)
    (result : CallbackResult) :
    (th.processTicker ticker rest quotes version result).Backlog poisoned := by
  obtain ⟨before, heq, hbefore, hlength⟩ := h.queued (by rw [hat]; rfl)
  rw [taken, hat] at hlength
  unfold processTicker
  split
  · by_cases hpanic : result = .panic
    · -- the thread leaves by the panic
      subst hpanic
      exact ⟨fun hloop => (by cases hloop), fun hcalm => by simp at hcalm⟩
    · simp only [hpanic, if_false, decide_false, Bool.or_false]
      refine ⟨fun _ => ⟨before, heq, hbefore, fun hsound => ?_⟩, fun _ hleft => by cases hleft⟩
      simpa [taken] using hlength hsound
  · exact ⟨fun _ => ⟨before, heq, hbefore, hlength⟩, fun _ hleft => by cases hleft⟩

theorem Backlog.end_round (h : th.Backlog poisoned) (hat : th.point = .round []) :
    th.endRound.Backlog poisoned where
  queued _ := by
    obtain ⟨before, heq, hbefore, hlength⟩ := h.queued (by rw [hat]; rfl)
    rw [taken, hat] at hlength
    exact ⟨before, heq, hbefore, hlength⟩
  ended _ hleft := by cases hleft

/-- A thread past its loop that receives nothing any more. -/
theorem Backlog.leave (h : th.Backlog poisoned) (hthen : th.point.looping = false)
    (hnow : after.point.looping = false) (hsent : after.sent = th.sent)
    (hrounds : after.rounds = th.rounds) (hpanicked : after.panicked = th.panicked)
    (hconnected : after.connected = true → th.connected = true) : after.Backlog poisoned where
  queued hloop := by
    rw [hnow] at hloop
    cases hloop
  ended hcalm _ := by
    obtain ⟨hservice, hcount⟩ := h.ended (hpanicked.symm.trans hcalm) hthen
    refine ⟨fun hafter => hservice ⟨hconnected hafter.1, by rw [← hsent]; exact hafter.2⟩,
      fun hsound => ?_⟩
    rw [updates, hsent, hrounds]
    exact hcount hsound

end ClientThread

end QuoteStreamer
