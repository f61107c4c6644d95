import QuoteStreamer.QuoteServer.Custody

/-!
# What one step does to one client thread

`ThreadMove s i th` lists what a step of the server can make of the client thread `i`. Because of
custody, commands come only from somebody who still has the `Sender` and before any `Shutdown`, and
the last `Sender` goes only after the thread has terminated. Invariants of single threads are case
analyses over this list.
-/

namespace QuoteStreamer.Server

/-- What a step can make of the thread `i`. -/
inductive ThreadMove (s : Server) (i : Nat) : ClientThread → Prop where
  | same : ThreadMove s i (s.threads i)
  | spawn (tickers : List Str) (callback : Callback) (hnew : i = s.spawned) :
      ThreadMove s i (.spawn tickers callback)
  | update (hservice : (s.threads i).InService) :
      ThreadMove s i ((s.threads i).offer .update s.version)
  | shutdown (hservice : (s.threads i).InService) :
      ThreadMove s i ((s.threads i).offer .shutdown s.version)
  | disconnect (hconnected : (s.threads i).connected = true)
      (hexited : (s.threads i).point = .exited) : ThreadMove s i (s.threads i).disconnect
  | recv (th : ClientThread) (hat : (s.threads i).point = .recv)
      (hrecv : (s.threads i).recv = some th) : ThreadMove s i th
  | skipRound (enqueued : Nat) (hat : (s.threads i).point = .readLock enqueued)
      (hpoisoned : s.poisoned = true) : ThreadMove s i (s.threads i).skipRound
  | beginRound (enqueued : Nat) (hat : (s.threads i).point = .readLock enqueued)
      (hfree : s.writer = none) (hpoisoned : s.poisoned = false) :
      ThreadMove s i ((s.threads i).beginRound enqueued s.quotes s.version)
  | processTicker (result : CallbackResult) (ticker : Str) (rest : List Str)
      (hat : (s.threads i).point = .round (ticker :: rest))
      (hallowed : (s.threads i).callback.allows result = true) :
      ThreadMove s i ((s.threads i).processTicker ticker rest s.quotes s.version result)
  | endRound (hat : (s.threads i).point = .round []) : ThreadMove s i (s.threads i).endRound
  | dropReceiver (hat : (s.threads i).point = .leaving) :
      ThreadMove s i (s.threads i).dropReceiver
  | terminate (hat : (s.threads i).point = .closed) : ThreadMove s i (s.threads i).terminate

variable {s t : Server} {action : Action} {client : Client} {slot i : Nat}

/-- Where one entry of the table changes, the others stay. -/
theorem ThreadMove.of_update {th : ClientThread} (h : ThreadMove s slot th) (i : Nat) :
    ThreadMove s i (Function.update s.threads slot th i) :=
  (Function.forall_update_iff s.threads (ThreadMove s)).mpr ⟨h, fun _ _ => .same⟩ i

/-- The `Sender` of a held client is dropped after the join. -/
theorem thread_drop_sender (hheld : s.Held client slot) (hjoin : client.joined s.threads = true)
    (i : Nat) : ThreadMove s i (client.dropSender s.threads i) := by
  rw [hheld.drives.drop_sender]
  exact (ThreadMove.disconnect hheld.connected (hheld.drives.joined_iff.mp hjoin)).of_update i

/-- Every step makes one of the listed changes to each client thread. -/
theorem thread_step (hcustody : s.Custody) (hmove : Move s action t) (i : Nat) :
    ThreadMove s i (t.threads i) := by
  cases hmove with
  | addStart k tickers callback => exact (ThreadMove.spawn tickers callback rfl).of_update i
  | removeSend k id client threads hat hsend =>
      have hsound := hcustody.calls k
      rw [hat] at hsound
      obtain ⟨slot, hheld, hservice⟩ := hsound
      obtain ⟨tx, htx, hlive, rfl⟩ := Client.try_send_eq_ok hsend
      obtain rfl : slot = tx := Option.some.inj (hheld.drives.1.symm.trans htx)
      -- the receiver is alive, so sending and offering are the same
      have hpush : (s.threads slot).push .shutdown s.version =
          (s.threads slot).offer .shutdown s.version := by simp [ClientThread.offer, hlive]
      rw [hpush]
      exact (ThreadMove.shutdown hservice).of_update i
  | removeJoin k id client hat hjoin =>
      have hsound := hcustody.calls k
      rw [hat] at hsound
      obtain ⟨slot, hheld, -⟩ := hsound
      exact thread_drop_sender hheld hjoin i
  | dropSend k client reply hat =>
      have hsound := hcustody.calls k
      rw [hat] at hsound
      rcases hsound with ⟨htx, -, -⟩ | ⟨slot, hheld, hservice, -⟩
      · have hsame : client.sendIgnored .shutdown s.version s.threads = s.threads := by
          simp [Client.sendIgnored, Client.trySend, htx]
        rw [hsame]
        exact .same
      · rw [hheld.drives.send_ignored]
        exact (ThreadMove.shutdown hservice).of_update i
  | dropJoin k client reply hat hjoin =>
      have hsound := hcustody.calls k
      rw [hat] at hsound
      rcases hsound with ⟨htx, -, -⟩ | ⟨slot, hheld, -⟩
      · have hsame : client.dropSender s.threads = s.threads := by simp [Client.dropSender, htx]
        rw [hsame]
        exact .same
      · exact thread_drop_sender hheld hjoin i
  | notify b id rest client hat hfound =>
      obtain ⟨slot, hreg⟩ := hcustody.registered id client hfound
      rw [hreg.drives.send_ignored]
      exact (ThreadMove.update hreg.service).of_update i
  | recv slot result th hat hrecv => exact (ThreadMove.recv th hat hrecv).of_update i
  | skipRound slot result enqueued hat hfree hpoisoned =>
      exact (ThreadMove.skipRound enqueued hat hpoisoned).of_update i
  | beginRound slot result enqueued hat hfree hpoisoned =>
      exact (ThreadMove.beginRound enqueued hat hfree hpoisoned).of_update i
  | processTicker slot result ticker rest hat hallowed =>
      exact (ThreadMove.processTicker result ticker rest hat hallowed).of_update i
  | endRound slot result hat => exact (ThreadMove.endRound hat).of_update i
  | dropReceiver slot result hat => exact (ThreadMove.dropReceiver hat).of_update i
  | terminate slot result hat => exact (ThreadMove.terminate hat).of_update i
  | _ => exact .same

end QuoteStreamer.Server
