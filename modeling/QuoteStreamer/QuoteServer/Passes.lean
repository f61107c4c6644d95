import QuoteStreamer.QuoteServer.Removal

/-!
# Notification passes and update rounds

The history of the registry counts, for each client, the `notify_clients` passes that found it in
the registry. `Ledger` is the balance: the `Update`s a channel has accepted, and one more while
the pass in progress has not come to this client yet, are those passes. Together with the backlog
of the thread this gives one update round for each pass by the time a removal returns.
-/

namespace QuoteStreamer.Server

/-- The client of this slot is in the registry after this history. -/
def live (slot : Nat) : List Event → Bool
  | [] => false
  | .added _ _ other :: older => if other = slot then true else live slot older
  | .replaced _ other :: older | .removed _ other :: older =>
      if other = slot then false else live slot older
  | .notified :: older => live slot older

/-- The passes of this history that found the client of this slot in the registry. -/
def passes (slot : Nat) : List Event → Nat
  | [] => 0
  | .notified :: older => passes slot older + if live slot older then 1 else 0
  | _ :: older => passes slot older

/-- The pass in progress has not come to the client of this slot yet. -/
def Pending (s : Server) (slot : Nat) : Prop :=
  ∃ b todo id client, s.background b = .notifying todo ∧ id ∈ todo ∧
    s.clients.lookup id = some client ∧ client.Drives slot

/-- The history lists the clients of the registry. -/
def Lists (history : List Event) (clients : Registry) : Prop :=
  ∀ slot, live slot history = true ↔
    ∃ id client, clients.lookup id = some client ∧ client.Drives slot

/-- The balance between the history of the registry and the channels. -/
structure Ledger (s : Server) : Prop where
  registered : Lists s.history s.clients
  fresh : ∀ slot, s.spawned ≤ slot → passes slot s.history = 0
  nodup : ∀ b todo, s.background b = .notifying todo → todo.Nodup
  owing : ∀ slot, (s.threads slot).panicked = false → s.Pending slot →
    (s.threads slot).updates + 1 = passes slot s.history
  settled : ∀ slot, (s.threads slot).panicked = false → ¬ s.Pending slot →
    (s.threads slot).updates = passes slot s.history

variable {s t : Server} {action : Action} {k : Caller} {client : Client} {id : UInt64}
  {slot i : Nat} {th : ClientThread}

/-! ## The history of the registry -/

section History

variable {history : List Event} {clients : Registry}

theorem Lists.insert (h : Lists history clients) (hdrives : client.Drives slot)
    (hnone : clients.lookup id = none) :
    Lists (.added k id (client.tx.getD 0) :: history) (clients.insert id client) := by
  intro i
  rw [hdrives.1, Option.getD_some, live]
  by_cases hi : slot = i
  · subst i
    rw [if_pos rfl]
    exact iff_of_true rfl ⟨id, client, AList.lookup_insert _, hdrives⟩
  · rw [if_neg hi, h i]
    constructor
    · rintro ⟨id', client', hfound, hdrives'⟩
      have hne : id' ≠ id := by
        rintro rfl
        rw [hnone] at hfound
        cases hfound
      exact ⟨id', client', by rwa [AList.lookup_insert_ne hne], hdrives'⟩
    · rintro ⟨id', client', hfound, hdrives'⟩
      rcases InPlace.lookup_insert_cases hfound with ⟨-, rfl⟩ | ⟨-, hfound⟩
      · exact absurd (hdrives.slot_eq hdrives') hi
      · exact ⟨id', client', hfound, hdrives'⟩

/-- Taking the only client of a slot out of the registry; `event` is the entry about it. -/
theorem Lists.erase (h : Lists history clients) (hdrives : client.Drives slot)
    (honly : ∀ id' client', clients.lookup id' = some client' → client'.Drives slot → id' = id)
    (hfound : clients.lookup id = some client) {event : Event}
    (hevent : event = .removed id (client.tx.getD 0) ∨ event = .replaced id (client.tx.getD 0)) :
    Lists (event :: history) (clients.erase id) := by
  intro i
  have hlive : live i (event :: history) = if slot = i then false else live i history := by
    rcases hevent with rfl | rfl <;> rw [live, hdrives.1, Option.getD_some]
  rw [hlive]
  by_cases hi : slot = i
  · subst i
    rw [if_pos rfl]
    refine iff_of_false (by simp) ?_
    rintro ⟨id', client', hlookup, hdrives'⟩
    obtain ⟨hid, hlookup⟩ := InPlace.lookup_of_erase hlookup
    exact hid (honly id' client' hlookup hdrives')
  · rw [if_neg hi, h i]
    constructor
    · rintro ⟨id', client', hlookup, hdrives'⟩
      have hne : id' ≠ id := by
        rintro rfl
        rw [hfound] at hlookup
        cases hlookup
        exact hi (hdrives.slot_eq hdrives')
      exact ⟨id', client', by rwa [AList.lookup_erase_ne hne], hdrives'⟩
    · rintro ⟨id', client', hlookup, hdrives'⟩
      exact ⟨id', client', (InPlace.lookup_of_erase hlookup).2, hdrives'⟩

theorem Lists.congr (h : Lists history clients) {clients' : Registry}
    (hsame : ∀ id, clients'.lookup id = clients.lookup id) : Lists history clients' := by
  intro i
  rw [h i]
  simp only [hsame]

end History

/-- The slot of a registered client determines its id. -/
theorem Custody.only_id (h : s.Custody) (hreg : s.Registered id client slot) (id' : UInt64)
    (client' : Client) (hfound : s.clients.lookup id' = some client')
    (hdrives : client'.Drives slot) : id' = id := by
  obtain ⟨other, hother⟩ := h.registered id' client' hfound
  rw [hother.key, hreg.key, hother.drives.slot_eq hdrives]

/-! ## The backlog of every thread -/

theorem poisoned_step (hmove : Move s action t) (h : t.poisoned = false) : s.poisoned = false := by
  cases hmove with
  | panic => cases h
  | _ => exact h

theorem ThreadMove.backlog (horderly : (s.threads i).Orderly)
    (h : (s.threads i).Backlog s.poisoned) (hmove : ThreadMove s i th) :
    th.Backlog s.poisoned := by
  cases hmove with
  | same => exact h
  | spawn => exact ClientThread.backlog_spawn _ _
  | update hservice | shutdown hservice => exact h.offer hservice _ _
  | disconnect hconnected hexited =>
      have hleft : (s.threads i).point.looping = false := by rw [hexited]; rfl
      exact h.leave hleft hleft rfl rfl rfl fun hafter => by cases hafter
  | recv th hat hrecv => exact h.recv horderly hat hrecv
  | skipRound enqueued hat hpoisoned =>
      rw [hpoisoned] at h ⊢
      exact h.skip_round hat
  | beginRound enqueued hat => exact h.begin_round hat
  | processTicker result ticker rest hat => exact h.process_ticker hat _ _ _
  | endRound hat => exact h.end_round hat
  | dropReceiver hat | terminate hat =>
      exact h.leave (by rw [hat]; rfl) rfl rfl rfl rfl id

/-- In every reachable state the commands sent to a thread are queued or worked off. -/
theorem Reachable.backlog {quotes : Quotes} (h : Reachable quotes s) :
    ∀ i, (s.threads i).Backlog s.poisoned := by
  refine Transition.Reaches.invariant_with
    (fun state => ∀ i, (state.threads i).Backlog state.poisoned) h
    (fun hrun => Reachable.custody hrun) (fun i => ?_) ?_
  · refine ⟨fun hloop => (by cases hloop), fun _ _ => ⟨fun hservice => ?_, fun _ => rfl⟩⟩
    cases hservice.1
  · intro state next action hcustody _ hinv _ hstep i
    have hmove := step_move hstep
    exact ((thread_step hcustody hmove i).backlog (hcustody.orderly i) (hinv i)).mono
      (poisoned_step hmove)

/-! ## Passes in progress -/

/-- While a caller holds the clients mutex no pass is in progress. -/
theorem LocksHeld.no_pass (h : s.LocksHeld) (hhold : (s.callers k).holdsClients = true)
    {b : Nat} {todo : List UInt64} : s.background b ≠ .notifying todo := by
  intro hat
  have hsame : ThreadId.caller k = ThreadId.background b :=
    h.clients.unique hhold (show s.holdsClients (.background b) by rw [holdsClients, hat]; rfl)
  cases hsame

theorem LocksHeld.not_pending (h : s.LocksHeld) (hhold : (s.callers k).holdsClients = true) :
    ¬ s.Pending slot := by
  rintro ⟨b, todo, id, client, hat, -⟩
  exact h.no_pass hhold hat

/-- Only one pass is in progress at a time. -/
theorem LocksHeld.one_pass (h : s.LocksHeld) {b c : Nat} {todo todo' : List UInt64}
    (hb : s.background b = .notifying todo) (hc : s.background c = .notifying todo') : b = c := by
  have hsame : ThreadId.background b = ThreadId.background c :=
    h.clients.unique (show s.holdsClients (.background b) by rw [holdsClients, hb]; rfl)
      (show s.holdsClients (.background c) by rw [holdsClients, hc]; rfl)
  injection hsame

/-- No thread past the counter is driven by a registered client. -/
theorem Custody.not_pending_fresh (h : s.Custody) (hfresh : s.spawned ≤ slot) :
    ¬ s.Pending slot := by
  rintro ⟨b, todo, id, client, -, -, hfound, hdrives⟩
  obtain ⟨other, hreg⟩ := h.registered id client hfound
  have heq := hreg.drives.slot_eq hdrives
  have hbound := hreg.bound
  omega

/-! ## Steps -/

/-- A step that leaves the registry, its history and the passes alone. -/
theorem Ledger.keep (h : s.Ledger) (hclients : t.clients = s.clients)
    (hhistory : t.history = s.history) (hspawned : s.spawned ≤ t.spawned)
    (hpasses : ∀ b todo, t.background b = .notifying todo →
      s.background b = .notifying todo)
    (hback : ∀ b todo, s.background b = .notifying todo → todo ≠ [] →
      t.background b = .notifying todo)
    (hcount : ∀ i, (t.threads i).panicked = false →
      (s.threads i).panicked = false ∧ (t.threads i).updates = (s.threads i).updates ∨
      ¬ s.Pending i ∧ (t.threads i).updates = 0 ∧ passes i s.history = 0) : t.Ledger := by
  have hpending : ∀ i, t.Pending i ↔ s.Pending i := by
    intro i
    constructor
    · rintro ⟨b, todo, id, client, hat, hid, hfound, hdrives⟩
      exact ⟨b, todo, id, client, hpasses b todo hat, hid, hclients ▸ hfound, hdrives⟩
    · rintro ⟨b, todo, id, client, hat, hid, hfound, hdrives⟩
      exact ⟨b, todo, id, client, hback b todo hat (List.ne_nil_of_mem hid), hid,
        hclients ▸ hfound, hdrives⟩
  refine ⟨?registered, ?fresh, ?nodup, ?owing, ?settled⟩
  case registered =>
    rw [hclients, hhistory]
    exact h.registered
  case fresh =>
    intro i hi
    rw [hhistory]
    exact h.fresh i (by omega)
  case nodup =>
    exact fun b todo hat => h.nodup b todo (hpasses b todo hat)
  case owing =>
    intro i hcalm hi
    rw [hhistory]
    rcases hcount i hcalm with ⟨hthen, heq⟩ | ⟨hnot, -, -⟩
    · rw [heq]
      exact h.owing i hthen ((hpending i).mp hi)
    · exact absurd ((hpending i).mp hi) hnot
  case settled =>
    intro i hcalm hi
    rw [hhistory]
    rcases hcount i hcalm with ⟨hthen, heq⟩ | ⟨-, hzero, hnone⟩
    · rw [heq]
      exact h.settled i hthen fun hthere => hi ((hpending i).mpr hthere)
    · rw [hzero, hnone]

/-- One thread changes without being sent an `Update`. -/
theorem Ledger.set_thread (h : s.Ledger) (hthreads : t.threads = Function.update s.threads slot th)
    (hclients : t.clients = s.clients) (hhistory : t.history = s.history)
    (hspawned : t.spawned = s.spawned) (hbackground : t.background = s.background)
    (hsent : th.updates = (s.threads slot).updates)
    (hpanicked : th.panicked = false → (s.threads slot).panicked = false) : t.Ledger := by
  refine h.keep hclients hhistory (Nat.le_of_eq hspawned.symm) ?_ ?_ fun i hcalm => .inl ?_
  · rw [hbackground]
    exact fun _ _ hat => hat
  · rw [hbackground]
    exact fun _ _ hat _ => hat
  · rw [hthreads] at hcalm ⊢
    by_cases hi : i = slot
    · subst i
      rw [Function.update_self] at hcalm ⊢
      exact ⟨hpanicked hcalm, hsent⟩
    · rw [Function.update_of_ne hi] at hcalm ⊢
      exact ⟨hcalm, rfl⟩

/-- A background thread moves outside the passes, or ends one. -/
theorem Ledger.set_background (h : s.Ledger) {b : Nat} {point : Background}
    (hbackground : t.background = Function.update s.background b point)
    (hclients : t.clients = s.clients) (hhistory : t.history = s.history)
    (hspawned : s.spawned = t.spawned) (hthreads : t.threads = s.threads)
    (hthen : ∀ todo, s.background b = .notifying todo → todo = [])
    (hnow : ∀ todo, point ≠ .notifying todo) : t.Ledger := by
  refine h.keep hclients hhistory (Nat.le_of_eq hspawned) ?_ ?_ fun i hcalm => ?_
  · intro c todo hat
    rw [hbackground] at hat
    by_cases hc : c = b
    · subst c
      rw [Function.update_self] at hat
      exact absurd hat (hnow todo)
    · rwa [Function.update_of_ne hc] at hat
  · intro c todo hat hne
    rw [hbackground]
    by_cases hc : c = b
    · subst c
      exact absurd (hthen todo hat) hne
    · rwa [Function.update_of_ne hc]
  · rw [hthreads] at hcalm ⊢
    exact .inl ⟨hcalm, rfl⟩

/-- Only callers move. -/
theorem Ledger.same (h : s.Ledger) (hbackground : t.background = s.background)
    (hclients : t.clients = s.clients) (hhistory : t.history = s.history)
    (hspawned : t.spawned = s.spawned) (hthreads : t.threads = s.threads) : t.Ledger := by
  have hupdate : t.threads = Function.update s.threads 0 (s.threads 0) := by
    rw [hthreads, Function.update_eq_self]
  exact h.set_thread hupdate hclients hhistory hspawned hbackground rfl fun hcalm => hcalm

/-- A `Shutdown` is not an `Update`. -/
theorem updates_offer_shutdown (version : Nat) :
    (th.offer .shutdown version).updates = th.updates := by
  unfold ClientThread.offer
  split
  · simp [ClientThread.push, ClientThread.updates]
  · rfl

/-- The registry and its history change under a caller's lock, and the passes stay. -/
theorem Ledger.change (h : s.Ledger) (hlocks : s.LocksHeld)
    (hhold : (s.callers k).holdsClients = true) (hthreads : t.threads = s.threads)
    (hspawned : t.spawned = s.spawned) (hbackground : t.background = s.background)
    (hhistory : ∀ slot, passes slot t.history = passes slot s.history)
    (hregistered : Lists t.history t.clients) : t.Ledger where
  registered := hregistered
  fresh i hi := by
    rw [hhistory]
    exact h.fresh i (by omega)
  nodup b todo hat := by
    rw [hbackground] at hat
    exact absurd hat (hlocks.no_pass hhold)
  owing i hcalm hi := by
    obtain ⟨b, todo, -, -, hat, -⟩ := hi
    rw [hbackground] at hat
    exact absurd hat (hlocks.no_pass hhold)
  settled i hcalm _ := by
    rw [hthreads] at hcalm ⊢
    rw [hhistory]
    exact h.settled i hcalm (hlocks.not_pending hhold)

/-- `fetch_add` and `insert`, with what they record. -/
theorem ledger_insert (hlocks : s.LocksHeld) (hcustody : s.Custody) (h : s.Ledger)
    (hat : s.callers k = .addInsert client)
    (hthis : (s.clients.lookup s.clientsCount = none ∧
        t.history = .added k s.clientsCount (client.tx.getD 0) :: s.history) ∨
      ∃ old, s.clients.lookup s.clientsCount = some old ∧
        t.history = .added k s.clientsCount (client.tx.getD 0) ::
          .replaced s.clientsCount (old.tx.getD 0) :: s.history)
    (hclients : t.clients = s.clients.insert s.clientsCount client)
    (hthreads : t.threads = s.threads) (hspawned : t.spawned = s.spawned)
    (hbackground : t.background = s.background) : t.Ledger := by
  have hsound := hcustody.calls k
  rw [hat] at hsound
  obtain ⟨slot, hheld, -⟩ := hsound
  refine h.change hlocks (by rw [hat]; rfl) hthreads hspawned hbackground (fun i => ?_) ?_
  · rcases hthis with ⟨-, hhistory⟩ | ⟨old, -, hhistory⟩ <;> rw [hhistory] <;> rfl
  · rw [hclients]
    rcases hthis with ⟨hnone, hhistory⟩ | ⟨old, hold, hhistory⟩ <;> rw [hhistory]
    · exact h.registered.insert hheld.drives hnone
    · obtain ⟨other, hreg⟩ := hcustody.registered _ _ hold
      have herase := h.registered.erase hreg.drives (hcustody.only_id hreg) hold (.inr rfl)
      refine (herase.insert hheld.drives (AList.lookup_erase _ _)).congr fun id => ?_
      by_cases hid : id = s.clientsCount
      · subst id
        rw [AList.lookup_insert, AList.lookup_insert]
      · rw [AList.lookup_insert_ne hid, AList.lookup_insert_ne hid, AList.lookup_erase_ne hid]

/-- `notify_clients` locks the registry: a pass begins, and it owes each registered client an
`Update`. -/
theorem ledger_notify_lock (hlocks : s.LocksHeld) (hcustody : s.Custody) (h : s.Ledger) {b : Nat}
    {todo : List UInt64} (hfree : s.clientsLock = none) (horder : todo.Perm s.clients.keys) :
    ({ s with
      clientsLock := some (.background b)
      atLock := s.clients
      history := .notified :: s.history }.setBackground b (.notifying todo)).Ledger := by
  have hclients := hlocks.clients
  rw [hfree] at hclients
  have hnone : ∀ c todo', s.background c ≠ .notifying todo' := by
    intro c todo' hc
    exact hclients.free (.background c) (by rw [holdsClients, hc]; rfl)
  have hnot : ∀ i, ¬ s.Pending i := by
    rintro i ⟨c, todo', -, -, hc, -⟩
    exact hnone c todo' hc
  have hpass : ∀ i, passes i (.notified :: s.history) =
      passes i s.history + if live i s.history then 1 else 0 := fun i => rfl
  -- the pass now counts every live slot, and owes each of them its `Update`
  refine ⟨h.registered, fun i hi => ?_, fun c todo' hc => ?_, fun i hcalm hi => ?_,
    fun i hcalm hi => ?_⟩
  · have hdead : ¬ live i s.history = true := by
      rw [h.registered i]
      rintro ⟨id, client, hfound, hdrives⟩
      obtain ⟨other, hreg⟩ := hcustody.registered id client hfound
      have heq := hreg.drives.slot_eq hdrives
      have hbound := hreg.bound
      have hlarge : s.spawned ≤ i := hi
      omega
    show passes i (.notified :: s.history) = 0
    rw [hpass, h.fresh i hi, if_neg hdead]
  · by_cases hcb : c = b
    · subst c
      simp only [setBackground, Function.update_self, Background.notifying.injEq] at hc
      subst hc
      exact horder.nodup_iff.mpr s.clients.nodupKeys
    · simp only [setBackground, Function.update_of_ne hcb] at hc
      exact absurd hc (hnone c todo')
  · obtain ⟨-, -, id, client, -, -, hfound, hdrives⟩ := hi
    have hlive := (h.registered i).mpr ⟨id, client, hfound, hdrives⟩
    show (s.threads i).updates + 1 = passes i (.notified :: s.history)
    rw [hpass, if_pos hlive, h.settled i hcalm (hnot i)]
  · have hdead : ¬ live i s.history = true := by
      rw [h.registered i]
      rintro ⟨id, client, hfound, hdrives⟩
      have hkey : id ∈ s.clients.keys := by
        rw [← AList.mem_keys, ← AList.lookup_isSome, hfound]
        rfl
      exact hi ⟨b, todo, id, client, by simp [setBackground], horder.mem_iff.mpr hkey, hfound,
        hdrives⟩
    show (s.threads i).updates = passes i (.notified :: s.history)
    rw [hpass, if_neg hdead, h.settled i hcalm (hnot i), Nat.add_zero]

/-- The pass comes to a client and sends it the `Update` that it owes. -/
theorem ledger_notify (hlocks : s.LocksHeld) (hcustody : s.Custody)
    (hbacklog : ∀ i, (s.threads i).Backlog s.poisoned) (h : s.Ledger) {b : Nat}
    {rest : List UInt64} (hat : s.background b = .notifying (id :: rest))
    (hfound : s.clients.lookup id = some client) :
    ({ s with
      threads := client.sendIgnored .update s.version s.threads }.setBackground b
        (.notifying rest)).Ledger := by
  obtain ⟨slot, hreg⟩ := hcustody.registered id client hfound
  rw [hreg.drives.send_ignored]
  have hnodup := List.nodup_cons.mp (h.nodup b _ hat)
  -- what is pending afterwards was pending before, and is not the client just served
  have hpending : ∀ i, Pending ({ s with
      threads := Function.update s.threads slot
        ((s.threads slot).offer .update s.version) }.setBackground b (.notifying rest)) i ↔
      s.Pending i ∧ i ≠ slot := by
    intro i
    constructor
    · rintro ⟨c, todo, id', client', hc, hid', hfound', hdrives'⟩
      by_cases hcb : c = b
      · subst c
        simp only [setBackground, Function.update_self, Background.notifying.injEq] at hc
        subst hc
        refine ⟨⟨b, _, id', client', hat, List.mem_cons_of_mem _ hid', hfound', hdrives'⟩, ?_⟩
        rintro rfl
        have hsame := hcustody.only_id hreg id' client' hfound' hdrives'
        exact hnodup.1 (hsame ▸ hid')
      · simp only [setBackground, Function.update_of_ne hcb] at hc
        exact absurd (hlocks.one_pass hc hat) hcb
    · rintro ⟨⟨c, todo, id', client', hc, hid', hfound', hdrives'⟩, hne⟩
      obtain rfl := hlocks.one_pass hc hat
      rw [hat] at hc
      cases hc
      rcases List.mem_cons.mp hid' with rfl | hid'
      · rw [show s.clients.lookup id' = some client' from hfound'] at hfound
        cases hfound
        exact absurd (hdrives'.slot_eq hreg.drives) hne
      · exact ⟨c, rest, id', client', by simp [setBackground], hid', hfound', hdrives'⟩
  refine ⟨h.registered, h.fresh, fun c todo hc => ?_, fun i hcalm hi => ?_, fun i hcalm hi => ?_⟩
  · by_cases hcb : c = b
    · subst c
      simp only [setBackground, Function.update_self, Background.notifying.injEq] at hc
      subst hc
      exact hnodup.2
    · simp only [setBackground, Function.update_of_ne hcb] at hc
      exact h.nodup c todo hc
  · obtain ⟨hi, hne⟩ := (hpending i).mp hi
    simp only [setBackground, Function.update_of_ne hne] at hcalm ⊢
    exact h.owing i hcalm hi
  · rw [hpending i] at hi
    by_cases hne : i = slot
    · subst i
      simp only [setBackground, Function.update_self, ClientThread.panicked_offer] at hcalm ⊢
      have hlive := LoopPoint.receiving_of_looping ((hbacklog slot).looping hreg.service hcalm)
      have howing := h.owing slot hcalm
        ⟨b, _, id, client, hat, List.mem_cons_self, hfound, hreg.drives⟩
      rw [← howing]
      simp [ClientThread.offer, hlive, ClientThread.push, ClientThread.updates]
    · simp only [setBackground, Function.update_of_ne hne] at hcalm ⊢
      exact h.settled i hcalm fun hthere => hi ⟨hthere, hne⟩

/-- Every step keeps the balance. -/
theorem ledger_step (hlocks : s.LocksHeld) (hcustody : s.Custody)
    (hbacklog : ∀ i, (s.threads i).Backlog s.poisoned) (h : s.Ledger) (hmove : Move s action t) :
    t.Ledger := by
  cases hmove with
  | addStart k tickers callback hat =>
      -- the new thread has got nothing, and no pass has counted its slot
      refine h.keep rfl rfl (Nat.le_succ _) (fun _ _ hb => hb) (fun _ _ hb _ => hb)
        fun i hcalm => ?_
      by_cases hi : i = s.spawned
      · subst i
        refine .inr ⟨hcustody.not_pending_fresh (Nat.le_refl _), ?_, h.fresh _ (Nat.le_refl _)⟩
        simp [setCall, ClientThread.spawn, ClientThread.updates]
      · simp only [setCall, Function.update_of_ne hi] at hcalm ⊢
        exact .inl ⟨hcalm, trivial⟩
  | addInsert k client hat hnone =>
      exact ledger_insert hlocks hcustody h hat (.inl ⟨hnone, rfl⟩) rfl rfl rfl rfl
  | addReplace k client old hat hold =>
      exact ledger_insert hlocks hcustody h hat (.inr ⟨old, hold, rfl⟩) rfl rfl rfl rfl
  | removeTake k id client hat hfound =>
      obtain ⟨slot, hreg⟩ := hcustody.registered id client hfound
      exact h.change hlocks (by rw [hat]; rfl) rfl rfl rfl (fun _ => rfl)
        (h.registered.erase hreg.drives (hcustody.only_id hreg) hfound (.inl rfl))
  | removeSend k id client threads hat hsend =>
      obtain ⟨tx, htx, hlive, rfl⟩ := Client.try_send_eq_ok hsend
      refine h.set_thread rfl rfl rfl rfl rfl ?_ fun hcalm => hcalm
      simp [ClientThread.push, ClientThread.updates]
  | dropSend k client reply hat =>
      have hsound := hcustody.calls k
      rw [hat] at hsound
      rcases hsound with ⟨htx, -, -⟩ | ⟨slot, hheld, -⟩
      · refine h.same rfl rfl rfl rfl ?_
        simp [setCall, Client.sendIgnored, Client.trySend, htx]
      · rw [hheld.drives.send_ignored]
        exact h.set_thread rfl rfl rfl rfl rfl (updates_offer_shutdown _) fun hcalm => by
          simpa using hcalm
  | removeJoin k id client hat hjoin =>
      have hsound := hcustody.calls k
      rw [hat] at hsound
      obtain ⟨slot, hheld, -⟩ := hsound
      rw [hheld.drives.drop_sender]
      exact h.set_thread rfl rfl rfl rfl rfl rfl fun hcalm => hcalm
  | dropJoin k client reply hat hjoin =>
      have hsound := hcustody.calls k
      rw [hat] at hsound
      rcases hsound with ⟨htx, -, -⟩ | ⟨slot, hheld, -⟩
      · refine h.same rfl rfl rfl rfl ?_
        simp [setCall, Client.dropSender, htx]
      · rw [hheld.drives.drop_sender]
        exact h.set_thread rfl rfl rfl rfl rfl rfl fun hcalm => hcalm
  | startSpawn k hat hnone =>
      refine h.set_background rfl rfl rfl rfl rfl (fun todo hthen => ?_) (by simp)
      rw [hlocks.freshBackground _ (Nat.le_refl _)] at hthen
      cases hthen
  | recv slot result th hat hrecv =>
      rcases ClientThread.recv_cases hrecv with ⟨_, _, _, rfl⟩ | ⟨_, _, _, rfl⟩ | ⟨_, _, rfl⟩ <;>
        exact h.set_thread rfl rfl rfl rfl rfl rfl fun hcalm => hcalm
  | processTicker slot result ticker rest hat =>
      refine h.set_thread rfl rfl rfl rfl rfl ?_ ?_ <;> unfold ClientThread.processTicker <;> split
      · rfl
      · rfl
      · intro hcalm
        simpa using (Bool.or_eq_false_iff.mp hcalm).1
      · exact fun hcalm => hcalm
  | skipRound | beginRound | endRound | dropReceiver | terminate =>
      exact h.set_thread rfl rfl rfl rfl rfl rfl fun hcalm => hcalm
  | check b hat =>
      refine h.set_background rfl rfl rfl rfl rfl (fun todo hthen => ?_) (by split <;> simp)
      rw [hat] at hthen
      cases hthen
  | sleep b hat | tryWrite b hat | timeout b hat | visit b _ _ _ _ _ _ _ hat
  | finishUpdate b _ _ hat | panic b _ _ hat =>
      refine h.set_background rfl rfl rfl rfl rfl (fun todo hthen => ?_) (by simp)
      rw [hat] at hthen
      cases hthen
  | notified b hat =>
      refine h.set_background rfl rfl rfl rfl rfl (fun todo hthen => ?_) (by simp)
      rw [hat] at hthen
      cases hthen
      rfl
  | notifyLock b todo hat hfree horder => exact ledger_notify_lock hlocks hcustody h hfree horder
  | notify b id rest client hat hfound => exact ledger_notify hlocks hcustody hbacklog h hat hfound
  | _ => exact h.same rfl rfl rfl rfl rfl

theorem ledger_init (quotes : Quotes) : (init quotes).Ledger where
  registered slot := by simp [init, live]
  fresh slot _ := rfl
  nodup b todo hat := by cases hat
  owing := by
    rintro slot - ⟨_, _, _, _, hat, -⟩
    cases hat
  settled slot _ _ := rfl

/-- In every reachable state the channels balance with the history of the registry. -/
theorem Reachable.ledger {quotes : Quotes} (h : Reachable quotes s) : s.Ledger := by
  refine Transition.Reaches.invariant_with Ledger h
    (fun hrun => And.intro (Reachable.locks_held hrun)
      (And.intro (Reachable.custody hrun) (Reachable.backlog hrun))) (ledger_init quotes) ?_
  rintro state next action ⟨hlocks, hcustody, hbacklog⟩ - hinv - hstep
  exact ledger_step hlocks hcustody hbacklog hinv (step_move hstep)

/-! ## One round for each pass -/

/-- Everything that was sent to a finished thread was sent by a pass. -/
theorem finished_balance (hcustody : s.Custody) (h : s.Ledger) (hslot : s.Finished slot)
    (hcalm : (s.threads slot).panicked = false) :
    (s.threads slot).updates = passes slot s.history := by
  refine h.settled slot hcalm ?_
  rintro ⟨b, todo, id, client, -, -, hfound, hdrives⟩
  obtain ⟨other, hreg⟩ := hcustody.registered id client hfound
  have heq := hreg.drives.slot_eq hdrives
  exact hslot.ne_of_connected hreg.service.1 heq.symm

/-- When `remove_client(id)` returns, with either result, the thread of the client it removed has
executed one update round for each pass that found the client in the registry, unless its own
callback has panicked or the lock of the quotes was poisoned; no round is added later, and each
round has invoked the callback for exactly the entries of the client's ticker list that the map
of that round knows, in list order. -/
theorem one_round_per_pass {quotes : Quotes} {result : Except QuoteServerError Unit}
    (hs : Reachable quotes s) (hat : s.callers k = .unlock (.removed id (some slot) result))
    (hsound : s.poisoned = false) (hcalm : (s.threads slot).panicked = false) :
    (∃ client, s.atLock.lookup id = some client ∧ client.Drives slot ∧
      ∀ r ∈ (s.threads slot).rounds, r.delivered = due r.quotes client.tickers) ∧
    ∀ u, Transition.Reachable step s u →
      (u.threads slot).rounds = (s.threads slot).rounds ∧
      (u.threads slot).rounds.length = passes slot u.history := by
  have hsettled := (Reachable.custody hs).calls k
  have htaken := Reachable.taken hs k
  rw [hat] at hsettled htaken
  have hleft : (s.threads slot).point.looping = false := by rw [hsettled.2.2]; rfl
  have hcount := ((Reachable.backlog hs slot).ended hcalm hleft).2 hsound
  refine ⟨?_, fun u hrun => ?_⟩
  · obtain ⟨⟨-, hnone⟩ | ⟨client, other, htook, hslot⟩, -⟩ := htaken
    · cases hnone
    · obtain rfl : slot = other := Option.some.inj hslot
      refine ⟨client, htook.found, htook.drives, fun r hr => ?_⟩
      obtain ⟨other, -, hsame, htickers, -⟩ := Reachable.locked_clients hs id client htook.found
      obtain rfl := htook.drives.slot_eq hsame
      have hdone := ((Reachable.coherent hs).threads slot).complete hcalm
      rw [ClientThread.done, hsettled.2.2, htickers] at hdone
      exact hdone r hr
  · obtain ⟨hfinished, hsame⟩ := Reachable.finished_forever hs hrun hsettled
    have hu : Reachable quotes u := hs.trans hrun
    have hbalance := finished_balance (Reachable.custody hu) (Reachable.ledger hu) hfinished
      (by rw [hsame]; exact hcalm)
    refine ⟨by rw [hsame], ?_⟩
    rw [← hbalance, hsame, hcount]

/-- The tick of `oneTick`, and then the client is removed. -/
def oneTickRemoved : List Action :=
  oneTick ++ [.call (.other 0) (.removeClient 0), .caller (.other 0), .caller (.other 0),
    .caller (.other 0), .client 0 .ok, .client 0 .ok, .client 0 .ok, .caller (.other 0),
    .caller (.other 0), .caller (.other 0)]

theorem one_round_per_pass_one_tick : ∃ s, Reachable oneQuote s ∧ passes 0 s.history = 1 ∧
    (s.threads 0).rounds.length = passes 0 s.history ∧
    ∀ r ∈ (s.threads 0).rounds, r.delivered = due r.quotes [['A']] := by
  obtain ⟨s, hrun, hat, hsound, hcalm, hfound, hpasses⟩ :
      ∃ s, Transition.run step (init oneQuote) oneTickRemoved = some s ∧
        s.callers (.other 0) = .unlock (.removed 0 (some 0) (.ok ())) ∧ s.poisoned = false ∧
        (s.threads 0).panicked = false ∧
        s.atLock.lookup 0 = some ⟨[['A']], .closure 0, some 0, some 0⟩ ∧
        passes 0 s.history = 1 := ⟨_, rfl, rfl, rfl, rfl, rfl, rfl⟩
  have hs : Reachable oneQuote s := Transition.reachable_of_run hrun
  obtain ⟨⟨client, hclient, -, hrounds⟩, hlater⟩ := one_round_per_pass hs hat hsound hcalm
  obtain rfl := Option.some.inj (hfound.symm.trans hclient)
  exact ⟨s, hs, hpasses, (hlater s .refl).2, hrounds⟩

end QuoteStreamer.Server
