import QuoteStreamer.QuoteServer.Registry

/-!
# Who is in the registry

The changes of the registry, read as calls: a client is enrolled from the return of its `add_client`
until a `remove_client` names its id. `registry_is_history` says that whenever the clients mutex is
free, the registry holds the clients that are enrolled.
-/

namespace QuoteStreamer

/-- The id that `add_client` returned. -/
def Operation.addedId (op : Operation) : Option UInt64 :=
  match op.request, op.reply with
  | .addClient .., .added id => some id
  | _, _ => none

/-- Some `add_client` with these tickers and this callback returned the id, and no `remove_client`
that took the mutex later named it. -/
def Enrolled (ops : List Operation) (id : UInt64) (tickers : List Str) (callback : Callback) :
    Prop :=
  ∃ before k after, ops = before ++ ⟨k, .addClient tickers callback, .added id⟩ :: after ∧
    ∀ op ∈ after, op.request ≠ .removeClient id

namespace Server

variable {s t : Server} {trace : List RegistryEvent} {before changes : List RegistryChange}
  {ops : List Operation}

/-- Ids that were counted up without a wrap are distinct and increase. -/
theorem keys_increase {n : Nat} (hn : n ≤ 2 ^ 64) :
    ((List.range n).map UInt64.ofNat).Pairwise (· < ·) := by
  rw [List.pairwise_map]
  refine List.pairwise_lt_range.imp_of_mem fun {i j} hi hj hlt => ?_
  rw [List.mem_range] at hi hj
  rw [UInt64.lt_iff_toNat_lt, UInt64.toNat_ofNat_of_lt' (show i < 2 ^ 64 by omega),
    UInt64.toNat_ofNat_of_lt' (show j < 2 ^ 64 by omega)]
  exact hlt

/-- The ids that were returned are the keys that were put. -/
theorem added_ids_eq (ops : List Operation) :
    ops.filterMap Operation.addedId = Register.putKeys (ops.filterMap Operation.change) := by
  rw [Register.putKeys, List.filterMap_filterMap]
  congr 1
  funext op
  obtain ⟨k, request, reply⟩ := op
  cases request <;> cases reply <;> rfl

/-- As long as no id is put twice, a client is enrolled when the changes hold it. -/
theorem holds_iff_enrolled (hnodup : (Register.putKeys (ops.filterMap Operation.change)).Nodup)
    {id : UInt64} {client : Client} :
    Register.Holds (ops.filterMap Operation.change) id client ↔ ∃ tickers callback,
      Enrolled ops id tickers callback ∧
      client = (Client.new tickers callback).start id.toNat := by
  rw [Register.holds_iff_of_nodup hnodup]
  constructor
  · rintro ⟨before, after, hsplit, hdrop⟩
    obtain ⟨front, back, rfl, -, hback⟩ := List.filterMap_eq_append_iff.mp hsplit
    obtain ⟨skipped, op, later, rfl, -, hop, rfl⟩ := List.filterMap_eq_cons_iff.mp hback
    obtain ⟨tickers, callback, hrequest, hreply, hclient⟩ := change_eq_put_iff.mp hop
    refine ⟨tickers, callback, ⟨front ++ skipped, op.caller, later, ?_, ?_⟩, hclient⟩
    · rw [← hrequest, ← hreply, List.append_assoc]
    · intro other hmem hremove
      exact hdrop (List.mem_filterMap.mpr ⟨other, hmem, change_eq_drop_iff.mpr hremove⟩)
  · rintro ⟨tickers, callback, ⟨before, k, after, rfl, hafter⟩, rfl⟩
    refine ⟨before.filterMap Operation.change, after.filterMap Operation.change, ?_, ?_⟩
    · rw [List.filterMap_append, List.filterMap_cons_some (change_eq_put_iff.mpr
        ⟨tickers, callback, rfl, rfl, rfl⟩)]
    · intro hmem
      obtain ⟨op, hop, hchange⟩ := List.mem_filterMap.mp hmem
      exact hafter op hop (change_eq_drop_iff.mp hchange)

/-- The keys that were put first are counted up as well. -/
theorem Represents.keys_front (h : s.Represents (before ++ changes)) :
    Register.putKeys before = (List.range (puts before)).map UInt64.ofNat := by
  have hkeys := h.keys
  have hputs : puts (before ++ changes) = puts before + puts changes := by
    rw [puts, Register.putKeys, List.filterMap_append, List.length_append]
    rfl
  rw [hputs, List.range_add, List.map_append, Register.putKeys, List.filterMap_append] at hkeys
  exact List.append_inj_left hkeys (by rw [List.length_map, List.length_range]; rfl)

/-- So they increase. -/
theorem Represents.increase (h : s.Represents (before ++ changes)) (hbound : puts before ≤ 2 ^ 64) :
    (Register.putKeys before).Pairwise (· < ·) := by
  rw [h.keys_front]
  exact keys_increase hbound

/-- An id under which nobody is enrolled is free. -/
theorem replay_none_of_not_enrolled
    (hkeys : (Register.putKeys (ops.filterMap Operation.change)).Pairwise (· < ·)) {id : UInt64}
    (hnone : ∀ tickers callback, ¬ Enrolled ops id tickers callback) :
    Register.replay (ops.filterMap Operation.change) id = none := by
  cases hreplay : Register.replay (ops.filterMap Operation.change) id with
  | none => rfl
  | some client =>
      have hnodup : (Register.putKeys (ops.filterMap Operation.change)).Nodup :=
        hkeys.imp fun hlt => UInt64.ne_of_lt hlt
      obtain ⟨tickers, callback, henrolled, -⟩ :=
        (holds_iff_enrolled hnodup).mp (Register.replay_eq_some_iff.mp hreplay)
      exact absurd henrolled (hnone tickers callback)

/-- Completed calls say nothing about replaced clients, and neither does one under way. -/
theorem replaced_not_mem {pending : List RegistryEvent}
    (hpending : pending = [] ∨ ∃ k request, s.clientsLock = some (.caller k) ∧
      pending = [.locked k request]) (id : UInt64) :
    .replaced id ∉ ops.flatMap Operation.events ++ pending := by
  intro hmem
  rcases List.mem_append.mp hmem with hmem | hmem
  · obtain ⟨op, -, hop⟩ := List.mem_flatMap.mp hmem
    simp [Operation.events] at hop
  · rcases hpending with rfl | ⟨k, request, -, rfl⟩
    · cases hmem
    · simp at hmem

/-- The completed calls are of the two kinds. -/
theorem Answered.kinds (h : Answered ops) {op : Operation} (hop : op ∈ ops) :
    (∃ tickers callback id, op.request = .addClient tickers callback ∧ op.reply = .added id) ∨
      ∃ id, op.request = .removeClient id := by
  cases hchange : op.change with
  | none => exact absurd hchange (h.kind op hop)
  | some change =>
      cases change with
      | put id client =>
          obtain ⟨tickers, callback, hrequest, hreply, -⟩ := change_eq_put_iff.mp hchange
          exact .inl ⟨tickers, callback, id, hrequest, hreply⟩
      | drop id => exact .inr ⟨id, change_eq_drop_iff.mp hchange⟩

/-- The step of a `remove_client` that finds nothing under the id moves its caller and changes
nothing else. -/
theorem step_missing {id : UInt64} (hat : s.callers k = .removeTake id)
    (hnone : s.clients.lookup id = none) :
    s.step (.caller k) = some (s.setCall k (.unlock (.removed id none (.ok ())))) := by
  simp only [step, callerStep, hat, hnone]

/-- The registry is the history of the calls. Take any run in which at most `2 ^ 64` calls of
`add_client` take the clients mutex. What the calls of `add_client` and `remove_client` put out are
completed calls one after the other, in the order in which they took the mutex, and perhaps one that
still holds it. The ids that `add_client` returned increase in this order, and no `insert` replaced
a client. Whenever the mutex is free, the registry holds exactly the clients that are enrolled, each
under its id and with its own tickers, callback and thread. A `remove_client` that names no enrolled
client has returned `Ok`, and one that is about to look its id up will change nothing. -/
theorem registry_is_history {quotes : Quotes}
    (h : Transition.Traces step Transition.anyStep registryEvents (init quotes) trace s)
    (hadds : trace.countP RegistryEvent.locksAdd ≤ 2 ^ 64) :
    ∃ ops pending, trace = ops.flatMap Operation.events ++ pending ∧
      (pending = [] ∨ ∃ k request, s.clientsLock = some (.caller k) ∧
        pending = [.locked k request]) ∧
      (∀ op ∈ ops, (∃ tickers callback id, op.request = .addClient tickers callback ∧
        op.reply = .added id) ∨ ∃ id, op.request = .removeClient id) ∧
      (ops.filterMap Operation.addedId).Pairwise (· < ·) ∧
      (∀ id, .replaced id ∉ trace) ∧
      (s.clientsLock = none → ∀ id client, s.clients.lookup id = some client ↔
        ∃ tickers callback, Enrolled ops id tickers callback ∧
          client = (Client.new tickers callback).start id.toNat) ∧
      (∀ before op after id, ops = before ++ op :: after → op.request = .removeClient id →
        (∀ tickers callback, ¬ Enrolled before id tickers callback) →
        op.reply = .removed id none (.ok ())) ∧
      ∀ k id, s.callers k = .removeTake id →
        (∀ tickers callback, ¬ Enrolled ops id tickers callback) →
        s.step (.caller k) = some (s.setCall k (.unlock (.removed id none (.ok ())))) := by
  have hlocks : s.LocksHeld := Reachable.locks_held h.reaches
  obtain ⟨ops, pending, changes, rfl, hopen, hrep, hanswered⟩ := traces_accounted h hadds
  have hbound : puts (ops.filterMap Operation.change) ≤ 2 ^ 64 := by
    have hputs := puts_le ops
    rw [List.countP_append] at hadds
    omega
  have hkeys := hrep.increase hbound
  have hpending := hopen.pending hlocks
  refine ⟨ops, pending, rfl, hpending, fun op => hanswered.kinds, ?_, replaced_not_mem hpending,
    fun hfree id client => ?_, fun before op after id hsplit hrequest hnone => ?_,
    fun k id hat hnone => ?_⟩
  · rwa [added_ids_eq]
  · -- with the mutex free no change is pending
    obtain ⟨-, rfl, -⟩ := hopen.of_free hlocks hfree
    rw [hrep.registry, List.append_nil, Register.replay_eq_some_iff]
    exact holds_iff_enrolled (hkeys.imp fun hlt => UInt64.ne_of_lt hlt)
  · refine hanswered.missing before op after id hsplit hrequest
      (replay_none_of_not_enrolled ?_ hnone)
    rw [hsplit, List.filterMap_append, Register.putKeys, List.filterMap_append] at hkeys
    exact (List.pairwise_append.mp hkeys).1
  · -- a removal that has not looked its id up has changed nothing
    obtain ⟨request, -, hinside⟩ := hopen.of_holds hlocks (by rw [hat]; rfl)
    rw [hat] at hinside
    obtain ⟨-, rfl, -⟩ := hinside.taking
    refine step_missing hat ?_
    rw [hrep.registry, List.append_nil, replay_none_of_not_enrolled hkeys hnone]

/-- Two clients are added by different callers, the second call being the first to take the mutex;
an id that was never issued is removed, and then the first client. -/
def twoClients : List Action :=
  [.call (.other 0) (.addClient [['A']] (.closure 0)),
    .call (.other 1) (.addClient [['B']] (.closure 1)),
    .caller (.other 1), .caller (.other 1), .caller (.other 1), .caller (.other 1),
    .caller (.other 0), .caller (.other 0), .caller (.other 0), .caller (.other 0),
    .take (.other 0), .call (.other 0) (.removeClient 7),
    .caller (.other 0), .caller (.other 0), .caller (.other 0),
    .take (.other 1), .call (.other 1) (.removeClient 0),
    .caller (.other 1), .caller (.other 1), .caller (.other 1),
    .client 0 .ok, .client 0 .ok, .client 0 .ok,
    .caller (.other 1), .caller (.other 1), .caller (.other 1), .caller (.other 1)]

theorem registry_is_history_two_clients : ∃ trace s,
    Transition.Traces step Transition.anyStep registryEvents (init ∅) trace s ∧
    ∃ ops, trace = ops.flatMap Operation.events ∧
      (ops.filterMap Operation.addedId).Pairwise (· < ·) ∧
      Enrolled ops 1 [['A']] (.closure 0) ∧
      ∀ tickers callback, ¬ Enrolled ops 0 tickers callback := by
  obtain ⟨s, hrun, hfree, hone, hzero⟩ : ∃ s, Transition.run step (init ∅) twoClients = some s ∧
      s.clientsLock = none ∧ s.clients.lookup 1 = some ⟨[['A']], .closure 0, some 1, some 1⟩ ∧
      s.clients.lookup 0 = none := ⟨_, rfl, rfl, rfl, rfl⟩
  have htraces : Transition.Traces step Transition.anyStep registryEvents (init ∅) _ s :=
    Transition.traces_of_run hrun fun _ _ _ => trivial
  have hadds : (Transition.outputs step registryEvents (init ∅) twoClients).countP
    RegistryEvent.locksAdd = 2 := rfl
  obtain ⟨ops, pending, htrace, hpending, -, hids, -, hregistry, -⟩ :=
    registry_is_history htraces (by omega)
  have hempty : pending = [] := by
    rcases hpending with hempty | ⟨k, request, hheld, -⟩
    · exact hempty
    · rw [hfree] at hheld
      cases hheld
  refine ⟨_, s, htraces, ops, by rw [htrace, hempty, List.append_nil], hids, ?_, ?_⟩
  · obtain ⟨tickers, callback, henrolled, hclient⟩ := (hregistry hfree 1 _).mp hone
    cases hclient
    exact henrolled
  · intro tickers callback henrolled
    have hfound := (hregistry hfree 0 _).mpr ⟨tickers, callback, henrolled, rfl⟩
    rw [hzero] at hfound
    cases hfound

end Server

end QuoteStreamer
