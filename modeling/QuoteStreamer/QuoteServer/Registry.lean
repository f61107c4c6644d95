import Mathlib.Algebra.Group.Nat.Defs
import QuoteStreamer.Lib.Register
import QuoteStreamer.QuoteServer.Ownership

/-!
# The registry as the history of its calls

A run puts out an event when `add_client` or `remove_client` takes the clients mutex and one when it
releases the mutex. The mutex makes these events come in pairs, so a run has a list of completed
calls, in the order in which they took the mutex. Each of them changes the registry under one id,
and `traces_accounted` says that the registry is what these changes make of it.
-/

namespace QuoteStreamer

/-- What a run says about the clients mutex. -/
inductive RegistryEvent where
  /-- This caller took the mutex for `add_client` or `remove_client`. -/
  | locked (k : Caller) (request : Request)
  /-- `insert` found a client under this id. -/
  | replaced (id : UInt64)
  /-- This caller released the mutex and returned the reply. -/
  | released (k : Caller) (reply : Reply)

/-- An `add_client` took the mutex. -/
def RegistryEvent.locksAdd : RegistryEvent → Bool
  | .locked _ (.addClient ..) => true
  | _ => false

/-- A completed call of `add_client` or `remove_client`. -/
structure Operation where
  caller : Caller
  request : Request
  reply : Reply

/-- A change of the registry. -/
abbrev RegistryChange := Register.Change UInt64 Client

namespace Operation

/-- What the call puts out. -/
def events (op : Operation) : List RegistryEvent :=
  [.locked op.caller op.request, .released op.caller op.reply]

/-- What the call makes of the registry; the thread of a client has the number of its id. -/
def change (op : Operation) : Option RegistryChange :=
  match op.request, op.reply with
  | .addClient tickers callback, .added id =>
      some (.put id ((Client.new tickers callback).start id.toNat))
  | .removeClient id, _ => some (.drop id)
  | _, _ => none

end Operation

/-- The id that a caller inside `remove_client` has looked up with success. -/
def Call.removes : Call → Option UInt64
  | .removeSend id _ | .removeJoin id _ | .dropSend _ (.removed id ..)
  | .dropJoin _ (.removed id ..) | .unlock (.removed id ..) => some id
  | _ => none

namespace Server

/-- What one step puts out. -/
def registryEvents (s : Server) : Action → List RegistryEvent
  | .caller k =>
      match s.callers k with
      | .addLock tickers callback => [.locked k (.addClient tickers callback)]
      | .addInsert _ =>
          match s.clients.lookup s.clientsCount with
          | some _ => [.replaced s.clientsCount]
          | none => []
      | .removeLock id => [.locked k (.removeClient id)]
      | .unlock reply => [.released k reply]
      | _ => []
  | _ => []

/-! ## The invariant -/

/-- The number of clients that were put. -/
def puts (changes : List RegistryChange) : Nat :=
  (Register.putKeys changes).length

/-- Where the holder of the mutex stands in its call, when the registry had these changes before and
this many client threads are spawned now, and what the call has changed so far. -/
inductive Inside (before : List RegistryChange) (spawned : Nat) :
    Request → Call → List RegistryChange → Prop where
  | start (tickers callback) (hspawned : spawned = puts before) :
      Inside before spawned (.addClient tickers callback) (.addStart tickers callback) []
  | insert (tickers callback slot) (hslot : slot = puts before) (hspawned : spawned = slot + 1) :
      Inside before spawned (.addClient tickers callback)
        (.addInsert ((Client.new tickers callback).start slot)) []
  | added (tickers callback id) (hspawned : spawned = puts before + 1) :
      Inside before spawned (.addClient tickers callback) (.unlock (.added id))
        [.put id ((Client.new tickers callback).start id.toNat)]
  | take (id) (hspawned : spawned = puts before) :
      Inside before spawned (.removeClient id) (.removeTake id) []
  | missing (id) (hnone : Register.replay before id = none) (hspawned : spawned = puts before) :
      Inside before spawned (.removeClient id) (.unlock (.removed id none (.ok ()))) [.drop id]
  | taken (id call) (hsome : Register.replay before id ≠ none) (hcall : call.removes = some id)
      (hspawned : spawned = puts before) :
      Inside before spawned (.removeClient id) call [.drop id]

/-- The call that is under way, if there is one: what it has put out and what it has changed. -/
inductive Open (s : Server) (before : List RegistryChange) :
    List RegistryEvent → List RegistryChange → Prop where
  | free (hfree : ∀ k, (s.callers k).holdsClients = false) (hspawned : s.spawned = puts before) :
      Open s before [] []
  | held (k request changes) (hat : Inside before s.spawned request (s.callers k) changes) :
      Open s before [.locked k request] changes

/-- The registry and the counter are what the changes made of them. -/
structure Represents (s : Server) (changes : List RegistryChange) : Prop where
  registry : ∀ id, s.clients.lookup id = Register.replay changes id
  keys : Register.putKeys changes = (List.range (puts changes)).map UInt64.ofNat
  count : s.clientsCount = .ofNat (puts changes)

/-- Every call was one of the two methods and returned its kind of answer, which is `Ok` for the
removal of an id that was not registered. -/
structure Answered (ops : List Operation) : Prop where
  kind : ∀ op ∈ ops, op.change ≠ none
  missing : ∀ before op after id, ops = before ++ op :: after → op.request = .removeClient id →
    Register.replay (before.filterMap Operation.change) id = none →
    op.reply = .removed id none (.ok ())

/-- The trace is that of completed calls and perhaps one more, and the registry is theirs. -/
def Accounted (trace : List RegistryEvent) (s : Server) : Prop :=
  ∃ ops rest changes, trace = ops.flatMap Operation.events ++ rest ∧
    Open s (ops.filterMap Operation.change) rest changes ∧
    s.Represents (ops.filterMap Operation.change ++ changes) ∧ Answered ops

variable {s t : Server} {action : Action} {k : Caller} {call : Call} {request : Request}
  {trace rest : List RegistryEvent} {before changes : List RegistryChange} {ops : List Operation}

/-! ## Facts about the invariant -/

theorem Inside.holds {spawned : Nat} (h : Inside before spawned request call changes) :
    call.holdsClients = true := by
  cases h with
  | taken id call hsome hcall hspawned =>
      unfold Call.removes at hcall
      split at hcall
      · rfl
      · rfl
      · rfl
      · rfl
      · rfl
      · cases hcall
  | _ => rfl

/-- Who is about to insert has spawned the thread with the number of the clients that were put. -/
theorem Inside.inserting {spawned : Nat} {client : Client}
    (h : Inside before spawned request (.addInsert client) changes) : ∃ tickers callback,
      request = .addClient tickers callback ∧
      client = (Client.new tickers callback).start (puts before) ∧ changes = [] ∧
      spawned = puts before + 1 := by
  cases h with
  | insert tickers callback slot hslot hspawned =>
      subst hslot
      exact ⟨tickers, callback, rfl, rfl, rfl, hspawned⟩
  | taken id call hsome hcall => cases hcall

/-- Who is about to look an id up has changed nothing. -/
theorem Inside.taking {spawned : Nat} {id : UInt64}
    (h : Inside before spawned request (.removeTake id) changes) :
    request = .removeClient id ∧ changes = [] ∧ spawned = puts before := by
  cases h with
  | take id hspawned => exact ⟨rfl, rfl, hspawned⟩
  | taken id call hsome hcall => cases hcall

/-- A caller inside its critical section is the one whose call is under way. -/
theorem Open.of_holds (h : Open s before rest changes) (hlocks : s.LocksHeld)
    (hholds : (s.callers k).holdsClients = true) : ∃ request, rest = [.locked k request] ∧
      Inside before s.spawned request (s.callers k) changes := by
  cases h with
  | free hfree =>
      rw [hfree k] at hholds
      cases hholds
  | held j request changes hat =>
      have hsame : ThreadId.caller j = .caller k := hlocks.clients.unique hat.holds hholds
      cases hsame
      exact ⟨request, rfl, hat⟩

/-- A call that is under way holds the mutex and has said nothing else. -/
theorem Open.pending (h : Open s before rest changes) (hlocks : s.LocksHeld) : rest = [] ∨
    ∃ k request, s.clientsLock = some (.caller k) ∧ rest = [.locked k request] := by
  cases h with
  | free => exact .inl rfl
  | held k request changes hat =>
      exact .inr ⟨k, request, (hlocks.clients (.caller k)).mpr hat.holds, rfl⟩

/-- While the mutex is free no call is under way. -/
theorem Open.of_free (h : Open s before rest changes) (hlocks : s.LocksHeld)
    (hfree : s.clientsLock = none) : rest = [] ∧ changes = [] ∧ s.spawned = puts before := by
  cases h with
  | free _ hspawned => exact ⟨rfl, rfl, hspawned⟩
  | held j request changes hat =>
      have howned := hlocks.clients
      rw [hfree] at howned
      exact absurd hat.holds (howned.free (.caller j))

/-- Nobody enters, leaves or moves inside a critical section of a caller. -/
theorem Open.aside (h : Open s before rest changes) (hspawned : t.spawned = s.spawned)
    (hcallers : ∀ k, t.callers k = s.callers k ∨
      ((s.callers k).holdsClients = false ∧ (t.callers k).holdsClients = false)) :
    Open t before rest changes := by
  cases h with
  | free hfree hcount =>
      refine .free (fun k => ?_) (hspawned.trans hcount)
      rcases hcallers k with hsame | ⟨-, hnot⟩
      · rw [hsame, hfree]
      · exact hnot
  | held k request changes hat =>
      rcases hcallers k with hsame | ⟨hnot, -⟩
      · exact .held k request changes (by rwa [hsame, hspawned])
      · rw [hat.holds] at hnot
        cases hnot

/-- The registry and the counter have not changed. -/
theorem Represents.keep (h : s.Represents changes) (hclients : t.clients = s.clients)
    (hcount : t.clientsCount = s.clientsCount) : t.Represents changes where
  registry id := by rw [hclients, h.registry]
  keys := h.keys
  count := by rw [hcount, h.count]

/-- Neither has the trace. -/
theorem Accounted.aside (h : Accounted trace s) (hclients : t.clients = s.clients)
    (hcount : t.clientsCount = s.clientsCount) (hspawned : t.spawned = s.spawned)
    (hcallers : ∀ k, t.callers k = s.callers k ∨
      ((s.callers k).holdsClients = false ∧ (t.callers k).holdsClients = false)) :
    Accounted trace t := by
  obtain ⟨ops, rest, changes, htrace, hopen, hrep, hanswered⟩ := h
  exact ⟨ops, rest, changes, htrace, hopen.aside hspawned hcallers, hrep.keep hclients hcount,
    hanswered⟩

/-- The holder of the mutex goes on in its call and changes nothing. -/
theorem Accounted.move (h : Accounted trace s) (hlocks : s.LocksHeld)
    (hholds : (s.callers k).holdsClients = true)
    (hcallers : t.callers = Function.update s.callers k call) (hclients : t.clients = s.clients)
    (hcount : t.clientsCount = s.clientsCount) (hinside : ∀ before request changes,
      Inside before s.spawned request (s.callers k) changes →
      Inside before t.spawned request call changes) :
    Accounted trace t := by
  obtain ⟨ops, rest, changes, htrace, hopen, hrep, hanswered⟩ := h
  obtain ⟨request, rfl, hat⟩ := hopen.of_holds hlocks hholds
  refine ⟨ops, _, changes, htrace, .held k request changes ?_, hrep.keep hclients hcount, hanswered⟩
  rw [hcallers, Function.update_self]
  exact hinside _ _ _ hat

/-! ## The steps of a call -/

/-- A caller takes the mutex. -/
theorem accounted_lock (hlocks : s.LocksHeld) (h : Accounted trace s)
    (hfree : s.clientsLock = none) (hcallers : t.callers = Function.update s.callers k call)
    (hclients : t.clients = s.clients) (hcount : t.clientsCount = s.clientsCount)
    (hspawned : t.spawned = s.spawned)
    (hinside : ∀ before, Inside before (puts before) request call []) :
    Accounted (trace ++ [.locked k request]) t := by
  obtain ⟨ops, rest, changes, rfl, hopen, hrep, hanswered⟩ := h
  obtain ⟨rfl, rfl, hputs⟩ := hopen.of_free hlocks hfree
  refine ⟨ops, _, [], by rw [List.append_nil], .held k request [] ?_, hrep.keep hclients hcount,
    hanswered⟩
  rw [hcallers, Function.update_self, hspawned, hputs]
  exact hinside _

/-- A `put` is that of an `add_client`. -/
theorem change_eq_put_iff {op : Operation} {id : UInt64} {client : Client} :
    op.change = some (.put id client) ↔ ∃ tickers callback,
      op.request = .addClient tickers callback ∧ op.reply = .added id ∧
      client = (Client.new tickers callback).start id.toNat := by
  obtain ⟨k, request, reply⟩ := op
  cases request with
  | addClient tickers callback =>
      cases reply with
      | added other =>
          simp only [Operation.change, Option.some.injEq, Register.Change.put.injEq]
          constructor
          · rintro ⟨rfl, rfl⟩
            exact ⟨tickers, callback, rfl, rfl, rfl⟩
          · rintro ⟨_, _, hrequest, hreply, rfl⟩
            cases hrequest
            cases hreply
            exact ⟨rfl, rfl⟩
      | _ => simp [Operation.change]
  | _ => simp [Operation.change]

/-- A `drop` is that of a `remove_client`. -/
theorem change_eq_drop_iff {op : Operation} {id : UInt64} :
    op.change = some (.drop id) ↔ op.request = .removeClient id := by
  obtain ⟨k, request, reply⟩ := op
  cases request <;> cases reply <;> simp [Operation.change]

theorem puts_put {id : UInt64} {client : Client} :
    puts (changes ++ [.put id client]) = puts changes + 1 := by
  rw [puts, Register.put_keys_put, List.length_append, List.length_singleton, puts]

theorem puts_drop {id : UInt64} : puts (changes ++ [.drop id]) = puts changes := by
  rw [puts, Register.put_keys_drop, puts]

/-- Every `put` belongs to an `add_client` that took the mutex. -/
theorem puts_le (ops : List Operation) : puts (ops.filterMap Operation.change) ≤
    (ops.flatMap Operation.events).countP RegistryEvent.locksAdd := by
  induction ops with
  | nil => exact Nat.le_refl 0
  | cons op ops ih =>
      rw [List.flatMap_cons, List.countP_append]
      cases hchange : op.change with
      | none =>
          rw [List.filterMap_cons_none hchange]
          omega
      | some change =>
          rw [List.filterMap_cons_some hchange]
          cases change with
          | put id client =>
              have hlocks : op.events.countP RegistryEvent.locksAdd = 1 := by
                obtain ⟨tickers, callback, hrequest, -, -⟩ := change_eq_put_iff.mp hchange
                rw [Operation.events, hrequest]
                rfl
              have hput : puts (.put id client :: ops.filterMap Operation.change) =
                puts (ops.filterMap Operation.change) + 1 := rfl
              omega
          | drop id =>
              have hdrop : puts (.drop id :: ops.filterMap Operation.change) =
                puts (ops.filterMap Operation.change) := rfl
              omega

/-- A counter that has not wrapped around gives an id that was never put. -/
theorem Represents.fresh (h : s.Represents changes) (hbound : puts changes < 2 ^ 64) :
    s.clients.lookup s.clientsCount = none := by
  have hnew : s.clientsCount ∉ Register.putKeys changes := by
    rw [h.keys, h.count, List.mem_map]
    rintro ⟨i, hi, heq⟩
    rw [List.mem_range] at hi
    have hsame := slot_eq_of_key heq (by omega) hbound
    omega
  rw [h.registry, Register.replay_eq_none_of_not_mem hnew]

/-- `fetch_add` and `insert` put the client under the next id. -/
theorem Represents.put (h : s.Represents changes) {client : Client}
    (hclients : t.clients = s.clients.insert s.clientsCount client)
    (hcount : t.clientsCount = s.clientsCount + 1) :
    t.Represents (changes ++ [.put s.clientsCount client]) := by
  refine ⟨fun id => ?_, ?_, ?_⟩
  · rw [hclients, Register.replay_put]
    by_cases hid : id = s.clientsCount
    · subst hid
      rw [AList.lookup_insert, Function.update_self]
    · rw [AList.lookup_insert_ne hid, Function.update_of_ne hid, h.registry]
  · rw [Register.put_keys_put, puts_put, List.range_succ, List.map_append, ← h.keys,
      List.map_singleton, ← h.count]
  · rw [puts_put, hcount, h.count, UInt64.ofNat_add]
    rfl

/-- `remove` leaves nothing under the id. -/
theorem Represents.drop (h : s.Represents changes) {id : UInt64}
    (hself : t.clients.lookup id = none)
    (hother : ∀ other, other ≠ id → t.clients.lookup other = s.clients.lookup other)
    (hcount : t.clientsCount = s.clientsCount) : t.Represents (changes ++ [.drop id]) := by
  refine ⟨fun other => ?_, ?_, ?_⟩
  · rw [Register.replay_drop]
    by_cases hid : other = id
    · subst hid
      rw [hself, Function.update_self]
    · rw [hother other hid, Function.update_of_ne hid, h.registry]
  · rw [Register.put_keys_drop, puts_drop, h.keys]
  · rw [puts_drop, hcount, h.count]

/-- Before an `insert` the ids have not wrapped around. -/
theorem puts_lt_of_inserting {tickers : List Str} {callback : Callback}
    (hadds : (ops.flatMap Operation.events ++ [RegistryEvent.locked k
      (.addClient tickers callback)]).countP RegistryEvent.locksAdd ≤ 2 ^ 64) :
    puts (ops.filterMap Operation.change) < 2 ^ 64 := by
  have hputs := puts_le ops
  have hone : [RegistryEvent.locked k (.addClient tickers callback)].countP
    RegistryEvent.locksAdd = 1 := rfl
  rw [List.countP_append] at hadds
  omega

/-- As long as they do not, `insert` finds its id free. -/
theorem Accounted.insert_fresh (h : Accounted trace s) (hlocks : s.LocksHeld)
    (hadds : trace.countP RegistryEvent.locksAdd ≤ 2 ^ 64) {client : Client}
    (hat : s.callers k = .addInsert client) : s.clients.lookup s.clientsCount = none := by
  obtain ⟨ops, rest, changes, rfl, hopen, hrep, -⟩ := h
  obtain ⟨request, rfl, hinside⟩ := hopen.of_holds hlocks (by rw [hat]; rfl)
  rw [hat] at hinside
  obtain ⟨tickers, callback, rfl, -, rfl, -⟩ := hinside.inserting
  refine hrep.fresh ?_
  rw [List.append_nil]
  exact puts_lt_of_inserting hadds

/-- `insert` puts the client of the call that is under way. -/
theorem accounted_insert (hlocks : s.LocksHeld) (h : Accounted trace s)
    (hadds : trace.countP RegistryEvent.locksAdd ≤ 2 ^ 64) {client : Client}
    (hat : s.callers k = .addInsert client)
    (hcallers : t.callers = Function.update s.callers k (.unlock (.added s.clientsCount)))
    (hclients : t.clients = s.clients.insert s.clientsCount client)
    (hcount : t.clientsCount = s.clientsCount + 1) (hspawned : t.spawned = s.spawned) :
    Accounted trace t := by
  obtain ⟨ops, rest, changes, rfl, hopen, hrep, hanswered⟩ := h
  obtain ⟨request, rfl, hinside⟩ := hopen.of_holds hlocks (by rw [hat]; rfl)
  rw [hat] at hinside
  obtain ⟨tickers, callback, rfl, rfl, rfl, hsucc⟩ := hinside.inserting
  rw [List.append_nil] at hrep
  have hid : s.clientsCount.toNat = puts (ops.filterMap Operation.change) := by
    rw [hrep.count, UInt64.toNat_ofNat_of_lt' (puts_lt_of_inserting hadds)]
  refine ⟨ops, _, _, rfl, .held k _ _ ?_, hrep.put hclients hcount, hanswered⟩
  rw [hcallers, Function.update_self, hspawned, ← hid]
  exact .added tickers callback s.clientsCount (by omega)

/-- `remove` drops the id of the call that is under way, whether or not it finds a client. -/
theorem accounted_take (hlocks : s.LocksHeld) (h : Accounted trace s) {id : UInt64}
    (hat : s.callers k = .removeTake id)
    (hcallers : t.callers = Function.update s.callers k call)
    (hself : t.clients.lookup id = none)
    (hother : ∀ other, other ≠ id → t.clients.lookup other = s.clients.lookup other)
    (hcount : t.clientsCount = s.clientsCount) (hspawned : t.spawned = s.spawned)
    (hcall : call.removes = some id ∧ s.clients.lookup id ≠ none ∨
      call = .unlock (.removed id none (.ok ())) ∧ s.clients.lookup id = none) :
    Accounted trace t := by
  obtain ⟨ops, rest, changes, htrace, hopen, hrep, hanswered⟩ := h
  obtain ⟨request, rfl, hinside⟩ := hopen.of_holds hlocks (by rw [hat]; rfl)
  rw [hat] at hinside
  obtain ⟨rfl, rfl, hputs⟩ := hinside.taking
  rw [List.append_nil] at hrep
  rw [hrep.registry] at hcall
  refine ⟨ops, _, _, htrace, .held k (.removeClient id) [.drop id] ?_,
    hrep.drop hself hother hcount, hanswered⟩
  rw [hcallers, Function.update_self, hspawned]
  rcases hcall with ⟨hremoves, hsome⟩ | ⟨rfl, hnone⟩
  · exact .taken id call hsome hremoves hputs
  · exact .missing id hnone hputs

/-- What a call has done when it is about to release the mutex. -/
theorem Inside.completed {spawned : Nat} {reply : Reply}
    (h : Inside before spawned request (.unlock reply) changes) :
    (∃ change, changes = [change] ∧ Operation.change ⟨k, request, reply⟩ = some change) ∧
    spawned = puts (before ++ changes) ∧
    ∀ id, request = .removeClient id → Register.replay before id = none →
      reply = .removed id none (.ok ()) := by
  cases h with
  | added tickers callback id hspawned =>
      exact ⟨⟨_, rfl, rfl⟩, by rw [puts_put, hspawned], by simp⟩
  | missing id hnone hspawned =>
      refine ⟨⟨_, rfl, rfl⟩, by rw [puts_drop, hspawned], fun id' heq _ => ?_⟩
      cases heq
      rfl
  | taken id call hsome hcall hspawned =>
      refine ⟨⟨_, rfl, rfl⟩, by rw [puts_drop, hspawned], fun id' heq hnone => ?_⟩
      cases heq
      exact absurd hnone hsome

/-- One more completed call. -/
theorem Answered.concat (h : Answered ops) {op : Operation} (hkind : op.change ≠ none)
    (hop : ∀ id, op.request = .removeClient id →
      Register.replay (ops.filterMap Operation.change) id = none →
      op.reply = .removed id none (.ok ())) : Answered (ops ++ [op]) := by
  refine ⟨fun op' hmem => ?_, fun before op' after id hsplit hrequest hnone => ?_⟩
  · rcases List.mem_append.mp hmem with hmem | hmem
    · exact h.kind op' hmem
    · rwa [List.mem_singleton.mp hmem]
  rcases List.eq_nil_or_concat after with rfl | ⟨front, last, rfl⟩
  · obtain ⟨rfl, heq⟩ := List.append_inj' hsplit rfl
    obtain rfl := List.singleton_inj.mp heq
    exact hop id hrequest hnone
  · have hsplit' : ops ++ [op] = (before ++ op' :: front) ++ [last] := by simpa using hsplit
    obtain ⟨hfront, -⟩ := List.append_inj' hsplit' rfl
    exact h.missing before op' front id hfront hrequest hnone

/-- A caller releases the mutex, and its call is complete. -/
theorem accounted_unlock (hlocks : s.LocksHeld) (h : Accounted trace s) {reply : Reply}
    (hat : s.callers k = .unlock reply)
    (hcallers : t.callers = Function.update s.callers k (.returned reply))
    (hclients : t.clients = s.clients) (hcount : t.clientsCount = s.clientsCount)
    (hspawned : t.spawned = s.spawned) : Accounted (trace ++ [.released k reply]) t := by
  obtain ⟨ops, rest, changes, rfl, hopen, hrep, hanswered⟩ := h
  have hholds : (s.callers k).holdsClients = true := by
    rw [hat]
    rfl
  obtain ⟨request, rfl, hinside⟩ := hopen.of_holds hlocks hholds
  rw [hat] at hinside
  obtain ⟨⟨change, rfl, hchange⟩, hputs, hreply⟩ := hinside.completed (k := k)
  have hchanges : (ops ++ [Operation.mk k request reply]).filterMap Operation.change =
      ops.filterMap Operation.change ++ [change] := by
    rw [List.filterMap_append, List.filterMap_cons_some hchange, List.filterMap_nil]
  refine ⟨ops ++ [⟨k, request, reply⟩], [], [], ?_, .free (fun j => ?_) ?_, ?_,
    hanswered.concat (by simp [hchange]) hreply⟩
  · simp [List.flatMap_append, Operation.events]
  · by_cases hj : j = k
    · subst j
      rw [hcallers, Function.update_self]
      rfl
    · rw [hcallers, Function.update_of_ne hj]
      exact hlocks.other_not_holding hholds hj
  · rw [hspawned, hputs, hchanges]
  · rw [hchanges, List.append_nil]
    exact hrep.keep hclients hcount

/-- A caller moves between points that hold no mutex. -/
theorem moved_aside (hcallers : t.callers = Function.update s.callers k call)
    (hfrom : (s.callers k).holdsClients = false) (hto : call.holdsClients = false) (j : Caller) :
    t.callers j = s.callers j ∨
      ((s.callers j).holdsClients = false ∧ (t.callers j).holdsClients = false) := by
  by_cases hj : j = k
  · subst j
    exact .inr ⟨hfrom, by rw [hcallers, Function.update_self, hto]⟩
  · exact .inl (by rw [hcallers, Function.update_of_ne hj])

/-- Every step keeps the account. -/
theorem accounted_step (hlocks : s.LocksHeld) (h : Accounted trace s)
    (hadds : trace.countP RegistryEvent.locksAdd ≤ 2 ^ 64) (hmove : Move s action t) :
    Accounted (trace ++ s.registryEvents action) t := by
  cases hmove with
  | call k request hat =>
      simp only [registryEvents, List.append_nil]
      exact h.aside rfl rfl rfl (moved_aside rfl (by rw [hat]; rfl) (entry_holds_nothing request).1)
  | take k reply hat =>
      simp only [registryEvents, List.append_nil]
      exact h.aside rfl rfl rfl (moved_aside rfl (by rw [hat]; rfl) rfl)
  | addLock k tickers callback hat hfree =>
      simp only [registryEvents, hat]
      exact accounted_lock hlocks h hfree rfl rfl rfl rfl fun before => .start tickers callback rfl
  | addStart k tickers callback hat =>
      simp only [registryEvents, hat, List.append_nil]
      refine h.move hlocks (by rw [hat]; rfl) rfl rfl rfl fun before request changes hinside => ?_
      rw [hat] at hinside
      cases hinside with
      | start _ _ hspawned => exact .insert tickers callback s.spawned hspawned rfl
      | taken id call hsome hcall => cases hcall
  | addInsert k client hat hnew =>
      simp only [registryEvents, hat, hnew, List.append_nil]
      exact accounted_insert hlocks h hadds hat rfl rfl rfl rfl
  | addReplace k client old hat hold =>
      -- with at most `2 ^ 64` additions no id comes up twice
      rw [h.insert_fresh hlocks hadds hat] at hold
      cases hold
  | removeLock k id hat hfree =>
      simp only [registryEvents, hat]
      exact accounted_lock hlocks h hfree rfl rfl rfl rfl fun before => .take id rfl
  | removeTake k id client hat hfound =>
      simp only [registryEvents, hat, List.append_nil]
      refine accounted_take hlocks h hat rfl (AList.lookup_erase id s.clients)
        (fun other hne => AList.lookup_erase_ne hne) rfl rfl (.inl ⟨rfl, ?_⟩)
      rw [hfound]
      exact Option.some_ne_none client
  | removeNone k id hat hnone =>
      simp only [registryEvents, hat, List.append_nil]
      exact accounted_take hlocks h hat rfl hnone (fun _ _ => rfl) rfl rfl (.inr ⟨rfl, hnone⟩)
  | unlock k reply hat =>
      simp only [registryEvents, hat]
      exact accounted_unlock hlocks h hat rfl rfl rfl rfl
  | removeSend k _ _ _ hat | removeSendFails k _ _ _ hat | removeJoin k _ _ hat =>
      simp only [registryEvents, hat, List.append_nil]
      refine h.move hlocks (by rw [hat]; rfl) rfl rfl rfl fun before request changes hinside => ?_
      rw [hat] at hinside
      cases hinside with
      | taken id call hsome hcall hspawned => exact .taken id _ hsome hcall hspawned
  | dropSend k client reply hat | dropJoin k client reply hat =>
      simp only [registryEvents, hat, List.append_nil]
      refine h.move hlocks (by rw [hat]; rfl) rfl rfl rfl fun before request changes hinside => ?_
      rw [hat] at hinside
      cases hinside with
      | taken id call hsome hcall hspawned =>
          refine .taken id _ hsome ?_ hspawned
          rw [← hcall]
          cases reply <;> rfl
  | startLock k hat | startRunning k hat | startSpawn k hat | startStore k _ hat
  | shutdownFlag k hat | shutdownLock k hat | shutdownTake k _ hat | shutdownNone k hat
  | shutdownJoin k _ hat =>
      simp only [registryEvents, hat, List.append_nil]
      exact h.aside rfl rfl rfl (moved_aside rfl (by rw [hat]; rfl) rfl)
  | _ =>
      simp only [registryEvents, List.append_nil]
      exact h.aside rfl rfl rfl fun _ => .inl rfl

theorem accounted_init (quotes : Quotes) : Accounted [] (init quotes) :=
  ⟨[], [], [], rfl, .free (fun _ => rfl) rfl, ⟨fun _ => rfl, rfl, rfl⟩, by simp, by simp⟩

/-- Every run with at most `2 ^ 64` calls of `add_client` is accounted for. -/
theorem traces_accounted {quotes : Quotes}
    (h : Transition.Traces step Transition.anyStep registryEvents (init quotes) trace s)
    (hadds : trace.countP RegistryEvent.locksAdd ≤ 2 ^ 64) : Accounted trace s := by
  refine Transition.Traces.invariant_with
    (fun trace (s : Server) =>
      trace.countP RegistryEvent.locksAdd ≤ 2 ^ 64 → Accounted trace s) h
    (fun hrun => Reachable.locks_held hrun) (fun _ => accounted_init quotes)
    (fun hlocks hinv _ hstep hadds => ?_) hadds
  rw [List.countP_append] at hadds
  have hbefore := hinv (by omega)
  exact accounted_step hlocks hbefore (by omega) (step_move hstep)

end Server

end QuoteStreamer
