import QuoteStreamer.QuoteServer.Removal

/-!
# Who registered a client

Each client in the registry goes back to one `added` entry of the history, and so to the caller
whose `add_client` registered it. As long as fewer than `2 ^ 64` clients were added, ids are not
reused: no client is replaced, each is removed at most once, and an id names its caller.
-/

namespace QuoteStreamer

namespace Call

/-- The id that the caller's `add_client` has registered and is about to return. -/
def adds : Call → Option UInt64
  | .dropSend _ (.added id) | .dropJoin _ (.added id) | .unlock (.added id)
  | .returned (.added id) => some id
  | _ => none

end Call

namespace Server

/-- The history accounts for the registry. -/
structure Deeds (s : Server) : Prop where
  key : ∀ k id slot, .added k id slot ∈ s.history → id = .ofNat slot ∧ slot < s.spawned
  inserted : ∀ k id slot j client, .added k id slot ∈ s.history →
    s.callers j = .addInsert client → ¬ client.Drives slot
  unique : ∀ k k' id id' slot, .added k id slot ∈ s.history → .added k' id' slot ∈ s.history →
    k = k'
  registered : ∀ id client slot, s.clients.lookup id = some client → client.Drives slot →
    ∃ k, .added k id slot ∈ s.history
  answered : ∀ k id, (s.callers k).adds = some id → ∃ slot, .added k id slot ∈ s.history
  removed : ∀ id slot, .removed id slot ∈ s.history → ∃ k, .added k id slot ∈ s.history
  gone : ∀ id slot, .removed id slot ∈ s.history → s.Unregistered slot
  once : s.history.Pairwise fun later earlier => ∀ id id' slot,
    later = .removed id slot → earlier ≠ .removed id' slot
  replaced : s.spawned ≤ 2 ^ 64 → ∀ id slot, .replaced id slot ∉ s.history

variable {s t : Server} {action : Action} {k : Caller} {call : Call} {client : Client}
  {id : UInt64} {slot : Nat}

/-- Slots below the bound have different ids. -/
theorem slot_eq_of_key {other : Nat} (h : UInt64.ofNat slot = UInt64.ofNat other)
    (hslot : slot < 2 ^ 64) (hother : other < 2 ^ 64) : slot = other := by
  have hkey := congrArg UInt64.toNat h
  rwa [UInt64.toNat_ofNat_of_lt' hslot, UInt64.toNat_ofNat_of_lt' hother] at hkey

/-- As long as ids do not wrap around, `insert` finds its id free. -/
theorem Custody.insert_fresh (h : s.Custody) (hbound : s.spawned ≤ 2 ^ 64)
    (hat : s.callers k = .addInsert client) : s.clients.lookup s.clientsCount = none := by
  have hsound := h.calls k
  rw [hat] at hsound
  obtain ⟨slot, hheld, -, -, hcount, -⟩ := hsound
  cases hfound : s.clients.lookup s.clientsCount with
  | none => rfl
  | some old =>
      obtain ⟨other, hreg⟩ := h.registered _ _ hfound
      have hslot := hheld.bound
      have hother := hreg.bound
      have heq := slot_eq_of_key (hcount.symm.trans hreg.key) (by omega) (by omega)
      subst heq
      exact absurd hreg.drives (hheld.unregistered _ _ hfound)

/-! ## Steps -/

/-- A step that changes neither the registry nor what the history says about it. -/
theorem Deeds.keep (h : s.Deeds) (hclients : t.clients = s.clients)
    (hhistory : t.history = s.history ∨ t.history = .notified :: s.history)
    (hspawned : s.spawned ≤ t.spawned)
    (hinsert : ∀ j client, t.callers j = .addInsert client →
      s.callers j = .addInsert client ∨ client.Drives s.spawned)
    (hadds : ∀ j id, (t.callers j).adds = some id → (s.callers j).adds = some id) : t.Deeds := by
  have hback : ∀ e, e ≠ .notified → (e ∈ t.history ↔ e ∈ s.history) := by
    intro e hne
    rcases hhistory with heq | heq <;> rw [heq]
    rw [List.mem_cons, or_iff_right hne]
  have hadded : ∀ k id slot, .added k id slot ∈ t.history ↔ .added k id slot ∈ s.history :=
    fun k id slot => hback _ (by simp)
  have hremoved : ∀ id slot, .removed id slot ∈ t.history ↔ .removed id slot ∈ s.history :=
    fun id slot => hback _ (by simp)
  refine ⟨?key, ?inserted, ?unique, ?registered, ?answered, ?removed, ?gone, ?once, ?replaced⟩
  case key =>
    intro k id slot hmem
    obtain ⟨hkey, hlt⟩ := h.key k id slot ((hadded k id slot).mp hmem)
    exact ⟨hkey, by omega⟩
  case inserted =>
    intro k id slot j client hmem hat hdrives
    have hmem := (hadded k id slot).mp hmem
    rcases hinsert j client hat with hat | hfresh
    · exact h.inserted k id slot j client hmem hat hdrives
    · have heq := hfresh.slot_eq hdrives
      have hlt := (h.key k id slot hmem).2
      omega
  case unique =>
    intro k k' id id' slot hmem hmem'
    exact h.unique k k' id id' slot ((hadded k id slot).mp hmem) ((hadded k' id' slot).mp hmem')
  case registered =>
    intro id client slot hfound hdrives
    rw [hclients] at hfound
    obtain ⟨k, hmem⟩ := h.registered id client slot hfound hdrives
    exact ⟨k, (hadded k id slot).mpr hmem⟩
  case answered =>
    intro k id hid
    obtain ⟨slot, hmem⟩ := h.answered k id (hadds k id hid)
    exact ⟨slot, (hadded k id slot).mpr hmem⟩
  case removed =>
    intro id slot hmem
    obtain ⟨k, hmem⟩ := h.removed id slot ((hremoved id slot).mp hmem)
    exact ⟨k, (hadded k id slot).mpr hmem⟩
  case gone =>
    intro id slot hmem id' client hfound
    rw [hclients] at hfound
    exact h.gone id slot ((hremoved id slot).mp hmem) id' client hfound
  case once =>
    rcases hhistory with heq | heq <;> rw [heq]
    · exact h.once
    · refine List.pairwise_cons.mpr ⟨fun e _ id id' slot hnot => ?_, h.once⟩
      cases hnot
  case replaced =>
    intro hbound id slot hmem
    exact h.replaced (by omega) id slot ((hback _ (by simp)).mp hmem)

/-- Only one caller moves. -/
theorem Deeds.move (h : s.Deeds) (hcallers : t.callers = Function.update s.callers k call)
    (hclients : t.clients = s.clients) (hhistory : t.history = s.history)
    (hspawned : s.spawned ≤ t.spawned)
    (hinsert : ∀ client, call = .addInsert client → client.Drives s.spawned)
    (hadds : call.adds = none ∨ call.adds = (s.callers k).adds) : t.Deeds := by
  refine h.keep hclients (.inl hhistory) hspawned (fun j client hat => ?_) (fun j id hid => ?_)
  · rw [hcallers] at hat
    rcases Locks.moved_cases hat with ⟨-, hcall⟩ | ⟨-, hat⟩
    · exact .inr (hinsert client hcall)
    · exact .inl hat
  · rw [hcallers] at hid
    by_cases hj : j = k
    · subst j
      rw [Function.update_self] at hid
      rcases hadds with hnone | hsame
      · rw [hnone] at hid
        cases hid
      · rwa [hsame] at hid
    · rwa [Function.update_of_ne hj] at hid

/-- `insert` adds an entry for a slot that had none; an entry about a replaced client may come with
it, but not before ids wrap around. -/
theorem deeds_insert (middle : List Event) (hlocks : s.LocksHeld) (hcustody : s.Custody)
    (h : s.Deeds) (hat : s.callers k = .addInsert client)
    (hmiddle : ∀ e ∈ middle, ∃ id slot, e = .replaced id slot)
    (hnone : s.clients.lookup s.clientsCount = none → middle = [])
    (hcallers : t.callers = Function.update s.callers k call)
    (hcall : call.adds = some s.clientsCount) (hspawned : t.spawned = s.spawned)
    (hclients : t.clients = s.clients.insert s.clientsCount client)
    (hhistory : t.history = .added k s.clientsCount (client.tx.getD 0) :: (middle ++ s.history)) :
    t.Deeds := by
  have hsound := hcustody.calls k
  rw [hat] at hsound
  obtain ⟨slot, hheld, -, hnext, hcount, -⟩ := hsound
  rw [hheld.drives.1, Option.getD_some] at hhistory
  -- the slot of a client on its way into the registry has no entry yet
  have hnew : ∀ k' id', .added k' id' slot ∉ s.history :=
    fun k' id' hmem => h.inserted k' id' slot k client hmem hat hheld.drives
  have hback : ∀ e, e ∈ t.history → e = .added k s.clientsCount slot ∨
      (∃ id slot, e = .replaced id slot) ∨ e ∈ s.history := by
    intro e hmem
    rw [hhistory] at hmem
    rcases List.mem_cons.mp hmem with heq | hmem
    · exact .inl heq
    · rcases List.mem_append.mp hmem with hmem | hmem
      · exact .inr (.inl (hmiddle e hmem))
      · exact .inr (.inr hmem)
  have hin : ∀ e, e ∈ s.history → e ∈ t.history := by
    intro e hmem
    rw [hhistory]
    exact List.mem_cons_of_mem _ (List.mem_append_right _ hmem)
  have hself : .added k s.clientsCount slot ∈ t.history := by
    rw [hhistory]
    exact List.mem_cons_self
  have hadded : ∀ k' id' slot', .added k' id' slot' ∈ t.history →
      (k' = k ∧ id' = s.clientsCount ∧ slot' = slot) ∨ .added k' id' slot' ∈ s.history := by
    intro k' id' slot' hmem
    rcases hback _ hmem with heq | ⟨_, _, heq⟩ | hmem
    · cases heq
      exact .inl ⟨rfl, rfl, rfl⟩
    · cases heq
    · exact .inr hmem
  have hremoved : ∀ id' slot', .removed id' slot' ∈ t.history → .removed id' slot' ∈ s.history := by
    intro id' slot' hmem
    rcases hback _ hmem with heq | ⟨_, _, heq⟩ | hmem
    · cases heq
    · cases heq
    · exact hmem
  have hlt := hheld.bound
  refine ⟨?key, ?inserted, ?unique, ?registered, ?answered, ?removed, ?gone, ?once, ?replaced⟩
  case key =>
    intro k' id' slot' hmem
    rcases hadded k' id' slot' hmem with ⟨rfl, rfl, rfl⟩ | hmem
    · exact ⟨hcount, by omega⟩
    · obtain ⟨hkey, hlt⟩ := h.key k' id' slot' hmem
      exact ⟨hkey, by omega⟩
  case inserted =>
    intro k' id' slot' j client' _ hj
    rw [hcallers] at hj
    rcases Locks.moved_cases hj with ⟨-, hnow⟩ | ⟨hjk, hj⟩
    · rw [hnow] at hcall
      cases hcall
    · -- the mutex keeps every other caller out
      have hhold := hlocks.other_not_holding
        (show (s.callers k).holdsClients = true by rw [hat]; rfl) hjk
      rw [hj] at hhold
      cases hhold
  case unique =>
    intro k₁ k₂ id₁ id₂ slot' hmem₁ hmem₂
    rcases hadded _ _ _ hmem₁ with ⟨rfl, rfl, rfl⟩ | hmem₁
    · rcases hadded _ _ _ hmem₂ with ⟨rfl, -, -⟩ | hmem₂
      · rfl
      · exact absurd hmem₂ (hnew _ _)
    · rcases hadded _ _ _ hmem₂ with ⟨rfl, rfl, rfl⟩ | hmem₂
      · exact absurd hmem₁ (hnew _ _)
      · exact h.unique _ _ _ _ _ hmem₁ hmem₂
  case registered =>
    intro id' client' slot' hfound hdrives
    rw [hclients] at hfound
    rcases InPlace.lookup_insert_cases hfound with ⟨rfl, rfl⟩ | ⟨-, hfound⟩
    · rw [← hheld.drives.slot_eq hdrives]
      exact ⟨k, hself⟩
    · obtain ⟨k', hmem⟩ := h.registered id' client' slot' hfound hdrives
      exact ⟨k', hin _ hmem⟩
  case answered =>
    intro j id' hid
    rw [hcallers] at hid
    by_cases hj : j = k
    · subst j
      rw [Function.update_self, hcall] at hid
      cases hid
      exact ⟨slot, hself⟩
    · rw [Function.update_of_ne hj] at hid
      obtain ⟨slot', hmem⟩ := h.answered j id' hid
      exact ⟨slot', hin _ hmem⟩
  case removed =>
    intro id' slot' hmem
    obtain ⟨k', hmem⟩ := h.removed id' slot' (hremoved id' slot' hmem)
    exact ⟨k', hin _ hmem⟩
  case gone =>
    intro id' slot' hmem id'' client'' hfound hdrives
    have hmem := hremoved id' slot' hmem
    rw [hclients] at hfound
    rcases InPlace.lookup_insert_cases hfound with ⟨rfl, rfl⟩ | ⟨-, hfound⟩
    · obtain ⟨k', hadd⟩ := h.removed id' slot' hmem
      rw [← hheld.drives.slot_eq hdrives] at hadd
      exact hnew _ _ hadd
    · exact h.gone id' slot' hmem id'' client'' hfound hdrives
  case once =>
    rw [hhistory]
    refine List.pairwise_cons.mpr ⟨fun e _ id' id'' slot' hnot => (by cases hnot), ?_⟩
    refine List.pairwise_append.mpr ⟨?_, h.once, fun e hmem e' _ id' id'' slot' hnot => ?_⟩
    · refine List.pairwise_of_forall_mem_list fun e hmem e' _ id' id'' slot' hnot => ?_
      obtain ⟨_, _, heq⟩ := hmiddle e hmem
      rw [heq] at hnot
      cases hnot
    · obtain ⟨_, _, heq⟩ := hmiddle e hmem
      rw [heq] at hnot
      cases hnot
  case replaced =>
    intro hbound id' slot' hmem
    rw [hspawned] at hbound
    rw [hhistory, hnone (hcustody.insert_fresh hbound hat), List.nil_append] at hmem
    rcases List.mem_cons.mp hmem with heq | hmem
    · cases heq
    · exact h.replaced hbound id' slot' hmem

/-- `remove` takes a client out, which the history had in it. -/
theorem deeds_take (hcustody : s.Custody) (h : s.Deeds)
    (hfound : s.clients.lookup id = some client) (hcall : call.adds = none)
    (hinsert : ∀ client, call ≠ .addInsert client)
    (hcallers : t.callers = Function.update s.callers k call) (hspawned : t.spawned = s.spawned)
    (hclients : t.clients = s.clients.erase id)
    (hhistory : t.history = .removed id (client.tx.getD 0) :: s.history) : t.Deeds := by
  obtain ⟨slot, hreg⟩ := hcustody.registered id client hfound
  rw [hreg.drives.1, Option.getD_some] at hhistory
  have hadded : ∀ k' id' slot', .added k' id' slot' ∈ t.history ↔
      .added k' id' slot' ∈ s.history := by
    intro k' id' slot'
    rw [hhistory, List.mem_cons, or_iff_right (by simp)]
  have hback : ∀ id' client', t.clients.lookup id' = some client' →
      id' ≠ id ∧ s.clients.lookup id' = some client' := by
    intro id' client' hlookup
    rw [hclients] at hlookup
    exact InPlace.lookup_of_erase hlookup
  refine ⟨?key, ?inserted, ?unique, ?registered, ?answered, ?removed, ?gone, ?once, ?replaced⟩
  case key =>
    intro k' id' slot' hmem
    rw [hspawned]
    exact h.key k' id' slot' ((hadded _ _ _).mp hmem)
  case inserted =>
    intro k' id' slot' j client' hmem hj
    rw [hcallers] at hj
    rcases Locks.moved_cases hj with ⟨-, hnow⟩ | ⟨-, hj⟩
    · exact absurd hnow (hinsert client')
    · exact h.inserted k' id' slot' j client' ((hadded _ _ _).mp hmem) hj
  case unique =>
    intro k₁ k₂ id₁ id₂ slot' hmem₁ hmem₂
    exact h.unique _ _ _ _ _ ((hadded _ _ _).mp hmem₁) ((hadded _ _ _).mp hmem₂)
  case registered =>
    intro id' client' slot' hlookup hdrives
    obtain ⟨k', hmem⟩ := h.registered id' client' slot' (hback id' client' hlookup).2 hdrives
    exact ⟨k', (hadded _ _ _).mpr hmem⟩
  case answered =>
    intro j id' hid
    rw [hcallers] at hid
    by_cases hj : j = k
    · subst j
      rw [Function.update_self, hcall] at hid
      cases hid
    · rw [Function.update_of_ne hj] at hid
      obtain ⟨slot', hmem⟩ := h.answered j id' hid
      exact ⟨slot', (hadded _ _ _).mpr hmem⟩
  case removed =>
    intro id' slot' hmem
    rw [hhistory] at hmem
    rcases List.mem_cons.mp hmem with heq | hmem
    · cases heq
      obtain ⟨k', hmem⟩ := h.registered id client slot hfound hreg.drives
      exact ⟨k', (hadded _ _ _).mpr hmem⟩
    · obtain ⟨k', hmem⟩ := h.removed id' slot' hmem
      exact ⟨k', (hadded _ _ _).mpr hmem⟩
  case gone =>
    intro id' slot' hmem id'' client'' hlookup hdrives
    obtain ⟨hne, hlookup⟩ := hback id'' client'' hlookup
    rw [hhistory] at hmem
    rcases List.mem_cons.mp hmem with heq | hmem
    · cases heq
      obtain ⟨other, hother⟩ := hcustody.registered id'' client'' hlookup
      have heq := hother.drives.slot_eq hdrives
      exact hne (by rw [hother.key, hreg.key, heq])
    · exact h.gone id' slot' hmem id'' client'' hlookup hdrives
  case once =>
    rw [hhistory]
    refine List.pairwise_cons.mpr ⟨fun e hmem id' id'' slot' heq heq' => ?_, h.once⟩
    cases heq
    rw [heq'] at hmem
    exact h.gone id'' slot hmem id client hfound hreg.drives
  case replaced =>
    intro hbound id' slot' hmem
    rw [hspawned] at hbound
    rw [hhistory] at hmem
    rcases List.mem_cons.mp hmem with heq | hmem
    · cases heq
    · exact h.replaced hbound id' slot' hmem

/-- Every step keeps the history in line with the registry. -/
theorem deeds_step (hlocks : s.LocksHeld) (hcustody : s.Custody) (h : s.Deeds)
    (hmove : Move s action t) : t.Deeds := by
  cases hmove with
  | addStart k tickers callback hat =>
      refine h.move rfl rfl rfl (Nat.le_succ _) (fun client heq => ?_) (.inl rfl)
      cases heq
      exact Client.start_drives _ _
  | addInsert k client hat hnew =>
      exact deeds_insert [] hlocks hcustody h hat (by simp) (fun _ => rfl) rfl rfl rfl rfl rfl
  | addReplace k client old hat hold =>
      refine deeds_insert [.replaced s.clientsCount (old.tx.getD 0)] hlocks hcustody h hat ?_ ?_
        rfl rfl rfl rfl rfl
      · intro e hmem
        exact ⟨_, _, List.mem_singleton.mp hmem⟩
      · intro hnone
        rw [hold] at hnone
        cases hnone
  | removeTake k id client hat hfound =>
      exact deeds_take hcustody h hfound rfl (by simp) rfl rfl rfl rfl
  | call k request hat =>
      exact h.move rfl rfl rfl (Nat.le_refl _) (by cases request <;> simp [Request.entry])
        (.inl (by cases request <;> rfl))
  | dropSend k client reply hat | dropJoin k client reply hat | unlock k reply hat =>
      refine h.move rfl rfl rfl (Nat.le_refl _) (by simp) (.inr ?_)
      rw [hat]
      cases reply <;> rfl
  | take k | addLock k | removeLock k | removeNone k | removeSend k | removeSendFails k
  | removeJoin k | startLock k | startRunning k | startSpawn k | startStore k | shutdownFlag k
  | shutdownLock k | shutdownTake k | shutdownNone k | shutdownJoin k =>
      exact h.move rfl rfl rfl (Nat.le_refl _) (by simp) (.inl rfl)
  | notifyLock =>
      exact h.keep rfl (.inr rfl) (Nat.le_refl _) (fun _ _ => .inl) (fun _ _ => fun hid => hid)
  | _ => exact h.keep rfl (.inl rfl) (Nat.le_refl _) (fun _ _ => .inl) (fun _ _ => fun hid => hid)

theorem deeds_init (quotes : Quotes) : (init quotes).Deeds where
  key _ _ _ hmem := by cases hmem
  inserted _ _ _ _ _ hmem := by cases hmem
  unique _ _ _ _ _ hmem := by cases hmem
  registered id client slot hfound := by simp [init] at hfound
  answered _ _ hid := by cases hid
  removed _ _ hmem := by cases hmem
  gone _ _ hmem := by cases hmem
  once := .nil
  replaced _ _ _ hmem := by cases hmem

/-- In every reachable state the history accounts for the registry. -/
theorem Reachable.deeds {quotes : Quotes} (h : Reachable quotes s) : s.Deeds := by
  refine Transition.Reaches.invariant_with Deeds h
    (fun hrun => And.intro (Reachable.locks_held hrun) (Reachable.custody hrun))
    (deeds_init quotes) ?_
  rintro state next action ⟨hlocks, hcustody⟩ - hinv - hstep
  exact deeds_step hlocks hcustody hinv (step_move hstep)

/-- As long as ids do not wrap around, an id names the caller who registered it. -/
theorem Deeds.caller_eq (h : s.Deeds) (hbound : s.spawned ≤ 2 ^ 64) {k' : Caller} {slot' : Nat}
    (hmem : .added k id slot ∈ s.history) (hmem' : .added k' id slot' ∈ s.history) :
    k = k' ∧ slot = slot' := by
  obtain ⟨hkey, hlt⟩ := h.key k id slot hmem
  obtain ⟨hkey', hlt'⟩ := h.key k' id slot' hmem'
  have heq := slot_eq_of_key (hkey.symm.trans hkey') (by omega) (by omega)
  subst heq
  exact ⟨h.unique k k' id id slot hmem hmem', rfl⟩

/-- As long as ids do not wrap around, `insert` uses an id that was never registered before. -/
theorem Deeds.insert_unnamed (h : s.Deeds) (hcustody : s.Custody) (hbound : s.spawned ≤ 2 ^ 64)
    (howner : .added k id slot ∈ s.history) {j : Caller} (hat : s.callers j = .addInsert client) :
    id ≠ s.clientsCount := by
  rintro rfl
  have hsound := hcustody.calls j
  rw [hat] at hsound
  obtain ⟨slot', hheld, -, -, hcount, -⟩ := hsound
  obtain ⟨hkey, hlt⟩ := h.key _ _ _ howner
  have hlt' := hheld.bound
  obtain rfl := slot_eq_of_key (hcount.symm.trans hkey) (by omega) (by omega)
  exact h.inserted _ _ _ j client howner hat hheld.drives

end Server

end QuoteStreamer
