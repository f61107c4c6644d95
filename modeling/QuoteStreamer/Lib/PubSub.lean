import Mathlib.Data.List.Basic
import QuoteStreamer.Lib.Simulation

/-!
# A publish/subscribe service

What a service is for that keeps items on a board, one for a topic, and tells its subscribers of
them. Everything happens at once here: the board is revised as a whole while nobody reads it, a
publication reaches every active subscription, and a subscription that is owed a round reads the
board as it then stands, in the order of its topics. `Step` says which events each step shows;
`topics_delivered` is what a subscriber can count on: its known topics over and over, once for each
publication in its time.
-/

namespace QuoteStreamer.PubSub

open Simulation (Observes)

variable {ι τ μ : Type*}

/-- A subscription: its topics, whether publications still reach it, how many rounds it is owed, the
topics left in the round that it is in, and whether its subscriber has broken off. -/
structure Subscription (τ : Type*) where
  topics : List τ
  active : Bool
  owed : ℕ
  round : Option (List τ)
  failed : Bool

/-- The board and the subscriptions; a broken service opens no round any more. -/
structure Service (ι τ μ : Type*) where
  board : τ → Option μ
  broken : Bool
  subs : ι → Option (Subscription τ)

/-- What can be seen of the service. -/
inductive Event (ι τ μ : Type*) where
  | subscribed (i : ι) (topics : List τ)
  | cancelled (i : ι)
  | published
  | delivered (i : ι) (topic : τ) (item : μ)
  | failed (i : ι)
  /-- The subscriber has been told that its subscription is over. -/
  | left (i : ι)

namespace Subscription

/-- A new subscription. -/
def fresh (topics : List τ) : Subscription τ :=
  ⟨topics, true, 0, none, false⟩

/-- A publication is one more round that an active subscription is owed. -/
def notify (sub : Subscription τ) : Subscription τ :=
  if sub.active then { sub with owed := sub.owed + 1 } else sub

theorem notify_active {sub : Subscription τ} (h : sub.active = true) :
    sub.notify = { sub with owed := sub.owed + 1 } :=
  if_pos h

theorem notify_inactive {sub : Subscription τ} (h : sub.active = false) : sub.notify = sub :=
  if_neg (by simp [h])

end Subscription

namespace Service

/-- A service with nobody subscribed. -/
def init (board : τ → Option μ) : Service ι τ μ :=
  ⟨board, false, fun _ => none⟩

/-- Nobody is in a round. -/
def Idle (s : Service ι τ μ) : Prop :=
  ∀ i sub, s.subs i = some sub → sub.round = none

variable [DecidableEq ι]

/-- Replace one subscription. -/
def put (s : Service ι τ μ) (i : ι) (sub : Subscription τ) : Service ι τ μ :=
  { s with subs := Function.update s.subs i (some sub) }

@[simp] theorem subs_put_self (s : Service ι τ μ) (i : ι) (sub : Subscription τ) :
    (s.put i sub).subs i = some sub :=
  Function.update_self ..

@[simp] theorem put_put (s : Service ι τ μ) (i : ι) (sub sub' : Subscription τ) :
    (s.put i sub).put i sub' = s.put i sub' :=
  congrArg (Service.mk s.board s.broken) (Function.update_idem ..)

/-- The steps of the service. -/
inductive Step (s : Service ι τ μ) : List (Event ι τ μ) → Service ι τ μ → Prop where
  | subscribe (i : ι) (topics : List τ) (hnew : s.subs i = none) :
      Step s [.subscribed i topics] (s.put i (.fresh topics))
  | cancel (i : ι) (sub : Subscription τ) (hat : s.subs i = some sub) :
      Step s [.cancelled i] (s.put i { sub with active := false })
  | revise (board : τ → Option μ) (hidle : s.Idle)
      (hsame : ∀ topic, (board topic).isSome = (s.board topic).isSome) :
      Step s [] { s with board := board }
  | breakDown (hidle : s.Idle) : Step s [] { s with broken := true }
  | publish : Step s [.published] { s with subs := fun i => (s.subs i).map .notify }
  | openRound (i : ι) (sub : Subscription τ) (count : ℕ) (hat : s.subs i = some sub)
      (howed : sub.owed = count + 1) (hround : sub.round = none) (hcalm : sub.failed = false)
      (hsound : s.broken = false) :
      Step s [] (s.put i { sub with owed := count, round := some sub.topics })
  | deliver (i : ι) (sub : Subscription τ) (topic : τ) (rest : List τ) (item : μ)
      (hat : s.subs i = some sub) (hround : sub.round = some (topic :: rest))
      (hitem : s.board topic = some item) :
      Step s [.delivered i topic item] (s.put i { sub with round := some rest })
  | pass (i : ι) (sub : Subscription τ) (topic : τ) (rest : List τ) (hat : s.subs i = some sub)
      (hround : sub.round = some (topic :: rest)) (hnone : s.board topic = none) :
      Step s [] (s.put i { sub with round := some rest })
  | closeRound (i : ι) (sub : Subscription τ) (hat : s.subs i = some sub)
      (hround : sub.round = some []) : Step s [] (s.put i { sub with round := none })
  | fail (i : ι) (sub : Subscription τ) (rest : List τ) (hat : s.subs i = some sub)
      (hround : sub.round = some rest) :
      Step s [.failed i] (s.put i { sub with round := none, failed := true })
  | leave (i : ι) (sub : Subscription τ) (hat : s.subs i = some sub)
      (hactive : sub.active = false) (hround : sub.round = none)
      (hdone : sub.failed = true ∨ s.broken = true ∨ sub.owed = 0) : Step s [.left i] s

end Service

/-! ## What a trace says of one subscription -/

section Trace

variable [DecidableEq ι]

/-- Whether the subscription is active, and how many publications there were in its time. -/
def follow (i : ι) (seen : Bool × ℕ) : Event ι τ μ → Bool × ℕ
  | .subscribed j _ => if j = i then (true, seen.2) else seen
  | .cancelled j => if j = i then (false, seen.2) else seen
  | .published => if seen.1 then (true, seen.2 + 1) else seen
  | _ => seen

def followed (i : ι) (trace : List (Event ι τ μ)) : Bool × ℕ :=
  trace.foldl (follow i) (false, 0)

/-- The publications in the time of the subscription. -/
def publications (i : ι) (trace : List (Event ι τ μ)) : ℕ :=
  (followed i trace).2

/-- The topics of the items that the subscriber has got, in order. -/
def topicsDelivered (i : ι) (trace : List (Event ι τ μ)) : List τ :=
  trace.filterMap fun
    | .delivered j topic _ => if j = i then some topic else none
    | _ => none

/-- The topics over and over. -/
def courses (count : ℕ) (topics : List τ) : List τ :=
  (List.replicate count topics).flatten

theorem courses_succ (count : ℕ) (topics : List τ) :
    courses (count + 1) topics = courses count topics ++ topics := by
  simp [courses, List.replicate_succ']

theorem courses_succ' (count : ℕ) (topics : List τ) :
    courses (count + 1) topics = topics ++ courses count topics := by
  simp [courses, List.replicate_succ]

variable {i : ι} {trace : List (Event ι τ μ)} {event : Event ι τ μ}

@[simp] theorem followed_concat :
    followed i (trace ++ [event]) = follow i (followed i trace) event := by
  simp [followed]

@[simp] theorem topics_delivered_append {events : List (Event ι τ μ)} :
    topicsDelivered i (trace ++ events) = topicsDelivered i trace ++ topicsDelivered i events :=
  List.filterMap_append

/-- The event is about this subscription alone. -/
def Event.Concerns (i : ι) : Event ι τ μ → Prop
  | .subscribed j _ | .cancelled j | .delivered j _ _ | .failed j | .left j => j = i
  | .published => False

/-- The trace and the state of one subscription agree; `known` says which topics the board has. -/
structure Account (known : τ → Bool) (broken : Bool) (i : ι) (trace : List (Event ι τ μ))
    (sub : Subscription τ) : Prop where
  active : (followed i trace).1 = sub.active
  topics : ∀ topics, .subscribed i topics ∈ trace → topics = sub.topics
  failed : sub.failed = true ↔ .failed i ∈ trace
  outside : sub.failed = true → sub.round = none
  started : topicsDelivered i trace <+:
    courses (publications i trace) (sub.topics.filter known)
  balance : sub.failed = false →
    topicsDelivered i trace ++ (sub.round.getD []).filter known ++
      courses sub.owed (sub.topics.filter known) =
    courses (publications i trace) (sub.topics.filter known)
  left : .left i ∈ trace → sub.active = false ∧ sub.round = none ∧
    (sub.failed = true ∨ broken = true ∨ sub.owed = 0)

/-- The trace and the subscription agree, or there is none and the trace does not know it. -/
def Book (known : τ → Bool) (broken : Bool) (i : ι) (trace : List (Event ι τ μ)) :
    Option (Subscription τ) → Prop
  | none => followed i trace = (false, 0) ∧ ∀ event ∈ trace, ¬ event.Concerns i
  | some sub => Account known broken i trace sub

variable {known : τ → Bool} {broken : Bool} {sub : Subscription τ}

theorem follow_other (hother : ¬ event.Concerns i) (hevent : event ≠ .published)
    (seen : Bool × ℕ) : follow i seen event = seen := by
  cases event <;> simp_all [follow, Event.Concerns]

theorem topics_delivered_other (hother : ¬ event.Concerns i) :
    topicsDelivered i [event] = [] := by
  cases event <;> simp_all [topicsDelivered, Event.Concerns]

/-- An event of another subscription changes nothing. -/
theorem Account.other (h : Account known broken i trace sub) (hother : ¬ event.Concerns i)
    (hevent : event ≠ .published) : Account known broken i (trace ++ [event]) sub := by
  have hold : ∀ seen : Event ι τ μ, seen.Concerns i →
      (seen ∈ trace ++ [event] ↔ seen ∈ trace) := by
    intro seen hseen
    have hne : seen ≠ event := by
      rintro rfl
      exact hother hseen
    simp [hne]
  have hfollowed : followed i (trace ++ [event]) = followed i trace := by
    rw [followed_concat, follow_other hother hevent]
  have htopics : topicsDelivered i (trace ++ [event]) = topicsDelivered i trace := by
    rw [topics_delivered_append, topics_delivered_other hother, List.append_nil]
  refine ⟨?active, ?topics, ?failed, h.outside, ?started, ?balance, ?left⟩
  case active => rw [hfollowed, h.active]
  case topics =>
    exact fun topics hmem => h.topics topics ((hold (.subscribed i topics) rfl).mp hmem)
  case failed => rw [h.failed, hold (.failed i) rfl]
  case started =>
    rw [htopics, publications, hfollowed]
    exact h.started
  case balance =>
    rw [htopics, publications, hfollowed]
    exact h.balance
  case left => exact fun hmem => h.left ((hold (.left i) rfl).mp hmem)

/-- Every publication reaches an active subscription. -/
theorem Account.notify (h : Account known broken i trace sub) :
    Account known broken i (trace ++ [.published]) sub.notify := by
  have hactive := h.active
  have hdelivered : topicsDelivered i (trace ++ [.published]) = topicsDelivered i trace := by
    rw [topics_delivered_append]
    exact List.append_nil _
  cases hat : sub.active with
  | false =>
      rw [Subscription.notify_inactive hat]
      have hfollowed : followed i (trace ++ [.published]) = followed i trace := by
        rw [followed_concat, follow, hactive, hat]
        rfl
      refine ⟨?active, ?topics, ?failed, h.outside, ?started, ?balance, ?left⟩
      case active => rw [hfollowed, hactive]
      case topics => exact fun topics hmem => h.topics topics (by simpa using hmem)
      case failed => simpa using h.failed
      case started =>
        rw [hdelivered, publications, hfollowed]
        exact h.started
      case balance =>
        rw [hdelivered, publications, hfollowed]
        exact h.balance
      case left => exact fun hmem => h.left (by simpa using hmem)
  | true =>
      rw [Subscription.notify_active hat]
      have hcount : publications i (trace ++ [.published]) = publications i trace + 1 := by
        rw [publications, followed_concat, follow, hactive, hat]
        rfl
      refine ⟨?active, ?topics, ?failed, h.outside, ?started, ?balance, ?left⟩
      case active =>
        rw [followed_concat, follow, hactive, hat]
        rfl
      case topics => exact fun topics hmem => h.topics topics (by simpa using hmem)
      case failed => simpa using h.failed
      case started =>
        rw [hdelivered, hcount, courses_succ]
        exact h.started.trans (List.prefix_append _ _)
      case balance =>
        intro hcalm
        rw [hdelivered, hcount, courses_succ, courses_succ, ← List.append_assoc, h.balance hcalm]
      case left =>
        intro hmem
        have hleft := (h.left (by simpa using hmem)).1
        rw [hat] at hleft
        cases hleft

/-- A subscription is cancelled. -/
theorem Account.cancel (h : Account known broken i trace sub) :
    Account known broken i (trace ++ [.cancelled i]) { sub with active := false } where
  active := by simp [follow]
  topics topics hmem := h.topics topics (by simpa using hmem)
  failed := by simpa using h.failed
  outside := h.outside
  started := by simpa [publications, follow, topicsDelivered] using h.started
  balance := by simpa [publications, follow, topicsDelivered] using h.balance
  left hmem := ⟨rfl, (h.left (by simpa using hmem)).2⟩

/-- A new subscription. -/
theorem account_fresh (hnone : followed i trace = (false, 0))
    (huntouched : ∀ event ∈ trace, ¬ event.Concerns i) (topics : List τ) :
    Account known broken i (trace ++ [.subscribed i topics]) (.fresh topics) := by
  have hnever : ∀ event : Event ι τ μ, event.Concerns i → event ∉ trace := fun event hi hmem =>
    huntouched event hmem hi
  have hdelivered : topicsDelivered i (trace ++ [.subscribed i topics]) = [] := by
    rw [topics_delivered_append]
    refine List.append_eq_nil_iff.mpr ⟨List.filterMap_eq_nil_iff.mpr fun event hmem => ?_, rfl⟩
    have hother := huntouched event hmem
    cases event <;> simp_all [Event.Concerns]
  have hcount : publications i (trace ++ [.subscribed i topics]) = 0 := by
    simp [publications, follow, hnone]
  refine ⟨by simp [follow, Subscription.fresh], fun topics' hmem => ?_, ?_, fun _ => rfl, ?_,
    fun _ => ?_, fun hmem => ?_⟩
  · rcases List.mem_append.mp hmem with hmem | hmem
    · exact absurd hmem (hnever _ rfl)
    · cases List.mem_singleton.mp hmem
      rfl
  · simpa [Subscription.fresh] using hnever (.failed i) rfl
  · rw [hdelivered]
    exact List.nil_prefix
  · rw [hdelivered, hcount]
    rfl
  · exact absurd (by simpa using hmem) (hnever (.left i) rfl)

/-- Whoever is in a round has not broken off, and has not been told that it is over. -/
theorem Account.in_round (h : Account known broken i trace sub) (hround : sub.round ≠ none) :
    sub.failed = false ∧ .left i ∉ trace := by
  refine ⟨?_, fun hmem => hround (h.left hmem).2.1⟩
  by_contra hfailed
  exact hround (h.outside (by simpa using hfailed))

/-- A step into a round, inside it or out of it. -/
theorem Account.proceed (h : Account known broken i trace sub) (hcalm : sub.failed = false)
    (hstays : .left i ∉ trace) {events : List (Event ι τ μ)} {owed : ℕ} {round : Option (List τ)}
    (hevents : events = [] ∨ ∃ topic item, events = [.delivered i topic item])
    (hsame : topicsDelivered i events ++ ((round.getD []).filter known ++
        courses owed (sub.topics.filter known)) =
      (sub.round.getD []).filter known ++ courses sub.owed (sub.topics.filter known)) :
    Account known broken i (trace ++ events) { sub with owed := owed, round := round } := by
  have hfollowed : followed i (trace ++ events) = followed i trace := by
    rcases hevents with rfl | ⟨topic, item, rfl⟩
    · rw [List.append_nil]
    · rw [followed_concat, follow]
      all_goals simp
  have hold : ∀ event, (∀ topic item, event ≠ .delivered i topic item) →
      (event ∈ trace ++ events ↔ event ∈ trace) := by
    intro event hne
    rcases hevents with rfl | ⟨topic, item, rfl⟩
    · rw [List.append_nil]
    · simp [hne topic item]
  have hbalance : topicsDelivered i (trace ++ events) ++ (round.getD []).filter known ++
      courses owed (sub.topics.filter known) =
        courses (publications i (trace ++ events)) (sub.topics.filter known) := by
    rw [topics_delivered_append, publications, hfollowed, List.append_assoc, List.append_assoc,
      hsame, ← List.append_assoc]
    exact h.balance hcalm
  refine ⟨?active, ?topics, ?failed, ?outside, ?started, fun _ => hbalance, ?left⟩
  case active => rw [hfollowed, h.active]
  case topics => exact fun topics hmem => h.topics topics ((hold _ (by simp)).mp hmem)
  case failed => rw [hold _ (by simp), h.failed]
  case outside =>
    intro hfailed
    rw [hcalm] at hfailed
    cases hfailed
  case started => exact ⟨_, (List.append_assoc ..).symm.trans hbalance⟩
  case left => exact fun hmem => absurd ((hold _ (by simp)).mp hmem) hstays

/-- A subscriber breaks off. -/
theorem Account.fail (h : Account known broken i trace sub) (hround : sub.round ≠ none) :
    Account known broken i (trace ++ [.failed i]) { sub with round := none, failed := true } where
  active := by simpa [follow] using h.active
  topics topics hmem := h.topics topics (by simpa using hmem)
  failed := by simp
  outside _ := rfl
  started := by simpa [publications, follow, topicsDelivered] using h.started
  balance := nofun
  left hmem := absurd (h.left (by simpa using hmem)).2.1 hround

/-- A subscriber is told that its subscription is over. -/
theorem Account.leave (h : Account known broken i trace sub) (hactive : sub.active = false)
    (hround : sub.round = none) (hdone : sub.failed = true ∨ broken = true ∨ sub.owed = 0) :
    Account known broken i (trace ++ [.left i]) sub where
  active := by simpa [follow] using h.active
  topics topics hmem := h.topics topics (by simpa using hmem)
  failed := by simpa using h.failed
  outside := h.outside
  started := by simpa [publications, follow, topicsDelivered] using h.started
  balance := by simpa [publications, follow, topicsDelivered] using h.balance
  left _ := ⟨hactive, hround, hdone⟩

/-! ## What a subscriber can count on -/

/-- The trace agrees with every subscription, and the board has the topics that it had. -/
structure Books (known : τ → Bool) (trace : List (Event ι τ μ)) (s : Service ι τ μ) : Prop where
  board : ∀ topic, (s.board topic).isSome = known topic
  book : ∀ i, Book known s.broken i trace (s.subs i)

variable {s t : Service ι τ μ} {events : List (Event ι τ μ)}

theorem Books.account (h : Books known trace s) (hat : s.subs i = some sub) :
    Account known s.broken i trace sub := by
  have hbook := h.book i
  rw [hat] at hbook
  exact hbook

/-- A step changes one subscription and shows events of it. -/
theorem Books.put (h : Books known trace s) (hother : ∀ j, j ≠ i →
      Book known s.broken j trace (s.subs j) → Book known s.broken j (trace ++ events) (s.subs j))
    (hself : Account known s.broken i (trace ++ events) sub) :
    Books known (trace ++ events) (s.put i sub) where
  board := h.board
  book j := by
    show Book known s.broken j (trace ++ events) (Function.update s.subs i (some sub) j)
    by_cases hj : j = i
    · subst hj
      rw [Function.update_self]
      exact hself
    · rw [Function.update_of_ne hj]
      exact hother j hj (h.book j)

theorem Book.other {entry : Option (Subscription τ)} (h : Book known broken i trace entry)
    (hother : ¬ event.Concerns i) (hevent : event ≠ .published) :
    Book known broken i (trace ++ [event]) entry := by
  cases entry with
  | none =>
      obtain ⟨hfollowed, huntouched⟩ := h
      refine ⟨by rw [followed_concat, follow_other hother hevent, hfollowed], fun seen hmem => ?_⟩
      rcases List.mem_append.mp hmem with hmem | hmem
      · exact huntouched seen hmem
      · rw [List.mem_singleton.mp hmem]
        exact hother
  | some sub => exact Account.other h hother hevent

theorem Books.step (h : Books known trace s) (hstep : s.Step events t) :
    Books known (trace ++ events) t := by
  have hsilent : ∀ {i j : ι}, j ≠ i → Book known s.broken j trace (s.subs j) →
      Book known s.broken j (trace ++ []) (s.subs j) := fun _ hbook => by simpa using hbook
  cases hstep with
  | subscribe i topics hnew =>
      have hbook := h.book i
      rw [hnew] at hbook
      exact h.put (fun j hj hbook => hbook.other (Ne.symm hj) (by simp))
        (account_fresh hbook.1 hbook.2 topics)
  | cancel i sub hat =>
      exact h.put (fun j hj hbook => hbook.other (Ne.symm hj) (by simp)) (h.account hat).cancel
  | revise board hidle hsame =>
      exact ⟨fun topic => (hsame topic).trans (h.board topic), fun i => by simpa using h.book i⟩
  | breakDown =>
      refine ⟨h.board, fun i => ?_⟩
      have hbook := h.book i
      rw [List.append_nil]
      show Book known true i trace (s.subs i)
      cases hat : s.subs i with
      | none =>
          rw [hat] at hbook
          exact hbook
      | some sub =>
          rw [hat] at hbook
          exact { hbook with left := fun hmem =>
            ⟨(hbook.left hmem).1, (hbook.left hmem).2.1, .inr (.inl rfl)⟩ }
  | publish =>
      refine ⟨h.board, fun i => ?_⟩
      have hbook := h.book i
      show Book known s.broken i (trace ++ [.published]) ((s.subs i).map .notify)
      cases hat : s.subs i with
      | none =>
          rw [hat] at hbook
          refine ⟨by rw [followed_concat, hbook.1]; rfl, fun event hmem => ?_⟩
          rcases List.mem_append.mp hmem with hmem | hmem
          · exact hbook.2 event hmem
          · rw [List.mem_singleton.mp hmem]
            exact id
      | some sub => exact (h.account hat).notify
  | openRound i sub count hat howed hround hcalm hsound =>
      have haccount := h.account hat
      refine h.put (fun j => hsilent) (haccount.proceed hcalm (fun hmem => ?_) (.inl rfl) ?_)
      · rcases (haccount.left hmem).2.2 with hfailed | hbroken | hnone
        · rw [hcalm] at hfailed
          cases hfailed
        · rw [hsound] at hbroken
          cases hbroken
        · omega
      · rw [hround, howed, courses_succ']
        rfl
  | deliver i sub topic rest item hat hround hitem =>
      have haccount := h.account hat
      have hknown : known topic = true := by rw [← h.board, hitem]; rfl
      obtain ⟨hcalm, hstays⟩ := haccount.in_round (by simp [hround])
      exact h.put (fun j hj hbook => hbook.other (Ne.symm hj) (by simp))
        (haccount.proceed hcalm hstays (.inr ⟨topic, item, rfl⟩)
          (by simp [hround, topicsDelivered, hknown]))
  | pass i sub topic rest hat hround hnone =>
      have haccount := h.account hat
      have hunknown : known topic = false := by rw [← h.board, hnone]; rfl
      obtain ⟨hcalm, hstays⟩ := haccount.in_round (by simp [hround])
      exact h.put (fun j => hsilent) (haccount.proceed hcalm hstays (.inl rfl)
        (by simp [hround, topicsDelivered, hunknown]))
  | closeRound i sub hat hround =>
      have haccount := h.account hat
      obtain ⟨hcalm, hstays⟩ := haccount.in_round (by simp [hround])
      exact h.put (fun j => hsilent) (haccount.proceed hcalm hstays (.inl rfl)
        (by simp [hround, topicsDelivered]))
  | fail i sub rest hat hround =>
      exact h.put (fun j hj hbook => hbook.other (Ne.symm hj) (by simp))
        ((h.account hat).fail (by simp [hround]))
  | leave i sub hat hactive hround hdone =>
      refine ⟨h.board, fun j => ?_⟩
      by_cases hj : j = i
      · subst hj
        rw [hat]
        exact (h.account hat).leave hactive hround hdone
      · exact (h.book j).other (Ne.symm hj) (by simp)

theorem Books.observes {board : τ → Option μ}
    (h : Observes Service.Step (Service.init board) trace s) :
    Books (fun topic => (board topic).isSome) trace s :=
  h.invariant (Books fun topic => (board topic).isSome)
    ⟨fun _ => rfl, fun _ => ⟨rfl, by simp⟩⟩ fun hbooks hstep => hbooks.step hstep

/-- A subscriber gets the topics that the board knows, in the order of its list, over and over, at
most once for each publication in the time of its subscription; when it is told that its
subscription is over, it has got all of them, unless it has broken off or the service is broken. -/
theorem topics_delivered {board : τ → Option μ} {topics : List τ}
    (h : Observes Service.Step (Service.init board) trace s) (hmem : .subscribed i topics ∈ trace) :
    topicsDelivered i trace <+:
      courses (publications i trace) (topics.filter fun topic => (board topic).isSome) ∧
    (.left i ∈ trace → .failed i ∉ trace → s.broken = false → topicsDelivered i trace =
      courses (publications i trace) (topics.filter fun topic => (board topic).isSome)) := by
  have hbook := (Books.observes h).book i
  cases hat : s.subs i with
  | none =>
      rw [hat] at hbook
      exact absurd rfl (hbook.2 _ hmem)
  | some sub =>
      have haccount := (Books.observes h).account hat
      obtain rfl := haccount.topics topics hmem
      refine ⟨haccount.started, fun hleft hcalm hsound => ?_⟩
      have hfailed : sub.failed = false := by
        by_contra hfailed
        exact hcalm (haccount.failed.mp (by simpa using hfailed))
      obtain ⟨-, hround, hdone⟩ := haccount.left hleft
      have howed : sub.owed = 0 := by
        rcases hdone with hdone | hdone | hdone
        · rw [hfailed] at hdone
          cases hdone
        · rw [hsound] at hdone
          cases hdone
        · exact hdone
      have hbalance := haccount.balance hfailed
      rw [hround, howed] at hbalance
      simpa [courses] using hbalance

end Trace

end QuoteStreamer.PubSub
