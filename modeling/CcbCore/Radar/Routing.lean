import CcbCore.Library.Selection
import CcbCore.Radar.Registry

/-!
# Routing, the queue and the duplicate window

`src/radar/routing.py`. The router finds the nodes an envelope goes to; it returns for
every checked envelope and a sound registry (`route_ok`). The queue holds at most
`max_size` envelopes, of which it gives out one of the lowest priority number and among
these the oldest; a full queue takes an envelope of priority zero by giving up its last
one. The window answers whether a key was accepted a short time ago.
-/

namespace CcbCore.Radar

open CcbCore.CodePoints CcbCore.Raising CcbCore.Selection

variable {Opaque : Type}

/-! ### The router -/

structure RouteDecision where
  recipients : List Str
  priority : ℤ
  authorityRef : Option Str

/-- The identities of an audience, without the names the registry does not know. -/
def resolveAudience (unicode : Casefold) (r : IdentityRegistry) (audience : List Str) : List Str :=
  (audience.filterMap fun name => (r.resolveIdentityId unicode (.str name : Value Empty)).toOption).eraseDups

/-- `Router.route`. -/
def route (unicode : Casefold) (r : IdentityRegistry) (envelope : RadarEnvelope Opaque) (nowMs : ℤ) :
    Except Raised RouteDecision :=
  if nowMs < 0 then .error (.valueError "INVALID_ROUTE_TIME")
  else do
    let identityIds := if envelope.audience = [] then none else some (resolveAudience unicode r envelope.audience)
    let recipients ← r.routableSubscriberNodeIds unicode (.str envelope.domain : Value Empty) (.str envelope.intent)
      (.int envelope.priority) (.int nowMs) identityIds
    return ⟨recipients, envelope.priority, envelope.authorityRef⟩

/-- Routing a checked envelope returns. -/
theorem route_ok {unicode : Casefold} {r : IdentityRegistry} (hr : r.Sound unicode) {envelope : RadarEnvelope Opaque}
    (henvelope : envelope.Valid) {nowMs : ℤ} (hnow : 0 ≤ nowMs) : ∃ decision, route unicode r envelope nowMs = .ok decision := by
  have hids : ∀ ids ∈ if envelope.audience = [] then none else some (resolveAudience unicode r envelope.audience),
      ∀ id ∈ ids, (r.identities.lookup id).isSome := by
    intro ids hids id hid
    split at hids
    · cases hids
    · obtain rfl := Option.some.inj hids
      rw [resolveAudience, List.mem_eraseDups, List.mem_filterMap] at hid
      obtain ⟨name, -, hname⟩ := hid
      cases hresolve : r.resolveIdentityId unicode (.str name : Value Empty) with
      | error e => simp [hresolve, Except.toOption] at hname
      | ok canonical =>
        rw [hresolve, Except.toOption, Option.some.injEq] at hname
        exact hname ▸ resolved_of_resolveIdentityId hr hresolve
  obtain ⟨recipients, hrecipients⟩ := routableSubscriberNodeIds_ok Empty hr henvelope.domain henvelope.intent
    henvelope.priority hnow hids
  refine ⟨⟨recipients, envelope.priority, envelope.authorityRef⟩, ?_⟩
  rw [route, if_neg (not_lt.mpr hnow)]
  exact except_bind_ok.mpr ⟨recipients, hrecipients, rfl⟩

/-! ### The queue -/

/-- What the heap holds: an envelope under its priority and the number of its arrival. -/
structure QueueItem (Opaque : Type) where
  priority : ℤ
  counter : ℕ
  envelope : RadarEnvelope Opaque

/-- `(priority, counter)` of an item is not after that of another. -/
def QueueItem.le (a b : QueueItem Opaque) : Bool :=
  a.priority < b.priority || (a.priority = b.priority && a.counter ≤ b.counter)

/-- `(priority, counter)` of an item is not before that of another. -/
def QueueItem.ge (a b : QueueItem Opaque) : Bool := b.le a

structure PriorityQueue (Opaque : Type) where
  maxSize : ℕ
  positive : 0 < maxSize
  counter : ℕ
  heap : List (QueueItem Opaque)

namespace PriorityQueue

variable (q : PriorityQueue Opaque)

/-- The number of the next arrival is taken, also by a push that raises. -/
def count : PriorityQueue Opaque := { q with counter := q.counter + 1 }

/-- The item of an envelope that arrives. -/
def arrival (envelope : RadarEnvelope Opaque) : QueueItem Opaque := ⟨envelope.priority, q.counter, envelope⟩

/-- `push`: the envelope that was displaced, if any. -/
def push (envelope : RadarEnvelope Opaque) : Except Raised (Option (RadarEnvelope Opaque)) × PriorityQueue Opaque :=
  if q.maxSize ≤ q.heap.length then
    if envelope.priority ≠ 0 then (.error (.overflowError "RADAR_QUEUE_FULL"), q.count)
    else
      match takeLeast QueueItem.ge q.heap with
      | none => (.error (.valueError "max() arg is an empty sequence"), q.count)
      | some (victim, others) =>
        if victim.priority = 0 then (.error (.overflowError "RADAR_QUEUE_FULL"), q.count)
        else (.ok (some victim.envelope), { q.count with heap := q.arrival envelope :: others })
  else (.ok none, { q.count with heap := q.arrival envelope :: q.heap })

/-- `pop`. -/
def pop : Except Raised (RadarEnvelope Opaque × PriorityQueue Opaque) :=
  match takeLeast QueueItem.le q.heap with
  | none => .error (.indexError "RADAR_QUEUE_EMPTY")
  | some (item, others) => .ok (item.envelope, { q with heap := others })

end PriorityQueue

/-! ### The duplicate window -/

structure DedupeWindow where
  windowMs : ℤ
  nonneg : 0 ≤ windowMs
  /-- `_seen`, the oldest first. -/
  seen : List (Str × ℤ)
  lastNowMs : Option ℤ

namespace DedupeWindow

variable (w : DedupeWindow)

/-- A key was accepted no longer than the window ago. -/
def Suppresses (key : Str) (nowMs : ℤ) : Prop := ∃ previous ∈ w.seen.lookup key, nowMs - previous ≤ w.windowMs

instance (key : Str) (nowMs : ℤ) : Decidable (w.Suppresses key nowMs) :=
  inferInstanceAs (Decidable (∃ previous ∈ w.seen.lookup key, _))

/-- The entries after a key was accepted: it is the newest, and the oldest ones go. -/
def record (key : Str) (nowMs : ℤ) : List (Str × ℤ) :=
  (w.seen.filter (·.1 ≠ key) ++ [(key, nowMs)]).dropWhile fun entry =>
    entry.2 < nowMs - w.windowMs && entry.1 ≠ key

/-- `accept`. -/
def accept (key : Str) (nowMs : ℤ) : Except Raised (Bool × DedupeWindow) :=
  if key = [] then .error (.valueError "INVALID_DEDUPE_KEY")
  else if nowMs < 0 then .error (.valueError "INVALID_DEDUPE_TIME")
  else if ∃ last ∈ w.lastNowMs, nowMs < last then .error (.valueError "DEDUPE_CLOCK_REGRESSION")
  else if w.Suppresses key nowMs then .ok (false, { w with lastNowMs := some nowMs })
  else .ok (true, { w with lastNowMs := some nowMs, seen := w.record key nowMs })

/-- `rollback_accept`. -/
def rollbackAccept (key : Str) (acceptedAtMs : ℤ) : Except Raised (Bool × DedupeWindow) :=
  if key = [] then .error (.valueError "INVALID_DEDUPE_KEY")
  else if acceptedAtMs < 0 then .error (.valueError "INVALID_DEDUPE_TIME")
  else if w.seen.lookup key ≠ some acceptedAtMs then .ok (false, w)
  else .ok (true, { w with seen := w.seen.filter (·.1 ≠ key) })

end DedupeWindow

end CcbCore.Radar
