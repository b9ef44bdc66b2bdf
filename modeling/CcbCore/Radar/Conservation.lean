import CcbCore.Radar.Runtime
import Mathlib.Algebra.Order.Group.Multiset
import Mathlib.Tactic.Abel

/-!
# Every envelope is accounted for

Between calls a runtime is `Good`: its queue holds checked envelopes, none of them of
priority zero, and what was accepted is what is queued, resolved or evicted. So a push of
priority zero always finds a victim when the queue is full, the pop that follows gives
back the envelope just pushed, and routing it returns. `runtime_conservation` and
`priority_zero_never_waits` read this off the runs.
-/

namespace CcbCore.Radar

open CcbCore.CodePoints CcbCore.Postgres CcbCore.Selection
open CcbCore.Python (Bytes)

variable {Opaque : Type} {py : Interpreter Opaque} {s s' : Runtime Opaque} {envelope : RadarEnvelope Opaque} {nowMs : ℤ}

/-! ### The stores -/

theorem TelemetryStore.total_increment (store : TelemetryStore) (counter : Counter) :
    (store.increment counter).total = store.total + 1 := by
  cases counter <;> simp only [TelemetryStore.increment, TelemetryStore.total] <;> omega

/-- What `accept` does: it raises, or it answers whether the key is suppressed. -/
theorem DedupeWindow.accept_cases (w : DedupeWindow) (key : Str) (nowMs : ℤ) :
    (∃ e, w.accept key nowMs = .error e) ∨
    (w.Suppresses key nowMs ∧ w.accept key nowMs = .ok (false, { w with lastNowMs := some nowMs })) ∨
    (key ≠ [] ∧ 0 ≤ nowMs ∧ ¬ w.Suppresses key nowMs ∧
      w.accept key nowMs = .ok (true, { w with lastNowMs := some nowMs, seen := w.record key nowMs })) := by
  unfold DedupeWindow.accept
  by_cases hkey : key = []
  · exact .inl ⟨_, by rw [if_pos hkey]⟩
  by_cases hnow : nowMs < 0
  · exact .inl ⟨_, by rw [if_neg hkey, if_pos hnow]⟩
  by_cases hlast : ∃ last ∈ w.lastNowMs, nowMs < last
  · exact .inl ⟨_, by rw [if_neg hkey, if_neg hnow, if_pos hlast]⟩
  rw [if_neg hkey, if_neg hnow, if_neg hlast]
  by_cases hsup : w.Suppresses key nowMs
  · exact .inr (.inl ⟨hsup, if_pos hsup⟩)
  · exact .inr (.inr ⟨hkey, not_lt.mp hnow, hsup, if_neg hsup⟩)

/-- At a valid time that is not before the last one, `accept` answers. -/
theorem DedupeWindow.accept_ok (w : DedupeWindow) {key : Str} (hkey : key ≠ []) (hnow : 0 ≤ nowMs)
    (hlast : ∀ last ∈ w.lastNowMs, last ≤ nowMs) : ∃ answer, w.accept key nowMs = .ok answer := by
  have hregression : ¬ ∃ last ∈ w.lastNowMs, nowMs < last := fun ⟨last, hmem, hlt⟩ => absurd (hlast last hmem) (not_le.mpr hlt)
  unfold DedupeWindow.accept
  rw [if_neg hkey, if_neg (not_lt.mpr hnow), if_neg hregression]
  split
  · exact ⟨_, rfl⟩
  · exact ⟨_, rfl⟩

theorem dedupeKey_ne_nil (envelope : RadarEnvelope Opaque) : dedupeKey envelope ≠ [] := by
  have hchecked := envelope.idempotencyKey.checked
  simp only [Postgres.isHex, Bool.decide_and, Bool.and_eq_true, decide_eq_true_eq] at hchecked
  rw [dedupeKey, lit, Ne, List.map_eq_nil_iff]
  intro hnil
  simp [hnil] at hchecked

theorem DedupeWindow.rollbackAccept_ok (w : DedupeWindow) {key : Str} (hkey : key ≠ []) (hnow : 0 ≤ nowMs) :
    ∃ undone w', w.rollbackAccept key nowMs = .ok (undone, w') := by
  unfold DedupeWindow.rollbackAccept
  rw [if_neg hkey, if_neg (not_lt.mpr hnow)]
  split
  · exact ⟨_, _, rfl⟩
  · exact ⟨_, _, rfl⟩

/-! ### The queue -/

/-- The envelopes that are queued. -/
def PriorityQueue.envelopes (q : PriorityQueue Opaque) : List (RadarEnvelope Opaque) := q.heap.map (·.envelope)

/-- A queue of checked envelopes that can wait. -/
def PriorityQueue.Waiting (q : PriorityQueue Opaque) : Prop :=
  ∀ item ∈ q.heap, item.priority = item.envelope.priority ∧ item.envelope.Valid ∧ item.priority ≠ 0

namespace PriorityQueue

variable {q q' : PriorityQueue Opaque}

theorem Waiting.pos (hq : q.Waiting) {item : QueueItem Opaque} (h : item ∈ q.heap) : 0 < item.priority := by
  obtain ⟨heq, hvalid, hne⟩ := hq item h
  have := hvalid.priority.1
  rw [minPriority, ← heq] at this
  omega

/-- Pushing an envelope on a queue of others that can wait: a full queue refuses it, unless
it has priority zero, which displaces one. -/
theorem Waiting.push_cases (hq : q.Waiting) (envelope : RadarEnvelope Opaque) :
    (envelope.priority ≠ 0 ∧ q.push envelope = (.error (.overflowError "RADAR_QUEUE_FULL"), q.count)) ∨
    q.push envelope = (.ok none, { q.count with heap := q.arrival envelope :: q.heap }) ∨
    ∃ victim others, q.heap.Perm (victim :: others) ∧ envelope.priority = 0 ∧
      q.push envelope = (.ok (some victim.envelope), { q.count with heap := q.arrival envelope :: others }) := by
  unfold push
  by_cases hfull : q.maxSize ≤ q.heap.length
  · by_cases hpriority : envelope.priority = 0
    · refine .inr (.inr ?_)
      simp only [if_pos hfull, hpriority, ne_eq, not_true_eq_false, if_false]
      cases htake : takeLeast QueueItem.ge q.heap with
      | none =>
        have hpos := q.positive
        rw [takeLeast_eq_none.mp htake, List.length_nil] at hfull
        omega
      | some best =>
        obtain ⟨victim, others⟩ := best
        have hperm := takeLeast_perm htake
        have hvictim : victim.priority ≠ 0 := (hq victim (hperm.mem_iff.mpr (by simp))).2.2
        exact ⟨victim, others, hperm, trivial, by simp only [hvictim, if_false]⟩
    · exact .inl ⟨hpriority, by rw [if_pos hfull, if_pos hpriority]⟩
  · exact .inr (.inl (if_neg hfull))

theorem pop_perm (h : q.pop = .ok (envelope, q')) :
    ∃ item, item.envelope = envelope ∧ q.heap.Perm (item :: q'.heap) := by
  unfold pop at h
  cases htake : takeLeast QueueItem.le q.heap with
  | none => simp [htake] at h
  | some best =>
    obtain ⟨item, others⟩ := best
    rw [htake] at h
    cases h
    exact ⟨item, rfl, takeLeast_perm htake⟩

/-- An item of priority zero is popped before others that can wait. -/
theorem pop_zero {item : QueueItem Opaque} {others : List (QueueItem Opaque)} (hheap : q.heap = item :: others)
    (hzero : item.priority = 0) (hothers : ∀ other ∈ others, 0 < other.priority) :
    q.pop = .ok (item.envelope, { q with heap := others }) := by
  have htake : takeLeast QueueItem.le (item :: others) = some (item, others) := by
    rw [takeLeast]
    cases hrest : takeLeast QueueItem.le others with
    | none => rw [takeLeast_eq_none.mp hrest]
    | some best =>
      have hpos := hothers best.1 ((takeLeast_perm hrest).mem_iff.mpr (by simp))
      have hle : item.le best.1 = true := by simp [QueueItem.le, hzero, hpos]
      simp only [hle, if_true]
  rw [pop, hheap, htake]

end PriorityQueue

/-! ### Between calls -/

/-- What was accepted is what is queued, resolved or evicted. -/
def Runtime.Conserved (s : Runtime Opaque) : Prop :=
  (s.fates.accepted : Multiset (RadarEnvelope Opaque)) = s.queue.envelopes + s.fates.resolved + s.fates.evicted

/-- What holds between calls. -/
structure Runtime.Good (unicode : Casefold) (s : Runtime Opaque) : Prop where
  registry : s.registry.Sound unicode
  waiting : s.queue.Waiting
  conserved : s.Conserved

/-- The counters and the queue have taken `n` more envelopes. -/
def Runtime.Balanced (s s' : Runtime Opaque) (n : ℕ) : Prop :=
  s'.telemetry.total + s'.queue.heap.length = s.telemetry.total + s.queue.heap.length + n

/-- The ids of the envelopes that were accepted. -/
def Runtime.acceptedIds (s : Runtime Opaque) : List Str := s.fates.accepted.map (·.messageId)

/-- The receipt of an envelope that was routed at once. -/
def RuntimeReceipt.Resolves (receipt : RuntimeReceipt) (envelope : RadarEnvelope Opaque) : Prop :=
  (receipt.state = .dispatched ∨ receipt.state = .droppedNoRoute) ∧ receipt.messageId = envelope.messageId

/-- The envelope that an admission's receipt says was accepted. -/
def RuntimeReceipt.acceptedId (receipt : RuntimeReceipt) : Option Str :=
  match receipt.state with
  | .queued | .dispatched | .droppedNoRoute => some receipt.messageId
  | _ => none

theorem RuntimeReceipt.Resolves.acceptedId {receipt : RuntimeReceipt} (h : receipt.Resolves envelope) :
    receipt.acceptedId = some envelope.messageId := by
  obtain ⟨hstate | hstate, hid⟩ := h <;> simp [RuntimeReceipt.acceptedId, hstate, hid]

/-- Dispatching an envelope that is popped returns. -/
theorem dispatchNext_pop (hr : s.registry.Sound py.unicode) (hvalid : envelope.Valid) (hnow : 0 ≤ nowMs)
    {queue : PriorityQueue Opaque} (hpop : s.queue.pop = .ok (envelope, queue)) :
    ∃ receipt counter, receipt.Resolves envelope ∧
      dispatchNext py nowMs s = (.ok receipt, (({ s with queue } : Runtime Opaque).resolve envelope).count counter) := by
  obtain ⟨decision, hroute⟩ := route_ok hr hvalid hnow
  unfold dispatchNext
  simp only [if_neg (not_lt.mpr hnow), hpop, hroute]
  by_cases hnone : decision.recipients = []
  · exact ⟨_, .dropped, ⟨.inr rfl, rfl⟩, by rw [if_pos hnone]⟩
  · exact ⟨_, .routed, ⟨.inl rfl, rfl⟩, by rw [if_neg hnone]⟩

theorem Runtime.displace_spec (s : Runtime Opaque) (evicted : Option (RadarEnvelope Opaque)) :
    (s.displace evicted).registry = s.registry ∧ (s.displace evicted).queue = s.queue ∧
    (s.displace evicted).telemetry.total = s.telemetry.total + evicted.toList.length ∧
    (s.displace evicted).fates.accepted = s.fates.accepted ∧ (s.displace evicted).fates.resolved = s.fates.resolved ∧
    (s.displace evicted).fates.evicted = evicted.toList ++ s.fates.evicted := by
  cases evicted with
  | none => exact ⟨rfl, rfl, rfl, rfl, rfl, rfl⟩
  | some old => exact ⟨rfl, rfl, TelemetryStore.total_increment _ _, rfl, rfl, rfl⟩

/-- What settling an envelope leaves, which was pushed on others: routed, it is resolved and
not queued, and otherwise it is queued. -/
structure Settled (envelope : RadarEnvelope Opaque) (evicted : Option (RadarEnvelope Opaque))
    (others : List (QueueItem Opaque)) (s : Runtime Opaque) (receipt : RuntimeReceipt) (s' : Runtime Opaque) : Prop where
  registry : s'.registry = s.registry
  total : s'.telemetry.total + s'.queue.heap.length = s.telemetry.total + evicted.toList.length + others.length + 1
  accepted : s'.fates.accepted = s.fates.accepted
  evicted : s'.fates.evicted = evicted.toList ++ s.fates.evicted
  fate : (envelope.priority = 0 ∧ receipt.Resolves envelope ∧ s'.queue.heap = others ∧
      s'.fates.resolved = envelope :: s.fates.resolved) ∨
    (envelope.priority ≠ 0 ∧ s'.queue.heap = s.queue.heap ∧ s'.fates.resolved = s.fates.resolved)
  acceptedId : receipt.acceptedId = some envelope.messageId

theorem settle_ok (hr : s.registry.Sound py.unicode) (hvalid : envelope.Valid) (hnow : 0 ≤ nowMs)
    (item : QueueItem Opaque) {others : List (QueueItem Opaque)} (hitem : item.envelope = envelope)
    (hpriority : item.priority = envelope.priority) (hheap : s.queue.heap = item :: others)
    (hothers : ∀ other ∈ others, 0 < other.priority) (evicted : Option (RadarEnvelope Opaque)) :
    ∃ receipt s', settle py envelope nowMs evicted s = (.ok receipt, s') ∧ Settled envelope evicted others s receipt s' := by
  obtain ⟨hregistry, hqueue, htotal, haccepted, hresolved, hevicted⟩ := s.displace_spec evicted
  by_cases hzero : envelope.priority = 0
  · have hpop := PriorityQueue.pop_zero (hqueue ▸ hheap) (hpriority.trans hzero) hothers
    rw [hitem] at hpop
    obtain ⟨receipt, counter, hresolves, hdispatch⟩ := dispatchNext_pop (hregistry ▸ hr) hvalid hnow hpop
    refine ⟨_, _, by simp only [settle, if_pos hzero, hdispatch]; rfl, ?_⟩
    refine ⟨hregistry, ?_, haccepted, hevicted, .inl ⟨hzero, hresolves, rfl, congrArg (envelope :: ·) hresolved⟩,
      hresolves.acceptedId⟩
    change ((s.displace evicted).telemetry.increment counter).total + others.length = _
    rw [TelemetryStore.total_increment, htotal]
    omega
  · refine ⟨_, _, by simp only [settle, if_neg hzero]; rfl, ?_⟩
    refine ⟨hregistry, ?_, haccepted, hevicted, .inr ⟨hzero, by rw [hqueue], hresolved⟩, rfl⟩
    rw [htotal, hqueue, hheap, List.length_cons]
    omega

/-- A settled envelope is accounted for, and nothing else has moved. -/
theorem Settled.good {evicted : Option (RadarEnvelope Opaque)} {others : List (QueueItem Opaque)} {t : Runtime Opaque}
    {receipt : RuntimeReceipt} {item : QueueItem Opaque} (h : Settled envelope evicted others t receipt s')
    (hs : s.Good py.unicode) (hregistry : t.registry = s.registry) (hvalid : envelope.Valid)
    (hitem : item.envelope = envelope) (hpriority : item.priority = envelope.priority)
    (hheap : t.queue.heap = item :: others) (haccepted : t.fates.accepted = envelope :: s.fates.accepted)
    (hresolved : t.fates.resolved = s.fates.resolved) (hevicted : t.fates.evicted = s.fates.evicted)
    (hothers : ∀ other ∈ others, other ∈ s.queue.heap)
    (hperm : (s.queue.envelopes : Multiset (RadarEnvelope Opaque)) = evicted.toList + others.map (·.envelope)) :
    s'.Good py.unicode := by
  refine ⟨by rw [h.registry, hregistry]; exact hs.registry, ?_, ?_⟩
  · intro other hother
    rcases h.fate with ⟨-, -, hqueue, -⟩ | ⟨hne, hqueue, -⟩
    · exact hs.waiting other (hothers other (hqueue ▸ hother))
    · rw [hqueue, hheap] at hother
      rcases List.mem_cons.mp hother with rfl | hother
      · exact ⟨by rw [hpriority, hitem], hitem ▸ hvalid, hpriority ▸ hne⟩
      · exact hs.waiting other (hothers other hother)
  · have hconserved := hs.conserved
    rw [Runtime.Conserved, hperm] at hconserved
    rw [Runtime.Conserved, h.accepted, haccepted, h.evicted, hevicted, ← Multiset.cons_coe, hconserved,
      ← Multiset.coe_add]
    rcases h.fate with ⟨-, -, hqueue, hfate⟩ | ⟨-, hqueue, hfate⟩
    · rw [PriorityQueue.envelopes, hqueue, hfate, hresolved, ← Multiset.cons_coe, ← Multiset.singleton_add,
        ← Multiset.singleton_add]
      abel
    · rw [PriorityQueue.envelopes, hqueue, hheap, hfate, hresolved, List.map_cons, hitem, ← Multiset.cons_coe,
        ← Multiset.singleton_add, ← Multiset.singleton_add]
      abel

/-- Settling an envelope that was pushed on the queue without those it displaced. -/
theorem settle_pushed (hs : s.Good py.unicode) (hvalid : envelope.Valid) (hnow : 0 ≤ nowMs) (dedupe : DedupeWindow)
    (evicted : Option (RadarEnvelope Opaque)) {others : List (QueueItem Opaque)}
    (hothers : ∀ other ∈ others, other ∈ s.queue.heap)
    (hperm : s.queue.envelopes.Perm (evicted.toList ++ others.map (·.envelope))) :
    ∃ receipt s', settle py envelope nowMs evicted (({ s with dedupe } : Runtime Opaque).accept envelope
        { s.queue.count with heap := s.queue.arrival envelope :: others }) = (.ok receipt, s') ∧
      s'.Good py.unicode ∧ s.Balanced s' 1 ∧ s'.acceptedIds = receipt.acceptedId.toList ++ s.acceptedIds ∧
      (envelope.priority = 0 → receipt.Resolves envelope) := by
  obtain ⟨receipt, s', hsettle, hsettled⟩ := settle_ok (s := ({ s with dedupe } : Runtime Opaque).accept envelope
    { s.queue.count with heap := s.queue.arrival envelope :: others }) hs.registry hvalid hnow
    (s.queue.arrival envelope) rfl rfl rfl (fun other hother => hs.waiting.pos (hothers other hother)) evicted
  refine ⟨receipt, s', hsettle, ?_, ?_, ?_, fun hzero => ?_⟩
  · refine hsettled.good hs rfl hvalid rfl rfl rfl rfl rfl rfl hothers ?_
    rw [Multiset.coe_add]
    exact Multiset.coe_eq_coe.mpr hperm
  · have hlength := hperm.length_eq
    rw [PriorityQueue.envelopes, List.length_map, List.length_append, List.length_map] at hlength
    rw [Runtime.Balanced, hsettled.total, hlength]
    change s.telemetry.total + _ + _ + 1 = _
    omega
  · rw [Runtime.acceptedIds, hsettled.accepted, hsettled.acceptedId]
    rfl
  · rcases hsettled.fate with ⟨-, hresolves, -⟩ | ⟨hne, -⟩
    · exact hresolves
    · exact absurd hzero hne

/-- Admitting a checked envelope raises and changes nothing, or it returns, and one more
envelope is accounted for; one of priority zero that is no duplicate is routed at once. -/
theorem admitEnvelope_cases (nowMs : ℤ) (hs : s.Good py.unicode) (hvalid : envelope.Valid) :
    (∃ e, s.dedupe.accept (dedupeKey envelope) nowMs = .error e ∧ admitEnvelope py envelope nowMs s = (.error e, s)) ∨
    ∃ receipt s', admitEnvelope py envelope nowMs s = (.ok receipt, s') ∧ s'.Good py.unicode ∧ s.Balanced s' 1 ∧
      s'.acceptedIds = receipt.acceptedId.toList ++ s.acceptedIds ∧
      (envelope.priority = 0 → ¬ s.dedupe.Suppresses (dedupeKey envelope) nowMs → receipt.Resolves envelope) := by
  rcases s.dedupe.accept_cases (dedupeKey envelope) nowMs with ⟨e, haccept⟩ | ⟨hsup, haccept⟩ | ⟨hkey, hnow, hsup, haccept⟩
  · exact .inl ⟨e, haccept, by simp only [admitEnvelope, haccept]⟩
  · refine .inr ⟨_, _, by simp only [admitEnvelope, haccept]; rfl, ?_⟩
    refine ⟨⟨hs.registry, hs.waiting, hs.conserved⟩, ?_, rfl, fun _ hnot => absurd hsup hnot⟩
    simp only [Runtime.Balanced, Runtime.count, TelemetryStore.total_increment]
    omega
  rcases hs.waiting.push_cases envelope with ⟨hne, hpush⟩ | hpush | ⟨victim, others, hperm, hzero, hpush⟩
  · obtain ⟨undone, w, hrollback⟩ := DedupeWindow.rollbackAccept_ok
      { s.dedupe with lastNowMs := some nowMs, seen := s.dedupe.record (dedupeKey envelope) nowMs } hkey hnow
    refine .inr ⟨_, _, by simp only [admitEnvelope, haccept, hpush, hrollback]; rfl, ?_⟩
    refine ⟨⟨hs.registry, hs.waiting, hs.conserved⟩, ?_, rfl, fun hzero => absurd hzero hne⟩
    simp only [Runtime.Balanced, Runtime.count, TelemetryStore.total_increment, PriorityQueue.count]
    omega
  · obtain ⟨receipt, s', hsettle, hgood, hbalanced, hids, hresolves⟩ := settle_pushed hs hvalid hnow
      { s.dedupe with lastNowMs := some nowMs, seen := s.dedupe.record (dedupeKey envelope) nowMs } none
      (fun _ hother => hother) (.refl _)
    exact .inr ⟨receipt, s', by simp only [admitEnvelope, haccept, hpush, hsettle], hgood, hbalanced, hids,
      fun hzero _ => hresolves hzero⟩
  · obtain ⟨receipt, s', hsettle, hgood, hbalanced, hids, hresolves⟩ := settle_pushed hs hvalid hnow
      { s.dedupe with lastNowMs := some nowMs, seen := s.dedupe.record (dedupeKey envelope) nowMs } (some victim.envelope)
      (fun other hother => hperm.mem_iff.mpr (List.mem_cons_of_mem victim hother)) (hperm.map _)
    exact .inr ⟨receipt, s', by simp only [admitEnvelope, haccept, hpush, hsettle], hgood, hbalanced, hids,
      fun hzero _ => hresolves hzero⟩

/-! ### Calls -/

/-- What a call leaves: when it returned, `n` more envelopes are accounted for, and when it
raised, nothing has changed. -/
def Runtime.Accounts (s : Runtime Opaque) (n : ℕ) (response : Except Raised RuntimeReceipt) (s' : Runtime Opaque) : Prop :=
  match response with
  | .ok _ => s.Balanced s' n
  | .error _ => s' = s

section Admit

variable {raw : Mapping Opaque} {sourceLocator : Option Str} {fresh : Fresh} {result : EnvelopeResult Opaque}

theorem admitRaw_envelope (h : fromMapping py fresh raw = .ok result) (henvelope : result.envelope = some envelope) :
    admitRaw py raw nowMs sourceLocator fresh s = admitEnvelope py envelope nowMs s := by
  rcases fromMapping_cases h with ⟨hnone, -⟩ | ⟨envelope', -, -, hclass | hclass⟩
  · rw [henvelope] at hnone
    cases hnone
  · simp only [admitRaw, h, hclass, henvelope]
  · simp only [admitRaw, h, hclass, henvelope]

theorem admitRaw_rejected (h : fromMapping py fresh raw = .ok result) (hclass : result.classification = .rejected) :
    admitRaw py raw nowMs sourceLocator fresh s =
      (.ok { state := .rejected, messageId := rawMessageId py raw, errors := result.errors }, s.count .dropped) := by
  simp only [admitRaw, h, hclass]

theorem admitRaw_dlq (h : fromMapping py fresh raw = .ok result) (hclass : result.classification = .dlq) :
    (∃ e, admitRaw py raw nowMs sourceLocator fresh s = (.error e, s)) ∨
    ∃ receipt dlq, receipt.state = .dlq ∧
      admitRaw py raw nowMs sourceLocator fresh s = (.ok receipt, ({ s with dlq } : Runtime Opaque).count .dlq) := by
  simp only [admitRaw, h, hclass]
  cases safeDlqEnvelope py raw with
  | error e => exact .inl ⟨e, rfl⟩
  | ok safe =>
    cases hrecord : s.dlq.record py (evidenceOf (rawMessageId py raw) result.errors safe sourceLocator) with
    | error e => exact .inl ⟨e, by simp only [hrecord]⟩
    | ok recorded => exact .inr ⟨_, recorded.2, rfl, by simp only [hrecord]; rfl⟩

theorem admitRaw_accounts (hs : s.Good py.unicode) {response : Except Raised RuntimeReceipt}
    (h : admitRaw py raw nowMs sourceLocator fresh s = (response, s')) :
    s'.Good py.unicode ∧ s.Accounts 1 response s' ∧
      s'.acceptedIds = (response.toOption.bind RuntimeReceipt.acceptedId).toList ++ s.acceptedIds := by
  have hcount (t : Runtime Opaque) (ht : t.telemetry = s.telemetry) (hq : t.queue = s.queue) (counter : Counter) :
      s.Balanced (t.count counter) 1 := by
    simp only [Runtime.Balanced, Runtime.count, TelemetryStore.total_increment, ht, hq]
    omega
  cases hresult : fromMapping py fresh raw with
  | error e =>
    simp only [admitRaw, hresult] at h
    obtain ⟨rfl, rfl⟩ := Prod.mk.inj h
    exact ⟨hs, rfl, rfl⟩
  | ok result =>
    rcases fromMapping_cases hresult with ⟨-, hclass | hclass⟩ | ⟨envelope, henvelope, hvalid, -⟩
    · rcases admitRaw_dlq hresult hclass with ⟨e, hdone⟩ | ⟨receipt, dlq, hstate, hdone⟩
      · obtain ⟨rfl, rfl⟩ := Prod.mk.inj (hdone.symm.trans h)
        exact ⟨hs, rfl, rfl⟩
      · obtain ⟨rfl, rfl⟩ := Prod.mk.inj (hdone.symm.trans h)
        refine ⟨⟨hs.registry, hs.waiting, hs.conserved⟩, hcount _ rfl rfl .dlq, ?_⟩
        simp only [Except.toOption, Option.bind_some, RuntimeReceipt.acceptedId, hstate]
        rfl
    · obtain ⟨rfl, rfl⟩ := Prod.mk.inj ((admitRaw_rejected hresult hclass).symm.trans h)
      exact ⟨⟨hs.registry, hs.waiting, hs.conserved⟩, hcount s rfl rfl .dropped, rfl⟩
    · rw [admitRaw_envelope hresult henvelope] at h
      rcases admitEnvelope_cases nowMs hs hvalid with ⟨e, -, hdone⟩ | ⟨receipt, t, hdone, hgood, hbalanced, hids, -⟩
      · obtain ⟨rfl, rfl⟩ := Prod.mk.inj (hdone.symm.trans h)
        exact ⟨hs, rfl, rfl⟩
      · obtain ⟨rfl, rfl⟩ := Prod.mk.inj (hdone.symm.trans h)
        exact ⟨hgood, hbalanced, hids⟩

end Admit

theorem dispatchNext_accounts (hs : s.Good py.unicode) {response : Except Raised RuntimeReceipt}
    (h : dispatchNext py nowMs s = (response, s')) :
    s'.Good py.unicode ∧ s.Accounts 0 response s' ∧ s'.acceptedIds = s.acceptedIds := by
  by_cases hnow : nowMs < 0
  · rw [dispatchNext, if_pos hnow] at h
    obtain ⟨rfl, rfl⟩ := Prod.mk.inj h
    exact ⟨hs, rfl, rfl⟩
  cases hpop : s.queue.pop with
  | error e =>
    simp only [dispatchNext, if_neg hnow, hpop] at h
    obtain ⟨rfl, rfl⟩ := Prod.mk.inj h
    exact ⟨hs, rfl, rfl⟩
  | ok popped =>
    obtain ⟨envelope, queue⟩ := popped
    obtain ⟨item, rfl, hperm⟩ := PriorityQueue.pop_perm hpop
    have hitem := hs.waiting item (hperm.mem_iff.mpr (by simp))
    obtain ⟨receipt, counter, -, hdispatch⟩ := dispatchNext_pop hs.registry hitem.2.1 (not_lt.mp hnow) hpop
    obtain ⟨rfl, rfl⟩ := Prod.mk.inj (hdispatch.symm.trans h)
    refine ⟨⟨hs.registry, fun other hother => hs.waiting other (hperm.mem_iff.mpr (List.mem_cons_of_mem item hother)), ?_⟩,
      ?_, rfl⟩
    · have hconserved := hs.conserved
      have hqueue : (s.queue.envelopes : Multiset (RadarEnvelope Opaque)) = item.envelope ::ₘ queue.envelopes :=
        Multiset.coe_eq_coe.mpr (hperm.map _)
      rw [Runtime.Conserved, hqueue, ← Multiset.singleton_add] at hconserved
      change (s.fates.accepted : Multiset (RadarEnvelope Opaque)) =
        queue.envelopes + (item.envelope ::ₘ s.fates.resolved) + s.fates.evicted
      rw [hconserved, ← Multiset.singleton_add]
      abel
    · change (s.telemetry.increment counter).total + queue.heap.length = s.telemetry.total + s.queue.heap.length + 0
      rw [TelemetryStore.total_increment, hperm.length_eq, List.length_cons]
      omega

/-! ### Runs -/

/-- The id of the envelope that an event's receipt says was accepted. -/
def Event.acceptedId : Event Opaque → Option Str
  | .admitRaw _ _ _ _ response => response.toOption.bind RuntimeReceipt.acceptedId
  | _ => none

theorem Step.accounts {event : Event Opaque} (h : Step py s event s') (hs : s.Good py.unicode) :
    s'.Good py.unicode ∧ s.Balanced s' (if event.isAdmission = true then 1 else 0) ∧
      s'.acceptedIds = event.acceptedId.toList ++ s.acceptedIds := by
  cases h with
  | @admitRaw _ raw nowMs sourceLocator fresh response hdone =>
    obtain ⟨hgood, haccounts, hids⟩ := admitRaw_accounts hs hdone
    refine ⟨hgood, ?_, hids⟩
    cases response with
    | ok receipt => exact haccounts
    | error e => exact congrArg (fun t : Runtime Opaque => t.telemetry.total + t.queue.heap.length) haccounts
  | @dispatchNext _ nowMs response hdispatch =>
    obtain ⟨hgood, haccounts, hids⟩ := dispatchNext_accounts hs hdispatch
    refine ⟨hgood, ?_, hids⟩
    cases response with
    | ok receipt => exact haccounts
    | error e => exact congrArg (fun t : Runtime Opaque => t.telemetry.total + t.queue.heap.length) haccounts
  | registry call => exact ⟨⟨hs.registry.after call, hs.waiting, hs.conserved⟩, rfl, rfl⟩

variable {telemetry : TelemetryStore} {dlq : DeadLetterStore} {queueSize : ℕ} {hsize : 0 < queueSize}
  {dedupeWindowMs : ℤ} {hwindow : 0 ≤ dedupeWindowMs} {events : List (Event Opaque)}

theorem Runtime.start_good (unicode : Casefold) :
    (Runtime.start telemetry dlq queueSize hsize dedupeWindowMs hwindow : Runtime Opaque).Good unicode := by
  refine ⟨⟨fun key identity h => ?_, fun name canonical h => ?_, fun key node h => ?_⟩, nofun, rfl⟩
  · simp [Runtime.start, IdentityRegistry.empty] at h
  · simp [Runtime.start, IdentityRegistry.empty] at h
  · simp [Runtime.start, IdentityRegistry.empty] at h

theorem run_accounts (h : Run (Step py) (Runtime.start telemetry dlq queueSize hsize dedupeWindowMs hwindow) events s) :
    s.Good py.unicode ∧
      s.telemetry.total + s.queue.heap.length = telemetry.total + events.countP Event.isAdmission ∧
      s.acceptedIds = (events.filterMap Event.acceptedId).reverse := by
  induction h with
  | nil => exact ⟨Runtime.start_good py.unicode, rfl, rfl⟩
  | @snoc events t event u _ hstep ih =>
    obtain ⟨hgood, htotal, hids⟩ := ih
    obtain ⟨hgood', hbalanced, hids'⟩ := hstep.accounts hgood
    refine ⟨hgood', ?_, ?_⟩
    · rw [hbalanced, htotal, List.countP_append, List.countP_singleton]
      omega
    · rw [hids', hids, List.filterMap_append, List.reverse_append]
      cases hid : event.acceptedId <;> simp [hid]

/-- **After every run of a runtime, the envelopes that were accepted are those still queued,
those dispatched or dropped for no route, and those evicted; each admission that returned
is counted once or queued; and a call that raises has changed neither the counters nor
the queue.** -/
theorem runtime_conservation (h : Run (Step py) (Runtime.start telemetry dlq queueSize hsize dedupeWindowMs hwindow) events s) :
    (s.fates.accepted.map (·.messageId) = (events.filterMap Event.acceptedId).reverse ∧
      (s.fates.accepted : Multiset (RadarEnvelope Opaque)) = s.queue.envelopes + s.fates.resolved + s.fates.evicted) ∧
    s.telemetry.routed + s.telemetry.dropped + s.telemetry.dlq + s.queue.heap.length =
      telemetry.routed + telemetry.dropped + telemetry.dlq + events.countP Event.isAdmission ∧
    (∀ raw nowMs sourceLocator fresh e s', admitRaw py raw nowMs sourceLocator fresh s = (.error e, s') →
      s'.telemetry = s.telemetry ∧ s'.queue = s.queue) ∧
    ∀ nowMs e s', dispatchNext py nowMs s = (.error e, s') → s'.telemetry = s.telemetry ∧ s'.queue = s.queue := by
  obtain ⟨hgood, htotal, hids⟩ := run_accounts h
  refine ⟨⟨hids, hgood.conserved⟩, htotal, fun raw nowMs sourceLocator fresh e s' hdone => ?_, fun nowMs e s' hdispatch => ?_⟩
  · obtain ⟨-, hsame, -⟩ := admitRaw_accounts hgood hdone
    exact ⟨congrArg Runtime.telemetry hsame, congrArg Runtime.queue hsame⟩
  · obtain ⟨-, hsame, -⟩ := dispatchNext_accounts hgood hdispatch
    exact ⟨congrArg Runtime.telemetry hsame, congrArg Runtime.queue hsame⟩

/-- The hashes of the texts that the envelope below is hashed to. -/
def sampleSha256 (data : Bytes) : Hex 64 :=
  if data.size = 4 then ⟨"74234e98afe7498fb5daf1f36ac2d78acc339464f950703b8c019892f982b90b", isHex_sampleKey⟩
  else ⟨"d18a65cfa9a9d601291e7334ab35b699d8a467564603999503be3da2d849f449", isHex_sampleContent⟩

/-- An envelope to all nodes, without a payload. -/
def sampleMapping (messageId : String) (priority : ℤ) : Mapping Empty :=
  [(lit "schema_version", .int 1), (lit "message_id", .str (lit messageId)),
    (lit "created_at", .str (lit "2026-09-06T14:30:00Z")), (lit "sender", .str (lit "radar")),
    (lit "audience", .array []), (lit "domain", .str (lit "system")), (lit "intent", .str (lit "event")),
    (lit "priority", .int priority), (lit "payload", .null)]

/-- One of priority zero. -/
def sampleRaw : Mapping Empty := sampleMapping "m-1" 0

def sampleFresh : Fresh := ⟨⟨"0123456789abcdef", by decide +kernel⟩, lit "2026-09-06T14:30:01Z"⟩

/-- A runtime with room for one envelope. -/
def sampleStart : Runtime Empty := Runtime.start ⟨0, 0, 0⟩ ⟨[], 0⟩ 1 one_pos 500 (by decide)

/-- The registrations of a node that listens to the domain. -/
def sampleCalls : List (RegistryCall Empty) :=
  [.registerIdentity (.str (lit "two")) (.str (lit "Two")) [],
    .registerNode (.str (lit "n-2")) (.str (lit "two")) (.str (lit "ONLINE")) (.int 0) (.int 100000),
    .subscribe (.str (lit "n-2")) (.str (lit "system")) .null (.int 4) (.bool true)]

/-- The runtime after some registrations. -/
def Runtime.register (unicode : Casefold) (s : Runtime Opaque) (calls : List (RegistryCall Opaque)) : Runtime Opaque :=
  calls.foldl (fun t call => { t with registry := call.after unicode t.registry }) s

theorem Runtime.run_register (s : Runtime Opaque) (calls : List (RegistryCall Opaque)) :
    Run (Step py) s (calls.map .registry) (s.register py.unicode calls) := by
  induction calls generalizing s with
  | nil => exact .nil
  | cons call calls ih => exact .cons (.registry call) (ih _)

/-- The node is registered, and an envelope that can wait is admitted. -/
def queuedOutcome : Outcome Empty :=
  admitRaw (asciiInterpreter sampleSha256) (sampleMapping "q-1" 3) 1000 none sampleFresh
    (sampleStart.register asciiCasefold sampleCalls)

/-- One of priority zero is admitted to the full queue. -/
def urgentOutcome : Outcome Empty :=
  admitRaw (asciiInterpreter sampleSha256) (sampleMapping "m-0" 0) 2000 none sampleFresh queuedOutcome.2

/-- Another that can wait is admitted. -/
def sampleOutcome : Outcome Empty :=
  admitRaw (asciiInterpreter sampleSha256) (sampleMapping "q-2" 3) 3000 none sampleFresh urgentOutcome.2

def sampleEvents : List (Event Empty) :=
  sampleCalls.map .registry ++ [.admitRaw (sampleMapping "q-1" 3) 1000 none sampleFresh queuedOutcome.1,
    .admitRaw (sampleMapping "m-0" 0) 2000 none sampleFresh urgentOutcome.1,
    .admitRaw (sampleMapping "q-2" 3) 3000 none sampleFresh sampleOutcome.1]

/-- The run, which leaves the queue full. -/
theorem sampleRun : Run (Step (asciiInterpreter sampleSha256)) sampleStart sampleEvents sampleOutcome.2 :=
  (sampleStart.run_register sampleCalls).trans (.cons (.admitRaw rfl) (.cons (.admitRaw rfl) (.single (.admitRaw rfl))))

theorem runtime_conservation_sample :
    queuedOutcome.1 = .ok { state := .queued, messageId := lit "q-1" } ∧
    urgentOutcome.1 =
      .ok { state := .dispatched, messageId := lit "m-0", recipients := [lit "n-2"], evictedMessageId := some (lit "q-1") } ∧
    sampleOutcome.1 = .ok { state := .queued, messageId := lit "q-2" } ∧
    (sampleOutcome.2.fates.accepted : Multiset (RadarEnvelope Empty)) =
      sampleOutcome.2.queue.envelopes + sampleOutcome.2.fates.resolved + sampleOutcome.2.fates.evicted ∧
    sampleOutcome.2.telemetry.routed + sampleOutcome.2.telemetry.dropped + sampleOutcome.2.telemetry.dlq +
      sampleOutcome.2.queue.heap.length = 3 := by
  have hadmitted : sampleEvents.countP Event.isAdmission = 3 := by decide +kernel
  obtain ⟨⟨-, hfates⟩, hcounted, -⟩ := runtime_conservation sampleRun
  rw [hadmitted] at hcounted
  exact ⟨by decide +kernel, by decide +kernel, by decide +kernel, hfates, hcounted⟩

/-- **In every state a run reaches the queue holds no envelope of priority zero, and a checked
envelope of priority zero that is no duplicate is routed by its own admission.** -/
theorem priority_zero_never_waits (h : Run (Step py) (Runtime.start telemetry dlq queueSize hsize dedupeWindowMs hwindow) events s) :
    (∀ item ∈ s.queue.heap, item.priority ≠ 0 ∧ item.envelope.priority ≠ 0) ∧
    ∀ raw nowMs sourceLocator fresh result envelope, fromMapping py fresh raw = .ok result →
      result.envelope = some envelope → envelope.priority = 0 → 0 ≤ nowMs → (∀ last ∈ s.dedupe.lastNowMs, last ≤ nowMs) →
      ¬ s.dedupe.Suppresses (dedupeKey envelope) nowMs →
      ∃ receipt s', admitRaw py raw nowMs sourceLocator fresh s = (.ok receipt, s') ∧
        (receipt.state = .dispatched ∨ receipt.state = .droppedNoRoute) ∧ receipt.messageId = envelope.messageId := by
  obtain ⟨hgood, -, -⟩ := run_accounts h
  refine ⟨fun item hitem => ?_, ?_⟩
  · obtain ⟨heq, -, hne⟩ := hgood.waiting item hitem
    exact ⟨hne, heq ▸ hne⟩
  · intro raw nowMs sourceLocator fresh result envelope hresult henvelope hzero hnow hlast hnew
    rcases admitEnvelope_cases nowMs hgood (fromMapping_valid hresult henvelope) with ⟨e, haccept, -⟩ | ⟨receipt, s', hdone, -, -, -, hresolves⟩
    · obtain ⟨answer, hanswer⟩ := s.dedupe.accept_ok (dedupeKey_ne_nil envelope) hnow hlast
      rw [haccept] at hanswer
      cases hanswer
    · exact ⟨receipt, s', (admitRaw_envelope hresult henvelope).trans hdone, hresolves hzero hnew⟩

/-- The envelope of the mapping above. -/
def sampleEnvelope : RadarEnvelope Empty where
  schemaVersion := 1
  messageId := lit "m-1"
  createdAt := lit "2026-09-06T14:30:00Z"
  sender := lit "radar"
  audience := []
  domain := lit "system"
  intent := lit "event"
  priority := 0
  payload := .null
  contentHash := ⟨"d18a65cfa9a9d601291e7334ab35b699d8a467564603999503be3da2d849f449", isHex_sampleContent⟩
  idempotencyKey := ⟨"74234e98afe7498fb5daf1f36ac2d78acc339464f950703b8c019892f982b90b", isHex_sampleKey⟩
  correlationId := none
  rootTaskId := none
  causalParentId := none
  requiresAck := false
  expiresAt := none
  authorityRef := none
  sourceRefs := []

theorem fromMapping_sampleRaw :
    fromMapping (asciiInterpreter sampleSha256) sampleFresh sampleRaw = .ok ⟨.valid, some sampleEnvelope, []⟩ := by
  rfl

theorem sampleOutcome_last : ∀ last ∈ sampleOutcome.2.dedupe.lastNowMs, last ≤ 4000 := by
  have hlast : sampleOutcome.2.dedupe.lastNowMs = some 3000 := by decide +kernel
  simp only [hlast, Option.mem_some_iff, forall_eq']
  decide

/-- The envelope displaces the one that fills the queue. -/
theorem priority_zero_never_waits_sample :
    sampleOutcome.2.queue.heap.map (·.envelope.messageId) = [lit "q-2"] ∧
    ∃ receipt s', admitRaw (asciiInterpreter sampleSha256) sampleRaw 4000 none sampleFresh sampleOutcome.2 = (.ok receipt, s') ∧
      (receipt.state = .dispatched ∨ receipt.state = .droppedNoRoute) ∧ receipt.messageId = lit "m-1" :=
  ⟨by decide +kernel, (priority_zero_never_waits sampleRun).2 sampleRaw 4000 none sampleFresh _ sampleEnvelope
    fromMapping_sampleRaw rfl rfl (by decide) sampleOutcome_last (by decide +kernel)⟩

end CcbCore.Radar
