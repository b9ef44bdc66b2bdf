import CcbCore.Radar.Admission
import CcbCore.Radar.Deduplication

/-!
# Taking an acceptance back

When the queue refuses a message that the duplicate window accepted, the acceptance is taken
back. By then the window may have purged entries, overwritten an older one of the key, and
moved its clock; none of this can be seen from there on. The window answers all later calls
as if the pair had never been (`rollback_transparent`), and the message is no duplicate when
it comes again.
-/

namespace CcbCore.Radar

open CcbCore.CodePoints

variable {Opaque : Type}

namespace DedupeWindow

/-- The windows that calls lead to. -/
inductive Reached (windowMs : ℤ) (hwindow : 0 ≤ windowMs) : DedupeWindow → Prop where
  | fresh : Reached windowMs hwindow (fresh windowMs hwindow)
  | accept {w w' : DedupeWindow} {key : Str} {nowMs : ℤ} {answer : Bool} :
      Reached windowMs hwindow w → w.accept key nowMs = .ok (answer, w') → Reached windowMs hwindow w'
  | rollback {w w' : DedupeWindow} {key : Str} {acceptedAtMs : ℤ} {undone : Bool} :
      Reached windowMs hwindow w → w.rollbackAccept key acceptedAtMs = .ok (undone, w') → Reached windowMs hwindow w'

/-- Two windows answer all calls alike that are made in order, from a time on. -/
def SameAnswers (since : ℤ) (v w : DedupeWindow) : Prop :=
  ∀ requests : List (Str × ℤ), (since :: requests.map (·.2)).Pairwise (· ≤ ·) →
    (calls record v requests).1 = (calls record w requests).1

variable {v w w' : DedupeWindow} {key : Str} {nowMs since : ℤ}

/-- What a rollback that returns does. -/
theorem rollbackAccept_ok_iff {undone : Bool} : w.rollbackAccept key nowMs = .ok (undone, w') ↔ key ≠ [] ∧ 0 ≤ nowMs ∧
    ((w.seen.lookup key ≠ some nowMs ∧ undone = false ∧ w' = w) ∨
      (w.seen.lookup key = some nowMs ∧ undone = true ∧ w' = { w with seen := w.seen.filter (·.1 ≠ key) })) := by
  unfold rollbackAccept
  by_cases hkey : key = []
  · simp [hkey]
  by_cases hnow : nowMs < 0
  · simp [hkey, hnow]
  rw [if_neg hkey, if_neg hnow]
  by_cases hfound : w.seen.lookup key = some nowMs
  · simp [hfound, hkey, not_lt.mp hnow, eq_comm]
  · simp [hfound, hkey, not_lt.mp hnow, eq_comm]

theorem Reached.nodup {windowMs : ℤ} {hwindow : 0 ≤ windowMs} (h : Reached windowMs hwindow w) : (w.seen.map (·.1)).Nodup := by
  induction h with
  | fresh => exact List.nodup_nil
  | accept _ haccept ih =>
    rw [← acceptWith_record] at haccept
    obtain ⟨-, -, -, hcases⟩ := acceptWith_ok.mp haccept
    rcases hcases with ⟨-, -, rfl⟩ | ⟨-, -, rfl⟩
    · exact ih
    · exact (record_stores ih _ _).nodup
  | rollback _ hrollback ih =>
    obtain ⟨-, -, hcases⟩ := rollbackAccept_ok_iff.mp hrollback
    rcases hcases with ⟨-, -, rfl⟩ | ⟨-, -, rfl⟩
    · exact ih
    · exact ih.sublist (List.filter_sublist.map _)

/-! ### Windows that cannot be told apart -/

/-- From a time on, two windows suppress the same keys. -/
structure Alike (since : ℤ) (v w : DedupeWindow) : Prop where
  nodup : (v.seen.map (·.1)).Nodup ∧ (w.seen.map (·.1)).Nodup
  clock : (∀ last ∈ v.lastNowMs, last ≤ since) ∧ ∀ last ∈ w.lastNowMs, last ≤ since
  window : v.windowMs = w.windowMs
  suppresses : ∀ key nowMs, since ≤ nowMs → (v.Suppresses key nowMs ↔ w.Suppresses key nowMs)

theorem Alike.later (h : Alike since v w) (hle : since ≤ nowMs) : Alike nowMs v w where
  nodup := h.nodup
  clock := ⟨fun last hlast => (h.clock.1 last hlast).trans hle, fun last hlast => (h.clock.2 last hlast).trans hle⟩
  window := h.window
  suppresses key later hlater := h.suppresses key later (hle.trans hlater)

/-- Who is suppressed after an acceptance was recorded: its own key for the length of the
window, and the other keys as before. -/
theorem suppresses_record (h : (w.seen.map (·.1)).Nodup) {other : Str} {later : ℤ} (hlater : nowMs ≤ later) (clock : Option ℤ) :
    ({ w with lastNowMs := clock, seen := w.record key nowMs } : DedupeWindow).Suppresses other later ↔
      if other = key then later - nowMs ≤ w.windowMs else w.Suppresses other later := by
  have hstores := record_stores h key nowMs
  rw [suppresses_iff (by exact hstores.nodup)]
  dsimp only
  by_cases hkey : other = key
  · subst hkey
    rw [if_pos rfl]
    constructor
    · rintro ⟨previous, hmem, hnear⟩
      rcases hstores.old _ hmem with heq | ⟨hne, -⟩
      · exact (Prod.mk.inj heq).2 ▸ hnear
      · exact absurd rfl hne
    · exact fun hnear => ⟨nowMs, hstores.new, hnear⟩
  · rw [if_neg hkey, suppresses_iff h]
    constructor
    · rintro ⟨previous, hmem, hnear⟩
      rcases hstores.old _ hmem with heq | ⟨-, hold⟩
      · exact absurd (Prod.mk.inj heq).1 hkey
      · exact ⟨previous, hold, hnear⟩
    · rintro ⟨previous, hmem, hnear⟩
      refine ⟨previous, (hstores.kept _ hmem hkey).resolve_right fun hfar => ?_, hnear⟩
      dsimp only at hfar
      omega

/-- A call at a later time is answered alike, and leaves the windows alike. -/
theorem Alike.call (h : Alike since v w) (request : Str × ℤ) (hle : since ≤ request.2) :
    (DedupeWindow.call record v request).1 = (DedupeWindow.call record w request).1 ∧
      Alike request.2 (DedupeWindow.call record v request).2 (DedupeWindow.call record w request).2 := by
  have hclock (u : DedupeWindow) (hu : ∀ last ∈ u.lastNowMs, last ≤ since) : ¬ ∃ last ∈ u.lastNowMs, request.2 < last :=
    fun ⟨last, hlast, hlt⟩ => absurd ((hu last hlast).trans hle) (not_le.mpr hlt)
  unfold DedupeWindow.call acceptWith
  by_cases hkey : request.1 = []
  · simp only [if_pos hkey]
    exact ⟨trivial, h.later hle⟩
  by_cases hnow : request.2 < 0
  · simp only [if_neg hkey, if_pos hnow]
    exact ⟨trivial, h.later hle⟩
  simp only [if_neg hkey, if_neg hnow, if_neg (hclock v h.clock.1), if_neg (hclock w h.clock.2)]
  have hsame := h.suppresses request.1 request.2 hle
  have hmoved : ∀ last ∈ some request.2, last ≤ request.2 := fun last hlast => (Option.some.inj hlast).ge
  by_cases hsup : w.Suppresses request.1 request.2
  · rw [if_pos hsup, if_pos (hsame.mpr hsup)]
    exact ⟨rfl, h.nodup, ⟨hmoved, hmoved⟩, h.window, fun key later hlater => h.suppresses key later (hle.trans hlater)⟩
  · rw [if_neg hsup, if_neg (mt hsame.mp hsup)]
    refine ⟨rfl, ⟨(record_stores h.nodup.1 _ _).nodup, (record_stores h.nodup.2 _ _).nodup⟩, ⟨hmoved, hmoved⟩, h.window, ?_⟩
    intro key later hlater
    rw [suppresses_record h.nodup.1 hlater, suppresses_record h.nodup.2 hlater, h.window, h.suppresses key later (hle.trans hlater)]

/-- Windows that are alike answer alike. -/
theorem Alike.sameAnswers (h : Alike since v w) : SameAnswers since v w := by
  intro requests
  induction requests generalizing since v w with
  | nil => exact fun _ => rfl
  | cons request requests ih =>
    intro horder
    rw [List.map_cons, List.pairwise_cons] at horder
    obtain ⟨hanswer, halike⟩ := h.call request (horder.1 _ List.mem_cons_self)
    exact congrArg₂ List.cons hanswer (ih halike horder.2)

/-- After an acceptance the rollback finds it, and leaves a window like the one before. -/
theorem rollback_alike (h : (w.seen.map (·.1)).Nodup) (haccept : w.accept key nowMs = .ok (true, w')) :
    ∃ w'', w'.rollbackAccept key nowMs = .ok (true, w'') ∧ Alike nowMs w'' w := by
  rw [← acceptWith_record] at haccept
  obtain ⟨hkey, hnow, hclock, hcases⟩ := acceptWith_ok.mp haccept
  obtain ⟨hsup, -, rfl⟩ := hcases.resolve_left fun hno => by cases hno.2.1
  have hstores := record_stores h key nowMs
  have hfound : (w.record key nowMs).lookup key = some nowMs := (lookup_iff_mem hstores.nodup).mpr hstores.new
  have hnodup : (((w.record key nowMs).filter (·.1 ≠ key)).map (·.1)).Nodup := hstores.nodup.sublist (List.filter_sublist.map _)
  refine ⟨_, rollbackAccept_ok_iff.mpr ⟨hkey, hnow, .inr ⟨hfound, rfl, rfl⟩⟩, ⟨hnodup, h⟩,
    ⟨fun last hlast => (Option.some.inj hlast).ge, hclock⟩, rfl, fun other later hlater => ?_⟩
  rw [suppresses_iff (by exact hnodup), suppresses_iff h]
  dsimp only
  constructor
  · rintro ⟨previous, hmem, hnear⟩
    obtain ⟨hmem, hne⟩ := List.mem_filter.mp hmem
    rcases hstores.old _ hmem with heq | ⟨-, hold⟩
    · exact absurd (Prod.mk.inj heq).1 (of_decide_eq_true hne)
    · exact ⟨previous, hold, hnear⟩
  · rintro ⟨previous, hmem, hnear⟩
    have hne : other ≠ key := by
      rintro rfl
      -- the key itself was not suppressed, so its old entry is too old for good
      refine hsup ((suppresses_iff h).mpr ⟨previous, hmem, ?_⟩)
      omega
    refine ⟨previous, List.mem_filter.mpr ⟨(hstores.kept _ hmem hne).resolve_right fun hfar => ?_, decide_eq_true hne⟩, hnear⟩
    dsimp only at hfar
    omega

end DedupeWindow

/-! ### A message that the queue refused -/

section Runtime

variable {py : Interpreter Opaque} {s s' : Runtime Opaque} {envelope : RadarEnvelope Opaque} {nowMs : ℤ}
  {response : Except Raised RuntimeReceipt} {raw : Mapping Opaque} {fresh : Fresh} {sourceLocator : Option Str}

/-- Dispatching has nothing to do with the window. -/
theorem dispatchNext_dedupe (h : dispatchNext py nowMs s = (response, s')) :
    s'.dedupe = s.dedupe ∧
      ∀ receipt, response = .ok receipt → receipt.state = .droppedNoRoute ∨ receipt.state = .dispatched := by
  unfold dispatchNext at h
  split at h
  · cases h
    exact ⟨rfl, nofun⟩
  split at h
  · cases h
    exact ⟨rfl, nofun⟩
  dsimp only at h
  split at h
  · cases h
    exact ⟨rfl, nofun⟩
  split at h
  · cases h
    exact ⟨rfl, fun receipt heq => .inl (Except.ok.inj heq ▸ rfl)⟩
  · cases h
    exact ⟨rfl, fun receipt heq => .inr (Except.ok.inj heq ▸ rfl)⟩

theorem settle_dedupe {evicted : Option (RadarEnvelope Opaque)} (h : settle py envelope nowMs evicted s = (response, s')) :
    s'.dedupe = s.dedupe ∧
      ∀ receipt, response = .ok receipt → receipt.state ≠ .droppedDuplicate ∧ receipt.state ≠ .droppedQueueFull := by
  have hdisplace : (s.displace evicted).dedupe = s.dedupe := by cases evicted <;> rfl
  unfold settle at h
  dsimp only at h
  split at h
  · cases hdispatch : dispatchNext py nowMs (s.displace evicted) with
    | mk result t =>
      obtain ⟨hsame, hstate⟩ := dispatchNext_dedupe hdispatch
      rw [hdispatch] at h
      cases result with
      | error e =>
        cases h
        exact ⟨hsame.trans hdisplace, nofun⟩
      | ok dispatched =>
        cases h
        refine ⟨hsame.trans hdisplace, fun receipt heq => ?_⟩
        obtain rfl := Except.ok.inj heq
        rcases hstate dispatched rfl with hstate | hstate
        · simp [hstate]
        · simp [hstate]
  · cases h
    refine ⟨hdisplace, fun receipt heq => ?_⟩
    obtain rfl := Except.ok.inj heq
    simp

/-- What admitting an envelope does to the window, and what it answers. -/
theorem admitEnvelope_dedupe (h : admitEnvelope py envelope nowMs s = (response, s')) :
    (s'.dedupe = s.dedupe ∧ ∃ e, response = .error e) ∨
    (s.dedupe.accept (dedupeKey envelope) nowMs = .ok (false, s'.dedupe)) ∨
    (∃ w undone, s.dedupe.accept (dedupeKey envelope) nowMs = .ok (true, w) ∧
      w.rollbackAccept (dedupeKey envelope) nowMs = .ok (undone, s'.dedupe) ∧
      ∀ receipt, response = .ok receipt → receipt.state = .droppedQueueFull) ∨
    (s.dedupe.accept (dedupeKey envelope) nowMs = .ok (true, s'.dedupe) ∧
      ∀ receipt, response = .ok receipt → receipt.state ≠ .droppedDuplicate ∧ receipt.state ≠ .droppedQueueFull) := by
  unfold admitEnvelope at h
  cases haccept : s.dedupe.accept (dedupeKey envelope) nowMs with
  | error e =>
    rw [haccept] at h
    cases h
    exact .inl ⟨rfl, e, rfl⟩
  | ok result =>
    obtain ⟨answer, w⟩ := result
    rw [haccept] at h
    cases answer with
    | false =>
      cases h
      exact .inr (.inl rfl)
    | true =>
      refine .inr (.inr ?_)
      dsimp only at h
      split at h
      · split at h
        · next hrollback =>
          obtain ⟨hkey, hnow, -, -⟩ := DedupeWindow.acceptWith_ok.mp haccept
          obtain ⟨undone, w', hok⟩ := w.rollbackAccept_ok hkey hnow
          rw [hok] at hrollback
          cases hrollback
        · next undone w' hrollback =>
          cases h
          exact .inl ⟨w, undone, rfl, hrollback, fun receipt heq => Except.ok.inj heq ▸ rfl⟩
      · cases h
        exact .inr ⟨rfl, nofun⟩
      · obtain ⟨hsame, hstate⟩ := settle_dedupe h
        exact .inr ⟨by rw [hsame]; rfl, hstate⟩

/-- A raw mapping that is no envelope leaves the window, and is neither a duplicate nor too
much. -/
theorem admitRaw_dedupe (h : admitRaw py raw nowMs sourceLocator fresh s = (response, s')) :
    (s'.dedupe = s.dedupe ∧ ∀ receipt, response = .ok receipt → receipt.state ≠ .droppedDuplicate ∧ receipt.state ≠ .droppedQueueFull) ∨
    ∃ result envelope, fromMapping py fresh raw = .ok result ∧ result.envelope = some envelope ∧
      admitEnvelope py envelope nowMs s = (response, s') := by
  cases hresult : fromMapping py fresh raw with
  | error e =>
    rw [admitRaw, hresult] at h
    cases h
    exact .inl ⟨rfl, fun _ h => by cases h⟩
  | ok result =>
    rcases fromMapping_cases hresult with ⟨hnone, hclass | hclass⟩ | ⟨envelope, henvelope, -, -⟩
    · rcases admitRaw_dlq hresult hclass with ⟨e, hdlq⟩ | ⟨receipt, dlq, hstate, hdlq⟩
      · rw [hdlq] at h
        cases h
        exact .inl ⟨rfl, fun _ h => by cases h⟩
      · rw [hdlq] at h
        cases h
        refine .inl ⟨rfl, fun receipt' heq => ?_⟩
        obtain rfl := Except.ok.inj heq
        simp [hstate]
    · rw [admitRaw_rejected hresult hclass] at h
      cases h
      refine .inl ⟨rfl, fun receipt' heq => ?_⟩
      obtain rfl := Except.ok.inj heq
      simp
    · rw [admitRaw_envelope hresult henvelope] at h
      exact .inr ⟨result, envelope, rfl, henvelope, h⟩

/-- The window of a runtime is one that calls lead to. -/
theorem Step.reached {windowMs : ℤ} {hwindow : 0 ≤ windowMs} {event : Event Opaque} (h : Step py s event s')
    (hs : s.dedupe.Reached windowMs hwindow) : s'.dedupe.Reached windowMs hwindow := by
  cases h with
  | admitRaw hadmit =>
    rcases admitRaw_dedupe hadmit with ⟨hsame, -⟩ | ⟨result, envelope, -, -, henvelope⟩
    · rwa [hsame]
    · rcases admitEnvelope_dedupe henvelope with ⟨hsame, -⟩ | hno | ⟨w, undone, hyes, hundone, -⟩ | ⟨hyes, -⟩
      · rwa [hsame]
      · exact hs.accept hno
      · exact (hs.accept hyes).rollback hundone
      · exact hs.accept hyes
  | dispatchNext hdispatch => rwa [(dispatchNext_dedupe hdispatch).1]
  | registry call => exact hs

/-- The key of a mapping's envelope does not depend on what its fields default to. -/
theorem idempotencyKey_eq {fresh' : Fresh} {result result' : EnvelopeResult Opaque} {envelope' : RadarEnvelope Opaque}
    (h : fromMapping py fresh raw = .ok result) (henvelope : result.envelope = some envelope)
    (h' : fromMapping py fresh' raw = .ok result') (henvelope' : result'.envelope = some envelope') :
    envelope.idempotencyKey = envelope'.idempotencyKey := by
  obtain ⟨heading, details, hashes, hheading, hdetails, hhashes, rfl, -⟩ := fromMapping_envelope h henvelope
  obtain ⟨heading', details', hashes', hheading', hdetails', hhashes', rfl, -⟩ := fromMapping_envelope h' henvelope'
  obtain rfl := Except.ok.inj (hheading.symm.trans hheading')
  have haudience : details.audience = details'.audience := by
    rcases detailsOf_cases py.unicode fresh raw with ⟨_, herror, -⟩ | ⟨d, hd, haudience, -⟩
    · rw [hdetails] at herror
      cases herror
    rcases detailsOf_cases py.unicode fresh' raw with ⟨_, herror, -⟩ | ⟨d', hd', haudience', -⟩
    · rw [hdetails'] at herror
      cases herror
    obtain rfl := Except.ok.inj (hdetails.symm.trans hd)
    obtain rfl := Except.ok.inj (hdetails'.symm.trans hd')
    exact Option.some.inj (haudience.symm.trans haudience')
  rw [haudience] at hhashes
  obtain rfl := Option.some.inj (Except.ok.inj (hhashes.symm.trans hhashes'))
  rfl

/-- A message that was refused by the queue is like one that never came: the window answers
as before it, and the message is no duplicate when it comes again. -/
theorem queueFull_forgotten {windowMs : ℤ} {hwindow : 0 ≤ windowMs} (hs : s.dedupe.Reached windowMs hwindow) {receipt : RuntimeReceipt}
    (h : admitRaw py raw nowMs sourceLocator fresh s = (.ok receipt, s')) (hfull : receipt.state = .droppedQueueFull) :
    s'.dedupe.SameAnswers nowMs s.dedupe ∧
      ∀ later, nowMs ≤ later → ∀ sourceLocator' fresh' receipt' s'',
        admitRaw py raw later sourceLocator' fresh' s' = (.ok receipt', s'') → receipt'.state ≠ .droppedDuplicate := by
  rcases admitRaw_dedupe h with ⟨-, hstate⟩ | ⟨result, envelope, hresult, henvelope, hadmit⟩
  · exact absurd hfull (hstate receipt rfl).2
  have hkeyed : ∀ later, nowMs ≤ later → ¬ s'.dedupe.Suppresses (dedupeKey envelope) later ∧ s'.dedupe.SameAnswers nowMs s.dedupe := by
    intro later hlater
    rcases admitEnvelope_dedupe hadmit with ⟨-, e, hraised⟩ | hno | ⟨w, undone, hyes, hundone, -⟩ | ⟨-, hstate⟩
    · cases hraised
    · simp only [admitEnvelope, hno] at hadmit
      rw [← Except.ok.inj (Prod.mk.inj hadmit).1] at hfull
      cases hfull
    · obtain ⟨w'', hrollback, halike⟩ := DedupeWindow.rollback_alike hs.nodup hyes
      obtain ⟨-, rfl⟩ := Prod.mk.inj (Except.ok.inj (hundone.symm.trans hrollback))
      obtain ⟨-, -, -, hcases⟩ := DedupeWindow.acceptWith_ok.mp hyes
      obtain ⟨hsup, -⟩ := hcases.resolve_left fun hno => by cases hno.2.1
      refine ⟨fun hnow => hsup ?_, halike.sameAnswers⟩
      obtain ⟨previous, hmem, hnear⟩ := (halike.suppresses _ later hlater).mp hnow
      exact ⟨previous, hmem, by omega⟩
    · exact absurd hfull (hstate receipt rfl).2
  refine ⟨(hkeyed nowMs le_rfl).2, fun later hlater sourceLocator' fresh' receipt' s'' hretry hduplicate => ?_⟩
  rcases admitRaw_dedupe hretry with ⟨-, hstate⟩ | ⟨result', envelope', hresult', henvelope', hadmit'⟩
  · exact (hstate receipt' rfl).1 hduplicate
  have hkey : dedupeKey envelope' = dedupeKey envelope := by
    rw [dedupeKey, dedupeKey, idempotencyKey_eq hresult' henvelope' hresult henvelope]
  rcases admitEnvelope_dedupe hadmit' with ⟨-, e, hraised⟩ | hno | ⟨w, undone, -, -, hstate⟩ | ⟨-, hstate⟩
  · cases hraised
  · obtain ⟨-, -, -, hcases⟩ := DedupeWindow.acceptWith_ok.mp hno
    rcases hcases with ⟨hsup, -⟩ | ⟨-, hyes, -⟩
    · exact (hkeyed later hlater).1 (hkey ▸ hsup)
    · cases hyes
  · rw [hstate receipt' rfl] at hduplicate
    cases hduplicate
  · exact (hstate receipt' rfl).1 hduplicate

/-- **A rollback cannot be seen.** In every window that calls lead to, the rollback of an
acceptance finds it, and from there on the window answers as if the two had not been. In
every run of the runtime, a message that the queue had no room for leaves the window as if
it had not come, and is no duplicate when it comes again. -/
theorem rollback_transparent (windowMs : ℤ) (hwindow : 0 ≤ windowMs) :
    (∀ (w w' : DedupeWindow) (key : Str) (acceptedAtMs : ℤ), w.Reached windowMs hwindow →
      w.accept key acceptedAtMs = .ok (true, w') →
      ∃ w'', w'.rollbackAccept key acceptedAtMs = .ok (true, w'') ∧ w''.SameAnswers acceptedAtMs w) ∧
    ∀ (py : Interpreter Opaque) (telemetry : TelemetryStore) (dlq : DeadLetterStore) (queueSize : ℕ) (hsize : 0 < queueSize)
      (events : List (Event Opaque)) (s s' : Runtime Opaque) (raw : Mapping Opaque) (nowMs : ℤ) (sourceLocator : Option Str)
      (fresh : Fresh) (receipt : RuntimeReceipt),
      Run (Step py) (Runtime.start telemetry dlq queueSize hsize windowMs hwindow) events s →
      admitRaw py raw nowMs sourceLocator fresh s = (.ok receipt, s') → receipt.state = .droppedQueueFull →
      s'.dedupe.SameAnswers nowMs s.dedupe ∧
        ∀ later, nowMs ≤ later → ∀ sourceLocator' fresh' receipt' s'',
          admitRaw py raw later sourceLocator' fresh' s' = (.ok receipt', s'') → receipt'.state ≠ .droppedDuplicate := by
  constructor
  · intro w w' key acceptedAtMs hw haccept
    obtain ⟨w'', hrollback, halike⟩ := DedupeWindow.rollback_alike hw.nodup haccept
    exact ⟨w'', hrollback, halike.sameAnswers⟩
  · intro py telemetry dlq queueSize hsize events s s' raw nowMs sourceLocator fresh receipt hrun hadmit hfull
    have hreached : s.dedupe.Reached windowMs hwindow :=
      hrun.invariant (fun t event t' ht hstep => Step.reached hstep ht) .fresh
    exact queueFull_forgotten hreached hadmit hfull

/-- A message that waits, with a payload of its own. -/
def waitingRaw (payload : Value Empty) : Mapping Empty :=
  [(lit "schema_version", .int 1), (lit "sender", .str (lit "radar")), (lit "domain", .str (lit "system")),
    (lit "intent", .str (lit "event")), (lit "priority", .int 2), (lit "payload", payload)]

/-- A message takes the only place in the queue; the next one is refused. -/
def fullStart : Runtime Empty := (admitRaw (asciiInterpreter sampleSha256) (waitingRaw .null) 1000 none sampleFresh sampleStart).2

def fullOutcome : Outcome Empty := admitRaw (asciiInterpreter sampleSha256) (waitingRaw (.int 1)) 1000 none sampleFresh fullStart

theorem rollback_transparent_sample :
    fullOutcome.2.dedupe.SameAnswers 1000 fullStart.dedupe := by
  have hfull : ∃ receipt, fullOutcome.1 = .ok receipt ∧ receipt.state = .droppedQueueFull :=
    ⟨{ state := .droppedQueueFull, messageId := lit "rad_0123456789abcdef" }, by decide +kernel, rfl⟩
  obtain ⟨receipt, hreceipt, hstate⟩ := hfull
  exact ((rollback_transparent 500 (by decide)).2 (asciiInterpreter sampleSha256) ⟨0, 0, 0⟩ ⟨[], 0⟩ 1 one_pos
    [.admitRaw (waitingRaw .null) 1000 none sampleFresh _] fullStart fullOutcome.2 (waitingRaw (.int 1)) 1000 none sampleFresh receipt
    (.single (.admitRaw rfl)) (hreceipt ▸ rfl) hstate).1

end Runtime

end CcbCore.Radar
