import CcbCore.Journal.ReferenceRuns

/-!
# The invariant of the reference journal

`Inv` ties the active-batch map to batch completion: an active batch is recorded,
is on the lane it is active on, and is incomplete. It is kept by every call,
whatever claim the call presents. `Issued` holds besides when callers present
claims as `claim_batch` returned them: the record of an issued claim keeps that
claim, and a completed batch stores the lane state its own claim asks for.
`Superseded` is the state an unfinished claim is in once another batch is claimed on
its lane; nothing takes it out of that state.
-/

namespace CcbCore.Journal

variable (uuid4 : UuidSource)

/-- What holds of a journal after any calls. -/
structure Inv (journal : ProjectionJournal) : Prop where
  /-- A batch id was drawn before. -/
  drawn : ∀ id record, journal.batches id = some record → ∃ n < journal.uuids, uuid4.hex n = id
  /-- A record is kept under its claim's batch id. -/
  keyed : ∀ id record, journal.batches id = some record → record.claim.batchId = id
  /-- An active batch is recorded, on its lane, and incomplete. -/
  active : ∀ key id, journal.activeBatchByLane key = some id →
    ∃ record, journal.batches id = some record ∧ record.claim.key = key ∧ record.complete = false
  /-- Every lease ends after time zero. -/
  lease : ∀ id record, journal.batches id = some record → 0 < record.claim.leaseExpiresMs
  /-- A complete batch has a stored lane state. -/
  stored : ∀ id record, journal.batches id = some record → record.complete = true →
    record.finalizedState ≠ none
  /-- A lane's state names the lane. -/
  laneKeyed : ∀ key lane, journal.lanes key = some lane → (lane.identity, lane.branch) = key
  /-- A batch's lane is seeded. -/
  seeded : ∀ id record, journal.batches id = some record → journal.lanes record.claim.key ≠ none

theorem inv_empty : Inv uuid4 .empty := by
  constructor <;> simp [ProjectionJournal.empty]

variable {uuid4} {journal journal' : ProjectionJournal} {event : Event}

/-- The next identifier names no batch yet. -/
theorem Inv.fresh (hinv : Inv uuid4 journal) : journal.batches (uuid4.hex journal.uuids) = none := by
  cases h : journal.batches (uuid4.hex journal.uuids) with
  | none => rfl
  | some record =>
    obtain ⟨n, hn, heq⟩ := hinv.drawn _ _ h
    have := uuid4.distinct heq
    omega

theorem Inv.ne_fresh (hinv : Inv uuid4 journal) {id : String} {record : BatchRecord}
    (h : journal.batches id = some record) : id ≠ uuid4.hex journal.uuids := by
  rintro rfl
  rw [hinv.fresh] at h
  cases h

/-- The batches after a claim: the claim's, and those there were. -/
theorem withClaim_batches {claim : BatchClaim} {files : List String} {id : String} {record : BatchRecord}
    (h : (journal.withClaim claim files).batches id = some record) :
    (id = claim.batchId ∧ record = freshRecord claim files) ∨
      (id ≠ claim.batchId ∧ journal.batches id = some record) := by
  by_cases hid : id = claim.batchId
  · subst hid
    simp only [ProjectionJournal.withClaim, Function.update_self, Option.some.injEq] at h
    exact .inl ⟨rfl, h.symm⟩
  · simp only [ProjectionJournal.withClaim, Function.update_of_ne hid] at h
    exact .inr ⟨hid, h⟩

/-- A batch rewritten with its own claim kept: the batches after it. -/
theorem update_batches {batches : String → Option BatchRecord} {id id' : String}
    {record record' : BatchRecord} (h : Function.update batches id (some record') id' = some record) :
    (id' = id ∧ record = record') ∨ (id' ≠ id ∧ batches id' = some record) := by
  by_cases hid : id' = id
  · subst hid
    simp only [Function.update_self, Option.some.injEq] at h
    exact .inl ⟨rfl, h.symm⟩
  · rw [Function.update_of_ne hid] at h
    exact .inr ⟨hid, h⟩

/-- Rewriting one batch, its claim kept, keeps the parts of the invariant about
batches alone. -/
theorem Inv.rewrite (hinv : Inv uuid4 journal) {id : String} {old : BatchRecord} (new : BatchRecord)
    (hold : journal.batches id = some old) (hclaim : new.claim = old.claim)
    (hstored : new.complete = true → new.finalizedState ≠ none)
    (hbatches : journal'.batches = Function.update journal.batches id (some new))
    (huuids : journal'.uuids = journal.uuids)
    (hlanes : ∀ key, journal.lanes key ≠ none → journal'.lanes key ≠ none)
    (hlaneKeyed : ∀ key lane, journal'.lanes key = some lane → (lane.identity, lane.branch) = key)
    (hactive : ∀ key id', journal'.activeBatchByLane key = some id' →
      journal.activeBatchByLane key = some id' ∧ (id' = id → new.complete = false)) :
    Inv uuid4 journal' := by
  -- every record of the new journal has the claim of a record of the old one
  have hback : ∀ id' record, journal'.batches id' = some record →
      ∃ before, journal.batches id' = some before ∧ record.claim = before.claim := by
    intro id' record h
    rw [hbatches] at h
    rcases update_batches h with ⟨rfl, rfl⟩ | ⟨-, h⟩
    · exact ⟨old, hold, hclaim⟩
    · exact ⟨record, h, rfl⟩
  refine ⟨fun id' record h => ?_, fun id' record h => ?_, fun key id' h => ?_, fun id' record h => ?_,
    fun id' record h hc => ?_, hlaneKeyed, fun id' record h => ?_⟩
  · obtain ⟨before, hb, -⟩ := hback id' record h
    rw [huuids]
    exact hinv.drawn id' before hb
  · obtain ⟨before, hb, hc⟩ := hback id' record h
    rw [hc]
    exact hinv.keyed id' before hb
  · obtain ⟨hact, hnew⟩ := hactive key id' h
    obtain ⟨record, hr, hk, hc⟩ := hinv.active key id' hact
    by_cases hid : id' = id
    · subst hid
      refine ⟨new, by rw [hbatches, Function.update_self], ?_, hnew rfl⟩
      rw [hold] at hr
      cases hr
      rw [hclaim, hk]
    · exact ⟨record, by rw [hbatches, Function.update_of_ne hid, hr], hk, hc⟩
  · obtain ⟨before, hb, hc⟩ := hback id' record h
    rw [hc]
    exact hinv.lease id' before hb
  · rw [hbatches] at h
    rcases update_batches h with ⟨rfl, rfl⟩ | ⟨-, h⟩
    · exact hstored hc
    · exact hinv.stored id' record h hc
  · obtain ⟨before, hb, hc⟩ := hback id' record h
    rw [hc]
    exact hlanes _ (hinv.seeded id' before hb)

/-- Every call keeps the invariant. -/
theorem Inv.effect (hinv : Inv uuid4 journal) (h : Effect uuid4 journal event journal') :
    Inv uuid4 journal' := by
  cases h with
  | raised => exact hinv
  | @seeded _ _ _ key head' same =>
    refine { hinv with laneKeyed := fun key' lane hlane => ?_, seeded := fun id record hb => ?_ }
    · by_cases hk : key' = key
      · subst hk
        simp only [Function.update_self, Option.some.injEq] at hlane
        rw [← hlane]
      · simp only [Function.update_of_ne hk] at hlane
        exact hinv.laneKeyed key' lane hlane
    · by_cases hk : record.claim.key = key
      · simp [hk]
      · simpa [Function.update_of_ne hk] using hinv.seeded id record hb
  | cutSet lane => exact { hinv with }
  | @claimed _ request' claim made base free lease =>
    have hid : claim.batchId = uuid4.hex journal.uuids := by rw [made]; rfl
    refine ⟨fun id record hb => ?_, fun id record hb => ?_, fun key id hact => ?_, fun id record hb => ?_,
      fun id record hb hc => ?_, hinv.laneKeyed, fun id record hb => ?_⟩
    · rcases withClaim_batches hb with ⟨rfl, -⟩ | ⟨-, hb⟩
      · exact ⟨journal.uuids, by simp [ProjectionJournal.withClaim], hid.symm⟩
      · obtain ⟨n, hn, heq⟩ := hinv.drawn id record hb
        exact ⟨n, by simp only [ProjectionJournal.withClaim]; omega, heq⟩
    · rcases withClaim_batches hb with ⟨rfl, rfl⟩ | ⟨-, hb⟩
      · rfl
      · exact hinv.keyed id record hb
    · by_cases hk : key = claim.key
      · subst hk
        simp only [ProjectionJournal.withClaim, Function.update_self, Option.some.injEq] at hact
        subst hact
        exact ⟨freshRecord claim request'.files, by simp [ProjectionJournal.withClaim], rfl, rfl⟩
      · simp only [ProjectionJournal.withClaim, Function.update_of_ne hk] at hact
        obtain ⟨record, hb, hkey, hc⟩ := hinv.active key id hact
        have hne : id ≠ claim.batchId := by rw [hid]; exact hinv.ne_fresh hb
        exact ⟨record, by simp [ProjectionJournal.withClaim, Function.update_of_ne hne, hb], hkey, hc⟩
    · rcases withClaim_batches hb with ⟨rfl, rfl⟩ | ⟨-, hb⟩
      · exact lease
      · exact hinv.lease id record hb
    · rcases withClaim_batches hb with ⟨rfl, rfl⟩ | ⟨-, hb⟩
      · simp [freshRecord] at hc
      · exact hinv.stored id record hb hc
    · rcases withClaim_batches hb with ⟨rfl, rfl⟩ | ⟨-, hb⟩
      · obtain ⟨lane, hlane, -⟩ := base
        simp [ProjectionJournal.withClaim, freshRecord, hlane]
      · exact hinv.seeded id record hb
  | @recorded claim path state record batch token incomplete active =>
    refine hinv.rewrite { record with files := setFile record.files path state } batch rfl (fun hc => ?_) rfl rfl
      (fun _ h => h) hinv.laneKeyed fun key id hact => ?_
    · simp [incomplete] at hc
    · exact ⟨hact, fun _ => incomplete⟩
  | replayed => exact hinv
  | @finalized claim now record batch token incomplete active lease cut base files =>
    refine hinv.rewrite { record with complete := true, finalizedState := some claim.finalized }
      batch rfl (by simp) rfl rfl (fun key hlane => ?_)
      (fun key lane hlane => ?_) fun key id hact => ?_
    · by_cases hk : key = claim.key
      · simp [ProjectionJournal.withFinalized, hk]
      · simpa [ProjectionJournal.withFinalized, Function.update_of_ne hk] using hlane
    · by_cases hk : key = claim.key
      · subst hk
        simp only [ProjectionJournal.withFinalized, Function.update_self, Option.some.injEq] at hlane
        rw [← hlane]
        rfl
      · simp only [ProjectionJournal.withFinalized, Function.update_of_ne hk] at hlane
        exact hinv.laneKeyed key lane hlane
    · by_cases hk : key = claim.key
      · simp [ProjectionJournal.withFinalized, hk] at hact
      · simp only [ProjectionJournal.withFinalized, Function.update_of_ne hk] at hact
        refine ⟨hact, fun hid => absurd ?_ hk⟩
        subst hid
        obtain ⟨r₁, h₁, hkey₁, -⟩ := hinv.active key _ hact
        obtain ⟨r₂, h₂, hkey₂, -⟩ := hinv.active claim.key _ active
        rw [h₁] at h₂
        cases h₂
        rw [← hkey₁, hkey₂]

theorem inv_of_run {events : List Event} {world : World}
    (h : Run (AnyStep uuid4) World.initial events world) : Inv uuid4 world.journal :=
  h.invariant (P := fun world => Inv uuid4 world.journal) (fun _ _ _ hinv hs => hinv.effect hs.effect)
    (inv_empty uuid4)

end CcbCore.Journal
