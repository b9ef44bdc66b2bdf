import CcbCore.Journal.ReferenceInvariant

/-!
# Fencing in the reference journal

What the fence is for, over every run in which claims are presented as
`claim_batch` returned them: a lane's head moves only inside the first successful
`finalize_batch` of a batch of the lane, and then from the claim's expected base to
its target (`HeadMove`); once another batch is claimed on a lane, an earlier
unfinished claim of the lane is dead (`Superseded`); a batch moves its head once;
and a call that raises changes nothing.
-/

namespace CcbCore.Journal

variable {uuid4 : UuidSource} {journal journal' : ProjectionJournal} {event : Event} {world world' : World}

/-! ### Completion and the trace -/

/-- The batch is complete. -/
def Complete (journal : ProjectionJournal) (id : String) : Prop :=
  ∃ record, journal.batches id = some record ∧ record.complete = true

/-- A call completes the batches it finalizes, and no other. -/
theorem complete_effect (hinv : Inv uuid4 journal) (h : Effect uuid4 journal event journal') (id : String) :
    Complete journal' id ↔ Complete journal id ∨ event.Finalizes id := by
  cases h with
  | raised => simp [Complete, Event.Finalizes]
  | seeded => simp [Complete, Event.Finalizes]
  | cutSet => simp [Complete, Event.Finalizes]
  | @claimed _ request' claim made =>
    have hid : claim.batchId = uuid4.hex journal.uuids := by rw [made]; rfl
    by_cases hc : id = claim.batchId
    · subst hc
      simp [Complete, Event.Finalizes, ProjectionJournal.withClaim, freshRecord, hid, hinv.fresh]
    · simp [Complete, Event.Finalizes, ProjectionJournal.withClaim, Function.update_of_ne hc]
  | @recorded claim _ _ record batch token incomplete =>
    by_cases hc : id = claim.batchId
    · subst hc
      simp [Complete, Event.Finalizes, batch, incomplete]
    · simp [Complete, Event.Finalizes, Function.update_of_ne hc]
  | @replayed claim now record state batch token complete stored =>
    constructor
    · exact .inl
    · rintro (hc | ⟨claim', now', state', rfl, heq⟩)
      · exact hc
      · cases heq
        exact ⟨record, batch, complete⟩
  | @finalized claim now record batch token incomplete =>
    by_cases hc : id = claim.batchId
    · subst hc
      constructor
      · exact fun _ => .inr ⟨claim, now, _, rfl, rfl⟩
      · exact fun _ => ⟨_, Function.update_self .., rfl⟩
    · simp [Complete, Event.Finalizes, ProjectionJournal.withFinalized, Function.update_of_ne hc, Ne.symm hc]

/-- A batch is complete exactly when some call of the run has finalized it. -/
theorem complete_iff_finalized {events : List Event}
    (h : Run (AnyStep uuid4) World.initial events world) (id : String) :
    Complete world.journal id ↔ ∃ event ∈ events, event.Finalizes id := by
  induction h with
  | nil => simp [Complete, World.initial, ProjectionJournal.empty]
  | snoc hrun hstep ih =>
    rw [complete_effect (inv_of_run hrun) hstep.effect, ih]
    simp [or_and_right, exists_or]

/-! ### Issued claims -/

/-- What holds when claims are presented as they were returned. -/
structure Issued (world : World) : Prop where
  /-- The record of an issued claim keeps the claim. -/
  recorded : ∀ claim ∈ world.issued, ∃ record,
    world.journal.batches claim.batchId = some record ∧ record.claim = claim
  /-- A complete batch stores the lane state its claim asks for. -/
  stored : ∀ id record, world.journal.batches id = some record → record.complete = true →
    record.finalizedState = some record.claim.finalized

/-- A call keeps every record's claim. -/
theorem claim_effect (hinv : Inv uuid4 journal) (h : Effect uuid4 journal event journal') {id : String}
    {record : BatchRecord} (hrec : journal.batches id = some record) :
    ∃ record', journal'.batches id = some record' ∧ record'.claim = record.claim := by
  cases h with
  | raised => exact ⟨record, hrec, rfl⟩
  | seeded => exact ⟨record, hrec, rfl⟩
  | cutSet => exact ⟨record, hrec, rfl⟩
  | @claimed _ request' claim made =>
    have hne : id ≠ claim.batchId := by
      rw [made]
      exact hinv.ne_fresh hrec
    exact ⟨record, by simp [ProjectionJournal.withClaim, Function.update_of_ne hne, hrec], rfl⟩
  | @recorded claim _ _ found batch =>
    by_cases hid : id = claim.batchId
    · subst hid
      rw [hrec] at batch
      cases batch
      exact ⟨_, Function.update_self .., rfl⟩
    · exact ⟨record, by simp [Function.update_of_ne hid, hrec], rfl⟩
  | replayed => exact ⟨record, hrec, rfl⟩
  | @finalized claim now found batch =>
    by_cases hid : id = claim.batchId
    · subst hid
      rw [hrec] at batch
      cases batch
      exact ⟨_, Function.update_self .., rfl⟩
    · exact ⟨record, by simp [ProjectionJournal.withFinalized, Function.update_of_ne hid, hrec], rfl⟩

theorem Issued.step (hinv : Inv uuid4 world.journal) (hissued : Issued world)
    (h : Step uuid4 world event world') : Issued world' := by
  refine ⟨fun claim hc => ?_, fun id record hrec hcomplete => ?_⟩
  · rw [h.1.2, List.mem_append] at hc
    rcases hc with hc | hc
    · obtain ⟨record, hrec, rfl⟩ := hissued.recorded claim hc
      exact claim_effect hinv h.effect hrec
    · -- the claim was handed out by this very call
      generalize hj : world'.journal = journal' at h ⊢
      have heff := h.effect
      rw [hj] at heff
      cases heff with
      | @claimed request request' made _ _ _ _ =>
        simp only [Outcome.issued, List.mem_singleton] at hc
        subst hc
        exact ⟨freshRecord claim request'.files, by simp [ProjectionJournal.withClaim], rfl⟩
      | _ => simp [Outcome.issued] at hc
  · have hpresented := h.2
    have heff := h.effect
    generalize world'.journal = journal' at heff hrec
    cases heff with
    | raised => exact hissued.stored id record hrec hcomplete
    | seeded => exact hissued.stored id record hrec hcomplete
    | cutSet => exact hissued.stored id record hrec hcomplete
    | claimed =>
      rcases withClaim_batches hrec with ⟨-, rfl⟩ | ⟨-, hrec⟩
      · simp [freshRecord] at hcomplete
      · exact hissued.stored id record hrec hcomplete
    | recorded batch token incomplete =>
      rcases update_batches hrec with ⟨-, rfl⟩ | ⟨-, hrec⟩
      · simp [incomplete] at hcomplete
      · exact hissued.stored id record hrec hcomplete
    | replayed => exact hissued.stored id record hrec hcomplete
    | @finalized claim now found batch =>
      rcases update_batches hrec with ⟨-, rfl⟩ | ⟨-, hrec⟩
      · obtain ⟨kept, hkept, hclaim⟩ := hissued.recorded claim (hpresented claim (by simp [Call.presented]))
        rw [batch] at hkept
        cases hkept
        simp [hclaim]
      · exact hissued.stored id record hrec hcomplete

/-- A run in which claims are presented as returned keeps both invariants. -/
theorem issued_of_run {events : List Event} (h : Run (Step uuid4) World.initial events world) :
    Inv uuid4 world.journal ∧ Issued world := by
  refine h.invariant (P := fun world => Inv uuid4 world.journal ∧ Issued world) (fun s e t hs hst => ?_) ?_
  · exact ⟨hs.1.effect hst.effect, hs.2.step hs.1 hst⟩
  · exact ⟨inv_empty uuid4, by simp [World.initial], by simp [World.initial, ProjectionJournal.empty]⟩

/-- The record a presented claim finds is its own. -/
theorem Issued.own_record (hissued : Issued world) (h : Step uuid4 world event world') {claim : BatchClaim}
    {record : BatchRecord} (hpresented : claim ∈ event.call.presented)
    (hrec : world.journal.batches claim.batchId = some record) : record.claim = claim := by
  obtain ⟨kept, hkept, hclaim⟩ := hissued.recorded claim (h.2 claim hpresented)
  rw [hrec] at hkept
  cases hkept
  exact hclaim

/-! ### Superseded claims -/

/-- The claim's batch is unfinished and no longer its lane's active batch. -/
def Superseded (journal : ProjectionJournal) (claim : BatchClaim) : Prop :=
  ∃ record, journal.batches claim.batchId = some record ∧ record.claim = claim ∧
    record.complete = false ∧ journal.activeBatchByLane claim.key ≠ some claim.batchId

/-- A superseded batch is active on no lane. -/
theorem Superseded.not_active (hinv : Inv uuid4 journal) {claim : BatchClaim} (h : Superseded journal claim)
    (key : LaneKey) : journal.activeBatchByLane key ≠ some claim.batchId := by
  intro hact
  obtain ⟨record, hrec, hclaim, -, hnot⟩ := h
  obtain ⟨found, hfound, hkey, -⟩ := hinv.active key _ hact
  rw [hrec] at hfound
  cases hfound
  rw [hclaim] at hkey
  exact hnot (hkey ▸ hact)

/-- Claiming another batch on its lane supersedes an unfinished claim. -/
theorem superseded_of_claimed (hinv : Inv uuid4 journal) {claim claim' : BatchClaim} {request : ClaimRequest}
    {record : BatchRecord} (hrec : journal.batches claim.batchId = some record) (hclaim : record.claim = claim)
    (hincomplete : record.complete = false) (hkey : claim'.key = claim.key)
    (h : Effect uuid4 journal ⟨.claimBatch request, .claimed claim'⟩ journal') :
    Superseded journal' claim := by
  cases h with
  | @claimed _ request' _ made =>
    have hne : claim.batchId ≠ claim'.batchId := by
      rw [made]
      exact hinv.ne_fresh hrec
    refine ⟨record, ?_, hclaim, hincomplete, ?_⟩
    · simp [ProjectionJournal.withClaim, Function.update_of_ne hne, hrec]
    · simp [ProjectionJournal.withClaim, hkey, Ne.symm hne]

/-- Nothing revives a superseded claim. -/
theorem Superseded.effect (hinv : Inv uuid4 journal) {claim : BatchClaim} (hs : Superseded journal claim)
    (h : Effect uuid4 journal event journal') : Superseded journal' claim := by
  have hnowhere := hs.not_active hinv
  obtain ⟨record, hrec, hclaim, hincomplete, hnot⟩ := hs
  cases h with
  | raised => exact ⟨record, hrec, hclaim, hincomplete, hnot⟩
  | seeded => exact ⟨record, hrec, hclaim, hincomplete, hnot⟩
  | cutSet => exact ⟨record, hrec, hclaim, hincomplete, hnot⟩
  | @claimed _ request' claim' made =>
    have hne : claim.batchId ≠ claim'.batchId := by
      rw [made]
      exact hinv.ne_fresh hrec
    refine ⟨record, ?_, hclaim, hincomplete, ?_⟩
    · simp [ProjectionJournal.withClaim, Function.update_of_ne hne, hrec]
    · by_cases hk : claim.key = claim'.key
      · simp [ProjectionJournal.withClaim, hk, Ne.symm hne]
      · simpa [ProjectionJournal.withClaim, Function.update_of_ne hk] using hnot
  | @recorded claim' _ _ found batch token incomplete active =>
    have hne : claim.batchId ≠ claim'.batchId := fun heq => hnowhere claim'.key (heq ▸ active)
    exact ⟨record, by simp [Function.update_of_ne hne, hrec], hclaim, hincomplete, hnot⟩
  | replayed => exact ⟨record, hrec, hclaim, hincomplete, hnot⟩
  | @finalized claim' now found batch token incomplete active =>
    have hne : claim.batchId ≠ claim'.batchId := fun heq => hnowhere claim'.key (heq ▸ active)
    refine ⟨record, by simp [ProjectionJournal.withFinalized, Function.update_of_ne hne, hrec], hclaim,
      hincomplete, ?_⟩
    by_cases hk : claim.key = claim'.key
    · simp [ProjectionJournal.withFinalized, hk]
    · simpa [ProjectionJournal.withFinalized, Function.update_of_ne hk] using hnot

/-- A call that presents a superseded claim raises. -/
theorem Superseded.raises (hinv : Inv uuid4 journal) {claim : BatchClaim} (hs : Superseded journal claim)
    (hpresented : claim ∈ event.call.presented) (h : Effect uuid4 journal event journal') :
    ∃ error, event.outcome = .raised error := by
  have hnowhere := hs.not_active hinv
  obtain ⟨record, hrec, -, hincomplete, -⟩ := hs
  cases h with
  | raised => exact ⟨_, rfl⟩
  | seeded => simp [Call.presented] at hpresented
  | cutSet => simp [Call.presented] at hpresented
  | claimed => simp [Call.presented] at hpresented
  | recorded batch token incomplete active =>
    obtain rfl := by simpa [Call.presented] using hpresented
    exact absurd active (hnowhere _)
  | replayed batch token complete =>
    obtain rfl := by simpa [Call.presented] using hpresented
    rw [hrec] at batch
    cases batch
    rw [hincomplete] at complete
    cases complete
  | finalized batch token incomplete active =>
    obtain rfl := by simpa [Call.presented] using hpresented
    exact absurd active (hnowhere _)

/-! ### A run -/

/-- A request to project one file onto the head `a0`. -/
def sampleRequest : ClaimRequest where
  identity := "yin"
  branch := "bus/yin-v2"
  expectedProjectedHead := some "a0"
  targetHead := "a2"
  controlSha := "control-1"
  topologySha := "topology-1"
  files := ["messages/yin-0001.md"]
  owner := "worker-a"
  nowMs := 1000
  leaseMs := 500

/-- The claim it makes in a new journal. -/
def sampleClaim : BatchClaim := claimOf .unary sampleRequest 0

/-- A lane is seeded and given a cut, a batch is claimed, and its file projected. -/
def sampleCalls : List Call :=
  [.seedLaneState "yin" "bus/yin-v2" (some "a0"),
    .setControlCut "yin" "bus/yin-v2" "control-1" "topology-1",
    .claimBatch sampleRequest,
    .recordFileResult sampleClaim "messages/yin-0001.md" .projected]

/-- The world after `sampleCalls`. -/
def sampleWorld : World := World.initial.play .unary sampleCalls

theorem run_sampleWorld :
    Run (Step .unary) World.initial (World.initial.events .unary sampleCalls) sampleWorld :=
  run_play .unary _ _ (by decide)

/-! ### Moving a head -/

/-- What a call that moves a lane's head is: the first successful finalization of a
batch of the lane, from the claim's expected base to its target, with every file
resolved, under the claim's cut and within its lease. -/
def HeadMove (past : List Event) (journal : ProjectionJournal) (event : Event) (key : LaneKey)
    (base target : Option String) : Prop :=
  ∃ claim now record, event = ⟨.finalizeBatch claim now, .finalized claim.finalized⟩ ∧
    claim.key = key ∧ base = claim.expectedProjectedHead ∧ target = some claim.targetHead ∧
    journal.batches claim.batchId = some record ∧ record.claim = claim ∧
    (∀ file ∈ record.files, file.2 = .projected ∨ file.2 = .idempotent) ∧
    journal.controlCuts key = some (claim.controlSha, claim.topologySha) ∧
    now < claim.leaseExpiresMs ∧ ∀ earlier ∈ past, ¬ earlier.Finalizes claim.batchId

theorem resolved_iff (files : List (String × BatchFileState)) :
    resolved files = true ↔ ∀ file ∈ files, file.2 = .projected ∨ file.2 = .idempotent := by
  simp [resolved, terminalSuccess]

/-- A seeded lane stays seeded, and its head changes only by a `HeadMove`. -/
theorem head_changes_only_by_move {past : List Event} (hrun : Run (Step uuid4) World.initial past world)
    (h : Step uuid4 world event world') {key : LaneKey} {lane : ProjectionLaneState}
    (hlane : world.journal.lanes key = some lane) :
    ∃ lane', world'.journal.lanes key = some lane' ∧ (lane'.projectedHeadSha ≠ lane.projectedHeadSha →
      HeadMove past world.journal event key lane.projectedHeadSha lane'.projectedHeadSha) := by
  obtain ⟨hinv, hissued⟩ := issued_of_run hrun
  have hcomplete := complete_iff_finalized (hrun.mono fun _ _ _ hs => hs.1)
  have heff := h.effect
  generalize world'.journal = journal' at heff
  cases heff with
  | raised => exact ⟨lane, hlane, fun hne => absurd rfl hne⟩
  | @seeded _ _ _ key' head' same =>
    by_cases hk : key = key'
    · subst hk
      exact ⟨_, Function.update_self .., fun hne => absurd (same lane hlane).symm hne⟩
    · exact ⟨lane, by simp [Function.update_of_ne hk, hlane], fun hne => absurd rfl hne⟩
  | cutSet => exact ⟨lane, hlane, fun hne => absurd rfl hne⟩
  | claimed => exact ⟨lane, hlane, fun hne => absurd rfl hne⟩
  | recorded => exact ⟨lane, hlane, fun hne => absurd rfl hne⟩
  | replayed => exact ⟨lane, hlane, fun hne => absurd rfl hne⟩
  | @finalized claim now record batch token incomplete active lease cut base files =>
    by_cases hk : key = claim.key
    · subst hk
      refine ⟨claim.finalized, by simp [ProjectionJournal.withFinalized], fun _ => ?_⟩
      obtain ⟨_, hlane', hbase⟩ := base
      rw [hlane] at hlane'
      cases hlane'
      refine ⟨claim, now, record, rfl, rfl, hbase, rfl, batch, hissued.own_record h (by simp [Call.presented]) batch,
        (resolved_iff _).mp files, cut, lease, fun earlier he hfin => ?_⟩
      obtain ⟨found, hfound, hc⟩ := (hcomplete claim.batchId).mpr ⟨earlier, he, hfin⟩
      rw [batch] at hfound
      cases hfound
      rw [incomplete] at hc
      cases hc
    · exact ⟨lane, by simp [ProjectionJournal.withFinalized, Function.update_of_ne hk, hlane],
        fun hne => absurd rfl hne⟩

/-- Finalizing a batch that is complete moves no head. -/
theorem Complete.finalize_keeps {claim : BatchClaim} {now : ℤ} {outcome : Outcome}
    (hc : Complete journal claim.batchId)
    (h : Effect uuid4 journal ⟨.finalizeBatch claim now, outcome⟩ journal') : journal' = journal := by
  obtain ⟨record, hrec, hcomplete⟩ := hc
  cases h with
  | raised => rfl
  | replayed => rfl
  | finalized batch token incomplete =>
    rw [hrec] at batch
    cases batch
    rw [hcomplete] at incomplete
    cases incomplete

/-- **The projection journal is fenced.** Over every run of the journal in which
claims are presented as `claim_batch` returned them: a seeded lane's head changes
only by a `HeadMove`; once another batch is claimed on a lane, every call that
presents an earlier unfinished claim of the lane raises; after a batch is first
finalized, finalizing it again changes nothing; and a call that raises changes
nothing. -/
theorem projectionJournal_fenced (uuid4 : UuidSource) (past : List Event) (world : World)
    (hrun : Run (Step uuid4) World.initial past world) :
    (∀ event world', Step uuid4 world event world' → ∀ key lane, world.journal.lanes key = some lane →
      ∃ lane', world'.journal.lanes key = some lane' ∧ (lane'.projectedHeadSha ≠ lane.projectedHeadSha →
        HeadMove past world.journal event key lane.projectedHeadSha lane'.projectedHeadSha)) ∧
    (∀ request claim world', Step uuid4 world ⟨.claimBatch request, .claimed claim⟩ world' →
      ∀ earlier ∈ world.issued, earlier.key = claim.key →
        (∀ event ∈ past, ¬ event.Finalizes earlier.batchId) →
        ∀ between later, Run (Step uuid4) world' between later → ∀ event later', Step uuid4 later event later' →
          event.call.presented = some earlier → ∃ error, event.outcome = .raised error) ∧
    (∀ claim now state world', Step uuid4 world ⟨.finalizeBatch claim now, .finalized state⟩ world' →
      ∀ between later, Run (Step uuid4) world' between later → ∀ again now' outcome later',
        again.batchId = claim.batchId → Step uuid4 later ⟨.finalizeBatch again now', outcome⟩ later' →
        later'.journal = later.journal) ∧
    (∀ event world' error, Step uuid4 world event world' → event.outcome = .raised error →
      world'.journal = world.journal) := by
  obtain ⟨hinv, hissued⟩ := issued_of_run hrun
  refine ⟨fun event world' h key lane hlane => head_changes_only_by_move hrun h hlane,
    fun request claim world' h earlier hearlier hkey hunfinished between later hbetween event later' hlast
      hpresented => ?_,
    fun claim now state world' h between later hbetween again now' outcome later' hid hlast => ?_,
    fun event world' error h hraised => ?_⟩
  · obtain ⟨record, hrec, hclaim⟩ := hissued.recorded earlier hearlier
    have hincomplete : record.complete = false := by
      cases hc : record.complete with
      | false => rfl
      | true =>
        obtain ⟨event, he, hfin⟩ :=
          (complete_iff_finalized (hrun.mono fun _ _ _ hs => hs.1) earlier.batchId).mp ⟨record, hrec, hc⟩
        exact absurd hfin (hunfinished event he)
    have hsup : Inv uuid4 later.journal ∧ Superseded later.journal earlier := by
      refine hbetween.invariant
        (P := fun world => Inv uuid4 world.journal ∧ Superseded world.journal earlier)
        (fun s e t hs hst => ⟨hs.1.effect hst.effect, hs.2.effect hs.1 hst.effect⟩) ?_
      exact ⟨hinv.effect h.effect, superseded_of_claimed hinv hrec hclaim hincomplete hkey.symm h.effect⟩
    exact hsup.2.raises hsup.1 hpresented hlast.effect
  · have hdone : Inv uuid4 later.journal ∧ Complete later.journal claim.batchId := by
      refine hbetween.invariant
        (P := fun world => Inv uuid4 world.journal ∧ Complete world.journal claim.batchId)
        (fun s e t hs hst => ⟨hs.1.effect hst.effect, (complete_effect hs.1 hst.effect _).mpr (.inl hs.2)⟩) ?_
      exact ⟨hinv.effect h.effect,
        (complete_effect hinv h.effect _).mpr (.inr ⟨claim, now, state, rfl, rfl⟩)⟩
    rw [← hid] at hdone
    exact hdone.2.finalize_keeps hlast.effect
  · have heff := h.effect
    obtain ⟨call, outcome⟩ := event
    simp only at hraised
    subst hraised
    generalize world'.journal = journal' at heff
    cases heff
    rfl

/-- In the sample run, finalizing the claim moves the head from `a0` to `a2`. -/
theorem projectionJournal_fenced_sample :
    HeadMove (World.initial.events .unary sampleCalls) sampleWorld.journal
      (sampleWorld.event .unary (.finalizeBatch sampleClaim 1200)) ("yin", "bus/yin-v2")
      (some "a0") (some "a2") := by
  obtain ⟨lane', hlane', hmove⟩ := (projectionJournal_fenced .unary _ _ run_sampleWorld).1
    _ _ ⟨anyStep_after .unary _ (.finalizeBatch sampleClaim 1200), by decide⟩ ("yin", "bus/yin-v2")
    ⟨"yin", "bus/yin-v2", some "a0"⟩ (by decide)
  obtain rfl : ⟨"yin", "bus/yin-v2", some "a2"⟩ = lane' := Option.some.inj hlane'
  exact hmove (by decide)

end CcbCore.Journal
