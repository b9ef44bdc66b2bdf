import CcbCore.Journal.Replay

/-!
# Which copy of a claim the reference journal trusts

`record_file_result` and `finalize_batch` find the batch by the presented claim's id
and token, and then read the rest from the *presented* claim: its lane, lease, cut,
expected base and target. The durable journal is given the id and token alone and
reads the rest from its tables. A presented claim and the recorded one are treated
alike exactly when they agree wherever the presented copy is read
(`recorded_claim_authority_iff`); `forged_target_moves_head` presents a claim with
another target, and the lane moves there.

Here callers may present any claim at all, so the worlds are those of `AnyStep`.
-/

namespace CcbCore.Journal

open Raising

variable {uuid4 : UuidSource} {journal : ProjectionJournal}

/-- Presenting `claim` is the same as presenting `claim'`: every file result and
every finalization ends alike and leaves the same journal. -/
def SameEffect (uuid4 : UuidSource) (journal : ProjectionJournal) (claim claim' : BatchClaim) : Prop :=
  (∀ path state, exec uuid4 (.recordFileResult claim path state) journal =
    exec uuid4 (.recordFileResult claim' path state) journal) ∧
  ∀ now, exec uuid4 (.finalizeBatch claim now) journal = exec uuid4 (.finalizeBatch claim' now) journal

/-- The claim names its lane's control cut. -/
def CutHolds (journal : ProjectionJournal) (claim : BatchClaim) : Prop :=
  journal.controlCuts claim.key = some (claim.controlSha, claim.topologySha)

/-- The claim names its lane's projected head. -/
def BaseHolds (journal : ProjectionJournal) (claim : BatchClaim) : Prop :=
  projectedHead journal claim.identity claim.branch = claim.expectedProjectedHead

/-- The presented claim agrees with the record wherever the presented copy is read. -/
def AgreesWhereRead (journal : ProjectionJournal) (claim : BatchClaim) (record : BatchRecord) : Prop :=
  record.complete = true ∨ journal.activeBatchByLane record.claim.key ≠ some record.claim.batchId ∨
    (claim.key = record.claim.key ∧ claim.leaseExpiresMs = record.claim.leaseExpiresMs ∧
      (CutHolds journal claim ↔ CutHolds journal record.claim) ∧
      (CutHolds journal record.claim → (BaseHolds journal claim ↔ BaseHolds journal record.claim)) ∧
      (CutHolds journal record.claim → BaseHolds journal record.claim → resolved record.files = true →
        claim.targetHead = record.claim.targetHead))

/-! ### Calls as functions of the claim -/

theorem exec_recordFileResult (claim : BatchClaim) (path : String) (state : BatchFileState) :
    exec uuid4 (.recordFileResult claim path state) journal =
      match (Journal.recordFileResult claim path state).run journal with
      | .ok _ journal' => (.returned, journal')
      | .error error journal' => (.raised error, journal') := by
  simp only [exec, Call.method, run_map]
  cases (Journal.recordFileResult claim path state).run journal <;> rfl

theorem exec_finalizeBatch (claim : BatchClaim) (now : ℤ) :
    exec uuid4 (.finalizeBatch claim now) journal =
      match (Journal.finalizeBatch claim now).run journal with
      | .ok state journal' => (.finalized state, journal')
      | .error error journal' => (.raised error, journal') := by
  simp only [exec, Call.method, run_map]
  cases (Journal.finalizeBatch claim now).run journal <;> rfl

/-- What is left of a file result once the claim is found current. -/
def recordUnderClaim (journal : ProjectionJournal) (id path : String) (state : BatchFileState)
    (record : BatchRecord) : Outcome × ProjectionJournal :=
  if record.complete then (.raised (.journalError "BATCH_ALREADY_COMPLETE"), journal)
  else
    match record.files.lookup path with
    | none => (.raised (.journalError "UNKNOWN_BATCH_FILE"), journal)
    | some existing =>
      if existing ≠ .pending ∧ existing ≠ state then
        (.raised (.journalError "BATCH_FILE_RESULT_CONFLICT"), journal)
      else
        (.returned, { journal with
          batches := Function.update journal.batches id
            (some { record with files := setFile record.files path state }) })

open Classical in
/-- What is left of a finalization once the claim is found current and within its lease. -/
noncomputable def finalizeUnderLease (journal : ProjectionJournal) (claim : BatchClaim) (record : BatchRecord) :
    Outcome × ProjectionJournal :=
  if ¬ CutHolds journal claim then (.raised (.journalError "CONTROL_CUT_CHANGED"), journal)
  else if ¬ BaseHolds journal claim then (.raised (.journalError "PROJECTED_BASE_CHANGED"), journal)
  else if ¬ resolved record.files then (.raised (.journalError "UNRESOLVED_BATCH_FILES"), journal)
  else (.finalized claim.finalized, journal.withFinalized claim record)

section Found

variable {claim : BatchClaim} {record : BatchRecord} (hrec : journal.batches claim.batchId = some record)
  (htoken : record.claim.claimToken = claim.claimToken)

include hrec htoken

omit htoken in
/-- A file result of a claim that is not current raises `STALE_CLAIM`. -/
theorem record_stale (hactive : journal.activeBatchByLane claim.key ≠ some claim.batchId)
    (hincomplete : record.complete = false) (path : String) {state : BatchFileState} (hstate : state ≠ .pending) :
    exec uuid4 (.recordFileResult claim path state) journal =
      (.raised (.journalError "STALE_CLAIM"), journal) := by
  have hrun : (recordForCurrentClaim claim).run journal = .error (.journalError "STALE_CLAIM") journal := by
    rw [run_recordForCurrentClaim, hrec]
    simp [hactive, hincomplete]
  rw [exec_recordFileResult]
  simp only [Journal.recordFileResult, hstate, if_false, EStateM.run_bind, hrun]

/-- A file result of a current claim does what the record says. -/
theorem record_current
    (hcurrent : journal.activeBatchByLane claim.key = some claim.batchId ∨ record.complete = true)
    (path : String) {state : BatchFileState} (hstate : state ≠ .pending) :
    exec uuid4 (.recordFileResult claim path state) journal =
      recordUnderClaim journal claim.batchId path state record := by
  have hrun := recordForCurrentClaim_ok.mpr ⟨rfl, hrec, htoken, hcurrent⟩
  rw [exec_recordFileResult]
  simp only [Journal.recordFileResult, hstate, if_false, EStateM.run_bind, hrun, recordUnderClaim]
  cases record.complete with
  | true => rfl
  | false =>
    simp only [Bool.false_eq_true, if_false]
    cases record.files.lookup path with
    | none => rfl
    | some existing =>
      simp only
      split_ifs <;> rfl

/-- Finalizing a complete batch returns its stored state. -/
theorem finalize_complete (hcomplete : record.complete = true) {state : ProjectionLaneState}
    (hstored : record.finalizedState = some state) {now : ℤ} (hnow : 0 ≤ now) :
    exec uuid4 (.finalizeBatch claim now) journal = (.finalized state, journal) := by
  have hrun : (Journal.finalizeBatch claim now).run journal = .ok state journal := by
    refine run_bind_ok.mpr ⟨now, _, time_ok.mpr ⟨hnow, rfl, rfl⟩, ?_⟩
    rw [run_get_bind, completedRecord_eq_some.mpr ⟨hrec, hcomplete, htoken⟩]
    simp only [hstored]
    rfl
  rw [exec_finalizeBatch, hrun]

omit htoken in
/-- Finalizing an incomplete batch by a claim that is not current raises `STALE_CLAIM`. -/
theorem finalize_stale (hactive : journal.activeBatchByLane claim.key ≠ some claim.batchId)
    (hincomplete : record.complete = false) {now : ℤ} (hnow : 0 ≤ now) :
    exec uuid4 (.finalizeBatch claim now) journal = (.raised (.journalError "STALE_CLAIM"), journal) := by
  have hrun : (recordForCurrentClaim claim).run journal = .error (.journalError "STALE_CLAIM") journal := by
    rw [run_recordForCurrentClaim, hrec]
    simp [hactive, hincomplete]
  have hdone : completedRecord journal claim = none := by
    simp [completedRecord, hrec, hincomplete]
  rw [exec_finalizeBatch]
  simp only [Journal.finalizeBatch, EStateM.run_bind, time, not_lt.mpr hnow, if_false, EStateM.run_pure,
    EStateM.run_get, hdone, hrun]

/-- Finalizing an active batch: the lease first, then cut, base and files. -/
theorem finalize_active (hactive : journal.activeBatchByLane claim.key = some claim.batchId)
    (hincomplete : record.complete = false) (hlane : journal.lanes claim.key ≠ none) {now : ℤ} (hnow : 0 ≤ now) :
    exec uuid4 (.finalizeBatch claim now) journal =
      if claim.leaseExpiresMs ≤ now then (.raised (.journalError "STALE_CLAIM"), journal)
      else finalizeUnderLease journal claim record := by
  have hrun := recordForCurrentClaim_ok.mpr ⟨rfl, hrec, htoken, .inl hactive⟩
  have hdone : completedRecord journal claim = none := by
    simp [completedRecord, hrec, hincomplete]
  obtain ⟨lane, hlane⟩ := Option.ne_none_iff_exists'.mp hlane
  have hhead : projectedHead journal claim.identity claim.branch = lane.projectedHeadSha := by
    simp [projectedHead, show (claim.identity, claim.branch) = claim.key from rfl, hlane]
  rw [exec_finalizeBatch]
  simp only [Journal.finalizeBatch, EStateM.run_bind, time, not_lt.mpr hnow, if_false, EStateM.run_pure,
    EStateM.run_get, hdone, hrun, finalizeUnderLease, CutHolds, BaseHolds, hhead, hlane]
  split_ifs <;> rfl

end Found

theorem exec_record_pending (claim : BatchClaim) (path : String) :
    exec uuid4 (.recordFileResult claim path .pending) journal =
      (.raised (.journalError "INVALID_BATCH_FILE_STATE"), journal) := by
  rw [exec_recordFileResult]
  rfl

theorem exec_finalize_negative (claim : BatchClaim) {now : ℤ} (hnow : now < 0) :
    exec uuid4 (.finalizeBatch claim now) journal =
      (.raised (.journalError "INVALID_FINALIZE_TIME"), journal) := by
  rw [exec_finalizeBatch]
  simp only [Journal.finalizeBatch, EStateM.run_bind, time, hnow, if_true]
  rfl

theorem recordUnderClaim_ne_stale (id path : String) (state : BatchFileState) {record : BatchRecord}
    (hincomplete : record.complete = false) :
    recordUnderClaim journal id path state record ≠ (.raised (.journalError "STALE_CLAIM"), journal) := by
  unfold recordUnderClaim
  rw [hincomplete]
  simp only [Bool.false_eq_true, if_false]
  split
  · simp
  · split <;> simp

theorem finalizeUnderLease_ne_stale (claim : BatchClaim) (record : BatchRecord) :
    finalizeUnderLease journal claim record ≠ (.raised (.journalError "STALE_CLAIM"), journal) := by
  unfold finalizeUnderLease
  split_ifs <;> simp

/-- Under the same lane and batch id, finalization sees of two claims only whether
cut and base hold, and the target once they do and the files are resolved. -/
theorem finalizeUnderLease_eq_iff {claim claim' : BatchClaim} {record : BatchRecord}
    (hkey : claim.key = claim'.key) (hid : claim.batchId = claim'.batchId) :
    finalizeUnderLease journal claim record = finalizeUnderLease journal claim' record ↔
      (CutHolds journal claim ↔ CutHolds journal claim') ∧
      (CutHolds journal claim' → (BaseHolds journal claim ↔ BaseHolds journal claim')) ∧
      (CutHolds journal claim' → BaseHolds journal claim' → resolved record.files = true →
        claim.targetHead = claim'.targetHead) := by
  have hlane : claim.identity = claim'.identity ∧ claim.branch = claim'.branch := by
    simpa [BatchClaim.key] using hkey
  by_cases hcut : CutHolds journal claim <;> by_cases hcut' : CutHolds journal claim'
  · by_cases hbase : BaseHolds journal claim <;> by_cases hbase' : BaseHolds journal claim'
    · by_cases hfiles : resolved record.files = true
      · by_cases htarget : claim.targetHead = claim'.targetHead
        · simp [finalizeUnderLease, hcut, hcut', hbase, hbase', hfiles, htarget, BatchClaim.finalized,
            ProjectionJournal.withFinalized, hlane, hid, hkey]
        · simp [finalizeUnderLease, hcut, hcut', hbase, hbase', hfiles, htarget, BatchClaim.finalized]
      · simp [finalizeUnderLease, hcut, hcut', hbase, hbase', hfiles]
    · by_cases hfiles : resolved record.files = true <;>
        simp [finalizeUnderLease, hcut, hcut', hbase, hbase', hfiles]
    · by_cases hfiles : resolved record.files = true <;>
        simp [finalizeUnderLease, hcut, hcut', hbase, hbase', hfiles]
    · simp [finalizeUnderLease, hcut, hcut', hbase, hbase']
  · by_cases hbase : BaseHolds journal claim <;> by_cases hfiles : resolved record.files = true <;>
      simp [finalizeUnderLease, hcut, hcut', hbase, hfiles]
  · by_cases hbase : BaseHolds journal claim' <;> by_cases hfiles : resolved record.files = true <;>
      simp [finalizeUnderLease, hcut, hcut', hbase, hfiles]
  · simp [finalizeUnderLease, hcut, hcut']

/-! ### The presented and the recorded claim -/

/-- Two leases with the same refusal after them are told apart at some time, unless
they end together and grant the same. -/
theorem lease_split {X : Type} {lease lease' : ℤ} {granted granted' refused : X} (h : granted ≠ refused)
    (h' : granted' ≠ refused) (hpos : 0 < lease') :
    (∀ now : ℤ, 0 ≤ now →
      (if lease ≤ now then refused else granted) = if lease' ≤ now then refused else granted') ↔
    lease = lease' ∧ granted = granted' := by
  constructor
  · intro hall
    rcases lt_trichotomy lease lease' with hlt | heq | hgt
    · have hnow := hall (max lease 0) (le_max_right _ _)
      rw [if_pos (le_max_left _ _), if_neg (by omega)] at hnow
      exact absurd hnow.symm h'
    · have hnow := hall 0 le_rfl
      rw [if_neg (by omega), if_neg (by omega)] at hnow
      exact ⟨heq, hnow⟩
    · have hnow := hall lease' hpos.le
      rw [if_neg (by omega), if_pos le_rfl] at hnow
      exact absurd hnow h
  · rintro ⟨rfl, rfl⟩ now -
    rfl

/-- **When the presented claim is as good as the recorded one.** In every world
reached by any calls, presenting a claim with a recorded batch's id and token has
the effects of presenting the recorded claim exactly when the two agree wherever
the presented copy is read. -/
theorem recorded_claim_authority_iff (uuid4 : UuidSource) (past : List Event) (world : World)
    (hrun : Run (AnyStep uuid4) World.initial past world) (claim : BatchClaim) (record : BatchRecord)
    (hrec : world.journal.batches claim.batchId = some record)
    (htoken : record.claim.claimToken = claim.claimToken) :
    SameEffect uuid4 world.journal claim record.claim ↔ AgreesWhereRead world.journal claim record := by
  have hinv := inv_of_run hrun
  have hid : record.claim.batchId = claim.batchId := hinv.keyed _ _ hrec
  have hrec' : world.journal.batches record.claim.batchId = some record := by rw [hid, hrec]
  have hlease := hinv.lease _ _ hrec
  have hseeded := hinv.seeded _ _ hrec
  cases hc : record.complete with
  | true =>
    refine ⟨fun _ => .inl hc, fun _ => ⟨fun path state => ?_, fun now => ?_⟩⟩
    · by_cases hstate : state = .pending
      · rw [hstate, exec_record_pending, exec_record_pending]
      · rw [record_current hrec htoken (.inr hc) path hstate,
          record_current hrec' rfl (.inr hc) path hstate, hid]
    · by_cases hnow : 0 ≤ now
      · obtain ⟨state, hstored⟩ := Option.ne_none_iff_exists'.mp (hinv.stored _ _ hrec hc)
        rw [finalize_complete hrec htoken hc hstored hnow, finalize_complete hrec' rfl hc hstored hnow]
      · rw [exec_finalize_negative _ (lt_of_not_ge hnow), exec_finalize_negative _ (lt_of_not_ge hnow)]
  | false =>
    by_cases hact' : world.journal.activeBatchByLane record.claim.key = some record.claim.batchId
    · by_cases hkey : claim.key = record.claim.key
      · -- the batch is active on the lane the presented claim names: the rest is the finalization
        have hact : world.journal.activeBatchByLane claim.key = some claim.batchId := by
          rw [hkey, ← hid, hact']
        have hrecord : ∀ path state, exec uuid4 (.recordFileResult claim path state) world.journal =
            exec uuid4 (.recordFileResult record.claim path state) world.journal := by
          intro path state
          by_cases hstate : state = .pending
          · rw [hstate, exec_record_pending, exec_record_pending]
          · rw [record_current hrec htoken (.inl hact) path hstate,
              record_current hrec' rfl (.inl hact') path hstate, hid]
        have hfinalize : (∀ now, exec uuid4 (.finalizeBatch claim now) world.journal =
            exec uuid4 (.finalizeBatch record.claim now) world.journal) ↔
            claim.leaseExpiresMs = record.claim.leaseExpiresMs ∧
              finalizeUnderLease world.journal claim record =
                finalizeUnderLease world.journal record.claim record := by
          rw [← lease_split (finalizeUnderLease_ne_stale claim record)
            (finalizeUnderLease_ne_stale record.claim record) hlease]
          refine forall_congr' fun now => ?_
          by_cases hnow : 0 ≤ now
          · rw [finalize_active hrec htoken hact hc (hkey ▸ hseeded) hnow,
              finalize_active hrec' rfl hact' hc hseeded hnow]
            simp [hnow]
          · rw [exec_finalize_negative _ (lt_of_not_ge hnow), exec_finalize_negative _ (lt_of_not_ge hnow)]
            simp [hnow]
        unfold SameEffect AgreesWhereRead
        rw [hfinalize, finalizeUnderLease_eq_iff hkey hid.symm]
        simp [hc, hact', hkey, hrecord]
      · -- the presented claim names another lane: it is refused where the recorded one is not
        have hact : world.journal.activeBatchByLane claim.key ≠ some claim.batchId := by
          intro hact
          obtain ⟨found, hfound, hfkey, -⟩ := hinv.active _ _ hact
          rw [hrec] at hfound
          cases hfound
          exact hkey hfkey.symm
        refine iff_of_false (fun hsame => ?_) (by simp [AgreesWhereRead, hc, hact', hkey])
        have hfailed := hsame.1 "" .failed
        rw [record_stale hrec hact hc "" (by decide), record_current hrec' rfl (.inl hact') "" (by decide)] at hfailed
        exact recordUnderClaim_ne_stale _ _ _ hc hfailed.symm
    · -- the batch is not active: both claims are stale
      have hact : world.journal.activeBatchByLane claim.key ≠ some claim.batchId := by
        intro hact
        obtain ⟨found, hfound, hfkey, -⟩ := hinv.active _ _ hact
        rw [hrec] at hfound
        cases hfound
        rw [← hfkey, ← hid] at hact
        exact hact' hact
      refine ⟨fun _ => .inr (.inl hact'), fun _ => ⟨fun path state => ?_, fun now => ?_⟩⟩
      · by_cases hstate : state = .pending
        · rw [hstate, exec_record_pending, exec_record_pending]
        · rw [record_stale hrec hact hc path hstate, record_stale hrec' hact' hc path hstate]
      · by_cases hnow : 0 ≤ now
        · rw [finalize_stale hrec hact hc hnow, finalize_stale hrec' hact' hc hnow]
        · rw [exec_finalize_negative _ (lt_of_not_ge hnow), exec_finalize_negative _ (lt_of_not_ge hnow)]

theorem anyRun_sampleWorld :
    Run (AnyStep .unary) World.initial (World.initial.events .unary sampleCalls) sampleWorld :=
  anyRun_play .unary _ _

/-- In the sample run another owner's copy of the claim is as good as the recorded one. -/
theorem recorded_claim_authority_sample :
    SameEffect .unary sampleWorld.journal { sampleClaim with owner := "worker-b" } sampleClaim := by
  have hrec : sampleWorld.journal.batches sampleClaim.batchId =
      some ⟨sampleClaim, [("messages/yin-0001.md", .projected)], false, none⟩ := by decide
  refine (recorded_claim_authority_iff .unary _ _ anyRun_sampleWorld
    { sampleClaim with owner := "worker-b" } _ hrec rfl).mpr ?_
  exact .inr (.inr ⟨rfl, rfl, Iff.rfl, fun _ => Iff.rfl, fun _ _ _ => rfl⟩)

/-- **A forged target moves the head.** In the sample run the recorded claim
finalizes to `a2`; a claim with the same id and token and the target `forged` is
accepted, and the lane's head becomes `forged`. -/
theorem forged_target_moves_head :
    Run (Step .unary) World.initial (World.initial.events .unary sampleCalls) sampleWorld ∧
    (sampleWorld.journal.batches sampleClaim.batchId).map (·.claim) = some sampleClaim ∧
    projectedHead (sampleWorld.after .unary (.finalizeBatch sampleClaim 1200)).journal "yin" "bus/yin-v2" =
      some "a2" ∧
    projectedHead (sampleWorld.after .unary
      (.finalizeBatch { sampleClaim with targetHead := "forged" } 1200)).journal "yin" "bus/yin-v2" =
      some "forged" ∧
    ¬ SameEffect .unary sampleWorld.journal { sampleClaim with targetHead := "forged" } sampleClaim := by
  refine ⟨run_sampleWorld, by decide, by decide, by decide, fun h => ?_⟩
  have hhead := congrArg (fun result => projectedHead result.2 "yin" "bus/yin-v2") (h.2 1200)
  revert hhead
  decide

end CcbCore.Journal
