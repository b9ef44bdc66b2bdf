import CcbCore.Journal.Reference

/-!
# What a call of the reference journal does

One lemma for each method says everything a call that returns has checked and
assigned (`claimBatch_ok`, `recordFileResult_ok`, `finalizeBatch_ok` and so on);
the rest of the development uses these and does not unfold the methods. Every
method makes its checks before its assignments, so a call that raises leaves the
journal as it was (`atomic_*`).
-/

namespace CcbCore.Journal

open CcbCore Raising

variable {journal journal' : ProjectionJournal}

/-! ### The checks -/

theorem time_ok {value a : ℤ} {code : String} :
    (time value code).run journal = .ok a journal' ↔ 0 ≤ value ∧ a = value ∧ journal' = journal := by
  simp only [time, fail, run_guard_ok, run_pure_ok]
  rw [not_lt]

theorem readOnly_fail {α : Type} (code : String) : ReadOnly (fail code : Method α) :=
  ReadOnly.throw _

theorem readOnly_text (value code : String) : ReadOnly (text value code) :=
  (readOnly_fail code).ite (ReadOnly.pure _)

theorem readOnly_time (value : ℤ) (code : String) : ReadOnly (time value code) :=
  (readOnly_fail code).ite (ReadOnly.pure _)

theorem readOnly_optionalText (value : Option String) (code : String) :
    ReadOnly (optionalText value code) := by
  cases value with
  | none => exact ReadOnly.pure _
  | some value => exact (readOnly_text value code).map _

theorem readOnly_checkClaimRequest (request : ClaimRequest) :
    ReadOnly (checkClaimRequest request) := by
  unfold checkClaimRequest
  refine (readOnly_text _ _).bind fun _ => (readOnly_text _ _).bind fun _ => (readOnly_text _ _).bind fun _ =>
    (readOnly_text _ _).bind fun _ => (readOnly_text _ _).bind fun _ => (readOnly_text _ _).bind fun _ =>
    (readOnly_time _ _).bind fun _ => (readOnly_time _ _).bind fun _ => (readOnly_fail _).ite ?_
  exact (readOnly_optionalText _ _).bind fun _ =>
    (readOnly_fail _).ite ((readOnly_fail _).ite (ReadOnly.pure _))

/-- What a checked request is sure of. -/
theorem checkClaimRequest_ok {request request' : ClaimRequest}
    (h : (checkClaimRequest request).run journal = .ok request' journal') :
    journal' = journal ∧ 0 ≤ request'.nowMs ∧ 0 < request'.leaseMs ∧ request'.files.Nodup ∧
      "" ∉ request'.files ∧ request'.files = request.files ∧ request'.nowMs = request.nowMs ∧
      request'.leaseMs = request.leaseMs := by
  have hj := (readOnly_checkClaimRequest request).state_eq h
  simp only [checkClaimRequest, fail, run_bind_ok, run_guard_ok, run_pure_ok, time_ok] at h
  obtain ⟨_, _, -, _, _, -, _, _, -, _, _, -, _, _, -, _, _, -, now, _, ⟨hnow, rfl, -⟩, lease, _,
    ⟨-, rfl, -⟩, hlease, _, _, -, hempty, hnodup, rfl, -⟩ := h
  exact ⟨hj, hnow, lt_of_not_ge hlease, by simpa using hnodup, hempty, rfl, rfl, rfl⟩

theorem readOnly_refuseIfBusy (key : LaneKey) (now : ℤ) : ReadOnly (refuseIfBusy key now) := by
  refine ReadOnly.get.bind fun journal => ?_
  split
  · exact ReadOnly.pure _
  · split
    · exact ReadOnly.throw _
    · exact (readOnly_fail _).ite (ReadOnly.pure _)

/-- A lane that is not busy has no active batch, or one that is complete or expired. -/
theorem refuseIfBusy_ok {key : LaneKey} {now : ℤ} {u : Unit}
    (h : (refuseIfBusy key now).run journal = .ok u journal') :
    ∀ id, journal.activeBatchByLane key = some id →
      ∃ record, journal.batches id = some record ∧
        (record.complete = true ∨ record.claim.leaseExpiresMs ≤ now) := by
  intro id hid
  simp only [refuseIfBusy, fail, run_get_bind, hid] at h
  cases hrec : journal.batches id with
  | none => rw [hrec] at h; simp at h
  | some record =>
    simp only [hrec, run_guard_ok, not_and, not_lt] at h
    refine ⟨record, rfl, ?_⟩
    cases hc : record.complete with
    | true => exact .inl rfl
    | false => exact .inr (h.1 hc)

theorem readOnly_recordForCurrentClaim (claim : BatchClaim) :
    ReadOnly (recordForCurrentClaim claim) := by
  refine ReadOnly.get.bind fun journal => ?_
  split
  · exact readOnly_fail _
  · exact (readOnly_fail _).ite (ReadOnly.ite ((ReadOnly.pure _).ite (readOnly_fail _)) (ReadOnly.pure _))

/-- What `_record_for_current_claim` does, by cases on the record. -/
theorem run_recordForCurrentClaim (claim : BatchClaim) :
    (recordForCurrentClaim claim).run journal =
      match journal.batches claim.batchId with
      | none => .error (.journalError "STALE_CLAIM") journal
      | some record =>
        if record.claim.claimToken = claim.claimToken ∧
            (journal.activeBatchByLane claim.key = some claim.batchId ∨ record.complete = true) then
          .ok record journal
        else .error (.journalError "STALE_CLAIM") journal := by
  simp only [recordForCurrentClaim, fail, run_get_bind]
  cases journal.batches claim.batchId with
  | none => rfl
  | some record =>
    by_cases htoken : record.claim.claimToken = claim.claimToken <;>
      by_cases hactive : journal.activeBatchByLane claim.key = some claim.batchId <;>
      by_cases hcomplete : record.complete = true <;>
      simp [htoken, hactive, hcomplete]

/-- The record of a current claim: its token matches, and its batch is the active
one of the lane the claim names, or complete. -/
theorem recordForCurrentClaim_ok {claim : BatchClaim} {record : BatchRecord} :
    (recordForCurrentClaim claim).run journal = .ok record journal' ↔
      journal' = journal ∧ journal.batches claim.batchId = some record ∧
        record.claim.claimToken = claim.claimToken ∧
        (journal.activeBatchByLane claim.key = some claim.batchId ∨ record.complete = true) := by
  rw [run_recordForCurrentClaim]
  cases hrec : journal.batches claim.batchId with
  | none => simp
  | some found =>
    simp only
    split_ifs with hcur
    · constructor
      · intro h
        cases h
        exact ⟨rfl, rfl, hcur⟩
      · rintro ⟨rfl, hfound, -⟩
        cases hfound
        rfl
    · constructor
      · intro h
        cases h
      · rintro ⟨-, hfound, h⟩
        cases hfound
        exact absurd h hcur

theorem completedRecord_eq_some {claim : BatchClaim} {record : BatchRecord} :
    completedRecord journal claim = some record ↔
      journal.batches claim.batchId = some record ∧ record.complete = true ∧
        record.claim.claimToken = claim.claimToken := by
  simp [completedRecord, Option.filter_eq_some_iff]

/-! ### The methods -/

theorem seedLaneState_ok {identity branch : String} {head : Option String} {u : Unit}
    (h : (seedLaneState identity branch head).run journal = .ok u journal') :
    ∃ (key : LaneKey) (head' : Option String),
      (∀ lane, journal.lanes key = some lane → lane.projectedHeadSha = head') ∧
      journal' = { journal with
        lanes := Function.update journal.lanes key (some ⟨key.1, key.2, head'⟩) } := by
  simp only [seedLaneState, fail, run_bind_ok, run_get_bind, run_guard_ok, run_set_ok] at h
  obtain ⟨identity, _, hi, branch, _, hb, head', _, hh, hseeded, rfl⟩ := h
  obtain rfl := (readOnly_text _ _).state_eq hi
  obtain rfl := (readOnly_text _ _).state_eq hb
  obtain rfl := (readOnly_optionalText _ _).state_eq hh
  refine ⟨(identity, branch), head', fun lane hlane => ?_, rfl⟩
  simpa [hlane] using hseeded

theorem setControlCut_ok {identity branch control topology : String} {u : Unit}
    (h : (setControlCut identity branch control topology).run journal = .ok u journal') :
    ∃ (key : LaneKey) (cut : String × String), journal.lanes key ≠ none ∧
      journal' = { journal with
        controlCuts := Function.update journal.controlCuts key (some cut) } := by
  simp only [setControlCut, fail, run_bind_ok, run_get_bind, run_guard_ok, run_set_ok] at h
  obtain ⟨identity, _, hi, branch, _, hb, control, _, hc, topology, _, ht, hlane, rfl⟩ := h
  obtain rfl := (readOnly_text _ _).state_eq hi
  obtain rfl := (readOnly_text _ _).state_eq hb
  obtain rfl := (readOnly_text _ _).state_eq hc
  obtain rfl := (readOnly_text _ _).state_eq ht
  exact ⟨(identity, branch), (control, topology), by simpa using hlane, rfl⟩

/-- A claim returned: the lane stands at the expected base under the claim's cut, no
other batch holds it, and the claim is recorded and made active. -/
theorem claimBatch_ok {uuid4 : UuidSource} {request : ClaimRequest} {claim : BatchClaim}
    (h : (claimBatch uuid4 request).run journal = .ok claim journal') :
    ∃ request' : ClaimRequest,
      claim = claimOf uuid4 request' journal.uuids ∧
      journal' = journal.withClaim claim request'.files ∧
      (∃ lane, journal.lanes claim.key = some lane ∧
        lane.projectedHeadSha = claim.expectedProjectedHead) ∧
      journal.controlCuts claim.key = some (claim.controlSha, claim.topologySha) ∧
      (∀ id, journal.activeBatchByLane claim.key = some id →
        ∃ record, journal.batches id = some record ∧
          (record.complete = true ∨ record.claim.leaseExpiresMs ≤ request.nowMs)) ∧
      0 < claim.leaseExpiresMs ∧ request'.files.Nodup := by
  obtain ⟨request', _, hcheck, hlocked⟩ := run_bind_ok.mp h
  obtain ⟨hsame, hnow, hlease, hnodup, -, -, hnow', -⟩ := checkClaimRequest_ok hcheck
  rw [hsame, run_get_bind] at hlocked
  cases hlane : journal.lanes (request'.identity, request'.branch) with
  | none => simp [hlane, fail] at hlocked
  | some lane =>
    simp only [hlane, fail, run_guard_ok, run_bind_ok, run_set_ok, run_pure_ok, not_not] at hlocked
    obtain ⟨hbase, hcut, _, middle, hbusy, _, _, rfl, rfl, rfl⟩ := hlocked
    refine ⟨request', rfl, rfl, ⟨lane, hlane, hbase⟩, hcut, ?_, ?_, hnodup⟩
    · rw [← hnow']
      exact refuseIfBusy_ok hbusy
    · simp only [claimOf]
      omega

/-- A result recorded: the claim is current, its batch incomplete, the path one of
the batch's, and its result new or the same. -/
theorem recordFileResult_ok {claim : BatchClaim} {path : String} {state : BatchFileState} {u : Unit} :
    (recordFileResult claim path state).run journal = .ok u journal' ↔
      state ≠ .pending ∧ ∃ record, journal.batches claim.batchId = some record ∧
        record.claim.claimToken = claim.claimToken ∧ record.complete = false ∧
        journal.activeBatchByLane claim.key = some claim.batchId ∧
        (∃ existing, record.files.lookup path = some existing ∧ (existing = .pending ∨ existing = state)) ∧
        journal' = { journal with
          batches := Function.update journal.batches claim.batchId
            (some { record with files := setFile record.files path state }) } := by
  simp only [recordFileResult, fail, run_guard_ok, run_bind_ok]
  constructor
  · rintro ⟨hstate, record, _, hrec, hcomplete, h⟩
    obtain ⟨rfl, hbatch, htoken, hactive⟩ := recordForCurrentClaim_ok.mp hrec
    refine ⟨hstate, record, hbatch, htoken, by simpa using hcomplete, by tauto, ?_⟩
    cases hfile : record.files.lookup path with
    | none => simp [hfile] at h
    | some existing =>
      simp only [hfile, run_guard_ok, run_modify_ok] at h
      exact ⟨⟨existing, rfl, by tauto⟩, h.2⟩
  · rintro ⟨hstate, record, hbatch, htoken, hcomplete, hactive, ⟨existing, hfile, hresult⟩, rfl⟩
    refine ⟨hstate, record, journal, recordForCurrentClaim_ok.mpr ⟨rfl, hbatch, htoken, .inl hactive⟩, by simp [hcomplete], ?_⟩
    simp only [hfile, run_guard_ok, run_modify_ok]
    exact ⟨by tauto, trivial⟩

/-- A batch finalized: either it was complete already and its stored state is
returned, or it is active, under its lease, cut and base with every file resolved,
and completes now. -/
theorem finalizeBatch_ok {claim : BatchClaim} {now : ℤ} {state : ProjectionLaneState} :
    (finalizeBatch claim now).run journal = .ok state journal' ↔
      0 ≤ now ∧ ∃ record, journal.batches claim.batchId = some record ∧
        record.claim.claimToken = claim.claimToken ∧
        ((record.complete = true ∧ record.finalizedState = some state ∧ journal' = journal) ∨
         (record.complete = false ∧ journal.activeBatchByLane claim.key = some claim.batchId ∧
          now < claim.leaseExpiresMs ∧
          journal.controlCuts claim.key = some (claim.controlSha, claim.topologySha) ∧
          (∃ lane, journal.lanes claim.key = some lane ∧
            lane.projectedHeadSha = claim.expectedProjectedHead) ∧
          resolved record.files = true ∧ state = claim.finalized ∧
          journal' = journal.withFinalized claim record)) := by
  constructor
  · intro h
    obtain ⟨_, _, htime, hlocked⟩ := run_bind_ok.mp h
    obtain ⟨hnow, hnow', hsame⟩ := time_ok.mp htime
    rw [hnow', hsame, run_get_bind] at hlocked
    refine ⟨hnow, ?_⟩
    cases hdone : completedRecord journal claim with
    | some record =>
      obtain ⟨hbatch, hcomplete, htoken⟩ := completedRecord_eq_some.mp hdone
      refine ⟨record, hbatch, htoken, .inl ⟨hcomplete, ?_⟩⟩
      simp only [hdone] at hlocked
      cases hfin : record.finalizedState with
      | none => simp [hfin] at hlocked
      | some found =>
        simp only [hfin, run_pure_ok] at hlocked
        obtain ⟨rfl, rfl⟩ := hlocked
        exact ⟨rfl, rfl⟩
    | none =>
      simp only [hdone, fail, run_bind_ok, run_guard_ok, not_le, not_not] at hlocked
      obtain ⟨record, _, hrec, hlease, hcut, hlocked⟩ := hlocked
      obtain ⟨hsame, hbatch, htoken, hactive⟩ := recordForCurrentClaim_ok.mp hrec
      rw [hsame] at hlocked
      have hincomplete : record.complete = false := by
        cases hc : record.complete with
        | false => rfl
        | true =>
          rw [completedRecord_eq_some.mpr ⟨hbatch, hc, htoken⟩] at hdone
          cases hdone
      refine ⟨record, hbatch, htoken, .inr ⟨hincomplete, by simpa [hincomplete] using hactive, hlease, hcut, ?_⟩⟩
      cases hlane : journal.lanes claim.key with
      | none => simp [hlane] at hlocked
      | some lane =>
        simp only [hlane, run_guard_ok, run_bind_ok, run_set_ok, run_pure_ok, not_not] at hlocked
        obtain ⟨hbase, hres, _, _, rfl, rfl, rfl⟩ := hlocked
        exact ⟨⟨lane, rfl, hbase⟩, hres, rfl, rfl⟩
  · rintro ⟨hnow, record, hbatch, htoken, hcase⟩
    refine run_bind_ok.mpr ⟨now, journal, time_ok.mpr ⟨hnow, rfl, rfl⟩, ?_⟩
    rw [run_get_bind]
    obtain ⟨hcomplete, hstored, rfl⟩ | ⟨hincomplete, hactive, hlease, hcut, ⟨lane, hlane, hbase⟩, hres, rfl, rfl⟩ := hcase
    · simp only [completedRecord_eq_some.mpr ⟨hbatch, hcomplete, htoken⟩, hstored, run_pure_ok]
      exact ⟨trivial, trivial⟩
    · have hdone : completedRecord journal claim = none := by
        refine Option.eq_none_iff_forall_ne_some.mpr fun record' hsome => ?_
        obtain ⟨hbatch', hcomplete, -⟩ := completedRecord_eq_some.mp hsome
        obtain rfl := Option.some.inj (hbatch.symm.trans hbatch')
        rw [hincomplete] at hcomplete
        cases hcomplete
      simp only [hdone, fail, run_bind_ok, run_guard_ok, not_le, not_not]
      refine ⟨record, journal, recordForCurrentClaim_ok.mpr ⟨rfl, hbatch, htoken, .inl hactive⟩, hlease, hcut, ?_⟩
      simp only [hlane, run_guard_ok, run_bind_ok, run_set_ok, run_pure_ok, not_not]
      exact ⟨hbase, hres, ⟨⟩, _, rfl, trivial, rfl⟩

/-! ### Raising changes nothing -/

theorem atomic_fail {α : Type} (code : String) : Atomic (fail code : Method α) :=
  .of_readOnly (readOnly_fail code)

theorem atomic_seedLaneState (identity branch : String) (head : Option String) :
    Atomic (seedLaneState identity branch head) :=
  .bind_left (readOnly_text _ _) fun _ => .bind_left (readOnly_text _ _) fun _ =>
    .bind_left (readOnly_optionalText _ _) fun _ => .bind_left .get fun _ =>
      (atomic_fail _).ite (.of_total (.set _))

theorem atomic_setControlCut (identity branch control topology : String) :
    Atomic (setControlCut identity branch control topology) :=
  .bind_left (readOnly_text _ _) fun _ => .bind_left (readOnly_text _ _) fun _ =>
    .bind_left (readOnly_text _ _) fun _ => .bind_left (readOnly_text _ _) fun _ =>
      .bind_left .get fun _ => (atomic_fail _).ite (.of_total (.set _))

theorem atomic_claimBatch (uuid4 : UuidSource) (request : ClaimRequest) :
    Atomic (claimBatch uuid4 request) := by
  refine .bind_left (readOnly_checkClaimRequest _) fun request => .bind_left .get fun journal => ?_
  split
  · exact atomic_fail _
  · refine (atomic_fail _).ite ((atomic_fail _).ite (.bind_left (readOnly_refuseIfBusy _ _) fun _ => ?_))
    exact .of_total ((Total.set _).bind fun _ => .pure _)

theorem atomic_recordFileResult (claim : BatchClaim) (path : String) (state : BatchFileState) :
    Atomic (recordFileResult claim path state) := by
  refine (atomic_fail _).ite (.bind_left (readOnly_recordForCurrentClaim _) fun record =>
    (atomic_fail _).ite ?_)
  split
  · exact atomic_fail _
  · exact (atomic_fail _).ite (.of_total (.modify _))

theorem atomic_finalizeBatch (claim : BatchClaim) (now : ℤ) : Atomic (finalizeBatch claim now) := by
  refine .bind_left (readOnly_time _ _) fun now => .bind_left .get fun journal => ?_
  split
  · split
    · exact .of_readOnly (.pure _)
    · exact .of_readOnly (.throw _)
  · refine .bind_left (readOnly_recordForCurrentClaim _) fun record =>
      (atomic_fail _).ite ((atomic_fail _).ite ?_)
    split
    · exact atomic_fail _
    · exact (atomic_fail _).ite ((atomic_fail _).ite (.of_total ((Total.set _).bind fun _ => .pure _)))

end CcbCore.Journal
