import CcbCore.Journal.Fencing

/-!
# Replayed finalization in the reference journal

`finalize_batch` answers a retry of a completed batch from the lane state stored
when the batch completed. The durable journal answers such a retry from the lane
itself, and refuses it with `RADAR_PROJECTION_COMPLETE_CURSOR_MISMATCH` when the
lane has moved on; the reference journal does not look at the lane. So it reports
the lane's current state exactly when the call is no `StaleReplay`
(`finalize_reports_current_iff`), and `finalize_reports_stale_cursor` is a run in
which it reports a cursor the lane has left.
-/

namespace CcbCore.Journal

/-- A finalization that is honest about the cursor: the lane state it returns is the
lane's, and a retry of a completed batch whose lane has moved on raises. -/
def ReportsCurrent (journal : ProjectionJournal) (claim : BatchClaim) (outcome : Outcome)
    (journal' : ProjectionJournal) : Prop :=
  (∀ state, outcome = .finalized state → journal'.lanes claim.key = some state) ∧
  (Complete journal claim.batchId → projectedHead journal claim.identity claim.branch ≠ some claim.targetHead →
    ∃ error, outcome = .raised error)

/-- A retry, at an admissible time, of a completed batch whose lane no longer stands
at the batch's target. -/
def StaleReplay (journal : ProjectionJournal) (claim : BatchClaim) (now : ℤ) : Prop :=
  0 ≤ now ∧ Complete journal claim.batchId ∧
    projectedHead journal claim.identity claim.branch ≠ some claim.targetHead

/-- At a negative time `finalize_batch` raises. -/
theorem finalize_negative_raises {uuid4 : UuidSource} {journal journal' : ProjectionJournal}
    {claim : BatchClaim} {now : ℤ} {outcome : Outcome} (hnow : now < 0)
    (h : exec uuid4 (.finalizeBatch claim now) journal = (outcome, journal')) :
    ∃ error, outcome = .raised error := by
  unfold exec at h
  cases hrun : (Call.method uuid4 (.finalizeBatch claim now)).run journal with
  | error error left =>
    simp only [hrun, Prod.mk.injEq] at h
    exact ⟨error, h.1.symm⟩
  | ok value left =>
    obtain ⟨state, hok, -⟩ := Raising.run_map_ok.mp hrun
    have := (finalizeBatch_ok.mp hok).1
    omega

/-- A retry of an issued, completed claim at an admissible time returns the state its
claim asked for. -/
theorem replay_returns {uuid4 : UuidSource} {world world' : World} (hissued : Issued world)
    {claim : BatchClaim} {now : ℤ} {outcome : Outcome} (hnow : 0 ≤ now)
    (h : Step uuid4 world ⟨.finalizeBatch claim now, outcome⟩ world')
    (hcomplete : Complete world.journal claim.batchId) :
    outcome = .finalized claim.finalized ∧ world'.journal = world.journal := by
  obtain ⟨record, hrec, hc⟩ := hcomplete
  have hown : record.claim = claim := hissued.own_record h (by simp [Call.presented]) hrec
  have hstored := hissued.stored _ record hrec hc
  have hdone : completedRecord world.journal claim = some record :=
    completedRecord_eq_some.mpr ⟨hrec, hc, by rw [hown]⟩
  have hrun : (Journal.finalizeBatch claim now).run world.journal =
      .ok claim.finalized world.journal := by
    refine Raising.run_bind_ok.mpr ⟨now, _, time_ok.mpr ⟨hnow, rfl, rfl⟩, ?_⟩
    rw [Raising.run_get_bind, hdone]
    simp only [hstored, hown]
    rfl
  have hexec := h.1.1
  simp only [exec, Call.method, Raising.run_map, hrun, Prod.mk.injEq] at hexec
  exact ⟨hexec.1.symm, hexec.2.symm⟩

/-- **When finalization reports the current cursor.** In every run of the journal
in which claims are presented as returned, a call of `finalize_batch` is honest
about the cursor exactly when it is no retry of a completed batch whose lane has
left the batch's target. -/
theorem finalize_reports_current_iff (uuid4 : UuidSource) (past : List Event) (world : World)
    (hrun : Run (Step uuid4) World.initial past world) (claim : BatchClaim) (now : ℤ) (outcome : Outcome)
    (world' : World) (h : Step uuid4 world ⟨.finalizeBatch claim now, outcome⟩ world') :
    ReportsCurrent world.journal claim outcome world'.journal ↔ ¬ StaleReplay world.journal claim now := by
  obtain ⟨hinv, hissued⟩ := issued_of_run hrun
  constructor
  · rintro ⟨-, hmoved⟩ ⟨hnow, hcomplete, hhead⟩
    obtain ⟨error, herror⟩ := hmoved hcomplete hhead
    rw [(replay_returns hissued hnow h hcomplete).1] at herror
    cases herror
  · intro hfresh
    by_cases hcomplete : Complete world.journal claim.batchId
    · by_cases hnow : 0 ≤ now
      · -- a replay: the lane stands at the target
        have hhead : projectedHead world.journal claim.identity claim.branch = some claim.targetHead := by
          by_contra hne
          exact hfresh ⟨hnow, hcomplete, hne⟩
        obtain ⟨rfl, hsame⟩ := replay_returns hissued hnow h hcomplete
        refine ⟨fun state hstate => ?_, fun _ hne => absurd hhead hne⟩
        cases hstate
        rw [hsame]
        cases hlane : world.journal.lanes claim.key with
        | none => simp [projectedHead, show (claim.identity, claim.branch) = claim.key from rfl, hlane] at hhead
        | some lane =>
          have hkey := hinv.laneKeyed _ _ hlane
          simp only [projectedHead, show (claim.identity, claim.branch) = claim.key from rfl, hlane,
            Option.bind_some] at hhead
          obtain ⟨identity, branch, head⟩ := lane
          simp only [BatchClaim.key, Prod.mk.injEq] at hkey hhead
          rw [hkey.1, hkey.2, hhead]
          rfl
      · obtain ⟨error, rfl⟩ := finalize_negative_raises (lt_of_not_ge hnow) h.1.1
        exact ⟨fun state hstate => (nomatch hstate), fun _ _ => ⟨error, rfl⟩⟩
    · refine ⟨fun state hstate => ?_, fun hc => absurd hc hcomplete⟩
      subst hstate
      have heff := h.effect
      generalize world'.journal = journal' at heff ⊢
      cases heff with
      | replayed batch token complete => exact absurd ⟨_, batch, complete⟩ hcomplete
      | finalized => exact Function.update_self ..

/-! ### A stale report -/

/-- The request for the next batch of the sample lane. -/
def laterRequest : ClaimRequest where
  identity := "yin"
  branch := "bus/yin-v2"
  expectedProjectedHead := some "a2"
  targetHead := "a3"
  controlSha := "control-1"
  topologySha := "topology-1"
  files := []
  owner := "worker-b"
  nowMs := 1300
  leaseMs := 500

/-- The sample batch is finalized, then a second batch is claimed and finalized. -/
def laterCalls : List Call :=
  sampleCalls ++ [.finalizeBatch sampleClaim 1200, .claimBatch laterRequest,
    .finalizeBatch (claimOf .unary laterRequest 2) 1400]

/-- The world after `laterCalls`. -/
def laterWorld : World := World.initial.play .unary laterCalls

/-- The sample run's finalization is honest. -/
theorem finalize_reports_current_sample :
    ReportsCurrent sampleWorld.journal sampleClaim (sampleWorld.event .unary (.finalizeBatch sampleClaim 1200)).outcome
      (sampleWorld.after .unary (.finalizeBatch sampleClaim 1200)).journal := by
  refine (finalize_reports_current_iff .unary _ _ run_sampleWorld sampleClaim 1200 _ _
    ⟨anyStep_after .unary _ (.finalizeBatch sampleClaim 1200), by decide⟩).mpr ?_
  rintro ⟨-, ⟨record, hrec, hc⟩, -⟩
  obtain rfl := Option.some.inj hrec
  revert hc
  decide

/-- **A stale cursor is reported.** After two batches of a lane are completed, a
retry of the first returns the head `a2`, and the lane stands at `a3`. -/
theorem finalize_reports_stale_cursor :
    Run (Step .unary) World.initial (World.initial.events .unary laterCalls) laterWorld ∧
    sampleClaim ∈ laterWorld.issued ∧
    (laterWorld.event .unary (.finalizeBatch sampleClaim 1500)).outcome =
      .finalized ⟨"yin", "bus/yin-v2", some "a2"⟩ ∧
    (laterWorld.after .unary (.finalizeBatch sampleClaim 1500)).journal.lanes sampleClaim.key =
      some ⟨"yin", "bus/yin-v2", some "a3"⟩ ∧
    ¬ ReportsCurrent laterWorld.journal sampleClaim
        (laterWorld.event .unary (.finalizeBatch sampleClaim 1500)).outcome
        (laterWorld.after .unary (.finalizeBatch sampleClaim 1500)).journal := by
  refine ⟨run_play .unary _ _ (by decide), by decide, rfl, by decide, fun h => ?_⟩
  have hlane := h.1 ⟨"yin", "bus/yin-v2", some "a2"⟩ rfl
  revert hlane
  decide

end CcbCore.Journal
