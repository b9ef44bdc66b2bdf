import CcbCore.Projection.Runs

/-!
# The token of a finalization

`projection_finalize_batch_v1` is to answer, or change a row, only under the
batch's own claim token (`FinalizeFenced`). Its guard is a disjunction that ends
in `batch.claim_token <> p_claim_token`, which is unknown for a NULL token, and an
unknown condition does not raise. So a NULL token is as good as the batch's own:
the fence holds exactly when the token is not NULL, or the call would raise
whatever its token (`finalize_fenced_iff`). `projection_project_file_v1` refuses a
NULL token first.
-/

namespace CcbCore.Projection

open CcbCore.Postgres CcbCore.Raising

variable {Other α : Type} {server : Server Other} {now : ℤ} {db : Database Other} {batchId claimToken : Option Uuid}

/-- The token is the batch's own. -/
def OwnToken (db : Database Other) (batchId claimToken : Option Uuid) : Prop :=
  ∃ batch, db.batch? batchId = some batch ∧ claimToken = some batch.claimToken

/-- Unless the token is the batch's own, the call raises and changes nothing. -/
def Fenced (call : Plpgsql Other α) (db : Database Other) (batchId claimToken : Option Uuid) : Prop :=
  OwnToken db batchId claimToken ∨ ∃ error, (transaction call).run db = .error error db

/-- Finalizing is fenced, called directly or through the public bridge. -/
def FinalizeFenced (server : Server Other) (now : ℤ) (db : Database Other) (batchId claimToken : Option Uuid) : Prop :=
  Fenced (projectionFinalizeBatchV1 now batchId claimToken) db batchId claimToken ∧
    Fenced (publicRadarProjectionFinalizeBatchV1 server now batchId claimToken) db batchId claimToken

/-- But for its token, a finalization of the batch would return: the batch is complete
and the lane still at its target, or it may be finalized. -/
def Answerable (db : Database Other) (now : ℤ) (batchId : Option Uuid) : Prop :=
  ∃ id batch lane, batchId = some id ∧ db.batches.lookup id = some batch ∧
    db.laneState.lookup batch.key = some lane ∧
    ((batch.status = .complete ∧ lane.projectedHeadSha = some batch.targetHeadSha) ∨
      Finalizable db now id batch lane)

/-- A call that returns only under the own token is fenced. -/
theorem fenced_iff_of_returns {call : Plpgsql Other α} :
    Fenced call db batchId claimToken ↔
      ((∃ a db', call.run db = .ok a db') → OwnToken db batchId claimToken) := by
  unfold Fenced
  cases hrun : call.run db with
  | ok a db' =>
    have hnot : ∀ error, (transaction call).run db ≠ .error error db := by
      intro error h
      obtain ⟨-, _, hraised⟩ := run_transaction_error.mp h
      rw [hrun] at hraised
      cases hraised
    simp [hnot]
  | error error db' =>
    have hraises : (transaction call).run db = .error error db :=
      run_transaction_error.mpr ⟨rfl, db', hrun⟩
    simp [hraises]

/-- Finalizing returns when the batch is answerable and the token is NULL or its own. -/
theorem finalize_returns_iff :
    (∃ result db', (projectionFinalizeBatchV1 now batchId claimToken).run db = .ok result db') ↔
      Answerable db now batchId ∧ (claimToken = none ∨ OwnToken db batchId claimToken) := by
  simp only [projectionFinalizeBatchV1_ok]
  constructor
  · rintro ⟨result, db', id, batch, lane, ⟨rfl, hfound, hlane, htoken⟩, hcase⟩
    refine ⟨⟨id, batch, lane, rfl, hfound, hlane, ?_⟩, htoken.imp_right fun h => ⟨batch, hfound, h⟩⟩
    rcases hcase with ⟨hstatus, hcursor, -⟩ | ⟨h, -⟩
    · exact .inl ⟨hstatus, hcursor⟩
    · exact .inr h
  · rintro ⟨⟨id, batch, lane, rfl, hfound, hlane, hcase⟩, htoken⟩
    have hfinds : FindsBatch db (some id) claimToken id batch lane := by
      refine ⟨rfl, hfound, hlane, htoken.imp_right ?_⟩
      rintro ⟨batch', hfound', rfl⟩
      rw [show batch' = batch from Option.some.inj (hfound'.symm.trans hfound)]
    rcases hcase with ⟨hstatus, hcursor⟩ | h
    · exact ⟨_, _, id, batch, lane, hfinds, .inl ⟨hstatus, hcursor, rfl, rfl⟩⟩
    · exact ⟨_, _, id, batch, lane, hfinds, .inr ⟨h, rfl, rfl⟩⟩

/-- The bridge returns when the function does. -/
theorem public_finalize_returns_iff :
    (∃ result db', (publicRadarProjectionFinalizeBatchV1 server now batchId claimToken).run db = .ok result db') ↔
      ∃ result db', (projectionFinalizeBatchV1 now batchId claimToken).run db = .ok result db' := by
  simp only [publicRadarProjectionFinalizeBatchV1, run_map_ok]
  constructor
  · rintro ⟨_, db', lane, hrun, -⟩
    exact ⟨lane, db', hrun⟩
  · rintro ⟨lane, db', hrun⟩
    exact ⟨_, db', lane, hrun, rfl⟩

/-- **When the token fences a finalization.** On all tables and for all arguments,
`projection_finalize_batch_v1` and its bridge raise and change nothing under every
token but the batch's own, exactly when the token is not NULL or the batch is not
answerable. -/
theorem finalize_fenced_iff (server : Server Other) (now : ℤ) (db : Database Other) (batchId claimToken : Option Uuid) :
    FinalizeFenced server now db batchId claimToken ↔ (claimToken ≠ none ∨ ¬ Answerable db now batchId) := by
  simp only [FinalizeFenced, fenced_iff_of_returns, public_finalize_returns_iff, finalize_returns_iff, and_self]
  constructor
  · intro h
    by_contra hnot
    obtain ⟨hnull, hanswerable⟩ := not_or.mp hnot
    obtain ⟨batch, -, htoken⟩ := h ⟨not_not.mp hanswerable, .inl (not_not.mp hnull)⟩
    rw [not_not.mp hnull] at htoken
    cases htoken
  · rintro hgiven ⟨hanswerable, htoken⟩
    exact htoken.resolve_left (hgiven.resolve_right (not_not.mpr hanswerable))

/-! ### A NULL token -/

/-- A head of forty digits. -/
def sampleSha (digit : Char) (h : isHexDigit digit = true) : Sha where
  text := String.ofList (List.replicate 40 digit)
  checked := by
    simp only [isHex, String.toList_ofList, List.length_replicate, List.all_replicate, h]
    rfl

/-- A server without triggers. -/
def sampleServer : Server Unit := ⟨id, fun _ => "", fun _ tables => .ok tables⟩

/-- A lane seeded at `a…`, given a cut, and a batch without files claimed to `b…`. -/
def sampleEvents : List Event :=
  [⟨.seedLane (some "yin") (some "bus/yin-v2") (some (sampleSha 'a' rfl).text), 1000⟩,
    ⟨.setControlCut (some "yin") (some "bus/yin-v2") (some (sampleSha 'c' rfl).text) (some (sampleSha 'd' rfl).text), 1100⟩,
    ⟨.claimBatch 1 2
      ⟨some "yin", some "bus/yin-v2", some (sampleSha 'a' rfl).text, some (sampleSha 'b' rfl).text,
        some (sampleSha 'c' rfl).text, some (sampleSha 'd' rfl).text, some [], some "worker-a", some 300⟩, 1200⟩]

/-- No lane, no batch, no message. -/
def Database.empty : Database Unit := ⟨∅, ∅, ∅, ∅, [], ()⟩

/-- The tables after `sampleEvents`. -/
def sampleDatabase : Database Unit := (World.play sampleServer ⟨Database.empty, 0⟩ sampleEvents).db

/-- The head of a lane. -/
def Database.head (db : Database Other) (key : LaneKey) : Option Sha :=
  (db.laneState.lookup key).bind LaneRow.projectedHeadSha

/-- **A NULL token finalizes.** The sample batch has the token `2`; finalized under
NULL, its lane's head moves from `a…` to `b…`. -/
theorem null_token_finalizes :
    (sampleDatabase.batch? (some 1)).map BatchRow.claimToken = some 2 ∧
    sampleDatabase.head ("yin", "bus/yin-v2") = some (sampleSha 'a' rfl) ∧
    ((Call.finalizeBatch (some 1) none).after sampleServer 1300 sampleDatabase).head ("yin", "bus/yin-v2") =
      some (sampleSha 'b' rfl) ∧
    ¬ FinalizeFenced sampleServer 1300 sampleDatabase (some 1) none := by
  refine ⟨by decide +kernel, by decide +kernel, by decide +kernel, fun h => ?_⟩
  obtain ⟨_, -, htoken⟩ := fenced_iff_of_returns.mp h.1 ⟨_, _, rfl⟩
  cases htoken

end CcbCore.Projection
