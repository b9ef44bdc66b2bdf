import CcbCore.Library.Run
import CcbCore.Projection.FunctionSpec

/-!
# Runs of the projection journal

A step of the database is one call of one of its functions, by any worker and run
as one transaction; time does not go back from one call to the next. `Effect`
lists what a call can do; the spec lemmas give `effect_of_call`, and every
invariant is proved against `Effect` alone.
-/

namespace CcbCore.Projection

open CcbCore.Raising

variable {Other : Type}

/-- A call, with the identifiers `gen_random_uuid()` gives it. -/
inductive Call where
  | seedLane (identityId branch projectedHeadSha : Option String)
  | setControlCut (identityId branch controlSha topologySha : Option String)
  | claimBatch (batchId claimToken : Uuid) (args : ClaimArgs)
  | projectFile (args : ProjectFileArgs)
  | finalizeBatch (batchId claimToken : Option Uuid)

/-- What a call returns. -/
inductive Reply where
  | lane (lane : LaneKey × LaneRow)
  | batch (batch : Uuid × BatchRow)
  | result (result : String)

/-- The function a call runs. -/
def Call.body (server : Server Other) (now : ℤ) : Call → Plpgsql Other Reply
  | .seedLane identityId branch head => .lane <$> projectionSeedLaneV1 now identityId branch head
  | .setControlCut identityId branch control topology =>
    .lane <$> projectionSetControlCutV1 now identityId branch control topology
  | .claimBatch batchId claimToken args => .batch <$> projectionClaimBatchV1 now batchId claimToken args
  | .projectFile args => .result <$> projectionProjectFileV1 server now args
  | .finalizeBatch batchId claimToken => .lane <$> projectionFinalizeBatchV1 now batchId claimToken

/-- The token a call presents is not NULL. -/
def Call.TokenGiven : Call → Prop
  | .projectFile args => args.claimToken ≠ none
  | .finalizeBatch _ claimToken => claimToken ≠ none
  | _ => True

/-- The tables after a call. -/
def Call.after (server : Server Other) (now : ℤ) (call : Call) (db : Database Other) : Database Other :=
  match (transaction (call.body server now)).run db with
  | .ok _ db' => db'
  | .error _ db' => db'

/-- The database, and the time of its last call. -/
structure World (Other : Type) where
  db : Database Other
  clock : ℤ

/-- A call, and its time. -/
structure Event where
  call : Call
  now : ℤ

/-- One call, no earlier than the last one, with a token that is not NULL. -/
def Step (server : Server Other) (world : World Other) (event : Event) (world' : World Other) : Prop :=
  world.clock ≤ event.now ∧ event.call.TokenGiven ∧
    world' = ⟨event.call.after server event.now world.db, event.now⟩

/-! ### What a call can do -/

/-- The effects of a call, with all the checks that let it return. -/
inductive Effect (db : Database Other) (now : ℤ) : Call → Database Other → Prop where
  /-- The call raises, or answers without a change. -/
  | unchanged {call : Call} : Effect db now call db
  /-- A lane is added. -/
  | seeded {identityId branch head : Option String} {key : LaneKey} {row : LaneRow}
      (new : db.laneState.lookup key = none) :
      Effect db now (.seedLane identityId branch head) { db with laneState := db.laneState.insert key row }
  /-- A lane's cut is set. -/
  | cutSet {identityId branch controlSha topologySha : Option String} {key : LaneKey} {lane : LaneRow}
      {control topology : Sha} (found : db.laneState.lookup key = some lane) :
      Effect db now (.setControlCut identityId branch controlSha topologySha)
        { db with
          laneState := db.laneState.insert key
            { lane with controlSha := some control, topologySha := some topology, updatedAt := now } }
  /-- A batch is claimed. -/
  | claimed {id token : Uuid} {args : ClaimArgs} {batch : BatchRow} {lane : LaneRow} {db' : Database Other}
      (claims : Claims db now id token batch lane db') : Effect db now (.claimBatch id token args) db'
  /-- A file is projected. -/
  | projected {args : ProjectFileArgs} {id : Uuid} {path : String} {batch : BatchRow} {file : FileRow}
      {db' : Database Other} (projects : ProjectsFile db now args id path batch file db') :
      Effect db now (.projectFile args) db'
  /-- A batch is finalized. -/
  | finalized {claimToken : Option Uuid} {id : Uuid} {batch : BatchRow} {lane : LaneRow}
      (finds : FindsBatch db (some id) claimToken id batch lane) (finalizable : Finalizable db now id batch lane) :
      Effect db now (.finalizeBatch (some id) claimToken) (db.withFinalized now id batch lane)

theorem effect_of_call (server : Server Other) (now : ℤ) (call : Call) (db : Database Other) :
    Effect db now call (call.after server now db) := by
  cases hrun : (transaction (call.body server now)).run db with
  | error e db' =>
    obtain ⟨rfl, -⟩ := run_transaction_error.mp hrun
    have hafter : call.after server now db' = db' := by rw [Call.after, hrun]
    rw [hafter]
    exact .unchanged
  | ok reply db' =>
    have hafter : call.after server now db = db' := by rw [Call.after, hrun]
    rw [hafter]
    rw [run_transaction_ok] at hrun
    cases call with
    | seedLane identityId branch head =>
      obtain ⟨_, hbody, -⟩ := run_map_ok.mp hrun
      rcases projectionSeedLaneV1_ok hbody with rfl | ⟨_, _, hnew, rfl⟩
      · exact .unchanged
      · exact .seeded hnew
    | setControlCut identityId branch control topology =>
      obtain ⟨_, hbody, -⟩ := run_map_ok.mp hrun
      obtain ⟨_, _, _, _, hlane, rfl⟩ := projectionSetControlCutV1_ok hbody
      exact .cutSet hlane
    | claimBatch batchId claimToken args =>
      obtain ⟨_, hbody, -⟩ := run_map_ok.mp hrun
      obtain ⟨_, _, -, hclaims⟩ := projectionClaimBatchV1_ok hbody
      exact .claimed hclaims
    | projectFile args =>
      obtain ⟨_, hbody, -⟩ := run_map_ok.mp hrun
      rcases projectionProjectFileV1_ok hbody with rfl | ⟨_, _, _, _, hprojects⟩
      · exact .unchanged
      · exact .projected hprojects
    | finalizeBatch batchId claimToken =>
      obtain ⟨_, hbody, -⟩ := run_map_ok.mp hrun
      obtain ⟨id, batch, lane, hfinds, hcase⟩ := projectionFinalizeBatchV1_ok.mp hbody
      obtain rfl := hfinds.given
      rcases hcase with ⟨-, -, -, rfl⟩ | ⟨hfinalizable, rfl, -⟩
      · exact .unchanged
      · exact .finalized hfinds hfinalizable

theorem Step.effect {server : Server Other} {world world' : World Other} {event : Event}
    (h : Step server world event world') : Effect world.db event.now event.call world'.db := by
  obtain ⟨-, -, rfl⟩ := h
  exact effect_of_call server event.now event.call world.db

/-! ### Batches stay -/

/-- No batch goes away, or to another lane or target. -/
def BatchesStay (db db' : Database Other) : Prop :=
  ∀ id batch, db.batches.lookup id = some batch → ∃ batch', db'.batches.lookup id = some batch' ∧
    batch'.key = batch.key ∧ batch'.targetHeadSha = batch.targetHeadSha

section

variable {db db' mid : Database Other} {now : ℤ} {call : Call} {server : Server Other}

theorem BatchesStay.refl (db : Database Other) : BatchesStay db db := fun _ batch h => ⟨batch, h, rfl, rfl⟩

theorem BatchesStay.trans (h : BatchesStay db mid) (h' : BatchesStay mid db') : BatchesStay db db' := by
  intro id batch hbatch
  obtain ⟨batch₁, hbatch₁, hkey₁, htarget₁⟩ := h id batch hbatch
  obtain ⟨batch₂, hbatch₂, hkey₂, htarget₂⟩ := h' id batch₁ hbatch₁
  exact ⟨batch₂, hbatch₂, hkey₂.trans hkey₁, htarget₂.trans htarget₁⟩

/-- A batch that is changed in place stays. -/
theorem batchesStay_modify (change : BatchRow → BatchRow)
    (hchange : ∀ batch, (change batch).key = batch.key ∧ (change batch).targetHeadSha = batch.targetHeadSha) {id : Uuid}
    (hbatches : db'.batches = Table.modify db.batches id change) : BatchesStay db db' := by
  intro id' batch hbatch
  rw [hbatches, Table.lookup_modify]
  split
  · next hid =>
    subst hid
    exact ⟨change batch, by rw [hbatch, Option.map_some], hchange batch⟩
  · exact ⟨batch, hbatch, rfl, rfl⟩

theorem batchesStay_withSuperseded (db : Database Other) (now : ℤ) (key : LaneKey) :
    BatchesStay db (db.withSuperseded now key) := by
  unfold Database.withSuperseded
  cases db.claimedBatch key with
  | none => exact .refl db
  | some claimed => exact batchesStay_modify (BatchRow.stale now) (fun _ => ⟨rfl, rfl⟩) rfl

theorem batchesStay_of_effect (h : Effect db now call db') : BatchesStay db db' := by
  cases h with
  | unchanged => exact .refl db
  | seeded => exact fun id batch hbatch => ⟨batch, hbatch, rfl, rfl⟩
  | cutSet => exact fun id batch hbatch => ⟨batch, hbatch, rfl, rfl⟩
  | @claimed new _ _ made _ _ claims =>
    intro id batch hbatch
    have hne : id ≠ new := by
      rintro rfl
      exact nomatch hbatch.symm.trans claims.new
    rw [claims.batches, AList.lookup_insert_ne hne]
    exact batchesStay_withSuperseded db now made.key id batch hbatch
  | projected projects => exact fun id batch hbatch => ⟨batch, projects.batches ▸ hbatch, rfl, rfl⟩
  | finalized => exact batchesStay_modify (BatchRow.completed now) (fun _ => ⟨rfl, rfl⟩) rfl

theorem batchesStay_after (server : Server Other) (now : ℤ) (call : Call) (db : Database Other) :
    BatchesStay db (call.after server now db) := batchesStay_of_effect (effect_of_call server now call db)

end

/-! ### Playing calls -/

instance (call : Call) : Decidable call.TokenGiven := by
  cases call <;> unfold Call.TokenGiven <;> infer_instance

/-- The world after calls at their times. -/
def World.play (server : Server Other) (world : World Other) (events : List Event) : World Other :=
  events.foldl (fun world event => ⟨event.call.after server event.now world.db, event.now⟩) world

/-- The times do not go back, and no token is NULL. -/
def Admissible (clock : ℤ) : List Event → Bool
  | [] => true
  | event :: events => clock ≤ event.now ∧ event.call.TokenGiven ∧ Admissible event.now events

theorem run_play (server : Server Other) (world : World Other) (events : List Event)
    (h : Admissible world.clock events = true) : Run (Step server) world events (world.play server events) := by
  induction events generalizing world with
  | nil => exact .nil
  | cons event events ih =>
    obtain ⟨hclock, hgiven, hrest⟩ := of_decide_eq_true h
    exact Run.cons ⟨hclock, hgiven, rfl⟩ (ih _ hrest)

theorem batchesStay_play {server : Server Other} {db : Database Other} (events : List Event) (clock : ℤ) :
    BatchesStay db (World.play server ⟨db, clock⟩ events).db := by
  induction events generalizing db clock with
  | nil => exact .refl db
  | cons event events ih => exact (batchesStay_after server event.now event.call db).trans (ih event.now)

end CcbCore.Projection
