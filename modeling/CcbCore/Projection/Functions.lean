import CcbCore.Projection.Schema
import Mathlib.Data.List.Dedup

/-!
# The projection journal's functions

`projection_seed_lane_v1`, `projection_set_control_cut_v1`, `projection_claim_batch_v1` and
`projection_record_file_result_v1` of `20260906154101_radar_projection_journal_v1.sql`;
`project_bus_message_v1` of `20260902231445_radar_live_message_collision_v1.sql`;
and `projection_project_file_v1` and `projection_finalize_batch_v1` as
`20260908010500_radar_projection_atomic_file_v1.sql` left them, with the public
bridge to the last. `now()` is the time the transaction started, and
`gen_random_uuid()` may give any identifiers, so both are arguments here. A
condition with a value that may be NULL is a `Truth`, of which an `IF` asks
`Holds`; one between values that are there is decided.

`p_lease_seconds` is an `ℤ`: no deadline comes near the ends of `timestamptz`.
-/

namespace CcbCore.Projection

open CcbCore.Postgres CcbCore.Raising CcbCore.Sql

variable {Other : Type}

/-- `value is null or btrim(value) = ''`. -/
def isBlank (value : Option String) : Bool :=
  match value with
  | none => true
  | some s => btrim s = ""

/-- A text that is neither NULL nor blank. -/
def nonBlank (value : Option String) : Option String := if isBlank value then none else value

/-- A head that may be NULL: NULL, or a text that passes the check. -/
def nullableSha (value : Option String) : Option (Option Sha) :=
  match value with
  | none => some none
  | some s => (hex? 40 s).map some

/-- `raise exception 'RADAR_PROJECTION_STALE_CLAIM'`. -/
def staleClaim : SqlError := .exception "RADAR_PROJECTION_STALE_CLAIM" "40001"

/-! ### Lanes -/

/-- `radar.projection_seed_lane_v1`. -/
def projectionSeedLaneV1 (now : ℤ) (identityId branch projectedHeadSha : Option String) :
    Plpgsql Other (LaneKey × LaneRow) := do
  let identityId ← required (nonBlank identityId) (.exception "RADAR_PROJECTION_LANE_INVALID" "22023")
  let branch ← required (nonBlank branch) (.exception "RADAR_PROJECTION_LANE_INVALID" "22023")
  let head ← required (nullableSha projectedHeadSha) (.exception "RADAR_PROJECTION_HEAD_INVALID" "22023")
  let db ← get
  match db.laneState.lookup (identityId, branch) with
  | none =>
    let row : LaneRow := ⟨head, none, none, now⟩
    set { db with laneState := db.laneState.insert (identityId, branch) row }
    pure ((identityId, branch), row)
  | some row =>
    refuseIf (row.projectedHeadSha ≠ head) (.exception "RADAR_PROJECTION_LANE_ALREADY_SEEDED" "23514")
    pure ((identityId, branch), row)

/-- `radar.projection_set_control_cut_v1`. -/
def projectionSetControlCutV1 (now : ℤ) (identityId branch controlSha topologySha : Option String) :
    Plpgsql Other (LaneKey × LaneRow) := do
  let control ← required (controlSha.bind (hex? 40)) (.exception "RADAR_PROJECTION_CONTROL_CUT_INVALID" "22023")
  let topology ← required (topologySha.bind (hex? 40)) (.exception "RADAR_PROJECTION_CONTROL_CUT_INVALID" "22023")
  let db ← get
  let identityId ← required identityId (.exception "RADAR_PROJECTION_LANE_UNKNOWN" "P0002")
  let branch ← required branch (.exception "RADAR_PROJECTION_LANE_UNKNOWN" "P0002")
  let lane ← required (db.laneState.lookup (identityId, branch)) (.exception "RADAR_PROJECTION_LANE_UNKNOWN" "P0002")
  let row : LaneRow := { lane with controlSha := some control, topologySha := some topology, updatedAt := now }
  set { db with laneState := db.laneState.insert (identityId, branch) row }
  pure ((identityId, branch), row)

/-- `lane.projected_head_sha is distinct from batch.expected_projected_head_sha`, and
the like of the cut: what claiming, projecting and finalizing check of the lane. -/
def requireLane (lane : LaneRow) (expected : Option Sha) (control topology : Sha) : Plpgsql Other PUnit := do
  refuseIf (lane.projectedHeadSha ≠ expected) (.exception "RADAR_PROJECTION_BASE_CHANGED" "40001")
  refuseIf (lane.controlSha ≠ some control ∨ lane.topologySha ≠ some topology)
    (.exception "RADAR_PROJECTION_CONTROL_CUT_CHANGED" "40001")

/-! ### Claiming -/

/-- The arguments of `radar.projection_claim_batch_v1`. -/
structure ClaimArgs where
  identityId : Option String
  branch : Option String
  expectedProjectedHeadSha : Option String
  targetHeadSha : Option String
  controlSha : Option String
  topologySha : Option String
  files : Option (List (Option String))
  claimOwner : Option String
  leaseSeconds : Option ℤ

/-- The lane's batch that is `CLAIMED`. -/
def Database.claimedBatch (db : Database Other) (key : LaneKey) : Option (Uuid × BatchRow) :=
  Table.select db.batches fun _ batch => decide (batch.key = key ∧ batch.status = .claimed)

/-- The row of a batch that becomes stale. -/
def BatchRow.stale (now : ℤ) (batch : BatchRow) : BatchRow := { batch with status := .stale, updatedAt := now }

/-- A claim in force refuses another; one whose lease has run out becomes stale. -/
def supersede (now : ℤ) (key : LaneKey) : Plpgsql Other PUnit := do
  let db ← get
  match db.claimedBatch key with
  | none => pure ⟨⟩
  | some (id, batch) =>
    refuseIf (now < batch.claimExpiresAt) (.exception "RADAR_PROJECTION_CLAIM_BUSY" "55P03")
    set { db with batches := Table.modify db.batches id (BatchRow.stale now) }

/-- `now() + make_interval(secs => seconds)`. -/
def addSeconds (now seconds : ℤ) : Timestamptz := ((now + 1000000 * seconds : ℤ) : Timestamptz)

/-- The row of a batch just claimed. -/
def claimRow (now : ℤ) (key : LaneKey) (expected : Option Sha) (target control topology : Sha) (claimToken : Uuid)
    (owner : String) (lease : ℤ) : BatchRow where
  identityId := key.1
  branch := key.2
  expectedProjectedHeadSha := expected
  targetHeadSha := target
  controlSha := control
  topologySha := topology
  claimToken := claimToken
  claimOwner := owner
  claimExpiresAt := addSeconds now lease
  status := .claimed
  createdAt := now
  updatedAt := now
  completedAt := none

/-- `insert into radar.projection_batches`: the key is new, and so is a claim on the lane
(`radar_projection_one_claimed_batch_per_lane`). -/
def insertBatch (id : Uuid) (batch : BatchRow) : Plpgsql Other PUnit := do
  let db ← get
  refuseIf (batch.status = .claimed ∧ (db.claimedBatch batch.key).isSome)
    (.violation "radar_projection_one_claimed_batch_per_lane")
  let batches ← required (Table.insertRow db.batches id batch) (.violation "projection_batches_pkey")
  set { db with batches := batches }

/-- `insert into radar.projection_batch_files`. -/
def insertFile (now : ℤ) (id : Uuid) (path : String) : Plpgsql Other PUnit := do
  let db ← get
  let batchFiles ← required (Table.insertRow db.batchFiles (id, path) ⟨.pending, none, now⟩)
    (.violation "projection_batch_files_pkey")
  set { db with batchFiles := batchFiles }

/-- `foreach file_path in array p_files loop`. -/
def insertFiles (now : ℤ) (id : Uuid) : List String → Plpgsql Other PUnit
  | [] => pure ⟨⟩
  | path :: paths => do
    insertFile now id path
    insertFiles now id paths

/-- `radar.projection_claim_batch_v1`, where `gen_random_uuid()` gives `batchId` and
`claimToken`. -/
def projectionClaimBatchV1 (now : ℤ) (batchId claimToken : Uuid) (args : ClaimArgs) :
    Plpgsql Other (Uuid × BatchRow) := do
  let target ← required (args.targetHeadSha.bind (hex? 40)) (.exception "RADAR_PROJECTION_HEAD_INVALID" "22023")
  let expected ← required (nullableSha args.expectedProjectedHeadSha)
    (.exception "RADAR_PROJECTION_HEAD_INVALID" "22023")
  let owner ← required (nonBlank args.claimOwner) (.exception "RADAR_PROJECTION_CLAIM_INVALID" "22023")
  let control ← required (args.controlSha.bind (hex? 40)) (.exception "RADAR_PROJECTION_CLAIM_INVALID" "22023")
  let topology ← required (args.topologySha.bind (hex? 40)) (.exception "RADAR_PROJECTION_CLAIM_INVALID" "22023")
  let lease ← required (args.leaseSeconds.filter (0 < ·)) (.exception "RADAR_PROJECTION_CLAIM_INVALID" "22023")
  let files := args.files.getD []
  refuseIf (files.any isBlank ∨ files.length ≠ files.dedup.length)
    (.exception "RADAR_PROJECTION_FILES_INVALID" "22023")
  let identityId ← required args.identityId (.exception "RADAR_PROJECTION_LANE_UNSEEDED" "23514")
  let branch ← required args.branch (.exception "RADAR_PROJECTION_LANE_UNSEEDED" "23514")
  let db ← get
  let lane ← required (db.laneState.lookup (identityId, branch)) (.exception "RADAR_PROJECTION_LANE_UNSEEDED" "23514")
  requireLane lane expected control topology
  supersede now (identityId, branch)
  let batch := claimRow now (identityId, branch) expected target control topology claimToken owner lease
  insertBatch batchId batch
  insertFiles now batchId files.reduceOption
  pure (batchId, batch)

/-! ### Messages -/

/-- The arguments of `radar.project_bus_message_v1`. -/
structure BusMessage where
  messageId : Option String
  createdAt : Option Timestamptz
  sender : Option String
  audience : Option (List (Option String))
  requiresAck : Option Bool
  sourceRefs : Option (List (Option String))
  contentHash : Option String
  idempotencyKey : Option String
  payload : Option Jsonb

/-- Where a message whose id is taken goes: under the id qualified by the content
hash's first 16 digits, or, when another content has that id, by the whole hash. It
is there already, or it is new. -/
inductive Qualified where
  | present (id : String)
  | new (id : String)
  | collision

/-- The qualified id of a message. -/
def qualify (messages : Table String MessageRow) (messageId : String) (contentHash : Hex 64) : Qualified :=
  let short := messageId ++ "~" ++ substringTo 16 contentHash.text
  match messages.lookup short with
  | none => .new short
  | some row =>
    if row.contentHash = contentHash then .present short
    else
      let long := messageId ++ "~" ++ contentHash.text
      match messages.lookup long with
      | none => .new long
      | some row => if row.contentHash = contentHash then .present long else .collision

/-- The row of a Bus message. -/
def busMessageRow (server : Server Other) (now : ℤ) (message : BusMessage) (sender : String)
    (createdAt : Timestamptz) (contentHash : Hex 64) (idempotencyKey : String) (payload : Jsonb) : MessageRow where
  schemaVersion := 1
  createdAt := createdAt
  sender := server.lower (btrim sender)
  audience := message.audience.getD []
  domain := "chat_bus"
  intent := "bus_message"
  priority := 3
  rootTaskId := none
  correlationId := none
  causalParentId := none
  requiresAck := message.requiresAck.getD false
  expiresAt := none
  authorityRef := none
  sourceRefs := message.sourceRefs.getD []
  contentHash := contentHash
  idempotencyKey := idempotencyKey
  payload := payload
  projectionStatus := "ACCEPTED"
  insertedAt := now

/-- `insert into radar.messages`, and its triggers. -/
def insertMessage (server : Server Other) (now : ℤ) (message : BusMessage) (id sender : String)
    (createdAt : Timestamptz) (contentHash : Hex 64) (payload : Jsonb) : Plpgsql Other PUnit := do
  let db ← get
  let idempotencyKey ← required message.idempotencyKey (.violation "messages.idempotency_key not null")
  let messages ← required (Table.insertRow db.messages id
    (busMessageRow server now message sender createdAt contentHash idempotencyKey payload)) (.violation "messages_pkey")
  match server.afterInsert messages (db.reconciliationEvents, db.other) with
  | .error e => throw e
  | .ok (events, other) =>
    set { db with messages := messages, reconciliationEvents := events, other := other }

/-- `to_jsonb` of a `text[]`. -/
def textArray (items : List (Option String)) : Jsonb := .array (items.map Jsonb.ofText)

/-- The event of a message whose id another content has. -/
def conflictEvent (now : ℤ) (message : BusMessage) (messageId qualified : String) (existing : MessageRow)
    (contentHash : Hex 64) : ReconciliationEvent where
  code := "MESSAGE_PROJECTION_CONFLICT"
  repairClass := "AMBIGUOUS_DURABLE_CONFLICT"
  sourceRef := some ((message.sourceRefs.getD []).head?.join.getD messageId)
  detail := .object [
    ("message_id", .string messageId),
    ("qualified_message_id", .string qualified),
    ("existing_content_hash", .string existing.contentHash.text),
    ("incoming_content_hash", .string contentHash.text),
    ("existing_domain", .string existing.domain),
    ("existing_source_refs", textArray existing.sourceRefs),
    ("incoming_source_refs", textArray (message.sourceRefs.getD [])),
    ("resolution", .string "preserved_as_content_qualified_projection_id")]
  createdAt := now

/-- The conflict of a message id and a content is recorded. -/
def isRecorded (messageId : String) (contentHash : Hex 64) (event : ReconciliationEvent) : Bool :=
  event.code = "MESSAGE_PROJECTION_CONFLICT" ∧
    (equals (event.detail.getText "message_id") (some messageId)).Holds ∧
    (equals (event.detail.getText "incoming_content_hash") (some contentHash.text)).Holds

/-- `insert into radar.reconciliation_events`, once for a message id and a content. -/
def recordConflict (now : ℤ) (message : BusMessage) (messageId qualified : String) (existing : MessageRow)
    (contentHash : Hex 64) : Plpgsql Other PUnit := do
  let db ← get
  if db.reconciliationEvents.any (isRecorded messageId contentHash) then
    pure ⟨⟩
  else
    set { db with
      reconciliationEvents :=
        db.reconciliationEvents ++ [conflictEvent now message messageId qualified existing contentHash] }

/-- `radar.project_bus_message_v1`. -/
def projectBusMessageV1 (server : Server Other) (now : ℤ) (message : BusMessage) : Plpgsql Other String := do
  let messageId ← required (nonBlank message.messageId) (.exception "MESSAGE_ID_REQUIRED" "22023")
  let sender ← required (nonBlank message.sender) (.exception "SENDER_REQUIRED" "22023")
  let createdAt ← required message.createdAt (.exception "CREATED_AT_REQUIRED" "22023")
  let contentHash ← required (message.contentHash.bind (hex? 64)) (.exception "INVALID_CONTENT_HASH" "22023")
  let payload ← required message.payload (.exception "PAYLOAD_REQUIRED" "22023")
  let db ← get
  match db.messages.lookup messageId with
  | none =>
    insertMessage server now message messageId sender createdAt contentHash payload
    pure "INSERTED"
  | some existing =>
    if existing.contentHash = contentHash ∧ existing.domain = "chat_bus" then
      pure "IDEMPOTENT"
    else
      match qualify db.messages messageId contentHash with
      | .present qualified => pure ("CONFLICT_IDEMPOTENT:" ++ qualified)
      | .collision => throw (.exception "QUALIFIED_MESSAGE_ID_COLLISION" "23505")
      | .new qualified =>
        recordConflict now message messageId qualified existing contentHash
        insertMessage server now message qualified sender createdAt contentHash
          (payload.concat (.object [
            ("declared_message_id", .string messageId),
            ("projection_collision", .bool true),
            ("collision_with_message_id", .string messageId),
            ("qualified_message_id", .string qualified)]))
        pure ("CONFLICT_INSERTED:" ++ qualified)

/-! ### Projecting a file -/

/-- The first read of a batch, which finds its lane only. -/
def laneKeyOf (batchId : Option Uuid) : Plpgsql Other LaneKey := do
  let db ← get
  required ((db.batch? batchId).map BatchRow.key) staleClaim

/-- `select * into lane … for update`. -/
def lockLane (key : LaneKey) : Plpgsql Other LaneRow := do
  let db ← get
  required (db.laneState.lookup key) (.exception "RADAR_PROJECTION_LANE_UNKNOWN" "P0002")

/-- `select * into batch … for update`, and the guard that the batch, on the lane
locked, is claimed under the token: a NULL token is not told from the batch's own. -/
def lockBatch (batchId claimToken : Option Uuid) (key : LaneKey) : Plpgsql Other BatchRow := do
  let db ← get
  let batch ← required (db.batch? batchId) staleClaim
  refuseIf ((differs (some batch.identityId) (some key.1)).or
    ((differs (some batch.branch) (some key.2)).or (differs (some batch.claimToken) claimToken))).Holds staleClaim
  pure batch

/-- `batch.status <> 'CLAIMED' or batch.claim_expires_at <= now()`. -/
def requireClaimed (now : ℤ) (batch : BatchRow) : Plpgsql Other PUnit :=
  refuseIf (batch.status ≠ .claimed ∨ batch.claimExpiresAt ≤ now) staleClaim

/-- The arguments of `radar.projection_project_file_v1`. -/
structure ProjectFileArgs where
  batchId : Option Uuid
  claimToken : Option Uuid
  path : Option String
  message : BusMessage

/-- `result_ref` of a file that is projected or was there already. -/
def isResultRef (ref : String) : Bool :=
  ref = "INSERTED" ∨ ref = "IDEMPOTENT" ∨
    startsAndGoesOn "CONFLICT_INSERTED:" ref ∨ startsAndGoesOn "CONFLICT_IDEMPOTENT:" ref

/-- The state a projection's result leaves its file in. -/
def terminalState (result : String) : Option FileState :=
  if result = "INSERTED" ∨ startsAndGoesOn "CONFLICT_INSERTED:" result then some .projected
  else if result = "IDEMPOTENT" ∨ startsAndGoesOn "CONFLICT_IDEMPOTENT:" result then some .idempotent
  else none

/-- The message is of the claimed lane, path and target. -/
def requireBinding (server : Server Other) (batch : BatchRow) (path : String) (message : BusMessage) :
    Plpgsql Other PUnit := do
  let sender ← required message.sender (.exception "RADAR_PROJECTION_SENDER_MISMATCH" "23514")
  refuseIf (server.lower (btrim sender) ≠ batch.identityId) (.exception "RADAR_PROJECTION_SENDER_MISMATCH" "23514")
  let payload ← required message.payload (.exception "RADAR_PROJECTION_SOURCE_BINDING_MISMATCH" "23514")
  refuseIf (payload.isObject = false ∨ payload.getText "admitted_lane_identity" ≠ some batch.identityId ∨
      payload.getText "source_path" ≠ some path ∨
      payload.getText "source_branch_head" ≠ some batch.targetHeadSha.text)
    (.exception "RADAR_PROJECTION_SOURCE_BINDING_MISMATCH" "23514")

/-- `radar.projection_project_file_v1`. -/
def projectionProjectFileV1 (server : Server Other) (now : ℤ) (args : ProjectFileArgs) : Plpgsql Other String := do
  refuseIf (args.batchId = none ∨ args.claimToken = none)
    (.exception "RADAR_PROJECTION_FILE_REQUEST_INVALID" "22023")
  let path ← required (nonBlank args.path) (.exception "RADAR_PROJECTION_FILE_REQUEST_INVALID" "22023")
  let batchId ← required args.batchId (.exception "RADAR_PROJECTION_FILE_REQUEST_INVALID" "22023")
  let key ← laneKeyOf args.batchId
  let lane ← lockLane key
  let batch ← lockBatch args.batchId args.claimToken key
  requireClaimed now batch
  requireLane lane batch.expectedProjectedHeadSha batch.controlSha batch.topologySha
  let db ← get
  let file ← required (db.batchFiles.lookup (batchId, path)) (.exception "RADAR_PROJECTION_FILE_UNKNOWN" "P0002")
  if file.state.Terminal then
    required (file.resultRef.filter isResultRef) (.exception "RADAR_PROJECTION_FILE_RESULT_CORRUPT" "XX000")
  else
    refuseIf (file.state ≠ .pending) (.exception "RADAR_PROJECTION_FILE_NOT_PROJECTABLE" "23514")
    requireBinding server batch path args.message
    let result ← projectBusMessageV1 server now args.message
    let state ← required (terminalState result) (.exception "RADAR_PROJECTION_RESULT_INVALID" "XX000")
    let db ← get
    let found ← required (db.batchFiles.lookup (batchId, path)) (.exception "RADAR_PROJECTION_FILE_STATE_RACE" "40001")
    refuseIf (found.state ≠ .pending) (.exception "RADAR_PROJECTION_FILE_STATE_RACE" "40001")
    set { db with batchFiles := db.batchFiles.insert (batchId, path) ⟨state, some result, now⟩ }
    pure result

/-! ### Recording a result -/

/-- `p_state in ('PROJECTED', 'IDEMPOTENT', 'FAILED', 'CONFLICT')`: the state. -/
def resultState (text : String) : Option FileState :=
  if text = "PROJECTED" then some .projected
  else if text = "IDEMPOTENT" then some .idempotent
  else if text = "FAILED" then some .failed
  else if text = "CONFLICT" then some .conflict
  else none

/-- `radar.projection_record_file_result_v1`. -/
def projectionRecordFileResultV1 (now : ℤ) (batchId claimToken : Option Uuid) (path state resultRef : Option String) :
    Plpgsql Other ((Uuid × String) × FileRow) := do
  -- a NULL state is not told from one of the list
  refuseIf (state ≠ none ∧ state.bind resultState = none) (.exception "RADAR_PROJECTION_FILE_STATE_INVALID" "22023")
  let db ← get
  let id ← required batchId staleClaim
  let batch ← required (db.batch? batchId) staleClaim
  refuseIf ((differs (some batch.claimToken) claimToken).Holds ∨ batch.status ≠ .claimed ∨ batch.claimExpiresAt ≤ now)
    staleClaim
  let path ← required path (.exception "RADAR_PROJECTION_FILE_UNKNOWN" "P0002")
  let file ← required (db.batchFiles.lookup (id, path)) (.exception "RADAR_PROJECTION_FILE_UNKNOWN" "P0002")
  refuseIf (file.state ≠ .pending ∧ (differs (some file.state) (state.bind resultState)).Holds)
    (.exception "RADAR_PROJECTION_FILE_RESULT_CONFLICT" "23514")
  let state ← required (state.bind resultState) (.violation "state")
  let row : FileRow := ⟨state, resultRef, now⟩
  set { db with batchFiles := db.batchFiles.insert (id, path) row }
  pure ((id, path), row)

/-! ### Finalizing -/

/-- The row of a lane whose head moves. -/
def LaneRow.moved (now : ℤ) (target : Sha) (lane : LaneRow) : LaneRow :=
  { lane with projectedHeadSha := some target, updatedAt := now }

/-- The row of a batch that is complete. -/
def BatchRow.completed (now : ℤ) (batch : BatchRow) : BatchRow :=
  { batch with status := .complete, completedAt := some now, updatedAt := now }

/-- `radar.projection_finalize_batch_v1`. -/
def projectionFinalizeBatchV1 (now : ℤ) (batchId claimToken : Option Uuid) : Plpgsql Other (LaneKey × LaneRow) := do
  let key ← laneKeyOf batchId
  let lane ← lockLane key
  let batch ← lockBatch batchId claimToken key
  if batch.status = .complete then
    refuseIf (lane.projectedHeadSha ≠ some batch.targetHeadSha)
      (.exception "RADAR_PROJECTION_COMPLETE_CURSOR_MISMATCH" "XX000")
    pure (key, lane)
  else
    requireClaimed now batch
    requireLane lane batch.expectedProjectedHeadSha batch.controlSha batch.topologySha
    let db ← get
    let id ← required batchId staleClaim
    refuseIf (db.unresolved id = true) (.exception "RADAR_PROJECTION_UNRESOLVED_FILES" "23514")
    set { db with
      laneState := db.laneState.insert key (lane.moved now batch.targetHeadSha)
      batches := Table.modify db.batches id (BatchRow.completed now) }
    pure (key, lane.moved now batch.targetHeadSha)

/-- `to_jsonb` of a lane. -/
def laneJson (server : Server Other) (lane : LaneKey × LaneRow) : Jsonb :=
  .object [("identity_id", .string lane.1.1), ("branch", .string lane.1.2),
    ("projected_head_sha", .ofText (lane.2.projectedHeadSha.map Hex.text)),
    ("control_sha", .ofText (lane.2.controlSha.map Hex.text)),
    ("topology_sha", .ofText (lane.2.topologySha.map Hex.text)),
    ("updated_at", .string (server.timestampText lane.2.updatedAt))]

/-- `public.radar_projection_finalize_batch_v1`. -/
def publicRadarProjectionFinalizeBatchV1 (server : Server Other) (now : ℤ) (batchId claimToken : Option Uuid) :
    Plpgsql Other Jsonb :=
  laneJson server <$> projectionFinalizeBatchV1 now batchId claimToken

end CcbCore.Projection
