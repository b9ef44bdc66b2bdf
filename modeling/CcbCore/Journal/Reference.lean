import CcbCore.Library.Raising
import CcbCore.Text.Python
import Mathlib.Data.Int.Order.Basic
import Mathlib.Logic.Function.Basic

/-!
# The reference projection journal

`src/radar/reconciliation_journal.py`: the in-process reference model of Radar's
fenced projection journal. A journal keeps, for each lane, its projected head and
control cut, the batches ever claimed, and the batch now active on a lane. Every
method runs under one lock, so a call is one step; it is an `EStateM`, which keeps
whatever was assigned before a `raise`.

A Python dictionary is a function to `Option`; the files of a batch, whose values
are iterated, are an association list. `uuid.uuid4` is a source of distinct
identifiers (`UuidSource`), of which the journal has drawn the first `uuids`.
`force_projected_head_for_test` is a test hook and is left out. The static
`_text` and `_time` refuse values that are no `str` and no `int`; here they are
given a `String` and an integer.
-/

namespace CcbCore.Journal

open CcbCore

/-- What a call may raise: a `JournalError`, or what Python raises itself. -/
inductive Raised where
  /-- `JournalError(code)`. -/
  | journalError (code : String)
  /-- `KeyError`, of a subscript. -/
  | keyError
  /-- `AssertionError`. -/
  | assertionError
  deriving DecidableEq, Repr

/-- `BatchFileState`. -/
inductive BatchFileState where
  | pending
  | projected
  | idempotent
  | failed
  | conflict
  deriving DecidableEq, Repr

/-- `_TERMINAL_SUCCESS`. -/
def terminalSuccess : List BatchFileState := [.projected, .idempotent]

/-- `(identity, branch)`. -/
abbrev LaneKey := String × String

/-- `BatchClaim`. -/
structure BatchClaim where
  batchId : String
  claimToken : String
  identity : String
  branch : String
  expectedProjectedHead : Option String
  targetHead : String
  controlSha : String
  topologySha : String
  owner : String
  leaseExpiresMs : ℤ
  deriving DecidableEq, Repr

/-- The lane a claim is on. -/
def BatchClaim.key (claim : BatchClaim) : LaneKey := (claim.identity, claim.branch)

/-- `ProjectionLaneState`. -/
structure ProjectionLaneState where
  identity : String
  branch : String
  projectedHeadSha : Option String
  deriving DecidableEq, Repr

/-- `_BatchRecord`. -/
structure BatchRecord where
  claim : BatchClaim
  files : List (String × BatchFileState)
  complete : Bool
  finalizedState : Option ProjectionLaneState
  deriving DecidableEq, Repr

/-- `ProjectionJournal`. -/
structure ProjectionJournal where
  lanes : LaneKey → Option ProjectionLaneState
  controlCuts : LaneKey → Option (String × String)
  batches : String → Option BatchRecord
  activeBatchByLane : LaneKey → Option String
  /-- How many identifiers `uuid4` has given. -/
  uuids : ℕ

/-- `ProjectionJournal()`. -/
def ProjectionJournal.empty : ProjectionJournal :=
  ⟨fun _ => none, fun _ => none, fun _ => none, fun _ => none, 0⟩

/-- `uuid.uuid4().hex`, draw after draw: no identifier is given twice. -/
structure UuidSource where
  hex : ℕ → String
  distinct : Function.Injective hex

/-- A source that gives the `n`-th identifier `n` letters. -/
def UuidSource.unary : UuidSource where
  hex n := String.ofList (List.replicate n 'a')
  distinct := fun m n h => by simpa using congrArg (List.length ∘ String.toList) h

/-- A method of the journal. -/
abbrev Method (α : Type) := EStateM Raised ProjectionJournal α

/-- `raise JournalError(code)`. -/
def fail {α : Type} (code : String) : Method α := throw (.journalError code)

/-- `_text`. -/
def text (value code : String) : Method String :=
  if Python.stripString value = "" then fail code else pure (Python.stripString value)

/-- `_text`, of a value that may be `None`. -/
def optionalText (value : Option String) (code : String) : Method (Option String) :=
  match value with
  | none => pure none
  | some value => some <$> text value code

/-- `_time`. -/
def time (value : ℤ) (code : String) : Method ℤ :=
  if value < 0 then fail code else pure value

/-- `seed_lane_state`. -/
def seedLaneState (identity branch : String) (projectedHeadSha : Option String) : Method Unit := do
  let identity ← text identity "INVALID_IDENTITY"
  let branch ← text branch "INVALID_BRANCH"
  let projectedHeadSha ← optionalText projectedHeadSha "INVALID_PROJECTED_HEAD"
  let journal ← get
  if (journal.lanes (identity, branch)).any fun existing =>
      existing.projectedHeadSha ≠ projectedHeadSha then
    fail "LANE_STATE_ALREADY_SEEDED"
  else
    set { journal with
      lanes := Function.update journal.lanes (identity, branch)
        (some ⟨identity, branch, projectedHeadSha⟩) }

/-- `projected_head`. -/
def projectedHead (journal : ProjectionJournal) (identity branch : String) : Option String :=
  (journal.lanes (identity, branch)).bind (·.projectedHeadSha)

/-- `set_control_cut`. -/
def setControlCut (identity branch controlSha topologySha : String) : Method Unit := do
  let identity ← text identity "INVALID_IDENTITY"
  let branch ← text branch "INVALID_BRANCH"
  let control ← text controlSha "INVALID_CONTROL_SHA"
  let topology ← text topologySha "INVALID_TOPOLOGY_SHA"
  let journal ← get
  if (journal.lanes (identity, branch)).isNone then
    fail "LANE_UNSEEDED"
  else
    set { journal with
      controlCuts := Function.update journal.controlCuts (identity, branch)
        (some (control, topology)) }

/-- The keyword arguments of `claim_batch`. -/
structure ClaimRequest where
  identity : String
  branch : String
  expectedProjectedHead : Option String
  targetHead : String
  controlSha : String
  topologySha : String
  files : List String
  owner : String
  nowMs : ℤ
  leaseMs : ℤ
  deriving DecidableEq, Repr

/-- The checks `claim_batch` makes before it takes the lock: it gives the request
back with its texts stripped. -/
def checkClaimRequest (request : ClaimRequest) : Method ClaimRequest := do
  let identity ← text request.identity "INVALID_IDENTITY"
  let branch ← text request.branch "INVALID_BRANCH"
  let target ← text request.targetHead "INVALID_TARGET_HEAD"
  let control ← text request.controlSha "INVALID_CONTROL_SHA"
  let topology ← text request.topologySha "INVALID_TOPOLOGY_SHA"
  let owner ← text request.owner "INVALID_CLAIM_OWNER"
  let now ← time request.nowMs "INVALID_CLAIM_TIME"
  let lease ← time request.leaseMs "INVALID_CLAIM_LEASE"
  if lease ≤ 0 then
    fail "INVALID_CLAIM_LEASE"
  else
    let expected ← optionalText request.expectedProjectedHead "INVALID_PROJECTED_HEAD"
    if "" ∈ request.files then
      fail "INVALID_BATCH_FILES"
    else if ¬ request.files.Nodup then
      fail "DUPLICATE_BATCH_FILE"
    else
      pure ⟨identity, branch, expected, target, control, topology, request.files, owner, now, lease⟩

/-- The active batch of a lane refuses another claim until it is complete or its
lease has run out. -/
def refuseIfBusy (key : LaneKey) (now : ℤ) : Method Unit := do
  let journal ← get
  match journal.activeBatchByLane key with
  | none => pure ()
  | some previousId =>
    match journal.batches previousId with
    | none => throw .keyError
    | some previous =>
      if previous.complete = false ∧ now < previous.claim.leaseExpiresMs then
        fail "CLAIM_BUSY"
      else pure ()

variable (uuid4 : UuidSource)

/-- The claim that a request makes after `draws` identifiers were drawn. -/
def claimOf (request : ClaimRequest) (draws : ℕ) : BatchClaim where
  batchId := uuid4.hex draws
  claimToken := uuid4.hex (draws + 1)
  identity := request.identity
  branch := request.branch
  expectedProjectedHead := request.expectedProjectedHead
  targetHead := request.targetHead
  controlSha := request.controlSha
  topologySha := request.topologySha
  owner := request.owner
  leaseExpiresMs := request.nowMs + request.leaseMs

/-- The record of a claim just made: no file has a result. -/
def freshRecord (claim : BatchClaim) (files : List String) : BatchRecord :=
  ⟨claim, files.map fun path => (path, .pending), false, none⟩

/-- The journal after a claim is recorded and made its lane's active batch. -/
def ProjectionJournal.withClaim (journal : ProjectionJournal) (claim : BatchClaim)
    (files : List String) : ProjectionJournal :=
  { journal with
    batches := Function.update journal.batches claim.batchId (some (freshRecord claim files))
    activeBatchByLane := Function.update journal.activeBatchByLane claim.key (some claim.batchId)
    uuids := journal.uuids + 2 }

/-- `claim_batch`. -/
def claimBatch (request : ClaimRequest) : Method BatchClaim := do
  let request ← checkClaimRequest request
  let journal ← get
  match journal.lanes (request.identity, request.branch) with
  | none => fail "LANE_UNSEEDED"
  | some current =>
    if current.projectedHeadSha ≠ request.expectedProjectedHead then
      fail "PROJECTED_BASE_CHANGED"
    else if journal.controlCuts (request.identity, request.branch)
        ≠ some (request.controlSha, request.topologySha) then
      fail "CONTROL_CUT_CHANGED"
    else
      refuseIfBusy (request.identity, request.branch) request.nowMs
      set (journal.withClaim (claimOf uuid4 request journal.uuids) request.files)
      pure (claimOf uuid4 request journal.uuids)

/-- `_record_for_current_claim`. -/
def recordForCurrentClaim (claim : BatchClaim) : Method BatchRecord := do
  let journal ← get
  match journal.batches claim.batchId with
  | none => fail "STALE_CLAIM"
  | some record =>
    if record.claim.claimToken ≠ claim.claimToken then
      fail "STALE_CLAIM"
    else if journal.activeBatchByLane claim.key ≠ some claim.batchId then
      if record.complete then pure record else fail "STALE_CLAIM"
    else pure record

/-- `record.files[path] = state`, of a path that is there. -/
def setFile (files : List (String × BatchFileState)) (path : String) (state : BatchFileState) :
    List (String × BatchFileState) :=
  files.map fun file => if file.1 = path then (path, state) else file

/-- `record_file_result`. -/
def recordFileResult (claim : BatchClaim) (path : String) (state : BatchFileState) :
    Method Unit := do
  if state = .pending then
    fail "INVALID_BATCH_FILE_STATE"
  else
    let record ← recordForCurrentClaim claim
    if record.complete then
      fail "BATCH_ALREADY_COMPLETE"
    else
      match record.files.lookup path with
      | none => fail "UNKNOWN_BATCH_FILE"
      | some existing =>
        if existing ≠ .pending ∧ existing ≠ state then
          fail "BATCH_FILE_RESULT_CONFLICT"
        else
          modify fun journal => { journal with
            batches := Function.update journal.batches claim.batchId
              (some { record with files := setFile record.files path state }) }

/-- Every file of a batch is projected or was there already. -/
def resolved (files : List (String × BatchFileState)) : Bool :=
  files.all fun file => file.2 ∈ terminalSuccess

/-- The lane state a claim finalizes to. -/
def BatchClaim.finalized (claim : BatchClaim) : ProjectionLaneState :=
  ⟨claim.identity, claim.branch, some claim.targetHead⟩

/-- The journal after a claim's batch completes and its lane moves on. -/
def ProjectionJournal.withFinalized (journal : ProjectionJournal) (claim : BatchClaim)
    (record : BatchRecord) : ProjectionJournal :=
  { journal with
    lanes := Function.update journal.lanes claim.key (some claim.finalized)
    batches := Function.update journal.batches claim.batchId
      (some { record with complete := true, finalizedState := some claim.finalized })
    activeBatchByLane := Function.update journal.activeBatchByLane claim.key none }

/-- The record a late retry of `finalize_batch` finds complete. -/
def completedRecord (journal : ProjectionJournal) (claim : BatchClaim) : Option BatchRecord :=
  (journal.batches claim.batchId).filter fun record =>
    record.complete && decide (record.claim.claimToken = claim.claimToken)

/-- `finalize_batch`. -/
def finalizeBatch (claim : BatchClaim) (nowMs : ℤ) : Method ProjectionLaneState := do
  let now ← time nowMs "INVALID_FINALIZE_TIME"
  let journal ← get
  match completedRecord journal claim with
  | some record =>
    match record.finalizedState with
    | some state => pure state
    | none => throw .assertionError
  | none =>
    let record ← recordForCurrentClaim claim
    if claim.leaseExpiresMs ≤ now then
      fail "STALE_CLAIM"
    else if journal.controlCuts claim.key ≠ some (claim.controlSha, claim.topologySha) then
      fail "CONTROL_CUT_CHANGED"
    else
      match journal.lanes claim.key with
      | none => fail "LANE_UNSEEDED"
      | some lane =>
        if lane.projectedHeadSha ≠ claim.expectedProjectedHead then
          fail "PROJECTED_BASE_CHANGED"
        else if ¬ resolved record.files then
          fail "UNRESOLVED_BATCH_FILES"
        else
          set (journal.withFinalized claim record)
          pure claim.finalized

end CcbCore.Journal
