import CcbCore.Edge.Request
import CcbCore.Library.Prog
import CcbCore.Projection.Runs
import CcbCore.Reconcile.Target
import Mathlib.Data.String.Basic

/-!
# Projecting the requested lanes

`project_requested_lanes` of `src/scripts/radar_trusted_project.py` with
`requested_identities` of `src/radar/trusted_wakeup.py`: a program over the calls of
`ProviderProjectionClient`, which reads a clone of the repository between them. `Provides` says
what answers the calls: the Edge function's `handleOperation`, over the journal's functions. A
call that raises may have been made, or not.

A revision is the full name of a commit. The ids of a batch and its token are read back as they
were given.
-/

namespace CcbCore.Reconcile

open CcbCore.Python CcbCore.Git CcbCore.Lane CcbCore.Raising CcbCore.Projection
open CcbCore.JavaScript (Engine)
open CcbCore.Postgres (isHex)

/-! ### What is asked for -/

/-- A clone of the repository, with its branches under `refs/remotes/origin/`. -/
structure Clone (π : Type) [DecidableEq π] where
  objects : Objects π
  branches : String → Option String
  branches_known : ∀ {branch c}, branches branch = some c → objects.graph.Known c

/-- What the reconciler reads of a clone. -/
def Clone.checkout {π : Type} [DecidableEq π] (clone : Clone π) : Checkout where
  graph := clone.objects.graph
  branches := clone.branches
  revision name := (clone.objects.graph.parents name).map fun _ => name
  branches_known := clone.branches_known
  revision_known := by
    intro name c h
    obtain ⟨ps, hps, rfl⟩ := Option.map_eq_some_iff.mp h
    exact Option.isSome_iff_exists.mpr ⟨ps, hps⟩
  revision_self := by
    intro c h
    obtain ⟨ps, hps⟩ := Option.isSome_iff_exists.mp h
    exact Option.map_eq_some_iff.mpr ⟨ps, hps, rfl⟩

/-- `_REPOSITORY`. -/
def isRepository (text : List Char) : Bool :=
  match text.splitOn '/' with
  | [owner, name] => owner ≠ [] ∧ name ≠ [] ∧ owner.all Edge.isSegmentChar ∧ name.all Edge.isSegmentChar
  | _ => false

/-- `_topology_repository`, of the topology's `repository`. -/
def topologyRepository (repository : Json) : Except RadarError String :=
  match repository with
  | .string text => if isRepository text.toList then .ok text else .error (.code "TRUSTED_TOPOLOGY_REPOSITORY_INVALID")
  | _ => .error (.code "TRUSTED_TOPOLOGY_REPOSITORY_INVALID")

/-- `_active_identity_for_branch`. -/
def activeIdentityForBranch (topology : Topology) (branch : String) : Except RadarError String :=
  match topology.active.filter fun entry => entry.2.branch = branch with
  | [entry] => .ok entry.1
  | _ => .error (.code "WAKEUP_BRANCH_NOT_ACTIVE")

/-- What a run is given, and what git prints of its control cut. -/
structure ProjectArgs (π : Type) [DecidableEq π] where
  clone : Clone π
  /-- `repository` in the topology's file. -/
  topologyRepository : Json
  eventName : String
  event : List (String × Json)
  repository : String
  /-- `rev-parse HEAD`. -/
  controlSha : Option String
  /-- `rev-parse HEAD:path`. -/
  topologySha : Option String
  owner : String

variable {π : Type} [DecidableEq π] [FileName π]

/-- `requested_identities`. -/
def requestedIdentities (topology : Topology) (args : ProjectArgs π) : Except RadarError (List String × Option String) := do
  let bound ← topologyRepository args.topologyRepository
  rejectIf (args.repository ≠ bound) (.code "UNTRUSTED_CALLER_REPOSITORY")
  rejectIf (args.eventName ≠ "workflow_run" ∧ args.eventName ≠ "schedule") (.code "UNSUPPORTED_CALLER_EVENT")
  if args.eventName = "schedule" then
    return ((topology.active.map (·.1)).insertionSort fun a b => a.toList ≤ b.toList, none)
  match Json.get args.event "workflow_run" with
  | .object run =>
    match Json.get run "head_branch", Json.get run "head_sha" with
    | .string branch, .string head =>
      rejectIf (branch = "") (.code "WORKFLOW_RUN_BRANCH_INVALID")
      rejectIf (isHex 40 head = false) (.code "WORKFLOW_RUN_HEAD_INVALID")
      let identity ← activeIdentityForBranch topology branch
      return ([identity], some head)
    | .string branch, _ =>
      rejectIf (branch = "") (.code "WORKFLOW_RUN_BRANCH_INVALID")
      throw (.code "WORKFLOW_RUN_HEAD_INVALID")
    | _, _ => throw (.code "WORKFLOW_RUN_BRANCH_INVALID")
  | _ => throw (.code "WORKFLOW_RUN_EVENT_INVALID")

/-! ### The client's calls -/

/-- The arguments of `claim_batch`. -/
structure ClaimRequest where
  identity : String
  branch : String
  expectedProjectedHead : Option String
  targetHead : String
  controlSha : String
  topologySha : String
  files : List String
  owner : String
  leaseSeconds : ℤ

/-- The arguments of `project_batch`. -/
structure ProjectRequest where
  identity : String
  branch : String
  branchHead : String
  batchId : Uuid
  claimToken : Uuid
  files : List ProjectionFile

/-- A call of `ProviderProjectionClient`. -/
inductive ClientCall where
  | getLane (identity branch : String)
  | setControlCut (identity branch controlSha topologySha : String)
  | claimBatch (request : ClaimRequest)
  | projectBatch (request : ProjectRequest)
  | finalizeBatch (batchId claimToken : Uuid)

/-- What a call returns: of a lane its `projected_head_sha`, of a claim its id and token, and of
the files that are projected each one's `result`. -/
def ClientCall.Reply : ClientCall → Type
  | .getLane _ _ => Option (Option String)
  | .setControlCut _ _ _ _ => Unit
  | .claimBatch _ => Uuid × Uuid
  | .projectBatch _ => List (Option String)
  | .finalizeBatch _ _ => Option String

/-- The calls of `ProviderProjectionClient`. -/
def Client : Signature := ⟨ClientCall, ClientCall.Reply⟩

/-! ### The program -/

/-- A lane's report. -/
structure LaneReport where
  identity : String
  branch : String
  disposition : AncestryDisposition
  projectedHead : Option String
  observedHead : String
  workflowRunHeadHint : Option String
  hintMatchesObservedHead : Option Bool
  /-- `projected_files` and `finalized_head`. -/
  finalized : Option (ℕ × String) := none

/-- `_provider_cursor`. -/
def providerCursor (lane : Option (Option String)) : Except RadarError (Option String) :=
  match lane with
  | none => .error (.code "PROVIDER_LANE_UNSEEDED")
  | some none => .ok none
  | some (some head) => if isHex 40 head then .ok (some head) else .error (.code "PROVIDER_CURSOR_INVALID")

/-- `CLAIM_LEASE_SECONDS`. -/
def claimLeaseSeconds : ℤ := 15 * 60

variable (runtime : Runtime) (topology : Topology) (cutover : Option Json)

/-- A row's result is a `str`, and does not say that the file failed. -/
def isProjected (result : Option String) : Bool :=
  result.any fun status => runtime.casefold status ∉ ["conflict", "failed", "error"]

/-- The loop over the chunks, with the rows so far. -/
def projectChunks (request : List ProjectionFile → ProjectRequest) (projected : ℕ) :
    List (List ProjectionFile) → Prog Client RadarError ℕ
  | [] => pure projected
  | chunk :: chunks => do
    let rows : List (Option String) ← Prog.ask (I := Client) (.projectBatch (request chunk))
    Prog.refuseIf (rows.all (isProjected runtime) = false) (.code "PROVIDER_FILE_RESULT_FAILED")
    projectChunks request (projected + rows.length) chunks

/-- What is done for a lane whose target is forward. -/
def projectForward (args : ProjectArgs π) (controlSha topologySha : String) (target : ReconcileTarget) :
    Prog Client RadarError (ℕ × String) := do
  let commits ← Prog.lift (validateActiveWriterRange runtime args.clone.objects topology cutover target.identity target.baseHead
    target.observedHead)
  Prog.refuseIf (commits ≠ target.commits) (.code "TRUSTED_RANGE_MISMATCH")
  let files ← Prog.lift (collectProjectionFiles args.clone.objects commits)
  let _ ← Prog.ask (I := Client) (.setControlCut target.identity target.branch controlSha topologySha)
  let claim : Uuid × Uuid ← Prog.ask (I := Client) (.claimBatch
    { identity := target.identity, branch := target.branch, expectedProjectedHead := target.projectedHead
      targetHead := target.observedHead, controlSha, topologySha, files := files.map ProjectionFile.path
      owner := args.owner, leaseSeconds := claimLeaseSeconds })
  let chunks ← Prog.lift (chunkProjectionFiles files)
  let projected ← projectChunks runtime
    (fun chunk => ⟨target.identity, target.branch, target.observedHead, claim.1, claim.2, chunk⟩) 0 chunks
  let head : Option String ← Prog.ask (I := Client) (.finalizeBatch claim.1 claim.2)
  Prog.refuseIf (head ≠ some target.observedHead) (.code "PROVIDER_FINAL_CURSOR_MISMATCH")
  pure (projected, target.observedHead)

/-- The body of the loop over the identities. -/
def projectLane (args : ProjectArgs π) (hint : Option String) (controlSha topologySha identity : String) :
    Prog Client RadarError LaneReport :=
  match topology.active.lookup identity with
  -- a `KeyError`, of an identity that is not requested
  | none => throw (.code identity)
  | some lane => do
    let row : Option (Option String) ← Prog.ask (I := Client) (.getLane identity lane.branch)
    let cursor ← Prog.lift (providerCursor row)
    let target ← Prog.lift (deriveTarget args.clone.checkout.repository topology cutover (fun _ _ => cursor) identity)
    let report : LaneReport := ⟨identity, lane.branch, target.disposition, target.projectedHead, target.observedHead, hint,
      hint.map (· = target.observedHead), none⟩
    match target.disposition with
    | .noop | .staleEvent => pure report
    | .divergedHistory => throw (.code ("DIVERGED_HISTORY:" ++ identity ++ ":" ++ lane.branch))
    | .forward =>
      let finalized ← projectForward runtime topology cutover args controlSha topologySha target
      pure { report with finalized := some finalized }

/-- The loop over the identities. -/
def projectLanes (args : ProjectArgs π) (hint : Option String) (controlSha topologySha : String) :
    List String → Prog Client RadarError (List LaneReport)
  | [] => pure []
  | identity :: identities => do
    let report ← projectLane runtime topology cutover args hint controlSha topologySha identity
    let reports ← projectLanes args hint controlSha topologySha identities
    pure (report :: reports)

/-- `project_requested_lanes`: the reports of the lanes. -/
def projectRequestedLanes (args : ProjectArgs π) : Prog Client RadarError (List LaneReport) := do
  let (identities, hint) ← Prog.lift (requestedIdentities topology args)
  let controlSha ← Prog.lift (orGit args.controlSha)
  let topologySha ← Prog.lift (orGit args.topologySha)
  Prog.refuseIf (isHex 40 controlSha = false ∨ isHex 40 topologySha = false) (.code "TRUSTED_CONTROL_CUT_INVALID")
  projectLanes runtime topology cutover args hint controlSha topologySha identities

/-! ### The provider -/

variable (engine : Engine)

/-- The lane's row in the journal, as the Edge function reads an identity and a branch. -/
def journalKey (identity branch : String) : Except Edge.HttpError LaneKey := do
  let identity ← Edge.requireString (.string identity) "IDENTITY_REQUIRED"
  let branch ← Edge.requireString (.string branch) "BRANCH_REQUIRED"
  pure (Edge.normalizeIdentity engine identity, branch)

/-- The call for the operation `set_control_cut`. -/
def controlCutCall (identity branch controlSha topologySha : String) : Except Edge.HttpError Projection.Call := do
  let key ← journalKey engine identity branch
  let control ← Edge.requireSha40 engine (.string controlSha) "CONTROL_SHA_INVALID"
  let topology ← Edge.requireSha40 engine (.string topologySha) "TOPOLOGY_SHA_INVALID"
  pure (.setControlCut (some key.1) (some key.2) (some control) (some topology))

/-- `requireSha40`, unless it is `null`. -/
def nullableSha40 (value : Option String) (code : String) : Except Edge.HttpError (Option String) :=
  match value with
  | none => .ok none
  | some head => some <$> Edge.requireSha40 engine (.string head) code

/-- The arguments of the journal for the operation `claim_batch`. -/
def claimArgs (request : ClaimRequest) : Except Edge.HttpError ClaimArgs := do
  let key ← journalKey engine request.identity request.branch
  let expected ← nullableSha40 engine request.expectedProjectedHead "EXPECTED_HEAD_INVALID"
  let target ← Edge.requireSha40 engine (.string request.targetHead) "TARGET_HEAD_INVALID"
  let control ← Edge.requireSha40 engine (.string request.controlSha) "CONTROL_SHA_INVALID"
  let topology ← Edge.requireSha40 engine (.string request.topologySha) "TOPOLOGY_SHA_INVALID"
  rejectIf ("" ∈ request.files) (Edge.unprocessable "CLAIM_FILES_INVALID")
  let owner ← Edge.requireString (.string request.owner) "CLAIM_OWNER_REQUIRED"
  rejectIf (request.leaseSeconds ≤ 0 ∨ 3600 < request.leaseSeconds) (Edge.unprocessable "CLAIM_LEASE_INVALID")
  pure ⟨some key.1, some key.2, expected, some target, some control, some topology, some (request.files.map some), some owner,
    some request.leaseSeconds⟩

/-- A file of the request is projected, under its claim. -/
def ProjectRequest.Projects (request : ProjectRequest) (event : Event) : Prop :=
  ∃ args, event.call = .projectFile args ∧ args.batchId = some request.batchId ∧ args.claimToken = some request.claimToken ∧
    ∃ file ∈ request.files, args.path = some file.path

variable {Other : Type} (server : Server Other)

/-- A call of the journal returns. -/
def Returns (call : Projection.Call) (db : Database Other) (reply : Projection.Reply) (db' : Database Other) : Prop :=
  ∃ now, (transaction (call.body server now)).run db = .ok reply db'

/-- What answers a call of the client. -/
inductive Provides : (call : ClientCall) → Database Other → Except RadarError call.Reply → Database Other → Prop where
  | getLane {identity branch : String} {key : LaneKey} {db : Database Other} :
      journalKey engine identity branch = .ok key →
      Provides (.getLane identity branch) db
        (.ok ((db.laneState.lookup key).map fun row => row.projectedHeadSha.map (·.text))) db
  | setControlCut {identity branch controlSha topologySha : String} {call : Projection.Call} {reply : Projection.Reply}
      {db db' : Database Other} :
      controlCutCall engine identity branch controlSha topologySha = .ok call → Returns server call db reply db' →
      Provides (.setControlCut identity branch controlSha topologySha) db (.ok ()) db'
  | claimBatch {request : ClaimRequest} {args : ClaimArgs} {batchId claimToken id : Uuid} {batch : BatchRow}
      {db db' : Database Other} :
      claimArgs engine request = .ok args →
      Returns server (.claimBatch batchId claimToken args) db (.batch (id, batch)) db' →
      Provides (.claimBatch request) db (.ok (id, batch.claimToken)) db'
  /-- The files are projected one by one; calls of others between them come before. -/
  | projectBatch {request : ProjectRequest} {rows : List (Option String)} {events : List Event} {db : Database Other} :
      (∀ event ∈ events, request.Projects event) →
      Provides (.projectBatch request) db (.ok rows) (World.play server ⟨db, 0⟩ events).db
  | finalizeBatch {batchId claimToken : Uuid} {lane : LaneKey × LaneRow} {db db' : Database Other} :
      Returns server (.finalizeBatch (some batchId) (some claimToken)) db (.lane lane) db' →
      Provides (.finalizeBatch batchId claimToken) db (.ok (lane.2.projectedHeadSha.map (·.text))) db'
  /-- The call is refused. -/
  | refused {call : ClientCall} {e : RadarError} {db : Database Other} : Provides call db (.error e) db
  /-- The reply is lost. -/
  | lost {call : ClientCall} {reply : call.Reply} {e : RadarError} {db db' : Database Other} :
      Provides call db (.ok reply) db' → Provides call db (.error e) db'

end CcbCore.Reconcile
