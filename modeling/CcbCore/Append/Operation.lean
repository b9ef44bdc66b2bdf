import CcbCore.Append.Envelope
import CcbCore.Library.Prog

/-!
# The append operation

`SafeLaneAppender.append_bus_message_v1` of `src/radar/safe_lane_append.py`, as a
program that calls its control source, its history source and its git backend. Each
of those may return any value of its type or raise any exception. `is_ancestor` is
an optional method: its reply is `none` when the backend has none, or when what it
returns is no `bool`.
-/

namespace CcbCore.Append

open CcbCore.Python

/-- `LaneBinding`. -/
structure LaneBinding where
  identity : String
  writer : String
  branch : String
  deriving DecidableEq, Repr

/-- `ControlSnapshot`. -/
structure ControlSnapshot where
  repository : String
  controlCommitSha : String
  topologyDigest : String
  lanes : String → Option LaneBinding

/-- `CommittedMessage`. -/
structure CommittedMessage where
  messageId : String
  messageSha256 : String
  commitSha : String
  path : String
  blobSha : String
  prevMessageId : Option String
  branch : Option String
  deriving DecidableEq, Repr

/-- `IdentityHistory`. -/
structure IdentityHistory where
  complete : Bool
  tipMessageIds : List String
  messages : List CommittedMessage
  deriving DecidableEq, Repr

/-- `CommitReadback`. -/
structure CommitReadback where
  parentShas : List String
  treeSha : String
  changedPaths : List String
  deriving DecidableEq, Repr

/-- `FileReadback`. -/
structure FileReadback where
  blobSha : String
  content : Bytes
  deriving DecidableEq

/-- `SafeAppendReceipt`, but for its constant `schema` and three `NOT_ESTABLISHED` states. -/
structure SafeAppendReceipt where
  result : String
  operationKey : String
  identity : String
  derivedWriter : String
  assertedWriter : String
  laneRef : String
  controlCommitSha : String
  topologyBlobSha : String
  expectedLaneHead : String
  prewriteObservedHead : String
  commitSha : String
  commitParentSha : String
  postwriteObservedHead : String
  treeSha : String
  path : String
  messageId : String
  prevMessageId : Option String
  messageBlobSha : String
  messageSha256 : String
  readbackVerified : Bool
  currentLaneAfterReadback : Bool
  deriving DecidableEq, Repr

/-- The methods of the three sources. -/
inductive Op where
  | readControl
  | readIdentity (identity : String)
  | readBranchHead (branch : String)
  | readFileAtCommit (commitSha path : String)
  | readCommit (commitSha : String)
  | createBlob (content : Bytes)
  | createTree (baseCommitSha path blobSha : String)
  | createCommit (message treeSha parentSha : String)
  | updateRefNonForce (branch candidateSha : String)
  | isAncestor (ancestor descendant : String)
  deriving DecidableEq

/-- What each method returns. -/
@[reducible] def Op.Reply : Op → Type
  | .readControl => ControlSnapshot
  | .readIdentity _ => IdentityHistory
  | .readBranchHead _ => Option String
  | .readFileAtCommit _ _ => Option FileReadback
  | .readCommit _ => Option CommitReadback
  | .createBlob _ => String
  | .createTree _ _ _ => String
  | .createCommit _ _ _ => String
  | .updateRefNonForce _ _ => Bool
  | .isAncestor _ _ => Option Bool

/-- The signature of the three sources. -/
abbrev Sources : Signature := ⟨Op, Op.Reply⟩

/-- A program over the sources. -/
abbrev Program (α : Type) := Prog Sources Exc α

/-- Call a method. -/
def ask (op : Op) : Program op.Reply := Prog.ask (I := Sources) op

/-- Call a method, and raise another exception for the one it raises. -/
def askOr (op : Op) (handler : Exc → Exc) : Program op.Reply := Prog.askOr (I := Sources) op handler

/-- Raise when a condition holds. -/
def refuseIf (p : Prop) [Decidable p] (exc : Exc) : Program Unit := Prog.refuseIf p exc

/-- A computation without a call. -/
def lift {α : Type} (result : Except Exc α) : Program α := Prog.lift result

/-! ### Wrapped calls -/

/-- `except Exception as exc: if isinstance(exc, SafeAppendError): raise; raise _error(code)`. -/
def keepSafe (code : String) : Exc → Exc
  | .safe error => .safe error
  | .other text => preflight code text

/-- `_read_control_preflight`. -/
def readControlPreflight : Program ControlSnapshot := askOr .readControl (keepSafe "TOPOLOGY_UNAVAILABLE")

/-- `_read_control_before_ref`. -/
def readControlBeforeRef : Program ControlSnapshot :=
  askOr .readControl fun exc => preflight "TOPOLOGY_CHANGED_DURING_APPEND" exc.text

/-- `_read_control_after_verified_effect`. -/
def readControlAfterVerifiedEffect : Program ControlSnapshot :=
  askOr .readControl fun exc => Exc.safe
    { code := "RECEIPT_INCOMPLETE", phase := "READBACK", retryClass := reconcileFirst, effectState := presentVerified,
      detail := some ("current topology readback unavailable: " ++ exc.text) }

/-- `_read_history`. -/
def readHistory (identity : String) : Program IdentityHistory := do
  let history ← askOr (.readIdentity identity) (keepSafe "MESSAGE_ID_HISTORY_UNRESOLVED")
  refuseIf (history.complete = false) (preflight "MESSAGE_ID_HISTORY_UNRESOLVED")
  pure history

/-- `_validate_predecessor`. -/
def validatePredecessor (history : IdentityHistory) (parsed : ParsedMessage) : Except Exc Unit :=
  match history.tipMessageIds with
  | _ :: _ :: _ => .error (preflight "PREDECESSOR_UNRESOLVED")
  | [] =>
    if history.messages ≠ [] then .error (preflight "PREDECESSOR_UNRESOLVED")
    else if parsed.prevMessageId ≠ none then .error (preflight "PREDECESSOR_MISMATCH")
    else .ok ⟨⟩
  | [tip] =>
    match parsed.prevMessageId with
    | none => .error (preflight "PREDECESSOR_MISSING")
    | some prev => if prev ≠ tip then .error (preflight "PREDECESSOR_MISMATCH") else .ok ⟨⟩

/-- A failure of `_create_blob`, `_create_tree` or `_create_commit`. -/
def objectError (code : String) (exc : Exc) : Exc :=
  .safe { code, phase := "OBJECT_CONSTRUCTION", retryClass := object, detail := some exc.text }

/-- `_create_blob`. -/
def createBlob (content : Bytes) : Program String := askOr (.createBlob content) (objectError "BLOB_CREATE_FAILED")

/-- `_create_tree`. -/
def createTree (expectedHead path blobSha : String) : Program String :=
  askOr (.createTree expectedHead path blobSha) (objectError "TREE_CREATE_FAILED")

/-- `_create_commit`. -/
def createCommit (messageId treeSha expectedHead : String) : Program String :=
  askOr (.createCommit ("bus: append " ++ messageId) treeSha expectedHead) (objectError "COMMIT_CREATE_FAILED")

/-! ### The point of effect -/

/-- An error of the ref's transition. -/
def refError (code effectState : String) (detail : Option String := none) : Exc :=
  .safe { code, phase := "REF_TRANSITION", retryClass := reconcileFirst, effectState, detail }

/-- `_candidate_reachability`. -/
def candidateReachability (candidateSha : String) (headSha : Option String) : Program (Option Bool) :=
  match headSha with
  | none => pure none
  | some head => Prog.call (I := Sources) (.isAncestor candidateSha head) fun
    | .ok result => pure result
    | .error _ => pure none

/-- What `_move_ref_or_reconcile` makes of an update that raised. -/
def reconcileUpdate (candidateSha expectedHead : String) (updateError : Exc) (afterUpdateHead : Option String) :
    Program Unit :=
  if afterUpdateHead = some candidateSha then pure ⟨⟩
  else do
    match ← candidateReachability candidateSha afterUpdateHead with
    | some true =>
      throw (readback "POSTWRITE_HEAD_MISMATCH" "candidate became reachable but is no longer lane head")
    | some false =>
      if afterUpdateHead ≠ some expectedHead then throw (refError "REF_UPDATE_STALE" noneEstablished)
      else throw (refError "WRITE_OUTCOME_UNKNOWN" "UNKNOWN" updateError.text)
    | none => throw (refError "WRITE_OUTCOME_UNKNOWN" "UNKNOWN" updateError.text)

/-- What `_move_ref_or_reconcile` makes of an update that returned. -/
def concludeUpdate (candidateSha expectedHead : String) (moved : Bool) (afterUpdateHead : Option String) :
    Except Exc Unit :=
  if moved = true ∨ afterUpdateHead = some candidateSha then .ok ⟨⟩
  else if afterUpdateHead ≠ some expectedHead then .error (refError "REF_UPDATE_STALE" noneEstablished)
  else .error (refError "REF_UPDATE_REJECTED" noneEstablished)

/-- `_move_ref_or_reconcile`. -/
def moveRefOrReconcile (branch candidateSha expectedHead : String) : Program Unit :=
  Prog.call (I := Sources) (.updateRefNonForce branch candidateSha) fun update => do
    let afterUpdateHead ← askOr (.readBranchHead branch) fun exc => refError "WRITE_OUTCOME_UNKNOWN" "UNKNOWN" exc.text
    match update with
    | .error updateError => reconcileUpdate candidateSha expectedHead updateError afterUpdateHead
    | .ok moved => lift (concludeUpdate candidateSha expectedHead moved afterUpdateHead)

/-! ### Readback -/

variable (runtime : Runtime)

/-- What an append has established of its message before it calls for anything. -/
structure Envelope where
  identity : String
  expectedHead : String
  messageBytes : Bytes
  parsed : ParsedMessage
  deriving DecidableEq

/-- `message_digest`. -/
def Envelope.digest (envelope : Envelope) : String := runtime.sha256 envelope.messageBytes

/-- `operation_key`. -/
def Envelope.operationKey (envelope : Envelope) : String :=
  "radar-safe-append-v1:" ++ envelope.identity ++ ":" ++ envelope.parsed.messageId ++ ":" ++ envelope.digest runtime

/-- `path` of a new message. -/
def Envelope.path (envelope : Envelope) : String := "messages/" ++ envelope.parsed.messageId ++ ".md"

/-- The file read back parses as the message did: any exception, of the decoder or the
parser, is a mismatch. -/
def verifyMetadata (parsed : ParsedMessage) (content : Bytes) : Except Exc Unit :=
  match asExactUtf8 runtime (.bytes content) with
  | .error _ => .error (readback "POSTWRITE_METADATA_MISMATCH" (runtime.decodeError content))
  | .ok (text, _) =>
    match parseMessage text with
    | .error exc => .error (readback "POSTWRITE_METADATA_MISMATCH" exc.text)
    | .ok readParsed =>
      if readParsed ≠ parsed then .error (readback "POSTWRITE_METADATA_MISMATCH") else .ok ⟨⟩

/-- `_reconstruct_existing`: the calls that read a commit and its file are not in a `try`. -/
def reconstructExisting (control : ControlSnapshot) (currentBinding : LaneBinding) (envelope : Envelope)
    (observedHead : String) (existing : CommittedMessage) : Program SafeAppendReceipt := do
  let commit ← ask (.readCommit existing.commitSha)
  let fileRecord ← ask (.readFileAtCommit existing.commitSha existing.path)
  match commit, fileRecord with
  | some commit, some file =>
    match commit.parentShas with
    | [parent] =>
      refuseIf (existing.path ∉ commit.changedPaths) (readback "RECEIPT_INCOMPLETE")
      refuseIf (file.content ≠ envelope.messageBytes ∨ runtime.sha256 file.content ≠ envelope.digest runtime)
        (readback "POSTWRITE_CONTENT_MISMATCH")
      refuseIf (existing.blobSha ≠ "" ∧ existing.blobSha ≠ file.blobSha)
        (readback "RECEIPT_INCOMPLETE" "history blob differs from Git readback")
      lift (verifyMetadata runtime envelope.parsed file.content)
      let finalControl ← readControlAfterVerifiedEffect
      let laneUsed :=
        match existing.branch with
        | none => currentBinding.branch
        | some branch => if branch = "" then currentBinding.branch else branch
      pure
        { result := "ALREADY_COMMITTED", operationKey := envelope.operationKey runtime
          identity := currentBinding.identity, derivedWriter := currentBinding.writer
          assertedWriter := envelope.parsed.writer, laneRef := laneUsed
          controlCommitSha := control.controlCommitSha, topologyBlobSha := control.topologyDigest
          expectedLaneHead := envelope.expectedHead, prewriteObservedHead := observedHead
          commitSha := existing.commitSha, commitParentSha := parent, postwriteObservedHead := observedHead
          treeSha := commit.treeSha, path := existing.path, messageId := envelope.parsed.messageId
          prevMessageId := envelope.parsed.prevMessageId, messageBlobSha := file.blobSha
          messageSha256 := envelope.digest runtime, readbackVerified := true
          currentLaneAfterReadback :=
            (finalControl.lanes currentBinding.identity).any fun final => final.branch = laneUsed }
    | _ => throw (readback "RECEIPT_INCOMPLETE")
  | _, _ => throw (readback "RECEIPT_INCOMPLETE")

/-- `_verify_new_append`: the calls that read a commit and its file are not in a `try`. -/
def verifyNewAppend (control : ControlSnapshot) (binding : LaneBinding) (envelope : Envelope)
    (prewriteObservedHead candidateSha treeSha blobSha : String) : Program SafeAppendReceipt := do
  let head ← askOr (.readBranchHead binding.branch) fun exc => readback "POSTWRITE_HEAD_MISMATCH" exc.text
  refuseIf (head ≠ some candidateSha) (readback "POSTWRITE_HEAD_MISMATCH")
  let commit ← ask (.readCommit candidateSha)
  match commit with
  | none => throw (readback "POSTWRITE_COMMIT_SHAPE_MISMATCH")
  | some commit =>
    refuseIf (commit.parentShas ≠ [envelope.expectedHead] ∨ commit.treeSha ≠ treeSha)
      (readback "POSTWRITE_COMMIT_SHAPE_MISMATCH")
    refuseIf (commit.changedPaths ≠ [envelope.path]) (readback "POSTWRITE_PATH_MISMATCH")
    let fileRecord ← ask (.readFileAtCommit candidateSha envelope.path)
    match fileRecord with
    | none => throw (readback "POSTWRITE_PATH_MISMATCH")
    | some file =>
      refuseIf (file.content ≠ envelope.messageBytes ∨ file.blobSha ≠ blobSha ∨
        runtime.sha256 file.content ≠ envelope.digest runtime) (readback "POSTWRITE_CONTENT_MISMATCH")
      lift (verifyMetadata runtime envelope.parsed file.content)
      let finalControl ← readControlAfterVerifiedEffect
      pure
        { result := "APPENDED", operationKey := envelope.operationKey runtime
          identity := binding.identity, derivedWriter := binding.writer
          assertedWriter := envelope.parsed.writer, laneRef := binding.branch
          controlCommitSha := control.controlCommitSha, topologyBlobSha := control.topologyDigest
          expectedLaneHead := envelope.expectedHead, prewriteObservedHead := prewriteObservedHead
          commitSha := candidateSha, commitParentSha := envelope.expectedHead, postwriteObservedHead := candidateSha
          treeSha := treeSha, path := envelope.path, messageId := envelope.parsed.messageId
          prevMessageId := envelope.parsed.prevMessageId, messageBlobSha := file.blobSha
          messageSha256 := envelope.digest runtime, readbackVerified := true
          currentLaneAfterReadback :=
            (finalControl.lanes binding.identity).any fun final => final.branch = binding.branch }

/-! ### The operation -/

/-- `_same_binding`. -/
def sameBinding (first second : ControlSnapshot) (identity : String) : Bool :=
  first.repository = second.repository ∧ first.topologyDigest = second.topologyDigest ∧
    first.lanes identity = second.lanes identity

/-- The checks an append makes before its first call. -/
def openEnvelope (identity expectedLaneHead : String) (message : Utf8) : Except Exc Envelope := do
  let identity ← validateIdentity identity
  let expectedHead ← validateExpectedHead expectedLaneHead
  let (text, messageBytes) ← asExactUtf8 runtime message
  let parsed ← parseMessage text
  validateMessageId identity parsed.messageId
  pure ⟨identity, expectedHead, messageBytes, parsed⟩

variable {runtime}

/-- What is left of the opening when the identity and the expected head are valid. -/
theorem openEnvelope_eq {runtime : Runtime} {identity expectedLaneHead : String} {message : Utf8}
    (hid : isIdentity identity.toList = true) (hhead : isSha40 expectedLaneHead.toList = true) :
    openEnvelope runtime identity expectedLaneHead message =
      (asExactUtf8 runtime message).bind fun (text, messageBytes) => (parseMessage text).bind fun parsed =>
        (validateMessageId identity parsed.messageId).bind fun _ =>
          .ok ⟨identity, lower expectedLaneHead, messageBytes, parsed⟩ := by
  simp [openEnvelope, validateIdentity, validateExpectedHead, hid, hhead, bind, Except.bind, pure, Except.pure]

theorem asExactUtf8_ok {message : Utf8} {text : List Char} {messageBytes : Bytes}
    (h : asExactUtf8 runtime message = .ok (text, messageBytes)) : decode messageBytes = some text := by
  unfold asExactUtf8 at h
  split at h
  · split at h
    · cases h
      exact decode_encode text
    · cases h
  · split at h
    · next hdecode =>
      cases h
      exact hdecode
    · cases h

/-- What an opened envelope holds. -/
theorem openEnvelope_ok {identity expectedLaneHead : String} {message : Utf8} {envelope : Envelope}
    (h : openEnvelope runtime identity expectedLaneHead message = .ok envelope) :
    isIdentity identity.toList = true ∧ isSha40 expectedLaneHead.toList = true ∧ envelope.identity = identity ∧
      envelope.expectedHead = lower expectedLaneHead ∧
      (∃ text, asExactUtf8 runtime message = .ok (text, envelope.messageBytes) ∧
        parseMessage text = .ok envelope.parsed) ∧
      validateMessageId identity envelope.parsed.messageId = .ok () := by
  by_cases hid : isIdentity identity.toList = true
  case neg => simp [openEnvelope, validateIdentity, hid, bind, Except.bind] at h
  by_cases hhead : isSha40 expectedLaneHead.toList = true
  case neg => simp [openEnvelope, validateIdentity, validateExpectedHead, hid, hhead, bind, Except.bind] at h
  rw [openEnvelope_eq hid hhead] at h
  cases hutf8 : asExactUtf8 runtime message with
  | error exc => simp [hutf8, Except.bind] at h
  | ok pair =>
    cases hparse : parseMessage pair.1 with
    | error exc => simp [hutf8, hparse, Except.bind] at h
    | ok parsed =>
      cases hvalid : validateMessageId identity parsed.messageId with
      | error exc => simp [hutf8, hparse, hvalid, Except.bind] at h
      | ok _ =>
        simp only [hutf8, hparse, hvalid, Except.bind, Except.ok.injEq] at h
        subst h
        exact ⟨hid, hhead, rfl, rfl, ⟨pair.1, rfl, hparse⟩, hvalid⟩

variable (runtime)

/-- The binding of the identity's lane, of which the message's writer is the writer. -/
def requireBinding (control : ControlSnapshot) (envelope : Envelope) : Except Exc LaneBinding :=
  match control.lanes envelope.identity with
  | none => .error (preflight "IDENTITY_UNKNOWN")
  | some binding =>
    if binding.identity ≠ envelope.identity then .error (preflight "TOPOLOGY_IDENTITY_AMBIGUOUS")
    else if runtime.casefold envelope.parsed.writer ≠ runtime.casefold binding.writer then
      .error (preflight "WRITER_MISMATCH")
    else .ok binding

/-- The head of the lane, which has been bootstrapped. -/
def observeHead (branch : String) : Program String := do
  let observed ← askOr (.readBranchHead branch) fun exc => preflight "LANE_UNREGISTERED" exc.text
  match observed with
  | none => throw (preflight "LANE_MISSING_BOOTSTRAP_REQUIRED")
  | some head => pure head

/-- The append of a message whose id the history does not have, up to the ref: its
blob, tree and commit. -/
def buildCandidate (control : ControlSnapshot) (envelope : Envelope) (history : IdentityHistory)
    (observedHead : String) : Program (String × String × String) := do
  refuseIf (lower observedHead ≠ envelope.expectedHead) (preflight "STALE_LANE_HEAD")
  lift (validatePredecessor history envelope.parsed)
  let preexisting ← askOr (.readFileAtCommit envelope.expectedHead envelope.path) fun exc =>
    preflight "MESSAGE_PATH_COLLISION" exc.text
  refuseIf (preexisting ≠ none) (preflight "MESSAGE_PATH_COLLISION")
  let blobSha ← createBlob envelope.messageBytes
  let treeSha ← createTree envelope.expectedHead envelope.path blobSha
  let candidateSha ← createCommit envelope.parsed.messageId treeSha envelope.expectedHead
  let rebound ← readControlBeforeRef
  refuseIf (sameBinding control rebound envelope.identity = false) (preflight "TOPOLOGY_CHANGED_DURING_APPEND")
  pure (blobSha, treeSha, candidateSha)

/-- The messages of the history with the message's id. -/
def duplicates (history : IdentityHistory) (envelope : Envelope) : List CommittedMessage :=
  history.messages.filter fun item => item.messageId = envelope.parsed.messageId

/-- The append of an envelope. -/
def appendEnvelope (envelope : Envelope) : Program SafeAppendReceipt := do
  let control ← readControlPreflight
  let binding ← lift (requireBinding runtime control envelope)
  let observedHead ← observeHead binding.branch
  let history ← readHistory envelope.identity
  match duplicates history envelope with
  | [] =>
    let (blobSha, treeSha, candidateSha) ← buildCandidate control envelope history observedHead
    moveRefOrReconcile binding.branch candidateSha envelope.expectedHead
    verifyNewAppend runtime control binding envelope observedHead candidateSha treeSha blobSha
  | [existing] =>
    if existing.messageSha256 ≠ envelope.digest runtime then throw (preflight "MESSAGE_ID_COLLISION")
    else reconstructExisting runtime control binding envelope observedHead existing
  | _ :: _ :: _ => throw (preflight "MESSAGE_ID_COLLISION")

/-- `append_bus_message_v1`. -/
def appendBusMessageV1 (identity expectedLaneHead : String) (message : Utf8) : Program SafeAppendReceipt := do
  let envelope ← lift (openEnvelope runtime identity expectedLaneHead message)
  appendEnvelope runtime envelope

end CcbCore.Append
