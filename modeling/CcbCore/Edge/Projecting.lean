import CcbCore.Edge.Admission
import CcbCore.Message.Grammar
import CcbCore.Receipts.ThirdParties

/-!
# Projecting a file

`parseProjectionBatch` and `projectFile` of `supabase/functions/github-bus-ingest/handler.ts`, up to the call of
`radar_projection_project_file_v1`, whose arguments `projectFile` gives here: it reads a source file for the batch
that it is in. `Digests` are the two digests of WebCrypto, in hexadecimal.
-/

namespace CcbCore.Edge

open CcbCore.Python CcbCore.JavaScript CcbCore.Message CcbCore.Raising
open CcbCore.Postgres (Jsonb)
open CcbCore.Receipts (Provenance)

/-- `crypto.subtle.digest`, and `hex` of it. -/
structure Digests where
  sha1 : Bytes → String
  sha256 : Bytes → String

variable (engine : Engine) (digests : Digests)

/-! ### Batches -/

/-- `EXPECTED_REPOSITORY`. -/
def expectedRepository : String := "example/ccb-core"

/-- `ProjectionBatch`. -/
structure ProjectionBatch where
  repository : String
  branch : String
  ref : String
  branchHead : String
  laneIdentity : String
  batchId : String
  claimToken : String
  files : List SourceFile

/-- `parseProjectionBatch`, of the request's `files` apart. -/
def parseProjectionBatch (raw : List (String × Json)) (files : Option (List Json)) : Except HttpError ProjectionBatch := do
  let repository ← requireString (Json.get raw "repository") "BATCH_REPOSITORY_REQUIRED"
  rejectIf (repository ≠ expectedRepository) ⟨403, "BATCH_REPOSITORY_MISMATCH"⟩
  let branch ← requireString (Json.get raw "branch") "BATCH_BRANCH_REQUIRED"
  let ref ← requireString (Json.get raw "ref") "BATCH_REF_REQUIRED"
  rejectIf (ref ≠ "refs/heads/" ++ branch) ⟨403, "BATCH_REF_MISMATCH"⟩
  let branchHead ← requireSha40 engine (Json.get raw "branch_head") "BATCH_HEAD_REQUIRED"
  let lane ← requireString (Json.get raw "lane_identity") "LANE_IDENTITY_REQUIRED"
  let laneIdentity := normalizeIdentity engine lane
  let identity ← requireString (Json.get raw "identity") "IDENTITY_REQUIRED"
  rejectIf (normalizeIdentity engine identity ≠ laneIdentity) ⟨403, "LANE_IDENTITY_MISMATCH"⟩
  rejectIf ((laneIdentityFromRef engine ref).filter (· ≠ "") ≠ some laneIdentity) ⟨403, "LANE_IDENTITY_REF_MISMATCH"⟩
  let journal ← requireObject (Json.get raw "journal") "JOURNAL_REQUIRED"
  let batchId ← requireString (Json.get journal "batch_id") "JOURNAL_BATCH_ID_REQUIRED"
  let claimToken ← requireString (Json.get journal "claim_token") "JOURNAL_CLAIM_TOKEN_REQUIRED"
  let files ← parseSourceFiles engine files
  return { repository, branch, ref, branchHead, laneIdentity, batchId, claimToken, files }

/-! ### Headers -/

/-- `requireString` of a header. -/
def requireHeader (headers : Headers) (key code : String) : Except HttpError (List Char) :=
  match headers.lookup key with
  | none => .error (unprocessable code)
  | some value => if trim value = [] then .error (unprocessable code) else .ok (trim value)

/-- `parseBool`. -/
def parseBool (value : Option (List Char)) (code : String) : Except HttpError Bool :=
  match value with
  | none => .ok false
  | some value =>
    if trim value = [] then .ok false
    else
      let normalized := engine.toLowerCase (String.ofList (unwrapScalar value))
      if normalized ∈ ["true", "yes", "1"] then .ok true
      else if normalized ∈ ["false", "no", "0"] then .ok false
      else .error (unprocessable code)

/-- `/(Z|[+-]\d{2}:\d{2})$/i`. -/
def endsInZone (text : List Char) : Bool :=
  match text.reverse with
  | m₂ :: m₁ :: ':' :: h₂ :: h₁ :: sign :: _ => (sign = '+' ∨ sign = '-') ∧ [h₁, h₂, m₁, m₂].all isAsciiDigit
  | c :: _ => c = 'Z' ∨ c = 'z'
  | [] => false

/-- `normalizedTimestamp`. -/
def normalizedTimestamp (value : List Char) : Option (List Char) :=
  let candidate := unwrapScalar value
  if isDateOnly candidate then
    let midnight := candidate ++ "T00:00:00Z".toList
    (engine.dateParse (String.ofList midnight)).map fun _ => midnight
  else if endsInZone candidate = false then none
  else (engine.dateParse (String.ofList candidate)).map fun _ => candidate

/-- `createdAt`, and `createdAtBasis`. -/
def readCreatedAt (headers : Headers) (sourceTime : List Char) : Except HttpError (List Char × String) :=
  match headers.lookup "created_at" with
  | none => .ok (sourceTime, "source_commit")
  | some value =>
    match normalizedTimestamp engine value with
    | none => .error (unprocessable "INVALID_CREATED_AT")
    | some declaredTime => .ok (declaredTime, "message_header")

/-- `intendedRecipient`. -/
def intendedRecipient (headers : Headers) : Except HttpError (List Char) :=
  match headers.lookup "intended_recipient", headers.lookup "intended_recipients" with
  | some _, some _ => .error (unprocessable "CONFLICTING_INTENDED_RECIPIENT_HEADERS")
  | some singular, none => .ok (unwrapScalar singular)
  | none, plural => .ok (unwrapScalar (plural.getD []))

/-- `audience`. -/
def audienceOf (intended : List Char) : List String :=
  (((intended.splitOn ',').map unwrapScalar).filter (· ≠ [])).map fun value => normalizeIdentity engine (String.ofList value)

/-- `requiresAck`: the second header is read if the first is not true. -/
def readRequiresAck (headers : Headers) : Except HttpError Bool := do
  let requiresReply ← parseBool engine (headers.lookup "requires_reply") "INVALID_REQUIRES_REPLY"
  if requiresReply then pure true else parseBool engine (headers.lookup "requires_ack") "INVALID_REQUIRES_ACK"

/-! ### Bodies -/

/-- `trimmed.slice(trimmed.lastIndexOf("\n") + 1).replace(/\r$/, "")`. -/
def lastLine (trimmed : List Char) : List Char :=
  let line := trimmed.rtakeWhile (· ≠ '\n')
  if line.getLast? = some '\r' then line.dropLast else line

/-- `conversationClosedBySender`. -/
def conversationClosedBySender (body : List Char) : Bool :=
  let trimmed := trimEnd body
  if trimmed = [] then false else lastLine trimmed = "#ENDTHREAD".toList

/-! ### Files -/

/-- `gitBlobSha1`. -/
def gitBlobSha1 (bytes : Bytes) : String :=
  digests.sha1 (encode ("blob " ++ toString bytes.size ++ "\u0000").toList ++ bytes)

/-- The arguments of `radar_projection_project_file_v1`. -/
structure FileCall where
  batchId : String
  claimToken : String
  path : String
  messageId : String
  createdAt : String
  sender : String
  audience : List String
  requiresAck : Bool
  sourceRefs : List String
  contentHash : String
  idempotencyKey : String
  payload : Jsonb

/-- `sourceRefs`. -/
def sourceRefs (batch : ProjectionBatch) (file : SourceFile) : List String :=
  ["github://" ++ batch.repository ++ "@" ++ file.sourceCommit ++ "/" ++ file.path,
    "github-ref://" ++ batch.repository ++ "/" ++ batch.ref ++ "@" ++ batch.branchHead,
    "git-blob:" ++ file.blobSha]

/-- What `metadata` says besides the headers. -/
def provenanceOf (batch : ProjectionBatch) (file : SourceFile) (createdAtBasis : String) (body : List Char) : Provenance where
  admittedLaneIdentity := batch.laneIdentity
  createdAtBasis := createdAtBasis
  sourceRepository := batch.repository
  sourceRef := batch.ref
  sourceBranchHead := batch.branchHead
  sourcePath := file.path
  sourceCommit := file.sourceCommit
  sourceBlobSha := file.blobSha
  bodySha256 := digests.sha256 (encode body)
  bodyLength := (encode body).size
  conversationClosedBySender := conversationClosedBySender body

/-- `projectFile` of a document. -/
def projectDocument (batch : ProjectionBatch) (file : SourceFile) (bytes : Bytes) (headers : Headers) (body : List Char) :
    Except HttpError FileCall := do
  let messageId ← requireHeader headers "message_id" "MESSAGE_ID_REQUIRED"
  let writer ← requireHeader headers "writer" "WRITER_REQUIRED"
  rejectIf (normalizeIdentity engine (String.ofList writer) ≠ batch.laneIdentity) (unprocessable "WRITER_LANE_MISMATCH")
  let sourceTime ← (normalizedTimestamp engine file.sourceCommittedAt.toList).elim
    (.error (unprocessable "INVALID_SOURCE_COMMITTED_AT")) .ok
  let (createdAt, createdAtBasis) ← readCreatedAt engine headers sourceTime
  let intended ← intendedRecipient headers
  let requiresAck ← readRequiresAck engine headers
  let messageId := String.ofList (unwrapScalar messageId)
  return {
    batchId := batch.batchId, claimToken := batch.claimToken, path := file.path, messageId
    createdAt := String.ofList createdAt, sender := batch.laneIdentity, audience := audienceOf engine intended, requiresAck
    sourceRefs := sourceRefs batch file, contentHash := digests.sha256 bytes
    idempotencyKey := "chat-bus:" ++ messageId ++ ":" ++ digests.sha256 bytes
    payload := Receipts.metadata headers (provenanceOf digests batch file createdAtBasis body) }

/-- `projectFile`. -/
def projectFile (batch : ProjectionBatch) (file : SourceFile) : Except HttpError FileCall := do
  let bytes ← base64Bytes file.contentBase64
  rejectIf (maxFileBytes < bytes.length) (unprocessable "MESSAGE_FILE_TOO_LARGE")
  let content : Bytes := ⟨bytes.toArray⟩
  rejectIf (gitBlobSha1 digests content ≠ file.blobSha) (unprocessable "GIT_BLOB_SHA_MISMATCH")
  let text ← (decodeText content).elim (.error (unprocessable "MESSAGE_NOT_UTF8")) .ok
  let (headers, body) ← splitDocument text
  projectDocument engine digests batch file content headers body

end CcbCore.Edge
