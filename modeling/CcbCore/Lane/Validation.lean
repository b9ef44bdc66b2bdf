import CcbCore.Git.Objects
import CcbCore.Library.Raising
import CcbCore.Message.Grammar

/-!
# Validating and collecting a writer lane

`validate_active_writer_range` of `src/radar/trusted_lane_validation.py`, with what it
uses of `src/radar/writer_lanes.py`, and `collect_projection_files` and
`chunk_projection_files` of `src/radar/central_projection.py`. They read the objects of
one checkout. A topology and a cutover are what was loaded from their files; a cutover
that is no `dict` and one that cannot be read raise the same. A `RadarError` is a
`WriterLaneError`, a `CentralProjectionError` or a `ReconcileError`, which the caller
treats alike; what git prints when it fails is left out.
-/

namespace CcbCore.Lane

open CcbCore.Python CcbCore.Git CcbCore.Message CcbCore.Raising

/-- What the control plane raises: its own code, `GIT_COMMAND_FAILED`, or a name's
`UnicodeDecodeError`. -/
inductive RadarError where
  | code (text : String)
  | git
  | unicode
  deriving DecidableEq, Repr

/-! ### Topology -/

/-- `lifecycle`. -/
inductive Lifecycle where
  | registeredInert
  | active
  | historical
  | retired
  deriving DecidableEq, Repr

/-- `WriterLane`. -/
structure WriterLane where
  identity : String
  writer : String
  branch : String
  lifecycle : Lifecycle := .active
  deriving DecidableEq, Repr

/-- `load_registered_writer_lanes`: the lanes by their identities. -/
abbrev Topology := List (String × WriterLane)

/-- `load_writer_lanes`: the lanes that are active. -/
def Topology.active (topology : Topology) : Topology := topology.filter fun entry => entry.2.lifecycle = .active

/-! ### Message ids -/

variable {π : Type} [DecidableEq π] [FileName π] (runtime : Runtime) (objects : Objects π)

/-- A command on an object that is not there. -/
def orGit {α : Type} (value : Option α) : Except RadarError α :=
  match value with
  | none => .error .git
  | some a => .ok a

/-- `_message_headers`. -/
def messageHeaders (content : Bytes) (path : String) (policy : TimestampPolicy) : Except RadarError Headers :=
  match parseBusDocument runtime content path policy with
  | .ok parsed => .ok parsed.headers
  | .error text =>
    if text = "WRITER_REQUIRED" then .error (.code ("WRITER_LANE_WRITER_REQUIRED:" ++ path))
    else if text = "MESSAGE_ID_REQUIRED" then .error (.code ("WRITER_LANE_MESSAGE_ID_REQUIRED:" ++ path))
    else .error (.code ("WRITER_LANE_MESSAGE_GRAMMAR:" ++ path ++ ":" ++ text))

/-- `headers.get(key, "")`. -/
def headerText (headers : Headers) (key : String) : String := String.ofList ((headers.lookup key).getD [])

/-- A path of a message file. -/
def isMessagePath (path : String) : Bool := startsWith path "messages/" && endsWith path ".md"

/-- The lines of a listing, as `_git(…).splitlines()` reads what git printed. -/
def readListing (lines : List (List Char)) : List String :=
  (splitlines (strip (List.intercalate ['\n'] lines))).map fun line => String.ofList line.content

/-- The message id that a file of a commit declares, folded. -/
def messageIdAt (commit path : String) : Except RadarError String := do
  let file ← orGit (objects.fileAt commit (FileName.ofText path))
  let headers ← messageHeaders runtime file.2 path .sourceFallback
  rejectIf (headerText headers "message_id" = "") (.code ("WRITER_LANE_MESSAGE_ID_REQUIRED:" ++ path))
  return runtime.casefold (headerText headers "message_id")

/-- `_message_ids_at_commit`. -/
def messageIdsAtCommit (commit : String) : Except RadarError (List String) := do
  let files ← orGit (objects.tree commit)
  ((readListing (lsTree files)).filter isMessagePath).mapM (messageIdAt runtime objects commit)

/-- `_historical_message_ids`. -/
def historicalMessageIds (cutover : Option Json) (identity : String) : Except RadarError (List String) :=
  match cutover with
  | none => .ok []
  | some (.object raw) =>
    match Json.get raw "historical_writer_lanes" with
    | .null => .ok []
    | .object historical =>
      match Json.get historical identity with
      | .null => .ok []
      | .object record =>
        match Json.get record "branch", Json.get record "head_sha" with
        | .string branch, .string headSha =>
          if branch ≠ "" ∧ isSha40 headSha.toList then messageIdsAtCommit runtime objects (lower headSha)
          else .error (.code "WRITER_LANE_CUTOVER_HISTORICAL_INVALID")
        | _, _ => .error (.code "WRITER_LANE_CUTOVER_HISTORICAL_INVALID")
      | _ => .error (.code "WRITER_LANE_CUTOVER_HISTORICAL_INVALID")
    | _ => .error (.code "WRITER_LANE_CUTOVER_HISTORICAL_INVALID")
  | some _ => .error (.code "WRITER_LANE_CUTOVER_INVALID")

/-! ### Commits -/

/-- The only parent of a commit. -/
def onlyParent (commit code : String) : Except RadarError String :=
  match objects.graph.parents commit with
  | none => .error .git
  | some [parent] => .ok parent
  | some _ => .error (.code code)

/-- `value.decode("utf-8")` of the name in a change. -/
def decodeChange (change : DiffStatus × π) : Except RadarError (DiffStatus × String) :=
  match text? change.2 with
  | none => .error .unicode
  | some path => .ok (change.1, path)

/-- The check of one path that a commit changes, with the ids seen so far. -/
def validatePath (commit : String) (lane : WriterLane) (seen : List String) (change : DiffStatus × String) :
    Except RadarError (List String) := do
  rejectIf (isMessagePath change.2 = false) (.code ("WRITER_LANE_PATH_FORBIDDEN:" ++ change.2))
  rejectIf (change.1 ≠ .added) (.code ("WRITER_LANE_MESSAGE_NOT_APPEND_ONLY:" ++ change.2))
  let file ← orGit (objects.fileAt commit (FileName.ofText change.2))
  let headers ← messageHeaders runtime file.2 change.2 .strict
  let declaredWriter := headerText headers "writer"
  rejectIf (declaredWriter = "") (.code ("WRITER_LANE_WRITER_REQUIRED:" ++ change.2))
  rejectIf (runtime.casefold declaredWriter ≠ runtime.casefold lane.writer)
    (.code ("WRITER_LANE_WRITER_MISMATCH:" ++ change.2 ++ ":" ++ declaredWriter ++ ":" ++ lane.writer))
  let messageId := headerText headers "message_id"
  rejectIf (messageId = "") (.code ("WRITER_LANE_MESSAGE_ID_REQUIRED:" ++ change.2))
  rejectIf (startsWith (runtime.casefold messageId) (runtime.casefold lane.identity ++ "-") = false)
    (.code ("WRITER_LANE_MESSAGE_ID_NAMESPACE:" ++ change.2 ++ ":" ++ messageId ++ ":" ++ lane.identity))
  rejectIf (runtime.casefold messageId ∈ seen) (.code ("DUPLICATE_NEW_MESSAGE_ID:" ++ messageId ++ ":" ++ change.2))
  return runtime.casefold messageId :: seen

/-- `_validate_commit_paths`. -/
def validateCommitPaths (lane : WriterLane) (reserved : List String) (commit : String) : Except RadarError Unit := do
  let parent ← onlyParent objects commit "WRITER_LANE_MERGE_COMMIT_FORBIDDEN"
  let parentIds ← messageIdsAtCommit runtime objects parent
  let before ← orGit (objects.tree parent)
  let after ← orGit (objects.tree commit)
  let changes ← (diffTree before after).mapM decodeChange
  let _ ← changes.foldlM (validatePath runtime objects commit lane) (reserved ++ parentIds)
  pure ()

/-- `validate_active_writer_range`. -/
def validateActiveWriterRange (topology : Topology) (cutover : Option Json) (identity base head : String) :
    Except RadarError (List String) :=
  match topology.active.lookup identity with
  | none => .error (.code "WRITER_LANE_NOT_ACTIVE")
  | some lane =>
    if base = head then .ok []
    else if objects.graph.isAncestor base head = false then .error (.code "WRITER_LANE_BASE_NOT_ANCESTOR")
    else
      let commits := objects.graph.revList base head
      if commits = [] then .error (.code "WRITER_LANE_NO_NEW_COMMITS")
      else do
        let historicalIds ← historicalMessageIds runtime objects cutover identity
        commits.forM (validateCommitPaths runtime objects lane historicalIds)
        pure commits

/-! ### Files -/

/-- A file of `collect_projection_files`. -/
structure ProjectionFile where
  path : String
  sourceCommit : String
  sourceCommittedAt : String
  blobSha : String
  content : Bytes
  deriving DecidableEq

/-- `content_bytes`. -/
def ProjectionFile.contentBytes (file : ProjectionFile) : ℕ := file.content.size

/-- `DEFAULT_MAX_FILE_BYTES`. -/
def maxFileBytes : ℕ := 512 * 1024

/-- The message paths a commit adds, sorted. -/
def addedPaths (before after : Files π) : Except RadarError (List String) :=
  (((diffTree before after).filter fun change =>
    change.1 = .added ∧ matchesPathspec "messages" change.2 ∧
      (encode ".md".toList).data.toList.isSuffixOf (FileName.bytes change.2).data.toList).mapM decodeChange).map
        fun changes => changes.map (·.2)

/-- One file of a commit, with the paths seen so far. -/
def collectPath (commit : String) (seen : List String) (path : String) : Except RadarError ProjectionFile := do
  rejectIf (path ∈ seen) (.code ("PROJECTION_PATH_REPEATED:" ++ path))
  let (blobSha, content) ← orGit (objects.fileAt commit (FileName.ofText path))
  rejectIf (maxFileBytes < content.size) (.code ("MESSAGE_FILE_TOO_LARGE:" ++ path))
  pure ⟨path, commit, objects.committedAt commit, blobSha, content⟩

/-- The files of a commit, after those of the commits before it. -/
def collectCommit (output : List ProjectionFile) (commit : String) : Except RadarError (List ProjectionFile) := do
  let parent ← onlyParent objects commit "PROJECTION_MERGE_COMMIT_FORBIDDEN"
  let before ← orGit (objects.tree parent)
  let after ← orGit (objects.tree commit)
  let paths ← addedPaths before after
  paths.foldlM (fun output path => do
    let file ← collectPath objects commit (output.map ProjectionFile.path) path
    pure (output ++ [file])) output

/-- `collect_projection_files`. -/
def collectProjectionFiles (commits : List String) : Except RadarError (List ProjectionFile) :=
  commits.foldlM (collectCommit objects) []

/-- `DEFAULT_MAX_FILES`. -/
def maxFiles : ℕ := 500

/-- `DEFAULT_MAX_TOTAL_BYTES`. -/
def maxTotalBytes : ℕ := 5 * 1024 * 1024

/-- The chunks so far, and the one that is being filled. -/
structure Chunking where
  chunks : List (List ProjectionFile) := []
  current : List ProjectionFile := []
  currentBytes : ℕ := 0

/-- One file goes to the current chunk, or to the next. -/
def Chunking.add (chunking : Chunking) (file : ProjectionFile) : Except RadarError Chunking :=
  let size := file.contentBytes
  if maxTotalBytes < size then .error (.code ("MESSAGE_FILE_EXCEEDS_BATCH_LIMIT:" ++ file.path))
  else if chunking.current ≠ [] ∧
      (maxFiles ≤ chunking.current.length ∨ maxTotalBytes < chunking.currentBytes + size) then
    .ok ⟨chunking.chunks ++ [chunking.current], [file], size⟩
  else .ok { chunking with current := chunking.current ++ [file], currentBytes := chunking.currentBytes + size }

/-- `chunk_projection_files`. -/
def chunkProjectionFiles (files : List ProjectionFile) : Except RadarError (List (List ProjectionFile)) :=
  (files.foldlM Chunking.add {}).map fun chunking =>
    if chunking.current = [] then chunking.chunks else chunking.chunks ++ [chunking.current]

end CcbCore.Lane
