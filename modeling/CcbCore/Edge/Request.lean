import CcbCore.Text.JavaScript
import CcbCore.Text.Postgres
import CcbCore.Edge.Document

/-!
# The requests of the Edge function

The checks of `supabase/functions/github-bus-ingest/handler.ts` on the values of a
request: `requireString` and its kin, the names of lanes, and `parseSourceFiles`. A
value that `JSON.parse` gives is a `Json`; an array is given by its items.
-/

namespace CcbCore.Edge

open CcbCore.Python CcbCore.JavaScript CcbCore.Postgres

variable (engine : Engine)

/-! ### Values -/

/-- `requireString`. -/
def requireString (value : Json) (code : String) : Except HttpError String :=
  match value with
  | .string text => if trimString text = "" then .error (unprocessable code) else .ok (trimString text)
  | _ => .error (unprocessable code)

/-- `requireSha40`. -/
def requireSha40 (value : Json) (code : String) : Except HttpError String := do
  let text ← requireString value code
  if isHex 40 (engine.toLowerCase text) then pure (engine.toLowerCase text) else throw (unprocessable code)

/-- `requireObject`. -/
def requireObject (value : Json) (code : String) : Except HttpError (List (String × Json)) :=
  match value with
  | .object fields => .ok fields
  | _ => .error (unprocessable code)

/-! ### Identities -/

/-- The table of aliases in `normalizeIdentity`. -/
def aliasIdentity (key : String) : String :=
  if key ∈ ["beta-legacy"] then "beta"
  else if key ∈ ["alpha/core", "alpha/core", "alpha-core"] then "alpha"
  else if startsWith key "epsilon / fabulous nitpicking gremlin" then "epsilon"
  else key

/-- `normalizeIdentity`. -/
def normalizeIdentity (value : String) : String :=
  aliasIdentity (engine.toLowerCase (String.ofList (unwrapScalar value.toList)))

/-- The group of `/^refs\/heads\/bus\/(.+)-v\d+$/`: the digits are those the text ends with. -/
def refIdentity (ref : List Char) : Option (List Char) :=
  if "refs/heads/bus/".toList.isPrefixOf ref then
    let rest := ref.drop "refs/heads/bus/".length
    let stem := rest.rdropWhile isAsciiDigit
    let name := stem.take (stem.length - 2)
    if stem.length < rest.length ∧ "-v".toList.isSuffixOf stem ∧ name ≠ [] ∧ name.all fun c => !isLineTerminator c then
      some name
    else none
  else none

/-- `[a-z0-9-]`. -/
def isLaneChar (c : Char) : Bool := ('a' ≤ c ∧ c ≤ 'z') ∨ ('0' ≤ c ∧ c ≤ '9') ∨ c = '-'

/-- `laneIdentityFromRef`. -/
def laneIdentityFromRef (ref : String) : Option String :=
  match refIdentity ref.toList with
  | none => none
  | some rawIdentity =>
    if rawIdentity ≠ [] ∧ rawIdentity.all isLaneChar then some (normalizeIdentity engine (String.ofList rawIdentity))
    else none

/-! ### Source files -/

/-- `[A-Za-z0-9._-]`. -/
def isSegmentChar (c : Char) : Bool := isAsciiAlnum c || c = '.' || c = '_' || c = '-'

/-- `PATH_SEGMENT_RE`. -/
def isPathSegment (segment : List Char) : Bool := segment ≠ [] ∧ segment.all isSegmentChar

/-- `SourceFile`. -/
structure SourceFile where
  path : String
  sourceCommit : String
  sourceCommittedAt : String
  blobSha : String
  contentBase64 : String
  deriving DecidableEq, Repr

/-- The path of a source file. -/
def sourcePath (value : Json) : Except HttpError String := do
  let path ← requireString value "SOURCE_PATH_REQUIRED"
  if startsWith path "messages/" = false ∨ endsWith path ".md" = false ∨ includes path.toList "..".toList then
    throw (unprocessable "SOURCE_PATH_INVALID")
  else
    let segments := (path.toList.splitOn '/').drop 1
    if segments = [] ∨ segments.any fun segment => !isPathSegment segment then
      throw (unprocessable "SOURCE_PATH_INVALID")
    else pure path

/-- One item of `parseSourceFiles`. -/
def parseSourceFile (item : Json) : Except HttpError SourceFile := do
  let file ← requireObject item "SOURCE_FILE_INVALID"
  let path ← sourcePath (Json.get file "path")
  let sourceCommit ← requireSha40 engine (Json.get file "source_commit") "SOURCE_GIT_SHA_INVALID"
  let sourceCommittedAt ← requireString (Json.get file "source_committed_at") "SOURCE_COMMITTED_AT_REQUIRED"
  let blobSha ← requireSha40 engine (Json.get file "blob_sha") "SOURCE_GIT_SHA_INVALID"
  let contentBase64 ← requireString (Json.get file "content_base64") "SOURCE_CONTENT_REQUIRED"
  pure { path, sourceCommit, sourceCommittedAt, blobSha, contentBase64 }

/-- `MAX_FILES`. -/
def maxFiles : ℕ := 500

/-- `parseSourceFiles`, of the items of an array, or of another value. -/
def parseSourceFiles (value : Option (List Json)) : Except HttpError (List SourceFile) :=
  match value with
  | none => .error (unprocessable "BATCH_FILES_INVALID")
  | some items =>
    if maxFiles < items.length then .error (unprocessable "BATCH_FILES_INVALID")
    else items.mapM (parseSourceFile engine)

end CcbCore.Edge
