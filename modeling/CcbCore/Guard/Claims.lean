import CcbCore.Edge.Document
import CcbCore.Text.Postgres
import Mathlib.Data.Rat.Defs
import Mathlib.Algebra.Order.Ring.Unbundled.Rat
import Mathlib.Order.WithBotTop

/-!
# The claims of a token

`verifyGithubOidc` and `consumeGithubOidcJti` of `supabase/functions/github-bus-ingest/handler.ts`:
what is checked of the claims of a signed token, and the arguments with which the token is
then spent. Decoding a token, its signature and a date's text are not looked into.
-/

namespace CcbCore.Guard

open CcbCore.Edge (HttpError)
open CcbCore.Python (isAsciiDigit upper)
open CcbCore.Postgres (btrim isHex)

/-- A number that `JSON.parse` gives. -/
abbrev Number := WithBot (WithTop ℚ)

/-- The value of a claim. -/
inductive Claim where
  | string (text : String)
  | number (value : Number)
  | array (items : List Claim)
  | other

/-- `Claims`. -/
abbrev Claims := List (String × Claim)

/-- What the function uses of the world around it. -/
structure Edge where
  /-- The claims of a token, when it has three parts that decode. -/
  claimsOf : String → Except HttpError Claims
  /-- `new Date(exp * 1000).toISOString()` as the provider reads it, in microseconds, or the
  response when there is no such date, or the provider does not read it. -/
  expiresAt : ℚ → Except HttpError ℤ
  /-- `RADAR_TRUSTED_PROJECTOR_SHA`. -/
  projectorSha : String

/-- `stringClaim`. -/
def stringClaim (claims : Claims) (name : String) : Except HttpError String :=
  match claims.lookup name with
  | some (.string text) => if text = "" then .error ⟨403, "OIDC_" ++ upper name ++ "_MISSING"⟩ else .ok text
  | _ => .error ⟨403, "OIDC_" ++ upper name ++ "_MISSING"⟩

/-- `value === text`. -/
def Claim.isText (text : String) : Claim → Bool
  | .string value => value = text
  | _ => false

/-- `audienceIncludes`. -/
def audienceIncludes (value : Option Claim) (expected : String) : Bool :=
  match value with
  | some (.string value) => value = expected
  | some (.array items) => items.any (Claim.isText expected)
  | _ => false

/-- A claim that is a number. -/
def numberClaim (claims : Claims) (name : String) : Option Number :=
  match claims.lookup name with
  | some (.number value) => some value
  | _ => none

/-- `if (refused) throw new HttpError(status, code)`. -/
def refuseIf (refused : Bool) (status : ℕ) (code : String) : Except HttpError PUnit :=
  if refused then .error ⟨status, code⟩ else .ok ()

/-- A string claim that is not as expected is refused. -/
def expectClaim (claims : Claims) (name expected code : String) : Except HttpError PUnit := do
  let value ← stringClaim claims name
  refuseIf (value ≠ expected) 403 code

/-- `EXPECTED_REPOSITORY`. -/
def expectedRepository : String := "example/ccb-core"

/-- `trustedProjectorSha`. -/
def trustedProjectorSha (edge : Edge) : Except HttpError String :=
  if isHex 40 edge.projectorSha then .ok edge.projectorSha else .error ⟨503, "TRUSTED_PROJECTOR_SHA_INVALID"⟩

/-- The checks of `verifyGithubOidc` on the claims of a signed token, at a second. -/
def checkClaims (edge : Edge) (now : ℤ) (expectedAudience : String) (claims : Claims) : Except HttpError PUnit := do
  refuseIf (!(claims.lookup "iss").any (Claim.isText "https://token.actions.githubusercontent.com")) 403
    "OIDC_ISSUER_INVALID"
  refuseIf (!audienceIncludes (claims.lookup "aud") expectedAudience) 403 "OIDC_AUDIENCE_INVALID"
  refuseIf ((numberClaim claims "exp").all fun exp => exp ≤ ((now : ℚ) : Number)) 403 "OIDC_EXPIRED"
  refuseIf ((numberClaim claims "nbf").any fun nbf => ((now + 30 : ℚ) : Number) < nbf) 403 "OIDC_NOT_YET_VALID"
  refuseIf ((numberClaim claims "iat").all fun iat => ((now + 30 : ℚ) : Number) < iat || iat < ((now - 15 * 60 : ℚ) : Number))
    403 "OIDC_ISSUED_AT_INVALID"
  let _ ← stringClaim claims "jti"
  expectClaim claims "repository" expectedRepository "OIDC_REPOSITORY_INVALID"
  expectClaim claims "repository_id" "1324505476" "OIDC_REPOSITORY_ID_INVALID"
  expectClaim claims "repository_owner_id" "234958733" "OIDC_REPOSITORY_OWNER_ID_INVALID"
  let eventName ← stringClaim claims "event_name"
  refuseIf (eventName ≠ "workflow_run" && eventName ≠ "schedule") 403 "OIDC_EVENT_INVALID"
  expectClaim claims "workflow_ref" (expectedRepository ++ "/.github/workflows/radar-central-dispatcher.yml@refs/heads/main")
    "OIDC_WORKFLOW_INVALID"
  expectClaim claims "ref" "refs/heads/main" "OIDC_REF_INVALID"
  let expectedSha ← trustedProjectorSha edge
  expectClaim claims "job_workflow_ref" (expectedRepository ++ "/.github/workflows/radar-trusted-projector.yml@" ++ expectedSha)
    "OIDC_JOB_WORKFLOW_INVALID"
  expectClaim claims "job_workflow_sha" expectedSha "OIDC_JOB_WORKFLOW_SHA_INVALID"

/-- `verifyGithubOidc`, at a time in milliseconds, of a token whose signature gives a result of its own. -/
def verifyGithubOidc (edge : Edge) (nowMs : ℤ) (signature : Except HttpError PUnit) (token expectedAudience : String) :
    Except HttpError Claims := do
  let claims ← edge.claimsOf token
  signature
  checkClaims edge (nowMs / 1000) expectedAudience claims
  return claims

/-- The arguments of `radar_consume_github_oidc_jti_v1`. -/
structure Args where
  jti : String
  expiresAt : ℤ
  deriving DecidableEq, Repr

/-- The arguments that `consumeGithubOidcJti` makes. -/
def consumeArgs (edge : Edge) (claims : Claims) : Except HttpError Args := do
  let jti ← stringClaim claims "jti"
  match numberClaim claims "exp" with
  | some ((exp : ℚ) : WithTop ℚ) =>
    let expiresAt ← edge.expiresAt exp
    return { jti, expiresAt }
  | _ => throw ⟨403, "OIDC_EXP_INVALID"⟩

end CcbCore.Guard
