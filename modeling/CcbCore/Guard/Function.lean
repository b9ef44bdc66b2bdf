import CcbCore.Guard.Claims
import CcbCore.Library.Run
import CcbCore.Library.Versions

/-!
# Spending a token

Requests to the Edge function, each from its token to the provider operation, and the calls
they make of `radar.consume_github_oidc_jti_v1` of `20260905230823_radar_oidc_replay_guard_v1.sql`.
A call is a transaction of several steps, between which other requests go on: it checks the
expiry, it takes a snapshot for the `delete`, it looks at each row it sees and deletes it or
not, it inserts its own, and it commits. Every `clock_timestamp()` reads the clock of that
step, and the clock goes on at any time. The rows are `Versions`; a transaction waits
for another where it comes to a row that the other is at work on.
-/

namespace CcbCore.Guard

open CcbCore.Edge (HttpError)
open CcbCore.Postgres (btrim)

/-- What the function returns. -/
inductive Outcome where
  | consumed
  | replay
  deriving DecidableEq, Repr

/-- How far a call is. -/
inductive Progress where
  | entered
  /-- The expiry is checked. -/
  | checked
  /-- The `delete` has these rows to look at. -/
  | purging (todo : List ℕ)
  /-- The `delete` has found a row to be expired, and has these others to look at. -/
  | deleting (i : ℕ) (todo : List ℕ)
  | returned (outcome : Outcome)

/-- How far a request is. -/
inductive Phase where
  | presented
  | verified (claims : Claims)
  | calling (args : Args) (progress : Progress)
  /-- The call has committed. -/
  | answered (args : Args) (outcome : Outcome)
  /-- `handleOperation` has begun. -/
  | started (args : Args)
  | failed (e : HttpError)

/-- A request that is to be verified: its token, and its body's digest. -/
structure Request where
  token : String
  digest : String

/-- The database's clock, `radar.github_oidc_replay_guard` with the `expires_at` of each `jti`, and
the requests: the transaction of a request has its number. -/
structure State where
  now : ℤ
  guard : Store String ℤ ℕ
  phase : ℕ → Phase

/-- No token is spent. -/
def State.initial (now : ℤ) : State where
  now := now
  guard := { versions := [], status := fun _ => .open }
  phase _ := .presented

/-- A request goes on. -/
def State.at (s : State) (r : ℕ) (phase : Phase) : State := { s with phase := Function.update s.phase r phase }

/-- The jti under which a call inserts. -/
def Args.key (args : Args) : String := btrim args.jti

/-- What happens. -/
inductive Event where
  | tick
  | verify (r : ℕ)
  | call (r : ℕ)
  | check (r : ℕ)
  | purge (r : ℕ)
  | look (r : ℕ)
  | delete (r : ℕ)
  | insert (r : ℕ)
  | answer (r : ℕ) (args : Args) (outcome : Outcome)
  | start (r : ℕ)
  | fail (r : ℕ)
  deriving DecidableEq, Repr

/-- `AUDIENCE_PREFIX`. -/
def audiencePrefix : String := "chat-communication-bus-supabase:"

/-- The response when the provider's function fails. -/
def guardFailed (errcode : String) : HttpError := ⟨502, "OIDC_JTI_GUARD_FAILED:" ++ errcode⟩

/-- The steps. -/
inductive Step (edge : Edge) (request : ℕ → Request) : State → Event → State → Prop where
  /-- The clock goes on. -/
  | tick {s : State} {now : ℤ} : s.now ≤ now → Step edge request s .tick { s with now := now }
  | verify {s : State} {r : ℕ} {nowMs : ℤ} {signature : Except HttpError PUnit} {claims : Claims} :
      s.phase r = .presented →
      verifyGithubOidc edge nowMs signature (request r).token (audiencePrefix ++ (request r).digest) = .ok claims →
      Step edge request s (.verify r) (s.at r (.verified claims))
  | refuse {s : State} {r : ℕ} {nowMs : ℤ} {signature : Except HttpError PUnit} {e : HttpError} :
      s.phase r = .presented →
      verifyGithubOidc edge nowMs signature (request r).token (audiencePrefix ++ (request r).digest) = .error e →
      Step edge request s (.fail r) (s.at r (.failed e))
  | call {s : State} {r : ℕ} {claims : Claims} {args : Args} :
      s.phase r = .verified claims → consumeArgs edge claims = .ok args →
      Step edge request s (.call r) (s.at r (.calling args .entered))
  | uncalled {s : State} {r : ℕ} {claims : Claims} {e : HttpError} :
      s.phase r = .verified claims → consumeArgs edge claims = .error e →
      Step edge request s (.fail r) (s.at r (.failed e))
  /-- The checks at the function's beginning pass. -/
  | check {s : State} {r : ℕ} {args : Args} :
      s.phase r = .calling args .entered → args.key ≠ "" → s.now < args.expiresAt →
      Step edge request s (.check r) (s.at r (.calling args .checked))
  /-- They raise `OIDC_JTI_REQUIRED` or `OIDC_JTI_EXPIRED`. -/
  | raise {s : State} {r : ℕ} {args : Args} :
      s.phase r = .calling args .entered → (args.key = "" ∨ args.expiresAt ≤ s.now) →
      Step edge request s (.fail r) { s.at r (.failed (guardFailed "22023")) with guard := s.guard.finish r .aborted }
  | purge {s : State} {r : ℕ} {args : Args} :
      s.phase r = .calling args .checked →
      Step edge request s (.purge r) (s.at r (.calling args (.purging (s.guard.snapshot r))))
  /-- A row has not expired. -/
  | keep {s : State} {r : ℕ} {args : Args} {i : ℕ} {todo : List ℕ} {v : Version String ℤ ℕ} :
      s.phase r = .calling args (.purging (i :: todo)) → s.guard.versions[i]? = some v → s.now < v.row →
      Step edge request s (.look r) (s.at r (.calling args (.purging todo)))
  /-- A row has expired. -/
  | expired {s : State} {r : ℕ} {args : Args} {i : ℕ} {todo : List ℕ} {v : Version String ℤ ℕ} :
      s.phase r = .calling args (.purging (i :: todo)) → s.guard.versions[i]? = some v → v.row ≤ s.now →
      Step edge request s (.look r) (s.at r (.calling args (.deleting i todo)))
  | delete {s : State} {r : ℕ} {args : Args} {i : ℕ} {todo : List ℕ} {v : Version String ℤ ℕ} :
      s.phase r = .calling args (.deleting i todo) → s.guard.versions[i]? = some v →
      (∀ u, v.deletedBy = some u → s.guard.status u = .aborted) →
      Step edge request s (.delete r) { s.at r (.calling args (.purging todo)) with guard := s.guard.deleteAt r i }
  /-- Another transaction has deleted the row since. -/
  | deleted {s : State} {r : ℕ} {args : Args} {i : ℕ} {todo : List ℕ} {v : Version String ℤ ℕ} {u : ℕ} :
      s.phase r = .calling args (.deleting i todo) → s.guard.versions[i]? = some v → v.deletedBy = some u →
      s.guard.status u = .committed → Step edge request s (.delete r) (s.at r (.calling args (.purging todo)))
  | insert {s : State} {r : ℕ} {args : Args} :
      s.phase r = .calling args (.purging []) → s.guard.waits r args.key = false →
      Step edge request s (.insert r)
        { s.at r (.calling args (.returned (if s.guard.conflicts r args.key = true then .replay else .consumed))) with
          guard := s.guard.insertUnlessConflict r args.key args.expiresAt }
  | answer {s : State} {r : ℕ} {args : Args} {outcome : Outcome} :
      s.phase r = .calling args (.returned outcome) →
      Step edge request s (.answer r args outcome)
        { s.at r (.answered args outcome) with guard := s.guard.finish r .committed }
  /-- The provider, or the connection, ends the transaction. -/
  | abort {s : State} {r : ℕ} {args : Args} {progress : Progress} {errcode : String} :
      s.phase r = .calling args progress →
      Step edge request s (.fail r) { s.at r (.failed (guardFailed errcode)) with guard := s.guard.finish r .aborted }
  | start {s : State} {r : ℕ} {args : Args} :
      s.phase r = .answered args .consumed → Step edge request s (.start r) (s.at r (.started args))
  | replayed {s : State} {r : ℕ} {args : Args} :
      s.phase r = .answered args .replay →
      Step edge request s (.fail r) (s.at r (.failed ⟨403, "OIDC_JTI_REPLAYED"⟩))

end CcbCore.Guard
