import CcbCore.Library.Raising
import CcbCore.Library.Table
import CcbCore.Library.ThreeValued
import CcbCore.Text.Postgres
import Mathlib.Data.Int.Order.Basic
import Mathlib.Order.WithBotTop

/-!
# The projection journal's tables

The tables of `supabase/migrations/20260906154101_radar_projection_journal_v1.sql`
(`projection_lane_state`, `projection_batches`, `projection_batch_files`) with
`radar.messages` and `radar.reconciliation_events`, which projecting a file writes.
A row holds the columns outside the primary key, and its `CHECK`s are its types: a
head is a `Sha`, a content hash a `Hex 64`, a status an enumeration.

A PL/pgSQL function is an `EStateM` over the tables; a call of it is a
`transaction`, which undoes what a raising function did. Row locks need no model,
as a call is one step. `Server` holds what the functions use of the database
around them: the collation's `lower`, the session's `timestamptz` output, and the
`AFTER INSERT` triggers on `radar.messages`. The triggers project receipts and
assignments: they read the messages, and write the reconciliation events and
tables no function here reads (`other`).
-/

namespace CcbCore.Projection

open CcbCore.Postgres CcbCore.Raising

/-- `uuid`. -/
abbrev Uuid := BitVec 128

/-- `timestamptz`: microseconds, or one of the infinities. -/
abbrev Timestamptz := WithBot (WithTop ℤ)

instance : Preorder Timestamptz :=
  @WithBot.instPreorder _ (@WithTop.instPreorder _ Int.instLinearOrder.toPartialOrder.toPreorder)

/-- A text that matches `^[0-9a-f]{40}$`. -/
abbrev Sha := Hex 40

/-- `(identity_id, branch)`. -/
abbrev LaneKey := String × String

/-- `radar.projection_lane_state`. -/
structure LaneRow where
  projectedHeadSha : Option Sha
  controlSha : Option Sha
  topologySha : Option Sha
  updatedAt : Timestamptz
  deriving DecidableEq

/-- `projection_batches.status`. -/
inductive BatchStatus where
  | claimed
  | complete
  | stale
  | failed
  deriving DecidableEq, Repr

/-- `radar.projection_batches`. -/
structure BatchRow where
  identityId : String
  branch : String
  expectedProjectedHeadSha : Option Sha
  targetHeadSha : Sha
  controlSha : Sha
  topologySha : Sha
  claimToken : Uuid
  claimOwner : String
  claimExpiresAt : Timestamptz
  status : BatchStatus
  createdAt : Timestamptz
  updatedAt : Timestamptz
  completedAt : Option Timestamptz
  deriving DecidableEq

/-- The lane a batch is on. -/
def BatchRow.key (batch : BatchRow) : LaneKey := (batch.identityId, batch.branch)

/-- `projection_batch_files.state`. -/
inductive FileState where
  | pending
  | projected
  | idempotent
  | failed
  | conflict
  deriving DecidableEq, Repr

/-- `state in ('PROJECTED', 'IDEMPOTENT')`. -/
def FileState.Terminal (state : FileState) : Prop := state = .projected ∨ state = .idempotent

instance : DecidablePred FileState.Terminal := fun state =>
  inferInstanceAs (Decidable (state = .projected ∨ state = .idempotent))

/-- `radar.projection_batch_files`. -/
structure FileRow where
  state : FileState
  resultRef : Option String
  updatedAt : Timestamptz
  deriving DecidableEq

/-- `radar.messages`. -/
structure MessageRow where
  schemaVersion : ℤ
  createdAt : Timestamptz
  sender : String
  audience : List (Option String)
  domain : String
  intent : String
  priority : ℤ
  rootTaskId : Option String
  correlationId : Option String
  causalParentId : Option String
  requiresAck : Bool
  expiresAt : Option Timestamptz
  authorityRef : Option String
  sourceRefs : List (Option String)
  contentHash : Hex 64
  idempotencyKey : String
  payload : Jsonb
  projectionStatus : String
  insertedAt : Timestamptz

/-- `radar.reconciliation_events`. -/
structure ReconciliationEvent where
  code : String
  repairClass : String
  sourceRef : Option String
  detail : Jsonb
  createdAt : Timestamptz

variable (Other : Type)

/-- The tables. -/
structure Database where
  laneState : Table LaneKey LaneRow
  batches : Table Uuid BatchRow
  batchFiles : Table (Uuid × String) FileRow
  messages : Table String MessageRow
  reconciliationEvents : List ReconciliationEvent
  other : Other

/-- What a function or a statement raises. -/
inductive SqlError where
  /-- `raise exception message using errcode`. -/
  | exception (message errcode : String)
  /-- A constraint of a table. -/
  | violation (constraint : String)
  /-- What a trigger raises. -/
  | trigger (message : String)
  deriving DecidableEq, Repr

/-- What the functions use of the database around them. -/
structure Server where
  /-- `lower`. -/
  lower : String → String
  /-- A `timestamptz` in JSON. -/
  timestampText : Timestamptz → String
  /-- The triggers after an insert, which see the messages with the new row. -/
  afterInsert : Table String MessageRow → List ReconciliationEvent × Other →
    Except SqlError (List ReconciliationEvent × Other)

/-- A PL/pgSQL function's body. -/
abbrev Plpgsql (α : Type) := EStateM SqlError (Database Other) α

variable {Other}

/-- `select … from projection_batches where batch_id = p_batch_id`. -/
def Database.batch? (db : Database Other) (batchId : Option Uuid) : Option BatchRow :=
  batchId.bind fun id => db.batches.lookup id

/-- `select … from projection_lane_state where identity_id = … and branch = …`. -/
def Database.lane? (db : Database Other) (identityId branch : Option String) : Option LaneRow :=
  identityId.bind fun identityId => branch.bind fun branch => db.laneState.lookup (identityId, branch)

/-- `exists (select 1 from projection_batch_files where batch_id = … and state not in (…))`. -/
def Database.unresolved (db : Database Other) (id : Uuid) : Bool :=
  Table.any db.batchFiles fun key file => decide (key.1 = id ∧ ¬ file.state.Terminal)

theorem Database.unresolved_eq_false {db : Database Other} {id : Uuid} :
    db.unresolved id = false ↔
      ∀ path file, db.batchFiles.lookup (id, path) = some file → file.state.Terminal := by
  rw [← Bool.not_eq_true, Database.unresolved, Table.any_iff]
  constructor
  · intro h path file hfile
    by_contra hstate
    exact h ⟨(id, path), file, hfile, by simp [hstate]⟩
  · rintro h ⟨⟨id', path⟩, file, hfile, hp⟩
    obtain ⟨rfl, hstate⟩ := of_decide_eq_true hp
    exact hstate (h path file hfile)

end CcbCore.Projection
