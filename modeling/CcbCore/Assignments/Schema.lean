import CcbCore.Projection.Schema
import Mathlib.Data.Finset.Basic

/-!
# The assignment plane's tables

`radar.assignments` and `radar.assignment_events` of
`supabase/migrations/20260902120716_radar_control_plane_v1.sql`, with the columns that
`20260903001906_radar_assignment_plane_v1.sql` adds, and the tables beside them that the
reconciliation reads: `radar.messages`, `radar.identities`, of which only the ids matter, and
`radar.reconciliation_events`. The constraints that an insert or an update may break are
checked where it is made (`insertAssignment`, `insertEvent`, `updateAssignment`).
-/

namespace CcbCore.Assignments

open CcbCore.Postgres CcbCore.Raising CcbCore.Sql
open CcbCore.Projection (MessageRow ReconciliationEvent SqlError Timestamptz)

/-! ### Rows -/

/-- `assignments.current_state`, and the `allowed_states` of the reconciliation. -/
inductive AssignmentState where
  | drafted
  | assigned
  | acknowledged
  | running
  | reviewPending
  | pausedUsageExhausted
  | interrupted
  | handedOff
  | changesRequested
  | stopped
  | confirmed
  | superseded
  deriving DecidableEq, Repr

namespace AssignmentState

def all : List AssignmentState :=
  [.drafted, .assigned, .acknowledged, .running, .reviewPending, .pausedUsageExhausted, .interrupted, .handedOff,
    .changesRequested, .stopped, .confirmed, .superseded]

def text : AssignmentState → String
  | .drafted => "DRAFTED"
  | .assigned => "ASSIGNED"
  | .acknowledged => "ACKNOWLEDGED"
  | .running => "RUNNING"
  | .reviewPending => "REVIEW_PENDING"
  | .pausedUsageExhausted => "PAUSED_USAGE_EXHAUSTED"
  | .interrupted => "INTERRUPTED"
  | .handedOff => "HANDED_OFF"
  | .changesRequested => "CHANGES_REQUESTED"
  | .stopped => "STOPPED"
  | .confirmed => "CONFIRMED"
  | .superseded => "SUPERSEDED"

/-- The state of a text that passes the check. -/
def ofText? (text : String) : Option AssignmentState := all.find? fun state => state.text = text

theorem ofText?_eq_some {text : String} {state : AssignmentState} : ofText? text = some state ↔ state.text = text := by
  constructor
  · intro h
    simpa using List.find?_some h
  · rintro rfl
    cases state <;> rfl

end AssignmentState

/-- `radar.assignments`. -/
structure AssignmentRow where
  workflowId : String
  currentState : AssignmentState
  authorityRef : Option String
  protectedAuthority : Bool
  currentEventId : Option ℤ
  assigneeIdentityId : Option String
  sourceMessageId : Option String
  createdAt : Timestamptz
  updatedAt : Timestamptz

/-- What is bound for good when an assignment is made. -/
structure Binding where
  workflowId : String
  assigneeIdentityId : Option String
  protectedAuthority : Bool
  authorityRef : Option String
  deriving DecidableEq

def AssignmentRow.binding (row : AssignmentRow) : Binding :=
  ⟨row.workflowId, row.assigneeIdentityId, row.protectedAuthority, row.authorityRef⟩

/-- `radar.assignment_events`. -/
structure EventRow where
  eventId : ℤ
  assignmentId : String
  eventType : String
  actor : String
  fromState : String
  toState : String
  predecessorEventId : Option ℤ
  operationId : String
  receiptSha256 : Hex 64
  detail : Jsonb
  createdAt : Timestamptz

/-- A row of `radar.messages` with its id. -/
structure Message extends MessageRow where
  messageId : String

/-- The tables, and the identity column's sequence. -/
structure Plane where
  identities : Finset String
  messages : Table String MessageRow
  assignments : Table String AssignmentRow
  assignmentEvents : List EventRow
  nextEventId : ℤ
  reconciliationEvents : List ReconciliationEvent

/-- A PL/pgSQL function's body. -/
abbrev Plpgsql (α : Type) := EStateM SqlError Plane α

namespace Plane

variable (db : Plane)

/-- The messages. -/
def records : List Message := db.messages.entries.map fun entry => { entry.2 with messageId := entry.1 }

/-- The events of an assignment. -/
def eventsOf (assignmentId : String) : List EventRow :=
  db.assignmentEvents.filter fun event => event.assignmentId = assignmentId

/-- The event of an assignment that a message is the operation of. -/
def eventOf (assignmentId operationId : String) : Option EventRow :=
  db.assignmentEvents.find? fun event => event.assignmentId = assignmentId ∧ event.operationId = operationId

theorem mem_records {m : Message} : m ∈ db.records ↔ db.messages.lookup m.messageId = some m.toMessageRow := by
  rw [records, List.mem_map, ← Table.mem_entries_iff]
  constructor
  · rintro ⟨⟨id, row⟩, hmem, rfl⟩
    exact hmem
  · intro hmem
    exact ⟨_, hmem, rfl⟩

end Plane

/-! ### Statements -/

/-- `insert into radar.assignments`. -/
def insertAssignment (assignmentId : String) (row : AssignmentRow) : Plpgsql PUnit := do
  let db ← get
  let assignments ← required (Table.insertRow db.assignments assignmentId row) (.violation "assignments_pkey")
  refuseIf (row.sourceMessageId ≠ none ∧ Table.any db.assignments fun _ other => other.sourceMessageId = row.sourceMessageId)
    (.violation "radar_assignments_source_message_unique_idx")
  refuseIf (∃ id ∈ row.assigneeIdentityId, id ∉ db.identities) (.violation "assignments_assignee_identity_id_fkey")
  refuseIf (∃ id ∈ row.sourceMessageId, db.messages.lookup id = none) (.violation "assignments_source_message_id_fkey")
  set { db with assignments := assignments }

/-- `insert into radar.assignment_events … returning event_id`, of a row that waits for its id. -/
def insertEvent (row : ℤ → EventRow) : Plpgsql ℤ := do
  let db ← get
  let event := row db.nextEventId
  refuseIf (db.assignmentEvents.any fun other => other.eventId = event.eventId) (.violation "assignment_events_pkey")
  refuseIf ((db.eventOf event.assignmentId event.operationId).isSome)
    (.violation "assignment_events_assignment_id_operation_id_key")
  refuseIf (db.assignments.lookup event.assignmentId = none) (.violation "assignment_events_assignment_id_fkey")
  refuseIf (∃ id ∈ event.predecessorEventId, db.assignmentEvents.all fun other => other.eventId ≠ id)
    (.violation "assignment_events_predecessor_event_id_fkey")
  set { db with assignmentEvents := db.assignmentEvents ++ [event], nextEventId := db.nextEventId + 1 }
  pure db.nextEventId

/-- The same, `on conflict (assignment_id, operation_id) do nothing`: nothing is returned then. -/
def insertEventUnlessConflict (row : ℤ → EventRow) : Plpgsql (Option ℤ) := do
  let db ← get
  let event := row db.nextEventId
  if (db.eventOf event.assignmentId event.operationId).isSome then
    set { db with nextEventId := db.nextEventId + 1 }
    pure none
  else some <$> insertEvent row

/-- `greatest(first, second)`. -/
def greatest (first second : Timestamptz) : Timestamptz := if first ≤ second then second else first

/-- The row of an assignment with a new current event. -/
def AssignmentRow.moved (row : AssignmentRow) (state : AssignmentState) (eventId : ℤ) (createdAt : Timestamptz) : AssignmentRow :=
  { row with currentState := state, currentEventId := some eventId, updatedAt := greatest row.updatedAt createdAt }

/-- `update radar.assignments set current_state = …, current_event_id = …, updated_at = …`. -/
def updateAssignment (assignmentId stateText : String) (eventId : ℤ) (createdAt : Timestamptz) : Plpgsql PUnit := do
  let db ← get
  let state ← required (AssignmentState.ofText? stateText) (.violation "assignments_current_state_check")
  refuseIf (db.assignmentEvents.all fun event => event.eventId ≠ eventId) (.violation "radar_assignments_current_event_fk")
  set { db with assignments := Table.modify db.assignments assignmentId fun row => row.moved state eventId createdAt }

end CcbCore.Assignments
