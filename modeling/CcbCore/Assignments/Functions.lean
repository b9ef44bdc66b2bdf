import CcbCore.Assignments.Schema
import Mathlib.Data.List.Sort

/-!
# Reconciling assignments

`radar.reconcile_bus_assignments_v1` of `20260903001906_radar_assignment_plane_v1.sql`, and the
trigger that calls it after an insert. A query of a loop is run when the loop is entered, and
each variable is assigned in an iteration before it is read there; where a `select … into` finds
nothing it is NULL and `found` is false. What the body of the main loop decides of a message is a
`Verdict`, and what it does then is `visit`.

`Server` holds what the function uses of the database around it: the collation's `lower`, `upper`
and order. The counters are those of the JSON that is returned.
-/

namespace CcbCore.Assignments

open CcbCore.Postgres CcbCore.Raising CcbCore.Sql
open CcbCore.Projection (MessageRow ReconciliationEvent SqlError Timestamptz)

structure Server where
  lower : String → String
  upper : String → String
  /-- `first <= second`. -/
  collate : String → String → Bool

variable (server : Server) (now : ℤ)

/-! ### Envelopes -/

/-- `nullif(text, other)`. -/
def nullif (text other : String) : Option String := if text = other then none else some text

/-- `payload ? key`. -/
def hasKey (payload : Jsonb) (key : String) : Bool :=
  match payload with
  | .object fields => fields.any fun field => field.1 = key
  | .array items => items.any fun item => match item with | .string s => s = key | _ => false
  | .string s => s = key
  | _ => false

/-- `btrim(coalesce(payload->>key, default))`. -/
def trimmed (payload : Jsonb) (key default : String) : String := btrim ((payload.getText key).getD default)

/-- What a payload says of an assignment. -/
structure Envelope where
  assignmentId : String
  workflowId : String
  assignee : String
  event : String
  state : String
  predecessorMessage : String
  authorityRef : Option String
  protectedText : String

def envelope (payload : Jsonb) : Envelope where
  assignmentId := trimmed payload "assignment_id" ""
  workflowId := trimmed payload "assignment_workflow_id" ""
  assignee := server.lower (trimmed payload "assignment_assignee" "")
  event := server.upper (trimmed payload "assignment_event" "")
  state := server.upper (trimmed payload "assignment_state" "")
  predecessorMessage := trimmed payload "assignment_predecessor_message_id" ""
  authorityRef := nullif (trimmed payload "assignment_authority_ref" "") ""
  protectedText := server.lower (trimmed payload "assignment_protected_authority" "false")

namespace Envelope

variable (e : Envelope)

/-- `protected_text in ('true','yes','1')`. -/
def isProtected : Bool := e.protectedText ∈ ["true", "yes", "1"]

/-- `protected_value` of the first loop, which is NULL for an unknown text. -/
def protectedValue : Option Bool :=
  if e.isProtected = true then some true
  else if e.protectedText ∈ ["false", "no", "0", ""] then some false
  else none

/-- The envelope is not one of the first version. -/
def Invalid (identities : Finset String) : Prop :=
  e.assignmentId = "" ∨ e.workflowId = "" ∨ e.assignee = "" ∨ e.event = "" ∨ e.state = "" ∨ e.protectedValue = none ∨
    AssignmentState.ofText? e.state = none ∨ e.event ≠ e.state ∨
    (e.event = "ASSIGNED" ∧ e.predecessorMessage ≠ "") ∨ (e.event ≠ "ASSIGNED" ∧ e.predecessorMessage = "") ∨
    (e.protectedValue = some true ∧ e.authorityRef = none) ∨ e.assignee ∉ identities

instance (identities : Finset String) : Decidable (e.Invalid identities) := by
  unfold Invalid
  infer_instance

/-- The bindings of an assignment that the envelope is the root of. -/
def binding : Binding := ⟨e.workflowId, some e.assignee, e.isProtected, e.authorityRef⟩

end Envelope

/-- `coalesce((source_refs)[1], message_id)`. -/
def Message.sourceRef (m : Message) : String := m.sourceRefs.head?.join.getD m.messageId

/-! ### Observations -/

/-- An observation of a code about a message is there. -/
def observed (observations : List ReconciliationEvent) (code messageId : String) : Bool :=
  observations.any fun event => event.code = code ∧ (equals (event.detail.getText "message_id") (some messageId)).Holds

/-- An observation about a message. -/
def observation (m : Message) (code repairClass : String) (fields : List (String × Jsonb)) : ReconciliationEvent where
  code := code
  repairClass := repairClass
  sourceRef := some m.sourceRef
  detail := .object (("message_id", .string m.messageId) :: fields)
  createdAt := now

/-- An observation is inserted unless one of its code about the message is there; how many were inserted. -/
def observeOnce (m : Message) (code repairClass : String) (fields : List (String × Jsonb)) : Plpgsql ℕ := do
  let db ← get
  if observed db.reconciliationEvents code m.messageId = true then pure 0
  else
    set { db with reconciliationEvents := db.reconciliationEvents ++ [observation now m code repairClass fields] }
    pure 1

/-! ### Queries -/

/-- `order by created_at, message_id`. -/
def before (m m' : Message) : Prop :=
  m.createdAt < m'.createdAt ∨ (m.createdAt = m'.createdAt ∧ server.collate m.messageId m'.messageId = true)

instance : DecidableRel (before server) := fun m m' =>
  inferInstanceAs (Decidable (m.createdAt < m'.createdAt ∨ (m.createdAt = m'.createdAt ∧ server.collate m.messageId m'.messageId = true)))

def assignmentKeys : List String :=
  ["assignment_id", "assignment_workflow_id", "assignment_assignee", "assignment_event", "assignment_state",
    "assignment_predecessor_message_id", "assignment_authority_ref", "assignment_protected_authority"]

namespace Plane

variable (db : Plane)

/-- The messages that the first loop is over. -/
def explicit : List Message :=
  (db.records.filter fun m => m.domain = "chat_bus" ∧ assignmentKeys.any (hasKey m.payload)).insertionSort (before server)

/-- The messages that the main loop is over. -/
def projectable : List Message :=
  (db.records.filter fun m => m.domain = "chat_bus" ∧ hasKey m.payload "assignment_id" = true ∧
    observed db.reconciliationEvents "ASSIGNMENT_ENVELOPE_INVALID" m.messageId = false).insertionSort (before server)

/-- The messages that the last loop is over. -/
def waiting : List Message :=
  (db.records.filter fun m => m.domain = "chat_bus" ∧ hasKey m.payload "assignment_id" = true ∧
    (envelope server m.payload).event ≠ "ASSIGNED" ∧
    ((m.payload.getText "assignment_id").bind fun id => db.eventOf (btrim id) m.messageId) = none ∧
    observed db.reconciliationEvents "ASSIGNMENT_ENVELOPE_INVALID" m.messageId = false ∧
    observed db.reconciliationEvents "ASSIGNMENT_EVENT_CONFLICT" m.messageId = false).insertionSort (before server)

end Plane

/-! ### The loops -/

/-- The counters. -/
structure Counts where
  assignmentsInserted : ℕ := 0
  eventsInserted : ℕ := 0
  invalidObservationsInserted : ℕ := 0
  pendingObservationsInserted : ℕ := 0
  conflictObservationsInserted : ℕ := 0
  deriving DecidableEq, Repr

/-- What the observation of an invalid envelope says. -/
def Envelope.invalidFields (e : Envelope) : List (String × Jsonb) := [
  ("assignment_id", .ofText (nullif e.assignmentId "")),
  ("assignment_workflow_id", .ofText (nullif e.workflowId "")),
  ("assignment_assignee", .ofText (nullif e.assignee "")),
  ("assignment_event", .ofText (nullif e.event "")),
  ("assignment_state", .ofText (nullif e.state "")),
  ("assignment_predecessor_message_id", .ofText (nullif e.predecessorMessage "")),
  ("assignment_protected_authority", .string e.protectedText),
  ("resolution", .string "assignment_state_not_projected")]

/-- What the observation of a missing predecessor says. -/
def Envelope.pendingFields (e : Envelope) : List (String × Jsonb) := [
  ("assignment_id", .string e.assignmentId),
  ("predecessor_message_id", .ofText (nullif e.predecessorMessage "")),
  ("resolution", .string "await_explicit_predecessor_then_reconcile")]

/-- The body of the first loop. -/
def checkEnvelope (counts : Counts) (m : Message) : Plpgsql Counts := do
  let e := envelope server m.payload
  let db ← get
  if e.Invalid db.identities then
    let inserted ← observeOnce now m "ASSIGNMENT_ENVELOPE_INVALID" "OBSERVATION_ONLY" e.invalidFields
    pure { counts with invalidObservationsInserted := counts.invalidObservationsInserted + inserted }
  else pure counts

/-- What the body of the main loop decides. -/
inductive Verdict where
  | skip
  | conflict (fields : List (String × Jsonb))
  | root
  | successor (row : AssignmentRow) (predecessorEventId : ℤ)

/-- A `bigint` that may be NULL. -/
def bigint : Option ℤ → Jsonb
  | none => .null
  | some id => .number (toString id)

/-- The branches of the main loop. -/
def Plane.verdict (db : Plane) (m : Message) : Verdict :=
  let e := envelope server m.payload
  if (db.eventOf e.assignmentId m.messageId).isSome then .skip
  else if e.event = "ASSIGNED" then
    match db.assignments.lookup e.assignmentId with
    | some row => .conflict [
        ("assignment_id", .string e.assignmentId),
        ("reason", .string "assignment_root_already_exists"),
        ("current_event_id", bigint row.currentEventId),
        ("resolution", .string "state_not_advanced")]
    | none => .root
  else
    match db.assignments.lookup e.assignmentId with
    | none => .skip
    | some row =>
      if row.workflowId ≠ e.workflowId ∨ row.assigneeIdentityId ≠ some e.assignee ∨
          row.protectedAuthority ≠ e.isProtected ∨ row.authorityRef ≠ e.authorityRef then .conflict [
        ("assignment_id", .string e.assignmentId),
        ("reason", .string "immutable_assignment_binding_mismatch"),
        ("resolution", .string "state_not_advanced")]
      else
        match db.eventOf e.assignmentId e.predecessorMessage with
        | none => .skip
        | some predecessor =>
          if row.currentEventId ≠ some predecessor.eventId then .conflict [
            ("assignment_id", .string e.assignmentId),
            ("predecessor_message_id", .string e.predecessorMessage),
            ("predecessor_event_id", bigint (some predecessor.eventId)),
            ("current_event_id", bigint row.currentEventId),
            ("reason", .string "predecessor_is_not_current_assignment_event"),
            ("resolution", .string "state_not_advanced")]
          else .successor row predecessor.eventId

/-- The row of an assignment, from its root. -/
def rootRow (m : Message) : AssignmentRow where
  workflowId := (envelope server m.payload).workflowId
  currentState := .drafted
  authorityRef := (envelope server m.payload).authorityRef
  protectedAuthority := (envelope server m.payload).isProtected
  currentEventId := none
  assigneeIdentityId := some (envelope server m.payload).assignee
  sourceMessageId := some m.messageId
  createdAt := m.createdAt
  updatedAt := m.createdAt

/-- The event of a root. -/
def rootEvent (m : Message) (eventId : ℤ) : EventRow where
  eventId := eventId
  assignmentId := (envelope server m.payload).assignmentId
  eventType := (envelope server m.payload).event
  actor := m.sender
  fromState := "DRAFTED"
  toState := (envelope server m.payload).state
  predecessorEventId := none
  operationId := m.messageId
  receiptSha256 := m.contentHash
  detail := .object [
    ("message_id", .string m.messageId),
    ("source_refs", .array (m.sourceRefs.map .ofText)),
    ("assignee_identity_id", .string (envelope server m.payload).assignee),
    ("workflow_id", .string (envelope server m.payload).workflowId),
    ("claim_basis", .string "explicit_assignment_envelope_v1")]
  createdAt := m.createdAt

/-- The event of a successor. -/
def successorEvent (row : AssignmentRow) (predecessorEventId : ℤ) (m : Message) (eventId : ℤ) : EventRow where
  eventId := eventId
  assignmentId := (envelope server m.payload).assignmentId
  eventType := (envelope server m.payload).event
  actor := m.sender
  fromState := row.currentState.text
  toState := (envelope server m.payload).state
  predecessorEventId := some predecessorEventId
  operationId := m.messageId
  receiptSha256 := m.contentHash
  detail := .object [
    ("message_id", .string m.messageId),
    ("source_refs", .array (m.sourceRefs.map .ofText)),
    ("predecessor_message_id", .string (envelope server m.payload).predecessorMessage),
    ("claim_basis", .string "explicit_assignment_envelope_v1")]
  createdAt := m.createdAt

/-- `progress`, and the counters. -/
structure Locals where
  progress : Bool := false
  counts : Counts

/-- The body of the main loop. -/
def visit (locals : Locals) (m : Message) : Plpgsql Locals := do
  let e := envelope server m.payload
  let db ← get
  match db.verdict server m with
  | .skip => pure locals
  | .conflict fields =>
    let inserted ← observeOnce now m "ASSIGNMENT_EVENT_CONFLICT" "AMBIGUOUS_DURABLE_CONFLICT" fields
    pure { locals with counts := { locals.counts with
      conflictObservationsInserted := locals.counts.conflictObservationsInserted + inserted } }
  | .root =>
    insertAssignment e.assignmentId (rootRow server m)
    let newEventId ← insertEvent (rootEvent server m)
    updateAssignment e.assignmentId e.state newEventId m.createdAt
    pure { progress := true, counts := { locals.counts with
      assignmentsInserted := locals.counts.assignmentsInserted + 1
      eventsInserted := locals.counts.eventsInserted + 1 } }
  | .successor row predecessorEventId =>
    match ← insertEventUnlessConflict (successorEvent server row predecessorEventId m) with
    | none => pure locals
    | some newEventId =>
      updateAssignment e.assignmentId e.state newEventId m.createdAt
      pure { progress := true, counts := { locals.counts with eventsInserted := locals.counts.eventsInserted + 1 } }

/-- The main loop, once over the messages. -/
def sweep (counts : Counts) : Plpgsql Locals := do
  let db ← get
  (db.projectable server).foldlM (visit server now) { counts }

/-- What a loop raises that is cut off. -/
def cutOff : SqlError := .exception "canceling statement due to user request" "57014"

/-- The main loop, until it makes no progress; it is cut off after so many passes. -/
def sweeps : ℕ → Counts → Plpgsql Counts
  | 0, _ => throw cutOff
  | passes + 1, counts => do
    let locals ← sweep server now counts
    if locals.progress = true then sweeps passes locals.counts else pure locals.counts

/-- The body of the last loop. -/
def awaitPredecessor (counts : Counts) (m : Message) : Plpgsql Counts := do
  let inserted ← observeOnce now m "ASSIGNMENT_EVENT_PENDING_PREDECESSOR" "OBSERVATION_ONLY"
    (envelope server m.payload).pendingFields
  pure { counts with pendingObservationsInserted := counts.pendingObservationsInserted + inserted }

/-- `radar.reconcile_bus_assignments_v1`, whose main loop is cut off after so many passes. -/
def reconcileBusAssignmentsV1 (passes : ℕ) : Plpgsql Counts := do
  let db ← get
  let counts ← (db.explicit server).foldlM (checkEnvelope server now) {}
  let counts ← sweeps server now passes counts
  let db ← get
  (db.waiting server).foldlM (awaitPredecessor server now) counts

/-! ### The trigger -/

/-- A row of `insert into radar.messages`. -/
def insertMessage (m : Message) : Plpgsql PUnit := do
  let db ← get
  let messages ← required (Table.insertRow db.messages m.messageId m.toMessageRow) (.violation "messages_pkey")
  set { db with messages := messages }

/-- `insert into radar.messages`, and `bus_assignment_reconcile_after_insert_v1` after it: one pass
more than there are messages is enough. -/
def insertMessages (batch : List Message) : Plpgsql PUnit := do
  batch.forM insertMessage
  let db ← get
  let _ ← reconcileBusAssignmentsV1 server now (db.records.length + 1)

end CcbCore.Assignments
