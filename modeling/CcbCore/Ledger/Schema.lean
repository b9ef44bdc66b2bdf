import CcbCore.Library.Raising
import CcbCore.Library.ThreeValued
import Mathlib.Data.Int.Order.Basic

/-!
# The assignment ledger's schema

The tables, constraints and triggers of `src/chat_bus/schema.sql`. A column that may
be NULL is an `Option`. A row that a statement gives is a `NewAssignment` or a
`NewEvent`, any of whose columns may be NULL: `NOT NULL` is that it is a row of the
table (`NewAssignment.row`, `NewEvent.row`), a `CHECK` is a predicate of the row.

A statement is the list of the row operations it makes, in order (an `UPDATE` visits
the rows that its `WHERE` selects, an `INSERT … SELECT` gives several rows, an upsert
inserts or updates), each under the statement's conflict policy. `FAIL` and `ROLLBACK`
raise as `ABORT` does, and a connection rolls back what raises, so they are `ABORT`
here. `RAISE(ABORT, …)` in a trigger aborts under any policy, and the statement's
policy is that of the statements in its triggers. A foreign key is looked at when the
statement ends, but `ON DELETE RESTRICT` is looked at when a row is deleted.
-/

namespace CcbCore.Ledger

open CcbCore.Sql CcbCore.Raising

/-! ### Columns -/

/-- What a state column holds: a state that the schema lists, or any other text. -/
inductive State where
  | drafted
  | assigned
  | acknowledged
  | running
  | reviewPending
  | pausedUsageExhausted
  | interrupted
  | handedOff
  | changesRequested
  | stopped
  | confirmed
  | superseded
  | other (text : String)
  deriving DecidableEq, Repr

/-- `current_state IN (…)`. -/
def State.Listed : State → Prop
  | .other _ => False
  | _ => True

instance : DecidablePred State.Listed := fun state => by cases state <;> simp only [State.Listed] <;> infer_instance

/-- What an actor column holds. -/
inductive Actor where
  | coordinator
  | producer
  | reviewer
  | operator
  | other (text : String)
  deriving DecidableEq, Repr

/-- What an architecture mode column holds. -/
inductive ArchitectureMode where
  | nativeMultiAgent
  | fallbackCoordinatorRelay
  | other (text : String)
  deriving DecidableEq, Repr

/-- `architecture_mode IN (…)`. -/
def ArchitectureMode.Listed (mode : ArchitectureMode) : Prop :=
  mode = .nativeMultiAgent ∨ mode = .fallbackCoordinatorRelay

instance : DecidablePred ArchitectureMode.Listed := fun _ => inferInstanceAs (Decidable (_ ∨ _))

/-- `transition_rules.context_action`. -/
inductive ContextAction where
  | none
  | setPause
  | resumePause
  | setInterrupt
  | setInterruptFromPause
  | recoverInterrupt
  | clearContext
  | supersede
  deriving DecidableEq, Repr

/-- `transition_rules`. -/
structure Rule where
  transitionTypeId : String
  fromState : State
  toState : State
  actor : Actor
  contextAction : ContextAction
  deriving DecidableEq, Repr

/-- The seeded `transition_rules`. -/
def transitionRules : List Rule := [
  ⟨"ASSIGN", .drafted, .assigned, .coordinator, .none⟩,
  ⟨"ACKNOWLEDGE", .assigned, .acknowledged, .producer, .none⟩,
  ⟨"START", .acknowledged, .running, .producer, .none⟩,
  ⟨"REQUEST_REVIEW", .running, .reviewPending, .producer, .none⟩,
  ⟨"CONFIRM", .reviewPending, .confirmed, .reviewer, .clearContext⟩,
  ⟨"CHANGES_REQUEST", .reviewPending, .changesRequested, .reviewer, .clearContext⟩,
  ⟨"CORRECT", .changesRequested, .running, .producer, .clearContext⟩,
  ⟨"HANDOFF", .running, .handedOff, .producer, .none⟩,
  ⟨"REOPEN_HANDOFF", .handedOff, .running, .coordinator, .none⟩,
  ⟨"PAUSE_FROM_ACKNOWLEDGED", .acknowledged, .pausedUsageExhausted, .operator, .setPause⟩,
  ⟨"PAUSE_FROM_RUNNING", .running, .pausedUsageExhausted, .operator, .setPause⟩,
  ⟨"PAUSE_FROM_REVIEW_PENDING", .reviewPending, .pausedUsageExhausted, .operator, .setPause⟩,
  ⟨"RESUME_TO_ACKNOWLEDGED", .pausedUsageExhausted, .acknowledged, .operator, .resumePause⟩,
  ⟨"RESUME_TO_RUNNING", .pausedUsageExhausted, .running, .operator, .resumePause⟩,
  ⟨"RESUME_TO_REVIEW_PENDING", .pausedUsageExhausted, .reviewPending, .operator, .resumePause⟩,
  ⟨"INTERRUPT_FROM_ACKNOWLEDGED", .acknowledged, .interrupted, .operator, .setInterrupt⟩,
  ⟨"INTERRUPT_FROM_RUNNING", .running, .interrupted, .operator, .setInterrupt⟩,
  ⟨"INTERRUPT_FROM_REVIEW_PENDING", .reviewPending, .interrupted, .operator, .setInterrupt⟩,
  ⟨"INTERRUPT_FROM_PAUSED", .pausedUsageExhausted, .interrupted, .operator, .setInterruptFromPause⟩,
  ⟨"RECOVER_TO_ACKNOWLEDGED", .interrupted, .acknowledged, .operator, .recoverInterrupt⟩,
  ⟨"RECOVER_TO_RUNNING", .interrupted, .running, .operator, .recoverInterrupt⟩,
  ⟨"RECOVER_TO_REVIEW_PENDING", .interrupted, .reviewPending, .operator, .recoverInterrupt⟩,
  ⟨"RECOVER_TO_PAUSED", .interrupted, .pausedUsageExhausted, .operator, .recoverInterrupt⟩,
  ⟨"STOP_FROM_DRAFTED", .drafted, .stopped, .operator, .clearContext⟩,
  ⟨"STOP_FROM_ASSIGNED", .assigned, .stopped, .operator, .clearContext⟩,
  ⟨"STOP_FROM_ACKNOWLEDGED", .acknowledged, .stopped, .operator, .clearContext⟩,
  ⟨"STOP_FROM_RUNNING", .running, .stopped, .operator, .clearContext⟩,
  ⟨"STOP_FROM_REVIEW_PENDING", .reviewPending, .stopped, .operator, .clearContext⟩,
  ⟨"STOP_FROM_PAUSED", .pausedUsageExhausted, .stopped, .operator, .clearContext⟩,
  ⟨"STOP_FROM_INTERRUPTED", .interrupted, .stopped, .operator, .clearContext⟩,
  ⟨"STOP_FROM_HANDED_OFF", .handedOff, .stopped, .operator, .clearContext⟩,
  ⟨"STOP_FROM_CHANGES_REQUESTED", .changesRequested, .stopped, .operator, .clearContext⟩,
  ⟨"SUPERSEDE", .drafted, .superseded, .coordinator, .supersede⟩]

/-- The row of `transition_rules` under a key. -/
def ruleOf (transitionTypeId : String) : Option Rule :=
  transitionRules.find? fun rule => rule.transitionTypeId = transitionTypeId

/-- `length(text)`, which counts the characters before the first NUL. -/
def sqlLength (text : String) : ℕ := (text.toList.takeWhile (· ≠ '\x00')).length

/-- `length(text) = 64 AND text NOT GLOB '*[^0-9a-f]*'`. -/
def IsSha256 (text : String) : Prop :=
  sqlLength text = 64 ∧ ∀ c ∈ text.toList.takeWhile (· ≠ '\x00'), ('0' ≤ c ∧ c ≤ '9') ∨ ('a' ≤ c ∧ c ≤ 'f')

instance : DecidablePred IsSha256 := fun _ => @instDecidableAnd _ _ _ (List.decidableBAll _ _)

/-! ### Rows -/

/-- The columns of an assignment that follow its events. -/
@[ext] structure Projection where
  currentState : State
  currentTransitionEventId : Option ℤ
  prePauseState : Option State
  preInterruptState : Option State
  nestedPauseState : Option State
  supersededByAssignmentId : Option String
  deriving DecidableEq, Repr

/-- `assignments`, with its rowid. A `TEXT PRIMARY KEY` may be NULL. -/
structure Assignment extends Projection where
  rowid : ℤ
  assignmentId : Option String
  workflowId : String
  architectureMode : ArchitectureMode
  createdAtMs : ℤ
  deriving DecidableEq, Repr

/-- `transition_events`. -/
structure Event where
  eventId : ℤ
  assignmentId : String
  transitionTypeId : String
  actor : Actor
  fromState : State
  toState : State
  predecessorEventId : Option ℤ
  operationId : String
  receiptSha256 : String
  targetAssignmentId : Option String
  createdAtMs : ℤ
  deriving DecidableEq, Repr

/-- `final_acceptance_receipts.disposition`. -/
inductive Disposition where
  | pass
  | fail
  | other (text : String)
  deriving DecidableEq, Repr

/-- `final_acceptance_receipts`. -/
structure Receipt where
  receiptId : ℤ
  assignmentId : String
  architectureMode : ArchitectureMode
  disposition : Disposition
  readbackConfirmed : ℤ
  evidenceSha256 : String
  createdAtMs : ℤ
  deriving DecidableEq, Repr

/-- The tables, with what `sqlite_sequence` keeps for the two that count their rows. -/
structure Database where
  assignments : List Assignment
  events : List Event
  receipts : List Receipt
  eventSequence : ℤ
  receiptSequence : ℤ
  deriving DecidableEq, Repr

/-- The tables as the schema makes them. -/
def Database.empty : Database := ⟨[], [], [], 0, 0⟩

/-- What a statement gives for a row of `assignments`. -/
structure NewAssignment where
  assignmentId : Option String
  workflowId : Option String
  architectureMode : Option ArchitectureMode
  currentState : Option State
  currentTransitionEventId : Option ℤ
  prePauseState : Option State
  preInterruptState : Option State
  nestedPauseState : Option State
  supersededByAssignmentId : Option String
  createdAtMs : Option ℤ
  deriving DecidableEq, Repr

/-- What a statement gives for a row of `transition_events`; an id it does not give is
counted. -/
structure NewEvent where
  eventId : Option ℤ
  assignmentId : Option String
  transitionTypeId : Option String
  actor : Option Actor
  fromState : Option State
  toState : Option State
  predecessorEventId : Option ℤ
  operationId : Option String
  receiptSha256 : Option String
  targetAssignmentId : Option String
  createdAtMs : Option ℤ
  deriving DecidableEq, Repr

/-- `OR ABORT`, `OR IGNORE`, `OR REPLACE`. -/
inductive Conflict where
  | abort
  | ignore
  | replace
  deriving DecidableEq, Repr

/-- What a statement raises. -/
inductive SqlError where
  /-- `RAISE(ABORT, message)`. -/
  | raised (message : String)
  | notNull
  | check
  | unique
  | foreignKey
  /-- There is no integer for a new row. -/
  | full
  /-- NULL is no rowid. -/
  | mismatch
  deriving DecidableEq, Repr

/-- A statement, or a part of one. -/
abbrev Sqlite := EStateM SqlError Database

/-- What an assignment is now, as a statement would give it. -/
def Assignment.toNew (a : Assignment) : NewAssignment where
  assignmentId := a.assignmentId
  workflowId := some a.workflowId
  architectureMode := some a.architectureMode
  currentState := some a.currentState
  currentTransitionEventId := a.currentTransitionEventId
  prePauseState := a.prePauseState
  preInterruptState := a.preInterruptState
  nestedPauseState := a.nestedPauseState
  supersededByAssignmentId := a.supersededByAssignmentId
  createdAtMs := some a.createdAtMs

/-- The row that is given, where `NOT NULL` is met. `OR REPLACE` puts the default of
`current_state` for a NULL. -/
def NewAssignment.row (new : NewAssignment) (policy : Conflict) (rowid : ℤ) : Option Assignment := do
  let workflowId ← new.workflowId
  let architectureMode ← new.architectureMode
  let currentState ← new.currentState <|> if policy = .replace then some .drafted else none
  let createdAtMs ← new.createdAtMs
  return {
    rowid
    assignmentId := new.assignmentId
    workflowId
    architectureMode
    currentState
    currentTransitionEventId := new.currentTransitionEventId
    prePauseState := new.prePauseState
    preInterruptState := new.preInterruptState
    nestedPauseState := new.nestedPauseState
    supersededByAssignmentId := new.supersededByAssignmentId
    createdAtMs }

/-- The `CHECK`s of `assignments` on the columns that follow the events. A `CHECK`
fails only when it is false, so NULL is as good as `PAUSED_USAGE_EXHAUSTED` in the third. -/
structure Projection.Checks (p : Projection) : Prop where
  listed : p.currentState.Listed
  pause : p.currentState = .pausedUsageExhausted ↔ p.prePauseState ≠ none
  interrupt : p.currentState = .interrupted ↔ p.preInterruptState ≠ none
  nested : p.nestedPauseState = none ∨ p.currentState = .interrupted ∧
    (p.preInterruptState = none ∨ p.preInterruptState = some .pausedUsageExhausted)
  superseded : p.supersededByAssignmentId = none ∨ p.currentState = .superseded

instance (p : Projection) : Decidable p.Checks :=
  decidable_of_iff (p.currentState.Listed ∧ (p.currentState = .pausedUsageExhausted ↔ p.prePauseState ≠ none) ∧
      (p.currentState = .interrupted ↔ p.preInterruptState ≠ none) ∧
      (p.nestedPauseState = none ∨ p.currentState = .interrupted ∧
        (p.preInterruptState = none ∨ p.preInterruptState = some .pausedUsageExhausted)) ∧
      (p.supersededByAssignmentId = none ∨ p.currentState = .superseded))
    ⟨fun ⟨h₁, h₂, h₃, h₄, h₅⟩ => ⟨h₁, h₂, h₃, h₄, h₅⟩, fun h => ⟨h.1, h.2, h.3, h.4, h.5⟩⟩

/-- The `CHECK`s of `assignments`. -/
def Assignment.Checks (a : Assignment) : Prop :=
  (∀ id ∈ a.assignmentId, 0 < sqlLength id) ∧ 0 < sqlLength a.workflowId ∧ a.architectureMode.Listed ∧
    0 ≤ a.createdAtMs ∧ a.toProjection.Checks

instance (a : Assignment) : Decidable a.Checks := inferInstanceAs (Decidable (_ ∧ _))

/-- The row that is given, where `NOT NULL` is met. -/
def NewEvent.row (new : NewEvent) (eventId : ℤ) : Option Event := do
  return {
    eventId
    assignmentId := ← new.assignmentId
    transitionTypeId := ← new.transitionTypeId
    actor := ← new.actor
    fromState := ← new.fromState
    toState := ← new.toState
    predecessorEventId := new.predecessorEventId
    operationId := ← new.operationId
    receiptSha256 := ← new.receiptSha256
    targetAssignmentId := new.targetAssignmentId
    createdAtMs := ← new.createdAtMs }

/-- The `CHECK`s of `transition_events`. -/
def Event.Checks (e : Event) : Prop :=
  0 < sqlLength e.assignmentId ∧ 0 < sqlLength e.transitionTypeId ∧ IsSha256 e.receiptSha256 ∧ 0 ≤ e.createdAtMs

instance (e : Event) : Decidable e.Checks := inferInstanceAs (Decidable (_ ∧ _))

end CcbCore.Ledger
