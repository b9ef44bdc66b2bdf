import CcbCore.Ledger.Schema

/-!
# The ledger's triggers, and the statements that fire them

The three triggers that validate, guard and project a transition, the row operations
on `assignments` and `transition_events`, and the statement (`execute`) that they make:
it raises and changes nothing, or every operation was accepted and every foreign key is
met at its end. `Accepts` is a statement that was accepted. The projection of an event
onto its assignment is `Projection.apply`.

A condition of a trigger is true when it holds, and unknown where it compares with
NULL: an `AND` or `OR` of comparisons is true exactly when the `∧` or `∨` of their
being true is.
-/

namespace CcbCore.Ledger

open CcbCore.Sql CcbCore.Raising

/-! ### Triggers -/

/-- `… FROM assignments WHERE assignment_id = id`. -/
def Database.select (db : Database) (id : Option String) : Option Assignment :=
  db.assignments.find? fun a => (equals a.assignmentId id).Holds

/-- `SELECT context_action FROM transition_rules WHERE transition_type_id = …`. -/
def contextActionOf (transitionTypeId : String) : Option ContextAction :=
  (ruleOf transitionTypeId).map (·.contextAction)

/-- `transition_event_validate_before_insert`. -/
def transitionEventValidateBeforeInsert (new : NewEvent) : Sqlite PUnit := do
  let db ← get
  refuseIf (¬ ∃ a ∈ db.assignments, ∃ r ∈ transitionRules, new.transitionTypeId = some r.transitionTypeId ∧
      (equals a.assignmentId new.assignmentId).Holds ∧ new.fromState = some a.currentState ∧
      new.fromState = some r.fromState ∧ new.toState = some r.toState ∧ new.actor = some r.actor)
    (.raised "ILLEGAL_TRANSITION")
  let current := (db.select new.assignmentId).bind (·.currentTransitionEventId)
  refuseIf (current.getD (-1) ≠ new.predecessorEventId.getD (-1)) (.raised "STALE_PREDECESSOR")
  refuseIf (new.predecessorEventId ≠ none ∧ ¬ ∃ p ∈ db.events,
      some p.eventId = new.predecessorEventId ∧ some p.assignmentId = new.assignmentId)
    (.raised "CROSS_ASSIGNMENT_PREDECESSOR")
  refuseIf (new.transitionTypeId = some "SUPERSEDE" ∧ (new.targetAssignmentId = none ∨
      (equals new.targetAssignmentId new.assignmentId).Holds ∨
      ¬ ∃ t ∈ db.assignments, (equals t.assignmentId new.targetAssignmentId).Holds))
    (.raised "INVALID_SUPERSESSION_TARGET")
  refuseIf ((differs new.transitionTypeId (some "SUPERSEDE")).Holds ∧ new.targetAssignmentId ≠ none)
    (.raised "UNEXPECTED_TARGET_ASSIGNMENT")
  let action := new.transitionTypeId.bind contextActionOf
  refuseIf (action = some .resumePause ∧
      (differs new.toState ((db.select new.assignmentId).bind (·.prePauseState))).Holds)
    (.raised "PAUSE_RESUME_TARGET_MISMATCH")
  refuseIf (action = some .recoverInterrupt ∧
      (differs new.toState ((db.select new.assignmentId).bind fun a =>
        if a.preInterruptState = some .pausedUsageExhausted then some .pausedUsageExhausted
        else a.preInterruptState)).Holds)
    (.raised "INTERRUPT_RECOVERY_TARGET_MISMATCH")

/-- `assignment_projection_guard_before_update`. -/
def assignmentProjectionGuardBeforeUpdate (old : Assignment) (new : NewAssignment) : Sqlite PUnit := do
  let db ← get
  refuseIf ((differs new.assignmentId old.assignmentId).Holds ∨ (differs new.workflowId (some old.workflowId)).Holds ∨
      (differs new.architectureMode (some old.architectureMode)).Holds ∨
      (differs new.createdAtMs (some old.createdAtMs)).Holds)
    (.raised "IMMUTABLE_ASSIGNMENT_IDENTITY")
  refuseIf (((differs new.currentState (some old.currentState)).Holds ∨
        new.currentTransitionEventId.getD (-1) ≠ old.currentTransitionEventId.getD (-1) ∨
        new.prePauseState.getD (.other "") ≠ old.prePauseState.getD (.other "") ∨
        new.preInterruptState.getD (.other "") ≠ old.preInterruptState.getD (.other "") ∨
        new.nestedPauseState.getD (.other "") ≠ old.nestedPauseState.getD (.other "") ∨
        new.supersededByAssignmentId.getD "" ≠ old.supersededByAssignmentId.getD "") ∧
      ¬ ∃ e ∈ db.events, some e.eventId = new.currentTransitionEventId ∧ some e.assignmentId = old.assignmentId ∧
        e.predecessorEventId = old.currentTransitionEventId ∧ e.fromState = old.currentState ∧
        new.currentState = some e.toState ∧
        (new.supersededByAssignmentId = old.supersededByAssignmentId ∨ e.transitionTypeId = "SUPERSEDE" ∧
          (equals new.supersededByAssignmentId e.targetAssignmentId).Holds))
    (.raised "PROJECTION_REQUIRES_BOUND_TRANSITION")

/-- What `transition_apply_after_insert` sets. -/
def Projection.apply (p : Projection) (e : Event) : Projection where
  currentState := e.toState
  currentTransitionEventId := some e.eventId
  prePauseState :=
    if contextActionOf e.transitionTypeId = some .setPause then some e.fromState
    else if contextActionOf e.transitionTypeId = some .recoverInterrupt ∧
      p.preInterruptState = some .pausedUsageExhausted then p.nestedPauseState
    else none
  preInterruptState :=
    if contextActionOf e.transitionTypeId = some .setInterrupt then some e.fromState
    else if contextActionOf e.transitionTypeId = some .setInterruptFromPause then some .pausedUsageExhausted
    else none
  nestedPauseState :=
    if contextActionOf e.transitionTypeId = some .setInterruptFromPause then p.prePauseState else none
  supersededByAssignmentId :=
    if e.transitionTypeId = "SUPERSEDE" then e.targetAssignmentId else p.supersededByAssignmentId

/-- The assignment that an event is projected onto. -/
def Assignment.apply (a : Assignment) (e : Event) : Assignment := { a with toProjection := a.toProjection.apply e }

/-! ### Row operations -/

/-- A violated constraint skips the row under `OR IGNORE`, and raises otherwise. -/
def violated (policy : Conflict) (error : SqlError) : Sqlite PUnit :=
  if policy = .ignore then pure ⟨⟩ else throw error

/-- Put a row where a row was. -/
def storeAssignment (rowid : ℤ) (row : Assignment) : Sqlite PUnit :=
  modify fun db => { db with assignments := db.assignments.map fun a => if a.rowid = rowid then row else a }

/-- `ON DELETE SET NULL` of `superseded_by_assignment_id`: an `UPDATE`, whose triggers fire. -/
def setSupersededByNull (old : Assignment) : Sqlite PUnit := do
  let new := { old.toNew with supersededByAssignmentId := none }
  assignmentProjectionGuardBeforeUpdate old new
  match new.row .abort old.rowid with
  | none => throw .notNull
  | some row => do
    refuseIf (¬ row.Checks) .check
    storeAssignment old.rowid row

/-- Delete an assignment, which the events and receipts that name it restrict. -/
def deleteAssignment (a : Assignment) : Sqlite PUnit := do
  modify fun db => { db with assignments := db.assignments.filter fun b => b.rowid ≠ a.rowid }
  let db ← get
  refuseIf (∃ e ∈ db.events, some e.assignmentId = a.assignmentId ∨
      (equals e.targetAssignmentId a.assignmentId).Holds) .foreignKey
  refuseIf (∃ r ∈ db.receipts, some r.assignmentId = a.assignmentId) .foreignKey
  (db.assignments.filter fun b => (equals b.supersededByAssignmentId a.assignmentId).Holds).forM setSupersededByNull

/-- The rows of `assignments` with a key of the row. -/
def Database.assignmentConflicts (db : Database) (row : Assignment) : List Assignment :=
  db.assignments.filter fun a => a.rowid = row.rowid ∨ (equals a.assignmentId row.assignmentId).Holds

/-- One row of an `INSERT INTO assignments`. -/
def insertAssignment (policy : Conflict) (rowid : Option ℤ) (new : NewAssignment) : Sqlite PUnit := do
  let db ← get
  let rowid := rowid.getD ((db.assignments.map (·.rowid)).max?.elim 1 (· + 1))
  match new.row policy rowid with
  | none => violated policy .notNull
  | some row =>
    if ¬ row.Checks then violated policy .check
    else
      let conflicts := db.assignmentConflicts row
      if conflicts ≠ [] ∧ policy ≠ .replace then violated policy .unique
      else do
        conflicts.forM deleteAssignment
        modify fun db => { db with assignments := db.assignments ++ [row] }

/-- One row of an `UPDATE assignments`. -/
def updateAssignment (policy : Conflict) (old : Assignment) (rowid : ℤ) (new : NewAssignment) : Sqlite PUnit := do
  assignmentProjectionGuardBeforeUpdate old new
  match new.row policy rowid with
  | none => violated policy .notNull
  | some row =>
    if ¬ row.Checks then violated policy .check
    else do
      let db ← get
      let conflicts := (db.assignmentConflicts row).filter fun a => a.rowid ≠ old.rowid
      if conflicts ≠ [] ∧ policy ≠ .replace then violated policy .unique
      else do
        conflicts.forM deleteAssignment
        storeAssignment old.rowid row

/-- `transition_apply_after_insert`. -/
def transitionApplyAfterInsert (policy : Conflict) (e : Event) : Sqlite PUnit := do
  let db ← get
  match db.select (some e.assignmentId) with
  | none => pure ⟨⟩
  | some a => updateAssignment policy a a.rowid (a.apply e).toNew

/-- Delete an event, which the assignment it is current for and the event after it restrict. -/
def deleteEvent (e : Event) : Sqlite PUnit := do
  modify fun db => { db with events := db.events.filter fun p => p.eventId ≠ e.eventId }
  let db ← get
  refuseIf (∃ a ∈ db.assignments, a.currentTransitionEventId = some e.eventId) .foreignKey
  refuseIf (∃ p ∈ db.events, p.predecessorEventId = some e.eventId) .foreignKey

/-- The rows of `transition_events` with a key of the row. -/
def Database.eventConflicts (db : Database) (row : Event) : List Event :=
  db.events.filter fun e => e.eventId = row.eventId ∨
    e.assignmentId = row.assignmentId ∧ e.operationId = row.operationId

/-- The largest rowid. -/
def maxRowid : ℤ := 9223372036854775807

/-- The event id that is given, or the one after all that `sqlite_sequence` has seen. -/
def allocateEventId (given : Option ℤ) : Sqlite ℤ := do
  let db ← get
  let next := db.events.foldl (fun n e => max n e.eventId) db.eventSequence + 1
  refuseIf (given = none ∧ maxRowid < next) .full
  let eventId := given.getD next
  set { db with eventSequence := max db.eventSequence eventId }
  return eventId

/-- One row of an `INSERT INTO transition_events`; its `lastrowid`, where it was not skipped. -/
def insertEvent (policy : Conflict) (new : NewEvent) : Sqlite (Option ℤ) := do
  transitionEventValidateBeforeInsert new
  let eventId ← allocateEventId new.eventId
  match new.row eventId with
  | none => do
    violated policy .notNull
    return none
  | some row =>
    if ¬ row.Checks then do
      violated policy .check
      return none
    else do
      let db ← get
      let conflicts := db.eventConflicts row
      if conflicts ≠ [] ∧ policy ≠ .replace then do
        violated policy .unique
        return none
      else do
        conflicts.forM deleteEvent
        modify fun db => { db with events := db.events ++ [row] }
        transitionApplyAfterInsert policy row
        return some eventId

/-- One row of an `UPDATE transition_events`, which no trigger guards. -/
def updateEvent (policy : Conflict) (old : Event) (new : NewEvent) : Sqlite PUnit := do
  match new.eventId with
  | none => throw .mismatch
  | some eventId =>
    match new.row eventId with
    | none => violated policy .notNull
    | some row =>
      if ¬ row.Checks then violated policy .check
      else do
        let db ← get
        let conflicts := (db.eventConflicts row).filter fun e => e.eventId ≠ old.eventId
        if conflicts ≠ [] ∧ policy ≠ .replace then violated policy .unique
        else do
          conflicts.forM deleteEvent
          modify fun db => { db with events := db.events.map fun e => if e.eventId = old.eventId then row else e }

/-! ### Statements -/

/-- What a statement does with one row. A row that is updated or deleted is named by
its rowid. -/
inductive RowOperation where
  | insertAssignment (policy : Conflict) (rowid : Option ℤ) (new : NewAssignment)
  | updateAssignment (policy : Conflict) (rowid rowid' : ℤ) (new : NewAssignment)
  | deleteAssignment (rowid : ℤ)
  | insertEvent (policy : Conflict) (new : NewEvent)
  | updateEvent (policy : Conflict) (eventId : ℤ) (new : NewEvent)
  | deleteEvent (eventId : ℤ)
  deriving DecidableEq, Repr

/-- A row operation. One on a row that is not there does nothing. -/
def RowOperation.run : RowOperation → Sqlite PUnit
  | .insertAssignment policy rowid new => Ledger.insertAssignment policy rowid new
  | .updateAssignment policy rowid rowid' new => do
    match (← get).assignments.find? (·.rowid = rowid) with
    | none => pure ⟨⟩
    | some old => Ledger.updateAssignment policy old rowid' new
  | .deleteAssignment rowid => do
    match (← get).assignments.find? (·.rowid = rowid) with
    | none => pure ⟨⟩
    | some a => Ledger.deleteAssignment a
  | .insertEvent policy new => do
    let _ ← Ledger.insertEvent policy new
  | .updateEvent policy eventId new => do
    match (← get).events.find? (·.eventId = eventId) with
    | none => pure ⟨⟩
    | some old => Ledger.updateEvent policy old new
  | .deleteEvent eventId => do
    match (← get).events.find? (·.eventId = eventId) with
    | none => pure ⟨⟩
    | some e => Ledger.deleteEvent e

/-- Every foreign key is met. -/
def Database.ForeignKeys (db : Database) : Prop :=
  (∀ a ∈ db.assignments,
    (a.currentTransitionEventId = none ∨ ∃ e ∈ db.events, some e.eventId = a.currentTransitionEventId) ∧
    (a.supersededByAssignmentId = none ∨ ∃ b ∈ db.assignments, (equals b.assignmentId a.supersededByAssignmentId).Holds)) ∧
  (∀ e ∈ db.events,
    (∃ a ∈ db.assignments, a.assignmentId = some e.assignmentId) ∧ (ruleOf e.transitionTypeId).isSome ∧
    (e.predecessorEventId = none ∨ ∃ p ∈ db.events, some p.eventId = e.predecessorEventId) ∧
    (e.targetAssignmentId = none ∨ ∃ a ∈ db.assignments, (equals a.assignmentId e.targetAssignmentId).Holds)) ∧
  ∀ r ∈ db.receipts, ∃ a ∈ db.assignments, a.assignmentId = some r.assignmentId

instance (db : Database) : Decidable db.ForeignKeys := inferInstanceAs (Decidable (_ ∧ _))

/-- A statement: its row operations, all or none, and the foreign keys at its end. -/
def statement {α : Type} (operations : Sqlite α) : Sqlite α := transaction do
  let result ← operations
  refuseIf (¬ (← get).ForeignKeys) .foreignKey
  return result

/-- A statement on `assignments` or `transition_events`, run by `execute_direct`. -/
def execute (operations : List RowOperation) : Sqlite PUnit := statement (operations.forM RowOperation.run)

/-- The schema accepts the statement. -/
def Accepts (db : Database) (operations : List RowOperation) (db' : Database) : Prop :=
  (execute operations).run db = .ok ⟨⟩ db'

end CcbCore.Ledger
