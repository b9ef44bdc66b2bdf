import CcbCore.Assignments.Functions
import CcbCore.Library.Run

/-!
# What the loops' bodies do

One lemma for each body. An observation adds to the observations, and nothing else
(`Plane.noting`). The main loop's body opens an assignment or advances one where its verdict
says so (`Plane.opened`, `Plane.advanced`); of a valid envelope and an unused sequence no
statement raises, but that a message may be the source of one assignment only (`visit_cases`).
-/

namespace CcbCore.Assignments

open CcbCore.Postgres CcbCore.Raising CcbCore.Sql
open CcbCore.Projection (MessageRow ReconciliationEvent SqlError Timestamptz)

variable {server : Server} {now : ℤ} {db db' : Plane} {m : Message}

/-! ### Observations -/

/-- The tables after `observeOnce`. -/
def Plane.noting (db : Plane) (now : ℤ) (m : Message) (code repairClass : String) (fields : List (String × Jsonb)) : Plane :=
  if observed db.reconciliationEvents code m.messageId = true then db
  else { db with reconciliationEvents := db.reconciliationEvents ++ [observation now m code repairClass fields] }

/-- How many observations `observeOnce` inserts. -/
def Plane.noted (db : Plane) (code messageId : String) : ℕ := if observed db.reconciliationEvents code messageId = true then 0 else 1

theorem run_observeOnce (code repairClass : String) (fields : List (String × Jsonb)) :
    (observeOnce now m code repairClass fields).run db =
      .ok (db.noted code m.messageId) (db.noting now m code repairClass fields) := by
  unfold observeOnce Plane.noted Plane.noting
  rw [run_get_bind]
  split <;> rfl

theorem observed_append {observations : List ReconciliationEvent} {event : ReconciliationEvent} {code messageId : String} :
    observed (observations ++ [event]) code messageId = (observed observations code messageId ||
      decide (event.code = code ∧ (equals (event.detail.getText "message_id") (some messageId)).Holds)) := by
  simp [observed]

theorem observation_message (code repairClass : String) (fields : List (String × Jsonb)) :
    (observation now m code repairClass fields).detail.getText "message_id" = some m.messageId := by
  simp [observation, Jsonb.getText]

/-- An observation is there once it is made. -/
theorem observed_noting (code repairClass : String) (fields : List (String × Jsonb)) :
    observed (db.noting now m code repairClass fields).reconciliationEvents code m.messageId = true := by
  unfold Plane.noting
  split
  · assumption
  · rw [observed_append, observation_message]
    simp [observation]

/-- What was observed stays so, and nothing is observed but what is noted. -/
theorem observed_noting_iff {code repairClass : String} {fields : List (String × Jsonb)} {code' messageId : String} :
    observed (db.noting now m code repairClass fields).reconciliationEvents code' messageId = true ↔
      observed db.reconciliationEvents code' messageId = true ∨ (code' = code ∧ messageId = m.messageId) := by
  unfold Plane.noting
  split
  · next hobserved =>
    refine ⟨.inl, ?_⟩
    rintro (h | ⟨rfl, rfl⟩)
    · exact h
    · exact hobserved
  · rw [observed_append, observation_message, Bool.or_eq_true, decide_eq_true_iff, equals_some_holds]
    exact or_congr_right (and_congr eq_comm eq_comm)

theorem Plane.noting_eq (now : ℤ) (m : Message) (code repairClass : String) (fields : List (String × Jsonb)) :
    db.noting now m code repairClass fields =
      { db with reconciliationEvents := (db.noting now m code repairClass fields).reconciliationEvents } := by
  unfold Plane.noting
  split <;> rfl

/-! ### Events -/

theorem eventOf_isSome {assignmentId operationId : String} : (db.eventOf assignmentId operationId).isSome = true ↔
    ∃ event ∈ db.assignmentEvents, event.assignmentId = assignmentId ∧ event.operationId = operationId := by
  simp [Plane.eventOf, List.find?_isSome]

theorem eventOf_mem {assignmentId operationId : String} {event : EventRow} (h : db.eventOf assignmentId operationId = some event) :
    event ∈ db.assignmentEvents ∧ event.assignmentId = assignmentId ∧ event.operationId = operationId := by
  refine ⟨List.mem_of_find?_eq_some h, ?_⟩
  simpa using List.find?_some h

/-- The sequence is ahead of the events. -/
def Plane.Numbered (db : Plane) : Prop := ∀ event ∈ db.assignmentEvents, event.eventId < db.nextEventId

theorem Plane.numbered_of_nil (h : db.assignmentEvents = []) : db.Numbered := by
  rw [Plane.Numbered, h]
  exact List.forall_mem_nil _

/-! ### Opening and advancing -/

/-- The tables after the root of an assignment. -/
def Plane.opened (db : Plane) (server : Server) (m : Message) (state : AssignmentState) : Plane where
  identities := db.identities
  messages := db.messages
  assignments := db.assignments.insert (envelope server m.payload).assignmentId
    ((rootRow server m).moved state db.nextEventId m.createdAt)
  assignmentEvents := db.assignmentEvents ++ [rootEvent server m db.nextEventId]
  nextEventId := db.nextEventId + 1
  reconciliationEvents := db.reconciliationEvents

/-- The tables after a successor. -/
def Plane.advanced (db : Plane) (server : Server) (m : Message) (row : AssignmentRow) (predecessorEventId : ℤ)
    (state : AssignmentState) : Plane where
  identities := db.identities
  messages := db.messages
  assignments := db.assignments.insert (envelope server m.payload).assignmentId (row.moved state db.nextEventId m.createdAt)
  assignmentEvents := db.assignmentEvents ++ [successorEvent server row predecessorEventId m db.nextEventId]
  nextEventId := db.nextEventId + 1
  reconciliationEvents := db.reconciliationEvents

/-- The message is the source of an assignment. -/
def Plane.Sourced (db : Plane) (messageId : String) : Prop :=
  ∃ id row, db.assignments.lookup id = some row ∧ row.sourceMessageId = some messageId

/-- What an insert raises whose source is another assignment's. -/
def sourceViolation : SqlError := .violation "radar_assignments_source_message_unique_idx"

theorem run_insertEvent {row : ℤ → EventRow} (hnumbered : db.Numbered) (hid : (row db.nextEventId).eventId = db.nextEventId)
    (hnew : (db.eventOf (row db.nextEventId).assignmentId (row db.nextEventId).operationId).isSome = false)
    (hknown : (db.assignments.lookup (row db.nextEventId).assignmentId).isSome = true)
    (hpredecessor : ∀ id ∈ (row db.nextEventId).predecessorEventId, ∃ event ∈ db.assignmentEvents, event.eventId = id) :
    (insertEvent row).run db = .ok db.nextEventId
      { db with assignmentEvents := db.assignmentEvents ++ [row db.nextEventId], nextEventId := db.nextEventId + 1 } := by
  have hfree : ¬ (db.assignmentEvents.any fun other => other.eventId = (row db.nextEventId).eventId) = true := by
    rw [hid]
    simp only [List.any_eq_true, decide_eq_true_eq, not_exists, not_and]
    exact fun event hmem heq => (hnumbered event hmem).ne heq
  have hassignment : ¬ db.assignments.lookup (row db.nextEventId).assignmentId = none := by
    rw [← Option.isNone_iff_eq_none, ← Option.not_isSome, hknown]
    simp
  have hreferred : ¬ ∃ id ∈ (row db.nextEventId).predecessorEventId,
      (db.assignmentEvents.all fun other => other.eventId ≠ id) = true := by
    rintro ⟨id, hid, hnone⟩
    obtain ⟨event, hmem, rfl⟩ := hpredecessor id hid
    simpa using List.all_eq_true.mp hnone event hmem
  unfold insertEvent
  rw [run_get_bind, run_refuseIf_bind]
  refine ⟨hfree, ?_⟩
  rw [run_refuseIf_bind, hnew, run_refuseIf_bind, run_refuseIf_bind]
  exact ⟨Bool.false_ne_true, hassignment, hreferred, rfl⟩

theorem run_updateAssignment {assignmentId : String} {state : AssignmentState} {eventId : ℤ} {createdAt : Timestamptz}
    (hevent : ∃ event ∈ db.assignmentEvents, event.eventId = eventId) :
    (updateAssignment assignmentId state.text eventId createdAt).run db = .ok ⟨⟩
      { db with assignments := Table.modify db.assignments assignmentId fun row => row.moved state eventId createdAt } := by
  have hthere : ¬ (db.assignmentEvents.all fun event => event.eventId ≠ eventId) = true := by
    obtain ⟨event, hmem, rfl⟩ := hevent
    intro hnone
    simpa using List.all_eq_true.mp hnone event hmem
  unfold updateAssignment
  rw [run_get_bind, run_required_bind]
  refine ⟨state, AssignmentState.ofText?_eq_some.mpr rfl, ?_⟩
  rw [run_refuseIf_bind]
  exact ⟨hthere, rfl⟩

/-- A root is refused if its message is the source of an assignment, and else opens one. -/
theorem run_insertAssignment {assignmentId : String} {row : AssignmentRow} (hnew : db.assignments.lookup assignmentId = none)
    (hidentity : ∀ id ∈ row.assigneeIdentityId, id ∈ db.identities)
    (hmessage : ∀ id ∈ row.sourceMessageId, db.messages.lookup id ≠ none)
    (hfree : ∀ id ∈ row.sourceMessageId, ¬ db.Sourced id) :
    (insertAssignment assignmentId row).run db = .ok ⟨⟩ { db with assignments := db.assignments.insert assignmentId row } := by
  have hunique : ¬ (row.sourceMessageId ≠ none ∧
      Table.any db.assignments (fun _ other => other.sourceMessageId = row.sourceMessageId) = true) := by
    rintro ⟨hsome, hany⟩
    obtain ⟨id, hid⟩ := Option.ne_none_iff_exists'.mp hsome
    obtain ⟨other, otherRow, hother, heq⟩ := Table.any_iff.mp hany
    exact hfree id hid ⟨other, otherRow, hother, (of_decide_eq_true heq).trans hid⟩
  unfold insertAssignment
  rw [run_get_bind, run_required_bind]
  refine ⟨_, Table.insertRow_eq_some.mpr ⟨hnew, rfl⟩, ?_⟩
  rw [run_refuseIf_bind, run_refuseIf_bind, run_refuseIf_bind]
  refine ⟨hunique, ?_, ?_, rfl⟩
  · rintro ⟨id, hid, hnot⟩
    exact hnot (hidentity id hid)
  · rintro ⟨id, hid, hnone⟩
    exact hmessage id hid hnone

theorem run_insertAssignment_sourced {assignmentId : String} {row : AssignmentRow} {messageId : String}
    (hnew : db.assignments.lookup assignmentId = none) (hsource : row.sourceMessageId = some messageId)
    (hsourced : db.Sourced messageId) : (insertAssignment assignmentId row).run db = .error sourceViolation db := by
  have hunique : row.sourceMessageId ≠ none ∧
      Table.any db.assignments (fun _ other => other.sourceMessageId = row.sourceMessageId) = true := by
    obtain ⟨other, otherRow, hother, heq⟩ := hsourced
    refine ⟨by rw [hsource]; nofun, Table.any_iff.mpr ⟨other, otherRow, hother, ?_⟩⟩
    rw [heq, hsource]
    simp
  unfold insertAssignment
  rw [run_get_bind, Table.insertRow, hnew]
  simp only [required, refuseIf]
  rw [if_pos hunique]
  rfl

/-! ### Verdicts -/

/-- The message has its event. -/
def Plane.Applied (db : Plane) (server : Server) (m : Message) : Prop :=
  (db.eventOf (envelope server m.payload).assignmentId m.messageId).isSome = true

/-- The message is the root of an unknown assignment, or names the current event of an
assignment with its bindings. -/
inductive Plane.Ready (db : Plane) (server : Server) (m : Message) : Prop where
  | root : (envelope server m.payload).event = "ASSIGNED" →
      db.assignments.lookup (envelope server m.payload).assignmentId = none → db.Ready server m
  | successor {row : AssignmentRow} {predecessor : EventRow} : (envelope server m.payload).event ≠ "ASSIGNED" →
      db.assignments.lookup (envelope server m.payload).assignmentId = some row →
      row.binding = (envelope server m.payload).binding →
      db.eventOf (envelope server m.payload).assignmentId (envelope server m.payload).predecessorMessage = some predecessor →
      row.currentEventId = some predecessor.eventId → db.Ready server m

/-- The bindings that the main loop compares. -/
theorem binding_eq_iff {row : AssignmentRow} {e : Envelope} : row.binding = e.binding ↔
    ¬ (row.workflowId ≠ e.workflowId ∨ row.assigneeIdentityId ≠ some e.assignee ∨
      row.protectedAuthority ≠ e.isProtected ∨ row.authorityRef ≠ e.authorityRef) := by
  simp [AssignmentRow.binding, Envelope.binding]

theorem verdict_cases (db : Plane) (server : Server) (m : Message) :
    (db.verdict server m = .skip ∧ (db.Applied server m ∨ ¬ db.Ready server m)) ∨
    (∃ fields, db.verdict server m = .conflict fields ∧ ¬ db.Applied server m ∧ ¬ db.Ready server m) ∨
    (db.verdict server m = .root ∧ ¬ db.Applied server m ∧ (envelope server m.payload).event = "ASSIGNED" ∧
      db.assignments.lookup (envelope server m.payload).assignmentId = none) ∨
    ∃ row predecessor, db.verdict server m = .successor row predecessor.eventId ∧ ¬ db.Applied server m ∧
      (envelope server m.payload).event ≠ "ASSIGNED" ∧
      db.assignments.lookup (envelope server m.payload).assignmentId = some row ∧
      row.binding = (envelope server m.payload).binding ∧
      db.eventOf (envelope server m.payload).assignmentId (envelope server m.payload).predecessorMessage = some predecessor ∧
      row.currentEventId = some predecessor.eventId := by
  unfold Plane.verdict
  dsimp only
  split
  · next happlied => exact .inl ⟨rfl, .inl happlied⟩
  next happlied =>
  split
  · next hroot =>
    cases hrow : db.assignments.lookup (envelope server m.payload).assignmentId with
    | some row =>
      refine .inr (.inl ⟨_, rfl, happlied, ?_⟩)
      rintro (⟨-, hnone⟩ | ⟨hnot, -⟩)
      · rw [hrow] at hnone
        cases hnone
      · exact hnot hroot
    | none => exact .inr (.inr (.inl ⟨rfl, happlied, hroot, rfl⟩))
  next hroot =>
  cases hrow : db.assignments.lookup (envelope server m.payload).assignmentId with
  | none =>
    refine .inl ⟨rfl, .inr ?_⟩
    rintro (⟨hassigned, -⟩ | ⟨-, hsome, -⟩)
    · exact hroot hassigned
    · rw [hrow] at hsome
      cases hsome
  | some row =>
    dsimp only
    split
    · next hdiffers =>
      refine .inr (.inl ⟨_, rfl, happlied, ?_⟩)
      rintro (⟨hassigned, -⟩ | ⟨-, hsome, hbinding, -⟩)
      · exact hroot hassigned
      · obtain rfl := Option.some.inj (hrow.symm.trans hsome)
        exact binding_eq_iff.mp hbinding hdiffers
    next hsame =>
    have hbinding : row.binding = (envelope server m.payload).binding := binding_eq_iff.mpr hsame
    cases hpredecessor : db.eventOf (envelope server m.payload).assignmentId (envelope server m.payload).predecessorMessage with
    | none =>
      refine .inl ⟨rfl, .inr ?_⟩
      rintro (⟨hassigned, -⟩ | ⟨-, -, -, hsome, -⟩)
      · exact hroot hassigned
      · rw [hpredecessor] at hsome
        cases hsome
    | some predecessor =>
      dsimp only
      split
      · next hstale =>
        refine .inr (.inl ⟨_, rfl, happlied, ?_⟩)
        rintro (⟨hassigned, -⟩ | ⟨-, hsome, -, hnamed, hcurrent⟩)
        · exact hroot hassigned
        · obtain rfl := Option.some.inj (hrow.symm.trans hsome)
          obtain rfl := Option.some.inj (hpredecessor.symm.trans hnamed)
          exact hstale hcurrent
      · next hcurrent =>
        exact .inr (.inr (.inr ⟨row, predecessor, rfl, happlied, hroot, rfl, hbinding, rfl, not_not.mp hcurrent⟩))

/-! ### The main loop's body -/

/-- What a message that is applied does to the tables. -/
inductive Applies (server : Server) (db : Plane) (m : Message) : Plane → Prop where
  | root {state : AssignmentState} : ¬ db.Applied server m → (envelope server m.payload).event = "ASSIGNED" →
      state.text = (envelope server m.payload).state →
      db.assignments.lookup (envelope server m.payload).assignmentId = none → Applies server db m (db.opened server m state)
  | successor {row : AssignmentRow} {predecessor : EventRow} {state : AssignmentState} : ¬ db.Applied server m →
      (envelope server m.payload).event ≠ "ASSIGNED" → state.text = (envelope server m.payload).state →
      db.assignments.lookup (envelope server m.payload).assignmentId = some row →
      row.binding = (envelope server m.payload).binding →
      db.eventOf (envelope server m.payload).assignmentId (envelope server m.payload).predecessorMessage = some predecessor →
      row.currentEventId = some predecessor.eventId →
      Applies server db m (db.advanced server m row predecessor.eventId state)

/-- A message of which something holds is put on record, once, and nothing else is. -/
structure Notes (code : String) (holds : Prop) (db : Plane) (m : Message) (inserted : ℕ) (events : List ReconciliationEvent) :
    Prop where
  there : holds → observed events code m.messageId = true
  only (code' messageId : String) : observed events code' messageId = true ↔
    observed db.reconciliationEvents code' messageId = true ∨ (inserted ≠ 0 ∧ holds ∧ code' = code ∧ messageId = m.messageId)
  still : (holds → observed db.reconciliationEvents code m.messageId = true) → inserted = 0 ∧ events = db.reconciliationEvents

theorem notes_nothing {code : String} {holds : Prop} (h : ¬ holds) : Notes code holds db m 0 db.reconciliationEvents :=
  ⟨fun hyes => absurd hyes h, fun code' messageId => by simp, fun _ => ⟨rfl, rfl⟩⟩

theorem notes_noting {code : String} {holds : Prop} (h : holds) (now : ℤ) (repairClass : String) (fields : List (String × Jsonb)) :
    Notes code holds db m (db.noted code m.messageId) (db.noting now m code repairClass fields).reconciliationEvents := by
  refine ⟨fun _ => observed_noting _ _ _, fun code' messageId => ?_, fun hthere => ?_⟩
  · rw [observed_noting_iff, Plane.noted]
    split
    · next hthere =>
      simp only [ne_eq, not_true_eq_false, false_and, or_false, or_iff_left_iff_imp]
      rintro ⟨rfl, rfl⟩
      exact hthere
    · simp [h]
  · rw [Plane.noted, Plane.noting, hthere h]
    exact ⟨rfl, rfl⟩

/-- The verdict is a conflict. -/
def Plane.Conflicts (db : Plane) (server : Server) (m : Message) : Prop := ∃ fields, db.verdict server m = .conflict fields

/-- The parts of validity that the statements need. -/
theorem valid_parts {e : Envelope} {identities : Finset String} (h : ¬ e.Invalid identities) :
    e.assignmentId ≠ "" ∧ (∃ state, AssignmentState.ofText? e.state = some state) ∧ e.event = e.state ∧
      (e.event = "ASSIGNED" ↔ e.predecessorMessage = "") ∧ e.assignee ∈ identities := by
  simp only [Envelope.Invalid, not_or, not_and, not_not] at h
  obtain ⟨hid, -, -, -, -, -, hstate, hevent, hroot, hsuccessor, -, hassignee⟩ := h
  refine ⟨hid, Option.ne_none_iff_exists'.mp hstate, hevent, ⟨hroot, fun hnone => ?_⟩, hassignee⟩
  by_contra hnot
  exact hsuccessor hnot hnone

theorem run_visit_root {locals : Locals} {state : AssignmentState} (hnumbered : db.Numbered) (hm : m ∈ db.records)
    (hvalid : ¬ (envelope server m.payload).Invalid db.identities) (hverdict : db.verdict server m = .root)
    (happlied : ¬ db.Applied server m) (hstate : state.text = (envelope server m.payload).state)
    (hnew : db.assignments.lookup (envelope server m.payload).assignmentId = none) (hfree : ¬ db.Sourced m.messageId) :
    (visit server now locals m).run db = .ok { progress := true, counts := { locals.counts with
      assignmentsInserted := locals.counts.assignmentsInserted + 1
      eventsInserted := locals.counts.eventsInserted + 1 } } (db.opened server m state) := by
  obtain ⟨-, -, -, -, hassignee⟩ := valid_parts hvalid
  have hassignment : (insertAssignment (envelope server m.payload).assignmentId (rootRow server m)).run db = .ok ⟨⟩
      { db with assignments := db.assignments.insert (envelope server m.payload).assignmentId (rootRow server m) } := by
    refine run_insertAssignment hnew ?_ ?_ ?_
    · rintro _ ⟨⟩
      exact hassignee
    · rintro _ ⟨⟩
      rw [db.mem_records.mp hm]
      nofun
    · rintro _ ⟨⟩
      exact hfree
  have hevent : (insertEvent (rootEvent server m)).run
      { db with assignments := db.assignments.insert (envelope server m.payload).assignmentId (rootRow server m) } =
      .ok db.nextEventId { db with
        assignments := db.assignments.insert (envelope server m.payload).assignmentId (rootRow server m)
        assignmentEvents := db.assignmentEvents ++ [rootEvent server m db.nextEventId]
        nextEventId := db.nextEventId + 1 } := by
    refine run_insertEvent hnumbered rfl (Bool.not_eq_true _ ▸ happlied) ?_ nofun
    dsimp only [rootEvent]
    rw [AList.lookup_insert]
    rfl
  unfold visit
  rw [run_get_bind, hverdict]
  refine run_bind_ok.mpr ⟨_, _, hassignment, run_bind_ok.mpr ⟨_, _, hevent, run_bind_ok.mpr ⟨⟨⟩, _, ?_, run_pure_ok.mpr ⟨rfl, rfl⟩⟩⟩⟩
  rw [← hstate]
  refine (run_updateAssignment ⟨rootEvent server m db.nextEventId, List.mem_append_right _ (List.mem_singleton_self _), rfl⟩).trans ?_
  dsimp only
  rw [Table.modify_of_some (AList.lookup_insert _), AList.insert_insert]
  rfl

theorem run_visit_sourced {locals : Locals} (hverdict : db.verdict server m = .root)
    (hnew : db.assignments.lookup (envelope server m.payload).assignmentId = none) (hsourced : db.Sourced m.messageId) :
    (visit server now locals m).run db = .error sourceViolation db := by
  unfold visit
  rw [run_get_bind, hverdict]
  exact run_bind_error.mpr (.inl (run_insertAssignment_sourced hnew rfl hsourced))

theorem run_visit_successor {locals : Locals} {row : AssignmentRow} {predecessor : EventRow} {state : AssignmentState}
    (hnumbered : db.Numbered) (hverdict : db.verdict server m = .successor row predecessor.eventId)
    (happlied : ¬ db.Applied server m) (hstate : state.text = (envelope server m.payload).state)
    (hrow : db.assignments.lookup (envelope server m.payload).assignmentId = some row)
    (hpredecessor : db.eventOf (envelope server m.payload).assignmentId (envelope server m.payload).predecessorMessage =
      some predecessor) :
    (visit server now locals m).run db = .ok { progress := true, counts := { locals.counts with
      eventsInserted := locals.counts.eventsInserted + 1 } } (db.advanced server m row predecessor.eventId state) := by
  have hnone : (db.eventOf (envelope server m.payload).assignmentId m.messageId).isSome = false := Bool.not_eq_true _ ▸ happlied
  have hevent : (insertEvent (successorEvent server row predecessor.eventId m)).run db = .ok db.nextEventId { db with
      assignmentEvents := db.assignmentEvents ++ [successorEvent server row predecessor.eventId m db.nextEventId]
      nextEventId := db.nextEventId + 1 } := by
    refine run_insertEvent hnumbered rfl hnone ?_ ?_
    · dsimp only [successorEvent]
      rw [hrow]
      rfl
    · rintro _ ⟨⟩
      exact ⟨predecessor, (eventOf_mem hpredecessor).1, rfl⟩
  have hinserted : (insertEventUnlessConflict (successorEvent server row predecessor.eventId m)).run db =
      .ok (some db.nextEventId) { db with
        assignmentEvents := db.assignmentEvents ++ [successorEvent server row predecessor.eventId m db.nextEventId]
        nextEventId := db.nextEventId + 1 } := by
    unfold insertEventUnlessConflict
    rw [run_get_bind]
    dsimp only [successorEvent]
    rw [hnone]
    exact run_map_ok.mpr ⟨_, hevent, rfl⟩
  unfold visit
  rw [run_get_bind, hverdict]
  refine run_bind_ok.mpr ⟨_, _, hinserted, run_bind_ok.mpr ⟨⟨⟩, _, ?_, run_pure_ok.mpr ⟨rfl, rfl⟩⟩⟩
  rw [← hstate]
  refine (run_updateAssignment ⟨successorEvent server row predecessor.eventId m db.nextEventId,
    List.mem_append_right _ (List.mem_singleton_self _), rfl⟩).trans ?_
  dsimp only
  rw [Table.modify_of_some hrow]
  rfl

/-- **A valid message is passed over, which may be put on record; or it is applied; or its id is
the source of an assignment.** -/
theorem visit_cases (server : Server) (now : ℤ) (locals : Locals) (hnumbered : db.Numbered) (hm : m ∈ db.records)
    (hvalid : ¬ (envelope server m.payload).Invalid db.identities) :
    (∃ inserted events, (db.Applied server m ∨ ¬ db.Ready server m) ∧
      (visit server now locals m).run db =
        .ok { locals with counts := { locals.counts with
          conflictObservationsInserted := locals.counts.conflictObservationsInserted + inserted } }
          { db with reconciliationEvents := events } ∧
      Notes "ASSIGNMENT_EVENT_CONFLICT" (db.Conflicts server m) db m inserted events) ∨
    (∃ counts db', (visit server now locals m).run db = .ok { progress := true, counts } db' ∧ Applies server db m db') ∨
    ((visit server now locals m).run db = .error sourceViolation db ∧ db.Sourced m.messageId ∧
      db.assignments.lookup (envelope server m.payload).assignmentId = none) := by
  obtain ⟨-, ⟨state, hofText⟩, -⟩ := valid_parts hvalid
  have hstate := AssignmentState.ofText?_eq_some.mp hofText
  rcases verdict_cases db server m with ⟨hverdict, hpassed⟩ | ⟨fields, hverdict, -, hready⟩ |
    ⟨hverdict, happlied, hroot, hnew⟩ | ⟨row, predecessor, hverdict, happlied, hroot, hrow, hbinding, hpredecessor, hcurrent⟩
  · refine .inl ⟨0, db.reconciliationEvents, hpassed, ?_, notes_nothing ?_⟩
    · unfold visit
      rw [run_get_bind, hverdict]
      rfl
    · rintro ⟨fields, hfields⟩
      rw [hverdict] at hfields
      cases hfields
  · refine .inl ⟨_, _, .inr hready, ?_, notes_noting ⟨fields, hverdict⟩ now "AMBIGUOUS_DURABLE_CONFLICT" fields⟩
    unfold visit
    rw [run_get_bind, hverdict, ← Plane.noting_eq]
    exact run_bind_ok.mpr ⟨_, _, run_observeOnce _ _ _, rfl⟩
  · by_cases hsourced : db.Sourced m.messageId
    · exact .inr (.inr ⟨run_visit_sourced hverdict hnew hsourced, hsourced, hnew⟩)
    · exact .inr (.inl ⟨_, _, run_visit_root hnumbered hm hvalid hverdict happlied hstate hnew hsourced,
        .root happlied hroot hstate hnew⟩)
  · exact .inr (.inl ⟨_, _, run_visit_successor hnumbered hverdict happlied hstate hrow hpredecessor,
      .successor happlied hroot hstate hrow hbinding hpredecessor hcurrent⟩)

/-! ### The bodies of the other loops -/

theorem run_checkEnvelope (server : Server) (now : ℤ) (counts : Counts) (m : Message) : ∃ inserted events,
    (checkEnvelope server now counts m).run db = .ok
      { counts with invalidObservationsInserted := counts.invalidObservationsInserted + inserted }
      { db with reconciliationEvents := events } ∧
    Notes "ASSIGNMENT_ENVELOPE_INVALID" ((envelope server m.payload).Invalid db.identities) db m inserted events := by
  by_cases hinvalid : (envelope server m.payload).Invalid db.identities
  · refine ⟨_, _, ?_, notes_noting hinvalid now "OBSERVATION_ONLY" (envelope server m.payload).invalidFields⟩
    unfold checkEnvelope
    rw [run_get_bind, if_pos hinvalid, ← Plane.noting_eq]
    exact run_bind_ok.mpr ⟨_, _, run_observeOnce _ _ _, rfl⟩
  · refine ⟨0, _, ?_, notes_nothing hinvalid⟩
    unfold checkEnvelope
    rw [run_get_bind, if_neg hinvalid]
    rfl

theorem run_awaitPredecessor (server : Server) (now : ℤ) (counts : Counts) (m : Message) : ∃ inserted events,
    (awaitPredecessor server now counts m).run db = .ok
      { counts with pendingObservationsInserted := counts.pendingObservationsInserted + inserted }
      { db with reconciliationEvents := events } ∧
    Notes "ASSIGNMENT_EVENT_PENDING_PREDECESSOR" True db m inserted events := by
  refine ⟨_, _, ?_, notes_noting trivial now "OBSERVATION_ONLY" (envelope server m.payload).pendingFields⟩
  unfold awaitPredecessor
  rw [← Plane.noting_eq]
  exact run_bind_ok.mpr ⟨_, _, run_observeOnce _ _ _, rfl⟩

end CcbCore.Assignments
