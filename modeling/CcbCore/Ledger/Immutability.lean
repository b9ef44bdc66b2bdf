import CcbCore.Ledger.Invariant
import CcbCore.Library.Run

/-!
# What direct statements can change

A run of statements that the schema accepts, from the tables it makes. The triggers
guard the inserts of events and the updates of assignments, and the foreign keys the
deletes. What they leave open is `RowOperation.Covered`'s negation: an `UPDATE` of
`transition_events` has no trigger, nor has an `INSERT` of an assignment; the guard on
assignments does not tell the event id -1 from NULL, takes a NULL state for no change
although `OR REPLACE` then puts `DRAFTED`, and takes a NULL id for the id it had. In
a run of statements that do none of this every event stays as it was inserted, and
every assignment is at what its chain of events replays to (`ledger_intact`). Each of the
five alone can break that (`ledger_rewritten`).
-/

namespace CcbCore.Ledger

open CcbCore.Sql CcbCore.Raising

/-- The row that an `UPDATE transition_events` stores, where it stores one. -/
def Database.rewrites (db : Database) (policy : Conflict) (old : Event) (new : NewEvent) : Option Event :=
  (new.eventId.bind new.row).filter fun row =>
    row.Checks ∧ ((db.eventConflicts row).filter (fun e => e.eventId ≠ old.eventId) = [] ∨ policy = .replace)

/-- The row operation is not one of those that no trigger sees. -/
def RowOperation.Covered (db : Database) : RowOperation → Prop
  | .insertAssignment policy rowid new =>
    ∀ row ∈ db.inserts policy rowid new, row.currentState = .drafted ∧ row.currentTransitionEventId = none
  | .updateAssignment policy rowid _ new =>
    ∀ old ∈ db.assignments.find? (·.rowid = rowid), Plain old policy new ∧
      (new.assignmentId = none → ∀ e ∈ db.events, some e.assignmentId ≠ old.assignmentId)
  | .updateEvent policy eventId new =>
    ∀ old ∈ db.events.find? (·.eventId = eventId), ∀ row ∈ db.rewrites policy old new, row = old
  | .deleteAssignment _ => True
  | .insertEvent _ _ => True
  | .deleteEvent _ => True

/-- Every row operation of the statement is covered, where it comes. -/
def Covered : Database → List RowOperation → Prop
  | _, [] => True
  | db, op :: ops => op.Covered db ∧ ∀ db', op.run.run db = .ok ⟨⟩ db' → Covered db' ops

theorem updateEvent_ok {db db' : Database} (h : db.Sound) {policy : Conflict} {old : Event} {new : NewEvent}
    (hold : old ∈ db.events) (hnew : ∀ row ∈ db.rewrites policy old new, row = old)
    (hrun : (updateEvent policy old new).run db = .ok ⟨⟩ db') : db' = db := by
  rw [updateEvent] at hrun
  split at hrun
  · exact absurd hrun run_throw_ok
  · rename_i eventId hid
    split at hrun
    · exact (violated_ok.mp hrun).2
    · rename_i row hrow
      split at hrun
      · exact (violated_ok.mp hrun).2
      · rename_i hchecks
        rw [run_get_bind] at hrun
        dsimp only at hrun
        split at hrun
        · exact (violated_ok.mp hrun).2
        · rename_i hpolicy
          obtain rfl : row = old := by
            refine hnew row ?_
            rw [Database.rewrites, hid, Option.bind_some, hrow, Option.mem_def, Option.filter_some, if_pos]
            rw [not_and_or, not_not, not_not] at hpolicy
            exact decide_eq_true ⟨not_not.mp hchecks, hpolicy⟩
          obtain ⟨_, u, hdelete, hstore⟩ := run_bind_ok.mp hrun
          have hnone : (db.eventConflicts row).filter (fun e => e.eventId ≠ row.eventId) = [] :=
            forM_deleteEvent h (fun e he => List.mem_of_mem_filter (List.mem_of_mem_filter he)) hdelete
          rw [hnone] at hdelete
          obtain rfl := (run_forM_nil.mp hdelete).symm
          have hsame : db.events.map (fun e => if e.eventId = row.eventId then row else e) = db.events := by
            refine (List.map_congr_left fun e he => ?_).trans (List.map_id _)
            split
            · rename_i heq
              exact (h.of_eventId he hold heq).symm
            · rfl
          rw [run_modify_ok.mp hstore, hsame]

/-- **A covered row operation that is accepted keeps every event and every projection.** -/
theorem RowOperation.Covered.sound {db db' : Database} (h : db.Sound) {op : RowOperation} (hop : op.Covered db)
    (hrun : op.run.run db = .ok ⟨⟩ db') : db'.Sound ∧ db.events <+: db'.events := by
  cases op with
  | insertAssignment policy rowid new =>
    obtain ⟨hsound, hevents⟩ := h.insert hop hrun
    exact ⟨hsound, hevents ▸ List.prefix_refl _⟩
  | updateAssignment policy rowid rowid' new =>
    rw [RowOperation.run, run_get_bind] at hrun
    cases hfind : db.assignments.find? (·.rowid = rowid) with
    | none =>
      rw [hfind] at hrun
      obtain rfl := (run_pure_ok.mp hrun).2
      exact ⟨h, List.prefix_refl _⟩
    | some old =>
      rw [hfind] at hrun
      obtain ⟨hplain, hname⟩ := hop old hfind
      obtain ⟨hsound, hevents⟩ := h.update (List.mem_of_find?_eq_some hfind) hplain hname hrun
      exact ⟨hsound, hevents ▸ List.prefix_refl _⟩
  | deleteAssignment rowid =>
    rw [RowOperation.run, run_get_bind] at hrun
    cases hfind : db.assignments.find? (·.rowid = rowid) with
    | none =>
      rw [hfind] at hrun
      obtain rfl := (run_pure_ok.mp hrun).2
      exact ⟨h, List.prefix_refl _⟩
    | some a =>
      rw [hfind] at hrun
      obtain ⟨rfl, hevents⟩ := deleteAssignment_ok h hrun
      exact ⟨h.erase (List.mem_of_find?_eq_some hfind) hevents, List.prefix_refl _⟩
  | insertEvent policy new =>
    obtain ⟨result, u, hinsert, hreturn⟩ := run_bind_ok.mp hrun
    obtain rfl := (run_pure_ok.mp hreturn).2
    rcases insertEvent_ok h hinsert with ⟨-, hskip⟩ | ⟨a, e, -, happ⟩
    · rw [hskip]
      exact ⟨h.sequence _, List.prefix_refl _⟩
    · exact ⟨happ.sound h, happ.events ▸ List.prefix_append _ _⟩
  | updateEvent policy eventId new =>
    rw [RowOperation.run, run_get_bind] at hrun
    cases hfind : db.events.find? (·.eventId = eventId) with
    | none =>
      rw [hfind] at hrun
      obtain rfl := (run_pure_ok.mp hrun).2
      exact ⟨h, List.prefix_refl _⟩
    | some old =>
      rw [hfind] at hrun
      obtain rfl := updateEvent_ok h (List.mem_of_find?_eq_some hfind) (hop old hfind) hrun
      exact ⟨h, List.prefix_refl _⟩
  | deleteEvent eventId =>
    rw [RowOperation.run, run_get_bind] at hrun
    cases hfind : db.events.find? (·.eventId = eventId) with
    | none =>
      rw [hfind] at hrun
      obtain rfl := (run_pure_ok.mp hrun).2
      exact ⟨h, List.prefix_refl _⟩
    | some e =>
      rw [hfind] at hrun
      exact absurd hrun (deleteEvent_refused h (List.mem_of_find?_eq_some hfind))

theorem covered_sound {db db' : Database} (h : db.Sound) {ops : List RowOperation} (hops : Covered db ops)
    (hrun : (ops.forM RowOperation.run).run db = .ok ⟨⟩ db') : db'.Sound ∧ db.events <+: db'.events := by
  induction ops generalizing db with
  | nil =>
    obtain rfl := run_forM_nil.mp hrun
    exact ⟨h, List.prefix_refl _⟩
  | cons op ops ih =>
    obtain ⟨u, hop, hrest⟩ := run_forM_cons.mp hrun
    obtain ⟨hsound, hevents⟩ := hops.1.sound h hop
    obtain ⟨hsound', hevents'⟩ := ih hsound (hops.2 u hop) hrest
    exact ⟨hsound', hevents.trans hevents'⟩

/-- A statement that the schema accepts, and that is covered. -/
def CoveredStep (db : Database) (ops : List RowOperation) (db' : Database) : Prop :=
  Accepts db ops db' ∧ Covered db ops

theorem CoveredStep.sound {db db' : Database} {ops : List RowOperation} (h : db.Sound) (hstep : CoveredStep db ops db') :
    db'.Sound ∧ db.events <+: db'.events := by
  have hrun := run_transaction_ok.mp hstep.1
  obtain ⟨_, u, hops, hend⟩ := run_bind_ok.mp hrun
  rw [run_get_bind, run_refuseIf_bind, run_pure_ok] at hend
  obtain rfl := hend.2.2
  exact covered_sound h hstep.2 hops

theorem covered_run {db db' : Database} {stmts : List (List RowOperation)} (h : db.Sound)
    (hrun : Run CoveredStep db stmts db') : db'.Sound ∧ db.events <+: db'.events := by
  induction hrun with
  | nil => exact ⟨h, List.prefix_refl _⟩
  | snoc _ hstep ih =>
    obtain ⟨hsound, hevents⟩ := hstep.sound ih.1
    exact ⟨hsound, ih.2.trans hevents⟩

/-- The events of the first are in the second, where every assignment is at what its events
replay to. -/
def Intact (db db' : Database) : Prop :=
  (∀ e ∈ db.events, e ∈ db'.events) ∧ ∀ a ∈ db'.assignments,
    a.currentState = (replay (db'.chain a.assignmentId)).currentState ∧
      a.currentTransitionEventId = (replay (db'.chain a.assignmentId)).currentTransitionEventId

instance (db db' : Database) : Decidable (Intact db db') := inferInstanceAs (Decidable (_ ∧ _))

/-- **In a run of covered statements every event stays as it was inserted, and every
assignment is at what its events, which are a chain, replay to.** -/
theorem ledger_intact {before after : List (List RowOperation)} {db db' : Database}
    (h : Run CoveredStep .empty before db) (hlater : Run CoveredStep db after db') :
    Intact db db' ∧ ∀ id, Chain (db'.chain id) := by
  obtain ⟨hsound, -⟩ := covered_run empty_sound h
  obtain ⟨hsound', hevents⟩ := covered_run hsound hlater
  refine ⟨⟨fun e he => hevents.subset he, ?_⟩, hsound'.chains⟩
  intro a ha
  have hproj := hsound'.projected a ha
  exact ⟨congrArg (·.currentState) hproj, congrArg (·.currentTransitionEventId) hproj⟩

/-! ### Runs -/

/-- A row of `assignments` as `create_assignment` gives it. -/
def draft (id : Option String) : NewAssignment where
  assignmentId := id
  workflowId := some "WF"
  architectureMode := some .nativeMultiAgent
  currentState := some .drafted
  currentTransitionEventId := none
  prePauseState := none
  preInterruptState := none
  nestedPauseState := none
  supersededByAssignmentId := none
  createdAtMs := some 1

/-- The first event of an assignment. -/
def assign (eventId : Option ℤ) (id : String) : NewEvent where
  eventId := eventId
  assignmentId := some id
  transitionTypeId := some "ASSIGN"
  actor := some .coordinator
  fromState := some .drafted
  toState := some .assigned
  predecessorEventId := none
  operationId := some "op-1"
  receiptSha256 := some (String.ofList (List.replicate 64 'c'))
  targetAssignmentId := none
  createdAtMs := some 1

theorem run_accepts {stmts : List (List RowOperation)} {db db' : Database}
    (h : (stmts.forM execute).run db = .ok ⟨⟩ db') : Run Accepts db stmts db' := by
  induction stmts generalizing db with
  | nil =>
    obtain rfl := run_forM_nil.mp h
    exact .nil
  | cons stmt stmts ih =>
    obtain ⟨u, hstmt, hrest⟩ := run_forM_cons.mp h
    exact .cons hstmt (ih hrest)

/-- Statements that are accepted, after which the ledger is not intact. -/
def Breaks (before after : List (List RowOperation)) : Prop :=
  ∃ db db', Run Accepts .empty before db ∧ Run Accepts db after db' ∧ ¬ Intact db db'

/-- What accepted statements leave. -/
def play (stmts : List (List RowOperation)) (db : Database) : Option Database :=
  match (stmts.forM execute).run db with
  | .ok _ db' => some db'
  | .error _ _ => none

theorem run_play {stmts : List (List RowOperation)} {db db' : Database} (h : play stmts db = some db') :
    Run Accepts db stmts db' := by
  unfold play at h
  split at h
  · rename_i hrun
    obtain rfl := Option.some.inj h
    exact run_accepts hrun
  · cases h

theorem breaks_of_play {before after : List (List RowOperation)}
    (h : ((play before .empty).any fun db => (play after db).any fun db' => ¬ Intact db db') = true) :
    Breaks before after := by
  rw [Option.any_eq_true] at h
  obtain ⟨db, hdb, h⟩ := h
  rw [Option.any_eq_true] at h
  obtain ⟨db', hdb', h⟩ := h
  exact ⟨db, db', run_play hdb, run_play hdb', of_decide_eq_true h⟩

/-- An assignment that is drafted, and then assigned by an event. -/
def assignedRun (eventId : Option ℤ) : List (List RowOperation) :=
  [[.insertAssignment .abort none (draft (some "A"))], [.insertEvent .abort (assign eventId "A")]]

/-- **What no trigger sees: an update of an event; an assignment that is inserted confirmed;
`UPDATE` of the current event from -1 to NULL; `UPDATE OR REPLACE` of a state to NULL; and
an update that takes an id from an assignment with events, and gives it to one without.** -/
theorem ledger_rewritten :
    Breaks (assignedRun none) [[.updateEvent .abort 1 { assign (some 1) "A" with operationId := some "op-2" }]] ∧
    Breaks [] [[.insertAssignment .abort none { draft (some "A") with currentState := some .confirmed }]] ∧
    Breaks (assignedRun (some (-1))) [[.updateAssignment .abort 1 1
      { draft (some "A") with currentState := some .assigned }]] ∧
    Breaks (assignedRun none) [[.updateAssignment .replace 1 1
      { draft (some "A") with currentState := none, currentTransitionEventId := some 1 }]] ∧
    Breaks (assignedRun none) [[.insertAssignment .abort none (draft none)], [
      .updateAssignment .abort 1 1
        { draft none with currentState := some .assigned, currentTransitionEventId := some 1 },
      .updateAssignment .abort 2 2 (draft (some "A"))]] :=
  ⟨breaks_of_play (by decide +kernel), breaks_of_play (by decide +kernel), breaks_of_play (by decide +kernel),
    breaks_of_play (by decide +kernel), breaks_of_play (by decide +kernel)⟩

/-- A covered statement that is accepted, by running it. -/
theorem play_step (ops : List RowOperation) (db : Database) (h : (play [ops] db).isSome = true)
    (hcovered : Covered db ops) : CoveredStep db ops ((play [ops] db).getD db) := by
  obtain ⟨db', hdb'⟩ := Option.isSome_iff_exists.mp h
  rw [hdb', Option.getD_some]
  unfold play at hdb'
  split at hdb'
  · rename_i hrun
    obtain rfl := Option.some.inj hdb'
    obtain ⟨u, hops, hnil⟩ := run_forM_cons.mp hrun
    obtain rfl := run_forM_nil.mp hnil
    exact ⟨hops, hcovered⟩
  · cases hdb'

/-- The tables with an assignment that is drafted. -/
def draftedDatabase : Database := (play [[.insertAssignment .abort none (draft (some "A"))]] .empty).getD .empty

/-- An assignment that is drafted, and then assigned, under statements that are covered. -/
theorem ledger_intact_assigned : ∃ db, draftedDatabase ≠ db ∧ Intact draftedDatabase db ∧ ∀ id, Chain (db.chain id) := by
  have hdraft := play_step [.insertAssignment .abort none (draft (some "A"))] .empty
    (by decide +kernel) ⟨start_inserted rfl rfl, fun _ _ => trivial⟩
  have hassign := play_step [.insertEvent .abort (assign none "A")] draftedDatabase
    (by decide +kernel) ⟨trivial, fun _ _ => trivial⟩
  exact ⟨_, by decide +kernel, ledger_intact (.single hdraft) (.single hassign)⟩

end CcbCore.Ledger
