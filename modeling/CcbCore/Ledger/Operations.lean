import CcbCore.Ledger.Invariant
import CcbCore.Library.Run

/-!
# The ledger's operations

`Ledger.create_assignment`, `apply_transition` and `record_final_acceptance` of
`src/chat_bus/ledger.py`. A write is one transaction, which a raising call rolls back.
`apply_transition` reads the assignment and the rule first, outside it: any number of
clients may have read and not yet written (`System.pending`), and read and write
steps come in any order (`Step`). The database may refuse a step (`.database`: it is
locked, or its file is gone), and a client may stop between its steps.
-/

namespace CcbCore.Ledger

open CcbCore.Sql CcbCore.Raising

/-- What a call raises. -/
inductive LedgerFailure where
  | valueError (message : String)
  | ledgerError (message : String)
  /-- `LedgerError(str(exc))` of what SQLite raised. -/
  | refused (error : SqlError)
  /-- What the connection raises without looking at the statement. -/
  | database
  deriving DecidableEq, Repr

/-- A method of `Ledger`, over its database. -/
abbrev LedgerM := EStateM LedgerFailure Database

/-- `is_sha256`. -/
def isSha256 (value : String) : Bool :=
  value.length = 64 ∧ value.toList.all fun c => ('0' ≤ c ∧ c ≤ '9') ∨ ('a' ≤ c ∧ c ≤ 'f')

/-- `require_sha256`. -/
def requireSha256 (value field : String) : LedgerM PUnit :=
  refuseIf (isSha256 value = false) (.valueError (field ++ " must be exactly 64 lowercase hexadecimal characters"))

/-- A statement in the `with` block of a method. -/
def sql {α : Type} (operation : Sqlite α) : LedgerM α := EStateM.adaptExcept .refused (statement operation)

/-! ### Creating an assignment -/

/-- The arguments of `create_assignment`, where the time is the given one or the clock's. -/
structure CreateCall where
  assignmentId : String
  workflowId : String
  architectureMode : ArchitectureMode
  createdAtMs : ℤ
  deriving DecidableEq, Repr

/-- The row that it inserts. -/
def CreateCall.new (call : CreateCall) : NewAssignment where
  assignmentId := some call.assignmentId
  workflowId := some call.workflowId
  architectureMode := some call.architectureMode
  currentState := some .drafted
  currentTransitionEventId := none
  prePauseState := none
  preInterruptState := none
  nestedPauseState := none
  supersededByAssignmentId := none
  createdAtMs := some call.createdAtMs

/-- `Ledger.create_assignment`. -/
def createAssignment (call : CreateCall) : LedgerM PUnit := transaction (sql (insertAssignment .abort none call.new))

/-! ### Applying a transition -/

/-- The arguments of `apply_transition`. -/
structure TransitionCall where
  assignmentId : String
  transitionTypeId : String
  actor : Actor
  operationId : String
  receiptSha256 : String
  targetAssignmentId : Option String
  createdAtMs : ℤ
  deriving DecidableEq, Repr

/-- A call of `apply_transition` that has read, and is to write. -/
structure Pending where
  call : TransitionCall
  snapshot : Assignment
  rule : Rule
  deriving DecidableEq, Repr

/-- `Ledger.inspect`. -/
def inspect (assignmentId : String) : LedgerM Assignment := do
  required ((← get).select (some assignmentId)) (.ledgerError "NOT_FOUND")

/-- `Ledger.apply_transition`, up to its `try`. -/
def readTransition (call : TransitionCall) : LedgerM Pending := do
  requireSha256 call.receiptSha256 "receipt_sha256"
  let snapshot ← inspect call.assignmentId
  let rule ← required (ruleOf call.transitionTypeId) (.ledgerError "UNKNOWN_TRANSITION_TYPE")
  refuseIf (rule.actor ≠ call.actor) (.ledgerError "ACTOR_MISMATCH")
  return ⟨call, snapshot, rule⟩

/-- The row that it inserts. -/
def Pending.new (p : Pending) : NewEvent where
  eventId := none
  assignmentId := some p.call.assignmentId
  transitionTypeId := some p.call.transitionTypeId
  actor := some p.call.actor
  fromState := some p.snapshot.currentState
  toState := some p.rule.toState
  predecessorEventId := p.snapshot.currentTransitionEventId
  operationId := some p.call.operationId
  receiptSha256 := some p.call.receiptSha256
  targetAssignmentId := p.call.targetAssignmentId
  createdAtMs := some p.call.createdAtMs

/-- `Ledger.apply_transition`, from its `try`. -/
def writeTransition (p : Pending) : LedgerM ℤ := transaction do
  let lastrowid ← sql (insertEvent .abort p.new)
  let eventId := lastrowid.getD 0
  let projected ← required ((← get).select (some p.call.assignmentId)) (.ledgerError "PROJECTION_NOT_ADVANCED")
  refuseIf (projected.currentTransitionEventId ≠ some eventId) (.ledgerError "PROJECTION_NOT_ADVANCED")
  refuseIf (projected.currentState ≠ p.rule.toState) (.ledgerError "PROJECTION_STATE_MISMATCH")
  return eventId

/-- `Ledger.apply_transition`. -/
def applyTransition (call : TransitionCall) : LedgerM ℤ := do
  let p ← readTransition call
  writeTransition p

/-! ### Recording a final acceptance -/

/-- The arguments of `record_final_acceptance`. What is no `bool` is no confirmation. -/
structure AcceptanceCall where
  assignmentId : String
  architectureMode : ArchitectureMode
  disposition : Disposition
  readbackConfirmed : Option Bool
  evidenceSha256 : String
  createdAtMs : ℤ
  deriving DecidableEq, Repr

/-- `final_acceptance_validate_before_insert`. -/
def finalAcceptanceValidateBeforeInsert (new : Receipt) : Sqlite PUnit := do
  let db ← get
  refuseIf (¬ ∃ a ∈ db.assignments, a.assignmentId = some new.assignmentId ∧ a.currentState = .confirmed ∧
      a.architectureMode = new.architectureMode) (.raised "ACCEPTANCE_ASSIGNMENT_MODE_OR_STATE_MISMATCH")
  refuseIf (new.disposition = .pass ∧ new.readbackConfirmed ≠ 1) (.raised "PASS_REQUIRES_READBACK")

/-- The `CHECK`s of `final_acceptance_receipts`. -/
def Receipt.Checks (r : Receipt) : Prop :=
  0 < sqlLength r.assignmentId ∧ r.architectureMode.Listed ∧ (r.disposition = .pass ∨ r.disposition = .fail) ∧
    (r.readbackConfirmed = 0 ∨ r.readbackConfirmed = 1) ∧ IsSha256 r.evidenceSha256 ∧ 0 ≤ r.createdAtMs

instance (r : Receipt) : Decidable r.Checks := inferInstanceAs (Decidable (_ ∧ _))

/-- `INSERT INTO final_acceptance_receipts`; its `lastrowid`. -/
def insertReceipt (call : AcceptanceCall) (readbackConfirmed : Bool) : Sqlite ℤ := do
  let db ← get
  let receiptId := db.receipts.foldl (fun n r => max n r.receiptId) db.receiptSequence + 1
  let row : Receipt := {
    receiptId
    assignmentId := call.assignmentId
    architectureMode := call.architectureMode
    disposition := call.disposition
    readbackConfirmed := if readbackConfirmed then 1 else 0
    evidenceSha256 := call.evidenceSha256
    createdAtMs := call.createdAtMs }
  finalAcceptanceValidateBeforeInsert row
  refuseIf (maxRowid < receiptId) .full
  refuseIf (¬ row.Checks) .check
  refuseIf (∃ r ∈ db.receipts, r.assignmentId = row.assignmentId) .unique
  set { db with receipts := db.receipts ++ [row], receiptSequence := receiptId }
  return receiptId

/-- `Ledger.record_final_acceptance`. -/
def recordFinalAcceptance (call : AcceptanceCall) : LedgerM ℤ := do
  let readbackConfirmed ← required call.readbackConfirmed (.ledgerError "READBACK_CONFIRMED_MUST_BE_BOOL")
  requireSha256 call.evidenceSha256 "evidence_sha256"
  transaction (sql (insertReceipt call readbackConfirmed))

/-! ### Interleaved calls -/

/-- The database, and the calls that have read and are to write. -/
structure System where
  database : Database
  pending : List Pending
  deriving DecidableEq, Repr

/-- The ledger when its schema has been made. -/
def System.start : System := ⟨.empty, []⟩

/-- A step of a call. -/
inductive Call where
  | create (call : CreateCall)
  | read (call : TransitionCall)
  | write (p : Pending)
  | record (call : AcceptanceCall)
  deriving DecidableEq, Repr

/-- What a step does to the database, and what it leaves to be written. -/
def Call.perform : Call → LedgerM (List Pending)
  | .create call => do
    createAssignment call
    return []
  | .read call => do
    return [← readTransition call]
  | .write p => do
    let _ ← writeTransition p
    return []
  | .record call => do
    let _ ← recordFinalAcceptance call
    return []

/-- Only a call that has read can write. -/
def Call.Ready (s : System) : Call → Prop
  | .write p => p ∈ s.pending
  | _ => True

/-- The calls that are to write, without the one that does. -/
def Call.others (s : System) : Call → List Pending
  | .write p => s.pending.erase p
  | _ => s.pending

/-- A step of one of the clients, and what it raises. -/
inductive Step (s : System) : Call × Option LedgerFailure → System → Prop where
  | returned {call : Call} {read : List Pending} {db : Database} : call.Ready s →
      call.perform.run s.database = .ok read db → Step s (call, none) ⟨db, call.others s ++ read⟩
  | raised {call : Call} {failure : LedgerFailure} {db : Database} : call.Ready s →
      call.perform.run s.database = .error failure db → Step s (call, some failure) ⟨db, call.others s⟩
  | failed {call : Call} : call.Ready s → Step s (call, some .database) ⟨s.database, call.others s⟩

/-! ### What a step does -/

theorem statement_ok {α : Type} {operation : Sqlite α} {a : α} {db db' : Database} :
    (statement operation).run db = .ok a db' ↔ operation.run db = .ok a db' ∧ db'.ForeignKeys := by
  rw [statement, run_transaction_ok, run_bind_ok]
  constructor
  · rintro ⟨b, u, hrun, hend⟩
    rw [run_get_bind, run_refuseIf_bind, not_not, run_pure_ok] at hend
    obtain ⟨hkeys, rfl, rfl⟩ := hend
    exact ⟨hrun, hkeys⟩
  · rintro ⟨hrun, hkeys⟩
    refine ⟨a, db', hrun, ?_⟩
    rw [run_get_bind, run_refuseIf_bind, not_not, run_pure_ok]
    exact ⟨hkeys, rfl, rfl⟩

theorem sql_ok {α : Type} {operation : Sqlite α} {a : α} {db db' : Database} :
    (sql operation).run db = .ok a db' ↔ operation.run db = .ok a db' ∧ db'.ForeignKeys := by
  rw [sql, run_adaptExcept_ok, statement_ok]

theorem createAssignment_ok {call : CreateCall} {db db' : Database} (h : db.Sound)
    (hrun : (createAssignment call).run db = .ok ⟨⟩ db') : db'.Sound ∧ db'.events = db.events :=
  h.insert (start_inserted rfl rfl) (sql_ok.mp (run_transaction_ok.mp hrun)).1

theorem readTransition_readOnly (call : TransitionCall) : ReadOnly (readTransition call) := by
  refine .bind (.refuseIf _ _) fun _ => .bind (.bind .get fun _ => .required _ _) fun _ => ?_
  exact .bind (.required _ _) fun _ => .bind (.refuseIf _ _) fun _ => .pure _

/-- A transition that is written is one event, which is projected. -/
theorem writeTransition_ok {p : Pending} {db db' : Database} {eventId : ℤ} (h : db.Sound)
    (hrun : (writeTransition p).run db = .ok eventId db') :
    ∃ a e, e.eventId = eventId ∧ Appended db p.new a e db' := by
  obtain ⟨lastrowid, u, hinsert, hread⟩ := run_bind_ok.mp (run_transaction_ok.mp hrun)
  dsimp only at hread
  rw [run_get_bind, run_required_bind] at hread
  obtain ⟨projected, -, hread⟩ := hread
  rw [run_refuseIf_bind, run_refuseIf_bind, run_pure_ok] at hread
  obtain ⟨-, -, rfl, rfl⟩ := hread
  rcases insertEvent_ok h (sql_ok.mp hinsert).1 with ⟨⟨hpolicy, -⟩, -⟩ | ⟨a, e, rfl, happ⟩
  · cases hpolicy
  · exact ⟨a, e, rfl, happ⟩

theorem insertReceipt_ok {call : AcceptanceCall} {readbackConfirmed : Bool} {receiptId : ℤ} {db db' : Database}
    (hrun : (insertReceipt call readbackConfirmed).run db = .ok receiptId db') :
    db' = { db with receipts := db'.receipts, receiptSequence := db'.receiptSequence } := by
  rw [insertReceipt, run_get_bind] at hrun
  dsimp only at hrun
  obtain ⟨_, u, hvalidate, hrun⟩ := run_bind_ok.mp hrun
  rw [finalAcceptanceValidateBeforeInsert, run_get_bind, run_refuseIf_bind, run_refuseIf_ok] at hvalidate
  obtain ⟨-, -, rfl⟩ := hvalidate
  rw [run_refuseIf_bind, run_refuseIf_bind, run_refuseIf_bind] at hrun
  obtain ⟨-, -, -, hset⟩ := hrun
  obtain ⟨_, v, hset, hreturn⟩ := run_bind_ok.mp hset
  obtain rfl := run_set_ok.mp hset
  rw [(run_pure_ok.mp hreturn).2]

theorem recordFinalAcceptance_ok {call : AcceptanceCall} {receiptId : ℤ} {db db' : Database}
    (hrun : (recordFinalAcceptance call).run db = .ok receiptId db') :
    db' = { db with receipts := db'.receipts, receiptSequence := db'.receiptSequence } := by
  rw [recordFinalAcceptance, run_required_bind] at hrun
  obtain ⟨confirmed, -, hrun⟩ := hrun
  rw [requireSha256, run_refuseIf_bind, run_transaction_ok, sql_ok] at hrun
  exact insertReceipt_ok hrun.2.1

/-- **A step that returns keeps the ledger sound, and every event.** -/
theorem perform_sound {call : Call} {read : List Pending} {db db' : Database} (h : db.Sound)
    (hrun : call.perform.run db = .ok read db') : db'.Sound ∧ db.events <+: db'.events := by
  cases call with
  | create call =>
    obtain ⟨_, u, hcreate, hreturn⟩ := run_bind_ok.mp hrun
    obtain rfl := (run_pure_ok.mp hreturn).2
    obtain ⟨hsound, hevents⟩ := createAssignment_ok h hcreate
    exact ⟨hsound, hevents ▸ List.prefix_refl _⟩
  | read call =>
    obtain ⟨p, u, hread, hreturn⟩ := run_bind_ok.mp hrun
    obtain rfl := (run_pure_ok.mp hreturn).2
    rw [(readTransition_readOnly call).state_eq hread]
    exact ⟨h, List.prefix_refl _⟩
  | write p =>
    obtain ⟨eventId, u, hwrite, hreturn⟩ := run_bind_ok.mp hrun
    obtain rfl := (run_pure_ok.mp hreturn).2
    obtain ⟨a, e, -, happ⟩ := writeTransition_ok h hwrite
    exact ⟨happ.sound h, happ.events ▸ List.prefix_append _ _⟩
  | record call =>
    obtain ⟨receiptId, u, hrecord, hreturn⟩ := run_bind_ok.mp hrun
    obtain rfl := (run_pure_ok.mp hreturn).2
    rw [recordFinalAcceptance_ok hrecord]
    exact ⟨⟨h.rowids, h.ids, h.checked, h.eventIds, h.operations, h.targets, h.recorded, h.chains, h.projected⟩,
      List.prefix_refl _⟩

/-- **A step that raises leaves the database as it was.** -/
theorem perform_atomic (call : Call) : Atomic call.perform := by
  cases call with
  | create call => exact (Atomic.transaction _).bind_pure fun _ => []
  | read call => exact (Atomic.of_readOnly (readTransition_readOnly call)).bind_pure fun p => [p]
  | write p => exact (Atomic.transaction _).bind_pure fun _ => []
  | record call =>
    refine Atomic.bind_pure (.bind_left (.required _ _) fun _ => ?_) fun _ => []
    exact .bind_left (.refuseIf _ _) fun _ => .transaction _

theorem Step.sound {s t : System} {label : Call × Option LedgerFailure} (h : s.database.Sound) (hstep : Step s label t) :
    t.database.Sound ∧ s.database.events <+: t.database.events := by
  cases hstep with
  | returned _ hrun => exact perform_sound h hrun
  | raised _ hrun =>
    rw [perform_atomic _ _ _ _ hrun]
    exact ⟨h, List.prefix_refl _⟩
  | failed => exact ⟨h, List.prefix_refl _⟩

theorem Step.unchanged {s t : System} {label : Call × Option LedgerFailure} (hstep : Step s label t)
    (hraised : label.2 ≠ none ∨ ∃ call, label.1 = .read call) : t.database = s.database := by
  cases hstep with
  | returned _ hrun =>
    obtain ⟨call, rfl⟩ := by simpa using hraised
    obtain ⟨p, u, hread, hreturn⟩ := run_bind_ok.mp hrun
    obtain rfl := (run_pure_ok.mp hreturn).2
    exact (readTransition_readOnly call).state_eq hread
  | raised _ hrun => exact perform_atomic _ _ _ _ hrun
  | failed => rfl

theorem run_sound {s t : System} {labels : List (Call × Option LedgerFailure)} (h : s.database.Sound)
    (hrun : Run Step s labels t) : t.database.Sound ∧ s.database.events <+: t.database.events := by
  induction hrun with
  | nil => exact ⟨h, List.prefix_refl _⟩
  | snoc _ hstep ih =>
    obtain ⟨hsound, hevents⟩ := hstep.sound ih.1
    exact ⟨hsound, ih.2.trans hevents⟩

/-! ### One chain for each assignment -/

/-- The events of an assignment, one after another, from `DRAFTED` to where it is. -/
structure Linear (a : Assignment) (es : List Event) : Prop where
  links : ∀ pre e post, es = pre ++ e :: post → e.predecessorEventId = pre.getLast?.map (·.eventId) ∧
    e.fromState = (pre.getLast?.map (·.toState)).getD .drafted
  eventIds : (es.map (·.eventId)).Nodup
  last : a.currentTransitionEventId = es.getLast?.map (·.eventId)
  state : a.currentState = (replay es).currentState
  operations : (es.map (·.operationId)).Nodup

theorem Database.Sound.linear {db : Database} (h : db.Sound) {a : Assignment} (ha : a ∈ db.assignments) :
    Linear a (db.chain a.assignmentId) where
  links := by
    intro pre e post hsplit
    have hchain := h.chains a.assignmentId
    rw [hsplit] at hchain
    obtain ⟨-, hlegal⟩ := hchain.legal
    exact ⟨hlegal.predecessor.trans (replay_currentTransitionEventId pre),
      hlegal.state.trans (replay_currentState pre)⟩
  eventIds := h.eventIds.sublist (List.filter_sublist.map _)
  last := h.current ha
  state := congrArg (·.currentState) (h.projected a ha)
  operations := by
    have hkeys : ((db.chain a.assignmentId).map fun e => (e.assignmentId, e.operationId)).Nodup :=
      h.operations.sublist (List.filter_sublist.map _)
    refine List.Nodup.map_on ?_ (List.Nodup.of_map _ hkeys)
    intro e he f hf hop
    -- the events of one assignment differ in the second part of the key
    have hid : some e.assignmentId = some f.assignmentId := (mem_chain.mp he).2.trans (mem_chain.mp hf).2.symm
    exact List.inj_on_of_nodup_map hkeys he hf (by rw [Option.some.inj hid, hop])

/-- An assignment in a terminal state stays in it while events stay. -/
theorem Database.Sound.terminal {db db' : Database} (h : db.Sound) (h' : db'.Sound) (hevents : db.events <+: db'.events)
    {a : Assignment} (ha : a ∈ db.assignments) (hterminal : a.currentState.Terminal) :
    ∃ b ∈ db'.assignments, b.assignmentId = a.assignmentId ∧ b.currentState = a.currentState := by
  obtain ⟨more, hmore⟩ := hevents
  have hchain : db'.chain a.assignmentId = db.chain a.assignmentId ++ more.filter fun e => some e.assignmentId = a.assignmentId := by
    rw [Database.chain, ← hmore, List.filter_append]
    rfl
  have hstate := congrArg (·.currentState) (h.projected a ha)
  have hend := h'.chains a.assignmentId
  rw [hchain] at hend
  have hsame : db'.chain a.assignmentId = db.chain a.assignmentId := by
    rw [hchain, hend.terminal (hstate ▸ hterminal), List.append_nil]
  cases hlast : db.chain a.assignmentId with
  | nil =>
    rw [hlast] at hstate
    rw [hstate] at hterminal
    exact absurd hterminal (by decide)
  | cons e es =>
    have he : e ∈ db.chain a.assignmentId := hlast ▸ List.mem_cons_self
    obtain ⟨hmem, hid⟩ := mem_chain.mp he
    obtain ⟨b, hb, hbid⟩ := h'.recorded e (hmore ▸ List.mem_append_left _ hmem)
    refine ⟨b, hb, hbid.trans hid, ?_⟩
    rw [hstate, congrArg (·.currentState) (h'.projected b hb), hbid.trans hid, hsame]

/-- **After any interleaving of the steps of any calls, the events of each assignment are one
chain that ends where it is, and no operation is in it twice; an assignment that is
confirmed, stopped or superseded stays so; and a step that raises, or that only reads,
changes no table.** -/
theorem ledger_linear {labels : List (Call × Option LedgerFailure)} {s : System} (h : Run Step .start labels s) :
    (∀ a ∈ s.database.assignments, Linear a (s.database.chain a.assignmentId)) ∧
    (∀ e ∈ s.database.events, ∃ a ∈ s.database.assignments, a.assignmentId = some e.assignmentId) ∧
    (∀ more t, Run Step s more t → ∀ a ∈ s.database.assignments, a.currentState.Terminal →
      ∃ b ∈ t.database.assignments, b.assignmentId = a.assignmentId ∧ b.currentState = a.currentState) ∧
    ∀ label t, Step s label t → label.2 ≠ none ∨ (∃ call, label.1 = .read call) → t.database = s.database := by
  obtain ⟨hsound, -⟩ := run_sound empty_sound h
  refine ⟨fun a ha => hsound.linear ha, hsound.recorded, ?_, fun label t hstep => hstep.unchanged⟩
  intro more t hmore a ha hterminal
  obtain ⟨hsound', hevents⟩ := run_sound hsound hmore
  exact hsound.terminal hsound' hevents ha hterminal

/-! ### Runs -/

/-- Where a step that returns leaves the ledger. -/
def Call.after (call : Call) (s : System) : Option System :=
  match call.perform.run s.database with
  | .ok added db => some ⟨db, call.others s ++ added⟩
  | .error _ _ => none

theorem after_step {call : Call} {s t : System} (hready : call.Ready s) (h : call.after s = some t) :
    Step s (call, none) t := by
  unfold Call.after at h
  split at h
  · rename_i hrun
    obtain rfl := Option.some.inj h
    exact .returned hready hrun
  · cases h

/-- A transition that is read and written at once. -/
def System.apply (s : System) (call : TransitionCall) : Option System := do
  let t ← (Call.read call).after s
  let p ← t.pending.getLast?
  (Call.write p).after t

theorem apply_run {s t : System} {call : TransitionCall} (h : s.apply call = some t) :
    ∃ labels, Run Step s labels t := by
  obtain ⟨u, hu, h⟩ := Option.bind_eq_some_iff.mp h
  obtain ⟨p, hp, ht⟩ := Option.bind_eq_some_iff.mp h
  exact ⟨_, .cons (after_step (show (Call.read call).Ready s from trivial) hu)
    (.single (after_step (show (Call.write p).Ready u from List.mem_of_getLast? hp) ht))⟩

/-- An assignment that is created. -/
def created (id : String) : Call := .create ⟨id, "WF", .nativeMultiAgent, 1⟩

/-- The arguments of a transition. -/
def transition (id type : String) (actor : Actor) (target : Option String) : TransitionCall where
  assignmentId := id
  transitionTypeId := type
  actor := actor
  operationId := "op-" ++ type
  receiptSha256 := String.ofList (List.replicate 64 'c')
  targetAssignmentId := target
  createdAtMs := 2

/-- The ledger with assignments that are created, and transitions that are applied. -/
def played (ids : List String) (transitions : List TransitionCall) : Option System := do
  let s ← ids.foldlM (fun s id => (created id).after s) .start
  transitions.foldlM System.apply s

theorem played_run {ids : List String} {transitions : List TransitionCall} {s : System}
    (h : played ids transitions = some s) : ∃ labels, Run Step .start labels s := by
  obtain ⟨t, ht, hs⟩ := Option.bind_eq_some_iff.mp h
  have hcreated : ∃ labels, Run Step .start labels t := by
    clear h hs
    generalize System.start = r at ht
    induction ids generalizing r with
    | nil =>
      obtain rfl := Option.some.inj ht
      exact ⟨_, .nil⟩
    | cons id ids ih =>
      rw [List.foldlM_cons] at ht
      obtain ⟨u, hu, ht⟩ := Option.bind_eq_some_iff.mp ht
      obtain ⟨labels, hrun⟩ := ih u ht
      exact ⟨_, .cons (after_step (show (created id).Ready r from trivial) hu) hrun⟩
  obtain ⟨labels, hrun⟩ := hcreated
  clear h ht
  induction transitions generalizing t labels with
  | nil =>
    obtain rfl := Option.some.inj hs
    exact ⟨_, hrun⟩
  | cons call calls ih =>
    rw [List.foldlM_cons] at hs
    obtain ⟨u, hu, hs⟩ := Option.bind_eq_some_iff.mp hs
    obtain ⟨more, hmore⟩ := apply_run hu
    exact ih u hs _ (hrun.trans hmore)

/-- An assignment that is assigned and then stopped. -/
def stoppedLedger : System :=
  (played ["A"] [transition "A" "ASSIGN" .coordinator none,
    transition "A" "STOP_FROM_ASSIGNED" .operator none]).getD .start

theorem ledger_linear_stopped : (∃ a ∈ stoppedLedger.database.assignments, a.currentState = .stopped) ∧
    ∀ a ∈ stoppedLedger.database.assignments, Linear a (stoppedLedger.database.chain a.assignmentId) := by
  have hplayed : played ["A"] [transition "A" "ASSIGN" .coordinator none,
      transition "A" "STOP_FROM_ASSIGNED" .operator none] = some stoppedLedger := by decide +kernel
  obtain ⟨labels, hrun⟩ := played_run hplayed
  exact ⟨by decide +kernel, (ledger_linear hrun).1⟩

end CcbCore.Ledger
