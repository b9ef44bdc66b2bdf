import CcbCore.Ledger.Operations

/-!
# Final acceptance is bound to confirmed work

A receipt is looked at only when it is inserted. What it was inserted for stays true of it:
no rule leaves `CONFIRMED`, a transition keeps the mode of its assignment, and the API
deletes no row and updates no receipt. So whatever calls are made, in whatever order their
steps come, every receipt names confirmed work in its own mode (`acceptance_bound`).
-/

namespace CcbCore.Ledger

open CcbCore.Sql CcbCore.Raising

/-- What a receipt says of its assignment. -/
structure Database.Confirms (db : Database) (r : Receipt) : Prop where
  recorded : ∃ a ∈ db.assignments, a.assignmentId = some r.assignmentId
  confirmed : ∀ a ∈ db.assignments, a.assignmentId = some r.assignmentId →
    a.currentState = .confirmed ∧ a.architectureMode = r.architectureMode

/-- What the receipts of a ledger say, each of an assignment of its own. -/
structure Database.Accepted (db : Database) : Prop where
  confirms : ∀ r ∈ db.receipts, db.Confirms r
  single : (db.receipts.map (·.assignmentId)).Nodup
  readback : ∀ r ∈ db.receipts, r.disposition = .pass → r.readbackConfirmed = 1

theorem empty_accepted : Database.empty.Accepted where
  confirms := by simp [Database.empty]
  single := .nil
  readback := by simp [Database.empty]

/-! ### Confirmed assignments stay -/

/-- Every confirmed assignment is still there, as it was. -/
def Database.Keeps (db db' : Database) : Prop := ∀ a ∈ db.assignments, a.currentState = .confirmed → a ∈ db'.assignments

theorem Database.Keeps.refl (db : Database) : db.Keeps db := fun _ ha _ => ha

theorem Database.Confirms.keep {db db' : Database} {r : Receipt} (h : db.Confirms r) (hsound : db'.Sound)
    (hkeeps : db.Keeps db') : db'.Confirms r := by
  obtain ⟨a, ha, hid⟩ := h.recorded
  obtain ⟨hstate, hmode⟩ := h.confirmed a ha hid
  have ha' := hkeeps a ha hstate
  refine ⟨⟨a, ha', hid⟩, ?_⟩
  intro b hb hbid
  rw [hsound.of_id hb ha' hbid hid]
  exact ⟨hstate, hmode⟩

theorem insertAssignment_abort {rowid : Option ℤ} {new : NewAssignment} {db db' : Database}
    (hrun : (insertAssignment .abort rowid new).run db = .ok ⟨⟩ db') :
    ∃ row, db' = { db with assignments := db.assignments ++ [row] } := by
  rw [insertAssignment, run_get_bind] at hrun
  dsimp only at hrun
  split at hrun
  · exact absurd (violated_ok.mp hrun).1 (by decide)
  · rename_i row hrow
    split at hrun
    · exact absurd (violated_ok.mp hrun).1 (by decide)
    · split at hrun
      · exact absurd (violated_ok.mp hrun).1 (by decide)
      · rename_i hconflicts
        have hnone : db.assignmentConflicts row = [] := by
          by_contra hsome
          exact hconflicts ⟨hsome, by decide⟩
        rw [hnone] at hrun
        obtain ⟨_, u, hdelete, hstore⟩ := run_bind_ok.mp hrun
        obtain rfl := (run_forM_nil.mp hdelete).symm
        exact ⟨row, run_modify_ok.mp hstore⟩

theorem createAssignment_adds {call : CreateCall} {db db' : Database}
    (hrun : (createAssignment call).run db = .ok ⟨⟩ db') : ∃ row, db' = { db with assignments := db.assignments ++ [row] } :=
  insertAssignment_abort (sql_ok.mp (run_transaction_ok.mp hrun)).1

/-- No rule leaves `CONFIRMED`. -/
theorem Appended.moves {db db' : Database} (h : db.Sound) {new : NewEvent} {a : Assignment} {e : Event}
    (happ : Appended db new a e db') : a.currentState ≠ .confirmed := by
  intro hconfirmed
  have hlegal := happ.validated.legal h happ.predecessor
  have hstate := congrArg (·.currentState) (h.projected a happ.validated.mem)
  rw [happ.validated.id, hconfirmed] at hstate
  exact hlegal.not_terminal (.inl hstate.symm)

theorem Appended.keeps {db db' : Database} (h : db.Sound) {new : NewEvent} {a : Assignment} {e : Event}
    (happ : Appended db new a e db') : db.Keeps db' := by
  intro b hb hconfirmed
  rw [happ.assignments, mem_stored happ.validated.mem]
  refine .inr ⟨hb, ?_⟩
  intro hrowid
  rw [h.of_rowid hb happ.validated.mem hrowid] at hconfirmed
  exact happ.moves h hconfirmed

/-! ### What a receipt is inserted for -/

/-- What `INSERT INTO final_acceptance_receipts` has looked at. -/
structure Admitted (db : Database) (r : Receipt) : Prop where
  assignment : ∃ a ∈ db.assignments, a.assignmentId = some r.assignmentId ∧ a.currentState = .confirmed ∧
    a.architectureMode = r.architectureMode
  readback : r.disposition = .pass → r.readbackConfirmed = 1
  first : ∀ q ∈ db.receipts, q.assignmentId ≠ r.assignmentId

theorem insertReceipt_admits {call : AcceptanceCall} {readbackConfirmed : Bool} {receiptId : ℤ} {db db' : Database}
    (hrun : (insertReceipt call readbackConfirmed).run db = .ok receiptId db') :
    ∃ r, Admitted db r ∧ db' = { db with receipts := db.receipts ++ [r], receiptSequence := receiptId } := by
  rw [insertReceipt, run_get_bind] at hrun
  dsimp only at hrun
  obtain ⟨_, u, hvalidate, hrun⟩ := run_bind_ok.mp hrun
  rw [finalAcceptanceValidateBeforeInsert, run_get_bind, run_refuseIf_bind, run_refuseIf_ok, not_not] at hvalidate
  obtain ⟨hassignment, hreadback, rfl⟩ := hvalidate
  rw [run_refuseIf_bind, run_refuseIf_bind, run_refuseIf_bind] at hrun
  obtain ⟨-, -, hfirst, hset⟩ := hrun
  obtain ⟨_, v, hset, hreturn⟩ := run_bind_ok.mp hset
  obtain rfl := run_set_ok.mp hset
  obtain ⟨rfl, rfl⟩ := run_pure_ok.mp hreturn
  refine ⟨_, ⟨hassignment, ?_, ?_⟩, rfl⟩
  · intro hpass
    by_contra hunread
    exact hreadback ⟨hpass, hunread⟩
  · intro q hq hid
    exact hfirst ⟨q, hq, hid⟩

theorem recordFinalAcceptance_admits {call : AcceptanceCall} {receiptId : ℤ} {db db' : Database}
    (hrun : (recordFinalAcceptance call).run db = .ok receiptId db') :
    ∃ r, Admitted db r ∧ db' = { db with receipts := db.receipts ++ [r], receiptSequence := receiptId } := by
  rw [recordFinalAcceptance, run_required_bind] at hrun
  obtain ⟨confirmed, -, hrun⟩ := hrun
  rw [requireSha256, run_refuseIf_bind, run_transaction_ok, sql_ok] at hrun
  exact insertReceipt_admits hrun.2.1

theorem Admitted.confirms {db : Database} (h : db.Sound) {r : Receipt} (hadmitted : Admitted db r) : db.Confirms r := by
  obtain ⟨a, ha, hid, hstate, hmode⟩ := hadmitted.assignment
  refine ⟨⟨a, ha, hid⟩, ?_⟩
  intro b hb hbid
  rw [h.of_id hb ha hbid hid]
  exact ⟨hstate, hmode⟩

/-! ### What a step does to the receipts -/

/-- The receipts that a step leaves: those there were, or one more, for confirmed work. -/
inductive Receives (db db' : Database) : Prop where
  | none : db'.receipts = db.receipts → Receives db db'
  | one {r : Receipt} : Admitted db r → db'.receipts = db.receipts ++ [r] → Receives db db'

/-- A step that returns keeps every confirmed assignment. -/
theorem perform_keeps {call : Call} {read : List Pending} {db db' : Database} (h : db.Sound)
    (hrun : call.perform.run db = .ok read db') : db.Keeps db' ∧ Receives db db' := by
  cases call with
  | create call =>
    obtain ⟨_, u, hcreate, hreturn⟩ := run_bind_ok.mp hrun
    obtain rfl := (run_pure_ok.mp hreturn).2
    obtain ⟨row, rfl⟩ := createAssignment_adds hcreate
    exact ⟨fun a ha _ => List.mem_append_left _ ha, .none rfl⟩
  | read call =>
    obtain ⟨p, u, hread, hreturn⟩ := run_bind_ok.mp hrun
    obtain rfl := (run_pure_ok.mp hreturn).2
    rw [(readTransition_readOnly call).state_eq hread]
    exact ⟨.refl db, .none rfl⟩
  | write p =>
    obtain ⟨eventId, u, hwrite, hreturn⟩ := run_bind_ok.mp hrun
    obtain rfl := (run_pure_ok.mp hreturn).2
    obtain ⟨a, e, -, happ⟩ := writeTransition_ok h hwrite
    exact ⟨happ.keeps h, .none happ.receipts⟩
  | record call =>
    obtain ⟨receiptId, u, hrecord, hreturn⟩ := run_bind_ok.mp hrun
    obtain rfl := (run_pure_ok.mp hreturn).2
    obtain ⟨r, hadmitted, rfl⟩ := recordFinalAcceptance_admits hrecord
    exact ⟨fun a ha _ => ha, .one hadmitted rfl⟩

theorem Step.keeps {s t : System} {label : Call × Option LedgerFailure} (h : s.database.Sound) (hstep : Step s label t) :
    s.database.Keeps t.database ∧ Receives s.database t.database := by
  cases hstep with
  | returned _ hrun => exact perform_keeps h hrun
  | raised _ hrun =>
    rw [perform_atomic _ _ _ _ hrun]
    exact ⟨.refl _, .none rfl⟩
  | failed => exact ⟨.refl _, .none rfl⟩

theorem Step.record_raised {s t : System} {call : AcceptanceCall} {failure : LedgerFailure}
    (hstep : Step s (.record call, some failure) t) : t = s := by
  cases hstep with
  | raised _ hrun =>
    rw [perform_atomic _ _ _ _ hrun]
    rfl
  | failed => rfl

theorem Receives.receipts {db db' : Database} (h : Receives db db') : db.receipts <+: db'.receipts := by
  cases h with
  | none heq => exact heq ▸ List.prefix_refl _
  | one _ heq => exact heq ▸ List.prefix_append _ _

/-- **A step leaves the receipts true of their assignments.** -/
theorem Database.Accepted.step {db db' : Database} (h : db.Accepted) (hsound : db.Sound) (hsound' : db'.Sound)
    (hkeeps : db.Keeps db') (hreceives : Receives db db') : db'.Accepted := by
  have hold : ∀ r ∈ db.receipts, db'.Confirms r := fun r hr => (h.confirms r hr).keep hsound' hkeeps
  cases hreceives with
  | none heq => exact ⟨heq ▸ hold, heq ▸ h.single, heq ▸ h.readback⟩
  | @one r hadmitted heq =>
    refine ⟨?_, ?_, ?_⟩
    · rw [heq, List.forall_mem_append, List.forall_mem_singleton]
      exact ⟨hold, (hadmitted.confirms hsound).keep hsound' hkeeps⟩
    · rw [heq, List.map_append, List.map_singleton, List.nodup_append]
      refine ⟨h.single, List.nodup_singleton _, ?_⟩
      intro id hid id' hid'
      obtain ⟨q, hq, rfl⟩ := List.mem_map.mp hid
      rw [List.mem_singleton.mp hid']
      exact hadmitted.first q hq
    · rw [heq, List.forall_mem_append, List.forall_mem_singleton]
      exact ⟨h.readback, hadmitted.readback⟩

theorem run_accepted {s t : System} {labels : List (Call × Option LedgerFailure)} (hsound : s.database.Sound)
    (h : s.database.Accepted) (hrun : Run Step s labels t) :
    t.database.Accepted ∧ s.database.receipts <+: t.database.receipts := by
  induction hrun with
  | nil => exact ⟨h, List.prefix_refl _⟩
  | @snoc labels t label u hrun hstep ih =>
    obtain ⟨hsound', -⟩ := run_sound hsound hrun
    obtain ⟨hkeeps, hreceives⟩ := hstep.keeps hsound'
    exact ⟨ih.1.step hsound' (hstep.sound hsound').1 hkeeps hreceives, ih.2.trans hreceives.receipts⟩

/-- **After any interleaving of the steps of any calls, a receipt names an assignment that is
confirmed, in the receipt's mode, and does so in every state that follows, where the receipt
stays; no two receipts name one assignment; a receipt that passes was read back; and a call of
`record_final_acceptance` that raises changes nothing.** -/
theorem acceptance_bound {labels : List (Call × Option LedgerFailure)} {s : System} (h : Run Step .start labels s) :
    (∀ r ∈ s.database.receipts, s.database.Confirms r ∧
      ∀ more t, Run Step s more t → r ∈ t.database.receipts ∧ t.database.Confirms r) ∧
    (s.database.receipts.map (·.assignmentId)).Nodup ∧
    (∀ r ∈ s.database.receipts, r.disposition = .pass → r.readbackConfirmed = 1) ∧
    ∀ call failure t, Step s (.record call, some failure) t → t = s := by
  obtain ⟨hsound, -⟩ := run_sound empty_sound h
  obtain ⟨haccepted, -⟩ := run_accepted empty_sound empty_accepted h
  refine ⟨?_, haccepted.single, haccepted.readback, fun call failure t hstep => hstep.record_raised⟩
  intro r hr
  refine ⟨haccepted.confirms r hr, ?_⟩
  intro more t hmore
  obtain ⟨haccepted', hreceipts⟩ := run_accepted hsound haccepted hmore
  have hr' := hreceipts.subset hr
  exact ⟨hr', haccepted'.confirms r hr'⟩

/-- The arguments of an acceptance that passes. -/
def passed : AcceptanceCall where
  assignmentId := "A"
  architectureMode := .nativeMultiAgent
  disposition := .pass
  readbackConfirmed := some true
  evidenceSha256 := String.ofList (List.replicate 64 'e')
  createdAtMs := 3

/-- The way of an assignment to where it is confirmed. -/
def confirming : List TransitionCall := [transition "A" "ASSIGN" .coordinator none,
  transition "A" "ACKNOWLEDGE" .producer none, transition "A" "START" .producer none,
  transition "A" "REQUEST_REVIEW" .producer none, transition "A" "CONFIRM" .reviewer none]

/-- An assignment that is confirmed, and accepted. -/
def acceptedLedger : System := ((played ["A"] confirming).bind (Call.record passed).after).getD .start

theorem acceptance_bound_passed : acceptedLedger.database.receipts.map (·.disposition) = [.pass] ∧
    ∀ r ∈ acceptedLedger.database.receipts, acceptedLedger.database.Confirms r := by
  have hsome : (played ["A"] confirming).bind (Call.record passed).after = some acceptedLedger := by decide +kernel
  obtain ⟨s, hs, hrecord⟩ := Option.bind_eq_some_iff.mp hsome
  obtain ⟨labels, hrun⟩ := played_run hs
  have hrun := hrun.snoc (after_step (show (Call.record passed).Ready s from trivial) hrecord)
  exact ⟨by decide +kernel, fun r hr => ((acceptance_bound hrun).1 r hr).1⟩

end CcbCore.Ledger
