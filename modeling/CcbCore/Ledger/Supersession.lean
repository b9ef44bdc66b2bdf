import CcbCore.Ledger.Operations
import CcbCore.Library.Pointers

/-!
# Supersession

An assignment that is superseded points to the one that it is superseded by. The trigger
refuses an assignment that names itself, or one that is not there; it does not follow
the pointers. So a transition keeps them ending exactly when the assignment that it
names does not lead back (`Step.acyclic_iff`), in a run of such steps they end
(`supersession_acyclic`), and two drafts may supersede each other (`supersession_cycle`).
-/

namespace CcbCore.Ledger

open CcbCore.Pointers CcbCore.Raising

/-- `superseded_by_assignment_id` of an assignment. -/
def Database.supersededBy (db : Database) (id : String) : Option String :=
  (db.select (some id)).bind (·.supersededByAssignmentId)

/-- Whatever assignment is superseded, the assignments that supersede it end. -/
def Database.Acyclic (db : Database) : Prop := ∀ id, Ends db.supersededBy id

/-- A transition that supersedes an assignment names one that does not lead back to it. -/
def Call.LeadsAway (s : System) : Call → Prop
  | .write p => p.call.transitionTypeId = "SUPERSEDE" →
    ∀ t ∈ p.call.targetAssignmentId, ¬ Reaches s.database.supersededBy t p.call.assignmentId
  | _ => True

/-- What an assignment is superseded by, its events say. -/
theorem Database.Sound.supersededBy {db : Database} (h : db.Sound) (id : String) :
    db.supersededBy id = (replay (db.chain (some id))).supersededByAssignmentId := by
  cases hchain : db.select (some id) with
  | some a =>
    have ha := List.mem_of_find?_eq_some hchain
    have hid := List.find?_some (p := fun a : Assignment => decide (Sql.equals a.assignmentId (some id)).Holds) hchain
    rw [Database.supersededBy, hchain, ← equals_some_iff.mp (of_decide_eq_true hid), ← h.projected a ha]
    rfl
  | none =>
    rw [Database.supersededBy, hchain, h.chain_eq_nil]
    · rfl
    · intro a ha hid
      exact List.find?_eq_none.mp hchain a ha (decide_eq_true hid)

/-- The projections are those of the events. -/
theorem supersededBy_of_events {db db' : Database} (h : db.Sound) (h' : db'.Sound) (hevents : db'.events = db.events) :
    db'.supersededBy = db.supersededBy := by
  funext id
  rw [h.supersededBy, h'.supersededBy, Database.chain, Database.chain, hevents]

/-- A superseding event points from its assignment to its target; another changes no pointer. -/
theorem Appended.supersededBy {db db' : Database} (h : db.Sound) {new : NewEvent} {a : Assignment} {e : Event}
    (happ : Appended db new a e db') : db'.supersededBy =
      if e.transitionTypeId = "SUPERSEDE" then Function.update db.supersededBy e.assignmentId e.targetAssignmentId
      else db.supersededBy := by
  funext id
  rw [(happ.sound h).supersededBy, happ.chain]
  by_cases hid : e.assignmentId = id
  · subst hid
    by_cases htype : e.transitionTypeId = "SUPERSEDE"
    · simp [htype, Projection.apply]
    · simp [htype, Projection.apply, h.supersededBy]
  · by_cases htype : e.transitionTypeId = "SUPERSEDE"
    · simp [htype, hid, Ne.symm hid, h.supersededBy]
    · simp [htype, hid, h.supersededBy]

/-- What a written transition names. -/
theorem Appended.call {db db' : Database} {p : Pending} {a : Assignment} {e : Event} (happ : Appended db p.new a e db') :
    e.assignmentId = p.call.assignmentId ∧ e.transitionTypeId = p.call.transitionTypeId ∧
      e.targetAssignmentId = p.call.targetAssignmentId := by
  have hnew := (row_eq_some.mp happ.row).2
  simp only [Pending.new, Event.toNew, NewEvent.mk.injEq, Option.some.injEq] at hnew
  obtain ⟨-, hid, htype, -, -, -, -, -, -, htarget, -⟩ := hnew
  exact ⟨hid.symm, htype.symm, htarget.symm⟩

/-- **A step that returns keeps the pointers ending exactly when the assignment that it names
does not lead back.** -/
theorem Step.acyclic_iff {s t : System} {call : Call} (h : s.database.Sound) (hacyclic : s.database.Acyclic)
    (hstep : Step s (call, none) t) : t.database.Acyclic ↔ call.LeadsAway s := by
  cases hstep with
  | @returned _ added db hready hrun =>
    obtain ⟨hsound, -⟩ := perform_sound h hrun
    -- only a transition that is written changes an event
    have hother (hevents : db.events = s.database.events) : db.Acyclic := by
      rw [Database.Acyclic, supersededBy_of_events h hsound hevents]
      exact hacyclic
    cases call with
    | create call =>
      obtain ⟨_, u, hcreate, hreturn⟩ := run_bind_ok.mp hrun
      obtain rfl := (run_pure_ok.mp hreturn).2
      exact iff_of_true (hother (createAssignment_ok h hcreate).2) trivial
    | read call =>
      obtain ⟨p, u, hread, hreturn⟩ := run_bind_ok.mp hrun
      obtain rfl := (run_pure_ok.mp hreturn).2
      exact iff_of_true (hother (by rw [(readTransition_readOnly call).state_eq hread])) trivial
    | record call =>
      obtain ⟨receiptId, u, hrecord, hreturn⟩ := run_bind_ok.mp hrun
      obtain rfl := (run_pure_ok.mp hreturn).2
      exact iff_of_true (hother (by rw [recordFinalAcceptance_ok hrecord])) trivial
    | write p =>
      obtain ⟨eventId, u, hwrite, hreturn⟩ := run_bind_ok.mp hrun
      obtain rfl := (run_pure_ok.mp hreturn).2
      obtain ⟨a, e, -, happ⟩ := writeTransition_ok h hwrite
      obtain ⟨hid, htype, htarget⟩ := happ.call
      rw [Database.Acyclic, happ.supersededBy h, Call.LeadsAway, ← hid, ← htype, ← htarget]
      by_cases hsupersede : e.transitionTypeId = "SUPERSEDE"
      · obtain ⟨target, ht, -⟩ := happ.validated.supersede hsupersede
        rw [if_pos hsupersede, ht, ends_update_iff hacyclic]
        simp [hsupersede]
      · rw [if_neg hsupersede]
        exact iff_of_true hacyclic fun h => absurd h hsupersede

/-- A step of a run in which every transition that is written leads away. -/
def AwayStep (s : System) (label : Call × Option LedgerFailure) (t : System) : Prop :=
  Step s label t ∧ (label.2 = none → label.1.LeadsAway s)

/-- **Where every written transition that supersedes an assignment names one that does not
lead back to it, following what assignments are superseded by ends, and none is superseded
by itself.** -/
theorem supersession_acyclic {labels : List (Call × Option LedgerFailure)} {s : System}
    (h : Run AwayStep .start labels s) :
    ∀ id, Ends s.database.supersededBy id ∧ ¬ Cycle s.database.supersededBy id := by
  have hinv : s.database.Sound ∧ s.database.Acyclic := by
    refine h.invariant (P := fun s => s.database.Sound ∧ s.database.Acyclic) ?_ ⟨empty_sound, fun id => .last rfl⟩
    rintro s ⟨call, failure⟩ t ⟨hsound, hacyclic⟩ ⟨hstep, haway⟩
    refine ⟨(hstep.sound hsound).1, ?_⟩
    cases failure with
    | none => exact (hstep.acyclic_iff hsound hacyclic).mpr (haway rfl)
    | some failure =>
      rw [hstep.unchanged (.inl (by simp))]
      exact hacyclic
  exact fun id => ⟨hinv.2 id, (hinv.2 id).not_cycle⟩

/-! ### Runs -/

/-- Two drafts. -/
def twoDrafts : System := (played ["A", "B"] []).getD .start

/-- The first of two drafts is to be superseded by the second. -/
def supersede : Pending where
  call := transition "A" "SUPERSEDE" .coordinator (some "B")
  snapshot := {
    toProjection := .start
    rowid := 1
    assignmentId := some "A"
    workflowId := "WF"
    architectureMode := .nativeMultiAgent
    createdAtMs := 1 }
  rule := ⟨"SUPERSEDE", .drafted, .superseded, .coordinator, .supersede⟩

/-- Two drafts, of which the first is superseded by the second. -/
def supersededOnce : System := ((Call.write supersede).after { twoDrafts with pending := [supersede] }).getD .start

theorem supersession_acyclic_once : supersededOnce.database.supersededBy "A" = some "B" ∧
    ∀ id, Ends supersededOnce.database.supersededBy id := by
  have hfirst : Step .start (created "A", none) (((created "A").after .start).getD .start) :=
    after_step trivial (by decide +kernel)
  have hsecond : Step (((created "A").after .start).getD .start) (created "B", none) twoDrafts :=
    after_step trivial (by decide +kernel)
  have hread : Step twoDrafts (.read supersede.call, none) { twoDrafts with pending := [supersede] } :=
    after_step trivial (by decide +kernel)
  have hwrite : Step { twoDrafts with pending := [supersede] } (.write supersede, none) supersededOnce :=
    after_step (show supersede ∈ [supersede] from List.mem_singleton_self _) (by decide +kernel)
  have haway : (Call.write supersede).LeadsAway { twoDrafts with pending := [supersede] } := by
    rintro - t ht hreach
    obtain rfl := Option.some.inj ht
    obtain heq | ⟨x, hx, -⟩ := Relation.ReflTransGen.cases_head hreach
    · exact absurd heq (by decide)
    · have hnone : twoDrafts.database.supersededBy "B" = none := by decide +kernel
      exact absurd (hnone.symm.trans hx) (by simp)
  have hrun : Run AwayStep .start [(created "A", none), (created "B", none), (.read supersede.call, none),
      (.write supersede, none)] supersededOnce :=
    .cons ⟨hfirst, fun _ => trivial⟩ (.cons ⟨hsecond, fun _ => trivial⟩ (.cons ⟨hread, fun _ => trivial⟩
      (.single ⟨hwrite, fun _ => haway⟩)))
  exact ⟨by decide +kernel, fun id => (supersession_acyclic hrun id).1⟩

/-- Two drafts that are superseded by each other. -/
def supersededTwice : System :=
  (played ["A", "B"] [transition "A" "SUPERSEDE" .coordinator (some "B"),
    transition "B" "SUPERSEDE" .coordinator (some "A")]).getD .start

/-- **The second of two drafts may be superseded by the first, which it supersedes.** -/
theorem supersession_cycle : ∃ labels s, Run Step .start labels s ∧ Cycle s.database.supersededBy "A" := by
  have hplayed : played ["A", "B"] [transition "A" "SUPERSEDE" .coordinator (some "B"),
      transition "B" "SUPERSEDE" .coordinator (some "A")] = some supersededTwice := by decide +kernel
  obtain ⟨labels, hrun⟩ := played_run hplayed
  have hab : supersededTwice.database.supersededBy "A" = some "B" := by decide +kernel
  have hba : supersededTwice.database.supersededBy "B" = some "A" := by decide +kernel
  exact ⟨labels, supersededTwice, hrun, .head hab (.single hba)⟩

end CcbCore.Ledger
