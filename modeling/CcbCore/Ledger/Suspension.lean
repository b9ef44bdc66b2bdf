import CcbCore.Ledger.Immutability

/-!
# Pauses and interrupts are brackets

Whatever transitions the schema accepts on an assignment that starts at `DRAFTED`, its
four columns are a state with the states suspended under it, as its events move them
(`Projection.machine`, `Event.move`). So a resume or a recovery goes back to the state
that the pause or the interrupt it closes was taken in, what was taken since has been
closed in between, and an assignment that ends keeps nothing (`suspension_brackets`).
-/

namespace CcbCore.Ledger

open CcbCore.Brackets CcbCore.Raising

/-- The row operation inserts an event, or an assignment at `DRAFTED`. -/
def RowOperation.IsTransition : RowOperation → Prop
  | .insertEvent _ _ => True
  | .insertAssignment _ _ new => new.currentState = some .drafted ∧ new.currentTransitionEventId = none
  | _ => False

/-- A transition, or a new assignment, that the schema accepts. -/
def TransitionStep (db : Database) (op : RowOperation) (db' : Database) : Prop :=
  Accepts db [op] db' ∧ op.IsTransition

theorem TransitionStep.covered {db db' : Database} {op : RowOperation} (h : TransitionStep db op db') :
    CoveredStep db [op] db' := by
  refine ⟨h.1, ?_, fun _ _ => trivial⟩
  cases op with
  | insertEvent policy new => trivial
  | insertAssignment policy rowid new => exact start_inserted h.2.1 h.2.2
  | updateAssignment policy rowid rowid' new => exact h.2.elim
  | deleteAssignment rowid => exact h.2.elim
  | updateEvent policy eventId new => exact h.2.elim
  | deleteEvent eventId => exact h.2.elim

theorem transitions_sound {ops : List RowOperation} {db : Database} (h : Run TransitionStep .empty ops db) : db.Sound :=
  h.invariant (fun _ _ _ hs hstep => (hstep.covered.sound hs).1) empty_sound

theorem move_suspend {e : Event} {kind : Suspension} {next : State} (h : e.move = .suspend kind next) :
    next = e.toState := by
  unfold Event.move at h
  split at h <;> cases h <;> rfl

/-- A resume in a chain goes back to the state that its bracket was taken in. -/
theorem Chain.resumed {pre post : List Event} {e : Event} {kind : Suspension} (h : Chain (pre ++ e :: post))
    (he : e.move = .resume kind) :
    ∃ before b since, pre = before ++ b :: since ∧ Balanced (since.map Event.move) ∧
      b.move = .suspend kind b.toState ∧ e.toState = b.fromState := by
  obtain ⟨hchain, hlegal⟩ := h.legal
  have hrun := (hchain.snoc hlegal).simulates.2
  rw [List.map_append, List.map_singleton, he] at hrun
  obtain ⟨moves, next, since', hmoves, hbalanced, hbefore⟩ := Machine.matching rfl hrun
  obtain ⟨before, rest, rfl, rfl, hrest⟩ := List.map_eq_append_iff.mp hmoves
  obtain ⟨b, since, rfl, hb, rfl⟩ := List.map_eq_cons_iff.mp hrest
  obtain ⟨hchain', hlegal'⟩ := hchain.legal
  refine ⟨before, b, since, rfl, hbalanced, ?_, ?_⟩
  · rw [← move_suspend hb]
    exact hb
  · rw [hchain'.simulates.2] at hbefore
    have hstate := congrArg Machine.state (Option.some.inj hbefore)
    rw [replay_snoc] at hstate
    exact hstate.symm.trans hlegal'.state.symm

/-- **The columns of an assignment keep a stack, which is the one that its events make; every resume and
recovery goes back to the state in which the bracket it closes was opened; and a state that
ends the assignment keeps nothing.** -/
theorem suspension_brackets {ops : List RowOperation} {db : Database} (h : Run TransitionStep .empty ops db) :
    ∀ a ∈ db.assignments, a.toProjection.Bracketed ∧
      Projection.start.machine.run ((db.chain a.assignmentId).map Event.move) = some a.toProjection.machine ∧
      (∀ pre e post kind, db.chain a.assignmentId = pre ++ e :: post → e.move = .resume kind →
        ∃ before b since, pre = before ++ b :: since ∧ Balanced (since.map Event.move) ∧
          b.move = .suspend kind b.toState ∧ e.toState = b.fromState) ∧
      (a.currentState.Terminal → a.prePauseState = none ∧ a.preInterruptState = none ∧ a.nestedPauseState = none) := by
  intro a ha
  have hsound := transitions_sound h
  have hchain := hsound.chains a.assignmentId
  have hproj := hsound.projected a ha
  refine ⟨hproj ▸ hchain.simulates.1, hproj ▸ hchain.simulates.2, ?_, ?_⟩
  · intro pre e post kind hsplit he
    rw [hsplit] at hchain
    exact hchain.resumed he
  · intro hterminal
    have hplain : a.currentState.Plain := by
      rcases hterminal with hs | hs | hs <;> rw [hs] <;> decide
    exact (hproj ▸ hchain.simulates.1).of_plain hplain

/-! ### A run -/

/-- The event of a rule, after the events before it. -/
def nextEvent (id : String) (n : ℕ) (type : String) : NewEvent where
  eventId := none
  assignmentId := some id
  transitionTypeId := some type
  actor := (ruleOf type).map (·.actor)
  fromState := (ruleOf type).map (·.fromState)
  toState := (ruleOf type).map (·.toState)
  predecessorEventId := if n = 0 then none else some n
  operationId := some type
  receiptSha256 := some (String.ofList (List.replicate 64 'c'))
  targetAssignmentId := none
  createdAtMs := some 1

/-- An assignment with the events of rules. -/
def transitions (id : String) (types : List String) : List RowOperation :=
  .insertAssignment .abort none (draft (some id)) :: types.mapIdx fun n type => .insertEvent .abort (nextEvent id n type)

theorem run_transitions {ops : List RowOperation} {db db' : Database} (hops : ∀ op ∈ ops, op.IsTransition)
    (h : play (ops.map ([·])) db = some db') : Run TransitionStep db ops db' := by
  unfold play at h
  split at h
  · rename_i hrun
    obtain rfl := Option.some.inj h
    clear h
    induction ops generalizing db with
    | nil =>
      obtain rfl := run_forM_nil.mp hrun
      exact .nil
    | cons op ops ih =>
      obtain ⟨u, hop, hrest⟩ := run_forM_cons.mp hrun
      exact .cons ⟨hop, hops op (by simp)⟩ (ih (fun op hmem => hops op (by simp [hmem])) hrest)
  · cases h

/-- Work that is paused in review, interrupted, recovered and resumed. -/
def interruptedWork : List RowOperation :=
  transitions "A" ["ASSIGN", "ACKNOWLEDGE", "START", "REQUEST_REVIEW", "PAUSE_FROM_REVIEW_PENDING",
    "INTERRUPT_FROM_PAUSED", "RECOVER_TO_PAUSED", "RESUME_TO_REVIEW_PENDING"]

/-- The tables after it. -/
def interruptedDatabase : Database := (play (interruptedWork.map ([·])) .empty).getD .empty

theorem suspension_brackets_interrupted :
    (∃ a ∈ interruptedDatabase.assignments, a.currentState = .reviewPending) ∧
      ∀ a ∈ interruptedDatabase.assignments, a.toProjection.Bracketed := by
  have hplay : play (interruptedWork.map ([·])) .empty = some interruptedDatabase := by decide +kernel
  have hrun := run_transitions (by simp [interruptedWork, transitions, RowOperation.IsTransition, draft]) hplay
  exact ⟨by decide +kernel, fun a ha => (suspension_brackets hrun a ha).1⟩

end CcbCore.Ledger
