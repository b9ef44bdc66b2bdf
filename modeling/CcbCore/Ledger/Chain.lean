import CcbCore.Ledger.Statements
import CcbCore.Library.Brackets

/-!
# The chain of an assignment's events

`replay` projects events, in order, onto an assignment that has none. An event is
`Legal` after a projection when it is a transition of the rules from its state, after
its event; events are a `Chain` when each is legal after the ones before it. What the
columns of a projection keep of what was paused and interrupted is a stack of suspended
states (`Projection.machine`), and a legal event is a move of it (`Legal.simulates`).
So the projection of a chain passes the table's `CHECK`s (`Chain.checks`).
-/

namespace CcbCore.Ledger

open CcbCore.Sql CcbCore.Brackets

/-- The projection of no events. -/
def Projection.start : Projection := ⟨.drafted, none, none, none, none, none⟩

/-- The projection of events, in order. -/
def replay (events : List Event) : Projection := events.foldl Projection.apply .start

@[simp] theorem replay_nil : replay [] = .start := rfl

@[simp] theorem replay_snoc (es : List Event) (e : Event) : replay (es ++ [e]) = (replay es).apply e := by
  simp [replay]

@[simp] theorem Projection.apply_currentState (p : Projection) (e : Event) : (p.apply e).currentState = e.toState := rfl

@[simp] theorem Projection.apply_currentTransitionEventId (p : Projection) (e : Event) :
    (p.apply e).currentTransitionEventId = some e.eventId := rfl

/-- The last event of a replay is the current one. -/
theorem replay_currentTransitionEventId (es : List Event) :
    (replay es).currentTransitionEventId = es.getLast?.map (·.eventId) := by
  induction es using List.reverseRecOn with
  | nil => rfl
  | append_singleton es e ih => simp

theorem replay_currentState (es : List Event) :
    (replay es).currentState = (es.getLast?.map (·.toState)).getD .drafted := by
  induction es using List.reverseRecOn with
  | nil => rfl
  | append_singleton es e ih => simp

/-- What an assignment is superseded by, an event of it names. -/
theorem replay_superseded {es : List Event} {id : String} (h : (replay es).supersededByAssignmentId = some id) :
    ∃ e ∈ es, e.targetAssignmentId = some id := by
  induction es using List.reverseRecOn with
  | nil => simp [Projection.start] at h
  | append_singleton es e ih =>
    by_cases htype : e.transitionTypeId = "SUPERSEDE"
    · exact ⟨e, by simp, by simpa [Projection.apply, htype] using h⟩
    · obtain ⟨e', he', htarget⟩ := ih (by simpa [Projection.apply, htype] using h)
      exact ⟨e', by simp [he'], htarget⟩

/-! ### Legal events -/

/-- An event is a transition of the rules, from what the projection is. -/
structure Legal (p : Projection) (e : Event) : Prop where
  rule : ∃ r ∈ transitionRules, r.transitionTypeId = e.transitionTypeId ∧ r.fromState = e.fromState ∧
    r.toState = e.toState ∧ r.actor = e.actor
  state : e.fromState = p.currentState
  predecessor : e.predecessorEventId = p.currentTransitionEventId
  supersede : e.transitionTypeId = "SUPERSEDE" → ∃ t, e.targetAssignmentId = some t ∧ t ≠ e.assignmentId
  noTarget : e.transitionTypeId ≠ "SUPERSEDE" → e.targetAssignmentId = none
  resume : contextActionOf e.transitionTypeId = some .resumePause → ∀ s ∈ p.prePauseState, e.toState = s
  recover : contextActionOf e.transitionTypeId = some .recoverInterrupt → ∀ s ∈ p.preInterruptState, e.toState = s

/-- Events of which each is legal after the ones before it. -/
inductive Chain : List Event → Prop where
  | nil : Chain []
  | snoc {es : List Event} {e : Event} : Chain es → Legal (replay es) e → Chain (es ++ [e])

theorem chain_snoc {es : List Event} {e : Event} : Chain (es ++ [e]) ↔ Chain es ∧ Legal (replay es) e := by
  constructor
  · intro h
    generalize hes : es ++ [e] = l at h
    cases h with
    | nil => simp at hes
    | snoc hchain hlegal =>
      obtain ⟨rfl, he⟩ := List.append_inj' hes rfl
      obtain rfl := by simpa using he
      exact ⟨hchain, hlegal⟩
  · rintro ⟨hchain, hlegal⟩
    exact hchain.snoc hlegal

/-- Every event of a chain is legal after the ones before it. -/
theorem Chain.legal {es fs : List Event} {e : Event} (h : Chain (es ++ e :: fs)) : Chain es ∧ Legal (replay es) e := by
  induction fs using List.reverseRecOn with
  | nil => exact chain_snoc.mp h
  | append_singleton fs f ih =>
    rw [← List.cons_append, ← List.append_assoc] at h
    exact ih (chain_snoc.mp h).1

/-! ### The rules -/

/-- The states in which work is paused or interrupted. -/
def State.Active (s : State) : Prop := s = .acknowledged ∨ s = .running ∨ s = .reviewPending

/-- The listed states other than the two of suspended work. -/
def State.Plain (s : State) : Prop := s.Listed ∧ s ≠ .pausedUsageExhausted ∧ s ≠ .interrupted

/-- The states that no rule leaves. -/
def State.Terminal (s : State) : Prop := s = .confirmed ∨ s = .stopped ∨ s = .superseded

instance : DecidablePred State.Active := fun _ => inferInstanceAs (Decidable (_ ∨ _))

instance : DecidablePred State.Plain := fun _ => inferInstanceAs (Decidable (_ ∧ _))

instance : DecidablePred State.Terminal := fun _ => inferInstanceAs (Decidable (_ ∨ _))

/-- The states that a context action is between. -/
def ContextAction.Between : ContextAction → State → State → Prop
  | .none, s, t => s.Plain ∧ t.Plain
  | .setPause, s, t => s.Active ∧ t = .pausedUsageExhausted
  | .resumePause, s, t => s = .pausedUsageExhausted ∧ t.Active
  | .setInterrupt, s, t => s.Active ∧ t = .interrupted
  | .setInterruptFromPause, s, t => s = .pausedUsageExhausted ∧ t = .interrupted
  | .recoverInterrupt, s, t => s = .interrupted ∧ (t.Active ∨ t = .pausedUsageExhausted)
  | .clearContext, _, t => t.Plain
  | .supersede, _, t => t.Plain

instance (action : ContextAction) (s t : State) : Decidable (action.Between s t) := by
  cases action <;> simp only [ContextAction.Between] <;> infer_instance

theorem rule_between : ∀ r ∈ transitionRules, r.contextAction.Between r.fromState r.toState := by decide

theorem ruleOf_rule : ∀ r ∈ transitionRules, ruleOf r.transitionTypeId = some r := by decide

theorem rule_leaves : ∀ r ∈ transitionRules, ¬ r.fromState.Terminal := by decide

theorem rule_supersede : ∀ r ∈ transitionRules, r.toState = .superseded ↔ r.transitionTypeId = "SUPERSEDE" := by
  decide

/-- The rule of a legal event. -/
theorem Legal.ruleOf {p : Projection} {e : Event} (h : Legal p e) :
    ∃ r ∈ transitionRules, contextActionOf e.transitionTypeId = some r.contextAction ∧
      r.transitionTypeId = e.transitionTypeId ∧ r.fromState = p.currentState ∧ r.toState = e.toState := by
  obtain ⟨r, hr, htype, hfrom, hto, -⟩ := h.rule
  refine ⟨r, hr, ?_, htype, hfrom.trans h.state, hto⟩
  rw [contextActionOf, ← htype, ruleOf_rule r hr]
  rfl

theorem Legal.not_terminal {p : Projection} {e : Event} (h : Legal p e) : ¬ p.currentState.Terminal := by
  obtain ⟨r, hr, -, -, hfrom, -⟩ := h.ruleOf
  rw [← hfrom]
  exact rule_leaves r hr

/-! ### The stack of suspended states -/

/-- What a state is suspended for. -/
inductive Suspension where
  | pause
  | interrupt
  deriving DecidableEq, Repr

/-- What an event asks of the stack of suspended states. -/
def Event.move (e : Event) : Move Suspension State :=
  match contextActionOf e.transitionTypeId with
  | some .setPause => .suspend .pause e.toState
  | some .setInterrupt => .suspend .interrupt e.toState
  | some .setInterruptFromPause => .suspend .interrupt e.toState
  | some .resumePause => .resume .pause
  | some .recoverInterrupt => .resume .interrupt
  | some .clearContext => .finish e.toState
  | some .supersede => .finish e.toState
  | some .none => .go e.toState
  | none => .go e.toState

/-- The stack that the columns of a projection keep. -/
def Projection.suspended (p : Projection) : List (Suspension × State) :=
  match p.preInterruptState with
  | some s => (.interrupt, s) :: (p.nestedPauseState.map (.pause, ·)).toList
  | none => (p.prePauseState.map (.pause, ·)).toList

/-- A projection, as a state with those suspended. -/
def Projection.machine (p : Projection) : Machine Suspension State := ⟨p.currentState, p.suspended⟩

/-- What the columns of a projection can keep. -/
inductive Projection.Bracketed (p : Projection) : Prop where
  | plain : p.currentState.Plain → p.prePauseState = none → p.preInterruptState = none →
      p.nestedPauseState = none → Bracketed p
  | paused (s : State) : s.Active → p.currentState = .pausedUsageExhausted → p.prePauseState = some s →
      p.preInterruptState = none → p.nestedPauseState = none → Bracketed p
  | interrupted (s : State) : s.Active → p.currentState = .interrupted → p.prePauseState = none →
      p.preInterruptState = some s → p.nestedPauseState = none → Bracketed p
  | nested (s : State) : s.Active → p.currentState = .interrupted → p.prePauseState = none →
      p.preInterruptState = some .pausedUsageExhausted → p.nestedPauseState = some s → Bracketed p

theorem State.Active.ne {s : State} (h : s.Active) : s ≠ .pausedUsageExhausted ∧ s ≠ .interrupted := by
  rcases h with rfl | rfl | rfl <;> simp

theorem State.Active.plain {s : State} (h : s.Active) : s.Plain := by
  rcases h with rfl | rfl | rfl <;> decide

theorem start_bracketed : Projection.start.Bracketed := .plain (by decide) rfl rfl rfl

namespace Projection.Bracketed

variable {p : Projection}

theorem of_plain (h : p.Bracketed) (hs : p.currentState.Plain) :
    p.prePauseState = none ∧ p.preInterruptState = none ∧ p.nestedPauseState = none := by
  cases h with
  | plain _ h₁ h₂ h₃ => exact ⟨h₁, h₂, h₃⟩
  | paused s _ hstate => exact absurd hstate hs.2.1
  | interrupted s _ hstate => exact absurd hstate hs.2.2
  | nested s _ hstate => exact absurd hstate hs.2.2

theorem of_paused (h : p.Bracketed) (hs : p.currentState = .pausedUsageExhausted) :
    ∃ s : State, s.Active ∧ p.prePauseState = some s ∧ p.preInterruptState = none ∧ p.nestedPauseState = none := by
  cases h with
  | plain hplain => exact absurd hs hplain.2.1
  | paused s hactive _ h₁ h₂ h₃ => exact ⟨s, hactive, h₁, h₂, h₃⟩
  | interrupted s _ hstate => simp [hs] at hstate
  | nested s _ hstate => simp [hs] at hstate

theorem of_interrupted (h : p.Bracketed) (hs : p.currentState = .interrupted) :
    ∃ s : State, s.Active ∧ p.prePauseState = none ∧
      (p.preInterruptState = some s ∧ p.nestedPauseState = none ∨
        p.preInterruptState = some .pausedUsageExhausted ∧ p.nestedPauseState = some s) := by
  cases h with
  | plain hplain => exact absurd hs hplain.2.2
  | paused s _ hstate => simp [hs] at hstate
  | interrupted s hactive _ h₁ h₂ h₃ => exact ⟨s, hactive, h₁, .inl ⟨h₂, h₃⟩⟩
  | nested s hactive _ h₁ h₂ h₃ => exact ⟨s, hactive, h₁, .inr ⟨h₂, h₃⟩⟩

/-- The `CHECK`s on the suspension columns. -/
theorem checks (h : p.Bracketed) :
    p.currentState.Listed ∧ (p.currentState = .pausedUsageExhausted ↔ p.prePauseState ≠ none) ∧
      (p.currentState = .interrupted ↔ p.preInterruptState ≠ none) ∧
      (p.nestedPauseState = none ∨ p.currentState = .interrupted ∧
        (p.preInterruptState = none ∨ p.preInterruptState = some .pausedUsageExhausted)) := by
  cases h with
  | plain hplain h₁ h₂ h₃ => exact ⟨hplain.1, by simp [h₁, hplain.2.1], by simp [h₂, hplain.2.2], .inl h₃⟩
  | paused s _ hstate h₁ h₂ h₃ => simp [hstate, h₁, h₂, h₃, State.Listed]
  | interrupted s _ hstate h₁ h₂ h₃ => simp [hstate, h₁, h₂, h₃, State.Listed]
  | nested s _ hstate h₁ h₂ h₃ => simp [hstate, h₁, h₂, h₃, State.Listed]

end Projection.Bracketed

/-- **A legal event keeps the columns a stack, and is the move of the stack that its context
action names.** -/
theorem Legal.simulates {p : Projection} {e : Event} (h : Legal p e) (hp : p.Bracketed) :
    (p.apply e).Bracketed ∧ p.machine.step e.move = some (p.apply e).machine := by
  obtain ⟨r, hr, haction, -, hfrom, hto⟩ := h.ruleOf
  have hbetween := rule_between r hr
  rw [hfrom, hto] at hbetween
  have hstate := h.state
  cases hcase : r.contextAction with
  | none =>
    rw [hcase] at haction hbetween
    obtain ⟨h₁, h₂, h₃⟩ := hp.of_plain hbetween.1
    constructor
    · exact .plain hbetween.2 (by simp [Projection.apply, haction]) (by simp [Projection.apply, haction])
        (by simp [Projection.apply, haction])
    · simp [Event.move, haction, Machine.step, Projection.machine, Projection.suspended, Projection.apply, h₁, h₂]
  | setPause =>
    rw [hcase] at haction hbetween
    obtain ⟨h₁, h₂, h₃⟩ := hp.of_plain hbetween.1.plain
    constructor
    · exact .paused p.currentState hbetween.1 hbetween.2 (by simp [Projection.apply, haction, hstate])
        (by simp [Projection.apply, haction]) (by simp [Projection.apply, haction])
    · simp [Event.move, haction, Machine.step, Projection.machine, Projection.suspended, Projection.apply, h₁, h₂,
        hstate]
  | resumePause =>
    rw [hcase] at haction hbetween
    obtain ⟨s, hs, h₁, h₂, h₃⟩ := hp.of_paused hbetween.1
    obtain rfl := h.resume haction s h₁
    constructor
    · exact .plain hbetween.2.plain (by simp [Projection.apply, haction]) (by simp [Projection.apply, haction])
        (by simp [Projection.apply, haction])
    · simp [Event.move, haction, Machine.step, Projection.machine, Projection.suspended, Projection.apply, h₁, h₂]
  | setInterrupt =>
    rw [hcase] at haction hbetween
    obtain ⟨h₁, h₂, h₃⟩ := hp.of_plain hbetween.1.plain
    constructor
    · exact .interrupted p.currentState hbetween.1 hbetween.2 (by simp [Projection.apply, haction])
        (by simp [Projection.apply, haction, hstate]) (by simp [Projection.apply, haction])
    · simp [Event.move, haction, Machine.step, Projection.machine, Projection.suspended, Projection.apply, h₁, h₂,
        hstate]
  | setInterruptFromPause =>
    rw [hcase] at haction hbetween
    obtain ⟨s, hs, h₁, h₂, h₃⟩ := hp.of_paused hbetween.1
    constructor
    · exact .nested s hs hbetween.2 (by simp [Projection.apply, haction]) (by simp [Projection.apply, haction])
        (by simp [Projection.apply, haction, h₁])
    · simp [Event.move, haction, Machine.step, Projection.machine, Projection.suspended, Projection.apply, h₁, h₂,
        hbetween.1]
  | recoverInterrupt =>
    rw [hcase] at haction hbetween
    obtain ⟨s, hs, h₁, ⟨h₂, h₃⟩ | ⟨h₂, h₃⟩⟩ := hp.of_interrupted hbetween.1
    -- the interrupt was taken in work, or while paused
    · obtain rfl := h.recover haction s h₂
      constructor
      · exact .plain hs.plain (by simp [Projection.apply, haction, h₂, hs.ne.1]) (by simp [Projection.apply, haction])
          (by simp [Projection.apply, haction])
      · simp [Event.move, haction, Machine.step, Projection.machine, Projection.suspended, Projection.apply, h₂, h₃]
    · have hpaused := h.recover haction _ h₂
      constructor
      · exact .paused s hs hpaused (by simp [Projection.apply, haction, h₂, h₃]) (by simp [Projection.apply, haction])
          (by simp [Projection.apply, haction])
      · simp [Event.move, haction, Machine.step, Projection.machine, Projection.suspended, Projection.apply, h₂, h₃,
          hpaused]
  | clearContext =>
    rw [hcase] at haction hbetween
    constructor
    · exact .plain hbetween (by simp [Projection.apply, haction]) (by simp [Projection.apply, haction])
        (by simp [Projection.apply, haction])
    · simp [Event.move, haction, Machine.step, Projection.machine, Projection.suspended, Projection.apply]
  | supersede =>
    rw [hcase] at haction hbetween
    constructor
    · exact .plain hbetween (by simp [Projection.apply, haction]) (by simp [Projection.apply, haction])
        (by simp [Projection.apply, haction])
    · simp [Event.move, haction, Machine.step, Projection.machine, Projection.suspended, Projection.apply]

/-- The columns of a chain's projection are the stack that its moves leave. -/
theorem Chain.simulates {es : List Event} (h : Chain es) :
    (replay es).Bracketed ∧ Projection.start.machine.run (es.map Event.move) = some (replay es).machine := by
  induction h with
  | nil => exact ⟨start_bracketed, rfl⟩
  | @snoc es e _ hlegal ih =>
    obtain ⟨hbracketed, hstep⟩ := hlegal.simulates ih.1
    refine ⟨by simpa using hbracketed, ?_⟩
    rw [List.map_append, List.map_singleton, Machine.run_snoc_eq_some]
    exact ⟨_, ih.2, by simpa using hstep⟩

/-- An assignment is superseded where its projection names what by. -/
theorem Chain.superseded {es : List Event} (h : Chain es) :
    (replay es).supersededByAssignmentId ≠ none ↔ (replay es).currentState = .superseded := by
  induction h with
  | nil => simp [Projection.start]
  | @snoc es e _ hlegal ih =>
    obtain ⟨r, hr, -, htype, -, hto⟩ := hlegal.ruleOf
    have hsupersede := rule_supersede r hr
    rw [htype, hto] at hsupersede
    rw [replay_snoc, Projection.apply_currentState, hsupersede]
    by_cases hcase : e.transitionTypeId = "SUPERSEDE"
    · obtain ⟨t, ht, -⟩ := hlegal.supersede hcase
      simp [Projection.apply, hcase, ht]
    · have hbefore : (replay es).currentState ≠ .superseded :=
        fun hstate => hlegal.not_terminal (.inr (.inr hstate))
      simp only [Projection.apply, hcase, if_false, iff_false]
      exact fun hsome => hbefore (ih.mp hsome)

/-- The projection of a chain passes the `CHECK`s. -/
theorem Chain.checks {es : List Event} (h : Chain es) : (replay es).Checks := by
  obtain ⟨hlisted, hpause, hinterrupt, hnested⟩ := h.simulates.1.checks
  refine ⟨hlisted, hpause, hinterrupt, hnested, ?_⟩
  by_cases hnone : (replay es).supersededByAssignmentId = none
  · exact .inl hnone
  · exact .inr (h.superseded.mp hnone)

/-- A projection that a chain ends with in a terminal state is the chain's last. -/
theorem Chain.terminal {es fs : List Event} (h : Chain (es ++ fs)) (hterminal : (replay es).currentState.Terminal) :
    fs = [] := by
  cases fs with
  | nil => rfl
  | cons f fs => exact absurd hterminal h.legal.2.not_terminal

end CcbCore.Ledger
