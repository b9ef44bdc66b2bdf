import CcbCore.Ledger.Chain
import Mathlib.Data.List.Nodup

/-!
# What the schema keeps

A database is `Sound` when the events of each assignment, in the order they were
inserted, are a chain, and the columns of the assignment are their projection. The
operations that the triggers and the foreign keys leave keep it: an event is not
deleted while it is in a chain (`deleteEvent_refused`), an assignment is not while it
has events (`deleteAssignment_ok`), and a row is updated by the event it is bound to
and by no other (`updateAssignment_ok`), which is the one just inserted (`insertEvent_ok`).
-/

namespace CcbCore.Ledger

open CcbCore.Sql CcbCore.Raising

/-- The events of an assignment, in the order they were inserted. -/
def Database.chain (db : Database) (id : Option String) : List Event :=
  db.events.filter fun e => some e.assignmentId = id

/-- Every assignment is what its events say, and they are a chain. -/
structure Database.Sound (db : Database) : Prop where
  rowids : (db.assignments.map (·.rowid)).Nodup
  ids : ∀ a ∈ db.assignments, ∀ b ∈ db.assignments, (equals a.assignmentId b.assignmentId).Holds → a = b
  checked : ∀ a ∈ db.assignments, a.Checks
  eventIds : (db.events.map (·.eventId)).Nodup
  operations : (db.events.map fun e => (e.assignmentId, e.operationId)).Nodup
  targets : ∀ e ∈ db.events, ∀ t ∈ e.targetAssignmentId, 0 < sqlLength t
  recorded : ∀ e ∈ db.events, ∃ a ∈ db.assignments, a.assignmentId = some e.assignmentId
  chains : ∀ id, Chain (db.chain id)
  projected : ∀ a ∈ db.assignments, a.toProjection = replay (db.chain a.assignmentId)

theorem empty_sound : Database.empty.Sound where
  rowids := .nil
  ids := by simp [Database.empty]
  checked := by simp [Database.empty]
  eventIds := .nil
  operations := .nil
  targets := by simp [Database.empty]
  recorded := by simp [Database.empty]
  chains := fun _ => .nil
  projected := by simp [Database.empty]

theorem mem_chain {db : Database} {id : Option String} {e : Event} :
    e ∈ db.chain id ↔ e ∈ db.events ∧ some e.assignmentId = id := by
  simp [Database.chain]

@[simp] theorem chain_none (db : Database) : db.chain none = [] := by simp [Database.chain]

theorem equals_some_iff {x : Option String} {id : String} : (equals x (some id)).Holds ↔ x = some id := by
  simp [equals_holds]

theorem equals_symm {x y : Option String} (h : (equals x y).Holds) : (equals y x).Holds := by
  rw [equals_holds] at h ⊢
  obtain ⟨id, hx, hy⟩ := h
  exact ⟨id, hy, hx⟩

/-- The guard lets an id be kept, and NULL be given or replaced. -/
theorem not_differs {x y : Option String} (h : ¬ (differs x y).Holds) : x = y ∨ x = none ∨ y = none := by
  cases x with
  | none => exact .inr (.inl rfl)
  | some x =>
    rcases (not_differs_some_holds x y).mp h with rfl | rfl
    · exact .inr (.inr rfl)
    · exact .inl rfl

namespace Database.Sound

variable {db : Database}

/-- A row is found by its rowid. -/
theorem of_rowid (h : db.Sound) {a b : Assignment} (ha : a ∈ db.assignments) (hb : b ∈ db.assignments)
    (hrowid : a.rowid = b.rowid) : a = b := List.inj_on_of_nodup_map h.rowids ha hb hrowid

theorem of_id (h : db.Sound) {a b : Assignment} {id : String} (ha : a ∈ db.assignments) (hb : b ∈ db.assignments)
    (haid : a.assignmentId = some id) (hbid : b.assignmentId = some id) : a = b := by
  refine h.ids a ha b hb ?_
  rw [haid, hbid]
  exact (equals_some_holds id id).mpr rfl

theorem of_eventId (h : db.Sound) {e f : Event} (he : e ∈ db.events) (hf : f ∈ db.events)
    (hid : e.eventId = f.eventId) : e = f := List.inj_on_of_nodup_map h.eventIds he hf hid

/-- The event an assignment is at is the last one of its chain. -/
theorem current (h : db.Sound) {a : Assignment} (ha : a ∈ db.assignments) :
    a.currentTransitionEventId = (db.chain a.assignmentId).getLast?.map (·.eventId) := by
  rw [← replay_currentTransitionEventId, ← h.projected a ha]

/-- An event is the one its assignment is at, or another comes after it. -/
theorem held (h : db.Sound) {e : Event} (he : e ∈ db.events) :
    (∃ a ∈ db.assignments, a.currentTransitionEventId = some e.eventId) ∨
      ∃ p ∈ db.events, p.eventId ≠ e.eventId ∧ p.predecessorEventId = some e.eventId := by
  obtain ⟨pre, post, hsplit⟩ := List.append_of_mem (mem_chain.mpr ⟨he, rfl⟩ : e ∈ db.chain (some e.assignmentId))
  cases post with
  | nil =>
    obtain ⟨a, ha, haid⟩ := h.recorded e he
    refine .inl ⟨a, ha, ?_⟩
    rw [h.current ha, haid, hsplit]
    simp
  | cons p post =>
    have hp : p ∈ db.events := (mem_chain.mp (hsplit ▸ by simp : p ∈ db.chain (some e.assignmentId))).1
    have hchain := h.chains (some e.assignmentId)
    rw [hsplit, show pre ++ e :: p :: post = (pre ++ [e]) ++ p :: post by simp] at hchain
    refine .inr ⟨p, hp, ?_, ?_⟩
    · intro hid
      obtain rfl := h.of_eventId hp he hid
      have hnodup : (db.chain (some p.assignmentId)).Nodup := (List.Nodup.of_map _ h.eventIds).filter _
      rw [hsplit, List.nodup_append] at hnodup
      exact (List.nodup_cons.mp hnodup.2.1).1 (by simp)
    · rw [hchain.legal.2.predecessor, replay_snoc]
      rfl

/-- No event is bound to move an assignment from where it is. -/
theorem unbound (h : db.Sound) {a : Assignment} (ha : a ∈ db.assignments) {e : Event} (he : e ∈ db.events)
    (hid : some e.assignmentId = a.assignmentId) : e.predecessorEventId ≠ a.currentTransitionEventId := by
  obtain ⟨pre, post, hsplit⟩ := List.append_of_mem (mem_chain.mpr ⟨he, hid⟩)
  have hchain := h.chains a.assignmentId
  have hnodup : ((db.chain a.assignmentId).map (·.eventId)).Nodup :=
    h.eventIds.sublist (List.filter_sublist.map _)
  rw [hsplit] at hchain hnodup
  rw [hchain.legal.2.predecessor, replay_currentTransitionEventId, h.current ha, hsplit]
  intro heq
  cases hlast : pre.getLast? with
  | none => simp [hlast, List.getLast?_cons] at heq
  | some p =>
    -- the last event would have the id of one before it
    obtain ⟨last, hmem, hid⟩ : ∃ last ∈ e :: post, last.eventId = p.eventId := by
      rw [hlast, List.getLast?_append_of_ne_nil _ (List.cons_ne_nil _ _)] at heq
      obtain ⟨last, hl, hid⟩ := Option.map_eq_some_iff.mp heq.symm
      exact ⟨last, List.mem_of_getLast? hl, hid⟩
    rw [List.map_append] at hnodup
    exact (List.disjoint_of_nodup_append hnodup) (List.mem_map_of_mem (List.mem_of_getLast? hlast))
      (hid ▸ List.mem_map_of_mem hmem)

end Database.Sound

/-! ### Deleting -/

/-- **No event is deleted.** -/
theorem deleteEvent_refused {db db' : Database} (h : db.Sound) {e : Event} (he : e ∈ db.events) :
    ¬ (deleteEvent e).run db = .ok ⟨⟩ db' := by
  intro hrun
  obtain ⟨_, _, hdelete, hrun⟩ := run_bind_ok.mp hrun
  obtain rfl := run_modify_ok.mp hdelete
  rw [run_get_bind, run_refuseIf_bind, run_refuseIf_ok] at hrun
  obtain ⟨hcurrent, hpredecessor, -⟩ := hrun
  rcases h.held he with hheld | ⟨p, hp, hne, hpred⟩
  · exact hcurrent hheld
  · exact hpredecessor ⟨p, by simpa using ⟨hp, hne⟩, hpred⟩

theorem forM_deleteEvent {db db' : Database} (h : db.Sound) {es : List Event} (hes : ∀ e ∈ es, e ∈ db.events)
    (hrun : (es.forM deleteEvent).run db = .ok ⟨⟩ db') : es = [] := by
  cases es with
  | nil => rfl
  | cons e es =>
    obtain ⟨u, he, -⟩ := run_forM_cons.mp hrun
    exact absurd he (deleteEvent_refused h (hes e (by simp)))

/-- **An assignment is deleted only where no event names it; nothing else changes.** -/
theorem deleteAssignment_ok {db db' : Database} (h : db.Sound) {a : Assignment}
    (hrun : (deleteAssignment a).run db = .ok ⟨⟩ db') :
    db' = { db with assignments := db.assignments.filter fun b => b.rowid ≠ a.rowid } ∧
      ∀ e ∈ db.events, some e.assignmentId ≠ a.assignmentId := by
  obtain ⟨_, _, hdelete, hrun⟩ := run_bind_ok.mp hrun
  obtain rfl := run_modify_ok.mp hdelete
  rw [run_get_bind, run_refuseIf_bind, run_refuseIf_bind] at hrun
  obtain ⟨hevents, -, hnull⟩ := hrun
  have hnone : (db.assignments.filter fun b => b.rowid ≠ a.rowid).filter
      (fun b => (equals b.supersededByAssignmentId a.assignmentId).Holds) = [] := by
    -- what an assignment is superseded by, an event of it names
    rw [List.filter_eq_nil_iff]
    intro b hb hsuperseded
    have hb' : b ∈ db.assignments := (List.mem_filter.mp hb).1
    obtain ⟨id, hid, haid⟩ := (equals_holds _ _).mp (of_decide_eq_true hsuperseded)
    rw [h.projected b hb'] at hid
    obtain ⟨e, he, htarget⟩ := replay_superseded hid
    exact hevents ⟨e, (mem_chain.mp he).1, .inr ((equals_holds _ _).mpr ⟨id, htarget, haid⟩)⟩
  rw [hnone] at hnull
  refine ⟨run_forM_nil.mp hnull, ?_⟩
  intro e he hid
  exact hevents ⟨e, he, .inl hid⟩

/-- Without an assignment that no event names, the rest is sound. -/
theorem Database.Sound.erase {db : Database} (h : db.Sound) {a : Assignment} (hmem : a ∈ db.assignments)
    (ha : ∀ e ∈ db.events, some e.assignmentId ≠ a.assignmentId) :
    ({ db with assignments := db.assignments.filter fun b => b.rowid ≠ a.rowid } : Database).Sound where
  rowids := h.rowids.sublist (List.filter_sublist.map _)
  ids := fun b hb c hc => h.ids b (List.mem_of_mem_filter hb) c (List.mem_of_mem_filter hc)
  checked := fun b hb => h.checked b (List.mem_of_mem_filter hb)
  eventIds := h.eventIds
  operations := h.operations
  targets := h.targets
  recorded := by
    intro e he
    obtain ⟨b, hb, hid⟩ := h.recorded e he
    refine ⟨b, List.mem_filter.mpr ⟨hb, ?_⟩, hid⟩
    simp only [ne_eq, decide_not, Bool.not_eq_true', decide_eq_false_iff_not]
    intro hrowid
    obtain rfl := h.of_rowid hb hmem hrowid
    exact ha e he hid.symm
  chains := h.chains
  projected := fun b hb => h.projected b (List.mem_of_mem_filter hb)

/-- The rows that a row conflicts with are deleted, and nothing else changes. -/
theorem forM_deleteAssignment {db db' : Database} (h : db.Sound) {conflicts : List Assignment}
    (hsub : conflicts.Sublist db.assignments) (hrun : (conflicts.forM deleteAssignment).run db = .ok ⟨⟩ db') :
    db'.Sound ∧
      db' = { db with assignments := db.assignments.filter fun b => ∀ a ∈ conflicts, b.rowid ≠ a.rowid } := by
  have hrowids : (conflicts.map (·.rowid)).Nodup := h.rowids.sublist (hsub.map _)
  have hmem : ∀ a ∈ conflicts, a ∈ db.assignments := fun a ha => hsub.subset ha
  clear hsub
  induction conflicts generalizing db with
  | nil =>
    obtain rfl := run_forM_nil.mp hrun
    exact ⟨h, by simp⟩
  | cons a conflicts ih =>
    obtain ⟨u, ha, hrest⟩ := run_forM_cons.mp hrun
    obtain ⟨rfl, hevents⟩ := deleteAssignment_ok h ha
    rw [List.map_cons, List.nodup_cons] at hrowids
    obtain ⟨hsound, rfl⟩ := ih (h.erase (hmem a (by simp)) hevents) hrest hrowids.2 fun b hb => by
      refine List.mem_filter.mpr ⟨hmem b (by simp [hb]), ?_⟩
      simp only [ne_eq, decide_not, Bool.not_eq_true', decide_eq_false_iff_not]
      exact fun heq => hrowids.1 (heq ▸ List.mem_map_of_mem hb)
    refine ⟨hsound, ?_⟩
    simp only [List.filter_filter, List.forall_mem_cons, Bool.decide_and, Bool.and_comm]

/-! ### Assignments -/

/-- A row that is put where no key of it is, with the projection of the events of its id. -/
theorem Database.Sound.add {db : Database} (h : db.Sound) {row : Assignment} (hchecks : row.Checks)
    (hconflicts : db.assignmentConflicts row = [])
    (hprojected : row.toProjection = replay (db.chain row.assignmentId)) :
    ({ db with assignments := db.assignments ++ [row] } : Database).Sound := by
  simp only [assignmentConflicts, List.filter_eq_nil_iff, decide_eq_true_eq, not_or] at hconflicts
  refine ⟨?_, ?_, ?_, h.eventIds, h.operations, h.targets, ?_, h.chains, ?_⟩
  · rw [List.map_append, List.nodup_append]
    refine ⟨h.rowids, by simp, ?_⟩
    intro rowid hrowid rowid' hrowid'
    obtain ⟨a, ha, rfl⟩ := List.mem_map.mp hrowid
    obtain rfl : rowid' = row.rowid := by simpa using hrowid'
    exact (hconflicts a ha).1
  · intro a ha b hb hid
    rcases List.mem_append.mp ha with ha' | ha' <;> rcases List.mem_append.mp hb with hb' | hb'
    · exact h.ids a ha' b hb' hid
    · obtain rfl := List.mem_singleton.mp hb'
      exact absurd hid (hconflicts a ha').2
    · obtain rfl := List.mem_singleton.mp ha'
      exact absurd (equals_symm hid) (hconflicts b hb').2
    · rw [List.mem_singleton.mp ha', List.mem_singleton.mp hb']
  · intro a ha
    rcases List.mem_append.mp ha with ha | ha
    · exact h.checked a ha
    · rw [List.mem_singleton.mp ha]
      exact hchecks
  · intro e he
    obtain ⟨a, ha, hid⟩ := h.recorded e he
    exact ⟨a, List.mem_append_left _ ha, hid⟩
  · intro a ha
    rcases List.mem_append.mp ha with ha | ha
    · exact h.projected a ha
    · rw [List.mem_singleton.mp ha]
      exact hprojected

/-- The events of an id that no assignment has. -/
theorem Database.Sound.chain_eq_nil {db : Database} (h : db.Sound) {id : Option String}
    (hid : ∀ a ∈ db.assignments, ¬ (equals a.assignmentId id).Holds) : db.chain id = [] := by
  cases id with
  | none => exact chain_none db
  | some id =>
    rw [Database.chain, List.filter_eq_nil_iff]
    intro e he hname
    obtain ⟨a, ha, haid⟩ := h.recorded e he
    exact hid a ha (equals_some_iff.mpr (haid.trans (of_decide_eq_true hname)))

@[simp] theorem violated_ok {policy : Conflict} {error : SqlError} {db db' : Database} :
    (violated policy error).run db = .ok ⟨⟩ db' ↔ policy = .ignore ∧ db' = db := by
  by_cases h : policy = .ignore
  · simp [violated, h, eq_comm]
  · simp [violated, h]

/-- Once the rows that a row conflicts with are gone, none is left. -/
theorem assignmentConflicts_filter (db : Database) (row : Assignment) :
    ({ db with
        assignments := db.assignments.filter fun b => ∀ a ∈ db.assignmentConflicts row, b.rowid ≠ a.rowid } :
      Database).assignmentConflicts row = [] := by
  rw [Database.assignmentConflicts, List.filter_eq_nil_iff]
  intro b hb hconflict
  obtain ⟨hmem, hb⟩ := List.mem_filter.mp hb
  exact of_decide_eq_true hb b (List.mem_filter.mpr ⟨hmem, hconflict⟩) rfl

/-- The row that an `INSERT INTO assignments` stores, where it stores one. -/
def Database.inserts (db : Database) (policy : Conflict) (rowid : Option ℤ) (new : NewAssignment) : Option Assignment :=
  (new.row policy (rowid.getD ((db.assignments.map (·.rowid)).max?.elim 1 (· + 1)))).filter fun row =>
    row.Checks ∧ (db.assignmentConflicts row = [] ∨ policy = .replace)

/-- An `INSERT INTO assignments` skips its row, or stores it in place of the rows it
conflicts with, of which no event names one. -/
theorem insertAssignment_ok {db db' : Database} (h : db.Sound) {policy : Conflict} {rowid : Option ℤ}
    {new : NewAssignment} (hrun : (insertAssignment policy rowid new).run db = .ok ⟨⟩ db') :
    db' = db ∨ ∃ (row : Assignment) (u : Database), db.inserts policy rowid new = some row ∧ row.Checks ∧ u.Sound ∧
      u.events = db.events ∧ u.assignmentConflicts row = [] ∧ db' = { u with assignments := u.assignments ++ [row] } := by
  rw [insertAssignment, run_get_bind] at hrun
  dsimp only at hrun
  split at hrun
  · exact .inl (violated_ok.mp hrun).2
  · rename_i row hrow
    split at hrun
    · exact .inl (violated_ok.mp hrun).2
    · rename_i hchecks
      rw [not_not] at hchecks
      split at hrun
      · exact .inl (violated_ok.mp hrun).2
      · rename_i hpolicy
        obtain ⟨_, u, hdelete, hstore⟩ := run_bind_ok.mp hrun
        obtain ⟨hsound, rfl⟩ := forM_deleteAssignment h List.filter_sublist hdelete
        refine .inr ⟨row, _, ?_, hchecks, hsound, rfl, assignmentConflicts_filter db row, run_modify_ok.mp hstore⟩
        rw [Database.inserts, hrow]
        simpa [hchecks, or_iff_not_imp_left] using hpolicy

/-- A row at the start of an assignment. -/
theorem Database.Sound.insert {db db' : Database} (h : db.Sound) {policy : Conflict} {rowid : Option ℤ}
    {new : NewAssignment} (hnew : ∀ row ∈ db.inserts policy rowid new, row.currentState = .drafted ∧
      row.currentTransitionEventId = none) (hrun : (insertAssignment policy rowid new).run db = .ok ⟨⟩ db') :
    db'.Sound ∧ db'.events = db.events := by
  rcases insertAssignment_ok h hrun with rfl | ⟨row, u, hrow, hchecks, hsound, hevents, hconflicts, rfl⟩
  · exact ⟨h, rfl⟩
  · obtain ⟨hstate, hcurrent⟩ := hnew row hrow
    refine ⟨hsound.add hchecks hconflicts ?_, hevents⟩
    simp only [assignmentConflicts, List.filter_eq_nil_iff, decide_eq_true_eq, not_or] at hconflicts
    rw [hsound.chain_eq_nil fun a ha => (hconflicts a ha).2, replay_nil]
    -- the `CHECK`s leave a drafted assignment nothing suspended
    obtain ⟨-, hpause, hinterrupt, hnested, hsuperseded⟩ := hchecks.2.2.2.2
    simp only [hstate, reduceCtorEq, false_iff, not_not, false_and, or_false] at hpause hinterrupt hnested hsuperseded
    exact Projection.ext hstate hcurrent hpause hinterrupt hnested hsuperseded

/-- A row that is given as the start of an assignment is stored so. -/
theorem start_inserted {db : Database} {policy : Conflict} {rowid : Option ℤ} {new : NewAssignment}
    (hstate : new.currentState = some .drafted) (hcurrent : new.currentTransitionEventId = none) :
    ∀ row ∈ db.inserts policy rowid new, row.currentState = .drafted ∧ row.currentTransitionEventId = none := by
  intro row hrow
  obtain ⟨hrow, -⟩ := Option.filter_eq_some_iff.mp hrow
  simp only [NewAssignment.row, hstate, hcurrent, bind, Option.bind_eq_some_iff, pure, Option.some.injEq] at hrow
  obtain ⟨_, -, _, -, state, hstate', _, -, rfl⟩ := hrow
  exact ⟨(Option.some.inj hstate').symm, rfl⟩

/-! ### Updating an assignment -/

/-- Two values that are absent together, and agree where an absent one reads as another. -/
theorem eq_of_getD {α : Type} {x y : Option α} {d : α} (hnone : x = none ↔ y = none) (h : x.getD d = y.getD d) :
    x = y := by
  cases x with
  | none => exact (hnone.mp rfl).symm
  | some x =>
    cases y with
    | none => exact hnone.mpr rfl
    | some y => simpa using h

/-- What an update has to be told, for the guard to see it move the projection: no state
that `OR REPLACE` puts a default for, and no event id that the guard takes for NULL. -/
structure Plain (old : Assignment) (policy : Conflict) (new : NewAssignment) : Prop where
  state : policy = .replace → new.currentState = none → old.currentState = .drafted
  added : ¬ (old.currentTransitionEventId = none ∧ new.currentTransitionEventId = some (-1))
  removed : ¬ (old.currentTransitionEventId = some (-1) ∧ new.currentTransitionEventId = none)

theorem Plain.current {old : Assignment} {policy : Conflict} {new : NewAssignment} (h : Plain old policy new)
    (hid : new.currentTransitionEventId.getD (-1) = old.currentTransitionEventId.getD (-1)) :
    new.currentTransitionEventId = old.currentTransitionEventId := by
  cases hnew : new.currentTransitionEventId with
  | none =>
    cases hold : old.currentTransitionEventId with
    | none => rfl
    | some id => exact absurd ⟨by simpa [hnew, hold, eq_comm] using hid, hnew⟩ h.removed
  | some id =>
    cases hold : old.currentTransitionEventId with
    | none => exact absurd ⟨hold, by simpa [hnew, hold] using hid⟩ h.added
    | some id' => simpa [hnew, hold] using hid

/-- The state that an update stores, where the guard sees no move. -/
theorem Plain.same {old : Assignment} {policy : Conflict} {new : NewAssignment} (h : Plain old policy new)
    (hguard : ¬ (differs new.currentState (some old.currentState)).Holds) {state : State}
    (hstate : (new.currentState <|> if policy = .replace then some .drafted else none) = some state) :
    state = old.currentState := by
  cases hnew : new.currentState with
  | none =>
    by_cases hpolicy : policy = .replace
    · rw [h.state hpolicy hnew]
      simpa [hnew, hpolicy, eq_comm] using hstate
    · simp [hnew, hpolicy] at hstate
  | some s =>
    obtain rfl : s = state := by simpa [hnew] using hstate
    simpa [hnew] using hguard

/-- The guard takes NULL for the empty text; the `CHECK`s tell them apart. -/
theorem Projection.Bracketed.columns {p q : Projection} (hp : p.Bracketed) (hq : q.Checks)
    (hstate : q.currentState = p.currentState)
    (hpre : q.prePauseState.getD (.other "") = p.prePauseState.getD (.other ""))
    (hint : q.preInterruptState.getD (.other "") = p.preInterruptState.getD (.other ""))
    (hnest : q.nestedPauseState.getD (.other "") = p.nestedPauseState.getD (.other "")) :
    q.prePauseState = p.prePauseState ∧ q.preInterruptState = p.preInterruptState ∧
      q.nestedPauseState = p.nestedPauseState := by
  obtain ⟨-, hpause, hinterrupt, hnested, -⟩ := hq
  rw [hstate] at hpause hinterrupt hnested
  obtain ⟨-, hpause', hinterrupt', hnested'⟩ := hp.checks
  have hint' := eq_of_getD (not_iff_not.mp (hinterrupt.symm.trans hinterrupt')) hint
  refine ⟨eq_of_getD (not_iff_not.mp (hpause.symm.trans hpause')) hpre, hint', eq_of_getD ?_ hnest⟩
  by_cases hcase : p.currentState = .interrupted
  · obtain ⟨s, hs, -, ⟨h₁, h₂⟩ | ⟨h₁, h₂⟩⟩ := hp.of_interrupted hcase
    · rw [hint', h₁] at hnested
      simp only [reduceCtorEq, Option.some.injEq, hs.ne.1, or_self, and_false, or_false] at hnested
      simp [h₂, hnested]
    · rw [h₂] at hnest ⊢
      simp only [reduceCtorEq, iff_false]
      intro hnone
      rw [hnone] at hnest
      rcases hs with rfl | rfl | rfl <;> simp at hnest
  · simp only [hcase, false_and, or_false] at hnested hnested'
    simp [hnested, hnested']

/-- What an assignment is superseded by has a name. -/
theorem Database.Sound.superseded_length {db : Database} (h : db.Sound) {a : Assignment} (ha : a ∈ db.assignments)
    {t : String} (ht : a.supersededByAssignmentId = some t) : 0 < sqlLength t := by
  rw [h.projected a ha] at ht
  obtain ⟨e, he, htarget⟩ := replay_superseded ht
  exact h.targets e (mem_chain.mp he).1 t htarget

/-- **An update that the guard lets through, and that no event is bound to, leaves the
projection as it was.** -/
theorem Database.Sound.guarded {db : Database} (h : db.Sound) {old row : Assignment} {new : NewAssignment}
    {policy : Conflict} {rowid : ℤ} (hold : old ∈ db.assignments) (hplain : Plain old policy new)
    (hguard : (assignmentProjectionGuardBeforeUpdate old new).run db = .ok ⟨⟩ db)
    (hrow : new.row policy rowid = some row) (hchecks : row.Checks) :
    row.toProjection = old.toProjection ∧ ¬ (differs new.assignmentId old.assignmentId).Holds := by
  rw [assignmentProjectionGuardBeforeUpdate, run_get_bind, run_refuseIf_bind, run_refuseIf_ok] at hguard
  obtain ⟨hidentity, hprojection, -⟩ := hguard
  refine ⟨?_, fun hid => hidentity (.inl hid)⟩
  have hunbound : ¬ ∃ e ∈ db.events, some e.eventId = new.currentTransitionEventId ∧
      some e.assignmentId = old.assignmentId ∧ e.predecessorEventId = old.currentTransitionEventId ∧
      e.fromState = old.currentState ∧ new.currentState = some e.toState ∧
      (new.supersededByAssignmentId = old.supersededByAssignmentId ∨ e.transitionTypeId = "SUPERSEDE" ∧
        (equals new.supersededByAssignmentId e.targetAssignmentId).Holds) := by
    rintro ⟨e, he, -, hid, hpred, -⟩
    exact h.unbound hold he hid hpred
  rw [and_iff_left hunbound] at hprojection
  simp only [ne_eq, not_or, not_not] at hprojection
  obtain ⟨hdiffers, hid, hpre, hint, hnest, hsup⟩ := hprojection
  simp only [NewAssignment.row, bind, Option.bind_eq_some_iff, pure, Option.some.injEq] at hrow
  obtain ⟨workflowId, -, architectureMode, -, state, hstate, createdAtMs, -, rfl⟩ := hrow
  have hsame := hplain.same hdiffers hstate
  have hchain := h.chains old.assignmentId
  have hbracketed := hchain.simulates.1
  have hsuperseded := hchain.superseded
  rw [← h.projected old hold] at hbracketed hsuperseded
  obtain ⟨hpre', hint', hnest'⟩ := hbracketed.columns hchecks.2.2.2.2 hsame hpre hint hnest
  refine Projection.ext hsame (hplain.current hid) hpre' hint' hnest' (eq_of_getD ⟨?_, ?_⟩ hsup)
  · intro hnone
    cases ht : old.supersededByAssignmentId with
    | none => rfl
    | some t =>
      obtain rfl : "" = t := by simpa [show new.supersededByAssignmentId = none from hnone, ht] using hsup
      exact absurd (h.superseded_length hold ht) (by decide)
  · intro hnone
    rcases hchecks.2.2.2.2.superseded with hs | hs
    · exact hs
    · exact absurd hnone (hsuperseded.mpr (hsame ▸ hs))

theorem guard_state {db u : Database} {old : Assignment} {new : NewAssignment}
    (hguard : (assignmentProjectionGuardBeforeUpdate old new).run db = .ok ⟨⟩ u) : u = db := by
  rw [assignmentProjectionGuardBeforeUpdate, run_get_bind, run_refuseIf_bind, run_refuseIf_ok] at hguard
  exact hguard.2.2

/-- The rows, with one in the place of another. -/
def stored (assignments : List Assignment) (rowid : ℤ) (row : Assignment) : List Assignment :=
  assignments.map fun a => if a.rowid = rowid then row else a

theorem mem_stored {assignments : List Assignment} {old row b : Assignment} (hold : old ∈ assignments) :
    b ∈ stored assignments old.rowid row ↔ b = row ∨ b ∈ assignments ∧ b.rowid ≠ old.rowid := by
  rw [stored, List.mem_map]
  constructor
  · rintro ⟨a, ha, rfl⟩
    split
    · exact .inl rfl
    · rename_i hrowid
      exact .inr ⟨ha, hrowid⟩
  · rintro (rfl | ⟨hb, hrowid⟩)
    · exact ⟨old, hold, if_pos rfl⟩
    · exact ⟨b, hb, if_neg hrowid⟩

/-- A row that shares no key with the others keeps the keys apart. -/
theorem Database.Sound.stored_keys {db : Database} (h : db.Sound) {old row : Assignment} (hold : old ∈ db.assignments)
    (hchecks : row.Checks) (hconflicts : ∀ b ∈ db.assignments, b.rowid ≠ old.rowid →
      b.rowid ≠ row.rowid ∧ ¬ (equals b.assignmentId row.assignmentId).Holds) :
    ((stored db.assignments old.rowid row).map (·.rowid)).Nodup ∧
      (∀ a ∈ stored db.assignments old.rowid row, ∀ b ∈ stored db.assignments old.rowid row,
        (equals a.assignmentId b.assignmentId).Holds → a = b) ∧
      ∀ a ∈ stored db.assignments old.rowid row, a.Checks := by
  refine ⟨?_, ?_, ?_⟩
  · rw [stored, List.map_map]
    refine List.Nodup.map_on ?_ (List.Nodup.of_map _ h.rowids)
    intro a ha b hb hab
    by_cases ha' : a.rowid = old.rowid <;> by_cases hb' : b.rowid = old.rowid
    · exact h.of_rowid ha hb (ha'.trans hb'.symm)
    · simp only [Function.comp_apply, ha', hb', if_true, if_false] at hab
      exact absurd hab.symm (hconflicts b hb hb').1
    · simp only [Function.comp_apply, ha', hb', if_true, if_false] at hab
      exact absurd hab (hconflicts a ha ha').1
    · simp only [Function.comp_apply, ha', hb', if_false] at hab
      exact h.of_rowid ha hb hab
  · intro a ha b hb hid
    rcases (mem_stored hold).mp ha with rfl | ⟨ha', hne⟩ <;> rcases (mem_stored hold).mp hb with rfl | ⟨hb', hne'⟩
    · rfl
    · exact absurd (equals_symm hid) (hconflicts b hb' hne').2
    · exact absurd hid (hconflicts a ha' hne).2
    · exact h.ids a ha' b hb' hid
  · intro a ha
    rcases (mem_stored hold).mp ha with rfl | ⟨ha, -⟩
    · exact hchecks
    · exact h.checked a ha

theorem row_assignmentId {new : NewAssignment} {policy : Conflict} {rowid : ℤ} {row : Assignment}
    (h : new.row policy rowid = some row) : row.assignmentId = new.assignmentId := by
  simp only [NewAssignment.row, bind, Option.bind_eq_some_iff, pure, Option.some.injEq] at h
  obtain ⟨_, -, _, -, _, -, _, -, rfl⟩ := h
  rfl

/-- A row in the place of another, with its projection and, where it has events, its id. -/
theorem Database.Sound.move {db : Database} (h : db.Sound) {old row : Assignment} (hold : old ∈ db.assignments)
    (hchecks : row.Checks) (hconflicts : ∀ b ∈ db.assignments, b.rowid ≠ old.rowid →
      b.rowid ≠ row.rowid ∧ ¬ (equals b.assignmentId row.assignmentId).Holds)
    (hproj : row.toProjection = old.toProjection)
    (hid : row.assignmentId = old.assignmentId ∨ old.assignmentId = none ∨
      row.assignmentId = none ∧ ∀ e ∈ db.events, some e.assignmentId ≠ old.assignmentId) :
    ({ db with assignments := stored db.assignments old.rowid row } : Database).Sound := by
  obtain ⟨hrowids, hids, hchecked⟩ := h.stored_keys hold hchecks hconflicts
  refine ⟨hrowids, hids, hchecked, h.eventIds, h.operations, h.targets, ?_, h.chains, ?_⟩
  · intro e he
    obtain ⟨a, ha, haid⟩ := h.recorded e he
    by_cases hrowid : a.rowid = old.rowid
    · obtain rfl := h.of_rowid ha hold hrowid
      refine ⟨row, (mem_stored hold).mpr (.inl rfl), ?_⟩
      rcases hid with hid | hid | ⟨-, hnone⟩
      · rw [hid, haid]
      · simp [haid] at hid
      · exact absurd haid.symm (hnone e he)
    · exact ⟨a, (mem_stored hold).mpr (.inr ⟨ha, hrowid⟩), haid⟩
  · intro b hb
    rcases (mem_stored hold).mp hb with rfl | ⟨hb', -⟩
    · rw [hproj, h.projected old hold]
      congr 1
      rcases hid with hid | hid | ⟨hid, hnone⟩
      · rw [hid]
        rfl
      · rw [hid, chain_none]
        refine (h.chain_eq_nil fun a ha => ?_).symm
        by_cases hrowid : a.rowid = old.rowid
        · obtain rfl := h.of_rowid ha hold hrowid
          simp [hid, equals_holds]
        · exact (hconflicts a ha hrowid).2
      · rw [hid, chain_none, Database.chain, List.filter_eq_nil_iff]
        intro e he
        simpa using hnone e he
    · exact h.projected b hb'

/-- **An update that the guard cannot take for another, of an assignment that keeps its
events, keeps the projections.** -/
theorem Database.Sound.update {db db' : Database} (h : db.Sound) {old : Assignment} {new : NewAssignment}
    {policy : Conflict} {rowid : ℤ} (hold : old ∈ db.assignments) (hplain : Plain old policy new)
    (hname : new.assignmentId = none → ∀ e ∈ db.events, some e.assignmentId ≠ old.assignmentId)
    (hrun : (updateAssignment policy old rowid new).run db = .ok ⟨⟩ db') : db'.Sound ∧ db'.events = db.events := by
  obtain ⟨_, _, hguard, hrow⟩ := run_bind_ok.mp hrun
  clear hrun
  obtain rfl := guard_state hguard
  split at hrow
  · rw [(violated_ok.mp hrow).2]
    exact ⟨h, rfl⟩
  · rename_i row hnew
    split at hrow
    · rw [(violated_ok.mp hrow).2]
      exact ⟨h, rfl⟩
    · rename_i hchecks
      rw [not_not] at hchecks
      rw [run_get_bind] at hrow
      dsimp only at hrow
      split at hrow
      · rw [(violated_ok.mp hrow).2]
        exact ⟨h, rfl⟩
      · obtain ⟨hproj, hid⟩ := h.guarded hold hplain hguard hnew hchecks
        have hrowid : row.assignmentId = new.assignmentId := row_assignmentId hnew
        obtain ⟨_, v, hdelete, hstore⟩ := run_bind_ok.mp hrow
        obtain ⟨hsound, rfl⟩ := forM_deleteAssignment h (List.filter_sublist.trans List.filter_sublist) hdelete
        obtain rfl := run_modify_ok.mp hstore
        refine ⟨hsound.move (List.mem_filter.mpr ⟨hold, ?_⟩) hchecks ?_ hproj ?_, rfl⟩
        · simp only [decide_eq_true_eq]
          intro a ha
          exact (of_decide_eq_true (List.mem_filter.mp ha).2).symm
        · intro b hb hne
          obtain ⟨hmem, hb⟩ := List.mem_filter.mp hb
          have hkept : b ∉ (Database.assignmentConflicts _ row).filter fun a => a.rowid ≠ old.rowid :=
            fun hconflict => of_decide_eq_true hb b hconflict rfl
          simpa [Database.assignmentConflicts, hmem, hne] using hkept
        · rw [hrowid]
          rcases not_differs hid with hid | hid | hid
          · exact .inl hid
          · exact .inr (.inr ⟨hid, hname hid⟩)
          · exact .inr (.inl hid)

/-! ### Inserting an event -/

/-- An event, as a statement would give it. -/
def Event.toNew (e : Event) (given : Option ℤ) : NewEvent where
  eventId := given
  assignmentId := some e.assignmentId
  transitionTypeId := some e.transitionTypeId
  actor := some e.actor
  fromState := some e.fromState
  toState := some e.toState
  predecessorEventId := e.predecessorEventId
  operationId := some e.operationId
  receiptSha256 := some e.receiptSha256
  targetAssignmentId := e.targetAssignmentId
  createdAtMs := some e.createdAtMs

theorem row_eq_some {new : NewEvent} {eventId : ℤ} {e : Event} :
    new.row eventId = some e ↔ e.eventId = eventId ∧ new = e.toNew new.eventId := by
  obtain ⟨given, assignmentId, typeId, actor, fromState, toState, pred, operationId, receipt, target, created⟩ := new
  obtain ⟨id, assignmentId', typeId', actor', fromState', toState', pred', operationId', receipt', target', created'⟩ := e
  simp only [NewEvent.row, bind, Option.bind_eq_some_iff, pure, Option.some.injEq, Event.toNew, NewEvent.mk.injEq,
    Event.mk.injEq, true_and]
  constructor
  · rintro ⟨_, rfl, _, rfl, _, rfl, _, rfl, _, rfl, _, rfl, _, rfl, _, rfl, rfl, rfl, rfl, rfl, rfl, rfl, rfl, rfl, rfl,
      rfl, rfl⟩
    simp
  · rintro ⟨rfl, rfl, rfl, rfl, rfl, rfl, rfl, rfl, rfl, rfl, rfl⟩
    simp

theorem Database.Sound.select {db : Database} (h : db.Sound) {a : Assignment} (ha : a ∈ db.assignments) {id : String}
    (hid : a.assignmentId = some id) : db.select (some id) = some a := by
  cases hfind : db.select (some id) with
  | none =>
    have hnone := List.find?_eq_none.mp hfind a ha
    simp [hid] at hnone
  | some b =>
    have hb := List.mem_of_find?_eq_some hfind
    have hbid := List.find?_some (p := fun a : Assignment => decide (equals a.assignmentId (some id)).Holds) hfind
    rw [h.of_id hb ha (equals_some_iff.mp (of_decide_eq_true hbid)) hid]

/-- What `transition_event_validate_before_insert` has seen of an event. -/
structure Validated (db : Database) (a : Assignment) (e : Event) : Prop where
  mem : a ∈ db.assignments
  id : a.assignmentId = some e.assignmentId
  rule : ∃ r ∈ transitionRules, r.transitionTypeId = e.transitionTypeId ∧ r.fromState = e.fromState ∧
    r.toState = e.toState ∧ r.actor = e.actor
  state : e.fromState = a.currentState
  supersede : e.transitionTypeId = "SUPERSEDE" → ∃ t, e.targetAssignmentId = some t ∧ t ≠ e.assignmentId ∧
    ∃ b ∈ db.assignments, b.assignmentId = some t
  noTarget : e.transitionTypeId ≠ "SUPERSEDE" → e.targetAssignmentId = none
  resume : contextActionOf e.transitionTypeId = some .resumePause → ∀ s ∈ a.prePauseState, e.toState = s
  recover : contextActionOf e.transitionTypeId = some .recoverInterrupt → ∀ s ∈ a.preInterruptState, e.toState = s

theorem validate_state {db u : Database} {new : NewEvent}
    (hrun : (transitionEventValidateBeforeInsert new).run db = .ok ⟨⟩ u) : u = db := by
  rw [transitionEventValidateBeforeInsert, run_get_bind, run_refuseIf_bind] at hrun
  dsimp only at hrun
  simp only [run_refuseIf_bind, run_refuseIf_ok] at hrun
  exact hrun.2.2.2.2.2.2.2

theorem validated {db u : Database} (h : db.Sound) {e : Event} {given : Option ℤ}
    (hrun : (transitionEventValidateBeforeInsert (e.toNew given)).run db = .ok ⟨⟩ u) :
    ∃ a, Validated db a e := by
  rw [transitionEventValidateBeforeInsert, run_get_bind, run_refuseIf_bind] at hrun
  dsimp only at hrun
  simp only [run_refuseIf_bind, run_refuseIf_ok] at hrun
  simp only [Event.toNew, not_not, Option.some.injEq] at hrun
  obtain ⟨⟨a, ha, r, hr, htype, hid, hfrom, hrfrom, hrto, hactor⟩, -, -, hsupersede, hnoTarget, hresume, hrecover, -⟩ := hrun
  rw [equals_some_iff] at hid
  rw [h.select ha hid] at hresume hrecover
  refine ⟨a, ha, hid, ⟨r, hr, htype.symm, hrfrom.symm, hrto.symm, hactor.symm⟩, hfrom, ?_, ?_, ?_, ?_⟩
  · intro hcase
    simp only [hcase, true_and, not_or, not_not] at hsupersede
    obtain ⟨hsome, hself, b, hb, hbid⟩ := hsupersede
    obtain ⟨t, ht⟩ := Option.ne_none_iff_exists'.mp hsome
    rw [ht, equals_some_holds] at hself
    rw [ht, equals_some_iff] at hbid
    exact ⟨t, ht, hself, b, hb, hbid⟩
  · intro hcase
    simpa [hcase] using hnoTarget
  · intro haction s hs
    simpa [haction, Option.mem_def.mp hs] using hresume
  · intro haction s hs
    rw [Option.mem_def] at hs
    by_cases hpaused : s = .pausedUsageExhausted
    · simpa [haction, hs, hpaused] using hrecover
    · simpa [haction, hs, hpaused] using hrecover

/-- What inserting an event does. -/
structure Appended (db : Database) (new : NewEvent) (a : Assignment) (e : Event) (db' : Database) : Prop where
  row : new.row e.eventId = some e
  fresh : db.eventConflicts e = []
  validated : Validated db a e
  predecessor : e.predecessorEventId = a.currentTransitionEventId
  events : db'.events = db.events ++ [e]
  assignments : db'.assignments = stored db.assignments a.rowid (a.apply e)
  receipts : db'.receipts = db.receipts

theorem Validated.legal {db : Database} (h : db.Sound) {a : Assignment} {e : Event} (hvalidated : Validated db a e)
    (hpred : e.predecessorEventId = a.currentTransitionEventId) :
    Legal (replay (db.chain (some e.assignmentId))) e := by
  obtain ⟨hmem, hid, hrule, hstate, hsupersede, hnoTarget, hresume, hrecover⟩ := hvalidated
  have hproj := h.projected a hmem
  rw [hid] at hproj
  rw [← hproj]
  refine ⟨hrule, hstate, hpred, ?_, hnoTarget, hresume, hrecover⟩
  intro hcase
  obtain ⟨t, ht, hself, -⟩ := hsupersede hcase
  exact ⟨t, ht, hself⟩

theorem rule_moves : ∀ r ∈ transitionRules, r.toState ≠ r.fromState := by decide

@[simp] theorem toNew_row (a : Assignment) (policy : Conflict) : a.toNew.row policy a.rowid = some a := rfl

theorem Database.Sound.sequence {db : Database} (h : db.Sound) (n : ℤ) : ({ db with eventSequence := n } : Database).Sound :=
  ⟨h.rowids, h.ids, h.checked, h.eventIds, h.operations, h.targets, h.recorded, h.chains, h.projected⟩

/-- The event that was just inserted is the one that its projection is bound to. -/
theorem guard_bound {db u v : Database} {a : Assignment} {e : Event} (hvalidated : Validated db a e)
    (hfresh : ∀ f ∈ db.events, f.eventId ≠ e.eventId) (hevents : u.events = db.events ++ [e])
    (hguard : (assignmentProjectionGuardBeforeUpdate a (a.apply e).toNew).run u =
      .ok ⟨⟩ v) : e.predecessorEventId = a.currentTransitionEventId := by
  rw [assignmentProjectionGuardBeforeUpdate, run_get_bind, run_refuseIf_bind, run_refuseIf_ok] at hguard
  obtain ⟨-, hprojection, -⟩ := hguard
  obtain ⟨r, hr, -, hfrom, hto, -⟩ := hvalidated.rule
  have hmoves : (differs (some e.toState) (some a.currentState)).Holds := by
    rw [differs_some_holds, ← hvalidated.state, ← hfrom, ← hto]
    exact rule_moves r hr
  rw [not_and, not_not] at hprojection
  obtain ⟨f, hf, hid, -, hpred, -⟩ := hprojection (.inl hmoves)
  rw [hevents, List.mem_append, List.mem_singleton] at hf
  rcases hf with hf | rfl
  · exact absurd (Option.some.inj hid) (hfresh f hf)
  · exact hpred

/-- `transition_apply_after_insert` projects the event that was inserted, under any policy:
no `CHECK` is left for `OR IGNORE` to skip. -/
theorem apply_ok {db u db' : Database} (h : db.Sound) {policy : Conflict} {a : Assignment} {e : Event}
    (hvalidated : Validated db a e) (hfresh : ∀ f ∈ db.events, f.eventId ≠ e.eventId)
    (hevents : u.events = db.events ++ [e]) (hassignments : u.assignments = db.assignments)
    (hrun : (transitionApplyAfterInsert policy e).run u = .ok ⟨⟩ db') :
    e.predecessorEventId = a.currentTransitionEventId ∧
      db' = { u with assignments := stored db.assignments a.rowid (a.apply e) } := by
  have hselect : u.select (some e.assignmentId) = some a := by
    rw [Database.select, hassignments]
    exact h.select hvalidated.mem hvalidated.id
  rw [transitionApplyAfterInsert, run_get_bind, hselect] at hrun
  obtain ⟨_, v, hguard, hrow⟩ := run_bind_ok.mp hrun
  obtain rfl := (guard_state hguard).symm
  have hpred := guard_bound hvalidated hfresh hevents hguard
  refine ⟨hpred, ?_⟩
  have hproj := h.projected a hvalidated.mem
  rw [hvalidated.id] at hproj
  have hchecks : (a.apply e).Checks := by
    obtain ⟨hid, hworkflow, hmode, hcreated, -⟩ := h.checked a hvalidated.mem
    refine ⟨hid, hworkflow, hmode, hcreated, ?_⟩
    have hchain := ((h.chains _).snoc (hvalidated.legal h hpred)).checks
    rwa [replay_snoc, ← hproj] at hchain
  have hconflicts : (u.assignmentConflicts (a.apply e)).filter
      (fun b => b.rowid ≠ a.rowid) = [] := by
    rw [List.filter_eq_nil_iff]
    intro b hb hne
    rw [Database.assignmentConflicts, hassignments, List.mem_filter, decide_eq_true_eq] at hb
    have hrowid : b.rowid ≠ a.rowid := by simpa using hne
    rcases hb.2 with hb' | hb'
    · exact hrowid hb'
    · exact hrowid (congrArg (·.rowid) (h.ids b hb.1 a hvalidated.mem hb'))
  rw [show (a.apply e).toNew.row policy a.rowid = some (a.apply e) from rfl] at hrow
  dsimp only at hrow
  rw [if_neg (not_not.mpr hchecks), run_get_bind] at hrow
  rw [hconflicts, if_neg (by simp)] at hrow
  obtain ⟨_, v, hnil, hstore⟩ := run_bind_ok.mp hrow
  obtain rfl := run_forM_nil.mp hnil
  rw [run_modify_ok.mp hstore, ← hassignments]
  rfl

theorem allocate_ok {db u : Database} {given : Option ℤ} {eventId : ℤ}
    (hrun : (allocateEventId given).run db = .ok eventId u) : u = { db with eventSequence := u.eventSequence } := by
  rw [allocateEventId, run_get_bind] at hrun
  dsimp only at hrun
  rw [run_refuseIf_bind, run_bind_ok] at hrun
  obtain ⟨-, _, v, hset, hreturn⟩ := hrun
  obtain rfl := run_set_ok.mp hset
  rw [(run_pure_ok.mp hreturn).2]

theorem skipped_ok {policy : Conflict} {error : SqlError} {db db' : Database} {result : Option ℤ}
    (hrun : (do violated policy error; return none : Sqlite (Option ℤ)).run db = .ok result db') :
    (policy = .ignore ∧ result = none) ∧ db' = db := by
  obtain ⟨_, u, hskip, hreturn⟩ := run_bind_ok.mp hrun
  obtain ⟨rfl, rfl⟩ := run_pure_ok.mp hreturn
  obtain ⟨hpolicy, hu⟩ := violated_ok.mp hskip
  exact ⟨⟨hpolicy, rfl⟩, hu⟩

/-- **An event that is inserted is legal after the others of its assignment, and is projected;
one that is skipped changes nothing.** -/
theorem insertEvent_ok {db db' : Database} (h : db.Sound) {policy : Conflict} {new : NewEvent} {result : Option ℤ}
    (hrun : (insertEvent policy new).run db = .ok result db') :
    ((policy = .ignore ∧ result = none) ∧ db' = { db with eventSequence := db'.eventSequence }) ∨
      ∃ a e, result = some e.eventId ∧ Appended db new a e db' := by
  obtain ⟨_, u, hvalidate, hallocate⟩ := run_bind_ok.mp hrun
  obtain ⟨eventId, v, hallocated, hrow⟩ := run_bind_ok.mp hallocate
  obtain rfl := validate_state hvalidate
  have hv := allocate_ok hallocated
  split at hrow
  · obtain ⟨hresult, rfl⟩ := skipped_ok hrow
    exact .inl ⟨hresult, hv⟩
  · rename_i e hnew
    split at hrow
    · obtain ⟨hresult, rfl⟩ := skipped_ok hrow
      exact .inl ⟨hresult, hv⟩
    · rw [run_get_bind] at hrow
      dsimp only at hrow
      split at hrow
      · obtain ⟨hresult, rfl⟩ := skipped_ok hrow
        exact .inl ⟨hresult, hv⟩
      · obtain ⟨rfl, hnew'⟩ := row_eq_some.mp hnew
        rw [hnew'] at hvalidate
        obtain ⟨a, hvalidated⟩ := validated h hvalidate
        obtain ⟨_, w, hdelete, happly⟩ := run_bind_ok.mp hrow
        have hsound : v.Sound := hv ▸ h.sequence v.eventSequence
        -- every event is held, so a conflict would have been refused
        have hnone : v.eventConflicts e = [] := forM_deleteEvent hsound (fun f hf => List.mem_of_mem_filter hf) hdelete
        rw [hnone] at hdelete
        obtain rfl := (run_forM_nil.mp hdelete).symm
        obtain ⟨_, x, hinsert, happly⟩ := run_bind_ok.mp happly
        obtain rfl := run_modify_ok.mp hinsert
        obtain ⟨_, y, happly, hreturn⟩ := run_bind_ok.mp happly
        obtain ⟨rfl, rfl⟩ := run_pure_ok.mp hreturn
        have hconflicts : u.eventConflicts e = [] := by
          rw [hv] at hnone
          exact hnone
        have hfresh : ∀ f ∈ u.events, f.eventId ≠ e.eventId := by
          rw [Database.eventConflicts, List.filter_eq_nil_iff] at hconflicts
          intro f hf hid
          exact hconflicts f hf (by simp [hid])
        obtain ⟨hpred, rfl⟩ := apply_ok h hvalidated hfresh (by rw [hv]) (by rw [hv]) happly
        refine .inr ⟨a, e, rfl, ?_⟩
        exact ⟨hnew, hconflicts, hvalidated, hpred, by rw [hv], rfl, by rw [hv]⟩

theorem Appended.chain {db db' : Database} {new : NewEvent} {a : Assignment} {e : Event}
    (happ : Appended db new a e db') (id : Option String) :
    db'.chain id = db.chain id ++ if some e.assignmentId = id then [e] else [] := by
  rw [Database.chain, happ.events, List.filter_append]
  congr 1
  by_cases hid : some e.assignmentId = id
  · simp [hid]
  · simp [hid]

/-- **An inserted event keeps the ledger sound.** -/
theorem Appended.sound {db db' : Database} (h : db.Sound) {new : NewEvent} {a : Assignment} {e : Event}
    (happ : Appended db new a e db') : db'.Sound := by
  have hlegal := happ.validated.legal h happ.predecessor
  obtain ⟨hmem, hid, -, -, hsupersede, hnoTarget, -, -⟩ := happ.validated
  have hproj := h.projected a hmem
  have hchecks : (a.apply e).Checks := by
    obtain ⟨hlength, hworkflow, hmode, hcreated, -⟩ := h.checked a hmem
    refine ⟨hlength, hworkflow, hmode, hcreated, ?_⟩
    have hchain := ((h.chains _).snoc hlegal).checks
    rwa [replay_snoc, ← hid, ← hproj] at hchain
  have hconflicts : ∀ f ∈ db.events, f.eventId ≠ e.eventId ∧
      ¬ (f.assignmentId = e.assignmentId ∧ f.operationId = e.operationId) := by
    have hfresh := happ.fresh
    rw [Database.eventConflicts, List.filter_eq_nil_iff] at hfresh
    intro f hf
    simpa using hfresh f hf
  obtain ⟨hrowids, hids, hchecked⟩ := h.stored_keys hmem hchecks fun b hb hne =>
    ⟨hne, fun heq => hne (congrArg (·.rowid) (h.ids b hb a hmem heq))⟩
  rw [← happ.assignments] at hrowids hids hchecked
  refine ⟨hrowids, hids, hchecked, ?_, ?_, ?_, ?_, ?_, ?_⟩
  · rw [happ.events, List.map_append, List.nodup_append]
    refine ⟨h.eventIds, by simp, ?_⟩
    intro id hmem' id' hmem''
    obtain ⟨f, hf, rfl⟩ := List.mem_map.mp hmem'
    obtain rfl : id' = e.eventId := by simpa using hmem''
    exact (hconflicts f hf).1
  · rw [happ.events, List.map_append, List.nodup_append]
    refine ⟨h.operations, by simp, ?_⟩
    intro key hmem' key' hmem''
    obtain ⟨f, hf, rfl⟩ := List.mem_map.mp hmem'
    obtain rfl : key' = (e.assignmentId, e.operationId) := by simpa using hmem''
    simpa using (hconflicts f hf).2
  · rw [happ.events]
    intro f hf t ht
    rcases List.mem_append.mp hf with hf | hf
    · exact h.targets f hf t ht
    · obtain rfl := List.mem_singleton.mp hf
      by_cases hcase : f.transitionTypeId = "SUPERSEDE"
      · obtain ⟨t', ht', -, b, hb, hbid⟩ := hsupersede hcase
        obtain rfl : t' = t := Option.some.inj (ht'.symm.trans ht)
        exact (h.checked b hb).1 t' hbid
      · simp [hnoTarget hcase] at ht
  · rw [happ.events, happ.assignments]
    intro f hf
    have hkept : ∀ b ∈ db.assignments, ∃ c ∈ stored db.assignments a.rowid (a.apply e),
        c.assignmentId = b.assignmentId := by
      intro b hb
      by_cases hrowid : b.rowid = a.rowid
      · obtain rfl := h.of_rowid hb hmem hrowid
        exact ⟨_, (mem_stored hmem).mpr (.inl rfl), rfl⟩
      · exact ⟨b, (mem_stored hmem).mpr (.inr ⟨hb, hrowid⟩), rfl⟩
    rcases List.mem_append.mp hf with hf | hf
    · obtain ⟨b, hb, hbid⟩ := h.recorded f hf
      obtain ⟨c, hc, hcid⟩ := hkept b hb
      exact ⟨c, hc, hcid.trans hbid⟩
    · obtain rfl := List.mem_singleton.mp hf
      obtain ⟨c, hc, hcid⟩ := hkept a hmem
      exact ⟨c, hc, hcid.trans hid⟩
  · intro id
    rw [happ.chain]
    split
    · rename_i heq
      subst heq
      exact (h.chains _).snoc hlegal
    · simpa using h.chains id
  · rw [happ.assignments]
    intro b hb
    rw [happ.chain]
    rcases (mem_stored hmem).mp hb with rfl | ⟨hb', hrowid⟩
    · rw [if_pos (show some e.assignmentId = (a.apply e).assignmentId from hid.symm), replay_snoc,
        show (a.apply e).assignmentId = a.assignmentId from rfl, ← hproj]
      rfl
    · have hne : some e.assignmentId ≠ b.assignmentId := fun heq =>
        hrowid (congrArg (·.rowid) (h.of_id hb' hmem heq.symm hid))
      rw [if_neg hne, List.append_nil]
      exact h.projected b hb'

end CcbCore.Ledger
