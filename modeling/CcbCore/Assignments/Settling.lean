import CcbCore.Assignments.Visits
import Mathlib.Data.List.Count

/-!
# The reconciliation comes to a fixed point

Each pass of the main loop that makes progress leaves fewer messages without their event, so it
ends (`run_sweeps`); the last pass has passed over every message. What is left is `Settled`: all
that the loops would put on record is, and no message is ready that they are over. A call leaves
the tables settled (`reconcile_settles`), and changes nothing where they are
(`reconcile_settled`). A message that was once observed to be invalid stays out, even if its
assignee is registered later (`late_identity_left`).
-/

namespace CcbCore.Assignments

open CcbCore.Postgres CcbCore.Raising CcbCore.Sql
open CcbCore.Projection (MessageRow ReconciliationEvent SqlError Timestamptz)

variable {server : Server} {now : ℤ} {db db' db'' : Plane} {m : Message}

/-! ### Loops that observe -/

/-- What a loop leaves that puts messages on record of which something holds. -/
structure NotesAll (code : String) (holds : Message → Prop) (l : List Message) (before after : List ReconciliationEvent) :
    Prop where
  there : ∀ m ∈ l, holds m → observed after code m.messageId = true
  only (code' messageId : String) : observed after code' messageId = true ↔
    observed before code' messageId = true ∨ (code' = code ∧ ∃ m ∈ l, holds m ∧ m.messageId = messageId)

theorem run_noting_loop (db : Plane) (code : String) (holds : Message → Prop) {f : Counts → Message → Plpgsql Counts}
    {add : Counts → ℕ → Counts} (hadd : ∀ counts, add counts 0 = counts)
    (hbody : ∀ counts events m, ∃ inserted events',
      (f counts m).run { db with reconciliationEvents := events } =
        .ok (add counts inserted) { db with reconciliationEvents := events' } ∧
      Notes code (holds m) { db with reconciliationEvents := events } m inserted events')
    (l : List Message) (counts : Counts) (before : List ReconciliationEvent) :
    ∃ counts' after, (l.foldlM f counts).run { db with reconciliationEvents := before } =
        .ok counts' { db with reconciliationEvents := after } ∧
      NotesAll code holds l before after ∧
      ((∀ m ∈ l, holds m → observed before code m.messageId = true) → counts' = counts ∧ after = before) := by
  induction l generalizing counts before with
  | nil => exact ⟨counts, before, rfl, ⟨fun m hm => absurd hm List.not_mem_nil, by simp⟩, fun _ => ⟨rfl, rfl⟩⟩
  | cons m l ih =>
    obtain ⟨inserted, events, hrun, hnotes⟩ := hbody counts before m
    obtain ⟨counts', after, hrest, hall, hsame⟩ := ih (add counts inserted) events
    have hkept {code' messageId : String} (h : observed events code' messageId = true) : observed after code' messageId = true :=
      (hall.only code' messageId).mpr (.inl h)
    refine ⟨counts', after, ?_, ⟨?_, fun code' messageId => ?_⟩, fun hthere => ?_⟩
    · rw [List.foldlM_cons]
      exact run_bind_ok.mpr ⟨_, _, hrun, hrest⟩
    · intro m' hm' hholds
      rcases List.mem_cons.mp hm' with rfl | hm'
      · exact hkept (hnotes.there hholds)
      · exact hall.there m' hm' hholds
    · constructor
      · intro h
        rcases (hall.only code' messageId).mp h with h | ⟨hcode, m', hm', hholds, hid⟩
        · rcases (hnotes.only code' messageId).mp h with h | ⟨-, hholds, hcode, hid⟩
          · exact .inl h
          · exact .inr ⟨hcode, m, List.mem_cons_self, hholds, hid.symm⟩
        · exact .inr ⟨hcode, m', List.mem_cons_of_mem _ hm', hholds, hid⟩
      · rintro (h | ⟨rfl, m', hm', hholds, rfl⟩)
        · exact hkept ((hnotes.only code' messageId).mpr (.inl h))
        · rcases List.mem_cons.mp hm' with rfl | hm'
          · exact hkept (hnotes.there hholds)
          · exact hall.there m' hm' hholds
    · obtain ⟨rfl, rfl⟩ := hnotes.still (hthere m List.mem_cons_self)
      obtain ⟨hcounts, hafter⟩ := hsame fun m' hm' => hthere m' (List.mem_cons_of_mem _ hm')
      exact ⟨hcounts.trans (hadd counts), hafter⟩

/-! ### What the main loop keeps -/

/-- The main loop leaves the messages and the identities, and observes nothing but conflicts. -/
structure Kept (db db' : Plane) : Prop where
  identities : db'.identities = db.identities
  messages : db'.messages = db.messages
  observed : ∀ code messageId, code ≠ "ASSIGNMENT_EVENT_CONFLICT" →
    observed db'.reconciliationEvents code messageId = Assignments.observed db.reconciliationEvents code messageId

theorem Kept.refl (db : Plane) : Kept db db := ⟨rfl, rfl, fun _ _ _ => rfl⟩

theorem Kept.trans (h : Kept db db') (h' : Kept db' db'') : Kept db db'' :=
  ⟨h'.identities.trans h.identities, h'.messages.trans h.messages, fun code messageId hcode =>
    (h'.observed code messageId hcode).trans (h.observed code messageId hcode)⟩

theorem Kept.records (h : Kept db db') : db'.records = db.records := by
  rw [Plane.records, Plane.records, h.messages]

theorem Kept.projectable (h : Kept db db') (server : Server) : db'.projectable server = db.projectable server := by
  simp only [Plane.projectable, h.records, h.observed _ _ (show "ASSIGNMENT_ENVELOPE_INVALID" ≠ "ASSIGNMENT_EVENT_CONFLICT" by decide)]

/-- A message that is applied leaves the rest. -/
theorem Applies.kept (h : Applies server db m db') : Kept db db' := by
  cases h <;> exact ⟨rfl, rfl, fun _ _ _ => rfl⟩

theorem Notes.kept {holds : Prop} {inserted : ℕ} {events : List ReconciliationEvent}
    (h : Notes "ASSIGNMENT_EVENT_CONFLICT" holds db m inserted events) : Kept db { db with reconciliationEvents := events } := by
  refine ⟨rfl, rfl, fun code messageId hcode => ?_⟩
  have hiff := h.only code messageId
  simp only [hcode, false_and, and_false, or_false] at hiff
  exact Bool.eq_iff_iff.mpr hiff

/-- The event that a message gets. -/
theorem Applies.events (h : Applies server db m db') : ∃ event, db'.assignmentEvents = db.assignmentEvents ++ [event] ∧
    event.assignmentId = (envelope server m.payload).assignmentId ∧ event.operationId = m.messageId ∧
    event.eventId = db.nextEventId ∧ db'.nextEventId = db.nextEventId + 1 := by
  cases h <;> exact ⟨_, rfl, rfl, rfl, rfl, rfl⟩

theorem Applies.numbered (h : Applies server db m db') (hnumbered : db.Numbered) : db'.Numbered := by
  obtain ⟨event, hevents, -, -, hid, hnext⟩ := h.events
  intro other hmem
  rw [hevents, List.mem_append, List.mem_singleton] at hmem
  rw [hnext]
  rcases hmem with hmem | rfl
  · have hlt := hnumbered other hmem
    omega
  · rw [hid]
    omega

/-- An assignment names as its source a message of another. -/
def Plane.Misplaced (db : Plane) (server : Server) : Prop :=
  ∃ id row, ∃ m ∈ db.records, db.assignments.lookup id = some row ∧ row.sourceMessageId = some m.messageId ∧
    (envelope server m.payload).assignmentId ≠ id

/-- Two messages of one id are one. -/
theorem record_unique {m' : Message} (hm : m ∈ db.records) (hm' : m' ∈ db.records) (hid : m.messageId = m'.messageId) : m = m' := by
  have h := db.mem_records.mp hm
  rw [hid, db.mem_records.mp hm'] at h
  obtain ⟨row, id⟩ := m
  obtain ⟨row', id'⟩ := m'
  obtain rfl : id = id' := hid
  obtain rfl : row' = row := Option.some.inj h
  rfl

theorem Applies.misplaced (h : Applies server db m db') (hm : m ∈ db.records) (h' : db'.Misplaced server) : db.Misplaced server := by
  have hrecords := h.kept.records
  obtain ⟨id, row, m', hm', hrow, hsource, hid⟩ := h'
  rw [hrecords] at hm'
  cases h with
  | root _ _ _ hnew =>
    rcases Table.lookup_insert_eq_some.mp hrow with ⟨rfl, rfl⟩ | ⟨-, hrow⟩
    · obtain rfl := record_unique hm hm' (Option.some.inj hsource)
      exact absurd rfl hid
    · exact ⟨id, row, m', hm', hrow, hsource, hid⟩
  | successor _ _ _ hold =>
    rcases Table.lookup_insert_eq_some.mp hrow with ⟨rfl, rfl⟩ | ⟨-, hrow⟩
    · exact ⟨_, _, m', hm', hold, hsource, hid⟩
    · exact ⟨id, row, m', hm', hrow, hsource, hid⟩

/-! ### Progress -/

instance : Decidable (db.Applied server m) := inferInstanceAs (Decidable (_ = true))

/-- How many messages are without their event. -/
def Plane.unapplied (db : Plane) (server : Server) : ℕ := db.records.countP fun m => ¬ db.Applied server m

theorem Plane.unapplied_le (db : Plane) (server : Server) : db.unapplied server ≤ db.records.length := List.countP_le_length

theorem Applies.applied (h : Applies server db m db') {m' : Message} (h' : db.Applied server m') : db'.Applied server m' := by
  obtain ⟨event, hevents, -⟩ := h.events
  obtain ⟨other, hmem, hother⟩ := eventOf_isSome.mp h'
  exact eventOf_isSome.mpr ⟨other, by rw [hevents]; exact List.mem_append_left _ hmem, hother⟩

theorem Applies.applied_self (h : Applies server db m db') : ¬ db.Applied server m ∧ db'.Applied server m := by
  refine ⟨by cases h <;> assumption, ?_⟩
  obtain ⟨event, hevents, hassignment, hoperation, -⟩ := h.events
  exact eventOf_isSome.mpr ⟨event, by rw [hevents]; simp, hassignment, hoperation⟩

/-- A message that is applied is one less without its event. -/
theorem Applies.unapplied_lt (h : Applies server db m db') (hm : m ∈ db.records) : db'.unapplied server < db.unapplied server := by
  obtain ⟨hnot, happlied⟩ := h.applied_self
  rw [Plane.unapplied, Plane.unapplied, h.kept.records]
  obtain ⟨before, after, hsplit⟩ := List.append_of_mem hm
  have hmono (l : List Message) : (l.countP fun m => ¬ db'.Applied server m) ≤ l.countP fun m => ¬ db.Applied server m :=
    List.countP_mono_left fun m' _ hm' => by
      rw [decide_eq_true_iff] at hm' ⊢
      exact fun hyes => hm' (h.applied hyes)
  rw [hsplit, List.countP_append, List.countP_append, List.countP_cons, List.countP_cons]
  have hbefore := hmono before
  have hafter := hmono after
  simp only [hnot, happlied, not_true_eq_false, not_false_eq_true, decide_true, decide_false, if_true, Bool.false_eq_true, if_false]
  omega

/-! ### Sweeps -/

/-- A message was passed over, and a conflict of it is on record. -/
structure Passed (server : Server) (db : Plane) (events : List ReconciliationEvent) (m : Message) : Prop where
  idle : db.Applied server m ∨ ¬ db.Ready server m
  recorded : db.Conflicts server m → observed events "ASSIGNMENT_EVENT_CONFLICT" m.messageId = true

theorem ready_recording {events : List ReconciliationEvent} :
    ({ db with reconciliationEvents := events } : Plane).Ready server m ↔ db.Ready server m := by
  constructor
  · rintro (⟨hroot, hnew⟩ | ⟨hroot, hrow, hbinding, hpredecessor, hcurrent⟩)
    · exact .root hroot hnew
    · exact .successor hroot hrow hbinding hpredecessor hcurrent
  · rintro (⟨hroot, hnew⟩ | ⟨hroot, hrow, hbinding, hpredecessor, hcurrent⟩)
    · exact .root hroot hnew
    · exact .successor hroot hrow hbinding hpredecessor hcurrent

/-- Whether a message is passed over does not depend on the observations. -/
theorem passed_recording {events events' : List ReconciliationEvent} :
    Passed server { db with reconciliationEvents := events } events' m ↔ Passed server db events' m := by
  constructor
  · rintro ⟨happlied | hready, hrecorded⟩
    · exact ⟨.inl happlied, hrecorded⟩
    · exact ⟨.inr fun h => hready (ready_recording.mpr h), hrecorded⟩
  · rintro ⟨happlied | hready, hrecorded⟩
    · exact ⟨.inl happlied, hrecorded⟩
    · exact ⟨.inr fun h => hready (ready_recording.mp h), hrecorded⟩

/-- The messages that the main loop is over are valid. -/
def Valid (server : Server) (db : Plane) (m : Message) : Prop :=
  m ∈ db.records ∧ ¬ (envelope server m.payload).Invalid db.identities

theorem Valid.kept (h : Valid server db m) (hkept : Kept db db') : Valid server db' m := by
  rw [Valid, hkept.records, hkept.identities]
  exact h

/-- A message that is passed over changes nothing if it is on record. -/
theorem run_visit_passed {locals : Locals} (h : Passed server db db.reconciliationEvents m) :
    (visit server now locals m).run db = .ok locals db := by
  unfold visit
  rw [run_get_bind]
  rcases verdict_cases db server m with ⟨hverdict, -⟩ | ⟨fields, hverdict, -⟩ | ⟨hverdict, happlied, hroot, hnew⟩ |
    ⟨row, predecessor, hverdict, happlied, hroot, hrow, hbinding, hpredecessor, hcurrent⟩
  · rw [hverdict]
    rfl
  · have hrun : (observeOnce now m "ASSIGNMENT_EVENT_CONFLICT" "AMBIGUOUS_DURABLE_CONFLICT" fields).run db = .ok _ _ :=
      run_observeOnce _ _ fields
    rw [Plane.noted, Plane.noting, h.recorded ⟨fields, hverdict⟩] at hrun
    rw [hverdict]
    exact run_bind_ok.mpr ⟨_, _, hrun, rfl⟩
  · exact absurd (.root hroot hnew) (h.idle.resolve_left happlied)
  · exact absurd (.successor hroot hrow hbinding hpredecessor hcurrent) (h.idle.resolve_left happlied)

theorem run_visits_passed {l : List Message} {locals : Locals} (h : ∀ m ∈ l, Passed server db db.reconciliationEvents m) :
    (l.foldlM (visit server now) locals).run db = .ok locals db := by
  induction l with
  | nil => rfl
  | cons m l ih =>
    rw [List.foldlM_cons]
    exact run_bind_ok.mpr ⟨_, _, run_visit_passed (h m List.mem_cons_self), ih fun m' hm' => h m' (List.mem_cons_of_mem _ hm')⟩

/-- The tables after a pass that made progress. -/
structure Progressed (server : Server) (db db' : Plane) : Prop where
  kept : Kept db db'
  numbered : db'.Numbered
  unapplied : db'.unapplied server < db.unapplied server
  misplaced : db'.Misplaced server → db.Misplaced server

/-- A loop over valid messages passes over all of them; or it makes progress; or it raises, as an
assignment's source is another's message. -/
theorem visits_cases (server : Server) (now : ℤ) (l : List Message) (locals : Locals) (hnumbered : db.Numbered)
    (hvalid : ∀ m ∈ l, Valid server db m) :
    (∃ counts events, (l.foldlM (visit server now) locals).run db =
        .ok { locals with counts } { db with reconciliationEvents := events } ∧
      Kept db { db with reconciliationEvents := events } ∧
      (∀ messageId, observed db.reconciliationEvents "ASSIGNMENT_EVENT_CONFLICT" messageId = true →
        observed events "ASSIGNMENT_EVENT_CONFLICT" messageId = true) ∧
      ∀ m ∈ l, Passed server db events m) ∨
    (∃ counts db', (l.foldlM (visit server now) locals).run db = .ok { progress := true, counts } db' ∧ Progressed server db db') ∨
    (∃ db', (l.foldlM (visit server now) locals).run db = .error sourceViolation db' ∧ db.Misplaced server) := by
  induction l generalizing db locals with
  | nil => exact .inl ⟨locals.counts, db.reconciliationEvents, rfl, .refl db, fun _ h => h, fun m hm => absurd hm List.not_mem_nil⟩
  | cons m l ih =>
    obtain ⟨hm, hnotInvalid⟩ := hvalid m List.mem_cons_self
    have hrest {db' : Plane} (hkept : Kept db db') : ∀ m' ∈ l, Valid server db' m' :=
      fun m' hm' => (hvalid m' (List.mem_cons_of_mem _ hm')).kept hkept
    rw [List.foldlM_cons]
    rcases visit_cases server now locals hnumbered hm hnotInvalid with ⟨inserted, events, hover, hrun, hnotes⟩ |
      ⟨counts, db', hrun, happlies⟩ | ⟨hrun, ⟨id, row, hrow, hsource⟩, hnew⟩
    · have hkept := hnotes.kept
      have hnumbered' : ({ db with reconciliationEvents := events } : Plane).Numbered := hnumbered
      have hmono (messageId : String) (h : observed db.reconciliationEvents "ASSIGNMENT_EVENT_CONFLICT" messageId = true) :
          observed events "ASSIGNMENT_EVENT_CONFLICT" messageId = true := (hnotes.only _ _).mpr (.inl h)
      rcases ih { locals with counts := { locals.counts with
          conflictObservationsInserted := locals.counts.conflictObservationsInserted + inserted } } hnumbered' (hrest hkept) with
        ⟨counts', events', hrun', hkept', hmono', hpassed⟩ | ⟨counts', db', hrun', hprogressed⟩ | ⟨db', hrun', hmisplaced⟩
      · refine .inl ⟨counts', events', run_bind_ok.mpr ⟨_, _, hrun, hrun'⟩, hkept.trans hkept', fun messageId h =>
          hmono' messageId (hmono messageId h), fun m' hm' => ?_⟩
        rcases List.mem_cons.mp hm' with rfl | hm'
        · exact ⟨hover, fun hconflicts => hmono' _ (hnotes.there hconflicts)⟩
        · exact passed_recording.mp (hpassed m' hm')
      · exact .inr (.inl ⟨counts', db', run_bind_ok.mpr ⟨_, _, hrun, hrun'⟩, hkept.trans hprogressed.kept, hprogressed.numbered,
          hprogressed.unapplied, hprogressed.misplaced⟩)
      · exact .inr (.inr ⟨db', run_bind_error.mpr (.inr ⟨_, _, hrun, hrun'⟩), hmisplaced⟩)
    · have hkept := happlies.kept
      have hlt := happlies.unapplied_lt hm
      rcases ih { progress := true, counts } (happlies.numbered hnumbered) (hrest hkept) with
        ⟨counts', events', hrun', hkept', -, -⟩ | ⟨counts', db'', hrun', hprogressed⟩ | ⟨db'', hrun', hmisplaced⟩
      · exact .inr (.inl ⟨counts', _, run_bind_ok.mpr ⟨_, _, hrun, hrun'⟩, hkept.trans hkept', happlies.numbered hnumbered, hlt,
          happlies.misplaced hm⟩)
      · exact .inr (.inl ⟨counts', db'', run_bind_ok.mpr ⟨_, _, hrun, hrun'⟩, hkept.trans hprogressed.kept, hprogressed.numbered,
          hprogressed.unapplied.trans hlt, fun h => happlies.misplaced hm (hprogressed.misplaced h)⟩)
      · exact .inr (.inr ⟨db'', run_bind_error.mpr (.inr ⟨_, _, hrun, hrun'⟩), happlies.misplaced hm hmisplaced⟩)
    · refine .inr (.inr ⟨db, run_bind_error.mpr (.inl hrun), id, row, m, hm, hrow, hsource, ?_⟩)
      rintro rfl
      rw [hnew] at hrow
      cases hrow

/-- The envelopes that the first loop is over are valid or on record. -/
def Plane.Checked (db : Plane) (server : Server) : Prop :=
  ∀ m ∈ db.explicit server, (envelope server m.payload).Invalid db.identities →
    observed db.reconciliationEvents "ASSIGNMENT_ENVELOPE_INVALID" m.messageId = true

theorem mem_explicit : m ∈ db.explicit server ↔
    m ∈ db.records ∧ m.domain = "chat_bus" ∧ assignmentKeys.any (hasKey m.payload) = true := by
  rw [Plane.explicit, (List.perm_insertionSort _ _).mem_iff, List.mem_filter, decide_eq_true_iff]

theorem mem_projectable : m ∈ db.projectable server ↔ m ∈ db.records ∧ m.domain = "chat_bus" ∧
    hasKey m.payload "assignment_id" = true ∧ observed db.reconciliationEvents "ASSIGNMENT_ENVELOPE_INVALID" m.messageId = false := by
  rw [Plane.projectable, (List.perm_insertionSort _ _).mem_iff, List.mem_filter, decide_eq_true_iff]

theorem Plane.Checked.valid (h : db.Checked server) (hm : m ∈ db.projectable server) : Valid server db m := by
  obtain ⟨hrecord, hdomain, hkey, hnone⟩ := mem_projectable.mp hm
  refine ⟨hrecord, fun hinvalid => ?_⟩
  rw [h m (mem_explicit.mpr ⟨hrecord, hdomain, by simp [assignmentKeys, hkey]⟩) hinvalid] at hnone
  cases hnone

theorem Plane.Checked.kept (h : db.Checked server) (hkept : Kept db db') : db'.Checked server := by
  intro m hm hinvalid
  rw [hkept.observed _ _ (by decide)]
  rw [hkept.identities] at hinvalid
  refine h m (mem_explicit.mpr ?_) hinvalid
  rw [← hkept.records]
  exact mem_explicit.mp hm

/-- The main loop has passed over all its messages. -/
def Plane.Still (db : Plane) (server : Server) : Prop := ∀ m ∈ db.projectable server, Passed server db db.reconciliationEvents m

/-- **Enough passes end the main loop, which leaves no message that is ready; or it raises, as an
assignment's source is another's message.** -/
theorem run_sweeps (server : Server) (now : ℤ) {passes : ℕ} (counts : Counts) (hnumbered : db.Numbered)
    (hchecked : db.Checked server) (hpasses : db.unapplied server < passes) :
    (∃ counts' db', (sweeps server now passes counts).run db = .ok counts' db' ∧ Kept db db' ∧ db'.Numbered ∧ db'.Still server) ∨
    (∃ db', (sweeps server now passes counts).run db = .error sourceViolation db' ∧ db.Misplaced server) := by
  induction passes generalizing db counts with
  | zero => omega
  | succ passes ih =>
    rcases visits_cases server now (db.projectable server) { counts } hnumbered fun m hm => hchecked.valid hm with
      ⟨counts', events, hrun, hkept, -, hpassed⟩ | ⟨counts', db', hrun, hprogressed⟩ | ⟨db', hrun, hmisplaced⟩
    · refine .inl ⟨counts', _, run_bind_ok.mpr ⟨_, _, hrun, rfl⟩, hkept, hnumbered, fun m hm => ?_⟩
      rw [hkept.projectable] at hm
      exact passed_recording.mpr (hpassed m hm)
    · have hlt := hprogressed.unapplied
      rcases ih counts' hprogressed.numbered (hchecked.kept hprogressed.kept) (by omega) with
        ⟨counts'', db'', hrun', hkept', hnumbered', hstill⟩ | ⟨db'', hrun', hmisplaced⟩
      · exact .inl ⟨counts'', db'', run_bind_ok.mpr ⟨_, _, hrun, hrun'⟩, hprogressed.kept.trans hkept', hnumbered', hstill⟩
      · exact .inr ⟨db'', run_bind_error.mpr (.inr ⟨_, _, hrun, hrun'⟩), hprogressed.misplaced hmisplaced⟩
    · exact .inr ⟨db', run_bind_error.mpr (.inl hrun), hmisplaced⟩

/-! ### Calls -/

theorem mem_waiting : m ∈ db.waiting server ↔ m ∈ db.records ∧ m.domain = "chat_bus" ∧ hasKey m.payload "assignment_id" = true ∧
    (envelope server m.payload).event ≠ "ASSIGNED" ∧
    ((m.payload.getText "assignment_id").bind fun id => db.eventOf (btrim id) m.messageId) = none ∧
    observed db.reconciliationEvents "ASSIGNMENT_ENVELOPE_INVALID" m.messageId = false ∧
    observed db.reconciliationEvents "ASSIGNMENT_EVENT_CONFLICT" m.messageId = false := by
  rw [Plane.waiting, (List.perm_insertionSort _ _).mem_iff, List.mem_filter, decide_eq_true_iff]

/-- The loops have nothing to do. -/
structure Settled (server : Server) (db : Plane) : Prop where
  checked : db.Checked server
  still : db.Still server
  awaited : ∀ m ∈ db.waiting server, observed db.reconciliationEvents "ASSIGNMENT_EVENT_PENDING_PREDECESSOR" m.messageId = true

/-- What a call leaves as it is. -/
structure Called (server : Server) (db db' : Plane) : Prop where
  identities : db'.identities = db.identities
  messages : db'.messages = db.messages
  numbered : db'.Numbered
  /-- Only what is invalid is observed to be so. -/
  invalid : ∀ messageId, observed db'.reconciliationEvents "ASSIGNMENT_ENVELOPE_INVALID" messageId = true →
    observed db.reconciliationEvents "ASSIGNMENT_ENVELOPE_INVALID" messageId = true ∨
      ∃ m ∈ db.records, m.messageId = messageId ∧ (envelope server m.payload).Invalid db.identities

/-- Where other codes were observed, the queries do not change. -/
theorem NotesAll.observed_eq {code code' : String} {holds : Message → Prop} {l : List Message}
    {before after : List ReconciliationEvent} (h : NotesAll code holds l before after) (hcode : code' ≠ code) (messageId : String) :
    observed after code' messageId = observed before code' messageId := by
  have hiff := h.only code' messageId
  simp only [hcode, false_and, or_false] at hiff
  exact Bool.eq_iff_iff.mpr hiff

/-- **A call settles the tables; or it raises, as an assignment's source is another's message.** -/
theorem reconcile_settles (server : Server) (now : ℤ) {passes : ℕ} (hnumbered : db.Numbered) (hpasses : db.records.length < passes) :
    (∃ counts db', (reconcileBusAssignmentsV1 server now passes).run db = .ok counts db' ∧ Called server db db' ∧ Settled server db') ∨
    (∃ db', (reconcileBusAssignmentsV1 server now passes).run db = .error sourceViolation db' ∧ db.Misplaced server) := by
  obtain ⟨counts, events, hrun, hnotes, -⟩ := run_noting_loop db "ASSIGNMENT_ENVELOPE_INVALID"
    (fun m => (envelope server m.payload).Invalid db.identities) (fun _ => rfl)
    (fun counts events m => run_checkEnvelope server now counts m) (db.explicit server) {} db.reconciliationEvents
  unfold reconcileBusAssignmentsV1
  rw [run_get_bind]
  have hchecked : ({ db with reconciliationEvents := events } : Plane).Checked server := fun m hm => hnotes.there m hm
  have hnumbered' : ({ db with reconciliationEvents := events } : Plane).Numbered := hnumbered
  have hunapplied : ({ db with reconciliationEvents := events } : Plane).unapplied server < passes :=
    (Plane.unapplied_le _ server).trans_lt hpasses
  rcases run_sweeps server now counts hnumbered' hchecked hunapplied with ⟨counts', db', hrun', hkept, hnumbered'', hstill⟩ |
    ⟨db', hrun', hmisplaced⟩
  · obtain ⟨counts'', events', hrun'', hawaited, -⟩ := run_noting_loop db' "ASSIGNMENT_EVENT_PENDING_PREDECESSOR"
      (fun _ => True) (fun _ => rfl) (fun counts events m => run_awaitPredecessor server now counts m)
      (db'.waiting server) counts' db'.reconciliationEvents
    have hinvalid := hawaited.observed_eq (show "ASSIGNMENT_ENVELOPE_INVALID" ≠ "ASSIGNMENT_EVENT_PENDING_PREDECESSOR" by decide)
    have hconflict := hawaited.observed_eq (show "ASSIGNMENT_EVENT_CONFLICT" ≠ "ASSIGNMENT_EVENT_PENDING_PREDECESSOR" by decide)
    refine .inl ⟨counts'', _, run_bind_ok.mpr ⟨_, _, hrun, run_bind_ok.mpr ⟨_, _, hrun', hrun''⟩⟩,
      ⟨hkept.identities, hkept.messages, hnumbered'', fun messageId hobserved => ?_⟩, ?_, ?_, ?_⟩
    · rw [hinvalid, hkept.observed _ _ (by decide)] at hobserved
      rcases (hnotes.only _ _).mp hobserved with h | ⟨-, m, hm, hholds, hid⟩
      · exact .inl h
      · exact .inr ⟨m, (mem_explicit.mp hm).1, hid, hholds⟩
    · intro m hm
      have hexplicit := (hchecked.kept hkept) m hm
      rwa [hinvalid]
    · intro m hm
      have hmem : m ∈ db'.projectable server := by
        rw [mem_projectable] at hm ⊢
        rwa [← hinvalid]
      obtain ⟨hover, hrecorded⟩ := hstill m hmem
      refine passed_recording.mpr ⟨hover, fun hconflicts => ?_⟩
      rw [hconflict]
      exact hrecorded hconflicts
    · intro m hm
      refine hawaited.there m ?_ trivial
      rw [mem_waiting] at hm ⊢
      rwa [← hinvalid, ← hconflict]
  · exact .inr ⟨db', run_bind_error.mpr (.inr ⟨_, _, hrun, run_bind_error.mpr (.inl hrun')⟩), hmisplaced⟩

/-- **A call changes nothing where the tables are settled.** -/
theorem reconcile_settled (now : ℤ) {passes : ℕ} (hpasses : 0 < passes) (h : Settled server db) :
    (reconcileBusAssignmentsV1 server now passes).run db = .ok {} db := by
  obtain ⟨passes, rfl⟩ := Nat.exists_eq_succ_of_ne_zero hpasses.ne'
  obtain ⟨counts, events, hrun, -, hsame⟩ := run_noting_loop db "ASSIGNMENT_ENVELOPE_INVALID"
    (fun m => (envelope server m.payload).Invalid db.identities) (fun _ => rfl)
    (fun counts events m => run_checkEnvelope server now counts m) (db.explicit server) {} db.reconciliationEvents
  obtain ⟨rfl, rfl⟩ := hsame h.checked
  obtain ⟨counts, events, hrun', -, hsame'⟩ := run_noting_loop db "ASSIGNMENT_EVENT_PENDING_PREDECESSOR"
    (fun _ => True) (fun _ => rfl) (fun counts events m => run_awaitPredecessor server now counts m)
    (db.waiting server) {} db.reconciliationEvents
  obtain ⟨rfl, rfl⟩ := hsame' fun m hm _ => h.awaited m hm
  have hsweep : (sweep server now {}).run db = .ok { counts := {} } db := run_visits_passed h.still
  unfold reconcileBusAssignmentsV1
  rw [run_get_bind]
  exact run_bind_ok.mpr ⟨_, _, hrun, run_bind_ok.mpr ⟨_, _, run_bind_ok.mpr ⟨_, _, hsweep, rfl⟩, hrun'⟩⟩

/-- An envelope that names an assignment has its key. -/
theorem hasKey_of_trimmed {payload : Jsonb} {key : String} (h : trimmed payload key "" ≠ "") : hasKey payload key = true := by
  cases htext : payload.getText key with
  | none =>
    rw [trimmed, htext] at h
    exact absurd (by decide) h
  | some text =>
    cases payload with
    | object fields =>
      dsimp only [Jsonb.getText] at htext
      cases hfield : fields.lookup key with
      | none =>
        rw [hfield] at htext
        cases htext
      | some value =>
        refine List.any_eq_true.mpr ⟨(key, value), ?_, by simp⟩
        obtain ⟨before, after, rfl, -⟩ := List.lookup_eq_some_iff.mp hfield
        simp
    | _ => cases htext

/-- A message with a valid envelope, never observed to be invalid, that the main loop is to apply. -/
structure Plane.Left (db : Plane) (server : Server) (observations : List ReconciliationEvent) (m : Message) : Prop where
  domain : m.domain = "chat_bus"
  valid : Valid server db m
  never : observed observations "ASSIGNMENT_ENVELOPE_INVALID" m.messageId = false
  ready : db.Ready server m
  unapplied : ¬ db.Applied server m

theorem Settled.none_left (h : Settled server db) : ¬ db.Left server db.reconciliationEvents m := by
  rintro ⟨hdomain, ⟨hrecord, hvalid⟩, hnever, hready, hunapplied⟩
  have hkey := hasKey_of_trimmed (valid_parts hvalid).1
  rcases (h.still m (mem_projectable.mpr ⟨hrecord, hdomain, hkey, hnever⟩)).idle with happlied | hnot
  · exact hunapplied happlied
  · exact hnot hready

theorem Called.records (h : Called server db db') : db'.records = db.records := by
  rw [Plane.records, Plane.records, h.messages]

/-- What a call observes to be invalid is so. -/
theorem Called.never (h : Called server db db') (hvalid : Valid server db' m)
    (hnever : observed db.reconciliationEvents "ASSIGNMENT_ENVELOPE_INVALID" m.messageId = false) :
    observed db'.reconciliationEvents "ASSIGNMENT_ENVELOPE_INVALID" m.messageId = false := by
  rw [← Bool.not_eq_true]
  intro hobserved
  rcases h.invalid _ hobserved with hbefore | ⟨m', hm', hid, hinvalid⟩
  · rw [hnever] at hbefore
    cases hbefore
  · obtain ⟨hrecord, hvalid⟩ := hvalid
    rw [h.records] at hrecord
    obtain rfl := record_unique hm' hrecord hid
    rw [h.identities] at hvalid
    exact hvalid hinvalid

/-- **A call ends within one pass more than there are messages. It leaves no valid message that
was never observed to be invalid and is a root of an unknown assignment, or names the current
event of its assignment, without its event, and a second call does nothing; or it raises, as an
assignment names as its source a message of another.** -/
theorem reconcile_fixed_point (server : Server) (now : ℤ) {db : Plane} {passes : ℕ} (hnumbered : db.Numbered)
    (hpasses : db.records.length < passes) :
    (∃ counts db', (reconcileBusAssignmentsV1 server now passes).run db = .ok counts db' ∧
      (∀ m, ¬ db'.Left server db.reconciliationEvents m) ∧
      ∀ now' passes', 0 < passes' → (reconcileBusAssignmentsV1 server now' passes').run db' = .ok {} db') ∨
    (∃ db', (reconcileBusAssignmentsV1 server now passes).run db = .error sourceViolation db' ∧ db.Misplaced server) := by
  rcases reconcile_settles server now hnumbered hpasses with ⟨counts, db', hrun, hcalled, hsettled⟩ | hraises
  · refine .inl ⟨counts, db', hrun, fun m hleft => ?_, fun now' passes' hpasses' => reconcile_settled now' hpasses' hsettled⟩
    exact hsettled.none_left { hleft with never := hcalled.never hleft.valid hleft.never }
  · exact .inr hraises

/-! ### An identity that is registered late -/

/-- A collation under which texts are as they are. -/
def sampleServer : Server := ⟨id, id, fun _ _ => true⟩

/-- A message of a workflow for the identity `two`. -/
def sampleMessage (messageId assignmentId state predecessor : String) : Message where
  messageId := messageId
  schemaVersion := 1
  createdAt := ((0 : ℤ) : Timestamptz)
  sender := "one"
  audience := []
  domain := "chat_bus"
  intent := "bus_message"
  priority := 3
  rootTaskId := none
  correlationId := none
  causalParentId := none
  requiresAck := false
  expiresAt := none
  authorityRef := none
  sourceRefs := []
  contentHash := ⟨"351cc4777bec40c16ad3c5279163177680306a68cb4950a63d7228f295a5f6e9", by decide +kernel⟩
  idempotencyKey := messageId
  payload := .object [("assignment_id", .string assignmentId), ("assignment_workflow_id", .string "w"),
    ("assignment_assignee", .string "two"), ("assignment_event", .string state), ("assignment_state", .string state),
    ("assignment_predecessor_message_id", .string predecessor)]
  projectionStatus := "ACCEPTED"
  insertedAt := ((0 : ℤ) : Timestamptz)

/-- A root that was projected before its assignee was registered. -/
def latePlane : Plane where
  identities := {"two"}
  messages := AList.singleton "m" (sampleMessage "m" "a" "ASSIGNED" "").toMessageRow
  assignments := ∅
  assignmentEvents := []
  nextEventId := 1
  reconciliationEvents := [observation 0 (sampleMessage "m" "a" "ASSIGNED" "") "ASSIGNMENT_ENVELOPE_INVALID" "OBSERVATION_ONLY"
    (envelope sampleServer (sampleMessage "m" "a" "ASSIGNED" "").payload).invalidFields]

theorem latePlane_records : latePlane.records = [sampleMessage "m" "a" "ASSIGNED" ""] := rfl

theorem latePlane_observed : observed latePlane.reconciliationEvents "ASSIGNMENT_ENVELOPE_INVALID" "m" = true := by decide +kernel

/-- An observation settles an invalid envelope for good. -/
theorem latePlane_settled : Settled sampleServer latePlane := by
  refine ⟨fun m hm _ => ?_, fun m hm => ?_, fun m hm => ?_⟩
  · have hrecord := (mem_explicit.mp hm).1
    rw [latePlane_records] at hrecord
    obtain rfl := List.mem_singleton.mp hrecord
    exact latePlane_observed
  · obtain ⟨hrecord, -, -, hnone⟩ := mem_projectable.mp hm
    rw [latePlane_records] at hrecord
    obtain rfl := List.mem_singleton.mp hrecord
    exact absurd (hnone.symm.trans latePlane_observed) Bool.false_ne_true
  · obtain ⟨hrecord, -, -, -, -, hnone, -⟩ := mem_waiting.mp hm
    rw [latePlane_records] at hrecord
    obtain rfl := List.mem_singleton.mp hrecord
    exact absurd (hnone.symm.trans latePlane_observed) Bool.false_ne_true

/-- **A valid root of an unknown assignment is left, if its assignee was once unknown.** -/
theorem late_identity_left : latePlane.Numbered ∧
    (reconcileBusAssignmentsV1 sampleServer 0 2).run latePlane = .ok {} latePlane ∧
    (sampleMessage "m" "a" "ASSIGNED" "").domain = "chat_bus" ∧
    Valid sampleServer latePlane (sampleMessage "m" "a" "ASSIGNED" "") ∧
    latePlane.Ready sampleServer (sampleMessage "m" "a" "ASSIGNED" "") ∧
    ¬ latePlane.Applied sampleServer (sampleMessage "m" "a" "ASSIGNED" "") := by
  refine ⟨Plane.numbered_of_nil rfl, reconcile_settled 0 (by decide) latePlane_settled, rfl, ⟨?_, ?_⟩, ?_, ?_⟩
  · rw [latePlane_records]
    exact List.mem_singleton_self _
  · decide +kernel
  · exact .root (by decide +kernel) rfl
  · decide +kernel

/-! ### A root and its acknowledgement -/

/-- Both messages are projected, and neither is applied. -/
def pairPlane : Plane where
  identities := {"two"}
  messages := (AList.singleton "m" (sampleMessage "m" "a" "ASSIGNED" "").toMessageRow).insert "n"
    (sampleMessage "n" "a" "ACKNOWLEDGED" "m").toMessageRow
  assignments := ∅
  assignmentEvents := []
  nextEventId := 1
  reconciliationEvents := []

/-- How many events a call inserted, and the messages of all events after it. -/
def appliedMessages : EStateM.Result SqlError Plane Counts → Option (ℕ × List String)
  | .ok counts db => some (counts.eventsInserted, db.assignmentEvents.map EventRow.operationId)
  | .error _ _ => none

theorem reconcile_fixed_point_pair : ∃ counts db', (reconcileBusAssignmentsV1 sampleServer 0 3).run pairPlane = .ok counts db' ∧
    counts.eventsInserted = 2 ∧ db'.assignmentEvents.map EventRow.operationId = ["m", "n"] ∧
    (∀ m, ¬ db'.Left sampleServer pairPlane.reconciliationEvents m) ∧
    ∀ now' passes', 0 < passes' → (reconcileBusAssignmentsV1 sampleServer now' passes').run db' = .ok {} db' := by
  have happlied : appliedMessages ((reconcileBusAssignmentsV1 sampleServer 0 3).run pairPlane) = some (2, ["m", "n"]) := by
    decide +kernel
  rcases reconcile_fixed_point sampleServer 0 (Plane.numbered_of_nil rfl)
      (show pairPlane.records.length < 3 by decide +kernel) with ⟨counts, db', hrun, hleft, hagain⟩ | ⟨db', hrun, -⟩
  · rw [hrun] at happlied
    obtain ⟨hcount, hevents⟩ := Prod.mk.inj (Option.some.inj happlied)
    exact ⟨counts, db', hrun, hcount, hevents, hleft, hagain⟩
  · rw [hrun] at happlied
    cases happlied

end CcbCore.Assignments
