import CcbCore.Assignments.Chains

/-!
# The order of arrival does not matter

Where each assignment has one valid root at most and no two valid messages of it name the same
predecessor, there is at most one message that an assignment's trail can go on with
(`Follows.unique`), and settled tables have gone on with all (`Traced.stuck`). So two orders in
which the same messages are inserted, each insert with its call, end with the same assignments
(`assignment_confluence`): the conflicts and the pending observations that they leave on the way
are never read when a message is applied, and an observation that an envelope is invalid stays true.
-/

namespace CcbCore.Assignments

open CcbCore.Postgres CcbCore.Raising CcbCore.Sql
open CcbCore.Projection (MessageRow ReconciliationEvent SqlError Timestamptz)

variable {server : Server} {now : ℤ} {db db' : Plane} {m : Message} {id : String}

/-! ### One way to go on -/

/-- A message of the bus with a valid envelope of an assignment. -/
structure Belongs (server : Server) (identities : Finset String) (id : String) (m : Message) : Prop where
  domain : m.domain = "chat_bus"
  valid : ¬ (envelope server m.payload).Invalid identities
  assignment : (envelope server m.payload).assignmentId = id

/-- An assignment has one root at most, and no two messages of it name the same predecessor. -/
structure Unforked (server : Server) (identities : Finset String) (messages : List Message) : Prop where
  root : ∀ id, ∀ m ∈ messages, ∀ m' ∈ messages, Belongs server identities id m → Belongs server identities id m' →
    (envelope server m.payload).event = "ASSIGNED" → (envelope server m'.payload).event = "ASSIGNED" → m = m'
  predecessor : ∀ id, ∀ m ∈ messages, ∀ m' ∈ messages, Belongs server identities id m → Belongs server identities id m' →
    (envelope server m.payload).event ≠ "ASSIGNED" → (envelope server m'.payload).event ≠ "ASSIGNED" →
    (envelope server m.payload).predecessorMessage = (envelope server m'.payload).predecessorMessage → m = m'

theorem Follows.belongs {l l' : List Message} (h : Follows server db id l m l') :
    m ∈ db.records ∧ Belongs server db.identities id m := by
  cases h with
  | root hdomain hvalid hid => exact ⟨hvalid.1, hdomain, hvalid.2, hid⟩
  | successor _ _ hdomain hvalid hid => exact ⟨hvalid.1, hdomain, hvalid.2, hid⟩

theorem Follows.eq_concat {l l' : List Message} (h : Follows server db id l m l') : l' = l ++ [m] := by
  cases h <;> rfl

/-- Without forks there is one message at most that comes next. -/
theorem Follows.unique (hunforked : Unforked server db.identities db.records) {l l' l'' : List Message} {m m' : Message}
    (h : Follows server db id l m l') (h' : Follows server db id l m' l'') : m = m' ∧ l' = l'' := by
  have hm : m = m' := by
    obtain ⟨hm, hbelongs⟩ := h.belongs
    obtain ⟨hm', hbelongs'⟩ := h'.belongs
    cases h with
    | root _ _ _ hevent =>
      cases h' with
      | root _ _ _ hevent' => exact hunforked.root id _ hm _ hm' hbelongs hbelongs' hevent hevent'
      | successor hhead => cases hhead
    | successor hhead hlast _ _ _ hevent hpredecessor =>
      cases h' with
      | root => cases hhead
      | successor _ hlast' _ _ _ hevent' hpredecessor' =>
        obtain rfl := Option.some.inj (hlast.symm.trans hlast')
        exact hunforked.predecessor id _ hm _ hm' hbelongs hbelongs' hevent hevent' (hpredecessor.trans hpredecessor'.symm)
  subst hm
  exact ⟨rfl, h.eq_concat.trans h'.eq_concat.symm⟩

theorem follows_records {ls l : List Message} (h : Run (Follows server db id) [] ls l) : ∀ m ∈ l, m ∈ db.records := by
  induction h with
  | nil => exact fun m hm => absurd hm List.not_mem_nil
  | snoc _ hstep ih =>
    intro m hm
    rw [hstep.eq_concat, List.mem_append, List.mem_singleton] at hm
    rcases hm with hm | rfl
    · exact ih m hm
    · exact hstep.belongs.1

/-! ### Settled tables have gone on -/

/-- The messages of an assignment's events, none if there is no assignment. -/
inductive Traced (server : Server) (db : Plane) (id : String) : List Message → Prop where
  | unknown : db.assignments.lookup id = none → Traced server db id []
  | known {row : AssignmentRow} {l : List Message} {last : EventRow} : db.assignments.lookup id = some row →
      Trail server db id row l last → Traced server db id l

theorem Sound.traced (h : Sound server db) (id : String) : ∃ l, Traced server db id l := by
  cases hrow : db.assignments.lookup id with
  | none => exact ⟨[], .unknown hrow⟩
  | some row =>
    obtain ⟨l, last, htrail⟩ := h.trails id row hrow
    exact ⟨l, .known hrow htrail⟩

theorem Traced.follows {l : List Message} (h : Traced server db id l) : Run (Follows server db id) [] l l := by
  cases h with
  | unknown => exact .nil
  | known _ htrail => exact htrail.follows

/-- Only what is invalid is observed to be so. -/
def Plane.Faithful (db : Plane) (server : Server) : Prop :=
  ∀ messageId, observed db.reconciliationEvents "ASSIGNMENT_ENVELOPE_INVALID" messageId = true →
    ∃ m ∈ db.records, m.messageId = messageId ∧ (envelope server m.payload).Invalid db.identities

/-- A message that belongs to an assignment and could be applied has been. -/
theorem Settled.applied (h : Settled server db) (hfaithful : db.Faithful server) (hm : m ∈ db.records)
    (hbelongs : Belongs server db.identities id m) (hready : db.Ready server m) : db.Applied server m := by
  by_contra hunapplied
  obtain ⟨hdomain, hvalid, -⟩ := hbelongs
  refine h.none_left ⟨hdomain, ⟨hm, hvalid⟩, ?_, hready, hunapplied⟩
  rw [← Bool.not_eq_true]
  intro hobserved
  obtain ⟨m', hm', hid, hinvalid⟩ := hfaithful _ hobserved
  obtain rfl := record_unique hm' hm hid
  exact hvalid hinvalid

/-- The event of an operation, where operations have one event at most. -/
theorem Sound.eventOf_eq (h : Sound server db) {event : EventRow} (hevent : event ∈ db.eventsOf id) :
    db.eventOf id event.operationId = some event := by
  obtain ⟨hmem, hid⟩ := mem_eventsOf.mp hevent
  obtain ⟨other, hother⟩ := Option.isSome_iff_exists.mp (eventOf_isSome.mpr ⟨event, hmem, hid, rfl⟩)
  obtain ⟨hmem', -, hoperation⟩ := eventOf_mem hother
  rw [hother, List.inj_on_of_nodup_map h.once hmem' hmem hoperation]

/-- **In settled tables no message goes on with an assignment's trail.** -/
theorem Traced.stuck {l l' : List Message} (htraced : Traced server db id l) (hsound : Sound server db) (hsettled : Settled server db)
    (hfaithful : db.Faithful server) (h : Follows server db id l m l') : False := by
  obtain ⟨hm, hbelongs⟩ := h.belongs
  obtain rfl := hbelongs.assignment
  cases htraced with
  | unknown hunknown =>
    cases h with
    | root _ _ _ hevent =>
      have happlied := hsettled.applied hfaithful hm hbelongs (.root hevent hunknown)
      obtain ⟨event, hmem, hid, -⟩ := eventOf_isSome.mp happlied
      obtain ⟨row, hrow⟩ := hsound.known event hmem
      rw [hid, hunknown] at hrow
      cases hrow
    | successor hhead => cases hhead
  | @known row _ last hrow htrail =>
    have hbinding := htrail.binding
    cases h with
    | root => cases hbinding
    | @successor _ root lastMessage _ hhead hlastMessage _ hvalid _ hevent hpredecessor hsame hnew =>
      rw [hhead] at hbinding
      obtain ⟨hlast, lastMessage', hlastMessage', hoperation⟩ := htrail.last
      obtain rfl := Option.some.inj (hlastMessage.symm.trans hlastMessage')
      have hnamed : db.eventOf (envelope server m.payload).assignmentId (envelope server m.payload).predecessorMessage = some last := by
        rw [hpredecessor, hoperation]
        exact hsound.eventOf_eq hlast
      have hready : db.Ready server m :=
        .successor hevent hrow ((Option.some.inj hbinding).symm.trans hsame.symm) hnamed htrail.current
      have happlied := hsettled.applied hfaithful hm hbelongs hready
      obtain ⟨event, hmem, hid, hoperation'⟩ := eventOf_isSome.mp happlied
      have hshown : (event.operationId, event.toState) ∈ l.map fun m => (m.messageId, (envelope server m.payload).state) := by
        rw [← htrail.shown]
        exact List.mem_map.mpr ⟨event, mem_eventsOf.mpr ⟨hmem, hid⟩, rfl⟩
      obtain ⟨m', hm', heq⟩ := List.mem_map.mp hshown
      have hrecord := follows_records htrail.follows m' hm'
      obtain rfl := record_unique hrecord hvalid.1 ((congrArg Prod.fst heq).trans hoperation')
      exact hnew hm'

/-! ### What is the same -/

/-- What is compared of an event. -/
def EventRow.transition (event : EventRow) : String × String × String := (event.operationId, event.fromState, event.toState)

/-- A chain says where each event comes from. -/
theorem transitions_eq {last last' t t' : Option EventRow} {events events' : List EventRow} (h : Run Link last events t)
    (h' : Run Link last' events' t') (hlast : last.map EventRow.toState = last'.map EventRow.toState)
    (hshown : events.map (fun event => (event.operationId, event.toState)) =
      events'.map fun event => (event.operationId, event.toState)) :
    events.map EventRow.transition = events'.map EventRow.transition := by
  induction events generalizing last last' events' with
  | nil =>
    cases events' with
    | nil => rfl
    | cons event' events' => cases hshown
  | cons event events ih =>
    cases events' with
    | nil => cases hshown
    | cons event' events' =>
      rw [List.map_cons, List.map_cons, List.cons.injEq, Prod.mk.injEq] at hshown
      obtain ⟨⟨hoperation, hto⟩, hshown⟩ := hshown
      obtain ⟨u, hlink, hrest⟩ := h.uncons
      obtain ⟨u', hlink', hrest'⟩ := h'.uncons
      have hfrom : event.fromState = event'.fromState := by
        rw [hlink.fromState, hlink'.fromState, hlast]
      have hnext : u.map EventRow.toState = u'.map EventRow.toState := by
        rw [hlink.next, hlink'.next]
        exact congrArg some hto
      rw [List.map_cons, List.map_cons, ih hrest hrest' hnext hshown, EventRow.transition, EventRow.transition, hoperation, hfrom, hto]

/-- Two tables have the same assignment under an id, with the same events. -/
structure Agree (db db' : Plane) (id : String) : Prop where
  assignment : (db.assignments.lookup id).map (fun row => (row.binding, row.currentState)) =
    (db'.assignments.lookup id).map fun row => (row.binding, row.currentState)
  transitions : (db.eventsOf id).map EventRow.transition = (db'.eventsOf id).map EventRow.transition

theorem text_injective {state state' : AssignmentState} (h : state.text = state'.text) : state = state' :=
  Option.some.inj ((AssignmentState.ofText?_eq_some.mpr rfl).symm.trans (AssignmentState.ofText?_eq_some.mpr h.symm))

/-- The messages of an assignment's events tell the rest. -/
theorem Traced.agree {l : List Message} (h : Traced server db id l) (h' : Traced server db' id l) (hsound : Sound server db)
    (hsound' : Sound server db') : Agree db db' id := by
  cases h with
  | unknown hunknown =>
    cases h' with
    | unknown hunknown' =>
      refine ⟨by rw [hunknown, hunknown'], ?_⟩
      rw [hsound.eventsOf_unknown hunknown, hsound'.eventsOf_unknown hunknown']
    | known _ htrail => cases htrail.binding
  | known hrow htrail =>
    cases h' with
    | unknown => cases htrail.binding
    | known hrow' htrail' =>
      have hshown := htrail.shown.trans htrail'.shown.symm
      have hstates := congrArg List.getLast? hshown
      rw [List.getLast?_map, List.getLast?_map, getLast_of_links htrail.links, getLast_of_links htrail'.links] at hstates
      have hto := congrArg Prod.snd (Option.some.inj hstates)
      have hstate := text_injective (htrail.state.trans (hto.trans htrail'.state.symm))
      have hbinding := Option.some.inj (htrail.binding.symm.trans htrail'.binding)
      exact ⟨by rw [hrow, hrow', Option.map_some, Option.map_some, hstate, hbinding],
        transitions_eq htrail.links htrail'.links rfl hshown⟩

/-! ### Batches -/

/-- Batches that come one after another. -/
def insertBatches (server : Server) (batches : List (ℤ × List Message)) : Plpgsql PUnit :=
  batches.forM fun batch => insertMessages server batch.1 batch.2

/-- The messages of batches. -/
def messagesOf (batches : List (ℤ × List Message)) : List Message := batches.flatMap Prod.snd

/-- What batches leave. -/
structure Arrived (server : Server) (db : Plane) (messages : List Message) (db' : Plane) : Prop where
  sound : Sound server db'
  settled : Settled server db'
  faithful : db'.Faithful server
  identities : db'.identities = db.identities
  records (m : Message) : m ∈ db'.records ↔ m ∈ db.records ∨ m ∈ messages

theorem Inserted.faithful {batch : List Message} (h : Inserted server db batch db') (hfaithful : db.Faithful server) :
    db'.Faithful server := by
  intro messageId hobserved
  rcases h.invalid messageId hobserved with hbefore | hafter
  · obtain ⟨m, hm, hid, hinvalid⟩ := hfaithful messageId hbefore
    refine ⟨m, (h.records m).mpr (.inl hm), hid, ?_⟩
    rwa [h.identities]
  · exact hafter

/-- An id that no message has is free. -/
theorem lookup_eq_none {messageId : String} (h : ∀ m ∈ db.records, m.messageId ≠ messageId) : db.messages.lookup messageId = none := by
  cases hrow : db.messages.lookup messageId with
  | none => rfl
  | some row => exact absurd rfl (h { row with messageId } (db.mem_records.mpr hrow))

/-- New messages of different ids arrive, in whatever batches. -/
theorem run_insertBatches {batches : List (ℤ × List Message)} (hsound : Sound server db) (hsettled : Settled server db)
    (hfaithful : db.Faithful server) (hids : ((messagesOf batches).map Message.messageId).Nodup)
    (hnew : ∀ m ∈ messagesOf batches, db.messages.lookup m.messageId = none) :
    ∃ db', (insertBatches server batches).run db = .ok ⟨⟩ db' ∧ Arrived server db (messagesOf batches) db' := by
  induction batches generalizing db with
  | nil => exact ⟨db, rfl, hsound, hsettled, hfaithful, rfl, by simp [messagesOf]⟩
  | cons batch batches ih =>
    have hmessages : messagesOf (batch :: batches) = batch.2 ++ messagesOf batches := List.flatMap_cons
    rw [hmessages] at hids hnew
    rw [List.map_append, List.nodup_append] at hids
    obtain ⟨hbatch, hrest, hapart⟩ := hids
    obtain ⟨db₁, hrun, hinserted⟩ := run_insertMessages batch.1 hsound hbatch fun m hm => hnew m (List.mem_append_left _ hm)
    have hnew' : ∀ m ∈ messagesOf batches, db₁.messages.lookup m.messageId = none := by
      intro m hm
      refine lookup_eq_none fun m' hm' hid => ?_
      rcases (hinserted.records m').mp hm' with hold | hbatch
      · have hnone := hnew m (List.mem_append_right _ hm)
        rw [← hid, db.mem_records.mp hold] at hnone
        cases hnone
      · exact hapart _ (List.mem_map_of_mem hbatch) _ (List.mem_map_of_mem hm) hid
    obtain ⟨db', hrun', harrived⟩ := ih hinserted.sound hinserted.settled (hinserted.faithful hfaithful) hrest hnew'
    refine ⟨db', run_bind_ok.mpr ⟨⟨⟩, _, hrun, hrun'⟩, harrived.sound, harrived.settled, harrived.faithful,
      harrived.identities.trans hinserted.identities, fun m => ?_⟩
    rw [harrived.records, hinserted.records, hmessages, List.mem_append, or_assoc]

theorem blankPlane_settled (server : Server) (identities : Finset String) : Settled server (blankPlane identities) := by
  have hnone : (blankPlane identities).records = [] := rfl
  refine ⟨fun m hm => ?_, fun m hm => ?_, fun m hm => ?_⟩
  · have hrecord := (mem_explicit.mp hm).1
    rw [hnone] at hrecord
    cases hrecord
  · have hrecord := (mem_projectable.mp hm).1
    rw [hnone] at hrecord
    cases hrecord
  · have hrecord := (mem_waiting.mp hm).1
    rw [hnone] at hrecord
    cases hrecord

/-- Batches arrive in blank tables. -/
theorem run_blank (server : Server) (identities : Finset String) {batches : List (ℤ × List Message)}
    (hids : ((messagesOf batches).map Message.messageId).Nodup) :
    ∃ db, (insertBatches server batches).run (blankPlane identities) = .ok ⟨⟩ db ∧
      Arrived server (blankPlane identities) (messagesOf batches) db :=
  run_insertBatches ((blankPlane_fresh identities).sound server) (blankPlane_settled server identities)
    (fun _ hobserved => absurd hobserved Bool.false_ne_true) hids fun _ _ => rfl

theorem Arrived.mem_records {identities : Finset String} {messages : List Message}
    (h : Arrived server (blankPlane identities) messages db) : m ∈ db.records ↔ m ∈ messages := by
  rw [h.records, show (blankPlane identities).records = [] from rfl]
  simp

/-- **Where no assignment has two roots, or two messages that name the same predecessor, two
orders in which the same messages are inserted end with the same assignments: the same bindings
and state, and the same messages, from the same states to the same states.** -/
theorem assignment_confluence (server : Server) {identities : Finset String} {batches batches' : List (ℤ × List Message)}
    (hids : ((messagesOf batches).map Message.messageId).Nodup) (hunforked : Unforked server identities (messagesOf batches))
    (hperm : (messagesOf batches).Perm (messagesOf batches')) :
    ∃ db db', (insertBatches server batches).run (blankPlane identities) = .ok ⟨⟩ db ∧
      (insertBatches server batches').run (blankPlane identities) = .ok ⟨⟩ db' ∧ ∀ id, Agree db db' id := by
  obtain ⟨db, hrun, harrived⟩ := run_blank server identities hids
  obtain ⟨db', hrun', harrived'⟩ := run_blank server identities ((hperm.map Message.messageId).nodup_iff.mp hids)
  refine ⟨db, db', hrun, hrun', fun id => ?_⟩
  have hidentities : db'.identities = db.identities := harrived'.identities.trans harrived.identities.symm
  have hrecords (m : Message) : m ∈ db'.records ↔ m ∈ db.records := by
    rw [harrived'.mem_records, harrived.mem_records, hperm.mem_iff]
  have hextends : Extends db' db := ⟨fun m hm => (hrecords m).mp hm, by rw [hidentities]⟩
  have hextends' : Extends db db' := ⟨fun m hm => (hrecords m).mpr hm, by rw [hidentities]⟩
  have hunforked' : Unforked server db.identities db.records := by
    rw [harrived.identities]
    refine ⟨fun id m hm m' hm' => ?_, fun id m hm m' hm' => ?_⟩
    · exact hunforked.root id m (harrived.mem_records.mp hm) m' (harrived.mem_records.mp hm')
    · exact hunforked.predecessor id m (harrived.mem_records.mp hm) m' (harrived.mem_records.mp hm')
  obtain ⟨l, htraced⟩ := harrived.sound.traced id
  obtain ⟨l', htraced'⟩ := harrived'.sound.traced id
  have hfollows : Run (Follows server db id) [] l' l' := htraced'.follows.mono fun _ _ _ => hextends.follows
  have hunique (s : List Message) (m : Message) (t : List Message) (m' : Message) (t' : List Message)
      (h : Follows server db id s m t) (h' : Follows server db id s m' t') : m = m' ∧ t = t' := h.unique hunforked' h'
  obtain ⟨rfl, -⟩ := Run.unique_of_stuck hunique htraced.follows hfollows
    (fun _ _ => htraced.stuck harrived.sound harrived.settled harrived.faithful)
    fun _ _ h => htraced'.stuck harrived'.sound harrived'.settled harrived'.faithful (hextends'.follows h)
  exact htraced.agree htraced' harrived.sound harrived'.sound

theorem sampleBatch_nodup : (sampleBatch.map Message.messageId).Nodup := by decide

theorem sampleBatch_unforked : Unforked sampleServer {"two"} sampleBatch := by
  have hroot : ∀ m ∈ sampleBatch, (envelope sampleServer m.payload).event = "ASSIGNED" → m.messageId = "m" := by decide +kernel
  have hrest : ∀ m ∈ sampleBatch, (envelope sampleServer m.payload).event ≠ "ASSIGNED" → m.messageId = "n" := by decide +kernel
  refine ⟨fun id m hm m' hm' _ _ hevent hevent' => ?_, fun id m hm m' hm' _ _ hevent hevent' _ => ?_⟩
  · exact List.inj_on_of_nodup_map sampleBatch_nodup hm hm' ((hroot m hm hevent).trans (hroot m' hm' hevent').symm)
  · exact List.inj_on_of_nodup_map sampleBatch_nodup hm hm' ((hrest m hm hevent).trans (hrest m' hm' hevent').symm)

/-- The messages of a batch, the other way round and one at a time. -/
theorem assignment_confluence_pair : ∃ db db',
    (insertBatches sampleServer [(0, sampleBatch)]).run (blankPlane {"two"}) = .ok ⟨⟩ db ∧
    (insertBatches sampleServer (sampleBatch.reverse.map fun m => (0, [m]))).run (blankPlane {"two"}) = .ok ⟨⟩ db' ∧
    ∀ id, Agree db db' id :=
  assignment_confluence sampleServer sampleBatch_nodup sampleBatch_unforked (List.Perm.swap _ _ _)

end CcbCore.Assignments
