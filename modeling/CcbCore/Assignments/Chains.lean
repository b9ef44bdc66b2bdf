import CcbCore.Assignments.Settling

/-!
# The events of an assignment are a chain

Whatever is inserted, in whatever order, the events of an assignment are a chain by their
predecessors, from its root to its current event, and each takes the assignment from the state
where the one before it left it (`assignment_plane_safe`). A chain is a `Run` whose labels are
events (`Link`). Beside it the invariant keeps the messages that the events are of, as a run that
knows nothing of events (`Follows`): a root, then messages that each name the one before it.
-/

namespace CcbCore.Assignments

open CcbCore.Postgres CcbCore.Raising CcbCore.Sql
open CcbCore.Projection (MessageRow ReconciliationEvent SqlError Timestamptz)

variable {server : Server} {now : ℤ} {db db' db'' : Plane} {m : Message} {id : String}

/-! ### Chains -/

/-- An event comes next, after another or as the root. -/
structure Link (last : Option EventRow) (event : EventRow) (last' : Option EventRow) : Prop where
  predecessor : event.predecessorEventId = last.map EventRow.eventId
  fromState : event.fromState = (last.map EventRow.toState).getD "DRAFTED"
  next : last' = some event

/-- The events of an assignment are a chain that ends with its current event, in its current state. -/
structure Chained (db : Plane) (id : String) (row : AssignmentRow) (last : EventRow) : Prop where
  links : Run Link none (db.eventsOf id) (some last)
  current : row.currentEventId = some last.eventId
  state : row.currentState.text = last.toState

theorem getLast_of_links {events : List EventRow} {last : Option EventRow} (h : Run Link none events last) :
    events.getLast? = last := by
  cases h with
  | nil => rfl
  | snoc _ hlink => rw [hlink.next, List.getLast?_concat]

/-- The messages of an assignment's events: a root, then each names the one before it. -/
inductive Follows (server : Server) (db : Plane) (id : String) : List Message → Message → List Message → Prop where
  | root {m : Message} : m.domain = "chat_bus" → Valid server db m → (envelope server m.payload).assignmentId = id →
      (envelope server m.payload).event = "ASSIGNED" → Follows server db id [] m [m]
  | successor {l : List Message} {root last m : Message} : l.head? = some root → l.getLast? = some last →
      m.domain = "chat_bus" → Valid server db m → (envelope server m.payload).assignmentId = id →
      (envelope server m.payload).event ≠ "ASSIGNED" →
      (envelope server m.payload).predecessorMessage = last.messageId →
      (envelope server m.payload).binding = (envelope server root.payload).binding →
      m ∉ l → Follows server db id l m (l ++ [m])

/-- What is said of an assignment's events and the messages they are of. -/
structure Trail (server : Server) (db : Plane) (id : String) (row : AssignmentRow) (l : List Message) (last : EventRow) : Prop
    extends Chained db id row last where
  follows : Run (Follows server db id) [] l l
  shown : (db.eventsOf id).map (fun event => (event.operationId, event.toState)) =
    l.map fun m => (m.messageId, (envelope server m.payload).state)
  binding : l.head?.map (fun m => (envelope server m.payload).binding) = some row.binding

/-! ### The invariant -/

/-- What holds of the tables from the first message on. -/
structure Sound (server : Server) (db : Plane) : Prop where
  numbered : db.Numbered
  ordered : db.assignmentEvents.Pairwise fun event event' => event.eventId < event'.eventId
  known : ∀ event ∈ db.assignmentEvents, ∃ row, db.assignments.lookup event.assignmentId = some row
  trails : ∀ id row, db.assignments.lookup id = some row → ∃ l last, Trail server db id row l last
  operations : ∀ event ∈ db.assignmentEvents, ∃ m ∈ db.records,
    m.messageId = event.operationId ∧ (envelope server m.payload).assignmentId = event.assignmentId
  once : (db.assignmentEvents.map EventRow.operationId).Nodup
  sources : ∀ id row, db.assignments.lookup id = some row → ∃ m ∈ db.records,
    row.sourceMessageId = some m.messageId ∧ (envelope server m.payload).assignmentId = id

theorem Sound.not_misplaced (h : Sound server db) : ¬ db.Misplaced server := by
  rintro ⟨id, row, m, hm, hrow, hsource, hid⟩
  obtain ⟨m', hm', hsource', hid'⟩ := h.sources id row hrow
  obtain rfl := record_unique hm hm' (Option.some.inj (hsource.symm.trans hsource'))
  exact hid hid'

/-- An unknown assignment has no events. -/
theorem Sound.eventsOf_unknown (h : Sound server db) (hunknown : db.assignments.lookup id = none) : db.eventsOf id = [] := by
  rw [Plane.eventsOf, List.filter_eq_nil_iff]
  intro event hmem hid
  obtain ⟨row, hrow⟩ := h.known event hmem
  rw [of_decide_eq_true hid, hunknown] at hrow
  cases hrow

/-! ### Messages and identities that come -/

/-- The later tables have the messages and identities of the earlier ones. -/
structure Extends (db db' : Plane) : Prop where
  records : ∀ m ∈ db.records, m ∈ db'.records
  identities : db.identities ⊆ db'.identities

theorem Kept.extends (h : Kept db db') : Extends db db' := by
  refine ⟨fun m hm => ?_, ?_⟩
  · rwa [h.records]
  · rw [h.identities]

/-- A valid envelope stays valid as identities come. -/
theorem Extends.valid (h : Extends db db') (hvalid : Valid server db m) : Valid server db' m := by
  obtain ⟨hrecord, hvalid⟩ := hvalid
  have hmem : (envelope server m.payload).assignee ∈ db.identities := (valid_parts hvalid).2.2.2.2
  have hmem' := h.identities hmem
  refine ⟨h.records m hrecord, ?_⟩
  simp only [Envelope.Invalid, hmem, hmem', not_true_eq_false, or_false] at hvalid ⊢
  exact hvalid

theorem Extends.follows (h : Extends db db') {l l' : List Message} (hfollows : Follows server db id l m l') :
    Follows server db' id l m l' := by
  cases hfollows with
  | root hdomain hvalid hid hevent => exact .root hdomain (h.valid hvalid) hid hevent
  | successor hroot hlast hdomain hvalid hid hevent hpredecessor hbinding hnew =>
    exact .successor hroot hlast hdomain (h.valid hvalid) hid hevent hpredecessor hbinding hnew

/-- A trail stays one while the assignment's events do. -/
theorem Trail.mono {row : AssignmentRow} {l : List Message} {last : EventRow} (htrail : Trail server db id row l last)
    (h : Extends db db') (hevents : db'.eventsOf id = db.eventsOf id) : Trail server db' id row l last := by
  refine ⟨⟨?_, htrail.current, htrail.state⟩, htrail.follows.mono fun _ _ _ => h.follows, ?_, htrail.binding⟩
  · rw [hevents]
    exact htrail.links
  · rw [hevents]
    exact htrail.shown

/-- Tables that gain messages, identities and numbers only stay sound. -/
theorem Sound.extend (hsound : Sound server db) (h : Extends db db') (hassignments : db'.assignments = db.assignments)
    (hevents : db'.assignmentEvents = db.assignmentEvents) (hnext : db.nextEventId ≤ db'.nextEventId) : Sound server db' := by
  have heventsOf (id : String) : db'.eventsOf id = db.eventsOf id := by
    rw [Plane.eventsOf, Plane.eventsOf, hevents]
  refine ⟨fun event hmem => ?_, ?_, ?_, fun id row hrow => ?_, fun event hmem => ?_, ?_, fun id row hrow => ?_⟩
  · rw [hevents] at hmem
    exact (hsound.numbered event hmem).trans_le hnext
  · rw [hevents]
    exact hsound.ordered
  · rw [hevents, hassignments]
    exact hsound.known
  · rw [hassignments] at hrow
    obtain ⟨l, last, htrail⟩ := hsound.trails id row hrow
    exact ⟨l, last, htrail.mono h (heventsOf id)⟩
  · rw [hevents] at hmem
    obtain ⟨m, hm, hrest⟩ := hsound.operations event hmem
    exact ⟨m, h.records m hm, hrest⟩
  · rw [hevents]
    exact hsound.once
  · rw [hassignments] at hrow
    obtain ⟨m, hm, hrest⟩ := hsound.sources id row hrow
    exact ⟨m, h.records m hm, hrest⟩

/-! ### A message that is applied -/

theorem eventsOf_append {event : EventRow} (h : db'.assignmentEvents = db.assignmentEvents ++ [event])
    (hid : event.assignmentId = id) : db'.eventsOf id = db.eventsOf id ++ [event] := by
  simp [Plane.eventsOf, h, hid]

theorem eventsOf_append_other {event : EventRow} (h : db'.assignmentEvents = db.assignmentEvents ++ [event])
    (hid : event.assignmentId ≠ id) : db'.eventsOf id = db.eventsOf id := by
  simp [Plane.eventsOf, h, hid]

theorem mem_eventsOf {event : EventRow} : event ∈ db.eventsOf id ↔ event ∈ db.assignmentEvents ∧ event.assignmentId = id := by
  rw [Plane.eventsOf, List.mem_filter, decide_eq_true_iff]

theorem known_insert {assignments : Table String AssignmentRow} {row : AssignmentRow} {id id' : String}
    (h : id = id' ∨ ∃ row', assignments.lookup id = some row') : ∃ row', (assignments.insert id' row).lookup id = some row' := by
  by_cases hid : id = id'
  · exact ⟨row, by rw [hid, AList.lookup_insert]⟩
  · rw [AList.lookup_insert_ne hid]
    exact h.resolve_left hid

/-- What is said of the events alone, of an event that comes. -/
theorem Sound.event (hsound : Sound server db) (h : Applies server db m db') (hm : m ∈ db.records) :
    db'.Numbered ∧ (db'.assignmentEvents.Pairwise fun event event' => event.eventId < event'.eventId) ∧
      (∀ event ∈ db'.assignmentEvents, ∃ m ∈ db'.records,
        m.messageId = event.operationId ∧ (envelope server m.payload).assignmentId = event.assignmentId) ∧
      (db'.assignmentEvents.map EventRow.operationId).Nodup := by
  obtain ⟨event, hevents, hassignment, hoperation, hid, -⟩ := h.events
  have hunapplied := h.applied_self.1
  refine ⟨h.numbered hsound.numbered, ?_, fun other hother => ?_, ?_⟩
  · rw [hevents, List.pairwise_append]
    refine ⟨hsound.ordered, List.pairwise_singleton _ _, fun earlier hearlier later hlater => ?_⟩
    obtain rfl := List.mem_singleton.mp hlater
    rw [hid]
    exact hsound.numbered earlier hearlier
  · rw [h.kept.records]
    rw [hevents, List.mem_append, List.mem_singleton] at hother
    rcases hother with hother | rfl
    · exact hsound.operations other hother
    · exact ⟨m, hm, hoperation.symm, hassignment.symm⟩
  · rw [hevents, List.map_append, List.map_singleton, List.nodup_append]
    refine ⟨hsound.once, List.nodup_singleton _, fun operation hmem operation' hmem' heq => ?_⟩
    obtain rfl := heq
    rw [List.mem_singleton, hoperation] at hmem'
    obtain ⟨other, hother, rfl⟩ := List.mem_map.mp hmem
    obtain ⟨m', hm', hid', hassignment'⟩ := hsound.operations other hother
    obtain rfl := record_unique hm hm' (hmem'.symm.trans hid'.symm)
    exact hunapplied (eventOf_isSome.mpr ⟨other, hother, hassignment'.symm, hmem'⟩)

/-- A message of a trail has its event. -/
theorem Trail.mem {row : AssignmentRow} {l : List Message} {last : EventRow} (htrail : Trail server db id row l last) (hm : m ∈ l) :
    ∃ event ∈ db.eventsOf id, event.operationId = m.messageId := by
  have hmem : (m.messageId, (envelope server m.payload).state) ∈ (db.eventsOf id).map fun event => (event.operationId, event.toState) := by
    rw [htrail.shown]
    exact List.mem_map.mpr ⟨m, hm, rfl⟩
  obtain ⟨event, hevent, heq⟩ := List.mem_map.mp hmem
  exact ⟨event, hevent, congrArg Prod.fst heq⟩

/-- The last event of a trail is that of its last message. -/
theorem Trail.last {row : AssignmentRow} {l : List Message} {last : EventRow} (htrail : Trail server db id row l last) :
    last ∈ db.eventsOf id ∧ ∃ m, l.getLast? = some m ∧ m.messageId = last.operationId := by
  have hlast := getLast_of_links htrail.links
  have hshown := congrArg List.getLast? htrail.shown
  rw [List.getLast?_map, List.getLast?_map, hlast] at hshown
  obtain ⟨m, hm, heq⟩ := Option.map_eq_some_iff.mp hshown.symm
  exact ⟨List.mem_of_getLast? hlast, m, hm, congrArg Prod.fst heq⟩

/-- Events of one number are one. -/
theorem Sound.event_unique (hsound : Sound server db) {event event' : EventRow} (h : event ∈ db.assignmentEvents)
    (h' : event' ∈ db.assignmentEvents) (hid : event.eventId = event'.eventId) : event = event' := by
  have hnodup : (db.assignmentEvents.map EventRow.eventId).Nodup := List.pairwise_map.mpr (hsound.ordered.imp fun hlt => hlt.ne)
  exact List.inj_on_of_nodup_map hnodup h h' hid

/-- A root starts a trail. -/
theorem Sound.trail_opened (hsound : Sound server db) {state : AssignmentState} (hdomain : m.domain = "chat_bus")
    (hvalid : Valid server db m) (hroot : (envelope server m.payload).event = "ASSIGNED")
    (hstate : state.text = (envelope server m.payload).state)
    (hnew : db.assignments.lookup (envelope server m.payload).assignmentId = none) :
    Trail server (db.opened server m state) (envelope server m.payload).assignmentId
      ((rootRow server m).moved state db.nextEventId m.createdAt) [m] (rootEvent server m db.nextEventId) := by
  have hevents : (db.opened server m state).eventsOf (envelope server m.payload).assignmentId =
      [rootEvent server m db.nextEventId] := by
    have happend : (db.opened server m state).eventsOf (envelope server m.payload).assignmentId =
      db.eventsOf (envelope server m.payload).assignmentId ++ [rootEvent server m db.nextEventId] := eventsOf_append rfl rfl
    rw [happend, hsound.eventsOf_unknown hnew, List.nil_append]
  refine ⟨⟨?_, rfl, hstate⟩, ?_, ?_, rfl⟩
  · rw [hevents]
    exact .single ⟨rfl, rfl, rfl⟩
  · exact .single (.root hdomain hvalid rfl hroot)
  · rw [hevents]
    rfl

/-- A successor goes on with a trail. -/
theorem Sound.trail_advanced (hsound : Sound server db) {row : AssignmentRow} {predecessor last : EventRow} {state : AssignmentState}
    {l : List Message} (hdomain : m.domain = "chat_bus") (hvalid : Valid server db m) (hunapplied : ¬ db.Applied server m)
    (hevent : (envelope server m.payload).event ≠ "ASSIGNED") (hstate : state.text = (envelope server m.payload).state)
    (hbinding : row.binding = (envelope server m.payload).binding)
    (hpredecessor : db.eventOf (envelope server m.payload).assignmentId (envelope server m.payload).predecessorMessage =
      some predecessor)
    (hcurrent : row.currentEventId = some predecessor.eventId)
    (htrail : Trail server db (envelope server m.payload).assignmentId row l last) :
    Trail server (db.advanced server m row predecessor.eventId state) (envelope server m.payload).assignmentId
      (row.moved state db.nextEventId m.createdAt) (l ++ [m])
      (successorEvent server row predecessor.eventId m db.nextEventId) := by
  obtain ⟨hmem, -, hoperation⟩ := eventOf_mem hpredecessor
  obtain ⟨hlast, lastMessage, hlastMessage, hlastId⟩ := htrail.last
  obtain rfl : predecessor = last :=
    hsound.event_unique hmem (mem_eventsOf.mp hlast).1 (Option.some.inj (hcurrent.symm.trans htrail.current))
  have hevents : (db.advanced server m row predecessor.eventId state).eventsOf (envelope server m.payload).assignmentId =
      db.eventsOf (envelope server m.payload).assignmentId ++ [successorEvent server row predecessor.eventId m db.nextEventId] :=
    eventsOf_append rfl rfl
  obtain ⟨root, hhead, hrootBinding⟩ := Option.map_eq_some_iff.mp htrail.binding
  have hnew : m ∉ l := by
    intro hm
    obtain ⟨event, hevent, heq⟩ := htrail.mem hm
    obtain ⟨hevent, hid⟩ := mem_eventsOf.mp hevent
    exact hunapplied (eventOf_isSome.mpr ⟨event, hevent, hid, heq⟩)
  have hfollows : Run (Follows server db (envelope server m.payload).assignmentId) [] (l ++ [m]) (l ++ [m]) :=
    htrail.follows.snoc (.successor hhead hlastMessage hdomain hvalid rfl hevent (hoperation.symm.trans hlastId.symm)
      (hbinding.symm.trans hrootBinding.symm) hnew)
  have hextends : Extends db (db.advanced server m row predecessor.eventId state) := ⟨fun _ h => h, Finset.Subset.refl _⟩
  refine ⟨⟨?_, rfl, hstate⟩, hfollows.mono fun _ _ _ => hextends.follows, ?_, ?_⟩
  · rw [hevents]
    exact htrail.links.snoc ⟨rfl, htrail.state, rfl⟩
  · rw [hevents, List.map_append, List.map_append, htrail.shown]
    rfl
  · rw [List.head?_append, hhead]
    exact congrArg some hrootBinding

/-- **A message that is applied keeps the invariant.** -/
theorem Sound.applies (hsound : Sound server db) (h : Applies server db m db') (hdomain : m.domain = "chat_bus")
    (hvalid : Valid server db m) : Sound server db' := by
  obtain ⟨hnumbered, hordered, hoperations, honce⟩ := hsound.event h hvalid.1
  have hextends := h.kept.extends
  have hrecords := h.kept.records
  cases h with
  | @root state hunapplied hevent hstate hnew =>
    refine ⟨hnumbered, hordered, fun event hmem => ?_, fun id row hrow => ?_, hoperations, honce, fun id row hrow => ?_⟩
    · refine known_insert ((List.mem_append.mp hmem).symm.imp (fun hnew => ?_) fun hold => hsound.known event hold)
      rw [List.mem_singleton.mp hnew]
      rfl
    · rcases Table.lookup_insert_eq_some.mp hrow with ⟨rfl, rfl⟩ | ⟨hne, hrow⟩
      · exact ⟨_, _, hsound.trail_opened hdomain hvalid hevent hstate hnew⟩
      · obtain ⟨l, last, htrail⟩ := hsound.trails id row hrow
        exact ⟨l, last, htrail.mono hextends (eventsOf_append_other rfl (Ne.symm hne))⟩
    · rcases Table.lookup_insert_eq_some.mp hrow with ⟨rfl, rfl⟩ | ⟨hne, hrow⟩
      · exact ⟨m, hvalid.1, rfl, rfl⟩
      · exact hsound.sources id row hrow
  | @successor row predecessor state hunapplied hevent hstate hold hbinding hpredecessor hcurrent =>
    refine ⟨hnumbered, hordered, fun event hmem => ?_, fun id row hrow => ?_, hoperations, honce, fun id row hrow => ?_⟩
    · refine known_insert ((List.mem_append.mp hmem).symm.imp (fun hnew => ?_) fun hold => hsound.known event hold)
      rw [List.mem_singleton.mp hnew]
      rfl
    · rcases Table.lookup_insert_eq_some.mp hrow with ⟨rfl, rfl⟩ | ⟨hne, hrow⟩
      · obtain ⟨l, last, htrail⟩ := hsound.trails _ _ hold
        exact ⟨_, _, hsound.trail_advanced hdomain hvalid hunapplied hevent hstate hbinding hpredecessor hcurrent htrail⟩
      · obtain ⟨l, last, htrail⟩ := hsound.trails id row hrow
        exact ⟨l, last, htrail.mono hextends (eventsOf_append_other rfl (Ne.symm hne))⟩
    · rcases Table.lookup_insert_eq_some.mp hrow with ⟨rfl, rfl⟩ | ⟨hne, hrow⟩
      · exact hsound.sources _ row hold
      · exact hsound.sources id row hrow

/-! ### Calls -/

/-- No event is changed or removed, and no binding is changed. -/
structure Grown (db db' : Plane) : Prop where
  events : db.assignmentEvents <+: db'.assignmentEvents
  bindings : ∀ id row, db.assignments.lookup id = some row → ∃ row', db'.assignments.lookup id = some row' ∧ row'.binding = row.binding

theorem Grown.refl (db : Plane) : Grown db db := ⟨List.prefix_rfl, fun _ row hrow => ⟨row, hrow, rfl⟩⟩

theorem Grown.trans (h : Grown db db') (h' : Grown db' db'') : Grown db db'' := by
  refine ⟨h.events.trans h'.events, fun id row hrow => ?_⟩
  obtain ⟨row', hrow', hbinding⟩ := h.bindings id row hrow
  obtain ⟨row'', hrow'', hbinding'⟩ := h'.bindings id row' hrow'
  exact ⟨row'', hrow'', hbinding'.trans hbinding⟩

theorem Applies.grown (h : Applies server db m db') : Grown db db' := by
  obtain ⟨event, hevents, -⟩ := h.events
  refine ⟨⟨[event], hevents.symm⟩, fun id row hrow => ?_⟩
  cases h with
  | root _ _ _ hnew =>
    refine ⟨row, (AList.lookup_insert_ne ?_).trans hrow, rfl⟩
    rintro rfl
    rw [hnew] at hrow
    cases hrow
  | successor _ _ _ hold =>
    by_cases hid : id = (envelope server m.payload).assignmentId
    · subst hid
      obtain rfl := Option.some.inj (hold.symm.trans hrow)
      exact ⟨_, AList.lookup_insert _, rfl⟩
    · exact ⟨row, (AList.lookup_insert_ne hid).trans hrow, rfl⟩

/-- What a loop leaves. -/
structure Carried (server : Server) (db db' : Plane) : Prop where
  sound : Sound server db'
  kept : Kept db db'
  grown : Grown db db'

theorem Carried.trans (h : Carried server db db') (h' : Carried server db' db'') : Carried server db db'' :=
  ⟨h'.sound, h.kept.trans h'.kept, h.grown.trans h'.grown⟩

/-- Observations leave the invariant. -/
theorem Sound.recording (h : Sound server db) (events : List ReconciliationEvent) :
    Sound server { db with reconciliationEvents := events } :=
  h.extend ⟨fun _ hm => hm, Finset.Subset.refl _⟩ rfl rfl le_rfl

/-- The body of the main loop keeps the invariant. -/
theorem visit_carried {locals locals' : Locals} (hsound : Sound server db) (hdomain : m.domain = "chat_bus")
    (hvalid : Valid server db m) (hrun : (visit server now locals m).run db = .ok locals' db') : Carried server db db' := by
  rcases visit_cases server now locals hsound.numbered hvalid.1 hvalid.2 with ⟨inserted, events, -, hrun', hnotes⟩ |
    ⟨counts, db'', hrun', happlies⟩ | ⟨hrun', -⟩ <;> rw [hrun'] at hrun
  · obtain ⟨-, rfl⟩ := EStateM.Result.ok.inj hrun
    exact ⟨hsound.recording events, hnotes.kept, ⟨List.prefix_rfl, fun _ row hrow => ⟨row, hrow, rfl⟩⟩⟩
  · obtain ⟨-, rfl⟩ := EStateM.Result.ok.inj hrun
    exact ⟨hsound.applies happlies hdomain hvalid, happlies.kept, happlies.grown⟩
  · cases hrun

theorem visits_carried {l : List Message} {locals locals' : Locals} (hsound : Sound server db)
    (hvalid : ∀ m ∈ l, m.domain = "chat_bus" ∧ Valid server db m)
    (hrun : (l.foldlM (visit server now) locals).run db = .ok locals' db') : Carried server db db' := by
  induction l generalizing db locals with
  | nil =>
    obtain ⟨-, rfl⟩ := run_pure_ok.mp hrun
    exact ⟨hsound, .refl _, .refl _⟩
  | cons m l ih =>
    rw [List.foldlM_cons] at hrun
    obtain ⟨locals'', db'', hrun, hrest⟩ := run_bind_ok.mp hrun
    obtain ⟨hdomain, hm⟩ := hvalid m List.mem_cons_self
    have hcarried := visit_carried hsound hdomain hm hrun
    refine hcarried.trans (ih hcarried.sound (fun m' hm' => ?_) hrest)
    obtain ⟨hdomain', hm'⟩ := hvalid m' (List.mem_cons_of_mem _ hm')
    exact ⟨hdomain', hm'.kept hcarried.kept⟩

theorem sweeps_carried {passes : ℕ} {counts counts' : Counts} (hsound : Sound server db) (hchecked : db.Checked server)
    (hrun : (sweeps server now passes counts).run db = .ok counts' db') : Carried server db db' := by
  induction passes generalizing db counts with
  | zero => cases hrun
  | succ passes ih =>
    obtain ⟨locals, db'', hsweep, hrest⟩ := run_bind_ok.mp hrun
    have hcarried : Carried server db db'' :=
      visits_carried hsound (fun m hm => ⟨(mem_projectable.mp hm).2.1, hchecked.valid hm⟩) hsweep
    split at hrest
    · exact hcarried.trans (ih hcarried.sound (hchecked.kept hcarried.kept) hrest)
    · obtain ⟨-, rfl⟩ := run_pure_ok.mp hrest
      exact hcarried

/-- **A call keeps the invariant.** -/
theorem reconcile_carried {passes : ℕ} {counts : Counts} (hsound : Sound server db)
    (hrun : (reconcileBusAssignmentsV1 server now passes).run db = .ok counts db') :
    Sound server db' ∧ Grown db db' ∧ db'.identities = db.identities ∧ db'.messages = db.messages := by
  obtain ⟨counts₁, events₁, hrun₁, hnotes, -⟩ := run_noting_loop db "ASSIGNMENT_ENVELOPE_INVALID"
    (fun m => (envelope server m.payload).Invalid db.identities) (fun _ => rfl)
    (fun counts events m => run_checkEnvelope server now counts m) (db.explicit server) {} db.reconciliationEvents
  unfold reconcileBusAssignmentsV1 at hrun
  rw [run_get_bind] at hrun
  obtain ⟨counts₂, db₂, hfirst, hrun⟩ := run_bind_ok.mp hrun
  obtain ⟨rfl, rfl⟩ := EStateM.Result.ok.inj (hrun₁.symm.trans hfirst)
  obtain ⟨counts₃, db₃, hmain, hrun⟩ := run_bind_ok.mp hrun
  have hcarried := sweeps_carried (hsound.recording events₁) (fun m hm => hnotes.there m hm) hmain
  obtain ⟨counts₄, events₄, hrun₄, -⟩ := run_noting_loop db₃ "ASSIGNMENT_EVENT_PENDING_PREDECESSOR"
    (fun _ => True) (fun _ => rfl) (fun counts events m => run_awaitPredecessor server now counts m)
    (db₃.waiting server) counts₃ db₃.reconciliationEvents
  rw [run_get_bind, hrun₄] at hrun
  obtain ⟨-, rfl⟩ := EStateM.Result.ok.inj hrun
  exact ⟨hcarried.sound.recording events₄, ⟨hcarried.grown.events, hcarried.grown.bindings⟩, hcarried.kept.identities,
    hcarried.kept.messages⟩

/-! ### Inserts -/

theorem run_insertMessage (hnew : db.messages.lookup m.messageId = none) :
    (insertMessage m).run db = .ok ⟨⟩ { db with messages := db.messages.insert m.messageId m.toMessageRow } := by
  unfold insertMessage
  rw [run_get_bind, run_required_bind]
  exact ⟨_, Table.insertRow_eq_some.mpr ⟨hnew, rfl⟩, rfl⟩

theorem insertMessage_ok (hrun : (insertMessage m).run db = .ok ⟨⟩ db') :
    db.messages.lookup m.messageId = none ∧ db' = { db with messages := db.messages.insert m.messageId m.toMessageRow } := by
  unfold insertMessage at hrun
  rw [run_get_bind, run_required_bind] at hrun
  obtain ⟨messages, hmessages, hset⟩ := hrun
  obtain ⟨hnew, rfl⟩ := Table.insertRow_eq_some.mp hmessages
  obtain ⟨-, rfl⟩ := EStateM.Result.ok.inj hset
  exact ⟨hnew, rfl⟩

theorem mem_records_insert {m' : Message} (hnew : db.messages.lookup m.messageId = none) :
    m' ∈ ({ db with messages := db.messages.insert m.messageId m.toMessageRow } : Plane).records ↔ m' ∈ db.records ∨ m' = m := by
  rw [Plane.mem_records, Plane.mem_records, Table.lookup_insert_eq_some]
  constructor
  · rintro (⟨hid, hrow⟩ | ⟨-, hrow⟩)
    · obtain ⟨row, id⟩ := m
      obtain ⟨row', id'⟩ := m'
      obtain rfl : id' = id := hid
      obtain rfl : row' = row := hrow
      exact .inr rfl
    · exact .inl hrow
  · rintro (hrow | rfl)
    · refine .inr ⟨fun hid => ?_, hrow⟩
      rw [hid, hnew] at hrow
      cases hrow
    · exact .inl ⟨rfl, rfl⟩

/-- The rows of a batch, before the trigger. -/
theorem inserts_ok {batch : List Message} {u : PUnit} (hrun : (batch.forM insertMessage).run db = .ok u db') :
    (∃ messages, db' = { db with messages }) ∧ ∀ m, m ∈ db'.records ↔ m ∈ db.records ∨ m ∈ batch := by
  induction batch generalizing db with
  | nil =>
    obtain ⟨-, rfl⟩ := run_pure_ok.mp hrun
    exact ⟨⟨_, rfl⟩, by simp⟩
  | cons m batch ih =>
    obtain ⟨_, db'', hfirst, hrest⟩ := run_bind_ok.mp hrun
    obtain ⟨hnew, rfl⟩ := insertMessage_ok hfirst
    obtain ⟨⟨messages, rfl⟩, hrecords⟩ := ih hrest
    refine ⟨⟨messages, rfl⟩, fun m' => ?_⟩
    rw [hrecords, mem_records_insert hnew, List.mem_cons, or_assoc]

/-- New messages of different ids are inserted. -/
theorem run_inserts {batch : List Message} (hids : (batch.map Message.messageId).Nodup)
    (hnew : ∀ m ∈ batch, db.messages.lookup m.messageId = none) :
    ∃ messages, (batch.forM insertMessage).run db = .ok ⟨⟩ { db with messages } := by
  induction batch generalizing db with
  | nil => exact ⟨db.messages, rfl⟩
  | cons m batch ih =>
    rw [List.map_cons, List.nodup_cons] at hids
    have hnew' : ∀ m' ∈ batch, (db.messages.insert m.messageId m.toMessageRow).lookup m'.messageId = none := by
      intro m' hm'
      have hne : m'.messageId ≠ m.messageId := fun heq => hids.1 (heq ▸ List.mem_map_of_mem hm')
      exact (AList.lookup_insert_ne hne).trans (hnew m' (List.mem_cons_of_mem _ hm'))
    obtain ⟨messages, hrest⟩ : ∃ messages, (batch.forM insertMessage).run
        { db with messages := db.messages.insert m.messageId m.toMessageRow } = .ok ⟨⟩ { db with messages } := ih hids.2 hnew'
    exact ⟨messages, run_bind_ok.mpr ⟨⟨⟩, _, run_insertMessage (hnew m List.mem_cons_self), hrest⟩⟩

/-- **An insert keeps the invariant.** -/
theorem insertMessages_ok {batch : List Message} {u : PUnit} (hsound : Sound server db)
    (hrun : (insertMessages server now batch).run db = .ok u db') : Sound server db' ∧ Grown db db' := by
  obtain ⟨_, db₁, hrows, hrun⟩ := run_bind_ok.mp hrun
  rw [run_get_bind] at hrun
  obtain ⟨counts, db₂, hcall, hend⟩ := run_bind_ok.mp hrun
  obtain ⟨-, rfl⟩ := run_pure_ok.mp hend
  obtain ⟨⟨messages, rfl⟩, hrecords⟩ := inserts_ok hrows
  have hextends : Extends db { db with messages } := ⟨fun m hm => (hrecords m).mpr (.inl hm), Finset.Subset.refl _⟩
  obtain ⟨hsound', hgrown, -⟩ := reconcile_carried (hsound.extend hextends rfl rfl le_rfl) hcall
  exact ⟨hsound', ⟨hgrown.events, hgrown.bindings⟩⟩

/-- What an insert leaves. -/
structure Inserted (server : Server) (db : Plane) (batch : List Message) (db' : Plane) : Prop where
  sound : Sound server db'
  settled : Settled server db'
  identities : db'.identities = db.identities
  records (m : Message) : m ∈ db'.records ↔ m ∈ db.records ∨ m ∈ batch
  invalid (messageId : String) : observed db'.reconciliationEvents "ASSIGNMENT_ENVELOPE_INVALID" messageId = true →
    observed db.reconciliationEvents "ASSIGNMENT_ENVELOPE_INVALID" messageId = true ∨
      ∃ m ∈ db'.records, m.messageId = messageId ∧ (envelope server m.payload).Invalid db'.identities

/-- **New messages of different ids are inserted, and the call after it settles the tables.** -/
theorem run_insertMessages {batch : List Message} (now : ℤ) (hsound : Sound server db) (hids : (batch.map Message.messageId).Nodup)
    (hnew : ∀ m ∈ batch, db.messages.lookup m.messageId = none) :
    ∃ db', (insertMessages server now batch).run db = .ok ⟨⟩ db' ∧ Inserted server db batch db' := by
  obtain ⟨messages, hrows⟩ := run_inserts hids hnew
  obtain ⟨-, hrecords⟩ := inserts_ok hrows
  have hextends : Extends db { db with messages } := ⟨fun m hm => (hrecords m).mpr (.inl hm), Finset.Subset.refl _⟩
  have hsound' : Sound server { db with messages } := hsound.extend hextends rfl rfl le_rfl
  rcases reconcile_settles server now hsound'.numbered (Nat.lt_succ_self _) with ⟨counts, db', hrun, hcalled, hsettled⟩ |
    ⟨_, -, hmisplaced⟩
  · refine ⟨db', ?_, (reconcile_carried hsound' hrun).1, hsettled, hcalled.identities, fun m => ?_, fun messageId hobserved => ?_⟩
    · refine run_bind_ok.mpr ⟨⟨⟩, _, hrows, ?_⟩
      rw [run_get_bind]
      exact run_bind_ok.mpr ⟨_, _, hrun, rfl⟩
    · rw [hcalled.records]
      exact hrecords m
    · rw [hcalled.records, hcalled.identities]
      exact hcalled.invalid messageId hobserved
  · exact absurd hmisplaced hsound'.not_misplaced

/-! ### Runs -/

/-- What may happen to the tables. -/
inductive Change where
  | register (identityId : String)
  | insert (now : ℤ) (batch : List Message)
  | reconcile (now : ℤ) (passes : ℕ)
  | observe (event : ReconciliationEvent)

/-- A statement is a transaction: one that raises leaves the tables, but for numbers that the
sequence gave. -/
inductive Step (server : Server) (db : Plane) : Change → Plane → Prop where
  | registered (identityId : String) : Step server db (.register identityId) { db with identities := insert identityId db.identities }
  | inserted {now : ℤ} {batch : List Message} {db' : Plane} :
      (insertMessages server now batch).run db = .ok ⟨⟩ db' → Step server db (.insert now batch) db'
  | reconciled {now : ℤ} {passes : ℕ} {counts : Counts} {db' : Plane} :
      (reconcileBusAssignmentsV1 server now passes).run db = .ok counts db' → Step server db (.reconcile now passes) db'
  | observed (event : ReconciliationEvent) :
      Step server db (.observe event) { db with reconciliationEvents := db.reconciliationEvents ++ [event] }
  | raised (change : Change) (gap : ℕ) : Step server db change { db with nextEventId := db.nextEventId + gap }

theorem Step.sound {change : Change} (hstep : Step server db change db') (hsound : Sound server db) :
    Sound server db' ∧ Grown db db' := by
  cases hstep with
  | registered identityId =>
    exact ⟨hsound.extend ⟨fun _ hm => hm, Finset.subset_insert _ _⟩ rfl rfl le_rfl, ⟨List.prefix_rfl, fun _ row hrow => ⟨row, hrow, rfl⟩⟩⟩
  | inserted hrun => exact insertMessages_ok hsound hrun
  | reconciled hrun =>
    obtain ⟨hsound', hgrown, -⟩ := reconcile_carried hsound hrun
    exact ⟨hsound', hgrown⟩
  | observed event => exact ⟨hsound.recording _, ⟨List.prefix_rfl, fun _ row hrow => ⟨row, hrow, rfl⟩⟩⟩
  | raised _ gap =>
    have hnext : db.nextEventId ≤ db.nextEventId + gap := by omega
    exact ⟨hsound.extend ⟨fun _ hm => hm, Finset.Subset.refl _⟩ rfl rfl hnext,
      ⟨List.prefix_rfl, fun _ row hrow => ⟨row, hrow, rfl⟩⟩⟩

theorem run_sound {changes : List Change} (hrun : Run (Step server) db changes db') (hsound : Sound server db) :
    Sound server db' ∧ Grown db db' := by
  induction hrun with
  | nil => exact ⟨hsound, .refl _⟩
  | snoc _ hstep ih =>
    obtain ⟨hsound', hgrown⟩ := ih
    obtain ⟨hsound'', hgrown'⟩ := hstep.sound hsound'
    exact ⟨hsound'', hgrown.trans hgrown'⟩

/-- No assignment is there. -/
structure Plane.Fresh (db : Plane) : Prop where
  assignments : db.assignments = ∅
  events : db.assignmentEvents = []

theorem Plane.Fresh.sound (h : db.Fresh) (server : Server) : Sound server db := by
  have hunknown (id : String) (row : AssignmentRow) : db.assignments.lookup id ≠ some row := by
    rw [h.assignments, AList.lookup_empty]
    nofun
  refine ⟨fun event hmem => ?_, ?_, fun event hmem => ?_, fun id row hrow => absurd hrow (hunknown id row), fun event hmem => ?_, ?_,
    fun id row hrow => absurd hrow (hunknown id row)⟩
  · rw [h.events] at hmem
    cases hmem
  · rw [h.events]
    exact .nil
  · rw [h.events] at hmem
    cases hmem
  · rw [h.events] at hmem
    cases hmem
  · rw [h.events]
    exact List.nodup_nil

/-- **In every run from tables without assignments, the events of an assignment are a chain by
their predecessors that ends with its current event in its current state, a message has one event
at most, and what comes later neither changes nor removes an event, nor changes a binding.** -/
theorem assignment_plane_safe {server : Server} {db db' : Plane} {changes : List Change} (hfresh : db.Fresh)
    (hrun : Run (Step server) db changes db') :
    (∀ id row, db'.assignments.lookup id = some row → ∃ last, Chained db' id row last) ∧
    (∀ event ∈ db'.assignmentEvents, ∃ row, db'.assignments.lookup event.assignmentId = some row) ∧
    (db'.assignmentEvents.map EventRow.operationId).Nodup ∧
    ∀ later changes', Run (Step server) db' changes' later → Grown db' later := by
  obtain ⟨hsound, -⟩ := run_sound hrun (hfresh.sound server)
  refine ⟨fun id row hrow => ?_, hsound.known, hsound.once, fun later changes' hlater => (run_sound hlater hsound).2⟩
  obtain ⟨l, last, htrail⟩ := hsound.trails id row hrow
  exact ⟨last, htrail.toChained⟩

/-- Nothing is there but identities. -/
def blankPlane (identities : Finset String) : Plane := ⟨identities, ∅, ∅, [], 1, []⟩

theorem blankPlane_fresh (identities : Finset String) : (blankPlane identities).Fresh := ⟨rfl, rfl⟩

/-- A message that comes before the root that it acknowledges. -/
def sampleBatch : List Message := [sampleMessage "n" "a" "ACKNOWLEDGED" "m", sampleMessage "m" "a" "ASSIGNED" ""]

theorem assignment_plane_safe_pair : ∃ db',
    Run (Step sampleServer) (blankPlane ∅) [.register "two", .insert 0 sampleBatch] db' ∧
    (∀ id row, db'.assignments.lookup id = some row → ∃ last, Chained db' id row last) ∧
    (∀ event ∈ db'.assignmentEvents, ∃ row, db'.assignments.lookup event.assignmentId = some row) ∧
    (db'.assignmentEvents.map EventRow.operationId).Nodup ∧
    ∀ later changes', Run (Step sampleServer) db' changes' later → Grown db' later := by
  have hregistered : Step sampleServer (blankPlane ∅) (.register "two") (blankPlane {"two"}) := .registered "two"
  have hsound := (blankPlane_fresh {"two"}).sound sampleServer
  have hids : (sampleBatch.map Message.messageId).Nodup := by decide
  obtain ⟨db', hrun, -⟩ := run_insertMessages 0 hsound hids fun _ _ => rfl
  have hruns := (Run.single hregistered).snoc (.inserted hrun)
  exact ⟨db', hruns, assignment_plane_safe (blankPlane_fresh ∅) hruns⟩

end CcbCore.Assignments
