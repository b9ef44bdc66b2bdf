import CcbCore.Journal.Fencing
import CcbCore.Journal.Lockstep

/-!
# The reference journal and the durable journal

The same operations made of both journals, at the times of one clock. A `Ticket` is a claim as the two returned
it, under the identifiers of each. `Simulates` relates the two states: the active batch of a lane in the
reference journal is the one that is `CLAIMED` in the durable one, so a batch that another takes over is no
longer active there and `STALE` here. It holds after every run, in which the two journals have accepted and
rejected the same operations (`reference_refines`).
-/

namespace CcbCore.Refinement

open CcbCore.Postgres CcbCore.Raising
open Journal (BatchClaim BatchFileState BatchRecord ProjectionJournal UuidSource WellFormed LaneKey)
open Projection (Uuid Database Plpgsql Timestamptz LaneRow BatchRow FileRow FileState)

variable {Other : Type}

/-! ### Operations -/

/-- A claim, as the two journals returned it. -/
structure Ticket where
  claim : BatchClaim
  batchId : Uuid
  claimToken : Uuid
  deriving DecidableEq

/-- An operation with well-formed arguments, and the identifiers that `gen_random_uuid()` gives. -/
inductive Operation where
  | seed (identity branch : Name) (head : Option (Hex 40))
  | setControlCut (identity branch : Name) (control topology : Hex 40)
  | claim (request : WellFormed) (batchId claimToken : Uuid)
  | record (ticket : Ticket) (path : String) (state : BatchFileState) (resultRef : Option String)
  | finalize (ticket : Ticket)

/-- `BatchFileState.value`. -/
def stateText : BatchFileState → String
  | .pending => "PENDING"
  | .projected => "PROJECTED"
  | .idempotent => "IDEMPOTENT"
  | .failed => "FAILED"
  | .conflict => "CONFLICT"

/-- The call of the reference journal, at a time in milliseconds. -/
def Operation.call (now : ℤ) : Operation → Journal.Call
  | .seed identity branch head => .seedLaneState identity.text branch.text (head.map Hex.text)
  | .setControlCut identity branch control topology =>
    .setControlCut identity.text branch.text control.text topology.text
  | .claim request _ _ => .claimBatch (request.request now)
  | .record ticket path state _ => .recordFileResult ticket.claim path state
  | .finalize ticket => .finalizeBatch ticket.claim now

/-- What a function of the durable journal returns. -/
inductive Answer where
  | lane (lane : LaneKey × LaneRow)
  | batch (batch : Uuid × BatchRow)
  | file (file : (Uuid × String) × FileRow)

/-- The function of the durable journal, at a time in microseconds. -/
def Operation.body (now : ℤ) : Operation → Plpgsql Other Answer
  | .seed identity branch head =>
    .lane <$> Projection.projectionSeedLaneV1 now (some identity.text) (some branch.text) (head.map Hex.text)
  | .setControlCut identity branch control topology =>
    .lane <$> Projection.projectionSetControlCutV1 now (some identity.text) (some branch.text) (some control.text)
      (some topology.text)
  | .claim request batchId claimToken =>
    .batch <$> Projection.projectionClaimBatchV1 now batchId claimToken (Projection.argsOf request)
  | .record ticket path state resultRef =>
    .file <$> Projection.projectionRecordFileResultV1 now (some ticket.batchId) (some ticket.claimToken) (some path)
      (some (stateText state)) resultRef
  | .finalize ticket => .lane <$> Projection.projectionFinalizeBatchV1 now (some ticket.batchId) (some ticket.claimToken)

/-! ### Steps -/

/-- The two journals, the claims that were returned, and the time of the last operation. -/
structure Journals (Other : Type) where
  reference : ProjectionJournal
  durable : Database Other
  tickets : List Ticket
  clock : ℤ

/-- An operation, its time, and whether each journal accepts it. -/
structure Event where
  operation : Operation
  now : ℤ
  reference : Bool
  durable : Bool

/-- A call that does not raise is accepted. -/
def isAccepted : Journal.Outcome → Bool
  | .raised _ => false
  | _ => true

/-- A function run as a transaction: its answer, unless it raises, and the tables. -/
def perform (body : Plpgsql Other Answer) (db : Database Other) : Option Answer × Database Other :=
  match (transaction body).run db with
  | .ok answer db' => (some answer, db')
  | .error _ db' => (none, db')

/-- The ticket of a claim that both journals returned. -/
def ticketsOf : Journal.Outcome → Option Answer → List Ticket
  | .claimed claim, some (.batch (id, batch)) => [⟨claim, id, batch.claimToken⟩]
  | _, _ => []

section Step

variable (uuid4 : UuidSource) (s : Journals Other) (operation : Operation) (now : ℤ)

/-- How the reference journal ends the call, and what it leaves. -/
def Journals.outcome : Journal.Outcome × ProjectionJournal := Journal.exec uuid4 (operation.call now) s.reference

/-- What the durable journal answers, and what it leaves. -/
def Journals.answer : Option Answer × Database Other := perform (operation.body (1000 * now)) s.durable

def Journals.event : Event := ⟨operation, now, isAccepted (s.outcome uuid4 operation now).1, (s.answer operation now).1.isSome⟩

def Journals.after : Journals Other where
  reference := (s.outcome uuid4 operation now).2
  durable := (s.answer operation now).2
  tickets := s.tickets ++ ticketsOf (s.outcome uuid4 operation now).1 (s.answer operation now).1
  clock := now

/-- A claim is presented as it was returned, before its lease expires and its batch is complete; a new batch has a
new identifier. -/
def Journals.Admits : Operation → Prop
  | .claim _ batchId _ => s.durable.batches.lookup batchId = none
  | .record ticket _ _ _ | .finalize ticket =>
    ticket ∈ s.tickets ∧ now < ticket.claim.leaseExpiresMs ∧ ¬ Journal.Complete s.reference ticket.claim.batchId
  | _ => True

end Step

/-- An operation is made of both journals, no earlier than the last one. -/
def Step (uuid4 : UuidSource) (s : Journals Other) (event : Event) (s' : Journals Other) : Prop :=
  s.clock ≤ event.now ∧ s.Admits event.now event.operation ∧ event = s.event uuid4 event.operation event.now ∧
    s' = s.after uuid4 event.operation event.now

/-! ### Agreement -/

/-- The state of a file, as the reference journal has it. -/
def referenceState : FileState → BatchFileState
  | .pending => .pending
  | .projected => .projected
  | .idempotent => .idempotent
  | .failed => .failed
  | .conflict => .conflict

/-- The control cut of a lane. -/
def cutOf (row : LaneRow) : Option (String × String) :=
  row.controlSha.bind fun control => row.topologySha.map fun topology => (control.text, topology.text)

/-- The two journals have the same lanes, with the same heads and cuts, and, under the identifiers of their tickets,
the same open batches and file states. -/
structure Agree (s : Journals Other) : Prop where
  heads : ∀ key, (s.reference.lanes key).map (·.projectedHeadSha) =
    (s.durable.laneState.lookup key).map fun row => row.projectedHeadSha.map Hex.text
  cuts : ∀ key, s.reference.controlCuts key = (s.durable.laneState.lookup key).bind cutOf
  openBatch : ∀ key, ∀ ticket ∈ s.tickets, s.reference.activeBatchByLane key = some ticket.claim.batchId ↔
    ∃ batch, s.durable.batches.lookup ticket.batchId = some batch ∧ batch.key = key ∧ batch.status = .claimed
  files : ∀ ticket ∈ s.tickets, ∀ path,
    (s.reference.batches ticket.claim.batchId).bind (fun record => record.files.lookup path) =
      (s.durable.batchFiles.lookup (ticket.batchId, path)).map fun file => referenceState file.state
  active : ∀ key id, s.reference.activeBatchByLane key = some id → ∃ ticket ∈ s.tickets, ticket.claim.batchId = id
  recorded : ∀ id record, s.reference.batches id = some record → ∃ ticket ∈ s.tickets, ticket.claim.batchId = id
  stored : ∀ id batch, s.durable.batches.lookup id = some batch → ∃ ticket ∈ s.tickets, ticket.batchId = id
  paired : ∀ ticket ∈ s.tickets, ∀ ticket' ∈ s.tickets,
    ticket.claim.batchId = ticket'.claim.batchId ∨ ticket.batchId = ticket'.batchId → ticket = ticket'

/-! ### The simulation -/

/-- A ticket's batch is the same in the two journals. -/
structure SameBatch (active : LaneKey → Option String) (files : Table (Uuid × String) FileRow) (ticket : Ticket)
    (record : BatchRecord) (batch : BatchRow) : Prop where
  claim : record.claim = ticket.claim
  key : batch.key = ticket.claim.key
  token : batch.claimToken = ticket.claimToken
  expected : ticket.claim.expectedProjectedHead = batch.expectedProjectedHeadSha.map Hex.text
  target : ticket.claim.targetHead = batch.targetHeadSha.text
  control : ticket.claim.controlSha = batch.controlSha.text
  topology : ticket.claim.topologySha = batch.topologySha.text
  expires : batch.claimExpiresAt = ((1000 * ticket.claim.leaseExpiresMs : ℤ) : Timestamptz)
  complete : batch.status = .complete ↔ record.complete = true
  distinct : (record.files.map Prod.fst).Nodup
  claimed : batch.status = .claimed ↔ active ticket.claim.key = some ticket.claim.batchId
  states : ∀ path, record.files.lookup path =
    (files.lookup (ticket.batchId, path)).map fun file => referenceState file.state

/-- What relates the two journals. -/
structure Simulates (uuid4 : UuidSource) (s : Journals Other) : Prop where
  inv : Journal.Inv uuid4 s.reference
  clock : 0 ≤ s.clock
  heads : ∀ key, (s.reference.lanes key).map (·.projectedHeadSha) =
    (s.durable.laneState.lookup key).map fun row => row.projectedHeadSha.map Hex.text
  cuts : ∀ key, s.reference.controlCuts key = (s.durable.laneState.lookup key).bind cutOf
  batches : ∀ ticket ∈ s.tickets, ∃ record batch, s.reference.batches ticket.claim.batchId = some record ∧
    s.durable.batches.lookup ticket.batchId = some batch ∧
    SameBatch s.reference.activeBatchByLane s.durable.batchFiles ticket record batch
  recorded : ∀ id record, s.reference.batches id = some record → ∃ ticket ∈ s.tickets, ticket.claim.batchId = id
  stored : ∀ id batch, s.durable.batches.lookup id = some batch → ∃ ticket ∈ s.tickets, ticket.batchId = id
  paired : ∀ ticket ∈ s.tickets, ∀ ticket' ∈ s.tickets,
    ticket.claim.batchId = ticket'.claim.batchId ∨ ticket.batchId = ticket'.batchId → ticket = ticket'
  owned : ∀ id path file, s.durable.batchFiles.lookup (id, path) = some file →
    ∃ batch, s.durable.batches.lookup id = some batch

variable {uuid4 : UuidSource} {s : Journals Other} {operation : Operation} {now : ℤ}

theorem hex_text_injective {n : ℕ} : Function.Injective (Hex.text : Hex n → String) := by
  rintro ⟨text, hchecked⟩ ⟨text', hchecked'⟩ rfl
  rfl

theorem timestamptz_lt {a b : ℤ} : ((a : Timestamptz) < (b : Timestamptz)) ↔ a < b :=
  WithBot.coe_lt_coe.trans WithTop.coe_lt_coe

theorem timestamptz_le {a b : ℤ} : ((a : Timestamptz) ≤ (b : Timestamptz)) ↔ a ≤ b :=
  WithBot.coe_le_coe.trans WithTop.coe_le_coe

theorem resultState_stateText {state : BatchFileState} {row : FileState} :
    Projection.resultState (stateText state) = some row ↔ state ≠ .pending ∧ referenceState row = state := by
  cases state <;> cases row <;> decide

theorem referenceState_inj {file row : FileState} : referenceState file = referenceState row ↔ file = row := by
  cases file <;> cases row <;> decide

theorem referenceState_eq_pending {file : FileState} : referenceState file = .pending ↔ file = .pending := by
  cases file <;> decide

theorem exists_referenceState (state : BatchFileState) : ∃ row, referenceState row = state := by
  cases state with
  | pending => exact ⟨.pending, rfl⟩
  | projected => exact ⟨.projected, rfl⟩
  | idempotent => exact ⟨.idempotent, rfl⟩
  | failed => exact ⟨.failed, rfl⟩
  | conflict => exact ⟨.conflict, rfl⟩

theorem Simulates.agree (h : Simulates uuid4 s) : Agree s := by
  refine ⟨h.heads, h.cuts, ?_, ?_, ?_, h.recorded, h.stored, h.paired⟩
  · intro key ticket hticket
    obtain ⟨record, batch, hrecord, hbatch, hsame⟩ := h.batches ticket hticket
    constructor
    · intro hactive
      obtain ⟨record', hrecord', hkey, -⟩ := h.inv.active key _ hactive
      obtain rfl := Option.some.inj (hrecord.symm.trans hrecord')
      rw [hsame.claim] at hkey
      exact ⟨batch, hbatch, hsame.key.trans hkey, hsame.claimed.mpr (hkey ▸ hactive)⟩
    · rintro ⟨batch', hbatch', rfl, hclaimed⟩
      obtain rfl := Option.some.inj (hbatch.symm.trans hbatch')
      rw [hsame.key]
      exact hsame.claimed.mp hclaimed
  · intro ticket hticket path
    obtain ⟨record, batch, hrecord, -, hsame⟩ := h.batches ticket hticket
    rw [hrecord, Option.bind_some, hsame.states]
  · intro key id hactive
    obtain ⟨record, hrecord, -⟩ := h.inv.active key id hactive
    exact h.recorded id record hrecord

/-! ### In lockstep -/

theorem isAccepted_of_ok {call : Journal.Call} {journal journal' : ProjectionJournal} {outcome : Journal.Outcome}
    (h : (call.method uuid4).run journal = .ok outcome journal') : isAccepted outcome = true := by
  cases call <;>
  · obtain ⟨_, -, rfl⟩ := run_map_ok.mp h
    rfl

/-- Two calls that return for the same reasons, and leave related states when they do. -/
theorem Simulates.lockstep (h : Simulates uuid4 s) (hclock : 0 ≤ now)
    (haccepts : (∃ outcome journal, ((operation.call now).method uuid4).run s.reference = .ok outcome journal) ↔
      ∃ answer db, (operation.body (1000 * now)).run s.durable = .ok answer db)
    (hsimulates : ∀ outcome journal answer db, ((operation.call now).method uuid4).run s.reference = .ok outcome journal →
      (operation.body (1000 * now)).run s.durable = .ok answer db → Journal.Inv uuid4 journal →
      Simulates uuid4 ⟨journal, db, s.tickets ++ ticketsOf outcome (some answer), now⟩) :
    (s.event uuid4 operation now).reference = (s.event uuid4 operation now).durable ∧
      Simulates uuid4 (s.after uuid4 operation now) := by
  unfold Journals.event Journals.after Journals.outcome Journals.answer perform Journal.exec
  cases hreference : ((operation.call now).method uuid4).run s.reference with
  | ok outcome journal =>
    obtain ⟨answer, db, hdurable⟩ := haccepts.mp ⟨outcome, journal, hreference⟩
    rw [run_transaction_ok.mpr hdurable]
    have hexec : Journal.exec uuid4 (operation.call now) s.reference = (outcome, journal) := by
      rw [Journal.exec, hreference]
    refine ⟨isAccepted_of_ok hreference, hsimulates _ _ _ _ hreference hdurable ?_⟩
    exact h.inv.effect (Journal.effect_of_exec uuid4 hexec)
  | error e journal =>
    obtain rfl := Journal.atomic_method uuid4 _ _ _ _ hreference
    cases hdurable : (operation.body (1000 * now)).run s.durable with
    | ok answer db =>
      obtain ⟨outcome, journal, hok⟩ := haccepts.mpr ⟨answer, db, hdurable⟩
      rw [hreference] at hok
      cases hok
    | error e db =>
      rw [run_transaction_error.mpr ⟨rfl, db, hdurable⟩]
      refine ⟨rfl, ?_⟩
      dsimp only [ticketsOf]
      rw [List.append_nil]
      exact { h with clock := hclock }

@[simp] theorem append_ticketsOf_returned (tickets : List Ticket) (answer : Option Answer) :
    tickets ++ ticketsOf .returned answer = tickets := List.append_nil _

@[simp] theorem append_ticketsOf_finalized (tickets : List Ticket) (state : Journal.ProjectionLaneState) (answer : Option Answer) :
    tickets ++ ticketsOf (.finalized state) answer = tickets := List.append_nil _

/-! ### Lanes -/

theorem Simulates.head_iff (h : Simulates uuid4 s) {key : LaneKey} {head : Option (Hex 40)} :
    (∃ lane, s.reference.lanes key = some lane ∧ lane.projectedHeadSha = head.map Hex.text) ↔
      ∃ row, s.durable.laneState.lookup key = some row ∧ row.projectedHeadSha = head := by
  have hheads := h.heads key
  cases hlane : s.reference.lanes key with
  | none =>
    rw [hlane, Option.map_none, eq_comm, Option.map_eq_none_iff] at hheads
    simp [hheads]
  | some lane =>
    rw [hlane, Option.map_some, eq_comm, Option.map_eq_some_iff] at hheads
    obtain ⟨row, hrow, hhead⟩ := hheads
    simp only [hrow, Option.some.injEq, exists_eq_left', ← hhead]
    exact (Option.map_injective hex_text_injective).eq_iff

theorem Simulates.lane_eq_none (h : Simulates uuid4 s) {key : LaneKey} :
    s.reference.lanes key = none ↔ s.durable.laneState.lookup key = none := by
  have hheads := congrArg Option.isNone (h.heads key)
  rw [Option.isNone_map, Option.isNone_map] at hheads
  rw [← Option.isNone_iff_eq_none, hheads, Option.isNone_iff_eq_none]

/-- A lane after its row is written. -/
theorem Simulates.heads_insert (h : Simulates uuid4 s) {key : LaneKey} {lane : Journal.ProjectionLaneState} {row : LaneRow}
    (hhead : lane.projectedHeadSha = row.projectedHeadSha.map Hex.text) (key' : LaneKey) :
    (Function.update s.reference.lanes key (some lane) key').map (·.projectedHeadSha) =
      ((s.durable.laneState.insert key row).lookup key').map fun row => row.projectedHeadSha.map Hex.text := by
  by_cases hkey : key' = key
  · subst hkey
    rw [Function.update_self, AList.lookup_insert, Option.map_some, Option.map_some, hhead]
  · rw [Function.update_of_ne hkey, AList.lookup_insert_ne hkey, h.heads]

/-- A lane may be seeded with a head in the one journal exactly when it may in the other. -/
theorem Simulates.seed_iff (h : Simulates uuid4 s) {key : LaneKey} {head : Option (Hex 40)} :
    (∀ lane, s.reference.lanes key = some lane → lane.projectedHeadSha = head.map Hex.text) ↔
      s.durable.laneState.lookup key = none ∨ ∃ row, s.durable.laneState.lookup key = some row ∧ row.projectedHeadSha = head := by
  rw [← h.lane_eq_none, ← h.head_iff]
  cases s.reference.lanes key <;> simp

theorem Simulates.seed (h : Simulates uuid4 s) (hclock : 0 ≤ now) (identity branch : Name) (head : Option (Hex 40)) :
    (s.event uuid4 (.seed identity branch head) now).reference = (s.event uuid4 (.seed identity branch head) now).durable ∧
      Simulates uuid4 (s.after uuid4 (.seed identity branch head) now) := by
  refine h.lockstep hclock ?_ ?_
  · simp only [Operation.call, Operation.body, Journal.Call.method, run_map_ok, Journal.seedLaneState_iff,
      Projection.projectionSeedLaneV1_iff, h.seed_iff]
    constructor
    · rintro ⟨_, _, _, ⟨hnone | ⟨row, hrow, hhead⟩, -⟩, -⟩
      · exact ⟨_, _, _, .inl ⟨hnone, rfl, rfl⟩, rfl⟩
      · exact ⟨_, _, _, .inr ⟨row, hrow, hhead, rfl, rfl⟩, rfl⟩
    · rintro ⟨_, _, _, ⟨hnone, -⟩ | ⟨row, hrow, hhead, -⟩, -⟩
      · exact ⟨_, _, ⟨⟩, ⟨.inl hnone, rfl⟩, rfl⟩
      · exact ⟨_, _, ⟨⟩, ⟨.inr ⟨row, hrow, hhead⟩, rfl⟩, rfl⟩
  · intro outcome journal answer db hmethod hbody hinv
    obtain ⟨_, hreference, rfl⟩ := run_map_ok.mp hmethod
    obtain ⟨_, hdurable, rfl⟩ := run_map_ok.mp hbody
    obtain ⟨hsame, rfl⟩ := Journal.seedLaneState_iff.mp hreference
    rw [append_ticketsOf_returned]
    obtain ⟨hnone, rfl, rfl⟩ | ⟨row, hrow, hhead, rfl, rfl⟩ := Projection.projectionSeedLaneV1_iff.mp hdurable
    · refine { h with inv := hinv, clock := hclock, heads := fun key => h.heads_insert rfl key, cuts := fun key => ?_ }
      dsimp only
      rw [h.cuts]
      by_cases hkey : key = (identity.text, branch.text)
      · rw [hkey, hnone, AList.lookup_insert]
        rfl
      · rw [AList.lookup_insert_ne hkey]
    · refine { h with inv := hinv, clock := hclock, heads := fun key => ?_ }
      dsimp only
      by_cases hkey : key = (identity.text, branch.text)
      · rw [hkey, Function.update_self, hrow, Option.map_some, Option.map_some, hhead]
      · rw [Function.update_of_ne hkey, h.heads]

theorem Simulates.setControlCut (h : Simulates uuid4 s) (hclock : 0 ≤ now) (identity branch : Name) (control topology : Hex 40) :
    (s.event uuid4 (.setControlCut identity branch control topology) now).reference =
        (s.event uuid4 (.setControlCut identity branch control topology) now).durable ∧
      Simulates uuid4 (s.after uuid4 (.setControlCut identity branch control topology) now) := by
  refine h.lockstep hclock ?_ ?_
  · simp only [Operation.call, Operation.body, Journal.Call.method, run_map_ok, Journal.setControlCut_iff,
      Projection.projectionSetControlCutV1_iff, ne_eq, h.lane_eq_none]
    constructor
    · rintro ⟨_, _, _, ⟨hsome, -⟩, -⟩
      obtain ⟨row, hrow⟩ := Option.ne_none_iff_exists'.mp hsome
      exact ⟨_, _, _, ⟨row, hrow, rfl, rfl⟩, rfl⟩
    · rintro ⟨_, _, _, ⟨row, hrow, -⟩, -⟩
      exact ⟨_, _, ⟨⟩, ⟨Option.ne_none_iff_exists'.mpr ⟨row, hrow⟩, rfl⟩, rfl⟩
  · intro outcome journal answer db hmethod hbody hinv
    obtain ⟨_, hreference, rfl⟩ := run_map_ok.mp hmethod
    obtain ⟨_, hdurable, rfl⟩ := run_map_ok.mp hbody
    obtain ⟨hseeded, rfl⟩ := Journal.setControlCut_iff.mp hreference
    obtain ⟨row, hrow, rfl, rfl⟩ := Projection.projectionSetControlCutV1_iff.mp hdurable
    rw [append_ticketsOf_returned]
    refine { h with inv := hinv, clock := hclock, heads := fun key => ?_, cuts := fun key => ?_ }
    · dsimp only
      rw [h.heads]
      by_cases hkey : key = (identity.text, branch.text)
      · rw [hkey, hrow, AList.lookup_insert]
        rfl
      · rw [AList.lookup_insert_ne hkey]
    · dsimp only
      by_cases hkey : key = (identity.text, branch.text)
      · rw [hkey, Function.update_self, AList.lookup_insert]
        rfl
      · rw [Function.update_of_ne hkey, AList.lookup_insert_ne hkey, h.cuts]

/-! ### Claiming -/

/-- A row is that of a ticket's batch. -/
theorem Simulates.ticket_of_row (h : Simulates uuid4 s) {id : Uuid} {batch : BatchRow}
    (hbatch : s.durable.batches.lookup id = some batch) :
    ∃ ticket ∈ s.tickets, ∃ record, ticket.batchId = id ∧ s.reference.batches ticket.claim.batchId = some record ∧
      SameBatch s.reference.activeBatchByLane s.durable.batchFiles ticket record batch := by
  obtain ⟨ticket, hticket, rfl⟩ := h.stored id batch hbatch
  obtain ⟨record, batch', hrecord, hbatch', hsame⟩ := h.batches ticket hticket
  obtain rfl := Option.some.inj (hbatch.symm.trans hbatch')
  exact ⟨ticket, hticket, record, rfl, hrecord, hsame⟩

theorem Simulates.oneClaim (h : Simulates uuid4 s) : Projection.OneClaim s.durable := by
  intro id id' batch batch' hbatch hbatch' hclaimed hclaimed' hkey
  obtain ⟨ticket, hticket, record, rfl, -, hsame⟩ := h.ticket_of_row hbatch
  obtain ⟨ticket', hticket', record', rfl, -, hsame'⟩ := h.ticket_of_row hbatch'
  have hactive := hsame.claimed.mp hclaimed
  have hactive' := hsame'.claimed.mp hclaimed'
  rw [← hsame.key, hkey, hsame'.key] at hactive
  rw [h.paired ticket hticket ticket' hticket' (.inl (Option.some.inj (hactive.symm.trans hactive')))]

/-- A lane is free in the one journal exactly when it is in the other. -/
theorem Simulates.free_iff (h : Simulates uuid4 s) {key : LaneKey} :
    (∀ id, s.reference.activeBatchByLane key = some id →
      ∃ record, s.reference.batches id = some record ∧ (record.complete = true ∨ record.claim.leaseExpiresMs ≤ now)) ↔
    ∀ id batch, s.durable.claimedBatch key = some (id, batch) → batch.claimExpiresAt ≤ ((1000 * now : ℤ) : Timestamptz) := by
  constructor
  · intro hfree id batch hfound
    obtain ⟨hbatch, hkey, hclaimed⟩ := Projection.claimedBatch_eq_some hfound
    obtain ⟨ticket, hticket, record, rfl, hrecord, hsame⟩ := h.ticket_of_row hbatch
    have hactive := hsame.claimed.mp hclaimed
    rw [← hsame.key, hkey] at hactive
    obtain ⟨record', hrecord', hended⟩ := hfree _ hactive
    obtain rfl := Option.some.inj (hrecord.symm.trans hrecord')
    obtain ⟨record', hrecord', -, hincomplete⟩ := h.inv.active key _ hactive
    obtain rfl := Option.some.inj (hrecord.symm.trans hrecord')
    rw [hincomplete, hsame.claim] at hended
    rw [hsame.expires, timestamptz_le]
    have := hended.resolve_left Bool.false_ne_true
    omega
  · intro hfree id hactive
    obtain ⟨record, hrecord, hkey, hincomplete⟩ := h.inv.active key id hactive
    obtain ⟨ticket, hticket, rfl⟩ := h.recorded id record hrecord
    obtain ⟨record', batch, hrecord', hbatch, hsame⟩ := h.batches ticket hticket
    obtain rfl := Option.some.inj (hrecord.symm.trans hrecord')
    rw [hsame.claim] at hkey
    have hclaimed := hsame.claimed.mpr (hkey ▸ hactive)
    have hexpired := hfree _ _ ((Projection.claimedBatch_iff h.oneClaim).mpr ⟨hbatch, hsame.key.trans hkey, hclaimed⟩)
    rw [hsame.expires, timestamptz_le] at hexpired
    refine ⟨record, hrecord, .inr ?_⟩
    rw [hsame.claim]
    omega

theorem cutOf_eq_some {row : LaneRow} {control topology : Hex 40} :
    cutOf row = some (control.text, topology.text) ↔ row.controlSha = some control ∧ row.topologySha = some topology := by
  rw [cutOf, Option.bind_eq_some_iff]
  simp only [Option.map_eq_some_iff, Prod.mk.injEq]
  constructor
  · rintro ⟨control', hcontrol, topology', htopology, htext, htext'⟩
    rw [hcontrol, htopology, hex_text_injective htext, hex_text_injective htext']
    exact ⟨rfl, rfl⟩
  · rintro ⟨hcontrol, htopology⟩
    exact ⟨control, hcontrol, topology, htopology, rfl, rfl⟩

/-- A lane's base and cut are checked in the one journal as in the other. -/
theorem Simulates.base_iff (h : Simulates uuid4 s) {key : LaneKey} {expected : Option (Hex 40)} {control topology : Hex 40} :
    ((∃ lane, s.reference.lanes key = some lane ∧ lane.projectedHeadSha = expected.map Hex.text) ∧
      s.reference.controlCuts key = some (control.text, topology.text)) ↔
    ∃ lane, s.durable.laneState.lookup key = some lane ∧ lane.projectedHeadSha = expected ∧
      lane.controlSha = some control ∧ lane.topologySha = some topology := by
  rw [h.head_iff, h.cuts]
  constructor
  · rintro ⟨⟨row, hrow, hhead⟩, hcut⟩
    rw [hrow, Option.bind_some, cutOf_eq_some] at hcut
    exact ⟨row, hrow, hhead, hcut⟩
  · rintro ⟨row, hrow, hhead, hcut⟩
    rw [hrow, Option.bind_some, cutOf_eq_some]
    exact ⟨⟨row, rfl, hhead⟩, hcut⟩

theorem Simulates.claimable_iff (h : Simulates uuid4 s) {request : WellFormed} :
    Journal.Claimable s.reference request now ↔ Projection.Claimable s.durable request (1000 * now) := by
  constructor
  · rintro ⟨hlane, hcut, hfree⟩
    exact ⟨h.base_iff.mp ⟨hlane, hcut⟩, h.free_iff.mp hfree⟩
  · rintro ⟨hlane, hfree⟩
    obtain ⟨hlane, hcut⟩ := h.base_iff.mpr hlane
    exact ⟨hlane, hcut, h.free_iff.mpr hfree⟩

/-- The files of a batch just claimed. -/
theorem lookup_pending (paths : List String) (path : String) :
    (paths.map fun path => (path, BatchFileState.pending)).lookup path = if path ∈ paths then some .pending else none := by
  induction paths with
  | nil => rfl
  | cons first paths ih =>
    rw [List.map_cons, List.lookup_cons, ih]
    by_cases hpath : path = first
    · simp [hpath]
    · simp [hpath, beq_eq_false_iff_ne.mpr hpath]

section WithClaim

variable {request : WellFormed} {batchId claimToken : Uuid} {claim : BatchClaim} {ticket : Ticket} {record : BatchRecord}
  {batch : BatchRow}

/-- A batch once another is claimed: on the same lane, it is open no longer. -/
theorem SameBatch.withClaim (hkey : claim.key = request.key) (hne : ticket.claim.batchId ≠ claim.batchId)
    (hneId : ticket.batchId ≠ batchId) {paths : List String}
    (hsame : SameBatch s.reference.activeBatchByLane s.durable.batchFiles ticket record batch) :
    SameBatch (Function.update s.reference.activeBatchByLane claim.key (some claim.batchId))
      (Projection.addFiles (1000 * now) batchId paths s.durable.batchFiles) ticket record
      (if batch.key = request.key ∧ batch.status = .claimed then batch.stale (1000 * now) else batch) := by
  have hstates : ∀ path, record.files.lookup path =
      ((Projection.addFiles (1000 * now) batchId paths s.durable.batchFiles).lookup (ticket.batchId, path)).map
        fun file => referenceState file.state := by
    intro path
    rw [Projection.lookup_addFiles, if_neg fun h => hneId h.1, hsame.states]
  have htaken : ticket.claim.key = claim.key →
      Function.update s.reference.activeBatchByLane claim.key (some claim.batchId) ticket.claim.key ≠ some ticket.claim.batchId := by
    intro hsameKey
    rw [hsameKey, Function.update_self]
    exact fun heq => hne (Option.some.inj heq).symm
  split_ifs with hopen
  · obtain ⟨hbatchKey, hclaimed⟩ := hopen
    have hincomplete : record.complete ≠ true := by
      intro hcomplete
      have hstatus := hsame.complete.mpr hcomplete
      rw [hclaimed] at hstatus
      cases hstatus
    have hlane : ticket.claim.key = claim.key := by rw [← hsame.key, hbatchKey, hkey]
    exact ⟨hsame.claim, hsame.key, hsame.token, hsame.expected, hsame.target, hsame.control, hsame.topology, hsame.expires,
      ⟨nofun, fun hcomplete => absurd hcomplete hincomplete⟩, hsame.distinct, ⟨nofun, fun hactive => absurd hactive (htaken hlane)⟩, hstates⟩
  · refine ⟨hsame.claim, hsame.key, hsame.token, hsame.expected, hsame.target, hsame.control, hsame.topology, hsame.expires,
      hsame.complete, hsame.distinct, ?_, hstates⟩
    by_cases hlane : ticket.claim.key = claim.key
    · refine ⟨fun hclaimed => absurd ⟨?_, hclaimed⟩ hopen, fun hactive => absurd hactive (htaken hlane)⟩
      rw [hsame.key, hlane, hkey]
    · rw [Function.update_of_ne hlane]
      exact hsame.claimed

/-- The batch of a claim just made. -/
theorem sameBatch_claimed (draws : ℕ) (files : Table (Uuid × String) FileRow) (active : LaneKey → Option String)
    (hnone : ∀ path, files.lookup (batchId, path) = none) :
    SameBatch (Function.update active request.key (some (uuid4.hex draws)))
      (Projection.addFiles (1000 * now) batchId (request.files.map Name.text) files)
      ⟨Journal.claimOf uuid4 (request.request now) draws, batchId, claimToken⟩
      (Journal.freshRecord (Journal.claimOf uuid4 (request.request now) draws) (request.files.map Name.text))
      (Projection.rowOf (1000 * now) request claimToken) := by
  refine ⟨rfl, rfl, rfl, rfl, rfl, rfl, rfl, ?_, ⟨nofun, nofun⟩, ?_, ⟨fun _ => Function.update_self .., fun _ => rfl⟩, ?_⟩
  · change (((1000 * now + 1000000 * request.leaseSeconds : ℤ)) : Timestamptz) = ((1000 * (now + 1000 * request.leaseSeconds) : ℤ))
    rw [Int.mul_add, ← Int.mul_assoc]
    rfl
  · change (((request.files.map Name.text).map fun path => (path, BatchFileState.pending)).map Prod.fst).Nodup
    rw [List.map_map, Function.comp_def, List.map_id']
    exact request.distinct
  · intro path
    rw [Projection.lookup_addFiles, hnone, Journal.freshRecord, lookup_pending]
    by_cases hpath : path ∈ request.files.map Name.text
    · rw [if_pos hpath, if_pos ⟨rfl, hpath⟩]
      rfl
    · rw [if_neg hpath, if_neg fun h => hpath h.2]
      rfl

end WithClaim

theorem Simulates.no_file (h : Simulates uuid4 s) {batchId : Uuid} (hnew : s.durable.batches.lookup batchId = none)
    (path : String) : s.durable.batchFiles.lookup (batchId, path) = none := by
  rw [Option.eq_none_iff_forall_ne_some]
  intro file hfile
  obtain ⟨batch, hbatch⟩ := h.owned batchId path file hfile
  rw [hnew] at hbatch
  cases hbatch

/-- The tables and the journal after a batch is claimed. -/
theorem Simulates.withClaim (h : Simulates uuid4 s) (hclock : 0 ≤ now) {request : WellFormed} {batchId claimToken : Uuid}
    (hnew : s.durable.batches.lookup batchId = none)
    (hinv : Journal.Inv uuid4 (s.reference.withClaim (Journal.claimOf uuid4 (request.request now) s.reference.uuids)
      (request.files.map Name.text))) :
    Simulates uuid4
      ⟨s.reference.withClaim (Journal.claimOf uuid4 (request.request now) s.reference.uuids) (request.files.map Name.text),
        s.durable.withClaim (1000 * now) request batchId claimToken,
        s.tickets ++ [⟨Journal.claimOf uuid4 (request.request now) s.reference.uuids, batchId, claimToken⟩], now⟩ := by
  obtain ⟨hlanes, hbatchFiles, -⟩ := Projection.withSuperseded_rest s.durable (1000 * now) request.key
  have hdurable : s.durable.withClaim (1000 * now) request batchId claimToken =
      { s.durable.withSuperseded (1000 * now) request.key with
        batches := (s.durable.withSuperseded (1000 * now) request.key).batches.insert batchId
          (Projection.rowOf (1000 * now) request claimToken)
        batchFiles := Projection.addFiles (1000 * now) batchId (request.files.map Name.text) s.durable.batchFiles } := by
    rw [Database.withClaim, hbatchFiles]
  have hold : ∀ ticket ∈ s.tickets, ticket.claim.batchId ≠ uuid4.hex s.reference.uuids ∧ ticket.batchId ≠ batchId := by
    intro ticket hticket
    obtain ⟨record, batch, hrecord, hbatch, -⟩ := h.batches ticket hticket
    refine ⟨h.inv.ne_fresh hrecord, ?_⟩
    rintro rfl
    rw [hnew] at hbatch
    cases hbatch
  rw [hdurable]
  refine ⟨hinv, hclock, fun key => ?_, fun key => ?_, ?_, ?_, ?_, ?_, ?_⟩
  · dsimp only
    rw [hlanes]
    exact h.heads key
  · dsimp only
    rw [hlanes]
    exact h.cuts key
  · intro ticket hticket
    obtain hticket | hticket := List.mem_append.mp hticket
    · obtain ⟨record, batch, hrecord, hbatch, hsame⟩ := h.batches ticket hticket
      obtain ⟨hne, hneId⟩ := hold ticket hticket
      have hkey : (Journal.claimOf uuid4 (request.request now) s.reference.uuids).key = request.key := rfl
      refine ⟨record, _, ?_, ?_, hsame.withClaim hkey hne hneId⟩
      · exact (Function.update_of_ne hne ..).trans hrecord
      · exact (AList.lookup_insert_ne hneId).trans (Projection.lookup_withSuperseded_of_some h.oneClaim hbatch)
    · obtain rfl := List.mem_singleton.mp hticket
      exact ⟨_, _, Function.update_self .., AList.lookup_insert _, sameBatch_claimed s.reference.uuids _ _ (h.no_file hnew)⟩
  · intro id record hrecord
    obtain ⟨rfl, -⟩ | ⟨-, hrecord⟩ := Journal.withClaim_batches hrecord
    · exact ⟨_, List.mem_append_right _ (List.mem_singleton.mpr rfl), rfl⟩
    · obtain ⟨ticket, hticket, heq⟩ := h.recorded id record hrecord
      exact ⟨ticket, List.mem_append_left _ hticket, heq⟩
  · intro id batch hbatch
    obtain ⟨rfl, -⟩ | ⟨-, hbatch⟩ := Table.lookup_insert_eq_some.mp hbatch
    · exact ⟨_, List.mem_append_right _ (List.mem_singleton.mpr rfl), rfl⟩
    · obtain ⟨before, hbefore, -⟩ := Projection.lookup_withSuperseded hbatch
      obtain ⟨ticket, hticket, heq⟩ := h.stored id before hbefore
      exact ⟨ticket, List.mem_append_left _ hticket, heq⟩
  · intro ticket hticket ticket' hticket' heq
    obtain hticket | hticket := List.mem_append.mp hticket
    · obtain hticket' | hticket' := List.mem_append.mp hticket'
      · exact h.paired ticket hticket ticket' hticket' heq
      · obtain rfl := List.mem_singleton.mp hticket'
        obtain ⟨hne, hneId⟩ := hold ticket hticket
        exact (heq.elim hne hneId).elim
    · obtain rfl := List.mem_singleton.mp hticket
      obtain hticket' | hticket' := List.mem_append.mp hticket'
      · obtain ⟨hne, hneId⟩ := hold ticket' hticket'
        exact (heq.elim (fun heq => hne heq.symm) fun heq => hneId heq.symm).elim
      · exact (List.mem_singleton.mp hticket').symm
  · intro id path file hfile
    by_cases hid : id = batchId
    · subst hid
      exact ⟨_, AList.lookup_insert _⟩
    · have hfile' := hfile
      dsimp only at hfile'
      rw [Projection.lookup_addFiles, if_neg fun h => hid h.1] at hfile'
      obtain ⟨batch, hbatch⟩ := h.owned id path file hfile'
      exact ⟨_, (AList.lookup_insert_ne hid).trans (Projection.lookup_withSuperseded_of_some h.oneClaim hbatch)⟩

theorem Simulates.claim (h : Simulates uuid4 s) (hclock : 0 ≤ now) (request : WellFormed) {batchId : Uuid} (claimToken : Uuid)
    (hnew : s.durable.batches.lookup batchId = none) :
    (s.event uuid4 (.claim request batchId claimToken) now).reference =
        (s.event uuid4 (.claim request batchId claimToken) now).durable ∧
      Simulates uuid4 (s.after uuid4 (.claim request batchId claimToken) now) := by
  refine h.lockstep hclock ?_ ?_
  · simp only [Operation.call, Operation.body, Journal.Call.method, run_map_ok, Journal.claimBatch_iff hclock,
      Projection.projectionClaimBatchV1_iff h.oneClaim hnew (h.no_file hnew), h.claimable_iff]
    constructor
    · rintro ⟨_, _, _, ⟨hclaimable, -⟩, -⟩
      exact ⟨_, _, _, ⟨hclaimable, rfl, rfl⟩, rfl⟩
    · rintro ⟨_, _, _, ⟨hclaimable, -⟩, -⟩
      exact ⟨_, _, _, ⟨hclaimable, rfl, rfl⟩, rfl⟩
  · intro outcome journal answer db hmethod hbody hinv
    obtain ⟨_, hreference, rfl⟩ := run_map_ok.mp hmethod
    obtain ⟨_, hdurable, rfl⟩ := run_map_ok.mp hbody
    obtain ⟨-, rfl, rfl⟩ := (Journal.claimBatch_iff hclock).mp hreference
    obtain ⟨-, rfl, rfl⟩ := (Projection.projectionClaimBatchV1_iff h.oneClaim hnew (h.no_file hnew)).mp hdurable
    exact h.withClaim hclock hnew hinv

/-! ### Recording a result -/

theorem lookup_setFile (files : List (String × BatchFileState)) (path : String) (state : BatchFileState) (path' : String) :
    (Journal.setFile files path state).lookup path' =
      if path' = path then (files.lookup path).map fun _ => state else files.lookup path' := by
  induction files with
  | nil => simp [Journal.setFile]
  | cons file files ih =>
    obtain ⟨first, before⟩ := file
    rw [Journal.setFile] at ih ⊢
    rw [List.map_cons]
    by_cases hfirst : first = path
    · subst hfirst
      rw [if_pos rfl, List.lookup_cons, List.lookup_cons, List.lookup_cons, ih]
      by_cases hpath : path' = first
      · simp [hpath]
      · simp [hpath, beq_eq_false_iff_ne.mpr hpath]
    · rw [if_neg hfirst, List.lookup_cons, List.lookup_cons, List.lookup_cons, ih]
      by_cases hpath : path' = path
      · subst hpath
        simp [beq_eq_false_iff_ne.mpr (Ne.symm hfirst)]
      · simp [hpath]

theorem setFile_keys (files : List (String × BatchFileState)) (path : String) (state : BatchFileState) :
    (Journal.setFile files path state).map Prod.fst = files.map Prod.fst := by
  rw [Journal.setFile, List.map_map]
  refine List.map_congr_left fun file _ => ?_
  rw [Function.comp_apply]
  split_ifs with h
  · exact h.symm
  · rfl

/-- What is known of a batch when an operation is admitted under its ticket. -/
theorem Simulates.admitted (h : Simulates uuid4 s) {ticket : Ticket} (hticket : ticket ∈ s.tickets)
    (hincomplete : ¬ Journal.Complete s.reference ticket.claim.batchId) :
    ∃ record batch, s.reference.batches ticket.claim.batchId = some record ∧ record.complete = false ∧
      s.durable.batches.lookup ticket.batchId = some batch ∧
      SameBatch s.reference.activeBatchByLane s.durable.batchFiles ticket record batch := by
  obtain ⟨record, batch, hrecord, hbatch, hsame⟩ := h.batches ticket hticket
  refine ⟨record, batch, hrecord, ?_, hbatch, hsame⟩
  rw [← Bool.not_eq_true]
  exact fun hcomplete => hincomplete ⟨record, hrecord, hcomplete⟩

/-- A result may be recorded in the one journal exactly when it may in the other. -/
theorem SameBatch.recordable_iff {ticket : Ticket} {record : BatchRecord} {batch : BatchRow} {path : String}
    {state : BatchFileState} (hsame : SameBatch s.reference.activeBatchByLane s.durable.batchFiles ticket record batch)
    (hbatch : s.durable.batches.lookup ticket.batchId = some batch) (hlease : now < ticket.claim.leaseExpiresMs) :
    (state ≠ .pending ∧ s.reference.activeBatchByLane ticket.claim.key = some ticket.claim.batchId ∧
      ∃ existing, record.files.lookup path = some existing ∧ (existing = .pending ∨ existing = state)) ↔
    ∃ row, Projection.resultState (stateText state) = some row ∧
      Projection.Recordable s.durable (1000 * now) ticket.batchId ticket.claimToken path row := by
  have hunexpired : ((1000 * now : ℤ) : Timestamptz) < batch.claimExpiresAt := by
    rw [hsame.expires, timestamptz_lt]
    omega
  rw [hsame.states]
  constructor
  · rintro ⟨hstate, hactive, existing, hexisting, hresult⟩
    obtain ⟨file, hfile, rfl⟩ := Option.map_eq_some_iff.mp hexisting
    obtain ⟨row, rfl⟩ := exists_referenceState state
    rw [referenceState_eq_pending, referenceState_inj] at hresult
    exact ⟨row, resultState_stateText.mpr ⟨hstate, rfl⟩, ⟨batch, hbatch, hsame.token, hsame.claimed.mpr hactive, hunexpired⟩,
      file, hfile, hresult⟩
  · rintro ⟨row, hrow, ⟨⟨batch', hbatch', -, hclaimed, -⟩, file, hfile, hresult⟩⟩
    obtain rfl := Option.some.inj (hbatch.symm.trans hbatch')
    obtain ⟨hstate, rfl⟩ := resultState_stateText.mp hrow
    refine ⟨hstate, hsame.claimed.mp hclaimed, referenceState file.state, by rw [hfile, Option.map_some], ?_⟩
    rwa [referenceState_eq_pending, referenceState_inj]

/-- A batch's files once a result is recorded. -/
theorem SameBatch.recorded {ticket : Ticket} {record : BatchRecord} {batch : BatchRow} {path : String} {file row : FileRow}
    (hsame : SameBatch s.reference.activeBatchByLane s.durable.batchFiles ticket record batch)
    (hfile : s.durable.batchFiles.lookup (ticket.batchId, path) = some file) :
    SameBatch s.reference.activeBatchByLane (s.durable.batchFiles.insert (ticket.batchId, path) row) ticket
      { record with files := Journal.setFile record.files path (referenceState row.state) } batch := by
  refine { hsame with distinct := ?_, states := fun path' => ?_ }
  · rw [setFile_keys]
    exact hsame.distinct
  · rw [lookup_setFile]
    by_cases hpath : path' = path
    · rw [if_pos hpath, hpath, AList.lookup_insert, hsame.states, hfile]
      rfl
    · rw [if_neg hpath, AList.lookup_insert_ne (by simpa using hpath), hsame.states]

/-- A batch's files once a result is recorded for another. -/
theorem SameBatch.frame {ticket : Ticket} {record : BatchRecord} {batch : BatchRow} {id : Uuid} {path : String} {row : FileRow}
    (hsame : SameBatch s.reference.activeBatchByLane s.durable.batchFiles ticket record batch) (hne : ticket.batchId ≠ id) :
    SameBatch s.reference.activeBatchByLane (s.durable.batchFiles.insert (id, path) row) ticket record batch := by
  refine { hsame with states := fun path' => ?_ }
  rw [AList.lookup_insert_ne fun heq => hne (Prod.mk.inj heq).1, hsame.states]

theorem Simulates.record (h : Simulates uuid4 s) (hclock : 0 ≤ now) {ticket : Ticket} (path : String) (state : BatchFileState)
    (resultRef : Option String) (hticket : ticket ∈ s.tickets) (hlease : now < ticket.claim.leaseExpiresMs)
    (hincomplete : ¬ Journal.Complete s.reference ticket.claim.batchId) :
    (s.event uuid4 (.record ticket path state resultRef) now).reference =
        (s.event uuid4 (.record ticket path state resultRef) now).durable ∧
      Simulates uuid4 (s.after uuid4 (.record ticket path state resultRef) now) := by
  obtain ⟨record, batch, hrecord, hopen, hbatch, hsame⟩ := h.admitted hticket hincomplete
  refine h.lockstep hclock ?_ ?_
  · simp only [Operation.call, Operation.body, Journal.Call.method, run_map_ok, Journal.recordFileResult_ok,
      Projection.projectionRecordFileResultV1_iff]
    constructor
    · rintro ⟨_, _, _, ⟨hstate, record', hrecord', -, -, hactive, hfile, -⟩, -⟩
      obtain rfl := Option.some.inj (hrecord.symm.trans hrecord')
      obtain ⟨row, hrow, hrecordable⟩ := (hsame.recordable_iff hbatch hlease).mp ⟨hstate, hactive, hfile⟩
      exact ⟨_, _, _, ⟨row, hrow, hrecordable, rfl, rfl⟩, rfl⟩
    · rintro ⟨_, _, _, ⟨row, hrow, hrecordable, -⟩, -⟩
      obtain ⟨hstate, hactive, hfile⟩ := (hsame.recordable_iff hbatch hlease).mpr ⟨row, hrow, hrecordable⟩
      exact ⟨_, _, ⟨⟩, ⟨hstate, record, hrecord, by rw [hsame.claim], hopen, hactive, hfile, rfl⟩, rfl⟩
  · intro outcome journal answer db hmethod hbody hinv
    obtain ⟨_, hreference, rfl⟩ := run_map_ok.mp hmethod
    obtain ⟨_, hdurable, rfl⟩ := run_map_ok.mp hbody
    obtain ⟨-, record', hrecord', -, -, -, -, rfl⟩ := Journal.recordFileResult_ok.mp hreference
    obtain rfl := Option.some.inj (hrecord.symm.trans hrecord')
    obtain ⟨row, hrow, hrecordable, rfl, rfl⟩ := Projection.projectionRecordFileResultV1_iff.mp hdurable
    obtain ⟨-, rfl⟩ := resultState_stateText.mp hrow
    obtain ⟨file, hfile, -⟩ := hrecordable.file
    rw [append_ticketsOf_returned]
    refine { h with inv := hinv, clock := hclock, batches := ?_, recorded := ?_, owned := ?_ }
    · intro ticket' hticket'
      by_cases hne : ticket'.claim.batchId = ticket.claim.batchId
      · obtain rfl := h.paired ticket' hticket' ticket hticket (.inl hne)
        exact ⟨_, batch, Function.update_self .., hbatch, hsame.recorded hfile⟩
      · obtain ⟨record', batch', hrecord', hbatch', hsame'⟩ := h.batches ticket' hticket'
        have hneId : ticket'.batchId ≠ ticket.batchId := fun heq => hne (by rw [h.paired ticket' hticket' ticket hticket (.inr heq)])
        exact ⟨record', batch', (Function.update_of_ne hne ..).trans hrecord', hbatch', hsame'.frame hneId⟩
    · intro id record' hrecord'
      obtain ⟨rfl, -⟩ | ⟨-, hrecord'⟩ := Journal.update_batches hrecord'
      · exact ⟨ticket, hticket, rfl⟩
      · exact h.recorded id record' hrecord'
    · intro id path' file' hfile'
      obtain ⟨heq, -⟩ | ⟨-, hfile'⟩ := Table.lookup_insert_eq_some.mp hfile'
      · obtain ⟨rfl, -⟩ := Prod.mk.inj heq
        exact ⟨batch, hbatch⟩
      · exact h.owned id path' file' hfile'

/-! ### Finalizing -/

theorem mem_iff_lookup {files : List (String × BatchFileState)} (hdistinct : (files.map Prod.fst).Nodup) {path : String}
    {state : BatchFileState} : (path, state) ∈ files ↔ files.lookup path = some state := by
  induction files with
  | nil => simp
  | cons file files ih =>
    obtain ⟨first, before⟩ := file
    rw [List.map_cons, List.nodup_cons] at hdistinct
    rw [List.mem_cons, ih hdistinct.2, List.lookup_cons, Prod.mk.injEq]
    by_cases hpath : path = first
    · subst hpath
      have hnone : files.lookup path ≠ some state := by
        rw [ne_eq, ← ih hdistinct.2]
        exact fun hmem => hdistinct.1 (List.mem_map.mpr ⟨(path, state), hmem, rfl⟩)
      simp [hnone, eq_comm]
    · simp [hpath, beq_eq_false_iff_ne.mpr hpath]

theorem mem_terminalSuccess {file : FileState} : referenceState file ∈ Journal.terminalSuccess ↔ file.Terminal := by
  cases file <;> decide

/-- The files of a batch are resolved in the one journal exactly when they are in the other. -/
theorem SameBatch.resolved_iff {active : LaneKey → Option String} {files : Table (Uuid × String) FileRow} {ticket : Ticket}
    {record : BatchRecord} {batch : BatchRow} (hsame : SameBatch active files ticket record batch) :
    Journal.resolved record.files = true ↔
      ∀ path file, files.lookup (ticket.batchId, path) = some file → file.state.Terminal := by
  simp only [Journal.resolved, List.all_eq_true, decide_eq_true_eq]
  constructor
  · intro h path file hfile
    rw [← mem_terminalSuccess]
    refine h (path, referenceState file.state) ?_
    rw [mem_iff_lookup hsame.distinct, hsame.states, hfile, Option.map_some]
  · rintro h ⟨path, state⟩ hmem
    rw [mem_iff_lookup hsame.distinct, hsame.states, Option.map_eq_some_iff] at hmem
    obtain ⟨file, hfile, rfl⟩ := hmem
    exact mem_terminalSuccess.mpr (h path file hfile)

/-- What the reference journal checks before it finalizes a batch. -/
structure Finalizes (s : Journals Other) (ticket : Ticket) (record : BatchRecord) : Prop where
  active : s.reference.activeBatchByLane ticket.claim.key = some ticket.claim.batchId
  cut : s.reference.controlCuts ticket.claim.key = some (ticket.claim.controlSha, ticket.claim.topologySha)
  base : ∃ lane, s.reference.lanes ticket.claim.key = some lane ∧ lane.projectedHeadSha = ticket.claim.expectedProjectedHead
  files : Journal.resolved record.files = true

theorem Simulates.finalizes_iff (h : Simulates uuid4 s) {ticket : Ticket} {record : BatchRecord} {batch : BatchRow}
    (hsame : SameBatch s.reference.activeBatchByLane s.durable.batchFiles ticket record batch)
    (hlease : now < ticket.claim.leaseExpiresMs) :
    Finalizes s ticket record ↔ ∃ lane, s.durable.laneState.lookup batch.key = some lane ∧
      Projection.Finalizable s.durable (1000 * now) ticket.batchId batch lane := by
  have hunexpired : ((1000 * now : ℤ) : Timestamptz) < batch.claimExpiresAt := by
    rw [hsame.expires, timestamptz_lt]
    omega
  constructor
  · rintro ⟨hactive, hcut, hbase, hfiles⟩
    rw [hsame.control, hsame.topology] at hcut
    rw [hsame.expected] at hbase
    obtain ⟨lane, hlane, hhead, hcontrol, htopology⟩ := h.base_iff.mp ⟨hbase, hcut⟩
    rw [← hsame.key] at hlane
    exact ⟨lane, hlane, hsame.claimed.mpr hactive, hunexpired, hhead, hcontrol, htopology, hsame.resolved_iff.mp hfiles⟩
  · rintro ⟨lane, hlane, hfinalizable⟩
    rw [hsame.key] at hlane
    obtain ⟨hbase, hcut⟩ :=
      h.base_iff.mpr ⟨lane, hlane, hfinalizable.base, hfinalizable.control, hfinalizable.topology⟩
    rw [← hsame.expected] at hbase
    rw [← hsame.control, ← hsame.topology] at hcut
    exact ⟨hsame.claimed.mp hfinalizable.claimed, hcut, hbase, hsame.resolved_iff.mpr hfinalizable.resolved⟩

/-- The tables and the journal after a batch is finalized. -/
theorem Simulates.withFinalized (h : Simulates uuid4 s) (hclock : 0 ≤ now) {ticket : Ticket} {record : BatchRecord}
    {batch : BatchRow} {lane : LaneRow} (hticket : ticket ∈ s.tickets)
    (hbatch : s.durable.batches.lookup ticket.batchId = some batch)
    (hsame : SameBatch s.reference.activeBatchByLane s.durable.batchFiles ticket record batch)
    (hlane : s.durable.laneState.lookup batch.key = some lane)
    (hactive : s.reference.activeBatchByLane ticket.claim.key = some ticket.claim.batchId)
    (hinv : Journal.Inv uuid4 (s.reference.withFinalized ticket.claim record)) :
    Simulates uuid4 ⟨s.reference.withFinalized ticket.claim record,
      s.durable.withFinalized (1000 * now) ticket.batchId batch lane, s.tickets, now⟩ := by
  have hlookup : ∀ id, (s.durable.withFinalized (1000 * now) ticket.batchId batch lane).batches.lookup id =
      if id = ticket.batchId then some (batch.completed (1000 * now)) else s.durable.batches.lookup id := by
    intro id
    rw [Database.withFinalized, Table.lookup_modify]
    split_ifs with hid
    · rw [hid, hbatch, Option.map_some]
    · rfl
  refine ⟨hinv, hclock, fun key => ?_, fun key => ?_, ?_, ?_, ?_, h.paired, ?_⟩
  · change (Function.update s.reference.lanes ticket.claim.key _ key).map _ = ((s.durable.laneState.insert batch.key _).lookup key).map _
    rw [← hsame.key]
    refine h.heads_insert ?_ key
    rw [BatchClaim.finalized, hsame.target]
    rfl
  · change s.reference.controlCuts key = ((s.durable.laneState.insert batch.key _).lookup key).bind _
    rw [h.cuts]
    by_cases hkey : key = batch.key
    · rw [hkey, hlane, AList.lookup_insert]
      rfl
    · rw [AList.lookup_insert_ne hkey]
  · intro ticket' hticket'
    by_cases hne : ticket'.claim.batchId = ticket.claim.batchId
    · obtain rfl := h.paired ticket' hticket' ticket hticket (.inl hne)
      refine ⟨_, batch.completed (1000 * now), Function.update_self .., by rw [hlookup, if_pos rfl], ?_⟩
      refine { hsame with complete := ⟨fun _ => rfl, fun _ => rfl⟩, claimed := ⟨(fun hactive => by cases hactive), fun hactive' => ?_⟩ }
      have hnone : (s.reference.withFinalized ticket'.claim record).activeBatchByLane ticket'.claim.key = none :=
        Function.update_self ..
      cases hnone.symm.trans hactive'
    · have hneId : ticket'.batchId ≠ ticket.batchId := fun heq => hne (by rw [h.paired ticket' hticket' ticket hticket (.inr heq)])
      obtain ⟨record', batch', hrecord', hbatch', hsame'⟩ := h.batches ticket' hticket'
      refine ⟨record', batch', (Function.update_of_ne hne ..).trans hrecord', by rw [hlookup, if_neg hneId, hbatch'], ?_⟩
      refine { hsame' with claimed := hsame'.claimed.trans ?_ }
      change _ ↔ Function.update s.reference.activeBatchByLane ticket.claim.key none ticket'.claim.key = _
      by_cases hkey : ticket'.claim.key = ticket.claim.key
      · rw [hkey, Function.update_self, hactive]
        refine ⟨fun heq => absurd (Option.some.inj heq).symm hne, fun heq => ?_⟩
        cases heq
      · rw [Function.update_of_ne hkey]
  · intro id record' hrecord'
    obtain ⟨rfl, -⟩ | ⟨-, hrecord'⟩ := Journal.update_batches hrecord'
    · exact ⟨ticket, hticket, rfl⟩
    · exact h.recorded id record' hrecord'
  · intro id batch' hbatch'
    rw [hlookup] at hbatch'
    split_ifs at hbatch' with hid
    · exact ⟨ticket, hticket, hid.symm⟩
    · exact h.stored id batch' hbatch'
  · intro id path file hfile
    obtain ⟨batch', hbatch'⟩ := h.owned id path file hfile
    rw [hlookup]
    split_ifs
    · exact ⟨_, rfl⟩
    · exact ⟨batch', hbatch'⟩

theorem Simulates.finalize (h : Simulates uuid4 s) (hclock : 0 ≤ now) {ticket : Ticket} (hticket : ticket ∈ s.tickets)
    (hlease : now < ticket.claim.leaseExpiresMs) (hincomplete : ¬ Journal.Complete s.reference ticket.claim.batchId) :
    (s.event uuid4 (.finalize ticket) now).reference = (s.event uuid4 (.finalize ticket) now).durable ∧
      Simulates uuid4 (s.after uuid4 (.finalize ticket) now) := by
  obtain ⟨record, batch, hrecord, hopen, hbatch, hsame⟩ := h.admitted hticket hincomplete
  have hreference : ∀ {state : Journal.ProjectionLaneState} {journal : ProjectionJournal},
      (Journal.finalizeBatch ticket.claim now).run s.reference = .ok state journal ↔
        Finalizes s ticket record ∧ state = ticket.claim.finalized ∧ journal = s.reference.withFinalized ticket.claim record := by
    intro state journal
    rw [Journal.finalizeBatch_ok]
    constructor
    · rintro ⟨-, record', hrecord', -, ⟨hcomplete, -⟩ | ⟨-, hactive, -, hcut, hbase, hfiles, hstate, hjournal⟩⟩
      · exact absurd ⟨record', hrecord', hcomplete⟩ hincomplete
      · obtain rfl := Option.some.inj (hrecord.symm.trans hrecord')
        exact ⟨⟨hactive, hcut, hbase, hfiles⟩, hstate, hjournal⟩
    · rintro ⟨⟨hactive, hcut, hbase, hfiles⟩, hstate, hjournal⟩
      exact ⟨hclock, record, hrecord, by rw [hsame.claim], .inr ⟨hopen, hactive, hlease, hcut, hbase, hfiles, hstate, hjournal⟩⟩
  have hdurable : ∀ {result : LaneKey × LaneRow} {db : Database Other},
      (Projection.projectionFinalizeBatchV1 (1000 * now) (some ticket.batchId) (some ticket.claimToken)).run s.durable =
          .ok result db ↔
        ∃ lane, s.durable.laneState.lookup batch.key = some lane ∧
          Projection.Finalizable s.durable (1000 * now) ticket.batchId batch lane ∧
          db = s.durable.withFinalized (1000 * now) ticket.batchId batch lane ∧
          result = (batch.key, lane.moved (1000 * now) batch.targetHeadSha) := by
    intro result db
    rw [Projection.projectionFinalizeBatchV1_ok]
    constructor
    · rintro ⟨id, batch', lane, ⟨hid, hbatch', hlane, -⟩, ⟨hcomplete, -⟩ | ⟨hfinalizable, hdb, hresult⟩⟩
      · obtain rfl := Option.some.inj hid
        obtain rfl := Option.some.inj (hbatch.symm.trans hbatch')
        rw [hsame.complete, hopen] at hcomplete
        cases hcomplete
      · obtain rfl := Option.some.inj hid
        obtain rfl := Option.some.inj (hbatch.symm.trans hbatch')
        exact ⟨lane, hlane, hfinalizable, hdb, hresult⟩
    · rintro ⟨lane, hlane, hfinalizable, hdb, hresult⟩
      exact ⟨_, batch, lane, ⟨rfl, hbatch, hlane, .inr (by rw [hsame.token])⟩, .inr ⟨hfinalizable, hdb, hresult⟩⟩
  refine h.lockstep hclock ?_ ?_
  · simp only [Operation.call, Operation.body, Journal.Call.method, run_map_ok, hreference, hdurable]
    constructor
    · rintro ⟨_, _, _, ⟨hfinalizes, -⟩, -⟩
      obtain ⟨lane, hlane, hfinalizable⟩ := (h.finalizes_iff hsame hlease).mp hfinalizes
      exact ⟨_, _, _, ⟨lane, hlane, hfinalizable, rfl, rfl⟩, rfl⟩
    · rintro ⟨_, _, _, ⟨lane, hlane, hfinalizable, -⟩, -⟩
      exact ⟨_, _, _, ⟨(h.finalizes_iff hsame hlease).mpr ⟨lane, hlane, hfinalizable⟩, rfl, rfl⟩, rfl⟩
  · intro outcome journal answer db hmethod hbody hinv
    obtain ⟨_, hfinalized, rfl⟩ := run_map_ok.mp hmethod
    obtain ⟨_, hanswered, rfl⟩ := run_map_ok.mp hbody
    obtain ⟨hfinalizes, rfl, rfl⟩ := hreference.mp hfinalized
    obtain ⟨lane, hlane, -, rfl, rfl⟩ := hdurable.mp hanswered
    rw [append_ticketsOf_finalized]
    exact h.withFinalized hclock hticket hbatch hsame hlane hfinalizes.active hinv

/-! ### Runs -/

theorem Simulates.step {s' : Journals Other} {event : Event} (h : Simulates uuid4 s) (hstep : Step uuid4 s event s') :
    event.reference = event.durable ∧ Simulates uuid4 s' := by
  obtain ⟨hclock, hadmits, hevent, rfl⟩ := hstep
  obtain ⟨operation, now, reference, durable⟩ := event
  have hnow : 0 ≤ now := h.clock.trans hclock
  dsimp only at hevent hadmits ⊢
  have hlockstep : (s.event uuid4 operation now).reference = (s.event uuid4 operation now).durable ∧
      Simulates uuid4 (s.after uuid4 operation now) := by
    cases operation with
    | seed identity branch head => exact h.seed hnow identity branch head
    | setControlCut identity branch control topology => exact h.setControlCut hnow identity branch control topology
    | claim request batchId claimToken => exact h.claim hnow request claimToken hadmits
    | record ticket path state resultRef => exact h.record hnow path state resultRef hadmits.1 hadmits.2.1 hadmits.2.2
    | finalize ticket => exact h.finalize hnow hadmits.1 hadmits.2.1 hadmits.2.2
  rw [← hevent] at hlockstep
  exact hlockstep

/-- Tables without a lane, a batch or a file. -/
structure Unused (db : Database Other) : Prop where
  lanes : ∀ key, db.laneState.lookup key = none
  batches : ∀ id, db.batches.lookup id = none
  files : ∀ key, db.batchFiles.lookup key = none

theorem Unused.simulates {db : Database Other} (h : Unused db) : Simulates uuid4 ⟨.empty, db, [], 0⟩ := by
  refine ⟨Journal.inv_empty uuid4, le_rfl, fun key => ?_, fun key => ?_, nofun, nofun, fun id batch hbatch => ?_, nofun,
    fun id path file hfile => ?_⟩
  · rw [h.lanes]
    rfl
  · rw [h.lanes]
    rfl
  · rw [h.batches] at hbatch
    cases hbatch
  · rw [h.files] at hfile
    cases hfile

theorem Simulates.run {s' : Journals Other} {events : List Event} (h : Simulates uuid4 s) (hrun : Run (Step uuid4) s events s') :
    (∀ event ∈ events, event.reference = event.durable) ∧ Simulates uuid4 s' := by
  induction hrun with
  | nil => exact ⟨fun event hmem => absurd hmem List.not_mem_nil, h⟩
  | snoc _ hstep ih =>
    obtain ⟨hevent, hsimulates⟩ := ih.2.step hstep
    refine ⟨fun event hmem => ?_, hsimulates⟩
    obtain hmem | hmem := List.mem_append.mp hmem
    · exact ih.1 event hmem
    · rwa [List.mem_singleton.mp hmem]

/-- **The reference journal and the durable journal accept and reject the same operations, and agree after any
run of them.** -/
theorem reference_refines {db : Database Other} (hunused : Unused db) {events : List Event} {s : Journals Other}
    (hrun : Run (Step uuid4) ⟨.empty, db, [], 0⟩ events s) :
    (∀ event ∈ events, event.reference = event.durable) ∧ Agree s := by
  obtain ⟨hevents, hsimulates⟩ := hunused.simulates.run hrun
  exact ⟨hevents, hsimulates.agree⟩

/-! ### A batch -/

def sampleSha : Hex 40 := ⟨String.ofList (List.replicate 40 'a'), by decide +kernel⟩

def sampleRequest : WellFormed where
  identity := ⟨"yin", by decide +kernel, by decide, by decide +kernel⟩
  branch := ⟨"bus/yin-v2", by decide +kernel, by decide, by decide +kernel⟩
  expected := none
  target := sampleSha
  control := sampleSha
  topology := sampleSha
  files := [⟨"messages/1.md", by decide +kernel, by decide, by decide +kernel⟩]
  distinct := by decide +kernel
  owner := ⟨"projector", by decide +kernel, by decide, by decide +kernel⟩
  leaseSeconds := 300
  positive := by decide
  isInteger := by decide

/-- The first ticket. -/
def sampleTicket : Ticket := ⟨Journal.claimOf .unary (sampleRequest.request 2) 0, 1, 2⟩

def sampleDatabase : Database Unit := ⟨∅, ∅, ∅, ∅, [], ()⟩

theorem sampleDatabase_unused : Unused sampleDatabase :=
  ⟨fun _ => AList.lookup_empty _, fun _ => AList.lookup_empty _, fun _ => AList.lookup_empty _⟩

def blankJournals : Journals Unit := ⟨.empty, sampleDatabase, [], 0⟩

def sampleSeed : Operation := .seed sampleRequest.identity sampleRequest.branch none

def sampleCut : Operation := .setControlCut sampleRequest.identity sampleRequest.branch sampleSha sampleSha

def sampleClaim : Operation := .claim sampleRequest 1 2

def sampleRecord : Operation := .record sampleTicket "messages/1.md" .projected (some "INSERTED")

def seededJournals : Journals Unit := blankJournals.after .unary sampleSeed 0

def cutJournals : Journals Unit := seededJournals.after .unary sampleCut 1

def claimedJournals : Journals Unit := cutJournals.after .unary sampleClaim 2

def recordedJournals : Journals Unit := claimedJournals.after .unary sampleRecord 3

def finalizedJournals : Journals Unit := recordedJournals.after .unary (.finalize sampleTicket) 4

/-- A batch is claimed, projected and finalized. -/
def sampleEvents : List Event :=
  [blankJournals.event .unary sampleSeed 0, seededJournals.event .unary sampleCut 1, cutJournals.event .unary sampleClaim 2,
    claimedJournals.event .unary sampleRecord 3, recordedJournals.event .unary (.finalize sampleTicket) 4]

theorem incomplete_of_any {journal : ProjectionJournal} {id : String}
    (h : (journal.batches id).any (·.complete) = false) : ¬ Journal.Complete journal id := by
  rintro ⟨record, hrecord, hcomplete⟩
  rw [hrecord, Option.any_some, hcomplete] at h
  cases h

theorem sampleRun : Run (Step .unary) blankJournals sampleEvents finalizedJournals := by
  have hseed : Step .unary blankJournals (blankJournals.event .unary sampleSeed 0) seededJournals := ⟨le_rfl, trivial, rfl, rfl⟩
  have hcut : Step .unary seededJournals (seededJournals.event .unary sampleCut 1) cutJournals :=
    ⟨by decide, trivial, rfl, rfl⟩
  have hnew : cutJournals.durable.batches.lookup 1 = none := by decide +kernel
  have hclaim : Step .unary cutJournals (cutJournals.event .unary sampleClaim 2) claimedJournals := ⟨by decide, hnew, rfl, rfl⟩
  have hrecord : Step .unary claimedJournals (claimedJournals.event .unary sampleRecord 3) recordedJournals :=
    ⟨by decide, ⟨by decide +kernel, by decide +kernel, incomplete_of_any (by decide +kernel)⟩, rfl, rfl⟩
  have hfinalize : Step .unary recordedJournals (recordedJournals.event .unary (.finalize sampleTicket) 4) finalizedJournals :=
    ⟨by decide, ⟨by decide +kernel, by decide +kernel, incomplete_of_any (by decide +kernel)⟩, rfl, rfl⟩
  exact ((((Run.single hseed).snoc hcut).snoc hclaim).snoc hrecord).snoc hfinalize

theorem reference_refines_sample :
    (∀ event ∈ sampleEvents, event.reference = event.durable) ∧ Agree finalizedJournals :=
  reference_refines sampleDatabase_unused sampleRun

/-- The journals accept it all. -/
example : sampleEvents.map (·.reference) = [true, true, true, true, true] := by decide +kernel

end CcbCore.Refinement
