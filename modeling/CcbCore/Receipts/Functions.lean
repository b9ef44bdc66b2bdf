import CcbCore.Assignments.Schema
import CcbCore.Receipts.References

/-!
# Reconciling receipts

`radar.reconcile_bus_receipts_v1` of `20260903000603_radar_receipt_plane_v1.sql`, over the tables
it reads and writes, and the trigger that calls it after an insert. A query is a function of the
rows, under the name of its common table expression. The order in which rows come to an insert
that leaves out conflicts is not given by the query: it is a `Plan`. `Server` holds the
collation's `lower`, of which it is known that it leaves what the pattern matches as it is, and no text.
-/

namespace CcbCore.Receipts

open CcbCore.Postgres CcbCore.Raising CcbCore.Sql
open CcbCore.Projection (MessageRow ReconciliationEvent SqlError Timestamptz)
open CcbCore.Assignments (Message)

/-! ### Tables -/

/-- `acknowledgements.acknowledgement_type`. -/
inductive AcknowledgementType where
  | delivered
  | read
  | incorporated
  | rejected
  deriving DecidableEq, Repr

/-- `radar.acknowledgements`, but for its id. -/
structure AcknowledgementRow where
  messageId : String
  identityId : String
  acknowledgementType : AcknowledgementType
  evidenceRef : Option String
  createdAt : Timestamptz

/-- `radar.delivery_events`, but for its id. -/
structure DeliveryRow where
  messageId : String
  identityId : Option String
  endpointId : Option String
  eventType : String
  outcome : String
  detail : Jsonb
  createdAt : Timestamptz

/-- The tables. -/
structure Plane where
  identities : Finset String
  messages : Table String MessageRow
  acknowledgements : List AcknowledgementRow
  deliveryEvents : List DeliveryRow
  reconciliationEvents : List ReconciliationEvent

/-- A PL/pgSQL function's body. -/
abbrev Plpgsql (α : Type) := EStateM SqlError Plane α

/-- The messages of a table. -/
def recordsOf (messages : Table String MessageRow) : List Message :=
  messages.entries.map fun entry => { entry.2 with messageId := entry.1 }

structure Server where
  lower : String → String
  lower_empty : lower "" = ""
  lower_reference : ∀ w, isReference w = true → lower (String.ofList w) = String.ofList w

variable (server : Server) (now : ℤ)

/-! ### Projected messages -/

/-- `coalesce((source_refs)[1], message_id)`. -/
def evidenceOf (m : Message) : String := m.sourceRefs.head?.join.getD m.messageId

/-- The event of a message that is addressed to an identity. -/
def projectedEvent (m : Message) (identityId : String) : DeliveryRow where
  messageId := m.messageId
  identityId := some identityId
  endpointId := none
  eventType := "PROJECTED_FOR_IDENTITY"
  outcome := "INDEXED_NOT_DELIVERED"
  detail := .object [
    ("claim_ceiling", .string "provider_index_only_not_delivery"),
    ("source_refs", .array (m.sourceRefs.map .ofText)),
    ("projection_status", .string m.projectionStatus)]
  createdAt := now

/-- The identities that a message is addressed to. -/
def addressees (identities : Finset String) (m : Message) : List String :=
  (m.audience.filterMap fun entry => entry.map fun text => server.lower (btrim text)).filter fun id => id ∈ identities

/-- The rows of the first insert. -/
def projectedEvents (identities : Finset String) (records : List Message) : List DeliveryRow :=
  (records.filter fun m => m.domain = "chat_bus").flatMap fun m =>
    (addressees server identities m).dedup.map (projectedEvent now m)

/-- `radar_delivery_projected_identity_unique_idx` refuses the second row. -/
def DeliveryRow.conflicts (row row' : DeliveryRow) : Bool :=
  row.eventType = "PROJECTED_FOR_IDENTITY" ∧ row'.eventType = "PROJECTED_FOR_IDENTITY" ∧ row.identityId ≠ none ∧
    row.identityId = row'.identityId ∧ row.messageId = row'.messageId

/-- `insert … on conflict do nothing`. -/
def insertUnlessConflict {α : Type} (conflicts : α → α → Bool) (table rows : List α) : List α :=
  rows.foldl (fun table row => if table.any fun row' => conflicts row' row then table else table ++ [row]) table

/-! ### References -/

/-- What a reply's headers say that it replies to. -/
def replyText (r : Message) : List Char :=
  (server.lower ((r.payload.getText "reply_to").getD "" ++ " " ++ (r.payload.getText "in_reply_to").getD "")).toList

structure ReplyRef where
  replyMessageId : String
  replySender : String
  referencedId : String
  evidenceRef : String
  deriving DecidableEq

/-- The references of a reply. -/
def referencesOf (r : Message) : List ReplyRef :=
  (regexpMatches (replyText server r)).map fun w =>
    ⟨r.messageId, server.lower r.sender, server.lower (String.ofList w), evidenceOf r⟩

/-- `reply_refs`. -/
def replyRefs (records : List Message) : List ReplyRef :=
  ((records.filter fun r => r.domain = "chat_bus").flatMap (referencesOf server)).dedup

/-- A message is a candidate for a reference. -/
def isTarget (referencedId : String) (target : Message) : Bool :=
  target.domain = "chat_bus" ∧ (server.lower target.messageId = referencedId ∨
    server.lower ((target.payload.getText "declared_message_id").getD "") = referencedId)

/-- The candidates for a reference. -/
def targets (records : List Message) (referencedId : String) : List Message := records.filter (isTarget server referencedId)

/-- The rows of `candidates`, before they are counted. -/
def candidateRows (records : List Message) : List (ReplyRef × Message) :=
  (replyRefs server records).flatMap fun ref => (targets server records ref.referencedId).map fun target => (ref, target)

/-- `candidate_count`, of the reply and the reference. -/
def candidateCount (records : List Message) (ref : ReplyRef) : ℕ :=
  (candidateRows server records).countP fun row =>
    row.1.replyMessageId = ref.replyMessageId ∧ row.1.referencedId = ref.referencedId

/-! ### Acknowledgements -/

/-- A row of the second insert, and the reply that it is from. -/
structure Credit where
  messageId : String
  identityId : String
  evidenceRef : String
  replyMessageId : String
  deriving DecidableEq

/-- The rows of the second insert. -/
def credits (identities : Finset String) (records : List Message) : List Credit :=
  ((candidateRows server records).filter fun row =>
    row.1.replySender ∈ identities ∧ candidateCount server records row.1 = 1 ∧ row.2.messageId ≠ row.1.replyMessageId).map fun row =>
      ⟨row.2.messageId, row.1.replySender, row.1.evidenceRef, row.1.replyMessageId⟩

def Credit.row (c : Credit) : AcknowledgementRow := ⟨c.messageId, c.identityId, .read, some c.evidenceRef, now⟩

/-- The key of `acknowledgements`. -/
def AcknowledgementRow.key (row : AcknowledgementRow) : String × String × AcknowledgementType :=
  (row.messageId, row.identityId, row.acknowledgementType)

/-- The order in which the rows of the second insert come. -/
structure Plan where
  order : List Credit → List Credit
  perm : ∀ rows, (order rows).Perm rows

/-! ### Ambiguous references -/

/-- The observation of a reference with more than one candidate. -/
def ambiguousEvent (ref : ReplyRef) (candidates : List String) : ReconciliationEvent where
  code := "AMBIGUOUS_REPLY_REFERENCE"
  repairClass := "OBSERVATION_ONLY"
  sourceRef := some ref.evidenceRef
  detail := .object [
    ("reply_message_id", .string ref.replyMessageId),
    ("reply_sender", .string ref.replySender),
    ("referenced_id", .string ref.referencedId),
    ("candidate_message_ids", .array (candidates.map .string)),
    ("resolution", .string "no_read_acknowledgement_emitted")]
  createdAt := now

/-- The reference was observed to be ambiguous. -/
def isObserved (events : List ReconciliationEvent) (ref : ReplyRef) : Bool :=
  events.any fun event => event.code = "AMBIGUOUS_REPLY_REFERENCE" ∧
    (equals (event.detail.getText "reply_message_id") (some ref.replyMessageId)).Holds ∧
    (equals (event.detail.getText "referenced_id") (some ref.referencedId)).Holds

/-- The rows of the third insert: the candidates are in the order of the collation. -/
def ambiguousEvents (sort : List String → List String) (records : List Message) (events : List ReconciliationEvent) :
    List ReconciliationEvent :=
  ((replyRefs server records).filter fun ref =>
    1 < candidateCount server records ref ∧ isObserved events ref = false).map fun ref =>
      ambiguousEvent now ref (sort ((targets server records ref.referencedId).map fun target => target.messageId))

/-! ### The function and its trigger -/

/-- The counters. -/
structure Counts where
  projectionEventsInserted : ℕ
  readAcknowledgementsInserted : ℕ
  ambiguousReplyObservationsInserted : ℕ
  deriving DecidableEq, Repr

/-- `radar.reconcile_bus_receipts_v1`. -/
def reconcileBusReceiptsV1 (sort : List String → List String) (plan : Plan) : Plpgsql Counts := do
  let db ← get
  let records := recordsOf db.messages
  let deliveryEvents := insertUnlessConflict DeliveryRow.conflicts db.deliveryEvents
    (projectedEvents server now db.identities records)
  let acknowledgements := insertUnlessConflict (fun row row' => row.key = row'.key) db.acknowledgements
    ((plan.order (credits server db.identities records)).map (Credit.row now))
  let ambiguous := ambiguousEvents server now sort records db.reconciliationEvents
  set { db with deliveryEvents, acknowledgements, reconciliationEvents := db.reconciliationEvents ++ ambiguous }
  pure ⟨deliveryEvents.length - db.deliveryEvents.length, acknowledgements.length - db.acknowledgements.length, ambiguous.length⟩

/-- The rows of `insert into radar.messages`. -/
def insertRows (messages : Table String MessageRow) (batch : List Message) : Option (Table String MessageRow) :=
  batch.foldlM (fun messages m => Table.insertRow messages m.messageId m.toMessageRow) messages

/-- `insert into radar.messages`, and `bus_message_receipts_after_insert_v1` after it. -/
def insertMessages (sort : List String → List String) (plan : Plan) (batch : List Message) : Plpgsql PUnit := do
  let db ← get
  let messages ← required (insertRows db.messages batch) (.violation "messages_pkey")
  set { db with messages }
  let _ ← reconcileBusReceiptsV1 server now sort plan

end CcbCore.Receipts
