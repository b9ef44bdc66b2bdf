import CcbCore.Library.Interference
import CcbCore.Library.Table
import CcbCore.Relay.Receipt

/-!
# The Slack relay's store

`RelayEnvelope` and `RelayStore` of `src/chat_bus/slack_relay.py`. An envelope is one
that `__post_init__` lets through. A `with self.connection` block is one transaction,
whose first statement takes SQLite's write lock, and so it is one call here: the insert
or the update, and the select of the row after it. The insert leaves alone an operation
id that is there, and refuses a message id that another operation has.
-/

namespace CcbCore.Slack

open CcbCore.CodePoints CcbCore.Postgres CcbCore.Radar CcbCore.Raising
open CcbCore.Python (CodePoint)
open CcbCore.Relay (isId printable)

/-- An exception of the store. -/
inductive Exc where
  | relayError (code : String)
  /-- `sqlite3.IntegrityError`. -/
  | integrityError
  /-- What SQLite raises when it does not work. -/
  | databaseError
  | raised (e : Raised)
  deriving DecidableEq

/-! ### Envelopes -/

/-- `[0-9]`. -/
def isDigit (c : CodePoint) : Bool := 0x30 ≤ c.val && c.val ≤ 0x39

/-- `[A-Z]`. -/
def isUpper (c : CodePoint) : Bool := 0x41 ≤ c.val && c.val ≤ 0x5a

/-- `_CHANNEL_RE`. -/
def isChannel : Str → Bool
  | [] => false
  | c :: rest => (lit "CDG").contains c && rest.all (fun c => isUpper c || isDigit c) && !rest.isEmpty

/-- `_TS_RE`. -/
def isTimestamp (text : Str) : Bool :=
  match text.dropWhile isDigit with
  | [] => false
  | c :: rest => !(text.takeWhile isDigit).isEmpty && c = point '.' && !rest.isEmpty && rest.all isDigit

/-- The fields of a `RelayEnvelope`, whose `schema` is the module's own. -/
structure EnvelopeFields where
  operationId : Str
  messageId : Str
  senderEndpoint : Str
  recipientEndpoint : Str
  channelId : Str
  body : Str
  createdAtMs : ℤ
  threadTs : Option Str
  replyToMessageId : Option Str

/-- The code of the first field that `__post_init__` refuses. -/
def EnvelopeFields.refused (fields : EnvelopeFields) : Option String :=
  if isId fields.operationId = false then some "INVALID_OPERATION_ID"
  else if isId fields.messageId = false then some "INVALID_MESSAGE_ID"
  else if isChannel fields.channelId = false then some "INVALID_SLACK_CHANNEL_ID"
  else if isBlank fields.body = true then some "MESSAGE_BODY_REQUIRED"
  else if 40000 < fields.body.length then some "MESSAGE_BODY_TOO_LARGE"
  else if fields.createdAtMs < 0 then some "INVALID_CREATED_AT_MS"
  else if fields.threadTs.any (fun ts => !isTimestamp ts) = true then some "INVALID_THREAD_TS"
  else if fields.replyToMessageId.any (fun id => !isId id) = true then some "INVALID_REPLY_TO_MESSAGE_ID"
  else none

/-- `RelayEnvelope`. -/
structure RelayEnvelope extends EnvelopeFields where
  valid : toEnvelopeFields.refused = none

variable (py : Interpreter Empty)

/-- `asdict(self)`. -/
def RelayEnvelope.asDict (envelope : RelayEnvelope) : Mapping Empty := [
  (lit "operation_id", .str envelope.operationId), (lit "message_id", .str envelope.messageId),
  (lit "sender_endpoint", .str envelope.senderEndpoint), (lit "recipient_endpoint", .str envelope.recipientEndpoint),
  (lit "channel_id", .str envelope.channelId), (lit "body", .str envelope.body),
  (lit "created_at_ms", .int envelope.createdAtMs), (lit "thread_ts", Relay.optionalValue envelope.threadTs),
  (lit "reply_to_message_id", Relay.optionalValue envelope.replyToMessageId),
  (lit "schema", .str (lit "CHAT_BUS_SLACK_RELAY_V1"))]

/-- `sha256`, of `canonical_bytes()`. -/
def RelayEnvelope.sha256 (envelope : RelayEnvelope) : Except Exc (Hex 64) :=
  if printable envelope.createdAtMs = true then
    match dumps py canonicalFormat (.object envelope.asDict) with
    | .ok text => ((encodeText text).map py.sha256).mapError .raised
    | .error e => .error (.raised e)
  else .error (.raised (.valueError "Exceeds the limit for integer string conversion"))

/-! ### Calls -/

/-- A row of `relay_operations`, under its operation id. -/
structure Operation where
  messageId : Str
  envelopeSha256 : Str
  channelId : Str
  slackMessageTs : Option Str
  createdAtMs : ℤ
  deriving DecidableEq

/-- `relay_operations`. -/
abbrev Operations := Table Str Operation

inductive Op where
  /-- `INSERT … ON CONFLICT(operation_id) DO NOTHING`, the row's `SELECT`, and the commit. -/
  | insert (operationId : Str) (row : Operation)
  /-- `SELECT * FROM relay_operations WHERE operation_id = ?`. -/
  | select (operationId : Str)
  /-- `UPDATE … SET slack_message_ts = ?`, the row's `SELECT`, and the commit. -/
  | deliver (operationId envelopeSha256 slackMessageTs : Str)

/-- What a call returns; an insert also the number of its rows. -/
def Op.Reply : Op → Type
  | .insert .. => ℕ × Option Operation
  | .select _ | .deliver .. => Option Operation

abbrev Calls : Signature := ⟨Op, Op.Reply⟩

abbrev Program := Prog Calls Exc

/-! ### The store -/

structure RelayClaim where
  operationId : Str
  messageId : Str
  envelopeSha256 : Str
  slackMessageTs : Option Str
  created : Bool
  deriving DecidableEq

/-- `_claim_from_row`. -/
def claimFromRow (operationId : Str) (row : Operation) (created : Bool) : RelayClaim :=
  ⟨operationId, row.messageId, row.envelopeSha256, row.slackMessageTs, created⟩

/-- The row that a claim inserts. -/
def RelayEnvelope.row (envelope : RelayEnvelope) (digest : Hex 64) : Operation :=
  ⟨envelope.messageId, lit digest.text, envelope.channelId, none, envelope.createdAtMs⟩

/-- The row is of another envelope. -/
def RelayEnvelope.Differs (envelope : RelayEnvelope) (digest : Hex 64) (row : Operation) : Prop :=
  row.envelopeSha256 ≠ lit digest.text ∨ row.messageId ≠ envelope.messageId

instance (envelope : RelayEnvelope) (digest : Hex 64) : DecidablePred (envelope.Differs digest) :=
  fun row => inferInstanceAs (Decidable (row.envelopeSha256 ≠ lit digest.text ∨ row.messageId ≠ envelope.messageId))

/-- What `claim` makes of the row it selects. -/
def claimed (envelope : RelayEnvelope) (digest : Hex 64) (created : Bool) : Option Operation → Except Exc RelayClaim
  | none => .error (.relayError "RELAY_CLAIM_STATE_MISSING")
  | some row =>
    if envelope.Differs digest row then .error (.relayError "OPERATION_ID_CONFLICT")
    else .ok (claimFromRow envelope.operationId row created)

/-- What `claim` raises when the table refused the row. -/
def conflictOf (envelope : RelayEnvelope) (digest : Hex 64) : Option Operation → Exc
  | none => .relayError "MESSAGE_ID_CONFLICT"
  | some row => if envelope.Differs digest row then .relayError "OPERATION_ID_CONFLICT" else .relayError "MESSAGE_ID_CONFLICT"

/-- `claim`, after the table refused the row. -/
def claimRefused (envelope : RelayEnvelope) (digest : Hex 64) : Program RelayClaim :=
  .call (.select envelope.operationId) fun
    | .ok found => .done (.error (conflictOf envelope digest found))
    | .error e => .done (.error e)

/-- `claim`, of an envelope with its digest. -/
def claimRow (envelope : RelayEnvelope) (digest : Hex 64) : Program RelayClaim :=
  .call (.insert envelope.operationId (envelope.row digest)) fun
    | .ok (count, found) => .done (claimed envelope digest (count = 1) found)
    | .error .integrityError => claimRefused envelope digest
    | .error e => .done (.error e)

/-- `claim`. SQLite's integers have 64 bits. -/
def claim (envelope : RelayEnvelope) : Program RelayClaim := do
  let digest ← Prog.lift (envelope.sha256 py)
  Prog.refuseIf (2 ^ 63 ≤ envelope.createdAtMs) (.raised (.overflowError "Python int too large to convert to SQLite INTEGER"))
  claimRow envelope digest

/-- What `mark_delivered` makes of the row it selects. -/
def delivered (operationId envelopeSha256 slackMessageTs : Str) : Option Operation → Except Exc RelayClaim
  | none => .error (.relayError "UNKNOWN_RELAY_OPERATION")
  | some row =>
    if row.envelopeSha256 ≠ envelopeSha256 then .error (.relayError "ENVELOPE_DIGEST_MISMATCH")
    else if row.slackMessageTs ≠ some slackMessageTs then .error (.relayError "DELIVERY_RECEIPT_CONFLICT")
    else .ok (claimFromRow operationId row false)

/-- `mark_delivered`, of texts that encode. -/
def deliverRow (operationId envelopeSha256 slackMessageTs : Str) : Program RelayClaim :=
  .call (.deliver operationId envelopeSha256 slackMessageTs) fun
    | .ok found => .done (delivered operationId envelopeSha256 slackMessageTs found)
    | .error e => .done (.error e)

/-- `mark_delivered`. -/
def markDelivered (operationId envelopeSha256 slackMessageTs : Str) : Program RelayClaim := do
  Prog.refuseIf (isTimestamp slackMessageTs = false) (.relayError "INVALID_SLACK_MESSAGE_TS")
  Prog.refuseIf ([slackMessageTs, operationId, envelopeSha256].all encodable = false) (.raised .unicodeEncodeError)
  deliverRow operationId envelopeSha256 slackMessageTs

/-- A method that is called, with its arguments. -/
inductive Request where
  | claim (envelope : RelayEnvelope)
  | markDelivered (operationId envelopeSha256 slackMessageTs : Str)

def Request.run : Request → Program RelayClaim
  | .claim envelope => Slack.claim py envelope
  | .markDelivered operationId envelopeSha256 slackMessageTs => Slack.markDelivered operationId envelopeSha256 slackMessageTs

/-! ### The database -/

/-- The insert: the number of rows and the table after it, or nothing when it is refused. -/
def insertOperation (rows : Operations) (operationId : Str) (row : Operation) : Option (ℕ × Operations) :=
  if (rows.lookup operationId).isSome then some (0, rows)
  else if Table.any rows (fun _ other => other.messageId = row.messageId) = true then none
  else some (1, rows.insert operationId row)

/-- The update takes a row of the digest that has no other timestamp. -/
def Operation.Takes (row : Operation) (envelopeSha256 slackMessageTs : Str) : Prop :=
  row.envelopeSha256 = envelopeSha256 ∧ (row.slackMessageTs = none ∨ row.slackMessageTs = some slackMessageTs)

instance (row : Operation) (envelopeSha256 slackMessageTs : Str) : Decidable (row.Takes envelopeSha256 slackMessageTs) :=
  inferInstanceAs (Decidable (_ ∧ _))

/-- The update. -/
def deliverOperation (rows : Operations) (operationId envelopeSha256 slackMessageTs : Str) : Operations :=
  match rows.lookup operationId with
  | some row =>
    if row.Takes envelopeSha256 slackMessageTs then
      rows.insert operationId { row with slackMessageTs := some slackMessageTs }
    else rows
  | none => rows

/-- A transaction that is committed, or raises when SQLite may fail. -/
def Commits (faulty : Prop) {α : Type} (reply : Except Exc α) (rows rows' : Operations) (outcome : α × Operations) : Prop :=
  match reply with
  | .ok a => (a, rows') = outcome
  | .error e => faulty ∧ e = .databaseError ∧ (rows' = rows ∨ rows' = outcome.2)

/-- The replies to a call, and the table after it. -/
def Sqlite (faulty : Prop) : Environment Calls Exc Operations := fun op rows reply rows' =>
  match op, reply with
  | .insert operationId row, reply =>
    match insertOperation rows operationId row with
    | some (count, after) => Commits faulty reply rows rows' ((count, after.lookup operationId), after)
    | none => rows' = rows ∧ (reply = .error .integrityError ∨ (faulty ∧ reply = .error .databaseError))
  | .select operationId, reply => Commits faulty reply rows rows' (rows.lookup operationId, rows)
  | .deliver operationId envelopeSha256 slackMessageTs, reply =>
    let after := deliverOperation rows operationId envelopeSha256 slackMessageTs
    Commits faulty reply rows rows' (after.lookup operationId, after)

end CcbCore.Slack
