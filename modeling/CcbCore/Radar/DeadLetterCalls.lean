import CcbCore.Library.Interference
import CcbCore.Library.Run
import CcbCore.Radar.DeadLetters
import CcbCore.Radar.Parsing

/-!
# Dead-letter stores on one database

The calls of `DeadLetterStore` of `src/radar/dlq.py`, statement by statement. Each store
has a connection of its own and one call at a time, as its lock says. SQLite lets one
connection write at a time (`Database.writing`): what it has written is its own until it
commits, the others read what is committed. A statement may fail at any time when SQLite
is `faulty`, and must fail when it would write while another connection does; a store
may go away in the middle of a call, and its transaction with it. `mark_replay`'s
`BEGIN IMMEDIATE` comes before it reads. `Step` is one event of any number of stores.
-/

namespace CcbCore.Radar.DeadLetters

open CcbCore.CodePoints

variable {Opaque κ : Type}

/-! ### Rows -/

/-- `DeadLetterItem`. -/
structure DeadLetterItem (Opaque : Type) where
  itemId : ℕ
  messageId : Str
  failureStage : Str
  failureCode : Str
  envelope : Value Opaque
  diagnostic : Str
  reasonCategory : Str
  sourceLocator : Option Str
  applicability : Applicability
  replayState : ReplayState
  retryCount : ℕ

/-- `_row_to_item`. -/
def rowToItem (decoder : Decoder Opaque) (row : DeadLetterRow) : Except Raised (DeadLetterItem Opaque) :=
  (loads decoder row.envelopeJson).map fun envelope =>
    ⟨row.itemId, row.messageId, row.failureStage, row.failureCode, envelope, row.diagnostic, row.reasonCategory,
      row.sourceLocator, row.applicability, row.replayState, row.retryCount⟩

/-- `MAX_RETRIES`. -/
def maxRetries : ℕ := 5

/-- The values that `set_applicability` takes. -/
def settable (applicability : Str) : Option Applicability :=
  if applicability = lit "APPLICABLE" then some .applicable
  else if applicability = lit "NOT_APPLICABLE" then some .notApplicable
  else none

/-- `WHERE item_id = ?`. -/
def find (table : DeadLetterStore) (itemId : ℤ) : Option DeadLetterRow :=
  table.rows.find? fun row => row.itemId = itemId

/-- `inspect`. -/
def inspect (decoder : Decoder Opaque) (table : DeadLetterStore) (itemId : ℤ) : Except Raised (DeadLetterItem Opaque) :=
  match find table itemId with
  | none => .error (.deadLetterError "NOT_FOUND")
  | some row => rowToItem decoder row

/-- `WHERE applicability = 'APPLICABLE' AND replay_state = 'PENDING'`. -/
def isEligible (row : DeadLetterRow) : Bool := row.applicability = .applicable ∧ row.replayState = .pending

/-- The items with that, in the order of their ids, up to a limit. -/
def pendingApplicable (table : DeadLetterStore) (limit : ℤ) : List DeadLetterRow :=
  ((table.rows.filter isEligible).insertionSort fun a b => a.itemId ≤ b.itemId).take limit.toNat

/-- An `UPDATE`: the number of its rows, and the table after it. -/
def update (table : DeadLetterStore) (applies : DeadLetterRow → Bool) (set : DeadLetterRow → DeadLetterRow) :
    ℕ × DeadLetterStore :=
  (table.rows.countP applies,
    { table with rows := table.rows.map fun row => if applies row = true then set row else row })

/-! ### Statements -/

/-- A statement with the values it binds. -/
inductive Sql (Opaque : Type) where
  /-- The insert of `record`. -/
  | insert (evidence : Evidence Opaque) (envelopeJson : Str)
  /-- `SELECT * FROM radar_dead_letters WHERE item_id = ?`. -/
  | select (itemId : ℤ)
  /-- The select of `list_pending_applicable`. -/
  | selectPendingApplicable (limit : ℤ)
  /-- The update of `set_applicability`. -/
  | updateApplicability (itemId : ℤ) (applicability : Applicability)
  /-- The update of `mark_replay`. -/
  | updateReplay (itemId : ℤ)

namespace Sql

/-- What a statement gives: the id that was inserted, what was selected, or `rowcount`. -/
def Reply : Sql Opaque → Type
  | .insert .. => ℕ
  | .select _ => Option DeadLetterRow
  | .selectPendingApplicable _ => List DeadLetterRow
  | .updateApplicability .. | .updateReplay _ => ℕ

def writes : Sql Opaque → Bool
  | .insert .. | .updateApplicability .. | .updateReplay _ => true
  | .select _ | .selectPendingApplicable _ => false

/-- The exception of a value that SQLite cannot take. -/
def unbindable (py : Interpreter Opaque) : Sql Opaque → Option Raised
  | .insert evidence envelopeJson =>
    if (evidence.row py 0 envelopeJson).bound.all encodable = true then none else some .unicodeEncodeError
  | .select n | .selectPendingApplicable n | .updateApplicability n _ | .updateReplay n =>
    if -2 ^ 63 ≤ n ∧ n < 2 ^ 63 then none
    else some (.overflowError "Python int too large to convert to SQLite INTEGER")

/-- The table has an id for what is inserted. -/
def fits (table : DeadLetterStore) : Sql Opaque → Bool
  | .insert .. => table.lastItemId + 1 < 2 ^ 63
  | _ => true

/-- What a statement does to the table that its connection sees. -/
def run (py : Interpreter Opaque) (table : DeadLetterStore) : (sql : Sql Opaque) → sql.Reply × DeadLetterStore
  | .insert evidence envelopeJson =>
    let row := evidence.row py (table.lastItemId + 1) envelopeJson
    (row.itemId, ⟨table.rows ++ [row], row.itemId⟩)
  | .select itemId => (find table itemId, table)
  | .selectPendingApplicable limit =>
    (pendingApplicable table limit, table)
  | .updateApplicability itemId applicability =>
    update table (fun row => row.itemId = itemId) fun row => { row with applicability }
  | .updateReplay itemId =>
    update table (fun row => row.itemId = itemId ∧ row.replayState = .pending ∧ row.applicability = .applicable)
      fun row => { row with replayState := .replayed, retryCount := row.retryCount + 1 }

end Sql

/-! ### The database -/

/-- What is committed, and the table as the connection that writes has left it. -/
structure Database (κ : Type) where
  table : DeadLetterStore
  writing : Option (κ × DeadLetterStore)

/-- The connection is in no transaction. -/
def Database.Idle (db : Database κ) (c : κ) : Prop := ∀ table, db.writing ≠ some (c, table)

/-- No other connection writes. -/
def Database.Writable (db : Database κ) (c : κ) : Prop := ∀ d table, db.writing = some (d, table) → d = c

section Connections

variable [DecidableEq κ]

/-- The table that a connection sees. -/
def Database.view (db : Database κ) (c : κ) : DeadLetterStore :=
  match db.writing with
  | some (d, table) => if d = c then table else db.table
  | none => db.table

/-- The connection's transaction is dropped. -/
def Database.rollback (db : Database κ) (c : κ) : Database κ :=
  match db.writing with
  | some (d, _) => if d = c then ⟨db.table, none⟩ else db
  | none => db

/-- The connection's transaction is committed. -/
def Database.commit (db : Database κ) (c : κ) : Database κ :=
  match db.writing with
  | some (d, table) => if d = c then ⟨table, none⟩ else db
  | none => db

end Connections

/-- What is asked of a connection. -/
inductive Op (Opaque : Type) where
  | beginImmediate
  | execute (sql : Sql Opaque)
  | commit
  | rollback

def Op.Reply : Op Opaque → Type
  | .execute sql => sql.Reply
  | .beginImmediate | .commit | .rollback => Unit

abbrev Statements (Opaque : Type) : Signature := ⟨Op Opaque, Op.Reply⟩

/-- What SQLite raises when it does not work, or cannot write. -/
def operationalError : Raised := .other "OperationalError"

/-- The replies to a connection, and the database after them. -/
inductive Sqlite [DecidableEq κ] (faulty : Prop) (py : Interpreter Opaque) (c : κ) :
    Environment (Statements Opaque) Raised (Database κ) where
  | beginImmediate {db : Database κ} :
      db.writing = none → Sqlite faulty py c .beginImmediate db (.ok ()) ⟨db.table, some (c, db.table)⟩
  | busy {db : Database κ} :
      db.writing ≠ none → Sqlite faulty py c .beginImmediate db (.error operationalError) db
  | read {db : Database κ} {sql : Sql Opaque} : sql.unbindable py = none → sql.writes = false →
      Sqlite faulty py c (.execute sql) db (.ok (sql.run py (db.view c)).1) db
  | write {db : Database κ} {sql : Sql Opaque} :
      sql.unbindable py = none → sql.writes = true → db.Writable c → sql.fits (db.view c) = true →
      Sqlite faulty py c (.execute sql) db (.ok (sql.run py (db.view c)).1) ⟨db.table, some (c, (sql.run py (db.view c)).2)⟩
  | locked {db : Database κ} {sql : Sql Opaque} : sql.writes = true → ¬ db.Writable c →
      Sqlite faulty py c (.execute sql) db (.error operationalError) db
  | full {db : Database κ} {sql : Sql Opaque} : sql.writes = true → sql.fits (db.view c) = false →
      Sqlite faulty py c (.execute sql) db (.error operationalError) db
  | unbindable {db : Database κ} {sql : Sql Opaque} {e : Raised} : sql.unbindable py = some e →
      Sqlite faulty py c (.execute sql) db (.error e) db
  | commit {db : Database κ} : Sqlite faulty py c .commit db (.ok ()) (db.commit c)
  | rollback {db : Database κ} : Sqlite faulty py c .rollback db (.ok ()) (db.rollback c)
  | failed {db : Database κ} {op : Op Opaque} : faulty → op ≠ .rollback →
      Sqlite faulty py c op db (.error operationalError) db
  | failedRollback {db : Database κ} :
      faulty → Sqlite faulty py c .rollback db (.error operationalError) (db.rollback c)

/-! ### Calls -/

abbrev Program (Opaque α : Type) := Prog (Statements Opaque) Raised α

def ask (op : Op Opaque) : Program Opaque op.Reply := Prog.ask (I := Statements Opaque) op

/-- `self.connection.execute(…)`. -/
def execute (sql : Sql Opaque) : Program Opaque sql.Reply := ask (.execute sql)

/-- The transaction is rolled back, and the exception raised again. -/
def rollingBack {α : Type} (e : Raised) : Program Opaque α := do
  ask .rollback
  throw e

/-- `with self.connection`. -/
def withConnection {α : Type} (body : Program Opaque α) : Program Opaque α :=
  tryCatch (do
    let value ← body
    ask .commit
    return value) rollingBack

/-- `record`. -/
def record (py : Interpreter Opaque) (evidence : Evidence Opaque) : Program Opaque ℕ :=
  match evidence.refusal with
  | some code => throw (.deadLetterError code)
  | none =>
    match dumps py evidenceFormat (.object evidence.envelope) with
    | .error e =>
      throw (if e.isTypeOrValueError = true then .deadLetterError "ENVELOPE_NOT_JSON_SERIALIZABLE" else e)
    | .ok envelopeJson => withConnection (execute (.insert evidence envelopeJson))

/-- `set_applicability`. -/
def setApplicability (itemId : ℤ) (applicability : Str) : Program Opaque Unit :=
  match settable applicability with
  | none => throw (.deadLetterError "INVALID_APPLICABILITY")
  | some applicability => do
    let count : ℕ ← withConnection (execute (.updateApplicability itemId applicability))
    Prog.refuseIf (count ≠ 1) (.deadLetterError "NOT_FOUND")

/-- `list_pending_applicable`. -/
def listPendingApplicable (decoder : Decoder Opaque) (limit : ℤ) : Program Opaque (List (DeadLetterItem Opaque)) := do
  Prog.refuseIf (limit ≤ 0) (.deadLetterError "INVALID_LIMIT")
  let rows : List DeadLetterRow ← execute (.selectPendingApplicable limit)
  Prog.lift (rows.mapM (rowToItem decoder))

/-- What `mark_replay` asks of an item. -/
def checkReplay (item : DeadLetterItem Opaque) : Except Raised Unit :=
  if item.replayState ≠ .pending then .error (.deadLetterError "REPLAY_ALREADY_COMPLETED")
  else if item.applicability = .unknown then .error (.deadLetterError "APPLICABILITY_NOT_REFRESHED")
  else if item.applicability ≠ .applicable then .error (.deadLetterError "MESSAGE_NOT_APPLICABLE")
  else if maxRetries ≤ item.retryCount then .error (.deadLetterError "MAX_RETRIES_EXCEEDED")
  else .ok ()

/-- The item of a row that was selected, checked. -/
def checkRow (decoder : Decoder Opaque) : Option DeadLetterRow → Except Raised Unit
  | none => .error (.deadLetterError "NOT_FOUND")
  | some row => do
    let item ← rowToItem decoder row
    checkReplay item

/-- `mark_replay` after its `BEGIN IMMEDIATE`. -/
def replay (decoder : Decoder Opaque) (itemId : ℤ) : Program Opaque Unit := do
  let row : Option DeadLetterRow ← execute (.select itemId)
  Prog.lift (checkRow decoder row)
  let count : ℕ ← execute (.updateReplay itemId)
  Prog.refuseIf (count ≠ 1) (.deadLetterError "REPLAY_STATE_CHANGED")
  ask .commit

/-- `mark_replay`. -/
def markReplay (decoder : Decoder Opaque) (itemId : ℤ) : Program Opaque Unit := do
  ask .beginImmediate
  tryCatch (replay decoder itemId) rollingBack

/-! ### Any number of stores -/

/-- A call of a store. -/
inductive Request (Opaque : Type) where
  | record (evidence : Evidence Opaque)
  | setApplicability (itemId : ℤ) (applicability : Str)
  | listPendingApplicable (limit : ℤ)
  | markReplay (itemId : ℤ)

/-- What a call returns. -/
inductive Returned (Opaque : Type) where
  | itemId (n : ℕ)
  | items (items : List (DeadLetterItem Opaque))
  | nothing

def Request.program (py : Interpreter Opaque) (decoder : Decoder Opaque) :
    Request Opaque → Program Opaque (Returned Opaque)
  | .record evidence => do
    let n ← DeadLetters.record py evidence
    return .itemId n
  | .setApplicability itemId applicability => do
    DeadLetters.setApplicability itemId applicability
    return .nothing
  | .listPendingApplicable limit => do
    let items ← DeadLetters.listPendingApplicable decoder limit
    return .items items
  | .markReplay itemId => do
    DeadLetters.markReplay decoder itemId
    return .nothing

/-- The committed table before and after each statement of a call. -/
abbrev History := List (DeadLetterStore × DeadLetterStore)

/-- A call that runs: what is left of it, and its statements so far. -/
structure Call (Opaque : Type) where
  request : Request Opaque
  program : Program Opaque (Returned Opaque)
  history : History

structure World (Opaque κ : Type) where
  db : Database κ
  running : κ → Option (Call Opaque)

/-- The database, and a store's call, as they are after an event. -/
def World.set [DecidableEq κ] (w : World Opaque κ) (db : Database κ) (c : κ) (call : Option (Call Opaque)) : World Opaque κ :=
  ⟨db, Function.update w.running c call⟩

/-- A new database, and stores without a call. -/
def World.initial : World Opaque κ := ⟨⟨⟨[], 0⟩, none⟩, fun _ => none⟩

inductive Event (Opaque κ : Type) where
  | start (c : κ) (request : Request Opaque)
  /-- A statement of a call, and the committed table before and after it. -/
  | statement (c : κ) (request : Request Opaque) (before after : DeadLetterStore)
  | finish (c : κ) (request : Request Opaque) (result : Except Raised (Returned Opaque)) (history : History)
  /-- A store goes away. -/
  | stop (c : κ)

inductive Step [DecidableEq κ] (faulty : Prop) (py : Interpreter Opaque) (decoder : Decoder Opaque) (w : World Opaque κ) :
    Event Opaque κ → World Opaque κ → Prop where
  | start {c : κ} (request : Request Opaque) : w.running c = none →
      Step faulty py decoder w (.start c request)
        (w.set w.db c (some ⟨request, request.program py decoder, []⟩))
  | statement {c : κ} {request : Request Opaque} {op : Op Opaque}
      {next : Except Raised op.Reply → Program Opaque (Returned Opaque)} {history : History} {reply : Except Raised op.Reply}
      {db : Database κ} :
      w.running c = some ⟨request, .call op next, history⟩ → Sqlite faulty py c op w.db reply db →
      Step faulty py decoder w (.statement c request w.db.table db.table)
        (w.set db c (some ⟨request, next reply, history ++ [(w.db.table, db.table)]⟩))
  | finish {c : κ} {request : Request Opaque} {result : Except Raised (Returned Opaque)} {history : History} :
      w.running c = some ⟨request, .done result, history⟩ →
      Step faulty py decoder w (.finish c request result history) (w.set w.db c none)
  | stop (c : κ) : Step faulty py decoder w (.stop c) (w.set (w.db.rollback c) c none)

end CcbCore.Radar.DeadLetters
