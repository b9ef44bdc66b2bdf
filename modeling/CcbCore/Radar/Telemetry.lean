import CcbCore.Library.Typestate
import CcbCore.Radar.Value
import Mathlib.Order.MinMax

/-!
# The telemetry store and its heartbeats

`TelemetryStore` of `src/radar/telemetry.py` and `HeartbeatRuntime.tick` of
`src/radar/heartbeat.py`. What stands between `BEGIN IMMEDIATE` and the commit is one
call, as SQLite keeps others from writing, and an exception in it rolls back. What a
heartbeat's message says of its time is made after the commit, by `fromTimestamp`. The
clock, the evidence and the sink may be anything; what a sink was handed is on record in
`Database`, which no program reads.
-/

namespace CcbCore.Telemetry

open CcbCore.CodePoints CcbCore.Radar

/-- An exception of the store, or of what the runtime calls. -/
inductive Exc where
  | raised (e : Raised)
  | runtimeError (code : String)
  | heartbeatSinkError
  /-- What SQLite raises when it does not work. -/
  | databaseError
  deriving DecidableEq

/-- `ValueError(code)`. -/
def refusal (code : String) : Exc := .raised (.valueError code)

/-- `HEARTBEAT_INTERVAL_MS`. -/
def heartbeatIntervalMs : ℤ := 60000

/-! ### The tables -/

/-- `_COUNTER_NAMES`. -/
inductive Counter where
  | routed
  | dropped
  | dlq
  deriving DecidableEq, Repr

/-- `TelemetrySnapshot`. -/
structure TelemetrySnapshot where
  routed : ℤ
  dropped : ℤ
  dlq : ℤ
  deriving DecidableEq

/-- `delivery_state`; a row that was there before the column was has the last one. -/
inductive DeliveryState where
  | pending
  | delivered
  | unconfirmed
  | legacyUnknown
  deriving DecidableEq, Repr

/-- A row of `radar_telemetry_heartbeats`. -/
structure HeartbeatRow where
  heartbeatId : ℤ
  emittedAtMs : ℤ
  counts : TelemetrySnapshot
  sourceRef : Option Str
  providerState : Option Str
  deliveryState : DeliveryState
  missedIntervals : Option ℤ
  deriving DecidableEq

/-- The tables, the last id that `AUTOINCREMENT` gave, and the ids of what a sink was handed. -/
structure Database where
  counters : Counter → Option ℤ
  heartbeats : List HeartbeatRow
  sequence : ℤ
  handed : List ℤ

/-! ### A heartbeat's transaction -/

/-- `_last_heartbeat_ms`. -/
def Database.lastHeartbeatMs (db : Database) : Option ℤ := (db.heartbeats.map HeartbeatRow.emittedAtMs).max?

/-- `_snapshot_unlocked`. -/
def Database.snapshot (db : Database) : Option TelemetrySnapshot :=
  match db.counters .routed, db.counters .dropped, db.counters .dlq with
  | some routed, some dropped, some dlq => some ⟨routed, dropped, dlq⟩
  | _, _, _ => none

/-- The intervals that no heartbeat was in, up to a time. -/
def missedIntervals (last : Option ℤ) (nowMs : ℤ) : ℤ :=
  match last with
  | none => 0
  | some last => max 0 ((nowMs - last) / heartbeatIntervalMs - 1)

/-- SQLite has an integer. -/
def fits (n : ℤ) : Bool := n < 2 ^ 63

/-- The exception of the first value that an insert cannot bind, or the table cannot take. -/
def unstorable (row : HeartbeatRow) : Option Exc :=
  if [row.emittedAtMs, row.counts.routed, row.counts.dropped, row.counts.dlq].all fits = false then
    some (.raised (.overflowError "Python int too large to convert to SQLite INTEGER"))
  else if (row.sourceRef.toList ++ row.providerState.toList).all encodable = false then some (.raised .unicodeEncodeError)
  else if fits row.heartbeatId = false then some .databaseError
  else none

/-- What was inserted. -/
structure Created where
  heartbeatId : ℤ
  missedIntervals : ℤ
  counts : TelemetrySnapshot
  deriving DecidableEq

/-- The row of a heartbeat. -/
def Database.newRow (db : Database) (nowMs : ℤ) (sourceRef providerState : Option Str) (state : DeliveryState)
    (counts : TelemetrySnapshot) : HeartbeatRow :=
  ⟨db.sequence + 1, nowMs, counts, sourceRef, providerState, state, some (missedIntervals db.lastHeartbeatMs nowMs)⟩

/-- The insert, and the commit. -/
def Database.insertHeartbeat (db : Database) (nowMs : ℤ) (sourceRef providerState : Option Str) (state : DeliveryState) :
    Except Exc (Created × Database) :=
  match db.snapshot with
  | none => .error (.runtimeError "TELEMETRY_COUNTER_STATE_INCOMPLETE")
  | some counts =>
    let row := db.newRow nowMs sourceRef providerState state counts
    match unstorable row with
    | some e => .error e
    | none =>
      .ok (⟨row.heartbeatId, missedIntervals db.lastHeartbeatMs nowMs, counts⟩,
        { db with heartbeats := db.heartbeats ++ [row], sequence := row.heartbeatId })

/-- The transaction of `_create_heartbeat`: a heartbeat that is not due is none. -/
def Database.create (db : Database) (nowMs : ℤ) (sourceRef providerState : Option Str) (state : DeliveryState) :
    Except Exc (Option Created × Database) :=
  if ∃ last ∈ db.lastHeartbeatMs, nowMs < last then .error (refusal "HEARTBEAT_CLOCK_REGRESSION")
  else if ∃ last ∈ db.lastHeartbeatMs, nowMs - last < heartbeatIntervalMs then .ok (none, db)
  else (db.insertHeartbeat nowMs sourceRef providerState state).map fun outcome => (some outcome.1, outcome.2)

/-- `UPDATE … SET delivery_state = ? WHERE heartbeat_id = ? AND delivery_state = 'PENDING'`. -/
def HeartbeatRow.mark (heartbeatId : ℤ) (state : DeliveryState) (row : HeartbeatRow) : HeartbeatRow :=
  if row.heartbeatId = heartbeatId ∧ row.deliveryState = .pending then { row with deliveryState := state } else row

/-- The update: the number of its rows, and the tables after it. -/
def Database.mark (db : Database) (heartbeatId : ℤ) (state : DeliveryState) : ℕ × Database :=
  (db.heartbeats.countP fun row => row.heartbeatId = heartbeatId ∧ row.deliveryState = .pending,
    { db with heartbeats := db.heartbeats.map (HeartbeatRow.mark heartbeatId state) })

/-! ### Calls -/

/-- A heartbeat's message, by the fields that are its own. -/
structure HeartbeatMessage where
  heartbeatSequence : ℤ
  emittedAtMs : ℤ
  missedIntervals : ℤ
  counts : TelemetrySnapshot
  sourceRef : Option Str
  providerState : Option Str
  createdAt : Str

inductive Op where
  /-- `TelemetryStore(path)`: the counters that are not there are put in as zero. -/
  | openStore
  /-- `UPDATE … SET value = value + ? WHERE counter = ?`, the snapshot, and the commit. -/
  | increment (counter : Counter) (amount : ℤ)
  /-- `BEGIN IMMEDIATE` to the commit of `_create_heartbeat`. -/
  | create (nowMs : ℤ) (sourceRef providerState : Option Str) (state : DeliveryState)
  /-- The update of `mark_heartbeat_delivery`, and its commit. -/
  | mark (heartbeatId : ℤ) (state : DeliveryState)
  | clockMs
  | sourceRef
  | providerState
  /-- `self.sink(heartbeat)`. -/
  | sink (heartbeat : HeartbeatMessage)

/-- What a call returns; an update returns the number of its rows. -/
def Op.Reply : Op → Type
  | .openStore => Unit
  | .increment .. => TelemetrySnapshot
  | .create .. => Option Created
  | .mark .. => ℕ
  | .clockMs => ℤ
  | .sourceRef | .providerState => Option Str
  | .sink _ => Unit

abbrev Calls : Signature := ⟨Op, Op.Reply⟩

abbrev Program := Prog Calls Exc

/-! ### The store's methods -/

/-- `datetime.fromtimestamp(now_ms / 1_000, tz=timezone.utc).isoformat()`, with a `Z`: there is
no time after the year 9999. -/
def fromTimestamp (isoformat : ℤ → Str) (nowMs : ℤ) : Except Exc Str :=
  if nowMs < 253402300800000 then .ok (isoformat nowMs) else .error (refusal "year is out of range")

variable (isoformat : ℤ → Str)

/-- `increment`, of a counter by an amount that may be negative. -/
def increment (counter : Counter) (amount : ℤ) : Program TelemetrySnapshot := do
  Prog.refuseIf (amount < 0) (refusal "INVALID_TELEMETRY_INCREMENT")
  Prog.refuseIf (fits amount = false) (.raised (.overflowError "Python int too large to convert to SQLite INTEGER"))
  Prog.ask (I := Calls) (.increment counter amount)

/-- `_create_heartbeat`. -/
def createHeartbeat (nowMs : ℤ) (sourceRef providerState : Option Str) (state : DeliveryState) :
    Program (Option HeartbeatMessage) := do
  Prog.refuseIf (nowMs < 0) (refusal "INVALID_HEARTBEAT_TIME")
  let created : Option Created ← Prog.ask (I := Calls) (.create nowMs sourceRef providerState state)
  match created with
  | none => return none
  | some created =>
    let createdAt ← Prog.lift (fromTimestamp isoformat nowMs)
    return some ⟨created.heartbeatId, nowMs, created.missedIntervals, created.counts, sourceRef, providerState, createdAt⟩

/-- `emit_heartbeat`. -/
def emitHeartbeat (nowMs : ℤ) (sourceRef providerState : Option Str) : Program (Option HeartbeatMessage) :=
  createHeartbeat isoformat nowMs sourceRef providerState .delivered

/-- `claim_heartbeat`. -/
def claimHeartbeat (nowMs : ℤ) (sourceRef providerState : Option Str) : Program (Option HeartbeatMessage) :=
  createHeartbeat isoformat nowMs sourceRef providerState .pending

/-- `mark_heartbeat_delivery`, to a final state. -/
def markHeartbeatDelivery (heartbeatId : ℤ) (state : DeliveryState) : Program Unit := do
  Prog.refuseIf (heartbeatId ≤ 0) (refusal "INVALID_HEARTBEAT_ID")
  let count : ℕ ← Prog.ask (I := Calls) (.mark heartbeatId state)
  Prog.refuseIf (count ≠ 1) (.runtimeError "HEARTBEAT_DELIVERY_STATE_NOT_PENDING")

/-! ### The runtime -/

/-- The heartbeat is handed over, and what came of it is marked. -/
def handOver (heartbeat : HeartbeatMessage) : Program (Option HeartbeatMessage) :=
  .call (.sink heartbeat) fun
    | .ok _ => do
      markHeartbeatDelivery heartbeat.heartbeatSequence .delivered
      return some heartbeat
    | .error _ => do
      markHeartbeatDelivery heartbeat.heartbeatSequence .unconfirmed
      throw .heartbeatSinkError

/-- `tick`. -/
def tick : Program (Option HeartbeatMessage) := do
  let nowMs : ℤ ← Prog.ask (I := Calls) .clockMs
  let sourceRef : Option Str ← Prog.ask (I := Calls) .sourceRef
  let providerState : Option Str ← Prog.ask (I := Calls) .providerState
  match ← claimHeartbeat isoformat nowMs sourceRef providerState with
  | none => return none
  | some heartbeat =>
    Prog.refuseIf (heartbeat.heartbeatSequence ≤ 0) (.runtimeError "HEARTBEAT_SEQUENCE_MISSING")
    handOver heartbeat

/-- What is called, with its arguments. -/
inductive Request where
  | openStore
  | increment (counter : Counter) (amount : ℤ)
  | emitHeartbeat (nowMs : ℤ) (sourceRef providerState : Option Str)
  | tick

def Request.run : Request → Program (Option HeartbeatMessage)
  | .openStore => do
    Prog.ask (I := Calls) .openStore
    return none
  | .increment counter amount => do
    let _ ← Telemetry.increment counter amount
    return none
  | .emitHeartbeat nowMs sourceRef providerState => Telemetry.emitHeartbeat isoformat nowMs sourceRef providerState
  | .tick => Telemetry.tick isoformat

/-! ### The environment -/

/-- A counter after an increment. Past 64 bits SQLite adds in floating point, whose sum is not
below either term. -/
def Increased (counters counters' : Counter → Option ℤ) (counter : Counter) (amount : ℤ) : Prop :=
  (∀ other, other ≠ counter → counters' other = counters other) ∧
    match counters counter with
    | none => counters' counter = none
    | some value => ∃ value', counters' counter = some value' ∧
        if value + amount < 2 ^ 63 then value' = value + amount else value ≤ value'

/-- The replies to a call, and the tables after it: a call that SQLite fails changes nothing. -/
def Sqlite (faulty : Prop) : Environment Calls Exc Database := fun op db reply db' =>
  match op, reply with
  | .openStore, .ok _ => db' = { db with counters := fun counter => some ((db.counters counter).getD 0) }
  | .increment counter amount, .ok snapshot =>
    ∃ counters, Increased db.counters counters counter amount ∧ db' = { db with counters } ∧ db'.snapshot = some snapshot
  | .increment _ _, .error e =>
    db' = db ∧ ((db.snapshot = none ∧ e = .runtimeError "TELEMETRY_COUNTER_STATE_INCOMPLETE") ∨ (faulty ∧ e = .databaseError))
  | .create nowMs sourceRef providerState state, .ok created =>
    db.create nowMs sourceRef providerState state = .ok (created, db')
  | .create nowMs sourceRef providerState state, .error e =>
    db' = db ∧ (db.create nowMs sourceRef providerState state = .error e ∨ (faulty ∧ e = .databaseError))
  | .mark heartbeatId state, .ok count => (count, db') = db.mark heartbeatId state
  | .openStore, .error e | .mark _ _, .error e => db' = db ∧ faulty ∧ e = .databaseError
  | .sink heartbeat, _ => db' = { db with handed := heartbeat.heartbeatSequence :: db.handed }
  | .clockMs, _ | .sourceRef, _ | .providerState, _ => db' = db

end CcbCore.Telemetry
