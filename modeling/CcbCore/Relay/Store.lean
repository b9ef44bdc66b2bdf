import CcbCore.Library.Prog
import CcbCore.Relay.Receipt
import Mathlib.Data.Rat.Defs
import Mathlib.Logic.Function.Basic

/-!
# The relay's store and what it calls

The calls that a relay makes, and `RelayStore` of `src/radar/workstation_relay_state.py`
over them. A statement is one call: SQLite runs it and commits it as a whole, and it
refuses a second row of one message id. A verifier and a target may return anything and
raise anything (`Workstation`); what a target was asked to submit is on record in
`World`, which no program reads.
-/

namespace CcbCore.Relay

open CcbCore.CodePoints CcbCore.Postgres CcbCore.Radar

/-- A row of `workstation_relay_operations`. -/
structure Operation where
  messageId : Str
  nonce : Str
  envelopeSha256 : Str
  state : Str
  receiptJson : Option Str
  updatedAt : Str
  deriving DecidableEq

/-- What an update's `WHERE` names. -/
structure Binding where
  messageId : Str
  nonce : Str
  envelopeSha256 : Str
  deriving DecidableEq

def Operation.binding (row : Operation) : Binding := ⟨row.messageId, row.nonce, row.envelopeSha256⟩

/-! ### Seconds -/

/-- A `float` of seconds. What is reckoned with it is not rounded. -/
inductive Seconds where
  | finite (seconds : ℚ)
  | infinite (negative : Bool)
  | nan
  deriving DecidableEq

namespace Seconds

/-- `math.isfinite(seconds)`. -/
def isFinite : Seconds → Bool
  | .finite _ => true
  | _ => false

/-- `seconds <= 0`. -/
def isSpent : Seconds → Bool
  | .finite seconds => seconds ≤ 0
  | .infinite negative => negative
  | .nan => false

/-- `seconds + time`. -/
def add (time : ℚ) : Seconds → Seconds
  | .finite seconds => .finite (seconds + time)
  | seconds => seconds

/-- `first < last`. -/
def lt : Seconds → Seconds → Bool
  | .finite first, .finite last => first < last
  | .infinite negative, .finite _ => negative
  | .finite _, .infinite negative => !negative
  | .infinite negative, .infinite negative' => negative && !negative'
  | .nan, _ | _, .nan => false

/-- `min(first, last)`, which keeps the first unless the last is less. -/
def min (first last : Seconds) : Seconds := if last.lt first = true then last else first

/-- `time.sleep` takes this many seconds, whatever the clock says. -/
def longestSleep : ℚ := 9223372036

/-- `time.sleep(seconds)` raises nothing. -/
def isShort : Seconds → Bool
  | .finite seconds => 0 ≤ seconds ∧ seconds ≤ longestSleep
  | _ => false

end Seconds

/-! ### Calls -/

inductive Op where
  /-- `SELECT … WHERE message_id = ?`. -/
  | select (messageId : Str)
  /-- `INSERT`, and its commit. -/
  | insert (row : Operation)
  /-- `UPDATE … SET state = ?, updated_at = ?`, and its commit. -/
  | updateState (binding : Binding) (state updatedAt : Str)
  /-- `UPDATE … SET state = ?, receipt_json = ?, updated_at = ?`, and its commit. -/
  | updateReceipt (binding : Binding) (state receiptJson updatedAt : Str)
  /-- `datetime.now(timezone.utc).isoformat()`. -/
  | nowIso
  /-- `time.monotonic()`. -/
  | monotonic
  /-- `time.sleep(seconds)`. -/
  | sleep (seconds : Seconds)
  /-- `source_bus_verifier(envelope)`. -/
  | verify (envelope : RelayEnvelope)
  | discover (descriptor : TargetDescriptor)
  | activate (handle : ℤ) (token : Option Str)
  | snapshot (handle : ℤ) (token : Option Str)
  | populate (handle : ℤ) (token : Option Str) (text : Str)
  /-- `target.submit(handle, token)`, for a message that the target is not told. -/
  | submit (messageId : Str) (handle : ℤ) (token : Option Str)
  | readRendered (handle : ℤ) (token : Option Str) (messageId : Str)
  | waitForAck (handle : ℤ) (token : Option Str) (messageId : Str) (timeoutSeconds : Seconds)

/-- What a call returns; an update returns the number of its rows. -/
def Op.Reply : Op → Type
  | .select _ => Option Operation
  | .insert _ => Unit
  | .updateState .. | .updateReceipt .. => ℕ
  | .nowIso => Str
  | .monotonic => ℚ
  | .sleep _ => Unit
  | .verify _ => Bool
  | .discover _ => List TargetSnapshot
  | .activate .. => Unit
  | .snapshot .. => TargetSnapshot
  | .populate .. => Unit
  | .submit .. => Unit
  | .readRendered .. | .waitForAck .. => Option Str

abbrev Calls : Signature := ⟨Op, Op.Reply⟩

abbrev Program := Prog Calls Exc

/-- A call whose exceptions are caught. -/
def tryAsk (op : Op) : Program (Option op.Reply) :=
  .call op fun reply => .done (.ok reply.toOption)

/-- A statement is run once the texts it binds are encoded. -/
def execute (bound : List Str) (op : Op) : Program op.Reply := do
  Prog.refuseIf (bound.all encodable = false) (.raised .unicodeEncodeError)
  Prog.ask (I := Calls) op

/-! ### The store -/

/-- `claim` of a message that has a row. -/
def claimFound (decoder : Decoder Empty) (binding : Binding) (row : Operation) :
    Program (Bool × Str × Option RelayReceipt) := do
  Prog.refuseIf (row.nonce ≠ binding.nonce ∨ row.envelopeSha256 ≠ binding.envelopeSha256)
    (.relayStateError (lit "MESSAGE_ID_CONFLICT"))
  match row.receiptJson with
  | some text =>
    let receipt ← Prog.lift (RelayReceipt.decode decoder text)
    return (false, row.state, some receipt)
  | none => return (false, row.state, none)

/-- `claim` of a message that has no row. -/
def claimNew (binding : Binding) (updatedAt : Str) : Program (Bool × Str × Option RelayReceipt) := do
  execute [binding.messageId, binding.nonce, binding.envelopeSha256, updatedAt]
    (.insert ⟨binding.messageId, binding.nonce, binding.envelopeSha256, lit "CREATED", none, updatedAt⟩)
  return (true, lit "CREATED", none)

/-- `claim`: whether a row was created, its state, and the receipt in it. -/
def claim (decoder : Decoder Empty) (binding : Binding) (updatedAt : Str) :
    Program (Bool × Str × Option RelayReceipt) := do
  let found : Option Operation ← execute [binding.messageId] (.select binding.messageId)
  match found with
  | some row => claimFound decoder binding row
  | none => claimNew binding updatedAt

/-- `set_state`. -/
def setState (binding : Binding) (state updatedAt : Str) : Program Unit := do
  let count : ℕ ← execute [state, updatedAt, binding.messageId, binding.nonce, binding.envelopeSha256]
    (.updateState binding state updatedAt)
  Prog.refuseIf (count ≠ 1) (.relayStateError (lit "RELAY_STATE_BINDING_LOST"))

/-- `finalize`. -/
def finalize (py : Interpreter Empty) (binding : Binding) (receipt : RelayReceipt) (updatedAt : Str) : Program Unit := do
  let payload ← Prog.lift (receipt.encode py)
  let count : ℕ ← execute [receipt.finalState, payload, updatedAt, binding.messageId, binding.nonce, binding.envelopeSha256]
    (.updateReceipt binding receipt.finalState payload updatedAt)
  Prog.refuseIf (count ≠ 1) (.relayStateError (lit "RELAY_RECEIPT_BINDING_LOST"))

/-! ### The environment -/

/-- The table, by message id, the message ids of what was submitted, and the clock. -/
structure World where
  rows : Str → Option Operation
  submits : List Str
  clock : ℚ

/-- What may go wrong besides the verifier and the target. -/
structure Faults where
  /-- A statement may raise, and be committed or not. -/
  store : Prop
  /-- The clock may go back, and a sleep be cut short. -/
  clock : Prop

namespace World

/-- The row of a binding. -/
def bound (w : World) (binding : Binding) : Option Operation :=
  (w.rows binding.messageId).filter fun row => row.binding = binding

/-- A row is put in. -/
def put (w : World) (row : Operation) : World := { w with rows := Function.update w.rows row.messageId (some row) }

/-- The row of a binding is changed; the number of rows, and the table after it. -/
def update (w : World) (binding : Binding) (change : Operation → Operation) : ℕ × World :=
  match w.bound binding with
  | some row => (1, w.put (change row))
  | none => (0, w)

end World

/-- A change that is made, or not when the call raises. -/
def Changes (faulty : Prop) {α : Type} (reply : Except Exc α) (w w' : World) (outcome : α × World) : Prop :=
  match reply with
  | .ok a => (a, w') = outcome
  | .error _ => faulty ∧ (w' = w ∨ w' = outcome.2)

/-- The replies to a call, and the state after it. A sleep raises of `nan` and of infinite or negative
seconds, and may of more than `longestSleep`: its end is reckoned in nanoseconds of 64 bits. -/
def Workstation (faults : Faults) : Environment Calls Exc World := fun op w reply w' =>
  match op, reply with
  | .select messageId, reply => Changes faults.store reply w w' (w.rows messageId, w)
  | .insert row, reply =>
    if w.rows row.messageId = none then Changes faults.store reply w w' ((), w.put row)
    else w' = w ∧ reply.isOk = false
  | .updateState binding state updatedAt, reply =>
    Changes faults.store reply w w' (w.update binding fun row => { row with state, updatedAt })
  | .updateReceipt binding state receiptJson updatedAt, reply =>
    Changes faults.store reply w w' (w.update binding fun row => { row with state, receiptJson := some receiptJson, updatedAt })
  | .nowIso, .ok text => w' = w ∧ encodable text = true
  | .monotonic, .ok time => w' = { w with clock := time } ∧ (w.clock ≤ time ∨ faults.clock)
  | .sleep seconds, .ok _ => ∃ duration time, seconds = .finite duration ∧ 0 ≤ duration ∧ w' = { w with clock := time } ∧
      (w.clock + duration ≤ time ∨ faults.clock)
  | .sleep seconds, .error _ => seconds.isShort = false ∧ w' = w
  | .nowIso, .error _ | .monotonic, .error _ => False
  | .submit messageId _ _, _ => w' = { w with submits := messageId :: w.submits }
  | _, _ => w' = w

end CcbCore.Relay
