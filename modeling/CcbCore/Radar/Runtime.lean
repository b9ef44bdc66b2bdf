import CcbCore.Library.Run
import CcbCore.Radar.DeadLetters
import CcbCore.Radar.Routing

/-!
# The runtime

`RadarRuntime` of `src/radar/runtime.py`, one call of `admit` or `dispatch_next` after
another, as its lock has them; the registry may change between them. A call returns a
receipt or raises, and leaves a state both ways. The stores do not fail: an increment
counts, and an insert refuses only a text that SQLite cannot take. `Fates` is the record
of what became of the envelopes; no method reads it.
-/

namespace CcbCore.Radar

open CcbCore.CodePoints CcbCore.Postgres

variable {Opaque : Type}

/-- The counters of `radar_telemetry_counters`. -/
inductive Counter where
  | routed
  | dropped
  | dlq
  deriving DecidableEq, Repr

/-- `TelemetryStore`, as far as the runtime uses it. -/
structure TelemetryStore where
  routed : ℕ
  dropped : ℕ
  dlq : ℕ
  deriving DecidableEq, Repr

/-- `increment(counter)`. -/
def TelemetryStore.increment (store : TelemetryStore) : Counter → TelemetryStore
  | .routed => { store with routed := store.routed + 1 }
  | .dropped => { store with dropped := store.dropped + 1 }
  | .dlq => { store with dlq := store.dlq + 1 }

/-- The sum of the counters. -/
def TelemetryStore.total (store : TelemetryStore) : ℕ := store.routed + store.dropped + store.dlq

/-- The states of a receipt. -/
inductive ReceiptState where
  | dlq
  | rejected
  | droppedDuplicate
  | droppedQueueFull
  | queued
  | droppedNoRoute
  | dispatched
  deriving DecidableEq, Repr

structure RuntimeReceipt where
  state : ReceiptState
  messageId : Str
  recipients : List Str := []
  dlqItemId : Option ℕ := none
  evictedMessageId : Option Str := none
  errors : List String := []
  deriving DecidableEq

/-- The envelopes that were put into the queue, that were dispatched or dropped for no
route, and that were evicted. -/
structure Fates (Opaque : Type) where
  accepted : List (RadarEnvelope Opaque)
  resolved : List (RadarEnvelope Opaque)
  evicted : List (RadarEnvelope Opaque)

structure Runtime (Opaque : Type) where
  registry : IdentityRegistry
  telemetry : TelemetryStore
  dlq : DeadLetterStore
  queue : PriorityQueue Opaque
  dedupe : DedupeWindow
  fates : Fates Opaque

/-- A receipt or an exception, and the state after the call. -/
abbrev Outcome (Opaque : Type) := Except Raised RuntimeReceipt × Runtime Opaque

namespace Runtime

variable (s : Runtime Opaque)

/-- `self.telemetry.increment(counter)`. -/
def count (counter : Counter) : Runtime Opaque := { s with telemetry := s.telemetry.increment counter }

/-- The queue after an envelope was put into it. -/
def accept (envelope : RadarEnvelope Opaque) (queue : PriorityQueue Opaque) : Runtime Opaque :=
  { s with queue, fates := { s.fates with accepted := envelope :: s.fates.accepted } }

/-- An envelope that was displaced by another is counted. -/
def displace : Option (RadarEnvelope Opaque) → Runtime Opaque
  | none => s
  | some old => count { s with fates := { s.fates with evicted := old :: s.fates.evicted } } .dropped

/-- An envelope was dispatched, or dropped for no route. -/
def resolve (envelope : RadarEnvelope Opaque) : Runtime Opaque :=
  { s with fates := { s.fates with resolved := envelope :: s.fates.resolved } }

end Runtime

/-- `dispatch_next`. -/
def dispatchNext (py : Interpreter Opaque) (nowMs : ℤ) (s : Runtime Opaque) : Outcome Opaque :=
  if nowMs < 0 then (.error (.valueError "INVALID_ROUTE_TIME"), s)
  else
    match s.queue.pop with
    | .error e => (.error e, s)
    | .ok (envelope, queue) =>
      let popped := { s with queue }
      match route py.unicode s.registry envelope nowMs with
      | .error e => (.error e, popped)
      | .ok decision =>
        if decision.recipients = [] then
          (.ok { state := .droppedNoRoute, messageId := envelope.messageId }, (popped.resolve envelope).count .dropped)
        else
          (.ok { state := .dispatched, messageId := envelope.messageId, recipients := decision.recipients },
            (popped.resolve envelope).count .routed)

/-- `_dedupe_key`. -/
def dedupeKey (envelope : RadarEnvelope Opaque) : Str := lit envelope.idempotencyKey.text

/-- `admit` of an envelope that was pushed: a displaced one is counted, and one of priority
zero is dispatched at once. -/
def settle (py : Interpreter Opaque) (envelope : RadarEnvelope Opaque) (nowMs : ℤ)
    (evicted : Option (RadarEnvelope Opaque)) (pushed : Runtime Opaque) : Outcome Opaque :=
  let evictedMessageId := evicted.map (·.messageId)
  if envelope.priority = 0 then
    match dispatchNext py nowMs (pushed.displace evicted) with
    | (.error e, s') => (.error e, s')
    | (.ok dispatched, s') => (.ok { dispatched with evictedMessageId }, s')
  else (.ok { state := .queued, messageId := envelope.messageId, evictedMessageId }, pushed.displace evicted)

/-- `admit` of an envelope, under the lock. -/
def admitEnvelope (py : Interpreter Opaque) (envelope : RadarEnvelope Opaque) (nowMs : ℤ) (s : Runtime Opaque) :
    Outcome Opaque :=
  match s.dedupe.accept (dedupeKey envelope) nowMs with
  | .error e => (.error e, s)
  | .ok (false, dedupe) =>
    (.ok { state := .droppedDuplicate, messageId := envelope.messageId }, { s with dedupe }.count .dropped)
  | .ok (true, dedupe) =>
    match s.queue.push envelope with
    | (.error (.overflowError _), queue) =>
      match dedupe.rollbackAccept (dedupeKey envelope) nowMs with
      | .error e => (.error e, { s with dedupe, queue })
      | .ok (_, dedupe) =>
        (.ok { state := .droppedQueueFull, messageId := envelope.messageId }, { s with dedupe, queue }.count .dropped)
    | (.error e, queue) => (.error e, { s with dedupe, queue })
    | (.ok evicted, queue) => settle py envelope nowMs evicted ({ s with dedupe }.accept envelope queue)

/-- What `admit` records of a raw mapping with an unknown domain or intent. -/
def evidenceOf (messageId : Str) (errors : List String) (envelope : Mapping Opaque) (sourceLocator : Option Str) :
    Evidence Opaque where
  messageId := messageId
  failureStage := lit "ADMISSION"
  failureCode := lit "UNKNOWN_TAXONOMY"
  envelope := envelope
  diagnostic := if join (lit ",") (errors.map lit) = [] then lit "unknown taxonomy" else join (lit ",") (errors.map lit)
  reasonCategory := lit "TAXONOMY"
  sourceLocator := sourceLocator

/-- `admit`. -/
def admitRaw (py : Interpreter Opaque) (raw : Mapping Opaque) (nowMs : ℤ) (sourceLocator : Option Str) (fresh : Fresh)
    (s : Runtime Opaque) : Outcome Opaque :=
  match fromMapping py fresh raw with
  | .error e => (.error e, s)
  | .ok result =>
    let messageId := rawMessageId py raw
    match result.classification, result.envelope with
    | .dlq, _ =>
      match safeDlqEnvelope py raw with
      | .error e => (.error e, s)
      | .ok envelope =>
        match s.dlq.record py (evidenceOf messageId result.errors envelope sourceLocator) with
        | .error e => (.error e, s)
        | .ok (itemId, dlq) =>
          (.ok { state := .dlq, messageId, dlqItemId := some itemId, errors := result.errors }, { s with dlq }.count .dlq)
    | .rejected, _ => (.ok { state := .rejected, messageId, errors := result.errors }, s.count .dropped)
    | _, none => (.ok { state := .rejected, messageId, errors := result.errors }, s.count .dropped)
    | _, some envelope => admitEnvelope py envelope nowMs s

/-! ### Runs -/

/-- A call, and what it returned or raised. -/
inductive Event (Opaque : Type) where
  | admitRaw (raw : Mapping Opaque) (nowMs : ℤ) (sourceLocator : Option Str) (fresh : Fresh)
      (response : Except Raised RuntimeReceipt)
  | dispatchNext (nowMs : ℤ) (response : Except Raised RuntimeReceipt)
  | registry (call : RegistryCall Opaque)

/-- A call of `admit` that returned. -/
def Event.isAdmission : Event Opaque → Bool
  | .admitRaw _ _ _ _ (.ok _) => true
  | _ => false

/-- One call of a method. -/
inductive Step (py : Interpreter Opaque) : Runtime Opaque → Event Opaque → Runtime Opaque → Prop where
  | admitRaw {s s' : Runtime Opaque} {raw : Mapping Opaque} {nowMs : ℤ} {sourceLocator : Option Str} {fresh : Fresh}
      {response : Except Raised RuntimeReceipt} :
      admitRaw py raw nowMs sourceLocator fresh s = (response, s') →
      Step py s (.admitRaw raw nowMs sourceLocator fresh response) s'
  | dispatchNext {s s' : Runtime Opaque} {nowMs : ℤ} {response : Except Raised RuntimeReceipt} :
      dispatchNext py nowMs s = (response, s') → Step py s (.dispatchNext nowMs response) s'
  | registry {s : Runtime Opaque} (call : RegistryCall Opaque) :
      Step py s (.registry call) { s with registry := call.after py.unicode s.registry }

/-- A new runtime over its stores. -/
def Runtime.start (telemetry : TelemetryStore) (dlq : DeadLetterStore) (queueSize : ℕ) (hsize : 0 < queueSize)
    (dedupeWindowMs : ℤ) (hwindow : 0 ≤ dedupeWindowMs) : Runtime Opaque where
  registry := .empty
  telemetry := telemetry
  dlq := dlq
  queue := ⟨queueSize, hsize, 0, []⟩
  dedupe := ⟨dedupeWindowMs, hwindow, [], none⟩
  fates := ⟨[], [], []⟩

end CcbCore.Radar
