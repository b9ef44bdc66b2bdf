import CcbCore.Radar.Value

/-!
# Envelopes

`RadarEnvelope.from_mapping` of `src/radar/envelope.py`: a raw mapping is rejected, is
left to the dead letters for its unknown domain or intent, or gives an envelope, all of
whose fields are checked (`fromMapping_cases`). What it raises comes from the texts it
hashes: the canonical text of sender, audience and payload may not encode.
-/

namespace CcbCore.Radar

open CcbCore.CodePoints CcbCore.Postgres
open CcbCore.Python (Bytes)

variable {Opaque : Type}

/-- `ALLOWED_DOMAINS`. -/
def allowedDomains : List Str :=
  ["system", "llm", "ui", "database", "coordination", "security", "chat_bus", "protocol", "repository"].map lit

/-- `ALLOWED_INTENTS`. -/
def allowedIntents : List Str :=
  ["command", "query", "event", "error", "telemetry", "verification", "bus_message"].map lit

/-- `DEFAULT_PRIORITY`. -/
def defaultPriority : ℤ := 3

/-- `MIN_PRIORITY`. -/
def minPriority : ℤ := 0

/-- `MAX_PRIORITY`. -/
def maxPriority : ℤ := 4

structure RadarEnvelope (Opaque : Type) where
  schemaVersion : ℤ
  messageId : Str
  createdAt : Str
  sender : Str
  audience : List Str
  domain : Str
  intent : Str
  priority : ℤ
  payload : Value Opaque
  contentHash : Hex 64
  idempotencyKey : Hex 64
  correlationId : Option Str
  rootTaskId : Option Str
  causalParentId : Option Str
  requiresAck : Bool
  expiresAt : Option Str
  authorityRef : Option Str
  sourceRefs : List Str

inductive EnvelopeClassification where
  | valid
  | normalized
  | rejected
  | dlq
  deriving DecidableEq, Repr

structure EnvelopeResult (Opaque : Type) where
  classification : EnvelopeClassification
  envelope : Option (RadarEnvelope Opaque)
  errors : List String

/-- What a call reads from outside: `uuid.uuid4().hex[:16]` and the time of day. -/
structure Fresh where
  uuid : Hex 16
  now : Str

/-! ### Fields -/

/-- `raw[name]`, when the name is there. -/
def field (raw : Mapping Opaque) (name : String) : Option (Value Opaque) := raw.lookup (lit name)

/-- `raw.get(name)`. -/
def get (raw : Mapping Opaque) (name : String) : Value Opaque := (field raw name).getD .null

/-- A text with more than space in it, stripped. -/
def text? : Value Opaque → Option Str
  | .str text => if isBlank text = true then none else some (strip text)
  | _ => none

/-- Some such texts. -/
def texts? : List (Value Opaque) → Option (List Str)
  | [] => some []
  | value :: values =>
    match text? value, texts? values with
    | some text, some texts => some (text :: texts)
    | _, _ => none

/-- `_required_text`, which notes an error when there is none. -/
def requiredText (value : Value Opaque) : Option Str := text? value

/-- `_optional_text`. -/
def optionalText (value : Value Opaque) : Option Str := text? value

/-- The `audience`, each name once. -/
def audienceOf (unicode : Casefold) : Value Opaque → Option (List Str)
  | .null => some []
  | .array items => (texts? items).map fun texts => (texts.map unicode.casefold).eraseDups
  | _ => none

/-- The `priority`, unless the name is there with no exact integer in the range. -/
def priorityOf (raw : Mapping Opaque) : Option ℤ :=
  match field raw "priority" with
  | none => some defaultPriority
  | some (.int priority) => if minPriority ≤ priority ∧ priority ≤ maxPriority then some priority else none
  | some _ => none

/-- `requires_ack`. -/
def requiresAckOf (raw : Mapping Opaque) : Option Bool :=
  match field raw "requires_ack" with
  | none => some false
  | some (.bool b) => some b
  | some _ => none

/-- `source_refs`. -/
def sourceRefsOf (raw : Mapping Opaque) : Option (List Str) :=
  match field raw "source_refs" with
  | none => some []
  | some .null => some []
  | some (.array items) => texts? items
  | some _ => none

/-! ### Validation -/

def rejected (errors : List String) : EnvelopeResult Opaque := ⟨.rejected, none, errors⟩

/-- The names of the fields that have no value. -/
def errorsOf (fields : List (String × Bool)) : List String := (fields.filter (!·.2)).map (·.1)

/-- The fields that the taxonomy is about. -/
structure Heading where
  sender : Str
  domain : Str
  intent : Str

/-- The first checks: they give the heading, or the result that ends the validation. -/
def headingOf (unicode : Casefold) (raw : Mapping Opaque) : Except (EnvelopeResult Opaque) Heading :=
  let missing := ["schema_version", "sender", "domain", "intent", "payload"].filter fun name => (field raw name).isNone
  if missing ≠ [] then .error (rejected missing)
  else
    match field raw "schema_version" with
    | some (.int 1) =>
      match requiredText (get raw "sender"), (requiredText (get raw "domain")).map unicode.casefold,
          (requiredText (get raw "intent")).map unicode.casefold with
      | some sender, some domain, some intent =>
        let unknown := errorsOf [("domain", domain ∈ allowedDomains), ("intent", intent ∈ allowedIntents)]
        if unknown ≠ [] then .error ⟨.dlq, none, unknown⟩ else .ok ⟨sender, domain, intent⟩
      | sender, domain, intent =>
        .error (rejected (errorsOf [("sender", sender.isSome), ("domain", domain.isSome), ("intent", intent.isSome)]))
    | _ => .error (rejected ["schema_version"])

/-- The fields that have defaults. -/
structure Details where
  messageId : Str
  createdAt : Str
  audience : List Str
  priority : ℤ
  requiresAck : Bool
  sourceRefs : List Str
  normalized : Bool

/-- The checks after the taxonomy. -/
def detailsOf (unicode : Casefold) (fresh : Fresh) (raw : Mapping Opaque) : Except (EnvelopeResult Opaque) Details :=
  match audienceOf unicode (get raw "audience"), priorityOf raw, requiresAckOf raw, sourceRefsOf raw with
  | some audience, some priority, some requiresAck, some sourceRefs =>
    let messageId := text? (get raw "message_id")
    let createdAt := text? (get raw "created_at")
    .ok {
      messageId := messageId.getD (lit ("rad_" ++ fresh.uuid.text))
      createdAt := createdAt.getD fresh.now
      audience, priority, requiresAck, sourceRefs
      normalized := messageId.isNone || createdAt.isNone || (get raw "audience") matches .null || (field raw "priority").isNone }
  | audience, priority, requiresAck, sourceRefs =>
    .error (rejected (errorsOf [("audience", audience.isSome), ("priority", priority.isSome),
      ("requires_ack", requiresAck.isSome), ("source_refs", sourceRefs.isSome)]))

/-- `json.dumps(payload, sort_keys=True)`. -/
def payloadFormat : Format := ⟨lit ", ", lit ": ", true, false⟩

/-- `json.dumps(canonical, sort_keys=True, separators=(",", ":"), ensure_ascii=False)`. -/
def canonicalFormat : Format := ⟨lit ",", lit ":", false, false⟩

/-- What `content_hash` is the hash of. -/
def canonical (heading : Heading) (audience : List Str) (payload : Value Opaque) : Value Opaque :=
  .object [(lit "schema_version", .int 1), (lit "sender", .str heading.sender),
    (lit "audience", .array (audience.map .str)), (lit "domain", .str heading.domain),
    (lit "intent", .str heading.intent), (lit "payload", payload)]

/-- `content_hash` and `idempotency_key`, unless the payload has no text. -/
def hashesOf (py : Interpreter Opaque) (heading : Heading) (audience : List Str) (payload : Value Opaque) :
    Except Raised (Option (Hex 64 × Hex 64)) :=
  match dumps py payloadFormat payload with
  | .error e => if e.isTypeOrValueError = true then .ok none else .error e
  | .ok payloadJson => do
    let canonicalJson ← dumps py canonicalFormat (canonical heading audience payload)
    let canonicalBytes ← encodeText canonicalJson
    let payloadBytes ← encodeText payloadJson
    return some (py.sha256 canonicalBytes, py.sha256 payloadBytes)

/-- The envelope of checked fields. -/
def envelopeOf (raw : Mapping Opaque) (heading : Heading) (details : Details) (hashes : Hex 64 × Hex 64) :
    RadarEnvelope Opaque where
  schemaVersion := 1
  messageId := details.messageId
  createdAt := details.createdAt
  sender := heading.sender
  audience := details.audience
  domain := heading.domain
  intent := heading.intent
  priority := details.priority
  payload := get raw "payload"
  contentHash := hashes.1
  idempotencyKey := hashes.2
  correlationId := optionalText (get raw "correlation_id")
  rootTaskId := optionalText (get raw "root_task_id")
  causalParentId := optionalText (get raw "causal_parent_id")
  requiresAck := details.requiresAck
  expiresAt := optionalText (get raw "expires_at")
  authorityRef := optionalText (get raw "authority_ref")
  sourceRefs := details.sourceRefs

/-- `RadarEnvelope.from_mapping`. -/
def fromMapping (py : Interpreter Opaque) (fresh : Fresh) (raw : Mapping Opaque) :
    Except Raised (EnvelopeResult Opaque) :=
  match headingOf py.unicode raw with
  | .error result => .ok result
  | .ok heading =>
    match detailsOf py.unicode fresh raw with
    | .error result => .ok result
    | .ok details =>
      match hashesOf py heading details.audience (get raw "payload") with
      | .error e => .error e
      | .ok none => .ok (rejected ["payload"])
      | .ok (some hashes) =>
        .ok ⟨if details.normalized = true then .normalized else .valid, some (envelopeOf raw heading details hashes), []⟩

/-! ### What is checked -/

variable {py : Interpreter Opaque} {unicode : Casefold} {fresh : Fresh} {raw : Mapping Opaque}
  {heading : Heading} {details : Details} {result : EnvelopeResult Opaque}

/-- An envelope with a known domain and intent, and a priority in the range. -/
structure RadarEnvelope.Valid (envelope : RadarEnvelope Opaque) : Prop where
  domain : envelope.domain ∈ allowedDomains
  intent : envelope.intent ∈ allowedIntents
  priority : minPriority ≤ envelope.priority ∧ envelope.priority ≤ maxPriority

theorem errorsOf_cons (name : String) (passed : Bool) (fields : List (String × Bool)) :
    errorsOf ((name, passed) :: fields) = if passed = true then errorsOf fields else name :: errorsOf fields := by
  cases passed <;> rfl

theorem known_of_headingOf (h : headingOf unicode raw = .ok heading) :
    heading.domain ∈ allowedDomains ∧ heading.intent ∈ allowedIntents := by
  unfold headingOf at h
  dsimp only at h
  split at h
  · cases h
  split at h
  · split at h
    · next sender domain intent _ _ _ =>
      by_cases hdomain : domain ∈ allowedDomains
      · by_cases hintent : intent ∈ allowedIntents
        · simp only [errorsOf_cons, hdomain, hintent, decide_true, if_true] at h
          cases h
          exact ⟨hdomain, hintent⟩
        · simp [errorsOf_cons, hdomain, hintent] at h
      · simp [errorsOf_cons, hdomain] at h
    · cases h
  · cases h

theorem priority_of_priorityOf {priority : ℤ} (h : priorityOf raw = some priority) :
    minPriority ≤ priority ∧ priority ≤ maxPriority := by
  unfold priorityOf at h
  split at h
  · cases h
    decide
  · split at h
    · next hrange =>
      cases h
      exact hrange
    · cases h
  · cases h

theorem priority_of_detailsOf (h : detailsOf unicode fresh raw = .ok details) :
    minPriority ≤ details.priority ∧ details.priority ≤ maxPriority := by
  unfold detailsOf at h
  split at h
  · next hpriority _ _ =>
    cases h
    exact priority_of_priorityOf hpriority
  · cases h

theorem refused_of_headingOf (h : headingOf unicode raw = .error result) :
    result.envelope = none ∧ (result.classification = .dlq ∨ result.classification = .rejected) := by
  unfold headingOf at h
  dsimp only at h
  split at h
  · cases h
    exact ⟨rfl, .inr rfl⟩
  split at h
  · split at h
    · split at h
      · cases h
        exact ⟨rfl, .inl rfl⟩
      · cases h
    · cases h
      exact ⟨rfl, .inr rfl⟩
  · cases h
    exact ⟨rfl, .inr rfl⟩

theorem refused_of_detailsOf (h : detailsOf unicode fresh raw = .error result) :
    result.envelope = none ∧ result.classification = .rejected := by
  unfold detailsOf at h
  split at h
  · cases h
  · cases h
    exact ⟨rfl, rfl⟩

/-- What is returned is a refusal, or an envelope whose fields are checked. -/
theorem fromMapping_cases (h : fromMapping py fresh raw = .ok result) :
    (result.envelope = none ∧ (result.classification = .dlq ∨ result.classification = .rejected)) ∨
    ∃ envelope, result.envelope = some envelope ∧ envelope.Valid ∧
      (result.classification = .valid ∨ result.classification = .normalized) := by
  unfold fromMapping at h
  split at h
  · next hheading =>
    cases h
    exact .inl (refused_of_headingOf hheading)
  next heading hheading =>
  split at h
  · next hdetails =>
    cases h
    have hrefused := refused_of_detailsOf hdetails
    exact .inl ⟨hrefused.1, .inr hrefused.2⟩
  next details hdetails =>
  split at h
  · cases h
  · cases h
    exact .inl ⟨rfl, .inr rfl⟩
  · cases h
    have hknown := known_of_headingOf hheading
    refine .inr ⟨_, rfl, ⟨hknown.1, hknown.2, priority_of_detailsOf hdetails⟩, ?_⟩
    cases details.normalized
    · exact .inl rfl
    · exact .inr rfl

theorem fromMapping_valid {envelope : RadarEnvelope Opaque} (h : fromMapping py fresh raw = .ok result)
    (henvelope : result.envelope = some envelope) : envelope.Valid := by
  rcases fromMapping_cases h with ⟨hnone, -⟩ | ⟨envelope', henvelope', hvalid, -⟩
  · rw [henvelope] at hnone
    cases hnone
  · exact Option.some.inj (henvelope.symm.trans henvelope') ▸ hvalid

/-- An envelope that is returned is made of checked fields and their hashes. -/
theorem fromMapping_envelope {envelope : RadarEnvelope Opaque} (h : fromMapping py fresh raw = .ok result)
    (henvelope : result.envelope = some envelope) :
    ∃ heading details hashes, headingOf py.unicode raw = .ok heading ∧ detailsOf py.unicode fresh raw = .ok details ∧
      hashesOf py heading details.audience (get raw "payload") = .ok (some hashes) ∧
      envelope = envelopeOf raw heading details hashes ∧
      result.classification = if details.normalized = true then .normalized else .valid := by
  unfold fromMapping at h
  split at h
  · next hheading =>
    cases h
    rw [(refused_of_headingOf hheading).1] at henvelope
    cases henvelope
  next heading hheading =>
  split at h
  · next hdetails =>
    cases h
    rw [(refused_of_detailsOf hdetails).1] at henvelope
    cases henvelope
  next details hdetails =>
  split at h
  · cases h
  · cases h
    cases henvelope
  · next hashes hhashes =>
    cases h
    cases henvelope
    exact ⟨heading, details, hashes, hheading, hdetails, hhashes, rfl, rfl⟩

/-! ### Hashes of samples -/

theorem isHex_sampleContent : Postgres.isHex 64 "d18a65cfa9a9d601291e7334ab35b699d8a467564603999503be3da2d849f449" = true := by
  decide +kernel

theorem isHex_sampleKey : Postgres.isHex 64 "74234e98afe7498fb5daf1f36ac2d78acc339464f950703b8c019892f982b90b" = true := by decide +kernel

end CcbCore.Radar
