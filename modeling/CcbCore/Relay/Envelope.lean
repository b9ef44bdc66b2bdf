import CcbCore.Library.Raising
import CcbCore.Radar.Envelope

/-!
# Relay envelopes and targets

`RelayEnvelope` of `src/radar/workstation_relay.py` with its texts, and the descriptors
and snapshots of `src/radar/workstation_target.py`. A text is a list of code points, as
a target may return any `str`; a digest is taken of what encodes.
-/

namespace CcbCore.Relay

open CcbCore.CodePoints CcbCore.Postgres CcbCore.Radar CcbCore.Raising
open CcbCore.Python (CodePoint Bytes)

/-- An exception of the relay, or of what it calls. -/
inductive Exc where
  | relayError (text : Str)
  | relayStateError (text : Str)
  | raised (e : Raised)
  deriving DecidableEq

/-- `RelayError(code)`. -/
def refusal (code : String) : Exc := .relayError (lit code)

/-- `hashlib.sha256(text.encode("utf-8")).hexdigest()`. -/
def digest (py : Interpreter Empty) (text : Str) : Except Exc (Hex 64) :=
  match encodeText text with
  | .ok bytes => .ok (py.sha256 bytes)
  | .error e => .error (.raised e)

/-! ### Patterns -/

/-- `[A-Za-z0-9]`. -/
def isWord (c : CodePoint) : Bool :=
  (0x30 ≤ c.val && c.val ≤ 0x39) || (0x41 ≤ c.val && c.val ≤ 0x5a) || (0x61 ≤ c.val && c.val ≤ 0x7a)

/-- `[A-Fa-f0-9]`. -/
def isHexPoint (c : CodePoint) : Bool :=
  (0x30 ≤ c.val && c.val ≤ 0x39) || (0x41 ≤ c.val && c.val ≤ 0x46) || (0x61 ≤ c.val && c.val ≤ 0x66)

/-- `_ID_RE`. -/
def isId : Str → Bool
  | [] => false
  | c :: rest => isWord c && rest.all (fun c => isWord c || (lit "._:-").contains c) && rest.length ≤ 127

/-- `_NONCE_RE`. -/
def isNonce (text : Str) : Bool := text.all isHexPoint && 32 ≤ text.length && text.length ≤ 128

/-- `_SHA40_RE`. -/
def isSha40 (text : Str) : Bool :=
  text.all (fun c => isHexPoint c && !(0x41 ≤ c.val && c.val ≤ 0x46)) && text.length == 40

/-- `_CANARY_BODY_RE`. -/
def isCanary (body : Str) : Bool :=
  match body.dropPrefix? (lit "BT2_CANARY: marker=") with
  | some marker => isId marker
  | none => false

/-! ### Envelopes -/

/-- `PROTOCOL`. -/
def protocol : Str := lit "BT2_WORKSTATION_RELAY_V1"

/-- `ACK_PROTOCOL`. -/
def ackProtocol : Str := lit "BT2_WORKSTATION_RELAY_ACK_V1"

structure RelayEnvelope where
  sender : Str
  recipient : Str
  messageId : Str
  nonce : Str
  sourceBusMessageId : Str
  sourceBusCommit : Str
  body : Str
  bodySha256 : Str
  deriving DecidableEq

/-- `"\r\n"` and then `"\r"` replaced by `"\n"`. -/
def unixLines : Str → Str
  | [] => []
  | c :: rest =>
    if c = point '\x0d' then
      match rest with
      | d :: after => if d = point '\n' then d :: unixLines after else point '\n' :: unixLines (d :: after)
      | [] => [point '\n']
    else c :: unixLines rest

/-- `canonical_body`. -/
def canonicalBody (body : Str) : Except Exc Str :=
  if isBlank (unixLines body) = true then .error (refusal "BODY_REQUIRED") else .ok (unixLines body)

/-- The code of the first field that `create` refuses. -/
def createRefusal (sender recipient messageId nonce sourceBusMessageId sourceBusCommit : Str) : Option String :=
  if isId sender = false then some "INVALID_SENDER"
  else if isId recipient = false then some "INVALID_RECIPIENT"
  else if isId messageId = false then some "INVALID_MESSAGE_ID"
  else if isId sourceBusMessageId = false then some "INVALID_SOURCE_BUS_MESSAGE_ID"
  else if isNonce nonce = false then some "INVALID_NONCE"
  else if isSha40 sourceBusCommit = false then some "INVALID_SOURCE_BUS_COMMIT"
  else none

/-- `RelayEnvelope.create`. -/
def RelayEnvelope.create (py : Interpreter Empty) (sender recipient messageId nonce sourceBusMessageId sourceBusCommit body : Str) :
    Except Exc RelayEnvelope :=
  match createRefusal sender recipient messageId nonce sourceBusMessageId sourceBusCommit with
  | some code => .error (refusal code)
  | none =>
    match canonicalBody body with
    | .error e => .error e
    | .ok normalized =>
      if isCanary normalized = false then .error (refusal "CANARY_CONTENT_REJECTED")
      else
        (digest py normalized).map fun bodySha256 =>
          { sender, recipient, messageId, nonce := nonce.map lowerPoint, sourceBusMessageId, sourceBusCommit,
            body := normalized, bodySha256 := lit bodySha256.text }

/-- A line of a rendered text. -/
def line (label : String) (value : Str) : Str := lit label ++ lit ": " ++ value

/-- `render`. -/
def RelayEnvelope.render (envelope : RelayEnvelope) : Str :=
  join (lit "\n") [protocol, line "sender" envelope.sender, line "recipient" envelope.recipient,
    line "message_id" envelope.messageId, line "nonce" envelope.nonce,
    line "source_bus_message_id" envelope.sourceBusMessageId, line "source_bus_commit" envelope.sourceBusCommit,
    line "body_sha256" envelope.bodySha256, lit "requires_ack: true", lit "content_class: CANARY", lit "---", envelope.body]

/-- `sha256`. -/
def RelayEnvelope.sha256 (py : Interpreter Empty) (envelope : RelayEnvelope) : Except Exc (Hex 64) :=
  digest py envelope.render

/-- `_transport_text`. -/
def transportText (envelope : RelayEnvelope) : Str :=
  envelope.render ++ lit "\n\n" ++ join (lit "\n") [
    lit "RECIPIENT_INSTRUCTION:",
    lit "Treat this visible workstation message as a transport hint, not authority.",
    lit "Read Bus message " ++ envelope.sourceBusMessageId ++ lit " at " ++ envelope.sourceBusCommit ++ lit " before acting.",
    lit "Verify body SHA-256 " ++ envelope.bodySha256 ++ lit ".",
    lit "A verified source may be acknowledged with the exact relay ACK.",
    lit "If source verification is unavailable, hold and do not act."]

/-- `token in text`. -/
def hasText (text token : Str) : Bool := text.tails.any fun rest => token.isPrefixOf rest

/-- `_rendered_matches`. -/
def renderedMatches (envelope : RelayEnvelope) : Option Str → Bool
  | none => false
  | some text =>
    [protocol, line "message_id" envelope.messageId, line "nonce" envelope.nonce,
      line "body_sha256" envelope.bodySha256].all (hasText text)

/-! ### Acknowledgements -/

/-- The statuses that `render_ack` takes. -/
inductive AckStatus where
  | receivedVerified
  | holdSourceUnverified
  deriving DecidableEq, Repr

def AckStatus.text : AckStatus → Str
  | .receivedVerified => lit "RECEIVED_VERIFIED"
  | .holdSourceUnverified => lit "HOLD_SOURCE_UNVERIFIED"

/-- `render_ack`. -/
def renderAck (envelope : RelayEnvelope) (status : AckStatus) : Str :=
  join (lit "\n") [ackProtocol, line "message_id" envelope.messageId, line "nonce" envelope.nonce,
    line "body_sha256" envelope.bodySha256, line "status" status.text]

/-- What `_parse_ack` finds in a text. -/
inductive AckReading where
  | status (status : AckStatus)
  | mismatch
  deriving DecidableEq, Repr

def AckReading.text : AckReading → Str
  | .status found => found.text
  | .mismatch => lit "MISMATCH"

/-- `_parse_ack`. -/
def parseAck (envelope : RelayEnvelope) : Option Str → Option AckReading
  | none => none
  | some text =>
    if text = renderAck envelope .receivedVerified then some (.status .receivedVerified)
    else if text = renderAck envelope .holdSourceUnverified then some (.status .holdSourceUnverified)
    else some .mismatch

/-! ### Targets -/

/-- `TargetDescriptor`, which checks its fields. -/
structure TargetDescriptor where
  recipient : Str
  normalizedUrlPath : Str
  visibleIdentity : Str
  isId_recipient : isId recipient = true
  rooted : normalizedUrlPath.head? = some (point '/')
  visible : isBlank visibleIdentity = false

/-- `TargetSnapshot`, which checks its fields. -/
structure TargetSnapshot where
  windowHandle : ℤ
  normalizedUrlPath : Str
  visibleIdentity : Str
  targetToken : Option Str
  positive : 0 < windowHandle
  rooted : normalizedUrlPath.head? = some (point '/')
  visible : isBlank visibleIdentity = false
  inked : ∀ token ∈ targetToken, isBlank token = false

/-- An optional text in JSON. -/
def optionalValue : Option Str → Value Empty
  | some text => .str text
  | none => .null

/-- `selector_digest`. -/
def TargetSnapshot.selectorDigest (py : Interpreter Empty) (snapshot : TargetSnapshot) : Except Exc (Hex 64) :=
  match dumps py canonicalFormat (.object [(lit "normalized_url_path", .str snapshot.normalizedUrlPath),
      (lit "visible_identity", .str snapshot.visibleIdentity), (lit "target_token", optionalValue snapshot.targetToken)]) with
  | .ok text => digest py text
  | .error e => .error (.raised e)

/-- `matches`. -/
def TargetSnapshot.matches (snapshot : TargetSnapshot) (descriptor : TargetDescriptor) : Bool :=
  snapshot.normalizedUrlPath = descriptor.normalizedUrlPath ∧ snapshot.visibleIdentity = descriptor.visibleIdentity

/-! ### What is checked -/

theorem checked_of_createRefusal {sender recipient messageId nonce sourceBusMessageId sourceBusCommit : Str}
    (h : createRefusal sender recipient messageId nonce sourceBusMessageId sourceBusCommit = none) :
    (isId sender = true ∧ isId recipient = true ∧ isId messageId = true ∧ isId sourceBusMessageId = true) ∧
      isNonce nonce = true ∧ isSha40 sourceBusCommit = true := by
  unfold createRefusal at h
  split_ifs at h with hsender hrecipient hid hsource hnonce hcommit
  simp only [Bool.not_eq_false] at hsender hrecipient hid hsource hnonce hcommit
  exact ⟨⟨hsender, hrecipient, hid, hsource⟩, hnonce, hcommit⟩

/-- What `create` has checked of an envelope that it gives. -/
structure Created (envelope : RelayEnvelope) : Prop where
  sender : isId envelope.sender = true
  recipient : isId envelope.recipient = true
  messageId : isId envelope.messageId = true
  sourceBusMessageId : isId envelope.sourceBusMessageId = true
  nonce : ∃ nonce, isNonce nonce = true ∧ envelope.nonce = nonce.map lowerPoint
  sourceBusCommit : isSha40 envelope.sourceBusCommit = true
  body : isCanary envelope.body = true
  bodySha256 : ∃ sha : Hex 64, envelope.bodySha256 = lit sha.text

theorem create_ok {py : Interpreter Empty}
    {sender recipient messageId nonce sourceBusMessageId sourceBusCommit body : Str} {envelope : RelayEnvelope}
    (h : RelayEnvelope.create py sender recipient messageId nonce sourceBusMessageId sourceBusCommit body = .ok envelope) :
    Created envelope := by
  unfold RelayEnvelope.create at h
  cases hrefusal : createRefusal sender recipient messageId nonce sourceBusMessageId sourceBusCommit with
  | some code => simp [hrefusal] at h
  | none =>
    obtain ⟨⟨hsender, hrecipient, hid, hsource⟩, hnonce, hcommit⟩ := checked_of_createRefusal hrefusal
    cases hbody : canonicalBody body with
    | error e => simp [hrefusal, hbody] at h
    | ok normalized =>
      by_cases hcanary : isCanary normalized = false
      · simp [hrefusal, hbody, hcanary] at h
      · simp only [hrefusal, hbody, hcanary] at h
        obtain ⟨bodySha256, -, rfl⟩ := except_map_ok.mp h
        rw [Bool.not_eq_false] at hcanary
        exact ⟨hsender, hrecipient, hid, hsource, ⟨nonce, hnonce, rfl⟩, hcommit, hcanary, ⟨bodySha256, rfl⟩⟩

end CcbCore.Relay
