import CcbCore.Radar.Parsing
import CcbCore.Relay.Envelope

/-!
# Relay receipts

`RelayReceipt` of `src/radar/workstation_relay_state.py`, as a dictionary and back. What
comes back is converted field by field, as the JSON it is read from could be any.
-/

namespace CcbCore.Relay

open CcbCore.CodePoints CcbCore.Radar

/-- The states of a relay. -/
inductive RelayState where
  | created
  | busBound
  | targetDiscovered
  | targetVerifiedPrewrite
  | composerPopulated
  | targetReverifiedPresubmit
  | submitted
  | renderedReadbackVerified
  | ackPending
  | sourceBusUnverified
  | targetNotFound
  | targetAmbiguous
  | targetChangedPreSubmit
  | composerWriteFailed
  | submitNotEstablished
  | submittedUnverified
  | ackTimeout
  | ackMismatch
  | ackVerified
  deriving DecidableEq, Repr

def RelayState.text (state : RelayState) : Str :=
  lit <| match state with
    | .created => "CREATED"
    | .busBound => "BUS_BOUND"
    | .targetDiscovered => "TARGET_DISCOVERED"
    | .targetVerifiedPrewrite => "TARGET_VERIFIED_PREWRITE"
    | .composerPopulated => "COMPOSER_POPULATED"
    | .targetReverifiedPresubmit => "TARGET_REVERIFIED_PRESUBMIT"
    | .submitted => "SUBMITTED"
    | .renderedReadbackVerified => "RENDERED_READBACK_VERIFIED"
    | .ackPending => "ACK_PENDING"
    | .sourceBusUnverified => "SOURCE_BUS_UNVERIFIED"
    | .targetNotFound => "TARGET_NOT_FOUND"
    | .targetAmbiguous => "TARGET_AMBIGUOUS"
    | .targetChangedPreSubmit => "TARGET_CHANGED_PRE_SUBMIT"
    | .composerWriteFailed => "COMPOSER_WRITE_FAILED"
    | .submitNotEstablished => "SUBMIT_NOT_ESTABLISHED"
    | .submittedUnverified => "SUBMITTED_UNVERIFIED"
    | .ackTimeout => "ACK_TIMEOUT"
    | .ackMismatch => "ACK_MISMATCH"
    | .ackVerified => "ACK_VERIFIED"

structure RelayReceipt where
  protocol : Str
  sender : Str
  recipient : Str
  messageId : Str
  nonce : Str
  sourceBusMessageId : Str
  sourceBusCommit : Str
  bodySha256 : Str
  finalState : Str
  transitions : List Str
  transitionTimes : List (Str × Str)
  targetWindowHandle : Option ℤ
  targetToken : Option Str
  prewriteNormalizedUrlPath : Option Str
  prewriteVisibleIdentity : Option Str
  prewriteSelectorDigest : Option Str
  presubmitNormalizedUrlPath : Option Str
  presubmitVisibleIdentity : Option Str
  presubmitSelectorDigest : Option Str
  renderedMessageVerified : Bool
  renderedMessageSha256 : Option Str
  ackBody : Option Str
  ackStatus : Option Str
  ackSha256 : Option Str
  sideEffectBeyondVisibleText : Bool := false
  deriving DecidableEq

/-- `to_dict`. -/
def RelayReceipt.toDict (receipt : RelayReceipt) : Mapping Empty :=
  [(lit "protocol", .str receipt.protocol),
    (lit "sender", .str receipt.sender),
    (lit "recipient", .str receipt.recipient),
    (lit "message_id", .str receipt.messageId),
    (lit "nonce", .str receipt.nonce),
    (lit "source_bus_message_id", .str receipt.sourceBusMessageId),
    (lit "source_bus_commit", .str receipt.sourceBusCommit),
    (lit "body_sha256", .str receipt.bodySha256),
    (lit "final_state", .str receipt.finalState),
    (lit "transitions", .array (receipt.transitions.map .str)),
    (lit "transition_times", .object (receipt.transitionTimes.map fun time => (time.1, .str time.2))),
    (lit "target_window_handle", (receipt.targetWindowHandle.map .int).getD .null),
    (lit "target_token", optionalValue receipt.targetToken),
    (lit "prewrite_normalized_url_path", optionalValue receipt.prewriteNormalizedUrlPath),
    (lit "prewrite_visible_identity", optionalValue receipt.prewriteVisibleIdentity),
    (lit "prewrite_selector_digest", optionalValue receipt.prewriteSelectorDigest),
    (lit "presubmit_normalized_url_path", optionalValue receipt.presubmitNormalizedUrlPath),
    (lit "presubmit_visible_identity", optionalValue receipt.presubmitVisibleIdentity),
    (lit "presubmit_selector_digest", optionalValue receipt.presubmitSelectorDigest),
    (lit "rendered_message_verified", .bool receipt.renderedMessageVerified),
    (lit "rendered_message_sha256", optionalValue receipt.renderedMessageSha256),
    (lit "ack_body", optionalValue receipt.ackBody),
    (lit "ack_status", optionalValue receipt.ackStatus),
    (lit "ack_sha256", optionalValue receipt.ackSha256),
    (lit "side_effect_beyond_visible_text", .bool receipt.sideEffectBeyondVisibleText)]

/-! ### Reading -/

/-- `str(value)`. -/
def strOf (decoder : Decoder Empty) : Value Empty → Str
  | .str text => text
  | .int n => lit (toString n)
  | .float text => lit text
  | .bool b => lit (if b = true then "True" else "False")
  | .null => lit "None"
  | value => decoder.reprOf value

/-- `int(value)`. -/
def intOf (decoder : Decoder Empty) : Value Empty → Except Exc ℤ
  | .int n => .ok n
  | .bool b => .ok (if b = true then 1 else 0)
  | .float text => (decoder.intOf (.float text)).mapError .raised
  | .str text => (decoder.intOf (.str text)).mapError .raised
  | _ => .error (.raised .typeError)

/-- `bool(value)`. -/
def boolOf : Value Empty → Bool
  | .null => false
  | .bool b => b
  | .int n => n ≠ 0
  | .float text => text ≠ "0.0" ∧ text ≠ "-0.0"
  | .str text => text ≠ []
  | .array items => !items.isEmpty
  | .object fields => !fields.isEmpty
  | .other o => o.elim

/-- `value[name]`. -/
def item (fields : Mapping Empty) (name : String) : Except Exc (Value Empty) :=
  match field fields name with
  | some value => .ok value
  | none => .error (.raised (.other "KeyError"))

/-- `str(value[name])`. -/
def strItem (decoder : Decoder Empty) (fields : Mapping Empty) (name : String) : Except Exc Str :=
  strOf decoder <$> item fields name

/-- `str(value[name]) if value.get(name) is not None else None`. -/
def optionalStr (decoder : Decoder Empty) (fields : Mapping Empty) (name : String) : Option Str :=
  match get fields name with
  | .null => none
  | value => some (strOf decoder value)

/-- `int(value[name]) if value.get(name) is not None else None`. -/
def optionalInt (decoder : Decoder Empty) (fields : Mapping Empty) (name : String) : Except Exc (Option ℤ) :=
  match get fields name with
  | .null => .ok none
  | value => some <$> intOf decoder value

/-- `from_dict` of a dictionary. -/
def RelayReceipt.ofFields (decoder : Decoder Empty) (fields : Mapping Empty) : Except Exc RelayReceipt :=
  match get fields "transitions", get fields "transition_times" with
  | .array transitions, .object times => do
    let protocol ← strItem decoder fields "protocol"
    let sender ← strItem decoder fields "sender"
    let recipient ← strItem decoder fields "recipient"
    let messageId ← strItem decoder fields "message_id"
    let nonce ← strItem decoder fields "nonce"
    let sourceBusMessageId ← strItem decoder fields "source_bus_message_id"
    let sourceBusCommit ← strItem decoder fields "source_bus_commit"
    let bodySha256 ← strItem decoder fields "body_sha256"
    let finalState ← strItem decoder fields "final_state"
    let targetWindowHandle ← optionalInt decoder fields "target_window_handle"
    let renderedMessageVerified ← boolOf <$> item fields "rendered_message_verified"
    return {
      protocol, sender, recipient, messageId, nonce, sourceBusMessageId, sourceBusCommit, bodySha256, finalState
      transitions := transitions.map (strOf decoder)
      transitionTimes := times.map fun time => (time.1, strOf decoder time.2)
      targetWindowHandle
      targetToken := optionalStr decoder fields "target_token"
      prewriteNormalizedUrlPath := optionalStr decoder fields "prewrite_normalized_url_path"
      prewriteVisibleIdentity := optionalStr decoder fields "prewrite_visible_identity"
      prewriteSelectorDigest := optionalStr decoder fields "prewrite_selector_digest"
      presubmitNormalizedUrlPath := optionalStr decoder fields "presubmit_normalized_url_path"
      presubmitVisibleIdentity := optionalStr decoder fields "presubmit_visible_identity"
      presubmitSelectorDigest := optionalStr decoder fields "presubmit_selector_digest"
      renderedMessageVerified
      renderedMessageSha256 := optionalStr decoder fields "rendered_message_sha256"
      ackBody := optionalStr decoder fields "ack_body"
      ackStatus := optionalStr decoder fields "ack_status"
      ackSha256 := optionalStr decoder fields "ack_sha256"
      sideEffectBeyondVisibleText := ((field fields "side_effect_beyond_visible_text").map boolOf).getD false }
  | _, _ => .error (.relayStateError (lit "INVALID_RELAY_RECEIPT"))

/-- `RelayReceipt.from_dict(value)`. -/
def RelayReceipt.fromDict (decoder : Decoder Empty) : Value Empty → Except Exc RelayReceipt
  | .object fields => RelayReceipt.ofFields decoder fields
  | _ => .error (.raised (.other "AttributeError"))

/-- `RelayReceipt.from_dict(json.loads(text))`. -/
def RelayReceipt.decode (decoder : Decoder Empty) (text : Str) : Except Exc RelayReceipt :=
  match loads decoder text with
  | .ok value => RelayReceipt.fromDict decoder value
  | .error e => .error (.raised e)

/-- An integer that the interpreter prints. -/
def printable (n : ℤ) : Bool := n.natAbs < 10 ^ maxDigits

/-- `json.dumps(receipt.to_dict(), sort_keys=True, separators=(",", ":"), ensure_ascii=False)`. -/
def RelayReceipt.encode (py : Interpreter Empty) (receipt : RelayReceipt) : Except Exc Str :=
  if receipt.targetWindowHandle.all printable = true then (dumps py canonicalFormat (.object receipt.toDict)).mapError .raised
  else .error (.raised (.valueError "Exceeds the limit for integer string conversion"))

end CcbCore.Relay
