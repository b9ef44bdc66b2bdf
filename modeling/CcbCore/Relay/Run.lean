import CcbCore.Relay.Store

/-!
# A relay's run

`WorkstationRelay.run` of `src/radar/workstation_relay.py`, one definition a step of the
way: the claim, the source, the target, the two snapshots around the composer, the
submission, the readback and the acknowledgement. Each of them ends in `finish`, or goes
on with the next.
-/

namespace CcbCore.Relay

open CcbCore.CodePoints CcbCore.Postgres CcbCore.Radar

/-- The arguments of `run`; a readback that has polled `polls` times in vain is cut off. -/
structure Arguments where
  envelope : RelayEnvelope
  descriptor : TargetDescriptor
  ackTimeoutSeconds : Seconds
  renderedReadbackTimeoutSeconds : Seconds
  renderedPollSeconds : Seconds
  polls : ℕ

/-- What the receipt says of a snapshot. -/
structure Selectors where
  normalizedUrlPath : Str
  visibleIdentity : Str
  selectorDigest : Hex 64

/-- What a run has noted for its receipt. -/
structure Attempt where
  transitions : List RelayState
  times : List (Str × Str)
  handle : Option ℤ := none
  targetToken : Option Str := none
  prewrite : Option Selectors := none
  presubmit : Option Selectors := none
  renderedVerified : Bool := false
  renderedSha256 : Option (Hex 64) := none
  ackBody : Option Str := none
  ackStatus : Option AckReading := none
  ackSha256 : Option (Hex 64) := none

namespace Attempt

variable (a : Attempt)

/-- The next state, and its time. -/
def reached (state : RelayState) (time : Str) : Attempt :=
  { a with transitions := a.transitions ++ [state], times := setField a.times state.text time }

/-- The target that was found. -/
def found (selected : TargetSnapshot) : Attempt :=
  { a with handle := some selected.windowHandle, targetToken := selected.targetToken }

/-- A rendered text is digested. -/
def read (py : Interpreter Empty) (rendered : Option Str) : Except Exc Attempt :=
  match rendered with
  | some text => (digest py text).map fun sha256 => { a with renderedSha256 := some sha256 }
  | none => .ok a

/-- An acknowledgement is digested. -/
def acked (py : Interpreter Empty) (ack : Option Str) : Except Exc Attempt :=
  match ack with
  | some text => (digest py text).map fun sha256 => { a with ackBody := some text, ackSha256 := some sha256 }
  | none => .ok a

/-- The receipt. -/
def receipt (envelope : RelayEnvelope) (finalState : RelayState) : RelayReceipt where
  protocol := protocol
  sender := envelope.sender
  recipient := envelope.recipient
  messageId := envelope.messageId
  nonce := envelope.nonce
  sourceBusMessageId := envelope.sourceBusMessageId
  sourceBusCommit := envelope.sourceBusCommit
  bodySha256 := envelope.bodySha256
  finalState := finalState.text
  transitions := a.transitions.map RelayState.text
  transitionTimes := a.times
  targetWindowHandle := a.handle
  targetToken := a.targetToken
  prewriteNormalizedUrlPath := a.prewrite.map (·.normalizedUrlPath)
  prewriteVisibleIdentity := a.prewrite.map (·.visibleIdentity)
  prewriteSelectorDigest := a.prewrite.map fun selectors => lit selectors.selectorDigest.text
  presubmitNormalizedUrlPath := a.presubmit.map (·.normalizedUrlPath)
  presubmitVisibleIdentity := a.presubmit.map (·.visibleIdentity)
  presubmitSelectorDigest := a.presubmit.map fun selectors => lit selectors.selectorDigest.text
  renderedMessageVerified := a.renderedVerified
  renderedMessageSha256 := a.renderedSha256.map fun sha256 => lit sha256.text
  ackBody := a.ackBody
  ackStatus := a.ackStatus.map AckReading.text
  ackSha256 := a.ackSha256.map fun sha256 => lit sha256.text

end Attempt

variable (py : Interpreter Empty) (args : Arguments)

/-- `_now_iso()`. -/
def nowIso : Program Str := Prog.ask (I := Calls) .nowIso

/-- What the rows of an envelope are bound to. -/
def bindingOf (envelope : RelayEnvelope) : Except Exc Binding :=
  (envelope.sha256 py).map fun sha256 => ⟨envelope.messageId, envelope.nonce, lit sha256.text⟩

/-- `advance`. -/
def advance (state : RelayState) (a : Attempt) : Program Attempt := do
  let binding ← Prog.lift (bindingOf py args.envelope)
  let updatedAt ← nowIso
  setState binding state.text updatedAt
  let time ← nowIso
  return a.reached state time

/-- The final state is noted, if it is not the last one already. -/
def close (finalState : RelayState) (a : Attempt) : Program Attempt :=
  if a.transitions.getLast? = some finalState then pure a
  else do
    let time ← nowIso
    return a.reached finalState time

/-- `finish`. -/
def finish (finalState : RelayState) (a : Attempt) : Program RelayReceipt := do
  let a ← close finalState a
  let binding ← Prog.lift (bindingOf py args.envelope)
  let updatedAt ← nowIso
  finalize py binding (a.receipt args.envelope finalState) updatedAt
  return a.receipt args.envelope finalState

/-- The acknowledgement is awaited. -/
def acknowledge (selected : TargetSnapshot) (a : Attempt) : Program RelayReceipt := do
  let ack ← tryAsk (.waitForAck selected.windowHandle selected.targetToken args.envelope.messageId args.ackTimeoutSeconds)
  let a ← Prog.lift (a.acked py ack.join)
  match parseAck args.envelope ack.join with
  | none => finish py args .ackTimeout a
  | some .mismatch => finish py args .ackMismatch { a with ackStatus := some .mismatch }
  | some (.status .receivedVerified) => finish py args .ackVerified { a with ackStatus := some (.status .receivedVerified) }
  | some (.status .holdSourceUnverified) =>
    finish py args .sourceBusUnverified { a with ackStatus := some (.status .holdSourceUnverified) }

/-- The rendered text is read until it matches or the deadline is over. -/
def readBack (selected : TargetSnapshot) (deadline : Seconds) : ℕ → Attempt → Program RelayReceipt
  | 0, _ => throw (.raised (.other "cut off"))
  | polls + 1, a => do
    let rendered ← tryAsk (.readRendered selected.windowHandle selected.targetToken args.envelope.messageId)
    let a ← Prog.lift (a.read py rendered.join)
    if renderedMatches args.envelope rendered.join = true then do
      let a ← advance py args .renderedReadbackVerified { a with renderedVerified := true }
      let a ← advance py args .ackPending a
      acknowledge py args selected a
    else do
      let now : ℚ ← Prog.ask (I := Calls) .monotonic
      if (deadline.add (-now)).isSpent = true then finish py args .submittedUnverified a
      else do
        Prog.ask (I := Calls) (.sleep (args.renderedPollSeconds.min (deadline.add (-now))))
        readBack selected deadline polls a

/-- The message is submitted. -/
def submit (selected : TargetSnapshot) (a : Attempt) : Program RelayReceipt := do
  match ← tryAsk (.submit args.envelope.messageId selected.windowHandle selected.targetToken) with
  | none => finish py args .submitNotEstablished a
  | some _ =>
    let a ← advance py args .submitted a
    let start : ℚ ← Prog.ask (I := Calls) .monotonic
    readBack py args selected (args.renderedReadbackTimeoutSeconds.add start) args.polls a

/-- The target is verified again, right before the submission. -/
def reverify (selected : TargetSnapshot) (prewrite : Selectors) (a : Attempt) : Program RelayReceipt := do
  match ← tryAsk (.snapshot selected.windowHandle selected.targetToken) with
  | none => finish py args .targetChangedPreSubmit a
  | some presubmit =>
    let selectorDigest ← Prog.lift (presubmit.selectorDigest py)
    let a := { a with presubmit := some ⟨presubmit.normalizedUrlPath, presubmit.visibleIdentity, selectorDigest⟩ }
    if presubmit.windowHandle ≠ selected.windowHandle ∨ presubmit.matches args.descriptor = false ∨
        selectorDigest ≠ prewrite.selectorDigest then
      finish py args .targetChangedPreSubmit a
    else do
      let a ← advance py args .targetReverifiedPresubmit a
      submit py args selected a

/-- The text is written into the composer. -/
def populate (selected : TargetSnapshot) (prewrite : Selectors) (a : Attempt) : Program RelayReceipt := do
  match ← tryAsk (.populate selected.windowHandle selected.targetToken (transportText args.envelope)) with
  | none => finish py args .composerWriteFailed a
  | some _ =>
    let a ← advance py args .composerPopulated a
    reverify py args selected prewrite a

/-- The target is verified before anything is written. -/
def verifyPrewrite (selected : TargetSnapshot) (a : Attempt) : Program RelayReceipt := do
  match ← tryAsk (.snapshot selected.windowHandle selected.targetToken) with
  | none => finish py args .targetChangedPreSubmit a
  | some prewrite =>
    let selectorDigest ← Prog.lift (prewrite.selectorDigest py)
    let selectors : Selectors := ⟨prewrite.normalizedUrlPath, prewrite.visibleIdentity, selectorDigest⟩
    let a := { a with prewrite := some selectors }
    if prewrite.windowHandle ≠ selected.windowHandle ∨ prewrite.matches args.descriptor = false then
      finish py args .targetChangedPreSubmit a
    else do
      let a ← advance py args .targetVerifiedPrewrite a
      populate py args selected selectors a

/-- The target that was found is activated. -/
def activate (selected : TargetSnapshot) (a : Attempt) : Program RelayReceipt := do
  match ← tryAsk (.activate selected.windowHandle selected.targetToken) with
  | none => finish py args .targetChangedPreSubmit a
  | some _ => verifyPrewrite py args selected a

/-- The target is looked for. -/
def discover (a : Attempt) : Program RelayReceipt := do
  match ← tryAsk (.discover args.descriptor) with
  | none => finish py args .targetNotFound a
  | some items =>
    match items.filter (·.matches args.descriptor) with
    | [] => finish py args .targetNotFound a
    | [selected] =>
      let a ← advance py args .targetDiscovered (a.found selected)
      activate py args selected a
    | _ => finish py args .targetAmbiguous a

/-- The source is verified, after the claim. -/
def perform (a : Attempt) : Program RelayReceipt := do
  let verified : Option Bool ← tryAsk (.verify args.envelope)
  if verified = some true then do
    let a ← advance py args .busBound a
    discover py args a
  else finish py args .sourceBusUnverified a

/-- The code of the first argument that `run` refuses. -/
def Arguments.refused : Option String :=
  if args.descriptor.recipient ≠ args.envelope.recipient then some "TARGET_RECIPIENT_MISMATCH"
  else if args.ackTimeoutSeconds.isSpent = true then some "INVALID_ACK_TIMEOUT"
  else if args.renderedReadbackTimeoutSeconds.isSpent = true then some "INVALID_RENDERED_READBACK_TIMEOUT"
  else if args.renderedPollSeconds.isSpent = true then some "INVALID_RENDERED_POLL_INTERVAL"
  else none

/-- `run`. -/
def run (decoder : Decoder Empty) : Program RelayReceipt :=
  match args.refused with
  | some code => throw (refusal code)
  | none => do
    let binding ← Prog.lift (bindingOf py args.envelope)
    let updatedAt ← nowIso
    let (created, state, oldReceipt) ← claim decoder binding updatedAt
    if created = true then do
      let time ← nowIso
      perform py args { transitions := [.created], times := [(lit "CREATED", time)] }
    else
      match oldReceipt with
      | some receipt => return receipt
      | none => throw (.relayError (lit "RELAY_ALREADY_IN_PROGRESS:" ++ state))

end CcbCore.Relay
