import CcbCore.Relay.Once
import Mathlib.Data.List.Chain

/-!
# What a receipt is evidence of

`Observed` is what a run has been told by the store, the verifier and the target. A run
submits only when what it was told allows it (`Gated`), and the receipt that it stores and
returns says no more than it was told (`Faithful`): its transitions are a path of the
states (`Path`), it is verified if a readback and the acknowledgement were, and a run that
claimed nothing returns the receipt it found (`relay_evidence`). Nothing is assumed of who
answers.
-/

namespace CcbCore.Relay

open CcbCore.CodePoints CcbCore.Postgres CcbCore.Radar CcbCore.Raising

variable {py : Interpreter Empty} {args : Arguments} {decoder : Decoder Empty} {a : Attempt} {selected : TargetSnapshot}

/-! ### The states of a relay -/

/-- The states that may follow a state. -/
def RelayState.next : RelayState → List RelayState
  | .created => [.busBound, .sourceBusUnverified]
  | .busBound => [.targetDiscovered, .targetNotFound, .targetAmbiguous]
  | .targetDiscovered => [.targetVerifiedPrewrite, .targetChangedPreSubmit]
  | .targetVerifiedPrewrite => [.composerPopulated, .composerWriteFailed]
  | .composerPopulated => [.targetReverifiedPresubmit, .targetChangedPreSubmit]
  | .targetReverifiedPresubmit => [.submitted, .submitNotEstablished]
  | .submitted => [.renderedReadbackVerified, .submittedUnverified]
  | .renderedReadbackVerified => [.ackPending]
  | .ackPending => [.ackVerified, .ackTimeout, .ackMismatch, .sourceBusUnverified]
  | _ => []

/-- States, each after the one before, from `CREATED` to a last one. -/
structure Path (states : List RelayState) (last : RelayState) : Prop where
  chain : states.IsChain fun state state' => state' ∈ state.next
  head : states.head? = some .created
  getLast : states.getLast? = some last

theorem Path.created : Path [.created] .created := ⟨List.isChain_singleton _, rfl, rfl⟩

theorem Path.snoc {states : List RelayState} {last state : RelayState} (h : Path states last) (hnext : state ∈ last.next) :
    Path (states ++ [state]) state := by
  refine ⟨h.chain.append (List.isChain_singleton _) fun before hbefore after hafter => ?_, ?_, by simp⟩
  · rw [h.getLast] at hbefore
    obtain rfl := Option.some.inj hbefore
    obtain rfl := Option.some.inj hafter
    exact hnext
  · rw [List.head?_append, h.head]
    rfl

/-- A final state comes after a state that is not. -/
theorem RelayState.ne_of_next {state last : RelayState} (h : state ∈ last.next) : last ≠ state := by
  rintro rfl
  cases last <;> simp [RelayState.next] at h

/-! ### What a run was told -/

/-- What the store, the verifier and the target have told a run. -/
structure Observed where
  /-- The row that was selected. -/
  found : Option Operation := none
  /-- A row was inserted. -/
  created : Bool := false
  /-- The verifier or the target was called. -/
  called : Bool := false
  verified : Bool := false
  /-- What was discovered and matches the descriptor. -/
  candidates : List TargetSnapshot := []
  snapshots : List TargetSnapshot := []
  submitted : Bool := false
  /-- A text that was rendered after the submission matches the envelope. -/
  matched : Bool := false
  ack : Option Str := none

/-- A call of the verifier or the target. -/
def Op.outward : Op → Bool
  | .verify _ | .discover _ | .activate .. | .snapshot .. | .populate .. | .submit .. | .readRendered .. | .waitForAck .. => true
  | _ => false

/-- What a run was told after an answer. -/
def Observed.after (args : Arguments) (o : Observed) (op : Op) (reply : Except Exc op.Reply) : Observed :=
  let o := { o with called := op.outward || o.called }
  match op, reply with
  | .select _, .ok row => { o with found := row }
  | .insert _, .ok _ => { o with created := true }
  | .verify _, .ok verified => { o with verified := verified }
  | .discover _, .ok items => { o with candidates := items.filter (·.matches args.descriptor) }
  | .snapshot .., .ok (snapshot : TargetSnapshot) => { o with snapshots := o.snapshots ++ [snapshot] }
  | .submit .., .ok _ => { o with submitted := true }
  | .readRendered .., .ok text => { o with matched := o.matched || (o.submitted && renderedMatches args.envelope text) }
  | .waitForAck .., .ok text => { o with ack := text }
  | _, _ => o

/-- What a run was told allows it to submit to a window: the source was verified, one target
was discovered, and the two snapshots of it match and have one digest. -/
structure Gated (py : Interpreter Empty) (args : Arguments) (o : Observed) (handle : ℤ) : Prop where
  verified : o.verified = true
  target : ∃ selected prewrite presubmit digest, o.candidates = [selected] ∧ o.snapshots = [prewrite, presubmit] ∧
    handle = selected.windowHandle ∧ prewrite.windowHandle = handle ∧ presubmit.windowHandle = handle ∧
    prewrite.matches args.descriptor = true ∧ presubmit.matches args.descriptor = true ∧
    prewrite.selectorDigest py = .ok digest ∧ presubmit.selectorDigest py = .ok digest

/-- A receipt says what a run was told. -/
structure Faithful (args : Arguments) (o : Observed) (receipt : RelayReceipt) : Prop where
  path : ∃ states final, receipt.transitions = states.map RelayState.text ∧ receipt.finalState = final.text ∧
    Path states final ∧ final.terminal = true
  verified : receipt.finalState = lit "ACK_VERIFIED" ↔
    o.submitted = true ∧ o.matched = true ∧ o.ack = some (renderAck args.envelope .receivedVerified)
  rendered : receipt.renderedMessageVerified = o.matched

/-- The receipt was found in the row of the envelope, and nobody else was called. -/
structure Replayed (py : Interpreter Empty) (args : Arguments) (decoder : Decoder Empty) (o : Observed)
    (receipt : RelayReceipt) : Prop where
  called : o.called = false
  found : ∃ row json binding, o.found = some row ∧ row.receiptJson = some json ∧ bindingOf py args.envelope = .ok binding ∧
    row.nonce = binding.nonce ∧ row.envelopeSha256 = binding.envelopeSha256 ∧ RelayReceipt.decode decoder json = .ok receipt

/-- The calls that a run may make of what it was told. -/
def Permits (py : Interpreter Empty) (args : Arguments) (o : Observed) : Op → Prop
  | .submit messageId handle _ => messageId = args.envelope.messageId ∧ Gated py args o handle
  | .updateReceipt _ state json _ =>
    ∃ receipt, receipt.encode py = .ok json ∧ state = receipt.finalState ∧ Faithful args o receipt
  | _ => True

def evidence (py : Interpreter Empty) (args : Arguments) : Protocol Calls Exc Observed :=
  ⟨Permits py args, fun _ _ _ => True, Observed.after args⟩

/-- What a run was told by its answers. -/
def observed (args : Arguments) (answers : List (Answer Calls Exc)) : Observed :=
  answers.foldl (fun o answer => o.after args answer.op answer.reply) {}

/-- A receipt that a run returns is faithful to what it was told, or was found. -/
def Reported (py : Interpreter Empty) (args : Arguments) (decoder : Decoder Empty) (o : Observed)
    (result : Except Exc RelayReceipt) : Prop :=
  ∀ receipt, result = .ok receipt →
    (o.created = true ∧ Faithful args o receipt) ∨ (o.created = false ∧ Replayed py args decoder o receipt)

theorem reported_error (o : Observed) (e : Exc) : Reported py args decoder o (.error e) := by
  rintro receipt ⟨⟩

/-! ### The way of a run -/

variable {o : Observed}

theorem evidence_advance (state : RelayState) :
    Obeys (evidence py args) o (advance py args state a) (Obeys.Still o fun a' => ∃ time, a' = a.reached state time) := by
  refine Obeys.still_bind Obeys.still_lift Obeys.still_error fun binding _ => ?_
  refine Obeys.still_bind (Obeys.still_ask trivial fun _ _ => rfl) Obeys.still_error fun updatedAt _ => ?_
  refine Obeys.still_bind (R := fun _ => True) ?_ Obeys.still_error fun _ _ => ?_
  · refine Obeys.still_bind (R := fun _ => True) (obeys_execute trivial (fun _ => Obeys.still_error _) fun reply _ => ?_)
      Obeys.still_error fun count _ => ?_
    · exact ⟨rfl, fun _ _ => trivial⟩
    · exact Obeys.refuseIf (fun _ => Obeys.still_error _) fun _ => ⟨rfl, fun _ _ => trivial⟩
  · exact Obeys.still_bind (Obeys.still_ask trivial fun _ _ => rfl) Obeys.still_error fun time _ =>
      Obeys.still_pure ⟨time, rfl⟩

/-- What a run notes keeps up with what it is told. -/
structure Tracks (o : Observed) (a : Attempt) (state : RelayState) : Prop where
  created : o.created = true
  path : Path a.transitions state
  rendered : a.renderedVerified = o.matched

theorem Tracks.reached {last state : RelayState} {time : Str} (h : Tracks o a last) (hnext : state ∈ last.next) :
    Tracks o (a.reached state time) state :=
  ⟨h.created, h.path.snoc hnext, h.rendered⟩

/-- A final state that is verified was seen to be. -/
def Earned (args : Arguments) (o : Observed) (final : RelayState) : Prop :=
  final = .ackVerified ↔ o.submitted = true ∧ o.matched = true ∧ o.ack = some (renderAck args.envelope .receivedVerified)

theorem RelayState.text_verified {state : RelayState} : state.text = lit "ACK_VERIFIED" ↔ state = .ackVerified := by
  cases state <;> decide

theorem evidence_finish {last final : RelayState} (h : Tracks o a last) (hnext : final ∈ last.next)
    (hfinal : final.terminal = true) (hearned : Earned args o final) :
    Obeys (evidence py args) o (finish py args final a) (Reported py args decoder) := by
  have hclose : Obeys (evidence py args) o (close final a) (Obeys.Still o fun a' => Tracks o a' final) := by
    rw [close, if_neg]
    · exact Obeys.still_bind (Obeys.still_ask trivial fun _ _ => rfl) Obeys.still_error fun time _ =>
        Obeys.still_pure (h.reached hnext)
    · rw [h.path.getLast]
      exact fun heq => RelayState.ne_of_next hnext (Option.some.inj heq)
  refine Obeys.still_bind hclose (reported_error _) fun a h => ?_
  have hfaithful : Faithful args o (a.receipt args.envelope final) :=
    ⟨⟨a.transitions, final, rfl, rfl, h.path, hfinal⟩, RelayState.text_verified.trans hearned, h.rendered⟩
  refine Obeys.still_bind Obeys.still_lift (reported_error _) fun binding _ => ?_
  refine Obeys.still_bind (Obeys.still_ask trivial fun _ _ => rfl) (reported_error _) fun updatedAt _ => ?_
  refine Obeys.still_bind (R := fun _ => True) ?_ (reported_error _) fun _ _ => ?_
  · refine Obeys.still_bind Obeys.still_lift Obeys.still_error fun json hjson => ?_
    refine Obeys.still_bind (R := fun _ => True)
      (obeys_execute ⟨_, hjson, rfl, hfaithful⟩ (fun _ => Obeys.still_error _) fun reply _ => ⟨rfl, fun _ _ => trivial⟩)
      Obeys.still_error fun count _ => ?_
    exact Obeys.refuseIf (fun _ => Obeys.still_error _) fun _ => ⟨rfl, fun _ _ => trivial⟩
  · refine Obeys.pure fun receipt hreceipt => ?_
    cases hreceipt
    exact .inl ⟨h.created, hfaithful⟩

theorem parseAck_verified {envelope : RelayEnvelope} {ack : Option Str} :
    parseAck envelope ack = some (.status .receivedVerified) ↔ ack = some (renderAck envelope .receivedVerified) := by
  cases ack with
  | none => simp [parseAck]
  | some text =>
    simp only [parseAck, Option.some.injEq]
    split_ifs with hverified hheld
    · simp [hverified]
    · simp [hverified]
    · simp [hverified]

theorem Tracks.acked {ack : Option Str} {a' : Attempt} {state : RelayState} (h : Tracks o a state)
    (hacked : a.acked py ack = .ok a') : Tracks o a' state := by
  cases ack with
  | none =>
    cases hacked
    exact h
  | some text =>
    obtain ⟨sha256, -, rfl⟩ := except_map_ok.mp hacked
    exact ⟨h.created, h.path, h.rendered⟩

theorem evidence_acknowledge (h : Tracks o a .ackPending) (hsubmitted : o.submitted = true) (hmatched : o.matched = true)
    (hack : o.ack = none) :
    Obeys (evidence py args) o (acknowledge py args selected a) (Reported py args decoder) := by
  refine Obeys.bind (R := fun o r => Tracks o a .ackPending ∧ o.submitted = true ∧ o.matched = true ∧
      ∀ ack, r = .ok ack → o.ack = ack.join) (obeys_tryAsk trivial fun reply _ => ?_) ?_ fun o e _ => reported_error o e
  · cases reply with
    | error e => exact ⟨⟨h.created, h.path, h.rendered⟩, hsubmitted, hmatched, by rintro _ ⟨⟩; exact hack⟩
    | ok text => exact ⟨⟨h.created, h.path, h.rendered⟩, hsubmitted, hmatched, by rintro _ ⟨⟩; rfl⟩
  rintro o ack ⟨h, hsubmitted, hmatched, hack⟩
  refine Obeys.still_bind Obeys.still_lift (reported_error _) fun a' ha' => ?_
  have h' := h.acked ha'
  have hearned {final : RelayState} (hfinal : final = .ackVerified ↔
      parseAck args.envelope ack.join = some (.status .receivedVerified)) : Earned args o final := by
    rw [Earned, hfinal, parseAck_verified, hack ack rfl]
    simp [hsubmitted, hmatched]
  have htracks {status : Option AckReading} : Tracks o { a' with ackStatus := status } .ackPending :=
    ⟨h'.created, h'.path, h'.rendered⟩
  split
  · next hparse => exact evidence_finish h' (by decide) rfl (hearned (by simp [hparse]))
  · next hparse => exact evidence_finish htracks (by decide) rfl (hearned (by simp [hparse]))
  · next hparse => exact evidence_finish htracks (by decide) rfl (hearned (by simp [hparse]))
  · next hparse => exact evidence_finish htracks (by decide) rfl (hearned (by simp [hparse]))

theorem evidence_readBack (deadline : Seconds) (polls : ℕ) (h : Tracks o a .submitted) (hsubmitted : o.submitted = true)
    (hmatched : o.matched = false) (hack : o.ack = none) :
    Obeys (evidence py args) o (readBack py args selected deadline polls a) (Reported py args decoder) := by
  induction polls generalizing o a with
  | zero => exact Obeys.throw (reported_error _ _)
  | succ polls ih =>
    refine Obeys.bind (R := fun o r => o.created = true ∧ o.submitted = true ∧ o.ack = none ∧
        ∀ rendered, r = .ok rendered → o.matched = renderedMatches args.envelope rendered.join)
      (obeys_tryAsk trivial fun reply _ => ?_) ?_ fun o e _ => reported_error o e
    · cases reply with
      | error e => exact ⟨h.created, hsubmitted, hack, by rintro _ ⟨⟩; exact hmatched⟩
      | ok text =>
        refine ⟨h.created, hsubmitted, hack, ?_⟩
        rintro _ ⟨⟩
        simp only [evidence, Observed.after, hmatched, hsubmitted, Bool.false_or, Bool.true_and]
        rfl
    have hunverified : a.renderedVerified = false := h.rendered.trans hmatched
    rintro o rendered ⟨hcreated, hsubmitted, hack, hmatches⟩
    replace hmatches := hmatches rendered rfl
    refine Obeys.still_bind Obeys.still_lift (reported_error _) fun a' ha' => ?_
    obtain ⟨hpath, hverified⟩ : Path a'.transitions .submitted ∧ a'.renderedVerified = false := by
      cases hrendered : rendered.join with
      | none =>
        rw [hrendered] at ha'
        cases ha'
        exact ⟨h.path, hunverified⟩
      | some text =>
        rw [hrendered] at ha'
        obtain ⟨sha256, -, rfl⟩ := except_map_ok.mp ha'
        exact ⟨h.path, hunverified⟩
    split
    · next hyes =>
      rw [hyes] at hmatches
      have h : Tracks o { a' with renderedVerified := true } .submitted := ⟨hcreated, hpath, hmatches.symm⟩
      refine Obeys.still_bind (evidence_advance _) (reported_error _) ?_
      rintro _ ⟨time, rfl⟩
      refine Obeys.still_bind (evidence_advance _) (reported_error _) ?_
      rintro _ ⟨time', rfl⟩
      exact evidence_acknowledge ((h.reached (by decide)).reached (by decide)) hsubmitted hmatches hack
    · next hno =>
      rw [Bool.not_eq_true] at hno
      rw [hno] at hmatches
      have h : Tracks o a' .submitted := ⟨hcreated, hpath, hverified.trans hmatches.symm⟩
      refine Obeys.still_bind (Obeys.still_ask trivial fun reply _ => by cases reply <;> rfl) (reported_error _) fun now _ => ?_
      split
      · exact evidence_finish h (by decide) rfl (by simp [Earned, hmatches])
      · exact Obeys.still_bind (Obeys.still_ask trivial fun reply _ => by cases reply <;> rfl) (reported_error _) fun _ _ =>
          ih h hsubmitted hmatches hack

/-- A run on the way to its submission. -/
structure Approaching (o : Observed) (a : Attempt) (state : RelayState) : Prop extends Tracks o a state where
  submitted : o.submitted = false
  matched : o.matched = false
  ack : o.ack = none

theorem Approaching.reached {last state : RelayState} {time : Str} (h : Approaching o a last) (hnext : state ∈ last.next) :
    Approaching o (a.reached state time) state :=
  ⟨h.toTracks.reached hnext, h.submitted, h.matched, h.ack⟩

theorem Approaching.earned {last final : RelayState} (h : Approaching o a last) (hfinal : final ≠ .ackVerified) :
    Earned args o final := by
  simp [Earned, hfinal, h.submitted]

/-- A run that ends before its submission. -/
theorem evidence_stop {last final : RelayState} (h : Approaching o a last) (hnext : final ∈ last.next)
    (hfinal : final.terminal = true) (hne : final ≠ .ackVerified) :
    Obeys (evidence py args) o (finish py args final a) (Reported py args decoder) :=
  evidence_finish h.toTracks hnext hfinal (h.earned hne)

theorem evidence_submit (h : Approaching o a .targetReverifiedPresubmit) (hgated : Gated py args o selected.windowHandle) :
    Obeys (evidence py args) o (submit py args selected a) (Reported py args decoder) := by
  refine Obeys.bind (R := fun o r => Tracks o a .targetReverifiedPresubmit ∧ o.matched = false ∧ o.ack = none ∧
      ∀ sent, r = .ok sent → o.submitted = sent.isSome) (obeys_tryAsk ⟨rfl, hgated⟩ fun reply _ => ?_) ?_
    fun o e _ => reported_error o e
  · cases reply with
    | error e => exact ⟨⟨h.created, h.path, h.rendered⟩, h.matched, h.ack, by rintro _ ⟨⟩; exact h.submitted⟩
    | ok _ => exact ⟨⟨h.created, h.path, h.rendered⟩, h.matched, h.ack, by rintro _ ⟨⟩; rfl⟩
  rintro o sent ⟨h, hmatched, hack, hsent⟩
  cases sent with
  | none => exact evidence_stop ⟨h, hsent none rfl, hmatched, hack⟩ (by decide) rfl nofun
  | some _ =>
    refine Obeys.still_bind (evidence_advance _) (reported_error _) ?_
    rintro _ ⟨time, rfl⟩
    refine Obeys.still_bind (Obeys.still_ask trivial fun reply _ => by cases reply <;> rfl) (reported_error _) fun start _ => ?_
    exact evidence_readBack _ _ (h.reached (by decide)) (hsent _ rfl) hmatched hack

/-- A run that has selected a target, and what its snapshots were. -/
structure Bound (o : Observed) (a : Attempt) (state : RelayState) (selected : TargetSnapshot)
    (snapshots : List TargetSnapshot) : Prop extends Approaching o a state where
  verified : o.verified = true
  candidates : o.candidates = [selected]
  snapshots : o.snapshots = snapshots

theorem Bound.reached {last state : RelayState} {time : Str} {snapshots : List TargetSnapshot}
    (h : Bound o a last selected snapshots) (hnext : state ∈ last.next) :
    Bound o (a.reached state time) state selected snapshots :=
  ⟨h.toApproaching.reached hnext, h.verified, h.candidates, h.snapshots⟩

/-- A call on the way that tells the run nothing but that it was answered. -/
theorem Bound.told {o' : Observed} {state : RelayState} {snapshots : List TargetSnapshot} (h : Bound o a state selected snapshots)
    (ho : o' = { o with called := true }) : Bound o' a state selected snapshots := by
  subst ho
  exact ⟨⟨⟨h.created, h.path, h.rendered⟩, h.submitted, h.matched, h.ack⟩, h.verified, h.candidates, h.snapshots⟩

/-- A snapshot that is taken, or not. -/
theorem evidence_snapshot {state : RelayState} {snapshots : List TargetSnapshot} (h : Bound o a state selected snapshots)
    (handle : ℤ) (token : Option Str) :
    Obeys (evidence py args) o (tryAsk (.snapshot handle token)) fun o r => ∃ taken : Option TargetSnapshot, r = .ok taken ∧
      Bound o a state selected (snapshots ++ taken.toList) := by
  refine obeys_tryAsk trivial fun reply _ => ?_
  cases reply with
  | error e =>
    refine ⟨none, rfl, ?_⟩
    rw [Option.toList_none, List.append_nil]
    exact h.told rfl
  | ok snapshot =>
    refine ⟨some snapshot, rfl, ⟨⟨h.created, h.path, h.rendered⟩, h.submitted, h.matched, h.ack⟩, h.verified, h.candidates, ?_⟩
    exact congrArg (· ++ [snapshot]) h.snapshots

theorem Bound.noted {prewrite presubmit : Option Selectors} {state : RelayState} {snapshots : List TargetSnapshot}
    (h : Bound o a state selected snapshots) : Bound o { a with prewrite, presubmit } state selected snapshots :=
  ⟨⟨⟨h.created, h.path, h.rendered⟩, h.submitted, h.matched, h.ack⟩, h.verified, h.candidates, h.snapshots⟩

/-- A snapshot is of the selected window, and matches. -/
structure Kept (args : Arguments) (selected snapshot : TargetSnapshot) : Prop where
  windowHandle : snapshot.windowHandle = selected.windowHandle
  descriptor : snapshot.matches args.descriptor = true

theorem evidence_reverify {prewrite : TargetSnapshot} {selectors : Selectors}
    (h : Bound o a .composerPopulated selected [prewrite]) (hprewrite : Kept args selected prewrite)
    (hdigest : prewrite.selectorDigest py = .ok selectors.selectorDigest) :
    Obeys (evidence py args) o (reverify py args selected selectors a) (Reported py args decoder) := by
  refine Obeys.bind (evidence_snapshot h _ _) ?_ fun o e _ => reported_error o e
  rintro o taken ⟨taken', htaken, h⟩
  obtain rfl := Except.ok.inj htaken
  cases taken with
  | none => exact evidence_stop h.toApproaching (by decide) rfl nofun
  | some presubmit =>
    refine Obeys.still_bind Obeys.still_lift (reported_error _) fun selectorDigest hpresubmit => ?_
    dsimp only
    split
    · exact evidence_stop h.noted.toApproaching (by decide) rfl nofun
    · next hkept =>
      simp only [not_or, not_not, Bool.not_eq_false] at hkept
      obtain ⟨hhandle, hmatches, hsame⟩ := hkept
      refine Obeys.still_bind (evidence_advance _) (reported_error _) ?_
      rintro _ ⟨time, rfl⟩
      refine evidence_submit (h.noted.toApproaching.reached (by decide)) ⟨h.verified, selected, prewrite, presubmit, _,
        h.candidates, h.snapshots, rfl, hprewrite.windowHandle, hhandle, hprewrite.descriptor, hmatches, hdigest, ?_⟩
      rw [hpresubmit, hsame]

theorem evidence_populate {prewrite : TargetSnapshot} {selectors : Selectors}
    (h : Bound o a .targetVerifiedPrewrite selected [prewrite]) (hprewrite : Kept args selected prewrite)
    (hdigest : prewrite.selectorDigest py = .ok selectors.selectorDigest) :
    Obeys (evidence py args) o (populate py args selected selectors a) (Reported py args decoder) := by
  refine Obeys.bind (R := fun o _ => Bound o a .targetVerifiedPrewrite selected [prewrite])
    (obeys_tryAsk trivial fun reply _ => ?_) ?_ fun o e _ => reported_error o e
  · exact h.told (by cases reply <;> rfl)
  rintro o written h
  cases written with
  | none => exact evidence_stop h.toApproaching (by decide) rfl nofun
  | some _ =>
    refine Obeys.still_bind (evidence_advance _) (reported_error _) ?_
    rintro _ ⟨time, rfl⟩
    exact evidence_reverify (h.reached (by decide)) hprewrite hdigest

theorem evidence_verifyPrewrite (h : Bound o a .targetDiscovered selected []) :
    Obeys (evidence py args) o (verifyPrewrite py args selected a) (Reported py args decoder) := by
  refine Obeys.bind (evidence_snapshot h _ _) ?_ fun o e _ => reported_error o e
  rintro o taken ⟨taken', htaken, h⟩
  obtain rfl := Except.ok.inj htaken
  cases taken with
  | none => exact evidence_stop h.toApproaching (by decide) rfl nofun
  | some prewrite =>
    refine Obeys.still_bind Obeys.still_lift (reported_error _) fun selectorDigest hprewrite => ?_
    dsimp only
    split
    · exact evidence_stop h.noted.toApproaching (by decide) rfl nofun
    · next hkept =>
      simp only [not_or, not_not, Bool.not_eq_false] at hkept
      refine Obeys.still_bind (evidence_advance _) (reported_error _) ?_
      rintro _ ⟨time, rfl⟩
      exact evidence_populate (h.noted.reached (by decide)) ⟨hkept.1, hkept.2⟩ hprewrite

theorem evidence_activate (h : Bound o a .targetDiscovered selected []) :
    Obeys (evidence py args) o (activate py args selected a) (Reported py args decoder) := by
  refine Obeys.bind (R := fun o _ => Bound o a .targetDiscovered selected []) (obeys_tryAsk trivial fun reply _ => ?_) ?_
    fun o e _ => reported_error o e
  · exact h.told (by cases reply <;> rfl)
  rintro o activated h
  cases activated with
  | none => exact evidence_stop h.toApproaching (by decide) rfl nofun
  | some _ => exact evidence_verifyPrewrite h

theorem evidence_discover (h : Approaching o a .busBound) (hverified : o.verified = true) (hsnapshots : o.snapshots = []) :
    Obeys (evidence py args) o (discover py args a) (Reported py args decoder) := by
  refine Obeys.bind (R := fun o r => Approaching o a .busBound ∧ o.verified = true ∧ o.snapshots = [] ∧
      ∀ items : List TargetSnapshot, r = .ok (some items) → o.candidates = items.filter (·.matches args.descriptor))
    (obeys_tryAsk trivial fun reply _ => ?_) ?_ fun o e _ => reported_error o e
  · cases reply with
    | error e => exact ⟨⟨⟨h.created, h.path, h.rendered⟩, h.submitted, h.matched, h.ack⟩, hverified, hsnapshots, nofun⟩
    | ok items =>
      refine ⟨⟨⟨h.created, h.path, h.rendered⟩, h.submitted, h.matched, h.ack⟩, hverified, hsnapshots, ?_⟩
      rintro _ ⟨⟩
      rfl
  rintro o discovered ⟨h, hverified, hsnapshots, hcandidates⟩
  cases discovered with
  | none => exact evidence_stop h (by decide) rfl nofun
  | some items =>
    have hitems := hcandidates items rfl
    dsimp only
    split
    · exact evidence_stop h (by decide) rfl nofun
    · next selected hselected =>
      rw [hselected] at hitems
      refine Obeys.still_bind (evidence_advance _) (reported_error _) ?_
      rintro _ ⟨time, rfl⟩
      have hfound : Approaching o (a.found selected) .busBound := ⟨⟨h.created, h.path, h.rendered⟩, h.submitted, h.matched, h.ack⟩
      exact evidence_activate ⟨hfound.reached (by decide), hverified, hitems, hsnapshots⟩
    · exact evidence_stop h (by decide) rfl nofun

theorem evidence_perform (h : Approaching o a .created) (hsnapshots : o.snapshots = []) :
    Obeys (evidence py args) o (perform py args a) (Reported py args decoder) := by
  refine Obeys.bind (R := fun o r => Approaching o a .created ∧ o.snapshots = [] ∧ (r = .ok (some true) → o.verified = true))
    (obeys_tryAsk trivial fun reply _ => ?_) ?_ fun o e _ => reported_error o e
  · cases reply with
    | error e => exact ⟨⟨⟨h.created, h.path, h.rendered⟩, h.submitted, h.matched, h.ack⟩, hsnapshots, nofun⟩
    | ok verified =>
      refine ⟨⟨⟨h.created, h.path, h.rendered⟩, h.submitted, h.matched, h.ack⟩, hsnapshots, ?_⟩
      rintro ⟨⟩
      rfl
  rintro o verified ⟨h, hsnapshots, hverified⟩
  split
  · next hyes =>
    subst hyes
    refine Obeys.still_bind (evidence_advance _) (reported_error _) ?_
    rintro _ ⟨time, rfl⟩
    exact evidence_discover (h.reached (by decide)) (hverified rfl) hsnapshots
  · exact evidence_stop h (by decide) rfl nofun

/-- What a run was told when it has claimed its message, or found the row of it. -/
def Told (decoder : Decoder Empty) (binding : Binding) (o : Observed)
    (result : Except Exc (Bool × Str × Option RelayReceipt)) : Prop :=
  ∀ created state receipt, result = .ok (created, state, receipt) →
    (created = true ∧ o = { created := true }) ∨
    (created = false ∧ o.created = false ∧ o.called = false ∧ ∀ found, receipt = some found →
      ∃ row json, o.found = some row ∧ row.receiptJson = some json ∧ row.nonce = binding.nonce ∧
        row.envelopeSha256 = binding.envelopeSha256 ∧ RelayReceipt.decode decoder json = .ok found)

theorem told_error {binding : Binding} (o : Observed) (e : Exc) : Told decoder binding o (.error e) := by
  rintro created state receipt ⟨⟩

theorem evidence_claimFound (binding : Binding) (row : Operation) :
    Obeys (evidence py args) { found := some row } (claimFound decoder binding row) (Told decoder binding) := by
  refine Obeys.bind (R := fun o r => o = { found := some row } ∧
      (r = .ok ⟨⟩ → row.nonce = binding.nonce ∧ row.envelopeSha256 = binding.envelopeSha256))
    (Obeys.refuseIf (fun _ => ⟨rfl, nofun⟩) fun hsame => ⟨rfl, fun _ => ?_⟩) ?_ fun o e _ => told_error o e
  · rwa [not_or, not_not, not_not] at hsame
  rintro _ _ ⟨rfl, hsame⟩
  obtain ⟨hnonce, hsha⟩ := hsame rfl
  cases hjson : row.receiptJson with
  | none =>
    refine Obeys.pure fun created state receipt h => ?_
    obtain ⟨rfl, hrest⟩ := Prod.mk.inj (Except.ok.inj h)
    obtain ⟨-, rfl⟩ := Prod.mk.inj hrest
    refine .inr ⟨rfl, rfl, rfl, fun found hfound => ?_⟩
    cases hfound
  | some json =>
    refine Obeys.still_bind Obeys.still_lift (told_error _) fun receipt hdecode => ?_
    refine Obeys.pure fun created state receipt' h => ?_
    obtain ⟨rfl, hrest⟩ := Prod.mk.inj (Except.ok.inj h)
    obtain ⟨-, rfl⟩ := Prod.mk.inj hrest
    refine .inr ⟨rfl, rfl, rfl, fun found hfound => ?_⟩
    obtain rfl : receipt = found := Option.some.inj hfound
    exact ⟨row, json, rfl, hjson, hnonce, hsha, hdecode⟩

theorem evidence_claimNew (binding : Binding) (updatedAt : Str) :
    Obeys (evidence py args) {} (claimNew binding updatedAt) (Told decoder binding) := by
  refine Obeys.bind (R := fun o r => r = .ok () → o = { created := true })
    (obeys_execute trivial (fun _ => nofun) fun reply _ => ?_) ?_ fun o e _ => told_error o e
  · rintro rfl
    rfl
  · intro o _ hcreated
    refine Obeys.pure fun created state receipt h => .inl ⟨?_, hcreated rfl⟩
    exact (congrArg Prod.fst (Except.ok.inj h)).symm

theorem evidence_claim (binding : Binding) (updatedAt : Str) :
    Obeys (evidence py args) {} (claim decoder binding updatedAt) (Told decoder binding) := by
  refine Obeys.bind (R := fun o r => ∀ found : Option Operation, r = .ok found → o = { found := found })
    (obeys_execute trivial (fun _ => nofun) fun reply _ => ?_) ?_ fun o e _ => told_error o e
  · rintro found rfl
    rfl
  · intro o found hfound
    obtain rfl := hfound found rfl
    cases found with
    | none => exact evidence_claimNew binding updatedAt
    | some row => exact evidence_claimFound binding row

/-- A run calls as what it was told permits, and reports what it was told. -/
theorem evidence_run (py : Interpreter Empty) (args : Arguments) (decoder : Decoder Empty) :
    Obeys (evidence py args) {} (run py args decoder) (Reported py args decoder) := by
  unfold run
  split
  · exact Obeys.throw (reported_error _ _)
  refine Obeys.still_bind Obeys.still_lift (reported_error _) fun binding hb => ?_
  refine Obeys.still_bind (Obeys.still_ask trivial fun reply _ => by cases reply <;> rfl) (reported_error _) fun updatedAt _ => ?_
  refine Obeys.bind (evidence_claim binding updatedAt) ?_ fun o e _ => reported_error o e
  rintro o ⟨created, state, oldReceipt⟩ htold
  rcases htold _ _ _ rfl with ⟨rfl, rfl⟩ | ⟨rfl, hcreated, hcalled, hfound⟩
  · refine Obeys.still_bind (Obeys.still_ask trivial fun reply _ => by cases reply <;> rfl) (reported_error _) fun time _ => ?_
    exact evidence_perform ⟨⟨rfl, .created, rfl⟩, rfl, rfl, rfl⟩ rfl
  · cases oldReceipt with
    | none => exact Obeys.throw (reported_error _ _)
    | some receipt =>
      obtain ⟨row, json, hrow, hjson, hnonce, hsha, hdecode⟩ := hfound receipt rfl
      refine Obeys.pure fun receipt' h => ?_
      cases h
      exact .inr ⟨hcreated, hcalled, row, json, binding, hrow, hjson, hb, hnonce, hsha, hdecode⟩

/-- **Whatever the store, the verifier, the target and the clock do: a run submits only when
what it was told until then allows it; a receipt that it stores is faithful to what it was
told until then, and one that it returns to what it was told, or it was found in the row of
the envelope by a run that called neither the verifier nor the target.** -/
theorem relay_evidence {σ : Type} {env : Environment Calls Exc σ} {s t : σ} {answers : List (Answer Calls Exc)}
    {result : Except Exc RelayReceipt} (h : Runs env (run py args decoder) s answers result t) :
    (∀ before messageId handle token reply after, answers = before ++ ⟨.submit messageId handle token, reply⟩ :: after →
      Gated py args (observed args before) handle) ∧
    (∀ before binding state json updatedAt reply after,
      answers = before ++ ⟨.updateReceipt binding state json updatedAt, reply⟩ :: after →
      ∃ receipt, receipt.encode py = .ok json ∧ state = receipt.finalState ∧ Faithful args (observed args before) receipt) ∧
    ∀ receipt, result = .ok receipt →
      ((observed args answers).created = true ∧ Faithful args (observed args answers) receipt) ∨
      ((observed args answers).created = false ∧ Replayed py args decoder (observed args answers) receipt) := by
  obtain ⟨hreported, hpermits⟩ := Obeys.runs_any (fun _ _ _ => trivial) h (evidence_run py args decoder)
  refine ⟨fun before messageId handle token reply after hsplit => ?_,
    fun before binding state json updatedAt reply after hsplit => ?_, hreported⟩
  · have hpermit : Permits py args (observed args before) (.submit messageId handle token) := hpermits before _ after hsplit
    exact hpermit.2
  · exact hpermits before _ after hsplit

/-- What a run has created it has created. -/
theorem created_append {first rest : List (Answer Calls Exc)} (h : (observed args first).created = true) :
    (observed args (first ++ rest)).created = true := by
  induction rest using List.reverseRecOn with
  | nil => rwa [List.append_nil]
  | append_singleton rest answer ih =>
    obtain ⟨op, reply⟩ := answer
    rw [← List.append_assoc, observed, List.foldl_append]
    cases op with
    | insert row =>
      cases reply with
      | error e => exact ih
      | ok _ => rfl
    | _ => cases reply <;> exact ih

theorem canaryRun_created : (observed canaryArguments (canaryRun canaryWorld).1).created = true := by
  have hfirst : (observed canaryArguments ((canaryRun canaryWorld).1.take 3)).created = true := by decide +kernel
  rw [← List.take_append_drop 3 (canaryRun canaryWorld).1]
  exact created_append hfirst

/-- The canary is acknowledged, and its receipt says what its run was told. -/
theorem relay_evidence_canary : ∃ receipt, (canaryRun canaryWorld).2.1 = .ok receipt ∧ receipt.finalState = lit "ACK_VERIFIED" ∧
    Faithful canaryArguments (observed canaryArguments (canaryRun canaryWorld).1) receipt := by
  obtain ⟨receipt, hreturned, hverified⟩ := canaryRun_returns
  obtain ⟨-, -, hreported⟩ := relay_evidence (runs_canary ⟨False, False⟩ canaryWorld)
  rcases hreported receipt hreturned with ⟨-, hfaithful⟩ | ⟨hnot, -⟩
  · exact ⟨receipt, hreturned, hverified, hfaithful⟩
  · rw [canaryRun_created] at hnot
    cases hnot

end CcbCore.Relay
