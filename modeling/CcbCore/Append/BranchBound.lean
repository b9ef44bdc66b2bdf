import CcbCore.Append.Linear
import CcbCore.Library.Recording

/-!
# The branch-bound append

`BranchBoundSafeLaneAppender` of `src/radar/branch_bound_append.py`: the append of
`src/radar/safe_lane_append.py`, over a control source that refuses every snapshot which
binds the identity to another branch than the one the message declares. What the append
calls is watched (`Recording`): it updates a ref only when that is the declared branch and
every control read before it bound the identity to it (`Allowed`), whatever the sources
reply, and `append_bound` says so of every run.
-/

namespace CcbCore.Append

open CcbCore.Python CcbCore.Message

variable {α : Type}

/-! ### The wrapper -/

/-- `BranchBindingError`. -/
structure BranchBindingError where
  code : String
  detail : Option String := none
  deriving DecidableEq, Repr

/-- The exception, of which only `str(exc)` is used. -/
def BranchBindingError.raised (error : BranchBindingError) : Exc :=
  match error.detail with
  | none => .other error.code
  | some detail => .other (if detail = "" then error.code else error.code ++ ": " ++ detail)

/-- `headers.get("writer_branch")`, which is there and not empty. -/
def writerBranch (headers : Headers) : Except Exc String :=
  match givenHeader headers "writer_branch" with
  | none => .error (BranchBindingError.raised ⟨"WRITER_BRANCH_MISSING", none⟩)
  | some branch => .ok branch

/-- What is read as the branch of a text with a surrogate, of which no append gets to a
call. -/
abbrev LoneReader := List CodePoint → Except Exc String

variable (loneReader : LoneReader)

/-- `declared_branch`. -/
def declaredBranch (message : Utf8) : Except Exc String :=
  match message with
  | .str text =>
    match scalars text with
    | some chars => (metadataHeaders chars).bind writerBranch
    | none => loneReader text
  | .bytes data =>
    match decode data with
    | some chars => (metadataHeaders chars).bind writerBranch
    | none => .error (BranchBindingError.raised ⟨"MESSAGE_NOT_UTF8", none⟩)

/-- `repr` of a `str`. -/
abbrev StrRepr := String → String

variable (strRepr : StrRepr) (identity branch : String)

/-- `_BranchCheckingControlSource.read`, of the snapshot it has read. -/
def checkSnapshot (snapshot : ControlSnapshot) : Except BranchBindingError ControlSnapshot :=
  match snapshot.lanes identity with
  | none => .ok snapshot
  | some binding =>
    if binding.branch ≠ branch then
      .error ⟨"WRITER_BRANCH_MISMATCH", some ("declared=" ++ strRepr branch ++ ", topology=" ++ strRepr binding.branch)⟩
    else .ok snapshot

/-- The reply to a call over the checked control source. -/
def checkedReply (op : Op) (reply : Except Exc op.Reply) : Except Exc op.Reply :=
  match op, reply with
  | .readControl, .ok snapshot => (checkSnapshot strRepr identity branch snapshot).mapError BranchBindingError.raised
  | _, reply => reply

/-- The `BranchBindingError` that the call raised, if it did: the cause of what is raised for it. -/
def bindingCause (op : Op) (reply : Except Exc op.Reply) : Option BranchBindingError :=
  match op, reply with
  | .readControl, .ok snapshot =>
    match checkSnapshot strRepr identity branch snapshot with
    | .error error => some error
    | .ok _ => none
  | _, _ => none

/-- `_unwrap_branch_binding_cause`, and what is raised after it. -/
def unwrapBranchBindingCause (cause : Option BranchBindingError) (exc : Exc) : Exc :=
  match cause, exc with
  | some error, .safe safe =>
    if safe.code = "TOPOLOGY_UNAVAILABLE" ∧ safe.effectState = noneEstablished then error.raised else .safe safe
  | _, exc => exc

/-- The delegate's calls over the checked control source. -/
def delegate (cause : Option BranchBindingError) : Program α → Program α
  | .done (.ok a) => .done (.ok a)
  | .done (.error exc) => .done (.error (unwrapBranchBindingCause cause exc))
  | .call op next => .call op fun reply =>
    delegate (bindingCause strRepr identity branch op reply) (next (checkedReply strRepr identity branch op reply))

variable (runtime : Runtime)

/-- `BranchBoundSafeLaneAppender.append_bus_message_v1`. -/
def branchBoundAppend (expectedLaneHead : String) (message : Utf8) : Program SafeAppendReceipt := do
  let branch ← lift (declaredBranch loneReader message)
  delegate strRepr identity branch none (appendBusMessageV1 runtime identity expectedLaneHead message)

/-! ### What is allowed -/

/-- The reply to a control read binds the identity to the branch. -/
def Binds (identity branch : String) (reply : Except Exc ControlSnapshot) : Prop :=
  ∃ snapshot binding, reply = .ok snapshot ∧ snapshot.lanes identity = some binding ∧ binding.branch = branch

/-- Every control read bound the identity to the branch. -/
def Bound (identity branch : String) (answers : List (Answer Sources Exc)) : Prop :=
  ∀ reply, (⟨.readControl, reply⟩ : Answer Sources Exc) ∈ answers → Binds identity branch reply

/-- A call after these: an update is of the branch's ref, and every control read bound the
identity to the branch. -/
def Allowed (identity branch : String) (answers answers' : List (Answer Sources Exc)) : Prop :=
  ∀ ref candidateSha reply, answers' = answers ++ [⟨.updateRefNonForce ref candidateSha, reply⟩] →
    ref = branch ∧ Bound identity branch answers

/-- A snapshot that the checked control source lets through. -/
def Checked (identity branch : String) (op : Op) (reply : Except Exc op.Reply) : Prop :=
  match op, reply with
  | .readControl, .ok snapshot => ∀ binding, snapshot.lanes identity = some binding → binding.branch = branch
  | _, _ => True

/-! ### The checked control source -/

section checked

variable {strRepr identity branch}

/-- The call, with the reply of the checked control source. -/
def checkedAnswer (strRepr : StrRepr) (identity branch : String) (answer : Answer Sources Exc) : Answer Sources Exc :=
  ⟨answer.op, checkedReply strRepr identity branch answer.op answer.reply⟩

/-- The sources, with the checked control source. -/
def CheckedSources {σ : Type} (strRepr : StrRepr) (identity branch : String) (env : Environment Sources Exc σ) :
    Environment Sources Exc σ :=
  fun op s reply t => ∃ raw, env op s raw t ∧ reply = checkedReply strRepr identity branch op raw

theorem checkSnapshot_ok {snapshot snapshot' : ControlSnapshot}
    (h : checkSnapshot strRepr identity branch snapshot = .ok snapshot') :
    snapshot' = snapshot ∧ ∀ binding, snapshot.lanes identity = some binding → binding.branch = branch := by
  rw [checkSnapshot] at h
  cases hlane : snapshot.lanes identity with
  | none =>
    rw [hlane] at h
    cases h
    exact ⟨rfl, fun binding hbinding => by cases hbinding⟩
  | some binding =>
    rw [hlane] at h
    by_cases hbranch : binding.branch = branch
    · simp only [hbranch, ne_eq, not_true_eq_false, if_false] at h
      cases h
      exact ⟨rfl, fun binding' hbinding => Option.some.inj hbinding ▸ hbranch⟩
    · simp only [ne_eq, hbranch, not_false_eq_true, if_true] at h
      cases h

theorem checked_checkedReply (op : Op) (raw : Except Exc op.Reply) :
    Checked identity branch op (checkedReply strRepr identity branch op raw) := by
  cases op with
  | readControl =>
    cases raw with
    | error exc => trivial
    | ok snapshot =>
      rw [checkedReply]
      cases hcheck : checkSnapshot strRepr identity branch snapshot with
      | error error => trivial
      | ok snapshot' =>
        obtain ⟨rfl, hbranch⟩ := checkSnapshot_ok hcheck
        exact hbranch
  | _ => trivial

/-- A reply that binds the identity to the branch is one that is let through. -/
theorem binds_of_checkedReply {raw : Except Exc ControlSnapshot}
    (h : Binds identity branch (checkedReply strRepr identity branch .readControl raw)) : Binds identity branch raw := by
  obtain ⟨snapshot, binding, hreply, hlane, hbranch⟩ := h
  cases raw with
  | error exc => cases hreply
  | ok snapshot' =>
    rw [checkedReply] at hreply
    cases hcheck : checkSnapshot strRepr identity branch snapshot' with
    | error error => rw [hcheck] at hreply; cases hreply
    | ok snapshot'' =>
      rw [hcheck] at hreply
      cases hreply
      obtain ⟨rfl, -⟩ := checkSnapshot_ok hcheck
      exact ⟨snapshot, binding, rfl, hlane, hbranch⟩

theorem bound_of_checkedAnswer {answers : List (Answer Sources Exc)}
    (h : Bound identity branch (answers.map (checkedAnswer strRepr identity branch))) : Bound identity branch answers :=
  fun _ hmem => binds_of_checkedReply (h _ (List.mem_map_of_mem (f := checkedAnswer strRepr identity branch) hmem))

/-- A run of the delegate is one of the append over the checked control source. -/
theorem runs_delegate {σ : Type} {env : Environment Sources Exc σ} {p : Program α} {cause : Option BranchBindingError}
    {s t : σ} {answers : List (Answer Sources Exc)} {result : Except Exc α}
    (hrun : Runs env (delegate strRepr identity branch cause p) s answers result t) :
    ∃ result', Runs (CheckedSources strRepr identity branch env) p s (answers.map (checkedAnswer strRepr identity branch))
      result' t ∧ ∀ a, result = .ok a → result' = .ok a := by
  induction p generalizing cause s answers with
  | done result' =>
    cases result' with
    | ok a =>
      obtain ⟨rfl, rfl, rfl⟩ := runs_done.mp hrun
      exact ⟨_, .done, fun _ h => h⟩
    | error exc =>
      obtain ⟨rfl, rfl, rfl⟩ := runs_done.mp hrun
      exact ⟨_, .done, fun _ h => by cases h⟩
  | call op next ih =>
    obtain ⟨raw, u, rest, henv, rfl, hnext⟩ := runs_call.mp hrun
    obtain ⟨result', hrest, hok⟩ := ih _ hnext
    exact ⟨result', .call ⟨raw, henv, rfl⟩ hrest, hok⟩

end checked

/-! ### The append stays on its branch -/

section stays

variable {identity branch : String} {answers : List (Answer Sources Exc)}

/-- The judgement of programs over the checked control source. -/
abbrev Stays (identity branch : String) (P : List (Answer Sources Exc) → Prop) (p : Program α)
    (R : α → List (Answer Sources Exc) → Prop) : Prop :=
  Secures (Recording (Checked identity branch)) Eq (Allowed identity branch) P p R

theorem allowed_of_passive {op : Op} {reply : Except Exc op.Reply} (hop : IsPassive op) :
    Allowed identity branch answers (answers ++ [⟨op, reply⟩]) := by
  intro ref candidateSha reply' heq
  cases List.append_cancel_left heq
  exact hop.elim

theorem Bound.append {op : Op} {reply : Except Exc op.Reply} (h : Bound identity branch answers)
    (hreply : ∀ reply', (⟨op, reply⟩ : Answer Sources Exc) = ⟨.readControl, reply'⟩ → Binds identity branch reply') :
    Bound identity branch (answers ++ [⟨op, reply⟩]) := by
  intro reply' hmem
  rcases List.mem_append.mp hmem with hmem | hmem
  · exact h reply' hmem
  · exact hreply reply' (List.mem_singleton.mp hmem).symm

/-- A call that neither reads control nor updates a ref. -/
theorem stays_askOr {op : Op} {handler : Exc → Exc} (hop : IsPassive op) (hcontrol : op ≠ .readControl) :
    Stays identity branch (Bound identity branch) (askOr op handler) fun _ => Bound identity branch := by
  refine Secures.askOr stable_eq fun answers reply answers' hbound ⟨_, heq⟩ => ?_
  subst heq
  exact ⟨allowed_of_passive hop, fun _ _ => hbound.append fun _ h => absurd (Answer.mk.inj h).1 hcontrol⟩

/-- A read of control that finds the identity bound keeps all of them bound. -/
theorem stays_readControl {handler : Exc → Exc} :
    Stays identity branch (Bound identity branch) (askOr .readControl handler) fun control answers =>
      ∀ binding, control.lanes identity = some binding → binding.branch = branch ∧ Bound identity branch answers := by
  refine Secures.askOr stable_eq fun answers reply answers' hbound ⟨hchecked, heq⟩ => ?_
  subst heq
  refine ⟨allowed_of_passive trivial, fun control hreply binding hlane => ?_⟩
  subst hreply
  have hbranch := hchecked binding hlane
  refine ⟨hbranch, hbound.append fun reply' h => ?_⟩
  cases h
  exact ⟨control, binding, rfl, hlane, hbranch⟩

theorem stays_passive {P : List (Answer Sources Exc) → Prop} {R : α → Prop} {p : Program α} (h : p.Only IsPassive)
    (hR : p.Yields R) : Stays identity branch P p fun a _ => R a :=
  Secures.yields h hR fun _ _ _ _ hop ⟨_, heq⟩ => heq ▸ allowed_of_passive hop

theorem stays_observeHead (ref : String) :
    Stays identity branch (Bound identity branch) (observeHead ref) fun _ => Bound identity branch := by
  refine Secures.bind (stays_askOr trivial nofun) fun observed => ?_
  cases observed with
  | none => exact Secures.throw _
  | some head => exact Secures.pure _ fun _ => id

theorem stays_readHistory (identity' : String) :
    Stays identity branch (Bound identity branch) (readHistory identity') fun _ => Bound identity branch :=
  Secures.bind (stays_askOr trivial nofun) fun _ => Secures.bind (Secures.refuseIf _ _) fun _ =>
    Secures.pure _ fun _ h => h.1

/-- The second read of control binds the identity as the first did. -/
theorem stays_buildCandidate {control : ControlSnapshot} {envelope : Envelope} {history : IdentityHistory}
    {observedHead : String} {binding : LaneBinding} (hlane : control.lanes identity = some binding)
    (hidentity : envelope.identity = identity) :
    Stays identity branch (Bound identity branch) (buildCandidate control envelope history observedHead)
      fun _ => Bound identity branch := by
  refine Secures.bind (Secures.refuseIf _ _) fun _ => Secures.weaken ?_ fun _ h => h.1
  refine Secures.bind (Secures.lift _) fun _ => Secures.weaken ?_ fun _ h => h.1
  refine Secures.bind (stays_askOr trivial nofun) fun _ => ?_
  refine Secures.bind (Secures.refuseIf _ _) fun _ => Secures.weaken ?_ fun _ h => h.1
  refine Secures.bind (stays_askOr trivial nofun) fun _ => Secures.bind (stays_askOr trivial nofun) fun _ =>
    Secures.bind (stays_askOr trivial nofun) fun _ => ?_
  refine Secures.bind stays_readControl fun rebound => Secures.bind (Secures.refuseIf _ _) fun _ =>
    Secures.pure _ fun answers ⟨hbound, hsame⟩ => ?_
  rw [Bool.not_eq_false, sameBinding, decide_eq_true_eq, hidentity] at hsame
  exact (hbound binding (hsame.2.2 ▸ hlane)).2

theorem yields_verifyNewAppend (runtime : Runtime) (control : ControlSnapshot) (binding : LaneBinding) (envelope : Envelope)
    (prewriteObservedHead candidateSha treeSha blobSha : String) :
    (verifyNewAppend runtime control binding envelope prewriteObservedHead candidateSha treeSha blobSha).Yields
      fun receipt => receipt.laneRef = binding.branch := by
  refine Prog.Yields.bind fun _ => Prog.Yields.bind fun _ => Prog.Yields.bind fun commit => ?_
  cases commit with
  | none => exact Prog.Yields.throw
  | some commit =>
    refine Prog.Yields.bind fun _ => Prog.Yields.bind fun _ => Prog.Yields.bind fun file => ?_
    cases file with
    | none => exact Prog.Yields.throw
    | some file =>
      exact Prog.Yields.bind fun _ => Prog.Yields.bind fun _ => Prog.Yields.bind fun _ => Prog.Yields.pure rfl

theorem yields_reconstructExisting (runtime : Runtime) (control : ControlSnapshot) (binding : LaneBinding) (envelope : Envelope)
    (observedHead : String) (existing : CommittedMessage) :
    (reconstructExisting runtime control binding envelope observedHead existing).Yields
      fun receipt => receipt.result = "ALREADY_COMMITTED" := by
  refine Prog.Yields.bind fun commit => Prog.Yields.bind fun file => ?_
  split
  · split
    · exact Prog.Yields.bind fun _ => Prog.Yields.bind fun _ => Prog.Yields.bind fun _ => Prog.Yields.bind fun _ =>
        Prog.Yields.bind fun _ => Prog.Yields.pure rfl
    · exact Prog.Yields.throw
  · exact Prog.Yields.throw

/-- The update is of the branch's ref, and what is called after it is no update. -/
theorem stays_moveRefOrReconcile (candidateSha expectedHead : String) :
    Stays identity branch (Bound identity branch) (moveRefOrReconcile branch candidateSha expectedHead) fun _ _ => True := by
  refine Secures.call (T := fun _ _ => True) stable_eq ?_ fun update => ?_
  · rintro answers reply answers' hbound ⟨-, rfl⟩
    refine ⟨fun ref candidateSha' reply' heq => ?_, trivial⟩
    cases List.append_cancel_left heq
    exact ⟨rfl, hbound⟩
  · refine Secures.only (Prog.Only.bind (only_askOr trivial) fun head => ?_) fun _ _ _ _ hop hcall =>
      hcall.2 ▸ allowed_of_passive hop
    cases update with
    | error exc => exact only_reconcileUpdate
    | ok moved => exact only_lift _

theorem stays_appendEnvelope {runtime : Runtime} {envelope : Envelope} (hidentity : envelope.identity = identity) :
    Stays identity branch (Bound identity branch) (appendEnvelope runtime envelope)
      fun receipt _ => receipt.result = "APPENDED" → receipt.laneRef = branch := by
  refine Secures.bind stays_readControl fun control => Secures.bind (Secures.lift _) fun binding =>
    Secures.assume fun hbinding => ?_
  have hlane := lane_of_requireBinding hbinding
  rw [hidentity] at hlane
  refine Secures.weaken (P := fun answers => Bound identity branch answers ∧ binding.branch = branch)
    (Secures.assume fun hbranch => ?_) fun _ hbound => (hbound binding hlane).symm
  refine Secures.bind (stays_observeHead _) fun observedHead => Secures.bind (stays_readHistory _) fun history => ?_
  split
  · refine Secures.bind (stays_buildCandidate hlane hidentity) fun (blobSha, treeSha, candidateSha) => ?_
    subst hbranch
    exact Secures.bind (stays_moveRefOrReconcile _ _) fun _ =>
      stays_passive (only_verifyNewAppend ..) ((yields_verifyNewAppend _ _ _ _ _ _ _ _).mono fun _ h _ => h)
  · split
    · exact Secures.throw _
    · refine stays_passive (only_reconstructExisting ..) ((yields_reconstructExisting _ _ _ _ _ _).mono fun receipt h happended => ?_)
      rw [h] at happended
      exact absurd happended (by decide)
  · exact Secures.throw _

theorem stays_appendBusMessageV1 {runtime : Runtime} {expectedLaneHead : String} {message : Utf8} :
    Stays identity branch (Bound identity branch) (appendBusMessageV1 runtime identity expectedLaneHead message)
      fun receipt _ => receipt.result = "APPENDED" → receipt.laneRef = branch := by
  refine Secures.bind (Secures.lift _) fun envelope => Secures.assume fun hopen => ?_
  exact stays_appendEnvelope (openEnvelope_ok hopen).2.2.1

end stays

/-- **Every update that a branch-bound append attempts is of the declared branch's ref, after
control reads that all bound the identity to that branch; and what it returns as appended is
on that branch.** -/
theorem append_bound {σ : Type} (env : Environment Sources Exc σ) (expectedLaneHead : String) (message : Utf8)
    (answers : List (Answer Sources Exc)) (result : Except Exc SafeAppendReceipt) (s t : σ)
    (hrun : Runs env (branchBoundAppend loneReader strRepr identity runtime expectedLaneHead message) s answers result t) :
    (∀ first ref candidateSha reply last, answers = first ++ ⟨.updateRefNonForce ref candidateSha, reply⟩ :: last →
      declaredBranch loneReader message = .ok ref ∧ Bound identity ref first) ∧
    ∀ receipt, result = .ok receipt → receipt.result = "APPENDED" →
      declaredBranch loneReader message = .ok receipt.laneRef := by
  rcases runs_bind.mp hrun with ⟨exc, hdeclared, rfl⟩ | ⟨branch, mid, before, rest, hdeclared, hdelegate, rfl⟩
  · obtain ⟨rfl, -, -⟩ := runs_lift.mp hdeclared
    exact ⟨fun first ref candidateSha reply last heq => by simp at heq, fun receipt h => by cases h⟩
  obtain ⟨rfl, hbranch, rfl⟩ := runs_lift.mp hdeclared
  obtain ⟨result', hchecked, hok⟩ := runs_delegate hdelegate
  have hstays : Stays identity branch (Bound identity branch) (appendBusMessageV1 runtime identity expectedLaneHead message)
      fun receipt _ => receipt.result = "APPENDED" → receipt.laneRef = branch := stays_appendBusMessageV1
  obtain ⟨hreturns, hallowed⟩ := (hstays [] (fun _ h => by cases h)).recorded
    (fun op s reply t ⟨raw, _, heq⟩ => heq ▸ checked_checkedReply op raw) hchecked
  refine ⟨fun first ref candidateSha reply last heq => ?_, fun receipt h happended => ?_⟩
  · rw [List.nil_append] at heq
    have hmap := congrArg (List.map (checkedAnswer strRepr identity branch)) heq
    rw [List.map_append, List.map_cons] at hmap
    obtain ⟨rfl, hbound⟩ := hallowed _ _ _ hmap ref candidateSha _ rfl
    exact ⟨hbranch.symm, bound_of_checkedAnswer hbound⟩
  · rw [hok receipt h] at hreturns
    rw [← hbranch, hreturns happended]

/-! ### A run -/

def boundText : List Char := "message_id: yin-1\nwriter: yin\nwriter_branch: bus/yin-v2\n".toList

def boundMessage : Utf8 := .str (boundText.map fun c => Fin.ofNat 0x110000 c.toNat)

/-- A backend that appends the message, whose state is whether it has. -/
def boundBackend (op : Op) (moved : Bool) : Except Exc op.Reply × Bool :=
  match op with
  | .readControl => (.ok ⟨"radar", "c0", "t0", fun _ => some ⟨"yin", "yin", "bus/yin-v2"⟩⟩, moved)
  | .readIdentity _ => (.ok ⟨true, [], []⟩, moved)
  | .readBranchHead _ => (.ok (some (if moved then "candidate" else sampleHead)), moved)
  | .readFileAtCommit commitSha _ => (.ok (if commitSha = "candidate" then some ⟨"blob", encode boundText⟩ else none), moved)
  | .readCommit _ => (.ok (some ⟨[sampleHead], "tree", ["messages/yin-1.md"]⟩), moved)
  | .createBlob _ => (.ok "blob", moved)
  | .createTree _ _ _ => (.ok "tree", moved)
  | .createCommit _ _ _ => (.ok "candidate", moved)
  | .updateRefNonForce _ _ => (.ok true, true)
  | .isAncestor _ _ => (.ok none, moved)

/-- The branch-bound append against that backend. -/
def boundRun : List (Answer Sources Exc) × Except Exc SafeAppendReceipt × Bool :=
  (branchBoundAppend (fun _ => .ok "") id "yin" sampleRuntime sampleHead boundMessage).play boundBackend false

example : boundRun.2.1.map (fun receipt => (receipt.result, receipt.laneRef)) = .ok ("APPENDED", "bus/yin-v2") := by
  decide +kernel

theorem append_bound_sample :
    (∀ first ref candidateSha reply last, boundRun.1 = first ++ ⟨.updateRefNonForce ref candidateSha, reply⟩ :: last →
      declaredBranch (fun _ => .ok "") boundMessage = .ok ref ∧ Bound "yin" ref first) ∧
    ∀ receipt, boundRun.2.1 = .ok receipt → receipt.result = "APPENDED" →
      declaredBranch (fun _ => .ok "") boundMessage = .ok receipt.laneRef := by
  have hrun : Runs (fun _ _ _ _ => True) (branchBoundAppend (fun _ => .ok "") id "yin" sampleRuntime sampleHead boundMessage) false
      boundRun.1 boundRun.2.1 boundRun.2.2 :=
    runs_play (J := fun _ => True) (fun _ _ _ => ⟨trivial, trivial⟩) _ _ trivial
  exact append_bound (fun _ => .ok "") id "yin" sampleRuntime _ sampleHead boundMessage _ _ _ _ hrun

end CcbCore.Append
