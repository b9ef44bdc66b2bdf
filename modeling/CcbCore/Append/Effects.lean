import CcbCore.Append.Operation

/-!
# The effect an append reports

A caller of `append_bus_message_v1` decides from the error alone whether to retry: it
should see a receipt or a `SafeAppendError`, and never `NONE_ESTABLISHED` when the
ref was moved (`Truthful`). Against an environment that may return anything and
raise anything (`AnyBackend`, whose state is whether the ref was moved), this fails
in three ways, and only in these (`append_truthful_iff`): a `str` that does not
encode escapes as a `UnicodeEncodeError`; what the read of a commit or its file
raises in a readback escapes as it is; and an update that moved the ref and then
raised is reported stale when the head read after it is neither the candidate nor
the expected head, nor, as `is_ancestor` says, above the candidate.
-/

namespace CcbCore.Append

open CcbCore.Python CcbCore.Message

variable {α β : Type}

/-- Any replies at all. The state is whether the ref was moved to the candidate: an
update that returns `False` did not move it; one that raises may have. -/
def AnyBackend : Environment Sources Exc Bool := fun op moved reply moved' =>
  match op, reply with
  | .updateRefNonForce _ _, .ok false => moved' = moved
  | .updateRefNonForce _ _, _ => moved' = moved ∨ moved' = true
  | _, _ => moved' = moved

/-- The result is a receipt, or a `SafeAppendError` that does not deny a move of the ref. -/
def Truthful (moved : Bool) : Except Exc α → Prop
  | .ok _ => True
  | .error (.other _) => False
  | .error (.safe error) => moved = true → error.effectState ≠ noneEstablished

/-! ### Where it fails -/

/-- The call updates the ref. -/
def isUpdate (answer : Answer Sources Exc) : Bool :=
  match answer.op with
  | .updateRefNonForce _ _ => true
  | _ => false

/-- The call reads a commit back. -/
def isReadCommit (answer : Answer Sources Exc) : Bool :=
  match answer.op with
  | .readCommit _ => true
  | _ => false

/-- What the read of a commit, or the read of its file right after it, raised. -/
def readbackRaised (answers : List (Answer Sources Exc)) : Option Exc :=
  match answers.dropWhile fun answer => !isReadCommit answer with
  | ⟨.readCommit _, .error exc⟩ :: _ => some exc
  | ⟨.readCommit _, .ok _⟩ :: ⟨.readFileAtCommit _ _, .error exc⟩ :: _ => some exc
  | _ => none

/-- An update raised; the head was then neither the candidate nor the head expected,
and `is_ancestor` said that the candidate is not below it. -/
def UpdateLost (expectedHead : String) (answers : List (Answer Sources Exc)) : Prop :=
  match answers.dropWhile fun answer => !isUpdate answer with
  | ⟨.updateRefNonForce _ candidate, .error _⟩ :: ⟨.readBranchHead _, .ok (some head)⟩ ::
      ⟨.isAncestor _ _, .ok (some false)⟩ :: _ => head ≠ candidate ∧ head ≠ expectedHead
  | _ => False

/-- The arguments reach the encoder with a `str` that does not encode. -/
def Unencodable (identity expectedLaneHead : String) (message : Utf8) : Prop :=
  isIdentity identity.toList = true ∧ isSha40 expectedLaneHead.toList = true ∧
    ∃ text, message = .str text ∧ scalars text = none

/-- The ways in which the report of an envelope's append fails. -/
def Misreports (expectedHead : String) (answers : List (Answer Sources Exc)) (moved : Bool) : Prop :=
  (∃ text, readbackRaised answers = some (.other text)) ∨
    (moved = true ∧ ∃ error, readbackRaised answers = some (.safe error) ∧ error.effectState = noneEstablished) ∨
    (moved = true ∧ UpdateLost expectedHead answers)

/-- The ways in which an append's report fails. -/
def Misreported (identity expectedLaneHead : String) (message : Utf8) (answers : List (Answer Sources Exc))
    (moved : Bool) : Prop :=
  Unencodable identity expectedLaneHead message ∨ Misreports (lower expectedLaneHead) answers moved

/-! ### Plain programs -/

/-- A program that neither updates the ref nor reads a commit back, and raises only
`SafeAppendError`s of a kind. -/
def Plain (S : SafeAppendError → Prop) (p : Program α) : Prop :=
  ∀ moved answers result moved', Runs AnyBackend p moved answers result moved' →
    moved' = moved ∧ (∀ answer ∈ answers, isUpdate answer = false ∧ isReadCommit answer = false) ∧
      ∀ exc, result = .error exc → ∃ error, exc = .safe error ∧ S error

variable {S : SafeAppendError → Prop}

theorem Plain.lift {result : Except Exc α} (h : ∀ exc, result = .error exc → ∃ error, exc = .safe error ∧ S error) :
    Plain S (lift result) := by
  intro moved answers result' moved' hrun
  obtain ⟨rfl, rfl, rfl⟩ := runs_lift.mp hrun
  exact ⟨rfl, by simp, h⟩

theorem Plain.pure (a : α) : Plain S (Pure.pure a : Program α) := Plain.lift (by simp)

theorem Plain.throw {error : SafeAppendError} (h : S error) :
    Plain S (MonadExcept.throw (Exc.safe error) : Program α) :=
  Plain.lift (by simpa using h)

theorem Plain.refuseIf {p : Prop} [Decidable p] {error : SafeAppendError} (h : S error) :
    Plain S (refuseIf p (.safe error)) := by
  refine Plain.lift fun exc hexc => ?_
  split at hexc
  · cases hexc
    exact ⟨error, rfl, h⟩
  · cases hexc

theorem Plain.bind {p : Program α} {f : α → Program β} (hp : Plain S p) (hf : ∀ a, Plain S (f a)) :
    Plain S (p >>= f) := by
  intro moved answers result moved' hrun
  rcases runs_bind.mp hrun with ⟨exc, hp', rfl⟩ | ⟨a, mid, first, rest, hp', hf', rfl⟩
  · obtain ⟨hkeep, hcalls, hraise⟩ := hp _ _ _ _ hp'
    exact ⟨hkeep, hcalls, fun exc' h => hraise exc' (by cases h; rfl)⟩
  · obtain ⟨rfl, hcalls, -⟩ := hp _ _ _ _ hp'
    obtain ⟨hkeep, hcalls', hraise⟩ := hf a _ _ _ _ hf'
    refine ⟨hkeep, fun answer hmem => ?_, hraise⟩
    rcases List.mem_append.mp hmem with hmem | hmem
    · exact hcalls answer hmem
    · exact hcalls' answer hmem

/-- A call that is plain itself, with a handler that makes every exception one of the kind. -/
theorem Plain.askOr {op : Op} {handler : Exc → Exc} (hop : ∀ reply, isUpdate ⟨op, reply⟩ = false ∧ isReadCommit ⟨op, reply⟩ = false)
    (h : ∀ exc, ∃ error, handler exc = .safe error ∧ S error) : Plain S (askOr op handler) := by
  intro moved answers result moved' hrun
  obtain ⟨reply, henv, rfl, rfl⟩ := runs_askOr.mp hrun
  refine ⟨?_, by simpa using hop reply, fun exc hexc => ?_⟩
  · cases op <;> first | exact henv | exact absurd (hop reply).1 (by simp [isUpdate])
  · cases reply with
    | ok a => cases hexc
    | error exc' =>
      obtain ⟨error, heq, hS⟩ := h exc'
      cases hexc
      exact ⟨error, heq, hS⟩

/-- An error that does not deny an effect. -/
def Admits (error : SafeAppendError) : Prop := error.effectState ≠ noneEstablished

theorem unverified_ne : presentUnverified ≠ noneEstablished := by decide

theorem verified_ne : presentVerified ≠ noneEstablished := by decide

theorem unknown_ne : "UNKNOWN" ≠ noneEstablished := by decide

theorem plain_preflight (code : String) (detail : Option String) :
    ∃ error, preflight code detail = .safe error ∧ (fun _ => True) error := ⟨_, rfl, trivial⟩

theorem admits_readback (code : String) (detail : Option String) :
    ∃ error, readback code detail = .safe error ∧ Admits error := ⟨_, rfl, unverified_ne⟩

/-! ### Before the ref -/

theorem plain_keepSafe (code : String) (exc : Exc) : ∃ error, keepSafe code exc = .safe error ∧ (fun _ => True) error := by
  cases exc with
  | safe error => exact ⟨error, rfl, trivial⟩
  | other text => exact plain_preflight _ _

theorem plain_requireBinding (runtime : Runtime) (control : ControlSnapshot) (envelope : Envelope) :
    Plain (fun _ => True) (lift (requireBinding runtime control envelope)) := by
  refine Plain.lift fun exc h => ?_
  unfold requireBinding at h
  split at h
  · cases h
    exact plain_preflight _ _
  · split_ifs at h
    · cases h
      exact plain_preflight _ _
    · cases h
      exact plain_preflight _ _

theorem plain_observeHead (branch : String) : Plain (fun _ => True) (observeHead branch) := by
  refine (Plain.askOr (fun _ => ⟨rfl, rfl⟩) fun _ => plain_preflight _ _).bind fun observed => ?_
  cases observed with
  | none => exact Plain.throw trivial
  | some head => exact Plain.pure head

theorem plain_readHistory (identity : String) : Plain (fun _ => True) (readHistory identity) :=
  (Plain.askOr (fun _ => ⟨rfl, rfl⟩) (plain_keepSafe _)).bind fun _ =>
    (Plain.refuseIf trivial).bind fun _ => Plain.pure _

theorem plain_validatePredecessor (history : IdentityHistory) (parsed : ParsedMessage) :
    Plain (fun _ => True) (lift (validatePredecessor history parsed)) := by
  refine Plain.lift fun exc h => ?_
  unfold validatePredecessor at h
  split at h
  · cases h
    exact plain_preflight _ _
  · split_ifs at h <;> cases h <;> exact plain_preflight _ _
  · split at h
    · cases h
      exact plain_preflight _ _
    · split_ifs at h
      cases h
      exact plain_preflight _ _

theorem plain_buildCandidate (control : ControlSnapshot) (envelope : Envelope) (history : IdentityHistory)
    (observedHead : String) : Plain (fun _ => True) (buildCandidate control envelope history observedHead) := by
  refine (Plain.refuseIf trivial).bind fun _ => (plain_validatePredecessor _ _).bind fun _ =>
    (Plain.askOr (fun _ => ⟨rfl, rfl⟩) fun _ => plain_preflight _ _).bind fun _ => (Plain.refuseIf trivial).bind fun _ =>
    (Plain.askOr (fun _ => ⟨rfl, rfl⟩) fun _ => ⟨_, rfl, trivial⟩).bind fun _ =>
    (Plain.askOr (fun _ => ⟨rfl, rfl⟩) fun _ => ⟨_, rfl, trivial⟩).bind fun _ =>
    (Plain.askOr (fun _ => ⟨rfl, rfl⟩) fun _ => ⟨_, rfl, trivial⟩).bind fun _ =>
    (Plain.askOr (fun _ => ⟨rfl, rfl⟩) fun _ => plain_preflight _ _).bind fun _ => (Plain.refuseIf trivial).bind fun _ =>
    Plain.pure _

/-! ### Reading back -/

theorem plain_readControlAfterVerifiedEffect : Plain Admits readControlAfterVerifiedEffect :=
  Plain.askOr (fun _ => ⟨rfl, rfl⟩) fun _ => ⟨_, rfl, verified_ne⟩

theorem plain_verifyMetadata (runtime : Runtime) (parsed : ParsedMessage) (content : Bytes) :
    Plain Admits (lift (verifyMetadata runtime parsed content)) := by
  refine Plain.lift fun exc h => ?_
  unfold verifyMetadata at h
  split at h
  · cases h
    exact admits_readback _ _
  · split at h
    · cases h
      exact admits_readback _ _
    · split_ifs at h
      cases h
      exact admits_readback _ _

/-- What the read of a file raised, when it is the first call. -/
def fileRaised (answers : List (Answer Sources Exc)) : Option Exc :=
  match answers with
  | ⟨.readFileAtCommit _ _, .error exc⟩ :: _ => some exc
  | _ => none

/-- A program that updates no ref, and raises only `SafeAppendError`s of a kind and
what the calls `raised` looks at raised. -/
def RaisesOr (S : SafeAppendError → Prop) (raised : List (Answer Sources Exc) → Option Exc) (p : Program α) : Prop :=
  ∀ moved answers result moved', Runs AnyBackend p moved answers result moved' →
    moved' = moved ∧ (∀ answer ∈ answers, isUpdate answer = false) ∧
      (∀ exc, result = .error exc → (∃ error, exc = .safe error ∧ S error) ∨ raised answers = some exc) ∧
      ∀ exc, raised answers = some exc → result = .error exc

theorem RaisesOr.throw {error : SafeAppendError} (h : S error) :
    RaisesOr S fileRaised (MonadExcept.throw (Exc.safe error) : Program α) := by
  intro moved answers result moved' hrun
  obtain ⟨rfl, rfl, rfl⟩ := runs_throw.mp hrun
  exact ⟨rfl, by simp, fun exc hexc => by cases hexc; exact .inl ⟨error, rfl, h⟩, by simp [fileRaised]⟩

theorem RaisesOr.refuseIf_bind {p : Prop} [Decidable p] {error : SafeAppendError} {f : Unit → Program α} (h : S error)
    (hf : RaisesOr S fileRaised (f ⟨⟩)) : RaisesOr S fileRaised (refuseIf p (.safe error) >>= f) := by
  by_cases hp : p
  · rw [show refuseIf p (.safe error) = MonadExcept.throw (Exc.safe error) by simp [refuseIf, Prog.refuseIf, hp, Prog.throw_eq]]
    exact RaisesOr.throw h
  · rw [show refuseIf p (.safe error) = Pure.pure ⟨⟩ by simp [refuseIf, Prog.refuseIf, hp, Prog.pure_eq]]
    exact hf

/-- The read of a file, outside any `try`, and then a plain program. -/
theorem RaisesOr.readFile_bind {commitSha path : String} {f : Option FileReadback → Program α}
    (hf : ∀ file, Plain S (f file)) : RaisesOr S fileRaised (ask (.readFileAtCommit commitSha path) >>= f) := by
  intro moved answers result moved' hrun
  rcases runs_bind.mp hrun with ⟨exc, hask, rfl⟩ | ⟨file, mid, first, rest, hask, hrest, rfl⟩
  · obtain ⟨henv, rfl⟩ := runs_ask.mp hask
    refine ⟨henv, by simp [isUpdate], fun exc' h => .inr (by cases h; rfl), fun exc' h => ?_⟩
    cases h
    rfl
  · obtain ⟨henv, rfl⟩ := runs_ask.mp hask
    obtain ⟨hkeep, hcalls, hraise⟩ := hf file _ _ _ _ hrest
    refine ⟨hkeep.trans henv, ?_, fun exc h => .inl (hraise exc h), by simp [fileRaised]⟩
    simpa [isUpdate] using fun answer hmem => (hcalls answer hmem).1

/-- The read of a commit, outside any `try`, and then what may read a file so. -/
theorem RaisesOr.readCommit_bind {commitSha : String} {f : Option CommitReadback → Program α}
    (hf : ∀ commit, RaisesOr S fileRaised (f commit)) :
    RaisesOr S readbackRaised (ask (.readCommit commitSha) >>= f) := by
  intro moved answers result moved' hrun
  rcases runs_bind.mp hrun with ⟨exc, hask, rfl⟩ | ⟨commit, mid, first, rest, hask, hrest, rfl⟩
  · obtain ⟨henv, rfl⟩ := runs_ask.mp hask
    refine ⟨henv, by simp [isUpdate], fun exc' h => .inr (by cases h; rfl), fun exc' h => ?_⟩
    cases h
    rfl
  · obtain ⟨henv, rfl⟩ := runs_ask.mp hask
    obtain ⟨hkeep, hcalls, hraise, hraised⟩ := hf commit _ _ _ _ hrest
    have heq : readbackRaised ([⟨.readCommit commitSha, .ok commit⟩] ++ rest) = fileRaised rest := by
      simp only [readbackRaised, List.cons_append, List.nil_append, List.dropWhile, isReadCommit, Bool.not_true]
      unfold fileRaised
      split <;> simp_all
    rw [heq]
    refine ⟨hkeep.trans henv, ?_, hraise, hraised⟩
    simpa [isUpdate] using hcalls

/-- A plain program, and then one that may raise what a readback raised. -/
theorem RaisesOr.plain_bind {p : Program α} {f : α → Program β} (hp : Plain S p)
    (hf : ∀ a, RaisesOr S readbackRaised (f a)) : RaisesOr S readbackRaised (p >>= f) := by
  intro moved answers result moved' hrun
  rcases runs_bind.mp hrun with ⟨exc, hp', rfl⟩ | ⟨a, mid, first, rest, hp', hf', rfl⟩
  · obtain ⟨hkeep, hcalls, hraise⟩ := hp _ _ _ _ hp'
    have hnone : readbackRaised answers = none := by
      simp only [readbackRaised]
      rw [List.dropWhile_eq_nil_iff.mpr fun answer hmem => by simp [(hcalls answer hmem).2]]
    refine ⟨hkeep, fun answer hmem => (hcalls answer hmem).1, fun exc' h => .inl ?_, by simp [hnone]⟩
    exact hraise exc' (by cases h; rfl)
  · obtain ⟨rfl, hcalls, -⟩ := hp _ _ _ _ hp'
    obtain ⟨hkeep, hcalls', hraise, hraised⟩ := hf a _ _ _ _ hf'
    have heq : readbackRaised (first ++ rest) = readbackRaised rest := by
      simp only [readbackRaised]
      rw [List.dropWhile_append_of_pos fun answer hmem => by simp [(hcalls answer hmem).2]]
    rw [heq]
    refine ⟨hkeep, fun answer hmem => ?_, hraise, hraised⟩
    rcases List.mem_append.mp hmem with hmem | hmem
    · exact (hcalls answer hmem).1
    · exact hcalls' answer hmem

theorem raisesOr_reconstructExisting (runtime : Runtime) (control : ControlSnapshot) (binding : LaneBinding)
    (envelope : Envelope) (observedHead : String) (existing : CommittedMessage) :
    RaisesOr Admits readbackRaised
      (reconstructExisting runtime control binding envelope observedHead existing) := by
  refine RaisesOr.readCommit_bind fun commit => RaisesOr.readFile_bind fun file => ?_
  split
  · split
    · exact (Plain.refuseIf unverified_ne).bind fun _ => (Plain.refuseIf unverified_ne).bind fun _ =>
        (Plain.refuseIf unverified_ne).bind fun _ => (plain_verifyMetadata _ _ _).bind fun _ =>
        plain_readControlAfterVerifiedEffect.bind fun _ => Plain.pure _
    · exact Plain.throw unverified_ne
  · exact Plain.throw unverified_ne

theorem raisesOr_verifyNewAppend (runtime : Runtime) (control : ControlSnapshot) (binding : LaneBinding)
    (envelope : Envelope) (prewriteObservedHead candidateSha treeSha blobSha : String) :
    RaisesOr Admits readbackRaised
      (verifyNewAppend runtime control binding envelope prewriteObservedHead candidateSha treeSha blobSha) := by
  refine RaisesOr.plain_bind (Plain.askOr (fun _ => ⟨rfl, rfl⟩) fun _ => admits_readback _ _) fun _ =>
    RaisesOr.plain_bind (Plain.refuseIf unverified_ne) fun _ => RaisesOr.readCommit_bind fun commit => ?_
  split
  · exact RaisesOr.throw unverified_ne
  · refine RaisesOr.refuseIf_bind unverified_ne (RaisesOr.refuseIf_bind unverified_ne
      (RaisesOr.readFile_bind fun file => ?_))
    split
    · exact Plain.throw unverified_ne
    · exact (Plain.refuseIf unverified_ne).bind fun _ => (plain_verifyMetadata _ _ _).bind fun _ =>
        plain_readControlAfterVerifiedEffect.bind fun _ => Plain.pure _

/-! ### Moving the ref -/

theorem runs_concludeUpdate {candidateSha expectedHead : String} {flag : Bool} {head : Option String} {exc : Exc}
    (h : concludeUpdate candidateSha expectedHead flag head = .error exc) :
    flag = false ∧ ∃ error, exc = .safe error ∧ error.effectState = noneEstablished := by
  unfold concludeUpdate at h
  split_ifs at h with hmoved <;> cases h
  · exact ⟨by simpa using (not_or.mp hmoved).1, _, rfl, rfl⟩
  · exact ⟨by simpa using (not_or.mp hmoved).1, _, rfl, rfl⟩

/-- An update that returned is not lost. -/
theorem not_updateLost_ok {expectedHead branch candidateSha : String} {flag : Bool} {rest : List (Answer Sources Exc)} :
    ¬ UpdateLost expectedHead (⟨.updateRefNonForce branch candidateSha, .ok flag⟩ :: rest) := by
  simp [UpdateLost, List.dropWhile, isUpdate]

/-- An update that raised is lost when the head read next is another, below which the
candidate is not. -/
theorem updateLost_error {expectedHead branch branch' candidateSha : String} {exc : Exc}
    {reply : Except Exc (Option String)} {rest : List (Answer Sources Exc)} :
    UpdateLost expectedHead
        (⟨.updateRefNonForce branch candidateSha, .error exc⟩ :: ⟨.readBranchHead branch', reply⟩ :: rest) ↔
      ∃ head, reply = .ok (some head) ∧ head ≠ candidateSha ∧ head ≠ expectedHead ∧
        ∃ ancestor descendant rest', rest = ⟨.isAncestor ancestor descendant, .ok (some false)⟩ :: rest' := by
  simp only [UpdateLost, List.dropWhile, isUpdate, Bool.not_true]
  constructor
  · intro h
    split at h
    · next heq =>
      simp only [List.cons.injEq, Answer.mk.injEq, heq_eq_eq] at heq
      obtain ⟨⟨hop, -⟩, ⟨hop', hreply⟩, hrest⟩ := heq
      cases hop
      cases hop'
      exact ⟨_, hreply, h.1, h.2, _, _, _, hrest⟩
    · exact h.elim
  · rintro ⟨head, rfl, hc, he, _, _, _, rfl⟩
    exact ⟨hc, he⟩

/-- An update that raised is taken for done when the head is the candidate; else the
error denies an effect just when the candidate is not below another head. -/
theorem reconcileUpdate_runs {candidateSha expectedHead : String} {updateError : Exc} {head : Option String}
    {answers : List (Answer Sources Exc)} {result : Except Exc Unit} {moved moved' : Bool}
    (hrun : Runs AnyBackend (reconcileUpdate candidateSha expectedHead updateError head) moved answers result moved') :
    (∀ answer ∈ answers, isReadCommit answer = false) ∧
      (∀ exc, result = .error exc → ∃ error, exc = .safe error ∧ (error.effectState = noneEstablished ↔
        ∃ found, head = some found ∧ found ≠ candidateSha ∧ found ≠ expectedHead ∧
          ∃ ancestor descendant rest, answers = ⟨.isAncestor ancestor descendant, .ok (some false)⟩ :: rest)) ∧
      ((∃ u, result = .ok u) → head = some candidateSha) := by
  unfold reconcileUpdate at hrun
  by_cases hcandidate : head = some candidateSha
  · rw [if_pos hcandidate] at hrun
    obtain ⟨rfl, rfl, rfl⟩ := runs_pure.mp hrun
    exact ⟨by simp, by simp, fun _ => hcandidate⟩
  · rw [if_neg hcandidate] at hrun
    cases head with
    | none =>
      obtain ⟨rfl, rfl, rfl⟩ := runs_throw.mp hrun
      refine ⟨by simp, fun exc h => ?_, by simp⟩
      cases h
      exact ⟨_, rfl, iff_of_false unknown_ne (by simp)⟩
    | some found =>
      obtain ⟨reply, mid, rest, -, rfl, hnext⟩ := runs_call.mp hrun
      have hne : found ≠ candidateSha := fun h => hcandidate (congrArg some h)
      cases reply with
      | error exc =>
        obtain ⟨rfl, rfl, rfl⟩ := runs_throw.mp hnext
        refine ⟨by simp [isReadCommit], fun exc h => ?_, by simp⟩
        cases h
        exact ⟨_, rfl, iff_of_false unknown_ne (by simp)⟩
      | ok reachable =>
        cases reachable with
        | none =>
          obtain ⟨rfl, rfl, rfl⟩ := runs_throw.mp hnext
          refine ⟨by simp [isReadCommit], fun exc h => ?_, by simp⟩
          cases h
          exact ⟨_, rfl, iff_of_false unknown_ne (by simp)⟩
        | some below =>
          cases below with
          | true =>
            obtain ⟨rfl, rfl, rfl⟩ := runs_throw.mp hnext
            refine ⟨by simp [isReadCommit], fun exc h => ?_, by simp⟩
            cases h
            exact ⟨_, rfl, iff_of_false unverified_ne (by simp)⟩
          | false =>
            have hchoice : Runs AnyBackend
                (if some found ≠ some expectedHead then throw (refError "REF_UPDATE_STALE" noneEstablished)
                  else throw (refError "WRITE_OUTCOME_UNKNOWN" "UNKNOWN" updateError.text) : Program Unit)
                mid rest result moved' := hnext
            by_cases hexpected : found = expectedHead
            · rw [if_neg (by simp [hexpected])] at hchoice
              obtain ⟨rfl, rfl, rfl⟩ := runs_throw.mp hchoice
              refine ⟨by simp [isReadCommit], fun exc h => ?_, by simp⟩
              cases h
              exact ⟨_, rfl, iff_of_false unknown_ne (by simp [hexpected])⟩
            · rw [if_pos (by simp [hexpected])] at hchoice
              obtain ⟨rfl, rfl, rfl⟩ := runs_throw.mp hchoice
              refine ⟨by simp [isReadCommit], fun exc h => ?_, by simp⟩
              cases h
              exact ⟨_, rfl, iff_of_true rfl ⟨found, rfl, hne, hexpected, _, _, _, rfl⟩⟩

/-- Moving the ref reads no commit back, and raises only `SafeAppendError`s. After a
move, one of them denies it just when the update is lost; and no update is lost when
it returns. -/
theorem moveRefOrReconcile_runs {branch candidateSha expectedHead : String} {answers : List (Answer Sources Exc)}
    {result : Except Exc Unit} {moved : Bool}
    (hrun : Runs AnyBackend (moveRefOrReconcile branch candidateSha expectedHead) false answers result moved) :
    (∀ answer ∈ answers, isReadCommit answer = false) ∧
      (∀ exc, result = .error exc → ∃ error, exc = .safe error ∧
        (moved = true → (error.effectState = noneEstablished ↔ UpdateLost expectedHead answers))) ∧
      ((∃ u, result = .ok u) → ∀ rest, ¬ UpdateLost expectedHead (answers ++ rest)) := by
  obtain ⟨update, mid, rest, henv, rfl, hnext⟩ := runs_call.mp hrun
  rcases runs_bind.mp hnext with ⟨exc, hask, rfl⟩ | ⟨head, mid', first, last, hask, hrest, rfl⟩
  · -- the head could not be read
    obtain ⟨reply, -, rfl, hreply⟩ := runs_askOr.mp hask
    cases reply with
    | ok a => cases hreply
    | error exc' =>
      cases hreply
      refine ⟨by simp [isReadCommit], fun exc h => ?_, by simp⟩
      cases h
      refine ⟨_, rfl, fun _ => iff_of_false unknown_ne fun hlost => ?_⟩
      cases update with
      | ok flag => exact not_updateLost_ok hlost
      | error exc =>
        obtain ⟨_, hreply, -⟩ := updateLost_error.mp hlost
        cases hreply
  · obtain ⟨reply, hkeep, rfl, hreply⟩ := runs_askOr.mp hask
    obtain rfl : reply = .ok head := by
      cases reply with
      | ok a => cases hreply; rfl
      | error exc' => cases hreply
    have hkeep : mid' = mid := hkeep
    subst hkeep
    cases update with
    | ok flag =>
      -- the update returned: when it says it did not move the ref, it did not
      obtain ⟨rfl, rfl, rfl⟩ := runs_lift.mp hrest
      refine ⟨by simp [isReadCommit], fun exc h => ?_, fun _ rest => not_updateLost_ok⟩
      obtain ⟨rfl, error, rfl, -⟩ := runs_concludeUpdate h
      have hfalse : moved = false := henv
      exact ⟨error, rfl, fun htrue => absurd (hfalse.symm.trans htrue) (by simp)⟩
    | error exc =>
      obtain ⟨hcalls, hraise, hdone⟩ := reconcileUpdate_runs hrest
      refine ⟨by simpa [isReadCommit] using hcalls, fun exc' h => ?_, fun hok rest hlost => ?_⟩
      · obtain ⟨error, rfl, hdenies⟩ := hraise exc' h
        refine ⟨error, rfl, fun _ => hdenies.trans ?_⟩
        rw [List.singleton_append, updateLost_error]
        simp
      · obtain ⟨found, hreply, hne, -⟩ := updateLost_error.mp hlost
        cases hreply
        exact hne (Option.some.inj (hdone hok))

/-! ### A whole append -/

theorem updateLost_plain {expectedHead : String} {first rest : List (Answer Sources Exc)}
    (h : ∀ answer ∈ first, isUpdate answer = false) :
    UpdateLost expectedHead (first ++ rest) ↔ UpdateLost expectedHead rest := by
  simp only [UpdateLost]
  rw [List.dropWhile_append_of_pos fun answer hmem => by simp [h answer hmem]]

theorem not_updateLost_plain {expectedHead : String} {answers : List (Answer Sources Exc)}
    (h : ∀ answer ∈ answers, isUpdate answer = false) : ¬ UpdateLost expectedHead answers := by
  simp only [UpdateLost]
  rw [List.dropWhile_eq_nil_iff.mpr fun answer hmem => by simp [h answer hmem]]
  exact not_false

theorem readbackRaised_plain {first rest : List (Answer Sources Exc)}
    (h : ∀ answer ∈ first, isReadCommit answer = false) :
    readbackRaised (first ++ rest) = readbackRaised rest := by
  simp only [readbackRaised]
  rw [List.dropWhile_append_of_pos fun answer hmem => by simp [h answer hmem]]

theorem readbackRaised_eq_none {answers : List (Answer Sources Exc)}
    (h : ∀ answer ∈ answers, isReadCommit answer = false) : readbackRaised answers = none := by
  simp only [readbackRaised]
  rw [List.dropWhile_eq_nil_iff.mpr fun answer hmem => by simp [h answer hmem]]

/-- A program that raises, besides errors that admit an effect, only what a readback
raised: it is truthful unless the readback raised what is not. -/
theorem RaisesOr.truthful_iff {p : Program α} (hp : RaisesOr Admits readbackRaised p) {expectedHead : String}
    {moved moved' : Bool} {first answers : List (Answer Sources Exc)} {result : Except Exc α}
    (hrun : Runs AnyBackend p moved answers result moved') (hfirst : ∀ answer ∈ first, isReadCommit answer = false)
    (hlost : ¬ UpdateLost expectedHead (first ++ answers)) :
    Truthful moved' result ↔ ¬ Misreports expectedHead (first ++ answers) moved' := by
  obtain ⟨-, -, hraise, hraised⟩ := hp _ _ _ _ hrun
  simp only [Misreports, readbackRaised_plain hfirst, hlost, and_false, or_false]
  cases result with
  | ok a =>
    have hnone : readbackRaised answers = none := by
      rw [Option.eq_none_iff_forall_ne_some]
      intro exc h
      cases hraised exc h
    simp [Truthful, hnone]
  | error exc =>
    by_cases hsome : readbackRaised answers = some exc
    · cases exc with
      | other text => simp [Truthful, hsome]
      | safe error => simp [Truthful, hsome]
    · obtain ⟨error, rfl, hadmits⟩ := (hraise exc rfl).resolve_right hsome
      have hnone : readbackRaised answers = none := by
        rw [Option.eq_none_iff_forall_ne_some]
        intro exc' h
        have := hraised exc' h
        cases this
        exact hsome h
      simp [Truthful, hnone, show error.effectState ≠ noneEstablished from hadmits]

/-- A plain program that raises has not moved the ref, and is truthful. -/
theorem Plain.truthful_iff {p : Program α} (hp : Plain S p) {expectedHead : String} {answers : List (Answer Sources Exc)}
    {exc : Exc} {moved : Bool} (hrun : Runs AnyBackend p false answers (.error exc) moved) :
    Truthful moved (.error exc : Except Exc β) ↔ ¬ Misreports expectedHead answers moved := by
  obtain ⟨rfl, hcalls, hraise⟩ := hp _ _ _ _ hrun
  obtain ⟨error, rfl, -⟩ := hraise exc rfl
  simp [Truthful, Misreports, readbackRaised_eq_none fun answer hmem => (hcalls answer hmem).2]

/-- After calls of a plain prefix, what is misreported is what the rest misreports. -/
theorem misreports_plain {expectedHead : String} {first rest : List (Answer Sources Exc)} {moved : Bool}
    (h : ∀ answer ∈ first, isUpdate answer = false ∧ isReadCommit answer = false) :
    Misreports expectedHead (first ++ rest) moved ↔ Misreports expectedHead rest moved := by
  simp only [Misreports, readbackRaised_plain fun answer hmem => (h answer hmem).2,
    updateLost_plain fun answer hmem => (h answer hmem).1]

/-- An append from a state on is truthful unless it misreports. -/
def Reports (expectedHead : String) (p : Program α) : Prop :=
  ∀ answers result moved, Runs AnyBackend p false answers result moved →
    (Truthful moved result ↔ ¬ Misreports expectedHead answers moved)

theorem Reports.plain_bind {p : Program α} {f : α → Program β} {expectedHead : String} (hp : Plain S p)
    (hf : ∀ a, Reports expectedHead (f a)) : Reports expectedHead (p >>= f) := by
  intro answers result moved hrun
  rcases runs_bind.mp hrun with ⟨exc, hp', rfl⟩ | ⟨a, mid, first, rest, hp', hf', rfl⟩
  · exact hp.truthful_iff hp'
  · obtain ⟨rfl, hcalls, -⟩ := hp _ _ _ _ hp'
    rw [misreports_plain hcalls]
    exact hf a _ _ _ hf'

theorem Reports.throw {error : SafeAppendError} {expectedHead : String} :
    Reports expectedHead (MonadExcept.throw (Exc.safe error) : Program α) := fun _ result _ hrun =>
  have hplain : Plain (fun _ => True) (MonadExcept.throw (Exc.safe error) : Program α) := Plain.throw trivial
  by
    obtain ⟨-, rfl, -⟩ := runs_throw.mp hrun
    exact hplain.truthful_iff hrun

theorem RaisesOr.reports {p : Program α} {expectedHead : String} (hp : RaisesOr Admits readbackRaised p) :
    Reports expectedHead p := by
  intro answers result moved hrun
  have hcalls := (hp _ _ _ _ hrun).2.1
  exact hp.truthful_iff hrun (List.forall_mem_nil _) (not_updateLost_plain hcalls)

/-- The move of the ref, and then a program that raises, besides errors that admit an
effect, only what a readback raised. -/
theorem reports_moveRefOrReconcile_bind {branch candidateSha expectedHead : String} {f : Unit → Program α}
    (hf : RaisesOr Admits readbackRaised (f ⟨⟩)) :
    Reports expectedHead (moveRefOrReconcile branch candidateSha expectedHead >>= f) := by
  intro answers result moved hrun
  rcases runs_bind.mp hrun with ⟨exc, hmove, rfl⟩ | ⟨⟨⟩, mid, first, rest, hmove, hrest, rfl⟩
  · obtain ⟨hcalls, hraise, -⟩ := moveRefOrReconcile_runs hmove
    obtain ⟨error, rfl, hdenies⟩ := hraise exc rfl
    simp only [Truthful, Misreports, readbackRaised_eq_none hcalls, reduceCtorEq, false_and, exists_false, and_false,
      false_or, not_and]
    exact forall_congr' fun hmoved => not_congr (hdenies hmoved)
  · obtain ⟨hcalls, -, hdone⟩ := moveRefOrReconcile_runs hmove
    exact hf.truthful_iff hrest hcalls (hdone ⟨_, rfl⟩ rest)

theorem reports_appendEnvelope (runtime : Runtime) (envelope : Envelope) :
    Reports envelope.expectedHead (appendEnvelope runtime envelope) := by
  refine Reports.plain_bind (Plain.askOr (fun _ => ⟨rfl, rfl⟩) (plain_keepSafe _)) fun control =>
    Reports.plain_bind (plain_requireBinding _ _ _) fun binding => Reports.plain_bind (plain_observeHead _) fun observed =>
    Reports.plain_bind (plain_readHistory _) fun history => ?_
  split
  · exact Reports.plain_bind (plain_buildCandidate _ _ _ _) fun _ =>
      reports_moveRefOrReconcile_bind (raisesOr_verifyNewAppend _ _ _ _ _ _ _ _)
  · split
    · exact Reports.throw
    · exact (raisesOr_reconstructExisting _ _ _ _ _ _).reports
  · exact Reports.throw

/-! ### The envelope -/

theorem putMessageHeader_error {headers : Headers} {line : List Char} {exc : Exc}
    (h : putMessageHeader headers line = .error exc) : ∃ error, exc = .safe error := by
  unfold putMessageHeader putHeaderOr at h
  split at h
  · cases h
  · split_ifs at h
    cases h
    exact ⟨_, rfl⟩

theorem frontmatterHeaders_error {headers : Headers} {lines : List (List Char)} {exc : Exc}
    (h : frontmatterHeaders headers lines = .error exc) : ∃ error, exc = .safe error := by
  induction lines generalizing headers with
  | nil =>
    cases h
    exact ⟨_, rfl⟩
  | cons line lines ih =>
    simp only [frontmatterHeaders] at h
    split_ifs at h
    · cases h
      exact ⟨_, rfl⟩
    · split at h
      · next hput =>
        cases h
        exact putMessageHeader_error hput
      · cases h
        exact ⟨_, rfl⟩
      · exact ih h
    · exact ih h

theorem blockHeaders_error {headers : Headers} {started : Bool} {lines : List (List Char)} {exc : Exc}
    (h : blockHeaders headers started lines = .error exc) : ∃ error, exc = .safe error := by
  induction lines generalizing headers started with
  | nil =>
    unfold blockHeaders at h
    split_ifs at h
    cases h
    exact ⟨_, rfl⟩
  | cons line lines ih =>
    unfold blockHeaders at h
    split at h
    · split_ifs at h
      exact ih h
    · split at h
      · next hput =>
        cases h
        exact putMessageHeader_error hput
      · split_ifs at h
        cases h
        exact ⟨_, rfl⟩
      · exact ih h

theorem metadataHeaders_error {text : List Char} {exc : Exc} (h : metadataHeaders text = .error exc) :
    ∃ error, exc = .safe error := by
  unfold metadataHeaders at h
  split at h
  · exact blockHeaders_error h
  · split_ifs at h
    · exact frontmatterHeaders_error h
    · exact blockHeaders_error h
    · exact blockHeaders_error h

theorem parseMessage_error {text : List Char} {exc : Exc} (h : parseMessage text = .error exc) :
    ∃ error, exc = .safe error := by
  unfold parseMessage at h
  split at h
  · next hheaders =>
    cases h
    exact metadataHeaders_error hheaders
  · split at h <;> cases h <;> exact ⟨_, rfl⟩

theorem validateMessageId_error {identity messageId : String} {exc : Exc}
    (h : validateMessageId identity messageId = .error exc) : ∃ error, exc = .safe error := by
  unfold validateMessageId at h
  split_ifs at h <;> cases h <;> exact ⟨_, rfl⟩

/-- The opening of an envelope raises another exception than a `SafeAppendError` just
when the message does not encode. -/
theorem openEnvelope_cases (runtime : Runtime) (identity expectedLaneHead : String) (message : Utf8) :
    match openEnvelope runtime identity expectedLaneHead message with
    | .ok envelope => ¬ Unencodable identity expectedLaneHead message ∧ envelope.expectedHead = lower expectedLaneHead
    | .error (.safe _) => ¬ Unencodable identity expectedLaneHead message
    | .error (.other _) => Unencodable identity expectedLaneHead message := by
  by_cases hid : isIdentity identity.toList = true
  case neg => simp [openEnvelope, validateIdentity, hid, Unencodable, preflight, bind, Except.bind]
  by_cases hhead : isSha40 expectedLaneHead.toList = true
  case neg => simp [openEnvelope, validateIdentity, validateExpectedHead, hid, hhead, Unencodable, preflight, bind, Except.bind]
  rw [openEnvelope_eq hid hhead]
  cases hutf8 : asExactUtf8 runtime message with
  | error exc =>
    cases message with
    | str text =>
      cases hscalars : scalars text with
      | none =>
        simp only [asExactUtf8, hscalars] at hutf8
        cases hutf8
        exact ⟨hid, hhead, text, rfl, hscalars⟩
      | some chars => simp [asExactUtf8, hscalars] at hutf8
    | bytes data =>
      simp only [asExactUtf8] at hutf8
      split at hutf8
      · cases hutf8
      · cases hutf8
        simp [Unencodable, Except.bind, preflight]
  | ok pair =>
    have hencodes : ¬ Unencodable identity expectedLaneHead message := by
      rintro ⟨-, -, text, rfl, hscalars⟩
      simp [asExactUtf8, hscalars] at hutf8
    cases hparse : parseMessage pair.1 with
    | error exc =>
      obtain ⟨error, rfl⟩ := parseMessage_error hparse
      simpa [Except.bind, hparse] using hencodes
    | ok parsed =>
      cases hvalid : validateMessageId identity parsed.messageId with
      | error exc =>
        obtain ⟨error, rfl⟩ := validateMessageId_error hvalid
        simpa [Except.bind, hparse, hvalid] using hencodes
      | ok _ => simpa [Except.bind, hparse, hvalid] using hencodes

/-- A runtime that says of a surrogate at the start of a message what Python says of it. -/
def sampleRuntime : Runtime :=
  { Runtime.ascii with
    encodeError := fun _ => "'utf-8' codec can't encode character '\\ud800' in position 0: surrogates not allowed" }

def sampleHead : String := String.ofList (List.replicate 40 'a')

def sampleMessage : Utf8 :=
  .str ("message_id: yin-1\nwriter: yin\n".toList.map fun c => Fin.ofNat 0x110000 c.toNat)

/-- A backend whose update moves the ref and times out, and whose head is then reset. -/
def resettingBackend (op : Op) (moved : Bool) : Except Exc op.Reply × Bool :=
  match op with
  | .readControl =>
    (.ok ⟨"radar", "c0", "t0", fun identity =>
      if identity = "yin" then some ⟨"yin", "yin", "bus/yin-v2"⟩ else none⟩, moved)
  | .readIdentity _ => (.ok ⟨true, [], []⟩, moved)
  | .readBranchHead _ => (.ok (some (String.ofList (List.replicate 40 (if moved then 'b' else 'a')))), moved)
  | .readFileAtCommit _ _ => (.ok none, moved)
  | .readCommit _ => (.ok none, moved)
  | .createBlob _ => (.ok "blob", moved)
  | .createTree _ _ _ => (.ok "tree", moved)
  | .createCommit _ _ _ => (.ok "candidate", moved)
  | .updateRefNonForce _ _ => (.error (.other "timeout"), true)
  | .isAncestor _ _ => (.ok (some false), moved)

theorem anyBackend_resettingBackend (op : Op) (moved : Bool) :
    AnyBackend op moved (resettingBackend op moved).1 (resettingBackend op moved).2 := by
  cases op with
  | updateRefNonForce branch candidateSha => exact .inr rfl
  | _ => rfl

/-- The run of an append against that backend. -/
def resetRun : List (Answer Sources Exc) × Except Exc SafeAppendReceipt × Bool :=
  (appendBusMessageV1 sampleRuntime "yin" sampleHead sampleMessage).play resettingBackend false

end CcbCore.Append
