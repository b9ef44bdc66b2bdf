import CcbCore.Lane.AppendOnly
import CcbCore.Library.Run

/-!
# The pushes to a lane

`validate_writer_lane_commit` of `src/radar/writer_lanes.py`, the guard of each push to a lane. A push that
goes on from the lane's head is validated whole. Of the push that creates a lane only the last commit is,
as the guard takes the head's parent for the base: every commit on the lane is guarded, in every run in which
a lane is created with one commit (`pushes_guarded`), and a first commit below another is not (`first_unguarded`).
-/

namespace CcbCore.Lane

open CcbCore.Python CcbCore.Git CcbCore.Message CcbCore.Raising

variable {π : Type} [DecidableEq π] [FileName π] (runtime : Runtime) (objects : Objects π)

/-! ### The guard -/

/-- `_ZERO_SHA`. -/
def zeroSha : String := String.ofList (List.replicate 40 '0')

/-- `ref.removeprefix("refs/heads/")`. -/
def branchOfRef (ref : String) : String :=
  if startsWith ref "refs/heads/" then String.ofList (ref.toList.drop "refs/heads/".length) else ref

/-- `_identity_for_ref`. -/
def identityForRef (ref : String) (topology : Topology) : Except RadarError String :=
  match topology.filter fun entry => entry.2.branch = branchOfRef ref with
  | [entry] => .ok entry.2.identity
  | _ => .error (.code "UNREGISTERED_WRITER_LANE")

/-- One identity of `_planned_successor_map`, after those before it. -/
def plannedSuccessor (result : List (String × String)) (entry : String × Json) : Except RadarError (List (String × String)) :=
  match entry.2 with
  | .string branch => do
    rejectIf (entry.1 = "" ∨ branch = "") (.code "WRITER_LANE_CUTOVER_PLANNED_INVALID")
    rejectIf (branch ∈ result.map (·.2)) (.code "DUPLICATE_PLANNED_WRITER_LANE_BRANCH")
    return result ++ [(entry.1, branch)]
  | _ => .error (.code "WRITER_LANE_CUTOVER_PLANNED_INVALID")

/-- `_planned_successor_map`. -/
def plannedSuccessorMap (cutover : Json) : Except RadarError (List (String × String)) :=
  match cutover with
  | .object raw =>
    match Json.get raw "planned_current_writer_lanes" with
    | .object [] => .error (.code "WRITER_LANE_CUTOVER_PLANNED_MISSING")
    | .object planned => planned.foldlM plannedSuccessor []
    | _ => .error (.code "WRITER_LANE_CUTOVER_PLANNED_MISSING")
  | _ => .error (.code "WRITER_LANE_CUTOVER_INVALID")

/-- `planned_successor_bootstrap_identity`. -/
def plannedSuccessorBootstrapIdentity (ref head : String) (topology : Topology) (base : Option String) (cutover : Option Json)
    (bootstrapMain : Option String) : Except RadarError (Option String) :=
  match cutover with
  | none => .ok none
  | some cutover =>
    if base ≠ some zeroSha then .ok none
    else do
      let planned ← plannedSuccessorMap cutover
      match planned.filter fun entry => entry.2 = branchOfRef ref with
      | [] => return none
      | [(identity, _)] =>
        match topology.lookup identity with
        | none => throw (.code "WRITER_LANE_CUTOVER_IDENTITY_UNKNOWN")
        | some lane =>
          if lane.branch = branchOfRef ref then return none
          else
            match bootstrapMain with
            | none | some "" => throw (.code "WRITER_LANE_BOOTSTRAP_MAIN_REQUIRED")
            | some main =>
              if head ≠ main then throw (.code "WRITER_LANE_BOOTSTRAP_MAIN_MISMATCH") else return some identity
      | _ => throw (.code "DUPLICATE_PLANNED_WRITER_LANE_BRANCH")

/-- `rev-parse head^`. -/
def firstParent (head : String) : Except RadarError String :=
  match objects.graph.parents head with
  | some (parent :: _) => .ok parent
  | _ => .error (.code "WRITER_LANE_PARENT_REQUIRED")

/-- The base of a push is absent, or all zeros. -/
def isCreation (base : Option String) : Bool := base = none ∨ base = some "" ∨ base = some zeroSha

/-- The base that `_commits_to_validate` takes. -/
def baseToValidate (head : String) (base : Option String) : Except RadarError String :=
  if isCreation base = true then firstParent objects head else .ok (base.getD "")

/-- `_commits_to_validate`. -/
def commitsToValidate (head : String) (base : Option String) : Except RadarError (List String) := do
  let base ← baseToValidate objects head base
  rejectIf (objects.graph.isAncestor base head = false) (.code "WRITER_LANE_BASE_NOT_ANCESTOR")
  rejectIf (objects.graph.revList base head = []) (.code "WRITER_LANE_NO_NEW_COMMITS")
  return objects.graph.revList base head

/-- `lane.lifecycle in {"ACTIVE", "REGISTERED_INERT"}`. -/
def WriterLane.isWritable (lane : WriterLane) : Bool := lane.lifecycle = .active ∨ lane.lifecycle = .registeredInert

/-- `validate_writer_lane_commit`, in a checkout. -/
def validateWriterLaneCommit (checkout ref head : String) (topology : Topology) (base : Option String) (cutover : Option Json)
    (bootstrapMain : Option String) : Except RadarError String := do
  rejectIf (checkout ≠ head) (.code "BRANCH_HEAD_MISMATCH")
  let bootstrapIdentity ← plannedSuccessorBootstrapIdentity ref head topology base cutover bootstrapMain
  match bootstrapIdentity with
  | some identity => return identity
  | none =>
    let identity ← identityForRef ref topology
    match topology.lookup identity with
    -- A lane is registered under its own identity.
    | none => throw (.code "UNREGISTERED_WRITER_LANE")
    | some lane =>
      rejectIf (lane.isWritable = false) (.code "WRITER_LANE_NOT_WRITABLE")
      let historicalIds ← historicalMessageIds runtime objects cutover identity
      let commits ← commitsToValidate objects head base
      commits.forM (validateCommitPaths runtime objects lane historicalIds)
      return identity

/-! ### Pushes -/

/-- A deployment of the guard: the lane's ref, and what it is registered as. -/
structure Registration where
  ref : String
  topology : Topology
  cutover : Option Json

/-- A push: what the repository has with it, the lane's new head, and where `main` is. -/
structure Push (π : Type) [DecidableEq π] where
  objects : Objects π
  head : String
  base : Option String
  main : String
  bootstrapMain : Option String

/-- The repository, the lane's head, and the commits that were pushed to the lane. -/
structure LaneState (π : Type) [DecidableEq π] where
  objects : Objects π
  head : Option String
  added : List String

/-- The guard accepts a push. -/
def Push.IsAccepted (site : Registration) (push : Push π) : Prop :=
  ∃ identity, validateWriterLaneCommit runtime push.objects push.head site.ref push.head site.topology push.base site.cutover
    push.bootstrapMain = .ok identity

/-- An accepted push creates the lane, or goes on from its head. -/
inductive Pushed (runtime : Runtime) (site : Registration) : LaneState π → Push π → LaneState π → Prop where
  | create {s : LaneState π} {push : Push π} :
      s.head = none → s.objects.Extends push.objects → push.head ≠ zeroSha → isCreation push.base = true →
      push.objects.graph.isAncestor push.main push.head = true → (∀ main, push.bootstrapMain = some main → main = push.main) →
      push.IsAccepted runtime site →
      Pushed runtime site s push ⟨push.objects, some push.head, push.objects.graph.revList push.main push.head⟩
  | push {s : LaneState π} {push : Push π} {head : String} :
      s.head = some head → s.objects.Extends push.objects → push.head ≠ zeroSha → push.base = some head →
      push.IsAccepted runtime site →
      Pushed runtime site s push ⟨push.objects, some push.head, s.added ++ push.objects.graph.revList head push.head⟩

/-- A commit satisfies the rules of the lane that the ref is registered as. -/
def IsGuarded (site : Registration) (commit : String) : Prop :=
  ∃ identity lane ids, identityForRef site.ref site.topology = .ok identity ∧ site.topology.lookup identity = some lane ∧
    historicalMessageIds runtime objects site.cutover identity = .ok ids ∧
    validateCommitPaths runtime objects lane ids commit = .ok ()

/-! ### Growth -/

variable {runtime objects} {objects' : Objects π} {site : Registration} {commit : String} {lane : WriterLane} {ids reserved : List String}

omit [FileName π] in
theorem fileAt_of_extends (h : objects.Extends objects') {name : π} {file : String × Bytes}
    (hfile : objects.fileAt commit name = some file) : objects'.fileAt commit name = some file := by
  cases hfiles : objects.tree commit with
  | none =>
    rw [Objects.fileAt, hfiles] at hfile
    cases hfile
  | some files =>
    have htree := Objects.tree_eq_some.mp hfiles
    rw [Objects.fileAt_of_treeAt htree] at hfile
    rw [Objects.fileAt_of_treeAt (h.treeAt htree)]
    obtain ⟨blob, hblob, hcontent⟩ := Option.bind_eq_some_iff.mp hfile
    obtain ⟨content, hblobs, rfl⟩ := Option.map_eq_some_iff.mp hcontent
    rw [hblob, Option.bind_some, h.blobs hblobs, Option.map_some]

omit [FileName π] in
theorem tree_of_extends (h : objects.Extends objects') {files : Files π} (hfiles : objects.tree commit = some files) :
    objects'.tree commit = some files := Objects.tree_eq_some.mpr (h.treeAt (Objects.tree_eq_some.mp hfiles))

theorem messageIdsAtCommit_of_extends (h : objects.Extends objects') (hids : messageIdsAtCommit runtime objects commit = .ok ids) :
    messageIdsAtCommit runtime objects' commit = .ok ids := by
  simp only [messageIdsAtCommit, except_bind_ok, orGit_ok] at hids ⊢
  obtain ⟨files, hfiles, hids⟩ := hids
  refine ⟨files, tree_of_extends h hfiles, mapM_ok_mono (fun path id hid => ?_) hids⟩
  simp only [messageIdAt, except_bind_ok, orGit_ok] at hid ⊢
  obtain ⟨file, hfile, hid⟩ := hid
  exact ⟨file, fileAt_of_extends h hfile, hid⟩

theorem historicalMessageIds_of_extends (h : objects.Extends objects') {cutover : Option Json} {identity : String}
    (hids : historicalMessageIds runtime objects cutover identity = .ok ids) :
    historicalMessageIds runtime objects' cutover identity = .ok ids := by
  unfold historicalMessageIds at hids ⊢
  cases cutover with
  | none => exact hids
  | some cutover =>
    cases cutover with
    | object raw =>
      dsimp only at hids ⊢
      generalize Json.get raw "historical_writer_lanes" = historical at hids ⊢
      cases historical with
      | object historical =>
        dsimp only at hids ⊢
        generalize Json.get historical identity = record at hids ⊢
        cases record with
        | object record =>
          dsimp only at hids ⊢
          split at hids
          · split at hids
            · next hrecord =>
              rw [if_pos hrecord]
              exact messageIdsAtCommit_of_extends h hids
            · cases hids
          · cases hids
        | _ => exact hids
      | _ => exact hids
    | _ => exact hids

theorem validateCommitPaths_of_extends (h : objects.Extends objects')
    (hvalid : validateCommitPaths runtime objects lane reserved commit = .ok ()) :
    validateCommitPaths runtime objects' lane reserved commit = .ok () := by
  simp only [validateCommitPaths, except_bind_ok, orGit_ok] at hvalid ⊢
  obtain ⟨parent, hparent, parentIds, hparentIds, before, hbefore, after, hafter, changes, hchanges, seen, hseen, hunit⟩ := hvalid
  have hparent' : onlyParent objects' commit "WRITER_LANE_MERGE_COMMIT_FORBIDDEN" = .ok parent := by
    rw [onlyParent, h.graph commit [parent] (onlyParent_ok hparent)]
  refine ⟨parent, hparent', parentIds, messageIdsAtCommit_of_extends h hparentIds, before, tree_of_extends h hbefore, after,
    tree_of_extends h hafter, changes, hchanges, seen, foldlM_ok_mono (fun seen change seen' hchange => ?_) hseen, hunit⟩
  simp only [validatePath, except_bind_ok, orGit_ok] at hchange ⊢
  obtain ⟨u, hpath, u', hadded, file, hfile, hrest⟩ := hchange
  exact ⟨u, hpath, u', hadded, file, fileAt_of_extends h hfile, hrest⟩

theorem IsGuarded.mono (h : objects.Extends objects') (hguarded : IsGuarded runtime objects site commit) :
    IsGuarded runtime objects' site commit := by
  obtain ⟨identity, lane, ids, hidentity, hlane, hids, hvalid⟩ := hguarded
  exact ⟨identity, lane, ids, hidentity, hlane, historicalMessageIds_of_extends h hids, validateCommitPaths_of_extends h hvalid⟩

/-! ### What the guard validates -/

/-- An accepted push is that of the planned head of a bootstrap, or its commits from the base on are guarded. -/
theorem guarded_of_accepted {push : Push π} (h : push.IsAccepted runtime site) :
    (isCreation push.base = true ∧ push.bootstrapMain = some push.head) ∨
    ∃ base, baseToValidate push.objects push.head push.base = .ok base ∧
      push.objects.graph.isAncestor base push.head = true ∧
      ∀ commit ∈ push.objects.graph.revList base push.head, IsGuarded runtime push.objects site commit := by
  obtain ⟨identity, h⟩ := h
  simp only [validateWriterLaneCommit, except_bind_ok, rejectIf_ok] at h
  obtain ⟨-, -, bootstrap, hbootstrap, h⟩ := h
  cases bootstrap with
  | some identity' =>
    left
    unfold plannedSuccessorBootstrapIdentity at hbootstrap
    split at hbootstrap
    · cases hbootstrap
    · split at hbootstrap
      · cases hbootstrap
      · next hbase =>
        rw [not_not] at hbase
        refine ⟨by simp [isCreation, hbase], ?_⟩
        obtain ⟨planned, -, hbootstrap⟩ := except_bind_ok.mp hbootstrap
        split at hbootstrap
        · cases hbootstrap
        · split at hbootstrap
          · cases hbootstrap
          · split at hbootstrap
            · cases hbootstrap
            · split at hbootstrap
              · cases hbootstrap
              · cases hbootstrap
              · next hmain =>
                split at hbootstrap
                · cases hbootstrap
                · next heq =>
                  rw [not_not] at heq
                  rw [hmain, heq]
        · cases hbootstrap
  | none =>
    right
    simp only [except_bind_ok] at h
    obtain ⟨identity', hidentity, h⟩ := h
    split at h
    · cases h
    · next lane hlane =>
      simp only [except_bind_ok, rejectIf_ok, except_forM_ok, commitsToValidate, Bool.not_eq_false, except_pure_ok] at h
      obtain ⟨-, -, ids, hids, commits, ⟨base, hbase, -, hancestor, -, -, rfl⟩, _, hcommits, -⟩ := h
      exact ⟨base, hbase, hancestor, fun commit hcommit => ⟨identity', lane, ids, hidentity, hlane, hids, hcommits commit hcommit⟩⟩

/-! ### Runs -/

/-- The push that creates a lane adds at most its head to `main`. -/
def CreatesWithOne (s : LaneState π) (push : Push π) : Prop :=
  s.head = none → ∀ parent, firstParent push.objects push.head = .ok parent → push.objects.graph.isAncestor parent push.main = true

omit [FileName π] in
/-- A push of one commit above `main` adds no other. -/
theorem createsWithOne_of_parent {s : LaneState π} {push : Push π} (hparent : firstParent push.objects push.head = .ok push.main)
    (hmain : push.objects.graph.isAncestor push.main push.main = true) : CreatesWithOne s push := by
  intro _ parent h
  obtain rfl := Except.ok.inj (hparent.symm.trans h)
  exact hmain

/-- What holds of a lane. -/
structure LaneState.Guarded (runtime : Runtime) (site : Registration) (s : LaneState π) : Prop where
  head : ∀ head, s.head = some head → isCreation (some head) = false
  added : ∀ commit ∈ s.added, IsGuarded runtime s.objects site commit

omit [FileName π] in
theorem isCreation_of_known {push : Push π} (hknown : push.objects.graph.Known push.head) (hzero : push.head ≠ zeroSha) :
    isCreation (some push.head) = false := by
  have hne : push.head ≠ "" := by
    intro hempty
    have := push.objects.isHex_name hknown
    rw [hempty] at this
    exact absurd this (by decide)
  simp [isCreation, hzero, hne]

theorem LaneState.Guarded.step {s s' : LaneState π} {push : Push π} (h : s.Guarded runtime site)
    (hpushed : Pushed runtime site s push s') (hone : CreatesWithOne s push) : s'.Guarded runtime site := by
  cases hpushed with
  | create hnone hextends hzero hcreation hmain hbootstrap haccepted =>
    obtain ⟨hhead, hancestor⟩ := CommitGraph.isAncestor_iff.mp hmain
    refine ⟨fun head heq => ?_, fun commit hcommit => ?_⟩
    · obtain rfl := Option.some.inj heq
      exact isCreation_of_known hhead hzero
    obtain ⟨hreach, hnot⟩ := (CommitGraph.mem_revList (hancestor.known hhead) hhead).mp hcommit
    obtain ⟨-, heq⟩ | ⟨base, hbase, hbaseHead, hguarded⟩ := guarded_of_accepted haccepted
    · rw [hbootstrap push.head heq] at hreach
      exact absurd hreach hnot
    · rw [baseToValidate, hcreation, if_pos rfl] at hbase
      have hparent := (CommitGraph.isAncestor_iff.mp (hone hnone base hbase)).2
      -- The head is validated, so it has this parent only.
      have hlast : push.head ∈ push.objects.graph.revList base push.head := by
        obtain ⟨-, hbaseAncestor⟩ := CommitGraph.isAncestor_iff.mp hbaseHead
        refine (CommitGraph.mem_revList (hbaseAncestor.known hhead) hhead).mpr ⟨.refl _, fun habove => ?_⟩
        exact hnot (hreach.trans (habove.trans hparent))
      obtain ⟨_, lane, ids, hidentity, hlane, hids, hvalid⟩ := hguarded push.head hlast
      obtain ⟨parent, happends⟩ := Appends.of_validate hvalid
      obtain rfl : base = parent := by
        rw [firstParent, happends.parents] at hbase
        exact (Except.ok.inj hbase).symm
      obtain rfl | habove := (CommitGraph.ancestor_iff_of_parents happends.parents).mp hreach
      · exact ⟨_, lane, ids, hidentity, hlane, hids, hvalid⟩
      · exact absurd (habove.trans hparent) hnot
  | @push head hhead hextends hzero hbase haccepted =>
    obtain ⟨hcreation, -⟩ | ⟨base, hbase', hbaseHead, hguarded⟩ := guarded_of_accepted haccepted
    · rw [hbase, h.head head hhead] at hcreation
      cases hcreation
    · rw [baseToValidate, hbase, h.head head hhead, if_neg nofun] at hbase'
      obtain rfl := Except.ok.inj hbase'
      refine ⟨fun head' heq => ?_, fun commit hcommit => ?_⟩
      · obtain rfl := Option.some.inj heq
        exact isCreation_of_known (CommitGraph.isAncestor_iff.mp hbaseHead).1 hzero
      · obtain hold | hnew := List.mem_append.mp hcommit
        · exact (h.added commit hold).mono hextends
        · exact hguarded commit hnew

/-- **Every commit that accepted pushes added to a lane satisfies the rules of the lane**, when the push that
creates the lane adds one commit to `main`. -/
theorem pushes_guarded {objects : Objects π} {pushes : List (Push π)} {s : LaneState π}
    (hrun : Run (fun s push s' => Pushed runtime site s push s' ∧ CreatesWithOne s push) ⟨objects, none, []⟩ pushes s) :
    ∀ commit ∈ s.added, IsGuarded runtime s.objects site commit := by
  have hstart : LaneState.Guarded runtime site (⟨objects, none, []⟩ : LaneState π) := ⟨nofun, nofun⟩
  have hend : LaneState.Guarded runtime site s := by
    refine hrun.invariant (P := LaneState.Guarded runtime site) (fun s push s' h hstep => ?_) hstart
    exact h.step hstep.1 hstep.2
  exact hend.added

/-! ### A lane that grows -/

def sampleSite : Registration := ⟨"refs/heads/bus/alpha-v1", sampleTopology, none⟩

/-- A message in the second commit, and another in the third. -/
def growingObjects : Objects String :=
  { lineObjects ∅ (filesOf ["messages/1.md"]) ((filesOf ["messages/1.md"]).insert "messages/2.md" "other") with
    blobs := fun blob =>
      some (encode (if blob = "other" then "message_id: alpha-2\nwriter: alpha\n" else "message_id: alpha-1\nwriter: alpha\n").toList)
    blobs_isSome := fun _ _ => rfl }

/-- The push that creates the lane. -/
def firstPush : Push String := ⟨growingObjects, secondCommit, none, firstCommit, none⟩

/-- The push that goes on from it. -/
def nextPush : Push String := ⟨growingObjects, thirdCommit, some secondCommit, firstCommit, none⟩

theorem firstPush_accepted :
    validateWriterLaneCommit sampleRuntime growingObjects secondCommit sampleSite.ref secondCommit sampleSite.topology none none none =
      .ok "alpha" := by decide +kernel

theorem nextPush_accepted :
    validateWriterLaneCommit sampleRuntime growingObjects thirdCommit sampleSite.ref thirdCommit sampleSite.topology
      (some secondCommit) none none = .ok "alpha" := by decide +kernel

theorem growing_run :
    Run (fun s push s' => Pushed sampleRuntime sampleSite s push s' ∧ CreatesWithOne s push) ⟨growingObjects, none, []⟩
      [firstPush, nextPush] ⟨growingObjects, some thirdCommit, [secondCommit, thirdCommit]⟩ := by
  have hcreated : growingObjects.graph.revList firstCommit secondCommit = [secondCommit] := by decide +kernel
  have hpushed : growingObjects.graph.revList secondCommit thirdCommit = [thirdCommit] := by decide +kernel
  have hcreate : Pushed sampleRuntime sampleSite ⟨growingObjects, none, []⟩ firstPush
      ⟨growingObjects, some secondCommit, [secondCommit]⟩ := by
    rw [← hcreated]
    exact .create rfl (.refl _) (by decide +kernel) rfl (by decide +kernel) nofun ⟨"alpha", firstPush_accepted⟩
  have hpush : Pushed sampleRuntime sampleSite ⟨growingObjects, some secondCommit, [secondCommit]⟩ nextPush
      ⟨growingObjects, some thirdCommit, [secondCommit] ++ [thirdCommit]⟩ := by
    rw [← hpushed]
    exact .push rfl (.refl _) (by decide +kernel) rfl ⟨"alpha", nextPush_accepted⟩
  exact .cons ⟨hcreate, createsWithOne_of_parent rfl (by decide +kernel)⟩ (.single ⟨hpush, nofun⟩)

theorem pushes_guarded_growing :
    IsGuarded sampleRuntime growingObjects sampleSite secondCommit ∧ IsGuarded sampleRuntime growingObjects sampleSite thirdCommit := by
  have hguarded := pushes_guarded growing_run
  exact ⟨hguarded secondCommit (by simp), hguarded thirdCommit (by simp)⟩

/-! ### A lane with two first commits -/

/-- A commit that is no message, and a message on it. -/
def unguardedObjects : Objects String :=
  lineObjects ∅ (filesOf ["README.md"]) (filesOf ["README.md", "messages/1.md"])

def unguardedPush : Push String := ⟨unguardedObjects, thirdCommit, none, firstCommit, none⟩

theorem unguardedPush_accepted :
    validateWriterLaneCommit sampleRuntime unguardedObjects thirdCommit sampleSite.ref thirdCommit sampleSite.topology none none none =
      .ok "alpha" := by decide +kernel

theorem secondCommit_refused :
    validateCommitPaths sampleRuntime unguardedObjects ⟨"alpha", "alpha", "bus/alpha-v1", .active⟩ [] secondCommit =
      .error (.code "WRITER_LANE_PATH_FORBIDDEN:README.md") := by decide +kernel

/-- The first of the two commits that create a lane is never validated. -/
theorem first_unguarded :
    ¬ ∀ (pushes : List (Push String)) (s : LaneState String),
      Run (Pushed sampleRuntime sampleSite) ⟨unguardedObjects, none, []⟩ pushes s →
        ∀ commit ∈ s.added, IsGuarded sampleRuntime s.objects sampleSite commit := by
  intro h
  have hrun : Run (Pushed sampleRuntime sampleSite) ⟨unguardedObjects, none, []⟩ [unguardedPush]
      ⟨unguardedObjects, some thirdCommit, unguardedObjects.graph.revList firstCommit thirdCommit⟩ :=
    Run.single (.create rfl (.refl _) (by decide +kernel) rfl (by decide +kernel) nofun
      ⟨"alpha", unguardedPush_accepted⟩)
  obtain ⟨identity, lane, ids, hidentity, hlane, hids, hvalid⟩ := h _ _ hrun secondCommit (by decide +kernel)
  obtain rfl : "alpha" = identity := Except.ok.inj hidentity
  obtain rfl : ⟨"alpha", "alpha", "bus/alpha-v1", .active⟩ = lane := Option.some.inj hlane
  obtain rfl : [] = ids := Except.ok.inj hids
  rw [secondCommit_refused] at hvalid
  cases hvalid

end CcbCore.Lane
