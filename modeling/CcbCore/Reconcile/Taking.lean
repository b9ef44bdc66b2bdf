import CcbCore.Lane.Pushes
import CcbCore.Reconcile.Coverage

/-!
# What the guard lets through, the projector takes

`validate_writer_lane_commit` guards each push to a lane, in the lane's own repository; `project_requested_lanes`
reads the lane later, from its cursor on, and validates and collects what it reads again. The two agree: on a lane
of guarded pushes each range that the reconciler derives is validated as it was derived, and it is collected and
chunked unless one of its files is over the projector's own limit, which no push is checked for (`guarded_taken`).
So a guarded lane stops for the size of a message and for nothing else.
-/

namespace CcbCore.Lane

open CcbCore.Python CcbCore.Git CcbCore.Message CcbCore.Raising

variable {π : Type} [DecidableEq π] [FileName π]

/-! ### Chunking -/

/-- What is collected is chunked. -/
theorem exists_chunks {objects : Objects π} {commits : List String} {files : List ProjectionFile}
    (h : collectProjectionFiles objects commits = .ok files) : ∃ chunks, chunkProjectionFiles files = .ok chunks := by
  have hsmall : ∀ file ∈ files, file.contentBytes ≤ maxTotalBytes := fun file hmem =>
    (collect_ok h file hmem).small.trans (by decide)
  have hadd : ∀ (chunking : Chunking) (file : ProjectionFile),
      (∃ chunking', chunking.add file = .ok chunking') ↔ file.contentBytes ≤ maxTotalBytes := by
    intro chunking file
    unfold Chunking.add
    dsimp only
    split
    · next hlarge => exact iff_of_false nofun (not_le.mpr hlarge)
    · next hfits =>
      refine iff_of_true ?_ (not_lt.mp hfits)
      split <;> exact ⟨_, rfl⟩
  obtain ⟨chunking, hchunking⟩ := (foldlM_ok_iff hadd).mpr hsmall
  exact ⟨_, except_map_ok.mpr ⟨chunking, hchunking, rfl⟩⟩

/-! ### Runs of pushes -/

theorem lookup_active {topology : Topology} {identity : String} {lane : WriterLane} (hlane : topology.lookup identity = some lane)
    (hactive : lane.lifecycle = .active) : topology.active.lookup identity = some lane := by
  induction topology with
  | nil => cases hlane
  | cons entry topology ih =>
    obtain ⟨other, found⟩ := entry
    have hcons : Topology.active ((other, found) :: topology) =
        if found.lifecycle = .active then (other, found) :: Topology.active topology else Topology.active topology := by
      by_cases hkept : found.lifecycle = .active
      · rw [if_pos hkept]
        exact List.filter_cons_of_pos (decide_eq_true hkept)
      · rw [if_neg hkept]
        exact List.filter_cons_of_neg (fun h => hkept (of_decide_eq_true h))
    rw [List.lookup_cons] at hlane
    cases hother : identity == other with
    | true =>
      rw [hother] at hlane
      obtain rfl := Option.some.inj hlane
      rw [hcons, if_pos hactive, List.lookup_cons, hother]
    | false =>
      rw [hother] at hlane
      rw [hcons]
      split
      · rw [List.lookup_cons, hother]
        exact ih hlane
      · exact ih hlane

/-- The lane has a head below `main`, and the commits between them were pushed to it. -/
def LaneState.Lists (main : String) (s : LaneState π) : Prop :=
  ∃ head, s.head = some head ∧ s.objects.graph.Known head ∧ s.objects.graph.Ancestor main head ∧
    ∀ c, s.objects.graph.InRange main head c → c ∈ s.added

variable {runtime : Runtime} {site : Registration}

theorem LaneState.Lists.step {s s' : LaneState π} {push : Push π} {main : String} (h : s.Lists main)
    (hpushed : Pushed runtime site s push s') (hguarded : s.Guarded runtime site) : s'.Lists main := by
  obtain ⟨head, hhead, hknown, hancestor, hlisted⟩ := h
  cases hpushed with
  | create hnone =>
    rw [hnone] at hhead
    cases hhead
  | @push head' hhead' hextends hzero hbase haccepted =>
    obtain rfl := Option.some.inj (hhead.symm.trans hhead')
    obtain ⟨hcreation, -⟩ | ⟨base, hbase', hbaseHead, -⟩ := guarded_of_accepted haccepted
    · rw [hbase, hguarded.head head hhead] at hcreation
      cases hcreation
    rw [baseToValidate, hbase, hguarded.head head hhead, if_neg Bool.false_ne_true] at hbase'
    obtain rfl : head = base := Except.ok.inj hbase'
    obtain ⟨hknown', hbelow⟩ := CommitGraph.isAncestor_iff.mp hbaseHead
    refine ⟨push.head, rfl, hknown', (hextends.ancestor hknown hancestor).trans hbelow, fun c hc => ?_⟩
    by_cases hold : push.objects.graph.Ancestor c head
    · refine List.mem_append_left _ (hlisted c ⟨(CommitGraph.ancestor_of_extends hextends.graph hknown).mp hold, fun habove => ?_⟩)
      exact hc.2 (hextends.ancestor (hancestor.known hknown) habove)
    · exact List.mem_append_right _ ((CommitGraph.mem_revList (hextends.known hknown) hknown').mpr ⟨hc.1, hold⟩)

/-- Every commit between where `main` was when a lane was created and the lane's head was pushed to it, under the guard. -/
theorem pushes_listed {objects : Objects π} {first : Push π} {pushes : List (Push π)} {s : LaneState π}
    (hrun : Run (fun s push s' => Pushed runtime site s push s' ∧ CreatesWithOne s push) ⟨objects, none, []⟩ (first :: pushes) s) :
    s.Lists first.main ∧ s.Guarded runtime site := by
  have hstart : LaneState.Guarded runtime site (⟨objects, none, []⟩ : LaneState π) := ⟨nofun, nofun⟩
  obtain ⟨s₁, hfirst, hrest⟩ := hrun.uncons
  have hguarded := hstart.step hfirst.1 hfirst.2
  refine hrest.invariant (P := fun s => s.Lists first.main ∧ LaneState.Guarded runtime site s)
    (fun s push s' h hstep => ⟨h.1.step hstep.1 h.2, h.2.step hstep.1 hstep.2⟩) ⟨?_, hguarded⟩
  obtain ⟨hpushed, -⟩ := hfirst
  cases hpushed with
  | push hnone => cases hnone
  | create _ _ _ _ hmain =>
    obtain ⟨hknown, hancestor⟩ := CommitGraph.isAncestor_iff.mp hmain
    exact ⟨first.head, rfl, hknown, hancestor, fun c hc => (CommitGraph.mem_revList (hancestor.known hknown) hknown).mpr hc⟩

omit [FileName π] in
theorem LaneState.Lists.grow {s : LaneState π} {main : String} {objects : Objects π} (h : s.Lists main)
    (hextends : s.objects.Extends objects) : LaneState.Lists main { s with objects } := by
  obtain ⟨head, hhead, hknown, hancestor, hlisted⟩ := h
  refine ⟨head, hhead, hextends.known hknown, hextends.ancestor hknown hancestor, fun c hc => hlisted c ?_⟩
  exact ⟨(CommitGraph.ancestor_of_extends hextends.graph hknown).mp hc.1,
    fun habove => hc.2 (hextends.ancestor (hancestor.known hknown) habove)⟩

theorem LaneState.Guarded.grow {s : LaneState π} {objects : Objects π} (h : s.Guarded runtime site)
    (hextends : s.objects.Extends objects) : LaneState.Guarded runtime site { s with objects } :=
  ⟨h.head, fun c hc => (h.added c hc).mono hextends⟩

/-- The range that guarded pushes made is validated from each of its commits on. -/
theorem validated_of_listed {s : LaneState π} {main base head identity : String} {lane : WriterLane} (hlists : s.Lists main)
    (hguarded : s.Guarded runtime site) (hhead : s.head = some head) (hidentity : identityForRef site.ref site.topology = .ok identity)
    (hlane : site.topology.lookup identity = some lane) (hactive : lane.lifecycle = .active)
    (hmain : s.objects.graph.Ancestor main base) (hbase : s.objects.graph.Ancestor base head) :
    validateActiveWriterRange runtime s.objects site.topology site.cutover identity base head =
        .ok (s.objects.graph.revList base head) ∧
      ∃ reserved, Segment runtime s.objects lane reserved base (s.objects.graph.revList base head) head := by
  obtain ⟨_, heq, hknown, -, hlisted⟩ := hlists
  obtain rfl := Option.some.inj (hhead.symm.trans heq)
  have hfound : site.topology.active.lookup identity = some lane := lookup_active hlane hactive
  have hvalid : ∀ c ∈ s.objects.graph.revList base head, ∃ ids, historicalMessageIds runtime s.objects site.cutover identity = .ok ids ∧
      validateCommitPaths runtime s.objects lane ids c = .ok () := by
    intro c hc
    obtain ⟨hreach, hnot⟩ := (CommitGraph.mem_revList (hbase.known hknown) hknown).mp hc
    obtain ⟨identity', lane', ids, hidentity', hlane', hids, hcommit⟩ :=
      hguarded.added c (hlisted c ⟨hreach, fun habove => hnot (habove.trans hmain)⟩)
    obtain rfl := Except.ok.inj (hidentity.symm.trans hidentity')
    obtain rfl := Option.some.inj (hlane.symm.trans hlane')
    exact ⟨ids, hids, hcommit⟩
  have hancestor : s.objects.graph.isAncestor base head = true := CommitGraph.isAncestor_iff.mpr ⟨hknown, hbase⟩
  unfold validateActiveWriterRange
  rw [hfound]
  dsimp only
  by_cases hsame : base = head
  · subst hsame
    rw [if_pos rfl, revList_of_line .nil]
    exact ⟨rfl, [], .nil⟩
  have hmem : head ∈ s.objects.graph.revList base head :=
    (CommitGraph.mem_revList (hbase.known hknown) hknown).mpr ⟨.refl _, fun habove => hsame (hbase.antisymm habove)⟩
  obtain ⟨ids, hids, -⟩ := hvalid head hmem
  have hcommits : ∀ c ∈ s.objects.graph.revList base head, validateCommitPaths runtime s.objects lane ids c = .ok () := by
    intro c hc
    obtain ⟨ids', hids', hcommit⟩ := hvalid c hc
    rwa [Except.ok.inj (hids.symm.trans hids')]
  rw [if_neg hsame, hancestor, if_neg nofun, if_neg (List.ne_nil_of_mem hmem)]
  refine ⟨?_, ids, .of_range hancestor hcommits⟩
  simp only [except_bind_ok, except_forM_ok, except_pure_ok]
  exact ⟨ids, hids, (), hcommits, trivial⟩

end CcbCore.Lane

namespace CcbCore.Reconcile

open CcbCore.Python CcbCore.Git CcbCore.Lane CcbCore.Raising

/-! ### The derived range -/

section

variable {π : Type} [DecidableEq π] [FileName π] {runtime : Runtime} {site : Registration}

/-- A target that is forward is a range that git listed, below the anchor. -/
theorem targetOf_range {git : GitRepository} {identity branch observed anchor : String} {projected : Option String}
    {target : ReconcileTarget} (h : targetOf git identity branch observed anchor projected = .ok target)
    (hforward : target.disposition = .forward) :
    git.isAncestor target.baseHead target.observedHead = .ok true ∧
      git.commitsBetween target.baseHead target.observedHead = .ok target.commits ∧
      (target.baseHead = anchor ∨ git.isAncestor anchor target.baseHead = .ok true) := by
  unfold targetOf at h
  obtain ⟨anchored, hanchored, h⟩ := except_bind_ok.mp h
  split at h
  · cases h
    cases hforward
  next htrue =>
    rw [Bool.not_eq_false] at htrue
    subst htrue
    cases projected with
    | none =>
      obtain ⟨commits, hcommits, h⟩ := except_bind_ok.mp h
      cases h
      exact ⟨hanchored, hcommits, .inl rfl⟩
    | some cursor =>
      dsimp only at h
      split at h
      · cases h
        cases hforward
      obtain ⟨below, hbelow, h⟩ := except_bind_ok.mp h
      split at h
      · cases h
        cases hforward
      next htrue =>
        rw [Bool.not_eq_false] at htrue
        subst htrue
        obtain ⟨_, hreach, h⟩ := except_bind_ok.mp h
        split at h
        · next htrue =>
          subst htrue
          obtain ⟨commits, hcommits, h⟩ := except_bind_ok.mp h
          cases h
          exact ⟨hreach, hcommits, .inr hbelow⟩
        · obtain ⟨_, -, h⟩ := except_bind_ok.mp h
          split at h <;> cases h <;> cases hforward

omit [FileName π] in
theorem ancestor_of_clone {clone : Clone π} {a d : String} (h : clone.checkout.repository.isAncestor a d = .ok true) :
    clone.objects.graph.Known d ∧ clone.objects.graph.Ancestor a d := by
  change clone.checkout.isAncestor a d = .ok true at h
  unfold Checkout.isAncestor at h
  split at h
  · next ha hd =>
    obtain ⟨-, -, rfl⟩ := Option.map_eq_some_iff.mp ha
    obtain ⟨-, -, rfl⟩ := Option.map_eq_some_iff.mp hd
    exact CommitGraph.isAncestor_iff.mp (Except.ok.inj h)
  · cases h

omit [FileName π] in
theorem revList_of_clone {clone : Clone π} {base head : String} {commits : List String}
    (h : clone.checkout.repository.commitsBetween base head = .ok commits) : commits = clone.objects.graph.revList base head := by
  change clone.checkout.commitsBetween base head = .ok commits at h
  unfold Checkout.commitsBetween at h
  split at h
  · next hsame =>
    subst hsame
    rw [revList_of_line .nil]
    exact (Except.ok.inj h).symm
  · split at h
    · next hb hh =>
      obtain ⟨-, -, rfl⟩ := Option.map_eq_some_iff.mp hb
      obtain ⟨-, -, rfl⟩ := Option.map_eq_some_iff.mp hh
      exact (Except.ok.inj h).symm
    · cases h

/-- **Of a lane whose pushes were guarded each range that the reconciler derives, at or below where the lane was created,
is validated as it was derived, and it is collected and chunked unless it adds a message over the projector's limit.** -/
theorem guarded_taken {objects : Objects π} {first : Push π} {pushes : List (Push π)} {s : LaneState π} {clone : Clone π}
    {identity anchor : String} {lane : WriterLane} {journal : CursorJournal} {target : ReconcileTarget}
    (hrun : Run (fun s push s' => Pushed runtime site s push s' ∧ CreatesWithOne s push) ⟨objects, none, []⟩ (first :: pushes) s)
    (hidentity : identityForRef site.ref site.topology = .ok identity) (hlane : site.topology.lookup identity = some lane)
    (hactive : lane.lifecycle = .active) (hclone : s.objects.Extends clone.objects) (hbranch : clone.branches lane.branch = s.head)
    (hanchor : activationAnchor site.cutover identity lane.branch = .ok anchor)
    (hmain : clone.objects.graph.Ancestor first.main anchor)
    (htarget : deriveTarget clone.checkout.repository site.topology site.cutover journal identity = .ok target)
    (hforward : target.disposition = .forward) :
    validateActiveWriterRange runtime clone.objects site.topology site.cutover identity target.baseHead target.observedHead =
        .ok target.commits ∧
      ((∃ files chunks, collectProjectionFiles clone.objects target.commits = .ok files ∧ chunkProjectionFiles files = .ok chunks) ↔
        ∀ c ∈ target.commits, AddsSmall clone.objects c) := by
  obtain ⟨hlists, hguarded⟩ := pushes_listed hrun
  obtain ⟨observed, anchor', hobserved, hanchor', htargetOf⟩ := deriveTarget_ok (lookup_active hlane hactive) htarget
  obtain rfl := Except.ok.inj (hanchor.symm.trans hanchor')
  obtain ⟨-, -, -, -, hobservedHead⟩ := targetOf_forward htargetOf hforward
  obtain ⟨hbase, hcommits, habove⟩ := targetOf_range htargetOf hforward
  have hhead : s.head = some target.observedHead := by
    rw [hobservedHead, ← hbranch]
    change clone.checkout.branchHead lane.branch = .ok observed at hobserved
    unfold Checkout.branchHead at hobserved
    split at hobserved
    · cases hobserved
    · next hfound => rw [← Except.ok.inj hobserved]; exact hfound
  have hmainBase : clone.objects.graph.Ancestor first.main target.baseHead := by
    obtain heq | habove := habove
    · rwa [heq]
    · exact hmain.trans (ancestor_of_clone habove).2
  obtain ⟨hvalid, reserved, hsegment⟩ := validated_of_listed (hlists.grow hclone) (hguarded.grow hclone) hhead hidentity hlane hactive
    hmainBase (ancestor_of_clone hbase).2
  have hlist := revList_of_clone hcommits
  refine ⟨hlist ▸ hvalid, ?_⟩
  rw [hlist, ← exists_collect_iff hsegment]
  constructor
  · rintro ⟨files, -, hfiles, -⟩
    exact ⟨files, hfiles⟩
  · rintro ⟨files, hfiles⟩
    obtain ⟨chunks, hchunks⟩ := exists_chunks hfiles
    exact ⟨files, chunks, hfiles, hchunks⟩

end

/-! ### A guarded lane -/

def guardedSite : Registration := ⟨"refs/heads/bus/alpha-v1", sampleTopology, sampleCutover⟩

/-- The push that creates the lane with one commit. -/
def guardedPush : Push String := ⟨plainObjects, secondCommit, none, firstCommit, none⟩

theorem guardedPush_accepted :
    validateWriterLaneCommit sampleRuntime plainObjects secondCommit guardedSite.ref secondCommit guardedSite.topology none
      sampleCutover none = .ok "alpha" := by decide +kernel

theorem guardedPush_run :
    Run (fun s push s' => Pushed sampleRuntime guardedSite s push s' ∧ CreatesWithOne s push) ⟨plainObjects, none, []⟩ [guardedPush]
      ⟨plainObjects, some secondCommit, [secondCommit]⟩ := by
  have hadded : plainObjects.graph.revList firstCommit secondCommit = [secondCommit] := by decide +kernel
  refine Run.single ⟨?_, createsWithOne_of_parent rfl (by decide +kernel)⟩
  rw [← hadded]
  exact .create rfl (.refl _) (by decide +kernel) rfl (by decide +kernel) nofun ⟨"alpha", guardedPush_accepted⟩

/-- The range of the lane. -/
def guardedTarget : ReconcileTarget :=
  ⟨"alpha", "bus/alpha-v1", none, firstCommit, secondCommit, [secondCommit], .forward, true⟩

theorem guarded_taken_plain :
    validateActiveWriterRange sampleRuntime plainObjects sampleTopology sampleCutover "alpha" firstCommit secondCommit =
        .ok [secondCommit] ∧
      ((∃ files chunks, collectProjectionFiles plainObjects [secondCommit] = .ok files ∧ chunkProjectionFiles files = .ok chunks) ↔
        ∀ c ∈ [secondCommit], AddsSmall plainObjects c) := by
  have hlane : guardedSite.topology.lookup "alpha" = some ⟨"alpha", "alpha", "bus/alpha-v1", .active⟩ := rfl
  have hclone : plainObjects.Extends sampleClone.objects := .refl _
  have htarget : deriveTarget sampleClone.checkout.repository guardedSite.topology guardedSite.cutover (fun _ _ => none) "alpha" =
      .ok guardedTarget := by decide +kernel
  exact guarded_taken guardedPush_run rfl hlane rfl hclone rfl rfl (.refl _) htarget rfl

end CcbCore.Reconcile
