import CcbCore.Reconcile.Coverage

/-!
# What a run has done when it returns

A run of `project_requested_lanes` that returns has taken the lane to where its clone's branch is, or
found it there or past it, whatever other runs did between its calls; and the lane is there from then
on (`returned_reaches`).
-/

namespace CcbCore.Reconcile

open CcbCore.Python CcbCore.Git CcbCore.Lane CcbCore.Raising CcbCore.Projection
open CcbCore.JavaScript (Engine)
open CcbCore.Postgres (isHex Hex)

variable {π : Type} [DecidableEq π] [FileName π] {Other : Type}

/-! ### Batches stay -/

section

variable {db db' mid : Database Other} {server : Server Other} {engine : Engine}

theorem Provides.batchesStay {call : ClientCall} {reply : Except RadarError call.Reply}
    (h : Provides engine server call db reply db') : BatchesStay db db' := by
  induction h with
  | getLane => exact .refl _
  | setControlCut _ hreturns =>
    obtain ⟨now, rfl⟩ := hreturns.after
    exact batchesStay_after _ _ _ _
  | claimBatch _ hreturns =>
    obtain ⟨now, rfl⟩ := hreturns.after
    exact batchesStay_after _ _ _ _
  | projectBatch => exact batchesStay_play _ 0
  | finalizeBatch hreturns =>
    obtain ⟨now, rfl⟩ := hreturns.after
    exact batchesStay_after _ _ _ _
  | refused => exact .refl _
  | lost _ ih => exact ih

end

/-! ### What a run may rely on -/

/-- The lane's batches keep what they cover, and no batch goes away. -/
structure Proceeds (objects : Objects π) (anchor : String) (key : LaneKey) (start : Option Sha) (db db' : Database Other) : Prop where
  keeps : Keeps objects anchor key start db db'
  batches : BatchesStay db db'

/-- The lane's batches are as they should be. -/
def InCoverage (objects : Objects π) (anchor : String) (key : LaneKey) (start : Option Sha) (db : Database Other) : Prop :=
  ∃ lane, Covered objects anchor key start db lane

/-- The lane's cursor is at a commit, or past it. -/
def AtOrPast (objects : Objects π) (anchor : String) (key : LaneKey) (start : Option Sha) (head : String) (db : Database Other) :
    Prop :=
  ∃ lane, Covered objects anchor key start db lane ∧ objects.graph.Ancestor head (baseOf anchor lane.projectedHeadSha)

/-- The batch is the lane's. -/
def OnLane (key : LaneKey) (id : Uuid) (db : Database Other) : Prop :=
  ∃ batch, db.batches.lookup id = some batch ∧ batch.key = key

/-- What answers a call, where what is claimed is a range. -/
def Answers (engine : Engine) (server : Server Other) (objects : Objects π) (anchor : String) (key : LaneKey) (start : Option Sha) :
    Environment Client RadarError (Database Other) :=
  fun call db reply db' => Provides engine server call db reply db' ∧ Proceeds objects anchor key start db db'

section

variable {objects : Objects π} {anchor head : String} {key : LaneKey} {start : Option Sha} {db db' mid : Database Other}
  {server : Server Other} {engine : Engine} {runtime : Runtime} {topology : Topology} {cutover : Option Json}

theorem Proceeds.refl (db : Database Other) : Proceeds objects anchor key start db db := ⟨.refl _ _ _ _ _, .refl db⟩

theorem Proceeds.trans (h : Proceeds objects anchor key start db mid) (h' : Proceeds objects anchor key start mid db') :
    Proceeds objects anchor key start db db' := ⟨h.keeps.trans h'.keeps, h.batches.trans h'.batches⟩

theorem Elsewhere.proceeds (h : Elsewhere server key db db') : Proceeds objects anchor key start db db' := by
  refine ⟨h.keeps, ?_⟩
  obtain ⟨now, call, rfl, -⟩ := h
  exact batchesStay_after server now call db

theorem stable_inCoverage :
    Stable (Proceeds objects anchor key start) (InCoverage objects anchor key start : Database Other → Prop) := by
  rintro db db' h ⟨lane, hlane⟩
  obtain ⟨lane', hlane', -⟩ := h.keeps lane hlane
  exact ⟨lane', hlane'⟩

theorem stable_atOrPast :
    Stable (Proceeds objects anchor key start) (AtOrPast objects anchor key start head : Database Other → Prop) := by
  rintro db db' h ⟨lane, hlane, hpast⟩
  obtain ⟨lane', hlane', hadvances⟩ := h.keeps lane hlane
  exact ⟨lane', hlane', hpast.trans hadvances.ancestor⟩

theorem stable_onLane {id : Uuid} : Stable (Proceeds objects anchor key start) (OnLane key id : Database Other → Prop) := by
  rintro db db' h ⟨batch, hbatch, hkey⟩
  obtain ⟨batch', hbatch', hkey', -⟩ := h.batches id batch hbatch
  exact ⟨batch', hbatch', hkey'.trans hkey⟩

/-! ### The journal's answers -/

/-- A batch that is claimed is on the lane that the client names. -/
theorem onLane_of_claimed {request : ClaimRequest} {reply : Uuid × Uuid}
    (h : Provides engine server (.claimBatch request) db (.ok reply) db')
    (hkey : journalKey engine request.identity request.branch = .ok key) : OnLane key reply.1 db' := by
  cases h with
  | @claimBatch _ _ _ _ _ batch _ _ hargs hreturns =>
    obtain ⟨now, hrun⟩ := hreturns
    rw [run_transaction_ok] at hrun
    obtain ⟨_, hbody, hreply⟩ := run_map_ok.mp hrun
    obtain ⟨made, _, hresult, hclaims, hrequested, -⟩ := projectionClaimBatchV1_requested hbody
    rw [hresult] at hreply
    cases hreply
    simp only [claimArgs, hkey, except_bind_ok, except_pure_ok, Except.ok.injEq] at hargs
    obtain ⟨_, rfl, _, -, _, -, _, -, _, -, _, -, _, -, _, -, rfl⟩ := hargs
    refine ⟨batch, ?_, Prod.ext (Option.some.inj hrequested.identity).symm (Option.some.inj hrequested.branch).symm⟩
    rw [hclaims.batches, AList.lookup_insert]

/-- When finalizing a batch of the lane returns a head, the lane's cursor is there. -/
theorem atOrPast_of_finalized {id token : Uuid} (hcovered : InCoverage objects anchor key start db) (hlane : OnLane key id db)
    (hproceeds : Proceeds objects anchor key start db db')
    (h : Provides engine server (.finalizeBatch id token) db (.ok (some head)) db') : AtOrPast objects anchor key start head db' := by
  obtain ⟨row, hrow⟩ := stable_inCoverage db db' hproceeds hcovered
  generalize hreply : (Except.ok (some head) : Except RadarError (ClientCall.finalizeBatch id token).Reply) = reply at h
  cases h with
  | @finalizeBatch _ _ lane _ _ hreturns =>
    obtain ⟨now, hrun⟩ := hreturns
    rw [run_transaction_ok] at hrun
    obtain ⟨_, hbody, hlaneReply⟩ := run_map_ok.mp hrun
    cases hlaneReply
    obtain ⟨id', batch, before, hfinds, hcase⟩ := projectionFinalizeBatchV1_ok.mp hbody
    obtain rfl := Option.some.inj hfinds.given
    obtain ⟨batch', hbatch', hkey'⟩ := hlane
    obtain rfl := Option.some.inj (hbatch'.symm.trans hfinds.found)
    have hafter : db'.laneState.lookup key = some lane.2 := by
      rcases hcase with ⟨-, -, rfl, rfl⟩ | ⟨-, rfl, rfl⟩
      · exact hkey' ▸ hfinds.onLane
      · exact hkey' ▸ AList.lookup_insert _
    refine ⟨row, hrow, ?_⟩
    rw [Option.some.inj (hrow.onLane.symm.trans hafter), baseOf, ← Except.ok.inj hreply, Option.getD_some]
    exact .refl _
  | refused => cases hreply
  | lost => cases hreply

/-! ### The program -/

/-- What a program keeps. -/
theorem keep {α : Type} {P : Database Other → Prop} (hP : Stable (Proceeds objects anchor key start) P)
    (p : Prog Client RadarError α) : Secures (Answers engine server objects anchor key start) (Proceeds objects anchor key start)
      (Proceeds objects anchor key start) P p fun _ => P :=
  .keep (fun _ _ => id) (fun _ _ _ _ h => h.2) hP p

/-- What answers a call, from what is stable. -/
theorem ask {call : ClientCall} {P : Database Other → Prop} {R : call.Reply → Database Other → Prop}
    (hP : Stable (Proceeds objects anchor key start) P)
    (hR : ∀ db db' reply, P db → Proceeds objects anchor key start db db' →
      Provides engine server call db (.ok reply) db' → R reply db') :
    Secures (Answers engine server objects anchor key start) (Proceeds objects anchor key start)
      (Proceeds objects anchor key start) P (Prog.ask (I := Client) call) R := by
  refine .ask hP fun db reply db' hdb h => ⟨h.2, fun a ha => ?_⟩
  subst ha
  exact hR db db' a hdb h.2 h.1

/-- What is done for a target that is forward takes the cursor to its head. -/
theorem projectForward_reaches {args : ProjectArgs π} {controlSha topologySha : String} {target : ReconcileTarget}
    (hkey : journalKey engine target.identity target.branch = .ok key) :
    Secures (Answers engine server objects anchor key start) (Proceeds objects anchor key start)
      (Proceeds objects anchor key start) (InCoverage objects anchor key start)
      (projectForward runtime topology cutover args controlSha topologySha target)
      fun _ => AtOrPast objects anchor key start target.observedHead := by
  unfold projectForward
  refine .bind (keep stable_inCoverage _) fun commits => ?_
  refine .bind (keep stable_inCoverage _) fun _ => ?_
  refine .bind (keep stable_inCoverage _) fun files => ?_
  refine .bind (keep stable_inCoverage _) fun _ => ?_
  refine .bind (R := fun claim db => InCoverage objects anchor key start db ∧ OnLane key claim.1 db)
    (ask stable_inCoverage fun db db' reply hdb hproceeds h => ⟨stable_inCoverage db db' hproceeds hdb, onLane_of_claimed h hkey⟩)
    fun claim => ?_
  have hstable : Stable (Proceeds objects anchor key start)
      fun db : Database Other => InCoverage objects anchor key start db ∧ OnLane key claim.1 db :=
    stable_inCoverage.and stable_onLane
  refine .bind (keep hstable _) fun chunks => ?_
  refine .bind (keep hstable _) fun projected => ?_
  refine .bind (R := fun head db => head = some target.observedHead → AtOrPast objects anchor key start target.observedHead db)
    (ask hstable fun db db' reply hdb hproceeds h hhead => ?_) fun head => ?_
  · subst hhead
    exact atOrPast_of_finalized hdb.1 hdb.2 hproceeds h
  · exact .bind (.refuseIf _ _) fun _ => .pure _ fun db hdb => hdb.1 (not_not.mp hdb.2)

omit [FileName π] in
/-- A target that is not forward and not diverged has its head at the cursor, or before it. -/
theorem targetOf_passed {clone : Clone π} {identity branch observed anchor' : String} {projected : Option String}
    {target : ReconcileTarget} (hclone : clone.objects.Extends objects)
    (h : targetOf clone.checkout.repository identity branch observed anchor' projected = .ok target)
    (hpassed : target.disposition = .noop ∨ target.disposition = .staleEvent) :
    ∃ cursor, projected = some cursor ∧ objects.graph.Ancestor observed cursor := by
  unfold targetOf at h
  obtain ⟨anchored, -, h⟩ := except_bind_ok.mp h
  split at h
  · cases h
    simp at hpassed
  cases projected with
  | none =>
    obtain ⟨commits, -, h⟩ := except_bind_ok.mp h
    cases h
    simp at hpassed
  | some cursor =>
    dsimp only at h
    refine ⟨cursor, rfl, ?_⟩
    split at h
    · next heq =>
      rw [heq]
      exact .refl _
    obtain ⟨_, -, h⟩ := except_bind_ok.mp h
    split at h
    · cases h
      simp at hpassed
    obtain ⟨_, -, h⟩ := except_bind_ok.mp h
    split at h
    · obtain ⟨commits, -, h⟩ := except_bind_ok.mp h
      cases h
      simp at hpassed
    obtain ⟨behind, hbehind, h⟩ := except_bind_ok.mp h
    split at h
    · next htrue =>
      subst htrue
      change clone.checkout.isAncestor observed cursor = _ at hbehind
      simp only [Checkout.isAncestor, Clone.checkout] at hbehind
      split at hbehind
      · next hobserved hcursor =>
        obtain ⟨_, -, rfl⟩ := Option.map_eq_some_iff.mp hobserved
        obtain ⟨_, -, rfl⟩ := Option.map_eq_some_iff.mp hcursor
        obtain ⟨hknown, hancestor⟩ := CommitGraph.isAncestor_iff.mp (Except.ok.inj hbehind)
        exact hclone.ancestor hknown hancestor
      · cases hbehind
    · cases h
      simp at hpassed

/-- The cursor that a lane was read with, which the lane's cursor follows. -/
def WasRead (objects : Objects π) (anchor : String) (key : LaneKey) (start : Option Sha) (row : Option (Option String))
    (db : Database Other) : Prop :=
  ∃ cursor lane, row = some (Option.map Hex.text cursor) ∧ Covered objects anchor key start db lane ∧
    objects.graph.Ancestor (baseOf anchor cursor) (baseOf anchor lane.projectedHeadSha)

theorem wasRead_of_getLane {identity branch : String} {row : Option (Option String)} (hcovered : InCoverage objects anchor key start db)
    (h : Provides engine server (.getLane identity branch) db (.ok row) db') (hkey : journalKey engine identity branch = .ok key) :
    WasRead objects anchor key start row db' := by
  obtain ⟨lane, hlane⟩ := hcovered
  generalize hreply : (Except.ok row : Except RadarError (ClientCall.getLane identity branch).Reply) = reply at h
  cases h with
  | getLane hkey' =>
    rw [hkey] at hkey'
    cases hkey'
    refine ⟨lane.projectedHeadSha, lane, ?_, hlane, .refl _⟩
    rw [Except.ok.inj hreply, hlane.onLane]
    rfl
  | refused => cases hreply
  | lost => cases hreply

theorem providerCursor_eq {head cursor : Option String} (h : providerCursor (some head) = .ok cursor) : cursor = head := by
  cases head with
  | none =>
    cases h
    rfl
  | some text =>
    simp only [providerCursor] at h
    split at h <;> cases h
    rfl

/-- What is done for a lane takes its cursor to the head of its branch, or finds it there or past it. -/
theorem projectLane_reaches {args : ProjectArgs π} {hint : Option String} {controlSha topologySha identity : String}
    {lane : WriterLane} (hclone : args.clone.objects.Extends objects) (hlane : topology.active.lookup identity = some lane)
    (hkey : journalKey engine identity lane.branch = .ok key) (hhead : args.clone.branches lane.branch = some head) :
    Secures (Answers engine server objects anchor key start) (Proceeds objects anchor key start)
      (Proceeds objects anchor key start) (InCoverage objects anchor key start)
      (projectLane runtime topology cutover args hint controlSha topologySha identity)
      fun _ => AtOrPast objects anchor key start head := by
  unfold projectLane
  rw [hlane]
  refine .bind (R := fun row => WasRead objects anchor key start row)
    (ask stable_inCoverage fun db db' row hdb hproceeds h => wasRead_of_getLane hdb h hkey) fun row => ?_
  refine .bind (.lift _) fun cursor => .assume fun hcursor => .bind (.lift _) fun target => .assume fun htarget => ?_
  obtain ⟨observed, anchor', hobserved, -, htarget⟩ := deriveTarget_ok hlane htarget
  obtain rfl : observed = head := by
    change args.clone.checkout.branchHead lane.branch = _ at hobserved
    simp only [Checkout.branchHead, Clone.checkout, hhead] at hobserved
    exact (Except.ok.inj hobserved).symm
  have hpassed : target.disposition = .noop ∨ target.disposition = .staleEvent → ∀ db : Database Other,
      WasRead objects anchor key start row db → AtOrPast objects anchor key start observed db := by
    rintro hdisposition db ⟨at', current, rfl, hcurrent, hafter⟩
    obtain ⟨c, hc, hancestor⟩ := targetOf_passed hclone htarget hdisposition
    have hbase : baseOf anchor at' = c := by rw [baseOf, ← providerCursor_eq hcursor, hc, Option.getD_some]
    exact ⟨current, hcurrent, hancestor.trans (hbase ▸ hafter)⟩
  cases hdisposition : target.disposition with
  | noop => exact .pure _ (hpassed (.inl hdisposition))
  | staleEvent => exact .pure _ (hpassed (.inr hdisposition))
  | divergedHistory => exact .throw _
  | forward =>
    obtain ⟨hidentity, hbranch, -, -, hobserved'⟩ := targetOf_forward htarget hdisposition
    rw [← hidentity, ← hbranch] at hkey
    refine .bind ((projectForward_reaches hkey).weaken ?_) fun finalized => .pure _ fun db hdb => hobserved' ▸ hdb
    rintro db ⟨-, current, -, hcurrent, -⟩
    exact ⟨current, hcurrent⟩

theorem projectLanes_reaches {args : ProjectArgs π} {hint : Option String} {controlSha topologySha identity : String}
    {identities : List String} {lane : WriterLane} (hclone : args.clone.objects.Extends objects)
    (hlane : topology.active.lookup identity = some lane) (hkey : journalKey engine identity lane.branch = .ok key)
    (hhead : args.clone.branches lane.branch = some head) (hmem : identity ∈ identities) :
    Secures (Answers engine server objects anchor key start) (Proceeds objects anchor key start)
      (Proceeds objects anchor key start) (InCoverage objects anchor key start)
      (projectLanes runtime topology cutover args hint controlSha topologySha identities)
      fun _ => AtOrPast objects anchor key start head := by
  induction identities with
  | nil => cases hmem
  | cons requested identities ih =>
    unfold projectLanes
    by_cases hthis : identity = requested
    · subst hthis
      exact .bind (projectLane_reaches hclone hlane hkey hhead) fun report => keep stable_atOrPast _
    · refine .bind (keep stable_inCoverage _) fun report => ?_
      exact .bind (ih ((List.mem_cons.mp hmem).resolve_left hthis)) fun reports => keep stable_atOrPast _

end

/-! ### Any runs -/

/-- A run asks for the lane, and has a commit at the head of its branch. -/
def AsksFor (topology : Topology) (identity head : String) (args : ProjectArgs π) : Prop :=
  (∃ identities hint, requestedIdentities topology args = .ok (identities, hint) ∧ identity ∈ identities) ∧
    ∃ lane, topology.active.lookup identity = some lane ∧ args.clone.branches lane.branch = some head

omit [FileName π] in
theorem AsksFor.head_eq {topology : Topology} {identity head head' : String} {args : ProjectArgs π}
    (h : AsksFor topology identity head args) (h' : AsksFor topology identity head' args) : head = head' := by
  obtain ⟨-, lane, hlane, hhead⟩ := h
  obtain ⟨-, lane', hlane', hhead'⟩ := h'
  obtain rfl := Option.some.inj (hlane.symm.trans hlane')
  exact Option.some.inj (hhead.symm.trans hhead')

/-- A run that returns has taken the lane to the head that it asks for. -/
def ReachesHeads (objects : Objects π) (anchor : String) (key : LaneKey) (start : Option Sha) (topology : Topology)
    (identity : String) (d : CloneArgs objects) (result : Except RadarError (List LaneReport)) (db : Database Other) : Prop :=
  ∀ reports, result = .ok reports → ∀ head, AsksFor topology identity head d.args → AtOrPast objects anchor key start head db

section

variable {ι : Type} [DecidableEq ι] {objects : Objects π} {anchor head identity : String} {key : LaneKey} {start : Option Sha}
  {server : Server Other} {engine : Engine} {runtime : Runtime} {topology : Topology} {cutover : Option Json}

theorem projectRequestedLanes_reaches {args : ProjectArgs π} (hkeyed : KeyedLane engine topology cutover identity anchor key)
    (hclone : args.clone.objects.Extends objects) (hasks : AsksFor topology identity head args) :
    Secures (Answers engine server objects anchor key start) (Proceeds objects anchor key start)
      (Proceeds objects anchor key start) (InCoverage objects anchor key start : Database Other → Prop)
      (projectRequestedLanes runtime topology cutover args) fun _ => AtOrPast objects anchor key start head := by
  obtain ⟨⟨identities, hint, hrequested, hmem⟩, lane, hlane, hhead⟩ := hasks
  obtain ⟨lane', hlane', hkey, -⟩ := hkeyed.active
  rw [← Option.some.inj (hlane.symm.trans hlane')] at hkey
  unfold projectRequestedLanes
  rw [hrequested]
  refine .bind (.lift _) fun requested => .assume fun heq => ?_
  cases heq
  refine .bind (keep stable_inCoverage _) fun controlSha => ?_
  refine .bind (keep stable_inCoverage _) fun topologySha => ?_
  refine .bind (keep stable_inCoverage _) fun _ => ?_
  exact projectLanes_reaches hclone hlane hkey hhead hmem

/-- **However runs of `project_requested_lanes` are interleaved and dropped, once a run that asks for
the lane has returned, the lane's cursor is at the commit that the run's clone has at the head of the
lane's branch, or past it.** -/
theorem returned_reaches (engine : Engine) (server : Server Other) (runtime : Runtime) (topology : Topology)
    (cutover : Option Json) (objects : Objects π) (identity anchor : String) (key : LaneKey) (start : Option Sha)
    (hkeyed : KeyedLane engine topology cutover identity anchor key)
    (p p' : Pool Client RadarError (List LaneReport) (Database Other) ι (CloneArgs objects))
    (hidle : ∀ i, ∃ e, p.program i = .done (.error e)) (hseeded : Seeded objects anchor key start p.state)
    (es : List (PoolEvent ι (CloneArgs objects)))
    (hrun : Run (PoolStep (Provides engine server) (Elsewhere server key)
      fun d => projectRequestedLanes runtime topology cutover d.args) p es p')
    (i : ι) (reports : List LaneReport) (hreturned : p'.program i = .done (.ok reports)) (head : String)
    (hasks : AsksFor topology identity head (p'.data i).args) :
    ∃ lane, p'.state.laneState.lookup key = some lane ∧
      objects.graph.Ancestor head (baseOf anchor lane.projectedHeadSha) := by
  have hbody : ∀ (d : CloneArgs objects) (s : Database Other), InCoverage objects anchor key start s →
      Secure (Provides engine server) (Proceeds objects anchor key start) (Proceeds objects anchor key start)
        (projectRequestedLanes runtime topology cutover d.args) (ReachesHeads objects anchor key start topology identity d) s := by
    intro d s hs
    have honly : (projectRequestedLanes runtime topology cutover d.args).Only (RangeClaim engine objects anchor key) :=
      projectRequestedLanes_claims hkeyed d.clone
    have hanswers : ∀ (call : ClientCall) (s : Database Other) reply s', RangeClaim engine objects anchor key call →
        Provides engine server call s reply s' → Answers engine server objects anchor key start call s reply s' :=
      fun call s reply s' hrange h => ⟨h, ⟨fun lane hlane => hlane.provides hrange h, h.batchesStay⟩⟩
    by_cases hhead : ∃ head, AsksFor topology identity head d.args
    · obtain ⟨head, hasks⟩ := hhead
      refine (Secures.restrict honly hanswers (projectRequestedLanes_reaches hkeyed d.clone hasks) s hs).mono ?_
      rintro _ db hdb reports rfl head' hasks'
      rwa [hasks'.head_eq hasks]
    · refine (Secures.restrict honly hanswers (keep stable_inCoverage _) s hs).mono ?_
      rintro _ db - reports - head hasks
      exact absurd ⟨head, hasks⟩ hhead
  have hstable : ∀ d result, Stable (Proceeds objects anchor key start)
      (ReachesHeads objects anchor key start topology identity d result : Database Other → Prop) :=
    fun d result db db' h hreaches reports hresult head hasks => stable_atOrPast db db' h (hreaches reports hresult head hasks)
  have hbegin : p.Meets (Provides engine server) (Proceeds objects anchor key start) (fun _ => Proceeds objects anchor key start)
      (ReachesHeads objects anchor key start topology identity) := by
    intro i
    obtain ⟨e, he⟩ := hidle i
    rw [he]
    exact nofun
  obtain ⟨hmeets, -⟩ := pool_run_meets Proceeds.refl (fun _ _ _ => Proceeds.trans) (fun _ _ _ => id) (fun _ _ => Elsewhere.proceeds)
    hstable stable_inCoverage hbody hbegin hseeded.covered hrun
  obtain ⟨lane, hlane, hpast⟩ := hmeets.done hreturned reports rfl head hasks
  exact ⟨lane, hlane.onLane, hpast⟩

end

/-- The scheduled run returns, with the lane at the head of its branch. -/
theorem returned_reaches_plain : ∃ lane, sampleRun.2.2.laneState.lookup ("alpha", "bus/alpha-v1") = some lane ∧
    plainObjects.graph.Ancestor secondCommit (baseOf firstCommit lane.projectedHeadSha) := by
  obtain ⟨es, p', hrun, hstate, hdata, hprogram⟩ := sample_pool
  have hreturns : sampleRun.2.1.toBool = true := by decide +kernel
  cases hreports : sampleRun.2.1 with
  | error e =>
    rw [hreports] at hreturns
    cases hreturns
  | ok reports =>
    rw [hreports] at hprogram
    have hlane := returned_reaches Edge.sampleEngine sampleServer sampleRuntime sampleTopology sampleCutover plainObjects "alpha"
      firstCommit ("alpha", "bus/alpha-v1") none sample_keyed sampleIdle p' (fun _ => ⟨_, rfl⟩) sample_seeded es hrun () reports
      hprogram secondCommit (by
        rw [hdata]
        exact ⟨⟨["alpha"], none, rfl, List.mem_singleton.mpr rfl⟩, _, rfl, rfl⟩)
    rwa [hstate] at hlane

end CcbCore.Reconcile
