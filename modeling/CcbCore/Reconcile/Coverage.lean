import CcbCore.Lane.Additions
import CcbCore.Lane.Limits
import CcbCore.Library.Interference
import CcbCore.Projection.TokenFence
import CcbCore.Reconcile.Project

/-!
# What a lane's cursor covers

Any number of runs of `project_requested_lanes` over clones of one repository, a call at a time and
in any order, each dropped anywhere and started again; the branches of each clone are wherever they
are. A run claims nothing on a lane but a range that the clone has validated, from the lane's cursor
or its anchor, with the files that the range adds (`projectRequestedLanes_claims`). So the complete
batches of the lane are ranges one after another (`Covered`), which no call undoes (`Covered.after`),
and the files of the batches are the files that the commits up to the cursor add, each in one
batch (`cursor_coverage`).
-/

namespace CcbCore.Reconcile

open CcbCore.Python CcbCore.Git CcbCore.Lane CcbCore.Raising CcbCore.Projection
open CcbCore.JavaScript (Engine)
open CcbCore.Postgres (isHex Hex)

variable {π : Type} [DecidableEq π] [FileName π] {Other : Type}

/-! ### The lane's batches -/

/-- The commit that a cursor is at: without a cursor, the anchor. -/
def baseOf (anchor : String) (cursor : Option Sha) : String := (cursor.map Hex.text).getD anchor

/-- The paths of a batch's files. -/
def Holds (db : Database Other) (id : Uuid) (paths : List String) : Prop :=
  ∀ path, (db.batchFiles.lookup (id, path)).isSome ↔ path ∈ paths

/-- A batch of the lane that is complete. -/
def Completed (db : Database Other) (key : LaneKey) (id : Uuid) (batch : BatchRow) : Prop :=
  db.batches.lookup id = some batch ∧ batch.key = key ∧ batch.status = .complete

variable (objects : Objects π) (anchor : String) (key : LaneKey)

/-- The lane's batches are ranges, each with what it adds, and those that are complete lie one after
another between where the lane started and its cursor. -/
structure Covered (start : Option Sha) (db : Database Other) (lane : LaneRow) : Prop where
  onLane : db.laneState.lookup key = some lane
  listed : ∀ id path, (db.batchFiles.lookup (id, path)).isSome → (db.batches.lookup id).isSome
  covers : ∀ id batch, db.batches.lookup id = some batch → batch.key = key →
    ∃ paths, Holds db id paths ∧
      Covers objects (baseOf anchor batch.expectedProjectedHeadSha) batch.targetHeadSha.text paths
  descends : Follows objects (baseOf anchor start) (baseOf anchor lane.projectedHeadSha)
  between : ∀ id batch, Completed db key id batch →
    Follows objects (baseOf anchor start) (baseOf anchor batch.expectedProjectedHeadSha) ∧
      Follows objects batch.targetHeadSha.text (baseOf anchor lane.projectedHeadSha)
  reached : ∀ c, objects.graph.InRange (baseOf anchor start) (baseOf anchor lane.projectedHeadSha) c →
    ∃ id batch, Completed db key id batch ∧
      objects.graph.InRange (baseOf anchor batch.expectedProjectedHeadSha) batch.targetHeadSha.text c
  apart : ∀ id id' batch batch', Completed db key id batch → Completed db key id' batch' → id ≠ id' →
    Follows objects batch.targetHeadSha.text (baseOf anchor batch'.expectedProjectedHeadSha) ∨
      Follows objects batch'.targetHeadSha.text (baseOf anchor batch.expectedProjectedHeadSha)
  terminal : ∀ id batch path file, Completed db key id batch → db.batchFiles.lookup (id, path) = some file → file.state.Terminal

/-- A claim on the lane is of a range, with what it adds. -/
def ClaimsRange (args : ClaimArgs) : Prop :=
  args.identityId = some key.1 → args.branch = some key.2 → ∃ target, args.targetHeadSha = some target ∧
    Covers objects (args.expectedProjectedHeadSha.getD anchor) target ((args.files.getD []).reduceOption)

/-- The lane's cursor goes nowhere but to what follows it. -/
def Advances (lane lane' : LaneRow) : Prop :=
  Follows objects (baseOf anchor lane.projectedHeadSha) (baseOf anchor lane'.projectedHeadSha)

section

variable {objects : Objects π} {anchor : String} {key : LaneKey} {start : Option Sha} {db db' : Database Other} {now : ℤ}
  {lane lane' : LaneRow} {server : Server Other}

/-- The journal goes on to one whose batches on the lane, and whose paths, are what they were. -/
theorem Covered.keep (h : Covered objects anchor key start db lane) (hlane : db'.laneState.lookup key = some lane')
    (hcursor : lane'.projectedHeadSha = lane.projectedHeadSha)
    (hstay : ∀ id, (db.batches.lookup id).isSome → (db'.batches.lookup id).isSome)
    (hbatches : ∀ id batch, batch.key = key → (db'.batches.lookup id = some batch ↔ db.batches.lookup id = some batch))
    (hfiles : ∀ k, (db'.batchFiles.lookup k).isSome ↔ (db.batchFiles.lookup k).isSome)
    (hstates : ∀ id batch path file, Completed db key id batch → db'.batchFiles.lookup (id, path) = some file →
      db.batchFiles.lookup (id, path) = some file) : Covered objects anchor key start db' lane' := by
  have hholds : ∀ id paths, Holds db' id paths ↔ Holds db id paths := fun id paths => forall_congr' fun path => by rw [hfiles]
  have hcompleted : ∀ id batch, Completed db' key id batch ↔ Completed db key id batch := fun id batch => by
    constructor
    · exact fun ⟨hfound, hkey, hstatus⟩ => ⟨(hbatches id batch hkey).mp hfound, hkey, hstatus⟩
    · exact fun ⟨hfound, hkey, hstatus⟩ => ⟨(hbatches id batch hkey).mpr hfound, hkey, hstatus⟩
  obtain ⟨-, hlisted, hcovers, hdescends, hbetween, hreached, hapart, hterminal⟩ := h
  refine ⟨hlane, fun id path hsome => hstay id (hlisted id path ((hfiles _).mp hsome)), fun id batch hfound hkey => ?_, ?_, ?_,
    ?_, ?_, fun id batch path file hbatch hfile => ?_⟩
  · obtain ⟨paths, hpaths, hcover⟩ := hcovers id batch ((hbatches id batch hkey).mp hfound) hkey
    exact ⟨paths, (hholds id paths).mpr hpaths, hcover⟩
  · rwa [hcursor]
  · simpa only [hcursor, hcompleted] using hbetween
  · simpa only [hcursor, hcompleted] using hreached
  · simpa only [hcompleted] using hapart
  · rw [hcompleted] at hbatch
    exact hterminal id batch path file hbatch (hstates id batch path file hbatch hfile)

/-- A batch that is not claimed is not superseded. -/
theorem lookup_withSuperseded_of_ended {key : LaneKey} {id : Uuid} {batch : BatchRow} (hfound : db.batches.lookup id = some batch)
    (hended : batch.status ≠ .claimed) : (db.withSuperseded now key).batches.lookup id = some batch := by
  unfold Database.withSuperseded
  cases hclaimed : db.claimedBatch key with
  | none => exact hfound
  | some claimed =>
    obtain ⟨hother, -, hstatus⟩ := claimedBatch_eq_some hclaimed
    have hne : id ≠ claimed.1 := by
      rintro rfl
      rw [hfound] at hother
      exact hended (Option.some.inj hother ▸ hstatus)
    simpa [Table.lookup_modify, hne] using hfound

/-- A claim leaves the complete batches what they were. -/
theorem completed_claims {id' token : Uuid} {batch' : BatchRow} (hclaims : Claims db now id' token batch' lane' db') (id : Uuid)
    (batch : BatchRow) : Completed db' key id batch ↔ Completed db key id batch := by
  unfold Completed
  rw [hclaims.batches]
  by_cases hid : id = id'
  · subst hid
    rw [AList.lookup_insert, hclaims.new]
    refine ⟨fun ⟨heq, _, hcomplete⟩ => ?_, fun h => nomatch h.1⟩
    rw [← Option.some.inj heq, hclaims.claimed] at hcomplete
    cases hcomplete
  · rw [AList.lookup_insert_ne hid]
    refine ⟨fun ⟨hfound, hkey, hcomplete⟩ => ?_, fun ⟨hfound, hkey, hcomplete⟩ => ⟨?_, hkey, hcomplete⟩⟩
    · obtain ⟨before, hbefore, rfl | ⟨-, -, -, rfl⟩⟩ := lookup_withSuperseded hfound
      · exact ⟨hbefore, hkey, hcomplete⟩
      · cases hcomplete
    · exact lookup_withSuperseded_of_ended hfound (by rw [hcomplete]; decide)

/-- The batches after a claim: the new one, and those that were there, on their ranges. -/
theorem lookup_claims {id' token id : Uuid} {batch' batch : BatchRow} (hclaims : Claims db now id' token batch' lane' db')
    (hfound : db'.batches.lookup id = some batch) : (id = id' ∧ batch = batch') ∨ (id ≠ id' ∧ ∃ before,
      db.batches.lookup id = some before ∧ batch.key = before.key ∧
        batch.expectedProjectedHeadSha = before.expectedProjectedHeadSha ∧ batch.targetHeadSha = before.targetHeadSha) := by
  rw [hclaims.batches] at hfound
  rcases Table.lookup_insert_eq_some.mp hfound with ⟨rfl, rfl⟩ | ⟨hne, hfound⟩
  · exact .inl ⟨rfl, rfl⟩
  · obtain ⟨before, hbefore, rfl | ⟨-, -, -, rfl⟩⟩ := lookup_withSuperseded hfound
    · exact .inr ⟨hne, batch, hbefore, rfl, rfl, rfl⟩
    · exact .inr ⟨hne, before, hbefore, rfl, rfl, rfl⟩

/-- A claim of a range, or on another lane. -/
theorem Covered.claim {id token : Uuid} {args : ClaimArgs} {result : Uuid × BatchRow} (h : Covered objects anchor key start db lane)
    (hrange : ClaimsRange objects anchor key args)
    (hrun : (projectionClaimBatchV1 now id token args).run db = .ok result db') : Covered objects anchor key start db' lane := by
  obtain ⟨batch, _, -, hclaims, hrequested, hfiles⟩ := projectionClaimBatchV1_requested hrun
  have hcompleted : ∀ id' batch', Completed db' key id' batch' ↔ Completed db key id' batch' := completed_claims hclaims
  have hother : ∀ {id' : Uuid}, id' ≠ id → ∀ paths, Holds db' id' paths ↔ Holds db id' paths := by
    intro id' hne paths
    refine forall_congr' fun path => ?_
    rw [hfiles]
    simp [hne]
  obtain ⟨hlane, hlisted, hcovers, hdescends, hbetween, hreached, hapart, hterminal⟩ := h
  refine ⟨?_, fun id' path hsome => ?_, fun id' batch' hfound hkey => ?_, hdescends, ?_, ?_, ?_,
    fun id' batch' path file hbatch' hfile => ?_⟩
  · rwa [hclaims.laneState]
  · rw [hclaims.batches]
    by_cases hid : id' = id
    · subst hid
      rw [AList.lookup_insert]
      rfl
    · rw [AList.lookup_insert_ne hid, Option.isSome_iff_ne_none]
      intro hnone
      have hbefore := hlisted id' path (((hfiles _).mp hsome).resolve_right fun hnew => hid hnew.1)
      rw [lookup_withSuperseded_eq_none hnone] at hbefore
      cases hbefore
  · rcases lookup_claims hclaims hfound with ⟨rfl, rfl⟩ | ⟨hne, before, hbefore, hkey', hexpected, htarget⟩
    · have hnofile : ∀ path, ¬ (db.batchFiles.lookup (id', path)).isSome := by
        intro path hsome
        have hbatch := hlisted id' path hsome
        rw [hclaims.new] at hbatch
        cases hbatch
      obtain ⟨target, htarget, hpaths⟩ := hrange (by rw [hrequested.identity, ← hkey]; rfl) (by rw [hrequested.branch, ← hkey]; rfl)
      rw [hrequested.expected, ← Option.some.inj (hrequested.target.symm.trans htarget)] at hpaths
      refine ⟨_, fun path => ?_, hpaths⟩
      rw [hfiles]
      simp [hnofile path]
    · obtain ⟨paths, hholds, hpaths⟩ := hcovers id' before hbefore (hkey'.symm.trans hkey)
      rw [hexpected, htarget]
      exact ⟨paths, (hother hne paths).mpr hholds, hpaths⟩
  · simpa only [hcompleted] using hbetween
  · simpa only [hcompleted] using hreached
  · simpa only [hcompleted] using hapart
  · rw [hcompleted] at hbatch'
    have hbefore : (db.batchFiles.lookup (id', path)).isSome := by
      refine ((hfiles _).mp (Option.isSome_iff_exists.mpr ⟨file, hfile⟩)).resolve_right ?_
      rintro ⟨rfl, -⟩
      exact nomatch hclaims.new.symm.trans hbatch'.1
    obtain ⟨file', hfile'⟩ := Option.isSome_iff_exists.mp hbefore
    obtain rfl := Option.some.inj (hfile.symm.trans (hclaims.kept _ _ hfile'))
    exact hterminal id' batch' path file hbatch' hfile'

/-- The complete batches after a batch is finalized. -/
theorem completed_withFinalized {id' : Uuid} {batch' : BatchRow} (hfound : db.batches.lookup id' = some batch')
    (hclaimed : batch'.status = .claimed) (id : Uuid) (batch : BatchRow) :
    Completed (db.withFinalized now id' batch' lane') key id batch ↔
      Completed db key id batch ∨ (id = id' ∧ batch = batch'.completed now ∧ batch'.key = key) := by
  simp only [Completed, Database.withFinalized, Table.lookup_modify]
  by_cases hid : id = id'
  · subst hid
    simp only [if_true, hfound, Option.map_some, Option.some.injEq, true_and]
    constructor
    · rintro ⟨rfl, hkey, -⟩
      exact .inr ⟨rfl, hkey⟩
    · rintro (⟨rfl, -, hcomplete⟩ | ⟨rfl, hkey⟩)
      · rw [hclaimed] at hcomplete
        cases hcomplete
      · exact ⟨rfl, hkey, rfl⟩
  · simp [hid]

/-- The lane's cursor goes to the target of a batch. -/
theorem Covered.finalize {id : Uuid} {batch : BatchRow} (h : Covered objects anchor key start db lane)
    (hfound : db.batches.lookup id = some batch) (hkey : batch.key = key) (hfinal : Finalizable db now id batch lane) :
    Covered objects anchor key start (db.withFinalized now id batch lane) (lane.moved now batch.targetHeadSha) := by
  have hcompleted : ∀ id' batch', Completed (db.withFinalized now id batch lane) key id' batch' ↔
      Completed db key id' batch' ∨ (id' = id ∧ batch' = batch.completed now) := fun id' batch' => by
    rw [completed_withFinalized hfound hfinal.claimed]
    simp only [hkey, and_true]
  obtain ⟨-, hlisted, hcovers, hdescends, hbetween, hreached, hapart, hterminal⟩ := h
  obtain ⟨_, -, hrange⟩ := hcovers id batch hfound hkey
  have hbase : baseOf anchor batch.expectedProjectedHeadSha = baseOf anchor lane.projectedHeadSha := by rw [hfinal.base]
  have hforward := hrange.follows
  refine ⟨?_, fun id' path hsome => ?_, fun id' batch' hfound' hkey' => ?_, ?_, ?_, fun c hc => ?_, ?_,
    fun id' batch' path file hbatch' hfile => ?_⟩
  · rw [← hkey]
    exact AList.lookup_insert _
  · have hbefore := hlisted id' path hsome
    simp only [Database.withFinalized, Table.lookup_modify]
    split
    · simpa using hbefore
    · exact hbefore
  · simp only [Database.withFinalized, Table.lookup_modify] at hfound'
    split at hfound'
    · next hid =>
      subst hid
      rw [hfound, Option.map_some] at hfound'
      obtain rfl := Option.some.inj hfound'
      exact hcovers id' batch hfound hkey
    · exact hcovers id' batch' hfound' hkey'
  · exact hdescends.trans (hbase ▸ hforward)
  · intro id' batch' hbatch'
    rcases (hcompleted id' batch').mp hbatch' with hbefore | ⟨-, rfl⟩
    · exact ⟨(hbetween id' batch' hbefore).1, (hbetween id' batch' hbefore).2.trans (hbase ▸ hforward)⟩
    · exact ⟨show Follows objects _ (baseOf anchor batch.expectedProjectedHeadSha) from hbase ▸ hdescends, .refl objects _⟩
  · by_cases hpast : objects.graph.Ancestor c (baseOf anchor lane.projectedHeadSha)
    · obtain ⟨id', batch', hbatch', hin⟩ := hreached c ⟨hpast, hc.2⟩
      exact ⟨id', batch', (hcompleted _ _).mpr (.inl hbatch'), hin⟩
    · refine ⟨id, batch.completed now, (hcompleted _ _).mpr (.inr ⟨rfl, rfl⟩), hc.1, ?_⟩
      exact show ¬ objects.graph.Ancestor c (baseOf anchor batch.expectedProjectedHeadSha) from hbase ▸ hpast
  · intro id₁ id₂ batch₁ batch₂ h₁ h₂ hne
    rcases (hcompleted id₁ batch₁).mp h₁ with hbefore₁ | ⟨rfl, rfl⟩ <;>
      rcases (hcompleted id₂ batch₂).mp h₂ with hbefore₂ | ⟨rfl, rfl⟩
    · exact hapart id₁ id₂ batch₁ batch₂ hbefore₁ hbefore₂ hne
    · exact .inl (show Follows objects _ (baseOf anchor batch.expectedProjectedHeadSha) from hbase ▸ (hbetween _ _ hbefore₁).2)
    · exact .inr (show Follows objects _ (baseOf anchor batch.expectedProjectedHeadSha) from hbase ▸ (hbetween _ _ hbefore₂).2)
    · exact absurd rfl hne
  · rcases (hcompleted id' batch').mp hbatch' with hbefore | ⟨rfl, -⟩
    · exact hterminal id' batch' path file hbefore hfile
    · exact hfinal.resolved path file hfile

/-! ### Any call -/

/-- What the call claims on the lane is a range. -/
def RangeCall (objects : Objects π) (anchor : String) (key : LaneKey) (call : Projection.Call) : Prop :=
  ∀ id token args, call = .claimBatch id token args → ClaimsRange objects anchor key args

omit [FileName π] in
theorem Advances.refl (objects : Objects π) (anchor : String) (lane : LaneRow) : Advances objects anchor lane lane :=
  Follows.refl objects _

/-- A batch of another lane is finalized. -/
theorem Covered.finalizeOther {id : Uuid} {batch : BatchRow} {other : LaneRow} (h : Covered objects anchor key start db lane)
    (hfound : db.batches.lookup id = some batch) (hkey : batch.key ≠ key) :
    Covered objects anchor key start (db.withFinalized now id batch other) lane := by
  refine h.keep ?_ rfl (fun id' hsome => ?_) (fun id' batch' hkey' => ?_) (fun _ => Iff.rfl) fun _ _ _ _ _ h => h
  · rw [Database.withFinalized, AList.lookup_insert_ne (Ne.symm hkey)]
    exact h.onLane
  · simp only [Database.withFinalized, Table.lookup_modify]
    split
    · simpa using hsome
    · exact hsome
  · simp only [Database.withFinalized, Table.lookup_modify]
    split
    · next hid =>
      subst hid
      rw [hfound, Option.map_some]
      constructor
      · rintro ⟨⟩
        exact absurd hkey' hkey
      · rintro ⟨⟩
        exact absurd hkey' hkey
    · exact Iff.rfl

/-- What is claimed is a range: no call undoes what the lane's batches cover, and the cursor goes to
what follows it. -/
theorem Covered.after {call : Projection.Call} (h : Covered objects anchor key start db lane)
    (hrange : RangeCall objects anchor key call) :
    ∃ lane', Covered objects anchor key start (call.after server now db) lane' ∧ Advances objects anchor lane lane' := by
  have heffect := effect_of_call server now call db
  generalize hdb : call.after server now db = db' at heffect
  cases heffect with
  | unchanged => exact ⟨lane, h, .refl objects anchor lane⟩
  | @seeded _ _ _ key' row hnew =>
    have hne : key ≠ key' := by
      rintro rfl
      rw [h.onLane] at hnew
      cases hnew
    refine ⟨lane, h.keep ?_ rfl (fun _ => id) (fun _ _ _ => Iff.rfl) (fun _ => Iff.rfl) fun _ _ _ _ _ => id, .refl objects anchor lane⟩
    rw [AList.lookup_insert_ne hne, h.onLane]
  | @cutSet _ _ _ _ key' row control topology hfound =>
    by_cases hkey : key = key'
    · subst hkey
      obtain rfl := Option.some.inj (h.onLane.symm.trans hfound)
      exact ⟨_, h.keep (AList.lookup_insert _) rfl (fun _ => id) (fun _ _ _ => Iff.rfl) (fun _ => Iff.rfl) fun _ _ _ _ _ => id, Follows.refl objects _⟩
    · refine ⟨lane, h.keep ?_ rfl (fun _ => id) (fun _ _ _ => Iff.rfl) (fun _ => Iff.rfl) fun _ _ _ _ _ => id, .refl objects anchor lane⟩
      rw [AList.lookup_insert_ne hkey, h.onLane]
  | @claimed id token args =>
    rw [Call.after] at hdb
    cases hrun : (transaction ((Call.claimBatch id token args).body server now)).run db with
    | error e last =>
      rw [hrun] at hdb
      obtain ⟨rfl, -⟩ := run_transaction_error.mp hrun
      exact ⟨lane, hdb ▸ h, .refl objects anchor lane⟩
    | ok reply last =>
      rw [hrun] at hdb
      rw [run_transaction_ok] at hrun
      obtain ⟨_, hbody, -⟩ := run_map_ok.mp hrun
      exact ⟨lane, hdb ▸ h.claim (hrange _ _ _ rfl) hbody, .refl objects anchor lane⟩
  | @projected args id path batch file _ hprojects =>
    refine ⟨lane, h.keep ?_ rfl ?_ ?_ ?_ fun id' batch' path' file' hcompleted hfile => ?_, .refl objects anchor lane⟩
    · rw [hprojects.laneState, h.onLane]
    · simp [hprojects.batches]
    · simp [hprojects.batches]
    · intro k
      rw [hprojects.batchFiles]
      by_cases hk : k = (id, path)
      · subst hk
        obtain ⟨before, hbefore, -⟩ := hprojects.pending
        simp [hbefore]
      · rw [AList.lookup_insert_ne hk]
    · have hne : (id', path') ≠ (id, path) := by
        intro heq
        obtain ⟨rfl, -⟩ := Prod.mk.inj heq
        obtain rfl := Option.some.inj (hcompleted.1.symm.trans hprojects.found)
        cases hcompleted.2.2.symm.trans hprojects.claimed
      rwa [hprojects.batchFiles, AList.lookup_insert_ne hne] at hfile
  | @finalized _ id batch row hfinds hfinal =>
    by_cases hkey : batch.key = key
    · obtain rfl := Option.some.inj (h.onLane.symm.trans (hkey ▸ hfinds.onLane))
      refine ⟨_, h.finalize hfinds.found hkey hfinal, ?_⟩
      obtain ⟨_, -, hcovers⟩ := h.covers id batch hfinds.found hkey
      exact show Follows objects (baseOf anchor lane.projectedHeadSha) batch.targetHeadSha.text from hfinal.base ▸ hcovers.follows
    · exact ⟨lane, h.finalizeOther hfinds.found hkey, .refl objects anchor lane⟩

/-! ### The client's calls -/

/-- What a call of the client claims on the lane is a range. -/
def RangeClaim (engine : Engine) (objects : Objects π) (anchor : String) (key : LaneKey) (call : ClientCall) : Prop :=
  ∀ request args, call = .claimBatch request → claimArgs engine request = .ok args → ClaimsRange objects anchor key args

theorem Returns.after {call : Projection.Call} {reply : Projection.Reply} (h : Returns server call db reply db') :
    ∃ now, db' = call.after server now db := by
  obtain ⟨now, hrun⟩ := h
  exact ⟨now, by rw [Call.after, hrun]⟩

/-- Files are projected, one after another. -/
theorem Covered.play {events : List Event} (h : Covered objects anchor key start db lane)
    (hfiles : ∀ event ∈ events, ∃ args, event.call = .projectFile args) (clock : ℤ) :
    ∃ lane', Covered objects anchor key start (World.play server ⟨db, clock⟩ events).db lane' ∧
      Advances objects anchor lane lane' := by
  induction events generalizing db lane clock with
  | nil => exact ⟨lane, h, .refl objects anchor lane⟩
  | cons event events ih =>
    obtain ⟨args, hcall⟩ := hfiles event List.mem_cons_self
    have hrange : RangeCall objects anchor key event.call := fun _ _ _ hclaim => nomatch hcall.symm.trans hclaim
    obtain ⟨mid, hmid, hfirst⟩ : ∃ mid, Covered objects anchor key start (event.call.after server event.now db) mid ∧
        Advances objects anchor lane mid := h.after hrange
    obtain ⟨lane', hlane', hrest⟩ := ih hmid (fun e he => hfiles e (List.mem_cons_of_mem _ he)) event.now
    exact ⟨lane', hlane', hfirst.trans hrest⟩

/-- What answers a call of the client undoes nothing that the lane's batches cover. -/
theorem Covered.provides {engine : Engine} {call : ClientCall} {reply : Except RadarError call.Reply}
    (h : Covered objects anchor key start db lane) (hrange : RangeClaim engine objects anchor key call)
    (hreply : Provides engine server call db reply db') :
    ∃ lane', Covered objects anchor key start db' lane' ∧ Advances objects anchor lane lane' := by
  induction hreply with
  | getLane => exact ⟨lane, h, .refl objects anchor lane⟩
  | setControlCut hcall hreturns =>
    obtain ⟨now, rfl⟩ := hreturns.after
    refine h.after fun _ _ _ hclaim => ?_
    subst hclaim
    simp only [controlCutCall, except_bind_ok, except_pure_ok] at hcall
    obtain ⟨_, -, _, -, _, -, hcall⟩ := hcall
    cases hcall
  | claimBatch hargs hreturns =>
    obtain ⟨now, rfl⟩ := hreturns.after
    refine h.after fun _ _ _ hclaim => ?_
    cases hclaim
    exact hrange _ _ rfl hargs
  | projectBatch hprojects =>
    exact h.play (fun event hmem => (hprojects event hmem).imp fun _ hargs => hargs.1) 0
  | finalizeBatch hreturns =>
    obtain ⟨now, rfl⟩ := hreturns.after
    refine h.after fun _ _ _ hclaim => ?_
    cases hclaim
  | refused => exact ⟨lane, h, .refl objects anchor lane⟩
  | lost _ ih => exact ih h hrange

end

/-! ### The claims of a run -/

section

variable {runtime : Runtime} {topology : Topology} {cutover : Option Json} {objects : Objects π} {engine : Engine}
  {identity branch observed anchor : String} {projected : Option String} {key : LaneKey} {target : ReconcileTarget}

/-- A target that is forward goes from the cursor, or the anchor, to the head. -/
theorem targetOf_forward {git : GitRepository} (h : targetOf git identity branch observed anchor projected = .ok target)
    (hforward : target.disposition = .forward) : target.identity = identity ∧ target.branch = branch ∧
      target.projectedHead = projected ∧ target.baseHead = projected.getD anchor ∧ target.observedHead = observed := by
  unfold targetOf at h
  obtain ⟨anchored, -, h⟩ := except_bind_ok.mp h
  split at h
  · cases h
    cases hforward
  cases projected with
  | none =>
    obtain ⟨commits, -, h⟩ := except_bind_ok.mp h
    cases h
    exact ⟨rfl, rfl, rfl, rfl, rfl⟩
  | some cursor =>
    dsimp only at h
    split at h
    · cases h
      cases hforward
    obtain ⟨_, -, h⟩ := except_bind_ok.mp h
    split at h
    · cases h
      cases hforward
    obtain ⟨_, -, h⟩ := except_bind_ok.mp h
    split at h
    · obtain ⟨commits, -, h⟩ := except_bind_ok.mp h
      cases h
      exact ⟨rfl, rfl, rfl, rfl, rfl⟩
    obtain ⟨_, -, h⟩ := except_bind_ok.mp h
    split at h <;> cases h <;> cases hforward

theorem deriveTarget_ok {git : GitRepository} {journal : CursorJournal} {lane : WriterLane}
    (hlane : topology.active.lookup identity = some lane)
    (h : deriveTarget git topology cutover journal identity = .ok target) :
    ∃ observed anchor, git.branchHead lane.branch = .ok observed ∧ activationAnchor cutover identity lane.branch = .ok anchor ∧
      targetOf git identity lane.branch observed anchor (journal identity lane.branch) = .ok target := by
  unfold deriveTarget at h
  obtain ⟨_, -, h⟩ := except_bind_ok.mp h
  rw [hlane] at h
  simp only [except_bind_ok] at h
  obtain ⟨observed, hobserved, anchor, hanchor, h⟩ := h
  exact ⟨observed, anchor, hobserved, hanchor, h⟩

/-- A cursor is a full name. -/
theorem providerCursor_ok {row : Option (Option String)} {cursor : Option String} (h : providerCursor row = .ok cursor) :
    ∀ c ∈ cursor, isHex 40 c = true := by
  unfold providerCursor at h
  split at h
  · cases h
  · cases h
    nofun
  · split at h
    · next hhex =>
      cases h
      rintro c ⟨⟩
      exact hhex
    · cases h

/-- The journal is asked for what the client asks for. -/
theorem claimArgs_ok {request : ClaimRequest} {args : ClaimArgs} (h : claimArgs engine request = .ok args)
    (hexpected : ∀ c ∈ request.expectedProjectedHead, isHex 40 c = true) (htarget : isHex 40 request.targetHead = true) :
    ∃ key, journalKey engine request.identity request.branch = .ok key ∧ args.identityId = some key.1 ∧
      args.branch = some key.2 ∧ args.expectedProjectedHeadSha = request.expectedProjectedHead ∧
      args.targetHeadSha = some request.targetHead ∧ (args.files.getD []).reduceOption = request.files := by
  simp only [claimArgs, except_bind_ok, except_pure_ok] at h
  obtain ⟨key, hkey, expected, hexpected', target, htarget', _, -, _, -, _, -, _, -, _, -, rfl⟩ := h
  refine ⟨key, hkey, rfl, rfl, ?_, ?_, ?_⟩
  · cases hrequest : request.expectedProjectedHead with
    | none =>
      rw [hrequest] at hexpected'
      exact (Except.ok.inj hexpected').symm
    | some head =>
      rw [hrequest, nullableSha40, requireSha40_hex engine (hexpected head hrequest)] at hexpected'
      exact (Except.ok.inj hexpected').symm
  · rw [requireSha40_hex engine htarget] at htarget'
    exact congrArg some (Except.ok.inj htarget').symm
  · exact (List.filterMap_map ..).trans List.filterMap_some

/-- An active lane with its key in the journal, which no other active lane has, and its anchor. -/
structure KeyedLane (engine : Engine) (topology : Topology) (cutover : Option Json) (identity anchor : String) (key : LaneKey) :
    Prop where
  active : ∃ lane, topology.active.lookup identity = some lane ∧ journalKey engine identity lane.branch = .ok key ∧
    activationAnchor cutover identity lane.branch = .ok anchor
  alone : ∀ other lane, topology.active.lookup other = some lane → journalKey engine other lane.branch = .ok key →
    other = identity

/-- The claim of a range that a clone has validated. -/
theorem rangeClaim_of_covers {clone : Clone π} {lane : WriterLane} {request : ClaimRequest} {anchor' : String}
    (hkeyed : KeyedLane engine topology cutover identity anchor key) (hclone : clone.objects.Extends objects)
    (hlane : topology.active.lookup request.identity = some lane) (hbranch : request.branch = lane.branch)
    (hanchor : activationAnchor cutover request.identity lane.branch = .ok anchor')
    (hexpected : ∀ c ∈ request.expectedProjectedHead, isHex 40 c = true)
    (hcovers : Covers clone.objects (request.expectedProjectedHead.getD anchor') request.targetHead request.files) :
    RangeClaim engine objects anchor key (.claimBatch request) := by
  rintro _ args ⟨⟩ hargs hidentity hargsBranch
  obtain ⟨key', hkey', hidentity', hbranch', hexpected', htarget, hfiles⟩ :=
    claimArgs_ok hargs hexpected (clone.objects.isHex_name hcovers.known)
  have hsame : key' = key := Prod.ext (Option.some.inj (hidentity'.symm.trans hidentity))
    (Option.some.inj (hbranch'.symm.trans hargsBranch))
  rw [hsame, hbranch] at hkey'
  have hthis := hkeyed.alone _ lane hlane hkey'
  obtain ⟨lane', hlane', -, hanchor'⟩ := hkeyed.active
  rw [hthis] at hlane hanchor
  rw [Option.some.inj (hlane.symm.trans hlane'), hanchor'] at hanchor
  refine ⟨_, htarget, ?_⟩
  rw [hexpected', hfiles, Except.ok.inj hanchor]
  exact hcovers.extends hclone

/-- A call that is not a claim. -/
theorem rangeClaim_of_ne {call : ClientCall} (h : ∀ request, call ≠ .claimBatch request) :
    RangeClaim engine objects anchor key call := fun request _ hcall => absurd hcall (h request)

/-- The chunks of a claim. -/
theorem projectChunks_claims {request : List ProjectionFile → ProjectRequest} (projected : ℕ) (chunks : List (List ProjectionFile)) :
    (projectChunks runtime request projected chunks).Only (RangeClaim engine objects anchor key) := by
  induction chunks generalizing projected with
  | nil => trivial
  | cons chunk chunks ih => exact .bind (.ask (rangeClaim_of_ne nofun)) fun _ => .refuseIf_bind fun _ => ih _

theorem projectForward_claims {args : ProjectArgs π} {lane : WriterLane} {anchor' controlSha topologySha : String}
    (hkeyed : KeyedLane engine topology cutover identity anchor key) (hclone : args.clone.objects.Extends objects)
    (hlane : topology.active.lookup target.identity = some lane) (hbranch : target.branch = lane.branch)
    (hanchor : activationAnchor cutover target.identity lane.branch = .ok anchor')
    (hexpected : ∀ c ∈ target.projectedHead, isHex 40 c = true) (hbase : target.baseHead = target.projectedHead.getD anchor')
    (hknown : args.clone.objects.graph.Known target.observedHead) :
    (projectForward runtime topology cutover args controlSha topologySha target).Only (RangeClaim engine objects anchor key) := by
  refine .lift_bind fun commits hcommits => .refuseIf_bind fun _ => .lift_bind fun files hfiles => .bind (.ask (rangeClaim_of_ne nofun)) fun _ =>
    .bind (.ask ?_) fun claim => .lift_bind fun chunks _ => .bind (projectChunks_claims 0 chunks) fun projected =>
      .bind (.ask (rangeClaim_of_ne nofun)) fun head => .refuseIf_bind fun _ => trivial
  refine rangeClaim_of_covers hkeyed hclone hlane hbranch hanchor hexpected ?_
  exact hbase ▸ covers_of_validated hknown hcommits hfiles

theorem projectLane_claims {args : ProjectArgs π} {hint : Option String} {controlSha topologySha requested : String}
    (hkeyed : KeyedLane engine topology cutover identity anchor key) (hclone : args.clone.objects.Extends objects) :
    (projectLane runtime topology cutover args hint controlSha topologySha requested).Only
      (RangeClaim engine objects anchor key) := by
  unfold projectLane
  cases hlane : topology.active.lookup requested with
  | none => trivial
  | some lane =>
    refine .bind (.ask (rangeClaim_of_ne nofun)) fun row => .lift_bind fun cursor hcursor => .lift_bind fun target htarget => ?_
    obtain ⟨observed, anchor', hobserved, hanchor, htarget⟩ := deriveTarget_ok hlane htarget
    cases hdisposition : target.disposition with
    | noop => trivial
    | staleEvent => trivial
    | divergedHistory => trivial
    | forward =>
      obtain ⟨hidentity, hbranch, hprojected, hbase, hhead⟩ := targetOf_forward htarget hdisposition
      have hknown : args.clone.objects.graph.Known observed := by
        change args.clone.checkout.branchHead lane.branch = _ at hobserved
        unfold Checkout.branchHead at hobserved
        split at hobserved
        · cases hobserved
        · next hhead' =>
          cases hobserved
          exact args.clone.branches_known hhead'
      rw [← hidentity] at hlane hanchor
      refine .bind (projectForward_claims hkeyed hclone hlane hbranch hanchor ?_ ?_ ?_) fun _ => trivial
      · exact hprojected ▸ providerCursor_ok hcursor
      · rw [hbase, hprojected]
      · exact hhead ▸ hknown

/-- **What a run of `project_requested_lanes` claims on a lane is a range, from the lane's cursor or
its anchor, with the files that the range adds.** -/
theorem projectRequestedLanes_claims {args : ProjectArgs π} (hkeyed : KeyedLane engine topology cutover identity anchor key)
    (hclone : args.clone.objects.Extends objects) :
    (projectRequestedLanes runtime topology cutover args).Only (RangeClaim engine objects anchor key) := by
  refine .lift_bind fun (identities, hint) hrequested => .lift_bind fun controlSha _ => .lift_bind fun topologySha _ =>
    .refuseIf_bind fun _ => ?_
  clear hrequested
  induction identities with
  | nil => trivial
  | cons requested identities ih => exact .bind (projectLane_claims hkeyed hclone) fun report => .bind ih fun _ => trivial

end

/-! ### Any runs -/

/-- What a run is given, over a clone of the repository. -/
structure CloneArgs (objects : Objects π) where
  args : ProjectArgs π
  clone : args.clone.objects.Extends objects

/-- A call of the journal at any time, which claims nothing on the lane. -/
def Elsewhere (server : Server Other) (key : LaneKey) (db db' : Database Other) : Prop :=
  ∃ (now : ℤ) (call : Projection.Call), db' = call.after server now db ∧
    ∀ id token args, call = .claimBatch id token args → ¬ (args.identityId = some key.1 ∧ args.branch = some key.2)

/-- The lane is seeded, at or after the anchor, and has no batch. -/
structure Seeded (objects : Objects π) (anchor : String) (key : LaneKey) (start : Option Sha) (db : Database Other) : Prop where
  onLane : ∃ lane, db.laneState.lookup key = some lane ∧ lane.projectedHeadSha = start
  descends : objects.graph.Ancestor anchor (baseOf anchor start)
  noBatch : ∀ id batch, db.batches.lookup id = some batch → batch.key ≠ key
  listed : ∀ id path, (db.batchFiles.lookup (id, path)).isSome → (db.batches.lookup id).isSome

/-- A file of a batch of the lane that is complete. -/
def CompletedFile (db : Database Other) (key : LaneKey) (path : String) (id : Uuid) : Prop :=
  ∃ batch, Completed db key id batch ∧ (db.batchFiles.lookup (id, path)).isSome

/-- The files of the lane's complete batches are those that the commits up to its cursor add, each in
one of the batches, and projected. -/
structure CursorCovers (objects : Objects π) (anchor : String) (key : LaneKey) (start : Option Sha) (db : Database Other)
    (lane : LaneRow) : Prop where
  onLane : db.laneState.lookup key = some lane
  anchored : objects.graph.Ancestor anchor (baseOf anchor lane.projectedHeadSha)
  descends : objects.graph.Ancestor (baseOf anchor start) (baseOf anchor lane.projectedHeadSha)
  named : ∀ c (name : π), objects.graph.InRange (baseOf anchor start) (baseOf anchor lane.projectedHeadSha) c →
    Adds objects c name → ∃ path, name = FileName.ofText path
  files : ∀ path, (∃ id, CompletedFile db key path id) ↔
    ∃ c, objects.graph.InRange (baseOf anchor start) (baseOf anchor lane.projectedHeadSha) c ∧
      Adds objects c (FileName.ofText path : π)
  once : ∀ path id id', CompletedFile db key path id → CompletedFile db key path id' → id = id'
  terminal : ∀ path id file, CompletedFile db key path id → db.batchFiles.lookup (id, path) = some file → file.state.Terminal

section

variable {objects : Objects π} {anchor : String} {key : LaneKey} {start : Option Sha} {db db' : Database Other} {lane : LaneRow}
  {server : Server Other} {engine : Engine}

/-- A lane without a batch. -/
theorem Seeded.covered (h : Seeded objects anchor key start db) : ∃ lane, Covered objects anchor key start db lane := by
  obtain ⟨lane, hlane, rfl⟩ := h.onLane
  have hnone : ∀ id batch, ¬ Completed db key id batch := fun id batch hcompleted => h.noBatch id batch hcompleted.1 hcompleted.2.1
  exact ⟨lane, hlane, h.listed, fun id batch hfound hkey => absurd hkey (h.noBatch id batch hfound), .refl objects _,
    fun id batch hcompleted => absurd hcompleted (hnone id batch), fun c hc => absurd hc.1 hc.2,
    fun id _ batch _ hcompleted => absurd hcompleted (hnone id batch),
    fun id batch _ _ hcompleted => absurd hcompleted (hnone id batch)⟩

/-- What the lane's batches cover. -/
theorem Covered.cursorCovers (h : Covered objects anchor key start db lane)
    (hstart : objects.graph.Ancestor anchor (baseOf anchor start)) : CursorCovers objects anchor key start db lane := by
  have hrange : ∀ {id batch c}, Completed db key id batch →
      objects.graph.InRange (baseOf anchor batch.expectedProjectedHeadSha) batch.targetHeadSha.text c →
      objects.graph.InRange (baseOf anchor start) (baseOf anchor lane.projectedHeadSha) c := by
    intro id batch c hbatch hc
    obtain ⟨hbefore, hafter⟩ := h.between id batch hbatch
    exact ⟨hc.1.trans hafter.ancestor, fun hc' => hc.2 (hc'.trans hbefore.ancestor)⟩
  refine ⟨h.onLane, hstart.trans h.descends.ancestor, h.descends.ancestor, fun c name hc hadds => ?_, fun path => ⟨?_, ?_⟩,
    fun path id id' hfile hfile' => ?_, fun path id file ⟨batch, hbatch, _⟩ => h.terminal id batch path file hbatch⟩
  · obtain ⟨id, batch, hbatch, hin⟩ := h.reached c hc
    obtain ⟨_, -, hcovers⟩ := h.covers id batch hbatch.1 hbatch.2.1
    exact hcovers.named c name hin hadds
  · rintro ⟨id, batch, hbatch, hfile⟩
    obtain ⟨paths, hpaths, hcovers⟩ := h.covers id batch hbatch.1 hbatch.2.1
    obtain ⟨c, hc, hadds⟩ := (hcovers.files path).mp ((hpaths path).mp hfile)
    exact ⟨c, hrange hbatch hc, hadds⟩
  · rintro ⟨c, hc, hadds⟩
    obtain ⟨id, batch, hbatch, hin⟩ := h.reached c hc
    obtain ⟨paths, hpaths, hcovers⟩ := h.covers id batch hbatch.1 hbatch.2.1
    exact ⟨id, batch, hbatch, (hpaths path).mpr ((hcovers.files path).mpr ⟨c, hin, hadds⟩)⟩
  · obtain ⟨batch, hbatch, hin⟩ := hfile
    obtain ⟨batch', hbatch', hin'⟩ := hfile'
    by_contra hne
    obtain ⟨paths, hpaths, hcovers⟩ := h.covers id batch hbatch.1 hbatch.2.1
    obtain ⟨paths', hpaths', hcovers'⟩ := h.covers id' batch' hbatch'.1 hbatch'.2.1
    rcases h.apart id id' batch batch' hbatch hbatch' hne with hfollows | hfollows
    · exact hcovers.disjoint hcovers' hfollows ((hpaths path).mp hin) ((hpaths' path).mp hin')
    · exact hcovers'.disjoint hcovers hfollows ((hpaths' path).mp hin') ((hpaths path).mp hin)

/-- What the lane's batches cover, they cover, and the cursor goes to what follows it. -/
def Keeps (objects : Objects π) (anchor : String) (key : LaneKey) (start : Option Sha) (db db' : Database Other) : Prop :=
  ∀ lane, Covered objects anchor key start db lane →
    ∃ lane', Covered objects anchor key start db' lane' ∧ Advances objects anchor lane lane'

theorem Keeps.refl (objects : Objects π) (anchor : String) (key : LaneKey) (start : Option Sha) (db : Database Other) :
    Keeps objects anchor key start db db := fun lane h => ⟨lane, h, .refl objects anchor lane⟩

theorem Keeps.trans {mid : Database Other} (h : Keeps objects anchor key start db mid) (h' : Keeps objects anchor key start mid db') :
    Keeps objects anchor key start db db' := by
  intro lane hlane
  obtain ⟨lane₁, hlane₁, hfirst⟩ := h lane hlane
  obtain ⟨lane₂, hlane₂, hsecond⟩ := h' lane₁ hlane₁
  exact ⟨lane₂, hlane₂, Follows.trans hfirst hsecond⟩

theorem Elsewhere.keeps (h : Elsewhere server key db db') : Keeps objects anchor key start db db' := by
  obtain ⟨now, call, rfl, hnot⟩ := h
  intro lane hlane
  exact hlane.after fun id token args hcall hidentity hbranch => absurd ⟨hidentity, hbranch⟩ (hnot id token args hcall)

end

section

variable {ι : Type} [DecidableEq ι]

/-- **Cursor coverage.** However runs of `project_requested_lanes` over clones of one repository are
interleaved and dropped, the files of the lane's complete batches are those that the commits
between the lane's first cursor and its cursor add, each in one batch and projected; and no step
moves the cursor but to a descendant. -/
theorem cursor_coverage (engine : Engine) (server : Server Other) (runtime : Runtime) (topology : Topology) (cutover : Option Json)
    (objects : Objects π) (identity anchor : String) (key : LaneKey) (start : Option Sha)
    (hkeyed : KeyedLane engine topology cutover identity anchor key)
    (p p' : Pool Client RadarError (List LaneReport) (Database Other) ι (CloneArgs objects))
    (hidle : ∀ i, ∃ result, p.program i = .done result) (hseeded : Seeded objects anchor key start p.state)
    (es : List (PoolEvent ι (CloneArgs objects)))
    (hrun : Run (PoolStep (Provides engine server) (Elsewhere server key)
      fun d => projectRequestedLanes runtime topology cutover d.args) p es p') :
    ∃ lane, CursorCovers objects anchor key start p'.state lane ∧
      ∀ e p'', PoolStep (Provides engine server) (Elsewhere server key)
        (fun d => projectRequestedLanes runtime topology cutover d.args) p' e p'' →
        ∃ lane', p''.state.laneState.lookup key = some lane' ∧
          objects.graph.Ancestor (baseOf anchor lane.projectedHeadSha) (baseOf anchor lane'.projectedHeadSha) := by
  have hbody : ∀ (d : CloneArgs objects) (s : Database Other), Secure (Provides engine server) (Keeps objects anchor key start)
      (Keeps objects anchor key start) (projectRequestedLanes runtime topology cutover d.args) (fun _ _ => True) s := by
    intro d s
    refine (Secures.only (P := fun _ => True) (projectRequestedLanes_claims hkeyed d.clone) ?_ s trivial).mono fun _ _ _ => trivial
    exact fun op s reply s' hop hreply lane hlane => hlane.provides hop hreply
  have hrefl : ∀ s : Database Other, Keeps objects anchor key start s s := .refl objects anchor key start
  have hbegin : p.Secured (Provides engine server) (Keeps objects anchor key start) fun _ => Keeps objects anchor key start :=
    secured_of_done hidle
  obtain ⟨hsecured, hkeeps⟩ := pool_run hrefl (fun _ _ _ => Keeps.trans) (fun _ _ _ => id) (fun _ _ => Elsewhere.keeps) hbody
    hbegin hrun
  obtain ⟨first, hfirst⟩ := hseeded.covered
  obtain ⟨lane, hlane, -⟩ := hkeeps first hfirst
  refine ⟨lane, hlane.cursorCovers hseeded.descends, fun e p'' hstep => ?_⟩
  have hnext : Keeps objects anchor key start p'.state p''.state := by
    cases e with
    | start i d =>
      cases hstep
      exact hrefl _
    | call i => exact hstep.guarantee hrefl hsecured
    | other =>
      cases hstep with
      | other helse => exact helse.keeps
  obtain ⟨lane', hlane', hadvances⟩ := hnext lane hlane
  exact ⟨lane', hlane'.onLane, hadvances.ancestor⟩

end

/-! ### A lane that is projected -/

/-- The journal's call is made, if there is one, and what it returns is answered. -/
def sampleReturns {α : Type} (call : Except Edge.HttpError Projection.Call) (answer : Projection.Reply → Option α)
    (db : Database Unit) : Except RadarError α × Database Unit :=
  match call with
  | .error _ => (.error (.code "refused"), db)
  | .ok call =>
    match (transaction (call.body sampleServer 0)).run db with
    | .error _ _ => (.error (.code "refused"), db)
    | .ok reply db' =>
      match answer reply with
      | none => (.error (.code "refused"), db)
      | some a => (.ok a, db')

/-- The call that projects a file. -/
def sampleProjection (request : ProjectRequest) (file : ProjectionFile) : Event where
  call := .projectFile
    { batchId := some request.batchId, claimToken := some request.claimToken, path := some file.path
      message := ⟨some "alpha-1", some (0 : ℤ), some request.identity, none, none, none,
        some (String.ofList (List.replicate 64 'e')), some file.path,
        some (.object [("admitted_lane_identity", .string request.identity), ("source_path", .string file.path),
          ("source_branch_head", .string request.branchHead)])⟩ }
  now := 0

/-- A provider that answers every call. -/
def sampleAnswer : (call : ClientCall) → Database Unit → Except RadarError call.Reply × Database Unit
  | .getLane identity branch, db =>
    match journalKey Edge.sampleEngine identity branch with
    | .error _ => (.error (.code "refused"), db)
    | .ok key => (.ok ((db.laneState.lookup key).map fun row => row.projectedHeadSha.map (·.text)), db)
  | .setControlCut identity branch controlSha topologySha, db =>
    sampleReturns (controlCutCall Edge.sampleEngine identity branch controlSha topologySha) (fun _ => some ()) db
  | .claimBatch request, db =>
    sampleReturns ((claimArgs Edge.sampleEngine request).map (.claimBatch 1 2))
      (fun reply => match reply with
        | .batch (id, batch) => some (id, batch.claimToken)
        | _ => none) db
  | .projectBatch request, db =>
    (.ok (request.files.map fun _ => some "INSERTED"),
      (World.play sampleServer ⟨db, 0⟩ (request.files.map (sampleProjection request))).db)
  | .finalizeBatch batchId claimToken, db =>
    sampleReturns (.ok (.finalizeBatch (some batchId) (some claimToken)))
      (fun reply => match reply with
        | .lane lane => some (lane.2.projectedHeadSha.map (·.text))
        | _ => none) db

theorem sampleReturns_ok {α : Type} {call : Except Edge.HttpError Projection.Call} {answer : Projection.Reply → Option α}
    {db : Database Unit} : (∃ e, sampleReturns call answer db = (.error e, db)) ∨ ∃ c reply a db', call = .ok c ∧
      Returns sampleServer c db reply db' ∧ answer reply = some a ∧ sampleReturns call answer db = (.ok a, db') := by
  unfold sampleReturns
  split
  · exact .inl ⟨_, rfl⟩
  · split
    · exact .inl ⟨_, rfl⟩
    · next hrun =>
      split
      · exact .inl ⟨_, rfl⟩
      · next hanswer => exact .inr ⟨_, _, _, _, rfl, ⟨0, hrun⟩, hanswer, rfl⟩

theorem sampleAnswer_provides (call : ClientCall) (db : Database Unit) :
    Provides Edge.sampleEngine sampleServer call db (sampleAnswer call db).1 (sampleAnswer call db).2 := by
  cases call with
  | getLane identity branch =>
    simp only [sampleAnswer]
    split
    · exact .refused
    · next hkey => exact .getLane hkey
  | setControlCut identity branch controlSha topologySha =>
    simp only [sampleAnswer]
    rcases sampleReturns_ok with ⟨e, heq⟩ | ⟨c, reply, a, db', hcall, hreturns, -, heq⟩
    · exact heq ▸ .refused
    · exact heq ▸ .setControlCut hcall hreturns
  | claimBatch request =>
    simp only [sampleAnswer]
    rcases sampleReturns_ok with ⟨e, heq⟩ | ⟨c, reply, a, db', hcall, hreturns, hanswer, heq⟩
    · exact heq ▸ .refused
    · rw [heq]
      cases hargs : claimArgs Edge.sampleEngine request with
      | error e =>
        rw [hargs] at hcall
        cases hcall
      | ok args =>
        rw [hargs] at hcall
        cases hcall
        split at hanswer
        · cases hanswer
          exact .claimBatch hargs hreturns
        · cases hanswer
  | projectBatch request =>
    refine .projectBatch fun event hevent => ?_
    obtain ⟨file, hfile, rfl⟩ := List.mem_map.mp hevent
    exact ⟨_, rfl, rfl, rfl, file, hfile, rfl⟩
  | finalizeBatch batchId claimToken =>
    simp only [sampleAnswer]
    rcases sampleReturns_ok with ⟨e, heq⟩ | ⟨c, reply, a, db', hcall, hreturns, hanswer, heq⟩
    · exact heq ▸ .refused
    · rw [heq]
      cases hcall
      split at hanswer
      · cases hanswer
        exact .finalizeBatch hreturns
      · cases hanswer

theorem known_secondCommit : plainObjects.graph.Known secondCommit := by
  change (plainObjects.graph.parents secondCommit).isSome = true
  decide +kernel

/-- A clone with the branch at its second commit. -/
def sampleClone : Clone String where
  objects := plainObjects
  branches branch := if branch = "bus/alpha-v1" then some secondCommit else none
  branches_known := by
    intro branch c h
    split at h
    · cases h
      exact known_secondCommit
    · cases h

/-- A scheduled run. -/
def sampleArgs : ProjectArgs String :=
  ⟨sampleClone, .string "owner/repo", "schedule", [], "owner/repo", some (String.ofList (List.replicate 40 'c')),
    some (String.ofList (List.replicate 40 'd')), "worker"⟩

/-- The lane's branch, with its anchor at the first commit. -/
def sampleCutover : Option Json := some (.object [
  ("current_writer_lanes", .object [("alpha", .string "bus/alpha-v1")]),
  ("planned_current_writer_lanes", .object [("alpha", .string "bus/alpha-v1")]),
  ("verified_successor_heads", .object [("alpha", .string firstCommit)])])

/-- The lane is seeded without a cursor. -/
def sampleSeeded : Database Unit :=
  { Database.empty with laneState := AList.insert ("alpha", "bus/alpha-v1") ⟨none, none, none, (0 : ℤ)⟩ ∅ }

def sampleRun : List (Answer Client RadarError) × Except RadarError (List LaneReport) × Database Unit :=
  (projectRequestedLanes sampleRuntime sampleTopology sampleCutover sampleArgs).play sampleAnswer sampleSeeded

theorem sample_keyed :
    KeyedLane Edge.sampleEngine sampleTopology sampleCutover "alpha" firstCommit ("alpha", "bus/alpha-v1") where
  active := ⟨⟨"alpha", "alpha", "bus/alpha-v1", .active⟩, rfl, by decide +kernel, by decide +kernel⟩
  alone := by
    intro other lane hlane _
    by_contra hne
    have hnone : sampleTopology.active.lookup other = none := by
      change List.lookup other [("alpha", _)] = none
      rw [List.lookup_cons, beq_false_of_ne hne]
      rfl
    rw [hnone] at hlane
    cases hlane

theorem sample_seeded : Seeded plainObjects firstCommit ("alpha", "bus/alpha-v1") none sampleSeeded where
  onLane := ⟨_, AList.lookup_insert _, rfl⟩
  descends := .refl _
  noBatch _ _ h := nomatch h
  listed _ _ h := nomatch h

/-- A worker that has not started. -/
def sampleIdle : Pool Client RadarError (List LaneReport) (Database Unit) Unit (CloneArgs plainObjects) :=
  ⟨sampleSeeded, fun _ => ⟨sampleArgs, .refl _⟩, fun _ => .done (.error (.code "idle"))⟩

theorem sample_runs : Runs (Provides Edge.sampleEngine sampleServer)
    (projectRequestedLanes sampleRuntime sampleTopology sampleCutover sampleArgs) sampleSeeded sampleRun.1 sampleRun.2.1
    sampleRun.2.2 := by
  have hplay := runs_play (J := fun _ => True) (fun op s _ => ⟨sampleAnswer_provides op s, trivial⟩)
    (projectRequestedLanes sampleRuntime sampleTopology sampleCutover sampleArgs) sampleSeeded trivial
  unfold sampleRun
  exact hplay

theorem sample_pool : ∃ es p', Run (PoolStep (Provides Edge.sampleEngine sampleServer)
    (Elsewhere sampleServer ("alpha", "bus/alpha-v1")) fun (d : CloneArgs plainObjects) =>
      projectRequestedLanes sampleRuntime sampleTopology sampleCutover d.args) sampleIdle es p' ∧ p'.state = sampleRun.2.2 ∧
    p'.data () = ⟨sampleArgs, .refl _⟩ ∧ p'.program () = .done sampleRun.2.1 :=
  sample_runs.start (p := sampleIdle) (d := ⟨sampleArgs, .refl _⟩) ()

theorem sample_outcome :
    (sampleRun.2.2.laneState.lookup ("alpha", "bus/alpha-v1")).map (fun row => row.projectedHeadSha.map Hex.text) =
        some (some secondCommit) ∧
      (sampleRun.2.2.batches.lookup 1).any
        (fun batch => decide (batch.key = ("alpha", "bus/alpha-v1") ∧ batch.status = .complete)) = true ∧
      (sampleRun.2.2.batchFiles.lookup (1, "messages/1.md")).isSome = true := by
  decide +kernel

theorem cursor_coverage_plain : ∃ lane, CursorCovers plainObjects firstCommit ("alpha", "bus/alpha-v1") none sampleRun.2.2 lane ∧
    lane.projectedHeadSha.map Hex.text = some secondCommit ∧
    CompletedFile sampleRun.2.2 ("alpha", "bus/alpha-v1") "messages/1.md" 1 := by
  obtain ⟨es, p', hrun, hstate, -⟩ := sample_pool
  obtain ⟨lane, hlane, -⟩ := cursor_coverage Edge.sampleEngine sampleServer sampleRuntime sampleTopology sampleCutover plainObjects
    "alpha" firstCommit ("alpha", "bus/alpha-v1") none sample_keyed sampleIdle p' (fun _ => ⟨_, rfl⟩) sample_seeded es hrun
  rw [hstate] at hlane
  obtain ⟨hcursor, hbatch, hfile⟩ := sample_outcome
  refine ⟨lane, hlane, ?_, ?_⟩
  · rw [hlane.onLane] at hcursor
    exact Option.some.inj hcursor
  · obtain ⟨batch, hfound, hcomplete⟩ := (Option.any_eq_true _ _).mp hbatch
    exact ⟨batch, ⟨hfound, of_decide_eq_true hcomplete⟩, hfile⟩

end CcbCore.Reconcile
