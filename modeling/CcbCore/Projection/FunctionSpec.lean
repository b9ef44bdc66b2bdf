import CcbCore.Projection.Functions

/-!
# When the projection journal's functions return

One lemma for each function: what holds of the tables and the arguments when it
returns, with the tables it leaves. Together they say all that a call which does
not raise can do.
-/

namespace CcbCore.Projection

open CcbCore.Postgres CcbCore.Raising CcbCore.Sql

variable {Other : Type} {server : Server Other} {now : ℤ} {db db' : Database Other}

/-! ### Locks and guards -/

section Guards

variable {α : Type} {a : α}

theorem laneKeyOf_bind {batchId : Option Uuid} {f : LaneKey → Plpgsql Other α} :
    (laneKeyOf batchId >>= f).run db = .ok a db' ↔
      ∃ key, (∃ batch, db.batch? batchId = some batch ∧ batch.key = key) ∧ (f key).run db = .ok a db' :=
  run_check_bind fun _ _ => by simp [laneKeyOf, Option.map_eq_some_iff]

theorem lockLane_bind {key : LaneKey} {f : LaneRow → Plpgsql Other α} :
    (lockLane key >>= f).run db = .ok a db' ↔
      ∃ lane, db.laneState.lookup key = some lane ∧ (f lane).run db = .ok a db' :=
  run_check_bind fun _ _ => by simp [lockLane]

/-- The guard lets a NULL token through. -/
theorem lockBatch_bind {batchId claimToken : Option Uuid} {key : LaneKey} {f : BatchRow → Plpgsql Other α} :
    (lockBatch batchId claimToken key >>= f).run db = .ok a db' ↔
      ∃ batch, (db.batch? batchId = some batch ∧ batch.key = key ∧
        (claimToken = none ∨ claimToken = some batch.claimToken)) ∧ (f batch).run db = .ok a db' := by
  refine run_check_bind fun batch u => ?_
  simp only [lockBatch, run_get_bind, run_required_bind, run_refuseIf_bind, run_pure_ok, Truth.or_holds,
    differs_some_holds, not_or, not_differs_some_holds, not_not]
  constructor
  · rintro ⟨_, hbatch, ⟨hid, hbranch, htoken⟩, rfl, rfl⟩
    exact ⟨⟨hbatch, Prod.ext hid hbranch, htoken⟩, rfl⟩
  · rintro ⟨⟨hbatch, rfl, htoken⟩, rfl⟩
    exact ⟨batch, hbatch, ⟨rfl, rfl, htoken⟩, rfl, rfl⟩

theorem requireClaimed_bind {batch : BatchRow} {f : PUnit → Plpgsql Other α} :
    (requireClaimed now batch >>= f).run db = .ok a db' ↔
      (batch.status = .claimed ∧ (now : Timestamptz) < batch.claimExpiresAt) ∧ (f ⟨⟩).run db = .ok a db' := by
  simp only [requireClaimed, run_refuseIf_bind, not_or, not_not, not_le]

theorem requireLane_bind {lane : LaneRow} {expected : Option Sha} {control topology : Sha}
    {f : PUnit → Plpgsql Other α} :
    (requireLane lane expected control topology >>= f).run db = .ok a db' ↔
      (lane.projectedHeadSha = expected ∧ lane.controlSha = some control ∧ lane.topologySha = some topology) ∧
      (f ⟨⟩).run db = .ok a db' := by
  simp only [requireLane, bind_assoc, run_refuseIf_bind, not_or, not_not, and_assoc]

end Guards

/-! ### Lanes -/

/-- Seeding adds a lane that is not there, and changes no other. -/
theorem projectionSeedLaneV1_ok {identityId branch head : Option String} {result : LaneKey × LaneRow}
    (h : (projectionSeedLaneV1 now identityId branch head).run db = .ok result db') :
    db' = db ∨ ∃ key row, db.laneState.lookup key = none ∧
      db' = { db with laneState := db.laneState.insert key row } := by
  simp only [projectionSeedLaneV1, run_get_bind, run_required_bind] at h
  obtain ⟨identityId, -, branch, -, head, -, h⟩ := h
  split at h
  · next hnone =>
    obtain ⟨_, _, hset, -, rfl⟩ := run_bind_ok.mp h
    exact .inr ⟨_, _, hnone, run_set_ok.mp hset⟩
  · simp only [run_refuseIf_bind, run_pure_ok] at h
    exact .inl h.2.2

/-- Setting a cut changes the cut of one lane that is there. -/
theorem projectionSetControlCutV1_ok {identityId branch controlSha topologySha : Option String}
    {result : LaneKey × LaneRow}
    (h : (projectionSetControlCutV1 now identityId branch controlSha topologySha).run db = .ok result db') :
    ∃ key lane control topology, db.laneState.lookup key = some lane ∧
      db' = { db with
        laneState := db.laneState.insert key
          { lane with controlSha := some control, topologySha := some topology, updatedAt := now } } := by
  simp only [projectionSetControlCutV1, run_required_bind, run_get_bind] at h
  obtain ⟨control, -, topology, -, identityId, -, branch, -, lane, hlane, h⟩ := h
  simp only [run_bind_ok, run_set_ok, run_pure_ok] at h
  obtain ⟨_, _, rfl, -, rfl⟩ := h
  exact ⟨_, lane, control, topology, hlane, rfl⟩

/-! ### Claiming -/

/-- The tables after the lane's claim, if it has one, is made stale. -/
def Database.withSuperseded (db : Database Other) (now : ℤ) (key : LaneKey) : Database Other :=
  match db.claimedBatch key with
  | none => db
  | some (id, _) => { db with batches := Table.modify db.batches id (BatchRow.stale now) }

theorem claimedBatch_eq_some {key : LaneKey} {id : Uuid} {batch : BatchRow}
    (h : db.claimedBatch key = some (id, batch)) :
    db.batches.lookup id = some batch ∧ batch.key = key ∧ batch.status = .claimed := by
  obtain ⟨hfound, hp⟩ := Table.select_eq_some h
  exact ⟨hfound, of_decide_eq_true hp⟩

theorem claimedBatch_eq_none {key : LaneKey} (h : db.claimedBatch key = none) {id : Uuid} {batch : BatchRow}
    (hfound : db.batches.lookup id = some batch) (hkey : batch.key = key) : batch.status ≠ .claimed := by
  intro hclaimed
  have hp := Table.select_eq_none h hfound
  simp [hkey, hclaimed] at hp

theorem supersede_ok {key : LaneKey} {u : PUnit} (h : (supersede now key).run db = .ok u db') :
    (∀ id batch, db.claimedBatch key = some (id, batch) → batch.claimExpiresAt ≤ now) ∧
      db' = db.withSuperseded now key := by
  simp only [supersede, run_get_bind] at h
  unfold Database.withSuperseded
  cases hc : db.claimedBatch key with
  | none =>
    simp only [hc, run_pure_ok] at h
    exact ⟨by simp, h.2⟩
  | some claimed =>
    obtain ⟨id, batch⟩ := claimed
    simp only [hc, run_refuseIf_bind, run_set_ok, not_lt] at h
    obtain ⟨hexpired, rfl⟩ := h
    refine ⟨fun id' batch' heq => ?_, rfl⟩
    obtain ⟨-, rfl⟩ := Prod.mk.inj (Option.some.inj heq)
    exact hexpired

/-- A batch after a claim on a lane: as it was, or the claim that was superseded. -/
theorem lookup_withSuperseded {key : LaneKey} {id : Uuid} {batch' : BatchRow}
    (h : (db.withSuperseded now key).batches.lookup id = some batch') :
    ∃ batch, db.batches.lookup id = some batch ∧ (batch' = batch ∨
      ((∃ found, db.claimedBatch key = some (id, found)) ∧ batch.key = key ∧ batch.status = .claimed ∧
        batch' = batch.stale now)) := by
  unfold Database.withSuperseded at h
  cases hc : db.claimedBatch key with
  | none =>
    rw [hc] at h
    exact ⟨batch', h, .inl rfl⟩
  | some claimed =>
    obtain ⟨claimedId, batch⟩ := claimed
    obtain ⟨hfound, hkey, hclaimed⟩ := claimedBatch_eq_some hc
    simp only [hc, Table.lookup_modify] at h
    by_cases hid : id = claimedId
    · subst hid
      simp only [if_true, hfound, Option.map_some, Option.some.injEq] at h
      exact ⟨batch, hfound, .inr ⟨⟨batch, rfl⟩, hkey, hclaimed, h.symm⟩⟩
    · rw [if_neg hid] at h
      exact ⟨batch', h, .inl rfl⟩

theorem lookup_withSuperseded_eq_none {key : LaneKey} {id : Uuid}
    (h : (db.withSuperseded now key).batches.lookup id = none) : db.batches.lookup id = none := by
  unfold Database.withSuperseded at h
  split at h
  · exact h
  · simp only [Table.lookup_modify] at h
    split at h
    · exact Option.map_eq_none_iff.mp h
    · exact h

/-- A batch's files are new, and pending; the files that were there stay. -/
theorem insertFiles_ok {id : Uuid} {paths : List String} {u : PUnit}
    (h : (insertFiles now id paths).run db = .ok u db') :
    ∃ batchFiles, db' = { db with batchFiles := batchFiles } ∧
      (∀ key file, db.batchFiles.lookup key = some file → batchFiles.lookup key = some file) ∧
      ∀ key file, batchFiles.lookup key = some file → db.batchFiles.lookup key = some file ∨ file.state = .pending := by
  induction paths generalizing db with
  | nil => exact ⟨db.batchFiles, (run_pure_ok.mp h).2, fun _ _ hf => hf, fun _ _ hf => .inl hf⟩
  | cons path paths ih =>
    obtain ⟨_, mid, hmid, hrest⟩ := run_bind_ok.mp h
    simp only [insertFile, run_get_bind, run_required_bind, run_set_ok, Table.insertRow_eq_some] at hmid
    obtain ⟨inserted, ⟨hnew, rfl⟩, rfl⟩ := hmid
    obtain ⟨batchFiles, rfl, hkept, hpending⟩ := ih hrest
    refine ⟨batchFiles, rfl, fun key file hf => hkept key file ?_, fun key file hf => ?_⟩
    · have hne : key ≠ (id, path) := by
        rintro rfl
        rw [hnew] at hf
        cases hf
      simpa [AList.lookup_insert_ne hne] using hf
    · rcases hpending key file hf with hf | hf
      · rcases Table.lookup_insert_eq_some.mp hf with ⟨-, rfl⟩ | ⟨-, hf⟩
        · exact .inr rfl
        · exact .inl hf
      · exact .inr hf

/-- What a claim that is granted does: the lane's expired claim becomes stale, and a
batch with pending files is added, with the lane's base and cut. -/
structure Claims (db : Database Other) (now : ℤ) (id token : Uuid) (batch : BatchRow) (lane : LaneRow)
    (db' : Database Other) : Prop where
  onLane : db.laneState.lookup batch.key = some lane
  base : lane.projectedHeadSha = batch.expectedProjectedHeadSha
  control : lane.controlSha = some batch.controlSha
  topology : lane.topologySha = some batch.topologySha
  superseded : ∀ id batch', db.claimedBatch batch.key = some (id, batch') → batch'.claimExpiresAt ≤ now
  new : db.batches.lookup id = none
  claimed : batch.status = .claimed
  token : batch.claimToken = token
  batches : db'.batches = (db.withSuperseded now batch.key).batches.insert id batch
  laneState : db'.laneState = db.laneState
  messages : db'.messages = db.messages
  kept : ∀ key file, db.batchFiles.lookup key = some file → db'.batchFiles.lookup key = some file
  pending : ∀ key file, db'.batchFiles.lookup key = some file →
    db.batchFiles.lookup key = some file ∨ file.state = .pending

theorem withSuperseded_rest (db : Database Other) (now : ℤ) (key : LaneKey) :
    (db.withSuperseded now key).laneState = db.laneState ∧
      (db.withSuperseded now key).batchFiles = db.batchFiles ∧
      (db.withSuperseded now key).messages = db.messages := by
  unfold Database.withSuperseded
  split <;> exact ⟨rfl, rfl, rfl⟩

/-- A batch's files are those that were there, and its paths. -/
theorem insertFiles_isSome {id : Uuid} {paths : List String} {u : PUnit}
    (h : (insertFiles now id paths).run db = .ok u db') (key : Uuid × String) :
    (db'.batchFiles.lookup key).isSome ↔ (db.batchFiles.lookup key).isSome ∨ key.1 = id ∧ key.2 ∈ paths := by
  induction paths generalizing db with
  | nil =>
    obtain ⟨-, rfl⟩ := run_pure_ok.mp h
    simp
  | cons path paths ih =>
    obtain ⟨_, mid, hmid, hrest⟩ := run_bind_ok.mp h
    simp only [insertFile, run_get_bind, run_required_bind, run_set_ok, Table.insertRow_eq_some] at hmid
    obtain ⟨inserted, ⟨hnew, rfl⟩, rfl⟩ := hmid
    rw [ih hrest]
    by_cases hkey : key = (id, path)
    · subst hkey
      simp
    · have hne : ¬ (key.1 = id ∧ key.2 = path) := fun hboth => hkey (Prod.ext hboth.1 hboth.2)
      rw [AList.lookup_insert_ne hkey, List.mem_cons]
      tauto

/-- A batch is the one that was asked for. -/
structure Requested (args : ClaimArgs) (batch : BatchRow) : Prop where
  identity : args.identityId = some batch.identityId
  branch : args.branch = some batch.branch
  expected : args.expectedProjectedHeadSha = batch.expectedProjectedHeadSha.map Hex.text
  target : args.targetHeadSha = some batch.targetHeadSha.text

theorem nullableSha_eq_some {value : Option String} {sha : Option Sha} (h : nullableSha value = some sha) :
    value = sha.map Hex.text := by
  cases value with
  | none =>
    cases h
    rfl
  | some text =>
    obtain ⟨hex, hhex, rfl⟩ := Option.map_eq_some_iff.mp h
    exact congrArg some (hex?_eq_some.mp hhex).symm

theorem text_of_bind_hex? {value : Option String} {sha : Sha} (h : value.bind (hex? 40) = some sha) : value = some sha.text := by
  obtain ⟨text, rfl, hhex⟩ := Option.bind_eq_some_iff.mp h
  exact congrArg some (hex?_eq_some.mp hhex).symm

theorem projectionClaimBatchV1_requested {id token : Uuid} {args : ClaimArgs} {result : Uuid × BatchRow}
    (h : (projectionClaimBatchV1 now id token args).run db = .ok result db') :
    ∃ batch lane, result = (id, batch) ∧ Claims db now id token batch lane db' ∧ Requested args batch ∧
      ∀ key, (db'.batchFiles.lookup key).isSome ↔
        (db.batchFiles.lookup key).isSome ∨ key.1 = id ∧ key.2 ∈ (args.files.getD []).reduceOption := by
  simp only [projectionClaimBatchV1, run_get_bind, run_required_bind, run_refuseIf_bind, requireLane_bind] at h
  obtain ⟨target, htarget, expected, hexpected, owner, -, control, -, topology, -, lease, -, -, identityId, hidentity, branch,
    hbranch, lane, hlane, ⟨hbase, hcontrol, htopology⟩, h⟩ := h
  simp only [run_bind_ok, run_pure_ok] at h
  obtain ⟨_, mid, hmid, _, inserted, hinserted, _, last, hfiles, rfl, rfl⟩ := h
  obtain ⟨hsuperseded, rfl⟩ := supersede_ok hmid
  simp only [insertBatch, run_get_bind, run_refuseIf_bind, run_required_bind, run_set_ok,
    Table.insertRow_eq_some] at hinserted
  obtain ⟨-, batches, ⟨hnew, rfl⟩, rfl⟩ := hinserted
  have hpaths := insertFiles_isSome hfiles
  obtain ⟨batchFiles, rfl, hkept, hpending⟩ := insertFiles_ok hfiles
  obtain ⟨hlanes, hfiles', hmessages⟩ := withSuperseded_rest _ now (identityId, branch)
  rw [hfiles'] at hkept hpending
  refine ⟨_, lane, rfl, ⟨hlane, hbase, hcontrol, htopology, hsuperseded, lookup_withSuperseded_eq_none hnew, rfl, rfl,
    rfl, hlanes, hmessages, hkept, hpending⟩,
    ⟨hidentity, hbranch, nullableSha_eq_some hexpected, text_of_bind_hex? htarget⟩, fun key => ?_⟩
  rw [hpaths, hfiles']

theorem projectionClaimBatchV1_ok {id token : Uuid} {args : ClaimArgs} {result : Uuid × BatchRow}
    (h : (projectionClaimBatchV1 now id token args).run db = .ok result db') :
    ∃ batch lane, result = (id, batch) ∧ Claims db now id token batch lane db' := by
  obtain ⟨batch, lane, hresult, hclaims, -⟩ := projectionClaimBatchV1_requested h
  exact ⟨batch, lane, hresult, hclaims⟩

/-! ### Messages -/

/-- What projecting a message may do: add messages, and write what the journal does
not read. -/
structure Projects (db db' : Database Other) : Prop where
  laneState : db'.laneState = db.laneState
  batches : db'.batches = db.batches
  batchFiles : db'.batchFiles = db.batchFiles
  kept : ∀ id row, db.messages.lookup id = some row → db'.messages.lookup id = some row

theorem Projects.refl (db : Database Other) : Projects db db := ⟨rfl, rfl, rfl, fun _ _ h => h⟩

/-- A message with the content hash is there. -/
def HasContent (db : Database Other) (contentHash : Option String) : Prop :=
  ∃ id row, db.messages.lookup id = some row ∧ contentHash = some row.contentHash.text

theorem insertMessage_ok {message : BusMessage} {id sender : String} {createdAt : Timestamptz} {contentHash : Hex 64}
    {payload : Jsonb} {u : PUnit}
    (h : (insertMessage server now message id sender createdAt contentHash payload).run db = .ok u db') :
    Projects db db' ∧ ∃ row, db'.messages.lookup id = some row ∧ row.contentHash = contentHash := by
  simp only [insertMessage, run_get_bind, run_required_bind, Table.insertRow_eq_some] at h
  obtain ⟨key, -, messages, ⟨hnew, rfl⟩, h⟩ := h
  split at h
  · exact absurd h run_throw_ok
  · obtain rfl := run_set_ok.mp h
    refine ⟨⟨rfl, rfl, rfl, fun id' row hrow => ?_⟩, _, AList.lookup_insert _, rfl⟩
    have hne : id' ≠ id := by
      rintro rfl
      rw [hnew] at hrow
      cases hrow
    simpa [AList.lookup_insert_ne hne] using hrow

theorem recordConflict_ok {message : BusMessage} {messageId qualified : String} {existing : MessageRow}
    {contentHash : Hex 64} {u : PUnit}
    (h : (recordConflict now message messageId qualified existing contentHash).run db = .ok u db') :
    db'.messages = db.messages ∧ Projects db db' := by
  simp only [recordConflict, run_get_bind] at h
  split at h
  · obtain ⟨-, rfl⟩ := run_pure_ok.mp h
    exact ⟨rfl, Projects.refl _⟩
  · obtain rfl := run_set_ok.mp h
    exact ⟨rfl, rfl, rfl, rfl, fun _ _ h => h⟩

/-- A qualified id that is there holds the content. -/
theorem qualify_present {messages : Table String MessageRow} {messageId qualified : String} {contentHash : Hex 64}
    (h : qualify messages messageId contentHash = .present qualified) :
    ∃ row, messages.lookup qualified = some row ∧ row.contentHash = contentHash := by
  unfold qualify at h
  simp only at h
  split at h
  · cases h
  · next row hrow =>
    split at h
    · next heq =>
      cases h
      exact ⟨row, hrow, heq⟩
    · split at h
      · cases h
      · next row' hrow' =>
        split at h
        · next heq =>
          cases h
          exact ⟨row', hrow', heq⟩
        · cases h

/-- When projecting a message returns, a message with its content is there. -/
theorem projectBusMessageV1_ok {message : BusMessage} {result : String}
    (h : (projectBusMessageV1 server now message).run db = .ok result db') :
    Projects db db' ∧ HasContent db' message.contentHash := by
  simp only [projectBusMessageV1, run_get_bind, run_required_bind] at h
  obtain ⟨messageId, -, sender, -, createdAt, -, contentHash, hhash, payload, -, h⟩ := h
  have hgiven : message.contentHash = some contentHash.text := by
    obtain ⟨s, hs, hchecked⟩ := Option.bind_eq_some_iff.mp hhash
    rw [hs, hex?_eq_some.mp hchecked]
  rw [hgiven]
  split at h
  · obtain ⟨_, _, hinsert, -, rfl⟩ := run_bind_ok.mp h
    obtain ⟨hprojects, row, hrow, rfl⟩ := insertMessage_ok hinsert
    exact ⟨hprojects, _, row, hrow, rfl⟩
  · next existing hexisting =>
    split at h
    · next heq =>
      obtain ⟨-, rfl⟩ := run_pure_ok.mp h
      exact ⟨Projects.refl _, _, existing, hexisting, by rw [heq.1]⟩
    · split at h
      · next hpresent =>
        obtain ⟨-, rfl⟩ := run_pure_ok.mp h
        obtain ⟨row, hrow, rfl⟩ := qualify_present hpresent
        exact ⟨Projects.refl _, _, row, hrow, rfl⟩
      · exact absurd h run_throw_ok
      · obtain ⟨_, mid, hrecord, hrest⟩ := run_bind_ok.mp h
        obtain ⟨_, _, hinsert, -, rfl⟩ := run_bind_ok.mp hrest
        obtain ⟨hsame, hmid⟩ := recordConflict_ok hrecord
        obtain ⟨hlast, row, hrow, rfl⟩ := insertMessage_ok hinsert
        refine ⟨⟨hlast.laneState.trans hmid.laneState, hlast.batches.trans hmid.batches,
          hlast.batchFiles.trans hmid.batchFiles, fun id row h => hlast.kept id row (hmid.kept id row h)⟩, _, row, hrow, rfl⟩

/-! ### Projecting a file -/

/-- A message is bound to its batch: to its lane, a path of it, and its target. -/
structure Bound (server : Server Other) (batch : BatchRow) (path : String) (message : BusMessage) : Prop where
  sender : ∃ sender, message.sender = some sender ∧ server.lower (btrim sender) = batch.identityId
  payload : ∃ payload, message.payload = some payload ∧ payload.isObject = true ∧
    payload.getText "admitted_lane_identity" = some batch.identityId ∧ payload.getText "source_path" = some path ∧
    payload.getText "source_branch_head" = some batch.targetHeadSha.text

theorem requireBinding_bind {α : Type} {a : α} {batch : BatchRow} {path : String} {message : BusMessage}
    {f : PUnit → Plpgsql Other α} (h : (requireBinding server batch path message >>= f).run db = .ok a db') :
    Bound server batch path message ∧ (f ⟨⟩).run db = .ok a db' := by
  simp only [requireBinding, bind_assoc, run_required_bind, run_refuseIf_bind, not_or, not_not, Bool.not_eq_false] at h
  obtain ⟨sender, hsender, hlower, payload, hpayload, hbound, h⟩ := h
  exact ⟨⟨⟨sender, hsender, hlower⟩, payload, hpayload, hbound⟩, h⟩

theorem terminalState_terminal {result : String} {state : FileState} (h : terminalState result = some state) :
    state.Terminal := by
  unfold terminalState at h
  split_ifs at h
  · cases h
    exact .inl rfl
  · cases h
    exact .inr rfl

/-- What projecting a pending file does: under the batch's own token, unexpired
claim, base and cut, the message's content is there and the file is terminal. -/
structure ProjectsFile (db : Database Other) (now : ℤ) (args : ProjectFileArgs) (id : Uuid) (path : String)
    (batch : BatchRow) (file : FileRow) (db' : Database Other) : Prop where
  given : args.batchId = some id
  onPath : args.path = some path
  found : db.batches.lookup id = some batch
  token : args.claimToken = some batch.claimToken
  claimed : batch.status = .claimed
  unexpired : (now : Timestamptz) < batch.claimExpiresAt
  pending : ∃ before, db.batchFiles.lookup (id, path) = some before ∧ before.state = .pending
  terminal : file.state.Terminal
  laneState : db'.laneState = db.laneState
  batches : db'.batches = db.batches
  batchFiles : db'.batchFiles = db.batchFiles.insert (id, path) file
  kept : ∀ id row, db.messages.lookup id = some row → db'.messages.lookup id = some row
  content : HasContent db' args.message.contentHash

theorem projectionProjectFileV1_runs {args : ProjectFileArgs} {result : String}
    (h : (projectionProjectFileV1 server now args).run db = .ok result db') :
    db' = db ∨ ∃ id path batch file, ProjectsFile db now args id path batch file db' ∧ Bound server batch path args.message ∧
      ∃ result' mid, (projectBusMessageV1 server now args.message).run db = .ok result' mid ∧ db'.messages = mid.messages := by
  simp only [projectionProjectFileV1, run_refuseIf_bind, run_required_bind, run_get_bind, laneKeyOf_bind,
    lockLane_bind, lockBatch_bind, requireClaimed_bind, requireLane_bind, not_or] at h
  obtain ⟨⟨-, htoken⟩, path, hpath, id, hid, key, -, lane, -, batch, ⟨hbatch, -, hown⟩, ⟨hclaimed, hunexpired⟩, -,
    before, hbefore, h⟩ := h
  split at h
  · exact .inl (run_required_ok.mp h).2
  · simp only [run_refuseIf_bind, not_not] at h
    obtain ⟨hpending, h⟩ := h
    obtain ⟨hbound, h⟩ := requireBinding_bind h
    obtain ⟨result', mid, hmessage, h⟩ := run_bind_ok.mp h
    simp only [run_required_bind, run_get_bind, run_refuseIf_bind] at h
    obtain ⟨state, hstate, _, -, -, h⟩ := h
    simp only [run_bind_ok, run_set_ok, run_pure_ok] at h
    obtain ⟨_, _, rfl, -, rfl⟩ := h
    obtain ⟨hprojects, hcontent⟩ := projectBusMessageV1_ok hmessage
    have hgiven : args.path = some path := by
      unfold nonBlank at hpath
      split at hpath
      · cases hpath
      · exact hpath
    refine .inr ⟨id, path, batch, ⟨state, some result', now⟩, ⟨hid, hgiven, ?_, hown.resolve_left htoken, hclaimed,
      hunexpired, ⟨before, hbefore, hpending⟩, terminalState_terminal hstate, hprojects.laneState,
      hprojects.batches, ?_, hprojects.kept, hcontent⟩, hbound, result', mid, hmessage, rfl⟩
    · simpa [Database.batch?, hid] using hbatch
    · simp only [hprojects.batchFiles]

theorem projectionProjectFileV1_ok {args : ProjectFileArgs} {result : String}
    (h : (projectionProjectFileV1 server now args).run db = .ok result db') :
    db' = db ∨ ∃ id path batch file, ProjectsFile db now args id path batch file db' := by
  rcases projectionProjectFileV1_runs h with rfl | ⟨id, path, batch, file, hprojects, -⟩
  · exact .inl rfl
  · exact .inr ⟨id, path, batch, file, hprojects⟩

/-! ### Finalizing -/

/-- The tables after a batch is finalized. -/
def Database.withFinalized (db : Database Other) (now : ℤ) (id : Uuid) (batch : BatchRow) (lane : LaneRow) :
    Database Other :=
  { db with
    laneState := db.laneState.insert batch.key (lane.moved now batch.targetHeadSha)
    batches := Table.modify db.batches id (BatchRow.completed now) }

/-- A batch may be finalized: it is claimed and unexpired, the lane has its base and
cut, and its files are resolved. -/
structure Finalizable (db : Database Other) (now : ℤ) (id : Uuid) (batch : BatchRow) (lane : LaneRow) : Prop where
  claimed : batch.status = .claimed
  unexpired : (now : Timestamptz) < batch.claimExpiresAt
  base : lane.projectedHeadSha = batch.expectedProjectedHeadSha
  control : lane.controlSha = some batch.controlSha
  topology : lane.topologySha = some batch.topologySha
  resolved : ∀ path file, db.batchFiles.lookup (id, path) = some file → file.state.Terminal

/-- A call finds a batch on its lane, and the token does not tell it from the batch's own. -/
structure FindsBatch (db : Database Other) (batchId claimToken : Option Uuid) (id : Uuid) (batch : BatchRow)
    (lane : LaneRow) : Prop where
  given : batchId = some id
  found : db.batches.lookup id = some batch
  onLane : db.laneState.lookup batch.key = some lane
  token : claimToken = none ∨ claimToken = some batch.claimToken

theorem projectionFinalizeBatchV1_ok {batchId claimToken : Option Uuid} {result : LaneKey × LaneRow} :
    (projectionFinalizeBatchV1 now batchId claimToken).run db = .ok result db' ↔
      ∃ id batch lane, FindsBatch db batchId claimToken id batch lane ∧
        ((batch.status = .complete ∧ lane.projectedHeadSha = some batch.targetHeadSha ∧
            result = (batch.key, lane) ∧ db' = db) ∨
          (Finalizable db now id batch lane ∧ db' = db.withFinalized now id batch lane ∧
            result = (batch.key, lane.moved now batch.targetHeadSha))) := by
  simp only [projectionFinalizeBatchV1, laneKeyOf_bind, lockLane_bind, lockBatch_bind]
  constructor
  · rintro ⟨_, -, lane, hlane, batch, ⟨hbatch, rfl, htoken⟩, hrun⟩
    obtain ⟨id, rfl, hfound⟩ := Option.bind_eq_some_iff.mp hbatch
    refine ⟨id, batch, lane, ⟨rfl, hfound, hlane, htoken⟩, ?_⟩
    by_cases hstatus : batch.status = .complete
    · simp only [if_pos hstatus, run_refuseIf_bind, run_pure_ok, not_not] at hrun
      exact .inl ⟨hstatus, hrun⟩
    · simp only [if_neg hstatus, requireClaimed_bind, requireLane_bind, run_get_bind, run_required_bind,
        run_refuseIf_bind, Bool.not_eq_true, Database.unresolved_eq_false] at hrun
      obtain ⟨⟨hclaimed, hunexpired⟩, ⟨hbase, hcontrol, htopology⟩, _, ⟨⟩, hfiles, hrun⟩ := hrun
      simp only [run_bind_ok, run_set_ok, run_pure_ok] at hrun
      obtain ⟨_, _, rfl, rfl, rfl⟩ := hrun
      exact .inr ⟨⟨hclaimed, hunexpired, hbase, hcontrol, htopology, hfiles⟩, rfl, rfl⟩
  · rintro ⟨id, batch, lane, ⟨rfl, hfound, hlane, htoken⟩, hcase⟩
    refine ⟨batch.key, ⟨batch, hfound, rfl⟩, lane, hlane, batch, ⟨hfound, rfl, htoken⟩, ?_⟩
    rcases hcase with ⟨hstatus, hcursor, rfl, rfl⟩ | ⟨h, rfl, rfl⟩
    · simp only [if_pos hstatus, run_refuseIf_bind, run_pure_ok, not_not]
      exact ⟨hcursor, trivial, trivial⟩
    · have hstatus : batch.status ≠ .complete := by simp [h.claimed]
      simp only [if_neg hstatus, requireClaimed_bind, requireLane_bind, run_get_bind, run_required_bind,
        run_refuseIf_bind, Bool.not_eq_true, Database.unresolved_eq_false]
      refine ⟨⟨h.claimed, h.unexpired⟩, ⟨h.base, h.control, h.topology⟩, id, rfl, h.resolved, ?_⟩
      simp only [run_bind_ok, run_set_ok, run_pure_ok]
      exact ⟨⟨⟩, _, rfl, trivial, rfl⟩

end CcbCore.Projection
