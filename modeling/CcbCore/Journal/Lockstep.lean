import CcbCore.Journal.ReferenceInvariant
import CcbCore.Library.Trim
import CcbCore.Projection.Plane

/-!
# The two journals, call by call

With well-formed arguments, when does a method of the reference journal return, and when the function of the
durable journal with the same purpose? One lemma for each says so, with what it leaves (`…_iff`). A well-formed
identifier or path is a `Name`, a commit a `Hex 40`.
-/

namespace CcbCore

open Postgres Raising Trim

/-! ### Well-formed texts -/

/-- A text that is not empty, with no space around it, and that the database holds. -/
structure Name where
  text : String
  trimmed : Python.stripString text = text
  nonempty : text ≠ ""
  stored : '\x00' ∉ text.toList

theorem strip_eq_trim (text : List Char) : Python.strip text = trim Python.isSpace text := rfl

theorem btrim_eq_trim (s : String) : btrim s = String.ofList (trim (· = ' ') s.toList) := rfl

/-- A name has a character that is no space. -/
theorem Name.exists_not_space (name : Name) : ∃ c ∈ name.text.toList, Python.isSpace c = false := by
  have hne : trim Python.isSpace name.text.toList ≠ [] := by
    intro hnil
    have htext := name.trimmed
    rw [Python.stripString, strip_eq_trim, hnil] at htext
    exact name.nonempty htext.symm
  rw [ne_eq, trim_eq_nil_iff, List.all_eq_true] at hne
  push Not at hne
  obtain ⟨c, hc, hspace⟩ := hne
  exact ⟨c, hc, by simpa using hspace⟩

theorem isBlank_name (name : Name) : Projection.isBlank (some name.text) = false := by
  obtain ⟨c, hc, hspace⟩ := name.exists_not_space
  refine decide_eq_false fun hempty => ?_
  have hall : trim (· = ' ') name.text.toList = [] := by
    rw [btrim_eq_trim, String.ofList_eq_empty_iff] at hempty
    exact hempty
  have := List.all_eq_true.mp (trim_eq_nil_iff.mp hall) c hc
  obtain rfl : c = ' ' := by simpa using this
  exact absurd hspace (by decide)

theorem nonBlank_name (name : Name) : Projection.nonBlank (some name.text) = some name.text := by
  rw [Projection.nonBlank, isBlank_name, if_neg Bool.false_ne_true]

theorem isSpace_of_isHexDigit {c : Char} (h : isHexDigit c = true) : Python.isSpace c = false := by
  have hdigit : (48 ≤ c.val.toNat ∧ c.val.toNat ≤ 57) ∨ (97 ≤ c.val.toNat ∧ c.val.toNat ≤ 102) := by
    simpa [isHexDigit, Char.le_def, UInt32.le_iff_toNat_le] using h
  by_contra hspace
  rw [Bool.not_eq_false, Python.isSpace, decide_eq_true_eq] at hspace
  have hmem := List.mem_map_of_mem (f := UInt32.toNat) hspace
  simp only [List.map_cons, List.map_nil, List.mem_cons, List.not_mem_nil, or_false, UInt32.reduceToNat] at hmem
  omega

theorem strip_hex {n : ℕ} (sha : Hex n) : Python.stripString sha.text = sha.text := by
  have hall : sha.text.toList.all isHexDigit = true := (of_decide_eq_true sha.checked).2
  rw [Python.stripString, strip_eq_trim, trim_eq_self, String.ofList_toList]
  exact fun c hc => isSpace_of_isHexDigit (List.all_eq_true.mp hall c hc)

theorem hex_ne_empty (sha : Hex 40) : sha.text ≠ "" := by
  intro hempty
  have hchecked := sha.checked
  rw [hempty] at hchecked
  exact absurd hchecked (by decide)

theorem hex?_text {n : ℕ} (sha : Hex n) : hex? n sha.text = some sha := hex?_eq_some.mpr rfl

/-! ### The reference journal -/

namespace Journal

variable {journal journal' : ProjectionJournal} {α : Type} {a : α}

theorem text_bind {value code : String} {f : String → Method α} (hstrip : Python.stripString value = value) (hne : value ≠ "") :
    (text value code >>= f).run journal = (f value).run journal := by
  rw [text, hstrip, if_neg hne]
  rfl

theorem text_name_bind (name : Name) {code : String} {f : String → Method α} :
    (text name.text code >>= f).run journal = (f name.text).run journal := text_bind name.trimmed name.nonempty

theorem text_hex_bind (sha : Hex 40) {code : String} {f : String → Method α} :
    (text sha.text code >>= f).run journal = (f sha.text).run journal := text_bind (strip_hex sha) (hex_ne_empty sha)

theorem optionalText_hex_bind (sha : Option (Hex 40)) {code : String} {f : Option String → Method α} :
    (optionalText (sha.map Hex.text) code >>= f).run journal = (f (sha.map Hex.text)).run journal := by
  cases sha with
  | none => rfl
  | some sha =>
    change ((some <$> text sha.text code) >>= f).run journal = _
    rw [map_eq_pure_bind, bind_assoc, text_hex_bind, pure_bind]
    rfl

theorem time_bind {value : ℤ} {code : String} {f : ℤ → Method α} (h : 0 ≤ value) :
    (time value code >>= f).run journal = (f value).run journal := by
  rw [time, if_neg (not_lt.mpr h)]
  rfl

/-- A lane is seeded once, or again with the head it has. -/
theorem seedLaneState_iff {identity branch : Name} {head : Option (Hex 40)} {u : Unit} :
    (seedLaneState identity.text branch.text (head.map Hex.text)).run journal = .ok u journal' ↔
      (∀ lane, journal.lanes (identity.text, branch.text) = some lane → lane.projectedHeadSha = head.map Hex.text) ∧
        journal' = { journal with
          lanes := Function.update journal.lanes (identity.text, branch.text)
            (some ⟨identity.text, branch.text, head.map Hex.text⟩) } := by
  rw [seedLaneState, text_name_bind, text_name_bind, optionalText_hex_bind]
  simp only [fail, run_get_bind, run_guard_ok, run_set_ok]
  refine and_congr_left fun _ => ?_
  cases journal.lanes (identity.text, branch.text) <;> simp

theorem setControlCut_iff {identity branch : Name} {control topology : Hex 40} {u : Unit} :
    (setControlCut identity.text branch.text control.text topology.text).run journal = .ok u journal' ↔
      journal.lanes (identity.text, branch.text) ≠ none ∧
        journal' = { journal with
          controlCuts := Function.update journal.controlCuts (identity.text, branch.text)
            (some (control.text, topology.text)) } := by
  rw [setControlCut, text_name_bind, text_name_bind, text_hex_bind, text_hex_bind]
  simp only [fail, run_get_bind, run_guard_ok, run_set_ok, Option.isNone_iff_eq_none, ne_eq]

theorem refuseIfBusy_iff {key : LaneKey} {now : ℤ} {u : Unit} :
    (refuseIfBusy key now).run journal = .ok u journal' ↔
      (∀ id, journal.activeBatchByLane key = some id →
        ∃ record, journal.batches id = some record ∧
          (record.complete = true ∨ record.claim.leaseExpiresMs ≤ now)) ∧ journal' = journal := by
  constructor
  · exact fun h => ⟨refuseIfBusy_ok h, (readOnly_refuseIfBusy key now).state_eq h⟩
  · rintro ⟨hfree, rfl⟩
    simp only [refuseIfBusy, fail, run_get_bind]
    cases hactive : journal'.activeBatchByLane key with
    | none => simp
    | some id =>
      obtain ⟨record, hrecord, hended⟩ := hfree id hactive
      simp only [hrecord, run_guard_ok, run_pure_ok]
      refine ⟨fun hbusy => ?_, trivial, trivial⟩
      obtain hcomplete | hexpired := hended
      · rw [hbusy.1] at hcomplete
        cases hcomplete
      · exact absurd hbusy.2 (not_lt.mpr hexpired)

/-- A well-formed request. -/
structure WellFormed where
  identity : Name
  branch : Name
  expected : Option (Hex 40)
  target : Hex 40
  control : Hex 40
  topology : Hex 40
  files : List Name
  distinct : (files.map Name.text).Nodup
  owner : Name
  leaseSeconds : ℤ
  positive : 0 < leaseSeconds
  -- `p_lease_seconds` is an `integer`.
  isInteger : leaseSeconds ≤ 2147483647

/-- The lane of a request. -/
def WellFormed.key (request : WellFormed) : LaneKey := (request.identity.text, request.branch.text)

/-- The request, at a time, with its lease in milliseconds. -/
def WellFormed.request (request : WellFormed) (now : ℤ) : ClaimRequest where
  identity := request.identity.text
  branch := request.branch.text
  expectedProjectedHead := request.expected.map Hex.text
  targetHead := request.target.text
  controlSha := request.control.text
  topologySha := request.topology.text
  files := request.files.map Name.text
  owner := request.owner.text
  nowMs := now
  leaseMs := 1000 * request.leaseSeconds

/-- The lane of a request may be claimed. -/
structure Claimable (journal : ProjectionJournal) (request : WellFormed) (now : ℤ) : Prop where
  lane : ∃ lane, journal.lanes request.key = some lane ∧ lane.projectedHeadSha = request.expected.map Hex.text
  cut : journal.controlCuts request.key = some (request.control.text, request.topology.text)
  free : ∀ id, journal.activeBatchByLane request.key = some id →
    ∃ record, journal.batches id = some record ∧ (record.complete = true ∨ record.claim.leaseExpiresMs ≤ now)

theorem checkClaimRequest_bind (request : WellFormed) {now : ℤ} (hnow : 0 ≤ now) {f : ClaimRequest → Method α} :
    (checkClaimRequest (request.request now) >>= f).run journal = (f (request.request now)).run journal := by
  have hpositive := request.positive
  have hlease : 0 ≤ 1000 * request.leaseSeconds := by omega
  have hfiles : "" ∉ (request.request now).files := by
    intro hmem
    obtain ⟨name, -, hempty⟩ := List.mem_map.mp hmem
    exact name.nonempty hempty
  have hdistinct : (request.request now).files.Nodup := request.distinct
  simp only [checkClaimRequest, bind_assoc]
  rw [show (request.request now).identity = request.identity.text from rfl, text_name_bind,
    show (request.request now).branch = request.branch.text from rfl, text_name_bind,
    show (request.request now).targetHead = request.target.text from rfl, text_hex_bind,
    show (request.request now).controlSha = request.control.text from rfl, text_hex_bind,
    show (request.request now).topologySha = request.topology.text from rfl, text_hex_bind,
    show (request.request now).owner = request.owner.text from rfl, text_name_bind,
    show (request.request now).nowMs = now from rfl, time_bind hnow,
    show (request.request now).leaseMs = 1000 * request.leaseSeconds from rfl, time_bind hlease, if_neg (by omega), bind_assoc,
    show (request.request now).expectedProjectedHead = request.expected.map Hex.text from rfl, optionalText_hex_bind,
    if_neg hfiles, if_neg (not_not.mpr hdistinct), pure_bind]
  rfl

theorem claimBatch_iff {uuid4 : UuidSource} {request : WellFormed} {now : ℤ} (hnow : 0 ≤ now) {claim : BatchClaim} :
    (claimBatch uuid4 (request.request now)).run journal = .ok claim journal' ↔
      Claimable journal request now ∧ claim = claimOf uuid4 (request.request now) journal.uuids ∧
        journal' = journal.withClaim claim (request.files.map Name.text) := by
  rw [claimBatch, checkClaimRequest_bind request hnow, run_get_bind]
  have hkey : ((request.request now).identity, (request.request now).branch) = request.key := rfl
  rw [hkey]
  cases hlane : journal.lanes request.key with
  | none =>
    constructor
    · intro h
      simp [fail] at h
    · rintro ⟨hclaimable, -⟩
      obtain ⟨lane, hsome, -⟩ := hclaimable.lane
      rw [hlane] at hsome
      cases hsome
  | some lane =>
    simp only [fail, run_guard_ok, run_bind_ok, refuseIfBusy_iff, run_set_ok, run_pure_ok, not_not]
    constructor
    · rintro ⟨hbase, hcut, _, _, ⟨hfree, rfl⟩, _, _, rfl, rfl, rfl⟩
      exact ⟨⟨⟨lane, hlane, hbase⟩, hcut, hfree⟩, rfl, rfl⟩
    · rintro ⟨⟨⟨lane', hlane', hbase⟩, hcut, hfree⟩, rfl, rfl⟩
      obtain rfl := Option.some.inj (hlane.symm.trans hlane')
      exact ⟨hbase, hcut, ⟨⟩, _, ⟨hfree, rfl⟩, ⟨⟩, _, rfl, rfl, rfl⟩

end Journal

/-! ### The durable journal -/

namespace Projection

open Sql

variable {Other : Type} {db db' : Database Other} {now : ℤ}

theorem nullableSha_text (sha : Option Sha) : nullableSha (sha.map Hex.text) = some sha := by
  cases sha with
  | none => rfl
  | some sha => rw [Option.map_some, nullableSha, hex?_text, Option.map_some]

theorem projectionSeedLaneV1_iff {identity branch : Name} {head : Option Sha} {result : LaneKey × LaneRow} :
    (projectionSeedLaneV1 now (some identity.text) (some branch.text) (head.map Hex.text)).run db = .ok result db' ↔
      (db.laneState.lookup (identity.text, branch.text) = none ∧
        result = ((identity.text, branch.text), ⟨head, none, none, now⟩) ∧
        db' = { db with laneState := db.laneState.insert (identity.text, branch.text) ⟨head, none, none, now⟩ }) ∨
      ∃ row, db.laneState.lookup (identity.text, branch.text) = some row ∧ row.projectedHeadSha = head ∧
        result = ((identity.text, branch.text), row) ∧ db' = db := by
  simp only [projectionSeedLaneV1, nonBlank_name, nullableSha_text, run_get_bind, run_required_bind, Option.some.injEq, exists_eq_left']
  cases hlane : db.laneState.lookup (identity.text, branch.text) with
  | none =>
    simp only [run_bind_ok, run_set_ok, run_pure_ok]
    constructor
    · rintro ⟨_, _, rfl, rfl, rfl⟩
      exact .inl ⟨trivial, rfl, rfl⟩
    · rintro (⟨-, rfl, rfl⟩ | ⟨_, ⟨⟩, -⟩)
      exact ⟨⟨⟩, _, rfl, rfl, rfl⟩
  | some row =>
    simp only [run_refuseIf_bind, run_pure_ok, not_not]
    constructor
    · rintro ⟨hhead, rfl, rfl⟩
      exact .inr ⟨row, rfl, hhead, rfl, rfl⟩
    · rintro (⟨⟨⟩, -⟩ | ⟨_, ⟨⟩, hhead, rfl, rfl⟩)
      exact ⟨hhead, rfl, rfl⟩

theorem projectionSetControlCutV1_iff {identity branch : Name} {control topology : Sha} {result : LaneKey × LaneRow} :
    (projectionSetControlCutV1 now (some identity.text) (some branch.text) (some control.text) (some topology.text)).run db =
        .ok result db' ↔
      ∃ lane, db.laneState.lookup (identity.text, branch.text) = some lane ∧
        result = ((identity.text, branch.text),
          { lane with controlSha := some control, topologySha := some topology, updatedAt := now }) ∧
        db' = { db with
          laneState := db.laneState.insert (identity.text, branch.text)
            { lane with controlSha := some control, topologySha := some topology, updatedAt := now } } := by
  simp only [projectionSetControlCutV1, Option.bind_some, hex?_text, run_required_bind, run_get_bind, Option.some.injEq,
    exists_eq_left']
  simp only [run_bind_ok, run_set_ok, run_pure_ok]
  constructor
  · rintro ⟨lane, hlane, _, _, rfl, rfl, rfl⟩
    exact ⟨lane, hlane, rfl, rfl⟩
  · rintro ⟨lane, hlane, rfl, rfl⟩
    exact ⟨lane, hlane, ⟨⟩, _, rfl, rfl, rfl⟩

/-! ### Claiming -/

/-- The files of a batch, added. -/
def addFiles (now : ℤ) (id : Uuid) (paths : List String) (files : Table (Uuid × String) FileRow) : Table (Uuid × String) FileRow :=
  paths.foldl (fun files path => files.insert (id, path) ⟨.pending, none, now⟩) files

theorem lookup_addFiles {id : Uuid} {paths : List String} {files : Table (Uuid × String) FileRow} (key : Uuid × String) :
    (addFiles now id paths files).lookup key =
      if key.1 = id ∧ key.2 ∈ paths then some ⟨.pending, none, now⟩ else files.lookup key := by
  induction paths generalizing files with
  | nil => simp [addFiles]
  | cons path paths ih =>
    rw [addFiles, List.foldl_cons, ← addFiles, ih]
    by_cases hrest : key.1 = id ∧ key.2 ∈ paths
    · rw [if_pos hrest, if_pos ⟨hrest.1, List.mem_cons_of_mem _ hrest.2⟩]
    · rw [if_neg hrest]
      by_cases hkey : key = (id, path)
      · subst hkey
        rw [AList.lookup_insert, if_pos ⟨rfl, List.mem_cons_self⟩]
      · rw [AList.lookup_insert_ne hkey, if_neg]
        rintro ⟨rfl, hmem⟩
        obtain rfl | hmem := List.mem_cons.mp hmem
        · exact hkey rfl
        · exact hrest ⟨rfl, hmem⟩

theorem insertFiles_iff {id : Uuid} {paths : List String} (hdistinct : paths.Nodup)
    (hnew : ∀ path ∈ paths, db.batchFiles.lookup (id, path) = none) {u : PUnit} :
    (insertFiles now id paths).run db = .ok u db' ↔ db' = { db with batchFiles := addFiles now id paths db.batchFiles } := by
  induction paths generalizing db with
  | nil => exact run_pure_ok.trans ⟨fun h => h.2, fun h => ⟨rfl, h⟩⟩
  | cons path paths ih =>
    obtain ⟨hmem, hdistinct⟩ := List.nodup_cons.mp hdistinct
    have hinsert : ∀ {v : PUnit} {mid : Database Other}, (insertFile now id path).run db = .ok v mid ↔
        mid = { db with batchFiles := db.batchFiles.insert (id, path) ⟨.pending, none, now⟩ } := by
      intro v mid
      simp only [insertFile, run_get_bind, run_required_bind, run_set_ok, Table.insertRow_eq_some]
      constructor
      · rintro ⟨_, ⟨-, rfl⟩, rfl⟩
        rfl
      · rintro rfl
        exact ⟨_, ⟨hnew path List.mem_cons_self, rfl⟩, rfl⟩
    rw [insertFiles, run_bind_ok]
    simp only [hinsert, exists_eq_left, exists_const]
    rw [ih hdistinct]
    · rfl
    · intro path' hpath'
      have hne : (id, path') ≠ (id, path) := by
        rintro ⟨⟩
        exact hmem hpath'
      rw [AList.lookup_insert_ne hne]
      exact hnew path' (List.mem_cons_of_mem _ hpath')

theorem supersede_iff {key : LaneKey} {u : PUnit} :
    (supersede now key).run db = .ok u db' ↔
      (∀ id batch, db.claimedBatch key = some (id, batch) → batch.claimExpiresAt ≤ now) ∧ db' = db.withSuperseded now key := by
  constructor
  · exact supersede_ok
  · rintro ⟨hfree, rfl⟩
    simp only [supersede, run_get_bind]
    unfold Database.withSuperseded
    cases hclaimed : db.claimedBatch key with
    | none => simp
    | some claimed =>
      simp only [run_refuseIf_bind, run_set_ok, not_lt]
      exact ⟨hfree claimed.1 claimed.2 hclaimed, trivial⟩

theorem claimedBatch_iff (hone : OneClaim db) {key : LaneKey} {id : Uuid} {batch : BatchRow} :
    db.claimedBatch key = some (id, batch) ↔ db.batches.lookup id = some batch ∧ batch.key = key ∧ batch.status = .claimed := by
  constructor
  · exact claimedBatch_eq_some
  · rintro ⟨hbatch, hkey, hclaimed⟩
    cases hfound : db.claimedBatch key with
    | none => exact absurd hclaimed (claimedBatch_eq_none hfound hbatch hkey)
    | some found =>
      obtain ⟨id', batch'⟩ := found
      obtain ⟨hbatch', hkey', hclaimed'⟩ := claimedBatch_eq_some hfound
      obtain rfl := hone _ _ _ _ hbatch hbatch' hclaimed hclaimed' (hkey.trans hkey'.symm)
      obtain rfl := Option.some.inj (hbatch.symm.trans hbatch')
      rfl

/-- A batch once the claim of a lane is superseded. -/
theorem lookup_withSuperseded_of_some (hone : OneClaim db) {key : LaneKey} {id : Uuid} {batch : BatchRow}
    (hbatch : db.batches.lookup id = some batch) :
    (db.withSuperseded now key).batches.lookup id =
      some (if batch.key = key ∧ batch.status = .claimed then batch.stale now else batch) := by
  unfold Database.withSuperseded
  cases hfound : db.claimedBatch key with
  | none =>
    rw [if_neg fun h => claimedBatch_eq_none hfound hbatch h.1 h.2]
    exact hbatch
  | some found =>
    obtain ⟨id', batch'⟩ := found
    dsimp only
    rw [Table.lookup_modify]
    by_cases hid : id = id'
    · subst hid
      obtain ⟨hbatch', hkey, hclaimed⟩ := claimedBatch_eq_some hfound
      obtain rfl := Option.some.inj (hbatch.symm.trans hbatch')
      rw [if_pos rfl, if_pos ⟨hkey, hclaimed⟩, hbatch, Option.map_some]
    · rw [if_neg hid, if_neg, hbatch]
      rintro ⟨hkey, hclaimed⟩
      have hsome := (claimedBatch_iff hone).mpr ⟨hbatch, hkey, hclaimed⟩
      rw [hfound] at hsome
      obtain ⟨rfl, -⟩ := Prod.mk.inj (Option.some.inj hsome)
      exact hid rfl

/-- No batch of the lane is claimed once its claim is superseded. -/
theorem claimedBatch_withSuperseded (hone : OneClaim db) (key : LaneKey) :
    (db.withSuperseded now key).claimedBatch key = none := by
  cases hafter : (db.withSuperseded now key).claimedBatch key with
  | none => rfl
  | some claimed =>
    obtain ⟨id, batch⟩ := claimed
    obtain ⟨hlookup, hkey, hclaimed⟩ := claimedBatch_eq_some hafter
    obtain ⟨before, hbefore, -⟩ := lookup_withSuperseded hlookup
    rw [lookup_withSuperseded_of_some hone hbefore] at hlookup
    obtain rfl := Option.some.inj hlookup
    split_ifs at hkey hclaimed with h
    · cases hclaimed
    · exact absurd ⟨hkey, hclaimed⟩ h

theorem insertBatch_iff {id : Uuid} {batch : BatchRow} (hfree : db.claimedBatch batch.key = none)
    (hnew : db.batches.lookup id = none) {u : PUnit} :
    (insertBatch id batch).run db = .ok u db' ↔ db' = { db with batches := db.batches.insert id batch } := by
  simp only [insertBatch, run_get_bind, run_refuseIf_bind, run_required_bind, run_set_ok, Table.insertRow_eq_some]
  constructor
  · rintro ⟨-, _, ⟨-, rfl⟩, rfl⟩
    rfl
  · rintro rfl
    exact ⟨by simp [hfree], _, ⟨hnew, rfl⟩, rfl⟩

/-- The arguments of a well-formed request. -/
def argsOf (request : Journal.WellFormed) : ClaimArgs where
  identityId := some request.identity.text
  branch := some request.branch.text
  expectedProjectedHeadSha := request.expected.map Hex.text
  targetHeadSha := some request.target.text
  controlSha := some request.control.text
  topologySha := some request.topology.text
  files := some (request.files.map fun path => some path.text)
  claimOwner := some request.owner.text
  leaseSeconds := some request.leaseSeconds

/-- The row that a well-formed request inserts. -/
def rowOf (now : ℤ) (request : Journal.WellFormed) (claimToken : Uuid) : BatchRow :=
  claimRow now request.key request.expected request.target request.control request.topology claimToken request.owner.text
    request.leaseSeconds

/-- The lane of a request may be claimed. -/
structure Claimable (db : Database Other) (request : Journal.WellFormed) (now : ℤ) : Prop where
  lane : ∃ lane, db.laneState.lookup request.key = some lane ∧ lane.projectedHeadSha = request.expected ∧
    lane.controlSha = some request.control ∧ lane.topologySha = some request.topology
  free : ∀ id batch, db.claimedBatch request.key = some (id, batch) → batch.claimExpiresAt ≤ now

/-- The tables after a batch is claimed. -/
def Database.withClaim (db : Database Other) (now : ℤ) (request : Journal.WellFormed) (id claimToken : Uuid) : Database Other :=
  { db.withSuperseded now request.key with
    batches := (db.withSuperseded now request.key).batches.insert id (rowOf now request claimToken)
    batchFiles := addFiles now id (request.files.map Name.text) (db.withSuperseded now request.key).batchFiles }

theorem projectionClaimBatchV1_iff {request : Journal.WellFormed} {id claimToken : Uuid} (hone : OneClaim db)
    (hnew : db.batches.lookup id = none) (hfiles : ∀ path, db.batchFiles.lookup (id, path) = none) {result : Uuid × BatchRow} :
    (projectionClaimBatchV1 now id claimToken (argsOf request)).run db = .ok result db' ↔
      Claimable db request now ∧ result = (id, rowOf now request claimToken) ∧ db' = db.withClaim now request id claimToken := by
  have hexpected : nullableSha (request.expected.map Hex.text) = some request.expected := nullableSha_text request.expected
  have hlease : (some request.leaseSeconds).filter (fun lease => decide (0 < lease)) = some request.leaseSeconds := by
    simp [request.positive]
  have hvalid : ¬ ((request.files.map fun path => some path.text).any isBlank = true ∨
      (request.files.map fun path => some path.text).length ≠ (request.files.map fun path => some path.text).dedup.length) := by
    have hnodup : (request.files.map fun path => some path.text).Nodup := by
      have hmap := request.distinct.map (Option.some_injective String)
      rwa [List.map_map] at hmap
    rw [hnodup.dedup]
    simp [isBlank_name]
  have hreduce : (request.files.map fun path => some path.text).reduceOption = request.files.map Name.text := by
    change (request.files.map _).filterMap (fun path => path) = _
    rw [List.filterMap_map]
    exact congrFun List.filterMap_eq_map _
  simp only [projectionClaimBatchV1, run_required_bind, run_refuseIf_bind, run_get_bind, requireLane_bind]
  simp only [argsOf, Option.bind_some, hex?_text, hexpected, nonBlank_name, hlease, Option.getD_some, Option.some.injEq,
    exists_eq_left', hvalid, not_false_eq_true, true_and, hreduce]
  have hbatches : (db.withSuperseded now request.key).batches.lookup id = none := by
    rw [Option.eq_none_iff_forall_ne_some]
    intro batch hlookup
    obtain ⟨before, hbefore, -⟩ := lookup_withSuperseded hlookup
    rw [hnew] at hbefore
    cases hbefore
  have hbatchFiles : ∀ path ∈ request.files.map Name.text,
      (db.withSuperseded now request.key).batchFiles.lookup (id, path) = none := by
    intro path _
    rw [(withSuperseded_rest db now request.key).2.1]
    exact hfiles path
  have hinsert : ∀ {u : PUnit} {mid : Database Other},
      (insertBatch id (rowOf now request claimToken)).run (db.withSuperseded now request.key) = .ok u mid ↔ _ :=
    insertBatch_iff (claimedBatch_withSuperseded hone request.key) hbatches
  have hadd : ∀ {u : PUnit} {after : Database Other},
      (insertFiles now id (request.files.map Name.text)).run { db.withSuperseded now request.key with
        batches := (db.withSuperseded now request.key).batches.insert id (rowOf now request claimToken) } = .ok u after ↔
      after = db.withClaim now request id claimToken := insertFiles_iff request.distinct (by exact hbatchFiles)
  constructor
  · rintro ⟨lane, hlane, ⟨hbase, hcontrol, htopology⟩, h⟩
    obtain ⟨_, mid, hsupersede, h⟩ := run_bind_ok.mp h
    obtain ⟨hfree, rfl⟩ := supersede_iff.mp hsupersede
    obtain ⟨_, mid, hmid, h⟩ := run_bind_ok.mp h
    obtain rfl := hinsert.mp hmid
    obtain ⟨_, mid, hmid, h⟩ := run_bind_ok.mp h
    obtain rfl := hadd.mp hmid
    obtain ⟨rfl, rfl⟩ := run_pure_ok.mp h
    exact ⟨⟨⟨lane, hlane, hbase, hcontrol, htopology⟩, hfree⟩, rfl, rfl⟩
  · rintro ⟨⟨⟨lane, hlane, hbase, hcontrol, htopology⟩, hfree⟩, rfl, rfl⟩
    refine ⟨lane, hlane, ⟨hbase, hcontrol, htopology⟩, ?_⟩
    refine run_bind_ok.mpr ⟨⟨⟩, _, supersede_iff.mpr ⟨hfree, rfl⟩, ?_⟩
    refine run_bind_ok.mpr ⟨⟨⟩, _, hinsert.mpr rfl, ?_⟩
    refine run_bind_ok.mpr ⟨⟨⟩, _, hadd.mpr rfl, ?_⟩
    exact run_pure_ok.mpr ⟨rfl, rfl⟩

/-! ### Recording a result -/

/-- A result may be recorded: the batch is claimed and unexpired, and has the file, without a result or with the same. -/
structure Recordable (db : Database Other) (now : ℤ) (id claimToken : Uuid) (path : String) (state : FileState) : Prop where
  batch : ∃ batch, db.batches.lookup id = some batch ∧ batch.claimToken = claimToken ∧ batch.status = .claimed ∧
    (now : Timestamptz) < batch.claimExpiresAt
  file : ∃ file, db.batchFiles.lookup (id, path) = some file ∧ (file.state = .pending ∨ file.state = state)

theorem projectionRecordFileResultV1_iff {id claimToken : Uuid} {path text : String} {resultRef : Option String}
    {result : (Uuid × String) × FileRow} :
    (projectionRecordFileResultV1 now (some id) (some claimToken) (some path) (some text) resultRef).run db = .ok result db' ↔
      ∃ state, resultState text = some state ∧ Recordable db now id claimToken path state ∧
        result = ((id, path), ⟨state, resultRef, now⟩) ∧
        db' = { db with batchFiles := db.batchFiles.insert (id, path) ⟨state, resultRef, now⟩ } := by
  simp only [projectionRecordFileResultV1, run_refuseIf_bind, run_get_bind, run_required_bind, Option.bind_some,
    Option.some.injEq, exists_eq_left', differs_some_holds, not_or, not_not, not_le, Database.batch?]
  constructor
  · rintro ⟨-, batch, hbatch, ⟨htoken, hclaimed, hunexpired⟩, file, hfile, hresult, state, hstate, h⟩
    rw [hstate, differs_some_holds] at hresult
    obtain ⟨_, mid, hset, h⟩ := run_bind_ok.mp h
    obtain rfl := run_set_ok.mp hset
    obtain ⟨rfl, rfl⟩ := run_pure_ok.mp h
    exact ⟨state, hstate, ⟨⟨batch, hbatch, htoken, hclaimed, hunexpired⟩, file, hfile, by tauto⟩, rfl, rfl⟩
  · rintro ⟨state, hstate, ⟨⟨batch, hbatch, hrest⟩, file, hfile, hresult⟩, rfl, rfl⟩
    refine ⟨by simp [hstate], batch, hbatch, hrest, file, hfile, ?_, state, hstate, ?_⟩
    · rw [hstate, differs_some_holds]
      tauto
    · exact run_bind_ok.mpr ⟨⟨⟩, _, run_set_ok.mpr rfl, run_pure_ok.mpr ⟨rfl, rfl⟩⟩

end Projection

end CcbCore
