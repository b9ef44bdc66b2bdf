import CcbCore.Library.Raising
import CcbCore.Radar.Value
import CcbCore.Text.PosixPath

/-!
# Owners of visual assets

`validate_visual_profile` of `src/radar/visual_identity.py` and what it calls. An asset's path
is compared with `identities/<identity_id>/assets` part by part, and an identifier may be any
text that is not blank: `a` and `a/` own the same paths (`shared_asset`). Paths have one
owner, and stay outside the directory of the other identity, exactly when the directory of
each is apart from the asset directory of the other (`one_owner_iff`).
-/

namespace CcbCore.Radar.VisualIdentity

open CcbCore.CodePoints CcbCore.PosixPath CcbCore.Raising

variable {Opaque : Type}

/-! ### The source -/

/-- `_ALLOWED_SCOPES`. -/
def allowedScopes : List Str := [lit "portrait", lit "bus_avatar", lit "character"]

/-- `_ALLOWED_STATES`. -/
def allowedStates : List Str := [lit "PLACEHOLDER", lit "CANDIDATE", lit "CANONICAL", lit "RETIRED"]

/-- `_ALLOWED_CLAIM_TYPES`. -/
def allowedClaimTypes : List Str := [lit "self", lit "operator_override", lit "system_placeholder"]

/-- `_STYLE_CONTRACT_VERSION`. -/
def styleContractVersion : Str := lit "BUS_AVATAR_STYLE_V1"

/-- `_ASSET_BASE_PATH`. -/
def assetBasePath : PurePath := parse (lit "identities")

/-- `_SHA256_RE.fullmatch(text)`. -/
def isSha256 (text : Str) : Bool := isHexText 64 text

/-- `VisualAsset`. -/
structure VisualAsset (Opaque : Type) where
  assetId : Str
  scope : Str
  state : Str
  path : Str
  sha256 : Str
  claimedBy : Str
  claimType : Str
  claimedAt : Str
  sourceRef : Str
  supersedes : Value Opaque
  retiredAt : Value Opaque
  reviewAfter : Value Opaque

/-- `VisualProfile`. -/
structure VisualProfile (Opaque : Type) where
  identityId : Str
  displayName : Str
  styleContract : Str
  current : Mapping Opaque
  activeCandidate : Mapping Opaque
  assets : List (VisualAsset Opaque)

/-- What `validate_visual_profile` is called with. -/
inductive VisualData (Opaque : Type) where
  | raw (data : Mapping Opaque)
  | profile (profile : VisualProfile Opaque)

/-- `VisualIdentityError(code)`, a `ValueError`. -/
def visualIdentityError (code : String) : Raised := .valueError code

/-- `record.get(key, default)`. -/
def field (record : Mapping Opaque) (key : String) (default : Value Opaque) : Value Opaque :=
  (record.lookup (lit key)).getD default

/-- `_required_string`. -/
def requiredString (record : Mapping Opaque) (key : String) : Except Raised Str :=
  match field record key .null with
  | .str value =>
    if strip value = [] then .error (visualIdentityError ("MISSING_OR_INVALID_" ++ Python.upper key)) else .ok value
  | _ => .error (visualIdentityError ("MISSING_OR_INVALID_" ++ Python.upper key))

/-- `expected_prefix`. -/
def expectedPrefix (identityId : Str) : PurePath := (assetBasePath.join identityId).join (lit "assets")

/-- `_validate_asset_path`. -/
def validateAssetPath (path identityId : Str) : Except Raised PurePath := do
  let assetPath := parse path
  let expected := (expectedPrefix identityId).parts
  rejectIf (assetPath.isAbsolute = true ∨ lit ".." ∈ assetPath.parts) (visualIdentityError "ASSET_PATH_IDENTITY_MISMATCH")
  rejectIf (assetPath.parts.take expected.length ≠ expected) (visualIdentityError "ASSET_PATH_IDENTITY_MISMATCH")
  rejectIf (assetPath.parts.length ≤ expected.length) (visualIdentityError "ASSET_PATH_IDENTITY_MISMATCH")
  return assetPath

/-- A text that is not blank. -/
def isText : Value Opaque → Bool
  | .str value => strip value ≠ []
  | _ => false

/-- `_parse_asset`. -/
def parseAsset (identityId : Str) : Value Opaque → Except Raised (VisualAsset Opaque)
  | .object record => do
    let assetId ← requiredString record "asset_id"
    let scope ← requiredString record "scope"
    let state ← requiredString record "state"
    let path ← requiredString record "path"
    let sha256 ← requiredString record "sha256"
    let claimedBy ← requiredString record "claimed_by"
    let claimType ← requiredString record "claim_type"
    let claimedAt ← requiredString record "claimed_at"
    let sourceRef ← requiredString record "source_ref"
    rejectIf (scope ∉ allowedScopes) (visualIdentityError "UNKNOWN_VISUAL_SCOPE")
    rejectIf (state ∉ allowedStates) (visualIdentityError "UNKNOWN_VISUAL_STATE")
    rejectIf (claimType ∉ allowedClaimTypes) (visualIdentityError "UNKNOWN_CLAIM_TYPE")
    rejectIf (isSha256 sha256 = false) (visualIdentityError "INVALID_SHA256")
    let _ ← validateAssetPath path identityId
    let retiredAt := field record "retired_at" .null
    rejectIf (state = lit "RETIRED" ∧ isText retiredAt = false) (visualIdentityError "RETIRED_ASSET_MISSING_RETIRED_AT")
    return ⟨assetId, scope, state, path, sha256, claimedBy, claimType, claimedAt, sourceRef,
      field record "supersedes" .null, retiredAt, field record "review_after" .null⟩
  | _ => .error (.other "AttributeError")

/-- `_parse_asset` of each record of a list. -/
def parseAssets (identityId : Str) : Value Opaque → Except Raised (List (VisualAsset Opaque))
  | .array records => records.mapM (parseAsset identityId)
  | _ => .error (visualIdentityError "INVALID_ASSET_LIST")

/-- The profile of raw data, before what is checked between its fields. -/
def parseProfile (data : Mapping Opaque) : Except Raised (VisualProfile Opaque) := do
  let identityId ← requiredString data "identity_id"
  let displayName ← requiredString data "display_name"
  let styleContract ← requiredString data "style_contract"
  rejectIf (styleContract ≠ styleContractVersion) (visualIdentityError "UNKNOWN_STYLE_CONTRACT")
  let assets ← parseAssets identityId (field data "assets" (.array []))
  match field data "current" (.object []), field data "active_candidate" (.object []) with
  | .object current, .object activeCandidate =>
    return ⟨identityId, displayName, styleContract, current, activeCandidate, assets⟩
  | _, _ => .error (visualIdentityError "INVALID_CURRENT_POINTERS")

/-- An asset added to `by_id`. -/
def addAsset (byId : List (Str × VisualAsset Opaque)) (asset : VisualAsset Opaque) :
    Except Raised (List (Str × VisualAsset Opaque)) := do
  rejectIf (byId.lookup asset.assetId).isSome (visualIdentityError "DUPLICATE_ASSET_ID")
  return byId ++ [(asset.assetId, asset)]

/-- The canonical assets of a scope, in `canonical_by_scope`. -/
def canonicalByScope (assets : List (VisualAsset Opaque)) (scope : Str) : List (VisualAsset Opaque) :=
  assets.filter fun asset => asset.state == lit "CANONICAL" && asset.scope == scope

/-- A scope and the identifier of the asset that it points to. -/
def checkPointer (byId : List (Str × VisualAsset Opaque)) (state : Str) (code : String) (pointer : Str × Value Opaque) :
    Except Raised PUnit :=
  match pointer.2 with
  | .str assetId => do
    rejectIf (pointer.1 ∉ allowedScopes) (visualIdentityError code)
    match byId.lookup assetId with
    | some asset => rejectIf (asset.scope ≠ pointer.1 ∨ asset.state ≠ state) (visualIdentityError code)
    | none => .error (visualIdentityError code)
  | _ => .error (visualIdentityError code)

/-- What is checked between the fields of a profile. -/
def checkProfile (profile : VisualProfile Opaque) : Except Raised (VisualProfile Opaque) := do
  let byId ← profile.assets.foldlM addAsset []
  rejectIf (∃ asset ∈ profile.assets, 1 < (canonicalByScope profile.assets asset.scope).length)
    (visualIdentityError "MULTIPLE_CANONICAL_ASSETS_FOR_SCOPE")
  profile.current.forM (checkPointer byId (lit "CANONICAL") "CURRENT_ASSET_INVALID")
  profile.activeCandidate.forM (checkPointer byId (lit "CANDIDATE") "ACTIVE_CANDIDATE_INVALID")
  return profile

/-- `validate_visual_profile`. -/
def validateVisualProfile : VisualData Opaque → Except Raised (VisualProfile Opaque)
  | .raw data => parseProfile data >>= checkProfile
  | .profile profile => checkProfile profile

/-! ### What is claimed of paths -/

/-- A path that is accepted with the profile of an identity, from raw data. -/
def Accepted (Opaque : Type) (identityId path : Str) : Prop :=
  ∃ (data : Mapping Opaque) (profile : VisualProfile Opaque), validateVisualProfile (.raw data) = .ok profile ∧
    profile.identityId = identityId ∧ ∃ asset ∈ profile.assets, asset.path = path

/-- Where `identities/<identity_id>` is. -/
def identityDirectory (repository : Location) (identityId : Str) : Location :=
  repository.locate (assetBasePath.join identityId)

/-- Where `identities/<identity_id>/assets` is. -/
def assetDirectory (repository : Location) (identityId : Str) : Location :=
  repository.locate (expectedPrefix identityId)

/-- The paths of one identity are below its asset directory, and outside the directory of the
other. -/
def Confined (Opaque : Type) (repository : Location) (identityId other : Str) : Prop :=
  ∀ path, Accepted Opaque identityId path →
    (repository.locate (parse path)).StrictlyBelow (assetDirectory repository identityId) ∧
      ¬ (repository.locate (parse path)).Within (identityDirectory repository other)

/-- No path is accepted for both identities, and the paths of each are confined. -/
structure OneOwner (Opaque : Type) (repository : Location) (identityId other : Str) : Prop where
  single : ∀ path, ¬ (Accepted Opaque identityId path ∧ Accepted Opaque other path)
  confined : Confined Opaque repository identityId other
  otherConfined : Confined Opaque repository other identityId

/-- An identifier that asset paths can begin with: relative, and without `..`. -/
def Owns (identityId : Str) : Prop := (parse identityId).root = .relative ∧ up ∉ (parse identityId).segments

/-- The asset directory of an identity, if it can have assets, neither holds the directory of the
other nor is in it. -/
def Clear (repository : Location) (identityId other : Str) : Prop :=
  Owns identityId →
    ¬ (assetDirectory repository identityId).Within (identityDirectory repository other) ∧
      ¬ (identityDirectory repository other).Within (assetDirectory repository identityId)

/-! ### What is accepted -/

variable {record : Mapping Opaque} {key : String} {value path identityId other : Str} {repository : Location}

theorem requiredString_ok :
    requiredString record key = .ok value ↔ record.lookup (lit key) = some (.str value) ∧ strip value ≠ [] := by
  unfold requiredString field
  cases hfield : record.lookup (lit key) with
  | none => simp
  | some found =>
    cases found with
    | str text =>
      by_cases htext : strip text = []
      · simp only [Option.getD_some, if_pos htext, reduceCtorEq, Option.some.injEq, Value.str.injEq, false_iff, not_and]
        rintro rfl hne
        exact hne htext
      · simp only [Option.getD_some, if_neg htext, Except.ok.injEq, Option.some.injEq, Value.str.injEq]
        exact ⟨fun h => ⟨h, h ▸ htext⟩, fun h => h.1⟩
    | _ => simp

/-- `identities`. -/
def identities : Segment := ⟨lit "identities", by decide⟩

/-- `assets`. -/
def assets : Segment := ⟨lit "assets", by decide⟩

/-- The segments that the asset paths of an identity begin with. -/
def ownSegments (identityId : Str) : List Segment := identities :: (parse identityId).segments ++ [assets]

theorem up_not_mem_ownSegments (h : Owns identityId) : up ∉ ownSegments identityId := by
  simp only [ownSegments, List.mem_append, List.mem_cons, List.not_mem_nil, or_false, not_or]
  exact ⟨⟨by decide, h.2⟩, by decide⟩

theorem parse_segment (segment : Segment) : parse segment.1 = ⟨.relative, [segment]⟩ := by
  have hread := parse_text (List.cons_ne_nil segment [])
  rwa [text, List.map_singleton, List.intercalate_singleton] at hread

theorem parse_identities : parse (lit "identities") = ⟨.relative, [identities]⟩ := parse_segment identities

theorem parse_assets : parse (lit "assets") = ⟨.relative, [assets]⟩ := parse_segment assets

theorem expectedPrefix_eq :
    expectedPrefix identityId =
      if (parse identityId).root = .relative then ⟨.relative, ownSegments identityId⟩
      else ⟨(parse identityId).root, (parse identityId).segments ++ [assets]⟩ := by
  rw [expectedPrefix, PurePath.join, parse_assets, if_pos rfl, assetBasePath, PurePath.join, parse_identities]
  split <;> rfl

theorem mem_parts_up {assetPath : PurePath} (h : assetPath.root = .relative) :
    lit ".." ∈ assetPath.parts ↔ up ∈ assetPath.segments := by
  rw [PurePath.parts, h, Root.parts, List.nil_append, List.mem_map]
  constructor
  · rintro ⟨segment, hmem, hup⟩
    exact (Subtype.ext hup : segment = up) ▸ hmem
  · exact fun hmem => ⟨up, hmem, rfl⟩

/-- The parts of an absolute prefix begin with a root, which no relative path has among its parts. -/
theorem not_prefix_of_absolute {root : Root} {segments segments' : List Segment} (h : root ≠ .relative) :
    ¬ (PurePath.mk root segments).parts <+: (PurePath.mk .relative segments').parts := by
  rintro ⟨rest, hrest⟩
  have hslash : ∃ part ∈ (PurePath.mk root segments).parts, slash ∈ part := by
    cases root with
    | relative => exact absurd rfl h
    | single => exact ⟨lit "/", by simp [PurePath.parts, Root.parts], by decide⟩
    | double => exact ⟨lit "//", by simp [PurePath.parts, Root.parts], by decide⟩
  obtain ⟨part, hpart, hmem⟩ := hslash
  have hpart' : part ∈ (PurePath.mk .relative segments').parts := hrest ▸ List.mem_append_left _ hpart
  rw [PurePath.parts, Root.parts, List.nil_append] at hpart'
  obtain ⟨segment, -, rfl⟩ := List.mem_map.mp hpart'
  exact segment.2.2.2 hmem

/-- A path is valid when its segments begin with those that the identity's paths begin with, and
go on. -/
theorem validateAssetPath_ok : (∃ assetPath, validateAssetPath path identityId = .ok assetPath) ↔
    Owns identityId ∧ ∃ rest, rest ≠ [] ∧ up ∉ rest ∧ parse path = ⟨.relative, ownSegments identityId ++ rest⟩ := by
  simp only [validateAssetPath, except_bind_ok, rejectIf_ok, except_pure_ok, exists_const, not_or, not_not, Nat.not_le]
  constructor
  · rintro ⟨assetPath, ⟨habsolute, hup⟩, hprefix, hlength, rfl⟩
    have hrelative : (parse path).root = .relative := by simpa [PurePath.isAbsolute] using habsolute
    have hshape : parse path = ⟨.relative, (parse path).segments⟩ := by rw [← hrelative]
    rw [mem_parts_up hrelative] at hup
    have hstart : (expectedPrefix identityId).parts <+: (parse path).parts := List.prefix_iff_eq_take.mpr hprefix.symm
    rw [expectedPrefix_eq] at hstart hlength
    by_cases hroot : (parse identityId).root = .relative
    · rw [if_pos hroot] at hstart hlength
      rw [hshape] at hstart hlength
      simp only [PurePath.parts, Root.parts, List.nil_append, List.length_map] at hstart hlength
      obtain ⟨rest, hrest⟩ := (List.prefix_map_iff_of_injective Subtype.val_injective).mp hstart
      have hup' : up ∉ ownSegments identityId ++ rest := hrest ▸ hup
      refine ⟨⟨hroot, fun hmem => hup' ?_⟩, rest, ?_, fun hmem => hup' (List.mem_append_right _ hmem), ?_⟩
      · exact List.mem_append_left _ (List.mem_append_left _ (List.mem_cons_of_mem _ hmem))
      · rintro rfl
        rw [List.append_nil] at hrest
        rw [hrest] at hlength
        exact Nat.lt_irrefl _ hlength
      · rw [hshape, ← hrest]
    · rw [if_neg hroot, hshape] at hstart
      exact absurd hstart (not_prefix_of_absolute hroot)
  · rintro ⟨⟨hroot, hup⟩, rest, hrest, hup', hpath⟩
    have hown : up ∉ ownSegments identityId ++ rest :=
      List.not_mem_append (up_not_mem_ownSegments ⟨hroot, hup⟩) hup'
    have hparts : (expectedPrefix identityId).parts = (ownSegments identityId).map Subtype.val := by
      rw [expectedPrefix_eq, if_pos hroot, PurePath.parts, Root.parts, List.nil_append]
    refine ⟨parse path, ⟨?_, ?_⟩, ?_, ?_, rfl⟩
    · simp [hpath, PurePath.isAbsolute]
    · rwa [hpath, mem_parts_up rfl]
    · rw [hparts, hpath, PurePath.parts, Root.parts, List.nil_append, List.map_append, List.take_left]
    · rw [hparts, hpath, PurePath.parts, Root.parts, List.nil_append, List.map_append, List.length_append, List.length_map]
      exact Nat.lt_add_of_pos_right (List.length_pos_iff.mpr (mt List.map_eq_nil_iff.mp hrest))

/-! ### Profiles -/

variable {data : Mapping Opaque} {profile : VisualProfile Opaque} {asset : VisualAsset Opaque}

theorem checkProfile_eq {profile' : VisualProfile Opaque} (h : checkProfile profile = .ok profile') : profile' = profile := by
  simp only [checkProfile, except_bind_ok, except_pure_ok] at h
  obtain ⟨-, -, -, -, -, -, -, -, rfl⟩ := h
  rfl

/-- The path of an asset is not blank, and valid. -/
theorem parseAsset_path {record : Value Opaque} (h : parseAsset identityId record = .ok asset) :
    strip asset.path ≠ [] ∧ ∃ assetPath, validateAssetPath asset.path identityId = .ok assetPath := by
  cases record with
  | object record =>
    simp only [parseAsset, except_bind_ok, rejectIf_ok, except_pure_ok, exists_const] at h
    obtain ⟨_, -, _, -, _, -, path, hpath, _, -, _, -, _, -, _, -, _, -, -, -, -, -, assetPath, hvalid, -, rfl⟩ := h
    exact ⟨(requiredString_ok.mp hpath).2, assetPath, hvalid⟩
  | _ => cases h

/-- An accepted profile is of an identifier that is not blank, and each of its paths is valid. -/
theorem validateVisualProfile_ok (h : validateVisualProfile (.raw data) = .ok profile) :
    strip profile.identityId ≠ [] ∧ ∀ asset ∈ profile.assets,
      strip asset.path ≠ [] ∧ ∃ assetPath, validateAssetPath asset.path profile.identityId = .ok assetPath := by
  rw [validateVisualProfile, except_bind_ok] at h
  obtain ⟨parsed, hparsed, hchecked⟩ := h
  obtain rfl := checkProfile_eq hchecked
  simp only [parseProfile, except_bind_ok, rejectIf_ok, exists_const] at hparsed
  obtain ⟨identityId, hid, _, -, _, -, -, assets, hassets, hparsed⟩ := hparsed
  split at hparsed
  · rw [except_pure_ok] at hparsed
    subst hparsed
    refine ⟨(requiredString_ok.mp hid).2, fun asset hasset => ?_⟩
    unfold parseAssets at hassets
    split at hassets
    · obtain ⟨record, -, hrecord⟩ := exists_of_forall₂ (forall₂_of_mapM_ok hassets).flip hasset
      exact parseAsset_path hrecord
    · cases hassets
  · cases hparsed

/-- A record of an asset. -/
def recordOf (path : Str) : Mapping Opaque :=
  [(lit "asset_id", .str (lit "radar-1")), (lit "scope", .str (lit "portrait")), (lit "state", .str (lit "CANDIDATE")),
    (lit "path", .str path), (lit "sha256", .str (List.replicate 64 0x30)), (lit "claimed_by", .str (lit "radar")),
    (lit "claim_type", .str (lit "self")), (lit "claimed_at", .str (lit "2026-09-06T14:30:00Z")),
    (lit "source_ref", .str (lit "main"))]

/-- Raw data of an identity with that asset. -/
def dataOf (identityId path : Str) : Mapping Opaque :=
  [(lit "identity_id", .str identityId), (lit "display_name", .str (lit "Radar")), (lit "style_contract", .str styleContractVersion),
    (lit "assets", .array [.object (recordOf path)])]

/-- The asset. -/
def assetOf (path : Str) : VisualAsset Opaque :=
  ⟨lit "radar-1", lit "portrait", lit "CANDIDATE", path, List.replicate 64 0x30, lit "radar", lit "self",
    lit "2026-09-06T14:30:00Z", lit "main", .null, .null, .null⟩

/-- The profile. -/
def profileOf (identityId path : Str) : VisualProfile Opaque :=
  ⟨identityId, lit "Radar", styleContractVersion, [], [], [assetOf path]⟩

theorem parseAsset_recordOf (hpath : strip path ≠ []) {assetPath : PurePath}
    (hvalid : validateAssetPath path identityId = .ok assetPath) :
    parseAsset identityId (.object (recordOf path) : Value Opaque) = .ok (assetOf path) := by
  have hfield : ∀ field ∈ [("asset_id", lit "radar-1"), ("scope", lit "portrait"), ("state", lit "CANDIDATE"),
      ("sha256", List.replicate 64 0x30), ("claimed_by", lit "radar"), ("claim_type", lit "self"),
      ("claimed_at", lit "2026-09-06T14:30:00Z"), ("source_ref", lit "main")],
      requiredString (recordOf path : Mapping Opaque) field.1 = .ok field.2 := by
    simp only [List.forall_mem_cons, List.not_mem_nil, false_imp_iff, implies_true, and_true, requiredString_ok]
    exact ⟨⟨rfl, by decide⟩, ⟨rfl, by decide⟩, ⟨rfl, by decide⟩, ⟨rfl, by decide⟩, ⟨rfl, by decide⟩, ⟨rfl, by decide⟩,
      ⟨rfl, by decide⟩, ⟨rfl, by decide⟩⟩
  simp only [List.forall_mem_cons, List.not_mem_nil, false_imp_iff, implies_true, and_true] at hfield
  obtain ⟨hassetId, hscope, hstate, hsha256, hclaimedBy, hclaimType, hclaimedAt, hsourceRef⟩ := hfield
  have hpath' : requiredString (recordOf path : Mapping Opaque) "path" = .ok path := requiredString_ok.mpr ⟨rfl, hpath⟩
  simp only [parseAsset, except_bind_ok, rejectIf_ok, except_pure_ok, exists_const]
  exact ⟨_, hassetId, _, hscope, _, hstate, _, hpath', _, hsha256, _, hclaimedBy, _, hclaimType, _, hclaimedAt, _, hsourceRef,
    by decide, by decide, by decide, by decide, _, hvalid, fun h => absurd h.1 (by decide), rfl⟩

theorem parseProfile_dataOf (hid : strip identityId ≠ []) (hpath : strip path ≠ []) {assetPath : PurePath}
    (hvalid : validateAssetPath path identityId = .ok assetPath) :
    parseProfile (dataOf identityId path : Mapping Opaque) = .ok (profileOf identityId path) := by
  have hassets : parseAssets identityId (field (dataOf identityId path : Mapping Opaque) "assets" (.array [])) =
      .ok [assetOf path] := by
    have hlist : field (dataOf identityId path : Mapping Opaque) "assets" (.array []) = .array [.object (recordOf path)] := rfl
    rw [hlist, parseAssets, List.mapM_cons, parseAsset_recordOf hpath hvalid]
    rfl
  simp only [parseProfile, except_bind_ok, rejectIf_ok, exists_const]
  exact ⟨_, requiredString_ok.mpr ⟨rfl, hid⟩, _, requiredString_ok.mpr ⟨rfl, by decide⟩, _,
    requiredString_ok.mpr ⟨rfl, by decide⟩, not_not.mpr rfl, _, hassets, rfl⟩

theorem checkProfile_profileOf :
    checkProfile (profileOf identityId path : VisualProfile Opaque) = .ok (profileOf identityId path) := by
  have hcanonical : ¬ ∃ asset ∈ [(assetOf path : VisualAsset Opaque)],
      1 < (canonicalByScope [(assetOf path : VisualAsset Opaque)] asset.scope).length := by
    rintro ⟨asset, -, hmany⟩
    exact absurd hmany (Nat.not_lt_zero 1)
  simp only [checkProfile, except_bind_ok, rejectIf_ok, except_pure_ok]
  exact ⟨[(lit "radar-1", assetOf path)], rfl, ⟨⟩, hcanonical, ⟨⟩, rfl, ⟨⟩, rfl, trivial⟩

theorem validate_dataOf (hid : strip identityId ≠ []) (hpath : strip path ≠ []) {assetPath : PurePath}
    (hvalid : validateAssetPath path identityId = .ok assetPath) :
    validateVisualProfile (.raw (dataOf identityId path : Mapping Opaque)) = .ok (profileOf identityId path) :=
  except_bind_ok.mpr ⟨_, parseProfile_dataOf hid hpath hvalid, checkProfile_profileOf⟩

/-- A path is accepted for an identity when neither is blank and the path is valid. -/
theorem accepted_iff : Accepted Opaque identityId path ↔
    strip identityId ≠ [] ∧ strip path ≠ [] ∧ ∃ assetPath, validateAssetPath path identityId = .ok assetPath := by
  constructor
  · rintro ⟨data, profile, hprofile, rfl, asset, hasset, rfl⟩
    obtain ⟨hid, hassets⟩ := validateVisualProfile_ok hprofile
    exact ⟨hid, hassets asset hasset⟩
  · rintro ⟨hid, hpath, assetPath, hvalid⟩
    exact ⟨_, _, validate_dataOf hid hpath hvalid, rfl, _, List.mem_singleton_self _, rfl⟩

/-! ### Where the paths are -/

theorem assetBasePath_join (h : Owns identityId) :
    assetBasePath.join identityId = ⟨.relative, identities :: (parse identityId).segments⟩ := by
  rw [assetBasePath, parse_identities, PurePath.join, if_pos h.1]
  rfl

theorem identityDirectory_segments (h : Owns identityId) :
    (identityDirectory repository identityId).segments = repository.segments ++ identities :: (parse identityId).segments := by
  rw [identityDirectory, assetBasePath_join h, Location.locate, if_pos rfl, Location.follow_segments]
  rw [List.mem_cons, not_or]
  exact ⟨by decide, h.2⟩

theorem assetDirectory_segments (h : Owns identityId) :
    (assetDirectory repository identityId).segments = repository.segments ++ ownSegments identityId := by
  rw [assetDirectory, expectedPrefix_eq, if_pos h.1, Location.locate, if_pos rfl,
    Location.follow_segments (up_not_mem_ownSegments h)]

/-- The asset directory of an identity is in its directory. -/
theorem assetDirectory_within (h : Owns identityId) :
    (assetDirectory repository identityId).Within (identityDirectory repository identityId) := by
  rw [Location.Within, assetDirectory_segments h, identityDirectory_segments h, ownSegments]
  exact ⟨[assets], by simp⟩

theorem locate_own (h : Owns identityId) {rest : List Segment} (hup : up ∉ rest)
    (hpath : parse path = ⟨.relative, ownSegments identityId ++ rest⟩) :
    (repository.locate (parse path)).segments = (assetDirectory repository identityId).segments ++ rest := by
  rw [hpath, Location.locate, if_pos rfl, assetDirectory_segments h, List.append_assoc,
    Location.follow_segments (List.not_mem_append (up_not_mem_ownSegments h) hup)]

/-- An accepted path leads below the asset directory of an identity that can have assets. -/
theorem accepted_below (repository : Location) (h : Accepted Opaque identityId path) :
    Owns identityId ∧ ∃ rest, rest ≠ [] ∧
      (repository.locate (parse path)).segments = (assetDirectory repository identityId).segments ++ rest := by
  obtain ⟨-, -, hvalid⟩ := accepted_iff.mp h
  obtain ⟨howns, rest, hrest, hup, hpath⟩ := validateAssetPath_ok.mp hvalid
  exact ⟨howns, rest, hrest, locate_own howns hup hpath⟩

theorem strip_text_ne_nil (segments : List Segment) : strip (text (identities :: segments)) ≠ [] := by
  rw [ne_eq, strip_eq_nil_iff, Bool.not_eq_true, isBlank, List.all_eq_false]
  refine ⟨0x69, ?_, by decide⟩
  cases segments <;> simp [text, identities, lit, point]

/-- Every location below the asset directory of an identity is that of an accepted path. -/
theorem exists_accepted (Opaque : Type) (repository : Location) (hid : strip identityId ≠ []) (howns : Owns identityId) {rest : List Segment} (hrest : rest ≠ [])
    (hup : up ∉ rest) : ∃ path, Accepted Opaque identityId path ∧
      (repository.locate (parse path)).segments = (assetDirectory repository identityId).segments ++ rest := by
  have hpath : parse (text (ownSegments identityId ++ rest)) = ⟨.relative, ownSegments identityId ++ rest⟩ :=
    parse_text (by simp [hrest])
  have hvalid := validateAssetPath_ok.mpr ⟨howns, rest, hrest, hup, hpath⟩
  exact ⟨_, accepted_iff.mpr ⟨hid, strip_text_ne_nil _, hvalid⟩, locate_own howns hup hpath⟩

/-! ### One owner -/

/-- The paths of an identity are confined when its asset directory is clear of the other's
directory. -/
theorem Clear.confined (h : Clear repository identityId other) : Confined Opaque repository identityId other := by
  intro path hpath
  obtain ⟨howns, rest, hrest, hlocation⟩ := accepted_below repository hpath
  have hin : (repository.locate (parse path)).Within (assetDirectory repository identityId) := ⟨rest, hlocation.symm⟩
  refine ⟨⟨hin, fun heq => hrest ?_⟩, fun hwithin => ?_⟩
  · rw [hlocation] at heq
    simpa using heq
  · obtain ⟨hnot, hnot'⟩ := h howns
    rcases List.prefix_or_prefix_of_prefix hwithin hin with hdir | hdir
    · exact hnot hdir
    · exact hnot' hdir

/-- If the asset directory of an identity is not clear of the other's directory, one of its paths
leads there. -/
theorem Confined.clear (h : Confined Opaque repository identityId other) (hid : strip identityId ≠ []) :
    Clear repository identityId other := by
  intro howns
  constructor
  · intro hwithin
    obtain ⟨path, hpath, hlocation⟩ := exists_accepted Opaque repository hid howns
      (List.cons_ne_nil assets []) (by decide)
    refine (h path hpath).2 (hwithin.trans ?_)
    rw [hlocation]
    exact List.prefix_append _ _
  · rintro ⟨rest, hrest⟩
    have hup : up ∉ rest ++ [assets] := by
      refine List.not_mem_append (fun hmem => (identityDirectory repository other).resolved ?_) (by decide)
      rw [← hrest]
      exact List.mem_append_right _ hmem
    obtain ⟨path, hpath, hlocation⟩ := exists_accepted Opaque repository hid howns
      (by simp : rest ++ [assets] ≠ []) hup
    refine (h path hpath).2 ?_
    rw [Location.Within, hlocation, ← List.append_assoc, hrest]
    exact List.prefix_append _ _

/-- The directories of different names are clear of each other. -/
theorem clear_of_segment {segment segment' : Segment} (h' : segment' ≠ up) (hne : segment ≠ segment') :
    Clear repository segment.1 segment'.1 := by
  intro howns
  have howns' : Owns segment'.1 := by
    rw [Owns, parse_segment]
    exact ⟨rfl, fun hmem => h' (List.mem_singleton.mp hmem).symm⟩
  rw [Location.Within, Location.Within, assetDirectory_segments howns, identityDirectory_segments howns', ownSegments,
    parse_segment, parse_segment]
  simp [List.prefix_append_right_inj, List.cons_prefix_cons, hne, Ne.symm hne]

/-- **Of two accepted profiles, no asset path is accepted for both identities and the paths of each
stay in its own asset directory and outside the directory of the other, exactly when the asset
directory of each is clear of the other's directory.** -/
theorem one_owner_iff (repository : Location) {data data' : Mapping Opaque} {first second : VisualProfile Opaque}
    (hfirst : validateVisualProfile (.raw data) = .ok first) (hsecond : validateVisualProfile (.raw data') = .ok second) :
    OneOwner Opaque repository first.identityId second.identityId ↔
      Clear repository first.identityId second.identityId ∧ Clear repository second.identityId first.identityId := by
  constructor
  · intro h
    exact ⟨h.confined.clear (validateVisualProfile_ok hfirst).1, h.otherConfined.clear (validateVisualProfile_ok hsecond).1⟩
  · rintro ⟨hclear, hclear'⟩
    refine ⟨?_, hclear.confined, hclear'.confined⟩
    rintro path ⟨hpath, hpath'⟩
    -- A path of the second identity is in its directory, which those of the first stay outside of.
    obtain ⟨howns, rest, -, hlocation⟩ := accepted_below repository hpath'
    refine (hclear.confined path hpath).2 ((assetDirectory_within howns).trans ?_)
    rw [hlocation]
    exact List.prefix_append _ _

/-- `a`. -/
def sampleSegment : Segment := ⟨lit "a", by decide⟩

/-- `b`. -/
def otherSegment : Segment := ⟨lit "b", by decide⟩

/-- A path in the asset directory of an identity. -/
def samplePath (identityId : String) : Str := lit ("identities/" ++ identityId ++ "/assets/x.png")

theorem valid_sample (h : (validateAssetPath path identityId).isOk = true) :
    ∃ assetPath, validateAssetPath path identityId = .ok assetPath := by
  cases hpath : validateAssetPath path identityId with
  | ok assetPath => exact ⟨assetPath, rfl⟩
  | error e => simp [hpath, Except.isOk, Except.toBool] at h

/-- The identities `a` and `b` share no asset path. -/
theorem one_owner_iff_sample : OneOwner Empty Location.root (lit "a") (lit "b") := by
  obtain ⟨assetPath, hvalid⟩ := valid_sample (show (validateAssetPath (samplePath "a") (lit "a")).isOk = true by decide +kernel)
  obtain ⟨otherPath, hother⟩ := valid_sample (show (validateAssetPath (samplePath "b") (lit "b")).isOk = true by decide +kernel)
  have hclear : Clear Location.root (lit "a") (lit "b") :=
    clear_of_segment (show otherSegment ≠ up by decide) (show sampleSegment ≠ otherSegment by decide)
  have hclear' : Clear Location.root (lit "b") (lit "a") :=
    clear_of_segment (show sampleSegment ≠ up by decide) (show otherSegment ≠ sampleSegment by decide)
  exact (one_owner_iff Location.root (validate_dataOf (by decide) (by decide +kernel) hvalid)
    (validate_dataOf (by decide) (by decide +kernel) hother)).mpr ⟨hclear, hclear'⟩

/-- The identities `a` and `a/` are different, and a path is accepted for both. -/
theorem shared_asset : lit "a" ≠ lit "a/" ∧
    (∃ (data : Mapping Empty) (profile : VisualProfile Empty), validateVisualProfile (.raw data) = .ok profile ∧
      profile.identityId = lit "a" ∧ ∃ asset ∈ profile.assets, asset.path = samplePath "a") ∧
    (∃ (data : Mapping Empty) (profile : VisualProfile Empty), validateVisualProfile (.raw data) = .ok profile ∧
      profile.identityId = lit "a/" ∧ ∃ asset ∈ profile.assets, asset.path = samplePath "a") ∧
    ¬ OneOwner Empty Location.root (lit "a") (lit "a/") := by
  have hpath : strip (samplePath "a") ≠ [] := by decide +kernel
  have hfirst : Accepted Empty (lit "a") (samplePath "a") :=
    accepted_iff.mpr ⟨by decide, hpath, valid_sample (by decide +kernel)⟩
  have hsecond : Accepted Empty (lit "a/") (samplePath "a") :=
    accepted_iff.mpr ⟨by decide, hpath, valid_sample (by decide +kernel)⟩
  exact ⟨by decide, hfirst, hsecond, fun h => h.single (samplePath "a") ⟨hfirst, hsecond⟩⟩

end CcbCore.Radar.VisualIdentity
