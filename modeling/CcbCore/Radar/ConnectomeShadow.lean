import CcbCore.Library.Raising
import CcbCore.Radar.Equality
import CcbCore.Radar.TextSize

/-!
# The identity shadow

`compare_identity_shadow` of `src/radar/sql_connectome_shadow.py`: the expected identities
against the first `N + 1` rows of a table, in the order of their `identity_id`. Both sides
are checked and folded by `_identities`, which takes rows exactly when `Valid` holds of them
(`identities_ok`). The one row more than expected is enough: the report is a match if and
only if the whole table is valid and its map of names is the expected one (`shadow_match_iff`).
-/

namespace CcbCore.Radar.ConnectomeShadow

open CcbCore.CodePoints CcbCore.Postgres CcbCore.Raising
open CcbCore.Python (Bytes)

variable {Opaque : Type}

/-! ### The source -/

/-- `_MAX_IDENTITIES`. -/
def maxIdentities : ℕ := 1000

/-- `_MAX_FIELD_BYTES`. -/
def maxFieldBytes : ℕ := 4096

/-- `_IDENTITY_SQL`. -/
def identitySql : String := "select identity_id, display_name from radar.identities order by identity_id limit %s"

/-- `_SHA1.fullmatch(text)`. -/
def isSha1 (text : Str) : Bool := isHexText 40 text

/-- What is passed for rows: a list or a tuple, with the length it says and the rows it yields,
or any other object. -/
inductive Rows (Opaque : Type) where
  | sequence (declared : ℕ) (rows : List (Value Opaque))
  | other

/-- `_bounded_text`. -/
def boundedText : Value Opaque → Except Raised Str
  | .str text => do
    rejectIf (maxFieldBytes < text.length) (.valueError "identity field exceeds text bound")
    let encoded ← (encodeText text).mapError fun _ => .valueError "invalid identity UTF-8 text"
    rejectIf (maxFieldBytes < encoded.size ∨ strip text = []) (.valueError "identity rows require bounded nonempty text")
    return strip text
  | _ => .error (.valueError "identity field exceeds text bound")

/-- `row.get(key)`. -/
def column (fields : Mapping Opaque) (key : String) : Value Opaque := (fields.lookup (lit key)).getD .null

/-- One row of the loop of `_identities`, with its index. -/
def addIdentity (unicode : Casefold) (identities : List (Str × Str)) (row : Value Opaque × ℕ) :
    Except Raised (List (Str × Str)) := do
  rejectIf (maxIdentities ≤ row.2) (.valueError "identity projection row budget exceeded")
  match row.1 with
  | .object fields =>
    let canonicalId := unicode.casefold (← boundedText (column fields "identity_id"))
    rejectIf (identities.lookup canonicalId).isSome (.valueError "duplicate normalized identity ID")
    let displayName ← boundedText (column fields "display_name")
    return identities ++ [(canonicalId, displayName)]
  | _ => .error (.valueError "identity rows must be mappings")

/-- `_identities`. -/
def identities (unicode : Casefold) : Rows Opaque → Except Raised (List (Str × Str))
  | .sequence declared rows => do
    rejectIf (maxIdentities < declared) (.valueError "identity projection must be a bounded list or tuple")
    return sortFields (← rows.zipIdx.foldlM (addIdentity unicode) [])
  | .other => .error (.valueError "identity projection must be a bounded list or tuple")

/-- `json.dumps(rows, ensure_ascii=True, separators=(",", ":"))`, of a tuple of pairs. -/
def rowsValue (rows : List (Str × Str)) : Value Opaque := .array (rows.map fun row => .array [.str row.1, .str row.2])

/-- `_digest`. -/
def digest (py : Interpreter Opaque) (rows : List (Str × Str)) : Except Raised (Hex 64) := do
  let text ← (rowsValue rows).text py ⟨lit ",", lit ":", true, false⟩
  return py.sha256 (← encodeText text)

/-- The `status` of a report. -/
inductive ShadowStatus where
  | unknown
  | mismatch
  | matchUnqualified
  deriving DecidableEq, Repr

/-- `ShadowIdentityReport`. -/
structure ShadowIdentityReport where
  status : ShadowStatus
  reason : String
  referenceSourceCommit : Option Str
  candidateSourceCommit : Option Str
  expectedDigest : Option (Hex 64)
  observedDigest : Option (Hex 64)

/-- A source pin: a text of 40 lowercase hexadecimal digits. -/
def sourcePin : Value Opaque → Option Str
  | .str text => if isSha1 text = true then some text else none
  | _ => none

/-- `compare_identity_shadow`. -/
def compareIdentityShadow (py : Interpreter Opaque) (expectedIdentities : Rows Opaque)
    (candidateRead : String → ℕ → Except Raised (Rows Opaque)) (referenceSourceCommit candidateSourceCommit : Value Opaque) :
    Except Raised ShadowIdentityReport :=
  match sourcePin referenceSourceCommit, sourcePin candidateSourceCommit with
  | some reference, some candidate =>
    match identities py.unicode expectedIdentities with
    | .error _ => .ok ⟨.unknown, "INVALID_EXPECTED_PROJECTION", some reference, some candidate, none, none⟩
    | .ok expected =>
      if expected = [] then .ok ⟨.unknown, "EMPTY_EXPECTED_PROJECTION", some reference, some candidate, none, none⟩
      else do
        let expectedDigest ← digest py expected
        match candidateRead identitySql (expected.length + 1) with
        | .error _ => return ⟨.unknown, "READBACK_UNAVAILABLE", some reference, some candidate, some expectedDigest, none⟩
        | .ok raw =>
          match identities py.unicode raw with
          | .error _ =>
            return ⟨.unknown, "INVALID_CANDIDATE_PROJECTION", some reference, some candidate, some expectedDigest, none⟩
          | .ok observed =>
            let observedDigest ← digest py observed
            if expected ≠ observed then
              return ⟨.mismatch, "IDENTITY_ROWS_DIFFER", some reference, some candidate, some expectedDigest, some observedDigest⟩
            return ⟨.matchUnqualified, "ONE_PROJECTION_MATCHES_ONLY", some reference, some candidate, some expectedDigest,
              some observedDigest⟩
  | _, _ => .ok ⟨.unknown, "INVALID_SOURCE_PIN", none, none, none, none⟩

/-! ### What a projection says -/

/-- The text of a field that is well formed, trimmed. -/
def boundedField : Value Opaque → Option Str
  | .str text => if encodable text = true ∧ textSize text ≤ maxFieldBytes ∧ isBlank text = false then some (strip text) else none
  | _ => none

/-- The identifier of a row that is well formed, in normal form, and its name. -/
def identityOf (unicode : Casefold) : Value Opaque → Option (Str × Str)
  | .object fields =>
    match boundedField (column fields "identity_id"), boundedField (column fields "display_name") with
    | some identityId, some displayName => some (unicode.casefold identityId, displayName)
    | _, _ => none
  | _ => none

/-- A projection that is bounded and well formed, and in which no two identifiers have one normal
form. -/
structure Valid (unicode : Casefold) (declared : ℕ) (rows : List (Value Opaque)) : Prop where
  bounded : declared ≤ maxIdentities ∧ rows.length ≤ maxIdentities
  formed : ∀ row ∈ rows, (identityOf unicode row).isSome = true
  distinct : ((rows.filterMap (identityOf unicode)).map (·.1)).Nodup

/-- From identifiers in normal form to names. -/
def identityMap (unicode : Casefold) (rows : List (Value Opaque)) (identityId : Str) : Option Str :=
  (rows.filterMap (identityOf unicode)).lookup identityId

/-- A row of the table, as a cursor gives it. -/
def tableRow (row : Value Opaque × Value Opaque) : Value Opaque :=
  .object [(lit "identity_id", row.1), (lit "display_name", row.2)]

/-- A reader of a table: it returns its first rows, in some order by `identity_id`. -/
def Reads (before : Value Opaque → Value Opaque → Prop) (table : List (Value Opaque × Value Opaque))
    (candidateRead : String → ℕ → Except Raised (Rows Opaque)) : Prop :=
  ∀ limit, ∃ rows : List (Value Opaque × Value Opaque), rows.Perm table ∧ rows.Pairwise (fun a b => before a.1 b.1) ∧
    candidateRead identitySql limit = .ok (.sequence (rows.take limit).length ((rows.take limit).map tableRow))

/-! ### Fields and rows -/

variable {unicode : Casefold} {declared : ℕ} {rows : List (Value Opaque)}

theorem length_le_textSize (text : Str) : text.length ≤ textSize text := by
  induction text with
  | nil => exact Nat.le_refl 0
  | cons c text ih =>
    have hpos : 1 ≤ utf8Size c := by
      unfold utf8Size
      split_ifs <;> omega
    rw [List.length_cons, textSize_cons]
    omega

/-- A bound on the bytes of a text is one on its length. -/
theorem boundedText_ok {value : Value Opaque} {text : Str} : boundedText value = .ok text ↔ boundedField value = some text := by
  cases value with
  | str raw =>
    simp only [boundedText, boundedField, except_bind_ok, rejectIf_ok, Option.ite_none_right_eq_some, Option.some.injEq,
      except_pure_ok, exists_const, strip_eq_nil_iff, not_or, Bool.not_eq_true]
    constructor
    · rintro ⟨-, bytes, hbytes, ⟨hsize, hblank⟩, rfl⟩
      cases hraw : encodeText raw with
      | error e =>
        rw [hraw] at hbytes
        cases hbytes
      | ok encoded =>
        rw [hraw] at hbytes
        obtain rfl : encoded = bytes := Except.ok.inj hbytes
        rw [size_encodeText hraw] at hsize
        exact ⟨⟨encodeText_ok.mp ⟨_, hraw⟩, by omega, hblank⟩, rfl⟩
    · rintro ⟨⟨henc, hsize, hblank⟩, rfl⟩
      obtain ⟨bytes, hraw⟩ := encodeText_ok.mpr henc
      have hle := length_le_textSize raw
      refine ⟨by omega, bytes, by rw [hraw]; rfl, ⟨?_, hblank⟩, rfl⟩
      rw [size_encodeText hraw]
      omega
  | _ => simp [boundedText, boundedField]

theorem lookup_eq_none_iff {α : Type} {entries : List (Str × α)} {key : Str} :
    entries.lookup key = none ↔ key ∉ entries.map (·.1) := by
  rw [List.lookup_eq_none_iff]
  simp only [bne_iff_ne, ne_eq, List.mem_map, not_exists, not_and]
  exact ⟨fun h entry hmem heq => h entry hmem heq.symm, fun h entry hmem heq => h entry hmem heq.symm⟩

/-- A row is taken when it is within the budget, well formed and of a new identifier. -/
theorem addIdentity_ok {taken taken' : List (Str × Str)} {row : Value Opaque × ℕ} :
    addIdentity unicode taken row = .ok taken' ↔
      row.2 < maxIdentities ∧ ∃ entry, identityOf unicode row.1 = some entry ∧ entry.1 ∉ taken.map (·.1) ∧
        taken ++ [entry] = taken' := by
  obtain ⟨value, index⟩ := row
  cases value with
  | object fields =>
    simp only [addIdentity, identityOf, except_bind_ok, rejectIf_ok, except_pure_ok, exists_const, Nat.not_le, boundedText_ok,
      Option.not_isSome_iff_eq_none, lookup_eq_none_iff]
    refine and_congr_right fun _ => ?_
    constructor
    · rintro ⟨identityId, hid, hnew, displayName, hname, rfl⟩
      exact ⟨_, by rw [hid, hname], hnew, rfl⟩
    · rintro ⟨entry, hentry, hnew, rfl⟩
      cases hid : boundedField (column fields "identity_id") with
      | none => simp [hid] at hentry
      | some identityId =>
        cases hname : boundedField (column fields "display_name") with
        | none => simp [hid, hname] at hentry
        | some displayName =>
          simp only [hid, hname, Option.some.injEq] at hentry
          subst hentry
          exact ⟨identityId, rfl, hnew, displayName, rfl, rfl⟩
  | _ => simp [addIdentity, identityOf, except_bind_ok]

/-- The rows from an index on are taken when they are within the budget and well formed, and no two
identifiers, of them and of those before, have one normal form. -/
theorem foldlM_addIdentity_ok {index : ℕ} {taken taken' : List (Str × Str)} (htaken : (taken.map (·.1)).Nodup) :
    (rows.zipIdx index).foldlM (addIdentity unicode) taken = .ok taken' ↔
      (rows = [] ∨ index + rows.length ≤ maxIdentities) ∧ (∀ row ∈ rows, (identityOf unicode row).isSome = true) ∧
        ((taken ++ rows.filterMap (identityOf unicode)).map (·.1)).Nodup ∧
        taken ++ rows.filterMap (identityOf unicode) = taken' := by
  induction rows generalizing index taken taken' with
  | nil => simp [htaken]
  | cons row rows ih =>
    rw [List.zipIdx_cons, List.foldlM_cons, except_bind_ok]
    simp only [addIdentity_ok]
    constructor
    · rintro ⟨_, ⟨hindex, entry, hentry, hnew, rfl⟩, hrest⟩
      have hnodup : ((taken ++ [entry]).map (·.1)).Nodup := by
        simpa [List.nodup_append, htaken] using fun a b hmem heq => hnew (List.mem_map.mpr ⟨(a, b), hmem, heq⟩)
      obtain ⟨hbudget, hformed, hdistinct, rfl⟩ := (ih hnodup).mp hrest
      refine ⟨.inr ?_, ?_, ?_, ?_⟩
      · rcases hbudget with rfl | hbudget
        · exact hindex
        · rw [List.length_cons]
          omega
      · exact List.forall_mem_cons.mpr ⟨by rw [hentry]; rfl, hformed⟩
      · rwa [List.filterMap_cons_some hentry, List.append_cons]
      · rw [List.filterMap_cons_some hentry, List.append_cons]
    · rintro ⟨hbudget, hformed, hdistinct, rfl⟩
      rw [List.forall_mem_cons] at hformed
      obtain ⟨entry, hentry⟩ := Option.isSome_iff_exists.mp hformed.1
      rw [List.filterMap_cons_some hentry, List.append_cons] at hdistinct ⊢
      have hnodup : ((taken ++ [entry]).map (·.1)).Nodup := by
        rw [List.map_append] at hdistinct
        exact hdistinct.of_append_left
      have hlen : index + (rows.length + 1) ≤ maxIdentities := by simpa using hbudget
      have hindex : index < maxIdentities := by omega
      have hrest : index + 1 + rows.length ≤ maxIdentities := by omega
      refine ⟨_, ⟨hindex, entry, hentry, ?_, rfl⟩, (ih hnodup).mpr ⟨.inr hrest, hformed.2, hdistinct, rfl⟩⟩
      rw [List.map_append, List.nodup_append] at hnodup
      exact fun hmem => hnodup.2.2 _ hmem _ (by simp) rfl

/-- `_identities` takes the rows of a valid projection, and gives its map, sorted. -/
theorem identities_ok {taken : List (Str × Str)} : identities unicode (.sequence declared rows) = .ok taken ↔
    Valid unicode declared rows ∧ sortFields (rows.filterMap (identityOf unicode)) = taken := by
  have hnil : (([] : List (Str × Str)).map (·.1)).Nodup := List.nodup_nil
  simp only [identities, except_bind_ok, rejectIf_ok, exists_const, Nat.not_lt, except_pure_ok, foldlM_addIdentity_ok hnil,
    List.nil_append, Nat.zero_add]
  constructor
  · rintro ⟨hdeclared, _, ⟨hbudget, hformed, hdistinct, rfl⟩, rfl⟩
    refine ⟨⟨⟨hdeclared, ?_⟩, hformed, hdistinct⟩, rfl⟩
    rcases hbudget with rfl | hbudget
    · exact Nat.zero_le _
    · exact hbudget
  · rintro ⟨hvalid, rfl⟩
    exact ⟨hvalid.bounded.1, _, ⟨.inr hvalid.bounded.2, hvalid.formed, hvalid.distinct, rfl⟩, rfl⟩

/-! ### Digests and maps -/

variable {py : Interpreter Opaque}

theorem isJson_rowsValue (entries : List (Str × Str)) : (rowsValue entries : Value Opaque).isJson = true := by
  rw [Value.isJson, rowsValue, Value.all]
  induction entries with
  | nil => rfl
  | cons entry entries ih => simpa [Value.allItems, Value.all] using ih

/-- A digest raises nothing. -/
theorem digest_ok (py : Interpreter Opaque) (entries : List (Str × Str)) : ∃ hash, digest py entries = .ok hash := by
  have hplain : Format.Plain ⟨lit ",", lit ":", true, false⟩ := ⟨encodable_lit _, encodable_lit _⟩
  obtain ⟨text, htext, henc⟩ : ∃ text, (rowsValue entries).text py ⟨lit ",", lit ":", true, false⟩ = .ok text ∧
      encodable text = (true || (rowsValue entries : Value Opaque).encodable) :=
    Value.text_json hplain (rowsValue entries) (isJson_rowsValue entries)
  obtain ⟨bytes, hbytes⟩ := encodeText_ok.mpr (henc.trans (Bool.true_or _))
  refine ⟨py.sha256 bytes, ?_⟩
  rw [digest, except_bind_ok]
  exact ⟨text, htext, except_bind_ok.mpr ⟨bytes, hbytes, rfl⟩⟩

/-- Entries of different keys are one map exactly when they are permuted. -/
theorem lookup_eq_iff_perm {entries entries' : List (Str × Str)} (h : (entries.map (·.1)).Nodup)
    (h' : (entries'.map (·.1)).Nodup) :
    (∀ key, entries.lookup key = entries'.lookup key) ↔ entries.Perm entries' := by
  rw [List.perm_ext_iff_of_nodup h.of_map h'.of_map]
  constructor
  · rintro hlookup ⟨key, name⟩
    rw [← lookup_iff_mem h, ← lookup_iff_mem h', hlookup]
  · refine fun hmem key => Option.ext fun name => ?_
    rw [lookup_iff_mem h, lookup_iff_mem h']
    exact hmem (key, name)

/-- Entries of different keys are sorted into the same list exactly when they are permuted. -/
theorem sortFields_eq_iff_perm {entries entries' : List (Str × Str)} (h : (entries.map (·.1)).Nodup) :
    sortFields entries = sortFields entries' ↔ entries.Perm entries' := by
  constructor
  · intro heq
    exact (sortFields_perm entries).symm.trans (heq ▸ sortFields_perm entries')
  · intro hperm
    have hsorted := (sortFields_perm entries).trans (hperm.trans (sortFields_perm entries').symm)
    refine hsorted.eq_of_pairwise (fun a b ha hb hle hge => ?_) (List.pairwise_insertionSort (KeyLe Str) _)
      (List.pairwise_insertionSort (KeyLe Str) _)
    have ha' := (sortFields_perm entries).mem_iff.mp ha
    have hb' := hperm.mem_iff.mpr ((sortFields_perm entries').mem_iff.mp hb)
    exact List.inj_on_of_nodup_map h ha' hb' (Str.le_antisymm hle hge)

theorem filterMap_length {rows : List (Value Opaque)} (h : ∀ row ∈ rows, (identityOf unicode row).isSome = true) :
    (rows.filterMap (identityOf unicode)).length = rows.length := by
  rw [List.length_filterMap_eq_countP, List.countP_eq_length]
  exact h

theorem Valid.perm {rows' : List (Value Opaque)} (h : Valid unicode declared rows) (hperm : rows.Perm rows') :
    Valid unicode declared rows' :=
  ⟨⟨h.bounded.1, hperm.length_eq ▸ h.bounded.2⟩, fun row hrow => h.formed row (hperm.mem_iff.mpr hrow),
    ((hperm.filterMap _).map _).nodup_iff.mp h.distinct⟩

/-! ### The comparison -/

/-- A report says that the projections match exactly when both are valid, the expected one is not
empty, and what is read gives the same map. -/
theorem compareIdentityShadow_matches {expected : Rows Opaque} {candidateRead : String → ℕ → Except Raised (Rows Opaque)}
    {reference candidate : Str} (hreference : isSha1 reference = true) (hcandidate : isSha1 candidate = true) :
    ∃ report, compareIdentityShadow py expected candidateRead (.str reference) (.str candidate) = .ok report ∧
      (report.status = .matchUnqualified ↔
        ∃ taken raw, identities py.unicode expected = .ok taken ∧ taken ≠ [] ∧
          candidateRead identitySql (taken.length + 1) = .ok raw ∧ identities py.unicode raw = .ok taken) := by
  simp only [compareIdentityShadow, sourcePin, hreference, hcandidate, if_true]
  cases hexpected : identities py.unicode expected with
  | error e => exact ⟨_, rfl, by simp⟩
  | ok taken =>
    simp only [Except.ok.injEq, exists_and_left, exists_eq_left']
    by_cases hempty : taken = []
    · simp only [if_pos hempty]
      exact ⟨_, rfl, by simp [hempty]⟩
    · obtain ⟨expectedDigest, hdigest⟩ := digest_ok py taken
      simp only [if_neg hempty, hdigest, bind, Except.bind, pure, Except.pure]
      cases hread : candidateRead identitySql (taken.length + 1) with
      | error e => exact ⟨_, rfl, by simp⟩
      | ok raw =>
        simp only [Except.ok.injEq, exists_eq_left']
        cases hobserved : identities py.unicode raw with
        | error e => exact ⟨_, rfl, by simp⟩
        | ok observed =>
          obtain ⟨observedDigest, hdigest'⟩ := digest_ok py observed
          simp only [hdigest']
          by_cases hsame : taken = observed
          · subst hsame
            simp only [ne_eq, not_true_eq_false, if_false]
            exact ⟨_, rfl, by simp [hempty]⟩
          · simp only [ne_eq, hsame, not_false_eq_true, if_true]
            exact ⟨_, rfl, by simp [eq_comm, hsame]⟩

/-- What the reader returns is valid and gives the expected map exactly when the whole table is and
does: were there a row more than expected, it would be among those read. -/
theorem reads_iff {table rows : List (Value Opaque × Value Opaque)} {taken : List (Str × Str)} (hperm : rows.Perm table) :
    identities unicode (.sequence (rows.take (taken.length + 1)).length ((rows.take (taken.length + 1)).map tableRow)) =
        .ok taken ↔
      Valid unicode table.length (table.map tableRow) ∧
        sortFields ((table.map tableRow).filterMap (identityOf unicode)) = taken := by
  have hmap : (rows.map tableRow).Perm (table.map tableRow) := hperm.map tableRow
  have hwhole : Valid unicode table.length (table.map tableRow) →
      sortFields ((rows.map tableRow).filterMap (identityOf unicode)) =
        sortFields ((table.map tableRow).filterMap (identityOf unicode)) := fun hvalid =>
    ((sortFields_eq_iff_perm hvalid.distinct).mpr (hmap.filterMap _).symm).symm
  rw [identities_ok]
  constructor
  · rintro ⟨hvalid, htaken⟩
    have hlength : taken.length = min (taken.length + 1) rows.length := by
      have hsort := (sortFields_perm (((rows.take (taken.length + 1)).map tableRow).filterMap (identityOf unicode))).length_eq
      rw [htaken, filterMap_length hvalid.formed, List.length_map, List.length_take] at hsort
      exact hsort
    rw [List.take_of_length_le (by omega)] at hvalid htaken
    have hvalid' : Valid unicode table.length (table.map tableRow) := by
      rw [← hperm.length_eq]
      exact hvalid.perm hmap
    exact ⟨hvalid', (hwhole hvalid').symm.trans htaken⟩
  · rintro ⟨hvalid, rfl⟩
    have hlength := (sortFields_perm ((table.map tableRow).filterMap (identityOf unicode))).length_eq
    rw [filterMap_length hvalid.formed, List.length_map] at hlength
    rw [List.take_of_length_le (by rw [hlength, hperm.length_eq]; omega), hperm.length_eq]
    exact ⟨hvalid.perm hmap.symm, hwhole hvalid⟩

/-- **With valid source pins and a reader of a table, the report is a match exactly when the expected
list is valid and not empty, the whole table is valid, and their maps from identifiers in
normal form to names are equal.** -/
theorem shadow_match_iff (py : Interpreter Opaque) {before : Value Opaque → Value Opaque → Prop}
    {table : List (Value Opaque × Value Opaque)} {candidateRead : String → ℕ → Except Raised (Rows Opaque)}
    (hreads : Reads before table candidateRead) (expected : Rows Opaque) {reference candidate : Str}
    (hreference : isSha1 reference = true) (hcandidate : isSha1 candidate = true) :
    ∃ report, compareIdentityShadow py expected candidateRead (.str reference) (.str candidate) = .ok report ∧
      (report.status = .matchUnqualified ↔
        ∃ declared rows, expected = .sequence declared rows ∧ Valid py.unicode declared rows ∧ rows ≠ [] ∧
          Valid py.unicode table.length (table.map tableRow) ∧
          ∀ identityId, identityMap py.unicode (table.map tableRow) identityId = identityMap py.unicode rows identityId) := by
  obtain ⟨report, hreport, hstatus⟩ := compareIdentityShadow_matches hreference hcandidate
  refine ⟨report, hreport, hstatus.trans ?_⟩
  constructor
  · rintro ⟨taken, raw, hexpected, hempty, hread, hobserved⟩
    cases expected with
    | other => cases hexpected
    | sequence declared rows =>
      obtain ⟨hvalid, rfl⟩ := identities_ok.mp hexpected
      obtain ⟨first, hperm, -, hfirst⟩ := hreads ((sortFields (rows.filterMap (identityOf py.unicode))).length + 1)
      obtain rfl := Except.ok.inj (hread.symm.trans hfirst)
      obtain ⟨htable, hsame⟩ := (reads_iff hperm).mp hobserved
      refine ⟨declared, rows, rfl, hvalid, ?_, htable, ?_⟩
      · rintro rfl
        exact hempty rfl
      · exact (lookup_eq_iff_perm htable.distinct hvalid.distinct).mpr ((sortFields_eq_iff_perm htable.distinct).mp hsame)
  · rintro ⟨declared, rows, rfl, hvalid, hrows, htable, hsame⟩
    obtain ⟨first, hperm, -, hfirst⟩ := hreads ((sortFields (rows.filterMap (identityOf py.unicode))).length + 1)
    refine ⟨_, _, identities_ok.mpr ⟨hvalid, rfl⟩, fun hempty => ?_, hfirst, (reads_iff hperm).mpr ⟨htable, ?_⟩⟩
    · have hlength := (sortFields_perm (rows.filterMap (identityOf py.unicode))).length_eq
      rw [hempty, filterMap_length hvalid.formed] at hlength
      exact hrows (List.length_eq_zero_iff.mp hlength.symm)
    · exact (sortFields_eq_iff_perm htable.distinct).mpr ((lookup_eq_iff_perm htable.distinct hvalid.distinct).mp hsame)

/-- The hash of the text that the rows below are hashed to. -/
def radarSha256 (_ : Bytes) : Hex 64 :=
  ⟨"513fe365af8870b58e15f9715869f91deaf48015a3e353997e516c75b40a5355", by decide +kernel⟩

/-- A row of the table. -/
def sampleRow (identityId displayName : String) : Value Empty × Value Empty := (.str (lit identityId), .str (lit displayName))

/-- A table of three rows. -/
def sampleTable : List (Value Empty × Value Empty) :=
  [sampleRow "radar" " Radar", sampleRow "slack" "Slack", sampleRow "mail" "Mail "]

/-- Its rows, in the order of their ids. -/
def sampleRows : List (Value Empty × Value Empty) :=
  [sampleRow "mail" "Mail ", sampleRow "radar" " Radar", sampleRow "slack" "Slack"]

/-- The order of the ids. -/
def sampleBefore (a b : Value Empty) : Prop := ∃ x y, a = .str x ∧ b = .str y ∧ le x y = true

/-- A reader of the table. -/
def sampleRead (_ : String) (limit : ℕ) : Except Raised (Rows Empty) :=
  .ok (.sequence (sampleRows.take limit).length ((sampleRows.take limit).map tableRow))

theorem sampleRead_reads : Reads sampleBefore sampleTable sampleRead := by
  have hperm : sampleRows.Perm sampleTable := @List.perm_append_comm _ [_] [_, _]
  have hmail : sampleBefore (.str (lit "mail")) (.str (lit "radar")) := ⟨_, _, rfl, rfl, by decide⟩
  have hmail' : sampleBefore (.str (lit "mail")) (.str (lit "slack")) := ⟨_, _, rfl, rfl, by decide⟩
  have hradar : sampleBefore (.str (lit "radar")) (.str (lit "slack")) := ⟨_, _, rfl, rfl, by decide⟩
  have hsorted : sampleRows.Pairwise fun a b => sampleBefore a.1 b.1 := by
    simp [sampleRows, sampleRow, hmail, hmail', hradar]
  exact fun limit => ⟨sampleRows, hperm, hsorted, rfl⟩

/-- The same identities, in another order and another writing. -/
def sampleExpected : List (Value Empty) :=
  [sampleRow "slack" "Slack", sampleRow "Radar " "Radar", sampleRow "MAIL" "Mail"].map tableRow

theorem shadow_match_iff_sample :
    ∃ report, compareIdentityShadow (asciiInterpreter radarSha256) (.sequence 3 sampleExpected) sampleRead
        (.str (List.replicate 40 0x39)) (.str (List.replicate 40 0x61)) = .ok report ∧ report.status = .matchUnqualified := by
  have hexpected : sampleExpected.filterMap (identityOf asciiCasefold) =
      [(lit "slack", lit "Slack"), (lit "radar", lit "Radar"), (lit "mail", lit "Mail")] := by decide +kernel
  have htable : (sampleTable.map tableRow).filterMap (identityOf asciiCasefold) =
      [(lit "radar", lit "Radar"), (lit "slack", lit "Slack"), (lit "mail", lit "Mail")] := by decide +kernel
  have hformed : sampleExpected.all (fun row => (identityOf asciiCasefold row).isSome) = true ∧
      (sampleTable.map tableRow).all (fun row => (identityOf asciiCasefold row).isSome) = true := by decide +kernel
  have hvalid : Valid asciiCasefold 3 sampleExpected :=
    ⟨by decide, List.all_eq_true.mp hformed.1, by rw [hexpected]; decide⟩
  have hvalid' : Valid asciiCasefold 3 (sampleTable.map tableRow) :=
    ⟨by decide, List.all_eq_true.mp hformed.2, by rw [htable]; decide⟩
  have hperm : ((sampleTable.map tableRow).filterMap (identityOf asciiCasefold)).Perm
      (sampleExpected.filterMap (identityOf asciiCasefold)) := by
    rw [htable, hexpected]
    exact .swap _ _ _
  obtain ⟨report, hreport, hstatus⟩ := shadow_match_iff (asciiInterpreter radarSha256) sampleRead_reads (.sequence 3 sampleExpected)
    (show isSha1 (List.replicate 40 0x39) = true by decide) (show isSha1 (List.replicate 40 0x61) = true by decide)
  exact ⟨report, hreport, hstatus.mpr ⟨3, sampleExpected, rfl, hvalid, nofun, hvalid',
    (lookup_eq_iff_perm hvalid'.distinct hvalid.distinct).mpr hperm⟩⟩

end CcbCore.Radar.ConnectomeShadow
