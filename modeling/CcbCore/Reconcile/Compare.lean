import CcbCore.Library.Table
import CcbCore.Text.Repr

/-!
# Comparing projections

`Reconciler` of `src/radar/reconcile.py`: the protocol heads of GitHub's state and of a
provider's, and the lane of each identity, which a provider may claim several times. A
mapping is a table; identities and lanes are texts. Protocol heads are any objects, whose
`!=` and `repr` are parameters. There is a finding for an identity just when the two sides
disagree on it (`comparison_exact`).
-/

namespace CcbCore.Reconcile

open CcbCore.CodePoints
open CcbCore.Python (CodePoint)

/-! ### States and findings -/

inductive RepairClass where
  | safeProjectionRepair
  | ambiguousDurableConflict
  | observationOnly
  deriving DecidableEq, Repr

/-- `Finding`. -/
structure Finding where
  code : String
  repairClass : RepairClass
  detail : Str
  deriving DecidableEq

inductive Kind where
  | list
  | tuple
  | set
  deriving DecidableEq, Repr

/-- A provider's lane: one, or several claims, those of a set in the order it is gone through. -/
inductive ProviderLane where
  | single (lane : Str)
  | claims (kind : Kind) (values : List Str)
  deriving DecidableEq

/-- The lanes of a state: a mapping, or another object with its truth value and its `repr`. -/
inductive Lanes (α : Type) where
  | mapping (lanes : Table Str α)
  | other (truthy : Bool) (text : Str)

/-- A state: `protocol_head` and `lanes`, which are `None` and a falsy object where it has none. -/
structure State (Head α : Type) where
  protocolHead : Option Head
  lanes : Lanes α

/-- `{}`. -/
def State.empty {Head α : Type} : State Head α := ⟨none, .other false []⟩

/-! ### Texts -/

variable (printable : CodePoint → Bool)

/-- `repr` of a tuple, of a list and of a set. -/
def reprClaims (kind : Kind) (values : List Str) : Str :=
  let items := join (lit ", ") (values.map (strRepr printable))
  match kind with
  | .list => lit "[" ++ items ++ lit "]"
  | .tuple => if values.length = 1 then lit "(" ++ items ++ lit ",)" else lit "(" ++ items ++ lit ")"
  | .set => if values = [] then lit "set()" else lit "\x7b" ++ items ++ lit "\x7d"

/-- `repr` of a provider's lane. -/
def reprLane : ProviderLane → Str
  | .single lane => strRepr printable lane
  | .claims kind values => reprClaims printable kind values

/-- `sorted(texts, key=repr)`. -/
def sortByRepr (texts : List Str) : List Str :=
  texts.insertionSort fun a b => le (strRepr printable a) (strRepr printable b) = true

/-! ### Lanes -/

/-- `_get_unique_claims`, of several claims. -/
def uniqueClaims (values : List Str) : List Str :=
  sortByRepr printable (values.foldl (fun unique value => if value ∈ unique then unique else unique ++ [value]) [])

/-- `MULTIPLE_WRITER_CLAIMS`. -/
def multipleClaims (identity : Str) (claims : List Str) : Finding :=
  ⟨"MULTIPLE_WRITER_CLAIMS", .ambiguousDurableConflict, identity ++ lit ":" ++ reprClaims printable .tuple claims⟩

/-- `LANE_PROJECTION_DRIFT`. -/
def drift (identity githubLane providerText : Str) : Finding :=
  ⟨"LANE_PROJECTION_DRIFT", .safeProjectionRepair,
    identity ++ lit ":provider=" ++ providerText ++ lit " github=" ++ strRepr printable githubLane⟩

/-- `_reconcile_lane`. -/
def reconcileLane (identity githubLane : Str) : ProviderLane → Option Finding
  | .single lane => if lane ≠ githubLane then some (drift printable identity githubLane (strRepr printable lane)) else none
  | .claims _ values =>
    match uniqueClaims printable values with
    | [] => some (drift printable identity githubLane (lit "()"))
    | [claim] => if claim ≠ githubLane then some (drift printable identity githubLane (strRepr printable claim)) else none
    | claims => some (multipleClaims printable identity claims)

/-- `ORPHANED_PROVIDER_LANE`. -/
def orphaned (identity : Str) (providerLane : ProviderLane) : Finding :=
  ⟨"ORPHANED_PROVIDER_LANE", .safeProjectionRepair, identity ++ lit ":" ++ reprLane printable providerLane⟩

/-- `_handle_orphaned_lane`. -/
def handleOrphanedLane (identity : Str) (providerLane : ProviderLane) : Finding :=
  match providerLane with
  | .single _ => orphaned printable identity providerLane
  | .claims _ values =>
    let claims := uniqueClaims printable values
    if 1 < claims.length then multipleClaims printable identity claims else orphaned printable identity providerLane

/-- `MISSING_PROVIDER_LANE`. -/
def missingLane (identity githubLane : Str) : Finding :=
  ⟨"MISSING_PROVIDER_LANE", .safeProjectionRepair, identity ++ lit ":" ++ githubLane⟩

/-- The findings of the two loops of `_reconcile_lanes`, each with the identity it is about. -/
def reconcileLanes (github : Table Str Str) (provider : Table Str ProviderLane) : List (Str × Finding) :=
  (sortByRepr printable github.keys).filterMap (fun identity => do
    let githubLane ← github.lookup identity
    match provider.lookup identity with
    | none => some (identity, missingLane identity githubLane)
    | some providerLane => (reconcileLane printable identity githubLane providerLane).map (identity, ·)) ++
  (sortByRepr printable (provider.keys.filter (· ∉ github.keys))).filterMap fun identity =>
    (provider.lookup identity).map fun providerLane => (identity, handleOrphanedLane printable identity providerLane)

/-- `_lane_mapping`: the findings it adds, and the mapping. -/
def laneMapping {α : Type} (side : String) : Lanes α → List Finding × Table Str α
  | .mapping lanes => ([], lanes)
  | .other false _ => ([], ∅)
  | .other true text =>
    ([⟨"INVALID_" ++ side.toUpper ++ "_LANES", if side = "provider" then .observationOnly else .ambiguousDurableConflict,
      lit side ++ lit "_lanes=" ++ text⟩], ∅)

section compare

variable {Head : Type} (differs : Option Head → Option Head → Bool) (reprHead : Option Head → Str)

/-- `_reconcile_protocol_head`. -/
def reconcileProtocolHead (github provider : Option Head) : List Finding :=
  if differs github provider = true then
    [⟨"PROTOCOL_HEAD_DRIFT", .safeProjectionRepair, lit "provider=" ++ reprHead provider ++ lit " github=" ++ reprHead github⟩]
  else []

/-- `compare`. -/
def compare (githubState : Option (State Head Str)) (providerState : Option (State Head ProviderLane)) : List Finding :=
  let github := githubState.getD .empty
  let provider := providerState.getD .empty
  let (githubInvalid, githubLanes) := laneMapping "github" github.lanes
  let (providerInvalid, providerLanes) := laneMapping "provider" provider.lanes
  reconcileProtocolHead differs reprHead github.protocolHead provider.protocolHead ++ githubInvalid ++ providerInvalid ++
    (reconcileLanes printable githubLanes providerLanes).map Prod.snd

end compare

/-! ### The order of the identities -/

variable {printable}

theorem mem_sortByRepr {texts : List Str} {text : Str} : text ∈ sortByRepr printable texts ↔ text ∈ texts :=
  (List.perm_insertionSort _ texts).mem_iff

theorem nodup_sortByRepr {texts : List Str} : (sortByRepr printable texts).Nodup ↔ texts.Nodup :=
  (List.perm_insertionSort _ texts).nodup_iff

/-- The order of texts does not depend on where they were. -/
theorem sortByRepr_perm {texts texts' : List Str} (h : texts.Perm texts') : sortByRepr printable texts = sortByRepr printable texts' := by
  let order : Str → Str → Prop := fun a b => le (strRepr printable a) (strRepr printable b) = true
  have : Std.Total order := ⟨fun a b => Str.le_total _ _⟩
  have : IsTrans Str order := ⟨fun a b c => Str.le_trans⟩
  have : Std.Antisymm order := ⟨fun a b hab hba => strRepr_injective printable (Str.le_antisymm hab hba)⟩
  have hperm : (texts.insertionSort order).Perm (texts'.insertionSort order) :=
    (List.perm_insertionSort order texts).trans (h.trans (List.perm_insertionSort order texts').symm)
  exact hperm.eq_of_pairwise' (List.pairwise_insertionSort order texts) (List.pairwise_insertionSort order texts')

/-! ### Claims -/

/-- The lanes that a provider claims. -/
def ProviderLane.claimed : ProviderLane → Set Str
  | .single lane => {lane}
  | .claims _ values => {value | value ∈ values}

theorem foldl_unique (values unique : List Str) (h : unique.Nodup) :
    let all := values.foldl (fun unique value => if value ∈ unique then unique else unique ++ [value]) unique
    all.Nodup ∧ ∀ value, value ∈ all ↔ value ∈ unique ∨ value ∈ values := by
  induction values generalizing unique with
  | nil => exact ⟨h, fun value => by simp⟩
  | cons first values ih =>
    rw [List.foldl_cons]
    by_cases hmem : first ∈ unique
    · rw [if_pos hmem]
      obtain ⟨hnodup, hall⟩ := ih unique h
      refine ⟨hnodup, fun value => (hall value).trans ?_⟩
      rw [List.mem_cons]
      refine ⟨fun hvalue => hvalue.imp_right .inr, fun hvalue => ?_⟩
      rcases hvalue with hvalue | rfl | hvalue
      · exact .inl hvalue
      · exact .inl hmem
      · exact .inr hvalue
    · rw [if_neg hmem]
      have hnodup : (unique ++ [first]).Nodup := by
        rw [List.nodup_append]
        exact ⟨h, List.nodup_singleton _, fun a ha b hb hab => hmem (List.mem_singleton.mp hb ▸ hab ▸ ha)⟩
      obtain ⟨hnodup', hall⟩ := ih (unique ++ [first]) hnodup
      refine ⟨hnodup', fun value => (hall value).trans ?_⟩
      rw [List.mem_append, List.mem_singleton, List.mem_cons, or_assoc]

theorem nodup_uniqueClaims (values : List Str) : (uniqueClaims printable values).Nodup :=
  nodup_sortByRepr.mpr (foldl_unique values [] List.nodup_nil).1

theorem mem_uniqueClaims {values : List Str} {value : Str} : value ∈ uniqueClaims printable values ↔ value ∈ values := by
  rw [uniqueClaims, mem_sortByRepr, (foldl_unique values [] List.nodup_nil).2]
  simp

variable (printable) in
/-- The distinct claims are none, one or more. -/
theorem uniqueClaims_cases (kind : Kind) (values : List Str) :
    (uniqueClaims printable values = [] ∧ (ProviderLane.claims kind values).claimed = ∅) ∨
      (∃ claim, uniqueClaims printable values = [claim] ∧ (ProviderLane.claims kind values).claimed = {claim}) ∨
      ∃ first second rest, uniqueClaims printable values = first :: second :: rest ∧
        (ProviderLane.claims kind values).claimed.Nontrivial := by
  have hmem : ∀ value, value ∈ (ProviderLane.claims kind values).claimed ↔ value ∈ uniqueClaims printable values :=
    fun value => mem_uniqueClaims.symm
  have hnodup : (uniqueClaims printable values).Nodup := nodup_uniqueClaims values
  match hunique : uniqueClaims printable values with
  | [] =>
    refine .inl ⟨rfl, Set.eq_empty_iff_forall_notMem.mpr fun value h => ?_⟩
    rw [hmem, hunique] at h
    cases h
  | [claim] =>
    refine .inr (.inl ⟨claim, rfl, Set.ext fun value => ?_⟩)
    rw [hmem, hunique, List.mem_singleton, Set.mem_singleton_iff]
  | first :: second :: rest =>
    rw [hunique] at hnodup
    have hne : first ≠ second := fun heq => (List.nodup_cons.mp hnodup).1 (heq ▸ List.mem_cons_self)
    refine .inr (.inr ⟨first, second, rest, rfl, first, ?_, second, ?_, hne⟩)
    · rw [hmem, hunique]
      exact List.mem_cons_self
    · rw [hmem, hunique]
      exact List.mem_cons_of_mem _ List.mem_cons_self

/-! ### The finding for an identity -/

/-- The finding for an identity. -/
def findingOf (printable : CodePoint → Bool) (github : Table Str Str) (provider : Table Str ProviderLane) (identity : Str) :
    Option Finding :=
  match github.lookup identity, provider.lookup identity with
  | some githubLane, some providerLane => reconcileLane printable identity githubLane providerLane
  | some githubLane, none => some (missingLane identity githubLane)
  | none, some providerLane => some (handleOrphanedLane printable identity providerLane)
  | none, none => none

/-- The identities in the order in which they are looked at. -/
def identities (printable : CodePoint → Bool) (github : Table Str Str) (provider : Table Str ProviderLane) : List Str :=
  sortByRepr printable github.keys ++ sortByRepr printable (provider.keys.filter (· ∉ github.keys))

variable {github github' : Table Str Str} {provider provider' : Table Str ProviderLane} {identity : Str}

theorem reconcileLanes_eq : reconcileLanes printable github provider =
    (identities printable github provider).filterMap fun identity =>
      (findingOf printable github provider identity).map (identity, ·) := by
  rw [reconcileLanes, identities, List.filterMap_append]
  congr 1
  · refine List.filterMap_congr fun identity hidentity => ?_
    obtain ⟨githubLane, hgithub⟩ := Option.isSome_iff_exists.mp
      (AList.lookup_isSome.mpr (AList.mem_keys.mpr (mem_sortByRepr.mp hidentity)))
    rw [findingOf, hgithub]
    cases provider.lookup identity with
    | none => rfl
    | some providerLane => rfl
  · refine List.filterMap_congr fun identity hidentity => ?_
    obtain ⟨-, hnot⟩ := List.mem_filter.mp (mem_sortByRepr.mp hidentity)
    have hgithub : github.lookup identity = none :=
      AList.lookup_eq_none.mpr fun hmem => of_decide_eq_true hnot (AList.mem_keys.mp hmem)
    rw [findingOf, hgithub]
    cases provider.lookup identity with
    | none => rfl
    | some providerLane => rfl

/-! ### What is found -/

open Classical in
/-- The code and the repair class of the finding for an identity: what GitHub has as its lane,
and what the provider claims, decide them. -/
noncomputable def verdict (lane : Option Str) (claimed : Option (Set Str)) : Option (String × RepairClass) :=
  match lane, claimed with
  | none, none => none
  | some _, none => some ("MISSING_PROVIDER_LANE", .safeProjectionRepair)
  | some lane, some claimed =>
    if claimed = {lane} then none
    else if claimed.Nontrivial then some ("MULTIPLE_WRITER_CLAIMS", .ambiguousDurableConflict)
    else some ("LANE_PROJECTION_DRIFT", .safeProjectionRepair)
  | none, some claimed =>
    if claimed.Nontrivial then some ("MULTIPLE_WRITER_CLAIMS", .ambiguousDurableConflict)
    else some ("ORPHANED_PROVIDER_LANE", .safeProjectionRepair)

/-- The code and the repair class of a finding. -/
def Finding.verdict (finding : Finding) : String × RepairClass := (finding.code, finding.repairClass)

theorem reconcileLane_verdict (githubLane : Str) (providerLane : ProviderLane) :
    (reconcileLane printable identity githubLane providerLane).map Finding.verdict =
      verdict (some githubLane) (some providerLane.claimed) := by
  cases providerLane with
  | single lane =>
    simp only [reconcileLane, verdict, ProviderLane.claimed, Set.singleton_eq_singleton_iff, Set.not_nontrivial_singleton]
    by_cases hsame : lane = githubLane
    · simp [hsame]
    · simp [hsame, Finding.verdict, drift]
  | claims kind values =>
    rcases uniqueClaims_cases printable kind values with ⟨hunique, hclaimed⟩ | ⟨claim, hunique, hclaimed⟩ | ⟨first, second, rest, hunique, hmany⟩
    · simp [reconcileLane, verdict, hunique, hclaimed, Finding.verdict, drift, (Set.singleton_nonempty githubLane).ne_empty.symm]
    · simp only [reconcileLane, verdict, hunique, hclaimed, Set.singleton_eq_singleton_iff, Set.not_nontrivial_singleton]
      by_cases hsame : claim = githubLane
      · simp [hsame]
      · simp [hsame, Finding.verdict, drift]
    · have hne : (ProviderLane.claims kind values).claimed ≠ {githubLane} := by
        intro heq
        rw [heq] at hmany
        exact Set.not_nontrivial_singleton hmany
      simp [reconcileLane, verdict, hunique, hne, hmany, Finding.verdict, multipleClaims]

theorem handleOrphanedLane_verdict (providerLane : ProviderLane) :
    some (handleOrphanedLane printable identity providerLane).verdict = verdict none (some providerLane.claimed) := by
  cases providerLane with
  | single lane => simp [handleOrphanedLane, verdict, ProviderLane.claimed, Finding.verdict, orphaned]
  | claims kind values =>
    rcases uniqueClaims_cases printable kind values with ⟨hunique, hclaimed⟩ | ⟨claim, hunique, hclaimed⟩ | ⟨first, second, rest, hunique, hmany⟩
    · simp [handleOrphanedLane, verdict, hunique, hclaimed, Finding.verdict, orphaned]
    · simp [handleOrphanedLane, verdict, hunique, hclaimed, Finding.verdict, orphaned]
    · simp [handleOrphanedLane, verdict, hunique, hmany, Finding.verdict, multipleClaims]

/-- What is found for an identity is decided by its lane and what is claimed as such. -/
theorem findingOf_verdict : (findingOf printable github provider identity).map Finding.verdict =
    verdict (github.lookup identity) ((provider.lookup identity).map ProviderLane.claimed) := by
  unfold findingOf
  cases github.lookup identity with
  | none =>
    cases provider.lookup identity with
    | none => rfl
    | some providerLane => exact handleOrphanedLane_verdict providerLane
  | some githubLane =>
    cases provider.lookup identity with
    | none => rfl
    | some providerLane => exact reconcileLane_verdict githubLane providerLane

/-- The detail of a finding starts with its identity. -/
theorem findingOf_detail {finding : Finding} (h : findingOf printable github provider identity = some finding) :
    identity ++ lit ":" <+: finding.detail := by
  have hdrift : ∀ lane text, identity ++ lit ":" <+: (drift printable identity lane text).detail := by
    intro lane text
    refine ⟨lit "provider=" ++ text ++ lit " github=" ++ strRepr printable lane, ?_⟩
    simp only [drift, List.append_assoc]
    rfl
  unfold findingOf at h
  split at h
  · next githubLane providerLane _ _ =>
    cases providerLane with
    | single lane =>
      simp only [reconcileLane] at h
      split_ifs at h with hne
      cases h
      exact hdrift githubLane _
    | claims kind values =>
      simp only [reconcileLane] at h
      split at h
      · cases h
        exact hdrift githubLane _
      · split_ifs at h with hne
        cases h
        exact hdrift githubLane _
      · cases h
        exact List.prefix_append _ _
  · cases h
    exact List.prefix_append _ _
  · next providerLane _ _ =>
    cases h
    cases providerLane with
    | single lane => exact List.prefix_append _ _
    | claims kind values =>
      simp only [handleOrphanedLane]
      split
      · exact List.prefix_append _ _
      · exact List.prefix_append _ _
  · cases h

/-! ### Agreement -/

/-- Both sides name the identity, and what the provider claims is the one lane that GitHub has. -/
def Agree (github : Table Str Str) (provider : Table Str ProviderLane) (identity : Str) : Prop :=
  ∃ lane ∈ github.lookup identity, ∃ providerLane ∈ provider.lookup identity, providerLane.claimed = {lane}

/-- A side names the identity. -/
def Named (github : Table Str Str) (provider : Table Str ProviderLane) (identity : Str) : Prop :=
  identity ∈ github ∨ identity ∈ provider

/-- The provider has more than one claim for the identity. -/
def Contested (provider : Table Str ProviderLane) (identity : Str) : Prop :=
  ∃ providerLane ∈ provider.lookup identity, providerLane.claimed.Nontrivial

theorem verdict_eq_none_iff {lane : Option Str} {claimed : Option (Set Str)} :
    verdict lane claimed = none ↔ (lane = none ∧ claimed = none) ∨ ∃ text ∈ lane, claimed = some {text} := by
  unfold verdict
  cases lane with
  | none =>
    cases claimed with
    | none => simp
    | some claimed =>
      by_cases hmany : claimed.Nontrivial
      · simp [hmany]
      · simp [hmany]
  | some text =>
    cases claimed with
    | none => simp
    | some claimed =>
      by_cases hsame : claimed = {text}
      · simp [hsame]
      · by_cases hmany : claimed.Nontrivial
        · simp [hsame, hmany]
        · simp [hsame, hmany]

theorem verdict_class {lane : Option Str} {claimed : Option (Set Str)} {code : String} {repairClass : RepairClass}
    (h : verdict lane claimed = some (code, repairClass)) :
    ((∃ texts ∈ claimed, texts.Nontrivial) ∧ repairClass = .ambiguousDurableConflict) ∨
      (¬ (∃ texts ∈ claimed, texts.Nontrivial) ∧ repairClass = .safeProjectionRepair) := by
  unfold verdict at h
  cases lane with
  | none =>
    cases claimed with
    | none => cases h
    | some claimed =>
      by_cases hmany : claimed.Nontrivial
      · simp only [hmany, if_true] at h
        cases h
        exact .inl ⟨⟨claimed, rfl, hmany⟩, rfl⟩
      · simp only [hmany, if_false] at h
        cases h
        exact .inr ⟨by simpa using hmany, rfl⟩
  | some text =>
    cases claimed with
    | none =>
      cases h
      exact .inr ⟨by simp, rfl⟩
    | some claimed =>
      by_cases hsame : claimed = {text}
      · simp [hsame] at h
      · by_cases hmany : claimed.Nontrivial
        · simp only [hsame, hmany, if_true, if_false] at h
          cases h
          exact .inl ⟨⟨claimed, rfl, hmany⟩, rfl⟩
        · simp only [hsame, hmany, if_false] at h
          cases h
          exact .inr ⟨by simpa using hmany, rfl⟩

/-- There is a finding just for an identity that is named and not agreed on. -/
theorem findingOf_isSome_iff :
    (findingOf printable github provider identity).isSome = true ↔ Named github provider identity ∧ ¬ Agree github provider identity := by
  have hnone : findingOf printable github provider identity = none ↔ ¬ Named github provider identity ∨ Agree github provider identity := by
    rw [← Option.map_eq_none_iff (f := Finding.verdict), findingOf_verdict, verdict_eq_none_iff, Named, not_or,
      ← AList.lookup_eq_none, ← AList.lookup_eq_none, Option.map_eq_none_iff]
    refine or_congr_right (exists_congr fun lane => and_congr_right fun _ => ?_)
    rw [Option.map_eq_some_iff]
    rfl
  rw [Option.isSome_iff_ne_none, Ne, hnone, not_or, not_not]

theorem findingOf_class {finding : Finding} (h : findingOf printable github provider identity = some finding) :
    (Contested provider identity ∧ finding.repairClass = .ambiguousDurableConflict) ∨
      (¬ Contested provider identity ∧ finding.repairClass = .safeProjectionRepair) := by
  have hverdict : (findingOf printable github provider identity).map Finding.verdict = some (finding.code, finding.repairClass) := by
    rw [h]
    rfl
  rw [findingOf_verdict] at hverdict
  have hcontested : Contested provider identity ↔
      ∃ texts ∈ (provider.lookup identity).map ProviderLane.claimed, texts.Nontrivial := by
    cases hlookup : provider.lookup identity with
    | none => simp [Contested, hlookup]
    | some providerLane => simp [Contested, hlookup]
  rw [hcontested]
  exact verdict_class hverdict

/-! ### The comparison -/

theorem mem_identities : identity ∈ identities printable github provider ↔ Named github provider identity := by
  rw [identities, List.mem_append, mem_sortByRepr, mem_sortByRepr, List.mem_filter, decide_eq_true_iff, Named, AList.mem_keys, AList.mem_keys]
  tauto

theorem nodup_identities : (identities printable github provider).Nodup := by
  rw [identities, List.nodup_append]
  refine ⟨nodup_sortByRepr.mpr github.keys_nodup, nodup_sortByRepr.mpr (provider.keys_nodup.filter _), ?_⟩
  intro first hfirst last hlast heq
  rw [mem_sortByRepr] at hfirst hlast
  exact of_decide_eq_true (List.mem_filter.mp hlast).2 (heq ▸ hfirst)

theorem map_fst_reconcileLanes : (reconcileLanes printable github provider).map Prod.fst =
    (identities printable github provider).filter fun identity => (findingOf printable github provider identity).isSome := by
  rw [reconcileLanes_eq]
  induction identities printable github provider with
  | nil => rfl
  | cons identity rest ih =>
    rw [List.filterMap_cons, List.filter_cons]
    cases findingOf printable github provider identity with
    | none => simpa using ih
    | some finding => simpa using ih

theorem mem_reconcileLanes {finding : Finding} : (identity, finding) ∈ reconcileLanes printable github provider ↔
    findingOf printable github provider identity = some finding := by
  simp only [reconcileLanes_eq, List.mem_filterMap, Option.map_eq_some_iff, Prod.mk.injEq]
  constructor
  · intro ⟨_, _, _, h, hidentity, hfinding⟩
    rw [← hidentity, ← hfinding]
    exact h
  · intro h
    have hnamed := (findingOf_isSome_iff.mp (Option.isSome_of_eq_some h)).1
    exact ⟨identity, mem_identities.mpr hnamed, finding, h, rfl, rfl⟩

/-- The mapping of a state's lanes. -/
def Lanes.table {α : Type} : Lanes α → Table Str α
  | .mapping lanes => lanes
  | .other _ _ => ∅

/-- The lanes are a mapping, or there are none. -/
def Lanes.Regular {α : Type} (lanes : Lanes α) : Prop := ∀ truthy text, lanes = .other truthy text → truthy = false

theorem laneMapping_of_regular {α : Type} {side : String} {lanes : Lanes α} (h : lanes.Regular) :
    laneMapping side lanes = ([], lanes.table) := by
  cases lanes with
  | mapping lanes => rfl
  | other truthy text =>
    rw [h truthy text rfl]
    rfl

/-- Two states have the same mapping, in whatever order, as far as `f` tells. -/
def SameLanes {α β : Type} (f : α → β) (lanes lanes' : Table Str α) : Prop :=
  ∀ identity, (lanes.lookup identity).map f = (lanes'.lookup identity).map f

theorem SameLanes.mem_iff {α β : Type} {f : α → β} {lanes lanes' : Table Str α} (h : SameLanes f lanes lanes') :
    identity ∈ lanes ↔ identity ∈ lanes' := by
  have hsame := congrArg Option.isSome (h identity)
  rw [Option.isSome_map, Option.isSome_map] at hsame
  rw [← AList.lookup_isSome, ← AList.lookup_isSome, hsame]

/-- The order of the identities does not depend on that of the mappings. -/
theorem identities_same (hgithub : SameLanes id github github') (hprovider : SameLanes ProviderLane.claimed provider provider') :
    identities printable github provider = identities printable github' provider' := by
  have hkeys : ∀ identity, identity ∈ github.keys ↔ identity ∈ github'.keys := fun identity => by
    rw [← AList.mem_keys, ← AList.mem_keys, hgithub.mem_iff]
  have hkeys' : ∀ identity, identity ∈ provider.keys ↔ identity ∈ provider'.keys := fun identity => by
    rw [← AList.mem_keys, ← AList.mem_keys, hprovider.mem_iff]
  have hperm : github.keys.Perm github'.keys := (List.perm_ext_iff_of_nodup github.keys_nodup github'.keys_nodup).mpr hkeys
  have hperm' : provider.keys.Perm provider'.keys :=
    (List.perm_ext_iff_of_nodup provider.keys_nodup provider'.keys_nodup).mpr hkeys'
  have hfilter : ∀ identity ∈ provider'.keys, decide (identity ∉ github.keys) = decide (identity ∉ github'.keys) :=
    fun identity _ => decide_eq_decide.mpr (not_congr (hkeys identity))
  rw [identities, identities, sortByRepr_perm hperm, sortByRepr_perm (hperm'.filter _), List.filter_congr hfilter]

variable (printable) in
theorem reconcileLanes_same (hgithub : SameLanes id github github') (hprovider : SameLanes ProviderLane.claimed provider provider') :
    (reconcileLanes printable github provider).map (fun entry => (entry.1, entry.2.verdict)) =
      (reconcileLanes printable github' provider').map fun entry => (entry.1, entry.2.verdict) := by
  have hverdict : ∀ identity, (findingOf printable github provider identity).map Finding.verdict =
      (findingOf printable github' provider' identity).map Finding.verdict := by
    intro identity
    have hlane := hgithub identity
    rw [Option.map_id_apply, Option.map_id_apply] at hlane
    rw [findingOf_verdict, findingOf_verdict, hlane, hprovider identity]
  have hmap : ∀ github provider, (reconcileLanes printable github provider).map (fun entry => (entry.1, entry.2.verdict)) =
      (identities printable github provider).filterMap fun identity =>
        ((findingOf printable github provider identity).map Finding.verdict).map (identity, ·) := by
    intro github provider
    rw [reconcileLanes_eq, List.map_filterMap]
    refine List.filterMap_congr fun identity _ => ?_
    cases findingOf printable github provider identity <;> rfl
  rw [hmap, hmap, identities_same hgithub hprovider]
  exact List.filterMap_congr fun identity _ => by rw [hverdict identity]

section compare

variable {Head : Type} {differs : Option Head → Option Head → Bool} {reprHead : Option Head → Str}
  {githubState githubState' : Option (State Head Str)} {providerState providerState' : Option (State Head ProviderLane)}

theorem compare_eq (hgithub : (githubState.getD .empty).lanes.Regular) (hprovider : (providerState.getD .empty).lanes.Regular) :
    compare printable differs reprHead githubState providerState =
      reconcileProtocolHead differs reprHead (githubState.getD .empty).protocolHead (providerState.getD .empty).protocolHead ++
        (reconcileLanes printable (githubState.getD .empty).lanes.table (providerState.getD .empty).lanes.table).map Prod.snd := by
  simp only [compare, laneMapping_of_regular hgithub, laneMapping_of_regular hprovider, List.append_nil]

theorem reconcileProtocolHead_eq_nil {github provider : Option Head} :
    reconcileProtocolHead differs reprHead github provider = [] ↔ differs github provider = false := by
  unfold reconcileProtocolHead
  cases differs github provider <;> simp

/-- **The comparison has one finding for each identity that the two sides disagree on, and no
others: an ambiguous conflict where the provider has several claims and a safe repair
elsewhere. It is empty just when the protocol heads and all lanes agree, and neither the order of
the mappings nor how often and in which order a provider makes its claims changes what is found,
or its order.** -/
theorem comparison_exact (printable : CodePoint → Bool) (hgithub : (githubState.getD .empty).lanes.Regular)
    (hprovider : (providerState.getD .empty).lanes.Regular) :
    let github := (githubState.getD .empty).lanes.table
    let provider := (providerState.getD .empty).lanes.table
    let lanes := reconcileLanes printable github provider
    let heads := reconcileProtocolHead differs reprHead (githubState.getD .empty).protocolHead (providerState.getD .empty).protocolHead
    compare printable differs reprHead githubState providerState = heads ++ lanes.map Prod.snd ∧
      (lanes.map Prod.fst).Nodup ∧
      (∀ identity, identity ∈ lanes.map Prod.fst ↔ Named github provider identity ∧ ¬ Agree github provider identity) ∧
      (∀ entry ∈ lanes, entry.1 ++ lit ":" <+: entry.2.detail ∧
        ((Contested provider entry.1 ∧ entry.2.repairClass = .ambiguousDurableConflict) ∨
          (¬ Contested provider entry.1 ∧ entry.2.repairClass = .safeProjectionRepair))) ∧
      (∀ identity, Contested provider identity → identity ∈ lanes.map Prod.fst) ∧
      (compare printable differs reprHead githubState providerState = [] ↔
        differs (githubState.getD .empty).protocolHead (providerState.getD .empty).protocolHead = false ∧
          ∀ identity, Named github provider identity → Agree github provider identity) ∧
      ∀ (githubState' : Option (State Head Str)) (providerState' : Option (State Head ProviderLane)),
        (githubState'.getD .empty).lanes.Regular → (providerState'.getD .empty).lanes.Regular →
        (githubState'.getD .empty).protocolHead = (githubState.getD .empty).protocolHead →
        (providerState'.getD .empty).protocolHead = (providerState.getD .empty).protocolHead →
        SameLanes id github (githubState'.getD .empty).lanes.table →
        SameLanes ProviderLane.claimed provider (providerState'.getD .empty).lanes.table →
          (compare printable differs reprHead githubState' providerState').map Finding.verdict =
            (compare printable differs reprHead githubState providerState).map Finding.verdict ∧
          (reconcileLanes printable (githubState'.getD .empty).lanes.table (providerState'.getD .empty).lanes.table).map
              (fun entry => (entry.1, entry.2.verdict)) =
            lanes.map fun entry => (entry.1, entry.2.verdict) := by
  intro github provider lanes heads
  have hmem : ∀ identity, identity ∈ lanes.map Prod.fst ↔ Named github provider identity ∧ ¬ Agree github provider identity := by
    intro identity
    rw [map_fst_reconcileLanes, List.mem_filter, findingOf_isSome_iff, mem_identities]
    exact and_iff_right_of_imp fun h => h.1
  refine ⟨compare_eq hgithub hprovider, ?_, hmem, fun entry hentry => ?_, fun identity hcontested => ?_, ?_, ?_⟩
  · rw [map_fst_reconcileLanes]
    exact nodup_identities.filter _
  · have hfinding := mem_reconcileLanes.mp hentry
    exact ⟨findingOf_detail hfinding, findingOf_class hfinding⟩
  · obtain ⟨providerLane, hlookup, hmany⟩ := hcontested
    refine (hmem identity).mpr ⟨.inr (AList.lookup_isSome.mp (Option.isSome_of_eq_some hlookup)), ?_⟩
    intro ⟨lane, _, providerLane', hlookup', hclaimed⟩
    rw [Option.mem_unique hlookup' hlookup] at hclaimed
    rw [hclaimed] at hmany
    exact Set.not_nontrivial_singleton hmany
  · rw [compare_eq hgithub hprovider, List.append_eq_nil_iff, reconcileProtocolHead_eq_nil, List.map_eq_nil_iff]
    refine and_congr_right fun _ => ?_
    rw [← List.map_eq_nil_iff (f := Prod.fst), List.eq_nil_iff_forall_not_mem]
    refine forall_congr' fun identity => ?_
    rw [hmem identity]
    tauto
  · intro githubState' providerState' hgithub' hprovider' hhead hhead' hsame hsame'
    have hlanes := reconcileLanes_same printable hsame hsame'
    refine ⟨?_, hlanes.symm⟩
    have hfindings := congrArg (List.map Prod.snd) hlanes
    rw [List.map_map, List.map_map] at hfindings
    rw [compare_eq hgithub' hprovider', compare_eq hgithub hprovider, hhead, hhead', List.map_append, List.map_append, List.map_map,
      List.map_map]
    exact congrArg _ hfindings.symm

end compare

/-! ### A provider with several claims -/

def claimedGithub : State Str Str where
  protocolHead := some (lit "a1")
  lanes := .mapping ((∅ : Table Str Str).insert (lit "PLANNER") (lit "lane/planner") |>.insert (lit "BUILDER") (lit "lane/builder"))

def claimedProvider (claims : List Str) : State Str ProviderLane where
  protocolHead := some (lit "a1")
  lanes := .mapping ((∅ : Table Str ProviderLane).insert (lit "BUILDER") (.claims .list claims)
    |>.insert (lit "PLANNER") (.single (lit "lane/planner")))

/-- The comparison of the two. -/
def claimedFindings (claims : List Str) : List Finding :=
  compare (fun _ => true) (fun a b => decide (a ≠ b)) (fun _ => []) (some claimedGithub) (some (claimedProvider claims))

theorem claimedProvider_same {claims claims' : List Str} (h : ∀ claim, claim ∈ claims ↔ claim ∈ claims') :
    SameLanes ProviderLane.claimed (claimedProvider claims).lanes.table (claimedProvider claims').lanes.table := by
  intro identity
  by_cases hplanner : identity = lit "PLANNER"
  · subst hplanner
    rfl
  · by_cases hbuilder : identity = lit "BUILDER"
    · subst hbuilder
      exact congrArg some (Set.ext h)
    · simp only [claimedProvider, Lanes.table, AList.lookup_insert_ne hplanner, AList.lookup_insert_ne hbuilder]

theorem claimedFindings_once :
    (claimedFindings [lit "lane/other", lit "lane/builder"]).map Finding.verdict =
      [("MULTIPLE_WRITER_CLAIMS", .ambiguousDurableConflict)] := by decide +kernel

theorem comparison_exact_claims :
    (claimedFindings [lit "lane/builder", lit "lane/other", lit "lane/builder"]).map Finding.verdict =
      [("MULTIPLE_WRITER_CLAIMS", .ambiguousDurableConflict)] := by
  have hregular : ∀ claims, (claimedProvider claims).lanes.Regular := fun _ _ _ h => by cases h
  have hgithub : claimedGithub.lanes.Regular := fun _ _ h => by cases h
  obtain ⟨-, -, -, -, -, -, hreorder⟩ := @comparison_exact Str (fun a b => decide (a ≠ b)) (fun _ => []) (some claimedGithub)
    (some (claimedProvider [lit "lane/other", lit "lane/builder"])) (fun _ => true) hgithub (hregular _)
  rw [← claimedFindings_once]
  have hsame : ∀ claim, claim ∈ [lit "lane/other", lit "lane/builder"] ↔
      claim ∈ [lit "lane/builder", lit "lane/other", lit "lane/builder"] := by
    intro claim
    simp only [List.mem_cons, List.not_mem_nil, or_false]
    tauto
  exact (hreorder (some claimedGithub) (some (claimedProvider [lit "lane/builder", lit "lane/other", lit "lane/builder"]))
    hgithub (hregular _) rfl rfl (fun _ => rfl) (claimedProvider_same hsame)).1

end CcbCore.Reconcile
