import CcbCore.Lane.Validation

/-!
# Deriving a lane's target

`TrustedReconciler.derive_target` of `src/radar/trusted_reconciler.py`, over a repository
that answers about its commits and a journal that knows the lane's cursor. Where the anchor,
the cursor and the branch head stand to each other in the commit graph decides what is
derived, and nothing else does (`target_exact`): a cursor or a head off the anchor's history
diverges, a head the cursor has passed is stale, and the way forward is the range from the
cursor, or from the anchor if there is none. A range that is projected is not derived again.
-/

namespace CcbCore.Reconcile

open CcbCore.Python CcbCore.Lane CcbCore.Raising

/-! ### What the reconciler asks -/

/-- `GitRepository`. -/
structure GitRepository where
  branchHead : String → Except RadarError String
  isAncestor : String → String → Except RadarError Bool
  commitsBetween : String → String → Except RadarError (List String)

/-- A checkout: its commits, its branches, and the commit that a revision names. -/
structure Checkout where
  graph : CommitGraph String
  /-- The branches, under the prefix of their refs. -/
  branches : String → Option String
  revision : String → Option String
  branches_known : ∀ {branch c}, branches branch = some c → graph.Known c
  revision_known : ∀ {name c}, revision name = some c → graph.Known c
  /-- The full name of a commit names it. -/
  revision_self : ∀ {c}, graph.Known c → revision c = some c

variable (checkout : Checkout)

/-- `branch_head`: `rev-parse --verify`. -/
def Checkout.branchHead (branch : String) : Except RadarError String :=
  match checkout.branches branch with
  | none => .error (.code "MISSING_WRITER_BRANCH")
  | some head => .ok head

/-- `is_ancestor`: `merge-base --is-ancestor`. -/
def Checkout.isAncestor (ancestor descendant : String) : Except RadarError Bool :=
  match checkout.revision ancestor, checkout.revision descendant with
  | some a, some d => .ok (checkout.graph.isAncestor a d)
  | _, _ => .error (.code "GIT_ANCESTRY_CHECK_FAILED")

/-- `commits_between`: `rev-list --reverse`. -/
def Checkout.commitsBetween (base head : String) : Except RadarError (List String) :=
  if base = head then .ok []
  else
    match checkout.revision base, checkout.revision head with
    | some b, some h => .ok (checkout.graph.revList b h)
    | _, _ => .error (.code "GIT_REV_LIST_FAILED")

/-- `LocalGitRepository`. -/
def Checkout.repository : GitRepository := ⟨checkout.branchHead, checkout.isAncestor, checkout.commitsBetween⟩

/-- `CursorJournal`. -/
abbrev CursorJournal := String → String → Option String

/-! ### The activation anchor -/

/-- `_cutover`. -/
def cutoverContract (cutover : Option Json) : Except RadarError (List (String × Json)) :=
  match cutover with
  | some (.object raw) => .ok raw
  | _ => .error (.code "CUTOVER_CONTRACT_INVALID")

/-- `_mapping`. -/
def cutoverMapping (raw : List (String × Json)) (key : String) : Except RadarError (List (String × Json)) :=
  match Json.get raw key with
  | .object value => .ok value
  | _ => .error (.code ("CUTOVER_" ++ key.toUpper ++ "_INVALID"))

/-- `value == text`. -/
def isText (value : Json) (text : String) : Bool :=
  match value with
  | .string found => found = text
  | _ => false

/-- `value`, if it is a text and not empty. -/
def anchorOf : Json → Option String
  | .string text => if text = "" then none else some text
  | _ => none

/-- The anchor of a lane whose branch is the planned one. -/
def successorAnchor (planned successors : List (String × Json)) (identity branch : String) : Option String :=
  if isText (Json.get planned identity) branch then anchorOf (Json.get successors identity) else none

/-- The anchor of a lane whose branch is the historical one. -/
def historicalAnchor (historical : List (String × Json)) (identity branch : String) : Option String :=
  match Json.get historical identity with
  | .object record => if isText (Json.get record "branch") branch then anchorOf (Json.get record "head_sha") else none
  | _ => none

/-- `_activation_anchor`. -/
def activationAnchor (cutover : Option Json) (identity branch : String) : Except RadarError String := do
  let raw ← cutoverContract cutover
  let current ← cutoverMapping raw "current_writer_lanes"
  rejectIf (isText (Json.get current identity) branch = false) (.code "TOPOLOGY_CUTOVER_BRANCH_MISMATCH")
  let planned ← cutoverMapping raw "planned_current_writer_lanes"
  let successors ← cutoverMapping raw "verified_successor_heads"
  match successorAnchor planned successors identity branch with
  | some anchor => return anchor
  | none =>
    let historical ← cutoverMapping raw "historical_writer_lanes"
    match historicalAnchor historical identity branch with
    | some anchor => return anchor
    | none => throw (.code "ACTIVATION_ANCHOR_MISSING")

/-! ### The target -/

/-- `AncestryDisposition`. -/
inductive AncestryDisposition where
  | noop
  | forward
  | staleEvent
  | divergedHistory
  deriving DecidableEq, Repr

/-- `ReconcileTarget`. -/
structure ReconcileTarget where
  identity : String
  branch : String
  projectedHead : Option String
  baseHead : String
  observedHead : String
  commits : List String
  disposition : AncestryDisposition
  bootstrap : Bool := false
  deriving DecidableEq, Repr

/-- `derive_target`, once the head, the anchor and the cursor are known. -/
def targetOf (git : GitRepository) (identity branch observed anchor : String) (projected : Option String) :
    Except RadarError ReconcileTarget := do
  let anchored ← git.isAncestor anchor observed
  if anchored = false then
    -- `projected or anchor`
    return ⟨identity, branch, projected, (projected.filter (· ≠ "")).getD anchor, observed, [], .divergedHistory,
      projected.isNone⟩
  match projected with
  | none =>
    let commits ← git.commitsBetween anchor observed
    return ⟨identity, branch, none, anchor, observed, commits, .forward, true⟩
  | some cursor =>
    if cursor = observed then return ⟨identity, branch, cursor, cursor, observed, [], .noop, false⟩
    if (← git.isAncestor anchor cursor) = false then
      return ⟨identity, branch, cursor, cursor, observed, [], .divergedHistory, false⟩
    if (← git.isAncestor cursor observed) = true then
      let commits ← git.commitsBetween cursor observed
      return ⟨identity, branch, cursor, cursor, observed, commits, .forward, false⟩
    if (← git.isAncestor observed cursor) = true then
      return ⟨identity, branch, cursor, cursor, observed, [], .staleEvent, false⟩
    return ⟨identity, branch, cursor, cursor, observed, [], .divergedHistory, false⟩

/-- `derive_target`. -/
def deriveTarget (git : GitRepository) (topology : Topology) (cutover : Option Json) (journal : CursorJournal)
    (identity : String) : Except RadarError ReconcileTarget := do
  rejectIf (identity = "") (.code "IDENTITY_REQUIRED")
  match topology.active.lookup identity with
  | none =>
    rejectIf (topology.lookup identity).isSome (.code "NON_ACTIVE_WRITER_LANE")
    throw (.code "UNKNOWN_WRITER_IDENTITY")
  | some lane =>
    let observed ← git.branchHead lane.branch
    let anchor ← activationAnchor cutover identity lane.branch
    targetOf git identity lane.branch observed anchor (journal identity lane.branch)

/-! ### Where the commits stand -/

/-- The head or the cursor is off the anchor's history, or each is off the other's. -/
def Diverged (graph : CommitGraph String) (anchor head : String) (cursor : Option String) : Prop :=
  ¬ graph.Ancestor anchor head ∨ (∃ c ∈ cursor, c ≠ head ∧ ¬ graph.Ancestor anchor c) ∨
    ∃ c ∈ cursor, ¬ graph.Ancestor c head ∧ ¬ graph.Ancestor head c

/-- The cursor is past the head. -/
def Passed (graph : CommitGraph String) (head : String) (cursor : Option String) : Prop :=
  ∃ c ∈ cursor, c ≠ head ∧ graph.Ancestor head c

/-- What the commits' standing calls for. -/
def Stands (graph : CommitGraph String) (anchor head : String) (cursor : Option String) : AncestryDisposition → Prop
  | .divergedHistory => Diverged graph anchor head cursor
  | .noop => ¬ Diverged graph anchor head cursor ∧ cursor = some head
  | .staleEvent => ¬ Diverged graph anchor head cursor ∧ Passed graph head cursor
  | .forward => ¬ Diverged graph anchor head cursor ∧ cursor ≠ some head ∧ ¬ Passed graph head cursor

/-- The target of a lane is where its commits stand, from the anchor `a`. -/
structure Exact (graph : CommitGraph String) (anchor a head : String) (cursor : Option String) (target : ReconcileTarget) :
    Prop where
  observed : target.observedHead = head
  disposition : ∀ d, target.disposition = d ↔ Stands graph a head cursor d
  base : target.disposition = .forward → target.baseHead = cursor.getD anchor ∧ graph.Ancestor a (cursor.getD a)
  nodup : target.disposition = .forward → target.commits.Nodup
  commits : target.disposition = .forward → ∀ c, c ∈ target.commits ↔ graph.InRange (cursor.getD a) head c

section

variable {checkout : Checkout} {graph : CommitGraph String} {anchor a head name c d base : String} {cursor : Option String}

@[simp] theorem diverged_none : Diverged graph a head none ↔ ¬ graph.Ancestor a head := by simp [Diverged]

@[simp] theorem diverged_some : Diverged graph a head (some c) ↔ ¬ graph.Ancestor a head ∨
    c ≠ head ∧ ¬ graph.Ancestor a c ∨ ¬ graph.Ancestor c head ∧ ¬ graph.Ancestor head c := by simp [Diverged]

@[simp] theorem passed_some : Passed graph head (some c) ↔ c ≠ head ∧ graph.Ancestor head c := by simp [Passed]

theorem Stands.unique {x y : AncestryDisposition} (hx : Stands graph a head cursor x) (hy : Stands graph a head cursor y) :
    x = y := by
  have hnoop : cursor = some head → ¬ Passed graph head cursor := by
    intro hcursor ⟨c, hc, hne, _⟩
    rw [hcursor] at hc
    exact hne (Option.some.inj hc).symm
  cases x <;> cases y <;> first
    | rfl
    | exact absurd hx hy.1
    | exact absurd hy hx.1
    | exact absurd hx.2 hy.2.1
    | exact absurd hy.2 hx.2.1
    | exact absurd hx.2 hy.2.2
    | exact absurd hy.2 hx.2.2
    | exact absurd hy.2 (hnoop hx.2)
    | exact absurd hx.2 (hnoop hy.2)

theorem Checkout.isAncestor_ok (hname : checkout.revision name = some a) (hd : checkout.graph.Known d) :
    ∃ b, checkout.repository.isAncestor name d = .ok b ∧ (b = true ↔ checkout.graph.Ancestor a d) := by
  refine ⟨checkout.graph.isAncestor a d, ?_, ?_⟩
  · change checkout.isAncestor name d = _
    rw [Checkout.isAncestor, hname, checkout.revision_self hd]
  · rw [CommitGraph.isAncestor_iff]
    exact ⟨fun h => h.2, fun h => ⟨hd, h⟩⟩

/-- A listing is the range, and has no commit twice. -/
theorem Checkout.commitsBetween_ok (hname : checkout.revision name = some a) (hhead : checkout.graph.Known head) :
    ∃ commits, checkout.repository.commitsBetween name head = .ok commits ∧ commits.Nodup ∧
      ∀ c, c ∈ commits ↔ checkout.graph.InRange a head c := by
  by_cases hsame : name = head
  · refine ⟨[], if_pos hsame, List.nodup_nil, fun c => ?_⟩
    rw [hsame, checkout.revision_self hhead] at hname
    obtain rfl := Option.some.inj hname
    simp [CommitGraph.InRange]
  · refine ⟨checkout.graph.revList a head, ?_, CommitGraph.nodup_lineage.filter _, fun c => ?_⟩
    · change checkout.commitsBetween name head = _
      rw [Checkout.commitsBetween, if_neg hsame, hname, checkout.revision_self hhead]
    · exact CommitGraph.mem_revList (checkout.revision_known hname) hhead

theorem Exact.of_stands {target : ReconcileTarget} (hobserved : target.observedHead = head)
    (hstands : Stands graph a head cursor target.disposition)
    (hforward : target.disposition = .forward → (target.baseHead = cursor.getD anchor ∧ graph.Ancestor a (cursor.getD a)) ∧
      target.commits.Nodup ∧ ∀ c, c ∈ target.commits ↔ graph.InRange (cursor.getD a) head c) :
    Exact graph anchor a head cursor target where
  observed := hobserved
  disposition _ := ⟨fun h => h ▸ hstands, fun h => hstands.unique h⟩
  base h := (hforward h).1
  nodup h := (hforward h).2.1
  commits h := (hforward h).2.2

theorem ok_bind {ε α β : Type} (x : α) (f : α → Except ε β) : ((.ok x : Except ε α) >>= f) = f x := rfl

/-- A cursor whose history, and the head's, has the anchor. -/
theorem targetOf_cursor (identity branch : String) (hanchor : checkout.revision anchor = some a)
    (hhead : checkout.graph.Known head) (hcursor : checkout.graph.Known c) (hanchored : checkout.graph.Ancestor a head) :
    ∃ target, targetOf checkout.repository identity branch head anchor (some c) = .ok target ∧
      Exact checkout.graph anchor a head (some c) target := by
  obtain ⟨b₁, hb₁, hiff₁⟩ := checkout.isAncestor_ok hanchor hhead
  obtain ⟨b₂, hb₂, hiff₂⟩ := checkout.isAncestor_ok hanchor hcursor
  obtain ⟨b₃, hb₃, hiff₃⟩ := checkout.isAncestor_ok (checkout.revision_self hcursor) hhead
  obtain ⟨b₄, hb₄, hiff₄⟩ := checkout.isAncestor_ok (checkout.revision_self hhead) hcursor
  obtain rfl := hiff₁.mpr hanchored
  unfold targetOf
  rw [hb₁, ok_bind, if_neg (by decide)]
  by_cases hsame : c = head
  · subst hsame
    refine ⟨_, if_pos rfl, .of_stands rfl ⟨?_, rfl⟩ nofun⟩
    simp [hanchored, CommitGraph.Ancestor.refl]
  dsimp only
  rw [if_neg hsame, hb₂, ok_bind]
  by_cases hcursored : checkout.graph.Ancestor a c
  swap
  · rw [if_pos (Bool.eq_false_iff.mpr fun h => hcursored (hiff₂.mp h))]
    exact ⟨_, rfl, .of_stands rfl (diverged_some.mpr (.inr (.inl ⟨hsame, hcursored⟩))) nofun⟩
  rw [hiff₂.mpr hcursored, if_neg (by decide), hb₃, ok_bind]
  by_cases hforward : checkout.graph.Ancestor c head
  · obtain ⟨commits, hcommits, hnodup, hmem⟩ := checkout.commitsBetween_ok (checkout.revision_self hcursor) hhead
    rw [if_pos (hiff₃.mpr hforward), hcommits]
    refine ⟨_, rfl, .of_stands rfl ⟨?_, ?_, ?_⟩ fun _ => ⟨⟨rfl, hcursored⟩, hnodup, hmem⟩⟩
    · simp [hanchored, hcursored, hforward]
    · exact fun h => hsame (Option.some.inj h)
    · rw [passed_some]
      exact fun h => hsame (hforward.antisymm h.2)
  rw [if_neg fun h => hforward (hiff₃.mp h), hb₄, ok_bind]
  by_cases hpassed : checkout.graph.Ancestor head c
  · rw [if_pos (hiff₄.mpr hpassed)]
    refine ⟨_, rfl, .of_stands rfl ⟨?_, passed_some.mpr ⟨hsame, hpassed⟩⟩ nofun⟩
    simp [hanchored, hcursored, hpassed]
  · rw [if_neg fun h => hpassed (hiff₄.mp h)]
    exact ⟨_, rfl, .of_stands rfl (diverged_some.mpr (.inr (.inr ⟨hforward, hpassed⟩))) nofun⟩

/-- **What is derived is where the commits stand.** -/
theorem targetOf_exact (identity branch : String) (hanchor : checkout.revision anchor = some a)
    (hhead : checkout.graph.Known head) (hcursor : ∀ c ∈ cursor, checkout.graph.Known c) :
    ∃ target, targetOf checkout.repository identity branch head anchor cursor = .ok target ∧
      Exact checkout.graph anchor a head cursor target := by
  by_cases hanchored : checkout.graph.Ancestor a head
  · cases cursor with
    | some c => exact targetOf_cursor identity branch hanchor hhead (hcursor c rfl) hanchored
    | none =>
      obtain ⟨b, hb, hiff⟩ := checkout.isAncestor_ok hanchor hhead
      obtain rfl := hiff.mpr hanchored
      obtain ⟨commits, hcommits, hnodup, hmem⟩ := checkout.commitsBetween_ok hanchor hhead
      unfold targetOf
      rw [hb, ok_bind, if_neg (by decide)]
      dsimp only
      rw [hcommits]
      refine ⟨_, rfl, .of_stands rfl ⟨?_, nofun, nofun⟩ fun _ => ⟨⟨rfl, .refl a⟩, hnodup, hmem⟩⟩
      exact diverged_none.not.mpr (not_not.mpr hanchored)
  · obtain ⟨b, hb, hiff⟩ := checkout.isAncestor_ok hanchor hhead
    obtain rfl : b = false := Bool.eq_false_iff.mpr fun h => hanchored (hiff.mp h)
    unfold targetOf
    rw [hb, ok_bind, if_pos rfl]
    exact ⟨_, rfl, .of_stands rfl (.inl hanchored) nofun⟩

theorem deriveTarget_eq {topology : Topology} {cutover : Option Json} {identity : String} {lane : WriterLane}
    (hidentity : identity ≠ "") (hlane : topology.active.lookup identity = some lane)
    (hhead : checkout.branches lane.branch = some head) (hanchor : activationAnchor cutover identity lane.branch = .ok anchor)
    (journal : CursorJournal) : deriveTarget checkout.repository topology cutover journal identity =
      targetOf checkout.repository identity lane.branch head anchor (journal identity lane.branch) := by
  have hbranch : checkout.repository.branchHead lane.branch = .ok head := by
    change checkout.branchHead lane.branch = _
    rw [Checkout.branchHead, hhead]
  rw [deriveTarget, rejectIf, if_neg hidentity, ok_bind, hlane]
  dsimp only
  rw [hbranch, ok_bind, hanchor, ok_bind]

/-- **Over any commit graph, anchor, cursor and head, the target of an active lane is where its
commits stand; and a range that is taken to the cursor is not derived again while the branch
stays, however the graph grows.** -/
theorem target_exact {topology : Topology} {cutover : Option Json} (journal : CursorJournal) {identity : String}
    {lane : WriterLane} (hidentity : identity ≠ "") (hlane : topology.active.lookup identity = some lane)
    (hhead : checkout.branches lane.branch = some head) (hanchor : activationAnchor cutover identity lane.branch = .ok anchor)
    (hrevision : checkout.revision anchor = some a) (hcursor : ∀ c ∈ journal identity lane.branch, checkout.graph.Known c) :
    ∃ target, deriveTarget checkout.repository topology cutover journal identity = .ok target ∧
      Exact checkout.graph anchor a head (journal identity lane.branch) target ∧
      (target.disposition = .forward → ∀ (checkout' : Checkout) (journal' : CursorJournal),
        checkout.graph.Extends checkout'.graph → checkout'.revision anchor = some a →
        checkout'.branches lane.branch = some head → journal' identity lane.branch = some target.observedHead →
        ∃ target', deriveTarget checkout'.repository topology cutover journal' identity = .ok target' ∧
          target'.disposition = .noop) := by
  have hknown := checkout.branches_known hhead
  obtain ⟨target, htarget, hexact⟩ := targetOf_exact identity lane.branch hrevision hknown hcursor
  refine ⟨target, (deriveTarget_eq hidentity hlane hhead hanchor journal).trans htarget, hexact, ?_⟩
  intro hforward checkout' journal' hextends hrevision' hhead' hjournal'
  rw [hexact.observed] at hjournal'
  have hknown' := checkout'.branches_known hhead'
  have hcursor' : ∀ c ∈ journal' identity lane.branch, checkout'.graph.Known c := by
    rw [hjournal']
    rintro c ⟨⟩
    exact hknown'
  obtain ⟨target', htarget', hexact'⟩ := targetOf_exact identity lane.branch hrevision' hknown' hcursor'
  refine ⟨target', (deriveTarget_eq hidentity hlane hhead' hanchor journal').trans htarget', ?_⟩
  rw [hexact'.disposition, hjournal']
  refine ⟨?_, rfl⟩
  have hanchored : checkout.graph.Ancestor a head := by
    by_contra hnot
    exact ((hexact.disposition _).mp hforward).1 (.inl hnot)
  simp [(CommitGraph.ancestor_of_extends hextends hknown).mpr hanchored, CommitGraph.Ancestor.refl]

end

/-! ### A lane with a commit -/

/-- A commit on top of another. -/
def pairGraph : CommitGraph String where
  parents c := if c = "one" then some [] else if c = "two" then some ["one"] else none
  generation c := if c = "two" then 1 else 0
  parents_isSome := by
    intro c ps p hps hp
    split at hps
    · obtain rfl := Option.some.inj hps
      cases hp
    · split at hps
      · obtain rfl := Option.some.inj hps
        obtain rfl := List.mem_singleton.mp hp
        rfl
      · cases hps
  generation_lt := by
    intro c ps p hps hp
    split at hps
    · obtain rfl := Option.some.inj hps
      cases hp
    · split at hps
      · next htwo =>
        obtain rfl := Option.some.inj hps
        obtain rfl := List.mem_singleton.mp hp
        rw [if_pos htwo]
        decide
      · cases hps

def pairCheckout : Checkout where
  graph := pairGraph
  branches branch := if branch = "bus/ONE" then some "two" else none
  revision name := if (pairGraph.parents name).isSome then some name else none
  branches_known := by
    intro branch c h
    split at h
    · cases h
      rfl
    · cases h
  revision_known := by
    intro name c h
    split at h
    · next hknown =>
      cases h
      exact hknown
    · cases h
  revision_self h := if_pos h

def pairTopology : Topology := [("ONE", ⟨"ONE", "ONE", "bus/ONE", .active⟩)]

def pairCutover : Option Json := some (.object [
  ("current_writer_lanes", .object [("ONE", .string "bus/ONE")]),
  ("planned_current_writer_lanes", .object [("ONE", .string "bus/ONE")]),
  ("verified_successor_heads", .object [("ONE", .string "one")])])

theorem target_exact_pair : ∃ target,
    deriveTarget pairCheckout.repository pairTopology pairCutover (fun _ _ => none) "ONE" = .ok target ∧
      target.commits = ["two"] ∧ Exact pairGraph "one" "one" "two" none target := by
  obtain ⟨target, htarget, hexact, -⟩ := target_exact (fun _ _ => none) (show "ONE" ≠ "" by decide)
    (show pairTopology.active.lookup "ONE" = some _ from rfl) (show pairCheckout.branches "bus/ONE" = some "two" from rfl)
    (show activationAnchor pairCutover "ONE" "bus/ONE" = .ok "one" from rfl) rfl nofun
  refine ⟨target, htarget, ?_, hexact⟩
  have hcommits : (deriveTarget pairCheckout.repository pairTopology pairCutover (fun _ _ => none) "ONE").map (·.commits) =
      .ok ["two"] := by decide +kernel
  rw [htarget] at hcommits
  exact Except.ok.inj hcommits

end CcbCore.Reconcile
