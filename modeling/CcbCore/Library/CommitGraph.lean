import Mathlib.Data.List.Dedup
import Mathlib.Logic.Relation
import Mathlib.Tactic.Common

/-!
# Commit graphs

The commits of a repository, each with its parents. The parents of a commit are
commits, and were there before it: a generation number grows from a parent to its
child, so no commit is its own ancestor (`Ancestor.antisymm`). A graph that grows
(`Extends`) keeps the ancestors of the commits that are there (`ancestor_of_extends`).
A range `base..head` is what `head` reaches and `base` does not; where its commits have
one parent each it is one line from `base` to `head` (`Line.of_range`). `isAncestor` and
`revList` compute what git's `merge-base --is-ancestor` and `rev-list` do.
-/

namespace CcbCore

/-- Commits, by their names. -/
structure CommitGraph (κ : Type) where
  /-- The parents of a commit that is there. -/
  parents : κ → Option (List κ)
  /-- The generation number of a commit. -/
  generation : κ → ℕ
  /-- A parent is there. -/
  parents_isSome : ∀ {c ps p}, parents c = some ps → p ∈ ps → (parents p).isSome
  /-- A parent is of an earlier generation. -/
  generation_lt : ∀ {c ps p}, parents c = some ps → p ∈ ps → generation p < generation c

namespace CommitGraph

variable {κ : Type} {g g' g'' : CommitGraph κ} {a b c d base head : κ}

/-- The commit is there. -/
def Known (g : CommitGraph κ) (c : κ) : Prop := (g.parents c).isSome

/-- `p` is a parent of `c`. -/
def Parent (g : CommitGraph κ) (p c : κ) : Prop := ∃ ps, g.parents c = some ps ∧ p ∈ ps

/-- `a` is `c`, or above it. -/
def Ancestor (g : CommitGraph κ) : κ → κ → Prop := Relation.ReflTransGen g.Parent

theorem Parent.generation_lt (h : g.Parent a c) : g.generation a < g.generation c := by
  obtain ⟨ps, hps, hmem⟩ := h
  exact g.generation_lt hps hmem

theorem Ancestor.refl (c : κ) : g.Ancestor c c := Relation.ReflTransGen.refl

theorem Ancestor.trans (hab : g.Ancestor a b) (hbc : g.Ancestor b c) : g.Ancestor a c :=
  Relation.ReflTransGen.trans hab hbc

theorem Parent.ancestor (h : g.Parent a c) : g.Ancestor a c := Relation.ReflTransGen.single h

theorem Ancestor.generation_le (h : g.Ancestor a c) : g.generation a ≤ g.generation c := by
  induction h with
  | refl => omega
  | tail _ hp ih =>
    have := hp.generation_lt
    omega

/-- An ancestor is the commit, or is above one of its parents. -/
theorem ancestor_iff : g.Ancestor a c ↔ a = c ∨ ∃ p, g.Parent p c ∧ g.Ancestor a p := by
  constructor
  · intro h
    rcases Relation.ReflTransGen.cases_tail h with rfl | ⟨p, hap, hp⟩
    · exact .inl rfl
    · exact .inr ⟨p, hp, hap⟩
  · rintro (rfl | ⟨p, hp, hap⟩)
    · exact .refl _
    · exact hap.trans hp.ancestor

theorem Ancestor.generation_lt (h : g.Ancestor a c) (hne : a ≠ c) : g.generation a < g.generation c := by
  rcases ancestor_iff.mp h with rfl | ⟨p, hp, hap⟩
  · exact absurd rfl hne
  · have := hap.generation_le
    have := hp.generation_lt
    omega

/-- Two commits above each other are one. -/
theorem Ancestor.antisymm (hab : g.Ancestor a b) (hba : g.Ancestor b a) : a = b := by
  by_contra hne
  have := hab.generation_lt hne
  have := hba.generation_le
  omega

/-- An ancestor of a commit with one parent is the commit, or above the parent. -/
theorem ancestor_iff_of_parents (h : g.parents c = some [b]) : g.Ancestor a c ↔ a = c ∨ g.Ancestor a b := by
  rw [ancestor_iff]
  simp [Parent, h]

theorem Ancestor.known (h : g.Ancestor a c) (hc : g.Known c) : g.Known a := by
  induction h using Relation.ReflTransGen.head_induction_on with
  | refl => exact hc
  | head hp _ _ =>
    obtain ⟨ps, hps, hmem⟩ := hp
    exact g.parents_isSome hps hmem

/-! ### Growth -/

/-- The second graph has the commits of the first. -/
def Extends (g g' : CommitGraph κ) : Prop := ∀ c ps, g.parents c = some ps → g'.parents c = some ps

theorem Extends.refl (g : CommitGraph κ) : g.Extends g := fun _ _ h => h

theorem Extends.trans (h : g.Extends g') (h' : g'.Extends g'') : g.Extends g'' := fun c ps hc => h' c ps (h c ps hc)

theorem Extends.parent_iff (h : g.Extends g') (hc : g.Known c) : g'.Parent a c ↔ g.Parent a c := by
  obtain ⟨ps, hps⟩ := Option.isSome_iff_exists.mp hc
  simp [Parent, hps, h c ps hps]

/-- The ancestors of a commit that was there are what they were. -/
theorem ancestor_of_extends (h : g.Extends g') (hc : g.Known c) : g'.Ancestor a c ↔ g.Ancestor a c := by
  constructor
  · intro hac
    induction hac using Relation.ReflTransGen.head_induction_on with
    | refl => exact .refl _
    | @head x y hp _ ih => exact Relation.ReflTransGen.head ((h.parent_iff (ih.known hc)).mp hp) ih
  · intro hac
    induction hac with
    | refl => exact .refl _
    | tail _ hp ih =>
      obtain ⟨ps, hps, hmem⟩ := hp
      exact Relation.ReflTransGen.tail (ih (g.parents_isSome hps hmem)) ⟨ps, h _ ps hps, hmem⟩

/-! ### Ranges -/

/-- `c` is in `base..head`. -/
def InRange (g : CommitGraph κ) (base head c : κ) : Prop := g.Ancestor c head ∧ ¬ g.Ancestor c base

/-- The commits of a line of single parents from `base`, which is not one of them. -/
inductive Line (g : CommitGraph κ) (base : κ) : List κ → κ → Prop where
  | nil : g.Line base [] base
  | snoc {cs : List κ} {p c : κ} : g.Line base cs p → g.parents c = some [p] → g.Line base (cs ++ [c]) c

namespace Line

variable {cs ds : List κ}

theorem ancestor (h : g.Line base cs head) : g.Ancestor base head := by
  induction h with
  | nil => exact .refl _
  | snoc _ hp ih => exact (ancestor_iff_of_parents hp).mpr (.inr ih)

/-- The commits of a line are those of its range. -/
theorem mem_iff (h : g.Line base cs head) : c ∈ cs ↔ g.InRange base head c := by
  induction h with
  | nil =>
    simp only [List.not_mem_nil, false_iff]
    exact fun ⟨hc, hnot⟩ => hnot hc
  | @snoc cs p d hline hp ih =>
    have hd : ¬ g.Ancestor d base := by
      intro h
      have := h.generation_le
      have := hline.ancestor.generation_le
      have := g.generation_lt hp (List.mem_singleton.mpr rfl)
      omega
    rw [List.mem_append, List.mem_singleton, ih, InRange, InRange, ancestor_iff_of_parents hp]
    constructor
    · rintro (⟨hc, hnot⟩ | rfl)
      · exact ⟨.inr hc, hnot⟩
      · exact ⟨.inl rfl, hd⟩
    · rintro ⟨rfl | hc, hnot⟩
      · exact .inr rfl
      · exact .inl ⟨hc, hnot⟩

theorem append (h : g.Line base cs b) (h' : g.Line b ds head) : g.Line base (cs ++ ds) head := by
  induction h' with
  | nil => simpa using h
  | snoc _ hp ih => rw [← List.append_assoc]; exact ih.snoc hp

/-- A range below its base whose commits have one parent each is a line. -/
theorem of_range (hbase : g.Ancestor base head) (hsingle : ∀ c, g.InRange base head c → ∃ p, g.parents c = some [p]) :
    ∃ cs, g.Line base cs head := by
  induction hbase with
  | refl => exact ⟨[], .nil⟩
  | @tail p c hbp hpc ih =>
    have hnot : ¬ g.Ancestor c base := by
      intro h
      have := h.generation_le
      have := Ancestor.generation_le hbp
      have := hpc.generation_lt
      omega
    obtain ⟨q, hq⟩ := hsingle c ⟨.refl c, hnot⟩
    obtain rfl : p = q := by
      obtain ⟨ps, hps, hmem⟩ := hpc
      rw [hq] at hps
      cases hps
      simpa using hmem
    obtain ⟨cs, hcs⟩ := ih fun d ⟨hd, hdb⟩ => hsingle d ⟨hd.trans hpc.ancestor, hdb⟩
    exact ⟨cs ++ [c], hcs.snoc hq⟩

end Line

/-! ### Listings -/

variable [DecidableEq κ] {n m : ℕ}

/-- A commit with its ancestors, each after its own, from below a generation. -/
def lineage (g : CommitGraph κ) : ℕ → κ → List κ
  | 0, _ => []
  | n + 1, c =>
    match g.parents c with
    | none => []
    | some ps => (ps.flatMap (g.lineage n)).dedup ++ [c]

theorem ancestor_of_mem_lineage (h : a ∈ g.lineage n c) : g.Known c ∧ g.Ancestor a c := by
  induction n generalizing c with
  | zero => simp [lineage] at h
  | succ n ih =>
    cases hps : g.parents c with
    | none => simp [lineage, hps] at h
    | some ps =>
      refine ⟨Option.isSome_iff_exists.mpr ⟨ps, hps⟩, ancestor_iff.mpr ?_⟩
      simp only [lineage, hps, List.mem_append, List.mem_dedup, List.mem_flatMap, List.mem_singleton] at h
      rcases h with ⟨p, hp, ha⟩ | rfl
      · exact .inr ⟨p, ⟨ps, hps, hp⟩, (ih ha).2⟩
      · exact .inl rfl

theorem mem_lineage (hn : g.generation c < n) : a ∈ g.lineage n c ↔ g.Known c ∧ g.Ancestor a c := by
  refine ⟨ancestor_of_mem_lineage, ?_⟩
  rintro ⟨hc, ha⟩
  induction n generalizing c with
  | zero => omega
  | succ n ih =>
    obtain ⟨ps, hps⟩ := Option.isSome_iff_exists.mp hc
    simp only [lineage, hps, List.mem_append, List.mem_dedup, List.mem_flatMap, List.mem_singleton]
    rcases ancestor_iff.mp ha with rfl | ⟨p, ⟨qs, hqs, hp⟩, ha⟩
    · exact .inr rfl
    · obtain rfl := Option.some.inj (hps.symm.trans hqs)
      have := g.generation_lt hps hp
      exact .inl ⟨p, hp, ih (by omega) (g.parents_isSome hps hp) ha⟩

/-- A listing does not depend on how far it may go. -/
theorem lineage_eq (hn : g.generation c < n) (hm : g.generation c < m) : g.lineage n c = g.lineage m c := by
  induction n generalizing c m with
  | zero => omega
  | succ n ih =>
    cases m with
    | zero => omega
    | succ m =>
      cases hps : g.parents c with
      | none => simp [lineage, hps]
      | some ps =>
        have hflat : ps.flatMap (g.lineage n) = ps.flatMap (g.lineage m) := by
          refine List.flatMap_congr fun p hp => ?_
          have := g.generation_lt hps hp
          exact ih (by omega) (by omega)
        simp only [lineage, hps, hflat]

theorem nodup_lineage : (g.lineage n c).Nodup := by
  cases n with
  | zero => exact List.nodup_nil
  | succ n =>
    cases hps : g.parents c with
    | none => simp [lineage, hps]
    | some ps =>
      simp only [lineage, hps, List.nodup_append, List.nodup_dedup, List.nodup_cons, List.not_mem_nil, not_false_eq_true,
        List.nodup_nil, and_self, List.mem_dedup, List.mem_flatMap, List.mem_singleton, true_and]
      rintro a ⟨p, hp, ha⟩ b rfl rfl
      have := (ancestor_of_mem_lineage ha).2.generation_le
      have := g.generation_lt hps hp
      omega

/-- `merge-base --is-ancestor`, of a commit that is there. -/
def isAncestor (g : CommitGraph κ) (a c : κ) : Bool := decide (a ∈ g.lineage (g.generation c + 1) c)

theorem isAncestor_iff : g.isAncestor a c = true ↔ g.Known c ∧ g.Ancestor a c := by
  rw [isAncestor, decide_eq_true_iff, mem_lineage (Nat.lt_succ_self _)]

/-- `rev-list --reverse base..head`, each commit after its parents. -/
def revList (g : CommitGraph κ) (base head : κ) : List κ :=
  (g.lineage (g.generation head + 1) head).filter fun c => !g.isAncestor c base

theorem mem_revList (hbase : g.Known base) (hhead : g.Known head) : c ∈ g.revList base head ↔ g.InRange base head c := by
  rw [revList, List.mem_filter, mem_lineage (Nat.lt_succ_self _), InRange]
  simp [← Bool.not_eq_true, isAncestor_iff, hbase, hhead]

/-- A commit with one parent comes last in a range that goes on to it. -/
theorem revList_child (hc : g.parents c = some [b]) (hbase : ¬ g.Ancestor c base) :
    g.revList base c = g.revList base b ++ [c] := by
  have hgen := g.generation_lt hc (List.mem_singleton.mpr rfl)
  have hlast : g.isAncestor c base = false := by
    rw [← Bool.not_eq_true, isAncestor_iff]
    exact fun h => hbase h.2
  have hlineage : g.lineage (g.generation c + 1) c = g.lineage (g.generation b + 1) b ++ [c] := by
    rw [lineage_eq (Nat.lt_succ_self (g.generation b)) hgen]
    simp [lineage, hc, nodup_lineage.dedup]
  simp only [revList, hlineage, List.filter_append]
  simp [hlast]

end CommitGraph

end CcbCore
