import Mathlib.Data.Set.Disjoint
import CcbCore.Library.Raising
import CcbCore.Library.Table

/-!
# Indexes of owners by their keys

An index is filled owner by owner: an owner claims its keys one after another, and a key that
has an owner, also the same, refuses it. What is claimed then belongs to one owner
(`Indexed.claim`), and owners whose keys are apart never refuse one another
(`Indexed.claim_ok`).
-/

namespace CcbCore.Index

open CcbCore.Raising CcbCore.Table

variable {κ α ε : Type} [DecidableEq κ] {index index' : Table κ α} {owner : α} {keys : List κ} {e : ε}
  {owners : List α} {keysOf : α → List κ}

/-- The owner claims the keys. -/
def claimKeys (e : ε) (owner : α) (index : Table κ α) (keys : List κ) : Except ε (Table κ α) :=
  keys.foldlM (fun index key =>
    match insertRow index key owner with
    | none => .error e
    | some index => .ok index) index

theorem claim_cons {key : κ} : claimKeys e owner index (key :: keys) = .ok index' ↔
    index.lookup key = none ∧ claimKeys e owner (index.insert key owner) keys = .ok index' := by
  rw [claimKeys, List.foldlM_cons]
  cases hinsert : insertRow index key owner with
  | none =>
    refine iff_of_false (by simp [bind, Except.bind]) ?_
    intro ⟨hnone, _⟩
    have hsome : insertRow index key owner = some (index.insert key owner) := insertRow_eq_some.mpr ⟨hnone, rfl⟩
    rw [hinsert] at hsome
    cases hsome
  | some index₁ =>
    obtain ⟨hnone, rfl⟩ := insertRow_eq_some.mp hinsert
    exact ⟨fun h => ⟨hnone, h⟩, fun h => h.2⟩

/-- What is claimed had no owner before. -/
theorem lookup_claim (h : claimKeys e owner index keys = .ok index') :
    (∀ key ∈ keys, index.lookup key = none) ∧
      ∀ key, index'.lookup key = if key ∈ keys then some owner else index.lookup key := by
  induction keys generalizing index with
  | nil =>
    cases h
    simp
  | cons first keys ih =>
    obtain ⟨hnone, h⟩ := claim_cons.mp h
    obtain ⟨hfresh, hlookup⟩ := ih h
    have hne : ∀ key ∈ keys, key ≠ first := by
      intro key hkey heq
      have hkept := hfresh key hkey
      rw [heq, AList.lookup_insert] at hkept
      cases hkept
    refine ⟨List.forall_mem_cons.mpr ⟨hnone, fun key hkey => ?_⟩, fun key => ?_⟩
    · rw [← AList.lookup_insert_ne (hne key hkey)]
      exact hfresh key hkey
    · rw [hlookup]
      by_cases hkey : key ∈ keys
      · rw [if_pos hkey, if_pos (List.mem_cons_of_mem _ hkey)]
      · rw [if_neg hkey]
        by_cases heq : key = first
        · subst heq
          rw [if_pos List.mem_cons_self, AList.lookup_insert]
        · rw [if_neg (by simp [heq, hkey]), AList.lookup_insert_ne heq]

theorem claim_fresh (hnodup : keys.Nodup) (hfresh : ∀ key ∈ keys, index.lookup key = none) :
    ∃ index', claimKeys e owner index keys = .ok index' := by
  induction keys generalizing index with
  | nil => exact ⟨index, rfl⟩
  | cons first keys ih =>
    obtain ⟨hnot, hnodup⟩ := List.nodup_cons.mp hnodup
    obtain ⟨hfirst, hrest⟩ := List.forall_mem_cons.mp hfresh
    have hrest' : ∀ key ∈ keys, (index.insert first owner).lookup key = none := by
      intro key hkey
      have hne : key ≠ first := fun heq => hnot (heq ▸ hkey)
      rw [AList.lookup_insert_ne hne]
      exact hrest key hkey
    obtain ⟨index', h⟩ := ih hnodup hrest'
    exact ⟨index', claim_cons.mpr ⟨hfirst, h⟩⟩

/-- The index has the keys of the owners, and no others. -/
def Indexed (owners : List α) (keysOf : α → List κ) (index : Table κ α) : Prop :=
  ∀ key owner, index.lookup key = some owner ↔ owner ∈ owners ∧ key ∈ keysOf owner

theorem indexed_empty : Indexed [] keysOf (∅ : Table κ α) := fun key owner => by simp

/-- One more owner has claimed its keys, which none of the others has. -/
theorem Indexed.claim (hindex : Indexed owners keysOf index) (h : claimKeys e owner index (keysOf owner) = .ok index') :
    Indexed (owners ++ [owner]) keysOf index' ∧ ∀ other ∈ owners, (keysOf other).Disjoint (keysOf owner) := by
  obtain ⟨hfresh, hlookup⟩ := lookup_claim h
  have hapart : ∀ other ∈ owners, (keysOf other).Disjoint (keysOf owner) := by
    intro other hother key hkey hclaimed
    have hnone := hfresh key hclaimed
    rw [(hindex key other).mpr ⟨hother, hkey⟩] at hnone
    cases hnone
  refine ⟨fun key other => ?_, hapart⟩
  rw [hlookup, List.mem_append, List.mem_singleton]
  by_cases hkey : key ∈ keysOf owner
  · rw [if_pos hkey, Option.some.injEq]
    constructor
    · intro heq
      exact ⟨.inr heq.symm, heq ▸ hkey⟩
    · intro ⟨hmem, hother⟩
      rcases hmem with hmem | heq
      · exact absurd hkey (hapart other hmem hother)
      · exact heq.symm
  · rw [if_neg hkey, hindex]
    refine and_congr_left fun hother => ⟨.inl, fun hmem => hmem.resolve_right fun heq => hkey (heq ▸ hother)⟩

theorem Indexed.claim_ok (hindex : Indexed owners keysOf index) (hnodup : (keysOf owner).Nodup)
    (hapart : ∀ other ∈ owners, (keysOf other).Disjoint (keysOf owner)) :
    ∃ index', claimKeys e owner index (keysOf owner) = .ok index' := by
  refine claim_fresh hnodup fun key hkey => ?_
  cases hlookup : index.lookup key with
  | none => rfl
  | some other =>
    obtain ⟨hother, hkey'⟩ := (hindex key other).mp hlookup
    exact absurd hkey (hapart other hother hkey')

end CcbCore.Index
