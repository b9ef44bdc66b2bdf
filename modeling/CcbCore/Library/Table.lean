import Mathlib.Data.List.AList

/-!
# Tables with a primary key

A table is a finite association list whose keys do not repeat: the row type holds
the columns outside the primary key. `insertRow` refuses a key that is there;
`modify` is `UPDATE … WHERE key = k`; `Any` is `EXISTS (SELECT 1 … WHERE p)`.
-/

namespace CcbCore

universe u v

/-- Rows of type `α` under keys of type `κ`. -/
abbrev Table (κ : Type u) (α : Type v) := AList fun _ : κ => α

namespace Table

variable {κ : Type u} {α : Type v} [DecidableEq κ]

/-- `INSERT`, which a key that is there refuses. -/
def insertRow (t : Table κ α) (k : κ) (row : α) : Option (Table κ α) :=
  if (t.lookup k).isSome then none else some (t.insert k row)

/-- `UPDATE … WHERE key = k`. -/
def modify (t : Table κ α) (k : κ) (f : α → α) : Table κ α :=
  match t.lookup k with
  | none => t
  | some row => t.insert k (f row)

/-- The first row that a condition selects. -/
def select (t : Table κ α) (p : κ → α → Bool) : Option (κ × α) :=
  (t.entries.find? fun e => p e.1 e.2).map fun e => (e.1, e.2)

/-- `EXISTS (SELECT 1 … WHERE p)`. -/
def any (t : Table κ α) (p : κ → α → Bool) : Bool := t.entries.any fun e => p e.1 e.2

theorem insertRow_eq_some {t t' : Table κ α} {k : κ} {row : α} :
    insertRow t k row = some t' ↔ t.lookup k = none ∧ t' = t.insert k row := by
  unfold insertRow
  cases t.lookup k <;> simp [eq_comm]

theorem lookup_insert_eq_some {t : Table κ α} {k k' : κ} {row row' : α} :
    (t.insert k row).lookup k' = some row' ↔
      (k' = k ∧ row' = row) ∨ (k' ≠ k ∧ t.lookup k' = some row') := by
  by_cases h : k' = k
  · subst h
    simp [AList.lookup_insert, eq_comm]
  · simp [AList.lookup_insert_ne h, h]

theorem modify_of_some {t : Table κ α} {k : κ} {f : α → α} {row : α} (h : t.lookup k = some row) :
    modify t k f = t.insert k (f row) := by
  simp [modify, h]

theorem lookup_modify (t : Table κ α) (k k' : κ) (f : α → α) :
    (modify t k f).lookup k' = if k' = k then (t.lookup k').map f else t.lookup k' := by
  by_cases hk : k' = k
  · subst hk
    cases h : t.lookup k' with
    | none => simp [modify, h]
    | some row => simp [modify_of_some h]
  · cases h : t.lookup k with
    | none => simp [modify, h, hk]
    | some row => simp [modify_of_some h, AList.lookup_insert_ne hk, hk]

theorem mem_entries_iff {t : Table κ α} {k : κ} {row : α} :
    ⟨k, row⟩ ∈ t.entries ↔ t.lookup k = some row := by
  rw [← AList.mem_lookup_iff, Option.mem_def]

theorem any_iff {t : Table κ α} {p : κ → α → Bool} :
    any t p = true ↔ ∃ k row, t.lookup k = some row ∧ p k row = true := by
  simp only [any, List.any_eq_true]
  constructor
  · rintro ⟨⟨k, row⟩, hmem, hp⟩
    exact ⟨k, row, mem_entries_iff.mp hmem, hp⟩
  · rintro ⟨k, row, hrow, hp⟩
    exact ⟨⟨k, row⟩, mem_entries_iff.mpr hrow, hp⟩

theorem select_eq_some {t : Table κ α} {p : κ → α → Bool} {k : κ} {row : α}
    (h : select t p = some (k, row)) : t.lookup k = some row ∧ p k row = true := by
  obtain ⟨⟨k', row'⟩, hfind, heq⟩ := Option.map_eq_some_iff.mp h
  obtain ⟨rfl, rfl⟩ := Prod.mk.inj heq
  exact ⟨mem_entries_iff.mp (List.mem_of_find?_eq_some hfind), by simpa using List.find?_some hfind⟩

theorem select_eq_none {t : Table κ α} {p : κ → α → Bool} (h : select t p = none) {k : κ} {row : α}
    (hrow : t.lookup k = some row) : p k row = false := by
  have hnone := List.find?_eq_none.mp (Option.map_eq_none_iff.mp h) ⟨k, row⟩ (mem_entries_iff.mpr hrow)
  simpa using hnone

end Table

end CcbCore
