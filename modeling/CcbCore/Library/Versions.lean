import Mathlib.Data.List.Basic
import Mathlib.Logic.Function.Basic

/-!
# Row versions

A table under concurrent transactions, each statement of which sees what is committed when it
starts: a row is a `Version`, which remembers the transaction that inserted it and the one
that last deleted it. What an aborted transaction did counts for no one. A
transaction that comes to a version another open one is at work on waits.
-/

namespace CcbCore

universe u v w

variable {κ : Type u} {α : Type v} {τ : Type w}

/-- How far a transaction is. -/
inductive Status where
  | open
  | committed
  | aborted
  deriving DecidableEq, Repr

/-- A version of a row. -/
structure Version (κ : Type u) (α : Type v) (τ : Type w) where
  key : κ
  row : α
  insertedBy : τ
  deletedBy : Option τ

/-- The versions of a table's rows, and the transactions. -/
structure Store (κ : Type u) (α : Type v) (τ : Type w) where
  versions : List (Version κ α τ)
  status : τ → Status

namespace Store

variable (s : Store κ α τ) (t : τ)

/-- `t` deletes a version. -/
def deleteAt (i : ℕ) : Store κ α τ :=
  { s with versions := s.versions.modify i fun v => { v with deletedBy := some t } }

variable [DecidableEq τ]

/-- What a transaction did counts for `t`. -/
def counts (u : τ) : Bool := u = t || s.status u = .committed

/-- A version is a row for `t`. -/
def isLive (v : Version κ α τ) : Bool := s.counts t v.insertedBy && !v.deletedBy.any (s.counts t)

/-- The transaction is another, and open. -/
def isBusy (u : τ) : Bool := u ≠ t && s.status u = .open

/-- The versions that a statement of `t` sees, by their places. -/
def snapshot : List ℕ := (List.range s.versions.length).filter fun i => s.versions[i]?.any (s.isLive t)

/-- `t` ends. -/
def finish (status : Status) : Store κ α τ := { s with status := Function.update s.status t status }

variable [DecidableEq κ]

/-- An insert of a key waits for another transaction. -/
def waits (k : κ) : Bool :=
  s.versions.any fun v => v.key = k && (s.isBusy t v.insertedBy || v.deletedBy.any (s.isBusy t))

/-- An insert of a key finds a row. -/
def conflicts (k : κ) : Bool := s.versions.any fun v => v.key = k && s.isLive t v

/-- `insert … on conflict do nothing`, when it does not wait. -/
def insertUnlessConflict (k : κ) (row : α) : Store κ α τ :=
  if s.conflicts t k then s else { s with versions := s.versions ++ [⟨k, row, t, none⟩] }

/-! ### What is left of a version -/

variable {s t} {k : κ} {row : α} {i : ℕ} {u : τ} {v : Version κ α τ}

/-- A committed version that no one deleted is in the way of its key. -/
theorem conflicts_of_mem (h : v ∈ s.versions) (hcommitted : s.status v.insertedBy = .committed)
    (hdeleted : v.deletedBy = none) : s.conflicts t v.key = true :=
  List.any_eq_true.mpr ⟨v, h, by simp [isLive, counts, hcommitted, hdeleted]⟩

/-- An insert waits for another transaction that has inserted its key. -/
theorem waits_of_mem (h : v ∈ s.versions) (hne : v.insertedBy ≠ t) (hopen : s.status v.insertedBy = .open) :
    s.waits t v.key = true :=
  List.any_eq_true.mpr ⟨v, h, by simp [isBusy, hne, hopen]⟩

omit [DecidableEq κ]

@[simp] theorem versions_finish {status : Status} : (s.finish t status).versions = s.versions := rfl

@[simp] theorem status_finish_self {status : Status} : (s.finish t status).status t = status := Function.update_self ..

theorem status_finish_of_ne {status : Status} (h : u ≠ t) : (s.finish t status).status u = s.status u :=
  Function.update_of_ne h ..

omit [DecidableEq τ]

@[simp] theorem status_deleteAt : (s.deleteAt t i).status = s.status := rfl

theorem getElem?_deleteAt {j : ℕ} (h : (s.deleteAt t i).versions[j]? = some v) :
    ∃ v', s.versions[j]? = some v' ∧ (v = v' ∨ j = i ∧ v = { v' with deletedBy := some t }) := by
  rw [deleteAt, List.getElem?_modify] at h
  obtain ⟨v', hv', rfl⟩ := Option.map_eq_some_iff.mp h
  refine ⟨v', hv', ?_⟩
  by_cases hij : i = j
  · exact .inr ⟨hij.symm, if_pos hij⟩
  · exact .inl (if_neg hij)

/-- A version after a delete was there before, with the same key, row and inserter. -/
theorem mem_deleteAt (h : v ∈ (s.deleteAt t i).versions) :
    ∃ v' ∈ s.versions, v = v' ∨ s.versions[i]? = some v' ∧ v = { v' with deletedBy := some t } := by
  obtain ⟨j, hj⟩ := List.mem_iff_getElem?.mp h
  obtain ⟨v', hv', heq⟩ := getElem?_deleteAt hj
  refine ⟨v', List.mem_of_getElem? hv', heq.imp id ?_⟩
  rintro ⟨rfl, hdeleted⟩
  exact ⟨hv', hdeleted⟩

/-- A delete takes no version away. -/
theorem getElem?_deleteAt_of_getElem? {j : ℕ} (h : s.versions[j]? = some v) :
    ∃ v', (s.deleteAt t i).versions[j]? = some v' ∧ v'.key = v.key ∧ v'.row = v.row ∧ v'.insertedBy = v.insertedBy := by
  rw [deleteAt, List.getElem?_modify, h]
  by_cases hij : i = j
  · exact ⟨{ v with deletedBy := some t }, congrArg some (if_pos hij), rfl, rfl, rfl⟩
  · exact ⟨v, congrArg some (if_neg hij), rfl, rfl, rfl⟩

end Store

end CcbCore
