import Mathlib.Data.List.Perm.Basic
import Mathlib.Tactic.Common

/-!
# Taking the least element out of a list

`takeLeast le l` is an element of `l` that is least for `le`, and the others. The list is
a permutation of the two, whatever `le` is; for a total preorder the element is before
all others.
-/

namespace CcbCore.Selection

variable {α : Type*} {le : α → α → Bool} {l others : List α} {a : α}

/-- A least element of a list, and the others. -/
def takeLeast (le : α → α → Bool) : List α → Option (α × List α)
  | [] => none
  | a :: rest =>
    match takeLeast le rest with
    | none => some (a, [])
    | some (b, others) => if le a b = true then some (a, rest) else some (b, a :: others)

theorem takeLeast_eq_none : takeLeast le l = none ↔ l = [] := by
  cases l with
  | nil => simp [takeLeast]
  | cons a rest =>
    simp only [takeLeast, reduceCtorEq, iff_false]
    cases takeLeast le rest with
    | none => simp
    | some best => by_cases h : le a best.1 = true <;> simp [h]

theorem takeLeast_perm (h : takeLeast le l = some (a, others)) : l.Perm (a :: others) := by
  induction l generalizing a others with
  | nil => simp [takeLeast] at h
  | cons b rest ih =>
    rw [takeLeast] at h
    cases hrest : takeLeast le rest with
    | none =>
      rw [hrest, Option.some.injEq, Prod.mk.injEq] at h
      obtain ⟨rfl, rfl⟩ := h
      rw [takeLeast_eq_none.mp hrest]
    | some best =>
      obtain ⟨c, left⟩ := best
      rw [hrest] at h
      dsimp only at h
      split at h
      · obtain ⟨rfl, rfl⟩ := Prod.mk.inj (Option.some.inj h)
        exact .refl _
      · obtain ⟨rfl, rfl⟩ := Prod.mk.inj (Option.some.inj h)
        exact ((ih hrest).cons b).trans (.swap _ _ _)

/-- Among elements whose order is total, the one taken out is before all others. -/
theorem takeLeast_le (htotal : ∀ a b, le a b = true ∨ le b a = true)
    (htrans : ∀ a b c, le a b = true → le b c = true → le a c = true) (h : takeLeast le l = some (a, others)) :
    ∀ b ∈ others, le a b = true := by
  induction l generalizing a others with
  | nil => simp [takeLeast] at h
  | cons b rest ih =>
    rw [takeLeast] at h
    cases hrest : takeLeast le rest with
    | none =>
      rw [hrest, Option.some.injEq, Prod.mk.injEq] at h
      obtain ⟨rfl, rfl⟩ := h
      simp
    | some best =>
      obtain ⟨c, left⟩ := best
      rw [hrest] at h
      dsimp only at h
      have hleast := ih hrest
      split at h
      · next hbc =>
        obtain ⟨rfl, rfl⟩ := Prod.mk.inj (Option.some.inj h)
        intro d hd
        rcases List.mem_cons.mp ((takeLeast_perm hrest).subset hd) with rfl | hd
        · exact hbc
        · exact htrans _ _ _ hbc (hleast d hd)
      · next hbc =>
        obtain ⟨rfl, rfl⟩ := Prod.mk.inj (Option.some.inj h)
        intro d hd
        rcases List.mem_cons.mp hd with rfl | hd
        · exact (htotal d _).resolve_left hbc
        · exact hleast d hd

end CcbCore.Selection
