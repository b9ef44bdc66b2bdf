import Mathlib.Tactic.Common

/-!
# Three-valued truth

A value that may be NULL is an `Option`, and so is a truth value: `none` is the
unknown that a comparison with NULL gives. `OR` is true as soon as one side is
(`Truth.or_holds`), whatever the other is; a comparison is true only between two
values that are there (`equals_holds`); and an `IF` takes its branch only on
true, so an unknown condition goes where a false one goes.

`IS DISTINCT FROM` is the comparison that is never unknown. On options it is `≠`.
-/

namespace CcbCore.Sql

universe u

variable {α : Type u}

/-- True, false, or unknown. -/
abbrev Truth := Option Bool

/-- `x OR y`. -/
def Truth.or (x y : Truth) : Truth :=
  if x = some true ∨ y = some true then some true
  else if x = none ∨ y = none then none
  else some false

/-- What an `IF` or a `WHERE` asks of its condition. -/
def Truth.Holds (x : Truth) : Prop := x = some true

instance (x : Truth) : Decidable x.Holds := inferInstanceAs (Decidable (x = some true))

/-- `a <> b`. -/
def differs [DecidableEq α] (a b : Option α) : Truth :=
  a.bind fun x => b.map fun y => decide (x ≠ y)

/-- `a = b`. -/
def equals [DecidableEq α] (a b : Option α) : Truth :=
  a.bind fun x => b.map fun y => decide (x = y)

@[simp] theorem Truth.or_holds (x y : Truth) : (x.or y).Holds ↔ x.Holds ∨ y.Holds := by
  unfold Truth.or Truth.Holds
  split_ifs with h h' <;> simp [h]

theorem equals_holds [DecidableEq α] (a b : Option α) :
    (equals a b).Holds ↔ ∃ x, a = some x ∧ b = some x := by
  cases a <;> cases b <;> simp [equals, Truth.Holds, eq_comm]

@[simp] theorem differs_some_holds [DecidableEq α] (x y : α) :
    (differs (some x) (some y)).Holds ↔ x ≠ y := by
  simp [differs, Truth.Holds]

@[simp] theorem equals_some_holds [DecidableEq α] (x y : α) :
    (equals (some x) (some y)).Holds ↔ x = y := by
  simp [equals, Truth.Holds]

/-- A comparison with NULL is never true, of whichever value. -/
@[simp] theorem differs_none_holds [DecidableEq α] (a : Option α) : ¬ (differs a none).Holds := by
  cases a <;> simp [differs, Truth.Holds]

/-- A guard `a <> b` lets through NULL, and what equals `a`. -/
theorem not_differs_some_holds [DecidableEq α] (x : α) (b : Option α) :
    ¬ (differs (some x) b).Holds ↔ b = none ∨ b = some x := by
  cases b with
  | none => simp
  | some y => simp [eq_comm]

end CcbCore.Sql
