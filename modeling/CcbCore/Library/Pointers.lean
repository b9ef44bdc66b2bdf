import Mathlib.Logic.Function.Basic
import Mathlib.Logic.Relation

/-!
# Following pointers

Each place holds a pointer to another place, or none. From a place the pointers end
(`Ends`), or they go round for ever; where they end, no place on the way leads
back to itself (`Ends.not_cycle`). A pointer that is put at a place makes them go
round exactly when its target led to its place (`ends_update_iff`).
-/

namespace CcbCore.Pointers

universe u

variable {α : Type u} {f : α → Option α}

/-- One place points to another. -/
def Points (f : α → Option α) (x y : α) : Prop := f x = some y

/-- The pointers from a place come to one that points nowhere. -/
inductive Ends (f : α → Option α) : α → Prop where
  | last {x : α} : f x = none → Ends f x
  | next {x y : α} : f x = some y → Ends f y → Ends f x

/-- The pointers from a place come to another. -/
abbrev Reaches (f : α → Option α) : α → α → Prop := Relation.ReflTransGen (Points f)

/-- The pointers from a place come back to it. -/
def Cycle (f : α → Option α) (x : α) : Prop := Relation.TransGen (Points f) x x

/-- **Where the pointers end they do not come back.** -/
theorem Ends.not_cycle {x : α} (h : Ends f x) : ¬ Cycle f x := by
  induction h with
  | last hnone =>
    intro hcycle
    obtain ⟨y, hy, -⟩ := Relation.TransGen.head'_iff.mp hcycle
    rw [Points, hnone] at hy
    cases hy
  | @next x y hy _ ih =>
    intro hcycle
    obtain ⟨z, hz, hback⟩ := Relation.TransGen.head'_iff.mp hcycle
    obtain rfl := Option.some.inj (hy.symm.trans hz)
    exact ih (Relation.TransGen.tail' hback hy)

variable [DecidableEq α] {a t : α}

/-- From where a new pointer is not come to, nothing changes. -/
theorem Ends.update_of_not_reaches {x : α} {p : Option α} (h : Ends f x) (hx : ¬ Reaches f x a) :
    Ends (Function.update f a p) x := by
  induction h with
  | @last x hnone =>
    have hne : x ≠ a := fun heq => hx (heq ▸ .refl)
    exact .last (by rw [Function.update_of_ne hne, hnone])
  | @next x y hy _ ih =>
    have hne : x ≠ a := fun heq => hx (heq ▸ .refl)
    exact .next (by rw [Function.update_of_ne hne, hy]) (ih fun hreach => hx (.head hy hreach))

theorem Reaches.update {x : α} {p : Option α} (h : Reaches f x a) : Reaches (Function.update f a p) x a := by
  induction h using Relation.ReflTransGen.head_induction_on with
  | refl => exact .refl
  | @head x y hxy _ ih =>
    by_cases hx : x = a
    · rw [hx]
    · exact .head (by rw [Points, Function.update_of_ne hx]; exact hxy) ih

/-- **Pointers that end still end with a new pointer, exactly when its target does not lead
to its place.** -/
theorem ends_update_iff (h : ∀ x, Ends f x) : (∀ x, Ends (Function.update f a (some t)) x) ↔ ¬ Reaches f t a := by
  constructor
  · intro hends hreach
    exact (hends a).not_cycle (.head' (Function.update_self ..) hreach.update)
  · intro hreach
    have ht : Ends (Function.update f a (some t)) t := (h t).update_of_not_reaches hreach
    have ha : Ends (Function.update f a (some t)) a := .next (Function.update_self ..) ht
    intro x
    have hx := h x
    -- up to the new pointer the way is the old one
    induction hx with
    | @last x hnone =>
      by_cases heq : x = a
      · exact heq ▸ ha
      · exact .last (by rw [Function.update_of_ne heq, hnone])
    | @next x y hy _ ih =>
      by_cases heq : x = a
      · exact heq ▸ ha
      · exact .next (by rw [Function.update_of_ne heq, hy]) ih

end CcbCore.Pointers
