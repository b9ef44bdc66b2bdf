import Mathlib.Data.List.DropRight
import Mathlib.Tactic.Common

/-!
# Trimming a list at both ends

`trim p l` is `l` without the elements at its ends that satisfy `p`. Trimming is
idempotent, and a substitution that keeps the elements `p` selects, and replaces the
others by some that `p` does not select, commutes with it (`trim_flatMap`).
-/

namespace CcbCore.Trim

variable {α : Type*} {p : α → Bool} {l : List α}

/-- A list without the elements at its ends that satisfy `p`. -/
def trim (p : α → Bool) (l : List α) : List α := (l.dropWhile p).rdropWhile p

theorem mem_of_mem_trim {a : α} (h : a ∈ trim p l) : a ∈ l := by
  obtain ⟨last, hlast⟩ := List.rdropWhile_prefix p (l := l.dropWhile p)
  exact (List.dropWhile_sublist p).subset (hlast ▸ List.mem_append_left last h)

theorem mem_dropWhile_or {a : α} (h : a ∈ l) : a ∈ l.dropWhile p ∨ p a = true := by
  rw [← List.takeWhile_append_dropWhile (p := p) (l := l)] at h
  rcases List.mem_append.mp h with h | h
  · exact .inr (List.mem_takeWhile_imp h)
  · exact .inl h

/-- An element is left, or trimmed. -/
theorem mem_trim_or {a : α} (h : a ∈ l) : a ∈ trim p l ∨ p a = true := by
  rcases mem_dropWhile_or (p := p) h with h | h
  · rcases mem_dropWhile_or (p := p) (List.mem_reverse.mpr h) with h | h
    · exact .inl (List.mem_reverse.mpr h)
    · exact .inr h
  · exact .inr h

theorem trim_eq_nil_iff : trim p l = [] ↔ l.all p = true := by
  rw [trim, List.rdropWhile_eq_nil_iff, List.all_eq_true]
  constructor
  · exact fun h a ha => (mem_dropWhile_or ha).elim (h a) id
  · exact fun h a ha => h a ((List.dropWhile_sublist p).subset ha)

theorem trim_eq_self (h : ∀ a ∈ l, p a = false) : trim p l = l := by
  have hdrop : ∀ m : List α, (∀ a ∈ m, p a = false) → m.dropWhile p = m := by
    intro m hm
    cases m with
    | nil => rfl
    | cons a rest => exact List.dropWhile_cons_of_neg (by simp [hm a List.mem_cons_self])
  rw [trim, hdrop l h, List.rdropWhile, hdrop l.reverse (by simpa using h), List.reverse_reverse]

/-- What trimming leaves starts with no element that `p` selects. -/
theorem dropWhile_trim : (trim p l).dropWhile p = trim p l := by
  cases htrim : trim p l with
  | nil => rfl
  | cons a rest =>
    obtain ⟨last, hlast⟩ := List.rdropWhile_prefix p (l := l.dropWhile p)
    have hhead : (l.dropWhile p).head? = some a := by
      rw [← hlast, ← trim, htrim]
      rfl
    have hnot := List.head?_dropWhile_not p l
    rw [hhead] at hnot
    exact List.dropWhile_cons_of_neg (by simp [hnot])

theorem trim_trim : trim p (trim p l) = trim p l := by
  rw [trim, dropWhile_trim, trim, List.rdropWhile_idempotent]

/-! ### Substitutions -/

section Substitution

variable {β : Type*} {q : β → Bool} {f : α → List β}

theorem dropWhile_flatMap (hkeep : ∀ a, p a = true → ∀ b ∈ f a, q b = true)
    (hreplace : ∀ a, p a = false → f a ≠ [] ∧ ∀ b ∈ f a, q b = false) :
    (l.flatMap f).dropWhile q = (l.dropWhile p).flatMap f := by
  induction l with
  | nil => rfl
  | cons a l ih =>
    cases ha : p a with
    | true =>
      rw [List.dropWhile_cons_of_pos ha, List.flatMap_cons, List.dropWhile_append_of_pos (hkeep a ha), ih]
    | false =>
      rw [List.dropWhile_cons_of_neg (by simp [ha])]
      obtain ⟨hne, hnot⟩ := hreplace a ha
      cases hf : f a with
      | nil => exact absurd hf hne
      | cons b rest =>
        rw [List.flatMap_cons, hf, List.cons_append]
        exact List.dropWhile_cons_of_neg (by simp [hnot b (by simp [hf])])

theorem trim_flatMap (hkeep : ∀ a, p a = true → ∀ b ∈ f a, q b = true)
    (hreplace : ∀ a, p a = false → f a ≠ [] ∧ ∀ b ∈ f a, q b = false) :
    trim q (l.flatMap f) = (trim p l).flatMap f := by
  have hreverse : ∀ m : List α, (m.flatMap f).rdropWhile q = (m.rdropWhile p).flatMap f := by
    intro m
    rw [List.rdropWhile, List.reverse_flatMap, Function.comp_def,
      dropWhile_flatMap (p := p) (by simpa using hkeep) (by simpa using hreplace), List.rdropWhile, List.reverse_flatMap]
    simp [Function.comp_def]
  rw [trim, dropWhile_flatMap hkeep hreplace, hreverse, trim]

end Substitution

end CcbCore.Trim
