import Mathlib.Tactic.Common
import Mathlib.Data.List.Induction

/-!
# Runs of a labelled transition system

A step relation `step s l t` says the system goes from `s` to `t`, showing `l`. A
`Run step s ls t` is a finite run, its labels oldest first. What one step
preserves, a run preserves (`Run.invariant`). Two runs that end where there is no step are
one, where each state has one step at most (`Run.unique_of_stuck`).
-/

namespace CcbCore

universe u v

variable {σ : Type u} {ι : Type v} {step : σ → ι → σ → Prop}

/-- A finite run, growing at its end. -/
inductive Run (step : σ → ι → σ → Prop) (s : σ) : List ι → σ → Prop where
  /-- Nothing has happened. -/
  | nil : Run step s [] s
  /-- One more step. -/
  | snoc {ls : List ι} {t : σ} {l : ι} {u : σ} :
      Run step s ls t → step t l u → Run step s (ls ++ [l]) u

namespace Run

theorem single {s t : σ} {l : ι} (h : step s l t) : Run step s [l] t := nil.snoc h

theorem eq_of_nil {s t : σ} (h : Run step s [] t) : t = s := by
  generalize hls : ([] : List ι) = ls at h
  cases h with
  | nil => rfl
  | snoc _ _ => simp at hls

theorem trans {s t u : σ} {ls ms : List ι} (h₁ : Run step s ls t) (h₂ : Run step t ms u) :
    Run step s (ls ++ ms) u := by
  induction h₂ with
  | nil => simpa using h₁
  | snoc _ hs ih => rw [← List.append_assoc]; exact ih.snoc hs

theorem cons {s t u : σ} {l : ι} {ls : List ι} (h : step s l t) (hr : Run step t ls u) :
    Run step s (l :: ls) u := (single h).trans hr

/-- What every step preserves, a run preserves. -/
theorem invariant {P : σ → Prop} (hP : ∀ s l t, P s → step s l t → P t) {s t : σ} {ls : List ι}
    (h : Run step s ls t) (hs : P s) : P t := by
  induction h with
  | nil => exact hs
  | snoc _ hst ih => exact hP _ _ _ ih hst

/-- A run is a run of a weaker step relation. -/
theorem mono {step' : σ → ι → σ → Prop} (hstep : ∀ s l t, step s l t → step' s l t) {s t : σ}
    {ls : List ι} (h : Run step s ls t) : Run step' s ls t := by
  induction h with
  | nil => exact nil
  | snoc _ hst ih => exact ih.snoc (hstep _ _ _ hst)

/-- Where a label was shown, the run splits: before it, its step, and after it. -/
theorem split {s t : σ} {ls ms : List ι} {l : ι} (h : Run step s (ls ++ l :: ms) t) :
    ∃ u v, Run step s ls u ∧ step u l v ∧ Run step v ms t := by
  induction ms using List.reverseRecOn generalizing t with
  | nil =>
    generalize hn : ls ++ [l] = ns at h
    cases h with
    | nil => simp at hn
    | snoc hr hst =>
      obtain ⟨rfl, rfl⟩ := by simpa using hn
      exact ⟨_, _, hr, hst, nil⟩
  | append_singleton ms m ih =>
    generalize hn : ls ++ l :: (ms ++ [m]) = ns at h
    cases h with
    | nil => simp at hn
    | snoc hr hst =>
      rw [← List.cons_append, ← List.append_assoc] at hn
      obtain ⟨rfl, hm⟩ := List.append_inj' hn rfl
      obtain rfl := by simpa using hm
      obtain ⟨u, v, h₁, h₂, h₃⟩ := ih hr
      exact ⟨u, v, h₁, h₂, h₃.snoc hst⟩

/-- A run that starts with a label starts with a step. -/
theorem uncons {s t : σ} {l : ι} {ls : List ι} (h : Run step s (l :: ls) t) : ∃ u, step s l u ∧ Run step u ls t := by
  obtain ⟨u, v, hu, hst, hv⟩ : ∃ u v, Run step s [] u ∧ step u l v ∧ Run step v ls t := split h
  rw [hu.eq_of_nil] at hst
  exact ⟨v, hst, hv⟩

/-- Where each state has one step at most, two runs that end where there is none are one. -/
theorem unique_of_stuck (hdet : ∀ s l t l' t', step s l t → step s l' t' → l = l' ∧ t = t') {s t t' : σ} {ls ls' : List ι}
    (h : Run step s ls t) (h' : Run step s ls' t') (hstuck : ∀ l u, ¬ step t l u) (hstuck' : ∀ l u, ¬ step t' l u) :
    ls = ls' ∧ t = t' := by
  induction ls generalizing s ls' with
  | nil =>
    obtain rfl := h.eq_of_nil
    cases ls' with
    | nil => exact ⟨rfl, h'.eq_of_nil.symm⟩
    | cons l ls =>
      obtain ⟨u, hst, -⟩ := h'.uncons
      exact absurd hst (hstuck l u)
  | cons l ls ih =>
    obtain ⟨u, hst, hu⟩ := h.uncons
    cases ls' with
    | nil =>
      rw [← h'.eq_of_nil] at hst
      exact absurd hst (hstuck' l u)
    | cons l' ls' =>
      obtain ⟨u', hst', hu'⟩ := h'.uncons
      obtain ⟨rfl, rfl⟩ := hdet s l u l' u' hst hst'
      obtain ⟨rfl, rfl⟩ := ih hu hu'
      exact ⟨rfl, rfl⟩

end Run

/-- A state that a run goes through. -/
def Through (step : σ → ι → σ → Prop) (s : σ) (ls : List ι) (t m : σ) : Prop :=
  ∃ before after, ls = before ++ after ∧ Run step s before m ∧ Run step m after t

theorem Run.through_last {s t : σ} {ls : List ι} (h : Run step s ls t) : Through step s ls t t :=
  ⟨ls, [], (List.append_nil ls).symm, h, .nil⟩

theorem Through.snoc {s t u m : σ} {ls : List ι} {l : ι} (h : Through step s ls t m) (hstep : step t l u) :
    Through step s (ls ++ [l]) u m := by
  obtain ⟨before, after, rfl, hbefore, hafter⟩ := h
  exact ⟨before, after ++ [l], List.append_assoc .., hbefore, hafter.snoc hstep⟩

end CcbCore
