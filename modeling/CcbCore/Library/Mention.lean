import Mathlib.Data.List.Basic
import Mathlib.Tactic.Common

/-!
# The order of first mention

Each element of a list mentions at most one thing: `f a` is what `a` mentions. The list
`(l.filterMap f).eraseDups` has what `l` mentions, each thing once, in the order in which
`l` first mentions them (`pairwise_place`).
-/

namespace CcbCore.Mention

variable {α β : Type*} {f : α → Option β} {l : List α} {a : α} {b c : β}

/-- What a list mentions besides one thing. -/
theorem filter_filterMap [BEq β] (l : List α) (b : β) :
    (l.filterMap f).filter (fun c => !c == b) = l.filterMap fun a => (f a).filter fun c => !c == b := by
  rw [List.filter_filterMap]

variable [DecidableEq β]

/-- The place of the first element of a list that mentions a thing. -/
def place (f : α → Option β) (l : List α) (b : β) : ℕ := l.findIdx fun a => f a = some b

theorem place_cons : place f (a :: l) b = if f a = some b then 0 else place f l b + 1 := by
  by_cases h : f a = some b
  · simp [place, List.findIdx_cons, h]
  · simp [place, List.findIdx_cons, h]

variable [BEq β] [LawfulBEq β]

theorem place_filter (h : c ≠ b) : place (fun a => (f a).filter fun c => !c == b) l c = place f l c := by
  have hsame : ∀ a, (f a).filter (fun c => !c == b) = some c ↔ f a = some c := by
    intro a
    rw [Option.filter_eq_some_iff]
    simp [h]
  simp only [place, hsame]

/-- **Each thing once, in the order of first mention.** -/
theorem pairwise_place (f : α → Option β) (l : List α) :
    (l.filterMap f).eraseDups.Pairwise fun b c => place f l b < place f l c := by
  induction l generalizing f with
  | nil => simp
  | cons a l ih =>
    cases ha : f a with
    | none =>
      rw [List.filterMap_cons_none ha]
      refine (ih f).imp fun {b c} h => ?_
      rw [place_cons, place_cons, if_neg (by simp [ha]), if_neg (by simp [ha])]
      exact Nat.succ_lt_succ h
    | some b =>
      rw [List.filterMap_cons_some ha, List.eraseDups_cons, filter_filterMap]
      have hother : ∀ c ∈ (l.filterMap fun a => (f a).filter fun c => !c == b).eraseDups, c ≠ b := by
        intro c hc
        rw [List.mem_eraseDups, ← filter_filterMap, List.mem_filter] at hc
        simpa using hc.2
      refine List.pairwise_cons.mpr ⟨fun c hc => ?_, ?_⟩
      · rw [place_cons, place_cons, if_pos ha, if_neg (by simp [ha, (hother c hc).symm])]
        exact Nat.succ_pos _
      · refine (ih _).imp_of_mem fun {c d} hc hd h => ?_
        rw [place_filter (hother c hc), place_filter (hother d hd)] at h
        rw [place_cons, place_cons, if_neg (by simp [ha, (hother c hc).symm]), if_neg (by simp [ha, (hother d hd).symm])]
        exact Nat.succ_lt_succ h

end CcbCore.Mention
