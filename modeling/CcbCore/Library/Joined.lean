import Mathlib.Data.List.Basic
import Mathlib.Tactic.Common

/-!
# Texts joined by a separator

What is joined by a separator that no part has can be told apart again
(`intercalate_injective`). A token without the separator is found within a part
(`infix_intercalate_iff`), and one with a single separator at the end of a part and the start
of the next (`pair_infix_intercalate_iff`).
-/

namespace CcbCore.Joined

variable {α : Type*} {c : α} {parts parts' : List (List α)} {token u v w : List α}

/-! ### Tokens without the separator -/

theorem suffix_of_suffix_append (hu : c ∉ u) (h : u <:+ v ++ c :: w) : u <:+ w := by
  rcases List.suffix_or_suffix_of_suffix h (List.suffix_append v (c :: w)) with hsuffix | hsuffix
  · rcases List.suffix_cons_iff.mp hsuffix with rfl | hsuffix
    · exact absurd List.mem_cons_self hu
    · exact hsuffix
  · exact absurd (hsuffix.subset List.mem_cons_self) hu

theorem prefix_of_prefix_append (hu : c ∉ u) (h : u <+: v ++ c :: w) : u <+: v := by
  have hfirst : v ++ [c] <+: v ++ c :: w := ⟨w, by simp⟩
  rcases List.prefix_or_prefix_of_prefix h hfirst with hstart | hstart
  · rcases List.prefix_concat_iff.mp hstart with rfl | hstart
    · exact absurd (by simp) hu
    · exact hstart
  · exact absurd (hstart.subset (by simp)) hu

theorem infix_append_cons_iff (htoken : c ∉ token) : token <:+: v ++ c :: w ↔ token <:+: v ∨ token <:+: w := by
  have hhead : ∀ u, u <+: c :: w → c ∉ u → u = [] := by
    intro u hu hnot
    rcases List.prefix_cons_iff.mp hu with rfl | ⟨rest, rfl, -⟩
    · rfl
    · exact absurd List.mem_cons_self hnot
  constructor
  · intro h
    rcases List.infix_append_iff.mp h with h | h | ⟨first, last, rfl, hfirst, hlast⟩
    · exact .inl h
    · rcases List.infix_cons_iff.mp h with h | h
      · exact .inl (hhead token h htoken ▸ List.nil_infix)
      · exact .inr h
    · obtain rfl := hhead last hlast fun hmem => htoken (List.mem_append_right _ hmem)
      exact .inl (by simpa using hfirst.isInfix)
  · intro h
    rcases h with h | h
    · exact h.trans (List.prefix_append v (c :: w)).isInfix
    · exact h.trans ((List.suffix_cons c w).trans (List.suffix_append v (c :: w))).isInfix

/-- A token without the separator is found within a part. -/
theorem infix_intercalate_iff (hne : parts ≠ []) (htoken : c ∉ token) :
    token <:+: [c].intercalate parts ↔ ∃ part ∈ parts, token <:+: part := by
  induction parts with
  | nil => exact absurd rfl hne
  | cons part parts ih =>
    cases parts with
    | nil => simp
    | cons next parts =>
      rw [List.intercalate_cons_cons, List.append_assoc, List.singleton_append, infix_append_cons_iff htoken,
        ih (List.cons_ne_nil _ _)]
      simp

theorem intercalate_append (hne : parts ≠ []) (hne' : parts' ≠ []) :
    [c].intercalate (parts ++ parts') = [c].intercalate parts ++ c :: [c].intercalate parts' := by
  induction parts with
  | nil => exact absurd rfl hne
  | cons part parts ih =>
    cases parts with
    | nil => rw [List.singleton_append, List.intercalate_cons_of_ne_nil hne', List.intercalate_singleton]; simp
    | cons next parts =>
      rw [List.cons_append, List.intercalate_cons_of_ne_nil (by simp), ih (List.cons_ne_nil _ _), List.intercalate_cons_cons]
      simp

/-! ### Parts that are told apart -/

variable [DecidableEq α]

theorem intercalate_injective (hne : parts ≠ []) (hne' : parts' ≠ []) (h : ∀ part ∈ parts, c ∉ part)
    (h' : ∀ part ∈ parts', c ∉ part) (heq : [c].intercalate parts = [c].intercalate parts') : parts = parts' := by
  rw [← List.splitOn_intercalate c h hne, heq, List.splitOn_intercalate c h' hne']

omit [DecidableEq α] in
/-- Two parts of which one follows the other. -/
theorem mem_zip_tail {parts : List α} {a b : α} :
    (a, b) ∈ parts.zip parts.tail ↔ ∃ before after, parts = before ++ a :: b :: after := by
  induction parts with
  | nil => simp
  | cons first parts ih =>
    cases parts with
    | nil =>
      refine iff_of_false (by simp) ?_
      intro ⟨before, after, heq⟩
      have := congrArg List.length heq
      simp at this
      omega
    | cons second parts =>
      rw [List.tail_cons] at ih
      rw [List.tail_cons, List.zip_cons_cons, List.mem_cons, Prod.mk.injEq, ih]
      constructor
      · rintro (⟨rfl, rfl⟩ | ⟨before, after, heq⟩)
        · exact ⟨[], parts, rfl⟩
        · exact ⟨first :: before, after, by rw [heq]; rfl⟩
      · rintro ⟨before, after, heq⟩
        cases before with
        | nil =>
          obtain ⟨hfirst, hrest⟩ := List.cons.inj heq
          exact .inl ⟨hfirst.symm, (List.cons.inj hrest).1.symm⟩
        | cons _ before => exact .inr ⟨before, after, (List.cons.inj heq).2⟩

omit [DecidableEq α] in
theorem suffix_of_suffix_intercalate {init : List (List α)} (hu : c ∉ u) (h : u <:+ [c].intercalate (init ++ [w])) : u <:+ w := by
  induction init with
  | nil => simpa using h
  | cons part init ih =>
    rw [List.cons_append, List.intercalate_cons_of_ne_nil (by simp), List.append_assoc, List.singleton_append] at h
    exact ih (suffix_of_suffix_append hu h)

omit [DecidableEq α] in
theorem prefix_of_prefix_intercalate (hu : c ∉ u) (h : u <+: [c].intercalate (w :: parts)) : u <+: w := by
  cases parts with
  | nil => simpa using h
  | cons next parts =>
    rw [List.intercalate_cons_cons, List.append_assoc, List.singleton_append] at h
    exact prefix_of_prefix_append hu h

omit [DecidableEq α] in
theorem infix_intercalate_adjacent {init : List (List α)} (hu : u <:+ token) (hv : v <+: w) :
    u ++ c :: v <:+: [c].intercalate (init ++ token :: w :: parts) := by
  induction init with
  | nil =>
    obtain ⟨before, rfl⟩ := hu
    have hnext : v <+: [c].intercalate (w :: parts) := by
      cases parts with
      | nil => simpa using hv
      | cons next parts =>
        rw [List.intercalate_cons_cons, List.append_assoc]
        exact hv.trans (List.prefix_append _ _)
    obtain ⟨after, hafter⟩ := hnext
    refine ⟨before, after, ?_⟩
    rw [List.nil_append, List.intercalate_cons_cons, ← hafter]
    simp
  | cons part init ih =>
    rw [List.cons_append, List.intercalate_cons_of_ne_nil (by simp)]
    exact ih.trans (List.suffix_append _ _).isInfix

/-- A token with one separator is found where a part ends and the next starts. -/
theorem pair_infix_intercalate_iff (hne : parts ≠ []) (h : ∀ part ∈ parts, c ∉ part) (hu : c ∉ u) (hv : c ∉ v) :
    u ++ c :: v <:+: [c].intercalate parts ↔ ∃ pair ∈ parts.zip parts.tail, u <:+ pair.1 ∧ v <+: pair.2 := by
  constructor
  · intro hwithin
    obtain ⟨before, after, heq⟩ := hwithin
    have hsplit : parts = (before ++ u).splitOn c ++ (v ++ after).splitOn c := by
      rw [← List.splitOn_intercalate c h hne, ← heq, ← List.splitOn_append_cons_self]
      simp
    obtain ⟨init, last, hinit⟩ := List.eq_nil_or_concat' ((before ++ u).splitOn c) |>.resolve_left (List.splitOn_ne_nil _ _)
    obtain ⟨next, rest, hrest⟩ := List.exists_cons_of_ne_nil (List.splitOn_ne_nil c (v ++ after))
    rw [hinit, hrest, List.append_assoc, List.singleton_append] at hsplit
    refine ⟨(last, next), mem_zip_tail.mpr ⟨init, rest, hsplit⟩, ?_, ?_⟩
    · have hsuffix : u <:+ [c].intercalate (init ++ [last]) := by
        rw [← hinit, List.intercalate_splitOn]
        exact List.suffix_append _ _
      exact suffix_of_suffix_intercalate hu hsuffix
    · have hstart : v <+: [c].intercalate (next :: rest) := by
        rw [← hrest, List.intercalate_splitOn]
        exact List.prefix_append _ _
      exact prefix_of_prefix_intercalate hv hstart
  · intro ⟨⟨last, next⟩, hpair, hlast, hnext⟩
    obtain ⟨init, rest, rfl⟩ := mem_zip_tail.mp hpair
    exact infix_intercalate_adjacent hlast hnext

end CcbCore.Joined
