import Mathlib.Data.List.Dedup
import Mathlib.Logic.Relation
import Mathlib.Tactic.Common

/-!
# Recursive queries

`WITH RECURSIVE r AS (start UNION SELECT … FROM edges JOIN r)` over a table of edges: round
by round the successors of the last round's rows that are not there yet are added, until a
round adds none. It ends on every table, as each round takes rows of the table that were not
taken before, and gives what is reachable from the start (`mem_recursiveUnion`).
-/

namespace CcbCore

open Relation

variable {α : Type} [DecidableEq α]

/-- The rows that a round adds. -/
def roundOf (edges : List (α × α)) (result working : List α) : List α :=
  ((edges.filter fun edge => edge.1 ∈ working).map (·.2)).dedup.filter fun b => b ∉ result

theorem mem_roundOf {edges : List (α × α)} {result working : List α} {b : α} :
    b ∈ roundOf edges result working ↔ (∃ a ∈ working, (a, b) ∈ edges) ∧ b ∉ result := by
  simp only [roundOf, List.mem_filter, List.mem_dedup, List.mem_map, decide_eq_true_eq, Prod.exists, exists_eq_right]
  exact and_congr_left fun _ => ⟨fun ⟨a, hedge, ha⟩ => ⟨a, ha, hedge⟩, fun ⟨a, ha, hedge⟩ => ⟨a, hedge, ha⟩⟩

/-- What no round has taken yet. -/
def untaken (edges : List (α × α)) (result : List α) : List α := (edges.map (·.2)).filter fun b => b ∉ result

theorem untaken_lt {edges : List (α × α)} {result working : List α} (h : roundOf edges result working ≠ []) :
    (untaken edges (result ++ roundOf edges result working)).length < (untaken edges result).length := by
  obtain ⟨b, hb⟩ := List.exists_mem_of_ne_nil _ h
  obtain ⟨⟨a, -, hedge⟩, hnew⟩ := mem_roundOf.mp hb
  have hsplit : untaken edges (result ++ roundOf edges result working) =
      (untaken edges result).filter fun b => b ∉ roundOf edges result working := by
    rw [untaken, untaken, List.filter_filter]
    refine List.filter_congr fun b _ => ?_
    simp [not_or, Bool.and_comm]
  rw [hsplit, List.length_filter_lt_length_iff_exists]
  refine ⟨b, List.mem_filter.mpr ⟨List.mem_map.mpr ⟨(a, b), hedge, rfl⟩, by simpa using hnew⟩, ?_⟩
  simpa using hb

/-- The rounds from what has been taken, the last of it in the last round. -/
def recursiveUnion (edges : List (α × α)) (result working : List α) : List α :=
  if roundOf edges result working = [] then result
  else recursiveUnion edges (result ++ roundOf edges result working) (roundOf edges result working)
termination_by (untaken edges result).length
decreasing_by exact untaken_lt ‹_›

/-- An edge of a table. -/
def EdgeOf (edges : List (α × α)) (a b : α) : Prop := (a, b) ∈ edges

/-- What the rounds take is reachable from where they start. -/
theorem recursiveUnion_sound {edges : List (α × α)} {start : α} {result working : List α}
    (hresult : ∀ a ∈ result, ReflTransGen (EdgeOf edges) start a) (hworking : ∀ a ∈ working, a ∈ result) :
    ∀ b ∈ recursiveUnion edges result working, ReflTransGen (EdgeOf edges) start b := by
  fun_induction recursiveUnion edges result working with
  | case1 => exact hresult
  | case2 result working _ ih =>
    refine ih (fun b hb => ?_) fun b hb => List.mem_append_right _ hb
    rcases List.mem_append.mp hb with hb | hb
    · exact hresult b hb
    · obtain ⟨⟨a, ha, hedge⟩, -⟩ := mem_roundOf.mp hb
      exact (hresult a (hworking a ha)).tail hedge

/-- When a round adds none, the successors of all that is there are there. -/
theorem recursiveUnion_closed {edges : List (α × α)} {result working : List α}
    (hclosed : ∀ a ∈ result, a ∈ working ∨ ∀ b, EdgeOf edges a b → b ∈ result) :
    (∀ a ∈ result, a ∈ recursiveUnion edges result working) ∧
      ∀ a ∈ recursiveUnion edges result working, ∀ b, EdgeOf edges a b → b ∈ recursiveUnion edges result working := by
  have hround {a b : α} (ha : a ∈ working) (hedge : EdgeOf edges a b) : b ∈ result ∨ b ∈ roundOf edges result working := by
    by_cases hb : b ∈ result
    · exact .inl hb
    · exact .inr (mem_roundOf.mpr ⟨⟨a, ha, hedge⟩, hb⟩)
  fun_induction recursiveUnion edges result working with
  | case1 result working hnone =>
    refine ⟨fun a ha => ha, fun a ha b hedge => ?_⟩
    rcases hclosed a ha with hlast | hall
    · rcases hround hlast hedge with hb | hb
      · exact hb
      · rw [hnone] at hb
        cases hb
    · exact hall b hedge
  | case2 result working _ ih =>
    have hnext : ∀ a ∈ result ++ roundOf edges result working, a ∈ roundOf edges result working ∨
        ∀ b, EdgeOf edges a b → b ∈ result ++ roundOf edges result working := by
      intro a ha
      rcases List.mem_append.mp ha with ha | ha
      · refine .inr fun b hedge => List.mem_append.mpr ?_
        rcases hclosed a ha with hlast | hall
        · exact hround hlast hedge
        · exact .inl (hall b hedge)
      · exact .inl ha
    obtain ⟨hsub, hedges⟩ := ih hnext fun {a b} ha hedge => by
      by_cases hb : b ∈ result ++ roundOf edges result working
      · exact .inl hb
      · exact .inr (mem_roundOf.mpr ⟨⟨a, ha, hedge⟩, hb⟩)
    exact ⟨fun a ha => hsub a (List.mem_append_left _ ha), hedges⟩

/-- **A recursive query gives what is reachable from its start.** -/
theorem mem_recursiveUnion {edges : List (α × α)} {start b : α} :
    b ∈ recursiveUnion edges [start] [start] ↔ ReflTransGen (EdgeOf edges) start b := by
  constructor
  · refine recursiveUnion_sound (fun a ha => ?_) (fun a ha => ha) b
    rw [List.mem_singleton.mp ha]
  · intro hpath
    have hstart : ∀ a ∈ [start], a ∈ [start] ∨ ∀ b, EdgeOf edges a b → b ∈ [start] := fun a ha => .inl ha
    obtain ⟨hsub, hedges⟩ := recursiveUnion_closed hstart
    induction hpath with
    | refl => exact hsub start List.mem_cons_self
    | tail _ hedge ih => exact hedges _ ih _ hedge

end CcbCore
