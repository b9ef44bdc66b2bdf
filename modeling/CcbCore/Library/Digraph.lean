import Mathlib.Data.List.Perm.Basic
import Mathlib.Data.Set.Finite.List
import Mathlib.Logic.Relation
import Mathlib.Order.WellFoundedSet

/-!
# Directed graphs

A directed graph is the relation of its edges. It is `Acyclic` when no node is above itself,
which one more edge keeps when it closes no cycle (`Acyclic.insert`); and among finitely many
nodes of an acyclic graph there is one without a predecessor among them (`Acyclic.exists_source`).
`search` is a walk from a stack of nodes with a set of those seen, which tries the successors
of a node in any order: it ends on every graph, and finds what is reachable (`search_iff`).
-/

namespace CcbCore.Digraph

open Relation

variable {ν : Type} {edge edge' : ν → ν → Prop}

/-! ### Cycles -/

/-- No node is above itself. -/
def Acyclic (edge : ν → ν → Prop) : Prop := ∀ a, ¬ TransGen edge a a

theorem Acyclic.mono (h : Acyclic edge) (hedge : ∀ a b, edge' a b → edge a b) : Acyclic edge' :=
  fun a hcycle => h a (TransGen.mono hedge a a hcycle)

/-- The edges, and one more. -/
def insertEdge (p s : ν) (edge : ν → ν → Prop) (a b : ν) : Prop := edge a b ∨ a = p ∧ b = s

/-- A path that may take the new edge takes it, or is one of the others. -/
theorem reflTransGen_insertEdge {p s a b : ν} (h : ReflTransGen (insertEdge p s edge) a b) :
    ReflTransGen edge a b ∨ ReflTransGen edge a p ∧ ReflTransGen edge s b := by
  induction h with
  | refl => exact .inl .refl
  | tail _ hstep ih =>
    rcases hstep with hedge | ⟨rfl, rfl⟩
    · exact ih.imp (fun h => h.tail hedge) fun h => ⟨h.1, h.2.tail hedge⟩
    · exact .inr ⟨ih.elim id fun h => h.1, .refl⟩

/-- An edge that closes no cycle keeps the graph acyclic. -/
theorem Acyclic.insert {p s : ν} (h : Acyclic edge) (hreach : ¬ ReflTransGen edge s p) : Acyclic (insertEdge p s edge) := by
  intro a hcycle
  obtain ⟨b, hstep, hrest⟩ := TransGen.head'_iff.mp hcycle
  rcases reflTransGen_insertEdge hrest with hback | ⟨hbp, hsa⟩
  · rcases hstep with hedge | ⟨rfl, rfl⟩
    · exact h a (TransGen.head' hedge hback)
    · exact hreach hback
  · rcases hstep with hedge | ⟨rfl, rfl⟩
    · exact hreach (hsa.trans (ReflTransGen.head hedge hbp))
    · exact hreach hbp

/-- Among finitely many nodes of an acyclic graph, one has no predecessor among them. -/
theorem Acyclic.exists_source (h : Acyclic edge) {nodes : List ν} (hne : nodes ≠ []) :
    ∃ a ∈ nodes, ∀ b ∈ nodes, ¬ edge b a := by
  have hstrict : IsStrictOrder ν (TransGen edge) := { irrefl := h, trans := fun _ _ _ => TransGen.trans }
  have hwf : {a | a ∈ nodes}.WellFoundedOn (TransGen edge) := (List.finite_toSet nodes).wellFoundedOn
  obtain ⟨first, hfirst⟩ := List.exists_mem_of_ne_nil nodes hne
  obtain ⟨⟨a, ha⟩, -, hmin⟩ := WellFounded.has_min hwf Set.univ ⟨⟨first, hfirst⟩, trivial⟩
  exact ⟨a, ha, fun b hb hedge => hmin ⟨b, hb⟩ trivial (.single hedge)⟩

/-! ### The walk -/

variable [DecidableEq ν]

/-- The successors of each node. -/
abbrev Adjacency (ν : Type) := List (ν × List ν)

/-- The successors of a node, none of one that is not there. -/
def Adjacency.successors (adjacency : Adjacency ν) (a : ν) : List ν := (adjacency.lookup a).getD []

/-- The order in which a set is gone through, whatever it depends on: the nodes on the stack
and those seen, and the set. -/
structure SetOrder (ν : Type) where
  order : List ν → List ν → List ν → List ν
  perm : ∀ stack seen nodes, (order stack seen nodes).Perm nodes

variable (adjacency : Adjacency ν) (target : ν) (sets : SetOrder ν)

/-- The nodes that have successors and are not seen. -/
def unseen (seen : List ν) : List ν := (adjacency.map Prod.fst).filter fun a => a ∉ seen

omit [DecidableEq ν] in
theorem SetOrder.mem {stack seen nodes : List ν} {a : ν} : a ∈ sets.order stack seen nodes ↔ a ∈ nodes :=
  (sets.perm stack seen nodes).mem_iff

theorem unseen_cons {seen : List ν} {current : ν} :
    unseen adjacency (current :: seen) = (unseen adjacency seen).filter fun a => a ≠ current := by
  rw [unseen, unseen, List.filter_filter]
  refine List.filter_congr fun a _ => ?_
  simp [not_or]

theorem unseen_cons_lt {seen : List ν} {current : ν} (hkey : current ∈ adjacency.map Prod.fst) (hseen : current ∉ seen) :
    (unseen adjacency (current :: seen)).length < (unseen adjacency seen).length := by
  rw [unseen_cons, List.length_filter_lt_length_iff_exists]
  exact ⟨current, List.mem_filter.mpr ⟨hkey, by simpa using hseen⟩, by simp⟩

/-- A node without successors adds none, and one with successors is seen no more than once. -/
theorem search_decreases {seen stack : List ν} {current : ν} (hseen : current ∉ seen) :
    (unseen adjacency (current :: seen)).length < (unseen adjacency seen).length ∨
      (unseen adjacency (current :: seen)).length = (unseen adjacency seen).length ∧
        ((sets.order stack seen (adjacency.successors current)).reverse ++ stack).length < stack.length + 1 := by
  by_cases hkey : current ∈ adjacency.map Prod.fst
  · exact .inl (unseen_cons_lt adjacency hkey hseen)
  · have hnone : adjacency.lookup current = none := by
      rw [List.lookup_eq_none_iff]
      intro pair hpair
      simpa using fun heq : current = pair.1 => hkey (heq ▸ List.mem_map_of_mem hpair)
    have hnil : sets.order stack seen (adjacency.successors current) = [] := by
      rw [Adjacency.successors, hnone]
      exact List.perm_nil.mp (sets.perm stack seen [])
    refine .inr ⟨?_, by rw [hnil]; simp⟩
    rw [unseen_cons, List.filter_eq_self.mpr]
    intro a ha
    simpa using fun heq : a = current => hkey (heq ▸ (List.mem_filter.mp ha).1)

/-- The walk from the nodes of a stack, whose top is first. -/
def search (stack seen : List ν) : Bool :=
  match stack with
  | [] => false
  | current :: stack =>
    if current = target then true
    else if current ∈ seen then search stack seen
    else search ((sets.order stack seen (adjacency.successors current)).reverse ++ stack) (current :: seen)
termination_by ((unseen adjacency seen).length, stack.length)
decreasing_by
  · exact Prod.Lex.right _ (by simp)
  · rcases search_decreases adjacency sets ‹current ∉ seen› with hlt | ⟨heq, hlt⟩
    · exact Prod.Lex.left _ _ hlt
    · rw [heq]
      exact Prod.Lex.right _ hlt

variable {adjacency target sets}

/-- An edge to a successor. -/
def Adjacency.Edge (adjacency : Adjacency ν) (a b : ν) : Prop := b ∈ adjacency.successors a

/-- What the walk finds is reachable from the stack. -/
theorem search_sound {stack seen : List ν} (h : search adjacency target sets stack seen = true) :
    ∃ a ∈ stack, ReflTransGen adjacency.Edge a target := by
  fun_induction search adjacency target sets stack seen with
  | case1 => cases h
  | case2 seen stack => exact ⟨target, List.mem_cons_self, .refl⟩
  | case3 seen current stack hne hseen ih =>
    obtain ⟨a, ha, hpath⟩ := ih h
    exact ⟨a, List.mem_cons_of_mem _ ha, hpath⟩
  | case4 seen current stack hne hseen ih =>
    obtain ⟨a, ha, hpath⟩ := ih h
    rcases List.mem_append.mp ha with ha | ha
    · exact ⟨current, List.mem_cons_self, .head (sets.mem.mp (List.mem_reverse.mp ha)) hpath⟩
    · exact ⟨a, List.mem_cons_of_mem _ ha, hpath⟩

/-- Where the walk finds nothing, what it has seen is closed and without the target: the
successors of each seen node are seen, or on the stack. -/
theorem search_complete {stack seen : List ν} (h : search adjacency target sets stack seen = false)
    (hclosed : ∀ a ∈ seen, ∀ b, adjacency.Edge a b → b ∈ seen ∨ b ∈ stack) (htarget : target ∉ seen) :
    ∃ closed : List ν, (∀ a ∈ seen, a ∈ closed) ∧ (∀ a ∈ stack, a ∈ closed) ∧
      (∀ a ∈ closed, ∀ b, adjacency.Edge a b → b ∈ closed) ∧ target ∉ closed := by
  fun_induction search adjacency target sets stack seen with
  | case1 seen => exact ⟨seen, fun _ => id, by simp, fun a ha b hedge => by simpa using hclosed a ha b hedge, htarget⟩
  | case2 seen stack => cases h
  | case3 seen current stack hne hseen ih =>
    obtain ⟨closed, hsub, hstack, hedges, hout⟩ := ih h
      (fun a ha b hedge => (hclosed a ha b hedge).elim .inl fun hb =>
        (List.mem_cons.mp hb).elim (fun heq => .inl (heq ▸ hseen)) .inr) htarget
    refine ⟨closed, hsub, fun a ha => ?_, hedges, hout⟩
    rcases List.mem_cons.mp ha with rfl | ha
    · exact hsub a hseen
    · exact hstack a ha
  | case4 seen current stack hne hseen ih =>
    have hclosed' : ∀ a ∈ current :: seen, ∀ b, adjacency.Edge a b → b ∈ current :: seen ∨
        b ∈ (sets.order stack seen (adjacency.successors current)).reverse ++ stack := by
      intro a ha b hedge
      rcases List.mem_cons.mp ha with rfl | ha
      · exact .inr (List.mem_append_left _ (List.mem_reverse.mpr (sets.mem.mpr hedge)))
      · rcases hclosed a ha b hedge with hb | hb
        · exact .inl (List.mem_cons_of_mem _ hb)
        · rcases List.mem_cons.mp hb with rfl | hb
          · exact .inl List.mem_cons_self
          · exact .inr (List.mem_append_right _ hb)
    obtain ⟨closed, hsub, hstack, hedges, hout⟩ := ih h hclosed' (by simpa [not_or] using ⟨Ne.symm hne, htarget⟩)
    refine ⟨closed, fun a ha => hsub a (List.mem_cons_of_mem _ ha), fun a ha => ?_, hedges, hout⟩
    rcases List.mem_cons.mp ha with rfl | ha
    · exact hsub a List.mem_cons_self
    · exact hstack a (List.mem_append_right _ ha)

/-- **The walk from a node finds the target just when it is reachable from there.** -/
theorem search_iff {start : ν} : search adjacency target sets [start] [] = true ↔ ReflTransGen adjacency.Edge start target := by
  constructor
  · intro h
    obtain ⟨a, ha, hpath⟩ := search_sound h
    exact List.mem_singleton.mp ha ▸ hpath
  · intro hpath
    by_contra hnot
    obtain ⟨closed, -, hstack, hedges, hout⟩ := search_complete (Bool.not_eq_true _ ▸ hnot) (by simp) (by simp)
    have hmem : ∀ b, ReflTransGen adjacency.Edge start b → b ∈ closed := by
      intro b hb
      induction hb with
      | refl => exact hstack start List.mem_cons_self
      | tail _ hedge ih => exact hedges _ ih _ hedge
    exact hout (hmem target hpath)

end CcbCore.Digraph
