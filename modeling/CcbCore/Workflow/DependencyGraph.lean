import Mathlib.Data.List.AList
import CcbCore.Library.Digraph
import CcbCore.Library.Raising
import CcbCore.Library.Run
import CcbCore.Text.Lines

/-!
# The dependency graph

`DependencyGraph` of `src/radar/workflow.py`: assignments, those that are complete, and the
predecessors of each. A set is the list of what was added to it, and whatever goes through one
goes through it in any order (`SetOrder`). An edge is refused as a cycle just when it would
close one (`addEdge_run`), so the predecessors stay acyclic in every run (`Sound`), and the
assignments can always be completed, each after its predecessors (`completing_exists`). The
main result is `dependencies_completable`.
-/

namespace CcbCore.Workflow

open CcbCore.Python CcbCore.Digraph CcbCore.Raising Relation

/-! ### The methods -/

/-- An argument, as far as the code tells one from another. -/
inductive Argument where
  | str (text : String)
  | bool (value : Bool)
  | other
  deriving DecidableEq, Repr

/-- The exceptions a method raises. -/
inductive Raised where
  | workflowError (text : String)
  | keyError (key : String)
  deriving DecidableEq, Repr

/-- `_require_bool`. -/
def requireBool (value : Argument) (name : String) : Except Raised Bool :=
  match value with
  | .bool value => .ok value
  | _ => .error (.workflowError ("INVALID_BOOLEAN:" ++ name))

/-- `_assignment_id`. -/
def assignmentId (value : Argument) : Except Raised String :=
  match value with
  | .str text =>
    if stripString text = "" then .error (.workflowError "ASSIGNMENT_ID_REQUIRED") else .ok (stripString text)
  | _ => .error (.workflowError "ASSIGNMENT_ID_REQUIRED")

/-- `DependencyGraph`. -/
structure DependencyGraph where
  assignments : List String
  completed : List String
  predecessors : AList fun _ : String => List String
  protectedAuthority : List String

/-- A method of the graph. -/
abbrev Method (α : Type) := EStateM Raised DependencyGraph α

namespace DependencyGraph

/-- `__init__`. -/
def empty : DependencyGraph := ⟨[], [], ∅, []⟩

/-- `add_assignment`. -/
def addAssignment (id protectedAuthority : Argument) : Method PUnit := do
  let assignment ← Raising.ofExcept (assignmentId id)
  let isProtected ← Raising.ofExcept (requireBool protectedAuthority "protected_authority")
  let graph ← get
  refuseIf (assignment ∈ graph.assignments) (.workflowError ("ASSIGNMENT_COLLISION: " ++ assignment))
  modify fun graph => { graph with assignments := graph.assignments.insert assignment }
  modify fun graph => { graph with predecessors := graph.predecessors.insert assignment [] }
  if isProtected then
    modify fun graph => { graph with protectedAuthority := graph.protectedAuthority.insert assignment }

/-- `_require`. -/
def require (id : Argument) : Method String := do
  let assignment ← Raising.ofExcept (assignmentId id)
  let graph ← get
  refuseIf (assignment ∉ graph.assignments) (.workflowError ("UNKNOWN_ASSIGNMENT: " ++ assignment))
  return assignment

/-- `reverse.setdefault(predecessor, set()).add(successor)`. -/
def addSuccessor (reverse : Adjacency String) (predecessor successor : String) : Adjacency String :=
  if predecessor ∈ reverse.map Prod.fst then
    reverse.map fun (a, successors) => if a = predecessor then (a, successors.insert successor) else (a, successors)
  else reverse ++ [(predecessor, [successor])]

/-- The pairs `for successor, predecessors in …: for predecessor in predecessors` goes through. -/
def pairs (graph : DependencyGraph) : List (String × String) :=
  graph.predecessors.entries.flatMap fun entry => entry.2.map fun predecessor => (predecessor, entry.1)

/-- `reverse`: the successors of each assignment. -/
def reverse (graph : DependencyGraph) : Adjacency String :=
  graph.pairs.foldl (fun reverse pair => addSuccessor reverse pair.1 pair.2) (graph.assignments.map fun a => (a, []))

/-- `_reachable`. -/
def reachable (sets : SetOrder String) (graph : DependencyGraph) (start target : String) : Bool :=
  search graph.reverse target sets [start] []

/-- `add_edge`. -/
def addEdge (sets : SetOrder String) (predecessor successor : Argument) : Method PUnit := do
  let predecessor ← require predecessor
  let successor ← require successor
  let graph ← get
  refuseIf (predecessor = successor ∨ graph.reachable sets successor predecessor = true)
    (.workflowError ("DEPENDENCY_CYCLE: " ++ predecessor ++ " -> " ++ successor))
  let predecessors ← required (graph.predecessors.lookup successor) (.keyError successor)
  modify fun graph =>
    { graph with predecessors := graph.predecessors.insert successor (predecessors.insert predecessor) }

/-- `complete`. -/
def complete (id : Argument) : Method PUnit := do
  let assignment ← require id
  modify fun graph => { graph with completed := graph.completed.insert assignment }

/-- `ready`. -/
def ready (id : Argument) : Method Bool := do
  let assignment ← require id
  let graph ← get
  return ((graph.predecessors.lookup assignment).getD []).all fun a => a ∈ graph.completed

end DependencyGraph

open DependencyGraph

/-- A call that may change the graph. -/
inductive Call where
  | addAssignment (id protectedAuthority : Argument)
  | addEdge (predecessor successor : Argument)
  | complete (id : Argument)
  deriving DecidableEq, Repr

/-- The method that is called. -/
def Call.method (call : Call) (sets : SetOrder String) : Method PUnit :=
  match call with
  | .addAssignment id protectedAuthority => DependencyGraph.addAssignment id protectedAuthority
  | .addEdge predecessor successor => DependencyGraph.addEdge sets predecessor successor
  | .complete id => DependencyGraph.complete id

/-- A call, which returns or raises, and goes through each set in some order. -/
def CallStep (graph : DependencyGraph) (call : Call) (graph' : DependencyGraph) : Prop :=
  ∃ sets : SetOrder String, (call.method sets).run graph = .ok ⟨⟩ graph' ∨ ∃ e, (call.method sets).run graph = .error e graph'

/-- The edges, from a predecessor to its successor. -/
def DependencyGraph.Edge (graph : DependencyGraph) (predecessor successor : String) : Prop :=
  ∃ predecessors ∈ graph.predecessors.lookup successor, predecessor ∈ predecessors

/-! ### The methods' answers -/

variable {graph graph' : DependencyGraph} {sets : SetOrder String}

theorem stripString_stripString (text : String) : stripString (stripString text) = stripString text := by
  rw [stripString, stripString, String.toList_ofList, strip_idem]

theorem assignmentId_str {id : Argument} {a : String} (h : assignmentId id = .ok a) : assignmentId (.str a) = .ok a := by
  cases id with
  | str text =>
    simp only [assignmentId] at h
    split at h
    · cases h
    · rename_i hne
      cases h
      simp only [assignmentId, stripString_stripString, if_neg hne]
  | bool value => cases h
  | other => cases h

@[simp] theorem require_ok {id : Argument} {a : String} :
    (require id).run graph = .ok a graph' ↔ assignmentId id = .ok a ∧ a ∈ graph.assignments ∧ graph' = graph := by
  simp only [require, run_ofExcept_bind, run_get_bind, run_refuseIf_bind, run_pure_ok, not_not]
  constructor
  · rintro ⟨b, hb, hmem, rfl, rfl⟩
    exact ⟨hb, hmem, rfl⟩
  · rintro ⟨ha, hmem, rfl⟩
    exact ⟨a, ha, hmem, rfl, rfl⟩

theorem readOnly_require (id : Argument) : ReadOnly (require id) :=
  (ReadOnly.ofExcept _).bind fun _ => ReadOnly.get.bind fun _ => (ReadOnly.refuseIf _ _).bind fun _ => .pure _

theorem addAssignment_ok {id protectedAuthority : Argument} {u : PUnit}
    (h : (addAssignment id protectedAuthority).run graph = .ok u graph') :
    ∃ a, assignmentId id = .ok a ∧ a ∉ graph.assignments ∧ graph'.assignments = graph.assignments.insert a ∧
      graph'.predecessors = graph.predecessors.insert a [] := by
  simp only [addAssignment, run_ofExcept_bind, run_get_bind, run_refuseIf_bind] at h
  obtain ⟨a, ha, isProtected, -, hnew, h⟩ := h
  obtain ⟨_, _, h₁, h⟩ := run_bind_ok.mp h
  obtain ⟨_, _, h₂, h⟩ := run_bind_ok.mp h
  obtain rfl := run_modify_ok.mp h₁
  obtain rfl := run_modify_ok.mp h₂
  refine ⟨a, ha, hnew, ?_⟩
  split at h
  · obtain rfl := run_modify_ok.mp h
    exact ⟨rfl, rfl⟩
  · obtain ⟨-, rfl⟩ := run_pure_ok.mp h
    exact ⟨rfl, rfl⟩

theorem complete_ok {id : Argument} {u : PUnit} :
    (complete id).run graph = .ok u graph' ↔ ∃ a, assignmentId id = .ok a ∧ a ∈ graph.assignments ∧
      graph' = { graph with completed := graph.completed.insert a } := by
  simp only [complete, run_bind_ok, require_ok, run_modify_ok]
  constructor
  · rintro ⟨a, _, ⟨ha, hmem, rfl⟩, h⟩
    exact ⟨a, ha, hmem, h⟩
  · rintro ⟨a, ha, hmem, h⟩
    exact ⟨a, graph, ⟨ha, hmem, rfl⟩, h⟩

theorem ready_ok {id : Argument} :
    (ready id).run graph = .ok true graph' ↔ ∃ a, assignmentId id = .ok a ∧ a ∈ graph.assignments ∧
      (∀ b, graph.Edge b a → b ∈ graph.completed) ∧ graph' = graph := by
  have hall : ∀ a : String, ((graph.predecessors.lookup a).getD []).all (fun b => b ∈ graph.completed) = true ↔
      ∀ b, graph.Edge b a → b ∈ graph.completed := by
    intro a
    simp only [Edge, List.all_eq_true, decide_eq_true_iff]
    cases graph.predecessors.lookup a with
    | none => simp
    | some predecessors => simp
  simp only [ready, run_bind_ok, require_ok, run_get_ok, run_pure_ok]
  constructor
  · rintro ⟨a, _, ⟨ha, hmem, rfl⟩, _, _, ⟨rfl, rfl⟩, hready, rfl⟩
    exact ⟨a, ha, hmem, (hall a).mp hready.symm, rfl⟩
  · rintro ⟨a, ha, hmem, hready, rfl⟩
    exact ⟨a, graph', ⟨ha, hmem, rfl⟩, graph', graph', ⟨rfl, rfl⟩, ((hall a).mpr hready).symm, rfl⟩

/-- A call that raises changes nothing. -/
theorem atomic_method (call : Call) (sets : SetOrder String) : Atomic (call.method sets) := by
  cases call with
  | addAssignment id protectedAuthority =>
    refine .bind_left (.ofExcept _) fun _ => .bind_left (.ofExcept _) fun _ => .bind_left .get fun _ =>
      .bind_left (.refuseIf _ _) fun _ => .of_total ((Total.modify _).bind fun _ => (Total.modify _).bind fun _ => ?_)
    split
    · exact .modify _
    · exact .pure _
  | addEdge predecessor successor =>
    exact .bind_left (readOnly_require _) fun _ => .bind_left (readOnly_require _) fun _ => .bind_left .get fun _ =>
      .bind_left (.refuseIf _ _) fun _ => .bind_left (.required _ _) fun _ => .of_total (.modify _)
  | complete id => exact .bind_left (readOnly_require _) fun _ => .of_total (.modify _)

/-! ### What is reachable -/

theorem lookup_map_insert {reverse : Adjacency String} {p s a : String} :
    (reverse.map fun (a, successors) => if a = p then (a, successors.insert s) else (a, successors)).lookup a =
      (reverse.lookup a).map fun successors => if a = p then successors.insert s else successors := by
  induction reverse with
  | nil => rfl
  | cons entry reverse ih =>
    obtain ⟨b, successors⟩ := entry
    rw [List.map_cons, List.lookup_cons, List.lookup_cons, ih]
    by_cases hbp : b = p
    · subst hbp
      by_cases hab : a = b
      · simp [hab]
      · simp [hab, beq_false_of_ne hab]
    · by_cases hab : a = b
      · simp [hab, hbp]
      · simp [hbp, beq_false_of_ne hab]

theorem edge_addSuccessor {reverse : Adjacency String} {p s a b : String} :
    (addSuccessor reverse p s).Edge a b ↔ reverse.Edge a b ∨ a = p ∧ b = s := by
  unfold addSuccessor Adjacency.Edge Adjacency.successors
  by_cases hp : p ∈ reverse.map Prod.fst
  · rw [if_pos hp, lookup_map_insert]
    have hsome : ∃ successors, reverse.lookup p = some successors := by
      rw [← Option.isSome_iff_exists, Option.isSome_iff_ne_none, Ne, List.lookup_eq_none_iff]
      obtain ⟨pair, hpair, rfl⟩ := List.mem_map.mp hp
      exact fun hnone => by simpa using hnone pair hpair
    by_cases hap : a = p
    · obtain ⟨successors, hlookup⟩ := hsome
      subst hap
      simp [hlookup, or_comm]
    · cases reverse.lookup a with
      | none => simp [hap]
      | some successors => simp [hap]
  · rw [if_neg hp, List.lookup_append]
    have hnone : reverse.lookup p = none := by
      rw [List.lookup_eq_none_iff]
      intro pair hpair
      simpa using fun heq : p = pair.1 => hp (heq ▸ List.mem_map_of_mem hpair)
    by_cases hap : a = p
    · subst hap
      simp [hnone]
    · cases reverse.lookup a with
      | none => simp [hap, List.lookup_cons, beq_false_of_ne hap]
      | some successors => simp [hap]

theorem edge_foldl {pairs : List (String × String)} {reverse : Adjacency String} {a b : String} :
    (pairs.foldl (fun reverse pair => addSuccessor reverse pair.1 pair.2) reverse).Edge a b ↔
      reverse.Edge a b ∨ (a, b) ∈ pairs := by
  induction pairs generalizing reverse with
  | nil => simp
  | cons pair pairs ih =>
    rw [List.foldl_cons, ih, edge_addSuccessor, List.mem_cons, Prod.ext_iff, or_assoc]

theorem mem_pairs {a b : String} : (a, b) ∈ graph.pairs ↔ graph.Edge a b := by
  simp only [pairs, DependencyGraph.Edge, List.mem_flatMap, List.mem_map, Prod.mk.injEq, Option.mem_def]
  constructor
  · rintro ⟨⟨successor, predecessors⟩, hentry, _, ha, rfl, rfl⟩
    exact ⟨predecessors, AList.mem_lookup_iff.mpr hentry, ha⟩
  · rintro ⟨predecessors, hlookup, ha⟩
    exact ⟨⟨b, predecessors⟩, AList.mem_lookup_iff.mp hlookup, a, ha, rfl, rfl⟩

/-- The reversed adjacency has the edges of the graph, whatever the graph. -/
theorem edge_reverse : graph.reverse.Edge = graph.Edge := by
  funext a b
  refine propext ?_
  have hnone : ¬ Adjacency.Edge (graph.assignments.map fun a => (a, [])) a b := by
    unfold Adjacency.Edge Adjacency.successors
    induction graph.assignments with
    | nil => simp
    | cons c assignments ih =>
      rw [List.map_cons, List.lookup_cons]
      cases a == c with
      | true => simp
      | false => exact ih
  rw [reverse, edge_foldl, mem_pairs, or_iff_right hnone]

variable (sets) in
/-- **The search ends on every graph, and finds what is reachable along successor edges.** -/
theorem reachable_iff {start target : String} :
    graph.reachable sets start target = true ↔ ReflTransGen graph.Edge start target := by
  rw [reachable, search_iff, edge_reverse]

/-! ### The invariant -/

/-- What holds of the graph between calls: each assignment has its predecessors, which are
assignments, under an id that is read back as it is, and no assignment is above itself. -/
structure Sound (graph : DependencyGraph) : Prop where
  keys : ∀ a, a ∈ graph.predecessors ↔ a ∈ graph.assignments
  distinct : graph.assignments.Nodup
  ids : ∀ a ∈ graph.assignments, assignmentId (.str a) = .ok a
  ends : ∀ a b, graph.Edge a b → a ∈ graph.assignments
  acyclic : Acyclic graph.Edge

theorem sound_empty : Sound empty := by
  have hnone : ∀ a b, ¬ empty.Edge a b := fun a b ⟨_, h, _⟩ => absurd h (Option.not_mem_none _)
  refine ⟨fun a => by simp [empty], List.nodup_nil, fun a h => absurd h List.not_mem_nil,
    fun a b h => absurd h (hnone a b), fun a hcycle => ?_⟩
  obtain ⟨b, hedge, -⟩ := TransGen.head'_iff.mp hcycle
  exact hnone a b hedge

theorem Sound.addAssignment (hs : Sound graph) {a : String} (hid : assignmentId (.str a) = .ok a) (hnew : a ∉ graph.assignments)
    (hassignments : graph'.assignments = graph.assignments.insert a)
    (hpredecessors : graph'.predecessors = graph.predecessors.insert a []) : Sound graph' := by
  have hedge : ∀ b c, graph'.Edge b c ↔ graph.Edge b c := by
    intro b c
    rw [DependencyGraph.Edge, DependencyGraph.Edge, hpredecessors]
    by_cases hca : c = a
    · subst hca
      have hlookup : graph.predecessors.lookup c = none := AList.lookup_eq_none.mpr fun h => hnew ((hs.keys c).mp h)
      simp [hlookup]
    · rw [AList.lookup_insert_ne hca]
  refine ⟨fun b => ?_, hassignments ▸ hs.distinct.insert, fun b hb => ?_, fun b c h => ?_, ?_⟩
  · rw [hpredecessors, hassignments, AList.mem_insert, List.mem_insert_iff, hs.keys]
  · rw [hassignments, List.mem_insert_iff] at hb
    rcases hb with rfl | hb
    · exact hid
    · exact hs.ids b hb
  · exact hassignments ▸ List.mem_insert_of_mem (hs.ends b c ((hedge b c).mp h))
  · exact hs.acyclic.mono fun b c h => (hedge b c).mp h

/-- What `add_edge` raises for an edge that would close a cycle. -/
def dependencyCycle (predecessor successor : String) : Raised :=
  .workflowError ("DEPENDENCY_CYCLE: " ++ predecessor ++ " -> " ++ successor)

variable (sets) in
/-- On known assignments, `add_edge` refuses the edge that would close a cycle, and adds any other. -/
theorem addEdge_run (hs : Sound graph) {predecessor successor : Argument} {p s : String}
    (hp : assignmentId predecessor = .ok p) (hps : p ∈ graph.assignments)
    (hsu : assignmentId successor = .ok s) (hss : s ∈ graph.assignments) :
    (p = s ∨ ReflTransGen graph.Edge s p →
      (addEdge sets predecessor successor).run graph = .error (dependencyCycle p s) graph) ∧
    (¬ (p = s ∨ ReflTransGen graph.Edge s p) → ∃ predecessors ∈ graph.predecessors.lookup s,
      (addEdge sets predecessor successor).run graph = .ok ⟨⟩
        { graph with predecessors := graph.predecessors.insert s (predecessors.insert p) }) := by
  have hrun : (addEdge sets predecessor successor).run graph =
      (refuseIf (p = s ∨ graph.reachable sets s p = true) (dependencyCycle p s) >>= fun _ =>
        required (graph.predecessors.lookup s) (.keyError s) >>= fun predecessors =>
          (modify fun graph => { graph with predecessors := graph.predecessors.insert s (predecessors.insert p) } :
            Method PUnit)).run graph := by
    rw [addEdge, EStateM.run_bind, require_ok.mpr ⟨hp, hps, rfl⟩]
    dsimp only
    rw [EStateM.run_bind, require_ok.mpr ⟨hsu, hss, rfl⟩]
    rfl
  rw [hrun]
  refine ⟨fun h => ?_, fun h => ?_⟩
  · rw [refuseIf, if_pos (h.imp_right (reachable_iff sets).mpr)]
    rfl
  · obtain ⟨predecessors, hlookup⟩ := Option.isSome_iff_exists.mp (AList.lookup_isSome.mpr ((hs.keys s).mpr hss))
    refine ⟨predecessors, hlookup, ?_⟩
    rw [refuseIf, if_neg fun h' => h (h'.imp_right (reachable_iff sets).mp), hlookup]
    rfl

theorem edge_insert {p s : String} {predecessors : List String} (hlookup : predecessors ∈ graph.predecessors.lookup s)
    (hpredecessors : graph'.predecessors = graph.predecessors.insert s (predecessors.insert p)) {a b : String} :
    graph'.Edge a b ↔ insertEdge p s graph.Edge a b := by
  rw [insertEdge, DependencyGraph.Edge, DependencyGraph.Edge, hpredecessors]
  by_cases hbs : b = s
  · subst hbs
    simp [Option.mem_def.mp hlookup, or_comm]
  · simp [AList.lookup_insert_ne hbs, hbs]

theorem Sound.addEdge (hs : Sound graph) {predecessor successor : Argument} {u : PUnit}
    (h : (addEdge sets predecessor successor).run graph = .ok u graph') : Sound graph' := by
  have hrequired := h
  simp only [DependencyGraph.addEdge, run_bind_ok, require_ok] at hrequired
  obtain ⟨p, read, ⟨hp, hps, hread⟩, s, _, ⟨hsu, hss, -⟩, -⟩ := hrequired
  rw [hread] at hss
  obtain ⟨hcycle, hadd⟩ := addEdge_run sets hs hp hps hsu hss
  by_cases hclose : p = s ∨ ReflTransGen graph.Edge s p
  · rw [hcycle hclose] at h
    cases h
  · obtain ⟨predecessors, hlookup, hrun⟩ := hadd hclose
    rw [hrun] at h
    cases h
    refine ⟨fun a => ?_, hs.distinct, hs.ids, fun a b hedge => ?_, ?_⟩
    · rw [AList.mem_insert, hs.keys]
      exact or_iff_right_of_imp fun heq => heq ▸ hss
    · rcases (edge_insert hlookup rfl).mp hedge with hedge | ⟨rfl, -⟩
      · exact hs.ends a b hedge
      · exact hps
    · exact (hs.acyclic.insert fun hreach => hclose (.inr hreach)).mono fun a b => (edge_insert hlookup rfl).mp

/-- What the invariant needs of a call that completes an assignment. -/
theorem Sound.complete (hs : Sound graph) {id : Argument} {u : PUnit} (h : (complete id).run graph = .ok u graph') :
    Sound graph' := by
  obtain ⟨a, -, -, rfl⟩ := complete_ok.mp h
  exact ⟨hs.keys, hs.distinct, hs.ids, hs.ends, hs.acyclic⟩

theorem CallStep.sound {call : Call} (h : CallStep graph call graph') (hs : Sound graph) : Sound graph' := by
  obtain ⟨sets, h | ⟨e, h⟩⟩ := h
  · cases call with
    | addAssignment id protectedAuthority =>
      obtain ⟨a, hid, hnew, hassignments, hpredecessors⟩ := addAssignment_ok h
      exact hs.addAssignment (assignmentId_str hid) hnew hassignments hpredecessors
    | addEdge predecessor successor => exact hs.addEdge h
    | complete id => exact hs.complete h
  · exact atomic_method call sets graph e graph' h ▸ hs

/-! ### Completion -/

/-- A ready assignment that is not complete is completed. -/
def Completing (graph : DependencyGraph) (id : Argument) (graph' : DependencyGraph) : Prop :=
  (ready id).run graph = .ok true graph ∧
    ∃ a, (require id).run graph = .ok a graph ∧ a ∉ graph.completed ∧ (complete id).run graph = .ok ⟨⟩ graph'

/-- The assignments that are not complete. -/
def DependencyGraph.remaining (graph : DependencyGraph) : List String :=
  graph.assignments.filter fun a => a ∉ graph.completed

theorem Completing.remaining {id : Argument} (hs : Sound graph) (h : Completing graph id graph') :
    graph'.assignments = graph.assignments ∧ graph'.remaining.length + 1 = graph.remaining.length := by
  obtain ⟨-, a, hrequire, hopen, hcomplete⟩ := h
  obtain ⟨b, hb, hmem, rfl⟩ := complete_ok.mp hcomplete
  obtain ⟨ha, -, -⟩ := require_ok.mp hrequire
  obtain rfl : a = b := Except.ok.inj (ha.symm.trans hb)
  refine ⟨rfl, ?_⟩
  have herase : ({ graph with completed := graph.completed.insert a } : DependencyGraph).remaining = graph.remaining.erase a := by
    have hdistinct : graph.remaining.Nodup := hs.distinct.filter _
    rw [hdistinct.erase_eq_filter, DependencyGraph.remaining, DependencyGraph.remaining, List.filter_filter]
    refine List.filter_congr fun c _ => ?_
    rw [Bool.eq_iff_iff]
    simp [not_or]
  have hin : a ∈ graph.remaining := List.mem_filter.mpr ⟨hmem, by simpa using hopen⟩
  rw [herase, List.length_erase_of_mem hin]
  have hpos := List.length_pos_of_mem hin
  omega

/-- While an assignment is not complete, one that is not complete is ready. -/
theorem completing_exists (hs : Sound graph) (hopen : graph.remaining ≠ []) : ∃ id graph', Completing graph id graph' := by
  obtain ⟨a, ha, hsource⟩ := hs.acyclic.exists_source hopen
  obtain ⟨hmem, hnot⟩ := List.mem_filter.mp ha
  have hid := hs.ids a hmem
  have hready : ∀ b, graph.Edge b a → b ∈ graph.completed := by
    intro b hedge
    by_contra hb
    exact hsource b (List.mem_filter.mpr ⟨hs.ends b a hedge, by simpa using hb⟩) hedge
  exact ⟨.str a, _, ready_ok.mpr ⟨a, hid, hmem, hready, rfl⟩, a, require_ok.mpr ⟨hid, hmem, rfl⟩, by simpa using hnot,
    complete_ok.mpr ⟨a, hid, hmem, rfl⟩⟩

theorem run_completing {ids : List Argument} (h : Run Completing graph ids graph') (hs : Sound graph) :
    Sound graph' ∧ graph'.assignments = graph.assignments ∧ ids.length + graph'.remaining.length = graph.remaining.length := by
  induction h with
  | nil => exact ⟨hs, rfl, by simp⟩
  | snoc _ hstep ih =>
    obtain ⟨hs', hassignments, hlength⟩ := ih
    obtain ⟨hsame, hone⟩ := hstep.remaining hs'
    obtain ⟨-, a, -, -, hcomplete⟩ := hstep
    refine ⟨hs'.complete hcomplete, hsame.trans hassignments, ?_⟩
    rw [List.length_append, List.length_singleton]
    omega

/-- **Whatever was called before, no assignment is above itself, an edge between assignments is
refused just when it would close a cycle, and changes nothing then, what the search finds is what
is reachable, and completing ready assignments, in any order, goes on until all are complete.** -/
theorem dependencies_completable {calls : List Call} (h : Run CallStep empty calls graph) :
    Acyclic graph.Edge ∧
      (∀ (sets : SetOrder String) (predecessor successor : Argument) (p s : String),
        (require predecessor).run graph = .ok p graph → (require successor).run graph = .ok s graph →
          (p = s ∨ ReflTransGen graph.Edge s p →
            (addEdge sets predecessor successor).run graph = .error (dependencyCycle p s) graph) ∧
          (¬ (p = s ∨ ReflTransGen graph.Edge s p) → ∃ graph', (addEdge sets predecessor successor).run graph = .ok ⟨⟩ graph' ∧
            ∀ a b, graph'.Edge a b ↔ insertEdge p s graph.Edge a b)) ∧
      (∀ (sets : SetOrder String) (start target : String),
        graph.reachable sets start target = true ↔ ReflTransGen graph.Edge start target) ∧
      ∀ (ids : List Argument) (graph' : DependencyGraph), Run Completing graph ids graph' →
        ids.length + graph'.remaining.length = graph.remaining.length ∧
          ((∃ id graph'', Completing graph' id graph'') ∨ ∀ a ∈ graph.assignments, a ∈ graph'.completed) := by
  have hs : Sound graph := h.invariant (fun _ _ _ hs hstep => CallStep.sound hstep hs) sound_empty
  refine ⟨hs.acyclic, fun sets predecessor successor p s hp hsu => ?_, fun sets start target => reachable_iff sets, ?_⟩
  · obtain ⟨hp, hps, -⟩ := require_ok.mp hp
    obtain ⟨hsu, hss, -⟩ := require_ok.mp hsu
    obtain ⟨hcycle, hadd⟩ := addEdge_run sets hs hp hps hsu hss
    refine ⟨hcycle, fun hopen => ?_⟩
    obtain ⟨predecessors, hlookup, hrun⟩ := hadd hopen
    exact ⟨_, hrun, fun a b => edge_insert hlookup rfl⟩
  · intro ids graph' hrun
    obtain ⟨hs', hassignments, hlength⟩ := run_completing hrun hs
    refine ⟨hlength, ?_⟩
    by_cases hopen : graph'.remaining = []
    · refine .inr fun a ha => ?_
      simpa using List.filter_eq_nil_iff.mp hopen a (hassignments ▸ ha)
    · exact .inl (completing_exists hs' hopen)

/-- Two assignments, the second protected. -/
def twoAssignments : DependencyGraph where
  assignments := ["ship", "build"]
  completed := []
  predecessors := ((∅ : AList fun _ : String => List String).insert "build" []).insert "ship" []
  protectedAuthority := ["ship"]

theorem reachable_twoAssignments : twoAssignments.reachable sets "ship" "build" = false := by
  have hreverse : twoAssignments.reverse = [("ship", []), ("build", [])] := rfl
  have hnil : sets.order [] [] [] = [] := List.perm_nil.mp (sets.perm [] [] [])
  simp [reachable, hreverse, search, Adjacency.successors, hnil]

/-- Two assignments, and the second after the first. -/
theorem dependencies_completable_sample : ∃ graph,
    Run CallStep empty [.addAssignment (.str " build ") (.bool false), .addAssignment (.str "ship") (.bool true),
      .addEdge (.str "build") (.str "ship")] graph ∧ graph.Edge "build" "ship" ∧ Acyclic graph.Edge := by
  let sets : SetOrder String := ⟨fun _ _ nodes => nodes, fun _ _ nodes => .refl nodes⟩
  have hfirst : CallStep empty (.addAssignment (.str " build ") (.bool false))
      ⟨["build"], [], (∅ : AList fun _ : String => List String).insert "build" [], []⟩ := ⟨sets, .inl rfl⟩
  have hsecond : CallStep ⟨["build"], [], (∅ : AList fun _ : String => List String).insert "build" [], []⟩
      (.addAssignment (.str "ship") (.bool true)) twoAssignments := ⟨sets, .inl rfl⟩
  have hrun := (Run.nil.snoc hfirst).snoc hsecond
  have hopen : ¬ ("build" = "ship" ∨ ReflTransGen twoAssignments.Edge "ship" "build") := by
    rw [← reachable_iff sets, reachable_twoAssignments]
    decide
  obtain ⟨graph, hedge, hafter⟩ := ((dependencies_completable hrun).2.1 sets (.str "build") (.str "ship") "build" "ship"
    (by rfl) (by rfl)).2 hopen
  have hrun' := hrun.snoc (show CallStep twoAssignments (.addEdge (.str "build") (.str "ship")) graph from ⟨sets, .inl hedge⟩)
  exact ⟨graph, hrun', (hafter _ _).mpr (.inr ⟨rfl, rfl⟩), (dependencies_completable hrun').1⟩

end CcbCore.Workflow
