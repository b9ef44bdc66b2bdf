import CcbCore.Assignments.Schema
import CcbCore.Library.Digraph
import CcbCore.Library.RecursiveUnion
import CcbCore.Library.Transactions

/-!
# The dependency graph of the control plane

`radar.dependencies` and `radar.prevent_dependency_cycle` of
`supabase/migrations/20260902120716_radar_control_plane_v1.sql`. The trigger looks for a way
back from the successor of a row to its predecessor among the active rows that its
transaction sees, and takes no lock. It does not see the rows of the other transactions in
progress, nor what was committed since its snapshot: two transactions that each insert the
other's edge turned round both pass it, and what they commit is a cycle (`crossed_cycle`).
The committed edges stay without a cycle while the trigger sees a way back whenever there
would be one if some of the transactions in progress committed (`dependencies_acyclic`), as
it does when its transaction is alone (`sees_of_alone`). The foreign keys only refuse rows,
and are left out.
-/

namespace CcbCore.Assignments

open CcbCore.Digraph CcbCore.Raising CcbCore.Transactions Relation
open CcbCore.Projection (SqlError)

/-- A predecessor and a successor. -/
abbrev Dependency := String × String

/-- `dependencies`: whether each is active. -/
abbrev Dependencies := Table Dependency Bool

/-- One row of a statement. -/
inductive RowChange where
  | insert (new : Dependency) (active : Bool)
  | update (old new : Dependency) (active : Bool)
  | delete (old : Dependency)
  deriving DecidableEq, Repr

/-- The rows that `d.active` selects. -/
def activeEdges (rows : Dependencies) : List Dependency :=
  rows.entries.filterMap fun row => if row.2 = true then some row.1 else none

/-- `prevent_dependency_cycle`, of what its transaction sees. -/
def preventDependencyCycle (seen : Dependencies) (new : Dependency) : Except SqlError PUnit :=
  rejectIf (new.1 ∈ recursiveUnion (activeEdges seen) [new.2] [new.2]) (.exception "RADAR_DEPENDENCY_CYCLE" "23514")

/-- A row that is put in, or put in place of one. -/
def storeRow (seen current : Dependencies) (replaced : Option Dependency) (new : Dependency) (active : Bool) :
    Except SqlError (List (Write Dependency Bool)) := do
  preventDependencyCycle seen new
  rejectIf (new.1 = new.2) (.violation "dependencies_check")
  rejectIf (replaced ≠ some new ∧ (current.lookup new).isSome = true) (.violation "dependencies_pkey")
  return (replaced.map fun old => ⟨old, none⟩).toList ++ [⟨new, some active⟩]

/-- A row that an update finds and that is still there. -/
def Found (seen current : Dependencies) (old : Dependency) : Prop :=
  (seen.lookup old).isSome = true ∧ (current.lookup old).isSome = true
deriving Decidable

/-- What a change writes, of what its transaction sees and of what is there. -/
def performChange (seen current : Dependencies) : RowChange → Except SqlError (List (Write Dependency Bool))
  | .insert new active => storeRow seen current none new active
  | .update old new active => if Found seen current old then storeRow seen current (some old) new active else .ok []
  | .delete old => .ok [⟨old, none⟩]

/-- The transactions on `dependencies`. -/
abbrev DependencyStep {ι : Type} [DecidableEq ι] (db : Database ι Dependency Bool) (event : Event ι RowChange)
    (db' : Database ι Dependency Bool) : Prop := Step performChange db event db'

/-! ### Edges -/

/-- An active row. -/
def Active (rows : Dependencies) (a b : String) : Prop := rows.lookup (a, b) = some true

theorem edgeOf_activeEdges {rows : Dependencies} : EdgeOf (activeEdges rows) = Active rows := by
  funext a b
  simp only [EdgeOf, activeEdges, List.mem_filterMap, Option.ite_none_right_eq_some, Option.some.injEq, Active]
  rw [← Option.mem_def, AList.mem_lookup_iff]
  refine propext ⟨?_, fun hrow => ⟨_, hrow, rfl, rfl⟩⟩
  rintro ⟨⟨edge, active⟩, hrow, hactive, rfl⟩
  exact hactive ▸ hrow

/-- The trigger passes a row when it sees no way back. -/
theorem preventDependencyCycle_ok {seen : Dependencies} {new : Dependency} {u : PUnit} :
    preventDependencyCycle seen new = .ok u ↔ ¬ ReflTransGen (Active seen) new.2 new.1 := by
  rw [preventDependencyCycle, rejectIf_ok, mem_recursiveUnion, edgeOf_activeEdges]

/-- The rows without the one that is replaced. -/
def without (rows : Dependencies) : Option Dependency → Dependencies
  | some old => rows.erase old
  | none => rows

theorem active_without {rows : Dependencies} {replaced : Option Dependency} {a b : String}
    (h : Active (without rows replaced) a b) : Active rows a b := by
  cases replaced with
  | none => exact h
  | some old =>
    by_cases hold : (a, b) = old
    · rw [without, Active, hold, AList.lookup_erase] at h
      cases h
    · rwa [without, Active, AList.lookup_erase_ne hold] at h

/-- The active rows once a row is stored. -/
theorem active_stored {rows rows' : Dependencies} {replaced : Option Dependency} {new : Dependency} {active : Bool}
    (h : ∀ k, rows'.lookup k =
      (applyAll rows ((replaced.map fun old => ⟨old, none⟩).toList ++ [⟨new, some active⟩])).lookup k) {a b : String} :
    Active rows' a b ↔ if (a, b) = new then active = true else Active (without rows replaced) a b := by
  have hwithout : applyAll rows (replaced.map fun old => (⟨old, none⟩ : Write Dependency Bool)).toList = without rows replaced := by
    cases replaced <;> rfl
  have hlast : applyAll (without rows replaced) [⟨new, some active⟩] = (without rows replaced).insert new active := rfl
  rw [Active, h, applyAll_append, hwithout, hlast]
  by_cases hnew : (a, b) = new
  · rw [if_pos hnew, hnew, AList.lookup_insert, Option.some.injEq]
  · rw [if_neg hnew, AList.lookup_insert_ne hnew, Active]

/-! ### What the trigger does not see -/

variable {ι : Type} [DecidableEq ι] {db db' : Database ι Dependency Bool} {i : ι} {op : RowChange} {event : Event ι RowChange}

/-- The active row that a change stores, with the row it replaces. -/
def RowChange.stored? (seen current : Dependencies) : RowChange → Option (Option Dependency × Dependency)
  | .insert new true => some (none, new)
  | .update old new true => if Found seen current old then some (some old, new) else none
  | _ => none

/-- Where a row of the change would close a cycle if some of the transactions in progress
committed, its own among them, its own trigger sees a way back. -/
def Sees (db : Database ι Dependency Bool) (i : ι) (op : RowChange) : Prop :=
  ∀ seen, (db.transactions i).snapshot = some seen →
    ∀ stored ∈ op.stored? (applyAll seen (db.writes i)) (db.current i), ∀ is : List ι, is.Nodup → i ∈ is →
      ReflTransGen (Active (without (db.future is) stored.1)) stored.2.2 stored.2.1 →
      ReflTransGen (Active (applyAll seen (db.writes i))) stored.2.2 stored.2.1

/-- A step of which the trigger sees what it should. -/
def SeenStep (db : Database ι Dependency Bool) (event : Event ι RowChange) (db' : Database ι Dependency Bool) : Prop :=
  DependencyStep db event db' ∧ ∀ i op, event = .write i op → Sees db i op

/-- No cycle is committed when some of the transactions in progress commit. -/
def Safe (db : Database ι Dependency Bool) : Prop := ∀ is : List ι, is.Nodup → Acyclic (Active (db.future is))

theorem storeRow_ok {seen current : Dependencies} {replaced : Option Dependency} {new : Dependency} {active : Bool}
    {ws : List (Write Dependency Bool)} (h : storeRow seen current replaced new active = .ok ws) :
    ¬ ReflTransGen (Active seen) new.2 new.1 ∧ ws = (replaced.map fun old => ⟨old, none⟩).toList ++ [⟨new, some active⟩] := by
  simp only [storeRow, except_bind_ok, preventDependencyCycle_ok, rejectIf_ok, except_pure_ok] at h
  obtain ⟨_, hback, _, -, _, -, rfl⟩ := h
  exact ⟨hback, rfl⟩

/-- A stored row closes no cycle when there is no way back. -/
theorem acyclic_stored {rows rows' : Dependencies} {replaced : Option Dependency} {new : Dependency} {active : Bool}
    (hrows : Acyclic (Active rows))
    (h : ∀ k, rows'.lookup k =
      (applyAll rows ((replaced.map fun old => ⟨old, none⟩).toList ++ [⟨new, some active⟩])).lookup k)
    (hback : active = true → ¬ ReflTransGen (Active (without rows replaced)) new.2 new.1) : Acyclic (Active rows') := by
  have hwithout : Acyclic (Active (without rows replaced)) := hrows.mono fun a b => active_without
  cases active with
  | false =>
    refine hwithout.mono fun a b hedge => ?_
    rw [active_stored h] at hedge
    split at hedge
    · cases hedge
    · exact hedge
  | true =>
    refine (hwithout.insert (hback rfl)).mono fun a b hedge => ?_
    rw [active_stored h] at hedge
    split at hedge
    · next hnew => exact .inr ⟨congrArg Prod.fst hnew, congrArg Prod.snd hnew⟩
    · exact .inl hedge

/-- What a change writes closes no cycle that its trigger sees. -/
theorem acyclic_change {rows rows' seen current : Dependencies} {ws : List (Write Dependency Bool)}
    (hperform : performChange seen current op = .ok ws) (hrows : Acyclic (Active rows))
    (h : ∀ k, rows'.lookup k = (applyAll rows ws).lookup k)
    (hsees : ∀ stored ∈ op.stored? seen current, ReflTransGen (Active (without rows stored.1)) stored.2.2 stored.2.1 →
      ReflTransGen (Active seen) stored.2.2 stored.2.1) : Acyclic (Active rows') := by
  cases op with
  | insert new active =>
    obtain ⟨hback, rfl⟩ := storeRow_ok hperform
    refine acyclic_stored hrows h fun hactive hway => hback (hsees (none, new) ?_ hway)
    rw [hactive]
    rfl
  | update old new active =>
    rw [performChange] at hperform
    split at hperform
    · next hold =>
      obtain ⟨hback, rfl⟩ := storeRow_ok hperform
      refine acyclic_stored hrows h fun hactive hway => hback (hsees (some old, new) ?_ hway)
      rw [hactive]
      exact if_pos hold
    · obtain rfl := Except.ok.inj hperform
      refine hrows.mono fun a b hedge => ?_
      rwa [Active, h] at hedge
  | delete old =>
    obtain rfl := Except.ok.inj hperform
    refine hrows.mono fun a b hedge => ?_
    rw [Active, h] at hedge
    have hkept : Active (without rows (some old)) a b := hedge
    exact active_without hkept

/-- **A step of which the trigger sees what it should keeps the futures without a cycle.** -/
theorem Safe.step (hsafe : Safe db) (h : SeenStep db event db') : Safe db' := by
  intro is his
  rcases h.1.future his with ⟨is', his', heq⟩ | ⟨i, op, seen, ws, rfl, hi, hseen, hperform, hlookup⟩
  · rw [heq]
    exact hsafe is' his'
  · exact acyclic_change hperform (hsafe is his) hlookup fun stored hstored hway =>
      h.2 i op rfl seen hseen stored hstored is his hi hway

/-- A stored row closes a cycle when there is a way back. -/
theorem cyclic_stored {rows rows' : Dependencies} {replaced : Option Dependency} {new : Dependency}
    (h : ∀ k, rows'.lookup k =
      (applyAll rows ((replaced.map fun old => ⟨old, none⟩).toList ++ [⟨new, some true⟩])).lookup k)
    (hback : ReflTransGen (Active (without rows replaced)) new.2 new.1) : ¬ Acyclic (Active rows') := by
  have hnew : Active rows' new.1 new.2 := (active_stored h).mpr (by rw [if_pos rfl])
  have hkept : ∀ a b, Active (without rows replaced) a b → Active rows' a b := by
    intro a b hedge
    rw [active_stored h]
    split
    · rfl
    · exact hedge
  exact fun hacyclic => hacyclic new.1 (.head' hnew (ReflTransGen.mono hkept _ _ hback))

theorem stored_row {seen current : Dependencies} {ws : List (Write Dependency Bool)}
    (hperform : performChange seen current op = .ok ws) {stored : Option Dependency × Dependency}
    (h : stored ∈ op.stored? seen current) : ws = (stored.1.map fun old => ⟨old, none⟩).toList ++ [⟨stored.2, some true⟩] := by
  cases op with
  | insert new active =>
    cases active with
    | false => cases h
    | true =>
      cases h
      exact (storeRow_ok hperform).2
  | update old new active =>
    cases active with
    | false => cases h
    | true =>
      obtain ⟨hold, hstored⟩ := Option.ite_none_right_eq_some.mp h
      cases hstored
      rw [performChange, if_pos hold] at hperform
      exact (storeRow_ok hperform).2
  | delete old => cases h

/-- After a step of which the trigger does not see what it should, a cycle is committed if some
of the transactions in progress commit. -/
theorem cycle_of_unseen (hstep : DependencyStep db (.write i op) db') (hsees : ¬ Sees db i op) :
    ∃ (is : List ι) (db'' : Database ι Dependency Bool), Run DependencyStep db' (is.map .commit) db'' ∧
      ¬ Acyclic (Active db''.committed) := by
  simp only [Sees, not_forall] at hsees
  obtain ⟨seen, hseen, stored, hstored, is, his, hi, hback, -⟩ := hsees
  obtain ⟨db'', hrun, hcommitted⟩ := commits_run performChange db' his
  refine ⟨is, db'', hrun, ?_⟩
  rw [hcommitted]
  cases hstep with
  | write hsnapshot hunlocked hperform =>
    obtain rfl := Option.some.inj (hseen.symm.trans hsnapshot)
    obtain rfl := stored_row hperform hstored
    exact cyclic_stored (future_write hunlocked rfl his hi) hback

omit [DecidableEq ι] in
/-- A transaction that is alone, with a snapshot of what is committed, sees what it should. -/
theorem sees_of_alone (hsnapshot : (db.transactions i).snapshot = some db.committed)
    (halone : ∀ j, j ≠ i → db.writes j = []) (op : RowChange) : Sees db i op := by
  intro seen hseen stored _ is his hi hway
  obtain rfl := Option.some.inj (hsnapshot.symm.trans hseen)
  rw [future_alone halone his hi] at hway
  exact ReflTransGen.mono (fun _ _ => active_without) _ _ hway

/-- Committed rows, and no transaction. -/
def quiet (rows : Dependencies) : Database ι Dependency Bool := ⟨rows, fun _ => {}⟩

omit [DecidableEq ι] in
theorem safe_quiet {rows : Dependencies} (hrows : Acyclic (Active rows)) : Safe (quiet rows : Database ι Dependency Bool) := by
  intro is _
  rw [Database.future, settle_empty fun _ _ => rfl]
  exact hrows

/-- **In every interleaving of transactions of whose writes the trigger sees what it should, no
cycle is committed; and after one of which it does not, commits lead to a cycle.** -/
theorem dependencies_acyclic {rows : Dependencies} (hrows : Acyclic (Active rows)) {events : List (Event ι RowChange)}
    (h : Run SeenStep (quiet rows) events db) :
    Acyclic (Active db.committed) ∧
    ∀ i op db', DependencyStep db (.write i op) db' → ¬ Sees db i op →
      ∃ (is : List ι) (db'' : Database ι Dependency Bool), Run DependencyStep db' (is.map .commit) db'' ∧
        ¬ Acyclic (Active db''.committed) := by
  have hsafe : Safe db := h.invariant (fun _ _ _ hs hstep => hs.step hstep) (safe_quiet hrows)
  exact ⟨hsafe [] List.nodup_nil, fun i op db' hstep hsees => cycle_of_unseen hstep hsees⟩

/-! ### Two transactions -/

theorem insert_empty {seen current : Dependencies} {new : Dependency} (hseen : ∀ a b, ¬ Active seen a b)
    (hcurrent : current.lookup new = none) (hne : new.1 ≠ new.2) :
    performChange seen current (.insert new true) = .ok [⟨new, some true⟩] := by
  have hpass : preventDependencyCycle seen new = .ok ⟨⟩ := by
    rw [preventDependencyCycle_ok]
    intro hpath
    rcases ReflTransGen.cases_head hpath with heq | ⟨b, hedge, -⟩
    · exact hne heq.symm
    · exact hseen _ _ hedge
  rw [performChange, storeRow, hpass]
  simp [hcurrent, hne, rejectIf, bind, Except.bind, pure, Except.pure]

theorem none_active (a b : String) : ¬ Active ∅ a b := by simp [Active]

/-- Two transactions that have each taken a snapshot of the empty table. -/
def begun : Database Bool Dependency Bool := ⟨∅, fun _ => ⟨some ∅, []⟩⟩

theorem begun_run : Run SeenStep (quiet ∅) [.snapshot true, .snapshot false] begun := by
  have hfirst : SeenStep (quiet ∅ : Database Bool Dependency Bool) (.snapshot true) _ := ⟨.snapshot true, nofun⟩
  have hboth := (Run.single hfirst).snoc ⟨.snapshot false, nofun⟩
  have hbegun : ((quiet ∅ : Database Bool Dependency Bool).put true ⟨some ∅, []⟩).put false ⟨some ∅, []⟩ = begun := by
    refine congrArg (Database.mk ∅) (funext fun i => ?_)
    cases i <;> rfl
  exact hbegun ▸ hboth

/-- One of the two inserts an edge. -/
theorem insert_step : DependencyStep begun (.write true (.insert ("A", "B") true))
    (begun.put true ⟨some ∅, [⟨("A", "B"), some true⟩]⟩) :=
  .write rfl nofun (insert_empty none_active rfl (by decide))

theorem dependencies_acyclic_committed : ∃ db : Database Bool Dependency Bool,
    Run SeenStep (quiet ∅) [.snapshot true, .snapshot false, .write true (.insert ("A", "B") true), .commit true] db ∧
      Active db.committed "A" "B" ∧ Acyclic (Active db.committed) := by
  have hsees : Sees begun true (.insert ("A", "B") true) := sees_of_alone rfl (fun _ _ => rfl) _
  have hwritten := begun_run.snoc ⟨insert_step, by rintro i op ⟨⟩; exact hsees⟩
  have hrun := hwritten.snoc ⟨.commit true, nofun⟩
  have hnone : Acyclic (Active ∅) := fun a hcycle => by
    obtain ⟨b, hedge, -⟩ := TransGen.head'_iff.mp hcycle
    exact none_active a b hedge
  exact ⟨_, hrun, rfl, (dependencies_acyclic hnone hrun).1⟩

/-- The other one inserts the edge turned round. -/
def crossed : Database Bool Dependency Bool :=
  (begun.put true ⟨some ∅, [⟨("A", "B"), some true⟩]⟩).put false ⟨some ∅, [⟨("B", "A"), some true⟩]⟩

theorem cross_step : DependencyStep (begun.put true ⟨some ∅, [⟨("A", "B"), some true⟩]⟩)
    (.write false (.insert ("B", "A") true)) crossed := by
  refine .write rfl ?_ (insert_empty none_active rfl (by decide))
  intro j hj v hv w hw
  obtain rfl : j = true := by simpa using hj
  obtain rfl : v = ⟨("A", "B"), some true⟩ := List.mem_singleton.mp hv
  rw [List.mem_singleton.mp hw]
  decide

/-- **Each of the two passes the trigger, and they commit a cycle.** -/
theorem crossed_cycle : ∃ db : Database Bool Dependency Bool,
    Run DependencyStep (quiet ∅) [.snapshot true, .snapshot false, .write true (.insert ("A", "B") true),
      .write false (.insert ("B", "A") true), .commit true, .commit false] db ∧ ¬ Acyclic (Active db.committed) := by
  have hbegun := begun_run.mono fun _ _ _ hstep => hstep.1
  obtain ⟨db, hcommits, hcommitted⟩ := commits_run performChange crossed (show [true, false].Nodup by decide)
  refine ⟨db, ((hbegun.snoc insert_step).snoc cross_step).trans hcommits, ?_⟩
  have hforward : Active (crossed.future [true, false]) "A" "B" := rfl
  have hback : Active (crossed.future [true, false]) "B" "A" := rfl
  rw [hcommitted]
  exact fun hacyclic => hacyclic "A" (.head' hforward (.single hback))

end CcbCore.Assignments
