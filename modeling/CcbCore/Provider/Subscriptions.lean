import CcbCore.Projection.Schema
import CcbCore.Provider.Commands
import Mathlib.Data.Finset.Dedup
import Mathlib.Data.Finset.Insert

/-!
# Subscriptions at the provider

`radar.subscriptions` after all migrations, and what an `UPSERT_SUBSCRIPTION` command does to it.
`20260906133630_radar_node_routing_hardening_v1.sql` drops the unique index that the command's
`on conflict` names, and every active subscription must name a node from then on, which the
command does not. So no command succeeds, whatever the database (`upsertSubscription_error`): the
commands of a state fit the provider exactly when the state has no subscriptions
(`subscriptions_fit_iff`). Were the index still there, the active ones would fail still
(`executeUpsert_active`), and the inactive ones would not (`executeUpsert_inactive`).
-/

namespace CcbCore.Provider

open CcbCore.CodePoints CcbCore.Raising
open CcbCore.Projection (SqlError Uuid)
open CcbCore.Python (scalars)
open CcbCore.Radar (Interpreter Raised Value asciiInterpreter field get)

/-! ### Indexes -/

/-- The columns of `radar.subscriptions`, but for `created_at`. -/
inductive Column where
  | subscriptionId
  | identityId
  | domain
  | intent
  | minPriority
  | active
  | nodeId
  deriving DecidableEq, Repr

/-- What an index is on, and a conflict target names. -/
inductive KeyPart where
  | column (column : Column)
  /-- `coalesce(column, '')`. -/
  | orEmpty (column : Column)
  deriving DecidableEq, Repr

/-- `create unique index name on radar.subscriptions(key) where column is not null`. -/
structure UniqueIndex where
  name : String
  key : List KeyPart
  notNull : Option Column
  deriving DecidableEq, Repr

/-- What the migrations do to the unique indexes. -/
inductive Ddl where
  | createUniqueIndex (index : UniqueIndex)
  | dropIndex (name : String)

/-- `create unique index if not exists` and `drop index if exists`. -/
def Ddl.apply (indexes : List UniqueIndex) : Ddl → List UniqueIndex
  | .createUniqueIndex index => if indexes.any fun index' => index'.name = index.name then indexes else indexes ++ [index]
  | .dropIndex name => indexes.filter fun index => index.name ≠ name

/-- The index of the primary key. -/
def primaryKey : UniqueIndex := ⟨"subscriptions_pkey", [.column .subscriptionId], none⟩

/-- `20260902120716_radar_control_plane_v1.sql`. -/
def radarSubscriptionsUniqueIdx : UniqueIndex where
  name := "radar_subscriptions_unique_idx"
  key := [.column .identityId, .column .domain, .orEmpty .intent, .column .minPriority]
  notNull := none

/-- `20260906133630_radar_node_routing_hardening_v1.sql`. -/
def radarSubscriptionsNodeUniqueIdx : UniqueIndex where
  name := "radar_subscriptions_node_unique_idx"
  key := [.column .nodeId, .column .domain, .orEmpty .intent, .column .minPriority]
  notNull := some .nodeId

/-- The statements on unique indexes, in the order of the migrations. -/
def migrations : List Ddl :=
  [.createUniqueIndex primaryKey, .createUniqueIndex radarSubscriptionsUniqueIdx,
    .dropIndex "radar_subscriptions_unique_idx", .createUniqueIndex radarSubscriptionsNodeUniqueIdx]

/-- The unique indexes after all migrations. -/
def uniqueIndexes : List UniqueIndex := migrations.foldl Ddl.apply []

/-- The index that `on conflict (target)` means: one on the same parts, in any order, without a
condition, as the target has none. -/
def inferArbiter (indexes : List UniqueIndex) (target : List KeyPart) : Option UniqueIndex :=
  indexes.find? fun index => index.notNull = none ∧ index.key.toFinset = target.toFinset

/-! ### Rows -/

/-- `radar.subscriptions`, but for its id and `created_at`. -/
structure SubscriptionRow where
  identityId : String
  domain : String
  intent : Option String
  minPriority : ℤ
  active : Bool
  nodeId : Option Uuid
  deriving DecidableEq

/-- The tables. -/
structure Plane where
  identities : Finset String
  /-- A node has its identity. -/
  nodes : Table Uuid String
  subscriptions : Table Uuid SubscriptionRow

/-- The value of a column. -/
inductive Datum where
  | uuid (value : Uuid)
  | text (value : String)
  | integer (value : ℤ)
  | boolean (value : Bool)
  deriving DecidableEq

/-- The value of a column, unless it is null. -/
def SubscriptionRow.datum (id : Uuid) (row : SubscriptionRow) : Column → Option Datum
  | .subscriptionId => some (.uuid id)
  | .identityId => some (.text row.identityId)
  | .domain => some (.text row.domain)
  | .intent => row.intent.map .text
  | .minPriority => some (.integer row.minPriority)
  | .active => some (.boolean row.active)
  | .nodeId => row.nodeId.map .uuid

@[inherit_doc SubscriptionRow.datum]
def SubscriptionRow.part (id : Uuid) (row : SubscriptionRow) : KeyPart → Option Datum
  | .column column => row.datum id column
  | .orEmpty column => some ((row.datum id column).getD (.text ""))

/-- A row is in an index. -/
def UniqueIndex.covers (index : UniqueIndex) (id : Uuid) (row : SubscriptionRow) : Bool :=
  index.notNull.all fun column => (row.datum id column).isSome

/-- An index takes no two such rows. -/
def UniqueIndex.conflicts (index : UniqueIndex) (id : Uuid) (row : SubscriptionRow) (id' : Uuid)
    (row' : SubscriptionRow) : Bool :=
  index.covers id row && index.covers id' row' &&
    index.key.all fun part => (row.part id part).isSome && row.part id part = row'.part id' part

/-- Why a statement fails. -/
inductive Refused where
  /-- A parameter has no text at the provider. -/
  | parameter
  | sql (e : SqlError)
  deriving DecidableEq

/-- A statement. -/
abbrev Statement (α : Type) := EStateM Refused Plane α

variable (db : Plane)

/-- `radar.validate_subscription_node_identity`. -/
def validateSubscriptionNodeIdentity (row : SubscriptionRow) : Option SqlError :=
  match row.nodeId with
  | none => if row.active = true then some (.exception "RADAR_ACTIVE_SUBSCRIPTION_NODE_REQUIRED" "23514") else none
  | some nodeId =>
    match db.nodes.lookup nodeId with
    | none => some (.exception "RADAR_SUBSCRIPTION_NODE_UNKNOWN" "23503")
    | some nodeIdentity =>
      if nodeIdentity ≠ row.identityId then some (.exception "RADAR_SUBSCRIPTION_NODE_IDENTITY_MISMATCH" "23514") else none

/-- The checks of the table. -/
def checkSubscription (row : SubscriptionRow) : Option SqlError :=
  if ¬ (0 ≤ row.minPriority ∧ row.minPriority ≤ 4) then some (.violation "subscriptions_min_priority_check")
  else if row.active = true ∧ row.nodeId = none then some (.violation "radar_subscriptions_active_node_bound")
  else none

/-- The unique indexes refuse a row beside the others. -/
def checkUnique (indexes : List UniqueIndex) (id : Uuid) (row : SubscriptionRow) : Option SqlError :=
  (indexes.find? fun index => db.subscriptions.any fun id' row' => id' ≠ id ∧ index.conflicts id row id' row').map
    fun index => .violation index.name

/-- The primary key and the foreign keys refuse a new row. -/
def checkKeys (id : Uuid) (row : SubscriptionRow) : Option SqlError :=
  if (db.subscriptions.lookup id).isSome then some (.violation "subscriptions_pkey")
  else if row.identityId ∉ db.identities then some (.violation "subscriptions_identity_id_fkey")
  else none

/-! ### The command -/

/-- The conflict target of `insert into radar.subscriptions (identity_id, domain, intent, min_priority, active)
values (…) on conflict (…) do update set active = excluded.active`. -/
def conflictTarget : List KeyPart := [.column .identityId, .column .domain, .orEmpty .intent, .column .minPriority]

/-- A text at the provider: what has no UTF-8, or has a NUL, the driver does not send. -/
def sent (text : Str) : Option String :=
  match scalars text with
  | none => none
  | some chars => if '\x00' ∈ chars then none else some (String.ofList chars)

/-- A parameter that may be null. -/
def sentOptional : Option Str → Option (Option String)
  | none => some none
  | some text => (sent text).map some

/-- The row that the parameters make: the statement has no `node_id`. -/
def SubscriptionParameters.row? (p : SubscriptionParameters) : Option SubscriptionRow := do
  let identityId ← sent p.identityId
  let domain ← sent p.domain
  let intent ← sentOptional p.intent
  return { identityId, domain, intent, minPriority := p.minPriority, active := p.active, nodeId := none }

/-- What refuses, if anything does. -/
def refuse (found : Option SqlError) : Statement PUnit :=
  match found with
  | none => pure ()
  | some e => throw (.sql e)

/-- A row of the table after `do update set active = excluded.active`. -/
def updateSubscription (indexes : List UniqueIndex) (id : Uuid) (row : SubscriptionRow) : Statement PUnit := do
  refuse (validateSubscriptionNodeIdentity (← get) row)
  refuse (checkSubscription row)
  refuse (checkUnique (← get) indexes id row)
  modify fun db => { db with subscriptions := db.subscriptions.insert id row }

/-- The proposed row, which conflicts with no row. -/
def insertSubscription (indexes : List UniqueIndex) (id : Uuid) (row : SubscriptionRow) : Statement PUnit := do
  refuse (checkKeys (← get) id row)
  refuse (checkUnique (← get) indexes id row)
  modify fun db => { db with subscriptions := db.subscriptions.insert id row }

/-- The command, with the unique indexes that are there and the id that `gen_random_uuid()` gives. -/
def executeUpsert (indexes : List UniqueIndex) (id : Uuid) (p : SubscriptionParameters) : Statement PUnit := do
  match p.row? with
  | none => throw .parameter
  | some row =>
    match inferArbiter indexes conflictTarget with
    | none =>
      throw (.sql (.exception "there is no unique or exclusion constraint matching the ON CONFLICT specification" "42P10"))
    | some arbiter =>
      refuse (validateSubscriptionNodeIdentity (← get) row)
      refuse (checkSubscription row)
      match (← get).subscriptions.select fun id' row' => arbiter.conflicts id row id' row' with
      | some (id', row') => updateSubscription indexes id' { row' with active := row.active }
      | none => insertSubscription indexes id row

/-! ### What the provider holds -/

/-- What a schema with some unique indexes keeps: the keys, the checks, the trigger and the indexes hold of the rows. -/
structure Plane.Valid (indexes : List UniqueIndex) : Prop where
  identity : ∀ id row, db.subscriptions.lookup id = some row → row.identityId ∈ db.identities
  node : ∀ nodeId identityId, db.nodes.lookup nodeId = some identityId → identityId ∈ db.identities
  checked : ∀ id row, db.subscriptions.lookup id = some row →
    checkSubscription row = none ∧ validateSubscriptionNodeIdentity db row = none
  unique : ∀ index ∈ indexes, ∀ id row id' row', db.subscriptions.lookup id = some row →
    db.subscriptions.lookup id' = some row' → index.conflicts id row id' row' = true → id = id'

/-- Each identity that a command names is registered, with a node. -/
def Plane.Registered (commands : List ProjectionCommand) : Prop :=
  ∀ p ∈ subscriptionsOf commands, ∃ identityId, sent p.identityId = some identityId ∧ identityId ∈ db.identities ∧
    ∃ nodeId, db.nodes.lookup nodeId = some identityId

/-- A statement succeeds. -/
def Succeeds (statement : Statement PUnit) : Prop := ∃ db', statement.run db = .ok () db'

/-! ### What a command does -/

variable {db} {indexes : List UniqueIndex} {id : Uuid} {p : SubscriptionParameters} {row : SubscriptionRow}

theorem inferArbiter_uniqueIndexes : inferArbiter uniqueIndexes conflictTarget = none := by decide

theorem run_refuse_bind {found : Option SqlError} {f : PUnit → Statement PUnit} :
    (refuse found >>= f).run db = match found with
      | none => (f ()).run db
      | some e => .error (.sql e) db := by
  cases found <;> rfl

/-- **No `UPSERT_SUBSCRIPTION` succeeds after all migrations, whatever is in the database.** -/
theorem upsertSubscription_error (db : Plane) (id : Uuid) (p : SubscriptionParameters) :
    ∃ e, (executeUpsert uniqueIndexes id p).run db = .error e db := by
  unfold executeUpsert
  cases p.row? with
  | none => exact ⟨_, rfl⟩
  | some row =>
    rw [inferArbiter_uniqueIndexes]
    exact ⟨_, rfl⟩

theorem row?_eq (h : p.row? = some row) :
    sent p.identityId = some row.identityId ∧ row.minPriority = p.minPriority ∧ row.active = p.active ∧ row.nodeId = none := by
  simp only [SubscriptionParameters.row?, Option.bind_eq_bind, Option.bind_eq_some_iff, Option.pure_def,
    Option.some.injEq] at h
  obtain ⟨identityId, hidentity, _, -, _, -, rfl⟩ := h
  exact ⟨hidentity, rfl, rfl, rfl⟩

/-- The trigger refuses an active subscription, as the statement has no `node_id`: no index changes that. -/
theorem executeUpsert_active (indexes : List UniqueIndex) (id : Uuid) (hactive : p.active = true) :
    ∃ e, (executeUpsert indexes id p).run db = .error e db := by
  unfold executeUpsert
  cases hrow : p.row? with
  | none => exact ⟨_, rfl⟩
  | some row =>
    obtain ⟨-, -, hactive', hnode⟩ := row?_eq hrow
    cases inferArbiter indexes conflictTarget with
    | none => exact ⟨_, rfl⟩
    | some arbiter =>
      have htrigger : validateSubscriptionNodeIdentity db row =
          some (.exception "RADAR_ACTIVE_SUBSCRIPTION_NODE_REQUIRED" "23514") := by
        simp [validateSubscriptionNodeIdentity, hnode, hactive', hactive]
      dsimp only
      rw [run_get_bind, run_refuse_bind, htrigger]
      exact ⟨_, rfl⟩

/-! ### With the index that was dropped -/

/-- The unique indexes, had the first one not been dropped. -/
def keptIndexes : List UniqueIndex := [primaryKey, radarSubscriptionsUniqueIdx, radarSubscriptionsNodeUniqueIdx]

theorem inferArbiter_keptIndexes : inferArbiter keptIndexes conflictTarget = some radarSubscriptionsUniqueIdx := by decide

theorem checkUnique_eq_none (h : ∀ index ∈ indexes, ∀ id' row', db.subscriptions.lookup id' = some row' → id' ≠ id →
    index.conflicts id row id' row' = false) : checkUnique db indexes id row = none := by
  rw [checkUnique, Option.map_eq_none_iff, List.find?_eq_none]
  intro index hindex hany
  obtain ⟨id', row', hlookup, hconflict⟩ := Table.any_iff.mp hany
  obtain ⟨hne, hconflict⟩ := of_decide_eq_true hconflict
  rw [h index hindex id' row' hlookup hne] at hconflict
  cases hconflict

/-- No index is on `active`. -/
theorem conflicts_active {index : UniqueIndex} (h : index ∈ keptIndexes) (active : Bool) (id' : Uuid) (row' : SubscriptionRow) :
    index.conflicts id { row with active := active } id' row' = index.conflicts id row id' row' := by
  simp only [keptIndexes, List.mem_cons, List.not_mem_nil, or_false] at h
  obtain rfl | rfl | rfl := h <;> rfl

theorem conflicts_primaryKey {id' : Uuid} {row' : SubscriptionRow} (hne : id' ≠ id) :
    primaryKey.conflicts id row id' row' = false := by
  simp [UniqueIndex.conflicts, primaryKey, SubscriptionRow.part, SubscriptionRow.datum, hne.symm]

theorem conflicts_node {id' : Uuid} {row' : SubscriptionRow} (hnode : row.nodeId = none) :
    radarSubscriptionsNodeUniqueIdx.conflicts id row id' row' = false := by
  simp [UniqueIndex.conflicts, UniqueIndex.covers, radarSubscriptionsNodeUniqueIdx, SubscriptionRow.datum, hnode]

/-- An insert that conflicts with no row. -/
theorem insertSubscription_ok (hfresh : db.subscriptions.lookup id = none) (hidentity : row.identityId ∈ db.identities)
    (hunique : checkUnique db indexes id row = none) : Succeeds db (insertSubscription indexes id row) := by
  have hkeys : checkKeys db id row = none := by simp [checkKeys, hfresh, hidentity]
  refine ⟨{ db with subscriptions := db.subscriptions.insert id row }, ?_⟩
  rw [insertSubscription, run_get_bind, run_refuse_bind, hkeys]
  dsimp only
  rw [run_get_bind, run_refuse_bind, hunique]
  rfl

/-- An update to an inactive subscription. -/
theorem updateSubscription_ok (hvalid : db.Valid keptIndexes) (hrow : db.subscriptions.lookup id = some row) :
    Succeeds db (updateSubscription keptIndexes id { row with active := false }) := by
  obtain ⟨hcheck, htrigger⟩ := hvalid.checked id row hrow
  have htrigger' : validateSubscriptionNodeIdentity db { row with active := false } = none := by
    unfold validateSubscriptionNodeIdentity at htrigger ⊢
    dsimp only
    cases hnode : row.nodeId with
    | none => rfl
    | some nodeId =>
      rw [hnode] at htrigger
      exact htrigger
  have hcheck' : checkSubscription { row with active := false } = none := by
    unfold checkSubscription at hcheck ⊢
    split at hcheck
    · cases hcheck
    · next hrange => simp [hrange]
  have hunique : checkUnique db keptIndexes id { row with active := false } = none := by
    refine checkUnique_eq_none fun index hindex id' row' hlookup hne => ?_
    rw [conflicts_active hindex, ← Bool.not_eq_true]
    exact fun hconflict => hne (hvalid.unique index hindex id row id' row' hrow hlookup hconflict).symm
  refine ⟨{ db with subscriptions := db.subscriptions.insert id { row with active := false } }, ?_⟩
  rw [updateSubscription, run_get_bind, run_refuse_bind, htrigger']
  dsimp only
  rw [run_refuse_bind, hcheck']
  dsimp only
  rw [run_get_bind, run_refuse_bind, hunique]
  rfl

/-- With the index, an inactive subscription of a registered identity would be inserted or updated. -/
theorem executeUpsert_inactive (hvalid : db.Valid keptIndexes) (hrow : p.row? = some row) (hinactive : p.active = false)
    (hpriority : 0 ≤ p.minPriority ∧ p.minPriority ≤ 4) (hidentity : row.identityId ∈ db.identities)
    (hfresh : db.subscriptions.lookup id = none) : Succeeds db (executeUpsert keptIndexes id p) := by
  obtain ⟨-, hpriority', hactive, hnode⟩ := row?_eq hrow
  have htrigger : validateSubscriptionNodeIdentity db row = none := by
    simp [validateSubscriptionNodeIdentity, hnode, hactive, hinactive]
  have hcheck : checkSubscription row = none := by
    simp [checkSubscription, hpriority', hpriority, hactive, hinactive]
  suffices hrest : Succeeds db
      (match db.subscriptions.select fun id' row' => radarSubscriptionsUniqueIdx.conflicts id row id' row' with
        | some (id', row') => updateSubscription keptIndexes id' { row' with active := row.active }
        | none => insertSubscription keptIndexes id row) by
    obtain ⟨db', hrun⟩ := hrest
    refine ⟨db', ?_⟩
    rw [executeUpsert, hrow, inferArbiter_keptIndexes]
    dsimp only
    rw [run_get_bind, run_refuse_bind, htrigger]
    dsimp only
    rw [run_refuse_bind, hcheck]
    dsimp only
    rw [run_get_bind]
    exact hrun
  cases hselect : db.subscriptions.select fun id' row' => radarSubscriptionsUniqueIdx.conflicts id row id' row' with
  | some found =>
    obtain ⟨id', row'⟩ := found
    dsimp only
    rw [hactive, hinactive]
    exact updateSubscription_ok hvalid (Table.select_eq_some hselect).1
  | none =>
    refine insertSubscription_ok hfresh hidentity (checkUnique_eq_none fun index hindex id' row' hlookup hne => ?_)
    simp only [keptIndexes, List.mem_cons, List.not_mem_nil, or_false] at hindex
    obtain rfl | rfl | rfl := hindex
    · exact conflicts_primaryKey hne
    · exact Table.select_eq_none hselect hlookup
    · exact conflicts_node hnode

/-! ### The commands of a state -/

variable {Opaque : Type} {py : Interpreter Opaque} {state : Value Opaque} {commands : List ProjectionCommand}

/-- **The commands of an accepted state on subscriptions all succeed, whatever is in the database,
exactly when the state names no subscription.** -/
theorem subscriptions_fit_iff (h : buildProjectionCommands py state = .ok commands) (db : Plane) (id : Uuid) :
    (∀ p ∈ subscriptionsOf commands, Succeeds db (executeUpsert uniqueIndexes id p)) ↔ namesNoSubscription state = true := by
  rw [← subscriptionsOf_eq_nil_iff h]
  constructor
  · intro hsucceeds
    by_contra hne
    obtain ⟨p, hp⟩ := List.exists_mem_of_ne_nil _ hne
    obtain ⟨db', hok⟩ := hsucceeds p hp
    obtain ⟨e, herror⟩ := upsertSubscription_error db id p
    rw [herror] at hok
    cases hok
  · intro hnil p hp
    rw [hnil] at hp
    cases hp

/-- A state with one subscription. -/
def sampleState : Value Empty :=
  .object [(lit "subscriptions", .array [.object [(lit "identity_id", .str (lit "radar")), (lit "domain", .str (lit "repository")),
    (lit "intent", .null), (lit "min_priority", .int 4), (lit "active", .bool false)]])]

def sampleParameters : SubscriptionParameters := ⟨lit "radar", lit "repository", none, 4, false⟩

/-- The interpreter for texts in ASCII. -/
def sampleInterpreter : Interpreter Empty :=
  asciiInterpreter fun _ => ⟨"b94d27b9934d3e08a52e52d7da7dabfac484efe37a5380ee9088f7ace2efcde9", by decide +kernel⟩

/-- `radar` is registered, with a node. -/
def samplePlane : Plane where
  identities := {"radar"}
  nodes := (∅ : Table Uuid String).insert 1 "radar"
  subscriptions := ∅

theorem sampleState_ok : buildProjectionCommands sampleInterpreter sampleState =
    .ok [.upsertSubscription sampleParameters] := by
  decide +kernel

/-- A state with an identity and no subscription. -/
def identityState : Value Empty :=
  .object [(lit "identities", .array [.object [(lit "identity_id", .str (lit "radar")), (lit "display_name", .str (lit "Radar"))]]),
    (lit "subscriptions", .array [])]

theorem identityState_ok : buildProjectionCommands sampleInterpreter identityState =
    .ok [.upsertIdentity ⟨lit "radar", lit "Radar"⟩] := by
  decide +kernel

/-- The commands of the one state fit, and that of the other does not. -/
theorem subscriptions_fit_iff_radar :
    (∀ p ∈ subscriptionsOf [.upsertIdentity ⟨lit "radar", lit "Radar"⟩], Succeeds samplePlane (executeUpsert uniqueIndexes 1 p)) ∧
    ¬ ∀ p ∈ subscriptionsOf [.upsertSubscription sampleParameters], Succeeds samplePlane (executeUpsert uniqueIndexes 1 p) := by
  refine ⟨(subscriptions_fit_iff identityState_ok samplePlane 1).mpr rfl, fun hfit => ?_⟩
  have hnone := (subscriptions_fit_iff sampleState_ok samplePlane 1).mp hfit
  cases hnone

theorem samplePlane_valid (indexes : List UniqueIndex) : samplePlane.Valid indexes where
  identity _ _ h := by cases h
  node nodeId identityId h := by
    obtain ⟨-, rfl⟩ | ⟨-, h⟩ := Table.lookup_insert_eq_some.mp h
    · exact Finset.mem_singleton_self _
    · cases h
  checked _ _ h := by cases h
  unique _ _ _ _ _ _ h := by cases h

theorem samplePlane_registered :
    samplePlane.Registered [.upsertSubscription sampleParameters] := by
  intro p hp
  obtain rfl : p = sampleParameters := by simpa [subscriptionsOf, ProjectionCommand.subscription?] using hp
  refine ⟨"radar", ?_, Finset.mem_singleton_self _, 1, ?_⟩
  · change sent (lit "radar") = some "radar"
    decide +kernel
  · exact AList.lookup_insert _

/-- The subscription of a registered identity is refused, though it is not even active. -/
theorem inactive_subscription_refused :
    ¬ ∀ (state : Value Empty) (commands : List ProjectionCommand), buildProjectionCommands sampleInterpreter state = .ok commands →
      ∀ db : Plane, db.Valid uniqueIndexes → db.Registered commands →
        ∀ p ∈ subscriptionsOf commands, ∀ id, Succeeds db (executeUpsert uniqueIndexes id p) := by
  intro hfit
  obtain ⟨db', hok⟩ := hfit sampleState _ sampleState_ok samplePlane (samplePlane_valid _)
    samplePlane_registered sampleParameters (List.mem_singleton.mpr rfl) 1
  obtain ⟨e, herror⟩ := upsertSubscription_error samplePlane 1 sampleParameters
  rw [herror] at hok
  cases hok

end CcbCore.Provider
