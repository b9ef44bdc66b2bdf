import CcbCore.Radar.Registry
import Mathlib.Data.List.Induction

/-!
# Who owns what in the registry

The methods of `IdentityRegistry` that change it, statement by statement: an exception does
not undo the assignments that were made before it. Each makes its checks first, so that an
operation that raises leaves the registry as it found it (`Operation.perform_atomic`), and
one that returns leaves the registry of the method without statements
(`Operation.perform_ok`).

In a registry that operations built from an empty one, names are owned (`registry_owned`):
no alias is an identity, each alias belongs to the one identity that lists it, nodes and
endpoints belong to identities, and subscriptions to nodes.
-/

namespace CcbCore.Radar

open CcbCore.CodePoints CcbCore.Raising

variable {Opaque : Type}

/-! ### Methods -/

/-- What a `for` takes out of an argument, and the exception that ends it, if one does. -/
structure Iteration (Opaque : Type) where
  items : List (Value Opaque)
  raised : Option Raised

/-- `normalized_aliases`. -/
def Iteration.normalize (unicode : Casefold) (canonical : Str) (aliases : Iteration Opaque) : Except Raised (List Str) := do
  let normalized ← normalizeAliases unicode canonical [] aliases.items
  match aliases.raised with
  | none => return normalized
  | some e => .error e

/-- A method that changes the registry. -/
abbrev Method (α : Type) := EStateM Raised IdentityRegistry α

namespace Method

/-- The registry as it is. -/
def registry : Method IdentityRegistry := MonadState.get

variable (unicode : Casefold)

/-- The assignments of `register_identity`. -/
def store (identity : Identity) : Method Identity := do
  modify fun r => { r with identities := r.identities.insert identity.identityId identity }
  identity.aliases.forM fun name => modify fun r => { r with aliases := r.aliases.insert name identity.identityId }
  return identity

/-- `register_identity`. -/
def registerIdentity (identityId displayName : Value Opaque) (aliases : Iteration Opaque) : Method Identity := do
  let canonical ← Raising.ofExcept (normalizeIdentifier unicode identityId)
  let name ← Raising.ofExcept (requireText displayName "DISPLAY_NAME_REQUIRED")
  let normalized ← Raising.ofExcept (aliases.normalize unicode canonical)
  let r ← registry
  refuseIf ((r.identities.lookup canonical).isSome ∨ (r.aliases.lookup canonical).isSome) (.registryError "IDENTITY_COLLISION")
  normalized.forM fun name =>
    refuseIf ((r.identities.lookup name).isSome ∨ (r.aliases.lookup name).isSome) (.registryError "ALIAS_COLLISION")
  store ⟨canonical, name, normalized⟩

/-- `register_node`. -/
def registerNode (nodeId identityId status lastHeartbeatMs leaseExpiresMs : Value Opaque) : Method Node := do
  let canonicalNode ← Raising.ofExcept (normalizeIdentifier unicode nodeId)
  let r ← registry
  let canonicalIdentity ← Raising.ofExcept (r.resolveIdentityId unicode identityId)
  let heartbeat ← Raising.ofExcept (millisecondValue? lastHeartbeatMs)
  let leaseExpires ← Raising.ofExcept (millisecondValue? leaseExpiresMs)
  refuseIf (∃ beat ∈ heartbeat, ∃ expires ∈ leaseExpires, expires < beat) (.registryError "INVALID_NODE_LEASE_TIME")
  refuseIf (r.nodes.lookup canonicalNode).isSome (.registryError "NODE_COLLISION")
  let status ← Raising.ofExcept (nodeStatusValue status)
  let node : Node := ⟨canonicalNode, canonicalIdentity, status, heartbeat, leaseExpires⟩
  modify fun r => { r with nodes := r.nodes.insert canonicalNode node }
  return node

/-- `set_node_status`. -/
def setNodeStatus (nodeId status : Value Opaque) : Method Node := do
  let r ← registry
  let current ← Raising.ofExcept (r.node unicode nodeId)
  let status ← Raising.ofExcept (nodeStatusValue status)
  let updated := { current with status }
  modify fun r => { r with nodes := r.nodes.insert current.nodeId updated }
  return updated

/-- `register_endpoint`. -/
def registerEndpoint (endpointId identityId transport address : Value Opaque) : Method Endpoint := do
  let canonicalEndpoint ← Raising.ofExcept (normalizeIdentifier unicode endpointId)
  let r ← registry
  let canonicalIdentity ← Raising.ofExcept (r.resolveIdentityId unicode identityId)
  let transport ← Raising.ofExcept (requireText transport "TRANSPORT_REQUIRED")
  let address ← Raising.ofExcept (requireText address "ADDRESS_REQUIRED")
  refuseIf (r.endpoints.lookup canonicalEndpoint).isSome (.registryError "ENDPOINT_COLLISION")
  let endpoint : Endpoint := ⟨canonicalEndpoint, canonicalIdentity, unicode.casefold transport, address⟩
  modify fun r => { r with endpoints := r.endpoints.insert canonicalEndpoint endpoint }
  return endpoint

/-- `isinstance(enabled, bool)`. -/
def enabledValue : Value Opaque → Except Raised Bool
  | .bool enabled => .ok enabled
  | _ => registryError "INVALID_SUBSCRIPTION_ENABLED"

/-- `subscribe`. -/
def subscribe (nodeId domain intent minPriority enabled : Value Opaque) : Method Subscription := do
  let domain ← Raising.ofExcept (subscriptionDomain unicode domain)
  let priority ← Raising.ofExcept (priorityValue minPriority)
  let enabled ← Raising.ofExcept (enabledValue enabled)
  let intent ← Raising.ofExcept (subscriptionIntent unicode intent)
  let r ← registry
  let node ← Raising.ofExcept (r.resolveSubscriptionNode unicode nodeId)
  let sub : Subscription := ⟨node.nodeId, node.identityId, domain, intent, priority, enabled⟩
  modify fun r => if sub ∈ r.subscriptions then r else { r with subscriptions := r.subscriptions ++ [sub] }
  return sub

end Method

/-! ### Operations -/

/-- A method that may change the registry, with its arguments. -/
inductive Operation (Opaque : Type) where
  | registerIdentity (identityId displayName : Value Opaque) (aliases : Iteration Opaque)
  | registerNode (nodeId identityId status lastHeartbeatMs leaseExpiresMs : Value Opaque)
  | setNodeStatus (nodeId status : Value Opaque)
  | registerEndpoint (endpointId identityId transport address : Value Opaque)
  | subscribe (nodeId domain intent minPriority enabled : Value Opaque)

namespace Operation

variable (unicode : Casefold)

/-- What the operation does to the registry. -/
def perform : Operation Opaque → Method Unit
  | registerIdentity identityId displayName aliases => discard (Method.registerIdentity unicode identityId displayName aliases)
  | registerNode nodeId identityId status lastHeartbeatMs leaseExpiresMs =>
    discard (Method.registerNode unicode nodeId identityId status lastHeartbeatMs leaseExpiresMs)
  | setNodeStatus nodeId status => discard (Method.setNodeStatus unicode nodeId status)
  | registerEndpoint endpointId identityId transport address =>
    discard (Method.registerEndpoint unicode endpointId identityId transport address)
  | subscribe nodeId domain intent minPriority enabled =>
    discard (Method.subscribe unicode nodeId domain intent minPriority enabled)

/-- The registry after an operation, whether it returned or raised. -/
def after (r : IdentityRegistry) (op : Operation Opaque) : IdentityRegistry :=
  match (op.perform unicode).run r with
  | .ok _ r' => r'
  | .error _ r' => r'

/-- The call that an operation is, with all the aliases at hand. -/
def call : Operation Opaque → RegistryCall Opaque
  | registerIdentity identityId displayName aliases => .registerIdentity identityId displayName aliases.items
  | registerNode nodeId identityId status lastHeartbeatMs leaseExpiresMs =>
    .registerNode nodeId identityId status lastHeartbeatMs leaseExpiresMs
  | setNodeStatus nodeId status => .setNodeStatus nodeId status
  | registerEndpoint endpointId identityId transport address => .registerEndpoint endpointId identityId transport address
  | subscribe nodeId domain intent minPriority enabled => .subscribe nodeId domain intent minPriority enabled

end Operation

/-- The registry that some operations build, the first of them first. -/
def registryAfter (unicode : Casefold) (ops : List (Operation Opaque)) : IdentityRegistry :=
  ops.foldl (Operation.after unicode) IdentityRegistry.empty

section Operation

variable {unicode : Casefold} {r r' : IdentityRegistry}

theorem Method.store_total (identity : Identity) : Total (Method.store identity) :=
  (Total.modify _).bind fun _ => (total_forM_modify _ _).bind fun _ => Total.pure _

theorem Method.store_run (identity : Identity) :
    (Method.store identity).run r = .ok identity { r with
      identities := r.identities.insert identity.identityId identity
      aliases := identity.aliases.foldl (fun table name => table.insert name identity.identityId) r.aliases } := by
  have hfold : ∀ (names : List Str) (s : IdentityRegistry),
      names.foldl (fun (s : IdentityRegistry) name => { s with aliases := s.aliases.insert name identity.identityId }) s =
        { s with aliases := names.foldl (fun table name => table.insert name identity.identityId) s.aliases } := by
    intro names
    induction names with
    | nil => exact fun s => rfl
    | cons name names ih => exact fun s => ih _
  refine run_bind_ok.mpr ⟨_, _, rfl, run_bind_ok.mpr ⟨_, _, run_forM_modify, ?_⟩⟩
  rw [run_pure_ok, hfold]
  exact ⟨rfl, rfl⟩

/-- **An operation that raises leaves the registry unchanged.** -/
theorem Operation.perform_atomic (unicode : Casefold) (op : Operation Opaque) : Atomic (op.perform unicode) := by
  have hcheck {α β : Type} {x : Except Raised α} {f : α → Method β} (hf : ∀ a, Atomic (f a)) : Atomic (Raising.ofExcept x >>= f) :=
    Atomic.bind_left (ReadOnly.ofExcept x) hf
  have hread {β : Type} {f : IdentityRegistry → Method β} (hf : ∀ r, Atomic (f r)) : Atomic (Method.registry >>= f) :=
    Atomic.bind_left ReadOnly.get hf
  have hrefuse {β : Type} {p : Prop} [Decidable p] {e : Raised} {f : PUnit → Method β} (hf : ∀ u, Atomic (f u)) :
      Atomic (refuseIf p e >>= f) := Atomic.bind_left (ReadOnly.refuseIf p e) hf
  have hassign {β : Type} (f : IdentityRegistry → IdentityRegistry) (b : β) :
      Atomic (do modify f; return b : Method β) := Atomic.of_total ((Total.modify f).bind fun _ => Total.pure b)
  cases op with
  | registerIdentity identityId displayName aliases =>
    exact Atomic.map (hcheck fun _ => hcheck fun _ => hcheck fun _ => hread fun _ => hrefuse fun _ =>
      Atomic.bind_left (ReadOnly.forM (fun _ => ReadOnly.refuseIf _ _) _) fun _ => Atomic.of_total (Method.store_total _)) _
  | registerNode nodeId identityId status lastHeartbeatMs leaseExpiresMs =>
    exact Atomic.map (hcheck fun _ => hread fun _ => hcheck fun _ => hcheck fun _ => hcheck fun _ => hrefuse fun _ =>
      hrefuse fun _ => hcheck fun _ => hassign _ _) _
  | setNodeStatus nodeId status => exact Atomic.map (hread fun _ => hcheck fun _ => hcheck fun _ => hassign _ _) _
  | registerEndpoint endpointId identityId transport address =>
    exact Atomic.map (hcheck fun _ => hread fun _ => hcheck fun _ => hcheck fun _ => hcheck fun _ => hrefuse fun _ =>
      hassign _ _) _
  | subscribe nodeId domain intent minPriority enabled =>
    exact Atomic.map (hcheck fun _ => hcheck fun _ => hcheck fun _ => hcheck fun _ => hread fun _ => hcheck fun _ =>
      hassign _ _) _

/-- A loop of checks that returns has passed them all. -/
theorem run_forM_refuseIf {α : Type} {p : α → Prop} [DecidablePred p] {e : Raised} {as : List α} {u : PUnit} :
    (as.forM fun a => (refuseIf (p a) e : Method PUnit)).run r = .ok u r' ↔ (∀ a ∈ as, ¬ p a) ∧ r' = r := by
  induction as with
  | nil => simp [eq_comm]
  | cons a as ih =>
    rw [run_forM_cons]
    simp only [run_refuseIf_ok, List.forall_mem_cons]
    constructor
    · rintro ⟨s, ⟨ha, rfl⟩, has⟩
      exact ⟨⟨ha, (ih.mp has).1⟩, (ih.mp has).2⟩
    · rintro ⟨⟨ha, has⟩, rfl⟩
      exact ⟨r', ⟨ha, rfl⟩, ih.mpr ⟨has, rfl⟩⟩

theorem Iteration.normalize_ok {canonical : Str} {aliases : Iteration Opaque} {names : List Str}
    (h : aliases.normalize unicode canonical = .ok names) :
    normalizeAliases unicode canonical [] aliases.items = .ok names := by
  obtain ⟨normalized, hnormalized, h⟩ := except_bind_ok.mp h
  split at h
  · exact except_pure_ok.mp h ▸ hnormalized
  · cases h

/-- An operation that returns leaves the registry that its call returns. -/
theorem Operation.perform_ok {op : Operation Opaque} {u : Unit} (h : (op.perform unicode).run r = .ok u r') :
    op.call.run unicode r = .ok r' := by
  cases op with
  | registerIdentity identityId displayName aliases =>
    obtain ⟨identity, h, -⟩ := run_map_ok.mp h
    simp only [Method.registerIdentity, Method.registry, run_ofExcept_bind, run_get_bind, run_refuseIf_bind] at h
    obtain ⟨canonical, hcanonical, name, hname, names, hnames, hfresh, h⟩ := h
    obtain ⟨_, s, hloop, hstore⟩ := run_bind_ok.mp h
    obtain ⟨hfree, rfl⟩ := run_forM_refuseIf.mp hloop
    rw [Method.store_run] at hstore
    cases hstore
    refine except_map_ok.mpr ⟨(⟨canonical, name, names⟩, _), except_bind_ok.mpr ⟨canonical, hcanonical, except_bind_ok.mpr
      ⟨name, hname, except_bind_ok.mpr ⟨names, Iteration.normalize_ok hnames, ?_⟩⟩⟩, rfl⟩
    rw [if_neg hfresh, if_neg (by simpa using hfree)]
    rfl
  | registerNode nodeId identityId status lastHeartbeatMs leaseExpiresMs =>
    obtain ⟨node, h, -⟩ := run_map_ok.mp h
    simp only [Method.registerNode, Method.registry, run_ofExcept_bind, run_get_bind, run_refuseIf_bind] at h
    obtain ⟨canonicalNode, hnode, identity, hidentity, heartbeat, hbeat, expires, hexpires, horder, hfresh, status', hstatus, h⟩ := h
    cases h
    refine except_map_ok.mpr ⟨(⟨canonicalNode, identity, status', heartbeat, expires⟩, _), except_bind_ok.mpr ⟨canonicalNode, hnode,
      except_bind_ok.mpr ⟨identity, hidentity, except_bind_ok.mpr ⟨heartbeat, hbeat, except_bind_ok.mpr ⟨expires, hexpires, ?_⟩⟩⟩⟩, rfl⟩
    rw [if_neg horder, if_neg hfresh]
    exact except_bind_ok.mpr ⟨status', hstatus, rfl⟩
  | setNodeStatus nodeId status =>
    obtain ⟨node, h, -⟩ := run_map_ok.mp h
    simp only [Method.setNodeStatus, Method.registry, run_ofExcept_bind, run_get_bind] at h
    obtain ⟨current, hcurrent, status', hstatus, h⟩ := h
    cases h
    exact except_map_ok.mpr ⟨({ current with status := status' }, _), except_bind_ok.mpr ⟨current, hcurrent,
      except_bind_ok.mpr ⟨status', hstatus, rfl⟩⟩, rfl⟩
  | registerEndpoint endpointId identityId transport address =>
    obtain ⟨endpoint, h, -⟩ := run_map_ok.mp h
    simp only [Method.registerEndpoint, Method.registry, run_ofExcept_bind, run_get_bind, run_refuseIf_bind] at h
    obtain ⟨canonical, hcanonical, identity, hidentity, transport', htransport, address', haddress, hfresh, h⟩ := h
    cases h
    refine except_map_ok.mpr ⟨(⟨canonical, identity, unicode.casefold transport', address'⟩, _), except_bind_ok.mpr ⟨canonical, hcanonical,
      except_bind_ok.mpr ⟨identity, hidentity, except_bind_ok.mpr ⟨transport', htransport, except_bind_ok.mpr ⟨address', haddress, ?_⟩⟩⟩⟩, rfl⟩
    rw [if_neg hfresh]
    rfl
  | subscribe nodeId domain intent minPriority enabled =>
    obtain ⟨sub, h, -⟩ := run_map_ok.mp h
    simp only [Method.subscribe, Method.registry, run_ofExcept_bind, run_get_bind] at h
    obtain ⟨domain', hdomain, priority, hpriority, enabled', henabled, intent', hintent, node, hnode, h⟩ := h
    cases h
    refine except_map_ok.mpr ⟨(⟨node.nodeId, node.identityId, domain', intent', priority, enabled'⟩, _), except_bind_ok.mpr ⟨domain', hdomain,
      except_bind_ok.mpr ⟨priority, hpriority, ?_⟩⟩, rfl⟩
    cases enabled with
    | bool b =>
      cases henabled
      exact except_bind_ok.mpr ⟨intent', hintent, except_bind_ok.mpr ⟨node, hnode, rfl⟩⟩
    | _ => simp [Method.enabledValue, registryError] at henabled

/-- An operation leaves the registry its call leaves, or the registry as it was. -/
theorem Operation.after_cases (unicode : Casefold) (r : IdentityRegistry) (op : Operation Opaque) :
    op.call.run unicode r = .ok (op.after unicode r) ∨ op.after unicode r = r := by
  unfold Operation.after
  cases h : (op.perform unicode).run r with
  | ok u r' => exact .inl (Operation.perform_ok h)
  | error e r' => exact .inr (Operation.perform_atomic unicode op r e r' h)

end Operation

/-! ### Ownership -/

/-- Every name of the registry has one owner. -/
structure IdentityRegistry.Owned (r : IdentityRegistry) : Prop where
  /-- No alias is an identity. -/
  disjoint : ∀ name, (r.identities.lookup name).isSome → r.aliases.lookup name = none
  /-- An alias belongs to an identity that lists it. -/
  aliases : ∀ name canonical, r.aliases.lookup name = some canonical →
    ∃ identity, r.identities.lookup canonical = some identity ∧ name ∈ identity.aliases
  /-- No other identity lists it. -/
  owner : ∀ canonical identity, r.identities.lookup canonical = some identity →
    identity.identityId = canonical ∧ ∀ name ∈ identity.aliases, r.aliases.lookup name = some canonical
  nodes : ∀ key node, r.nodes.lookup key = some node → (r.identities.lookup node.identityId).isSome
  endpoints : ∀ key endpoint, r.endpoints.lookup key = some endpoint → (r.identities.lookup endpoint.identityId).isSome
  /-- A subscription is of a node, under that node's identity. -/
  subscriptions : ∀ sub ∈ r.subscriptions, ∃ node, r.nodes.lookup sub.nodeId = some node ∧ node.identityId = sub.identityId
  distinct : r.subscriptions.Nodup

namespace IdentityRegistry

variable {unicode : Casefold} {r r' : IdentityRegistry}

theorem empty_owned : empty.Owned := by
  constructor <;> simp [empty]

theorem empty_sound (unicode : Casefold) : empty.Sound unicode := by
  constructor <;> simp [empty]

theorem not_mem_normalizeAliases {canonical : Str} {values : List (Value Opaque)} {names aliases : List Str}
    (h : normalizeAliases unicode canonical aliases values = .ok names) (hfree : canonical ∉ aliases) : canonical ∉ names := by
  induction values generalizing aliases with
  | nil =>
    cases h
    exact hfree
  | cons value values ih =>
    obtain ⟨normalized, -, h⟩ := except_bind_ok.mp h
    split at h
    · simp [registryError] at h
    · next hother =>
      refine ih h fun hmem => ?_
      rcases List.mem_append.mp hmem with hmem | hmem
      · exact hfree hmem
      · exact hother (.inl (List.mem_singleton.mp hmem).symm)

theorem lookup_foldl_aliases (names : List Str) (canonical : Str) (table : Table Str Str) (name : Str) :
    (names.foldl (fun table name => table.insert name canonical) table).lookup name =
      if name ∈ names then some canonical else table.lookup name := by
  induction names generalizing table with
  | nil => simp
  | cons first names ih =>
    rw [List.foldl_cons, ih]
    by_cases hmem : name ∈ names
    · simp [hmem]
    · by_cases hfirst : name = first
      · subst hfirst
        rw [if_neg hmem, if_pos List.mem_cons_self, AList.lookup_insert]
      · rw [if_neg hmem, if_neg (by simp [hmem, hfirst]), AList.lookup_insert_ne hfirst]

theorem Owned.registerIdentity (hr : r.Owned) {identityId displayName : Value Opaque} {aliases : List (Value Opaque)} {identity : Identity}
    (h : r.registerIdentity unicode identityId displayName aliases = .ok (identity, r')) : r'.Owned := by
  obtain ⟨canonical, -, h⟩ := except_bind_ok.mp h
  obtain ⟨name, -, h⟩ := except_bind_ok.mp h
  obtain ⟨names, hnames, h⟩ := except_bind_ok.mp h
  split at h
  · simp [registryError] at h
  next hfresh =>
  split at h
  · simp [registryError] at h
  next hfree =>
  obtain ⟨rfl, rfl⟩ := Prod.mk.inj (except_pure_ok.mp h)
  have hself : canonical ∉ names := not_mem_normalizeAliases hnames List.not_mem_nil
  obtain ⟨hnew, hnoalias⟩ : r.identities.lookup canonical = none ∧ r.aliases.lookup canonical = none := by simpa using hfresh
  have hunused : ∀ aka ∈ names, r.identities.lookup aka = none ∧ r.aliases.lookup aka = none := by simpa using hfree
  have hkept {key : Str} {identity' : Identity} (hkey : r.identities.lookup key = some identity') : key ≠ canonical := by
    rintro rfl
    rw [hnew] at hkey
    cases hkey
  constructor
  · intro aka haka
    dsimp only at haka ⊢
    obtain ⟨identity', hlookup⟩ := Option.isSome_iff_exists.mp haka
    rw [lookup_foldl_aliases]
    rcases Table.lookup_insert_eq_some.mp hlookup with ⟨rfl, -⟩ | ⟨-, hold⟩
    · rw [if_neg hself, hnoalias]
    · have hnot : aka ∉ names := fun hmem => by
        rw [(hunused aka hmem).1] at hold
        cases hold
      rw [if_neg hnot]
      exact hr.disjoint aka (by rw [hold]; rfl)
  · intro aka target haka
    dsimp only at haka ⊢
    rw [lookup_foldl_aliases] at haka
    split at haka
    · next hmem =>
      cases haka
      exact ⟨_, AList.lookup_insert _, hmem⟩
    · obtain ⟨identity', hlookup, hmem⟩ := hr.aliases aka target haka
      exact ⟨identity', by rwa [AList.lookup_insert_ne (hkept hlookup)], hmem⟩
  · intro key identity' hkey
    dsimp only at hkey ⊢
    rcases Table.lookup_insert_eq_some.mp hkey with ⟨rfl, rfl⟩ | ⟨-, hold⟩
    · exact ⟨rfl, fun aka haka => by rw [lookup_foldl_aliases, if_pos haka]⟩
    · refine ⟨(hr.owner key identity' hold).1, fun aka haka => ?_⟩
      have howned := (hr.owner key identity' hold).2 aka haka
      have hnot : aka ∉ names := fun hmem => by
        rw [(hunused aka hmem).2] at howned
        cases howned
      rw [lookup_foldl_aliases, if_neg hnot, howned]
  · exact fun key node hkey => isSome_lookup_insert (hr.nodes key node hkey)
  · exact fun key endpoint hkey => isSome_lookup_insert (hr.endpoints key endpoint hkey)
  · exact hr.subscriptions
  · exact hr.distinct

/-- A name resolves to an identity, which resolves to itself. -/
theorem Owned.resolved (hr : r.Owned) {value : Value Opaque} {name : Str} (h : r.resolveIdentityId unicode value = .ok name) :
    (r.identities.lookup name).isSome := by
  obtain ⟨key, -, h⟩ := except_bind_ok.mp h
  split at h
  · next hkey =>
    cases except_pure_ok.mp h
    exact hkey
  · split at h
    · simp [registryError] at h
    · next hcanonical =>
      cases except_pure_ok.mp h
      obtain ⟨identity, hidentity, -⟩ := hr.aliases _ _ hcanonical
      rw [hidentity]
      rfl

theorem Owned.registerNode (hr : r.Owned) {nodeId identityId status lastHeartbeatMs leaseExpiresMs : Value Opaque} {node : Node}
    (h : r.registerNode unicode nodeId identityId status lastHeartbeatMs leaseExpiresMs = .ok (node, r')) : r'.Owned := by
  obtain ⟨canonicalNode, -, h⟩ := except_bind_ok.mp h
  obtain ⟨canonicalIdentity, hidentity, h⟩ := except_bind_ok.mp h
  obtain ⟨heartbeat, -, h⟩ := except_bind_ok.mp h
  obtain ⟨leaseExpires, -, h⟩ := except_bind_ok.mp h
  split at h
  · simp [registryError] at h
  split at h
  · simp [registryError] at h
  next hfresh =>
  obtain ⟨status, -, h⟩ := except_bind_ok.mp h
  obtain ⟨rfl, rfl⟩ := Prod.mk.inj (except_pure_ok.mp h)
  refine { hr with nodes := fun key node hkey => ?_, subscriptions := fun sub hsub => ?_ }
  · rcases Table.lookup_insert_eq_some.mp hkey with ⟨-, rfl⟩ | ⟨-, hold⟩
    · exact hr.resolved hidentity
    · exact hr.nodes key node hold
  · obtain ⟨node, hnode, hsame⟩ := hr.subscriptions sub hsub
    refine ⟨node, ?_, hsame⟩
    rwa [AList.lookup_insert_ne fun heq => hfresh (by rw [← heq, hnode]; rfl)]

theorem Owned.setNodeStatus (hr : r.Owned) (hsound : r.Sound unicode) {nodeId status : Value Opaque} {node : Node}
    (h : r.setNodeStatus unicode nodeId status = .ok (node, r')) : r'.Owned := by
  obtain ⟨current, hcurrent, h⟩ := except_bind_ok.mp h
  obtain ⟨status', -, h⟩ := except_bind_ok.mp h
  obtain ⟨rfl, rfl⟩ := Prod.mk.inj (except_pure_ok.mp h)
  obtain ⟨key, -, hlookup⟩ := node_ok hcurrent
  obtain ⟨rfl, -⟩ := hsound.nodes key current hlookup
  refine { hr with nodes := fun key node hkey => ?_, subscriptions := fun sub hsub => ?_ }
  · rcases Table.lookup_insert_eq_some.mp hkey with ⟨-, rfl⟩ | ⟨-, hold⟩
    · exact hr.nodes _ current hlookup
    · exact hr.nodes key node hold
  · obtain ⟨node, hnode, hsame⟩ := hr.subscriptions sub hsub
    by_cases hkey : sub.nodeId = current.nodeId
    · rw [hkey, hlookup, Option.some.injEq] at hnode
      refine ⟨{ current with status := status' }, ?_, hnode ▸ hsame⟩
      rw [hkey, AList.lookup_insert]
    · exact ⟨node, by rwa [AList.lookup_insert_ne hkey], hsame⟩

theorem Owned.registerEndpoint (hr : r.Owned) {endpointId identityId transport address : Value Opaque} {endpoint : Endpoint}
    (h : r.registerEndpoint unicode endpointId identityId transport address = .ok (endpoint, r')) : r'.Owned := by
  obtain ⟨canonicalEndpoint, -, h⟩ := except_bind_ok.mp h
  obtain ⟨canonicalIdentity, hidentity, h⟩ := except_bind_ok.mp h
  obtain ⟨transport', -, h⟩ := except_bind_ok.mp h
  obtain ⟨address', -, h⟩ := except_bind_ok.mp h
  split at h
  · simp [registryError] at h
  obtain ⟨rfl, rfl⟩ := Prod.mk.inj (except_pure_ok.mp h)
  refine { hr with endpoints := fun key endpoint hkey => ?_ }
  rcases Table.lookup_insert_eq_some.mp hkey with ⟨-, rfl⟩ | ⟨-, hold⟩
  · exact hr.resolved hidentity
  · exact hr.endpoints key endpoint hold

/-- The node that a target names is a node of the registry. -/
theorem resolveSubscriptionNode_ok (hsound : r.Sound unicode) {targetId : Value Opaque} {node : Node}
    (h : r.resolveSubscriptionNode unicode targetId = .ok node) : r.nodes.lookup node.nodeId = some node := by
  have hkeyed {key : Str} (hkey : r.nodes.lookup key = some node) : r.nodes.lookup node.nodeId = some node :=
    (hsound.nodes key node hkey).1 ▸ hkey
  obtain ⟨key, -, h⟩ := except_bind_ok.mp h
  split at h
  · next direct hdirect =>
    cases except_pure_ok.mp h
    exact hkeyed hdirect
  · obtain ⟨canonical, -, h⟩ := except_bind_ok.mp h
    obtain ⟨nodes, hnodes, h⟩ := except_bind_ok.mp h
    split at h
    · cases except_pure_ok.mp h
      obtain ⟨owner, -, hnodes⟩ := except_bind_ok.mp hnodes
      have hmem : node ∈ sortNodes (r.allNodes.filter (·.identityId = owner)) := by
        rw [except_pure_ok.mp hnodes]
        exact List.mem_singleton.mpr rfl
      obtain ⟨key, hkey⟩ := mem_allNodes.mp (List.mem_filter.mp (mem_sortNodes.mp hmem)).1
      exact hkeyed hkey
    · simp [registryError] at h

theorem Owned.subscribe (hr : r.Owned) (hsound : r.Sound unicode) {nodeId domain intent minPriority enabled : Value Opaque}
    {sub : Subscription} (h : r.subscribe unicode nodeId domain intent minPriority enabled = .ok (sub, r')) : r'.Owned := by
  obtain ⟨domain', -, h⟩ := except_bind_ok.mp h
  obtain ⟨priority, -, h⟩ := except_bind_ok.mp h
  split at h
  · obtain ⟨intent', -, h⟩ := except_bind_ok.mp h
    obtain ⟨node, hnode, h⟩ := except_bind_ok.mp h
    obtain ⟨rfl, hafter⟩ := Prod.mk.inj (except_pure_ok.mp h)
    split at hafter
    · exact hafter ▸ hr
    · next hnew =>
      subst hafter
      refine { hr with subscriptions := fun sub hsub => ?_, distinct := ?_ }
      · rcases List.mem_append.mp hsub with hold | hadded
        · exact hr.subscriptions sub hold
        · obtain rfl := List.mem_singleton.mp hadded
          exact ⟨node, resolveSubscriptionNode_ok hsound hnode, rfl⟩
      · exact List.nodup_append.mpr ⟨hr.distinct, List.nodup_singleton _, fun a ha b hb heq => hnew (by simp_all)⟩
  · simp [registryError] at h

/-- Every call that returns keeps the ownership of names. -/
theorem Owned.run (hr : r.Owned) (hsound : r.Sound unicode) {call : RegistryCall Opaque} (hrun : call.run unicode r = .ok r') :
    r'.Owned := by
  cases call with
  | registerIdentity identityId displayName aliases =>
    obtain ⟨⟨a, b⟩, hcall, rfl⟩ := except_map_ok.mp hrun
    exact hr.registerIdentity hcall
  | registerNode nodeId identityId status lastHeartbeatMs leaseExpiresMs =>
    obtain ⟨⟨a, b⟩, hcall, rfl⟩ := except_map_ok.mp hrun
    exact hr.registerNode hcall
  | setNodeStatus nodeId status =>
    obtain ⟨⟨a, b⟩, hcall, rfl⟩ := except_map_ok.mp hrun
    exact hr.setNodeStatus hsound hcall
  | registerEndpoint endpointId identityId transport address =>
    obtain ⟨⟨a, b⟩, hcall, rfl⟩ := except_map_ok.mp hrun
    exact hr.registerEndpoint hcall
  | subscribe nodeId domain intent minPriority enabled =>
    obtain ⟨⟨a, b⟩, hcall, rfl⟩ := except_map_ok.mp hrun
    exact hr.subscribe hsound hcall

end IdentityRegistry

section Reached

variable {unicode : Casefold}

/-- What an operation keeps: the registry stays sound, and its names owned. -/
theorem Operation.after_owned (op : Operation Opaque) {r : IdentityRegistry} (hsound : r.Sound unicode) (hr : r.Owned) :
    (op.after unicode r).Sound unicode ∧ (op.after unicode r).Owned := by
  rcases op.after_cases unicode r with hrun | hsame
  · have hafter : op.call.after unicode r = op.after unicode r := by
      rw [RegistryCall.after, hrun]
    exact ⟨hafter ▸ hsound.after op.call, hr.run hsound hrun⟩
  · rw [hsame]
    exact ⟨hsound, hr⟩

/-- A registry that operations built is sound, and its names are owned. -/
theorem registryAfter_owned (unicode : Casefold) (ops : List (Operation Opaque)) :
    (registryAfter unicode ops).Sound unicode ∧ (registryAfter unicode ops).Owned := by
  unfold registryAfter
  induction ops using List.reverseRecOn with
  | nil => exact ⟨IdentityRegistry.empty_sound unicode, IdentityRegistry.empty_owned⟩
  | append_singleton ops op ih =>
    rw [List.foldl_append]
    exact op.after_owned ih.1 ih.2

/-- **Ownership in the registry.** In a registry that any operations built, every name has
one owner; what a name resolves to resolves to itself; and an operation that raises leaves
the registry as it is. -/
theorem registry_owned (unicode : Casefold) (ops : List (Operation Opaque)) :
    (registryAfter unicode ops).Owned ∧
      (∀ (value : Value Opaque) (name : Str), (registryAfter unicode ops).resolveIdentityId unicode value = .ok name →
        (registryAfter unicode ops).resolveIdentityId unicode (.str name : Value Opaque) = .ok name) ∧
      ∀ (op : Operation Opaque) (e : Raised) (r' : IdentityRegistry),
        (op.perform unicode).run (registryAfter unicode ops) = .error e r' → r' = registryAfter unicode ops := by
  obtain ⟨hsound, howned⟩ := registryAfter_owned unicode ops
  exact ⟨howned, fun value name h => resolveIdentityId_resolved hsound (howned.resolved h),
    fun op e r' h => op.perform_atomic unicode _ e r' h⟩

end Reached

end CcbCore.Radar
