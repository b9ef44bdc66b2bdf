import CcbCore.Library.Raising
import CcbCore.Library.Table
import CcbCore.Radar.Envelope

/-!
# The registry of identities

`IdentityRegistry` of `src/radar/registry.py`: identities with their aliases, the nodes of
an identity with their leases, endpoints, and the subscriptions of nodes. A method returns
a value and the registry after it, or raises and changes nothing, as it makes its checks
before its first assignment. A registry is `Sound` when its names are in normal form and
its aliases and nodes belong to identities it knows; every method keeps that.
-/

namespace CcbCore.Radar

open CcbCore.CodePoints CcbCore.Raising

variable {Opaque : Type}

inductive NodeStatus where
  | online
  | idle
  | working
  | waitingDependency
  | degraded
  | offline
  | paused
  | archived
  deriving DecidableEq, Repr

/-- The value of a status. -/
def NodeStatus.text : NodeStatus → String
  | .online => "ONLINE"
  | .idle => "IDLE"
  | .working => "WORKING"
  | .waitingDependency => "WAITING_DEPENDENCY"
  | .degraded => "DEGRADED"
  | .offline => "OFFLINE"
  | .paused => "PAUSED"
  | .archived => "ARCHIVED"

/-- `ROUTABLE_NODE_STATUSES`. -/
def NodeStatus.routable : NodeStatus → Bool
  | .online | .idle | .working | .waitingDependency | .degraded => true
  | .offline | .paused | .archived => false

structure Identity where
  identityId : Str
  displayName : Str
  aliases : List Str

structure Node where
  nodeId : Str
  identityId : Str
  status : NodeStatus
  lastHeartbeatMs : Option ℤ
  leaseExpiresMs : Option ℤ

structure Endpoint where
  endpointId : Str
  identityId : Str
  transport : Str
  address : Str

structure Subscription where
  nodeId : Str
  identityId : Str
  domain : Str
  intent : Option Str
  minPriority : ℤ
  enabled : Bool
  deriving DecidableEq

structure IdentityRegistry where
  identities : Table Str Identity
  aliases : Table Str Str
  nodes : Table Str Node
  endpoints : Table Str Endpoint
  subscriptions : List Subscription

/-- A registry without entries. -/
def IdentityRegistry.empty : IdentityRegistry := ⟨∅, ∅, ∅, ∅, []⟩

/-! ### Arguments -/

/-- `raise RegistryError(code)`. -/
def registryError {α : Type} (code : String) : Except Raised α := .error (.registryError code)

/-- `normalize_identifier`. -/
def normalizeIdentifier (unicode : Casefold) : Value Opaque → Except Raised Str
  | .str text => if isBlank text = true then registryError "INVALID_IDENTIFIER" else .ok (unicode.casefold (strip text))
  | _ => registryError "INVALID_IDENTIFIER"

/-- `_priority_value`. -/
def priorityValue : Value Opaque → Except Raised ℤ
  | .int n => if 0 ≤ n ∧ n ≤ 4 then .ok n else registryError "INVALID_PRIORITY"
  | _ => registryError "INVALID_PRIORITY"

/-- `_subscription_domain`. -/
def subscriptionDomain (unicode : Casefold) (value : Value Opaque) : Except Raised Str :=
  match text? value with
  | none => registryError "DOMAIN_REQUIRED"
  | some text =>
    if unicode.casefold text ∈ allowedDomains then .ok (unicode.casefold text) else registryError "UNKNOWN_DOMAIN"

/-- `_subscription_intent`. -/
def subscriptionIntent (unicode : Casefold) : Value Opaque → Except Raised (Option Str)
  | .null => .ok none
  | value =>
    match text? value with
    | none => registryError "INTENT_REQUIRED"
    | some text =>
      if unicode.casefold text ∈ allowedIntents then .ok (some (unicode.casefold text)) else registryError "UNKNOWN_INTENT"

/-- `_millisecond_value(value)`. -/
def millisecondValue : Value Opaque → Except Raised ℤ
  | .int n => if n < 0 then registryError "INVALID_NODE_LEASE_TIME" else .ok n
  | _ => registryError "INVALID_NODE_LEASE_TIME"

/-- `_millisecond_value(value, allow_none=True)`. -/
def millisecondValue? : Value Opaque → Except Raised (Option ℤ)
  | .null => .ok none
  | value => some <$> millisecondValue value

/-- A text that is required, stripped. -/
def requireText (value : Value Opaque) (code : String) : Except Raised Str :=
  match text? value with
  | none => registryError code
  | some text => .ok text

/-- `NodeStatus(status)`, of a text or a status. -/
def nodeStatusValue : Value Opaque → Except Raised NodeStatus
  | .str text =>
    match [NodeStatus.online, .idle, .working, .waitingDependency, .degraded, .offline, .paused, .archived].find?
        fun status => lit status.text = text with
    | none => registryError "INVALID_NODE_STATUS"
    | some status => .ok status
  | _ => registryError "INVALID_NODE_STATUS"

/-- The normal forms of an identity's aliases. -/
def normalizeAliases (unicode : Casefold) (canonical : Str) : List Str → List (Value Opaque) → Except Raised (List Str)
  | aliases, [] => .ok aliases
  | aliases, value :: rest => do
    let normalized ← normalizeIdentifier unicode value
    if normalized = canonical ∨ normalized ∈ aliases then registryError "ALIAS_COLLISION"
    else normalizeAliases unicode canonical (aliases ++ [normalized]) rest

namespace IdentityRegistry

variable (unicode : Casefold) (r : IdentityRegistry)

/-! ### Identities and nodes -/

/-- `register_identity`. -/
def registerIdentity (identityId displayName : Value Opaque) (aliases : List (Value Opaque)) :
    Except Raised (Identity × IdentityRegistry) := do
  let canonical ← normalizeIdentifier unicode identityId
  let name ← requireText displayName "DISPLAY_NAME_REQUIRED"
  let normalized ← normalizeAliases unicode canonical [] aliases
  if (r.identities.lookup canonical).isSome ∨ (r.aliases.lookup canonical).isSome then registryError "IDENTITY_COLLISION"
  else if normalized.any (fun name => (r.identities.lookup name).isSome || (r.aliases.lookup name).isSome) then
    registryError "ALIAS_COLLISION"
  else
    let identity : Identity := ⟨canonical, name, normalized⟩
    return (identity, { r with
      identities := r.identities.insert canonical identity
      aliases := normalized.foldl (fun table name => table.insert name canonical) r.aliases })

/-- `resolve_identity_id`. -/
def resolveIdentityId (value : Value Opaque) : Except Raised Str := do
  let key ← normalizeIdentifier unicode value
  if (r.identities.lookup key).isSome then return key
  else
    match r.aliases.lookup key with
    | none => registryError "UNKNOWN_IDENTITY"
    | some canonical => return canonical

/-- `register_node`. -/
def registerNode (nodeId identityId status lastHeartbeatMs leaseExpiresMs : Value Opaque) :
    Except Raised (Node × IdentityRegistry) := do
  let canonicalNode ← normalizeIdentifier unicode nodeId
  let canonicalIdentity ← r.resolveIdentityId unicode identityId
  let heartbeat ← millisecondValue? lastHeartbeatMs
  let leaseExpires ← millisecondValue? leaseExpiresMs
  if ∃ beat ∈ heartbeat, ∃ expires ∈ leaseExpires, expires < beat then registryError "INVALID_NODE_LEASE_TIME"
  else if (r.nodes.lookup canonicalNode).isSome then registryError "NODE_COLLISION"
  else do
    let status ← nodeStatusValue status
    let node : Node := ⟨canonicalNode, canonicalIdentity, status, heartbeat, leaseExpires⟩
    return (node, { r with nodes := r.nodes.insert canonicalNode node })

/-- `node`. -/
def node (nodeId : Value Opaque) : Except Raised Node := do
  let key ← normalizeIdentifier unicode nodeId
  match r.nodes.lookup key with
  | none => registryError "UNKNOWN_NODE"
  | some node => return node

/-- Some nodes in the order of their ids. -/
def sortNodes (nodes : List Node) : List Node := nodes.insertionSort fun a b => le a.nodeId b.nodeId = true

/-- `self._nodes.values()`. -/
def allNodes : List Node := r.nodes.entries.map (·.2)

/-- `nodes_for_identity`. -/
def nodesForIdentity (identityId : Value Opaque) : Except Raised (List Node) := do
  let canonical ← r.resolveIdentityId unicode identityId
  return sortNodes (r.allNodes.filter (·.identityId = canonical))

/-- A node with a status and a lease to be routed to. -/
def routableAt (now : ℤ) (node : Node) : Bool :=
  node.status.routable &&
    match node.lastHeartbeatMs, node.leaseExpiresMs with
    | some beat, some expires => beat ≤ now ∧ now < expires
    | _, _ => false

/-- `node_is_routable`. -/
def nodeIsRoutable (nodeId nowMs : Value Opaque) : Except Raised Bool := do
  let now ← millisecondValue nowMs
  let node ← r.node unicode nodeId
  return routableAt now node

/-- `set_node_status`. -/
def setNodeStatus (nodeId status : Value Opaque) : Except Raised (Node × IdentityRegistry) := do
  let current ← r.node unicode nodeId
  let status ← nodeStatusValue status
  let updated := { current with status }
  return (updated, { r with nodes := r.nodes.insert current.nodeId updated })

/-- `register_endpoint`. -/
def registerEndpoint (endpointId identityId transport address : Value Opaque) :
    Except Raised (Endpoint × IdentityRegistry) := do
  let canonicalEndpoint ← normalizeIdentifier unicode endpointId
  let canonicalIdentity ← r.resolveIdentityId unicode identityId
  let transport ← requireText transport "TRANSPORT_REQUIRED"
  let address ← requireText address "ADDRESS_REQUIRED"
  if (r.endpoints.lookup canonicalEndpoint).isSome then registryError "ENDPOINT_COLLISION"
  else
    let endpoint : Endpoint := ⟨canonicalEndpoint, canonicalIdentity, unicode.casefold transport, address⟩
    return (endpoint, { r with endpoints := r.endpoints.insert canonicalEndpoint endpoint })

/-! ### Subscriptions -/

/-- `_resolve_subscription_node`. -/
def resolveSubscriptionNode (targetId : Value Opaque) : Except Raised Node := do
  let key ← normalizeIdentifier unicode targetId
  match r.nodes.lookup key with
  | some direct => return direct
  | none =>
    let canonicalIdentity ← r.resolveIdentityId unicode targetId
    match ← r.nodesForIdentity unicode (.str canonicalIdentity : Value Opaque) with
    | [node] => return node
    | _ => registryError "AMBIGUOUS_SUBSCRIPTION_TARGET"

/-- `subscribe`. -/
def subscribe (nodeId domain intent minPriority enabled : Value Opaque) :
    Except Raised (Subscription × IdentityRegistry) := do
  let domain ← subscriptionDomain unicode domain
  let priority ← priorityValue minPriority
  match enabled with
  | .bool enabled =>
    let intent ← subscriptionIntent unicode intent
    let node ← r.resolveSubscriptionNode unicode nodeId
    let sub : Subscription := ⟨node.nodeId, node.identityId, domain, intent, priority, enabled⟩
    return (sub, if sub ∈ r.subscriptions then r else { r with subscriptions := r.subscriptions ++ [sub] })
  | _ => registryError "INVALID_SUBSCRIPTION_ENABLED"

/-- `subscriptions_for_domain`. -/
def subscriptionsForDomain (domain priority intent : Value Opaque) : Except Raised (List Subscription) := do
  let key ← subscriptionDomain unicode domain
  let priority ← priorityValue priority
  let intent ← subscriptionIntent unicode intent
  return r.subscriptions.filter fun sub =>
    sub.enabled && sub.domain = key && priority ≤ sub.minPriority &&
      (intent.isNone || sub.intent.isNone || sub.intent = intent)

/-- `node_is_subscribed`. -/
def nodeIsSubscribed (nodeId domain intent priority : Value Opaque) : Except Raised Bool := do
  let node ← r.node unicode nodeId
  let subscriptions ← r.subscriptionsForDomain unicode domain priority intent
  return subscriptions.any (·.nodeId = node.nodeId)

/-- A node is routable, and subscribed. -/
def isRecipient (domain intent priority nowMs : Value Opaque) (candidate : Node) : Except Raised Bool := do
  let routable ← r.nodeIsRoutable unicode (.str candidate.nodeId : Value Opaque) nowMs
  if routable = true then r.nodeIsSubscribed unicode (.str candidate.nodeId) domain intent priority else return false

/-- The ids of those nodes that are recipients. -/
def recipientsAmong (domain intent priority nowMs : Value Opaque) : List Node → Except Raised (List Str)
  | [] => .ok []
  | candidate :: rest => do
    let taken ← r.isRecipient unicode domain intent priority nowMs candidate
    let recipients ← recipientsAmong domain intent priority nowMs rest
    return if taken = true then candidate.nodeId :: recipients else recipients

/-- The canonical ids of some identities. -/
def resolveAll : List Str → Except Raised (List Str)
  | [] => .ok []
  | identityId :: rest => do
    let canonical ← r.resolveIdentityId unicode (.str identityId : Value Empty)
    let others ← resolveAll rest
    return canonical :: others

/-- `routable_subscriber_node_ids`. -/
def routableSubscriberNodeIds (domain intent priority nowMs : Value Opaque) (identityIds : Option (List Str)) :
    Except Raised (List Str) := do
  let _ ← millisecondValue nowMs
  match identityIds with
  | none => r.recipientsAmong unicode domain intent priority nowMs (sortNodes r.allNodes)
  | some ids =>
    let canonical ← resolveAll unicode r ids
    r.recipientsAmong unicode domain intent priority nowMs
      (canonical.eraseDups.flatMap fun identityId => sortNodes (r.allNodes.filter (·.identityId = identityId)))

end IdentityRegistry

/-- A call of a method that may change the registry. -/
inductive RegistryCall (Opaque : Type) where
  | registerIdentity (identityId displayName : Value Opaque) (aliases : List (Value Opaque))
  | registerNode (nodeId identityId status lastHeartbeatMs leaseExpiresMs : Value Opaque)
  | setNodeStatus (nodeId status : Value Opaque)
  | registerEndpoint (endpointId identityId transport address : Value Opaque)
  | subscribe (nodeId domain intent minPriority enabled : Value Opaque)

/-- The registry that a call returns. -/
def RegistryCall.run (unicode : Casefold) (r : IdentityRegistry) : RegistryCall Opaque → Except Raised IdentityRegistry
  | .registerIdentity identityId displayName aliases =>
    Prod.snd <$> r.registerIdentity unicode identityId displayName aliases
  | .registerNode nodeId identityId status lastHeartbeatMs leaseExpiresMs =>
    Prod.snd <$> r.registerNode unicode nodeId identityId status lastHeartbeatMs leaseExpiresMs
  | .setNodeStatus nodeId status => Prod.snd <$> r.setNodeStatus unicode nodeId status
  | .registerEndpoint endpointId identityId transport address =>
    Prod.snd <$> r.registerEndpoint unicode endpointId identityId transport address
  | .subscribe nodeId domain intent minPriority enabled =>
    Prod.snd <$> r.subscribe unicode nodeId domain intent minPriority enabled

/-- The registry after a call. -/
def RegistryCall.after (unicode : Casefold) (r : IdentityRegistry) (call : RegistryCall Opaque) : IdentityRegistry :=
  match call.run unicode r with
  | .ok r' => r'
  | .error _ => r

/-! ### Soundness -/

/-- A name that `normalize_identifier` leaves as it is. -/
structure Normal (unicode : Casefold) (name : Str) : Prop where
  notBlank : isBlank name = false
  stripped : strip name = name
  folded : unicode.casefold name = name

/-- What the lookups of a registry rest on. -/
structure IdentityRegistry.Sound (unicode : Casefold) (r : IdentityRegistry) : Prop where
  identities : ∀ key identity, r.identities.lookup key = some identity → Normal unicode key
  aliases : ∀ name canonical, r.aliases.lookup name = some canonical → (r.identities.lookup canonical).isSome
  nodes : ∀ key node, r.nodes.lookup key = some node → node.nodeId = key ∧ Normal unicode key

section Sound

variable {unicode : Casefold} {r r' : IdentityRegistry} {name : Str} {value : Value Opaque}

theorem normalizeIdentifier_normal (h : Normal unicode name) :
    normalizeIdentifier unicode (.str name : Value Opaque) = .ok name := by
  simp [normalizeIdentifier, h.notBlank, h.stripped, h.folded]

theorem normal_of_normalizeIdentifier (h : normalizeIdentifier unicode value = .ok name) : Normal unicode name := by
  cases value with
  | str text =>
    cases hblank : isBlank text with
    | true => simp [normalizeIdentifier, hblank, registryError] at h
    | false =>
      simp only [normalizeIdentifier, hblank, Bool.false_eq_true, if_false, Except.ok.injEq] at h
      subst h
      exact ⟨by rw [isBlank_casefold, isBlank_strip, hblank], by rw [strip_casefold, strip_strip], casefold_casefold⟩
  | _ => simp [normalizeIdentifier, registryError] at h

theorem resolved_of_resolveIdentityId (hr : r.Sound unicode) (h : r.resolveIdentityId unicode value = .ok name) :
    (r.identities.lookup name).isSome := by
  obtain ⟨key, -, h⟩ := except_bind_ok.mp h
  split at h
  · next hkey =>
    cases except_pure_ok.mp h
    exact hkey
  · split at h
    · simp [registryError] at h
    · next hcanonical =>
      cases except_pure_ok.mp h
      exact hr.aliases _ _ hcanonical

/-- A name that was resolved resolves to itself. -/
theorem resolveIdentityId_resolved (hr : r.Sound unicode) (h : (r.identities.lookup name).isSome) :
    r.resolveIdentityId unicode (.str name : Value Opaque) = .ok name := by
  obtain ⟨identity, hidentity⟩ := Option.isSome_iff_exists.mp h
  refine except_bind_ok.mpr ⟨name, normalizeIdentifier_normal (hr.identities name identity hidentity), ?_⟩
  simp [h]

theorem isSome_lookup_insert {table : Table Str Identity} {key key' : Str} {identity : Identity}
    (h : (table.lookup key').isSome) : ((table.insert key identity).lookup key').isSome := by
  by_cases hkey : key' = key
  · subst hkey
    simp [AList.lookup_insert]
  · rwa [AList.lookup_insert_ne hkey]

theorem lookup_foldl_insert {table : Table Str Str} {names : List Str} {canonical target : Str}
    (h : (names.foldl (fun table name => table.insert name canonical) table).lookup name = some target) :
    table.lookup name = some target ∨ target = canonical := by
  induction names generalizing table with
  | nil => exact .inl h
  | cons first names ih =>
    rcases ih h with h | h
    · rcases Table.lookup_insert_eq_some.mp h with ⟨-, rfl⟩ | ⟨-, h⟩
      · exact .inr rfl
      · exact .inl h
    · exact .inr h

theorem IdentityRegistry.Sound.registerIdentity {identityId displayName : Value Opaque} {aliases : List (Value Opaque)}
    (hr : r.Sound unicode) {identity : Identity}
    (h : r.registerIdentity unicode identityId displayName aliases = .ok (identity, r')) : r'.Sound unicode := by
  obtain ⟨canonical, hcanonical, h⟩ := except_bind_ok.mp h
  obtain ⟨name, -, h⟩ := except_bind_ok.mp h
  obtain ⟨normalized, -, h⟩ := except_bind_ok.mp h
  split at h
  · simp [registryError] at h
  split at h
  · simp [registryError] at h
  obtain ⟨rfl, rfl⟩ := Prod.mk.inj (except_pure_ok.mp h)
  refine ⟨fun key identity' hkey => ?_, fun aka target haka => ?_, hr.nodes⟩
  · rcases Table.lookup_insert_eq_some.mp hkey with ⟨rfl, -⟩ | ⟨-, hkey⟩
    · exact normal_of_normalizeIdentifier hcanonical
    · exact hr.identities key identity' hkey
  · rcases lookup_foldl_insert haka with haka | rfl
    · exact isSome_lookup_insert (hr.aliases aka target haka)
    · simp [AList.lookup_insert]

theorem IdentityRegistry.Sound.insertNode (hr : r.Sound unicode) {key : Str} {node : Node} (hkey : Normal unicode key)
    (hnode : node.nodeId = key) : IdentityRegistry.Sound unicode { r with nodes := r.nodes.insert key node } := by
  refine ⟨hr.identities, hr.aliases, fun key' node' h => ?_⟩
  rcases Table.lookup_insert_eq_some.mp h with ⟨rfl, rfl⟩ | ⟨-, h⟩
  · exact ⟨hnode, hkey⟩
  · exact hr.nodes key' node' h

theorem IdentityRegistry.Sound.registerNode {nodeId identityId status lastHeartbeatMs leaseExpiresMs : Value Opaque}
    (hr : r.Sound unicode) {node : Node}
    (h : r.registerNode unicode nodeId identityId status lastHeartbeatMs leaseExpiresMs = .ok (node, r')) :
    r'.Sound unicode := by
  obtain ⟨canonicalNode, hcanonical, h⟩ := except_bind_ok.mp h
  obtain ⟨canonicalIdentity, -, h⟩ := except_bind_ok.mp h
  obtain ⟨heartbeat, -, h⟩ := except_bind_ok.mp h
  obtain ⟨leaseExpires, -, h⟩ := except_bind_ok.mp h
  split at h
  · simp [registryError] at h
  split at h
  · simp [registryError] at h
  obtain ⟨status, -, h⟩ := except_bind_ok.mp h
  obtain ⟨rfl, rfl⟩ := Prod.mk.inj (except_pure_ok.mp h)
  exact hr.insertNode (normal_of_normalizeIdentifier hcanonical) rfl

theorem node_ok {nodeId : Value Opaque} {node : Node} (h : r.node unicode nodeId = .ok node) :
    ∃ key, normalizeIdentifier unicode nodeId = .ok key ∧ r.nodes.lookup key = some node := by
  obtain ⟨key, hkey, h⟩ := except_bind_ok.mp h
  split at h
  · simp [registryError] at h
  · next hnode =>
    cases except_pure_ok.mp h
    exact ⟨key, hkey, hnode⟩

theorem IdentityRegistry.Sound.setNodeStatus {nodeId status : Value Opaque} (hr : r.Sound unicode) {node : Node}
    (h : r.setNodeStatus unicode nodeId status = .ok (node, r')) : r'.Sound unicode := by
  obtain ⟨current, hcurrent, h⟩ := except_bind_ok.mp h
  obtain ⟨status', -, h⟩ := except_bind_ok.mp h
  obtain ⟨rfl, rfl⟩ := Prod.mk.inj (except_pure_ok.mp h)
  obtain ⟨key, -, hlookup⟩ := node_ok hcurrent
  obtain ⟨hid, hnormal⟩ := hr.nodes key current hlookup
  exact hr.insertNode (hid ▸ hnormal) rfl

theorem IdentityRegistry.Sound.registerEndpoint {endpointId identityId transport address : Value Opaque} (hr : r.Sound unicode)
    {endpoint : Endpoint} (h : r.registerEndpoint unicode endpointId identityId transport address = .ok (endpoint, r')) :
    r'.Sound unicode := by
  obtain ⟨canonicalEndpoint, -, h⟩ := except_bind_ok.mp h
  obtain ⟨canonicalIdentity, -, h⟩ := except_bind_ok.mp h
  obtain ⟨transport', -, h⟩ := except_bind_ok.mp h
  obtain ⟨address', -, h⟩ := except_bind_ok.mp h
  split at h
  · simp [registryError] at h
  obtain ⟨rfl, rfl⟩ := Prod.mk.inj (except_pure_ok.mp h)
  exact ⟨hr.identities, hr.aliases, hr.nodes⟩

theorem IdentityRegistry.Sound.subscribe {nodeId domain intent minPriority enabled : Value Opaque} (hr : r.Sound unicode)
    {sub : Subscription} (h : r.subscribe unicode nodeId domain intent minPriority enabled = .ok (sub, r')) :
    r'.Sound unicode := by
  obtain ⟨domain', -, h⟩ := except_bind_ok.mp h
  obtain ⟨priority, -, h⟩ := except_bind_ok.mp h
  split at h
  · obtain ⟨intent', -, h⟩ := except_bind_ok.mp h
    obtain ⟨node, -, h⟩ := except_bind_ok.mp h
    obtain ⟨rfl, hafter⟩ := Prod.mk.inj (except_pure_ok.mp h)
    split at hafter
    · exact hafter ▸ hr
    · subst hafter
      exact ⟨hr.identities, hr.aliases, hr.nodes⟩
  · simp [registryError] at h

/-- Every call keeps a registry sound. -/
theorem IdentityRegistry.Sound.after (hr : r.Sound unicode) (call : RegistryCall Opaque) : (call.after unicode r).Sound unicode := by
  unfold RegistryCall.after
  cases hrun : call.run unicode r with
  | error e => exact hr
  | ok r' =>
    cases call with
    | registerIdentity identityId displayName aliases =>
      obtain ⟨⟨a, b⟩, hcall, rfl⟩ := except_map_ok.mp hrun
      exact hr.registerIdentity hcall
    | registerNode nodeId identityId status lastHeartbeatMs leaseExpiresMs =>
      obtain ⟨⟨a, b⟩, hcall, rfl⟩ := except_map_ok.mp hrun
      exact hr.registerNode hcall
    | setNodeStatus nodeId status =>
      obtain ⟨⟨a, b⟩, hcall, rfl⟩ := except_map_ok.mp hrun
      exact hr.setNodeStatus hcall
    | registerEndpoint endpointId identityId transport address =>
      obtain ⟨⟨a, b⟩, hcall, rfl⟩ := except_map_ok.mp hrun
      exact hr.registerEndpoint hcall
    | subscribe nodeId domain intent minPriority enabled =>
      obtain ⟨⟨a, b⟩, hcall, rfl⟩ := except_map_ok.mp hrun
      exact hr.subscribe hcall

/-! ### Reading -/

theorem mem_allNodes {node : Node} : node ∈ r.allNodes ↔ ∃ key, r.nodes.lookup key = some node := by
  simp only [IdentityRegistry.allNodes, List.mem_map, Sigma.exists, Table.mem_entries_iff, exists_eq_right]

theorem mem_sortNodes {node : Node} {nodes : List Node} : node ∈ IdentityRegistry.sortNodes nodes ↔ node ∈ nodes := by
  simp only [IdentityRegistry.sortNodes, List.mem_insertionSort]

theorem node_of_mem (hr : r.Sound unicode) {node : Node} (h : node ∈ r.allNodes) :
    r.node unicode (.str node.nodeId : Value Opaque) = .ok node := by
  obtain ⟨key, hkey⟩ := mem_allNodes.mp h
  obtain ⟨hid, hnormal⟩ := hr.nodes key node hkey
  refine except_bind_ok.mpr ⟨key, by rw [hid, normalizeIdentifier_normal hnormal], ?_⟩
  rw [hkey]
  rfl

theorem text?_normal (h : Normal unicode name) : text? (.str name : Value Opaque) = some name := by
  simp [text?, h.notBlank, h.stripped]

/-- A name of lower-case ASCII without a space. -/
def isPlainName (name : Str) : Bool :=
  !isBlank name && strip name = name && name.all fun c => c.val < 0x80 && decide (lowerPoint c = c)

theorem normal_of_isPlainName (h : isPlainName name = true) : Normal unicode name := by
  simp only [isPlainName, Bool.and_eq_true, Bool.not_eq_true', decide_eq_true_eq] at h
  exact ⟨h.1.1, h.1.2, casefold_ascii h.2⟩

theorem normal_of_mem_allowedDomains (unicode : Casefold) (h : name ∈ allowedDomains) : Normal unicode name :=
  normal_of_isPlainName (List.all_eq_true.mp (by decide) name h)

theorem normal_of_mem_allowedIntents (unicode : Casefold) (h : name ∈ allowedIntents) : Normal unicode name :=
  normal_of_isPlainName (List.all_eq_true.mp (by decide) name h)

variable (Opaque) in
theorem subscriptionsForDomain_ok (unicode : Casefold) (r : IdentityRegistry) {domain intent : Str} {priority : ℤ} (hdomain : domain ∈ allowedDomains)
    (hintent : intent ∈ allowedIntents) (hpriority : 0 ≤ priority ∧ priority ≤ 4) :
    ∃ subs, r.subscriptionsForDomain unicode (.str domain : Value Opaque) (.int priority) (.str intent) = .ok subs := by
  have hd := normal_of_mem_allowedDomains unicode hdomain
  have hi := normal_of_mem_allowedIntents unicode hintent
  refine ⟨_, except_bind_ok.mpr ⟨domain, ?_, except_bind_ok.mpr ⟨priority, ?_, except_bind_ok.mpr ⟨some intent, ?_, rfl⟩⟩⟩⟩
  · simp [subscriptionDomain, text?_normal hd, hd.folded, hdomain]
  · simp [priorityValue, hpriority]
  · simp [subscriptionIntent, text?_normal hi, hi.folded, hintent]

variable (Opaque) in
theorem recipientsAmong_ok (hr : r.Sound unicode) {domain intent : Str} {priority nowMs : ℤ}
    (hdomain : domain ∈ allowedDomains) (hintent : intent ∈ allowedIntents) (hpriority : 0 ≤ priority ∧ priority ≤ 4)
    (hnow : 0 ≤ nowMs) (nodes : List Node) (hnodes : ∀ node ∈ nodes, node ∈ r.allNodes) :
    ∃ recipients, r.recipientsAmong unicode (.str domain : Value Opaque) (.str intent) (.int priority) (.int nowMs) nodes =
      .ok recipients := by
  induction nodes with
  | nil => exact ⟨[], rfl⟩
  | cons node nodes ih =>
    obtain ⟨recipients, hrecipients⟩ := ih fun n hn => hnodes n (List.mem_cons_of_mem node hn)
    have hnode : r.node unicode (.str node.nodeId : Value Opaque) = .ok node := node_of_mem hr (hnodes node (by simp))
    have hroutable : r.nodeIsRoutable unicode (.str node.nodeId : Value Opaque) (.int nowMs) =
        .ok (IdentityRegistry.routableAt nowMs node) :=
      except_bind_ok.mpr ⟨nowMs, by simp [millisecondValue, not_lt.mpr hnow], except_bind_ok.mpr ⟨node, hnode, rfl⟩⟩
    obtain ⟨subs, hsubs⟩ := subscriptionsForDomain_ok Opaque unicode r hdomain hintent hpriority
    have hsubscribed : r.nodeIsSubscribed unicode (.str node.nodeId : Value Opaque) (.str domain) (.str intent) (.int priority) =
        .ok (subs.any (·.nodeId = node.nodeId)) :=
      except_bind_ok.mpr ⟨node, hnode, except_bind_ok.mpr ⟨subs, hsubs, rfl⟩⟩
    have htaken : ∃ taken, r.isRecipient unicode (.str domain : Value Opaque) (.str intent) (.int priority) (.int nowMs) node =
        .ok taken := by
      cases hat : IdentityRegistry.routableAt nowMs node with
      | true => exact ⟨_, except_bind_ok.mpr ⟨true, hat ▸ hroutable, hsubscribed⟩⟩
      | false => exact ⟨false, except_bind_ok.mpr ⟨false, hat ▸ hroutable, rfl⟩⟩
    obtain ⟨taken, htaken⟩ := htaken
    exact ⟨_, except_bind_ok.mpr ⟨taken, htaken, except_bind_ok.mpr ⟨recipients, hrecipients, rfl⟩⟩⟩

theorem resolveAll_ok (hr : r.Sound unicode) {ids : List Str} (hids : ∀ id ∈ ids, (r.identities.lookup id).isSome) :
    IdentityRegistry.resolveAll unicode r ids = .ok ids := by
  induction ids with
  | nil => rfl
  | cons id ids ih =>
    exact except_bind_ok.mpr ⟨id, resolveIdentityId_resolved hr (hids id (by simp)),
      except_bind_ok.mpr ⟨ids, ih fun other hother => hids other (List.mem_cons_of_mem id hother), rfl⟩⟩

variable (Opaque) in
/-- A registry that is sound finds the nodes of every known domain and intent. -/
theorem routableSubscriberNodeIds_ok (hr : r.Sound unicode) {domain intent : Str} {priority nowMs : ℤ}
    (hdomain : domain ∈ allowedDomains) (hintent : intent ∈ allowedIntents) (hpriority : 0 ≤ priority ∧ priority ≤ 4)
    (hnow : 0 ≤ nowMs) {identityIds : Option (List Str)}
    (hids : ∀ ids ∈ identityIds, ∀ id ∈ ids, (r.identities.lookup id).isSome) :
    ∃ recipients, r.routableSubscriberNodeIds unicode (.str domain : Value Opaque) (.str intent) (.int priority)
      (.int nowMs) identityIds = .ok recipients := by
  have hnowValue : millisecondValue (.int nowMs : Value Opaque) = .ok nowMs := by
    simp [millisecondValue, not_lt.mpr hnow]
  cases identityIds with
  | none =>
    obtain ⟨recipients, hrecipients⟩ := recipientsAmong_ok Opaque hr hdomain hintent hpriority hnow
      (IdentityRegistry.sortNodes r.allNodes) fun node hnode => mem_sortNodes.mp hnode
    exact ⟨recipients, except_bind_ok.mpr ⟨nowMs, hnowValue, hrecipients⟩⟩
  | some ids =>
    obtain ⟨recipients, hrecipients⟩ := recipientsAmong_ok Opaque hr hdomain hintent hpriority hnow
      (ids.eraseDups.flatMap fun identityId =>
        IdentityRegistry.sortNodes (r.allNodes.filter (·.identityId = identityId))) (by
        intro node hnode
        obtain ⟨id, -, hnode⟩ := List.mem_flatMap.mp hnode
        exact (List.mem_filter.mp (mem_sortNodes.mp hnode)).1)
    exact ⟨recipients, except_bind_ok.mpr ⟨nowMs, hnowValue,
      except_bind_ok.mpr ⟨ids, resolveAll_ok hr (hids ids rfl), hrecipients⟩⟩⟩

end Sound

end CcbCore.Radar
