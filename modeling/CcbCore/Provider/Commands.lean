import CcbCore.Library.Raising
import CcbCore.Radar.Envelope

/-!
# Projection commands

`build_projection_commands` of `src/radar/supabase_projection.py`: the commands that bring a
provider's identities, endpoints and subscriptions up to a state. A command is its
operation with the parameters of its SQL, which `Provider.Subscriptions` runs.
-/

namespace CcbCore.Provider

open CcbCore.CodePoints CcbCore.Raising
open CcbCore.Radar (Interpreter Mapping Raised Value allowedDomains allowedIntents field get maxPriority minPriority
  defaultPriority text?)

variable {Opaque : Type}

/-! ### Commands -/

/-- The parameters of `UPSERT_IDENTITY`. -/
structure IdentityParameters where
  identityId : Str
  displayName : Str
  deriving DecidableEq

/-- The parameters of `UPSERT_ENDPOINT`. -/
structure EndpointParameters where
  endpointId : Str
  identityId : Str
  transport : Str
  address : Str
  status : Str
  deriving DecidableEq

/-- The parameters of `UPSERT_SUBSCRIPTION`. -/
structure SubscriptionParameters where
  identityId : Str
  domain : Str
  intent : Option Str
  minPriority : ℤ
  active : Bool
  deriving DecidableEq

/-- `ProjectionCommand`. -/
inductive ProjectionCommand where
  | upsertIdentity (parameters : IdentityParameters)
  | upsertEndpoint (parameters : EndpointParameters)
  | upsertSubscription (parameters : SubscriptionParameters)
  deriving DecidableEq

/-- The parameters of a command whose operation is `UPSERT_SUBSCRIPTION`. -/
def ProjectionCommand.subscription? : ProjectionCommand → Option SubscriptionParameters
  | .upsertSubscription parameters => some parameters
  | _ => none

/-! ### Checks -/

/-- `raise ProjectionError(code)`, which is a `ValueError`. -/
def projectionError {α : Type} (code : String) : Except Raised α := .error (.valueError code)

/-- `_collection`. -/
def collection (value : Value Opaque) (code : String) : Except Raised (List (Value Opaque)) :=
  match value with
  | .null => .ok []
  | .array items => .ok items
  | _ => projectionError code

/-- `_mapping`. -/
def mapping (value : Value Opaque) (code : String) : Except Raised (Mapping Opaque) :=
  match value with
  | .object fields => .ok fields
  | _ => projectionError code

/-- `_required_text`. -/
def requiredText (record : Mapping Opaque) (key code : String) : Except Raised Str :=
  match text? (get record key) with
  | none => projectionError code
  | some text => .ok text

/-- `_ALLOWED_ENDPOINT_STATUSES`. -/
def allowedEndpointStatuses : List Str := ["ACTIVE", "DEGRADED", "OFFLINE", "ARCHIVED"].map lit

/-- The `status` of an endpoint. -/
def endpointStatus (py : Interpreter Opaque) (record : Mapping Opaque) : Except Raised Str :=
  match text? ((field record "status").getD (.str (lit "ACTIVE"))) with
  | none => projectionError "INVALID_ENDPOINT_STATUS"
  | some text =>
    if py.upper text ∈ allowedEndpointStatuses then .ok (py.upper text) else projectionError "INVALID_ENDPOINT_STATUS"

/-- The `intent` of a subscription. -/
def subscriptionIntent (py : Interpreter Opaque) (record : Mapping Opaque) : Except Raised (Option Str) :=
  match get record "intent" with
  | .null => .ok none
  | value =>
    match text? value with
    | none => projectionError "INVALID_INTENT"
    | some text =>
      if py.unicode.casefold text ∈ allowedIntents then .ok (some (py.unicode.casefold text))
      else projectionError "UNKNOWN_INTENT"

/-- The `min_priority` of a subscription. -/
def subscriptionPriority (record : Mapping Opaque) : Except Raised ℤ :=
  match (field record "min_priority").getD (.int defaultPriority) with
  | .int priority =>
    if minPriority ≤ priority ∧ priority ≤ maxPriority then .ok priority else projectionError "INVALID_PRIORITY"
  | _ => projectionError "INVALID_PRIORITY"

/-- Whether a subscription is `active`. -/
def subscriptionActive (record : Mapping Opaque) : Except Raised Bool :=
  match (field record "active").getD (.bool true) with
  | .bool active => .ok active
  | _ => projectionError "INVALID_ACTIVE"

/-! ### Building -/

/-- The command for an identity. -/
def identityCommand (py : Interpreter Opaque) (raw : Value Opaque) : Except Raised ProjectionCommand := do
  let record ← mapping raw "IDENTITY_PROJECTION_MUST_BE_MAPPING"
  let identityId ← requiredText record "identity_id" "IDENTITY_ID_REQUIRED"
  let displayName ← requiredText record "display_name" "DISPLAY_NAME_REQUIRED"
  return .upsertIdentity { identityId := py.unicode.casefold identityId, displayName }

/-- The command for an endpoint. -/
def endpointCommand (py : Interpreter Opaque) (raw : Value Opaque) : Except Raised ProjectionCommand := do
  let record ← mapping raw "ENDPOINT_PROJECTION_MUST_BE_MAPPING"
  let endpointId ← requiredText record "endpoint_id" "ENDPOINT_ID_REQUIRED"
  let identityId ← requiredText record "identity_id" "IDENTITY_ID_REQUIRED"
  let transport ← requiredText record "transport" "TRANSPORT_REQUIRED"
  let address ← requiredText record "address" "ADDRESS_REQUIRED"
  let status ← endpointStatus py record
  return .upsertEndpoint {
    endpointId, identityId := py.unicode.casefold identityId, transport := py.unicode.casefold transport, address, status }

/-- The command for a subscription. -/
def subscriptionCommand (py : Interpreter Opaque) (raw : Value Opaque) : Except Raised ProjectionCommand := do
  let record ← mapping raw "SUBSCRIPTION_PROJECTION_MUST_BE_MAPPING"
  let identityId ← requiredText record "identity_id" "IDENTITY_ID_REQUIRED"
  let domain ← py.unicode.casefold <$> requiredText record "domain" "DOMAIN_REQUIRED"
  if domain ∉ allowedDomains then projectionError "UNKNOWN_DOMAIN"
  else
    let intent ← subscriptionIntent py record
    let minPriority ← subscriptionPriority record
    let active ← subscriptionActive record
    return .upsertSubscription { identityId := py.unicode.casefold identityId, domain, intent, minPriority, active }

/-- `build_projection_commands`. -/
def buildProjectionCommands (py : Interpreter Opaque) (state : Value Opaque) : Except Raised (List ProjectionCommand) := do
  let state ← mapping state "INVALID_STATE"
  let identities ← collection (get state "identities") "INVALID_IDENTITIES"
  let identityCommands ← identities.mapM (identityCommand py)
  let endpoints ← collection (get state "endpoints") "INVALID_ENDPOINTS"
  let endpointCommands ← endpoints.mapM (endpointCommand py)
  let subscriptions ← collection (get state "subscriptions") "INVALID_SUBSCRIPTIONS"
  let subscriptionCommands ← subscriptions.mapM (subscriptionCommand py)
  return identityCommands ++ endpointCommands ++ subscriptionCommands

/-! ### The commands on subscriptions -/

/-- The commands of a state on subscriptions. -/
def subscriptionsOf (commands : List ProjectionCommand) : List SubscriptionParameters :=
  commands.filterMap ProjectionCommand.subscription?

/-- A state names no subscription: it has none, `None`, or an empty list or tuple of them. -/
def namesNoSubscription : Value Opaque → Bool
  | .object fields =>
    match get fields "subscriptions" with
    | .null | .array [] => true
    | _ => false
  | _ => false

variable {py : Interpreter Opaque} {raw state : Value Opaque} {command : ProjectionCommand}
  {commands : List ProjectionCommand}

theorem subscription?_identityCommand (h : identityCommand py raw = .ok command) : command.subscription? = none := by
  simp only [identityCommand, except_bind_ok, except_pure_ok] at h
  obtain ⟨_, -, _, -, _, -, rfl⟩ := h
  rfl

theorem subscription?_endpointCommand (h : endpointCommand py raw = .ok command) : command.subscription? = none := by
  simp only [endpointCommand, except_bind_ok, except_pure_ok] at h
  obtain ⟨_, -, _, -, _, -, _, -, _, -, _, -, rfl⟩ := h
  rfl

theorem subscription?_subscriptionCommand (h : subscriptionCommand py raw = .ok command) :
    ∃ parameters, command.subscription? = some parameters := by
  simp only [subscriptionCommand, except_bind_ok] at h
  obtain ⟨_, -, _, -, domain, -, h⟩ := h
  split at h
  · cases h
  · simp only [except_bind_ok, except_pure_ok] at h
    obtain ⟨_, -, _, -, _, -, rfl⟩ := h
    exact ⟨_, rfl⟩

theorem subscriptionsOf_eq_nil {raws : List (Value Opaque)} {f : Value Opaque → Except Raised ProjectionCommand}
    (hf : ∀ {raw command}, f raw = .ok command → command.subscription? = none)
    (h : List.Forall₂ (fun raw command => f raw = .ok command) raws commands) : subscriptionsOf commands = [] := by
  induction h with
  | nil => rfl
  | cons hcommand _ ih => rw [subscriptionsOf, List.filterMap_cons, hf hcommand, ← subscriptionsOf, ih]

theorem length_subscriptionsOf {raws : List (Value Opaque)}
    (h : List.Forall₂ (fun raw command => subscriptionCommand py raw = .ok command) raws commands) :
    (subscriptionsOf commands).length = raws.length := by
  induction h with
  | nil => rfl
  | cons hcommand _ ih =>
    obtain ⟨parameters, hparameters⟩ := subscription?_subscriptionCommand hcommand
    rw [subscriptionsOf, List.filterMap_cons, hparameters, ← subscriptionsOf, List.length_cons, List.length_cons, ih]

/-- There is a command on a subscription unless the state names none. -/
theorem subscriptionsOf_eq_nil_iff (h : buildProjectionCommands py state = .ok commands) :
    subscriptionsOf commands = [] ↔ namesNoSubscription state = true := by
  simp only [buildProjectionCommands, except_bind_ok, except_pure_ok] at h
  obtain ⟨fields, hfields, identities, -, identityCommands, hidentities, endpoints, -, endpointCommands, hendpoints,
    subscriptions, hsubscriptions, subscriptionCommands, hcommands, rfl⟩ := h
  have hidentity := subscriptionsOf_eq_nil subscription?_identityCommand (forall₂_of_mapM_ok hidentities)
  have hendpoint := subscriptionsOf_eq_nil subscription?_endpointCommand (forall₂_of_mapM_ok hendpoints)
  have hlength := length_subscriptionsOf (forall₂_of_mapM_ok hcommands)
  have hnone : namesNoSubscription state = true ↔ subscriptions = [] := by
    cases state with
    | object fields' =>
      cases hfields
      cases hget : get fields "subscriptions" with
      | null =>
        rw [hget] at hsubscriptions
        cases hsubscriptions
        simp [namesNoSubscription, hget]
      | array items =>
        rw [hget] at hsubscriptions
        cases hsubscriptions
        cases subscriptions <;> simp [namesNoSubscription, hget]
      | _ => simp [hget, collection, projectionError] at hsubscriptions
    | _ => cases hfields
  rw [hnone, ← List.length_eq_zero_iff (l := subscriptions), ← hlength, List.length_eq_zero_iff]
  simp only [subscriptionsOf, List.filterMap_append] at hidentity hendpoint ⊢
  rw [hidentity, hendpoint, List.nil_append, List.nil_append]

end CcbCore.Provider
