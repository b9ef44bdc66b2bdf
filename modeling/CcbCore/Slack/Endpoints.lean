import CcbCore.Library.Index
import CcbCore.Slack.Relay
import Mathlib.Data.Set.BooleanAlgebra
import Mathlib.Order.CompletePartialOrder

/-!
# Logical endpoints

`LogicalEndpoint` and `EndpointRegistry` of `src/chat_bus/identity.py`. A text is a list of
code points; an endpoint is one that `__post_init__` lets through. A registry has three
dictionaries, which the endpoints fill one after another (`EndpointRegistry.init`), and each
address then has one endpoint (`endpoint_registry`).
-/

namespace CcbCore.Slack

open CcbCore.CodePoints CcbCore.Index CcbCore.Raising
open CcbCore.Python (CodePoint)

variable (unicode : Casefold)

/-! ### Addresses -/

/-- `[a-z]`. -/
def isLower (c : CodePoint) : Bool := 0x61 ≤ c.val && c.val ≤ 0x7a

/-- `_ADDRESS_RE`. -/
def isAddress : Str → Bool
  | [] => false
  | c :: rest => isLower c && rest.all (fun c => isLower c || isDigit c || (lit "_-").contains c) && rest.length ≤ 63

/-- `_SLACK_USER_RE`. -/
def isSlackUser : Str → Bool
  | [] => false
  | c :: rest => (lit "UW").contains c && rest.all (fun c => isUpper c || isDigit c) && !rest.isEmpty

/-- `normalize_address`, of a text: what is raised is an `IdentityError` with this code. -/
def normalizeAddress (value : Str) : Except String Str :=
  let address := strip value
  let address := if address.head? = some (point '@') then address.tail else address
  let address := unicode.casefold address
  if isAddress address = true then .ok address else .error "INVALID_LOGICAL_ADDRESS"

/-! ### Endpoints -/

/-- The fields of a `LogicalEndpoint`. -/
structure EndpointFields where
  endpointId : Str
  displayName : Str
  projectScope : Str
  aliases : List Str
  slackUserId : Option Str
  iconEmoji : Option Str
  deriving DecidableEq

/-- `len(icon_emoji) >= 3`, with a colon at both ends. -/
def isIconEmoji (icon : Str) : Bool := 3 ≤ icon.length && icon.head? = some (point ':') && icon.getLast? = some (point ':')

/-- The loop of `__post_init__` over the aliases. -/
def checkAliases (canonical : Str) : List Str → List Str → Except String Unit
  | _, [] => .ok ()
  | seen, first :: rest => do
    let normalized ← normalizeAddress unicode first
    if normalized = canonical ∨ normalized ∈ seen then .error "DUPLICATE_ENDPOINT_ALIAS"
    else checkAliases canonical (seen.insert normalized) rest

/-- `__post_init__`. -/
def EndpointFields.postInit (fields : EndpointFields) : Except String Unit := do
  let canonical ← normalizeAddress unicode fields.endpointId
  if canonical ≠ fields.endpointId then .error "ENDPOINT_ID_MUST_BE_CANONICAL"
  else if isBlank fields.displayName = true then .error "DISPLAY_NAME_REQUIRED"
  else if isBlank fields.projectScope = true then .error "PROJECT_SCOPE_REQUIRED"
  else if fields.slackUserId.any (fun user => !isSlackUser user) = true then .error "INVALID_SLACK_USER_ID"
  else if fields.iconEmoji.any (fun icon => !isIconEmoji icon) = true then .error "INVALID_ICON_EMOJI"
  else checkAliases unicode canonical [] fields.aliases

/-- `LogicalEndpoint`. -/
structure LogicalEndpoint extends EndpointFields where
  valid : toEndpointFields.postInit unicode = .ok ()

variable {unicode}

/-- `addresses`. -/
def LogicalEndpoint.addresses (endpoint : LogicalEndpoint unicode) : Except String (List Str) := do
  let aliases ← endpoint.aliases.mapM (normalizeAddress unicode)
  return endpoint.endpointId :: aliases

/-! ### The registry -/

/-- `EndpointRegistry`. -/
structure EndpointRegistry (unicode : Casefold) where
  byId : Table Str (LogicalEndpoint unicode)
  byAddress : Table Str (LogicalEndpoint unicode)
  bySlackUser : Table Str (LogicalEndpoint unicode)

namespace EndpointRegistry

/-- The body of the loop of `__init__`. -/
def register (registry : EndpointRegistry unicode) (endpoint : LogicalEndpoint unicode) :
    Except String (EndpointRegistry unicode) := do
  let byId ← claimKeys "DUPLICATE_ENDPOINT_ID" endpoint registry.byId [endpoint.endpointId]
  let addresses ← endpoint.addresses
  let byAddress ← claimKeys "LOGICAL_ADDRESS_COLLISION" endpoint registry.byAddress addresses
  let bySlackUser ← claimKeys "SLACK_USER_ID_COLLISION" endpoint registry.bySlackUser endpoint.slackUserId.toList
  return ⟨byId, byAddress, bySlackUser⟩

/-- `__init__`. -/
def init (endpoints : List (LogicalEndpoint unicode)) : Except String (EndpointRegistry unicode) := do
  let registry ← endpoints.foldlM register ⟨∅, ∅, ∅⟩
  if registry.byId.entries = [] then .error "AT_LEAST_ONE_ENDPOINT_REQUIRED" else .ok registry

/-- `resolve`. -/
def resolve (registry : EndpointRegistry unicode) (address : Str) : Except String (LogicalEndpoint unicode) :=
  match normalizeAddress unicode address with
  | .error _ => .error "UNKNOWN_LOGICAL_ENDPOINT"
  | .ok key =>
    match registry.byAddress.lookup key with
    | none => .error "UNKNOWN_LOGICAL_ENDPOINT"
    | some endpoint => .ok endpoint

/-- `get`. -/
def get (registry : EndpointRegistry unicode) (address : Str) : Option (LogicalEndpoint unicode) :=
  match normalizeAddress unicode address with
  | .error _ => none
  | .ok key => registry.byAddress.lookup key

/-- `resolve_slack_user`. -/
def resolveSlackUser (registry : EndpointRegistry unicode) (slackUserId : Str) : Except String (LogicalEndpoint unicode) :=
  match registry.bySlackUser.lookup slackUserId with
  | none => .error "UNKNOWN_SLACK_USER_ENDPOINT"
  | some endpoint => .ok endpoint

end EndpointRegistry

/-! ### An endpoint's addresses -/

/-- The addresses that refer to an endpoint: what its id and its aliases are normalized to. -/
def LogicalEndpoint.addressSet (endpoint : LogicalEndpoint unicode) : Set Str :=
  {address | normalizeAddress unicode endpoint.endpointId = .ok address ∨
    ∃ other ∈ endpoint.aliases, normalizeAddress unicode other = .ok address}

theorem checkAliases_ok {canonical : Str} {seen aliases : List Str} (h : checkAliases unicode canonical seen aliases = .ok ()) :
    ∃ names, aliases.mapM (normalizeAddress unicode) = .ok names ∧ names.Nodup ∧ canonical ∉ names ∧ ∀ name ∈ names, name ∉ seen := by
  induction aliases generalizing seen with
  | nil => exact ⟨[], rfl, List.nodup_nil, List.not_mem_nil, fun _ h => absurd h List.not_mem_nil⟩
  | cons first rest ih =>
    rw [checkAliases, except_bind_ok] at h
    obtain ⟨normalized, hfirst, h⟩ := h
    by_cases hduplicate : normalized = canonical ∨ normalized ∈ seen
    · rw [if_pos hduplicate] at h
      cases h
    · rw [if_neg hduplicate] at h
      obtain ⟨hcanonical, hseen⟩ := not_or.mp hduplicate
      obtain ⟨names, hnames, hnodup, hnot, hfresh⟩ := ih h
      have hnew : normalized ∉ names := fun hmem => hfresh normalized hmem (List.mem_insert_self)
      refine ⟨normalized :: names, ?_, List.nodup_cons.mpr ⟨hnew, hnodup⟩, ?_, ?_⟩
      · rw [List.mapM_cons, hfirst, hnames]
        rfl
      · simp [Ne.symm hcanonical, hnot]
      · refine List.forall_mem_cons.mpr ⟨hseen, fun name hname hmem => hfresh name hname (List.mem_insert_of_mem hmem)⟩

/-- An endpoint has its addresses, and each once. -/
theorem LogicalEndpoint.addresses_ok (endpoint : LogicalEndpoint unicode) :
    ∃ addresses, endpoint.addresses = .ok addresses ∧ addresses.Nodup ∧ endpoint.endpointId ∈ addresses ∧
      ∀ address, address ∈ addresses ↔ address ∈ endpoint.addressSet := by
  have hvalid := endpoint.valid
  rw [EndpointFields.postInit, except_bind_ok] at hvalid
  obtain ⟨canonical, hcanonical, hvalid⟩ := hvalid
  split_ifs at hvalid with hsame
  obtain ⟨names, hnames, hnodup, hnot, -⟩ := checkAliases_ok hvalid
  rw [ne_eq, not_not] at hsame
  rw [hsame] at hcanonical hnot
  refine ⟨endpoint.endpointId :: names, by rw [addresses, hnames]; rfl, List.nodup_cons.mpr ⟨hnot, hnodup⟩, List.mem_cons_self,
    fun address => ?_⟩
  rw [List.mem_cons, addressSet, Set.mem_ofPred_eq, hcanonical, Except.ok.injEq, eq_comm]
  refine or_congr_right ⟨fun hmem => ?_, fun ⟨other, hother, hnormal⟩ => ?_⟩
  · obtain ⟨other, hother, hnormal⟩ := exists_of_forall₂ (forall₂_of_mapM_ok hnames).flip hmem
    exact ⟨other, hother, hnormal⟩
  · obtain ⟨name, hname, hname'⟩ := exists_of_mapM_ok hnames hother
    rw [hnormal] at hname'
    cases hname'
    exact hname

/-- The addresses, as they are registered. -/
def LogicalEndpoint.addressList (endpoint : LogicalEndpoint unicode) : List Str := endpoint.addresses.toOption.getD []

theorem LogicalEndpoint.addresses_eq (endpoint : LogicalEndpoint unicode) : endpoint.addresses = .ok endpoint.addressList := by
  obtain ⟨addresses, haddresses, -⟩ := endpoint.addresses_ok
  rw [addressList, haddresses]
  rfl

theorem LogicalEndpoint.nodup_addressList (endpoint : LogicalEndpoint unicode) : endpoint.addressList.Nodup := by
  obtain ⟨addresses, haddresses, hnodup, -⟩ := endpoint.addresses_ok
  rw [Except.ok.inj (endpoint.addresses_eq.symm.trans haddresses)]
  exact hnodup

theorem LogicalEndpoint.endpointId_mem (endpoint : LogicalEndpoint unicode) : endpoint.endpointId ∈ endpoint.addressList := by
  obtain ⟨addresses, haddresses, -, hmem, -⟩ := endpoint.addresses_ok
  rw [Except.ok.inj (endpoint.addresses_eq.symm.trans haddresses)]
  exact hmem

theorem LogicalEndpoint.mem_addressList {endpoint : LogicalEndpoint unicode} {address : Str} :
    address ∈ endpoint.addressList ↔ address ∈ endpoint.addressSet := by
  obtain ⟨addresses, haddresses, -, -, hmem⟩ := endpoint.addresses_ok
  rw [Except.ok.inj (endpoint.addresses_eq.symm.trans haddresses)]
  exact hmem address

/-! ### What is registered -/

/-- Two endpoints have no address in common, and not one Slack user. -/
def Apart (first last : LogicalEndpoint unicode) : Prop :=
  Disjoint first.addressSet last.addressSet ∧ ∀ user ∈ first.slackUserId, last.slackUserId ≠ some user

theorem apart_iff {first last : LogicalEndpoint unicode} :
    Apart first last ↔ first.addressList.Disjoint last.addressList ∧
      first.slackUserId.toList.Disjoint last.slackUserId.toList := by
  refine and_congr ?_ ?_
  · rw [Set.disjoint_left]
    exact forall_congr' fun address => by rw [← LogicalEndpoint.mem_addressList, ← LogicalEndpoint.mem_addressList]
  · constructor
    · intro h user hfirst hlast
      exact h user (Option.mem_toList.mp hfirst) (Option.mem_toList.mp hlast)
    · intro h user hfirst hlast
      exact h (Option.mem_toList.mpr hfirst) (Option.mem_toList.mpr hlast)

/-- The registry has what the endpoints registered so far have claimed. -/
structure Registered (done : List (LogicalEndpoint unicode)) (registry : EndpointRegistry unicode) : Prop where
  byId : Indexed done (fun endpoint => [endpoint.endpointId]) registry.byId
  byAddress : Indexed done LogicalEndpoint.addressList registry.byAddress
  bySlackUser : Indexed done (fun endpoint => endpoint.slackUserId.toList) registry.bySlackUser

variable {done endpoints : List (LogicalEndpoint unicode)} {registry registry' : EndpointRegistry unicode}
  {endpoint : LogicalEndpoint unicode}

theorem register_iff : registry.register endpoint = .ok registry' ↔
    claimKeys "DUPLICATE_ENDPOINT_ID" endpoint registry.byId [endpoint.endpointId] = .ok registry'.byId ∧
      claimKeys "LOGICAL_ADDRESS_COLLISION" endpoint registry.byAddress endpoint.addressList = .ok registry'.byAddress ∧
        claimKeys "SLACK_USER_ID_COLLISION" endpoint registry.bySlackUser endpoint.slackUserId.toList = .ok registry'.bySlackUser := by
  simp only [EndpointRegistry.register, endpoint.addresses_eq, except_bind_ok, except_pure_ok, Except.ok.injEq, exists_eq_left']
  constructor
  · rintro ⟨byId, hid, byAddress, haddress, bySlackUser, hslack, heq⟩
    subst heq
    exact ⟨hid, haddress, hslack⟩
  · rintro ⟨hid, haddress, hslack⟩
    exact ⟨_, hid, _, haddress, _, hslack, rfl⟩

theorem Registered.register (h : Registered done registry) (hregister : registry.register endpoint = .ok registry') :
    Registered (done ++ [endpoint]) registry' ∧ ∀ other ∈ done, Apart other endpoint := by
  obtain ⟨hid, haddress, hslack⟩ := register_iff.mp hregister
  obtain ⟨hid', -⟩ := h.byId.claim hid
  obtain ⟨haddress', hapart⟩ := h.byAddress.claim haddress
  obtain ⟨hslack', hapart'⟩ := h.bySlackUser.claim hslack
  exact ⟨⟨hid', haddress', hslack'⟩, fun other hother => apart_iff.mpr ⟨hapart other hother, hapart' other hother⟩⟩

theorem Registered.register_ok (h : Registered done registry) (hapart : ∀ other ∈ done, Apart other endpoint) :
    ∃ registry', registry.register endpoint = .ok registry' := by
  have hids : ∀ other ∈ done, [other.endpointId].Disjoint [endpoint.endpointId] := by
    intro other hother
    rw [List.singleton_disjoint, List.mem_singleton]
    intro heq
    exact (apart_iff.mp (hapart other hother)).1 other.endpointId_mem (heq ▸ endpoint.endpointId_mem)
  obtain ⟨byId, hid⟩ := h.byId.claim_ok (List.nodup_singleton _) hids
  obtain ⟨byAddress, haddress⟩ := h.byAddress.claim_ok endpoint.nodup_addressList
    fun other hother => (apart_iff.mp (hapart other hother)).1
  have husers : endpoint.slackUserId.toList.Nodup := by
    cases endpoint.slackUserId with
    | none => exact List.nodup_nil
    | some user => exact List.nodup_singleton user
  obtain ⟨bySlackUser, hslack⟩ := h.bySlackUser.claim_ok husers
    fun other hother => (apart_iff.mp (hapart other hother)).2
  exact ⟨⟨byId, byAddress, bySlackUser⟩, register_iff.mpr ⟨hid, haddress, hslack⟩⟩

theorem registered_empty : Registered [] (⟨∅, ∅, ∅⟩ : EndpointRegistry unicode) := ⟨indexed_empty, indexed_empty, indexed_empty⟩

/-- A run of the loop registers all endpoints that are apart. -/
theorem Registered.foldlM (h : Registered done registry) (hdone : done.Pairwise Apart) :
    ((∃ registry', endpoints.foldlM EndpointRegistry.register registry = .ok registry') ↔ (done ++ endpoints).Pairwise Apart) ∧
      ∀ registry', endpoints.foldlM EndpointRegistry.register registry = .ok registry' → Registered (done ++ endpoints) registry' := by
  induction endpoints generalizing done registry with
  | nil =>
    rw [List.append_nil]
    refine ⟨⟨fun _ => hdone, fun _ => ⟨registry, rfl⟩⟩, fun registry' hfold => ?_⟩
    cases hfold
    exact h
  | cons endpoint endpoints ih =>
    have hsplit : done ++ endpoint :: endpoints = (done ++ [endpoint]) ++ endpoints := by simp
    simp only [List.foldlM_cons, except_bind_ok]
    constructor
    · constructor
      · intro ⟨registry', registry₁, hregister, hfold⟩
        obtain ⟨h₁, hapart⟩ := h.register hregister
        rw [hsplit]
        refine (ih h₁ ?_).1.mp ⟨registry', hfold⟩
        exact List.pairwise_append.mpr ⟨hdone, List.pairwise_singleton _ _, by simpa using hapart⟩
      · intro hpairwise
        have hapart : ∀ other ∈ done, Apart other endpoint :=
          fun other hother => (List.pairwise_append.mp hpairwise).2.2 other hother endpoint List.mem_cons_self
        obtain ⟨registry₁, hregister⟩ := h.register_ok hapart
        rw [hsplit] at hpairwise
        obtain ⟨registry', hfold⟩ := (ih (h.register hregister).1 (List.pairwise_append.mp hpairwise).1).1.mpr hpairwise
        exact ⟨registry', registry₁, hregister, hfold⟩
    · intro registry' ⟨registry₁, hregister, hfold⟩
      obtain ⟨h₁, hapart⟩ := h.register hregister
      rw [hsplit]
      refine (ih h₁ ?_).2 registry' hfold
      exact List.pairwise_append.mpr ⟨hdone, List.pairwise_singleton _ _, by simpa using hapart⟩

theorem init_ok (h : EndpointRegistry.init endpoints = .ok registry) : Registered endpoints registry ∧ endpoints ≠ [] := by
  simp only [EndpointRegistry.init, except_bind_ok] at h
  obtain ⟨registered, hfold, h⟩ := h
  have hregistered := (registered_empty.foldlM List.Pairwise.nil).2 registered hfold
  split_ifs at h with hentries
  cases h
  refine ⟨hregistered, fun hnil => ?_⟩
  subst hnil
  cases hfold
  exact hentries rfl

theorem init_iff : (∃ registry, EndpointRegistry.init endpoints = .ok registry) ↔ endpoints ≠ [] ∧ endpoints.Pairwise Apart := by
  constructor
  · intro ⟨registry, h⟩
    refine ⟨(init_ok h).2, ?_⟩
    simp only [EndpointRegistry.init, except_bind_ok] at h
    obtain ⟨registered, hfold, -⟩ := h
    exact (registered_empty.foldlM List.Pairwise.nil).1.mp ⟨registered, hfold⟩
  · intro ⟨hne, hpairwise⟩
    obtain ⟨registered, hfold⟩ := (registered_empty.foldlM List.Pairwise.nil).1.mpr hpairwise
    have hregistered := (registered_empty.foldlM List.Pairwise.nil).2 registered hfold
    obtain ⟨endpoint, hmem⟩ := List.exists_mem_of_ne_nil endpoints hne
    have hentries : registered.byId.entries ≠ [] := by
      intro hnil
      have hlookup := (hregistered.byId endpoint.endpointId endpoint).mpr ⟨hmem, List.mem_singleton_self _⟩
      have hentry := AList.mem_lookup_iff.mp hlookup
      rw [hnil] at hentry
      cases hentry
    exact ⟨registered, by rw [EndpointRegistry.init, hfold]; exact if_neg hentries⟩

theorem resolve_ok {address : Str} : registry.resolve address = .ok endpoint ↔
    ∃ key, normalizeAddress unicode address = .ok key ∧ registry.byAddress.lookup key = some endpoint := by
  unfold EndpointRegistry.resolve
  cases normalizeAddress unicode address with
  | error code => simp
  | ok key =>
    simp only [Except.ok.injEq, exists_eq_left']
    cases registry.byAddress.lookup key with
    | none => simp
    | some other => simp

theorem get_eq (address : Str) : registry.get address = (registry.resolve address).toOption := by
  unfold EndpointRegistry.get EndpointRegistry.resolve
  cases normalizeAddress unicode address with
  | error code => rfl
  | ok key =>
    dsimp only
    cases registry.byAddress.lookup key with
    | none => rfl
    | some other => rfl

theorem resolveSlackUser_ok {user : Str} :
    registry.resolveSlackUser user = .ok endpoint ↔ registry.bySlackUser.lookup user = some endpoint := by
  unfold EndpointRegistry.resolveSlackUser
  cases registry.bySlackUser.lookup user with
  | none => simp
  | some other => simp

/-- **Endpoints make a registry just when there are some, and no two have an address or a Slack
user in common; and then an address is resolved to the endpoint whose address it is
normalized to, and a Slack user to the endpoint that has it.** -/
theorem endpoint_registry (endpoints : List (LogicalEndpoint unicode)) :
    ((∃ registry, EndpointRegistry.init endpoints = .ok registry) ↔
      endpoints ≠ [] ∧ endpoints.Pairwise (fun first last => Disjoint first.addressSet last.addressSet) ∧
        endpoints.Pairwise (fun first last => ∀ user ∈ first.slackUserId, last.slackUserId ≠ some user)) ∧
    ∀ registry, EndpointRegistry.init endpoints = .ok registry →
      (∀ address endpoint, registry.resolve address = .ok endpoint ↔
        endpoint ∈ endpoints ∧ ∃ key, normalizeAddress unicode address = .ok key ∧ key ∈ endpoint.addressSet) ∧
      (∀ address, registry.get address = (registry.resolve address).toOption) ∧
      ∀ user endpoint, registry.resolveSlackUser user = .ok endpoint ↔ endpoint ∈ endpoints ∧ endpoint.slackUserId = some user := by
  constructor
  · rw [init_iff, ← List.pairwise_and_iff]
    rfl
  · intro registry h
    obtain ⟨hregistered, -⟩ := init_ok h
    refine ⟨fun address endpoint => ?_, get_eq, fun user endpoint => ?_⟩
    · rw [resolve_ok]
      constructor
      · intro ⟨key, hkey, hlookup⟩
        obtain ⟨hmem, hin⟩ := (hregistered.byAddress key endpoint).mp hlookup
        exact ⟨hmem, key, hkey, LogicalEndpoint.mem_addressList.mp hin⟩
      · intro ⟨hmem, key, hkey, hin⟩
        exact ⟨key, hkey, (hregistered.byAddress key endpoint).mpr ⟨hmem, LogicalEndpoint.mem_addressList.mpr hin⟩⟩
    · rw [resolveSlackUser_ok, hregistered.bySlackUser, Option.mem_toList]

/-! ### Two endpoints -/

def plannerEndpoint : LogicalEndpoint asciiCasefold where
  endpointId := lit "planner"
  displayName := lit "Planner"
  projectScope := lit "ccb"
  aliases := [lit "@Plan", lit " lead-1 "]
  slackUserId := some (lit "U024BE7LH")
  iconEmoji := some (lit ":map:")
  valid := by decide +kernel

def builderEndpoint : LogicalEndpoint asciiCasefold where
  endpointId := lit "builder"
  displayName := lit "Builder"
  projectScope := lit "ccb"
  aliases := []
  slackUserId := none
  iconEmoji := none
  valid := by decide +kernel

theorem endpoint_registry_pair : ∃ registry, EndpointRegistry.init [plannerEndpoint, builderEndpoint] = .ok registry ∧
    registry.resolve (lit "  @PLAN") = .ok plannerEndpoint ∧ registry.get (lit "  @PLAN") = some plannerEndpoint ∧
    registry.resolveSlackUser (lit "U024BE7LH") = .ok plannerEndpoint := by
  have hplanner : ∀ address, address ∈ plannerEndpoint.addressSet → address ∈ [lit "planner", lit "plan", lit "lead-1"] := by
    intro address h
    rw [← LogicalEndpoint.mem_addressList] at h
    exact (show plannerEndpoint.addressList = [lit "planner", lit "plan", lit "lead-1"] by decide +kernel) ▸ h
  have hbuilder : ∀ address, address ∈ builderEndpoint.addressSet → address ∈ [lit "builder"] := by
    intro address h
    rw [← LogicalEndpoint.mem_addressList] at h
    exact (show builderEndpoint.addressList = [lit "builder"] by decide +kernel) ▸ h
  have hdisjoint : Disjoint plannerEndpoint.addressSet builderEndpoint.addressSet := by
    rw [Set.disjoint_left]
    intro address hfirst hlast
    exact absurd (hplanner address hfirst) (List.mem_singleton.mp (hbuilder address hlast) ▸ by decide +kernel)
  obtain ⟨hinit, hresolve⟩ := endpoint_registry [plannerEndpoint, builderEndpoint]
  obtain ⟨registry, h⟩ := hinit.mpr ⟨List.cons_ne_nil _ _, by simpa using hdisjoint, by simp [builderEndpoint]⟩
  obtain ⟨haddress, hget, hslack⟩ := hresolve registry h
  have hplan : registry.resolve (lit "  @PLAN") = .ok plannerEndpoint :=
    (haddress _ _).mpr ⟨List.mem_cons_self, lit "plan", by decide +kernel,
      .inr ⟨lit "@Plan", List.mem_cons_self, by decide +kernel⟩⟩
  exact ⟨registry, h, hplan, by rw [hget, hplan]; rfl, (hslack _ _).mpr ⟨List.mem_cons_self, rfl⟩⟩

end CcbCore.Slack
