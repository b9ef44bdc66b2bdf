import CcbCore.Library.Mention
import CcbCore.Radar.Ownership
import CcbCore.Radar.Routing

/-!
# Where an envelope goes

In a registry that operations built, `Router.route` finds for every checked envelope and
every time exactly the nodes it is for (`route_exact`): the live nodes with a subscription
that takes it, of the identities its audience names, or of all identities when it has no
audience. Each is found once, in the order in which the audience first names the
identities, and in the order of the ids within one.
-/

namespace CcbCore.Radar

open CcbCore.CodePoints CcbCore.Raising

variable {Opaque : Type}

/-! ### Who an envelope is for -/

/-- The identity that a name of an audience resolves to. -/
def IdentityRegistry.addressee (unicode : Casefold) (r : IdentityRegistry) (name : Str) : Option Str :=
  (r.resolveIdentityId unicode (.str name : Value Empty)).toOption

/-- A node with a routable status and a lease that holds. -/
def Node.Live (node : Node) (now : ℤ) : Prop :=
  node.status.routable = true ∧ ∃ beat ∈ node.lastHeartbeatMs, ∃ expires ∈ node.leaseExpiresMs, beat ≤ now ∧ now < expires

/-- A subscription that takes an envelope. -/
structure Subscription.Takes (sub : Subscription) (envelope : RadarEnvelope Opaque) : Prop where
  enabled : sub.enabled = true
  domain : sub.domain = envelope.domain
  intent : sub.intent = none ∨ sub.intent = some envelope.intent
  priority : envelope.priority ≤ sub.minPriority

/-- A node that an envelope is for. -/
structure Recipient (unicode : Casefold) (r : IdentityRegistry) (envelope : RadarEnvelope Opaque) (now : ℤ) (node : Node) : Prop where
  known : r.nodes.lookup node.nodeId = some node
  live : node.Live now
  subscribed : ∃ sub ∈ r.subscriptions, sub.nodeId = node.nodeId ∧ sub.Takes envelope
  addressed : envelope.audience ≠ [] → ∃ name ∈ envelope.audience, r.addressee unicode name = some node.identityId

/-- A node is found before another: the audience names its identity first, or they come
together and its id is the lesser one. -/
def Before (unicode : Casefold) (r : IdentityRegistry) (audience : List Str) (a b : Node) : Prop :=
  Mention.place (r.addressee unicode) audience a.identityId < Mention.place (r.addressee unicode) audience b.identityId ∨
    (Mention.place (r.addressee unicode) audience a.identityId = Mention.place (r.addressee unicode) audience b.identityId ∧
      le a.nodeId b.nodeId = true ∧ a.nodeId ≠ b.nodeId)

/-- The ids are those of the nodes an envelope is for. -/
structure Delivers (unicode : Casefold) (r : IdentityRegistry) (envelope : RadarEnvelope Opaque) (now : ℤ) (recipients : List Str) :
    Prop where
  once : recipients.Nodup
  exact : ∀ id, id ∈ recipients ↔ ∃ node, node.nodeId = id ∧ Recipient unicode r envelope now node
  /-- An audience that the registry does not know is nobody. -/
  closed : envelope.audience ≠ [] → (∀ name ∈ envelope.audience, r.addressee unicode name = none) → recipients = []
  ordered : ∃ nodes : List Node, recipients = nodes.map (·.nodeId) ∧ (∀ node ∈ nodes, Recipient unicode r envelope now node) ∧
    nodes.Pairwise (Before unicode r envelope.audience)

/-! ### What the registry looks up -/

variable {unicode : Casefold} {r : IdentityRegistry} {envelope : RadarEnvelope Opaque} {now : ℤ}

/-- The test of `subscriptions_for_domain` for a checked envelope. -/
def takes (envelope : RadarEnvelope Opaque) (sub : Subscription) : Bool :=
  sub.enabled && sub.domain = envelope.domain && envelope.priority ≤ sub.minPriority &&
    (sub.intent.isNone || sub.intent = some envelope.intent)

theorem takes_iff {sub : Subscription} : takes envelope sub = true ↔ sub.Takes envelope := by
  simp only [takes, Bool.and_eq_true, Bool.or_eq_true, decide_eq_true_eq, Option.isNone_iff_eq_none]
  exact ⟨fun ⟨⟨⟨he, hd⟩, hp⟩, hi⟩ => ⟨he, hd, hi, hp⟩, fun ⟨he, hd, hi, hp⟩ => ⟨⟨⟨he, hd⟩, hp⟩, hi⟩⟩

theorem routableAt_iff {node : Node} : IdentityRegistry.routableAt now node = true ↔ node.Live now := by
  unfold IdentityRegistry.routableAt Node.Live
  cases node.lastHeartbeatMs with
  | none => simp
  | some beat =>
    cases node.leaseExpiresMs with
    | none => simp
    | some expires => simp

/-- The test that a candidate passes. -/
def accepts (r : IdentityRegistry) (envelope : RadarEnvelope Opaque) (now : ℤ) (node : Node) : Bool :=
  IdentityRegistry.routableAt now node && (r.subscriptions.filter (takes envelope)).any (·.nodeId = node.nodeId)

theorem accepts_iff {node : Node} :
    accepts r envelope now node = true ↔ node.Live now ∧ ∃ sub ∈ r.subscriptions, sub.nodeId = node.nodeId ∧ sub.Takes envelope := by
  simp only [accepts, Bool.and_eq_true, routableAt_iff, List.any_eq_true, List.mem_filter, takes_iff, decide_eq_true_eq]
  exact and_congr_right fun _ => ⟨fun ⟨sub, ⟨hmem, ht⟩, hid⟩ => ⟨sub, hmem, hid, ht⟩, fun ⟨sub, hmem, hid, ht⟩ => ⟨sub, ⟨hmem, ht⟩, hid⟩⟩

theorem subscriptionsForDomain_eq (r : IdentityRegistry) (henvelope : envelope.Valid) :
    r.subscriptionsForDomain unicode (.str envelope.domain : Value Empty) (.int envelope.priority) (.str envelope.intent) =
      .ok (r.subscriptions.filter (takes envelope)) := by
  have hd := normal_of_mem_allowedDomains unicode henvelope.domain
  have hi := normal_of_mem_allowedIntents unicode henvelope.intent
  have hdomain : subscriptionDomain unicode (.str envelope.domain : Value Empty) = .ok envelope.domain := by
    simp [subscriptionDomain, text?_normal hd, hd.folded, henvelope.domain]
  have hpriority : priorityValue (.int envelope.priority : Value Empty) = .ok envelope.priority := if_pos henvelope.priority
  have hintent : subscriptionIntent unicode (.str envelope.intent : Value Empty) = .ok (some envelope.intent) := by
    simp [subscriptionIntent, text?_normal hi, hi.folded, henvelope.intent]
  refine except_bind_ok.mpr ⟨_, hdomain, except_bind_ok.mpr ⟨_, hpriority, except_bind_ok.mpr ⟨_, hintent, ?_⟩⟩⟩
  rw [except_pure_ok]
  rfl

theorem isRecipient_eq (hr : r.Sound unicode) (henvelope : envelope.Valid) (hnow : 0 ≤ now) {node : Node} (hnode : node ∈ r.allNodes) :
    r.isRecipient unicode (.str envelope.domain : Value Empty) (.str envelope.intent) (.int envelope.priority) (.int now) node =
      .ok (accepts r envelope now node) := by
  have hfound : r.node unicode (.str node.nodeId : Value Empty) = .ok node := node_of_mem hr hnode
  have hmillis : millisecondValue (.int now : Value Empty) = .ok now := if_neg (not_lt.mpr hnow)
  have hroutable : r.nodeIsRoutable unicode (.str node.nodeId : Value Empty) (.int now) = .ok (IdentityRegistry.routableAt now node) :=
    except_bind_ok.mpr ⟨now, hmillis, except_bind_ok.mpr ⟨node, hfound, rfl⟩⟩
  refine except_bind_ok.mpr ⟨_, hroutable, ?_⟩
  cases hlive : IdentityRegistry.routableAt now node with
  | false => simp [accepts, hlive]
  | true =>
    rw [if_pos rfl, accepts, hlive, Bool.true_and]
    exact except_bind_ok.mpr ⟨node, hfound, except_bind_ok.mpr ⟨_, subscriptionsForDomain_eq r henvelope, rfl⟩⟩

/-- The candidates that pass are the recipients. -/
theorem recipientsAmong_eq (hr : r.Sound unicode) (henvelope : envelope.Valid) (hnow : 0 ≤ now) (nodes : List Node)
    (hnodes : ∀ node ∈ nodes, node ∈ r.allNodes) :
    r.recipientsAmong unicode (.str envelope.domain : Value Empty) (.str envelope.intent) (.int envelope.priority) (.int now) nodes =
      .ok ((nodes.filter (accepts r envelope now)).map (·.nodeId)) := by
  induction nodes with
  | nil => rfl
  | cons node nodes ih =>
    refine except_bind_ok.mpr ⟨_, isRecipient_eq hr henvelope hnow (hnodes node List.mem_cons_self), except_bind_ok.mpr
      ⟨_, ih fun n hn => hnodes n (List.mem_cons_of_mem node hn), ?_⟩⟩
    cases haccepts : accepts r envelope now node <;> simp [haccepts]

/-! ### The candidates -/

/-- The nodes of an identity, in the order of their ids. -/
def IdentityRegistry.nodesOf (r : IdentityRegistry) (identityId : Str) : List Node :=
  sortNodes (r.allNodes.filter (·.identityId = identityId))

/-- The nodes that are looked at for an envelope. -/
def candidates (unicode : Casefold) (r : IdentityRegistry) (audience : List Str) : List Node :=
  if audience = [] then IdentityRegistry.sortNodes r.allNodes else (resolveAudience unicode r audience).flatMap r.nodesOf

theorem eraseDups_of_nodup {α : Type} [BEq α] [LawfulBEq α] {l : List α} (h : l.Nodup) : l.eraseDups = l := by
  induction l with
  | nil => rfl
  | cons a l ih =>
    rw [List.nodup_cons] at h
    have hfilter : l.filter (fun b => !b == a) = l := by
      rw [List.filter_eq_self]
      intro b hb
      have hne : b ≠ a := fun heq => h.1 (heq ▸ hb)
      simpa using hne
    rw [List.eraseDups_cons, hfilter, ih h.2]

theorem resolveAudience_pairwise (unicode : Casefold) (r : IdentityRegistry) (audience : List Str) :
    (resolveAudience unicode r audience).Pairwise fun a b =>
      Mention.place (r.addressee unicode) audience a < Mention.place (r.addressee unicode) audience b :=
  Mention.pairwise_place (r.addressee unicode) audience

theorem mem_resolveAudience {audience : List Str} {id : Str} :
    id ∈ resolveAudience unicode r audience ↔ ∃ name ∈ audience, r.addressee unicode name = some id := by
  rw [resolveAudience, List.mem_eraseDups, List.mem_filterMap]
  rfl

theorem addressee_known (hr : r.Sound unicode) {name id : Str} (h : r.addressee unicode name = some id) :
    (r.identities.lookup id).isSome := by
  unfold IdentityRegistry.addressee at h
  cases hresolve : r.resolveIdentityId unicode (.str name : Value Empty) with
  | error e => simp [hresolve, Except.toOption] at h
  | ok canonical =>
    rw [hresolve, Except.toOption, Option.some.injEq] at h
    exact h ▸ resolved_of_resolveIdentityId hr hresolve

/-- What the router returns. -/
theorem route_eq (hr : r.Sound unicode) (henvelope : envelope.Valid) (hnow : 0 ≤ now) :
    route unicode r envelope now = .ok ⟨((candidates unicode r envelope.audience).filter (accepts r envelope now)).map (·.nodeId),
      envelope.priority, envelope.authorityRef⟩ := by
  have hmillis : millisecondValue (.int now : Value Empty) = .ok now := if_neg (not_lt.mpr hnow)
  rw [route, if_neg (not_lt.mpr hnow)]
  unfold candidates
  by_cases haudience : envelope.audience = []
  · rw [if_pos haudience, if_pos haudience]
    refine except_bind_ok.mpr ⟨_, except_bind_ok.mpr ⟨now, hmillis, ?_⟩, rfl⟩
    exact recipientsAmong_eq hr henvelope hnow _ fun node hnode => mem_sortNodes.mp hnode
  · rw [if_neg haudience, if_neg haudience]
    have hknown : ∀ id ∈ resolveAudience unicode r envelope.audience, (r.identities.lookup id).isSome := fun id hid => by
      obtain ⟨name, -, hname⟩ := mem_resolveAudience.mp hid
      exact addressee_known hr hname
    refine except_bind_ok.mpr ⟨_, except_bind_ok.mpr ⟨now, hmillis, except_bind_ok.mpr ⟨_, resolveAll_ok hr hknown, ?_⟩⟩, rfl⟩
    have hnodup : (resolveAudience unicode r envelope.audience).Nodup :=
      (resolveAudience_pairwise unicode r envelope.audience).imp fun h heq => (heq ▸ h).false
    rw [eraseDups_of_nodup hnodup]
    refine recipientsAmong_eq hr henvelope hnow _ fun node hnode => ?_
    obtain ⟨id, -, hnode⟩ := List.mem_flatMap.mp hnode
    exact (List.mem_filter.mp (mem_sortNodes.mp hnode)).1

/-! ### What is found -/

/-- The ids of the nodes differ. -/
theorem nodup_ids (hr : r.Sound unicode) : (r.allNodes.map (·.nodeId)).Nodup := by
  have hkeys : r.allNodes.map (·.nodeId) = r.nodes.entries.map (·.1) := by
    rw [IdentityRegistry.allNodes, List.map_map]
    exact List.map_congr_left fun entry hentry => (hr.nodes _ _ (Table.mem_entries_iff.mp hentry)).1
  rw [hkeys]
  exact r.nodes.nodupKeys

theorem lookup_of_mem (hr : r.Sound unicode) {node : Node} : node ∈ r.allNodes ↔ r.nodes.lookup node.nodeId = some node := by
  refine ⟨fun hnode => ?_, fun hnode => mem_allNodes.mpr ⟨_, hnode⟩⟩
  obtain ⟨key, hkey⟩ := mem_allNodes.mp hnode
  exact (hr.nodes key node hkey).1 ▸ hkey

theorem sortNodes_pairwise {nodes : List Node} (h : (nodes.map (·.nodeId)).Nodup) :
    (IdentityRegistry.sortNodes nodes).Pairwise fun a b => le a.nodeId b.nodeId = true ∧ a.nodeId ≠ b.nodeId := by
  let order : Node → Node → Prop := fun a b => le a.nodeId b.nodeId = true
  have : Std.Total order := ⟨fun a b => Str.le_total a.nodeId b.nodeId⟩
  have : IsTrans Node order := ⟨fun a b c => Str.le_trans⟩
  have hperm : ((IdentityRegistry.sortNodes nodes).map (·.nodeId)).Nodup :=
    ((List.perm_insertionSort _ nodes).map _).nodup_iff.mpr h
  exact (List.pairwise_insertionSort order nodes).and (List.pairwise_map.mp hperm)

theorem mem_candidates (hr : r.Sound unicode) {audience : List Str} {node : Node} :
    node ∈ candidates unicode r audience ↔ r.nodes.lookup node.nodeId = some node ∧
      (audience ≠ [] → ∃ name ∈ audience, r.addressee unicode name = some node.identityId) := by
  unfold candidates
  by_cases haudience : audience = []
  · rw [if_pos haudience, mem_sortNodes, lookup_of_mem hr]
    exact ⟨fun h => ⟨h, fun hne => absurd haudience hne⟩, And.left⟩
  · rw [if_neg haudience, List.mem_flatMap]
    simp only [IdentityRegistry.nodesOf, mem_sortNodes, List.mem_filter, lookup_of_mem hr, mem_resolveAudience, decide_eq_true_eq]
    constructor
    · rintro ⟨id, hid, hnode, rfl⟩
      exact ⟨hnode, fun _ => hid⟩
    · rintro ⟨hnode, hid⟩
      exact ⟨node.identityId, hid haudience, hnode, rfl⟩

theorem candidates_pairwise (hr : r.Sound unicode) (audience : List Str) :
    (candidates unicode r audience).Pairwise (Before unicode r audience) := by
  unfold candidates
  by_cases haudience : audience = []
  · rw [if_pos haudience, haudience]
    exact (sortNodes_pairwise (nodup_ids hr)).imp fun h => .inr ⟨rfl, h⟩
  · rw [if_neg haudience, List.pairwise_flatMap]
    have howner : ∀ id, ∀ node ∈ r.nodesOf id, node.identityId = id := fun id node hnode =>
      of_decide_eq_true (List.mem_filter.mp (mem_sortNodes.mp hnode)).2
    constructor
    · intro id _
      have hids : ((r.allNodes.filter (·.identityId = id)).map (·.nodeId)).Nodup :=
        (nodup_ids hr).sublist (List.filter_sublist.map _)
      refine (sortNodes_pairwise hids).imp_of_mem fun {a b} ha hb h => .inr ⟨?_, h⟩
      rw [howner id a ha, howner id b hb]
    · refine (resolveAudience_pairwise unicode r audience).imp fun {i j} h a ha b hb => .inl ?_
      rwa [howner i a ha, howner j b hb]

/-- Of two nodes the registry knows, the one that comes before has another id. -/
theorem Before.ne {audience : List Str} {a b : Node} (ha : r.nodes.lookup a.nodeId = some a) (hb : r.nodes.lookup b.nodeId = some b)
    (h : Before unicode r audience a b) : a.nodeId ≠ b.nodeId := by
  rcases h with h | ⟨-, -, hne⟩
  · intro heq
    rw [heq, hb, Option.some.injEq] at ha
    exact (ha ▸ h).false
  · exact hne

/-- The candidates that pass are those the envelope is for. -/
theorem delivers_candidates (hr : r.Sound unicode) (envelope : RadarEnvelope Opaque) (now : ℤ) :
    Delivers unicode r envelope now (((candidates unicode r envelope.audience).filter (accepts r envelope now)).map (·.nodeId)) := by
  have hmem : ∀ node, node ∈ (candidates unicode r envelope.audience).filter (accepts r envelope now) ↔
      Recipient unicode r envelope now node := by
    intro node
    rw [List.mem_filter, mem_candidates hr, accepts_iff]
    exact ⟨fun ⟨⟨hknown, haddressed⟩, hlive, hsubscribed⟩ => ⟨hknown, hlive, hsubscribed, haddressed⟩,
      fun h => ⟨⟨h.known, h.addressed⟩, h.live, h.subscribed⟩⟩
  have hordered := (candidates_pairwise hr envelope.audience).filter (accepts r envelope now)
  refine ⟨?_, fun id => ?_, fun haudience hunknown => ?_, _, rfl, fun node hnode => (hmem node).mp hnode, hordered⟩
  · rw [List.Nodup, List.pairwise_map]
    exact hordered.imp_of_mem fun {a b} ha hb h => h.ne ((hmem a).mp ha).known ((hmem b).mp hb).known
  · rw [List.mem_map]
    exact ⟨fun ⟨node, hnode, hid⟩ => ⟨node, hid, (hmem node).mp hnode⟩, fun ⟨node, hid, hnode⟩ => ⟨node, (hmem node).mpr hnode, hid⟩⟩
  · rw [List.map_eq_nil_iff, List.eq_nil_iff_forall_not_mem]
    intro node hnode
    obtain ⟨name, hname, hresolved⟩ := ((hmem node).mp hnode).addressed haudience
    rw [hunknown name hname] at hresolved
    cases hresolved

/-- **Routing is exact.** In a registry that operations built, a checked envelope is routed
at every time that is one, and wherever it is routed, to exactly the nodes it is for. -/
theorem route_exact (unicode : Casefold) (ops : List (Operation Opaque)) {envelope : RadarEnvelope Opaque} (henvelope : envelope.Valid)
    (nowMs : ℤ) :
    (0 ≤ nowMs → ∃ decision, route unicode (registryAfter unicode ops) envelope nowMs = .ok decision) ∧
      ∀ decision, route unicode (registryAfter unicode ops) envelope nowMs = .ok decision →
        Delivers unicode (registryAfter unicode ops) envelope nowMs decision.recipients := by
  have hsound := (registryAfter_owned unicode ops).1
  refine ⟨fun hnow => ⟨_, route_eq hsound henvelope hnow⟩, fun decision h => ?_⟩
  by_cases hnow : 0 ≤ nowMs
  · rw [route_eq hsound henvelope hnow, Except.ok.injEq] at h
    exact h ▸ delivers_candidates hsound envelope nowMs
  · rw [route, if_pos (not_le.mp hnow)] at h
    cases h

/-- An identity with a second name, its node, and what the node listens to. -/
def samplePlan : List (Operation Empty) :=
  [.registerIdentity (.str (lit "Athena")) (.str (lit "Athena")) ⟨[.str (lit "ops")], none⟩,
    .registerNode (.str (lit "node-1")) (.str (lit "OPS")) (.str (lit "ONLINE")) (.int 0) (.int 5000),
    .subscribe (.str (lit "athena")) (.str (lit "system")) .null (.int 3) (.bool true)]

/-- An envelope to that name, and to one nobody has. -/
def sampleLetter : RadarEnvelope Empty where
  schemaVersion := 1
  messageId := lit "m-2"
  createdAt := lit "2026-09-06T14:30:00Z"
  sender := lit "radar"
  audience := [lit "nobody", lit "ops"]
  domain := lit "system"
  intent := lit "event"
  priority := 2
  payload := .null
  contentHash := ⟨"d18a65cfa9a9d601291e7334ab35b699d8a467564603999503be3da2d849f449", by decide +kernel⟩
  idempotencyKey := ⟨"74234e98afe7498fb5daf1f36ac2d78acc339464f950703b8c019892f982b90b", by decide +kernel⟩
  correlationId := none
  rootTaskId := none
  causalParentId := none
  requiresAck := false
  expiresAt := none
  authorityRef := none
  sourceRefs := []

theorem route_exact_sample :
    ∃ decision, route asciiCasefold (registryAfter asciiCasefold samplePlan) sampleLetter 1000 = .ok decision ∧
      decision.recipients = [lit "node-1"] ∧
      Delivers asciiCasefold (registryAfter asciiCasefold samplePlan) sampleLetter 1000 decision.recipients := by
  have hvalid : sampleLetter.Valid := ⟨by decide, by decide, by decide⟩
  obtain ⟨hroutes, hexact⟩ := route_exact asciiCasefold samplePlan hvalid 1000
  obtain ⟨decision, hdecision⟩ := hroutes (by decide)
  refine ⟨decision, hdecision, ?_, hexact decision hdecision⟩
  have hfound : (route asciiCasefold (registryAfter asciiCasefold samplePlan) sampleLetter 1000).toOption.map (·.recipients) =
      some [lit "node-1"] := by decide +kernel
  rw [hdecision] at hfound
  exact Option.some.inj hfound

end CcbCore.Radar
