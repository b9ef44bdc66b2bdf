import CcbCore.Receipts.Credits

/-!
# What the order of arrival leaves

Messages arrive in batches, each followed by a call. The events that a message is projected for
an identity are the same in every order. An acknowledgement is inserted when a reference has one
candidate, and stays when another arrives: the last call would credit fewer (`Credits` of all the
messages), some order credits more (`Creditable`, of a reply and a candidate that come first). So
the acknowledgements are a function of the messages exactly where the two agree
(`receipts_rebuildable_iff`), and not where a colliding row follows a reply
(`collision_after_reply`).
-/

namespace CcbCore.Receipts

open CcbCore.Postgres CcbCore.Raising CcbCore.Sql
open CcbCore.Projection (MessageRow ReconciliationEvent SqlError Timestamptz)
open CcbCore.Assignments (Message)

variable {server : Server} {now : ℤ} {identities : Finset String} {messages messages' : Table String MessageRow}
  {records records' batch : List Message} {db db' : Plane} {r t m m' : Message} {w : List Char}

/-! ### Rows that arrive -/

theorem mem_recordsOf_insert (hnew : messages.lookup m.messageId = none) :
    m' ∈ recordsOf (messages.insert m.messageId m.toMessageRow) ↔ m' ∈ recordsOf messages ∨ m' = m := by
  rw [mem_recordsOf, mem_recordsOf, Table.lookup_insert_eq_some]
  constructor
  · rintro (⟨hid, hrow⟩ | ⟨-, hrow⟩)
    · obtain ⟨row, id⟩ := m
      obtain ⟨row', id'⟩ := m'
      obtain rfl : id' = id := hid
      obtain rfl : row' = row := hrow
      exact .inr rfl
    · exact .inl hrow
  · rintro (hrow | rfl)
    · refine .inr ⟨fun hid => ?_, hrow⟩
      rw [hid, hnew] at hrow
      cases hrow
    · exact .inl ⟨rfl, rfl⟩

theorem insertRows_cons {m : Message} : insertRows messages (m :: batch) = some messages' ↔
    messages.lookup m.messageId = none ∧ insertRows (messages.insert m.messageId m.toMessageRow) batch = some messages' := by
  rw [insertRows, List.foldlM_cons, Option.bind_eq_bind, Option.bind_eq_some_iff]
  constructor
  · rintro ⟨messages'', hfirst, hrest⟩
    obtain ⟨hnew, rfl⟩ := Table.insertRow_eq_some.mp hfirst
    exact ⟨hnew, hrest⟩
  · rintro ⟨hnew, hrest⟩
    exact ⟨_, Table.insertRow_eq_some.mpr ⟨hnew, rfl⟩, hrest⟩

theorem mem_insertRows (h : insertRows messages batch = some messages') :
    m ∈ recordsOf messages' ↔ m ∈ recordsOf messages ∨ m ∈ batch := by
  induction batch generalizing messages with
  | nil =>
    obtain rfl := Option.some.inj h
    simp
  | cons first batch ih =>
    obtain ⟨hnew, hrest⟩ := insertRows_cons.mp h
    rw [ih hrest, mem_recordsOf_insert hnew, List.mem_cons, or_assoc]

theorem exists_insertRows (hids : (batch.map Message.messageId).Nodup) (hnew : ∀ m ∈ batch, messages.lookup m.messageId = none) :
    ∃ messages', insertRows messages batch = some messages' := by
  induction batch generalizing messages with
  | nil => exact ⟨messages, rfl⟩
  | cons m batch ih =>
    rw [List.map_cons, List.nodup_cons] at hids
    obtain ⟨messages', hrest⟩ : ∃ messages', insertRows (messages.insert m.messageId m.toMessageRow) batch = some messages' := by
      refine ih hids.2 fun m' hm' => ?_
      have hne : m'.messageId ≠ m.messageId := fun heq => hids.1 (heq ▸ List.mem_map_of_mem hm')
      exact (AList.lookup_insert_ne hne).trans (hnew m' (List.mem_cons_of_mem _ hm'))
    exact ⟨messages', insertRows_cons.mpr ⟨hnew m List.mem_cons_self, hrest⟩⟩

/-! ### What a call makes of keys -/

/-- A key is acknowledged. -/
def Plane.Acknowledged (db : Plane) (key : String × String × AcknowledgementType) : Prop := ∃ row ∈ db.acknowledgements, row.key = key

/-- The key of the row that a reply gives for a message. -/
def creditKey (server : Server) (r t : Message) : String × String × AcknowledgementType :=
  (t.messageId, server.lower r.sender, .read)

/-- A key is that of a credit. -/
def Credited (server : Server) (identities : Finset String) (records : List Message) (key : String × String × AcknowledgementType) : Prop :=
  ∃ r w t, Credits server identities records r w t ∧ key = creditKey server r t

/-- The event, whenever it was inserted. -/
def DeliveryRow.content (row : DeliveryRow) : DeliveryRow := { row with createdAt := ((0 : ℤ) : Timestamptz) }

/-- An event of this content is there. -/
def Plane.Projected (db : Plane) (content : DeliveryRow) : Prop := ∃ row ∈ db.deliveryEvents, row.content = content

/-- A message is addressed to an identity. -/
def Addressed (server : Server) (identities : Finset String) (records : List Message) (content : DeliveryRow) : Prop :=
  ∃ m ∈ records, m.domain = "chat_bus" ∧ ∃ identityId ∈ addressees server identities m, content = (projectedEvent 0 m identityId).content

/-- A reply and a message that its reference is for; the reply is no candidate itself. -/
structure Creditable (server : Server) (identities : Finset String) (records : List Message) (r : Message) (w : List Char) (t : Message) :
    Prop extends Refers server records r w where
  target : t ∈ records
  isTarget : isTarget server (String.ofList w) t = true
  notReply : Receipts.isTarget server (String.ofList w) r = false
  known : server.lower r.sender ∈ identities

theorem Credits.creditable (h : Credits server identities records r w t) : Creditable server identities records r w t := by
  refine ⟨h.toRefers, h.target.1, h.target.2, ?_, h.known⟩
  rw [← Bool.not_eq_true]
  intro hreply
  have hmem : r ∈ targets server records (String.ofList w) := mem_targets.mpr ⟨h.record, hreply⟩
  rw [h.alone, List.mem_singleton] at hmem
  exact h.other (hmem ▸ rfl)

theorem Creditable.mono (h : Creditable server identities records r w t) (hrecords : ∀ m ∈ records, m ∈ records') :
    Creditable server identities records' r w t :=
  ⟨⟨hrecords r h.record, h.domain, h.matched⟩, hrecords t h.target, h.isTarget, h.notReply, h.known⟩

/-- What the receipts say is of the messages. -/
structure Founded (server : Server) (db : Plane) : Prop where
  acknowledged : ∀ key, db.Acknowledged key →
    ∃ r w t, Creditable server db.identities (recordsOf db.messages) r w t ∧ key = creditKey server r t
  projected : ∀ content, db.Projected content → Addressed server db.identities (recordsOf db.messages) content

/-- What a call makes of the receipts. -/
structure Reconciled (server : Server) (db db' : Plane) : Prop where
  identities : db'.identities = db.identities
  messages : db'.messages = db.messages
  acknowledged : ∀ key, db'.Acknowledged key ↔ db.Acknowledged key ∨ Credited server db.identities (recordsOf db.messages) key
  projected : ∀ content, db'.Projected content ↔ db.Projected content ∨ Addressed server db.identities (recordsOf db.messages) content

theorem mem_projectedEvents {row : DeliveryRow} : row ∈ projectedEvents server now identities records ↔
    ∃ m ∈ records, m.domain = "chat_bus" ∧ ∃ identityId ∈ addressees server identities m, row = projectedEvent now m identityId := by
  simp only [projectedEvents, List.mem_flatMap, List.mem_filter, List.mem_map, List.mem_dedup, decide_eq_true_iff, and_assoc]
  refine exists_congr fun m => and_congr_right fun _ => and_congr_right fun _ => exists_congr fun id => and_congr_right fun _ => eq_comm

/-- An event says its message and identity. -/
theorem projected_same (hunique : Unique records) {row : DeliveryRow} {identityId : String} (hm : m ∈ records)
    (hrow : Addressed server identities records row.content) (hconflicts : row.conflicts (projectedEvent now m identityId) = true) :
    row.content = (projectedEvent now m identityId).content := by
  obtain ⟨-, -, -, hidentity, hmessage⟩ := of_decide_eq_true hconflicts
  obtain ⟨m', hm', -, identityId', -, hcontent⟩ := hrow
  have hid : m'.messageId = m.messageId := by
    rw [← show row.messageId = m.messageId from hmessage]
    exact (congrArg DeliveryRow.messageId hcontent).symm
  have hidentity' : some identityId' = some identityId := by
    rw [← show row.identityId = some identityId from hidentity]
    exact (congrArg DeliveryRow.identityId hcontent).symm
  obtain rfl := hunique m' hm' m hm hid
  obtain rfl := Option.some.inj hidentity'
  exact hcontent

/-- **A call credits what the messages credit, and projects what they are addressed to.** -/
theorem reconcile_reconciles {sort : List String → List String} {plan : Plan} {counts : Counts} (hfounded : Founded server db)
    (hrun : (reconcileBusReceiptsV1 server now sort plan).run db = .ok counts db') : Reconciled server db db' := by
  have hunique := recordsOf_unique db.messages
  unfold reconcileBusReceiptsV1 at hrun
  rw [run_get_bind] at hrun
  obtain ⟨-, rfl⟩ := EStateM.Result.ok.inj hrun
  refine ⟨rfl, rfl, fun key => ?_, fun content => ⟨?_, ?_⟩⟩
  · refine exists_insertUnlessKey.trans (or_congr_right ⟨?_, ?_⟩)
    · rintro ⟨row, hrow, rfl⟩
      obtain ⟨c, hc, rfl⟩ := List.mem_map.mp hrow
      obtain ⟨r, w, t, hcredits, rfl⟩ := (mem_credits hunique).mp ((plan.perm _).mem_iff.mp hc)
      exact ⟨r, w, t, hcredits, rfl⟩
    · rintro ⟨r, w, t, hcredits, rfl⟩
      have hmem := (mem_credits hunique).mpr ⟨r, w, t, hcredits, rfl⟩
      exact ⟨(creditOf server r t).row now, List.mem_map_of_mem ((plan.perm _).mem_iff.mpr hmem), rfl⟩
  · rintro ⟨row, hrow, rfl⟩
    refine (mem_of_insertUnlessConflict hrow).imp (fun hrow => ⟨row, hrow, rfl⟩) fun hrow => ?_
    obtain ⟨m, hm, hdomain, identityId, hid, rfl⟩ := mem_projectedEvents.mp hrow
    exact ⟨m, hm, hdomain, identityId, hid, rfl⟩
  · rintro (⟨row, hrow, rfl⟩ | ⟨m, hm, hdomain, identityId, hid, rfl⟩)
    · exact ⟨row, mem_insertUnlessConflict_of_mem hrow, rfl⟩
    · have hrow : projectedEvent now m identityId ∈ projectedEvents server now db.identities (recordsOf db.messages) :=
        mem_projectedEvents.mpr ⟨m, hm, hdomain, identityId, hid, rfl⟩
      rcases insertUnlessConflict_covers hrow with hthere | ⟨other, hother, hconflicts⟩
      · exact ⟨_, hthere, rfl⟩
      · have haddressed : Addressed server db.identities (recordsOf db.messages) other.content := by
          rcases mem_of_insertUnlessConflict hother with hold | hnew
          · exact hfounded.projected _ ⟨other, hold, rfl⟩
          · obtain ⟨m', hm', hdomain', identityId', hid', rfl⟩ := mem_projectedEvents.mp hnew
            exact ⟨m', hm', hdomain', identityId', hid', rfl⟩
        exact ⟨other, hother, projected_same hunique hm haddressed hconflicts⟩

/-! ### Arrivals -/

/-- A batch of messages, and what its call depends on. -/
structure Arrival where
  now : ℤ
  sort : List String → List String
  plan : Plan
  batch : List Message

/-- Batches that come one after another. -/
def insertArrivals (server : Server) (arrivals : List Arrival) : Plpgsql PUnit :=
  arrivals.forM fun arrival => insertMessages server arrival.now arrival.sort arrival.plan arrival.batch

def messagesOf (arrivals : List Arrival) : List Message := arrivals.flatMap Arrival.batch

/-- Nothing is there but identities. -/
def blankPlane (identities : Finset String) : Plane := ⟨identities, ∅, [], [], []⟩

theorem blankPlane_founded (server : Server) (identities : Finset String) : Founded server (blankPlane identities) := by
  refine ⟨fun key => ?_, fun content => ?_⟩
  · rintro ⟨row, hrow, -⟩
    cases hrow
  · rintro ⟨row, hrow, -⟩
    cases hrow

theorem Credited.creditable {key : String × String × AcknowledgementType} (h : Credited server identities records key) :
    ∃ r w t, Creditable server identities records r w t ∧ key = creditKey server r t := by
  obtain ⟨r, w, t, hcredits, rfl⟩ := h
  exact ⟨r, w, t, hcredits.creditable, rfl⟩

/-- A call keeps what the receipts are of. -/
theorem Reconciled.founded (h : Reconciled server db db') (hfounded : Founded server db) : Founded server db' := by
  refine ⟨fun key hkey => ?_, fun content hcontent => ?_⟩
  · rw [h.identities, h.messages]
    rcases (h.acknowledged key).mp hkey with hkey | hkey
    · exact hfounded.acknowledged key hkey
    · exact hkey.creditable
  · rw [h.identities, h.messages]
    exact ((h.projected content).mp hcontent).elim (hfounded.projected content) id

/-- The tables are as a call left them. -/
structure Complete (server : Server) (db : Plane) : Prop extends Founded server db where
  credited : ∀ key, Credited server db.identities (recordsOf db.messages) key → db.Acknowledged key
  addressed : ∀ content, Addressed server db.identities (recordsOf db.messages) content → db.Projected content

/-- What a batch leaves. -/
structure Arrived (server : Server) (db : Plane) (batch : List Message) (db' : Plane) : Prop where
  identities : db'.identities = db.identities
  records (m : Message) : m ∈ recordsOf db'.messages ↔ m ∈ recordsOf db.messages ∨ m ∈ batch
  complete : Complete server db'
  acknowledged : ∀ key, db'.Acknowledged key ↔ db.Acknowledged key ∨ Credited server db'.identities (recordsOf db'.messages) key

/-- **New messages of different ids arrive.** -/
theorem run_insertMessages (now : ℤ) (sort : List String → List String) (plan : Plan) (hfounded : Founded server db)
    (hids : (batch.map Message.messageId).Nodup) (hnew : ∀ m ∈ batch, db.messages.lookup m.messageId = none) :
    ∃ db', (insertMessages server now sort plan batch).run db = .ok ⟨⟩ db' ∧ Arrived server db batch db' := by
  obtain ⟨messages, hrows⟩ := exists_insertRows hids hnew
  have hrecords (m : Message) : m ∈ recordsOf messages ↔ m ∈ recordsOf db.messages ∨ m ∈ batch := mem_insertRows hrows
  have hfounded' : Founded server { db with messages } := by
    refine ⟨fun key hkey => ?_, fun content hcontent => ?_⟩
    · obtain ⟨r, w, t, hcreditable, rfl⟩ := hfounded.acknowledged key hkey
      exact ⟨r, w, t, hcreditable.mono fun m hm => (hrecords m).mpr (.inl hm), rfl⟩
    · obtain ⟨m, hm, hrest⟩ := hfounded.projected content hcontent
      exact ⟨m, (hrecords m).mpr (.inl hm), hrest⟩
  obtain ⟨counts, db', hcall⟩ : ∃ counts db', (reconcileBusReceiptsV1 server now sort plan).run { db with messages } = .ok counts db' :=
    ⟨_, _, rfl⟩
  have hreconciled := reconcile_reconciles hfounded' hcall
  refine ⟨db', ?_, hreconciled.identities, ?_, ⟨hreconciled.founded hfounded', ?_, ?_⟩, ?_⟩
  · unfold insertMessages
    rw [run_get_bind, run_required_bind]
    exact ⟨messages, hrows, run_bind_ok.mpr ⟨⟨⟩, _, rfl, run_bind_ok.mpr ⟨counts, db', hcall, rfl⟩⟩⟩
  · rw [hreconciled.messages]
    exact hrecords
  · rw [hreconciled.identities, hreconciled.messages]
    exact fun key hkey => (hreconciled.acknowledged key).mpr (.inr hkey)
  · rw [hreconciled.identities, hreconciled.messages]
    exact fun content hcontent => (hreconciled.projected content).mpr (.inr hcontent)
  · rw [hreconciled.identities, hreconciled.messages]
    exact hreconciled.acknowledged

/-- An id that no message has is free. -/
theorem lookup_eq_none {messageId : String} (h : ∀ m ∈ recordsOf messages, m.messageId ≠ messageId) : messages.lookup messageId = none := by
  cases hrow : messages.lookup messageId with
  | none => rfl
  | some row => exact absurd rfl (h { row with messageId } (mem_recordsOf.mpr hrow))

/-- What batches leave. -/
structure Received (server : Server) (db : Plane) (received : List Message) (db' : Plane) : Prop where
  identities : db'.identities = db.identities
  records (m : Message) : m ∈ recordsOf db'.messages ↔ m ∈ recordsOf db.messages ∨ m ∈ received
  complete : Complete server db'
  acknowledged : ∀ key, db.Acknowledged key → db'.Acknowledged key

theorem run_insertArrivals {arrivals : List Arrival} (hcomplete : Complete server db)
    (hids : ((messagesOf arrivals).map Message.messageId).Nodup)
    (hnew : ∀ m ∈ messagesOf arrivals, db.messages.lookup m.messageId = none) :
    ∃ db', (insertArrivals server arrivals).run db = .ok ⟨⟩ db' ∧ Received server db (messagesOf arrivals) db' := by
  induction arrivals generalizing db with
  | nil => exact ⟨db, rfl, rfl, by simp [messagesOf], hcomplete, fun _ hkey => hkey⟩
  | cons arrival arrivals ih =>
    have hmessages : messagesOf (arrival :: arrivals) = arrival.batch ++ messagesOf arrivals := List.flatMap_cons
    rw [hmessages] at hids hnew
    rw [List.map_append, List.nodup_append] at hids
    obtain ⟨hbatch, hrest, hapart⟩ := hids
    obtain ⟨db₁, hrun, harrived⟩ := run_insertMessages arrival.now arrival.sort arrival.plan hcomplete.toFounded hbatch
      fun m hm => hnew m (List.mem_append_left _ hm)
    have hnew' : ∀ m ∈ messagesOf arrivals, db₁.messages.lookup m.messageId = none := by
      intro m hm
      refine lookup_eq_none fun m' hm' hid => ?_
      rcases (harrived.records m').mp hm' with hold | hbatch
      · have hnone := hnew m (List.mem_append_right _ hm)
        rw [← hid, mem_recordsOf.mp hold] at hnone
        cases hnone
      · exact hapart _ (List.mem_map_of_mem hbatch) _ (List.mem_map_of_mem hm) hid
    obtain ⟨db', hrun', hreceived⟩ := ih harrived.complete hrest hnew'
    refine ⟨db', run_bind_ok.mpr ⟨⟨⟩, _, hrun, hrun'⟩, hreceived.identities.trans harrived.identities, fun m => ?_,
      hreceived.complete, fun key hkey => hreceived.acknowledged key ((harrived.acknowledged key).mpr (.inl hkey))⟩
    rw [hreceived.records, harrived.records, hmessages, List.mem_append, or_assoc]

/-! ### Sets of messages -/

theorem recordsOf_nodup (messages : Table String MessageRow) : (recordsOf messages).Nodup := by
  have hids : (recordsOf messages).map Message.messageId = messages.keys := by
    rw [recordsOf, List.map_map]
    rfl
  have hkeys : ((recordsOf messages).map Message.messageId).Nodup := by
    rw [hids]
    exact messages.keys_nodup
  exact hkeys.of_map

/-- A message is the only candidate if each candidate is that message. -/
theorem alone_iff (hnodup : records.Nodup) {referencedId : String} : targets server records referencedId = [t] ↔
    ∀ m, (m ∈ records ∧ isTarget server referencedId m = true) ↔ m = t := by
  constructor
  · intro halone m
    rw [← mem_targets, halone, List.mem_singleton]
  · intro hiff
    refine List.perm_singleton.mp ((List.perm_ext_iff_of_nodup (hnodup.filter _) (List.nodup_singleton t)).mpr fun m => ?_)
    rw [List.mem_filter, List.mem_singleton]
    exact hiff m

/-- What is credited depends on which messages there are. -/
theorem Credits.congr (h : Credits server identities records r w t) (hnodup : records.Nodup) (hnodup' : records'.Nodup)
    (hsame : ∀ m, m ∈ records' ↔ m ∈ records) : Credits server identities records' r w t := by
  refine ⟨⟨(hsame r).mpr h.record, h.domain, h.matched⟩, (alone_iff hnodup').mpr fun m => ?_, h.other, h.known⟩
  rw [hsame]
  exact (alone_iff hnodup).mp h.alone m

theorem Credited.congr {key : String × String × AcknowledgementType} (h : Credited server identities records key) (hnodup : records.Nodup)
    (hnodup' : records'.Nodup) (hsame : ∀ m, m ∈ records' ↔ m ∈ records) : Credited server identities records' key := by
  obtain ⟨r, w, t, hcredits, rfl⟩ := h
  exact ⟨r, w, t, hcredits.congr hnodup hnodup' hsame, rfl⟩

/-- A reply and what it could credit, alone, credit it. -/
theorem Creditable.credits (h : Creditable server identities records r w t) (hne : r ≠ t) (hunique : Unique records) :
    Credits server identities [r, t] r w t := by
  refine ⟨⟨List.mem_cons_self, h.domain, h.matched⟩, ?_, fun hid => hne (hunique t h.target r h.record hid).symm, h.known⟩
  rw [targets, List.filter_cons_of_neg (by rw [h.notReply]; exact Bool.false_ne_true), List.filter_cons_of_pos h.isTarget,
    List.filter_nil]

/-! ### Orders -/

/-- The same is acknowledged and projected. -/
structure SameReceipts (db db' : Plane) : Prop where
  acknowledged : ∀ key, db.Acknowledged key ↔ db'.Acknowledged key
  projected : ∀ content, db.Projected content ↔ db'.Projected content

/-- Any two orders and batchings of the messages end with the same receipts. -/
def OrderFree (server : Server) (identities : Finset String) (messages : List Message) : Prop :=
  ∀ arrivals arrivals', (messagesOf arrivals).Perm messages → (messagesOf arrivals').Perm messages →
    ∃ db db', (insertArrivals server arrivals).run (blankPlane identities) = .ok ⟨⟩ db ∧
      (insertArrivals server arrivals').run (blankPlane identities) = .ok ⟨⟩ db' ∧ SameReceipts db db'

theorem unique_of_nodup (hids : (records.map Message.messageId).Nodup) : Unique records :=
  fun _ hm _ hm' hid => List.inj_on_of_nodup_map hids hm hm' hid

theorem blankPlane_complete (server : Server) (identities : Finset String) : Complete server (blankPlane identities) := by
  refine ⟨blankPlane_founded server identities, ?_, ?_⟩
  · rintro key ⟨r, w, t, hcredits, -⟩
    exact absurd hcredits.record List.not_mem_nil
  · rintro content ⟨m, hm, -⟩
    exact absurd hm List.not_mem_nil

/-- The rows come as the query gives them. -/
def planned : Plan := ⟨id, fun _ => .refl _⟩

/-- A batch as it comes. -/
def arrivalOf (batch : List Message) : Arrival := ⟨0, id, planned, batch⟩

theorem Arrived.mem_blank (h : Arrived server (blankPlane identities) batch db) : m ∈ recordsOf db.messages ↔ m ∈ batch := by
  rw [h.records, show recordsOf (blankPlane identities).messages = [] from rfl]
  simp

/-- One batch credits what its messages credit. -/
theorem Arrived.acknowledged_blank (h : Arrived server (blankPlane identities) batch db) (hnodup : batch.Nodup)
    {key : String × String × AcknowledgementType} : db.Acknowledged key ↔ Credited server identities batch key := by
  rw [h.acknowledged, h.identities]
  constructor
  · rintro (⟨row, hrow, -⟩ | hcredited)
    · cases hrow
    · exact hcredited.congr (recordsOf_nodup _) hnodup fun m => h.mem_blank.symm
  · exact fun hcredited => .inr (hcredited.congr hnodup (recordsOf_nodup _) fun m => h.mem_blank)

theorem run_all (server : Server) (identities : Finset String) (hids : (records.map Message.messageId).Nodup) :
    ∃ db, (insertArrivals server [arrivalOf records]).run (blankPlane identities) = .ok ⟨⟩ db ∧
      ∀ key, db.Acknowledged key ↔ Credited server identities records key := by
  obtain ⟨db, hrun, harrived⟩ := run_insertMessages 0 id planned (blankPlane_founded server identities) hids fun _ _ => rfl
  exact ⟨db, run_bind_ok.mpr ⟨⟨⟩, _, hrun, rfl⟩, fun key => harrived.acknowledged_blank hids.of_map⟩

/-- What the first batch credits stays credited. -/
theorem run_two (server : Server) (identities : Finset String) {first others : List Message}
    (hids : ((first ++ others).map Message.messageId).Nodup) :
    ∃ db, (insertArrivals server [arrivalOf first, arrivalOf others]).run (blankPlane identities) = .ok ⟨⟩ db ∧
      ∀ key, Credited server identities first key → db.Acknowledged key := by
  rw [List.map_append, List.nodup_append] at hids
  obtain ⟨hfirst, hothers, hapart⟩ := hids
  obtain ⟨db₁, hrun, harrived⟩ := run_insertMessages 0 id planned (blankPlane_founded server identities) hfirst fun _ _ => rfl
  have hnew : ∀ m ∈ others, db₁.messages.lookup m.messageId = none := fun m hm => lookup_eq_none fun m' hm' =>
    hapart _ (List.mem_map_of_mem (harrived.mem_blank.mp hm')) _ (List.mem_map_of_mem hm)
  obtain ⟨db₂, hrun', harrived'⟩ := run_insertMessages 0 id planned harrived.complete.toFounded hothers hnew
  refine ⟨db₂, run_bind_ok.mpr ⟨⟨⟩, _, hrun, run_bind_ok.mpr ⟨⟨⟩, _, hrun', rfl⟩⟩, fun key hkey => ?_⟩
  exact (harrived'.acknowledged key).mpr (.inl ((harrived.acknowledged_blank hfirst.of_map).mpr hkey))

/-- Two messages of a list come first in some order. -/
theorem perm_two (hr : r ∈ records) (ht : t ∈ records) (hne : r ≠ t) : ∃ others, ([r, t] ++ others).Perm records := by
  obtain ⟨before, after, rfl⟩ := List.append_of_mem hr
  have hmem : t ∈ before ++ after := (List.mem_cons.mp (List.perm_middle.mem_iff.mp ht)).resolve_left hne.symm
  obtain ⟨before', after', hsplit⟩ := List.append_of_mem hmem
  have hrest : (t :: (before' ++ after')).Perm (before ++ after) := by
    rw [hsplit]
    exact List.perm_middle.symm
  exact ⟨before' ++ after', (hrest.cons r).trans List.perm_middle.symm⟩

/-- **Where the order does not matter, what could be credited is.** -/
theorem OrderFree.credited (h : OrderFree server identities records) (hids : (records.map Message.messageId).Nodup)
    (hcreditable : Creditable server identities records r w t) : Credited server identities records (creditKey server r t) := by
  have hne : r ≠ t := by
    rintro rfl
    have hnot := hcreditable.notReply
    rw [hcreditable.isTarget] at hnot
    cases hnot
  obtain ⟨others, hperm⟩ := perm_two hcreditable.record hcreditable.target hne
  obtain ⟨db, hrun, hall⟩ := run_all server identities hids
  obtain ⟨db', hrun', hfirst⟩ := run_two server identities ((hperm.map Message.messageId).nodup_iff.mpr hids)
  obtain ⟨db₁, db₂, hrun₁, hrun₂, hsame⟩ := h [arrivalOf records] [arrivalOf [r, t], arrivalOf others]
    (by simp [messagesOf, arrivalOf]) (by simpa [messagesOf, arrivalOf] using hperm)
  obtain ⟨-, rfl⟩ := EStateM.Result.ok.inj (hrun.symm.trans hrun₁)
  obtain ⟨-, rfl⟩ := EStateM.Result.ok.inj (hrun'.symm.trans hrun₂)
  have hpair := hcreditable.credits hne (unique_of_nodup hids)
  exact (hall _).mp ((hsame.acknowledged _).mpr (hfirst _ ⟨r, w, t, hpair, rfl⟩))

/-- Any order ends with receipts of the messages. -/
theorem run_arrivals (server : Server) (identities : Finset String) (hids : (records.map Message.messageId).Nodup)
    {arrivals : List Arrival} (hperm : (messagesOf arrivals).Perm records) :
    ∃ db, (insertArrivals server arrivals).run (blankPlane identities) = .ok ⟨⟩ db ∧ Complete server db ∧
      db.identities = identities ∧ ∀ m, m ∈ recordsOf db.messages ↔ m ∈ records := by
  obtain ⟨db, hrun, hreceived⟩ := run_insertArrivals (blankPlane_complete server identities)
    ((hperm.map Message.messageId).nodup_iff.mpr hids) fun _ _ => rfl
  refine ⟨db, hrun, hreceived.complete, hreceived.identities, fun m => ?_⟩
  rw [hreceived.records, hperm.mem_iff, show recordsOf (blankPlane identities).messages = [] from rfl]
  simp

theorem Addressed.mono {content : DeliveryRow} (h : Addressed server identities records content)
    (hrecords : ∀ m ∈ records, m ∈ records') : Addressed server identities records' content := by
  obtain ⟨m, hm, hrest⟩ := h
  exact ⟨m, hrecords m hm, hrest⟩

/-- **The receipts are a function of the messages exactly if each acknowledgement that some order
gives, of a reply and a candidate that come first, is given when all the messages are there.** -/
theorem receipts_rebuildable_iff (server : Server) (identities : Finset String) {messages : List Message}
    (hids : (messages.map Message.messageId).Nodup) :
    OrderFree server identities messages ↔
      ∀ r w t, Creditable server identities messages r w t → Credited server identities messages (creditKey server r t) := by
  refine ⟨fun h r w t hcreditable => h.credited hids hcreditable, fun h => ?_⟩
  have hdetermined {db : Plane} (hcomplete : Complete server db) (hidentities : db.identities = identities)
      (hrecords : ∀ m, m ∈ recordsOf db.messages ↔ m ∈ messages) :
      (∀ key, db.Acknowledged key ↔ Credited server identities messages key) ∧
        ∀ content, db.Projected content ↔ Addressed server identities messages content := by
    obtain rfl := hidentities
    refine ⟨fun key => ⟨fun hkey => ?_, fun hkey => ?_⟩, fun content => ⟨fun hcontent => ?_, fun hcontent => ?_⟩⟩
    · obtain ⟨r, w, t, hcreditable, rfl⟩ := hcomplete.acknowledged key hkey
      exact h r w t (hcreditable.mono fun m => (hrecords m).mp)
    · exact hcomplete.credited key (hkey.congr hids.of_map (recordsOf_nodup _) hrecords)
    · exact (hcomplete.projected content hcontent).mono fun m => (hrecords m).mp
    · exact hcomplete.addressed content (hcontent.mono fun m => (hrecords m).mpr)
  intro arrivals arrivals' hperm hperm'
  obtain ⟨db, hrun, hcomplete, hidentities, hrecords⟩ := run_arrivals server identities hids hperm
  obtain ⟨db', hrun', hcomplete', hidentities', hrecords'⟩ := run_arrivals server identities hids hperm'
  obtain ⟨hacknowledged, hprojected⟩ := hdetermined hcomplete hidentities hrecords
  obtain ⟨hacknowledged', hprojected'⟩ := hdetermined hcomplete' hidentities' hrecords'
  exact ⟨db, db', hrun, hrun', fun key => (hacknowledged key).trans (hacknowledged' key).symm,
    fun content => (hprojected content).trans (hprojected' content).symm⟩

/-! ### A collision after a reply -/

def namedMessage : Message := sampleMessage "alice-0001" "alice" []

def namingReply : Message := sampleMessage "bob-0001" "bob" [("reply_to", .string "alice-0001")]

/-- A message and a reply to it. -/
def repliedMessages : List Message := [namedMessage, namingReply]

/-- A message, a reply to it, and a row whose declared id is the message's. -/
def collisionMessages : List Message :=
  repliedMessages ++ [sampleMessage "alice-0001~351cc4777bec40c1" "alice" [("declared_message_id", .string "alice-0001")]]

theorem repliedMessages_nodup : (repliedMessages.map Message.messageId).Nodup := by decide

theorem collisionMessages_nodup : (collisionMessages.map Message.messageId).Nodup := by decide

theorem namingReply_refers {records : List Message} (h : namingReply ∈ records) :
    Refers sampleServer records namingReply "alice-0001".toList := ⟨h, rfl, by decide +kernel⟩

/-- With no collision the reply gives the only credit, and gives it. -/
theorem repliedMessages_credited {r t : Message} {w : List Char} (h : Creditable sampleServer {"bob"} repliedMessages r w t) :
    Credited sampleServer {"bob"} repliedMessages (creditKey sampleServer r t) := by
  have hreply : r = namingReply := by
    rcases List.mem_pair.mp h.record with rfl | rfl
    · exact absurd h.known (by decide +kernel)
    · rfl
  subst hreply
  have hmatches : regexpMatches (replyText sampleServer namingReply) = ["alice-0001".toList] := by decide +kernel
  have hmatched := h.matched
  rw [hmatches, List.mem_singleton] at hmatched
  subst hmatched
  have hnamed : t = namedMessage := by
    rcases List.mem_pair.mp h.target with rfl | rfl
    · rfl
    · exact absurd h.isTarget (by decide +kernel)
  subst hnamed
  exact ⟨namingReply, _, namedMessage, ⟨namingReply_refers h.record, rfl, by decide, h.known⟩, rfl⟩

theorem collision_creditable : Creditable sampleServer {"bob"} collisionMessages namingReply "alice-0001".toList namedMessage := by
  refine ⟨namingReply_refers ?_, ?_, ?_, ?_, ?_⟩
  · simp [collisionMessages, repliedMessages]
  · simp [collisionMessages, repliedMessages]
  all_goals decide +kernel

/-- With the collision no reference is for one message alone. -/
theorem collision_uncredited (key : String × String × AcknowledgementType) : ¬ Credited sampleServer {"bob"} collisionMessages key := by
  rintro ⟨r, w, t, hcredits, -⟩
  have hmem := (mem_credits (unique_of_nodup collisionMessages_nodup)).mpr ⟨r, w, t, hcredits, rfl⟩
  have hnone : credits sampleServer {"bob"} collisionMessages = [] := by decide +kernel
  rw [hnone] at hmem
  cases hmem

/-- Without the collision the order does not matter, and with it it does. -/
theorem receipts_rebuildable_iff_collision :
    OrderFree sampleServer {"bob"} repliedMessages ∧ ¬ OrderFree sampleServer {"bob"} collisionMessages := by
  refine ⟨(receipts_rebuildable_iff sampleServer {"bob"} repliedMessages_nodup).mpr fun r w t => repliedMessages_credited,
    fun hfree => ?_⟩
  have hcredited := (receipts_rebuildable_iff sampleServer {"bob"} collisionMessages_nodup).mp hfree
  exact collision_uncredited _ (hcredited _ _ _ collision_creditable)

/-- **A reply that comes before a collision of the message it names is an acknowledgement, and one
that comes after it is none.** -/
theorem collision_after_reply : ¬ OrderFree sampleServer {"bob"} collisionMessages :=
  fun h => collision_uncredited _ (h.credited collisionMessages_nodup collision_creditable)

end CcbCore.Receipts
