import CcbCore.Receipts.Functions

/-!
# What a call of the receipts' reconciliation inserts

The joins and counts of the queries, read: a reply credits a message if a match in its headers
has that message as its only candidate (`Credits`, `mem_credits`). Nothing asks that the match be
a whole id of the header, so a reply that names one message may credit another, whose id is the
start of it (`cut_reference`); exactly when it does is `read_credits_whole_iff`.
-/

namespace CcbCore.Receipts

open CcbCore.Postgres CcbCore.Raising CcbCore.Sql
open CcbCore.Projection (MessageRow ReconciliationEvent SqlError Timestamptz)
open CcbCore.Assignments (Message)

variable {server : Server} {now : ℤ} {identities : Finset String} {messages : Table String MessageRow} {records : List Message}
  {r t m m' : Message} {w : List Char}

/-! ### Records -/

theorem mem_recordsOf : m ∈ recordsOf messages ↔ messages.lookup m.messageId = some m.toMessageRow := by
  rw [recordsOf, List.mem_map, ← Table.mem_entries_iff]
  constructor
  · rintro ⟨⟨id, row⟩, hmem, rfl⟩
    exact hmem
  · intro hmem
    exact ⟨_, hmem, rfl⟩

/-- Records of one id are one. -/
def Unique (records : List Message) : Prop := ∀ m ∈ records, ∀ m' ∈ records, m.messageId = m'.messageId → m = m'

theorem recordsOf_unique (messages : Table String MessageRow) : Unique (recordsOf messages) := by
  rintro ⟨row, id⟩ hm ⟨row', id'⟩ hm' hid
  obtain rfl : id = id' := hid
  rw [mem_recordsOf] at hm hm'
  obtain rfl : row = row' := Option.some.inj (hm.symm.trans hm')
  rfl

/-! ### References and their candidates -/

/-- A reply has a match in its headers. -/
structure Refers (server : Server) (records : List Message) (r : Message) (w : List Char) : Prop where
  record : r ∈ records
  domain : r.domain = "chat_bus"
  matched : w ∈ regexpMatches (replyText server r)

theorem Refers.lower (h : Refers server records r w) : server.lower (String.ofList w) = String.ofList w :=
  server.lower_reference w (mem_regexpMatches h.matched).1

/-- A row of `reply_refs`. -/
def refOf (server : Server) (r : Message) (w : List Char) : ReplyRef :=
  ⟨r.messageId, server.lower r.sender, String.ofList w, evidenceOf r⟩

theorem mem_replyRefs {ref : ReplyRef} : ref ∈ replyRefs server records ↔ ∃ r w, Refers server records r w ∧ ref = refOf server r w := by
  rw [replyRefs, List.mem_dedup, List.mem_flatMap]
  constructor
  · rintro ⟨r, hr, href⟩
    obtain ⟨hrecord, hdomain⟩ := List.mem_filter.mp hr
    obtain ⟨w, hw, rfl⟩ := List.mem_map.mp href
    have hrefers : Refers server records r w := ⟨hrecord, of_decide_eq_true hdomain, hw⟩
    exact ⟨r, w, hrefers, by rw [refOf, hrefers.lower]⟩
  · rintro ⟨r, w, hrefers, rfl⟩
    refine ⟨r, List.mem_filter.mpr ⟨hrefers.record, decide_eq_true hrefers.domain⟩, List.mem_map.mpr ⟨w, hrefers.matched, ?_⟩⟩
    rw [refOf, hrefers.lower]

/-- A reference is told by its reply and the id. -/
theorem ref_unique (hunique : Unique records) {ref ref' : ReplyRef} (h : ref ∈ replyRefs server records)
    (h' : ref' ∈ replyRefs server records) (hreply : ref'.replyMessageId = ref.replyMessageId)
    (hid : ref'.referencedId = ref.referencedId) : ref' = ref := by
  obtain ⟨r, w, hrefers, rfl⟩ := mem_replyRefs.mp h
  obtain ⟨r', w', hrefers', rfl⟩ := mem_replyRefs.mp h'
  obtain rfl := hunique r' hrefers'.record r hrefers.record hreply
  rw [refOf, refOf, show String.ofList w' = String.ofList w from hid]

/-- Where one item of a list alone is counted, the rows counted are those it gives. -/
theorem countP_flatMap_single {α β : Type} {p : β → Bool} {f : α → List β} {l : List α} {a : α} (hnodup : l.Nodup) (ha : a ∈ l)
    (hall : ∀ b ∈ f a, p b = true) (hnone : ∀ a' ∈ l, a' ≠ a → ∀ b ∈ f a', p b = false) :
    (l.flatMap f).countP p = (f a).length := by
  obtain ⟨before, after, rfl⟩ := List.append_of_mem ha
  have hapart := List.nodup_middle.mp hnodup
  have hzero (part : List α) (hpart : ∀ a' ∈ part, a' ∈ before ++ after) : (part.flatMap f).countP p = 0 := by
    rw [List.countP_eq_zero]
    intro b hb
    obtain ⟨a', ha', hb⟩ := List.mem_flatMap.mp hb
    have hmem := hpart a' ha'
    have hne : a' ≠ a := fun heq => (List.nodup_cons.mp hapart).1 (heq ▸ hmem)
    rw [hnone a' (by simpa [or_assoc, or_left_comm] using .inr (List.mem_append.mp hmem)) hne b hb]
    exact Bool.false_ne_true
  rw [List.flatMap_append, List.flatMap_cons, List.countP_append, List.countP_append, hzero before (by simp +contextual),
    hzero after (by simp +contextual), List.countP_eq_length.mpr hall]
  omega

/-- **The count of a reference is that of its candidates.** -/
theorem candidateCount_eq (hunique : Unique records) {ref : ReplyRef} (h : ref ∈ replyRefs server records) :
    candidateCount server records ref = (targets server records ref.referencedId).length := by
  have hnodup : (replyRefs server records).Nodup := List.nodup_dedup _
  rw [candidateCount, candidateRows, countP_flatMap_single hnodup h, List.length_map]
  · intro row hrow
    obtain ⟨t, -, rfl⟩ := List.mem_map.mp hrow
    simp
  · intro ref' h' hne row hrow
    obtain ⟨t, -, rfl⟩ := List.mem_map.mp hrow
    simp only [decide_eq_false_iff_not, not_and]
    exact fun hreply hid => hne (ref_unique hunique h h' hreply hid)

/-! ### Credits -/

/-- A match in a reply of a registered identity has a message as its only candidate, not the reply itself. -/
structure Credits (server : Server) (identities : Finset String) (records : List Message) (r : Message) (w : List Char) (t : Message) :
    Prop extends Refers server records r w where
  alone : targets server records (String.ofList w) = [t]
  other : t.messageId ≠ r.messageId
  known : server.lower r.sender ∈ identities

/-- The row that a reply gives for a message. -/
def creditOf (server : Server) (r t : Message) : Credit := ⟨t.messageId, server.lower r.sender, evidenceOf r, r.messageId⟩

theorem mem_targets {referencedId : String} : t ∈ targets server records referencedId ↔ t ∈ records ∧ isTarget server referencedId t = true := by
  rw [targets, List.mem_filter]

theorem Credits.target (h : Credits server identities records r w t) : t ∈ records ∧ isTarget server (String.ofList w) t = true := by
  rw [← mem_targets, h.alone]
  exact List.mem_singleton_self t

/-- **The rows of the second insert.** -/
theorem mem_credits (hunique : Unique records) {c : Credit} :
    c ∈ credits server identities records ↔ ∃ r w t, Credits server identities records r w t ∧ c = creditOf server r t := by
  rw [credits, List.mem_map]
  constructor
  · rintro ⟨⟨ref, t⟩, hrow, rfl⟩
    obtain ⟨hmem, hpasses⟩ := List.mem_filter.mp hrow
    obtain ⟨href, ht⟩ : ref ∈ replyRefs server records ∧ t ∈ targets server records ref.referencedId := by
      obtain ⟨ref', href', hrow'⟩ := List.mem_flatMap.mp hmem
      obtain ⟨t', ht', heq⟩ := List.mem_map.mp hrow'
      obtain ⟨rfl, rfl⟩ := Prod.mk.inj heq
      exact ⟨href', ht'⟩
    obtain ⟨hknown, hcount, hother⟩ := of_decide_eq_true hpasses
    rw [candidateCount_eq hunique href] at hcount
    obtain ⟨t', halone⟩ := List.length_eq_one_iff.mp hcount
    rw [halone] at ht
    obtain rfl := List.mem_singleton.mp ht
    obtain ⟨r, w, hrefers, rfl⟩ := mem_replyRefs.mp href
    exact ⟨r, w, t, ⟨hrefers, halone, hother, hknown⟩, rfl⟩
  · rintro ⟨r, w, t, hcredits, rfl⟩
    have href : refOf server r w ∈ replyRefs server records := mem_replyRefs.mpr ⟨r, w, hcredits.toRefers, rfl⟩
    refine ⟨(refOf server r w, t), List.mem_filter.mpr ⟨List.mem_flatMap.mpr ⟨_, href, List.mem_map.mpr ⟨t, ?_, rfl⟩⟩, ?_⟩, rfl⟩
    · exact mem_targets.mpr hcredits.target
    · rw [decide_eq_true_iff, candidateCount_eq hunique href]
      refine ⟨hcredits.known, ?_, hcredits.other⟩
      rw [show (refOf server r w).referencedId = String.ofList w from rfl, hcredits.alone]
      rfl

/-! ### Inserts that leave out conflicts -/

section Inserts

variable {α κ : Type} [DecidableEq κ] {key : α → κ} {table rows : List α} {row last : α}

/-- A table and rows of one key for a row at most. -/
def insertUnlessKey (key : α → κ) (table rows : List α) : List α := insertUnlessConflict (fun row row' => key row = key row') table rows

theorem mem_insertUnlessKey_concat : row ∈ insertUnlessKey key table (rows ++ [last]) ↔
    row ∈ insertUnlessKey key table rows ∨
      (row = last ∧ ∀ other ∈ insertUnlessKey key table rows, key other ≠ key last) := by
  have hconcat : insertUnlessKey key table (rows ++ [last]) =
      if (insertUnlessKey key table rows).any fun other => key other = key last then insertUnlessKey key table rows
      else insertUnlessKey key table rows ++ [last] := by
    rw [insertUnlessKey, insertUnlessConflict, List.foldl_append]
    rfl
  rw [hconcat]
  split
  · next hany =>
    obtain ⟨other, hother, hkey⟩ := List.any_eq_true.mp hany
    refine ⟨.inl, ?_⟩
    rintro (h | ⟨rfl, hnone⟩)
    · exact h
    · exact absurd (of_decide_eq_true hkey) (hnone other hother)
  · next hany =>
    rw [List.mem_append, List.mem_singleton]
    refine or_congr_right ⟨fun hrow => ⟨hrow, fun other hother hkey => hany ?_⟩, And.left⟩
    exact List.any_eq_true.mpr ⟨other, hother, decide_eq_true hkey⟩

/-- A row is inserted if none of its key is there before it. -/
theorem mem_insertUnlessKey : row ∈ insertUnlessKey key table rows ↔
    row ∈ table ∨ ∃ earlier later, rows = earlier ++ row :: later ∧
      ∀ other ∈ insertUnlessKey key table earlier, key other ≠ key row := by
  induction rows using List.reverseRecOn with
  | nil => simp [insertUnlessKey, insertUnlessConflict]
  | append_singleton rows last ih =>
    rw [mem_insertUnlessKey_concat, ih, or_assoc]
    refine or_congr_right ⟨?_, ?_⟩
    · rintro (⟨earlier, later, rfl, hnone⟩ | ⟨rfl, hnone⟩)
      · exact ⟨earlier, later ++ [last], by simp, hnone⟩
      · exact ⟨rows, [], rfl, hnone⟩
    · rintro ⟨earlier, later, heq, hnone⟩
      rcases List.eq_nil_or_concat later with rfl | ⟨later, last', rfl⟩
      · obtain ⟨rfl, hlast⟩ := List.append_inj' heq rfl
        obtain rfl := List.singleton_inj.mp hlast
        exact .inr ⟨rfl, hnone⟩
      · rw [List.concat_eq_append, ← List.cons_append, ← List.append_assoc] at heq
        obtain ⟨rfl, -⟩ := List.append_inj' heq rfl
        exact .inl ⟨earlier, later, rfl, hnone⟩

theorem insertUnlessConflict_cons {conflicts : α → α → Bool} {first : α} : insertUnlessConflict conflicts table (first :: rows) =
    insertUnlessConflict conflicts (if table.any fun other => conflicts other first then table else table ++ [first]) rows := rfl

/-- What is there after an insert was there, or is one of its rows. -/
theorem mem_of_insertUnlessConflict {conflicts : α → α → Bool} (h : row ∈ insertUnlessConflict conflicts table rows) :
    row ∈ table ∨ row ∈ rows := by
  induction rows generalizing table with
  | nil => exact .inl h
  | cons first rows ih =>
    rw [insertUnlessConflict_cons] at h
    rcases ih h with hrow | hrow
    · split at hrow
      · exact .inl hrow
      · rcases List.mem_append.mp hrow with hrow | hrow
        · exact .inl hrow
        · exact .inr (List.mem_cons.mpr (.inl (List.mem_singleton.mp hrow)))
    · exact .inr (List.mem_cons_of_mem _ hrow)

theorem mem_insertUnlessConflict_of_mem {conflicts : α → α → Bool} (h : row ∈ table) : row ∈ insertUnlessConflict conflicts table rows := by
  induction rows generalizing table with
  | nil => exact h
  | cons first rows ih =>
    rw [insertUnlessConflict_cons]
    refine ih ?_
    split
    · exact h
    · exact List.mem_append_left _ h

/-- A row of an insert is there after it, or one that it conflicts with is. -/
theorem insertUnlessConflict_covers {conflicts : α → α → Bool} (h : row ∈ rows) :
    row ∈ insertUnlessConflict conflicts table rows ∨ ∃ other ∈ insertUnlessConflict conflicts table rows, conflicts other row = true := by
  induction rows generalizing table with
  | nil => cases h
  | cons first rows ih =>
    rw [insertUnlessConflict_cons]
    rcases List.mem_cons.mp h with rfl | h
    · by_cases hany : (table.any fun other => conflicts other row) = true
      · obtain ⟨other, hother, hconflicts⟩ := List.any_eq_true.mp hany
        refine .inr ⟨other, mem_insertUnlessConflict_of_mem ?_, hconflicts⟩
        rwa [if_pos hany]
      · refine .inl (mem_insertUnlessConflict_of_mem ?_)
        rw [if_neg hany]
        simp
    · exact ih h

/-- A key is there after the insert if it was, or a row has it. -/
theorem exists_insertUnlessKey {k : κ} : (∃ row ∈ insertUnlessKey key table rows, key row = k) ↔
    (∃ row ∈ table, key row = k) ∨ ∃ row ∈ rows, key row = k := by
  constructor
  · rintro ⟨row, hrow, rfl⟩
    exact (mem_of_insertUnlessConflict hrow).imp (fun hrow => ⟨row, hrow, rfl⟩) fun hrow => ⟨row, hrow, rfl⟩
  · rintro (⟨row, hrow, rfl⟩ | ⟨row, hrow, rfl⟩)
    · exact ⟨row, mem_insertUnlessConflict_of_mem hrow, rfl⟩
    · rcases insertUnlessConflict_covers hrow with hrow | ⟨other, hother, hkey⟩
      · exact ⟨row, hrow, rfl⟩
      · exact ⟨other, hother, of_decide_eq_true hkey⟩

end Inserts

/-- The call inserts the row of a credit. -/
def Plane.Inserts (db : Plane) (server : Server) (now : ℤ) (plan : Plan) (c : Credit) : Prop :=
  ∃ earlier later, plan.order (credits server db.identities (recordsOf db.messages)) = earlier ++ c :: later ∧
    ∀ row ∈ insertUnlessKey AcknowledgementRow.key db.acknowledgements (earlier.map (Credit.row now)), row.key ≠ (c.row now).key

/-- **The acknowledgements after a call are those before it and the rows that it inserts.** -/
theorem reconcile_acknowledgements {db db' : Plane} {sort : List String → List String} {plan : Plan} {counts : Counts}
    (hrun : (reconcileBusReceiptsV1 server now sort plan).run db = .ok counts db') (row : AcknowledgementRow) :
    row ∈ db'.acknowledgements ↔ row ∈ db.acknowledgements ∨ ∃ c, db.Inserts server now plan c ∧ row = c.row now := by
  unfold reconcileBusReceiptsV1 at hrun
  rw [run_get_bind] at hrun
  obtain ⟨-, rfl⟩ := EStateM.Result.ok.inj hrun
  refine mem_insertUnlessKey.trans (or_congr_right ⟨?_, ?_⟩)
  · rintro ⟨earlier, later, heq, hnone⟩
    obtain ⟨earlier, rest, horder, rfl, hrest⟩ := List.map_eq_append_iff.mp heq
    obtain ⟨c, later, rfl, rfl, rfl⟩ := List.map_eq_cons_iff.mp hrest
    exact ⟨c, ⟨earlier, later, horder, hnone⟩, rfl⟩
  · rintro ⟨c, ⟨earlier, later, horder, hnone⟩, rfl⟩
    refine ⟨earlier.map (Credit.row now), later.map (Credit.row now), ?_, hnone⟩
    rw [horder, List.map_append, List.map_cons]

/-! ### Whole references -/

/-- A reply has a message's id, or its declared id, as a whole token. -/
def Names (server : Server) (r t : Message) : Prop :=
  isToken (server.lower t.messageId).toList (replyText server r) = true ∨
    ((t.payload.getText "declared_message_id").any fun id => isToken (server.lower id).toList (replyText server r)) = true

/-- A reply that a credit is from names the message that it is for. -/
def Credit.Whole (c : Credit) (server : Server) (records : List Message) : Prop :=
  ∃ r ∈ records, r.messageId = c.replyMessageId ∧ ∃ t ∈ records, t.messageId = c.messageId ∧ Names server r t

theorem whole_creditOf (hunique : Unique records) (hr : r ∈ records) (ht : t ∈ records) :
    (creditOf server r t).Whole server records ↔ Names server r t := by
  constructor
  · rintro ⟨r', hr', hreply, t', ht', htarget, hnames⟩
    obtain rfl := hunique r' hr' r hr hreply
    obtain rfl := hunique t' ht' t ht htarget
    exact hnames
  · exact fun hnames => ⟨r, hr, rfl, t, ht, rfl, hnames⟩

/-- A match that is a whole token names the message that it credits. -/
theorem Credits.names (h : Credits server identities records r w t) (hw : isToken w (replyText server r) = true) :
    Names server r t := by
  obtain ⟨-, hid | hdeclared⟩ := of_decide_eq_true h.target.2
  · refine .inl ?_
    rwa [hid, String.toList_ofList]
  · refine .inr ?_
    cases hdeclaredId : t.payload.getText "declared_message_id" with
    | none =>
      rw [hdeclaredId, Option.getD_none, server.lower_empty, ← String.ofList_nil] at hdeclared
      rw [← String.ofList_inj.mp hdeclared] at hw
      cases hw
    | some id =>
      rw [hdeclaredId] at hdeclared
      rwa [Option.any_some, show server.lower id = String.ofList w from hdeclared, String.toList_ofList]

/-- A plan in which the row comes first. -/
def planFirst (c : Credit) : Plan where
  order rows := if c ∈ rows then c :: rows.erase c else rows
  perm rows := by
    split
    · next hmem => exact (List.perm_cons_erase hmem).symm
    · exact .refl _

/-- Tables in which nothing is acknowledged. -/
def unacknowledged (identities : Finset String) (messages : Table String MessageRow) : Plane := ⟨identities, messages, [], [], []⟩

theorem inserts_first {c : Credit} (h : c ∈ credits server identities (recordsOf messages)) :
    (unacknowledged identities messages).Inserts server now (planFirst c) c := by
  refine ⟨[], (credits server identities (recordsOf messages)).erase c, ?_, fun row hrow => absurd hrow List.not_mem_nil⟩
  exact if_pos h

/-- **A call inserts an acknowledgement only if the reply names the message whole, exactly if a
match that is cut out of a longer token, and has another message as its only candidate, is in a
reply that names it anyway; and what it inserts are the acknowledgements that are new after it.** -/
theorem read_credits_whole_iff (server : Server) (identities : Finset String) (messages : Table String MessageRow) :
    ((∀ (db : Plane) (now : ℤ) (plan : Plan), db.identities = identities → db.messages = messages →
      ∀ c, db.Inserts server now plan c → c.Whole server (recordsOf messages)) ↔
    ∀ r w t, Credits server identities (recordsOf messages) r w t → isToken w (replyText server r) = false → Names server r t) ∧
    ∀ (db db' : Plane) (now : ℤ) (sort : List String → List String) (plan : Plan) (counts : Counts),
      (reconcileBusReceiptsV1 server now sort plan).run db = .ok counts db' → ∀ row, row ∈ db'.acknowledgements ↔
        row ∈ db.acknowledgements ∨ ∃ c, db.Inserts server now plan c ∧ row = c.row now := by
  have hunique := recordsOf_unique messages
  refine ⟨⟨?_, ?_⟩, fun db db' now sort plan counts hrun row => reconcile_acknowledgements hrun row⟩
  · intro h r w t hcredits _
    have hmem : creditOf server r t ∈ credits server identities (recordsOf messages) := (mem_credits hunique).mpr ⟨r, w, t, hcredits, rfl⟩
    exact (whole_creditOf hunique hcredits.record hcredits.target.1).mp
      (h (unacknowledged identities messages) 0 (planFirst (creditOf server r t)) rfl rfl _ (inserts_first hmem))
  · rintro h db now plan rfl rfl c ⟨earlier, later, horder, -⟩
    have hmem : c ∈ credits server db.identities (recordsOf db.messages) := by
      rw [← (plan.perm _).mem_iff, horder]
      simp
    obtain ⟨r, w, t, hcredits, rfl⟩ := (mem_credits hunique).mp hmem
    refine (whole_creditOf hunique hcredits.record hcredits.target.1).mpr ?_
    by_cases hw : isToken w (replyText server r) = true
    · exact hcredits.names hw
    · exact h r w t hcredits (Bool.not_eq_true _ ▸ hw)

/-! ### A reference that is cut -/

instance : Decidable (Names server r t) := inferInstanceAs (Decidable (_ ∨ _))

instance (c : Credit) : Decidable (c.Whole server records) := by
  unfold Credit.Whole
  infer_instance

/-- A collation of texts without capitals. -/
def sampleServer : Server := ⟨id, rfl, fun _ _ => rfl⟩

theorem isHex_sampleHash : isHex 64 "351cc4777bec40c16ad3c5279163177680306a68cb4950a63d7228f295a5f6e9" = true := by decide +kernel

/-- A message with a payload. -/
def sampleMessage (messageId sender : String) (payload : List (String × Jsonb)) : Message where
  messageId := messageId
  schemaVersion := 1
  createdAt := ((0 : ℤ) : Timestamptz)
  sender := sender
  audience := []
  domain := "chat_bus"
  intent := "bus_message"
  priority := 3
  rootTaskId := none
  correlationId := none
  causalParentId := none
  requiresAck := false
  expiresAt := none
  authorityRef := none
  sourceRefs := []
  contentHash := ⟨"351cc4777bec40c16ad3c5279163177680306a68cb4950a63d7228f295a5f6e9", isHex_sampleHash⟩
  idempotencyKey := messageId
  payload := .object payload
  projectionStatus := "ACCEPTED"
  insertedAt := ((0 : ℤ) : Timestamptz)

/-- The table of some messages. -/
def tableOf (messages : List Message) : Table String MessageRow :=
  messages.foldl (fun table m => table.insert m.messageId m.toMessageRow) ∅

/-- A message, and a reply to another whose id goes on. -/
def cutMessages : Table String MessageRow :=
  tableOf [sampleMessage "alice-0001" "alice" [], sampleMessage "bob-0001" "bob" [("reply_to", .string "alice-00012")]]

def cutCredit : Credit := ⟨"alice-0001", "bob", "bob-0001", "bob-0001"⟩

theorem cutCredit_mem : cutCredit ∈ credits sampleServer {"bob"} (recordsOf cutMessages) := by decide +kernel

theorem cutCredit_cut : ¬ cutCredit.Whole sampleServer (recordsOf cutMessages) := by decide +kernel

/-- **A reply to `alice-00012` credits `alice-0001`.** -/
theorem cut_reference : ¬ ∀ (db : Plane) (now : ℤ) (plan : Plan), db.identities = {"bob"} → db.messages = cutMessages →
    ∀ c, db.Inserts sampleServer now plan c → c.Whole sampleServer (recordsOf cutMessages) :=
  fun h => cutCredit_cut (h (unacknowledged {"bob"} cutMessages) 0 (planFirst cutCredit) rfl rfl cutCredit (inserts_first cutCredit_mem))

end CcbCore.Receipts
