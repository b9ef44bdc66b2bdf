import CcbCore.Edge.Document
import CcbCore.Projection.FunctionSpec
import CcbCore.Receipts.Rebuild

/-!
# What another message does to a reference

`radar.project_bus_message_v1` writes `declared_message_id` into the payload of a row that it
stores as a collision. The Edge function's `projectFile` copies every header of a message into the
payload too, so a message may bring the key itself, and then its row is a candidate for an id that
is not its own. It takes the credit from the message that a reply names, or gets it
(`declared_header_redirects`); exactly when it does is `third_party_harmless_iff`.
-/

namespace CcbCore.Receipts

open CcbCore.Message (Headers)
open CcbCore.Postgres CcbCore.Raising CcbCore.Sql
open CcbCore.Projection (BusMessage Database MessageRow ReconciliationEvent SqlError Timestamptz projectBusMessageV1)
open CcbCore.Assignments (Message)

variable {server : Server} {identities : Finset String} {messages messages' : Table String MessageRow} {records : List Message}
  {r t a m : Message} {w : List Char}

/-! ### Payloads -/

/-- What `projectFile` says of where a message is from. -/
structure Provenance where
  admittedLaneIdentity : String
  createdAtBasis : String
  sourceRepository : String
  sourceRef : String
  sourceBranchHead : String
  sourcePath : String
  sourceCommit : String
  sourceBlobSha : String
  bodySha256 : String
  bodyLength : ℕ
  conversationClosedBySender : Bool

def Provenance.fields (p : Provenance) : List (String × Jsonb) := [
  ("admitted_lane_identity", .string p.admittedLaneIdentity),
  ("created_at_basis", .string p.createdAtBasis),
  ("source_repository", .string p.sourceRepository),
  ("source_ref", .string p.sourceRef),
  ("source_branch_head", .string p.sourceBranchHead),
  ("source_path", .string p.sourcePath),
  ("source_commit", .string p.sourceCommit),
  ("source_blob_sha", .string p.sourceBlobSha),
  ("body_sha256", .string p.bodySha256),
  ("body_length", .number (toString p.bodyLength)),
  ("conversation_closed_by_sender", .bool p.conversationClosedBySender)]

/-- The headers as fields of an object. -/
def headerFields (headers : Headers) : List (String × Jsonb) := headers.map fun header => (header.1, .string (String.ofList header.2))

/-- `metadata` of `projectFile`: the headers, and the provenance over them. -/
def metadata (headers : Headers) (p : Provenance) : Jsonb := .object (Jsonb.mergeFields (headerFields headers) p.fields)

/-- What `radar.project_bus_message_v1` adds to the payload of a collision. -/
def collisionFields (messageId qualified : String) : List (String × Jsonb) := [
  ("declared_message_id", .string messageId),
  ("projection_collision", .bool true),
  ("collision_with_message_id", .string messageId),
  ("qualified_message_id", .string qualified)]

theorem lookup_headerFields (headers : Headers) (key : String) :
    (headerFields headers).lookup key = (headers.lookup key).map fun value => .string (String.ofList value) := by
  induction headers with
  | nil => rfl
  | cons header headers ih =>
    obtain ⟨key', value⟩ := header
    rw [headerFields, List.map_cons, List.lookup_cons, List.lookup_cons]
    cases key == key' with
    | true => rfl
    | false => exact ih

/-- Of the fields that are merged, those of the second object are found first. -/
theorem lookup_mergeFields (fields fields' : List (String × Jsonb)) (key : String) :
    (Jsonb.mergeFields fields fields').lookup key = (fields'.lookup key).or (fields.lookup key) := by
  cases hthere : fields'.lookup key with
  | none =>
    have hfilter : (fields.filter fun field => (fields'.lookup field.1).isNone).lookup key = fields.lookup key := by
      induction fields with
      | nil => rfl
      | cons field fields ih =>
        obtain ⟨key', value⟩ := field
        by_cases hkey : key = key'
        · subst hkey
          simp [hthere]
        · rw [List.lookup_cons, beq_eq_false_iff_ne.mpr hkey, List.filter_cons]
          split
          · rw [List.lookup_cons, beq_eq_false_iff_ne.mpr hkey]
            exact ih
          · exact ih
    rw [Jsonb.mergeFields, List.lookup_append, hfilter, hthere, Option.none_or, Option.or_none]
  | some value =>
    have hfilter : (fields.filter fun field => (fields'.lookup field.1).isNone).lookup key = none := by
      rw [List.lookup_eq_none_iff]
      intro field hfield
      have hnone := (List.mem_filter.mp hfield).2
      refine bne_iff_ne.mpr ?_
      rintro rfl
      rw [hthere] at hnone
      cases hnone
    rw [Jsonb.mergeFields, List.lookup_append, hfilter, hthere, Option.none_or, Option.some_or]

/-- The declared id of a payload that a header gives. -/
theorem metadata_declared (headers : Headers) (p : Provenance) :
    (metadata headers p).getText "declared_message_id" = (headers.lookup "declared_message_id").map String.ofList := by
  rw [metadata, Jsonb.getText, lookup_mergeFields, lookup_headerFields,
    show p.fields.lookup "declared_message_id" = none from rfl, Option.none_or]
  cases headers.lookup "declared_message_id" <;> rfl

theorem collision_declared (payload : Jsonb) (messageId qualified : String) :
    (payload.concat (.object (collisionFields messageId qualified))).getText "declared_message_id" = some messageId ∨
      (payload.concat (.object (collisionFields messageId qualified))).getText "declared_message_id" = none := by
  cases payload with
  | object fields =>
    refine .inl ?_
    rw [Jsonb.concat, Jsonb.getText, lookup_mergeFields]
    rfl
  | _ => exact .inr rfl

/-! ### The row of a message -/

section Projector

variable {Other : Type} {projector : Projection.Server Other} {now : ℤ} {db db' : Database Other}

theorem insertMessage_row {message : BusMessage} {id sender : String} {createdAt : Timestamptz} {contentHash : Hex 64} {payload : Jsonb}
    {u : PUnit} (h : (Projection.insertMessage projector now message id sender createdAt contentHash payload).run db = .ok u db') :
    db.messages.lookup id = none ∧
      ∃ row : MessageRow, row.payload = payload ∧ row.domain = "chat_bus" ∧ db'.messages = db.messages.insert id row := by
  simp only [Projection.insertMessage, run_get_bind, run_required_bind, Table.insertRow_eq_some] at h
  obtain ⟨key, -, messages, ⟨hnew, rfl⟩, h⟩ := h
  split at h
  · exact absurd h run_throw_ok
  · obtain rfl := run_set_ok.mp h
    exact ⟨hnew, _, rfl, rfl, rfl⟩

/-- **A message adds no row, or one with its own payload under its own id, or one as a collision.** -/
theorem projectBusMessageV1_row {message : BusMessage} {result : String}
    (h : (projectBusMessageV1 projector now message).run db = .ok result db') :
    db'.messages = db.messages ∨ ∃ messageId payload id row, message.messageId = some messageId ∧ message.payload = some payload ∧
      db.messages.lookup id = none ∧ db'.messages = db.messages.insert id row ∧ row.domain = "chat_bus" ∧
      ((id = messageId ∧ row.payload = payload) ∨
        (db.messages.lookup messageId ≠ none ∧ row.payload = payload.concat (.object (collisionFields messageId id)))) := by
  simp only [projectBusMessageV1, run_get_bind, run_required_bind] at h
  obtain ⟨messageId, hid, sender, -, createdAt, -, contentHash, -, payload, hpayload, h⟩ := h
  have hid' : message.messageId = some messageId := by
    unfold Projection.nonBlank at hid
    split at hid
    · cases hid
    · exact hid
  split at h
  · obtain ⟨_, _, hinsert, -, rfl⟩ := run_bind_ok.mp h
    obtain ⟨hnew, row, hrow, hdomain, hput⟩ := insertMessage_row hinsert
    exact .inr ⟨messageId, payload, messageId, row, hid', hpayload, hnew, hput, hdomain, .inl ⟨rfl, hrow⟩⟩
  · next existing hexisting =>
    split at h
    · obtain ⟨-, rfl⟩ := run_pure_ok.mp h
      exact .inl rfl
    · split at h
      · obtain ⟨-, rfl⟩ := run_pure_ok.mp h
        exact .inl rfl
      · exact absurd h run_throw_ok
      · next qualified hfree =>
        obtain ⟨_, mid, hrecord, hrest⟩ := run_bind_ok.mp h
        obtain ⟨_, _, hinsert, -, rfl⟩ := run_bind_ok.mp hrest
        obtain ⟨hsame, -⟩ := Projection.recordConflict_ok hrecord
        obtain ⟨hnew, row, hrow, hdomain, hput⟩ := insertMessage_row hinsert
        rw [hsame] at hnew hput
        refine .inr ⟨messageId, payload, qualified, row, hid', hpayload, hnew, hput, hdomain, .inr ⟨?_, hrow⟩⟩
        rw [hexisting]
        exact Option.some_ne_none existing

end Projector

/-! ### A row more -/

/-- The reference credits what it did, and not the row that is added. -/
structure Harmless (server : Server) (identities : Finset String) (messages messages' : Table String MessageRow) (a r : Message)
    (w : List Char) : Prop where
  same : ∀ t ∈ recordsOf messages, (Credits server identities (recordsOf messages') r w t ↔ Credits server identities (recordsOf messages) r w t)
  notAdded : ¬ Credits server identities (recordsOf messages') r w a

/-- The reference has no candidate, or one that is not the reply. -/
def Open (server : Server) (records : List Message) (r : Message) (w : List Char) : Prop :=
  targets server records (String.ofList w) = [] ∨ ∃ t, targets server records (String.ofList w) = [t] ∧ t.messageId ≠ r.messageId

/-- A row that is no candidate leaves the reference as it is. -/
theorem harmless_of_not_target (hnew : messages.lookup a.messageId = none)
    (hadded : messages' = messages.insert a.messageId a.toMessageRow) (h : isTarget server (String.ofList w) a = false)
    (hr : r ∈ recordsOf messages) : Harmless server identities messages messages' a r w := by
  have hmem (m : Message) : m ∈ recordsOf messages' ↔ m ∈ recordsOf messages ∨ m = a := by
    rw [hadded]
    exact mem_recordsOf_insert hnew
  have htargets (m : Message) : (m ∈ recordsOf messages' ∧ isTarget server (String.ofList w) m = true) ↔
      (m ∈ recordsOf messages ∧ isTarget server (String.ofList w) m = true) := by
    rw [hmem]
    refine and_congr_left fun htarget => or_iff_left ?_
    rintro rfl
    rw [h] at htarget
    cases htarget
  have halone (t : Message) : targets server (recordsOf messages') (String.ofList w) = [t] ↔
      targets server (recordsOf messages) (String.ofList w) = [t] := by
    rw [alone_iff (recordsOf_nodup messages'), alone_iff (recordsOf_nodup messages)]
    exact forall_congr' fun m => by rw [htargets]
  refine ⟨fun t _ => ⟨fun hcredits => ?_, fun hcredits => ?_⟩, fun hcredits => ?_⟩
  · exact ⟨⟨hr, hcredits.domain, hcredits.matched⟩, (halone t).mp hcredits.alone, hcredits.other, hcredits.known⟩
  · exact ⟨⟨(hmem r).mpr (.inl hr), hcredits.domain, hcredits.matched⟩, (halone t).mpr hcredits.alone, hcredits.other, hcredits.known⟩
  · have htarget := hcredits.target.2
    rw [h] at htarget
    cases htarget

/-- A row that is a candidate takes the place of what a reference names, or makes it ambiguous. -/
theorem harmless_iff_of_target (hnew : messages.lookup a.messageId = none)
    (hadded : messages' = messages.insert a.messageId a.toMessageRow) (h : isTarget server (String.ofList w) a = true)
    (hrefers : Refers server (recordsOf messages) r w) :
    Harmless server identities messages messages' a r w ↔ ¬ (server.lower r.sender ∈ identities ∧ Open server (recordsOf messages) r w) := by
  have hmem (m : Message) : m ∈ recordsOf messages' ↔ m ∈ recordsOf messages ∨ m = a := by
    rw [hadded]
    exact mem_recordsOf_insert hnew
  have hold : a ∉ recordsOf messages := by
    intro hmem
    rw [mem_recordsOf, hnew] at hmem
    cases hmem
  have hother : a.messageId ≠ r.messageId := by
    intro hid
    have hrow := mem_recordsOf.mp hrefers.record
    rw [← hid, hnew] at hrow
    cases hrow
  have honly {t : Message} (hcredits : Credits server identities (recordsOf messages') r w t) : t = a := by
    have hin : a ∈ targets server (recordsOf messages') (String.ofList w) := mem_targets.mpr ⟨(hmem a).mpr (.inr rfl), h⟩
    rw [hcredits.alone, List.mem_singleton] at hin
    exact hin.symm
  constructor
  · rintro hharmless ⟨hknown, hnone | ⟨t, halone, hne⟩⟩
    · refine hharmless.notAdded ⟨⟨(hmem r).mpr (.inl hrefers.record), hrefers.domain, hrefers.matched⟩, ?_, hother, hknown⟩
      refine (alone_iff (recordsOf_nodup _)).mpr fun m => ⟨?_, ?_⟩
      · rintro ⟨hm, htarget⟩
        refine ((hmem m).mp hm).resolve_left fun hm => ?_
        have hin := mem_targets.mpr ⟨hm, htarget⟩
        rw [hnone] at hin
        cases hin
      · rintro rfl
        exact ⟨(hmem m).mpr (.inr rfl), h⟩
    · have hcredits : Credits server identities (recordsOf messages) r w t := ⟨hrefers, halone, hne, hknown⟩
      obtain rfl := honly ((hharmless.same t hcredits.target.1).mpr hcredits)
      exact hold hcredits.target.1
  · intro hnot
    refine ⟨fun t ht => ⟨fun hcredits => ?_, fun hcredits => ?_⟩, fun hcredits => ?_⟩
    · obtain rfl := honly hcredits
      exact absurd ht hold
    · exact absurd ⟨hcredits.known, .inr ⟨t, hcredits.alone, hcredits.other⟩⟩ hnot
    · refine hnot ⟨hcredits.known, .inl (List.eq_nil_iff_forall_not_mem.mpr fun m hm => ?_)⟩
      obtain ⟨hm, htarget⟩ := mem_targets.mp hm
      obtain rfl := ((alone_iff (recordsOf_nodup _)).mp hcredits.alone m).mp ⟨(hmem m).mpr (.inl hm), htarget⟩
      exact hold hm

/-- A row of another id is a candidate by its declared id. -/
theorem isTarget_iff (hdomain : a.domain = "chat_bus") (hid : server.lower a.messageId ≠ String.ofList w) :
    isTarget server (String.ofList w) a = true ↔
      server.lower ((a.payload.getText "declared_message_id").getD "") = String.ofList w := by
  rw [isTarget, decide_eq_true_iff]
  simp only [hdomain, hid, false_or, true_and]

/-- No text is no reference. -/
theorem Refers.lower_empty (h : Refers server records r w) : server.lower "" ≠ String.ofList w := by
  rw [server.lower_empty, ← String.ofList_nil]
  intro heq
  have hreference := (mem_regexpMatches h.matched).1
  rw [← String.ofList_inj.mp heq] at hreference
  cases hreference

/-- **A message of another id that is projected is harmless to a reference exactly if it has not,
under an id that is free, a header `declared_message_id` that is the reference, while the
reply's sender is registered and the reference has no candidate, or one that is not the reply.** -/
theorem third_party_harmless_iff (server : Server) (identities : Finset String) {Other : Type} {projector : Projection.Server Other}
    {now : ℤ} {db db' : Database Other} {message : BusMessage} {result own : String} {headers : Headers} {p : Provenance} {a r : Message}
    {w : List Char} (hrun : (projectBusMessageV1 projector now message).run db = .ok result db')
    (hpayload : message.payload = some (metadata headers p)) (hown : message.messageId = some own)
    (hadded : a ∈ recordsOf db'.messages) (hnew : a ∉ recordsOf db.messages) (hother : server.lower own ≠ String.ofList w)
    (hrow : server.lower a.messageId ≠ String.ofList w) (hrefers : Refers server (recordsOf db.messages) r w) :
    Harmless server identities db.messages db'.messages a r w ↔
      ¬ (db.messages.lookup own = none ∧
        (∃ value, headers.lookup "declared_message_id" = some value ∧ server.lower (String.ofList value) = String.ofList w) ∧
        server.lower r.sender ∈ identities ∧ Open server (recordsOf db.messages) r w) := by
  obtain hsame | ⟨messageId, payload, id, row, hid, hgiven, hfree, hput, hdomain, hstored⟩ := projectBusMessageV1_row hrun
  · rw [hsame] at hadded
    exact absurd hadded hnew
  obtain rfl := Option.some.inj (hown.symm.trans hid)
  obtain rfl := Option.some.inj (hpayload.symm.trans hgiven)
  have ha : a = { row with messageId := id } := by
    rw [hput] at hadded
    exact ((mem_recordsOf_insert (m := { row with messageId := id }) hfree).mp hadded).resolve_left hnew
  subst ha
  have hinsert : db'.messages = db.messages.insert id ({ row with messageId := id } : Message).toMessageRow := hput
  have htarget := isTarget_iff (a := { row with messageId := id }) hdomain hrow
  rcases hstored with ⟨rfl, hpayload⟩ | ⟨htaken, hpayload⟩
  · rw [show ({ row with messageId := id } : Message).payload = metadata headers p from hpayload, metadata_declared] at htarget
    cases hheader : headers.lookup "declared_message_id" with
    | none =>
      rw [hheader] at htarget
      have hnot := mt htarget.mp hrefers.lower_empty
      refine iff_of_true (harmless_of_not_target hfree hinsert (Bool.not_eq_true _ ▸ hnot) hrefers.record) ?_
      rintro ⟨-, ⟨value, hvalue, -⟩, -⟩
      cases hvalue
    | some value =>
      rw [hheader] at htarget
      by_cases hreference : server.lower (String.ofList value) = String.ofList w
      · rw [harmless_iff_of_target hfree hinsert (htarget.mpr hreference) hrefers]
        refine not_congr ⟨fun hopen => ⟨hfree, ⟨value, rfl, hreference⟩, hopen⟩, fun hopen => hopen.2.2⟩
      · have hnot := mt htarget.mp hreference
        refine iff_of_true (harmless_of_not_target hfree hinsert (Bool.not_eq_true _ ▸ hnot) hrefers.record) ?_
        rintro ⟨-, ⟨value', hvalue', hreference'⟩, -⟩
        obtain rfl := Option.some.inj hvalue'
        exact hreference hreference'
  · have hnot : ¬ isTarget server (String.ofList w) { row with messageId := id } = true := by
      rw [htarget, show ({ row with messageId := id } : Message).payload = _ from hpayload]
      rcases collision_declared (metadata headers p) own id with hdeclared | hdeclared <;> rw [hdeclared]
      · exact hother
      · exact hrefers.lower_empty
    refine iff_of_true (harmless_of_not_target hfree hinsert (Bool.not_eq_true _ ▸ hnot) hrefers.record) ?_
    rintro ⟨hfree', -⟩
    exact htaken hfree'

/-! ### A message with the header -/

/-- The headers of a message. -/
def plainHeaders : Headers := [("message_id", "carol-0001".toList), ("writer", "carol".toList)]

/-- The headers of a message that declares another's id. -/
def declaringHeaders : Headers := plainHeaders ++ [("declared_message_id", "alice-0001".toList)]

def carolProvenance : Provenance where
  admittedLaneIdentity := "carol"
  createdAtBasis := "source_commit"
  sourceRepository := "r"
  sourceRef := "refs/heads/bus/carol-v1"
  sourceBranchHead := "h"
  sourcePath := "messages/carol-0001.md"
  sourceCommit := "c"
  sourceBlobSha := "b"
  bodySha256 := "s"
  bodyLength := 5
  conversationClosedBySender := false

/-- The message that `projectFile` makes of some headers. -/
def carolMessage (headers : Headers) : BusMessage where
  messageId := some "carol-0001"
  createdAt := some ((0 : ℤ) : Timestamptz)
  sender := some "carol"
  audience := none
  requiresAck := some false
  sourceRefs := none
  contentHash := some "351cc4777bec40c16ad3c5279163177680306a68cb4950a63d7228f295a5f6e9"
  idempotencyKey := some "k"
  payload := some (metadata headers carolProvenance)

def aliceMessage : Message := sampleMessage "alice-0001" "alice" []

def bobReply : Message := sampleMessage "bob-0001" "bob" [("reply_to", .string "alice-0001")]

/-- A message and a reply to it. -/
def namedTables : Database Unit := ⟨∅, ∅, ∅, tableOf [aliceMessage, bobReply], [], ()⟩

/-- The row of the message. -/
def carolRow (headers : Headers) : Message :=
  { sampleMessage "carol-0001" "carol" [] with idempotencyKey := "k", payload := metadata headers carolProvenance }

/-- Triggers that do nothing. -/
def quietServer : Projection.Server Unit := ⟨id, fun _ => "", fun _ tables => .ok tables⟩

def carolTables (headers : Headers) : Database Unit :=
  { namedTables with messages := namedTables.messages.insert (carolRow headers).messageId (carolRow headers).toMessageRow }

theorem carol_run (headers : Headers) :
    (projectBusMessageV1 quietServer 0 (carolMessage headers)).run namedTables = .ok "INSERTED" (carolTables headers) := by
  rfl

theorem carolRow_free : namedTables.messages.lookup "carol-0001" = none := by decide +kernel

theorem carolRow_new (headers : Headers) : carolRow headers ∉ recordsOf namedTables.messages := by
  intro hmem
  rw [mem_recordsOf, show (carolRow headers).messageId = "carol-0001" from rfl, carolRow_free] at hmem
  cases hmem

theorem carolRow_added (headers : Headers) : carolRow headers ∈ recordsOf (carolTables headers).messages :=
  mem_recordsOf.mpr (AList.lookup_insert _)

theorem bobReply_refers : Refers sampleServer (recordsOf namedTables.messages) bobReply "alice-0001".toList := by
  refine ⟨mem_recordsOf.mpr rfl, rfl, ?_⟩
  decide +kernel

theorem bobReply_known : sampleServer.lower bobReply.sender ∈ ({"bob"} : Finset String) := by decide +kernel

theorem bobReply_open : Open sampleServer (recordsOf namedTables.messages) bobReply "alice-0001".toList :=
  .inr ⟨aliceMessage, rfl, by decide⟩

/-- Without the header the message is harmless, and with it it is not. -/
theorem third_party_harmless_iff_carol :
    Harmless sampleServer {"bob"} namedTables.messages (carolTables plainHeaders).messages (carolRow plainHeaders) bobReply
      "alice-0001".toList ∧
    ¬ Harmless sampleServer {"bob"} namedTables.messages (carolTables declaringHeaders).messages (carolRow declaringHeaders) bobReply
      "alice-0001".toList := by
  have hother : sampleServer.lower "carol-0001" ≠ String.ofList "alice-0001".toList := by decide
  have hiff (headers : Headers) := third_party_harmless_iff sampleServer {"bob"} (carol_run headers) rfl rfl (carolRow_added headers)
    (carolRow_new headers) hother hother bobReply_refers
  refine ⟨(hiff plainHeaders).mpr ?_, fun hharmless => (hiff declaringHeaders).mp hharmless ?_⟩
  · rintro ⟨-, ⟨value, hvalue, -⟩, -⟩
    cases hvalue
  · exact ⟨carolRow_free, ⟨_, rfl, rfl⟩, bobReply_known, bobReply_open⟩

/-- **A message of `carol` takes the credit from the message of `alice` that `bob` replies to.** -/
theorem declared_header_redirects :
    (projectBusMessageV1 quietServer 0 (carolMessage declaringHeaders)).run namedTables =
      .ok "INSERTED" (carolTables declaringHeaders) ∧
    sampleServer.lower "carol-0001" ≠ "alice-0001" ∧
    Refers sampleServer (recordsOf namedTables.messages) bobReply "alice-0001".toList ∧
    carolRow declaringHeaders ∈ recordsOf (carolTables declaringHeaders).messages ∧
    ¬ Harmless sampleServer {"bob"} namedTables.messages (carolTables declaringHeaders).messages (carolRow declaringHeaders) bobReply
      "alice-0001".toList := by
  refine ⟨carol_run _, by decide, bobReply_refers, carolRow_added _, fun hharmless => ?_⟩
  have htarget : isTarget sampleServer (String.ofList "alice-0001".toList) (carolRow declaringHeaders) = true := by decide +kernel
  exact (harmless_iff_of_target carolRow_free rfl htarget bobReply_refers).mp hharmless ⟨bobReply_known, bobReply_open⟩

end CcbCore.Receipts
