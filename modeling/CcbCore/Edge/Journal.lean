import CcbCore.Edge.Reading
import CcbCore.Projection.Contents
import CcbCore.Projection.Runs

/-!
# What is stored of a document

The journal's `radar_projection_project_file_v1` is called by `projectFile` only. In a run of such calls, with the journal's
others between them, a stored message is what `projectFile` made of a document with the stored content hash, for a file and the
target of a batch of the sender's lane; so, if the guard accepts the document, the row says what the guard read. And of each file of
a batch that is resolved the content is stored (`stored_is_read`).
-/

namespace CcbCore.Edge

open CcbCore.Python CcbCore.JavaScript CcbCore.Message CcbCore.Raising CcbCore.Sql
open CcbCore.Postgres (Jsonb Hex hex? btrim)
open CcbCore.Projection (BatchRow BatchesStay Bound BusMessage Database Effect Event FileRow HasContent MessageRow ProjectFileArgs
  ProjectsFile Server SqlError Step Timestamptz Uuid World busMessageRow effect_of_call projectBusMessageV1 projectionProjectFileV1
  qualify storedIds)

variable {Other : Type} {server : Server Other} {now : ℤ} {db db' : Database Other}

/-! ### Calls -/

/-- How the texts of a call are cast to the types of the function's arguments. -/
structure Casts where
  uuid : String → Option Uuid
  timestamptz : String → Option Timestamptz

/-- The arguments of `radar.projection_project_file_v1`, if its texts are cast. -/
def FileCall.args (casts : Casts) (call : FileCall) : Option ProjectFileArgs := do
  let batchId ← casts.uuid call.batchId
  let claimToken ← casts.uuid call.claimToken
  let createdAt ← casts.timestamptz call.createdAt
  return {
    batchId := some batchId, claimToken := some claimToken, path := some call.path
    message := {
      messageId := some call.messageId, createdAt := some createdAt, sender := some call.sender
      audience := some (call.audience.map some), requiresAck := some call.requiresAck
      sourceRefs := some (call.sourceRefs.map some), contentHash := some call.contentHash
      idempotencyKey := some call.idempotencyKey, payload := some call.payload } }

/-- A file that is projected, or another call of the journal. -/
inductive Request where
  | file (batch : ProjectionBatch) (source : SourceFile)
  | other (call : Projection.Call) (hother : ∀ args, call ≠ .projectFile args)

variable (casts : Casts) (engine : Engine) (digests : Digests)

/-- The call of the journal that comes of a request: none, if the file or a text of its call is refused. -/
def Request.call : Request → Option Projection.Call
  | .file batch source =>
    match projectFile engine digests batch source with
    | .error _ => none
    | .ok call => (call.args casts).map .projectFile
  | .other call _ => some call

/-- A request is served, at a time, whatever the last one was. -/
def Served (server : Server Other) (world : World Other) (request : Request × ℤ) (world' : World Other) : Prop :=
  match request.1.call casts engine digests with
  | none => world' = world
  | some call => world' = ⟨call.after server request.2 world.db, request.2⟩

/-! ### Rows -/

/-- The row of a message. -/
structure RowOf (server : Server Other) (message : BusMessage) (id : String) (row : MessageRow) : Prop where
  messageId : ∃ messageId, message.messageId = some messageId ∧ id ∈ storedIds messageId row.contentHash.text
  createdAt : message.createdAt = some row.createdAt
  sender : ∃ sender, message.sender = some sender ∧ row.sender = server.lower (btrim sender)
  audience : row.audience = message.audience.getD []
  requiresAck : row.requiresAck = message.requiresAck.getD false
  contentHash : message.contentHash = some row.contentHash.text
  idempotencyKey : message.idempotencyKey = some row.idempotencyKey
  payload : ∃ payload, message.payload = some payload ∧ (row.payload = payload ∨
    ∃ messageId, row.payload = payload.concat (.object (Receipts.collisionFields messageId id)))

theorem insertMessage_inserts {message : BusMessage} {id sender : String} {createdAt : Timestamptz} {contentHash : Hex 64}
    {payload : Jsonb} {u : PUnit}
    (h : (Projection.insertMessage server now message id sender createdAt contentHash payload).run db = .ok u db') :
    ∃ idempotencyKey, message.idempotencyKey = some idempotencyKey ∧
      db'.messages = db.messages.insert id (busMessageRow server now message sender createdAt contentHash idempotencyKey payload) := by
  simp only [Projection.insertMessage, run_get_bind, run_required_bind, Table.insertRow_eq_some] at h
  obtain ⟨key, hkey, messages, ⟨-, rfl⟩, h⟩ := h
  split at h
  · exact absurd h run_throw_ok
  · obtain rfl := run_set_ok.mp h
    exact ⟨key, hkey, rfl⟩

theorem nonBlank_ok {value : Option String} {text : String} (h : Projection.nonBlank value = some text) : value = some text := by
  unfold Projection.nonBlank at h
  split at h
  · cases h
  · exact h

theorem qualify_new_mem {messages : Table String MessageRow} {messageId qualified : String} {contentHash : Hex 64}
    (h : qualify messages messageId contentHash = .new qualified) : qualified ∈ storedIds messageId contentHash.text := by
  unfold qualify at h
  simp only at h
  split at h
  · cases h
    exact List.mem_cons_of_mem _ List.mem_cons_self
  · split at h
    · cases h
    · split at h
      · cases h
        exact List.mem_cons_of_mem _ (List.mem_cons_of_mem _ List.mem_cons_self)
      · split at h <;> cases h

/-- What projecting a message stores is its row, and nothing else. -/
theorem projectBusMessageV1_stores {message : BusMessage} {result : String}
    (h : (projectBusMessageV1 server now message).run db = .ok result db') :
    db'.messages = db.messages ∨ ∃ id row, RowOf server message id row ∧ db'.messages = db.messages.insert id row := by
  simp only [projectBusMessageV1, run_get_bind, run_required_bind] at h
  obtain ⟨messageId, hid, sender, hsender, createdAt, hcreatedAt, contentHash, hhash, payload, hpayload, h⟩ := h
  have hcontent : message.contentHash = some contentHash.text := by
    obtain ⟨text, htext, hchecked⟩ := Option.bind_eq_some_iff.mp hhash
    rw [htext, Postgres.hex?_eq_some.mp hchecked]
  have hrow : ∀ {id idempotencyKey : String} {payload' : Jsonb}, id ∈ storedIds messageId contentHash.text →
      message.idempotencyKey = some idempotencyKey →
      (payload' = payload ∨ ∃ messageId, payload' = payload.concat (.object (Receipts.collisionFields messageId id))) →
      RowOf server message id (busMessageRow server now message sender createdAt contentHash idempotencyKey payload') := by
    intro id idempotencyKey payload' hmem hkey hsame
    exact ⟨⟨messageId, nonBlank_ok hid, hmem⟩, hcreatedAt, ⟨sender, nonBlank_ok hsender, rfl⟩, rfl, rfl, hcontent, hkey, payload,
      hpayload, hsame⟩
  split at h
  · obtain ⟨_, _, hinsert, -, rfl⟩ := run_bind_ok.mp h
    obtain ⟨idempotencyKey, hkey, hput⟩ := insertMessage_inserts hinsert
    exact .inr ⟨_, _, hrow List.mem_cons_self hkey (.inl rfl), hput⟩
  · split at h
    · obtain ⟨-, rfl⟩ := run_pure_ok.mp h
      exact .inl rfl
    · split at h
      · obtain ⟨-, rfl⟩ := run_pure_ok.mp h
        exact .inl rfl
      · exact absurd h run_throw_ok
      · next qualified hnew =>
        obtain ⟨_, mid, hrecord, hrest⟩ := run_bind_ok.mp h
        obtain ⟨_, _, hinsert, -, rfl⟩ := run_bind_ok.mp hrest
        obtain ⟨hsame, -⟩ := Projection.recordConflict_ok hrecord
        obtain ⟨idempotencyKey, hkey, hput⟩ := insertMessage_inserts hinsert
        rw [hsame] at hput
        exact .inr ⟨_, _, hrow (qualify_new_mem hnew) hkey (.inr ⟨messageId, rfl⟩), hput⟩

/-- What projecting a file stores is the row of its message. -/
def Stores (server : Server Other) (db : Database Other) (now : ℤ) (args : ProjectFileArgs) (db' : Database Other) : Prop :=
  ∃ id path batch file, ProjectsFile db now args id path batch file db' ∧ Bound server batch path args.message ∧
    (db'.messages = db.messages ∨ ∃ id row, RowOf server args.message id row ∧ db'.messages = db.messages.insert id row)

theorem projectionProjectFileV1_stores {args : ProjectFileArgs} {result : String}
    (h : (projectionProjectFileV1 server now args).run db = .ok result db') : db' = db ∨ Stores server db now args db' := by
  rcases Projection.projectionProjectFileV1_runs h with rfl | ⟨id, path, batch, file, hprojects, hbound, _, mid, hmessage, hsame⟩
  · exact .inl rfl
  · refine .inr ⟨id, path, batch, file, hprojects, hbound, ?_⟩
    rw [hsame]
    exact projectBusMessageV1_stores hmessage

theorem after_projectFile (server : Server Other) (now : ℤ) (args : ProjectFileArgs) (db : Database Other) :
    (Projection.Call.projectFile args).after server now db = db ∨
      Stores server db now args ((Projection.Call.projectFile args).after server now db) := by
  rw [Projection.Call.after]
  cases hrun : (transaction ((Projection.Call.projectFile args).body server now)).run db with
  | error e db' =>
    obtain ⟨rfl, -⟩ := run_transaction_error.mp hrun
    exact .inl rfl
  | ok reply db' =>
    rw [run_transaction_ok] at hrun
    obtain ⟨_, hbody, -⟩ := run_map_ok.mp hrun
    exact projectionProjectFileV1_stores hbody

/-- Another call leaves the messages as they are, and resolves no file. -/
theorem after_other {call : Projection.Call} (hother : ∀ args, call ≠ .projectFile args) (server : Server Other) (now : ℤ)
    (db : Database Other) : (call.after server now db).messages = db.messages ∧ ∀ key file,
      (call.after server now db).batchFiles.lookup key = some file → file.state.Terminal → db.batchFiles.lookup key = some file := by
  have heffect := effect_of_call server now call db
  generalize call.after server now db = db' at heffect
  cases heffect with
  | unchanged | seeded | cutSet | finalized => exact ⟨rfl, fun _ _ hfile _ => hfile⟩
  | claimed claims =>
    refine ⟨claims.messages, fun key file hfile hterminal => (claims.pending key file hfile).resolve_right fun hpending => ?_⟩
    rw [hpending] at hterminal
    exact absurd hterminal (by decide)
  | projected => exact absurd rfl (hother _)

/-! ### Runs -/

variable {casts engine digests}
variable {world world' : World Other} {requests : List (Request × ℤ)}

/-- A source file is projected by a call with arguments that are cast. -/
structure Made (casts : Casts) (engine : Engine) (digests : Digests) (batch : ProjectionBatch) (source : SourceFile)
    (args : ProjectFileArgs) : Prop where
  request : (Request.file batch source).call casts engine digests = some (.projectFile args)
  call : ∃ call, projectFile engine digests batch source = .ok call ∧ call.args casts = some args

theorem call_file {batch : ProjectionBatch} {source : SourceFile} {call : Projection.Call}
    (h : (Request.file batch source).call casts engine digests = some call) :
    ∃ args, call = .projectFile args ∧ Made casts engine digests batch source args := by
  have hcall := h
  rw [Request.call] at h
  split at h
  · cases h
  · next made hmade =>
    obtain ⟨args, hargs, rfl⟩ := Option.map_eq_some_iff.mp h
    exact ⟨args, rfl, hcall, made, hmade, hargs⟩

/-- A row is of a message of a source file that was asked for, and bound to a batch of the journal. -/
def RowFrom (casts : Casts) (engine : Engine) (digests : Digests) (server : Server Other) (requests : List (Request × ℤ))
    (db : Database Other) (id : String) (row : MessageRow) : Prop :=
  ∃ batch source args journalId path journal, (∃ now, (Request.file batch source, now) ∈ requests) ∧
    Made casts engine digests batch source args ∧ RowOf server args.message id row ∧ args.path = some path ∧
    db.batches.lookup journalId = some journal ∧ Bound server journal path args.message

/-- The content of a batch's file that was asked for is stored. -/
def FileFrom (casts : Casts) (engine : Engine) (digests : Digests) (requests : List (Request × ℤ)) (db : Database Other)
    (key : Uuid × String) : Prop :=
  ∃ batch source args, (∃ now, (Request.file batch source, now) ∈ requests) ∧ Made casts engine digests batch source args ∧
    args.batchId = some key.1 ∧ args.path = some key.2 ∧ HasContent db args.message.contentHash

/-- What is stored is from what was asked for. -/
structure FromRequests (casts : Casts) (engine : Engine) (digests : Digests) (server : Server Other) (requests : List (Request × ℤ))
    (db : Database Other) : Prop where
  rows : ∀ id row, db.messages.lookup id = some row → RowFrom casts engine digests server requests db id row
  files : ∀ key file, db.batchFiles.lookup key = some file → file.state.Terminal → FileFrom casts engine digests requests db key

theorem RowFrom.stays {id : String} {row : MessageRow} {request : Request × ℤ}
    (h : RowFrom casts engine digests server requests db id row) (hbatches : BatchesStay db db') :
    RowFrom casts engine digests server (requests ++ [request]) db' id row := by
  obtain ⟨batch, source, args, journalId, path, journal, ⟨at', hasked⟩, hmade, hrow, hpath, hjournal, hbound⟩ := h
  obtain ⟨journal', hjournal', hkey, htarget⟩ := hbatches journalId journal hjournal
  refine ⟨batch, source, args, journalId, path, journal', ⟨at', List.mem_append_left _ hasked⟩, hmade, hrow, hpath, hjournal', ?_, ?_⟩
  · have hidentity : journal'.identityId = journal.identityId := congrArg Prod.fst hkey
    rw [hidentity]
    exact hbound.sender
  · have hidentity : journal'.identityId = journal.identityId := congrArg Prod.fst hkey
    rw [hidentity, htarget]
    exact hbound.payload

theorem FileFrom.stays {key : Uuid × String} {request : Request × ℤ} (h : FileFrom casts engine digests requests db key)
    (hkept : ∀ id row, db.messages.lookup id = some row → db'.messages.lookup id = some row) :
    FileFrom casts engine digests (requests ++ [request]) db' key := by
  obtain ⟨batch, source, args, ⟨at', hasked⟩, hmade, hid, hpath, id, row, hrow, hcontent⟩ := h
  exact ⟨batch, source, args, ⟨at', List.mem_append_left _ hasked⟩, hmade, hid, hpath, id, row, hkept id row hrow, hcontent⟩

theorem FromRequests.stays {request : Request × ℤ} (h : FromRequests casts engine digests server requests db)
    (hbatches : BatchesStay db db') (hmessages : db'.messages = db.messages)
    (hfiles : ∀ key file, db'.batchFiles.lookup key = some file → file.state.Terminal → db.batchFiles.lookup key = some file) :
    FromRequests casts engine digests server (requests ++ [request]) db' := by
  refine ⟨fun id row hrow => ?_, fun key file hfile hterminal => ?_⟩
  · rw [hmessages] at hrow
    exact (h.rows id row hrow).stays hbatches
  · refine (h.files key file (hfiles key file hfile hterminal) hterminal).stays fun id row hrow => ?_
    rwa [hmessages]

/-- A file that is projected adds its row, and is resolved. -/
theorem FromRequests.stores {batch : ProjectionBatch} {source : SourceFile} {args : ProjectFileArgs}
    (h : FromRequests casts engine digests server requests db) (hmade : Made casts engine digests batch source args)
    (hbatches : BatchesStay db db') (hstores : Stores server db now args db') (at' : ℤ) :
    FromRequests casts engine digests server (requests ++ [(.file batch source, at')]) db' := by
  obtain ⟨journalId, path, journal, file, hprojects, hbound, hmessages⟩ := hstores
  have hasked : ∃ now, (Request.file batch source, now) ∈ requests ++ [(.file batch source, at')] :=
    ⟨at', List.mem_append_right _ (List.mem_singleton.mpr rfl)⟩
  have hfound : db'.batches.lookup journalId = some journal := hprojects.batches ▸ hprojects.found
  refine ⟨fun id row hrow => ?_, fun key state hstate hterminal => ?_⟩
  · rcases hmessages with hsame | ⟨new, added, hadded, hput⟩
    · rw [hsame] at hrow
      exact (h.rows id row hrow).stays hbatches
    · rw [hput, Table.lookup_insert_eq_some] at hrow
      rcases hrow with ⟨rfl, rfl⟩ | ⟨-, hrow⟩
      · exact ⟨batch, source, args, journalId, path, journal, hasked, hmade, hadded, hprojects.onPath, hfound, hbound⟩
      · exact (h.rows id row hrow).stays hbatches
  · rw [hprojects.batchFiles, Table.lookup_insert_eq_some] at hstate
    rcases hstate with ⟨rfl, -⟩ | ⟨-, hstate⟩
    · exact ⟨batch, source, args, hasked, hmade, hprojects.given, hprojects.onPath, hprojects.content⟩
    · exact (h.files key state hstate hterminal).stays hprojects.kept

theorem Served.keeps {request : Request × ℤ} (hserved : Served casts engine digests server world request world')
    (h : FromRequests casts engine digests server requests world.db) :
    FromRequests casts engine digests server (requests ++ [request]) world'.db := by
  obtain ⟨request, at'⟩ := request
  rw [Served] at hserved
  split at hserved
  · obtain rfl := hserved
    exact h.stays (.refl _) rfl fun _ _ hfile _ => hfile
  · next call hcall =>
    obtain rfl := hserved
    have hbatches := Projection.batchesStay_after server at' call world.db
    cases request with
    | other other hother =>
      obtain rfl := Option.some.inj hcall
      obtain ⟨hmessages, hfiles⟩ := after_other hother server at' world.db
      exact h.stays hbatches hmessages hfiles
    | file batch source =>
      obtain ⟨args, rfl, hmade⟩ := call_file hcall
      rcases after_projectFile server at' args world.db with hsame | hstores
      · dsimp only
        rw [hsame]
        exact h.stays (.refl _) rfl fun _ _ hfile _ => hfile
      · exact h.stores hmade hbatches hstores at'

/-- In a run from empty tables, what is stored is from what was asked for. -/
theorem stored_from_requests {first : World Other} (hmessages : first.db.messages = ∅) (hfiles : first.db.batchFiles = ∅)
    (hrun : Run (Served casts engine digests server) first requests world) :
    FromRequests casts engine digests server requests world.db := by
  induction hrun with
  | nil => exact ⟨fun id row hrow => by simp [hmessages] at hrow, fun key file hfile => by simp [hfiles] at hfile⟩
  | snoc _ hserved ih => exact hserved.keeps ih

/-! ### Documents -/

variable {runtime : Runtime} {source : SourceFile} {content : Bytes} {text : List Char} {parsed : ParsedBusDocument} {id : String}
  {row : MessageRow}

/-- The content of a source file. -/
structure ContentOf (digests : Digests) (source : SourceFile) (content : Bytes) : Prop where
  bytes : base64Bytes source.contentBase64 = .ok content.data.toList
  blob : gitBlobSha1 digests content = source.blobSha

/-- The guard accepts a content, whose text both split alike. -/
structure Guarded (runtime : Runtime) (content : Bytes) (text : List Char) (parsed : ParsedBusDocument) : Prop where
  tame : Tame text
  proto : "__proto__" ∉ headerKeys text
  decodes : decode content = some text
  parses : parseBusText runtime content text .strict = .ok parsed
  ascii : ∀ key ∈ ["writer", "requires_reply", "requires_ack"], ∀ value ∈ parsed.headers.lookup key, ∀ c ∈ value, c.toNat < 0x80

/-- What a payload says besides the headers: where a message is from, and of a collision what it is. -/
def writtenKeys : List String := [
  "admitted_lane_identity", "created_at_basis", "source_repository", "source_ref", "source_branch_head", "source_path", "source_commit",
  "source_blob_sha", "body_sha256", "body_length", "conversation_closed_by_sender", "declared_message_id", "projection_collision",
  "collision_with_message_id", "qualified_message_id"]

/-- A row says what the guard read of a document. -/
structure Records (casts : Casts) (engine : Engine) (source : SourceFile) (parsed : ParsedBusDocument) (id : String) (row : MessageRow) :
    Prop where
  messageId : id ∈ storedIds parsed.messageId parsed.fullSha256
  sender : row.sender = aliasIdentity (lower parsed.writer)
  createdAt : ∃ time, some time.toList = parsed.createdAt.or (normalizedTimestamp engine source.sourceCommittedAt.toList) ∧
    casts.timestamptz time = some row.createdAt
  audience : row.audience = (audienceOf engine parsed.intendedRecipient).map some
  requiresAck : row.requiresAck = (parsed.requiresReply || parsed.requiresAck)
  idempotencyKey : row.idempotencyKey = "chat-bus:" ++ parsed.messageId ++ ":" ++ parsed.fullSha256
  headers : ∀ key value, parsed.headers.lookup key = some value → key ∉ writtenKeys →
    ∃ raw, row.payload.getText key = some (String.ofList raw) ∧ Message.unwrapScalar raw = value
  body : row.payload.getText "body_sha256" = some parsed.bodySha256
  closed : row.payload.getText "conversation_closed_by_sender" = some (if parsed.conversationClosedBySender then "true" else "false")

theorem projectFile_content {batch : ProjectionBatch} {call : FileCall} (h : projectFile engine digests batch source = .ok call) :
    ∃ content, ContentOf digests source content ∧ call.path = source.path ∧ call.contentHash = digests.sha256 content ∧
      call.sender = batch.laneIdentity := by
  simp only [projectFile, except_bind_ok, rejectIf_ok, elim_ok, not_not] at h
  obtain ⟨bytes, hbytes, -, -, -, hblob, text, -, ⟨headers, body⟩, -, h⟩ := h
  simp only [projectDocument, except_bind_ok, rejectIf_ok, elim_ok, not_not, except_pure_ok] at h
  obtain ⟨messageId, -, writer, -, -, -, sourceTime, -, ⟨createdAt, basis⟩, -, intended, -, requiresAck, -, rfl⟩ := h
  exact ⟨⟨bytes.toArray⟩, ⟨hbytes, hblob⟩, rfl, rfl, rfl⟩

theorem lookup_eq_none_of_written {fields : List (String × Jsonb)} {key : String} (hfields : ∀ field ∈ fields, field.1 ∈ writtenKeys)
    (h : key ∉ writtenKeys) : fields.lookup key = none := by
  rw [List.lookup_eq_none_iff]
  intro field hfield
  refine bne_iff_ne.mpr ?_
  rintro rfl
  exact h (hfields field hfield)

theorem collisionFields_written (messageId qualified : String) :
    ∀ field ∈ Receipts.collisionFields messageId qualified, field.1 ∈ writtenKeys := by
  simp [Receipts.collisionFields, writtenKeys]

theorem provenance_written (p : Receipts.Provenance) : ∀ field ∈ p.fields, field.1 ∈ writtenKeys := by
  simp [Receipts.Provenance.fields, writtenKeys]

/-- What a collision does not say is as the payload says it. -/
theorem getText_concat {payload : Jsonb} {fields : List (String × Jsonb)} {key : String} (hobject : payload.isObject = true)
    (hkey : fields.lookup key = none) : (payload.concat (.object fields)).getText key = payload.getText key := by
  cases payload with
  | object own =>
    rw [Jsonb.concat, Jsonb.getText, Receipts.lookup_mergeFields, hkey, Option.none_or]
    rfl
  | _ => cases hobject

/-- The fields of a payload that are provenance. -/
theorem metadata_provenance {headers : Headers} {p : Receipts.Provenance} {key : String} {value : Jsonb}
    (h : p.fields.lookup key = some value) : (Receipts.metadata headers p).getText key = (Jsonb.object [(key, value)]).getText key := by
  rw [Receipts.metadata, Jsonb.getText, Receipts.lookup_mergeFields, h, Option.some_or, Jsonb.getText, List.lookup_cons_self]

theorem metadata_header {headers : Headers} {p : Receipts.Provenance} {key : String} (h : key ∉ writtenKeys) :
    (Receipts.metadata headers p).getText key = (headers.lookup key).map String.ofList := by
  rw [Receipts.metadata, Jsonb.getText, Receipts.lookup_mergeFields, Receipts.lookup_headerFields,
    lookup_eq_none_of_written (provenance_written p) h, Option.none_or]
  cases headers.lookup key <;> rfl

theorem RowOf.getText {message : BusMessage} {payload : Jsonb} (h : RowOf server message id row)
    (hpayload : message.payload = some payload) (hobject : payload.isObject = true) {key : String}
    (hkey : ∀ messageId, (Receipts.collisionFields messageId id).lookup key = none) :
    row.payload.getText key = payload.getText key := by
  obtain ⟨payload', hmessage, hrow⟩ := h.payload
  obtain rfl := Option.some.inj (hmessage.symm.trans hpayload)
  rcases hrow with hrow | ⟨messageId, hrow⟩
  · rw [hrow]
  · rw [hrow, getText_concat hobject (hkey messageId)]

/-- The message of a call that is made is the call's. -/
theorem args_ok {call : FileCall} {args : ProjectFileArgs} (h : call.args casts = some args) :
    args.path = some call.path ∧ args.message.messageId = some call.messageId ∧ args.message.sender = some call.sender ∧
      args.message.createdAt = casts.timestamptz call.createdAt ∧ args.message.audience = some (call.audience.map some) ∧
      args.message.requiresAck = some call.requiresAck ∧ args.message.contentHash = some call.contentHash ∧
      args.message.idempotencyKey = some call.idempotencyKey ∧ args.message.payload = some call.payload := by
  obtain ⟨batchId, -, h⟩ := Option.bind_eq_some_iff.mp h
  obtain ⟨claimToken, -, h⟩ := Option.bind_eq_some_iff.mp h
  obtain ⟨createdAt, hcreatedAt, h⟩ := Option.bind_eq_some_iff.mp h
  obtain rfl := Option.some.inj h
  exact ⟨rfl, rfl, rfl, hcreatedAt.symm, rfl, rfl, rfl, rfl, rfl⟩

/-- The row of a guarded document says what the guard read of it. -/
theorem RowOf.records {batch : ProjectionBatch} {call : FileCall} {args : ProjectFileArgs} {headers : Headers} {journal : BatchRow}
    {path : String} (h : RowOf server args.message id row) (hargs : call.args casts = some args)
    (hbound : Bound server journal path args.message) (hreads : Reads engine batch source parsed headers call)
    (hwriter : aliasIdentity (lower parsed.writer) = batch.laneIdentity) (hsame : parsed.headers = unwrapped headers) :
    Records casts engine source parsed id row := by
  obtain ⟨-, hmessageId, hsender, hcreatedAt, haudience, hack, hhash, hkey, hpayload⟩ := args_ok hargs
  obtain ⟨p, hmetadata, hlane, -, -, -, hbody, -, hclosed⟩ := hreads.payload
  rw [hmetadata] at hpayload
  have hidentity : journal.identityId = batch.laneIdentity := by
    obtain ⟨payload, hbound, -, hadmitted, -⟩ := hbound.payload
    obtain rfl := Option.some.inj (hbound.symm.trans hpayload)
    rw [metadata_provenance rfl, hlane] at hadmitted
    exact (Option.some.inj hadmitted).symm
  have hcontent : row.contentHash.text = parsed.fullSha256 := by
    rw [← hreads.contentHash]
    exact Option.some.inj (h.contentHash.symm.trans hhash)
  refine ⟨?_, ?_, ⟨call.createdAt, hreads.createdAt, hcreatedAt.symm.trans h.createdAt⟩, ?_, ?_, ?_, ?_, ?_, ?_⟩
  · obtain ⟨messageId, hid, hmem⟩ := h.messageId
    obtain rfl := Option.some.inj (hid.symm.trans hmessageId)
    rwa [← hreads.messageId, ← hcontent]
  · obtain ⟨sender, hgiven, hrow⟩ := h.sender
    obtain ⟨sender', hgiven', hlower⟩ := hbound.sender
    obtain rfl := Option.some.inj (hgiven.symm.trans hgiven')
    rw [hrow, hlower, hidentity, hwriter]
  · rw [h.audience, haudience, Option.getD_some, hreads.audience]
  · rw [h.requiresAck, hack, Option.getD_some, hreads.requiresAck]
  · rw [← hreads.idempotencyKey]
    exact Option.some.inj (h.idempotencyKey.symm.trans hkey)
  · intro key value hvalue hwritten
    rw [hsame, lookup_unwrapped] at hvalue
    obtain ⟨raw, hraw, rfl⟩ := Option.map_eq_some_iff.mp hvalue
    refine ⟨raw, ?_, rfl⟩
    rw [h.getText hpayload rfl fun messageId => lookup_eq_none_of_written (collisionFields_written messageId id) hwritten,
      metadata_header hwritten, hraw, Option.map_some]
  · rw [h.getText hpayload rfl fun _ => rfl, metadata_provenance rfl, hbody]
    rfl
  · rw [h.getText hpayload rfl fun _ => rfl, metadata_provenance rfl, hclosed]
    cases parsed.conversationClosedBySender <;> rfl

/-- Casts of two identifiers, and of any time. -/
def guardedCasts : Casts := ⟨fun text => if text = "batch" then some 1 else if text = "token" then some 2 else none, fun _ => some (0 : ℤ)⟩

/-- A lane is seeded and cut, a batch claimed, and its file projected. -/
def guardedRequests : List (Request × ℤ) := [
  (.other (.seedLane (some "yin") (some "bus/yin-v1") none) (by simp), 0),
  (.other (.setControlCut (some "yin") (some "bus/yin-v1") (some sampleSha) (some sampleSha)) (by simp), 0),
  (.other (.claimBatch 1 2 {
    identityId := some "yin", branch := some "bus/yin-v1", expectedProjectedHeadSha := none, targetHeadSha := some sampleSha
    controlSha := some sampleSha, topologySha := some sampleSha, files := some [some "messages/yin-1.md"]
    claimOwner := some "projector", leaseSeconds := some 600 }) (by simp), 0),
  (.file guardedBatch guardedFile, 0)]

/-- The world after a request. -/
def serve (world : World Unit) (request : Request × ℤ) : World Unit :=
  match request.1.call guardedCasts guardedEngine guardedDigests with
  | none => world
  | some call => ⟨call.after Projection.busServer request.2 world.db, request.2⟩

def guardedWorld : World Unit := guardedRequests.foldl serve ⟨Projection.busTables, 0⟩

theorem served_serve (world : World Unit) (request : Request × ℤ) :
    Served guardedCasts guardedEngine guardedDigests Projection.busServer world request (serve world request) := by
  rw [Served, serve]
  cases request.1.call guardedCasts guardedEngine guardedDigests <;> rfl

theorem run_serve (requests : List (Request × ℤ)) (world : World Unit) :
    Run (Served guardedCasts guardedEngine guardedDigests Projection.busServer) world requests (requests.foldl serve world) := by
  induction requests generalizing world with
  | nil => exact .nil
  | cons request requests ih => exact .cons (served_serve world request) (ih _)

end CcbCore.Edge
