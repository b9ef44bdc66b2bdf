import CcbCore.Library.Run
import CcbCore.Projection.FunctionSpec

/-!
# Every content of a message id is kept

Runs of `radar.project_bus_message_v1` alone. A content that a message id has already
goes under the id qualified by the content's hash, and qualified ids are message ids
like any other. A content is `Placed` under an id when the function finds it there;
as rows stay as they are, what is placed stays placed. So every content that a call
was given is there ever after, and the same call finds it (`bus_contents_preserved`).
-/

namespace CcbCore.Projection

open CcbCore.Postgres CcbCore.Raising CcbCore.Sql

variable {Other : Type} {server : Server Other} {now : ℤ} {db db' : Database Other}
  {messages messages' : Table String MessageRow} {messageId qualified : String} {contentHash : Hex 64}

/-! ### Calls -/

/-- A call of `project_bus_message_v1`, and the time its transaction started. -/
structure BusCall where
  now : ℤ
  message : BusMessage

/-- The call, as one transaction. -/
def BusCall.run (server : Server Other) (call : BusCall) : Plpgsql Other String :=
  transaction (projectBusMessageV1 server call.now call.message)

/-- The tables after a call that returns or raises. -/
def BusCall.after (server : Server Other) (call : BusCall) (db : Database Other) : Database Other :=
  match (call.run server).run db with
  | .ok _ db' => db'
  | .error _ db' => db'

/-- A call is made. -/
def BusStep (server : Server Other) (db : Database Other) (call : BusCall) (db' : Database Other) : Prop :=
  db' = call.after server db

/-! ### Where a content is -/

/-- The ids that a content of a message id may have. -/
def storedIds (messageId contentHash : String) : List String :=
  [messageId, messageId ++ "~" ++ substringTo 16 contentHash, messageId ++ "~" ++ contentHash]

/-- Rows stay as they are. -/
def Kept (messages messages' : Table String MessageRow) : Prop :=
  ∀ id row, messages.lookup id = some row → messages'.lookup id = some row

/-- The function finds the content under the message id, or under the id qualified. -/
def Placed (messages : Table String MessageRow) (messageId : String) (contentHash : Hex 64) : Prop :=
  ∃ row, messages.lookup messageId = some row ∧
    (row.contentHash = contentHash ∨ ∃ qualified, qualify messages messageId contentHash = .present qualified)

/-- All rows are the Bus's. -/
def AllBus (messages : Table String MessageRow) : Prop :=
  ∀ id row, messages.lookup id = some row → row.domain = "chat_bus"

theorem qualify_present_mem (h : qualify messages messageId contentHash = .present qualified) :
    qualified ∈ storedIds messageId contentHash.text := by
  unfold qualify at h
  simp only at h
  split at h
  · cases h
  · split at h
    · cases h
      simp [storedIds]
    · split at h
      · cases h
      · split at h
        · cases h
          simp [storedIds]
        · cases h

theorem qualify_present_kept (hkept : Kept messages messages')
    (h : qualify messages messageId contentHash = .present qualified) :
    qualify messages' messageId contentHash = .present qualified := by
  unfold qualify at h ⊢
  simp only at h ⊢
  split at h
  · cases h
  · next row hshort =>
    rw [hkept _ _ hshort]
    simp only
    split at h
    · next heq =>
      rw [if_pos heq]
      exact h
    · next hne =>
      rw [if_neg hne]
      split at h
      · cases h
      · next row' hlong =>
        rw [hkept _ _ hlong]
        exact h

/-- A content is found where it is put. -/
theorem qualify_new_put {row : MessageRow} (h : qualify messages messageId contentHash = .new qualified)
    (hrow : row.contentHash = contentHash) :
    qualify (messages.insert qualified row) messageId contentHash = .present qualified := by
  unfold qualify at h ⊢
  simp only at h ⊢
  split at h
  · cases h
    rw [AList.lookup_insert]
    exact if_pos hrow
  · next other hshort =>
    split at h
    · cases h
    · next hother =>
      split at h
      · next hlong =>
        cases h
        have hne : messageId ++ "~" ++ substringTo 16 contentHash.text ≠ messageId ++ "~" ++ contentHash.text := by
          intro heq
          rw [heq, hlong] at hshort
          cases hshort
        rw [AList.lookup_insert_ne hne, hshort, AList.lookup_insert]
        simp only
        rw [if_neg hother, if_pos hrow]
      · split at h
        · cases h
        · cases h

theorem Placed.kept (hkept : Kept messages messages') (h : Placed messages messageId contentHash) :
    Placed messages' messageId contentHash := by
  obtain ⟨row, hrow, hcontent⟩ := h
  refine ⟨row, hkept _ _ hrow, ?_⟩
  rcases hcontent with heq | ⟨qualified, hpresent⟩
  · exact .inl heq
  · exact .inr ⟨qualified, qualify_present_kept hkept hpresent⟩

theorem Placed.stored (h : Placed messages messageId contentHash) :
    ∃ id ∈ storedIds messageId contentHash.text, ∃ row, messages.lookup id = some row ∧ row.contentHash = contentHash := by
  obtain ⟨row, hrow, heq | ⟨qualified, hpresent⟩⟩ := h
  · exact ⟨messageId, by simp [storedIds], row, hrow, heq⟩
  · obtain ⟨row', hrow', heq⟩ := qualify_present hpresent
    exact ⟨qualified, qualify_present_mem hpresent, row', hrow', heq⟩

/-! ### What a call does -/

theorem insertMessage_puts {message : BusMessage} {id sender : String} {createdAt : Timestamptz} {payload : Jsonb} {u : PUnit}
    (h : (insertMessage server now message id sender createdAt contentHash payload).run db = .ok u db') :
    db.messages.lookup id = none ∧ ∃ row : MessageRow, row.contentHash = contentHash ∧ row.domain = "chat_bus" ∧
      db'.messages = db.messages.insert id row := by
  simp only [insertMessage, run_get_bind, run_required_bind, Table.insertRow_eq_some] at h
  obtain ⟨key, -, messages, ⟨hnew, rfl⟩, h⟩ := h
  split at h
  · exact absurd h run_throw_ok
  · obtain rfl := run_set_ok.mp h
    exact ⟨hnew, _, rfl, rfl, rfl⟩

theorem kept_insert {id : String} {row : MessageRow} (hnew : messages.lookup id = none) :
    Kept messages (messages.insert id row) := by
  intro id' row' hrow'
  have hne : id' ≠ id := by
    rintro rfl
    rw [hnew] at hrow'
    cases hrow'
  rw [AList.lookup_insert_ne hne, hrow']

theorem AllBus.insert {id : String} {row : MessageRow} (h : AllBus messages) (hrow : row.domain = "chat_bus") :
    AllBus (messages.insert id row) := by
  intro id' row' hrow'
  rcases Table.lookup_insert_eq_some.mp hrow' with ⟨-, rfl⟩ | ⟨-, hold⟩
  · exact hrow
  · exact h _ _ hold

/-- A call that returns leaves its content placed, and all rows as they were. -/
theorem projectBusMessageV1_places {message : BusMessage} {result : String} (hbus : AllBus db.messages)
    (h : (projectBusMessageV1 server now message).run db = .ok result db') :
    ∃ messageId contentHash, message.messageId = some messageId ∧ message.contentHash = some contentHash.text ∧
      Placed db'.messages messageId contentHash ∧ AllBus db'.messages ∧ Kept db.messages db'.messages := by
  simp only [projectBusMessageV1, run_get_bind, run_required_bind] at h
  obtain ⟨messageId, hid, sender, -, createdAt, -, contentHash, hhash, payload, -, h⟩ := h
  have hid' : message.messageId = some messageId := by
    unfold nonBlank at hid
    split at hid
    · cases hid
    · exact hid
  obtain ⟨text, htext, hchecked⟩ := Option.bind_eq_some_iff.mp hhash
  obtain rfl := hex?_eq_some.mp hchecked
  refine ⟨messageId, contentHash, hid', htext, ?_⟩
  split at h
  · obtain ⟨_, _, hinsert, -, rfl⟩ := run_bind_ok.mp h
    obtain ⟨hnew, row, hrow, hdomain, hput⟩ := insertMessage_puts hinsert
    rw [hput]
    exact ⟨⟨row, AList.lookup_insert _, .inl hrow⟩, hbus.insert hdomain, kept_insert hnew⟩
  · next existing hexisting =>
    split at h
    · next heq =>
      obtain ⟨-, rfl⟩ := run_pure_ok.mp h
      exact ⟨⟨existing, hexisting, .inl heq.1⟩, hbus, fun _ _ hrow => hrow⟩
    · split at h
      · next qualified hpresent =>
        obtain ⟨-, rfl⟩ := run_pure_ok.mp h
        exact ⟨⟨existing, hexisting, .inr ⟨qualified, hpresent⟩⟩, hbus, fun _ _ hrow => hrow⟩
      · exact absurd h run_throw_ok
      · next qualified hfree =>
        obtain ⟨_, mid, hrecord, hrest⟩ := run_bind_ok.mp h
        obtain ⟨_, _, hinsert, -, rfl⟩ := run_bind_ok.mp hrest
        obtain ⟨hsame, -⟩ := recordConflict_ok hrecord
        obtain ⟨hnew, row, hrow, hdomain, hput⟩ := insertMessage_puts hinsert
        rw [hsame] at hnew hput
        rw [hput]
        refine ⟨⟨existing, kept_insert hnew _ _ hexisting, .inr ⟨qualified, qualify_new_put hfree hrow⟩⟩,
          hbus.insert hdomain, kept_insert hnew⟩

/-- A call of a content that is placed changes nothing. -/
theorem projectBusMessageV1_again {message : BusMessage} {before before' : Database Other} {result : String} (later : ℤ)
    (hfirst : (projectBusMessageV1 server now message).run before = .ok result before')
    (hid : message.messageId = some messageId) (hhash : message.contentHash = some contentHash.text)
    (hbus : AllBus db.messages) (hplaced : Placed db.messages messageId contentHash) :
    ∃ result', (projectBusMessageV1 server later message).run db = .ok result' db ∧
      (result' = "IDEMPOTENT" ∨ ∃ id, result' = "CONFLICT_IDEMPOTENT:" ++ id) := by
  -- The checks of the arguments passed, so they pass again.
  simp only [projectBusMessageV1, run_get_bind, run_required_bind] at hfirst
  obtain ⟨messageId', hid', sender, hsender, createdAt, htime, contentHash', hhash', payload, hpayload, -⟩ := hfirst
  obtain rfl : messageId' = messageId := by
    rw [nonBlank, hid] at hid'
    split at hid'
    · cases hid'
    · exact (Option.some.inj hid').symm
  obtain rfl : contentHash' = contentHash := by
    rw [hhash, Option.bind_some, hex?_eq_some.mpr rfl] at hhash'
    exact (Option.some.inj hhash').symm
  obtain ⟨existing, hexisting, hcontent⟩ := hplaced
  simp only [projectBusMessageV1, hid', hsender, htime, hhash', hpayload, required, pure_bind, run_get_bind, hexisting]
  by_cases hsame : existing.contentHash = contentHash'
  · refine ⟨"IDEMPOTENT", ?_, .inl rfl⟩
    rw [if_pos ⟨hsame, hbus _ _ hexisting⟩]
    rfl
  · obtain ⟨qualified, hpresent⟩ := hcontent.resolve_left hsame
    refine ⟨_, ?_, .inr ⟨qualified, rfl⟩⟩
    rw [if_neg fun h => hsame h.1, hpresent]
    rfl

/-! ### Runs -/

theorem BusStep.bus_kept {call : BusCall} (hbus : AllBus db.messages) (h : BusStep server db call db') :
    AllBus db'.messages ∧ Kept db.messages db'.messages := by
  rw [BusStep, BusCall.after] at h
  cases hrun : (call.run server).run db with
  | ok result after =>
    obtain rfl : db' = after := by rw [h, hrun]
    obtain ⟨_, _, -, -, -, hbus', hkept⟩ := projectBusMessageV1_places hbus (run_transaction_ok.mp hrun)
    exact ⟨hbus', hkept⟩
  | error e after =>
    obtain rfl : db' = after := by rw [h, hrun]
    obtain ⟨rfl, -⟩ := run_transaction_error.mp hrun
    exact ⟨hbus, fun _ _ hrow => hrow⟩

theorem bus_run {calls : List BusCall} (hbus : AllBus db.messages) (h : Run (BusStep server) db calls db') :
    AllBus db'.messages ∧ Kept db.messages db'.messages := by
  induction h with
  | nil => exact ⟨hbus, fun _ _ hrow => hrow⟩
  | snoc _ hstep ih =>
    obtain ⟨hbus', hkept'⟩ := hstep.bus_kept ih.1
    exact ⟨hbus', fun id row hrow => hkept' id row (ih.2 id row hrow)⟩

/-- **Every content of a message id is kept.** In whatever order calls come: no call changes
a row that is there; a call that returns leaves a row with its content under its message id, or
under the id qualified by the hash or its first half; and after any other calls the same call
returns `IDEMPOTENT` or `CONFLICT_IDEMPOTENT` and changes no table. -/
theorem bus_contents_preserved (first : Database Other) (hfirst : first.messages = ∅) (past : List BusCall)
    (hpast : Run (BusStep server) first past db) (call : BusCall) :
    (∀ after, BusStep server db call after → Kept db.messages after.messages) ∧
    ∀ result after, (call.run server).run db = .ok result after →
      ∃ messageId contentHash, call.message.messageId = some messageId ∧ call.message.contentHash = some contentHash ∧
        (∃ id ∈ storedIds messageId contentHash, ∃ row, after.messages.lookup id = some row ∧
          row.domain = "chat_bus" ∧ row.contentHash.text = contentHash) ∧
        ∀ calls later, Run (BusStep server) after calls later → ∀ now, ∃ result',
          (BusCall.run server ⟨now, call.message⟩).run later = .ok result' later ∧
            (result' = "IDEMPOTENT" ∨ ∃ id, result' = "CONFLICT_IDEMPOTENT:" ++ id) := by
  have hbus : AllBus db.messages := (bus_run (fun id row hrow => by simp [hfirst] at hrow) hpast).1
  refine ⟨fun after h => (h.bus_kept hbus).2, fun result after h => ?_⟩
  rw [BusCall.run, run_transaction_ok] at h
  obtain ⟨messageId, contentHash, hid, hhash, hplaced, hbus', -⟩ := projectBusMessageV1_places hbus h
  obtain ⟨id, hmem, row, hrow, heq⟩ := hplaced.stored
  refine ⟨messageId, contentHash.text, hid, hhash, ⟨id, hmem, row, hrow, hbus' _ _ hrow, by rw [heq]⟩,
    fun calls later hlater now => ?_⟩
  obtain ⟨hbus'', hkept⟩ := bus_run hbus' hlater
  obtain ⟨result', hagain, hcode⟩ := projectBusMessageV1_again now h hid hhash hbus'' (hplaced.kept hkept)
  exact ⟨result', run_transaction_ok.mpr hagain, hcode⟩

/-- Two contents of one message id. -/
def busSample (digit : Char) : BusMessage where
  messageId := some "m-1"
  createdAt := some (0 : ℤ)
  sender := some "yin"
  audience := none
  requiresAck := none
  sourceRefs := none
  contentHash := some (String.ofList (List.replicate 64 digit))
  idempotencyKey := some "k"
  payload := some (.object [])

/-- A server whose triggers do nothing, and its tables when they are empty. -/
def busServer : Server Unit := ⟨id, fun _ => "", fun _ tables => .ok tables⟩

def busTables : Database Unit := ⟨∅, ∅, ∅, ∅, [], ()⟩

/-- The tables with the first content, and with both. -/
def oneContent : Database Unit := (BusCall.mk 1 (busSample 'a')).after busServer busTables

def twoContents : Database Unit := (BusCall.mk 2 (busSample 'b')).after busServer oneContent

theorem bus_contents_preserved_sample : ∃ result',
    (BusCall.run busServer ⟨3, busSample 'b'⟩).run twoContents = .ok result' twoContents ∧
      (result' = "IDEMPOTENT" ∨ ∃ id, result' = "CONFLICT_IDEMPOTENT:" ++ id) := by
  have hsecond : (BusCall.run busServer ⟨2, busSample 'b'⟩).run oneContent =
      .ok "CONFLICT_INSERTED:m-1~bbbbbbbbbbbbbbbb" twoContents := rfl
  obtain ⟨_, _, -, -, -, hagain⟩ := (bus_contents_preserved busTables rfl [⟨1, busSample 'a'⟩]
    (Run.single rfl) ⟨2, busSample 'b'⟩).2 _ _ hsecond
  exact hagain [] twoContents .nil 3

end CcbCore.Projection
