import CcbCore.Radar.Envelope

/-!
# Dead letters

`DeadLetterStore.record` of `src/radar/dlq.py`, and what the runtime gives it: a raw
mapping made safe for JSON, under the mapping's own message id or one made of its hash.
SQLite takes a text only if it encodes. A value that `json.loads` can give is made safe
unless it is nested too deep (`safeValue_json`), and nothing else than a text that does
not encode is in the way of the record then (`record_ok`).
-/

namespace CcbCore.Radar

open CcbCore.CodePoints CcbCore.Postgres

variable {Opaque : Type}

inductive Applicability where
  | unknown
  | applicable
  | notApplicable
  deriving DecidableEq, Repr

inductive ReplayState where
  | pending
  | replayed
  | discarded
  deriving DecidableEq, Repr

/-- A row of `radar_dead_letters`. -/
structure DeadLetterRow where
  itemId : ℕ
  messageId : Str
  failureStage : Str
  failureCode : Str
  envelopeJson : Str
  diagnostic : Str
  reasonCategory : Str
  sourceLocator : Option Str
  applicability : Applicability
  replayState : ReplayState
  retryCount : ℕ

structure DeadLetterStore where
  rows : List DeadLetterRow
  /-- The last id that `AUTOINCREMENT` gave. -/
  lastItemId : ℕ

/-- The arguments of `record`. -/
structure Evidence (Opaque : Type) where
  messageId : Str
  failureStage : Str
  failureCode : Str
  envelope : Mapping Opaque
  diagnostic : Str
  reasonCategory : Str
  sourceLocator : Option Str

/-- `json.dumps(envelope, sort_keys=True, separators=(",", ":"))`. -/
def evidenceFormat : Format := ⟨lit ",", lit ":", true, false⟩

/-- The code of the first argument that is blank. -/
def Evidence.refusal (evidence : Evidence Opaque) : Option String :=
  if isBlank evidence.messageId = true then some "MESSAGE_ID_REQUIRED"
  else if isBlank evidence.failureStage = true then some "FAILURE_STAGE_REQUIRED"
  else if isBlank evidence.failureCode = true then some "FAILURE_CODE_REQUIRED"
  else if isBlank evidence.diagnostic = true then some "DIAGNOSTIC_REQUIRED"
  else if isBlank evidence.reasonCategory = true then some "REASON_CATEGORY_REQUIRED"
  else if evidence.sourceLocator.any isBlank = true then some "INVALID_SOURCE_LOCATOR"
  else none

/-- The row that `record` inserts. -/
def Evidence.row (py : Interpreter Opaque) (evidence : Evidence Opaque) (itemId : ℕ) (envelopeJson : Str) : DeadLetterRow where
  itemId := itemId
  messageId := strip evidence.messageId
  failureStage := strip evidence.failureStage
  failureCode := strip evidence.failureCode
  envelopeJson := envelopeJson
  diagnostic := strip evidence.diagnostic
  reasonCategory := py.upper (strip evidence.reasonCategory)
  sourceLocator := evidence.sourceLocator.map strip
  applicability := .unknown
  replayState := .pending
  retryCount := 0

/-- The texts that the insert binds. -/
def DeadLetterRow.bound (row : DeadLetterRow) : List Str :=
  [row.messageId, row.failureStage, row.failureCode, row.envelopeJson, row.diagnostic, row.reasonCategory] ++
    row.sourceLocator.toList

/-- `record`: the id of the new item, and the store with it. -/
def DeadLetterStore.record (py : Interpreter Opaque) (store : DeadLetterStore) (evidence : Evidence Opaque) :
    Except Raised (ℕ × DeadLetterStore) :=
  match evidence.refusal with
  | some code => .error (.deadLetterError code)
  | none =>
    match dumps py evidenceFormat (.object evidence.envelope) with
    | .error e =>
      if e.isTypeOrValueError = true then .error (.deadLetterError "ENVELOPE_NOT_JSON_SERIALIZABLE") else .error e
    | .ok envelopeJson =>
      let row := evidence.row py (store.lastItemId + 1) envelopeJson
      if row.bound.all encodable = true then .ok (row.itemId, ⟨store.rows ++ [row], row.itemId⟩)
      else .error .unicodeEncodeError

/-! ### Evidence -/

mutual

/-- `_safe_dlq_value`. -/
def safeValue (py : Interpreter Opaque) : Value Opaque → Except Raised (Value Opaque)
  | .array items =>
    match safeItems py items with
    | .error e => .error e
    | .ok items => .ok (.array items)
  | .object fields =>
    match collect (sortFields (safeFields py fields)) with
    | .error e => .error e
    | .ok fields => .ok (.object fields)
  | .other o => py.safeOther o
  | .null => .ok .null
  | .bool b => .ok (.bool b)
  | .int n => .ok (.int n)
  | .float text => .ok (.float text)
  | .str text => .ok (.str text)

@[inherit_doc safeValue]
def safeItems (py : Interpreter Opaque) : List (Value Opaque) → Except Raised (List (Value Opaque))
  | [] => .ok []
  | item :: items =>
    match safeValue py item with
    | .error e => .error e
    | .ok item =>
      match safeItems py items with
      | .error e => .error e
      | .ok items => .ok (item :: items)

@[inherit_doc safeValue]
def safeFields (py : Interpreter Opaque) : Mapping Opaque → List (Str × Except Raised (Value Opaque))
  | [] => []
  | (key, value) :: fields => (key, safeValue py value) :: safeFields py fields

end

/-- A call of `_safe_dlq_value`, which recurses. -/
def walk (py : Interpreter Opaque) (value : Value Opaque) : Except Raised (Value Opaque) :=
  if py.walks value = true then safeValue py value else .error .recursionError

/-- `_safe_dlq_envelope`. -/
def safeDlqEnvelope (py : Interpreter Opaque) (raw : Mapping Opaque) : Except Raised (Mapping Opaque) :=
  collect (raw.map fun field => (field.1, walk py field.2))

/-- `json.dumps(raw, sort_keys=True, separators=(",", ":"), ensure_ascii=False, default=…)`. -/
def messageIdFormat : Format := ⟨lit ",", lit ":", false, true⟩

/-- `_raw_message_id`. -/
def rawMessageId (py : Interpreter Opaque) (raw : Mapping Opaque) : Str :=
  match text? (get raw "message_id") with
  | some messageId => messageId
  | none =>
    let canonical :=
      match dumps py messageIdFormat (.object raw) >>= encodeText with
      | .ok bytes => bytes
      | .error _ => py.reprTypes raw
    lit (String.ofList ("radar-dlq-".toList ++ (py.sha256 canonical).text.toList.take 16))

/-! ### Evidence that can be recorded -/

mutual

/-- A value with its fields sorted. -/
def Value.sorted : Value Opaque → Value Opaque
  | .array items => .array (Value.sortedItems items)
  | .object fields => .object (sortFields (Value.sortedFields fields))
  | value => value

@[inherit_doc Value.sorted]
def Value.sortedItems : List (Value Opaque) → List (Value Opaque)
  | [] => []
  | item :: items => item.sorted :: Value.sortedItems items

@[inherit_doc Value.sorted]
def Value.sortedFields : Mapping Opaque → Mapping Opaque
  | [] => []
  | (key, value) :: fields => (key, value.sorted) :: Value.sortedFields fields

end

section Json

variable {py : Interpreter Opaque}

mutual

theorem safeValue_json : ∀ value : Value Opaque, value.isJson = true → safeValue py value = .ok value.sorted
  | .null, _ => rfl
  | .bool _, _ => rfl
  | .int _, _ => rfl
  | .float _, _ => rfl
  | .str _, _ => rfl
  | .array items, h => by rw [safeValue, safeItems_json items h, Value.sorted]
  | .object fields, h => by rw [safeValue, safeFields_json fields h, collect_sortFields_returned, Value.sorted]
  | .other o, h => by simp [Value.isJson, Value.all] at h

theorem safeItems_json : ∀ items : List (Value Opaque), Value.allItems prints (fun _ => true) (fun _ => false) items = true →
    safeItems py items = .ok (Value.sortedItems items)
  | [], _ => rfl
  | item :: items, h => by
    rw [Value.allItems, Bool.and_eq_true] at h
    rw [safeItems, safeValue_json item h.1, safeItems_json items h.2, Value.sortedItems]

theorem safeFields_json : ∀ fields : Mapping Opaque, Value.allFields prints (fun _ => true) (fun _ => false) fields = true →
    safeFields py fields = returned (Value.sortedFields fields)
  | [], _ => rfl
  | (key, value) :: fields, h => by
    rw [Value.allFields, Bool.true_and, Bool.and_eq_true] at h
    rw [safeFields, safeValue_json value h.1, safeFields_json fields h.2, Value.sortedFields]
    rfl

end

theorem allFields_eq (onInt : ℤ → Bool) (onText : Str → Bool) (onOther : Opaque → Bool) (fields : Mapping Opaque) :
    Value.allFields onInt onText onOther fields = fields.all fun field => onText field.1 && field.2.all onInt onText onOther := by
  induction fields with
  | nil => rfl
  | cons field fields ih =>
    obtain ⟨key, value⟩ := field
    rw [Value.allFields, ih, List.all_cons]

mutual

theorem Value.isJson_sorted : ∀ value : Value Opaque, value.sorted.isJson = value.isJson
  | .null => rfl
  | .bool _ => rfl
  | .int _ => rfl
  | .float _ => rfl
  | .str _ => rfl
  | .array items => by
    rw [Value.sorted, Value.isJson, Value.isJson, Value.all, Value.all, Value.isJson_sortedItems items]
  | .object fields => by
    rw [Value.sorted, Value.isJson, Value.isJson, Value.all, Value.all, allFields_eq, all_sortFields]
    exact (allFields_eq _ _ _ _).symm.trans (Value.isJson_sortedFields fields)
  | .other o => rfl

theorem Value.isJson_sortedItems : ∀ items : List (Value Opaque),
    Value.allItems prints (fun _ => true) (fun _ => false) (Value.sortedItems items) =
      Value.allItems prints (fun _ => true) (fun _ => false) items
  | [] => rfl
  | item :: items => by
    rw [Value.sortedItems, Value.allItems, Value.allItems, Value.isJson_sortedItems items]
    exact congrArg (· && _) (Value.isJson_sorted item)

theorem Value.isJson_sortedFields : ∀ fields : Mapping Opaque,
    Value.allFields prints (fun _ => true) (fun _ => false) (Value.sortedFields fields) =
      Value.allFields prints (fun _ => true) (fun _ => false) fields
  | [] => rfl
  | (key, value) :: fields => by
    rw [Value.sortedFields, Value.allFields, Value.allFields, Value.isJson_sortedFields fields]
    exact congrArg (fun b => (true && b) && _) (Value.isJson_sorted value)

end

/-- A mapping of values that `json.loads` can give. -/
def IsJson (raw : Mapping Opaque) : Prop := ∀ field ∈ raw, field.2.isJson = true

theorem IsJson.object {raw : Mapping Opaque} (h : IsJson raw) : (Value.object raw).isJson = true := by
  rw [Value.isJson, Value.all, allFields_eq, List.all_eq_true]
  exact fun field hfield => h field hfield

theorem IsJson.get {raw : Mapping Opaque} (h : IsJson raw) (name : String) : (get raw name).isJson = true := by
  unfold Radar.get field
  cases hlookup : raw.lookup (lit name) with
  | none => rfl
  | some value =>
    obtain ⟨before, after, heq, -⟩ := List.lookup_eq_some_iff.mp hlookup
    exact h (lit name, value) (by simp [heq])

/-- The evidence that a mapping is, its fields sorted but for the first ones. -/
def evidenceMapping (raw : Mapping Opaque) : Mapping Opaque := raw.map fun field => (field.1, field.2.sorted)

theorem IsJson.evidenceMapping {raw : Mapping Opaque} (h : IsJson raw) : IsJson (evidenceMapping raw) := by
  intro field hfield
  obtain ⟨field', hfield', rfl⟩ := List.mem_map.mp hfield
  exact (Value.isJson_sorted field'.2).trans (h field' hfield')

/-- A mapping is made safe if the stack takes all its values. -/
theorem safeDlqEnvelope_json (py : Interpreter Opaque) {raw : Mapping Opaque} (h : IsJson raw) :
    (safeDlqEnvelope py raw = .ok (evidenceMapping raw) ∧ ∀ field ∈ raw, py.walks field.2 = true) ∨
    (safeDlqEnvelope py raw = .error .recursionError ∧ ∃ field ∈ raw, py.walks field.2 = false) := by
  induction raw with
  | nil => exact .inl ⟨rfl, nofun⟩
  | cons field raw ih =>
    simp only [safeDlqEnvelope, List.map_cons, collect] at ih ⊢
    cases hwalk : py.walks field.2 with
    | false =>
      refine .inr ⟨?_, field, by simp, hwalk⟩
      simp [walk, hwalk]
    | true =>
      have hvalue : walk py field.2 = .ok field.2.sorted := by
        rw [walk, if_pos hwalk, safeValue_json field.2 (h field (by simp))]
      rw [hvalue]
      rcases ih fun other hother => h other (List.mem_cons_of_mem field hother) with ⟨hsafe, hall⟩ | ⟨hsafe, other, hother, hnot⟩
      · rw [hsafe]
        exact .inl ⟨rfl, List.forall_mem_cons.mpr ⟨hwalk, hall⟩⟩
      · rw [hsafe]
        exact .inr ⟨rfl, other, List.mem_cons_of_mem field hother, hnot⟩

/-- What the insert binds of evidence besides its envelope encodes. -/
structure Evidence.Encodable (py : Interpreter Opaque) (evidence : Evidence Opaque) : Prop where
  messageId : encodable evidence.messageId = true
  failureStage : encodable evidence.failureStage = true
  failureCode : encodable evidence.failureCode = true
  diagnostic : encodable evidence.diagnostic = true
  reasonCategory : encodable (py.upper (strip evidence.reasonCategory)) = true
  sourceLocator : ∀ locator ∈ evidence.sourceLocator, encodable locator = true

theorem Evidence.bound_row {evidence : Evidence Opaque} (itemId : ℕ) {envelopeJson : Str}
    (hjson : encodable envelopeJson = true) :
    (evidence.row py itemId envelopeJson).bound.all encodable = true ↔ evidence.Encodable py := by
  simp only [DeadLetterRow.bound, Evidence.row, List.all_append, List.all_cons, List.all_nil, Bool.and_true, Bool.and_eq_true,
    encodable_strip, hjson]
  constructor
  · rintro ⟨⟨hid, hstage, hcode, -, hdiagnostic, hcategory⟩, hlocator⟩
    refine ⟨hid, hstage, hcode, hdiagnostic, hcategory, fun locator hmem => ?_⟩
    simpa [Option.mem_def.mp hmem, encodable_strip] using hlocator
  · rintro ⟨hid, hstage, hcode, hdiagnostic, hcategory, hlocator⟩
    refine ⟨⟨hid, hstage, hcode, trivial, hdiagnostic, hcategory⟩, ?_⟩
    cases hsome : evidence.sourceLocator with
    | none => rfl
    | some locator => simpa [encodable_strip] using hlocator locator hsome

/-- Evidence in JSON is recorded if no argument is blank, the stack takes its text, and the
texts that the insert binds encode. -/
theorem record_ok (py : Interpreter Opaque) (store : DeadLetterStore) {evidence : Evidence Opaque} (hjson : IsJson evidence.envelope) :
    (∃ recorded, store.record py evidence = .ok recorded) ↔
      evidence.refusal = none ∧ py.encodes (.object evidence.envelope) = true ∧ evidence.Encodable py := by
  unfold DeadLetterStore.record
  cases hrefusal : evidence.refusal with
  | some code => simp
  | none =>
    rcases dumps_json py evidenceFormat ⟨encodable_lit _, encodable_lit _⟩ hjson.object with
      ⟨hstack, hdumps⟩ | ⟨hstack, envelopeJson, hdumps, henc⟩
    · simp [hdumps, hstack, Raised.isTypeOrValueError]
    · simp only [hdumps, hstack, true_and]
      rw [← Evidence.bound_row (store.lastItemId + 1) henc]
      split
      · next hbound => simp [hbound]
      · next hbound => simp [hbound]

end Json

end CcbCore.Radar
