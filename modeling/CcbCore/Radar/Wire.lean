import CcbCore.Radar.Delivery
import CcbCore.Radar.EvidenceComplete

/-!
# An envelope at the next hop

`RadarEnvelope.to_dict` of `src/radar/envelope.py`, written as JSON, read, and validated
again. Every field of an envelope is in a form that its normalisation leaves as it is
(`RadarEnvelope.Normal`), and the hashes are made of the text of the payload, which is the
same whatever the order of its fields. `fromMapping_wire` says that the next hop has an
equal envelope, if no text of it has a low surrogate after a high one; `surrogates_joined`
is one that has.
-/

namespace CcbCore.Radar

open CcbCore.CodePoints CcbCore.Postgres

variable {Opaque : Type} {py : Interpreter Opaque} {decoder : Decoder Opaque} {format : Format} {envelope : RadarEnvelope Opaque}

/-! ### The text of a mapping -/

def optional (text : Option Str) : Value Opaque := (text.map Value.str).getD .null

/-- `to_dict`. -/
def RadarEnvelope.toDict (envelope : RadarEnvelope Opaque) : Mapping Opaque :=
  [(lit "schema_version", .int envelope.schemaVersion), (lit "message_id", .str envelope.messageId),
    (lit "created_at", .str envelope.createdAt), (lit "sender", .str envelope.sender),
    (lit "audience", .array (envelope.audience.map .str)), (lit "domain", .str envelope.domain),
    (lit "intent", .str envelope.intent), (lit "priority", .int envelope.priority), (lit "payload", envelope.payload),
    (lit "content_hash", .str (lit envelope.contentHash.text)),
    (lit "idempotency_key", .str (lit envelope.idempotencyKey.text)), (lit "correlation_id", optional envelope.correlationId),
    (lit "root_task_id", optional envelope.rootTaskId), (lit "causal_parent_id", optional envelope.causalParentId),
    (lit "requires_ack", .bool envelope.requiresAck), (lit "expires_at", optional envelope.expiresAt),
    (lit "authority_ref", optional envelope.authorityRef), (lit "source_refs", .array (envelope.sourceRefs.map .str))]

mutual

/-- The text of a value, its fields as they come. -/
def Value.plainText (py : Interpreter Opaque) (format : Format) : Value Opaque → Except Raised Str
  | .array items =>
    match Value.plainItemTexts py format items with
    | .error e => .error e
    | .ok texts => .ok (lit "[" ++ join format.itemSeparator texts ++ lit "]")
  | .object fields =>
    match collect (Value.plainFieldTexts py format fields) with
    | .error e => .error e
    | .ok texts => .ok (lit "\x7b" ++ join format.itemSeparator (texts.map (fieldText format)) ++ lit "\x7d")
  | value => value.text py format

@[inherit_doc Value.plainText]
def Value.plainItemTexts (py : Interpreter Opaque) (format : Format) : List (Value Opaque) → Except Raised (List Str)
  | [] => .ok []
  | item :: items =>
    match item.plainText py format with
    | .error e => .error e
    | .ok text =>
      match Value.plainItemTexts py format items with
      | .error e => .error e
      | .ok texts => .ok (text :: texts)

@[inherit_doc Value.plainText]
def Value.plainFieldTexts (py : Interpreter Opaque) (format : Format) : Mapping Opaque → List (Str × Except Raised Str)
  | [] => []
  | (key, value) :: fields => (key, value.plainText py format) :: Value.plainFieldTexts py format fields

end

/-- `json.dumps(value, sort_keys=…)`. -/
def encodeJson (py : Interpreter Opaque) (format : Format) (sortKeys : Bool) (value : Value Opaque) : Except Raised Str :=
  if sortKeys = true then dumps py format value
  else if py.encodes value = true then value.plainText py format
  else .error .recursionError

/-- What is read of a value that was written. -/
def Value.reread (sortKeys : Bool) (value : Value Opaque) : Value Opaque := if sortKeys = true then value.sorted else value

theorem collect_returned {α : Type} (fields : List (Str × α)) : collect (returned fields) = .ok fields := by
  induction fields with
  | nil => rfl
  | cons field fields ih =>
    rw [returned] at ih
    simp only [returned, List.map_cons, collect, ih]

mutual

theorem Value.plain_reads (hformat : format.Readable) : ∀ value : Value Opaque, value.Exact →
    (format.ensureAscii = true → value.unpaired = true) →
    ∃ text, value.plainText py format = .ok text ∧ Reads decoder text value
  | .null, _, _ => ⟨_, rfl, reads_null⟩
  | .bool b, _, _ => ⟨_, rfl, reads_bool b⟩
  | .int n, h, _ => ⟨_, if_pos (prints_iff.mpr h), reads_int h⟩
  | .float _, h, _ => h.elim
  | .str text, _, hascii => ⟨_, rfl, reads_str hascii⟩
  | .array items, h, hascii => by
    obtain ⟨texts, htexts, hreads⟩ := Value.plain_reads_items hformat items h hascii
    exact ⟨_, by rw [Value.plainText, htexts], reads_array hformat hreads⟩
  | .object fields, h, hascii => by
    obtain ⟨texts, htexts, hreads⟩ := Value.plain_reads_fields hformat fields h.2 hascii
    exact ⟨_, by rw [Value.plainText, htexts, collect_returned], reads_object hformat hreads h.1⟩
  | .other _, h, _ => h.elim

theorem Value.plain_reads_items (hformat : format.Readable) : ∀ items : List (Value Opaque), Value.ExactItems items →
    (format.ensureAscii = true → Value.allItems (fun _ => true) Radar.unpaired (fun _ => true) items = true) →
    ∃ texts, Value.plainItemTexts py format items = .ok texts ∧ List.Forall₂ (Reads decoder) texts items
  | [], _, _ => ⟨[], rfl, .nil⟩
  | item :: items, h, hascii => by
    have hall (hensure : format.ensureAscii = true) := Bool.and_eq_true .. ▸ hascii hensure
    obtain ⟨text, htext, hread⟩ := Value.plain_reads hformat item h.1 fun hensure => (hall hensure).1
    obtain ⟨texts, htexts, hreads⟩ := Value.plain_reads_items hformat items h.2 fun hensure => (hall hensure).2
    exact ⟨text :: texts, by rw [Value.plainItemTexts, htext, htexts], .cons hread hreads⟩

theorem Value.plain_reads_fields (hformat : format.Readable) : ∀ fields : Mapping Opaque, Value.ExactFields fields →
    (format.ensureAscii = true → Value.allFields (fun _ => true) Radar.unpaired (fun _ => true) fields = true) →
    ∃ texts, Value.plainFieldTexts py format fields = returned texts ∧ List.Forall₂ (ReadsField decoder format) texts fields
  | [], _, _ => ⟨[], rfl, .nil⟩
  | (key, value) :: fields, h, hascii => by
    have hall (hensure : format.ensureAscii = true) : (Radar.unpaired key = true ∧ value.unpaired = true) ∧
        Value.allFields (fun _ => true) Radar.unpaired (fun _ => true) fields = true := by
      have hfields := hascii hensure
      rw [Value.allFields, Bool.and_eq_true, Bool.and_eq_true] at hfields
      exact hfields
    obtain ⟨text, htext, hread⟩ := Value.plain_reads hformat value h.1 fun hensure => (hall hensure).1.2
    obtain ⟨texts, htexts, hreads⟩ := Value.plain_reads_fields hformat fields h.2 fun hensure => (hall hensure).2
    exact ⟨(key, text) :: texts, by rw [Value.plainFieldTexts, htext, htexts]; rfl,
      .cons ⟨rfl, fun hensure => (hall hensure).1.1, hread⟩ hreads⟩

end

/-- What is written of a value is read, its fields sorted if they were. -/
theorem loads_encodeJson (hformat : format.Readable) {sortKeys : Bool} {value : Value Opaque} (h : value.Exact)
    (hascii : format.ensureAscii = true → value.unpaired = true) (hencodes : py.encodes value = true) :
    ∃ text, encodeJson py format sortKeys value = .ok text ∧
      (decoder.scans text = true → loads decoder text = .ok (value.reread sortKeys)) := by
  cases sortKeys with
  | true =>
    obtain ⟨text, htext, hread⟩ : ∃ text, value.text py format = .ok text ∧ Reads decoder text value.sorted :=
      Value.reads hformat value h hascii
    exact ⟨text, by rw [encodeJson, if_pos rfl, dumps, if_pos hencodes, htext], hread.loads⟩
  | false =>
    obtain ⟨text, htext, hread⟩ : ∃ text, value.plainText py format = .ok text ∧ Reads decoder text value :=
      Value.plain_reads hformat value h hascii
    exact ⟨text, by rw [encodeJson, if_neg Bool.false_ne_true, if_pos hencodes, htext], hread.loads⟩

/-! ### Depth -/

mutual

/-- How deep a value is nested. -/
def Value.depth : Value Opaque → ℕ
  | .array items => Value.depthItems items + 1
  | .object fields => Value.depthFields fields + 1
  | _ => 0

@[inherit_doc Value.depth]
def Value.depthItems : List (Value Opaque) → ℕ
  | [] => 0
  | item :: items => max item.depth (Value.depthItems items)

@[inherit_doc Value.depth]
def Value.depthFields : Mapping Opaque → ℕ
  | [] => 0
  | (_, value) :: fields => max value.depth (Value.depthFields fields)

end

/-- The interpreter's stack is used by the depth of a value, and what is written can be read. -/
structure Depthwise (py : Interpreter Opaque) (decoder : Decoder Opaque) : Prop where
  encodes : ∀ value value' : Value Opaque, value'.depth ≤ value.depth → py.encodes value = true → py.encodes value' = true
  scans : ∀ (format : Format) (sortKeys : Bool) (value : Value Opaque) (text : Str),
    encodeJson py format sortKeys value = .ok text → decoder.scans text = true

theorem depthItems_str (texts : List Str) : Value.depthItems (texts.map Value.str : List (Value Opaque)) = 0 := by
  induction texts with
  | nil => rfl
  | cons text texts ih =>
    rw [List.map_cons, Value.depthItems, ih]
    rfl

theorem depthFields_le {fields : Mapping Opaque} {n : ℕ} :
    Value.depthFields fields ≤ n ↔ ∀ field ∈ fields, field.2.depth ≤ n := by
  induction fields with
  | nil => simp [Value.depthFields]
  | cons field fields ih => rw [Value.depthFields, max_le_iff, ih, List.forall_mem_cons]

mutual

theorem Value.depth_sorted : ∀ value : Value Opaque, value.sorted.depth ≤ value.depth
  | .null => le_rfl
  | .bool _ => le_rfl
  | .int _ => le_rfl
  | .float _ => le_rfl
  | .str _ => le_rfl
  | .array items => Nat.succ_le_succ (Value.depthItems_sorted items)
  | .object fields => by
    refine Nat.succ_le_succ (depthFields_le.mpr fun field hfield => ?_)
    exact depthFields_le.mp (Value.depthFields_sorted fields) field ((sortFields_perm _).mem_iff.mp hfield)
  | .other _ => le_rfl

theorem Value.depthItems_sorted : ∀ items : List (Value Opaque), Value.depthItems (Value.sortedItems items) ≤ Value.depthItems items
  | [] => le_rfl
  | item :: items => max_le_max item.depth_sorted (Value.depthItems_sorted items)

theorem Value.depthFields_sorted : ∀ fields : Mapping Opaque,
    Value.depthFields (Value.sortedFields fields) ≤ Value.depthFields fields
  | [] => le_rfl
  | (_, value) :: fields => max_le_max value.depth_sorted (Value.depthFields_sorted fields)

end

/-- An envelope is nested as deep as what is hashed of it. -/
theorem depth_toDict (heading : Heading) (envelope : RadarEnvelope Opaque) :
    (Value.object envelope.toDict).depth ≤ (canonical heading envelope.audience envelope.payload).depth := by
  have hoptional (text : Option Str) : (optional text : Value Opaque).depth = 0 := by cases text <;> rfl
  simp only [Value.depth, RadarEnvelope.toDict, canonical, Value.depthFields, depthItems_str, hoptional]
  omega

/-! ### Normal forms -/

/-- A text with more than space in it, and none around it. -/
structure Stripped (text : Str) : Prop where
  notBlank : isBlank text = false
  stripped : strip text = text

/-- An envelope whose fields are in the form that `from_mapping` puts them in. -/
structure RadarEnvelope.Normal (unicode : Casefold) (envelope : RadarEnvelope Opaque) : Prop where
  schemaVersion : envelope.schemaVersion = 1
  messageId : Stripped envelope.messageId
  createdAt : Stripped envelope.createdAt
  sender : Stripped envelope.sender
  audience : ∀ name ∈ envelope.audience, Radar.Normal unicode name
  distinct : envelope.audience.Nodup
  valid : envelope.Valid
  optional : ∀ text ∈ [envelope.correlationId, envelope.rootTaskId, envelope.causalParentId, envelope.expiresAt,
    envelope.authorityRef], ∀ t ∈ text, Stripped t
  sourceRefs : ∀ ref ∈ envelope.sourceRefs, Stripped ref

theorem text?_stripped {text : Str} (h : Stripped text) : text? (.str text : Value Opaque) = some text := by
  simp [text?, h.notBlank, h.stripped]

theorem stripped_of_text? {value : Value Opaque} {text : Str} (h : text? value = some text) : Stripped text := by
  refine ⟨isBlank_text? h, ?_⟩
  unfold text? at h
  split at h
  · split at h
    · cases h
    · cases h
      exact strip_strip
  · cases h

theorem texts?_stripped {texts : List Str} (h : ∀ text ∈ texts, Stripped text) :
    texts? (texts.map Value.str : List (Value Opaque)) = some texts := by
  induction texts with
  | nil => rfl
  | cons text texts ih =>
    rw [List.forall_mem_cons] at h
    rw [List.map_cons, texts?, text?_stripped h.1, ih h.2]

theorem stripped_of_texts? {values : List (Value Opaque)} {texts : List Str} (h : texts? values = some texts) :
    ∀ text ∈ texts, Stripped text := by
  induction values generalizing texts with
  | nil =>
    cases h
    exact fun _ hmem => absurd hmem List.not_mem_nil
  | cons value values ih =>
    rw [texts?] at h
    split at h
    · next text rest htext hrest =>
      cases h
      exact List.forall_mem_cons.mpr ⟨stripped_of_text? htext, ih hrest⟩
    · cases h

theorem Stripped.casefold {unicode : Casefold} {text : Str} (h : Stripped text) : Radar.Normal unicode (unicode.casefold text) :=
  ⟨isBlank_casefold.trans h.notBlank, by rw [strip_casefold, h.stripped], casefold_casefold⟩

theorem nodup_eraseDups {α : Type} [BEq α] [LawfulBEq α] (l : List α) : l.eraseDups.Nodup := by
  induction h : l.length using Nat.strongRecOn generalizing l with
  | ind n ih =>
    cases l with
    | nil => exact List.nodup_nil
    | cons a l =>
      have hlength := List.length_filter_le (fun b => !b == a) l
      rw [List.length_cons] at h
      rw [List.eraseDups_cons, List.nodup_cons, List.mem_eraseDups, List.mem_filter]
      exact ⟨by simp, ih _ (by omega) _ rfl⟩

theorem normal_audienceOf {unicode : Casefold} {value : Value Opaque} {audience : List Str}
    (h : audienceOf unicode value = some audience) : (∀ name ∈ audience, Radar.Normal unicode name) ∧ audience.Nodup := by
  unfold audienceOf at h
  split at h
  · cases h
    exact ⟨fun _ hmem => absurd hmem List.not_mem_nil, List.nodup_nil⟩
  · obtain ⟨texts, htexts, rfl⟩ := Option.map_eq_some_iff.mp h
    refine ⟨fun name hname => ?_, nodup_eraseDups _⟩
    obtain ⟨text, htext, rfl⟩ := List.mem_map.mp (List.mem_eraseDups.mp hname)
    exact (stripped_of_texts? htexts text htext).casefold
  · cases h

theorem audienceOf_normal {unicode : Casefold} {audience : List Str} (h : ∀ name ∈ audience, Radar.Normal unicode name)
    (hdistinct : audience.Nodup) : audienceOf unicode (.array (audience.map .str) : Value Opaque) = some audience := by
  have hfold : audience.map unicode.casefold = audience :=
    (List.map_congr_left fun name hname => (h name hname).folded).trans (List.map_id' audience)
  rw [audienceOf, texts?_stripped fun name hname => ⟨(h name hname).notBlank, (h name hname).stripped⟩, Option.map_some,
    hfold, eraseDups_of_nodup hdistinct]

theorem not_space_hexDigit {c : Char} (h : isHexDigit c = true) : isSpace (point c) = false := by
  have hzero : '0'.toNat = 0x30 := rfl
  have hnine : '9'.toNat = 0x39 := rfl
  have ha : 'a'.toNat = 0x61 := rfl
  have hf : 'f'.toNat = 0x66 := rfl
  have hval : (point c).val = c.toNat := rfl
  simp only [isHexDigit, decide_eq_true_eq, Char.le_def, UInt32.le_iff_toNat_le, Char.toNat_val] at h
  simp only [isSpace, hval, List.mem_cons, List.not_mem_nil, or_false, decide_eq_false_iff_not]
  omega

theorem stripped_uuid (uuid : Hex 16) : Stripped (lit ("rad_" ++ uuid.text)) := by
  have hletters : lit ("rad_" ++ uuid.text) = lit "rad_" ++ lit uuid.text := by
    rw [lit, String.toList_append, List.map_append]
    rfl
  have hrad : ∀ c ∈ "rad_".toList.map point, isSpace c = false := by simp [isSpace, point]
  have hspace : ∀ c ∈ lit ("rad_" ++ uuid.text), isSpace c = false := by
    rw [hletters]
    intro c hc
    rcases List.mem_append.mp hc with hc | hc
    · exact hrad c hc
    · obtain ⟨digit, hdigit, rfl⟩ := List.mem_map.mp hc
      have hchecked := uuid.checked
      simp only [isHex, decide_eq_true_eq, List.all_eq_true] at hchecked
      exact not_space_hexDigit (hchecked.2 digit hdigit)
  refine ⟨?_, Trim.trim_eq_self hspace⟩
  have hfirst : point 'r' ∈ lit ("rad_" ++ uuid.text) := by
    rw [hletters]
    exact List.mem_append_left _ List.mem_cons_self
  rw [isBlank, Bool.eq_false_iff]
  intro hall
  rw [List.all_eq_true] at hall
  have hnot := hspace _ hfirst
  rw [hall _ hfirst] at hnot
  cases hnot

/-! ### What is validated -/

variable {fresh : Fresh} {raw : Mapping Opaque} {heading : Heading} {details : Details}

theorem headed_of_headingOf {unicode : Casefold} (h : headingOf unicode raw = .ok heading) : Headed unicode raw heading := by
  rcases headingOf_cases unicode raw with ⟨result, hheading, -⟩ | ⟨_, errors, hheading, -⟩ | ⟨heading', hheading, hheaded, -⟩
  · rw [h] at hheading
    cases hheading
  · rw [h] at hheading
    cases hheading
  · rw [h] at hheading
    cases hheading
    exact hheaded

/-- The details that pass the checks. -/
structure Detailed (unicode : Casefold) (fresh : Fresh) (raw : Mapping Opaque) (details : Details) : Prop where
  messageId : details.messageId = (text? (get raw "message_id")).getD (lit ("rad_" ++ fresh.uuid.text))
  createdAt : details.createdAt = (text? (get raw "created_at")).getD fresh.now
  audience : audienceOf unicode (get raw "audience") = some details.audience
  priority : priorityOf raw = some details.priority
  requiresAck : requiresAckOf raw = some details.requiresAck
  sourceRefs : sourceRefsOf raw = some details.sourceRefs

theorem detailed_of_detailsOf {unicode : Casefold} (h : detailsOf unicode fresh raw = .ok details) :
    Detailed unicode fresh raw details := by
  unfold detailsOf at h
  split at h
  · next haudience hpriority hack hrefs =>
    cases h
    exact ⟨rfl, rfl, haudience, hpriority, hack, hrefs⟩
  · cases h

theorem stripped_getD {value : Value Opaque} {default : Str} (hdefault : Stripped default) :
    Stripped ((text? value).getD default) := by
  cases htext : text? value with
  | none => exact hdefault
  | some text => exact stripped_of_text? htext

theorem stripped_sourceRefsOf {refs : List Str} (h : sourceRefsOf raw = some refs) : ∀ ref ∈ refs, Stripped ref := by
  unfold sourceRefsOf at h
  split at h
  · cases h
    exact fun _ hmem => absurd hmem List.not_mem_nil
  · cases h
    exact fun _ hmem => absurd hmem List.not_mem_nil
  · exact stripped_of_texts? h
  · cases h

/-- **What `from_mapping` accepts is in normal form, with the hashes of its payload.** -/
theorem normal_of_fromMapping {result : EnvelopeResult Opaque} (hnow : Stripped fresh.now)
    (h : fromMapping py fresh raw = .ok result) (henvelope : result.envelope = some envelope) :
    envelope.Normal py.unicode ∧ hashesOf py ⟨envelope.sender, envelope.domain, envelope.intent⟩ envelope.audience envelope.payload =
      .ok (some (envelope.contentHash, envelope.idempotencyKey)) := by
  have hvalid := fromMapping_valid h henvelope
  obtain ⟨heading, details, hashes, hheading, hdetails, hhashes, rfl, -⟩ := fromMapping_envelope h henvelope
  have hheaded := headed_of_headingOf hheading
  have hdetailed := detailed_of_detailsOf hdetails
  obtain ⟨haudience, hdistinct⟩ := normal_audienceOf hdetailed.audience
  refine ⟨⟨rfl, ?_, ?_, stripped_of_text? hheaded.sender, haudience, hdistinct, hvalid, ?_,
    stripped_sourceRefsOf hdetailed.sourceRefs⟩, hhashes⟩
  · rw [envelopeOf, hdetailed.messageId]
    exact stripped_getD (stripped_uuid fresh.uuid)
  · rw [envelopeOf, hdetailed.createdAt]
    exact stripped_getD hnow
  · simp only [List.forall_mem_cons, envelopeOf, optionalText]
    exact ⟨fun _ => stripped_of_text?, fun _ => stripped_of_text?, fun _ => stripped_of_text?, fun _ => stripped_of_text?,
      fun _ => stripped_of_text?, fun _ hmem => absurd hmem List.not_mem_nil⟩

theorem headingOf_headed {unicode : Casefold} (h : Headed unicode raw heading) (hknown : heading.Known) :
    headingOf unicode raw = .ok heading := by
  rcases headingOf_cases unicode raw with ⟨_, -, -, hnone⟩ | ⟨heading', _, -, hheaded, hunknown, -⟩ |
    ⟨heading', hheading, hheaded, -⟩
  · exact absurd h (hnone heading)
  · exact absurd (h.unique hheaded ▸ hknown) hunknown
  · exact h.unique hheaded ▸ hheading

theorem optionalText_optional {text : Option Str} (h : ∀ t ∈ text, Stripped t) : optionalText (optional text : Value Opaque) = text := by
  cases text with
  | none => rfl
  | some text => exact text?_stripped (h text rfl)

/-- **A mapping with the fields of an envelope in normal form is validated as the envelope.** -/
theorem fromMapping_carries {fields : Mapping Opaque} (hnormal : envelope.Normal py.unicode)
    (hcarries : ∀ field ∈ envelope.toDict, fields.lookup field.1 = some field.2)
    (hhashes : hashesOf py ⟨envelope.sender, envelope.domain, envelope.intent⟩ envelope.audience envelope.payload =
      .ok (some (envelope.contentHash, envelope.idempotencyKey))) :
    fromMapping py fresh fields = .ok ⟨.valid, some envelope, []⟩ := by
  have hfield (i : ℕ) {name : String} {value : Value Opaque} (h : envelope.toDict[i]? = some (lit name, value)) :
      field fields name = some value := hcarries _ (List.mem_of_getElem? h)
  have hget (i : ℕ) {name : String} {value : Value Opaque} (h : envelope.toDict[i]? = some (lit name, value)) :
      get fields name = value := by rw [get, hfield i h, Option.getD_some]
  have hdomain := normal_of_mem_allowedDomains py.unicode hnormal.valid.domain
  have hintent := normal_of_mem_allowedIntents py.unicode hnormal.valid.intent
  have hheading : headingOf py.unicode fields = .ok ⟨envelope.sender, envelope.domain, envelope.intent⟩ := by
    refine headingOf_headed ⟨?_, ?_, ?_, ?_, ?_⟩ ⟨hnormal.valid.domain, hnormal.valid.intent⟩
    · simp only [List.forall_mem_cons]
      rw [hfield 0 rfl, hfield 3 rfl, hfield 5 rfl, hfield 6 rfl, hfield 8 rfl]
      exact ⟨nofun, nofun, nofun, nofun, nofun, fun _ hmem => absurd hmem List.not_mem_nil⟩
    · rw [hfield 0 rfl, hnormal.schemaVersion]
    · rw [hget 3 rfl, text?_stripped hnormal.sender]
    · rw [hget 5 rfl, text?_normal hdomain, Option.map_some, hdomain.folded]
    · rw [hget 6 rfl, text?_normal hintent, Option.map_some, hintent.folded]
  have haudience : audienceOf py.unicode (.array (envelope.audience.map .str) : Value Opaque) = some envelope.audience :=
    audienceOf_normal hnormal.audience hnormal.distinct
  have hpriority : priorityOf fields = some envelope.priority := by
    simp only [priorityOf, hfield 7 rfl, if_pos hnormal.valid.priority]
  have hack : requiresAckOf fields = some envelope.requiresAck := by simp only [requiresAckOf, hfield 14 rfl]
  have hrefs : sourceRefsOf fields = some envelope.sourceRefs := by
    simp only [sourceRefsOf, hfield 17 rfl, texts?_stripped hnormal.sourceRefs]
  have hdetails : detailsOf py.unicode fresh fields = .ok ⟨envelope.messageId, envelope.createdAt, envelope.audience,
      envelope.priority, envelope.requiresAck, envelope.sourceRefs, false⟩ := by
    simp only [detailsOf, haudience, hpriority, hack, hrefs, hget 1 rfl, hget 2 rfl, hget 4 rfl, hfield 7 rfl,
      text?_stripped hnormal.messageId, text?_stripped hnormal.createdAt]
    rfl
  simp only [fromMapping, hheading, hdetails, hget 8 rfl, hhashes]
  have hoptional := hnormal.optional
  simp only [List.forall_mem_cons] at hoptional
  obtain ⟨hcorrelation, hroot, hcausal, hexpires, hauthority, -⟩ := hoptional
  simp only [envelopeOf, hget 8 rfl, hget 11 rfl, hget 12 rfl, hget 13 rfl, hget 15 rfl, hget 16 rfl,
    optionalText_optional hcorrelation, optionalText_optional hroot, optionalText_optional hcausal,
    optionalText_optional hexpires, optionalText_optional hauthority, ← hnormal.schemaVersion]
  rfl

/-! ### The payload -/

mutual

/-- A value of JSON without fractions, no object of which has a key twice. -/
def Value.Native : Value Opaque → Prop
  | .float _ | .other _ => False
  | .array items => Value.NativeItems items
  | .object fields => (fields.map (·.1)).Nodup ∧ Value.NativeFields fields
  | _ => True

@[inherit_doc Value.Native]
def Value.NativeItems : List (Value Opaque) → Prop
  | [] => True
  | item :: items => item.Native ∧ Value.NativeItems items

@[inherit_doc Value.Native]
def Value.NativeFields : Mapping Opaque → Prop
  | [] => True
  | (_, value) :: fields => value.Native ∧ Value.NativeFields fields

end

mutual

theorem Value.Native.plain : ∀ {value : Value Opaque}, value.Native → Plain value
  | .null, _ => rfl
  | .bool _, _ => rfl
  | .int _, _ => rfl
  | .float _, h => h.elim
  | .str _, _ => rfl
  | .array _, h => Value.nativeItems_plain h
  | .object _, h => Value.nativeFields_plain h.2
  | .other _, h => h.elim

theorem Value.nativeItems_plain : ∀ {items : List (Value Opaque)}, Value.NativeItems items →
    Value.allItems (fun _ => true) (fun _ => true) (fun _ => false) items = true
  | [], _ => rfl
  | _ :: _, h => Bool.and_eq_true_iff.mpr ⟨h.1.plain, Value.nativeItems_plain h.2⟩

theorem Value.nativeFields_plain : ∀ {fields : Mapping Opaque}, Value.NativeFields fields →
    Value.allFields (fun _ => true) (fun _ => true) (fun _ => false) fields = true
  | [], _ => rfl
  | (_, _) :: _, h => Bool.and_eq_true_iff.mpr ⟨h.1.plain, Value.nativeFields_plain h.2⟩

end

mutual

/-- Where the integers print, it is written exactly. -/
theorem Value.Native.exact : ∀ {value : Value Opaque}, value.Native → value.isJson = true → value.Exact
  | .null, _, _ => trivial
  | .bool _, _, _ => trivial
  | .int _, _, h => prints_iff.mp h
  | .float _, hnative, _ => hnative.elim
  | .str _, _, _ => trivial
  | .array _, hnative, h => Value.nativeItems_exact hnative h
  | .object _, hnative, h => ⟨hnative.1, Value.nativeFields_exact hnative.2 h⟩
  | .other _, hnative, _ => hnative.elim

theorem Value.nativeItems_exact : ∀ {items : List (Value Opaque)}, Value.NativeItems items →
    Value.allItems prints (fun _ => true) (fun _ => false) items = true → Value.ExactItems items
  | [], _, _ => trivial
  | _ :: _, hnative, h => by
    obtain ⟨hitem, hitems⟩ := Bool.and_eq_true_iff.mp h
    exact ⟨hnative.1.exact hitem, Value.nativeItems_exact hnative.2 hitems⟩

theorem Value.nativeFields_exact : ∀ {fields : Mapping Opaque}, Value.NativeFields fields →
    Value.allFields prints (fun _ => true) (fun _ => false) fields = true → Value.ExactFields fields
  | [], _, _ => trivial
  | (_, _) :: _, hnative, h => by
    obtain ⟨hvalue, hfields⟩ := Bool.and_eq_true_iff.mp h
    exact ⟨hnative.1.exact hvalue, Value.nativeFields_exact hnative.2 hfields⟩

end

/-- What is hashed of a payload that was accepted. -/
theorem hashed {hashes : Hex 64 × Hex 64} {audience : List Str} {payload : Value Opaque} (hnative : payload.Native)
    (h : hashesOf py heading audience payload = .ok (some hashes)) :
    payload.Exact ∧ py.encodes payload = true ∧ py.encodes (canonical heading audience payload) = true ∧
      (canonical heading audience payload).encodable = true := by
  have hjson : payload.isJson = true := by
    have hdumps : ∃ text, dumps py payloadFormat payload = .ok text := by
      unfold hashesOf at h
      split at h
      · split at h <;> cases h
      · next text htext => exact ⟨text, htext⟩
    exact ((dumps_plain ⟨encodable_lit _, encodable_lit _⟩ hnative.plain).mp hdumps).2
  exact ⟨hnative.exact hjson, (hashesOf_ok hjson).mp ⟨_, h⟩⟩

theorem text_reread (sortKeys : Bool) (payload : Value Opaque) : (payload.reread sortKeys).text py format = payload.text py format := by
  cases sortKeys with
  | true => exact payload.text_sorted
  | false => rfl

theorem depth_reread (sortKeys : Bool) (payload : Value Opaque) : (payload.reread sortKeys).depth ≤ payload.depth := by
  cases sortKeys with
  | true => exact payload.depth_sorted
  | false => exact le_rfl

/-- A payload that was written and read has the same hashes. -/
theorem hashesOf_reread (hstack : Depthwise py decoder) (sortKeys : Bool) {audience : List Str} {payload : Value Opaque}
    (hpayload : py.encodes payload = true) (hcanonical : py.encodes (canonical heading audience payload) = true) :
    hashesOf py heading audience (payload.reread sortKeys) = hashesOf py heading audience payload := by
  have hdepth := depth_reread sortKeys payload
  have hcanonicalDepth : (canonical heading audience (payload.reread sortKeys)).depth ≤ (canonical heading audience payload).depth := by
    simp only [canonical, Value.depth, Value.depthFields]
    omega
  have htext : (canonical heading audience (payload.reread sortKeys)).text py canonicalFormat =
      (canonical heading audience payload).text py canonicalFormat := by
    simp only [canonical, Value.text, Value.fieldTexts, text_reread]
  simp only [hashesOf, dumps, text_reread, htext, hpayload, hcanonical, hstack.encodes _ _ hdepth hpayload,
    hstack.encodes _ _ hcanonicalDepth hcanonical]

/-! ### The next hop -/

/-- `from_mapping(json.loads(json.dumps(envelope.to_dict())))`. -/
def nextHop (py : Interpreter Opaque) (decoder : Decoder Opaque) (format : Format) (sortKeys : Bool) (fresh : Fresh)
    (envelope : RadarEnvelope Opaque) : Except Raised (EnvelopeResult Opaque) :=
  match encodeJson py format sortKeys (.object envelope.toDict) with
  | .error e => .error e
  | .ok text =>
    match loads decoder text with
    | .error e => .error e
    | .ok (.object fields) => fromMapping py fresh fields
    | .ok _ => .error .typeError

/-- The texts of an envelope that are not hashed have no low surrogate after a high one. -/
structure RadarEnvelope.Unpaired (envelope : RadarEnvelope Opaque) : Prop where
  messageId : unpaired envelope.messageId = true
  createdAt : unpaired envelope.createdAt = true
  optional : ∀ text ∈ [envelope.correlationId, envelope.rootTaskId, envelope.causalParentId, envelope.expiresAt,
    envelope.authorityRef], ∀ t ∈ text, unpaired t = true
  sourceRefs : ∀ ref ∈ envelope.sourceRefs, unpaired ref = true

/-- The keys of `to_dict`. -/
def dictKeys : List Str :=
  ["schema_version", "message_id", "created_at", "sender", "audience", "domain", "intent", "priority", "payload",
    "content_hash", "idempotency_key", "correlation_id", "root_task_id", "causal_parent_id", "requires_ack", "expires_at",
    "authority_ref", "source_refs"].map lit

theorem nodup_toDict (envelope : RadarEnvelope Opaque) : (envelope.toDict.map (·.1)).Nodup := by
  have hkeys : envelope.toDict.map (·.1) = dictKeys := rfl
  have hnodup : dictKeys.Nodup := by decide +kernel
  exact hkeys ▸ hnodup

theorem exact_small {n : ℤ} (h : n.natAbs < 10) : n.natAbs < 10 ^ maxDigits :=
  h.trans_le (Nat.le_self_pow (by decide) 10)

theorem exactItems_str (texts : List Str) : Value.ExactItems (texts.map Value.str : List (Value Opaque)) := by
  induction texts with
  | nil => trivial
  | cons text texts ih => exact ⟨trivial, ih⟩

theorem exact_toDict {unicode : Casefold} (hnormal : envelope.Normal unicode) (hpayload : envelope.payload.Exact) :
    (Value.object envelope.toDict).Exact := by
  have hoptional (text : Option Str) : (optional text : Value Opaque).Exact := by cases text <;> trivial
  have hversion : envelope.schemaVersion.natAbs < 10 := by
    rw [hnormal.schemaVersion]
    decide
  have hpriority : envelope.priority.natAbs < 10 := by
    have hrange := hnormal.valid.priority
    rw [minPriority, maxPriority] at hrange
    omega
  exact ⟨nodup_toDict envelope, exact_small hversion, trivial, trivial, trivial, exactItems_str _, trivial, trivial,
    exact_small hpriority, hpayload, trivial, trivial, hoptional _, hoptional _, hoptional _, trivial, hoptional _, hoptional _,
    exactItems_str _, trivial⟩

theorem unpaired_optional {text : Option Str} (h : ∀ t ∈ text, unpaired t = true) :
    (optional text : Value Opaque).unpaired = true := by
  cases text with
  | none => rfl
  | some text => exact h text rfl

theorem allItems_str {onInt : ℤ → Bool} {onText : Str → Bool} {onOther : Opaque → Bool} {texts : List Str}
    (h : ∀ text ∈ texts, onText text = true) : Value.allItems onInt onText onOther (texts.map Value.str) = true := by
  rw [allItems_eq, List.all_map, List.all_eq_true]
  exact h

/-- The dictionary of an envelope can be read in ASCII. -/
theorem unpaired_toDict {unicode : Casefold} (hnormal : envelope.Normal unicode) (hpairs : envelope.Unpaired)
    (hcanonical : (canonical ⟨envelope.sender, envelope.domain, envelope.intent⟩ envelope.audience envelope.payload).encodable = true) :
    (Value.object envelope.toDict).unpaired = true := by
  obtain ⟨hsender, haudience, hpayload⟩ := (canonical_encodable ⟨hnormal.valid.domain, hnormal.valid.intent⟩ _).mp hcanonical
  have hlit (text : String) : unpaired (lit text) = true := unpaired_of_encodable (encodable_lit text)
  have hdomain := unpaired_of_encodable (encodable_of_known (.inl hnormal.valid.domain))
  have hintent := unpaired_of_encodable (encodable_of_known (.inr hnormal.valid.intent))
  have hnames : ∀ name ∈ envelope.audience, unpaired name = true := fun name hname =>
    unpaired_of_encodable (List.all_eq_true.mp haudience name hname)
  have hoptional := hpairs.optional
  simp only [List.forall_mem_cons] at hoptional
  obtain ⟨hcorrelation, hroot, hcausal, hexpires, hauthority, -⟩ := hoptional
  have hvalues : ∀ field ∈ envelope.toDict, field.2.unpaired = true := by
    simp only [RadarEnvelope.toDict, List.forall_mem_cons]
    exact ⟨rfl, hpairs.messageId, hpairs.createdAt, unpaired_of_encodable hsender, allItems_str hnames, hdomain, hintent, rfl,
      Value.unpaired_of_encodable hpayload, hlit _, hlit _, unpaired_optional hcorrelation, unpaired_optional hroot,
      unpaired_optional hcausal, rfl, unpaired_optional hexpires, unpaired_optional hauthority, allItems_str hpairs.sourceRefs,
      fun _ hmem => absurd hmem List.not_mem_nil⟩
  rw [Value.unpaired, Value.all, allFields_eq, List.all_eq_true]
  intro field hfield
  have hkey : field.1 ∈ dictKeys := List.mem_map_of_mem hfield
  obtain ⟨name, -, hname⟩ := List.mem_map.mp hkey
  rw [← hname, hlit, Bool.true_and]
  exact hvalues field hfield

theorem sortedItems_str (texts : List Str) :
    Value.sortedItems (texts.map Value.str : List (Value Opaque)) = texts.map Value.str := by
  induction texts with
  | nil => rfl
  | cons text texts ih =>
    rw [List.map_cons, Value.sortedItems, ih]
    rfl

theorem toDict_sorted (envelope : RadarEnvelope Opaque) :
    { envelope with payload := envelope.payload.sorted }.toDict = Value.sortedFields envelope.toDict := by
  have hoptional (text : Option Str) : (optional text : Value Opaque).sorted = optional text := by cases text <;> rfl
  simp only [RadarEnvelope.toDict, Value.sortedFields, Value.sorted, sortedItems_str, hoptional]

/-- What is read of an envelope's dictionary has the fields of the dictionary. -/
theorem reread_toDict (sortKeys : Bool) (envelope : RadarEnvelope Opaque) :
    ∃ fields, (Value.object envelope.toDict).reread sortKeys = .object fields ∧
      ∀ field ∈ { envelope with payload := envelope.payload.reread sortKeys }.toDict, fields.lookup field.1 = some field.2 := by
  cases sortKeys with
  | false => exact ⟨_, rfl, fun _ hfield => lookup_field (nodup_toDict envelope) hfield⟩
  | true =>
    refine ⟨_, rfl, fun field hfield => ?_⟩
    have hsorted : field ∈ Value.sortedFields envelope.toDict := toDict_sorted envelope ▸ hfield
    rw [sortedFields_eq] at hsorted
    obtain ⟨original, horiginal, rfl⟩ := List.mem_map.mp hsorted
    exact lookup_sorted (nodup_toDict envelope) horiginal

theorem equals_reread (sortKeys : Bool) {payload : Value Opaque} (h : payload.Exact) : payload.Equals (payload.reread sortKeys) := by
  cases sortKeys with
  | true => exact payload.equals_sorted h
  | false => exact payload.equals_self h

/-- **The next hop validates the same envelope, but for the order of the fields of its payload.** -/
theorem fromMapping_wire {result : EnvelopeResult Opaque} (hstack : Depthwise py decoder) (hformat : format.Readable)
    (hnow : Stripped fresh.now) (h : fromMapping py fresh raw = .ok result) (henvelope : result.envelope = some envelope)
    (hnative : envelope.payload.Native) (hpairs : format.ensureAscii = true → envelope.Unpaired) (sortKeys : Bool) (fresh' : Fresh) :
    ∃ payload', nextHop py decoder format sortKeys fresh' envelope =
        .ok ⟨.valid, some { envelope with payload := payload' }, []⟩ ∧ envelope.payload.Equals payload' := by
  obtain ⟨hnormal, hhashes⟩ := normal_of_fromMapping hnow h henvelope
  obtain ⟨hexact, hencodes, hencodesCanonical, hscalar⟩ := hashed hnative hhashes
  obtain ⟨text, htext, hloads⟩ : ∃ text, encodeJson py format sortKeys (.object envelope.toDict) = .ok text ∧
      (decoder.scans text = true → loads decoder text = .ok ((Value.object envelope.toDict).reread sortKeys)) :=
    loads_encodeJson hformat (exact_toDict hnormal hexact) (fun hascii => unpaired_toDict hnormal (hpairs hascii) hscalar)
      (hstack.encodes _ _ (depth_toDict _ envelope) hencodesCanonical)
  obtain ⟨fields, hfields, hcarries⟩ := reread_toDict sortKeys envelope
  refine ⟨envelope.payload.reread sortKeys, ?_, equals_reread sortKeys hexact⟩
  rw [hfields] at hloads
  simp only [nextHop, htext, hloads (hstack.scans _ _ _ _ htext)]
  exact fromMapping_carries { hnormal with valid := { hnormal.valid with } } hcarries
    ((hashesOf_reread hstack sortKeys hencodes hencodesCanonical).trans hhashes)

/-! ### Samples -/

/-- A query with all that is asked of it. -/
def queryRaw (messageId : Str) : Mapping Empty :=
  [(lit "schema_version", .int 1), (lit "message_id", .str messageId), (lit "created_at", .str (lit "2026-09-06T14:30:01Z")),
    (lit "sender", .str (lit "radar")), (lit "audience", .array [.str (lit " UI "), .str (lit "ui")]),
    (lit "domain", .str (lit "System")), (lit "intent", .str (lit "query")), (lit "priority", .int 2),
    (lit "payload", .object [(lit "b", .int 7), (lit "a", .null)])]

def wireDecoder : Decoder Empty := ⟨fun _ => "0.0", fun _ => [], fun _ => .error .typeError, fun _ => true⟩

/-- The message ids of an envelope and of the next hop's, if both are valid. -/
def hopIds (raw : Mapping Empty) : Option (Str × Str) :=
  match fromMapping (asciiInterpreter sampleSha256) sampleFresh raw with
  | .ok ⟨.valid, some envelope, _⟩ =>
    match nextHop (asciiInterpreter sampleSha256) wireDecoder payloadFormat false sampleFresh envelope with
    | .ok ⟨.valid, some envelope', _⟩ => some (envelope.messageId, envelope'.messageId)
    | _ => none
  | _ => none

theorem hopIds_eq {messageId : Str} {ids : Str × Str} (h : hopIds (queryRaw messageId) = some ids) :
    ∃ result result' envelope envelope', fromMapping (asciiInterpreter sampleSha256) sampleFresh (queryRaw messageId) = .ok result ∧
      result.envelope = some envelope ∧ envelope.payload.Native ∧
      nextHop (asciiInterpreter sampleSha256) wireDecoder payloadFormat false sampleFresh envelope = .ok result' ∧
      result'.envelope = some envelope' ∧ (envelope.messageId, envelope'.messageId) = ids := by
  unfold hopIds at h
  split at h
  · next envelope errors hresult =>
    split at h
    · next envelope' errors' hresult' =>
      refine ⟨_, _, envelope, envelope', hresult, rfl, ?_, hresult', rfl, Option.some.inj h⟩
      obtain ⟨heading, details, hashes, -, -, -, rfl, -⟩ := fromMapping_envelope hresult rfl
      exact ⟨by decide, trivial, trivial, trivial⟩
    · cases h
  · cases h

/-- **A surrogate pair in a message id is another message id at the next hop.** -/
theorem surrogates_joined :
    ∃ result result' envelope envelope', fromMapping (asciiInterpreter sampleSha256) sampleFresh
        (queryRaw [⟨0xd83d, by decide⟩, ⟨0xde00, by decide⟩]) = .ok result ∧
      result.envelope = some envelope ∧ envelope.payload.Native ∧
      nextHop (asciiInterpreter sampleSha256) wireDecoder payloadFormat false sampleFresh envelope = .ok result' ∧
      result'.envelope = some envelope' ∧ envelope'.messageId ≠ envelope.messageId := by
  have hids : hopIds (queryRaw [⟨0xd83d, by decide⟩, ⟨0xde00, by decide⟩]) =
    some ([⟨0xd83d, by decide⟩, ⟨0xde00, by decide⟩], [⟨0x1f600, by decide⟩]) := by decide +kernel
  obtain ⟨result, result', envelope, envelope', hresult, henvelope, hnative, hresult', henvelope', heq⟩ := hopIds_eq hids
  refine ⟨result, result', envelope, envelope', hresult, henvelope, hnative, hresult', henvelope', ?_⟩
  obtain ⟨hbefore, hafter⟩ := Prod.mk.injEq .. ▸ heq
  rw [hbefore, hafter]
  decide

theorem fromMapping_wire_sample :
    ∃ result envelope payload', fromMapping (asciiInterpreter sampleSha256) sampleFresh (queryRaw (lit "m-1")) = .ok result ∧
      result.envelope = some envelope ∧
      nextHop (asciiInterpreter sampleSha256) wireDecoder payloadFormat true sampleFresh envelope =
        .ok ⟨.valid, some { envelope with payload := payload' }, []⟩ ∧ envelope.payload.Equals payload' := by
  have hids : hopIds (queryRaw (lit "m-1")) = some (lit "m-1", lit "m-1") := by decide +kernel
  obtain ⟨result, -, envelope, -, hresult, henvelope, hnative, -⟩ := hopIds_eq hids
  have hstack : Depthwise (asciiInterpreter sampleSha256) wireDecoder := ⟨fun _ _ _ _ => rfl, fun _ _ _ _ _ => rfl⟩
  have hnow : Stripped sampleFresh.now := ⟨by decide, by decide⟩
  have hpairs : payloadFormat.ensureAscii = true → envelope.Unpaired := by
    obtain ⟨heading, details, hashes, -, hdetails, -, rfl, -⟩ := fromMapping_envelope hresult henvelope
    have hdetailed := detailed_of_detailsOf hdetails
    have hrefs : details.sourceRefs = [] := Option.some.inj hdetailed.sourceRefs.symm
    refine fun _ => ⟨(congrArg unpaired hdetailed.messageId).trans (by decide),
      (congrArg unpaired hdetailed.createdAt).trans (by decide), ?_, ?_⟩
    · simp only [List.forall_mem_cons]
      exact ⟨nofun, nofun, nofun, nofun, nofun, fun _ hmem => absurd hmem List.not_mem_nil⟩
    · rw [envelopeOf, hrefs]
      exact fun _ hmem => absurd hmem List.not_mem_nil
  obtain ⟨payload', hhop, hequals⟩ :=
    fromMapping_wire hstack readable_payloadFormat hnow hresult henvelope hnative hpairs true sampleFresh
  exact ⟨result, envelope, payload', hresult, henvelope, hhop, hequals⟩

end CcbCore.Radar
