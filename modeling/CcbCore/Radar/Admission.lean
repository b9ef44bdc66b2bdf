import CcbCore.Library.Raising
import CcbCore.Radar.Conservation

/-!
# What can be admitted

`RadarRuntime.admit` of a mapping that `json.loads` can give, at a valid time. A mapping
is rejected for its fields without harm. One of unknown taxonomy is recorded as it is, and
the record binds texts of the sender's; one that passes all checks is hashed, and the text
that is hashed holds the sender's texts as they came. Neither is guarded: a lone surrogate
there, or a nesting that the stack does not take, raises out of `admit`.
`admission_total_iff` says when a receipt is returned.
-/

namespace CcbCore.Radar

open CcbCore.CodePoints CcbCore.Postgres CcbCore.Raising

variable {Opaque : Type} {py : Interpreter Opaque} {unicode : Casefold} {raw : Mapping Opaque}
  {heading : Heading} {audience : List Str} {sourceLocator : Option Str} {fresh : Fresh}

/-! ### The checks -/

/-- The required fields are there, the version is the number one, and the other fields of the
heading are texts. -/
structure Headed (unicode : Casefold) (raw : Mapping Opaque) (heading : Heading) : Prop where
  present : ∀ name ∈ ["schema_version", "sender", "domain", "intent", "payload"], field raw name ≠ none
  schemaVersion : field raw "schema_version" = some (.int 1)
  sender : text? (get raw "sender") = some heading.sender
  domain : (text? (get raw "domain")).map unicode.casefold = some heading.domain
  intent : (text? (get raw "intent")).map unicode.casefold = some heading.intent

/-- The domain and the intent are known. -/
def Heading.Known (heading : Heading) : Prop := heading.domain ∈ allowedDomains ∧ heading.intent ∈ allowedIntents

/-- A heading of unknown domain or intent. -/
def UnknownTaxonomy (unicode : Casefold) (raw : Mapping Opaque) : Prop :=
  ∃ heading, Headed unicode raw heading ∧ ¬ heading.Known

/-- All fields but the payload pass their checks. -/
structure Checked (unicode : Casefold) (raw : Mapping Opaque) (heading : Heading) (audience : List Str) : Prop where
  headed : Headed unicode raw heading
  known : heading.Known
  audience : audienceOf unicode (get raw "audience") = some audience
  priority : (priorityOf raw).isSome = true
  requiresAck : (requiresAckOf raw).isSome = true
  sourceRefs : (sourceRefsOf raw).isSome = true

/-- A mapping that the dead letters take. -/
structure Recordable (py : Interpreter Opaque) (raw : Mapping Opaque) (sourceLocator : Option Str) : Prop where
  messageId : ∀ messageId ∈ text? (get raw "message_id"), encodable messageId = true
  sourceLocator : ∀ locator ∈ sourceLocator, isBlank locator = false ∧ encodable locator = true
  walks : ∀ field ∈ raw, py.walks field.2 = true
  encodes : py.encodes (.object (evidenceMapping raw)) = true

/-- A mapping that can be hashed. -/
structure Hashable (py : Interpreter Opaque) (raw : Mapping Opaque) (heading : Heading) (recipients : List Str) : Prop where
  sender : (get raw "sender").encodable = true
  audience : (get raw "audience").encodable = true
  payload : (get raw "payload").encodable = true
  encodesPayload : py.encodes (get raw "payload") = true
  encodesCanonical : py.encodes (canonical heading recipients (get raw "payload")) = true

/-- A mapping that is admitted without an exception. -/
structure Admissible (py : Interpreter Opaque) (raw : Mapping Opaque) (sourceLocator : Option Str) : Prop where
  recordable : UnknownTaxonomy py.unicode raw → Recordable py raw sourceLocator
  hashable : ∀ heading audience, Checked py.unicode raw heading audience → Hashable py raw heading audience

theorem Headed.unique {heading' : Heading} (h : Headed unicode raw heading) (h' : Headed unicode raw heading') :
    heading = heading' := by
  obtain ⟨sender, domain, intent⟩ := heading
  obtain ⟨sender', domain', intent'⟩ := heading'
  obtain rfl : sender = sender' := Option.some.inj (h.sender.symm.trans h'.sender)
  obtain rfl : domain = domain' := Option.some.inj (h.domain.symm.trans h'.domain)
  obtain rfl : intent = intent' := Option.some.inj (h.intent.symm.trans h'.intent)
  rfl

/-- The first checks reject a mapping without a heading, and leave one of unknown taxonomy to
the dead letters. -/
theorem headingOf_cases (unicode : Casefold) (raw : Mapping Opaque) :
    (∃ result, headingOf unicode raw = .error result ∧ result.classification = .rejected ∧
      ∀ heading, ¬ Headed unicode raw heading) ∨
    (∃ heading errors, headingOf unicode raw = .error ⟨.dlq, none, errors⟩ ∧ Headed unicode raw heading ∧
      ¬ heading.Known ∧ errors ∈ [["domain"], ["intent"], ["domain", "intent"]]) ∨
    ∃ heading, headingOf unicode raw = .ok heading ∧ Headed unicode raw heading ∧ heading.Known := by
  unfold headingOf
  dsimp only
  split
  · next hmissing =>
    refine .inl ⟨_, rfl, rfl, fun heading h => hmissing ?_⟩
    rw [List.filter_eq_nil_iff]
    intro name hname
    rw [Option.isNone_iff_eq_none]
    exact h.present name hname
  next hpresent =>
  simp only [ne_eq, not_not, List.filter_eq_nil_iff, Option.isNone_iff_eq_none] at hpresent
  split
  · next hversion =>
    split
    · next sender domain intent hsender hdomain hintent =>
      have hheaded : Headed unicode raw ⟨sender, domain, intent⟩ := ⟨hpresent, hversion, hsender, hdomain, hintent⟩
      by_cases hd : domain ∈ allowedDomains
      · by_cases hi : intent ∈ allowedIntents
        · exact .inr (.inr ⟨⟨sender, domain, intent⟩, by simp [errorsOf, hd, hi], hheaded, hd, hi⟩)
        · exact .inr (.inl ⟨⟨sender, domain, intent⟩, ["intent"], by simp [errorsOf, hd, hi], hheaded, fun h => hi h.2, by simp⟩)
      · by_cases hi : intent ∈ allowedIntents
        · exact .inr (.inl ⟨⟨sender, domain, intent⟩, ["domain"], by simp [errorsOf, hd, hi], hheaded, fun h => hd h.1, by simp⟩)
        · exact .inr (.inl ⟨⟨sender, domain, intent⟩, ["domain", "intent"], by simp [errorsOf, hd, hi], hheaded,
            fun h => hd h.1, by simp⟩)
    · next hnone =>
      exact .inl ⟨_, rfl, rfl, fun heading h => hnone _ _ _ h.sender h.domain h.intent⟩
  · next hversion =>
    exact .inl ⟨_, rfl, rfl, fun heading h => hversion h.schemaVersion⟩

theorem detailsOf_cases (unicode : Casefold) (fresh : Fresh) (raw : Mapping Opaque) :
    (∃ result, detailsOf unicode fresh raw = .error result ∧ result.classification = .rejected ∧
      ∀ heading audience, ¬ Checked unicode raw heading audience) ∨
    ∃ details, detailsOf unicode fresh raw = .ok details ∧ audienceOf unicode (get raw "audience") = some details.audience ∧
      (priorityOf raw).isSome = true ∧ (requiresAckOf raw).isSome = true ∧ (sourceRefsOf raw).isSome = true := by
  unfold detailsOf
  split
  · next haudience hpriority hack hrefs =>
    exact .inr ⟨_, rfl, haudience, by rw [hpriority]; rfl, by rw [hack]; rfl, by rw [hrefs]; rfl⟩
  · next hnone =>
    refine .inl ⟨_, rfl, rfl, fun heading audience h => ?_⟩
    obtain ⟨priority, hpriority⟩ := Option.isSome_iff_exists.mp h.priority
    obtain ⟨requiresAck, hack⟩ := Option.isSome_iff_exists.mp h.requiresAck
    obtain ⟨sourceRefs, hrefs⟩ := Option.isSome_iff_exists.mp h.sourceRefs
    exact hnone _ _ _ _ h.audience hpriority hack hrefs

/-! ### Hashing -/

theorem allItems_eq (onInt : ℤ → Bool) (onText : Str → Bool) (onOther : Opaque → Bool) (items : List (Value Opaque)) :
    Value.allItems onInt onText onOther items = items.all (·.all onInt onText onOther) := by
  induction items with
  | nil => rfl
  | cons item items ih => rw [Value.allItems, ih, List.all_cons]

theorem encodable_text? {value : Value Opaque} {text : Str} (h : text? value = some text) :
    value.encodable = encodable text := by
  unfold text? at h
  split at h
  · next original =>
    split at h
    · cases h
    · cases h
      exact (encodable_strip original).symm
  · cases h

theorem encodable_texts? {values : List (Value Opaque)} {texts : List Str} (h : texts? values = some texts) :
    values.all Value.encodable = texts.all encodable := by
  induction values generalizing texts with
  | nil =>
    cases h
    rfl
  | cons value values ih =>
    rw [texts?] at h
    split at h
    · next text rest htext hrest =>
      cases h
      rw [List.all_cons, List.all_cons, encodable_text? htext, ih hrest]
    · cases h

theorem encodable_audienceOf {value : Value Opaque} (h : audienceOf unicode value = some audience) :
    value.encodable = audience.all encodable := by
  unfold audienceOf at h
  split at h
  · cases h
    rfl
  · next items =>
    obtain ⟨texts, htexts, rfl⟩ := Option.map_eq_some_iff.mp h
    have hitems : (Value.array items).encodable = items.all Value.encodable := allItems_eq _ _ _ items
    rw [hitems, encodable_texts? htexts, Bool.eq_iff_iff, List.all_eq_true, List.all_eq_true]
    simp only [List.mem_eraseDups, List.forall_mem_map, encodable_casefold]
  · cases h

theorem encodable_of_known {text : Str} (h : text ∈ allowedDomains ∨ text ∈ allowedIntents) : encodable text = true := by
  obtain h | h := h
  · obtain ⟨word, -, rfl⟩ := List.mem_map.mp h
    exact encodable_lit word
  · obtain ⟨word, -, rfl⟩ := List.mem_map.mp h
    exact encodable_lit word

theorem canonical_encodable (hknown : heading.Known) (payload : Value Opaque) :
    (canonical heading audience payload).encodable = true ↔
      encodable heading.sender = true ∧ audience.all encodable = true ∧ payload.encodable = true := by
  simp [canonical, Value.encodable, Value.all, Value.allFields, allItems_eq, encodable_lit,
    encodable_of_known (.inl hknown.1), encodable_of_known (.inr hknown.2)]

theorem canonical_json {payload : Value Opaque} (h : payload.isJson = true) :
    (canonical heading audience payload).isJson = true := by
  rw [Value.isJson] at h
  have hversion : prints 1 = true := rfl
  simp [canonical, Value.isJson, Value.all, Value.allFields, allItems_eq, hversion, h]

/-- A payload in JSON is hashed if the stack takes its texts and the canonical one encodes. -/
theorem hashesOf_ok {payload : Value Opaque} (hpayload : payload.isJson = true) :
    (∃ hashes, hashesOf py heading audience payload = .ok hashes) ↔
      py.encodes payload = true ∧ py.encodes (canonical heading audience payload) = true ∧
        (canonical heading audience payload).encodable = true := by
  unfold hashesOf
  rcases dumps_json py payloadFormat ⟨encodable_lit _, encodable_lit _⟩ hpayload with
    ⟨hstack, hdumps⟩ | ⟨hstack, payloadJson, hdumps, hpayloadEnc⟩
  · simp [hdumps, hstack, Raised.isTypeOrValueError]
  have hcanonical : (canonical heading audience payload).isJson = true := canonical_json hpayload
  obtain ⟨payloadBytes, hpayloadBytes⟩ := encodeText_ok.mpr (hpayloadEnc.trans (Bool.true_or _))
  rcases dumps_json py canonicalFormat ⟨encodable_lit _, encodable_lit _⟩ hcanonical with
    ⟨hstack', hdumps'⟩ | ⟨hstack', canonicalJson, hdumps', hcanonicalEnc⟩
  · simp only [hdumps, hdumps', hstack', except_bind_ok]
    simp
  · have hbytes : (∃ bytes, encodeText canonicalJson = .ok bytes) ↔ _ := encodeText_ok
    rw [hcanonicalEnc.trans (Bool.false_or _)] at hbytes
    simp only [hdumps, hdumps', hstack, hstack', true_and, except_bind_ok, hpayloadBytes, ← hbytes]
    constructor
    · rintro ⟨hashes, text, htext, canonicalBytes, hcanonicalBytes, -⟩
      cases htext
      exact ⟨canonicalBytes, hcanonicalBytes⟩
    · rintro ⟨canonicalBytes, hcanonicalBytes⟩
      exact ⟨_, _, rfl, canonicalBytes, hcanonicalBytes, payloadBytes, rfl, rfl⟩

/-- A checked mapping is hashed if its texts encode and the stack takes it. -/
theorem hashesOf_checked (h : Checked unicode raw heading audience) (hpayload : (get raw "payload").isJson = true) :
    (∃ hashes, hashesOf py heading audience (get raw "payload") = .ok hashes) ↔ Hashable py raw heading audience := by
  rw [hashesOf_ok hpayload, canonical_encodable h.known, ← encodable_text? h.headed.sender, ← encodable_audienceOf h.audience]
  constructor
  · rintro ⟨hpayloadStack, hcanonicalStack, hsender, haudience, hpayloadEnc⟩
    exact ⟨hsender, haudience, hpayloadEnc, hpayloadStack, hcanonicalStack⟩
  · rintro ⟨hsender, haudience, hpayloadEnc, hpayloadStack, hcanonicalStack⟩
    exact ⟨hpayloadStack, hcanonicalStack, hsender, haudience, hpayloadEnc⟩

/-! ### Recording -/

/-- A message id that is made of a hash is a text that can be recorded. -/
theorem digest_spec (digest : List Char) : isBlank (lit (String.ofList ("radar-dlq-".toList ++ digest))) = false ∧
    encodable (lit (String.ofList ("radar-dlq-".toList ++ digest))) = true := by
  refine ⟨?_, encodable_lit _⟩
  rw [lit, String.toList_ofList, List.map_append, isBlank, List.all_append]
  exact Bool.and_eq_false_imp.mpr fun h => absurd h (by decide)

/-- A text with more than space in it has more than space in it. -/
theorem isBlank_text? {value : Value Opaque} {text : Str} (h : text? value = some text) : isBlank text = false := by
  unfold text? at h
  split at h
  · next original =>
    split at h
    · cases h
    · next hblank =>
      cases h
      rw [isBlank_strip]
      exact Bool.not_eq_true _ ▸ hblank
  · cases h

theorem rawMessageId_spec (py : Interpreter Opaque) (raw : Mapping Opaque) :
    isBlank (rawMessageId py raw) = false ∧
    (encodable (rawMessageId py raw) = true ↔ ∀ messageId ∈ text? (get raw "message_id"), encodable messageId = true) := by
  unfold rawMessageId
  cases htext : text? (get raw "message_id") with
  | some messageId => exact ⟨isBlank_text? htext, by simp⟩
  | none => exact ⟨(digest_spec _).1, iff_of_true (digest_spec _).2 fun _ h => absurd h (Option.not_mem_none _)⟩

theorem evidenceOf_refusal {messageId : Str} {errors : List String} {envelope : Mapping Opaque}
    (hid : isBlank messageId = false) (herrors : errors ∈ [["domain"], ["intent"], ["domain", "intent"]]) :
    (evidenceOf messageId errors envelope sourceLocator).refusal = none ↔
      ∀ locator ∈ sourceLocator, isBlank locator = false := by
  have hstage : isBlank (lit "ADMISSION") = false := by decide
  have hcode : isBlank (lit "UNKNOWN_TAXONOMY") = false := by decide
  have hcategory : isBlank (lit "TAXONOMY") = false := by decide
  have hdiagnostic : isBlank (evidenceOf messageId errors envelope sourceLocator).diagnostic = false := by
    simp only [List.mem_cons, List.not_mem_nil, or_false] at herrors
    rcases herrors with rfl | rfl | rfl <;> rfl
  unfold Evidence.refusal
  rw [hdiagnostic]
  simp only [evidenceOf, hid, hstage, hcode, hcategory]
  cases sourceLocator with
  | none => simp
  | some locator => cases hlocator : isBlank locator <;> simp [hlocator]

theorem evidenceOf_encodable {messageId : Str} {errors : List String} {envelope : Mapping Opaque} :
    (evidenceOf messageId errors envelope sourceLocator).Encodable py ↔
      encodable messageId = true ∧ ∀ locator ∈ sourceLocator, encodable locator = true := by
  refine ⟨fun h => ⟨h.messageId, h.sourceLocator⟩, fun ⟨hid, hlocator⟩ => ⟨hid, encodable_lit _, encodable_lit _, ?_, ?_, hlocator⟩⟩
  · rw [evidenceOf]
    split
    · exact encodable_lit _
    · rw [encodable_join (encodable_lit _), List.all_map, List.all_eq_true]
      exact fun error _ => encodable_lit error
  · rw [encodable_iff]
    intro c hc
    have hletters : (strip (lit "TAXONOMY")).all (fun c => c.val < 0x80) = true := rfl
    have hascii := py.upper_ascii (strip (lit "TAXONOMY")) (by simpa only [List.all_eq_true, decide_eq_true_eq] using hletters) c hc
    simp only [isSurrogate, Bool.and_eq_false_iff, decide_eq_false_iff_not]
    omega

/-- A mapping in JSON of unknown taxonomy is recorded if the dead letters take it. -/
theorem recorded_iff (store : DeadLetterStore) (hraw : IsJson raw) {errors : List String}
    (herrors : errors ∈ [["domain"], ["intent"], ["domain", "intent"]]) :
    (∃ envelope recorded, safeDlqEnvelope py raw = .ok envelope ∧
      store.record py (evidenceOf (rawMessageId py raw) errors envelope sourceLocator) = .ok recorded) ↔
      Recordable py raw sourceLocator := by
  obtain ⟨hblank, hid⟩ := rawMessageId_spec py raw
  have hjson : IsJson (evidenceOf (rawMessageId py raw) errors (evidenceMapping raw) sourceLocator).envelope :=
    hraw.evidenceMapping
  have hrecord := record_ok py store hjson
  rw [evidenceOf_refusal hblank herrors, evidenceOf_encodable, hid] at hrecord
  rcases safeDlqEnvelope_json py hraw with ⟨hsafe, hwalks⟩ | ⟨hsafe, field, hfield, hnot⟩
  · constructor
    · rintro ⟨envelope, recorded, henvelope, hrecorded⟩
      obtain rfl : evidenceMapping raw = envelope := Except.ok.inj (hsafe.symm.trans henvelope)
      obtain ⟨hlocator, hencodes, hmessageId, hlocator'⟩ := hrecord.mp ⟨recorded, hrecorded⟩
      exact ⟨hmessageId, fun locator hmem => ⟨hlocator locator hmem, hlocator' locator hmem⟩, hwalks, hencodes⟩
    · intro h
      obtain ⟨recorded, hrecorded⟩ := hrecord.mpr ⟨fun locator hmem => (h.sourceLocator locator hmem).1, h.encodes,
        h.messageId, fun locator hmem => (h.sourceLocator locator hmem).2⟩
      exact ⟨_, recorded, hsafe, hrecorded⟩
  · constructor
    · rintro ⟨envelope, recorded, henvelope, -⟩
      rw [hsafe] at henvelope
      cases henvelope
    · intro h
      rw [h.walks field hfield] at hnot
      cases hnot

/-! ### Admission -/

section Admit

variable {s : Runtime Opaque} {nowMs : ℤ}

/-- Of a mapping in JSON at a valid time, `admit` returns a receipt if it is admissible. -/
theorem admitRaw_returns (hs : s.Good py.unicode) (hraw : IsJson raw) (hnow : 0 ≤ nowMs)
    (hlast : ∀ last ∈ s.dedupe.lastNowMs, last ≤ nowMs) :
    (∃ receipt s', admitRaw py raw nowMs sourceLocator fresh s = (.ok receipt, s')) ↔ Admissible py raw sourceLocator := by
  rcases headingOf_cases py.unicode raw with ⟨result, hheading, hclass, hnone⟩ |
    ⟨heading, errors, hheading, hheaded, hunknown, herrors⟩ | ⟨heading, hheading, hheaded, hknown⟩
  · have hresult : fromMapping py fresh raw = .ok result := by rw [fromMapping, hheading]
    refine iff_of_true ⟨_, _, admitRaw_rejected hresult hclass⟩ ⟨?_, ?_⟩
    · rintro ⟨heading, hheaded, -⟩
      exact absurd hheaded (hnone heading)
    · exact fun heading audience hchecked => absurd hchecked.headed (hnone heading)
  · have hresult : fromMapping py fresh raw = .ok ⟨.dlq, none, errors⟩ := by rw [fromMapping, hheading]
    have hadmissible : Admissible py raw sourceLocator ↔ Recordable py raw sourceLocator := by
      refine ⟨fun h => h.recordable ⟨heading, hheaded, hunknown⟩, fun h => ⟨fun _ => h, fun heading' audience hchecked => ?_⟩⟩
      obtain rfl := hheaded.unique hchecked.headed
      exact absurd hchecked.known hunknown
    rw [hadmissible, ← recorded_iff s.dlq hraw herrors]
    simp only [admitRaw, hresult]
    cases hsafe : safeDlqEnvelope py raw with
    | error e => simp
    | ok envelope =>
      cases hrecord : s.dlq.record py (evidenceOf (rawMessageId py raw) errors envelope sourceLocator) with
      | error e => simp [hrecord]
      | ok recorded =>
        simp only [hrecord]
        exact iff_of_true ⟨_, _, rfl⟩ ⟨envelope, recorded, rfl, hrecord⟩
  have hknownTaxonomy : ¬ UnknownTaxonomy py.unicode raw := by
    rintro ⟨heading', hheaded', hunknown⟩
    exact hunknown (hheaded.unique hheaded' ▸ hknown)
  rcases detailsOf_cases py.unicode fresh raw with ⟨result, hdetails, hclass, hnone⟩ |
    ⟨details, hdetails, haudience, hpriority, hack, hrefs⟩
  · have hresult : fromMapping py fresh raw = .ok result := by rw [fromMapping, hheading]; simp only [hdetails]
    exact iff_of_true ⟨_, _, admitRaw_rejected hresult hclass⟩
      ⟨fun h => absurd h hknownTaxonomy, fun heading audience hchecked => absurd hchecked (hnone heading audience)⟩
  have hchecked : Checked py.unicode raw heading details.audience := ⟨hheaded, hknown, haudience, hpriority, hack, hrefs⟩
  have hadmissible : Admissible py raw sourceLocator ↔ Hashable py raw heading details.audience := by
    refine ⟨fun h => h.hashable heading details.audience hchecked,
      fun h => ⟨fun hunknown => absurd hunknown hknownTaxonomy, fun heading' audience' hchecked' => ?_⟩⟩
    obtain rfl := hheaded.unique hchecked'.headed
    obtain rfl : details.audience = audience' := Option.some.inj (haudience.symm.trans hchecked'.audience)
    exact h
  rw [hadmissible, ← hashesOf_checked hchecked (hraw.get "payload")]
  cases hhashes : hashesOf py heading details.audience (get raw "payload") with
  | error e =>
    have hresult : fromMapping py fresh raw = .error e := by rw [fromMapping, hheading]; simp only [hdetails, hhashes]
    simp [admitRaw, hresult]
  | ok hashes =>
    refine iff_of_true ?_ ⟨hashes, rfl⟩
    cases hashes with
    | none =>
      have hresult : fromMapping py fresh raw = .ok (rejected ["payload"]) := by
        rw [fromMapping, hheading]
        simp only [hdetails, hhashes]
      exact ⟨_, _, admitRaw_rejected hresult rfl⟩
    | some hashes =>
      obtain ⟨result, hresult, henvelope⟩ : ∃ result, fromMapping py fresh raw = .ok result ∧
          result.envelope = some (envelopeOf raw heading details hashes) := by
        rw [fromMapping, hheading]
        simp only [hdetails, hhashes]
        exact ⟨_, rfl, rfl⟩
      rw [admitRaw_envelope hresult henvelope]
      rcases admitEnvelope_cases nowMs hs (fromMapping_valid hresult henvelope) with
        ⟨e, haccept, -⟩ | ⟨receipt, s', hdone, -⟩
      · obtain ⟨answer, hanswer⟩ := s.dedupe.accept_ok (dedupeKey_ne_nil _) hnow hlast
        rw [haccept] at hanswer
        cases hanswer
      · exact ⟨receipt, s', hdone⟩

/-- **In every state that a run reaches, `admit` of a mapping that `json.loads` can give, at a
valid time, returns a receipt and accounts for the envelope, if and only if the mapping
can be recorded when its taxonomy is unknown and hashed when it passes the checks.** -/
theorem admission_total_iff {telemetry : TelemetryStore} {dlq : DeadLetterStore} {queueSize : ℕ} {hsize : 0 < queueSize}
    {dedupeWindowMs : ℤ} {hwindow : 0 ≤ dedupeWindowMs} {events : List (Event Opaque)}
    (h : Run (Step py) (Runtime.start telemetry dlq queueSize hsize dedupeWindowMs hwindow) events s)
    (hraw : IsJson raw) (hnow : 0 ≤ nowMs) (hlast : ∀ last ∈ s.dedupe.lastNowMs, last ≤ nowMs) :
    (∃ receipt s', admitRaw py raw nowMs sourceLocator fresh s = (.ok receipt, s') ∧
      s'.telemetry.total + s'.queue.heap.length = s.telemetry.total + s.queue.heap.length + 1) ↔
      Admissible py raw sourceLocator := by
  obtain ⟨hgood, -, -⟩ := run_accounts h
  have hreturns : (∃ receipt s', admitRaw py raw nowMs sourceLocator fresh s = (.ok receipt, s')) ↔ _ :=
    admitRaw_returns hgood hraw hnow hlast
  rw [← hreturns]
  constructor
  · rintro ⟨receipt, s', hdone, -⟩
    exact ⟨receipt, s', hdone⟩
  · rintro ⟨receipt, s', hdone⟩
    obtain ⟨-, hbalanced, -⟩ := admitRaw_accounts hgood hdone
    exact ⟨receipt, s', hdone, hbalanced⟩

end Admit

/-- An event whose payload is a lone surrogate. -/
def surrogateRaw : Mapping Empty :=
  [(lit "schema_version", .int 1), (lit "sender", .str (lit "radar")), (lit "domain", .str (lit "system")),
    (lit "intent", .str (lit "event")), (lit "payload", .str [⟨0xd800, by decide⟩])]

/-- A new runtime raises on it, and keeps no evidence. -/
theorem surrogate_payload_raises :
    Run (Step (asciiInterpreter sampleSha256)) sampleStart [] sampleStart ∧ IsJson surrogateRaw ∧
      (∀ last ∈ sampleStart.dedupe.lastNowMs, last ≤ 1000) ∧
      admitRaw (asciiInterpreter sampleSha256) surrogateRaw 1000 none sampleFresh sampleStart =
        (.error .unicodeEncodeError, sampleStart) :=
  ⟨.nil, by simp [IsJson, surrogateRaw, Value.isJson, Value.all, show prints 1 = true from rfl], nofun, rfl⟩

theorem headed_sampleRaw : Headed asciiCasefold sampleRaw ⟨lit "radar", lit "system", lit "event"⟩ := by
  refine ⟨?_, rfl, rfl, rfl, rfl⟩
  simp only [List.forall_mem_cons]
  exact ⟨Option.some_ne_none _, Option.some_ne_none _, Option.some_ne_none _, Option.some_ne_none _,
    Option.some_ne_none _, List.forall_mem_nil _⟩

/-- The envelope is admitted to a full queue. -/
theorem admission_total_sample :
    ∃ receipt s', admitRaw (asciiInterpreter sampleSha256) sampleRaw 4000 none sampleFresh sampleOutcome.2 = (.ok receipt, s') ∧
      s'.telemetry.total + s'.queue.heap.length = 4 := by
  have hraw : IsJson sampleRaw := by
    simp [IsJson, sampleRaw, sampleMapping, Value.isJson, Value.all, Value.allItems, show prints 1 = true from rfl,
      show prints 0 = true from rfl]
  have hcounted : sampleOutcome.2.telemetry.total + sampleOutcome.2.queue.heap.length = 3 := by decide +kernel
  have hiff : (∃ receipt s', admitRaw (asciiInterpreter sampleSha256) sampleRaw 4000 none sampleFresh sampleOutcome.2 =
      (.ok receipt, s') ∧ _) ↔ _ :=
    admission_total_iff sampleRun hraw (by decide) sampleOutcome_last
  rw [hcounted] at hiff
  refine hiff.mpr ⟨?_, ?_⟩
  · rintro ⟨heading, hheaded, hunknown⟩
    obtain rfl := headed_sampleRaw.unique hheaded
    exact absurd ⟨by decide, by decide⟩ hunknown
  · intro heading audience hchecked
    exact ⟨rfl, rfl, rfl, rfl, rfl⟩

end CcbCore.Radar
