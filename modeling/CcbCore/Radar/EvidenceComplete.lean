import CcbCore.Radar.Admission
import CcbCore.Radar.DeadLetterCalls
import CcbCore.Radar.Equality
import CcbCore.Radar.RawObjects

/-!
# The evidence of a dead letter

A raw mapping of unknown taxonomy is recorded, and what `inspect` reads back of it equals
it if it is JSON. `_safe_dlq_value` names what JSON has not (`Object.safe`), so that its
text is refused only for an integer that the interpreter does not print. `evidence_complete_iff` says when the evidence is complete: the stack
takes the mapping, the integers print, and the source locator encodes.
`long_integer_lost` is a mapping whose integer does not.
-/

namespace CcbCore.Radar.Raw

open CcbCore.CodePoints CcbCore.Postgres CcbCore.Raising

variable {Opaque : Type} {sourceLocator : Option Str}

/-! ### Evidence -/

theorem plain_evidenceFormat : evidenceFormat.Plain := ⟨encodable_lit _, encodable_lit _⟩

/-- Plain evidence is recorded if no argument is blank, it has a text, and what the insert
binds encodes. -/
theorem record_plain (py : Interpreter Opaque) (store : DeadLetterStore) {evidence : Evidence Opaque}
    (hvalue : Plain (.object evidence.envelope)) :
    (∃ recorded, store.record py evidence = .ok recorded) ↔ evidence.refusal = none ∧
      py.encodes (.object evidence.envelope) = true ∧ (Value.object evidence.envelope).isJson = true ∧ evidence.Encodable py := by
  cases hjson : (Value.object evidence.envelope).isJson with
  | true =>
    have hall : IsJson evidence.envelope := by
      rw [Value.isJson, Value.all, allFields_eq, List.all_eq_true] at hjson
      exact fun field hfield => (Bool.and_eq_true .. ▸ hjson field hfield).2
    rw [record_ok py store hall]
    simp only [true_and]
  | false =>
    refine iff_of_false ?_ fun h => Bool.false_ne_true h.2.2.1
    rintro ⟨recorded, hrecorded⟩
    obtain ⟨text, htext⟩ : ∃ text, dumps py evidenceFormat (.object evidence.envelope) = .ok text := by
      unfold DeadLetterStore.record at hrecorded
      split at hrecorded
      · cases hrecorded
      split at hrecorded
      · split at hrecorded <;> cases hrecorded
      · next text htext => exact ⟨text, htext⟩
    have hprints := ((dumps_plain plain_evidenceFormat hvalue).mp ⟨text, htext⟩).2
    rw [hjson] at hprints
    cases hprints

/-! ### Integers -/

mutual

/-- Each integer in an object satisfies a condition, unless its key is given another value. -/
def Object.ints (onInt : ℤ → Bool) : Object → Bool
  | .int n => onInt n
  | .list items | .tuple items => Object.intItems onInt items
  | .mapping _ items => (dictOf (sortFields (Object.intFields onInt items))).all (·.2)
  | _ => true

@[inherit_doc Object.ints]
def Object.intItems (onInt : ℤ → Bool) : List Object → Bool
  | [] => true
  | item :: items => item.ints onInt && Object.intItems onInt items

/-- The keys of a mapping, and what the integers in its values satisfy. -/
def Object.intFields (onInt : ℤ → Bool) : Items → List (Str × Bool)
  | [] => []
  | (key, value) :: items => (key.form, value.ints onInt) :: Object.intFields onInt items

end

/-- Each integer in a raw mapping is printed, unless its key is given another value. -/
def RawMapping.prints (raw : RawMapping) : Bool := (dictOf (Object.intFields Radar.prints raw.items)).all (·.2)

theorem setField_map {α β : Type} (f : α → β) (fields : List (Str × α)) (key : Str) (value : α) :
    setField (fields.map fun field => (field.1, f field.2)) key (f value) =
      (setField fields key value).map fun field => (field.1, f field.2) := by
  have hany : (fields.map fun field => (field.1, f field.2)).any (·.1 = key) = fields.any (·.1 = key) := List.any_map
  unfold setField
  rw [hany]
  split
  · rw [List.map_map, List.map_map]
    refine List.map_congr_left fun field _ => ?_
    simp only [Function.comp_apply]
    split <;> rfl
  · rw [List.map_append, List.map_cons, List.map_nil]

/-- What is done to the values of some pairs is done to the values of their dictionary. -/
theorem dictOf_map {α β : Type} (f : α → β) (pairs : List (Str × α)) :
    dictOf (pairs.map fun pair => (pair.1, f pair.2)) = (dictOf pairs).map fun pair => (pair.1, f pair.2) := by
  unfold dictOf
  rw [List.foldl_map]
  suffices hfold : ∀ fields : List (Str × α), pairs.foldl (fun fields pair => setField fields pair.1 (f pair.2))
      (fields.map fun field => (field.1, f field.2)) =
        (pairs.foldl (fun fields pair => setField fields pair.1 pair.2) fields).map fun field => (field.1, f field.2) from hfold []
  induction pairs with
  | nil => exact fun _ => rfl
  | cons pair pairs ih =>
    intro fields
    rw [List.foldl_cons, List.foldl_cons, setField_map, ih]

section Ints

variable {onInt : ℤ → Bool}

/-- The integers of what is made of a mapping are those that no other value is put in place of. -/
theorem allFields_dictOf (fields : Mapping Object) : Value.allFields onInt (fun _ => true) (fun _ => false) (dictOf fields) =
    (dictOf (fields.map fun field => (field.1, field.2.all onInt (fun _ => true) (fun _ => false)))).all (·.2) := by
  rw [allFields_eq, dictOf_map (Value.all onInt (fun _ => true) (fun _ => false)), List.all_map]
  rfl

mutual

theorem all_safe : ∀ o : Object, o.safe.all onInt (fun _ => true) (fun _ => false) = o.ints onInt
  | .null => rfl
  | .bool _ => rfl
  | .int _ => rfl
  | .float _ => rfl
  | .str _ => rfl
  | .list items => by rw [Object.safe, Value.all, all_safeItems items, Object.ints]
  | .tuple items => by rw [Object.safe, Value.all, all_safeItems items, Object.ints]
  | .mapping _ items => by
    rw [Object.safe, Value.all, allFields_dictOf, ← sortFields_map (Value.all onInt (fun _ => true) (fun _ => false)),
      all_safeFields items, Object.ints]
  | .other _ => rfl

theorem all_safeItems : ∀ items : List Object,
    Value.allItems onInt (fun _ => true) (fun _ => false) (Object.safeItems items) = Object.intItems onInt items
  | [] => rfl
  | item :: items => by rw [Object.safeItems, Value.allItems, all_safe item, all_safeItems items, Object.intItems]

theorem all_safeFields : ∀ items : Items, ((Object.safeFields items).map fun field =>
    (field.1, field.2.all onInt (fun _ => true) (fun _ => false))) = Object.intFields onInt items
  | [] => rfl
  | (key, value) :: items => by
    rw [Object.safeFields, List.map_cons, all_safeFields items, all_safe value, Object.intFields]

end

end Ints

mutual

theorem ints_true : ∀ o : Object, o.ints (fun _ => true) = true
  | .null => rfl
  | .bool _ => rfl
  | .int _ => rfl
  | .float _ => rfl
  | .str _ => rfl
  | .list items => intItems_true items
  | .tuple items => intItems_true items
  | .mapping _ items => by
    rw [Object.ints, intFields_true items, sortFields_map fun _ : Unit => true, dictOf_map fun _ : Unit => true, List.all_map]
    exact List.all_eq_true.mpr fun _ _ => rfl
  | .other _ => rfl

theorem intItems_true : ∀ items : List Object, Object.intItems (fun _ => true) items = true
  | [] => rfl
  | item :: items => by rw [Object.intItems, ints_true item, intItems_true items, Bool.and_self]

theorem intFields_true : ∀ items : Items, Object.intFields (fun _ => true) items =
    (items.map fun item => (item.1.form, ())).map fun field => (field.1, true)
  | [] => rfl
  | (key, value) :: items => by rw [Object.intFields, ints_true value, intFields_true items, List.map_cons, List.map_cons]

end

/-- The evidence of a raw mapping is plain. -/
theorem plain_safeFields (raw : RawMapping) : Plain (.object (safeFields raw)) := by
  rw [Plain, Value.all, safeFields, allFields_dictOf, all_safeFields, intFields_true, dictOf_map fun _ : Unit => true, List.all_map]
  exact List.all_eq_true.mpr fun _ _ => rfl

/-- The evidence of a raw mapping is JSON if its integers print. -/
theorem isJson_safeFields (raw : RawMapping) : (Value.object (safeFields raw)).isJson = raw.prints := by
  rw [Value.isJson, Value.all, safeFields, allFields_dictOf, all_safeFields, RawMapping.prints]

/-! ### Mappings in JSON -/

mutual

/-- Lists, `dict`s of texts, texts, booleans, integers and `None`. -/
def Object.isNative : Object → Bool
  | .float _ | .tuple _ | .other _ => false
  | .list items => Object.nativeItems items
  | .mapping isDict items => isDict && Object.nativeFields items
  | _ => true

@[inherit_doc Object.isNative]
def Object.nativeItems : List Object → Bool
  | [] => true
  | item :: items => item.isNative && Object.nativeItems items

@[inherit_doc Object.isNative]
def Object.nativeFields : Items → Bool
  | [] => true
  | (.text _, value) :: items => value.isNative && Object.nativeFields items
  | (.other _, _) :: _ => false

end

/-- A raw mapping that is JSON. -/
def RawMapping.isNative (raw : RawMapping) : Bool := raw.isDict && Object.nativeFields raw.items

variable {items : Items} {fields : Mapping Object} {raw : RawMapping}

theorem seenFields_native (h : Object.nativeFields items = true) : ∃ fields, Object.seenFields items = some fields := by
  induction items with
  | nil => exact ⟨[], rfl⟩
  | cons item items ih =>
    obtain ⟨key | form, value⟩ := item
    · obtain ⟨rest, hrest⟩ := ih (Bool.and_eq_true_iff.mp h).2
      exact ⟨_, by rw [Object.seenFields, hrest, Option.map_some]⟩
    · cases h

theorem intFields_keys (onInt : ℤ → Bool) (items : Items) :
    (Object.intFields onInt items).map (·.1) = (Object.safeFields items).map (·.1) := by
  rw [← all_safeFields, List.map_map]
  rfl

/-- Where no key is given another value, all integers satisfy the condition. -/
theorem all_intFields {onInt : ℤ → Bool} (hnodup : (textKeys items).Nodup) (hfields : Object.seenFields items = some fields)
    (h : (dictOf (sortFields (Object.intFields onInt items))).all (·.2) = true ∨
      (dictOf (Object.intFields onInt items)).all (·.2) = true) :
    (Object.intFields onInt items).all (·.2) = true := by
  have hkeys : ((Object.intFields onInt items).map (·.1)).Nodup := by
    rw [intFields_keys, (keys_of_seenFields hfields).2]
    exact hnodup
  have hsorted : ((sortFields (Object.intFields onInt items)).map (·.1)).Nodup :=
    ((sortFields_perm _).map _).nodup_iff.mpr hkeys
  rwa [dictOf_nodup hkeys, dictOf_nodup hsorted, all_sortFields, or_self] at h

mutual

/-- JSON whose integers print is written exactly. -/
theorem exact_seen : ∀ o : Object, o.isNative = true → o.Keyed → o.ints prints = true → o.seen.Exact
  | .null, _, _, _ => trivial
  | .bool _, _, _, _ => trivial
  | .int _, _, _, hints => prints_iff.mp hints
  | .float _, h, _, _ => by cases h
  | .str _, _, _, _ => trivial
  | .list items, h, hkeyed, hints => exact_seenItems items h hkeyed hints
  | .tuple _, h, _, _ => by cases h
  | .mapping isDict items, h, hkeyed, hints => by
    obtain ⟨rfl, hnative⟩ := Bool.and_eq_true_iff.mp h
    obtain ⟨fields, hfields⟩ := seenFields_native hnative
    have hseen : (Object.mapping true items).seen = .object fields := by simp only [Object.seen, hfields]
    rw [hseen]
    exact ⟨(keys_of_seenFields hfields).1 ▸ hkeyed.1,
      exact_seenFields items hnative hkeyed.2 (all_intFields hkeyed.1 hfields (.inl hints)) fields hfields⟩
  | .other _, h, _, _ => by cases h

theorem exact_seenItems : ∀ items : List Object, Object.nativeItems items = true → Object.KeyedItems items →
    Object.intItems prints items = true → Value.ExactItems (Object.seenItems items)
  | [], _, _, _ => trivial
  | item :: items, h, hkeyed, hints => by
    obtain ⟨hitem, hitems⟩ := Bool.and_eq_true_iff.mp h
    obtain ⟨hint, hints⟩ := Bool.and_eq_true_iff.mp hints
    exact ⟨exact_seen item hitem hkeyed.1 hint, exact_seenItems items hitems hkeyed.2 hints⟩

theorem exact_seenFields : ∀ items : Items, Object.nativeFields items = true → Object.KeyedFields items →
    (Object.intFields prints items).all (·.2) = true → ∀ fields, Object.seenFields items = some fields → Value.ExactFields fields
  | [], _, _, _, _, hfields => by
    cases hfields
    trivial
  | (.text key, value) :: items, h, hkeyed, hints, _, hfields => by
    obtain ⟨hvalue, hitems⟩ := Bool.and_eq_true_iff.mp h
    rw [Object.intFields, List.all_cons, Bool.and_eq_true] at hints
    obtain ⟨rest, hrest, rfl⟩ := seenFields_cons hfields
    exact ⟨exact_seen value hvalue hkeyed.1 hints.1, exact_seenFields items hitems hkeyed.2 hints.2 rest hrest⟩
  | (.other _, _) :: _, h, _, _, _, _ => by cases h

end

/-- The evidence of JSON is the same with the fields of its values sorted. -/
theorem safeFields_exact (py : Interpreter Object) (hkeyed : Object.KeyedFields items) (hfields : Object.seenFields items = some fields)
    (hexact : Value.ExactFields fields) : Object.safeFields items = Value.sortedFields fields := by
  have hvalues : Radar.safeFields { py with safeOther := fun o => .ok o.safe } fields = returned (Object.safeFields items) :=
    safeFields_seen (fun _ => rfl) items fields hkeyed hfields
  rw [safeFields_json fields (Value.allFields_exact hexact)] at hvalues
  exact (List.map_injective_iff.mpr (fun _ _ h => by simpa [Prod.ext_iff] using h) hvalues).symm

/-- What is recorded of JSON whose integers print is read as it was. -/
theorem reads_native (py : Interpreter Object) (decoder : Decoder Object) (hnative : raw.isNative = true) (hkeyed : raw.Keyed)
    (hprints : raw.prints = true) (hscalar : (Value.object (texts raw)).encodable = true) :
    ∃ text, (Value.object (texts raw)).text py evidenceFormat = .ok text ∧
      (Value.object (safeFields raw)).text py evidenceFormat = .ok text ∧
      (decoder.scans text = true → ∃ envelope, loads decoder text = .ok envelope ∧ (Value.object (texts raw)).Equals envelope) := by
  obtain ⟨fields, hfields⟩ := seenFields_native (Bool.and_eq_true_iff.mp hnative).2
  rw [texts_of_seenFields hfields] at hscalar ⊢
  have hexact : (Value.object fields).Exact := ⟨(keys_of_seenFields hfields).1 ▸ hkeyed.1,
    exact_seenFields raw.items (Bool.and_eq_true_iff.mp hnative).2 hkeyed.2 (all_intFields hkeyed.1 hfields (.inr hprints)) fields hfields⟩
  obtain ⟨text, htext, -⟩ : ∃ text, (Value.object fields).text py evidenceFormat = .ok text ∧ _ :=
    Value.text_json plain_evidenceFormat (.object fields) hexact.isJson
  have hsafe : safeFields raw = Value.sortedFields fields := by
    rw [safeFields, dictOf_nodup ((keys_of_seenFields hfields).2 ▸ hkeyed.1), safeFields_exact py hkeyed.2 hfields hexact.2]
  refine ⟨text, htext, ?_, fun hscans => ⟨_, loads_text readable_evidenceFormat hexact (fun _ => Value.unpaired_of_encodable hscalar) htext hscans,
    Value.equals_sorted _ hexact⟩⟩
  rw [hsafe, Value.text, Value.fieldTexts_sorted]
  rw [Value.text] at htext
  exact htext

/-! ### Admission -/

/-- The dead letter of a raw mapping is stored, and one of JSON is read back as it was. -/
structure Complete (decoder : Decoder Object) (raw : RawMapping) (before after : DeadLetterStore) (receipt : RuntimeReceipt) :
    Prop where
  state : receipt.state = .dlq
  stored : ∃ row, after.rows = before.rows ++ [row] ∧ receipt.dlqItemId = some row.itemId ∧
    (raw.isNative = true → ∃ item, DeadLetters.inspect decoder after row.itemId = .ok item ∧
      (Value.object (texts raw)).Equals item.envelope)

/-- The interpreter and SQLite take what is recorded of a raw mapping. -/
structure Takes (py : ObjectInterpreter) (decoder : Decoder Object) (raw : RawMapping) (sourceLocator : Option Str) : Prop where
  sourceLocator : ∀ locator ∈ sourceLocator, encodable locator = true
  prints : raw.prints = true
  walks : Walks py raw
  encodes : py.encodes (.object (safeFields raw)) = true
  scans : raw.isNative = true → ∀ text, (Value.object (texts raw)).text py.toInterpreter evidenceFormat = .ok text →
    decoder.scans text = true

theorem encodable_get (h : (Value.object fields).encodable = true) (name : String) : (get fields name).encodable = true := by
  unfold Radar.get field
  cases hlookup : fields.lookup (lit name) with
  | none => rfl
  | some value =>
    obtain ⟨before, after, rfl, -⟩ := List.lookup_eq_some_iff.mp hlookup
    rw [Value.encodable, Value.all, allFields_eq, List.all_append, List.all_cons] at h
    exact (Bool.and_eq_true_iff.mp (Bool.and_eq_true_iff.mp (Bool.and_eq_true_iff.mp h).2).1).2

theorem rawMessageId_ok (py : ObjectInterpreter) (h : (Value.object (texts raw)).encodable = true) :
    isBlank (rawMessageId py raw) = false ∧ encodable (rawMessageId py raw) = true := by
  unfold rawMessageId
  cases htext : text? (get (texts raw) "message_id") with
  | some messageId => exact ⟨isBlank_text? htext, encodable_text? htext ▸ encodable_get h _⟩
  | none => exact digest_spec _

/-- What is recorded is the text of the evidence, under the next id. -/
theorem record_eq {py : Interpreter Opaque} {store store' : DeadLetterStore} {evidence : Evidence Opaque} {itemId : ℕ}
    (h : store.record py evidence = .ok (itemId, store')) :
    ∃ text, (Value.object evidence.envelope).text py evidenceFormat = .ok text ∧ itemId = store.lastItemId + 1 ∧
      store' = ⟨store.rows ++ [evidence.row py itemId text], itemId⟩ := by
  unfold DeadLetterStore.record at h
  split at h
  · cases h
  split at h
  · split at h <;> cases h
  · next text htext =>
    dsimp only at h
    split at h
    · cases h
      unfold dumps at htext
      split at htext
      · exact ⟨text, htext, rfl, rfl⟩
      · cases htext
    · cases h

/-- The row that was recorded last is found. -/
theorem find_recorded {store : DeadLetterStore} (hids : ∀ row ∈ store.rows, row.itemId ≤ store.lastItemId) {row : DeadLetterRow}
    {n : ℕ} (hrow : row.itemId = store.lastItemId + 1) : DeadLetters.find ⟨store.rows ++ [row], n⟩ row.itemId = some row := by
  have hnone : store.rows.find? (fun row' => (row'.itemId : ℤ) = row.itemId) = none := by
    rw [List.find?_eq_none]
    intro row' hrow'
    have hle := hids row' hrow'
    simp only [decide_eq_true_eq]
    omega
  rw [DeadLetters.find, List.find?_append, hnone]
  simp

/-- What was recorded last is read from its text. -/
theorem inspect_recorded {decoder : Decoder Opaque} {store : DeadLetterStore}
    (hids : ∀ row ∈ store.rows, row.itemId ≤ store.lastItemId) {row : DeadLetterRow} (hrow : row.itemId = store.lastItemId + 1)
    {n : ℕ} {envelope : Value Opaque} :
    (∃ item, DeadLetters.inspect decoder ⟨store.rows ++ [row], n⟩ row.itemId = .ok item ∧ item.envelope = envelope) ↔
      loads decoder row.envelopeJson = .ok envelope := by
  rw [DeadLetters.inspect, find_recorded hids hrow]
  simp only [DeadLetters.rowToItem]
  cases loads decoder row.envelopeJson with
  | error e => simp [Except.map]
  | ok value => simp [Except.map]

theorem scans_of_loads {decoder : Decoder Opaque} {text : Str} {value : Value Opaque} (h : loads decoder text = .ok value) :
    decoder.scans text = true := by
  unfold loads at h
  split at h
  · assumption
  · cases h

section Admit

variable {py : ObjectInterpreter} {decoder : Decoder Object} {s : Runtime Object} {nowMs : ℤ} {fresh : Fresh}

/-- **A mapping of unknown taxonomy leaves complete evidence if and only if the interpreter and
SQLite take what is recorded of it.** -/
theorem evidence_complete_iff (htaxonomy : UnknownTaxonomy py.unicode (texts raw)) (hkeyed : raw.Keyed)
    (hscalar : (Value.object (texts raw)).encodable = true) (hlocator : ∀ locator ∈ sourceLocator, isBlank locator = false)
    (hids : ∀ row ∈ s.dlq.rows, row.itemId ≤ s.dlq.lastItemId) :
    (∃ receipt s', admitItems py raw nowMs sourceLocator fresh s = (.ok receipt, s') ∧
      Complete decoder raw s.dlq s'.dlq receipt) ↔ Takes py decoder raw sourceLocator := by
  obtain ⟨heading, hheaded, hunknown⟩ := htaxonomy
  obtain ⟨errors, hresult, herrors⟩ : ∃ errors, fromMapping py.toInterpreter fresh (texts raw) = .ok ⟨.dlq, none, errors⟩ ∧
      errors ∈ [["domain"], ["intent"], ["domain", "intent"]] := by
    rcases headingOf_cases py.unicode (texts raw) with ⟨-, -, -, hnone⟩ | ⟨_, errors, hheading, -, -, herrors⟩ |
      ⟨heading', -, hheaded', hknown⟩
    · exact absurd hheaded (hnone heading)
    · exact ⟨errors, by rw [fromMapping, hheading], herrors⟩
    · exact absurd (hheaded.unique hheaded' ▸ hknown) hunknown
  simp only [admitItems, hresult, safeDlqEnvelope]
  by_cases hwalks : Walks py raw
  · rw [if_pos hwalks]
    obtain ⟨hblank, hid⟩ := rawMessageId_ok py hscalar
    have hrecord : (∃ recorded, s.dlq.record py.toInterpreter
        (evidenceOf (rawMessageId py raw) errors (safeFields raw) sourceLocator) = .ok recorded) ↔ _ :=
      record_plain py.toInterpreter s.dlq (plain_safeFields raw)
    rw [evidenceOf_refusal hblank herrors, evidenceOf_encodable] at hrecord
    cases hrecorded : s.dlq.record py.toInterpreter (evidenceOf (rawMessageId py raw) errors (safeFields raw) sourceLocator) with
    | error e =>
      refine iff_of_false ?_ fun h => ?_
      · rintro ⟨receipt, s', hdone, -⟩
        simp only [hrecorded] at hdone
        cases hdone
      · obtain ⟨recorded, hsome⟩ :=
          hrecord.mpr ⟨hlocator, h.encodes, (isJson_safeFields raw).trans h.prints, hid, h.sourceLocator⟩
        rw [hrecorded] at hsome
        cases hsome
    | ok recorded =>
      obtain ⟨itemId, store'⟩ := recorded
      obtain ⟨-, hencodes, hjson, -, hencodable⟩ := hrecord.mp ⟨_, hrecorded⟩
      have hprints : raw.prints = true := (isJson_safeFields raw).symm.trans hjson
      obtain ⟨text, htext, rfl, rfl⟩ := record_eq hrecorded
      simp only [hrecorded]
      constructor
      · rintro ⟨receipt, s', hdone, hcomplete⟩
        cases hdone
        refine ⟨hencodable, hprints, hwalks, hencodes, fun hnative text' htext' => ?_⟩
        obtain ⟨row, hrows, -, hread⟩ := hcomplete.stored
        obtain ⟨item, hitem, -⟩ := hread hnative
        obtain rfl := List.singleton_inj.mp (List.append_cancel_left hrows)
        obtain ⟨text'', hraw, hsafe, -⟩ := reads_native py.toInterpreter decoder hnative hkeyed hprints hscalar
        obtain rfl : text' = text'' := Except.ok.inj (htext'.symm.trans hraw)
        obtain rfl : text = text' := Except.ok.inj (htext.symm.trans hsafe)
        exact scans_of_loads ((inspect_recorded hids rfl).mp ⟨item, hitem, rfl⟩)
      · intro h
        refine ⟨_, _, rfl, rfl, _, rfl, rfl, fun hnative => ?_⟩
        obtain ⟨text', hraw, hsafe, hread⟩ := reads_native py.toInterpreter decoder hnative hkeyed hprints hscalar
        obtain rfl : text = text' := Except.ok.inj (htext.symm.trans hsafe)
        obtain ⟨envelope, hloads, hequals⟩ := hread (h.scans hnative text hraw)
        have hrow : ((evidenceOf (rawMessageId py raw) errors (safeFields raw) sourceLocator).row py.toInterpreter
          (s.dlq.lastItemId + 1) text).itemId = s.dlq.lastItemId + 1 := rfl
        obtain ⟨item, hitem, rfl⟩ := (inspect_recorded hids hrow).mpr hloads
        exact ⟨item, hitem, hequals⟩
  · rw [if_neg hwalks]
    refine iff_of_false ?_ fun h => hwalks h.walks
    rintro ⟨receipt, s', hdone, -⟩
    cases hdone

end Admit

/-! ### Samples -/

/-- An interpreter for texts in ASCII, with a stack for all values. -/
def plainInterpreter : ObjectInterpreter where
  unicode := asciiCasefold
  upper text := text.map upperPoint
  upper_ascii := upperText_lt
  sha256 := sampleSha256
  dumpsOther _ _ := .error .typeError
  safeOther o := .ok o.safe
  reprTypes _ := Python.encode []
  encodes _ := true
  walks _ := true
  reprItems _ := Python.encode []

/-- An event of an unknown domain. -/
def martianRaw (payload : Object) : RawMapping where
  isDict := true
  items := [(.text (lit "schema_version"), .int 1), (.text (lit "message_id"), .str (lit "m-1")),
    (.text (lit "sender"), .str (lit "radar")), (.text (lit "domain"), .str (lit "martian")),
    (.text (lit "intent"), .str (lit "event")), (.text (lit "payload"), payload)]

theorem window_nonneg : (0 : ℤ) ≤ 500 := by decide

def emptyRuntime : Runtime Object := .start ⟨0, 0, 0⟩ ⟨[], 0⟩ 1 Nat.one_pos 500 window_nonneg

theorem martian_unknown (payload : Object) : UnknownTaxonomy asciiCasefold (texts (martianRaw payload)) := by
  refine ⟨⟨lit "radar", lit "martian", lit "event"⟩, ⟨?_, rfl, rfl, rfl, rfl⟩, fun h => absurd h.1 (by decide)⟩
  simp only [List.forall_mem_cons]
  exact ⟨Option.some_ne_none _, Option.some_ne_none _, Option.some_ne_none _, Option.some_ne_none _,
    Option.some_ne_none _, List.forall_mem_nil _⟩

theorem prints_martianRaw (payload : Object) : (martianRaw payload).prints = payload.ints prints := by
  have hfields : Object.intFields prints (martianRaw payload).items = [(lit "schema_version", true), (lit "message_id", true),
    (lit "sender", true), (lit "domain", true), (lit "intent", true), (lit "payload", payload.ints prints)] := rfl
  rw [RawMapping.prints, hfields]
  cases payload.ints prints <;> rfl

theorem keyed_martianRaw {payload : Object} (h : payload.Keyed) : (martianRaw payload).Keyed :=
  have hkeys : textKeys (martianRaw payload).items = ["schema_version", "message_id", "sender", "domain", "intent",
      "payload"].map lit := rfl
  ⟨hkeys ▸ by decide, trivial, trivial, trivial, trivial, trivial, h, trivial⟩

/-- A mapping whose payload does not print is not recorded. -/
theorem martian_refused {payload : Object} (h : payload.ints prints = false) :
    admitItems plainInterpreter (martianRaw payload) 0 none sampleFresh emptyRuntime =
      (.error (.deadLetterError "ENVELOPE_NOT_JSON_SERIALIZABLE"), emptyRuntime) := by
  have hresult : fromMapping plainInterpreter.toInterpreter sampleFresh (texts (martianRaw payload)) =
      .ok ⟨.dlq, none, ["domain"]⟩ := rfl
  have hrefusal : (evidenceOf (rawMessageId plainInterpreter (martianRaw payload)) ["domain"]
      (safeFields (martianRaw payload)) none).refusal = none := rfl
  have hdumps : dumps plainInterpreter.toInterpreter evidenceFormat (.object (safeFields (martianRaw payload))) =
      .error limitError :=
    text_limit plain_evidenceFormat _ (plain_safeFields _) (by rw [isJson_safeFields, prints_martianRaw, h])
  have hrecord : emptyRuntime.dlq.record plainInterpreter.toInterpreter (evidenceOf (rawMessageId plainInterpreter
      (martianRaw payload)) ["domain"] (safeFields (martianRaw payload)) none) =
        .error (.deadLetterError "ENVELOPE_NOT_JSON_SERIALIZABLE") := by
    rw [DeadLetterStore.record, hrefusal]
    dsimp only
    rw [evidenceOf, hdumps]
    rfl
  have hwalks : Walks plainInterpreter (martianRaw payload) := fun _ _ => rfl
  simp only [admitItems, hresult, safeDlqEnvelope, if_pos hwalks, hrecord]

/-- The least integer that is not printed. -/
def longInteger : ℤ := 10 ^ maxDigits

theorem prints_longInteger : prints longInteger = false := by
  have hpow (k : ℕ) : ¬ ((10 : ℤ) ^ k).natAbs < 10 ^ k := by simp [Int.natAbs_pow]
  rw [Bool.eq_false_iff]
  exact fun h => hpow maxDigits (prints_iff.mp h)

/-- **An integer of 4301 digits keeps a mapping out of the dead letters.** -/
theorem long_integer_lost :
    UnknownTaxonomy plainInterpreter.unicode (texts (martianRaw (.int longInteger))) ∧
      (martianRaw (.int longInteger)).Keyed ∧ (martianRaw (.int longInteger)).isNative = true ∧
      (Value.object (texts (martianRaw (.int longInteger)))).encodable = true ∧
      admitItems plainInterpreter (martianRaw (.int longInteger)) 0 none sampleFresh emptyRuntime =
        (.error (.deadLetterError "ENVELOPE_NOT_JSON_SERIALIZABLE"), emptyRuntime) :=
  ⟨martian_unknown _, keyed_martianRaw trivial, rfl, rfl, martian_refused prints_longInteger⟩

theorem evidence_complete_sample :
    ∃ receipt s', admitItems plainInterpreter (martianRaw (.list [.int 7, .null])) 0 none sampleFresh emptyRuntime =
        (.ok receipt, s') ∧
      Complete ⟨fun _ => "0.0", fun _ => [], fun _ => .error .typeError, fun _ => true⟩ (martianRaw (.list [.int 7, .null]))
        emptyRuntime.dlq s'.dlq receipt := by
  have hkeyed : (martianRaw (.list [.int 7, .null])).Keyed := keyed_martianRaw (by exact ⟨trivial, trivial, trivial⟩)
  have hids : ∀ row ∈ emptyRuntime.dlq.rows, row.itemId ≤ emptyRuntime.dlq.lastItemId := fun _ h => absurd h List.not_mem_nil
  exact (evidence_complete_iff (martian_unknown _) hkeyed rfl (fun _ h => absurd h (Option.not_mem_none _)) hids).mpr
    ⟨fun _ h => absurd h (Option.not_mem_none _), rfl, fun _ _ => rfl, rfl, fun _ _ _ => rfl⟩

end CcbCore.Radar.Raw
