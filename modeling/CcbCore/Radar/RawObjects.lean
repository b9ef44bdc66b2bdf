import CcbCore.Radar.Runtime
import CcbCore.Radar.RoundTrip

/-!
# Raw mappings of any objects

`admit` of `src/radar/runtime.py` of a mapping whose keys and values are any objects of
finite size: what the checks see of it (`texts`), and what `_safe_dlq_value` makes of an
object (`Object.safe`), by recursion over what JSON has not, too. Keys are put by their
`str`, so two of them may be one in the evidence, the later one in their order.
-/

namespace CcbCore.Radar.Raw

open CcbCore.CodePoints CcbCore.Postgres
open CcbCore.Python (Bytes)

/-! ### Objects -/

/-- A key of a mapping, by its `str` if it is no text. -/
inductive Key where
  | text (text : Str)
  | other (form : Str)
  deriving DecidableEq

/-- `str(key)`. -/
def Key.form : Key → Str
  | .text key => key
  | .other key => key

/-- A Python object. A `mapping` is a `Mapping`, by its items, and may be a `dict`; any
object that the runtime does not look into is its type's name. -/
inductive Object where
  | null
  | bool (b : Bool)
  | int (n : ℤ)
  | float (text : String)
  | str (text : Str)
  | list (items : List Object)
  | tuple (items : List Object)
  | mapping (isDict : Bool) (items : List (Key × Object))
  | other (typeName : Str)

/-- The items of a mapping. -/
abbrev Items := List (Key × Object)

mutual

/-- An object as JSON has it: a `dict` if its keys are texts. -/
def Object.seen : Object → Value Object
  | .null => .null
  | .bool b => .bool b
  | .int n => .int n
  | .float text => .float text
  | .str text => .str text
  | .list items | .tuple items => .array (Object.seenItems items)
  | .mapping isDict items =>
    match isDict, Object.seenFields items with
    | true, some fields => .object fields
    | _, _ => .other (.mapping isDict items)
  | .other typeName => .other (.other typeName)

@[inherit_doc Object.seen]
def Object.seenItems : List Object → List (Value Object)
  | [] => []
  | item :: items => item.seen :: Object.seenItems items

@[inherit_doc Object.seen]
def Object.seenFields : Items → Option (Mapping Object)
  | [] => some []
  | (.text key, value) :: items => (Object.seenFields items).map fun fields => (key, value.seen) :: fields
  | (.other _, _) :: _ => none

end

/-- A raw mapping. -/
structure RawMapping where
  isDict : Bool
  items : Items

/-- What `raw.get` of a text finds. -/
def texts (raw : RawMapping) : Mapping Object :=
  raw.items.filterMap fun (key, value) =>
    match key with
    | .text text => some (text, value.seen)
    | .other _ => none

mutual

/-- `_safe_dlq_value`. -/
def Object.safe : Object → Value Object
  | .null => .null
  | .bool b => .bool b
  | .int n => .int n
  | .float text => .float text
  | .str text => .str text
  | .mapping _ items => .object (dictOf (sortFields (Object.safeFields items)))
  | .list items | .tuple items => .array (Object.safeItems items)
  | .other typeName => .str (lit "<" ++ typeName ++ lit ">")

@[inherit_doc Object.safe]
def Object.safeItems : List Object → List (Value Object)
  | [] => []
  | item :: items => item.safe :: Object.safeItems items

@[inherit_doc Object.safe]
def Object.safeFields : Items → Mapping Object
  | [] => []
  | (key, value) :: items => (key.form, value.safe) :: Object.safeFields items

end

/-- `_safe_dlq_envelope`, when the stack takes it. -/
def safeFields (raw : RawMapping) : Mapping Object := dictOf (Object.safeFields raw.items)

/-! ### Admission -/

/-- What the runtime uses of the interpreter for objects. -/
structure ObjectInterpreter extends Interpreter Object where
  /-- `repr` of a mapping's keys and the types of its values, encoded. -/
  reprItems : Items → Bytes

/-- The stack takes `_safe_dlq_value` through the values of a mapping. -/
def Walks (py : ObjectInterpreter) (raw : RawMapping) : Prop := ∀ item ∈ raw.items, py.walks item.2.seen = true

instance (py : ObjectInterpreter) (raw : RawMapping) : Decidable (Walks py raw) :=
  inferInstanceAs (Decidable (∀ item ∈ raw.items, py.walks item.2.seen = true))

/-- `_safe_dlq_envelope`. -/
def safeDlqEnvelope (py : ObjectInterpreter) (raw : RawMapping) : Except Raised (Mapping Object) :=
  if Walks py raw then .ok (safeFields raw) else .error .recursionError

/-- What `_raw_message_id` hashes. -/
def canonicalOf (py : ObjectInterpreter) (raw : RawMapping) : Bytes :=
  match dumps py.toInterpreter messageIdFormat (Object.mapping raw.isDict raw.items).seen >>= encodeText with
  | .ok bytes => bytes
  | .error _ => py.reprItems raw.items

/-- `_raw_message_id`. -/
def rawMessageId (py : ObjectInterpreter) (raw : RawMapping) : Str :=
  match text? (get (texts raw) "message_id") with
  | some messageId => messageId
  | none => lit (String.ofList ("radar-dlq-".toList ++ (py.sha256 (canonicalOf py raw)).text.toList.take 16))

/-- `admit`. -/
def admitItems (py : ObjectInterpreter) (raw : RawMapping) (nowMs : ℤ) (sourceLocator : Option Str) (fresh : Fresh)
    (s : Runtime Object) : Outcome Object :=
  match fromMapping py.toInterpreter fresh (texts raw) with
  | .error e => (.error e, s)
  | .ok result =>
    let messageId := rawMessageId py raw
    match result.classification, result.envelope with
    | .dlq, _ =>
      match safeDlqEnvelope py raw with
      | .error e => (.error e, s)
      | .ok envelope =>
        match s.dlq.record py.toInterpreter (evidenceOf messageId result.errors envelope sourceLocator) with
        | .error e => (.error e, s)
        | .ok (itemId, dlq) =>
          (.ok { state := .dlq, messageId, dlqItemId := some itemId, errors := result.errors }, { s with dlq }.count .dlq)
    | .rejected, _ => (.ok { state := .rejected, messageId, errors := result.errors }, s.count .dropped)
    | _, none => (.ok { state := .rejected, messageId, errors := result.errors }, s.count .dropped)
    | _, some envelope => admitEnvelope py.toInterpreter envelope nowMs s

/-! ### Mappings of texts -/

/-- The texts among the keys of a mapping. -/
def textKeys (items : Items) : List Str :=
  items.filterMap fun item =>
    match item.1 with
    | .text key => some key
    | .other _ => none

mutual

/-- No mapping has a text as its key twice. -/
def Object.Keyed : Object → Prop
  | .list items | .tuple items => Object.KeyedItems items
  | .mapping _ items => (textKeys items).Nodup ∧ Object.KeyedFields items
  | _ => True

@[inherit_doc Object.Keyed]
def Object.KeyedItems : List Object → Prop
  | [] => True
  | item :: items => item.Keyed ∧ Object.KeyedItems items

@[inherit_doc Object.Keyed]
def Object.KeyedFields : Items → Prop
  | [] => True
  | (_, value) :: items => value.Keyed ∧ Object.KeyedFields items

end

/-- No mapping in a raw mapping has a text as its key twice. -/
def RawMapping.Keyed (raw : RawMapping) : Prop := (textKeys raw.items).Nodup ∧ Object.KeyedFields raw.items

variable {items : Items} {fields : Mapping Object} {raw : RawMapping}

theorem seenFields_cons {key : Str} {value : Object} (h : Object.seenFields ((.text key, value) :: items) = some fields) :
    ∃ rest, Object.seenFields items = some rest ∧ fields = (key, value.seen) :: rest := by
  rw [Object.seenFields, Option.map_eq_some_iff] at h
  obtain ⟨rest, hrest, rfl⟩ := h
  exact ⟨rest, hrest, rfl⟩

/-- A `dict` of texts is an object of JSON, and any other mapping is what JSON has not. -/
theorem seen_mapping (isDict : Bool) (items : Items) :
    (isDict = true ∧ ∃ fields, Object.seenFields items = some fields ∧ (Object.mapping isDict items).seen = .object fields) ∨
      (Object.mapping isDict items).seen = .other (.mapping isDict items) := by
  cases isDict with
  | false => exact .inr (by simp only [Object.seen])
  | true =>
    cases hfields : Object.seenFields items with
    | none => exact .inr (by simp only [Object.seen, hfields])
    | some fields => exact .inl ⟨rfl, fields, rfl, by simp only [Object.seen, hfields]⟩

/-- Fields whose keys are texts are put under the same keys. -/
theorem keys_of_seenFields (h : Object.seenFields items = some fields) :
    fields.map (·.1) = textKeys items ∧ (Object.safeFields items).map (·.1) = textKeys items := by
  induction items generalizing fields with
  | nil =>
    cases h
    exact ⟨rfl, rfl⟩
  | cons item items ih =>
    obtain ⟨key | form, value⟩ := item
    · obtain ⟨rest, hrest, rfl⟩ := seenFields_cons h
      obtain ⟨hseen, hsafe⟩ := ih hrest
      have hkeys : textKeys ((Key.text key, value) :: items) = key :: textKeys items := rfl
      rw [hkeys, Object.safeFields, List.map_cons, List.map_cons, hseen, hsafe]
      exact ⟨rfl, rfl⟩
    · cases h

theorem texts_of_seenFields (h : Object.seenFields raw.items = some fields) : texts raw = fields := by
  obtain ⟨isDict, items⟩ := raw
  unfold texts
  dsimp only at h ⊢
  induction items generalizing fields with
  | nil =>
    cases h
    rfl
  | cons item items ih =>
    obtain ⟨key | form, value⟩ := item
    · obtain ⟨rest, hrest, rfl⟩ := seenFields_cons h
      rw [List.filterMap_cons, ih hrest]
    · cases h

section Safe

variable {py : Interpreter Object}

mutual

/-- What is made of an object is what is made of it as JSON has it. -/
theorem safeValue_seen (hsafe : ∀ o, py.safeOther o = .ok o.safe) : ∀ o : Object, o.Keyed → safeValue py o.seen = .ok o.safe
  | .null, _ => rfl
  | .bool _, _ => rfl
  | .int _, _ => rfl
  | .float _, _ => rfl
  | .str _, _ => rfl
  | .list items, h => by rw [Object.seen, safeValue, safeItems_seen hsafe items h, Object.safe]
  | .tuple items, h => by rw [Object.seen, safeValue, safeItems_seen hsafe items h, Object.safe]
  | .mapping isDict items, h => by
    rcases seen_mapping isDict items with ⟨-, fields, hfields, hseen⟩ | hseen
    · rw [hseen, safeValue, safeFields_seen hsafe items fields h.2 hfields, collect_sortFields_returned, Object.safe, dictOf_nodup]
      rw [((sortFields_perm _).map _).nodup_iff, (keys_of_seenFields hfields).2]
      exact h.1
    · rw [hseen, safeValue, hsafe]
  | .other typeName, _ => by rw [Object.seen, safeValue, hsafe]

theorem safeItems_seen (hsafe : ∀ o, py.safeOther o = .ok o.safe) : ∀ items : List Object, Object.KeyedItems items →
    safeItems py (Object.seenItems items) = .ok (Object.safeItems items)
  | [], _ => rfl
  | item :: items, h => by
    rw [Object.seenItems, safeItems, safeValue_seen hsafe item h.1, safeItems_seen hsafe items h.2, Object.safeItems]

theorem safeFields_seen (hsafe : ∀ o, py.safeOther o = .ok o.safe) : ∀ (items : Items) (fields : Mapping Object),
    Object.KeyedFields items → Object.seenFields items = some fields →
    Radar.safeFields py fields = returned (Object.safeFields items)
  | [], _, _, hfields => by
    cases hfields
    rfl
  | (.text key, value) :: items, fields, h, hfields => by
    obtain ⟨rest, hrest, rfl⟩ := seenFields_cons hfields
    rw [Radar.safeFields, safeValue_seen hsafe value h.1, safeFields_seen hsafe items rest h.2 hrest, Object.safeFields]
    rfl
  | (.other _, _) :: _, _, _, hfields => by cases hfields

end

end Safe

end CcbCore.Radar.Raw
