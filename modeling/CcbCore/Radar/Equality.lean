import CcbCore.Radar.RoundTrip

/-!
# Equal values

Python compares two `dict`s by their keys, whatever the order of them (`Value.Equals`). A
value and the same with its fields sorted are equal (`Value.equals_sorted`), and have the
same text (`Value.text_sorted`). A value without objects that JSON has not has a text unless
the interpreter does not print an integer in it (`text_limit`).
-/

namespace CcbCore.Radar

open CcbCore.CodePoints

variable {Opaque : Type}

mutual

/-- `value == value'`, of values of the same kinds. -/
def Value.Equals : Value Opaque → Value Opaque → Prop
  | .array items, value' => ∃ items', value' = .array items' ∧ Value.EqualItems items items'
  | .object fields, value' =>
    ∃ fields', value' = .object fields' ∧ fields'.length = fields.length ∧ Value.EqualFields fields fields'
  | value, value' => value' = value

@[inherit_doc Value.Equals]
def Value.EqualItems : List (Value Opaque) → List (Value Opaque) → Prop
  | [], all => all = []
  | item :: items, all => ∃ item' items', all = item' :: items' ∧ item.Equals item' ∧ Value.EqualItems items items'

/-- Each of some fields is among all of others, equal. -/
def Value.EqualFields : Mapping Opaque → Mapping Opaque → Prop
  | [], _ => True
  | (key, value) :: fields, all =>
    (∃ value', all.lookup key = some value' ∧ value.Equals value') ∧ Value.EqualFields fields all

end

/-! ### Sorted fields -/

theorem sortedFields_eq (fields : Mapping Opaque) :
    Value.sortedFields fields = fields.map fun field => (field.1, field.2.sorted) := by
  induction fields with
  | nil => rfl
  | cons field fields ih =>
    rw [Value.sortedFields, ih]
    rfl

/-- The order of fields is that of their keys. -/
abbrev KeyLe (α : Type) (a b : Str × α) : Prop := le a.1 b.1 = true

instance (α : Type) : Std.Total (KeyLe α) := ⟨fun a b => Str.le_total a.1 b.1⟩

instance (α : Type) : IsTrans (Str × α) (KeyLe α) := ⟨fun _ _ _ => Str.le_trans⟩

/-- What is done to the values of some fields does not change their order. -/
theorem sortFields_map {α β : Type} (f : α → β) (fields : List (Str × α)) :
    sortFields (fields.map fun field => (field.1, f field.2)) = (sortFields fields).map fun field => (field.1, f field.2) :=
  (List.map_insertionSort (KeyLe α) (KeyLe β) (fun field => (field.1, f field.2)) fields fun _ _ _ _ => Iff.rfl).symm

theorem sortFields_sortFields {α : Type} (fields : List (Str × α)) : sortFields (sortFields fields) = sortFields fields :=
  (List.pairwise_insertionSort (KeyLe α) fields).insertionSort_eq

mutual

theorem Value.sorted_sorted : ∀ value : Value Opaque, value.sorted.sorted = value.sorted
  | .null => rfl
  | .bool _ => rfl
  | .int _ => rfl
  | .float _ => rfl
  | .str _ => rfl
  | .array items => by rw [Value.sorted, Value.sorted, Value.sortedItems_sorted items]
  | .object fields => by
    rw [Value.sorted, Value.sorted, sortedFields_eq (sortFields _), ← sortFields_map Value.sorted, ← sortedFields_eq,
      Value.sortedFields_sorted fields, sortFields_sortFields]
  | .other _ => rfl

theorem Value.sortedItems_sorted : ∀ items : List (Value Opaque),
    Value.sortedItems (Value.sortedItems items) = Value.sortedItems items
  | [] => rfl
  | item :: items => by rw [Value.sortedItems, Value.sortedItems, Value.sorted_sorted item, Value.sortedItems_sorted items]

theorem Value.sortedFields_sorted : ∀ fields : Mapping Opaque,
    Value.sortedFields (Value.sortedFields fields) = Value.sortedFields fields
  | [] => rfl
  | (_, value) :: fields => by
    rw [Value.sortedFields, Value.sortedFields, Value.sorted_sorted value, Value.sortedFields_sorted fields]

end

/-! ### Integers that do not print -/

/-- What an integer with too many digits raises. -/
def limitError : Raised := .valueError "Exceeds the limit (4300 digits) for integer string conversion"

/-- A value without objects that JSON has not. -/
def Plain (value : Value Opaque) : Prop := value.all (fun _ => true) (fun _ => true) (fun _ => false) = true

theorem collect_error {α : Type} {fields : List (Str × Except Raised α)} {e : Raised}
    (hall : ∀ field ∈ fields, (∃ value, field.2 = .ok value) ∨ field.2 = .error e) (h : ∃ field ∈ fields, field.2 = .error e) :
    collect fields = .error e := by
  induction fields with
  | nil =>
    obtain ⟨_, hfield, -⟩ := h
    cases hfield
  | cons field fields ih =>
    obtain ⟨key, result⟩ := field
    have htail : (∃ field ∈ fields, field.2 = .error e) → collect fields = .error e :=
      ih fun field hfield => hall field (List.mem_cons_of_mem _ hfield)
    rcases hall (key, result) List.mem_cons_self with ⟨value, rfl⟩ | rfl
    · obtain ⟨field, hfield, herror⟩ := h
      rcases List.mem_cons.mp hfield with rfl | hfield
      · cases herror
      · rw [collect, htail ⟨field, hfield, herror⟩]
    · rfl

section Limit

variable {py : Interpreter Opaque} {format : Format}

mutual

theorem text_limit (hplain : format.Plain) : ∀ value : Value Opaque, Plain value → value.isJson = false →
    value.text py format = .error limitError
  | .int n, _, h => if_neg (Bool.eq_false_iff.mp h)
  | .array items, hvalue, h => by rw [Value.text, itemTexts_limit hplain items hvalue h]
  | .object fields, hvalue, h => by
    obtain ⟨hall, hsome⟩ := fieldTexts_limit hplain fields hvalue
    obtain ⟨field, hfield, herror⟩ := hsome h
    rw [Value.text, collect_error (fun field hfield => hall field ((sortFields_perm _).mem_iff.mp hfield))
      ⟨field, (sortFields_perm _).mem_iff.mpr hfield, herror⟩]
  | .null, _, h => by cases h
  | .bool _, _, h => by cases h
  | .float _, _, h => by cases h
  | .str _, _, h => by cases h
  | .other _, hvalue, _ => by cases hvalue

theorem itemTexts_limit (hplain : format.Plain) : ∀ items : List (Value Opaque),
    Value.allItems (fun _ => true) (fun _ => true) (fun _ => false) items = true →
    Value.allItems prints (fun _ => true) (fun _ => false) items = false → Value.itemTexts py format items = .error limitError
  | [], _, h => by cases h
  | item :: items, hitems, h => by
    rw [Value.allItems, Bool.and_eq_true] at hitems
    rw [Value.allItems, Bool.and_eq_false_iff] at h
    cases hitem : item.isJson with
    | false => rw [Value.itemTexts, text_limit hplain item hitems.1 hitem]
    | true =>
      obtain ⟨text, htext, -⟩ : ∃ text, item.text py format = .ok text ∧ _ := Value.text_json hplain item hitem
      rw [Value.itemTexts, htext, itemTexts_limit hplain items hitems.2 (h.resolve_left (Bool.not_eq_false _ ▸ hitem))]

theorem fieldTexts_limit (hplain : format.Plain) : ∀ fields : Mapping Opaque,
    Value.allFields (fun _ => true) (fun _ => true) (fun _ => false) fields = true →
    (∀ field ∈ Value.fieldTexts py format fields, (∃ text, field.2 = .ok text) ∨ field.2 = .error limitError) ∧
      (Value.allFields prints (fun _ => true) (fun _ => false) fields = false →
        ∃ field ∈ Value.fieldTexts py format fields, field.2 = .error limitError)
  | [], _ => ⟨fun _ h => absurd h List.not_mem_nil, nofun⟩
  | (key, value) :: fields, hfields => by
    rw [Value.allFields, Bool.and_eq_true, Bool.and_eq_true] at hfields
    obtain ⟨hall, hsome⟩ := fieldTexts_limit hplain fields hfields.2
    rw [Value.fieldTexts, Value.allFields, Bool.and_eq_false_iff, Bool.true_and]
    cases hvalue : value.isJson with
    | false =>
      have htext := text_limit hplain value hfields.1.2 hvalue
      exact ⟨List.forall_mem_cons.mpr ⟨.inr htext, hall⟩, fun _ => ⟨_, List.mem_cons_self, htext⟩⟩
    | true =>
      obtain ⟨text, htext, -⟩ : ∃ text, value.text py format = .ok text ∧ _ := Value.text_json hplain value hvalue
      refine ⟨List.forall_mem_cons.mpr ⟨.inl ⟨text, htext⟩, hall⟩, fun h => ?_⟩
      obtain ⟨field, hfield, herror⟩ := hsome (h.resolve_left (Bool.not_eq_false _ ▸ hvalue))
      exact ⟨field, List.mem_cons_of_mem _ hfield, herror⟩

end

/-- A plain value has a text if and only if the stack takes it and its integers print. -/
theorem dumps_plain (hplain : format.Plain) {value : Value Opaque} (hvalue : Plain value) :
    (∃ text, dumps py format value = .ok text) ↔ py.encodes value = true ∧ value.isJson = true := by
  unfold dumps
  cases py.encodes value with
  | false => simp
  | true =>
    cases hjson : value.isJson with
    | false => simp [text_limit hplain value hvalue hjson]
    | true =>
      obtain ⟨text, htext, -⟩ : ∃ text, value.text py format = .ok text ∧ _ := Value.text_json hplain value hjson
      simp [htext]

end Limit

/-! ### Texts of sorted values -/

section Text

variable {py : Interpreter Opaque} {format : Format}

theorem fieldTexts_eq (fields : Mapping Opaque) :
    Value.fieldTexts py format fields = fields.map fun field => (field.1, field.2.text py format) := by
  induction fields with
  | nil => rfl
  | cons field fields ih =>
    rw [Value.fieldTexts, ih]
    rfl

mutual

/-- **A value with its fields sorted has the same text.** -/
theorem Value.text_sorted : ∀ value : Value Opaque, value.sorted.text py format = value.text py format
  | .null => rfl
  | .bool _ => rfl
  | .int _ => rfl
  | .float _ => rfl
  | .str _ => rfl
  | .array items => by rw [Value.sorted, Value.text, Value.text, Value.itemTexts_sorted items]
  | .object fields => by
    rw [Value.sorted, Value.text, Value.text, fieldTexts_eq (sortFields _),
      ← sortFields_map fun value : Value Opaque => value.text py format,
      ← fieldTexts_eq, Value.fieldTexts_sorted fields, sortFields_sortFields]
  | .other _ => rfl

theorem Value.itemTexts_sorted : ∀ items : List (Value Opaque),
    Value.itemTexts py format (Value.sortedItems items) = Value.itemTexts py format items
  | [] => rfl
  | item :: items => by
    rw [Value.sortedItems, Value.itemTexts, Value.itemTexts, Value.text_sorted item, Value.itemTexts_sorted items]

theorem Value.fieldTexts_sorted : ∀ fields : Mapping Opaque,
    Value.fieldTexts py format (Value.sortedFields fields) = Value.fieldTexts py format fields
  | [] => rfl
  | (_, value) :: fields => by
    rw [Value.sortedFields, Value.fieldTexts, Value.fieldTexts, Value.text_sorted value, Value.fieldTexts_sorted fields]

end

end Text

/-! ### Equality -/

mutual

/-- An exact value is JSON. -/
theorem Value.Exact.isJson : ∀ {value : Value Opaque}, value.Exact → value.isJson = true
  | .null, _ => rfl
  | .bool _, _ => rfl
  | .int _, h => prints_iff.mpr h
  | .float _, h => h.elim
  | .str _, _ => rfl
  | .array _, h => Value.allItems_exact h
  | .object _, h => Value.allFields_exact h.2
  | .other _, h => h.elim

theorem Value.allItems_exact : ∀ {items : List (Value Opaque)}, Value.ExactItems items →
    Value.allItems prints (fun _ => true) (fun _ => false) items = true
  | [], _ => rfl
  | _ :: _, h => Bool.and_eq_true_iff.mpr ⟨h.1.isJson, Value.allItems_exact h.2⟩

theorem Value.allFields_exact : ∀ {fields : Mapping Opaque}, Value.ExactFields fields →
    Value.allFields prints (fun _ => true) (fun _ => false) fields = true
  | [], _ => rfl
  | (_, _) :: _, h => Bool.and_eq_true_iff.mpr ⟨h.1.isJson, Value.allFields_exact h.2⟩

end

/-- A field is found among others of different keys. -/
theorem lookup_field {α : Type} {fields : List (Str × α)} (hnodup : (fields.map (·.1)).Nodup) {key : Str} {value : α}
    (h : (key, value) ∈ fields) : fields.lookup key = some value := by
  obtain ⟨before, after, rfl⟩ := List.append_of_mem h
  refine List.lookup_eq_some_iff.mpr ⟨before, after, rfl, fun field hfield => ?_⟩
  rw [List.map_append, List.map_cons] at hnodup
  exact bne_iff_ne.mpr (Ne.symm ((List.nodup_append.mp hnodup).2.2 _ (List.mem_map_of_mem hfield) _ List.mem_cons_self))

/-- The fields that are sorted are found, sorted. -/
theorem lookup_sorted {fields : Mapping Opaque} (hnodup : (fields.map (·.1)).Nodup) {field : Str × Value Opaque}
    (h : field ∈ fields) : (sortFields (Value.sortedFields fields)).lookup field.1 = some field.2.sorted := by
  refine lookup_field ?_ ((sortFields_perm _).mem_iff.mpr ?_)
  · rw [((sortFields_perm _).map _).nodup_iff, sortedFields_keys]
    exact hnodup
  · rw [sortedFields_eq]
    exact List.mem_map.mpr ⟨field, h, rfl⟩

mutual

/-- **A value and the same with its fields sorted are equal.** -/
theorem Value.equals_sorted : ∀ value : Value Opaque, value.Exact → value.Equals value.sorted
  | .null, _ => rfl
  | .bool _, _ => rfl
  | .int _, _ => rfl
  | .float _, _ => rfl
  | .str _, _ => rfl
  | .array items, h => ⟨_, rfl, Value.equalItems_sorted items h⟩
  | .object fields, h => by
    refine ⟨_, rfl, ?_, Value.equalFields_of_lookup fields h.2 fun field hfield => lookup_sorted h.1 hfield⟩
    rw [(sortFields_perm _).length_eq, sortedFields_eq, List.length_map]
  | .other _, h => h.elim

theorem Value.equalItems_sorted : ∀ items : List (Value Opaque), Value.ExactItems items →
    Value.EqualItems items (Value.sortedItems items)
  | [], _ => rfl
  | item :: items, h => ⟨_, _, rfl, item.equals_sorted h.1, Value.equalItems_sorted items h.2⟩

theorem Value.equalFields_of_lookup {all : Mapping Opaque} : ∀ fields : Mapping Opaque, Value.ExactFields fields →
    (∀ field ∈ fields, all.lookup field.1 = some field.2.sorted) → Value.EqualFields fields all
  | [], _, _ => trivial
  | (key, value) :: fields, h, hall =>
    ⟨⟨_, hall (key, value) List.mem_cons_self, value.equals_sorted h.1⟩,
      Value.equalFields_of_lookup fields h.2 fun field hfield => hall field (List.mem_cons_of_mem _ hfield)⟩

end

mutual

theorem Value.equals_self : ∀ value : Value Opaque, value.Exact → value.Equals value
  | .null, _ => rfl
  | .bool _, _ => rfl
  | .int _, _ => rfl
  | .float _, _ => rfl
  | .str _, _ => rfl
  | .array items, h => ⟨_, rfl, Value.equalItems_self items h⟩
  | .object fields, h => ⟨_, rfl, rfl, Value.equalFields_self fields h.2 fun _ hfield => lookup_field h.1 hfield⟩
  | .other _, h => h.elim

theorem Value.equalItems_self : ∀ items : List (Value Opaque), Value.ExactItems items → Value.EqualItems items items
  | [], _ => rfl
  | item :: items, h => ⟨_, _, rfl, item.equals_self h.1, Value.equalItems_self items h.2⟩

theorem Value.equalFields_self {all : Mapping Opaque} : ∀ fields : Mapping Opaque, Value.ExactFields fields →
    (∀ field ∈ fields, all.lookup field.1 = some field.2) → Value.EqualFields fields all
  | [], _, _ => trivial
  | (key, value) :: fields, h, hall =>
    ⟨⟨_, hall (key, value) List.mem_cons_self, value.equals_self h.1⟩,
      Value.equalFields_self fields h.2 fun field hfield => hall field (List.mem_cons_of_mem _ hfield)⟩

end

end CcbCore.Radar
