import CcbCore.Radar.Value

/-!
# The size of JSON

How many bytes the text of a value takes when it is written without spaces and without
ASCII escapes: `Value.size`, which does not depend on the order of the fields
(`size_text`).
-/

namespace CcbCore.Radar

open CcbCore.CodePoints CcbCore.Postgres
open CcbCore.Python (CodePoint Bytes encode scalars)

variable {Opaque : Type}

/-! ### Texts -/

/-- The bytes of a code point in UTF-8. -/
def utf8Size (c : CodePoint) : ℕ := if c.val < 0x80 then 1 else if c.val < 0x800 then 2 else if c.val < 0x10000 then 3 else 4

/-- The bytes of a text in UTF-8. -/
def textSize (text : Str) : ℕ := (text.map utf8Size).sum

@[simp] theorem textSize_nil : textSize [] = 0 := rfl

@[simp] theorem textSize_cons (c : CodePoint) (text : Str) : textSize (c :: text) = utf8Size c + textSize text := rfl

@[simp] theorem textSize_append (first last : Str) : textSize (first ++ last) = textSize first + textSize last := by
  rw [textSize, List.map_append, List.sum_append, textSize, textSize]

/-- The bytes of a code point inside a JSON string. -/
def escapedSize (c : CodePoint) : ℕ :=
  if c.val ∈ [0x5c, 0x22, 0x08, 0x0c, 0x0a, 0x0d, 0x09] then 2 else if c.val < 0x20 then 6 else utf8Size c

/-- The bytes of a text as a JSON string. -/
def quotedSize (text : Str) : ℕ := 2 + (text.map escapedSize).sum

theorem utf8Size_point (c : Char) : utf8Size (point c) = c.utf8Size := by
  have hlt (n : UInt32) : c.val ≤ n ↔ (point c).val < n.toNat + 1 := by
    rw [UInt32.le_iff_toNat_le, Nat.lt_succ_iff]
    rfl
  unfold utf8Size Char.utf8Size
  simp only [hlt]
  rfl

theorem size_encode (chars : List Char) : (encode chars).size = textSize (chars.map point) := by
  have hsize (bytes : List UInt8) : bytes.toByteArray.size = bytes.length := by
    rw [← ByteArray.size_data, List.data_toByteArray, List.size_toArray]
  rw [encode, String.toByteArray_ofList, List.utf8Encode, hsize, List.length_flatMap, textSize, List.map_map]
  refine congrArg List.sum (List.map_congr_left fun c _ => ?_)
  rw [String.length_utf8EncodeChar, Function.comp_apply, utf8Size_point]

theorem point_scalars {text : Str} {chars : List Char} (h : scalars text = some chars) : chars.map point = text := by
  induction text generalizing chars with
  | nil =>
    cases h
    rfl
  | cons c text ih =>
    rw [scalars_cons] at h
    by_cases hc : Nat.isValidChar c
    · rw [dif_pos hc] at h
      obtain ⟨rest, hrest, rfl⟩ := Option.map_eq_some_iff.mp h
      rw [List.map_cons, ih hrest]
      rfl
    · rw [dif_neg hc] at h
      cases h

theorem size_encodeText {text : Str} {bytes : Bytes} (h : encodeText text = .ok bytes) : bytes.size = textSize text := by
  unfold encodeText at h
  split at h
  · cases h
  · next chars hchars =>
    cases h
    rw [size_encode, point_scalars hchars]

theorem textSize_unicodeEscape (n : ℕ) : textSize (unicodeEscape n) = 6 := by
  have hdigit : ∀ k < 16, utf8Size (point (Jsonb.hexDigit k)) = 1 := by decide
  have hmod (k : ℕ) : utf8Size (point (Jsonb.hexDigit (k % 16))) = 1 := hdigit _ (Nat.mod_lt _ (by decide))
  have hmark : utf8Size (point '\\') = 1 ∧ utf8Size (point 'u') = 1 := by decide
  simp only [unicodeEscape, lit, String.toList_ofList, List.map_cons, List.map_nil, textSize_cons, textSize_nil, hmod, hmark]

theorem textSize_escape (c : CodePoint) : textSize (escape false c) = escapedSize c := by
  have hkeys : escapes.map (·.1) = [0x5c, 0x22, 0x08, 0x0c, 0x0a, 0x0d, 0x09] := rfl
  have hshort : ∀ e ∈ escapes, textSize e.2 = 2 := by decide +kernel
  unfold escape
  cases hlookup : escapes.lookup c.val with
  | some text =>
    obtain ⟨before, after, heq, -⟩ := List.lookup_eq_some_iff.mp hlookup
    have hmem : (c.val, text) ∈ escapes := heq ▸ List.mem_append_right _ List.mem_cons_self
    have hkey : c.val ∈ escapes.map (·.1) := List.mem_map_of_mem hmem
    rw [escapedSize, ← hkeys, if_pos hkey]
    exact hshort _ hmem
  | none =>
    have hkey : c.val ∉ escapes.map (·.1) := by
      intro hmem
      obtain ⟨e, he, heq⟩ := List.mem_map.mp hmem
      simpa [heq] using List.lookup_eq_none_iff.mp hlookup e he
    rw [escapedSize, ← hkeys, if_neg hkey]
    by_cases hcontrol : c.val < 0x20
    · have hlow : c.val < 0x10000 := by omega
      simp only [hcontrol, hlow, true_or, if_true, textSize_unicodeEscape]
    · simp only [hcontrol, Bool.false_eq_true, false_and, or_self, if_false, textSize_cons, textSize_nil, Nat.add_zero]

theorem textSize_quote (text : Str) : textSize (quote false text) = quotedSize text := by
  have hescaped : textSize (text.flatMap (escape false)) = (text.map escapedSize).sum := by
    induction text with
    | nil => rfl
    | cons c text ih => rw [List.flatMap_cons, textSize_append, textSize_escape, ih, List.map_cons, List.sum_cons]
  have hmark : textSize (lit "\"") = 1 := rfl
  rw [quote, textSize_append, textSize_append, hescaped, hmark, quotedSize]
  omega

theorem textSize_join (separator : Str) (texts : List Str) :
    textSize (join separator texts) = (texts.map textSize).sum + (texts.length - 1) * textSize separator := by
  fun_induction join separator texts with
  | case1 => simp
  | case2 text => simp
  | case3 text texts hne ih =>
    obtain ⟨n, hn⟩ := Nat.exists_eq_succ_of_ne_zero (mt List.length_eq_zero_iff.mp hne)
    simp only [textSize_append, ih, List.map_cons, List.sum_cons, List.length_cons, hn, Nat.succ_sub_one, Nat.succ_mul]
    omega

/-! ### Values -/

mutual

/-- The bytes of a value without spaces. -/
def Value.size : Value Opaque → ℕ
  | .null => 4
  | .bool b => if b = true then 4 else 5
  | .int n => textSize (lit (toString n))
  | .float text => textSize (lit text)
  | .str text => quotedSize text
  | .array items => 2 + Value.itemSizes items + (items.length - 1)
  | .object fields => 2 + Value.fieldSizes fields + (fields.length - 1)
  | .other _ => 0

/-- The bytes of some values. -/
def Value.itemSizes : List (Value Opaque) → ℕ
  | [] => 0
  | item :: items => item.size + Value.itemSizes items

/-- The bytes of some fields. -/
def Value.fieldSizes : Mapping Opaque → ℕ
  | [] => 0
  | (key, value) :: fields => quotedSize key + 1 + value.size + Value.fieldSizes fields

end

/-- A format without spaces, in UTF-8. -/
structure Format.Compact (format : Format) : Prop where
  item : textSize format.itemSeparator = 1
  key : textSize format.keySeparator = 1
  utf8 : format.ensureAscii = false

variable {py : Interpreter Opaque} {format : Format}

theorem textSize_fieldText (hformat : format.Compact) (key text : Str) :
    textSize (fieldText format (key, text)) = quotedSize key + 1 + textSize text := by
  rw [fieldText, textSize_append, textSize_append, hformat.utf8, textSize_quote, hformat.key]

mutual

theorem Value.text_size (hformat : format.Compact) : ∀ value : Value Opaque, value.isJson = true →
    ∃ text, value.text py format = .ok text ∧ textSize text = value.size
  | .null, _ => ⟨_, rfl, rfl⟩
  | .bool b, _ => ⟨_, rfl, by cases b <;> rfl⟩
  | .int n, h => ⟨_, if_pos h, rfl⟩
  | .float text, _ => ⟨_, rfl, rfl⟩
  | .str text, _ => ⟨_, rfl, by rw [hformat.utf8, textSize_quote, Value.size]⟩
  | .array items, h => by
    obtain ⟨texts, htexts, hsize, hlength⟩ := Value.itemTexts_size hformat items h
    refine ⟨_, by rw [Value.text, htexts], ?_⟩
    have hopen : textSize (lit "[") = 1 := rfl
    have hclose : textSize (lit "]") = 1 := rfl
    rw [textSize_append, textSize_append, textSize_join, hopen, hclose, hsize, hlength, hformat.item, Value.size]
    omega
  | .object fields, h => by
    obtain ⟨texts, htexts, hsize, hlength⟩ := Value.fieldTexts_size hformat fields h
    refine ⟨_, by rw [Value.text, htexts, collect_sortFields_returned], ?_⟩
    have hopen : textSize (lit "\x7b") = 1 := rfl
    have hclose : textSize (lit "\x7d") = 1 := rfl
    have hperm : ((sortFields texts).map (fieldText format)).Perm (texts.map (fieldText format)) :=
      (List.perm_insertionSort _ texts).map _
    rw [textSize_append, textSize_append, textSize_join, (hperm.map textSize).sum_nat, hperm.length_eq, hopen, hclose, hsize,
      List.length_map, hlength, hformat.item, Value.size]
    omega
  | .other o, h => by simp [Value.isJson, Value.all] at h

theorem Value.itemTexts_size (hformat : format.Compact) : ∀ items : List (Value Opaque),
    Value.allItems prints (fun _ => true) (fun _ => false) items = true →
    ∃ texts, Value.itemTexts py format items = .ok texts ∧ (texts.map textSize).sum = Value.itemSizes items ∧
      texts.length = items.length
  | [], _ => ⟨[], rfl, rfl, rfl⟩
  | item :: items, h => by
    rw [Value.allItems, Bool.and_eq_true] at h
    obtain ⟨text, htext, hsize⟩ := Value.text_size hformat item h.1
    obtain ⟨texts, htexts, hsizes, hlength⟩ := Value.itemTexts_size hformat items h.2
    refine ⟨text :: texts, by rw [Value.itemTexts, htext, htexts], ?_, congrArg Nat.succ hlength⟩
    rw [List.map_cons, List.sum_cons, hsize, hsizes, Value.itemSizes]

theorem Value.fieldTexts_size (hformat : format.Compact) : ∀ fields : Mapping Opaque,
    Value.allFields prints (fun _ => true) (fun _ => false) fields = true →
    ∃ texts, Value.fieldTexts py format fields = returned texts ∧
      ((texts.map (fieldText format)).map textSize).sum = Value.fieldSizes fields ∧ texts.length = fields.length
  | [], _ => ⟨[], rfl, rfl, rfl⟩
  | (key, value) :: fields, h => by
    rw [Value.allFields, Bool.true_and, Bool.and_eq_true] at h
    obtain ⟨text, htext, hsize⟩ := Value.text_size hformat value h.1
    obtain ⟨texts, htexts, hsizes, hlength⟩ := Value.fieldTexts_size hformat fields h.2
    refine ⟨(key, text) :: texts, by rw [Value.fieldTexts, htext, htexts]; rfl, ?_, congrArg Nat.succ hlength⟩
    rw [List.map_cons, List.map_cons, List.sum_cons, textSize_fieldText hformat, hsize, hsizes, Value.fieldSizes]

end

end CcbCore.Radar
