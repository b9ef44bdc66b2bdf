import CcbCore.Text.CodePoints
import CcbCore.Text.Postgres

/-!
# Values on the wire

A `Value` is a Python value as the Radar runtime tells values apart: what `json.loads`
can give, and `other` for any other object. `dumps` is `json.dumps(value,
sort_keys=True)`; it returns the text of every value that `json.loads` can give, unless
the value is nested deeper than the interpreter's stack (`dumps_ok`), and the text
encodes when it is ASCII or all texts of the value encode (`encodable_text`).
-/

namespace CcbCore.Radar

open CcbCore.CodePoints CcbCore.Postgres
open CcbCore.Python (CodePoint Bytes encode scalars)

/-- An exception. -/
inductive Raised where
  | typeError
  | valueError (code : String)
  | unicodeEncodeError
  | recursionError
  | overflowError (code : String)
  | indexError (code : String)
  | deadLetterError (code : String)
  | registryError (code : String)
  | other (name : String)
  deriving DecidableEq, Repr

/-- `except (TypeError, ValueError)`: an encoding's error and a registry's are
`ValueError`s. -/
def Raised.isTypeOrValueError : Raised → Bool
  | .typeError | .valueError _ | .unicodeEncodeError | .registryError _ => true
  | _ => false

variable {Opaque : Type}

/-- A Python value: a number is its text in JSON, a list and a tuple are an `array`, and a
`dict` has texts as its keys. -/
inductive Value (Opaque : Type) where
  | null
  | bool (b : Bool)
  | int (n : ℤ)
  | float (text : String)
  | str (text : Str)
  | array (items : List (Value Opaque))
  | object (fields : List (Str × Value Opaque))
  | other (o : Opaque)

/-- A `Mapping[str, object]`. -/
abbrev Mapping (Opaque : Type) := List (Str × Value Opaque)

/-- The options of `json.dumps`. -/
structure Format where
  itemSeparator : Str
  keySeparator : Str
  ensureAscii : Bool
  /-- `default=` names the type of an object without a text of its own. -/
  naming : Bool

/-- The digits of the longest integer that the interpreter prints, or reads. -/
def maxDigits : ℕ := 4300

/-- An integer that the interpreter prints. -/
def prints (n : ℤ) : Bool := (Nat.toDigits 10 n.natAbs).length ≤ maxDigits

theorem prints_iff {n : ℤ} : prints n = true ↔ n.natAbs < 10 ^ maxDigits := by
  rw [prints, decide_eq_true_iff]
  exact Nat.length_toDigits_le_iff (by decide) (by decide)

/-- What the runtime uses of the interpreter and its library. -/
structure Interpreter (Opaque : Type) where
  unicode : Casefold
  /-- `text.upper()`. -/
  upper : Str → Str
  upper_ascii : ∀ text, (∀ c ∈ text, c.val < 0x80) → ∀ c ∈ upper text, c.val < 0x80
  /-- `hashlib.sha256(data).hexdigest()`. -/
  sha256 : Bytes → Hex 64
  /-- What `json.dumps` does with an object that JSON has not. -/
  dumpsOther : Format → Opaque → Except Raised Str
  /-- What `_safe_dlq_value` puts for it. -/
  safeOther : Opaque → Except Raised (Value Opaque)
  /-- `repr` of a mapping's keys and the types of its values, encoded. -/
  reprTypes : Mapping Opaque → Bytes
  /-- The stack takes `json.dumps` through a value. -/
  encodes : Value Opaque → Bool
  /-- The stack takes `_safe_dlq_value` through a value. -/
  walks : Value Opaque → Bool

/-- An interpreter for texts in ASCII and values from `json.loads`, with a stack for all of
them. -/
def asciiInterpreter (sha256 : Bytes → Hex 64) : Interpreter Empty where
  unicode := asciiCasefold
  upper text := text.map upperPoint
  upper_ascii := upperText_lt
  sha256 := sha256
  dumpsOther _ o := o.elim
  safeOther o := o.elim
  reprTypes _ := encode []
  encodes _ := true
  walks _ := true

/-! ### Texts -/

/-- `re.fullmatch(r"[0-9a-f]{n}", text)`. -/
def isHexText (n : ℕ) (text : Str) : Bool :=
  text.length = n && text.all fun c => (0x30 ≤ c.val && c.val ≤ 0x39) || (0x61 ≤ c.val && c.val ≤ 0x66)

/-- `\uXXXX`. -/
def unicodeEscape (n : ℕ) : Str :=
  lit (String.ofList ['\\', 'u', Jsonb.hexDigit (n / 0x1000 % 16), Jsonb.hexDigit (n / 0x100 % 16),
    Jsonb.hexDigit (n / 0x10 % 16), Jsonb.hexDigit (n % 16)])

/-- The escapes of one letter, by their code points. -/
def escapes : List (ℕ × Str) :=
  [(0x5c, lit "\\\\"), (0x22, lit "\\\""), (0x08, lit "\\b"), (0x0c, lit "\\f"), (0x0a, lit "\\n"),
    (0x0d, lit "\\r"), (0x09, lit "\\t")]

/-- A code point inside a JSON string. -/
def escape (ensureAscii : Bool) (c : CodePoint) : Str :=
  match escapes.lookup c.val with
  | some text => text
  | none =>
    if c.val < 0x20 ∨ (ensureAscii = true ∧ 0x7e < c.val) then
      if c.val < 0x10000 then unicodeEscape c.val
      else
        unicodeEscape (0xd800 + (c.val - 0x10000) / 0x400) ++ unicodeEscape (0xdc00 + (c.val - 0x10000) % 0x400)
    else [c]

/-- A text as a JSON string. -/
def quote (ensureAscii : Bool) (text : Str) : Str := lit "\"" ++ text.flatMap (escape ensureAscii) ++ lit "\""

/-- `sorted(fields)`, of different keys. -/
def sortFields {α : Type} (fields : List (Str × α)) : List (Str × α) :=
  fields.insertionSort fun a b => le a.1 b.1 = true

/-- The first exception of some results, or their values. -/
def collect {α : Type} : List (Str × Except Raised α) → Except Raised (List (Str × α))
  | [] => .ok []
  | (key, result) :: rest =>
    match result with
    | .error e => .error e
    | .ok value =>
      match collect rest with
      | .error e => .error e
      | .ok values => .ok ((key, value) :: values)

/-- A field of a JSON object. -/
def fieldText (format : Format) (field : Str × Str) : Str :=
  quote format.ensureAscii field.1 ++ format.keySeparator ++ field.2

mutual

/-- The text of a value, its fields sorted. -/
def Value.text (py : Interpreter Opaque) (format : Format) : Value Opaque → Except Raised Str
  | .null => .ok (lit "null")
  | .bool b => .ok (lit (if b = true then "true" else "false"))
  | .int n =>
    if prints n = true then .ok (lit (toString n))
    else .error (.valueError "Exceeds the limit (4300 digits) for integer string conversion")
  | .float text => .ok (lit text)
  | .str text => .ok (quote format.ensureAscii text)
  | .array items =>
    match Value.itemTexts py format items with
    | .error e => .error e
    | .ok texts => .ok (lit "[" ++ join format.itemSeparator texts ++ lit "]")
  | .object fields =>
    match collect (sortFields (Value.fieldTexts py format fields)) with
    | .error e => .error e
    | .ok texts => .ok (lit "\x7b" ++ join format.itemSeparator (texts.map (fieldText format)) ++ lit "\x7d")
  | .other o => py.dumpsOther format o

/-- The texts of some values. -/
def Value.itemTexts (py : Interpreter Opaque) (format : Format) : List (Value Opaque) → Except Raised (List Str)
  | [] => .ok []
  | item :: items =>
    match item.text py format with
    | .error e => .error e
    | .ok text =>
      match Value.itemTexts py format items with
      | .error e => .error e
      | .ok texts => .ok (text :: texts)

/-- What the values of some fields give. -/
def Value.fieldTexts (py : Interpreter Opaque) (format : Format) : Mapping Opaque → List (Str × Except Raised Str)
  | [] => []
  | (key, value) :: fields => (key, value.text py format) :: Value.fieldTexts py format fields

end

/-- `json.dumps(value, sort_keys=True)`. -/
def dumps (py : Interpreter Opaque) (format : Format) (value : Value Opaque) : Except Raised Str :=
  if py.encodes value = true then value.text py format else .error .recursionError

/-- `text.encode("utf-8")`. -/
def encodeText (text : Str) : Except Raised Bytes :=
  match scalars text with
  | none => .error .unicodeEncodeError
  | some chars => .ok (encode chars)

mutual

/-- Each integer in a value, each text and key, and each object that JSON has not, satisfies a
condition. -/
def Value.all (onInt : ℤ → Bool) (onText : Str → Bool) (onOther : Opaque → Bool) : Value Opaque → Bool
  | .int n => onInt n
  | .str text => onText text
  | .array items => Value.allItems onInt onText onOther items
  | .object fields => Value.allFields onInt onText onOther fields
  | .other o => onOther o
  | _ => true

@[inherit_doc Value.all]
def Value.allItems (onInt : ℤ → Bool) (onText : Str → Bool) (onOther : Opaque → Bool) : List (Value Opaque) → Bool
  | [] => true
  | item :: items => item.all onInt onText onOther && Value.allItems onInt onText onOther items

@[inherit_doc Value.all]
def Value.allFields (onInt : ℤ → Bool) (onText : Str → Bool) (onOther : Opaque → Bool) : Mapping Opaque → Bool
  | [] => true
  | (key, value) :: fields =>
    onText key && value.all onInt onText onOther && Value.allFields onInt onText onOther fields

end

/-- A value that `json.loads` can give. -/
def Value.isJson (value : Value Opaque) : Bool := value.all prints (fun _ => true) (fun _ => false)

/-- No text or key in a value has a surrogate. -/
def Value.encodable (value : Value Opaque) : Bool := value.all (fun _ => true) CodePoints.encodable (fun _ => true)

/-! ### What encodes -/

theorem encodable_unicodeEscape (n : ℕ) : encodable (unicodeEscape n) = true := encodable_lit _

theorem encodable_escapes {n : ℕ} {text : Str} (h : escapes.lookup n = some text) :
    encodable text = true ∧ n < 0xd800 := by
  have hall : ∀ e ∈ escapes, encodable e.2 = true ∧ e.1 < 0xd800 := by
    simp [escapes, encodable_lit]
  obtain ⟨before, after, heq, -⟩ := List.lookup_eq_some_iff.mp h
  exact hall (n, text) (by simp [heq])

/-- Only a surrogate that stays as it is keeps a JSON string from being encoded. -/
theorem encodable_escape (ensureAscii : Bool) (c : CodePoint) :
    encodable (escape ensureAscii c) = (ensureAscii || !isSurrogate c) := by
  have hkept (h : c.val < 0xd800) : isSurrogate c = false := by
    simp only [isSurrogate, Bool.and_eq_false_iff, decide_eq_false_iff_not]
    omega
  unfold escape
  cases hshort : escapes.lookup c.val with
  | some text =>
    obtain ⟨htext, hlt⟩ := encodable_escapes hshort
    simp only [htext, hkept hlt, Bool.not_false, Bool.or_true]
  | none =>
    by_cases hescaped : c.val < 0x20 ∨ (ensureAscii = true ∧ 0x7e < c.val)
    · have hright : (ensureAscii || !isSurrogate c) = true := by
        rcases hescaped with hlt | ⟨hascii, -⟩
        · simp [hkept (show c.val < 0xd800 by omega)]
        · simp [hascii]
      simp only [if_pos hescaped, hright]
      split
      · exact encodable_unicodeEscape _
      · rw [encodable_append, encodable_unicodeEscape, encodable_unicodeEscape, Bool.and_self]
    · simp only [if_neg hescaped]
      cases ensureAscii with
      | false => simp [encodable]
      | true => simp [encodable, hkept (show c.val < 0xd800 by simp only [true_and] at hescaped; omega)]

theorem encodable_quote (ensureAscii : Bool) (text : Str) :
    encodable (quote ensureAscii text) = (ensureAscii || encodable text) := by
  rw [quote, encodable_append, encodable_append, encodable_lit, Bool.true_and, Bool.and_true]
  induction text with
  | nil => simp [encodable]
  | cons c text ih =>
    rw [List.flatMap_cons, encodable_append, encodable_escape, ih]
    cases ensureAscii <;> rfl

theorem encodeText_ok {text : Str} : (∃ bytes, encodeText text = .ok bytes) ↔ encodable text = true := by
  rw [← scalars_isSome, encodeText]
  cases scalars text with
  | none => simp
  | some chars => simp

/-- Some fields, each of which gave its value. -/
def returned {α : Type} (fields : List (Str × α)) : List (Str × Except Raised α) :=
  fields.map fun field => (field.1, .ok field.2)

theorem collect_sortFields_returned {α : Type} (fields : List (Str × α)) :
    collect (sortFields (returned fields)) = .ok (sortFields fields) := by
  have hsort : sortFields (returned fields) = returned (sortFields fields) :=
    (List.map_insertionSort (fun a b : Str × α => le a.1 b.1 = true)
      (fun a b : Str × Except Raised α => le a.1 b.1 = true) (fun field => (field.1, .ok field.2)) fields
      fun _ _ _ _ => Iff.rfl).symm
  rw [hsort]
  induction sortFields fields with
  | nil => rfl
  | cons field rest ih =>
    rw [returned] at ih
    simp only [returned, List.map_cons, collect, ih]

theorem lookup_iff_mem {α : Type} {fields : List (Str × α)} (h : (fields.map (·.1)).Nodup) {key : Str} {value : α} :
    fields.lookup key = some value ↔ (key, value) ∈ fields := by
  induction fields with
  | nil => simp
  | cons field fields ih =>
    obtain ⟨key', value'⟩ := field
    rw [List.map_cons, List.nodup_cons] at h
    rw [List.lookup_cons, List.mem_cons, Prod.mk.injEq]
    by_cases hkey : key = key'
    · subst hkey
      have hnot : (key, value) ∉ fields := fun hmem => h.1 (List.mem_map.mpr ⟨_, hmem, rfl⟩)
      simp [hnot, eq_comm]
    · rw [beq_eq_false_iff_ne.mpr hkey]
      simp [hkey, ih h.2]

theorem all_sortFields {α : Type} (p : Str × α → Bool) (fields : List (Str × α)) :
    (sortFields fields).all p = fields.all p := by
  rw [Bool.eq_iff_iff, List.all_eq_true, List.all_eq_true]
  simp only [sortFields, List.mem_insertionSort]

/-- The separators of a format are texts that encode. -/
def Format.Plain (format : Format) : Prop :=
  encodable format.itemSeparator = true ∧ encodable format.keySeparator = true

section Json

variable {py : Interpreter Opaque} {format : Format}

mutual

/-- **A value that `json.loads` can give has a text, which encodes if it is ASCII or all
texts of the value encode.** -/
theorem Value.text_json (hplain : format.Plain) : ∀ value : Value Opaque, value.isJson = true →
    ∃ text, value.text py format = .ok text ∧ CodePoints.encodable text = (format.ensureAscii || value.encodable)
  | .null, _ => ⟨_, rfl, by simp [encodable_lit, Value.encodable, Value.all]⟩
  | .bool b, _ => ⟨_, rfl, by simp [encodable_lit, Value.encodable, Value.all]⟩
  | .int n, h => ⟨_, if_pos h, by simp [encodable_lit, Value.encodable, Value.all]⟩
  | .float text, _ => ⟨_, rfl, by simp [encodable_lit, Value.encodable, Value.all]⟩
  | .str text, _ => ⟨_, rfl, by simp [encodable_quote, Value.encodable, Value.all]⟩
  | .array items, h => by
    obtain ⟨texts, htexts, henc⟩ := Value.itemTexts_json hplain items h
    refine ⟨_, by rw [Value.text, htexts], ?_⟩
    rw [encodable_append, encodable_append, encodable_lit, encodable_lit, Bool.true_and, Bool.and_true,
      encodable_join hplain.1, henc, Value.encodable, Value.all]
  | .object fields, h => by
    obtain ⟨texts, htexts, henc⟩ := Value.fieldTexts_json hplain fields h
    refine ⟨_, by rw [Value.text, htexts, collect_sortFields_returned], ?_⟩
    rw [encodable_append, encodable_append, encodable_lit, encodable_lit, Bool.true_and, Bool.and_true,
      encodable_join hplain.1, List.all_map, all_sortFields, Function.comp_def, henc, Value.encodable, Value.all]
  | .other o, h => by simp [Value.isJson, Value.all] at h

theorem Value.itemTexts_json (hplain : format.Plain) : ∀ items : List (Value Opaque),
    Value.allItems prints (fun _ => true) (fun _ => false) items = true →
    ∃ texts, Value.itemTexts py format items = .ok texts ∧
      texts.all CodePoints.encodable = (format.ensureAscii || Value.allItems (fun _ => true) CodePoints.encodable (fun _ => true) items)
  | [], _ => ⟨[], rfl, by simp [Value.allItems]⟩
  | item :: items, h => by
    rw [Value.allItems, Bool.and_eq_true] at h
    obtain ⟨text, htext, henc⟩ := Value.text_json hplain item h.1
    obtain ⟨texts, htexts, hencs⟩ := Value.itemTexts_json hplain items h.2
    refine ⟨text :: texts, by rw [Value.itemTexts, htext, htexts], ?_⟩
    rw [List.all_cons, henc, hencs, Value.allItems, Value.encodable]
    cases format.ensureAscii <;> rfl

theorem Value.fieldTexts_json (hplain : format.Plain) : ∀ fields : Mapping Opaque,
    Value.allFields prints (fun _ => true) (fun _ => false) fields = true →
    ∃ texts, Value.fieldTexts py format fields = returned texts ∧
      texts.all (fun field => CodePoints.encodable (fieldText format field)) =
        (format.ensureAscii || Value.allFields (fun _ => true) CodePoints.encodable (fun _ => true) fields)
  | [], _ => ⟨[], rfl, by simp [Value.allFields]⟩
  | (key, value) :: fields, h => by
    rw [Value.allFields, Bool.true_and, Bool.and_eq_true] at h
    obtain ⟨text, htext, henc⟩ := Value.text_json hplain value h.1
    obtain ⟨texts, htexts, hencs⟩ := Value.fieldTexts_json hplain fields h.2
    refine ⟨(key, text) :: texts, by rw [Value.fieldTexts, htext, htexts]; rfl, ?_⟩
    rw [List.all_cons, hencs, fieldText, encodable_append, encodable_append, encodable_quote, hplain.2, henc,
      Value.allFields, Value.encodable]
    cases format.ensureAscii <;> simp

end

/-- `dumps` of a value in JSON returns, if the stack takes the value. -/
theorem dumps_json (py : Interpreter Opaque) (format : Format) (hplain : format.Plain) {value : Value Opaque} (h : value.isJson = true) :
    (py.encodes value = false ∧ dumps py format value = .error .recursionError) ∨
    (py.encodes value = true ∧ ∃ text, dumps py format value = .ok text ∧
      CodePoints.encodable text = (format.ensureAscii || value.encodable)) := by
  unfold dumps
  cases hstack : py.encodes value with
  | false => exact .inl ⟨rfl, rfl⟩
  | true =>
    obtain ⟨text, htext, henc⟩ := Value.text_json hplain value h
    exact .inr ⟨rfl, text, htext, henc⟩

end Json

end CcbCore.Radar
