import Mathlib.Data.List.DropRight
import Mathlib.Data.List.Sort
import Mathlib.Tactic.Common

/-!
# PostgreSQL text and JSON

The built-in functions the migrations use: `btrim`, the checks `~ '^[0-9a-f]{n}$'`,
the `.+` patterns on a result's prefix, and the operations on `jsonb` they need,
`->>`, `||` and the text of a value.
-/

namespace CcbCore.Postgres

/-! ### Text -/

/-- `btrim(s)`: without the spaces around it. -/
def btrim (s : String) : String :=
  String.ofList ((s.toList.dropWhile (· = ' ')).rdropWhile (· = ' '))

/-- `[0-9a-f]`. -/
def isHexDigit (c : Char) : Bool := ('0' ≤ c ∧ c ≤ '9') ∨ ('a' ≤ c ∧ c ≤ 'f')

/-- `s ~ '^[0-9a-f]{n}$'`. -/
def isHex (n : ℕ) (s : String) : Bool := s.toList.length = n ∧ s.toList.all isHexDigit

/-- A text that passed the check `~ '^[0-9a-f]{n}$'`. -/
structure Hex (n : ℕ) where
  text : String
  checked : isHex n text = true
  deriving DecidableEq

/-- The check, of a text. -/
def hex? (n : ℕ) (s : String) : Option (Hex n) :=
  if h : isHex n s = true then some ⟨s, h⟩ else none

theorem hex?_eq_some {n : ℕ} {s : String} {x : Hex n} : hex? n s = some x ↔ x.text = s := by
  unfold hex?
  by_cases h : isHex n s = true
  · rw [dif_pos h, Option.some.injEq]
    constructor
    · intro hx
      rw [← hx]
    · rintro rfl
      rfl
  · rw [dif_neg h]
    refine ⟨nofun, fun hx => ?_⟩
    rw [← hx] at h
    exact absurd x.checked h

/-- `s ~ '^p.+$'`, of a literal `p`. -/
def startsAndGoesOn (p s : String) : Bool := p.toList.isPrefixOf s.toList ∧ p.toList.length < s.toList.length

/-- `substring(s from 1 for n)`. -/
def substringTo (n : ℕ) (s : String) : String := String.ofList (s.toList.take n)

/-! ### JSON -/

/-- A `jsonb` value. A number is the text PostgreSQL prints for it; the keys of an
object do not repeat. -/
inductive Jsonb where
  | null
  | bool (b : Bool)
  | number (text : String)
  | string (s : String)
  | array (items : List Jsonb)
  | object (fields : List (String × Jsonb))

namespace Jsonb

/-- A hexadecimal digit of an escape. -/
def hexDigit (n : ℕ) : Char := if n < 10 then Char.ofNat (48 + n) else Char.ofNat (87 + n)

/-- A character inside a JSON string. -/
def escape (c : Char) : List Char :=
  if c = '"' then ['\\', '"']
  else if c = '\\' then ['\\', '\\']
  else if c = '\n' then ['\\', 'n']
  else if c = '\r' then ['\\', 'r']
  else if c = '\t' then ['\\', 't']
  else if c.toNat = 8 then ['\\', 'b']
  else if c.toNat = 12 then ['\\', 'f']
  else if c.toNat < 32 then ['\\', 'u', '0', '0', hexDigit (c.toNat / 16), hexDigit (c.toNat % 16)]
  else [c]

/-- A JSON string. -/
def quote (s : String) : String := String.ofList ('"' :: s.toList.flatMap escape ++ ['"'])

/-- The order in which an object's keys are stored: shorter keys first. -/
def keyOrder (a b : String × String) : Prop :=
  a.1.utf8ByteSize < b.1.utf8ByteSize ∨ (a.1.utf8ByteSize = b.1.utf8ByteSize ∧ a.1 ≤ b.1)

instance : DecidableRel keyOrder := fun a b =>
  inferInstanceAs (Decidable (a.1.utf8ByteSize < b.1.utf8ByteSize ∨
    (a.1.utf8ByteSize = b.1.utf8ByteSize ∧ a.1 ≤ b.1)))

mutual

/-- `value::text`. -/
def text : Jsonb → String
  | .null => "null"
  | .bool b => if b then "true" else "false"
  | .number t => t
  | .string s => quote s
  | .array items => "[" ++ ", ".intercalate (itemTexts items) ++ "]"
  | .object fields => "\x7b" ++ ", ".intercalate (((fieldTexts fields).insertionSort keyOrder).map Prod.snd) ++ "\x7d"

/-- The texts of an array's items. -/
def itemTexts : List Jsonb → List String
  | [] => []
  | item :: items => item.text :: itemTexts items

/-- The texts of an object's fields, under their keys. -/
def fieldTexts : List (String × Jsonb) → List (String × String)
  | [] => []
  | (key, value) :: fields => (key, quote key ++ ": " ++ value.text) :: fieldTexts fields

end

/-- `jsonb_typeof(value) = 'object'`. -/
def isObject : Jsonb → Bool
  | .object _ => true
  | _ => false

/-- `value ->> key`. -/
def getText (value : Jsonb) (key : String) : Option String :=
  match value with
  | .object fields =>
    match fields.lookup key with
    | none => none
    | some .null => none
    | some (.string s) => some s
    | some other => some other.text
  | _ => none

/-- `a || b` on the fields of two objects: those of `b` win. -/
def mergeFields (a b : List (String × Jsonb)) : List (String × Jsonb) :=
  a.filter (fun field => (b.lookup field.1).isNone) ++ b

/-- A value as an array: itself, or its only item. -/
def asArray : Jsonb → List Jsonb
  | .array items => items
  | value => [value]

/-- `a || b`. -/
def concat (a b : Jsonb) : Jsonb :=
  match a, b with
  | .object fields, .object fields' => .object (mergeFields fields fields')
  | _, _ => .array (a.asArray ++ b.asArray)

/-- `to_jsonb` of a text that may be NULL. -/
def ofText : Option String → Jsonb
  | none => .null
  | some s => .string s

end Jsonb

end CcbCore.Postgres
