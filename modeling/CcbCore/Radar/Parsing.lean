import CcbCore.Radar.Value

/-!
# Reading JSON

`json.loads` of a text, as the interpreter's scanner reads it: one value with space
around it, a key that comes again replacing what it was given before. What is no JSON
raises a `JSONDecodeError`, which is a `ValueError`.
-/

namespace CcbCore.Radar

open CcbCore.CodePoints
open CcbCore.Python (CodePoint)

variable {Opaque : Type}

/-- What `json.loads`, and the reading of what it gives, use of the interpreter. -/
structure Decoder (Opaque : Type) where
  /-- `repr(float(text))`. -/
  floatRepr : Str → String
  /-- `str(value)` of what is no text, number or constant. -/
  reprOf : Value Opaque → Str
  /-- `int(value)` of a text or a `float`. -/
  intOf : Value Opaque → Except Raised ℤ
  /-- The stack takes `json.loads` of a text. -/
  scans : Str → Bool

/-! ### Strings -/

/-- A hexadecimal digit. -/
def hexValue (c : CodePoint) : Option ℕ :=
  if 0x30 ≤ c.val ∧ c.val ≤ 0x39 then some (c.val - 0x30)
  else if 0x61 ≤ c.val ∧ c.val ≤ 0x66 then some (c.val - 0x57)
  else if 0x41 ≤ c.val ∧ c.val ≤ 0x46 then some (c.val - 0x37)
  else none

/-- Four hexadecimal digits, and what follows them. -/
def hexDigits : Str → Option (ℕ × Str)
  | a :: b :: c :: d :: rest =>
    match hexValue a, hexValue b, hexValue c, hexValue d with
    | some a, some b, some c, some d => some (a * 0x1000 + b * 0x100 + c * 0x10 + d, rest)
    | _, _, _, _ => none
  | _ => none

/-- A code point by its number. -/
def codePoint (n : ℕ) : CodePoint := if h : n < 0x110000 then ⟨n, h⟩ else ⟨0xfffd, by decide⟩

/-- What follows `\u`: a high surrogate takes a low one that is escaped after it. -/
def unicodeUnescape (text : Str) : Option (CodePoint × Str) :=
  match hexDigits text with
  | none => none
  | some (high, rest) =>
    if 0xd800 ≤ high ∧ high ≤ 0xdbff then
      match rest.dropPrefix? (lit "\\u") with
      | none => some (codePoint high, rest)
      | some after =>
        match hexDigits after with
        | none => none
        | some (low, rest') =>
          if 0xdc00 ≤ low ∧ low ≤ 0xdfff then
            some (codePoint (0x10000 + (high - 0xd800) * 0x400 + (low - 0xdc00)), rest')
          else some (codePoint high, rest)
    else some (codePoint high, rest)

/-- The letters after a backslash. -/
def unescapes : List (Char × Char) :=
  [('"', '"'), ('\\', '\\'), ('/', '/'), ('b', '\x08'), ('f', '\x0c'), ('n', '\n'), ('r', '\x0d'), ('t', '\t')]

/-- What follows a backslash. -/
def unescape : Str → Option (CodePoint × Str)
  | [] => none
  | c :: rest =>
    if c = point 'u' then unicodeUnescape rest
    else
      match unescapes.find? (point ·.1 = c) with
      | some (_, letter) => some (point letter, rest)
      | none => none

/-- A string after its quote, and what follows it; `strict` keeps control characters out. -/
def scanString : ℕ → Str → Option (Str × Str)
  | 0, _ => none
  | _ + 1, [] => none
  | fuel + 1, c :: rest =>
    if c = point '"' then some ([], rest)
    else if c = point '\\' then
      match unescape rest with
      | none => none
      | some (c, rest) => (scanString fuel rest).map fun (text, rest) => (c :: text, rest)
    else if c.val < 0x20 then none
    else (scanString fuel rest).map fun (text, rest) => (c :: text, rest)

/-! ### Numbers and constants -/

def isDigit (c : CodePoint) : Bool := 0x30 ≤ c.val && c.val ≤ 0x39

/-- A part of a number, if some digits are in it. -/
def digits (text : Str) : Option (Str × Str) :=
  let (first, rest) := text.span isDigit
  if first = [] then none else some (first, rest)

/-- `0|[1-9][0-9]*`, after a sign. -/
def integerPart (text : Str) : Option (Str × Str) :=
  let (sign, text) := text.span (· = point '-')
  if 1 < sign.length then none
  else
    match text with
    | [] => none
    | c :: rest =>
      if c = point '0' then some (sign ++ [c], rest) else (digits text).map fun (whole, rest) => (sign ++ whole, rest)

/-- `(\.[0-9]+)?`. -/
def fractionPart : Str → Str × Str
  | [] => ([], [])
  | c :: rest =>
    match digits rest with
    | some (fraction, after) => if c = point '.' then (c :: fraction, after) else ([], c :: rest)
    | none => ([], c :: rest)

/-- `([eE][-+]?[0-9]+)?`. -/
def exponentPart : Str → Str × Str
  | [] => ([], [])
  | c :: rest =>
    let (sign, unsigned) :=
      match rest with
      | s :: tail => if s = point '-' ∨ s = point '+' then ([s], tail) else ([], rest)
      | [] => ([], [])
    match digits unsigned with
    | some (exponent, after) =>
      if c = point 'e' ∨ c = point 'E' then (c :: sign ++ exponent, after) else ([], c :: rest)
    | none => ([], c :: rest)

/-- The value of some digits. -/
def natOf (text : Str) : ℕ := text.foldl (fun n c => n * 10 + (c.val - 0x30)) 0

/-- The value of digits with a sign. -/
def integerOf (text : Str) : ℤ :=
  match text with
  | c :: rest => if c = point '-' then -(natOf rest : ℤ) else natOf text
  | [] => 0

/-- A number, and what follows it. -/
def number (decoder : Decoder Opaque) (text : Str) : Option (Value Opaque × Str) :=
  match integerPart text with
  | none => none
  | some (integer, rest) =>
    let (fraction, rest) := fractionPart rest
    let (exponent, rest) := exponentPart rest
    if fraction = [] ∧ exponent = [] then
      if (integer.filter isDigit).length ≤ maxDigits then some (.int (integerOf integer), rest) else none
    else some (.float (decoder.floatRepr (integer ++ fraction ++ exponent)), rest)

/-- The words that are values. -/
def constants : List (String × Value Opaque) :=
  [("null", .null), ("true", .bool true), ("false", .bool false), ("NaN", .float "NaN"),
    ("Infinity", .float "Infinity"), ("-Infinity", .float "-Infinity")]

/-- A word or a number, and what follows it. -/
def scalar (decoder : Decoder Opaque) (text : Str) : Option (Value Opaque × Str) :=
  match constants.findSome? fun (word, value) => (text.dropPrefix? (lit word)).map fun rest => (value, rest) with
  | some result => some result
  | none => number decoder text

/-! ### Values -/

/-- `[ \t\n\r]*`. -/
def skipSpace (text : Str) : Str :=
  text.dropWhile fun c => c = point ' ' ∨ c = point '\t' ∨ c = point '\n' ∨ c = point '\x0d'

/-- The next character after space, and what follows it. -/
def nextToken (text : Str) : Option (CodePoint × Str) :=
  match skipSpace text with
  | [] => none
  | c :: rest => some (c, rest)

/-- `fields[key] = value`. -/
def setField {α : Type} (fields : List (Str × α)) (key : Str) (value : α) : List (Str × α) :=
  if fields.any (·.1 = key) then fields.map fun field => if field.1 = key then (key, value) else field
  else fields ++ [(key, value)]

/-- `dict(pairs)`. -/
def dictOf {α : Type} (pairs : List (Str × α)) : List (Str × α) :=
  pairs.foldl (fun fields pair => setField fields pair.1 pair.2) []

mutual

/-- `scan_once`: a value, and what follows it. -/
def parseValue (decoder : Decoder Opaque) : ℕ → Str → Option (Value Opaque × Str)
  | 0, _ => none
  | _ + 1, [] => none
  | fuel + 1, c :: rest =>
    if c = point '"' then (scanString fuel rest).map fun (text, rest) => (.str text, rest)
    else if c = point '[' then
      match nextToken rest with
      | none => none
      | some (d, after) =>
        if d = point ']' then some (.array [], after)
        else (parseItems decoder fuel (skipSpace rest)).map fun (items, rest) => (.array items, rest)
    else if c = point '\x7b' then
      match nextToken rest with
      | none => none
      | some (d, after) =>
        if d = point '\x7d' then some (.object [], after)
        else (parseFields decoder fuel (skipSpace rest)).map fun (fields, rest) => (.object (dictOf fields), rest)
    else scalar decoder (c :: rest)

/-- The items of an array that has some, and what follows it. -/
def parseItems (decoder : Decoder Opaque) : ℕ → Str → Option (List (Value Opaque) × Str)
  | 0, _ => none
  | fuel + 1, text =>
    match parseValue decoder fuel text with
    | none => none
    | some (item, rest) =>
      match nextToken rest with
      | none => none
      | some (c, rest) =>
        if c = point ']' then some ([item], rest)
        else if c = point ',' then
          (parseItems decoder fuel (skipSpace rest)).map fun (items, rest) => (item :: items, rest)
        else none

/-- The fields of an object that has some, and what follows it. -/
def parseFields (decoder : Decoder Opaque) : ℕ → Str → Option (Mapping Opaque × Str)
  | 0, _ => none
  | _ + 1, [] => none
  | fuel + 1, c :: rest =>
    if c = point '"' then
      match scanString fuel rest with
      | none => none
      | some (key, rest) =>
        match nextToken rest with
        | none => none
        | some (c, rest) =>
          if c = point ':' then
            match parseValue decoder fuel (skipSpace rest) with
            | none => none
            | some (value, rest) =>
              match nextToken rest with
              | none => none
              | some (c, rest) =>
                if c = point '\x7d' then some ([(key, value)], rest)
                else if c = point ',' then
                  (parseFields decoder fuel (skipSpace rest)).map fun (fields, rest) => ((key, value) :: fields, rest)
                else none
          else none
    else none

end

/-- `json.loads(text)`. -/
def loads (decoder : Decoder Opaque) (text : Str) : Except Raised (Value Opaque) :=
  if decoder.scans text = true then
    match parseValue decoder (text.length + 1) (skipSpace text) with
    | none => .error (.valueError "JSONDecodeError")
    | some (value, rest) => if skipSpace rest = [] then .ok value else .error (.valueError "JSONDecodeError")
  else .error .recursionError

end CcbCore.Radar
