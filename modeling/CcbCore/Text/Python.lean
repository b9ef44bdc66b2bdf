import Mathlib.Algebra.GroupWithZero.Nat
import Mathlib.Algebra.Ring.Int.Defs
import Mathlib.Tactic.Common
import Mathlib.Data.List.DropRight

/-!
# Python text

What the Python modules use of `str` and `bytes`. A `str` without unpaired surrogates
is a list of characters; an identifier, which the code only compares and strips, is a
`String`. `Runtime` holds the library functions that are used as they are: the hash,
`casefold`, `fromisoformat`, and the texts of the codecs' exceptions.
-/

namespace CcbCore.Python

/-- `str.isspace` of one character: the bidirectional types `WS`, `B`, `S` and the
category `Zs`. -/
def isSpace (c : Char) : Bool :=
  c.val ∈ [0x09, 0x0a, 0x0b, 0x0c, 0x0d, 0x1c, 0x1d, 0x1e, 0x1f, 0x20, 0x85, 0xa0, 0x1680,
    0x2000, 0x2001, 0x2002, 0x2003, 0x2004, 0x2005, 0x2006, 0x2007, 0x2008, 0x2009, 0x200a,
    0x2028, 0x2029, 0x202f, 0x205f, 0x3000]

/-- `text.lstrip()`. -/
def lstrip (text : List Char) : List Char := text.dropWhile isSpace

/-- `text.rstrip()`. -/
def rstrip (text : List Char) : List Char := text.rdropWhile isSpace

/-- `text.strip()`. -/
def strip (text : List Char) : List Char := rstrip (lstrip text)

/-- `value.strip()` of an identifier. -/
def stripString (value : String) : String := String.ofList (strip value.toList)

/-- `not text.strip()`. -/
def isBlank (text : List Char) : Bool := text.all isSpace

/-- The line boundaries of `str.splitlines`, besides `\r\n`. -/
def isLineBreak (c : Char) : Bool :=
  c.val ∈ [0x0a, 0x0b, 0x0c, 0x0d, 0x1c, 0x1d, 0x1e, 0x85, 0x2028, 0x2029]

/-- A line and the boundary that ends it. -/
structure Line where
  content : List Char
  ending : List Char
  deriving DecidableEq, Repr

/-- The line with its boundary, as `splitlines(keepends=True)` has it. -/
def Line.text (line : Line) : List Char := line.content ++ line.ending

/-- `text.splitlines()`, each line with the boundary it leaves out. -/
def splitlines : List Char → List Line
  | [] => []
  | '\r' :: '\n' :: rest => ⟨[], ['\r', '\n']⟩ :: splitlines rest
  | c :: rest =>
    if isLineBreak c then ⟨[], [c]⟩ :: splitlines rest
    else
      match splitlines rest with
      | [] => [⟨[c], []⟩]
      | line :: lines => ⟨c :: line.content, line.ending⟩ :: lines

/-- `c.lower()` of an ASCII character; another stays. -/
def lowerChar (c : Char) : Char := if 'A' ≤ c ∧ c ≤ 'Z' then Char.ofNat (c.toNat + 32) else c

/-- `c.upper()` of an ASCII character; another stays. -/
def upperChar (c : Char) : Char := if 'a' ≤ c ∧ c ≤ 'z' then Char.ofNat (c.toNat - 32) else c

/-- `text.upper()` of an ASCII text. -/
def upper (text : String) : String := String.ofList (text.toList.map upperChar)

/-- `text.lower()` of an ASCII text. -/
def lower (text : String) : String := String.ofList (text.toList.map lowerChar)

/-- `text.startswith(start)`. -/
def startsWith (text start : String) : Bool := start.toList.isPrefixOf text.toList

/-- `text.endswith(last)`. -/
def endsWith (text last : String) : Bool := last.toList.isSuffixOf text.toList

/-- `[A-Za-z]`, `[0-9]` and their union. -/
def isAsciiLetter (c : Char) : Bool := ('a' ≤ c ∧ c ≤ 'z') ∨ ('A' ≤ c ∧ c ≤ 'Z')

@[inherit_doc isAsciiLetter]
def isAsciiDigit (c : Char) : Bool := '0' ≤ c ∧ c ≤ '9'

@[inherit_doc isAsciiLetter]
def isAsciiAlnum (c : Char) : Bool := isAsciiLetter c || isAsciiDigit c

/-- `[0-9a-fA-F]{40}`. -/
def isSha40 (text : List Char) : Bool :=
  text.length = 40 && text.all fun c => isAsciiDigit c || ('a' ≤ c ∧ c ≤ 'f') || ('A' ≤ c ∧ c ≤ 'F')

/-! ### Bytes -/

/-- `bytes`. -/
abbrev Bytes := ByteArray

instance bytesDecidableEq : DecidableEq Bytes := ByteArray.instDecidableEq

/-- A character of a `str`: a code point, of which the surrogates are no `Char`. -/
abbrev CodePoint := Fin 0x110000

instance codePoints : NeZero (0x110000 : ℕ) := ⟨by decide⟩

/-- `text.encode("utf-8")`. -/
def encode (text : List Char) : Bytes := (String.ofList text).toByteArray

/-- `data.decode("utf-8")`. -/
def decode (data : Bytes) : Option (List Char) := data.utf8Decode?.map Array.toList

@[simp] theorem decode_encode (text : List Char) : decode (encode text) = some text := by
  simp [decode, encode, List.utf8Decode?_utf8Encode]

/-- The characters of a `str`, which encodes when it has no surrogate. -/
def scalars (text : List CodePoint) : Option (List Char) :=
  text.mapM fun c => if h : Nat.isValidChar c then some (Char.ofNatAux c h) else none

/-- What `json.loads` gives, as far as the code tells it apart. -/
inductive Json where
  | null
  | string (text : String)
  | object (fields : List (String × Json))
  | other

/-- `value.get(key)` of a `dict`. -/
def Json.get (fields : List (String × Json)) (key : String) : Json := (fields.lookup key).getD .null

/-- The library functions that are used as they are. -/
structure Runtime where
  /-- `hashlib.sha256(data).hexdigest()`. -/
  sha256 : Bytes → String
  /-- `text.casefold()`. -/
  casefold : String → String
  /-- Of an ASCII text it is `text.lower()`. -/
  casefold_ascii : ∀ text, (∀ c ∈ text.toList, c.toNat < 0x80) → casefold text = lower text
  /-- `datetime.fromisoformat(text)`, when it is no `ValueError`: the microseconds of an
  aware one since the epoch, or a naive one. -/
  fromisoformat : String → Option (Option ℤ)
  /-- `str` of the `UnicodeDecodeError` of bytes. -/
  decodeError : Bytes → String
  /-- `str` of the `UnicodeEncodeError` of a text. -/
  encodeError : List CodePoint → String

/-- One that folds no letter but those of ASCII, and hashes, dates and says nothing. -/
def Runtime.ascii : Runtime where
  sha256 _ := ""
  casefold := lower
  casefold_ascii _ _ := rfl
  fromisoformat _ := none
  decodeError _ := ""
  encodeError _ := ""

end CcbCore.Python
