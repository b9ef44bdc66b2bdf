import CcbCore.Text.Python
import Mathlib.Data.List.Infix

/-!
# JavaScript text

What the Edge function uses of a JavaScript string. A string that was decoded from
bytes has no unpaired surrogate, and is a list of characters: the code never looks
inside a pair. `Engine` holds the library functions that are used as they are.
-/

namespace CcbCore.JavaScript

open CcbCore.Python

/-- `LineTerminator`, which `.` does not match. -/
def isLineTerminator (c : Char) : Bool := c.val ∈ [0x0a, 0x0d, 0x2028, 0x2029]

/-- `WhiteSpace` or `LineTerminator`: what `trim` takes away and `\s` matches. -/
def isWhite (c : Char) : Bool :=
  c.val ∈ [0x09, 0x0a, 0x0b, 0x0c, 0x0d, 0x20, 0xa0, 0x1680,
    0x2000, 0x2001, 0x2002, 0x2003, 0x2004, 0x2005, 0x2006, 0x2007, 0x2008, 0x2009, 0x200a,
    0x2028, 0x2029, 0x202f, 0x205f, 0x3000, 0xfeff]

/-- `text.trimStart()`. -/
def trimStart (text : List Char) : List Char := text.dropWhile isWhite

/-- `text.trimEnd()`. -/
def trimEnd (text : List Char) : List Char := text.rdropWhile isWhite

/-- `text.trim()`. -/
def trim (text : List Char) : List Char := trimEnd (trimStart text)

/-- `value.trim()` of an identifier. -/
def trimString (value : String) : String := String.ofList (trim value.toList)

/-- `text.length`, in units of UTF-16. -/
def utf16Length (text : List Char) : ℕ := (text.map fun c => if c.val < 0x10000 then 1 else 2).sum

/-- `text.includes(part)`. -/
def includes (text part : List Char) : Bool := text.tails.any fun rest => part.isPrefixOf rest

theorem includes_iff {text part : List Char} : includes text part = true ↔ part <:+: text := by
  simp only [includes, List.any_eq_true, List.mem_tails, List.isPrefixOf_iff_prefix, List.infix_iff_prefix_suffix]
  constructor
  · rintro ⟨rest, hrest, hpart⟩
    exact ⟨rest, hpart, hrest⟩
  · rintro ⟨rest, hpart, hrest⟩
    exact ⟨rest, hrest, hpart⟩

/-- The lines of a text, each with the `\n` that ends it. -/
def rawLines : List Char → List Line
  | [] => []
  | '\n' :: rest => ⟨[], ['\n']⟩ :: rawLines rest
  | c :: rest =>
    match rawLines rest with
    | [] => [⟨[c], []⟩]
    | line :: lines => ⟨c :: line.content, line.ending⟩ :: lines

/-- The library functions that are used as they are. -/
structure Engine where
  /-- `text.toLowerCase()`. -/
  toLowerCase : String → String
  /-- Of an ASCII text it is the lower-case text. -/
  toLowerCase_ascii : ∀ text, (∀ c ∈ text.toList, c.toNat < 0x80) → toLowerCase text = lower text
  /-- `Date.parse(text)`, when it is finite: milliseconds since the epoch. -/
  dateParse : String → Option ℤ

end CcbCore.JavaScript
