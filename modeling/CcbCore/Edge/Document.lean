import CcbCore.Message.Header
import CcbCore.Text.JavaScript

/-!
# The documents the Edge function reads

The header helpers and `splitDocument` of `supabase/functions/github-bus-ingest/handler.ts`.
A line record is read with the part of the text it stands for, so that a body is the
text of the records that are left. The headers are the own properties of an object: a
header under `__proto__` is taken, and makes none.
-/

namespace CcbCore.Edge

open CcbCore.Python CcbCore.JavaScript CcbCore.Message

/-- `HttpError`. -/
structure HttpError where
  status : ℕ
  code : String
  deriving DecidableEq, Repr

/-- An error of the request. -/
def unprocessable (code : String) : HttpError := ⟨422, code⟩

/-! ### Scalars -/

/-- `unwrapScalar`. -/
def unwrapScalar (value : List Char) : List Char :=
  match unquote (trim value) with
  | some inner => trim inner
  | none => trim value

/-! ### Lines -/

/-- The record of a line: its content is without a `\r` that ends it. -/
def lineRecord (line : Line) : Line :=
  if line.content.getLast? = some '\r' then ⟨line.content.dropLast, '\r' :: line.ending⟩ else line

/-- `lineRecords`. -/
def lineRecords (text : List Char) : List Line :=
  if text = [] then [⟨[], []⟩] else (rawLines text).map lineRecord

/-- The text from a record on. -/
def textFrom (lines : List Line) : List Char := (lines.map Line.text).flatten

/-- `line.content.trim() === ""`. -/
def isBlankRecord (line : Line) : Bool := trim line.content = []

/-! ### Headers -/

/-- `/^([A-Za-z0-9_-]+)\s*:\s*(.*)$/`: the value ends with the text, and `.` matches no
line terminator. -/
def matchHeader (raw : List Char) : Option (List Char × List Char) :=
  match raw.takeWhile isKeyChar, (raw.dropWhile isKeyChar).dropWhile isWhite with
  | c :: key, ':' :: value =>
    if (value.dropWhile isWhite).any isLineTerminator then none else some (c :: key, value.dropWhile isWhite)
  | _, _ => none

/-- `putHeader`. -/
def putHeader (headers : Headers) (raw : List Char) : Except HttpError (Option Headers) :=
  match matchHeader raw with
  | none => .ok none
  | some (key, value) =>
    if (headers.lookup (normalizeKey key)).isSome then
      .error (unprocessable ("DUPLICATE_HEADER_" ++ upper (normalizeKey key)))
    else if normalizeKey key = "__proto__" then .ok (some headers)
    else .ok (some (headers ++ [(normalizeKey key, trim value)]))

/-! ### Documents -/

/-- The records of a frontmatter block, up to the `---` that ends it and the blank ones
after that. -/
def splitFrontmatter (headers : Headers) : List Line → Except HttpError (Headers × List Line)
  | [] => .error (unprocessable "UNTERMINATED_FRONTMATTER")
  | line :: lines =>
    if trim line.content = ['-', '-', '-'] then
      if headers = [] then .error (unprocessable "HEADER_BLOCK_REQUIRED")
      else .ok (headers, lines.dropWhile isBlankRecord)
    else if line.content.head? = some ' ' ∨ line.content.head? = some '\t' ∨ (trim line.content).head? = some '-' then
      splitFrontmatter headers lines
    else if trim line.content = [] then splitFrontmatter headers lines
    else
      match putHeader headers line.content with
      | .error e => .error e
      | .ok none => .error (unprocessable "INVALID_FRONTMATTER_HEADER")
      | .ok (some headers) => splitFrontmatter headers lines

/-- The records of a metadata block, up to the one that ends it. -/
def splitBlock (headers : Headers) (started : Bool) : List Line → Except HttpError (Headers × List Line)
  | [] => if started then .ok (headers, []) else .error (unprocessable "HEADER_BLOCK_REQUIRED")
  | line :: lines =>
    if isBlankRecord line then
      if started then .ok (headers, lines) else splitBlock headers started lines
    else
      match putHeader headers line.content with
      | .error e => .error e
      | .ok none => if started then .ok (headers, line :: lines) else .error (unprocessable "HEADER_BLOCK_REQUIRED")
      | .ok (some headers) => splitBlock headers true lines

/-- `splitDocument`, before the body is cut from the text. -/
def splitLines (lines : List Line) : Except HttpError (Headers × List Line) :=
  match lines.dropWhile isBlankRecord with
  | [] => splitBlock [] false []
  | line :: lines =>
    if trim line.content = ['-', '-', '-'] then splitFrontmatter [] lines
    else if (trimStart line.content).head? = some '#' then splitBlock [] false (lines.dropWhile isBlankRecord)
    else splitBlock [] false (line :: lines)

/-- `splitDocument`. -/
def splitDocument (text : List Char) : Except HttpError (Headers × List Char) :=
  (splitLines (lineRecords text)).map fun (headers, lines) => (headers, textFrom lines)

end CcbCore.Edge
