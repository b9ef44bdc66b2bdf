import CcbCore.Text.Python

/-!
# Header lines

What the two readers of a Bus message's header have in common,
`src/radar/message_grammar.py` and `src/radar/safe_lane_append.py`: the pattern of a
header line, `^([A-Za-z0-9_-]+)\s*:\s*(.*)$`, the spelling of its key, `unwrap_scalar`,
which both modules define alike, and how a header is put.
-/

namespace CcbCore.Message

open CcbCore.Python

/-- `[A-Za-z0-9_-]`. -/
def isKeyChar (c : Char) : Bool := isAsciiAlnum c || c = '_' || c = '-'

/-- The key and the value of a header line: the key is as long as it can be, and the
value is what follows the colon. -/
def matchHeader (line : List Char) : Option (List Char × List Char) :=
  match line.takeWhile isKeyChar, (line.dropWhile isKeyChar).dropWhile isSpace with
  | c :: key, ':' :: value => some (c :: key, value.dropWhile isSpace)
  | _, _ => none

/-- `key.casefold().replace("-", "_")` of a key, which is ASCII. -/
def normalizeKey (key : List Char) : String :=
  String.ofList (key.map fun c => if c = '-' then '_' else lowerChar c)

/-- The text between two quotes of a kind, when it is quoted. -/
def unquote (text : List Char) : Option (List Char) :=
  match text with
  | c :: rest => if (c = '`' ∨ c = '"' ∨ c = '\'') ∧ rest.getLast? = some c then some rest.dropLast else none
  | [] => none

/-- `unwrap_scalar`. -/
def unwrapScalar (value : List Char) : List Char :=
  match unquote (strip value) with
  | some inner => strip inner
  | none => strip value

/-- A `dict` of headers, in the order they were put. -/
abbrev Headers := List (String × List Char)

/-- Whether the line is a header, with the headers put so far: one that was put already
raises `duplicate` of its key. -/
def putHeaderOr {ε : Type} (duplicate : String → ε) (headers : Headers) (line : List Char) :
    Except ε (Option Headers) :=
  match matchHeader line with
  | none => .ok none
  | some (key, value) =>
    if (headers.lookup (normalizeKey key)).isSome then .error (duplicate (normalizeKey key))
    else .ok (some (headers ++ [(normalizeKey key, unwrapScalar value)]))

end CcbCore.Message
