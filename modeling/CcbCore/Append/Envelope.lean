import CcbCore.Message.Header

/-!
# The envelope of an append

The pure part of `src/radar/safe_lane_append.py`: its errors, the reading of a
message's leading metadata block, and the checks of an identity, an expected head
and a message id. What Python raises is an `Exc`: a `SafeAppendError`, or another
exception, of which only `str(exc)` is used.
-/

namespace CcbCore.Append

open CcbCore.Python CcbCore.Message

/-! ### Errors -/

/-- `RetryClass.PREWRITE`. -/
def prewrite : String := "REFRESH_OR_CORRECT_INPUT"

/-- `RetryClass.OBJECT`. -/
def object : String := "RECONCILE_THEN_RETRY"

/-- `RetryClass.REF` and `RetryClass.READBACK`. -/
def reconcileFirst : String := "RECONCILE_EFFECT_FIRST"

/-- No effect on the lane is established. -/
def noneEstablished : String := "NONE_ESTABLISHED"

/-- `ReceiptState.PRESENT_VERIFIED`. -/
def presentVerified : String := "PRESENT_VERIFIED"

/-- `ReceiptState.PRESENT_UNVERIFIED`. -/
def presentUnverified : String := "PRESENT_UNVERIFIED"

/-- `SafeAppendError`. -/
structure SafeAppendError where
  code : String
  phase : String := "PREFLIGHT"
  retryClass : String := prewrite
  effectState : String := noneEstablished
  detail : Option String := none
  deriving DecidableEq, Repr

/-- An `Exception`. -/
inductive Exc where
  | safe (error : SafeAppendError)
  | other (text : String)
  deriving DecidableEq, Repr

/-- `str(exc)`. -/
def Exc.text : Exc → String
  | .other text => text
  | .safe error =>
    match error.detail with
    | none => error.code
    | some detail => if detail = "" then error.code else error.code ++ ": " ++ detail

/-- An error before any effect. -/
def preflight (code : String) (detail : Option String := none) : Exc := .safe { code, detail }

/-- An error of a readback. -/
def readback (code : String) (detail : Option String := none) : Exc :=
  .safe { code, phase := "READBACK", retryClass := reconcileFirst, effectState := presentUnverified, detail }

/-! ### The message -/

/-- `message_utf8`. -/
inductive Utf8 where
  | str (text : List CodePoint)
  | bytes (data : Bytes)

/-- `_as_exact_utf8`: encoding a `str` is outside its `try`. -/
def asExactUtf8 (runtime : Runtime) (message : Utf8) : Except Exc (List Char × Bytes) :=
  match message with
  | .str text =>
    match scalars text with
    | some chars => .ok (chars, encode chars)
    | none => .error (.other (runtime.encodeError text))
  | .bytes data =>
    match decode data with
    | some chars => .ok (chars, data)
    | none => .error (preflight "MESSAGE_NOT_UTF8" (runtime.decodeError data))

/-- `_put_message_header`: whether the line is a header, with the headers put so far. -/
def putMessageHeader (headers : Headers) (line : List Char) : Except Exc (Option Headers) :=
  putHeaderOr (fun key => preflight "MESSAGE_ENVELOPE_INVALID" ("duplicate " ++ key ++ " header")) headers line

/-- The lines of a frontmatter block, up to the `---` that ends it. -/
def frontmatterHeaders (headers : Headers) : List (List Char) → Except Exc Headers
  | [] => .error (preflight "MESSAGE_ENVELOPE_INVALID" "frontmatter unterminated")
  | line :: lines =>
    if strip line = ['-', '-', '-'] then
      if headers = [] then .error (preflight "MESSAGE_ENVELOPE_INVALID" "header block missing") else .ok headers
    else if strip line ≠ [] ∧ line.head? ≠ some ' ' ∧ line.head? ≠ some '\t' then
      match putMessageHeader headers line with
      | .error e => .error e
      | .ok none => .error (preflight "MESSAGE_ENVELOPE_INVALID" "invalid frontmatter header")
      | .ok (some headers) => frontmatterHeaders headers lines
    else frontmatterHeaders headers lines

/-- The lines of a metadata block, up to the line that ends it. -/
def blockHeaders (headers : Headers) (started : Bool) : List (List Char) → Except Exc Headers
  | [] => if started then .ok headers else .error (preflight "MESSAGE_ENVELOPE_INVALID" "header block missing")
  | line :: lines =>
    if isBlank line then
      if started then .ok headers else blockHeaders headers started lines
    else
      match putMessageHeader headers line with
      | .error e => .error e
      | .ok none =>
        if started then .ok headers else .error (preflight "MESSAGE_ENVELOPE_INVALID" "header block missing")
      | .ok (some headers) => blockHeaders headers true lines

/-- `_metadata_headers`. -/
def metadataHeaders (text : List Char) : Except Exc Headers :=
  match ((splitlines text).map Line.content).dropWhile isBlank with
  | [] => blockHeaders [] false []
  | line :: lines =>
    if strip line = ['-', '-', '-'] then frontmatterHeaders [] lines
    else if (lstrip line).head? = some '#' then blockHeaders [] false (lines.dropWhile isBlank)
    else blockHeaders [] false (line :: lines)

/-- `_ParsedMessage`. -/
structure ParsedMessage where
  messageId : String
  writer : String
  prevMessageId : Option String
  deriving DecidableEq, Repr

/-- A header that is there and not empty. -/
def givenHeader (headers : Headers) (key : String) : Option String :=
  match headers.lookup key with
  | none => none
  | some [] => none
  | some (c :: value) => some (String.ofList (c :: value))

/-- `_parse_message`. -/
def parseMessage (text : List Char) : Except Exc ParsedMessage :=
  match metadataHeaders text with
  | .error e => .error e
  | .ok headers =>
    match givenHeader headers "message_id", givenHeader headers "writer" with
    | none, _ => .error (preflight "MESSAGE_ENVELOPE_INVALID" "message_id header missing")
    | some _, none => .error (preflight "WRITER_MISSING")
    | some messageId, some writer => .ok ⟨messageId, writer, givenHeader headers "prev_message_id"⟩

/-! ### The arguments -/

/-- `[a-z0-9]`. -/
def isLowerAlnum (c : Char) : Bool := ('a' ≤ c ∧ c ≤ 'z') ∨ isAsciiDigit c

/-- `[a-z0-9][a-z0-9_-]*`. -/
def isIdentity (text : List Char) : Bool :=
  match text with
  | [] => false
  | c :: rest => isLowerAlnum c && rest.all fun c => isLowerAlnum c || c = '_' || c = '-'

/-- `[A-Za-z0-9][A-Za-z0-9._-]*`. -/
def isLocalId (text : List Char) : Bool :=
  match text with
  | [] => false
  | c :: rest => isAsciiAlnum c && rest.all fun c => isAsciiAlnum c || c = '.' || c = '_' || c = '-'

/-- `[a-z0-9][a-z0-9_-]*-[A-Za-z0-9][A-Za-z0-9._-]*`: some hyphen divides the text. -/
def isMessageId (text : List Char) : Bool :=
  (List.range text.length).any fun n =>
    isIdentity (text.take n) && text[n]? = some '-' && isLocalId (text.drop (n + 1))

/-- `_validate_identity`. -/
def validateIdentity (identity : String) : Except Exc String :=
  if isIdentity identity.toList then .ok identity else .error (preflight "IDENTITY_UNKNOWN")

/-- `_validate_expected_head`. -/
def validateExpectedHead (expectedLaneHead : String) : Except Exc String :=
  if isSha40 expectedLaneHead.toList then .ok (lower expectedLaneHead) else .error (preflight "EXPECTED_HEAD_INVALID")

/-- `_validate_message_id`. -/
def validateMessageId (identity messageId : String) : Except Exc Unit :=
  if ¬ isMessageId messageId.toList then .error (preflight "MESSAGE_ID_INVALID")
  else if ¬ (identity.toList ++ ['-']).isPrefixOf messageId.toList then
    .error (preflight "MESSAGE_ID_INVALID" "message id is not writer-local to logical identity")
  else .ok ⟨⟩

end CcbCore.Append
