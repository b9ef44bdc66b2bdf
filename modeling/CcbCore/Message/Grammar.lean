import CcbCore.Library.Raising
import CcbCore.Message.Header

/-!
# The grammar of Bus messages

`src/radar/message_grammar.py`: what the writer-lane guard and the central validation
accept as a message, and what they read from it. A `MessageGrammarError` is its text. A
line is read with its boundary. Of `_DATE_ONLY_RE`, `\d` is an ASCII digit here: a text
with another one is refused by `fromisoformat` either way.
-/

namespace CcbCore.Message

open CcbCore.Python

variable (runtime : Runtime)

/-! ### Scalars -/

/-- `parse_bus_bool`. -/
def parseBusBool (value : Option (List Char)) (field : String) : Except String Bool :=
  match value with
  | none => .ok false
  | some value =>
    if strip value = [] then .ok false
    else
      let normalized := runtime.casefold (String.ofList (unwrapScalar value))
      if normalized ∈ ["true", "yes", "1"] then .ok true
      else if normalized ∈ ["false", "no", "0"] then .ok false
      else .error ("INVALID_" ++ upper field)

/-- `_DATE_ONLY_RE`. -/
def isDateOnly (text : List Char) : Bool :=
  match text with
  | [y₁, y₂, y₃, y₄, '-', m₁, m₂, '-', d₁, d₂] => [y₁, y₂, y₃, y₄, m₁, m₂, d₁, d₂].all isAsciiDigit
  | _ => false

/-- `text[:-1] + "+00:00" if text.endswith("Z") else text`. -/
def isoCandidate (text : List Char) : List Char :=
  if text.getLast? = some 'Z' then text.dropLast ++ "+00:00".toList else text

/-- `normalize_bus_timestamp`, of `created_at`. -/
def normalizeBusTimestamp (value : List Char) : Except String (List Char) :=
  let text := unwrapScalar value
  if text = [] then .error "INVALID_CREATED_AT"
  else if isDateOnly text then
    match runtime.fromisoformat (String.ofList (text ++ "T00:00:00+00:00".toList)) with
    | none => .error "INVALID_CREATED_AT"
    | some _ => .ok (text ++ "T00:00:00Z".toList)
  else
    match runtime.fromisoformat (String.ofList (isoCandidate text)) with
    | some (some _) => .ok text
    | _ => .error "INVALID_CREATED_AT"

/-! ### The document -/

/-- `raw.rstrip("\r\n")`. -/
def rstripNewlines (raw : List Char) : List Char := raw.rdropWhile fun c => c = '\r' ∨ c = '\n'

/-- `_put_header`. -/
def putHeader (headers : Headers) (raw : List Char) : Except String (Option Headers) :=
  putHeaderOr (fun key => "DUPLICATE_HEADER_" ++ upper key) headers (rstripNewlines raw)

/-- The lines of a frontmatter block, up to the `---` that ends it and the blank lines
after that. -/
def splitFrontmatter (headers : Headers) : List Line → Except String (Headers × List Line)
  | [] => .error "UNTERMINATED_FRONTMATTER"
  | line :: lines =>
    if strip line.text = ['-', '-', '-'] then
      if headers = [] then .error "HEADER_BLOCK_REQUIRED"
      else .ok (headers, lines.dropWhile fun line => isBlank line.text)
    else if line.text.head?.any isSpace ∨ (strip line.text).head? = some '-' then splitFrontmatter headers lines
    else if strip line.text = [] then splitFrontmatter headers lines
    else
      match putHeader headers line.text with
      | .error e => .error e
      | .ok none => .error "INVALID_FRONTMATTER_HEADER"
      | .ok (some headers) => splitFrontmatter headers lines

/-- The lines of a metadata block, up to the line that ends it. -/
def splitBlock (headers : Headers) (started : Bool) : List Line → Except String (Headers × List Line)
  | [] => if started then .ok (headers, []) else .error "HEADER_BLOCK_REQUIRED"
  | line :: lines =>
    if isBlank line.text then
      if started then .ok (headers, lines) else splitBlock headers started lines
    else
      match putHeader headers line.text with
      | .error e => .error e
      | .ok none => if started then .ok (headers, line :: lines) else .error "HEADER_BLOCK_REQUIRED"
      | .ok (some headers) => splitBlock headers true lines

/-- `_split_document`, before the body is joined. -/
def splitLines (text : List Char) : Except String (Headers × List Line) :=
  match (splitlines text).dropWhile fun line => isBlank line.text with
  | [] => splitBlock [] false []
  | line :: lines =>
    if strip line.text = ['-', '-', '-'] then splitFrontmatter [] lines
    else if (lstrip line.text).head? = some '#' then splitBlock [] false (lines.dropWhile fun line => isBlank line.text)
    else splitBlock [] false (line :: lines)

/-- `_split_document`. -/
def splitDocument (text : List Char) : Except String (Headers × List Char) :=
  (splitLines text).map fun (headers, lines) => (headers, (lines.map Line.text).flatten)

/-- `_closed_by_sender`. -/
def closedBySender (body : List Char) : Bool :=
  match (splitlines (rstrip body)).getLast? with
  | none => false
  | some line => line.content = "#ENDTHREAD".toList

/-- `_intended_recipient`. -/
def intendedRecipient (headers : Headers) : Except String (List Char) :=
  match headers.lookup "intended_recipient", headers.lookup "intended_recipients" with
  | some _, some _ => .error "CONFLICTING_INTENDED_RECIPIENT_HEADERS"
  | some singular, none => .ok singular
  | none, plural => .ok (plural.getD [])

/-! ### The message -/

/-- `ParsedBusDocument`. -/
structure ParsedBusDocument where
  headers : Headers
  body : List Char
  messageId : String
  writer : String
  createdAt : Option (List Char)
  createdAtInvalid : Bool
  requiresReply : Bool
  requiresAck : Bool
  intendedRecipient : List Char
  subject : Option (List Char)
  fullSha256 : String
  bodySha256 : String
  bodyLength : ℕ
  conversationClosedBySender : Bool
  deriving DecidableEq

/-- `timestamp_policy`. -/
inductive TimestampPolicy where
  | strict
  | sourceFallback
  deriving DecidableEq, Repr

/-- A header's value, when it is there and not empty. -/
def Headers.given (headers : Headers) (key : String) : Option (List Char) :=
  (headers.lookup key).filter fun value => value ≠ []

/-- `created_at`, and `created_at_invalid`. -/
def readCreatedAt (headers : Headers) (policy : TimestampPolicy) : Except String (Option (List Char) × Bool) :=
  match Headers.given headers "created_at" with
  | none => .ok (none, false)
  | some raw =>
    match normalizeBusTimestamp runtime raw, policy with
    | .ok createdAt, _ => .ok (some createdAt, false)
    | .error _, .sourceFallback => .ok (none, true)
    | .error e, .strict => .error e

/-- What `parse_bus_document` makes of a text. -/
def parseBusText (content : Bytes) (text : List Char) (policy : TimestampPolicy) : Except String ParsedBusDocument := do
  let (headers, body) ← splitDocument text
  let messageId ← (Headers.given headers "message_id").elim (.error "MESSAGE_ID_REQUIRED") .ok
  let writer ← (Headers.given headers "writer").elim (.error "WRITER_REQUIRED") .ok
  let (createdAt, createdAtInvalid) ← readCreatedAt runtime headers policy
  let requiresReply ← parseBusBool runtime (headers.lookup "requires_reply") "requires_reply"
  let requiresAck ← parseBusBool runtime (headers.lookup "requires_ack") "requires_ack"
  let intendedRecipient ← intendedRecipient headers
  pure
    { headers, body, messageId := String.ofList messageId, writer := String.ofList writer, createdAt, createdAtInvalid
      requiresReply, requiresAck, intendedRecipient, subject := Headers.given headers "subject"
      fullSha256 := runtime.sha256 content, bodySha256 := runtime.sha256 (encode body)
      bodyLength := (encode body).size, conversationClosedBySender := closedBySender body }

/-- `parse_bus_document`. -/
def parseBusDocument (content : Bytes) (path : String) (policy : TimestampPolicy) : Except String ParsedBusDocument :=
  match decode content with
  | none => .error ("MESSAGE_NOT_UTF8:" ++ path)
  | some text => parseBusText runtime content text policy

/-! ### What is read of a text -/

section

open CcbCore.Raising

variable {runtime} {content : Bytes} {text : List Char} {parsed : ParsedBusDocument}

/-- What the grammar made of a text. -/
structure ParsedFrom (runtime : Runtime) (content : Bytes) (headers : Headers) (body : List Char) (parsed : ParsedBusDocument) :
    Prop where
  same : parsed.headers = headers
  messageId : ∃ given, Headers.given headers "message_id" = some given ∧ parsed.messageId = String.ofList given
  writer : ∃ given, Headers.given headers "writer" = some given ∧ parsed.writer = String.ofList given
  createdAt : ∃ invalid, readCreatedAt runtime headers .strict = .ok (parsed.createdAt, invalid)
  requiresReply : parseBusBool runtime (headers.lookup "requires_reply") "requires_reply" = .ok parsed.requiresReply
  requiresAck : parseBusBool runtime (headers.lookup "requires_ack") "requires_ack" = .ok parsed.requiresAck
  intendedRecipient : intendedRecipient headers = .ok parsed.intendedRecipient
  fullSha256 : parsed.fullSha256 = runtime.sha256 content
  bodySha256 : parsed.bodySha256 = runtime.sha256 (encode body)
  bodyLength : parsed.bodyLength = (encode body).size
  closed : parsed.conversationClosedBySender = closedBySender body

theorem parseBusText_ok (h : parseBusText runtime content text .strict = .ok parsed) :
    ∃ headers body, splitDocument text = .ok (headers, body) ∧ ParsedFrom runtime content headers body parsed := by
  simp only [parseBusText, except_bind_ok, elim_ok, except_pure_ok] at h
  obtain ⟨⟨headers, body⟩, hsplit, messageId, hmessageId, writer, hwriter, ⟨createdAt, invalid⟩, hcreatedAt, requiresReply, hreply,
    requiresAck, hack, intended, hintended, rfl⟩ := h
  exact ⟨headers, body, hsplit, rfl, ⟨messageId, hmessageId, rfl⟩, ⟨writer, hwriter, rfl⟩, ⟨invalid, hcreatedAt⟩, hreply, hack, hintended,
    rfl, rfl, rfl, rfl⟩

/-- The values that the strict policy reads have their forms. -/
structure ValuesRead (runtime : Runtime) (headers : Headers) : Prop where
  createdAt : ∀ raw, Headers.given headers "created_at" = some raw → ∃ time, normalizeBusTimestamp runtime raw = .ok time
  requiresReply : ∃ b, parseBusBool runtime (headers.lookup "requires_reply") "requires_reply" = .ok b
  requiresAck : ∃ b, parseBusBool runtime (headers.lookup "requires_ack") "requires_ack" = .ok b
  intendedRecipient : headers.lookup "intended_recipient" = none ∨ headers.lookup "intended_recipients" = none

theorem readCreatedAt_strict {headers : Headers} : (∃ result, readCreatedAt runtime headers .strict = .ok result) ↔
    ∀ raw, Headers.given headers "created_at" = some raw → ∃ time, normalizeBusTimestamp runtime raw = .ok time := by
  unfold readCreatedAt
  cases hgiven : Headers.given headers "created_at" with
  | none => exact iff_of_true ⟨_, rfl⟩ nofun
  | some raw =>
    simp only [Option.some.injEq, forall_eq']
    cases normalizeBusTimestamp runtime raw with
    | ok time => exact iff_of_true ⟨_, rfl⟩ ⟨_, rfl⟩
    | error e => exact iff_of_false nofun nofun

theorem intendedRecipient_ok_iff {headers : Headers} : (∃ text, intendedRecipient headers = .ok text) ↔
    headers.lookup "intended_recipient" = none ∨ headers.lookup "intended_recipients" = none := by
  unfold intendedRecipient
  cases headers.lookup "intended_recipient" with
  | none => exact iff_of_true ⟨_, rfl⟩ (.inl rfl)
  | some singular =>
    cases headers.lookup "intended_recipients" with
    | none => exact iff_of_true ⟨_, rfl⟩ (.inr rfl)
    | some plural => exact iff_of_false nofun (by simp)

/-- The texts that the strict policy accepts. -/
theorem exists_parseBusText_iff : (∃ parsed, parseBusText runtime content text .strict = .ok parsed) ↔
    ∃ headers body, splitDocument text = .ok (headers, body) ∧ (∃ id, Headers.given headers "message_id" = some id) ∧
      (∃ writer, Headers.given headers "writer" = some writer) ∧ ValuesRead runtime headers := by
  constructor
  · rintro ⟨parsed, hparsed⟩
    obtain ⟨headers, body, hsplit, hfrom⟩ := parseBusText_ok hparsed
    obtain ⟨invalid, hcreatedAt⟩ := hfrom.createdAt
    exact ⟨headers, body, hsplit, hfrom.messageId.imp fun _ => And.left, hfrom.writer.imp fun _ => And.left,
      readCreatedAt_strict.mp ⟨_, hcreatedAt⟩, ⟨_, hfrom.requiresReply⟩, ⟨_, hfrom.requiresAck⟩,
      intendedRecipient_ok_iff.mp ⟨_, hfrom.intendedRecipient⟩⟩
  · rintro ⟨headers, body, hsplit, ⟨id, hid⟩, ⟨writer, hwriter⟩, hvalues⟩
    obtain ⟨⟨createdAt, invalid⟩, hcreatedAt⟩ := readCreatedAt_strict.mpr hvalues.createdAt
    obtain ⟨reply, hreply⟩ := hvalues.requiresReply
    obtain ⟨ack, hack⟩ := hvalues.requiresAck
    obtain ⟨intended, hintended⟩ := intendedRecipient_ok_iff.mpr hvalues.intendedRecipient
    simp only [parseBusText, except_bind_ok, elim_ok, except_pure_ok]
    exact ⟨_, _, hsplit, _, hid, _, hwriter, _, hcreatedAt, _, hreply, _, hack, _, hintended, rfl⟩

end

end CcbCore.Message
