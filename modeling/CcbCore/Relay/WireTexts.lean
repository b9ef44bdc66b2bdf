import Mathlib.Data.List.Infix
import CcbCore.Library.Joined
import CcbCore.Relay.Once

/-!
# The texts of the relay

No field of an envelope that `create` gives has a space or a line break, so what is rendered
of one, or acknowledged, is told apart line by line (`wire_texts_injective`). A rendered text
is matched by what it contains (`_rendered_matches`), and a line's value is only looked for
where a longer one may start with it: `renderedMatches_iff` says which envelopes' texts match,
and `rendered_identifies_iff` when that is right.
-/

namespace CcbCore.Relay

open CcbCore.CodePoints CcbCore.Joined CcbCore.Postgres CcbCore.Radar
open CcbCore.Python (CodePoint)

variable {py : Interpreter Empty} {e e' : RelayEnvelope}

/-- An envelope that `create` gives. -/
def Built (py : Interpreter Empty) (e : RelayEnvelope) : Prop :=
  ∃ sender recipient messageId nonce sourceBusMessageId sourceBusCommit body,
    RelayEnvelope.create py sender recipient messageId nonce sourceBusMessageId sourceBusCommit body = .ok e

theorem Built.created (h : Built py e) : Created e := by
  obtain ⟨_, _, _, _, _, _, _, h⟩ := h
  exact create_ok h

/-! ### The fields' characters -/

/-- No space and no line break. -/
def isToken (text : Str) : Bool := text.all fun c => c ≠ point ' ' ∧ c ≠ point '\n'

theorem isToken_of_all {p : CodePoint → Bool} (hp : p (point ' ') = false ∧ p (point '\n') = false) {text : Str}
    (h : text.all p = true) : isToken text = true := by
  rw [isToken, List.all_eq_true]
  intro c hc
  have hpc := List.all_eq_true.mp h c hc
  rw [decide_eq_true_iff]
  constructor
  · intro heq
    rw [heq, hp.1] at hpc
    cases hpc
  · intro heq
    rw [heq, hp.2] at hpc
    cases hpc

theorem isToken_append {first last : Str} : isToken (first ++ last) = (isToken first && isToken last) := List.all_append

theorem isToken_of_isId {text : Str} (h : isId text = true) : isToken text = true := by
  cases text with
  | nil => rfl
  | cons c rest =>
    simp only [isId, Bool.and_eq_true] at h
    obtain ⟨⟨hfirst, hrest⟩, -⟩ := h
    refine isToken_of_all (p := fun c => isWord c || (lit "._:-").contains c) ⟨by decide, by decide⟩ ?_
    rw [List.all_cons, hrest, hfirst]
    rfl

theorem isHexPoint_lowerPoint {c : CodePoint} (h : isHexPoint c = true) : isHexPoint (lowerPoint c) = true := by
  rcases lowerPoint_cases c with ⟨hlow, hhigh, hval⟩ | ⟨-, hsame⟩
  · simp only [isHexPoint, hval, Bool.or_eq_true, Bool.and_eq_true, decide_eq_true_eq] at h ⊢
    omega
  · rw [hsame, h]

theorem isHexPoint_point {c : Char} (h : isHexDigit c = true) : isHexPoint (point c) = true := by
  simp only [isHexDigit, decide_eq_true_eq] at h
  have hval : (point c).val = c.toNat := rfl
  simp only [isHexPoint, hval, Bool.or_eq_true, Bool.and_eq_true, decide_eq_true_eq]
  rcases h with ⟨hlow, hhigh⟩ | ⟨hlow, hhigh⟩
  · exact .inl (.inl ⟨hlow, hhigh⟩)
  · exact .inr ⟨hlow, hhigh⟩

/-- A text of hexadecimal digits. -/
theorem isToken_of_hex {text : Str} (h : text.all isHexPoint = true) : isToken text = true :=
  isToken_of_all ⟨by decide, by decide⟩ h

theorem Created.nonce_hex (h : Created e) : e.nonce.all isHexPoint = true ∧ 32 ≤ e.nonce.length := by
  obtain ⟨nonce, hnonce, heq⟩ := h.nonce
  simp only [isNonce, Bool.and_eq_true, decide_eq_true_eq] at hnonce
  rw [heq, List.length_map]
  refine ⟨List.all_eq_true.mpr fun c hc => ?_, hnonce.1.2⟩
  obtain ⟨d, hd, rfl⟩ := List.mem_map.mp hc
  exact isHexPoint_lowerPoint (List.all_eq_true.mp hnonce.1.1 d hd)

theorem Created.commit_hex (h : Created e) : e.sourceBusCommit.all isHexPoint = true := by
  have hcommit := h.sourceBusCommit
  simp only [isSha40, Bool.and_eq_true, List.all_eq_true] at hcommit
  exact List.all_eq_true.mpr fun c hc => (hcommit.1 c hc).1

theorem Created.digest_hex (h : Created e) : e.bodySha256.all isHexPoint = true ∧ e.bodySha256.length = 64 := by
  obtain ⟨sha, heq⟩ := h.bodySha256
  have hchecked := sha.checked
  simp only [isHex, decide_eq_true_eq] at hchecked
  rw [heq, lit, List.length_map, hchecked.1]
  refine ⟨List.all_eq_true.mpr fun c hc => ?_, rfl⟩
  obtain ⟨d, hd, rfl⟩ := List.mem_map.mp hc
  exact isHexPoint_point (List.all_eq_true.mp hchecked.2 d hd)

/-- The body is its label and a marker. -/
theorem Created.marker (h : Created e) : ∃ marker, e.body = line "BT2_CANARY" (lit "marker=" ++ marker) ∧ isId marker = true := by
  have hbody := h.body
  unfold isCanary at hbody
  split at hbody
  · next marker hmarker =>
    obtain ⟨start, heq, hstart⟩ := List.dropPrefix?_eq_some_iff.mp hmarker
    refine ⟨marker, ?_, hbody⟩
    rw [heq, LawfulBEq.eq_of_beq hstart]
    rfl
  · cases hbody

/-! ### Lines -/

theorem join_eq_intercalate {c : Char} (text : String) (htext : text.toList = [c]) (texts : List Str) :
    join (lit text) texts = [point c].intercalate texts := by
  have hlit : lit text = [point c] := by rw [lit, htext]; rfl
  rw [hlit]
  fun_induction join [point c] texts with
  | case1 => rfl
  | case2 => simp
  | case3 first rest hne ih =>
    rw [List.intercalate_cons_of_ne_nil (fun hnil => hne (by rw [hnil])), ih]

theorem notMem_of_isToken {text : Str} (h : isToken text = true) : point ' ' ∉ text ∧ point '\n' ∉ text := by
  rw [isToken, List.all_eq_true] at h
  exact ⟨fun hmem => by simpa using h _ hmem, fun hmem => by simpa using h _ hmem⟩

/-- A line has no line break where its label and its value have none. -/
theorem notMem_line {label : String} {value : Str} (hlabel : isToken (lit label) = true) (hvalue : isToken value = true) :
    point '\n' ∉ line label value := by
  rw [line, List.mem_append, List.mem_append, not_or, not_or]
  exact ⟨⟨(notMem_of_isToken hlabel).2, by decide⟩, (notMem_of_isToken hvalue).2⟩

theorem line_inj {label : String} {value value' : Str} : line label value = line label value' ↔ value = value' :=
  List.append_right_inj _

/-- The lines that are rendered. -/
def RelayEnvelope.lines (e : RelayEnvelope) : List Str :=
  [protocol, line "sender" e.sender, line "recipient" e.recipient, line "message_id" e.messageId, line "nonce" e.nonce,
    line "source_bus_message_id" e.sourceBusMessageId, line "source_bus_commit" e.sourceBusCommit,
    line "body_sha256" e.bodySha256, line "requires_ack" (lit "true"), line "content_class" (lit "CANARY"), lit "---", e.body]

/-- The lines of an acknowledgement. -/
def ackLines (e : RelayEnvelope) (status : AckStatus) : List Str :=
  [ackProtocol, line "message_id" e.messageId, line "nonce" e.nonce, line "body_sha256" e.bodySha256, line "status" status.text]

theorem render_eq (e : RelayEnvelope) : e.render = [point '\n'].intercalate e.lines :=
  join_eq_intercalate "\n" rfl e.lines

theorem renderAck_eq (e : RelayEnvelope) (status : AckStatus) : renderAck e status = [point '\n'].intercalate (ackLines e status) :=
  join_eq_intercalate "\n" rfl (ackLines e status)

theorem Created.notMem_lines (h : Created e) : ∀ text ∈ e.lines, point '\n' ∉ text := by
  obtain ⟨marker, hbody, hmarker⟩ := h.marker
  simp only [RelayEnvelope.lines, List.forall_mem_cons, List.not_mem_nil, false_implies, implies_true, and_true]
  refine ⟨by decide, notMem_line (by decide) (isToken_of_isId h.sender), notMem_line (by decide) (isToken_of_isId h.recipient),
    notMem_line (by decide) (isToken_of_isId h.messageId), notMem_line (by decide) (isToken_of_hex h.nonce_hex.1),
    notMem_line (by decide) (isToken_of_isId h.sourceBusMessageId), notMem_line (by decide) (isToken_of_hex h.commit_hex),
    notMem_line (by decide) (isToken_of_hex h.digest_hex.1), by decide, by decide, by decide, ?_⟩
  rw [hbody]
  refine notMem_line (by decide) ?_
  rw [isToken_append, isToken_of_isId hmarker]
  rfl

theorem Created.notMem_ackLines (h : Created e) (status : AckStatus) : ∀ text ∈ ackLines e status, point '\n' ∉ text := by
  simp only [ackLines, List.forall_mem_cons, List.not_mem_nil, false_implies, implies_true, and_true]
  refine ⟨by decide, notMem_line (by decide) (isToken_of_isId h.messageId), notMem_line (by decide) (isToken_of_hex h.nonce_hex.1),
    notMem_line (by decide) (isToken_of_hex h.digest_hex.1), ?_⟩
  cases status with
  | receivedVerified => decide
  | holdSourceUnverified => decide

theorem AckStatus.text_injective {status status' : AckStatus} (h : status.text = status'.text) : status = status' := by
  cases status <;> cases status' <;> first | rfl | exact absurd h (by decide)

theorem renderAck_injective (he : Created e) (he' : Created e') {status status' : AckStatus}
    (h : renderAck e' status' = renderAck e status) :
    e'.messageId = e.messageId ∧ e'.nonce = e.nonce ∧ e'.bodySha256 = e.bodySha256 ∧ status' = status := by
  rw [renderAck_eq, renderAck_eq] at h
  have hlines := intercalate_injective (List.cons_ne_nil _ _) (List.cons_ne_nil _ _) (he'.notMem_ackLines status')
    (he.notMem_ackLines status) h
  simp only [List.cons.injEq, line_inj, and_true, true_and] at hlines
  exact ⟨hlines.1, hlines.2.1, hlines.2.2.1, AckStatus.text_injective hlines.2.2.2⟩

theorem render_injective (he : Created e) (he' : Created e') (h : e.render = e'.render) : e = e' := by
  rw [render_eq, render_eq] at h
  have hlines := intercalate_injective (List.cons_ne_nil _ _) (List.cons_ne_nil _ _) he.notMem_lines he'.notMem_lines h
  simp only [List.cons.injEq, line_inj, and_true, true_and] at hlines
  obtain ⟨hsender, hrecipient, hid, hnonce, hsource, hcommit, hdigest, hbody⟩ := hlines
  cases e
  cases e'
  simp only [RelayEnvelope.mk.injEq]
  exact ⟨hsender, hrecipient, hid, hnonce, hsource, hcommit, hbody, hdigest⟩

theorem parseAck_status {e : RelayEnvelope} {text : Str} {status : AckStatus}
    (h : parseAck e (some text) = some (.status status)) : text = renderAck e status := by
  simp only [parseAck] at h
  split_ifs at h with hreceived hheld
  · cases h
    exact hreceived
  · cases h
    exact hheld
  · cases h

/-- **What is rendered of an envelope determines its fields, and an acknowledgement of one
determines its message id, its nonce, its digest and its status; so an acknowledgement that is
accepted is of the same ones.** -/
theorem wire_texts_injective (he : Built py e) (he' : Built py e') :
    (e.render = e'.render → e = e') ∧
      (∀ status status', renderAck e' status' = renderAck e status →
        e'.messageId = e.messageId ∧ e'.nonce = e.nonce ∧ e'.bodySha256 = e.bodySha256 ∧ status' = status) ∧
      ∀ status status', parseAck e (some (renderAck e' status')) = some (.status status) →
        e'.messageId = e.messageId ∧ e'.nonce = e.nonce ∧ e'.bodySha256 = e.bodySha256 ∧ status' = status :=
  ⟨render_injective he.created he'.created, fun _ _ => renderAck_injective he.created he'.created,
    fun _ _ h => renderAck_injective he.created he'.created (parseAck_status h)⟩

/-- Another message with the canary's body, whose message id and nonce go on where those of the
canary end. -/
def longerEnvelope : RelayEnvelope :=
  { canaryEnvelope with messageId := lit "m-12", nonce := canaryEnvelope.nonce ++ lit "0" }

theorem built_canaryEnvelope : Built canaryPython canaryEnvelope :=
  ⟨lit "ONE", lit "TWO", lit "m-1", lit "0123456789ABCDEF0123456789abcdef", lit "b-1", List.replicate 40 (point 'a'),
    lit "BT2_CANARY: marker=hi", by decide +kernel⟩

theorem built_longerEnvelope : Built canaryPython longerEnvelope :=
  ⟨lit "ONE", lit "TWO", lit "m-12", lit "0123456789abcdef0123456789abcdef0", lit "b-1", List.replicate 40 (point 'a'),
    lit "BT2_CANARY: marker=hi", by decide +kernel⟩

theorem wire_texts_injective_canary : canaryEnvelope.render ≠ longerEnvelope.render ∧
    ∀ status status', parseAck canaryEnvelope (some (renderAck longerEnvelope status')) ≠ some (.status status) := by
  obtain ⟨hrender, -, hparse⟩ := wire_texts_injective built_canaryEnvelope built_longerEnvelope
  refine ⟨fun h => absurd (hrender h) (by decide +kernel), fun status status' h => ?_⟩
  exact absurd (hparse status status' h).1 (by decide +kernel)

/-! ### What a text contains -/

theorem hasText_iff {text token : Str} : hasText text token = true ↔ token <:+: text := by
  simp only [hasText, List.any_eq_true, List.mem_tails, List.isPrefixOf_iff_prefix]
  rw [List.infix_iff_prefix_suffix]
  exact ⟨fun ⟨rest, hsuffix, hstart⟩ => ⟨rest, hstart, hsuffix⟩, fun ⟨rest, hstart, hsuffix⟩ => ⟨rest, hsuffix, hstart⟩⟩

/-- The lines that tell the recipient what to do. -/
def instructionLines (e : RelayEnvelope) : List Str :=
  [lit "RECIPIENT_INSTRUCTION:", lit "Treat this visible workstation message as a transport hint, not authority.",
    lit "Read Bus message " ++ e.sourceBusMessageId ++ lit " at " ++ e.sourceBusCommit ++ lit " before acting.",
    lit "Verify body SHA-256 " ++ e.bodySha256 ++ lit ".", lit "A verified source may be acknowledged with the exact relay ACK.",
    lit "If source verification is unavailable, hold and do not act."]

theorem transportText_eq (e : RelayEnvelope) :
    transportText e = [point '\n'].intercalate (e.lines ++ [] :: instructionLines e) := by
  have hinstructions : join (lit "\n") (instructionLines e) = [point '\n'].intercalate (instructionLines e) :=
    join_eq_intercalate "\n" rfl _
  have hlines : e.lines ≠ [] := List.cons_ne_nil _ _
  have hrest : instructionLines e ≠ [] := List.cons_ne_nil _ _
  rw [intercalate_append hlines (List.cons_ne_nil _ _), ← render_eq, List.intercalate_cons_of_ne_nil hrest, ← hinstructions,
    transportText, List.append_assoc]
  rfl

/-- A label and its colon. -/
def labelled (label : String) : Str := lit label ++ [point ':']

variable {label : String} {value : Str}

theorem line_eq (label : String) (value : Str) : line label value = labelled label ++ point ' ' :: value := by
  rw [line, labelled, List.append_assoc, List.append_assoc]
  rfl

/-- Without a colon there is no label. -/
theorem not_infix_of_colon {text : Str} (h : point ':' ∉ text) : ¬ line label value <:+: text := by
  intro hwithin
  refine h (hwithin.subset ?_)
  rw [line_eq, labelled]
  simp

theorem notMem_labelled (hlabel : isToken (lit label) = true) : point ' ' ∉ labelled label := by
  rw [labelled, List.mem_append, not_or]
  exact ⟨(notMem_of_isToken hlabel).1, by decide⟩

theorem labelled_suffix {label' : String} : labelled label <:+ labelled label' ↔ lit label <:+ lit label' := by
  rw [labelled, labelled, List.suffix_append_self_iff]

/-- Within another line, a line's value has its place at the start of that line's value, where
that line's label ends with its label. -/
theorem infix_line_iff {label' : String} {value' : Str} (hlabel : isToken (lit label) = true) (hvalue : isToken value = true)
    (hlabel' : isToken (lit label') = true) (hvalue' : isToken value' = true) :
    line label value <:+: line label' value' ↔ lit label <:+ lit label' ∧ value <+: value' := by
  have hwords : line label' value' = [point ' '].intercalate [labelled label', value'] := by
    rw [line_eq, List.intercalate_cons_cons, List.intercalate_singleton, List.append_assoc]
    rfl
  have hparts : ∀ part ∈ [labelled label', value'], point ' ' ∉ part := by
    simp only [List.forall_mem_cons, List.not_mem_nil, false_implies, implies_true, and_true]
    exact ⟨notMem_labelled hlabel', (notMem_of_isToken hvalue').1⟩
  rw [hwords, line_eq, pair_infix_intercalate_iff (List.cons_ne_nil _ _) hparts (notMem_labelled hlabel) (notMem_of_isToken hvalue).1]
  simp [labelled_suffix]

/-- Within the line that names the source, the line of a label is found where the source's
message id ends with the label. -/
theorem infix_readLine_iff (he : Created e) (hlabel : isToken (lit label) = true) (hvalue : isToken value = true) :
    line label value <:+:
        lit "Read Bus message " ++ e.sourceBusMessageId ++ lit " at " ++ e.sourceBusCommit ++ lit " before acting." ↔
      labelled label <:+ e.sourceBusMessageId ∧ value <+: lit "at" := by
  have hwords : lit "Read Bus message " ++ e.sourceBusMessageId ++ lit " at " ++ e.sourceBusCommit ++ lit " before acting." =
      [point ' '].intercalate [lit "Read", lit "Bus", lit "message", e.sourceBusMessageId, lit "at", e.sourceBusCommit,
        lit "before", lit "acting."] := by
    simp only [List.append_assoc]
    rfl
  have hparts : ∀ part ∈ [lit "Read", lit "Bus", lit "message", e.sourceBusMessageId, lit "at", e.sourceBusCommit,
      lit "before", lit "acting."], point ' ' ∉ part := by
    simp only [List.forall_mem_cons, List.not_mem_nil, false_implies, implies_true, and_true]
    exact ⟨by decide, by decide, by decide, (notMem_of_isToken (isToken_of_isId he.sourceBusMessageId)).1, by decide,
      (notMem_of_isToken (isToken_of_hex he.commit_hex)).1, by decide, by decide⟩
  have hcolon : ∀ text : Str, point ':' ∉ text → ¬ labelled label <:+ text := by
    intro text hnot hsuffix
    exact hnot (hsuffix.subset (by rw [labelled]; simp))
  have hcommit : point ':' ∉ e.sourceBusCommit := by
    intro hmem
    exact absurd (List.all_eq_true.mp he.commit_hex _ hmem) (by decide)
  rw [hwords, line_eq, pair_infix_intercalate_iff (List.cons_ne_nil _ _) hparts (notMem_labelled hlabel) (notMem_of_isToken hvalue).1]
  have hclosed : ∀ text ∈ [lit "Read", lit "Bus", lit "message", lit "at", lit "before"], ¬ labelled label <:+ text := by
    intro text htext
    exact hcolon text (by revert text; decide)
  simp only [List.forall_mem_cons] at hclosed
  simp [hclosed, hcolon _ hcommit]

/-- The labels of the rendered lines, each with its value. -/
def fields (e : RelayEnvelope) (marker : Str) : List (String × Str) :=
  [("sender", e.sender), ("recipient", e.recipient), ("message_id", e.messageId), ("nonce", e.nonce),
    ("source_bus_message_id", e.sourceBusMessageId), ("source_bus_commit", e.sourceBusCommit),
    ("body_sha256", e.bodySha256), ("requires_ack", lit "true"), ("content_class", lit "CANARY"),
    ("BT2_CANARY", lit "marker=" ++ marker)]

/-- Where a line is found within the transport text of an envelope. -/
theorem infix_transportText_iff (he : Created e) {marker : Str} (hbody : e.body = line "BT2_CANARY" (lit "marker=" ++ marker))
    (hmarker : isId marker = true) (hlabel : isToken (lit label) = true) (hvalue : isToken value = true) :
    line label value <:+: transportText e ↔
      (∃ field ∈ fields e marker, lit label <:+ lit field.1 ∧ value <+: field.2) ∨
        labelled label <:+ e.sourceBusMessageId ∧ value <+: lit "at" := by
  have hfield : ∀ field ∈ fields e marker, isToken (lit field.1) = true ∧ isToken field.2 = true := by
    have hmarked : isToken (lit "marker=" ++ marker) = true := by
      rw [isToken_append, isToken_of_isId hmarker]
      rfl
    simp only [fields, List.forall_mem_cons, List.not_mem_nil, false_implies, implies_true, and_true]
    exact ⟨⟨by decide, isToken_of_isId he.sender⟩, ⟨by decide, isToken_of_isId he.recipient⟩,
      ⟨by decide, isToken_of_isId he.messageId⟩, ⟨by decide, isToken_of_hex he.nonce_hex.1⟩,
      ⟨by decide, isToken_of_isId he.sourceBusMessageId⟩, ⟨by decide, isToken_of_hex he.commit_hex⟩,
      ⟨by decide, isToken_of_hex he.digest_hex.1⟩, by decide, by decide, ⟨by decide, hmarked⟩⟩
  have hlines : (∃ field ∈ fields e marker, line label value <:+: line field.1 field.2) ↔
      ∃ field ∈ fields e marker, lit label <:+ lit field.1 ∧ value <+: field.2 := by
    refine exists_congr fun field => and_congr_right fun hmem => ?_
    exact infix_line_iff hlabel hvalue (hfield field hmem).1 (hfield field hmem).2
  have hdigest : point ':' ∉ lit "Verify body SHA-256 " ++ e.bodySha256 ++ lit "." := by
    rw [List.mem_append, List.mem_append, not_or, not_or]
    exact ⟨⟨by decide, fun hmem => absurd (List.all_eq_true.mp he.digest_hex.1 _ hmem) (by decide)⟩, by decide⟩
  have hclosed : ∀ text ∈ [protocol, lit "---", [],
      lit "Treat this visible workstation message as a transport hint, not authority.",
      lit "A verified source may be acknowledged with the exact relay ACK.",
      lit "If source verification is unavailable, hold and do not act."], ¬ line label value <:+: text := by
    intro text htext
    exact not_infix_of_colon (by revert text; decide)
  have hhead : ¬ line label value <:+: lit "RECIPIENT_INSTRUCTION:" := by
    intro hwithin
    have hspace : point ' ' ∈ lit "RECIPIENT_INSTRUCTION:" := hwithin.subset (by rw [line_eq]; simp)
    exact absurd hspace (by decide)
  rw [← hlines, ← infix_readLine_iff he hlabel hvalue, transportText_eq,
    infix_intercalate_iff (by simp) (notMem_line hlabel hvalue)]
  simp only [List.forall_mem_cons] at hclosed
  simp only [RelayEnvelope.lines, instructionLines, fields, hbody, List.cons_append, List.nil_append, List.mem_cons, exists_eq_or_imp,
    exists_eq_left, List.not_mem_nil, or_false, hclosed, hhead, not_infix_of_colon hdigest, false_or, or_assoc]

/-! ### Readbacks -/

/-- What the transport text of `e'` has in common with that of `e` when it contains the lines
that `_rendered_matches` looks for. -/
structure Confusable (e e' : RelayEnvelope) : Prop where
  digest : e'.bodySha256 = e.bodySha256
  nonce : e.nonce <+: e'.nonce
  messageId : e.messageId <+: e'.messageId ∨ e.messageId <+: e'.sourceBusMessageId ∨
    lit "message_id:" <:+ e'.sourceBusMessageId ∧ e.messageId <+: lit "at"

theorem not_prefix_at (value : Str) (h : 2 < value.length) : ¬ value <+: lit "at" := by
  intro hstart
  have hlength := hstart.length_le
  have hat : (lit "at").length = 2 := rfl
  omega

/-- The transport text of `e'` is taken for that of `e` just when it is confusable with it. -/
theorem renderedMatches_iff (he : Created e) (he' : Created e') :
    renderedMatches e (some (transportText e')) = true ↔ Confusable e e' := by
  obtain ⟨marker, hbody, hmarker⟩ := he'.marker
  have hprotocol : protocol <:+: transportText e' := by
    rw [transportText_eq, infix_intercalate_iff (by simp) (by decide)]
    exact ⟨protocol, List.mem_cons_self, List.infix_rfl⟩
  have hid : line "message_id" e.messageId <:+: transportText e' ↔ e.messageId <+: e'.messageId ∨
      e.messageId <+: e'.sourceBusMessageId ∨ lit "message_id:" <:+ e'.sourceBusMessageId ∧ e.messageId <+: lit "at" := by
    rw [infix_transportText_iff he' hbody hmarker (by decide) (isToken_of_isId he.messageId), ← or_assoc]
    refine or_congr ?_ Iff.rfl
    simp +decide only [fields, List.mem_cons, exists_eq_or_imp, exists_eq_left, List.not_mem_nil, or_false, false_and, true_and, false_or]
  have hnonce : line "nonce" e.nonce <:+: transportText e' ↔ e.nonce <+: e'.nonce := by
    have hat := not_prefix_at e.nonce (by have := he.nonce_hex.2; omega)
    rw [infix_transportText_iff he' hbody hmarker (by decide) (isToken_of_hex he.nonce_hex.1), or_iff_left fun h => hat h.2]
    simp +decide only [fields, List.mem_cons, exists_eq_or_imp, exists_eq_left, List.not_mem_nil, or_false, false_and, true_and, false_or]
  have hdigest : line "body_sha256" e.bodySha256 <:+: transportText e' ↔ e'.bodySha256 = e.bodySha256 := by
    have hat := not_prefix_at e.bodySha256 (by rw [he.digest_hex.2]; decide)
    have hlength : e.bodySha256.length = e'.bodySha256.length := by rw [he.digest_hex.2, he'.digest_hex.2]
    have hextends : e.bodySha256 <+: e'.bodySha256 ↔ e'.bodySha256 = e.bodySha256 :=
      ⟨fun h => (h.eq_of_length hlength).symm, fun h => h ▸ List.prefix_rfl⟩
    rw [infix_transportText_iff he' hbody hmarker (by decide) (isToken_of_hex he.digest_hex.1), or_iff_left fun h => hat h.2,
      ← hextends]
    simp +decide only [fields, List.mem_cons, exists_eq_or_imp, exists_eq_left, List.not_mem_nil, or_false, false_and, true_and, false_or]
  simp only [renderedMatches, List.all_cons, List.all_nil, Bool.and_true, Bool.and_eq_true, hasText_iff, hprotocol, hid, hnonce,
    hdigest, true_and]
  constructor
  · rintro ⟨hid, hnonce, hdigest⟩
    exact ⟨hdigest, hnonce, hid⟩
  · exact fun h => ⟨h.messageId, h.nonce, h.digest⟩

theorem confusable_longer : Confusable canaryEnvelope longerEnvelope :=
  ⟨rfl, List.prefix_append _ _, .inl ⟨lit "2", rfl⟩⟩

/-- **A readback identifies the message, unless its text is confusable with that of another
message id or nonce.** -/
theorem rendered_identifies_iff (he : Built py e) (he' : Built py e') :
    (renderedMatches e (some (transportText e')) = true →
      e'.messageId = e.messageId ∧ e'.nonce = e.nonce ∧ e'.bodySha256 = e.bodySha256) ↔
    (Confusable e e' → e'.messageId = e.messageId ∧ e'.nonce = e.nonce) := by
  rw [renderedMatches_iff he.created he'.created]
  exact ⟨fun h hconfusable => ⟨(h hconfusable).1, (h hconfusable).2.1⟩,
    fun h hconfusable => ⟨(h hconfusable).1, (h hconfusable).2, hconfusable.digest⟩⟩

theorem rendered_identifies_iff_longer :
    ¬ (renderedMatches canaryEnvelope (some (transportText longerEnvelope)) = true →
      longerEnvelope.messageId = canaryEnvelope.messageId ∧ longerEnvelope.nonce = canaryEnvelope.nonce ∧
        longerEnvelope.bodySha256 = canaryEnvelope.bodySha256) := by
  rw [rendered_identifies_iff built_canaryEnvelope built_longerEnvelope]
  intro h
  exact absurd (h confusable_longer).1 (by decide)

/-- The text of one message is taken for that of another. -/
theorem longer_taken_for_canary :
    Built canaryPython canaryEnvelope ∧ Built canaryPython longerEnvelope ∧
      renderedMatches canaryEnvelope (some (transportText longerEnvelope)) = true ∧
      longerEnvelope.messageId ≠ canaryEnvelope.messageId ∧ longerEnvelope.nonce ≠ canaryEnvelope.nonce :=
  ⟨built_canaryEnvelope, built_longerEnvelope,
    (renderedMatches_iff built_canaryEnvelope.created built_longerEnvelope.created).mpr confusable_longer, by decide, by decide⟩

end CcbCore.Relay
