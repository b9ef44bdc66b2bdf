import CcbCore.Append.Linear
import CcbCore.Edge.Names
import CcbCore.Lane.Extending
import CcbCore.Message.Mirror

/-!
# What the appender admits, and what the lane's readers accept

`append_bus_message_v1` checks of a message its id, its writer and its predecessor; `validate_active_writer_range` and
`collect_projection_files`, which read the lane after it, check more. Whatever appenders do to a lane whose range is
accepted, the range goes on being accepted exactly as long as each appended message has the values that the strict
grammar reads (`ValuesRead`), is within the size limit, and has an id that is new when case is folded, among the ids
that the readers know (`appended_taken_iff`). Everything else that they check, the appender has seen to: the path and
the single added file, the one parent, the header block, the writer, and the namespace of the id.
-/

namespace CcbCore.Append

open CcbCore.Python CcbCore.Git CcbCore.Message CcbCore.Raising
open CcbCore.Lane (Topology WriterLane ProjectionFile Acceptable AddsMessage messageIdsAtCommit historicalMessageIds
  validateCommitPaths validateActiveWriterRange collectProjectionFiles isMessagePath maxFileBytes)

variable {runtime : Runtime} {text : List Char} {headers : Headers} {parsed : ParsedMessage} {content : Bytes}

/-! ### Reading -/

theorem givenHeader_eq (headers : Headers) (key : String) :
    givenHeader headers key = (Headers.given headers key).map String.ofList := by
  rw [givenHeader, Headers.given]
  cases headers.lookup key with
  | none => rfl
  | some value => cases value <;> rfl

/-- What the appender parsed. -/
theorem parseMessage_ok (h : parseMessage text = .ok parsed) : ∃ headers, metadataHeaders text = .ok headers ∧
    (∃ id, Headers.given headers "message_id" = some id ∧ parsed.messageId = String.ofList id) ∧
    ∃ writer, Headers.given headers "writer" = some writer ∧ parsed.writer = String.ofList writer := by
  rw [parseMessage] at h
  cases hread : metadataHeaders text with
  | error e =>
    rw [hread] at h
    cases h
  | ok headers =>
    rw [hread] at h
    simp only [givenHeader_eq] at h
    cases hid : Headers.given headers "message_id" with
    | none =>
      rw [hid] at h
      cases h
    | some id =>
      cases hwriter : Headers.given headers "writer" with
      | none =>
        rw [hid, hwriter] at h
        cases h
      | some writer =>
        rw [hid, hwriter] at h
        cases h
        exact ⟨headers, rfl, ⟨id, hid, rfl⟩, writer, hwriter, rfl⟩

/-- A text of which the appender reads an id is split by the grammar, with the same headers but for keys that begin
with `_`. -/
theorem split_of_metadataHeaders (hread : metadataHeaders text = .ok headers)
    (hid : (headers.lookup "message_id").isSome = true) :
    ∃ headers' body, splitDocument text = .ok (headers', body) ∧ Within headers headers' := by
  by_cases hopener : ∀ line ∈ ((splitlines text).dropWhile fun line => isBlank line.text).head?, strip line.text ≠ ['-', '-', '-']
  · obtain ⟨⟨e, herror⟩, -⟩ | ⟨headers', body, hread', hsplit⟩ := (block_mirror hopener).cases
    · rw [hread] at herror
      cases herror
    · obtain rfl := Except.ok.inj (hread.symm.trans hread')
      exact ⟨headers, body, hsplit, fun _ => id, fun _ _ => rfl⟩
  · obtain ⟨headers', rest, hsplit, hwithin⟩ := split_of_frontmatter hopener hread hid
    exact ⟨headers', _, except_map_ok.mpr ⟨(headers', rest), hsplit, rfl⟩, hwithin⟩

theorem valuesRead_iff {headers' : Headers} (h : Within headers headers') : ValuesRead runtime headers' ↔ ValuesRead runtime headers := by
  have hsame : ∀ key ∈ ["created_at", "requires_reply", "requires_ack", "intended_recipient", "intended_recipients"],
      headers'.lookup key = headers.lookup key := by
    intro key hkey
    refine h.same key ?_
    revert key
    decide
  have hgiven : Headers.given headers' "created_at" = Headers.given headers "created_at" := by
    rw [Headers.given, Headers.given, hsame _ (by simp)]
  constructor
  · rintro ⟨hcreated, hreply, hack, hintended⟩
    rw [hgiven] at hcreated
    rw [hsame _ (by simp)] at hreply hack
    rw [hsame "intended_recipient" (by simp), hsame "intended_recipients" (by simp)] at hintended
    exact ⟨hcreated, hreply, hack, hintended⟩
  · rintro ⟨hcreated, hreply, hack, hintended⟩
    rw [← hgiven] at hcreated
    rw [← hsame _ (by simp)] at hreply hack
    rw [← hsame "intended_recipient" (by simp), ← hsame "intended_recipients" (by simp)] at hintended
    exact ⟨hcreated, hreply, hack, hintended⟩

/-- The values of the message's headers have their forms. -/
def WellValued (runtime : Runtime) (content : Bytes) : Prop :=
  ∃ text headers, decode content = some text ∧ metadataHeaders text = .ok headers ∧ ValuesRead runtime headers

/-- **What the appender reads, the strict grammar reads when its values have their forms, and it reads the same id and
writer.** -/
theorem strict_of_announced (runtime : Runtime) (h : announced content = some parsed) :
    ((∃ document, parseBusDocument runtime content "" .strict = .ok document) ↔ WellValued runtime content) ∧
      ∀ document, parseBusDocument runtime content "" .strict = .ok document →
        document.messageId = parsed.messageId ∧ document.writer = parsed.writer := by
  obtain ⟨text, hdecode, hparse⟩ := Option.bind_eq_some_iff.mp h
  replace hparse : parseMessage text = .ok parsed := by
    cases hresult : parseMessage text with
    | error e => rw [hresult] at hparse; cases hparse
    | ok parsed' => rw [hresult] at hparse; exact congrArg Except.ok (Option.some.inj hparse)
  obtain ⟨headers, hread, ⟨id, hid, hidText⟩, writer, hwriter, hwriterText⟩ := parseMessage_ok hparse
  have hlookup : (headers.lookup "message_id").isSome = true := by
    rw [(Option.filter_eq_some_iff.mp hid).1]
    rfl
  obtain ⟨headers', body, hsplit, hwithin⟩ := split_of_metadataHeaders hread hlookup
  have hsame : ∀ key : String, key.toList.head? ≠ some '_' → Headers.given headers' key = Headers.given headers key := by
    intro key hkey
    rw [Headers.given, Headers.given, hwithin.same key hkey]
  have hid' := (hsame "message_id" (by decide)).trans hid
  have hwriter' := (hsame "writer" (by decide)).trans hwriter
  have hdocument : parseBusDocument runtime content "" .strict = parseBusText runtime content text .strict := by
    rw [parseBusDocument, hdecode]
  rw [hdocument]
  refine ⟨?_, fun document hparsed => ?_⟩
  · rw [exists_parseBusText_iff]
    constructor
    · rintro ⟨headers₁, body₁, hsplit₁, -, -, hvalues⟩
      obtain rfl := (Prod.mk.inj (Except.ok.inj (hsplit.symm.trans hsplit₁))).1
      exact ⟨text, headers, hdecode, hread, (valuesRead_iff hwithin).mp hvalues⟩
    · rintro ⟨text₁, headers₁, hdecode₁, hread₁, hvalues⟩
      obtain rfl := Option.some.inj (hdecode.symm.trans hdecode₁)
      obtain rfl := Except.ok.inj (hread.symm.trans hread₁)
      exact ⟨headers', body, hsplit, ⟨id, hid'⟩, ⟨writer, hwriter'⟩, (valuesRead_iff hwithin).mpr hvalues⟩
  · obtain ⟨headers₁, body₁, hsplit₁, hfrom⟩ := parseBusText_ok hparsed
    obtain rfl := (Prod.mk.inj (Except.ok.inj (hsplit.symm.trans hsplit₁))).1
    obtain ⟨id₁, hid₁, hidText₁⟩ := hfrom.messageId
    obtain ⟨writer₁, hwriter₁, hwriterText₁⟩ := hfrom.writer
    obtain rfl := Option.some.inj (hid'.symm.trans hid₁)
    obtain rfl := Option.some.inj (hwriter'.symm.trans hwriter₁)
    exact ⟨hidText₁.trans hidText.symm, hwriterText₁.trans hwriterText.symm⟩

/-! ### Admission -/

variable {objects : Objects String} {root head parent identity writer : String} {entries : List Entry} {entry : Entry}
  {lane : WriterLane} {reserved ids : List String}

/-- What the appender has checked of an entry of the identity's lane. -/
structure Admitted (runtime : Runtime) (identity writer : String) (entry : Entry) : Prop where
  valid : validateMessageId identity entry.messageId = .ok ()
  announced : ∃ asserted, announced entry.content = some ⟨entry.messageId, asserted, entry.prevMessageId⟩ ∧
    runtime.casefold asserted = runtime.casefold writer

/-- The id of an entry as the lane's readers compare it. -/
def Entry.folded (runtime : Runtime) (entry : Entry) : String := runtime.casefold entry.messageId

theorem validateMessageId_ok {messageId : String} (h : validateMessageId identity messageId = .ok ()) :
    isMessageId messageId.toList = true ∧ identity.toList ++ ['-'] <+: messageId.toList := by
  rw [validateMessageId] at h
  split at h
  · cases h
  · next hid =>
    split at h
    · cases h
    · next hlocal => exact ⟨not_not.mp hid, List.isPrefixOf_iff_prefix.mp (not_not.mp hlocal)⟩

/-- The id of a message of a lane begins, folded, with the lane's identity. -/
theorem namespaced_of_valid {messageId : String} (h : validateMessageId identity messageId = .ok ()) :
    startsWith (runtime.casefold messageId) (runtime.casefold identity ++ "-") = true := by
  obtain ⟨hid, rest, hrest⟩ := validateMessageId_ok h
  have hascii : ∀ c ∈ messageId.toList, c.toNat < 0x80 := fun c hc =>
    Edge.ascii_of_isSegmentChar (Edge.isSegmentChar_of_isMessageId hid hc)
  have hascii' : ∀ c ∈ identity.toList, c.toNat < 0x80 := fun c hc => hascii c (by rw [← hrest]; simp [hc])
  have hlower : ∀ text : String, (lower text).toList = text.toList.map lowerChar := fun text => String.toList_ofList
  have hhyphen : ['-'].map lowerChar = "-".toList := by decide
  rw [runtime.casefold_ascii _ hascii, runtime.casefold_ascii _ hascii', startsWith, List.isPrefixOf_iff_prefix,
    String.toList_append, hlower, hlower, ← hrest, List.map_append, List.map_append, hhyphen]
  exact List.prefix_append _ _

/-- **The writer of the lane may add an entry that the appender admits when its values have their forms.** -/
theorem Admitted.acceptable_iff (h : Admitted runtime lane.identity lane.writer entry) :
    ((∃ parsed, Acceptable runtime lane entry.content parsed) ↔ WellValued runtime entry.content) ∧
      ∀ parsed, Acceptable runtime lane entry.content parsed → parsed.messageId = entry.messageId := by
  obtain ⟨asserted, hannounced, hwriter⟩ := h.announced
  obtain ⟨hstrict, hsame⟩ := strict_of_announced runtime hannounced
  refine ⟨?_, fun parsed hacceptable => (hsame parsed hacceptable.strict).1⟩
  rw [← hstrict]
  refine ⟨fun ⟨parsed, hacceptable⟩ => ⟨parsed, hacceptable.strict⟩, fun ⟨parsed, hparsed⟩ => ⟨parsed, hparsed, ?_, ?_⟩⟩
  · rw [(hsame parsed hparsed).2, hwriter]
  · rw [(hsame parsed hparsed).1]
    exact namespaced_of_valid h.valid

/-! ### A commit -/

/-- A character that git prints as it is. -/
theorem utf8EncodeChar_segment {c : Char} (h : Edge.isSegmentChar c = true ∨ c = '/') :
    ∀ byte ∈ String.utf8EncodeChar c, escapes byte = false := by
  have hascii : c.toNat < 128 := h.elim Edge.ascii_of_isSegmentChar fun hc => hc ▸ by decide
  have hall : (String.utf8EncodeChar c).all (fun byte => !escapes byte) = true :=
    ascii_forall (P := fun c => Edge.isSegmentChar c = true ∨ c = '/' → (String.utf8EncodeChar c).all (fun byte => !escapes byte) = true)
      (by decide +kernel) hascii h
  simpa using hall

theorem Entry.segment_path (hid : isMessageId entry.messageId.toList = true) :
    ∀ c ∈ entry.path.toList, Edge.isSegmentChar c = true ∨ c = '/' := by
  intro c hc
  rw [Entry.path, String.toList_append, String.toList_append, List.mem_append, List.mem_append] at hc
  have hends : ("messages/".toList ++ ".md".toList).all (fun c => Edge.isSegmentChar c || c == '/') = true := by decide +kernel
  have hend : ∀ c ∈ "messages/".toList ++ ".md".toList, Edge.isSegmentChar c = true ∨ c = '/' := by
    simpa only [List.all_eq_true, Bool.or_eq_true, beq_iff_eq] using hends
  rcases hc with (hc | hc) | hc
  · exact hend c (List.mem_append_left _ hc)
  · exact .inl (Edge.isSegmentChar_of_isMessageId hid hc)
  · exact hend c (List.mem_append_right _ hc)

/-- The commit of an entry that the appender admits adds a message. -/
theorem Adds.addsMessage (h : Adds objects parent entry) (hadmitted : Admitted runtime identity writer entry) :
    AddsMessage objects parent entry.commitSha entry.path entry.content := by
  obtain ⟨hid, -⟩ := validateMessageId_ok hadmitted.valid
  refine ⟨h.parents, ?_, ?_, h.tree⟩
  · rw [isMessagePath, startsWith, endsWith, Entry.path, String.toList_append, String.toList_append, Bool.and_eq_true,
      List.isPrefixOf_iff_prefix, List.isSuffixOf_iff_suffix, List.append_assoc]
    exact ⟨List.prefix_append .., (List.suffix_append ..).trans (List.suffix_append ..)⟩
  · rw [isQuoted, ← Bool.not_eq_true, List.any_eq_true]
    rintro ⟨byte, hbyte, hescapes⟩
    have hbytes : (FileName.bytes (FileName.ofText entry.path : String)).data.toList = entry.path.toList.flatMap String.utf8EncodeChar :=
      CcbCore.Lane.nameBytes_ofText entry.path
    rw [hbytes] at hbyte
    obtain ⟨c, hc, hbyte⟩ := List.mem_flatMap.mp hbyte
    rw [utf8EncodeChar_segment (Entry.segment_path hid c hc) byte hbyte] at hescapes
    cases hescapes

/-! ### A lane -/

theorem Lane.line (h : Lane objects root head entries) : objects.graph.Line root (entries.map Entry.commitSha) head := by
  induction h with
  | root => exact .nil
  | append _ hadds ih =>
    rw [List.map_append, List.map_singleton]
    exact ih.snoc hadds.parents

theorem Lane.head_eq (h : Lane objects root head []) : head = root := by
  generalize hnil : ([] : List Entry) = entries at h
  cases h with
  | root => rfl
  | append => simp at hnil

/-- After entries with well-formed values, the ids are those from before and the entries'. -/
theorem ids_of_lane (h : Lane objects root head entries) (hadmitted : ∀ entry ∈ entries, Admitted runtime lane.identity lane.writer entry)
    (hvalues : ∀ entry ∈ entries, WellValued runtime entry.content) (hids : messageIdsAtCommit runtime objects root = .ok ids) :
    ∃ ids', messageIdsAtCommit runtime objects head = .ok ids' ∧
      ∀ id, id ∈ ids' ↔ id ∈ ids ∨ id ∈ entries.map (Entry.folded runtime) := by
  induction h with
  | root => exact ⟨ids, hids, by simp⟩
  | @append head entries entry _ hadds ih =>
    simp only [List.forall_mem_append, List.forall_mem_singleton] at hadmitted hvalues
    obtain ⟨ids', hids', hmem⟩ := ih hadmitted.1 hvalues.1
    obtain ⟨hacceptable, hsame⟩ := hadmitted.2.acceptable_iff
    obtain ⟨parsed, hparsed⟩ := hacceptable.mpr hvalues.2
    obtain ⟨ids'', hids'', hmem'⟩ := CcbCore.Lane.ids_of_addsMessage (hadds.addsMessage hadmitted.2) hparsed.strict hids'
    refine ⟨ids'', hids'', fun id => ?_⟩
    rw [hmem', hmem, hsame parsed hparsed, List.map_append, List.mem_append, List.map_singleton, List.mem_singleton, or_assoc]
    rfl

/-- **The commits of admitted entries are accepted one after another when their values have their forms, and their
folded ids are new.** -/
theorem lane_validated_iff (h : Lane objects root head entries)
    (hadmitted : ∀ entry ∈ entries, Admitted runtime lane.identity lane.writer entry)
    (hids : messageIdsAtCommit runtime objects root = .ok ids) :
    (∀ c ∈ entries.map Entry.commitSha, validateCommitPaths runtime objects lane reserved c = .ok ()) ↔
      (entries.map (Entry.folded runtime)).Nodup ∧
        ∀ entry ∈ entries, WellValued runtime entry.content ∧ entry.folded runtime ∉ reserved ++ ids := by
  induction h with
  | root => simp
  | @append head entries entry hlane hadds ih =>
    simp only [List.forall_mem_append, List.forall_mem_singleton, List.map_append, List.map_singleton] at hadmitted ⊢
    rw [ih hadmitted.1, (hadds.addsMessage hadmitted.2).validateCommitPaths_iff]
    obtain ⟨hacceptable, hsame⟩ := hadmitted.2.acceptable_iff
    have hnodup : (entries.map (Entry.folded runtime) ++ [entry.folded runtime]).Nodup ↔
        (entries.map (Entry.folded runtime)).Nodup ∧ entry.folded runtime ∉ entries.map (Entry.folded runtime) := by
      rw [← List.concat_eq_append, List.nodup_concat, and_comm]
    rw [hnodup]
    constructor
    · rintro ⟨⟨hfirst, hvalues⟩, ids', parsed, hids', hparsed, hnew⟩
      obtain ⟨ids'', hids'', hmem⟩ := ids_of_lane hlane hadmitted.1 (fun entry hentry => (hvalues entry hentry).1) hids
      obtain rfl := Except.ok.inj (hids'.symm.trans hids'')
      rw [hsame parsed hparsed, List.mem_append, hmem, not_or, not_or] at hnew
      refine ⟨⟨hfirst, hnew.2.2⟩, hvalues, hacceptable.mp ⟨parsed, hparsed⟩, ?_⟩
      rw [List.mem_append, not_or]
      exact ⟨hnew.1, hnew.2.1⟩
    · rintro ⟨⟨hfirst, hlast⟩, hvalues, hvalue, hnew⟩
      obtain ⟨ids', hids', hmem⟩ := ids_of_lane hlane hadmitted.1 (fun entry hentry => (hvalues entry hentry).1) hids
      obtain ⟨parsed, hparsed⟩ := hacceptable.mpr hvalue
      refine ⟨⟨hfirst, hvalues⟩, ids', parsed, hids', hparsed, ?_⟩
      rw [List.mem_append, not_or] at hnew ⊢
      rw [hsame parsed hparsed, hmem, not_or]
      exact ⟨hnew.1, hnew.2, hlast⟩

/-! ### A range -/

variable {topology : Topology} {cutover : Option Json} {base head' : String} {commits : List String} {files : List ProjectionFile}
  {added : List Entry}

/-- What the lane's readers ask of entries beyond what the appender has checked. -/
structure Continues (runtime : Runtime) (objects : Objects String) (cutover : Option Json) (identity head : String)
    (added : List Entry) : Prop where
  fresh : ∃ reserved ids, historicalMessageIds runtime objects cutover identity = .ok reserved ∧
    messageIdsAtCommit runtime objects head = .ok ids ∧ ∀ entry ∈ added, entry.folded runtime ∉ reserved ++ ids
  distinct : (added.map (Entry.folded runtime)).Nodup
  valued : ∀ entry ∈ added, WellValued runtime entry.content
  small : ∀ entry ∈ added, entry.content.size ≤ maxFileBytes

/-- Where the first of a lane's commits is accepted, the ids of the root are read. -/
theorem ids_of_validated (h : Lane objects root head entries)
    (hadmitted : ∀ entry ∈ entries, Admitted runtime lane.identity lane.writer entry) (hne : entries ≠ [])
    (hvalid : ∀ c ∈ entries.map Entry.commitSha, validateCommitPaths runtime objects lane reserved c = .ok ()) :
    ∃ ids, messageIdsAtCommit runtime objects root = .ok ids := by
  induction h with
  | root => exact absurd rfl hne
  | @append head entries entry hlane hadds ih =>
    simp only [List.forall_mem_append, List.forall_mem_singleton, List.map_append, List.map_singleton] at hadmitted hvalid
    by_cases hnil : entries = []
    · subst hnil
      obtain ⟨ids, -, hids, -⟩ := (hadds.addsMessage hadmitted.2).validateCommitPaths_iff.mp hvalid.2
      exact ⟨ids, hlane.head_eq ▸ hids⟩
    · exact ih hadmitted.1 hnil hvalid.1

/-- **A range that is accepted and collected stays so with admitted entries when they continue it.** -/
theorem lane_taken_iff (hlane : topology.active.lookup identity = some lane)
    (hvalid : validateActiveWriterRange runtime objects topology cutover identity base head = .ok commits)
    (hfiles : collectProjectionFiles objects commits = .ok files) (hknown : objects.graph.Known head')
    (h : Lane objects head head' added) (hadmitted : ∀ entry ∈ added, Admitted runtime lane.identity lane.writer entry) :
    (∃ commits' files', validateActiveWriterRange runtime objects topology cutover identity base head' = .ok commits' ∧
      collectProjectionFiles objects commits' = .ok files') ↔ added = [] ∨ Continues runtime objects cutover identity head added := by
  by_cases hnil : added = []
  · subst hnil
    obtain rfl := h.head_eq
    exact iff_of_true ⟨commits, files, hvalid, hfiles⟩ (.inl rfl)
  rw [or_iff_right hnil, CcbCore.Lane.taken_append hlane hvalid hfiles hknown h.line (by simpa using hnil)]
  have hsmall : (∀ c ∈ added.map Entry.commitSha, CcbCore.Lane.AddsSmall objects c) ↔ ∀ entry ∈ added, entry.content.size ≤ maxFileBytes := by
    have hall : ∀ entry ∈ added, CcbCore.Lane.AddsSmall objects entry.commitSha ↔ entry.content.size ≤ maxFileBytes := by
      clear hnil hknown
      induction h with
      | root => exact nofun
      | append _ hadds ih =>
        simp only [List.forall_mem_append, List.forall_mem_singleton] at hadmitted ⊢
        exact ⟨ih hadmitted.1, (hadds.addsMessage hadmitted.2).addsSmall_iff⟩
    rw [List.forall_mem_map]
    exact forall₂_congr hall
  rw [hsmall]
  constructor
  · rintro ⟨⟨reserved, hreserved, hall⟩, hsize⟩
    obtain ⟨ids, hids⟩ := ids_of_validated h hadmitted hnil hall
    obtain ⟨hdistinct, hvalues⟩ := (lane_validated_iff h hadmitted hids).mp hall
    exact ⟨⟨reserved, ids, hreserved, hids, fun entry hentry => (hvalues entry hentry).2⟩, hdistinct,
      fun entry hentry => (hvalues entry hentry).1, hsize⟩
  · rintro ⟨⟨reserved, ids, hreserved, hids, hfresh⟩, hdistinct, hvalued, hsize⟩
    exact ⟨⟨reserved, hreserved, (lane_validated_iff h hadmitted hids).mpr
      ⟨hdistinct, fun entry hentry => ⟨hvalued entry hentry, hfresh entry hentry⟩⟩⟩, hsize⟩

/-! ### Appends -/

variable {site : Site} {repo repo' : Repo} {arguments : Arguments} {history : IdentityHistory}

/-- The backend of the appends to a lane, whose control binds the identity to a writer. -/
def Registered (runtime : Runtime) (site : Site) (writer : String) : Environment Sources Exc Repo := fun op repo reply repo' =>
  Backend site op repo reply repo' ∧
    match op, reply with
    | .readControl, .ok control =>
      ∀ binding, control.lanes site.identity = some binding → runtime.casefold binding.writer = runtime.casefold writer
    | _, _ => True

/-- What a call of an append does: as it promises, and of an entry that the appender admits. -/
structure Pledge (runtime : Runtime) (site : Site) (writer : String) (arguments : Arguments) (repo repo' : Repo) : Prop
    extends Promise site arguments repo repo' where
  admitted : repo'.head ≠ repo.head → ∀ entry, entry.commitSha = repo'.head → Adds repo'.toObjects repo.head entry →
    Admitted runtime site.identity writer entry

theorem pledge_passive {op : Op} {reply : Except Exc op.Reply} (hop : IsPassive op)
    (h : Registered runtime site writer op repo reply repo') :
    Backend site op repo reply repo' ∧ Pledge runtime site writer arguments repo repo' := by
  obtain ⟨hext, hhead, -⟩ := backend_passive hop h.1
  exact ⟨h.1, .of_head hext hhead, fun hne => absurd hhead hne⟩

/-- The judgement of programs that append admitted messages. -/
abbrev Pledges {α : Type} (runtime : Runtime) (site : Site) (writer : String) (arguments : Arguments) (P : Repo → Prop)
    (p : Program α) (R : α → Repo → Prop) : Prop :=
  Secures (Registered runtime site writer) (Grows site) (Pledge runtime site writer arguments) P p R

/-- A program without an update pledges what it promises. -/
theorem pledges_of_appends {α : Type} {P : Repo → Prop} {p : Program α} {R : α → Repo → Prop} (hp : p.Only IsPassive)
    (h : Appends site arguments P p R) : Pledges runtime site writer arguments P p R :=
  h.strengthen hp fun _ _ _ _ hop hcall => pledge_passive hop hcall

theorem pledges_passive {α : Type} {P : Repo → Prop} {p : Program α} (h : p.Only IsPassive) :
    Pledges runtime site writer arguments P p fun _ _ => True := pledges_of_appends h (appends_passive h)

theorem only_observeHead (branch : String) : (observeHead branch).Only IsPassive := by
  refine Prog.Only.bind (only_askOr trivial) fun observed => ?_
  cases observed <;> trivial

theorem only_readHistory (identity : String) : (readHistory identity).Only IsPassive :=
  Prog.Only.bind (only_askOr trivial) fun _ => Prog.Only.bind (only_refuseIf _ _) fun _ => trivial

theorem only_buildCandidate (control : ControlSnapshot) (envelope : Envelope) (history : IdentityHistory) (observedHead : String) :
    (buildCandidate control envelope history observedHead).Only IsPassive :=
  Prog.Only.bind (only_refuseIf _ _) fun _ => Prog.Only.bind (only_lift _) fun _ => Prog.Only.bind (only_askOr trivial) fun _ =>
    Prog.Only.bind (only_refuseIf _ _) fun _ => Prog.Only.bind (only_askOr trivial) fun _ =>
      Prog.Only.bind (only_askOr trivial) fun _ => Prog.Only.bind (only_askOr trivial) fun _ =>
        Prog.Only.bind (only_askOr trivial) fun _ => Prog.Only.bind (only_refuseIf _ _) fun _ => trivial

/-- The ref moves, if it does, as pledged. -/
theorem pledges_moveRefOrReconcile {branch candidateSha : String} {envelope : Envelope}
    (hexpected : envelope.expectedHead = lower arguments.expectedLaneHead)
    (hvalid : validatePredecessor history envelope.parsed = .ok ()) (hdup : duplicates history envelope = [])
    (hadmitted : Admitted runtime site.identity writer (envelope.entry candidateSha)) :
    Pledges runtime site writer arguments
      (fun repo => Seen site history envelope.expectedHead repo ∧
        Adds repo.toObjects envelope.expectedHead (envelope.entry candidateSha))
      (moveRefOrReconcile branch candidateSha envelope.expectedHead) fun _ _ => True := by
  refine Secures.call (T := fun _ _ => True) (Seen.stable.and (stable_objects fun _ _ => Adds.mono)) ?_ fun update => ?_
  · rintro repo reply repo' ⟨hseen, hadds⟩ ⟨hcall, -⟩
    have hpromise : Promise site arguments repo repo' := promise_update hexpected hvalid hdup hseen hadds hcall
    refine ⟨⟨hpromise, fun hne entry hcommit hentry => ?_⟩, trivial⟩
    have hhead : repo'.head = candidateSha := by
      obtain ⟨-, hcall⟩ := hcall
      cases reply with
      | error exc => exact (hcall.resolve_left hne).2.2
      | ok moved =>
        cases moved with
        | true => exact (hcall.resolve_right fun h => hne h.2).2.2
        | false => exact absurd hcall.1 hne
    have hparent : repo.head = envelope.expectedHead := (hpromise.moves hne).1.trans hexpected.symm
    rw [hparent] at hentry
    rwa [hentry.unique (hadds.mono hpromise.extends_objects) (hcommit.trans hhead)]
  · refine pledges_passive (Prog.Only.bind (only_askOr trivial) fun head => ?_)
    cases update with
    | error exc => exact only_reconcileUpdate
    | ok moved => exact only_lift _

theorem pledges_appendEnvelope {envelope : Envelope} (hidentity : envelope.identity = site.identity)
    (hexpected : envelope.expectedHead = lower arguments.expectedLaneHead)
    (hann : announced envelope.messageBytes = some envelope.parsed)
    (hvalid : validateMessageId site.identity envelope.parsed.messageId = .ok ()) :
    Pledges runtime site writer arguments (fun _ => True) (appendEnvelope runtime envelope) fun _ _ => True := by
  refine Secures.bind (R := fun control _ => ∀ binding, control.lanes envelope.identity = some binding →
    binding.branch = site.branch ∧ runtime.casefold binding.writer = runtime.casefold writer)
    (Secures.askOr (Stable.const True) ?_) fun control => ?_
  · intro repo reply repo' _ hcall
    have hpassive : IsPassive .readControl := trivial
    obtain ⟨hbackend, hpledge⟩ := pledge_passive hpassive hcall
    refine ⟨hpledge, fun control hcontrol binding hbinding => ?_⟩
    subst hcontrol
    rw [hidentity] at hbinding
    exact ⟨hbackend.2.2 binding hbinding, hcall.2 binding hbinding⟩
  refine Secures.bind (Secures.lift _) fun binding => Secures.assume fun hbinding => ?_
  refine Secures.weaken (P := fun _ => True ∧ (binding.branch = site.branch ∧ runtime.casefold binding.writer = runtime.casefold writer))
    (Secures.assume fun ⟨hbranch, hwriter⟩ => ?_) fun repo hcontrol => ⟨trivial, hcontrol binding (lane_of_requireBinding hbinding)⟩
  have hadmitted : ∀ candidateSha, Admitted runtime site.identity writer (envelope.entry candidateSha) := fun candidateSha =>
    ⟨hvalid, envelope.parsed.writer, hann, (writer_of_requireBinding hbinding).2.trans hwriter⟩
  refine Secures.bind (pledges_of_appends (only_observeHead _) (appends_observeHead hbranch)) fun observedHead => ?_
  refine Secures.bind (pledges_of_appends (only_readHistory _) (appends_readHistory hidentity)) fun history => ?_
  split
  · next hdup =>
    refine Secures.bind (pledges_of_appends (only_buildCandidate ..) (appends_buildCandidate hann))
      fun (blobSha, treeSha, candidateSha) => Secures.assume fun hpredecessor => ?_
    exact Secures.bind (pledges_moveRefOrReconcile hexpected hpredecessor hdup (hadmitted candidateSha)) fun _ =>
      pledges_passive (only_verifyNewAppend ..)
  · split
    · exact Secures.throw _
    · exact pledges_passive (only_reconstructExisting ..)
  · exact Secures.throw _

/-- An append to the lane keeps its pledge. -/
theorem pledges_appendBusMessageV1 :
    Pledges runtime site writer arguments (fun _ => True)
      (appendBusMessageV1 runtime site.identity arguments.expectedLaneHead arguments.message) fun _ _ => True := by
  refine Secures.bind (Secures.lift _) fun envelope => Secures.assume fun hopen => ?_
  obtain ⟨-, -, hidentity, hexpected, -, hvalid⟩ := openEnvelope_ok hopen
  exact pledges_appendEnvelope hidentity hexpected (announced_of_openEnvelope hopen) hvalid

/-! ### Every run -/

variable {ι : Type} [DecidableEq ι] {w w' : World ι} {es : List (PoolEvent ι Arguments)}

/-- A step of appenders to one lane that is registered to a writer. -/
abbrev RegisteredStep (runtime : Runtime) (site : Site) (writer : String) : World ι → PoolEvent ι Arguments → World ι → Prop :=
  PoolStep (Registered runtime site writer) Others fun arguments =>
    appendBusMessageV1 runtime site.identity arguments.expectedLaneHead arguments.message

/-- The lane is prolonged by admitted entries. -/
def Prolongs (runtime : Runtime) (site : Site) (writer : String) (repo repo' : Repo) : Prop :=
  repo.toObjects.Extends repo'.toObjects ∧ ∃ added, Lane repo'.toObjects repo.head repo'.head added ∧
    ∀ entry ∈ added, Admitted runtime site.identity writer entry

theorem Prolongs.of_head (h : repo.toObjects.Extends repo'.toObjects) (hhead : repo'.head = repo.head) :
    Prolongs runtime site writer repo repo' := ⟨h, [], hhead ▸ .root, nofun⟩

theorem Prolongs.pledge {repo'' : Repo} (h : Prolongs runtime site writer repo repo')
    (hpledge : Pledge runtime site writer arguments repo' repo'') : Prolongs runtime site writer repo repo'' := by
  obtain ⟨hext, added, hlane, hadmitted⟩ := h
  refine ⟨hext.trans hpledge.extends_objects, ?_⟩
  by_cases hhead : repo''.head = repo'.head
  · exact ⟨added, hhead ▸ hlane.mono hpledge.extends_objects, hadmitted⟩
  · obtain ⟨-, entry, hcommit, hadds⟩ := hpledge.moves hhead
    refine ⟨added ++ [entry], hcommit ▸ (hlane.mono hpledge.extends_objects).append hadds, ?_⟩
    simp only [List.forall_mem_append, List.forall_mem_singleton]
    exact ⟨hadmitted, hpledge.admitted hhead entry hcommit hadds⟩

/-- Appenders prolong the lane by admitted entries. -/
theorem prolongs_run (hidle : ∀ i, ∃ result, w.program i = .done result) (hrun : Run (RegisteredStep runtime site writer) w es w') :
    Prolongs runtime site writer w.state w'.state := by
  induction hrun with
  | nil => exact .of_head (.refl _) rfl
  | snoc hprefix hstep ih =>
    have hpromise : ∀ arguments repo repo', Pledge runtime site writer arguments repo repo' → Grows site repo repo' :=
      fun _ _ _ h => h.toGrows
    obtain ⟨hsecured, -⟩ := pool_run Grows.refl (fun _ _ _ => Grows.trans) hpromise (fun _ _ h => Grows.of_head h.1 h.2)
      (fun _ s => (pledges_appendBusMessageV1 s trivial).mono fun _ _ _ => trivial) (secured_of_done hidle) hprefix
    have hguarantee : ∀ i w'', RegisteredStep runtime site writer _ (.call i) w'' → Pledge runtime site writer _ _ w''.state :=
      fun i w'' hcall => PoolStep.guarantee Grows.refl hsecured hcall
    cases hstep with
    | start i d => exact ih
    | other hother =>
      obtain ⟨hext, added, hlane, hadmitted⟩ := ih
      exact ⟨hext.trans hother.1, added, hother.2 ▸ hlane.mono hother.1, hadmitted⟩
    | call hprogram hcall => exact ih.pledge (hguarantee _ _ (.call hprogram hcall))

/-- **Whatever appenders do to a registered lane whose range is accepted and collected, its range is accepted and
collected after it exactly if they added nothing, or each of the messages they added has well-formed values, is within
the size limit, and has an id that, with case folded, is new.** -/
theorem appended_taken_iff (runtime : Runtime) (site : Site) (topology : Topology) (cutover : Option Json) (lane : WriterLane)
    (base : String) (commits : List String) (files : List ProjectionFile) (w w' : World ι) (es : List (PoolEvent ι Arguments))
    (hlane : topology.active.lookup site.identity = some lane) (hidentity : lane.identity = site.identity)
    (hidle : ∀ i, ∃ result, w.program i = .done result) (hrun : Run (RegisteredStep runtime site lane.writer) w es w')
    (hvalid : validateActiveWriterRange runtime w.state.toObjects topology cutover site.identity base w.state.head = .ok commits)
    (hfiles : collectProjectionFiles w.state.toObjects commits = .ok files) :
    ∃ added, Lane w'.state.toObjects w.state.head w'.state.head added ∧
      ((∃ commits' files',
          validateActiveWriterRange runtime w'.state.toObjects topology cutover site.identity base w'.state.head = .ok commits' ∧
          collectProjectionFiles w'.state.toObjects commits' = .ok files') ↔
        added = [] ∨ Continues runtime w'.state.toObjects cutover site.identity w.state.head added) := by
  obtain ⟨hext, added, hadded, hadmitted⟩ := prolongs_run hidle hrun
  obtain ⟨hvalid', files', hfiles'⟩ := CcbCore.Lane.taken_of_extends hext w.state.head_known hvalid hfiles
  exact ⟨added, hadded, lane_taken_iff hlane hvalid' hfiles' w'.state.head_known hadded (hidentity ▸ hadmitted)⟩

/-! ### A run -/

def sampleTopology : Topology := [("yin", ⟨"yin", "yin", "bus/yin-v2", .active⟩)]

theorem registered_sampleBackend (op : Op) (repo : Repo) (h : repo.toObjects = sampleObjects) :
    Registered sampleRuntime sampleSite "yin" op repo (sampleBackend op repo).1 (sampleBackend op repo).2 ∧
      (sampleBackend op repo).2.toObjects = sampleObjects := by
  obtain ⟨hbackend, hobjects⟩ := backend_sampleBackend op repo h
  refine ⟨⟨hbackend, ?_⟩, hobjects⟩
  cases op with
  | readControl =>
    intro binding hbinding
    cases hbinding
    rfl
  | _ => trivial

/-- An appender adds a message to a lane that has none. -/
theorem appended_taken_sample : ∃ es w' added, Run (RegisteredStep sampleRuntime sampleSite "yin") sampleWorld es w' ∧
    w'.state.head = sampleCandidate ∧ Lane w'.state.toObjects sampleRoot w'.state.head added ∧
    ((∃ commits files,
        validateActiveWriterRange sampleRuntime w'.state.toObjects sampleTopology none "yin" sampleRoot w'.state.head = .ok commits ∧
        collectProjectionFiles w'.state.toObjects commits = .ok files) ↔
      added = [] ∨ Continues sampleRuntime w'.state.toObjects none "yin" sampleRoot added) := by
  have hrun : Runs (Registered sampleRuntime sampleSite "yin")
      (appendBusMessageV1 sampleRuntime "yin" sampleRoot sampleArguments.message) sampleRepo sampleRun.1 sampleRun.2.1 sampleRun.2.2 := by
    unfold sampleRun
    exact runs_play (J := fun repo => repo.toObjects = sampleObjects) registered_sampleBackend _ _ rfl
  have hhead : sampleRun.2.2.head = sampleCandidate := by decide +kernel
  have hpool := (Run.single (show RegisteredStep sampleRuntime sampleSite "yin" sampleWorld (.start true sampleArguments) _ from
    .start true sampleArguments)).trans
    (hrun.pool (p := { sampleWorld with
        data := Function.update sampleWorld.data true sampleArguments
        program := Function.update sampleWorld.program true
          (appendBusMessageV1 sampleRuntime "yin" sampleRoot sampleArguments.message) })
      (i := true) rfl (by simp))
  obtain ⟨added, hadded, hiff⟩ := appended_taken_iff sampleRuntime sampleSite sampleTopology none ⟨"yin", "yin", "bus/yin-v2", .active⟩
    sampleRoot [] [] sampleWorld _ _ rfl rfl (fun _ => ⟨_, rfl⟩) hpool rfl rfl
  exact ⟨_, _, added, hpool, hhead, hadded, hiff⟩

end CcbCore.Append
