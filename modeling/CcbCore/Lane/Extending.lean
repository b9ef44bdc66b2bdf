import CcbCore.Lane.Additions
import CcbCore.Lane.Pushes

/-!
# A commit more

What the control plane makes of a commit that adds one message to its parent's tree, and nothing else
(`AddsMessage`). The ids that `_message_ids_at_commit` reads of a commit are those of its messages under the names
that git does not quote (`mem_ids_iff`); after the commit they are the parent's and the message's
(`ids_of_addsMessage`), `_validate_commit_paths` accepts the commit when it may have that id
(`validateCommitPaths_iff`), and the range that a line of accepted commits prolongs is listed as before, with the
line at its end (`validateActiveWriterRange_append`).
-/

namespace CcbCore.Lane

open CcbCore.Python CcbCore.Git CcbCore.Message CcbCore.Raising

variable {π : Type} [DecidableEq π] [FileName π] {runtime : Runtime} {objects : Objects π} {lane : WriterLane}
  {reserved ids : List String} {parent commit path id : String} {content : Bytes}

/-- The commit is a child of `parent`, and adds a message to its tree, under a name that git does not quote. -/
structure AddsMessage (objects : Objects π) (parent commit path : String) (content : Bytes) : Prop where
  parents : objects.graph.parents commit = some [parent]
  message : isMessagePath path = true
  unquoted : isQuoted (FileName.ofText path : π) = false
  tree : ∃ files blob, objects.TreeAt parent files ∧ files.lookup (FileName.ofText path) = none ∧
    objects.TreeAt commit (files.insert (FileName.ofText path) blob) ∧ objects.blobs blob = some content

namespace AddsMessage

variable (h : AddsMessage objects parent commit path content)
include h

theorem isMessageName : isMessageName (FileName.ofText path : π) = true := isMessageName_ofText h.message

theorem fileAt : ∃ blob, objects.fileAt commit (FileName.ofText path : π) = some (blob, content) := by
  obtain ⟨files, blob, -, -, hcommit, hblob⟩ := h.tree
  refine ⟨blob, ?_⟩
  rw [Objects.fileAt_of_treeAt hcommit, AList.lookup_insert, Option.bind_some, hblob, Option.map_some]

theorem fileAt_parent : objects.fileAt parent (FileName.ofText path : π) = none := by
  obtain ⟨files, blob, hparent, hnone, -, -⟩ := h.tree
  exact (Objects.fileAt_eq_none_iff hparent).mpr hnone

theorem fileAt_of_ne {name : π} (hne : name ≠ FileName.ofText path) : objects.fileAt commit name = objects.fileAt parent name := by
  obtain ⟨files, blob, hparent, -, hcommit, -⟩ := h.tree
  rw [Objects.fileAt_of_treeAt hcommit, Objects.fileAt_of_treeAt hparent, AList.lookup_insert_ne hne]

theorem idAt : idAt runtime objects commit (FileName.ofText path : π) = declaredId runtime content := by
  obtain ⟨blob, hfile⟩ := h.fileAt
  rw [Lane.idAt, hfile, Option.bind_some]

/-- The commit adds the message's file alone. -/
theorem adds_iff {name : π} : Adds objects commit name ↔ name = FileName.ofText path := by
  obtain ⟨files, blob, hparent, hnone, hcommit, -⟩ := h.tree
  rw [Lane.adds_iff h.parents hparent hcommit]
  constructor
  · rintro ⟨-, hbefore, hafter⟩
    by_contra hne
    rw [AList.lookup_insert_ne hne, hbefore] at hafter
    cases hafter
  · rintro rfl
    exact ⟨h.isMessageName, hnone, by rw [AList.lookup_insert]; rfl⟩

theorem addsSmall_iff : AddsSmall objects commit ↔ content.size ≤ maxFileBytes := by
  obtain ⟨blob, hfile⟩ := h.fileAt
  refine ⟨fun hsmall => hsmall _ _ (h.adds_iff.mpr rfl) hfile, fun hsmall name file hadds hname => ?_⟩
  rw [h.adds_iff.mp hadds, hfile] at hname
  exact Option.some.inj hname ▸ hsmall

/-- The only change of the commit is the message. -/
theorem diffTree {before after : Files π} (hbefore : objects.TreeAt parent before) (hafter : objects.TreeAt commit after) :
    Git.diffTree before after = [(.added, FileName.ofText path)] := by
  obtain ⟨files, blob, hparent, hnone, hcommit, -⟩ := h.tree
  obtain rfl := hbefore.unique hparent
  obtain rfl := hafter.unique hcommit
  have hmem : ∀ change : DiffStatus × π, change ∈ Git.diffTree before (before.insert (FileName.ofText path) blob) ↔
      change ∈ [(DiffStatus.added, (FileName.ofText path : π))] := by
    rintro ⟨status, name⟩
    rw [mem_diffTree, List.mem_singleton, Prod.mk.injEq]
    by_cases hname : name = FileName.ofText path
    · subst hname
      rw [AList.lookup_insert, hnone]
      exact ⟨fun hstatus => ⟨(Option.some.inj hstatus).symm, rfl⟩, fun hstatus => by rw [hstatus.1]; rfl⟩
    · rw [AList.lookup_insert_ne hname]
      refine ⟨fun hstatus => ?_, fun hstatus => absurd hstatus.2 hname⟩
      cases hlookup : before.lookup name with
      | none => rw [hlookup] at hstatus; cases hstatus
      | some blob' => rw [hlookup, diffStatus, if_pos rfl] at hstatus; cases hstatus
  have hnodup := (nodup_diffTree before (before.insert (FileName.ofText path) blob)).of_map
  exact List.perm_singleton.mp ((List.perm_ext_iff_of_nodup hnodup (List.nodup_singleton _)).mpr hmem)

end AddsMessage

/-! ### Ids -/

/-- The ids that are read of a commit are those of its messages under the names that git does not quote. -/
theorem mem_ids_iff (h : messageIdsAtCommit runtime objects commit = .ok ids) :
    id ∈ ids ↔ ∃ name : π, isQuoted name = false ∧ HasId runtime objects commit name id := by
  refine ⟨fun hid => ?_, fun ⟨name, hquoted, hhas⟩ => mem_messageIdsAtCommit h hhas hquoted⟩
  simp only [messageIdsAtCommit, except_bind_ok, orGit_ok] at h
  obtain ⟨files, -, hids⟩ := h
  obtain ⟨path, hpath, hat⟩ := exists_of_forall₂ (forall₂_of_mapM_ok hids).flip hid
  exact ⟨FileName.ofText path, isQuoted_of_mem_readListing hpath, isMessageName_ofText (List.mem_filter.mp hpath).2,
    idAt_of_messageIdAt hat⟩

/-- A header that is given is a text that is not empty. -/
theorem headerText_of_given {headers : Headers} {key : String} {value : List Char} (h : Headers.given headers key = some value) :
    headerText headers key = String.ofList value ∧ headerText headers key ≠ "" := by
  obtain ⟨hlookup, hne⟩ := Option.filter_eq_some_iff.mp h
  have htext : headerText headers key = String.ofList value := by rw [headerText, hlookup, Option.getD_some]
  refine ⟨htext, fun hempty => of_decide_eq_true hne ?_⟩
  rw [htext] at hempty
  rw [← String.toList_ofList (l := value), hempty]
  rfl

theorem messageHeaders_of_ok {policy : TimestampPolicy} {parsed : ParsedBusDocument} {path' : String}
    (h : parseBusDocument runtime content path policy = .ok parsed) :
    messageHeaders runtime content path' policy = .ok parsed.headers := by
  rw [messageHeaders, parseBusDocument_path h path']

/-- What the strict policy accepts declares its id and its writer. -/
theorem headerText_of_strict {parsed : ParsedBusDocument} (h : parseBusDocument runtime content path .strict = .ok parsed) :
    (headerText parsed.headers "message_id" = parsed.messageId ∧ parsed.messageId ≠ "") ∧
      headerText parsed.headers "writer" = parsed.writer ∧ parsed.writer ≠ "" := by
  unfold parseBusDocument at h
  cases hdecode : decode content with
  | none =>
    rw [hdecode] at h
    cases h
  | some text =>
    rw [hdecode] at h
    obtain ⟨headers, body, -, hfrom⟩ := parseBusText_ok h
    obtain ⟨id, hid, heq⟩ := hfrom.messageId
    obtain ⟨writer, hwriter, heq'⟩ := hfrom.writer
    rw [hfrom.same, heq, heq']
    obtain ⟨hidText, hidNe⟩ := headerText_of_given hid
    obtain ⟨hwriterText, hwriterNe⟩ := headerText_of_given hwriter
    exact ⟨⟨hidText, hidText ▸ hidNe⟩, hwriterText, hwriterText ▸ hwriterNe⟩

theorem declaredId_of_strict {parsed : ParsedBusDocument} (h : parseBusDocument runtime content "" .strict = .ok parsed) :
    declaredId runtime content = some (runtime.casefold parsed.messageId) := by
  rw [declaredId, parseBusDocument_fallback h]
  exact congrArg (fun text => some (runtime.casefold text)) (headerText_of_strict h).1.1

theorem AddsMessage.messageIdAt {parsed : ParsedBusDocument} (h : AddsMessage objects parent commit path content)
    (hparsed : parseBusDocument runtime content "" .strict = .ok parsed) :
    messageIdAt runtime objects commit path = .ok (runtime.casefold parsed.messageId) := by
  obtain ⟨blob, hfile⟩ := h.fileAt
  obtain ⟨⟨hid, hne⟩, -⟩ := headerText_of_strict hparsed
  simp only [Lane.messageIdAt, except_bind_ok, orGit_ok, rejectIf_ok, except_pure_ok]
  exact ⟨_, hfile, _, messageHeaders_of_ok (parseBusDocument_fallback hparsed), (), by rwa [hid], by rw [hid]⟩

/-- An id that is read of the parent is read of the commit. -/
theorem AddsMessage.messageIdAt_of_parent {path' : String} (h : AddsMessage objects parent commit path content)
    (hid : Lane.messageIdAt runtime objects parent path' = .ok id) : Lane.messageIdAt runtime objects commit path' = .ok id := by
  simp only [Lane.messageIdAt, except_bind_ok, orGit_ok] at hid ⊢
  obtain ⟨file, hfile, hid⟩ := hid
  have hne : (FileName.ofText path' : π) ≠ FileName.ofText path := by
    intro heq
    rw [heq, h.fileAt_parent] at hfile
    cases hfile
  exact ⟨file, by rwa [h.fileAt_of_ne hne], hid⟩

/-- After a commit that adds a message, the ids are the parent's and the message's. -/
theorem ids_of_addsMessage {parsed : ParsedBusDocument} (h : AddsMessage objects parent commit path content)
    (hparsed : parseBusDocument runtime content "" .strict = .ok parsed) (hids : messageIdsAtCommit runtime objects parent = .ok ids) :
    ∃ ids', messageIdsAtCommit runtime objects commit = .ok ids' ∧
      ∀ id, id ∈ ids' ↔ id ∈ ids ∨ id = runtime.casefold parsed.messageId := by
  have hread : ∃ ids', messageIdsAtCommit runtime objects commit = .ok ids' := by
    have hids' := hids
    simp only [messageIdsAtCommit, except_bind_ok, orGit_ok] at hids' ⊢
    obtain ⟨files, hfiles, hids'⟩ := hids'
    obtain ⟨files₁, blob, hparent, hnone, hcommit, -⟩ := h.tree
    obtain rfl := (Objects.tree_eq_some.mp hfiles).unique hparent
    obtain ⟨before, after, hlisted, hlisted'⟩ := lsTree_insert blob hnone
      (matchesPathspec_of_isMessageName h.isMessageName)
    have hall : ∀ path' ∈ (readListing (lsTree (files.insert (FileName.ofText path) blob))).filter isMessagePath,
        ∃ id, messageIdAt runtime objects commit path' = .ok id := by
      intro path' hpath'
      obtain ⟨hmem, hmessage⟩ := List.mem_filter.mp hpath'
      have hquote : path = String.ofList (quoteName (FileName.ofText path : π)) :=
        ofText_injective (eq_ofText_of_isQuoted h.unquoted)
      have hlines : ∀ line ∈ before ++ quoteName (FileName.ofText path : π) :: after, IsLine line := by
        rw [← hlisted']
        exact isLine_lsTree
      obtain ⟨init, c, hlast, hc⟩ := last_of_isMessagePath h.message
      rw [hquote, String.toList_ofList] at hlast
      rw [hlisted'] at hmem
      rcases mem_readListing_insert hlines ⟨init, c, hlast, hc⟩ hmessage hmem with rfl | hold
      · exact ⟨_, hquote ▸ h.messageIdAt hparsed⟩
      · obtain ⟨id, -, hid⟩ := exists_of_mapM_ok hids' (List.mem_filter.mpr ⟨hlisted ▸ hold, hmessage⟩)
        exact ⟨id, h.messageIdAt_of_parent hid⟩
    obtain ⟨ids', hids'⟩ := mapM_ok_of_forall hall
    exact ⟨ids', _, Objects.tree_eq_some.mpr hcommit, hids'⟩
  obtain ⟨ids', hids'⟩ := hread
  refine ⟨ids', hids', fun id => ?_⟩
  rw [mem_ids_iff hids', mem_ids_iff hids]
  constructor
  · rintro ⟨name, hquoted, hhas⟩
    by_cases hname : name = FileName.ofText path
    · subst hname
      have hdeclared := hhas.declared
      rw [h.idAt, declaredId_of_strict hparsed] at hdeclared
      exact .inr (Option.some.inj hdeclared).symm
    · refine .inl ⟨name, hquoted, hhas.message, ?_⟩
      rw [idAt, ← h.fileAt_of_ne hname]
      exact hhas.declared
  · rintro (⟨name, hquoted, hhas⟩ | rfl)
    · have hname : name ≠ FileName.ofText path := by
        rintro rfl
        have hdeclared := hhas.declared
        rw [idAt, h.fileAt_parent] at hdeclared
        cases hdeclared
      refine ⟨name, hquoted, hhas.message, ?_⟩
      rw [idAt, h.fileAt_of_ne hname]
      exact hhas.declared
    · exact ⟨_, h.unquoted, h.isMessageName, h.idAt.trans (declaredId_of_strict hparsed)⟩

/-! ### A commit -/

/-- What the writer of a lane may add, under an id. -/
structure Acceptable (runtime : Runtime) (lane : WriterLane) (content : Bytes) (parsed : ParsedBusDocument) : Prop where
  strict : parseBusDocument runtime content "" .strict = .ok parsed
  writer : runtime.casefold parsed.writer = runtime.casefold lane.writer
  namespaced : startsWith (runtime.casefold parsed.messageId) (runtime.casefold lane.identity ++ "-") = true

theorem AddsMessage.validatePath_iff {seen : List String} (h : AddsMessage objects parent commit path content) :
    (∃ seen', validatePath runtime objects commit lane seen (.added, path) = .ok seen') ↔
      ∃ parsed, Acceptable runtime lane content parsed ∧ runtime.casefold parsed.messageId ∉ seen := by
  obtain ⟨blob, hfile⟩ := h.fileAt
  simp only [validatePath, except_bind_ok, rejectIf_ok, orGit_ok, except_pure_ok, Bool.not_eq_false, not_not]
  constructor
  · rintro ⟨_, -, -, -, -, file, hfile', headers, hheaders, -, -, -, hwriter, -, -, -, hnamespace, -, hseen, -⟩
    obtain rfl := Option.some.inj (hfile.symm.trans hfile')
    obtain ⟨parsed, hparsed, rfl⟩ := messageHeaders_ok hheaders
    have hstrict := parseBusDocument_path hparsed ""
    obtain ⟨⟨hid, -⟩, hname, -⟩ := headerText_of_strict hstrict
    rw [hname] at hwriter
    rw [hid] at hnamespace hseen
    exact ⟨parsed, ⟨hstrict, hwriter, hnamespace⟩, hseen⟩
  · rintro ⟨parsed, hacceptable, hseen⟩
    obtain ⟨⟨hid, hidNe⟩, hname, hnameNe⟩ := headerText_of_strict hacceptable.strict
    rw [← hid] at hidNe hseen
    rw [← hname] at hnameNe
    exact ⟨_, (), h.message, (), trivial, _, hfile, _, messageHeaders_of_ok hacceptable.strict, (), hnameNe, (),
      hname ▸ hacceptable.writer, (), hidNe, (), hid ▸ hacceptable.namespaced, (), hseen, rfl⟩

/-- **A commit that adds a message is accepted when the ids of its parent are read, and the writer may add the message
under an id that is none of them, and not reserved.** -/
theorem AddsMessage.validateCommitPaths_iff (h : AddsMessage objects parent commit path content) :
    validateCommitPaths runtime objects lane reserved commit = .ok () ↔ ∃ ids parsed,
      messageIdsAtCommit runtime objects parent = .ok ids ∧ Acceptable runtime lane content parsed ∧
        runtime.casefold parsed.messageId ∉ reserved ++ ids := by
  obtain ⟨files, blob, hparent, -, hcommit, -⟩ := h.tree
  have hchanges : (Git.diffTree files (files.insert (FileName.ofText path) blob)).mapM decodeChange = .ok [(.added, path)] := by
    rw [h.diffTree hparent hcommit]
    exact congrArg (· >>= _) (decodeChange_ofText .added path)
  simp only [validateCommitPaths, except_bind_ok, orGit_ok]
  constructor
  · rintro ⟨parent', hparents, ids, hids, before, hbefore, after, hafter, changes, hmap, seen', hfold, -⟩
    obtain rfl : parent = parent' := by simpa using h.parents.symm.trans (onlyParent_ok hparents)
    obtain rfl := (Objects.tree_eq_some.mp hbefore).unique hparent
    obtain rfl := (Objects.tree_eq_some.mp hafter).unique hcommit
    obtain rfl := Except.ok.inj (hchanges.symm.trans hmap)
    rw [List.foldlM_cons, except_bind_ok] at hfold
    obtain ⟨seen, hseen, -⟩ := hfold
    obtain ⟨parsed, hacceptable, hnew⟩ := h.validatePath_iff.mp ⟨seen, hseen⟩
    exact ⟨ids, parsed, hids, hacceptable, hnew⟩
  · rintro ⟨ids, parsed, hids, hacceptable, hnew⟩
    obtain ⟨seen, hseen⟩ := h.validatePath_iff.mpr ⟨parsed, hacceptable, hnew⟩
    refine ⟨parent, by rw [onlyParent, h.parents], ids, hids, files, Objects.tree_eq_some.mpr hparent, _,
      Objects.tree_eq_some.mpr hcommit, _, hchanges, seen, ?_, rfl⟩
    rw [List.foldlM_cons, except_bind_ok]
    exact ⟨seen, hseen, rfl⟩

/-! ### A range -/

variable {topology : Topology} {cutover : Option Json} {identity base head head' : String} {commits added : List String}

/-- Each commit of a range that is accepted is. -/
theorem validated_of_mem (hlane : topology.active.lookup identity = some lane)
    (hvalid : validateActiveWriterRange runtime objects topology cutover identity base head = .ok commits)
    (hreserved : historicalMessageIds runtime objects cutover identity = .ok reserved) :
    ∀ c ∈ commits, validateCommitPaths runtime objects lane reserved c = .ok () := by
  rw [validateActiveWriterRange, hlane] at hvalid
  dsimp only at hvalid
  split at hvalid
  · cases hvalid
    exact List.forall_mem_nil _
  · split at hvalid
    · cases hvalid
    · split at hvalid
      · cases hvalid
      · simp only [except_bind_ok, except_forM_ok, except_pure_ok] at hvalid
        obtain ⟨ids, hids, _, hcommits, rfl⟩ := hvalid
        exact Except.ok.inj (hreserved.symm.trans hids) ▸ hcommits

/-- **A range that is accepted, prolonged by a line of commits, is accepted when each of these is.** -/
theorem validateActiveWriterRange_append (hlane : topology.active.lookup identity = some lane)
    (hvalid : validateActiveWriterRange runtime objects topology cutover identity base head = .ok commits)
    (hknown : objects.graph.Known head') (hline : objects.graph.Line head added head') (hne : added ≠ []) :
    (∃ commits', validateActiveWriterRange runtime objects topology cutover identity base head' = .ok commits') ↔
      ∃ reserved, historicalMessageIds runtime objects cutover identity = .ok reserved ∧
        ∀ c ∈ added, validateCommitPaths runtime objects lane reserved c = .ok () := by
  obtain ⟨lane', reserved', hsegment⟩ := segment_of_validated hvalid
  have hwhole := hsegment.line.append hline
  have hlist := revList_of_line hwhole
  have hne' : commits ++ added ≠ [] := List.append_ne_nil_of_right_ne_nil commits hne
  have hbase : base ≠ head' := by
    rintro rfl
    obtain ⟨c, hc⟩ := List.exists_mem_of_ne_nil _ hne'
    obtain ⟨habove, hbelow⟩ := hwhole.mem_iff.mp hc
    exact hbelow habove
  have hancestor : objects.graph.isAncestor base head' = true := CommitGraph.isAncestor_iff.mpr ⟨hknown, hwhole.ancestor⟩
  have hlong : (∃ commits', validateActiveWriterRange runtime objects topology cutover identity base head' = .ok commits') ↔
      ∃ reserved, historicalMessageIds runtime objects cutover identity = .ok reserved ∧
        ∀ c ∈ commits ++ added, validateCommitPaths runtime objects lane reserved c = .ok () := by
    rw [validateActiveWriterRange, hlane]
    simp only [if_neg hbase, hancestor, Bool.true_eq_false, if_false, hlist, if_neg hne', except_bind_ok, except_forM_ok,
      except_pure_ok]
    constructor
    · rintro ⟨_, reserved, hreserved, _, hall, -⟩
      exact ⟨reserved, hreserved, hall⟩
    · rintro ⟨reserved, hreserved, hall⟩
      exact ⟨_, reserved, hreserved, (), hall, rfl⟩
  rw [hlong]
  refine exists_congr fun reserved => and_congr_right fun hreserved => ⟨fun hall c hc => hall c (List.mem_append_right _ hc),
    fun hall c hc => ?_⟩
  rcases List.mem_append.mp hc with hold | hnew
  · exact validated_of_mem hlane hvalid hreserved c hold
  · exact hall c hnew

/-- What is accepted and collected, prolonged by a line of commits, is so when each of these is accepted, and small. -/
theorem taken_append {files : List ProjectionFile} (hlane : topology.active.lookup identity = some lane)
    (hvalid : validateActiveWriterRange runtime objects topology cutover identity base head = .ok commits)
    (hfiles : collectProjectionFiles objects commits = .ok files) (hknown : objects.graph.Known head')
    (hline : objects.graph.Line head added head') (hne : added ≠ []) :
    (∃ commits' files', validateActiveWriterRange runtime objects topology cutover identity base head' = .ok commits' ∧
      collectProjectionFiles objects commits' = .ok files') ↔
    (∃ reserved, historicalMessageIds runtime objects cutover identity = .ok reserved ∧
      ∀ c ∈ added, validateCommitPaths runtime objects lane reserved c = .ok ()) ∧ ∀ c ∈ added, AddsSmall objects c := by
  obtain ⟨lane', reserved, hsegment⟩ := segment_of_validated hvalid
  have hwhole := revList_of_line (hsegment.line.append hline)
  have hsmall := (exists_collect_iff hsegment).mp ⟨files, hfiles⟩
  rw [← validateActiveWriterRange_append hlane hvalid hknown hline hne]
  have hcollect : ∀ {commits'}, validateActiveWriterRange runtime objects topology cutover identity base head' = .ok commits' →
      ((∃ files', collectProjectionFiles objects commits' = .ok files') ↔ ∀ c ∈ added, AddsSmall objects c) := by
    intro commits' hvalid'
    obtain ⟨lane'', reserved', hsegment'⟩ := segment_of_validated hvalid'
    rw [exists_collect_iff hsegment', ← revList_of_line hsegment'.line, hwhole]
    refine ⟨fun hall c hc => hall c (List.mem_append_right _ hc), fun hall c hc => ?_⟩
    exact (List.mem_append.mp hc).elim (hsmall c) (hall c)
  constructor
  · rintro ⟨commits', files', hvalid', hfiles'⟩
    exact ⟨⟨commits', hvalid'⟩, (hcollect hvalid').mp ⟨files', hfiles'⟩⟩
  · rintro ⟨⟨commits', hvalid'⟩, hall⟩
    obtain ⟨files', hfiles'⟩ := (hcollect hvalid').mpr hall
    exact ⟨commits', files', hvalid', hfiles'⟩

omit [FileName π] in
theorem line_of_extends {objects' : Objects π} (h : objects.Extends objects') (hline : objects.graph.Line base commits head) :
    objects'.graph.Line base commits head := by
  induction hline with
  | nil => exact .nil
  | snoc _ hparents ih => exact ih.snoc (h.graph _ _ hparents)

theorem addsSmall_of_extends {objects' : Objects π} (h : objects.Extends objects') {c : String} (hc : objects.graph.Known c)
    (hsmall : AddsSmall objects c) : AddsSmall objects' c := fun name file hadds hfile =>
  hsmall name file ((adds_of_extends h hc name).mp hadds) (fileAt_eq_of_extends h hc name ▸ hfile)

/-- What is accepted and collected stays so when objects are added. -/
theorem taken_of_extends {objects' : Objects π} {files : List ProjectionFile} (h : objects.Extends objects')
    (hknown : objects.graph.Known head)
    (hvalid : validateActiveWriterRange runtime objects topology cutover identity base head = .ok commits)
    (hfiles : collectProjectionFiles objects commits = .ok files) :
    validateActiveWriterRange runtime objects' topology cutover identity base head = .ok commits ∧
      ∃ files', collectProjectionFiles objects' commits = .ok files' := by
  obtain ⟨lane', reserved', hsegment⟩ := segment_of_validated hvalid
  have hline := line_of_extends h hsegment.line
  have hvalid' : validateActiveWriterRange runtime objects' topology cutover identity base head = .ok commits := by
    rw [validateActiveWriterRange] at hvalid ⊢
    cases hlane : topology.active.lookup identity with
    | none =>
      rw [hlane] at hvalid
      cases hvalid
    | some lane =>
      rw [hlane] at hvalid
      dsimp only at hvalid ⊢
      by_cases hbase : base = head
      · rwa [if_pos hbase] at hvalid ⊢
      rw [if_neg hbase] at hvalid ⊢
      have hancestor := CommitGraph.isAncestor_iff.mpr ⟨h.known hknown, hline.ancestor⟩
      rw [hancestor, if_neg (by decide), revList_of_line hline]
      rw [revList_of_line hsegment.line] at hvalid
      split at hvalid
      · cases hvalid
      · split at hvalid
        · cases hvalid
        · next hne =>
          rw [if_neg hne]
          simp only [except_bind_ok, except_forM_ok, except_pure_ok, and_true] at hvalid ⊢
          obtain ⟨ids, hids, u, hall⟩ := hvalid
          exact ⟨ids, historicalMessageIds_of_extends h hids, u, fun c hc => validateCommitPaths_of_extends h (hall c hc)⟩
  refine ⟨hvalid', ?_⟩
  obtain ⟨lane'', reserved'', hsegment'⟩ := segment_of_validated hvalid'
  refine (exists_collect_iff hsegment').mpr fun c hc => addsSmall_of_extends h ?_ ((exists_collect_iff hsegment).mp ⟨files, hfiles⟩ c hc)
  exact (hsegment.line.mem_iff.mp hc).1.known hknown

end CcbCore.Lane
