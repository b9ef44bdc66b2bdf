import CcbCore.Lane.Listing

/-!
# The commits of a guarded range

What `_validate_commit_paths` accepts (`Appends.of_validate`): a commit with one parent that
adds message files and changes nothing else, each with an id of its own that is no id of
a file in the listing of the parent's tree. Along a range of such commits the files of the base stay
(`Segment.kept`), and each file that is new in the end was added by one of them (`Segment.added`).
-/

namespace CcbCore.Lane

open CcbCore.Python CcbCore.Git CcbCore.Message CcbCore.Raising

variable {π : Type} [DecidableEq π] [FileName π] {runtime : Runtime} {objects : Objects π} {lane : WriterLane}
  {commit parent base head : String} {name : π} {id : String} {reserved seen seen' : List String}

/-! ### Ids -/

/-- The id that a message declares, folded. -/
def declaredId (runtime : Runtime) (content : Bytes) : Option String :=
  match parseBusDocument runtime content "" .sourceFallback with
  | .ok parsed => some (runtime.casefold (headerText parsed.headers "message_id"))
  | .error _ => none

/-- The id that a file of a commit declares. -/
def idAt (runtime : Runtime) (objects : Objects π) (commit : String) (name : π) : Option String :=
  (objects.fileAt commit name).bind fun file => declaredId runtime file.2

/-- A commit has a file under `messages/` that declares an id. -/
structure HasId (runtime : Runtime) (objects : Objects π) (commit : String) (name : π) (id : String) : Prop where
  message : isMessageName name = true
  declared : idAt runtime objects commit name = some id

/-- The path is for the error only. -/
theorem parseBusDocument_path {content : Bytes} {path : String} {policy : TimestampPolicy} {parsed : ParsedBusDocument}
    (h : parseBusDocument runtime content path policy = .ok parsed) (path' : String) :
    parseBusDocument runtime content path' policy = .ok parsed := by
  unfold parseBusDocument at h ⊢
  cases hdecode : decode content with
  | none =>
    rw [hdecode] at h
    cases h
  | some text =>
    rw [hdecode] at h
    exact h

/-- What passes the strict policy passes the other, with the same result. -/
theorem parseBusDocument_fallback {content : Bytes} {path : String} {parsed : ParsedBusDocument}
    (h : parseBusDocument runtime content path .strict = .ok parsed) :
    parseBusDocument runtime content path .sourceFallback = .ok parsed := by
  unfold parseBusDocument at h ⊢
  cases hdecode : decode content with
  | none =>
    rw [hdecode] at h
    cases h
  | some text =>
    rw [hdecode] at h
    have hcreated : ∀ {headers result}, readCreatedAt runtime headers .strict = .ok result →
        readCreatedAt runtime headers .sourceFallback = .ok result := by
      intro headers result hresult
      unfold readCreatedAt at hresult ⊢
      split at hresult
      · exact hresult
      · split at hresult
        · next hnormal => simpa only [hnormal] using hresult
        · next hpolicy => cases hpolicy
        · cases hresult
    dsimp only at h ⊢
    unfold parseBusText at h ⊢
    simp only [except_bind_ok] at h ⊢
    obtain ⟨split, hsplit, messageId, hmessageId, writer, hwriter, created, hcreated', h⟩ := h
    exact ⟨split, hsplit, messageId, hmessageId, writer, hwriter, created, hcreated hcreated', h⟩

theorem messageHeaders_ok {content : Bytes} {path : String} {policy : TimestampPolicy} {headers : Headers}
    (h : messageHeaders runtime content path policy = .ok headers) :
    ∃ parsed, parseBusDocument runtime content path policy = .ok parsed ∧ parsed.headers = headers := by
  unfold messageHeaders at h
  cases hparse : parseBusDocument runtime content path policy with
  | ok parsed =>
    rw [hparse] at h
    exact ⟨parsed, rfl, Except.ok.inj h⟩
  | error text =>
    rw [hparse] at h
    dsimp only at h
    split at h
    · cases h
    · split at h <;> cases h

theorem orGit_ok {α : Type} {value : Option α} {a : α} : orGit value = .ok a ↔ value = some a := by
  cases value <;> simp [orGit]

/-- The id at a path, as the code reads it. -/
theorem idAt_of_messageIdAt {path : String} (h : messageIdAt runtime objects commit path = .ok id) :
    idAt runtime objects commit (FileName.ofText path : π) = some id := by
  simp only [messageIdAt, except_bind_ok, orGit_ok, rejectIf_ok, except_pure_ok] at h
  obtain ⟨file, hfile, headers, hheaders, -, -, rfl⟩ := h
  obtain ⟨parsed, hparsed, rfl⟩ := messageHeaders_ok hheaders
  rw [idAt, hfile, Option.bind_some, declaredId, parseBusDocument_path hparsed ""]

/-- The ids of a commit have those of its messages under the names that git does not quote. -/
theorem mem_messageIdsAtCommit {ids : List String} (h : messageIdsAtCommit runtime objects commit = .ok ids)
    (hid : HasId runtime objects commit name id) (hquoted : isQuoted name = false) : id ∈ ids := by
  simp only [messageIdsAtCommit, except_bind_ok, orGit_ok] at h
  obtain ⟨files, hfiles, hids⟩ := h
  have htree := Objects.tree_eq_some.mp hfiles
  have hkey : name ∈ files.keys := by
    rw [← AList.mem_keys]
    by_contra hnot
    have hdeclared := hid.declared
    rw [idAt, (Objects.fileAt_eq_none_iff htree).mpr (AList.lookup_eq_none.mpr hnot)] at hdeclared
    cases hdeclared
  obtain ⟨id', hid', hat⟩ := exists_of_mapM_ok hids (mem_readListing hkey hid.message hquoted)
  have hdeclared := idAt_of_messageIdAt (π := π) hat
  rw [← eq_ofText_of_isQuoted hquoted, hid.declared, Option.some.injEq] at hdeclared
  exact hdeclared ▸ hid'

/-! ### A commit -/

/-- A message that a commit adds, as the writer of the lane may. -/
structure Accepted (runtime : Runtime) (objects : Objects π) (lane : WriterLane) (commit : String) (name : π) (id : String) :
    Prop where
  text : ∃ path, name = FileName.ofText path ∧ isMessagePath path = true
  hasId : HasId runtime objects commit name id
  namespaced : startsWith id (runtime.casefold lane.identity ++ "-") = true
  writer : ∃ file parsed, objects.fileAt commit name = some file ∧
    parseBusDocument runtime file.2 "" .strict = .ok parsed ∧
    runtime.casefold (headerText parsed.headers "writer") = runtime.casefold lane.writer

/-- A change that is accepted adds a message whose id was not seen. -/
theorem validatePath_ok {change : DiffStatus × String}
    (h : validatePath runtime objects commit lane seen change = .ok seen') :
    change.1 = .added ∧ ∃ id, Accepted runtime objects lane commit (FileName.ofText change.2 : π) id ∧ id ∉ seen ∧
      seen' = id :: seen := by
  simp only [validatePath, except_bind_ok, rejectIf_ok, orGit_ok, except_pure_ok, Bool.not_eq_false, not_not] at h
  obtain ⟨-, hmessage, -, hadded, file, hfile, headers, hheaders, -, -, -, hwriter, -, -, -, hnamespace, -, hseen, rfl⟩ := h
  obtain ⟨parsed, hparsed, rfl⟩ := messageHeaders_ok hheaders
  have hstrict := parseBusDocument_path hparsed ""
  refine ⟨hadded, _, ⟨⟨change.2, rfl, hmessage⟩, ⟨isMessageName_ofText hmessage, ?_⟩, hnamespace,
    file, parsed, hfile, hstrict, hwriter⟩, hseen, rfl⟩
  rw [idAt, hfile, Option.bind_some, declaredId, parseBusDocument_fallback hstrict]

/-- Changes that are accepted one after another have different ids, none of which was seen. -/
theorem foldlM_validatePath_ok {changes : List (DiffStatus × String)}
    (h : changes.foldlM (validatePath runtime objects commit lane) seen = .ok seen') :
    ∃ ids, List.Forall₂ (fun (change : DiffStatus × String) id => change.1 = .added ∧
      Accepted runtime objects lane commit (FileName.ofText change.2 : π) id) changes ids ∧ ids.Nodup ∧ ∀ id ∈ ids, id ∉ seen := by
  induction changes generalizing seen with
  | nil => exact ⟨[], .nil, List.nodup_nil, nofun⟩
  | cons change changes ih =>
    rw [List.foldlM_cons, except_bind_ok] at h
    obtain ⟨seen₁, hchange, hrest⟩ := h
    obtain ⟨hadded, id, haccepted, hseen, rfl⟩ := validatePath_ok hchange
    obtain ⟨ids, hids, hnodup, hnot⟩ := ih hrest
    refine ⟨id :: ids, .cons ⟨hadded, haccepted⟩ hids, List.nodup_cons.mpr ⟨fun hmem => ?_, hnodup⟩, fun id' hid' => ?_⟩
    · exact hnot id hmem List.mem_cons_self
    · obtain rfl | hid' := List.mem_cons.mp hid'
      · exact hseen
      · exact fun hmem => hnot id' hid' (List.mem_cons_of_mem _ hmem)

/-- A commit with one parent that adds messages to its tree, and changes nothing else. -/
structure Appends (runtime : Runtime) (objects : Objects π) (lane : WriterLane) (reserved : List String)
    (parent commit : String) : Prop where
  parents : objects.graph.parents commit = some [parent]
  kept : ∀ name file, objects.fileAt parent name = some file → objects.fileAt commit name = some file
  added : ∀ name file, objects.fileAt commit name = some file → objects.fileAt parent name = none →
    ∃ id, Accepted runtime objects lane commit name id ∧ id ∉ reserved ∧
      ∀ name', HasId runtime objects parent name' id → isQuoted name' = true
  distinct : ∀ name name' id, HasId runtime objects commit name id → HasId runtime objects commit name' id →
    objects.fileAt parent name = none → objects.fileAt parent name' = none → name = name'

omit [FileName π] in
theorem onlyParent_ok {code : String} (h : onlyParent objects commit code = .ok parent) :
    objects.graph.parents commit = some [parent] := by
  unfold onlyParent at h
  split at h
  · cases h
  · next hparents =>
    cases h
    exact hparents
  · cases h

omit [DecidableEq π] in
theorem decodeChange_ok {change : DiffStatus × π} {decoded : DiffStatus × String} (h : decodeChange change = .ok decoded) :
    change = (decoded.1, FileName.ofText decoded.2) := by
  unfold decodeChange at h
  cases htext : text? change.2 with
  | none =>
    rw [htext] at h
    cases h
  | some path =>
    rw [htext] at h
    cases h
    rw [← eq_ofText_of_text? htext]

/-- The commits that `_validate_commit_paths` accepts. -/
theorem Appends.of_validate (h : validateCommitPaths runtime objects lane reserved commit = .ok ()) :
    ∃ parent, Appends runtime objects lane reserved parent commit := by
  simp only [validateCommitPaths, except_bind_ok, orGit_ok] at h
  obtain ⟨parent, hparent, parentIds, hparentIds, before, hbefore, after, hafter, changes, hchanges, seen, hseen, -⟩ := h
  have htree := Objects.tree_eq_some.mp hbefore
  have htree' := Objects.tree_eq_some.mp hafter
  obtain ⟨ids, hids, hnodup, hnot⟩ := foldlM_validatePath_ok (π := π) hseen
  -- Each difference is an accepted message.
  have hdiff : ∀ status name, diffStatus (before.lookup name) (after.lookup name) = some status →
      ∃ path, (status, path) ∈ changes ∧ name = FileName.ofText path ∧ status = .added ∧
        ∃ id ∈ ids, Accepted runtime objects lane commit name id := by
    intro status name hstatus
    obtain ⟨⟨status', path⟩, hmem, hdecode⟩ := exists_of_mapM_ok hchanges (mem_diffTree.mpr hstatus)
    obtain ⟨rfl, rfl⟩ := Prod.mk.inj (decodeChange_ok hdecode)
    obtain ⟨id, hid, hadded, haccepted⟩ := exists_of_forall₂ hids hmem
    exact ⟨path, hmem, rfl, hadded, id, hid, haccepted⟩
  refine ⟨parent, onlyParent_ok hparent, ?_, ?_, ?_⟩
  · intro name file hfile
    rw [Objects.fileAt_of_treeAt htree] at hfile
    rw [Objects.fileAt_of_treeAt htree']
    obtain ⟨blob, hblob, -⟩ := Option.bind_eq_some_iff.mp hfile
    have hsame : after.lookup name = before.lookup name := by
      cases hlookup : after.lookup name with
      | none =>
        obtain ⟨_, -, -, hadded, -⟩ := hdiff .deleted name (by rw [hblob, hlookup]; rfl)
        cases hadded
      | some blob' =>
        by_contra hne
        obtain ⟨_, -, -, hadded, -⟩ := hdiff .modified name (by
          rw [hblob, hlookup]
          exact if_neg fun heq => hne (by rw [hblob, heq]))
        cases hadded
    rwa [hsame]
  · intro name file hfile hnone
    rw [Objects.fileAt_eq_none_iff htree] at hnone
    rw [Objects.fileAt_of_treeAt htree'] at hfile
    obtain ⟨blob, hblob, -⟩ := Option.bind_eq_some_iff.mp hfile
    obtain ⟨_, -, -, -, id, hid, haccepted⟩ := hdiff .added name (by rw [hnone, hblob]; rfl)
    refine ⟨id, haccepted, fun hreserved => hnot id hid (List.mem_append_left _ hreserved), fun name' hid' => ?_⟩
    by_contra hquoted
    exact hnot id hid (List.mem_append_right _ (mem_messageIdsAtCommit hparentIds hid' (Bool.not_eq_true _ ▸ hquoted)))
  · intro name name' id hid hid' hnone hnone'
    have hmap : changes.map (fun change => idAt runtime objects commit (FileName.ofText change.2 : π)) = ids.map some := by
      clear hnodup hnot hdiff hseen hchanges
      induction hids with
      | nil => rfl
      | cons hchange _ ih => rw [List.map_cons, List.map_cons, ih, hchange.2.hasId.declared]
    have hinj := List.inj_on_of_nodup_map (hmap ▸ hnodup.map (Option.some_injective _))
    have hchange : ∀ {name}, HasId runtime objects commit name id → objects.fileAt parent name = none →
        ∃ path, (DiffStatus.added, path) ∈ changes ∧ name = FileName.ofText path := by
      intro name hid hnone
      obtain ⟨file, hfile, -⟩ := Option.bind_eq_some_iff.mp hid.declared
      rw [Objects.fileAt_of_treeAt htree'] at hfile
      rw [Objects.fileAt_eq_none_iff htree] at hnone
      obtain ⟨blob, hblob, -⟩ := Option.bind_eq_some_iff.mp hfile
      obtain ⟨path, hmem, hname, -⟩ := hdiff .added name (by rw [hnone, hblob]; rfl)
      exact ⟨path, hmem, hname⟩
    obtain ⟨path, hmem, rfl⟩ := hchange hid hnone
    obtain ⟨path', hmem', rfl⟩ := hchange hid' hnone'
    have hpath := hinj hmem hmem' (hid.declared.trans hid'.declared.symm)
    rw [(Prod.mk.inj hpath).2]

/-! ### A range -/

/-- The commits of a line that are accepted one after another, each with the parent it comes after. -/
inductive Segment (runtime : Runtime) (objects : Objects π) (lane : WriterLane) (reserved : List String) (base : String) :
    List String → String → Prop where
  | nil : Segment runtime objects lane reserved base [] base
  | snoc {commits : List String} {parent commit : String} :
      Segment runtime objects lane reserved base commits parent → Appends runtime objects lane reserved parent commit →
      Segment runtime objects lane reserved base (commits ++ [commit]) commit

variable {commits : List String}

theorem Segment.line (h : Segment runtime objects lane reserved base commits head) : objects.graph.Line base commits head := by
  induction h with
  | nil => exact .nil
  | snoc _ happends ih => exact ih.snoc happends.parents

/-- The files of the base stay. -/
theorem Segment.kept (h : Segment runtime objects lane reserved base commits head) {file : String × Bytes}
    (hfile : objects.fileAt base name = some file) : objects.fileAt head name = some file := by
  induction h with
  | nil => exact hfile
  | snoc _ happends ih => exact happends.kept name file ih

/-- A file that is new in the end was added by one of the commits. -/
theorem Segment.added (h : Segment runtime objects lane reserved base commits head) {file : String × Bytes}
    (hfile : objects.fileAt head name = some file) (hnone : objects.fileAt base name = none) :
    ∃ before parent commit, Segment runtime objects lane reserved base before parent ∧
      Appends runtime objects lane reserved parent commit ∧ commit ∈ commits ∧ objects.fileAt parent name = none ∧
      objects.fileAt commit name = some file := by
  induction h with
  | nil =>
    rw [hnone] at hfile
    cases hfile
  | @snoc commits parent commit hsegment happends ih =>
    cases hparent : objects.fileAt parent name with
    | none => exact ⟨commits, parent, commit, hsegment, happends, by simp, hparent, hfile⟩
    | some file' =>
      obtain rfl := Option.some.inj ((happends.kept name file' hparent).symm.trans hfile)
      obtain ⟨before, parent', commit', hbefore, happends', hmem, hrest⟩ := ih hparent
      exact ⟨before, parent', commit', hbefore, happends', List.mem_append_left _ hmem, hrest⟩

omit [DecidableEq π] [FileName π] in
/-- The listing of a line is the line. -/
theorem revList_of_line {graph : CommitGraph String} (h : graph.Line base commits head) : graph.revList base head = commits := by
  induction h with
  | nil =>
    rw [CommitGraph.revList, List.filter_eq_nil_iff]
    intro c hc
    rw [CommitGraph.isAncestor_iff.mpr (CommitGraph.ancestor_of_mem_lineage hc)]
    exact Bool.false_ne_true
  | @snoc commits parent commit hline hparents ih =>
    rw [CommitGraph.revList_child hparents, ih]
    intro hancestor
    have := hancestor.generation_le
    have := hline.ancestor.generation_le
    have := graph.generation_lt hparents (List.mem_singleton.mpr rfl)
    omega

/-- A range whose commits are all accepted is a segment. -/
theorem Segment.of_range (hancestor : objects.graph.isAncestor base head = true)
    (h : ∀ commit ∈ objects.graph.revList base head, validateCommitPaths runtime objects lane reserved commit = .ok ()) :
    Segment runtime objects lane reserved base (objects.graph.revList base head) head := by
  obtain ⟨hhead, hbase⟩ := CommitGraph.isAncestor_iff.mp hancestor
  have happends : ∀ commit, objects.graph.InRange base head commit →
      ∃ parent, Appends runtime objects lane reserved parent commit := by
    intro commit hcommit
    exact Appends.of_validate (h commit ((CommitGraph.mem_revList (hbase.known hhead) hhead).mpr hcommit))
  obtain ⟨commits, hline⟩ := CommitGraph.Line.of_range hbase fun commit hcommit => by
    obtain ⟨parent, happends⟩ := happends commit hcommit
    exact ⟨parent, happends.parents⟩
  rw [revList_of_line hline]
  replace happends : ∀ commit ∈ commits, ∃ parent, Appends runtime objects lane reserved parent commit :=
    fun commit hcommit => happends commit (hline.mem_iff.mp hcommit)
  clear h hancestor hhead hbase
  induction hline with
  | nil => exact .nil
  | @snoc commits parent commit hline hparents ih =>
    obtain ⟨parent', hcommit⟩ := happends commit (by simp)
    obtain rfl : parent = parent' := by simpa using hparents.symm.trans hcommit.parents
    exact (ih fun commit hmem => happends commit (List.mem_append_left _ hmem)).snoc hcommit

end CcbCore.Lane
