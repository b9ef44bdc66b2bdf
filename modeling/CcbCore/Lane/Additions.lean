import CcbCore.Lane.AppendOnly
import CcbCore.Lane.Collection

/-!
# What a validated range adds

The paths that `collect_projection_files` gives of a range that `validate_active_writer_range`
accepts are those of the message files that the range's commits add, each of them
(`covers_of_validated`). A clone of a repository sees no less of a range than the repository has
(`Covers.extends`), and no path is added on both sides of a commit (`Covers.disjoint`).
-/

namespace CcbCore.Lane

open CcbCore.Python CcbCore.Git CcbCore.Message CcbCore.Raising

variable {π : Type} [DecidableEq π] [FileName π] {objects objects' : Objects π}

/-- A commit is above another, and has its files. -/
structure Follows (objects : Objects π) (before after : String) : Prop where
  ancestor : objects.graph.Ancestor before after
  kept : ∀ name file, objects.fileAt before name = some file → objects.fileAt after name = some file

/-- A commit adds a message file to a parent's tree. -/
structure Adds (objects : Objects π) (commit : String) (name : π) : Prop where
  message : isMessageName name = true
  there : ∃ file, objects.fileAt commit name = some file
  new : ∃ parent, objects.graph.Parent parent commit ∧ objects.fileAt parent name = none

/-- The paths are those of all message files that some commits add. -/
structure AddedBy (objects : Objects π) (commits paths : List String) : Prop where
  files : ∀ path, path ∈ paths ↔ ∃ c ∈ commits, Adds objects c (FileName.ofText path : π)
  named : ∀ c ∈ commits, ∀ name : π, Adds objects c name → ∃ path, name = FileName.ofText path

/-- The paths are those of the message files that the commits of a range add; along the range no file goes away. -/
structure Covers (objects : Objects π) (base head : String) (paths : List String) : Prop where
  known : objects.graph.Known head
  follows : Follows objects base head
  stays : ∀ c, objects.graph.InRange base head c → Follows objects c head
  before : ∀ c parent, objects.graph.InRange base head c → objects.graph.Parent parent c → Follows objects base parent
  named : ∀ c (name : π), objects.graph.InRange base head c → Adds objects c name → ∃ path, name = FileName.ofText path
  files : ∀ path, path ∈ paths ↔ ∃ c, objects.graph.InRange base head c ∧ Adds objects c (FileName.ofText path : π)

/-! ### Along a range -/

section

variable {runtime : Runtime} {lane : WriterLane} {reserved commits : List String} {base head commit parent a b c : String}

omit [FileName π] in
theorem Follows.refl (objects : Objects π) (c : String) : Follows objects c c := ⟨.refl c, fun _ _ h => h⟩

omit [FileName π] in
theorem Follows.trans (hab : Follows objects a b) (hbc : Follows objects b c) : Follows objects a c :=
  ⟨hab.ancestor.trans hbc.ancestor, fun name file h => hbc.kept name file (hab.kept name file h)⟩

theorem Segment.follows (h : Segment runtime objects lane reserved base commits head) : Follows objects base head :=
  ⟨h.line.ancestor, fun _ _ => h.kept⟩

/-- A commit of a range comes after its parent, and before the head. -/
theorem Segment.between (h : Segment runtime objects lane reserved base commits head) (hc : c ∈ commits) :
    Follows objects c head ∧ ∃ parent, objects.graph.parents c = some [parent] ∧ Follows objects base parent := by
  obtain ⟨before, after, parent, hbefore, happends, hafter⟩ := h.cut hc
  exact ⟨hafter.follows, parent, happends.parents, hbefore.follows⟩

/-- What `validate_active_writer_range` accepts is a segment, which it lists. -/
theorem segment_of_validated {topology : Topology} {cutover : Option Json} {identity : String}
    (h : validateActiveWriterRange runtime objects topology cutover identity base head = .ok commits) :
    ∃ lane reserved, Segment runtime objects lane reserved base commits head := by
  unfold validateActiveWriterRange at h
  cases hlane : topology.active.lookup identity with
  | none =>
    rw [hlane] at h
    cases h
  | some lane =>
    rw [hlane] at h
    dsimp only at h
    split at h
    · next heq =>
      subst heq
      cases h
      exact ⟨lane, [], .nil⟩
    · split at h
      · cases h
      · next hancestor =>
        rw [Bool.not_eq_false] at hancestor
        split at h
        · cases h
        · simp only [except_bind_ok, except_forM_ok, except_pure_ok] at h
          obtain ⟨ids, -, _, hcommits, rfl⟩ := h
          exact ⟨lane, ids, .of_range hancestor hcommits⟩

/-! ### What is collected -/

omit [DecidableEq π] in
/-- A name that the collection selects is a message file's. -/
theorem selects_iff (name : π) : (matchesPathspec "messages" name = true ∧
    (encode ".md".toList).data.toList.isSuffixOf (FileName.bytes name).data.toList = true) ↔ isMessageName name = true := by
  rw [isMessageName, Bool.and_eq_true_iff]
  refine and_congr_left fun hsuffix => ⟨fun h => ?_, fun h => decide_eq_true (.inr h)⟩
  rcases of_decide_eq_true h with hname | hprefix
  · rw [hname] at hsuffix
    exact absurd hsuffix (by decide +kernel)
  · exact hprefix

theorem diffStatus_added {before after : Option String} : diffStatus before after = some .added ↔ before = none ∧ after.isSome := by
  cases before with
  | none => cases after <;> simp [diffStatus]
  | some b =>
    cases after with
    | none => simp [diffStatus]
    | some a => by_cases h : a = b <;> simp [diffStatus, h]

/-- The paths that a commit adds are texts, one for each message file that is new in its tree. -/
theorem mem_addedPaths_iff {before after : Files π} {paths : List String} (h : addedPaths before after = .ok paths) :
    (∀ name, isMessageName name = true → before.lookup name = none → (after.lookup name).isSome →
      ∃ path ∈ paths, name = FileName.ofText path) ∧
    ∀ path ∈ paths, isMessageName (FileName.ofText path : π) = true ∧
      before.lookup (FileName.ofText path) = none ∧ (after.lookup (FileName.ofText path)).isSome := by
  obtain ⟨changes, hchanges, rfl⟩ := except_map_ok.mp h
  constructor
  · intro name hmessage hbefore hafter
    obtain ⟨hspec, hsuffix⟩ := (selects_iff name).mpr hmessage
    have hmem : (DiffStatus.added, name) ∈ diffTree before after := mem_diffTree.mpr (diffStatus_added.mpr ⟨hbefore, hafter⟩)
    obtain ⟨change, hchange, hdecode⟩ := exists_of_mapM_ok hchanges
      (List.mem_filter.mpr ⟨hmem, decide_eq_true ⟨rfl, hspec, hsuffix⟩⟩)
    exact ⟨change.2, List.mem_map_of_mem hchange, (Prod.mk.inj (decodeChange_ok hdecode)).2⟩
  · intro path hpath
    obtain ⟨change, hchange, rfl⟩ := List.mem_map.mp hpath
    obtain ⟨⟨status, name⟩, hmem, hdecode⟩ := exists_of_forall₂ (forall₂_of_mapM_ok hchanges).flip hchange
    obtain ⟨hdiff, hselect⟩ := List.mem_filter.mp hmem
    obtain ⟨rfl, rfl⟩ := Prod.mk.inj (decodeChange_ok hdecode)
    obtain ⟨hadded, hspec, hsuffix⟩ := of_decide_eq_true hselect
    rw [mem_diffTree, show change.1 = .added from hadded, diffStatus_added] at hdiff
    exact ⟨(selects_iff _).mp ⟨hspec, hsuffix⟩, hdiff⟩

/-- The files of a commit's paths come after those that were there. -/
theorem foldlM_collectPath_ok {paths : List String} {output output' : List ProjectionFile}
    (h : (paths.foldlM (fun output path => do
      let file ← collectPath objects commit (output.map ProjectionFile.path) path
      pure (output ++ [file])) output) = .ok output') :
    output'.map ProjectionFile.path = output.map ProjectionFile.path ++ paths := by
  refine foldlM_ok_prefixes (fun done (output' : List ProjectionFile) =>
    output'.map ProjectionFile.path = output.map ProjectionFile.path ++ done) ?_ (List.append_nil _).symm h
  intro done output₁ path output₂ hdone hstep
  obtain ⟨file, hfile, hstep⟩ := except_bind_ok.mp hstep
  rw [except_pure_ok] at hstep
  rw [← hstep, List.map_append, hdone, List.map_singleton, (collectPath_ok hfile).1, List.append_assoc]

theorem AddedBy.append {ds paths paths' : List String} (h : AddedBy objects commits paths) (h' : AddedBy objects ds paths') :
    AddedBy objects (commits ++ ds) (paths ++ paths') := by
  refine ⟨fun path => ?_, fun c hc => ?_⟩
  · rw [List.mem_append, h.files, h'.files, ← exists_or]
    refine exists_congr fun c => ?_
    rw [List.mem_append, or_and_right]
  · exact (List.mem_append.mp hc).elim (h.named c) (h'.named c)

/-- What a commit with one parent adds is new in its tree. -/
theorem adds_iff {before after : Files π} (hparents : objects.graph.parents commit = some [parent])
    (hbefore : objects.TreeAt parent before) (hafter : objects.TreeAt commit after) (name : π) :
    Adds objects commit name ↔ isMessageName name = true ∧ before.lookup name = none ∧ (after.lookup name).isSome := by
  have hthere : (∃ file, objects.fileAt commit name = some file) ↔ (after.lookup name).isSome := by
    rw [← Option.isSome_iff_exists, ← not_iff_not, Option.not_isSome_iff_eq_none, Option.not_isSome_iff_eq_none,
      Objects.fileAt_eq_none_iff hafter]
  constructor
  · rintro ⟨hmessage, hfile, parent', hparent', hnone⟩
    obtain ⟨ps, hps, hmem⟩ := hparent'
    obtain rfl := Option.some.inj (hps.symm.trans hparents)
    rw [List.mem_singleton.mp hmem] at hnone
    exact ⟨hmessage, (Objects.fileAt_eq_none_iff hbefore).mp hnone, hthere.mp hfile⟩
  · rintro ⟨hmessage, hnone, hfile⟩
    exact ⟨hmessage, hthere.mpr hfile, parent, ⟨_, hparents, List.mem_singleton.mpr rfl⟩,
      (Objects.fileAt_eq_none_iff hbefore).mpr hnone⟩

/-- A commit's files are those of the message files that it adds. -/
theorem collectCommit_adds {output output' : List ProjectionFile} (h : collectCommit objects output commit = .ok output') :
    ∃ paths, output'.map ProjectionFile.path = output.map ProjectionFile.path ++ paths ∧ AddedBy objects [commit] paths := by
  simp only [collectCommit, except_bind_ok, orGit_ok] at h
  obtain ⟨parent, hparent, before, hbefore, after, hafter, paths, hpaths, hfold⟩ := h
  have hparents := onlyParent_ok hparent
  have hbefore' := Objects.tree_eq_some.mp hbefore
  have hafter' := Objects.tree_eq_some.mp hafter
  obtain ⟨hall, hadded⟩ := mem_addedPaths_iff hpaths
  have hadds := adds_iff hparents hbefore' hafter'
  refine ⟨paths, foldlM_collectPath_ok hfold, fun path => ?_, ?_⟩
  · simp only [List.mem_singleton, exists_eq_left, hadds]
    refine ⟨hadded path, ?_⟩
    rintro ⟨hmessage, hnone, hfile⟩
    obtain ⟨path', hmem, heq⟩ := hall _ hmessage hnone hfile
    rwa [ofText_injective heq]
  · rintro c hc name hname
    rw [List.mem_singleton.mp hc, hadds] at hname
    obtain ⟨path, -, heq⟩ := hall name hname.1 hname.2.1 hname.2.2
    exact ⟨path, heq⟩

/-- The files that are collected are those of all message files that the commits add. -/
theorem collect_adds {files : List ProjectionFile} (h : collectProjectionFiles objects commits = .ok files) :
    AddedBy objects commits (files.map ProjectionFile.path) := by
  have hnone : AddedBy objects [] [] := ⟨by simp, by simp⟩
  refine foldlM_ok_prefixes (fun done output => AddedBy objects done (output.map ProjectionFile.path)) ?_ hnone h
  intro done output c output' hdone hstep
  obtain ⟨paths, hpaths, hadded⟩ := collectCommit_adds hstep
  exact hpaths ▸ hdone.append hadded

/-! ### Ranges and clones -/

/-- **What is collected of a validated range covers it.** -/
theorem covers_of_validated {topology : Topology} {cutover : Option Json} {identity : String} {files : List ProjectionFile}
    (hknown : objects.graph.Known head)
    (hvalid : validateActiveWriterRange runtime objects topology cutover identity base head = .ok commits)
    (hfiles : collectProjectionFiles objects commits = .ok files) :
    Covers objects base head (files.map ProjectionFile.path) := by
  obtain ⟨lane, reserved, hsegment⟩ := segment_of_validated hvalid
  have hadded := collect_adds hfiles
  have hrange : ∀ {c}, objects.graph.InRange base head c ↔ c ∈ commits := hsegment.line.mem_iff.symm
  refine ⟨hknown, hsegment.follows, fun c hc => (hsegment.between (hrange.mp hc)).1, fun c parent hc hparent => ?_,
    fun c name hc => hadded.named c (hrange.mp hc) name, fun path => ?_⟩
  · obtain ⟨-, parent', hparents, hfollows⟩ := hsegment.between (hrange.mp hc)
    obtain ⟨ps, hps, hmem⟩ := hparent
    obtain rfl := Option.some.inj (hps.symm.trans hparents)
    exact List.mem_singleton.mp hmem ▸ hfollows
  · simp only [hadded.files, hrange]

omit [FileName π] in
theorem fileAt_eq_of_extends (h : objects.Extends objects') (hc : objects.graph.Known c) (name : π) :
    objects'.fileAt c name = objects.fileAt c name := by
  obtain ⟨files, hfiles⟩ := Objects.exists_treeAt hc
  rw [Objects.fileAt_of_treeAt hfiles, Objects.fileAt_of_treeAt (h.treeAt hfiles)]
  cases hblob : files.lookup name with
  | none => rfl
  | some blob =>
    obtain ⟨content, hcontent⟩ := Option.isSome_iff_exists.mp (objects.blobs_isSome hfiles.2 hblob)
    simp [hcontent, h.blobs hcontent]

omit [FileName π] in
theorem Follows.extends (hf : Follows objects a b) (h : objects.Extends objects') (hb : objects.graph.Known b) : Follows objects' a b := by
  refine ⟨h.ancestor hb hf.ancestor, fun name file hfile => ?_⟩
  rw [fileAt_eq_of_extends h (hf.ancestor.known hb)] at hfile
  rw [fileAt_eq_of_extends h hb]
  exact hf.kept name file hfile

theorem adds_of_extends (h : objects.Extends objects') (hc : objects.graph.Known c) (name : π) :
    Adds objects' c name ↔ Adds objects c name := by
  have hnew : (∃ parent, objects'.graph.Parent parent c ∧ objects'.fileAt parent name = none) ↔
      ∃ parent, objects.graph.Parent parent c ∧ objects.fileAt parent name = none := by
    refine exists_congr fun parent => ?_
    rw [h.graph.parent_iff hc]
    refine and_congr_right fun hparent => ?_
    rw [fileAt_eq_of_extends h (hparent.ancestor.known hc)]
  constructor
  · rintro ⟨hmessage, hthere, hparent⟩
    exact ⟨hmessage, fileAt_eq_of_extends h hc name ▸ hthere, hnew.mp hparent⟩
  · rintro ⟨hmessage, hthere, hparent⟩
    exact ⟨hmessage, (fileAt_eq_of_extends h hc name).symm ▸ hthere, hnew.mpr hparent⟩

/-- What a clone sees of a range is what the repository has of it. -/
theorem Covers.extends {paths : List String} (hcovers : Covers objects base head paths) (h : objects.Extends objects') :
    Covers objects' base head paths := by
  have hhead := hcovers.known
  have hbase := hcovers.follows.ancestor.known hhead
  have hrange : ∀ {c}, objects'.graph.InRange base head c ↔ objects.graph.InRange base head c := by
    intro c
    rw [CommitGraph.InRange, CommitGraph.InRange, CommitGraph.ancestor_of_extends h.graph hhead,
      CommitGraph.ancestor_of_extends h.graph hbase]
  have hknown : ∀ {c}, objects.graph.InRange base head c → objects.graph.Known c := fun hc => hc.1.known hhead
  refine ⟨h.known hhead, hcovers.follows.extends h hhead, fun c hc => (hcovers.stays c (hrange.mp hc)).extends h hhead,
    fun c parent hc hparent => ?_, fun c name hc hadds => ?_, fun path => ?_⟩
  · have hc' := hrange.mp hc
    have hparent' := (h.graph.parent_iff (hknown hc')).mp hparent
    exact (hcovers.before c parent hc' hparent').extends h (hparent'.ancestor.known (hknown hc'))
  · have hc' := hrange.mp hc
    exact hcovers.named c name hc' ((adds_of_extends h (hknown hc') name).mp hadds)
  · rw [hcovers.files]
    refine exists_congr fun c => ?_
    rw [hrange]
    exact and_congr_right fun hc => (adds_of_extends h (hknown hc) _).symm

/-- A path that is added up to a commit is not added again after it. -/
theorem Covers.disjoint {base' head' : String} {paths paths' : List String} (hfirst : Covers objects base head paths)
    (hsecond : Covers objects base' head' paths') (hbetween : Follows objects head base') {path : String}
    (hpath : path ∈ paths) : path ∉ paths' := by
  intro hpath'
  obtain ⟨c, hc, hadds⟩ := (hfirst.files path).mp hpath
  obtain ⟨c', hc', -, -, parent, hparent, hnone⟩ := (hsecond.files path).mp hpath'
  obtain ⟨file, hfile⟩ := hadds.there
  have hkept := ((hfirst.stays c hc).trans hbetween).trans (hsecond.before c' parent hc' hparent)
  rw [hkept.kept _ _ hfile] at hnone
  cases hnone

end

/-! ### When commits are collected -/

section

variable {runtime : Runtime} {objects : Objects π} {lane : WriterLane} {reserved commits : List String}
  {base head commit parent : String}

omit [DecidableEq π] in
theorem decodeChange_ofText (status : DiffStatus) (path : String) :
    decodeChange (status, (FileName.ofText path : π)) = .ok (status, path) := by
  rw [decodeChange, text?, FileName.bytes_ofText, decode_encode, Option.map_some, String.ofList_toList]

theorem nodup_diffTree (before after : Files π) : ((diffTree before after).map Prod.snd).Nodup := by
  have hnames : ((before.keys ++ after.keys).dedup.insertionSort nameLe).Nodup :=
    (List.perm_insertionSort _ _).nodup_iff.mpr (List.nodup_dedup _)
  have hpairs : (diffTree before after).Nodup := by
    refine hnames.filterMap fun a a' b hb hb' => ?_
    obtain ⟨status, -, rfl⟩ := Option.map_eq_some_iff.mp hb
    obtain ⟨status', -, heq⟩ := Option.map_eq_some_iff.mp hb'
    exact (congrArg Prod.snd heq).symm
  refine hpairs.map_on ?_
  rintro ⟨status, name⟩ hx ⟨status', name'⟩ hy (rfl : name = name')
  rw [mem_diffTree] at hx hy
  rw [Option.some.inj (hx.symm.trans hy)]

/-- The paths of a commit whose messages have texts for names. -/
theorem exists_addedPaths {before after : Files π} (hparents : objects.graph.parents commit = some [parent])
    (hbefore : objects.TreeAt parent before) (hafter : objects.TreeAt commit after)
    (hnamed : ∀ name : π, Adds objects commit name → ∃ path, name = FileName.ofText path) :
    ∃ paths, addedPaths before after = .ok paths ∧ paths.Nodup := by
  let selected := (diffTree before after).filter fun change =>
    decide (change.1 = .added ∧ matchesPathspec "messages" change.2 = true ∧
      (encode ".md".toList).data.toList.isSuffixOf (FileName.bytes change.2).data.toList = true)
  have hdecode : ∀ change ∈ selected, ∃ decoded, decodeChange change = .ok decoded := by
    intro ⟨status, name⟩ hmem
    obtain ⟨hdiff, hselect⟩ := List.mem_filter.mp hmem
    obtain ⟨rfl, hselects⟩ := of_decide_eq_true hselect
    rw [mem_diffTree, diffStatus_added] at hdiff
    obtain ⟨path, rfl⟩ := hnamed name ((adds_iff hparents hbefore hafter name).mpr ⟨(selects_iff name).mp hselects, hdiff⟩)
    exact ⟨_, decodeChange_ofText _ path⟩
  obtain ⟨changes, hchanges⟩ := mapM_ok_of_forall hdecode
  have hnames : selected.map Prod.snd = (changes.map Prod.snd).map FileName.ofText := by
    have hall := forall₂_of_mapM_ok hchanges
    clear_value selected
    clear hdecode hchanges
    induction hall with
    | nil => rfl
    | cons hone _ ih => rw [List.map_cons, List.map_cons, List.map_cons, ih, decodeChange_ok hone]
  refine ⟨changes.map Prod.snd, except_map_ok.mpr ⟨changes, hchanges, rfl⟩, List.Nodup.of_map (FileName.ofText : String → π) ?_⟩
  rw [← hnames]
  exact (nodup_diffTree before after).sublist (List.filter_sublist.map _)

/-- A commit adds no message over the limit. -/
def AddsSmall (objects : Objects π) (commit : String) : Prop :=
  ∀ (name : π) file, Adds objects commit name → objects.fileAt commit name = some file → file.2.size ≤ maxFileBytes

/-- A commit with small messages, whose names are texts and new, is collected. -/
theorem exists_collectCommit {output : List ProjectionFile} (hparents : objects.graph.parents commit = some [parent])
    (hnamed : ∀ name : π, Adds objects commit name → ∃ path, name = FileName.ofText path) (hsmall : AddsSmall objects commit)
    (hnew : ∀ path ∈ output.map ProjectionFile.path, ¬ Adds objects commit (FileName.ofText path : π)) :
    ∃ output', collectCommit objects output commit = .ok output' := by
  have hcommit : objects.graph.Known commit := Option.isSome_iff_exists.mpr ⟨_, hparents⟩
  obtain ⟨after, hafter⟩ := Objects.exists_treeAt hcommit
  obtain ⟨before, hbefore⟩ := Objects.exists_treeAt (objects.graph.parents_isSome hparents (List.mem_singleton.mpr rfl))
  obtain ⟨paths, hpaths, hnodup⟩ := exists_addedPaths hparents hbefore hafter hnamed
  have hadds : ∀ path ∈ paths, Adds objects commit (FileName.ofText path : π) := fun path hpath =>
    (adds_iff hparents hbefore hafter _).mpr ((mem_addedPaths_iff hpaths).2 path hpath)
  have hfold : ∃ output', (paths.foldlM (fun output path => do
      let file ← collectPath objects commit (output.map ProjectionFile.path) path
      pure (output ++ [file])) output) = .ok output' := by
    refine foldlM_ok_of_prefixes (fun done (output' : List ProjectionFile) =>
      output'.map ProjectionFile.path = output.map ProjectionFile.path ++ done) ?_ (List.append_nil _).symm
    intro done output' path rest heq hdone
    rw [List.nil_append] at heq
    have hpath := hadds path (by rw [heq]; simp)
    obtain ⟨file, hfile⟩ := hpath.there
    have hseen : path ∉ output'.map ProjectionFile.path := by
      rw [hdone, List.mem_append, not_or]
      refine ⟨fun hmem => hnew path hmem hpath, fun hmem => ?_⟩
      rw [heq] at hnodup
      exact (List.nodup_append.mp hnodup).2.2 path hmem path List.mem_cons_self rfl
    have hcollect : collectPath objects commit (output'.map ProjectionFile.path) path =
        .ok ⟨path, commit, objects.committedAt commit, file.1, file.2⟩ := by
      simp only [collectPath, except_bind_ok, rejectIf_ok, orGit_ok, not_lt, except_pure_ok]
      exact ⟨(), hseen, file, hfile, (), hsmall _ file hpath hfile, rfl⟩
    refine ⟨output' ++ [_], except_bind_ok.mpr ⟨_, hcollect, rfl⟩, ?_⟩
    rw [List.map_append, hdone, List.append_assoc, List.map_singleton]
  obtain ⟨output', houtput⟩ := hfold
  refine ⟨output', ?_⟩
  simp only [collectCommit, except_bind_ok, orGit_ok]
  exact ⟨parent, by rw [onlyParent, hparents], before, Objects.tree_eq_some.mpr hbefore, after, Objects.tree_eq_some.mpr hafter,
    paths, hpaths, houtput⟩

/-- A segment goes through each of its commits. -/
theorem Segment.before {done rest : List String} (h : Segment runtime objects lane reserved base (done ++ commit :: rest) head) :
    ∃ parent, Segment runtime objects lane reserved base done parent ∧ Appends runtime objects lane reserved parent commit := by
  generalize heq : done ++ commit :: rest = commits at h
  induction h generalizing rest with
  | nil => exact absurd heq (by simp)
  | @snoc commits parent commit' hsegment happends ih =>
    cases rest using List.reverseRecOn with
    | nil =>
      obtain ⟨rfl, rfl⟩ := by simpa using heq
      exact ⟨parent, hsegment, happends⟩
    | append_singleton rest last =>
      rw [← List.cons_append, ← List.append_assoc] at heq
      obtain ⟨heq, -⟩ := List.append_inj' heq rfl
      exact ih heq

theorem Appends.named (h : Appends runtime objects lane reserved parent commit) {name : π} (hadds : Adds objects commit name) :
    ∃ path, name = FileName.ofText path := by
  obtain ⟨file, hfile⟩ := hadds.there
  obtain ⟨parent', ⟨ps, hps, hmem⟩, hnone⟩ := hadds.new
  obtain rfl := Option.some.inj (hps.symm.trans h.parents)
  rw [List.mem_singleton.mp hmem] at hnone
  obtain ⟨id, haccepted, -⟩ := h.added name file hfile hnone
  obtain ⟨path, hname, -⟩ := haccepted.text
  exact ⟨path, hname⟩

/-- **What is accepted commit by commit is collected unless a message is over the limit.** -/
theorem exists_collect_iff (h : Segment runtime objects lane reserved base commits head) :
    (∃ files, collectProjectionFiles objects commits = .ok files) ↔ ∀ c ∈ commits, AddsSmall objects c := by
  constructor
  · rintro ⟨files, hfiles⟩ c hc name file hadds hfile
    obtain ⟨path, rfl⟩ := (collect_adds hfiles).named c hc name hadds
    obtain ⟨collected, hmem, hpath⟩ := List.mem_map.mp (((collect_adds hfiles).files path).mpr ⟨c, hc, hadds⟩)
    have hcollected := collect_ok hfiles collected hmem
    -- The file is in the head's tree, whichever commit it was collected of.
    have hhead := (h.between hc).1.kept _ file hfile
    have hhead' := (h.between hcollected.commit).1.kept _ _ hcollected.stored
    rw [hpath, hhead] at hhead'
    rw [Option.some.inj hhead']
    exact hcollected.small
  · intro hsmall
    have hnone : AddedBy objects [] [] := ⟨by simp, by simp⟩
    refine foldlM_ok_of_prefixes (fun done output => AddedBy objects done (output.map ProjectionFile.path)) ?_ hnone
    intro done output c rest heq hdone
    rw [List.nil_append] at heq
    obtain ⟨parent, hsegment, happends⟩ := (heq ▸ h).before
    have hnew : ∀ path ∈ output.map ProjectionFile.path, ¬ Adds objects c (FileName.ofText path : π) := by
      intro path hpath hadds
      obtain ⟨c', hc', hadds'⟩ := (hdone.files path).mp hpath
      obtain ⟨file, hfile⟩ := hadds'.there
      obtain ⟨parent', ⟨ps, hps, hmem⟩, hnone⟩ := hadds.new
      obtain rfl := Option.some.inj (hps.symm.trans happends.parents)
      rw [List.mem_singleton.mp hmem, (hsegment.between hc').1.kept _ file hfile] at hnone
      cases hnone
    obtain ⟨output', houtput⟩ := exists_collectCommit happends.parents (fun _ => happends.named) (hsmall c (by rw [heq]; simp)) hnew
    obtain ⟨paths, hpaths, hadded⟩ := collectCommit_adds houtput
    exact ⟨output', houtput, hpaths ▸ hdone.append hadded⟩

end

end CcbCore.Lane
