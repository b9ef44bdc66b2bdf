import CcbCore.Lane.Segment

/-!
# Collecting and chunking

What `collect_projection_files` gives of a commit is a file that the commit adds, as it is
in the commit's tree (`collect_ok`); and `chunk_projection_files` cuts the files into chunks
in their order, each within the number of files and their bytes (`chunk_ok`).
-/

namespace CcbCore.Lane

open CcbCore.Python CcbCore.Git CcbCore.Raising

variable {π : Type} [DecidableEq π] [FileName π] {objects : Objects π} {commits : List String} {commit : String}
  {file : ProjectionFile} {files output output' : List ProjectionFile}

/-! ### Collecting -/

/-- A file that one of the commits adds. -/
structure Collected (objects : Objects π) (commits : List String) (file : ProjectionFile) : Prop where
  commit : file.sourceCommit ∈ commits
  date : file.sourceCommittedAt = objects.committedAt file.sourceCommit
  stored : objects.fileAt file.sourceCommit (FileName.ofText file.path) = some (file.blobSha, file.content)
  added : ∃ parent, objects.graph.parents file.sourceCommit = some [parent] ∧
    objects.fileAt parent (FileName.ofText file.path) = none
  small : file.contentBytes ≤ maxFileBytes

theorem mem_addedPaths {before after : Files π} {paths : List String} (h : addedPaths before after = .ok paths) {path : String}
    (hpath : path ∈ paths) : before.lookup (FileName.ofText path) = none := by
  obtain ⟨changes, hchanges, rfl⟩ := except_map_ok.mp h
  obtain ⟨change, hchange, rfl⟩ := List.mem_map.mp hpath
  obtain ⟨⟨status, name⟩, hmem, hdecode⟩ := exists_of_forall₂ (forall₂_of_mapM_ok hchanges).flip hchange
  obtain ⟨hdiff, hselect⟩ := List.mem_filter.mp hmem
  obtain ⟨rfl, rfl⟩ := Prod.mk.inj (decodeChange_ok hdecode)
  have hadded : change.1 = .added := (of_decide_eq_true hselect).1
  rw [hadded, mem_diffTree] at hdiff
  cases hbefore : before.lookup (FileName.ofText change.2) with
  | none => rfl
  | some blob =>
    rw [hbefore] at hdiff
    cases hafter : after.lookup (FileName.ofText change.2) with
    | none =>
      rw [hafter] at hdiff
      cases hdiff
    | some blob' =>
      rw [hafter, diffStatus] at hdiff
      split at hdiff <;> cases hdiff

theorem collectPath_ok {seen : List String} {path : String} (h : collectPath objects commit seen path = .ok file) :
    file.path = path ∧ file.sourceCommit = commit ∧ file.sourceCommittedAt = objects.committedAt commit ∧
      objects.fileAt commit (FileName.ofText path) = some (file.blobSha, file.content) ∧ file.contentBytes ≤ maxFileBytes := by
  simp only [collectPath, except_bind_ok, rejectIf_ok, orGit_ok, not_lt, except_pure_ok] at h
  obtain ⟨-, -, ⟨blobSha, content⟩, hfile, -, hsmall, rfl⟩ := h
  exact ⟨rfl, rfl, rfl, hfile, hsmall⟩

/-- The files of a commit are files that it adds. -/
theorem collectCommit_ok (h : collectCommit objects output commit = .ok output') (hcommit : commit ∈ commits)
    (houtput : ∀ file ∈ output, Collected objects commits file) : ∀ file ∈ output', Collected objects commits file := by
  simp only [collectCommit, except_bind_ok, orGit_ok] at h
  obtain ⟨parent, hparent, before, hbefore, after, -, paths, hpaths, hfold⟩ := h
  refine foldlM_ok_keeps (fun output => ∀ file ∈ output, Collected objects commits file) ?_ houtput hfold
  intro path hpath output output' houtput hstep file hmem
  obtain ⟨file', hfile, hstep⟩ := except_bind_ok.mp hstep
  rw [except_pure_ok] at hstep
  rw [← hstep] at hmem
  rcases List.mem_append.mp hmem with hmem | hmem
  · exact houtput file hmem
  · obtain rfl := List.mem_singleton.mp hmem
    obtain ⟨rfl, rfl, hdate, hstored, hsmall⟩ := collectPath_ok hfile
    have hnone := (Objects.fileAt_eq_none_iff (Objects.tree_eq_some.mp hbefore)).mpr (mem_addedPaths hpaths hpath)
    exact ⟨hcommit, hdate, hstored, ⟨parent, onlyParent_ok hparent, hnone⟩, hsmall⟩

/-- **What is collected of some commits is what they add.** -/
theorem collect_ok (h : collectProjectionFiles objects commits = .ok files) : ∀ file ∈ files, Collected objects commits file :=
  foldlM_ok_keeps (fun output => ∀ file ∈ output, Collected objects commits file)
    (fun _ hcommit _ _ houtput hstep => collectCommit_ok hstep hcommit houtput) (fun _ hmem => absurd hmem List.not_mem_nil) h

/-! ### Chunking -/

/-- The bytes of some files. -/
def totalBytes (files : List ProjectionFile) : ℕ := (files.map ProjectionFile.contentBytes).sum

/-- A chunk that is within the limits. -/
structure Within (chunk : List ProjectionFile) : Prop where
  count : chunk.length ≤ maxFiles
  bytes : totalBytes chunk ≤ maxTotalBytes

/-- The chunks of the files so far. -/
structure Chunking.Holds (chunking : Chunking) (files : List ProjectionFile) : Prop where
  files : chunking.chunks.flatten ++ chunking.current = files
  chunks : ∀ chunk ∈ chunking.chunks, Within chunk
  current : Within chunking.current
  bytes : chunking.currentBytes = totalBytes chunking.current

theorem Chunking.Holds.add {chunking chunking' : Chunking} (h : chunking.Holds files) (hadd : chunking.add file = .ok chunking') :
    chunking'.Holds (files ++ [file]) := by
  unfold Chunking.add at hadd
  dsimp only at hadd
  split at hadd
  · cases hadd
  · next hsmall =>
    have hone : Within [file] := ⟨by simp [maxFiles], by simpa [totalBytes] using hsmall⟩
    split at hadd
    · cases hadd
      refine ⟨?_, ?_, hone, by simp [totalBytes]⟩
      · rw [List.flatten_append, ← h.files]
        simp
      · intro chunk hchunk
        rcases List.mem_append.mp hchunk with hchunk | hchunk
        · exact h.chunks chunk hchunk
        · exact List.mem_singleton.mp hchunk ▸ h.current
    · next hroom =>
      cases hadd
      have htotal : totalBytes (chunking.current ++ [file]) = totalBytes chunking.current + file.contentBytes := by
        simp [totalBytes]
      refine ⟨by rw [← h.files, List.append_assoc], h.chunks, ?_, by rw [htotal, h.bytes]⟩
      by_cases hempty : chunking.current = []
      · rw [hempty]
        exact hone
      · rw [not_and, not_or, not_le, not_lt, h.bytes] at hroom
        obtain ⟨hcount, hbytes⟩ := hroom hempty
        exact ⟨by rw [List.length_append, List.length_singleton]; exact hcount, by rwa [htotal]⟩

/-- **The chunks are the files in their order, each chunk within the limits.** -/
theorem chunk_ok {chunks : List (List ProjectionFile)} (h : chunkProjectionFiles files = .ok chunks) :
    chunks.flatten = files ∧ ∀ chunk ∈ chunks, Within chunk := by
  obtain ⟨chunking, hfold, rfl⟩ := except_map_ok.mp h
  have hinit : ({} : Chunking).Holds [] := ⟨rfl, nofun, ⟨Nat.zero_le _, Nat.zero_le _⟩, rfl⟩
  have hholds := foldlM_ok_prefixes (fun done chunking => chunking.Holds done) (fun _ _ _ _ hdone hadd => hdone.add hadd) hinit hfold
  rw [List.nil_append] at hholds
  split
  · next hempty =>
    have hfiles := hholds.files
    rw [hempty, List.append_nil] at hfiles
    exact ⟨hfiles, hholds.chunks⟩
  · refine ⟨by rw [List.flatten_append, ← hholds.files]; simp, fun chunk hchunk => ?_⟩
    rcases List.mem_append.mp hchunk with hchunk | hchunk
    · exact hholds.chunks chunk hchunk
    · exact List.mem_singleton.mp hchunk ▸ hholds.current

end CcbCore.Lane
