import CcbCore.Lane.Transport
import CcbCore.Library.Batches

/-!
# Chunks of records

`chunk_projection_files` of `src/radar/central_projection.py` for any records and any limits.
It raises for a record whose size is none or is over the limit, and for no other reason;
else the chunks are the records in their order, each within both limits and without room
for the record after it (`chunks_exact`).
-/

namespace CcbCore.Lane

open CcbCore.Batches CcbCore.Raising
open CcbCore.CodePoints (Str lit)
open CcbCore.Radar (Value Mapping)

variable {Opaque : Type}

/-! ### The loop -/

/-- An argument that is a positive `int`. -/
def positiveLimit (code : String) : Value Opaque → Except Str ℤ
  | .int n => if n ≤ 0 then .error (lit code) else .ok n
  | _ => .error (lit code)

/-- The chunks so far, and the one that is being filled. -/
structure RecordChunking (Opaque : Type) where
  chunks : List (List (Mapping Opaque)) := []
  current : List (Mapping Opaque) := []
  currentBytes : ℤ := 0

/-- One record goes to the current chunk, or to the next; `text` is `str`. -/
def RecordChunking.add (text : Value Opaque → Str) (maxFiles maxTotalBytes : ℤ) (chunking : RecordChunking Opaque)
    (item : Mapping Opaque) : Except Str (RecordChunking Opaque) :=
  match Radar.get item "content_bytes" with
  | .int size =>
    if size < 0 then .error (lit "PROJECTION_FILE_SIZE_INVALID")
    else if maxTotalBytes < size then
      .error (lit "MESSAGE_FILE_EXCEEDS_BATCH_LIMIT:" ++ text (Radar.get item "path"))
    else if chunking.current ≠ [] ∧
        (maxFiles ≤ chunking.current.length ∨ maxTotalBytes < chunking.currentBytes + size) then
      .ok ⟨chunking.chunks ++ [chunking.current], [item], size⟩
    else .ok { chunking with current := chunking.current ++ [item], currentBytes := chunking.currentBytes + size }
  | _ => .error (lit "PROJECTION_FILE_SIZE_INVALID")

/-- The chunks when the records are at an end. -/
def RecordChunking.finish (chunking : RecordChunking Opaque) : List (List (Mapping Opaque)) :=
  if chunking.current = [] then chunking.chunks else chunking.chunks ++ [chunking.current]

/-- `chunk_projection_files`, of records and with its limits. -/
def chunkRecords (text : Value Opaque → Str) (maxFiles maxTotalBytes : Value Opaque) (files : List (Mapping Opaque)) :
    Except Str (List (List (Mapping Opaque))) := do
  let maxFiles ← positiveLimit "INVALID_MAX_FILES" maxFiles
  let maxTotalBytes ← positiveLimit "INVALID_MAX_TOTAL_BYTES" maxTotalBytes
  if files.isEmpty then return []
  let chunking ← files.foldlM (RecordChunking.add text maxFiles maxTotalBytes) {}
  return chunking.finish

/-! ### What the loop keeps -/

/-- The size of a record, if it has one. -/
def contentBytes? (item : Mapping Opaque) : Option ℤ :=
  match Radar.get item "content_bytes" with
  | .int size => if size < 0 then none else some size
  | _ => none

/-- The bytes of some records. -/
def recordBytes (files : List (Mapping Opaque)) : ℤ := (files.map fun item => (contentBytes? item).getD 0).sum

/-- A record has room in a chunk. -/
def HasRoom (maxFiles maxTotalBytes : ℤ) (chunk : List (Mapping Opaque)) (item : Mapping Opaque) : Prop :=
  chunk.length + 1 ≤ maxFiles ∧ recordBytes (chunk ++ [item]) ≤ maxTotalBytes

/-- A chunk within the limits. -/
structure InLimits (maxFiles maxTotalBytes : ℤ) (chunk : List (Mapping Opaque)) : Prop where
  count : chunk.length ≤ maxFiles
  bytes : recordBytes chunk ≤ maxTotalBytes

/-- A record that is in a chunk of its own at least. -/
def Chunkable (maxTotalBytes : ℤ) (item : Mapping Opaque) : Prop := ∃ size ∈ contentBytes? item, size ≤ maxTotalBytes

variable {text : Value Opaque → Str} {maxFiles maxTotalBytes : ℤ} {chunking chunking' : RecordChunking Opaque}
  {item : Mapping Opaque} {files : List (Mapping Opaque)}

theorem recordBytes_append (first last : List (Mapping Opaque)) :
    recordBytes (first ++ last) = recordBytes first + recordBytes last := by
  rw [recordBytes, List.map_append, List.sum_append]
  rfl

theorem recordBytes_single {size : ℤ} (h : contentBytes? item = some size) : recordBytes [item] = size := by
  simp [recordBytes, h]

/-- When a record is taken, and what it does. -/
theorem add_ok : chunking.add text maxFiles maxTotalBytes item = .ok chunking' ↔
    ∃ size, contentBytes? item = some size ∧ size ≤ maxTotalBytes ∧
      chunking' = if chunking.current ≠ [] ∧
          (maxFiles ≤ chunking.current.length ∨ maxTotalBytes < chunking.currentBytes + size) then
        ⟨chunking.chunks ++ [chunking.current], [item], size⟩
      else { chunking with current := chunking.current ++ [item], currentBytes := chunking.currentBytes + size } := by
  unfold RecordChunking.add contentBytes?
  cases hsize : Radar.get item "content_bytes" with
  | int size =>
    dsimp only
    by_cases hneg : size < 0
    · simp [hneg]
    · by_cases hlarge : maxTotalBytes < size
      · have hnot : ¬ size ≤ maxTotalBytes := not_le.mpr hlarge
        simp [hneg, hlarge, hnot]
      · rw [if_neg hneg, if_neg hlarge, if_neg hneg]
        simp only [Option.some.injEq, exists_eq_left', not_lt.mp hlarge, true_and]
        split <;> exact ⟨fun h => (Except.ok.inj h).symm, fun h => h ▸ rfl⟩
  | _ => simp

theorem exists_add_iff : (∃ chunking', chunking.add text maxFiles maxTotalBytes item = .ok chunking') ↔
    Chunkable maxTotalBytes item := by
  simp only [add_ok, Chunkable, Option.mem_def]
  constructor
  · rintro ⟨_, size, hsize, hsmall, -⟩
    exact ⟨size, hsize, hsmall⟩
  · rintro ⟨size, hsize, hsmall⟩
    exact ⟨_, size, hsize, hsmall, rfl⟩

/-- The chunks of the records so far. -/
structure RecordChunking.Holds (maxFiles maxTotalBytes : ℤ) (files : List (Mapping Opaque)) (chunking : RecordChunking Opaque) :
    Prop where
  cut : Cut (HasRoom maxFiles maxTotalBytes) files chunking.finish
  limits : ∀ chunk ∈ chunking.finish, InLimits maxFiles maxTotalBytes chunk
  begun : chunking.current = [] → chunking.chunks = []
  bytes : chunking.currentBytes = recordBytes chunking.current

theorem RecordChunking.finish_of_ne_nil (h : chunking.current ≠ []) : chunking.finish = chunking.chunks ++ [chunking.current] :=
  if_neg h

/-- A record that is taken keeps what is said of the chunks. -/
theorem RecordChunking.Holds.add (hfiles : 0 < maxFiles) (h : chunking.Holds maxFiles maxTotalBytes files)
    (hadd : chunking.add text maxFiles maxTotalBytes item = .ok chunking') :
    chunking'.Holds maxFiles maxTotalBytes (files ++ [item]) := by
  obtain ⟨size, hsize, hsmall, rfl⟩ := add_ok.mp hadd
  have hone : recordBytes [item] = size := recordBytes_single hsize
  have hlimits : InLimits maxFiles maxTotalBytes [item] := ⟨by rw [List.length_singleton]; omega, hone.trans_le hsmall⟩
  by_cases hempty : chunking.current = []
  · rw [if_neg fun hnot => hnot.1 hempty]
    have hchunks := h.begun hempty
    have hnone : files = [] := by rw [← h.cut.flatten, RecordChunking.finish, if_pos hempty, hchunks, List.flatten_nil]
    have hfinish : RecordChunking.finish { chunking with
        current := chunking.current ++ [item], currentBytes := chunking.currentBytes + size } = [[item]] := by
      simp [RecordChunking.finish, hempty, hchunks]
    refine ⟨?_, ?_, by simp, ?_⟩
    · rw [hfinish, hnone]
      exact .single item
    · rw [hfinish]
      exact List.forall_mem_singleton.mpr hlimits
    · rw [recordBytes_append, hone, ← h.bytes]
  have hcut := h.cut
  have hall := h.limits
  rw [RecordChunking.finish_of_ne_nil hempty] at hcut hall
  have htotal : recordBytes (chunking.current ++ [item]) = chunking.currentBytes + size := by
    rw [recordBytes_append, hone, h.bytes]
  by_cases hfull : maxFiles ≤ chunking.current.length ∨ maxTotalBytes < chunking.currentBytes + size
  · rw [if_pos ⟨hempty, hfull⟩]
    have hroom : ¬ HasRoom maxFiles maxTotalBytes chunking.current item := by
      rintro ⟨hcount, hbytes⟩
      rw [htotal] at hbytes
      omega
    refine ⟨?_, ?_, nofun, hone.symm⟩
    · rw [RecordChunking.finish_of_ne_nil (by simp)]
      exact hcut.next hroom
    · rw [RecordChunking.finish_of_ne_nil (by simp)]
      intro chunk hchunk
      rcases List.mem_append.mp hchunk with hchunk | hchunk
      · exact hall chunk hchunk
      · exact List.mem_singleton.mp hchunk ▸ hlimits
  · rw [if_neg fun hnot => hfull hnot.2]
    have hgrown : InLimits maxFiles maxTotalBytes (chunking.current ++ [item]) := by
      refine ⟨?_, by rw [htotal]; omega⟩
      rw [List.length_append, List.length_singleton]
      omega
    refine ⟨?_, ?_, by simp, htotal.symm⟩
    · rw [RecordChunking.finish_of_ne_nil (by simp)]
      exact hcut.grow hempty item
    · rw [RecordChunking.finish_of_ne_nil (by simp)]
      intro chunk hchunk
      rcases List.mem_append.mp hchunk with hchunk | hchunk
      · exact hall chunk (List.mem_append_left _ hchunk)
      · exact List.mem_singleton.mp hchunk ▸ hgrown

/-! ### The chunks -/

theorem positiveLimit_pos {code : String} {n : ℤ} (h : 0 < n) : positiveLimit code (.int n : Value Opaque) = .ok n :=
  if_neg (not_le.mpr h)

/-- The loop, between its checks. -/
theorem chunkRecords_eq (hfiles : 0 < maxFiles) (htotal : 0 < maxTotalBytes) :
    chunkRecords text (.int maxFiles) (.int maxTotalBytes) files =
      RecordChunking.finish <$> files.foldlM (RecordChunking.add text maxFiles maxTotalBytes) {} := by
  rw [chunkRecords, positiveLimit_pos hfiles, positiveLimit_pos htotal]
  cases files with
  | nil => rfl
  | cons item files =>
    rw [map_eq_pure_bind]
    rfl

/-- **Chunking loses nothing: with positive limits it raises exactly when a record has no size
within the limit; else the chunks are the records in their order, none is empty or over a limit,
and the first record of a chunk would have put the chunk before it over one.** -/
theorem chunks_exact (text : Value Opaque → Str) {maxFiles maxTotalBytes : ℤ} (hfiles : 0 < maxFiles) (htotal : 0 < maxTotalBytes)
    (files : List (Mapping Opaque)) :
    ((∃ e, chunkRecords text (.int maxFiles) (.int maxTotalBytes) files = .error e) ↔
      ∃ item ∈ files, ¬ Chunkable maxTotalBytes item) ∧
    ∀ chunks, chunkRecords text (.int maxFiles) (.int maxTotalBytes) files = .ok chunks →
      chunks.flatten = files ∧
      (∀ chunk ∈ chunks, chunk ≠ [] ∧ chunk.length ≤ maxFiles ∧ recordBytes chunk ≤ maxTotalBytes) ∧
      chunks.IsChain fun chunk next => ∀ item ∈ next.head?,
        maxFiles < chunk.length + 1 ∨ maxTotalBytes < recordBytes (chunk ++ [item]) := by
  rw [chunkRecords_eq hfiles htotal]
  constructor
  · have hok : (∃ chunking, files.foldlM (RecordChunking.add text maxFiles maxTotalBytes) {} = .ok chunking) ↔
        ∀ item ∈ files, Chunkable maxTotalBytes item :=
      foldlM_ok_iff (f := RecordChunking.add text maxFiles maxTotalBytes) fun _ _ => exists_add_iff
    rw [except_error_iff]
    simp only [except_map_ok]
    rw [exists_comm]
    simp only [exists_and_left, exists_eq', and_true, hok]
    push Not
    rfl
  · intro chunks hchunks
    obtain ⟨chunking, hfold, rfl⟩ := except_map_ok.mp hchunks
    have hinit : ({} : RecordChunking Opaque).Holds maxFiles maxTotalBytes [] := ⟨.nil, nofun, fun _ => rfl, rfl⟩
    have hholds := foldlM_ok_prefixes (fun done chunking => chunking.Holds maxFiles maxTotalBytes done)
      (fun _ _ _ _ hdone hadd => hdone.add hfiles hadd) hinit hfold
    rw [List.nil_append] at hholds
    refine ⟨hholds.cut.flatten, fun chunk hchunk => ?_, hholds.cut.full.imp fun chunk next hnext item hitem => ?_⟩
    · have hlimits := hholds.limits chunk hchunk
      exact ⟨hholds.cut.nonempty chunk hchunk, hlimits.count, hlimits.bytes⟩
    · have hroom := hnext item hitem
      rw [HasRoom, not_and_or, not_le, not_le] at hroom
      exact hroom

/-- Two records share a chunk, and a third has one of its own. -/
def sizedRecord (size : ℤ) : Mapping Empty := [(lit "path", .str (lit "messages/1.md")), (lit "content_bytes", .int size)]

theorem chunks_exact_sample :
    chunkRecords (fun _ => []) (.int 2) (.int 10) [sizedRecord 6, sizedRecord 4, sizedRecord 3] =
      .ok [[sizedRecord 6, sizedRecord 4], [sizedRecord 3]] ∧
    ∀ chunk ∈ [[sizedRecord 6, sizedRecord 4], [sizedRecord 3]], chunk ≠ [] ∧ chunk.length ≤ (2 : ℤ) ∧ recordBytes chunk ≤ 10 := by
  have hchunks : chunkRecords (fun _ => []) (.int 2) (.int 10) [sizedRecord 6, sizedRecord 4, sizedRecord 3] =
      .ok [[sizedRecord 6, sizedRecord 4], [sizedRecord 3]] := rfl
  exact ⟨hchunks, ((chunks_exact (fun _ => []) (by decide) (by decide) _).2 _ hchunks).2.1⟩

end CcbCore.Lane
