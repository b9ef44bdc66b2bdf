import CcbCore.Library.CommitGraph
import CcbCore.Library.Table
import CcbCore.Text.Postgres
import CcbCore.Text.Python
import Mathlib.Data.List.Sort

/-!
# The objects of a git repository

Blobs, trees and commits under names that keep what they name, and what the commands
that are run on them print. A name of a second repository with the first one's objects
(`Objects.Extends`) names there what it did. The name of a file is bytes, of a type with
`FileName`: a text is one (`String`), and so are any bytes (`Bytes`). `diffTree` is
`diff-tree -r --name-status`, which looks for no renames; `lsTree` is `ls-tree -r
--name-only`, which quotes the names with bytes out of printable ASCII.
-/

namespace CcbCore.Git

open CcbCore.Python CcbCore.Postgres

/-- The names of files. -/
class FileName (π : Type) where
  bytes : π → Bytes
  /-- The name that a text encodes to. -/
  ofText : String → π
  bytes_injective : Function.Injective bytes
  bytes_ofText : ∀ text, bytes (ofText text) = encode text.toList

theorem encode_toList (text : String) : encode text.toList = text.toByteArray := by rw [encode, String.ofList_toList]

instance : FileName String where
  bytes text := encode text.toList
  ofText := id
  bytes_injective a b h := by
    simp only [encode_toList] at h
    exact String.toByteArray_inj.mp h
  bytes_ofText _ := rfl

instance : FileName Bytes where
  bytes := id
  ofText text := encode text.toList
  bytes_injective := Function.injective_id
  bytes_ofText _ := rfl

/-- `name.decode("utf-8")`. -/
def text? {π : Type} [FileName π] (name : π) : Option String := (decode (FileName.bytes name)).map String.ofList

/-- A tree: the blob under each name. -/
abbrev Files (π : Type) := Table π String

/-- The objects of a repository: what is reached from a commit that is there, is there. -/
structure Objects (π : Type) [DecidableEq π] where
  blobs : String → Option Bytes
  trees : String → Option (Files π)
  graph : CommitGraph String
  treeOf : String → String
  committedAt : String → String
  trees_isSome : ∀ {c}, graph.Known c → (trees (treeOf c)).isSome
  blobs_isSome : ∀ {t files path blob}, trees t = some files → files.lookup path = some blob → (blobs blob).isSome
  /-- The name of a commit is 40 hexadecimal digits. -/
  isHex_name : ∀ {c}, graph.Known c → isHex 40 c = true

variable {π : Type} [DecidableEq π]

namespace Objects

/-- The tree of a commit that is there. -/
def TreeAt (objects : Objects π) (c : String) (files : Files π) : Prop :=
  objects.graph.Known c ∧ objects.trees (objects.treeOf c) = some files

/-- The tree of a commit. -/
def tree (objects : Objects π) (c : String) : Option (Files π) :=
  match objects.graph.parents c with
  | none => none
  | some _ => objects.trees (objects.treeOf c)

/-- `commit:path`: a blob's name and content. -/
def fileAt (objects : Objects π) (c : String) (path : π) : Option (String × Bytes) :=
  (objects.tree c).bind fun files => (files.lookup path).bind fun blob => (objects.blobs blob).map (Prod.mk blob)

/-- The second repository has the objects of the first. -/
structure Extends (objects objects' : Objects π) : Prop where
  blobs : ∀ {blob content}, objects.blobs blob = some content → objects'.blobs blob = some content
  trees : ∀ {t files}, objects.trees t = some files → objects'.trees t = some files
  graph : objects.graph.Extends objects'.graph
  treeOf : ∀ {c}, objects.graph.Known c → objects'.treeOf c = objects.treeOf c

variable {objects objects' objects'' : Objects π} {c : String} {files files' : Files π}

theorem tree_eq_some : objects.tree c = some files ↔ objects.TreeAt c files := by
  cases hps : objects.graph.parents c with
  | none => simp [tree, TreeAt, CommitGraph.Known, hps]
  | some ps => simp [tree, TreeAt, CommitGraph.Known, hps]

theorem Extends.refl (objects : Objects π) : objects.Extends objects := ⟨id, id, .refl _, fun _ => rfl⟩

theorem Extends.known (h : objects.Extends objects') (hc : objects.graph.Known c) : objects'.graph.Known c := by
  obtain ⟨ps, hps⟩ := Option.isSome_iff_exists.mp hc
  exact Option.isSome_iff_exists.mpr ⟨ps, h.graph c ps hps⟩

theorem Extends.trans (h : objects.Extends objects') (h' : objects'.Extends objects'') : objects.Extends objects'' :=
  ⟨h'.blobs ∘ h.blobs, h'.trees ∘ h.trees, h.graph.trans h'.graph,
    fun hc => (h'.treeOf (h.known hc)).trans (h.treeOf hc)⟩

theorem Extends.treeAt (h : objects.Extends objects') (ht : objects.TreeAt c files) : objects'.TreeAt c files :=
  ⟨h.known ht.1, by rw [h.treeOf ht.1]; exact h.trees ht.2⟩

theorem Extends.ancestor (h : objects.Extends objects') {a : String} (hc : objects.graph.Known c)
    (hac : objects.graph.Ancestor a c) : objects'.graph.Ancestor a c :=
  (CommitGraph.ancestor_of_extends h.graph hc).mpr hac

theorem TreeAt.unique (h : objects.TreeAt c files) (h' : objects.TreeAt c files') : files = files' :=
  Option.some.inj (h.2.symm.trans h'.2)

theorem exists_treeAt (hc : objects.graph.Known c) : ∃ files, objects.TreeAt c files := by
  obtain ⟨files, hfiles⟩ := Option.isSome_iff_exists.mp (objects.trees_isSome hc)
  exact ⟨files, hc, hfiles⟩

theorem fileAt_of_treeAt {path : π} (h : objects.TreeAt c files) :
    objects.fileAt c path = (files.lookup path).bind fun blob => (objects.blobs blob).map (Prod.mk blob) := by
  rw [fileAt, tree_eq_some.mpr h, Option.bind_some]

/-- A path at which there is no file is no path of the tree. -/
theorem fileAt_eq_none_iff {path : π} (h : objects.TreeAt c files) :
    objects.fileAt c path = none ↔ files.lookup path = none := by
  rw [fileAt_of_treeAt h]
  cases hblob : files.lookup path with
  | none => simp
  | some blob =>
    obtain ⟨content, hcontent⟩ := Option.isSome_iff_exists.mp (objects.blobs_isSome h.2 hblob)
    simp [hcontent]

end Objects

theorem lower_of_isHex {n : ℕ} {name : String} (h : isHex n name = true) : lower name = name := by
  have hall : ∀ c ∈ name.toList, lowerChar c = c := by
    intro c hc
    have hdigit := List.all_eq_true.mp (of_decide_eq_true h).2 c hc
    simp only [isHexDigit, decide_eq_true_eq] at hdigit
    unfold lowerChar
    rw [if_neg]
    rintro ⟨hA, hZ⟩
    simp only [Char.le_def, UInt32.le_iff_toNat_le] at *
    rcases hdigit with ⟨-, h9⟩ | ⟨ha, -⟩
    · exact absurd (hA.trans h9) (by decide)
    · exact absurd (ha.trans hZ) (by decide)
  rw [lower, List.map_congr_left hall, List.map_id', String.ofList_toList]

/-- The name of a commit is lower-case. -/
theorem Objects.lower_eq (objects : Objects π) {c : String} (hc : objects.graph.Known c) : lower c = c :=
  lower_of_isHex (objects.isHex_name hc)

/-! ### Differences -/

/-- The status of a path in a difference. -/
inductive DiffStatus where
  | added
  | deleted
  | modified
  deriving DecidableEq, Repr

/-- The status of a path with one blob in a tree, and another in a second. -/
def diffStatus (before after : Option String) : Option DiffStatus :=
  match before, after with
  | none, none => none
  | none, some _ => some .added
  | some _, none => some .deleted
  | some b, some a => if a = b then none else some .modified

variable [FileName π]

/-- The order of the names. -/
def nameLe (a b : π) : Prop := (FileName.bytes a).data.toList ≤ (FileName.bytes b).data.toList

instance : DecidableRel (nameLe (π := π)) := fun a b =>
  inferInstanceAs (Decidable ((FileName.bytes a).data.toList ≤ (FileName.bytes b).data.toList))

/-- `diff-tree -r --name-status`, in the order of the names. -/
def diffTree (before after : Files π) : List (DiffStatus × π) :=
  ((before.keys ++ after.keys).dedup.insertionSort nameLe).filterMap fun path =>
    (diffStatus (before.lookup path) (after.lookup path)).map fun status => (status, path)

theorem mem_diffTree {before after : Files π} {status : DiffStatus} {path : π} :
    (status, path) ∈ diffTree before after ↔ diffStatus (before.lookup path) (after.lookup path) = some status := by
  simp only [diffTree, List.mem_filterMap, List.mem_insertionSort, Option.map_eq_some_iff, Prod.mk.injEq]
  constructor
  · rintro ⟨path', -, status', hstatus, rfl, rfl⟩
    exact hstatus
  · intro h
    refine ⟨path, ?_, status, h, rfl, rfl⟩
    by_contra hnone
    rw [List.mem_dedup, List.mem_append, not_or, ← AList.mem_keys, ← AList.mem_keys, ← AList.lookup_eq_none,
      ← AList.lookup_eq_none] at hnone
    simp [hnone.1, hnone.2, diffStatus] at h

/-! ### Listings of a tree -/

/-- A byte that `core.quotePath` escapes. -/
def escapes (byte : UInt8) : Bool := byte < 0x20 || 0x7f ≤ byte || byte = 0x22 || byte = 0x5c

/-- A byte in a quoted name. -/
def escapeByte (byte : UInt8) : List Char :=
  if byte = 0x07 then ['\\', 'a'] else if byte = 0x08 then ['\\', 'b'] else if byte = 0x09 then ['\\', 't']
  else if byte = 0x0a then ['\\', 'n'] else if byte = 0x0b then ['\\', 'v'] else if byte = 0x0c then ['\\', 'f']
  else if byte = 0x0d then ['\\', 'r'] else if byte = 0x22 then ['\\', '"'] else if byte = 0x5c then ['\\', '\\']
  else if escapes byte = true then
    ['\\', Nat.digitChar (byte.toNat / 64), Nat.digitChar (byte.toNat / 8 % 8), Nat.digitChar (byte.toNat % 8)]
  else [Char.ofNat byte.toNat]

/-- Git quotes a name. -/
def isQuoted (name : π) : Bool := (FileName.bytes name).data.toList.any escapes

/-- A name as git prints it. -/
def quoteName (name : π) : List Char :=
  if isQuoted name = true then '"' :: (FileName.bytes name).data.toList.flatMap escapeByte ++ ['"']
  else (FileName.bytes name).data.toList.map fun byte => Char.ofNat byte.toNat

/-- A name is that of a file, or is in a directory. -/
def matchesPathspec (pathspec : String) (name : π) : Bool :=
  (FileName.bytes name).data.toList = (encode pathspec.toList).data.toList ∨
    (encode (pathspec ++ "/").toList).data.toList.isPrefixOf (FileName.bytes name).data.toList

/-- `ls-tree -r --name-only -- messages`. -/
def lsTree (files : Files π) : List (List Char) :=
  ((files.keys.filter (matchesPathspec "messages")).insertionSort nameLe).map quoteName

end CcbCore.Git
