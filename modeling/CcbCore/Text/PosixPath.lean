import CcbCore.Text.CodePoints

/-!
# Pure paths

`PurePosixPath` of Python's `pathlib`, a root and segments of which none is empty or `.`, and
the location that a path leads to from a directory, where `..` goes up. A text of segments
with slashes between them is read back as these segments (`parse_text`), and segments
without `..` lead straight down (`follow_segments`).
-/

namespace CcbCore.PosixPath

open CcbCore.CodePoints
open CcbCore.Python (CodePoint)

/-- `/`. -/
def slash : CodePoint := 0x2f

/-- What a path keeps of its text between slashes. -/
def IsSegment (text : Str) : Prop := text ≠ [] ∧ text ≠ lit "." ∧ slash ∉ text

instance : DecidablePred IsSegment := fun text => inferInstanceAs (Decidable (text ≠ [] ∧ text ≠ lit "." ∧ slash ∉ text))

/-- A segment of a path. -/
abbrev Segment := {text : Str // IsSegment text}

/-- `..`. -/
def up : Segment := ⟨lit "..", by decide⟩

/-- The root of a path: exactly two slashes are a root of their own. -/
inductive Root where
  | relative
  | single
  | double
  deriving DecidableEq, Repr

/-- The root among the parts of a path. -/
def Root.parts : Root → List Str
  | .relative => []
  | .single => [lit "/"]
  | .double => [lit "//"]

/-- `PurePosixPath`. -/
structure PurePath where
  root : Root
  segments : List Segment

/-- `posixpath.splitroot`. -/
def splitroot (text : Str) : Root × Str :=
  if text.take 1 ≠ [slash] then (.relative, text)
  else if (text.drop 1).take 1 ≠ [slash] ∨ (text.drop 2).take 1 = [slash] then (.single, text.drop 1)
  else (.double, text.drop 2)

/-- A text between slashes, if a path keeps it. -/
def segment? (text : Str) : Option Segment := if h : IsSegment text then some ⟨text, h⟩ else none

/-- `PurePosixPath(text)`. -/
def parse (text : Str) : PurePath :=
  ⟨(splitroot text).1, ((splitroot text).2.splitOn slash).filterMap segment?⟩

namespace PurePath

/-- `path / text`: an absolute path replaces the one before it. -/
def join (path : PurePath) (text : Str) : PurePath :=
  if (parse text).root = .relative then ⟨path.root, path.segments ++ (parse text).segments⟩ else parse text

/-- `path.parts`. -/
def parts (path : PurePath) : List Str := path.root.parts ++ path.segments.map Subtype.val

/-- `path.is_absolute()`. -/
def isAbsolute (path : PurePath) : Bool := path.root != .relative

end PurePath

/-! ### Locations -/

/-- A location: segments from the root of the file system, without `..`. -/
structure Location where
  segments : List Segment
  resolved : up ∉ segments

namespace Location

/-- The root of the file system. -/
def root : Location := ⟨[], List.not_mem_nil⟩

/-- A segment further: `..` goes up, and stays at the root. -/
def enter (location : Location) (segment : Segment) : Location :=
  if h : segment = up then ⟨location.segments.dropLast, fun hmem => location.resolved (List.dropLast_subset _ hmem)⟩
  else
    ⟨location.segments ++ [segment], fun hmem => by
      rcases List.mem_append.mp hmem with hmem | hmem
      · exact location.resolved hmem
      · exact h (List.mem_singleton.mp hmem).symm⟩

/-- Where segments lead. -/
def follow (location : Location) (segments : List Segment) : Location := segments.foldl enter location

/-- Where a path leads from a directory. -/
def locate (directory : Location) (path : PurePath) : Location :=
  (if path.root = .relative then directory else root).follow path.segments

/-- The directory holds the location, or is it. -/
def Within (location directory : Location) : Prop := directory.segments <+: location.segments

/-- The location is in the directory, and not the directory. -/
def StrictlyBelow (location directory : Location) : Prop :=
  location.Within directory ∧ location.segments ≠ directory.segments

theorem follow_segments {location : Location} {segments : List Segment} (h : up ∉ segments) :
    (location.follow segments).segments = location.segments ++ segments := by
  induction segments generalizing location with
  | nil => simp [follow]
  | cons segment segments ih =>
    rw [List.mem_cons, not_or] at h
    rw [follow, List.foldl_cons, ← follow, ih h.2, enter, dif_neg (Ne.symm h.1)]
    simp

end Location

/-! ### Reading a path back -/

/-- Segments with slashes between them. -/
def text (segments : List Segment) : Str := [slash].intercalate (segments.map Subtype.val)

theorem splitroot_relative {path : Str} (h : path.head? ≠ some slash) : splitroot path = (.relative, path) := by
  rw [splitroot, if_pos]
  cases path with
  | nil => simp
  | cons c path => simpa using h

theorem head?_text {segments : List Segment} : (text segments).head? ≠ some slash := by
  cases segments with
  | nil => simp [text]
  | cons segment segments =>
    obtain ⟨chars, hne, -, hslash⟩ := segment
    obtain ⟨c, rest, rfl⟩ := List.exists_cons_of_ne_nil hne
    have hc : c ≠ slash := fun heq => hslash (heq ▸ List.mem_cons_self)
    cases segments <;> simpa [text] using hc

theorem filterMap_segment? (segments : List Segment) : (segments.map Subtype.val).filterMap segment? = segments := by
  induction segments with
  | nil => rfl
  | cons segment segments ih =>
    rw [List.map_cons, List.filterMap_cons_some (b := segment) (by rw [segment?, dif_pos segment.2]), ih]

/-- A text of segments is read back. -/
theorem parse_text {segments : List Segment} (h : segments ≠ []) : parse (text segments) = ⟨.relative, segments⟩ := by
  rw [parse, splitroot_relative head?_text]
  have hsplit : (text segments).splitOn slash = segments.map Subtype.val := by
    refine List.splitOn_intercalate slash (fun chars hchars => ?_) (mt List.map_eq_nil_iff.mp h)
    obtain ⟨segment, -, rfl⟩ := List.mem_map.mp hchars
    exact segment.2.2.2
  rw [hsplit, filterMap_segment?]

end CcbCore.PosixPath
