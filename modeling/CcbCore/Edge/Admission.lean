import CcbCore.Edge.Names
import CcbCore.Library.Raising
import CcbCore.Radar.RoundTrip
import CcbCore.Radar.TextSize
import CcbCore.Text.Base64
import Mathlib.Algebra.Order.BigOperators.Group.List

/-!
# The limits of the Edge function

What `supabase/functions/github-bus-ingest/handler.ts` holds a `project_batch` request to:
the bytes of its body, how many files it has and under which paths, the bytes that their
base64 stands for together, and those of each. The checks of its sender are made in
between, and are left out, as is what is done with a file. `JSON.parse` gives a `Value`, as
`json.loads` does; a text with a lone surrogate, which UTF-8 has not, is no text here.
-/

namespace CcbCore.Edge

open CcbCore.Python CcbCore.JavaScript CcbCore.Raising
open CcbCore.CodePoints (Str point)
open CcbCore.Radar (Value Mapping Interpreter)

variable {Opaque : Type}

/-! ### Bodies -/

/-- `MAX_FILE_BYTES`. -/
def maxFileBytes : ℕ := 512 * 1024

/-- `MAX_BATCH_BYTES`. -/
def maxBatchBytes : ℕ := 5 * 1024 * 1024

/-- `MAX_REQUEST_BYTES`. -/
def maxRequestBytes : ℕ := 8 * 1024 * 1024

/-- `reader.read()` until it is done, after some bytes. -/
def readRest (maxBytes : ℕ) (bytes : Bytes) : List Bytes → Except HttpError Bytes
  | [] => .ok bytes
  | value :: values =>
    if maxBytes < bytes.size + value.size then .error ⟨413, "REQUEST_TOO_LARGE"⟩
    else readRest maxBytes (bytes ++ value) values

/-- `readRequestBodyBounded`, of the chunks that its reader gives. -/
def readRequestBodyBounded (chunks : List Bytes) (maxBytes : ℕ) : Except HttpError Bytes := readRest maxBytes .empty chunks

/-- The bytes of a body. -/
def bodyOf (chunks : List Bytes) : Bytes := chunks.foldl (· ++ ·) .empty

/-- `new TextDecoder("utf-8", { fatal: true }).decode(bytes)`, which leaves a byte order mark
out. -/
def decodeText (bytes : Bytes) : Option (List Char) :=
  (decode bytes).map fun text => if text.head? = some '\ufeff' then text.tail else text

/-- `JSON.parse`. -/
structure JsonParser (Opaque : Type) where
  parse : List Char → Option (Value Opaque)
  /-- Of what is written of a value it is the value, if its numbers are safe integers. -/
  parse_text : ∀ (py : Interpreter Opaque) (value : Value Opaque) (text : Str) (chars : List Char), value.Exact →
    value.all (fun n => n.natAbs < 2 ^ 53) (fun _ => true) (fun _ => true) = true →
    value.text py Radar.canonicalFormat = .ok text → chars.map point = text → parse chars = some value.sorted

/-- The object in a body. -/
def parseRequest (parser : JsonParser Opaque) (rawBody : Bytes) : Except HttpError (Mapping Opaque) :=
  match decodeText rawBody with
  | none => .error ⟨400, "JSON_BODY_UTF8_INVALID"⟩
  | some text =>
    match parser.parse text with
    | none => .error ⟨400, "JSON_BODY_INVALID"⟩
    | some (.object fields) => .ok fields
    | some _ => .error (unprocessable "REQUEST_OBJECT_REQUIRED")

/-! ### Values -/

/-- A text without surrogates. -/
def stringOf (text : Str) : Option String := (scalars text).map String.ofList

mutual

/-- A value as the checks tell values apart. -/
def jsonOf : Value Opaque → Json
  | .null => .null
  | .str text => ((stringOf text).map Json.string).getD .other
  | .object fields => .object (fieldsOf fields)
  | _ => .other

@[inherit_doc jsonOf]
def fieldsOf : Mapping Opaque → List (String × Json)
  | [] => []
  | (key, value) :: fields =>
    match stringOf key with
    | some name => (name, jsonOf value) :: fieldsOf fields
    | none => fieldsOf fields

end

/-- The items of `raw.files`. -/
def filesOf (raw : Mapping Opaque) : Option (List Json) :=
  match Radar.get raw "files" with
  | .array items => some (items.map jsonOf)
  | _ => none

/-! ### Contents -/

/-- `base64Bytes`. -/
def base64Bytes (value : String) : Except HttpError (List UInt8) :=
  match Base64.atob value.toList with
  | some bytes => .ok bytes
  | none => .error (unprocessable "SOURCE_CONTENT_BASE64_INVALID")

/-- `estimatedBase64Size`. -/
def estimatedBase64Size (base64 : String) : ℤ :=
  let len := utf16Length base64.toList
  if len = 0 then 0
  else
    let padding := if endsWith base64 "==" then 2 else if endsWith base64 "=" then 1 else 0
    (len * 3 / 4 : ℕ) - padding

/-- The running total of a batch. -/
def boundBatch (totalBytes : ℤ) : List SourceFile → Except HttpError PUnit
  | [] => .ok ⟨⟩
  | file :: files =>
    if maxBatchBytes < totalBytes + estimatedBase64Size file.contentBase64 then .error ⟨413, "BATCH_TOO_LARGE"⟩
    else boundBatch (totalBytes + estimatedBase64Size file.contentBase64) files

/-- What `projectFile` begins with. -/
def boundFile (file : SourceFile) : Except HttpError PUnit := do
  let bytes ← base64Bytes file.contentBase64
  rejectIf (maxFileBytes < bytes.length) (unprocessable "MESSAGE_FILE_TOO_LARGE")

/-- The limits that a `project_batch` request is held to. -/
def admitBatch (engine : Engine) (parser : JsonParser Opaque) (chunks : List Bytes) : Except HttpError (List SourceFile) := do
  let rawBody ← readRequestBodyBounded chunks maxRequestBytes
  let raw ← parseRequest parser rawBody
  let files ← parseSourceFiles engine (filesOf raw)
  boundBatch 0 files
  files.forM boundFile
  return files

/-! ### What is within the limits -/

variable {chunks : List Bytes} {bytes : Bytes} {maxBytes : ℕ}

theorem size_le_foldl (values : List Bytes) : bytes.size ≤ (values.foldl (· ++ ·) bytes).size := by
  induction values generalizing bytes with
  | nil => exact le_rfl
  | cons value values ih =>
    refine le_trans ?_ ih
    rw [ByteArray.size_append]
    exact Nat.le_add_right _ _

theorem readRest_ok {values : List Bytes} (h : bytes.size ≤ maxBytes) {rawBody : Bytes} :
    readRest maxBytes bytes values = .ok rawBody ↔
      (values.foldl (· ++ ·) bytes).size ≤ maxBytes ∧ rawBody = values.foldl (· ++ ·) bytes := by
  induction values generalizing bytes with
  | nil => simp [readRest, h, eq_comm]
  | cons value values ih =>
    rw [readRest]
    by_cases hsize : maxBytes < (bytes ++ value).size
    · have hall : maxBytes < ((value :: values).foldl (· ++ ·) bytes).size := lt_of_lt_of_le hsize (size_le_foldl values)
      rw [if_pos (by rwa [ByteArray.size_append] at hsize)]
      exact iff_of_false nofun fun hok => absurd hok.1 (not_le.mpr hall)
    · rw [if_neg (by rwa [ByteArray.size_append] at hsize), ih (not_lt.mp hsize)]
      rfl

/-- A body is read when it is not too large, however it comes in chunks. -/
theorem readRequestBodyBounded_ok {rawBody : Bytes} :
    readRequestBodyBounded chunks maxBytes = .ok rawBody ↔ (bodyOf chunks).size ≤ maxBytes ∧ rawBody = bodyOf chunks :=
  readRest_ok (Nat.zero_le _)

theorem utf16Length_ascii {text : List Char} (h : ∀ c ∈ text, c.val < 0x80) : utf16Length text = text.length := by
  induction text with
  | nil => rfl
  | cons c text ih =>
    rw [List.forall_mem_cons] at h
    have hlow : c.val < 0x10000 := UInt32.lt_trans h.1 (by decide)
    rw [utf16Length] at ih
    rw [utf16Length, List.map_cons, List.sum_cons, ih h.2, if_pos hlow, List.length_cons, Nat.add_comm]

/-- The estimate is exact for what is written. -/
theorem estimatedBase64Size_b64encode (data : List UInt8) :
    estimatedBase64Size (String.ofList (Base64.b64encode data)) = data.length := by
  have hlength : utf16Length (Base64.b64encode data) = 4 * ((data.length + 2) / 3) := by
    rw [utf16Length_ascii fun c hc => (Base64.b64encode_facts hc).1, Base64.length_b64encode]
  have htext : (String.ofList (Base64.b64encode data)).toList = Base64.b64encode data := String.toList_ofList
  have hone : endsWith (String.ofList (Base64.b64encode data)) "=" = true ↔ 1 ≤ Base64.padding data.length := by
    rw [endsWith, List.isSuffixOf_iff_suffix, htext]
    exact Base64.suffix_b64encode 1
  have htwo : endsWith (String.ofList (Base64.b64encode data)) "==" = true ↔ 2 ≤ Base64.padding data.length := by
    rw [endsWith, List.isSuffixOf_iff_suffix, htext]
    exact Base64.suffix_b64encode 2
  unfold estimatedBase64Size
  simp only [htext, hlength, hone, htwo, Base64.padding]
  split_ifs <;> omega

theorem base64Bytes_b64encode (data : List UInt8) : base64Bytes (String.ofList (Base64.b64encode data)) = .ok data := by
  rw [base64Bytes, String.toList_ofList, Base64.atob_b64encode]

theorem boundFile_ok {file : SourceFile} {data : List UInt8} (h : file.contentBase64 = String.ofList (Base64.b64encode data))
    {u : PUnit} : boundFile file = .ok u ↔ data.length ≤ maxFileBytes := by
  simp only [boundFile, h, base64Bytes_b64encode, except_bind_ok, Except.ok.injEq, rejectIf_ok, not_lt]
  constructor
  · rintro ⟨_, heq, hsize⟩
    exact heq ▸ hsize
  · exact fun hsize => ⟨data, rfl, hsize⟩

/-- A batch is within its limit when all that it stands for is. -/
theorem boundBatch_ok {files : List SourceFile} {totalBytes : ℤ} (htotal : totalBytes ≤ maxBatchBytes)
    (hsizes : ∀ file ∈ files, 0 ≤ estimatedBase64Size file.contentBase64) {u : PUnit} :
    boundBatch totalBytes files = .ok u ↔
      totalBytes + (files.map fun file => estimatedBase64Size file.contentBase64).sum ≤ maxBatchBytes := by
  induction files generalizing totalBytes with
  | nil => simp [boundBatch, htotal]
  | cons file files ih =>
    rw [List.forall_mem_cons] at hsizes
    rw [boundBatch, List.map_cons, List.sum_cons, ← add_assoc]
    by_cases hlarge : (maxBatchBytes : ℤ) < totalBytes + estimatedBase64Size file.contentBase64
    · have hrest : 0 ≤ (files.map fun file => estimatedBase64Size file.contentBase64).sum :=
        List.sum_nonneg fun size hsize => by
          obtain ⟨file', hfile', rfl⟩ := List.mem_map.mp hsize
          exact hsizes.2 file' hfile'
      simp only [if_pos hlarge, reduceCtorEq, false_iff, not_le]
      omega
    · rw [if_neg hlarge, ih (not_lt.mp hlarge) hsizes.2]

/-! ### Fields -/

theorem stringOf_lit (text : String) : stringOf (CodePoints.lit text) = some text := by
  have hscalars (chars : List Char) : scalars (chars.map point) = some chars := by
    induction chars with
    | nil => rfl
    | cons c chars ih =>
      rw [List.map_cons, CodePoints.scalars_cons, dif_pos (show Nat.isValidChar (point c).val from c.valid), ih]
      rfl
  rw [stringOf, CodePoints.lit, hscalars, Option.map_some, String.ofList_toList]

theorem jsonOf_lit (text : String) : jsonOf (.str (CodePoints.lit text) : Value Opaque) = .string text := by
  rw [jsonOf, stringOf_lit]
  rfl

theorem lookup_fieldsOf (fields : Mapping Opaque) (name : String) :
    (fieldsOf fields).lookup name = (fields.lookup (CodePoints.lit name)).map jsonOf := by
  induction fields with
  | nil => rfl
  | cons entry fields ih =>
    obtain ⟨key, value⟩ := entry
    rw [fieldsOf, List.lookup_cons]
    by_cases hkey : CodePoints.lit name = key
    · subst hkey
      rw [stringOf_lit]
      simp
    · rw [beq_eq_false_iff_ne.mpr hkey, ← ih]
      cases hname : stringOf key with
      | none => rfl
      | some other =>
        have hother : name ≠ other := by
          rintro rfl
          obtain ⟨chars, hchars, rfl⟩ := Option.map_eq_some_iff.mp hname
          exact hkey (by rw [CodePoints.lit, String.toList_ofList, Radar.point_scalars hchars])
        dsimp only
        rw [List.lookup_cons, beq_eq_false_iff_ne.mpr hother]

/-- A field of an object, as the checks read it. -/
theorem get_fieldsOf (fields : Mapping Opaque) (name : String) :
    Json.get (fieldsOf fields) name = jsonOf (Radar.get fields name) := by
  rw [Json.get, lookup_fieldsOf, Radar.get, Radar.field]
  cases fields.lookup (CodePoints.lit name) <;> rfl

/-! ### Paths -/

/-- No two dots of a path are in a row, and each segment after the first is one of the
characters that a name may have. -/
def TakenPath (path : String) : Prop :=
  ¬ "..".toList <:+: path.toList ∧ ∀ segment ∈ (path.toList.splitOn '/').drop 1, isPathSegment segment = true
deriving Decidable

theorem trim_ends {text : List Char} (hfirst : ∀ c ∈ text.head?, isWhite c = false)
    (hlast : ∀ c ∈ text.getLast?, isWhite c = false) : trim text = text := by
  have hstart : text.dropWhile isWhite = text := by
    cases text with
    | nil => rfl
    | cons c rest => exact List.dropWhile_cons_of_neg (by simp [hfirst c rfl])
  rw [trim, trimStart, hstart, trimEnd]
  rcases List.eq_nil_or_concat text with rfl | ⟨rest, c, rfl⟩
  · rfl
  · rw [List.concat_eq_append] at *
    exact List.rdropWhile_concat_neg _ _ _ (by simp [hlast c (by simp)])

/-- A path of a message is taken, or refused for what it is. -/
theorem sourcePath_ok {path : String} (hstart : startsWith path "messages/" = true) (hend : endsWith path ".md" = true)
    {path' : String} : sourcePath (.string path) = .ok path' ↔ TakenPath path ∧ path' = path := by
  have htrim : trimString path = path := by
    obtain ⟨rest, hrest⟩ := List.isPrefixOf_iff_prefix.mp hstart
    obtain ⟨first, hfirst⟩ := List.isSuffixOf_iff_suffix.mp hend
    rw [trimString, trim_ends ?_ ?_, String.ofList_toList]
    · rw [← hrest]
      simp [isWhite]
    · rw [← hfirst]
      simp [isWhite]
  have hne : path ≠ "" := by
    rintro rfl
    exact absurd hstart (by decide)
  have hsegments : (path.toList.splitOn '/').drop 1 ≠ [] := by
    obtain ⟨rest, hrest⟩ := List.isPrefixOf_iff_prefix.mp hstart
    have hfirst : ∀ c ∈ "messages".toList, (c == '/') = false := by simp
    have hsplit : "messages/".toList ++ rest = "messages".toList ++ '/' :: rest := rfl
    rw [← hrest, hsplit, List.splitOn, List.splitOnP_append_cons_of_forall_mem hfirst _ (by simp)]
    exact List.splitOnP_ne_nil _ _
  have hread : requireString (.string path) "SOURCE_PATH_REQUIRED" = .ok path := by rw [requireString, htrim, if_neg hne]
  rw [sourcePath, hread, except_bind_ok]
  simp only [Except.ok.injEq, exists_eq_left', hstart, hend, Bool.true_eq_false, false_or]
  by_cases hdots : includes path.toList "..".toList = true
  · have hnot : ¬ TakenPath path := fun htaken => htaken.1 (includes_iff.mp hdots)
    rw [if_pos hdots]
    exact iff_of_false (fun h => by cases h) fun h => hnot h.1
  · rw [if_neg hdots]
    by_cases hall : ((path.toList.splitOn '/').drop 1).any (fun segment => !isPathSegment segment) = true
    · have hnot : ¬ TakenPath path := by
        obtain ⟨segment, hsegment, hbad⟩ := List.any_eq_true.mp hall
        intro htaken
        rw [htaken.2 segment hsegment] at hbad
        cases hbad
      rw [if_pos (.inr hall)]
      exact iff_of_false (fun h => by cases h) fun h => hnot h.1
    · have htaken : TakenPath path := by
        refine ⟨fun hinfix => hdots (includes_iff.mpr hinfix), fun segment hsegment => ?_⟩
        by_contra hbad
        exact hall (List.any_eq_true.mpr ⟨segment, hsegment, by simpa using hbad⟩)
      rw [if_neg (not_or.mpr ⟨hsegments, hall⟩), except_pure_ok]
      exact ⟨fun h => ⟨htaken, h.symm⟩, fun h => h.2.symm⟩

end CcbCore.Edge
