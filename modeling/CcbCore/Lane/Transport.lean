import CcbCore.Edge.Admission
import CcbCore.Lane.Collection

/-!
# A batch on its way to the Edge function

`project_batch` of `src/radar/central_projection.py` with `_transport_file`, and
`canonical_json_bytes` of `src/radar/body_bound_oidc.py`. The bytes of a request are counted
from its texts and the sizes of its contents (`size_projectBatch`), and what the Edge
function reads of its body is what was put into it (`parseRequest_body`).
-/

namespace CcbCore.Lane

open CcbCore.Python CcbCore.Raising
open CcbCore.CodePoints (Str lit point)
open CcbCore.Radar (Value Mapping Interpreter quotedSize)
open CcbCore.Edge (JsonParser)

variable {Opaque : Type}

/-! ### Requests -/

/-- What `canonical_json_bytes` raises. -/
inductive BodyBoundError where
  | code (text : String)
  | raised (e : Radar.Raised)
  deriving DecidableEq, Repr

/-- `canonical_json_bytes`. -/
def canonicalJsonBytes (py : Interpreter Opaque) (payload : Value Opaque) : Except BodyBoundError Bytes :=
  match Radar.dumps py Radar.canonicalFormat payload >>= Radar.encodeText with
  | .ok body => .ok body
  | .error e => if e.isTypeOrValueError then .error (.code "BOUND_BODY_SERIALIZATION_FAILED") else .error (.raised e)

/-- `_transport_file`. -/
def transportFile (file : ProjectionFile) : Mapping Opaque :=
  [(lit "path", .str (lit file.path)), (lit "source_commit", .str (lit file.sourceCommit)),
    (lit "source_committed_at", .str (lit file.sourceCommittedAt)), (lit "blob_sha", .str (lit file.blobSha)),
    (lit "content_base64", .str (lit (String.ofList (Base64.b64encode file.content.data.toList))))]

/-- The arguments of `project_batch` besides the files. -/
structure BatchRequest where
  identity : Str
  branch : Str
  branchHead : Str
  batchId : Str
  claimToken : Str

/-- The payload of `project_batch`. -/
def projectBatch (request : BatchRequest) (files : List ProjectionFile) : Mapping Opaque :=
  [(lit "protocol_version", .int 2), (lit "operation", .str (lit "project_batch")),
    (lit "repository", .str (lit "example/ccb-core")), (lit "identity", .str request.identity),
    (lit "branch", .str request.branch), (lit "ref", .str (lit "refs/heads/" ++ request.branch)),
    (lit "branch_head", .str request.branchHead), (lit "lane_identity", .str request.identity),
    (lit "journal", .object [(lit "batch_id", .str request.batchId), (lit "claim_token", .str request.claimToken)]),
    (lit "files", .array (files.map fun file => .object (transportFile file)))]

/-- The bytes of a file in a request: four for each three of its content, and its texts. -/
def transportSize (file : ProjectionFile) : ℕ :=
  81 + quotedSize (lit file.path) + quotedSize (lit file.sourceCommit) + quotedSize (lit file.sourceCommittedAt) +
    quotedSize (lit file.blobSha) + 4 * ((file.contentBytes + 2) / 3)

/-- The bytes of a request. -/
def BatchRequest.size (request : BatchRequest) (files : List ProjectionFile) : ℕ :=
  204 + 2 * quotedSize request.identity + 2 * quotedSize request.branch + quotedSize request.branchHead +
    quotedSize request.batchId + quotedSize request.claimToken + (files.map transportSize).sum + (files.length - 1)

/-! ### The size of a request -/

theorem quotedSize_append (first last : Str) : quotedSize (first ++ last) + 2 = quotedSize first + quotedSize last := by
  simp only [quotedSize, List.map_append, List.sum_append]
  omega

/-- No character of base64 is escaped. -/
theorem quotedSize_b64encode (data : List UInt8) :
    quotedSize (lit (String.ofList (Base64.b64encode data))) = 2 + 4 * ((data.length + 2) / 3) := by
  have hone : ∀ c ∈ Base64.b64encode data, (Radar.escapedSize ∘ point) c = 1 := by
    have hall : ∀ n < 64, Radar.escapedSize (point (Base64.letter n)) = 1 := by decide +kernel
    intro c hc
    rcases Base64.mem_b64encode hc with rfl | ⟨n, hn, rfl⟩
    · decide
    · exact hall n hn
  rw [quotedSize, lit, String.toList_ofList, List.map_map, List.map_congr_left hone, List.map_const',
    List.sum_replicate_nat, Nat.mul_one, Base64.length_b64encode]

theorem size_transportFile (file : ProjectionFile) : (Value.object (transportFile file) : Value Opaque).size = transportSize file := by
  have hcontent : quotedSize (lit (String.ofList (Base64.b64encode file.content.data.toList))) =
      2 + 4 * ((file.contentBytes + 2) / 3) := quotedSize_b64encode _
  simp only [transportFile, Value.size, Value.fieldSizes, hcontent, transportSize, List.length_cons, List.length_nil]
  have hkeys : quotedSize (lit "path") = 6 ∧ quotedSize (lit "source_commit") = 15 ∧
      quotedSize (lit "source_committed_at") = 21 ∧ quotedSize (lit "blob_sha") = 10 ∧
      quotedSize (lit "content_base64") = 16 := by decide
  omega

theorem itemSizes_transport (files : List ProjectionFile) :
    Value.itemSizes (files.map fun file => (.object (transportFile file) : Value Opaque)) = (files.map transportSize).sum := by
  induction files with
  | nil => rfl
  | cons file files ih => rw [List.map_cons, Value.itemSizes, size_transportFile, ih, List.map_cons, List.sum_cons]

theorem size_projectBatch (request : BatchRequest) (files : List ProjectionFile) :
    (Value.object (projectBatch request files) : Value Opaque).size = request.size files := by
  have href := quotedSize_append (lit "refs/heads/") request.branch
  simp only [projectBatch, Value.size, Value.fieldSizes, itemSizes_transport, List.length_map, List.length_cons, List.length_nil,
    BatchRequest.size]
  have hkeys : quotedSize (lit "protocol_version") = 18 ∧ quotedSize (lit "operation") = 11 ∧
      quotedSize (lit "repository") = 12 ∧ quotedSize (lit "identity") = 10 ∧ quotedSize (lit "branch") = 8 ∧
      quotedSize (lit "ref") = 5 ∧ quotedSize (lit "branch_head") = 13 ∧ quotedSize (lit "lane_identity") = 15 ∧
      quotedSize (lit "journal") = 9 ∧ quotedSize (lit "batch_id") = 10 ∧ quotedSize (lit "claim_token") = 13 ∧
      quotedSize (lit "files") = 7 := by decide
  have hvalues : Radar.textSize (lit (toString (2 : ℤ))) = 1 ∧ quotedSize (lit "project_batch") = 15 ∧
      quotedSize (lit "example/ccb-core") = 18 ∧ quotedSize (lit "refs/heads/") = 13 := by decide +kernel
  omega

/-! ### What is read of it -/

theorem get_sorted {fields : Mapping Opaque} (h : (fields.map (·.1)).Nodup) (name : String) :
    Radar.get (Radar.sortFields (Value.sortedFields fields)) name = (Radar.get fields name).sorted := by
  rw [Radar.get, Radar.field, Radar.lookup_sortFields (by rwa [Radar.sortedFields_keys]), Radar.lookup_sortedFields, Radar.get,
    Radar.field]
  cases fields.lookup (lit name) <;> rfl

theorem transportFile_keys (file : ProjectionFile) : ((transportFile file : Mapping Opaque).map (·.1)).Nodup := by
  simp [transportFile, Radar.lit_inj]

/-- The item of a file, as it is read. -/
def transportItem (Opaque : Type) (file : ProjectionFile) : List (String × Json) :=
  Edge.fieldsOf (Radar.sortFields (Value.sortedFields (transportFile file : Mapping Opaque)))

/-- A field of the item. -/
theorem get_transportItem {file : ProjectionFile} {name text : String}
    (h : Radar.get (transportFile file : Mapping Opaque) name = .str (lit text)) :
    Json.get (transportItem Opaque file) name = .string text := by
  have hsorted : (Value.str (lit text) : Value Opaque).sorted = .str (lit text) := by simp [Value.sorted]
  rw [transportItem, Edge.get_fieldsOf, get_sorted (transportFile_keys file), h, hsorted, Edge.jsonOf_lit]

theorem text_of_body {py : Interpreter Opaque} {payload : Value Opaque} {body : Bytes}
    (h : canonicalJsonBytes py payload = .ok body) :
    ∃ text, payload.text py Radar.canonicalFormat = .ok text ∧ Radar.encodeText text = .ok body := by
  unfold canonicalJsonBytes at h
  split at h
  · next body' hbody =>
    cases h
    obtain ⟨text, htext, hencoded⟩ := except_bind_ok.mp hbody
    unfold Radar.dumps at htext
    split at htext
    · exact ⟨text, htext, hencoded⟩
    · cases htext
  · split at h <;> cases h

theorem chars_of_encodeText {text : Str} {body : Bytes} (h : Radar.encodeText text = .ok body) :
    ∃ chars, scalars text = some chars ∧ body = encode chars := by
  unfold Radar.encodeText at h
  split at h
  · cases h
  · next chars hchars => exact ⟨chars, hchars, (Except.ok.inj h).symm⟩

theorem text_object {py : Interpreter Opaque} {format : Radar.Format} {fields : Mapping Opaque} {text : Str}
    (h : (Value.object fields).text py format = .ok text) : ∃ rest, text = point '\x7b' :: rest := by
  rw [Value.text] at h
  split at h
  · cases h
  · cases h
    exact ⟨_, rfl⟩

theorem compact_canonicalFormat : Radar.canonicalFormat.Compact := ⟨rfl, rfl, rfl⟩

variable {request : BatchRequest} {chunk : List ProjectionFile}

/-- The texts of a payload that are not its own or those of a file. -/
def BatchRequest.texts (request : BatchRequest) : List Str :=
  [request.identity, request.branch, lit "refs/heads/" ++ request.branch, request.branchHead, request.batchId, request.claimToken]

/-- The only number of a payload is its protocol version. -/
theorem all_projectBatch {onInt : ℤ → Bool} {onText : Str → Bool} (onOther : Opaque → Bool) (hversion : onInt 2 = true)
    (hlit : ∀ text, onText (lit text) = true) (htexts : ∀ text ∈ request.texts, onText text = true) :
    (Value.object (projectBatch request chunk)).all onInt onText onOther = true := by
  have hitems (files : List ProjectionFile) : Value.allItems onInt onText onOther
      (files.map fun file => (.object (transportFile file) : Value Opaque)) = true := by
    induction files with
    | nil => rfl
    | cons file files ih =>
      have hfile : (Value.object (transportFile file) : Value Opaque).all onInt onText onOther = true := by
        simp [Value.all, Value.allFields, transportFile, hlit]
      rw [List.map_cons, Value.allItems, hfile, ih]
      rfl
  simp only [BatchRequest.texts, List.forall_mem_cons] at htexts
  simp [projectBatch, Value.all, Value.allFields, hitems, hversion, hlit, htexts]

/-- A payload of texts that encode has a body. -/
theorem exists_body (py : Interpreter Opaque) (request : BatchRequest) (chunk : List ProjectionFile)
    (hstack : py.encodes (.object (projectBatch request chunk)) = true)
    (htexts : ∀ text ∈ request.texts, CodePoints.encodable text = true) :
    ∃ body, canonicalJsonBytes py (.object (projectBatch request chunk)) = .ok body := by
  have hjson : (Value.object (projectBatch request chunk) : Value Opaque).isJson = true :=
    all_projectBatch _ (by decide) (fun _ => rfl) fun _ _ => rfl
  have hencodable : (Value.object (projectBatch request chunk) : Value Opaque).encodable = true :=
    all_projectBatch _ rfl CodePoints.encodable_lit htexts
  obtain ⟨hdeep, -⟩ | ⟨-, text, htext, hencodes⟩ :=
    Radar.dumps_json py Radar.canonicalFormat ⟨CodePoints.encodable_lit _, CodePoints.encodable_lit _⟩ hjson
  · rw [hstack] at hdeep
    cases hdeep
  · obtain ⟨body, hbody⟩ := Radar.encodeText_ok.mpr (hencodes.trans (by rw [hencodable, Bool.or_true]))
    have hwritten : Radar.dumps py Radar.canonicalFormat (.object (projectBatch request chunk)) >>= Radar.encodeText = .ok body := by
      rw [htext]
      exact hbody
    exact ⟨body, by rw [canonicalJsonBytes, hwritten]⟩

theorem exact_projectBatch : (Value.object (projectBatch request chunk) : Value Opaque).Exact := by
  have hitems (files : List ProjectionFile) :
      Value.ExactItems (files.map fun file => (.object (transportFile file) : Value Opaque)) := by
    induction files with
    | nil => trivial
    | cons file files ih =>
      exact ⟨⟨transportFile_keys file, by simp [transportFile, Value.ExactFields, Value.Exact]⟩, ih⟩
  have hversion : 2 < 10 ^ Radar.maxDigits := Radar.prints_iff.mp (show Radar.prints 2 = true by decide)
  simp [projectBatch, Value.Exact, Value.ExactFields, hitems, Radar.lit_inj, hversion]

/-- What is read of a body is what was written. -/
theorem parseRequest_body {py : Interpreter Opaque} (parser : JsonParser Opaque) {body : Bytes}
    (h : canonicalJsonBytes py (.object (projectBatch request chunk)) = .ok body) :
    body.size = request.size chunk ∧ ∃ raw, Edge.parseRequest parser body = .ok raw ∧
      Edge.filesOf raw = some (chunk.map fun file => .object (transportItem Opaque file)) := by
  obtain ⟨text, htext, hencoded⟩ := text_of_body h
  obtain ⟨text', htext', hsize⟩ : ∃ text, (Value.object (projectBatch request chunk)).text py Radar.canonicalFormat = .ok text ∧
      Radar.textSize text = (Value.object (projectBatch request chunk) : Value Opaque).size :=
    Value.text_size compact_canonicalFormat _ (all_projectBatch _ (by decide) (fun _ => rfl) fun _ _ => rfl)
  obtain rfl := Except.ok.inj (htext.symm.trans htext')
  refine ⟨by rw [Radar.size_encodeText hencoded, hsize, size_projectBatch], ?_⟩
  obtain ⟨chars, hchars, rfl⟩ := chars_of_encodeText hencoded
  have hparse := parser.parse_text py _ text chars exact_projectBatch
    (all_projectBatch _ (by decide) (fun _ => rfl) fun _ _ => rfl) htext (Radar.point_scalars hchars)
  have hdecode : Edge.decodeText (encode chars) = some chars := by
    obtain ⟨rest, hrest⟩ := text_object htext
    rw [← Radar.point_scalars hchars] at hrest
    obtain ⟨c, chars', rfl⟩ := List.exists_cons_of_ne_nil (l := chars) (by rintro rfl; cases hrest)
    have hc : c = '\x7b' := Radar.point_injective (List.cons.inj hrest).1
    rw [Edge.decodeText, decode_encode, Option.map_some, if_neg (by simp [hc])]
  refine ⟨_, by rw [Edge.parseRequest, hdecode]; dsimp only; rw [hparse]; rfl, ?_⟩
  have hitems (files : List ProjectionFile) :
      (Value.sortedItems (files.map fun file => (.object (transportFile file) : Value Opaque))).map Edge.jsonOf =
        files.map fun file => .object (transportItem Opaque file) := by
    induction files with
    | nil => rfl
    | cons file files ih =>
      rw [List.map_cons, Value.sortedItems, List.map_cons, ih, Value.sorted, Edge.jsonOf, List.map_cons, transportItem]
  have hfiles : Radar.get (projectBatch request chunk : Mapping Opaque) "files" =
      .array (chunk.map fun file => .object (transportFile file)) := rfl
  rw [Edge.filesOf, get_sorted (by simp [projectBatch, Radar.lit_inj]), hfiles, Value.sorted]
  exact congrArg some (hitems chunk)

end CcbCore.Lane
