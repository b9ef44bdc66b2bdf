import CcbCore.Lane.AppendOnly
import CcbCore.Lane.Transport
import CcbCore.Radar.Wire

/-!
# The limits of the producer and those of the Edge function

The files that are collected from valid commits of a lane are each within the size of one
file, and a chunk of them is within the number of files and their bytes, of which base64
gives the exact estimate. What the producer does not look at is what a path is made of, and
the size of the body that a chunk becomes: `chunk_admitted_iff` says that a chunk is refused
for nothing else. A body is too large for long paths only (`size_le_of_short`).
-/

namespace CcbCore.Lane

open CcbCore.Python CcbCore.Git CcbCore.Postgres CcbCore.Raising
open CcbCore.CodePoints (Str lit point)
open CcbCore.Radar (Interpreter quotedSize)
open CcbCore.Edge (TakenPath SourceFile JsonParser admitBatch bodyOf)

variable {Opaque : Type}

/-! ### Files -/

theorem isSegmentChar_of_isHexDigit {c : Char} (h : isHexDigit c = true) : Edge.isSegmentChar c = true := by
  simp only [isHexDigit, decide_eq_true_eq, Char.le_def, UInt32.le_iff_toNat_le] at h
  simp only [Edge.isSegmentChar, isAsciiAlnum, isAsciiLetter, isAsciiDigit, Bool.or_eq_true, decide_eq_true_eq, Char.le_def,
    UInt32.le_iff_toNat_le]
  rcases h with hdigit | ⟨hlow, hhigh⟩
  · exact .inl (.inl (.inl (.inr hdigit)))
  · exact .inl (.inl (.inl (.inl (.inl ⟨hlow, hhigh.trans (by decide)⟩))))

theorem segmentChars_hex {sha : String} (h : isHex 40 sha = true) : ∀ c ∈ sha.toList, Edge.isSegmentChar c = true :=
  fun c hc => isSegmentChar_of_isHexDigit (List.all_eq_true.mp (of_decide_eq_true h).2 c hc)

/-- A hexadecimal name is read as it is. -/
theorem requireSha40_hex (engine : JavaScript.Engine) {sha : String} (h : isHex 40 sha = true) (code : String) :
    Edge.requireSha40 engine (.string sha) code = .ok sha := by
  have hchars := segmentChars_hex h
  have htrim : JavaScript.trimString sha = sha := Edge.trimString_eq_self fun c hc => (Edge.segmentChar_facts (hchars c hc)).1
  have hne : sha ≠ "" := by
    rintro rfl
    exact absurd h (by decide)
  have hlower : engine.toLowerCase sha = sha := by
    rw [engine.toLowerCase_ascii sha fun c hc => Edge.ascii_of_isSegmentChar (hchars c hc), lower_of_isHex h]
  rw [Edge.requireSha40, Edge.requireString, htrim, if_neg hne, except_bind_ok]
  exact ⟨sha, rfl, by rw [hlower, if_pos h]; rfl⟩

/-- Base64 of some bytes is read as it is. -/
theorem requireString_b64encode {data : List UInt8} (h : data ≠ []) (code : String) :
    Edge.requireString (.string (String.ofList (Base64.b64encode data))) code = .ok (String.ofList (Base64.b64encode data)) := by
  have hwhite : ∀ c ∈ Base64.b64encode data, JavaScript.isWhite c = false := by
    have hall : ∀ n < 64, JavaScript.isWhite (Base64.letter n) = false := by decide +kernel
    intro c hc
    rcases Base64.mem_b64encode hc with rfl | ⟨n, hn, rfl⟩
    · decide
    · exact hall n hn
  have htext : (String.ofList (Base64.b64encode data)).toList = Base64.b64encode data := String.toList_ofList
  have htrim : JavaScript.trimString (String.ofList (Base64.b64encode data)) = String.ofList (Base64.b64encode data) :=
    Edge.trimString_eq_self (by rwa [htext])
  have hne : String.ofList (Base64.b64encode data) ≠ "" := by
    intro hempty
    have hlength : (Base64.b64encode data).length = 4 * ((data.length + 2) / 3) := Base64.length_b64encode
    have hpos := List.length_pos_iff.mpr h
    rw [← htext, hempty] at hlength
    simp at hlength
    omega
  rw [Edge.requireString, htrim, if_neg hne]

/-- What the Edge function makes of a file. -/
def sourceOf (file : ProjectionFile) : SourceFile where
  path := file.path
  sourceCommit := file.sourceCommit
  sourceCommittedAt := JavaScript.trimString file.sourceCommittedAt
  blobSha := file.blobSha
  contentBase64 := String.ofList (Base64.b64encode file.content.data.toList)

/-- What is collected of a message: names and a date, as git prints them, and what is in it. -/
structure Sendable (file : ProjectionFile) : Prop where
  message : isMessagePath file.path = true
  commit : isHex 40 file.sourceCommit = true
  date : JavaScript.trimString file.sourceCommittedAt ≠ ""
  blob : isHex 40 file.blobSha = true
  content : file.content.data.toList ≠ []

/-- A file is taken for its path. -/
theorem parseSourceFile_transport (engine : JavaScript.Engine) {file : ProjectionFile} (h : Sendable file) {source : SourceFile} :
    Edge.parseSourceFile engine (.object (transportItem Opaque file)) = .ok source ↔
      TakenPath file.path ∧ source = sourceOf file := by
  obtain ⟨hstart, hend⟩ := Bool.and_eq_true_iff.mp h.message
  have hcontent : Edge.requireString (.string (String.ofList (Base64.b64encode file.content.data.toList)))
      "SOURCE_CONTENT_REQUIRED" = .ok (String.ofList (Base64.b64encode file.content.data.toList)) :=
    requireString_b64encode h.content _
  have hdate : Edge.requireString (.string file.sourceCommittedAt) "SOURCE_COMMITTED_AT_REQUIRED" =
      .ok (JavaScript.trimString file.sourceCommittedAt) := by rw [Edge.requireString, if_neg h.date]
  have hpath : Json.get (transportItem Opaque file) "path" = .string file.path := get_transportItem rfl
  have hsha : Json.get (transportItem Opaque file) "source_commit" = .string file.sourceCommit := get_transportItem rfl
  have htime : Json.get (transportItem Opaque file) "source_committed_at" = .string file.sourceCommittedAt :=
    get_transportItem rfl
  have hblob : Json.get (transportItem Opaque file) "blob_sha" = .string file.blobSha := get_transportItem rfl
  have hbase : Json.get (transportItem Opaque file) "content_base64" =
      .string (String.ofList (Base64.b64encode file.content.data.toList)) := get_transportItem rfl
  simp only [Edge.parseSourceFile, Edge.requireObject, hpath, hsha, htime, hblob, hbase, except_bind_ok,
    Edge.sourcePath_ok hstart hend, requireSha40_hex engine h.commit, requireSha40_hex engine h.blob, hdate, hcontent,
    Except.ok.injEq, except_pure_ok, exists_eq_left']
  constructor
  · rintro ⟨path, ⟨htaken, rfl⟩, rfl⟩
    exact ⟨htaken, rfl⟩
  · rintro ⟨htaken, rfl⟩
    exact ⟨_, ⟨htaken, rfl⟩, rfl⟩

/-- The files of a chunk are taken for their paths. -/
theorem parseSourceFiles_transport (engine : JavaScript.Engine) {files : List ProjectionFile} (hcount : files.length ≤ Edge.maxFiles)
    (h : ∀ file ∈ files, Sendable file) {sources : List SourceFile} :
    Edge.parseSourceFiles engine (some (files.map fun file => .object (transportItem Opaque file))) = .ok sources ↔
      (∀ file ∈ files, TakenPath file.path) ∧ sources = files.map sourceOf := by
  rw [Edge.parseSourceFiles, if_neg (by rw [List.length_map]; exact not_lt.mpr hcount)]
  clear hcount
  induction files generalizing sources with
  | nil =>
    rw [List.map_nil, List.mapM_nil, except_pure_ok, List.map_nil]
    exact ⟨fun heq => ⟨(fun _ hno => by cases hno), heq.symm⟩, fun hall => hall.2.symm⟩
  | cons file files ih =>
    rw [List.forall_mem_cons] at h
    simp only [List.map_cons, List.mapM_cons, except_bind_ok, except_pure_ok, parseSourceFile_transport engine h.1, ih h.2,
      List.forall_mem_cons]
    constructor
    · rintro ⟨_, ⟨htaken, rfl⟩, _, ⟨hall, rfl⟩, rfl⟩
      exact ⟨⟨htaken, hall⟩, rfl⟩
    · rintro ⟨⟨htaken, hall⟩, rfl⟩
      exact ⟨_, ⟨htaken, rfl⟩, _, ⟨hall, rfl⟩, rfl⟩

/-! ### A chunk -/

variable {π : Type} [DecidableEq π] [FileName π] {runtime : Runtime} {objects : Objects π} {commits : List String}
  {file : ProjectionFile} {files chunk : List ProjectionFile}

/-- What git prints: 40 hexadecimal digits for a blob, and a date for a commit. -/
structure GitPrints (objects : Objects π) : Prop where
  blob : ∀ {name}, (objects.blobs name).isSome → isHex 40 name = true
  date : ∀ {c}, objects.graph.Known c → JavaScript.trimString (objects.committedAt c) ≠ ""

/-- An empty file is no message. -/
theorem parseBusDocument_empty {content : Bytes} (h : content.data.toList = []) {parsed : Message.ParsedBusDocument} :
    Message.parseBusDocument runtime content "" .strict ≠ .ok parsed := by
  obtain rfl : content = encode [] := by
    refine ByteArray.ext (Array.toList_inj.mp ?_)
    rw [h]
    rfl
  rw [Message.parseBusDocument, decode_encode]
  exact nofun

/-- What is collected of commits that are valid can be sent. -/
theorem Collected.sendable (h : Collected objects commits file) (hgit : GitPrints objects)
    (hvalid : ∀ c ∈ commits, ∃ lane reserved, validateCommitPaths runtime objects lane reserved c = .ok ()) : Sendable file := by
  obtain ⟨parent, hparent, hnone⟩ := h.added
  obtain ⟨lane, reserved, hcommit⟩ := hvalid _ h.commit
  obtain ⟨parent', happends⟩ := Appends.of_validate hcommit
  obtain rfl : parent' = parent := by
    have heq := happends.parents.symm.trans hparent
    simpa using heq
  obtain ⟨id, haccepted, -⟩ := happends.added _ _ h.stored hnone
  obtain ⟨path, hpath, hmessage⟩ := haccepted.text
  obtain ⟨stored, parsed, hstored, hparsed, -⟩ := haccepted.writer
  have hknown : objects.graph.Known file.sourceCommit := Option.isSome_iff_exists.mpr ⟨_, hparent⟩
  obtain ⟨files, -, hfiles⟩ := Option.bind_eq_some_iff.mp h.stored
  obtain ⟨blob, -, hblob⟩ := Option.bind_eq_some_iff.mp hfiles
  obtain ⟨content, hcontent, heq⟩ := Option.map_eq_some_iff.mp hblob
  obtain ⟨rfl, rfl⟩ := Prod.mk.inj heq
  refine ⟨ofText_injective hpath ▸ hmessage, objects.isHex_name hknown, ?_, hgit.blob (Option.isSome_iff_exists.mpr ⟨_, hcontent⟩), ?_⟩
  · rw [h.date]
    exact hgit.date hknown
  · intro hempty
    obtain rfl := Option.some.inj (hstored.symm.trans h.stored)
    exact parseBusDocument_empty hempty hparsed

/-- What a chunk stands for is within the limit of a batch. -/
theorem boundBatch_transport (h : Within chunk) : Edge.boundBatch 0 (chunk.map sourceOf) = .ok ⟨⟩ := by
  have hestimate (file : ProjectionFile) : Edge.estimatedBase64Size (sourceOf file).contentBase64 = file.contentBytes :=
    Edge.estimatedBase64Size_b64encode _
  have hsum (files : List ProjectionFile) :
      ((files.map sourceOf).map fun file => Edge.estimatedBase64Size file.contentBase64).sum = totalBytes files := by
    induction files with
    | nil => rfl
    | cons file files ih =>
      rw [List.map_cons, List.map_cons, List.sum_cons, ih, hestimate, totalBytes, totalBytes, List.map_cons, List.sum_cons,
        Int.natCast_add]
  rw [Edge.boundBatch_ok (by decide) ?_, hsum, Int.zero_add]
  · exact Int.ofNat_le.mpr h.bytes
  · intro source hsource
    obtain ⟨file, -, rfl⟩ := List.mem_map.mp hsource
    rw [hestimate]
    exact Int.natCast_nonneg _

theorem boundFile_transport (h : ∀ file ∈ chunk, file.contentBytes ≤ maxFileBytes) :
    (chunk.map sourceOf).forM Edge.boundFile = .ok ⟨⟩ := by
  rw [except_forM_ok]
  intro source hsource
  obtain ⟨file, hfile, rfl⟩ := List.mem_map.mp hsource
  exact (Edge.boundFile_ok rfl).mpr (h file hfile)

/-! ### Short paths -/

theorem quotedSize_hex {sha : String} (h : isHex 40 sha = true) : quotedSize (lit sha) = 42 := by
  have hone : ∀ c ∈ sha.toList, (Radar.escapedSize ∘ point) c = 1 := by
    intro c hc
    have hsegment := segmentChars_hex h c hc
    refine ascii_forall (P := fun c => Edge.isSegmentChar c = true → (Radar.escapedSize ∘ point) c = 1) ?_
      (Edge.ascii_of_isSegmentChar hsegment) hsegment
    decide
  rw [quotedSize, lit, List.map_map, List.map_congr_left hone, List.map_const', List.sum_replicate_nat,
    (of_decide_eq_true h).1]

/-- With paths of less than 2500 bytes there is room for a request. -/
theorem size_le_of_short (hwithin : Within chunk) (hsendable : ∀ file ∈ chunk, Sendable file)
    {request : BatchRequest}
    (hshort : ∀ file ∈ chunk, quotedSize (lit file.path) ≤ 2500 ∧ quotedSize (lit file.sourceCommittedAt) ≤ 64)
    (hrequest : request.size [] ≤ 30000) : request.size chunk ≤ Edge.maxRequestBytes := by
  have hfiles : 3 * (chunk.map transportSize).sum ≤ 8195 * chunk.length + 4 * totalBytes chunk := by
    clear hwithin
    induction chunk with
    | nil => exact Nat.zero_le _
    | cons file chunk ih =>
      rw [List.forall_mem_cons] at hsendable hshort
      have hrest := ih hsendable.2 hshort.2
      have hcommit := quotedSize_hex hsendable.1.commit
      have hblob := quotedSize_hex hsendable.1.blob
      obtain ⟨hpath, hdate⟩ := hshort.1
      simp only [totalBytes, List.map_cons, List.sum_cons, List.length_cons, transportSize] at hrest ⊢
      omega
  have hcount := hwithin.count
  have hbytes := hwithin.bytes
  simp only [BatchRequest.size, List.map_nil, List.sum_nil, List.length_nil, maxFiles, maxTotalBytes, Edge.maxRequestBytes] at *
  omega

/-! ### The limits -/

/-- **A chunk of the files of valid commits is within the limits of the Edge function just when
its paths are ones that the Edge function takes, and its request is not too large, as it is not
with paths of less than 2500 bytes.** -/
theorem chunk_admitted_iff (py : Interpreter Opaque) (engine : JavaScript.Engine) (parser : JsonParser Opaque)
    (hgit : GitPrints objects)
    (hvalid : ∀ c ∈ commits, ∃ lane reserved, validateCommitPaths runtime objects lane reserved c = .ok ())
    (hfiles : collectProjectionFiles objects commits = .ok files) {chunks : List (List ProjectionFile)}
    (hchunks : chunkProjectionFiles files = .ok chunks) (hchunk : chunk ∈ chunks) (request : BatchRequest) {parts : List Bytes}
    (hsent : canonicalJsonBytes py (.object (projectBatch request chunk)) = .ok (bodyOf parts)) :
    ((∃ sources, admitBatch engine parser parts = .ok sources) ↔
      (∀ file ∈ chunk, TakenPath file.path) ∧ request.size chunk ≤ Edge.maxRequestBytes) ∧
    ((∀ file ∈ chunk, quotedSize (lit file.path) ≤ 2500 ∧ quotedSize (lit file.sourceCommittedAt) ≤ 64) →
      request.size [] ≤ 30000 → request.size chunk ≤ Edge.maxRequestBytes) := by
  obtain ⟨hall, hwithin⟩ := chunk_ok hchunks
  have hcollected : ∀ file ∈ chunk, Collected objects commits file := fun file hfile =>
    collect_ok hfiles file (hall ▸ List.mem_flatten.mpr ⟨chunk, hchunk, hfile⟩)
  have hsendable : ∀ file ∈ chunk, Sendable file := fun file hfile => (hcollected file hfile).sendable hgit hvalid
  obtain ⟨hsize, raw, hraw, hitems⟩ := parseRequest_body parser hsent
  have hread : ∀ {rawBody}, Edge.readRequestBodyBounded parts Edge.maxRequestBytes = .ok rawBody ↔
      request.size chunk ≤ Edge.maxRequestBytes ∧ rawBody = bodyOf parts := by
    intro rawBody
    rw [Edge.readRequestBodyBounded_ok, hsize]
  refine ⟨?_, size_le_of_short (hwithin chunk hchunk) hsendable⟩
  simp only [admitBatch, except_bind_ok, hread, except_pure_ok]
  constructor
  · rintro ⟨_, _, ⟨hfits, rfl⟩, raw', hraw', sources, hsources, -⟩
    obtain rfl := Except.ok.inj (hraw.symm.trans hraw')
    rw [hitems, parseSourceFiles_transport engine (hwithin chunk hchunk).count hsendable] at hsources
    exact ⟨hsources.1, hfits⟩
  · rintro ⟨htaken, hfits⟩
    have hsources : Edge.parseSourceFiles engine (some (chunk.map fun file => .object (transportItem Opaque file))) =
        .ok (chunk.map sourceOf) :=
      (parseSourceFiles_transport engine (hwithin chunk hchunk).count hsendable).mpr ⟨htaken, rfl⟩
    rw [← hitems] at hsources
    exact ⟨_, _, ⟨hfits, rfl⟩, raw, hraw, _, hsources, ⟨⟩, boundBatch_transport (hwithin chunk hchunk), ⟨⟩,
      boundFile_transport fun file hfile => (hcollected file hfile).small, rfl⟩

/-! ### Two paths -/

/-- `JSON.parse` by the scanner of `json.loads`. -/
def scanningParser : JsonParser Empty where
  parse chars := (Radar.loads Radar.wireDecoder (chars.map point)).toOption
  parse_text := by
    intro py value text chars hexact _ htext hchars
    have hread : Radar.loads Radar.wireDecoder text = .ok value.sorted :=
      Radar.loads_text Radar.readable_canonicalFormat hexact nofun htext rfl
    rw [hchars, hread]
    rfl

def sampleBlob : String := String.ofList (List.replicate 40 'd')

/-- A repository whose second commit adds a message under a path. -/
def messageObjects (path : String) : Objects String :=
  { lineObjects ∅ (AList.insert path sampleBlob ∅) ∅ with
    blobs := fun name => if name = sampleBlob then some (encode "message_id: alpha-1\nwriter: alpha\n".toList) else none
    blobs_isSome := by
      intro t files path' blob htree hblob
      obtain rfl := Option.some.inj htree
      split_ifs at hblob
      · cases hblob
      · by_cases hpath : path' = path
        · subst hpath
          obtain rfl := Option.some.inj (hblob.symm.trans (AList.lookup_insert _))
          rfl
        · have hnone := hblob.symm.trans (AList.lookup_insert_ne hpath)
          cases hnone
      · cases hblob }

def sampleLane : WriterLane := ⟨"alpha", "alpha", "bus/alpha-v1", .active⟩

/-- The message as it is collected. -/
def collectedMessage (path : String) : ProjectionFile :=
  ⟨path, secondCommit, "2026-01-01T00:00:00+00:00", sampleBlob, encode "message_id: alpha-1\nwriter: alpha\n".toList⟩

def sampleRequest : BatchRequest := ⟨lit "alpha", lit "bus/alpha-v1", lit secondCommit, lit "batch-1", lit "token-1"⟩

def samplePython : Interpreter Empty := Radar.asciiInterpreter Radar.sampleSha256

/-- The message's request has a body that is not too large, of which the message is read. -/
theorem sample_sent (path : String) (hfits : sampleRequest.size [collectedMessage path] ≤ Edge.maxRequestBytes) :
    ∃ body, canonicalJsonBytes samplePython (.object (projectBatch sampleRequest [collectedMessage path])) = .ok (bodyOf [body]) ∧
      Edge.readRequestBodyBounded [body] Edge.maxRequestBytes = .ok body ∧
      ∃ raw, Edge.parseRequest scanningParser body = .ok raw ∧
        Edge.filesOf raw = some [.object (transportItem Empty (collectedMessage path))] := by
  have htexts : ∀ text ∈ sampleRequest.texts, CodePoints.encodable text = true := by
    simp [BatchRequest.texts, sampleRequest, CodePoints.encodable_lit]
  obtain ⟨body, hbody⟩ := exists_body samplePython sampleRequest [collectedMessage path] rfl htexts
  obtain ⟨hsize, hread⟩ := parseRequest_body scanningParser hbody
  have hone : bodyOf [body] = body := ByteArray.empty_append
  exact ⟨body, by rw [hone, hbody], Edge.readRequestBodyBounded_ok.mpr ⟨by rw [hone, hsize]; exact hfits, hone.symm⟩, hread⟩

theorem gitPrints_messageObjects (path : String) : GitPrints (messageObjects path) where
  blob := by
    intro name hname
    by_cases hblob : name = sampleBlob
    · rw [hblob]
      decide
    · change (if name = sampleBlob then _ else none).isSome = true at hname
      rw [if_neg hblob] at hname
      cases hname
  date _ := by
    change JavaScript.trimString "2026-01-01T00:00:00+00:00" ≠ ""
    decide +kernel

theorem chunk_admitted_sample :
    ∃ body sources, canonicalJsonBytes samplePython (.object (projectBatch sampleRequest [collectedMessage "messages/1.md"])) =
        .ok (bodyOf [body]) ∧
      admitBatch Edge.sampleEngine scanningParser [body] = .ok sources := by
  obtain ⟨body, hbody, -⟩ := sample_sent "messages/1.md" (by decide +kernel)
  have hvalid : ∀ c ∈ [secondCommit], ∃ lane reserved,
      validateCommitPaths sampleRuntime (messageObjects "messages/1.md") lane reserved c = .ok () :=
    fun c hc => ⟨sampleLane, [], List.mem_singleton.mp hc ▸ by decide +kernel⟩
  have hfiles : collectProjectionFiles (messageObjects "messages/1.md") [secondCommit] = .ok [collectedMessage "messages/1.md"] := by
    decide +kernel
  have hchunks : chunkProjectionFiles [collectedMessage "messages/1.md"] = .ok [[collectedMessage "messages/1.md"]] := by
    decide +kernel
  have hadmitted := (chunk_admitted_iff samplePython Edge.sampleEngine scanningParser (gitPrints_messageObjects "messages/1.md")
    hvalid hfiles hchunks List.mem_cons_self sampleRequest hbody).1
  have htaken : ∀ file ∈ [collectedMessage "messages/1.md"], TakenPath file.path := by decide +kernel
  obtain ⟨sources, hsources⟩ := hadmitted.mpr ⟨htaken, by decide +kernel⟩
  exact ⟨body, sources, hbody, hsources⟩

/-- A path with a space is one of a valid commit, and the Edge function refuses its chunk. -/
theorem spaced_path_refused :
    validateCommitPaths sampleRuntime (messageObjects "messages/a b.md") sampleLane [] secondCommit = .ok () ∧
    collectProjectionFiles (messageObjects "messages/a b.md") [secondCommit] = .ok [collectedMessage "messages/a b.md"] ∧
    chunkProjectionFiles [collectedMessage "messages/a b.md"] = .ok [[collectedMessage "messages/a b.md"]] ∧
    ∃ body, canonicalJsonBytes samplePython (.object (projectBatch sampleRequest [collectedMessage "messages/a b.md"])) =
        .ok (bodyOf [body]) ∧
      admitBatch Edge.sampleEngine scanningParser [body] = .error (Edge.unprocessable "SOURCE_PATH_INVALID") := by
  refine ⟨by decide +kernel, by decide +kernel, by decide +kernel, ?_⟩
  obtain ⟨body, hbody, hread, raw, hraw, hfiles⟩ := sample_sent "messages/a b.md" (by decide +kernel)
  have hrefused : Edge.parseSourceFiles Edge.sampleEngine
      (some [.object (transportItem Empty (collectedMessage "messages/a b.md"))]) = .error (Edge.unprocessable "SOURCE_PATH_INVALID") := by
    decide +kernel
  refine ⟨body, hbody, ?_⟩
  rw [admitBatch, hread]
  change (Edge.parseRequest scanningParser body >>= _) = _
  rw [hraw]
  change (Edge.parseSourceFiles Edge.sampleEngine (Edge.filesOf raw) >>= _) = _
  rw [hfiles, hrefused]
  rfl

end CcbCore.Lane
