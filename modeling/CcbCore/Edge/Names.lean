import CcbCore.Append.Envelope
import CcbCore.Edge.Request
import CcbCore.Text.Lines

/-!
# Names that can be appended, and names that can be projected

The appender checks an identity and a message id; the Edge function reads the identity
from the ref of a lane, and checks the path of a message. An identity with a `_` has no
lane for the Edge function, and a message whose file name has two dots in a row has no
path; all others have both (`names_projectable_iff`).
-/

namespace CcbCore.Edge

open CcbCore.Python CcbCore.JavaScript CcbCore.Append CcbCore.Message

variable {engine : Engine} {text : List Char} {c : Char}

/-! ### Characters -/

theorem ascii_of_isSegmentChar (h : isSegmentChar c = true) : c.toNat < 128 := by
  simp only [isSegmentChar, isAsciiAlnum, isAsciiLetter, isAsciiDigit, Bool.or_eq_true, decide_eq_true_eq,
    Bool.decide_or, Bool.decide_and, Bool.and_eq_true, Char.le_def, UInt32.le_iff_toNat_le] at h
  change c.val.toNat < 128
  rcases h with (((((⟨-, h⟩ | ⟨-, h⟩) | ⟨-, h⟩) | rfl) | rfl) | rfl)
  all_goals first | exact lt_of_le_of_lt h (by decide) | decide

/-- A character of an identity, and of what follows it in a message id. -/
def isIdentityChar (c : Char) : Bool := isLowerAlnum c || c = '_' || c = '-'

theorem isSegmentChar_of_isIdentityChar (h : isIdentityChar c = true) : isSegmentChar c = true := by
  simp only [isIdentityChar, isLowerAlnum, Bool.or_eq_true, decide_eq_true_eq] at h
  simp only [isSegmentChar, isAsciiAlnum, isAsciiLetter, Bool.or_eq_true, decide_eq_true_eq]
  tauto

theorem isIdentityChar_of_mem (h : isIdentity text = true) (hc : c ∈ text) : isIdentityChar c = true := by
  cases text with
  | nil => simp at hc
  | cons d rest =>
    simp only [isIdentity, Bool.and_eq_true, List.all_eq_true] at h
    rcases List.mem_cons.mp hc with rfl | hc
    · simp [isIdentityChar, h.1]
    · exact h.2 c hc

theorem isSegmentChar_of_isMessageId (h : isMessageId text = true) (hc : c ∈ text) : isSegmentChar c = true := by
  simp only [isMessageId, List.any_eq_true, List.mem_range, Bool.and_eq_true, decide_eq_true_eq] at h
  obtain ⟨n, hn, ⟨hfirst, hhyphen⟩, hlast⟩ := h
  rw [← List.take_append_drop n text, List.drop_eq_getElem_cons hn] at hc
  rcases List.mem_append.mp hc with hc | hc
  · exact isSegmentChar_of_isIdentityChar (isIdentityChar_of_mem hfirst hc)
  rcases List.mem_cons.mp hc with rfl | hc
  · rw [List.getElem?_eq_getElem hn, Option.some.injEq] at hhyphen
    rw [hhyphen]
    decide
  · cases hrest : text.drop (n + 1) with
    | nil => simp [hrest] at hc
    | cons d rest =>
      simp only [hrest, isLocalId, Bool.and_eq_true, List.all_eq_true] at hlast hc
      rcases List.mem_cons.mp hc with rfl | hc
      · simp [isSegmentChar, hlast.1]
      · have := hlast.2 c hc
        simp only [isSegmentChar, Bool.or_eq_true, decide_eq_true_eq] at *
        tauto

/-- A character of a segment is not white, and is the same in lower case when it is no
upper-case letter. -/
theorem segmentChar_facts (h : isSegmentChar c = true) :
    isWhite c = false ∧ c ≠ '/' ∧ (c = '`' ∨ c = '"' ∨ c = '\'') = False := by
  refine ascii_forall (P := fun c => isSegmentChar c = true →
    isWhite c = false ∧ c ≠ '/' ∧ (c = '`' ∨ c = '"' ∨ c = '\'') = False) ?_ (ascii_of_isSegmentChar h) h
  decide

/-! ### Texts -/

theorem trim_eq_self (h : ∀ c ∈ text, isWhite c = false) : trim text = text := by
  rw [trim, trimStart, trimEnd]
  have hstart : text.dropWhile isWhite = text := by
    cases text with
    | nil => rfl
    | cons c rest => exact List.dropWhile_cons_of_neg (by simp [h c (by simp)])
  rw [hstart]
  rcases List.eq_nil_or_concat text with rfl | ⟨rest, c, rfl⟩
  · rfl
  · rw [List.concat_eq_append] at *
    exact List.rdropWhile_concat_neg _ _ _ (by simp [h c (by simp)])

theorem trimString_eq_self {value : String} (h : ∀ c ∈ value.toList, isWhite c = false) : trimString value = value := by
  rw [trimString, trim_eq_self h, String.ofList_toList]

/-- A text of segment characters is as it is written: it is trimmed, and not quoted. -/
theorem unwrapScalar_eq_self (h : ∀ c ∈ text, isSegmentChar c = true) : unwrapScalar text = text := by
  have htrim : trim text = text := trim_eq_self fun c hc => (segmentChar_facts (h c hc)).1
  rw [unwrapScalar, htrim]
  cases text with
  | nil => rfl
  | cons c rest =>
    have hquote := (segmentChar_facts (h c (by simp))).2.2
    simp [unquote, hquote]

/-- Two characters are in a row in a text, or where it goes on to another. -/
theorem pair_infix_append {a b : Char} {first last : List Char} :
    [a, b] <:+: first ++ last ↔
      [a, b] <:+: first ∨ [a, b] <:+: last ∨ (first.getLast? = some a ∧ last.head? = some b) := by
  induction first with
  | nil => simp
  | cons c first ih =>
    rw [List.cons_append, List.infix_cons_iff, ih, List.infix_cons_iff]
    cases first with
    | nil =>
      cases last with
      | nil => simp
      | cons d last =>
        simp only [List.nil_append, List.cons_prefix_cons, List.nil_prefix, and_true, List.getLast?_singleton,
          Option.some.injEq, List.head?_cons]
        grind
    | cons d first =>
      rw [List.getLast?_cons_cons]
      simp only [List.cons_append, List.cons_prefix_cons, List.nil_prefix, and_true]
      tauto

/-! ### Lanes -/

theorem lower_identity {identity : String} (h : isIdentity identity.toList = true) : lower identity = identity := by
  have hall : ∀ c ∈ identity.toList, lowerChar c = c := by
    intro c hc
    have hchar := isIdentityChar_of_mem h hc
    have hascii := ascii_of_isSegmentChar (isSegmentChar_of_isIdentityChar hchar)
    exact ascii_forall (P := fun c => isIdentityChar c = true → lowerChar c = c) (by decide) hascii hchar
  rw [lower, List.map_congr_left hall, List.map_id', String.ofList_toList]

/-- The alias of an identity is all that normalizing changes. -/
theorem normalizeIdentity_identity {identity : String} (h : isIdentity identity.toList = true) :
    normalizeIdentity engine identity = aliasIdentity identity := by
  have hchars : ∀ c ∈ identity.toList, isSegmentChar c = true := fun c hc =>
    isSegmentChar_of_isIdentityChar (isIdentityChar_of_mem h hc)
  rw [normalizeIdentity, unwrapScalar_eq_self hchars, String.ofList_toList,
    engine.toLowerCase_ascii _ fun c hc => ascii_of_isSegmentChar (hchars c hc), lower_identity h]

/-- The name in the ref of a lane. -/
theorem refIdentity_lane {name digits : List Char} (hname : name ≠ []) (hline : name.all (fun c => !isLineTerminator c) = true)
    (hdigits : digits ≠ []) (hall : digits.all isAsciiDigit = true) :
    refIdentity ("refs/heads/bus/".toList ++ (name ++ ("-v".toList ++ digits))) = some name := by
  have hstem : (name ++ ("-v".toList ++ digits)).rdropWhile isAsciiDigit = name ++ "-v".toList := by
    have hall' : ∀ c ∈ digits.reverse, isAsciiDigit c = true := by
      simpa [List.all_eq_true] using hall
    have hv := List.rdropWhile_concat_neg isAsciiDigit (name ++ ['-']) 'v' (by decide)
    rw [← List.append_assoc, List.rdropWhile, List.reverse_append, List.dropWhile_append_of_pos hall']
    simpa [List.rdropWhile] using hv
  have hprefix : "refs/heads/bus/".toList.isPrefixOf ("refs/heads/bus/".toList ++ (name ++ ("-v".toList ++ digits))) = true := by
    rw [List.isPrefixOf_iff_prefix]
    exact List.prefix_append _ _
  have hdrop : ("refs/heads/bus/".toList ++ (name ++ ("-v".toList ++ digits))).drop "refs/heads/bus/".length =
      name ++ ("-v".toList ++ digits) := List.drop_left' (by decide)
  have htake : (name ++ "-v".toList).take ((name ++ "-v".toList).length - 2) = name := List.take_left' (by simp)
  have hlength : (name ++ "-v".toList).length < (name ++ ("-v".toList ++ digits)).length := by
    have := List.length_pos_of_ne_nil hdigits
    simp only [List.length_append]
    omega
  have hsuffix : "-v".toList.isSuffixOf (name ++ "-v".toList) = true := by
    rw [List.isSuffixOf_iff_suffix]
    exact List.suffix_append _ _
  simp only [refIdentity, hprefix, if_true, hdrop, hstem, htake]
  rw [if_pos ⟨hlength, hsuffix, hname, hline⟩]

theorem isLaneChar_iff (h : isIdentityChar c = true) : isLaneChar c = true ↔ c ≠ '_' :=
  ascii_forall (P := fun c => isIdentityChar c = true → (isLaneChar c = true ↔ c ≠ '_')) (by decide)
    (ascii_of_isSegmentChar (isSegmentChar_of_isIdentityChar h)) h

theorem not_isLineTerminator_of_isIdentityChar (h : isIdentityChar c = true) : isLineTerminator c = false :=
  ascii_forall (P := fun c => isIdentityChar c = true → isLineTerminator c = false) (by decide)
    (ascii_of_isSegmentChar (isSegmentChar_of_isIdentityChar h)) h

/-- The ref of a lane has the lane's identity, unless there is a `_` in it. -/
theorem laneIdentityFromRef_lane {identity digits : String} (h : isIdentity identity.toList = true)
    (hdigits : digits ≠ "") (hall : digits.toList.all isAsciiDigit = true) :
    laneIdentityFromRef engine ("refs/heads/" ++ ("bus/" ++ identity ++ "-v" ++ digits)) =
      if '_' ∈ identity.toList then none else some (aliasIdentity identity) := by
  have hname : identity.toList ≠ [] := by
    intro hnil
    simp [hnil, isIdentity] at h
  have hline : identity.toList.all (fun c => !isLineTerminator c) = true := by
    rw [List.all_eq_true]
    exact fun c hc => by simp [not_isLineTerminator_of_isIdentityChar (isIdentityChar_of_mem h hc)]
  have hlist : ("refs/heads/" ++ ("bus/" ++ identity ++ "-v" ++ digits)).toList =
      "refs/heads/bus/".toList ++ (identity.toList ++ ("-v".toList ++ digits.toList)) := by
    simp [String.toList_append]
  have hlane : identity.toList.all isLaneChar = true ↔ '_' ∉ identity.toList := by
    rw [List.all_eq_true]
    constructor
    · intro hall hmem
      exact absurd rfl ((isLaneChar_iff (isIdentityChar_of_mem h hmem)).mp (hall _ hmem))
    · intro hnot c hc
      rw [isLaneChar_iff (isIdentityChar_of_mem h hc)]
      rintro rfl
      exact hnot hc
  rw [laneIdentityFromRef, hlist, refIdentity_lane hname hline (by simpa using hdigits) hall]
  by_cases hmem : '_' ∈ identity.toList
  · simp [hmem, hlane]
  · simp [hmem, hlane, hname, String.ofList_toList, normalizeIdentity_identity h]

/-! ### Paths -/

/-- A path with one segment of its own is taken, unless it has two dots in a row. -/
theorem sourcePath_eq {path : String} {segment : List Char} (htrim : trimString path = path) (hne : path ≠ "")
    (hstart : startsWith path "messages/" = true) (hend : endsWith path ".md" = true)
    (hsplit : (path.toList.splitOn '/').drop 1 = [segment]) (hsegment : isPathSegment segment = true) :
    sourcePath (.string path) =
      if includes path.toList "..".toList then .error (unprocessable "SOURCE_PATH_INVALID") else .ok path := by
  simp only [sourcePath, requireString, htrim, if_neg hne, bind, Except.bind, hstart, hend, hsplit, Bool.true_eq_false,
    false_or, List.any_cons, List.any_nil, hsegment]
  rfl

section Path

variable {messageId : String} (h : ∀ c ∈ messageId.toList, isSegmentChar c = true)

theorem path_toList : ("messages/" ++ messageId ++ ".md").toList =
    "messages".toList ++ '/' :: (messageId.toList ++ ".md".toList) := by
  simp [String.toList_append]

theorem includes_path :
    includes ("messages/" ++ messageId ++ ".md").toList "..".toList = true ↔
      "..".toList <:+: messageId.toList ∨ messageId.toList.getLast? = some '.' := by
  have hfirst : ¬ ['.', '.'] <:+: "messages/".toList := by simp [List.infix_cons_iff]
  have hlast : ¬ ['.', '.'] <:+: ".md".toList := by simp [List.infix_cons_iff]
  have hend : ("messages/".toList ++ messageId.toList).getLast? = some '.' ↔ messageId.toList.getLast? = some '.' := by
    rw [List.getLast?_append]
    cases messageId.toList.getLast? <;> simp
  rw [includes_iff, String.toList_append, String.toList_append]
  change ['.', '.'] <:+: _ ↔ ['.', '.'] <:+: _ ∨ _
  have hslash : "messages/".toList.getLast? ≠ some '.' := by decide
  have hdot : ".md".toList.head? = some '.' := rfl
  rw [pair_infix_append, pair_infix_append, hend, hdot]
  simp only [hfirst, hlast, hslash, false_or, false_and, or_false, and_true]

include h

theorem segment_message : isPathSegment (messageId.toList ++ ".md".toList) = true := by
  have hmd : ∀ c ∈ ".md".toList, isSegmentChar c = true := List.all_eq_true.mp (by decide)
  rw [isPathSegment, decide_eq_true_eq, List.all_eq_true]
  exact ⟨by simp, fun c hc => (List.mem_append.mp hc).elim (h c) (hmd c)⟩

theorem trim_path : trimString ("messages/" ++ messageId ++ ".md") = "messages/" ++ messageId ++ ".md" := by
  have hfirst : ∀ c ∈ "messages/".toList, isWhite c = false := by simp [isWhite]
  have hmd : ∀ c ∈ ".md".toList, isWhite c = false := by simp [isWhite]
  refine trimString_eq_self fun c hc => ?_
  rw [String.toList_append, String.toList_append, List.mem_append, List.mem_append] at hc
  rcases hc with (hc | hc) | hc
  · exact hfirst c hc
  · exact (segmentChar_facts (h c hc)).1
  · exact hmd c hc

theorem splitOn_path :
    (("messages/" ++ messageId ++ ".md").toList.splitOn '/').drop 1 = [messageId.toList ++ ".md".toList] := by
  have hfirst : ∀ c ∈ "messages".toList, (c == '/') = false := by simp
  have hmd : ∀ c ∈ ".md".toList, (c == '/') = false := by simp
  have hrest : ∀ c ∈ messageId.toList ++ ".md".toList, (c == '/') = false := fun c hc =>
    (List.mem_append.mp hc).elim (fun hc => by simp [(segmentChar_facts (h c hc)).2.1]) (hmd c)
  rw [path_toList, List.splitOn, List.splitOnP_append_cons_of_forall_mem hfirst _ (by simp),
    List.splitOnP_eq_singleton hrest]
  rfl

/-- The path of a message is one the Edge function takes, unless its file name has two
dots in a row. -/
theorem sourcePath_message :
    sourcePath (.string ("messages/" ++ messageId ++ ".md")) =
      if "..".toList <:+: messageId.toList ∨ messageId.toList.getLast? = some '.' then
        .error (unprocessable "SOURCE_PATH_INVALID")
      else .ok ("messages/" ++ messageId ++ ".md") := by
  have hne : "messages/" ++ messageId ++ ".md" ≠ "" := by
    rw [Ne, ← String.toList_inj, path_toList]
    simp
  have hstart : startsWith ("messages/" ++ messageId ++ ".md") "messages/" = true := by
    rw [startsWith, List.isPrefixOf_iff_prefix, path_toList]
    exact ⟨messageId.toList ++ ".md".toList, rfl⟩
  have hend : endsWith ("messages/" ++ messageId ++ ".md") ".md" = true := by
    rw [endsWith, List.isSuffixOf_iff_suffix, path_toList]
    exact ⟨"messages".toList ++ '/' :: messageId.toList, by simp⟩
  rw [sourcePath_eq (trim_path h) hne hstart hend (splitOn_path h) (segment_message h)]
  simp only [includes_path]

end Path

/-! ### Both -/

/-- What the Edge function takes of a source file besides its path. -/
def OthersTaken (engine : Engine) (fields : List (String × Json)) : Prop :=
  (∃ sha, requireSha40 engine (Json.get fields "source_commit") "SOURCE_GIT_SHA_INVALID" = .ok sha) ∧
  (∃ time, requireString (Json.get fields "source_committed_at") "SOURCE_COMMITTED_AT_REQUIRED" = .ok time) ∧
  (∃ sha, requireSha40 engine (Json.get fields "blob_sha") "SOURCE_GIT_SHA_INVALID" = .ok sha) ∧
  ∃ content, requireString (Json.get fields "content_base64") "SOURCE_CONTENT_REQUIRED" = .ok content

theorem parseSourceFiles_singleton {fields : List (String × Json)} (h : OthersTaken engine fields) :
    (∃ files, parseSourceFiles engine (some [.object fields]) = .ok files) ↔
      ∃ path, sourcePath (Json.get fields "path") = .ok path := by
  obtain ⟨⟨commit, hcommit⟩, ⟨time, htime⟩, ⟨blob, hblob⟩, content, hcontent⟩ := h
  have hitem : parseSourceFile engine (.object fields) =
      (sourcePath (Json.get fields "path")).map fun path => ⟨path, commit, time, blob, content⟩ := by
    cases hpath : sourcePath (Json.get fields "path") with
    | error e => simp [parseSourceFile, requireObject, hpath, bind, Except.bind, Except.map]
    | ok path =>
      simp [parseSourceFile, requireObject, hpath, hcommit, htime, hblob, hcontent, bind, Except.bind, pure, Except.pure,
        Except.map]
  have hone : parseSourceFiles engine (some [.object fields]) = (parseSourceFile engine (.object fields)).map fun file => [file] := by
    cases hfile : parseSourceFile engine (.object fields) <;>
      simp [parseSourceFiles, maxFiles, hfile, bind, Except.bind, pure, Except.pure, Except.map]
  rw [hone, hitem]
  cases sourcePath (Json.get fields "path") <;> simp [Except.map]

/-- **An identity and a message id that the appender takes are names that the Edge
function takes, from the ref of the lane and the path of the message, unless the
identity has a `_` or the file name has two dots in a row.** -/
theorem names_projectable_iff (engine : Engine) (identity messageId digits : String) (fields : List (String × Json))
    (hidentity : validateIdentity identity = .ok identity) (hid : validateMessageId identity messageId = .ok ())
    (hdigits : digits ≠ "") (hall : digits.toList.all isAsciiDigit = true)
    (hpath : Json.get fields "path" = .string ("messages/" ++ messageId ++ ".md")) (hothers : OthersTaken engine fields) :
    (laneIdentityFromRef engine ("refs/heads/" ++ ("bus/" ++ identity ++ "-v" ++ digits)) = some (aliasIdentity identity) ∧
      ∃ files, parseSourceFiles engine (some [.object fields]) = .ok files) ↔
    '_' ∉ identity.toList ∧ ¬ "..".toList <:+: messageId.toList ∧ messageId.toList.getLast? ≠ some '.' := by
  have hname : isIdentity identity.toList = true := by
    by_contra hnot
    simp [validateIdentity, hnot] at hidentity
  have hmessage : isMessageId messageId.toList = true := by
    by_contra hnot
    simp [validateMessageId, hnot] at hid
  rw [laneIdentityFromRef_lane hname hdigits hall, parseSourceFiles_singleton hothers, hpath,
    sourcePath_message fun c => isSegmentChar_of_isMessageId hmessage]
  refine and_congr ?_ ?_
  · by_cases hmem : '_' ∈ identity.toList <;> simp [hmem]
  · by_cases hdots : "..".toList <:+: messageId.toList ∨ messageId.toList.getLast? = some '.'
    · simp only [if_pos hdots, reduceCtorEq, exists_false, false_iff]
      tauto
    · simp only [if_neg hdots, Except.ok.injEq, exists_eq', true_iff]
      tauto

/-! ### Names -/

/-- An engine that knows no date. -/
def sampleEngine : Engine := ⟨lower, Python.Runtime.ascii.casefold_ascii, fun _ => none⟩

def sampleSha : String := String.ofList (List.replicate 40 'a')

def sampleFile (path : String) : List (String × Json) :=
  [("path", .string path), ("source_commit", .string sampleSha), ("source_committed_at", .string "2026-01-01T00:00:00Z"),
    ("blob_sha", .string sampleSha), ("content_base64", .string "eA==")]

theorem othersTaken_sampleFile : OthersTaken sampleEngine (sampleFile "messages/yin-1.md") :=
  ⟨⟨sampleSha, by decide +kernel⟩, ⟨"2026-01-01T00:00:00Z", by decide +kernel⟩, ⟨sampleSha, by decide +kernel⟩, "eA==",
    by decide +kernel⟩

theorem names_projectable_sample :
    laneIdentityFromRef sampleEngine "refs/heads/bus/yin-v2" = some (aliasIdentity "yin") ∧
      ∃ files, parseSourceFiles sampleEngine (some [.object (sampleFile "messages/yin-1.md")]) = .ok files :=
  (names_projectable_iff sampleEngine "yin" "yin-1" "2" (sampleFile "messages/yin-1.md") (by decide +kernel)
    (by decide +kernel) (by decide) (by decide) rfl othersTaken_sampleFile).mpr
    ⟨by decide, by simp [List.infix_cons_iff], by decide⟩

/-- The lane of an identity with a `_` has no identity for the Edge function, and a message
with two dots in its id no path. -/
theorem appendable_names_refused :
    (validateIdentity "a_b" = .ok "a_b" ∧ validateMessageId "a_b" "a_b-1" = .ok () ∧
      laneIdentityFromRef sampleEngine "refs/heads/bus/a_b-v2" = none) ∧
    (validateIdentity "yin" = .ok "yin" ∧ validateMessageId "yin" "yin-a..b" = .ok () ∧
      parseSourceFiles sampleEngine (some [.object (sampleFile "messages/yin-a..b.md")]) =
        .error (unprocessable "SOURCE_PATH_INVALID")) := by
  decide +kernel

end CcbCore.Edge
