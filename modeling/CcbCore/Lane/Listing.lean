import CcbCore.Lane.Validation
import CcbCore.Text.Lines

/-!
# What a listing shows

A name that git does not quote is printed as it is: it is a text in printable ASCII, and the
code reads it back from the listing of its tree (`mem_readListing`). A quoted name begins
with a quotation mark, and is no message path for the code, whatever its file is.
-/

namespace CcbCore.Lane

open CcbCore.Python CcbCore.Git

variable {π : Type} [FileName π] {name : π}

/-- The bytes of a name. -/
def nameBytes (name : π) : List UInt8 := (FileName.bytes name).data.toList

/-- A name under `messages/` that ends in `.md`. -/
def isMessageName (name : π) : Bool :=
  (encode "messages/".toList).data.toList.isPrefixOf (nameBytes name) &&
    (encode ".md".toList).data.toList.isSuffixOf (nameBytes name)

/-! ### Lines -/

/-- A line that `splitlines` keeps whole, and `strip` does not shorten from its beginning. -/
def IsLine (line : List Char) : Prop := (∀ c ∈ line, isLineBreak c = false) ∧ ∃ c rest, line = c :: rest ∧ isSpace c = false

theorem splitlines_cons {line : List Char} (h : ∀ c ∈ line, isLineBreak c = false) (rest : List Char) :
    splitlines (line ++ '\n' :: rest) = ⟨line, ['\n']⟩ :: splitlines rest := by
  induction line with
  | nil => rfl
  | cons c line ih =>
    have hc := h c (List.mem_cons_self)
    have hcr : c ≠ '\r' := by
      rintro rfl
      exact absurd hc (by decide)
    have hrest := ih fun d hd => h d (List.mem_cons_of_mem _ hd)
    rw [List.cons_append, splitlines, if_neg (by rw [hc]; decide), hrest]
    exact fun _ hcr' => absurd hcr' hcr

theorem splitlines_last {line : List Char} (h : ∀ c ∈ line, isLineBreak c = false) (hne : line ≠ []) :
    splitlines line = [⟨line, []⟩] := by
  induction line with
  | nil => exact absurd rfl hne
  | cons c line ih =>
    have hc := h c (List.mem_cons_self)
    have hcr : c ≠ '\r' := by
      rintro rfl
      exact absurd hc (by decide)
    rw [splitlines, if_neg (by rw [hc]; decide)]
    · cases line with
      | nil => rfl
      | cons d line => rw [ih (fun d hd => h d (List.mem_cons_of_mem _ hd)) nofun]
    · exact fun _ hcr' => absurd hcr' hcr

theorem rstrip_append {text rest : List Char} (h : isBlank rest = false) : rstrip (text ++ rest) = text ++ rstrip rest := by
  have hreverse : isBlank rest.reverse = false := by rwa [isBlank, List.all_reverse]
  have hdrop : lstrip (rest.reverse ++ text.reverse) = lstrip rest.reverse ++ text.reverse := lstrip_append hreverse
  rw [lstrip, lstrip] at hdrop
  rw [rstrip, rstrip, List.rdropWhile, List.rdropWhile, List.reverse_append, hdrop, List.reverse_append, List.reverse_reverse]

theorem isBlank_of_cons {c : Char} {rest : List Char} (h : isSpace c = false) : isBlank (c :: rest) = false := by
  simp [isBlank, h]

theorem IsLine.intercalate {line : List Char} (h : IsLine line) (lines : List (List Char)) :
    ∃ c rest, List.intercalate ['\n'] (line :: lines) = c :: rest ∧ isSpace c = false := by
  obtain ⟨-, c, rest, rfl, hc⟩ := h
  cases lines with
  | nil => exact ⟨c, rest, by simp [List.intercalate], hc⟩
  | cons line' lines => exact ⟨c, _, by simp [List.intercalate, List.intersperse]; rfl, hc⟩

theorem rstrip_of_last {init : List Char} {c : Char} (h : isSpace c = false) : rstrip (init ++ [c]) = init ++ [c] := by
  rw [rstrip_append (isBlank_of_cons h), rstrip, List.rdropWhile]
  simp [h]

/-- The lines of a text of lines: its last one without the space it ends in. -/
theorem content_splitlines {init : List (List Char)} {last : List Char} (h : ∀ line ∈ init ++ [last], IsLine line) :
    (splitlines (rstrip (List.intercalate ['\n'] (init ++ [last])))).map Line.content = init ++ [rstrip last] := by
  induction init with
  | nil =>
    obtain ⟨hbreaks, c, rest, rfl, hc⟩ := h last List.mem_cons_self
    have htext : List.intercalate ['\n'] [c :: rest] = c :: rest := by simp [List.intercalate]
    have hne : rstrip (c :: rest) ≠ [] := by
      rw [Ne, rstrip, List.rdropWhile_eq_nil_iff]
      exact fun hspace => by simp [hspace c List.mem_cons_self] at hc
    have hsub : ∀ d ∈ rstrip (c :: rest), isLineBreak d = false := fun d hd =>
      hbreaks d ((List.rdropWhile_prefix isSpace (c :: rest)).subset hd)
    rw [List.nil_append, htext, splitlines_last hsub hne]
    rfl
  | cons first init ih =>
    have hfirst := h first List.mem_cons_self
    have hrest : ∀ line ∈ init ++ [last], IsLine line := fun line hline => h line (List.mem_cons_of_mem _ hline)
    obtain ⟨second, lines, heq⟩ := List.exists_cons_of_ne_nil (List.append_ne_nil_of_right_ne_nil init (List.cons_ne_nil last []))
    have htext : List.intercalate ['\n'] (first :: (init ++ [last])) =
        (first ++ ['\n']) ++ List.intercalate ['\n'] (init ++ [last]) := by
      rw [heq]
      simp [List.intercalate]
    obtain ⟨c, rest, hsecond, hc⟩ := (hrest second (by rw [heq]; exact List.mem_cons_self)).intercalate lines
    have hblank : isBlank (List.intercalate ['\n'] (init ++ [last])) = false := by
      rw [heq, hsecond]
      exact isBlank_of_cons hc
    rw [List.cons_append, htext, rstrip_append hblank, List.append_assoc, List.singleton_append, splitlines_cons hfirst.1,
      List.map_cons, ih hrest]
    rfl

/-- A line that ends in no space is read from the text of the lines. -/
theorem mem_splitlines_intercalate {lines : List (List Char)} (h : ∀ line ∈ lines, IsLine line) {line : List Char}
    (hline : line ∈ lines) (hlast : ∃ init c, line = init ++ [c] ∧ isSpace c = false) :
    ∃ record ∈ splitlines (rstrip (List.intercalate ['\n'] lines)), record.content = line := by
  obtain ⟨init, last, rfl⟩ := (List.eq_nil_or_concat' lines).resolve_left (List.ne_nil_of_mem hline)
  refine List.mem_map.mp ?_
  rw [content_splitlines h]
  rcases List.mem_append.mp hline with hmem | hmem
  · exact List.mem_append_left _ hmem
  · obtain ⟨text, c, rfl, hc⟩ := hlast
    rw [← List.mem_singleton.mp hmem, rstrip_of_last hc]
    exact List.mem_append_right _ List.mem_cons_self

/-- What is read of a listing: each line as it is, but for the last. -/
theorem readListing_concat {init : List (List Char)} {last : List Char} (h : ∀ line ∈ init ++ [last], IsLine line) :
    readListing (init ++ [last]) = (init ++ [rstrip last]).map String.ofList := by
  have hstrip : strip (List.intercalate ['\n'] (init ++ [last])) = rstrip (List.intercalate ['\n'] (init ++ [last])) := by
    obtain ⟨first, lines, heq⟩ := List.exists_cons_of_ne_nil (List.append_ne_nil_of_right_ne_nil init (List.cons_ne_nil last []))
    obtain ⟨c, rest, htext, hc⟩ := (h first (by rw [heq]; exact List.mem_cons_self)).intercalate lines
    rw [heq, strip, htext, lstrip, List.dropWhile_cons_of_neg (by rw [hc]; decide)]
  rw [readListing, hstrip, ← content_splitlines h, List.map_map]
  rfl

/-! ### Names that git does not quote -/

/-- A fact of the bytes, from that of each of them. -/
theorem byte_forall {P : UInt8 → Prop} (h : ∀ n : Fin 256, P (UInt8.ofNat n)) (byte : UInt8) : P byte := by
  have hn := h ⟨byte.toNat, byte.toNat_lt⟩
  rwa [UInt8.ofNat_toNat] at hn

theorem nameBytes_ofText (text : String) : nameBytes (FileName.ofText text : π) = text.toList.flatMap String.utf8EncodeChar := by
  rw [nameBytes, FileName.bytes_ofText, encode, String.toByteArray_ofList]
  simp [List.utf8Encode]

theorem utf8EncodeChar_ofNat {byte : UInt8} (h : escapes byte = false) :
    String.utf8EncodeChar (Char.ofNat byte.toNat) = [byte] := by
  revert h
  exact byte_forall (P := fun byte => escapes byte = false → String.utf8EncodeChar (Char.ofNat byte.toNat) = [byte])
    (by decide +kernel) byte

theorem isLineBreak_ofNat {byte : UInt8} (h : escapes byte = false) : isLineBreak (Char.ofNat byte.toNat) = false := by
  revert h
  exact byte_forall (P := fun byte => escapes byte = false → isLineBreak (Char.ofNat byte.toNat) = false)
    (by decide +kernel) byte

theorem isLineBreak_escapeByte (byte : UInt8) : ∀ c ∈ escapeByte byte, isLineBreak c = false := by
  have hnone : (escapeByte byte).any isLineBreak = false :=
    byte_forall (P := fun byte => (escapeByte byte).any isLineBreak = false) (by decide +kernel) byte
  simpa using hnone

theorem escapes_eq_false (h : isQuoted name = false) : ∀ byte ∈ nameBytes name, escapes byte = false := by
  intro byte hbyte
  rw [← Bool.not_eq_true]
  exact List.any_eq_false.mp h byte hbyte

theorem quoteName_of_isQuoted (h : isQuoted name = false) :
    quoteName name = (nameBytes name).map fun byte => Char.ofNat byte.toNat := by
  rw [quoteName, h, if_neg nofun]
  rfl

/-- A name that git does not quote is the text that it prints. -/
theorem eq_ofText_of_isQuoted (h : isQuoted name = false) : name = FileName.ofText (String.ofList (quoteName name)) := by
  apply FileName.bytes_injective
  have hbytes : nameBytes (FileName.ofText (String.ofList (quoteName name)) : π) = nameBytes name := by
    rw [nameBytes_ofText, String.toList_ofList, quoteName_of_isQuoted h, List.flatMap_map,
      List.flatMap_congr fun byte hbyte => utf8EncodeChar_ofNat (escapes_eq_false h byte hbyte)]
    simp
  exact (ByteArray.ext (Array.ext' hbytes)).symm

theorem isLine_quoteName (h : matchesPathspec "messages" name = true) : IsLine (quoteName name) := by
  by_cases hquoted : isQuoted name = true
  · rw [quoteName, if_pos hquoted]
    refine ⟨fun c hc => ?_, '"', _, rfl, by decide⟩
    simp only [List.cons_append, List.mem_cons, List.mem_append, List.mem_flatMap, List.not_mem_nil, or_false] at hc
    obtain rfl | ⟨byte, -, hc⟩ | rfl := hc
    · decide
    · exact isLineBreak_escapeByte byte c hc
    · decide
  · rw [Bool.not_eq_true] at hquoted
    rw [quoteName_of_isQuoted hquoted]
    refine ⟨fun c hc => ?_, ?_⟩
    · obtain ⟨byte, hbyte, rfl⟩ := List.mem_map.mp hc
      exact isLineBreak_ofNat (escapes_eq_false hquoted byte hbyte)
    · have hfirst : ∃ rest, nameBytes name = 0x6d :: rest := by
        obtain h | h := of_decide_eq_true h
        · exact ⟨_, h⟩
        · obtain ⟨rest, hrest⟩ := List.isPrefixOf_iff_prefix.mp h
          exact ⟨_, hrest.symm⟩
      obtain ⟨rest, hrest⟩ := hfirst
      rw [hrest]
      exact ⟨_, _, rfl, by decide⟩

/-- The text of a message's name that git does not quote. -/
theorem quoteName_message (hmessage : isMessageName name = true) (hquoted : isQuoted name = false) :
    "messages/".toList <+: quoteName name ∧ ".md".toList <:+ quoteName name := by
  obtain ⟨hstart, hsuffix⟩ := Bool.and_eq_true_iff.mp hmessage
  obtain ⟨rest, hrest⟩ := List.isPrefixOf_iff_prefix.mp hstart
  obtain ⟨init, hinit⟩ := List.isSuffixOf_iff_suffix.mp hsuffix
  rw [quoteName_of_isQuoted hquoted]
  constructor
  · rw [← hrest, List.map_append]
    exact ⟨_, congrArg (· ++ _) (by decide +kernel)⟩
  · rw [← hinit, List.map_append]
    exact ⟨_, congrArg (_ ++ ·) (by decide +kernel)⟩

theorem isMessageName_ofText {path : String} (h : isMessagePath path = true) :
    isMessageName (FileName.ofText path : π) = true := by
  obtain ⟨hstart, hend⟩ := Bool.and_eq_true_iff.mp h
  obtain ⟨rest, hrest⟩ := List.isPrefixOf_iff_prefix.mp hstart
  obtain ⟨init, hinit⟩ := List.isSuffixOf_iff_suffix.mp hend
  rw [isMessageName, Bool.and_eq_true_iff, nameBytes_ofText]
  constructor
  · rw [← hrest, List.flatMap_append]
    exact List.isPrefixOf_iff_prefix.mpr ⟨_, congrArg (· ++ _) (by decide +kernel)⟩
  · rw [← hinit, List.flatMap_append]
    exact List.isSuffixOf_iff_suffix.mpr ⟨_, congrArg (_ ++ ·) (by decide +kernel)⟩

theorem ofText_injective {text text' : String} (h : (FileName.ofText text : π) = FileName.ofText text') : text = text' := by
  have hbytes := congrArg FileName.bytes h
  rw [FileName.bytes_ofText, FileName.bytes_ofText, encode_toList, encode_toList, String.toByteArray_inj] at hbytes
  exact hbytes

/-- A name that decodes is that of its text. -/
theorem eq_ofText_of_text? {text : String} (h : text? name = some text) : name = FileName.ofText text := by
  apply FileName.bytes_injective
  obtain ⟨chars, hchars, rfl⟩ := Option.map_eq_some_iff.mp h
  obtain ⟨array, harray, rfl⟩ := Option.map_eq_some_iff.mp hchars
  rw [FileName.bytes_ofText, String.toList_ofList, encode, String.toByteArray_ofList]
  have hencode := ByteArray.utf8Encode_get_utf8Decode? (b := FileName.bytes name) (h := by rw [harray]; rfl)
  simp only [harray, Option.get_some] at hencode
  exact hencode.symm

theorem matchesPathspec_of_isMessageName (h : isMessageName name = true) : matchesPathspec "messages" name = true :=
  decide_eq_true (.inr (Bool.and_eq_true_iff.mp h).1)

/-- A name under `messages/` that ends in `.md`, which git does not quote, is read from the listing. -/
theorem mem_readListing [DecidableEq π] {files : Files π} (hmem : name ∈ files.keys) (hmessage : isMessageName name = true)
    (hquoted : isQuoted name = false) : String.ofList (quoteName name) ∈ (readListing (lsTree files)).filter isMessagePath := by
  have hlines : ∀ line ∈ lsTree files, IsLine line := by
    intro line hline
    obtain ⟨name', hname', rfl⟩ := List.mem_map.mp hline
    rw [List.mem_insertionSort, List.mem_filter] at hname'
    exact isLine_quoteName hname'.2
  have hline : quoteName name ∈ lsTree files := by
    refine List.mem_map.mpr ⟨name, ?_, rfl⟩
    rw [List.mem_insertionSort, List.mem_filter]
    exact ⟨hmem, matchesPathspec_of_isMessageName hmessage⟩
  obtain ⟨hstart, hsuffix⟩ := quoteName_message hmessage hquoted
  have hlast : ∃ init c, quoteName name = init ++ [c] ∧ isSpace c = false := by
    obtain ⟨init, hinit⟩ := hsuffix
    exact ⟨init ++ ['.', 'm'], 'd', by rw [← hinit, List.append_assoc]; rfl, by decide⟩
  obtain ⟨record, hrecord, hcontent⟩ := mem_splitlines_intercalate hlines hline hlast
  have hstrip : strip (List.intercalate ['\n'] (lsTree files)) = rstrip (List.intercalate ['\n'] (lsTree files)) := by
    obtain ⟨first, rest, heq⟩ := List.exists_cons_of_ne_nil (List.ne_nil_of_mem hline)
    rw [heq]
    obtain ⟨c, text, htext, hc⟩ := (hlines first (by rw [heq]; exact List.mem_cons_self)).intercalate rest
    rw [strip, htext, lstrip, List.dropWhile_cons_of_neg (by rw [hc]; decide)]
  rw [List.mem_filter]
  constructor
  · rw [readListing, hstrip]
    exact List.mem_map.mpr ⟨record, hrecord, by rw [hcontent]⟩
  · have htext : (String.ofList (quoteName name)).toList = quoteName name := String.toList_ofList
    rw [isMessagePath, startsWith, endsWith, htext, Bool.and_eq_true_iff]
    exact ⟨List.isPrefixOf_iff_prefix.mpr hstart, List.isSuffixOf_iff_suffix.mpr hsuffix⟩

/-! ### What a listing shows of a tree -/

theorem isLine_lsTree [DecidableEq π] {files : Files π} : ∀ line ∈ lsTree files, IsLine line := by
  intro line hline
  obtain ⟨name, hname, rfl⟩ := List.mem_map.mp hline
  rw [List.mem_insertionSort, List.mem_filter] at hname
  exact isLine_quoteName hname.2

/-- A message path ends in no space. -/
theorem last_of_isMessagePath {path : String} (h : isMessagePath path = true) :
    ∃ init c, path.toList = init ++ [c] ∧ isSpace c = false := by
  obtain ⟨init, hinit⟩ := List.isSuffixOf_iff_suffix.mp (Bool.and_eq_true_iff.mp h).2
  exact ⟨init ++ ['.', 'm'], 'd', by rw [← hinit, List.append_assoc]; rfl, by decide⟩

theorem rstrip_of_isMessagePath {path : String} (h : isMessagePath path = true) : rstrip path.toList = path.toList := by
  obtain ⟨init, c, heq, hc⟩ := last_of_isMessagePath h
  rw [heq, rstrip_of_last hc]

/-- A message path that is a line of a listing is read from it. -/
theorem mem_readListing_of_line {lines : List (List Char)} {path : String} (h : ∀ line ∈ lines, IsLine line)
    (hpath : isMessagePath path = true) (hmem : path.toList ∈ lines) : path ∈ readListing lines := by
  obtain ⟨init, last, rfl⟩ := (List.eq_nil_or_concat' lines).resolve_left (List.ne_nil_of_mem hmem)
  rw [readListing_concat h, List.mem_map]
  refine ⟨path.toList, ?_, String.ofList_toList⟩
  rcases List.mem_append.mp hmem with hmem | hmem
  · exact List.mem_append_left _ hmem
  · rw [← List.mem_singleton.mp hmem, rstrip_of_isMessagePath hpath]
    exact List.mem_append_right _ List.mem_cons_self

/-- What is read of a listing is a line of it, up to the space that a line ends in. -/
theorem line_of_mem_readListing {lines : List (List Char)} {path : String} (h : ∀ line ∈ lines, IsLine line)
    (hmem : path ∈ readListing lines) : ∃ line ∈ lines, path.toList <+: line := by
  rcases List.eq_nil_or_concat' lines with rfl | ⟨init, last, rfl⟩
  · cases hmem
  rw [readListing_concat h, List.mem_map] at hmem
  obtain ⟨text, htext, rfl⟩ := hmem
  rw [String.toList_ofList]
  rcases List.mem_append.mp htext with hinit | hlast
  · exact ⟨text, List.mem_append_left _ hinit, List.prefix_rfl⟩
  · rw [List.mem_singleton.mp hlast]
    exact ⟨last, List.mem_append_right _ List.mem_cons_self, List.rdropWhile_prefix _ _⟩

/-- With one more line, a listing shows no other message paths than before. -/
theorem mem_readListing_insert {before after : List (List Char)} {line : List Char} {path : String}
    (h : ∀ line' ∈ before ++ line :: after, IsLine line') (hline : ∃ init c, line = init ++ [c] ∧ isSpace c = false)
    (hpath : isMessagePath path = true) (hmem : path ∈ readListing (before ++ line :: after)) :
    path = String.ofList line ∨ path ∈ readListing (before ++ after) := by
  have hrest : ∀ line' ∈ before ++ after, IsLine line' := fun line' hline' => h line' (by
    rcases List.mem_append.mp hline' with hline' | hline'
    · exact List.mem_append_left _ hline'
    · exact List.mem_append_right _ (List.mem_cons_of_mem _ hline'))
  rcases List.eq_nil_or_concat' after with rfl | ⟨after, last, rfl⟩
  · -- The line is the last, and the one before it is read as it is.
    obtain ⟨init, c, rfl, hc⟩ := hline
    rw [readListing_concat h, rstrip_of_last hc, List.map_append, List.mem_append, List.map_singleton, List.mem_singleton] at hmem
    refine hmem.symm.imp_right fun hmem => ?_
    obtain ⟨text, htext, rfl⟩ := List.mem_map.mp hmem
    exact mem_readListing_of_line hrest hpath (by rw [String.toList_ofList, List.append_nil]; exact htext)
  · rw [← List.cons_append, ← List.append_assoc] at hmem h
    rw [← List.append_assoc] at hrest ⊢
    rw [readListing_concat h, List.mem_map] at hmem
    rw [readListing_concat hrest, List.mem_map]
    obtain ⟨text, htext, rfl⟩ := hmem
    simp only [List.mem_append, List.mem_cons, List.not_mem_nil, or_false] at htext ⊢
    rcases htext with (hbefore | rfl | hafter) | rfl
    · exact .inr ⟨text, .inl (.inl hbefore), rfl⟩
    · exact .inl rfl
    · exact .inr ⟨text, .inl (.inr hafter), rfl⟩
    · exact .inr ⟨_, .inr rfl, rfl⟩

/-- A file more is a line more. -/
theorem lsTree_insert [DecidableEq π] {files : Files π} (blob : String) (hnone : files.lookup name = none)
    (hmatches : matchesPathspec "messages" name = true) :
    ∃ before after, lsTree files = before ++ after ∧ lsTree (files.insert name blob) = before ++ quoteName name :: after := by
  have hkeys : (files.insert name blob).keys = name :: files.keys := by
    rw [AList.keys_insert, List.erase_of_not_mem fun hmem => AList.lookup_eq_none.mp hnone (AList.mem_keys.mpr hmem)]
  have hsorted := List.insertionSort_cons_eq_take_drop nameLe name (files.keys.filter (matchesPathspec "messages"))
  refine ⟨(((files.keys.filter (matchesPathspec "messages")).insertionSort nameLe).takeWhile fun b => ¬ nameLe name b).map quoteName,
    (((files.keys.filter (matchesPathspec "messages")).insertionSort nameLe).dropWhile fun b => ¬ nameLe name b).map quoteName, ?_, ?_⟩
  · rw [lsTree, ← List.map_append, List.takeWhile_append_dropWhile]
  · rw [lsTree, hkeys, List.filter_cons_of_pos hmatches, hsorted, List.map_append, List.map_cons]

/-- What is read of a listing as a message path is the name of a file that git does not quote, or its beginning. -/
theorem isQuoted_of_mem_readListing [DecidableEq π] {files : Files π} {path : String}
    (hmem : path ∈ (readListing (lsTree files)).filter isMessagePath) : isQuoted (FileName.ofText path : π) = false := by
  obtain ⟨hlisted, hpath⟩ := List.mem_filter.mp hmem
  obtain ⟨line, hline, hprefix⟩ := line_of_mem_readListing isLine_lsTree hlisted
  obtain ⟨name, -, rfl⟩ := List.mem_map.mp hline
  have hfirst : (quoteName name).head? = some 'm' := by
    obtain ⟨rest, hrest⟩ := hprefix
    obtain ⟨tail, htail⟩ := List.isPrefixOf_iff_prefix.mp (Bool.and_eq_true_iff.mp hpath).1
    rw [← hrest, ← htail]
    rfl
  have hquoted : isQuoted name = false := by
    rw [← Bool.not_eq_true]
    intro hquoted
    rw [quoteName, if_pos hquoted, List.cons_append, List.head?_cons, Option.some.injEq] at hfirst
    exact absurd hfirst (by decide)
  rw [quoteName_of_isQuoted hquoted] at hprefix
  obtain ⟨bytes, hbytes, heq⟩ := List.prefix_map_iff.mp hprefix
  have hbytes' : nameBytes (FileName.ofText path : π) = bytes := by
    rw [nameBytes_ofText, heq, List.flatMap_map, List.flatMap_congr fun byte hbyte =>
      utf8EncodeChar_ofNat (escapes_eq_false hquoted byte (hbytes.subset hbyte))]
    simp
  rw [isQuoted, ← Bool.not_eq_true, List.any_eq_true]
  rintro ⟨byte, hbyte, hescapes⟩
  rw [← nameBytes, hbytes'] at hbyte
  rw [escapes_eq_false hquoted byte (hbytes.subset hbyte)] at hescapes
  cases hescapes

end CcbCore.Lane
