import CcbCore.Append.Envelope
import CcbCore.Message.Grammar
import CcbCore.Text.Lines

/-!
# The appender's reader and the guard's

`_metadata_headers` of `src/radar/safe_lane_append.py` mirrors `_split_document` of
`src/radar/message_grammar.py`. A line with its boundary and the line without it have the
same header (`putHeader_agree`), so a metadata block has the same headers for both. In
frontmatter the guard passes over a line that begins with a hyphen, where the appender puts
a header whose key begins with `_`; the headers that authenticate a message are no such
keys (`Within`). `mirror` is the whole.
-/

namespace CcbCore.Message

open CcbCore.Python CcbCore.Append

variable {text : List Char} {line : Line} {lines : List Line} {headers headers' : Headers}

/-! ### Header lines -/

/-- The header of a line: its key, and its value as it is put. -/
def headerOf (line : List Char) : Option (String × List Char) :=
  (matchHeader line).map fun (key, value) => (normalizeKey key, unwrapScalar value)

theorem putHeaderOr_eq {ε : Type} (duplicate : String → ε) (headers : Headers) (line : List Char) :
    putHeaderOr duplicate headers line =
      match headerOf line with
      | none => .ok none
      | some (key, value) =>
        if (headers.lookup key).isSome then .error (duplicate key) else .ok (some (headers ++ [(key, value)])) := by
  rw [putHeaderOr, headerOf]
  cases matchHeader line with
  | none => rfl
  | some header => rfl

theorem unwrapScalar_congr {value value' : List Char} (h : strip value = strip value') : unwrapScalar value = unwrapScalar value' := by
  rw [unwrapScalar, unwrapScalar, h]

theorem not_key_of_isSpace {c : Char} (h : isSpace c = true) : isKeyChar c = false := by
  have hspace : ∀ v ∈ [0x09, 0x0a, 0x0b, 0x0c, 0x0d, 0x1c, 0x1d, 0x1e, 0x1f, 0x20, 0x85, 0xa0, 0x1680,
      0x2000, 0x2001, 0x2002, 0x2003, 0x2004, 0x2005, 0x2006, 0x2007, 0x2008, 0x2009, 0x200a,
      0x2028, 0x2029, 0x202f, 0x205f, 0x3000], isKeyChar (Char.ofNat v) = false := by decide
  have hval : c.toNat ∈ ([0x09, 0x0a, 0x0b, 0x0c, 0x0d, 0x1c, 0x1d, 0x1e, 0x1f, 0x20, 0x85, 0xa0, 0x1680,
      0x2000, 0x2001, 0x2002, 0x2003, 0x2004, 0x2005, 0x2006, 0x2007, 0x2008, 0x2009, 0x200a,
      0x2028, 0x2029, 0x202f, 0x205f, 0x3000] : List ℕ) := List.mem_map_of_mem (f := UInt32.toNat) (of_decide_eq_true h)
  exact Char.ofNat_toNat c ▸ hspace _ hval

/-- A space at the end is no part of the key, or of what is between it and the colon. -/
theorem span_append {content space : List Char} (h : isBlank space = true) :
    (content ++ space).takeWhile isKeyChar = content.takeWhile isKeyChar ∧
      (content ++ space).dropWhile isKeyChar = content.dropWhile isKeyChar ++ space := by
  have hspace : space.takeWhile isKeyChar = [] ∧ space.dropWhile isKeyChar = space := by
    cases space with
    | nil => exact ⟨rfl, rfl⟩
    | cons c space =>
      have hc := not_key_of_isSpace (List.all_eq_true.mp h c List.mem_cons_self)
      simp [hc]
  induction content with
  | nil => exact hspace
  | cons c content ih =>
    rw [List.cons_append, List.takeWhile_cons, List.takeWhile_cons, List.dropWhile_cons, List.dropWhile_cons, ih.1, ih.2]
    split
    · exact ⟨rfl, rfl⟩
    · exact ⟨rfl, rfl⟩

/-- The space after a line is no part of its header. -/
theorem headerOf_append {content space : List Char} (h : isBlank space = true) : headerOf (content ++ space) = headerOf content := by
  obtain ⟨hkey, hrest⟩ := span_append h
  have hvalue (value : List Char) : strip ((value ++ space).dropWhile isSpace) = strip (value.dropWhile isSpace) := by
    have hstrip (text : List Char) : strip (text.dropWhile isSpace) = strip text :=
      congrArg rstrip (List.dropWhile_idempotent isSpace text)
    rw [hstrip, hstrip, strip_append_of_blank h]
  rw [headerOf, headerOf, matchHeader, matchHeader, hkey, hrest]
  cases content.takeWhile isKeyChar with
  | nil => rfl
  | cons c key =>
    cases hblank : isBlank (content.dropWhile isKeyChar) with
    | true =>
      have hnil : lstrip (content.dropWhile isKeyChar) = [] := lstrip_eq_nil_iff.mpr hblank
      have hnil' : lstrip (content.dropWhile isKeyChar ++ space) = [] := by
        rw [lstrip_append_of_blank hblank, lstrip_eq_nil_iff.mpr h]
      rw [lstrip] at hnil hnil'
      rw [hnil, hnil']
    | false =>
      have happend : lstrip (content.dropWhile isKeyChar ++ space) = lstrip (content.dropWhile isKeyChar) ++ space :=
        lstrip_append hblank
      rw [lstrip, lstrip] at happend
      rw [happend]
      cases hrest : (content.dropWhile isKeyChar).dropWhile isSpace with
      | nil => rw [lstrip_eq_nil_iff.mp hrest] at hblank; cases hblank
      | cons d value =>
        by_cases hcolon : d = ':'
        · subst hcolon
          simp only [List.cons_append, Option.map_some, Option.some.injEq, Prod.mk.injEq, true_and]
          exact unwrapScalar_congr (hvalue value)
        · simp [hcolon]

theorem headerOf_space {c : Char} {rest : List Char} (h : isSpace c = true) : headerOf (c :: rest) = none := by
  rw [headerOf, matchHeader, List.takeWhile_cons, not_key_of_isSpace h]
  rfl

/-- A header whose line begins with a hyphen has a key that begins with `_`. -/
theorem head?_headerOf {rest value : List Char} {key : String} (h : headerOf ('-' :: rest) = some (key, value)) :
    key.toList.head? = some '_' := by
  rw [headerOf, matchHeader, List.takeWhile_cons_of_pos (by decide), Option.map_eq_some_iff] at h
  obtain ⟨⟨key', value'⟩, h, hkey⟩ := h
  split at h
  · next c key'' rest hkey' _ =>
    cases h
    obtain ⟨rfl, -⟩ := List.cons.inj hkey'
    rw [← (Prod.mk.inj hkey).1, normalizeKey, String.toList_ofList]
    rfl
  · cases h

/-! ### Lines -/

/-- A line of `splitlines`: no boundary is in its content, and its ending is one. -/
structure Parted (line : Line) : Prop where
  content : ∀ c ∈ line.content, isLineBreak c = false
  ending : ∀ c ∈ line.ending, isLineBreak c = true

theorem parted_splitlines (h : line ∈ splitlines text) : Parted line := ⟨(mem_splitlines h).1, (mem_splitlines h).2⟩

namespace Parted

theorem blank_ending (h : Parted line) : isBlank line.ending = true := Line.blank_ending h.ending

/-- What is left of the boundary is blank. -/
theorem rstripNewlines_text (h : Parted line) :
    ∃ space, isBlank space = true ∧ rstripNewlines line.text = line.content ++ space := by
  have hblank := h.blank_ending
  rw [Line.text]
  generalize line.ending = ending at hblank
  induction ending using List.reverseRecOn with
  | nil =>
    refine ⟨[], rfl, ?_⟩
    rw [List.append_nil, rstripNewlines, List.rdropWhile_eq_self_iff]
    intro hne hlast
    have hbreak := h.content _ (List.getLast_mem hne)
    rcases of_decide_eq_true hlast with hlast | hlast <;> rw [hlast] at hbreak <;> exact absurd hbreak (by decide)
  | append_singleton ending c ih =>
    rw [isBlank_append, Bool.and_eq_true] at hblank
    rw [rstripNewlines, ← List.append_assoc]
    rw [List.rdropWhile_concat]
    split
    · exact ih hblank.1
    · rw [List.append_assoc]
      exact ⟨ending ++ [c], by rw [isBlank_append, hblank.1, hblank.2, Bool.and_true], rfl⟩

/-- A line with its boundary and the line without it have the same header. -/
theorem headerOf_text (h : Parted line) : headerOf (rstripNewlines line.text) = headerOf line.content := by
  obtain ⟨space, hblank, heq⟩ := h.rstripNewlines_text
  rw [heq, headerOf_append hblank]

end Parted

theorem dropWhile_blank (hlines : ∀ line ∈ lines, Parted line) :
    (lines.map Line.content).dropWhile isBlank = (lines.dropWhile fun line => isBlank line.text).map Line.content := by
  induction lines with
  | nil => rfl
  | cons line lines ih =>
    rw [List.map_cons, List.dropWhile_cons, List.dropWhile_cons, Line.isBlank_text (hlines line List.mem_cons_self).blank_ending,
      ih fun line h => hlines line (List.mem_cons_of_mem _ h)]
    split <;> rfl

/-! ### A metadata block -/

/-- Both refuse, or both read the same headers. -/
inductive Mirrored {β : Type} : Except Exc Headers → Except String (Headers × β) → Prop where
  | refused (e : Exc) (e' : String) : Mirrored (.error e) (.error e')
  | read (headers : Headers) (rest : β) : Mirrored (.ok headers) (.ok (headers, rest))

theorem Mirrored.map {β γ : Type} {f : β → γ} {result : Except Exc Headers} {result' : Except String (Headers × β)}
    (h : Mirrored result result') : Mirrored result (result'.map fun (headers, rest) => (headers, f rest)) := by
  cases h with
  | refused e e' => exact .refused e e'
  | read headers rest => exact .read headers (f rest)

theorem blockHeaders_mirror (hlines : ∀ line ∈ lines, Parted line) (started : Bool) :
    Mirrored (blockHeaders headers started (lines.map Line.content)) (splitBlock headers started lines) := by
  induction lines generalizing headers started with
  | nil =>
    cases started with
    | false => exact .refused _ _
    | true => exact .read _ _
  | cons line lines ih =>
    have hline := hlines line List.mem_cons_self
    have hrest : ∀ line ∈ lines, Parted line := fun line h => hlines line (List.mem_cons_of_mem _ h)
    rw [List.map_cons, blockHeaders, splitBlock, Line.isBlank_text hline.blank_ending, putMessageHeader, putHeader, putHeaderOr_eq,
      putHeaderOr_eq, hline.headerOf_text]
    by_cases hblank : isBlank line.content = true
    · rw [if_pos hblank, if_pos hblank]
      cases started with
      | false => exact ih hrest false
      | true => exact .read _ _
    rw [if_neg hblank, if_neg hblank]
    cases headerOf line.content with
    | none =>
      cases started with
      | false => exact .refused _ _
      | true => exact .read _ _
    | some header =>
      obtain ⟨key, value⟩ := header
      by_cases hput : (headers.lookup key).isSome = true
      · simp only [if_pos hput]
        exact .refused _ _
      · simp only [if_neg hput]
        exact ih hrest true

/-! ### Frontmatter -/

/-- The guard's headers are among the appender's, and differ from them in keys that begin
with `_` at most. -/
structure Within (headers headers' : Headers) : Prop where
  sub : ∀ key, (headers'.lookup key).isSome → (headers.lookup key).isSome
  same : ∀ key : String, key.toList.head? ≠ some '_' → headers'.lookup key = headers.lookup key

theorem Within.put (h : Within headers headers') (header : String × List Char) :
    Within (headers ++ [header]) (headers' ++ [header]) where
  sub key hkey := by
    rw [List.lookup_append, Option.isSome_or, Bool.or_eq_true] at hkey ⊢
    exact hkey.imp_left (h.sub key)
  same key hkey := by rw [List.lookup_append, List.lookup_append, h.same key hkey]

theorem Within.skip {key : String} {value : List Char} (h : Within headers headers') (hhead : key.toList.head? = some '_') :
    Within (headers ++ [(key, value)]) headers' where
  sub key' hkey := by
    rw [List.lookup_append, Option.isSome_or, Bool.or_eq_true]
    exact .inl (h.sub key' hkey)
  same key' hkey := by
    have hne : (key' == key) = false := beq_false_of_ne fun heq => hkey (heq ▸ hhead)
    rw [List.lookup_append, List.lookup_cons, hne, List.lookup_nil, Option.or_none, h.same key' hkey]

/-- A line that the guard passes over, and that begins with no space, begins with a hyphen. -/
theorem head?_content (hline : Parted line) (hspace : ¬ line.text.head?.any isSpace = true)
    (hhyphen : (strip line.text).head? = some '-') : ∃ rest, line.content = '-' :: rest := by
  rw [Line.strip_text hline.blank_ending] at hhyphen
  rw [Line.text] at hspace
  cases hcontent : line.content with
  | nil =>
    rw [hcontent] at hhyphen
    exact absurd hhyphen (by decide)
  | cons c rest =>
    rw [hcontent, List.cons_append, List.head?_cons, Option.any_some] at hspace
    rw [hcontent, strip, lstrip, List.dropWhile_cons_of_neg hspace] at hhyphen
    obtain ⟨tail, htail⟩ := List.rdropWhile_prefix isSpace (c :: rest)
    obtain ⟨stripped, hstripped⟩ := List.head?_eq_some_iff.mp hhyphen
    rw [rstrip] at hstripped
    rw [hstripped, List.cons_append] at htail
    exact ⟨rest, by rw [(List.cons.inj htail).1]⟩

/-- A line with a margin has no header. -/
theorem headerOf_margin (hne : strip line.content ≠ []) (hspace : line.text.head?.any isSpace = true) :
    headerOf line.content = none := by
  rw [Line.text] at hspace
  cases hcontent : line.content with
  | nil => exact absurd (congrArg strip hcontent) hne
  | cons c rest =>
    rw [hcontent, List.cons_append, List.head?_cons, Option.any_some] at hspace
    exact headerOf_space hspace

theorem frontmatter_mirror {result : Headers} (hlines : ∀ line ∈ lines, Parted line) (h : Within headers headers')
    (hread : frontmatterHeaders headers (lines.map Line.content) = .ok result)
    (hgiven : (result.lookup "message_id").isSome = true) :
    ∃ result' rest, splitFrontmatter headers' lines = .ok (result', rest) ∧ Within result result' := by
  induction lines generalizing headers headers' with
  | nil => cases hread
  | cons line lines ih =>
    have hline := hlines line List.mem_cons_self
    have hrest : ∀ line ∈ lines, Parted line := fun line h => hlines line (List.mem_cons_of_mem _ h)
    rw [List.map_cons, frontmatterHeaders] at hread
    rw [splitFrontmatter, Line.strip_text hline.blank_ending]
    by_cases hend : strip line.content = ['-', '-', '-']
    · rw [if_pos hend] at hread ⊢
      split at hread
      · cases hread
      · cases hread
        have hne : headers' ≠ [] := by
          rintro rfl
          rw [← h.same "message_id" (by decide)] at hgiven
          cases hgiven
        rw [if_neg hne]
        exact ⟨_, _, rfl, h⟩
    rw [if_neg hend] at hread ⊢
    by_cases hput : strip line.content ≠ [] ∧ line.content.head? ≠ some ' ' ∧ line.content.head? ≠ some '\t'
    · rw [if_pos hput, putMessageHeader, putHeaderOr_eq] at hread
      cases hheader : headerOf line.content with
      | none =>
        rw [hheader] at hread
        cases hread
      | some header =>
        obtain ⟨key, value⟩ := header
        by_cases hdup : (headers.lookup key).isSome = true
        · simp only [hheader, if_pos hdup] at hread
          cases hread
        simp only [hheader, if_neg hdup] at hread
        have hspace : ¬ line.text.head?.any isSpace = true := fun hspace => by
          rw [headerOf_margin hput.1 hspace] at hheader
          cases hheader
        by_cases hhyphen : (strip line.text).head? = some '-'
        · obtain ⟨rest, hcontent⟩ := head?_content hline hspace hhyphen
          rw [hcontent] at hheader
          rw [if_pos (.inr (Line.strip_text hline.blank_ending ▸ hhyphen))]
          exact ih hrest (h.skip (head?_headerOf hheader)) hread
        · have hdup' : ¬ (headers'.lookup key).isSome = true := fun hsome => hdup (h.sub key hsome)
          rw [if_neg (not_or.mpr ⟨hspace, Line.strip_text hline.blank_ending ▸ hhyphen⟩), if_neg hput.1, putHeader, putHeaderOr_eq,
            hline.headerOf_text, hheader]
          simp only [if_neg hdup']
          exact ih hrest (h.put (key, value)) hread
    · rw [if_neg hput] at hread
      split
      · exact ih hrest h hread
      · next hskip =>
        have hblank : strip line.content = [] := by
          by_contra hne
          refine hput ⟨hne, fun hhead => hskip (.inl ?_), fun hhead => hskip (.inl ?_)⟩
          · rw [Line.text, List.head?_append, hhead]
            rfl
          · rw [Line.text, List.head?_append, hhead]
            rfl
        rw [if_pos hblank]
        exact ih hrest h hread

/-! ### The document -/

theorem Mirrored.cases {β : Type} {result : Except Exc Headers} {result' : Except String (Headers × β)} (h : Mirrored result result') :
    ((∃ e, result = .error e) ∧ ∃ e, result' = .error e) ∨ ∃ headers rest, result = .ok headers ∧ result' = .ok (headers, rest) := by
  cases h with
  | refused e e' => exact .inl ⟨⟨e, rfl⟩, e', rfl⟩
  | read headers rest => exact .inr ⟨headers, rest, rfl, rfl⟩

/-- Without frontmatter, both refuse the text or both read the same headers. -/
theorem block_mirror (hopener : ∀ line ∈ ((splitlines text).dropWhile fun line => isBlank line.text).head?,
    strip line.text ≠ ['-', '-', '-']) : Mirrored (metadataHeaders text) (splitDocument text) := by
  have hlines : ∀ line ∈ (splitlines text).dropWhile fun line => isBlank line.text, Parted line :=
    fun line h => parted_splitlines ((List.dropWhile_sublist _).subset h)
  rw [metadataHeaders, splitDocument, dropWhile_blank fun line h => parted_splitlines h, splitLines]
  refine Mirrored.map (f := fun lines : List Line => (lines.map Line.text).flatten) ?_
  cases hfirst : (splitlines text).dropWhile fun line => isBlank line.text with
  | nil => exact .refused _ _
  | cons line lines =>
    rw [hfirst] at hopener hlines
    have hline := hlines line List.mem_cons_self
    have hrest : ∀ line ∈ lines, Parted line := fun line h => hlines line (List.mem_cons_of_mem _ h)
    have hne := hopener line rfl
    simp only [List.map_cons, if_neg hne, ← Line.strip_text hline.blank_ending, ← Line.head?_lstrip_text hline.blank_ending]
    split
    · rw [dropWhile_blank hrest]
      exact blockHeaders_mirror (fun line h => hrest line ((List.dropWhile_sublist _).subset h)) false
    · exact blockHeaders_mirror hlines false

/-- With frontmatter, the guard reads what the appender does, up to keys that begin with `_`. -/
theorem split_of_frontmatter {result : Headers}
    (hopener : ¬ ∀ line ∈ ((splitlines text).dropWhile fun line => isBlank line.text).head?, strip line.text ≠ ['-', '-', '-'])
    (hread : metadataHeaders text = .ok result) (hgiven : (result.lookup "message_id").isSome = true) :
    ∃ result' rest, splitLines text = .ok (result', rest) ∧ Within result result' := by
  have hlines : ∀ line ∈ (splitlines text).dropWhile fun line => isBlank line.text, Parted line :=
    fun line h => parted_splitlines ((List.dropWhile_sublist _).subset h)
  rw [metadataHeaders, dropWhile_blank fun line h => parted_splitlines h] at hread
  rw [splitLines]
  cases hfirst : (splitlines text).dropWhile fun line => isBlank line.text with
  | nil =>
    rw [hfirst] at hopener
    exact absurd (fun _ h => absurd h (Option.not_mem_none _)) hopener
  | cons line lines =>
    rw [hfirst] at hopener hlines hread
    have hfront : strip line.text = ['-', '-', '-'] := by
      by_contra hne
      exact hopener fun line' h => Option.mem_some.mp h ▸ hne
    simp only [List.map_cons, ← Line.strip_text (hlines line List.mem_cons_self).blank_ending, if_pos hfront] at hread ⊢
    exact frontmatter_mirror (fun line h => hlines line (List.mem_cons_of_mem _ h)) ⟨fun _ => id, fun _ _ => rfl⟩ hread hgiven

/-- **Where the appender reads a message's id and writer, the guard accepts the text and
reads the same id, writer, branch and predecessor; without frontmatter, both refuse the text
or both read the same headers.** -/
theorem mirror (text : List Char) :
    (∀ headers, metadataHeaders text = .ok headers →
      givenHeader headers "message_id" ≠ none → givenHeader headers "writer" ≠ none →
      ∃ headers' body, splitDocument text = .ok (headers', body) ∧
        ∀ key ∈ ["message_id", "writer", "writer_branch", "prev_message_id"], headers'.lookup key = headers.lookup key) ∧
    ((∀ line ∈ ((splitlines text).dropWhile fun line => isBlank line.text).head?, strip line.text ≠ ['-', '-', '-']) →
      ((∃ e, metadataHeaders text = .error e) ∧ ∃ e, splitDocument text = .error e) ∨
      ∃ headers body, metadataHeaders text = .ok headers ∧ splitDocument text = .ok (headers, body)) := by
  refine ⟨fun headers hread hid _ => ?_, fun hopener => (block_mirror hopener).cases⟩
  have hfound : (headers.lookup "message_id").isSome = true := by
    rw [givenHeader] at hid
    cases hlookup : headers.lookup "message_id" with
    | none => rw [hlookup] at hid; exact absurd rfl hid
    | some value => rfl
  by_cases hopener : ∀ line ∈ ((splitlines text).dropWhile fun line => isBlank line.text).head?, strip line.text ≠ ['-', '-', '-']
  · rcases (block_mirror hopener).cases with ⟨⟨e, herror⟩, -⟩ | ⟨headers', body, hread', hsplit⟩
    · rw [herror] at hread
      cases hread
    · rw [hread'] at hread
      cases hread
      exact ⟨headers, body, hsplit, fun _ _ => rfl⟩
  · obtain ⟨result, rest, hsplit, hwithin⟩ := split_of_frontmatter hopener hread hfound
    refine ⟨result, (rest.map Line.text).flatten, by rw [splitDocument, hsplit]; rfl, fun key hkey => hwithin.same key ?_⟩
    revert key
    decide

/-- A document whose frontmatter has an item that looks like a header. -/
def listed : List Char :=
  "\n---\nmessage_id: a-1\nwriter: 'a'\nrefs:\n-writer: b\n  writer: c\n---\nbody".toList

/-- A document with a title. -/
def titled : List Char := "# Title\r\n\r\nmessage-id: a-1\nwriter : a \n\nwriter: b".toList

theorem metadataHeaders_listed : metadataHeaders listed =
    .ok [("message_id", "a-1".toList), ("writer", ['a']), ("refs", []), ("_writer", ['b'])] := by decide +kernel

theorem mirror_sample :
    (∃ headers body, splitDocument listed = .ok (headers, body) ∧
      ∀ key ∈ ["message_id", "writer", "writer_branch", "prev_message_id"], headers.lookup key =
        [("message_id", "a-1".toList), ("writer", ['a']), ("refs", []), ("_writer", ['b'])].lookup key) ∧
    (((∃ e, metadataHeaders titled = .error e) ∧ ∃ e, splitDocument titled = .error e) ∨
      ∃ headers body, metadataHeaders titled = .ok headers ∧ splitDocument titled = .ok (headers, body)) :=
  ⟨(mirror listed).1 _ metadataHeaders_listed (by decide) (by decide), (mirror titled).2 (by decide +kernel)⟩

end CcbCore.Message
