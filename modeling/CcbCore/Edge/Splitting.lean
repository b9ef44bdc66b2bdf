import CcbCore.Edge.Document
import CcbCore.Message.Grammar
import CcbCore.Text.Lines

/-!
# The two header splitters

`_split_document` of `src/radar/message_grammar.py` and `splitDocument` of
`supabase/functions/github-bus-ingest/handler.ts`. They differ in what is white space and
what ends a line; in a text where neither matters (`Tame`), and without a header that
JavaScript takes for the prototype of an object, they go through the lines alike
(`splitDocument_agree`). A text of printable ASCII, tabs and line feeds is one
(`splitters_agree`).
-/

namespace CcbCore.Edge

open CcbCore.Python CcbCore.JavaScript CcbCore.Message

variable {text : List Char} {line : Line} {lines : List Line} {headers : Headers}

/-! ### Lines -/

/-- Nothing but a `\n`, with or without a `\r` before it, ends a line. -/
def newlinesOnly : List Char → Bool
  | [] => true
  | '\r' :: '\n' :: rest => newlinesOnly rest
  | c :: rest => (c = '\n' || !isLineBreak c) && newlinesOnly rest

theorem lineRecord_cons {c : Char} (hc : c ≠ '\r') (line : Line) :
    lineRecord ⟨c :: line.content, line.ending⟩ = ⟨c :: (lineRecord line).content, (lineRecord line).ending⟩ := by
  obtain ⟨content, ending⟩ := line
  cases content with
  | nil => simp [lineRecord, hc]
  | cons d rest =>
    simp only [lineRecord, List.getLast?_cons_cons, List.dropLast_cons_cons]
    split <;> rfl

/-- Such a text has the same lines for both. -/
theorem map_lineRecord (h : newlinesOnly text = true) : (rawLines text).map lineRecord = splitlines text := by
  fun_induction splitlines text with
  | case1 => rfl
  | case2 rest ih =>
    rw [newlinesOnly] at h
    simp [rawLines, lineRecord, ih h]
  | case3 c rest hrn hbreak ih =>
    rw [newlinesOnly, Bool.and_eq_true, hbreak] at h
    · obtain rfl : c = '\n' := by simpa using h.1
      simp [rawLines, lineRecord, ih h.2]
    · exact hrn
  | case4 c rest hrn hbreak hnil ih =>
    rw [newlinesOnly, Bool.and_eq_true] at h
    · have hc : c ≠ '\n' := by
        rintro rfl
        exact hbreak (by decide)
      have hraw : rawLines rest = [] := by
        rw [hnil, List.map_eq_nil_iff] at ih
        exact ih h.2
      have hr : c ≠ '\r' := by
        rintro rfl
        exact hbreak (by decide)
      rw [rawLines, hraw]
      · simp [lineRecord, hr]
      · exact hc
    · exact hrn
  | case5 c rest hrn hbreak first lines hlines ih =>
    rw [newlinesOnly, Bool.and_eq_true] at h
    · have hc : c ≠ '\n' := by
        rintro rfl
        exact hbreak (by decide)
      have hr : c ≠ '\r' := by
        rintro rfl
        exact hbreak (by decide)
      have hrest := ih h.2
      rw [hlines] at hrest
      obtain ⟨line, raw, hraw, rfl, rfl⟩ := List.map_eq_cons_iff.mp hrest
      rw [rawLines, hraw]
      · simp [lineRecord_cons hr]
      · exact hc
    · exact hrn

theorem ending_splitlines (h : newlinesOnly text = true) (hline : line ∈ splitlines text) :
    ∀ c ∈ line.ending, c = '\r' ∨ c = '\n' := by
  fun_induction splitlines text generalizing line with
  | case1 => simp at hline
  | case2 rest ih =>
    rw [newlinesOnly] at h
    rcases List.mem_cons.mp hline with rfl | hline
    · simp
    · exact ih h hline
  | case3 c rest hrn hbreak ih =>
    rw [newlinesOnly, Bool.and_eq_true, hbreak] at h
    · obtain rfl : c = '\n' := by simpa using h.1
      rcases List.mem_cons.mp hline with rfl | hline
      · simp
      · exact ih h.2 hline
    · exact hrn
  | case4 c rest hrn hbreak hnil ih =>
    obtain rfl := List.mem_singleton.mp hline
    simp
  | case5 c rest hrn hbreak first lines hlines ih =>
    rw [newlinesOnly, Bool.and_eq_true] at h
    · rcases List.mem_cons.mp hline with rfl | hline
      · exact @ih first h.2 (by simp [hlines])
      · exact ih h.2 (by simp [hlines, hline])
    · exact hrn

/-- What a line must be like for both to read it alike. -/
structure TameLine (line : Line) : Prop where
  white : ∀ c ∈ line.content, isSpace c = isWhite c
  content : ∀ c ∈ line.content, isLineBreak c = false
  ending : ∀ c ∈ line.ending, c = '\r' ∨ c = '\n'
  margin : ∀ c, line.content.head? = some c → isSpace c = true → c = ' ' ∨ c = '\t'

namespace TameLine

theorem blank_ending (h : TameLine line) : isBlank line.ending = true := by
  refine Line.blank_ending fun c hc => ?_
  rcases h.ending c hc with rfl | rfl <;> decide

theorem rstripNewlines_text (h : TameLine line) : rstripNewlines line.text = line.content := by
  have hending : ∀ c ∈ line.ending.reverse, (decide (c = '\r' ∨ c = '\n')) = true := by
    intro c hc
    simpa using h.ending c (List.mem_reverse.mp hc)
  rw [rstripNewlines, Line.text, List.rdropWhile, List.reverse_append, List.dropWhile_append_of_pos hending]
  rcases List.eq_nil_or_concat line.content with hnil | ⟨rest, c, hlast⟩
  · simp [hnil]
  · have hc : ¬ (c = '\r' ∨ c = '\n') := by
      have hbreak := h.content c (by simp [hlast])
      rintro (rfl | rfl) <;> exact absurd hbreak (by decide)
    rw [hlast, List.concat_eq_append, List.reverse_append, List.reverse_singleton, List.singleton_append,
      List.dropWhile_cons_of_neg (by simpa using hc), List.reverse_cons, List.reverse_reverse]

theorem dropWhile_white (h : TameLine line) {part : List Char} (hpart : ∀ c ∈ part, c ∈ line.content) :
    part.dropWhile isWhite = part.dropWhile isSpace := by
  induction part with
  | nil => rfl
  | cons c part ih =>
    rw [List.dropWhile_cons, List.dropWhile_cons, h.white c (hpart c (by simp)),
      ih fun d hd => hpart d (List.mem_cons_of_mem c hd)]

theorem trim_eq (h : TameLine line) {part : List Char} (hpart : ∀ c ∈ part, c ∈ line.content) : trim part = strip part := by
  have hstart : trimStart part = lstrip part := h.dropWhile_white hpart
  have hmem : ∀ c ∈ (lstrip part).reverse, c ∈ line.content := fun c hc =>
    hpart c ((List.dropWhile_sublist _).subset (List.mem_reverse.mp hc))
  rw [trim, hstart, trimEnd, List.rdropWhile, h.dropWhile_white hmem]
  rfl

theorem trim_content (h : TameLine line) : trim line.content = strip line.content := h.trim_eq fun _ => id

theorem trimStart_content (h : TameLine line) : trimStart line.content = lstrip line.content := h.dropWhile_white fun _ => id

theorem isBlankRecord_iff (h : TameLine line) : isBlankRecord line = isBlank line.text := by
  rw [isBlankRecord, h.trim_content, Line.isBlank_text h.blank_ending, Bool.eq_iff_iff, decide_eq_true_eq, strip_eq_nil_iff]

/-- Both find the same header in the line. -/
theorem matchHeader_eq (h : TameLine line) :
    Edge.matchHeader line.content = Message.matchHeader (rstripNewlines line.text) := by
  have hrest : ∀ c ∈ line.content.dropWhile isKeyChar, c ∈ line.content := fun c hc =>
    (List.dropWhile_sublist _).subset hc
  rw [h.rstripNewlines_text, Edge.matchHeader, Message.matchHeader, h.dropWhile_white hrest]
  cases hkey : line.content.takeWhile isKeyChar with
  | nil => rfl
  | cons c key =>
    cases hvalue : (line.content.dropWhile isKeyChar).dropWhile isSpace with
    | nil => rfl
    | cons d value =>
      have hmem : ∀ c ∈ value, c ∈ line.content := by
        intro c hc
        have hc' : c ∈ (line.content.dropWhile isKeyChar).dropWhile isSpace := by simp [hvalue, hc]
        exact hrest c ((List.dropWhile_sublist _).subset hc')
      have hterminator : (value.dropWhile isSpace).any isLineTerminator = false := by
        rw [List.any_eq_false]
        intro c hc hterm
        have hbreak := h.content c (hmem c ((List.dropWhile_sublist _).subset hc))
        rw [isLineTerminator, decide_eq_true_eq] at hterm
        simp only [List.mem_cons, List.not_mem_nil, or_false] at hterm
        rw [isLineBreak, decide_eq_false_iff_not] at hbreak
        rcases hterm with hterm | hterm | hterm | hterm <;> rw [hterm] at hbreak <;> exact hbreak (by decide)
      by_cases hcolon : d = ':'
      · subst hcolon
        simp only [h.dropWhile_white hmem, hterminator]
        rfl
      · simp [hcolon]

end TameLine

/-! ### Headers -/

/-- The headers that the Edge function puts, as the grammar puts them. -/
def unwrapped (headers : Headers) : Headers := headers.map fun header => (header.1, Message.unwrapScalar header.2)

theorem lookup_unwrapped (key : String) : (unwrapped headers).lookup key = (headers.lookup key).map Message.unwrapScalar := by
  induction headers with
  | nil => rfl
  | cons header headers ih =>
    rw [unwrapped, List.map_cons, List.lookup_cons, List.lookup_cons]
    cases key == header.1 with
    | true => rfl
    | false => exact ih

theorem unwrapScalar_strip (value : List Char) : Message.unwrapScalar (strip value) = Message.unwrapScalar value := by
  rw [Message.unwrapScalar, strip_idem]
  rfl

/-- Both refuse the line, or neither takes it for a header, or both put one. -/
theorem putHeader_agree (h : TameLine line)
    (hproto : ∀ key value, Message.matchHeader (rstripNewlines line.text) = some (key, value) →
      normalizeKey key ≠ "__proto__") :
    (Message.putHeader (unwrapped headers) line.text = .ok none ∧ Edge.putHeader headers line.content = .ok none) ∨
    (∃ e e', Message.putHeader (unwrapped headers) line.text = .error e ∧ Edge.putHeader headers line.content = .error e') ∨
    ∃ headers', Message.putHeader (unwrapped headers) line.text = .ok (some (unwrapped headers')) ∧
      Edge.putHeader headers line.content = .ok (some headers') := by
  rw [Message.putHeader, putHeaderOr, Edge.putHeader, h.matchHeader_eq]
  cases hmatch : Message.matchHeader (rstripNewlines line.text) with
  | none => exact .inl ⟨rfl, rfl⟩
  | some header =>
    obtain ⟨key, value⟩ := header
    simp only [lookup_unwrapped, Option.isSome_map]
    by_cases hdup : (headers.lookup (normalizeKey key)).isSome = true
    · simp [hdup]
    · have hvalue : trim value = strip value := by
        rw [h.rstripNewlines_text] at hmatch
        refine h.trim_eq fun c hc => ?_
        rw [Message.matchHeader] at hmatch
        split at hmatch
        · next hkey hrest =>
          obtain ⟨-, rfl⟩ := Prod.mk.inj (Option.some.inj hmatch)
          have hc' := (List.dropWhile_sublist (l := (line.content.dropWhile isKeyChar)) isSpace).subset
            (hrest ▸ List.mem_cons_of_mem _ ((List.dropWhile_sublist _).subset hc))
          exact (List.dropWhile_sublist _).subset hc'
        · cases hmatch
      refine .inr (.inr ⟨headers ++ [(normalizeKey key, trim value)], ?_, ?_⟩)
      · simp [hdup, unwrapped, hvalue, unwrapScalar_strip]
      · simp [hdup, hproto key value hmatch]

theorem matchHeader_of_putHeader {headers' : Headers} (h : Message.putHeader headers line.text = .ok (some headers')) :
    ∃ key value, Message.matchHeader (rstripNewlines line.text) = some (key, value) := by
  cases hmatch : Message.matchHeader (rstripNewlines line.text) with
  | none => simp [Message.putHeader, putHeaderOr, hmatch] at h
  | some header => exact ⟨header.1, header.2, rfl⟩

/-- The keys of the lines that a metadata block reads as headers. -/
def blockKeys (started : Bool) : List Line → List String
  | [] => []
  | line :: lines =>
    if isBlank line.text then
      if started then [] else blockKeys started lines
    else
      match Message.matchHeader (rstripNewlines line.text) with
      | none => []
      | some (key, _) => normalizeKey key :: blockKeys true lines

/-- The keys of the lines that a frontmatter block reads as headers. -/
def frontmatterKeys : List Line → List String
  | [] => []
  | line :: lines =>
    if strip line.text = ['-', '-', '-'] then []
    else if line.text.head?.any isSpace ∨ (strip line.text).head? = some '-' then frontmatterKeys lines
    else if strip line.text = [] then frontmatterKeys lines
    else
      match Message.matchHeader (rstripNewlines line.text) with
      | none => []
      | some (key, _) => normalizeKey key :: frontmatterKeys lines

/-- The header keys of a text. -/
def headerKeys (text : List Char) : List String :=
  match (splitlines text).dropWhile fun line => isBlank line.text with
  | [] => []
  | line :: lines =>
    if strip line.text = ['-', '-', '-'] then frontmatterKeys lines
    else if (lstrip line.text).head? = some '#' then blockKeys false (lines.dropWhile fun line => isBlank line.text)
    else blockKeys false (line :: lines)

/-! ### Documents -/

/-- Both refuse, or both have the same headers, and the same lines left. -/
def Agree : Except String (Headers × List Line) → Except HttpError (Headers × List Line) → Prop
  | .error _, .error _ => True
  | .ok (headers, lines), .ok (headers', lines') => headers = unwrapped headers' ∧ lines = lines'
  | _, _ => False

theorem splitBlock_agree {started : Bool} (hlines : ∀ line ∈ lines, TameLine line)
    (hproto : "__proto__" ∉ blockKeys started lines) :
    Agree (Message.splitBlock (unwrapped headers) started lines) (Edge.splitBlock headers started lines) := by
  induction lines generalizing headers started with
  | nil => cases started <;> simp [Message.splitBlock, Edge.splitBlock, Agree]
  | cons line lines ih =>
    have hline := hlines line (by simp)
    have hrest : ∀ line ∈ lines, TameLine line := fun line hmem => hlines line (List.mem_cons_of_mem _ hmem)
    rw [Message.splitBlock, Edge.splitBlock, hline.isBlankRecord_iff]
    rw [blockKeys] at hproto
    by_cases hblank : isBlank line.text = true
    · simp only [hblank, if_true] at hproto ⊢
      cases started with
      | true => exact ⟨rfl, rfl⟩
      | false => exact ih hrest hproto
    · simp only [hblank] at hproto ⊢
      have hkey : ∀ key value, Message.matchHeader (rstripNewlines line.text) = some (key, value) →
          normalizeKey key ≠ "__proto__" ∧ "__proto__" ∉ blockKeys true lines := by
        intro key value hmatch
        rw [hmatch] at hproto
        simpa [eq_comm] using hproto
      rcases @putHeader_agree line headers hline fun key value hmatch => (hkey key value hmatch).1 with
        ⟨h, h'⟩ | ⟨e, e', h, h'⟩ | ⟨headers', h, h'⟩
      · rw [h, h']
        cases started <;> simp [Agree]
      · rw [h, h']
        trivial
      · rw [h, h']
        obtain ⟨key, value, hmatch⟩ := matchHeader_of_putHeader h
        exact ih hrest (hkey key value hmatch).2

/-- A frontmatter line that is no header: a continuation, an item of a list, or blank. -/
def IsProvenance (line : Line) : Prop :=
  (line.text.head?.any isSpace = true ∨ (strip line.text).head? = some '-') ∨ strip line.text = []

theorem TameLine.isProvenance_iff (h : TameLine line) :
    ((line.content.head? = some ' ' ∨ line.content.head? = some '\t' ∨ (trim line.content).head? = some '-') ∨
      trim line.content = []) ↔ IsProvenance line := by
  rw [IsProvenance, h.trim_content, Line.strip_text h.blank_ending]
  cases hcontent : line.content with
  | nil =>
    have hnil : strip ([] : List Char) = [] := rfl
    simp [hnil]
  | cons c rest =>
    have hc : isSpace c = true ↔ c = ' ' ∨ c = '\t' := by
      constructor
      · exact h.margin c (by simp [hcontent])
      · rintro (rfl | rfl) <;> decide
    simp only [Line.text, hcontent, List.cons_append, List.head?_cons, Option.any_some, Option.some.injEq, hc]
    tauto

theorem dropWhile_blank (hlines : ∀ line ∈ lines, TameLine line) :
    lines.dropWhile isBlankRecord = lines.dropWhile fun line => isBlank line.text := by
  induction lines with
  | nil => rfl
  | cons line lines ih =>
    rw [List.dropWhile_cons, List.dropWhile_cons, (hlines line (by simp)).isBlankRecord_iff,
      ih fun line hmem => hlines line (List.mem_cons_of_mem _ hmem)]

theorem splitFrontmatter_agree (hlines : ∀ line ∈ lines, TameLine line) (hproto : "__proto__" ∉ frontmatterKeys lines) :
    Agree (Message.splitFrontmatter (unwrapped headers) lines) (Edge.splitFrontmatter headers lines) := by
  induction lines generalizing headers with
  | nil => trivial
  | cons line lines ih =>
    have hline := hlines line (by simp)
    have hrest : ∀ line ∈ lines, TameLine line := fun line hmem => hlines line (List.mem_cons_of_mem _ hmem)
    rw [frontmatterKeys] at hproto
    rw [Message.splitFrontmatter, Edge.splitFrontmatter, hline.trim_content, ← Line.strip_text hline.blank_ending]
    by_cases hend : strip line.text = ['-', '-', '-']
    · rw [if_pos hend, if_pos hend, dropWhile_blank hrest]
      cases headers with
      | nil => trivial
      | cons header headers => exact ⟨rfl, rfl⟩
    rw [if_neg hend] at hproto ⊢
    rw [if_neg hend, ← ite_or, ← ite_or]
    rw [← ite_or] at hproto
    have hiff := hline.isProvenance_iff
    rw [hline.trim_content, ← Line.strip_text hline.blank_ending] at hiff
    by_cases hskip : IsProvenance line <;> rw [IsProvenance] at hskip hiff
    · rw [if_pos hskip] at hproto ⊢
      rw [if_pos (hiff.mpr hskip)]
      exact ih hrest hproto
    · rw [if_neg hskip] at hproto ⊢
      rw [if_neg (hiff.not.mpr hskip)]
      have hkey : ∀ key value, Message.matchHeader (rstripNewlines line.text) = some (key, value) →
          normalizeKey key ≠ "__proto__" ∧ "__proto__" ∉ frontmatterKeys lines := by
        intro key value hmatch
        rw [hmatch] at hproto
        simpa [eq_comm] using hproto
      rcases @putHeader_agree line headers hline fun key value hmatch => (hkey key value hmatch).1 with
        ⟨h, h'⟩ | ⟨e, e', h, h'⟩ | ⟨headers', h, h'⟩
      · rw [h, h']
        trivial
      · rw [h, h']
        trivial
      · rw [h, h']
        obtain ⟨key, value, hmatch⟩ := matchHeader_of_putHeader h
        exact ih hrest (hkey key value hmatch).2

theorem splitLines_agree (hlines : ∀ line ∈ splitlines text, TameLine line) (hproto : "__proto__" ∉ headerKeys text) :
    Agree (Message.splitLines text) (Edge.splitLines (splitlines text)) := by
  rw [headerKeys] at hproto
  rw [Message.splitLines, Edge.splitLines, dropWhile_blank hlines]
  have hdrop : ∀ line ∈ (splitlines text).dropWhile fun line => isBlank line.text, TameLine line := fun line hmem =>
    hlines line ((List.dropWhile_sublist _).subset hmem)
  cases hfirst : (splitlines text).dropWhile fun line => isBlank line.text with
  | nil => trivial
  | cons line lines =>
    rw [hfirst] at hproto hdrop
    have hline := hdrop line (by simp)
    have hrest : ∀ line ∈ lines, TameLine line := fun line hmem => hdrop line (List.mem_cons_of_mem _ hmem)
    simp only [hline.trim_content, ← Line.strip_text hline.blank_ending, hline.trimStart_content] at hproto ⊢
    by_cases hyaml : strip line.text = ['-', '-', '-']
    · rw [if_pos hyaml] at hproto ⊢
      rw [if_pos hyaml]
      exact @splitFrontmatter_agree lines [] hrest hproto
    rw [if_neg hyaml] at hproto ⊢
    rw [if_neg hyaml]
    have htitle : (lstrip line.text).head? = (lstrip line.content).head? := Line.head?_lstrip_text hline.blank_ending
    rw [htitle] at hproto ⊢
    by_cases hhash : (lstrip line.content).head? = some '#'
    · rw [if_pos hhash] at hproto ⊢
      rw [if_pos hhash, dropWhile_blank hrest]
      exact @splitBlock_agree _ [] _ (fun line hmem => hrest line ((List.dropWhile_sublist _).subset hmem)) hproto
    · rw [if_neg hhash] at hproto ⊢
      rw [if_neg hhash]
      exact @splitBlock_agree _ [] _ hdrop hproto

/-- A text whose white space and line ends are the same in both languages. -/
structure Tame (text : List Char) : Prop where
  white : ∀ c ∈ text, isSpace c = isWhite c
  newlines : newlinesOnly text = true
  margin : ∀ line ∈ splitlines text, ∀ c, line.content.head? = some c → isSpace c = true → c = ' ' ∨ c = '\t'

theorem Tame.tameLine (h : Tame text) (hline : line ∈ splitlines text) : TameLine line := by
  refine ⟨fun c hc => h.white c ?_, (mem_splitlines hline).1, ending_splitlines h.newlines hline, h.margin line hline⟩
  rw [← flatten_splitlines text, List.mem_flatten]
  exact ⟨line.text, List.mem_map_of_mem hline, List.mem_append_left _ hc⟩

/-- The splitters agree on a tame text without a header `__proto__`: both refuse it, or
both have the same body, and the same headers once they are unwrapped. -/
theorem splitDocument_agree (h : Tame text) (hproto : "__proto__" ∉ headerKeys text) :
    (∃ e e', Message.splitDocument text = .error e ∧ Edge.splitDocument text = .error e') ∨
    ∃ headers body, Message.splitDocument text = .ok (unwrapped headers, body) ∧
      Edge.splitDocument text = .ok (headers, body) := by
  rw [Message.splitDocument, Edge.splitDocument, lineRecords]
  by_cases hempty : text = []
  · subst hempty
    exact .inl ⟨_, _, rfl, rfl⟩
  rw [if_neg hempty, map_lineRecord h.newlines]
  have hagree := splitLines_agree (fun _ => h.tameLine) hproto
  cases hpy : Message.splitLines text with
  | error e =>
    cases hjs : Edge.splitLines (splitlines text) with
    | error e' => exact .inl ⟨e, e', rfl, rfl⟩
    | ok split => simp [hpy, hjs, Agree] at hagree
  | ok split =>
    cases hjs : Edge.splitLines (splitlines text) with
    | error e' => simp [hpy, hjs, Agree] at hagree
    | ok split' =>
      obtain ⟨headers, lines⟩ := split
      obtain ⟨headers', lines'⟩ := split'
      simp only [hpy, hjs, Agree] at hagree
      obtain ⟨rfl, rfl⟩ := hagree
      exact .inr ⟨headers', (lines.map Line.text).flatten, rfl, rfl⟩

/-- A character of a plain text: printable ASCII, a tab or a line feed. -/
def isPlain (c : Char) : Bool := c = '\t' ∨ c = '\n' ∨ (0x20 ≤ c.toNat ∧ c.toNat ≤ 0x7e)

theorem plain_facts {c : Char} (h : isPlain c = true) :
    isSpace c = isWhite c ∧ (isLineBreak c = true → c = '\n') ∧
      (isSpace c = true → isLineBreak c = false → c = ' ' ∨ c = '\t') := by
  have hascii : c.toNat < 128 := by
    rw [isPlain, decide_eq_true_eq] at h
    rcases h with rfl | rfl | ⟨-, h⟩
    · decide
    · decide
    · omega
  refine ascii_forall (P := fun c => isPlain c = true → isSpace c = isWhite c ∧ (isLineBreak c = true → c = '\n') ∧
    (isSpace c = true → isLineBreak c = false → c = ' ' ∨ c = '\t')) ?_ hascii h
  decide

theorem newlinesOnly_of_plain (h : ∀ c ∈ text, isPlain c = true) : newlinesOnly text = true := by
  fun_induction newlinesOnly text with
  | case1 => rfl
  | case2 rest ih => exact absurd (h '\r' (by simp)) (by decide)
  | case3 c rest hrn ih =>
    rw [ih fun d hd => h d (List.mem_cons_of_mem _ hd), Bool.and_true, Bool.or_eq_true, decide_eq_true_eq,
      Bool.not_eq_true', ← Bool.not_eq_true]
    by_cases hbreak : isLineBreak c = true
    · exact .inl ((plain_facts (h c (by simp))).2.1 hbreak)
    · exact .inr hbreak

theorem tame_of_plain (h : ∀ c ∈ text, isPlain c = true) : Tame text := by
  refine ⟨fun c hc => (plain_facts (h c hc)).1, newlinesOnly_of_plain h, fun line hline c hc hspace => ?_⟩
  have hmem : c ∈ line.content := List.mem_of_mem_head? hc
  have htext : c ∈ text := by
    rw [← flatten_splitlines text, List.mem_flatten]
    exact ⟨line.text, List.mem_map_of_mem hline, List.mem_append_left _ hmem⟩
  exact (plain_facts (h c htext)).2.2 hspace ((mem_splitlines hline).1 c hmem)

/-- **Of a text of printable ASCII, tabs and line feeds without a header key `__proto__`,
the Python and the TypeScript splitter both refuse it, or both have the same body, and the
same values under the same keys once they are unwrapped.** -/
theorem splitters_agree (text : List Char) (hplain : ∀ c ∈ text, isPlain c = true) (hproto : "__proto__" ∉ headerKeys text) :
    (∃ e e', Message.splitDocument text = .error e ∧ Edge.splitDocument text = .error e') ∨
    ∃ headers headers' body, Message.splitDocument text = .ok (headers, body) ∧
      Edge.splitDocument text = .ok (headers', body) ∧
      ∀ key, headers.lookup key = (headers'.lookup key).map Message.unwrapScalar := by
  rcases splitDocument_agree (tame_of_plain hplain) hproto with hrefused | ⟨headers, body, hpy, hjs⟩
  · exact .inl hrefused
  · exact .inr ⟨_, headers, body, hpy, hjs, fun key => lookup_unwrapped key⟩

def sampleDocument : List Char := "# Title\n\nmessage_id: `yin-1`\nWriter : yin\n\nSecond line.\n".toList

/-- A document with a title is taken by both. -/
theorem splitters_agree_sample :
    (∃ e e', Message.splitDocument sampleDocument = .error e ∧ Edge.splitDocument sampleDocument = .error e') ∨
    ∃ headers headers' body, Message.splitDocument sampleDocument = .ok (headers, body) ∧
      Edge.splitDocument sampleDocument = .ok (headers', body) ∧
      ∀ key, headers.lookup key = (headers'.lookup key).map Message.unwrapScalar :=
  splitters_agree sampleDocument (List.all_eq_true.mp (by decide +kernel)) (by decide +kernel)

end CcbCore.Edge
