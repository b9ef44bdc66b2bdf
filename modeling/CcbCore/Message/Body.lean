import CcbCore.Message.Mirror

/-!
# Body text

What follows the line that closes a header block is body text, for the guard's
`_split_document` and for the appender's `_metadata_headers`. `headerBlock` finds the lines
of the block up to and with the one that closes it: a blank line after its headers, or the
`---` that ends frontmatter. Neither reader looks past them, and where that line ends in a
line feed another body leaves the block's lines as they are (`splitlines_append`).
`body_cannot_authenticate` is both together: a text has the headers that it has with any
other body.
-/

namespace CcbCore.Message

open CcbCore.Python CcbCore.Append

variable {text : List Char} {line : Line} {lines block rest : List Line} {headers result : Headers} {started : Bool}

/-! ### The header block -/

/-- The block with a line before it. -/
def before (line : Line) (block : Option (List Line × List Line)) : Option (List Line × List Line) :=
  block.map fun (block, rest) => (line :: block, rest)

/-- The lines of frontmatter up to and with the `---` that ends it, and those after it. -/
def closeFrontmatter : List Line → Option (List Line × List Line)
  | [] => none
  | line :: lines =>
    if strip line.text = ['-', '-', '-'] then some ([line], lines) else before line (closeFrontmatter lines)

/-- The header lines up to and with the blank line that ends them, and the lines after it. -/
def closeBlock (started : Bool) : List Line → Option (List Line × List Line)
  | [] => none
  | line :: lines =>
    if isBlank line.text then
      if started then some ([line], lines) else before line (closeBlock started lines)
    else if (headerOf line.content).isSome then before line (closeBlock true lines) else none

/-- The lines up to and with the one that closes the header block, and the lines after it:
none when no such line closes it. -/
def headerBlock : List Line → Option (List Line × List Line)
  | [] => none
  | line :: lines =>
    if isBlank line.text then before line (headerBlock lines)
    else if strip line.text = ['-', '-', '-'] then before line (closeFrontmatter lines)
    else if (lstrip line.text).head? = some '#' then before line (closeBlock false lines)
    else closeBlock false (line :: lines)

theorem before_eq_some {found : Option (List Line × List Line)} (h : before line found = some (block, rest)) :
    ∃ block', block = line :: block' ∧ found = some (block', rest) := by
  obtain ⟨⟨block', rest'⟩, hfound, heq⟩ := Option.map_eq_some_iff.mp h
  obtain ⟨rfl, rfl⟩ := Prod.mk.inj heq
  exact ⟨block', rfl, hfound⟩

theorem closeFrontmatter_append (h : closeFrontmatter lines = some (block, rest)) : block ++ rest = lines := by
  induction lines generalizing block with
  | nil => cases h
  | cons line lines ih =>
    rw [closeFrontmatter] at h
    split at h
    · cases h
      rfl
    · obtain ⟨block', rfl, hfound⟩ := before_eq_some h
      rw [List.cons_append, ih hfound]

theorem closeBlock_append (h : closeBlock started lines = some (block, rest)) : block ++ rest = lines := by
  induction lines generalizing block started with
  | nil => cases h
  | cons line lines ih =>
    rw [closeBlock] at h
    split at h
    · split at h
      · cases h
        rfl
      · obtain ⟨block', rfl, hfound⟩ := before_eq_some h
        rw [List.cons_append, ih hfound]
    · split at h
      · obtain ⟨block', rfl, hfound⟩ := before_eq_some h
        rw [List.cons_append, ih hfound]
      · cases h

/-- The block and what is after it are the lines. -/
theorem headerBlock_append (h : headerBlock lines = some (block, rest)) : block ++ rest = lines := by
  induction lines generalizing block with
  | nil => cases h
  | cons line lines ih =>
    rw [headerBlock] at h
    split at h
    · obtain ⟨block', rfl, hfound⟩ := before_eq_some h
      rw [List.cons_append, ih hfound]
    split at h
    · obtain ⟨block', rfl, hfound⟩ := before_eq_some h
      rw [List.cons_append, closeFrontmatter_append hfound]
    split at h
    · obtain ⟨block', rfl, hfound⟩ := before_eq_some h
      rw [List.cons_append, closeBlock_append hfound]
    · exact closeBlock_append h

/-! ### Another body has the same block -/

/-- A character that is no carriage return before a line feed. -/
theorem splitlines_cons {c : Char} {tail : List Char} (h : c = '\r' → tail.head? ≠ some '\n') :
    splitlines (c :: tail) =
      if isLineBreak c then ⟨[], [c]⟩ :: splitlines tail
      else
        match splitlines tail with
        | [] => [⟨[c], []⟩]
        | line :: lines => ⟨c :: line.content, line.ending⟩ :: lines := by
  refine splitlines.eq_3 c tail ?_
  rintro tail rfl rfl
  exact h rfl rfl

theorem text_ne_nil (h : line ∈ splitlines text) : line.text ≠ [] := by
  fun_induction splitlines text generalizing line with
  | case1 => cases h
  | case2 tail ih =>
    rcases List.mem_cons.mp h with rfl | h
    · exact List.cons_ne_nil _ _
    · exact ih h
  | case3 c tail hrn hbreak ih =>
    rcases List.mem_cons.mp h with rfl | h
    · exact List.cons_ne_nil _ _
    · exact ih h
  | case4 c tail hrn hbreak hnil ih =>
    obtain rfl := List.mem_singleton.mp h
    exact List.cons_ne_nil _ _
  | case5 c tail hrn hbreak first lines hlines ih =>
    rcases List.mem_cons.mp h with rfl | h
    · exact List.cons_ne_nil _ _
    · exact ih (hlines ▸ List.mem_cons_of_mem first h)

/-- The text of the first lines begins as the whole text does. -/
theorem head?_block (hblock : block ++ rest = splitlines text) (hne : block ≠ []) (other : List Char) :
    ((block.map Line.text).flatten ++ other).head? = text.head? := by
  obtain ⟨line, block, rfl⟩ := List.exists_cons_of_ne_nil hne
  have hline : line.text ≠ [] := text_ne_nil (hblock ▸ List.mem_cons_self : line ∈ splitlines text)
  have hflat := flatten_splitlines text
  obtain ⟨c, tail, htext⟩ := List.exists_cons_of_ne_nil hline
  rw [← hflat, ← hblock, List.cons_append, List.map_cons, List.map_cons, List.flatten_cons, List.flatten_cons, htext]
  rfl

theorem feed_tail {first : Line} (hfeed : ∀ line ∈ (first :: block).getLast?, line.ending.getLast? = some '\n') :
    ∀ line ∈ block.getLast?, line.ending.getLast? = some '\n' := by
  cases block with
  | nil => exact fun _ h => absurd h (Option.not_mem_none _)
  | cons line block => rwa [List.getLast?_cons_cons] at hfeed

/-- Another text after a line feed leaves the lines before it as they are. -/
theorem splitlines_append (hblock : block ++ rest = splitlines text)
    (hfeed : ∀ line ∈ block.getLast?, line.ending.getLast? = some '\n') (other : List Char) :
    splitlines ((block.map Line.text).flatten ++ other) = block ++ splitlines other := by
  fun_induction splitlines text generalizing block with
  | case1 =>
    obtain ⟨rfl, -⟩ := List.append_eq_nil_iff.mp hblock
    rfl
  | case2 tail ih =>
    cases block with
    | nil => rfl
    | cons first block =>
      obtain ⟨rfl, htail⟩ := List.cons.inj hblock
      change splitlines ('\r' :: '\n' :: ((block.map Line.text).flatten ++ other)) = _
      rw [splitlines, ih htail (feed_tail hfeed)]
      rfl
  | case3 c tail hrn hbreak ih =>
    cases block with
    | nil => rfl
    | cons first block =>
      obtain ⟨rfl, htail⟩ := List.cons.inj hblock
      have hhead : c = '\r' → ((block.map Line.text).flatten ++ other).head? ≠ some '\n' := by
        rintro rfl
        by_cases hne : block = []
        · subst hne
          exact absurd (hfeed _ rfl) (by decide)
        · rw [head?_block htail hne]
          intro hhead
          obtain ⟨tail', rfl⟩ := List.head?_eq_some_iff.mp hhead
          exact hrn tail' rfl rfl
      change splitlines (c :: ((block.map Line.text).flatten ++ other)) = _
      rw [splitlines_cons hhead, if_pos hbreak, ih htail (feed_tail hfeed)]
      rfl
  | case4 c tail hrn hbreak hnil ih =>
    cases block with
    | nil => rfl
    | cons first block =>
      obtain ⟨rfl, htail⟩ := List.cons.inj hblock
      obtain ⟨rfl, -⟩ := List.append_eq_nil_iff.mp htail
      exact absurd (hfeed ⟨[c], []⟩ rfl) nofun
  | case5 c tail hrn hbreak first lines hlines ih =>
    cases block with
    | nil => rfl
    | cons line block =>
      obtain ⟨rfl, htail⟩ := List.cons.inj hblock
      have hfeed' : ∀ line ∈ (first :: block).getLast?, line.ending.getLast? = some '\n' := by
        cases block with
        | nil =>
          intro line hline
          rw [← Option.mem_some.mp hline]
          exact hfeed ⟨c :: first.content, first.ending⟩ rfl
        | cons line' block =>
          rw [List.getLast?_cons_cons] at hfeed ⊢
          exact hfeed
      have hlast := @ih (first :: block) (by rw [List.cons_append, hlines]; exact congrArg _ htail) hfeed'
      change splitlines (c :: (((first :: block).map Line.text).flatten ++ other)) = _
      rw [splitlines_cons fun hc => absurd (show isLineBreak c = true by rw [hc]; decide) hbreak, if_neg hbreak, hlast]
      rfl

/-! ### Neither reader looks past the block -/

/-- A block whose first line is not blank begins with it. -/
theorem closeBlock_cons (hblank : ¬ isBlank line.text = true) (h : closeBlock started (line :: lines) = some (block, rest)) :
    ∃ block', block = line :: block' := by
  rw [closeBlock, if_neg hblank] at h
  split at h
  · obtain ⟨block', rfl, -⟩ := before_eq_some h
    exact ⟨block', rfl⟩
  · cases h

/-- A header line is put, or refused. -/
theorem putHeaderOr_ne_none {ε : Type} {duplicate : String → ε} {header : List Char} (h : (headerOf header).isSome = true) :
    putHeaderOr duplicate headers header ≠ .ok none := by
  rw [putHeaderOr_eq]
  cases hheader : headerOf header with
  | none => rw [hheader] at h; cases h
  | some found =>
    obtain ⟨key, value⟩ := found
    dsimp only
    split
    · exact nofun
    · exact nofun

theorem splitFrontmatter_closed (h : closeFrontmatter lines = some (block, rest)) {body : List Line}
    (hread : splitFrontmatter headers lines = .ok (result, body)) (other : List Line) :
    ∃ body', splitFrontmatter headers (block ++ other) = .ok (result, body') := by
  induction lines generalizing headers block with
  | nil => cases h
  | cons line lines ih =>
    rw [closeFrontmatter] at h
    rw [splitFrontmatter] at hread
    by_cases hend : strip line.text = ['-', '-', '-']
    · rw [if_pos hend] at h hread
      cases h
      rw [List.singleton_append, splitFrontmatter, if_pos hend]
      split at hread
      · cases hread
      · cases hread
        exact ⟨_, if_neg ‹_›⟩
    rw [if_neg hend] at h hread
    obtain ⟨block', rfl, hfound⟩ := before_eq_some h
    rw [List.cons_append, splitFrontmatter, if_neg hend]
    split at hread
    · rw [if_pos ‹_›]
      exact ih hfound hread
    · rw [if_neg ‹_›]
      split at hread
      · rw [if_pos ‹_›]
        exact ih hfound hread
      · rw [if_neg ‹_›]
        cases hput : putHeader headers line.text with
        | error e => rw [hput] at hread; cases hread
        | ok put =>
          rw [hput] at hread
          cases put with
          | none => cases hread
          | some headers' => exact ih hfound hread

theorem splitBlock_closed (hlines : ∀ line ∈ lines, Parted line) (h : closeBlock started lines = some (block, rest))
    {body : List Line} (hread : splitBlock headers started lines = .ok (result, body)) (other : List Line) :
    splitBlock headers started (block ++ other) = .ok (result, other) := by
  induction lines generalizing headers block started with
  | nil => cases h
  | cons line lines ih =>
    have hrest : ∀ line ∈ lines, Parted line := fun line h => hlines line (List.mem_cons_of_mem _ h)
    rw [closeBlock] at h
    rw [splitBlock] at hread
    by_cases hblank : isBlank line.text = true
    · rw [if_pos hblank] at h hread
      cases started with
      | true =>
        cases h
        cases hread
        rw [List.singleton_append, splitBlock, if_pos hblank]
        rfl
      | false =>
        obtain ⟨block', rfl, hfound⟩ := before_eq_some h
        rw [List.cons_append, splitBlock, if_pos hblank]
        exact ih hrest hfound hread
    rw [if_neg hblank] at h hread
    split at h
    · next hheader =>
      obtain ⟨block', rfl, hfound⟩ := before_eq_some h
      rw [List.cons_append, splitBlock, if_neg hblank]
      cases hput : putHeader headers line.text with
      | error e => rw [hput] at hread; cases hread
      | ok put =>
        rw [hput] at hread
        cases put with
        | none =>
          rw [putHeader] at hput
          exact absurd hput (putHeaderOr_ne_none ((hlines line List.mem_cons_self).headerOf_text ▸ hheader))
        | some headers' => exact ih hrest hfound hread
    · cases h

theorem frontmatterHeaders_closed (hlines : ∀ line ∈ lines, Parted line) (h : closeFrontmatter lines = some (block, rest))
    (hread : frontmatterHeaders headers (lines.map Line.content) = .ok result) (other : List Line) :
    frontmatterHeaders headers ((block ++ other).map Line.content) = .ok result := by
  induction lines generalizing headers block with
  | nil => cases h
  | cons line lines ih =>
    have hrest : ∀ line ∈ lines, Parted line := fun line h => hlines line (List.mem_cons_of_mem _ h)
    rw [closeFrontmatter, Line.strip_text (hlines line List.mem_cons_self).blank_ending] at h
    rw [List.map_cons, frontmatterHeaders] at hread
    by_cases hend : strip line.content = ['-', '-', '-']
    · rw [if_pos hend] at h hread
      cases h
      rw [List.singleton_append, List.map_cons, frontmatterHeaders, if_pos hend]
      exact hread
    rw [if_neg hend] at h hread
    obtain ⟨block', rfl, hfound⟩ := before_eq_some h
    rw [List.cons_append, List.map_cons, frontmatterHeaders, if_neg hend]
    split at hread
    · rw [if_pos ‹_›]
      cases hput : putMessageHeader headers line.content with
      | error e => rw [hput] at hread; cases hread
      | ok put =>
        rw [hput] at hread
        cases put with
        | none => cases hread
        | some headers' => exact ih hrest hfound hread
    · rw [if_neg ‹_›]
      exact ih hrest hfound hread

theorem blockHeaders_closed (hlines : ∀ line ∈ lines, Parted line) (h : closeBlock started lines = some (block, rest))
    (hread : blockHeaders headers started (lines.map Line.content) = .ok result) (other : List Line) :
    blockHeaders headers started ((block ++ other).map Line.content) = .ok result := by
  induction lines generalizing headers block started with
  | nil => cases h
  | cons line lines ih =>
    have hrest : ∀ line ∈ lines, Parted line := fun line h => hlines line (List.mem_cons_of_mem _ h)
    rw [closeBlock, Line.isBlank_text (hlines line List.mem_cons_self).blank_ending] at h
    rw [List.map_cons, blockHeaders] at hread
    by_cases hblank : isBlank line.content = true
    · rw [if_pos hblank] at h hread
      cases started with
      | true =>
        cases h
        rw [List.singleton_append, List.map_cons, blockHeaders, if_pos hblank]
        exact hread
      | false =>
        obtain ⟨block', rfl, hfound⟩ := before_eq_some h
        rw [List.cons_append, List.map_cons, blockHeaders, if_pos hblank]
        exact ih hrest hfound hread
    rw [if_neg hblank] at h hread
    split at h
    · next hheader =>
      obtain ⟨block', rfl, hfound⟩ := before_eq_some h
      rw [List.cons_append, List.map_cons, blockHeaders, if_neg hblank]
      cases hput : putMessageHeader headers line.content with
      | error e => rw [hput] at hread; cases hread
      | ok put =>
        rw [hput] at hread
        cases put with
        | none => exact absurd hput (putHeaderOr_ne_none hheader)
        | some headers' => exact ih hrest hfound hread
    · cases h

/-! ### The document -/

/-- What `_split_document` reads from the lines of a text. -/
def readLines (lines : List Line) : Except String (Headers × List Line) :=
  match lines.dropWhile fun line => isBlank line.text with
  | [] => splitBlock [] false []
  | line :: lines =>
    if strip line.text = ['-', '-', '-'] then splitFrontmatter [] lines
    else if (lstrip line.text).head? = some '#' then splitBlock [] false (lines.dropWhile fun line => isBlank line.text)
    else splitBlock [] false (line :: lines)

/-- What `_metadata_headers` reads from the contents of the lines. -/
def readContents (contents : List (List Char)) : Except Exc Headers :=
  match contents.dropWhile isBlank with
  | [] => blockHeaders [] false []
  | line :: lines =>
    if strip line = ['-', '-', '-'] then frontmatterHeaders [] lines
    else if (lstrip line).head? = some '#' then blockHeaders [] false (lines.dropWhile isBlank)
    else blockHeaders [] false (line :: lines)

theorem splitBlock_dropWhile (lines : List Line) :
    splitBlock headers false (lines.dropWhile fun line => isBlank line.text) = splitBlock headers false lines := by
  induction lines with
  | nil => rfl
  | cons line lines ih =>
    rw [List.dropWhile_cons]
    split
    · next hblank =>
      rw [ih, splitBlock.eq_2, if_pos hblank]
      rfl
    · rfl

theorem blockHeaders_dropWhile (lines : List (List Char)) :
    blockHeaders headers false (lines.dropWhile isBlank) = blockHeaders headers false lines := by
  induction lines with
  | nil => rfl
  | cons line lines ih =>
    rw [List.dropWhile_cons]
    split
    · next hblank =>
      rw [ih, blockHeaders.eq_2, if_pos hblank]
      rfl
    · rfl

theorem readLines_closed (hlines : ∀ line ∈ lines, Parted line) (h : headerBlock lines = some (block, rest))
    {body : List Line} (hread : readLines lines = .ok (result, body)) (other : List Line) :
    ∃ body', readLines (block ++ other) = .ok (result, body') := by
  induction lines generalizing block with
  | nil => cases h
  | cons line lines ih =>
    have hrest : ∀ line ∈ lines, Parted line := fun line h => hlines line (List.mem_cons_of_mem _ h)
    rw [headerBlock] at h
    rw [readLines, List.dropWhile_cons] at hread
    by_cases hblank : isBlank line.text = true
    · rw [if_pos hblank] at h hread
      obtain ⟨block', rfl, hfound⟩ := before_eq_some h
      rw [List.cons_append, readLines, List.dropWhile_cons, if_pos hblank]
      exact ih hrest hfound hread
    rw [if_neg hblank] at h hread
    dsimp only at hread
    by_cases hfront : strip line.text = ['-', '-', '-']
    · rw [if_pos hfront] at h hread
      obtain ⟨block', rfl, hfound⟩ := before_eq_some h
      obtain ⟨body', hbody⟩ := splitFrontmatter_closed hfound hread other
      refine ⟨body', ?_⟩
      rw [List.cons_append, readLines, List.dropWhile_cons, if_neg hblank]
      dsimp only
      rw [if_pos hfront, hbody]
    rw [if_neg hfront] at h hread
    by_cases htitle : (lstrip line.text).head? = some '#'
    · rw [if_pos htitle] at h hread
      obtain ⟨block', rfl, hfound⟩ := before_eq_some h
      rw [splitBlock_dropWhile] at hread
      refine ⟨other, ?_⟩
      rw [List.cons_append, readLines, List.dropWhile_cons, if_neg hblank]
      dsimp only
      rw [if_neg hfront, if_pos htitle, splitBlock_dropWhile, splitBlock_closed hrest hfound hread]
    · rw [if_neg htitle] at h hread
      have hbody := splitBlock_closed hlines h hread other
      obtain ⟨block', rfl⟩ := closeBlock_cons hblank h
      refine ⟨other, ?_⟩
      rw [List.cons_append, readLines, List.dropWhile_cons, if_neg hblank]
      dsimp only
      rw [if_neg hfront, if_neg htitle]
      exact hbody

theorem readContents_closed (hlines : ∀ line ∈ lines, Parted line) (h : headerBlock lines = some (block, rest))
    (hread : readContents (lines.map Line.content) = .ok result) (other : List Line) :
    readContents ((block ++ other).map Line.content) = .ok result := by
  induction lines generalizing block with
  | nil => cases h
  | cons line lines ih =>
    have hline := hlines line List.mem_cons_self
    have hrest : ∀ line ∈ lines, Parted line := fun line h => hlines line (List.mem_cons_of_mem _ h)
    rw [headerBlock, Line.strip_text hline.blank_ending, Line.head?_lstrip_text hline.blank_ending] at h
    rw [readContents, List.map_cons, List.dropWhile_cons] at hread
    by_cases hblank : isBlank line.text = true
    · rw [if_pos hblank] at h
      rw [Line.isBlank_text hline.blank_ending] at hblank
      rw [if_pos hblank] at hread
      obtain ⟨block', rfl, hfound⟩ := before_eq_some h
      rw [List.cons_append, List.map_cons, readContents, List.dropWhile_cons, if_pos hblank]
      exact ih hrest hfound hread
    have hcontent : ¬ isBlank line.content = true := Line.isBlank_text hline.blank_ending ▸ hblank
    rw [if_neg hblank] at h
    rw [if_neg hcontent] at hread
    dsimp only at hread
    by_cases hfront : strip line.content = ['-', '-', '-']
    · rw [if_pos hfront] at h hread
      obtain ⟨block', rfl, hfound⟩ := before_eq_some h
      rw [List.cons_append, List.map_cons, readContents, List.dropWhile_cons, if_neg hcontent]
      dsimp only
      rw [if_pos hfront]
      exact frontmatterHeaders_closed hrest hfound hread other
    rw [if_neg hfront] at h hread
    by_cases htitle : (lstrip line.content).head? = some '#'
    · rw [if_pos htitle] at h hread
      obtain ⟨block', rfl, hfound⟩ := before_eq_some h
      rw [blockHeaders_dropWhile] at hread
      rw [List.cons_append, List.map_cons, readContents, List.dropWhile_cons, if_neg hcontent]
      dsimp only
      rw [if_neg hfront, if_pos htitle, blockHeaders_dropWhile]
      exact blockHeaders_closed hrest hfound hread other
    · rw [if_neg htitle] at h hread
      have hbody := blockHeaders_closed hlines h hread other
      obtain ⟨block', rfl⟩ := closeBlock_cons hblank h
      rw [List.cons_append, List.map_cons, readContents, List.dropWhile_cons, if_neg hcontent]
      dsimp only
      rw [if_neg hfront, if_neg htitle]
      exact hbody

/-- **A text whose header block is closed by a line that ends in a line feed has the same
headers with any other text after that line, for the guard and for the appender.** -/
theorem body_cannot_authenticate (text : List Char) (block rest : List Line)
    (hblock : headerBlock (splitlines text) = some (block, rest))
    (hfeed : ∀ line ∈ block.getLast?, line.ending.getLast? = some '\n') :
    text = (block.map Line.text).flatten ++ (rest.map Line.text).flatten ∧
    (∀ headers body, splitDocument text = .ok (headers, body) →
      ∀ other, ∃ body', splitDocument ((block.map Line.text).flatten ++ other) = .ok (headers, body')) ∧
    ∀ headers, metadataHeaders text = .ok headers →
      ∀ other, metadataHeaders ((block.map Line.text).flatten ++ other) = .ok headers := by
  have happend := headerBlock_append hblock
  have hlines : ∀ line ∈ splitlines text, Parted line := fun line h => parted_splitlines h
  refine ⟨?_, fun headers body hread other => ?_, fun headers hread other => ?_⟩
  · rw [← List.flatten_append, ← List.map_append, happend, flatten_splitlines]
  · rw [splitDocument] at hread
    cases hsplit : splitLines text with
    | error e => rw [hsplit] at hread; cases hread
    | ok document =>
      obtain ⟨headers', lines⟩ := document
      rw [hsplit] at hread
      cases hread
      obtain ⟨body', hbody⟩ := readLines_closed hlines hblock hsplit (splitlines other)
      refine ⟨(body'.map Line.text).flatten, ?_⟩
      change (readLines (splitlines _)).map _ = _
      rw [splitlines_append happend hfeed, hbody]
      rfl
  · change readContents ((splitlines _).map Line.content) = _
    rw [splitlines_append happend hfeed]
    exact readContents_closed hlines hblock hread (splitlines other)

/-- A document whose body looks like a header. -/
def quoted : List Char := "# Title\nmessage_id: a-1\nwriter: a\r\n \r\nwriter: b\n".toList

theorem body_cannot_authenticate_sample :
    quoted = "# Title\nmessage_id: a-1\nwriter: a\r\n \r\n".toList ++ "writer: b\n".toList ∧
    (∀ headers body, splitDocument quoted = .ok (headers, body) →
      ∀ other, ∃ body', splitDocument ("# Title\nmessage_id: a-1\nwriter: a\r\n \r\n".toList ++ other) = .ok (headers, body')) ∧
    ∀ headers, metadataHeaders quoted = .ok headers →
      ∀ other, metadataHeaders ("# Title\nmessage_id: a-1\nwriter: a\r\n \r\n".toList ++ other) = .ok headers :=
  body_cannot_authenticate quoted
    [⟨"# Title".toList, ['\n']⟩, ⟨"message_id: a-1".toList, ['\n']⟩, ⟨"writer: a".toList, ['\r', '\n']⟩, ⟨[' '], ['\r', '\n']⟩]
    [⟨"writer: b".toList, ['\n']⟩] (by decide +kernel) (by decide +kernel)

end CcbCore.Message
