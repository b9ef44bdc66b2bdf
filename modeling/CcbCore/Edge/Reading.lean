import CcbCore.Edge.Estimate
import CcbCore.Edge.Projecting
import CcbCore.Edge.Splitting
import CcbCore.Library.Trim

/-!
# What the Edge function reads of a guarded document

A message is read twice: by `parse_bus_document`, when its push is guarded, and by `projectFile`, when it is projected.
Of a text that both split alike (`Tame`) the two read the same message (`Reads`); but `projectFile` unquotes a value
once, where the grammar does it twice, wants a `created_at` with a value, and parses a time by itself. `Takes` says what
it asks beyond the grammar, and a guarded document is projected exactly if that holds (`projectFile_takes_iff`). A
document that is not stops its lane, as the guard has let it in.
-/

namespace CcbCore.Edge

open CcbCore.Python CcbCore.JavaScript CcbCore.Message CcbCore.Raising

variable {text part value : List Char} {line : Line} {lines rest : List Line} {headers headers' : Headers}

/-! ### Characters -/

/-- White space is the same to both. -/
def SameWhite (part : List Char) : Prop := ∀ c ∈ part, isSpace c = isWhite c

theorem SameWhite.dropWhile (h : SameWhite part) : part.dropWhile isWhite = part.dropWhile isSpace := by
  induction part with
  | nil => rfl
  | cons c part ih =>
    rw [List.dropWhile_cons, List.dropWhile_cons, h c List.mem_cons_self, ih fun d hd => h d (List.mem_cons_of_mem c hd)]

theorem SameWhite.trimEnd (h : SameWhite part) : trimEnd part = rstrip part := by
  have hreverse : SameWhite part.reverse := fun c hc => h c (List.mem_reverse.mp hc)
  rw [JavaScript.trimEnd, rstrip, List.rdropWhile, List.rdropWhile, hreverse.dropWhile]

theorem SameWhite.trim (h : SameWhite part) : trim part = strip part := by
  have hstart : SameWhite (lstrip part) := fun c hc => h c ((List.dropWhile_sublist _).subset hc)
  rw [JavaScript.trim, trimStart, h.dropWhile]
  exact hstart.trimEnd

theorem mem_unquote {inner : List Char} {c : Char} (h : unquote part = some inner) (hc : c ∈ inner) : c ∈ part := by
  unfold unquote at h
  split at h
  · split at h
    · obtain rfl := Option.some.inj h
      exact List.mem_cons_of_mem _ (List.dropLast_subset _ hc)
    · cases h
  · cases h

theorem mem_strip {c : Char} (h : c ∈ strip part) : c ∈ part := Trim.mem_of_mem_trim h

theorem SameWhite.unwrapScalar (h : SameWhite part) : Edge.unwrapScalar part = Message.unwrapScalar part := by
  rw [Edge.unwrapScalar, Message.unwrapScalar, h.trim]
  cases hinner : unquote (strip part) with
  | none => rfl
  | some inner =>
    have hsame : SameWhite inner := fun c hc => h c (mem_strip (mem_unquote hinner hc))
    exact hsame.trim

/-! ### Headers -/

/-- The headers have their values from a text, and trimmed. -/
def ValuesFrom (text : List Char) (headers : Headers) : Prop :=
  ∀ header ∈ headers, (∀ c ∈ header.2, c ∈ text) ∧ trim header.2 = header.2

theorem trim_trim (part : List Char) : trim (trim part) = trim part := Trim.trim_trim

theorem mem_trim {c : Char} (h : c ∈ trim part) : c ∈ part := Trim.mem_of_mem_trim h

theorem ValuesFrom.putHeader (h : ValuesFrom text headers) {raw : List Char} (hraw : ∀ c ∈ raw, c ∈ text)
    (hput : Edge.putHeader headers raw = .ok (some headers')) : ValuesFrom text headers' := by
  unfold Edge.putHeader at hput
  split at hput
  · cases hput
  · next key value hmatch =>
    split at hput
    · cases hput
    · split at hput
      · cases hput
        exact h
      · cases hput
        intro header hheader
        rcases List.mem_append.mp hheader with hheader | hheader
        · exact h header hheader
        · obtain rfl := List.mem_singleton.mp hheader
          refine ⟨fun c hc => hraw c ?_, trim_trim value⟩
          unfold Edge.matchHeader at hmatch
          split at hmatch
          · next hkey hrest =>
            split at hmatch
            · cases hmatch
            · obtain ⟨-, rfl⟩ := Prod.mk.inj (Option.some.inj hmatch)
              have hvalue := (List.dropWhile_sublist _).subset (mem_trim hc)
              have hafter := hrest ▸ List.mem_cons_of_mem ':' hvalue
              exact (List.dropWhile_sublist _).subset ((List.dropWhile_sublist _).subset hafter)
          · cases hmatch

theorem ValuesFrom.splitBlock {started : Bool} (h : ValuesFrom text headers) (hlines : ∀ line ∈ lines, ∀ c ∈ line.content, c ∈ text)
    (hsplit : Edge.splitBlock headers started lines = .ok (headers', rest)) : ValuesFrom text headers' ∧ rest <:+ lines := by
  induction lines generalizing headers started with
  | nil =>
    cases started <;> cases hsplit
    exact ⟨h, List.suffix_rfl⟩
  | cons line lines ih =>
    have hrest : ∀ line ∈ lines, ∀ c ∈ line.content, c ∈ text := fun line hmem => hlines line (List.mem_cons_of_mem _ hmem)
    rw [Edge.splitBlock] at hsplit
    split at hsplit
    · split at hsplit
      · cases hsplit
        exact ⟨h, List.suffix_cons _ _⟩
      · obtain ⟨hfrom, hsuffix⟩ := ih h hrest hsplit
        exact ⟨hfrom, hsuffix.trans (List.suffix_cons line lines)⟩
    · split at hsplit
      · cases hsplit
      · split at hsplit
        · cases hsplit
          exact ⟨h, List.suffix_rfl⟩
        · cases hsplit
      · next hput =>
        obtain ⟨hfrom, hsuffix⟩ := ih (h.putHeader (hlines line List.mem_cons_self) hput) hrest hsplit
        exact ⟨hfrom, hsuffix.trans (List.suffix_cons line lines)⟩

theorem ValuesFrom.splitFrontmatter (h : ValuesFrom text headers) (hlines : ∀ line ∈ lines, ∀ c ∈ line.content, c ∈ text)
    (hsplit : Edge.splitFrontmatter headers lines = .ok (headers', rest)) : ValuesFrom text headers' ∧ rest <:+ lines := by
  induction lines generalizing headers with
  | nil => cases hsplit
  | cons line lines ih =>
    have hrest : ∀ line ∈ lines, ∀ c ∈ line.content, c ∈ text := fun line hmem => hlines line (List.mem_cons_of_mem _ hmem)
    have hnext : ∀ {headers}, ValuesFrom text headers → Edge.splitFrontmatter headers lines = .ok (headers', rest) →
        ValuesFrom text headers' ∧ rest <:+ line :: lines := by
      intro headers hfrom hsplit
      obtain ⟨hfrom', hsuffix⟩ := ih hfrom hrest hsplit
      exact ⟨hfrom', hsuffix.trans (List.suffix_cons line lines)⟩
    rw [Edge.splitFrontmatter] at hsplit
    split at hsplit
    · split at hsplit
      · cases hsplit
      · cases hsplit
        exact ⟨h, (List.dropWhile_suffix _).trans (List.suffix_cons line lines)⟩
    · split at hsplit
      · exact hnext h hsplit
      · split at hsplit
        · exact hnext h hsplit
        · split at hsplit
          · cases hsplit
          · cases hsplit
          · next hput => exact hnext (h.putHeader (hlines line List.mem_cons_self) hput) hsplit

/-- What a tame text is split into is from it: values of headers, and its end. -/
theorem Tame.splitDocument {body : List Char} (h : Tame text) (hsplit : Edge.splitDocument text = .ok (headers, body)) :
    ValuesFrom text headers ∧ body <:+ text := by
  rw [Edge.splitDocument, lineRecords] at hsplit
  by_cases hempty : text = []
  · subst hempty
    cases hsplit
  rw [if_neg hempty, map_lineRecord h.newlines] at hsplit
  obtain ⟨⟨headers', rest⟩, hlines, heq⟩ := except_map_ok.mp hsplit
  cases heq
  have hnone : ValuesFrom text [] := List.forall_mem_nil _
  have hcontent : ∀ lines', lines' <:+ splitlines text → ∀ line ∈ lines', ∀ c ∈ line.content, c ∈ text := by
    intro lines' hsuffix line hmem c hc
    rw [← flatten_splitlines text, List.mem_flatten]
    exact ⟨line.text, List.mem_map_of_mem (hsuffix.subset hmem), List.mem_append_left _ hc⟩
  have hall : ValuesFrom text headers ∧ rest <:+ splitlines text := by
    rw [Edge.splitLines] at hlines
    have hdrop : (splitlines text).dropWhile isBlankRecord <:+ splitlines text := List.dropWhile_suffix _
    generalize (splitlines text).dropWhile isBlankRecord = first at hlines hdrop
    split at hlines
    · cases hlines
    · next line lines =>
      have hafter : lines <:+ splitlines text := (List.suffix_cons line lines).trans hdrop
      split at hlines
      · obtain ⟨hfrom, hsuffix⟩ := hnone.splitFrontmatter (hcontent _ hafter) hlines
        exact ⟨hfrom, hsuffix.trans hafter⟩
      · split at hlines
        · have htitle := (List.dropWhile_suffix isBlankRecord).trans hafter
          obtain ⟨hfrom, hsuffix⟩ := hnone.splitBlock (hcontent _ htitle) hlines
          exact ⟨hfrom, hsuffix.trans htitle⟩
        · obtain ⟨hfrom, hsuffix⟩ := hnone.splitBlock (hcontent _ hdrop) hlines
          exact ⟨hfrom, hsuffix.trans hdrop⟩
  obtain ⟨before, hbefore⟩ := hall.2
  refine ⟨hall.1, (before.map Line.text).flatten, ?_⟩
  conv_rhs => rw [← flatten_splitlines text, ← hbefore, List.map_append, List.flatten_append]
  rfl

/-! ### Values -/

/-- A raw value is empty, or is still a value and not quoted when it is unquoted. -/
def Bare (value : List Char) : Prop := value = [] ∨ Message.unwrapScalar value ≠ [] ∧ unquote (Message.unwrapScalar value) = none

/-- A value as the Edge function has it, in a tame text. -/
structure Raw (value : List Char) : Prop where
  white : SameWhite value
  trimmed : trim value = value

theorem Raw.of_lookup {key : String} (h : ValuesFrom text headers) (hwhite : SameWhite text)
    (hvalue : headers.lookup key = some value) : Raw value := by
  obtain ⟨before, after, rfl, -⟩ := List.lookup_eq_some_iff.mp hvalue
  obtain ⟨hmem, htrim⟩ := h (key, value) (List.mem_append_right _ List.mem_cons_self)
  exact ⟨fun c hc => hwhite c (hmem c hc), htrim⟩

theorem strip_unwrapScalar (value : List Char) : strip (Message.unwrapScalar value) = Message.unwrapScalar value := by
  unfold Message.unwrapScalar
  split <;> exact strip_idem

theorem unwrapScalar_of_unquote (h : unquote (Message.unwrapScalar value) = none) :
    Message.unwrapScalar (Message.unwrapScalar value) = Message.unwrapScalar value := by
  conv_lhs => rw [Message.unwrapScalar, strip_unwrapScalar, h]

theorem unwrapScalar_nil : Message.unwrapScalar [] = [] := rfl

/-- A text in quotes is no word for true or false. -/
theorem quoted_not_word {inner : List Char} (h : unquote value = some inner) {word : String}
    (hword : word ∈ ["true", "yes", "1"] ∨ word ∈ ["false", "no", "0"]) : lower (String.ofList value) ≠ word := by
  rintro rfl
  unfold unquote at h
  split at h
  · next c rest =>
    split at h
    · next hquote =>
      have hhead : (lower (String.ofList (c :: rest))).toList.head? = some c := by
        rw [lower, String.toList_ofList, String.toList_ofList, List.map_cons, List.head?_cons]
        rcases hquote.1 with rfl | rfl | rfl <;> rfl
      generalize lower (String.ofList (c :: rest)) = word at hword hhead
      simp only [List.mem_cons, List.not_mem_nil, or_false] at hword
      rcases hquote.1 with rfl | rfl | rfl <;> rcases hword with (rfl | rfl | rfl) | rfl | rfl | rfl <;>
        exact absurd hhead (by decide)
    · cases h
  · cases h

variable {runtime : Runtime} {engine : Engine}

theorem toLowerCase_unwrapScalar (h : Raw value) (hascii : ∀ c ∈ Message.unwrapScalar value, c.toNat < 0x80) :
    engine.toLowerCase (String.ofList (Edge.unwrapScalar value)) = lower (String.ofList (Message.unwrapScalar value)) := by
  rw [h.white.unwrapScalar]
  exact engine.toLowerCase_ascii _ (by simpa using hascii)

/-- What both read of a word: it is one for true, or one for false. -/
theorem readWord_ok {ε : Type} {word : String} {e : ε} {b : Bool} :
    (if word ∈ ["true", "yes", "1"] then .ok true
      else if word ∈ ["false", "no", "0"] then .ok false else .error e : Except ε Bool) = .ok b ↔
    (b = true ∧ word ∈ ["true", "yes", "1"]) ∨ (b = false ∧ word ∈ ["false", "no", "0"]) := by
  have hdisjoint : word ∈ ["false", "no", "0"] → word ∉ ["true", "yes", "1"] := by
    simp only [List.mem_cons, List.not_mem_nil, or_false]
    rintro (rfl | rfl | rfl) <;> decide
  by_cases htrue : word ∈ ["true", "yes", "1"]
  · have hfalse : word ∉ ["false", "no", "0"] := fun h => hdisjoint h htrue
    simp [htrue, hfalse, eq_comm]
  · by_cases hfalse : word ∈ ["false", "no", "0"]
    · simp [htrue, hfalse, eq_comm]
    · simp [htrue, hfalse]

/-- Of a truth value that the grammar reads, the Edge function reads the same, if it is bare, and refuses it if not. -/
theorem parseBool_iff {raw : Option (List Char)} {field code : String} {b : Bool} (hraw : ∀ value ∈ raw, Raw value)
    (hascii : ∀ value ∈ raw, ∀ c ∈ Message.unwrapScalar value, c.toNat < 0x80)
    (hparse : parseBusBool runtime (raw.map Message.unwrapScalar) field = .ok b) (b' : Bool) :
    parseBool engine raw code = .ok b' ↔ (∀ value ∈ raw, Bare value) ∧ b' = b := by
  cases raw with
  | none =>
    cases hparse
    simp [parseBool, eq_comm]
  | some value =>
    have hvalue := hraw value rfl
    have hlower : engine.toLowerCase (String.ofList (Edge.unwrapScalar value)) = lower (String.ofList (Message.unwrapScalar value)) :=
      toLowerCase_unwrapScalar hvalue (hascii value rfl)
    simp only [Option.map_some, parseBusBool, strip_unwrapScalar] at hparse
    simp only [parseBool, hvalue.trimmed, hlower, Option.mem_def, Option.some.injEq, forall_eq']
    by_cases hnil : value = []
    · subst hnil
      rw [unwrapScalar_nil, if_pos rfl] at hparse
      cases hparse
      rw [if_pos rfl, and_iff_right (.inl rfl), eq_comm]
      exact ⟨Except.ok.inj, congrArg _⟩
    rw [if_neg hnil]
    by_cases hempty : Message.unwrapScalar value = []
    · rw [hempty, readWord_ok]
      refine iff_of_false ?_ fun h => ?_
      · rintro (⟨-, hword⟩ | ⟨-, hword⟩) <;> exact absurd hword (by decide)
      · exact h.1.elim hnil fun h => h.1 hempty
    rw [if_neg hempty] at hparse
    cases hquoted : unquote (Message.unwrapScalar value) with
    | some inner =>
      rw [readWord_ok]
      refine iff_of_false ?_ fun h => ?_
      · rintro (⟨-, hword⟩ | ⟨-, hword⟩)
        · exact quoted_not_word hquoted (.inl hword) rfl
        · exact quoted_not_word hquoted (.inr hword) rfl
      · rcases h.1 with h | h
        · exact hnil h
        · rw [hquoted] at h
          cases h.2
    | none =>
      have hcasefold : runtime.casefold (String.ofList (Message.unwrapScalar value)) = lower (String.ofList (Message.unwrapScalar value)) :=
        runtime.casefold_ascii _ (by simpa using hascii value rfl)
      rw [unwrapScalar_of_unquote hquoted, hcasefold, readWord_ok] at hparse
      have hbare : Bare value := .inr ⟨hempty, hquoted⟩
      rw [and_iff_right hbare, readWord_ok.mpr hparse, eq_comm]
      exact ⟨Except.ok.inj, congrArg _⟩

/-- A date is not quoted, and no time with a zone is. -/
theorem unquote_of_time (h : isDateOnly value = true ∨ endsInZone value = true) : value ≠ [] ∧ unquote value = none := by
  have hquote : ∀ c : Char, c = '`' ∨ c = '"' ∨ c = '\'' → isAsciiDigit c = false ∧ c ≠ 'Z' ∧ c ≠ 'z' := by
    rintro c (rfl | rfl | rfl) <;> decide
  rcases h with h | h
  · unfold isDateOnly at h
    split at h
    · refine ⟨List.cons_ne_nil _ _, ?_⟩
      rw [unquote, if_neg]
      rintro ⟨hc, -⟩
      rw [List.all_cons, (hquote _ hc).1] at h
      cases h
    · cases h
  · have hlast : ∀ c, value.getLast? = some c → isAsciiDigit c = true ∨ c = 'Z' ∨ c = 'z' := by
      intro c hc
      rw [← List.reverse_reverse value, List.getLast?_reverse] at hc
      unfold endsInZone at h
      split at h
      · next heq =>
        rw [heq] at hc
        obtain rfl := Option.some.inj hc
        obtain ⟨-, hdigits⟩ := of_decide_eq_true h
        simp only [List.all_cons, Bool.and_eq_true] at hdigits
        exact .inl hdigits.2.2.2.1
      · next heq =>
        rw [heq] at hc
        obtain rfl := Option.some.inj hc
        exact .inr (of_decide_eq_true h)
      · cases h
    unfold unquote
    split
    · next c rest =>
      refine ⟨List.cons_ne_nil _ _, if_neg ?_⟩
      rintro ⟨hc, hrest⟩
      have hwhole : (c :: rest).getLast? = some c := by
        cases rest with
        | nil => cases hrest
        | cons d rest => rwa [List.getLast?_cons_cons]
      rcases hlast c hwhole with hdigit | hz
      · rw [(hquote c hc).1] at hdigit
        cases hdigit
      · exact hz.elim (hquote c hc).2.1 (hquote c hc).2.2
    · cases h

theorem endsInZone_of_normalized {time : List Char} (h : normalizedTimestamp engine value = some time) :
    isDateOnly (Edge.unwrapScalar value) = true ∨ endsInZone (Edge.unwrapScalar value) = true := by
  simp only [normalizedTimestamp] at h
  split at h
  · next hdate => exact .inl hdate
  · split at h
    · cases h
    · next hzone => exact .inr (by simpa using hzone)

/-- A time that both read is the same text. -/
theorem normalizedTimestamp_eq {time time' : List Char} (hvalue : Raw value) (h : normalizedTimestamp engine value = some time)
    (h' : normalizeBusTimestamp runtime (Message.unwrapScalar value) = .ok time') : time' = time := by
  have htime := endsInZone_of_normalized h
  rw [hvalue.white.unwrapScalar] at htime
  obtain ⟨-, hunquote⟩ := unquote_of_time htime
  simp only [normalizeBusTimestamp, unwrapScalar_of_unquote hunquote] at h'
  simp only [normalizedTimestamp, hvalue.white.unwrapScalar] at h
  split at h'
  · cases h'
  · split at h'
    · next hdate =>
      rw [if_pos hdate] at h
      obtain ⟨-, -, rfl⟩ := Option.map_eq_some_iff.mp h
      split at h'
      · cases h'
      · exact (Except.ok.inj h').symm
    · next hdate =>
      rw [if_neg hdate] at h
      split at h
      · cases h
      · obtain ⟨-, -, rfl⟩ := Option.map_eq_some_iff.mp h
        split at h'
        · exact (Except.ok.inj h').symm
        · cases h'

/-- Of the recipients both read the same, or both find two of them. -/
theorem intendedRecipient_eq (hraw : ∀ {key value}, headers.lookup key = some value → Raw value) {intended : List Char} :
    Edge.intendedRecipient headers = .ok intended ↔ Message.intendedRecipient (unwrapped headers) = .ok intended := by
  rw [Edge.intendedRecipient, Message.intendedRecipient, lookup_unwrapped, lookup_unwrapped]
  cases hsingular : headers.lookup "intended_recipient" with
  | some singular =>
    cases headers.lookup "intended_recipients" with
    | some plural => exact iff_of_false nofun nofun
    | none =>
      dsimp only [Option.map_some, Option.map_none]
      rw [(hraw hsingular).white.unwrapScalar]
      exact ⟨fun h => congrArg _ (Except.ok.inj h), fun h => congrArg _ (Except.ok.inj h)⟩
  | none =>
    cases hplural : headers.lookup "intended_recipients" with
    | some plural =>
      dsimp only [Option.map_some, Option.map_none, Option.getD_some]
      rw [(hraw hplural).white.unwrapScalar]
      exact ⟨fun h => congrArg _ (Except.ok.inj h), fun h => congrArg _ (Except.ok.inj h)⟩
    | none =>
      dsimp only [Option.map_none, Option.getD_none]
      exact ⟨fun h => congrArg _ (Except.ok.inj h), fun h => congrArg _ (Except.ok.inj h)⟩

/-! ### Bodies -/

theorem newlinesOnly_cons (c : Char) (text : List Char) : newlinesOnly (c :: text) = true ↔
    (c = '\n' ∨ isLineBreak c = false ∨ (c = '\r' ∧ text.head? = some '\n')) ∧ newlinesOnly text = true := by
  by_cases hpair : c = '\r' ∧ text.head? = some '\n'
  · obtain ⟨rfl, hhead⟩ := hpair
    cases text with
    | nil => cases hhead
    | cons d text =>
      obtain rfl := Option.some.inj hhead
      rw [newlinesOnly, newlinesOnly]
      · simp
      · intro _ hfeed
        exact absurd hfeed (by decide)
  · rw [newlinesOnly]
    · simp [hpair]
    · intro rest hc htext
      exact hpair ⟨hc, by rw [htext]; rfl⟩

theorem newlinesOnly_of_suffix {before : List Char} (h : newlinesOnly (before ++ text) = true) : newlinesOnly text = true := by
  induction before with
  | nil => exact h
  | cons c before ih => exact ih ((newlinesOnly_cons c _).mp h).2

theorem newlinesOnly_of_prefix {after : List Char} (h : newlinesOnly (text ++ after) = true) (hlast : text.getLast? ≠ some '\r') :
    newlinesOnly text = true := by
  induction text with
  | nil => rfl
  | cons c text ih =>
    obtain ⟨hc, hrest⟩ := (newlinesOnly_cons c _).mp h
    cases text with
    | nil =>
      refine (newlinesOnly_cons c []).mpr ⟨?_, rfl⟩
      rcases hc with hc | hc | ⟨rfl, -⟩
      · exact .inl hc
      · exact .inr (.inl hc)
      · exact absurd rfl hlast
    | cons d text =>
      rw [List.getLast?_cons_cons] at hlast
      exact (newlinesOnly_cons c _).mpr ⟨hc, ih hrest hlast⟩

theorem rawLines_of_not_mem (h : '\n' ∉ text) (hne : text ≠ []) : rawLines text = [⟨text, []⟩] := by
  induction text with
  | nil => exact absurd rfl hne
  | cons c text ih =>
    rw [List.mem_cons, not_or] at h
    obtain ⟨hc, htext⟩ := h
    rw [rawLines]
    · cases text with
      | nil => rfl
      | cons d text => rw [ih htext (List.cons_ne_nil _ _)]
    · exact fun heq => hc heq.symm

theorem rawLines_ne_nil (hne : text ≠ []) : rawLines text ≠ [] := by
  unfold rawLines
  split
  · exact absurd rfl hne
  · exact List.cons_ne_nil _ _
  · split <;> exact List.cons_ne_nil _ _

/-- What follows a line feed has its own lines. -/
theorem rawLines_append (before after : List Char) : rawLines (before ++ '\n' :: after) = rawLines (before ++ ['\n']) ++ rawLines after := by
  induction before with
  | nil => rfl
  | cons c before ih =>
    by_cases hc : c = '\n'
    · subst hc
      rw [List.cons_append, List.cons_append, rawLines, rawLines, ih, List.cons_append]
    · rw [List.cons_append, List.cons_append, rawLines, rawLines, ih]
      · cases hlines : rawLines (before ++ ['\n']) with
        | nil => exact absurd hlines (rawLines_ne_nil (by simp))
        | cons line lines => rfl
      · exact hc
      · exact hc

/-- The last line of a text is what follows its last line feed. -/
theorem getLast?_rawLines (hlast : text.getLast? ≠ some '\n') (hne : text ≠ []) :
    (rawLines text).getLast? = some ⟨text.rtakeWhile (· ≠ '\n'), []⟩ := by
  have hnot : '\n' ∉ text.rtakeWhile (· ≠ '\n') := fun h => by simpa using List.mem_rtakeWhile_imp h
  have htake : text.rtakeWhile (· ≠ '\n') ≠ [] := by
    rw [ne_eq, List.rtakeWhile_eq_nil_iff]
    intro h
    refine hlast ?_
    rw [List.getLast?_eq_some_getLast hne]
    simpa using h hne
  have hlines := rawLines_of_not_mem hnot htake
  rcases List.eq_nil_or_concat (text.rdropWhile (· ≠ '\n')) with hdrop | ⟨before, c, hdrop⟩
  · have hwhole : text.rtakeWhile (· ≠ '\n') = text := by
      conv_rhs => rw [← List.rdropWhile_append_rtakeWhile (l := text) (p := (· ≠ '\n')), hdrop, List.nil_append]
    rw [hwhole] at hlines ⊢
    rw [hlines]
    rfl
  · obtain rfl : c = '\n' := by
      have hne : text.rdropWhile (· ≠ '\n') ≠ [] := by
        rw [hdrop, List.concat_eq_append]
        exact List.concat_ne_nil c before
      have hnotlast := List.rdropWhile_last_not (· ≠ '\n') text hne
      have hlast : (text.rdropWhile (· ≠ '\n')).getLast hne = c := by
        simp only [hdrop, List.concat_eq_append, List.getLast_append_singleton]
      rw [hlast] at hnotlast
      simpa using hnotlast
    have hwhole : text = before ++ '\n' :: text.rtakeWhile (· ≠ '\n') := by
      conv_lhs => rw [← List.rdropWhile_append_rtakeWhile (l := text) (p := (· ≠ '\n')), hdrop]
      simp
    conv_lhs => rw [hwhole, rawLines_append, hlines, List.getLast?_append]
    rfl

/-- Both find the sender's mark on the same last line. -/
theorem closed_eq {body : List Char} (hnewlines : newlinesOnly body = true) (hwhite : SameWhite body) :
    conversationClosedBySender body = closedBySender body := by
  simp only [conversationClosedBySender, closedBySender, hwhite.trimEnd]
  by_cases hempty : rstrip body = []
  · rw [if_pos hempty, hempty]
    rfl
  rw [if_neg hempty]
  have hlast : ∀ c, (rstrip body).getLast? = some c → isSpace c = false := by
    intro c hc
    have hnot := List.rdropWhile_last_not isSpace body hempty
    rw [List.getLast?_eq_some_getLast hempty] at hc
    rw [← Option.some.inj hc]
    exact Bool.not_eq_true _ ▸ hnot
  have hnewlines' : newlinesOnly (rstrip body) = true := by
    obtain ⟨after, hafter⟩ := List.rdropWhile_prefix isSpace (l := body)
    exact newlinesOnly_of_prefix (hafter ▸ hnewlines) fun h => absurd (hlast _ h) (by decide)
  rw [← map_lineRecord hnewlines', List.getLast?_map, getLast?_rawLines (fun h => absurd (hlast _ h) (by decide)) hempty,
    Option.map_some]
  simp only [lineRecord, lastLine]
  split <;> rfl

/-! ### Documents -/

variable {digests : Digests} {batch : ProjectionBatch} {file : SourceFile} {content : Bytes} {parsed : ParsedBusDocument}

/-- What the Edge function asks of a document beyond the grammar, with the raw values of its headers. -/
structure Takes (engine : Engine) (digests : Digests) (batch : ProjectionBatch) (file : SourceFile) (content : Bytes)
    (parsed : ParsedBusDocument) (headers : Headers) : Prop where
  small : content.size ≤ maxFileBytes
  blob : gitBlobSha1 digests content = file.blobSha
  writer : aliasIdentity (lower parsed.writer) = batch.laneIdentity
  committedAt : (normalizedTimestamp engine file.sourceCommittedAt.toList).isSome
  createdAt : ∀ value ∈ headers.lookup "created_at", (normalizedTimestamp engine value).isSome
  requiresReply : ∀ value ∈ headers.lookup "requires_reply", Bare value
  requiresAck : parsed.requiresReply = false → ∀ value ∈ headers.lookup "requires_ack", Bare value

/-- A call of the journal has what the grammar read. -/
structure Reads (engine : Engine) (batch : ProjectionBatch) (file : SourceFile) (parsed : ParsedBusDocument) (headers : Headers)
    (call : FileCall) : Prop where
  messageId : call.messageId = parsed.messageId
  sender : call.sender = batch.laneIdentity
  createdAt : some call.createdAt.toList = parsed.createdAt.or (normalizedTimestamp engine file.sourceCommittedAt.toList)
  audience : call.audience = audienceOf engine parsed.intendedRecipient
  requiresAck : call.requiresAck = (parsed.requiresReply || parsed.requiresAck)
  contentHash : call.contentHash = parsed.fullSha256
  idempotencyKey : call.idempotencyKey = "chat-bus:" ++ parsed.messageId ++ ":" ++ parsed.fullSha256
  payload : ∃ p : Receipts.Provenance, call.payload = Receipts.metadata headers p ∧ p.admittedLaneIdentity = batch.laneIdentity ∧
    p.sourceRef = batch.ref ∧ p.sourceBranchHead = batch.branchHead ∧ p.sourcePath = file.path ∧ p.bodySha256 = parsed.bodySha256 ∧
    p.bodyLength = parsed.bodyLength ∧ p.conversationClosedBySender = parsed.conversationClosedBySender

/-- A header that the grammar requires. -/
theorem requireHeader_ok {key : String} (code : String) {given : List Char} (hraw : ∀ {key value}, headers.lookup key = some value → Raw value)
    (hgiven : Headers.given (unwrapped headers) key = some given) :
    ∃ value, requireHeader headers key code = .ok value ∧ Raw value ∧ Message.unwrapScalar value = given := by
  rw [Headers.given, lookup_unwrapped, Option.filter_eq_some_iff, Option.map_eq_some_iff] at hgiven
  obtain ⟨⟨value, hvalue, rfl⟩, hne⟩ := hgiven
  have hvalueRaw := hraw hvalue
  refine ⟨value, ?_, hvalueRaw, rfl⟩
  rw [requireHeader, hvalue]
  dsimp only
  rw [hvalueRaw.trimmed, if_neg]
  rintro rfl
  exact of_decide_eq_true hne rfl

/-- The time of creation that the Edge function reads. -/
theorem readCreatedAt_iff {sourceTime : List Char} {createdAt : Option (List Char)} {invalid : Bool}
    (hraw : ∀ {key value}, headers.lookup key = some value → Raw value)
    (hread : Message.readCreatedAt runtime (unwrapped headers) .strict = .ok (createdAt, invalid)) :
    ((∃ read, Edge.readCreatedAt engine headers sourceTime = .ok read) ↔
      ∀ value ∈ headers.lookup "created_at", (normalizedTimestamp engine value).isSome) ∧
    ∀ read, Edge.readCreatedAt engine headers sourceTime = .ok read → some read.1 = createdAt.or (some sourceTime) := by
  rw [Message.readCreatedAt, Headers.given, lookup_unwrapped] at hread
  rw [Edge.readCreatedAt]
  cases hvalue : headers.lookup "created_at" with
  | none =>
    rw [hvalue] at hread
    cases hread
    refine ⟨iff_of_true ⟨_, rfl⟩ nofun, fun read h => ?_⟩
    rw [← Except.ok.inj h]
    rfl
  | some value =>
    simp only [Option.mem_def, Option.some.injEq, forall_eq']
    cases htime : normalizedTimestamp engine value with
    | none => exact ⟨iff_of_false nofun nofun, nofun⟩
    | some time =>
      refine ⟨iff_of_true ⟨_, rfl⟩ rfl, fun read h => ?_⟩
      rw [← Except.ok.inj h]
      have hne := (unquote_of_time (endsInZone_of_normalized htime)).1
      rw [(hraw hvalue).white.unwrapScalar] at hne
      rw [hvalue, Option.map_some, Option.filter_some, if_pos (decide_eq_true hne)] at hread
      dsimp only at hread
      split at hread
      · next time' htime' =>
        cases hread
        rw [normalizedTimestamp_eq (hraw hvalue) htime htime']
        rfl
      · next hpolicy => cases hpolicy
      · cases hread

/-- The truth values that the Edge function reads. -/
theorem readRequiresAck_iff {requiresReply requiresAck : Bool} (hraw : ∀ {key value}, headers.lookup key = some value → Raw value)
    (hascii : ∀ key ∈ ["writer", "requires_reply", "requires_ack"], ∀ value ∈ (unwrapped headers).lookup key, ∀ c ∈ value, c.toNat < 0x80)
    (hreply : parseBusBool runtime ((unwrapped headers).lookup "requires_reply") "requires_reply" = .ok requiresReply)
    (hack : parseBusBool runtime ((unwrapped headers).lookup "requires_ack") "requires_ack" = .ok requiresAck) (b : Bool) :
    readRequiresAck engine headers = .ok b ↔ ((∀ value ∈ headers.lookup "requires_reply", Bare value) ∧
      (requiresReply = false → ∀ value ∈ headers.lookup "requires_ack", Bare value)) ∧ b = (requiresReply || requiresAck) := by
  have hbool : ∀ {key field code : String} {b : Bool}, key ∈ ["writer", "requires_reply", "requires_ack"] →
      parseBusBool runtime ((unwrapped headers).lookup key) field = .ok b → ∀ b', parseBool engine (headers.lookup key) code = .ok b' ↔
        (∀ value ∈ headers.lookup key, Bare value) ∧ b' = b := by
    intro key field code b hkey hparse
    rw [lookup_unwrapped] at hparse
    refine parseBool_iff (fun value => hraw) (fun value hvalue => ?_) hparse
    have hascii' := hascii key hkey (Message.unwrapScalar value)
    rw [lookup_unwrapped, Option.mem_def.mp hvalue] at hascii'
    exact hascii' rfl
  simp only [readRequiresAck, except_bind_ok, hbool (by simp) hreply]
  constructor
  · rintro ⟨_, ⟨hbare, rfl⟩, h⟩
    split at h
    · next htrue =>
      rw [except_pure_ok] at h
      subst h
      exact ⟨⟨hbare, fun hfalse => absurd (htrue.symm.trans hfalse) (by decide)⟩, by rw [htrue, Bool.true_or]⟩
    · next hfalse =>
      obtain ⟨hbare', rfl⟩ := (hbool (by simp) hack b).mp h
      rw [Bool.not_eq_true] at hfalse
      simp only [hfalse, Bool.false_or, and_true]
      exact ⟨hbare, fun _ => hbare'⟩
  · rintro ⟨⟨hbare, hbare'⟩, rfl⟩
    refine ⟨requiresReply, ⟨hbare, rfl⟩, ?_⟩
    cases requiresReply with
    | true => rfl
    | false => exact (hbool (by simp) hack _).mpr ⟨hbare' rfl, by simp⟩

/-- A tame text has no byte order mark. -/
theorem decodeText_of_sameWhite (hwhite : SameWhite text) (hdecode : decode content = some text) : decodeText content = some text := by
  rw [decodeText, hdecode, Option.map_some, if_neg]
  intro hmark
  have hmem : '\ufeff' ∈ text := List.mem_of_mem_head? hmark
  exact absurd (hwhite _ hmem) (by decide)

theorem projectFile_ok {body : List Char} {call : FileCall} (hcontent : base64Bytes file.contentBase64 = .ok content.data.toList)
    (htext : decodeText content = some text) (hsplit : Edge.splitDocument text = .ok (headers, body)) :
    projectFile engine digests batch file = .ok call ↔ (content.size ≤ maxFileBytes ∧ gitBlobSha1 digests content = file.blobSha) ∧
      projectDocument engine digests batch file content headers body = .ok call := by
  have hsize : content.data.toList.length = content.size := by rw [Array.length_toList, ByteArray.size_data]
  simp only [projectFile, except_bind_ok, rejectIf_ok, elim_ok, not_lt, not_not, hcontent, Except.ok.injEq, exists_eq_left', hsize]
  constructor
  · rintro ⟨-, hsmall, -, hblob, text', htext', split, hsplit', hcall⟩
    obtain rfl := Option.some.inj (htext.symm.trans htext')
    obtain rfl := Except.ok.inj (hsplit.symm.trans hsplit')
    exact ⟨⟨hsmall, hblob⟩, hcall⟩
  · rintro ⟨⟨hsmall, hblob⟩, hcall⟩
    exact ⟨(), hsmall, (), hblob, text, htext, _, hsplit, hcall⟩

theorem projectDocument_ok {body messageId writer intended : List Char} {call : FileCall}
    (hmessageId : requireHeader headers "message_id" "MESSAGE_ID_REQUIRED" = .ok messageId)
    (hwriter : requireHeader headers "writer" "WRITER_REQUIRED" = .ok writer)
    (hintended : Edge.intendedRecipient headers = .ok intended) :
    projectDocument engine digests batch file content headers body = .ok call ↔
      normalizeIdentity engine (String.ofList writer) = batch.laneIdentity ∧
      ∃ sourceTime, normalizedTimestamp engine file.sourceCommittedAt.toList = some sourceTime ∧
        ∃ createdAt basis, Edge.readCreatedAt engine headers sourceTime = .ok (createdAt, basis) ∧
          ∃ requiresAck, readRequiresAck engine headers = .ok requiresAck ∧
            ⟨batch.batchId, batch.claimToken, file.path, String.ofList (Edge.unwrapScalar messageId), String.ofList createdAt,
              batch.laneIdentity, audienceOf engine intended, requiresAck, sourceRefs batch file, digests.sha256 content,
              "chat-bus:" ++ String.ofList (Edge.unwrapScalar messageId) ++ ":" ++ digests.sha256 content,
              Receipts.metadata headers (provenanceOf digests batch file basis body)⟩ = call := by
  simp only [projectDocument, except_bind_ok, rejectIf_ok, elim_ok, not_not, hmessageId, hwriter, hintended, Except.ok.injEq,
    exists_eq_left', except_pure_ok]
  constructor
  · rintro ⟨-, hlane, sourceTime, htime, ⟨createdAt, basis⟩, hcreated, requiresAck, hack, rfl⟩
    exact ⟨hlane, sourceTime, htime, createdAt, basis, hcreated, requiresAck, hack, rfl⟩
  · rintro ⟨hlane, sourceTime, htime, createdAt, basis, hcreated, requiresAck, hack, rfl⟩
    exact ⟨(), hlane, sourceTime, htime, (createdAt, basis), hcreated, requiresAck, hack, rfl⟩

/-- A text as both split it, with the message that the grammar makes of it. -/
structure SplitAlike (runtime : Runtime) (content : Bytes) (text : List Char) (parsed : ParsedBusDocument) (headers : Headers)
    (body : List Char) : Prop where
  split : Edge.splitDocument text = .ok (headers, body)
  decoded : decodeText content = some text
  raw : ∀ {key value}, headers.lookup key = some value → Raw value
  parsedFrom : ParsedFrom runtime content (unwrapped headers) body parsed
  ascii : ∀ key ∈ ["writer", "requires_reply", "requires_ack"], ∀ value ∈ (unwrapped headers).lookup key, ∀ c ∈ value, c.toNat < 0x80
  closed : conversationClosedBySender body = parsed.conversationClosedBySender

theorem exists_splitAlike (htame : Tame text) (hproto : "__proto__" ∉ headerKeys text) (hdecode : decode content = some text)
    (hparsed : parseBusText runtime content text .strict = .ok parsed)
    (hascii : ∀ key ∈ ["writer", "requires_reply", "requires_ack"], ∀ value ∈ parsed.headers.lookup key, ∀ c ∈ value, c.toNat < 0x80) :
    ∃ headers body, SplitAlike runtime content text parsed headers body := by
  obtain ⟨pyHeaders, body, hpy, hfrom⟩ := parseBusText_ok hparsed
  obtain ⟨e, -, hrefused, -⟩ | ⟨headers, body', hpy', hjs⟩ := splitDocument_agree htame hproto
  · rw [hpy] at hrefused
    cases hrefused
  obtain ⟨rfl, rfl⟩ := Prod.mk.inj (Except.ok.inj (hpy.symm.trans hpy'))
  obtain ⟨hvalues, hsuffix⟩ := htame.splitDocument hjs
  refine ⟨headers, body, hjs, decodeText_of_sameWhite htame.white hdecode, fun hvalue => .of_lookup hvalues htame.white hvalue, hfrom,
    hfrom.same ▸ hascii, ?_⟩
  obtain ⟨before, rfl⟩ := hsuffix
  rw [hfrom.closed]
  exact closed_eq (newlinesOnly_of_suffix htame.newlines) fun c hc => htame.white c (List.mem_append_right _ hc)

namespace SplitAlike

variable {body : List Char} (h : SplitAlike runtime content text parsed headers body)
include h

/-- The headers that both require. -/
theorem required (engine : Engine) : ∃ messageId writer, requireHeader headers "message_id" "MESSAGE_ID_REQUIRED" = .ok messageId ∧
    String.ofList (Edge.unwrapScalar messageId) = parsed.messageId ∧ requireHeader headers "writer" "WRITER_REQUIRED" = .ok writer ∧
    normalizeIdentity engine (String.ofList writer) = aliasIdentity (lower parsed.writer) := by
  obtain ⟨_, hgivenId, hparsedId⟩ := h.parsedFrom.messageId
  obtain ⟨messageId, hmessageId, hidRaw, rfl⟩ := requireHeader_ok "MESSAGE_ID_REQUIRED" h.raw hgivenId
  obtain ⟨_, hgiven, hparsedWriter⟩ := h.parsedFrom.writer
  obtain ⟨writer, hwriter, hwriterRaw, rfl⟩ := requireHeader_ok "WRITER_REQUIRED" h.raw hgiven
  refine ⟨messageId, writer, hmessageId, by rw [hidRaw.white.unwrapScalar, hparsedId], hwriter, ?_⟩
  have hwriterAscii : ∀ c ∈ Message.unwrapScalar writer, c.toNat < 0x80 :=
    h.ascii "writer" (by simp) _ (Option.filter_eq_some_iff.mp hgiven).1
  rw [normalizeIdentity, String.toList_ofList, toLowerCase_unwrapScalar hwriterRaw hwriterAscii, hparsedWriter]

theorem takes_of_projectFile {call : FileCall} (hcontent : base64Bytes file.contentBase64 = .ok content.data.toList)
    (hcall : projectFile engine digests batch file = .ok call) : Takes engine digests batch file content parsed headers := by
  obtain ⟨messageId, writer, hmessageId, -, hwriter, hnormalized⟩ := h.required engine
  have hintended := (intendedRecipient_eq h.raw).mpr h.parsedFrom.intendedRecipient
  obtain ⟨invalid, hcreatedAt⟩ := h.parsedFrom.createdAt
  obtain ⟨⟨hsmall, hblob⟩, hcall⟩ := (projectFile_ok hcontent h.decoded h.split).mp hcall
  obtain ⟨hlane, sourceTime, htime, createdAt, basis, hcreated, requiresAck, hack, -⟩ :=
    (projectDocument_ok hmessageId hwriter hintended).mp hcall
  obtain ⟨⟨hreply, hack⟩, -⟩ := (readRequiresAck_iff h.raw h.ascii h.parsedFrom.requiresReply h.parsedFrom.requiresAck _).mp hack
  exact ⟨hsmall, hblob, hnormalized.symm.trans hlane, Option.isSome_iff_exists.mpr ⟨_, htime⟩,
    (readCreatedAt_iff h.raw hcreatedAt).1.mp ⟨_, hcreated⟩, hreply, hack⟩

theorem projectFile_of_takes (hcontent : base64Bytes file.contentBase64 = .ok content.data.toList)
    (htakes : Takes engine digests batch file content parsed headers) : ∃ call, projectFile engine digests batch file = .ok call := by
  obtain ⟨messageId, writer, hmessageId, -, hwriter, hnormalized⟩ := h.required engine
  have hintended := (intendedRecipient_eq h.raw).mpr h.parsedFrom.intendedRecipient
  obtain ⟨invalid, hcreatedAt⟩ := h.parsedFrom.createdAt
  obtain ⟨sourceTime, htime⟩ := Option.isSome_iff_exists.mp htakes.committedAt
  obtain ⟨⟨createdAt, basis⟩, hcreated⟩ : ∃ read, Edge.readCreatedAt engine headers sourceTime = .ok read :=
    (readCreatedAt_iff h.raw hcreatedAt).1.mpr htakes.createdAt
  have hack : readRequiresAck engine headers = .ok (parsed.requiresReply || parsed.requiresAck) :=
    (readRequiresAck_iff h.raw h.ascii h.parsedFrom.requiresReply h.parsedFrom.requiresAck _).mpr
      ⟨⟨htakes.requiresReply, htakes.requiresAck⟩, rfl⟩
  exact ⟨_, (projectFile_ok hcontent h.decoded h.split).mpr ⟨⟨htakes.small, htakes.blob⟩,
    (projectDocument_ok hmessageId hwriter hintended).mpr
      ⟨hnormalized.trans htakes.writer, sourceTime, htime, createdAt, basis, hcreated, _, hack, rfl⟩⟩⟩

theorem reads_of_projectFile {call : FileCall} (hcontent : base64Bytes file.contentBase64 = .ok content.data.toList)
    (hdigest : digests.sha256 = runtime.sha256) (hcall : projectFile engine digests batch file = .ok call) :
    Reads engine batch file parsed headers call := by
  obtain ⟨messageId, writer, hmessageId, hid, hwriter, -⟩ := h.required engine
  have hintended := (intendedRecipient_eq h.raw).mpr h.parsedFrom.intendedRecipient
  obtain ⟨invalid, hcreatedAt⟩ := h.parsedFrom.createdAt
  obtain ⟨-, hcall⟩ := (projectFile_ok hcontent h.decoded h.split).mp hcall
  obtain ⟨-, sourceTime, htime, createdAt, basis, hcreated, requiresAck, hack, rfl⟩ :=
    (projectDocument_ok hmessageId hwriter hintended).mp hcall
  obtain ⟨-, rfl⟩ := (readRequiresAck_iff h.raw h.ascii h.parsedFrom.requiresReply h.parsedFrom.requiresAck _).mp hack
  have hcreated' := (readCreatedAt_iff h.raw hcreatedAt).2 _ hcreated
  have hhash : digests.sha256 content = parsed.fullSha256 := by rw [hdigest, h.parsedFrom.fullSha256]
  refine ⟨hid, rfl, ?_, rfl, rfl, hhash, by rw [← hid, ← hhash], _, rfl, rfl, rfl, rfl, rfl, ?_, h.parsedFrom.bodyLength.symm, h.closed⟩
  · rw [htime, ← hcreated', String.toList_ofList]
  · rw [h.parsedFrom.bodySha256, ← hdigest]
    rfl

end SplitAlike

/-- A message that asks for a reply. -/
def guardedDocument : List Char := "message_id: `yin-1`\nwriter: Yin\nrequires_reply: yes\n\nHello.\n".toList

/-- What the guard reads of it. -/
def guardedParsed : ParsedBusDocument where
  headers := [("message_id", "yin-1".toList), ("writer", "Yin".toList), ("requires_reply", "yes".toList)]
  body := "Hello.\n".toList
  messageId := "yin-1"
  writer := "Yin"
  createdAt := none
  createdAtInvalid := false
  requiresReply := true
  requiresAck := false
  intendedRecipient := []
  subject := none
  fullSha256 := String.ofList (List.replicate 64 '0')
  bodySha256 := String.ofList (List.replicate 64 '0')
  bodyLength := 7
  conversationClosedBySender := false

/-- Digests that do not tell contents apart. -/
def guardedDigests : Digests := ⟨fun _ => "", fun _ => String.ofList (List.replicate 64 '0')⟩

def guardedRuntime : Runtime := { Runtime.ascii with sha256 := guardedDigests.sha256 }

/-- An engine that takes every text for a time. -/
def guardedEngine : Engine := ⟨lower, Runtime.ascii.casefold_ascii, fun _ => some 0⟩

def guardedFile : SourceFile :=
  ⟨"messages/yin-1.md", sampleSha, "2026-01-01T00:00:00+00:00", "", String.ofList (Base64.b64encode (encode guardedDocument).data.toList)⟩

def guardedBatch : ProjectionBatch :=
  ⟨expectedRepository, "bus/yin-v1", "refs/heads/bus/yin-v1", sampleSha, "yin", "batch", "token", [guardedFile]⟩

theorem guardedDocument_parsed :
    parseBusText guardedRuntime (encode guardedDocument) guardedDocument .strict = .ok guardedParsed := by decide +kernel

theorem guardedDocument_split : Edge.splitDocument guardedDocument =
    .ok ([("message_id", "`yin-1`".toList), ("writer", "Yin".toList), ("requires_reply", "yes".toList)], "Hello.\n".toList) := by
  decide +kernel

theorem guardedDocument_tame : Tame guardedDocument := tame_of_plain (List.all_eq_true.mp (by decide +kernel))

theorem guardedFile_content : base64Bytes guardedFile.contentBase64 = .ok (encode guardedDocument).data.toList :=
  base64Bytes_ok.mpr (by rw [guardedFile, String.toList_ofList, Base64.atob_b64encode])

theorem guardedParsed_ascii : ∀ key ∈ ["writer", "requires_reply", "requires_ack"], ∀ value ∈ guardedParsed.headers.lookup key,
    ∀ c ∈ value, c.toNat < 0x80 := by
  have hall : ["writer", "requires_reply", "requires_ack"].all (fun key =>
      (guardedParsed.headers.lookup key).all fun value => value.all fun c => c.toNat < 0x80) = true := by decide +kernel
  simp only [List.all_eq_true, Option.all_eq_true, decide_eq_true_eq] at hall
  exact fun key hkey value hvalue => hall key hkey value (Option.mem_def.mp hvalue)

/-- A header `created_at` without a value is none to the grammar, and refused when its message is projected. -/
example : Message.readCreatedAt guardedRuntime [("created_at", [])] .strict = .ok (none, false) ∧
    Edge.readCreatedAt guardedEngine [("created_at", [])] [] = .error (unprocessable "INVALID_CREATED_AT") := by decide +kernel

end CcbCore.Edge
