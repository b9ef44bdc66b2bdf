import CcbCore.Library.Trim
import CcbCore.Text.Python

/-!
# Lines and the space around them

Facts on `strip` and `splitlines`: what a line's content and boundary are made of, that a
text and its lines are the same characters, and that the space after a text is stripped
with it.
-/

namespace CcbCore.Python

variable {text space : List Char} {line : Line} {c : Char}

/-- A fact of the ASCII characters, from that of each of them. -/
theorem ascii_forall {P : Char → Prop} (h : ∀ n : Fin 128, P (Char.ofNat n)) (hc : c.toNat < 128) : P c := by
  have hn := h ⟨c.toNat, hc⟩
  rwa [Char.ofNat_toNat] at hn

/-! ### Space -/

theorem isSpace_of_isLineBreak (h : isLineBreak c = true) : isSpace c = true := by
  simp only [isLineBreak, List.mem_cons, List.not_mem_nil, or_false, decide_eq_true_eq] at h
  rw [isSpace]
  rcases h with h | h | h | h | h | h | h | h | h | h <;> rw [h] <;> decide

theorem lstrip_append_of_blank (h : isBlank text = true) : lstrip (text ++ space) = lstrip space :=
  List.dropWhile_append_of_pos (List.all_eq_true.mp h)

theorem lstrip_eq_nil_iff : lstrip text = [] ↔ isBlank text = true := by
  rw [lstrip, List.dropWhile_eq_nil_iff, isBlank, List.all_eq_true]

/-- The space after a text is stripped. -/
theorem rstrip_append_of_blank (h : isBlank space = true) : rstrip (text ++ space) = rstrip text := by
  have hall : ∀ c ∈ space.reverse, isSpace c = true := by
    simpa [isBlank, List.all_eq_true] using h
  rw [rstrip, List.rdropWhile, List.reverse_append, List.dropWhile_append_of_pos hall]
  rfl

theorem lstrip_append (h : isBlank text = false) : lstrip (text ++ space) = lstrip text ++ space := by
  rw [lstrip, List.dropWhile_append, if_neg]
  · rfl
  · rw [List.isEmpty_iff]
    intro hnil
    rw [lstrip_eq_nil_iff.mp hnil] at h
    cases h

theorem head?_lstrip_append (h : isBlank space = true) : (lstrip (text ++ space)).head? = (lstrip text).head? := by
  by_cases hblank : isBlank text = true
  · rw [lstrip_append_of_blank hblank, lstrip_eq_nil_iff.mpr h, lstrip_eq_nil_iff.mpr hblank]
  · rw [lstrip_append (Bool.not_eq_true _ ▸ hblank)]
    cases hstrip : lstrip text with
    | nil => exact absurd (lstrip_eq_nil_iff.mp hstrip) hblank
    | cons c rest => rfl

theorem strip_append_of_blank (h : isBlank space = true) : strip (text ++ space) = strip text := by
  rw [strip, strip]
  by_cases hblank : isBlank text = true
  · rw [lstrip_append_of_blank hblank, lstrip_eq_nil_iff.mpr h, lstrip_eq_nil_iff.mpr hblank]
  · rw [lstrip_append (Bool.not_eq_true _ ▸ hblank), rstrip_append_of_blank h]

theorem isBlank_append : isBlank (text ++ space) = (isBlank text && isBlank space) := List.all_append

theorem strip_eq_nil_iff : strip text = [] ↔ isBlank text = true := Trim.trim_eq_nil_iff

theorem strip_idem : strip (strip text) = strip text := Trim.trim_trim

/-! ### Lines -/

/-- The content of a line has no boundary in it, and its ending is one. -/
theorem mem_splitlines (h : line ∈ splitlines text) :
    (∀ c ∈ line.content, isLineBreak c = false) ∧ ∀ c ∈ line.ending, isLineBreak c = true := by
  fun_induction splitlines text generalizing line with
  | case1 => simp at h
  | case2 rest ih =>
    rcases List.mem_cons.mp h with rfl | h
    · exact ⟨by simp, List.all_eq_true.mp (by decide)⟩
    · exact ih h
  | case3 c rest hrn hbreak ih =>
    rcases List.mem_cons.mp h with rfl | h
    · exact ⟨by simp, by simpa using hbreak⟩
    · exact ih h
  | case4 c rest hrn hbreak hnil ih =>
    obtain rfl := List.mem_singleton.mp h
    exact ⟨by simpa using hbreak, by simp⟩
  | case5 c rest hrn hbreak first lines hlines ih =>
    rcases List.mem_cons.mp h with rfl | h
    · obtain ⟨hcontent, hending⟩ := @ih first (by simp [hlines])
      exact ⟨by simpa [hbreak] using hcontent, hending⟩
    · exact ih (by simp [hlines, h])

/-- The lines of a text are the text. -/
theorem flatten_splitlines (text : List Char) : ((splitlines text).map Line.text).flatten = text := by
  fun_induction splitlines text with
  | case1 => rfl
  | case2 rest ih => simp [Line.text, ih]
  | case3 c rest hrn hbreak ih => simp [Line.text, ih]
  | case4 c rest hrn hbreak hnil ih =>
    rw [hnil] at ih
    simp [Line.text, ← ih]
  | case5 c rest hrn hbreak first lines hlines ih =>
    rw [hlines] at ih
    simpa [Line.text] using ih

namespace Line

/-- Boundaries are blank. -/
theorem blank_ending (h : ∀ c ∈ line.ending, isLineBreak c = true) : isBlank line.ending = true :=
  List.all_eq_true.mpr fun c hc => isSpace_of_isLineBreak (h c hc)

theorem strip_text (h : isBlank line.ending = true) : strip line.text = strip line.content := strip_append_of_blank h

theorem isBlank_text (h : isBlank line.ending = true) : isBlank line.text = isBlank line.content := by
  rw [Line.text, isBlank_append, h, Bool.and_true]

theorem head?_lstrip_text (h : isBlank line.ending = true) : (lstrip line.text).head? = (lstrip line.content).head? :=
  head?_lstrip_append h

end Line

end CcbCore.Python
