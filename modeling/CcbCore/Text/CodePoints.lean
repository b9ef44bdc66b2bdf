import CcbCore.Library.Trim
import CcbCore.Text.Python

/-!
# Python text with surrogates

A `str` that comes from outside, as `json.loads` gives it, is a list of code points; it
encodes to UTF-8 when no surrogate is in it. Here are the `str` methods of such texts.
Case folding is a parameter, `Casefold`: a substitution of code points by texts, which
says of Unicode's table only what an identifier's normal form rests on.
-/

namespace CcbCore.CodePoints

open CcbCore.Python (CodePoint Bytes encode scalars)

/-- `str`. -/
abbrev Str := List CodePoint

instance lawfulStr : LawfulBEq Str := inferInstance

/-- The code point of a character. -/
def point (c : Char) : CodePoint :=
  ⟨c.toNat, by
    have := c.valid
    simp only [UInt32.isValidChar, Nat.isValidChar] at this
    change c.val.toNat < 0x110000
    omega⟩

/-- A text as it is written here. -/
def lit (text : String) : Str := text.toList.map point

/-- A code point that no character has. -/
def isSurrogate (c : CodePoint) : Bool := 0xd800 ≤ c.val && c.val ≤ 0xdfff

/-- `text.encode("utf-8")` raises no `UnicodeEncodeError`. -/
def encodable (text : Str) : Bool := text.all fun c => !isSurrogate c

/-- `c.isspace()`. -/
def isSpace (c : CodePoint) : Bool :=
  c.val ∈ [0x09, 0x0a, 0x0b, 0x0c, 0x0d, 0x1c, 0x1d, 0x1e, 0x1f, 0x20, 0x85, 0xa0, 0x1680,
    0x2000, 0x2001, 0x2002, 0x2003, 0x2004, 0x2005, 0x2006, 0x2007, 0x2008, 0x2009, 0x200a,
    0x2028, 0x2029, 0x202f, 0x205f, 0x3000]

/-- `text.strip()`. -/
def strip (text : Str) : Str := Trim.trim isSpace text

/-- `not text.strip()`. -/
def isBlank (text : Str) : Bool := text.all isSpace

/-- `first <= last` of texts, which compares their code points. -/
def le : Str → Str → Bool
  | [], _ => true
  | _ :: _, [] => false
  | a :: first, b :: last => a.val < b.val || (a.val == b.val && le first last)

/-- `separator.join(texts)`. -/
def join (separator : Str) : List Str → Str
  | [] => []
  | [text] => text
  | text :: texts => text ++ separator ++ join separator texts

/-- A code point of an ASCII letter, in lower case; another stays. -/
def lowerPoint (c : CodePoint) : CodePoint :=
  if h : 0x41 ≤ c.val ∧ c.val ≤ 0x5a then ⟨c.val + 0x20, by omega⟩ else c

/-- What `str.casefold` puts for a code point. -/
structure Casefold where
  fold : CodePoint → Str
  /-- What is folded stays as it is. -/
  fold_fold : ∀ c, (fold c).flatMap fold = fold c
  fold_space : ∀ c, isSpace c = true → fold c = [c]
  fold_ink : ∀ c, isSpace c = false → fold c ≠ [] ∧ ∀ d ∈ fold c, isSpace d = false
  /-- A surrogate stays, and no other code point becomes one. -/
  fold_surrogate : ∀ c, isSurrogate c = true → fold c = [c]
  fold_scalar : ∀ c, isSurrogate c = false → ∀ d ∈ fold c, isSurrogate d = false
  fold_ascii : ∀ c, c.val < 0x80 → fold c = [lowerPoint c]

/-- `text.casefold()`. -/
def Casefold.casefold (unicode : Casefold) (text : Str) : Str := text.flatMap unicode.fold

/-! ### Encoding -/

variable {text first last : Str} {unicode : Casefold}

theorem isSurrogate_eq_false {c : CodePoint} : isSurrogate c = false ↔ Nat.isValidChar c := by
  have := c.isLt
  simp only [isSurrogate, Bool.and_eq_false_iff, decide_eq_false_iff_not, Nat.isValidChar]
  omega

theorem scalars_cons (c : CodePoint) (text : Str) :
    scalars (c :: text) =
      if h : Nat.isValidChar c then (scalars text).map (Char.ofNatAux c h :: ·) else none := by
  unfold scalars
  rw [List.bind_eq_flatMap, List.flatMap_cons, List.pure_def, List.cons_append, List.nil_append, List.mapM_cons]
  by_cases h : Nat.isValidChar c
  · rw [dif_pos h, dif_pos h]
    cases List.mapM (m := Option) _ _ <;> rfl
  · rw [dif_neg h, dif_neg h]
    rfl

theorem scalars_isSome : (scalars text).isSome = encodable text := by
  induction text with
  | nil => rfl
  | cons c text ih =>
    rw [scalars_cons, encodable, List.all_cons, ← encodable, ← ih]
    by_cases hc : Nat.isValidChar c
    · rw [isSurrogate_eq_false.mpr hc, dif_pos hc, Option.isSome_map]
      rfl
    · have hs : isSurrogate c = true := by
        by_contra h
        exact hc (isSurrogate_eq_false.mp (Bool.not_eq_true _ ▸ h))
      rw [hs, dif_neg hc]
      rfl

theorem encodable_iff : encodable text = true ↔ ∀ c ∈ text, isSurrogate c = false := by
  simp only [encodable, List.all_eq_true, Bool.not_eq_true']

@[simp] theorem encodable_append : encodable (first ++ last) = (encodable first && encodable last) := List.all_append

theorem encodable_lit (text : String) : encodable (lit text) = true := by
  rw [encodable_iff]
  intro c hc
  obtain ⟨d, -, rfl⟩ := List.mem_map.mp hc
  rw [isSurrogate_eq_false]
  exact d.valid

theorem encodable_join {separator : Str} {texts : List Str} (hsep : encodable separator = true) :
    encodable (join separator texts) = texts.all encodable := by
  fun_induction join separator texts with
  | case1 => rfl
  | case2 text => simp
  | case3 text texts hne ih => simp [hsep, ih]

theorem encodable_strip (text : Str) : encodable (strip text) = encodable text := by
  have hspace : ∀ c, isSpace c = true → isSurrogate c = false := by
    intro c hc
    simp only [isSpace, List.mem_cons, List.not_mem_nil, or_false, decide_eq_true_eq] at hc
    simp only [isSurrogate, Bool.and_eq_false_iff, decide_eq_false_iff_not]
    omega
  rw [Bool.eq_iff_iff, encodable_iff, encodable_iff]
  constructor
  · intro h c hc
    by_cases hsp : isSpace c = true
    · exact hspace c hsp
    · exact h c ((Trim.mem_trim_or hc).resolve_right hsp)
  · exact fun h c hc => h c (Trim.mem_of_mem_trim hc)

/-! ### Trimming and folding -/

theorem strip_strip : strip (strip text) = strip text := Trim.trim_trim

theorem strip_eq_nil_iff : strip text = [] ↔ isBlank text = true := Trim.trim_eq_nil_iff

theorem strip_casefold : strip (unicode.casefold text) = unicode.casefold (strip text) :=
  Trim.trim_flatMap (fun c hc => by simp [unicode.fold_space c hc, hc]) unicode.fold_ink

theorem casefold_casefold : unicode.casefold (unicode.casefold text) = unicode.casefold text := by
  rw [Casefold.casefold, Casefold.casefold, List.flatMap_assoc]
  exact List.flatMap_congr fun c _ => unicode.fold_fold c

theorem casefold_eq_nil_iff : unicode.casefold text = [] ↔ text = [] := by
  have hne : ∀ c, unicode.fold c ≠ [] := by
    intro c
    cases hc : isSpace c with
    | true => simp [unicode.fold_space c hc]
    | false => exact (unicode.fold_ink c hc).1
  rw [Casefold.casefold, List.flatMap_eq_nil_iff]
  constructor
  · intro h
    cases text with
    | nil => rfl
    | cons c text => exact absurd (h c (by simp)) (hne c)
  · rintro rfl
    simp

theorem isBlank_casefold : isBlank (unicode.casefold text) = isBlank text := by
  rw [Bool.eq_iff_iff, ← strip_eq_nil_iff, strip_casefold, casefold_eq_nil_iff, strip_eq_nil_iff]

theorem isBlank_strip : isBlank (strip text) = isBlank text := by
  rw [Bool.eq_iff_iff, ← strip_eq_nil_iff, strip_strip, strip_eq_nil_iff]

/-- A text of lower-case ASCII stays as it is. -/
theorem casefold_ascii (h : text.all (fun c => c.val < 0x80 && decide (lowerPoint c = c)) = true) :
    unicode.casefold text = text := by
  induction text with
  | nil => rfl
  | cons c text ih =>
    simp only [List.all_cons, Bool.and_eq_true, decide_eq_true_eq] at h
    rw [Casefold.casefold, List.flatMap_cons, unicode.fold_ascii c h.1.1, h.1.2, ← Casefold.casefold,
      ih (by simpa using h.2)]
    rfl

theorem encodable_casefold : encodable (unicode.casefold text) = encodable text := by
  have hfold : ∀ c, (unicode.fold c).all (fun d => !isSurrogate d) = !isSurrogate c := by
    intro c
    cases hc : isSurrogate c with
    | true => simp [unicode.fold_surrogate c hc, hc]
    | false => simpa using unicode.fold_scalar c hc
  simp only [encodable, Casefold.casefold, List.all_flatMap, hfold]

/-! ### Order -/

theorem Str.le_total : ∀ first last : Str, le first last = true ∨ le last first = true
  | [], _ => .inl (by rw [le])
  | _ :: _, [] => .inr (by rw [le])
  | a :: first, b :: last => by
    simp only [le, Bool.or_eq_true, Bool.and_eq_true, decide_eq_true_eq, beq_iff_eq]
    rcases lt_trichotomy a.val b.val with h | h | h
    · exact .inl (.inl h)
    · rcases Str.le_total first last with hle | hle
      · exact .inl (.inr ⟨h, hle⟩)
      · exact .inr (.inr ⟨h.symm, hle⟩)
    · exact .inr (.inl h)

theorem Str.le_trans : ∀ {first mid last : Str}, le first mid = true → le mid last = true → le first last = true
  | [], _, _, _, _ => by rw [le]
  | _ :: _, [], _, h, _ => by simp [le] at h
  | _ :: _, _ :: _, [], _, h => by simp [le] at h
  | a :: first, b :: mid, c :: last, h₁, h₂ => by
    simp only [le, Bool.or_eq_true, Bool.and_eq_true, decide_eq_true_eq, beq_iff_eq] at h₁ h₂ ⊢
    rcases h₁ with h₁ | ⟨h₁, htail₁⟩
    · exact .inl (by omega)
    · rcases h₂ with h₂ | ⟨h₂, htail₂⟩
      · exact .inl (by omega)
      · exact .inr ⟨by omega, Str.le_trans htail₁ htail₂⟩

theorem Str.le_antisymm : ∀ {first last : Str}, le first last = true → le last first = true → first = last
  | [], [], _, _ => rfl
  | _ :: _, [], h, _ => by simp [le] at h
  | [], _ :: _, _, h => by simp [le] at h
  | a :: first, b :: last, h₁, h₂ => by
    simp only [le, Bool.or_eq_true, Bool.and_eq_true, decide_eq_true_eq, beq_iff_eq] at h₁ h₂
    obtain hval : a.val = b.val := by omega
    obtain hfirst := h₁.resolve_left (by omega)
    obtain hlast := h₂.resolve_left (by omega)
    rw [Fin.ext hval, Str.le_antisymm hfirst.2 hlast.2]

/-! ### ASCII -/

/-- A code point of an ASCII letter, in upper case; another stays. -/
def upperPoint (c : CodePoint) : CodePoint :=
  if h : 0x61 ≤ c.val ∧ c.val ≤ 0x7a then ⟨c.val - 0x20, by omega⟩ else c

theorem lowerPoint_cases (c : CodePoint) :
    (0x41 ≤ c.val ∧ c.val ≤ 0x5a ∧ (lowerPoint c).val = c.val + 0x20) ∨ (¬ (0x41 ≤ c.val ∧ c.val ≤ 0x5a) ∧ lowerPoint c = c) := by
  unfold lowerPoint
  by_cases h : 0x41 ≤ c.val ∧ c.val ≤ 0x5a
  · exact .inl ⟨h.1, h.2, by rw [dif_pos h]⟩
  · exact .inr ⟨h, dif_neg h⟩

theorem upperPoint_lt (c : CodePoint) (h : c.val < 0x80) : (upperPoint c).val < 0x80 := by
  unfold upperPoint
  split
  · change c.val - 0x20 < 0x80
    omega
  · exact h

theorem upperText_lt (text : Str) (h : ∀ c ∈ text, c.val < 0x80) : ∀ c ∈ text.map upperPoint, c.val < 0x80 := by
  intro c hc
  obtain ⟨d, hd, rfl⟩ := List.mem_map.mp hc
  exact upperPoint_lt d (h d hd)

theorem isSpace_lowerPoint (c : CodePoint) : isSpace (lowerPoint c) = isSpace c := by
  rcases lowerPoint_cases c with ⟨hlow, hhigh, hval⟩ | ⟨-, hsame⟩
  · simp only [isSpace, hval, List.mem_cons, List.not_mem_nil, or_false, decide_eq_decide]
    omega
  · rw [hsame]

theorem isSurrogate_lowerPoint (c : CodePoint) : isSurrogate (lowerPoint c) = isSurrogate c := by
  rcases lowerPoint_cases c with ⟨hlow, hhigh, hval⟩ | ⟨-, hsame⟩
  · rw [Bool.eq_iff_iff]
    simp only [isSurrogate, hval, Bool.and_eq_true, decide_eq_true_eq]
    omega
  · rw [hsame]

/-- The case folding of ASCII, in which all other code points stay. -/
def asciiCasefold : Casefold where
  fold c := [lowerPoint c]
  fold_fold c := by
    rcases lowerPoint_cases c with ⟨hlow, hhigh, hval⟩ | ⟨-, hsame⟩
    · rcases lowerPoint_cases (lowerPoint c) with ⟨hlow', hhigh', -⟩ | ⟨-, hsame⟩
      · omega
      · simp [hsame]
    · simp [hsame]
  fold_space c h := by
    rcases lowerPoint_cases c with ⟨hlow, hhigh, -⟩ | ⟨-, hsame⟩
    · simp only [isSpace, List.mem_cons, List.not_mem_nil, or_false, decide_eq_true_eq] at h
      omega
    · rw [hsame]
  fold_ink c h := ⟨by simp, by simpa [isSpace_lowerPoint] using h⟩
  fold_surrogate c h := by
    rcases lowerPoint_cases c with ⟨hlow, hhigh, -⟩ | ⟨-, hsame⟩
    · simp only [isSurrogate, Bool.and_eq_true, decide_eq_true_eq] at h
      omega
    · rw [hsame]
  fold_scalar c h := by simpa [isSurrogate_lowerPoint] using h
  fold_ascii c _ := rfl

end CcbCore.CodePoints
