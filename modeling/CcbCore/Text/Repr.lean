import CcbCore.Text.CodePoints
import CcbCore.Text.Postgres

/-!
# `repr` of a text

`repr(text)` of a `str`: the text between quotes, where a code point that is not printable, the
quote and the backslash are escaped. Which code points above ASCII are printable is data of the
interpreter; whatever they are, two texts have not the same `repr` (`strRepr_injective`).
-/

namespace CcbCore.CodePoints

open CcbCore.Python (CodePoint)
open CcbCore.Postgres

/-- The lowest hexadecimal digits of a number. -/
def hexDigits : ℕ → ℕ → Str
  | 0, _ => []
  | width + 1, n => hexDigits width (n / 16) ++ [point (Jsonb.hexDigit (n % 16))]

/-- How a code point is written. -/
inductive Written where
  | plain
  | pair (letter : CodePoint)
  | code (letter : Char) (width : ℕ)
  deriving DecidableEq

variable (printable : CodePoint → Bool) (quote : CodePoint)

/-- How a code point is written within quotes. -/
def written (c : CodePoint) : Written :=
  if c = quote ∨ c = point '\\' then .pair c
  else if c = point '\t' then .pair (point 't')
  else if c = point '\n' then .pair (point 'n')
  else if c = point '\r' then .pair (point 'r')
  else if c.val < 0x20 ∨ c.val = 0x7f then .code 'x' 2
  else if c.val < 0x7f ∨ printable c = true then .plain
  else if c.val ≤ 0xff then .code 'x' 2
  else if c.val ≤ 0xffff then .code 'u' 4
  else .code 'U' 8

/-- What is written of a code point. -/
def Written.text (c : CodePoint) : Written → Str
  | .plain => [c]
  | .pair letter => [point '\\', letter]
  | .code letter width => point '\\' :: point letter :: hexDigits width c.val

/-- The quote of a text: the double one where it has the single one only. -/
def quoteOf (text : Str) : CodePoint := if point '\x27' ∈ text ∧ point '"' ∉ text then point '"' else point '\x27'

/-- `repr(text)`. -/
def strRepr (text : Str) : Str :=
  quoteOf text :: text.flatMap (fun c => (written printable (quoteOf text) c).text c) ++ [quoteOf text]

/-! ### Two texts are written apart -/

theorem length_hexDigits (width n : ℕ) : (hexDigits width n).length = width := by
  induction width generalizing n with
  | zero => rfl
  | succ width ih => rw [hexDigits, List.length_append, ih, List.length_singleton]

theorem hexDigit_injective {m n : ℕ} (hm : m < 16) (hn : n < 16) (h : point (Jsonb.hexDigit m) = point (Jsonb.hexDigit n)) : m = n := by
  have hall : ∀ m < 16, ∀ n < 16, point (Jsonb.hexDigit m) = point (Jsonb.hexDigit n) → m = n := by decide
  exact hall m hm n hn h

theorem hexDigits_injective {width m n : ℕ} (hm : m < 16 ^ width) (hn : n < 16 ^ width) (h : hexDigits width m = hexDigits width n) :
    m = n := by
  induction width generalizing m n with
  | zero =>
    rw [Nat.pow_zero, Nat.lt_one_iff] at hm hn
    rw [hm, hn]
  | succ width ih =>
    obtain ⟨hhigh, hlow⟩ := List.append_inj' h rfl
    rw [Nat.pow_succ] at hm hn
    have hdiv := ih (Nat.div_lt_of_lt_mul (by omega)) (Nat.div_lt_of_lt_mul (by omega)) hhigh
    have hmod := hexDigit_injective (Nat.mod_lt m (by decide)) (Nat.mod_lt n (by decide)) (List.singleton_injective hlow)
    omega

/-- The code point that a letter after a backslash stands for. -/
def unescaped (letter : CodePoint) : CodePoint :=
  if letter = point 't' then point '\t' else if letter = point 'n' then point '\n'
  else if letter = point 'r' then point '\r' else letter

/-- What a form says of the code point that is written so. -/
def Written.Of (c : CodePoint) : Written → Prop
  | .plain => c ≠ point '\\'
  | .pair letter => c = unescaped letter ∧ letter ∉ [point 'x', point 'u', point 'U']
  | .code letter width => (letter, width) ∈ [('x', 2), ('u', 4), ('U', 8)] ∧ c.val < 16 ^ width

variable {printable quote} {c d : CodePoint}

theorem written_of (hquote : quote ∈ [point '\x27', point '"']) : (written printable quote c).Of c := by
  have hlt := c.isLt
  unfold written
  split_ifs with hescape htab hnl hcr hlow hplain hx hu
  · have hletter : c ∈ [point '\x27', point '"', point '\\'] := by
      rcases hescape with rfl | rfl
      · exact List.mem_append_left [point '\\'] hquote
      · simp
    have hall : ∀ c ∈ [point '\x27', point '"', point '\\'], c = unescaped c ∧ c ∉ [point 'x', point 'u', point 'U'] := by
      simp only [List.forall_mem_cons]
      exact ⟨by decide, by decide, by decide, nofun⟩
    exact hall c hletter
  · exact ⟨htab.trans (by decide), by decide⟩
  · exact ⟨hnl.trans (by decide), by decide⟩
  · exact ⟨hcr.trans (by decide), by decide⟩
  · exact ⟨by simp, by omega⟩
  · exact fun heq => hescape (.inr heq)
  · exact ⟨by simp, by omega⟩
  · exact ⟨by simp, by omega⟩
  · exact ⟨by simp, by omega⟩

/-- Two code points are written apart, whatever comes after them. -/
theorem written_append_injective {form form' : Written} {rest rest' : Str} (hc : form.Of c) (hd : form'.Of d)
    (h : form.text c ++ rest = form'.text d ++ rest') : c = d ∧ rest = rest' := by
  have hletters : ∀ letter width, (letter, width) ∈ [('x', 2), ('u', 4), ('U', 8)] → point letter ∈ [point 'x', point 'u', point 'U'] := by
    intro letter width hmem
    simp only [List.mem_cons, Prod.mk.injEq, List.not_mem_nil, or_false] at hmem
    rcases hmem with ⟨rfl, -⟩ | ⟨rfl, -⟩ | ⟨rfl, -⟩ <;> simp
  cases form with
  | plain =>
    cases form' with
    | plain => exact List.cons.inj h
    | pair _ => exact absurd (List.cons.inj h).1 hc
    | code _ _ => exact absurd (List.cons.inj h).1 hc
  | pair letter =>
    cases form' with
    | plain => exact absurd (List.cons.inj h).1.symm hd
    | pair letter' =>
      obtain ⟨hletter, hrest⟩ := List.cons.inj (List.cons.inj h).2
      rw [hc.1, hd.1, hletter]
      exact ⟨rfl, hrest⟩
    | code letter' width' =>
      obtain ⟨hletter, -⟩ := List.cons.inj (List.cons.inj h).2
      exact absurd (hletter ▸ hletters letter' width' hd.1) hc.2
  | code letter width =>
    cases form' with
    | plain => exact absurd (List.cons.inj h).1.symm hd
    | pair letter' =>
      obtain ⟨hletter, -⟩ := List.cons.inj (List.cons.inj h).2
      exact absurd (hletter ▸ hletters letter width hc.1) hd.2
    | code letter' width' =>
      obtain ⟨hletter, htext⟩ := List.cons.inj (List.cons.inj h).2
      have hsame : width = width' := by
        have hall : ∀ form ∈ [('x', 2), ('u', 4), ('U', 8)], ∀ form' ∈ [('x', 2), ('u', 4), ('U', 8)],
            point form.1 = point form'.1 → form.2 = form'.2 := by decide
        exact hall (letter, width) hc.1 (letter', width') hd.1 hletter
      subst hsame
      obtain ⟨hdigits, hrest⟩ := List.append_inj htext (by rw [length_hexDigits, length_hexDigits])
      exact ⟨Fin.ext (hexDigits_injective hc.2 hd.2 hdigits), hrest⟩

theorem quoteOf_mem (text : Str) : quoteOf text ∈ [point '\x27', point '"'] := by
  unfold quoteOf
  split_ifs <;> simp

theorem written_ne_nil (form : Written) : form.text c ≠ [] := by
  cases form <;> exact List.cons_ne_nil _ _

theorem flatMap_written_injective (hquote : quote ∈ [point '\x27', point '"']) {first last : Str}
    (h : first.flatMap (fun c => (written printable quote c).text c) = last.flatMap fun c => (written printable quote c).text c) :
    first = last := by
  induction first generalizing last with
  | nil =>
    cases last with
    | nil => rfl
    | cons d last => exact absurd (List.append_eq_nil_iff.mp h.symm).1 (written_ne_nil _)
  | cons c first ih =>
    cases last with
    | nil => exact absurd (List.append_eq_nil_iff.mp h).1 (written_ne_nil _)
    | cons d last =>
      obtain ⟨rfl, hrest⟩ := written_append_injective (written_of hquote) (written_of hquote) h
      rw [ih hrest]

/-- **Two texts have not the same `repr`.** -/
theorem strRepr_injective (printable : CodePoint → Bool) {first last : Str} (h : strRepr printable first = strRepr printable last) :
    first = last := by
  unfold strRepr at h
  obtain ⟨hquote, h⟩ := List.cons.inj h
  rw [hquote] at h
  exact flatMap_written_injective (quoteOf_mem last) (List.append_cancel_right h)

example : strRepr (fun _ => false) (lit "it's\n\u00e9") = lit "\"it's\\n\\xe9\"" := by decide +kernel

end CcbCore.CodePoints
