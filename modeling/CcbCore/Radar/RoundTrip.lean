import CcbCore.Radar.DeadLetters
import CcbCore.Radar.Parsing
import Mathlib.Data.List.Forall2
import Mathlib.Data.List.TakeDrop

/-!
# JSON there and back

What `json.dumps` writes, `json.loads` reads as the value with its fields sorted
(`loads_dumps`), if no number in it has a fraction, no integer is too long to print, and no
object has a key twice (`Value.Exact`); with `ensure_ascii`, if no text in it has a low
surrogate after a high one (`unpaired`), as the two would be read as one code point. A
part of a text `Reads` as a value when the scanner takes just that part, whatever closes it.
-/

namespace CcbCore.Radar

open CcbCore.CodePoints
open CcbCore.Python (CodePoint)

variable {Opaque : Type} {decoder : Decoder Opaque}

/-! ### Strings -/

theorem hexValue_hexDigit : ∀ n : ℕ, n < 16 → hexValue (point (Postgres.Jsonb.hexDigit n)) = some n := by decide

theorem hexDigits_unicodeEscape {n : ℕ} (h : n < 0x10000) : ∃ digits, unicodeEscape n = point '\\' :: point 'u' :: digits ∧
    ∀ rest, hexDigits (digits ++ rest) = some (n, rest) := by
  refine ⟨[n / 0x1000, n / 0x100, n / 0x10, n].map fun m => point (Postgres.Jsonb.hexDigit (m % 16)), ?_, fun rest => ?_⟩
  · simp [unicodeEscape, lit]
  · have hdigit (m : ℕ) := hexValue_hexDigit (m % 16) (Nat.mod_lt _ (by decide))
    simp only [List.map_cons, List.map_nil, List.cons_append, List.nil_append, hexDigits, hdigit, Option.some.injEq,
      Prod.mk.injEq, and_true]
    omega

theorem codePoint_val (c : CodePoint) : codePoint c.val = c := by
  rw [codePoint, dif_pos c.isLt]

def isHigh (c : CodePoint) : Bool := 0xd800 ≤ c.val && c.val ≤ 0xdbff

def isLow (c : CodePoint) : Bool := 0xdc00 ≤ c.val && c.val ≤ 0xdfff

/-- No low surrogate comes after a high one. -/
def unpaired : Str → Bool
  | [] => true
  | c :: text => !(isHigh c && text.head?.any isLow) && unpaired text

/-- No text or key in a value has a low surrogate after a high one. -/
def Value.unpaired (value : Value Opaque) : Bool := value.all (fun _ => true) Radar.unpaired (fun _ => true)

theorem unpaired_of_encodable {text : Str} (h : encodable text = true) : unpaired text = true := by
  induction text with
  | nil => rfl
  | cons c text ih =>
    rw [encodable, List.all_cons, Bool.and_eq_true, Bool.not_eq_true'] at h
    have hhigh : isHigh c = false := by
      have hc := h.1
      simp only [isSurrogate, Bool.and_eq_false_iff, decide_eq_false_iff_not] at hc
      simp only [isHigh, Bool.and_eq_false_iff, decide_eq_false_iff_not]
      omega
    rw [unpaired, hhigh, ih h.2]
    rfl

mutual

theorem Value.all_mono {onInt : ℤ → Bool} {onText onText' : Str → Bool} {onOther : Opaque → Bool}
    (himp : ∀ text, onText text = true → onText' text = true) : ∀ {value : Value Opaque},
    value.all onInt onText onOther = true → value.all onInt onText' onOther = true
  | .null, _ => rfl
  | .bool _, _ => rfl
  | .int _, h => h
  | .float _, _ => rfl
  | .str text, h => himp text h
  | .array _, h => Value.allItems_mono himp h
  | .object _, h => Value.allFields_mono himp h
  | .other _, h => h

theorem Value.allItems_mono {onInt : ℤ → Bool} {onText onText' : Str → Bool} {onOther : Opaque → Bool}
    (himp : ∀ text, onText text = true → onText' text = true) : ∀ {items : List (Value Opaque)},
    Value.allItems onInt onText onOther items = true → Value.allItems onInt onText' onOther items = true
  | [], _ => rfl
  | _ :: _, h => by
    obtain ⟨hitem, hitems⟩ := Bool.and_eq_true_iff.mp h
    exact Bool.and_eq_true_iff.mpr ⟨Value.all_mono himp hitem, Value.allItems_mono himp hitems⟩

theorem Value.allFields_mono {onInt : ℤ → Bool} {onText onText' : Str → Bool} {onOther : Opaque → Bool}
    (himp : ∀ text, onText text = true → onText' text = true) : ∀ {fields : Mapping Opaque},
    Value.allFields onInt onText onOther fields = true → Value.allFields onInt onText' onOther fields = true
  | [], _ => rfl
  | (key, _) :: _, h => by
    rw [Value.allFields, Bool.and_eq_true, Bool.and_eq_true] at h ⊢
    exact ⟨⟨himp key h.1.1, Value.all_mono himp h.1.2⟩, Value.allFields_mono himp h.2⟩

end

theorem Value.unpaired_of_encodable {value : Value Opaque} (h : value.encodable = true) : value.unpaired = true :=
  Value.all_mono (fun _ => Radar.unpaired_of_encodable) h

/-- What follows an escape does not begin with that of a low surrogate. -/
def Unjoined (rest : Str) : Prop := ∀ after, rest.dropPrefix? (lit "\\u") = some after →
  ∃ n after', hexDigits after = some (n, after') ∧ ¬(0xdc00 ≤ n ∧ n ≤ 0xdfff)

theorem unescape_unicodeEscape {n : ℕ} (hn : n < 0x10000) {rest : Str} (hrest : 0xd800 ≤ n ∧ n ≤ 0xdbff → Unjoined rest) :
    ∃ digits, unicodeEscape n = point '\\' :: point 'u' :: digits ∧
      unescape (point 'u' :: (digits ++ rest)) = some (codePoint n, rest) := by
  obtain ⟨digits, hdigits, hread⟩ := hexDigits_unicodeEscape hn
  refine ⟨digits, hdigits, ?_⟩
  rw [unescape, if_pos rfl, unicodeUnescape, hread]
  dsimp only
  split
  · next hhigh =>
    split
    · rfl
    · next after hafter =>
      obtain ⟨low, after', hlow, hnot⟩ := hrest hhigh after hafter
      simp only [hlow, if_neg hnot]
  · rfl

/-- Two escapes are read as the code point that they are halves of. -/
theorem unescape_surrogates {n : ℕ} (hn : n < 0x100000) (rest : Str) :
    ∃ digits, unicodeEscape (0xd800 + n / 0x400) = point '\\' :: point 'u' :: digits ∧
      unescape (point 'u' :: (digits ++ (unicodeEscape (0xdc00 + n % 0x400) ++ rest))) = some (codePoint (0x10000 + n), rest) := by
  have hlt : n / 0x400 < 0x400 := Nat.div_lt_of_lt_mul hn
  have hmod : n % 0x400 < 0x400 := Nat.mod_lt _ (by decide)
  obtain ⟨high, hhigh, hreadHigh⟩ := hexDigits_unicodeEscape (n := 0xd800 + n / 0x400) (by omega)
  obtain ⟨low, hlow, hreadLow⟩ := hexDigits_unicodeEscape (n := 0xdc00 + n % 0x400) (by omega)
  refine ⟨high, hhigh, ?_⟩
  have hprefix : (point '\\' :: point 'u' :: (low ++ rest)).dropPrefix? (lit "\\u") = some (low ++ rest) := by
    simp [List.dropPrefix?, lit]
  rw [unescape, if_pos rfl, unicodeUnescape, hreadHigh, hlow]
  simp only [List.cons_append, hprefix, hreadLow]
  have hvalue : 0x10000 + (0xd800 + n / 0x400 - 0xd800) * 0x400 + (0xdc00 + n % 0x400 - 0xdc00) = 0x10000 + n := by omega
  rw [if_pos (by omega), if_pos (by omega), hvalue]

/-- What is escaped is read as it was, unless it is half of a pair of escapes. -/
theorem scanString_escape {ensureAscii : Bool} {c : CodePoint} {rest : Str}
    (hc : ensureAscii = true → isHigh c = true → Unjoined rest) (fuel : ℕ) :
    scanString (fuel + 1) (escape ensureAscii c ++ rest) = (scanString fuel rest).map fun (text, rest) => (c :: text, rest) := by
  unfold escape
  cases hshort : escapes.lookup c.val with
  | some text =>
    obtain ⟨before, after, heq, -⟩ := List.lookup_eq_some_iff.mp hshort
    have hmem : (c.val, text) ∈ escapes := by simp [heq]
    simp only [escapes, List.mem_cons, Prod.mk.injEq, List.not_mem_nil, or_false] at hmem
    rcases hmem with ⟨hc, rfl⟩ | ⟨hc, rfl⟩ | ⟨hc, rfl⟩ | ⟨hc, rfl⟩ | ⟨hc, rfl⟩ | ⟨hc, rfl⟩ | ⟨hc, rfl⟩ <;>
    · obtain rfl : c = ⟨_, by decide⟩ := Fin.ext hc
      rfl
  | none =>
    have hquote : c ≠ point '"' := by
      rintro rfl
      simp [escapes, point] at hshort
    have hslash : c ≠ point '\\' := by
      rintro rfl
      simp [escapes, point] at hshort
    by_cases hescaped : c.val < 0x20 ∨ (ensureAscii = true ∧ 0x7e < c.val)
    · have hrest : 0xd800 ≤ c.val ∧ c.val ≤ 0xdbff → Unjoined rest := by
        rintro ⟨hlow, hhigh⟩
        rcases hescaped with hcontrol | ⟨hascii, -⟩
        · omega
        · exact hc hascii (by simp [isHigh, hlow, hhigh])
      simp only [if_pos hescaped]
      by_cases hshort : c.val < 0x10000
      · obtain ⟨digits, hdigits, hread⟩ := unescape_unicodeEscape hshort hrest
        rw [if_pos hshort, hdigits]
        rw [List.cons_append, List.cons_append]
        rw [scanString, if_neg (by decide), if_pos rfl, hread, codePoint_val]
      · have hlt := c.isLt
        obtain ⟨digits, hdigits, hread⟩ := unescape_surrogates (n := c.val - 0x10000) (by omega) rest
        rw [show 0x10000 + (c.val - 0x10000) = c.val by omega, codePoint_val] at hread
        rw [if_neg hshort, List.append_assoc, hdigits]
        rw [List.cons_append, List.cons_append]
        rw [scanString, if_neg (by decide), if_pos rfl, hread]
    · have hcontrol : ¬ c.val < 0x20 := fun h => hescaped (.inl h)
      simp only [if_neg hescaped, List.cons_append, List.nil_append]
      rw [scanString, if_neg hquote, if_neg hslash, if_neg hcontrol]

theorem escape_ne_nil (ensureAscii : Bool) (c : CodePoint) : escape ensureAscii c ≠ [] := by
  have hunicode (n : ℕ) : unicodeEscape n ≠ [] := by simp [unicodeEscape, lit]
  unfold escape
  split
  · next text htext =>
    obtain ⟨before, after, heq, -⟩ := List.lookup_eq_some_iff.mp htext
    have hmem : (c.val, text) ∈ escapes := by simp [heq]
    simp only [escapes, List.mem_cons, Prod.mk.injEq, List.not_mem_nil, or_false] at hmem
    rcases hmem with ⟨-, rfl⟩ | ⟨-, rfl⟩ | ⟨-, rfl⟩ | ⟨-, rfl⟩ | ⟨-, rfl⟩ | ⟨-, rfl⟩ | ⟨-, rfl⟩ <;> simp [lit]
  · split
    · split
      · exact hunicode _
      · exact fun h => hunicode _ (List.append_eq_nil_iff.mp h).1
    · simp

/-- What is written of another code point than a low surrogate does not join. -/
theorem unjoined_escape {ensureAscii : Bool} {c : CodePoint} (hc : isLow c = false) (rest : Str) :
    Unjoined (escape ensureAscii c ++ rest) := by
  have hunicode {n : ℕ} (hn : n < 0x10000) (hlow : ¬(0xdc00 ≤ n ∧ n ≤ 0xdfff)) (rest : Str) : Unjoined (unicodeEscape n ++ rest) := by
    intro after hafter
    obtain ⟨digits, hdigits, hread⟩ := hexDigits_unicodeEscape hn
    rw [hdigits] at hafter
    obtain rfl : digits ++ rest = after := by simpa [List.dropPrefix?, lit] using hafter
    exact ⟨n, rest, hread rest, hlow⟩
  unfold escape
  cases hshort : escapes.lookup c.val with
  | some text =>
    obtain ⟨before, after, heq, -⟩ := List.lookup_eq_some_iff.mp hshort
    have hmem : (c.val, text) ∈ escapes := by simp [heq]
    intro after' hafter
    simp only [escapes, List.mem_cons, Prod.mk.injEq, List.not_mem_nil, or_false] at hmem
    rcases hmem with ⟨-, rfl⟩ | ⟨-, rfl⟩ | ⟨-, rfl⟩ | ⟨-, rfl⟩ | ⟨-, rfl⟩ | ⟨-, rfl⟩ | ⟨-, rfl⟩ <;>
      simp [List.dropPrefix?, lit, point] at hafter
  | none =>
    simp only [isLow, Bool.and_eq_false_iff, decide_eq_false_iff_not] at hc
    have hlt := c.isLt
    by_cases hescaped : c.val < 0x20 ∨ (ensureAscii = true ∧ 0x7e < c.val)
    · simp only [if_pos hescaped]
      split
      · exact hunicode (by omega) (by omega) rest
      · rw [List.append_assoc]
        exact hunicode (by omega) (by omega) _
    · have hslash : c ≠ point '\\' := by
        rintro rfl
        simp [escapes, point] at hshort
      simp only [if_neg hescaped]
      intro after hafter
      simp [List.dropPrefix?, lit, beq_eq_false_iff_ne.mpr hslash] at hafter

theorem unjoined_quote (rest : Str) : Unjoined (point '"' :: rest) := by
  intro after hafter
  simp [List.dropPrefix?, lit, point] at hafter

/-- A text in quotes is read back. -/
theorem scanString_quoted {ensureAscii : Bool} {text : Str} (htext : ensureAscii = true → unpaired text = true) (fuel : ℕ)
    (rest : Str) (hfuel : (text.flatMap (escape ensureAscii)).length < fuel) :
    scanString fuel (text.flatMap (escape ensureAscii) ++ point '"' :: rest) = some (text, rest) := by
  induction text generalizing fuel with
  | nil =>
    obtain ⟨fuel, rfl⟩ := Nat.exists_eq_add_one.mpr hfuel
    rfl
  | cons c text ih =>
    obtain ⟨fuel, rfl⟩ := Nat.exists_eq_add_one.mpr (Nat.zero_lt_of_lt hfuel)
    have hlength := List.length_pos_iff.mpr (escape_ne_nil ensureAscii c)
    have hsplit (hascii : ensureAscii = true) : (isHigh c = true → text.head?.any isLow = false) ∧ unpaired text = true := by
      have hall := htext hascii
      rw [unpaired, Bool.and_eq_true, Bool.not_eq_true', Bool.and_eq_false_imp] at hall
      exact hall
    have hnext (hascii : ensureAscii = true) (hhigh : isHigh c = true) :
        Unjoined (text.flatMap (escape ensureAscii) ++ point '"' :: rest) := by
      cases text with
      | nil => exact unjoined_quote rest
      | cons d text =>
        rw [List.flatMap_cons, List.append_assoc]
        exact unjoined_escape ((hsplit hascii).1 hhigh) _
    rw [List.flatMap_cons, List.length_append] at hfuel
    rw [List.flatMap_cons, List.append_assoc, scanString_escape hnext, ih (fun h => (hsplit h).2) fuel (by omega)]
    rfl

/-! ### Integers -/

/-- What closes a value. -/
def Closed (rest : Str) : Prop := ∀ c ∈ rest.head?, c ∈ [point ',', point ']', point '\x7d']

theorem isDigit_point {c : Char} (h : c.isDigit = true) : isDigit (point c) = true := by
  simp only [Char.isDigit, Bool.and_eq_true, decide_eq_true_eq] at h
  rw [isDigit, Bool.and_eq_true]
  exact ⟨decide_eq_true h.1, decide_eq_true h.2⟩

theorem point_injective {c d : Char} (h : point c = point d) : c = d := by
  have hval : (point c).val = (point d).val := by rw [h]
  exact Char.ext (UInt32.toNat_inj.mp hval)

theorem lit_inj {first last : String} : lit first = lit last ↔ first = last :=
  (List.map_injective_iff.mpr fun _ _ => point_injective).eq_iff.trans String.toList_inj

/-- Some digits are those of a number. -/
structure Decimal (text : Str) (n : ℕ) : Prop where
  digits : ∀ c ∈ text, isDigit c = true
  value : natOf text = n
  length : text.length ≤ maxDigits ↔ n < 10 ^ maxDigits
  leading : text = [point '0'] ∨ ∃ c rest, text = c :: rest ∧ c ≠ point '0'

theorem leading_toDigits (n : ℕ) : Nat.toDigits 10 n = ['0'] ∨ ∃ c rest, Nat.toDigits 10 n = c :: rest ∧ c ≠ '0' := by
  induction n using Nat.strongRecOn with
  | ind n ih =>
    by_cases hn : n < 10
    · rw [Nat.toDigits_of_lt_base hn]
      by_cases hzero : n.digitChar = '0'
      · exact .inl (by rw [hzero])
      · exact .inr ⟨_, _, rfl, hzero⟩
    · rw [Nat.toDigits_of_base_le (by decide) (by omega)]
      rcases ih (n / 10) (by omega) with hzero | ⟨c, rest, heq, hc⟩
      · have hvalue := Nat.ofDigitChars_ten_toDigits (n := n / 10)
        rw [hzero] at hvalue
        have hnone : Nat.ofDigitChars 10 ['0'] 0 = 0 := rfl
        omega
      · exact .inr ⟨c, rest ++ [(n % 10).digitChar], by rw [heq]; rfl, hc⟩

theorem decimal_repr (n : ℕ) : Decimal (lit n.repr) n := by
  have hlit : lit n.repr = (Nat.toDigits 10 n).map point := by rw [lit, Nat.toList_repr]
  refine ⟨fun c hc => ?_, ?_, ?_, ?_⟩
  · rw [hlit, List.mem_map] at hc
    obtain ⟨digit, hdigit, rfl⟩ := hc
    exact isDigit_point (Nat.isDigit_of_mem_toDigits (by decide) (by decide) hdigit)
  · rw [hlit, natOf, List.foldl_map]
    have hvalue := Nat.ofDigitChars_ten_toDigits (n := n)
    rw [Nat.ofDigitChars] at hvalue
    simp only [Nat.mul_comm _ 10]
    exact hvalue
  · rw [hlit, List.length_map]
    exact Nat.length_toDigits_le_iff (by decide) (by decide)
  · rw [hlit]
    rcases leading_toDigits n with hzero | ⟨c, rest, heq, hc⟩
    · exact .inl (by rw [hzero]; rfl)
    · exact .inr ⟨point c, rest.map point, by rw [heq]; rfl, fun h => hc (point_injective h)⟩

theorem Closed.not_digit {rest : Str} (h : Closed rest) : rest.takeWhile isDigit = [] := by
  cases rest with
  | nil => rfl
  | cons c rest =>
    have hc := h c rfl
    simp only [List.mem_cons, List.not_mem_nil, or_false] at hc
    rcases hc with rfl | rfl | rfl <;> rfl

theorem fractionPart_closed {rest : Str} (h : Closed rest) : fractionPart rest = ([], rest) := by
  cases rest with
  | nil => rfl
  | cons c rest =>
    have hc : c ≠ point '.' := by
      rintro rfl
      exact absurd (h _ rfl) (by decide)
    simp only [fractionPart, if_neg hc]
    split <;> rfl

theorem exponentPart_closed {rest : Str} (h : Closed rest) : exponentPart rest = ([], rest) := by
  cases rest with
  | nil => rfl
  | cons c rest =>
    have hc : ¬(c = point 'e' ∨ c = point 'E') := by
      rintro (rfl | rfl)
      · exact absurd (h _ rfl) (by decide)
      · exact absurd (h _ rfl) (by decide)
    simp only [exponentPart, if_neg hc]
    split <;> rfl

theorem Decimal.takeWhile {text rest : Str} {n : ℕ} (h : Decimal text n) (hrest : Closed rest) :
    (text ++ rest).takeWhile isDigit = text ∧ (text ++ rest).dropWhile isDigit = rest := by
  rw [List.takeWhile_append_of_pos h.digits, List.dropWhile_append_of_pos h.digits, hrest.not_digit, List.append_nil]
  have hsplit := List.takeWhile_append_dropWhile (p := isDigit) (l := rest)
  rw [hrest.not_digit, List.nil_append] at hsplit
  exact ⟨rfl, hsplit⟩

theorem Decimal.ne_nil {text : Str} {n : ℕ} (h : Decimal text n) : text ≠ [] := by
  rcases h.leading with rfl | ⟨c, rest, rfl, -⟩ <;> nofun

theorem Decimal.head {text : Str} {n : ℕ} (h : Decimal text n) : ∃ c after, text = c :: after ∧ isDigit c = true := by
  cases text with
  | nil => exact absurd rfl h.ne_nil
  | cons c after => exact ⟨c, after, rfl, h.digits c List.mem_cons_self⟩

theorem digits_decimal {text rest : Str} {n : ℕ} (h : Decimal text n) (hrest : Closed rest) :
    digits (text ++ rest) = some (text, rest) := by
  obtain ⟨htake, hdrop⟩ := h.takeWhile hrest
  simp only [digits, List.span_eq_takeWhile_dropWhile, htake, hdrop, if_neg h.ne_nil]

/-- The digits of a number are read, up to what closes it. -/
theorem integerPart_decimal {text rest : Str} {n : ℕ} (h : Decimal text n) (hrest : Closed rest) {sign : Str}
    (hsign : sign = [] ∨ sign = [point '-']) : integerPart (sign ++ (text ++ rest)) = some (sign ++ text, rest) := by
  have hspan : (sign ++ (text ++ rest)).span (· = point '-') = (sign, text ++ rest) := by
    obtain ⟨c, after, rfl, hdigit⟩ := h.head
    have hc : decide (c = point '-') = false := decide_eq_false fun heq => absurd (heq ▸ hdigit) (by decide)
    rw [List.span_eq_takeWhile_dropWhile]
    rcases hsign with rfl | rfl
    · simp [hc]
    · simp [List.takeWhile, List.dropWhile, hc]
  have hshort : ¬ 1 < sign.length := by
    rcases hsign with rfl | rfl <;> decide
  simp only [integerPart, hspan, if_neg hshort]
  rcases h.leading with rfl | ⟨c, after, rfl, hc⟩
  · rfl
  · have hdigits := digits_decimal h hrest
    simp only [List.cons_append] at hdigits ⊢
    rw [if_neg hc, hdigits]
    rfl

/-- An integer is written as its sign and the digits of the rest of it. -/
theorem lit_toString (n : ℤ) : ∃ sign text, lit (toString n) = sign ++ text ∧ Decimal text n.natAbs ∧
    ((sign = [] ∧ 0 ≤ n) ∨ (sign = [point '-'] ∧ n < 0)) := by
  cases n with
  | ofNat n => exact ⟨[], lit n.repr, rfl, decimal_repr n, .inl ⟨rfl, Int.natCast_nonneg n⟩⟩
  | negSucc n =>
    refine ⟨[point '-'], lit (n + 1).repr, ?_, decimal_repr (n + 1), .inr ⟨rfl, Int.negSucc_lt_zero n⟩⟩
    change lit ("-" ++ (n + 1).repr) = _
    rw [lit, String.toList_append, List.map_append]
    rfl

theorem number_closed {text rest : Str} {n : ℕ} (h : Decimal text n) (hrest : Closed rest) (hn : n < 10 ^ maxDigits) {sign : Str}
    (hsign : sign = [] ∨ sign = [point '-']) :
    number decoder (sign ++ (text ++ rest)) = some (.int (integerOf (sign ++ text)), rest) := by
  have hlength : ((sign ++ text).filter isDigit).length ≤ maxDigits := by
    rw [List.filter_append, List.filter_eq_self.mpr h.digits]
    rcases hsign with rfl | rfl
    · exact h.length.mpr hn
    · exact h.length.mpr hn
  simp only [number, integerPart_decimal h hrest hsign, fractionPart_closed hrest, exponentPart_closed hrest, and_self, if_true,
    if_pos hlength]

/-- What an integer is written as is read back. -/
theorem number_toString {n : ℤ} (hn : n.natAbs < 10 ^ maxDigits) {rest : Str} (hrest : Closed rest) :
    number decoder (lit (toString n) ++ rest) = some (.int n, rest) := by
  obtain ⟨sign, text, heq, hdecimal, ⟨rfl, hpos⟩ | ⟨rfl, hneg⟩⟩ := lit_toString n
  · rw [heq, List.append_assoc, number_closed hdecimal hrest hn (.inl rfl)]
    obtain ⟨c, after, rfl, hdigit⟩ := hdecimal.head
    have hc : c ≠ point '-' := fun h => absurd (h ▸ hdigit) (by decide)
    have hvalue := hdecimal.value
    simp only [List.nil_append, integerOf, if_neg hc, hvalue, Option.some.injEq, Prod.mk.injEq, Value.int.injEq, and_true]
    omega
  · rw [heq, List.append_assoc, number_closed hdecimal hrest hn (.inr rfl)]
    simp only [List.cons_append, List.nil_append, integerOf, if_true, hdecimal.value, Option.some.injEq, Prod.mk.injEq,
      Value.int.injEq, and_true]
    omega

/-- No word is where a number is. -/
theorem constants_number {sign text rest : Str} {n : ℕ} (h : Decimal text n) (hsign : sign = [] ∨ sign = [point '-']) :
    (constants : List (String × Value Opaque)).findSome? (fun (word, value) =>
      ((sign ++ (text ++ rest)).dropPrefix? (lit word)).map fun rest => (value, rest)) = none := by
  obtain ⟨c, after, rfl, hdigit⟩ := h.head
  have hne (d : Char) (hd : isDigit (point d) = false) : (c == point d) = false := by
    rw [beq_eq_false_iff_ne]
    rintro rfl
    rw [hd] at hdigit
    cases hdigit
  rcases hsign with rfl | rfl
  · simp [constants, lit, List.dropPrefix?, hne 'n' rfl, hne 't' rfl, hne 'f' rfl, hne 'N' rfl, hne 'I' rfl, hne '-' rfl]
  · have hne' : c ≠ point 'I' := beq_eq_false_iff_ne.mp (hne 'I' rfl)
    simpa [constants, lit, List.dropPrefix?, point] using fun heq : c = 73 => absurd heq hne'

/-! ### Values -/

/-- A character that no value begins with. -/
def isClosing (c : CodePoint) : Bool :=
  c = point ' ' ∨ c = point '\t' ∨ c = point '\n' ∨ c = point '\x0d' ∨ c = point ']' ∨ c = point '\x7d'

/-- A text is read as a value, up to what closes it. -/
structure Reads (decoder : Decoder Opaque) (text : Str) (value : Value Opaque) : Prop where
  head : ∃ c after, text = c :: after ∧ isClosing c = false
  parses : ∀ fuel rest, text.length < fuel → Closed rest → parseValue decoder fuel (text ++ rest) = some (value, rest)

/-- A text whose first character opens nothing is a scalar. -/
theorem reads_scalar {text : Str} {value : Value Opaque} (hhead : ∃ c after, text = c :: after ∧
      isClosing c = false ∧ c ≠ point '"' ∧ c ≠ point '[' ∧ c ≠ point '\x7b')
    (h : ∀ rest, Closed rest → scalar decoder (text ++ rest) = some (value, rest)) : Reads decoder text value := by
  obtain ⟨c, after, rfl, hc, hquote, hbracket, hbrace⟩ := hhead
  refine ⟨⟨c, after, rfl, hc⟩, fun fuel rest hfuel hrest => ?_⟩
  obtain ⟨fuel, rfl⟩ := Nat.exists_eq_add_one.mpr (Nat.zero_lt_of_lt hfuel)
  have hscalar := h rest hrest
  rw [List.cons_append] at hscalar ⊢
  rw [parseValue, if_neg hquote, if_neg hbracket, if_neg hbrace, hscalar]

theorem reads_null : Reads decoder (lit "null") .null := 
  reads_scalar ⟨_, _, rfl, by decide⟩ fun _ _ => by simp [scalar, constants, lit, List.dropPrefix?]

theorem reads_bool (b : Bool) : Reads decoder (lit (if b = true then "true" else "false")) (.bool b) := by
  cases b with
  | false => exact reads_scalar ⟨_, _, rfl, by decide⟩ fun _ _ => by simp [scalar, constants, lit, List.dropPrefix?, point]
  | true => exact reads_scalar ⟨_, _, rfl, by decide⟩ fun _ _ => by simp [scalar, constants, lit, List.dropPrefix?, point]

theorem reads_int {n : ℤ} (hn : n.natAbs < 10 ^ maxDigits) : Reads decoder (lit (toString n)) (.int n) := by
  obtain ⟨sign, text, heq, hdecimal, hsign⟩ := lit_toString n
  replace hsign : sign = [] ∨ sign = [point '-'] := hsign.imp And.left And.left
  refine reads_scalar ?_ fun rest hrest => ?_
  · obtain ⟨c, after, rfl, hdigit⟩ := hdecimal.head
    rw [heq]
    rcases hsign with rfl | rfl
    · have hne (d : Char) (hd : isDigit (point d) = false) : c ≠ point d := by
        rintro rfl
        rw [hd] at hdigit
        cases hdigit
      refine ⟨c, after, rfl, ?_, hne _ rfl, hne _ rfl, hne _ rfl⟩
      simp [isClosing, hne ' ' rfl, hne '\t' rfl, hne '\n' rfl, hne '\x0d' rfl, hne ']' rfl, hne '\x7d' rfl]
    · exact ⟨point '-', c :: after, rfl, by decide⟩
  · rw [scalar, heq, List.append_assoc, constants_number hdecimal hsign, ← List.append_assoc, ← heq, number_toString hn hrest]

theorem reads_str {ensureAscii : Bool} {text : Str} (htext : ensureAscii = true → unpaired text = true) :
    Reads decoder (quote ensureAscii text) (.str text) := by
  refine ⟨⟨point '"', _, rfl, by decide⟩, fun fuel rest hfuel _ => ?_⟩
  obtain ⟨fuel, rfl⟩ := Nat.exists_eq_add_one.mpr (Nat.zero_lt_of_lt hfuel)
  have hscan : scanString fuel (text.flatMap (escape ensureAscii) ++ point '"' :: rest) = some (text, rest) := by
    refine scanString_quoted htext fuel rest ?_
    have hquote : (lit "\"").length = 1 := rfl
    simp only [quote, List.length_append, hquote] at hfuel
    omega
  have hquote : quote ensureAscii text ++ rest = point '"' :: (text.flatMap (escape ensureAscii) ++ point '"' :: rest) := by
    simp [quote, lit]
  rw [hquote, parseValue, if_pos rfl, hscan]
  rfl

/-! ### Arrays and objects -/

theorem skipSpace_cons {c : CodePoint} (h : isClosing c = false) (rest : Str) : skipSpace (c :: rest) = c :: rest := by
  simp only [isClosing, decide_eq_false_iff_not, not_or] at h
  rw [skipSpace, List.dropWhile_cons_of_neg]
  simp only [decide_eq_true_eq, not_or]
  exact ⟨h.1, h.2.1, h.2.2.1, h.2.2.2.1⟩

theorem Reads.skipSpace {text : Str} {value : Value Opaque} (h : Reads decoder text value) (rest : Str) :
    skipSpace (text ++ rest) = text ++ rest := by
  obtain ⟨c, after, rfl, hc⟩ := h.head
  exact skipSpace_cons hc _

theorem Reads.length_pos {text : Str} {value : Value Opaque} (h : Reads decoder text value) : 0 < text.length := by
  obtain ⟨c, after, rfl, hc⟩ := h.head
  exact Nat.zero_lt_succ _

theorem closed_bracket (rest : Str) : Closed (point ']' :: rest) := by
  rintro _ ⟨⟩
  decide

theorem closed_brace (rest : Str) : Closed (point '\x7d' :: rest) := by
  rintro _ ⟨⟩
  decide

/-- A separator is its mark, with space after it. -/
def Spaced (mark : Char) (separator : Str) : Prop :=
  ∃ space, separator = point mark :: space ∧ ∀ rest, skipSpace (space ++ rest) = skipSpace rest

/-- The separators of a format are the ones of JSON. -/
structure Format.Readable (format : Format) : Prop where
  items : Spaced ',' format.itemSeparator
  keys : Spaced ':' format.keySeparator

theorem readable_canonicalFormat : canonicalFormat.Readable := ⟨⟨[], rfl, fun _ => rfl⟩, ⟨[], rfl, fun _ => rfl⟩⟩

theorem readable_evidenceFormat : evidenceFormat.Readable := ⟨⟨[], rfl, fun _ => rfl⟩, ⟨[], rfl, fun _ => rfl⟩⟩

theorem readable_payloadFormat : payloadFormat.Readable := ⟨⟨[point ' '], rfl, fun _ => rfl⟩, ⟨[point ' '], rfl, fun _ => rfl⟩⟩

section Separators

variable {mark : Char} {separator : Str}

theorem Spaced.length_pos (h : Spaced mark separator) : 0 < separator.length := by
  obtain ⟨space, rfl, -⟩ := h
  exact Nat.zero_lt_succ _

/-- After a value stands the mark, and the text that follows is read without its space. -/
theorem Spaced.nextToken (h : Spaced mark separator) (hmark : isClosing (point mark) = false) (rest : Str) :
    ∃ space, nextToken (separator ++ rest) = some (point mark, space) ∧ skipSpace space = skipSpace rest := by
  obtain ⟨space, rfl, hspace⟩ := h
  refine ⟨space ++ rest, ?_, hspace rest⟩
  rw [Radar.nextToken, List.cons_append, skipSpace_cons hmark]

theorem Spaced.closed (h : Spaced ',' separator) (rest : Str) : Closed (separator ++ rest) := by
  obtain ⟨space, rfl, -⟩ := h
  rintro _ ⟨⟩
  decide

theorem join_cons_cons (text next : Str) (texts : List Str) :
    join separator (text :: next :: texts) = text ++ separator ++ join separator (next :: texts) := rfl

theorem length_join_cons (text next : Str) (texts : List Str) :
    (join separator (text :: next :: texts)).length =
      text.length + separator.length + (join separator (next :: texts)).length := by
  rw [join_cons_cons, List.length_append, List.length_append]

theorem join_cons (text next : Str) (texts : List Str) (rest : Str) :
    join separator (text :: next :: texts) ++ rest = text ++ (separator ++ (join separator (next :: texts) ++ rest)) := by
  rw [join_cons_cons, List.append_assoc, List.append_assoc]

/-- Some items begin with what the first begins with. -/
theorem join_head (separator : Str) {text : Str} {c : CodePoint} (h : ∃ after, text = c :: after) (texts : List Str) (rest : Str) :
    ∃ after, join separator (text :: texts) ++ rest = c :: after := by
  obtain ⟨after, rfl⟩ := h
  cases texts with
  | nil => exact ⟨_, rfl⟩
  | cons next texts =>
    rw [join_cons]
    exact ⟨_, rfl⟩

theorem parseItems_join (hseparator : Spaced ',' separator) {texts : List Str} {items : List (Value Opaque)}
    (h : List.Forall₂ (Reads decoder) texts items) (hne : texts ≠ []) (fuel : ℕ) (rest : Str)
    (hfuel : (join separator texts).length + 1 < fuel) :
    parseItems decoder fuel (join separator texts ++ point ']' :: rest) = some (items, rest) := by
  induction h generalizing fuel with
  | nil => exact absurd rfl hne
  | @cons text item texts items hread htail ih =>
    obtain ⟨fuel, rfl⟩ := Nat.exists_eq_add_one.mpr (Nat.zero_lt_of_lt hfuel)
    cases htail with
    | nil =>
      rw [join] at hfuel ⊢
      rw [parseItems, hread.parses fuel _ (by omega) (closed_bracket _)]
      rfl
    | @cons next item' texts items hnext htail =>
      have hlength := hseparator.length_pos
      rw [length_join_cons] at hfuel
      rw [join_cons, parseItems, hread.parses fuel _ (by omega) (hseparator.closed _)]
      obtain ⟨c, after, hhead, hc⟩ := hnext.head
      obtain ⟨after', hjoin⟩ := join_head separator ⟨after, hhead⟩ texts (point ']' :: rest)
      obtain ⟨space, htoken, hspace⟩ := hseparator.nextToken (by decide) (join separator (next :: texts) ++ point ']' :: rest)
      simp only [htoken]
      rw [if_neg (by decide), if_true, hspace, hjoin, skipSpace_cons hc, ← hjoin, ih nofun fuel (by omega)]
      rfl

end Separators

/-- A field of a text, and what it is read as; its key is written in code points that can be read back. -/
def ReadsField (decoder : Decoder Opaque) (format : Format) (text : Str × Str) (field : Str × Value Opaque) : Prop :=
  text.1 = field.1 ∧ (format.ensureAscii = true → unpaired field.1 = true) ∧ Reads decoder text.2 field.2

section Fields

variable {format : Format}

theorem fieldText_append (format : Format) (text : Str × Str) (rest : Str) : fieldText format text ++ rest =
    point '"' :: (text.1.flatMap (escape format.ensureAscii) ++ point '"' :: (format.keySeparator ++ (text.2 ++ rest))) := by
  simp [fieldText, quote, lit]

theorem fieldText_cons (format : Format) (text : Str × Str) : ∃ after, fieldText format text = point '"' :: after := by
  have h := fieldText_append format text []
  rw [List.append_nil] at h
  exact ⟨_, h⟩

theorem length_fieldText (text : Str × Str) : (fieldText format text).length =
    (text.1.flatMap (escape format.ensureAscii)).length + 2 + format.keySeparator.length + text.2.length := by
  have h := congrArg List.length (fieldText_append format text [])
  simp only [List.append_nil, List.length_cons, List.length_append] at h
  omega

/-- The first field, up to what closes it. -/
theorem parseFields_cons (hformat : format.Readable) {text : Str × Str} {field : Str × Value Opaque}
    (h : ReadsField decoder format text field) (fuel : ℕ) (rest : Str) (hfuel : (fieldText format text).length < fuel + 1)
    (hrest : Closed rest) :
    parseFields decoder (fuel + 1) (fieldText format text ++ rest) =
      match nextToken rest with
      | none => none
      | some (c, rest) =>
        if c = point '\x7d' then some ([field], rest)
        else if c = point ',' then
          (parseFields decoder fuel (skipSpace rest)).map fun (fields, rest) => (field :: fields, rest)
        else none := by
  obtain ⟨hkey, hascii, hread⟩ := h
  have hlength := hformat.keys.length_pos
  rw [length_fieldText] at hfuel
  obtain ⟨space, htoken, hspace⟩ := hformat.keys.nextToken (by decide) (text.2 ++ rest)
  rw [fieldText_append, parseFields, if_pos rfl, scanString_quoted (hkey ▸ hascii) _ _ (by omega)]
  simp only [htoken]
  rw [if_true, hspace, hread.skipSpace, hkey]
  have hparsed := hread.parses fuel rest (by omega) hrest
  generalize parseValue decoder fuel (text.2 ++ rest) = parsed at hparsed ⊢
  subst hparsed
  rfl

theorem parseFields_join (hformat : format.Readable) {texts : List (Str × Str)} {fields : Mapping Opaque}
    (h : List.Forall₂ (ReadsField decoder format) texts fields) (hne : texts ≠ []) (fuel : ℕ) (rest : Str)
    (hfuel : (join format.itemSeparator (texts.map (fieldText format))).length + 1 < fuel) :
    parseFields decoder fuel (join format.itemSeparator (texts.map (fieldText format)) ++ point '\x7d' :: rest) =
      some (fields, rest) := by
  induction h generalizing fuel with
  | nil => exact absurd rfl hne
  | @cons text field texts fields hread htail ih =>
    obtain ⟨fuel, rfl⟩ := Nat.exists_eq_add_one.mpr (Nat.zero_lt_of_lt hfuel)
    cases htail with
    | nil =>
      rw [List.map_cons, List.map_nil, join] at hfuel ⊢
      rw [parseFields_cons hformat hread fuel _ (by omega) (closed_brace _)]
      rfl
    | @cons next field' texts fields hnext htail =>
      have hlength := hformat.items.length_pos
      rw [List.map_cons, List.map_cons, length_join_cons] at hfuel
      rw [List.map_cons, List.map_cons, join_cons, parseFields_cons hformat hread fuel _ (by omega) (hformat.items.closed _)]
      obtain ⟨after, hjoin⟩ := join_head format.itemSeparator (fieldText_cons format next)
        (texts.map (fieldText format)) (point '\x7d' :: rest)
      obtain ⟨space, htoken, hspace⟩ := hformat.items.nextToken (by decide)
        (join format.itemSeparator (fieldText format next :: texts.map (fieldText format)) ++ point '\x7d' :: rest)
      simp only [htoken]
      rw [if_neg (by decide), if_true, hspace, hjoin, skipSpace_cons (by decide), ← hjoin]
      have hrest := ih nofun fuel (by rw [List.map_cons]; omega)
      rw [List.map_cons] at hrest
      rw [hrest]
      rfl

theorem forall₂_orderedInsert {text : Str × Str} {field : Str × Value Opaque} {texts : List (Str × Str)} {fields : Mapping Opaque}
    (h : ReadsField decoder format text field) (hs : List.Forall₂ (ReadsField decoder format) texts fields) :
    List.Forall₂ (ReadsField decoder format) (texts.orderedInsert (fun a b => le a.1 b.1 = true) text)
      (fields.orderedInsert (fun a b => le a.1 b.1 = true) field) := by
  induction hs with
  | nil => exact .cons h .nil
  | @cons next field' texts fields hnext htail ih =>
    rw [List.orderedInsert, List.orderedInsert, h.1, hnext.1]
    split
    · exact .cons h (.cons hnext htail)
    · exact .cons hnext ih

theorem forall₂_sortFields {texts : List (Str × Str)} {fields : Mapping Opaque}
    (h : List.Forall₂ (ReadsField decoder format) texts fields) :
    List.Forall₂ (ReadsField decoder format) (sortFields texts) (sortFields fields) := by
  induction h with
  | nil => exact .nil
  | cons hread _ ih => exact forall₂_orderedInsert hread ih

end Fields

theorem setField_new {α : Type} {fields : List (Str × α)} {key : Str} (h : key ∉ fields.map (·.1)) (value : α) :
    setField fields key value = fields ++ [(key, value)] := by
  rw [setField, if_neg]
  simpa using h

/-- Pairs with different keys are a dictionary. -/
theorem dictOf_nodup {α : Type} {pairs : List (Str × α)} (h : (pairs.map (·.1)).Nodup) : dictOf pairs = pairs := by
  suffices hfold : ∀ fields : List (Str × α), ((fields ++ pairs).map (·.1)).Nodup →
      pairs.foldl (fun fields pair => setField fields pair.1 pair.2) fields = fields ++ pairs from hfold [] h
  clear h
  induction pairs with
  | nil => simp
  | cons pair pairs ih =>
    intro fields hnodup
    have hnew : pair.1 ∉ fields.map (·.1) := by
      rw [List.map_append, List.map_cons] at hnodup
      exact fun hmem => (List.nodup_append.mp hnodup).2.2 _ hmem _ List.mem_cons_self rfl
    rw [List.foldl_cons, setField_new hnew, ih _ (by simpa using hnodup)]
    simp

/-! ### There and back -/

mutual

/-- No number in a value has a fraction, no integer is too long to print, and no object has a
key twice. -/
def Value.Exact : Value Opaque → Prop
  | .int n => n.natAbs < 10 ^ maxDigits
  | .float _ | .other _ => False
  | .array items => Value.ExactItems items
  | .object fields => (fields.map (·.1)).Nodup ∧ Value.ExactFields fields
  | _ => True

@[inherit_doc Value.Exact]
def Value.ExactItems : List (Value Opaque) → Prop
  | [] => True
  | item :: items => item.Exact ∧ Value.ExactItems items

@[inherit_doc Value.Exact]
def Value.ExactFields : Mapping Opaque → Prop
  | [] => True
  | (_, value) :: fields => value.Exact ∧ Value.ExactFields fields

end

theorem sortedFields_keys (fields : Mapping Opaque) : (Value.sortedFields fields).map (·.1) = fields.map (·.1) := by
  induction fields with
  | nil => rfl
  | cons field fields ih =>
    rw [Value.sortedFields, List.map_cons, List.map_cons, ih]

theorem sortFields_perm {α : Type} (fields : List (Str × α)) : (sortFields fields).Perm fields := List.perm_insertionSort ..

theorem lookup_sortFields {α : Type} {fields : List (Str × α)} (h : (fields.map (·.1)).Nodup) (key : Str) :
    (sortFields fields).lookup key = fields.lookup key := by
  have hsorted : ((sortFields fields).map (·.1)).Nodup := ((sortFields_perm fields).map _).nodup_iff.mpr h
  refine Option.ext fun value => ?_
  rw [lookup_iff_mem hsorted, lookup_iff_mem h]
  exact (sortFields_perm fields).mem_iff

theorem lookup_sortedFields (fields : Mapping Opaque) (key : Str) :
    (Value.sortedFields fields).lookup key = (fields.lookup key).map Value.sorted := by
  induction fields with
  | nil => rfl
  | cons field fields ih =>
    obtain ⟨key', value⟩ := field
    rw [Value.sortedFields, List.lookup_cons, List.lookup_cons, ih]
    cases key == key' <;> rfl

section Values

variable {py : Interpreter Opaque} {format : Format}

theorem reads_array (hformat : format.Readable) {texts : List Str} {items : List (Value Opaque)}
    (h : List.Forall₂ (Reads decoder) texts items) :
    Reads decoder (lit "[" ++ join format.itemSeparator texts ++ lit "]") (.array items) := by
  refine ⟨⟨point '[', _, rfl, by decide⟩, fun fuel rest hfuel _ => ?_⟩
  obtain ⟨fuel, rfl⟩ := Nat.exists_eq_add_one.mpr (Nat.zero_lt_of_lt hfuel)
  have hlength : (lit "[" ++ join format.itemSeparator texts ++ lit "]").length = (join format.itemSeparator texts).length + 2 := by
    simp [lit]
  have htext : lit "[" ++ join format.itemSeparator texts ++ lit "]" ++ rest =
      point '[' :: (join format.itemSeparator texts ++ point ']' :: rest) := by
    simp [lit]
  rw [htext, parseValue, if_neg (by decide), if_pos rfl]
  cases h with
  | nil => rfl
  | @cons text item texts items hread htail =>
    obtain ⟨c, after, hhead, hc⟩ := hread.head
    obtain ⟨after', hjoin⟩ := join_head format.itemSeparator ⟨after, hhead⟩ texts (point ']' :: rest)
    have hparse := parseItems_join hformat.items (.cons hread htail) nofun fuel rest (by omega)
    have hnot : c ≠ point ']' := by
      rintro rfl
      cases hc
    rw [hjoin] at hparse ⊢
    rw [nextToken, skipSpace_cons hc]
    simp only [if_neg hnot, hparse]
    rfl

theorem reads_object (hformat : format.Readable) {texts : List (Str × Str)} {fields : Mapping Opaque}
    (h : List.Forall₂ (ReadsField decoder format) texts fields) (hkeys : (fields.map (·.1)).Nodup) :
    Reads decoder (lit "\x7b" ++ join format.itemSeparator (texts.map (fieldText format)) ++ lit "\x7d") (.object fields) := by
  refine ⟨⟨point '\x7b', _, rfl, by decide⟩, fun fuel rest hfuel _ => ?_⟩
  obtain ⟨fuel, rfl⟩ := Nat.exists_eq_add_one.mpr (Nat.zero_lt_of_lt hfuel)
  have hlength : (lit "\x7b" ++ join format.itemSeparator (texts.map (fieldText format)) ++ lit "\x7d").length =
      (join format.itemSeparator (texts.map (fieldText format))).length + 2 := by
    simp [lit]
  have htext : lit "\x7b" ++ join format.itemSeparator (texts.map (fieldText format)) ++ lit "\x7d" ++ rest =
      point '\x7b' :: (join format.itemSeparator (texts.map (fieldText format)) ++ point '\x7d' :: rest) := by
    simp [lit]
  rw [htext, parseValue, if_neg (by decide), if_neg (by decide), if_pos rfl]
  cases h with
  | nil => rfl
  | @cons text field texts fields hread htail =>
    obtain ⟨after, hjoin⟩ := join_head format.itemSeparator (fieldText_cons format text)
      (texts.map (fieldText format)) (point '\x7d' :: rest)
    have hparse := parseFields_join hformat (.cons hread htail) nofun fuel rest (by omega)
    have hopen : isClosing (point '"') = false := by decide
    have hnot : point '"' ≠ point '\x7d' := by decide
    rw [List.map_cons, hjoin] at hparse ⊢
    rw [nextToken, skipSpace_cons hopen]
    simp only [if_neg hnot, hparse, Option.map_some, dictOf_nodup hkeys]

mutual

theorem Value.reads (hformat : format.Readable) : ∀ value : Value Opaque, value.Exact →
    (format.ensureAscii = true → value.unpaired = true) →
    ∃ text, value.text py format = .ok text ∧ Reads decoder text value.sorted
  | .null, _, _ => ⟨_, rfl, reads_null⟩
  | .bool b, _, _ => ⟨_, rfl, reads_bool b⟩
  | .int n, h, _ => ⟨_, if_pos (prints_iff.mpr h), reads_int h⟩
  | .float _, h, _ => h.elim
  | .str text, _, hascii => ⟨_, rfl, reads_str hascii⟩
  | .array items, h, hascii => by
    obtain ⟨texts, htexts, hreads⟩ := Value.reads_items hformat items h hascii
    refine ⟨_, by rw [Value.text, htexts], ?_⟩
    rw [Value.sorted]
    exact reads_array hformat hreads
  | .object fields, h, hascii => by
    obtain ⟨texts, htexts, hreads⟩ := Value.reads_fields hformat fields h.2 hascii
    refine ⟨_, by rw [Value.text, htexts, collect_sortFields_returned], ?_⟩
    rw [Value.sorted]
    refine reads_object hformat (forall₂_sortFields hreads) ?_
    rw [((sortFields_perm _).map _).nodup_iff, sortedFields_keys]
    exact h.1
  | .other _, h, _ => h.elim

theorem Value.reads_items (hformat : format.Readable) : ∀ items : List (Value Opaque), Value.ExactItems items →
    (format.ensureAscii = true → Value.allItems (fun _ => true) Radar.unpaired (fun _ => true) items = true) →
    ∃ texts, Value.itemTexts py format items = .ok texts ∧ List.Forall₂ (Reads decoder) texts (Value.sortedItems items)
  | [], _, _ => ⟨[], rfl, .nil⟩
  | item :: items, h, hascii => by
    have hall (hensure : format.ensureAscii = true) := Bool.and_eq_true .. ▸ hascii hensure
    obtain ⟨text, htext, hread⟩ := Value.reads hformat item h.1 fun hensure => (hall hensure).1
    obtain ⟨texts, htexts, hreads⟩ := Value.reads_items hformat items h.2 fun hensure => (hall hensure).2
    exact ⟨text :: texts, by rw [Value.itemTexts, htext, htexts], .cons hread hreads⟩

theorem Value.reads_fields (hformat : format.Readable) : ∀ fields : Mapping Opaque, Value.ExactFields fields →
    (format.ensureAscii = true → Value.allFields (fun _ => true) Radar.unpaired (fun _ => true) fields = true) →
    ∃ texts, Value.fieldTexts py format fields = returned texts ∧
      List.Forall₂ (ReadsField decoder format) texts (Value.sortedFields fields)
  | [], _, _ => ⟨[], rfl, .nil⟩
  | (key, value) :: fields, h, hascii => by
    have hall (hensure : format.ensureAscii = true) : (Radar.unpaired key = true ∧ value.unpaired = true) ∧
        Value.allFields (fun _ => true) Radar.unpaired (fun _ => true) fields = true := by
      have hfields := hascii hensure
      rw [Value.allFields, Bool.and_eq_true, Bool.and_eq_true] at hfields
      exact hfields
    obtain ⟨text, htext, hread⟩ := Value.reads hformat value h.1 fun hensure => (hall hensure).1.2
    obtain ⟨texts, htexts, hreads⟩ := Value.reads_fields hformat fields h.2 fun hensure => (hall hensure).2
    exact ⟨(key, text) :: texts, by rw [Value.fieldTexts, htext, htexts]; rfl,
      .cons ⟨rfl, fun hensure => (hall hensure).1.1, hread⟩ hreads⟩

end

/-- A text that reads as a value, up to what closes it, is read as the value. -/
theorem Reads.loads {text : Str} {value : Value Opaque} (h : Reads decoder text value) (hscans : decoder.scans text = true) :
    loads decoder text = .ok value := by
  have hparse := h.parses (text.length + 1) [] (Nat.lt_succ_self _) nofun
  have hspace := h.skipSpace []
  rw [List.append_nil] at hparse hspace
  rw [Radar.loads, if_pos hscans, hspace, hparse]
  rfl

/-- The text of a value is read as the value with its fields sorted. -/
theorem loads_text (hformat : format.Readable) {value : Value Opaque} (h : value.Exact)
    (hascii : format.ensureAscii = true → value.unpaired = true) {text : Str} (htext : value.text py format = .ok text)
    (hscans : decoder.scans text = true) : loads decoder text = .ok value.sorted := by
  obtain ⟨text', htext', hread⟩ : ∃ text, value.text py format = .ok text ∧ Reads decoder text value.sorted :=
    Value.reads hformat value h hascii
  obtain rfl : text' = text := Except.ok.inj (htext'.symm.trans htext)
  exact hread.loads hscans

/-- **What is written of a value is read as the value with its fields sorted.** -/
theorem loads_dumps (hformat : format.Readable) {value : Value Opaque} (h : value.Exact)
    (hascii : format.ensureAscii = true → value.unpaired = true) {text : Str} (htext : dumps py format value = .ok text)
    (hscans : decoder.scans text = true) : loads decoder text = .ok value.sorted := by
  unfold dumps at htext
  split at htext
  · exact loads_text hformat h hascii htext hscans
  · cases htext

end Values

end CcbCore.Radar
