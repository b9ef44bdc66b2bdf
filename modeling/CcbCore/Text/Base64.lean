import CcbCore.Text.Python

/-!
# Base64

`base64.b64encode` of Python and `atob` of JavaScript, which also reads a text that has
space in it or comes without its padding. What the one writes the other reads
(`atob_b64encode`); four characters are written for each three bytes, the last ones padded
(`length_b64encode`). Of any text that is read, three bytes are read for each four of its
characters, less its padding (`atob_length`).
-/

namespace CcbCore.Base64

open CcbCore.Python (Bytes)

/-- The characters of the 64 sextets. -/
def alphabet : List Char := "ABCDEFGHIJKLMNOPQRSTUVWXYZabcdefghijklmnopqrstuvwxyz0123456789+/".toList

/-- The character of a sextet. -/
def letter (n : ℕ) : Char := alphabet.getD n '='

/-- The sextet of a character. -/
def sextet? (c : Char) : Option ℕ := alphabet.idxOf? c

/-- The sextets of some bytes, the last one filled with zeros. -/
def sextets : List UInt8 → List ℕ
  | a :: b :: c :: rest =>
    a.toNat / 4 :: (a.toNat % 4 * 16 + b.toNat / 16) :: (b.toNat % 16 * 4 + c.toNat / 64) :: c.toNat % 64 :: sextets rest
  | [a, b] => [a.toNat / 4, a.toNat % 4 * 16 + b.toNat / 16, b.toNat % 16 * 4]
  | [a] => [a.toNat / 4, a.toNat % 4 * 16]
  | [] => []

/-- How many `=` stand for the bytes that are not there. -/
def padding (n : ℕ) : ℕ := (3 - n % 3) % 3

/-- `base64.b64encode(data)`. -/
def b64encode (data : List UInt8) : List Char :=
  (sextets data).map letter ++ List.replicate (padding data.length) '='

/-- The bytes of some sextets, without the bits that are left. -/
def octets : List ℕ → List UInt8
  | a :: b :: c :: d :: rest =>
    UInt8.ofNat (a * 4 + b / 16) :: UInt8.ofNat (b % 16 * 16 + c / 4) :: UInt8.ofNat (c % 4 * 64 + d) :: octets rest
  | [a, b, c] => [UInt8.ofNat (a * 4 + b / 16), UInt8.ofNat (b % 16 * 16 + c / 4)]
  | [a, b] => [UInt8.ofNat (a * 4 + b / 16)]
  | _ => []

/-- ASCII whitespace. -/
def isAsciiWhite (c : Char) : Bool := c ∈ ['\t', '\n', '\x0c', '\r', ' ']

/-- A text of whole groups of four, without one or two `=` that end it. -/
def unpad (text : List Char) : List Char :=
  if text.length % 4 = 0 then
    if ['=', '='].isSuffixOf text then text.dropLast.dropLast
    else if ['='].isSuffixOf text then text.dropLast
    else text
  else text

/-- `atob(text)`. -/
def atob (text : List Char) : Option (List UInt8) :=
  let data := unpad (text.filter fun c => !isAsciiWhite c)
  if data.length % 4 = 1 then none else (data.mapM sextet?).map octets

/-! ### Sextets -/

variable {data : List UInt8}

theorem octets_sextets : octets (sextets data) = data := by
  have hbyte (a : UInt8) {n : ℕ} (h : n = a.toNat) : UInt8.ofNat n = a := by rw [h, UInt8.ofNat_toNat]
  fun_induction sextets data with
  | case1 a b c rest ih =>
    have ha := a.toNat_lt
    have hb := b.toNat_lt
    have hc := c.toNat_lt
    rw [octets, ih, hbyte a (by omega), hbyte b (by omega), hbyte c (by omega)]
  | case2 a b =>
    have hb := b.toNat_lt
    rw [octets, hbyte a (by omega), hbyte b (by omega)]
  | case3 a => rw [octets, hbyte a (by omega)]
  | case4 => rfl

theorem lt_of_mem_sextets {n : ℕ} (h : n ∈ sextets data) : n < 64 := by
  fun_induction sextets data with
  | case1 a b c rest ih =>
    have ha := a.toNat_lt
    have hb := b.toNat_lt
    have hc := c.toNat_lt
    simp only [List.mem_cons] at h
    rcases h with rfl | rfl | rfl | rfl | h
    · omega
    · omega
    · omega
    · omega
    · exact ih h
  | case2 a b =>
    have ha := a.toNat_lt
    have hb := b.toNat_lt
    simp only [List.mem_cons, List.not_mem_nil, or_false] at h
    omega
  | case3 a =>
    have ha := a.toNat_lt
    simp only [List.mem_cons, List.not_mem_nil, or_false] at h
    omega
  | case4 => cases h

/-- The sextets and the padding are whole groups of four. -/
theorem length_sextets : (sextets data).length + padding data.length = 4 * ((data.length + 2) / 3) := by
  fun_induction sextets data with
  | case1 a b c rest ih =>
    simp only [List.length_cons, padding] at ih ⊢
    omega
  | case2 | case3 | case4 => simp [padding]

theorem length_b64encode : (b64encode data).length = 4 * ((data.length + 2) / 3) := by
  rw [b64encode, List.length_append, List.length_map, List.length_replicate, length_sextets]

/-! ### Characters -/

theorem sextet?_letter {n : ℕ} (h : n < 64) : sextet? (letter n) = some n := by
  have hall : ∀ n < 64, sextet? (letter n) = some n := by decide +kernel
  exact hall n h

theorem mapM_letter {ns : List ℕ} (h : ∀ n ∈ ns, n < 64) : (ns.map letter).mapM sextet? = some ns := by
  induction ns with
  | nil => rfl
  | cons n ns ih =>
    rw [List.forall_mem_cons] at h
    rw [List.map_cons, List.mapM_cons, sextet?_letter h.1, ih h.2]
    rfl

theorem letter_facts {n : ℕ} (h : n < 64) : isAsciiWhite (letter n) = false ∧ letter n ≠ '=' := by
  have hall : ∀ n < 64, isAsciiWhite (letter n) = false ∧ letter n ≠ '=' := by decide +kernel
  exact hall n h

/-- The `=` that end a text without others are those of its padding. -/
theorem suffix_padding {text : List Char} (h : '=' ∉ text) (k : ℕ) {n : ℕ} :
    List.replicate k '=' <:+ text ++ List.replicate n '=' ↔ k ≤ n := by
  rw [← List.reverse_prefix, List.reverse_append, List.reverse_replicate, List.reverse_replicate]
  induction n generalizing k with
  | zero =>
    cases k with
    | zero => simp
    | succ k =>
      have hnot : ¬ List.replicate (k + 1) '=' <+: text.reverse := fun hlead =>
        h (List.mem_reverse.mp (hlead.subset List.mem_cons_self))
      simpa using hnot
  | succ n ih =>
    cases k with
    | zero => simp
    | succ k => simpa [List.replicate_succ] using ih k

/-- The padding is taken away from whole groups of four. -/
theorem unpad_append {text : List Char} {n : ℕ} (hn : n ≤ 2) (hlength : (text.length + n) % 4 = 0) (htext : '=' ∉ text) :
    unpad (text ++ List.replicate n '=') = text := by
  have hone : ['='] <:+ text ++ List.replicate n '=' ↔ 1 ≤ n := suffix_padding htext 1
  have htwo : ['=', '='] <:+ text ++ List.replicate n '=' ↔ 2 ≤ n := suffix_padding htext 2
  unfold unpad
  rw [if_pos (by rwa [List.length_append, List.length_replicate])]
  simp only [List.isSuffixOf_iff_suffix, hone, htwo]
  obtain rfl | rfl | rfl : n = 0 ∨ n = 1 ∨ n = 2 := by omega
  · simp
  · simp
  · simp

theorem padding_le (n : ℕ) : padding n ≤ 2 := by
  have hlt := Nat.mod_lt (3 - n % 3) (show 0 < 3 by decide)
  rw [padding]
  omega

theorem mem_b64encode {c : Char} (h : c ∈ b64encode data) : c = '=' ∨ ∃ n < 64, c = letter n := by
  rcases List.mem_append.mp h with hc | hc
  · obtain ⟨n, hn, rfl⟩ := List.mem_map.mp hc
    exact .inr ⟨n, lt_of_mem_sextets hn, rfl⟩
  · exact .inl (List.mem_replicate.mp hc).2

theorem notMem_letters : '=' ∉ (sextets data).map letter := by
  intro hmem
  obtain ⟨n, hn, heq⟩ := List.mem_map.mp hmem
  exact (letter_facts (lt_of_mem_sextets hn)).2 heq

/-- What is written is ASCII, and has no space. -/
theorem b64encode_facts {c : Char} (h : c ∈ b64encode data) : c.val < 0x80 ∧ isAsciiWhite c = false := by
  have hall : ∀ n < 64, (letter n).val < 0x80 := by decide +kernel
  rcases mem_b64encode h with rfl | ⟨n, hn, rfl⟩
  · decide
  · exact ⟨hall n hn, (letter_facts hn).1⟩

theorem suffix_b64encode (k : ℕ) : List.replicate k '=' <:+ b64encode data ↔ k ≤ padding data.length :=
  suffix_padding notMem_letters k

/-- **What is written is read.** -/
theorem atob_b64encode : atob (b64encode data) = some data := by
  have hfilter : (b64encode data).filter (fun c => !isAsciiWhite c) = b64encode data :=
    List.filter_eq_self.mpr fun c hc => by rw [(b64encode_facts hc).2]; rfl
  have hlength : (sextets data).length + padding data.length = 4 * ((data.length + 2) / 3) := length_sextets
  have hpadding := padding_le data.length
  have hunpad : unpad (b64encode data) = (sextets data).map letter :=
    unpad_append hpadding (by rw [List.length_map]; omega) notMem_letters
  have hodd : ((sextets data).map letter).length % 4 ≠ 1 := by
    rw [List.length_map]
    omega
  unfold atob
  simp only [hfilter, hunpad, if_neg hodd, mapM_letter fun n hn => lt_of_mem_sextets hn, Option.map_some, octets_sextets]

/-! ### The length of what is read -/

variable {text : List Char} {bytes : List UInt8} {ns : List ℕ}

/-- A text without its ASCII whitespace. -/
def ink (text : List Char) : List Char := text.filter fun c => !isAsciiWhite c

/-- How many `=`, of two, a text ends with. -/
def endPadding (text : List Char) : ℕ :=
  if ['=', '='].isSuffixOf text then 2 else if ['='].isSuffixOf text then 1 else 0

theorem atob_eq_some : atob text = some bytes ↔
    (unpad (ink text)).length % 4 ≠ 1 ∧ ∃ ns, (unpad (ink text)).mapM sextet? = some ns ∧ octets ns = bytes := by
  have hink : (text.filter fun c => !isAsciiWhite c) = ink text := rfl
  unfold atob
  simp only [hink]
  by_cases hodd : (unpad (ink text)).length % 4 = 1
  · simp [hodd]
  · simp [hodd]

theorem sextet?_facts {c : Char} {n : ℕ} (h : sextet? c = some n) : c ≠ '=' ∧ c.val < 0x80 := by
  have hmem : c ∈ alphabet := by
    rw [← List.isSome_idxOf?, ← sextet?, h]
    rfl
  have hall : (alphabet.all fun c => c != '=' && decide (c.val < 0x80)) = true := by decide +kernel
  simpa using List.all_eq_true.mp hall c hmem

theorem mapM_sextet? (h : text.mapM sextet? = some ns) : ns.length = text.length ∧ ∀ c ∈ text, c ≠ '=' ∧ c.val < 0x80 := by
  induction text generalizing ns with
  | nil =>
    cases h
    exact ⟨rfl, nofun⟩
  | cons c text ih =>
    rw [List.mapM_cons] at h
    obtain ⟨n, hn, h⟩ := Option.bind_eq_some_iff.mp h
    obtain ⟨rest, hrest, h⟩ := Option.bind_eq_some_iff.mp h
    cases h
    obtain ⟨hlength, hfacts⟩ := ih hrest
    exact ⟨by rw [List.length_cons, List.length_cons, hlength], List.forall_mem_cons.mpr ⟨sextet?_facts hn, hfacts⟩⟩

theorem length_octets (h : ns.length % 4 ≠ 1) : (octets ns).length = ns.length * 3 / 4 := by
  fun_induction octets ns with
  | case1 a b c d rest ih =>
    simp only [List.length_cons] at h ih ⊢
    rw [ih (by omega)]
    omega
  | case2 | case3 => simp
  | case4 ns hgroup hthree htwo =>
    match ns with
    | [] => rfl
    | [_] => exact absurd rfl h
    | [_, _] => exact absurd rfl (htwo _ _)
    | [_, _, _] => exact absurd rfl (hthree _ _ _)
    | _ :: _ :: _ :: _ :: _ => exact absurd rfl (hgroup _ _ _ _ _)

/-- What is taken away of a text, if no `=` is left, is its padding. -/
theorem length_unpad (h : '=' ∉ unpad text) : (unpad text).length * 3 / 4 + endPadding text = text.length * 3 / 4 := by
  unfold unpad endPadding at *
  by_cases hwhole : text.length % 4 = 0
  · rw [if_pos hwhole] at h ⊢
    by_cases htwo : ['=', '='].isSuffixOf text = true
    · have hlength := (List.isSuffixOf_iff_suffix.mp htwo).length_le
      rw [if_pos htwo, if_pos htwo]
      simp only [List.length_dropLast, List.length_cons, List.length_nil] at hlength ⊢
      omega
    · rw [if_neg htwo, if_neg htwo]
      by_cases hone : ['='].isSuffixOf text = true
      · have hlength := (List.isSuffixOf_iff_suffix.mp hone).length_le
        rw [if_pos hone, if_pos hone]
        simp only [List.length_dropLast, List.length_cons, List.length_nil] at hlength ⊢
        omega
      · rw [if_neg hone, if_neg hone, Nat.add_zero]
  · rw [if_neg hwhole] at h ⊢
    have hnone {pad : List Char} (hpad : '=' ∈ pad) : ¬ pad.isSuffixOf text = true := fun hsuffix =>
      h ((List.isSuffixOf_iff_suffix.mp hsuffix).subset hpad)
    rw [if_neg (hnone (by simp)), if_neg (hnone (by simp)), Nat.add_zero]

/-- **Three bytes are read for each four characters, less the padding.** -/
theorem atob_length (h : atob text = some bytes) : bytes.length + endPadding (ink text) = (ink text).length * 3 / 4 := by
  obtain ⟨hodd, ns, hns, rfl⟩ := atob_eq_some.mp h
  obtain ⟨hlength, hfacts⟩ := mapM_sextet? hns
  rw [length_octets (by rwa [hlength]), hlength]
  exact length_unpad fun hmem => (hfacts _ hmem).1 rfl

/-- What is read is ASCII. -/
theorem atob_ascii (h : atob text = some bytes) : ∀ c ∈ text, c.val < 0x80 := by
  obtain ⟨-, ns, hns, -⟩ := atob_eq_some.mp h
  obtain ⟨-, hfacts⟩ := mapM_sextet? hns
  intro c hc
  by_cases hwhite : isAsciiWhite c = true
  · simp only [isAsciiWhite, List.mem_cons, List.not_mem_nil, or_false, decide_eq_true_eq] at hwhite
    rcases hwhite with rfl | rfl | rfl | rfl | rfl <;> decide
  by_cases hpad : c = '='
  · rw [hpad]
    decide
  refine (hfacts c ?_).2
  have hink : c ∈ ink text := List.mem_filter.mpr ⟨hc, by simpa using hwhite⟩
  have hlast {last : List Char} (hmem : c ∈ last) (hsuffix : ['='] <:+ last) : c ∈ last.dropLast := by
    obtain ⟨front, rfl⟩ := hsuffix
    rw [List.dropLast_concat]
    exact (List.mem_append.mp hmem).resolve_right fun hc => hpad (List.mem_singleton.mp hc)
  unfold unpad
  split_ifs with hwhole htwo hone
  · obtain ⟨front, hfront⟩ := List.isSuffixOf_iff_suffix.mp htwo
    rw [← hfront] at hink ⊢
    have hsplit : front ++ ['=', '='] = (front ++ ['=']) ++ ['='] := by simp
    rw [hsplit] at hink ⊢
    rw [List.dropLast_concat, List.dropLast_concat]
    simpa [hpad] using hink
  · exact hlast hink (List.isSuffixOf_iff_suffix.mp hone)
  · exact hink
  · exact hink

/-- Whitespace can only hide padding. -/
theorem endPadding_le_ink (text : List Char) : endPadding text ≤ endPadding (ink text) := by
  have hsuffix {pad : List Char} (hpad : ink pad = pad) (h : pad.isSuffixOf text = true) : pad.isSuffixOf (ink text) = true := by
    have hfilter := (List.isSuffixOf_iff_suffix.mp h).filter fun c => !isAsciiWhite c
    rw [← ink, ← ink, hpad] at hfilter
    exact List.isSuffixOf_iff_suffix.mpr hfilter
  unfold endPadding
  by_cases htwo : ['=', '='].isSuffixOf text = true
  · rw [if_pos htwo, if_pos (hsuffix rfl htwo)]
  · rw [if_neg htwo]
    by_cases hone : ['='].isSuffixOf text = true
    · rw [if_pos hone, if_pos (hsuffix rfl hone)]
      split <;> omega
    · rw [if_neg hone]
      exact Nat.zero_le _

end CcbCore.Base64
