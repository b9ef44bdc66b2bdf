import CcbCore.Text.Postgres

/-!
# References in a text

The pattern by which `radar.reconcile_bus_receipts_v1` finds message ids in a reply's headers,
`([a-z][a-z0-9-]*-[0-9]{4}(~[0-9a-f]{16,64})?)`, and `regexp_matches` with it. A match starts as
early as one does and is as long as one is from there. Nothing ties it to the ends of an id: a
match is a part of the text (`mem_regexpMatches`), which may be a part of a longer id
(`isToken`).
-/

namespace CcbCore.Receipts

open CcbCore.Postgres

/-! ### The pattern -/

/-- `[a-z]`. -/
def isLetter (c : Char) : Bool := 'a' ≤ c ∧ c ≤ 'z'

/-- `[0-9]`. -/
def isDigit (c : Char) : Bool := '0' ≤ c ∧ c ≤ '9'

/-- `[a-z0-9-]`. -/
def isNameChar (c : Char) : Bool := isLetter c || isDigit c || c = '-'

/-- `[a-z][a-z0-9-]*-[0-9]{4}`: a name, whose last five characters are a hyphen and digits. -/
def isDeclared : List Char → Bool
  | [] => false
  | c :: rest =>
    isLetter c && (rest.take (rest.length - 5)).all isNameChar &&
      match rest.drop (rest.length - 5) with
      | '-' :: number => number.length = 4 && number.all isDigit
      | _ => false

/-- `(~[0-9a-f]{16,64})?`. -/
def isQualifier : List Char → Bool
  | [] => true
  | c :: hash => c = '~' && (16 ≤ hash.length && hash.length ≤ 64) && hash.all isHexDigit

/-- The pattern matches the whole of `w`. -/
def isReference (w : List Char) : Bool := isDeclared (w.takeWhile (· ≠ '~')) && isQualifier (w.dropWhile (· ≠ '~'))

/-- How long the longest match is at the start of a text. -/
def longestReference (text : List Char) : Option ℕ :=
  (List.range (text.length + 1)).reverse.find? fun n => isReference (text.take n)

/-- The matches of a text, of which so many characters belong to the last match. -/
def matchesFrom : ℕ → List Char → List (List Char)
  | _, [] => []
  | skip + 1, _ :: text => matchesFrom skip text
  | 0, c :: text =>
    match longestReference (c :: text) with
    | some n => (c :: text).take n :: matchesFrom (n - 1) text
    | none => matchesFrom 0 text

/-- `regexp_matches(text, pattern, 'g')`. -/
def regexpMatches (text : List Char) : List (List Char) := matchesFrom 0 text

theorem longestReference_eq_some {text : List Char} {n : ℕ} (h : longestReference text = some n) :
    isReference (text.take n) = true := by
  simpa using List.find?_some h

/-- **A match is of the pattern, and a part of the text.** -/
theorem mem_regexpMatches {text w : List Char} (h : w ∈ regexpMatches text) : isReference w = true ∧ w <:+: text := by
  have hfrom (skip : ℕ) (text : List Char) (h : w ∈ matchesFrom skip text) : isReference w = true ∧ w <:+: text := by
    induction text generalizing skip with
    | nil =>
      cases skip <;> cases h
    | cons c text ih =>
      cases skip with
      | succ skip =>
        obtain ⟨hw, hinfix⟩ := ih skip h
        exact ⟨hw, hinfix.trans (List.suffix_cons c text).isInfix⟩
      | zero =>
        rw [matchesFrom] at h
        split at h
        · next n hn =>
          rcases List.mem_cons.mp h with rfl | h
          · exact ⟨longestReference_eq_some hn, (List.take_prefix _ _).isInfix⟩
          · obtain ⟨hw, hinfix⟩ := ih (n - 1) h
            exact ⟨hw, hinfix.trans (List.suffix_cons c text).isInfix⟩
        · obtain ⟨hw, hinfix⟩ := ih 0 h
          exact ⟨hw, hinfix.trans (List.suffix_cons c text).isInfix⟩
  exact hfrom 0 text h

/-! ### Tokens -/

/-- A character that a message id may have. -/
def isIdChar (c : Char) : Bool :=
  isLetter c || ('A' ≤ c && c ≤ 'Z') || isDigit c || c = '-' || c = '_' || c = '.' || c = '~'

/-- The text has `w` at the place, and no character of an id on either side of it. -/
def isTokenAt (w text : List Char) (i : ℕ) : Bool :=
  w.isPrefixOf (text.drop i) && !(text.take i).getLast?.any isIdChar && !(text.drop (i + w.length)).head?.any isIdChar

/-- `w` is a whole token of the text. -/
def isToken (w text : List Char) : Bool := w ≠ [] && (List.range (text.length + 1)).any (isTokenAt w text)

end CcbCore.Receipts
