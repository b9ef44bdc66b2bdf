import Mathlib.Data.List.Perm.Basic
import Mathlib.Data.Nat.Basic
import Mathlib.Order.Lattice
import Mathlib.Tactic.Common

/-!
# Binary heaps in a list

The functions of Python's `heapq`, for items that compare by a key: position `i` is above
the positions `2 * i + 1` and `2 * i + 2`, and no item is less than the one above it. An
item that moves changes places with the items on its way, where `heapq` moves them past a
hole; the lists are the same.

* `heappush` and `heappop` keep a heap a heap; what is popped is a least item
  (`heappop_ordered`, `heappop_least`), and `heapify` makes a heap of any list.
* None of them loses or doubles an item (`heappush_perm`, `heappop_perm`, `heapify_perm`).
-/

namespace CcbCore.BinaryHeap

variable {α κ : Type*} [LinearOrder κ] (key : α → κ)

/-- The position above another. -/
def parent (i : ℕ) : ℕ := (i - 1) / 2

theorem parent_lt {i : ℕ} (h : 0 < i) : parent i < i := by
  unfold parent
  omega

theorem parent_le (i : ℕ) : parent i ≤ i := (Nat.div_le_self _ _).trans (Nat.sub_le _ _)

/-- Two items change places. -/
def swap (l : List α) (i j : ℕ) (hi : i < l.length) (hj : j < l.length) : List α := (l.set i l[j]).set j l[i]

section Swap

variable {l : List α} {i j k : ℕ} {hi : i < l.length} {hj : j < l.length}

@[simp] theorem length_swap : (swap l i j hi hj).length = l.length := by
  simp [swap]

theorem getElem_swap (hk : k < (swap l i j hi hj).length) :
    (swap l i j hi hj)[k] = if j = k then l[i] else if i = k then l[j] else getElem l k (by simpa using hk) := by
  simp only [swap, List.getElem_set]

theorem swap_perm : (swap l i j hi hj).Perm l := List.set_set_perm hi hj

end Swap

/-! ### The functions -/

/-- `_siftdown`: an item goes up, not above `start`, while it is less than the one above. -/
def siftdown (l : List α) (start pos : ℕ) (hpos : pos < l.length) : List α :=
  if h : start < pos then
    have hup : parent pos < pos := parent_lt (by omega)
    if key l[pos] < key (getElem l (parent pos) (hup.trans hpos)) then
      siftdown (swap l pos (parent pos) hpos (hup.trans hpos)) start (parent pos) (by simpa using hup.trans hpos)
    else l
  else l
termination_by pos

/-- The position of the lesser item below a position. -/
def lesserChild (l : List α) (pos : ℕ) (h : 2 * pos + 1 < l.length) : ℕ :=
  if hright : 2 * pos + 2 < l.length then
    if key l[2 * pos + 1] < key l[2 * pos + 2] then 2 * pos + 1 else 2 * pos + 2
  else 2 * pos + 1

theorem lesserChild_cases (l : List α) (pos : ℕ) (h : 2 * pos + 1 < l.length) :
    pos < lesserChild key l pos h ∧ lesserChild key l pos h < l.length ∧ parent (lesserChild key l pos h) = pos := by
  unfold lesserChild parent
  split
  · split
    · exact ⟨by omega, h, by omega⟩
    · next hright _ => exact ⟨by omega, hright, by omega⟩
  · exact ⟨by omega, h, by omega⟩

/-- The first loop of `_siftup`: an item goes down to where nothing is below it. -/
def sink (l : List α) (pos : ℕ) (hpos : pos < l.length) : (l' : List α) × { leaf : ℕ // leaf < l'.length } :=
  if h : 2 * pos + 1 < l.length then
    have hchild := lesserChild_cases key l pos h
    sink (swap l pos (lesserChild key l pos h) hpos hchild.2.1) (lesserChild key l pos h) (by simpa using hchild.2.1)
  else ⟨l, pos, hpos⟩
termination_by l.length - pos
decreasing_by
  have := hchild.1
  have := hchild.2.1
  simp only [length_swap]
  omega

/-- `_siftup`: an item goes down to a leaf and from there up to its place. -/
def siftup (l : List α) (pos : ℕ) (hpos : pos < l.length) : List α :=
  siftdown key (sink key l pos hpos).1 pos (sink key l pos hpos).2.1 (sink key l pos hpos).2.2

/-- `heappush`. -/
def heappush (l : List α) (a : α) : List α := siftdown key (l ++ [a]) 0 l.length (by simp)

/-- `heappop`: the item, and the heap without it; an empty heap has none. -/
def heappop (l : List α) : Option (α × List α) :=
  match l with
  | [] => none
  | [last] => some (last, [])
  | first :: second :: rest =>
    some (first, siftup key ((second :: rest).getLast (by simp) :: (second :: rest).dropLast) 0 (by simp))

/-! ### No item is lost -/

theorem siftdown_perm (l : List α) (start pos : ℕ) (hpos : pos < l.length) : (siftdown key l start pos hpos).Perm l := by
  fun_induction siftdown key l start pos hpos with
  | case1 l pos hpos h hup hlt ih => exact ih.trans swap_perm
  | case2 => exact .refl _
  | case3 => exact .refl _

theorem sink_perm (l : List α) (pos : ℕ) (hpos : pos < l.length) : (sink key l pos hpos).1.Perm l := by
  fun_induction sink key l pos hpos with
  | case1 l pos hpos h hchild ih => exact ih.trans swap_perm
  | case2 => exact .refl _

theorem siftup_perm (l : List α) (pos : ℕ) (hpos : pos < l.length) : (siftup key l pos hpos).Perm l :=
  (siftdown_perm key _ _ _ _).trans (sink_perm key l pos hpos)

/-- The loop of `heapify`, over the positions below a bound, the last of them first. -/
def heapifyBelow (l : List α) : (n : ℕ) → n ≤ l.length → List α
  | 0, _ => l
  | n + 1, h => heapifyBelow (siftup key l n h) n (by rw [(siftup_perm key l n h).length_eq]; omega)

/-- `heapify`. -/
def heapify (l : List α) : List α := heapifyBelow key l (l.length / 2) (Nat.div_le_self _ _)

theorem heapifyBelow_perm (l : List α) (n : ℕ) (h : n ≤ l.length) : (heapifyBelow key l n h).Perm l := by
  fun_induction heapifyBelow key l n h with
  | case1 => exact .refl _
  | case2 l n h ih => exact ih.trans (siftup_perm key l n h)

theorem heapify_perm (l : List α) : (heapify key l).Perm l := heapifyBelow_perm key l _ _

theorem heappush_perm (l : List α) (a : α) : (heappush key l a).Perm (a :: l) :=
  (siftdown_perm key _ _ _ _).trans (List.perm_append_singleton a l)

theorem heappop_perm {l l' : List α} {a : α} (h : heappop key l = some (a, l')) : l.Perm (a :: l') := by
  match l with
  | [] => cases h
  | [last] =>
    cases h
    exact .refl _
  | first :: second :: rest =>
    obtain ⟨rfl, rfl⟩ := Prod.mk.inj (Option.some.inj h)
    have hsplit : (second :: rest).dropLast ++ [(second :: rest).getLast (by simp)] = second :: rest :=
      List.dropLast_append_getLast (by simp)
    refine .cons _ (.trans ?_ (siftup_perm key _ _ _).symm)
    conv_lhs => rw [← hsplit]
    exact List.perm_append_singleton _ _

theorem heappop_eq_none {l : List α} : heappop key l = none ↔ l = [] := by
  match l with
  | [] => simp [heappop]
  | [last] => simp [heappop]
  | first :: second :: rest => simp [heappop]

/-! ### Heaps -/

/-- No item from a position down is less than the one above it. -/
def OrderedFrom (l : List α) (start : ℕ) : Prop :=
  ∀ i (hi : i < l.length) (h : 0 < i), start ≤ parent i → key (getElem l (parent i) ((parent_lt h).trans hi)) ≤ key l[i]

/-- No item is less than the one above it. -/
def Ordered (l : List α) : Prop := OrderedFrom key l 0

/-- A position on the way down from another. -/
inductive Under (start : ℕ) : ℕ → Prop where
  | here : Under start start
  | lower {i : ℕ} : 0 < i → Under start (parent i) → Under start i

theorem Under.le {start pos : ℕ} (h : Under start pos) : start ≤ pos := by
  induction h with
  | here => exact le_rfl
  | lower hi _ ih => exact ih.trans (parent_lt hi).le

theorem under_zero (pos : ℕ) : Under 0 pos := by
  induction pos using Nat.strongRecOn with
  | _ pos ih =>
    cases pos with
    | zero => exact .here
    | succ n => exact .lower (Nat.succ_pos n) (ih _ (parent_lt (Nat.succ_pos n)))

/-- An item that may have to go up: the others are in order, and the items below it are with
the one above it. -/
structure UpOrder (l : List α) (start pos : ℕ) : Prop where
  inside : pos < l.length
  under : Under start pos
  others : ∀ i (hi : i < l.length) (h : 0 < i), start ≤ parent i → i ≠ pos →
    key (getElem l (parent i) ((parent_lt h).trans hi)) ≤ key l[i]
  across : ∀ i (hi : i < l.length), parent i = pos → start < pos →
    key (getElem l (parent pos) ((parent_le pos).trans_lt inside)) ≤ key l[i]

/-- An item that may have to go down. -/
structure DownOrder (l : List α) (start pos : ℕ) : Prop where
  inside : pos < l.length
  under : Under start pos
  others : ∀ i (hi : i < l.length) (h : 0 < i), start ≤ parent i → i ≠ pos → parent i ≠ pos →
    key (getElem l (parent i) ((parent_lt h).trans hi)) ≤ key l[i]
  across : ∀ i (hi : i < l.length), parent i = pos → start < pos →
    key (getElem l (parent pos) ((parent_le pos).trans_lt inside)) ≤ key l[i]

section Moves

variable {key} {l : List α} {start pos : ℕ}

theorem Under.up (h : Under start pos) (hlt : start < pos) : Under start (parent pos) := by
  cases h with
  | here => exact absurd hlt (lt_irrefl _)
  | lower _ h => exact h

/-- An item goes up that is less than the one above it. -/
theorem UpOrder.move (h : UpOrder key l start pos) (hlt : start < pos)
    (hless : key (getElem l pos h.inside) < key (getElem l (parent pos) ((parent_le pos).trans_lt h.inside))) :
    UpOrder key (swap l pos (parent pos) h.inside ((parent_le pos).trans_lt h.inside)) start (parent pos) := by
  have hup : parent pos < pos := parent_lt (by omega)
  refine ⟨by simpa using hup.trans h.inside, h.under.up hlt, fun i hi hpos hstart hne => ?_, fun i hi hchild hstart => ?_⟩
  · rw [length_swap] at hi
    have hparent := parent_lt hpos
    simp only [getElem_swap, if_neg (Ne.symm hne)]
    by_cases hi' : pos = i
    · subst hi'
      rw [if_pos rfl, if_pos rfl]
      exact hless.le
    · rw [if_neg hi']
      by_cases hsibling : parent pos = parent i
      · rw [if_pos hsibling]
        have hold := h.others i hi hpos hstart (Ne.symm hi')
        simp only [← hsibling] at hold
        exact hless.le.trans hold
      · rw [if_neg hsibling]
        by_cases hchild : pos = parent i
        · rw [if_pos hchild]
          exact h.across i hi hchild.symm hlt
        · rw [if_neg hchild]
          exact h.others i hi hpos hstart (Ne.symm hi')
  · rw [length_swap] at hi
    have hpos : 0 < i := by
      by_contra hzero
      obtain rfl : i = 0 := by omega
      have hroot : parent 0 = 0 := rfl
      omega
    have hroot : parent (parent pos) < parent pos := parent_lt (by omega)
    have habove := h.others (parent pos) (hup.trans h.inside) (by omega)
      ((h.under.up hlt).up hstart).le (by omega)
    have hne : parent pos ≠ i := by
      have := parent_lt hpos
      omega
    rw [getElem_swap, getElem_swap, if_neg (show parent pos ≠ parent (parent pos) by omega),
      if_neg (show pos ≠ parent (parent pos) by omega), if_neg hne]
    by_cases hi' : pos = i
    · rw [if_pos hi']
      exact habove
    · rw [if_neg hi']
      have hold := h.others i hi hpos (hchild ▸ (h.under.up hlt).le) (Ne.symm hi')
      simp only [hchild] at hold
      exact habove.trans hold

theorem UpOrder.finish (h : UpOrder key l start pos)
    (hstop : start < pos → key (getElem l (parent pos) ((parent_le pos).trans_lt h.inside)) ≤ key (getElem l pos h.inside)) :
    OrderedFrom key l start := by
  intro i hi hpos hstart
  by_cases hi' : i = pos
  · subst hi'
    have := parent_lt hpos
    exact hstop (by omega)
  · exact h.others i hi hpos hstart hi'

/-- An item goes down, and the lesser one below it comes up. -/
theorem DownOrder.move (h : DownOrder key l start pos) (hbelow : 2 * pos + 1 < l.length) :
    DownOrder key (swap l pos (lesserChild key l pos hbelow) h.inside (lesserChild_cases key l pos hbelow).2.1) start
      (lesserChild key l pos hbelow) := by
  obtain ⟨hdown, hinside, hchild⟩ := lesserChild_cases key l pos hbelow
  have hleast : ∀ i (hi : i < l.length), 0 < i → parent i = pos → key (getElem l (lesserChild key l pos hbelow) hinside) ≤ key l[i] := by
    intro i hi hpos hi'
    have hsides : i = 2 * pos + 1 ∨ i = 2 * pos + 2 := by
      simp only [parent] at hi'
      omega
    unfold lesserChild
    by_cases hright : 2 * pos + 2 < l.length
    · simp only [dif_pos hright]
      by_cases hless : key l[2 * pos + 1] < key l[2 * pos + 2]
      · simp only [if_pos hless]
        rcases hsides with rfl | rfl
        · exact le_rfl
        · exact hless.le
      · simp only [if_neg hless]
        rcases hsides with rfl | rfl
        · exact not_lt.mp hless
        · exact le_rfl
    · simp only [dif_neg hright]
      rcases hsides with rfl | rfl
      · exact le_rfl
      · exact absurd hi hright
  generalize hc : lesserChild key l pos hbelow = child at hdown hinside hchild hleast
  refine ⟨by simpa using hinside, .lower (by omega) (hchild ▸ h.under), fun i hi hpos hstart hne hother => ?_,
    fun i hi hparent hstart => ?_⟩
  · rw [length_swap] at hi
    simp only [getElem_swap, if_neg (Ne.symm hne), if_neg (Ne.symm hother)]
    by_cases hi' : pos = i
    · subst hi'
      have hself := parent_lt hpos
      rw [if_neg (by omega), if_pos rfl]
      exact h.across child hinside hchild (by omega)
    · rw [if_neg hi']
      by_cases hbrother : pos = parent i
      · rw [if_pos hbrother]
        exact hleast i hi hpos hbrother.symm
      · rw [if_neg hbrother]
        exact h.others i hi hpos hstart (Ne.symm hi') (Ne.symm hbrother)
  · rw [length_swap] at hi
    have hpos : 0 < i := by
      by_contra hzero
      obtain rfl : i = 0 := by omega
      have hroot : parent 0 = 0 := rfl
      omega
    have hlower := parent_lt hpos
    simp only [getElem_swap, hchild, if_neg (show child ≠ i by omega), if_neg (show pos ≠ i by omega), if_neg (show child ≠ pos by omega)]
    have hold := h.others i hi hpos (hparent ▸ h.under.le.trans hdown.le) (by omega) (by omega)
    simpa only [hparent, if_true] using hold

/-- An item with nothing below it may have to go up. -/
theorem DownOrder.turn (h : DownOrder key l start pos) (hleaf : ¬ 2 * pos + 1 < l.length) : UpOrder key l start pos := by
  refine ⟨h.inside, h.under, fun i hi hpos hstart hne => h.others i hi hpos hstart hne fun heq => hleaf ?_, fun i hi heq hlt => ?_⟩
  · simp only [parent] at heq
    omega
  · refine absurd ?_ hleaf
    have := h.under.le
    simp only [parent] at heq
    omega

theorem siftdown_ordered (h : UpOrder key l start pos) : OrderedFrom key (siftdown key l start pos h.inside) start := by
  induction pos using Nat.strongRecOn generalizing l with
  | _ pos ih =>
    rw [siftdown]
    by_cases hlt : start < pos
    · rw [dif_pos hlt]
      dsimp only
      split
      · next hless => exact ih (parent pos) (parent_lt (by omega)) (h.move hlt hless)
      · next hstop => exact h.finish fun _ => not_lt.mp hstop
    · rw [dif_neg hlt]
      exact h.finish fun hstart => absurd hstart hlt

/-- The leaf that an item sank to: it may have to go up again. -/
theorem sink_order (h : DownOrder key l start pos) :
    UpOrder key (sink key l pos h.inside).1 start (sink key l pos h.inside).2.1 := by
  let Sunk (r : (l' : List α) × { leaf : ℕ // leaf < l'.length }) : Prop := UpOrder key r.1 start r.2.1
  change Sunk (sink key l pos h.inside)
  induction hn : l.length - pos using Nat.strongRecOn generalizing l pos with
  | _ n ih =>
    rw [sink]
    by_cases hbelow : 2 * pos + 1 < l.length
    · rw [dif_pos hbelow]
      obtain ⟨hdown, hinside, -⟩ := lesserChild_cases key l pos hbelow
      exact ih _ (by rw [length_swap]; omega) (h.move hbelow) rfl
    · rw [dif_neg hbelow]
      exact h.turn hbelow

/-- The item at a position finds its place below it. -/
theorem siftup_ordered (hpos : pos < l.length) (h : OrderedFrom key l (pos + 1)) : OrderedFrom key (siftup key l pos hpos) pos := by
  have hdown : DownOrder key l pos pos := by
    refine ⟨hpos, .here, fun i hi hi' hstart _ hother => h i hi hi' (by omega), fun i _ _ hlt => absurd hlt (lt_irrefl _)⟩
  exact siftdown_ordered (sink_order hdown)

theorem heapifyBelow_ordered (l : List α) (n : ℕ) (h : n ≤ l.length) (hordered : OrderedFrom key l n) :
    Ordered key (heapifyBelow key l n h) := by
  fun_induction heapifyBelow key l n h with
  | case1 => exact hordered
  | case2 l n h ih => exact ih (siftup_ordered h hordered)

variable (key)

/-- `heapify` makes a heap. -/
theorem heapify_ordered (l : List α) : Ordered key (heapify key l) := by
  refine heapifyBelow_ordered l _ _ fun i hi hpos hstart => absurd hi ?_
  simp only [parent] at hstart
  omega

/-- A heap with one more item is a heap. -/
theorem heappush_ordered {l : List α} (h : Ordered key l) (a : α) : Ordered key (heappush key l a) := by
  refine siftdown_ordered ⟨by simp, under_zero _, fun i hi hpos hstart hne => ?_, fun i hi hparent hlt => ?_⟩
  · have hi' : i < l.length := by
      rw [List.length_append, List.length_singleton] at hi
      omega
    rw [List.getElem_append_left hi', List.getElem_append_left ((parent_lt hpos).trans hi')]
    exact h i hi' hpos hstart
  · rw [List.length_append, List.length_singleton] at hi
    simp only [parent] at hparent
    omega

/-- The item on top is a least one. -/
theorem Ordered.top_le {a : α} {rest : List α} (h : Ordered key (a :: rest)) : ∀ b ∈ rest, key a ≤ key b := by
  have hall : ∀ i (hi : i < (a :: rest).length), key a ≤ key (a :: rest)[i] := by
    intro i
    induction i using Nat.strongRecOn with
    | _ i ih =>
      intro hi
      rcases Nat.eq_zero_or_pos i with rfl | hpos
      · exact le_rfl
      · exact (ih (parent i) (parent_lt hpos) ((parent_lt hpos).trans hi)).trans (h i hi hpos (Nat.zero_le _))
  intro b hb
  obtain ⟨i, hi, rfl⟩ := List.getElem_of_mem hb
  exact hall (i + 1) (by simpa using hi)

/-- A heap without its top is a heap. -/
theorem heappop_ordered {l l' : List α} {a : α} (h : Ordered key l) (hpop : heappop key l = some (a, l')) : Ordered key l' := by
  match l with
  | [] => cases hpop
  | [last] =>
    cases hpop
    exact fun i hi => absurd hi (Nat.not_lt_zero _)
  | first :: second :: rest =>
    obtain ⟨-, rfl⟩ := Prod.mk.inj (Option.some.inj hpop)
    refine siftup_ordered _ fun i hi hpos hstart => ?_
    have hsize : i < (second :: rest).length := by simpa using hi
    have hkept : ∀ k (hk : k < ((second :: rest).getLast (by simp) :: (second :: rest).dropLast).length), 0 < k →
        ((second :: rest).getLast (by simp) :: (second :: rest).dropLast)[k] =
          getElem (first :: second :: rest) k (by simp at hk ⊢; omega) := by
      intro k hk hkpos
      obtain ⟨k, rfl⟩ := Nat.exists_eq_succ_of_ne_zero hkpos.ne'
      simp [List.getElem_dropLast]
    rw [hkept i hi hpos, hkept (parent i) ((parent_lt hpos).trans hi) (by omega)]
    exact h i _ hpos (Nat.zero_le _)

/-- What is popped is a least item. -/
theorem heappop_least {l l' : List α} {a : α} (h : Ordered key l) (hpop : heappop key l = some (a, l')) : ∀ b ∈ l', key a ≤ key b := by
  have hperm := heappop_perm key hpop
  match l with
  | [] => cases hpop
  | first :: rest =>
    have hfirst : a = first := by
      cases rest with
      | nil => exact ((Prod.mk.inj (Option.some.inj hpop)).1).symm
      | cons second rest => exact ((Prod.mk.inj (Option.some.inj hpop)).1).symm
    subst hfirst
    exact fun b hb => h.top_le key b (hperm.cons_inv.mem_iff.mpr hb)

end Moves

end CcbCore.BinaryHeap
