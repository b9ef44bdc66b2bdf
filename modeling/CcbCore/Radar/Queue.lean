import CcbCore.Library.BinaryHeap
import CcbCore.Radar.Routing
import Mathlib.Data.List.MinMax
import Mathlib.Data.Prod.Lex

/-!
# The queue, its heap, and the sorted list

`PriorityQueue` keeps its items in a heap, out of which a full queue takes its last item for
an envelope of priority zero. Over any calls it answers as a list does that is kept sorted,
each envelope behind those of its priority that came before it (`queue_is_sorted_list`). The
queue of the runtime's model, which has no heap but takes a least item out of a list, gives
the same answers (`priorityQueue_answers`).
-/

namespace CcbCore.Radar

open CcbCore.BinaryHeap CcbCore.Selection

variable {Opaque : Type}

/-- Tuples compare by their first parts, and by their second where these are equal. -/
instance keyOrder : LinearOrder (ℤ ×ₗ ℕ) := @Prod.Lex.instLinearOrder ℤ ℕ Int.instLinearOrder Nat.instLinearOrder

instance keyPreorder : Preorder (ℤ ×ₗ ℕ) := keyOrder.toPartialOrder.toPreorder

/-- What tuples compare by; their numbers differ, so that no two envelopes are compared. -/
def QueueItem.key (item : QueueItem Opaque) : ℤ ×ₗ ℕ := toLex (item.priority, item.counter)

/-! ### The queue with its heap -/

/-- A `PriorityQueue`, whose `_heap` is a heap. -/
structure HeapQueue (Opaque : Type) where
  maxSize : ℕ
  positive : 0 < maxSize
  counter : ℕ
  heap : List (QueueItem Opaque)

namespace HeapQueue

variable (q : HeapQueue Opaque)

/-- A new queue. -/
def new (maxSize : ℕ) (positive : 0 < maxSize) : HeapQueue Opaque := ⟨maxSize, positive, 0, []⟩

/-- The number of the next arrival is taken, also by a push that raises. -/
def count : HeapQueue Opaque := { q with counter := q.counter + 1 }

/-- The item of an envelope that arrives. -/
def arrival (envelope : RadarEnvelope Opaque) : QueueItem Opaque := ⟨envelope.priority, q.counter, envelope⟩

/-- `self._heap.remove(victim)`. -/
def remove (victim : QueueItem Opaque) : List (QueueItem Opaque) := q.heap.eraseP fun item => item.key = victim.key

/-- `push`: the envelope that was displaced, if any. -/
def push (envelope : RadarEnvelope Opaque) : Except Raised (Option (RadarEnvelope Opaque)) × HeapQueue Opaque :=
  if q.maxSize ≤ q.heap.length then
    if envelope.priority ≠ 0 then (.error (.overflowError "RADAR_QUEUE_FULL"), q.count)
    else
      match q.heap.argmax QueueItem.key with
      | none => (.error (.valueError "max() arg is an empty sequence"), q.count)
      | some victim =>
        if victim.priority = 0 then (.error (.overflowError "RADAR_QUEUE_FULL"), q.count)
        else (.ok (some victim.envelope),
          { q.count with heap := heappush QueueItem.key (heapify QueueItem.key (q.remove victim)) (q.arrival envelope) })
  else (.ok none, { q.count with heap := heappush QueueItem.key q.heap (q.arrival envelope) })

/-- `pop`. -/
def pop : Except Raised (RadarEnvelope Opaque) × HeapQueue Opaque :=
  match heappop QueueItem.key q.heap with
  | none => (.error (.indexError "RADAR_QUEUE_EMPTY"), q)
  | some (item, heap) => (.ok item.envelope, { q with heap })

/-- `clear`. -/
def clear : HeapQueue Opaque := { q with heap := [] }

end HeapQueue

/-! ### The sorted list -/

namespace SortedQueue

/-- The list with an envelope behind all whose number is not greater. -/
def insert (envelope : RadarEnvelope Opaque) (l : List (RadarEnvelope Opaque)) : List (RadarEnvelope Opaque) :=
  l.takeWhile (·.priority ≤ envelope.priority) ++ envelope :: l.dropWhile (·.priority ≤ envelope.priority)

/-- A push: into a full list only an envelope of priority zero comes, for the last one, which
is not of priority zero. -/
def push (maxSize : ℕ) (envelope : RadarEnvelope Opaque) (l : List (RadarEnvelope Opaque)) :
    Except Raised (Option (RadarEnvelope Opaque)) × List (RadarEnvelope Opaque) :=
  if l.length < maxSize then (.ok none, insert envelope l)
  else if envelope.priority ≠ 0 then (.error (.overflowError "RADAR_QUEUE_FULL"), l)
  else
    match l.getLast? with
    | none => (.error (.overflowError "RADAR_QUEUE_FULL"), l)
    | some last =>
      if last.priority = 0 then (.error (.overflowError "RADAR_QUEUE_FULL"), l)
      else (.ok (some last), insert envelope l.dropLast)

/-- A pop: the first envelope. -/
def pop : List (RadarEnvelope Opaque) → Except Raised (RadarEnvelope Opaque) × List (RadarEnvelope Opaque)
  | [] => (.error (.indexError "RADAR_QUEUE_EMPTY"), [])
  | first :: rest => (.ok first, rest)

end SortedQueue

/-! ### Calls -/

/-- A call of a queue. -/
inductive QueueCall (Opaque : Type) where
  | push (envelope : RadarEnvelope Opaque)
  | pop
  | clear

/-- What a call returns: an envelope, or none. -/
abbrev QueueAnswer (Opaque : Type) := Except Raised (Option (RadarEnvelope Opaque))

/-- A call of the queue. -/
def HeapQueue.call (q : HeapQueue Opaque) : QueueCall Opaque → QueueAnswer Opaque × HeapQueue Opaque
  | .push envelope => q.push envelope
  | .pop => (q.pop.1.map some, q.pop.2)
  | .clear => (.ok none, q.clear)

/-- The same call of the list. -/
def SortedQueue.call (maxSize : ℕ) (l : List (RadarEnvelope Opaque)) :
    QueueCall Opaque → QueueAnswer Opaque × List (RadarEnvelope Opaque)
  | .push envelope => SortedQueue.push maxSize envelope l
  | .pop => ((SortedQueue.pop l).1.map some, (SortedQueue.pop l).2)
  | .clear => (.ok none, [])

/-- The same call of the queue without a heap. -/
def PriorityQueue.call (q : PriorityQueue Opaque) : QueueCall Opaque → QueueAnswer Opaque × PriorityQueue Opaque
  | .push envelope => q.push envelope
  | .pop =>
    match q.pop with
    | .error e => (.error e, q)
    | .ok (envelope, q') => (.ok (some envelope), q')
  | .clear => (.ok none, { q with heap := [] })

/-- The answers of some calls, and the state after them. -/
def answers {σ : Type} (call : σ → QueueCall Opaque → QueueAnswer Opaque × σ) (s : σ) :
    List (QueueCall Opaque) → List (QueueAnswer Opaque) × σ
  | [] => ([], s)
  | c :: calls => ((call s c).1 :: (answers call (call s c).2 calls).1, (answers call (call s c).2 calls).2)

/-! ### What a list of items stands for -/

/-- The items of a list, sorted by their priorities and then by their arrival. -/
structure Lists (heap : List (QueueItem Opaque)) (counter : ℕ) (l : List (RadarEnvelope Opaque)) : Prop where
  sorted : ∃ items : List (QueueItem Opaque), items.Perm heap ∧ items.Pairwise (·.key < ·.key) ∧ l = items.map (·.envelope)
  numbered : ∀ item ∈ heap, item.priority = item.envelope.priority ∧ item.counter < counter

namespace Lists

variable {heap heap' others : List (QueueItem Opaque)} {counter : ℕ} {l : List (RadarEnvelope Opaque)} {item : QueueItem Opaque}

theorem lt_iff {a b : QueueItem Opaque} : a.key < b.key ↔ a.priority < b.priority ∨ (a.priority = b.priority ∧ a.counter < b.counter) :=
  Prod.Lex.toLex_lt_toLex

theorem le_iff {a b : QueueItem Opaque} : a.key ≤ b.key ↔ a.priority < b.priority ∨ (a.priority = b.priority ∧ a.counter ≤ b.counter) :=
  Prod.Lex.toLex_le_toLex

theorem length (h : Lists heap counter l) : l.length = heap.length := by
  obtain ⟨items, hperm, -, rfl⟩ := h.sorted
  rw [List.length_map, hperm.length_eq]

/-- An item is known by its key. -/
theorem eq_of_key (h : Lists heap counter l) {a b : QueueItem Opaque} (ha : a ∈ heap) (hb : b ∈ heap) (hkey : a.key = b.key) : a = b := by
  obtain ⟨items, hperm, hsorted, -⟩ := h.sorted
  have hnodup : (items.map QueueItem.key).Nodup := List.pairwise_map.mpr (hsorted.imp fun hlt => hlt.ne)
  exact List.inj_on_of_nodup_map hnodup (hperm.mem_iff.mpr ha) (hperm.mem_iff.mpr hb) hkey

theorem nil (counter : ℕ) : Lists ([] : List (QueueItem Opaque)) counter [] :=
  ⟨⟨[], .refl _, .nil, rfl⟩, fun _ hmem => absurd hmem List.not_mem_nil⟩

theorem count (h : Lists heap counter l) : Lists heap (counter + 1) l :=
  ⟨h.sorted, fun item hitem => ⟨(h.numbered item hitem).1, (h.numbered item hitem).2.trans (Nat.lt_succ_self _)⟩⟩

/-- An envelope that arrives goes behind all that are not after it. -/
theorem insert (h : Lists heap counter l) (envelope : RadarEnvelope Opaque)
    (hperm' : heap'.Perm (⟨envelope.priority, counter, envelope⟩ :: heap)) : Lists heap' (counter + 1) (SortedQueue.insert envelope l) := by
  obtain ⟨items, hperm, hsorted, rfl⟩ := h.sorted
  have hnumbered : ∀ item ∈ items, item.priority = item.envelope.priority ∧ item.counter < counter := fun item hitem =>
    h.numbered item (hperm.mem_iff.mp hitem)
  let new : QueueItem Opaque := ⟨envelope.priority, counter, envelope⟩
  let early : QueueItem Opaque → Bool := fun item => item.envelope.priority ≤ envelope.priority
  have hsplit : items.takeWhile early ++ items.dropWhile early = items := List.takeWhile_append_dropWhile
  have hlate : ∀ item ∈ items.dropWhile early, envelope.priority < item.priority := by
    cases hdrop : items.dropWhile early with
    | nil => exact fun item hitem => absurd hitem List.not_mem_nil
    | cons first rest =>
      have hstop := List.head?_dropWhile_not early items
      rw [hdrop, List.head?_cons] at hstop
      have hmem : first ∈ items := (List.dropWhile_sublist _).subset (hdrop ▸ List.mem_cons_self)
      have hfirst : envelope.priority < first.priority := by
        rw [(hnumbered first hmem).1]
        simpa [early] using hstop
      have hrest : (first :: rest).Pairwise (·.key < ·.key) := hdrop ▸ hsorted.sublist (List.dropWhile_sublist _)
      intro item hitem
      rcases List.mem_cons.mp hitem with rfl | hlater
      · exact hfirst
      · rcases lt_iff.mp (List.rel_of_pairwise_cons hrest hlater) with hlt | ⟨heq, -⟩
        · exact hfirst.trans hlt
        · exact heq ▸ hfirst
  refine ⟨⟨items.takeWhile early ++ new :: items.dropWhile early, ?_, ?_, ?_⟩, fun item hitem => ?_⟩
  · refine List.perm_middle.trans (.trans (.cons _ ?_) hperm'.symm)
    rwa [hsplit]
  · refine List.pairwise_append.mpr ⟨hsorted.sublist (List.takeWhile_sublist _), List.pairwise_cons.mpr
      ⟨fun item hitem => lt_iff.mpr (.inl (hlate item hitem)), hsorted.sublist (List.dropWhile_sublist _)⟩, fun a ha b hb => ?_⟩
    have hmem : a ∈ items := (List.takeWhile_sublist _).subset ha
    have hearly : a.priority ≤ envelope.priority := by
      have hpassed : early a = true := List.mem_takeWhile_imp ha
      rw [(hnumbered a hmem).1]
      exact of_decide_eq_true hpassed
    rcases List.mem_cons.mp hb with rfl | hb
    · rcases hearly.lt_or_eq with hlt | heq
      · exact lt_iff.mpr (.inl hlt)
      · exact lt_iff.mpr (.inr ⟨heq, (hnumbered a hmem).2⟩)
    · exact lt_iff.mpr (.inl (hearly.trans_lt (hlate b hb)))
  · rw [SortedQueue.insert, List.takeWhile_map, List.dropWhile_map, List.map_append, List.map_cons]
    rfl
  · rcases List.mem_cons.mp (hperm'.mem_iff.mp hitem) with rfl | hold
    · exact ⟨rfl, Nat.lt_succ_self _⟩
    · exact ⟨(h.numbered item hold).1, (h.numbered item hold).2.trans (Nat.lt_succ_self _)⟩

/-- The least item is the first of the list. -/
theorem pop (h : Lists heap counter l) (hperm' : heap.Perm (item :: others)) (hleast : ∀ b ∈ others, item.key ≤ b.key) :
    ∃ rest, l = item.envelope :: rest ∧ Lists others counter rest := by
  obtain ⟨items, hperm, hsorted, rfl⟩ := h.sorted
  have hitem : item ∈ heap := hperm'.mem_iff.mpr List.mem_cons_self
  cases items with
  | nil => exact absurd (hperm.mem_iff.mpr hitem) List.not_mem_nil
  | cons first rest =>
    have hfirst : first ∈ heap := hperm.mem_iff.mp List.mem_cons_self
    have hle : item.key ≤ first.key := by
      rcases List.mem_cons.mp (hperm'.mem_iff.mp hfirst) with rfl | hmem
      · exact le_rfl
      · exact hleast first hmem
    have hge : first.key ≤ item.key := by
      rcases List.mem_cons.mp (hperm.mem_iff.mpr hitem) with rfl | hmem
      · exact le_rfl
      · exact (List.rel_of_pairwise_cons hsorted hmem).le
    obtain rfl := h.eq_of_key hitem hfirst (le_antisymm hle hge)
    have hrest : rest.Perm others := (hperm.trans hperm').cons_inv
    exact ⟨_, rfl, ⟨rest, hrest, hsorted.of_cons, rfl⟩,
      fun other hother => h.numbered other (hperm'.mem_iff.mpr (List.mem_cons_of_mem _ hother))⟩

/-- The greatest item is the last of the list. -/
theorem evict (h : Lists heap counter l) (hperm' : heap.Perm (item :: others)) (hgreatest : ∀ b ∈ others, b.key ≤ item.key) :
    l.getLast? = some item.envelope ∧ Lists others counter l.dropLast := by
  obtain ⟨items, hperm, hsorted, rfl⟩ := h.sorted
  have hitem : item ∈ heap := hperm'.mem_iff.mpr List.mem_cons_self
  rcases items.eq_nil_or_concat' with rfl | ⟨front, last, rfl⟩
  · exact absurd (hperm.mem_iff.mpr hitem) List.not_mem_nil
  have hlast : last ∈ heap := hperm.mem_iff.mp (by simp)
  have hle : last.key ≤ item.key := by
    rcases List.mem_cons.mp (hperm'.mem_iff.mp hlast) with rfl | hmem
    · exact le_rfl
    · exact hgreatest last hmem
  have hge : item.key ≤ last.key := by
    rcases List.mem_append.mp (hperm.mem_iff.mpr hitem) with hmem | hmem
    · exact ((List.pairwise_append.mp hsorted).2.2 item hmem last List.mem_cons_self).le
    · obtain rfl := List.mem_singleton.mp hmem
      exact le_rfl
  obtain rfl := h.eq_of_key hitem hlast (le_antisymm hge hle)
  have hfront : front.Perm others := ((List.perm_append_singleton _ _).symm.trans (hperm.trans hperm')).cons_inv
  refine ⟨by simp, ⟨front, hfront, (List.pairwise_append.mp hsorted).1, by simp⟩, ?_⟩
  exact fun other hother => h.numbered other (hperm'.mem_iff.mpr (List.mem_cons_of_mem _ hother))

end Lists

/-! ### The heap is the sorted list -/

/-- A queue holds what a sorted list has, in a heap and within its bound. -/
structure HeapQueue.Refines (q : HeapQueue Opaque) (l : List (RadarEnvelope Opaque)) : Prop where
  ordered : Ordered QueueItem.key q.heap
  lists : Lists q.heap q.counter l
  bounded : l.length ≤ q.maxSize

section Refinement

variable {q : HeapQueue Opaque} {l : List (RadarEnvelope Opaque)}

theorem SortedQueue.length_insert (envelope : RadarEnvelope Opaque) (l : List (RadarEnvelope Opaque)) :
    (SortedQueue.insert envelope l).length = l.length + 1 := by
  have hsplit := congrArg List.length (List.takeWhile_append_dropWhile (p := (·.priority ≤ envelope.priority)) (l := l))
  simp only [SortedQueue.insert, List.length_append, List.length_cons] at hsplit ⊢
  omega

/-- The victim is taken out of the heap. -/
theorem remove_perm (h : Lists q.heap q.counter l) {victim : QueueItem Opaque} (hvictim : victim ∈ q.heap) :
    q.heap.Perm (victim :: q.remove victim) := by
  obtain ⟨found, before, after, -, hkey, hheap, hrest⟩ :=
    List.exists_of_eraseP (p := fun item => decide (item.key = victim.key)) hvictim (decide_eq_true rfl)
  have hsame : found = victim := h.eq_of_key (hheap ▸ by simp) hvictim (of_decide_eq_true hkey)
  rw [HeapQueue.remove, hrest, ← hsame]
  conv_lhs => rw [hheap]
  exact List.perm_middle

/-- A push answers as the list does. -/
theorem HeapQueue.Refines.push (h : q.Refines l) (envelope : RadarEnvelope Opaque) :
    (q.push envelope).1 = (SortedQueue.push q.maxSize envelope l).1 ∧
      (q.push envelope).2.Refines (SortedQueue.push q.maxSize envelope l).2 := by
  have hlength := h.lists.length
  have hkept : q.count.Refines l := ⟨h.ordered, h.lists.count, h.bounded⟩
  unfold HeapQueue.push SortedQueue.push
  by_cases hfull : q.maxSize ≤ q.heap.length
  · have hroom : ¬ l.length < q.maxSize := by omega
    rw [if_pos hfull, if_neg hroom]
    by_cases hpriority : envelope.priority ≠ 0
    · rw [if_pos hpriority, if_pos hpriority]
      exact ⟨rfl, hkept⟩
    rw [if_neg hpriority, if_neg hpriority]
    cases hmax : q.heap.argmax QueueItem.key with
    | none =>
      have hempty := List.argmax_eq_none.mp hmax
      have hpositive := q.positive
      rw [hempty, List.length_nil] at hfull
      omega
    | some victim =>
      have hvictim : victim ∈ q.heap := List.argmax_mem hmax
      have hperm := remove_perm h.lists hvictim
      obtain ⟨hlast, hothers⟩ := h.lists.evict hperm fun other hother =>
        List.le_of_mem_argmax (hperm.mem_iff.mpr (List.mem_cons_of_mem _ hother)) hmax
      have hsame := (h.lists.numbered victim hvictim).1
      rw [hlast]
      dsimp only
      by_cases hzero : victim.priority = 0
      · rw [if_pos hzero, if_pos (hsame ▸ hzero)]
        exact ⟨rfl, hkept⟩
      · rw [if_neg hzero, if_neg (hsame ▸ hzero)]
        refine ⟨rfl, heappush_ordered _ (heapify_ordered _ _) _, ?_, ?_⟩
        · exact hothers.insert envelope ((heappush_perm _ _ _).trans (.cons _ (heapify_perm _ _)))
        · have hbound := h.bounded
          rw [SortedQueue.length_insert, List.length_dropLast]
          change l.length - 1 + 1 ≤ q.maxSize
          have hpositive := q.positive
          omega
  · have hroom : l.length < q.maxSize := by omega
    rw [if_neg hfull, if_pos hroom]
    refine ⟨rfl, heappush_ordered _ h.ordered _, h.lists.insert envelope (heappush_perm _ _ _), ?_⟩
    rw [SortedQueue.length_insert]
    change l.length + 1 ≤ q.maxSize
    omega

/-- A pop answers as the list does. -/
theorem HeapQueue.Refines.pop (h : q.Refines l) :
    q.pop.1 = (SortedQueue.pop l).1 ∧ q.pop.2.Refines (SortedQueue.pop l).2 := by
  unfold HeapQueue.pop
  cases hpop : heappop QueueItem.key q.heap with
  | none =>
    have hempty := (heappop_eq_none _).mp hpop
    have hlength := h.lists.length
    rw [hempty, List.length_nil, List.length_eq_zero_iff] at hlength
    subst hlength
    exact ⟨rfl, h⟩
  | some popped =>
    obtain ⟨item, heap⟩ := popped
    obtain ⟨rest, rfl, hrest⟩ := h.lists.pop (heappop_perm _ hpop) (heappop_least _ h.ordered hpop)
    exact ⟨rfl, heappop_ordered _ h.ordered hpop, hrest, (Nat.le_succ _).trans h.bounded⟩

/-- Every call answers as the list does. -/
theorem HeapQueue.Refines.call (h : q.Refines l) (c : QueueCall Opaque) :
    (q.call c).1 = (SortedQueue.call q.maxSize l c).1 ∧ (q.call c).2.Refines (SortedQueue.call q.maxSize l c).2 ∧
      (q.call c).2.maxSize = q.maxSize := by
  cases c with
  | push envelope =>
    obtain ⟨hanswer, hrefines⟩ := h.push envelope
    refine ⟨hanswer, hrefines, ?_⟩
    simp only [HeapQueue.call, HeapQueue.push]
    split
    · split
      · rfl
      · split
        · rfl
        · split <;> rfl
    · rfl
  | pop =>
    obtain ⟨hanswer, hrefines⟩ := h.pop
    refine ⟨congrArg (Except.map some) hanswer, hrefines, ?_⟩
    simp only [HeapQueue.call, HeapQueue.pop]
    split <;> rfl
  | clear => exact ⟨rfl, ⟨fun i hi => absurd hi (Nat.not_lt_zero _), Lists.nil _, Nat.zero_le _⟩, rfl⟩

theorem HeapQueue.Refines.answers (calls : List (QueueCall Opaque)) {q : HeapQueue Opaque} {l : List (RadarEnvelope Opaque)}
    (h : q.Refines l) :
    (answers HeapQueue.call q calls).1 = (answers (SortedQueue.call q.maxSize) l calls).1 ∧
      (answers HeapQueue.call q calls).2.Refines (answers (SortedQueue.call q.maxSize) l calls).2 := by
  induction calls generalizing q l with
  | nil => exact ⟨rfl, h⟩
  | cons c calls ih =>
    obtain ⟨hanswer, hrefines, hsize⟩ := h.call c
    obtain ⟨hrest, hafter⟩ := ih hrefines
    rw [hsize] at hrest hafter
    exact ⟨congrArg₂ List.cons hanswer hrest, hafter⟩

theorem SortedQueue.mem_insert {envelope e : RadarEnvelope Opaque} (h : e ∈ SortedQueue.insert envelope l) : e = envelope ∨ e ∈ l := by
  rcases List.mem_append.mp h with hmem | hmem
  · exact .inr ((List.takeWhile_sublist _).subset hmem)
  · exact (List.mem_cons.mp hmem).imp_right fun hlate => (List.dropWhile_sublist _).subset hlate

theorem SortedQueue.mem_call {maxSize : ℕ} {c : QueueCall Opaque} {e : RadarEnvelope Opaque}
    (h : e ∈ (SortedQueue.call maxSize l c).2) : e ∈ l ∨ c = .push e := by
  cases c with
  | push envelope =>
    simp only [SortedQueue.call, SortedQueue.push] at h
    split at h
    · rcases SortedQueue.mem_insert h with rfl | hmem
      · exact .inr rfl
      · exact .inl hmem
    split at h
    · exact .inl h
    split at h
    · exact .inl h
    split at h
    · exact .inl h
    · rcases SortedQueue.mem_insert h with rfl | hmem
      · exact .inr rfl
      · exact .inl ((List.dropLast_sublist _).subset hmem)
  | pop =>
    cases l with
    | nil => exact absurd h List.not_mem_nil
    | cons first rest => exact .inl (List.mem_cons_of_mem _ h)
  | clear => exact absurd h List.not_mem_nil

/-- What is in the list was pushed. -/
theorem SortedQueue.mem_answers {maxSize : ℕ} (calls : List (QueueCall Opaque)) {l : List (RadarEnvelope Opaque)} {e : RadarEnvelope Opaque}
    (h : e ∈ (answers (SortedQueue.call maxSize) l calls).2) : e ∈ l ∨ .push e ∈ calls := by
  induction calls generalizing l with
  | nil => exact .inl h
  | cons c calls ih =>
    rcases ih h with hmem | hmem
    · rcases SortedQueue.mem_call hmem with hold | rfl
      · exact .inl hold
      · exact .inr List.mem_cons_self
    · exact .inr (List.mem_cons_of_mem _ hmem)

theorem Lists.priorities {heap : List (QueueItem Opaque)} {counter : ℕ} (h : Lists heap counter l) :
    l.Pairwise (·.priority ≤ ·.priority) := by
  obtain ⟨items, hperm, hsorted, rfl⟩ := h.sorted
  rw [List.pairwise_map]
  refine hsorted.imp_of_mem fun {a b} ha hb hlt => ?_
  rw [← (h.numbered a (hperm.mem_iff.mp ha)).1, ← (h.numbered b (hperm.mem_iff.mp hb)).1]
  exact (Lists.lt_iff.mp hlt).elim le_of_lt fun heq => heq.1.le

theorem HeapQueue.new_refines (maxSize : ℕ) (positive : 0 < maxSize) : (HeapQueue.new maxSize positive : HeapQueue Opaque).Refines [] :=
  ⟨fun _ hi => absurd hi (Nat.not_lt_zero _), Lists.nil _, Nat.zero_le _⟩

/-! ### The queue of the runtime -/

theorem QueueItem.le_iff {a b : QueueItem Opaque} : a.le b = true ↔ a.key ≤ b.key := by
  rw [Lists.le_iff, QueueItem.le]
  simp

/-- A queue without a heap holds what a sorted list has. -/
structure PriorityQueue.Refines (q : PriorityQueue Opaque) (l : List (RadarEnvelope Opaque)) : Prop where
  lists : Lists q.heap q.counter l
  bounded : l.length ≤ q.maxSize

theorem takeLeast_le_key {heap others : List (QueueItem Opaque)} {item : QueueItem Opaque}
    (h : takeLeast QueueItem.le heap = some (item, others)) : ∀ b ∈ others, item.key ≤ b.key := by
  refine fun b hb => QueueItem.le_iff.mp (takeLeast_le (fun a b => ?_) (fun a b c hab hbc => ?_) h b hb)
  · simp only [QueueItem.le_iff]
    exact le_total _ _
  · simp only [QueueItem.le_iff] at hab hbc ⊢
    exact hab.trans hbc

theorem takeLeast_ge_key {heap others : List (QueueItem Opaque)} {item : QueueItem Opaque}
    (h : takeLeast QueueItem.ge heap = some (item, others)) : ∀ b ∈ others, b.key ≤ item.key := by
  refine fun b hb => QueueItem.le_iff.mp (takeLeast_le (fun a b => ?_) (fun a b c hab hbc => ?_) h b hb)
  · simp only [QueueItem.ge, QueueItem.le_iff]
    exact le_total _ _
  · simp only [QueueItem.ge, QueueItem.le_iff] at hab hbc ⊢
    exact hbc.trans hab

theorem PriorityQueue.Refines.call {q : PriorityQueue Opaque} (h : q.Refines l) (c : QueueCall Opaque) :
    (q.call c).1 = (SortedQueue.call q.maxSize l c).1 ∧ (q.call c).2.Refines (SortedQueue.call q.maxSize l c).2 ∧
      (q.call c).2.maxSize = q.maxSize := by
  have hlength := h.lists.length
  have hpositive := q.positive
  cases c with
  | push envelope =>
    simp only [PriorityQueue.call, PriorityQueue.push, SortedQueue.call, SortedQueue.push]
    by_cases hfull : q.maxSize ≤ q.heap.length
    · have hroom : ¬ l.length < q.maxSize := by omega
      rw [if_pos hfull, if_neg hroom]
      by_cases hpriority : envelope.priority ≠ 0
      · rw [if_pos hpriority, if_pos hpriority]
        exact ⟨rfl, ⟨h.lists.count, h.bounded⟩, rfl⟩
      rw [if_neg hpriority, if_neg hpriority]
      cases hgreatest : takeLeast QueueItem.ge q.heap with
      | none =>
        have hempty := takeLeast_eq_none.mp hgreatest
        rw [hempty, List.length_nil] at hfull
        omega
      | some taken =>
        obtain ⟨victim, others⟩ := taken
        have hperm := takeLeast_perm hgreatest
        obtain ⟨hlast, hothers⟩ := h.lists.evict hperm (takeLeast_ge_key hgreatest)
        have hsame := (h.lists.numbered victim (hperm.mem_iff.mpr List.mem_cons_self)).1
        rw [hlast]
        dsimp only
        by_cases hzero : victim.priority = 0
        · rw [if_pos hzero, if_pos (hsame ▸ hzero)]
          exact ⟨rfl, ⟨h.lists.count, h.bounded⟩, rfl⟩
        · rw [if_neg hzero, if_neg (hsame ▸ hzero)]
          refine ⟨rfl, ⟨hothers.insert envelope (.refl _), ?_⟩, rfl⟩
          have hbound := h.bounded
          rw [SortedQueue.length_insert, List.length_dropLast]
          change l.length - 1 + 1 ≤ q.maxSize
          omega
    · have hroom : l.length < q.maxSize := by omega
      rw [if_neg hfull, if_pos hroom]
      refine ⟨rfl, ⟨h.lists.insert envelope (.refl _), ?_⟩, rfl⟩
      rw [SortedQueue.length_insert]
      change l.length + 1 ≤ q.maxSize
      omega
  | pop =>
    simp only [PriorityQueue.call, PriorityQueue.pop, SortedQueue.call]
    cases hleast : takeLeast QueueItem.le q.heap with
    | none =>
      rw [takeLeast_eq_none.mp hleast, List.length_nil, List.length_eq_zero_iff] at hlength
      subst hlength
      exact ⟨rfl, h, rfl⟩
    | some taken =>
      obtain ⟨item, others⟩ := taken
      obtain ⟨rest, rfl, hrest⟩ := h.lists.pop (takeLeast_perm hleast) (takeLeast_le_key hleast)
      exact ⟨rfl, ⟨hrest, (Nat.le_succ _).trans h.bounded⟩, rfl⟩
  | clear => exact ⟨rfl, ⟨Lists.nil _, Nat.zero_le _⟩, rfl⟩

/-- The queue of the runtime's model answers as the queue with the heap. -/
theorem priorityQueue_answers (maxSize : ℕ) (positive : 0 < maxSize) (calls : List (QueueCall Opaque)) :
    (answers PriorityQueue.call ⟨maxSize, positive, 0, []⟩ calls).1 = (answers HeapQueue.call (HeapQueue.new maxSize positive) calls).1 := by
  have hrun : ∀ (calls : List (QueueCall Opaque)) (q : PriorityQueue Opaque) (l : List (RadarEnvelope Opaque)), q.Refines l →
      (answers PriorityQueue.call q calls).1 = (answers (SortedQueue.call q.maxSize) l calls).1 := by
    intro calls
    induction calls with
    | nil => exact fun _ _ _ => rfl
    | cons c calls ih =>
      intro q l h
      obtain ⟨hanswer, hrefines, hsize⟩ := h.call c
      have hrest := ih _ _ hrefines
      rw [hsize] at hrest
      exact congrArg₂ List.cons hanswer hrest
  rw [((HeapQueue.new_refines maxSize positive).answers calls).1]
  exact hrun calls _ [] ⟨Lists.nil 0, Nat.zero_le _⟩

/-! ### The sorted list -/

/-- **The priority queue is the sorted list.** Over any calls it gives the answers of the
list, and it holds in a heap what the list has, sorted by priority and arrival and within
its bound. When no priority is negative, the last envelope is of priority zero just when all
are. The queue of the runtime's model gives the same answers. -/
theorem queue_is_sorted_list (maxSize : ℕ) (positive : 0 < maxSize) (calls : List (QueueCall Opaque)) :
    (answers HeapQueue.call (HeapQueue.new maxSize positive) calls).1 = (answers (SortedQueue.call maxSize) [] calls).1 ∧
      (answers HeapQueue.call (HeapQueue.new maxSize positive) calls).2.Refines (answers (SortedQueue.call maxSize) [] calls).2 ∧
      (answers (SortedQueue.call maxSize) [] calls).2.Pairwise (·.priority ≤ ·.priority) ∧
      ((∀ e : RadarEnvelope Opaque, .push e ∈ calls → 0 ≤ e.priority) →
        ∀ last, (answers (SortedQueue.call maxSize) [] calls).2.getLast? = some last →
          (last.priority = 0 ↔ ∀ e ∈ (answers (SortedQueue.call maxSize) [] calls).2, e.priority = 0)) ∧
      (answers PriorityQueue.call ⟨maxSize, positive, 0, []⟩ calls).1 =
        (answers HeapQueue.call (HeapQueue.new maxSize positive) calls).1 := by
  obtain ⟨hanswers, hrefines⟩ := (HeapQueue.new_refines maxSize positive).answers calls
  have hsorted : (answers (SortedQueue.call maxSize) [] calls).2.Pairwise (·.priority ≤ ·.priority) := hrefines.lists.priorities
  refine ⟨hanswers, hrefines, hsorted, fun hpushed last hlast => ⟨fun hzero e he => ?_, fun hall => ?_⟩,
    priorityQueue_answers maxSize positive calls⟩
  · have hnonneg := hpushed e ((SortedQueue.mem_answers calls he).resolve_left List.not_mem_nil)
    obtain ⟨front, heq⟩ := List.getLast?_eq_some_iff.mp hlast
    rw [heq] at hsorted he
    rcases List.mem_append.mp he with hmem | hmem
    · have hle := (List.pairwise_append.mp hsorted).2.2 e hmem last List.mem_cons_self
      omega
    · exact List.mem_singleton.mp hmem ▸ hzero
  · exact hall last (List.mem_of_getLast? hlast)

/-- An envelope of a priority. -/
def sampleParcel (priority : ℤ) : RadarEnvelope Empty where
  schemaVersion := 1
  messageId := []
  createdAt := []
  sender := []
  audience := []
  domain := []
  intent := []
  priority := priority
  payload := .null
  contentHash := ⟨"d18a65cfa9a9d601291e7334ab35b699d8a467564603999503be3da2d849f449", isHex_sampleContent⟩
  idempotencyKey := ⟨"74234e98afe7498fb5daf1f36ac2d78acc339464f950703b8c019892f982b90b", isHex_sampleKey⟩
  correlationId := none
  rootTaskId := none
  causalParentId := none
  requiresAck := false
  expiresAt := none
  authorityRef := none
  sourceRefs := []

theorem queue_is_sorted_list_sample :
    (answers HeapQueue.call (HeapQueue.new 2 Nat.two_pos)
      [.push (sampleParcel 3), .push (sampleParcel 2), .push (sampleParcel 0), .pop]).1 =
      [.ok none, .ok none, .ok (some (sampleParcel 3)), .ok (some (sampleParcel 0))] :=
  (queue_is_sorted_list 2 Nat.two_pos _).1.trans rfl

end Refinement

end CcbCore.Radar
