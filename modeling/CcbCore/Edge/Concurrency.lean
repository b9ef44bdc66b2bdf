import CcbCore.Edge.Document
import CcbCore.Library.Run
import Mathlib.Data.List.Nodup
import Mathlib.Data.List.Perm.Subperm
import Mathlib.Data.List.Range

/-!
# Calls in flight

`mapWithConcurrency` of `supabase/functions/github-bus-ingest/handler.ts`. Its workers share
the counter `i`; each takes an index, calls `fn` and waits for the promise, while others go on
between. A step is what runs without waiting: a worker that starts, a promise that settles, or
a worker that goes on after its promise has. In every run no index is called twice, no more
calls are in flight than the limit, and a run that cannot go on, in which no call has
rejected, has resolved to what the calls gave, each at its place (`concurrent_map_exact`).
-/

namespace CcbCore.Edge

variable {T R ε : Type}

/-- `MAX_PROJECT_CONCURRENCY`. -/
def maxProjectConcurrency : ℤ := 16

/-- A call `fn(item, index)`, and what its promise has settled to. -/
structure FnCall (T R ε : Type) where
  item : T
  index : ℕ
  outcome : Option (Except ε R) := none

/-- Where a worker is. -/
inductive Worker where
  | created
  /-- `await fn(items[idx], idx)`, by the number of the call. -/
  | awaiting (call : ℕ)
  | done
  | failed
  deriving DecidableEq

/-- The variables of `mapWithConcurrency`, the calls in the order of their start, and the first
rejection of a worker. -/
structure ConcurrentMap (T R ε : Type) where
  i : ℕ
  workers : List Worker
  calls : List (FnCall T R ε)
  results : List (Option R)
  rejection : Option ε

/-- `mapWithConcurrency`, to where its workers are made; a limit that is no integer is none. -/
def mapWithConcurrency (items : List T) (concurrency : Option ℤ) : Except HttpError (ConcurrentMap T R ε) :=
  match concurrency with
  | none => .error ⟨503, "PROJECT_CONCURRENCY_INVALID"⟩
  | some limit =>
    if limit < 1 ∨ maxProjectConcurrency < limit then .error ⟨503, "PROJECT_CONCURRENCY_INVALID"⟩
    else .ok ⟨0, List.replicate (min limit.toNat items.length) .created, [], List.replicate items.length none, none⟩

namespace ConcurrentMap

variable (items : List T) (m : ConcurrentMap T R ε)

/-- `const idx = i++`, and the call of `fn` if there is an item. -/
def claim (worker : ℕ) : ConcurrentMap T R ε :=
  match items[m.i]? with
  | none => { m with i := m.i + 1, workers := m.workers.set worker .done }
  | some item =>
    { m with
      i := m.i + 1
      workers := m.workers.set worker (.awaiting m.calls.length)
      calls := m.calls ++ [⟨item, m.i, none⟩] }

/-- What the promise of `mapWithConcurrency` has settled to: that of `Promise.all(workers)`. -/
def outcome : Option (Except ε (List (Option R))) :=
  match m.rejection with
  | some e => some (.error e)
  | none => if ∀ worker ∈ m.workers, worker = .done then some (.ok m.results) else none

/-- How many calls have not settled. -/
def inFlight : ℕ := m.calls.countP fun call => call.outcome.isNone

end ConcurrentMap

/-- What happens. -/
inductive MapEvent (R ε : Type) where
  | start (worker : ℕ)
  | settle (call : ℕ) (outcome : Except ε R)
  | resume (worker : ℕ)

/-- A step of the workers, or of a promise. -/
inductive MapStep (items : List T) (m : ConcurrentMap T R ε) : MapEvent R ε → ConcurrentMap T R ε → Prop where
  | start {worker : ℕ} (created : m.workers[worker]? = some .created) : MapStep items m (.start worker) (m.claim items worker)
  | settle {call : ℕ} {c : FnCall T R ε} (outcome : Except ε R) (called : m.calls[call]? = some c) (pending : c.outcome = none) :
      MapStep items m (.settle call outcome) { m with calls := m.calls.set call { c with outcome := some outcome } }
  | resolved {worker call : ℕ} {c : FnCall T R ε} {value : R} (awaiting : m.workers[worker]? = some (.awaiting call))
      (called : m.calls[call]? = some c) (settled : c.outcome = some (.ok value)) :
      MapStep items m (.resume worker) ({ m with results := m.results.set c.index (some value) }.claim items worker)
  | rejected {worker call : ℕ} {c : FnCall T R ε} {e : ε} (awaiting : m.workers[worker]? = some (.awaiting call))
      (called : m.calls[call]? = some c) (settled : c.outcome = some (.error e)) :
      MapStep items m (.resume worker) { m with workers := m.workers.set worker .failed, rejection := m.rejection.or (some e) }

/-! ### What every step keeps -/

/-- Whether the worker can still do something. -/
def Worker.busy : Worker → Bool
  | .created | .awaiting _ => true
  | .done | .failed => false

namespace ConcurrentMap

/-- A settled call whose value is in its place, or whose rejection is known. -/
def Answered (m : ConcurrentMap T R ε) (call : ℕ) (c : FnCall T R ε) : Prop :=
  (∃ value, c.outcome = some (.ok value) ∧ m.results[call]? = some (some value)) ∨
    (∃ e, c.outcome = some (.error e)) ∧ m.rejection.isSome

/-- What holds of the workers and the calls. -/
structure Holds (items : List T) (m : ConcurrentMap T R ε) : Prop where
  claimed : m.calls.length = min m.i items.length
  called : ∀ (k : ℕ) (c : FnCall T R ε), m.calls[k]? = some c → c.index = k ∧ items[k]? = some c.item
  known : ∀ w k : ℕ, m.workers[w]? = some (.awaiting k) → k < m.calls.length
  owned : ∀ w w' k : ℕ, m.workers[w]? = some (.awaiting k) → m.workers[w']? = some (.awaiting k) → w = w'
  tended : ∀ (k : ℕ) (c : FnCall T R ε), m.calls[k]? = some c →
    (∃ w : ℕ, m.workers[w]? = some (.awaiting k)) ∨ m.Answered k c
  ended : ∀ w : ℕ, m.workers[w]? = some .done → items.length ≤ m.i
  failed : ∀ w : ℕ, m.workers[w]? = some .failed → m.rejection.isSome
  thrown : m.rejection.isSome → ∃ c ∈ m.calls, ∃ e, c.outcome = some (.error e)
  size : m.results.length = items.length

variable {items : List T} {m m' : ConcurrentMap T R ε} {e : MapEvent R ε} {worker : ℕ}

theorem mapWithConcurrency_eq {limit : ℤ} {m₀ : ConcurrentMap T R ε} (h : mapWithConcurrency items (some limit) = .ok m₀) :
    0 < limit ∧ m₀ = ⟨0, List.replicate (min limit.toNat items.length) .created, [], List.replicate items.length none, none⟩ := by
  simp only [mapWithConcurrency] at h
  by_cases hlimit : limit < 1 ∨ maxProjectConcurrency < limit
  · rw [if_pos hlimit] at h
    cases h
  · rw [if_neg hlimit] at h
    cases h
    exact ⟨by omega, rfl⟩

theorem mapWithConcurrency_holds {limit : ℤ} {m₀ : ConcurrentMap T R ε}
    (h : mapWithConcurrency items (some limit) = .ok m₀) : m₀.Holds items := by
  obtain ⟨-, rfl⟩ := mapWithConcurrency_eq h
  constructor <;> simp [List.getElem?_replicate]

theorem of_getElem?_set {α : Type} {l : List α} {a b : α} {k n : ℕ} (h : (l.set n a)[k]? = some b) :
    (k = n ∧ b = a) ∨ (k ≠ n ∧ l[k]? = some b) := by
  rw [List.getElem?_set] at h
  split at h
  · split at h
    · exact .inl ⟨by omega, (Option.some.inj h).symm⟩
    · cases h
  · exact .inr ⟨by omega, h⟩

theorem of_getElem?_concat {α : Type} {l : List α} {a b : α} {k : ℕ} (h : (l ++ [a])[k]? = some b) :
    l[k]? = some b ∨ (k = l.length ∧ b = a) := by
  rcases Nat.lt_trichotomy k l.length with hk | hk | hk
  · rw [List.getElem?_append_left hk] at h
    exact .inl h
  · subst hk
    rw [List.getElem?_concat_length] at h
    exact .inr ⟨rfl, (Option.some.inj h).symm⟩
  · rw [List.getElem?_eq_none (by simp; omega)] at h
    cases h

/-- A call stays tended when a worker whose call has been answered turns to something else. -/
theorem Holds.tended_set (h : m.Holds items) {state : Worker}
    (hfree : ∀ k c, m.workers[worker]? = some (.awaiting k) → m.calls[k]? = some c → m.Answered k c) (k : ℕ)
    (c : FnCall T R ε) (hc : m.calls[k]? = some c) :
    (∃ w : ℕ, (m.workers.set worker state)[w]? = some (.awaiting k)) ∨ m.Answered k c := by
  rcases h.tended k c hc with ⟨w, hw⟩ | hanswered
  · by_cases hself : w = worker
    · subst hself
      exact .inr (hfree k c hw hc)
    · exact .inl ⟨w, by rw [List.getElem?_set_ne (Ne.symm hself)]; exact hw⟩
  · exact .inr hanswered

/-- A worker that finds no item is done. -/
theorem Holds.retire (h : m.Holds items) (hend : items.length ≤ m.i)
    (hfree : ∀ k c, m.workers[worker]? = some (.awaiting k) → m.calls[k]? = some c → m.Answered k c) :
    Holds items { m with i := m.i + 1, workers := m.workers.set worker .done } := by
  have hkept : ∀ w k : ℕ, (m.workers.set worker .done)[w]? = some (.awaiting k) → m.workers[w]? = some (.awaiting k) := by
    intro w k hw
    rcases of_getElem?_set hw with ⟨-, hdone⟩ | ⟨-, hold⟩
    · cases hdone
    · exact hold
  refine ⟨?_, h.called, ?_, ?_, h.tended_set hfree, ?_, ?_, h.thrown, h.size⟩
  · have := h.claimed
    simp only
    omega
  · exact fun w k hw => h.known w k (hkept w k hw)
  · exact fun w w' k hw hw' => h.owned w w' k (hkept w k hw) (hkept w' k hw')
  · exact fun _ _ => Nat.le_succ_of_le hend
  · intro w hw
    rcases of_getElem?_set hw with ⟨-, hdone⟩ | ⟨-, hold⟩
    · cases hdone
    · exact h.failed w hold

/-- A worker that finds an item calls `fn` with it, the first call with its index. -/
theorem Holds.take (h : m.Holds items) (hworker : worker < m.workers.length) {item : T}
    (hitem : items[m.i]? = some item)
    (hfree : ∀ k c, m.workers[worker]? = some (.awaiting k) → m.calls[k]? = some c → m.Answered k c) :
    Holds items { m with
      i := m.i + 1
      workers := m.workers.set worker (.awaiting m.calls.length)
      calls := m.calls ++ [⟨item, m.i, none⟩] } := by
  have hlt : m.i < items.length := (List.getElem?_eq_some_iff.1 hitem).1
  have hnext : m.calls.length = m.i := by
    have := h.claimed
    omega
  have hkept : ∀ w k : ℕ, (m.workers.set worker (.awaiting m.calls.length))[w]? = some (.awaiting k) →
      (w = worker ∧ k = m.calls.length) ∨ m.workers[w]? = some (.awaiting k) := by
    intro w k hw
    rcases of_getElem?_set hw with ⟨hself, hcall⟩ | ⟨-, hold⟩
    · exact .inl ⟨hself, Worker.awaiting.inj hcall⟩
    · exact .inr hold
  refine ⟨?_, ?_, ?_, ?_, ?_, ?_, ?_, ?_, h.size⟩
  · simp only [List.length_append, List.length_singleton]
    omega
  · intro k c hc
    rcases of_getElem?_concat hc with hold | ⟨rfl, rfl⟩
    · exact h.called k c hold
    · exact ⟨hnext.symm, by rw [hnext]; exact hitem⟩
  · intro w k hw
    simp only [List.length_append, List.length_singleton]
    rcases hkept w k hw with ⟨-, rfl⟩ | hold
    · omega
    · have := h.known w k hold
      omega
  · intro w w' k hw hw'
    rcases hkept w k hw with ⟨hself, hk⟩ | hold <;> rcases hkept w' k hw' with ⟨hself', hk'⟩ | hold'
    · rw [hself, hself']
    · exact absurd (h.known w' k hold') (by omega)
    · exact absurd (h.known w k hold) (by omega)
    · exact h.owned w w' k hold hold'
  · intro k c hc
    rcases of_getElem?_concat hc with hold | ⟨rfl, rfl⟩
    · exact h.tended_set hfree k c hold
    · exact .inl ⟨worker, by rw [List.getElem?_set_self hworker]⟩
  · intro w hw
    rcases of_getElem?_set hw with ⟨-, hawaiting⟩ | ⟨-, hold⟩
    · cases hawaiting
    · have := h.ended w hold
      omega
  · intro w hw
    rcases of_getElem?_set hw with ⟨-, hawaiting⟩ | ⟨-, hold⟩
    · cases hawaiting
    · exact h.failed w hold
  · intro hrejected
    obtain ⟨c, hc, e, he⟩ := h.thrown hrejected
    exact ⟨c, List.mem_append_left _ hc, e, he⟩

/-- A worker whose call, if it waits for one, has been answered can take the next index. -/
theorem Holds.claim (h : m.Holds items) (hworker : worker < m.workers.length)
    (hfree : ∀ k c, m.workers[worker]? = some (.awaiting k) → m.calls[k]? = some c → m.Answered k c) :
    (m.claim items worker).Holds items := by
  cases hitem : items[m.i]? with
  | none =>
    simp only [ConcurrentMap.claim, hitem]
    exact h.retire (List.getElem?_eq_none_iff.1 hitem) hfree
  | some item =>
    simp only [ConcurrentMap.claim, hitem]
    exact h.take hworker hitem hfree

/-- A promise settles that was pending. -/
theorem Holds.settle (h : m.Holds items) {call : ℕ} {c : FnCall T R ε} (outcome : Except ε R)
    (hc : m.calls[call]? = some c) (hpending : c.outcome = none) :
    Holds items { m with calls := m.calls.set call { c with outcome := some outcome } } := by
  have hlt : call < m.calls.length := (List.getElem?_eq_some_iff.1 hc).1
  refine ⟨by simpa using h.claimed, ?_, ?_, h.owned, ?_, h.ended, h.failed, ?_, h.size⟩
  · intro k c' hc'
    rcases of_getElem?_set hc' with ⟨rfl, rfl⟩ | ⟨-, hold⟩
    · exact h.called k c hc
    · exact h.called k c' hold
  · intro w k hw
    simpa using h.known w k hw
  · intro k c' hc'
    rcases of_getElem?_set hc' with ⟨rfl, rfl⟩ | ⟨-, hold⟩
    · rcases h.tended k c hc with hawaited | ⟨value, hvalue, -⟩ | ⟨⟨e, he⟩, -⟩
      · exact .inl hawaited
      · simp [hpending] at hvalue
      · simp [hpending] at he
    · exact h.tended k c' hold
  · intro hrejected
    obtain ⟨c', hc', e, he⟩ := h.thrown hrejected
    obtain ⟨k, hk⟩ := List.mem_iff_getElem?.1 hc'
    refine ⟨c', List.mem_of_getElem? (i := k) ?_, e, he⟩
    rw [List.getElem?_set_ne, hk]
    rintro rfl
    obtain rfl : c = c' := Option.some.inj (hc.symm.trans hk)
    simp [hpending] at he

/-- The value of a call is put in its place. -/
theorem Holds.resolved (h : m.Holds items) {call : ℕ} {c : FnCall T R ε} {value : R} (hc : m.calls[call]? = some c)
    (hsettled : c.outcome = some (.ok value)) :
    Holds items { m with results := m.results.set c.index (some value) } ∧
      Answered { m with results := m.results.set c.index (some value) } call c := by
  obtain ⟨hindex, hitem⟩ := h.called call c hc
  have hlt : call < m.results.length := by
    rw [h.size]
    exact (List.getElem?_eq_some_iff.1 hitem).1
  rw [hindex]
  have hanswered : Answered { m with results := m.results.set call (some value) } call c :=
    .inl ⟨value, hsettled, by rw [List.getElem?_set_self hlt]⟩
  refine ⟨⟨h.claimed, h.called, h.known, h.owned, ?_, h.ended, h.failed, h.thrown, by simpa using h.size⟩, hanswered⟩
  intro k c' hc'
  by_cases hsame : k = call
  · subst hsame
    obtain rfl : c = c' := Option.some.inj (hc.symm.trans hc')
    exact .inr hanswered
  · rcases h.tended k c' hc' with hawaited | ⟨v, hv, hplaced⟩ | hthrown
    · exact .inl hawaited
    · exact .inr (.inl ⟨v, hv, by rw [List.getElem?_set_ne (Ne.symm hsame)]; exact hplaced⟩)
    · exact .inr (.inr hthrown)

/-- A rejection is thrown in the worker that waits for it. -/
theorem Holds.rejected (h : m.Holds items) {call : ℕ} {c : FnCall T R ε} {e : ε}
    (hworker : m.workers[worker]? = some (.awaiting call)) (hc : m.calls[call]? = some c)
    (hsettled : c.outcome = some (.error e)) :
    Holds items { m with workers := m.workers.set worker .failed, rejection := m.rejection.or (some e) } := by
  have hkept : ∀ w k : ℕ, (m.workers.set worker .failed)[w]? = some (.awaiting k) →
      m.workers[w]? = some (.awaiting k) := by
    intro w k hw
    rcases of_getElem?_set hw with ⟨-, hfailed⟩ | ⟨-, hold⟩
    · cases hfailed
    · exact hold
  have hsome : (m.rejection.or (some e)).isSome := by simp
  refine ⟨h.claimed, h.called, ?_, ?_, ?_, ?_, fun _ _ => hsome, ?_, h.size⟩
  · exact fun w k hw => h.known w k (hkept w k hw)
  · exact fun w w' k hw hw' => h.owned w w' k (hkept w k hw) (hkept w' k hw')
  · intro k c' hc'
    rcases h.tended k c' hc' with ⟨w, hw⟩ | ⟨v, hv⟩ | ⟨he, -⟩
    · by_cases hself : w = worker
      · subst hself
        obtain rfl : call = k := Worker.awaiting.inj (Option.some.inj (hworker.symm.trans hw))
        obtain rfl : c = c' := Option.some.inj (hc.symm.trans hc')
        exact .inr (.inr ⟨⟨e, hsettled⟩, hsome⟩)
      · exact .inl ⟨w, by rw [List.getElem?_set_ne (Ne.symm hself)]; exact hw⟩
    · exact .inr (.inl ⟨v, hv⟩)
    · exact .inr (.inr ⟨he, hsome⟩)
  · intro w hw
    rcases of_getElem?_set hw with ⟨-, hfailed⟩ | ⟨-, hold⟩
    · cases hfailed
    · exact h.ended w hold
  · exact fun _ => ⟨c, List.mem_of_getElem? hc, e, hsettled⟩

/-- Every step keeps what holds of the workers and the calls. -/
theorem Holds.step (h : m.Holds items) (hstep : MapStep items m e m') : m'.Holds items := by
  cases hstep with
  | start created =>
    refine h.claim (List.getElem?_eq_some_iff.1 created).1 fun k c hawaiting _ => ?_
    rw [created] at hawaiting
    cases hawaiting
  | settle outcome called pending => exact h.settle outcome called pending
  | @resolved worker call c value awaiting called settled =>
    obtain ⟨hresolved, hanswered⟩ := h.resolved called settled
    refine hresolved.claim (List.getElem?_eq_some_iff.1 awaiting).1 fun k c' hawaiting hc' => ?_
    obtain rfl : call = k := Worker.awaiting.inj (Option.some.inj (awaiting.symm.trans hawaiting))
    obtain rfl : c = c' := Option.some.inj (called.symm.trans hc')
    exact hanswered
  | rejected awaiting called settled => exact h.rejected awaiting called settled

/-! ### The limit, and the length of a run -/

theorem claim_width : (m.claim items worker).workers.length = m.workers.length := by
  unfold claim
  split <;> simp

theorem step_width (hstep : MapStep items m e m') : m'.workers.length = m.workers.length := by
  cases hstep with
  | start => exact claim_width
  | settle => rfl
  | resolved => exact claim_width
  | rejected => simp

/-- Every call in flight has a worker of its own that waits for it. -/
theorem Holds.inFlight_le (h : m.Holds items) : m.inFlight ≤ m.workers.length := by
  let pending : List (Fin m.calls.length) := (List.finRange m.calls.length).filter fun k => (m.calls.get k).outcome.isNone
  have hcount : m.inFlight = (pending.map fun k => Worker.awaiting k.val).length := by
    rw [List.length_map, ← List.countP_eq_length_filter]
    conv_lhs => rw [inFlight, ← List.map_get_finRange m.calls, List.countP_map]
    rfl
  have hnodup : (pending.map fun k => Worker.awaiting k.val).Nodup := by
    refine ((List.nodup_finRange _).filter _).map fun j k hjk => ?_
    exact Fin.ext (Worker.awaiting.inj hjk)
  have hsubset : (pending.map fun k => Worker.awaiting k.val) ⊆ m.workers := by
    intro w hw
    obtain ⟨k, hk, rfl⟩ := List.mem_map.1 hw
    have hpending : (m.calls.get k).outcome = none := by simpa using (List.mem_filter.1 hk).2
    rcases h.tended k (m.calls.get k) (by simp) with ⟨w, hw⟩ | ⟨v, hv, -⟩ | ⟨⟨e, he⟩, -⟩
    · exact List.mem_of_getElem? hw
    · rw [hpending] at hv
      cases hv
    · rw [hpending] at he
      cases he
  rw [hcount]
  exact (List.Nodup.subperm hnodup hsubset).length_le

/-- How many steps may still come. -/
def left (items : List T) (m : ConcurrentMap T R ε) : ℕ :=
  m.workers.countP Worker.busy + m.inFlight + 2 * (items.length - m.calls.length)

theorem countP_busy_set {state : Worker} (h : m.workers[worker]? = some state) (hbusy : state.busy = true) (next : Worker) :
    (m.workers.set worker next).countP Worker.busy + 1 = m.workers.countP Worker.busy + next.busy.toNat := by
  obtain ⟨hlt, hstate⟩ := List.getElem?_eq_some_iff.1 h
  have hpos : 0 < m.workers.countP Worker.busy :=
    List.countP_pos_iff.2 ⟨state, List.mem_of_getElem? h, hbusy⟩
  rw [List.countP_set hlt, hstate, hbusy]
  cases next.busy <;> simp <;> omega

theorem claim_left (h : m.calls.length = min m.i items.length) {state : Worker}
    (hworker : m.workers[worker]? = some state) (hbusy : state.busy = true) :
    (m.claim items worker).left items + 1 = m.left items := by
  cases hitem : items[m.i]? with
  | none =>
    have := countP_busy_set hworker hbusy .done
    simp only [claim, hitem, left, inFlight, Worker.busy, Bool.toNat_false] at this ⊢
    omega
  | some item =>
    have hlt : m.i < items.length := (List.getElem?_eq_some_iff.1 hitem).1
    have := countP_busy_set hworker hbusy (.awaiting m.calls.length)
    simp only [claim, hitem, left, inFlight, Worker.busy, Bool.toNat_true, List.countP_append, List.countP_singleton,
      Option.isNone_none, if_true, List.length_append, List.length_singleton] at this ⊢
    omega

theorem Holds.step_left (h : m.Holds items) (hstep : MapStep items m e m') : m'.left items + 1 = m.left items := by
  cases hstep with
  | start created => exact claim_left h.claimed created rfl
  | @settle call c outcome called pending =>
    obtain ⟨hlt, hc⟩ := List.getElem?_eq_some_iff.1 called
    have hpos : 0 < m.inFlight := List.countP_pos_iff.2 ⟨c, List.mem_of_getElem? called, by simp [pending]⟩
    have hone : (m.calls.set call { c with outcome := some outcome }).countP (fun c => c.outcome.isNone) + 1 = m.inFlight := by
      rw [List.countP_set hlt, hc, pending]
      simp only [Option.isNone_none, if_true, Option.isNone_some, Bool.false_eq_true, if_false]
      unfold inFlight at hpos ⊢
      omega
    simp only [left, inFlight, List.length_set] at hone ⊢
    omega
  | resolved awaiting called settled => exact claim_left (m := { m with results := _ }) h.claimed awaiting rfl
  | rejected awaiting called settled =>
    have := countP_busy_set awaiting rfl .failed
    simp only [left, inFlight, Worker.busy, Bool.toNat_false] at this ⊢
    omega

theorem Holds.run {m₀ : ConcurrentMap T R ε} (h : m₀.Holds items) {es : List (MapEvent R ε)}
    (hrun : Run (MapStep items) m₀ es m) :
    m.Holds items ∧ m.workers.length = m₀.workers.length ∧ m.left items + es.length = m₀.left items := by
  induction hrun with
  | nil => exact ⟨h, rfl, rfl⟩
  | snoc _ hstep ih =>
    obtain ⟨hholds, hwidth, hleft⟩ := ih
    refine ⟨hholds.step hstep, (step_width hstep).trans hwidth, ?_⟩
    have := hholds.step_left hstep
    rw [List.length_append, List.length_singleton]
    omega

/-- Every index has been called once, with its item, and the value is in its place. -/
structure Mapped (items : List T) (calls : List (FnCall T R ε)) (results : List (Option R)) : Prop where
  once : calls.map FnCall.index = List.range items.length
  placed : ∀ c ∈ calls, items[c.index]? = some c.item ∧
    ∃ value, c.outcome = some (.ok value) ∧ results[c.index]? = some (some value)
  size : results.length = items.length

theorem Holds.indices (h : m.Holds items) : m.calls.map FnCall.index = List.range m.calls.length := by
  refine List.ext_getElem (by simp) fun k hk _ => ?_
  have hlt : k < m.calls.length := by simpa using hk
  simpa using (h.called k _ (List.getElem?_eq_getElem hlt)).1

/-- When every worker is done, every call has been answered. -/
theorem Holds.mapped (h : m.Holds items) (hdone : ∀ w ∈ m.workers, w = .done) (hsome : items ≠ [] → m.workers ≠ [])
    (hrejection : m.rejection = none) : Mapped items m.calls m.results := by
  have hall : m.calls.length = items.length := by
    have hclaimed := h.claimed
    by_cases hitems : items = []
    · subst hitems
      simpa using hclaimed
    · obtain ⟨w, hw⟩ := List.exists_mem_of_ne_nil _ (hsome hitems)
      obtain ⟨k, hk⟩ := List.mem_iff_getElem?.1 hw
      have := h.ended k (by rw [hk, hdone w hw])
      omega
  refine ⟨by rw [h.indices, hall], fun c hc => ?_, h.size⟩
  obtain ⟨k, hk⟩ := List.mem_iff_getElem?.1 hc
  obtain ⟨rfl, hitem⟩ := h.called k c hk
  refine ⟨hitem, ?_⟩
  rcases h.tended c.index c hk with ⟨w, hw⟩ | hvalue | ⟨-, hthrown⟩
  · have := hdone _ (List.mem_of_getElem? hw)
    cases this
  · exact hvalue
  · rw [hrejection] at hthrown
    cases hthrown

/-- A worker that is neither done nor failed can go on, once the calls have settled. -/
theorem Holds.goes_on (h : m.Holds items) (hok : ∀ c ∈ m.calls, ∃ value, c.outcome = some (.ok value)) {state : Worker}
    (hworker : m.workers[worker]? = some state) : state = .done ∨ ∃ e m', MapStep items m e m' := by
  cases state with
  | created => exact .inr ⟨_, _, .start hworker⟩
  | awaiting call =>
    have hcall := List.getElem?_eq_getElem (h.known worker call hworker)
    obtain ⟨value, hvalue⟩ := hok _ (List.mem_of_getElem? hcall)
    exact .inr ⟨_, _, .resolved hworker hcall hvalue⟩
  | done => exact .inl rfl
  | failed =>
    obtain ⟨c, hc, e, he⟩ := h.thrown (h.failed worker hworker)
    obtain ⟨value, hvalue⟩ := hok c hc
    rw [hvalue] at he
    cases he

end ConcurrentMap

open ConcurrentMap

/-- **Whatever the order in which the calls settle, no index is called twice and no more calls
are in flight than the limit; a run is at most three steps for each item, and where nothing
can go on and every call has resolved, so has the map, to the value of each item in its
place.** -/
theorem concurrent_map_exact (items : List T) {limit : ℤ} (hvalid : 1 ≤ limit ∧ limit ≤ maxProjectConcurrency) :
    ∃ m₀ : ConcurrentMap T R ε, mapWithConcurrency items (some limit) = .ok m₀ ∧
      ∀ es m, Run (MapStep items) m₀ es m →
        (m.inFlight : ℤ) ≤ limit ∧
        ((m.calls.map FnCall.index).Nodup ∧ ∀ c ∈ m.calls, items[c.index]? = some c.item) ∧
        es.length ≤ 3 * items.length ∧
        (∀ results, m.outcome = some (.ok results) → Mapped items m.calls results) ∧
        ((∀ c ∈ m.calls, ∃ value, c.outcome = some (.ok value)) → (∀ e m', ¬ MapStep items m e m') →
          ∃ results, m.outcome = some (.ok results)) := by
  obtain ⟨m₀, hm₀⟩ : ∃ m₀ : ConcurrentMap T R ε, mapWithConcurrency items (some limit) = .ok m₀ :=
    ⟨_, if_neg (by omega)⟩
  refine ⟨m₀, hm₀, fun es m hrun => ?_⟩
  obtain ⟨hpos, hinit⟩ := mapWithConcurrency_eq hm₀
  have hwidth₀ : m₀.workers.length = min limit.toNat items.length := by simp [hinit]
  have hleft₀ : m₀.left items ≤ 3 * items.length := by
    have hbusy : m₀.workers.countP Worker.busy ≤ m₀.workers.length := List.countP_le_length
    have hcalls : m₀.calls = [] := by rw [hinit]
    simp only [left, inFlight, hcalls, List.countP_nil, List.length_nil]
    omega
  obtain ⟨h, hwidth, hleft⟩ := (mapWithConcurrency_holds hm₀).run hrun
  have hsome : items ≠ [] → m.workers ≠ [] := by
    intro hitems hnone
    have := List.length_pos_iff.2 hitems
    rw [hnone, List.length_nil] at hwidth
    omega
  refine ⟨?_, ⟨?_, fun c hc => ?_⟩, by omega, fun results hresults => ?_, fun hok hstuck => ?_⟩
  · have := h.inFlight_le
    omega
  · rw [h.indices]
    exact List.nodup_range
  · obtain ⟨k, hk⟩ := List.mem_iff_getElem?.1 hc
    obtain ⟨rfl, hitem⟩ := h.called k c hk
    exact hitem
  · unfold outcome at hresults
    cases hrejection : m.rejection with
    | some e => simp [hrejection] at hresults
    | none =>
      simp only [hrejection] at hresults
      by_cases hdone : ∀ w ∈ m.workers, w = .done
      · rw [if_pos hdone] at hresults
        cases hresults
        exact h.mapped hdone hsome hrejection
      · rw [if_neg hdone] at hresults
        cases hresults
  · have hdone : ∀ w ∈ m.workers, w = .done := by
      intro w hw
      obtain ⟨k, hk⟩ := List.mem_iff_getElem?.1 hw
      rcases h.goes_on hok hk with hdone | ⟨e, m', hstep⟩
      · exact hdone
      · exact absurd hstep (hstuck e m')
    have hrejection : m.rejection = none := by
      cases hrejection : m.rejection with
      | none => rfl
      | some e =>
        obtain ⟨c, hc, e', he'⟩ := h.thrown (by rw [hrejection]; rfl)
        obtain ⟨value, hvalue⟩ := hok c hc
        rw [hvalue] at he'
        cases he'
    exact ⟨m.results, by rw [outcome, hrejection, if_pos hdone]⟩

/-- Three items, of which the last that is called settles before the first. -/
def settledBackwards : List (MapEvent ℕ String) :=
  [.start 0, .start 1, .settle 1 (.ok 90), .resume 1, .settle 2 (.ok 110), .settle 0 (.ok 70), .resume 0, .resume 1]

/-- The two workers of the sample. -/
def twoWorkers : ConcurrentMap ℕ ℕ String := ⟨0, [.created, .created], [], [none, none, none], none⟩

theorem settledBackwards_run : ∃ m, Run (MapStep [7, 9, 11]) twoWorkers settledBackwards m ∧
    m.outcome = some (.ok [some 70, some 90, some 110]) := by
  exact ⟨_, .cons (.start rfl) <| .cons (.start rfl) <|
    .cons (.settle (c := ⟨9, 1, none⟩) _ rfl rfl) <| .cons (.resolved (c := ⟨9, 1, some (.ok 90)⟩) rfl rfl rfl) <|
    .cons (.settle (c := ⟨11, 2, none⟩) _ rfl rfl) <| .cons (.settle (c := ⟨7, 0, none⟩) _ rfl rfl) <|
    .cons (.resolved (c := ⟨7, 0, some (.ok 70)⟩) rfl rfl rfl) <|
    .cons (.resolved (c := ⟨11, 2, some (.ok 110)⟩) rfl rfl rfl) .nil, rfl⟩

theorem concurrent_map_exact_sample :
    ∃ m, Run (MapStep [7, 9, 11]) twoWorkers settledBackwards m ∧
      m.outcome = some (.ok [some 70, some 90, some 110]) ∧ Mapped [7, 9, 11] m.calls [some 70, some 90, some 110] := by
  obtain ⟨m₀, hm₀, hall⟩ :=
    concurrent_map_exact (R := ℕ) (ε := String) [7, 9, 11] (show 1 ≤ (2 : ℤ) ∧ (2 : ℤ) ≤ maxProjectConcurrency by decide)
  cases hm₀
  obtain ⟨m, hrun, houtcome⟩ := settledBackwards_run
  exact ⟨m, hrun, houtcome, (hall _ _ hrun).2.2.2.1 _ houtcome⟩

end CcbCore.Edge
