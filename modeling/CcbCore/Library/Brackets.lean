import Mathlib.Data.List.Induction

/-!
# Suspending and resuming

A machine is in a state, with a stack of states that it suspended, each under a kind.
`suspend` pushes the state it is in, `resume` goes back to the one on top where the
kinds agree, `finish` drops the stack. Moves are `Balanced` when what they suspend they
resume. So a resume matches one suspension, and goes back to the state the machine was
in at it (`matching`).
-/

namespace CcbCore.Brackets

universe u v

/-- What a machine is asked. -/
inductive Move (κ : Type u) (σ : Type v) where
  /-- Be in another state. -/
  | go (next : σ)
  /-- Be in another state, and keep the one it is in. -/
  | suspend (kind : κ) (next : σ)
  /-- Go back. -/
  | resume (kind : κ)
  /-- Be in another state, and keep nothing. -/
  | finish (next : σ)
  deriving DecidableEq

/-- A state, and those suspended, the last one first. -/
@[ext] structure Machine (κ : Type u) (σ : Type v) where
  state : σ
  suspended : List (κ × σ)

variable {κ : Type u} {σ : Type v}

/-- Moves that resume what they suspend, and nothing else. -/
inductive Balanced : List (Move κ σ) → Prop where
  | nil : Balanced []
  | go {ms : List (Move κ σ)} (next : σ) : Balanced ms → Balanced (ms ++ [.go next])
  | resume {ms ns : List (Move κ σ)} (kind : κ) (next : σ) :
      Balanced ms → Balanced ns → Balanced (ms ++ .suspend kind next :: (ns ++ [.resume kind]))

variable [DecidableEq κ]

namespace Machine

/-- One move; only a resume can be refused. -/
def step (m : Machine κ σ) : Move κ σ → Option (Machine κ σ)
  | .go next => some { m with state := next }
  | .suspend kind next => some ⟨next, (kind, m.state) :: m.suspended⟩
  | .resume kind =>
    match m.suspended with
    | (kind', s) :: rest => if kind' = kind then some ⟨s, rest⟩ else none
    | [] => none
  | .finish next => some ⟨next, []⟩

/-- Moves, one after the other. -/
def run (m : Machine κ σ) (moves : List (Move κ σ)) : Option (Machine κ σ) := moves.foldlM step m

@[simp] theorem run_nil (m : Machine κ σ) : m.run [] = some m := rfl

@[simp] theorem run_snoc (m : Machine κ σ) (moves : List (Move κ σ)) (x : Move κ σ) :
    m.run (moves ++ [x]) = (m.run moves).bind fun n => n.step x := by
  simp [run, List.foldlM_append]

theorem run_snoc_eq_some {m n : Machine κ σ} {moves : List (Move κ σ)} {x : Move κ σ} :
    m.run (moves ++ [x]) = some n ↔ ∃ l, m.run moves = some l ∧ l.step x = some n := by
  rw [run_snoc, Option.bind_eq_some_iff]

theorem step_resume {m n : Machine κ σ} {kind : κ} :
    m.step (.resume kind) = some n ↔ m.suspended = (kind, n.state) :: n.suspended := by
  obtain ⟨s, suspended⟩ := m
  cases suspended with
  | nil => simp [step]
  | cons top rest =>
    obtain ⟨kind', s'⟩ := top
    simp only [step, Option.ite_none_right_eq_some, Option.some.injEq, Machine.ext_iff, List.cons.injEq,
      Prod.mk.injEq, and_assoc]

/-- **Where a state is suspended, the machine was in it: it was suspended by one move, and
all that was suspended since has been resumed.** -/
theorem opened {m n : Machine κ σ} {moves : List (Move κ σ)} {kind : κ} {s : σ} {rest : List (κ × σ)}
    (hm : m.suspended = []) (h : m.run moves = some n) (hn : n.suspended = (kind, s) :: rest) :
    ∃ before next since, moves = before ++ .suspend kind next :: since ∧ Balanced since ∧ m.run before = some ⟨s, rest⟩ := by
  -- the moves before the last, and before the bracket that the last one closes, are fewer
  induction hlen : moves.length using Nat.strongRecOn generalizing moves n kind s rest with
  | _ len ih =>
    subst hlen
    cases moves using List.reverseRecOn with
    | nil =>
      obtain rfl : m = n := by simpa using h
      simp [hm] at hn
    | append_singleton moves x =>
      obtain ⟨l, hl, hx⟩ := run_snoc_eq_some.mp h
      have hshort : moves.length < (moves ++ [x]).length := by simp
      cases x with
      | go next =>
        obtain rfl : { l with state := next } = n := by simpa [step] using hx
        obtain ⟨before, next', since, rfl, hsince, hbefore⟩ := ih _ hshort hl hn rfl
        exact ⟨before, next', since ++ [.go next], by simp, hsince.go next, hbefore⟩
      | suspend kind' next =>
        obtain rfl : ⟨next, (kind', l.state) :: l.suspended⟩ = n := by simpa [step] using hx
        obtain ⟨⟨rfl, rfl⟩, rfl⟩ := by simpa using hn
        exact ⟨moves, next, [], rfl, .nil, hl⟩
      | resume kind' =>
        obtain ⟨before, next, since, rfl, hsince, hbefore⟩ := ih _ hshort hl (step_resume.mp hx) rfl
        have hshorter : before.length < (before ++ Move.suspend kind' next :: since ++ [Move.resume kind']).length := by
          simp only [List.length_append, List.length_cons]
          omega
        obtain ⟨first, next', between, rfl, hbetween, hfirst⟩ := ih _ hshorter hbefore hn rfl
        exact ⟨first, next', between ++ .suspend kind' next :: (since ++ [.resume kind']), by simp,
          hbetween.resume kind' next hsince, hfirst⟩
      | finish next =>
        obtain rfl : (⟨next, []⟩ : Machine κ σ) = n := by simpa [step] using hx
        simp at hn

/-- **A resume goes back to the state the machine was in at the suspension it matches.** -/
theorem matching {m n : Machine κ σ} {moves : List (Move κ σ)} {kind : κ} (hm : m.suspended = [])
    (h : m.run (moves ++ [.resume kind]) = some n) :
    ∃ before next since, moves = before ++ .suspend kind next :: since ∧ Balanced since ∧ m.run before = some n := by
  obtain ⟨l, hl, hx⟩ := run_snoc_eq_some.mp h
  exact opened hm hl (step_resume.mp hx)

end Machine

end CcbCore.Brackets
