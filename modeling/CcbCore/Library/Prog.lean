import Mathlib.Tactic.Common

/-!
# Programs that call an environment

A program over a `Signature` ends, or makes a call and goes on with the reply, which
is a value of the call's type or an exception. Nothing is said of who answers: an
`Environment` relates a call, in a state, to its possible replies and the states
after them. `Runs` is a run of one program against an environment, with the calls
made and their replies; `runs_bind` takes it apart along the program, and `runs_play`
plays one against an environment that answers by a function.
-/

namespace CcbCore

/-- Calls, and the type of each one's reply. -/
structure Signature where
  Op : Type
  Reply : Op → Type

/-- A program that returns an `α`, or raises an `ε`. -/
inductive Prog (I : Signature) (ε α : Type) where
  /-- The program has ended. -/
  | done (result : Except ε α)
  /-- The program makes a call, and goes on with its reply. -/
  | call (op : I.Op) (next : Except ε (I.Reply op) → Prog I ε α)

variable {I : Signature} {ε α β : Type}

namespace Prog

/-- Go on with the value a program returns. -/
def bind : Prog I ε α → (α → Prog I ε β) → Prog I ε β
  | .done (.ok a), f => f a
  | .done (.error e), _ => .done (.error e)
  | .call op next, f => .call op fun reply => (next reply).bind f

/-- Go on with the exception a program raises. -/
def tryCatch : Prog I ε α → (ε → Prog I ε α) → Prog I ε α
  | .done (.ok a), _ => .done (.ok a)
  | .done (.error e), h => h e
  | .call op next, h => .call op fun reply => (next reply).tryCatch h

instance : Monad (Prog I ε) where
  pure a := .done (.ok a)
  bind := bind

instance : MonadExceptOf ε (Prog I ε) where
  throw e := .done (.error e)
  tryCatch := tryCatch

/-- Make a call, and return or raise its reply. -/
def ask (op : I.Op) : Prog I ε (I.Reply op) := .call op .done

/-- Make a call, and raise another exception for the one it raises. -/
def askOr (op : I.Op) (handler : ε → ε) : Prog I ε (I.Reply op) :=
  .call op fun reply => .done (reply.mapError handler)

/-- A computation without a call. -/
def lift (result : Except ε α) : Prog I ε α := .done result

/-- Raise when a condition holds. -/
def refuseIf (p : Prop) [Decidable p] (e : ε) : Prog I ε PUnit :=
  .done (if p then .error e else .ok ⟨⟩)

/-- Every call of the program is allowed, whatever the replies. -/
def Only (allowed : I.Op → Prop) : Prog I ε α → Prop
  | .done _ => True
  | .call op next => allowed op ∧ ∀ reply, (next reply).Only allowed

theorem pure_eq (a : α) : (pure a : Prog I ε α) = .done (.ok a) := rfl

theorem throw_eq (e : ε) : (throw e : Prog I ε α) = .done (.error e) := rfl

theorem bind_eq (p : Prog I ε α) (f : α → Prog I ε β) : p >>= f = p.bind f := rfl

variable {allowed : I.Op → Prop}

theorem Only.bind {p : Prog I ε α} {f : α → Prog I ε β} (hp : p.Only allowed) (hf : ∀ a, (f a).Only allowed) :
    (p >>= f).Only allowed := by
  rw [bind_eq]
  induction p with
  | done result =>
    cases result with
    | ok a => exact hf a
    | error e => trivial
  | call op next ih => exact ⟨hp.1, fun reply => ih reply (hp.2 reply)⟩

/-- A computation without a call, then what is done with its value. -/
theorem Only.lift_bind {r : Except ε α} {f : α → Prog I ε β} (hf : ∀ a, r = .ok a → (f a).Only allowed) :
    (lift r >>= f).Only allowed := by
  cases r with
  | ok a => exact hf a rfl
  | error e => trivial

theorem Only.refuseIf_bind {p : Prop} [Decidable p] {e : ε} {f : PUnit → Prog I ε β} (hf : ¬ p → (f ⟨⟩).Only allowed) :
    (refuseIf p e >>= f).Only allowed := by
  by_cases hp : p
  · rw [refuseIf, if_pos hp]
    trivial
  · rw [refuseIf, if_neg hp]
    exact hf hp

theorem Only.ask {op : I.Op} (h : allowed op) : (ask op : Prog I ε (I.Reply op)).Only allowed := ⟨h, fun _ => trivial⟩

theorem Only.askOr {op : I.Op} {handler : ε → ε} (h : allowed op) : (askOr op handler).Only allowed :=
  ⟨h, fun _ => trivial⟩

end Prog

/-! ### Runs -/

/-- A call and its reply. -/
structure Answer (I : Signature) (ε : Type) where
  op : I.Op
  reply : Except ε (I.Reply op)

/-- The replies to a call in a state, and the states after them. -/
abbrev Environment (I : Signature) (ε σ : Type) :=
  (op : I.Op) → σ → Except ε (I.Reply op) → σ → Prop

variable {σ : Type}

/-- A run of a program: the calls it makes with their replies, its result, and the
state it leaves. -/
inductive Runs (env : Environment I ε σ) : Prog I ε α → σ → List (Answer I ε) → Except ε α → σ → Prop where
  /-- The program has ended. -/
  | done {result : Except ε α} {s : σ} : Runs env (.done result) s [] result s
  /-- The environment answers a call. -/
  | call {op : I.Op} {next : Except ε (I.Reply op) → Prog I ε α} {s t u : σ} {reply : Except ε (I.Reply op)}
      {answers : List (Answer I ε)} {result : Except ε α} :
      env op s reply t → Runs env (next reply) t answers result u →
      Runs env (.call op next) s (⟨op, reply⟩ :: answers) result u

variable {env : Environment I ε σ} {s t : σ} {answers : List (Answer I ε)}

@[simp] theorem runs_done {result result' : Except ε α} :
    Runs env (.done result) s answers result' t ↔ answers = [] ∧ result' = result ∧ t = s := by
  constructor
  · intro h
    cases h
    exact ⟨rfl, rfl, rfl⟩
  · rintro ⟨rfl, rfl, rfl⟩
    exact .done

theorem runs_call {op : I.Op} {next : Except ε (I.Reply op) → Prog I ε α} {result : Except ε α} :
    Runs env (.call op next) s answers result t ↔
      ∃ reply u rest, env op s reply u ∧ answers = ⟨op, reply⟩ :: rest ∧ Runs env (next reply) u rest result t := by
  constructor
  · intro h
    cases h with
    | call henv hnext => exact ⟨_, _, _, henv, rfl, hnext⟩
  · rintro ⟨reply, u, rest, henv, rfl, hnext⟩
    exact .call henv hnext

theorem runs_bind {p : Prog I ε α} {f : α → Prog I ε β} {result : Except ε β} :
    Runs env (p >>= f) s answers result t ↔
      (∃ e, Runs env p s answers (.error e) t ∧ result = .error e) ∨
      ∃ a u first rest, Runs env p s first (.ok a) u ∧ Runs env (f a) u rest result t ∧ answers = first ++ rest := by
  rw [Prog.bind_eq]
  induction p generalizing s answers with
  | done r =>
    cases r with
    | error e => simp [Prog.bind, and_comm, and_left_comm, and_assoc]
    | ok a => simp [Prog.bind]
  | call op next ih =>
    simp only [Prog.bind, runs_call, ih]
    constructor
    · rintro ⟨reply, u, rest, henv, rfl, ⟨e, hnext, rfl⟩ | ⟨a, v, first, last, hnext, hf, rfl⟩⟩
      · exact .inl ⟨e, ⟨reply, u, rest, henv, rfl, hnext⟩, rfl⟩
      · exact .inr ⟨a, v, _, last, ⟨reply, u, first, henv, rfl, hnext⟩, hf, rfl⟩
    · rintro (⟨e, ⟨reply, u, rest, henv, rfl, hnext⟩, rfl⟩ | ⟨a, v, _, last, ⟨reply, u, rest, henv, rfl, hnext⟩, hf, rfl⟩)
      · exact ⟨reply, u, rest, henv, rfl, .inl ⟨e, hnext, rfl⟩⟩
      · exact ⟨reply, u, rest ++ last, henv, rfl, .inr ⟨a, v, rest, last, hnext, hf, rfl⟩⟩

theorem runs_tryCatch {p : Prog I ε α} {handler : ε → Prog I ε α} {result : Except ε α} :
    Runs env (tryCatch p handler) s answers result t ↔
      (∃ a, Runs env p s answers (.ok a) t ∧ result = .ok a) ∨
      ∃ e u first rest, Runs env p s first (.error e) u ∧ Runs env (handler e) u rest result t ∧ answers = first ++ rest := by
  change Runs env (p.tryCatch handler) s answers result t ↔ _
  induction p generalizing s answers with
  | done r =>
    cases r with
    | error e => simp [Prog.tryCatch]
    | ok a => simp [Prog.tryCatch, and_comm, and_left_comm, and_assoc]
  | call op next ih =>
    simp only [Prog.tryCatch, runs_call, ih]
    constructor
    · rintro ⟨reply, u, rest, henv, rfl, ⟨a, hnext, rfl⟩ | ⟨e, v, first, last, hnext, hhandler, rfl⟩⟩
      · exact .inl ⟨a, ⟨reply, u, rest, henv, rfl, hnext⟩, rfl⟩
      · exact .inr ⟨e, v, _, last, ⟨reply, u, first, henv, rfl, hnext⟩, hhandler, rfl⟩
    · rintro (⟨a, ⟨reply, u, rest, henv, rfl, hnext⟩, rfl⟩ | ⟨e, v, _, last, ⟨reply, u, rest, henv, rfl, hnext⟩, hhandler, rfl⟩)
      · exact ⟨reply, u, rest, henv, rfl, .inl ⟨a, hnext, rfl⟩⟩
      · exact ⟨reply, u, rest ++ last, henv, rfl, .inr ⟨e, v, rest, last, hnext, hhandler, rfl⟩⟩

@[simp] theorem runs_pure {a : α} {result : Except ε α} :
    Runs env (pure a) s answers result t ↔ answers = [] ∧ result = .ok a ∧ t = s := runs_done

@[simp] theorem runs_throw {e : ε} {result : Except ε α} :
    Runs env (throw e) s answers result t ↔ answers = [] ∧ result = .error e ∧ t = s := runs_done

theorem runs_ask {op : I.Op} {result : Except ε (I.Reply op)} :
    Runs env (.ask op) s answers result t ↔ env op s result t ∧ answers = [⟨op, result⟩] := by
  rw [Prog.ask, runs_call]
  constructor
  · rintro ⟨reply, u, rest, henv, rfl, hdone⟩
    obtain ⟨rfl, rfl, rfl⟩ := runs_done.mp hdone
    exact ⟨henv, rfl⟩
  · rintro ⟨henv, rfl⟩
    exact ⟨result, t, [], henv, rfl, runs_done.mpr ⟨rfl, rfl, rfl⟩⟩

theorem runs_askOr {op : I.Op} {handler : ε → ε} {result : Except ε (I.Reply op)} :
    Runs env (.askOr op handler) s answers result t ↔
      ∃ reply, env op s reply t ∧ answers = [⟨op, reply⟩] ∧ result = reply.mapError handler := by
  rw [Prog.askOr, runs_call]
  constructor
  · rintro ⟨reply, u, rest, henv, rfl, hdone⟩
    obtain ⟨rfl, rfl, rfl⟩ := runs_done.mp hdone
    exact ⟨reply, henv, rfl, rfl⟩
  · rintro ⟨reply, henv, rfl, rfl⟩
    exact ⟨reply, t, [], henv, rfl, runs_done.mpr ⟨rfl, rfl, rfl⟩⟩

@[simp] theorem runs_refuseIf {p : Prop} [Decidable p] {e : ε} {result : Except ε PUnit} :
    Runs env (.refuseIf p e) s answers result t ↔
      answers = [] ∧ result = (if p then .error e else .ok ⟨⟩) ∧ t = s := runs_done

@[simp] theorem runs_lift {r result : Except ε α} :
    Runs env (.lift r) s answers result t ↔ answers = [] ∧ result = r ∧ t = s := runs_done

/-- The run of a program against what answers by a function. -/
def Prog.play (answer : (op : I.Op) → σ → Except ε (I.Reply op) × σ) :
    Prog I ε α → σ → List (Answer I ε) × Except ε α × σ
  | .done result, s => ([], result, s)
  | .call op next, s =>
    let (reply, t) := answer op s
    let (answers, outcome) := (next reply).play answer t
    (⟨op, reply⟩ :: answers, outcome)

theorem runs_play {answer : (op : I.Op) → σ → Except ε (I.Reply op) × σ} {J : σ → Prop}
    (henv : ∀ op s, J s → env op s (answer op s).1 (answer op s).2 ∧ J (answer op s).2) (p : Prog I ε α) (s : σ)
    (hs : J s) : Runs env p s (p.play answer s).1 (p.play answer s).2.1 (p.play answer s).2.2 := by
  induction p generalizing s with
  | done result => exact .done
  | call op next ih => exact .call (henv op s hs).1 (ih _ _ (henv op s hs).2)

/-- Against an environment that always has a reply, a program runs. -/
theorem exists_runs {J : σ → Prop} (henv : ∀ op s, J s → ∃ reply t, env op s reply t ∧ J t) (p : Prog I ε α) (s : σ) (hs : J s) :
    ∃ answers result t, Runs env p s answers result t := by
  induction p generalizing s with
  | done result => exact ⟨[], result, s, .done⟩
  | call op next ih =>
    obtain ⟨reply, t, hreply, ht⟩ := henv op s hs
    obtain ⟨answers, result, u, hrest⟩ := ih reply t ht
    exact ⟨_, result, u, .call hreply hrest⟩

end CcbCore
