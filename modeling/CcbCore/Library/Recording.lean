import CcbCore.Library.Interference

/-!
# Recorded calls

A program's calls, judged by the calls before them. `Recording` is the environment that
gives any reply of those `possible`, and whose state is the calls made so far with their
replies. What `Secures` shows of a program there holds of its runs against every environment
that gives no other replies: each call does what is guaranteed of the calls before it
(`Secure.recorded`).
-/

namespace CcbCore

variable {I : Signature} {ε α β σ : Type} {possible : (op : I.Op) → Except ε (I.Reply op) → Prop}

/-- Any possible replies, each kept with its call. -/
def Recording (possible : (op : I.Op) → Except ε (I.Reply op) → Prop) : Environment I ε (List (Answer I ε)) :=
  fun op answers reply answers' => possible op reply ∧ answers' = answers ++ [⟨op, reply⟩]

/-- Where nothing happens between the calls, everything is stable. -/
theorem stable_eq {P : σ → Prop} : Stable Eq P := by
  rintro s _ rfl
  exact id

/-- What is guaranteed of recorded calls holds of those of every run. -/
theorem Secure.recorded {env : Environment I ε σ} {guar : List (Answer I ε) → List (Answer I ε) → Prop}
    {p : Prog I ε α} {Q : Except ε α → List (Answer I ε) → Prop} {before answers : List (Answer I ε)}
    {result : Except ε α} {s t : σ} (h : Secure (Recording possible) Eq guar p Q before)
    (hpossible : ∀ op s reply t, env op s reply t → possible op reply) (hrun : Runs env p s answers result t) :
    Q result (before ++ answers) ∧
      ∀ first answer last, answers = first ++ answer :: last → guar (before ++ first) (before ++ first ++ [answer]) := by
  induction hrun generalizing before with
  | done =>
    rw [List.append_nil]
    exact ⟨h, fun first answer last heq => by simp at heq⟩
  | @call op next s t u reply answers result henv _ ih =>
    obtain ⟨hguar, hnext⟩ := h before reply _ rfl ⟨hpossible op s reply t henv, rfl⟩
    obtain ⟨hQ, hrest⟩ := ih hnext
    rw [List.append_assoc] at hQ
    refine ⟨hQ, fun first answer last heq => ?_⟩
    cases first with
    | nil =>
      obtain ⟨rfl, -⟩ := List.cons.inj heq
      rwa [List.append_nil]
    | cons answer' first =>
      obtain ⟨rfl, htail⟩ := List.cons.inj heq
      have hstep := hrest first answer last htail
      rwa [List.append_assoc before, List.singleton_append] at hstep

namespace Prog

/-- Every value the program returns is as `R` says. -/
def Yields (R : α → Prop) : Prog I ε α → Prop
  | .done (.ok a) => R a
  | .done (.error _) => True
  | .call _ next => ∀ reply, (next reply).Yields R

variable {R : β → Prop}

theorem Yields.bind {p : Prog I ε α} {f : α → Prog I ε β} (hf : ∀ a, (f a).Yields R) : (p >>= f).Yields R := by
  rw [bind_eq]
  induction p with
  | done result =>
    cases result with
    | ok a => exact hf a
    | error e => trivial
  | call op next ih => exact fun reply => ih reply

theorem Yields.mono {R' : β → Prop} {p : Prog I ε β} (h : p.Yields R) (hR : ∀ b, R b → R' b) : p.Yields R' := by
  induction p with
  | done result =>
    cases result with
    | ok b => exact hR b h
    | error e => trivial
  | call op next ih => exact fun reply => ih reply (h reply)

theorem Yields.pure {b : β} (h : R b) : (Pure.pure b : Prog I ε β).Yields R := h

theorem Yields.throw {e : ε} : (MonadExcept.throw e : Prog I ε β).Yields R := trivial

end Prog

variable {env : Environment I ε σ} {rely guar : σ → σ → Prop} {P : σ → Prop}

/-- A program whose every call does what is guaranteed, from any state, and what it returns. -/
theorem Secures.yields {allowed : I.Op → Prop} {p : Prog I ε α} {R : α → Prop} (hp : p.Only allowed) (hR : p.Yields R)
    (henv : ∀ op s reply s', allowed op → env op s reply s' → guar s s') :
    Secures env rely guar P p fun a _ => R a := by
  induction p generalizing P with
  | done result =>
    intro s _
    cases result with
    | ok a => exact hR
    | error e => trivial
  | call op next ih =>
    intro s _ s₁ reply s₂ _ hcall
    exact ⟨henv op s₁ reply s₂ hp.1 hcall, ih reply (hp.2 reply) (hR reply) (P := fun _ => True) s₂ trivial⟩

end CcbCore
