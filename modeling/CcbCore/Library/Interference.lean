import CcbCore.Library.Prog
import CcbCore.Library.Run
import Mathlib.Logic.Function.Basic

/-!
# Programs under interference

Threads run programs against one environment, a call at a time and in any order, and
a thread may drop its program for another at any time (`PoolStep`). A program is
judged alone, under what the others may do between its calls (`rely`): `Secures P p R`
says that from `P` every one of its calls does what it guarantees, and that what it
returns satisfies `R`. The rules follow the program (`Secures.bind`, `Secures.askOr`);
what is known before a call must be `Stable`. Where every guarantee is what the others
rely on, the programs of a pool keep each other's judgements, and every call of every
run does what its thread guarantees (`pool_run`, `PoolStep.guarantee`).
-/

namespace CcbCore

variable {I : Signature} {ε α β σ : Type} {env : Environment I ε σ} {rely guar : σ → σ → Prop}

/-- Whatever happens between the calls of the program, each of them does what is
guaranteed, and the end is as `Q` says. -/
def Secure (env : Environment I ε σ) (rely guar : σ → σ → Prop) :
    Prog I ε α → (Except ε α → σ → Prop) → σ → Prop
  | .done result, Q, s => Q result s
  | .call op next, Q, s => ∀ s₁ reply s₂, rely s s₁ → env op s₁ reply s₂ →
      guar s₁ s₂ ∧ Secure env rely guar (next reply) Q s₂

/-- What the others do keeps it. -/
def Stable (rely : σ → σ → Prop) (P : σ → Prop) : Prop := ∀ s s', rely s s' → P s → P s'

theorem Stable.and {P Q : σ → Prop} (hP : Stable rely P) (hQ : Stable rely Q) : Stable rely fun s => P s ∧ Q s :=
  fun s s' h ⟨hp, hq⟩ => ⟨hP s s' h hp, hQ s s' h hq⟩

theorem Stable.const (p : Prop) : Stable rely fun _ => p := fun _ _ _ h => h

theorem Secure.mono {p : Prog I ε α} {Q Q' : Except ε α → σ → Prop} (hQ : ∀ r s, Q r s → Q' r s) {s : σ}
    (h : Secure env rely guar p Q s) : Secure env rely guar p Q' s := by
  induction p generalizing s with
  | done result => exact hQ _ _ h
  | call op next ih =>
    intro s₁ reply s₂ hrely henv
    obtain ⟨hguar, hnext⟩ := h s₁ reply s₂ hrely henv
    exact ⟨hguar, ih reply hnext⟩

/-- What a program is before its first call is stable. -/
theorem Secure.stable (htrans : ∀ s t u, rely s t → rely t u → rely s u) {p : Prog I ε α}
    {Q : Except ε α → σ → Prop} (hQ : ∀ r, Stable rely (Q r)) : Stable rely (Secure env rely guar p Q) := by
  intro s s' hs h
  cases p with
  | done result => exact hQ result s s' hs h
  | call op next =>
    intro s₁ reply s₂ hrely henv
    exact h s₁ reply s₂ (htrans _ _ _ hs hrely) henv

/-- What is stable, and what the guarantee of a program keeps, is there when it ends. -/
theorem Secure.frame (hguar : ∀ s s', guar s s' → rely s s') {F : σ → Prop} (hF : Stable rely F) {p : Prog I ε α}
    {Q : Except ε α → σ → Prop} {s : σ} (h : Secure env rely guar p Q s) (hs : F s) :
    Secure env rely guar p (fun r s => Q r s ∧ F s) s := by
  induction p generalizing s with
  | done result => exact ⟨h, hs⟩
  | call op next ih =>
    intro s₁ reply s₂ hrely henv
    obtain ⟨hdone, hnext⟩ := h s₁ reply s₂ hrely henv
    exact ⟨hdone, ih reply hnext (hF _ _ (hguar _ _ hdone) (hF _ _ hrely hs))⟩

theorem secure_bind {p : Prog I ε α} {f : α → Prog I ε β} {Q : Except ε β → σ → Prop} {s : σ}
    (h : Secure env rely guar p
      (fun r s => match r with
        | .ok a => Secure env rely guar (f a) Q s
        | .error e => Q (.error e) s) s) :
    Secure env rely guar (p >>= f) Q s := by
  rw [Prog.bind_eq]
  induction p generalizing s with
  | done result =>
    cases result with
    | ok a => exact h
    | error e => exact h
  | call op next ih =>
    intro s₁ reply s₂ hrely henv
    obtain ⟨hguar, hnext⟩ := h s₁ reply s₂ hrely henv
    exact ⟨hguar, ih reply hnext⟩

theorem secure_tryCatch {p : Prog I ε α} {handler : ε → Prog I ε α} {Q : Except ε α → σ → Prop} {s : σ}
    (h : Secure env rely guar p
      (fun r s => match r with
        | .ok a => Q (.ok a) s
        | .error e => Secure env rely guar (handler e) Q s) s) :
    Secure env rely guar (tryCatch p handler) Q s := by
  change Secure env rely guar (p.tryCatch handler) Q s
  induction p generalizing s with
  | done result =>
    cases result with
    | ok a => exact h
    | error e => exact h
  | call op next ih =>
    intro s₁ reply s₂ hrely henv
    obtain ⟨hguar, hnext⟩ := h s₁ reply s₂ hrely henv
    exact ⟨hguar, ih reply hnext⟩

theorem secure_refuseIf {p : Prop} {_ : Decidable p} {e : ε} {Q : Except ε PUnit → σ → Prop} {s : σ}
    (hyes : p → Q (.error e) s) (hno : ¬ p → Q (.ok ⟨⟩) s) : Secure env rely guar (.refuseIf p e) Q s := by
  by_cases hp : p
  · simpa [Prog.refuseIf, Secure, hp] using hyes hp
  · simpa [Prog.refuseIf, Secure, hp] using hno hp

/-! ### Judgements -/

/-- The value returned is as `R` says. -/
def Returns (R : α → σ → Prop) : Except ε α → σ → Prop
  | .ok a, s => R a s
  | .error _, _ => True

/-- From `P`, under interference, every call of the program does what is guaranteed,
and the value it returns is as `R` says. -/
def Secures (env : Environment I ε σ) (rely guar : σ → σ → Prop) (P : σ → Prop) (p : Prog I ε α)
    (R : α → σ → Prop) : Prop := ∀ s, P s → Secure env rely guar p (Returns R) s

variable {P P' : σ → Prop} {R : α → σ → Prop} {R' : β → σ → Prop}

theorem Secures.weaken {p : Prog I ε α} (h : Secures env rely guar P p R) (hP : ∀ s, P' s → P s) :
    Secures env rely guar P' p R := fun s hs => h s (hP s hs)

theorem Secures.mono {R₁ R₂ : α → σ → Prop} {p : Prog I ε α} (h : Secures env rely guar P p R₁)
    (hR : ∀ a s, R₁ a s → R₂ a s) : Secures env rely guar P p R₂ := fun s hs => (h s hs).mono fun r s' h => by
  cases r with
  | ok a => exact hR a s' h
  | error e => trivial

/-- A part that says nothing of the state may be assumed. -/
theorem Secures.assume {q : Prop} {p : Prog I ε α} (h : q → Secures env rely guar P p R) :
    Secures env rely guar (fun s => P s ∧ q) p R := fun s hs => h hs.2 s hs.1

/-- What is stable may be kept from before a program. -/
theorem Secures.frame (hguar : ∀ s s', guar s s' → rely s s') {F : σ → Prop} (hF : Stable rely F) {p : Prog I ε α}
    (h : Secures env rely guar P p R) : Secures env rely guar (fun s => P s ∧ F s) p fun a s => R a s ∧ F s := by
  rintro s ⟨hs, hframe⟩
  refine ((h s hs).frame hguar hF hframe).mono fun r s h => ?_
  cases r with
  | ok a => exact h
  | error e => trivial

theorem Secures.bind {p : Prog I ε α} {f : α → Prog I ε β} (hp : Secures env rely guar P p R)
    (hf : ∀ a, Secures env rely guar (R a) (f a) R') : Secures env rely guar P (p >>= f) R' := by
  intro s hs
  refine secure_bind ((hp s hs).mono fun r s' h => ?_)
  cases r with
  | ok a => exact hf a s' h
  | error e => trivial

theorem Secures.pure (a : α) (h : ∀ s, P s → R a s) : Secures env rely guar P (Pure.pure a : Prog I ε α) R := h

theorem Secures.throw (e : ε) : Secures env rely guar P (MonadExcept.throw e : Prog I ε α) R := fun _ _ => trivial

theorem Secures.lift (r : Except ε α) :
    Secures env rely guar P (.lift r) fun a s => P s ∧ r = .ok a := by
  intro s hs
  cases r with
  | ok a => exact ⟨hs, rfl⟩
  | error e => trivial

theorem Secures.refuseIf (p : Prop) [Decidable p] (e : ε) :
    Secures env rely guar P (.refuseIf p e) fun _ s => P s ∧ ¬ p := by
  intro s hs
  by_cases hp : p
  · simp [Prog.refuseIf, hp, Secure, Returns]
  · simp [Prog.refuseIf, hp, Secure, Returns, hs]

theorem Secures.call {op : I.Op} {next : Except ε (I.Reply op) → Prog I ε α} {T : Except ε (I.Reply op) → σ → Prop}
    (hP : Stable rely P) (henv : ∀ s reply s', P s → env op s reply s' → guar s s' ∧ T reply s')
    (hnext : ∀ reply, Secures env rely guar (T reply) (next reply) R) : Secures env rely guar P (.call op next) R := by
  intro s hs s₁ reply s₂ hrely hcall
  obtain ⟨hguar, hT⟩ := henv s₁ reply s₂ (hP s s₁ hrely hs) hcall
  exact ⟨hguar, hnext reply s₂ hT⟩

theorem Secures.askOr {op : I.Op} {handler : ε → ε} {R : I.Reply op → σ → Prop} (hP : Stable rely P)
    (henv : ∀ s reply s', P s → env op s reply s' → guar s s' ∧ ∀ a, reply = .ok a → R a s') :
    Secures env rely guar P (.askOr op handler) R :=
  Secures.call (T := fun reply s => ∀ a, reply = .ok a → R a s) hP henv fun reply s hs => by
    cases reply with
    | ok a => exact hs a rfl
    | error e => trivial

theorem Secures.ask {op : I.Op} {R : I.Reply op → σ → Prop} (hP : Stable rely P)
    (henv : ∀ s reply s', P s → env op s reply s' → guar s s' ∧ ∀ a, reply = .ok a → R a s') :
    Secures env rely guar P (.ask op) R :=
  Secures.call (T := fun reply s => ∀ a, reply = .ok a → R a s) hP henv fun reply s hs => by
    cases reply with
    | ok a => exact hs a rfl
    | error e => trivial

/-- A program whose every call does what is guaranteed, from any state. -/
theorem Secures.only {allowed : I.Op → Prop} {p : Prog I ε α} (hp : p.Only allowed)
    (henv : ∀ op s reply s', allowed op → env op s reply s' → guar s s') :
    Secures env rely guar P p fun _ _ => True := by
  induction p generalizing P with
  | done result =>
    intro s _
    cases result <;> trivial
  | call op next ih =>
    intro s _ s₁ reply s₂ _ hcall
    exact ⟨henv op s₁ reply s₂ hp.1 hcall, ih reply (hp.2 reply) (P := fun _ => True) s₂ trivial⟩

/-- Where every call does what is guaranteed, a program keeps what is stable. -/
theorem Secures.keep (hguar : ∀ s s', guar s s' → rely s s') (henv : ∀ op s reply s', env op s reply s' → guar s s')
    (hP : Stable rely P) (p : Prog I ε α) : Secures env rely guar P p fun _ s => P s := by
  induction p with
  | done result =>
    intro s hs
    cases result with
    | ok a => exact hs
    | error e => trivial
  | call op next ih =>
    exact .call hP (fun s reply s' hs hcall => ⟨henv op s reply s' hcall, hP s s' (hguar s s' (henv op s reply s' hcall)) hs⟩) ih

/-- What a program does with calls that it may make, judged by what those calls do. -/
theorem Secures.restrict {env' : Environment I ε σ} {allowed : I.Op → Prop} {p : Prog I ε α} (hp : p.Only allowed)
    (henv : ∀ op s reply s', allowed op → env op s reply s' → env' op s reply s') (h : Secures env' rely guar P p R) :
    Secures env rely guar P p R := by
  have hsecure : ∀ {q : Prog I ε α} {s : σ}, q.Only allowed → Secure env' rely guar q (Returns R) s →
      Secure env rely guar q (Returns R) s := by
    intro q
    induction q with
    | done result => exact fun _ hq => hq
    | call op next ih =>
      intro s hq hsafe s₁ reply s₂ hrely hcall
      obtain ⟨hguar, hnext⟩ := hsafe s₁ reply s₂ hrely (henv op s₁ reply s₂ hq.1 hcall)
      exact ⟨hguar, ih reply (hq.2 reply) hnext⟩
  exact fun s hs => hsecure hp (h s hs)

/-- A program may guarantee what each of the calls that it may make does. -/
theorem Secures.strengthen {env' : Environment I ε σ} {guar' : σ → σ → Prop} {allowed : I.Op → Prop} {p : Prog I ε α}
    (hp : p.Only allowed) (henv : ∀ op s reply s', allowed op → env op s reply s' → env' op s reply s' ∧ guar' s s')
    (h : Secures env' rely guar P p R) : Secures env rely guar' P p R := by
  have hsecure : ∀ {q : Prog I ε α} {s : σ}, q.Only allowed → Secure env' rely guar q (Returns R) s →
      Secure env rely guar' q (Returns R) s := by
    intro q
    induction q with
    | done result => exact fun _ hq => hq
    | call op next ih =>
      intro s hq hsafe s₁ reply s₂ hrely hcall
      obtain ⟨hcall', hguar⟩ := henv op s₁ reply s₂ hq.1 hcall
      exact ⟨hguar, ih reply (hq.2 reply) (hsafe s₁ reply s₂ hrely hcall').2⟩
  exact fun s hs => hsecure hp (h s hs)

/-! ### Pools of threads -/

variable {ι δ : Type} [DecidableEq ι]

/-- Threads over one state, each with the arguments of its program and what is left of it. -/
structure Pool (I : Signature) (ε α σ ι δ : Type) where
  state : σ
  data : ι → δ
  program : ι → Prog I ε α

/-- What happens in a pool. -/
inductive PoolEvent (ι δ : Type) where
  /-- A thread drops what it has, and starts a program. -/
  | start (i : ι) (d : δ)
  /-- A thread makes its next call. -/
  | call (i : ι)
  /-- What is no thread does something. -/
  | other

/-- A step of a pool whose threads run `body` of their arguments. -/
inductive PoolStep (env : Environment I ε σ) (other : σ → σ → Prop) (body : δ → Prog I ε α)
    (p : Pool I ε α σ ι δ) : PoolEvent ι δ → Pool I ε α σ ι δ → Prop where
  | start (i : ι) (d : δ) : PoolStep env other body p (.start i d)
      { p with data := Function.update p.data i d, program := Function.update p.program i (body d) }
  | call {i : ι} {op : I.Op} {next : Except ε (I.Reply op) → Prog I ε α} {reply : Except ε (I.Reply op)} {s : σ} :
      p.program i = .call op next → env op p.state reply s →
      PoolStep env other body p (.call i)
        { p with state := s, program := Function.update p.program i (next reply) }
  | other {s : σ} : other p.state s → PoolStep env other body p .other { p with state := s }

variable {other : σ → σ → Prop} {body : δ → Prog I ε α} {promise : δ → σ → σ → Prop}
variable {p p' : Pool I ε α σ ι δ} {e : PoolEvent ι δ}

/-- Every thread's program does what is promised for its arguments. -/
def Pool.Secured (env : Environment I ε σ) (rely : σ → σ → Prop) (promise : δ → σ → σ → Prop)
    (p : Pool I ε α σ ι δ) : Prop :=
  ∀ i, Secure env rely (promise (p.data i)) (p.program i) (fun _ _ => True) p.state

omit [DecidableEq ι] in
/-- Threads that have ended do what is promised. -/
theorem secured_of_done (h : ∀ i, ∃ result, p.program i = .done result) : p.Secured env rely promise := by
  intro i
  obtain ⟨result, hresult⟩ := h i
  rw [hresult]
  trivial

/-- A call of a thread does what is promised for its arguments. -/
theorem PoolStep.guarantee (hrefl : ∀ s, rely s s) (hsecured : p.Secured env rely promise) {i : ι}
    (h : PoolStep env other body p (.call i) p') : promise (p.data i) p.state p'.state := by
  cases h with
  | call hprogram henv =>
    have := hsecured i
    rw [hprogram] at this
    exact (this _ _ _ (hrefl _) henv).1

/-- Every thread's program does what is promised for its arguments, and ends as `Q` says of them. -/
def Pool.Meets (env : Environment I ε σ) (rely : σ → σ → Prop) (promise : δ → σ → σ → Prop)
    (Q : δ → Except ε α → σ → Prop) (p : Pool I ε α σ ι δ) : Prop :=
  ∀ i, Secure env rely (promise (p.data i)) (p.program i) (Q (p.data i)) p.state

variable {Q : δ → Except ε α → σ → Prop} {J : σ → Prop}

omit [DecidableEq ι] in
/-- A thread that has ended has ended as `Q` says. -/
theorem Pool.Meets.done (h : p.Meets env rely promise Q) {i : ι} {result : Except ε α} (hdone : p.program i = .done result) :
    Q (p.data i) result p.state := by
  have hi := h i
  rwa [hdone] at hi

theorem PoolStep.meets (hrefl : ∀ s, rely s s) (htrans : ∀ s t u, rely s t → rely t u → rely s u)
    (hpromise : ∀ d s s', promise d s s' → rely s s') (hother : ∀ s s', other s s' → rely s s')
    (hQ : ∀ d r, Stable rely (Q d r)) (hbody : ∀ d s, J s → Secure env rely (promise d) (body d) (Q d) s)
    (hmeets : p.Meets env rely promise Q) (hJ : J p.state) (h : PoolStep env other body p e p') :
    p'.Meets env rely promise Q ∧ rely p.state p'.state := by
  have hstable : ∀ i s', rely p.state s' → Secure env rely (promise (p.data i)) (p.program i) (Q (p.data i)) s' :=
    fun i s' hs => Secure.stable htrans (hQ _) _ _ hs (hmeets i)
  cases h with
  | start i d =>
    refine ⟨fun j => ?_, hrefl _⟩
    by_cases hj : j = i
    · subst hj
      simpa using hbody d p.state hJ
    · simpa [hj] using hmeets j
  | @call i op next reply s hprogram henv =>
    have hcall := hmeets i
    rw [hprogram] at hcall
    obtain ⟨hdone, hnext⟩ := hcall _ _ _ (hrefl _) henv
    have hrely := hpromise _ _ _ hdone
    refine ⟨fun j => ?_, hrely⟩
    by_cases hj : j = i
    · subst hj
      simpa using hnext
    · simpa [hj] using hstable j s hrely
  | @other s hs => exact ⟨fun j => hstable j s (hother _ _ hs), hother _ _ hs⟩

/-- Programs that do what is promised and end as `Q` says, from states that are as `J`
says, do so in every run of a pool; and a run is as each of them relies on. -/
theorem pool_run_meets (hrefl : ∀ s, rely s s) (htrans : ∀ s t u, rely s t → rely t u → rely s u)
    (hpromise : ∀ d s s', promise d s s' → rely s s') (hother : ∀ s s', other s s' → rely s s')
    (hQ : ∀ d r, Stable rely (Q d r)) (hJ : Stable rely J)
    (hbody : ∀ d s, J s → Secure env rely (promise d) (body d) (Q d) s) (hmeets : p.Meets env rely promise Q)
    (hstate : J p.state) {es : List (PoolEvent ι δ)} (h : Run (PoolStep env other body) p es p') :
    p'.Meets env rely promise Q ∧ rely p.state p'.state := by
  induction h with
  | nil => exact ⟨hmeets, hrefl _⟩
  | snoc _ hstep ih =>
    obtain ⟨hmeets', hrely⟩ := PoolStep.meets hrefl htrans hpromise hother hQ hbody ih.1 (hJ _ _ ih.2 hstate) hstep
    exact ⟨hmeets', htrans _ _ _ ih.2 hrely⟩

/-- Programs that do what is promised, under what is promised, do so in every run of a
pool; and a run is as each of them relies on. -/
theorem pool_run (hrefl : ∀ s, rely s s) (htrans : ∀ s t u, rely s t → rely t u → rely s u)
    (hpromise : ∀ d s s', promise d s s' → rely s s') (hother : ∀ s s', other s s' → rely s s')
    (hbody : ∀ d s, Secure env rely (promise d) (body d) (fun _ _ => True) s)
    (hsecured : p.Secured env rely promise) {es : List (PoolEvent ι δ)} (h : Run (PoolStep env other body) p es p') :
    p'.Secured env rely promise ∧ rely p.state p'.state :=
  pool_run_meets (Q := fun _ _ _ => True) (J := fun _ => True) hrefl htrans hpromise hother (fun _ _ => Stable.const True)
    (Stable.const True) (fun d s _ => hbody d s) hsecured trivial h

/-- A run of a thread's program is a run of the pool. -/
theorem Runs.pool {q : Prog I ε α} {s t : σ} {answers : List (Answer I ε)} {result : Except ε α}
    (h : Runs env q s answers result t) {i : ι} (hs : p.state = s) (hq : p.program i = q) :
    Run (PoolStep env other body) p (answers.map fun _ => .call i)
      { p with state := t, program := Function.update p.program i (.done result) } := by
  induction h generalizing p with
  | done =>
    subst hs
    rw [← hq, Function.update_eq_self]
    exact .nil
  | @call op next s t _ reply _ _ henv _ ih =>
    subst hs
    have hrest := ih (p := { p with state := t, program := Function.update p.program i (next reply) }) rfl
      (Function.update_self ..)
    simp only [Function.update_idem] at hrest
    exact .cons (.call hq henv) hrest

/-- A thread may start a program, and run it. -/
theorem Runs.start {d : δ} {t : σ} {answers : List (Answer I ε)} {result : Except ε α}
    (h : Runs env (body d) p.state answers result t) (i : ι) :
    ∃ es p', Run (PoolStep env other body) p es p' ∧ p'.state = t ∧ p'.data i = d ∧ p'.program i = .done result :=
  ⟨_, _, .cons (.start i d) (h.pool rfl (Function.update_self ..)), rfl, Function.update_self .., Function.update_self ..⟩

end CcbCore
