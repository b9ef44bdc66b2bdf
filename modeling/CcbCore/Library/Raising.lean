import Mathlib.Tactic.Common

/-!
# Programs that raise

A method of an object that may raise an exception is an `EStateM ε σ α`: from a
state it either returns a value or raises an error, and *both* ways it leaves a
state behind, as an exception does not undo the assignments made before it. Two
properties of such programs recur and are kept here with their composition rules.

* `ReadOnly m` — whatever `m` does, the state it leaves is the one it found.
* `Atomic m` — if `m` raises, the state it leaves is the one it found.

A method that makes all its checks first and its assignments last is atomic: its
checks are read-only (`ReadOnly.bind`, `Atomic.bind_left`) and its assignments do
not raise (`Atomic.of_total`).
-/

namespace CcbCore.Raising

universe u

variable {ε σ α β : Type u}

/-- Whatever the program does, it leaves the state it found. -/
def ReadOnly (m : EStateM ε σ α) : Prop :=
  ∀ s, (∃ a, m.run s = .ok a s) ∨ ∃ e, m.run s = .error e s

/-- A program that raises leaves the state it found. -/
def Atomic (m : EStateM ε σ α) : Prop := ∀ s e t, m.run s = .error e t → t = s

/-- A program that never raises. -/
def Total (m : EStateM ε σ α) : Prop := ∀ s, ∃ a t, m.run s = .ok a t

theorem run_bind_ok {m : EStateM ε σ α} {f : α → EStateM ε σ β} {s t : σ} {b : β} :
    (m >>= f).run s = .ok b t ↔ ∃ a u, m.run s = .ok a u ∧ (f a).run u = .ok b t := by
  rw [EStateM.run_bind]
  cases h : m.run s with
  | ok a u =>
    constructor
    · exact fun hf => ⟨a, u, rfl, hf⟩
    · rintro ⟨a', u', hm, hf⟩
      cases hm
      exact hf
  | error e u => simp

theorem run_bind_error {m : EStateM ε σ α} {f : α → EStateM ε σ β} {s t : σ} {e : ε} :
    (m >>= f).run s = .error e t ↔
      m.run s = .error e t ∨ ∃ a u, m.run s = .ok a u ∧ (f a).run u = .error e t := by
  rw [EStateM.run_bind]
  cases h : m.run s with
  | ok a u =>
    constructor
    · exact fun hf => .inr ⟨a, u, rfl, hf⟩
    · rintro (hm | ⟨a', u', hm, hf⟩)
      · cases hm
      · cases hm
        exact hf
  | error e u => simp

/-! ### Returning -/

@[simp] theorem run_pure_ok {a b : α} {s t : σ} :
    (Pure.pure a : EStateM ε σ α).run s = .ok b t ↔ b = a ∧ t = s := by
  rw [EStateM.run_pure]
  simp [eq_comm]

@[simp] theorem run_throw_eq (e : ε) (s : σ) :
    (MonadExcept.throw e : EStateM ε σ α).run s = .error e s := rfl

theorem run_throw_ok {e : ε} {b : α} {s t : σ} :
    ¬ (MonadExcept.throw e : EStateM ε σ α).run s = .ok b t := by
  simp

@[simp] theorem run_get_bind {f : σ → EStateM ε σ α} {s : σ} :
    (MonadState.get >>= f).run s = (f s).run s := rfl

@[simp] theorem run_get_ok {a s t : σ} :
    (MonadState.get : EStateM ε σ σ).run s = .ok a t ↔ a = s ∧ t = s := by
  rw [EStateM.run_get]
  simp [eq_comm]

@[simp] theorem run_set_ok {a : PUnit} {u s t : σ} :
    (MonadStateOf.set u : EStateM ε σ PUnit).run s = .ok a t ↔ t = u := by
  rw [EStateM.run_set]
  simp [eq_comm]

@[simp] theorem run_modify_ok {a : PUnit} {f : σ → σ} {s t : σ} :
    (modify f : EStateM ε σ PUnit).run s = .ok a t ↔ t = f s := by
  rw [EStateM.run_modify]
  simp [eq_comm]

theorem run_map (m : EStateM ε σ α) (f : α → β) (s : σ) :
    (f <$> m).run s = match m.run s with
      | .ok a t => .ok (f a) t
      | .error e t => .error e t := rfl

theorem run_map_ok {m : EStateM ε σ α} {f : α → β} {s t : σ} {b : β} :
    (f <$> m).run s = .ok b t ↔ ∃ a, m.run s = .ok a t ∧ b = f a := by
  rw [map_eq_pure_bind, run_bind_ok]
  constructor
  · rintro ⟨a, u, hm, hb⟩
    obtain ⟨rfl, rfl⟩ := run_pure_ok.mp hb
    exact ⟨a, hm, rfl⟩
  · rintro ⟨a, hm, rfl⟩
    exact ⟨a, t, hm, rfl⟩

/-- A check that raises: the program returns when the check passes and the rest returns. -/
@[simp] theorem run_guard_ok {p : Prop} [Decidable p] {e : ε} {m : EStateM ε σ α} {a : α} {s t : σ} :
    (if p then MonadExcept.throw e else m).run s = .ok a t ↔ ¬ p ∧ m.run s = .ok a t := by
  by_cases hp : p
  · simp [hp]
  · simp [hp]

@[simp] theorem run_forM_nil {f : α → EStateM ε σ PUnit} {u : PUnit} {s t : σ} :
    (([] : List α).forM f).run s = .ok u t ↔ t = s := by
  rw [List.forM, run_pure_ok]
  simp

theorem run_forM_cons {f : α → EStateM ε σ PUnit} {a : α} {as : List α} {u : PUnit} {s t : σ} :
    ((a :: as).forM f).run s = .ok u t ↔ ∃ s', (f a).run s = .ok ⟨⟩ s' ∧ (as.forM f).run s' = .ok u t := by
  rw [List.forM, run_bind_ok]
  exact ⟨fun ⟨_, s', h⟩ => ⟨s', h⟩, fun ⟨s', h⟩ => ⟨⟨⟩, s', h⟩⟩

/-- A loop of assignments. -/
theorem run_forM_modify {f : α → σ → σ} {as : List α} {s : σ} :
    (as.forM fun a => (modify (f a) : EStateM ε σ PUnit)).run s = .ok ⟨⟩ (as.foldl (fun s a => f a s) s) := by
  induction as generalizing s with
  | nil => rfl
  | cons a as ih => exact ih

/-! ### Checks and lookups -/

/-- Raise when a condition holds. -/
def refuseIf (p : Prop) [Decidable p] (e : ε) : EStateM ε σ PUnit :=
  if p then MonadExcept.throw e else Pure.pure ⟨⟩

/-- Raise when a value is missing. -/
def required (x : Option α) (e : ε) : EStateM ε σ α :=
  match x with
  | none => MonadExcept.throw e
  | some a => Pure.pure a

@[simp] theorem run_refuseIf_ok {p : Prop} [Decidable p] {e : ε} {u : PUnit} {s t : σ} :
    (refuseIf p e : EStateM ε σ PUnit).run s = .ok u t ↔ ¬ p ∧ t = s := by
  by_cases hp : p
  · simp [refuseIf, hp]
  · simp [refuseIf, hp, eq_comm]

@[simp] theorem run_required_ok {x : Option α} {e : ε} {a : α} {s t : σ} :
    (required x e : EStateM ε σ α).run s = .ok a t ↔ x = some a ∧ t = s := by
  cases x <;> simp [required, eq_comm]

@[simp] theorem run_refuseIf_bind {p : Prop} [Decidable p] {e : ε} {f : PUnit → EStateM ε σ β} {s t : σ} {b : β} :
    (refuseIf p e >>= f).run s = .ok b t ↔ ¬ p ∧ (f ⟨⟩).run s = .ok b t := by
  by_cases hp : p
  · simp [refuseIf, hp]
  · simp [refuseIf, hp]

@[simp] theorem run_required_bind {x : Option α} {e : ε} {f : α → EStateM ε σ β} {s t : σ} {b : β} :
    (required x e >>= f).run s = .ok b t ↔ ∃ a, x = some a ∧ (f a).run s = .ok b t := by
  cases x with
  | none => simp [required]
  | some a => simp [required]

/-- A program that only looks at the state it is run from, followed by another. -/
theorem run_check_bind {m : EStateM ε σ α} {f : α → EStateM ε σ β} {s t : σ} {b : β} {P : α → Prop}
    (hm : ∀ a u, m.run s = .ok a u ↔ P a ∧ u = s) :
    (m >>= f).run s = .ok b t ↔ ∃ a, P a ∧ (f a).run s = .ok b t := by
  simp only [run_bind_ok, hm, and_assoc, exists_and_left, exists_eq_left]

/-! ### Transactions -/

/-- A program run as one transaction: raising undoes what it did. -/
def transaction (m : EStateM ε σ α) : EStateM ε σ α := fun s =>
  match m.run s with
  | .ok a t => .ok a t
  | .error e _ => .error e s

theorem run_transaction (m : EStateM ε σ α) (s : σ) :
    (transaction m).run s = match m.run s with
      | .ok a t => .ok a t
      | .error e _ => .error e s := rfl

@[simp] theorem run_transaction_ok {m : EStateM ε σ α} {a : α} {s t : σ} :
    (transaction m).run s = .ok a t ↔ m.run s = .ok a t := by
  rw [run_transaction]
  cases m.run s <;> simp

theorem run_transaction_error {m : EStateM ε σ α} {e : ε} {s t : σ} :
    (transaction m).run s = .error e t ↔ t = s ∧ ∃ u, m.run s = .error e u := by
  rw [run_transaction]
  cases m.run s <;> simp [eq_comm, and_comm]

/-! ### Programs without a state -/

theorem except_bind_ok {x : Except ε α} {f : α → Except ε β} {b : β} :
    (x >>= f) = .ok b ↔ ∃ a, x = .ok a ∧ f a = .ok b := by
  cases x with
  | ok a =>
    constructor
    · exact fun hf => ⟨a, rfl, hf⟩
    · rintro ⟨a', ha, hf⟩
      cases ha
      exact hf
  | error e => simp [bind, Except.bind]

@[simp] theorem except_pure_ok {a b : α} : (Pure.pure a : Except ε α) = .ok b ↔ a = b := by
  simp [Pure.pure, Except.pure]

theorem except_map_ok {x : Except ε α} {f : α → β} {b : β} : f <$> x = .ok b ↔ ∃ a, x = .ok a ∧ f a = b := by
  rw [map_eq_pure_bind, except_bind_ok]
  simp

theorem except_forM_ok {f : α → Except ε PUnit.{u + 1}} {as : List α} {u : PUnit.{u + 1}} :
    as.forM f = .ok u ↔ ∀ a ∈ as, f a = .ok u := by
  induction as with
  | nil => simp [List.forM]
  | cons a as ih =>
    rw [List.forM, except_bind_ok, List.forall_mem_cons, ← ih]
    constructor
    · rintro ⟨u', ha, has⟩
      exact ⟨ha, has⟩
    · rintro ⟨ha, has⟩
      exact ⟨u, ha, has⟩

theorem forall₂_of_mapM_ok {f : α → Except ε β} {as : List α} {bs : List β} (h : as.mapM f = .ok bs) :
    List.Forall₂ (fun a b => f a = .ok b) as bs := by
  induction as generalizing bs with
  | nil =>
    rw [List.mapM_nil, except_pure_ok] at h
    exact h ▸ .nil
  | cons a as ih =>
    rw [List.mapM_cons, except_bind_ok] at h
    obtain ⟨b, hb, h⟩ := h
    obtain ⟨rest, hrest, h⟩ := except_bind_ok.mp h
    rw [except_pure_ok] at h
    exact h ▸ .cons hb (ih hrest)

theorem exists_of_forall₂ {R : α → β → Prop} {as : List α} {bs : List β} (h : List.Forall₂ R as bs) {a : α} (ha : a ∈ as) :
    ∃ b ∈ bs, R a b := by
  induction h with
  | nil => cases ha
  | cons hb _ ih =>
    obtain rfl | ha := List.mem_cons.mp ha
    · exact ⟨_, List.mem_cons_self, hb⟩
    · obtain ⟨b, hmem, hb⟩ := ih ha
      exact ⟨b, List.mem_cons_of_mem _ hmem, hb⟩

/-- Each item has its result among the results. -/
theorem exists_of_mapM_ok {f : α → Except ε β} {as : List α} {bs : List β} (h : as.mapM f = .ok bs) {a : α} (ha : a ∈ as) :
    ∃ b ∈ bs, f a = .ok b := exists_of_forall₂ (forall₂_of_mapM_ok h) ha

theorem mapM_ok_of_forall {f : α → Except ε β} {as : List α} (h : ∀ a ∈ as, ∃ b, f a = .ok b) : ∃ bs, as.mapM f = .ok bs := by
  induction as with
  | nil => exact ⟨[], rfl⟩
  | cons a as ih =>
    obtain ⟨⟨b, hb⟩, has⟩ := List.forall_mem_cons.mp h
    obtain ⟨bs, hbs⟩ := ih has
    exact ⟨b :: bs, by rw [List.mapM_cons, hb, hbs]; rfl⟩

theorem mapM_ok_mono {f g : α → Except ε β} (hfg : ∀ a b, f a = .ok b → g a = .ok b) {as : List α} {bs : List β}
    (h : as.mapM f = .ok bs) : as.mapM g = .ok bs := by
  replace h := forall₂_of_mapM_ok h
  induction h with
  | nil => rfl
  | cons hb _ ih => rw [List.mapM_cons, hfg _ _ hb, ih]; rfl

/-- What each step keeps is kept. -/
theorem foldlM_ok_keeps (I : β → Prop) {f : β → α → Except ε β} {as : List α}
    (hstep : ∀ a ∈ as, ∀ b b', I b → f b a = .ok b' → I b') {b b' : β} (hb : I b) (h : as.foldlM f b = .ok b') : I b' := by
  induction as generalizing b with
  | nil =>
    rw [List.foldlM_nil, except_pure_ok] at h
    exact h ▸ hb
  | cons a as ih =>
    rw [List.foldlM_cons, except_bind_ok] at h
    obtain ⟨b₁, hstep₁, h⟩ := h
    rw [List.forall_mem_cons] at hstep
    exact ih hstep.2 (hstep.1 b b₁ hb hstep₁) h

/-- What is said of the items so far, said of all of them. -/
theorem foldlM_ok_prefixes (I : List α → β → Prop) {f : β → α → Except ε β}
    (hstep : ∀ done b a b', I done b → f b a = .ok b' → I (done ++ [a]) b') {as done : List α} {b b' : β} (hb : I done b)
    (h : as.foldlM f b = .ok b') : I (done ++ as) b' := by
  induction as generalizing done b with
  | nil =>
    rw [List.foldlM_nil, except_pure_ok] at h
    rwa [List.append_nil, ← h]
  | cons a as ih =>
    rw [List.foldlM_cons, except_bind_ok] at h
    obtain ⟨b₁, hb₁, h⟩ := h
    have hall := ih (hstep done b a b₁ hb hb₁) h
    rwa [List.append_assoc] at hall

/-- A loop returns when its body does after what is said of the items before. -/
theorem foldlM_ok_of_prefixes (I : List α → β → Prop) {f : β → α → Except ε β} {as done : List α} {b : β}
    (hstep : ∀ before b a after, done ++ as = before ++ a :: after → I before b → ∃ b', f b a = .ok b' ∧ I (before ++ [a]) b')
    (hb : I done b) : ∃ b', as.foldlM f b = .ok b' := by
  induction as generalizing done b with
  | nil => exact ⟨b, rfl⟩
  | cons a as ih =>
    obtain ⟨b₁, hb₁, hI⟩ := hstep done b a as rfl hb
    have hrest : ∀ before b c after, (done ++ [a]) ++ as = before ++ c :: after → I before b →
        ∃ b', f b c = .ok b' ∧ I (before ++ [c]) b' := by
      intro before b c after heq
      rw [List.append_assoc, List.singleton_append] at heq
      exact hstep before b c after heq
    obtain ⟨b', hb'⟩ := ih hrest hI
    exact ⟨b', by rw [List.foldlM_cons, hb₁]; exact hb'⟩

/-- A loop returns when its body does for each item, which is up to the item alone. -/
theorem foldlM_ok_iff {f : β → α → Except ε β} {P : α → Prop} (hbody : ∀ b a, (∃ b', f b a = .ok b') ↔ P a) {as : List α} {b : β} :
    (∃ b', as.foldlM f b = .ok b') ↔ ∀ a ∈ as, P a := by
  induction as generalizing b with
  | nil => exact iff_of_true ⟨b, rfl⟩ nofun
  | cons a as ih =>
    rw [List.forall_mem_cons, ← hbody b a]
    simp only [List.foldlM_cons, except_bind_ok]
    constructor
    · rintro ⟨b', b₁, hb₁, h⟩
      exact ⟨⟨b₁, hb₁⟩, ih.mp ⟨b', h⟩⟩
    · rintro ⟨⟨b₁, hb₁⟩, has⟩
      obtain ⟨b', h⟩ := ih.mpr has
      exact ⟨b', b₁, hb₁, h⟩

theorem except_error_iff {x : Except ε α} : (∃ e, x = .error e) ↔ ¬ ∃ a, x = .ok a := by
  cases x <;> simp

theorem foldlM_ok_mono {f g : β → α → Except ε β} (hfg : ∀ b a b', f b a = .ok b' → g b a = .ok b') {as : List α} {b b' : β}
    (h : as.foldlM f b = .ok b') : as.foldlM g b = .ok b' := by
  induction as generalizing b with
  | nil => exact h
  | cons a as ih =>
    rw [List.foldlM_cons, except_bind_ok] at h ⊢
    obtain ⟨b₁, hb, h⟩ := h
    exact ⟨b₁, hfg _ _ _ hb, ih h⟩

/-- `if p: raise e`. -/
def rejectIf (p : Prop) [Decidable p] (e : ε) : Except ε PUnit := if p then .error e else .ok ()

@[simp] theorem rejectIf_ok {p : Prop} [Decidable p] {e : ε} {u : PUnit} : rejectIf p e = .ok u ↔ ¬ p := by
  by_cases hp : p
  · simp [rejectIf, hp]
  · simp [rejectIf, hp]

theorem elim_ok {value : Option α} {e : ε} {a : α} : value.elim (Except.error e) .ok = .ok a ↔ value = some a := by
  cases value <;> simp

/-- A value, or the exception in its place, in a state. -/
def ofExcept (x : Except ε α) : EStateM ε σ α :=
  match x with
  | .ok a => Pure.pure a
  | .error e => MonadExcept.throw e

@[simp] theorem run_ofExcept_bind {x : Except ε α} {f : α → EStateM ε σ β} {s t : σ} {b : β} :
    (ofExcept x >>= f).run s = .ok b t ↔ ∃ a, x = .ok a ∧ (f a).run s = .ok b t := by
  cases x <;> simp [ofExcept]

/-! ### Other exceptions -/

/-- A program that raises another exception for the one it raises. -/
@[simp] theorem run_adaptExcept_ok {ε' : Type u} {m : EStateM ε σ α} {f : ε → ε'} {a : α} {s t : σ} :
    (EStateM.adaptExcept f m).run s = .ok a t ↔ m.run s = .ok a t := by
  simp only [EStateM.run, EStateM.adaptExcept]
  cases m s with
  | ok b u => simp only [EStateM.Result.ok.injEq]
  | error e u => simp only [reduceCtorEq]

/-! ### Read-only programs -/

theorem ReadOnly.pure (a : α) : ReadOnly (Pure.pure a : EStateM ε σ α) :=
  fun _ => .inl ⟨a, rfl⟩

theorem ReadOnly.throw (e : ε) : ReadOnly (MonadExcept.throw e : EStateM ε σ α) :=
  fun _ => .inr ⟨e, rfl⟩

theorem ReadOnly.get : ReadOnly (MonadState.get : EStateM ε σ σ) := fun s => .inl ⟨s, rfl⟩

theorem ReadOnly.bind {m : EStateM ε σ α} {f : α → EStateM ε σ β} (hm : ReadOnly m)
    (hf : ∀ a, ReadOnly (f a)) : ReadOnly (m >>= f) := by
  intro s
  rcases hm s with ⟨a, ha⟩ | ⟨e, he⟩
  · rcases hf a s with ⟨b, hb⟩ | ⟨e, he⟩
    · exact .inl ⟨b, run_bind_ok.mpr ⟨a, s, ha, hb⟩⟩
    · exact .inr ⟨e, run_bind_error.mpr (.inr ⟨a, s, ha, he⟩)⟩
  · exact .inr ⟨e, run_bind_error.mpr (.inl he)⟩

theorem ReadOnly.map {m : EStateM ε σ α} (hm : ReadOnly m) (f : α → β) : ReadOnly (f <$> m) := by
  rw [map_eq_pure_bind]
  exact hm.bind fun a => ReadOnly.pure (f a)

theorem ReadOnly.refuseIf (p : Prop) [Decidable p] (e : ε) : ReadOnly (refuseIf p e : EStateM ε σ PUnit) := by
  unfold Raising.refuseIf
  split
  · exact ReadOnly.throw e
  · exact ReadOnly.pure PUnit.unit

theorem ReadOnly.required (x : Option α) (e : ε) : ReadOnly (required x e : EStateM ε σ α) := by
  cases x with
  | none => exact ReadOnly.throw e
  | some a => exact ReadOnly.pure a

theorem ReadOnly.ofExcept (x : Except ε α) : ReadOnly (ofExcept x : EStateM ε σ α) := by
  cases x with
  | error e => exact ReadOnly.throw e
  | ok a => exact ReadOnly.pure a

theorem ReadOnly.forM {f : α → EStateM ε σ PUnit} (hf : ∀ a, ReadOnly (f a)) : ∀ as : List α, ReadOnly (as.forM f)
  | [] => ReadOnly.pure _
  | a :: as => (hf a).bind fun _ => ReadOnly.forM hf as

theorem ReadOnly.ite {p : Prop} [Decidable p] {m n : EStateM ε σ α} (hm : ReadOnly m)
    (hn : ReadOnly n) : ReadOnly (if p then m else n) := by
  split <;> assumption

theorem ReadOnly.state_eq {m : EStateM ε σ α} (hm : ReadOnly m) {s t : σ} {a : α}
    (h : m.run s = .ok a t) : t = s := by
  rcases hm s with ⟨b, hb⟩ | ⟨e, he⟩
  · rw [h] at hb
    cases hb
    rfl
  · rw [h] at he
    cases he

/-! ### Atomic programs -/

theorem Atomic.of_readOnly {m : EStateM ε σ α} (hm : ReadOnly m) : Atomic m := by
  intro s e t h
  rcases hm s with ⟨a, ha⟩ | ⟨e', he⟩
  · rw [h] at ha
    cases ha
  · rw [h] at he
    cases he
    rfl

theorem Atomic.of_total {m : EStateM ε σ α} (hm : Total m) : Atomic m := by
  intro s e t h
  obtain ⟨a, u, ha⟩ := hm s
  rw [h] at ha
  cases ha

theorem Total.pure (a : α) : Total (Pure.pure a : EStateM ε σ α) := fun s => ⟨a, s, rfl⟩

theorem Total.set (u : σ) : Total (MonadStateOf.set u : EStateM ε σ PUnit) := fun _ => ⟨_, u, rfl⟩

theorem Total.modify (f : σ → σ) : Total (modify f : EStateM ε σ PUnit) := fun s => ⟨_, f s, rfl⟩

theorem total_forM_modify (f : α → σ → σ) (as : List α) :
    Total (as.forM fun a => (modify (f a) : EStateM ε σ PUnit)) :=
  fun _ => ⟨_, _, run_forM_modify⟩

theorem Total.bind {m : EStateM ε σ α} {f : α → EStateM ε σ β} (hm : Total m)
    (hf : ∀ a, Total (f a)) : Total (m >>= f) := by
  intro s
  obtain ⟨a, t, ha⟩ := hm s
  obtain ⟨b, u, hb⟩ := hf a t
  exact ⟨b, u, run_bind_ok.mpr ⟨a, t, ha, hb⟩⟩

/-- Checks first: a read-only program followed by an atomic one is atomic. -/
theorem Atomic.bind_left {m : EStateM ε σ α} {f : α → EStateM ε σ β} (hm : ReadOnly m)
    (hf : ∀ a, Atomic (f a)) : Atomic (m >>= f) := by
  intro s e t h
  rcases run_bind_error.mp h with h | ⟨a, u, ha, hu⟩
  · exact Atomic.of_readOnly hm s e t h
  · rw [hf a u e t hu, hm.state_eq ha]

/-- Nothing that can raise comes after an atomic program. -/
theorem Atomic.bind_pure {m : EStateM ε σ α} (hm : Atomic m) (f : α → β) :
    Atomic (m >>= fun a => Pure.pure (f a)) := by
  intro s e t h
  rcases run_bind_error.mp h with h | ⟨a, u, -, hu⟩
  · exact hm s e t h
  · cases hu

theorem Atomic.transaction (m : EStateM ε σ α) : Atomic (transaction m) :=
  fun _ _ _ h => (run_transaction_error.mp h).1

theorem Atomic.map {m : EStateM ε σ α} (hm : Atomic m) (f : α → β) : Atomic (f <$> m) := by
  intro s e t h
  rw [map_eq_pure_bind] at h
  exact hm.bind_pure f s e t h

theorem Atomic.ite {p : Prop} [Decidable p] {m n : EStateM ε σ α} (hm : Atomic m)
    (hn : Atomic n) : Atomic (if p then m else n) := by
  split <;> assumption

end CcbCore.Raising
