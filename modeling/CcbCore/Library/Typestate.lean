import CcbCore.Library.Interference

/-!
# Typestates of programs

A `Protocol` says, phase by phase, which calls a program may make, which replies are to
be reckoned with, and the phase after each. A program `Obeys` it from a phase when it
makes no other call, whatever those replies; the rules follow the program
(`Obeys.bind`, `Obeys.ask`). What a phase `knows` of an environment's state links the
two: a run is then as the protocol says (`Obeys.runs`).

In a pool, threads may own keys. A protocol is `Lawful` when a call of one thread leaves
what the others know, and gives it only a key that nobody holds; then every run of the
pool keeps all of it (`guarded_run`), wherever a thread drops its program.
-/

namespace CcbCore

variable {I : Signature} {ε α β σ φ κ : Type}

/-- What a program may do in a phase, what may be replied, and the phase after it. -/
structure Protocol (I : Signature) (ε φ : Type) where
  allows : φ → I.Op → Prop
  replies : φ → (op : I.Op) → Except ε (I.Reply op) → Prop
  after : φ → (op : I.Op) → Except ε (I.Reply op) → φ

/-- From the phase, the program makes only calls that are allowed, and ends as `Q` says. -/
def Obeys (protocol : Protocol I ε φ) : φ → Prog I ε α → (φ → Except ε α → Prop) → Prop
  | phase, .done result, Q => Q phase result
  | phase, .call op next, Q =>
    protocol.allows phase op ∧
      ∀ reply, protocol.replies phase op reply → Obeys protocol (protocol.after phase op reply) (next reply) Q

/-- The phase after some answers. -/
def Protocol.follow (protocol : Protocol I ε φ) (phase : φ) (answers : List (Answer I ε)) : φ :=
  answers.foldl (fun phase answer => protocol.after phase answer.op answer.reply) phase

variable {protocol : Protocol I ε φ} {phase : φ}

namespace Obeys

theorem bind {p : Prog I ε α} {f : α → Prog I ε β} {R : φ → Except ε α → Prop} {Q : φ → Except ε β → Prop}
    (hp : Obeys protocol phase p R) (hf : ∀ phase a, R phase (.ok a) → Obeys protocol phase (f a) Q)
    (he : ∀ phase e, R phase (.error e) → Q phase (.error e)) : Obeys protocol phase (p >>= f) Q := by
  rw [Prog.bind_eq]
  induction p generalizing phase with
  | done result =>
    cases result with
    | ok a => exact hf phase a hp
    | error e => exact he phase e hp
  | call op next ih => exact ⟨hp.1, fun reply hreply => ih reply (hp.2 reply hreply)⟩

/-- A call, and what goes on with its reply. -/
theorem ask {op : I.Op} {Q : φ → Except ε (I.Reply op) → Prop} (hallowed : protocol.allows phase op)
    (h : ∀ reply, protocol.replies phase op reply → Q (protocol.after phase op reply) reply) :
    Obeys protocol phase (Prog.ask op) Q := ⟨hallowed, h⟩

theorem lift {result : Except ε α} {Q : φ → Except ε α → Prop} (h : Q phase result) :
    Obeys protocol phase (Prog.lift result) Q := h

theorem pure {a : α} {Q : φ → Except ε α → Prop} (h : Q phase (.ok a)) :
    Obeys protocol phase (Pure.pure a : Prog I ε α) Q := h

theorem throw {e : ε} {Q : φ → Except ε α → Prop} (h : Q phase (.error e)) :
    Obeys protocol phase (MonadExcept.throw e : Prog I ε α) Q := h

theorem refuseIf {p : Prop} [Decidable p] {e : ε} {Q : φ → Except ε PUnit → Prop} (hyes : p → Q phase (.error e))
    (hno : ¬ p → Q phase (.ok ⟨⟩)) : Obeys protocol phase (Prog.refuseIf p e) Q := by
  by_cases hp : p
  · simpa [Prog.refuseIf, Obeys, hp] using hyes hp
  · simpa [Prog.refuseIf, Obeys, hp] using hno hp

/-- The program ends in the phase it started in, and its value is as `R` says. -/
def Still (phase : φ) (R : α → Prop) (phase' : φ) (result : Except ε α) : Prop :=
  phase' = phase ∧ ∀ value, result = .ok value → R value

theorem still_error {R : α → Prop} (e : ε) : Still phase R phase (.error e) := ⟨rfl, nofun⟩

/-- Going on after a part that ends in the phase it started in. -/
theorem still_bind {p : Prog I ε α} {f : α → Prog I ε β} {R : α → Prop} {Q : φ → Except ε β → Prop}
    (hp : Obeys protocol phase p (Still phase R)) (he : ∀ e, Q phase (.error e))
    (hf : ∀ value, R value → Obeys protocol phase (f value) Q) : Obeys protocol phase (p >>= f) Q := by
  refine bind hp ?_ ?_
  · rintro _ value ⟨rfl, hvalue⟩
    exact hf value (hvalue value rfl)
  · rintro _ e ⟨rfl, -⟩
    exact he e

theorem still_pure {a : α} {R : α → Prop} (h : R a) : Obeys protocol phase (Pure.pure a : Prog I ε α) (Still phase R) :=
  ⟨rfl, by rintro _ ⟨⟩; exact h⟩

theorem still_lift {result : Except ε α} :
    Obeys protocol phase (Prog.lift result) (Still phase fun value => result = .ok value) := ⟨rfl, fun _ h => h⟩

/-- A call that leaves the phase. -/
theorem still_ask {op : I.Op} (hallowed : protocol.allows phase op)
    (hafter : ∀ reply, protocol.replies phase op reply → protocol.after phase op reply = phase) :
    Obeys protocol phase (Prog.ask op) (Still phase fun _ => True) :=
  ⟨hallowed, fun reply hreply => ⟨hafter reply hreply, fun _ _ => trivial⟩⟩

/-- The program returns, and its value and the phase it ends in are as `R` says. -/
def Sure (R : φ → α → Prop) (phase : φ) (result : Except ε α) : Prop := ∃ value, result = .ok value ∧ R phase value

/-- Going on after a part that returns. -/
theorem sure_bind {p : Prog I ε α} {f : α → Prog I ε β} {R : φ → α → Prop} {Q : φ → Except ε β → Prop}
    (hp : Obeys protocol phase p (Sure R)) (hf : ∀ phase value, R phase value → Obeys protocol phase (f value) Q) :
    Obeys protocol phase (p >>= f) Q := by
  refine bind hp ?_ ?_
  · rintro phase _ ⟨value, heq, hvalue⟩
    exact hf phase _ (Except.ok.inj heq ▸ hvalue)
  · rintro _ _ ⟨_, ⟨⟩, -⟩

theorem sure_pure {a : α} {R : φ → α → Prop} (h : R phase a) : Obeys protocol phase (Pure.pure a : Prog I ε α) (Sure R) :=
  ⟨a, rfl, h⟩

theorem sure_lift {result : Except ε α} {a : α} (h : result = .ok a) :
    Obeys protocol phase (Prog.lift result) (Sure fun phase' value => phase' = phase ∧ value = a) :=
  ⟨a, h, rfl, rfl⟩

/-- A run against an environment whose states are as the phases know is as the protocol
says: each call was allowed, and the end is as `Q` says. -/
theorem runs {env : Environment I ε σ} {knows : φ → σ → Prop}
    (hknows : ∀ phase op s reply t, knows phase s → protocol.allows phase op → env op s reply t →
      protocol.replies phase op reply ∧ knows (protocol.after phase op reply) t)
    {p : Prog I ε α} {Q : φ → Except ε α → Prop} {s t : σ} {answers : List (Answer I ε)} {result : Except ε α}
    (hr : Runs env p s answers result t) (h : Obeys protocol phase p Q) (hs : knows phase s) :
    Q (protocol.follow phase answers) result ∧ knows (protocol.follow phase answers) t ∧
      ∀ before answer after, answers = before ++ answer :: after →
        protocol.allows (protocol.follow phase before) answer.op := by
  induction hr generalizing phase with
  | done =>
    refine ⟨h, hs, fun before answer after hsplit => ?_⟩
    simp at hsplit
  | @call op next s t u reply answers result henv _ ih =>
    obtain ⟨hallowed, hnext⟩ := h
    obtain ⟨hreply, ht⟩ := hknows phase op s reply t hs hallowed henv
    obtain ⟨hQ, hu, hall⟩ := ih (hnext reply hreply) ht
    refine ⟨hQ, hu, fun before answer after hsplit => ?_⟩
    cases before with
    | nil =>
      obtain ⟨rfl, -⟩ := List.cons.inj hsplit
      exact hallowed
    | cons first before =>
      obtain ⟨rfl, hrest⟩ := List.cons.inj hsplit
      exact hall before answer after hrest

/-- Each call of such a run was allowed in some phase, and its reply was to be reckoned with there. -/
theorem answered {env : Environment I ε σ} {knows : φ → σ → Prop}
    (hknows : ∀ phase op s reply t, knows phase s → protocol.allows phase op → env op s reply t →
      protocol.replies phase op reply ∧ knows (protocol.after phase op reply) t)
    {p : Prog I ε α} {Q : φ → Except ε α → Prop} {s t : σ} {answers : List (Answer I ε)} {result : Except ε α}
    (h : Obeys protocol phase p Q) (hr : Runs env p s answers result t) (hs : knows phase s) :
    ∀ answer ∈ answers, ∃ phase, protocol.allows phase answer.op ∧ protocol.replies phase answer.op answer.reply := by
  induction hr generalizing phase with
  | done =>
    intro answer hmem
    cases hmem
  | @call op next s t u reply answers result henv _ ih =>
    obtain ⟨hallowed, hnext⟩ := h
    obtain ⟨hreply, ht⟩ := hknows phase op s reply t hs hallowed henv
    intro answer hmem
    rcases List.mem_cons.mp hmem with rfl | hmem
    · exact ⟨phase, hallowed, hreply⟩
    · exact ih (hnext reply hreply) ht answer hmem

/-- Where every reply is reckoned with, a run is as the protocol says against any environment. -/
theorem runs_any {env : Environment I ε σ} (hreplies : ∀ phase op reply, protocol.replies phase op reply)
    {p : Prog I ε α} {Q : φ → Except ε α → Prop} {s t : σ} {answers : List (Answer I ε)} {result : Except ε α}
    (hr : Runs env p s answers result t) (h : Obeys protocol phase p Q) :
    Q (protocol.follow phase answers) result ∧ ∀ before answer after, answers = before ++ answer :: after →
      protocol.allows (protocol.follow phase before) answer.op := by
  have hknows : ∀ phase op s reply t, True → protocol.allows phase op → env op s reply t →
      protocol.replies phase op reply ∧ True := fun phase op _ reply _ _ _ _ => ⟨hreplies phase op reply, trivial⟩
  obtain ⟨hQ, -, hall⟩ := runs hknows hr h trivial
  exact ⟨hQ, hall⟩

end Obeys

/-- An environment whose state others may change before each call. -/
def Amid (rely : σ → σ → Prop) (env : Environment I ε σ) : Environment I ε σ :=
  fun op s reply t => ∃ s', rely s s' ∧ env op s' reply t

/-! ### Pools -/

/-- What the phases of a protocol are about: the key a thread owns, what it knows, the keys
that were ever given, and what always holds of the state. -/
structure Ownership (σ φ κ : Type) where
  owner : φ → Option κ
  knows : φ → σ → Prop
  held : σ → κ → Prop
  always : σ → Prop
  keeps : σ → σ → Prop

/-- A call that is allowed keeps what always holds and what others know, gives only a key that
nobody holds, and leaves the thread with what its new phase knows. -/
structure Lawful (env : Environment I ε σ) (protocol : Protocol I ε φ) (own : Ownership σ φ κ) : Prop where
  refl : ∀ s, own.keeps s s
  trans : ∀ s t u, own.keeps s t → own.keeps t u → own.keeps s u
  held {phase : φ} {s : σ} {k : κ} : own.knows phase s → own.owner phase = some k → own.held s k
  step {phase : φ} {op : I.Op} {s t : σ} {reply : Except ε (I.Reply op)} :
    own.always s → own.knows phase s → protocol.allows phase op → env op s reply t →
    protocol.replies phase op reply ∧ own.always t ∧ own.keeps s t ∧ own.knows (protocol.after phase op reply) t ∧
      ∀ k, own.owner (protocol.after phase op reply) = some k → own.owner phase = some k ∨ ¬ own.held s k
  frame {phase other : φ} {op : I.Op} {s t : σ} {reply : Except ε (I.Reply op)} :
    own.always s → own.knows phase s → protocol.allows phase op → env op s reply t → own.knows other s →
    (∀ k, own.owner other = some k → own.owner phase ≠ some k) → own.knows other t

variable {ι δ : Type} [DecidableEq ι] {body : δ → Prog I ε α} {p p' : Pool I ε α σ ι δ} {env : Environment I ε σ}
  {own : Ownership σ φ κ} {post : δ → φ → Except ε α → Prop}

/-- Every thread obeys from its phase and knows what the phase knows, and no two own one key. -/
structure Guarded (protocol : Protocol I ε φ) (own : Ownership σ φ κ) (post : δ → φ → Except ε α → Prop)
    (p : Pool I ε α σ ι δ) (phase : ι → φ) : Prop where
  always : own.always p.state
  obeys : ∀ i, Obeys protocol (phase i) (p.program i) (post (p.data i))
  knows : ∀ i, own.knows (phase i) p.state
  alone : ∀ i j k, own.owner (phase i) = some k → own.owner (phase j) = some k → i = j

/-- A thread that starts a program owns nothing. -/
theorem Guarded.start {phases : ι → φ} {idle : φ} (h : Guarded protocol own post p phases) (hidle : own.owner idle = none)
    (hknows : ∀ s, own.knows idle s) (i : ι) (d : δ) (hbody : Obeys protocol idle (body d) (post d)) :
    Guarded protocol own post
      { p with data := Function.update p.data i d, program := Function.update p.program i (body d) }
      (Function.update phases i idle) := by
  have howner (j : ι) (k : κ) (hj : own.owner (Function.update phases i idle j) = some k) : own.owner (phases j) = some k := by
    by_cases hji : j = i
    · subst hji
      simp [hidle] at hj
    · simpa [hji] using hj
  refine ⟨h.always, fun j => ?_, fun j => ?_, fun j j' k hj hj' => h.alone j j' k (howner j k hj) (howner j' k hj')⟩
  · by_cases hji : j = i
    · subst hji
      simpa using hbody
    · simpa [hji] using h.obeys j
  · by_cases hji : j = i
    · subst hji
      simpa using hknows p.state
    · simpa [hji] using h.knows j

/-- A call changes the phase of its thread alone. -/
theorem Guarded.call {phases : ι → φ} (hlawful : Lawful env protocol own) (h : Guarded protocol own post p phases) {i : ι}
    {op : I.Op} {next : Except ε (I.Reply op) → Prog I ε α} {reply : Except ε (I.Reply op)} {s : σ}
    (hprogram : p.program i = .call op next) (hcall : env op p.state reply s) :
    own.keeps p.state s ∧
      Guarded protocol own post { p with state := s, program := Function.update p.program i (next reply) }
        (Function.update phases i (protocol.after (phases i) op reply)) := by
  have hobeys := h.obeys i
  rw [hprogram] at hobeys
  obtain ⟨hallowed, hnext⟩ := hobeys
  obtain ⟨hreply, halways, hkeeps, hknows, howner⟩ := hlawful.step h.always (h.knows i) hallowed hcall
  have hother (j : ι) (hji : j ≠ i) : own.knows (phases j) s :=
    hlawful.frame h.always (h.knows i) hallowed hcall (h.knows j) fun k hj hi => hji (h.alone j i k hj hi)
  -- A key that the thread owns now is no other thread's.
  have hmine (j : ι) (k : κ) (hji : j ≠ i) (hj : own.owner (phases j) = some k)
      (hi : own.owner (protocol.after (phases i) op reply) = some k) : False := by
    rcases howner k hi with hi | hfree
    · exact hji (h.alone j i k hj hi)
    · exact hfree (hlawful.held (h.knows j) hj)
  refine ⟨hkeeps, halways, fun j => ?_, fun j => ?_, fun j j' k hj hj' => ?_⟩
  · by_cases hji : j = i
    · subst hji
      simpa using hnext reply hreply
    · simpa [hji] using h.obeys j
  · by_cases hji : j = i
    · subst hji
      simpa using hknows
    · simpa [hji] using hother j hji
  · by_cases hji : j = i
    · subst hji
      by_cases hji' : j' = j
      · exact hji'.symm
      · simp only [Function.update_self, Function.update_of_ne hji'] at hj hj'
        exact (hmine j' k hji' hj' hj).elim
    · by_cases hji' : j' = i
      · subst hji'
        simp only [Function.update_self, Function.update_of_ne hji] at hj hj'
        exact (hmine j k hji hj hj').elim
      · simp only [Function.update_of_ne hji, Function.update_of_ne hji'] at hj hj'
        exact h.alone j j' k hj hj'

/-- **In every run of a pool whose threads obey, what always holds does so, and every thread's
program and knowledge are as its phase says.** -/
theorem guarded_run {other : σ → σ → Prop} {idle : φ} {phases : ι → φ} (hlawful : Lawful env protocol own)
    (hidle : own.owner idle = none) (hknows : ∀ s, own.knows idle s) (hother : ∀ s t, ¬ other s t)
    (hbody : ∀ d, Obeys protocol idle (body d) (post d)) (hp : Guarded protocol own post p phases)
    {es : List (PoolEvent ι δ)} (h : Run (PoolStep env other body) p es p') :
    own.keeps p.state p'.state ∧ ∃ phases', Guarded protocol own post p' phases' := by
  induction h with
  | nil => exact ⟨hlawful.refl _, phases, hp⟩
  | snoc _ hstep ih =>
    obtain ⟨hkeeps, phases', hguarded⟩ := ih
    cases hstep with
    | start i d => exact ⟨hkeeps, _, hguarded.start hidle hknows i d (hbody d)⟩
    | call hprogram hcall =>
      obtain ⟨hkeeps', hguarded'⟩ := hguarded.call hlawful hprogram hcall
      exact ⟨hlawful.trans _ _ _ hkeeps hkeeps', _, hguarded'⟩
    | other ho => exact absurd ho (hother _ _)

end CcbCore
