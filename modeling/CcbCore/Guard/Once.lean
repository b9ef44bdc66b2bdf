import CcbCore.Guard.Function
import CcbCore.Library.Raising

/-!
# A token is spent once

The row of a spent token keeps it from being spent again, as long as the row is there. A purge
deletes it only when the clock has reached its expiry (`Inv.deleted`); but a call that checked
the expiry of that token before goes on after that, and finds the row gone. So a token
is spent once in every run in which no call comes to its insert with a token that is
spent already and has expired since (`token_spent_once`), and a call whose own purge is
late spends it twice (`spent_twice`).
-/

namespace CcbCore.Guard

open CcbCore.Edge (HttpError)

variable {edge : Edge} {request : ℕ → Request} {s s' : State} {event : Event}

/-! ### What holds in every state -/

/-- A transaction that has inserted its row, and what it inserted. -/
inductive Held : Phase → Args → Status → Prop where
  | returned {args : Args} : Held (.calling args (.returned .consumed)) args .open
  | answered {args : Args} : Held (.answered args .consumed) args .committed
  | started {args : Args} : Held (.started args) args .committed

/-- A transaction that has not ended. -/
def Phase.isOpen : Phase → Bool
  | .presented | .verified _ | .calling _ _ => true
  | _ => false

/-- Two calls are with the same token's `jti` and expiry. -/
def Args.Same (args args' : Args) : Prop := args.key = args'.key ∧ args.expiresAt = args'.expiresAt

/-- A version is the row of a call. -/
def IsRow (v : Version String ℤ ℕ) (args : Args) : Prop := v.key = args.key ∧ v.row = args.expiresAt

/-- A token is spent: a call with it has been answered `CONSUMED`. -/
def Spent (s : State) (args : Args) : Prop :=
  ∃ r args', (s.phase r = .answered args' .consumed ∨ s.phase r = .started args') ∧ args'.Same args

structure Inv (s : State) : Prop where
  /-- What is deleted has expired. -/
  deleted : ∀ v ∈ s.guard.versions, v.deletedBy ≠ none → v.row ≤ s.now
  /-- What is being deleted has expired. -/
  deleting : ∀ r args i todo, s.phase r = .calling args (.deleting i todo) →
    ∃ v, s.guard.versions[i]? = some v ∧ v.row ≤ s.now
  running : ∀ r, (s.phase r).isOpen = true → s.guard.status r = .open
  /-- A row has a call that inserted it, or was rolled back. -/
  inserted : ∀ v ∈ s.guard.versions, s.guard.status v.insertedBy = .aborted ∨
    ∃ args, Held (s.phase v.insertedBy) args (s.guard.status v.insertedBy) ∧ IsRow v args
  /-- A call that inserted a row has a row. -/
  row : ∀ r args status, Held (s.phase r) args status →
    s.guard.status r = status ∧ ∃ v ∈ s.guard.versions, v.insertedBy = r ∧ IsRow v args
  /-- No two transactions hold the same row. -/
  unique : ∀ v ∈ s.guard.versions, ∀ v' ∈ s.guard.versions, v.key = v'.key → v.row = v'.row →
    s.guard.status v.insertedBy ≠ .aborted → s.guard.status v'.insertedBy ≠ .aborted → v.insertedBy = v'.insertedBy

theorem Inv.initial (now : ℤ) : Inv (State.initial now) where
  deleted _ h := by cases h
  deleting _ _ _ _ h := by cases h
  running _ _ := rfl
  inserted _ h := by cases h
  row _ _ _ h := by cases h
  unique _ h := by cases h

/-! ### Steps -/

@[simp] theorem phase_at_self {r : ℕ} {phase : Phase} : (s.at r phase).phase r = phase := Function.update_self ..

theorem phase_at_of_ne {r r' : ℕ} {phase : Phase} (h : r' ≠ r) : (s.at r phase).phase r' = s.phase r' :=
  Function.update_of_ne h ..

/-- A request goes on, and the table stays as it is. -/
theorem Inv.at {r : ℕ} {phase : Phase} (h : Inv s)
    (hheld : ∀ args status, Held phase args status ↔ Held (s.phase r) args status)
    (hopen : phase.isOpen = true → (s.phase r).isOpen = true)
    (hdeleting : ∀ args i todo, phase = .calling args (.deleting i todo) →
      ∃ v, s.guard.versions[i]? = some v ∧ v.row ≤ s.now) : Inv (s.at r phase) := by
  have hphase : ∀ r' args status, Held ((s.at r phase).phase r') args status ↔ Held (s.phase r') args status := by
    intro r' args status
    by_cases hr : r' = r
    · rw [hr, phase_at_self, hheld]
    · rw [phase_at_of_ne hr]
  refine ⟨h.deleted, ?_, ?_, ?_, ?_, h.unique⟩
  · intro r' args i todo hr'
    by_cases hr : r' = r
    · rw [hr, phase_at_self] at hr'
      exact hdeleting args i todo hr'
    · rw [phase_at_of_ne hr] at hr'
      exact h.deleting r' args i todo hr'
  · intro r' hr'
    refine h.running r' ?_
    by_cases hr : r' = r
    · rw [hr, phase_at_self] at hr'
      rw [hr]
      exact hopen hr'
    · rwa [phase_at_of_ne hr] at hr'
  · intro v hv
    refine (h.inserted v hv).imp id ?_
    rintro ⟨args, hargs, hrow⟩
    exact ⟨args, (hphase _ _ _).mpr hargs, hrow⟩
  · intro r' args status hr'
    exact h.row r' args status ((hphase _ _ _).mp hr')

/-- The clock goes on. -/
theorem Inv.tick {now : ℤ} (h : Inv s) (hnow : s.now ≤ now) : Inv { s with now := now } where
  deleted v hv hd := (h.deleted v hv hd).trans hnow
  deleting r args i todo hr := by
    obtain ⟨v, hv, hrow⟩ := h.deleting r args i todo hr
    exact ⟨v, hv, hrow.trans hnow⟩
  running := h.running
  inserted := h.inserted
  row := h.row
  unique := h.unique

/-- A transaction deletes a row that has expired. -/
theorem Inv.delete {r i : ℕ} {v : Version String ℤ ℕ} (h : Inv s) (hv : s.guard.versions[i]? = some v)
    (hrow : v.row ≤ s.now) : Inv { s with guard := s.guard.deleteAt r i } where
  deleted w hw hd := by
    obtain ⟨v', hv', rfl | ⟨hi, rfl⟩⟩ := Store.mem_deleteAt hw
    · exact h.deleted w hv' hd
    · rw [hv, Option.some.injEq] at hi
      exact hi ▸ hrow
  deleting r' args j todo hr' := by
    obtain ⟨v', hv', hrow'⟩ := h.deleting r' args j todo hr'
    obtain ⟨w, hw, -, heq, -⟩ := Store.getElem?_deleteAt_of_getElem? (t := r) (i := i) hv'
    exact ⟨w, hw, heq ▸ hrow'⟩
  running := h.running
  inserted w hw := by
    obtain ⟨v', hv', rfl | ⟨-, rfl⟩⟩ := Store.mem_deleteAt hw
    · exact h.inserted w hv'
    · exact h.inserted v' hv'
  row r' args status hr' := by
    obtain ⟨hstatus, v', hv', hinserted, hkey, hrow'⟩ := h.row r' args status hr'
    obtain ⟨j, hj⟩ := List.mem_iff_getElem?.mp hv'
    obtain ⟨w, hw, hk, hr, hi⟩ := Store.getElem?_deleteAt_of_getElem? (t := r) (i := i) hj
    exact ⟨hstatus, w, List.mem_of_getElem? hw, hi.trans hinserted, hk.trans hkey, hr.trans hrow'⟩
  unique w hw w' hw' := by
    obtain ⟨v', hv', hw⟩ := Store.mem_deleteAt hw
    obtain ⟨v'', hv'', hw'⟩ := Store.mem_deleteAt hw'
    have heq : w.key = v'.key ∧ w.row = v'.row ∧ w.insertedBy = v'.insertedBy := by
      obtain rfl | ⟨-, rfl⟩ := hw <;> exact ⟨rfl, rfl, rfl⟩
    have heq' : w'.key = v''.key ∧ w'.row = v''.row ∧ w'.insertedBy = v''.insertedBy := by
      obtain rfl | ⟨-, rfl⟩ := hw' <;> exact ⟨rfl, rfl, rfl⟩
    rw [heq.1, heq.2.1, heq.2.2, heq'.1, heq'.2.1, heq'.2.2]
    exact h.unique v' hv' v'' hv''

/-- A row with the same key and expiry as a call's is not there, when the call finds none and
its token is not spent, or has not expired. -/
theorem Inv.absent {r : ℕ} {args : Args} (h : Inv s) (hontime : Spent s args → s.now < args.expiresAt)
    (hwaits : s.guard.waits r args.key = false) (hconflicts : s.guard.conflicts r args.key = false)
    {v : Version String ℤ ℕ} (hv : v ∈ s.guard.versions) (hrow : IsRow v args)
    (hstatus : s.guard.status v.insertedBy ≠ .aborted) : v.insertedBy = r := by
  by_contra hne
  obtain ⟨hkey, hexpires⟩ := hrow
  obtain haborted | ⟨args', hheld, hkey', hexpires'⟩ := h.inserted v hv
  · exact hstatus haborted
  have hspent : s.guard.status v.insertedBy = .committed → (s.phase v.insertedBy = .answered args' .consumed ∨
      s.phase v.insertedBy = .started args') → False := by
    intro hcommitted hphase
    have hnow := hontime ⟨_, args', hphase, hkey'.symm.trans hkey, hexpires'.symm.trans hexpires⟩
    have hdeleted : v.deletedBy = none := by
      by_contra hd
      have := h.deleted v hv hd
      omega
    have := Store.conflicts_of_mem (t := r) hv hcommitted hdeleted
    rw [hkey, hconflicts] at this
    cases this
  generalize hphase : s.phase v.insertedBy = phase at hheld hspent
  generalize hstatus' : s.guard.status v.insertedBy = status at hheld hspent
  cases hheld with
  | returned =>
    have := Store.waits_of_mem hv hne hstatus'
    rw [hkey, hwaits] at this
    cases this
  | answered => exact hspent rfl (.inl rfl)
  | started => exact hspent rfl (.inr rfl)

/-- A call inserts its row. -/
theorem Inv.insert {r : ℕ} {args : Args} (h : Inv s) (hphase : s.phase r = .calling args (.purging []))
    (hontime : Spent s args → s.now < args.expiresAt) (hwaits : s.guard.waits r args.key = false) :
    Inv { s.at r (.calling args (.returned (if s.guard.conflicts r args.key = true then .replay else .consumed))) with
      guard := s.guard.insertUnlessConflict r args.key args.expiresAt } := by
  have hopen : s.guard.status r = .open := h.running r (by rw [hphase]; rfl)
  cases hconflicts : s.guard.conflicts r args.key with
  | true =>
    rw [Store.insertUnlessConflict, hconflicts, if_pos rfl, if_pos rfl]
    refine h.at (fun args' status => ?_) (fun _ => by rw [hphase]; rfl) (fun _ _ _ hd => by cases hd)
    rw [hphase]
    constructor <;> rintro ⟨⟩
  | false =>
    rw [Store.insertUnlessConflict, hconflicts, if_neg nofun, if_neg nofun]
    have hmem : ∀ {w}, w ∈ s.guard.versions ++ [⟨args.key, args.expiresAt, r, none⟩] →
        w ∈ s.guard.versions ∨ w = ⟨args.key, args.expiresAt, r, none⟩ := by
      intro w hw
      simpa using hw
    refine ⟨?_, ?_, ?_, ?_, ?_, ?_⟩
    · intro w hw hd
      obtain hw | rfl := hmem hw
      · exact h.deleted w hw hd
      · exact absurd rfl hd
    · intro r' args' i todo hr'
      have hr : r' ≠ r := by
        rintro rfl
        rw [show State.phase _ r' = _ from phase_at_self] at hr'
        cases hr'
      obtain ⟨v, hv, hrow⟩ := h.deleting r' args' i todo ((phase_at_of_ne hr).symm.trans hr')
      exact ⟨v, (List.getElem?_append_left (List.getElem?_eq_some_iff.mp hv).1).trans hv, hrow⟩
    · intro r' hr'
      by_cases hr : r' = r
      · rw [hr]
        exact hopen
      · rw [show State.phase _ r' = _ from phase_at_of_ne hr] at hr'
        exact h.running r' hr'
    · intro w hw
      obtain hw | rfl := hmem hw
      · obtain haborted | ⟨args', hheld, hrow⟩ := h.inserted w hw
        · exact .inl haborted
        · have hr : w.insertedBy ≠ r := by
            intro hr
            rw [hr, hphase] at hheld
            cases hheld
          refine .inr ⟨args', ?_, hrow⟩
          rw [show State.phase _ w.insertedBy = _ from phase_at_of_ne hr]
          exact hheld
      · refine .inr ⟨args, ?_, rfl, rfl⟩
        rw [show State.phase _ r = _ from phase_at_self, show Store.status _ r = _ from hopen]
        exact .returned
    · intro r' args' status hr'
      by_cases hr : r' = r
      · subst hr
        rw [show State.phase _ r' = _ from phase_at_self] at hr'
        cases hr'
        exact ⟨hopen, _, List.mem_append_right _ (List.mem_singleton.mpr rfl), rfl, rfl, rfl⟩
      · rw [show State.phase _ r' = _ from phase_at_of_ne hr] at hr'
        obtain ⟨hstatus, v, hv, hrow⟩ := h.row r' args' status hr'
        exact ⟨hstatus, v, List.mem_append_left _ hv, hrow⟩
    · intro w hw w' hw' hkey hrow hstatus hstatus'
      obtain hw | rfl := hmem hw
      · obtain hw' | rfl := hmem hw'
        · exact h.unique w hw w' hw' hkey hrow hstatus hstatus'
        · exact h.absent hontime hwaits hconflicts hw ⟨hkey, hrow⟩ hstatus
      · obtain hw' | rfl := hmem hw'
        · exact (h.absent hontime hwaits hconflicts hw' ⟨hkey.symm, hrow.symm⟩ hstatus').symm
        · rfl

/-- A call returns, and its transaction commits. -/
theorem Inv.answer {r : ℕ} {args : Args} {outcome : Outcome} (h : Inv s)
    (hphase : s.phase r = .calling args (.returned outcome)) :
    Inv { s.at r (.answered args outcome) with guard := s.guard.finish r .committed } := by
  have hopen : s.guard.status r = .open := h.running r (by rw [hphase]; rfl)
  have hkept : ∀ u, (s.guard.finish r .committed).status u ≠ .aborted → s.guard.status u ≠ .aborted := by
    intro u hu
    by_cases hr : u = r
    · rw [hr, hopen]
      nofun
    · rwa [Store.status_finish_of_ne hr] at hu
  refine ⟨h.deleted, ?_, ?_, ?_, ?_, ?_⟩
  · intro r' args' i todo hr'
    by_cases hr : r' = r
    · rw [hr, show State.phase _ r = _ from phase_at_self] at hr'
      cases hr'
    · exact h.deleting r' args' i todo ((phase_at_of_ne hr).symm.trans hr')
  · intro r' hr'
    by_cases hr : r' = r
    · rw [hr, show State.phase _ r = _ from phase_at_self] at hr'
      cases hr'
    · rw [show State.phase _ r' = _ from phase_at_of_ne hr] at hr'
      exact (Store.status_finish_of_ne hr).trans (h.running r' hr')
  · intro w hw
    by_cases hr : w.insertedBy = r
    · obtain haborted | ⟨args', hheld, hrow⟩ := h.inserted w hw
      · rw [hr, hopen] at haborted
        cases haborted
      · rw [hr, hphase, hopen] at hheld
        refine .inr ⟨args', ?_, hrow⟩
        rw [hr, show State.phase _ r = _ from phase_at_self, Store.status_finish_self]
        cases hheld
        exact .answered
    · rw [show State.phase _ w.insertedBy = _ from phase_at_of_ne hr, Store.status_finish_of_ne hr]
      exact h.inserted w hw
  · intro r' args' status hr'
    by_cases hr : r' = r
    · subst hr
      rw [show State.phase _ r' = _ from phase_at_self] at hr'
      cases hr'
      exact ⟨Store.status_finish_self, (h.row r' args .open (by rw [hphase]; exact .returned)).2⟩
    · rw [show State.phase _ r' = _ from phase_at_of_ne hr] at hr'
      exact ⟨(Store.status_finish_of_ne hr).trans (h.row r' args' status hr').1, (h.row r' args' status hr').2⟩
  · intro w hw w' hw' hkey hrow hstatus hstatus'
    exact h.unique w hw w' hw' hkey hrow (hkept _ hstatus) (hkept _ hstatus')

/-- A call's transaction is rolled back. -/
theorem Inv.abort {r : ℕ} {e : HttpError} (h : Inv s) :
    Inv { s.at r (.failed e) with guard := s.guard.finish r .aborted } := by
  refine ⟨h.deleted, ?_, ?_, ?_, ?_, ?_⟩
  · intro r' args' i todo hr'
    by_cases hr : r' = r
    · rw [hr, show State.phase _ r = _ from phase_at_self] at hr'
      cases hr'
    · exact h.deleting r' args' i todo ((phase_at_of_ne hr).symm.trans hr')
  · intro r' hr'
    by_cases hr : r' = r
    · rw [hr, show State.phase _ r = _ from phase_at_self] at hr'
      cases hr'
    · rw [show State.phase _ r' = _ from phase_at_of_ne hr] at hr'
      exact (Store.status_finish_of_ne hr).trans (h.running r' hr')
  · intro w hw
    by_cases hr : w.insertedBy = r
    · exact .inl (hr ▸ Store.status_finish_self)
    · rw [show State.phase _ w.insertedBy = _ from phase_at_of_ne hr, Store.status_finish_of_ne hr]
      exact h.inserted w hw
  · intro r' args' status hr'
    by_cases hr : r' = r
    · rw [hr, show State.phase _ r = _ from phase_at_self] at hr'
      cases hr'
    · rw [show State.phase _ r' = _ from phase_at_of_ne hr] at hr'
      exact ⟨(Store.status_finish_of_ne hr).trans (h.row r' args' status hr').1, (h.row r' args' status hr').2⟩
  · intro w hw w' hw' hkey hrow hstatus hstatus'
    have hne : ∀ u, (s.guard.finish r .aborted).status u ≠ .aborted → s.guard.status u ≠ .aborted := by
      intro u hu
      by_cases hr : u = r
      · exact absurd (hr ▸ Store.status_finish_self) hu
      · rwa [Store.status_finish_of_ne hr] at hu
    exact h.unique w hw w' hw' hkey hrow (hne _ hstatus) (hne _ hstatus')

/-- A call comes to its insert with a token that is not spent, or that has not expired since. -/
def OnTime (s : State) (event : Event) : Prop :=
  ∀ r args, event = .insert r → s.phase r = .calling args (.purging []) → Spent s args → s.now < args.expiresAt

theorem Inv.step (h : Inv s) (hstep : Step edge request s event s') (hontime : OnTime s event) : Inv s' := by
  cases hstep with
  | tick hnow => exact h.tick hnow
  | verify hphase _ | refuse hphase _ | call hphase _ | uncalled hphase _ | check hphase _ _ | purge hphase
  | keep hphase _ _ | deleted hphase _ _ _ | replayed hphase =>
    refine h.at (fun args status => ?_) ?_ nofun
    · rw [hphase]
      constructor <;> rintro ⟨⟩
    · rw [hphase]
      first | exact fun _ => rfl | nofun
  | raise _ _ | abort _ => exact h.abort
  | expired hphase hv hrow =>
    refine h.at (fun args status => ?_) (fun _ => by rw [hphase]; rfl) ?_
    · rw [hphase]
      constructor <;> rintro ⟨⟩
    · rintro args i todo heq
      cases heq
      exact ⟨_, hv, hrow⟩
  | @delete r args i todo v hphase hv _ =>
    obtain ⟨v', hv', hrow⟩ := h.deleting r args i todo hphase
    rw [hv, Option.some.injEq] at hv'
    refine (h.delete (r := r) hv (hv' ▸ hrow)).at (fun args status => ?_) (fun _ => ?_) nofun
    · rw [show State.phase _ r = _ from hphase]
      constructor <;> rintro ⟨⟩
    · rw [show State.phase _ r = _ from hphase]
      rfl
  | @insert r args hphase hwaits => exact h.insert hphase (hontime r args rfl hphase) hwaits
  | answer hphase => exact h.answer hphase
  | @start r args hphase =>
    refine h.at (fun args' status => ?_) nofun nofun
    rw [hphase]
    constructor
    · rintro ⟨⟩
      exact .answered
    · rintro ⟨⟩
      exact .started

/-! ### Tokens and their calls -/

/-- The arguments of a request's call. -/
def Phase.args? : Phase → Option Args
  | .calling args _ | .answered args _ | .started args => some args
  | _ => none

/-- The arguments of a call are those of its token's claims. -/
structure Bound (edge : Edge) (request : ℕ → Request) (s : State) : Prop where
  verified : ∀ r claims, s.phase r = .verified claims → edge.claimsOf (request r).token = .ok claims
  called : ∀ r args, (s.phase r).args? = some args →
    ∃ claims, edge.claimsOf (request r).token = .ok claims ∧ consumeArgs edge claims = .ok args

theorem claimsOf_of_verify {nowMs : ℤ} {signature : Except HttpError PUnit} {token audience : String} {claims : Claims}
    (h : verifyGithubOidc edge nowMs signature token audience = .ok claims) : edge.claimsOf token = .ok claims := by
  simp only [verifyGithubOidc, Raising.except_bind_ok, Raising.except_pure_ok] at h
  obtain ⟨claims', hclaims, -, -, -, -, rfl⟩ := h
  exact hclaims

/-- A request goes on, with the arguments that it has, or those of its claims. -/
theorem Bound.at {r : ℕ} {phase : Phase} {guard : Store String ℤ ℕ} (h : Bound edge request s)
    (hverified : ∀ claims, phase = .verified claims → edge.claimsOf (request r).token = .ok claims)
    (hcalled : ∀ args, phase.args? = some args →
      ∃ claims, edge.claimsOf (request r).token = .ok claims ∧ consumeArgs edge claims = .ok args) :
    Bound edge request { s.at r phase with guard := guard } := by
  constructor
  · intro r' claims hr'
    by_cases hr : r' = r
    · subst hr
      exact hverified claims (phase_at_self.symm.trans hr')
    · exact h.verified r' claims ((phase_at_of_ne hr).symm.trans hr')
  · intro r' args hr'
    by_cases hr : r' = r
    · subst hr
      rw [show State.phase _ r' = _ from phase_at_self] at hr'
      exact hcalled args hr'
    · rw [show State.phase _ r' = _ from phase_at_of_ne hr] at hr'
      exact h.called r' args hr'

theorem Bound.step (h : Bound edge request s) (hstep : Step edge request s event s') : Bound edge request s' := by
  -- A call keeps its arguments from its first step on.
  have hkeep : ∀ {r args phase}, s.phase r = phase → phase.args? = some args → ∀ args', some args = some args' →
      ∃ claims, edge.claimsOf (request r).token = .ok claims ∧ consumeArgs edge claims = .ok args' := by
    rintro r args phase hphase hargs _ ⟨⟩
    exact h.called r args (hphase ▸ hargs)
  cases hstep with
  | tick _ => exact ⟨h.verified, h.called⟩
  | verify _ hverify =>
    refine h.at ?_ nofun
    rintro claims ⟨⟩
    exact claimsOf_of_verify hverify
  | call hphase hargs =>
    refine h.at nofun ?_
    rintro args ⟨⟩
    exact ⟨_, h.verified _ _ hphase, hargs⟩
  | refuse _ _ | uncalled _ _ | raise _ _ | abort _ | replayed _ => exact h.at nofun nofun
  | check hphase _ _ | purge hphase | keep hphase _ _ | expired hphase _ _ | delete hphase _ _ | deleted hphase _ _ _
  | insert hphase _ | answer hphase | start hphase => exact h.at nofun (hkeep hphase rfl)

/-! ### Runs -/

/-- No two calls with the same `jti` and expiry are answered `CONSUMED`. -/
def AnsweredOnce (events : List Event) : Prop :=
  events.Pairwise fun e e' => ∀ r r' args args', e = .answer r args .consumed → e' = .answer r' args' .consumed →
    ¬ args.Same args'

/-- No two requests with the same token start a provider operation. -/
def StartedOnce (request : ℕ → Request) (events : List Event) : Prop :=
  events.Pairwise fun e e' => ∀ r r', e = .start r → e' = .start r' → (request r).token ≠ (request r').token

/-- What has happened is seen from the requests. -/
structure Recorded (events : List Event) (s : State) : Prop where
  answered : ∀ r args, .answer r args .consumed ∈ events →
    s.phase r = .answered args .consumed ∨ s.phase r = .started args
  started : ∀ r, .start r ∈ events → ∃ args, s.phase r = .started args

/-- A request that is not done goes on. -/
theorem Recorded.at {events : List Event} {r : ℕ} {phase : Phase} {guard : Store String ℤ ℕ} (h : Recorded events s)
    (hanswered : ∀ args, s.phase r ≠ .answered args .consumed) (hstarted : ∀ args, s.phase r ≠ .started args) :
    Recorded events { s.at r phase with guard := guard } := by
  constructor
  · intro r' args hr'
    have hr : r' ≠ r := by
      rintro rfl
      exact (h.answered r' args hr').elim (hanswered args) (hstarted args)
    rw [show State.phase _ r' = _ from phase_at_of_ne hr]
    exact h.answered r' args hr'
  · intro r' hr'
    obtain ⟨args, hphase⟩ := h.started r' hr'
    have hr : r' ≠ r := by
      rintro rfl
      exact hstarted args hphase
    exact ⟨args, (phase_at_of_ne hr).trans hphase⟩

/-- An event that is of no interest. -/
theorem Recorded.append {events : List Event} (h : Recorded events s)
    (hanswer : ∀ r args, event = .answer r args .consumed → s.phase r = .answered args .consumed)
    (hstart : ∀ r, event = .start r → ∃ args, s.phase r = .started args) : Recorded (events ++ [event]) s := by
  constructor
  · intro r args hr
    obtain hr | hr := List.mem_append.mp hr
    · exact h.answered r args hr
    · exact .inl (hanswer r args (List.mem_singleton.mp hr).symm)
  · intro r hr
    obtain hr | hr := List.mem_append.mp hr
    · exact h.started r hr
    · exact hstart r (List.mem_singleton.mp hr).symm

theorem Recorded.step {events : List Event} (h : Recorded events s) (hstep : Step edge request s event s') :
    Recorded (events ++ [event]) s' := by
  cases hstep with
  | tick _ => exact Recorded.append ⟨h.answered, h.started⟩ nofun nofun
  | verify hphase _ | refuse hphase _ | call hphase _ | uncalled hphase _ | check hphase _ _ | raise hphase _
  | purge hphase | keep hphase _ _ | expired hphase _ _ | delete hphase _ _ | deleted hphase _ _ _ | insert hphase _
  | abort hphase | replayed hphase =>
    refine (h.at ?_ ?_).append nofun nofun <;> simp [hphase]
  | @answer r args outcome hphase =>
    refine (h.at (by simp [hphase]) (by simp [hphase])).append ?_ nofun
    rintro _ _ ⟨⟩
    exact phase_at_self
  | @start r args hphase =>
    have hstart : ∀ r', .start r' ∈ events → r' ≠ r := by
      rintro r' hr' rfl
      obtain ⟨args', hphase'⟩ := h.started r' hr'
      rw [hphase] at hphase'
      cases hphase'
    refine Recorded.append ⟨?_, ?_⟩ nofun ?_
    · intro r' args' hr'
      by_cases hr : r' = r
      · subst hr
        have := h.answered r' args' hr'
        simp only [hphase, reduceCtorEq, or_false, Phase.answered.injEq, and_true] at this
        exact .inr (this ▸ phase_at_self)
      · rw [phase_at_of_ne hr]
        exact h.answered r' args' hr'
    · intro r' hr'
      obtain ⟨args', hphase'⟩ := h.started r' hr'
      exact ⟨args', (phase_at_of_ne (hstart r' hr')).trans hphase'⟩
    · rintro _ ⟨⟩
      exact ⟨args, phase_at_self⟩

/-- Two transactions that hold a row for the same token are one. -/
theorem Inv.held_unique (h : Inv s) {r r' : ℕ} {args args' : Args} {status status' : Status}
    (hheld : Held (s.phase r) args status) (hheld' : Held (s.phase r') args' status') (hsame : args.Same args') : r = r' := by
  have hne : ∀ {phase args status}, Held phase args status → status ≠ .aborted := by
    rintro _ _ _ ⟨⟩ <;> nofun
  obtain ⟨hstatus, v, hv, rfl, hkey, hrow⟩ := h.row r args status hheld
  obtain ⟨hstatus', v', hv', rfl, hkey', hrow'⟩ := h.row r' args' status' hheld'
  exact h.unique v hv v' hv' (hkey.trans (hsame.1.trans hkey'.symm)) (hrow.trans (hsame.2.trans hrow'.symm))
    (hstatus ▸ hne hheld) (hstatus' ▸ hne hheld')

theorem held_of_spent {r : ℕ} {args : Args} (h : s.phase r = .answered args .consumed ∨ s.phase r = .started args) :
    Held (s.phase r) args .committed := by
  obtain h | h := h
  · rw [h]
    exact .answered
  · rw [h]
    exact .started

/-- **A token is spent once.** However requests, calls and the clock take turns, each `jti` with its
expiry is answered `CONSUMED` at most once, and each token starts at most one provider operation, when
no call comes to its insert with a token that was spent before and has expired since. -/
theorem token_spent_once {now : ℤ} {events : List Event}
    (hrun : Run (fun s event s' => Step edge request s event s' ∧ OnTime s event) (State.initial now) events s) :
    AnsweredOnce events ∧ StartedOnce request events := by
  suffices h : Inv s ∧ Bound edge request s ∧ Recorded events s ∧ AnsweredOnce events ∧ StartedOnce request events from
    h.2.2.2
  induction hrun with
  | nil =>
    refine ⟨.initial now, ⟨?_, ?_⟩, ⟨?_, ?_⟩, .nil, .nil⟩
    · rintro r claims ⟨⟩
    · rintro r args ⟨⟩
    · nofun
    · nofun
  | @snoc events s event s' hrun hstep ih =>
    obtain ⟨hinv, hbound, hrecorded, hanswered, hstarted⟩ := ih
    obtain ⟨hstep, hontime⟩ := hstep
    refine ⟨hinv.step hstep hontime, hbound.step hstep, hrecorded.step hstep, ?_, ?_⟩
    · refine List.pairwise_append.mpr ⟨hanswered, List.pairwise_singleton _ _, ?_⟩
      rintro e he _ hlast r r' args args' rfl heq hsame
      rw [List.mem_singleton.mp hlast] at heq
      subst heq
      cases hstep with
      | answer hphase =>
        have hspent := hrecorded.answered r args he
        obtain rfl := hinv.held_unique (held_of_spent hspent) (hphase ▸ Held.returned) hsame
        simp [hphase] at hspent
    · refine List.pairwise_append.mpr ⟨hstarted, List.pairwise_singleton _ _, ?_⟩
      rintro e he _ hlast r r' rfl heq htoken
      rw [List.mem_singleton.mp hlast] at heq
      subst heq
      cases hstep with
      | @start _ args' hphase =>
        obtain ⟨args, hspent⟩ := hrecorded.started r he
        obtain ⟨claims, hclaims, hargs⟩ := hbound.called r args (by rw [hspent]; rfl)
        obtain ⟨claims', hclaims', hargs'⟩ := hbound.called r' args' (by rw [hphase]; rfl)
        obtain rfl := Except.ok.inj (hclaims.symm.trans (htoken ▸ hclaims'))
        obtain rfl := Except.ok.inj (hargs.symm.trans hargs')
        obtain rfl := hinv.held_unique (held_of_spent (.inr hspent)) (held_of_spent (.inl hphase)) ⟨rfl, rfl⟩
        rw [hspent] at hphase
        cases hphase

/-! ### A late purge -/

/-- The claims of a token that expires at the first second. -/
def sampleClaims : Claims :=
  [("iss", .string "https://token.actions.githubusercontent.com"),
    ("aud", .string "chat-communication-bus-supabase:b94d27b9934d3e08a52e52d7da7dabfac484efe37a5380ee9088f7ace2efcde9"),
    ("exp", .number ((1 : ℚ) : Number)), ("iat", .number ((0 : ℚ) : Number)), ("jti", .string "8d1f"),
    ("repository", .string "example/ccb-core"), ("repository_id", .string "1324505476"),
    ("repository_owner_id", .string "234958733"), ("event_name", .string "schedule"),
    ("workflow_ref", .string "example/ccb-core/.github/workflows/radar-central-dispatcher.yml@refs/heads/main"),
    ("ref", .string "refs/heads/main"),
    ("job_workflow_ref", .string
      "example/ccb-core/.github/workflows/radar-trusted-projector.yml@2fd4e1c67a2d28fced849ee1bb76e7391b93eb12"),
    ("job_workflow_sha", .string "2fd4e1c67a2d28fced849ee1bb76e7391b93eb12")]

def sampleEdge : Edge where
  claimsOf _ := .ok sampleClaims
  expiresAt exp := .ok (exp.num * 1000000)
  projectorSha := "2fd4e1c67a2d28fced849ee1bb76e7391b93eb12"

/-- Each request is with the same token. -/
def sampleRequest (_ : ℕ) : Request :=
  ⟨"header.claims.signature", "b94d27b9934d3e08a52e52d7da7dabfac484efe37a5380ee9088f7ace2efcde9"⟩

def sampleArgs : Args := ⟨"8d1f", 1000000⟩

theorem sampleClaims_checked : checkClaims sampleEdge 0
    (audiencePrefix ++ "b94d27b9934d3e08a52e52d7da7dabfac484efe37a5380ee9088f7ace2efcde9") sampleClaims = .ok () := by
  decide +kernel

theorem sampleArgs_eq : consumeArgs sampleEdge sampleClaims = .ok sampleArgs := by decide +kernel

theorem verify_sample (r : ℕ) : verifyGithubOidc sampleEdge 0 (.ok ()) (sampleRequest r).token
    (audiencePrefix ++ (sampleRequest r).digest) = .ok sampleClaims := by
  change (checkClaims sampleEdge 0 _ sampleClaims >>= fun _ => pure sampleClaims) = _
  rw [show (sampleRequest r).digest = "b94d27b9934d3e08a52e52d7da7dabfac484efe37a5380ee9088f7ace2efcde9" from rfl,
    sampleClaims_checked]
  rfl

/-- A request up to the snapshot of its purge, at the beginning. -/
theorem sampleRun_purge {r : ℕ} (hphase : s.phase r = .presented) (hnow : s.now = 0) :
    Run (fun s event s' => Step sampleEdge sampleRequest s event s' ∧ OnTime s event) s [.verify r, .call r, .check r, .purge r]
      (s.at r (.calling sampleArgs (.purging (s.guard.snapshot r)))) := by
  have hat : ∀ p p', (s.at r p).at r p' = s.at r p' := fun p p' => by simp [State.at]
  have hverify : Step sampleEdge sampleRequest s (.verify r) (s.at r (.verified sampleClaims)) := .verify hphase (verify_sample r)
  have hcall : Step sampleEdge sampleRequest (s.at r (.verified sampleClaims)) (.call r)
      ((s.at r (.verified sampleClaims)).at r (.calling sampleArgs .entered)) := .call phase_at_self sampleArgs_eq
  have hlive : s.now < sampleArgs.expiresAt := by
    rw [hnow]
    decide
  have hcheck : Step sampleEdge sampleRequest (s.at r (.calling sampleArgs .entered)) (.check r)
      ((s.at r (.calling sampleArgs .entered)).at r (.calling sampleArgs .checked)) :=
    .check phase_at_self (by decide +kernel) hlive
  have hpurge : Step sampleEdge sampleRequest (s.at r (.calling sampleArgs .checked)) (.purge r)
      ((s.at r (.calling sampleArgs .checked)).at r (.calling sampleArgs (.purging (s.guard.snapshot r)))) :=
    .purge phase_at_self
  rw [hat] at hcall hcheck hpurge
  exact (((Run.single ⟨hverify, nofun⟩).snoc ⟨hcall, nofun⟩).snoc ⟨hcheck, nofun⟩).snoc ⟨hpurge, nofun⟩

/-- The first request, before it inserts. -/
def samplePurging : State := (State.initial 0).at 0 (.calling sampleArgs (.purging []))

/-- It has inserted its row. -/
def sampleReturned : State :=
  { samplePurging.at 0 (.calling sampleArgs (.returned .consumed)) with
    guard := ⟨[⟨sampleArgs.key, 1000000, 0, none⟩], fun _ => .open⟩ }

/-- It has committed. -/
def sampleAnswered : State :=
  { sampleReturned.at 0 (.answered sampleArgs .consumed) with guard := sampleReturned.guard.finish 0 .committed }

/-- It has started its operation. -/
def sampleStarted : State := sampleAnswered.at 0 (.started sampleArgs)

/-- The events of the first request. -/
def sampleEvents : List Event := [.verify 0, .call 0, .check 0, .purge 0, .insert 0, .answer 0 sampleArgs .consumed, .start 0]

theorem sampleRun : Run (fun s event s' => Step sampleEdge sampleRequest s event s' ∧ OnTime s event) (State.initial 0)
    sampleEvents sampleStarted := by
  have hinsert : Step sampleEdge sampleRequest samplePurging (.insert 0) sampleReturned := .insert rfl rfl
  have hanswer : Step sampleEdge sampleRequest sampleReturned (.answer 0 sampleArgs .consumed) sampleAnswered := .answer rfl
  have hstart : Step sampleEdge sampleRequest sampleAnswered (.start 0) sampleStarted := .start rfl
  have hontime : OnTime samplePurging (.insert 0) := by
    rintro _ args ⟨⟩ hphase -
    cases hphase
    decide
  exact (((sampleRun_purge rfl rfl).snoc ⟨hinsert, hontime⟩).snoc ⟨hanswer, nofun⟩).snoc ⟨hstart, nofun⟩

/-- The events of a second request at the same time. -/
def replayEvents : List Event :=
  [.verify 1, .call 1, .check 1, .purge 1, .look 1, .insert 1, .answer 1 sampleArgs .replay, .fail 1]

/-- Before its insert. -/
def conflictingState : State := sampleStarted.at 1 (.calling sampleArgs (.purging []))

/-- The insert conflicts with the row. -/
def conflictedState : State := conflictingState.at 1 (.calling sampleArgs (.returned .replay))

/-- It is answered so, and fails. -/
def replayedState : State :=
  { conflictedState.at 1 (.answered sampleArgs .replay) with guard := conflictedState.guard.finish 1 .committed }

theorem insert_conflicts : Step sampleEdge sampleRequest conflictingState (.insert 1) conflictedState := by
  have hconflicts : conflictingState.guard.conflicts 1 sampleArgs.key = true := by decide +kernel
  have hwaits : conflictingState.guard.waits 1 sampleArgs.key = false := by decide +kernel
  have hinsert := @Step.insert sampleEdge sampleRequest conflictingState 1 sampleArgs rfl hwaits
  rw [Store.insertUnlessConflict, hconflicts, if_pos rfl, if_pos rfl] at hinsert
  exact hinsert

theorem replayRun : Run (fun s event s' => Step sampleEdge sampleRequest s event s' ∧ OnTime s event) (State.initial 0)
    (sampleEvents ++ replayEvents) (replayedState.at 1 (.failed ⟨403, "OIDC_JTI_REPLAYED"⟩)) := by
  have hpurge := sampleRun_purge (s := sampleStarted) (r := 1) rfl rfl
  have hkept : (sampleStarted.at 1 (.calling sampleArgs (.purging [0]))).at 1 (.calling sampleArgs (.purging [])) =
      conflictingState := by simp [conflictingState, State.at]
  have hlook : Step sampleEdge sampleRequest (sampleStarted.at 1 (.calling sampleArgs (.purging [0]))) (.look 1)
      ((sampleStarted.at 1 (.calling sampleArgs (.purging [0]))).at 1 (.calling sampleArgs (.purging []))) :=
    .keep (v := ⟨sampleArgs.key, 1000000, 0, none⟩) rfl rfl (by decide)
  rw [hkept] at hlook
  have hanswer : Step sampleEdge sampleRequest conflictedState (.answer 1 sampleArgs .replay) replayedState := .answer rfl
  have hfail : Step sampleEdge sampleRequest replayedState (.fail 1) (replayedState.at 1 (.failed ⟨403, "OIDC_JTI_REPLAYED"⟩)) :=
    .replayed rfl
  have hontime : OnTime conflictingState (.insert 1) := by
    rintro _ args ⟨⟩ hphase -
    cases hphase
    decide
  exact sampleRun.trans ((((hpurge.snoc ⟨hlook, nofun⟩).snoc ⟨insert_conflicts, hontime⟩).snoc ⟨hanswer, nofun⟩).snoc ⟨hfail, nofun⟩)

theorem token_spent_once_replayed : .answer 0 sampleArgs .consumed ∈ sampleEvents ++ replayEvents ∧
    .answer 1 sampleArgs .replay ∈ sampleEvents ++ replayEvents ∧ AnsweredOnce (sampleEvents ++ replayEvents) ∧
      StartedOnce sampleRequest (sampleEvents ++ replayEvents) :=
  ⟨by simp [sampleEvents], by simp [replayEvents], token_spent_once replayRun⟩

/-- The second request, once the clock has come to the expiry. -/
def lateState : State := { sampleStarted.at 1 (.calling sampleArgs (.purging [0])) with now := 1000000 }

/-- It is to delete the row. -/
def lateDeleting : State := lateState.at 1 (.calling sampleArgs (.deleting 0 []))

/-- It has deleted the row. -/
def lateDeleted : State :=
  { lateDeleting.at 1 (.calling sampleArgs (.purging [])) with guard := lateDeleting.guard.deleteAt 1 0 }

/-- It has inserted another. -/
def lateReturned : State :=
  { lateDeleted.at 1 (.calling sampleArgs (.returned .consumed)) with
    guard := lateDeleted.guard.insertUnlessConflict 1 sampleArgs.key 1000000 }

/-- The events of the second request. -/
def lateEvents : List Event :=
  [.verify 1, .call 1, .check 1, .purge 1, .tick, .look 1, .delete 1, .insert 1, .answer 1 sampleArgs .consumed]

theorem lateRun : ∃ s, Run (Step sampleEdge sampleRequest) (State.initial 0) (sampleEvents ++ lateEvents) s := by
  have hfst : ∀ (s : State) (event : Event) (s' : State), Step sampleEdge sampleRequest s event s' ∧ OnTime s event →
      Step sampleEdge sampleRequest s event s' := fun _ _ _ h => h.1
  have hpurge := (sampleRun_purge (s := sampleStarted) (r := 1) rfl rfl).mono hfst
  have htick : Step sampleEdge sampleRequest (sampleStarted.at 1 (.calling sampleArgs (.purging [0]))) .tick lateState :=
    .tick (by decide)
  have hlook : Step sampleEdge sampleRequest lateState (.look 1) lateDeleting :=
    .expired (v := ⟨sampleArgs.key, 1000000, 0, none⟩) rfl rfl (by decide)
  have hdelete : Step sampleEdge sampleRequest lateDeleting (.delete 1) lateDeleted :=
    .delete (v := ⟨sampleArgs.key, 1000000, 0, none⟩) rfl rfl nofun
  have hinsert : Step sampleEdge sampleRequest lateDeleted (.insert 1) lateReturned := .insert rfl rfl
  have hanswer : Step sampleEdge sampleRequest lateReturned (.answer 1 sampleArgs .consumed)
      { lateReturned.at 1 (.answered sampleArgs .consumed) with guard := lateReturned.guard.finish 1 .committed } := .answer rfl
  exact ⟨_, (sampleRun.mono hfst).trans (((((hpurge.snoc htick).snoc hlook).snoc hdelete).snoc hinsert).snoc hanswer)⟩

/-- The row of a spent token is deleted by a second call with it, which checked the expiry before. -/
theorem spent_twice :
    ¬ ∀ (events : List Event) (s : State), Run (Step sampleEdge sampleRequest) (State.initial 0) events s →
      AnsweredOnce events ∧ StartedOnce sampleRequest events := by
  intro honce
  obtain ⟨s, hrun⟩ := lateRun
  have hanswered := (List.pairwise_append.mp (honce _ s hrun).1).2.2 (.answer 0 sampleArgs .consumed) (by decide)
    (.answer 1 sampleArgs .consumed) (by decide)
  exact hanswered 0 1 sampleArgs sampleArgs rfl rfl ⟨rfl, rfl⟩

end CcbCore.Guard
