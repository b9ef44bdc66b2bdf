import CcbCore.Relay.Once

/-!
# A race of claims

Calls of `RelayStore.claim` on one table, each a read and then, where it found no row, an
insertion. A call whose read finds the row of another binding is refused, and one whose
read finds the row of its own binding gets what the row holds by then. But a call that has
found no row inserts one, and nothing catches what SQLite raises when another call has
inserted it since. So the calls for a message all end as `claim` has it exactly when no
call comes to its insertion after another's (`claim_race`): two calls of one binding that
have both read before either inserts are `twins_raise`.
-/

namespace CcbCore.Relay

open CcbCore.CodePoints CcbCore.Postgres CcbCore.Radar

/-! ### Calls -/

/-- The arguments of `claim`, texts that SQLite binds. -/
structure ClaimCall where
  binding : Binding
  updatedAt : Str
  bound : [binding.messageId, binding.nonce, binding.envelopeSha256, updatedAt].all encodable = true

/-- What `claim` returns. -/
abbrev Claim := Bool × Str × Option RelayReceipt

/-- The row that a call inserts. -/
def ClaimCall.row (call : ClaimCall) : Operation :=
  ⟨call.binding.messageId, call.binding.nonce, call.binding.envelopeSha256, lit "CREATED", none, call.updatedAt⟩

/-- A call that has not read yet. -/
def ClaimCall.program (decoder : Decoder Empty) (call : ClaimCall) : Program Claim := claim decoder call.binding call.updatedAt

/-- A call that has found no row. -/
def ClaimCall.inserting (call : ClaimCall) : Program Claim := claimNew call.binding call.updatedAt

/-- What a call that creates the row returns. -/
def createdResult : Except Exc Claim := .ok (true, lit "CREATED", none)

/-- What a call with another binding raises. -/
def conflictResult : Except Exc Claim := .error (.relayStateError (lit "MESSAGE_ID_CONFLICT"))

/-- What SQLite raises for a second row of a message id. -/
def integrityError : Exc := .raised (.other "IntegrityError")

/-- What a row holds for a call with its binding. -/
inductive Durable (decoder : Decoder Empty) (row : Operation) : Claim → Prop where
  | unreceipted : row.receiptJson = none → Durable decoder row (false, row.state, none)
  | receipted {text : Str} {receipt : RelayReceipt} : row.receiptJson = some text →
      RelayReceipt.decode decoder text = .ok receipt → Durable decoder row (false, row.state, some receipt)

/-- What SQLite answers to the statements of `claim`. -/
def Table : Environment Calls Exc World := fun op w reply w' =>
  match op, reply with
  | .select messageId, reply => reply = .ok (w.rows messageId) ∧ w' = w
  | .insert row, reply =>
    if w.rows row.messageId = none then reply = .ok () ∧ w' = w.put row else reply = .error integrityError ∧ w' = w
  | _, _ => False

/-- `set_state` or `finalize` in between, of a receipt that reads back. -/
inductive Advances (decoder : Decoder Empty) (w : World) : World → Prop where
  | setState (binding : Binding) (state updatedAt : Str) :
      Advances decoder w (w.update binding fun row => { row with state, updatedAt }).2
  | finalize (binding : Binding) (state updatedAt : Str) {receiptJson : Str} {receipt : RelayReceipt} :
      RelayReceipt.decode decoder receiptJson = .ok receipt →
      Advances decoder w (w.update binding fun row => { row with state, receiptJson := some receiptJson, updatedAt }).2

/-! ### Races -/

/-- Calls on one table, each with what is left of it. -/
abbrev Race (ι : Type) := Pool Calls Exc Claim World ι ClaimCall

/-- A step of a race: a call's next statement, or another process's update of a row. -/
def RaceStep (decoder : Decoder Empty) {ι : Type} [DecidableEq ι] (p : Race ι) (event : PoolEvent ι ClaimCall)
    (p' : Race ι) : Prop :=
  PoolStep Table (Advances decoder) (ClaimCall.program decoder) p event p' ∧ ∀ i call, event ≠ .start i call

/-- A race that has not begun. -/
structure Begins (decoder : Decoder Empty) {ι : Type} (p : Race ι) : Prop where
  program : ∀ i, p.program i = (p.data i).program decoder

section

variable {decoder : Decoder Empty} {call : ClaimCall} {w w' : World}

theorem refuseIf_false {q : Prop} [Decidable q] {e : Exc} (h : ¬ q) :
    (Prog.refuseIf q e : Program PUnit) = .done (.ok ⟨⟩) := by rw [Prog.refuseIf, if_neg h]

theorem execute_eq {texts : List Str} (h : texts.all encodable = true) (op : Op) :
    execute texts op = .call op .done := by
  rw [execute, refuseIf_false (by rw [h]; decide)]
  rfl

theorem program_eq (decoder : Decoder Empty) (call : ClaimCall) :
    call.program decoder = .call (.select call.binding.messageId) fun reply =>
      match (reply : Except Exc (Option Operation)) with
      | .ok (some row) => claimFound decoder call.binding row
      | .ok none => call.inserting
      | .error e => .done (.error e) := by
  have hid : [call.binding.messageId].all encodable = true := by
    have hbound := call.bound
    rw [List.all_cons, Bool.and_eq_true] at hbound
    rw [List.all_cons, hbound.1]
    rfl
  rw [ClaimCall.program, claim, execute_eq hid]
  refine congrArg (Prog.call (I := Calls) _) (funext fun reply => ?_)
  rcases reply with e | _ | row <;> rfl

theorem inserting_eq (call : ClaimCall) :
    call.inserting = .call (.insert call.row) fun reply =>
      match reply with
      | .ok _ => .done createdResult
      | .error e => .done (.error e) := by
  rw [ClaimCall.inserting, claimNew, execute_eq call.bound]
  refine congrArg (Prog.call (I := Calls) _) (funext fun reply => ?_)
  cases reply <;> rfl

theorem claimFound_conflict {row : Operation} (hid : row.messageId = call.binding.messageId) (h : row.binding ≠ call.binding) :
    claimFound decoder call.binding row = .done conflictResult := by
  have hdiffers : row.nonce ≠ call.binding.nonce ∨ row.envelopeSha256 ≠ call.binding.envelopeSha256 := by
    by_contra hsame
    rw [not_or, not_not, not_not] at hsame
    exact h (congr (congr (congrArg Binding.mk hid) hsame.1) hsame.2)
  rw [claimFound, Prog.refuseIf, if_pos hdiffers]
  rfl

/-- The receipt of a row reads back. -/
def Operation.Reads (decoder : Decoder Empty) (row : Operation) : Prop :=
  ∀ text, row.receiptJson = some text → ∃ receipt, RelayReceipt.decode decoder text = .ok receipt

theorem claimFound_durable {row : Operation} (h : row.binding = call.binding) (hreads : row.Reads decoder) :
    ∃ value, Durable decoder row value ∧ claimFound decoder call.binding row = .done (.ok value) := by
  have hsame : ¬ (row.nonce ≠ call.binding.nonce ∨ row.envelopeSha256 ≠ call.binding.envelopeSha256) := by
    rw [← h, not_or, not_not, not_not]
    exact ⟨rfl, rfl⟩
  cases hjson : row.receiptJson with
  | none =>
    refine ⟨_, .unreceipted hjson, ?_⟩
    rw [claimFound, refuseIf_false hsame, hjson]
    rfl
  | some text =>
    obtain ⟨receipt, hdecode⟩ := hreads text hjson
    refine ⟨_, .receipted hjson hdecode, ?_⟩
    rw [claimFound, refuseIf_false hsame, hjson]
    change (Prog.lift (RelayReceipt.decode decoder text) >>= fun receipt => pure (false, row.state, some receipt)) = _
    rw [hdecode]
    rfl

theorem claimFound_done (decoder : Decoder Empty) (call : ClaimCall) (row : Operation) :
    ∃ r, claimFound decoder call.binding row = .done r := by
  by_cases hdiffers : row.nonce ≠ call.binding.nonce ∨ row.envelopeSha256 ≠ call.binding.envelopeSha256
  · rw [claimFound, Prog.refuseIf, if_pos hdiffers]
    exact ⟨_, rfl⟩
  · rw [claimFound, refuseIf_false hdiffers]
    cases row.receiptJson with
    | none => exact ⟨_, rfl⟩
    | some text =>
      cases hdecode : RelayReceipt.decode decoder text with
      | error e => exact ⟨.error e, by change (Prog.lift (RelayReceipt.decode decoder text) >>= _) = _; rw [hdecode]; rfl⟩
      | ok receipt => exact ⟨_, by change (Prog.lift (RelayReceipt.decode decoder text) >>= _) = _; rw [hdecode]; rfl⟩

theorem table_select (w : World) (messageId : Str) : Table (.select messageId) w (.ok (w.rows messageId)) w := ⟨rfl, rfl⟩

theorem insert_free {reply : Except Exc Unit} (h : w.rows call.binding.messageId = none) :
    Table (.insert call.row) w reply w' ↔ reply = .ok () ∧ w' = w.put call.row := by
  unfold Table
  exact iff_of_eq (if_pos h)

theorem insert_taken {reply : Except Exc Unit} (h : w.rows call.binding.messageId ≠ none) :
    Table (.insert call.row) w reply w' ↔ reply = .error integrityError ∧ w' = w := by
  unfold Table
  exact iff_of_eq (if_neg h)

/-! ### Updates in between -/

theorem update_rows (w : World) (binding : Binding) (change : Operation → Operation)
    (hkeep : ∀ row, (change row).messageId = row.messageId) (messageId : Str) : (w.update binding change).2.rows messageId = w.rows messageId ∨
      ∃ row, w.rows messageId = some row ∧ (w.update binding change).2.rows messageId = some (change row) := by
  rcases w.update_eq binding change with ⟨-, heq⟩ | ⟨row, hrow, hbinding, heq⟩
  · exact .inl (by rw [heq])
  · have hid : row.messageId = binding.messageId := congrArg (·.messageId) hbinding
    rw [heq]
    by_cases hsame : messageId = (change row).messageId
    · refine .inr ⟨row, ?_, ?_⟩
      · rw [hsame, hkeep, hid, hrow]
      · rw [hsame, World.put_self]
    · exact .inl (World.put_of_ne w hsame)

/-- An update keeps the binding of a row, and a receipt that reads back. -/
theorem Advances.rows (h : Advances decoder w w') (messageId : Str) : w'.rows messageId = w.rows messageId ∨
    ∃ row row', w.rows messageId = some row ∧ w'.rows messageId = some row' ∧ row'.binding = row.binding ∧
      (row.Reads decoder → row'.Reads decoder) := by
  cases h with
  | setState binding state updatedAt =>
    rcases update_rows w binding (fun row => { row with state, updatedAt }) (fun _ => rfl) messageId with
      heq | ⟨row, hrow, hrow'⟩
    · exact .inl heq
    · exact .inr ⟨row, _, hrow, hrow', rfl, id⟩
  | @finalize binding state updatedAt receiptJson receipt hdecode =>
    rcases update_rows w binding (fun row => { row with state, receiptJson := some receiptJson, updatedAt })
      (fun _ => rfl) messageId with heq | ⟨row, hrow, hrow'⟩
    · exact .inl heq
    · refine .inr ⟨row, _, hrow, hrow', rfl, ?_⟩
      intro _ text htext
      obtain rfl := Option.some.inj htext
      exact ⟨receipt, hdecode⟩

end

/-! ### What a step does -/

/-- What a call goes on with once it has read. -/
def ClaimCall.afterRead (decoder : Decoder Empty) (call : ClaimCall) : Option Operation → Program Claim
  | some row => claimFound decoder call.binding row
  | none => call.inserting

variable {ι : Type} {decoder : Decoder Empty} {p q p' p'' : Race ι} {i : ι}

/-- How far a call is, after so many statements. -/
inductive Stage (decoder : Decoder Empty) (p : Race ι) (i : ι) : ℕ → Prop where
  | unread : p.program i = (p.data i).program decoder → Stage decoder p i 0
  | unwritten : p.program i = (p.data i).inserting → Stage decoder p i 1
  | ended {n : ℕ} {r : Except Exc Claim} : p.program i = .done r → n ≤ 2 → Stage decoder p i n

/-- Another call's step leaves a call where it is. -/
theorem Stage.keep {n : ℕ} (h : Stage decoder p i n) (hprogram : p'.program i = p.program i) (hdata : p'.data = p.data) :
    Stage decoder p' i n := by
  cases h with
  | unread hunread => exact .unread (by rw [hprogram, hunread, hdata])
  | unwritten hunwritten => exact .unwritten (by rw [hprogram, hunwritten, hdata])
  | ended hdone hcount => exact .ended (hprogram.trans hdone) hcount

theorem Stage.eq_zero {n : ℕ} (h : Stage decoder p i n) (hunread : p.program i = (p.data i).program decoder) : n = 0 := by
  rw [program_eq] at hunread
  cases h with
  | unread _ => rfl
  | unwritten hunwritten =>
    rw [hunread, inserting_eq] at hunwritten
    cases hunwritten
  | ended hdone _ =>
    rw [hunread] at hdone
    cases hdone

theorem Stage.eq_one {n : ℕ} (h : Stage decoder p i n) (hunwritten : p.program i = (p.data i).inserting) : n = 1 := by
  rw [inserting_eq] at hunwritten
  cases h with
  | unread hunread =>
    rw [hunwritten, program_eq] at hunread
    cases hunread
  | unwritten _ => rfl
  | ended hdone _ =>
    rw [hunwritten] at hdone
    cases hdone

theorem Stage.le_two {n : ℕ} (h : Stage decoder p i n) : n ≤ 2 := by
  cases h with
  | unread _ => decide
  | unwritten _ => decide
  | ended _ hcount => exact hcount

theorem inserting_open {call : ClaimCall} {r : Except Exc Claim} (h : p.program i = call.inserting) : p.program i ≠ .done r := by
  rw [h, inserting_eq]
  nofun

theorem program_open {call : ClaimCall} {r : Except Exc Claim} (h : p.program i = call.program decoder) :
    p.program i ≠ .done r := by
  rw [h, program_eq]
  nofun

variable [DecidableEq ι] {events : List (PoolEvent ι ClaimCall)} {event : PoolEvent ι ClaimCall} {messageId : Str}

/-- The steps of a race. -/
inductive Moves (decoder : Decoder Empty) (p : Race ι) : PoolEvent ι ClaimCall → Race ι → Prop where
  | read {i : ι} : p.program i = (p.data i).program decoder →
      Moves decoder p (.call i) { p with
        program := Function.update p.program i ((p.data i).afterRead decoder (p.state.rows (p.data i).binding.messageId)) }
  | inserted {i : ι} : p.program i = (p.data i).inserting → p.state.rows (p.data i).binding.messageId = none →
      Moves decoder p (.call i) { p with
        state := p.state.put (p.data i).row
        program := Function.update p.program i (.done createdResult) }
  | second {i : ι} : p.program i = (p.data i).inserting → p.state.rows (p.data i).binding.messageId ≠ none →
      Moves decoder p (.call i) { p with program := Function.update p.program i (.done (.error integrityError)) }
  | advanced {w : World} : Advances decoder p.state w → Moves decoder p .other { p with state := w }

theorem RaceStep.moves (hstage : ∀ i, ∃ n, Stage decoder p i n) (h : RaceStep decoder p event p') :
    Moves decoder p event p' := by
  obtain ⟨hstep, hstart⟩ := h
  cases hstep with
  | start i call => exact absurd rfl (hstart i call)
  | other hother => exact .advanced hother
  | @call i op next reply w hprogram htable =>
    obtain ⟨n, hn⟩ := hstage i
    cases hn with
    | unread hunread =>
      rw [hunread, program_eq] at hprogram
      cases hprogram
      obtain ⟨rfl, rfl⟩ := htable
      have hread := Moves.read hunread
      cases hrow : p.state.rows (p.data i).binding.messageId with
      | none =>
        rw [hrow] at hread
        exact hread
      | some row =>
        rw [hrow] at hread
        exact hread
    | unwritten hunwritten =>
      rw [hunwritten, inserting_eq] at hprogram
      cases hprogram
      by_cases hnone : p.state.rows (p.data i).binding.messageId = none
      · obtain ⟨rfl, rfl⟩ := (insert_free hnone).mp htable
        exact .inserted hunwritten hnone
      · obtain ⟨rfl, rfl⟩ := (insert_taken hnone).mp htable
        exact .second hunwritten hnone
    | ended hdone =>
      rw [hdone] at hprogram
      cases hprogram

theorem afterRead_cases (decoder : Decoder Empty) (call : ClaimCall) (found : Option Operation) :
    (found = none ∧ call.afterRead decoder found = call.inserting) ∨
      ∃ row r, found = some row ∧ call.afterRead decoder found = .done r := by
  cases found with
  | none => exact .inl ⟨rfl, rfl⟩
  | some row =>
    obtain ⟨r, hr⟩ := claimFound_done decoder call row
    exact .inr ⟨row, r, rfl, hr⟩

/-- The event is a statement of the call. -/
def madeBy (i : ι) : PoolEvent ι ClaimCall → Bool
  | .call j => j = i
  | _ => false

theorem Moves.data (h : Moves decoder p event p') : p'.data = p.data := by cases h <;> rfl

/-- What a step does to the program of a call that does not make it. -/
theorem Moves.program_kept (h : Moves decoder p event p') (hi : madeBy i event = false) : p'.program i = p.program i := by
  have hne {j : ι} (hj : madeBy i (.call j) = false) : i ≠ j := fun heq => of_decide_eq_false hj heq.symm
  cases h with
  | read _ => exact Function.update_of_ne (hne hi) ..
  | inserted _ _ => exact Function.update_of_ne (hne hi) ..
  | second _ _ => exact Function.update_of_ne (hne hi) ..
  | advanced _ => rfl

/-- A step takes the call that makes it further, and leaves the others where they are. -/
theorem Moves.stage {n : ℕ} (h : Moves decoder p event p') (hstage : Stage decoder p i n) :
    Stage decoder p' i (n + if madeBy i event = true then 1 else 0) := by
  by_cases hi : madeBy i event = true
  · rw [if_pos hi]
    cases h with
    | @read j hunread =>
      obtain rfl : j = i := of_decide_eq_true hi
      obtain rfl := hstage.eq_zero hunread
      rcases afterRead_cases decoder (p.data j) (p.state.rows (p.data j).binding.messageId) with ⟨-, heq⟩ | ⟨row, r, -, heq⟩
      · exact .unwritten ((Function.update_self ..).trans heq)
      · exact .ended ((Function.update_self ..).trans heq) (by decide)
    | @inserted j hunwritten _ =>
      obtain rfl : j = i := of_decide_eq_true hi
      obtain rfl := hstage.eq_one hunwritten
      exact .ended (Function.update_self ..) le_rfl
    | @second j hunwritten _ =>
      obtain rfl : j = i := of_decide_eq_true hi
      obtain rfl := hstage.eq_one hunwritten
      exact .ended (Function.update_self ..) le_rfl
    | advanced _ => cases hi
  · rw [if_neg hi]
    exact hstage.keep (h.program_kept (Bool.eq_false_iff.mpr hi)) h.data

theorem run_stage (hp : Begins decoder p) (h : Run (RaceStep decoder) p events p') :
    p'.data = p.data ∧ ∀ i, Stage decoder p' i (events.countP (madeBy i)) := by
  induction h with
  | nil => exact ⟨rfl, fun i => .unread (hp.program i)⟩
  | snoc _ hstep ih =>
    obtain ⟨hdata, hstage⟩ := ih
    have hmoves := hstep.moves fun i => ⟨_, hstage i⟩
    refine ⟨hmoves.data.trans hdata, fun i => ?_⟩
    rw [List.countP_append, List.countP_singleton]
    exact hmoves.stage (hstage i)

/-- What a call has next, it can do. -/
theorem Moves.raceStep (h : Moves decoder p event p') : RaceStep decoder p event p' := by
  cases h with
  | advanced hadvances => exact ⟨.other hadvances, nofun⟩
  | @read i hunread =>
    have hstep : RaceStep decoder p (.call i) _ := ⟨.call (hunread.trans (program_eq ..)) (table_select ..), nofun⟩
    cases hrow : p.state.rows (p.data i).binding.messageId with
    | none =>
      rw [hrow] at hstep
      exact hstep
    | some row =>
      rw [hrow] at hstep
      exact hstep
  | inserted hunwritten hnone =>
    rw [inserting_eq] at hunwritten
    exact ⟨.call hunwritten ((insert_free hnone).mpr ⟨rfl, rfl⟩), nofun⟩
  | second hunwritten hsome =>
    rw [inserting_eq] at hunwritten
    exact ⟨.call hunwritten ((insert_taken hsome).mpr ⟨rfl, rfl⟩), nofun⟩

/-- A call that has not ended can make its next statement. -/
theorem Stage.enabled {n : ℕ} (h : Stage decoder p i n) :
    (∃ r, p.program i = .done r) ∨ ∃ p', RaceStep decoder p (.call i) p' := by
  cases h with
  | ended hdone _ => exact .inl ⟨_, hdone⟩
  | unread hunread => exact .inr ⟨_, (Moves.read hunread).raceStep⟩
  | unwritten hunwritten =>
    by_cases hnone : p.state.rows (p.data i).binding.messageId = none
    · exact .inr ⟨_, (Moves.inserted hunwritten hnone).raceStep⟩
    · exact .inr ⟨_, (Moves.second hunwritten hnone).raceStep⟩

/-- A call that has ended stays as it ended. -/
theorem ended_stays {r : Except Exc Claim} (h : Run (RaceStep decoder) p events p') (hdone : p.program i = .done r) :
    p'.program i = .done r := by
  induction h with
  | nil => exact hdone
  | snoc _ hstep ih =>
    obtain ⟨hstep, hstart⟩ := hstep
    cases hstep with
    | start j call => exact absurd rfl (hstart j call)
    | other _ => exact ih
    | @call j op next reply w hprogram _ =>
      have hne : i ≠ j := by
        intro heq
        rw [← heq, ih] at hprogram
        cases hprogram
      exact (Function.update_of_ne hne ..).trans ih

/-! ### What the calls end with -/

/-- What a call ends with, where a row with a binding has been created. -/
inductive Outcome (decoder : Decoder Empty) (p : Race ι) (events : List (PoolEvent ι ClaimCall)) (p' : Race ι)
    (winning : Binding) (i : ι) : Except Exc Claim → Prop where
  /-- The call has created the row. -/
  | created : (p.data i).binding = winning → Outcome decoder p events p' winning i createdResult
  /-- The call has found the row, as it was in a state of the run. -/
  | found {q : Race ι} {row : Operation} {claim : Claim} : (p.data i).binding = winning →
      Through (RaceStep decoder) p events p' q → q.state.rows winning.messageId = some row → Durable decoder row claim →
      Outcome decoder p events p' winning i (.ok claim)
  /-- The call is refused. -/
  | refused : (p.data i).binding ≠ winning → Outcome decoder p events p' winning i conflictResult

/-- The calls for a message that have ended have done so as `claim` has it, and one of them has
created the row. -/
structure Resolved (decoder : Decoder Empty) (p : Race ι) (events : List (PoolEvent ι ClaimCall)) (p' : Race ι)
    (messageId : Str) : Prop where
  outcome : ∀ i r, (p.data i).binding.messageId = messageId → p'.program i = .done r →
    ∃ row, p'.state.rows messageId = some row ∧ Outcome decoder p events p' row.binding i r
  winner : ∀ row, p'.state.rows messageId = some row →
    ∃! i, (p.data i).binding.messageId = messageId ∧ p'.program i = .done createdResult

/-- No call for a message comes to its insertion when there is a row. -/
def Clear (decoder : Decoder Empty) (p : Race ι) (events : List (PoolEvent ι ClaimCall)) (p' : Race ι)
    (messageId : Str) : Prop :=
  ∀ before i after q t, events = before ++ .call i :: after → Run (RaceStep decoder) p before q →
    RaceStep decoder q (.call i) t → Run (RaceStep decoder) t after p' → (p.data i).binding.messageId = messageId →
    q.program i = (p.data i).inserting → q.state.rows messageId = none

theorem Clear.init (hclear : Clear decoder p (events ++ [event]) p'' messageId) (hstep : RaceStep decoder p' event p'') :
    Clear decoder p events p' messageId := by
  intro before i after q t hevents hbefore hcall hafter hid hinserting
  exact hclear before i (after ++ [event]) q t (by rw [hevents, List.append_assoc, List.cons_append]) hbefore hcall
    (hafter.snoc hstep) hid hinserting

theorem Outcome.snoc {winning : Binding} {r : Except Exc Claim} (h : Outcome decoder p events p' winning i r)
    (hstep : RaceStep decoder p' event p'') : Outcome decoder p (events ++ [event]) p'' winning i r := by
  cases h with
  | created hbinding => exact .created hbinding
  | found hbinding hthrough hrow hdurable => exact .found hbinding (hthrough.snoc hstep) hrow hdurable
  | refused hbinding => exact .refused hbinding

/-- Where the calls for a message are. -/
inductive Raced (decoder : Decoder Empty) (p : Race ι) (events : List (PoolEvent ι ClaimCall)) (p' : Race ι)
    (messageId : Str) : Prop where
  | unclaimed : p'.state.rows messageId = none →
      (∀ i, (p.data i).binding.messageId = messageId → ∀ r, p'.program i ≠ .done r) → Raced decoder p events p' messageId
  | claimed {row : Operation} {k : ι} : p'.state.rows messageId = some row → row.Reads decoder →
      (p.data k).binding.messageId = messageId → row.binding = (p.data k).binding → p'.program k = .done createdResult →
      (∀ i, (p.data i).binding.messageId = messageId → i ≠ k → ∀ r, p'.program i = .done r →
        r ≠ createdResult ∧ Outcome decoder p events p' row.binding i r) → Raced decoder p events p' messageId

theorem Durable.not_created {row : Operation} {claim : Claim} (h : Durable decoder row claim) :
    (.ok claim : Except Exc Claim) ≠ createdResult := by
  intro heq
  cases h <;> exact absurd (congrArg Prod.fst (Except.ok.inj heq)) Bool.false_ne_true

theorem Raced.resolved (h : Raced decoder p events p' messageId) : Resolved decoder p events p' messageId := by
  cases h with
  | unclaimed hnone hopen =>
    refine ⟨fun i r hid hdone => absurd hdone (hopen i hid r), fun row hrow => ?_⟩
    rw [hnone] at hrow
    cases hrow
  | @claimed row k hrow _ hk hbinding hcreated hothers =>
    refine ⟨fun i r hid hdone => ⟨row, hrow, ?_⟩, fun _ _ => ⟨k, ⟨hk, hcreated⟩, ?_⟩⟩
    · by_cases hi : i = k
      · rw [hi, hcreated] at hdone
        cases hdone
        exact hi ▸ .created hbinding.symm
      · exact (hothers i hid hi r hdone).2
    · rintro i ⟨hid, hdone⟩
      by_contra hi
      exact (hothers i hid hi _ hdone).1 rfl

/-- What a call ends with that finds the row when it reads. -/
theorem found_outcome (hdata : p'.data = p.data) (hthrough : Through (RaceStep decoder) p events p'' p') {row : Operation}
    (hrow : p'.state.rows (p'.data i).binding.messageId = some row) (hid : row.messageId = (p'.data i).binding.messageId)
    (hreads : row.Reads decoder) {r : Except Exc Claim} (hr : claimFound decoder (p'.data i).binding row = .done r) :
    r ≠ createdResult ∧ Outcome decoder p events p'' row.binding i r := by
  by_cases hbinding : row.binding = (p'.data i).binding
  · obtain ⟨claim, hdurable, hclaim⟩ := claimFound_durable hbinding hreads
    rw [hclaim] at hr
    cases hr
    refine ⟨hdurable.not_created, .found (hdata ▸ hbinding.symm) hthrough ?_ hdurable⟩
    rw [hbinding]
    exact hrow
  · rw [claimFound_conflict hid hbinding] at hr
    cases hr
    exact ⟨nofun, .refused (hdata ▸ fun heq => hbinding heq.symm)⟩

/-- A statement of one call leaves what the calls for a message have ended with. -/
theorem Raced.read (hdata : p'.data = p.data) (h : Raced decoder p events p' messageId) (hstep : RaceStep decoder p' (.call i) p'')
    (hmoves : Moves decoder p' (.call i) p'') (hrows : p''.state.rows messageId = p'.state.rows messageId)
    (hthrough : Through (RaceStep decoder) p (events ++ [.call i]) p'' p') (hopen : ∀ r, p'.program i ≠ .done r)
    (hend : (p.data i).binding.messageId = messageId → ∀ r, p''.program i = .done r → ∃ row,
      p'.state.rows messageId = some row ∧ claimFound decoder (p'.data i).binding row = .done r) :
    Raced decoder p (events ++ [.call i]) p'' messageId := by
  have hkept {j : ι} (hj : j ≠ i) : p''.program j = p'.program j := hmoves.program_kept (decide_eq_false fun heq => hj heq.symm)
  cases h with
  | unclaimed hnone hwaiting =>
    refine .unclaimed (hrows.trans hnone) fun j hid r hdone => ?_
    by_cases hj : j = i
    · subst hj
      obtain ⟨row, hrow, -⟩ := hend hid r hdone
      rw [hnone] at hrow
      cases hrow
    · exact hwaiting j hid r ((hkept hj).symm.trans hdone)
  | @claimed row k hrow hreads hk hbinding hcreated hothers =>
    have hki : k ≠ i := fun heq => hopen _ (heq ▸ hcreated)
    refine .claimed (hrows.trans hrow) hreads hk hbinding ((hkept hki).trans hcreated) fun j hid hjk r hdone => ?_
    by_cases hj : j = i
    · subst hj
      obtain ⟨row', hrow', hr⟩ := hend hid r hdone
      obtain rfl := Option.some.inj (hrow.symm.trans hrow')
      have hid' : row.messageId = (p'.data j).binding.messageId := by
        rw [hdata, hid, ← hk]
        exact congrArg (·.messageId) hbinding
      exact found_outcome hdata hthrough (by rw [hdata, hid]; exact hrow) hid' hreads hr
    · obtain ⟨hne, houtcome⟩ := hothers j hid hjk r ((hkept hj).symm.trans hdone)
      exact ⟨hne, houtcome.snoc hstep⟩

theorem Raced.advance (h : Raced decoder p events p' messageId) {w : World} (hadvances : Advances decoder p'.state w)
    (hstep : RaceStep decoder p' .other { p' with state := w }) :
    Raced decoder p (events ++ [.other]) { p' with state := w } messageId := by
  cases h with
  | unclaimed hnone hwaiting =>
    refine .unclaimed ?_ hwaiting
    rcases hadvances.rows messageId with heq | ⟨row, row', hrow, -⟩
    · exact heq.trans hnone
    · rw [hnone] at hrow
      cases hrow
  | @claimed row k hrow hreads hk hbinding hcreated hothers =>
    rcases hadvances.rows messageId with heq | ⟨old, row', hold, hrow', hsame, hreads'⟩
    · refine .claimed (heq.trans hrow) hreads hk hbinding hcreated fun i hid hi r hdone => ?_
      obtain ⟨hne, houtcome⟩ := hothers i hid hi r hdone
      exact ⟨hne, houtcome.snoc hstep⟩
    · obtain rfl := Option.some.inj (hrow.symm.trans hold)
      refine .claimed hrow' (hreads' hreads) hk (hsame.trans hbinding) hcreated fun i hid hi r hdone => ?_
      obtain ⟨hne, houtcome⟩ := hothers i hid hi r hdone
      exact ⟨hne, hsame ▸ houtcome.snoc hstep⟩

theorem Raced.insert (hdata : p'.data = p.data) (h : Raced decoder p events p' messageId)
    (hid : (p.data i).binding.messageId = messageId) (hnone : p'.state.rows messageId = none)
    (hmoves : Moves decoder p' (.call i) p'') (hrow : p''.state.rows messageId = some (p'.data i).row)
    (hcreated : p''.program i = .done createdResult) : Raced decoder p (events ++ [.call i]) p'' messageId := by
  cases h with
  | claimed hsome =>
    rw [hnone] at hsome
    cases hsome
  | unclaimed _ hwaiting =>
    refine .claimed hrow nofun hid (hdata ▸ rfl) hcreated fun j hjd hj r hdone => ?_
    have hkept : p''.program j = p'.program j := hmoves.program_kept (decide_eq_false fun heq => hj heq.symm)
    exact absurd (hkept.symm.trans hdone) (hwaiting j hjd r)

/-- **A step that comes to no second insertion keeps the calls for a message as they should be.** -/
theorem Raced.step (hdata : p'.data = p.data) (hrun : Run (RaceStep decoder) p events p')
    (h : Raced decoder p events p' messageId) (hstep : RaceStep decoder p' event p'') (hmoves : Moves decoder p' event p'')
    (hfirst : ∀ i, event = .call i → (p.data i).binding.messageId = messageId → p'.program i = (p.data i).inserting →
      p'.state.rows messageId = none) : Raced decoder p (events ++ [event]) p'' messageId := by
  have hthrough := hrun.through_last.snoc hstep
  have hmoves' := hmoves
  cases hmoves with
  | advanced hadvances => exact h.advance hadvances hstep
  | @read i hunread =>
    refine h.read hdata hstep hmoves' rfl hthrough (fun r => program_open hunread) fun hid r hdone => ?_
    rw [← hid, ← hdata]
    have hafter := (Function.update_self ..).symm.trans hdone
    cases hrow : p'.state.rows (p'.data i).binding.messageId with
    | none =>
      rw [hrow] at hafter
      exact absurd hafter (by rw [ClaimCall.afterRead, inserting_eq]; nofun)
    | some row =>
      rw [hrow] at hafter
      exact ⟨row, rfl, hafter⟩
  | @inserted i hunwritten hnone =>
    by_cases hid : (p.data i).binding.messageId = messageId
    · rw [hdata, hid] at hnone
      refine h.insert hdata hid hnone hmoves' ?_ (Function.update_self ..)
      have hself := p'.state.put_self (p'.data i).row
      rwa [show (p'.data i).row.messageId = messageId by rw [hdata]; exact hid] at hself
    · refine h.read hdata hstep hmoves' ?_ hthrough (fun r => inserting_open hunwritten) (fun heq => absurd heq hid)
      exact p'.state.put_of_ne fun heq => hid (by rw [heq, hdata]; rfl)
  | @second i hunwritten hsome =>
    by_cases hid : (p.data i).binding.messageId = messageId
    · rw [hdata] at hunwritten hsome
      exact absurd (hfirst i rfl hid hunwritten) (hid ▸ hsome)
    · exact h.read hdata hstep hmoves' rfl hthrough (fun r => inserting_open hunwritten) (fun heq => absurd heq hid)

theorem run_raced (hp : Begins decoder p) (hfree : p.state.rows messageId = none) (h : Run (RaceStep decoder) p events p')
    (hclear : Clear decoder p events p' messageId) : Raced decoder p events p' messageId := by
  induction h with
  | nil =>
    refine .unclaimed hfree fun i _ r => ?_
    exact program_open (hp.program i)
  | @snoc ls t l u hrun hstep ih =>
    obtain ⟨hdata, hstage⟩ := run_stage hp hrun
    have hmoves := hstep.moves fun i => ⟨_, hstage i⟩
    refine (ih (hclear.init hstep)).step hdata hrun hstep hmoves ?_
    rintro i rfl hid hinserting
    exact hclear ls i [] t u rfl hrun hstep .nil hid hinserting

/-- A call that comes to its insertion when there is a row raises what SQLite does. -/
theorem second_raises (hp : Begins decoder p) {before after : List (PoolEvent ι ClaimCall)} {q t : Race ι}
    (hbefore : Run (RaceStep decoder) p before q) (hcall : RaceStep decoder q (.call i) t)
    (hafter : Run (RaceStep decoder) t after p') (hinserting : q.program i = (p.data i).inserting)
    (hsome : q.state.rows (p.data i).binding.messageId ≠ none) : p'.program i = .done (.error integrityError) := by
  obtain ⟨hdata, hstage⟩ := run_stage hp hbefore
  refine ended_stays hafter ?_
  have hmoves := hcall.moves fun j => ⟨_, hstage j⟩
  cases hmoves with
  | read hunread =>
    have hone := (hstage i).eq_one (hdata ▸ hinserting)
    rw [(hstage i).eq_zero hunread] at hone
    cases hone
  | inserted _ hnone =>
    rw [hdata] at hnone
    exact absurd hnone hsome
  | second _ _ => exact Function.update_self ..

/-- **In every run of a race for a message that has no row, the calls for it end as `claim` has
it exactly when none of them comes to its insertion when there is a row; and a call that has
not ended can make its next statement, of two at most.** -/
theorem claim_race (hp : Begins decoder p) (hfree : p.state.rows messageId = none) (h : Run (RaceStep decoder) p events p') :
    (Resolved decoder p events p' messageId ↔ Clear decoder p events p' messageId) ∧
    (∀ i, (∃ r, p'.program i = .done r) ∨ ∃ p'', RaceStep decoder p' (.call i) p'') ∧
    ∀ i, events.countP (madeBy i) ≤ 2 := by
  obtain ⟨-, hstage⟩ := run_stage hp h
  refine ⟨⟨?_, fun hclear => (run_raced hp hfree h hclear).resolved⟩, fun i => (hstage i).enabled, fun i => (hstage i).le_two⟩
  intro hresolved before i after q t _ hbefore hcall hafter hid hinserting
  by_contra hsome
  have hraised := second_raises hp hbefore hcall hafter hinserting (hid ▸ hsome)
  obtain ⟨row, -, houtcome⟩ := hresolved.outcome i _ hid hraised
  cases houtcome

/-! ### Two calls -/

def canaryClaim : ClaimCall where
  binding := ⟨lit "m-1", canaryEnvelope.nonce, canaryEnvelope.bodySha256⟩
  updatedAt := lit "2026-09-22T12:00:00+00:00"
  bound := by decide +kernel

/-- Another call for the message, with another nonce. -/
def rivalClaim : ClaimCall where
  binding := ⟨lit "m-1", lit "fedcba9876543210fedcba9876543210", canaryEnvelope.bodySha256⟩
  updatedAt := lit "2026-09-22T12:00:01+00:00"
  bound := by decide +kernel

/-- A call and its rival, on an empty table. -/
def rivals : Race Bool where
  state := canaryWorld
  data := fun first => if first then canaryClaim else rivalClaim
  program := fun first => (if first then canaryClaim else rivalClaim).program canaryDecoder

/-- Two calls with one binding, on an empty table. -/
def twins : Race Bool := ⟨canaryWorld, fun _ => canaryClaim, fun _ => canaryClaim.program canaryDecoder⟩

/-- The rival reads when the row has been created, and is refused. -/
theorem rivals_run : ∃ p', Run (RaceStep canaryDecoder) rivals [.call true, .call true, .call false] p' ∧
    p'.program true = .done createdResult ∧ p'.program false = .done conflictResult := by
  have hread : Moves canaryDecoder rivals (.call true) _ := .read rfl
  have hrun := (Run.single hread.raceStep).snoc (Moves.inserted (i := true) rfl rfl).raceStep
  have hrefused : claimFound canaryDecoder rivalClaim.binding canaryClaim.row = .done conflictResult :=
    claimFound_conflict rfl (by decide)
  exact ⟨_, hrun.snoc (Moves.read (i := false) rfl).raceStep, rfl, hrefused⟩

/-- The one that comes to its insertion does so when nobody has inserted. -/
theorem rivals_clear {p' : Race Bool} : Clear canaryDecoder rivals [.call true, .call true, .call false] p' (lit "m-1") := by
  intro before i after q t hevents hbefore _ _ _ hinserting
  have hbegins : Begins canaryDecoder rivals := ⟨fun _ => rfl⟩
  obtain ⟨hdata, hstage⟩ := run_stage hbegins hbefore
  have hcount := (hstage i).eq_one (hdata ▸ hinserting)
  rcases before with _ | ⟨first, before⟩
  · cases hcount
  obtain ⟨rfl, hrest⟩ := List.cons.inj hevents
  rcases before with _ | ⟨second, before⟩
  · obtain ⟨u, hstep, hnil⟩ := hbefore.uncons
    obtain rfl := hnil.eq_of_nil
    cases hstep.moves fun j => ⟨0, .unread rfl⟩ with
    | read _ => rfl
    | inserted hunwritten | second hunwritten =>
      rw [inserting_eq] at hunwritten
      cases hunwritten
  obtain ⟨rfl, hlast⟩ := List.cons.inj hrest
  rcases before with _ | ⟨third, before⟩
  · obtain ⟨heq, -⟩ := List.cons.inj hlast
    cases heq
    cases hcount
  · obtain ⟨-, hnone⟩ := List.cons.inj hlast
    simp at hnone

/-- The first call creates the row, its rival is refused, and they have ended as `claim` has it. -/
theorem claim_race_rivals : ∃ p', Run (RaceStep canaryDecoder) rivals [.call true, .call true, .call false] p' ∧
    p'.program true = .done createdResult ∧ p'.program false = .done conflictResult ∧
    Resolved canaryDecoder rivals [.call true, .call true, .call false] p' (lit "m-1") := by
  obtain ⟨p', hrun, hcreated, hrefused⟩ := rivals_run
  exact ⟨p', hrun, hcreated, hrefused, (claim_race ⟨fun _ => rfl⟩ rfl hrun).1.mpr rivals_clear⟩

/-- **Both twins read before either inserts, and the second raises what SQLite does.** -/
theorem twins_raise : Begins canaryDecoder twins ∧ twins.state.rows (lit "m-1") = none ∧
    ∃ p', Run (RaceStep canaryDecoder) twins [.call true, .call false, .call true, .call false] p' ∧
      p'.program false = .done (.error integrityError) ∧
      ¬ Resolved canaryDecoder twins [.call true, .call false, .call true, .call false] p' (lit "m-1") := by
  refine ⟨⟨fun _ => rfl⟩, rfl, ?_⟩
  have hfirst : Moves canaryDecoder twins (.call true) _ := .read rfl
  have hrun := ((Run.single hfirst.raceStep).snoc (Moves.read (i := false) rfl).raceStep).snoc (Moves.inserted (i := true) rfl rfl).raceStep
  refine ⟨_, hrun.snoc (Moves.second (i := false) rfl ?_).raceStep, rfl, fun hresolved => ?_⟩
  · nofun
  · obtain ⟨row, -, houtcome⟩ := hresolved.outcome false _ rfl rfl
    cases houtcome

end CcbCore.Relay
