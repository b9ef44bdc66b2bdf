import CcbCore.Library.Typestate
import CcbCore.Relay.Run

/-!
# Custody of a row

A run inserts a row and from then on owns it: no other run changes it, it submits its
message at most once, and its last change of it is a terminal state with a receipt. The
phases say how far it is (`Phase`), the protocol what it may call (`custody`), and `World`
is as the phases know whatever the runs do (`custody_lawful`). So a message is submitted
at most once (`submit_at_most_once`).
-/

namespace CcbCore.Relay

open CcbCore.CodePoints CcbCore.Postgres CcbCore.Radar

/-- No transition leaves the state. -/
def RelayState.terminal : RelayState → Bool
  | .created | .busBound | .targetDiscovered | .targetVerifiedPrewrite | .composerPopulated
  | .targetReverifiedPresubmit | .submitted | .renderedReadbackVerified | .ackPending => false
  | _ => true

/-- How far a run is with its row. -/
inductive Phase where
  | idle
  /-- It has inserted the row, and submitted the message or not. -/
  | opened (binding : Binding) (submitted : Bool)
  /-- The row has a receipt. -/
  | stored (binding : Binding) (json : Str)
  | ended

/-- The text is that of a receipt with a terminal state, and with one time for each state. -/
structure Recorded (py : Interpreter Empty) (receipt : RelayReceipt) (json : Str) : Prop where
  encoded : receipt.encode py = .ok json
  times : (receipt.transitionTimes.map (·.1)).Nodup
  final : ∃ state : RelayState, state.terminal = true ∧ receipt.finalState = state.text

variable (py : Interpreter Empty)

/-- The calls that a run may make. -/
def Allows (phase : Phase) : Op → Prop
  | .insert row => phase = .idle ∧ row.state = lit "CREATED" ∧ row.receiptJson = none
  | .updateState binding state _ =>
    (∃ submitted, phase = .opened binding submitted) ∧ ∃ relayState : RelayState, relayState.terminal = false ∧ state = relayState.text
  | .updateReceipt binding state json _ =>
    (∃ submitted, phase = .opened binding submitted) ∧ ∃ receipt, Recorded py receipt json ∧ state = receipt.finalState
  | .submit messageId _ _ => ∃ binding, phase = .opened binding false ∧ messageId = binding.messageId
  | _ => True

/-- The phase after a call. -/
def Phase.after (phase : Phase) (op : Op) (reply : Except Exc op.Reply) : Phase :=
  match phase, op, reply with
  | .idle, .insert row, .ok _ => .opened row.binding false
  | .idle, .select _, .ok (some row) =>
    match row.receiptJson with
    | some json => .stored row.binding json
    | none => .idle
  | .opened binding _, .submit .., _ => .opened binding true
  | .opened binding _, .updateReceipt _ _ json _, .ok (count : ℕ) => if count = 1 then .stored binding json else .ended
  | .opened _ _, .updateReceipt .., .error _ => .ended
  | phase, _, _ => phase

/-- A row that was selected is of the message. -/
def Replied (op : Op) (reply : Except Exc op.Reply) : Prop :=
  match op, reply with
  | .select messageId, .ok (some row) => row.messageId = messageId
  | _, _ => True

def custody : Protocol Calls Exc Phase := ⟨Allows py, fun _ => Replied, Phase.after⟩

/-! ### The store -/

/-- A row carries a receipt if its state is terminal, and it is the receipt's then. -/
def RowSound (row : Operation) : Prop :=
  (row.receiptJson = none ∧ ∃ state : RelayState, state.terminal = false ∧ row.state = state.text) ∨
  ∃ receipt json, row.receiptJson = some json ∧ Recorded py receipt json ∧ row.state = receipt.finalState

/-- What always holds of the store and of what was submitted. -/
structure World.Sound (w : World) : Prop where
  key : ∀ messageId row, w.rows messageId = some row → row.messageId = messageId
  row : ∀ messageId row, w.rows messageId = some row → RowSound py row
  once : w.submits.Nodup
  claimed : ∀ messageId ∈ w.submits, w.rows messageId ≠ none

/-- What a run knows. -/
def Phase.Knows : Phase → World → Prop
  | .opened binding submitted, w =>
    (∃ row, w.rows binding.messageId = some row ∧ row.binding = binding ∧ row.receiptJson = none) ∧
      (submitted = false → binding.messageId ∉ w.submits)
  | .stored binding json, w =>
    ∃ row, w.rows binding.messageId = some row ∧ row.binding = binding ∧ row.receiptJson = some json
  | _, _ => True

/-- The message of a run that has not ended. -/
def Phase.owner : Phase → Option Str
  | .opened binding _ => some binding.messageId
  | _ => none

/-- A row with a receipt stays as it is. -/
def World.Keeps (w w' : World) : Prop :=
  ∀ messageId row, w.rows messageId = some row → row.receiptJson ≠ none → w'.rows messageId = some row

def ownership : Ownership World Phase Str where
  owner := Phase.owner
  knows := Phase.Knows
  held w messageId := w.rows messageId ≠ none
  always := World.Sound py
  keeps := World.Keeps

variable {py} {faults : Faults} {w w' : World}

theorem World.update_eq (w : World) (binding : Binding) (change : Operation → Operation) :
    (w.bound binding = none ∧ w.update binding change = (0, w)) ∨
    ∃ row, w.rows binding.messageId = some row ∧ row.binding = binding ∧ w.update binding change = (1, w.put (change row)) := by
  unfold World.update
  cases hbound : w.bound binding with
  | none => exact .inl ⟨rfl, rfl⟩
  | some row =>
    obtain ⟨hrow, hbinding⟩ := Option.filter_eq_some_iff.mp hbound
    exact .inr ⟨row, hrow, of_decide_eq_true hbinding, rfl⟩

/-- What a call does to the table and to what was submitted. -/
inductive Effect (w : World) : Op → World → Prop where
  /-- Nothing. -/
  | same {op : Op} {w' : World} : w'.rows = w.rows → w'.submits = w.submits → Effect w op w'
  | insert {row : Operation} {w' : World} : w.rows row.messageId = none → w' = w.put row → Effect w (.insert row) w'
  | updateState {binding : Binding} {state updatedAt : Str} {row : Operation} {w' : World} :
      w.rows binding.messageId = some row → row.binding = binding → w' = w.put { row with state, updatedAt } →
      Effect w (.updateState binding state updatedAt) w'
  | updateReceipt {binding : Binding} {state json updatedAt : Str} {row : Operation} {w' : World} :
      w.rows binding.messageId = some row → row.binding = binding →
      w' = w.put { row with state, receiptJson := some json, updatedAt } →
      Effect w (.updateReceipt binding state json updatedAt) w'
  | submit {messageId : Str} {handle : ℤ} {token : Option Str} {w' : World} :
      w'.rows = w.rows → w'.submits = messageId :: w.submits → Effect w (.submit messageId handle token) w'

theorem workstation_effect {op : Op} {reply : Except Exc op.Reply} (h : Workstation faults op w reply w') :
    Effect w op w' := by
  cases op with
  | select messageId =>
    cases reply with
    | ok row =>
      obtain ⟨-, rfl⟩ := Prod.mk.inj h
      exact .same rfl rfl
    | error e => exact .same (by obtain ⟨-, rfl | rfl⟩ := h <;> rfl) (by obtain ⟨-, rfl | rfl⟩ := h <;> rfl)
  | insert row =>
    simp only [Workstation] at h
    split at h
    · next hfree =>
      cases reply with
      | ok _ =>
        obtain ⟨-, rfl⟩ := Prod.mk.inj h
        exact .insert hfree rfl
      | error e =>
        obtain ⟨-, rfl | rfl⟩ := h
        · exact .same rfl rfl
        · exact .insert hfree rfl
    · obtain ⟨rfl, -⟩ := h
      exact .same rfl rfl
  | updateState binding state updatedAt =>
    have hmade : w' = w ∨ w' = (w.update binding fun row => { row with state, updatedAt }).2 := by
      cases reply with
      | ok count => exact .inr (congrArg Prod.snd h)
      | error e => exact h.2
    rcases hmade with rfl | rfl
    · exact .same rfl rfl
    · rcases w.update_eq binding (fun row => { row with state, updatedAt }) with ⟨-, heq⟩ | ⟨row, hrow, hbinding, heq⟩
      · rw [heq]
        exact .same rfl rfl
      · rw [heq]
        exact .updateState hrow hbinding rfl
  | updateReceipt binding state json updatedAt =>
    have hmade : w' = w ∨ w' = (w.update binding fun row => { row with state, receiptJson := some json, updatedAt }).2 := by
      cases reply with
      | ok count => exact .inr (congrArg Prod.snd h)
      | error e => exact h.2
    rcases hmade with rfl | rfl
    · exact .same rfl rfl
    · rcases w.update_eq binding (fun row => { row with state, receiptJson := some json, updatedAt }) with
        ⟨-, heq⟩ | ⟨row, hrow, hbinding, heq⟩
      · rw [heq]
        exact .same rfl rfl
      · rw [heq]
        exact .updateReceipt hrow hbinding rfl
  | submit messageId handle token =>
    obtain rfl : w' = { w with submits := messageId :: w.submits } := by cases reply <;> exact h
    exact .submit rfl rfl
  | monotonic =>
    cases reply with
    | ok time =>
      obtain ⟨rfl, -⟩ := h
      exact .same rfl rfl
    | error e => exact h.elim
  | sleep seconds =>
    cases reply with
    | ok _ =>
      obtain ⟨duration, time, -, -, rfl, -⟩ := h
      exact .same rfl rfl
    | error e =>
      obtain ⟨-, rfl⟩ := h
      exact .same rfl rfl
  | nowIso =>
    cases reply with
    | ok text =>
      obtain ⟨rfl, -⟩ := h
      exact .same rfl rfl
    | error e => exact h.elim
  | verify _ | discover _ | activate _ _ | snapshot _ _ | populate _ _ _ | readRendered _ _ _ | waitForAck _ _ _ _ =>
    obtain rfl : w' = w := by cases reply <;> exact h
    exact .same rfl rfl

/-! ### What a call keeps -/

variable {phase other : Phase} {op : Op} {reply : Except Exc op.Reply}

theorem World.put_self (w : World) (row : Operation) : (w.put row).rows row.messageId = some row := Function.update_self ..

theorem World.put_of_ne (w : World) {row : Operation} {messageId : Str} (h : messageId ≠ row.messageId) :
    (w.put row).rows messageId = w.rows messageId := Function.update_of_ne h ..

theorem World.Sound.put (hw : w.Sound py) {row : Operation} (hrow : RowSound py row) : (w.put row).Sound py := by
  refine ⟨fun messageId old h => ?_, fun messageId old h => ?_, hw.once, fun messageId h => ?_⟩
  · by_cases hid : messageId = row.messageId
    · subst hid
      rw [w.put_self] at h
      cases h
      rfl
    · rw [w.put_of_ne hid] at h
      exact hw.key messageId old h
  · by_cases hid : messageId = row.messageId
    · subst hid
      rw [w.put_self] at h
      cases h
      exact hrow
    · rw [w.put_of_ne hid] at h
      exact hw.row messageId old h
  · by_cases hid : messageId = row.messageId
    · subst hid
      rw [w.put_self]
      nofun
    · rw [w.put_of_ne hid]
      exact hw.claimed messageId h

theorem World.Keeps.put {row : Operation} (h : ∀ old, w.rows row.messageId = some old → old.receiptJson = none) :
    w.Keeps (w.put row) := by
  intro messageId old hold hreceipt
  by_cases hid : messageId = row.messageId
  · subst hid
    exact absurd (h old hold) hreceipt
  · rwa [w.put_of_ne hid]

/-- The row of a run that has not ended has no receipt. -/
theorem Phase.Knows.open_row {binding : Binding} {submitted : Bool} (h : (Phase.opened binding submitted).Knows w)
    {row : Operation} (hrow : w.rows binding.messageId = some row) : row.receiptJson = none := by
  obtain ⟨⟨row', hrow', -, hreceipt⟩, -⟩ := h
  rw [hrow] at hrow'
  exact Option.some.inj hrow' ▸ hreceipt

theorem Effect.sound (hw : w.Sound py) (hknows : phase.Knows w) (hallowed : Allows py phase op) (h : Effect w op w') :
    w'.Sound py ∧ w.Keeps w' := by
  cases h with
  | same hrows hsubmits =>
    refine ⟨⟨hrows ▸ hw.key, hrows ▸ hw.row, hsubmits ▸ hw.once, hrows ▸ hsubmits ▸ hw.claimed⟩, ?_⟩
    exact fun messageId row hrow _ => hrows ▸ hrow
  | @insert row _ hfree heq =>
    subst heq
    obtain ⟨-, hstate, hreceipt⟩ := hallowed
    refine ⟨hw.put (.inl ⟨hreceipt, .created, rfl, hstate⟩), World.Keeps.put fun old hold => ?_⟩
    rw [hfree] at hold
    cases hold
  | @updateState binding state updatedAt row _ hrow hbinding heq =>
    subst heq
    obtain ⟨⟨submitted, rfl⟩, relayState, hopen, rfl⟩ := hallowed
    have hreceipt := hknows.open_row hrow
    refine ⟨hw.put (.inl ⟨hreceipt, relayState, hopen, rfl⟩), World.Keeps.put fun old hold => ?_⟩
    exact hknows.open_row (hbinding ▸ hold)
  | @updateReceipt binding state json updatedAt row _ hrow hbinding heq =>
    subst heq
    obtain ⟨⟨submitted, rfl⟩, receipt, hrecorded, rfl⟩ := hallowed
    refine ⟨hw.put (.inr ⟨receipt, json, rfl, hrecorded, rfl⟩), World.Keeps.put fun old hold => ?_⟩
    exact hknows.open_row (hbinding ▸ hold)
  | @submit messageId handle token _ hrows hsubmits =>
    obtain ⟨binding, rfl, rfl⟩ := hallowed
    obtain ⟨⟨row, hrow, -, -⟩, hnew⟩ := hknows
    refine ⟨⟨hrows ▸ hw.key, hrows ▸ hw.row, hsubmits ▸ List.nodup_cons.mpr ⟨hnew rfl, hw.once⟩, ?_⟩, ?_⟩
    · rw [hrows, hsubmits]
      intro messageId hmem
      rcases List.mem_cons.mp hmem with rfl | hmem
      · rw [hrow]
        nofun
      · exact hw.claimed messageId hmem
    · exact fun messageId row hrow _ => hrows ▸ hrow

theorem Phase.Knows.congr (h : phase.Knows w) (hrows : w'.rows = w.rows) (hsubmits : w'.submits = w.submits) :
    phase.Knows w' := by
  cases phase with
  | opened binding submitted => exact ⟨hrows ▸ h.1, hsubmits ▸ h.2⟩
  | stored binding json =>
    obtain ⟨row, hrow, hbinding, hjson⟩ := h
    exact ⟨row, hrows ▸ hrow, hbinding, hjson⟩
  | idle | ended => trivial

/-- What another run knows stays so. -/
theorem Effect.frame (hw : w.Sound py) (hknows : phase.Knows w) (hallowed : Allows py phase op) (h : Effect w op w')
    (hother : other.Knows w) (halone : ∀ k, other.owner = some k → phase.owner ≠ some k) : other.Knows w' := by
  have hkeeps := (h.sound hw hknows hallowed).2
  cases other with
  | idle | ended => trivial
  | stored binding json =>
    obtain ⟨row, hrow, hbinding, hjson⟩ := hother
    exact ⟨row, hkeeps _ row hrow (by rw [hjson]; nofun), hbinding, hjson⟩
  | opened binding submitted =>
    obtain ⟨⟨row, hrow, hbinding, hreceipt⟩, hnew⟩ := hother
    have hput {row' : Operation} (hne : binding.messageId ≠ row'.messageId) : (Phase.opened binding submitted).Knows (w.put row') :=
      ⟨⟨row, by rwa [w.put_of_ne hne], hbinding, hreceipt⟩, hnew⟩
    have hne {binding' : Binding} (hphase : phase.owner = some binding'.messageId) : binding.messageId ≠ binding'.messageId :=
      fun heq => halone _ rfl (heq ▸ hphase)
    cases h with
    | same hrows hsubmits => exact Phase.Knows.congr ⟨⟨row, hrow, hbinding, hreceipt⟩, hnew⟩ hrows hsubmits
    | insert hfree heq =>
      subst heq
      refine hput fun hid => ?_
      rw [← hid, hrow] at hfree
      cases hfree
    | updateState _ hbinding' heq =>
      subst heq
      obtain ⟨⟨submitted', rfl⟩, -⟩ := hallowed
      subst hbinding'
      exact hput (hne rfl)
    | updateReceipt _ hbinding' heq =>
      subst heq
      obtain ⟨⟨submitted', rfl⟩, -⟩ := hallowed
      subst hbinding'
      exact hput (hne rfl)
    | submit hrows hsubmits =>
      obtain ⟨binding', rfl, rfl⟩ := hallowed
      refine ⟨⟨row, hrows ▸ hrow, hbinding, hreceipt⟩, fun hsubmitted => ?_⟩
      rw [hsubmits, List.mem_cons]
      rintro (heq | hmem)
      · exact hne rfl heq
      · exact hnew hsubmitted hmem

/-- A call leaves a run with what its new phase knows, and gives it only a row that is new. -/
theorem after_knows (hw : w.Sound py) (hknows : phase.Knows w) (hallowed : Allows py phase op)
    (h : Workstation faults op w reply w') :
    (phase.after op reply).Knows w' ∧
      ∀ k, (phase.after op reply).owner = some k → phase.owner = some k ∨ ¬ (w.rows k ≠ none) := by
  have heffect := workstation_effect h
  have hsame (hafter : phase.after op reply = phase) (hrows : w'.rows = w.rows) (hsubmits : w'.submits = w.submits) :
      (phase.after op reply).Knows w' ∧
        ∀ k, (phase.after op reply).owner = some k → phase.owner = some k ∨ ¬ (w.rows k ≠ none) := by
    rw [hafter]
    exact ⟨hknows.congr hrows hsubmits, fun k hk => .inl hk⟩
  cases op with
  | insert row =>
    obtain ⟨rfl, -, hreceipt⟩ := hallowed
    cases reply with
    | error e => exact ⟨trivial, nofun⟩
    | ok _ =>
      simp only [Workstation] at h
      split at h
      · next hfree =>
        obtain ⟨-, rfl⟩ := Prod.mk.inj h
        refine ⟨⟨⟨row, w.put_self row, rfl, hreceipt⟩, fun _ hmem => hw.claimed _ hmem hfree⟩, fun k hk => .inr ?_⟩
        obtain rfl : row.messageId = k := Option.some.inj hk
        rw [not_not]
        exact hfree
      · exact nomatch h.2
  | select messageId =>
    cases heffect with
    | same hrows hsubmits =>
      cases phase with
      | idle =>
        cases reply with
        | error e => exact ⟨trivial, nofun⟩
        | ok found =>
          obtain ⟨hfound, rfl⟩ := Prod.mk.inj h
          cases found with
          | none => exact ⟨trivial, nofun⟩
          | some row =>
            cases hjson : row.receiptJson with
            | none => simp [Phase.after, hjson, Phase.Knows, Phase.owner]
            | some json =>
              have hkey : row.binding.messageId = messageId := hw.key messageId row hfound.symm
              simp only [Phase.after, hjson]
              exact ⟨⟨row, hkey ▸ hfound.symm, rfl, hjson⟩, nofun⟩
      | opened binding submitted => exact hsame rfl hrows hsubmits
      | stored binding json => exact hsame rfl hrows hsubmits
      | ended => exact hsame rfl hrows hsubmits
  | updateState binding state updatedAt =>
    obtain ⟨⟨submitted, rfl⟩, -⟩ := hallowed
    refine ⟨?_, fun k hk => .inl hk⟩
    cases heffect with
    | same hrows hsubmits => exact hknows.congr hrows hsubmits
    | updateState hrow hbinding heq =>
      subst heq hbinding
      have hreceipt := hknows.open_row hrow
      exact ⟨⟨_, w.put_self _, rfl, hreceipt⟩, hknows.2⟩
  | updateReceipt binding state json updatedAt =>
    obtain ⟨⟨submitted, rfl⟩, -⟩ := hallowed
    cases reply with
    | error e => exact ⟨trivial, nofun⟩
    | ok count =>
      rcases w.update_eq binding (fun row => { row with state, receiptJson := some json, updatedAt }) with
        ⟨-, heq⟩ | ⟨row, hrow, rfl, heq⟩
      · obtain ⟨rfl, rfl⟩ := Prod.mk.inj (h.trans heq)
        exact ⟨trivial, nofun⟩
      · obtain ⟨rfl, rfl⟩ := Prod.mk.inj (h.trans heq)
        exact ⟨⟨_, w.put_self _, rfl, rfl⟩, nofun⟩
  | submit messageId handle token =>
    obtain ⟨binding, rfl, rfl⟩ := hallowed
    refine ⟨?_, fun k hk => .inl hk⟩
    cases heffect with
    | same hrows hsubmits => exact ⟨hrows ▸ hknows.1, nofun⟩
    | submit hrows hsubmits => exact ⟨hrows ▸ hknows.1, nofun⟩
  | _ =>
    cases heffect with
    | same hrows hsubmits => exact hsame (by cases phase <;> rfl) hrows hsubmits

theorem replied_of_workstation (hw : w.Sound py) (h : Workstation faults op w reply w') : Replied op reply := by
  cases op with
  | select messageId =>
    cases reply with
    | error e => trivial
    | ok found =>
      cases found with
      | none => trivial
      | some row =>
        obtain ⟨hfound, -⟩ := Prod.mk.inj h
        exact hw.key messageId row hfound.symm
  | _ => trivial

theorem custody_lawful (py : Interpreter Empty) (faults : Faults) :
    Lawful (Workstation faults) (custody py) (ownership py) where
  refl _ := fun _ _ hrow _ => hrow
  trans _ _ _ hst htu := fun messageId row hrow hreceipt => htu messageId row (hst messageId row hrow hreceipt) hreceipt
  held {phase s k} hknows howner := by
    cases phase with
    | opened binding submitted =>
      obtain ⟨⟨row, hrow, -, -⟩, -⟩ := hknows
      obtain rfl : binding.messageId = k := Option.some.inj howner
      change s.rows binding.messageId ≠ none
      rw [hrow]
      nofun
    | idle | stored _ _ | ended => cases howner
  step halways hknows hallowed hcall := by
    obtain ⟨hsound, hkeeps⟩ := (workstation_effect hcall).sound halways hknows hallowed
    obtain ⟨hknows', howner⟩ := after_knows halways hknows hallowed hcall
    exact ⟨replied_of_workstation halways hcall, hsound, hkeeps, hknows', howner⟩
  frame halways hknows hallowed hcall hother halone :=
    (workstation_effect hcall).frame halways hknows hallowed hother halone

end CcbCore.Relay
