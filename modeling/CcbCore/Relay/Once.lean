import CcbCore.Relay.Custody

/-!
# A message is submitted once

`run` keeps to the custody of its row (`obeys_run`): it inserts the row before it calls
the target, and each of its exits is behind the submission or instead of it. So, however
runs interleave and wherever they end, no message is submitted twice
(`submit_at_most_once`).
-/

namespace CcbCore.Relay

open CcbCore.CodePoints CcbCore.Postgres CcbCore.Radar CcbCore.Raising
open CcbCore.Python (Bytes)

variable {py : Interpreter Empty} {args : Arguments} {decoder : Decoder Empty} {a : Attempt} {selected : TargetSnapshot}

/-! ### Calls -/

section Calls

variable {φ : Type} {protocol : Protocol Calls Exc φ} {phase : φ} {op : Op}

theorem obeys_tryAsk {Q : φ → Except Exc (Option op.Reply) → Prop} (hallowed : protocol.allows phase op)
    (h : ∀ reply, protocol.replies phase op reply → Q (protocol.after phase op reply) (.ok reply.toOption)) :
    Obeys protocol phase (tryAsk op) Q := ⟨hallowed, h⟩

theorem obeys_execute {bound : List Str} {Q : φ → Except Exc op.Reply → Prop} (hallowed : protocol.allows phase op)
    (hraise : bound.all encodable = false → Q phase (.error (.raised .unicodeEncodeError)))
    (h : ∀ reply, protocol.replies phase op reply → Q (protocol.after phase op reply) reply) :
    Obeys protocol phase (execute bound op) Q := by
  refine Obeys.bind (R := fun phase' r => phase' = phase ∧ ∀ e, r = .error e → Q phase (.error e))
    (Obeys.refuseIf (fun hbound => ⟨rfl, fun e he => ?_⟩) fun _ => ⟨rfl, nofun⟩) ?_ ?_
  · cases he
    exact hraise hbound
  · rintro _ _ ⟨rfl, -⟩
    exact ⟨hallowed, h⟩
  · rintro _ e ⟨rfl, he⟩
    exact he e rfl

end Calls

/-! ### Times -/

theorem setField_keys {α : Type} (fields : List (Str × α)) (key : Str) (value : α) :
    (setField fields key value).map (·.1) = if fields.any (·.1 = key) then fields.map (·.1) else fields.map (·.1) ++ [key] := by
  unfold setField
  split
  · rw [List.map_map]
    refine List.map_congr_left fun field _ => ?_
    simp only [Function.comp_apply]
    split
    · next heq => exact heq.symm
    · rfl
  · simp

theorem setField_nodup {α : Type} {fields : List (Str × α)} (h : (fields.map (·.1)).Nodup) (key : Str) (value : α) :
    ((setField fields key value).map (·.1)).Nodup := by
  rw [setField_keys]
  split
  · exact h
  · next hnone =>
    refine List.Nodup.append h (List.nodup_singleton key) ?_
    simpa [List.disjoint_singleton] using hnone

/-- One time for each state. -/
def Attempt.Timed (a : Attempt) : Prop := (a.times.map (·.1)).Nodup

theorem Attempt.Timed.reached (h : a.Timed) (state : RelayState) (time : Str) : (a.reached state time).Timed :=
  setField_nodup h state.text time

/-! ### The run -/

/-- What a run leaves that returns a receipt: the text of the receipt is in the row. -/
def Post (py : Interpreter Empty) (decoder : Decoder Empty) (args : Arguments) (phase : Phase)
    (result : Except Exc RelayReceipt) : Prop :=
  ∀ receipt, result = .ok receipt → ∃ binding json, phase = .stored binding json ∧
    bindingOf py args.envelope = .ok binding ∧ (Recorded py receipt json ∨ RelayReceipt.decode decoder json = .ok receipt)

theorem post_error (phase : Phase) (e : Exc) : Post py decoder args phase (.error e) := by
  rintro receipt ⟨⟩

variable {binding : Binding} {submitted : Bool}

/-- A part of the way, on which the row stays open. -/
def Stays (binding : Binding) (submitted : Bool) {α : Type} (R : α → Prop) (phase : Phase) (result : Except Exc α) : Prop :=
  phase = .opened binding submitted ∧ ∀ value, result = .ok value → R value

theorem obeys_lift {α : Type} {result : Except Exc α} :
    Obeys (custody py) (.opened binding submitted) (Prog.lift result)
      (Stays binding submitted fun value => result = .ok value) :=
  ⟨rfl, fun _ h => h⟩

theorem obeys_ask {op : Op} (hallowed : Allows py (.opened binding submitted) op)
    (hafter : ∀ reply, (Phase.opened binding submitted).after op reply = .opened binding submitted) :
    Obeys (custody py) (.opened binding submitted) (Prog.ask (I := Calls) op)
      (Stays binding submitted fun _ => True) :=
  ⟨hallowed, fun reply _ => ⟨hafter reply, fun _ _ => trivial⟩⟩

/-- Going on after a part on which the row stays open. -/
theorem Obeys.stays_bind {α β : Type} {p : Program α} {f : α → Program β} {R : α → Prop} {Q : Phase → Except Exc β → Prop}
    (hp : Obeys (custody py) (.opened binding submitted) p (Stays binding submitted R))
    (he : ∀ e, Q (.opened binding submitted) (.error e))
    (hf : ∀ value, R value → Obeys (custody py) (.opened binding submitted) (f value) Q) :
    Obeys (custody py) (.opened binding submitted) (p >>= f) Q := by
  refine Obeys.bind hp ?_ ?_
  · rintro _ value ⟨rfl, hvalue⟩
    exact hf value (hvalue value rfl)
  · rintro _ e ⟨rfl, -⟩
    exact he e

theorem stays_error {α : Type} {R : α → Prop} (e : Exc) :
    Stays binding submitted R (.opened binding submitted) (.error e) := ⟨rfl, nofun⟩

theorem obeys_advance (hb : bindingOf py args.envelope = .ok binding) {state : RelayState} (hstate : state.terminal = false)
    (ha : a.Timed) :
    Obeys (custody py) (.opened binding submitted) (advance py args state a) (Stays binding submitted Attempt.Timed) := by
  refine Obeys.stays_bind obeys_lift stays_error fun binding' hb' => ?_
  obtain rfl : binding = binding' := Except.ok.inj (hb.symm.trans hb')
  refine Obeys.stays_bind (obeys_ask trivial fun _ => rfl) stays_error fun updatedAt _ => ?_
  refine Obeys.stays_bind (R := fun _ => True) ?_ stays_error fun _ _ => ?_
  · refine Obeys.stays_bind (R := fun _ => True) (obeys_execute ?_ (fun _ => stays_error _) fun reply _ => ?_) stays_error fun count _ => ?_
    · exact ⟨⟨submitted, rfl⟩, state, hstate, rfl⟩
    · exact ⟨rfl, fun _ _ => trivial⟩
    · exact Obeys.refuseIf (fun _ => stays_error _) fun _ => ⟨rfl, fun _ _ => trivial⟩
  · exact Obeys.stays_bind (obeys_ask trivial fun _ => rfl) stays_error fun time _ =>
      Obeys.pure ⟨rfl, by rintro _ ⟨⟩; exact ha.reached state time⟩

theorem obeys_close (state : RelayState) (ha : a.Timed) :
    Obeys (custody py) (.opened binding submitted) (close state a) (Stays binding submitted Attempt.Timed) := by
  unfold close
  split
  · exact Obeys.pure ⟨rfl, by rintro _ ⟨⟩; exact ha⟩
  · exact Obeys.stays_bind (obeys_ask trivial fun _ => rfl) stays_error fun time _ =>
      Obeys.pure ⟨rfl, by rintro _ ⟨⟩; exact ha.reached state time⟩

theorem obeys_finish (hb : bindingOf py args.envelope = .ok binding) {state : RelayState} (hstate : state.terminal = true)
    (ha : a.Timed) :
    Obeys (custody py) (.opened binding submitted) (finish py args state a) (Post py decoder args) := by
  refine Obeys.stays_bind (obeys_close state ha) (post_error _) fun a ha => ?_
  refine Obeys.stays_bind obeys_lift (post_error _) fun binding' hb' => ?_
  obtain rfl : binding = binding' := Except.ok.inj (hb.symm.trans hb')
  refine Obeys.stays_bind (obeys_ask trivial fun _ => rfl) (post_error _) fun updatedAt _ => ?_
  have hfinal : ∃ state' : RelayState, state'.terminal = true ∧ (a.receipt args.envelope state).finalState = state'.text :=
    ⟨state, hstate, rfl⟩
  refine Obeys.bind (R := fun phase r => r = .ok ⟨⟩ → ∃ json, phase = .stored binding json ∧ Recorded py (a.receipt args.envelope state) json)
    ?_ ?_ fun phase e _ => post_error _ e
  · refine Obeys.stays_bind obeys_lift nofun fun json hjson => ?_
    have hrecorded : Recorded py (a.receipt args.envelope state) json := ⟨hjson, ha, hfinal⟩
    refine Obeys.bind (R := fun phase r => ∀ count : ℕ, r = .ok count → count = 1 → phase = .stored binding json)
      (obeys_execute ⟨⟨submitted, rfl⟩, _, hrecorded, rfl⟩ nofun fun reply _ => ?_) (fun phase count hcount => ?_) nofun
    · rintro count rfl rfl
      rfl
    · exact Obeys.refuseIf nofun fun hone _ => ⟨json, hcount count rfl (not_not.mp hone), hrecorded⟩
  · intro phase _ hstored
    obtain ⟨json, rfl, hrecorded⟩ := hstored rfl
    refine Obeys.pure fun receipt hreceipt => ?_
    cases hreceipt
    exact ⟨binding, json, rfl, hb, .inl hrecorded⟩

section Stages

variable (decoder) (hb : bindingOf py args.envelope = .ok binding)

include hb

theorem obeys_acknowledge (ha : a.Timed) :
    Obeys (custody py) (.opened binding submitted) (acknowledge py args selected a) (Post py decoder args) := by
  refine Obeys.stays_bind (R := fun _ => True) (obeys_tryAsk trivial fun _ _ => ⟨rfl, fun _ _ => trivial⟩) (post_error _)
    fun ack _ => ?_
  refine Obeys.stays_bind obeys_lift (post_error _) fun a' ha' => ?_
  have htimes : a'.Timed := by
    cases hack : ack.join with
    | none =>
      rw [hack] at ha'
      cases ha'
      exact ha
    | some text =>
      rw [hack] at ha'
      obtain ⟨sha256, -, rfl⟩ := except_map_ok.mp ha'
      exact ha
  split
  · exact obeys_finish hb rfl htimes
  · exact obeys_finish hb rfl htimes
  · exact obeys_finish hb rfl htimes
  · exact obeys_finish hb rfl htimes

theorem obeys_readBack (deadline : Seconds) (polls : ℕ) (ha : a.Timed) :
    Obeys (custody py) (.opened binding submitted) (readBack py args selected deadline polls a) (Post py decoder args) := by
  induction polls generalizing a with
  | zero => exact Obeys.throw (post_error _ _)
  | succ polls ih =>
    refine Obeys.stays_bind (R := fun _ => True) (obeys_tryAsk trivial fun _ _ => ⟨rfl, fun _ _ => trivial⟩) (post_error _)
      fun rendered _ => ?_
    refine Obeys.stays_bind obeys_lift (post_error _) fun a' ha' => ?_
    have htimes : a'.Timed := by
      cases hrendered : rendered.join with
      | none =>
        rw [hrendered] at ha'
        cases ha'
        exact ha
      | some text =>
        rw [hrendered] at ha'
        obtain ⟨sha256, -, rfl⟩ := except_map_ok.mp ha'
        exact ha
    split
    · refine Obeys.stays_bind (obeys_advance hb rfl htimes) (post_error _) fun a ha => ?_
      exact Obeys.stays_bind (obeys_advance hb rfl ha) (post_error _) fun a ha => obeys_acknowledge decoder hb ha
    · refine Obeys.stays_bind (obeys_ask trivial fun _ => rfl) (post_error _) fun now _ => ?_
      split
      · exact obeys_finish hb rfl htimes
      · exact Obeys.stays_bind (obeys_ask trivial fun _ => rfl) (post_error _) fun _ _ => ih htimes

/-- The submission is the one call after which the message counts as submitted. -/
theorem obeys_submit (ha : a.Timed) :
    Obeys (custody py) (.opened binding false) (submit py args selected a) (Post py decoder args) := by
  have hid : args.envelope.messageId = binding.messageId := by
    obtain ⟨sha256, -, rfl⟩ := except_map_ok.mp hb
    rfl
  refine Obeys.bind (R := fun phase _ => phase = .opened binding true)
    (obeys_tryAsk ⟨binding, rfl, hid⟩ fun _ _ => rfl) ?_ fun phase e _ => post_error phase e
  rintro _ reply rfl
  cases reply with
  | none => exact obeys_finish hb rfl ha
  | some _ =>
    refine Obeys.stays_bind (obeys_advance hb rfl ha) (post_error _) fun a ha => ?_
    exact Obeys.stays_bind (obeys_ask trivial fun _ => rfl) (post_error _) fun start _ => obeys_readBack decoder hb _ _ ha

theorem obeys_reverify (prewrite : Selectors) (ha : a.Timed) :
    Obeys (custody py) (.opened binding false) (reverify py args selected prewrite a) (Post py decoder args) := by
  refine Obeys.stays_bind (R := fun _ => True) (obeys_tryAsk trivial fun _ _ => ⟨rfl, fun _ _ => trivial⟩) (post_error _)
    fun reply _ => ?_
  cases reply with
  | none => exact obeys_finish hb rfl ha
  | some presubmit =>
    refine Obeys.stays_bind obeys_lift (post_error _) fun selectorDigest _ => ?_
    dsimp only
    split
    · exact obeys_finish hb rfl ha
    · exact Obeys.stays_bind (obeys_advance hb rfl ha) (post_error _) fun a ha => obeys_submit decoder hb ha

theorem obeys_populate (prewrite : Selectors) (ha : a.Timed) :
    Obeys (custody py) (.opened binding false) (populate py args selected prewrite a) (Post py decoder args) := by
  refine Obeys.stays_bind (R := fun _ => True) (obeys_tryAsk trivial fun _ _ => ⟨rfl, fun _ _ => trivial⟩) (post_error _)
    fun reply _ => ?_
  cases reply with
  | none => exact obeys_finish hb rfl ha
  | some _ =>
    exact Obeys.stays_bind (obeys_advance hb rfl ha) (post_error _) fun a ha => obeys_reverify decoder hb prewrite ha

theorem obeys_verifyPrewrite (ha : a.Timed) :
    Obeys (custody py) (.opened binding false) (verifyPrewrite py args selected a) (Post py decoder args) := by
  refine Obeys.stays_bind (R := fun _ => True) (obeys_tryAsk trivial fun _ _ => ⟨rfl, fun _ _ => trivial⟩) (post_error _)
    fun reply _ => ?_
  cases reply with
  | none => exact obeys_finish hb rfl ha
  | some prewrite =>
    refine Obeys.stays_bind obeys_lift (post_error _) fun selectorDigest _ => ?_
    dsimp only
    split
    · exact obeys_finish hb rfl ha
    · exact Obeys.stays_bind (obeys_advance hb rfl ha) (post_error _) fun a ha => obeys_populate decoder hb _ ha

theorem obeys_activate (ha : a.Timed) :
    Obeys (custody py) (.opened binding false) (activate py args selected a) (Post py decoder args) := by
  refine Obeys.stays_bind (R := fun _ => True) (obeys_tryAsk trivial fun _ _ => ⟨rfl, fun _ _ => trivial⟩) (post_error _)
    fun reply _ => ?_
  cases reply with
  | none => exact obeys_finish hb rfl ha
  | some _ => exact obeys_verifyPrewrite decoder hb ha

theorem obeys_discover (ha : a.Timed) :
    Obeys (custody py) (.opened binding false) (discover py args a) (Post py decoder args) := by
  refine Obeys.stays_bind (R := fun _ => True) (obeys_tryAsk trivial fun _ _ => ⟨rfl, fun _ _ => trivial⟩) (post_error _)
    fun reply _ => ?_
  cases reply with
  | none => exact obeys_finish hb rfl ha
  | some items =>
    dsimp only
    split
    · exact obeys_finish hb rfl ha
    · exact Obeys.stays_bind (obeys_advance hb rfl ha) (post_error _) fun a ha => obeys_activate decoder hb ha
    · exact obeys_finish hb rfl ha

theorem obeys_perform (ha : a.Timed) :
    Obeys (custody py) (.opened binding false) (perform py args a) (Post py decoder args) := by
  refine Obeys.stays_bind (R := fun _ => True) (obeys_tryAsk trivial fun _ _ => ⟨rfl, fun _ _ => trivial⟩) (post_error _)
    fun verified _ => ?_
  split
  · exact Obeys.stays_bind (obeys_advance hb rfl ha) (post_error _) fun a ha => obeys_discover decoder hb ha
  · exact obeys_finish hb rfl ha

end Stages

/-- What a claim leaves: the row is new and the run's, or it has the receipt that was found. -/
def Claimed (decoder : Decoder Empty) (binding : Binding) (phase : Phase)
    (result : Except Exc (Bool × Str × Option RelayReceipt)) : Prop :=
  ∀ created state receipt, result = .ok (created, state, receipt) →
    (created = true ∧ phase = .opened binding false) ∨
    (created = false ∧ ∀ found, receipt = some found →
      ∃ json, phase = .stored binding json ∧ RelayReceipt.decode decoder json = .ok found)

theorem claimed_error {binding : Binding} (phase : Phase) (e : Exc) : Claimed decoder binding phase (.error e) := by
  rintro created state receipt ⟨⟩

theorem obeys_claimFound (decoder : Decoder Empty) {row : Operation} (hid : row.messageId = binding.messageId) {phase : Phase}
    (hstored : ∀ json, row.receiptJson = some json → phase = .stored row.binding json) :
    Obeys (custody py) phase (claimFound decoder binding row) (Claimed decoder binding) := by
  refine Obeys.bind (R := fun phase' r => phase' = phase ∧
      (r = .ok ⟨⟩ → row.nonce = binding.nonce ∧ row.envelopeSha256 = binding.envelopeSha256))
    (Obeys.refuseIf (fun _ => ⟨rfl, nofun⟩) fun hsame => ⟨rfl, fun _ => ?_⟩) ?_ fun phase e _ => claimed_error phase e
  · rw [not_or, not_not, not_not] at hsame
    exact hsame
  rintro phase _ ⟨rfl, hsame⟩
  obtain ⟨hnonce, hsha⟩ := hsame rfl
  have hbinding : row.binding = binding := by
    obtain ⟨messageId, nonce, envelopeSha256⟩ := binding
    exact congr (congr (congrArg Binding.mk hid) hnonce) hsha
  cases hjson : row.receiptJson with
  | none =>
    refine Obeys.pure fun created state receipt h => ?_
    obtain ⟨rfl, hrest⟩ := Prod.mk.inj (Except.ok.inj h)
    obtain ⟨-, rfl⟩ := Prod.mk.inj hrest
    refine .inr ⟨rfl, fun found hfound => ?_⟩
    cases hfound
  | some json =>
    refine Obeys.bind (R := fun phase' r => phase' = phase ∧ RelayReceipt.decode decoder json = r)
      (Obeys.lift ⟨rfl, rfl⟩) ?_ fun phase e _ => claimed_error phase e
    rintro _ receipt ⟨rfl, hdecode⟩
    refine Obeys.pure fun created state receipt' h => ?_
    obtain ⟨rfl, hrest⟩ := Prod.mk.inj (Except.ok.inj h)
    obtain ⟨-, rfl⟩ := Prod.mk.inj hrest
    refine .inr ⟨rfl, fun found hfound => ?_⟩
    obtain rfl : receipt = found := Option.some.inj hfound
    exact ⟨json, hbinding ▸ hstored json hjson, hdecode⟩

theorem obeys_claimNew (decoder : Decoder Empty) (binding : Binding) (updatedAt : Str) :
    Obeys (custody py) .idle (claimNew binding updatedAt) (Claimed decoder binding) := by
  refine Obeys.bind (R := fun phase r => r = .ok () → phase = .opened binding false)
    (obeys_execute ⟨rfl, rfl, rfl⟩ (fun _ => nofun) fun reply _ => ?_) ?_ fun phase e _ => claimed_error phase e
  · rintro rfl
    rfl
  · intro phase _ hopened
    refine Obeys.pure fun created state receipt h => .inl ⟨?_, hopened rfl⟩
    exact (congrArg Prod.fst (Except.ok.inj h)).symm

/-- What a selection leaves. -/
def Selected (binding : Binding) (phase : Phase) : Except Exc (Option Operation) → Prop
  | .ok none => phase = .idle
  | .ok (some row) =>
    row.messageId = binding.messageId ∧ ∀ json, row.receiptJson = some json → phase = .stored row.binding json
  | .error _ => True

theorem obeys_claim (decoder : Decoder Empty) (binding : Binding) (updatedAt : Str) :
    Obeys (custody py) .idle (claim decoder binding updatedAt) (Claimed decoder binding) := by
  refine Obeys.bind (R := Selected binding) (obeys_execute trivial (fun _ => trivial) fun reply hreply => ?_) ?_
    fun phase e _ => claimed_error phase e
  · match reply with
    | .error e => trivial
    | .ok none => rfl
    | .ok (some row) =>
      refine ⟨hreply, fun json hjson => ?_⟩
      simp only [custody, Phase.after, hjson]
  · rintro phase (_ | row) hselected
    · obtain rfl : phase = .idle := hselected
      exact obeys_claimNew decoder binding updatedAt
    · exact obeys_claimFound decoder hselected.1 hselected.2

/-- A run keeps to the custody of its row. -/
theorem obeys_run (py : Interpreter Empty) (args : Arguments) (decoder : Decoder Empty) :
    Obeys (custody py) .idle (run py args decoder) (Post py decoder args) := by
  unfold run
  split
  · exact Obeys.throw (post_error _ _)
  refine Obeys.bind (R := fun phase r => phase = .idle ∧ bindingOf py args.envelope = r) (Obeys.lift ⟨rfl, rfl⟩) ?_
    fun phase e _ => post_error phase e
  rintro _ binding ⟨rfl, hb⟩
  refine Obeys.bind (R := fun phase _ => phase = .idle) (Obeys.ask trivial fun _ _ => rfl) ?_ fun phase e _ => post_error phase e
  rintro _ updatedAt rfl
  refine Obeys.bind (obeys_claim decoder binding updatedAt) ?_ fun phase e _ => post_error phase e
  rintro phase ⟨created, state, oldReceipt⟩ hclaimed
  rcases hclaimed _ _ _ rfl with ⟨rfl, rfl⟩ | ⟨rfl, hfound⟩
  · refine Obeys.bind (R := fun phase _ => phase = .opened binding false) (Obeys.ask trivial fun _ _ => rfl) ?_
      fun phase e _ => post_error phase e
    rintro _ time rfl
    exact obeys_perform decoder hb (List.nodup_singleton _)
  · cases oldReceipt with
    | none => exact Obeys.throw (post_error _ _)
    | some receipt =>
      obtain ⟨json, rfl, hdecode⟩ := hfound receipt rfl
      refine Obeys.pure fun receipt' h => ?_
      cases h
      exact ⟨binding, json, rfl, hb, .inr hdecode⟩

/-! ### Pools of runs -/

/-- Steps of processes that run the relay on one store. -/
abbrev RelayStep (py : Interpreter Empty) (decoder : Decoder Empty) (faults : Faults) {ι : Type} [DecidableEq ι] :=
  PoolStep (α := RelayReceipt) (ι := ι) (Workstation faults) (fun _ _ => False) fun args : Arguments => run py args decoder

/-- Processes that have not started a run, over an empty store. -/
structure Fresh {ι : Type} (p : Pool Calls Exc RelayReceipt World ι Arguments) : Prop where
  rows : ∀ messageId, p.state.rows messageId = none
  submits : p.state.submits = []
  idle : ∀ i, ∃ e, p.program i = .done (.error e)

variable {ι : Type} [DecidableEq ι] {p p' : Pool Calls Exc RelayReceipt World ι Arguments} {faults : Faults}
  {events : List (PoolEvent ι Arguments)}

theorem World.sound_of_empty {w : World} (hrows : ∀ messageId, w.rows messageId = none) (hsubmits : w.submits = []) :
    w.Sound py := by
  refine ⟨fun messageId row h => ?_, fun messageId row h => ?_, hsubmits ▸ List.nodup_nil, fun messageId h => ?_⟩
  · rw [hrows] at h
    cases h
  · rw [hrows] at h
    cases h
  · rw [hsubmits] at h
    cases h

/-- What the processes keep to, they keep to in a run. -/
theorem relay_guarded_run {phases : ι → Phase} (hp : Guarded (custody py) (ownership py) (Post py decoder) p phases)
    (h : Run (RelayStep py decoder faults) p events p') :
    p.state.Keeps p'.state ∧ ∃ phases, Guarded (custody py) (ownership py) (Post py decoder) p' phases := by
  have hknows (w : World) : (ownership py).knows .idle w := trivial
  exact guarded_run (custody_lawful py faults) rfl hknows (fun _ _ => not_false) (fun args => obeys_run py args decoder) hp h

/-- In every run of a pool the store is sound, and every process is as its phase says. -/
theorem relay_guarded (hp : Fresh p) (h : Run (RelayStep py decoder faults) p events p') :
    p.state.Keeps p'.state ∧ ∃ phases, Guarded (custody py) (ownership py) (Post py decoder) p' phases := by
  have hstart : Guarded (custody py) (ownership py) (Post py decoder) p fun _ => .idle := by
    refine ⟨World.sound_of_empty hp.rows hp.submits, fun i => ?_, fun _ => trivial, fun i j k hi => ?_⟩
    · obtain ⟨e, he⟩ := hp.idle i
      rw [he]
      exact post_error _ e
    · cases hi
  exact relay_guarded_run hstart h

/-! ### A canary -/

theorem isHex_canaryHash : isHex 64 "351cc4777bec40c16ad3c5279163177680306a68cb4950a63d7228f295a5f6e9" = true := by decide +kernel

/-- The digests of the texts below, by the byte at which they differ. -/
def canarySha256 (data : Bytes) : Hex 64 :=
  match (data.data[22]? : Option UInt8) with
  | none => ⟨"351cc4777bec40c16ad3c5279163177680306a68cb4950a63d7228f295a5f6e9", isHex_canaryHash⟩
  | some 86 => ⟨"43412bc24f1a7c821ab4400253e3a65609d595fc3ff10e0dacd9a812fe35d125", by decide +kernel⟩
  | some 65 => ⟨"d96e260f02190a555e3cbe795466d6895b8665ef29d5e12a107ec42c230d2ae8", by decide +kernel⟩
  | some _ => ⟨"da5ba709a325f34dff332b5615baefb19ec22fabcb784cb707caec03a6910125", by decide +kernel⟩

def canaryPython : Interpreter Empty := asciiInterpreter canarySha256

def canaryDecoder : Decoder Empty := ⟨fun _ => "0.0", fun _ => [], fun _ => .error .typeError, fun _ => true⟩

def canaryEnvelope : RelayEnvelope where
  sender := lit "ONE"
  recipient := lit "TWO"
  messageId := lit "m-1"
  nonce := lit "0123456789abcdef0123456789abcdef"
  sourceBusMessageId := lit "b-1"
  sourceBusCommit := List.replicate 40 (point 'a')
  body := lit "BT2_CANARY: marker=hi"
  bodySha256 := lit "351cc4777bec40c16ad3c5279163177680306a68cb4950a63d7228f295a5f6e9"

def canaryTarget : TargetSnapshot where
  windowHandle := 41
  normalizedUrlPath := lit "/c/two"
  visibleIdentity := lit "Two"
  targetToken := none
  positive := by decide
  rooted := by decide
  visible := by decide
  inked := nofun

def canaryArguments : Arguments where
  envelope := canaryEnvelope
  descriptor := ⟨lit "TWO", lit "/c/two", lit "Two", by decide, by decide, by decide⟩
  ackTimeoutSeconds := .finite 5
  renderedReadbackTimeoutSeconds := .finite 15
  renderedPollSeconds := .finite (1 / 4)
  polls := 61

/-- A store that works, a source that is verified, and a target that does what it should; what is
rendered is there at the second look. -/
def canaryAnswer (op : Op) (w : World) : Except Exc op.Reply × World :=
  match op with
  | .select messageId => (.ok (w.rows messageId), w)
  | .insert row =>
    if w.rows row.messageId = none then (.ok (), w.put row) else (.error (.raised (.other "IntegrityError")), w)
  | .updateState binding state updatedAt =>
    let changed := w.update binding fun row => { row with state, updatedAt }
    (.ok changed.1, changed.2)
  | .updateReceipt binding state receiptJson updatedAt =>
    let changed := w.update binding fun row => { row with state, receiptJson := some receiptJson, updatedAt }
    (.ok changed.1, changed.2)
  | .nowIso => (.ok (lit "2026-09-22T12:00:00+00:00"), w)
  | .monotonic => (.ok w.clock, w)
  | .sleep (.finite seconds) =>
    if (Seconds.finite seconds).isShort = true then (.ok (), { w with clock := w.clock + seconds })
    else (.error (.raised (.other "OverflowError")), w)
  | .sleep _ => (.error (.raised (.other "ValueError")), w)
  | .verify _ => (.ok true, w)
  | .discover _ => (.ok [canaryTarget], w)
  | .snapshot _ _ => (.ok canaryTarget, w)
  | .activate _ _ => (.ok (), w)
  | .populate _ _ _ => (.ok (), w)
  | .submit messageId _ _ => (.ok (), { w with submits := messageId :: w.submits })
  | .readRendered _ _ _ => (.ok (if w.clock = 0 then none else some canaryEnvelope.render), w)
  | .waitForAck _ _ _ _ => (.ok (some (renderAck canaryEnvelope .receivedVerified)), w)

theorem workstation_canaryAnswer (faults : Faults) (op : Op) (w : World) :
    Workstation faults op w (canaryAnswer op w).1 (canaryAnswer op w).2 := by
  cases op with
  | insert row =>
    unfold Workstation canaryAnswer
    by_cases hfree : w.rows row.messageId = none
    · simp [hfree, Changes]
    · simp [hfree, Except.isOk, Except.toBool]
  | nowIso => exact ⟨rfl, encodable_lit _⟩
  | monotonic => exact ⟨rfl, .inl Rat.le_refl⟩
  | sleep seconds =>
    cases seconds with
    | finite seconds =>
      unfold Workstation canaryAnswer
      dsimp only
      by_cases hshort : (Seconds.finite seconds).isShort = true
      · rw [if_pos hshort]
        exact ⟨seconds, _, rfl, (of_decide_eq_true hshort).1, rfl, .inl Rat.le_refl⟩
      · rw [if_neg hshort]
        exact ⟨Bool.not_eq_true _ ▸ hshort, rfl⟩
    | infinite negative => exact ⟨rfl, rfl⟩
    | nan => exact ⟨rfl, rfl⟩
  | _ => rfl

/-- The same, where the store fails as soon as something is submitted. -/
def cutAnswer (op : Op) (w : World) : Except Exc op.Reply × World :=
  match op with
  | .updateState binding state updatedAt =>
    if w.submits = [] then canaryAnswer (.updateState binding state updatedAt) w
    else (.error (.raised (.other "OperationalError")), w)
  | op => canaryAnswer op w

theorem workstation_cutAnswer {faults : Faults} (hstore : faults.store) (op : Op) (w : World) :
    Workstation faults op w (cutAnswer op w).1 (cutAnswer op w).2 := by
  cases op with
  | updateState binding state updatedAt =>
    unfold cutAnswer
    by_cases hnone : w.submits = []
    · simp only [hnone, if_true]
      exact workstation_canaryAnswer faults (.updateState binding state updatedAt) w
    · simp [hnone, Workstation, Changes, hstore]
  | _ => exact workstation_canaryAnswer faults _ w

def canaryWorld : World := ⟨fun _ => none, [], 0⟩

/-- The run of the canary on a store. -/
def canaryRun (w : World) : List (Answer Calls Exc) × Except Exc RelayReceipt × World :=
  (run canaryPython canaryArguments canaryDecoder).play canaryAnswer w

theorem runs_canary (faults : Faults) (w : World) : Runs (Workstation faults) (run canaryPython canaryArguments canaryDecoder) w
    (canaryRun w).1 (canaryRun w).2.1 (canaryRun w).2.2 :=
  runs_play (J := fun _ => True) (fun op w _ => ⟨workstation_canaryAnswer faults op w, trivial⟩) _ _ trivial

theorem canaryRun_ends : (canaryRun canaryWorld).2.1.toOption.map (·.finalState) = some (lit "ACK_VERIFIED") := by decide +kernel

/-- On an empty store the canary is acknowledged. -/
theorem canaryRun_returns : ∃ receipt, (canaryRun canaryWorld).2.1 = .ok receipt ∧ receipt.finalState = lit "ACK_VERIFIED" := by
  have hends := canaryRun_ends
  cases hresult : (canaryRun canaryWorld).2.1 with
  | error e =>
    rw [hresult] at hends
    cases hends
  | ok receipt =>
    rw [hresult] at hends
    exact ⟨receipt, rfl, Option.some.inj hends⟩

/-- The run of the canary that is cut off when the message is submitted. -/
def cutRun : List (Answer Calls Exc) × Except Exc RelayReceipt × World :=
  (run canaryPython canaryArguments canaryDecoder).play cutAnswer canaryWorld

theorem runs_cut {faults : Faults} (hstore : faults.store) :
    Runs (Workstation faults) (run canaryPython canaryArguments canaryDecoder) canaryWorld cutRun.1 cutRun.2.1 cutRun.2.2 :=
  runs_play (J := fun _ => True) (fun op w _ => ⟨workstation_cutAnswer hstore op w, trivial⟩) _ _ trivial

theorem cutRun_submits : cutRun.2.2.submits = [lit "m-1"] := by decide +kernel

/-- Two processes that have not started. -/
def canaryPool : Pool Calls Exc RelayReceipt World Bool Arguments :=
  ⟨canaryWorld, fun _ => canaryArguments, fun _ => .done (.error (refusal "IDLE"))⟩

theorem fresh_canaryPool : Fresh canaryPool := ⟨fun _ => rfl, rfl, fun _ => ⟨_, rfl⟩⟩

/-- One of some processes runs the canary. -/
theorem pool_canary {p : Pool Calls Exc RelayReceipt World Bool Arguments} {faults : Faults} {answers : List (Answer Calls Exc)}
    {result : Except Exc RelayReceipt} {w : World}
    (h : Runs (Workstation faults) (run canaryPython canaryArguments canaryDecoder) p.state answers result w) (i : Bool) :
    ∃ events p', Run (RelayStep canaryPython canaryDecoder faults) p events p' ∧ p'.state = w ∧ p'.data i = canaryArguments ∧
      p'.program i = .done result := by
  apply Runs.start
  exact h

/-- **No message is submitted twice, in any run of any processes on one store, wherever they
are cut off and whatever the verifiers, the targets and the store do.** -/
theorem submit_at_most_once (hp : Fresh p) (h : Run (RelayStep py decoder faults) p events p') (messageId : Str) :
    p'.state.submits.count messageId ≤ 1 := by
  obtain ⟨-, phases, hguarded⟩ := relay_guarded hp h
  exact List.nodup_iff_count_le_one.mp hguarded.always.once messageId

/-- The canary is cut off when it is submitted, and run again by another process. -/
theorem submit_at_most_once_canary :
    cutRun.2.2.submits = [lit "m-1"] ∧ (canaryRun cutRun.2.2).2.2.submits.count (lit "m-1") ≤ 1 := by
  have hcut := runs_cut (show Faults.store ⟨True, False⟩ from trivial)
  obtain ⟨events, p, hfirst, hleft, -⟩ := pool_canary (p := canaryPool) hcut true
  have hagain := runs_canary ⟨True, False⟩ cutRun.2.2
  rw [← hleft] at hagain
  obtain ⟨events', p', hsecond, hstate, -⟩ := pool_canary hagain false
  have honce := submit_at_most_once fresh_canaryPool (hfirst.trans hsecond) (lit "m-1")
  rw [hstate, hleft] at honce
  exact ⟨cutRun_submits, honce⟩

end CcbCore.Relay
