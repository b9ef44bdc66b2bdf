import CcbCore.Relay.Evidence
import CcbCore.Relay.Replay
import Mathlib.Algebra.Order.Ring.Rat
import Mathlib.Tactic.Linarith

/-!
# A relay that strands

Each call of the verifier and the target is guarded, but what is computed of their replies
is not: a text with an unpaired surrogate has no digest, and a window handle of too many
digits no decimal form. Nor is the sleep between two readbacks, which raises when it is too
long; and a timeout of `inf` or `nan` seconds has no deadline. `clean` says which replies can
be written and which sleeps end, and `Shown` which readbacks do. A run keeps account of
its row and of its replies (`Watch`), and settles the row at its end (`watching_run`): it
delivers a message that it has claimed exactly if all replies were clean and its readback
ends (`delivered_iff_clean`), and one reply that is not clean leaves the row behind
(`stray_strands`).
-/

namespace CcbCore.Relay

open CcbCore.CodePoints CcbCore.Postgres CcbCore.Radar CcbCore.Raising

variable {py : Interpreter Empty} {args : Arguments} {decoder : Decoder Empty} {a : Attempt} {selected : TargetSnapshot}

/-! ### What can be written -/

/-- The stack takes `json.dumps` through receipts and selectors. -/
structure Stacked (py : Interpreter Empty) : Prop where
  receipt : ∀ receipt : RelayReceipt, py.encodes (.object receipt.toDict) = true
  selector : ∀ (path identity : Str) (token : Option Str), py.encodes (.object [(lit "normalized_url_path", .str path),
    (lit "visible_identity", .str identity), (lit "target_token", optionalValue token)]) = true

theorem encodable_optionalValue (text : Option Str) : (optionalValue text).all (fun _ => true) encodable (fun _ => true) = text.all encodable := by
  cases text <;> rfl

theorem encodable_items (texts : List Str) :
    Value.allItems (fun _ => true) encodable (fun _ => true) (texts.map fun text => (Value.str text : Value Empty)) = texts.all encodable := by
  induction texts with
  | nil => rfl
  | cons text texts ih => rw [List.map_cons, Value.allItems, ih]; rfl

theorem encodable_fields (times : List (Str × Str)) :
    Value.allFields (fun _ => true) encodable (fun _ => true) (times.map fun time => (time.1, (Value.str time.2 : Value Empty))) =
      times.all fun time => encodable time.1 && encodable time.2 := by
  induction times with
  | nil => rfl
  | cons time times ih => rw [List.map_cons, Value.allFields, ih]; rfl

theorem isJson_optionalValue (text : Option Str) : (optionalValue text).all prints (fun _ => true) (fun _ => false) = true := by
  cases text <;> rfl

theorem isJson_items (texts : List Str) :
    Value.allItems prints (fun _ => true) (fun _ => false) (texts.map fun text => (Value.str text : Value Empty)) = true := by
  induction texts with
  | nil => rfl
  | cons text texts ih => rw [List.map_cons, Value.allItems, ih]; rfl

theorem isJson_fields (times : List (Str × Str)) :
    Value.allFields prints (fun _ => true) (fun _ => false) (times.map fun time => (time.1, (Value.str time.2 : Value Empty))) = true := by
  induction times with
  | nil => rfl
  | cons time times ih => rw [List.map_cons, Value.allFields, ih]; rfl

theorem isJson_toDict {receipt : RelayReceipt} (hprintable : receipt.targetWindowHandle.all printable = true) :
    (Value.object receipt.toDict).isJson = true := by
  have hhandle : ((receipt.targetWindowHandle.map Value.int).getD .null : Value Empty).all prints (fun _ => true) (fun _ => false) =
      true := by
    cases hsome : receipt.targetWindowHandle with
    | none => rfl
    | some n =>
      rw [hsome, Option.all_some, printable, decide_eq_true_iff] at hprintable
      exact prints_iff.mpr hprintable
  simp [RelayReceipt.toDict, Value.isJson, Value.all, Value.allFields, isJson_optionalValue, isJson_items, isJson_fields, hhandle]

/-- The texts of an attempt that are the relay's, and those that it has digested, encode. -/
structure Attempt.Writable (a : Attempt) : Prop where
  times : ∀ time ∈ a.times, encodable time.1 = true ∧ encodable time.2 = true
  prewrite : ∀ selectors ∈ a.prewrite, encodable selectors.normalizedUrlPath = true ∧ encodable selectors.visibleIdentity = true
  presubmit : ∀ selectors ∈ a.presubmit, encodable selectors.normalizedUrlPath = true ∧ encodable selectors.visibleIdentity = true
  ackBody : ∀ text ∈ a.ackBody, encodable text = true

/-- The token that was found encodes, and the handle can be printed. -/
def Attempt.sound (a : Attempt) : Bool := a.targetToken.all encodable && a.handle.all printable

theorem all_map_of_mem {α : Type} {o : Option α} {f : α → Str} (h : ∀ x ∈ o, encodable (f x) = true) :
    (o.map f).all encodable = true := by
  cases o with
  | none => rfl
  | some x => exact h x rfl

/-- The receipt of an attempt encodes if the token that was found does. -/
theorem encodable_receipt {binding : Binding} (hb : bindingOf py args.envelope = .ok binding) (ha : a.Writable)
    (final : RelayState) :
    (Value.object (a.receipt args.envelope final).toDict).encodable = a.targetToken.all encodable := by
  have henvelope := encodable_of_binding hb
  simp only [List.all_cons, List.all_nil, Bool.and_true, Bool.and_eq_true] at henvelope
  obtain ⟨hsender, hrecipient, hid, hnonce, hsource, hcommit, hbody, -⟩ := henvelope
  have hreading (reading : AckReading) : encodable reading.text = true := by
    rcases reading with (_ | _) | _ <;> exact encodable_lit _
  have htransitions : (a.transitions.map RelayState.text).all encodable = true := by
    simp [RelayState.text, encodable_lit]
  have htimes : (a.times.all fun time => encodable time.1 && encodable time.2) = true := by
    simpa using fun key value hmem => ha.times (key, value) hmem
  have hhandle : ((a.handle.map Value.int).getD .null : Value Empty).all (fun _ => true) encodable (fun _ => true) = true := by
    cases a.handle <;> rfl
  have hack : a.ackBody.all encodable = true := by
    cases hbody : a.ackBody with
    | none => rfl
    | some text => exact ha.ackBody text hbody
  have hprewritePath := all_map_of_mem fun selectors h => (ha.prewrite selectors h).1
  have hprewriteIdentity := all_map_of_mem fun selectors h => (ha.prewrite selectors h).2
  have hpresubmitPath := all_map_of_mem fun selectors h => (ha.presubmit selectors h).1
  have hpresubmitIdentity := all_map_of_mem fun selectors h => (ha.presubmit selectors h).2
  have hfinal : encodable final.text = true := encodable_lit _
  have hstatus : (a.ackStatus.map AckReading.text).all encodable = true := all_map_of_mem fun reading _ => hreading reading
  have hdigest {α : Type} (o : Option α) (f : α → String) : (o.map fun x => lit (f x)).all encodable = true :=
    all_map_of_mem fun _ _ => encodable_lit _
  simp [Value.encodable, Value.all, Value.allFields, RelayReceipt.toDict, Attempt.receipt, encodable_lit, encodable_items,
    encodable_fields, encodable_optionalValue, hsender, hrecipient, hid, hnonce, hsource, hcommit, hbody, htransitions, htimes,
    hhandle, hack, protocol, hfinal, hprewritePath, hprewriteIdentity, hpresubmitPath, hpresubmitIdentity,
    hstatus, hdigest, -List.map_map]

/-- A receipt can be written if the handle can be printed, and bound if the token encodes. -/
theorem encode_receipt {binding : Binding} (hstack : Stacked py) (hb : bindingOf py args.envelope = .ok binding)
    (ha : a.Writable) (final : RelayState) :
    (a.sound = true → ∃ json, (a.receipt args.envelope final).encode py = .ok json ∧ encodable json = true) ∧
    (a.sound = false → ∀ json, (a.receipt args.envelope final).encode py = .ok json → encodable json = false) := by
  have hhandle : (a.receipt args.envelope final).targetWindowHandle = a.handle := rfl
  rw [RelayReceipt.encode, hhandle, Attempt.sound]
  cases hprintable : a.handle.all printable with
  | false => simp
  | true =>
    obtain ⟨json, hdumps, hencodable⟩ : ∃ json,
        dumps py canonicalFormat (.object (a.receipt args.envelope final).toDict) = .ok json ∧
          encodable json = a.targetToken.all encodable := by
      rcases dumps_json py canonicalFormat ⟨encodable_lit _, encodable_lit _⟩ (isJson_toDict (hhandle ▸ hprintable)) with
        ⟨hnot, -⟩ | ⟨-, json, hdumps, hjson⟩
      · rw [hstack.receipt] at hnot
        cases hnot
      · exact ⟨json, hdumps, hjson.trans (encodable_receipt hb ha final)⟩
    rw [Bool.and_true, if_pos rfl, hdumps, ← hencodable]
    refine ⟨fun hyes => ⟨json, rfl, hyes⟩, fun hno json' hjson' => ?_⟩
    obtain rfl := Except.ok.inj hjson'
    exact hno

/-! ### Clean replies -/

/-- The one target that is found, its token and its handle can be written. -/
def cleanFound : List TargetSnapshot → Bool
  | [selected] => selected.targetToken.all encodable && printable selected.windowHandle
  | _ => true

/-- A reply with nothing in it that cannot be written: the token and the handle of the one
target that is found, and the texts of a snapshot, a readback and an acknowledgement. -/
def clean (args : Arguments) (op : Op) (reply : Except Exc op.Reply) : Bool :=
  match op, reply with
  | .discover _, .ok (items : List TargetSnapshot) => cleanFound (items.filter (·.matches args.descriptor))
  | .snapshot .., .ok (snapshot : TargetSnapshot) =>
    encodable snapshot.normalizedUrlPath && encodable snapshot.visibleIdentity && snapshot.targetToken.all encodable
  | .readRendered .., .ok (text : Option Str) => text.all encodable
  | .waitForAck .., .ok (text : Option Str) => text.all encodable
  | .sleep _, reply => reply.isOk
  | _, _ => true

/-- A message is submitted. -/
def submits (op : Op) (reply : Except Exc op.Reply) : Bool :=
  match op, reply with
  | .submit .., .ok _ => true
  | _, _ => false

/-- A text is read that matches. -/
def shows (args : Arguments) (op : Op) (reply : Except Exc op.Reply) : Bool :=
  match op, reply with
  | .readRendered .., .ok (text : Option Str) => renderedMatches args.envelope text
  | _, _ => false

/-- A readback whose timeout is no number reads a text that matches: it does not end without. -/
def Shown (args : Arguments) (answers : List (Answer Calls Exc)) : Prop :=
  args.renderedReadbackTimeoutSeconds.isFinite = true ∨ (∀ answer ∈ answers, submits answer.op answer.reply = false) ∨
    ∃ answer ∈ answers, shows args answer.op answer.reply = true

/-- No sleep of a readback is long: its interval is short, or its timeout is and the interval is not `nan`. -/
def Arguments.isPrompt (args : Arguments) : Bool :=
  args.renderedPollSeconds.isShort || (args.renderedReadbackTimeoutSeconds.isShort && args.renderedPollSeconds ≠ .nan)

/-! ### Waiting -/

/-- Enough polls for a readback to end by itself, if its timeout is a number. -/
def Arguments.Patient (args : Arguments) : Prop :=
  ∀ timeout, args.renderedReadbackTimeoutSeconds = .finite timeout → 2 ≤ args.polls ∧
    ∀ poll, args.renderedPollSeconds = .finite poll → timeout + poll ≤ args.polls * poll

/-- While something is left of the timeout, a sleep takes that or the interval, or it raises. -/
def Arguments.Waits (args : Arguments) (timeout poll : ℚ) : Prop :=
  ∀ left, 0 < left → left ≤ timeout →
    (args.renderedPollSeconds.min (.finite left) = .finite (min poll left) ∨ args.renderedPollSeconds.min (.finite left) = .nan) ∧
      (args.isPrompt = true → (args.renderedPollSeconds.min (.finite left)).isShort = true)

/-- How a readback goes on: until its deadline, or without an end. -/
inductive Arguments.Goes (args : Arguments) : Prop where
  | toDeadline {timeout poll : ℚ} : args.renderedReadbackTimeoutSeconds = .finite timeout → 0 < timeout → 0 < poll →
      timeout + poll ≤ args.polls * poll → args.Waits timeout poll → args.Goes
  | endless : args.renderedReadbackTimeoutSeconds = .infinite false ∨ args.renderedReadbackTimeoutSeconds = .nan →
      (args.isPrompt = true → (args.renderedPollSeconds.min args.renderedReadbackTimeoutSeconds).isShort = true) → args.Goes

theorem Seconds.of_not_spent {seconds : Seconds} (h : seconds.isSpent = false) :
    (∃ number, seconds = .finite number ∧ 0 < number) ∨ seconds = .infinite false ∨ seconds = .nan := by
  cases seconds with
  | finite number => exact .inl ⟨number, rfl, not_le.mp (of_decide_eq_false h)⟩
  | infinite negative => exact .inr (.inl (congrArg _ h))
  | nan => exact .inr (.inr rfl)

theorem Seconds.min_finite (first last : ℚ) : (finite first).min (finite last) = finite (Min.min first last) := by
  rw [Seconds.min, Seconds.lt]
  by_cases hlt : last < first
  · rw [if_pos (decide_eq_true hlt), min_eq_right hlt.le]
  · rw [if_neg (by rwa [decide_eq_true_iff]), min_eq_left (not_lt.mp hlt)]

theorem Seconds.isShort_iff {number : ℚ} : (finite number).isShort = true ↔ 0 ≤ number ∧ number ≤ longestSleep := decide_eq_true_iff

theorem goes_of_finite {timeout : ℚ} (hpatient : args.Patient) (hfinite : args.renderedReadbackTimeoutSeconds = .finite timeout)
    (htimeout : 0 < timeout) (hpoll : args.renderedPollSeconds.isSpent = false) : args.Goes := by
  obtain ⟨htwo, hpolls⟩ := hpatient timeout hfinite
  have hdouble : timeout + timeout ≤ args.polls * timeout := by
    have hle : (2 : ℚ) ≤ args.polls := by exact_mod_cast htwo
    nlinarith
  obtain ⟨poll, heq, hpositive⟩ | heq | heq := Seconds.of_not_spent hpoll
  · refine .toDeadline hfinite htimeout hpositive (hpolls poll heq) fun left hleft hle => ?_
    rw [heq, Seconds.min_finite]
    refine ⟨.inl rfl, fun hprompt => Seconds.isShort_iff.mpr ⟨(lt_min hpositive hleft).le, ?_⟩⟩
    rw [Arguments.isPrompt, heq, hfinite, Bool.or_eq_true, Bool.and_eq_true, Seconds.isShort_iff, Seconds.isShort_iff] at hprompt
    obtain ⟨-, hshort⟩ | ⟨⟨-, hshort⟩, -⟩ := hprompt
    · exact (min_le_left _ _).trans hshort
    · exact (min_le_right _ _).trans (hle.trans hshort)
  · refine .toDeadline hfinite htimeout htimeout hdouble fun left hleft hle => ?_
    have hmin : (Seconds.infinite false).min (.finite left) = .finite left := rfl
    rw [heq, hmin, min_eq_right hle]
    refine ⟨.inl rfl, fun hprompt => Seconds.isShort_iff.mpr ⟨hleft.le, ?_⟩⟩
    rw [Arguments.isPrompt, heq, hfinite, Bool.or_eq_true, Bool.and_eq_true, Seconds.isShort_iff] at hprompt
    obtain hnot | ⟨⟨-, hshort⟩, -⟩ := hprompt
    · cases hnot
    · exact hle.trans hshort
  · refine .toDeadline hfinite htimeout htimeout hdouble fun left _ _ => ?_
    rw [heq]
    refine ⟨.inr rfl, fun hprompt => ?_⟩
    rw [Arguments.isPrompt, heq, Bool.or_eq_true, Bool.and_eq_true] at hprompt
    obtain hnot | ⟨-, hnot⟩ := hprompt
    · cases hnot
    · exact absurd rfl (of_decide_eq_true hnot)

theorem goes_of_refused (hpatient : args.Patient) (h : args.refused = none) : args.Goes := by
  simp only [Arguments.refused] at h
  split_ifs at h with _ _ htimeout hpoll
  rw [Bool.not_eq_true] at htimeout hpoll
  obtain ⟨timeout, heq, hpositive⟩ | hnot := Seconds.of_not_spent htimeout
  · exact goes_of_finite hpatient heq hpositive hpoll
  refine .endless hnot fun hprompt => ?_
  have hshort : args.renderedReadbackTimeoutSeconds.isShort = false := by rcases hnot with heq | heq <;> rw [heq] <;> rfl
  rw [Arguments.isPrompt, hshort, Bool.false_and, Bool.or_false] at hprompt
  have hmin : args.renderedPollSeconds.min args.renderedReadbackTimeoutSeconds = args.renderedPollSeconds := by
    obtain ⟨poll, heq, -⟩ | heq | heq := Seconds.of_not_spent hpoll <;> rcases hnot with hnot | hnot <;> rw [heq, hnot] <;> rfl
  rwa [hmin]

/-! ### What a run knows of its row -/

/-- The row of a run as it has left it, whether all replies were clean, whether it is in a readback without an
end and has read a text that matches, and a time that is over. -/
structure Watch where
  row : Option Operation := none
  clean : Bool := true
  endless : Bool := false
  matched : Bool := false
  clock : ℚ

/-- The readback does not end. -/
def Watch.isLost (watch : Watch) : Bool := watch.endless && !watch.matched

/-- What a reply tells. -/
def Watch.told (args : Arguments) (watch : Watch) (op : Op) (reply : Except Exc op.Reply) : Watch :=
  { watch with
    clean := Relay.clean args op reply && watch.clean
    endless := (submits op reply && !args.renderedReadbackTimeoutSeconds.isFinite) || watch.endless
    matched := shows args op reply || watch.matched }

/-- What is known after a call. -/
def Watch.after (args : Arguments) (watch : Watch) (op : Op) (reply : Except Exc op.Reply) : Watch :=
  let watch := watch.told args op reply
  match op, reply with
  | .insert row, .ok _ => { watch with row := some row }
  | .updateState _ state updatedAt, _ => { watch with row := watch.row.map fun row => { row with state, updatedAt } }
  | .updateReceipt _ state json updatedAt, _ =>
    { watch with row := watch.row.map fun row => { row with state, receiptJson := some json, updatedAt } }
  | .monotonic, .ok (time : ℚ) => { watch with clock := time }
  | .sleep (.finite seconds), .ok _ => { watch with clock := watch.clock + seconds }
  | _, _ => watch

/-- A run changes its own row, and sleeps no longer than its arguments have it. -/
def OwnRow (args : Arguments) (watch : Watch) : Op → Prop
  | .insert row => row.messageId = args.envelope.messageId
  | .updateState binding .. | .updateReceipt binding .. =>
    binding.messageId = args.envelope.messageId ∧ ∀ row ∈ watch.row, row.binding = binding
  | .sleep seconds => args.isPrompt = true → seconds.isShort = true
  | _ => True

/-- What a store that works and a clock that does not go back reply. -/
def Working (watch : Watch) (op : Op) (reply : Except Exc op.Reply) : Prop :=
  match op, reply with
  | .updateState .., reply | .updateReceipt .., reply => watch.row.isSome = true → reply = .ok (1 : ℕ)
  | .nowIso, reply => ∃ text : Str, reply = .ok text ∧ encodable text = true
  | .monotonic, reply => ∃ time : ℚ, reply = .ok time ∧ watch.clock ≤ time
  | .sleep seconds, reply =>
    (∃ duration, seconds = .finite duration ∧ reply = .ok ()) ∨ (seconds.isShort = false ∧ ∃ e, reply = .error e)
  | _, _ => True

/-- A run that keeps account. -/
def watching (args : Arguments) : Protocol Calls Exc Watch := ⟨OwnRow args, Working, Watch.after args⟩

/-- What a run knows. -/
structure Watch.Knows (args : Arguments) (watch : Watch) (w : World) : Prop where
  row : ∀ row ∈ watch.row, w.rows args.envelope.messageId = some row
  clock : watch.clock ≤ w.clock

/-- What others may do: they leave a row of the message as it is, and time goes on. -/
structure Others (messageId : Str) (w w' : World) : Prop where
  row : ∀ row, w.rows messageId = some row → w'.rows messageId = some row
  clock : w.clock ≤ w'.clock

theorem Watch.Knows.others {watch : Watch} {w w' : World} (h : watch.Knows args w) (ho : Others args.envelope.messageId w w') :
    watch.Knows args w' :=
  ⟨fun row hrow => ho.row row (h.row row hrow), h.clock.trans ho.clock⟩

/-- A store that works for a message among others. -/
abbrev Store (messageId : Str) : Environment Calls Exc World := Amid (Others messageId) (Workstation ⟨False, False⟩)

theorem Watch.Knows.update {watch : Watch} {w w' : World} (h : watch.Knows args w) {binding : Binding} {change : Operation → Operation}
    {reply : Except Exc ℕ} (hbinding : binding.messageId = args.envelope.messageId) (hrow : ∀ row ∈ watch.row, row.binding = binding)
    (hcall : Changes False reply w w' (w.update binding change)) (hchange : ∀ row, (change row).messageId = row.messageId) :
    (watch.row.isSome = true → reply = .ok 1) ∧ (∀ row ∈ watch.row.map change, w'.rows args.envelope.messageId = some row) ∧
      w.clock ≤ w'.clock := by
  cases reply with
  | error e => exact hcall.1.elim
  | ok count =>
    rcases w.update_eq binding change with ⟨hnone, heq⟩ | ⟨row, hfound, hbound, heq⟩
    · obtain ⟨rfl, rfl⟩ := Prod.mk.inj (hcall.trans heq)
      cases hwatched : watch.row with
      | none => exact ⟨nofun, nofun, le_rfl⟩
      | some row =>
        have hbound := hrow row hwatched
        have hheld := h.row row hwatched
        rw [World.bound, hbinding, hheld, Option.filter_some, if_pos (decide_eq_true hbound)] at hnone
        cases hnone
    · obtain ⟨rfl, rfl⟩ := Prod.mk.inj (hcall.trans heq)
      refine ⟨fun _ => rfl, fun row' hrow' => ?_, le_rfl⟩
      obtain ⟨held, hheld, rfl⟩ := Option.map_eq_some_iff.mp hrow'
      have hsame := h.row held hheld
      rw [← hbinding, hfound] at hsame
      obtain rfl := Option.some.inj hsame
      have hid : (change row).messageId = args.envelope.messageId := by
        rw [hchange, ← hbinding, ← hbound]
        rfl
      rw [← hid]
      exact World.put_self w _

theorem watching_knows {watch : Watch} {op : Op} {w w' : World} {reply : Except Exc op.Reply} (h : watch.Knows args w)
    (hown : OwnRow args watch op) (hcall : Store args.envelope.messageId op w reply w') :
    Working watch op reply ∧ (watch.after args op reply).Knows args w' := by
  obtain ⟨w, ho, hcall⟩ := hcall
  replace h := h.others ho
  cases op with
  | insert row =>
    refine ⟨trivial, ?_⟩
    simp only [Workstation] at hcall
    split at hcall
    · cases reply with
      | error e => exact hcall.1.elim
      | ok _ =>
        obtain ⟨-, rfl⟩ := Prod.mk.inj hcall
        refine ⟨fun row' hrow' => ?_, h.clock⟩
        obtain rfl := Option.some.inj hrow'
        rw [← show row.messageId = args.envelope.messageId from hown]
        exact World.put_self w row
    · obtain ⟨rfl, hnot⟩ := hcall
      cases reply with
      | error e => exact ⟨h.row, h.clock⟩
      | ok _ => cases hnot
  | updateState binding state updatedAt =>
    have hchanges : Changes False reply w w' (w.update binding fun row => { row with state, updatedAt }) := hcall
    obtain ⟨hreply, hrow, hclock⟩ := h.update hown.1 hown.2 hchanges fun _ => rfl
    exact ⟨hreply, by cases reply <;> exact hrow, by cases reply <;> exact h.clock.trans hclock⟩
  | updateReceipt binding state json updatedAt =>
    have hchanges : Changes False reply w w' (w.update binding fun row => { row with state, receiptJson := some json, updatedAt }) :=
      hcall
    obtain ⟨hreply, hrow, hclock⟩ := h.update hown.1 hown.2 hchanges fun _ => rfl
    exact ⟨hreply, by cases reply <;> exact hrow, by cases reply <;> exact h.clock.trans hclock⟩
  | nowIso =>
    cases reply with
    | error e => exact hcall.elim
    | ok text =>
      obtain ⟨rfl, htext⟩ := hcall
      exact ⟨⟨text, rfl, htext⟩, h.row, h.clock⟩
  | monotonic =>
    cases reply with
    | error e => exact hcall.elim
    | ok time =>
      obtain ⟨rfl, hle | hback⟩ := hcall
      · exact ⟨⟨time, rfl, h.clock.trans hle⟩, h.row, le_rfl⟩
      · exact hback.elim
  | sleep seconds =>
    cases reply with
    | error e =>
      obtain ⟨hlong, rfl⟩ := hcall
      exact ⟨.inr ⟨hlong, e, rfl⟩, by cases seconds <;> exact h.row, by cases seconds <;> exact h.clock⟩
    | ok _ =>
      obtain ⟨duration, time, rfl, -, rfl, hle | hback⟩ := hcall
      · exact ⟨.inl ⟨duration, rfl, rfl⟩, h.row, (add_le_add_left h.clock duration).trans hle⟩
      · exact hback.elim
  | select messageId =>
    cases reply with
    | error e => exact hcall.1.elim
    | ok found =>
      obtain ⟨-, rfl⟩ := Prod.mk.inj hcall
      exact ⟨trivial, h.row, h.clock⟩
  | submit messageId handle token =>
    obtain rfl : w' = { w with submits := messageId :: w.submits } := by cases reply <;> exact hcall
    exact ⟨trivial, by cases reply <;> exact h.row, by cases reply <;> exact h.clock⟩
  | verify _ | discover _ | activate _ _ | snapshot _ _ | populate _ _ _ | readRendered _ _ _ | waitForAck _ _ _ _ =>
    obtain rfl : w' = w := by cases reply <;> exact hcall
    exact ⟨trivial, by cases reply <;> exact h.row, by cases reply <;> exact h.clock⟩

/-! ### The way of a run that holds a row -/

/-- What a run that has an open row has noted and left. -/
structure Going (binding : Binding) (watch : Watch) (a : Attempt) : Prop where
  row : ∃ row ∈ watch.row, row.binding = binding ∧ row.receiptJson = none ∧
    ∃ state : RelayState, state.terminal = false ∧ row.state = state.text
  writable : a.Writable
  clean : watch.clean = a.sound

/-- The same of a run that ends. -/
structure Held (binding : Binding) (watch : Watch) (a : Attempt) : Prop extends Going binding watch a where
  kept : watch.isLost = false

/-- How a run leaves its row: with the receipt that it returns, if all replies were clean and it is not lost in
its readback, and else open, with an error. -/
inductive Settled (py : Interpreter Empty) (watch : Watch) : Except Exc RelayReceipt → Prop where
  | free {result : Except Exc RelayReceipt} : watch.row = none → Settled py watch result
  | stored {receipt : RelayReceipt} {json : Str} {row : Operation} : watch.row = some row → watch.clean = true →
      watch.isLost = false → receipt.encode py = .ok json → row.receiptJson = some json → row.state = receipt.finalState →
      Terminal row.state → Settled py watch (.ok receipt)
  | stranded {e : Exc} {row : Operation} : watch.row = some row → watch.clean = false ∨ watch.isLost = true →
      row.receiptJson = none → ¬ Terminal row.state → Settled py watch (.error e)

theorem Going.stranded {binding : Binding} {watch watch' : Watch} (h : Going binding watch a) (hrow : watch'.row = watch.row)
    (hwhy : watch'.clean = false ∨ watch'.isLost = true) (e : Exc) : Settled py watch' (.error e) := by
  obtain ⟨row, hheld, -, hjson, state, hopen, hstate⟩ := h.row
  exact .stranded (hrow.trans hheld) hwhy hjson (hstate ▸ not_terminal hopen)

theorem Going.unclean {binding : Binding} {watch : Watch} (h : Going binding watch a) (e : Exc) :
    Settled py { watch with clean := false } (.error e) := by
  refine h.stranded ?_ (.inl ?_) e <;> rfl

/-- A call that is no statement changes nothing of the row. -/
theorem Going.told {binding : Binding} {watch watch' : Watch} (h : Going binding watch a) (hrow : watch'.row = watch.row)
    (hclean : watch'.clean = watch.clean) : Going binding watch' a :=
  ⟨hrow ▸ h.row, h.writable, hclean ▸ h.clean⟩

theorem Held.isLost_matched {binding : Binding} {watch : Watch} (h : Held binding watch a) (shown : Bool) :
    Watch.isLost { watch with matched := shown || watch.matched } = false := by
  have hkept := h.kept
  rw [Watch.isLost] at hkept ⊢
  cases shown with
  | true => exact Bool.and_false _
  | false => exact hkept

theorem Held.told {binding : Binding} {watch watch' : Watch} (h : Held binding watch a) (hrow : watch'.row = watch.row)
    (hclean : watch'.clean = watch.clean) (hkept : watch'.isLost = watch.isLost) : Held binding watch' a :=
  ⟨h.toGoing.told hrow hclean, hkept.trans h.kept⟩

/-- The replies told nothing new. -/
structure Watch.Like (watch watch' : Watch) : Prop where
  clean : watch'.clean = watch.clean
  endless : watch'.endless = watch.endless
  matched : watch'.matched = watch.matched

theorem Held.along {binding : Binding} {watch watch' : Watch} {a' : Attempt} (h : Held binding watch a) (hlike : watch.Like watch')
    (h' : Going binding watch' a') : Held binding watch' a' :=
  ⟨h', by rw [Watch.isLost, hlike.endless, hlike.matched]; exact h.kept⟩

/-- What is noted changes nothing of the row. -/
theorem Going.noted {binding : Binding} {watch : Watch} {a' : Attempt} (h : Going binding watch a) (hwritable : a'.Writable)
    (hsound : a'.sound = a.sound) : Going binding watch a' := ⟨h.row, hwritable, h.clean.trans hsound.symm⟩

theorem Held.noted {binding : Binding} {watch : Watch} {a' : Attempt} (h : Held binding watch a) (hwritable : a'.Writable)
    (hsound : a'.sound = a.sound) : Held binding watch a' := ⟨h.toGoing.noted hwritable hsound, h.kept⟩

/-- What is bound to a statement of a run encodes. -/
theorem encodable_bound {binding : Binding} (hb : bindingOf py args.envelope = .ok binding) :
    [binding.messageId, binding.nonce, binding.envelopeSha256].all encodable = true ∧ binding.messageId = args.envelope.messageId := by
  have hall := encodable_of_binding hb
  obtain ⟨sha256, -, rfl⟩ := except_map_ok.mp hb
  simp only [List.all_cons, List.all_nil, Bool.and_true, Bool.and_eq_true] at hall
  simp [hall, encodable_lit]

variable {binding : Binding} {watch : Watch}

theorem encodable_text (state : RelayState) : encodable state.text = true := encodable_lit _

theorem setField_writable {times : List (Str × Str)} {time : Str} (h : ∀ time ∈ times, encodable time.1 = true ∧ encodable time.2 = true)
    (state : RelayState) (htime : encodable time = true) :
    ∀ time' ∈ setField times state.text time, encodable time'.1 = true ∧ encodable time'.2 = true := by
  intro time' hmem
  unfold setField at hmem
  split at hmem
  · obtain ⟨old, hold, rfl⟩ := List.mem_map.mp hmem
    split
    · exact ⟨encodable_text state, htime⟩
    · exact h old hold
  · rcases List.mem_append.mp hmem with hmem | hmem
    · exact h time' hmem
    · obtain rfl := List.mem_singleton.mp hmem
      exact ⟨encodable_text state, htime⟩

theorem Going.reached {state : RelayState} {time : Str} (h : Going binding watch a) (htime : encodable time = true) :
    Going binding watch (a.reached state time) :=
  h.noted ⟨setField_writable h.writable.times state htime, h.writable.prewrite, h.writable.presubmit, h.writable.ackBody⟩ rfl

/-- A time that is asked for is told, and encodes. -/
theorem watching_nowIso : Obeys (watching args) watch nowIso (Obeys.Sure fun watch' time => watch' = watch ∧ encodable time = true) := by
  refine Obeys.ask trivial ?_
  rintro _ ⟨time, rfl, htime⟩
  exact ⟨time, rfl, rfl, htime⟩

theorem watching_setState (hb : bindingOf py args.envelope = .ok binding) {state : RelayState} (hopen : state.terminal = false)
    {updatedAt : Str} (htime : encodable updatedAt = true) (h : Going binding watch a) :
    Obeys (watching args) watch (setState binding state.text updatedAt)
      (Obeys.Sure fun watch' _ => Going binding watch' a ∧ watch.Like watch') := by
  obtain ⟨hbound, hid⟩ := encodable_bound hb
  obtain ⟨row, hrow, hbinding, hjson, -⟩ := h.row
  refine Obeys.sure_bind
    (R := fun watch' count => count = (1 : ℕ) ∧ Going binding watch' a ∧ watch.Like watch')
    (obeys_execute ⟨hid, fun row' hrow' => ?_⟩ (fun hnot => ?_) fun reply hreply => ?_) ?_
  · obtain rfl := Option.some.inj (hrow.symm.trans hrow')
    exact hbinding
  · rw [List.all_cons, List.all_cons, encodable_text, htime, hbound] at hnot
    cases hnot
  · obtain rfl := hreply (by rw [hrow]; rfl)
    refine ⟨1, rfl, rfl, ⟨?_, h.writable, h.clean⟩, ⟨rfl, rfl, rfl⟩⟩
    exact ⟨_, Option.mem_map_of_mem _ hrow, hbinding, hjson, state, hopen, rfl⟩
  · rintro watch' _ ⟨rfl, h'⟩
    exact Obeys.refuseIf (fun hne => absurd rfl hne) fun _ => ⟨⟨⟩, rfl, h'⟩

theorem watching_advance (hb : bindingOf py args.envelope = .ok binding) {state : RelayState} (hopen : state.terminal = false)
    (h : Going binding watch a) :
    Obeys (watching args) watch (advance py args state a)
      (Obeys.Sure fun watch' a' => Going binding watch' a' ∧ watch.Like watch') := by
  refine Obeys.sure_bind (Obeys.sure_lift hb) ?_
  rintro _ _ ⟨rfl, rfl⟩
  refine Obeys.sure_bind watching_nowIso ?_
  rintro _ updatedAt ⟨rfl, htime⟩
  refine Obeys.sure_bind (watching_setState hb hopen htime h) ?_
  rintro watch' _ ⟨h', hlike⟩
  refine Obeys.sure_bind watching_nowIso ?_
  rintro _ time ⟨rfl, htime⟩
  exact Obeys.sure_pure ⟨h'.reached htime, hlike⟩

theorem watching_close (h : Held binding watch a) (final : RelayState) :
    Obeys (watching args) watch (close final a) (Obeys.Sure fun watch' a' => watch' = watch ∧ Held binding watch' a') := by
  unfold close
  split
  · exact Obeys.sure_pure ⟨rfl, h⟩
  · refine Obeys.sure_bind watching_nowIso ?_
    rintro _ time ⟨rfl, htime⟩
    exact Obeys.sure_pure ⟨rfl, h.toGoing.reached htime, h.kept⟩

/-- A statement is not run if a text that it binds does not encode. -/
theorem obeys_execute_raises {φ : Type} {protocol : Protocol Calls Exc φ} {phase : φ} {bound : List Str} {op : Op}
    {Q : φ → Except Exc op.Reply → Prop} (hbound : bound.all encodable = false)
    (h : Q phase (.error (.raised .unicodeEncodeError))) : Obeys protocol phase (execute bound op) Q := by
  refine Obeys.bind (R := fun phase' r => phase' = phase ∧ r = .error (.raised .unicodeEncodeError))
    (Obeys.refuseIf (fun _ => ⟨rfl, rfl⟩) fun hnot => absurd hbound hnot) (by rintro _ _ ⟨-, ⟨⟩⟩) ?_
  rintro _ _ ⟨rfl, ⟨⟩⟩
  exact h

theorem watching_finalize (hstack : Stacked py) (hb : bindingOf py args.envelope = .ok binding) {final : RelayState}
    (hfinal : final.terminal = true) {updatedAt : Str} (htime : encodable updatedAt = true) (h : Held binding watch a) :
    Obeys (watching args) watch (finalize py binding (a.receipt args.envelope final) updatedAt) fun watch' r =>
      Settled py watch' (r.map fun _ => a.receipt args.envelope final) := by
  obtain ⟨hbound, hid⟩ := encodable_bound hb
  obtain ⟨row, hrow, hbinding, -⟩ := h.row
  obtain ⟨hwrites, hstrands⟩ := encode_receipt hstack hb h.writable final
  have hstate : (a.receipt args.envelope final).finalState = final.text := rfl
  cases hsound : a.sound with
  | false =>
    have hclean := h.clean.trans hsound
    refine Obeys.still_bind Obeys.still_lift (h.stranded rfl (.inl hclean)) fun json hjson => ?_
    refine Obeys.still_bind (R := fun _ => False) (obeys_execute_raises ?_ (Obeys.still_error _))
      (h.stranded rfl (.inl hclean)) fun count hfalse => hfalse.elim
    rw [List.all_cons, List.all_cons, hstrands hsound json hjson, Bool.false_and, Bool.and_false]
  | true =>
    obtain ⟨json, hjson, hencodes⟩ := hwrites hsound
    refine Obeys.sure_bind (Obeys.sure_lift hjson) ?_
    rintro _ _ ⟨rfl, rfl⟩
    refine Obeys.sure_bind (R := fun watch' count => count = (1 : ℕ) ∧ Settled py watch' (.ok (a.receipt args.envelope final)))
      (obeys_execute ⟨hid, fun row' hrow' => ?_⟩ (fun hnot => ?_) fun reply hreply => ?_) ?_
    · obtain rfl := Option.some.inj (hrow.symm.trans hrow')
      exact hbinding
    · rw [List.all_cons, List.all_cons, List.all_cons, hstate, encodable_text, hencodes, htime, hbound] at hnot
      cases hnot
    · obtain rfl := hreply (by rw [hrow]; rfl)
      exact ⟨1, rfl, rfl, .stored (Option.mem_map_of_mem _ hrow) (h.clean.trans hsound) h.kept hjson rfl rfl ⟨final, hfinal, rfl⟩⟩
    · rintro watch' _ ⟨rfl, hsettled⟩
      exact Obeys.refuseIf (fun hne => absurd rfl hne) fun _ => hsettled

theorem watching_finish (hstack : Stacked py) (hb : bindingOf py args.envelope = .ok binding) {final : RelayState}
    (hfinal : final.terminal = true) (h : Held binding watch a) :
    Obeys (watching args) watch (finish py args final a) (Settled py) := by
  refine Obeys.sure_bind (watching_close h final) ?_
  rintro _ a' ⟨rfl, h'⟩
  refine Obeys.sure_bind (Obeys.sure_lift hb) ?_
  rintro _ _ ⟨rfl, rfl⟩
  refine Obeys.sure_bind watching_nowIso ?_
  rintro _ updatedAt ⟨rfl, htime⟩
  exact Obeys.bind (watching_finalize hstack hb hfinal htime h') (fun _ _ hsettled => Obeys.pure hsettled)
    fun _ _ hsettled => hsettled

/-! ### Digests -/

theorem digest_encodable (text : Str) :
    (encodable text = true → ∃ sha256, digest py text = .ok sha256) ∧ (encodable text = false → ∃ e, digest py text = .error e) := by
  unfold digest
  cases hbytes : encodeText text with
  | ok bytes =>
    have hencodes : encodable text = true := encodeText_ok.mp ⟨bytes, hbytes⟩
    exact ⟨fun _ => ⟨_, rfl⟩, fun hnot => by rw [hencodes] at hnot; cases hnot⟩
  | error e =>
    refine ⟨fun hencodes => ?_, fun _ => ⟨_, rfl⟩⟩
    obtain ⟨bytes, hok⟩ := encodeText_ok.mpr hencodes
    rw [hbytes] at hok
    cases hok

/-- A snapshot has a digest exactly if its texts encode. -/
theorem selectorDigest_encodable (hstack : Stacked py) (snapshot : TargetSnapshot) {encodes : Bool}
    (h : (encodable snapshot.normalizedUrlPath && encodable snapshot.visibleIdentity && snapshot.targetToken.all encodable) = encodes) :
    (encodes = true → ∃ sha256, snapshot.selectorDigest py = .ok sha256) ∧
      (encodes = false → ∃ e, snapshot.selectorDigest py = .error e) := by
  have hjson : (Value.object [(lit "normalized_url_path", .str snapshot.normalizedUrlPath),
      (lit "visible_identity", .str snapshot.visibleIdentity),
      (lit "target_token", optionalValue snapshot.targetToken)] : Value Empty).isJson = true := by
    simp [Value.isJson, Value.all, Value.allFields, isJson_optionalValue]
  rcases dumps_json py canonicalFormat ⟨encodable_lit _, encodable_lit _⟩ hjson with ⟨hnot, -⟩ | ⟨-, text, hdumps, htext⟩
  · rw [hstack.selector] at hnot
    cases hnot
  · have hencodes : encodable text = encodes := by
      rw [htext, ← h]
      simp [canonicalFormat, Value.encodable, Value.all, Value.allFields, encodable_lit, encodable_optionalValue, Bool.and_assoc]
    rw [TargetSnapshot.selectorDigest, hdumps, ← hencodes]
    exact digest_encodable text

/-! ### The stages -/

/-- A call of the verifier or the target, whose exceptions are caught. -/
theorem watching_tryAsk {op : Op} (hop : op.outward = true) :
    Obeys (watching args) watch (tryAsk op) (Obeys.Sure fun watch' taken =>
      ∃ reply, taken = reply.toOption ∧ watch' = watch.told args op reply) := by
  cases op with
  | verify _ | discover _ | activate _ _ | snapshot _ _ | populate _ _ _ | submit _ _ _ | readRendered _ _ _ | waitForAck _ _ _ _ =>
    exact obeys_tryAsk trivial fun reply _ => ⟨_, rfl, reply, rfl, by cases reply <;> rfl⟩
  | select _ | insert _ | updateState _ _ _ | updateReceipt _ _ _ _ | nowIso | monotonic | sleep _ => cases hop

/-- A text that was replied is digested, and what goes on with it. -/
theorem watching_digest {text : Option Str} {read : Option Str → Except Exc Attempt} {note : Str → Hex 64 → Attempt}
    {next : Attempt → Program RelayReceipt} {a : Attempt} {P : Attempt → Prop} (hgoing : Going binding watch a) (h : P a)
    (hnone : read none = .ok a) (hsome : ∀ text, read (some text) = (digest py text).map (note text))
    (hnote : ∀ text sha256, encodable text = true → P (note text sha256))
    (hnext : ∀ a', P a' → Obeys (watching args) watch (next a') (Settled py)) :
    Obeys (watching args) { watch with clean := text.all encodable && watch.clean } (Prog.lift (read text) >>= next)
      (Settled py) := by
  cases text with
  | none =>
    refine Obeys.sure_bind (Obeys.sure_lift hnone) ?_
    rintro _ _ ⟨rfl, rfl⟩
    exact hnext _ h
  | some text =>
    rw [Option.all_some]
    cases hencodes : encodable text with
    | false =>
      obtain ⟨e, he⟩ : ∃ e, digest py text = .error e := (digest_encodable text).2 hencodes
      rw [hsome, he]
      exact hgoing.unclean e
    | true =>
      obtain ⟨sha256, hsha256⟩ : ∃ sha256, digest py text = .ok sha256 := (digest_encodable text).1 hencodes
      refine Obeys.sure_bind (Obeys.sure_lift (a := note text sha256) ?_) ?_
      · rw [hsome, hsha256]
        rfl
      · rintro _ _ ⟨rfl, rfl⟩
        exact hnext _ (hnote text sha256 hencodes)

/-- A snapshot is digested, and what goes on with its selectors. -/
theorem watching_selectors (hstack : Stacked py) {handle : ℤ} {token : Option Str} {snapshot : TargetSnapshot}
    {next : Hex 64 → Program RelayReceipt} {a : Attempt} (h : Held binding watch a)
    (hnext : ∀ selectorDigest, encodable snapshot.normalizedUrlPath = true ∧ encodable snapshot.visibleIdentity = true →
      Obeys (watching args) watch (next selectorDigest) (Settled py)) :
    Obeys (watching args) (watch.told args (.snapshot handle token) (.ok snapshot))
      (Prog.lift (snapshot.selectorDigest py) >>= next) (Settled py) := by
  obtain ⟨hdigest, hnone⟩ := selectorDigest_encodable hstack snapshot rfl
  have htold : watch.told args (.snapshot handle token) (.ok snapshot) =
      { watch with clean := clean args (.snapshot handle token) (.ok snapshot) && watch.clean } := rfl
  rw [htold]
  cases hencodes : clean args (.snapshot handle token) (.ok snapshot) with
  | false =>
    obtain ⟨e, he⟩ := hnone hencodes
    rw [he]
    exact h.unclean e
  | true =>
    obtain ⟨selectorDigest, hselectors⟩ := hdigest hencodes
    have htexts : (encodable snapshot.normalizedUrlPath && encodable snapshot.visibleIdentity &&
        snapshot.targetToken.all encodable) = true := hencodes
    rw [Bool.and_eq_true, Bool.and_eq_true] at htexts
    refine Obeys.sure_bind (Obeys.sure_lift hselectors) ?_
    rintro _ _ ⟨rfl, rfl⟩
    exact hnext _ htexts.1

/-- What is read is told, with or without a match. -/
theorem told_readRendered {handle : ℤ} {token : Option Str} {messageId : Str} (watch : Watch)
    (reply : Except Exc (Op.readRendered handle token messageId).Reply) :
    watch.told args (.readRendered handle token messageId) reply =
      { watch with
        matched := renderedMatches args.envelope reply.toOption.join || watch.matched
        clean := reply.toOption.join.all encodable && watch.clean } := by
  rcases reply with _ | _ | _ <;> rfl

/-- The digest of a text that is read is noted. -/
theorem Going.readBack {sha256 : Hex 64} (h : Going binding watch a) :
    Going binding watch { a with renderedSha256 := some sha256 } :=
  h.noted ⟨h.writable.times, h.writable.prewrite, h.writable.presubmit, h.writable.ackBody⟩ rfl

theorem watching_monotonic : Obeys (watching args) watch (Prog.ask (I := Calls) .monotonic)
    (Obeys.Sure fun watch' (now : ℚ) => watch' = { watch with clock := now } ∧ watch.clock ≤ now) := by
  refine Obeys.ask trivial ?_
  rintro _ ⟨now, rfl, hnow⟩
  exact ⟨now, rfl, rfl, hnow⟩

/-- A sleep that raises strands the row. -/
theorem watching_sleep {seconds : Seconds} {next : Program RelayReceipt} (h : Going binding watch a)
    (hprompt : args.isPrompt = true → seconds.isShort = true)
    (hnext : ∀ duration, seconds = .finite duration →
      Obeys (watching args) { watch with clock := watch.clock + duration } next (Settled py)) :
    Obeys (watching args) watch (do Prog.ask (I := Calls) (.sleep seconds); next) (Settled py) := by
  refine Obeys.bind (R := fun watch' r => (∃ duration, seconds = .finite duration ∧ r = .ok () ∧
      watch' = { watch with clock := watch.clock + duration }) ∨
      ∃ e, r = .error e ∧ watch' = { watch with clean := false }) (Obeys.ask hprompt ?_) ?_ ?_
  · rintro _ (⟨duration, rfl, rfl⟩ | ⟨-, e, rfl⟩)
    · exact .inl ⟨duration, rfl, rfl, rfl⟩
    · exact .inr ⟨e, rfl, by cases seconds <;> rfl⟩
  · rintro _ _ (⟨duration, hduration, -, rfl⟩ | ⟨_, ⟨⟩, -⟩)
    exact hnext duration hduration
  · rintro _ e (⟨_, _, ⟨⟩, -⟩ | ⟨_, -, rfl⟩)
    exact h.unclean e

section Stages

variable (hstack : Stacked py) (hb : bindingOf py args.envelope = .ok binding)

include hstack hb

theorem watching_acknowledge (h : Held binding watch a) :
    Obeys (watching args) watch (acknowledge py args selected a) (Settled py) := by
  refine Obeys.sure_bind (watching_tryAsk rfl) ?_
  rintro _ _ ⟨reply, rfl, rfl⟩
  have htold : watch.told args
      (.waitForAck selected.windowHandle selected.targetToken args.envelope.messageId args.ackTimeoutSeconds) reply =
        { watch with clean := reply.toOption.join.all encodable && watch.clean } := by
    rcases reply with _ | _ | _ <;> rfl
  rw [htold]
  refine watching_digest h.toGoing h rfl (fun _ => rfl) (fun text sha256 hencodes => ?_) fun a' h' => ?_
  · refine h.noted ⟨h.writable.times, h.writable.prewrite, h.writable.presubmit, ?_⟩ rfl
    rintro _ ⟨⟩
    exact hencodes
  · have hstatus (status : Option AckReading) : Held binding watch { a' with ackStatus := status } :=
      h'.noted ⟨h'.writable.times, h'.writable.prewrite, h'.writable.presubmit, h'.writable.ackBody⟩ rfl
    split
    · exact watching_finish hstack hb rfl h'
    · exact watching_finish hstack hb rfl (hstatus _)
    · exact watching_finish hstack hb rfl (hstatus _)
    · exact watching_finish hstack hb rfl (hstatus _)

/-- The text that was read matches. -/
theorem watching_shown (h : Held binding watch a) :
    Obeys (watching args) watch
      (do let a ← advance py args .renderedReadbackVerified { a with renderedVerified := true }
          let a ← advance py args .ackPending a
          acknowledge py args selected a) (Settled py) := by
  have hverified : Held binding watch { a with renderedVerified := true } :=
    h.noted ⟨h.writable.times, h.writable.prewrite, h.writable.presubmit, h.writable.ackBody⟩ rfl
  refine Obeys.sure_bind (watching_advance hb rfl hverified.toGoing) ?_
  rintro watch' a' ⟨h', hlike⟩
  replace h' := hverified.along hlike h'
  refine Obeys.sure_bind (watching_advance hb rfl h'.toGoing) ?_
  rintro watch'' a'' ⟨h'', hlike'⟩
  exact watching_acknowledge hstack hb (h'.along hlike' h'')

/-- The readback ends: each time in vain takes a poll off what is left until the deadline. -/
theorem watching_readBack {start timeout poll : ℚ} {polls : ℕ} (hwaits : args.Waits timeout poll) (hpoll : 0 < poll)
    (h : Held binding watch a) (hpolls : polls ≠ 0) (hstart : start ≤ watch.clock)
    (hleft : timeout + start - watch.clock + poll ≤ polls * poll) :
    Obeys (watching args) watch (readBack py args selected (.finite (timeout + start)) polls a) (Settled py) := by
  induction polls generalizing watch a with
  | zero => exact absurd rfl hpolls
  | succ polls ih =>
    rw [Nat.cast_succ] at hleft
    refine Obeys.sure_bind (watching_tryAsk rfl) ?_
    rintro _ _ ⟨reply, rfl, rfl⟩
    rw [told_readRendered]
    have hread : Held binding { watch with matched := renderedMatches args.envelope reply.toOption.join || watch.matched } a :=
      ⟨h.toGoing.told rfl rfl, h.isLost_matched _⟩
    refine watching_digest hread.toGoing hread rfl (fun _ => rfl) (fun text sha256 _ => ⟨hread.toGoing.readBack, hread.kept⟩)
      fun a' h' => ?_
    split
    · exact watching_shown hstack hb h'
    refine Obeys.sure_bind watching_monotonic ?_
    rintro _ now ⟨rfl, hnow⟩
    have hremaining : (Seconds.finite (timeout + start)).add (-now) = .finite (timeout + start - now) := by
      rw [Seconds.add, sub_eq_add_neg]
    rw [hremaining]
    split
    · exact watching_finish hstack hb rfl (h'.told rfl rfl rfl)
    · next hearly =>
      have hearly : 0 < timeout + start - now := not_le.mp fun hle => hearly (decide_eq_true hle)
      have hwithin : timeout + start - now ≤ timeout := by linarith
      obtain ⟨hmin, hshort⟩ := hwaits _ hearly hwithin
      refine watching_sleep (h'.toGoing.told rfl rfl) hshort fun duration hduration => ?_
      obtain rfl : duration = min poll (timeout + start - now) := by
        rcases hmin with hmin | hmin
        · exact Seconds.finite.inj (hduration.symm.trans hmin)
        · rw [hmin] at hduration
          cases hduration
      have hsome : polls ≠ 0 := by
        rintro rfl
        rw [Nat.cast_zero] at hleft
        linarith
      have hone : poll ≤ polls * poll := by
        have hle : (1 : ℚ) ≤ polls := by exact_mod_cast Nat.one_le_iff_ne_zero.mpr hsome
        nlinarith
      have hpositive : 0 < min poll (timeout + start - now) := lt_min hpoll hearly
      refine ih (h'.told rfl rfl rfl) hsome ?_ ?_
      · dsimp only
        linarith
      · dsimp only
        rcases min_choice poll (timeout + start - now) with hmin | hmin <;> rw [hmin] <;> linarith

/-- A readback without a deadline that can be reached ends with a match, or is lost. -/
theorem watching_endless {deadline : Seconds} {polls : ℕ} (hdeadline : deadline = .infinite false ∨ deadline = .nan)
    (hshort : args.isPrompt = true → (args.renderedPollSeconds.min deadline).isShort = true) (h : Going binding watch a)
    (hendless : watch.endless = true) (hmatched : watch.matched = false) :
    Obeys (watching args) watch (readBack py args selected deadline polls a) (Settled py) := by
  have hadd (now : ℚ) : deadline.add (-now) = deadline := by rcases hdeadline with rfl | rfl <;> rfl
  have hspent : deadline.isSpent = false := by rcases hdeadline with rfl | rfl <;> rfl
  induction polls generalizing watch a with
  | zero => exact Obeys.throw (h.stranded rfl (.inr (by rw [Watch.isLost, hendless, hmatched]; rfl)) _)
  | succ polls ih =>
    refine Obeys.sure_bind (watching_tryAsk rfl) ?_
    rintro _ _ ⟨reply, rfl, rfl⟩
    rw [told_readRendered, hmatched, Bool.or_false]
    have hread : Going binding { watch with matched := renderedMatches args.envelope reply.toOption.join } a := h.told rfl rfl
    refine watching_digest hread hread rfl (fun _ => rfl) (fun text sha256 _ => hread.readBack) fun a' h' => ?_
    split
    · next hshown => exact watching_shown hstack hb ⟨h', by rw [Watch.isLost, hshown, Bool.not_true, Bool.and_false]⟩
    · next hnone =>
      rw [Bool.not_eq_true] at hnone
      refine Obeys.sure_bind watching_monotonic ?_
      rintro _ now ⟨rfl, -⟩
      rw [hadd, hspent, if_neg Bool.false_ne_true]
      exact watching_sleep (h'.told rfl rfl) hshort fun duration _ => ih (h'.told rfl rfl) hendless hnone

section Submission

variable (hgoes : args.Goes)

include hgoes

theorem watching_submit (h : Held binding watch a) (hnone : watch.matched = false) :
    Obeys (watching args) watch (submit py args selected a) (Settled py) := by
  refine Obeys.sure_bind (watching_tryAsk rfl) ?_
  rintro _ _ ⟨reply, rfl, rfl⟩
  rcases reply with e | _
  · exact watching_finish hstack hb rfl (h.told rfl rfl rfl)
  have hgoing : Going binding (watch.told args (.submit args.envelope.messageId selected.windowHandle selected.targetToken) (.ok ())) a :=
    h.toGoing.told rfl rfl
  refine Obeys.sure_bind (watching_advance hb rfl hgoing) ?_
  rintro watch' a' ⟨h', hlike⟩
  refine Obeys.sure_bind watching_monotonic ?_
  rintro _ start ⟨rfl, -⟩
  cases hgoes with
  | @toDeadline timeout poll htimeout hpositive hpoll hpolls hwaits =>
    have hfinite : args.renderedReadbackTimeoutSeconds.isFinite = true := by rw [htimeout, Seconds.isFinite]
    have htold : Held binding (watch.told args
        (.submit args.envelope.messageId selected.windowHandle selected.targetToken) (.ok ())) a := by
      refine h.told rfl rfl ?_
      rw [Watch.isLost, Watch.told, hfinite, Bool.not_true, Bool.and_false]
      rfl
    rw [htimeout, Seconds.add]
    refine watching_readBack hstack hb hwaits hpoll ((htold.along hlike h').told rfl rfl rfl) ?_ le_rfl ?_
    · rintro hzero
      rw [hzero, Nat.cast_zero] at hpolls
      linarith
    · dsimp only
      linarith
  | endless hnot hshort =>
    have hfinite : args.renderedReadbackTimeoutSeconds.isFinite = false := by rcases hnot with heq | heq <;> rw [heq] <;> rfl
    have hadd : args.renderedReadbackTimeoutSeconds.add start = args.renderedReadbackTimeoutSeconds := by
      rcases hnot with heq | heq <;> rw [heq] <;> rfl
    have hendless : watch'.endless = true := by rw [hlike.endless, Watch.told, hfinite]; rfl
    rw [hadd]
    exact watching_endless hstack hb hnot hshort (h'.told rfl rfl) hendless (hlike.matched.trans hnone)

theorem watching_reverify (prewrite : Selectors) (h : Held binding watch a) (hnone : watch.matched = false) :
    Obeys (watching args) watch (reverify py args selected prewrite a) (Settled py) := by
  refine Obeys.sure_bind (watching_tryAsk rfl) ?_
  rintro _ _ ⟨reply, rfl, rfl⟩
  rcases reply with e | presubmit
  · exact watching_finish hstack hb rfl (h.told rfl rfl rfl)
  refine watching_selectors hstack h fun selectorDigest htexts => ?_
  have hnoted : Held binding watch
      { a with presubmit := some ⟨presubmit.normalizedUrlPath, presubmit.visibleIdentity, selectorDigest⟩ } := by
    refine h.noted ⟨h.writable.times, h.writable.prewrite, ?_, h.writable.ackBody⟩ rfl
    rintro _ ⟨⟩
    exact htexts
  dsimp only
  split
  · exact watching_finish hstack hb rfl hnoted
  · refine Obeys.sure_bind (watching_advance hb rfl hnoted.toGoing) ?_
    rintro watch' a' ⟨h', hlike⟩
    exact watching_submit hstack hb hgoes (hnoted.along hlike h') (hlike.matched.trans hnone)

theorem watching_populate (prewrite : Selectors) (h : Held binding watch a) (hnone : watch.matched = false) :
    Obeys (watching args) watch (populate py args selected prewrite a) (Settled py) := by
  refine Obeys.sure_bind (watching_tryAsk rfl) ?_
  rintro _ _ ⟨reply, rfl, rfl⟩
  rcases reply with e | _
  · exact watching_finish hstack hb rfl (h.told rfl rfl rfl)
  have htold : Held binding (watch.told args
      (.populate selected.windowHandle selected.targetToken (transportText args.envelope)) (.ok ())) a := h.told rfl rfl rfl
  refine Obeys.sure_bind (watching_advance hb rfl htold.toGoing) ?_
  rintro watch' a' ⟨h', hlike⟩
  exact watching_reverify hstack hb hgoes prewrite (htold.along hlike h') (hlike.matched.trans hnone)

theorem watching_verifyPrewrite (h : Held binding watch a) (hnone : watch.matched = false) :
    Obeys (watching args) watch (verifyPrewrite py args selected a) (Settled py) := by
  refine Obeys.sure_bind (watching_tryAsk rfl) ?_
  rintro _ _ ⟨reply, rfl, rfl⟩
  rcases reply with e | prewrite
  · exact watching_finish hstack hb rfl (h.told rfl rfl rfl)
  refine watching_selectors hstack h fun selectorDigest htexts => ?_
  have hnoted : Held binding watch
      { a with prewrite := some ⟨prewrite.normalizedUrlPath, prewrite.visibleIdentity, selectorDigest⟩ } := by
    refine h.noted ⟨h.writable.times, ?_, h.writable.presubmit, h.writable.ackBody⟩ rfl
    rintro _ ⟨⟩
    exact htexts
  dsimp only
  split
  · exact watching_finish hstack hb rfl hnoted
  · refine Obeys.sure_bind (watching_advance hb rfl hnoted.toGoing) ?_
    rintro watch' a' ⟨h', hlike⟩
    exact watching_populate hstack hb hgoes _ (hnoted.along hlike h') (hlike.matched.trans hnone)

theorem watching_activate (h : Held binding watch a) (hnone : watch.matched = false) :
    Obeys (watching args) watch (activate py args selected a) (Settled py) := by
  refine Obeys.sure_bind (watching_tryAsk rfl) ?_
  rintro _ _ ⟨reply, rfl, rfl⟩
  rcases reply with e | _
  · exact watching_finish hstack hb rfl (h.told rfl rfl rfl)
  · exact watching_verifyPrewrite hstack hb hgoes (h.told rfl rfl rfl) hnone

/-- The target that is found may make the receipt one that cannot be written. -/
theorem watching_discover (h : Held binding watch a) (hclean : watch.clean = true) (hnone : watch.matched = false) :
    Obeys (watching args) watch (discover py args a) (Settled py) := by
  refine Obeys.sure_bind (watching_tryAsk rfl) ?_
  rintro _ _ ⟨reply, rfl, rfl⟩
  rcases reply with e | (items : List TargetSnapshot)
  · exact watching_finish hstack hb rfl (h.told rfl rfl rfl)
  have htold : watch.told args (.discover args.descriptor) (.ok items) =
      { watch with clean := cleanFound (items.filter (·.matches args.descriptor)) } := by
    rw [Watch.told, clean, hclean, Bool.and_true]
    rfl
  rw [htold]
  dsimp only [Except.toOption]
  split
  · next hnothing =>
    rw [hnothing]
    exact watching_finish hstack hb rfl (h.told rfl hclean.symm rfl)
  · next selected hselected =>
    have hsound : cleanFound [selected] = (a.found selected).sound := by
      rw [cleanFound, Attempt.sound, Attempt.found, Option.all_some]
    rw [hselected]
    have hfound : Held binding { watch with clean := cleanFound [selected] } (a.found selected) :=
      ⟨⟨h.row, ⟨h.writable.times, h.writable.prewrite, h.writable.presubmit, h.writable.ackBody⟩, hsound⟩, h.kept⟩
    refine Obeys.sure_bind (watching_advance hb rfl hfound.toGoing) ?_
    rintro watch' a' ⟨h', hlike⟩
    exact watching_activate hstack hb hgoes (hfound.along hlike h') (hlike.matched.trans hnone)
  · next found hnothing hone =>
    have hclear : cleanFound (items.filter (·.matches args.descriptor)) = true := by
      rw [cleanFound.eq_def]
      split
      · next selected hselected => exact absurd hselected (hone selected)
      · rfl
    rw [hclear]
    exact watching_finish hstack hb rfl (h.told rfl hclean.symm rfl)

theorem watching_perform (h : Held binding watch a) (hclean : watch.clean = true) (hnone : watch.matched = false) :
    Obeys (watching args) watch (perform py args a) (Settled py) := by
  refine Obeys.sure_bind (watching_tryAsk rfl) ?_
  rintro _ _ ⟨reply, rfl, rfl⟩
  have htold : watch.told args (.verify args.envelope) reply = watch := by cases reply <;> rfl
  rw [htold]
  split
  · refine Obeys.sure_bind (watching_advance hb rfl h.toGoing) ?_
    rintro watch' a' ⟨h', hlike⟩
    exact watching_discover hstack hb hgoes (h.along hlike h') (hlike.clean.trans hclean) (hlike.matched.trans hnone)
  · exact watching_finish hstack hb rfl h

end Submission

end Stages

/-! ### The run -/

/-- Nothing was told so far. -/
structure Watch.Untold (watch : Watch) : Prop where
  clean : watch.clean = true
  endless : watch.endless = false
  matched : watch.matched = false

/-- Whether a claim has left a row, and the row that it has left. -/
def Opened (binding : Binding) (watch : Watch) (result : Except Exc (Bool × Str × Option RelayReceipt)) : Prop :=
  (watch.row = none ∧ ∀ claimed, result = .ok claimed → claimed.1 = false) ∨
    (∃ claimed, result = .ok claimed ∧ claimed.1 = true) ∧ watch.Untold ∧
      ∃ row ∈ watch.row, row.binding = binding ∧ row.receiptJson = none ∧ row.state = RelayState.created.text

theorem opened_error {watch : Watch} (h : watch.row = none) (e : Exc) : Opened binding watch (.error e) :=
  .inl ⟨h, by rintro claimed ⟨⟩⟩

theorem watching_claimFound {watch : Watch} (h : watch.row = none) (row : Operation) :
    Obeys (watching args) watch (claimFound decoder binding row) (Opened binding) := by
  refine Obeys.bind (R := fun watch' _ => watch'.row = none) (Obeys.refuseIf (fun _ => h) fun _ => h) (fun watch' _ h' => ?_)
    fun watch' e h' => opened_error h' e
  cases row.receiptJson with
  | none => exact Obeys.pure (.inl ⟨h', by rintro _ ⟨⟩; rfl⟩)
  | some text =>
    exact Obeys.bind (R := fun watch' _ => watch'.row = none) (Obeys.lift h')
      (fun _ _ h => Obeys.pure (.inl ⟨h, by rintro _ ⟨⟩; rfl⟩)) fun _ e h => opened_error h e

theorem watching_claimNew {watch : Watch} (h : watch.row = none) (huntold : watch.Untold)
    (hid : binding.messageId = args.envelope.messageId) (updatedAt : Str) :
    Obeys (watching args) watch (claimNew binding updatedAt) (Opened binding) := by
  let row : Operation := ⟨binding.messageId, binding.nonce, binding.envelopeSha256, lit "CREATED", none, updatedAt⟩
  refine Obeys.bind (R := fun watch' r => watch'.Untold ∧ (r = .ok () → watch'.row = some row) ∧
      ∀ e, r = .error e → watch'.row = none) (obeys_execute hid (fun _ => ⟨huntold, nofun, fun _ _ => h⟩) fun reply _ => ?_)
    (fun watch' _ hinserted => Obeys.pure (.inr ⟨⟨_, rfl, rfl⟩, hinserted.1, row, hinserted.2.1 rfl, rfl, rfl, rfl⟩))
    fun _ e hinserted => opened_error (hinserted.2.2 e rfl) e
  cases reply with
  | error e => exact ⟨⟨huntold.clean, huntold.endless, huntold.matched⟩, nofun, fun _ _ => h⟩
  | ok _ => exact ⟨⟨huntold.clean, huntold.endless, huntold.matched⟩, fun _ => rfl, nofun⟩

theorem watching_claim {watch : Watch} (h : watch.row = none) (huntold : watch.Untold)
    (hid : binding.messageId = args.envelope.messageId) (updatedAt : Str) :
    Obeys (watching args) watch (claim decoder binding updatedAt) (Opened binding) := by
  refine Obeys.bind (R := fun watch' _ => watch'.row = none ∧ watch'.Untold)
    (obeys_execute trivial (fun _ => ⟨h, huntold⟩) fun reply _ => ?_) ?_ fun _ e h' => opened_error h'.1 e
  · cases reply <;> exact ⟨h, huntold.clean, huntold.endless, huntold.matched⟩
  · rintro watch' (_ | row) ⟨h', huntold'⟩
    · exact watching_claimNew h' huntold' hid updatedAt
    · exact watching_claimFound h' row

/-- A run settles its row. -/
theorem watching_run (hstack : Stacked py) (hpatient : args.Patient) {watch : Watch} (h : watch.row = none)
    (huntold : watch.Untold) : Obeys (watching args) watch (run py args decoder) (Settled py) := by
  unfold run
  split
  · exact Obeys.throw (.free h)
  next hrefused =>
  have hgoes := goes_of_refused hpatient hrefused
  refine Obeys.still_bind Obeys.still_lift (fun _ => .free h) fun binding hb => ?_
  obtain ⟨-, hid⟩ := encodable_bound hb
  refine Obeys.sure_bind watching_nowIso ?_
  rintro _ updatedAt ⟨rfl, -⟩
  refine Obeys.bind (watching_claim h huntold hid updatedAt) ?_ ?_
  · rintro watch' ⟨created, state, oldReceipt⟩ (⟨hnone, hfound⟩ | ⟨⟨claimed, heq, htrue⟩, huntold', row, hrow, hbinding, hjson, hstate⟩)
    · obtain rfl : created = false := hfound _ rfl
      cases oldReceipt with
      | none => exact Obeys.throw (.free hnone)
      | some receipt => exact Obeys.pure (.free hnone)
    · obtain rfl := Except.ok.inj heq
      obtain rfl : created = true := htrue
      refine Obeys.sure_bind watching_nowIso ?_
      rintro _ time ⟨rfl, htime⟩
      refine watching_perform hstack hb hgoes ⟨⟨⟨row, hrow, hbinding, hjson, .created, rfl, hstate⟩, ?_, huntold'.clean⟩, ?_⟩
        huntold'.clean huntold'.matched
      on_goal 2 => rw [Watch.isLost, huntold'.endless, Bool.false_and]
      refine ⟨fun time' hmem => ?_, nofun, nofun, nofun⟩
      obtain rfl := List.mem_singleton.mp hmem
      exact ⟨encodable_lit _, htime⟩
  · rintro watch' e (⟨hnone, -⟩ | ⟨⟨claimed, ⟨⟩, -⟩, -⟩)
    exact .free hnone

/-- A statement and the clock tell nothing else. -/
theorem Watch.told_like (args : Arguments) (watch : Watch) (op : Op) (reply : Except Exc op.Reply) :
    (watch.told args op reply).Like (watch.after args op reply) := by
  cases op with
  | sleep seconds => cases seconds <;> cases reply <;> exact ⟨rfl, rfl, rfl⟩
  | _ => cases reply <;> exact ⟨rfl, rfl, rfl⟩

/-- What the replies of a run have told. -/
theorem follow_told (args : Arguments) (watch : Watch) (answers : List (Answer Calls Exc)) :
    ((watching args).follow watch answers).clean = (watch.clean && answers.all fun answer => clean args answer.op answer.reply) ∧
    ((watching args).follow watch answers).endless = ((answers.any (fun answer => submits answer.op answer.reply) &&
      !args.renderedReadbackTimeoutSeconds.isFinite) || watch.endless) ∧
    ((watching args).follow watch answers).matched =
      ((answers.any fun answer => shows args answer.op answer.reply) || watch.matched) := by
  induction answers generalizing watch with
  | nil => simp [Protocol.follow]
  | cons answer answers ih =>
    obtain ⟨hclean, hendless, hmatched⟩ := ih (watch.after args answer.op answer.reply)
    have hlike := watch.told_like args answer.op answer.reply
    rw [hlike.clean, Watch.told] at hclean
    rw [hlike.endless, Watch.told] at hendless
    rw [hlike.matched, Watch.told] at hmatched
    have hfollow : (watching args).follow watch (answer :: answers) =
        (watching args).follow (watch.after args answer.op answer.reply) answers := rfl
    rw [hfollow, hclean, hendless, hmatched, List.all_cons, List.any_cons, List.any_cons]
    refine ⟨?_, ?_, ?_⟩
    · rw [Bool.and_comm (clean _ _ _), Bool.and_assoc]
    · rw [Bool.and_or_distrib_right, Bool.or_assoc, Bool.or_left_comm]
    · rw [Bool.or_assoc, Bool.or_left_comm]

/-- A run is lost in its readback unless a text is shown. -/
theorem isLost_follow (args : Arguments) (answers : List (Answer Calls Exc)) (clock : ℚ) :
    ((watching args).follow { clock } answers).isLost = false ↔ Shown args answers := by
  obtain ⟨-, hendless, hmatched⟩ := follow_told args { clock } answers
  rw [Watch.isLost, hendless, hmatched, Bool.or_false, Bool.or_false, Shown]
  cases args.renderedReadbackTimeoutSeconds.isFinite with
  | true => simp
  | false =>
    rw [Bool.not_false, Bool.and_true, Bool.and_eq_false_iff, Bool.not_eq_false', List.any_eq_true]
    simp

/-- A run has a row if it was told that it has inserted one. -/
theorem follow_row (watch : Watch) (o : Observed) (answers : List (Answer Calls Exc)) (h : watch.row.isSome = o.created) :
    ((watching args).follow watch answers).row.isSome =
      (answers.foldl (fun o answer => o.after args answer.op answer.reply) o).created := by
  induction answers generalizing watch o with
  | nil => exact h
  | cons answer answers ih =>
    refine ih _ _ ?_
    obtain ⟨op, reply⟩ := answer
    cases op with
    | insert row =>
      cases reply with
      | error e => exact h
      | ok _ => rfl
    | updateState binding state updatedAt =>
      rw [← show o.created = (o.after args (.updateState binding state updatedAt) reply).created by cases reply <;> rfl, ← h]
      exact Option.isSome_map
    | updateReceipt binding state json updatedAt =>
      rw [← show o.created = (o.after args (.updateReceipt binding state json updatedAt) reply).created by cases reply <;> rfl, ← h]
      exact Option.isSome_map
    | sleep seconds => cases seconds <;> cases reply <;> exact h
    | _ => cases reply <;> exact h

/-- The run has returned a receipt, and it is in the row of its message, with a terminal state. -/
structure Delivered (py : Interpreter Empty) (messageId : Str) (result : Except Exc RelayReceipt) (w : World) : Prop where
  stored : ∃ receipt json row, result = .ok receipt ∧ receipt.encode py = .ok json ∧ w.rows messageId = some row ∧
    row.receiptJson = some json ∧ row.state = receipt.finalState ∧ Terminal row.state

/-- The run has raised, or its readback was cut off, which goes on without an end; and the row of its message
is left in a state that is not terminal. -/
structure Stranded (messageId : Str) (result : Except Exc RelayReceipt) (w : World) : Prop where
  raised : result.isOk = false
  row : ∃ row, w.rows messageId = some row ∧ row.receiptJson = none ∧ ¬ Terminal row.state

/-! ### A canary with a stray surrogate -/

theorem stacked_canary : Stacked canaryPython := ⟨fun _ => rfl, fun _ _ _ => rfl⟩

theorem patient_canary : canaryArguments.Patient := by
  rintro timeout htimeout
  obtain rfl : (15 : ℚ) = timeout := Seconds.finite.inj htimeout
  refine ⟨by decide, fun poll hpoll => ?_⟩
  obtain rfl : (1 / 4 : ℚ) = poll := Seconds.finite.inj hpoll
  decide +kernel

theorem Others.refl (messageId : Str) (w : World) : Others messageId w w := ⟨fun _ h => h, le_rfl⟩

theorem surrogate_lt : 0xd800 < 0x110000 := by decide

/-- The canary's target, whose visible identity is an unpaired surrogate. -/
def strayTarget : TargetSnapshot := { canaryTarget with visibleIdentity := [⟨0xd800, surrogate_lt⟩], visible := by decide }

def strayAnswer (op : Op) (w : World) : Except Exc op.Reply × World :=
  match op with
  | .snapshot _ _ => (.ok strayTarget, w)
  | op => canaryAnswer op w

theorem workstation_strayAnswer (faults : Faults) (op : Op) (w : World) :
    Workstation faults op w (strayAnswer op w).1 (strayAnswer op w).2 := by
  cases op with
  | snapshot handle token => rfl
  | _ => exact workstation_canaryAnswer faults _ w

def strayRun : List (Answer Calls Exc) × Except Exc RelayReceipt × World :=
  (run canaryPython canaryArguments canaryDecoder).play strayAnswer canaryWorld

theorem runs_stray : Runs (Store (lit "m-1")) (run canaryPython canaryArguments canaryDecoder) canaryWorld strayRun.1
    strayRun.2.1 strayRun.2.2 :=
  runs_play (J := fun _ => True)
    (fun op w _ => ⟨⟨w, .refl _ w, workstation_strayAnswer ⟨False, False⟩ op w⟩, trivial⟩) _ _ trivial

theorem strayRun_ends : ((observed canaryArguments strayRun.1).created, strayRun.2.1.isOk,
    (strayRun.2.2.rows (lit "m-1")).map fun row => (row.state, row.receiptJson)) =
      (true, false, some (lit "TARGET_DISCOVERED", none)) := by decide +kernel

end CcbCore.Relay
