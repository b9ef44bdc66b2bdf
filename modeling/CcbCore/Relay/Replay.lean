import CcbCore.Radar.RoundTrip
import CcbCore.Relay.Once

/-!
# A receipt is returned again

A receipt that was written is read back as an equal one, field by field (`decode_encode`),
and a row with a receipt stays. So a run whose message has one returns it and calls neither
the verifier nor the target (`run_again`), and a row carries a receipt exactly when its
state is terminal, wherever runs are cut off (`receipt_replayed`).
-/

namespace CcbCore.Relay

open CcbCore.CodePoints CcbCore.Postgres CcbCore.Radar CcbCore.Raising

variable {py : Interpreter Empty} {args : Arguments} {decoder : Decoder Empty}

/-! ### A receipt there and back -/

/-- Two receipts are equal: a dictionary has no order. -/
def RelayReceipt.Same (receipt receipt' : RelayReceipt) : Prop :=
  receipt'.transitionTimes.Perm receipt.transitionTimes ∧
    receipt' = { receipt with transitionTimes := receipt'.transitionTimes }

theorem toDict_keys (receipt : RelayReceipt) : (receipt.toDict.map (·.1)).Nodup := by
  simp [RelayReceipt.toDict, lit_inj]

/-- A field of what is read of a receipt, by its place in the receipt's dictionary. -/
theorem field_toDict {receipt : RelayReceipt} (name : String) (i : ℕ) {value : Value Empty}
    (h : receipt.toDict[i]? = some (lit name, value)) :
    field (sortFields (Value.sortedFields receipt.toDict)) name = some value.sorted := by
  have hkeys := toDict_keys receipt
  rw [field, lookup_sortFields (by rwa [sortedFields_keys]), lookup_sortedFields,
    (lookup_iff_mem hkeys).mpr (List.mem_of_getElem? h), Option.map_some]

theorem exact_optionalValue (text : Option Str) : (optionalValue text).Exact := by
  cases text <;> trivial

theorem exactItems_str (texts : List Str) : Value.ExactItems (texts.map fun text => (Value.str text : Value Empty)) := by
  induction texts with
  | nil => trivial
  | cons text texts ih => exact ⟨trivial, ih⟩

theorem exactFields_str (times : List (Str × Str)) :
    Value.ExactFields (times.map fun time => (time.1, (Value.str time.2 : Value Empty))) := by
  induction times with
  | nil => trivial
  | cons time times ih => exact ⟨trivial, ih⟩

theorem printable_iff {n : ℤ} : printable n = true ↔ n.natAbs < 10 ^ maxDigits := by rw [printable, decide_eq_true_iff]

/-- A receipt that is written can be read back. -/
theorem exact_toDict {receipt : RelayReceipt} (hprintable : receipt.targetWindowHandle.all printable = true)
    (htimes : (receipt.transitionTimes.map (·.1)).Nodup) : (Value.object receipt.toDict).Exact := by
  refine ⟨toDict_keys receipt, ?_⟩
  have hhandle : ((receipt.targetWindowHandle.map Value.int).getD .null : Value Empty).Exact := by
    cases hhandle : receipt.targetWindowHandle with
    | none => trivial
    | some n =>
      rw [hhandle, Option.all_some, printable_iff] at hprintable
      rw [Option.map_some, Option.getD_some, Value.Exact]
      exact hprintable
  have htimes' : (Value.object (receipt.transitionTimes.map fun time => (time.1, (Value.str time.2 : Value Empty)))).Exact := by
    refine ⟨?_, exactFields_str _⟩
    rwa [List.map_map]
  exact ⟨trivial, trivial, trivial, trivial, trivial, trivial, trivial, trivial, trivial, exactItems_str _, htimes', hhandle,
    exact_optionalValue _, exact_optionalValue _, exact_optionalValue _, exact_optionalValue _, exact_optionalValue _,
    exact_optionalValue _, exact_optionalValue _, trivial, exact_optionalValue _, exact_optionalValue _, exact_optionalValue _,
    exact_optionalValue _, trivial, trivial⟩

theorem sorted_optionalValue (text : Option Str) : (optionalValue text).sorted = optionalValue text := by
  cases text <;> rfl

theorem optionalStr_toDict {receipt : RelayReceipt} (name : String) (i : ℕ) {text : Option Str}
    (h : receipt.toDict[i]? = some (lit name, optionalValue text)) :
    optionalStr decoder (sortFields (Value.sortedFields receipt.toDict)) name = text := by
  rw [optionalStr, Radar.get, field_toDict name i h, sorted_optionalValue]
  cases text <;> rfl

theorem strItem_toDict {receipt : RelayReceipt} (name : String) (i : ℕ) {text : Str}
    (h : receipt.toDict[i]? = some (lit name, .str text)) :
    strItem decoder (sortFields (Value.sortedFields receipt.toDict)) name = .ok text := by
  rw [strItem, item, field_toDict name i h]
  rfl

theorem strOf_sortedItems (texts : List Str) :
    (Value.sortedItems (texts.map Value.str)).map (strOf decoder) = texts := by
  induction texts with
  | nil => rfl
  | cons text texts ih =>
    rw [List.map_cons, Value.sortedItems, List.map_cons, ih]
    rfl

/-- The times that are read are those that were written, sorted. -/
theorem strOf_sortedTimes (decoder : Decoder Empty) (times : List (Str × Str)) :
    (sortFields (Value.sortedFields (times.map fun time => (time.1, (Value.str time.2 : Value Empty))))).map
      (fun time => (time.1, strOf decoder time.2)) |>.Perm times := by
  refine ((sortFields_perm _).map _).trans (.of_eq ?_)
  induction times with
  | nil => rfl
  | cons time times ih =>
    rw [List.map_cons, Value.sortedFields, List.map_cons, ih]
    rfl

/-- What is read of the dictionary of a receipt is the receipt, its times sorted. -/
theorem ofFields_toDict (receipt : RelayReceipt) : ∃ receipt', receipt.Same receipt' ∧
    RelayReceipt.ofFields decoder (sortFields (Value.sortedFields receipt.toDict)) = .ok receipt' := by
  have htransitions : Radar.get (sortFields (Value.sortedFields receipt.toDict)) "transitions" =
      .array (Value.sortedItems (receipt.transitions.map .str)) := by
    rw [Radar.get, field_toDict "transitions" 9 rfl]
    rfl
  have htimes : Radar.get (sortFields (Value.sortedFields receipt.toDict)) "transition_times" =
      .object (sortFields (Value.sortedFields (receipt.transitionTimes.map fun time => (time.1, .str time.2)))) := by
    rw [Radar.get, field_toDict "transition_times" 10 rfl]
    rfl
  have hhandle : optionalInt decoder (sortFields (Value.sortedFields receipt.toDict)) "target_window_handle" =
      .ok receipt.targetWindowHandle := by
    rw [optionalInt, Radar.get, field_toDict "target_window_handle" 11 rfl]
    cases receipt.targetWindowHandle <;> rfl
  have hrendered : item (sortFields (Value.sortedFields receipt.toDict)) "rendered_message_verified" =
      .ok (.bool receipt.renderedMessageVerified) := by
    rw [item, field_toDict "rendered_message_verified" 19 rfl]
    rfl
  have hside : field (sortFields (Value.sortedFields receipt.toDict)) "side_effect_beyond_visible_text" =
      some (.bool receipt.sideEffectBeyondVisibleText) := by
    rw [field_toDict "side_effect_beyond_visible_text" 24 rfl]
    rfl
  refine ⟨{ receipt with transitionTimes := _ }, ⟨strOf_sortedTimes decoder _, rfl⟩, ?_⟩
  rw [RelayReceipt.ofFields, htransitions, htimes]
  simp only [hhandle, hrendered, hside, strOf_sortedItems,
    strItem_toDict "protocol" 0 rfl,
    strItem_toDict "sender" 1 rfl,
    strItem_toDict "recipient" 2 rfl,
    strItem_toDict "message_id" 3 rfl,
    strItem_toDict "nonce" 4 rfl,
    strItem_toDict "source_bus_message_id" 5 rfl,
    strItem_toDict "source_bus_commit" 6 rfl,
    strItem_toDict "body_sha256" 7 rfl,
    strItem_toDict "final_state" 8 rfl,
    optionalStr_toDict "target_token" 12 rfl,
    optionalStr_toDict "prewrite_normalized_url_path" 13 rfl,
    optionalStr_toDict "prewrite_visible_identity" 14 rfl,
    optionalStr_toDict "prewrite_selector_digest" 15 rfl,
    optionalStr_toDict "presubmit_normalized_url_path" 16 rfl,
    optionalStr_toDict "presubmit_visible_identity" 17 rfl,
    optionalStr_toDict "presubmit_selector_digest" 18 rfl,
    optionalStr_toDict "rendered_message_sha256" 20 rfl,
    optionalStr_toDict "ack_body" 21 rfl,
    optionalStr_toDict "ack_status" 22 rfl,
    optionalStr_toDict "ack_sha256" 23 rfl]
  rfl

/-- **A receipt that is written is read back as an equal one.** -/
theorem decode_encode {receipt : RelayReceipt} {json : Str} (h : receipt.encode py = .ok json)
    (htimes : (receipt.transitionTimes.map (·.1)).Nodup) (hscans : decoder.scans json = true) :
    ∃ receipt', RelayReceipt.decode decoder json = .ok receipt' ∧ receipt.Same receipt' := by
  unfold RelayReceipt.encode at h
  split at h
  · next hprintable =>
    cases hdumps : dumps py canonicalFormat (.object receipt.toDict) with
    | error e =>
      rw [hdumps] at h
      cases h
    | ok text =>
      rw [hdumps] at h
      obtain rfl : text = json := Except.ok.inj h
      have hloads : loads decoder text = .ok (Value.object receipt.toDict).sorted :=
        loads_dumps readable_canonicalFormat (exact_toDict hprintable htimes) nofun hdumps hscans
      obtain ⟨receipt', hsame, hread⟩ : ∃ receipt', receipt.Same receipt' ∧
          RelayReceipt.ofFields decoder (sortFields (Value.sortedFields receipt.toDict)) = .ok receipt' := ofFields_toDict receipt
      rw [Value.sorted] at hloads
      refine ⟨receipt', ?_, hsame⟩
      rw [RelayReceipt.decode, hloads]
      exact hread
  · cases h

/-! ### Terminal states -/

/-- The text is that of a terminal state. -/
def Terminal (text : Str) : Prop := ∃ state : RelayState, state.terminal = true ∧ text = state.text

/-- The texts of the states that are not terminal. -/
def openTexts : List Str :=
  [RelayState.created, .busBound, .targetDiscovered, .targetVerifiedPrewrite, .composerPopulated, .targetReverifiedPresubmit,
    .submitted, .renderedReadbackVerified, .ackPending].map RelayState.text

theorem mem_openTexts (state : RelayState) : state.text ∈ openTexts ↔ state.terminal = false := by
  cases state <;> simp [openTexts, RelayState.text, lit_inj, RelayState.terminal]

theorem not_terminal {state : RelayState} (h : state.terminal = false) : ¬ Terminal state.text := by
  rintro ⟨state', hterminal, heq⟩
  have hmem := (mem_openTexts state).mpr h
  rw [heq, mem_openTexts, hterminal] at hmem
  cases hmem

/-- A row that a run may leave: it carries a receipt if its state is terminal, and it is the
receipt's then. -/
structure RowReads (decoder : Decoder Empty) (row : Operation) : Prop where
  terminal : row.receiptJson.isSome = true ↔ Terminal row.state
  final : ∀ json, row.receiptJson = some json →
    ∃ receipt, RelayReceipt.decode decoder json = .ok receipt ∧ receipt.finalState = row.state

theorem RowSound.reads {row : Operation} (h : RowSound py row)
    (hscans : ∀ receipt json, RelayReceipt.encode py receipt = .ok json → decoder.scans json = true) : RowReads decoder row := by
  rcases h with ⟨hnone, state, hopen, hstate⟩ | ⟨receipt, json, hjson, hrecorded, hstate⟩
  · refine ⟨?_, fun json hjson => ?_⟩
    · rw [hnone, hstate]
      exact iff_of_false (by decide) (not_terminal hopen)
    · rw [hnone] at hjson
      cases hjson
  · obtain ⟨final, hterminal, hfinal⟩ := hrecorded.final
    refine ⟨?_, fun json' hjson' => ?_⟩
    · rw [hjson, hstate, hfinal]
      exact iff_of_true rfl ⟨final, hterminal, rfl⟩
    · obtain rfl : json = json' := Option.some.inj (hjson.symm.trans hjson')
      obtain ⟨receipt', hdecode, hperm, heq⟩ := decode_encode hrecorded.encoded hrecorded.times (hscans _ _ hrecorded.encoded)
      refine ⟨receipt', hdecode, ?_⟩
      rw [heq, hstate]

/-! ### A run after the receipt -/

/-- What is bound to a row encodes. -/
theorem encodable_of_binding {envelope : RelayEnvelope} {binding : Binding} (h : bindingOf py envelope = .ok binding) :
    [envelope.sender, envelope.recipient, envelope.messageId, envelope.nonce, envelope.sourceBusMessageId,
      envelope.sourceBusCommit, envelope.bodySha256, envelope.body].all encodable = true := by
  obtain ⟨sha256, hsha256, -⟩ := except_map_ok.mp h
  have hrender : encodable envelope.render = true := by
    unfold RelayEnvelope.sha256 digest at hsha256
    cases hbytes : encodeText envelope.render with
    | error e =>
      rw [hbytes] at hsha256
      cases hsha256
    | ok bytes => exact encodeText_ok.mp ⟨bytes, hbytes⟩
  rw [RelayEnvelope.render, encodable_join (encodable_lit _)] at hrender
  have hprotocol : encodable protocol = true := encodable_lit _
  simpa [line, encodable_lit, hprotocol, and_assoc] using hrender

/-- The calls of a run whose message has a row, and the row that it is told. -/
def replaying (messageId : Str) (row : Operation) : Protocol Calls Exc Unit where
  allows _ op := op = .nowIso ∨ op = .select messageId
  replies _ op reply :=
    match op, reply with
    | .nowIso, reply => reply.isOk = true
    | .select _, reply => reply = .ok (some row)
    | _, _ => True
  after _ _ _ := ()

variable {receipt : RelayReceipt} {row : Operation} {json : Str}

theorem replaying_run (hrefused : args.refused = none) (hb : bindingOf py args.envelope = .ok row.binding)
    (hjson : row.receiptJson = some json) (hdecode : RelayReceipt.decode decoder json = .ok receipt) :
    Obeys (replaying args.envelope.messageId row) () (run py args decoder) fun _ result => result = .ok receipt := by
  have hid : row.binding.messageId = args.envelope.messageId := by
    obtain ⟨sha256, -, heq⟩ := except_map_ok.mp hb
    rw [← heq]
  have henc : ([row.binding.messageId] : List Str).all encodable = true := by
    have hall := encodable_of_binding hb
    simp only [List.all_cons, List.all_nil, Bool.and_true, Bool.and_eq_true] at hall
    simpa [hid] using hall.2.2.1
  unfold run
  rw [hrefused]
  refine Obeys.bind (R := fun _ r => r = .ok row.binding) (Obeys.lift hb) ?_ nofun
  rintro ⟨⟩ _ ⟨⟩
  refine Obeys.bind (R := fun _ r => r.isOk = true) (Obeys.ask (.inl rfl) fun reply hreply => hreply) ?_ nofun
  rintro ⟨⟩ updatedAt -
  have hfound : Obeys (replaying args.envelope.messageId row) () (claimFound decoder row.binding row) fun _ r =>
      r = .ok (false, row.state, some receipt) := by
    refine Obeys.bind (R := fun _ r => r = .ok ⟨⟩) (Obeys.refuseIf (fun hne => ?_) fun _ => rfl) ?_ nofun
    · exact absurd hne (by simp [Operation.binding])
    rintro ⟨⟩ _ -
    rw [hjson]
    refine Obeys.bind (R := fun _ r => r = .ok receipt) (Obeys.lift hdecode) ?_ nofun
    rintro ⟨⟩ _ ⟨⟩
    exact Obeys.pure rfl
  have hclaim : Obeys (replaying args.envelope.messageId row) () (claim decoder row.binding updatedAt) fun _ r =>
      r = .ok (false, row.state, some receipt) := by
    refine Obeys.bind (R := fun _ r => r = .ok (some row)) (obeys_execute (.inr ?_) (fun hnot => ?_) fun reply hreply => hreply) ?_ nofun
    · rw [hid]
    · rw [henc] at hnot
      cases hnot
    rintro ⟨⟩ _ ⟨⟩
    exact hfound
  refine Obeys.bind hclaim ?_ nofun
  rintro ⟨⟩ _ ⟨⟩
  exact Obeys.pure rfl

/-- A run whose message has a row with a receipt returns that receipt, and calls neither the
verifier nor the target, whatever others do that leave such rows. -/
theorem run_again {clock : Prop} {w t : World} {answers : List (Answer Calls Exc)} {result : Except Exc RelayReceipt}
    (hrefused : args.refused = none) (hb : bindingOf py args.envelope = .ok row.binding)
    (hrow : w.rows args.envelope.messageId = some row) (hjson : row.receiptJson = some json)
    (hdecode : RelayReceipt.decode decoder json = .ok receipt)
    (h : Runs (Amid World.Keeps (Workstation ⟨False, clock⟩)) (run py args decoder) w answers result t) :
    result = .ok receipt ∧ ∀ answer ∈ answers, answer.op = .nowIso ∨ answer.op = .select args.envelope.messageId := by
  have hknows : ∀ phase op s reply t, s.rows args.envelope.messageId = some row →
      (replaying args.envelope.messageId row).allows phase op → Amid World.Keeps (Workstation ⟨False, clock⟩) op s reply t →
      (replaying args.envelope.messageId row).replies phase op reply ∧ t.rows args.envelope.messageId = some row := by
    rintro phase op s reply t hs hallowed ⟨s', hkeeps, hcall⟩
    have hs' := hkeeps _ row hs (by rw [hjson]; nofun)
    rcases hallowed with rfl | rfl
    · cases reply with
      | error e => exact hcall.elim
      | ok text =>
        obtain ⟨rfl, -⟩ := hcall
        exact ⟨rfl, hs'⟩
    · cases reply with
      | error e => exact hcall.1.elim
      | ok found =>
        obtain ⟨rfl, rfl⟩ := Prod.mk.inj hcall
        exact ⟨congrArg Except.ok hs', hs'⟩
  obtain ⟨hresult, -, hallowed⟩ := Obeys.runs hknows h (replaying_run hrefused hb hjson hdecode) hrow
  refine ⟨hresult, fun answer hanswer => ?_⟩
  obtain ⟨before, after, hsplit⟩ := List.append_of_mem hanswer
  exact hallowed before answer after hsplit

/-- **In every run of processes on one store, cut off anywhere: a row carries a receipt exactly
if its state is terminal, and it is the receipt's; and once a run has returned a receipt, every
later run of the envelope returns an equal one, and calls neither the verifier nor the target.** -/
theorem receipt_replayed {ι : Type} [DecidableEq ι] {p p' q : Pool Calls Exc RelayReceipt World ι Arguments} {faults : Faults}
    {events later : List (PoolEvent ι Arguments)}
    (hscans : ∀ receipt json, RelayReceipt.encode py receipt = .ok json → decoder.scans json = true) (hp : Fresh p)
    (h : Run (RelayStep py decoder faults) p events p') (hlater : Run (RelayStep py decoder faults) p' later q) :
    (∀ messageId row, p'.state.rows messageId = some row → RowReads decoder row) ∧
    ∀ i receipt, p'.program i = .done (.ok receipt) →
      ∀ args clock answers result t, args.envelope = (p'.data i).envelope → args.refused = none →
        Runs (Amid World.Keeps (Workstation ⟨False, clock⟩)) (run py args decoder) q.state answers result t →
        (∃ receipt', result = .ok receipt' ∧ receipt.Same receipt') ∧
          ∀ answer ∈ answers, answer.op = .nowIso ∨ answer.op = .select args.envelope.messageId := by
  obtain ⟨-, phases, hguarded⟩ := relay_guarded hp h
  refine ⟨fun messageId row hrow => (hguarded.always.row messageId row hrow).reads hscans,
    fun i receipt hdone args clock answers result t henvelope hrefused hrun => ?_⟩
  have hpost := hguarded.obeys i
  have hknows := hguarded.knows i
  rw [hdone] at hpost
  obtain ⟨binding, json, hphase, hb, hreceipt⟩ := hpost receipt rfl
  rw [hphase] at hknows
  obtain ⟨row, hrow, hbinding, hjson⟩ := hknows
  have hid : binding.messageId = args.envelope.messageId := by
    obtain ⟨sha256, -, heq⟩ := except_map_ok.mp hb
    rw [← heq, henvelope]
  obtain ⟨receipt', hdecode, hsame⟩ : ∃ receipt', RelayReceipt.decode decoder json = .ok receipt' ∧ receipt.Same receipt' := by
    rcases hreceipt with hrecorded | hdecode
    · exact decode_encode hrecorded.encoded hrecorded.times (hscans _ _ hrecorded.encoded)
    · exact ⟨receipt, hdecode, .refl _, rfl⟩
  have hkept : q.state.rows args.envelope.messageId = some row := by
    obtain ⟨hkeeps, -⟩ := relay_guarded_run hguarded hlater
    rw [← hid]
    exact hkeeps _ row hrow (by rw [hjson]; nofun)
  obtain ⟨hresult, hcalls⟩ := run_again hrefused (by rw [henvelope, hb, hbinding]) hkept hjson hdecode hrun
  exact ⟨⟨receipt', hresult, hsame⟩, hcalls⟩

/-! ### The canary again -/

theorem refused_canary : canaryArguments.refused = none := by decide +kernel

/-- The second run of the canary returns the receipt of the first, which was acknowledged. -/
theorem receipt_replayed_canary : ∃ receipt receipt', (canaryRun canaryWorld).2.1 = .ok receipt ∧
    receipt.finalState = lit "ACK_VERIFIED" ∧ (canaryRun (canaryRun canaryWorld).2.2).2.1 = .ok receipt' ∧ receipt.Same receipt' := by
  obtain ⟨receipt, hreturned, hverified⟩ := canaryRun_returns
  obtain ⟨events, p, hrun, hstate, hdata, hprogram⟩ := pool_canary (p := canaryPool) (runs_canary ⟨False, False⟩ canaryWorld) true
  rw [hreturned] at hprogram
  have hagain : Runs (Amid World.Keeps (Workstation ⟨False, False⟩)) (run canaryPython canaryArguments canaryDecoder) p.state
      (canaryRun p.state).1 (canaryRun p.state).2.1 (canaryRun p.state).2.2 :=
    runs_play (J := fun _ => True)
      (fun op w _ => ⟨⟨w, fun _ _ hrow _ => hrow, workstation_canaryAnswer ⟨False, False⟩ op w⟩, trivial⟩) _ _ trivial
  obtain ⟨⟨receipt', hsecond, hsame⟩, -⟩ := (receipt_replayed (fun _ _ _ => rfl) fresh_canaryPool hrun .nil).2 true receipt
    hprogram canaryArguments False _ _ _ (by rw [hdata]) refused_canary hagain
  rw [hstate] at hsecond
  exact ⟨receipt, receipt', hreturned, hverified, hsecond, hsame⟩

end CcbCore.Relay
