import CcbCore.Slack.Relay

/-!
# The first claim and the first delivery win

However the calls of any number of stores on one database interleave, the rows only
grow (`Grows`): a row stays bound to its message and its digest, and its timestamp is
set once. `call_cases` says all that one call of a thread can do. From it: one call at
most returns that it created a claim, of an operation id and of a message id; what is
returned is in the table; and a call that conflicts with a row changes nothing and
raises a `RelayError` (`first_claim_wins`).
-/

namespace CcbCore.Slack

open CcbCore.CodePoints CcbCore.Postgres CcbCore.Radar

variable {py : Interpreter Empty} {faulty : Prop} {rows rows' : Operations} {envelope : RelayEnvelope} {digest : Hex 64}
  {operationId : Str}

/-! ### Rows that grow -/

/-- Rows stay bound, and a timestamp stays as it was set. -/
def Grows (rows rows' : Operations) : Prop :=
  ∀ id row, rows.lookup id = some row → ∃ ts, rows'.lookup id = some { row with slackMessageTs := ts } ∧
    ∀ t, row.slackMessageTs = some t → ts = some t

theorem Grows.refl (rows : Operations) : Grows rows rows := fun _ row h => ⟨row.slackMessageTs, h, fun _ ht => ht⟩

theorem Grows.trans {rows'' : Operations} (h : Grows rows rows') (h' : Grows rows' rows'') : Grows rows rows'' := by
  intro id row hrow
  obtain ⟨ts, hrow', hts⟩ := h id row hrow
  obtain ⟨ts', hrow'', hts'⟩ := h' id _ hrow'
  exact ⟨ts', hrow'', fun t ht => hts' t (hts t ht)⟩

/-- No two operations have one message. -/
def OneOperation (rows : Operations) : Prop :=
  ∀ id id' row row', rows.lookup id = some row → rows.lookup id' = some row' → row.messageId = row'.messageId → id = id'

theorem insertOperation_some {row : Operation} {count : ℕ} {after : Operations}
    (h : insertOperation rows operationId row = some (count, after)) :
    (∃ found, rows.lookup operationId = some found ∧ count = 0 ∧ after = rows) ∨
    (rows.lookup operationId = none ∧ (∀ id other, rows.lookup id = some other → other.messageId ≠ row.messageId) ∧
      count = 1 ∧ after = rows.insert operationId row) := by
  unfold insertOperation at h
  split_ifs at h with hfound hany
  · obtain ⟨found, hfound⟩ := Option.isSome_iff_exists.mp hfound
    cases h
    exact .inl ⟨found, hfound, rfl, rfl⟩
  · cases h
    refine .inr ⟨Option.not_isSome_iff_eq_none.mp hfound, fun id other hother heq => hany ?_, rfl, rfl⟩
    exact Table.any_iff.mpr ⟨id, other, hother, by simp [heq]⟩

theorem insertOperation_grows {row : Operation} {count : ℕ} {after : Operations} (hone : OneOperation rows)
    (h : insertOperation rows operationId row = some (count, after)) : Grows rows after ∧ OneOperation after := by
  rcases insertOperation_some h with ⟨-, -, -, rfl⟩ | ⟨hnew, hfree, -, rfl⟩
  · exact ⟨Grows.refl _, hone⟩
  · refine ⟨fun id other hother => ⟨other.slackMessageTs, ?_, fun _ ht => ht⟩, fun id id' first second hfirst hsecond heq => ?_⟩
    · have hne : id ≠ operationId := by
        rintro rfl
        rw [hnew] at hother
        cases hother
      rw [AList.lookup_insert_ne hne, hother]
    · rw [Table.lookup_insert_eq_some] at hfirst hsecond
      rcases hfirst with ⟨hid, hrow⟩ | ⟨-, hold⟩
      · rcases hsecond with ⟨hid', -⟩ | ⟨-, hold'⟩
        · rw [hid, hid']
        · exact absurd (heq.symm.trans (by rw [hrow])) (hfree _ _ hold')
      · rcases hsecond with ⟨-, hrow'⟩ | ⟨-, hold'⟩
        · exact absurd (heq.trans (by rw [hrow'])) (hfree _ _ hold)
        · exact hone _ _ _ _ hold hold' heq

theorem deliverOperation_some {envelopeSha256 slackMessageTs : Str} {row : Operation} (h : rows.lookup operationId = some row) :
    deliverOperation rows operationId envelopeSha256 slackMessageTs =
      if row.Takes envelopeSha256 slackMessageTs then rows.insert operationId { row with slackMessageTs := some slackMessageTs }
      else rows := by
  rw [deliverOperation, h]

theorem deliverOperation_none {envelopeSha256 slackMessageTs : Str} (h : rows.lookup operationId = none) :
    deliverOperation rows operationId envelopeSha256 slackMessageTs = rows := by
  rw [deliverOperation, h]

/-- The update changes one row's timestamp at most. -/
theorem deliverOperation_row (operationId envelopeSha256 slackMessageTs : Str) {id : Str} {row : Operation}
    (h : rows.lookup id = some row) :
    ∃ ts, (deliverOperation rows operationId envelopeSha256 slackMessageTs).lookup id =
      some { row with slackMessageTs := ts } ∧ ∀ t, row.slackMessageTs = some t → ts = some t := by
  have hsame : ∃ ts, rows.lookup id = some { row with slackMessageTs := ts } ∧ ∀ t, row.slackMessageTs = some t → ts = some t :=
    ⟨row.slackMessageTs, h, fun _ ht => ht⟩
  cases hfound : rows.lookup operationId with
  | none =>
    rw [deliverOperation_none hfound]
    exact hsame
  | some found =>
    rw [deliverOperation_some hfound]
    by_cases htakes : found.Takes envelopeSha256 slackMessageTs
    · rw [if_pos htakes]
      by_cases hid : id = operationId
      · obtain rfl : found = row := Option.some.inj (hfound.symm.trans (hid ▸ h))
        refine ⟨some slackMessageTs, by rw [hid, AList.lookup_insert], fun t ht => ?_⟩
        rcases htakes.2 with hnone | hset
        · rw [ht] at hnone
          cases hnone
        · rw [← hset, ht]
      · rw [AList.lookup_insert_ne hid]
        exact hsame
    · rw [if_neg htakes]
      exact hsame

theorem deliverOperation_row_inv {envelopeSha256 slackMessageTs id : Str} {row' : Operation}
    (h : (deliverOperation rows operationId envelopeSha256 slackMessageTs).lookup id = some row') :
    ∃ row, rows.lookup id = some row ∧ row'.messageId = row.messageId := by
  cases hfound : rows.lookup operationId with
  | none =>
    rw [deliverOperation_none hfound] at h
    exact ⟨row', h, rfl⟩
  | some found =>
    rw [deliverOperation_some hfound] at h
    split_ifs at h
    · rcases Table.lookup_insert_eq_some.mp h with ⟨rfl, rfl⟩ | ⟨-, hold⟩
      · exact ⟨found, hfound, rfl⟩
      · exact ⟨row', hold, rfl⟩
    · exact ⟨row', h, rfl⟩

theorem deliverOperation_grows {envelopeSha256 slackMessageTs : Str} (hone : OneOperation rows) :
    Grows rows (deliverOperation rows operationId envelopeSha256 slackMessageTs) ∧
      OneOperation (deliverOperation rows operationId envelopeSha256 slackMessageTs) := by
  refine ⟨fun id row hrow => deliverOperation_row _ _ _ hrow, fun id id' row row' hrow hrow' heq => ?_⟩
  obtain ⟨first, hfirst, hmessage⟩ := deliverOperation_row_inv hrow
  obtain ⟨second, hsecond, hmessage'⟩ := deliverOperation_row_inv hrow'
  exact hone _ _ _ _ hfirst hsecond (by rw [← hmessage, heq, hmessage'])

/-! ### What a call does -/

/-- Where the program of a request is. -/
inductive Stage (py : Interpreter Empty) : Request → Program RelayClaim → Prop where
  | ended {request : Request} {result : Except Exc RelayClaim} : Stage py request (.done result)
  | claims {envelope : RelayEnvelope} {digest : Hex 64} : envelope.sha256 py = .ok digest →
      Stage py (.claim envelope) (claimRow envelope digest)
  | refused {envelope : RelayEnvelope} {digest : Hex 64} : envelope.sha256 py = .ok digest →
      Stage py (.claim envelope) (claimRefused envelope digest)
  | delivers {operationId envelopeSha256 slackMessageTs : Str} :
      Stage py (.markDelivered operationId envelopeSha256 slackMessageTs)
        (deliverRow operationId envelopeSha256 slackMessageTs)

/-- The transaction of a request. -/
def Change (py : Interpreter Empty) (rows : Operations) (rows' : Operations) : Request → Prop
  | .claim envelope => ∃ digest count, envelope.sha256 py = .ok digest ∧
      insertOperation rows envelope.operationId (envelope.row digest) = some (count, rows')
  | .markDelivered operationId envelopeSha256 slackMessageTs =>
    rows' = deliverOperation rows operationId envelopeSha256 slackMessageTs

/-- The effects of a call, and how its program goes on. -/
inductive Effect (py : Interpreter Empty) (faulty : Prop) (rows : Operations) :
    Request → Operations → Program RelayClaim → Prop where
  | inserted {envelope : RelayEnvelope} {digest : Hex 64} {count : ℕ} {after : Operations}
      (hashed : envelope.sha256 py = .ok digest)
      (inserts : insertOperation rows envelope.operationId (envelope.row digest) = some (count, after)) :
      Effect py faulty rows (.claim envelope) after
        (.done (claimed envelope digest (count = 1) (after.lookup envelope.operationId)))
  | refused {envelope : RelayEnvelope} {digest : Hex 64} (hashed : envelope.sha256 py = .ok digest) :
      Effect py faulty rows (.claim envelope) rows (claimRefused envelope digest)
  | conflict {envelope : RelayEnvelope} {digest : Hex 64} {found : Option Operation} :
      Effect py faulty rows (.claim envelope) rows (.done (.error (conflictOf envelope digest found)))
  | delivered {operationId envelopeSha256 slackMessageTs : Str} :
      Effect py faulty rows (.markDelivered operationId envelopeSha256 slackMessageTs)
        (deliverOperation rows operationId envelopeSha256 slackMessageTs)
        (.done (delivered operationId envelopeSha256 slackMessageTs
          ((deliverOperation rows operationId envelopeSha256 slackMessageTs).lookup operationId)))
  | failed {request : Request} {rows' : Operations} (fails : faulty) (changes : rows' = rows ∨ Change py rows rows' request) :
      Effect py faulty rows request rows' (.done (.error .databaseError))

theorem stage_run (request : Request) : Stage py request (request.run py) := by
  cases request with
  | claim envelope =>
    rw [Request.run, claim]
    cases hsha : envelope.sha256 py with
    | error e => exact .ended
    | ok digest =>
      by_cases hlarge : 2 ^ 63 ≤ envelope.createdAtMs
      · simp only [Prog.refuseIf, hlarge, if_true]
        exact .ended
      · simp only [Prog.refuseIf, hlarge, if_false]
        exact .claims hsha
  | markDelivered operationId envelopeSha256 slackMessageTs =>
    rw [Request.run, markDelivered]
    by_cases hts : isTimestamp slackMessageTs = false
    · simp only [Prog.refuseIf, hts, if_true]
      exact .ended
    · by_cases hencodes : [slackMessageTs, operationId, envelopeSha256].all encodable = false
      · simp only [Prog.refuseIf, hts, hencodes, if_true]
        exact .ended
      · simp only [Prog.refuseIf, hts, hencodes]
        exact .delivers

/-- A transaction commits, or SQLite fails. -/
theorem commits_cases {α : Type} {reply : Except Exc α} {outcome : α × Operations} (h : Commits faulty reply rows rows' outcome) :
    (reply = .ok outcome.1 ∧ rows' = outcome.2) ∨
      (reply = .error .databaseError ∧ faulty ∧ (rows' = rows ∨ rows' = outcome.2)) := by
  cases reply with
  | ok a =>
    cases outcome
    cases h
    exact .inl ⟨rfl, rfl⟩
  | error e =>
    obtain ⟨hfaulty, rfl, hrows⟩ := h
    exact .inr ⟨rfl, hfaulty, hrows⟩

theorem call_cases {request : Request} {op : Op} {next : Except Exc op.Reply → Program RelayClaim}
    {reply : Except Exc op.Reply} (hstage : Stage py request (.call op next)) (h : Sqlite faulty op rows reply rows') :
    Effect py faulty rows request rows' (next reply) := by
  cases hstage with
  | @claims envelope digest hsha =>
    simp only [Sqlite] at h
    split at h
    · next count after hinsert =>
      rcases commits_cases h with ⟨rfl, rfl⟩ | ⟨rfl, hfaulty, hrows⟩
      · exact .inserted hsha hinsert
      · refine .failed hfaulty (hrows.imp_right ?_)
        rintro rfl
        exact ⟨digest, count, hsha, hinsert⟩
    · obtain ⟨rfl, rfl | ⟨hfaulty, rfl⟩⟩ := h
      · exact .refused hsha
      · exact .failed hfaulty (.inl rfl)
  | @refused envelope digest hsha =>
    rcases commits_cases h with ⟨rfl, rfl⟩ | ⟨rfl, hfaulty, hrows⟩
    · exact .conflict
    · exact .failed hfaulty (.inl (hrows.elim id id))
  | delivers =>
    rcases commits_cases h with ⟨rfl, rfl⟩ | ⟨rfl, hfaulty, hrows⟩
    · exact .delivered
    · exact .failed hfaulty hrows

variable {request : Request} {program : Program RelayClaim}

theorem Effect.stage (h : Effect py faulty rows request rows' program) : Stage py request program := by
  cases h with
  | refused hashed => exact .refused hashed
  | _ => exact .ended

theorem Change.grows (hone : OneOperation rows) (h : Change py rows rows' request) : Grows rows rows' ∧ OneOperation rows' := by
  cases request with
  | claim envelope =>
    obtain ⟨digest, count, -, hinsert⟩ := h
    exact insertOperation_grows hone hinsert
  | markDelivered operationId envelopeSha256 slackMessageTs =>
    obtain rfl := h
    exact deliverOperation_grows hone

theorem Effect.grows (hone : OneOperation rows) (h : Effect py faulty rows request rows' program) :
    Grows rows rows' ∧ OneOperation rows' := by
  cases h with
  | inserted hashed inserts => exact insertOperation_grows hone inserts
  | refused | conflict => exact ⟨Grows.refl _, hone⟩
  | delivered => exact deliverOperation_grows hone
  | failed _ changes =>
    rcases changes with rfl | hchange
    · exact ⟨Grows.refl _, hone⟩
    · exact hchange.grows hone

/-! ### Conflicts -/

/-- What a request is bound to differs from what a row is bound to, or its timestamp from the row's. -/
def Conflicts (py : Interpreter Empty) (rows : Operations) : Request → Prop
  | .claim envelope => ∃ digest, envelope.sha256 py = .ok digest ∧
      ((∃ row, rows.lookup envelope.operationId = some row ∧ envelope.Differs digest row) ∨
        ∃ id row, rows.lookup id = some row ∧ row.messageId = envelope.messageId ∧ id ≠ envelope.operationId)
  | .markDelivered operationId envelopeSha256 slackMessageTs => ∃ row, rows.lookup operationId = some row ∧
      (row.envelopeSha256 ≠ envelopeSha256 ∨ ∃ ts, row.slackMessageTs = some ts ∧ ts ≠ slackMessageTs)

theorem Conflicts.grows (hgrows : Grows rows rows') (h : Conflicts py rows request) : Conflicts py rows' request := by
  cases request with
  | claim envelope =>
    obtain ⟨digest, hsha, hcase⟩ := h
    refine ⟨digest, hsha, ?_⟩
    rcases hcase with ⟨row, hrow, hdiffers⟩ | ⟨id, row, hrow, hmessage, hne⟩
    · obtain ⟨ts, hrow', -⟩ := hgrows _ _ hrow
      exact .inl ⟨_, hrow', hdiffers⟩
    · obtain ⟨ts, hrow', -⟩ := hgrows _ _ hrow
      exact .inr ⟨id, _, hrow', hmessage, hne⟩
  | markDelivered operationId envelopeSha256 slackMessageTs =>
    obtain ⟨row, hrow, hcase⟩ := h
    obtain ⟨ts, hrow', hts⟩ := hgrows _ _ hrow
    refine ⟨_, hrow', hcase.imp_right ?_⟩
    rintro ⟨t, ht, hne⟩
    exact ⟨t, hts t ht, hne⟩

/-- A row that differs is not one the update takes. -/
theorem deliverOperation_conflict {envelopeSha256 slackMessageTs : Str} {row : Operation}
    (hrow : rows.lookup operationId = some row)
    (h : row.envelopeSha256 ≠ envelopeSha256 ∨ ∃ ts, row.slackMessageTs = some ts ∧ ts ≠ slackMessageTs) :
    deliverOperation rows operationId envelopeSha256 slackMessageTs = rows := by
  rw [deliverOperation_some hrow, if_neg]
  rintro ⟨hsha, hts⟩
  rcases h with hne | ⟨ts, hset, hne⟩
  · exact hne hsha
  · simp [hset, hne] at hts

theorem Change.conflicts (h : Change py rows rows' request) (hconflicts : Conflicts py rows request) : rows' = rows := by
  cases request with
  | claim envelope =>
    obtain ⟨digest, count, -, hinsert⟩ := h
    rcases insertOperation_some hinsert with ⟨-, -, -, rfl⟩ | ⟨hnew, hfree, -, -⟩
    · rfl
    · obtain ⟨_, -, ⟨row, hrow, -⟩ | ⟨id, row, hrow, hmessage, -⟩⟩ := hconflicts
      · rw [hnew] at hrow
        cases hrow
      · exact absurd hmessage (hfree _ _ hrow)
  | markDelivered operationId envelopeSha256 slackMessageTs =>
    obtain rfl := h
    obtain ⟨row, hrow, hcase⟩ := hconflicts
    exact deliverOperation_conflict hrow hcase

/-- Raised for a conflict, or because SQLite failed. -/
inductive Refuses (faulty : Prop) : Except Exc RelayClaim → Prop where
  | relayError (code : String) : Refuses faulty (.error (.relayError code))
  | failed {e : Exc} : faulty → Refuses faulty (.error e)

theorem refuses_conflictOf (envelope : RelayEnvelope) (digest : Hex 64) (found : Option Operation) :
    Refuses faulty (.error (conflictOf envelope digest found)) := by
  cases found with
  | none => exact .relayError _
  | some row =>
    rw [conflictOf]
    split_ifs
    · exact .relayError _
    · exact .relayError _

/-- The row of an operation id whose claim conflicts is another envelope's. -/
theorem Conflicts.differs (hone : OneOperation rows) (h : Conflicts py rows (.claim envelope))
    (hsha : envelope.sha256 py = .ok digest) {row : Operation} (hrow : rows.lookup envelope.operationId = some row) :
    envelope.Differs digest row := by
  obtain ⟨digest', hsha', hcase⟩ := h
  obtain rfl : digest' = digest := Except.ok.inj (hsha'.symm.trans hsha)
  rcases hcase with ⟨row', hrow', hdiffers⟩ | ⟨id, other, hother, hmessage, hne⟩
  · obtain rfl : row' = row := Option.some.inj (hrow'.symm.trans hrow)
    exact hdiffers
  · refine .inr fun heq => hne ?_
    exact hone _ _ _ _ hother hrow (hmessage.trans heq.symm)

/-- A call in conflict with a row changes nothing, and its program does not return. -/
theorem Effect.conflicts (hone : OneOperation rows) (h : Effect py faulty rows request rows' program)
    (hconflicts : Conflicts py rows request) : rows' = rows ∧ ∀ result, program = .done result → Refuses faulty result := by
  cases h with
  | @inserted envelope digest count after hashed inserts =>
    have hchange : Change py rows rows' (.claim envelope) := ⟨digest, count, hashed, inserts⟩
    have hsame : rows' = rows := hchange.conflicts hconflicts
    refine ⟨hsame, fun result hresult => ?_⟩
    cases hresult
    rw [hsame]
    cases hrow : rows.lookup envelope.operationId with
    | none => exact .relayError _
    | some row =>
      rw [claimed, if_pos (hconflicts.differs hone hashed hrow)]
      exact .relayError _
  | refused hashed => exact ⟨rfl, nofun⟩
  | conflict =>
    refine ⟨rfl, fun result hresult => ?_⟩
    cases hresult
    exact refuses_conflictOf _ _ _
  | @delivered operationId envelopeSha256 slackMessageTs =>
    obtain ⟨row, hrow, hcase⟩ := hconflicts
    have hsame := deliverOperation_conflict hrow hcase
    refine ⟨hsame, fun result hresult => ?_⟩
    cases hresult
    rw [hsame, hrow, Slack.delivered]
    by_cases hsha : row.envelopeSha256 = envelopeSha256
    · obtain ⟨ts, hts, hne⟩ := hcase.resolve_left (not_not.mpr hsha)
      rw [if_neg (not_not.mpr hsha), if_pos (by rw [hts]; exact fun h => hne (Option.some.inj h))]
      exact .relayError _
    · rw [if_pos hsha]
      exact .relayError _
  | failed fails changes =>
    refine ⟨changes.elim id fun hchange => hchange.conflicts hconflicts, fun result hresult => ?_⟩
    cases hresult
    exact .failed fails

/-! ### What is returned -/

theorem claimed_ok {created : Bool} {found : Option Operation} {claim : RelayClaim} (h : claimed envelope digest created found = .ok claim) :
    ∃ row, found = some row ∧ row.messageId = envelope.messageId ∧ claim = claimFromRow envelope.operationId row created := by
  cases found with
  | none => cases h
  | some row =>
    rw [claimed] at h
    split_ifs at h with hdiffers
    cases h
    exact ⟨row, rfl, by_contra fun hne => hdiffers (.inr hne), rfl⟩

theorem delivered_ok {envelopeSha256 slackMessageTs : Str} {found : Option Operation} {claim : RelayClaim}
    (h : delivered operationId envelopeSha256 slackMessageTs found = .ok claim) :
    ∃ row, found = some row ∧ claim = claimFromRow operationId row false := by
  cases found with
  | none => cases h
  | some row =>
    rw [delivered] at h
    split_ifs at h
    cases h
    exact ⟨row, rfl, rfl⟩

/-- A claim that a call returns is a row of the table, and one it created had neither its
operation id nor its message id in the table before. -/
theorem Effect.returns {claim : RelayClaim} (h : Effect py faulty rows request rows' (.done (.ok claim))) :
    (∃ row, rows'.lookup claim.operationId = some row ∧ claim = claimFromRow claim.operationId row claim.created) ∧
      (claim.created = true → rows.lookup claim.operationId = none ∧
        ∀ id row, rows.lookup id = some row → row.messageId ≠ claim.messageId) := by
  generalize hprogram : (Prog.done (.ok claim) : Program RelayClaim) = program at h
  cases h with
  | @inserted envelope digest count after hashed inserts =>
    obtain ⟨row, hrow, hmessage, rfl⟩ := claimed_ok (Prog.done.inj hprogram).symm
    refine ⟨⟨row, hrow, rfl⟩, fun hcreated => ?_⟩
    rcases insertOperation_some inserts with ⟨-, -, rfl, -⟩ | ⟨hnew, hfree, -, -⟩
    · cases hcreated
    · refine ⟨hnew, fun id other hother heq => hfree id other hother ?_⟩
      exact heq.trans hmessage
  | @delivered operationId envelopeSha256 slackMessageTs =>
    obtain ⟨row, hrow, rfl⟩ := delivered_ok (Prog.done.inj hprogram).symm
    exact ⟨⟨row, hrow, rfl⟩, nofun⟩
  | refused => cases hprogram
  | conflict => cases hprogram
  | failed => cases hprogram

/-! ### Pools of stores -/

/-- Steps of any number of stores on one database. -/
abbrev RelayStep (py : Interpreter Empty) (faulty : Prop) {ι : Type} [DecidableEq ι] :=
  PoolStep (α := RelayClaim) (ι := ι) (Sqlite faulty) (fun _ _ => False) (Request.run py)

variable {ι : Type} [DecidableEq ι] {p p' q q' : Pool Calls Exc RelayClaim Operations ι Request}
  {events : List (PoolEvent ι Request)}

/-- No call has been made, on an empty table. -/
structure Fresh (p : Pool Calls Exc RelayClaim Operations ι Request) : Prop where
  state : p.state = ∅
  idle : ∀ i, ∃ e, p.program i = .done (.error e)

/-- What holds in every run. -/
structure Held (py : Interpreter Empty) (p : Pool Calls Exc RelayClaim Operations ι Request) : Prop where
  one : OneOperation p.state
  stage : ∀ i, Stage py (p.data i) (p.program i)

omit [DecidableEq ι] in
theorem Fresh.held (h : Fresh p) : Held py p := by
  refine ⟨fun id id' row row' hrow => ?_, fun i => ?_⟩
  · simp [h.state] at hrow
  · obtain ⟨e, he⟩ := h.idle i
    rw [he]
    exact .ended

/-- A call of a thread is an effect of its request. -/
theorem step_effect (hheld : Held py p) {i : ι} (h : RelayStep py faulty p (.call i) p') :
    p'.data = p.data ∧ (∀ j, j ≠ i → p'.program j = p.program j) ∧
      Effect py faulty p.state (p.data i) p'.state (p'.program i) := by
  cases h with
  | @call _ op next reply s hprogram hcall =>
    have hstage := hheld.stage i
    rw [hprogram] at hstage
    refine ⟨rfl, fun j hj => Function.update_of_ne hj _ _, ?_⟩
    simpa using call_cases hstage hcall

theorem step_held {event : PoolEvent ι Request} (hheld : Held py p) (h : RelayStep py faulty p event p') :
    Held py p' ∧ Grows p.state p'.state := by
  cases event with
  | start i request =>
    cases h
    refine ⟨⟨hheld.one, fun j => ?_⟩, Grows.refl _⟩
    by_cases hj : j = i
    · subst hj
      simpa using stage_run request
    · simpa [hj] using hheld.stage j
  | call i =>
    obtain ⟨hdata, hothers, heffect⟩ := step_effect hheld h
    obtain ⟨hgrows, hone⟩ := heffect.grows hheld.one
    refine ⟨⟨hone, fun j => ?_⟩, hgrows⟩
    rw [hdata]
    by_cases hj : j = i
    · subst hj
      exact heffect.stage
    · rw [hothers j hj]
      exact hheld.stage j
  | other =>
    cases h with
    | other hother => exact hother.elim

theorem run_held (hheld : Held py p) (h : Run (RelayStep py faulty) p events p') :
    Held py p' ∧ Grows p.state p'.state := by
  induction h with
  | nil => exact ⟨hheld, Grows.refl _⟩
  | snoc _ hstep ih =>
    obtain ⟨hheld', hgrows⟩ := step_held ih.1 hstep
    exact ⟨hheld', ih.2.trans hgrows⟩

/-- A step in which the call of a thread returns a claim. -/
def Returns (py : Interpreter Empty) (faulty : Prop) (p p' : Pool Calls Exc RelayClaim Operations ι Request) (i : ι)
    (claim : RelayClaim) : Prop :=
  RelayStep py faulty p (.call i) p' ∧ p'.program i = .done (.ok claim)

theorem Returns.effect {i : ι} {claim : RelayClaim} (hheld : Held py p) (h : Returns py faulty p p' i claim) :
    Effect py faulty p.state (p.data i) p'.state (.done (.ok claim)) := h.2 ▸ (step_effect hheld h.1).2.2

/-- What was created is not created again. -/
theorem created_once {i j : ι} {claim claim' : RelayClaim} (hheld : Held py p) (h : Returns py faulty p p' i claim)
    (hrun : Run (RelayStep py faulty) p' events q) (h' : Returns py faulty q q' j claim')
    (hsame : claim'.operationId = claim.operationId ∨ claim'.messageId = claim.messageId) : claim'.created = false := by
  obtain ⟨⟨row, hrow, hclaim⟩, -⟩ := (h.effect hheld).returns
  obtain ⟨hheldq, hgrows⟩ := run_held (step_held hheld h.1).1 hrun
  obtain ⟨ts, hrow', -⟩ := hgrows _ _ hrow
  cases hcreated : claim'.created with
  | false => rfl
  | true =>
    obtain ⟨hnew, hfree⟩ := (h'.effect hheldq).returns.2 hcreated
    rcases hsame with hid | hmessage
    · rw [hid, hrow'] at hnew
      cases hnew
    · refine absurd ?_ (hfree _ _ hrow')
      rw [hmessage, hclaim]
      rfl

/-- The call of a thread, unless it starts another, does not return and changes nothing. -/
def Refused (py : Interpreter Empty) (faulty : Prop) (p : Pool Calls Exc RelayClaim Operations ι Request) (i : ι) : Prop :=
  ∀ events q, Run (RelayStep py faulty) p events q → (∀ request, .start i request ∉ events) →
    (∀ result, q.program i = .done result → Refuses faulty result) ∧
      ∀ q', RelayStep py faulty q (.call i) q' → q'.state = q.state

/-- A request that encodes and whose integers SQLite has. -/
def Storable (py : Interpreter Empty) : Request → Prop
  | .claim envelope => (∃ digest, envelope.sha256 py = .ok digest) ∧ envelope.createdAtMs < 2 ^ 63
  | .markDelivered operationId envelopeSha256 slackMessageTs =>
    [slackMessageTs, operationId, envelopeSha256].all encodable = true

theorem run_refuses {result : Except Exc RelayClaim} (h : Storable py request) (hdone : request.run py = .done result) :
    Refuses faulty result := by
  cases request with
  | claim envelope =>
    obtain ⟨⟨digest, hsha⟩, hsmall⟩ := h
    rw [Request.run, claim, hsha] at hdone
    simp only [Prog.refuseIf, not_le.mpr hsmall, if_false] at hdone
    cases hdone
  | markDelivered operationId envelopeSha256 slackMessageTs =>
    rw [Request.run, markDelivered] at hdone
    by_cases hts : isTimestamp slackMessageTs = false
    · simp only [Prog.refuseIf, hts, if_true] at hdone
      cases hdone
      exact .relayError _
    · rw [Storable] at h
      simp only [Prog.refuseIf, hts, h] at hdone
      cases hdone

/-- A conflict lasts, as rows only grow. -/
theorem refused_of_conflicts {i : ι} (hheld : Held py p) (hconflicts : Conflicts py p.state (p.data i))
    (hnot : ∀ result, p.program i = .done result → Refuses faulty result) : Refused py faulty p i := by
  intro events q hrun hsame
  have hall : Held py q ∧ Conflicts py q.state (q.data i) ∧ ∀ result, q.program i = .done result → Refuses faulty result := by
    induction hrun with
    | nil => exact ⟨hheld, hconflicts, hnot⟩
    | @snoc events q event r hrun hstep ih =>
      obtain ⟨hheldq, hconflictsq, hnotq⟩ := ih fun request hmem => hsame request (List.mem_append_left _ hmem)
      obtain ⟨hheldr, hgrows⟩ := step_held hheldq hstep
      cases event with
      | start j request =>
        have hj : i ≠ j := by
          rintro rfl
          exact hsame request (List.mem_append_right _ (List.mem_singleton.mpr rfl))
        cases hstep
        exact ⟨hheldr, by simpa [hj] using hconflictsq, fun result => by simpa [hj] using hnotq result⟩
      | call j =>
        obtain ⟨hdata, hothers, heffect⟩ := step_effect hheldq hstep
        refine ⟨hheldr, hdata ▸ hconflictsq.grows hgrows, ?_⟩
        by_cases hj : i = j
        · subst hj
          exact (heffect.conflicts hheldq.one hconflictsq).2
        · rw [hothers i hj]
          exact hnotq
      | other =>
        cases hstep with
        | other hother => exact hother.elim
  obtain ⟨hheldq, hconflictsq, hnotq⟩ := hall
  exact ⟨hnotq, fun q' hstep => ((step_effect hheldq hstep).2.2.conflicts hheldq.one hconflictsq).1⟩

/-- **The first claim and the first delivery win.** However the calls of any stores interleave,
and whether or not SQLite fails: after a claim is returned no other of its operation id or
its message id is returned as created; rows stay bound and a timestamp stays set; a claim
that is returned is a row of the table; and a call in conflict with a row, when it is made or
while it is in progress, changes nothing and raises a `RelayError`, unless SQLite fails. -/
theorem first_claim_wins (hp : Fresh p) (hrun : Run (RelayStep py faulty) p events p') :
    (∀ i claim q, Returns py faulty p' q i claim → ∀ later r r' j claim', Run (RelayStep py faulty) q later r →
      Returns py faulty r r' j claim' →
      claim'.operationId = claim.operationId ∨ claim'.messageId = claim.messageId → claim'.created = false) ∧
    (∀ later q, Run (RelayStep py faulty) p' later q → Grows p'.state q.state) ∧
    (∀ i claim q, Returns py faulty p' q i claim →
      ∃ row, q.state.lookup claim.operationId = some row ∧ claim = claimFromRow claim.operationId row claim.created) ∧
    (∀ i request q, RelayStep py faulty p' (.start i request) q → Storable py request →
      Conflicts py p'.state request → Refused py faulty q i) ∧
    ∀ i op next, p'.program i = .call op next → Conflicts py p'.state (p'.data i) → Refused py faulty p' i := by
  have hheld := (run_held hp.held hrun).1
  refine ⟨fun i claim q hreturns later r r' j claim' hlater hreturns' hsame =>
      created_once hheld hreturns hlater hreturns' hsame,
    fun later q hlater => (run_held hheld hlater).2,
    fun i claim q hreturns => (hreturns.effect hheld).returns.1, fun i request q hstep hstorable hconflicts => ?_,
    fun i op next hprogram hconflicts => refused_of_conflicts hheld hconflicts fun result hdone => ?_⟩
  · have hheldq := (step_held hheld hstep).1
    cases hstep
    refine refused_of_conflicts hheldq (by simpa using hconflicts) fun result hdone => ?_
    exact run_refuses hstorable (by simpa using hdone)
  · rw [hprogram] at hdone
    cases hdone

/-! ### Two operations for one message -/

theorem isHex_slackHash : Postgres.isHex 64 "b94d27b9934d3e08a52e52d7da7dabfac484efe37a5380ee9088f7ace2efcde9" = true := by
  decide +kernel

def slackPython : Interpreter Empty :=
  asciiInterpreter fun _ => ⟨"b94d27b9934d3e08a52e52d7da7dabfac484efe37a5380ee9088f7ace2efcde9", isHex_slackHash⟩

def slackFields (operationId : Str) : EnvelopeFields :=
  ⟨operationId, lit "m-1", lit "one", lit "two", lit "C1", lit "hi", 1, none, none⟩

def firstEnvelope : RelayEnvelope := ⟨slackFields (lit "op-1"), by decide +kernel⟩

def secondEnvelope : RelayEnvelope := ⟨slackFields (lit "op-2"), by decide +kernel⟩

theorem secondEnvelope_sha256 : secondEnvelope.sha256 slackPython = .ok (slackPython.sha256 default) := by decide +kernel

/-- SQLite that works. -/
def sqliteAnswer (op : Op) (rows : Operations) : Except Exc op.Reply × Operations :=
  match op with
  | .insert operationId row =>
    match insertOperation rows operationId row with
    | some (count, after) => (.ok (count, after.lookup operationId), after)
    | none => (.error .integrityError, rows)
  | .select operationId => (.ok (rows.lookup operationId), rows)
  | .deliver operationId envelopeSha256 slackMessageTs =>
    let after := deliverOperation rows operationId envelopeSha256 slackMessageTs
    (.ok (after.lookup operationId), after)

theorem sqlite_sqliteAnswer (op : Op) (rows : Operations) :
    Sqlite faulty op rows (sqliteAnswer op rows).1 (sqliteAnswer op rows).2 := by
  cases op with
  | insert operationId row =>
    simp only [Sqlite, sqliteAnswer]
    cases insertOperation rows operationId row with
    | none => exact ⟨rfl, .inl rfl⟩
    | some outcome => rfl
  | _ => rfl

/-- Two stores that have not been called. -/
def slackPool : Pool Calls Exc RelayClaim Operations Bool Request :=
  ⟨∅, fun _ => .claim firstEnvelope, fun _ => .done (.error .databaseError)⟩

/-- What a request does to a table. -/
def slackPlay (request : Request) (rows : Operations) : Except Exc RelayClaim × Operations :=
  ((request.run slackPython).play sqliteAnswer rows).2

theorem runs_slackPlay (i : Bool) (request : Request) (p : Pool Calls Exc RelayClaim Operations Bool Request) :
    ∃ p₁ events p₂, RelayStep slackPython False p (.start i request) p₁ ∧ p₁.state = p.state ∧
      Run (RelayStep slackPython False) p₁ events p₂ ∧ (∀ request', .start i request' ∉ events) ∧
      p₂.state = (slackPlay request p.state).2 ∧ p₂.program i = .done (slackPlay request p.state).1 := by
  have hruns := runs_play (J := fun _ => True) (fun op rows _ => ⟨@sqlite_sqliteAnswer False op rows, trivial⟩)
    (request.run slackPython) p.state trivial
  refine ⟨_, _, _, .start i request, rfl, hruns.pool (i := i) rfl (by simp), ?_, rfl, by simp [slackPlay]⟩
  simp

theorem first_claim_wins_sample : ∃ rows, rows = (slackPlay (.claim firstEnvelope) ∅).2 ∧
    (slackPlay (.claim secondEnvelope) rows).1 = .error (.relayError "MESSAGE_ID_CONFLICT") ∧
    Refuses False (slackPlay (.claim secondEnvelope) rows).1 := by
  obtain ⟨p₁, events, p₂, hstart, -, hrun, -, hrows, -⟩ := runs_slackPlay true (.claim firstEnvelope) slackPool
  obtain ⟨q₁, later, q₂, hstart', hsame, hrun', hnone, hrows', hprogram⟩ := runs_slackPlay false (.claim secondEnvelope) p₂
  have hfresh : Fresh slackPool := ⟨rfl, fun _ => ⟨_, rfl⟩⟩
  have hconflicts : Conflicts slackPython p₂.state (.claim secondEnvelope) := by
    have hrow : p₂.state.lookup (lit "op-1") = some (firstEnvelope.row (slackPython.sha256 default)) := by
      rw [hrows]
      decide +kernel
    exact ⟨slackPython.sha256 default, secondEnvelope_sha256, .inr ⟨lit "op-1", _, hrow, by decide +kernel, by decide +kernel⟩⟩
  have hrefused := (first_claim_wins hfresh ((Run.single hstart).trans hrun)).2.2.2.1 false _ q₁ hstart'
    ⟨⟨slackPython.sha256 default, secondEnvelope_sha256⟩, by decide +kernel⟩ hconflicts
  have hcode : (slackPlay (.claim secondEnvelope) p₂.state).1 = .error (.relayError "MESSAGE_ID_CONFLICT") := by
    rw [hrows]
    decide +kernel
  exact ⟨p₂.state, hrows, hcode, (hrefused later q₂ hrun' hnone).1 _ hprogram⟩

end CcbCore.Slack
