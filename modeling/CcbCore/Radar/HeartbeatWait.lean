import CcbCore.Radar.HeartbeatHistory

/-!
# The wait for a heartbeat

`milliseconds_until_heartbeat` says how long it is until a claim creates a heartbeat, by
another computation than the claim's own. The two agree on every database that stores and
runtimes come to, exactly when the claim can be stored: no counter has gone past 64 bits, and
what it records encodes (`wait_exact_iff`). A counter that has gone past is read, but cannot
be written into a row: then the wait is over, and every claim raises (`overflowed_wait`).
-/

namespace CcbCore.Telemetry

open CcbCore.CodePoints CcbCore.Radar

variable {db db' : Database} {isoformat : ℤ → Str} {nowMs d k : ℤ} {sourceRef providerState : Option Str}

/-- `milliseconds_until_heartbeat`. -/
def Database.millisecondsUntilHeartbeat (db : Database) (nowMs : ℤ) : Except Exc ℤ :=
  if nowMs < 0 then .error (refusal "INVALID_HEARTBEAT_TIME")
  else
    match db.lastHeartbeatMs with
    | none => .ok 0
    | some last =>
      if nowMs < last then .error (refusal "HEARTBEAT_CLOCK_REGRESSION")
      else .ok (max 0 (heartbeatIntervalMs - (nowMs - last)))

/-! ### Claims -/

/-- A claim puts a heartbeat of its time on record, and returns it if its time has a text. -/
def Creates (isoformat : ℤ → Str) (db : Database) (nowMs : ℤ) (sourceRef providerState : Option Str) : Prop :=
  ∃ answers result db' row,
    Runs (Sqlite False) (claimHeartbeat isoformat nowMs sourceRef providerState) db answers result db' ∧
    db'.heartbeats = db.heartbeats ++ [row] ∧ row.emittedAtMs = nowMs ∧
    (nowMs < 253402300800000 → ∃ heartbeat, result = .ok (some heartbeat) ∧ heartbeat.heartbeatSequence = row.heartbeatId)

theorem runs_claimHeartbeat_created (hnow : 0 ≤ nowMs) {created : Created}
    (hcreate : db.create nowMs sourceRef providerState .pending = .ok (some created, db')) :
    Runs (Sqlite False) (claimHeartbeat isoformat nowMs sourceRef providerState) db
      [⟨.create nowMs sourceRef providerState .pending, .ok (some created)⟩]
      ((fromTimestamp isoformat nowMs).map fun createdAt =>
        some ⟨created.heartbeatId, nowMs, created.missedIntervals, created.counts, sourceRef, providerState, createdAt⟩) db' := by
  rw [claimHeartbeat, createHeartbeat_eq hnow]
  exact .call hcreate .done

theorem creates_claim_iff : Creates isoformat db nowMs sourceRef providerState ↔
    0 ≤ nowMs ∧ Due db nowMs ∧ Storable db nowMs sourceRef providerState := by
  constructor
  · rintro ⟨answers, result, db', row, hruns, hrow, -, -⟩
    have hchanged : db' ≠ db := by
      rintro rfl
      simp at hrow
    by_cases hnow : 0 ≤ nowMs
    · rw [claimHeartbeat, createHeartbeat_eq hnow, runs_call] at hruns
      obtain ⟨reply, mid, rest, hcall, -, hrest⟩ := hruns
      rcases reply with e | _ | created
      · obtain ⟨-, -, rfl⟩ := runs_done.mp hrest
        exact absurd hcall.1 hchanged
      · obtain ⟨-, -, rfl⟩ := runs_done.mp hrest
        exact absurd (create_none hcall) hchanged
      · exact ⟨hnow, creates_iff.mp ⟨created, mid, hcall⟩⟩
    · rw [claimHeartbeat, createHeartbeat, Prog.refuseIf, if_pos (not_le.mp hnow)] at hruns
      obtain ⟨-, -, rfl⟩ := runs_done.mp hruns
      exact absurd rfl hchanged
  · rintro ⟨hnow, hdue, hstorable⟩
    obtain ⟨created, db', hcreate⟩ : ∃ created db', db.create nowMs sourceRef providerState .pending = .ok (some created, db') :=
      creates_iff.mpr ⟨hdue, hstorable⟩
    obtain ⟨counts, -, -, houtcome⟩ := insertHeartbeat_ok.mp (create_some.mp hcreate).2
    obtain ⟨rfl, rfl⟩ := Prod.mk.inj houtcome
    refine ⟨_, _, _, _, runs_claimHeartbeat_created hnow hcreate, rfl, rfl, fun hearly => ?_⟩
    rw [fromTimestamp, if_pos hearly]
    exact ⟨_, rfl, rfl⟩

/-! ### The wait and the claim -/

/-- The counters are integers of SQLite. -/
def Countable (db : Database) : Prop := ∀ counter, ∀ value ∈ db.counters counter, fits value = true

/-- The tables have their counters, and an id for each interval up to the last heartbeat. -/
structure Steady (db : Database) : Prop where
  counters : ∀ counter, ∃ value, db.counters counter = some value
  first : db.lastHeartbeatMs = none → db.sequence = 0
  spaced : ∀ last ∈ db.lastHeartbeatMs, heartbeatIntervalMs * (db.sequence - 1) ≤ last

theorem fits_iff {n : ℤ} : fits n = true ↔ n < 2 ^ 63 := decide_eq_true_iff

/-- On tables that have their counters a claim can be stored when these, and its texts, can. -/
theorem storable_iff (hdb : Steady db) (hlast : ∀ last ∈ db.lastHeartbeatMs, last ≤ 253402300800000)
    (hnow : nowMs < 253402300860000) :
    Storable db nowMs sourceRef providerState ↔
      Countable db ∧ (sourceRef.toList ++ providerState.toList).all encodable = true := by
  obtain ⟨routed, hrouted⟩ := hdb.counters .routed
  obtain ⟨dropped, hdropped⟩ := hdb.counters .dropped
  obtain ⟨dlq, hdlq⟩ := hdb.counters .dlq
  have hsnapshot : db.snapshot = some ⟨routed, dropped, dlq⟩ := by rw [Database.snapshot, hrouted, hdropped, hdlq]
  have hcountable : Countable db ↔ fits routed = true ∧ fits dropped = true ∧ fits dlq = true := by
    constructor
    · exact fun h => ⟨h .routed routed hrouted, h .dropped dropped hdropped, h .dlq dlq hdlq⟩
    · rintro ⟨hr, hd, hq⟩ counter value hvalue
      cases counter with
      | routed => exact Option.some.inj (hrouted.symm.trans hvalue) ▸ hr
      | dropped => exact Option.some.inj (hdropped.symm.trans hvalue) ▸ hd
      | dlq => exact Option.some.inj (hdlq.symm.trans hvalue) ▸ hq
  have htime : fits nowMs = true := fits_iff.mpr (by omega)
  have hid : fits (db.sequence + 1) = true := by
    rw [fits_iff]
    cases hms : db.lastHeartbeatMs with
    | none =>
      rw [hdb.first hms]
      omega
    | some last =>
      have hspaced := hdb.spaced last hms
      have hle := hlast last hms
      unfold heartbeatIntervalMs at hspaced
      omega
  unfold Storable
  simp only [hsnapshot, Option.some.injEq, exists_eq_left', hcountable, List.all_cons, List.all_nil, Bool.and_true,
    Bool.and_eq_true, htime, hid, true_and, and_true]

/-- What is said of the wait. -/
structure WaitExact (isoformat : ℤ → Str) (db : Database) (nowMs : ℤ) (sourceRef providerState : Option Str) : Prop where
  creates : Creates isoformat db nowMs sourceRef providerState ↔ db.millisecondsUntilHeartbeat nowMs = .ok 0
  early : ∀ d, db.millisecondsUntilHeartbeat nowMs = .ok d →
    ∀ k, 0 ≤ k → k < d → ¬ Creates isoformat db (nowMs + k) sourceRef providerState
  due : ∀ d, db.millisecondsUntilHeartbeat nowMs = .ok d → Creates isoformat db (nowMs + d) sourceRef providerState

/-- How long the wait is: then a heartbeat is due, and not before. -/
theorem millisecondsUntilHeartbeat_ok (hnow : 0 ≤ nowMs) (hlast : ∀ last ∈ db.lastHeartbeatMs, last ≤ nowMs) :
    ∃ d, db.millisecondsUntilHeartbeat nowMs = .ok d ∧ 0 ≤ d ∧ d ≤ heartbeatIntervalMs ∧
      ∀ k, 0 ≤ k → (Due db (nowMs + k) ↔ d ≤ k) := by
  unfold Database.millisecondsUntilHeartbeat Due
  rw [if_neg (not_lt.mpr hnow)]
  cases hms : db.lastHeartbeatMs with
  | none => exact ⟨0, rfl, le_rfl, by decide, fun k hk => by simp [hk]⟩
  | some last =>
    have hle := hlast last hms
    refine ⟨_, if_neg (not_lt.mpr hle), le_max_left _ _, ?_, fun k hk => ?_⟩
    · unfold heartbeatIntervalMs
      omega
    · simp only [Option.mem_def, Option.some.injEq, forall_eq', heartbeatIntervalMs]
      omega

/-- On such tables the wait agrees with the claim exactly when the claim can be stored. -/
theorem Steady.waitExact_iff (hdb : Steady db) (hlast : ∀ last ∈ db.lastHeartbeatMs, last ≤ nowMs) (hyear : nowMs < 253402300800000) :
    WaitExact isoformat db nowMs sourceRef providerState ↔
      nowMs < 0 ∨ (Countable db ∧ (sourceRef.toList ++ providerState.toList).all encodable = true) := by
  by_cases hnow : 0 ≤ nowMs
  · have hstorable {k : ℤ} (hk : k ≤ heartbeatIntervalMs) : Storable db (nowMs + k) sourceRef providerState ↔
        Countable db ∧ (sourceRef.toList ++ providerState.toList).all encodable = true := by
      refine storable_iff hdb (fun last hms => ?_) ?_
      · have := hlast last hms
        omega
      · unfold heartbeatIntervalMs at hk
        omega
    obtain ⟨d, hd, hnonneg, hmost, hdue⟩ := millisecondsUntilHeartbeat_ok hnow hlast
    rw [or_iff_right (not_lt.mpr hnow)]
    constructor
    · intro h
      exact (hstorable hmost).mp (creates_claim_iff.mp (h.due d hd)).2.2
    · intro hfits
      refine ⟨?_, fun d' hd' k hk hkd hcreates => ?_, fun d' hd' => ?_⟩
      · have hzero := hdue 0 le_rfl
        have hstored := (hstorable (k := 0) (by decide)).mpr hfits
        rw [Int.add_zero] at hzero hstored
        rw [creates_claim_iff, hd, hzero, Except.ok.injEq]
        constructor
        · exact fun h => le_antisymm h.2.1 hnonneg
        · exact fun h => ⟨hnow, h.le, hstored⟩
      · obtain rfl : d = d' := Except.ok.inj (hd.symm.trans hd')
        exact absurd ((hdue k hk).mp (creates_claim_iff.mp hcreates).2.1) (not_le.mpr hkd)
      · obtain rfl : d = d' := Except.ok.inj (hd.symm.trans hd')
        exact creates_claim_iff.mpr ⟨by omega, (hdue d hnonneg).mpr le_rfl, (hstorable hmost).mpr hfits⟩
  · have hraises : db.millisecondsUntilHeartbeat nowMs = .error (refusal "INVALID_HEARTBEAT_TIME") := if_pos (not_le.mp hnow)
    refine iff_of_true ⟨?_, fun d hd => ?_, fun d hd => ?_⟩ (.inl (not_le.mp hnow))
    · rw [creates_claim_iff, hraises]
      exact iff_of_false (fun h => hnow h.1) nofun
    · rw [hraises] at hd
      cases hd
    · rw [hraises] at hd
      cases hd

/-! ### Tables that are come to -/

/-- A call that a program makes: a heartbeat's time is not negative. -/
def Asked : Op → Prop
  | .create nowMs _ _ _ => 0 ≤ nowMs
  | _ => True

theorem only_createHeartbeat {state : DeliveryState} :
    (createHeartbeat isoformat nowMs sourceRef providerState state).Only Asked := by
  by_cases hnow : 0 ≤ nowMs
  · rw [createHeartbeat_eq hnow]
    refine ⟨hnow, fun reply => ?_⟩
    rcases reply with e | _ | created <;> trivial
  · rw [createHeartbeat, Prog.refuseIf, if_pos (not_le.mp hnow)]
    trivial

theorem only_handOver (heartbeat : HeartbeatMessage) : (handOver heartbeat).Only Asked := by
  have hmark (state : DeliveryState) : (markHeartbeatDelivery heartbeat.heartbeatSequence state).Only Asked :=
    .bind trivial fun _ => .bind (.ask trivial) fun _ => trivial
  refine ⟨trivial, fun reply => ?_⟩
  cases reply with
  | ok _ => exact (hmark .delivered).bind fun _ => trivial
  | error e => exact (hmark .unconfirmed).bind fun _ => trivial

theorem only_tick : (tick isoformat).Only Asked := by
  refine .bind (.ask trivial) fun _ => .bind (.ask trivial) fun _ => .bind (.ask trivial) fun _ => ?_
  refine only_createHeartbeat.bind fun claimed => ?_
  cases claimed with
  | none => trivial
  | some heartbeat => exact .bind trivial fun _ => only_handOver heartbeat

theorem only_request (request : Request) : (request.run isoformat).Only Asked := by
  cases request with
  | openStore => exact .bind (.ask trivial) fun _ => trivial
  | increment counter amount => exact .bind (.bind trivial fun _ => .bind trivial fun _ => .ask trivial) fun _ => trivial
  | emitHeartbeat nowMs sourceRef providerState => exact only_createHeartbeat
  | tick => exact only_tick

/-- The last heartbeat is one that was due. -/
theorem lastHeartbeatMs_created {row : HeartbeatRow} (hdue : Due db row.emittedAtMs) :
    ({ db with heartbeats := db.heartbeats ++ [row], sequence := db.sequence + 1 } : Database).lastHeartbeatMs =
      some row.emittedAtMs := by
  rw [Database.lastHeartbeatMs, List.max?_eq_some_iff]
  refine ⟨by simp, fun emitted hemitted => ?_⟩
  simp only [List.map_append, List.mem_append, List.map_cons, List.map_nil, List.mem_singleton] at hemitted
  rcases hemitted with hemitted | rfl
  · cases hlast : db.lastHeartbeatMs with
    | none =>
      rw [Database.lastHeartbeatMs, List.max?_eq_none_iff] at hlast
      rw [hlast] at hemitted
      cases hemitted
    | some last =>
      have hle : emitted ≤ last := (List.max?_eq_some_iff.mp hlast).2 emitted hemitted
      have hgap := hdue last hlast
      unfold heartbeatIntervalMs at hgap
      omega
  · exact le_rfl

theorem lastHeartbeatMs_mark (id : ℤ) (state : DeliveryState) : (db.mark id state).2.lastHeartbeatMs = db.lastHeartbeatMs := by
  have hsame (row : HeartbeatRow) : (row.mark id state).emittedAtMs = row.emittedAtMs := by
    obtain ⟨state', hstate'⟩ := row.mark_eq id state
    rw [hstate']
  unfold Database.lastHeartbeatMs Database.mark
  rw [List.map_map]
  exact congrArg List.max? (List.map_congr_left fun row _ => hsame row)

theorem Steady.same (hdb : Steady db) (hcounters : ∀ counter, ∃ value, db'.counters counter = some value)
    (hlast : db'.lastHeartbeatMs = db.lastHeartbeatMs) (hsequence : db'.sequence = db.sequence) : Steady db' :=
  ⟨hcounters, by rw [hlast, hsequence]; exact hdb.first, by rw [hlast, hsequence]; exact hdb.spaced⟩

theorem Steady.created (hdb : Steady db) {row : HeartbeatRow} (hdue : Due db row.emittedAtMs) (hnow : 0 ≤ row.emittedAtMs) :
    Steady { db with heartbeats := db.heartbeats ++ [row], sequence := db.sequence + 1 } := by
  refine ⟨hdb.counters, ?_, fun last hlast => ?_⟩
  · rw [lastHeartbeatMs_created hdue]
    nofun
  · rw [lastHeartbeatMs_created hdue] at hlast
    obtain rfl := Option.some.inj hlast
    cases hms : db.lastHeartbeatMs with
    | none =>
      have hsequence := hdb.first hms
      unfold heartbeatIntervalMs
      dsimp only
      omega
    | some before =>
      have hspaced := hdb.spaced before hms
      have hgap := hdue before hms
      unfold heartbeatIntervalMs at *
      dsimp only
      omega

/-- A call that a program makes keeps it. -/
theorem Steady.call {faulty : Prop} (hdb : Steady db) {op : Op} {reply : Except Exc op.Reply} (hasked : Asked op)
    (h : Sqlite faulty op db reply db') : Steady db' := by
  cases op with
  | openStore =>
    cases reply with
    | ok _ =>
      obtain rfl := h
      exact hdb.same (fun counter => ⟨_, rfl⟩) rfl rfl
    | error e => exact h.1 ▸ hdb
  | increment counter amount =>
    cases reply with
    | ok snapshot =>
      obtain ⟨counters, hincreased, rfl, -⟩ := h
      refine hdb.same (fun other => ?_) rfl rfl
      by_cases hother : other = counter
      · obtain ⟨value, hvalue⟩ := hdb.counters counter
        obtain ⟨-, hcase⟩ := hincreased
        rw [hvalue] at hcase
        obtain ⟨value', hvalue', -⟩ := hcase
        exact ⟨value', hother ▸ hvalue'⟩
      · obtain ⟨value, hvalue⟩ := hdb.counters other
        exact ⟨value, (hincreased.1 other hother).trans hvalue⟩
    | error e => exact h.1 ▸ hdb
  | create nowMs sourceRef providerState state =>
    cases reply with
    | ok created =>
      cases created with
      | none => exact create_none h ▸ hdb
      | some created =>
        obtain ⟨hdue, hinsert⟩ := create_some.mp h
        obtain ⟨counts, -, -, houtcome⟩ := insertHeartbeat_ok.mp hinsert
        obtain ⟨-, rfl⟩ := Prod.mk.inj houtcome
        have hrow : Due db (db.newRow nowMs sourceRef providerState state counts).emittedAtMs := hdue
        exact hdb.created hrow hasked
    | error e => exact h.1 ▸ hdb
  | mark id state =>
    cases reply with
    | ok count =>
      obtain ⟨-, rfl⟩ := Prod.mk.inj h
      exact hdb.same hdb.counters (lastHeartbeatMs_mark id state) rfl
    | error e => exact h.1 ▸ hdb
  | sink heartbeat =>
    obtain rfl : db' = { db with handed := heartbeat.heartbeatSequence :: db.handed } := by cases reply <;> exact h
    exact hdb.same hdb.counters rfl rfl
  | clockMs | sourceRef | providerState =>
    obtain rfl : db' = db := by cases reply <;> exact h
    exact hdb

/-- Tables that stores and runtimes have come to, from the first store on a new file. -/
def Reachable (db : Database) : Prop :=
  ∃ (ι : Type) (_ : DecidableEq ι) (isoformat : ℤ → Str) (p q : TelemetryPool ι) (es : List (PoolEvent ι Request)),
    p.state = Database.opened ∧ (∀ i, ∃ result, p.program i = .done result) ∧ Run (Step True isoformat) p es q ∧ q.state = db

/-- What a thread promises the others, and relies on: steady tables stay steady. -/
def KeepsSteady (db db' : Database) : Prop := Steady db → Steady db'

theorem Reachable.steady (h : Reachable db) : Steady db := by
  obtain ⟨ι, _, isoformat, p, q, es, hstate, hidle, hrun, rfl⟩ := h
  have hopened : Steady p.state := hstate ▸ ⟨fun counter => ⟨0, rfl⟩, fun _ => rfl, nofun⟩
  have hrefl : ∀ db, KeepsSteady db db := fun _ h => h
  have htrans : ∀ db₁ db₂ db₃, KeepsSteady db₁ db₂ → KeepsSteady db₂ db₃ → KeepsSteady db₁ db₃ := fun _ _ _ h₁ h₂ h => h₂ (h₁ h)
  have hpromise : ∀ (_ : Request) (db db' : Database), KeepsSteady db db' → KeepsSteady db db' := fun _ _ _ h => h
  refine (pool_run hrefl htrans hpromise (fun _ _ hno => hno.elim) ?_ (secured_of_done hidle) hrun).2 hopened
  intro request s
  have hsecures : Secures (Sqlite True) KeepsSteady KeepsSteady (fun _ => True) (request.run isoformat) fun _ _ => True :=
    .only (only_request request) fun op s reply s' hop hcall hs => hs.call hop hcall
  exact (hsecures s trivial).mono fun _ _ _ => trivial

/-- **For every database that is come to and every time not before the last heartbeat, the wait
agrees with the claim exactly when the claim can be stored: a claim creates a heartbeat when
the wait is over, creates none as long as it lasts, and one when it ends.** -/
theorem wait_exact_iff (isoformat : ℤ → Str) (sourceRef providerState : Option Str) (hdb : Reachable db)
    (hlast : ∀ last ∈ db.lastHeartbeatMs, last ≤ nowMs) (hyear : nowMs < 253402300800000) :
    WaitExact isoformat db nowMs sourceRef providerState ↔
      nowMs < 0 ∨ (Countable db ∧ (sourceRef.toList ++ providerState.toList).all encodable = true) :=
  hdb.steady.waitExact_iff hlast hyear

theorem reachable_ticked : Reachable (ticked samplePool).state := by
  obtain ⟨es, h⟩ := run_ticked samplePool
  exact ⟨Unit, inferInstance, fun _ => [], samplePool, ticked samplePool, es, rfl, fun _ => ⟨_, rfl⟩, h, rfl⟩

theorem ticked_last : (ticked samplePool).state.lastHeartbeatMs = some 7 := by decide +kernel

/-- Half an interval after the heartbeat of a tick, the wait of the other half is exact. -/
theorem wait_exact_ticked : (ticked samplePool).state.millisecondsUntilHeartbeat 30007 = .ok 30000 ∧
    WaitExact (fun _ => []) (ticked samplePool).state 30007 none none := by
  refine ⟨?_, (wait_exact_iff (fun _ => []) none none reachable_ticked ?_ (by decide)).mpr (.inr ⟨?_, rfl⟩)⟩
  · rw [Database.millisecondsUntilHeartbeat, ticked_last]
    rfl
  · rw [ticked_last]
    rintro _ ⟨⟩
    decide
  · intro counter value hvalue
    obtain rfl : (0 : ℤ) = value := Option.some.inj hvalue
    rfl

/-! ### A counter past 64 bits -/

theorem runs_increment {faulty : Prop} {counter : Counter} {amount : ℤ} {snapshot : TelemetrySnapshot} (hamount : 0 ≤ amount)
    (hfits : fits amount = true) (hcall : Sqlite faulty (.increment counter amount) db (.ok snapshot) db') :
    Runs (Sqlite faulty) (Request.run isoformat (.increment counter amount)) db [⟨.increment counter amount, .ok snapshot⟩]
      (.ok none) db' := by
  have hprogram : Request.run isoformat (.increment counter amount) =
      .call (.increment counter amount) fun reply => .done (reply.map fun _ => none) := by
    have hstored : ¬ fits amount = false := by simp [hfits]
    unfold Request.run increment
    simp only [Prog.refuseIf, if_neg (not_lt.mpr hamount), if_neg hstored]
    refine congrArg (Prog.call (I := Calls) (.increment counter amount)) (funext fun reply => ?_)
    cases reply <;> rfl
  rw [hprogram]
  exact .call hcall .done

/-- The counter `routed` of a store on which nothing else was done. -/
def Database.routed (value : ℤ) : Database :=
  { Database.opened with counters := fun counter => some (if counter = .routed then value else 0) }

theorem sqlite_routed {value amount value' : ℤ} (h : if value + amount < 2 ^ 63 then value' = value + amount else value ≤ value') :
    Sqlite True (.increment .routed amount) (.routed value) (.ok ⟨value', 0, 0⟩) (.routed value') := by
  refine ⟨_, ⟨fun other hother => ?_, value', rfl, h⟩, rfl, rfl⟩
  simp [Database.routed, hother]

/-- One thread increments the counter. -/
theorem reachable_routed {p : TelemetryPool Unit} {value amount value' : ℤ} (hp : p.state = .routed value) (hamount : 0 ≤ amount)
    (hfits : fits amount = true) (h : if value + amount < 2 ^ 63 then value' = value + amount else value ≤ value') :
    ∃ q es, Run (Step True fun _ => []) p es q ∧ q.state = .routed value' := by
  have hruns : Runs (Sqlite True) (Request.run (fun _ => []) (.increment .routed amount)) p.state _ _ _ :=
    runs_increment hamount hfits (hp ▸ sqlite_routed h)
  let started : TelemetryPool Unit := { p with
    data := Function.update p.data () (.increment .routed amount)
    program := Function.update p.program () (Request.run (fun _ => []) (.increment .routed amount)) }
  have hprogram : started.program () = Request.run (fun _ => []) (.increment .routed amount) := by simp [started]
  have hstart : Step True (fun _ => []) p (.start () (.increment .routed amount)) started := PoolStep.start () _
  exact ⟨_, _, .cons hstart (hruns.pool (p := started) rfl hprogram), rfl⟩

theorem routed_zero : Database.routed 0 = .opened := by simp [Database.routed, Database.opened]

theorem reachable_overflowed : Reachable (.routed (2 ^ 63)) := by
  have hhalf : (0 : ℤ) ≤ 2 ^ 62 ∧ fits (2 ^ 62) = true := by decide
  obtain ⟨p, es, hfirst, hp⟩ : ∃ p es, Run (Step True fun _ => []) samplePool es p ∧ p.state = .routed (2 ^ 62) :=
    reachable_routed routed_zero.symm hhalf.1 hhalf.2 (by decide)
  obtain ⟨q, es', hsecond, hq⟩ : ∃ q es', Run (Step True fun _ => []) p es' q ∧ q.state = .routed (2 ^ 63) :=
    reachable_routed hp hhalf.1 hhalf.2 (by decide)
  exact ⟨Unit, inferInstance, fun _ => [], samplePool, q, es ++ es', rfl, fun _ => ⟨_, rfl⟩, hfirst.trans hsecond, hq⟩

/-- After two increments by `2 ^ 62` a heartbeat is due at once, and no claim creates one. -/
theorem overflowed_wait : Reachable (.routed (2 ^ 63)) ∧
    (Database.routed (2 ^ 63)).millisecondsUntilHeartbeat 0 = .ok 0 ∧
    ¬ Creates (fun _ => []) (.routed (2 ^ 63)) 0 none none := by
  refine ⟨reachable_overflowed, rfl, fun hcreates => ?_⟩
  obtain ⟨-, -, counts, hcounts, hfits, -⟩ := creates_claim_iff.mp hcreates
  obtain rfl : ⟨2 ^ 63, 0, 0⟩ = counts := Option.some.inj hcounts
  exact absurd hfits (by decide)

end CcbCore.Telemetry
