import CcbCore.Radar.Telemetry

/-!
# A heartbeat that raises

An exception before the commit rolls back. After the commit only the text of the time is
made, which raises for a time after the year 9999: the row stays then, and every
heartbeat of an earlier time is refused as a regression of the clock
(`heartbeat_atomic_iff`, `heartbeat_raises_after_commit`).
-/

namespace CcbCore.Telemetry

open CcbCore.CodePoints CcbCore.Radar

variable {faulty : Prop} {db db' : Database} {nowMs : ℤ} {sourceRef providerState : Option Str} {state : DeliveryState}
  {isoformat : ℤ → Str}

/-- A heartbeat is due: there is none, or the interval since the last one is over. -/
def Due (db : Database) (nowMs : ℤ) : Prop := ∀ last ∈ db.lastHeartbeatMs, last + heartbeatIntervalMs ≤ nowMs

/-- SQLite can store a heartbeat: its integers have 64 bits, its texts encode, and there is an id. -/
def Storable (db : Database) (nowMs : ℤ) (sourceRef providerState : Option Str) : Prop :=
  ∃ counts, db.snapshot = some counts ∧ [nowMs, counts.routed, counts.dropped, counts.dlq].all fits = true ∧
    (sourceRef.toList ++ providerState.toList).all encodable = true ∧ fits (db.sequence + 1) = true

/-- A call that raises leaves the heartbeats as they were. -/
def Atomic (faulty : Prop) (db : Database) (program : Program (Option HeartbeatMessage)) : Prop :=
  ∀ answers e db', Runs (Sqlite faulty) program db answers (.error e) db' → db'.heartbeats = db.heartbeats

theorem unstorable_eq_none {row : HeartbeatRow} : unstorable row = none ↔
    [row.emittedAtMs, row.counts.routed, row.counts.dropped, row.counts.dlq].all fits = true ∧
      (row.sourceRef.toList ++ row.providerState.toList).all encodable = true ∧ fits row.heartbeatId = true := by
  unfold unstorable
  split_ifs with hfits htexts hid
  · simp only [hfits, Bool.false_eq_true, false_and]
  · simp only [htexts, Bool.false_eq_true, false_and, and_false]
  · simp only [hid, Bool.false_eq_true, and_false]
  · simp only [Bool.not_eq_false] at hfits htexts hid
    simp only [hfits, htexts, hid, and_self]

/-- When the transaction inserts a heartbeat. -/
theorem insertHeartbeat_ok {outcome : Created × Database} :
    db.insertHeartbeat nowMs sourceRef providerState state = .ok outcome ↔
      ∃ counts, db.snapshot = some counts ∧ unstorable (db.newRow nowMs sourceRef providerState state counts) = none ∧
        outcome = (⟨db.sequence + 1, missedIntervals db.lastHeartbeatMs nowMs, counts⟩,
          { db with
            heartbeats := db.heartbeats ++ [db.newRow nowMs sourceRef providerState state counts]
            sequence := db.sequence + 1 }) := by
  unfold Database.insertHeartbeat
  cases hsnapshot : db.snapshot with
  | none => simp
  | some counts =>
    cases hrow : unstorable (db.newRow nowMs sourceRef providerState state counts) with
    | some e => simp [hrow]
    | none =>
      simp only [hrow, Except.ok.injEq, Option.some.injEq, exists_eq_left', true_and]
      exact eq_comm

/-- When the transaction of a heartbeat creates one. -/
theorem create_some {created : Created} :
    db.create nowMs sourceRef providerState state = .ok (some created, db') ↔
      Due db nowMs ∧ db.insertHeartbeat nowMs sourceRef providerState state = .ok (created, db') := by
  unfold Database.create Due
  cases db.lastHeartbeatMs with
  | none =>
    cases db.insertHeartbeat nowMs sourceRef providerState state with
    | error e => simp [Except.map]
    | ok outcome => simp [Except.map, Prod.ext_iff]
  | some last =>
    simp only [Option.mem_def, Option.some.injEq, exists_eq_left', forall_eq', heartbeatIntervalMs]
    split_ifs with hback hearly
    · simp only [false_iff, not_and]
      omega
    · simp only [Except.ok.injEq, Prod.mk.injEq, reduceCtorEq, false_and, false_iff, not_and]
      omega
    · have hdue : last + 60000 ≤ nowMs := by omega
      cases db.insertHeartbeat nowMs sourceRef providerState state with
      | error e => simp [Except.map]
      | ok outcome => simp [Except.map, Prod.ext_iff, hdue]

theorem create_none (h : db.create nowMs sourceRef providerState state = .ok (none, db')) : db' = db := by
  unfold Database.create at h
  split_ifs at h
  · cases h
    rfl
  · cases hinsert : db.insertHeartbeat nowMs sourceRef providerState state with
    | error e => simp [hinsert, Except.map] at h
    | ok outcome => simp [hinsert, Except.map] at h

theorem creates_iff : (∃ created db', db.create nowMs sourceRef providerState state = .ok (some created, db')) ↔
    Due db nowMs ∧ Storable db nowMs sourceRef providerState := by
  simp only [create_some, insertHeartbeat_ok, unstorable_eq_none, Storable]
  constructor
  · rintro ⟨created, db', hdue, counts, hsnapshot, hrow, -⟩
    exact ⟨hdue, counts, hsnapshot, hrow⟩
  · rintro ⟨hdue, counts, hsnapshot, hrow⟩
    exact ⟨_, _, hdue, counts, hsnapshot, hrow, rfl⟩

/-- The runs of a heartbeat that raise: nothing was done, or the text of its time raised. -/
theorem runs_createHeartbeat_error {answers : List (Answer Calls Exc)} {e : Exc}
    (h : Runs (Sqlite faulty) (createHeartbeat isoformat nowMs sourceRef providerState state) db answers (.error e) db') :
    db' = db ∨ (253402300800000 ≤ nowMs ∧ Due db nowMs ∧ Storable db nowMs sourceRef providerState) := by
  rw [createHeartbeat, runs_bind] at h
  rcases h with ⟨_, hrefuse, -⟩ | ⟨_, _, _, rest, hrefuse, h, -⟩
  · exact .inl (runs_refuseIf.mp hrefuse).2.2
  · obtain ⟨-, -, rfl⟩ := runs_refuseIf.mp hrefuse
    rcases runs_bind.mp h with ⟨e', hcreate, -⟩ | ⟨created, mid, _, _, hcreate, h, -⟩
    · obtain ⟨⟨rfl, -⟩, -⟩ := runs_ask.mp hcreate
      exact .inl rfl
    · obtain ⟨hcreate, -⟩ := runs_ask.mp hcreate
      cases created with
      | none => simp at h
      | some created =>
        have hcreates := creates_iff.mp ⟨created, mid, hcreate⟩
        rcases runs_bind.mp h with ⟨e', htime, -⟩ | ⟨_, _, _, _, -, h, -⟩
        · obtain ⟨-, htime, -⟩ := runs_lift.mp htime
          refine .inr ⟨?_, hcreates⟩
          unfold fromTimestamp at htime
          split_ifs at htime with hearly
          omega
        · simp at h

theorem createHeartbeat_eq (h : 0 ≤ nowMs) : createHeartbeat isoformat nowMs sourceRef providerState state =
    .call (.create nowMs sourceRef providerState state) fun
      | .error e => .done (.error e)
      | .ok (none : Option Created) => .done (.ok none)
      | .ok (some created) => .done ((fromTimestamp isoformat nowMs).map fun createdAt =>
          some ⟨created.heartbeatId, nowMs, created.missedIntervals, created.counts, sourceRef, providerState, createdAt⟩) := by
  unfold createHeartbeat
  rw [Prog.refuseIf, if_neg (not_lt.mpr h)]
  refine congrArg (Prog.call (I := Calls) (.create nowMs sourceRef providerState state)) (funext fun reply => ?_)
  rcases reply with e | _ | created
  · rfl
  · rfl
  · cases fromTimestamp isoformat nowMs with
    | error e => simp [Prog.bind, Prog.lift, Prog.bind_eq, Except.map]
    | ok createdAt => simp [Prog.bind, Prog.lift, Prog.bind_eq, Prog.pure_eq, Except.map]

/-- A heartbeat of a time after the year 9999 raises after it was inserted. -/
theorem runs_createHeartbeat_late (hlate : 253402300800000 ≤ nowMs) {created : Created}
    (hcreate : db.create nowMs sourceRef providerState state = .ok (some created, db')) :
    Runs (Sqlite faulty) (createHeartbeat isoformat nowMs sourceRef providerState state) db
      [⟨.create nowMs sourceRef providerState state, .ok (some created)⟩] (.error (refusal "year is out of range")) db' := by
  rw [createHeartbeat_eq (by omega)]
  refine .call hcreate ?_
  simp only [fromTimestamp, if_neg (not_lt.mpr hlate)]
  exact .done

/-- A heartbeat that the transaction refuses raises. -/
theorem runs_createHeartbeat_refused (hnow : 0 ≤ nowMs) {e : Exc}
    (hcreate : db.create nowMs sourceRef providerState state = .error e) :
    Runs (Sqlite faulty) (createHeartbeat isoformat nowMs sourceRef providerState state) db
      [⟨.create nowMs sourceRef providerState state, .error e⟩] (.error e) db := by
  rw [createHeartbeat_eq hnow]
  exact .call ⟨rfl, .inl hcreate⟩ .done

theorem atomic_createHeartbeat_iff : Atomic faulty db (createHeartbeat isoformat nowMs sourceRef providerState state) ↔
    nowMs < 253402300800000 ∨ ¬ Due db nowMs ∨ ¬ Storable db nowMs sourceRef providerState := by
  constructor
  · intro hatomic
    by_contra hnot
    simp only [not_or, not_not, not_lt] at hnot
    obtain ⟨hlate, hdue, hstorable⟩ := hnot
    obtain ⟨created, after, hcreate⟩ :
        ∃ created after, db.create nowMs sourceRef providerState state = .ok (some created, after) :=
      creates_iff.mpr ⟨hdue, hstorable⟩
    have hsame := hatomic _ _ _ (runs_createHeartbeat_late hlate hcreate)
    obtain ⟨counts, -, -, houtcome⟩ := insertHeartbeat_ok.mp (create_some.mp hcreate).2
    obtain ⟨-, rfl⟩ := Prod.mk.inj houtcome
    simp at hsame
  · intro hcondition answers e after hruns
    rcases runs_createHeartbeat_error hruns with rfl | ⟨hlate, hdue, hstorable⟩
    · rfl
    · rcases hcondition with hearly | hnot | hnot
      · omega
      · exact absurd hdue hnot
      · exact absurd hstorable hnot

/-- **A heartbeat that raises leaves the heartbeats as they were exactly when its time is
before the year 10000, or none is due, or none can be stored.** -/
theorem heartbeat_atomic_iff (faulty : Prop) (isoformat : ℤ → Str) (db : Database) (nowMs : ℤ)
    (sourceRef providerState : Option Str) :
    (Atomic faulty db (emitHeartbeat isoformat nowMs sourceRef providerState) ↔
      nowMs < 253402300800000 ∨ ¬ Due db nowMs ∨ ¬ Storable db nowMs sourceRef providerState) ∧
    (Atomic faulty db (claimHeartbeat isoformat nowMs sourceRef providerState) ↔
      nowMs < 253402300800000 ∨ ¬ Due db nowMs ∨ ¬ Storable db nowMs sourceRef providerState) :=
  ⟨atomic_createHeartbeat_iff, atomic_createHeartbeat_iff⟩

/-- No table yet, and the tables that the first store makes. -/
def Database.empty : Database := ⟨fun _ => none, [], 0, []⟩

def Database.opened : Database := ⟨fun _ => some 0, [], 0, []⟩

/-- The row of a heartbeat on a new store, of the first millisecond of the year 10000. -/
def lateRow : HeartbeatRow := ⟨1, 253402300800000, ⟨0, 0, 0⟩, none, none, .delivered, some 0⟩

def Database.late : Database := ⟨fun _ => some 0, [lateRow], 1, []⟩

/-- That heartbeat raises and stays, and every heartbeat of an earlier time raises from then on. -/
theorem heartbeat_raises_after_commit :
    Runs (Sqlite False) (Request.run (fun _ => []) .openStore) Database.empty [⟨.openStore, .ok ()⟩] (.ok none) Database.opened ∧
    ¬ Atomic False Database.opened (emitHeartbeat (fun _ => []) 253402300800000 none none) ∧
    (∃ answers, Runs (Sqlite False) (emitHeartbeat (fun _ => []) 253402300800000 none none) Database.opened answers
      (.error (refusal "year is out of range")) Database.late) ∧
    ∀ nowMs, 0 ≤ nowMs → nowMs < 253402300800000 → ∃ answers,
      Runs (Sqlite False) (emitHeartbeat (fun _ => []) nowMs none none) Database.late answers
        (.error (refusal "HEARTBEAT_CLOCK_REGRESSION")) Database.late := by
  have hlate : Runs (Sqlite False) (emitHeartbeat (fun _ => []) 253402300800000 none none) Database.opened _
      (.error (refusal "year is out of range")) Database.late :=
    runs_createHeartbeat_late le_rfl (rfl : Database.create .opened 253402300800000 none none .delivered =
      .ok (some ⟨1, 0, ⟨0, 0, 0⟩⟩, Database.late))
  refine ⟨.call rfl .done, fun hatomic => ?_, ⟨_, hlate⟩, fun nowMs hnow hearly => ⟨_, runs_createHeartbeat_refused hnow ?_⟩⟩
  · exact absurd (hatomic _ _ _ hlate) (by simp [Database.late, Database.opened])
  · have hlast : Database.late.lastHeartbeatMs = some 253402300800000 := rfl
    rw [Database.create, if_pos ⟨_, hlast, hearly⟩]

end CcbCore.Telemetry
