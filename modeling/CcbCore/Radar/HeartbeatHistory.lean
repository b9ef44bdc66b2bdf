import CcbCore.Radar.HeartbeatAtomicity
import Mathlib.Data.List.Chain

/-!
# The history of heartbeats

Stores and runtimes on one database, whose calls interleave and which may stop between
any two. The rows are a chain (`History`): each is at least an interval after the one
before and counts the intervals between them. A runtime that claims a heartbeat owns its
id until it has handed it to its sink, so none is handed over twice
(`delivery_lawful`), and a row leaves `PENDING` once (`heartbeat_history`).
-/

namespace CcbCore.Telemetry

open CcbCore.CodePoints CcbCore.Radar

variable {faulty : Prop} {db db' : Database} {isoformat : ℤ → Str}

/-! ### Rows in a chain -/

def TelemetrySnapshot.get (counts : TelemetrySnapshot) : Counter → ℤ
  | .routed => counts.routed
  | .dropped => counts.dropped
  | .dlq => counts.dlq

/-- A row is the next after another. -/
structure Follows (row next : HeartbeatRow) : Prop where
  heartbeatId : row.heartbeatId < next.heartbeatId
  emittedAtMs : row.emittedAtMs + heartbeatIntervalMs ≤ next.emittedAtMs
  missedIntervals : next.missedIntervals = some ((next.emittedAtMs - row.emittedAtMs) / heartbeatIntervalMs - 1)
  counts : ∀ counter, row.counts.get counter ≤ next.counts.get counter

/-- The rows, oldest first. -/
structure History (rows : List HeartbeatRow) : Prop where
  chain : rows.IsChain Follows
  first : ∀ row ∈ rows.head?, row.missedIntervals = some 0

/-- A row stays, but for the state it leaves `PENDING` for. -/
def Settles (row row' : HeartbeatRow) : Prop :=
  row' = row ∨ (row.deliveryState = .pending ∧
    (row' = { row with deliveryState := .delivered } ∨ row' = { row with deliveryState := .unconfirmed }))

/-- Rows stay, but for their states. -/
def Keeps (rows rows' : List HeartbeatRow) : Prop := ∀ row ∈ rows, ∃ row' ∈ rows', Settles row row'

theorem Keeps.refl (rows : List HeartbeatRow) : Keeps rows rows := fun row hrow => ⟨row, hrow, .inl rfl⟩

theorem Keeps.trans {rows rows' rows'' : List HeartbeatRow} (h : Keeps rows rows') (h' : Keeps rows' rows'') :
    Keeps rows rows'' := by
  intro row hrow
  obtain ⟨row', hrow', hsettles⟩ := h row hrow
  obtain ⟨row'', hrow'', hsettles'⟩ := h' row' hrow'
  refine ⟨row'', hrow'', ?_⟩
  rcases hsettles with rfl | ⟨hpending, rfl | rfl⟩
  · exact hsettles'
  · rcases hsettles' with rfl | ⟨hnot, -⟩
    · exact .inr ⟨hpending, .inl rfl⟩
    · cases hnot
  · rcases hsettles' with rfl | ⟨hnot, -⟩
    · exact .inr ⟨hpending, .inr rfl⟩
    · cases hnot

theorem History.earlier {rows : List HeartbeatRow} (h : History rows) :
    rows.Pairwise fun row next => row.heartbeatId < next.heartbeatId ∧ row.emittedAtMs < next.emittedAtMs := by
  have htrans : IsTrans HeartbeatRow fun row next => row.heartbeatId < next.heartbeatId ∧ row.emittedAtMs < next.emittedAtMs :=
    ⟨fun a b c hab hbc => ⟨hab.1.trans hbc.1, hab.2.trans hbc.2⟩⟩
  refine List.isChain_iff_pairwise.mp (h.chain.imp fun row next hfollows => ⟨hfollows.heartbeatId, ?_⟩)
  have hgap := hfollows.emittedAtMs
  unfold heartbeatIntervalMs at hgap
  omega

/-- The last heartbeat is the last row's. -/
theorem History.lastHeartbeatMs (h : History db.heartbeats) :
    db.lastHeartbeatMs = db.heartbeats.getLast?.map HeartbeatRow.emittedAtMs := by
  cases hlast : db.heartbeats.getLast? with
  | none =>
    rw [List.getLast?_eq_none_iff] at hlast
    simp [Database.lastHeartbeatMs, hlast]
  | some last =>
    obtain ⟨before, hrows⟩ := List.getLast?_eq_some_iff.mp hlast
    rw [Option.map_some, Database.lastHeartbeatMs, List.max?_eq_some_iff]
    refine ⟨List.mem_map.mpr ⟨last, hrows ▸ by simp, rfl⟩, fun emitted hemitted => ?_⟩
    obtain ⟨row, hrow, rfl⟩ := List.mem_map.mp hemitted
    have hearlier := h.earlier
    rw [hrows, List.pairwise_append] at hearlier
    rw [hrows, List.mem_append, List.mem_singleton] at hrow
    rcases hrow with hbefore | rfl
    · exact (hearlier.2.2 row hbefore last (List.mem_singleton.mpr rfl)).2.le
    · exact le_rfl

/-! ### Updates keep the chain -/

theorem HeartbeatRow.mark_settles {heartbeatId : ℤ} {state : DeliveryState} (hstate : state = .delivered ∨ state = .unconfirmed)
    (row : HeartbeatRow) : Settles row (row.mark heartbeatId state) := by
  unfold HeartbeatRow.mark
  split_ifs with hmarked
  · rcases hstate with rfl | rfl
    · exact .inr ⟨hmarked.2, .inl rfl⟩
    · exact .inr ⟨hmarked.2, .inr rfl⟩
  · exact .inl rfl

/-- A mark changes the state alone. -/
theorem HeartbeatRow.mark_eq (heartbeatId : ℤ) (state : DeliveryState) (row : HeartbeatRow) :
    ∃ state', row.mark heartbeatId state = { row with deliveryState := state' } := by
  unfold HeartbeatRow.mark
  split_ifs
  · exact ⟨state, rfl⟩
  · exact ⟨row.deliveryState, rfl⟩

theorem History.mark {heartbeatId : ℤ} {state : DeliveryState} (h : History db.heartbeats) :
    History (db.mark heartbeatId state).2.heartbeats := by
  refine ⟨?_, fun row hrow => ?_⟩
  · rw [Database.mark, List.isChain_map]
    refine h.chain.imp fun row next hfollows => ?_
    obtain ⟨first, hfirst⟩ := row.mark_eq heartbeatId state
    obtain ⟨second, hsecond⟩ := next.mark_eq heartbeatId state
    rw [hfirst, hsecond]
    exact ⟨hfollows.heartbeatId, hfollows.emittedAtMs, hfollows.missedIntervals, hfollows.counts⟩
  · simp only [Database.mark, List.head?_map, Option.mem_def, Option.map_eq_some_iff] at hrow
    obtain ⟨row, hhead, rfl⟩ := hrow
    obtain ⟨state', hstate'⟩ := row.mark_eq heartbeatId state
    rw [hstate']
    exact h.first row hhead

/-- What always holds of the tables and of what was handed over. -/
structure Database.Sound (db : Database) : Prop where
  history : History db.heartbeats
  counts : ∀ row ∈ db.heartbeats, ∀ counter, ∃ value, db.counters counter = some value ∧ row.counts.get counter ≤ value
  given : ∀ row ∈ db.heartbeats, row.heartbeatId ≤ db.sequence
  handed : ∀ id ∈ db.handed, id ≤ db.sequence
  once : db.handed.Nodup

theorem snapshot_get {counts : TelemetrySnapshot} (h : db.snapshot = some counts) (counter : Counter) :
    db.counters counter = some (counts.get counter) := by
  unfold Database.snapshot at h
  split at h
  · next routed dropped dlq hrouted hdropped hdlq =>
    cases h
    cases counter with
    | routed => exact hrouted
    | dropped => exact hdropped
    | dlq => exact hdlq
  · cases h

/-- The row of a heartbeat that is due is the next. -/
theorem Database.Sound.follows (hdb : db.Sound) {nowMs : ℤ} {sourceRef providerState : Option Str} {state : DeliveryState}
    {counts : TelemetrySnapshot} (hdue : Due db nowMs) (hcounts : db.snapshot = some counts) {last : HeartbeatRow}
    (hlast : db.heartbeats.getLast? = some last) : Follows last (db.newRow nowMs sourceRef providerState state counts) := by
  have hmem : last ∈ db.heartbeats := List.mem_of_getLast? hlast
  have hms : db.lastHeartbeatMs = some last.emittedAtMs := by rw [hdb.history.lastHeartbeatMs, hlast, Option.map_some]
  have hgap := hdue _ hms
  refine ⟨?_, hgap, ?_, fun counter => ?_⟩
  · have := hdb.given last hmem
    simp only [Database.newRow]
    omega
  · simp only [Database.newRow, missedIntervals, hms, heartbeatIntervalMs] at hgap ⊢
    rw [max_eq_right]
    omega
  · obtain ⟨value, hvalue, hle⟩ := hdb.counts last hmem counter
    rw [snapshot_get hcounts counter] at hvalue
    obtain rfl := Option.some.inj hvalue
    exact hle

theorem Database.Sound.created (hdb : db.Sound) {nowMs : ℤ} {sourceRef providerState : Option Str} {state : DeliveryState}
    {counts : TelemetrySnapshot} (hdue : Due db nowMs) (hcounts : db.snapshot = some counts) :
    Database.Sound { db with
      heartbeats := db.heartbeats ++ [db.newRow nowMs sourceRef providerState state counts], sequence := db.sequence + 1 } := by
  refine ⟨⟨?_, fun row hrow => ?_⟩, fun row hrow counter => ?_, fun row hrow => ?_, fun id hid => ?_, hdb.once⟩
  · refine hdb.history.chain.append (List.isChain_singleton _) fun last hlast next hnext => ?_
    obtain rfl := Option.some.inj hnext
    exact hdb.follows hdue hcounts hlast
  · cases hrows : db.heartbeats with
    | nil =>
      simp only [hrows, List.nil_append, List.head?_cons, Option.mem_def, Option.some.injEq] at hrow
      subst hrow
      simp [Database.newRow, missedIntervals, Database.lastHeartbeatMs, hrows]
    | cons first rest =>
      simp only [hrows, List.cons_append, List.head?_cons, Option.mem_def, Option.some.injEq] at hrow
      subst hrow
      exact hdb.history.first first (by rw [hrows]; rfl)
  · rcases List.mem_append.mp hrow with hold | hnew
    · exact hdb.counts row hold counter
    · obtain rfl := List.mem_singleton.mp hnew
      exact ⟨_, snapshot_get hcounts counter, le_rfl⟩
  · rcases List.mem_append.mp hrow with hold | hnew
    · have := hdb.given row hold
      simp only
      omega
    · obtain rfl := List.mem_singleton.mp hnew
      exact le_rfl
  · have := hdb.handed id hid
    simp only
    omega

/-! ### Who may hand a heartbeat over -/

/-- How far a program is with a heartbeat. -/
inductive Phase where
  | idle
  /-- It has claimed the heartbeat of an id, and not handed it over. -/
  | claimed (id : ℤ)
  | handed (id : ℤ)

/-- The calls that a program may make. -/
def Allows (phase : Phase) : Op → Prop
  | .increment _ amount => 0 ≤ amount
  | .create _ _ _ _ => phase = .idle
  | .sink heartbeat => phase = .claimed heartbeat.heartbeatSequence
  | .mark id state => phase = .handed id ∧ (state = .delivered ∨ state = .unconfirmed)
  | _ => True

/-- The phase after a call. -/
def Phase.after (phase : Phase) (op : Op) (reply : Except Exc op.Reply) : Phase :=
  match phase, op, reply with
  | .idle, .create _ _ _ .pending, .ok (some created) => .claimed created.heartbeatId
  | .claimed id, .sink _, _ => .handed id
  | phase, _, _ => phase

def delivery : Protocol Calls Exc Phase := ⟨Allows, fun _ _ _ => True, Phase.after⟩

/-- The id that a program is at work on. -/
def Phase.owner : Phase → Option ℤ
  | .idle => none
  | .claimed id | .handed id => some id

/-- What a program knows. -/
def Phase.Knows : Phase → Database → Prop
  | .idle, _ => True
  | .claimed id, db => (∃ row ∈ db.heartbeats, row.heartbeatId = id ∧ row.deliveryState = .pending) ∧
      id ∉ db.handed ∧ id ≤ db.sequence
  | .handed id, db => id ≤ db.sequence

def ownership : Ownership Database Phase ℤ where
  owner := Phase.owner
  knows := Phase.Knows
  held db id := id ≤ db.sequence
  always := Database.Sound
  keeps db db' := Keeps db.heartbeats db'.heartbeats

/-- What a call does to the tables and to what was handed over. -/
inductive Effect (db : Database) : Op → Database → Prop where
  /-- Nothing, but that counters may grow. -/
  | same {op : Op} {db' : Database} (heartbeats : db'.heartbeats = db.heartbeats) (sequence : db'.sequence = db.sequence)
      (handed : db'.handed = db.handed)
      (counters : ∀ counter value, db.counters counter = some value →
        ∃ value', db'.counters counter = some value' ∧ value ≤ value') : Effect db op db'
  | created {nowMs : ℤ} {sourceRef providerState : Option Str} {state : DeliveryState} {counts : TelemetrySnapshot}
      (due : Due db nowMs) (snapshot : db.snapshot = some counts) : Effect db (.create nowMs sourceRef providerState state)
        { db with
          heartbeats := db.heartbeats ++ [db.newRow nowMs sourceRef providerState state counts], sequence := db.sequence + 1 }
  | marked {id : ℤ} {state : DeliveryState} : Effect db (.mark id state) (db.mark id state).2
  | handed {heartbeat : HeartbeatMessage} : Effect db (.sink heartbeat) { db with handed := heartbeat.heartbeatSequence :: db.handed }

theorem effect_refl (db : Database) (op : Op) : Effect db op db :=
  .same rfl rfl rfl fun _ value h => ⟨value, h, le_rfl⟩

theorem Increased.grows {counters counters' : Counter → Option ℤ} {counter : Counter} {amount : ℤ} (hamount : 0 ≤ amount)
    (h : Increased counters counters' counter amount) (other : Counter) (value : ℤ) (hvalue : counters other = some value) :
    ∃ value', counters' other = some value' ∧ value ≤ value' := by
  by_cases hother : other = counter
  · subst hother
    obtain ⟨-, hcase⟩ := h
    rw [hvalue] at hcase
    obtain ⟨value', hvalue', hsum⟩ := hcase
    refine ⟨value', hvalue', ?_⟩
    split_ifs at hsum
    · omega
    · exact hsum
  · exact ⟨value, by rw [h.1 other hother, hvalue], le_rfl⟩

variable {phase other : Phase} {op : Op} {reply : Except Exc op.Reply}

theorem sqlite_effect (hallowed : Allows phase op) (h : Sqlite faulty op db reply db') : Effect db op db' := by
  cases op with
  | openStore =>
    cases reply with
    | ok _ =>
      obtain rfl := h
      exact .same rfl rfl rfl fun counter value hvalue => ⟨value, by simp [hvalue], le_rfl⟩
    | error e =>
      obtain ⟨rfl, -⟩ := h
      exact effect_refl _ _
  | increment counter amount =>
    cases reply with
    | ok snapshot =>
      obtain ⟨counters, hincreased, rfl, -⟩ := h
      exact .same rfl rfl rfl (hincreased.grows hallowed)
    | error e =>
      obtain ⟨rfl, -⟩ := h
      exact effect_refl _ _
  | create nowMs sourceRef providerState state =>
    cases reply with
    | ok created =>
      cases created with
      | none =>
        obtain rfl := create_none h
        exact effect_refl _ _
      | some created =>
        obtain ⟨hdue, hinsert⟩ := create_some.mp h
        obtain ⟨counts, hsnapshot, -, houtcome⟩ := insertHeartbeat_ok.mp hinsert
        obtain ⟨-, rfl⟩ := Prod.mk.inj houtcome
        exact .created hdue hsnapshot
    | error e =>
      obtain ⟨rfl, -⟩ := h
      exact effect_refl _ _
  | mark id state =>
    cases reply with
    | ok count =>
      obtain ⟨-, rfl⟩ := Prod.mk.inj h
      exact .marked
    | error e =>
      obtain ⟨rfl, -⟩ := h
      exact effect_refl _ _
  | sink heartbeat =>
    obtain rfl : db' = { db with handed := heartbeat.heartbeatSequence :: db.handed } := by cases reply <;> exact h
    exact .handed
  | clockMs | sourceRef | providerState =>
    obtain rfl : db' = db := by cases reply <;> exact h
    exact effect_refl _ _

theorem keeps_created {row : HeartbeatRow} (rows : List HeartbeatRow) : Keeps rows (rows ++ [row]) :=
  fun old hold => ⟨old, List.mem_append_left _ hold, .inl rfl⟩

theorem keeps_marked {id : ℤ} {state : DeliveryState} (hstate : state = .delivered ∨ state = .unconfirmed) :
    Keeps db.heartbeats (db.mark id state).2.heartbeats :=
  fun row hrow => ⟨row.mark id state, List.mem_map_of_mem hrow, row.mark_settles hstate⟩

theorem Effect.sound (hdb : db.Sound) (hknows : phase.Knows db) (hallowed : Allows phase op) (h : Effect db op db') :
    db'.Sound ∧ Keeps db.heartbeats db'.heartbeats := by
  cases h with
  | same heartbeats sequence handed counters =>
    refine ⟨⟨heartbeats ▸ hdb.history, fun row hrow counter => ?_, heartbeats ▸ sequence ▸ hdb.given,
      handed ▸ sequence ▸ hdb.handed, handed ▸ hdb.once⟩, heartbeats ▸ Keeps.refl _⟩
    obtain ⟨value, hvalue, hle⟩ := hdb.counts row (heartbeats ▸ hrow) counter
    obtain ⟨value', hvalue', hle'⟩ := counters counter value hvalue
    exact ⟨value', hvalue', hle.trans hle'⟩
  | created due snapshot => exact ⟨hdb.created due snapshot, keeps_created _⟩
  | @marked id state =>
    refine ⟨⟨hdb.history.mark, fun row hrow counter => ?_, fun row hrow => ?_, hdb.handed, hdb.once⟩, keeps_marked hallowed.2⟩
    · obtain ⟨old, hold, rfl⟩ := List.mem_map.mp hrow
      obtain ⟨state', hstate'⟩ := old.mark_eq id state
      rw [hstate']
      exact hdb.counts old hold counter
    · obtain ⟨old, hold, rfl⟩ := List.mem_map.mp hrow
      obtain ⟨state', hstate'⟩ := old.mark_eq id state
      rw [hstate']
      exact hdb.given old hold
  | @handed heartbeat =>
    obtain rfl := hallowed
    obtain ⟨-, hnew, hgiven⟩ := hknows
    refine ⟨⟨hdb.history, hdb.counts, hdb.given, fun id hid => ?_, List.nodup_cons.mpr ⟨hnew, hdb.once⟩⟩, Keeps.refl _⟩
    rcases List.mem_cons.mp hid with rfl | hid
    · exact hgiven
    · exact hdb.handed id hid

/-- Ids are given in order. -/
theorem Effect.sequence_le (h : Effect db op db') : db.sequence ≤ db'.sequence := by
  cases h with
  | same _ sequence => exact sequence.ge
  | created =>
    simp only
    omega
  | marked | handed => exact le_rfl

/-- What another program knows stays so. -/
theorem Effect.frame (hallowed : Allows phase op) (h : Effect db op db') (hother : other.Knows db)
    (halone : ∀ k, other.owner = some k → phase.owner ≠ some k) : other.Knows db' := by
  cases other with
  | idle => trivial
  | handed id => exact hother.trans h.sequence_le
  | claimed id =>
    obtain ⟨⟨row, hrow, hid, hpending⟩, hnew, hgiven⟩ := hother
    have hle := hgiven.trans h.sequence_le
    cases h with
    | same heartbeats sequence handed => exact ⟨⟨row, heartbeats ▸ hrow, hid, hpending⟩, handed ▸ hnew, hle⟩
    | created => exact ⟨⟨row, List.mem_append_left _ hrow, hid, hpending⟩, hnew, hle⟩
    | @marked id' state =>
      obtain ⟨rfl, -⟩ := hallowed
      have hsame : row.mark id' state = row := by
        rw [HeartbeatRow.mark, if_neg]
        rintro ⟨heq, -⟩
        exact halone id rfl (by rw [← hid, heq]; rfl)
      exact ⟨⟨row, List.mem_map.mpr ⟨row, hrow, hsame⟩, hid, hpending⟩, hnew, hle⟩
    | @handed heartbeat =>
      obtain rfl := hallowed
      refine ⟨⟨row, hrow, hid, hpending⟩, fun hmem => ?_, hle⟩
      rcases List.mem_cons.mp hmem with heq | hmem
      · exact halone id rfl (by rw [heq]; rfl)
      · exact hnew hmem

theorem Phase.Knows.congr (h : phase.Knows db) (heartbeats : db'.heartbeats = db.heartbeats)
    (sequence : db'.sequence = db.sequence) (handed : db'.handed = db.handed) : phase.Knows db' := by
  cases phase with
  | idle => trivial
  | claimed id => exact ⟨heartbeats ▸ h.1, handed ▸ h.2.1, sequence ▸ h.2.2⟩
  | handed id => exact h.trans sequence.ge

/-- A call leaves a program with what its new phase knows, and gives it only an id that is new. -/
theorem after_knows (hdb : db.Sound) (hknows : phase.Knows db) (hallowed : Allows phase op)
    (h : Sqlite faulty op db reply db') :
    (phase.after op reply).Knows db' ∧
      ∀ k, (phase.after op reply).owner = some k → phase.owner = some k ∨ ¬ k ≤ db.sequence := by
  have heffect := sqlite_effect hallowed h
  have hsame (hafter : phase.after op reply = phase) (heartbeats : db'.heartbeats = db.heartbeats)
      (sequence : db'.sequence = db.sequence) (handed : db'.handed = db.handed) :
      (phase.after op reply).Knows db' ∧
        ∀ k, (phase.after op reply).owner = some k → phase.owner = some k ∨ ¬ k ≤ db.sequence := by
    rw [hafter]
    exact ⟨hknows.congr heartbeats sequence handed, fun k hk => .inl hk⟩
  cases op with
  | create nowMs sourceRef providerState state =>
    obtain rfl := hallowed
    rcases reply with e | _ | created
    · have hidle : Phase.idle.after (.create nowMs sourceRef providerState state) (.error e) = .idle := by cases state <;> rfl
      rw [hidle]
      exact ⟨trivial, nofun⟩
    · have hidle : Phase.idle.after (.create nowMs sourceRef providerState state) (.ok (none : Option Created)) = .idle := by
        cases state <;> rfl
      rw [hidle]
      exact ⟨trivial, nofun⟩
    · cases state with
      | pending =>
        obtain ⟨hdue, hinsert⟩ := create_some.mp h
        obtain ⟨counts, -, -, houtcome⟩ := insertHeartbeat_ok.mp hinsert
        obtain ⟨rfl, rfl⟩ := Prod.mk.inj houtcome
        refine ⟨⟨⟨_, List.mem_append_right _ (List.mem_singleton.mpr rfl), rfl, rfl⟩, fun hmem => ?_, le_rfl⟩, fun k hk => .inr ?_⟩
        · have := hdb.handed _ hmem
          simp only at this
          omega
        · obtain rfl : db.sequence + 1 = k := Option.some.inj hk
          omega
      | delivered | unconfirmed | legacyUnknown => exact ⟨trivial, nofun⟩
  | sink heartbeat =>
    obtain rfl := hallowed
    refine ⟨?_, fun k hk => .inl hk⟩
    cases heffect with
    | same _ sequence => exact hknows.2.2.trans sequence.ge
    | handed => exact hknows.2.2
  | mark id state =>
    obtain ⟨rfl, -⟩ := hallowed
    exact ⟨hknows.trans heffect.sequence_le, fun k hk => .inl hk⟩
  | openStore | increment _ _ | clockMs | sourceRef | providerState =>
    cases heffect with
    | same heartbeats sequence handed => exact hsame (by cases phase <;> rfl) heartbeats sequence handed

theorem delivery_lawful (faulty : Prop) : Lawful (Sqlite faulty) delivery ownership where
  refl _ := Keeps.refl _
  trans _ _ _ hst htu := hst.trans htu
  held {phase s k} hknows howner := by
    cases phase with
    | idle => cases howner
    | claimed id =>
      obtain rfl : id = k := Option.some.inj howner
      exact hknows.2.2
    | handed id =>
      obtain rfl : id = k := Option.some.inj howner
      exact hknows
  step halways hknows hallowed hcall := by
    obtain ⟨hsound, hkeeps⟩ := (sqlite_effect hallowed hcall).sound halways hknows hallowed
    obtain ⟨hknows', howner⟩ := after_knows halways hknows hallowed hcall
    exact ⟨trivial, hsound, hkeeps, hknows', howner⟩
  frame _ _ hallowed hcall hother halone := (sqlite_effect hallowed hcall).frame hallowed hother halone

/-! ### The programs -/

/-- A program may end anywhere. -/
def Post : Phase → Except Exc (Option HeartbeatMessage) → Prop := fun _ _ => True

/-- After a claim that returned a heartbeat, it may be handed over. -/
def Claimed : Phase → Except Exc (Option HeartbeatMessage) → Prop
  | phase, .ok (some heartbeat) => phase = .claimed heartbeat.heartbeatSequence
  | _, _ => True

theorem obeys_claimHeartbeat (nowMs : ℤ) (sourceRef providerState : Option Str) :
    Obeys delivery .idle (claimHeartbeat isoformat nowMs sourceRef providerState) Claimed := by
  by_cases hnow : 0 ≤ nowMs
  · rw [claimHeartbeat, createHeartbeat_eq hnow]
    refine ⟨rfl, fun reply _ => ?_⟩
    rcases reply with e | _ | created
    · trivial
    · trivial
    · cases fromTimestamp isoformat nowMs with
      | error e => trivial
      | ok createdAt => exact rfl
  · rw [claimHeartbeat, createHeartbeat, Prog.refuseIf, if_pos (not_le.mp hnow)]
    trivial

theorem obeys_emitHeartbeat (nowMs : ℤ) (sourceRef providerState : Option Str) :
    Obeys delivery .idle (emitHeartbeat isoformat nowMs sourceRef providerState) Post := by
  by_cases hnow : 0 ≤ nowMs
  · rw [emitHeartbeat, createHeartbeat_eq hnow]
    refine ⟨rfl, fun reply _ => ?_⟩
    rcases reply with e | _ | created <;> trivial
  · rw [emitHeartbeat, createHeartbeat, Prog.refuseIf, if_pos (not_le.mp hnow)]
    trivial

theorem obeys_markHeartbeatDelivery {id : ℤ} {state : DeliveryState} (hstate : state = .delivered ∨ state = .unconfirmed) :
    Obeys delivery (.handed id) (markHeartbeatDelivery id state) fun _ _ => True := by
  refine Obeys.bind (R := fun phase _ => phase = .handed id) (Obeys.refuseIf (fun _ => rfl) fun _ => rfl) ?_ fun _ _ _ => trivial
  rintro phase _ rfl
  refine Obeys.bind (R := fun _ _ => True) (Obeys.ask ⟨rfl, hstate⟩ fun _ _ => trivial) (fun phase count _ => ?_) fun _ _ _ => trivial
  exact Obeys.refuseIf (fun _ => trivial) fun _ => trivial

theorem obeys_handOver (heartbeat : HeartbeatMessage) :
    Obeys delivery (.claimed heartbeat.heartbeatSequence) (handOver heartbeat) Post := by
  refine ⟨rfl, fun reply _ => ?_⟩
  cases reply with
  | ok _ =>
    exact Obeys.bind (obeys_markHeartbeatDelivery (.inl rfl)) (fun _ _ _ => trivial) fun _ _ _ => trivial
  | error e =>
    exact Obeys.bind (obeys_markHeartbeatDelivery (.inr rfl)) (fun _ _ _ => trivial) fun _ _ _ => trivial

theorem obeys_tick : Obeys delivery .idle (tick isoformat) Post := by
  refine Obeys.bind (R := fun phase _ => phase = .idle) (Obeys.ask trivial fun _ _ => rfl) ?_ fun _ _ _ => trivial
  rintro _ nowMs rfl
  refine Obeys.bind (R := fun phase _ => phase = .idle) (Obeys.ask trivial fun _ _ => rfl) ?_ fun _ _ _ => trivial
  rintro _ sourceRef rfl
  refine Obeys.bind (R := fun phase _ => phase = .idle) (Obeys.ask trivial fun _ _ => rfl) ?_ fun _ _ _ => trivial
  rintro _ providerState rfl
  refine Obeys.bind (obeys_claimHeartbeat nowMs sourceRef providerState) (fun phase claimed hclaimed => ?_) fun _ _ _ => trivial
  cases claimed with
  | none => trivial
  | some heartbeat =>
    obtain rfl := hclaimed
    refine Obeys.bind (R := fun phase _ => phase = .claimed heartbeat.heartbeatSequence)
      (Obeys.refuseIf (fun _ => rfl) fun _ => rfl) ?_ fun _ _ _ => trivial
    rintro _ _ rfl
    exact obeys_handOver heartbeat

theorem obeys_increment (counter : Counter) (amount : ℤ) :
    Obeys delivery .idle (increment counter amount) fun _ _ => True := by
  refine Obeys.bind (R := fun _ result => 0 ≤ amount ∨ result ≠ .ok ⟨⟩)
    (Obeys.refuseIf (fun _ => .inr nofun) fun hnot => .inl (not_lt.mp hnot)) (fun _ _ hamount => ?_) fun _ _ _ => trivial
  have hnonneg : 0 ≤ amount := hamount.resolve_right fun hne => hne rfl
  refine Obeys.bind (R := fun _ _ => True) (Obeys.refuseIf (fun _ => trivial) fun _ => trivial) (fun _ _ _ => ?_)
    fun _ _ _ => trivial
  exact Obeys.ask hnonneg fun _ _ => trivial

theorem obeys_request (request : Request) : Obeys delivery .idle (request.run isoformat) Post := by
  cases request with
  | openStore =>
    exact Obeys.bind (R := fun _ _ => True) (Obeys.ask trivial fun _ _ => trivial) (fun _ _ _ => trivial) fun _ _ _ => trivial
  | increment counter amount =>
    exact Obeys.bind (obeys_increment counter amount) (fun _ _ _ => trivial) fun _ _ _ => trivial
  | emitHeartbeat nowMs sourceRef providerState => exact obeys_emitHeartbeat nowMs sourceRef providerState
  | tick => exact obeys_tick

/-! ### Runs -/

abbrev TelemetryPool (ι : Type) := Pool Calls Exc (Option HeartbeatMessage) Database ι Request

/-- A thread starts a request, or makes the next call of the one it is at. -/
def Step {ι : Type} [DecidableEq ι] (faulty : Prop) (isoformat : ℤ → Str) :
    TelemetryPool ι → PoolEvent ι Request → TelemetryPool ι → Prop :=
  PoolStep (Sqlite faulty) (fun _ _ => False) (Request.run isoformat)

/-- No heartbeat was ever made, and no thread is at work. -/
structure Fresh {ι : Type} (p : TelemetryPool ι) : Prop where
  heartbeats : p.state.heartbeats = []
  sequence : p.state.sequence = 0
  handed : p.state.handed = []
  idle : ∀ i, ∃ result, p.program i = .done result

variable {ι : Type} [DecidableEq ι] {p p' q : TelemetryPool ι}

omit [DecidableEq ι] in
theorem Fresh.guarded (h : Fresh p) : Guarded delivery ownership (fun _ => Post) p fun _ => .idle := by
  refine ⟨⟨⟨?_, fun row hrow => ?_⟩, fun row hrow => ?_, fun row hrow => ?_, fun id hid => ?_, ?_⟩, fun i => ?_, fun _ => trivial, nofun⟩
  · rw [h.heartbeats]
    exact List.isChain_nil
  · simp [h.heartbeats] at hrow
  · simp [h.heartbeats] at hrow
  · simp [h.heartbeats] at hrow
  · simp [h.handed] at hid
  · rw [h.handed]
    exact List.nodup_nil
  · obtain ⟨result, hresult⟩ := h.idle i
    rw [hresult]
    trivial

theorem step_handed {phases : ι → Phase} (hp : Guarded delivery ownership (fun _ => Post) p phases) {e : PoolEvent ι Request}
    (h : Step faulty isoformat p e p') : p'.state.handed = p.state.handed ∨
      ∃ row ∈ p.state.heartbeats, row.deliveryState = .pending ∧ p'.state.handed = row.heartbeatId :: p.state.handed := by
  cases h with
  | start i d => exact .inl rfl
  | other hother => exact hother.elim
  | @call i op next reply s hprogram hcall =>
    have hobeys := hp.obeys i
    have hknows := hp.knows i
    rw [hprogram] at hobeys
    have hallowed : Allows (phases i) op := hobeys.1
    have heffect := sqlite_effect hallowed hcall
    cases heffect with
    | same _ _ handed => exact .inl handed
    | created | marked => exact .inl rfl
    | @handed heartbeat =>
      have hphase : phases i = .claimed heartbeat.heartbeatSequence := hallowed
      rw [hphase] at hknows
      obtain ⟨⟨row, hrow, hid, hpending⟩, -⟩ := hknows
      exact .inr ⟨row, hrow, hpending, by rw [hid]⟩

/-- **In every run from a new store, whatever the clocks say and wherever threads stop: the
rows are a chain; none leaves `PENDING` twice, or goes; and no heartbeat is handed over twice,
or before its row is there as `PENDING`.** -/
theorem heartbeat_history (hfresh : Fresh p) {es later : List (PoolEvent ι Request)}
    (h : Run (Step faulty isoformat) p es p') (hlater : Run (Step faulty isoformat) p' later q) :
    History p'.state.heartbeats ∧ Keeps p'.state.heartbeats q.state.heartbeats ∧ p'.state.handed.Nodup ∧
    ∀ e next, Step faulty isoformat p' e next → next.state.handed = p'.state.handed ∨
      ∃ row ∈ p'.state.heartbeats, row.deliveryState = .pending ∧ next.state.handed = row.heartbeatId :: p'.state.handed := by
  obtain ⟨-, phases, hguarded⟩ :=
    guarded_run (delivery_lawful faulty) (rfl : ownership.owner .idle = none) (fun _ => trivial) (fun _ _ hno => hno) obeys_request hfresh.guarded h
  obtain ⟨hkeeps, -⟩ :=
    guarded_run (delivery_lawful faulty) (rfl : ownership.owner .idle = none) (fun _ => trivial) (fun _ _ hno => hno) obeys_request hguarded hlater
  exact ⟨hguarded.always.history, hkeeps, hguarded.always.once, fun e next hstep => step_handed hguarded hstep⟩

/-- Answers to a thread that is alone, whose increments fail; each tick is some intervals after the one before. -/
def sampleAnswer : (op : Op) → Database → Except Exc op.Reply × Database
  | .openStore, db => (.ok (), { db with counters := fun counter => some ((db.counters counter).getD 0) })
  | .increment _ _, db => (.error .databaseError, db)
  | .create nowMs sourceRef providerState state, db =>
    match db.create nowMs sourceRef providerState state with
    | .ok (created, db') => (.ok created, db')
    | .error e => (.error e, db)
  | .mark heartbeatId state, db => (.ok (db.mark heartbeatId state).1, (db.mark heartbeatId state).2)
  | .clockMs, db => (.ok (7 + 2 * heartbeatIntervalMs * db.heartbeats.length : ℤ), db)
  | .sourceRef, db | .providerState, db => (.ok none, db)
  | .sink heartbeat, db => (.ok (), { db with handed := heartbeat.heartbeatSequence :: db.handed })

theorem sampleAnswer_sqlite (op : Op) (db : Database) : Sqlite True op db (sampleAnswer op db).1 (sampleAnswer op db).2 := by
  cases op with
  | create nowMs sourceRef providerState state =>
    cases hcreate : db.create nowMs sourceRef providerState state with
    | ok outcome =>
      simp only [sampleAnswer, hcreate]
      exact hcreate
    | error e =>
      simp only [sampleAnswer, hcreate]
      exact ⟨rfl, .inl hcreate⟩
  | increment counter amount => exact ⟨rfl, .inr ⟨trivial, rfl⟩⟩
  | openStore | mark _ _ | clockMs | sourceRef | providerState | sink _ => exact rfl

/-- A thread on a new store. -/
def samplePool : TelemetryPool Unit := ⟨.opened, fun _ => .tick, fun _ => .done (.ok none)⟩

/-- The thread has started a tick. -/
def started (p : TelemetryPool Unit) : TelemetryPool Unit :=
  { p with
    data := Function.update p.data () .tick
    program := Function.update p.program () (Request.run (fun _ => []) .tick) }

/-- It has ended it. -/
def ticked (p : TelemetryPool Unit) : TelemetryPool Unit :=
  let outcome := Prog.play (I := Calls) sampleAnswer (Request.run (fun _ => []) .tick) p.state
  { started p with state := outcome.2.2, program := Function.update (started p).program () (.done outcome.2.1) }

theorem run_ticked (p : TelemetryPool Unit) : ∃ es, Run (Step True fun _ => []) p es (ticked p) := by
  have hruns : Runs (Sqlite True) (Request.run (fun _ => []) .tick) (started p).state _ _ _ :=
    runs_play (J := fun _ => True) (fun op db _ => ⟨sampleAnswer_sqlite op db, trivial⟩) _ _ trivial
  have hprogram : (started p).program () = Request.run (fun _ => []) .tick := by simp [started]
  exact ⟨_, .cons (PoolStep.start () Request.tick) (hruns.pool (p := started p) rfl hprogram)⟩

/-- Two ticks hand a heartbeat over each, with an interval missed between them, and a third one keeps them. -/
theorem heartbeat_history_sample : ∃ p q : TelemetryPool Unit, p.state.handed = [2, 1] ∧
    p.state.heartbeats.map HeartbeatRow.missedIntervals = [some 0, some 1] ∧ History p.state.heartbeats ∧
    Keeps p.state.heartbeats q.state.heartbeats ∧ p.state.handed.Nodup := by
  obtain ⟨es, hfirst⟩ := run_ticked samplePool
  obtain ⟨es', hsecond⟩ := run_ticked (ticked samplePool)
  obtain ⟨later, hlater⟩ := run_ticked (ticked (ticked samplePool))
  obtain ⟨hhistory, hkeeps, honce, -⟩ := heartbeat_history ⟨rfl, rfl, rfl, fun _ => ⟨_, rfl⟩⟩ (hfirst.trans hsecond) hlater
  exact ⟨_, _, by decide +kernel, by decide +kernel, hhistory, hkeeps, honce⟩

end CcbCore.Telemetry
