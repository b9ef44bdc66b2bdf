import CcbCore.Library.Raising
import CcbCore.Radar.DeadLetterCalls

/-!
# Calls of a dead-letter store

What each call of a store does, whatever the others do between its statements
(`judged_program`): it changes what is committed by one commit at most, as `Change` says,
and not at all if it raises. An item's `mark_replay` changes an item that was not replayed
(`Change.not_replayed`), and no other call touches its replay (`Change.replayed_iff`).
-/

namespace CcbCore.Radar.DeadLetters

open CcbCore.CodePoints CcbCore.Raising

variable {Opaque κ : Type} {py : Interpreter Opaque} {decoder : Decoder Opaque} {faulty : Prop}
  {table table' : DeadLetterStore} {itemId : ℤ} {request : Request Opaque} {sql : Sql Opaque}

/-! ### Tables -/

/-- An item is pending and was never tried, or was replayed once. -/
def Counted (row : DeadLetterRow) : Prop :=
  (row.replayState = .pending ∧ row.retryCount = 0) ∨ (row.replayState = .replayed ∧ row.retryCount = 1)

/-- The ids increase, and the retries of every item are its replays. -/
structure Sound (table : DeadLetterStore) : Prop where
  increasing : (table.rows.map DeadLetterRow.itemId).Pairwise (· < ·)
  bounded : ∀ row ∈ table.rows, row.itemId ≤ table.lastItemId
  fits : table.lastItemId < 2 ^ 63
  counted : ∀ row ∈ table.rows, Counted row

/-- The item of that id was replayed. -/
def Replayed (table : DeadLetterStore) (itemId : ℤ) : Prop :=
  ∃ row ∈ table.rows, (row.itemId : ℤ) = itemId ∧ row.replayState = .replayed

theorem Sound.nodup (h : Sound table) : (table.rows.map DeadLetterRow.itemId).Nodup :=
  h.increasing.imp fun hlt => Nat.ne_of_lt hlt

theorem Sound.eq_of_itemId (h : Sound table) {row row' : DeadLetterRow} (hrow : row ∈ table.rows) (hrow' : row' ∈ table.rows)
    (heq : row.itemId = row'.itemId) : row = row' := List.inj_on_of_nodup_map h.nodup hrow hrow' heq

/-- An item is found by its id. -/
theorem find_eq_some (h : Sound table) {row : DeadLetterRow} :
    find table itemId = some row ↔ row ∈ table.rows ∧ (row.itemId : ℤ) = itemId := by
  constructor
  · intro hfind
    exact ⟨List.mem_of_find?_eq_some hfind, by simpa using List.find?_some hfind⟩
  · rintro ⟨hrow, hid⟩
    obtain ⟨row', hfind⟩ : ∃ row', find table itemId = some row' :=
      Option.isSome_iff_exists.mp (List.find?_isSome.mpr ⟨row, hrow, by simpa using hid⟩)
    have hid' : (row'.itemId : ℤ) = itemId := by simpa using List.find?_some hfind
    rw [hfind, h.eq_of_itemId (List.mem_of_find?_eq_some hfind) hrow (by omega)]

section Update

variable {applies : DeadLetterRow → Bool} {set : DeadLetterRow → DeadLetterRow}

theorem mem_update {row' : DeadLetterRow} : row' ∈ (update table applies set).2.rows ↔
    ∃ row ∈ table.rows, (if applies row = true then set row else row) = row' := List.mem_map

/-- An update of rows that stay counted, under their ids. -/
theorem Sound.update (h : Sound table) (hid : ∀ row, (set row).itemId = row.itemId)
    (hset : ∀ row, applies row = true → Counted row → Counted (set row)) : Sound (update table applies set).2 := by
  have hids (row : DeadLetterRow) : (if applies row = true then set row else row).itemId = row.itemId := by
    split
    · exact hid row
    · rfl
  refine ⟨?_, fun row' hrow' => ?_, h.fits, fun row' hrow' => ?_⟩
  · have hmap : (DeadLetters.update table applies set).2.rows.map DeadLetterRow.itemId =
        table.rows.map DeadLetterRow.itemId := by
      rw [DeadLetters.update, List.map_map]
      exact List.map_congr_left fun row _ => hids row
    rw [hmap]
    exact h.increasing
  · obtain ⟨row, hrow, rfl⟩ := mem_update.mp hrow'
    rw [hids]
    exact h.bounded row hrow
  · obtain ⟨row, hrow, rfl⟩ := mem_update.mp hrow'
    split
    · next happlies => exact hset row happlies (h.counted row hrow)
    · exact h.counted row hrow

/-- An update of no row changes nothing. -/
theorem update_none (h : (update table applies set).1 = 0) : (update table applies set).2 = table := by
  obtain ⟨rows, lastItemId⟩ := table
  have hnone : ∀ row ∈ rows, ¬ applies row = true := List.countP_eq_zero.mp h
  have hmap : rows.map (fun row => if applies row = true then set row else row) = rows :=
    (List.map_congr_left fun row hrow => if_neg (hnone row hrow)).trans (List.map_id' rows)
  simp only [update, hmap]

end Update

/-- One row at most has an id. -/
theorem Sound.countP_itemId (h : Sound table) (p : DeadLetterRow → Bool)
    (hp : ∀ row, p row = true → (row.itemId : ℤ) = itemId) : table.rows.countP p ≤ 1 := by
  have hcount : table.rows.countP p ≤ (table.rows.map DeadLetterRow.itemId).count itemId.toNat := by
    rw [List.count, List.countP_map]
    refine List.countP_mono_left fun row _ hrow => ?_
    have hid := hp row hrow
    simp only [Function.comp_apply, beq_iff_eq]
    omega
  exact hcount.trans (List.nodup_iff_count_le_one.mp h.nodup _)

/-- What every statement leaves sound. -/
theorem Sound.run (h : Sound table) (hfits : sql.fits table = true) : Sound (sql.run py table).2 := by
  cases sql with
  | insert evidence envelopeJson =>
    have hbounded (row : DeadLetterRow) (hrow : row ∈ table.rows) : row.itemId < table.lastItemId + 1 := by
      have := h.bounded row hrow
      omega
    refine ⟨?_, fun row hrow => ?_, of_decide_eq_true hfits, fun row hrow => ?_⟩
    · simp only [Sql.run, List.map_append, List.map_cons, List.map_nil, List.pairwise_append, List.mem_map]
      refine ⟨h.increasing, List.pairwise_singleton .., ?_⟩
      rintro _ ⟨row, hrow, rfl⟩ n hn
      rw [List.mem_singleton.mp hn]
      exact hbounded row hrow
    · simp only [Sql.run, List.mem_append, List.mem_singleton] at hrow ⊢
      rcases hrow with hrow | rfl
      · exact (hbounded row hrow).le
      · exact le_rfl
    · simp only [Sql.run, List.mem_append, List.mem_singleton] at hrow
      rcases hrow with hrow | rfl
      · exact h.counted row hrow
      · exact .inl ⟨rfl, rfl⟩
  | select itemId => exact h
  | selectPendingApplicable limit => exact h
  | updateApplicability itemId applicability => exact h.update (fun _ => rfl) fun _ _ hcounted => hcounted
  | updateReplay itemId =>
    refine h.update (fun _ => rfl) fun row happlies hcounted => .inr ⟨rfl, ?_⟩
    simp only [decide_eq_true_eq] at happlies
    rcases hcounted with ⟨-, hzero⟩ | ⟨hreplayed, -⟩
    · rw [hzero]
    · rw [hreplayed] at happlies
      exact absurd happlies.2.1 (by decide)

/-! ### Changes -/

/-- How a call may change the table. -/
inductive Change (py : Interpreter Opaque) : Request Opaque → DeadLetterStore → DeadLetterStore → Prop where
  | recorded {table : DeadLetterStore} (evidence : Evidence Opaque) (envelopeJson : Str) :
      Change py (.record evidence) table (Sql.run py table (.insert evidence envelopeJson)).2
  | applied {table : DeadLetterStore} (itemId : ℤ) (text : Str) (applicability : Applicability) :
      Change py (.setApplicability itemId text) table
        (Sql.run py table (.updateApplicability itemId applicability)).2
  | replayed {table : DeadLetterStore} {itemId : ℤ} {row : DeadLetterRow} :
      row ∈ table.rows → (row.itemId : ℤ) = itemId → isEligible row = true →
      Change py (.markReplay itemId) table (Sql.run py table (.updateReplay itemId)).2

/-- An item is replayed by its `mark_replay` alone, and stays so. -/
theorem Change.replayed_iff (h : Change py request table table') :
    Replayed table' itemId ↔ Replayed table itemId ∨ request = .markReplay itemId := by
  cases h with
  | recorded evidence envelopeJson =>
    simp only [reduceCtorEq, or_false]
    constructor
    · rintro ⟨row, hrow, hid, hstate⟩
      simp only [Sql.run, List.mem_append, List.mem_singleton] at hrow
      rcases hrow with hrow | rfl
      · exact ⟨row, hrow, hid, hstate⟩
      · cases hstate
    · rintro ⟨row, hrow, hid, hstate⟩
      exact ⟨row, List.mem_append_left _ hrow, hid, hstate⟩
  | applied itemId' text applicability =>
    have hstate (row : DeadLetterRow) (p : Prop) [Decidable p] :
        (if p then { row with applicability } else row).replayState = row.replayState ∧
          (if p then { row with applicability } else row).itemId = row.itemId := by
      split <;> exact ⟨rfl, rfl⟩
    simp only [reduceCtorEq, or_false]
    constructor
    · rintro ⟨_, hrow', hid, hreplayed⟩
      obtain ⟨row, hrow, rfl⟩ := mem_update.mp hrow'
      exact ⟨row, hrow, by rwa [(hstate row _).2] at hid, by rwa [(hstate row _).1] at hreplayed⟩
    · rintro ⟨row, hrow, hid, hreplayed⟩
      refine ⟨_, mem_update.mpr ⟨row, hrow, rfl⟩, ?_, ?_⟩
      · rwa [(hstate row _).2]
      · rwa [(hstate row _).1]
  | @replayed _ itemId' row hrow hid heligible =>
    simp only [isEligible, Bool.decide_and, Bool.and_eq_true, decide_eq_true_eq] at heligible
    constructor
    · rintro ⟨_, hmem, hid', hreplayed⟩
      obtain ⟨row', hrow', rfl⟩ := mem_update.mp hmem
      split at hid' <;> rename_i happlies
      · simp only [decide_eq_true_eq] at happlies
        exact .inr (by rw [← hid', ← happlies.1])
      · rw [if_neg happlies] at hreplayed
        exact .inl ⟨row', hrow', hid', hreplayed⟩
    · rintro (⟨row', hrow', hid', hreplayed⟩ | heq)
      · refine ⟨row', mem_update.mpr ⟨row', hrow', if_neg ?_⟩, hid', hreplayed⟩
        simp [hreplayed]
      · cases heq
        refine ⟨_, mem_update.mpr ⟨row, hrow, if_pos ?_⟩, hid, rfl⟩
        simp [hid, heligible.1, heligible.2]

/-- `mark_replay` changes an item that was not replayed. -/
theorem Change.not_replayed (hsound : Sound table) (h : Change py (.markReplay itemId) table table') : ¬ Replayed table itemId := by
  cases h with
  | @replayed _ _ row hrow hid heligible =>
    rintro ⟨row', hrow', hid', hreplayed⟩
    obtain rfl := hsound.eq_of_itemId hrow hrow' (by omega)
    simp [isEligible, hreplayed] at heligible

theorem Change.ne (hsound : Sound table) (h : Change py (.markReplay itemId) table table') : table ≠ table' := by
  rintro rfl
  exact h.not_replayed hsound (h.replayed_iff.mpr (.inr rfl))

/-! ### What others do -/

/-- What is committed is sound, and what is not yet. -/
def Database.Sound (db : Database κ) : Prop :=
  DeadLetters.Sound db.table ∧ ∀ c table, db.writing = some (c, table) → DeadLetters.Sound table

/-- What others than a connection do. -/
structure Others (c : κ) (db db' : Database κ) : Prop where
  sound : db.Sound → db'.Sound
  mine : ∀ table, db.writing = some (c, table) → db'.writing = some (c, table) ∧ db'.table = db.table
  idle : db.Idle c → db'.Idle c

theorem Others.refl (c : κ) (db : Database κ) : Others c db db := ⟨id, fun _ h => ⟨h, rfl⟩, id⟩

theorem Others.trans {c : κ} {db db' db'' : Database κ} (h : Others c db db') (h' : Others c db' db'') : Others c db db'' := by
  refine ⟨fun hsound => h'.sound (h.sound hsound), fun table hwriting => ?_, fun hidle => h'.idle (h.idle hidle)⟩
  obtain ⟨hwriting', htable⟩ := h.mine table hwriting
  obtain ⟨hwriting'', htable'⟩ := h'.mine table hwriting'
  exact ⟨hwriting'', htable'.trans htable⟩

variable [DecidableEq κ] {c d : κ} {db db' : Database κ}

theorem Database.rollback_cases (db : Database κ) (c : κ) :
    (db.Idle c ∧ db.rollback c = db ∧ db.commit c = db) ∨
    ∃ table, db.writing = some (c, table) ∧ db.rollback c = ⟨db.table, none⟩ ∧ db.commit c = ⟨table, none⟩ := by
  unfold Database.Idle Database.rollback Database.commit
  cases hwriting : db.writing with
  | none => exact .inl ⟨nofun, rfl, rfl⟩
  | some writing =>
    obtain ⟨d, table⟩ := writing
    by_cases hdc : d = c
    · subst hdc
      exact .inr ⟨table, rfl, if_pos rfl, if_pos rfl⟩
    · refine .inl ⟨fun table' h => ?_, if_neg hdc, if_neg hdc⟩
      cases h
      exact hdc rfl

theorem Database.view_idle (h : db.Idle c) : db.view c = db.table := by
  unfold Database.view
  cases hwriting : db.writing with
  | none => rfl
  | some writing =>
    obtain ⟨d, table⟩ := writing
    refine if_neg ?_
    rintro rfl
    exact h table hwriting

theorem Database.view_writing (h : db.writing = some (c, table)) : db.view c = table := by
  rw [Database.view, h]
  exact if_pos rfl

theorem Database.Sound.view (h : db.Sound) (c : κ) : DeadLetters.Sound (db.view c) := by
  unfold Database.view
  split
  · split
    · next hwriting _ => exact h.2 _ _ hwriting
    · exact h.1
  · exact h.1

theorem Database.Sound.rollback (h : db.Sound) (c : κ) : (db.rollback c).Sound := by
  rcases db.rollback_cases c with ⟨-, heq, -⟩ | ⟨table, -, heq, -⟩
  · rwa [heq]
  · rw [heq]
    exact ⟨h.1, nofun⟩

/-- A store that goes away is not seen by the others. -/
theorem others_rollback (hdc : d ≠ c) : Others c db (db.rollback d) := by
  rcases db.rollback_cases d with ⟨-, heq, -⟩ | ⟨table, hwriting, heq, -⟩
  · rw [heq]
    exact Others.refl c db
  · refine ⟨fun h => h.rollback d, fun table' h => ?_, fun _ => ?_⟩
    · rw [hwriting] at h
      cases h
      exact absurd rfl hdc
    · rw [heq]
      exact nofun

theorem sqlite_sound {op : Op Opaque} {reply : Except Raised op.Reply} (h : Sqlite faulty py c op db reply db')
    (hsound : db.Sound) : db'.Sound := by
  cases h with
  | beginImmediate _ =>
    refine ⟨hsound.1, ?_⟩
    rintro _ _ ⟨⟩
    exact hsound.1
  | write _ _ _ hfits =>
    refine ⟨hsound.1, ?_⟩
    rintro _ _ ⟨⟩
    exact (hsound.view c).run hfits
  | commit =>
    rcases db.rollback_cases c with ⟨-, -, heq⟩ | ⟨table, hwriting, -, heq⟩
    · rwa [heq]
    · rw [heq]
      exact ⟨hsound.2 c table hwriting, nofun⟩
  | rollback | failedRollback => exact hsound.rollback c
  | _ => exact hsound

/-- A connection does to the others what they reckon with. -/
theorem sqlite_others {op : Op Opaque} {reply : Except Raised op.Reply} (h : Sqlite faulty py d op db reply db')
    (hdc : d ≠ c) : Others c db db' := by
  have hsound : db.Sound → db'.Sound := sqlite_sound h
  cases h with
  | beginImmediate hnone =>
    refine ⟨hsound, fun table h => ?_, fun _ table h => ?_⟩
    · rw [hnone] at h
      cases h
    · cases h
      exact hdc rfl
  | write _ _ hwritable _ =>
    refine ⟨hsound, fun table h => absurd (hwritable c table h).symm hdc, fun _ table h => ?_⟩
    cases h
    exact hdc rfl
  | commit =>
    rcases db.rollback_cases d with ⟨-, -, heq⟩ | ⟨table, hwriting, -, heq⟩
    · rw [heq]
      exact Others.refl c db
    · refine ⟨hsound, fun table' h => ?_, fun _ => ?_⟩
      · rw [hwriting] at h
        cases h
        exact absurd rfl hdc
      · rw [heq]
        exact nofun
  | rollback | failedRollback => exact others_rollback hdc
  | _ => exact Others.refl c db

/-! ### What a call does -/

/-- The database, and the statements of a call so far. -/
structure Watched (κ : Type) where
  db : Database κ
  history : History

/-- SQLite, for one connection, with the statements kept. -/
def Watch (faulty : Prop) (py : Interpreter Opaque) (c : κ) : Environment (Statements Opaque) Raised (Watched κ) :=
  fun op s reply s' =>
    Sqlite faulty py c op s.db reply s'.db ∧ s'.history = s.history ++ [(s.db.table, s'.db.table)]

/-- What happens between the statements of a call. -/
def Interferes (c : κ) (s s' : Watched κ) : Prop := Others c s.db s'.db ∧ s'.history = s.history

/-- What a statement of a call may do to what is committed. -/
def May (py : Interpreter Opaque) (request : Request Opaque) (s s' : Watched κ) : Prop :=
  s'.db.table = s.db.table ∨ Change py request s.db.table s'.db.table

/-- From a state, a call of a store keeps to what it may do, and ends as `Q` says. -/
abbrev Judged {α : Type} (faulty : Prop) (py : Interpreter Opaque) (c : κ) (request : Request Opaque)
    (p : Program Opaque α) (Q : Except Raised α → Watched κ → Prop) (s : Watched κ) : Prop :=
  Secure (Watch faulty py c) (Interferes c) (May py request) p Q s

/-- No statement so far has changed what is committed. -/
def Quiet (history : History) : Prop := ∀ pair ∈ history, pair.1 = pair.2

/-- The store is in no transaction, and its call has changed nothing. -/
structure Waiting (c : κ) (s : Watched κ) : Prop where
  sound : s.db.Sound
  idle : s.db.Idle c
  quiet : Quiet s.history

/-- The store writes, but has changed nothing yet of what is committed. -/
structure Holding (c : κ) (table table' : DeadLetterStore) (s : Watched κ) : Prop where
  sound : s.db.Sound
  writing : s.db.writing = some (c, table')
  table : s.db.table = table
  quiet : Quiet s.history

theorem Quiet.snoc {history : History} (h : Quiet history) (table : DeadLetterStore) : Quiet (history ++ [(table, table)]) := by
  intro pair hpair
  rcases List.mem_append.mp hpair with hold | hnew
  · exact h pair hold
  · rw [List.mem_singleton.mp hnew]

omit [DecidableEq κ] in
theorem Waiting.stable : Stable (Interferes c) (Waiting c) := by
  rintro s s' ⟨hothers, hhistory⟩ h
  exact ⟨hothers.sound h.sound, hothers.idle h.idle, by rw [hhistory]; exact h.quiet⟩

omit [DecidableEq κ] in
theorem Holding.stable : Stable (Interferes c) (Holding c table table') := by
  rintro s s' ⟨hothers, hhistory⟩ h
  obtain ⟨hwriting, htable⟩ := hothers.mine table' h.writing
  exact ⟨hothers.sound h.sound, hwriting, htable.trans h.table, by rw [hhistory]; exact h.quiet⟩

/-- Only a commit changes what is committed. -/
theorem sqlite_table {op : Op Opaque} {reply : Except Raised op.Reply} (h : Sqlite faulty py c op db reply db')
    (hop : op ≠ .commit ∨ ∃ e, reply = .error e) : db'.table = db.table := by
  cases h with
  | commit => simp at hop
  | rollback | failedRollback =>
    rcases db.rollback_cases c with ⟨-, heq, -⟩ | ⟨_, -, heq, -⟩ <;> rw [heq]
  | _ => rfl

theorem Watch.quiet {op : Op Opaque} {reply : Except Raised op.Reply} {s s' : Watched κ} (h : Watch faulty py c op s reply s')
    (hop : op ≠ .commit ∨ ∃ e, reply = .error e) (hquiet : Quiet s.history) :
    s'.db.table = s.db.table ∧ Quiet s'.history := by
  have htable := sqlite_table h.1 hop
  refine ⟨htable, ?_⟩
  rw [h.2, htable]
  exact hquiet.snoc _

/-- A statement that fails leaves the store as it was. -/
theorem Waiting.failed {op : Op Opaque} {e : Raised} {s s' : Watched κ} (h : Waiting c s)
    (hwatch : Watch faulty py c op s (.error e) s') (hidle : s'.db.Idle c) : May py request s s' ∧ Waiting c s' := by
  obtain ⟨htable, hquiet⟩ := hwatch.quiet (.inr ⟨e, rfl⟩) h.quiet
  exact ⟨.inl htable, sqlite_sound hwatch.1 h.sound, hidle, hquiet⟩

theorem sqlite_execute {reply : Except Raised sql.Reply} (h : Sqlite faulty py c (.execute sql) db reply db') :
    (∃ e, reply = .error e ∧ db' = db ∧
      (sql.unbindable py = some e ∨ ((faulty ∨ sql.writes = true) ∧ e = operationalError))) ∨
    reply = .ok (sql.run py (db.view c)).1 ∧
      db' = if sql.writes = true then ⟨db.table, some (c, (sql.run py (db.view c)).2)⟩ else db := by
  cases h with
  | read _ hreads => exact .inr ⟨rfl, by rw [hreads]; rfl⟩
  | write _ hwrites _ _ => exact .inr ⟨rfl, (if_pos hwrites).symm⟩
  | locked hwrites _ | full hwrites _ => exact .inl ⟨_, rfl, rfl, .inr ⟨.inr hwrites, rfl⟩⟩
  | unbindable he => exact .inl ⟨_, rfl, rfl, .inl he⟩
  | failed hfaulty _ => exact .inl ⟨_, rfl, rfl, .inr ⟨.inl hfaulty, rfl⟩⟩

variable {s s' : Watched κ}

/-- A store that is in no transaction begins one with what it writes. -/
theorem Waiting.write {reply : Except Raised sql.Reply} (hwrites : sql.writes = true) (h : Waiting c s)
    (hwatch : Watch faulty py c (.execute sql) s reply s') :
    (∃ e, reply = .error e ∧ Waiting c s') ∨
    reply = .ok (sql.run py s.db.table).1 ∧ Holding c s.db.table (sql.run py s.db.table).2 s' := by
  obtain ⟨htable, hquiet⟩ := hwatch.quiet (.inl nofun) h.quiet
  have hsound : s'.db.Sound := sqlite_sound hwatch.1 h.sound
  rcases sqlite_execute hwatch.1 with ⟨e, hreply, hdb, -⟩ | ⟨hreply, hdb⟩
  · exact .inl ⟨e, hreply, hsound, hdb ▸ h.idle, hquiet⟩
  · rw [Database.view_idle h.idle] at hreply hdb
    rw [if_pos hwrites] at hdb
    exact .inr ⟨hreply, hsound, by rw [hdb], htable, hquiet⟩

/-- A statement in a transaction sees what the store has written. -/
theorem Holding.execute {reply : Except Raised sql.Reply} (h : Holding c table table' s)
    (hwatch : Watch faulty py c (.execute sql) s reply s') :
    (∃ e, reply = .error e ∧ Holding c table table' s') ∨
    reply = .ok (sql.run py table').1 ∧
      Holding c table (if sql.writes = true then (sql.run py table').2 else table') s' := by
  obtain ⟨htable, hquiet⟩ := hwatch.quiet (.inl nofun) h.quiet
  have hsound : s'.db.Sound := sqlite_sound hwatch.1 h.sound
  rcases sqlite_execute hwatch.1 with ⟨e, hreply, hdb, -⟩ | ⟨hreply, hdb⟩
  · exact .inl ⟨e, hreply, hsound, hdb ▸ h.writing, htable.trans h.table, hquiet⟩
  · rw [Database.view_writing h.writing] at hreply hdb
    refine .inr ⟨hreply, hsound, ?_, htable.trans h.table, hquiet⟩
    rw [hdb]
    split
    · rfl
    · exact h.writing

/-- What a store has written is committed at once. -/
theorem Holding.commit {reply : Except Raised Unit} (h : Holding c table table' s)
    (hwatch : Watch faulty py c .commit s reply s') :
    (∃ e, reply = .error e ∧ Holding c table table' s') ∨
    reply = .ok () ∧ s'.db = ⟨table', none⟩ ∧ s'.history = s.history ++ [(table, table')] := by
  have hcases : (∃ e, reply = .error e ∧ s'.db = s.db) ∨ reply = .ok () ∧ s'.db = s.db.commit c := by
    have hsqlite := hwatch.1
    generalize s'.db = db' at hsqlite
    cases hsqlite with
    | commit => exact .inr ⟨rfl, rfl⟩
    | failed _ _ => exact .inl ⟨_, rfl, rfl⟩
  rcases hcases with ⟨e, hreply, hdb⟩ | ⟨hreply, hdb⟩
  · obtain ⟨htable, hquiet⟩ := hwatch.quiet (.inr ⟨e, hreply⟩) h.quiet
    exact .inl ⟨e, hreply, sqlite_sound hwatch.1 h.sound, hdb ▸ h.writing, htable.trans h.table, hquiet⟩
  · rcases s.db.rollback_cases c with ⟨hidle, -, -⟩ | ⟨table'', hwriting, -, heq⟩
    · exact absurd h.writing (hidle table')
    · obtain rfl : table' = table'' := by
        have := h.writing.symm.trans hwriting
        simpa using this
      refine .inr ⟨hreply, hdb.trans heq, ?_⟩
      rw [hwatch.2, hdb, heq, h.table]

/-! ### The calls, one by one -/

/-- What is not committed yet is dropped with the exception. -/
theorem judged_rollingBack {α : Type} {e : Raised} (hsound : s.db.Sound) (hquiet : Quiet s.history) :
    Judged faulty py c request (rollingBack e : Program Opaque α) (fun r s => (∃ e, r = .error e) ∧ Waiting c s) s := by
  refine secure_bind ?_
  rintro s₁ reply s₂ ⟨hothers, hhistory⟩ hwatch
  obtain ⟨htable, hquiet₂⟩ := hwatch.quiet (.inl nofun) (hhistory ▸ hquiet)
  have hsound₂ : s₂.db.Sound := sqlite_sound hwatch.1 (hothers.sound hsound)
  have hidle : s₂.db.Idle c := by
    have hrollback : s₂.db = s₁.db.rollback c := by
      have hsqlite := hwatch.1
      generalize s₂.db = db₂ at hsqlite
      cases hsqlite with
      | rollback | failedRollback => rfl
      | failed _ hne => exact absurd rfl hne
    rcases s₁.db.rollback_cases c with ⟨hidle, heq, -⟩ | ⟨_, -, heq, -⟩
    · rwa [hrollback, heq]
    · rw [hrollback, heq]
      exact nofun
  have hwaiting : Waiting c s₂ := ⟨hsound₂, hidle, hquiet₂⟩
  refine ⟨.inl htable, ?_⟩
  cases reply with
  | ok _ => exact ⟨⟨e, rfl⟩, hwaiting⟩
  | error e' => exact ⟨⟨e', rfl⟩, hwaiting⟩

/-- One statement was committed, and gave the value. -/
structure Committed (py : Interpreter Opaque) (c : κ) (sql : Sql Opaque) (value : sql.Reply) (s : Watched κ) : Prop where
  sound : s.db.Sound
  idle : s.db.Idle c
  change : ∃ table, Sound table ∧ value = (sql.run py table).1 ∧
    ∀ pair ∈ s.history, pair.1 = pair.2 ∨ pair = (table, (sql.run py table).2)

/-- `with self.connection:` one statement that writes. -/
theorem judged_withConnection (hwrites : sql.writes = true)
    (hchange : ∀ table, Change py request table (sql.run py table).2) (hs : Waiting c s) :
    Judged faulty py c request (withConnection (execute sql))
      (fun r s => match r with
        | .ok value => Committed py c sql value s
        | .error _ => Waiting c s) s := by
  refine secure_tryCatch (secure_bind ?_)
  intro s₁ reply s₂ hothers hwatch
  have hs₁ : Waiting c s₁ := Waiting.stable _ _ hothers hs
  refine ⟨.inl (hwatch.quiet (.inl nofun) hs₁.quiet).1, ?_⟩
  rcases hs₁.write hwrites hwatch with ⟨e, rfl, hs₂⟩ | ⟨rfl, hs₂⟩
  · exact (judged_rollingBack hs₂.sound hs₂.quiet).mono fun r _ ⟨⟨_, hr⟩, hs⟩ => by rwa [hr]
  · refine secure_bind ?_
    intro s₃ reply' s₄ hothers' hwatch'
    have hs₃ := Holding.stable _ _ hothers' hs₂
    have hsound : Sound s₁.db.table := hs₁.sound.1
    rcases hs₃.commit hwatch' with ⟨e, rfl, hs₄⟩ | ⟨rfl, hdb, hhistory⟩
    · refine ⟨.inl (hs₄.table.trans hs₃.table.symm), ?_⟩
      exact (judged_rollingBack hs₄.sound hs₄.quiet).mono fun r _ ⟨⟨_, hr⟩, hs⟩ => by rwa [hr]
    · refine ⟨.inr ?_, ?_, ?_, s₁.db.table, hsound, rfl, ?_⟩
      · rw [hs₃.table, hdb]
        exact hchange _
      · exact sqlite_sound hwatch'.1 hs₃.sound
      · rw [hdb]
        exact nofun
      · rw [hhistory]
        intro pair hpair
        rcases List.mem_append.mp hpair with hold | hnew
        · exact .inl (hs₃.quiet pair hold)
        · exact .inr (List.mem_singleton.mp hnew)

/-- An item has its row's data. -/
theorem rowToItem_ok {row : DeadLetterRow} {item : DeadLetterItem Opaque} (h : rowToItem decoder row = .ok item) :
    item.itemId = row.itemId ∧ item.applicability = row.applicability ∧ item.replayState = row.replayState ∧
      item.retryCount = row.retryCount := by
  obtain ⟨envelope, -, rfl⟩ := except_map_ok.mp h
  exact ⟨rfl, rfl, rfl, rfl⟩

theorem checkReplay_ok {item : DeadLetterItem Opaque} : checkReplay item = .ok () ↔
    item.applicability = .applicable ∧ item.replayState = .pending ∧ item.retryCount < maxRetries := by
  unfold checkReplay
  split_ifs with hstate hunknown happlicable hretries
  · simp [hstate]
  · simp [hunknown]
  · simp [happlicable]
  · simpa using fun _ _ => hretries
  · simp only [not_not, not_le] at hstate happlicable hretries
    simp [hstate, happlicable, hretries]

/-- An item that `mark_replay` takes can be read, and could be listed. -/
theorem checkRow_ok {found : Option DeadLetterRow} : checkRow decoder found = .ok () ↔
    ∃ row item, found = some row ∧ rowToItem decoder row = .ok item ∧ isEligible row = true ∧ row.retryCount < maxRetries := by
  cases found with
  | none => simp [checkRow]
  | some row =>
    simp only [checkRow, except_bind_ok, checkReplay_ok, isEligible, decide_eq_true_eq]
    constructor
    · rintro ⟨item, hitem, happlicable, hstate, hretries⟩
      obtain ⟨-, ha, hs, hr⟩ := rowToItem_ok hitem
      exact ⟨row, item, rfl, hitem, ⟨ha ▸ happlicable, hs ▸ hstate⟩, hr ▸ hretries⟩
    · rintro ⟨_, item, ⟨⟩, hitem, ⟨happlicable, hstate⟩, hretries⟩
      obtain ⟨-, ha, hs, hr⟩ := rowToItem_ok hitem
      exact ⟨item, hitem, ha ▸ happlicable, hs ▸ hstate, hr ▸ hretries⟩

/-- The replay of an item was committed, or nothing was. -/
def Attempted (c : κ) {α : Type} (result : Except Raised α) (s : Watched κ) : Prop :=
  s.db.Sound ∧ (∀ e, result = .error e → Quiet s.history) ∧ ∀ value, result = .ok value → s.db.Idle c ∧ ¬ Quiet s.history

omit [DecidableEq κ] in
theorem Attempted.error {α : Type} {e : Raised} (hsound : s.db.Sound) (hquiet : Quiet s.history) :
    Attempted c (.error e : Except Raised α) s := ⟨hsound, fun _ _ => hquiet, nofun⟩

/-- The guarded update of an eligible item, and its commit. -/
theorem judged_updateReplay {row : DeadLetterRow} (hs : Holding c table table s) (hrow : row ∈ table.rows)
    (hid : (row.itemId : ℤ) = itemId) (heligible : isEligible row = true) :
    Judged faulty py c (.markReplay itemId)
      (do
        let count : ℕ ← execute (.updateReplay itemId)
        Prog.refuseIf (count ≠ 1) (.deadLetterError "REPLAY_STATE_CHANGED")
        ask .commit) (Attempted c) s := by
  have hsound : Sound table := hs.table ▸ hs.sound.1
  have hchange : Change py (.markReplay itemId) table (Sql.run py table (.updateReplay itemId)).2 :=
    .replayed hrow hid heligible
  refine secure_bind ?_
  intro s₁ reply s₂ hothers hwatch
  have hs₁ := Holding.stable _ _ hothers hs
  refine ⟨.inl (hwatch.quiet (.inl nofun) hs₁.quiet).1, ?_⟩
  rcases hs₁.execute hwatch with ⟨e, rfl, hs₂⟩ | ⟨rfl, hs₂⟩
  · exact .error hs₂.sound hs₂.quiet
  refine secure_bind (secure_refuseIf (fun _ => .error hs₂.sound hs₂.quiet) fun _ => ?_)
  intro s₃ reply s₄ hothers hwatch
  have hs₃ := Holding.stable _ _ hothers hs₂
  rcases hs₃.commit hwatch with ⟨e, rfl, hs₄⟩ | ⟨rfl, hdb, hhistory⟩
  · exact ⟨.inl (hs₄.table.trans hs₃.table.symm), .error hs₄.sound hs₄.quiet⟩
  · refine ⟨.inr ?_, ?_, nofun, fun _ _ => ⟨?_, fun hquiet => hchange.ne hsound (hquiet (_, _) ?_)⟩⟩
    · rw [hs₃.table, hdb]
      exact hchange
    · exact sqlite_sound hwatch.1 hs₃.sound
    · rw [hdb]
      exact nofun
    · rw [hhistory]
      exact List.mem_append_right _ (List.mem_singleton_self _)

/-- What `mark_replay` commits is the replay of an item that could be listed. -/
theorem judged_replay (hs : Holding c table table s) :
    Judged faulty py c (.markReplay itemId) (replay decoder itemId) (Attempted c) s := by
  refine secure_bind ?_
  intro s₁ reply s₂ hothers hwatch
  have hs₁ := Holding.stable _ _ hothers hs
  refine ⟨.inl (hwatch.quiet (.inl nofun) hs₁.quiet).1, ?_⟩
  rcases hs₁.execute hwatch with ⟨e, rfl, hs₂⟩ | ⟨rfl, hs₂⟩
  · exact .error hs₂.sound hs₂.quiet
  refine secure_bind ?_
  cases hcheck : checkRow decoder (Sql.run py table (.select itemId)).1 with
  | error e => exact .error hs₂.sound hs₂.quiet
  | ok _ =>
    obtain ⟨row, item, hfind, -, heligible, -⟩ := checkRow_ok.mp hcheck
    obtain ⟨hrow, hid⟩ := (find_eq_some (hs.table ▸ hs.sound.1)).mp hfind
    exact judged_updateReplay hs₂ hrow hid heligible

/-- `mark_replay` changes what is committed if it returns, and only then. -/
theorem judged_markReplay (hs : Waiting c s) : Judged faulty py c (.markReplay itemId) (markReplay decoder itemId)
    (fun r s => s.db.Idle c ∧ (∀ e, r = .error e → Quiet s.history) ∧ ∀ value, r = .ok value → ¬ Quiet s.history) s := by
  refine secure_bind ?_
  intro s₁ reply s₂ hothers hwatch
  have hs₁ := Waiting.stable _ _ hothers hs
  obtain ⟨htable, hquiet⟩ := hwatch.quiet (.inl nofun) hs₁.quiet
  refine ⟨.inl htable, ?_⟩
  have hsound : s₂.db.Sound := sqlite_sound hwatch.1 hs₁.sound
  have hcases : (∃ e, reply = .error e ∧ s₂.db = s₁.db) ∨ reply = .ok () ∧ s₂.db = ⟨s₁.db.table, some (c, s₁.db.table)⟩ := by
    have hsqlite := hwatch.1
    generalize s₂.db = db₂ at hsqlite
    cases hsqlite with
    | beginImmediate _ => exact .inr ⟨rfl, rfl⟩
    | busy _ | failed _ _ => exact .inl ⟨_, rfl, rfl⟩
  rcases hcases with ⟨e, rfl, hdb⟩ | ⟨rfl, hdb⟩
  · exact ⟨hdb ▸ hs₁.idle, fun _ _ => hquiet, nofun⟩
  · have hs₂ : Holding c s₁.db.table s₁.db.table s₂ := ⟨hsound, by rw [hdb], by rw [hdb], hquiet⟩
    refine secure_tryCatch ((judged_replay hs₂).mono fun r s₃ h => ?_)
    cases r with
    | ok value => exact ⟨(h.2.2 value rfl).1, nofun, fun value' _ => (h.2.2 value rfl).2⟩
    | error e =>
      refine (judged_rollingBack h.1 (h.2.1 e rfl)).mono fun r s₄ h => ?_
      obtain ⟨⟨e', rfl⟩, hs₄⟩ := h
      exact ⟨hs₄.idle, fun _ _ => hs₄.quiet, nofun⟩

/-- What `list_pending_applicable` makes of a table. -/
def listing (decoder : Decoder Opaque) (table : DeadLetterStore) (limit : ℤ) : Except Raised (List (DeadLetterItem Opaque)) :=
  (pendingApplicable table limit).mapM (rowToItem decoder)

/-- The result is the listing of a table that was committed, unless SQLite failed. -/
def Listed (faulty : Prop) (decoder : Decoder Opaque) (limit : ℤ) (result : Except Raised (List (DeadLetterItem Opaque)))
    (history : History) : Prop :=
  ∃ table, Sound table ∧ history = [(table, table)] ∧
    (result = listing decoder table limit ∨ (faulty ∧ result = .error operationalError))

/-- `list_pending_applicable` lists what is committed. -/
theorem judged_listPendingApplicable {limit : ℤ} (hs : Waiting c s) (hnew : s.history = []) :
    Judged faulty py c request (listPendingApplicable decoder limit)
      (fun r s => s.db.Idle c ∧ Quiet s.history ∧ (0 < limit → limit < 2 ^ 63 → Listed faulty decoder limit r s.history)) s := by
  refine secure_bind (secure_refuseIf (fun hlimit => ⟨hs.idle, hs.quiet, fun hpos => absurd hlimit (not_le.mpr hpos)⟩) fun _ => ?_)
  refine secure_bind ?_
  intro s₁ reply s₂ hothers hwatch
  have hs₁ := Waiting.stable _ _ hothers hs
  obtain ⟨htable, hquiet⟩ := hwatch.quiet (.inl nofun) hs₁.quiet
  have hhistory : s₂.history = [(s₁.db.table, s₁.db.table)] := by
    rw [hwatch.2, hothers.2, hnew, htable]
    rfl
  refine ⟨.inl htable, ?_⟩
  rcases sqlite_execute hwatch.1 with ⟨e, rfl, hdb, hfailed⟩ | ⟨rfl, hdb⟩
  · refine ⟨hdb ▸ hs₁.idle, hquiet, fun hpos hlimit => ⟨_, hs₁.sound.1, hhistory, .inr ?_⟩⟩
    rcases hfailed with hunbindable | ⟨hfaulty | hwrites, rfl⟩
    · rw [Sql.unbindable, if_pos ⟨by omega, hlimit⟩] at hunbindable
      cases hunbindable
    · exact ⟨hfaulty, rfl⟩
    · cases hwrites
  · rw [Database.view_idle hs₁.idle]
    refine ⟨hdb ▸ hs₁.idle, hquiet, fun _ _ => ⟨_, hs₁.sound.1, hhistory, .inl rfl⟩⟩

/-- How a call ends. -/
structure Ends (faulty : Prop) (decoder : Decoder Opaque) (c : κ) (request : Request Opaque)
    (result : Except Raised (Returned Opaque)) (s : Watched κ) : Prop where
  idle : s.db.Idle c
  failed : ∀ e, result = .error e → Quiet s.history
  replayed : ∀ itemId value, request = .markReplay itemId → result = .ok value → ¬ Quiet s.history
  listed : ∀ limit, request = .listPendingApplicable limit → 0 < limit → limit < 2 ^ 63 →
    ∃ listed, Listed faulty decoder limit listed s.history ∧ result = .items <$> listed

omit [DecidableEq κ] in
theorem Ends.stable (result : Except Raised (Returned Opaque)) : Stable (Interferes c) (Ends faulty decoder c request result) := by
  rintro s s' ⟨hothers, hhistory⟩ h
  refine ⟨hothers.idle h.idle, ?_, ?_, ?_⟩ <;> rw [hhistory]
  · exact h.failed
  · exact h.replayed
  · exact h.listed

theorem judged_record {evidence : Evidence Opaque} (hs : Waiting c s) :
    Judged faulty py c (.record evidence) (record py evidence)
      (fun r s => s.db.Idle c ∧ ∀ e, r = .error e → Quiet s.history) s := by
  unfold record
  split
  · exact ⟨hs.idle, fun _ _ => hs.quiet⟩
  · split
    · exact ⟨hs.idle, fun _ _ => hs.quiet⟩
    · refine (judged_withConnection rfl (fun table => .recorded evidence _) hs).mono fun r s h => ?_
      cases r with
      | ok value => exact ⟨h.idle, fun _ hno => by cases hno⟩
      | error e => exact ⟨h.idle, fun _ _ => h.quiet⟩

/-- The update of an item that is not there changes nothing. -/
theorem judged_setApplicability {text : Str} (hs : Waiting c s) :
    Judged faulty py c (.setApplicability itemId text) (setApplicability itemId text)
      (fun r s => s.db.Idle c ∧ ∀ e, r = .error e → Quiet s.history) s := by
  unfold setApplicability
  split
  · exact ⟨hs.idle, fun _ _ => hs.quiet⟩
  · next applicability _ =>
    refine secure_bind ((judged_withConnection rfl (fun table => .applied itemId text applicability) hs).mono fun r s h => ?_)
    cases r with
    | error e => exact ⟨h.idle, fun _ _ => h.quiet⟩
    | ok value =>
      refine secure_refuseIf (fun hcount => ⟨h.idle, fun _ _ pair hpair => ?_⟩) fun _ => ⟨h.idle, nofun⟩
      obtain ⟨table, hsound, rfl, hchange⟩ := h.change
      have hle : table.rows.countP (fun row => (row.itemId : ℤ) = itemId) ≤ 1 :=
        hsound.countP_itemId _ fun row hrow => of_decide_eq_true hrow
      have hnone : (Sql.run py table (.updateApplicability itemId applicability)).2 = table :=
        update_none (Nat.lt_one_iff.mp (lt_of_le_of_ne hle hcount))
      rcases hchange pair hpair with heq | rfl
      · exact heq
      · exact hnone.symm

/-- Every call ends as it should, whatever the others do. -/
theorem judged_program (hs : Waiting c s) (hnew : s.history = []) :
    Judged faulty py c request (request.program py decoder) (Ends faulty decoder c request) s := by
  cases request with
  | record evidence =>
    refine secure_bind ((judged_record hs).mono fun r s h => ?_)
    cases r with
    | ok n => exact ⟨h.1, nofun, nofun, nofun⟩
    | error e => exact ⟨h.1, fun _ _ => h.2 e rfl, nofun, nofun⟩
  | setApplicability itemId text =>
    refine secure_bind ((judged_setApplicability hs).mono fun r s h => ?_)
    cases r with
    | ok _ => exact ⟨h.1, nofun, nofun, nofun⟩
    | error e => exact ⟨h.1, fun _ _ => h.2 e rfl, nofun, nofun⟩
  | listPendingApplicable limit =>
    refine secure_bind ((judged_listPendingApplicable hs hnew).mono fun r s h => ?_)
    obtain ⟨hidle, hquiet, hlisted⟩ := h
    cases r with
    | ok items =>
      refine ⟨hidle, nofun, nofun, ?_⟩
      rintro _ ⟨⟩ hpos hlimit
      exact ⟨.ok items, hlisted hpos hlimit, rfl⟩
    | error e =>
      refine ⟨hidle, fun _ _ => hquiet, nofun, ?_⟩
      rintro _ ⟨⟩ hpos hlimit
      exact ⟨.error e, hlisted hpos hlimit, rfl⟩
  | markReplay itemId =>
    refine secure_bind ((judged_markReplay hs).mono fun r s h => ?_)
    obtain ⟨hidle, hfailed, hreplayed⟩ := h
    cases r with
    | ok value => exact ⟨hidle, nofun, fun _ _ _ _ => hreplayed value rfl, nofun⟩
    | error e => exact ⟨hidle, fun _ _ => hfailed e rfl, nofun, nofun⟩

end CcbCore.Radar.DeadLetters
