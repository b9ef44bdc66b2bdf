import CcbCore.Radar.DeadLetterTransactions

/-!
# A dead letter is replayed once

However the calls of any number of stores interleave, the table says how often a
`mark_replay` of an item has returned (`Tallied.step`), and what is listed is what
`mark_replay` takes next (`replayable_iff`, `listing_replayable`). So an item is replayed
at most once (`dead_letter_replayed_once`).
-/

namespace CcbCore.Radar.DeadLetters

open CcbCore.CodePoints CcbCore.Raising

variable {Opaque κ : Type} {py : Interpreter Opaque} {decoder : Decoder Opaque} {faulty : Prop}
  {table table' : DeadLetterStore} {itemId : ℤ} {request : Request Opaque} {sql : Sql Opaque}
  [DecidableEq κ] {c d : κ} {db db' : Database κ}

/-! ### Runs -/

variable {w w' : World Opaque κ} {es : List (Event Opaque κ)} {event : Event Opaque κ}

/-- What is committed is sound, every call is judged, and a store without one is in no transaction. -/
structure Guarded (faulty : Prop) (py : Interpreter Opaque) (decoder : Decoder Opaque) (w : World Opaque κ) : Prop where
  sound : w.db.Sound
  judged : ∀ c call, w.running c = some call →
    Judged faulty py c call.request call.program (Ends faulty decoder c call.request) ⟨w.db, call.history⟩
  idle : ∀ c, w.running c = none → w.db.Idle c

/-- What one store does leaves the calls of the others judged. -/
theorem Guarded.set (h : Guarded faulty py decoder w) {call : Option (Call Opaque)} (hsound : db'.Sound)
    (hothers : ∀ d, d ≠ c → Others d w.db db')
    (hjudged : ∀ running, call = some running →
      Judged faulty py c running.request running.program (Ends faulty decoder c running.request) ⟨db', running.history⟩)
    (hidle : call = none → db'.Idle c) : Guarded faulty py decoder (w.set db' c call) := by
  refine ⟨hsound, fun d running hrunning => ?_, fun d hnone => ?_⟩
  · by_cases hdc : d = c
    · subst hdc
      exact hjudged running (by simpa [World.set] using hrunning)
    · have hold : w.running d = some running := by simpa [World.set, hdc] using hrunning
      refine Secure.stable ?_ Ends.stable ⟨w.db, running.history⟩ _ ⟨hothers d hdc, rfl⟩ (h.judged d running hold)
      rintro s t u ⟨hst, hhistory⟩ ⟨htu, hhistory'⟩
      exact ⟨hst.trans htu, hhistory'.trans hhistory⟩
  · by_cases hdc : d = c
    · subst hdc
      exact hidle (by simpa [World.set] using hnone)
    · exact (hothers d hdc).idle (h.idle d (by simpa [World.set, hdc] using hnone))

/-- An event leaves every call judged. -/
theorem Guarded.step (h : Guarded faulty py decoder w) (hstep : Step faulty py decoder w event w') :
    Guarded faulty py decoder w' := by
  cases hstep with
  | start request hnone =>
    refine h.set h.sound (fun d _ => Others.refl d w.db) ?_ nofun
    rintro _ ⟨⟩
    exact judged_program ⟨h.sound, h.idle _ hnone, fun _ h => absurd h List.not_mem_nil⟩ rfl
  | @statement c request op next history reply db hcall hsqlite =>
    refine h.set (sqlite_sound hsqlite h.sound) (fun d hdc => sqlite_others hsqlite hdc.symm) ?_ nofun
    rintro _ ⟨⟩
    exact (h.judged _ _ hcall _ _ ⟨db, _⟩ ⟨Others.refl c w.db, rfl⟩ ⟨hsqlite, rfl⟩).2
  | finish hcall => exact h.set h.sound (fun d _ => Others.refl d w.db) nofun fun _ => (h.judged _ _ hcall).idle
  | stop c =>
    refine h.set (h.sound.rollback c) (fun d hdc => others_rollback hdc.symm) nofun fun _ => ?_
    rcases w.db.rollback_cases c with ⟨hidle, heq, -⟩ | ⟨_, -, heq, -⟩
    · rwa [heq]
    · rw [heq]
      exact nofun

/-! ### Replays -/

/-- A `mark_replay` of the item returned. -/
def Event.isReplay (itemId : ℤ) : Event Opaque κ → Bool
  | .finish _ (.markReplay itemId') (.ok _) _ => itemId' = itemId
  | _ => false

/-- A statement of a `mark_replay` of the item changed what is committed. -/
inductive Event.Replays (itemId : ℤ) : Event Opaque κ → Prop where
  | statement {c : κ} {before after : DeadLetterStore} : before ≠ after →
      Event.Replays itemId (.statement c (.markReplay itemId) before after)

/-- A call that has replayed the item. -/
def Call.Marks (call : Call Opaque) (itemId : ℤ) : Prop := call.request = .markReplay itemId ∧ ¬ Quiet call.history

/-- The call that a store runs has replayed the item. -/
def Marked (w : World Opaque κ) (itemId : ℤ) (c : κ) : Prop := ∃ call, w.running c = some call ∧ call.Marks itemId

/-- How often a `mark_replay` of the item has returned is what the table says of it. -/
structure Tallied (es : List (Event Opaque κ)) (w : World Opaque κ) (itemId : ℤ) : Prop where
  replayed : Replayed w.db.table itemId ↔ ∃ e ∈ es, e.Replays itemId
  fresh : ¬ Replayed w.db.table itemId → es.countP (Event.isReplay itemId) = 0 ∧ ∀ c, ¬ Marked w itemId c
  once : es.countP (Event.isReplay itemId) ≤ 1
  marked : ∀ c, Marked w itemId c → es.countP (Event.isReplay itemId) = 0 ∧ ∀ d, Marked w itemId d → d = c

omit [DecidableEq κ] in
theorem quiet_snoc {history : History} {before after : DeadLetterStore} :
    Quiet (history ++ [(before, after)]) ↔ Quiet history ∧ before = after := by
  constructor
  · intro h
    exact ⟨fun pair hpair => h pair (List.mem_append_left _ hpair), h (before, after) (by simp)⟩
  · rintro ⟨h, rfl⟩
    exact h.snoc before

theorem marked_set {call : Option (Call Opaque)} {d : κ} : Marked (w.set db' c call) itemId d ↔
    (d = c ∧ ∃ running, call = some running ∧ running.Marks itemId) ∨ (d ≠ c ∧ Marked w itemId d) := by
  by_cases hdc : d = c
  · subst hdc
    simp [Marked, World.set]
  · simp [Marked, World.set, hdc]

/-- An event that replays nothing, and that nothing of returned. -/
theorem Tallied.quietly (h : Tallied es w itemId) {call : Option (Call Opaque)} (htable : Replayed db'.table itemId ↔ Replayed w.db.table itemId)
    (hreplay : Event.isReplay itemId event = false) (hreplays : ¬ event.Replays itemId)
    (hcall : ∀ running, call = some running → running.Marks itemId → Marked w itemId c) :
    Tallied (es ++ [event]) (w.set db' c call) itemId := by
  have hcount : (es ++ [event]).countP (Event.isReplay itemId) = es.countP (Event.isReplay itemId) := by
    rw [List.countP_append, List.countP_singleton, hreplay]
    rfl
  have hmarked (d : κ) (hd : Marked (w.set db' c call) itemId d) : Marked w itemId d := by
    rcases marked_set.mp hd with ⟨rfl, running, hrunning, hmarks⟩ | ⟨-, hd⟩
    · exact hcall running hrunning hmarks
    · exact hd
  have hevents : (∃ e ∈ es ++ [event], e.Replays itemId) ↔ ∃ e ∈ es, e.Replays itemId := by
    simp [or_and_right, exists_or, hreplays]
  refine ⟨?_, fun hfresh => ?_, by rw [hcount]; exact h.once, fun d hd => ?_⟩
  · rw [hevents, ← h.replayed]
    exact htable
  · obtain ⟨hzero, hnone⟩ := h.fresh (mt htable.mpr hfresh)
    exact ⟨hcount.trans hzero, fun d hd => hnone d (hmarked d hd)⟩
  · obtain ⟨hzero, hone⟩ := h.marked d (hmarked d hd)
    exact ⟨hcount.trans hzero, fun d' hd' => hone d' (hmarked d' hd')⟩

/-- A statement that replays the item. -/
theorem Tallied.replay (h : Tallied es w itemId) (hold : ¬ Replayed w.db.table itemId) (hnew : Replayed db'.table itemId)
    {call : Call Opaque} (hne : w.db.table ≠ db'.table) :
    Tallied (es ++ [.statement c (.markReplay itemId) w.db.table db'.table]) (w.set db' c (some call)) itemId := by
  obtain ⟨hzero, hnone⟩ := h.fresh hold
  have hcount : (es ++ [Event.statement c (.markReplay itemId) w.db.table db'.table]).countP (Event.isReplay itemId) = 0 := by
    rw [List.countP_append, hzero]
    rfl
  have hmarked (d : κ) (hd : Marked (w.set db' c (some call)) itemId d) : d = c := by
    rcases marked_set.mp hd with ⟨hdc, -⟩ | ⟨-, hd⟩
    · exact hdc
    · exact absurd hd (hnone d)
  refine ⟨⟨fun _ => ⟨_, List.mem_append_right _ (List.mem_singleton_self _), .statement hne⟩, fun _ => hnew⟩, fun hfresh => absurd hnew hfresh, by omega, fun d hd => ?_⟩
  exact ⟨hcount, fun d' hd' => (hmarked d' hd').trans (hmarked d hd).symm⟩

/-- A `mark_replay` that returns has replayed the item. -/
theorem Tallied.finish (h : Tallied es w itemId) (hmarked : Marked w itemId c) (hreplay : Event.isReplay itemId event = true)
    (hreplays : ¬ event.Replays itemId) : Tallied (es ++ [event]) (w.set w.db c none) itemId := by
  obtain ⟨hzero, hone⟩ := h.marked c hmarked
  have hreplayed : Replayed w.db.table itemId := by
    by_contra hfresh
    exact (h.fresh hfresh).2 c hmarked
  have hcount : (es ++ [event]).countP (Event.isReplay itemId) = 1 := by
    rw [List.countP_append, List.countP_singleton, hreplay, hzero]
    rfl
  have hnone (d : κ) : ¬ Marked (w.set w.db c none) itemId d := by
    intro hd
    rcases marked_set.mp hd with ⟨-, _, hcall, -⟩ | ⟨hdc, hd⟩
    · cases hcall
    · exact hdc (hone d hd)
  refine ⟨?_, fun hfresh => absurd hreplayed hfresh, by omega, fun d hd => absurd hd (hnone d)⟩
  simp only [List.mem_append, List.mem_singleton, or_and_right, exists_or, exists_eq_left, hreplays, or_false]
  exact h.replayed

theorem Tallied.step (hguarded : Guarded faulty py decoder w) (h : Tallied es w itemId)
    (hstep : Step faulty py decoder w event w') : Tallied (es ++ [event]) w' itemId := by
  cases hstep with
  | start request hnone =>
    refine h.quietly Iff.rfl rfl nofun ?_
    rintro _ ⟨⟩ ⟨-, hquiet⟩
    exact absurd (fun _ h => absurd h List.not_mem_nil) hquiet
  | @statement c request op next history reply db hcall hsqlite =>
    obtain ⟨hmay, -⟩ := hguarded.judged _ _ hcall _ _ ⟨db, history ++ [(w.db.table, db.table)]⟩ ⟨Others.refl c w.db, rfl⟩ ⟨hsqlite, rfl⟩
    by_cases hsame : w.db.table = db.table
    · refine h.quietly (by rw [hsame]) rfl ?_ ?_
      · rintro ⟨hne⟩
        exact hne hsame
      · rintro _ ⟨⟩ ⟨hrequest, hquiet⟩
        exact ⟨_, hcall, hrequest, fun hold => hquiet (quiet_snoc.mpr ⟨hold, hsame⟩)⟩
    · have hchange : Change py request w.db.table db.table := hmay.resolve_left fun heq => hsame heq.symm
      by_cases hrequest : request = .markReplay itemId
      · subst hrequest
        exact h.replay (hchange.not_replayed hguarded.sound.1) (hchange.replayed_iff.mpr (.inr rfl)) hsame
      · refine h.quietly ?_ rfl ?_ ?_
        · rw [hchange.replayed_iff, or_iff_left hrequest]
        · rintro ⟨-⟩
          exact hrequest rfl
        · rintro _ ⟨⟩ ⟨heq, -⟩
          exact absurd heq hrequest
  | @finish c request result history hcall =>
    cases hreplay : Event.isReplay itemId (.finish c request result history) with
    | false => exact h.quietly Iff.rfl hreplay nofun nofun
    | true =>
      have hends := hguarded.judged _ _ hcall
      obtain ⟨rfl, value, rfl⟩ : request = .markReplay itemId ∧ ∃ value, result = .ok value := by
        unfold Event.isReplay at hreplay
        split at hreplay
        · next heq =>
          cases heq
          exact ⟨by rw [of_decide_eq_true hreplay], _, rfl⟩
        · cases hreplay
      exact h.finish ⟨_, hcall, rfl, hends.replayed itemId value rfl rfl⟩ hreplay nofun
  | stop c =>
    refine h.quietly ?_ rfl nofun nofun
    rcases w.db.rollback_cases c with ⟨-, heq, -⟩ | ⟨_, -, heq, -⟩ <;> rw [heq]

/-! ### What is listed -/

/-- `mark_replay` of the item returns, called next on what is committed. -/
def Replayable (py : Interpreter Opaque) (decoder : Decoder Opaque) (c : κ) (table : DeadLetterStore) (itemId : ℤ) : Prop :=
  ∃ answers db, Runs (Sqlite False py c) (markReplay decoder itemId) ⟨table, none⟩ answers (.ok ()) db

/-- What a listing says of a table: it returns if every item in it can be read, and then has the
items that any store can replay next, in the order of their ids. -/
structure ListsReplayable (κ : Type) [DecidableEq κ] (py : Interpreter Opaque) (decoder : Decoder Opaque) (table : DeadLetterStore)
    (listed : Except Raised (List (DeadLetterItem Opaque))) : Prop where
  returns : (∃ items, listed = .ok items) ↔
    ∀ row ∈ table.rows, isEligible row = true → ∃ item, rowToItem decoder row = .ok item
  ordered : ∀ items, listed = .ok items → (items.map DeadLetterItem.itemId).Pairwise (· < ·)
  exact : ∀ items, listed = .ok items → ∀ (c : κ) (itemId : ℤ),
    (∃ item ∈ items, (item.itemId : ℤ) = itemId) ↔ Replayable py decoder c table itemId

theorem runs_rollingBack {α : Type} {e : Raised} {answers : List (Answer (Statements Opaque) Raised)} {result : Except Raised α}
    (h : Runs (Sqlite faulty py c) (rollingBack e : Program Opaque α) db answers result db') : ∃ e', result = .error e' := by
  rcases runs_bind.mp h with ⟨e', -, hresult⟩ | ⟨_, _, _, _, -, hthrow, -⟩
  · exact ⟨e', hresult⟩
  · exact ⟨e, (runs_throw.mp hthrow).2.1⟩

/-- What `mark_replay` has checked if it returns. -/
theorem Replayable.checked (h : Replayable py decoder c table itemId) : checkRow decoder (find table itemId) = .ok () := by
  obtain ⟨answers, db, hruns⟩ := h
  obtain ⟨_, -, ⟨⟩⟩ | ⟨_, db₁, _, _, hbegin, hruns, -⟩ := runs_bind.mp hruns
  have hdb₁ : db₁ = ⟨table, some (c, table)⟩ := by
    obtain ⟨hsqlite, -⟩ := runs_ask.mp hbegin
    cases hsqlite
    rfl
  subst hdb₁
  obtain ⟨_, hreplay, -⟩ | ⟨_, _, _, _, -, hrollback, -⟩ := runs_tryCatch.mp hruns
  · obtain ⟨_, -, ⟨⟩⟩ | ⟨row, _, _, _, hselect, hreplay, -⟩ := runs_bind.mp hreplay
    obtain ⟨hsqlite, -⟩ := runs_ask.mp hselect
    obtain ⟨_, ⟨⟩, -⟩ | ⟨hrow, -⟩ := sqlite_execute hsqlite
    rw [Database.view_writing rfl] at hrow
    obtain ⟨_, -, ⟨⟩⟩ | ⟨_, _, _, _, hcheck, -, -⟩ := runs_bind.mp hreplay
    obtain ⟨-, hcheck, -⟩ := runs_lift.mp hcheck
    cases hrow
    exact hcheck.symm
  · obtain ⟨_, ⟨⟩⟩ := runs_rollingBack hrollback

/-- An item that can be read and is eligible is replayed. -/
theorem runs_replay (hcheck : checkRow decoder (find table itemId) = .ok ()) (hrange : -2 ^ 63 ≤ itemId ∧ itemId < 2 ^ 63)
    (hcount : table.rows.countP
      (fun row => row.itemId = itemId ∧ row.replayState = .pending ∧ row.applicability = .applicable) = 1) :
    ∃ answers db, Runs (Sqlite False py c) (replay decoder itemId) ⟨table, some (c, table)⟩ answers (.ok ()) db := by
  let db : Database κ := ⟨table, some (c, table)⟩
  have hwritable : db.Writable c := by
    rintro _ _ ⟨⟩
    rfl
  let written : Database κ := ⟨table, some (c, (Sql.run py table (.updateReplay itemId)).2)⟩
  have hview : db.view c = table := Database.view_writing rfl
  have hselect : Sqlite False py c (.execute (.select itemId)) db (.ok (find table itemId)) db := by
    rw [← hview]
    exact .read (if_pos hrange) rfl
  have hupdate : Sqlite False py c (.execute (.updateReplay itemId)) db
      (.ok (Sql.run py table (.updateReplay itemId)).1) written := by
    have hwrite : Sqlite False py c (.execute (.updateReplay itemId)) db (.ok (Sql.run py (db.view c) (.updateReplay itemId)).1)
        ⟨table, some (c, (Sql.run py (db.view c) (.updateReplay itemId)).2)⟩ := .write (if_pos hrange) rfl hwritable rfl
    rwa [hview] at hwrite
  have hcommit : Sqlite False py c .commit written (.ok ()) (written.commit c) := .commit
  let count : ℕ := (Sql.run py table (.updateReplay itemId)).1
  have hone : (Except.ok ⟨⟩ : Except Raised PUnit) =
      if count ≠ 1 then Except.error (.deadLetterError "REPLAY_STATE_CHANGED") else Except.ok ⟨⟩ :=
    (if_neg (not_not.mpr hcount)).symm
  exact ⟨_, _, runs_bind.mpr (.inr ⟨_, db, _, _, runs_ask.mpr ⟨hselect, rfl⟩,
    runs_bind.mpr (.inr ⟨(), db, _, _, runs_lift.mpr ⟨rfl, hcheck.symm, rfl⟩,
      runs_bind.mpr (.inr ⟨_, written, _, _, runs_ask.mpr ⟨hupdate, rfl⟩,
        runs_bind.mpr (.inr ⟨⟨⟩, written, _, _, runs_done.mpr ⟨rfl, hone, rfl⟩, runs_ask.mpr ⟨hcommit, rfl⟩, rfl⟩), rfl⟩),
      rfl⟩), rfl⟩)⟩

/-- An item can be replayed if it is eligible and can be read. -/
theorem replayable_iff (hsound : Sound table) : Replayable py decoder c table itemId ↔
    ∃ row ∈ table.rows, (row.itemId : ℤ) = itemId ∧ isEligible row = true ∧ ∃ item, rowToItem decoder row = .ok item := by
  constructor
  · intro h
    obtain ⟨row, item, hfind, hitem, heligible, -⟩ := checkRow_ok.mp h.checked
    obtain ⟨hrow, hid⟩ := (find_eq_some hsound).mp hfind
    exact ⟨row, hrow, hid, heligible, item, hitem⟩
  · rintro ⟨row, hrow, hid, heligible, item, hitem⟩
    have hpending : row.applicability = .applicable ∧ row.replayState = .pending := of_decide_eq_true heligible
    have hretries : row.retryCount < maxRetries := by
      rcases hsound.counted row hrow with ⟨-, hzero⟩ | ⟨hreplayed, -⟩
      · rw [hzero]
        decide
      · rw [hreplayed] at hpending
        exact absurd hpending.2 (by decide)
    have hcheck : checkRow decoder (find table itemId) = .ok () :=
      checkRow_ok.mpr ⟨row, item, (find_eq_some hsound).mpr ⟨hrow, hid⟩, hitem, heligible, hretries⟩
    have hrange : -2 ^ 63 ≤ itemId ∧ itemId < 2 ^ 63 := by
      have hle := hsound.bounded row hrow
      have hlt := hsound.fits
      omega
    have hcount : table.rows.countP
        (fun row => row.itemId = itemId ∧ row.replayState = .pending ∧ row.applicability = .applicable) = 1 :=
      le_antisymm (hsound.countP_itemId _ fun row hrow => (of_decide_eq_true hrow).1)
        (List.countP_pos_iff.mpr ⟨row, hrow, by simp [hid, hpending.1, hpending.2]⟩)
    obtain ⟨answers, db, hreplay⟩ : ∃ answers db, Runs (Sqlite False py c) (replay decoder itemId) ⟨table, some (c, table)⟩
        answers (.ok ()) db := runs_replay hcheck hrange hcount
    exact ⟨_, db, runs_bind.mpr (.inr ⟨(), _, _, _, runs_ask.mpr ⟨.beginImmediate rfl, rfl⟩,
      runs_tryCatch.mpr (.inl ⟨(), hreplay, rfl⟩), rfl⟩)⟩

/-- The items with that, all of them, under a limit that is large enough. -/
theorem pendingApplicable_eq (hsound : Sound table) {limit : ℤ} (hlimit : ((table.rows.filter isEligible).length : ℤ) ≤ limit) :
    pendingApplicable table limit = table.rows.filter isEligible := by
  have hordered : (table.rows.filter isEligible).Pairwise fun a b => a.itemId ≤ b.itemId :=
    ((List.pairwise_map.mp hsound.increasing).filter _).imp fun h => h.le
  rw [pendingApplicable, List.Pairwise.insertionSort_eq hordered]
  exact List.take_of_length_le (by omega)

theorem listing_replayable (hsound : Sound table) {limit : ℤ} (hlimit : ((table.rows.filter isEligible).length : ℤ) ≤ limit) :
    ListsReplayable κ py decoder table (listing decoder table limit) := by
  rw [listing, pendingApplicable_eq hsound hlimit]
  refine ⟨⟨?_, fun h => ?_⟩, fun items hitems => ?_, fun items hitems c itemId => ?_⟩
  · rintro ⟨items, hitems⟩ row hrow heligible
    obtain ⟨item, -, hitem⟩ := exists_of_mapM_ok hitems (List.mem_filter.mpr ⟨hrow, heligible⟩)
    exact ⟨item, hitem⟩
  · refine mapM_ok_of_forall fun row hrow => ?_
    obtain ⟨hrow, heligible⟩ := List.mem_filter.mp hrow
    exact h row hrow heligible
  · have hids := (forall₂_of_mapM_ok hitems).imp fun _ _ hitem => (rowToItem_ok hitem).1.symm
    rw [← List.forall₂_map_right_iff, ← List.forall₂_map_left_iff, List.forall₂_eq_eq_eq] at hids
    rw [← hids]
    exact List.pairwise_map.mpr ((List.pairwise_map.mp hsound.increasing).filter _)
  · rw [replayable_iff hsound]
    constructor
    · rintro ⟨item, hmem, hid⟩
      obtain ⟨row, hrow, hitem⟩ := exists_of_forall₂ (forall₂_of_mapM_ok hitems).flip hmem
      obtain ⟨hrow, heligible⟩ := List.mem_filter.mp hrow
      exact ⟨row, hrow, by rw [← (rowToItem_ok hitem).1, hid], heligible, item, hitem⟩
    · rintro ⟨row, hrow, hid, heligible, item, hitem⟩
      obtain ⟨item', hmem, hitem'⟩ := exists_of_mapM_ok hitems (List.mem_filter.mpr ⟨hrow, heligible⟩)
      exact ⟨item', hmem, by rw [(rowToItem_ok hitem').1, hid]⟩

/-! ### A call alone -/

theorem set_running {call : Option (Call Opaque)} : (w.set db c call).running c = call := by simp [World.set]

theorem set_set {call call' : Option (Call Opaque)} : (w.set db c call).set db' c call' = w.set db' c call' := by
  rw [World.set, World.set, World.set, Function.update_idem]

/-- What is left of a call, run alone. -/
theorem run_rest {program : Program Opaque (Returned Opaque)} {answers : List (Answer (Statements Opaque) Raised)}
    {result : Except Raised (Returned Opaque)} (h : Runs (Sqlite faulty py c) program db answers result db') (history : History) :
    ∃ es history', Run (Step faulty py decoder) (w.set db c (some ⟨request, program, history⟩))
      (es ++ [.finish c request result history']) (w.set db' c none) := by
  induction h generalizing history with
  | @done result db =>
    have hstep : Step faulty py decoder (w.set db c (some ⟨request, .done result, history⟩))
        (.finish c request result history) _ := .finish set_running
    rw [set_set] at hstep
    exact ⟨[], history, .single hstep⟩
  | @call op next db db' _ reply answers result hsqlite _ ih =>
    obtain ⟨es, history', hrun⟩ := ih (history ++ [(db.table, db'.table)])
    have hstep : Step faulty py decoder (w.set db c (some ⟨request, .call op next, history⟩))
        (.statement c request db.table db'.table) _ := .statement set_running hsqlite
    rw [set_set] at hstep
    exact ⟨_ :: es, history', hrun.cons hstep⟩

/-- A call that runs alone is a run of the stores. -/
theorem run_call (hnone : w.running c = none) {answers : List (Answer (Statements Opaque) Raised)}
    {result : Except Raised (Returned Opaque)} (h : Runs (Sqlite faulty py c) (request.program py decoder) w.db answers result db) :
    ∃ es history, Run (Step faulty py decoder) w (es ++ [.finish c request result history]) (w.set db c none) := by
  obtain ⟨es, history, hrun⟩ := run_rest (w := w) h []
  exact ⟨_ :: es, history, hrun.cons (.start request hnone)⟩

/-- A statement that writes, alone, is committed. -/
theorem runs_withConnection (hbindable : sql.unbindable py = none) (hwrites : sql.writes = true) (hfits : sql.fits table = true) :
    ∃ answers, Runs (Sqlite faulty py c) (withConnection (execute sql)) ⟨table, none⟩ answers
      (.ok (sql.run py table).1) ⟨(sql.run py table).2, none⟩ := by
  let written : Database κ := ⟨table, some (c, (sql.run py table).2)⟩
  have hwrite : Sqlite faulty py c (.execute sql) ⟨table, none⟩ (.ok (sql.run py table).1) written :=
    .write hbindable hwrites nofun hfits
  have hcommit : Sqlite faulty py c .commit written (.ok ()) ⟨(sql.run py table).2, none⟩ := by
    have hcommitted : written.commit c = ⟨(sql.run py table).2, none⟩ := if_pos rfl
    rw [← hcommitted]
    exact .commit
  exact ⟨_, runs_tryCatch.mpr (.inl ⟨_, runs_bind.mpr (.inr ⟨_, written, _, _, runs_ask.mpr ⟨hwrite, rfl⟩,
    runs_bind.mpr (.inr ⟨(), _, _, _, runs_ask.mpr ⟨hcommit, rfl⟩, runs_pure.mpr ⟨rfl, rfl, rfl⟩, rfl⟩), rfl⟩), rfl⟩)⟩

/-- `record`, alone, does to the table what it does to a store that nobody shares. -/
theorem runs_record {evidence : Evidence Opaque} {n : ℕ} (h : table.record py evidence = .ok (n, table'))
    (hfits : table.lastItemId + 1 < 2 ^ 63) :
    ∃ answers, Runs (Sqlite faulty py c) (record py evidence) ⟨table, none⟩ answers (.ok n) ⟨table', none⟩ := by
  unfold DeadLetterStore.record at h
  unfold record
  cases hrefusal : evidence.refusal with
  | some code => simp [hrefusal] at h
  | none =>
    cases hdumps : dumps py evidenceFormat (.object evidence.envelope) with
    | error e =>
      simp only [hrefusal, hdumps] at h
      split at h <;> cases h
    | ok envelopeJson =>
      simp only [hrefusal, hdumps] at h ⊢
      split at h
      · next hbound =>
        cases h
        exact runs_withConnection (if_pos hbound) rfl (decide_eq_true hfits)
      · cases h

/-! ### At most once -/

theorem guarded_initial : Guarded faulty py decoder (World.initial : World Opaque κ) := by
  have hsound : Sound ⟨[], 0⟩ := ⟨.nil, fun _ h => absurd h List.not_mem_nil, by decide, fun _ h => absurd h List.not_mem_nil⟩
  exact ⟨⟨hsound, nofun⟩, nofun, fun _ _ => nofun⟩

omit [DecidableEq κ] in
theorem tallied_initial : Tallied [] (World.initial : World Opaque κ) itemId := by
  have hnone (c : κ) : ¬ Marked (World.initial : World Opaque κ) itemId c := by
    rintro ⟨_, ⟨⟩, -⟩
  refine ⟨⟨?_, ?_⟩, fun _ => ⟨rfl, hnone⟩, Nat.zero_le 1, fun c h => absurd h (hnone c)⟩
  · rintro ⟨_, hrow, -⟩
    exact absurd hrow List.not_mem_nil
  · rintro ⟨_, hevent, -⟩
    exact absurd hevent List.not_mem_nil

/-- What every run of the stores is like. -/
theorem run_tallied (h : Run (Step faulty py decoder) World.initial es w) :
    Guarded faulty py decoder w ∧ ∀ itemId, Tallied es w itemId := by
  induction h with
  | nil => exact ⟨guarded_initial, fun itemId => tallied_initial⟩
  | snoc _ hstep ih => exact ⟨ih.1.step hstep, fun itemId => (ih.2 itemId).step ih.1 hstep⟩

/-- How every call of a run has ended. -/
theorem run_ends (h : Run (Step faulty py decoder) World.initial es w) {history : History}
    {result : Except Raised (Returned Opaque)} (hfinish : Event.finish c request result history ∈ es) :
    ∃ db, Ends faulty decoder c request result ⟨db, history⟩ := by
  obtain ⟨before, after, rfl⟩ := List.append_of_mem hfinish
  obtain ⟨w₁, w₂, hbefore, hstep, -⟩ := h.split
  have hguarded := (run_tallied hbefore).1
  cases hstep with
  | finish hcall => exact ⟨w₁.db, hguarded.judged _ _ hcall⟩

/-- An item that is not pending was replayed. -/
theorem Sound.not_pending (h : Sound table) {row : DeadLetterRow} (hrow : row ∈ table.rows) :
    row.replayState ≠ .pending ↔ Replayed table row.itemId := by
  constructor
  · intro hstate
    rcases h.counted row hrow with ⟨hpending, -⟩ | ⟨hreplayed, -⟩
    · exact absurd hpending hstate
    · exact ⟨row, hrow, rfl, hreplayed⟩
  · rintro ⟨row', hrow', hid, hreplayed⟩
    obtain rfl := h.eq_of_itemId hrow' hrow (by omega)
    rw [hreplayed]
    decide

/-- An item that was replayed stays replayed. -/
theorem run_replayed (h : Run (Step faulty py decoder) World.initial es w) {es' : List (Event Opaque κ)}
    (h' : Run (Step faulty py decoder) w es' w') (hreplayed : Replayed w.db.table itemId) : Replayed w'.db.table itemId := by
  obtain ⟨event, hevent, hreplays⟩ := ((run_tallied h).2 itemId).replayed.mp hreplayed
  exact ((run_tallied (h.trans h')).2 itemId).replayed.mpr ⟨event, List.mem_append_left _ hevent, hreplays⟩

/-- **A dead letter is replayed at most once.** In every run of any number of stores on one
new database: one `mark_replay` of an item returns at most; the item is replayed, with one
retry, once a `mark_replay` has changed it, which one that returned has, and before that is
pending, with none; it stays replayed; a call that raises has changed nothing; and a listing
with a limit that is large enough has, in the order of their ids, the items of the table it
read that `mark_replay` would replay next. -/
theorem dead_letter_replayed_once (h : Run (Step faulty py decoder) World.initial es w) :
    (∀ itemId, es.countP (Event.isReplay itemId) ≤ 1) ∧
    (∀ itemId, 0 < es.countP (Event.isReplay itemId) → ∃ event ∈ es, event.Replays itemId) ∧
    (∀ row ∈ w.db.table.rows,
      ((∃ event ∈ es, event.Replays row.itemId) → row.replayState = .replayed ∧ row.retryCount = 1) ∧
      (¬ (∃ event ∈ es, event.Replays row.itemId) → row.replayState = .pending ∧ row.retryCount = 0)) ∧
    (∀ es' w', Run (Step faulty py decoder) w es' w' → ∀ row ∈ w.db.table.rows, row.replayState ≠ .pending →
      (∃ row' ∈ w'.db.table.rows, row'.itemId = row.itemId) ∧
      ∀ row' ∈ w'.db.table.rows, row'.itemId = row.itemId → row'.replayState ≠ .pending) ∧
    (∀ c request e history, Event.finish c request (.error e) history ∈ es → Quiet history) ∧
    (∀ c limit result history, Event.finish c (.listPendingApplicable limit) result history ∈ es →
      0 < limit → limit < 2 ^ 63 →
      ∃ table, history = [(table, table)] ∧ ((faulty ∧ result = .error operationalError) ∨
        ∃ listed, result = .items <$> listed ∧ (((table.rows.filter isEligible).length : ℤ) ≤ limit →
          ListsReplayable κ py decoder table listed))) := by
  obtain ⟨hguarded, htallied⟩ := run_tallied h
  have hsound : Sound w.db.table := hguarded.sound.1
  refine ⟨fun itemId => (htallied itemId).once, fun itemId hreturned => ?_, fun row hrow => ⟨fun hreplays => ?_, fun hnone => ?_⟩,
    fun es' w' h' row hrow hstate => ?_, fun c request e history hfinish => ?_,
    fun c limit result history hfinish hpos hlimit => ?_⟩
  · by_contra hnone
    exact hreturned.ne' ((htallied itemId).fresh (mt (htallied itemId).replayed.mp hnone)).1
  · have hstate := (hsound.not_pending hrow).mpr ((htallied row.itemId).replayed.mpr hreplays)
    exact (hsound.counted row hrow).resolve_left fun hpending => hstate hpending.1
  · refine (hsound.counted row hrow).resolve_right fun hreplayed => hnone ((htallied row.itemId).replayed.mp ?_)
    exact ⟨row, hrow, rfl, hreplayed.1⟩
  · have hreplayed := run_replayed h h' ((hsound.not_pending hrow).mp hstate)
    have hsound' : Sound w'.db.table := (run_tallied (h.trans h')).1.sound.1
    refine ⟨?_, fun row' hrow' hid => (hsound'.not_pending hrow').mpr (hid ▸ hreplayed)⟩
    obtain ⟨row', hrow', hid, -⟩ := hreplayed
    exact ⟨row', hrow', by omega⟩
  · obtain ⟨_, hends⟩ := run_ends h hfinish
    exact hends.failed e rfl
  · obtain ⟨_, hends⟩ := run_ends h hfinish
    obtain ⟨listed, ⟨table, hsound, hhistory, hlisted⟩, hresult⟩ := hends.listed limit rfl hpos hlimit
    refine ⟨table, hhistory, ?_⟩
    rcases hlisted with rfl | ⟨hfaulty, rfl⟩
    · exact .inr ⟨_, hresult, listing_replayable hsound⟩
    · exact .inl ⟨hfaulty, hresult⟩

def letterPython : Interpreter Empty := asciiInterpreter fun _ => ⟨String.ofList (List.replicate 64 '0'), by decide +kernel⟩

def letterDecoder : Decoder Empty := ⟨fun _ => "0.0", fun _ => [], fun _ => .error .typeError, fun _ => true⟩

/-- What is said of a message of a domain that nobody knows. -/
def letter : Evidence Empty where
  messageId := lit "m-1"
  failureStage := lit "NORMALIZATION"
  failureCode := lit "UNKNOWN_DOMAIN"
  envelope := []
  diagnostic := lit "unknown domain"
  reasonCategory := lit "UNKNOWN_DOMAIN"
  sourceLocator := none

/-- The table with it. -/
def letterTable : DeadLetterStore := ⟨[letter.row letterPython 1 (lit "\x7b\x7d")], 1⟩

theorem record_letter : DeadLetterStore.record letterPython ⟨[], 0⟩ letter = .ok (1, letterTable) := by rfl

/-- The table after `set_applicability`. -/
def applicableTable : DeadLetterStore := (Sql.run letterPython letterTable (.updateApplicability 1 .applicable)).2

theorem runs_letter : ∃ answers, Runs (Sqlite False letterPython true) ((Request.record letter).program letterPython letterDecoder)
    ⟨⟨[], 0⟩, none⟩ answers (.ok (.itemId 1)) ⟨letterTable, none⟩ := by
  obtain ⟨answers, h⟩ : ∃ answers, Runs (Sqlite False letterPython true) (record letterPython letter) ⟨⟨[], 0⟩, none⟩ answers
      (.ok 1) ⟨letterTable, none⟩ := runs_record record_letter (by decide)
  exact ⟨_, runs_bind.mpr (.inr ⟨1, _, _, _, h, runs_pure.mpr ⟨rfl, rfl, rfl⟩, rfl⟩)⟩

theorem runs_applicable : ∃ answers, Runs (Sqlite False letterPython true)
    ((Request.setApplicability 1 (lit "APPLICABLE")).program letterPython letterDecoder)
    ⟨letterTable, none⟩ answers (.ok .nothing) ⟨applicableTable, none⟩ := by
  have hsettable : settable (lit "APPLICABLE") = some .applicable := by decide
  obtain ⟨answers, h⟩ : ∃ answers, Runs (Sqlite False letterPython true)
      (withConnection (execute (.updateApplicability 1 .applicable))) ⟨letterTable, none⟩ answers (.ok (1 : ℕ)) ⟨applicableTable, none⟩ :=
    runs_withConnection (by decide) rfl rfl
  have happlied : Runs (Sqlite False letterPython true) (setApplicability 1 (lit "APPLICABLE")) ⟨letterTable, none⟩ (answers ++ [])
      (.ok ()) ⟨applicableTable, none⟩ := by
    simp only [setApplicability, hsettable]
    exact runs_bind.mpr (.inr ⟨_, _, _, _, h, runs_done.mpr ⟨rfl, rfl, rfl⟩, rfl⟩)
  exact ⟨_, runs_bind.mpr (.inr ⟨(), _, _, _, happlied, runs_pure.mpr ⟨rfl, rfl, rfl⟩, rfl⟩)⟩

/-- The stores after one of them has recorded a letter and made it applicable. -/
theorem run_letter : ∃ (es : List (Event Empty Bool)) (w : World Empty Bool), Run (Step False letterPython letterDecoder) World.initial es w ∧
    w.db = ⟨applicableTable, none⟩ ∧ w.running false = none := by
  obtain ⟨_, hletter⟩ := runs_letter
  obtain ⟨_, _, h₁⟩ := run_call (w := World.initial) rfl hletter
  obtain ⟨_, happlicable⟩ := runs_applicable
  obtain ⟨_, _, h₂⟩ := run_call (w := World.set World.initial ⟨letterTable, none⟩ true none) set_running happlicable
  exact ⟨_, _, h₁.trans h₂, rfl, rfl⟩

/-- One store records a letter, and another replays it. -/
theorem dead_letter_replayed_once_sample : ∃ (es : List (Event Empty Bool)) (w : World Empty Bool),
    Run (Step False letterPython letterDecoder) World.initial es w ∧ es.countP (Event.isReplay 1) = 1 ∧
      ∃ event ∈ es, event.Replays 1 := by
  obtain ⟨es, w, hrun, hdb, hnone⟩ := run_letter
  have hsound : Sound applicableTable := by
    have hsound := (run_tallied hrun).1.sound.1
    rwa [hdb] at hsound
  have hreplayable : Replayable letterPython letterDecoder false applicableTable 1 :=
    (replayable_iff hsound).mpr ⟨_, List.mem_singleton_self _, rfl, rfl, _, rfl⟩
  obtain ⟨_, db, hreplay⟩ := hreplayable
  rw [← hdb] at hreplay
  have hcall : Runs (Sqlite False letterPython false) ((Request.markReplay 1).program letterPython letterDecoder) w.db _
      (.ok .nothing) db := runs_bind.mpr (.inr ⟨(), _, _, _, hreplay, runs_pure.mpr ⟨rfl, rfl, rfl⟩, rfl⟩)
  obtain ⟨es', history, hreplayed⟩ := run_call hnone hcall
  have h := hrun.trans hreplayed
  obtain ⟨honce, hreplays, -⟩ := dead_letter_replayed_once h
  have hpos : 0 < (es ++ (es' ++ [Event.finish false (.markReplay 1) (.ok .nothing) history])).countP (Event.isReplay 1) :=
    List.countP_pos_iff.mpr ⟨_, List.mem_append_right es (List.mem_append_right es' (List.mem_singleton_self _)), rfl⟩
  exact ⟨_, _, h, le_antisymm (honce 1) hpos, hreplays 1 hpos⟩

end CcbCore.Radar.DeadLetters
