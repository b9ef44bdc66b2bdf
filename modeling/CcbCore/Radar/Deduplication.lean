import CcbCore.Radar.Routing

/-!
# The duplicate window and the unbounded log

`DedupeWindow` forgets the keys that were accepted too long ago, from the front of an order
that each acceptance changes. Against the log of all calls it answers as if it forgot
nothing: a call is refused just when the last call of its key that was accepted lies within
the window (`dedupe_window_is_log`). A window that never purges gives the same answers, and
after an acceptance the entries left all lie within the window.
-/

namespace CcbCore.Radar

open CcbCore.CodePoints

namespace DedupeWindow

/-! ### Calls -/

/-- A window that has seen nothing. -/
def fresh (windowMs : ℤ) (h : 0 ≤ windowMs) : DedupeWindow := ⟨windowMs, h, [], none⟩

/-- What an acceptance makes of the entries. -/
abbrev Store := DedupeWindow → Str → ℤ → List (Str × ℤ)

/-- `accept`, with another way to store an acceptance. -/
def acceptWith (store : Store) (w : DedupeWindow) (key : Str) (nowMs : ℤ) : Except Raised (Bool × DedupeWindow) :=
  if key = [] then .error (.valueError "INVALID_DEDUPE_KEY")
  else if nowMs < 0 then .error (.valueError "INVALID_DEDUPE_TIME")
  else if ∃ last ∈ w.lastNowMs, nowMs < last then .error (.valueError "DEDUPE_CLOCK_REGRESSION")
  else if w.Suppresses key nowMs then .ok (false, { w with lastNowMs := some nowMs })
  else .ok (true, { w with lastNowMs := some nowMs, seen := store w key nowMs })

theorem acceptWith_record (w : DedupeWindow) (key : Str) (nowMs : ℤ) : w.acceptWith record key nowMs = w.accept key nowMs := rfl

/-- The entries after an acceptance, when none is purged. -/
def keep : Store := fun w key nowMs => w.seen.filter (·.1 ≠ key) ++ [(key, nowMs)]

/-- A call: its answer, and the window after it; a call that raises leaves the window. -/
def call (store : Store) (w : DedupeWindow) (request : Str × ℤ) : Except Raised Bool × DedupeWindow :=
  match w.acceptWith store request.1 request.2 with
  | .error e => (.error e, w)
  | .ok (answer, w') => (.ok answer, w')

/-- The answers of some calls, and the window after them. -/
def calls (store : Store) (w : DedupeWindow) : List (Str × ℤ) → List (Except Raised Bool) × DedupeWindow
  | [] => ([], w)
  | request :: requests =>
    let first := call store w request
    let others := calls store first.2 requests
    (first.1 :: others.1, others.2)

/-- The time of the last call of a key that was accepted. -/
def lastAccepted (key : Str) (history : List ((Str × ℤ) × Except Raised Bool)) : Option ℤ :=
  (history.reverse.find? fun e => e.1.1 = key && e.2 matches .ok true).map (·.1.2)

section

variable {store : Store} {w w' : DedupeWindow} {key : Str} {nowMs : ℤ} {answer : Bool}
  {history : List ((Str × ℤ) × Except Raised Bool)}

/-- What a call that returns does. -/
theorem acceptWith_ok : w.acceptWith store key nowMs = .ok (answer, w') ↔
    key ≠ [] ∧ 0 ≤ nowMs ∧ (∀ last ∈ w.lastNowMs, last ≤ nowMs) ∧
      ((w.Suppresses key nowMs ∧ answer = false ∧ w' = { w with lastNowMs := some nowMs }) ∨
        (¬ w.Suppresses key nowMs ∧ answer = true ∧ w' = { w with lastNowMs := some nowMs, seen := store w key nowMs })) := by
  unfold acceptWith
  by_cases hkey : key = []
  · simp [hkey]
  by_cases hnow : nowMs < 0
  · simp [hkey, hnow]
  by_cases hlast : ∃ last ∈ w.lastNowMs, nowMs < last
  · rw [if_neg hkey, if_neg hnow, if_pos hlast]
    obtain ⟨last, hmem, hlt⟩ := hlast
    exact ⟨nofun, fun ⟨_, _, h, _⟩ => absurd (h last hmem) (not_le.mpr hlt)⟩
  rw [if_neg hkey, if_neg hnow, if_neg hlast]
  have hclock : ∀ last ∈ w.lastNowMs, last ≤ nowMs := fun last hmem => not_lt.mp fun hlt => hlast ⟨last, hmem, hlt⟩
  by_cases hsup : w.Suppresses key nowMs
  · rw [if_pos hsup, Except.ok.injEq, Prod.mk.injEq]
    exact ⟨fun ⟨ha, hw⟩ => ⟨hkey, not_lt.mp hnow, hclock, .inl ⟨hsup, ha.symm, hw.symm⟩⟩,
      fun ⟨_, _, _, h⟩ => h.elim (fun h => ⟨h.2.1.symm, h.2.2.symm⟩) fun h => absurd hsup h.1⟩
  · rw [if_neg hsup, Except.ok.injEq, Prod.mk.injEq]
    exact ⟨fun ⟨ha, hw⟩ => ⟨hkey, not_lt.mp hnow, hclock, .inr ⟨hsup, ha.symm, hw.symm⟩⟩,
      fun ⟨_, _, _, h⟩ => h.elim (fun h => absurd h.1 hsup) fun h => ⟨h.2.1.symm, h.2.2.symm⟩⟩

/-- A key is suppressed for an entry of its own. -/
theorem suppresses_iff (h : (w.seen.map (·.1)).Nodup) :
    w.Suppresses key nowMs ↔ ∃ previous, (key, previous) ∈ w.seen ∧ nowMs - previous ≤ w.windowMs := by
  simp only [Suppresses, Option.mem_def, lookup_iff_mem h]

/-! ### Storing -/

/-- What is stored of an acceptance, and which entries may go. -/
structure Stores (store : Store) (w : DedupeWindow) (key : Str) (nowMs : ℤ) : Prop where
  nodup : ((store w key nowMs).map (·.1)).Nodup
  new : (key, nowMs) ∈ store w key nowMs
  old : ∀ entry ∈ store w key nowMs, entry = (key, nowMs) ∨ (entry.1 ≠ key ∧ entry ∈ w.seen)
  kept : ∀ entry ∈ w.seen, entry.1 ≠ key → entry ∈ store w key nowMs ∨ w.windowMs < nowMs - entry.2

theorem keep_nodup (h : (w.seen.map (·.1)).Nodup) (key : Str) (nowMs : ℤ) : ((keep w key nowMs).map (·.1)).Nodup := by
  rw [keep, List.map_append, List.map_cons, List.map_nil]
  refine List.nodup_append.mpr ⟨h.sublist (List.filter_sublist.map _), List.nodup_singleton _, ?_⟩
  intro other hother last hlast heq
  obtain ⟨entry, hentry, rfl⟩ := List.mem_map.mp hother
  obtain rfl := List.mem_singleton.mp hlast
  exact of_decide_eq_true (List.mem_filter.mp hentry).2 heq

theorem mem_keep {entry : Str × ℤ} : entry ∈ keep w key nowMs ↔ entry = (key, nowMs) ∨ (entry.1 ≠ key ∧ entry ∈ w.seen) := by
  simp only [keep, List.mem_append, List.mem_filter, List.mem_singleton, decide_eq_true_eq]
  tauto

theorem keep_stores (h : (w.seen.map (·.1)).Nodup) (key : Str) (nowMs : ℤ) : Stores keep w key nowMs where
  nodup := keep_nodup h key nowMs
  new := mem_keep.mpr (.inl rfl)
  old _ hentry := mem_keep.mp hentry
  kept _ hentry hkey := .inl (mem_keep.mpr (.inr ⟨hkey, hentry⟩))

theorem mem_dropWhile_or {α : Type} {p : α → Bool} {l : List α} {a : α} (h : a ∈ l) : a ∈ l.dropWhile p ∨ p a = true := by
  rw [← List.takeWhile_append_dropWhile (p := p) (l := l), List.mem_append] at h
  exact h.symm.imp_right List.mem_takeWhile_imp

theorem record_stores (h : (w.seen.map (·.1)).Nodup) (key : Str) (nowMs : ℤ) : Stores record w key nowMs := by
  have hsub : List.Sublist (w.record key nowMs) (keep w key nowMs) := List.dropWhile_sublist _
  have hmem : ∀ entry ∈ keep w key nowMs, entry ∈ w.record key nowMs ∨ (entry.2 < nowMs - w.windowMs ∧ entry.1 ≠ key) := by
    intro entry hentry
    refine (mem_dropWhile_or hentry).imp_right fun hdrop => ?_
    simpa using hdrop
  refine ⟨(keep_nodup h key nowMs).sublist (hsub.map _), ?_, fun entry hentry => mem_keep.mp (hsub.subset hentry), ?_⟩
  · exact (hmem _ (mem_keep.mpr (.inl rfl))).resolve_right fun hdrop => hdrop.2 rfl
  · intro entry hentry hkey
    refine (hmem entry (mem_keep.mpr (.inr ⟨hkey, hentry⟩))).imp_right fun hdrop => ?_
    have := hdrop.1
    omega

/-! ### The log -/

theorem lastAccepted_snoc (key : Str) (history : List ((Str × ℤ) × Except Raised Bool)) (e : (Str × ℤ) × Except Raised Bool) :
    lastAccepted key (history ++ [e]) = if e.1.1 = key ∧ e.2 = .ok true then some e.1.2 else lastAccepted key history := by
  obtain ⟨⟨other, time⟩, result⟩ := e
  rw [lastAccepted, List.reverse_append, List.reverse_singleton, List.singleton_append, List.find?_cons]
  cases result with
  | error e => simp [lastAccepted]
  | ok b =>
    cases b with
    | false => simp [lastAccepted]
    | true => by_cases hkey : other = key <;> simp [lastAccepted, hkey]

/-- The entries of a window are the last acceptances of the log, but for those that are too
old to matter. -/
structure Follows (w : DedupeWindow) (history : List ((Str × ℤ) × Except Raised Bool)) : Prop where
  nodup : (w.seen.map (·.1)).Nodup
  logged : ∀ entry ∈ w.seen, lastAccepted entry.1 history = some entry.2
  held : ∀ key previous, lastAccepted key history = some previous →
    (key, previous) ∈ w.seen ∨ ∃ last ∈ w.lastNowMs, w.windowMs < last - previous

/-- A window suppresses a key when the log does. -/
theorem Follows.suppresses_iff (h : Follows w history) (hclock : ∀ last ∈ w.lastNowMs, last ≤ nowMs) :
    w.Suppresses key nowMs ↔ ∃ previous ∈ lastAccepted key history, nowMs - previous ≤ w.windowMs := by
  rw [DedupeWindow.suppresses_iff h.nodup]
  constructor
  · rintro ⟨previous, hmem, hnear⟩
    exact ⟨previous, h.logged _ hmem, hnear⟩
  · rintro ⟨previous, hlogged, hnear⟩
    rcases h.held key previous hlogged with hmem | ⟨last, hlast, hfar⟩
    · exact ⟨previous, hmem, hnear⟩
    · have := hclock last hlast
      omega

/-- What a call that returns answers, and that the window follows the log that has it. -/
theorem Follows.accept (h : Follows w history) (hstore : Stores store w key nowMs)
    (haccept : w.acceptWith store key nowMs = .ok (answer, w')) :
    (answer = false ↔ ∃ previous ∈ lastAccepted key history, nowMs - previous ≤ w.windowMs) ∧
      Follows w' (history ++ [((key, nowMs), .ok answer)]) := by
  obtain ⟨-, -, hclock, hanswer⟩ := acceptWith_ok.mp haccept
  have hlater {previous : ℤ} (hold : ∃ last ∈ w.lastNowMs, w.windowMs < last - previous) :
      ∃ last ∈ some nowMs, w.windowMs < last - previous := by
    obtain ⟨last, hmem, hfar⟩ := hold
    have := hclock last hmem
    exact ⟨nowMs, rfl, by omega⟩
  rw [← h.suppresses_iff hclock]
  rcases hanswer with ⟨hsup, rfl, rfl⟩ | ⟨hsup, rfl, rfl⟩
  · refine ⟨⟨fun _ => hsup, fun _ => rfl⟩, h.nodup, fun entry hentry => ?_, fun other previous hother => ?_⟩
    · rw [lastAccepted_snoc, if_neg (by simp)]
      exact h.logged entry hentry
    · rw [lastAccepted_snoc, if_neg (by simp)] at hother
      exact (h.held other previous hother).imp_right hlater
  · refine ⟨⟨nofun, fun hyes => absurd hyes hsup⟩, hstore.nodup, fun entry hentry => ?_, fun other previous hother => ?_⟩
    · rw [lastAccepted_snoc]
      rcases hstore.old entry hentry with rfl | ⟨hkey, hold⟩
      · exact if_pos ⟨rfl, rfl⟩
      · rw [if_neg fun heq => hkey heq.1.symm]
        exact h.logged entry hold
    · rw [lastAccepted_snoc] at hother
      split at hother
      · next heq =>
        obtain rfl : key = other := heq.1
        exact .inl (Option.some.inj hother ▸ hstore.new)
      · next hne =>
        rcases h.held other previous hother with hmem | hold
        · refine (hstore.kept _ hmem fun heq => hne ⟨heq.symm, rfl⟩).imp_right fun hfar => ⟨nowMs, rfl, hfar⟩
        · exact .inr (hlater hold)

theorem Follows.call (h : Follows w history) (hstore : ∀ key nowMs, Stores store w key nowMs) (request : Str × ℤ) :
    Follows (DedupeWindow.call store w request).2 (history ++ [(request, (DedupeWindow.call store w request).1)]) := by
  unfold DedupeWindow.call
  cases haccept : w.acceptWith store request.1 request.2 with
  | error e =>
    refine ⟨h.nodup, fun entry hentry => ?_, fun other previous hother => ?_⟩
    · rw [lastAccepted_snoc, if_neg (by simp)]
      exact h.logged entry hentry
    · rw [lastAccepted_snoc, if_neg (by simp)] at hother
      exact h.held other previous hother
  | ok result =>
    obtain ⟨answer, w'⟩ := result
    exact (h.accept (hstore _ _) haccept).2

/-- After some calls a window follows the log that has them. -/
theorem Follows.calls (hstore : ∀ w : DedupeWindow, (w.seen.map (·.1)).Nodup → ∀ key nowMs, Stores store w key nowMs)
    (requests : List (Str × ℤ)) {w : DedupeWindow} {history : List ((Str × ℤ) × Except Raised Bool)} (h : Follows w history) :
    Follows (DedupeWindow.calls store w requests).2 (history ++ requests.zip (DedupeWindow.calls store w requests).1) := by
  induction requests generalizing w history with
  | nil => simpa [DedupeWindow.calls] using h
  | cons request requests ih =>
    have hrest := ih (h.call (hstore w h.nodup) request)
    rwa [List.append_assoc] at hrest

theorem fresh_follows (windowMs : ℤ) (h : 0 ≤ windowMs) : Follows (fresh windowMs h) [] :=
  ⟨List.nodup_nil, fun _ hentry => absurd hentry List.not_mem_nil, fun _ _ hnone => by simp [lastAccepted] at hnone⟩

/-! ### The entries that are left -/

/-- The entries are in the order of their times, up to the last call. -/
structure InOrder (w : DedupeWindow) : Prop where
  nodup : (w.seen.map (·.1)).Nodup
  sorted : w.seen.Pairwise (·.2 ≤ ·.2)
  past : ∀ entry ∈ w.seen, ∃ last ∈ w.lastNowMs, entry.2 ≤ last

theorem keep_sorted (h : InOrder w) (hclock : ∀ last ∈ w.lastNowMs, last ≤ nowMs) : (keep w key nowMs).Pairwise (·.2 ≤ ·.2) := by
  refine List.pairwise_append.mpr ⟨h.sorted.filter _, List.pairwise_singleton _ _, fun entry hentry last hlast => ?_⟩
  obtain rfl := List.mem_singleton.mp hlast
  obtain ⟨time, htime, hle⟩ := h.past entry (List.mem_filter.mp hentry).1
  exact hle.trans (hclock time htime)

/-- The loop stops at an entry within the window, and those after it are later. -/
theorem record_near (h : InOrder w) (key : Str) (hclock : ∀ last ∈ w.lastNowMs, last ≤ nowMs) :
    ∀ entry ∈ w.record key nowMs, nowMs - entry.2 ≤ w.windowMs := by
  have hsorted : (w.record key nowMs).Pairwise (·.2 ≤ ·.2) := (keep_sorted h hclock).sublist (List.dropWhile_sublist _)
  have hstores := record_stores h.nodup key nowMs
  cases hrecord : w.record key nowMs with
  | nil => exact fun entry hentry => absurd hentry List.not_mem_nil
  | cons oldest rest =>
    have hstop := List.head?_dropWhile_not (fun entry => entry.2 < nowMs - w.windowMs && entry.1 ≠ key) (keep w key nowMs)
    have hhead : (keep w key nowMs).dropWhile (fun entry => entry.2 < nowMs - w.windowMs && entry.1 ≠ key) = oldest :: rest := hrecord
    rw [hhead, List.head?_cons] at hstop
    have hnear : nowMs - oldest.2 ≤ w.windowMs := by
      rcases hstores.old oldest (hrecord ▸ List.mem_cons_self) with rfl | ⟨hkey, -⟩
      · have := w.nonneg
        simpa using this
      · simp only [Bool.and_eq_false_iff, decide_eq_false_iff_not, not_not, not_lt] at hstop
        have := hstop.resolve_right hkey
        omega
    rw [hrecord] at hsorted
    intro entry hentry
    rcases List.mem_cons.mp hentry with rfl | hlater
    · exact hnear
    · have := List.rel_of_pairwise_cons hsorted hlater
      omega

theorem InOrder.call (h : InOrder w) (request : Str × ℤ) : InOrder (DedupeWindow.call record w request).2 := by
  unfold DedupeWindow.call
  cases haccept : w.acceptWith record request.1 request.2 with
  | error e => exact h
  | ok result =>
    obtain ⟨answer, w'⟩ := result
    obtain ⟨-, -, hclock, hanswer⟩ := acceptWith_ok.mp haccept
    rcases hanswer with ⟨-, -, rfl⟩ | ⟨-, -, rfl⟩
    · refine ⟨h.nodup, h.sorted, fun entry hentry => ⟨request.2, rfl, ?_⟩⟩
      obtain ⟨last, hlast, hle⟩ := h.past entry hentry
      exact hle.trans (hclock last hlast)
    · have hstores := record_stores h.nodup request.1 request.2
      refine ⟨hstores.nodup, (keep_sorted h hclock).sublist (List.dropWhile_sublist _), fun entry hentry => ⟨request.2, rfl, ?_⟩⟩
      rcases hstores.old entry hentry with rfl | ⟨-, hold⟩
      · exact le_rfl
      · obtain ⟨last, hlast, hle⟩ := h.past entry hold
        exact hle.trans (hclock last hlast)

theorem InOrder.calls (requests : List (Str × ℤ)) {w : DedupeWindow} (h : InOrder w) :
    InOrder (DedupeWindow.calls record w requests).2 := by
  induction requests generalizing w with
  | nil => exact h
  | cons request requests ih => exact ih (h.call request)

theorem fresh_inOrder (windowMs : ℤ) (h : 0 ≤ windowMs) : InOrder (fresh windowMs h) :=
  ⟨List.nodup_nil, .nil, fun _ hentry => absurd hentry List.not_mem_nil⟩

/-! ### The same answers -/

/-- Two windows that follow one log answer a call alike, and follow the log that has it. -/
theorem Follows.call_eq {v : DedupeWindow} (hv : Follows v history) (store store' : Store) (hw : Follows w history)
    (hwindow : v.windowMs = w.windowMs) (hclock : v.lastNowMs = w.lastNowMs) (request : Str × ℤ) :
    (DedupeWindow.call store v request).1 = (DedupeWindow.call store' w request).1 ∧
      (DedupeWindow.call store v request).2.lastNowMs = (DedupeWindow.call store' w request).2.lastNowMs ∧
      (DedupeWindow.call store v request).2.windowMs = (DedupeWindow.call store' w request).2.windowMs := by
  unfold DedupeWindow.call acceptWith
  by_cases hkey : request.1 = []
  · simp only [if_pos hkey, hclock, hwindow, and_self]
  by_cases hnow : request.2 < 0
  · simp only [if_neg hkey, if_pos hnow, hclock, hwindow, and_self]
  by_cases hlast : ∃ last ∈ w.lastNowMs, request.2 < last
  · simp only [if_neg hkey, if_neg hnow, if_pos hlast, hclock, hwindow, and_self]
  have hlast' : ¬ ∃ last ∈ v.lastNowMs, request.2 < last := hclock ▸ hlast
  have hle : ∀ last ∈ w.lastNowMs, last ≤ request.2 := fun last hmem => not_lt.mp fun hlt => hlast ⟨last, hmem, hlt⟩
  have hsame : v.Suppresses request.1 request.2 ↔ w.Suppresses request.1 request.2 := by
    rw [hv.suppresses_iff (hclock ▸ hle), hw.suppresses_iff hle, hwindow]
  by_cases hsup : w.Suppresses request.1 request.2
  · simp only [if_neg hkey, if_neg hnow, if_neg hlast, if_neg hlast', if_pos hsup, if_pos (hsame.mpr hsup), hwindow, and_self]
  · simp only [if_neg hkey, if_neg hnow, if_neg hlast, if_neg hlast', if_neg hsup, if_neg (mt hsame.mp hsup), hwindow, and_self]

theorem Follows.calls_eq (requests : List (Str × ℤ)) {v w : DedupeWindow} {history : List ((Str × ℤ) × Except Raised Bool)}
    (hv : Follows v history) (hw : Follows w history) (hwindow : v.windowMs = w.windowMs) (hclock : v.lastNowMs = w.lastNowMs) :
    (DedupeWindow.calls record v requests).1 = (DedupeWindow.calls keep w requests).1 := by
  induction requests generalizing v w history with
  | nil => rfl
  | cons request requests ih =>
    obtain ⟨hanswer, hclock', hwindow'⟩ := hv.call_eq record keep hw hwindow hclock request
    have hv' := hv.call (fun key nowMs => record_stores hv.nodup key nowMs) request
    have hw' := hw.call (fun key nowMs => keep_stores hw.nodup key nowMs) request
    rw [← hanswer] at hw'
    exact congrArg₂ List.cons hanswer (ih hv' hw' hwindow' hclock')

/-- A call changes neither the length of the window nor its clock, except to its own time. -/
theorem call_clock (store : Store) (w : DedupeWindow) (request : Str × ℤ) :
    (call store w request).2.windowMs = w.windowMs ∧
      ((call store w request).2.lastNowMs = w.lastNowMs ∨ (call store w request).2.lastNowMs = some request.2) := by
  unfold call
  cases haccept : w.acceptWith store request.1 request.2 with
  | error e => exact ⟨rfl, .inl rfl⟩
  | ok result =>
    obtain ⟨answer, w'⟩ := result
    obtain ⟨-, -, -, hanswer⟩ := acceptWith_ok.mp haccept
    rcases hanswer with ⟨-, -, rfl⟩ | ⟨-, -, rfl⟩
    · exact ⟨rfl, .inr rfl⟩
    · exact ⟨rfl, .inr rfl⟩

theorem calls_clock (store : Store) (requests : List (Str × ℤ)) (w : DedupeWindow) :
    (calls store w requests).2.windowMs = w.windowMs ∧
      ∀ last ∈ (calls store w requests).2.lastNowMs, last ∈ w.lastNowMs ∨ ∃ request ∈ requests, request.2 = last := by
  induction requests generalizing w with
  | nil => exact ⟨rfl, fun last hlast => .inl hlast⟩
  | cons request requests ih =>
    obtain ⟨hwindow, hclock⟩ := call_clock store w request
    obtain ⟨hwindow', hclock'⟩ := ih (call store w request).2
    refine ⟨hwindow'.trans hwindow, fun last hlast => ?_⟩
    rcases hclock' last hlast with hfirst | ⟨later, hlater, heq⟩
    · rcases hclock with hsame | hnew
      · exact .inl (hsame ▸ hfirst)
      · rw [hnew] at hfirst
        exact .inr ⟨request, List.mem_cons_self, Option.some.inj hfirst⟩
    · exact .inr ⟨later, List.mem_cons_of_mem _ hlater, heq⟩

/-- **The duplicate window is the unbounded log.** After any calls, a call at a valid time
that is not before theirs returns; one that returns answers `False` just when the last call
of its key that was accepted lies within the window; and after an acceptance all entries
lie within the window. A window that purges nothing gives all the same answers. -/
theorem dedupe_window_is_log (windowMs : ℤ) (hwindow : 0 ≤ windowMs) (before : List (Str × ℤ)) (key : Str) (nowMs : ℤ) :
    (key ≠ [] → 0 ≤ nowMs → (∀ request ∈ before, request.2 ≤ nowMs) →
      ∃ answer w', (calls record (fresh windowMs hwindow) before).2.accept key nowMs = .ok (answer, w')) ∧
    (∀ answer w', (calls record (fresh windowMs hwindow) before).2.accept key nowMs = .ok (answer, w') →
      (answer = false ↔ ∃ previous ∈ lastAccepted key (before.zip (calls record (fresh windowMs hwindow) before).1),
        nowMs - previous ≤ windowMs) ∧
      (answer = true → ∀ entry ∈ w'.seen, nowMs - entry.2 ≤ windowMs)) ∧
    (calls record (fresh windowMs hwindow) before).1 = (calls keep (fresh windowMs hwindow) before).1 := by
  have hfollows := (fresh_follows windowMs hwindow).calls (fun w h key nowMs => record_stores h key nowMs) before
  rw [List.nil_append] at hfollows
  obtain ⟨hlength, htimes⟩ := calls_clock record before (fresh windowMs hwindow)
  refine ⟨fun hkey hnow hlater => ?_, fun answer w' haccept => ?_, ?_⟩
  · have hclock : ∀ last ∈ (calls record (fresh windowMs hwindow) before).2.lastNowMs, last ≤ nowMs := by
      intro last hlast
      obtain ⟨request, hrequest, rfl⟩ := (htimes last hlast).resolve_left nofun
      exact hlater request hrequest
    by_cases hsup : (calls record (fresh windowMs hwindow) before).2.Suppresses key nowMs
    · exact ⟨_, _, acceptWith_ok.mpr ⟨hkey, hnow, hclock, .inl ⟨hsup, rfl, rfl⟩⟩⟩
    · exact ⟨_, _, acceptWith_ok.mpr ⟨hkey, hnow, hclock, .inr ⟨hsup, rfl, rfl⟩⟩⟩
  · have hanswer := (hfollows.accept (record_stores hfollows.nodup key nowMs) haccept).1
    rw [hlength] at hanswer
    refine ⟨hanswer, fun hyes => ?_⟩
    obtain ⟨-, -, hclock, hcases⟩ := acceptWith_ok.mp haccept
    rcases hcases with ⟨-, hno, -⟩ | ⟨-, -, rfl⟩
    · exact absurd (hyes.symm.trans hno) nofun
    · have hnear := record_near ((fresh_inOrder windowMs hwindow).calls before) key hclock
      rwa [hlength] at hnear
  · exact (fresh_follows windowMs hwindow).calls_eq before (fresh_follows windowMs hwindow) rfl rfl

/-- A key that comes again at the edge of the window, and after it. -/
theorem dedupe_window_is_log_sample :
    (∃ previous ∈ lastAccepted (lit "k") ([(lit "k", 0)].zip (calls record (fresh 500 (by decide)) [(lit "k", 0)]).1),
      500 - previous ≤ 500) ∧ ∀ entry ∈ [(lit "k", 501)], 501 - entry.2 ≤ (500 : ℤ) :=
  ⟨((dedupe_window_is_log 500 (by decide) [(lit "k", 0)] (lit "k") 500).2.1 false _ rfl).1.mp rfl,
    ((dedupe_window_is_log 500 (by decide) [(lit "k", 0)] (lit "k") 501).2.1 true _ rfl).2 rfl⟩

end

end DedupeWindow

end CcbCore.Radar
