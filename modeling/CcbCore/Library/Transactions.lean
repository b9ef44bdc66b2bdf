import CcbCore.Library.Run
import CcbCore.Library.Table

/-!
# Concurrent transactions

Transactions over one table. Each sees a snapshot of what was committed when it took one,
with its own writes, and may take another at any time, as one does for each statement. A
write of a key that another transaction in progress has written waits for that one to end,
so there is a step of it only when it is `Unlocked`; and what is written is in the table
when its transaction commits. What the table would be if some of the transactions in
progress committed as they stand is a `future` of the database: a step adds none but those
with its own write (`Step.future`), and there is a run to each (`commits_run`).
-/

namespace CcbCore.Transactions

variable {ι κ α ω ε : Type} [DecidableEq ι] [DecidableEq κ]

/-! ### Writes -/

/-- A row is put under a key, or the key's row is taken away. -/
structure Write (κ α : Type) where
  key : κ
  row : Option α

def Write.apply (rows : Table κ α) (w : Write κ α) : Table κ α :=
  match w.row with
  | some row => rows.insert w.key row
  | none => rows.erase w.key

/-- The writes, one after another. -/
def applyAll (rows : Table κ α) (ws : List (Write κ α)) : Table κ α := ws.foldl Write.apply rows

variable {rows rows' : Table κ α} {w : Write κ α} {ws vs : List (Write κ α)} {k : κ}

theorem lookup_apply : (w.apply rows).lookup k = if k = w.key then w.row else rows.lookup k := by
  unfold Write.apply
  by_cases hk : k = w.key
  · subst hk
    cases hrow : w.row <;> simp [AList.lookup_erase]
  · cases hrow : w.row <;> simp [hk, AList.lookup_insert_ne, AList.lookup_erase_ne]

@[simp] theorem applyAll_nil : applyAll rows [] = rows := rfl

@[simp] theorem applyAll_append : applyAll rows (ws ++ vs) = applyAll (applyAll rows ws) vs := List.foldl_append

theorem lookup_applyAll_congr (h : rows.lookup k = rows'.lookup k) (ws : List (Write κ α)) :
    (applyAll rows ws).lookup k = (applyAll rows' ws).lookup k := by
  induction ws generalizing rows rows' with
  | nil => exact h
  | cons w ws ih => exact ih (by rw [lookup_apply, lookup_apply, h])

theorem lookup_applyAll_unwritten (h : ∀ w ∈ ws, w.key ≠ k) : (applyAll rows ws).lookup k = rows.lookup k := by
  induction ws generalizing rows with
  | nil => rfl
  | cons w ws ih =>
    rw [List.forall_mem_cons] at h
    refine (ih h.2).trans ?_
    rw [lookup_apply, if_neg (Ne.symm h.1)]

/-- Writes of other keys may come first. -/
theorem lookup_applyAll_comm (h : ∀ v ∈ vs, ∀ w ∈ ws, v.key ≠ w.key) (k : κ) :
    (applyAll (applyAll rows ws) vs).lookup k = (applyAll (applyAll rows vs) ws).lookup k := by
  by_cases hk : ∃ w ∈ ws, w.key = k
  · obtain ⟨w, hw, rfl⟩ := hk
    have hvs : ∀ v ∈ vs, v.key ≠ w.key := fun v hv => h v hv w hw
    rw [lookup_applyAll_unwritten hvs]
    exact lookup_applyAll_congr (lookup_applyAll_unwritten hvs).symm ws
  · have hws : ∀ w ∈ ws, w.key ≠ k := fun w hw heq => hk ⟨w, hw, heq⟩
    exact (lookup_applyAll_congr (lookup_applyAll_unwritten hws) vs).trans (lookup_applyAll_unwritten hws).symm

/-! ### Transactions -/

/-- A transaction, which has begun when it has a snapshot. -/
structure Transaction (κ α : Type) where
  snapshot : Option (Table κ α) := none
  writes : List (Write κ α) := []

/-- What is committed, and the transactions. -/
structure Database (ι κ α : Type) where
  committed : Table κ α
  transactions : ι → Transaction κ α

/-- What a transaction does. -/
inductive Event (ι ω : Type) where
  /-- It sees what is committed by now. -/
  | snapshot (i : ι)
  | write (i : ι) (op : ω)
  | commit (i : ι)
  | rollback (i : ι)
  deriving DecidableEq, Repr

namespace Database

variable (db : Database ι κ α) (i : ι)

def writes : List (Write κ α) := (db.transactions i).writes

/-- What a transaction would see if it took a snapshot now. -/
def current : Table κ α := applyAll db.committed (db.writes i)

/-- A transaction is as given. -/
def put (tx : Transaction κ α) : Database ι κ α := { db with transactions := Function.update db.transactions i tx }

/-- No other transaction has written one of the keys. -/
def Unlocked (ws : List (Write κ α)) : Prop := ∀ j, j ≠ i → ∀ v ∈ db.writes j, ∀ w ∈ ws, v.key ≠ w.key

/-- The table when the transactions have committed, as they stand. -/
def settle (rows : Table κ α) (is : List ι) : Table κ α := is.foldl (fun rows i => applyAll rows (db.writes i)) rows

/-- What is committed when the transactions have committed, as they stand. -/
def future (is : List ι) : Table κ α := db.settle db.committed is

end Database

/-- A step, where an operation makes writes of what its transaction sees and of what is there. -/
inductive Step (perform : Table κ α → Table κ α → ω → Except ε (List (Write κ α))) (db : Database ι κ α) :
    Event ι ω → Database ι κ α → Prop where
  | snapshot (i : ι) : Step perform db (.snapshot i) (db.put i ⟨some db.committed, db.writes i⟩)
  | write {i : ι} {op : ω} {seen : Table κ α} {ws : List (Write κ α)} : (db.transactions i).snapshot = some seen →
      db.Unlocked i ws → perform (applyAll seen (db.writes i)) (db.current i) op = .ok ws →
      Step perform db (.write i op) (db.put i ⟨some seen, db.writes i ++ ws⟩)
  | commit (i : ι) : Step perform db (.commit i) { db.put i {} with committed := db.current i }
  | rollback (i : ι) : Step perform db (.rollback i) (db.put i {})

/-! ### Futures -/

variable {perform : Table κ α → Table κ α → ω → Except ε (List (Write κ α))} {db db' : Database ι κ α} {i j : ι} {is : List ι}

omit [DecidableEq κ] in
@[simp] theorem writes_put_self (tx : Transaction κ α) : (db.put i tx).writes i = tx.writes := by
  simp [Database.writes, Database.put]

omit [DecidableEq κ] in
theorem writes_put_of_ne (tx : Transaction κ α) (h : j ≠ i) : (db.put i tx).writes j = db.writes j := by
  simp [Database.writes, Database.put, h]

omit [DecidableEq ι] in
theorem settle_congr (h : ∀ j ∈ is, db'.writes j = db.writes j) (rows : Table κ α) : db'.settle rows is = db.settle rows is := by
  induction is generalizing rows with
  | nil => rfl
  | cons j is ih =>
    rw [List.forall_mem_cons] at h
    change db'.settle (applyAll rows (db'.writes j)) is = db.settle (applyAll rows (db.writes j)) is
    rw [h.1]
    exact ih h.2 _

/-- A transaction without writes changes nothing. -/
theorem settle_filter (h : db.writes i = []) (rows : Table κ α) (is : List ι) :
    db.settle rows is = db.settle rows (is.filter (· ≠ i)) := by
  induction is generalizing rows with
  | nil => rfl
  | cons j is ih =>
    by_cases hj : j = i
    · rw [List.filter_cons_of_neg (by simp [hj])]
      refine Eq.trans ?_ (ih rows)
      change db.settle (applyAll rows (db.writes j)) is = _
      rw [hj, h, applyAll_nil]
    · rw [List.filter_cons_of_pos (by simp [hj])]
      exact ih _

omit [DecidableEq ι] in
theorem lookup_settle_congr (h : rows.lookup k = rows'.lookup k) (is : List ι) :
    (db.settle rows is).lookup k = (db.settle rows' is).lookup k := by
  induction is generalizing rows rows' with
  | nil => exact h
  | cons j is ih => exact ih (lookup_applyAll_congr h _)

omit [DecidableEq ι] in
/-- Writes of keys that no other transaction has written may come last. -/
theorem lookup_settle_comm (h : ∀ j ∈ is, ∀ v ∈ db.writes j, ∀ w ∈ ws, v.key ≠ w.key) (rows : Table κ α) (k : κ) :
    (db.settle (applyAll rows ws) is).lookup k = (applyAll (db.settle rows is) ws).lookup k := by
  induction is generalizing rows with
  | nil => rfl
  | cons j is ih =>
    rw [List.forall_mem_cons] at h
    have hcomm : (db.settle (applyAll (applyAll rows ws) (db.writes j)) is).lookup k =
        (db.settle (applyAll (applyAll rows (db.writes j)) ws) is).lookup k :=
      lookup_settle_congr (lookup_applyAll_comm h.1 k) is
    exact hcomm.trans (ih h.2 _)

omit [DecidableEq ι] in
/-- Transactions without writes change nothing. -/
theorem settle_empty (h : ∀ j ∈ is, db.writes j = []) (rows : Table κ α) : db.settle rows is = rows := by
  induction is generalizing rows with
  | nil => rfl
  | cons j is ih =>
    rw [List.forall_mem_cons] at h
    change db.settle (applyAll rows (db.writes j)) is = rows
    rw [h.1, applyAll_nil, ih h.2]

omit [DecidableEq ι] in
/-- Where no other transaction has written, what one sees is what it commits. -/
theorem future_alone (h : ∀ j, j ≠ i → db.writes j = []) (his : is.Nodup) (hi : i ∈ is) : db.future is = db.current i := by
  obtain ⟨before, after, rfl⟩ := List.append_of_mem hi
  obtain ⟨-, hafter, hdisjoint⟩ := List.nodup_append.mp his
  rw [List.nodup_cons] at hafter
  have hbefore : db.settle db.committed before = db.committed :=
    settle_empty (fun j hj => h j (hdisjoint j hj i List.mem_cons_self)) _
  have hsplit : db.future (before ++ i :: after) = db.settle (applyAll (db.settle db.committed before) (db.writes i)) after := by
    simp only [Database.future, Database.settle, List.foldl_append, List.foldl_cons]
  rw [hsplit, hbefore]
  exact settle_empty (fun j hj => h j fun heq => hafter.1 (heq ▸ hj)) _

/-- Once a transaction has nothing more to commit, the others' futures are what they were. -/
theorem settle_put_empty (tx : Transaction κ α) (htx : tx.writes = []) (rows : Table κ α) (is : List ι) :
    (db.put i tx).settle rows is = db.settle rows (is.filter (· ≠ i)) := by
  rw [settle_filter (i := i) (by rw [writes_put_self, htx])]
  refine settle_congr (fun j hj => writes_put_of_ne tx ?_) rows
  exact of_decide_eq_true (List.mem_filter.mp hj).2

/-- A future with a write is what it was without it, and the write. -/
theorem future_write (hunlocked : db.Unlocked i ws) {tx : Transaction κ α} (htx : tx.writes = db.writes i ++ ws)
    (his : is.Nodup) (hi : i ∈ is) (k : κ) :
    ((db.put i tx).future is).lookup k = (applyAll (db.future is) ws).lookup k := by
  obtain ⟨before, after, rfl⟩ := List.append_of_mem hi
  obtain ⟨-, hafter, hdisjoint⟩ := List.nodup_append.mp his
  rw [List.nodup_cons] at hafter
  have hbefore : ∀ j ∈ before, j ≠ i := fun j hj => hdisjoint j hj i List.mem_cons_self
  have hrest : ∀ j ∈ after, j ≠ i := fun j hj heq => hafter.1 (heq ▸ hj)
  have hleft : (db.put i tx).future (before ++ i :: after) =
      db.settle (applyAll (applyAll (db.settle db.committed before) (db.writes i)) ws) after := by
    simp only [Database.future, Database.settle, List.foldl_append, List.foldl_cons]
    rw [writes_put_self, htx, applyAll_append]
    refine (settle_congr (fun j hj => writes_put_of_ne tx (hrest j hj)) _).trans ?_
    rw [show (db.put i tx).committed = db.committed from rfl]
    congr 3
    exact settle_congr (fun j hj => writes_put_of_ne tx (hbefore j hj)) _
  rw [hleft, lookup_settle_comm (fun j hj => hunlocked j (hrest j hj))]
  simp only [Database.future, Database.settle, List.foldl_append, List.foldl_cons]

/-- What a step does to the futures: each is one that there was, or has the step's writes. -/
theorem Step.future {event : Event ι ω} (h : Step perform db event db') (his : is.Nodup) :
    (∃ is', is'.Nodup ∧ db'.future is = db.future is') ∨
      ∃ i op seen ws, event = .write i op ∧ i ∈ is ∧ (db.transactions i).snapshot = some seen ∧
        perform (applyAll seen (db.writes i)) (db.current i) op = .ok ws ∧
        ∀ k, (db'.future is).lookup k = (applyAll (db.future is) ws).lookup k := by
  have hfilter (i : ι) : (is.filter (· ≠ i)).Nodup := his.filter _
  cases h with
  | snapshot i =>
    refine .inl ⟨is, his, settle_congr (fun j _ => ?_) _⟩
    by_cases hj : j = i
    · rw [hj, writes_put_self]
    · exact writes_put_of_ne _ hj
  | @write i op seen ws hseen hunlocked hperform =>
    by_cases hi : i ∈ is
    · exact .inr ⟨i, op, seen, ws, rfl, hi, hseen, hperform, future_write hunlocked rfl his hi⟩
    · refine .inl ⟨is, his, settle_congr (fun j hj => writes_put_of_ne _ fun heq => ?_) _⟩
      exact hi (heq ▸ hj)
  | commit i =>
    refine .inl ⟨i :: is.filter (· ≠ i), List.nodup_cons.mpr ⟨by simp, hfilter i⟩, ?_⟩
    exact (settle_put_empty {} rfl _ _ : (db.put i {}).settle (db.current i) is = _)
  | rollback i => exact .inl ⟨is.filter (· ≠ i), hfilter i, settle_put_empty {} rfl _ _⟩

/-- There is a run to every future. -/
theorem commits_run (perform : Table κ α → Table κ α → ω → Except ε (List (Write κ α))) (db : Database ι κ α)
    (his : is.Nodup) : ∃ db', Run (Step perform) db (is.map .commit) db' ∧ db'.committed = db.future is := by
  induction is generalizing db with
  | nil => exact ⟨db, .nil, rfl⟩
  | cons i is ih =>
    rw [List.nodup_cons] at his
    obtain ⟨db', hrun, hcommitted⟩ := ih { db.put i {} with committed := db.current i } his.2
    refine ⟨db', .cons (.commit i) hrun, hcommitted.trans ?_⟩
    refine settle_congr (fun j hj => writes_put_of_ne {} fun heq => ?_) (db.current i)
    exact his.1 (heq ▸ hj)

end CcbCore.Transactions
