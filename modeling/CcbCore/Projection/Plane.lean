import CcbCore.Projection.TokenFence

/-!
# The projection plane over whole runs

What holds of the journal's tables and `radar.messages` together, over every run of
calls by any number of workers from tables without a batch: a lane has at most one
claim (`OneClaim`); its head moves only by a finalization of such a claim
(`HeadMove`); a terminal file has been made so by a call that left its message there
(`MadeTerminal`); a call that writes a message makes its own file terminal; and a
call changes nothing unless the batch it names is claimed, unexpired and its token
(`Live`), which a batch never again is once another is claimed on its lane (`Ended`).
-/

namespace CcbCore.Projection

open CcbCore.Postgres CcbCore.Raising

variable {Other : Type} {server : Server Other} {db db' : Database Other} {now : ℤ} {call : Call}
  {event : Event} {world world' : World Other}

/-! ### One claim on a lane -/

/-- A lane has at most one batch that is `CLAIMED`. -/
def OneClaim (db : Database Other) : Prop :=
  ∀ id id' batch batch', db.batches.lookup id = some batch → db.batches.lookup id' = some batch' →
    batch.status = .claimed → batch'.status = .claimed → batch.key = batch'.key → id = id'

/-- What a batch may become: itself, or the same batch, no longer claimed. -/
def Follows (before after : BatchRow) : Prop :=
  after = before ∨ (before.status = .claimed ∧ after.status ≠ .claimed ∧ after.key = before.key)

/-- A call's effect on the batches: each follows what it was, but for one just claimed
on a lane where the claims before it are ended. -/
theorem batches_effect (hone : OneClaim db) (h : Effect db now call db') {id : Uuid} {after : BatchRow}
    (hafter : db'.batches.lookup id = some after) :
    (∃ before, db.batches.lookup id = some before ∧ Follows before after) ∨
      (db.batches.lookup id = none ∧ after.status = .claimed ∧
        ∀ id' batch', db'.batches.lookup id' = some batch' → id' ≠ id → batch'.key = after.key →
          batch'.status ≠ .claimed) := by
  cases h with
  | unchanged => exact .inl ⟨after, hafter, .inl rfl⟩
  | seeded => exact .inl ⟨after, hafter, .inl rfl⟩
  | cutSet => exact .inl ⟨after, hafter, .inl rfl⟩
  | @claimed new _ _ batch lane _ claims =>
    rw [claims.batches] at hafter
    rcases Table.lookup_insert_eq_some.mp hafter with ⟨rfl, rfl⟩ | ⟨-, hafter⟩
    · refine .inr ⟨claims.new, claims.claimed, fun id' batch' hbatch' hne hkey hclaimed => ?_⟩
      rw [claims.batches, AList.lookup_insert_ne hne] at hbatch'
      obtain ⟨before, hbefore, rfl | ⟨-, -, -, rfl⟩⟩ := lookup_withSuperseded hbatch'
      · -- a claim on the lane was there: it is the one that was superseded
        cases hc : db.claimedBatch after.key with
        | none => exact claimedBatch_eq_none hc hbefore hkey hclaimed
        | some found =>
          obtain ⟨old, found⟩ := found
          obtain ⟨hfound, hfoundKey, hfoundClaimed⟩ := claimedBatch_eq_some hc
          obtain rfl := hone _ _ _ _ hbefore hfound hclaimed hfoundClaimed (hkey.trans hfoundKey.symm)
          have hstale : (db.withSuperseded now after.key).batches.lookup id' = some (found.stale now) := by
            simp [Database.withSuperseded, hc, Table.lookup_modify, hfound]
          rw [hbatch'] at hstale
          rw [Option.some.inj hstale] at hclaimed
          cases hclaimed
      · cases hclaimed
    · obtain ⟨before, hbefore, rfl | ⟨-, -, hclaimed, rfl⟩⟩ := lookup_withSuperseded hafter
      · exact .inl ⟨after, hbefore, .inl rfl⟩
      · exact .inl ⟨before, hbefore, .inr ⟨hclaimed, by simp [BatchRow.stale], rfl⟩⟩
  | projected projects =>
    rw [projects.batches] at hafter
    exact .inl ⟨after, hafter, .inl rfl⟩
  | @finalized _ done batch lane finds finalizable =>
    simp only [Database.withFinalized, Table.lookup_modify] at hafter
    by_cases hid : id = done
    · subst hid
      simp only [if_true, finds.found, Option.map_some, Option.some.injEq] at hafter
      subst hafter
      exact .inl ⟨batch, finds.found, .inr ⟨finalizable.claimed, by simp [BatchRow.completed], rfl⟩⟩
    · rw [if_neg hid] at hafter
      exact .inl ⟨after, hafter, .inl rfl⟩

theorem OneClaim.effect (hone : OneClaim db) (h : Effect db now call db') : OneClaim db' := by
  intro id id' batch batch' hbatch hbatch' hclaimed hclaimed' hkey
  by_contra hne
  rcases batches_effect hone h hbatch with ⟨before, hbefore, hfollows⟩ | ⟨-, -, honly⟩
  · rcases batches_effect hone h hbatch' with ⟨before', hbefore', hfollows'⟩ | ⟨-, -, honly⟩
    · obtain rfl := hfollows.resolve_right fun hf => hf.2.1 hclaimed
      obtain rfl := hfollows'.resolve_right fun hf => hf.2.1 hclaimed'
      exact hne (hone _ _ _ _ hbefore hbefore' hclaimed hclaimed' hkey)
    · exact honly id batch hbatch hne hkey hclaimed
  · exact honly id' batch' hbatch' (Ne.symm hne) hkey.symm hclaimed'

/-! ### What names a batch -/

/-- The batch id and token a call presents. -/
def Call.Presents (call : Call) (batchId claimToken : Option Uuid) : Prop :=
  call = .finalizeBatch batchId claimToken ∨
    ∃ args : ProjectFileArgs, call = .projectFile args ∧ args.batchId = batchId ∧ args.claimToken = claimToken

/-- The batch is claimed under the token, and unexpired. -/
def Live (db : Database Other) (now : ℤ) (batchId claimToken : Option Uuid) : Prop :=
  ∃ batch, db.batch? batchId = some batch ∧ claimToken = some batch.claimToken ∧ batch.status = .claimed ∧
    (now : Timestamptz) < batch.claimExpiresAt

/-- A call that presents a token, not NULL, of a batch that is not live changes nothing. -/
theorem unchanged_of_not_live (h : Effect db now call db') (hgiven : call.TokenGiven)
    {batchId claimToken : Option Uuid} (hpresents : call.Presents batchId claimToken)
    (hdead : ¬ Live db now batchId claimToken) : db' = db := by
  rcases hpresents with rfl | ⟨args, rfl, rfl, rfl⟩
  · cases h with
    | unchanged => rfl
    | finalized finds finalizable =>
      refine absurd ⟨_, finds.found, finds.token.resolve_left hgiven, finalizable.claimed, finalizable.unexpired⟩ hdead
  · cases h with
    | unchanged => rfl
    | projected projects =>
      refine absurd ⟨_, ?_, projects.token, projects.claimed, projects.unexpired⟩ hdead
      rw [projects.given]
      exact projects.found

/-- The batch is there, and no longer claimed. -/
def Ended (db : Database Other) (id : Uuid) : Prop :=
  ∃ batch, db.batches.lookup id = some batch ∧ batch.status ≠ .claimed

theorem Ended.not_live {id : Uuid} (h : Ended db id) (now : ℤ) (claimToken : Option Uuid) :
    ¬ Live db now (some id) claimToken := by
  obtain ⟨batch, hbatch, hended⟩ := h
  rintro ⟨batch', hbatch', -, hclaimed, -⟩
  obtain rfl := Option.some.inj (hbatch.symm.trans hbatch')
  exact hended hclaimed

/-- No call removes a batch. -/
theorem batch_stays (h : Effect db now call db') {id : Uuid} {batch : BatchRow}
    (hbatch : db.batches.lookup id = some batch) : ∃ batch', db'.batches.lookup id = some batch' := by
  rw [← Option.ne_none_iff_exists']
  intro hnone
  cases h with
  | unchanged => simp [hbatch] at hnone
  | seeded => simp [hbatch] at hnone
  | cutSet => simp [hbatch] at hnone
  | claimed claims =>
    rw [claims.batches] at hnone
    have hmid := lookup_withSuperseded_eq_none (AList.lookup_insert_eq_none.mp hnone).2
    rw [hbatch] at hmid
    cases hmid
  | projected projects =>
    rw [projects.batches, hbatch] at hnone
    cases hnone
  | finalized finds finalizable =>
    simp only [Database.withFinalized, Table.lookup_modify] at hnone
    split at hnone <;> simp [hbatch] at hnone

/-- An ended batch stays ended. -/
theorem Ended.effect (hone : OneClaim db) (h : Effect db now call db') {id : Uuid} (hended : Ended db id) :
    Ended db' id := by
  obtain ⟨batch, hbatch, hnot⟩ := hended
  obtain ⟨batch', hbatch'⟩ := batch_stays h hbatch
  refine ⟨batch', hbatch', ?_⟩
  rcases batches_effect hone h hbatch' with ⟨before, hbefore, hfollows⟩ | ⟨hnone, -, -⟩
  · obtain rfl := Option.some.inj (hbatch.symm.trans hbefore)
    rcases hfollows with rfl | ⟨hclaimed, -, -⟩
    · exact hnot
    · exact absurd hclaimed hnot
  · rw [hbatch] at hnone
    cases hnone

/-- The key of a batch does not change. -/
theorem key_stays (hone : OneClaim db) (h : Effect db now call db') {id : Uuid} {before after : BatchRow}
    (hbefore : db.batches.lookup id = some before) (hafter : db'.batches.lookup id = some after) :
    after.key = before.key := by
  rcases batches_effect hone h hafter with ⟨before', hbefore', hfollows⟩ | ⟨hnone, -, -⟩
  · obtain rfl := Option.some.inj (hbefore.symm.trans hbefore')
    rcases hfollows with rfl | ⟨-, -, hkey⟩
    · rfl
    · exact hkey
  · rw [hbefore] at hnone
    cases hnone

/-- Claiming another batch on its lane ends a batch. -/
theorem ended_of_claimed (hone : OneClaim db) (h : Effect db now call db') {id new : Uuid} {batch made : BatchRow}
    (hbatch : db.batches.lookup id = some batch) (hnew : db.batches.lookup new = none)
    (hmade : db'.batches.lookup new = some made) (hkey : batch.key = made.key) : Ended db' id := by
  have hne : id ≠ new := by
    rintro rfl
    rw [hbatch] at hnew
    cases hnew
  obtain ⟨after, hafter⟩ := batch_stays h hbatch
  rcases batches_effect hone h hmade with ⟨before, hbefore, -⟩ | ⟨-, -, honly⟩
  · rw [hnew] at hbefore
    cases hbefore
  · exact ⟨after, hafter, honly id after hafter hne ((key_stays hone h hbatch hafter).trans hkey)⟩

/-! ### Moving a head -/

/-- What a call that moves a lane's head is: finalizing a batch of the lane under its
token, claimed and unexpired, with the lane's base and cut and all its files terminal,
to its target. -/
def HeadMove (db : Database Other) (now : ℤ) (call : Call) (key : LaneKey) (base target : Option Sha) : Prop :=
  ∃ id batch lane, call = .finalizeBatch (some id) (some batch.claimToken) ∧
    db.batches.lookup id = some batch ∧ batch.key = key ∧ db.laneState.lookup key = some lane ∧
    Finalizable db now id batch lane ∧ base = batch.expectedProjectedHeadSha ∧ target = some batch.targetHeadSha

/-- A lane stays, and its head changes only by a `HeadMove`. -/
theorem head_effect (h : Effect db now call db') (hgiven : call.TokenGiven) {key : LaneKey} {lane : LaneRow}
    (hlane : db.laneState.lookup key = some lane) :
    ∃ lane', db'.laneState.lookup key = some lane' ∧ (lane'.projectedHeadSha ≠ lane.projectedHeadSha →
      HeadMove db now call key lane.projectedHeadSha lane'.projectedHeadSha) := by
  cases h with
  | unchanged => exact ⟨lane, hlane, fun hne => absurd rfl hne⟩
  | @seeded _ _ _ key' row new =>
    have hne : key ≠ key' := by
      rintro rfl
      rw [hlane] at new
      cases new
    exact ⟨lane, by simp [AList.lookup_insert_ne hne, hlane], fun hne => absurd rfl hne⟩
  | @cutSet _ _ _ _ key' lane' _ _ found =>
    by_cases hk : key = key'
    · subst hk
      obtain rfl := Option.some.inj (hlane.symm.trans found)
      exact ⟨_, AList.lookup_insert _, fun hne => absurd rfl hne⟩
    · exact ⟨lane, by simp [AList.lookup_insert_ne hk, hlane], fun hne => absurd rfl hne⟩
  | claimed claims => exact ⟨lane, by rw [claims.laneState, hlane], fun hne => absurd rfl hne⟩
  | projected projects => exact ⟨lane, by rw [projects.laneState, hlane], fun hne => absurd rfl hne⟩
  | @finalized claimToken id batch lane' finds finalizable =>
    by_cases hk : key = batch.key
    · subst hk
      obtain rfl := Option.some.inj (hlane.symm.trans finds.onLane)
      refine ⟨_, AList.lookup_insert _, fun _ => ⟨id, batch, lane, ?_, finds.found, rfl, hlane, finalizable,
        finalizable.base, rfl⟩⟩
      rw [finds.token.resolve_left hgiven]
    · exact ⟨lane, by simp [Database.withFinalized, AList.lookup_insert_ne hk, hlane], fun hne => absurd rfl hne⟩

/-! ### Files and messages -/

/-- The call projects the file: it was pending, and is terminal. -/
def MakesTerminal (db : Database Other) (call : Call) (db' : Database Other) (id : Uuid) (path : String)
    (args : ProjectFileArgs) : Prop :=
  call = .projectFile args ∧ args.batchId = some id ∧ args.path = some path ∧
    (∃ file, db.batchFiles.lookup (id, path) = some file ∧ file.state = .pending) ∧
    (∃ file, db'.batchFiles.lookup (id, path) = some file ∧ file.state.Terminal)

theorem ProjectsFile.makesTerminal {args : ProjectFileArgs} {id : Uuid} {path : String} {batch : BatchRow}
    {file : FileRow} (h : ProjectsFile db now args id path batch file db') :
    MakesTerminal db (.projectFile args) db' id path args := by
  refine ⟨rfl, h.given, h.onPath, h.pending, file, ?_, h.terminal⟩
  rw [h.batchFiles, AList.lookup_insert]

/-- A file that is terminal after a call was so before, or the call made it so, with
its message there. -/
theorem terminal_effect (h : Effect db now call db') {id : Uuid} {path : String} {file : FileRow}
    (hfile : db'.batchFiles.lookup (id, path) = some file) (hterminal : file.state.Terminal) :
    db.batchFiles.lookup (id, path) = some file ∨
      ∃ args, MakesTerminal db call db' id path args ∧ HasContent db' args.message.contentHash := by
  cases h with
  | unchanged => exact .inl hfile
  | seeded => exact .inl hfile
  | cutSet => exact .inl hfile
  | claimed claims =>
    refine .inl ((claims.pending _ _ hfile).resolve_right fun hpending => ?_)
    rw [hpending] at hterminal
    exact absurd hterminal (by decide)
  | @projected args id' path' _ _ _ projects =>
    have hfile' := hfile
    rw [projects.batchFiles] at hfile'
    rcases Table.lookup_insert_eq_some.mp hfile' with ⟨heq, -⟩ | ⟨-, hbefore⟩
    · obtain ⟨rfl, rfl⟩ := Prod.mk.inj heq
      exact .inr ⟨args, projects.makesTerminal, projects.content⟩
    · exact .inl hbefore
  | finalized => exact .inl hfile

/-- A call that changes `radar.messages` makes its own file terminal. -/
theorem messages_effect (h : Effect db now call db') (hchanged : db'.messages ≠ db.messages) :
    ∃ id path args, MakesTerminal db call db' id path args := by
  cases h with
  | unchanged => exact absurd rfl hchanged
  | seeded => exact absurd rfl hchanged
  | cutSet => exact absurd rfl hchanged
  | claimed claims => exact absurd claims.messages hchanged
  | projected projects => exact ⟨_, _, _, projects.makesTerminal⟩
  | finalized => exact absurd rfl hchanged

/-- No call changes a message that is there. -/
theorem message_stays (h : Effect db now call db') {id : String} {row : MessageRow}
    (hrow : db.messages.lookup id = some row) : db'.messages.lookup id = some row := by
  cases h with
  | unchanged => exact hrow
  | seeded => exact hrow
  | cutSet => exact hrow
  | claimed claims => rw [claims.messages, hrow]
  | projected projects => exact projects.kept id row hrow
  | finalized => exact hrow

/-- A call of a run made the file terminal, and left a message with its content. -/
def MadeTerminal (server : Server Other) (first : World Other) (past : List Event) (world : World Other) (id : Uuid)
    (path : String) : Prop :=
  ∃ earlier event later before after args, past = earlier ++ event :: later ∧
    Run (Step server) first earlier before ∧ Step server before event after ∧ Run (Step server) after later world ∧
    MakesTerminal before.db event.call after.db id path args ∧ HasContent after.db args.message.contentHash

theorem madeTerminal_of_run {first : World Other} {past : List Event} (hfirst : first.db.batchFiles = ∅)
    (hrun : Run (Step server) first past world) {id : Uuid} {path : String} {file : FileRow}
    (hfile : world.db.batchFiles.lookup (id, path) = some file) (hterminal : file.state.Terminal) :
    MadeTerminal server first past world id path := by
  induction hrun generalizing file with
  | nil => simp [hfirst] at hfile
  | @snoc past t event u hrun hstep ih =>
    rcases terminal_effect hstep.effect hfile hterminal with hbefore | ⟨args, hmakes, hcontent⟩
    · obtain ⟨earlier, event', later, before, after, args, rfl, h₁, h₂, h₃, hmade⟩ := ih hbefore hterminal
      exact ⟨earlier, event', later ++ [event], before, after, args, by simp, h₁, h₂, h₃.snoc hstep, hmade⟩
    · exact ⟨past, event, [], t, u, args, by simp, hrun, hstep, .nil, hmakes, hcontent⟩

/-! ### Whole runs -/

/-- Tables without a batch: any lanes, and any messages. -/
def Initial (world : World Other) : Prop := world.db.batches = ∅ ∧ world.db.batchFiles = ∅

theorem oneClaim_of_run {first : World Other} {past : List Event} (hfirst : Initial first)
    (hrun : Run (Step server) first past world) : OneClaim world.db := by
  refine hrun.invariant (P := fun world => OneClaim world.db) (fun s e t hs hst => hs.effect hst.effect) ?_
  intro id id' batch batch' hbatch
  simp [hfirst.1] at hbatch

/-- **The projection plane over whole runs.** In every world that calls reach from
tables without a batch: each lane has at most one claim; every terminal file was
made so by a call that left a message with its content hash there; and of every next
call: a lane's head changes only by a `HeadMove`; messages change only with the
call's own file becoming terminal, and those there stay; a call that names a batch
which is not live changes nothing; and once it claims a batch, no call that names an
earlier batch of the lane ever again changes anything. -/
theorem projection_plane (server : Server Other) (first : World Other) (hfirst : Initial first) (past : List Event)
    (world : World Other) (hrun : Run (Step server) first past world) :
    OneClaim world.db ∧
    (∀ id path file, world.db.batchFiles.lookup (id, path) = some file → file.state.Terminal →
      MadeTerminal server first past world id path) ∧
    (∀ event world', Step server world event world' →
      (∀ key lane, world.db.laneState.lookup key = some lane →
        ∃ lane', world'.db.laneState.lookup key = some lane' ∧ (lane'.projectedHeadSha ≠ lane.projectedHeadSha →
          HeadMove world.db event.now event.call key lane.projectedHeadSha lane'.projectedHeadSha)) ∧
      (world'.db.messages ≠ world.db.messages →
        ∃ id path args, MakesTerminal world.db event.call world'.db id path args) ∧
      (∀ id row, world.db.messages.lookup id = some row → world'.db.messages.lookup id = some row) ∧
      (∀ batchId claimToken, event.call.Presents batchId claimToken →
        ¬ Live world.db event.now batchId claimToken → world'.db = world.db) ∧
      (∀ new made, world.db.batches.lookup new = none → world'.db.batches.lookup new = some made →
        ∀ id batch, world.db.batches.lookup id = some batch → batch.key = made.key →
          ∀ between later, Run (Step server) world' between later → ∀ last later', Step server later last later' →
            ∀ claimToken, last.call.Presents (some id) claimToken → later'.db = later.db)) := by
  have hone := oneClaim_of_run hfirst hrun
  refine ⟨hone, fun id path file hfile hterminal => madeTerminal_of_run hfirst.2 hrun hfile hterminal,
    fun event world' h => ⟨fun key lane hlane => head_effect h.effect h.2.1 hlane, messages_effect h.effect,
      fun id row hrow => message_stays h.effect hrow,
      fun batchId claimToken hpresents hdead => unchanged_of_not_live h.effect h.2.1 hpresents hdead,
      fun new made hnew hmade id batch hbatch hkey between later hbetween last later' hlast claimToken hpresents => ?_⟩⟩
  have hended : OneClaim later.db ∧ Ended later.db id := by
    refine hbetween.invariant (P := fun world => OneClaim world.db ∧ Ended world.db id)
      (fun s e t hs hst => ⟨hs.1.effect hst.effect, hs.2.effect hs.1 hst.effect⟩) ?_
    exact ⟨hone.effect h.effect, ended_of_claimed hone h.effect hbatch hnew hmade hkey⟩
  exact unchanged_of_not_live hlast.effect hlast.2.1 hpresents (hended.2.not_live last.now claimToken)

/-- In the sample run, finalizing the batch under its token moves the head from `a…` to `b…`. -/
theorem projection_plane_sample :
    HeadMove sampleDatabase 1300 (.finalizeBatch (some 1) (some 2)) ("yin", "bus/yin-v2")
      (some (sampleSha 'a' rfl)) (some (sampleSha 'b' rfl)) := by
  have hrun : Run (Step sampleServer) ⟨Database.empty, 0⟩ sampleEvents
      (World.play sampleServer ⟨Database.empty, 0⟩ sampleEvents) := run_play _ _ _ (by decide)
  obtain ⟨lane', hlane', hmove⟩ := ((projection_plane sampleServer ⟨Database.empty, 0⟩ ⟨rfl, rfl⟩ _ _ hrun).2.2
    ⟨.finalizeBatch (some 1) (some 2), 1300⟩ _ ⟨by decide, by decide, rfl⟩).1 ("yin", "bus/yin-v2") _
    (by decide +kernel : sampleDatabase.laneState.lookup ("yin", "bus/yin-v2") =
      some ⟨some (sampleSha 'a' rfl), some (sampleSha 'c' rfl), some (sampleSha 'd' rfl), (1100 : ℤ)⟩)
  have hhead : lane'.projectedHeadSha = some (sampleSha 'b' rfl) := by
    have hafter : (((Call.finalizeBatch (some 1) (some 2)).after sampleServer 1300 sampleDatabase).laneState.lookup
        ("yin", "bus/yin-v2")).map LaneRow.projectedHeadSha = some (some (sampleSha 'b' rfl)) := by decide +kernel
    rw [show ((Call.finalizeBatch (some 1) (some 2)).after sampleServer 1300 sampleDatabase).laneState.lookup
      ("yin", "bus/yin-v2") = some lane' from hlane'] at hafter
    exact Option.some.inj hafter
  rw [hhead] at hmove
  exact hmove (by decide +kernel)

end CcbCore.Projection
