import CcbCore.Journal.ReferenceSpec
import CcbCore.Library.Run
import Mathlib.Data.List.Basic

/-!
# Runs of the reference journal

A `Call` is a call of one of the five methods with its arguments, an `Event` a
call and how it ended. `Effect` lists all a call can do to the journal, each
constructor with what the call has checked, and `effect_of_exec` says the list is
complete. A `Step` of a `World` is a call that presents only claims `claim_batch`
has returned; `AnyStep` lets a caller present any claim at all.

The invariant that ties the active-batch map to batch completion is `Inv`: it
holds in every world reached by any calls (`inv_of_run`). `Issued` is what holds
besides when claims are presented as they were returned.
-/

namespace CcbCore.Journal

open CcbCore Raising

/-- A call of a method of the journal. -/
inductive Call where
  | seedLaneState (identity branch : String) (projectedHeadSha : Option String)
  | setControlCut (identity branch controlSha topologySha : String)
  | claimBatch (request : ClaimRequest)
  | recordFileResult (claim : BatchClaim) (path : String) (state : BatchFileState)
  | finalizeBatch (claim : BatchClaim) (nowMs : ℤ)

/-- How a call ends. -/
inductive Outcome where
  /-- It returns `None`. -/
  | returned
  /-- `claim_batch` returns a claim. -/
  | claimed (claim : BatchClaim)
  /-- `finalize_batch` returns a lane state. -/
  | finalized (state : ProjectionLaneState)
  /-- It raises. -/
  | raised (error : Raised)

/-- The claim a call presents. -/
def Call.presented : Call → Option BatchClaim
  | .recordFileResult claim _ _ | .finalizeBatch claim _ => some claim
  | _ => none

/-- The claim a call hands out. -/
def Outcome.issued : Outcome → List BatchClaim
  | .claimed claim => [claim]
  | _ => []

/-- A call and how it ended. -/
structure Event where
  call : Call
  outcome : Outcome

/-- A successful `finalize_batch` of a batch, first or replayed. -/
def Event.Finalizes (event : Event) (batchId : String) : Prop :=
  ∃ claim now state, claim.batchId = batchId ∧
    event = ⟨.finalizeBatch claim now, .finalized state⟩

variable (uuid4 : UuidSource)

/-- The method a call names. -/
def Call.method : Call → Method Outcome
  | .seedLaneState identity branch head => (fun _ => .returned) <$> Journal.seedLaneState identity branch head
  | .setControlCut identity branch control topology =>
    (fun _ => .returned) <$> Journal.setControlCut identity branch control topology
  | .claimBatch request => .claimed <$> Journal.claimBatch uuid4 request
  | .recordFileResult claim path state => (fun _ => .returned) <$> Journal.recordFileResult claim path state
  | .finalizeBatch claim now => .finalized <$> Journal.finalizeBatch claim now

/-- Make a call: how it ends, and the journal it leaves. -/
def exec (call : Call) (journal : ProjectionJournal) : Outcome × ProjectionJournal :=
  match (call.method uuid4).run journal with
  | .ok outcome journal' => (outcome, journal')
  | .error error journal' => (.raised error, journal')

/-! ### All a call can do -/

/-- All a call can do to the journal. -/
inductive Effect (journal : ProjectionJournal) : Event → ProjectionJournal → Prop where
  /-- It raises, and changes nothing. -/
  | raised {call : Call} {error : Raised} : Effect journal ⟨call, .raised error⟩ journal
  /-- A lane is seeded, or seeded again with the head it has. -/
  | seeded {identity branch : String} {head : Option String} {key : LaneKey} {head' : Option String}
      (same : ∀ lane, journal.lanes key = some lane → lane.projectedHeadSha = head') :
      Effect journal ⟨.seedLaneState identity branch head, .returned⟩
        { journal with lanes := Function.update journal.lanes key (some ⟨key.1, key.2, head'⟩) }
  /-- A seeded lane gets a control cut. -/
  | cutSet {identity branch control topology : String} {key : LaneKey} {cut : String × String}
      (lane : journal.lanes key ≠ none) :
      Effect journal ⟨.setControlCut identity branch control topology, .returned⟩
        { journal with controlCuts := Function.update journal.controlCuts key (some cut) }
  /-- A batch is claimed. -/
  | claimed {request request' : ClaimRequest} {claim : BatchClaim}
      (made : claim = claimOf uuid4 request' journal.uuids)
      (base : ∃ lane, journal.lanes claim.key = some lane ∧
        lane.projectedHeadSha = claim.expectedProjectedHead)
      (free : ∀ id, journal.activeBatchByLane claim.key = some id →
        ∃ record, journal.batches id = some record ∧
          (record.complete = true ∨ record.claim.leaseExpiresMs ≤ request.nowMs))
      (lease : 0 < claim.leaseExpiresMs) :
      Effect journal ⟨.claimBatch request, .claimed claim⟩ (journal.withClaim claim request'.files)
  /-- A file result is recorded. -/
  | recorded {claim : BatchClaim} {path : String} {state : BatchFileState} {record : BatchRecord}
      (batch : journal.batches claim.batchId = some record)
      (token : record.claim.claimToken = claim.claimToken)
      (incomplete : record.complete = false)
      (active : journal.activeBatchByLane claim.key = some claim.batchId) :
      Effect journal ⟨.recordFileResult claim path state, .returned⟩
        { journal with
          batches := Function.update journal.batches claim.batchId
            (some { record with files := setFile record.files path state }) }
  /-- A completed batch is finalized again: its stored state is returned. -/
  | replayed {claim : BatchClaim} {now : ℤ} {record : BatchRecord} {state : ProjectionLaneState}
      (batch : journal.batches claim.batchId = some record)
      (token : record.claim.claimToken = claim.claimToken)
      (complete : record.complete = true) (stored : record.finalizedState = some state) :
      Effect journal ⟨.finalizeBatch claim now, .finalized state⟩ journal
  /-- A batch is finalized, and its lane moves on. -/
  | finalized {claim : BatchClaim} {now : ℤ} {record : BatchRecord}
      (batch : journal.batches claim.batchId = some record)
      (token : record.claim.claimToken = claim.claimToken)
      (incomplete : record.complete = false)
      (active : journal.activeBatchByLane claim.key = some claim.batchId)
      (lease : now < claim.leaseExpiresMs)
      (cut : journal.controlCuts claim.key = some (claim.controlSha, claim.topologySha))
      (base : ∃ lane, journal.lanes claim.key = some lane ∧
        lane.projectedHeadSha = claim.expectedProjectedHead)
      (files : resolved record.files = true) :
      Effect journal ⟨.finalizeBatch claim now, .finalized claim.finalized⟩
        (journal.withFinalized claim record)

theorem atomic_method (call : Call) : Atomic (call.method uuid4) := by
  cases call with
  | seedLaneState identity branch head => exact (atomic_seedLaneState _ _ _).map _
  | setControlCut identity branch control topology => exact (atomic_setControlCut _ _ _ _).map _
  | claimBatch request => exact (atomic_claimBatch _ _).map _
  | recordFileResult claim path state => exact (atomic_recordFileResult _ _ _).map _
  | finalizeBatch claim now => exact (atomic_finalizeBatch _ _).map _

/-- **The list of effects is complete.** -/
theorem effect_of_exec {call : Call} {journal journal' : ProjectionJournal} {outcome : Outcome}
    (h : exec uuid4 call journal = (outcome, journal')) :
    Effect uuid4 journal ⟨call, outcome⟩ journal' := by
  unfold exec at h
  cases hrun : (call.method uuid4).run journal with
  | error error left =>
    simp only [hrun, Prod.mk.injEq] at h
    obtain ⟨rfl, rfl⟩ := h
    rw [atomic_method uuid4 call _ _ _ hrun]
    exact .raised
  | ok value left =>
    simp only [hrun, Prod.mk.injEq] at h
    obtain ⟨rfl, rfl⟩ := h
    cases call with
    | seedLaneState identity branch head =>
      obtain ⟨_, hok, rfl⟩ := run_map_ok.mp hrun
      obtain ⟨key, head', hsame, rfl⟩ := seedLaneState_ok hok
      exact .seeded hsame
    | setControlCut identity branch control topology =>
      obtain ⟨_, hok, rfl⟩ := run_map_ok.mp hrun
      obtain ⟨key, cut, hlane, rfl⟩ := setControlCut_ok hok
      exact .cutSet hlane
    | claimBatch request =>
      obtain ⟨claim, hok, rfl⟩ := run_map_ok.mp hrun
      obtain ⟨request', hmade, rfl, hbase, -, hfree, hlease, -⟩ := claimBatch_ok hok
      exact .claimed hmade hbase hfree hlease
    | recordFileResult claim path state =>
      obtain ⟨_, hok, rfl⟩ := run_map_ok.mp hrun
      obtain ⟨-, record, hbatch, htoken, hincomplete, hactive, -, rfl⟩ := recordFileResult_ok.mp hok
      exact .recorded hbatch htoken hincomplete hactive
    | finalizeBatch claim now =>
      obtain ⟨state, hok, rfl⟩ := run_map_ok.mp hrun
      obtain ⟨-, record, hbatch, htoken, hreplay | hfirst⟩ := finalizeBatch_ok.mp hok
      · obtain ⟨hcomplete, hstored, rfl⟩ := hreplay
        exact .replayed hbatch htoken hcomplete hstored
      · obtain ⟨hincomplete, hactive, hlease, hcut, hbase, hfiles, rfl, rfl⟩ := hfirst
        exact .finalized hbatch htoken hincomplete hactive hlease hcut hbase hfiles

/-! ### Worlds -/

/-- A journal, and the claims `claim_batch` has returned. -/
structure World where
  journal : ProjectionJournal
  issued : List BatchClaim

/-- Nothing has been called. -/
def World.initial : World := ⟨.empty, []⟩

/-- A call, whatever claim it presents. -/
def AnyStep (world : World) (event : Event) (world' : World) : Prop :=
  exec uuid4 event.call world.journal = (event.outcome, world'.journal) ∧
    world'.issued = world.issued ++ event.outcome.issued

/-- A call that presents no claim but those `claim_batch` has returned. -/
def Step (world : World) (event : Event) (world' : World) : Prop :=
  AnyStep uuid4 world event world' ∧ ∀ claim ∈ event.call.presented, claim ∈ world.issued

theorem AnyStep.effect {uuid4 : UuidSource} {world world' : World} {event : Event}
    (h : AnyStep uuid4 world event world') : Effect uuid4 world.journal event world'.journal :=
  effect_of_exec uuid4 h.1

theorem Step.effect {uuid4 : UuidSource} {world world' : World} {event : Event}
    (h : Step uuid4 world event world') : Effect uuid4 world.journal event world'.journal :=
  h.1.effect

/-! ### Playing a list of calls -/

/-- The event a call makes in a world. -/
def World.event (world : World) (call : Call) : Event := ⟨call, (exec uuid4 call world.journal).1⟩

/-- The world a call leaves. -/
def World.after (world : World) (call : Call) : World :=
  ⟨(exec uuid4 call world.journal).2, world.issued ++ (exec uuid4 call world.journal).1.issued⟩

/-- The world after a list of calls. -/
def World.play (world : World) : List Call → World
  | [] => world
  | call :: calls => (world.after uuid4 call).play calls

/-- The events of a list of calls. -/
def World.events (world : World) : List Call → List Event
  | [] => []
  | call :: calls => world.event uuid4 call :: (world.after uuid4 call).events calls

/-- Each call presents only claims that were returned before it. -/
def World.presents (world : World) : List Call → Bool
  | [] => true
  | call :: calls =>
    (call.presented.all fun claim => claim ∈ world.issued) && (world.after uuid4 call).presents calls

theorem anyStep_after (world : World) (call : Call) :
    AnyStep uuid4 world (world.event uuid4 call) (world.after uuid4 call) := ⟨rfl, rfl⟩

theorem anyRun_play (world : World) (calls : List Call) :
    Run (AnyStep uuid4) world (world.events uuid4 calls) (world.play uuid4 calls) := by
  induction calls generalizing world with
  | nil => exact .nil
  | cons call calls ih => exact .cons (anyStep_after uuid4 world call) (ih _)

theorem run_play (world : World) (calls : List Call) (h : world.presents uuid4 calls = true) :
    Run (Step uuid4) world (world.events uuid4 calls) (world.play uuid4 calls) := by
  induction calls generalizing world with
  | nil => exact .nil
  | cons call calls ih =>
    simp only [World.presents, Bool.and_eq_true] at h
    refine .cons ⟨anyStep_after uuid4 world call, fun claim hclaim => ?_⟩ (ih _ h.2)
    have hpresented : call.presented = some claim := hclaim
    simpa [hpresented] using h.1

end CcbCore.Journal
