import Bertha.PipelineLookahead
import Bertha.ReplayPipeline

/-!
# Blocks applied ahead of their checks

`runReplayPipeline` of `go/replay/replay.go` applies blocks to the state database before it has
checked the blocks before them. How many is decided by the capacity of one channel: a replay
that fails at the check of a block has applied at most one full channel and one block behind
it. The other channel decides how many blocks are read ahead of those that are applied.
-/

namespace Bertha.ReplayLookahead

open Bertha.ChainAdapter Bertha.Checks Bertha.GethBlocks Bertha.Pipeline Bertha.Replay
open Bertha.ReplayPipeline

set_option autoImplicit false

variable {State Progress : Type} {setup : Setup State Progress}

theorem apply_blocks_entry (side : ApplySide State) (decoded : DecodedBlock) :
    appliedBlocks (applyBlocks setup side decoded).1.calls =
      appliedBlocks side.calls ++ [decoded.geth] := by
  have readCalls := @read_parent_hash_calls _ _ setup side decoded.geth
  have captureCalls := @capture_history_calls _ _ setup
    (readParentHash setup side decoded.geth).1
  have applied : appliedBlocks (callApplyBlock setup
      (captureHistory setup (readParentHash setup side decoded.geth).1).1 decoded.geth).1.calls =
      appliedBlocks side.calls ++ [decoded.geth] := by
    rw [← readCalls.1, ← captureCalls.1]
    simp [callApplyBlock, appliedBlocks]
  unfold applyBlocks
  dsimp only
  split
  · rename_i failed outcome
    rw [outcome] at applied
    exact applied
  · rename_i appliedSide receipts stateRoot sealedBlock outcome
    rw [outcome] at applied
    have asked : appliedBlocks
        (callMaybeSnapshot setup appliedSide (numberU64 sealedBlock) stateRoot).1.calls =
        appliedBlocks side.calls ++ [decoded.geth] := by
      rw [← applied]
      simp [callMaybeSnapshot, appliedBlocks]
    split
    · rename_i failed snapshotted
      rw [snapshotted] at asked
      exact asked
    · rename_i snapshotted
      rw [snapshotted] at asked
      exact asked

theorem check_results_mark (side : CheckSide Progress) (result : ProcessResult) :
    checkedBlocks (checkResults setup side result).1.calls =
      checkedBlocks side.calls ++ [result.decoded.proto] := by
  have checked := (@call_check_block_results_calls _ _ setup side result.decoded.proto
    result.receipts result.stateRoot result.hashOfParentBlock).1
  unfold checkResults
  dsimp only
  split
  · rename_i failed outcome
    rw [outcome] at checked
    exact checked
  · rename_i checkSide block outcome
    rw [outcome] at checked
    have done := (@call_on_block_done_calls _ _ setup checkSide result.decoded.geth).1
    split
    · rename_i failed reported
      rw [reported] at done
      exact done.trans checked
    · rename_i reported
      rw [reported] at done
      rw [(call_submit_calls _ block result.hashHistory).1]
      exact done.trans checked

def replayLogs (setup : Setup State Progress) :
    Logs (pipelineStages setup) GethBlock ProtoBlock.Block where
  worked side := appliedBlocks side.calls
  finished side := checkedBlocks side.calls
  entry := DecodedBlock.geth
  mark := DecodedBlock.proto
  passed result := result.decoded.proto
  work_entry := apply_blocks_entry
  work_mark _ _ _ _ applied := (apply_blocks_calls applied).2.2
  finish_mark := check_results_mark

/-- At any moment of any replay the checked blocks are the first of the applied ones, which are
the first of the decoded ones. At most a full channel and two blocks are applied and not yet
checked, one less once the checks have ended, and at most a full channel and two blocks are read
and not yet applied; both bounds are reached. -/
theorem replay_lookahead (setup : Setup State Progress) {inputCapacity outputCapacity : Nat}
    (inputRoom : 0 < inputCapacity) (outputRoom : 0 < outputCapacity) (turns : List Turn)
    (state : State) (checks : CheckState) (progress : Progress) :
    (∀ read config, Intake (pipelineStages setup) inputCapacity outputCapacity turns ⟨state, []⟩
        ⟨checks, progress, []⟩ read config →
      ∃ consumed failed decoded applied checked, read = consumed ++ failed ∧ read <+: turns ∧
        failed.length ≤ 1 ∧
        (∀ turn ∈ failed, ∃ failure, decodeBlocks setup turn = .error failure) ∧
        Produces (pipelineStages setup) consumed decoded ∧
        appliedBlocks config.work.calls = (decoded.take applied).map DecodedBlock.geth ∧
        checkedBlocks config.finish.calls = (decoded.take checked).map DecodedBlock.proto ∧
        checked ≤ applied ∧ applied ≤ decoded.length ∧ applied ≤ checked + outputCapacity + 2 ∧
        (config.sink = .exited → applied ≤ checked + outputCapacity + 1) ∧
        read.length ≤ applied + inputCapacity + 2) ∧
      (∀ consumed rest, turns = consumed ++ rest → consumed.length = outputCapacity + 2 →
        (runReplayLoop setup ⟨state, []⟩ ⟨checks, progress, []⟩ consumed).2.2 = .ok () →
        ∃ config, Reachable (pipelineStages setup) inputCapacity outputCapacity turns
            ⟨state, []⟩ ⟨checks, progress, []⟩ config ∧
          (appliedBlocks config.work.calls).length = outputCapacity + 2 ∧
          checkedBlocks config.finish.calls = []) ∧
      ∀ consumed rest decoded, turns = consumed ++ rest → consumed.length = inputCapacity + 2 →
        Produces (pipelineStages setup) consumed decoded →
        ∃ config, Intake (pipelineStages setup) inputCapacity outputCapacity turns ⟨state, []⟩
            ⟨checks, progress, []⟩ consumed config ∧
          appliedBlocks config.work.calls = [] := by
  constructor
  · intro read config intake
    rcases lookahead_bound (replayLogs setup) rfl rfl intake with
      ⟨consumed, failed, decoded, applied, checked, readEq, fromTurns, atMostOne, fails, produced,
        worked, finished, ordered, inside, ahead, behind⟩
    have taken : config.sink.taken.length ≤ 1 := by
      cases config.sink <;> simp [Sink.taken]
    refine ⟨consumed, failed, decoded, applied, checked, readEq, fromTurns, atMostOne, fails,
      produced, worked, finished, ordered, inside, by omega, ?_, behind⟩
    intro exited
    rw [exited] at ahead
    exact ahead
  constructor
  · intro consumed rest split long succeeded
    have looped := (run_replay_loop_eq setup ⟨state, []⟩ ⟨checks, progress, []⟩
      consumed).2.2.mp succeeded
    rcases run_loop_ok_iff.mp (Prod.ext rfl (Prod.ext rfl looped)) with
      ⟨decoded, results, produced, works, -⟩
    have sameLength : decoded.length = outputCapacity + 2 := by
      rw [← long]
      exact (List.Forall₂.length_eq produced).symm
    rcases lookahead_attained inputRoom outputRoom split produced works sameLength with
      ⟨config, intake, workEq, finishEq⟩
    refine ⟨config, reachable_iff_intake.mpr ⟨consumed, intake⟩, ?_, ?_⟩
    · rw [workEq, (works_calls works).1, ← sameLength]
      simp [appliedBlocks]
    · rw [finishEq]
      rfl
  · intro consumed rest decoded split long produced
    rcases read_ahead_attained inputRoom split produced long with ⟨config, intake, workEq⟩
    refine ⟨config, intake, ?_⟩
    rw [workEq]
    rfl

def threeBlocks : List Turn :=
  [uncancelled (.ok (GoBlockDb.numberOnly 0)),
    uncancelled (.ok { GoBlockDb.numberOnly 1 with parentHash := [1] }),
    uncancelled (.ok { GoBlockDb.numberOnly 2 with parentHash := [2] })]

/-- With room for one block in each channel all three are applied before the first check. -/
theorem replay_lookahead_three_blocks :
    ∃ config, Reachable (pipelineStages plainSetup) 1 1 threeBlocks ⟨plainAdapter .empty, []⟩
        ⟨plainChecks, 0, []⟩ config ∧
      (appliedBlocks config.work.calls).length = 3 ∧ checkedBlocks config.finish.calls = [] := by
  have attained := (replay_lookahead plainSetup (show 0 < 1 by decide) (show 0 < 1 by decide)
    threeBlocks (plainAdapter .empty) plainChecks 0).2.1
  exact attained threeBlocks [] rfl rfl (by rfl)

end Bertha.ReplayLookahead
