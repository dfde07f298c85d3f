import Bertha.Pipeline
import Bertha.Replay

/-!
# The pipelined replay

`runReplayPipeline` of `go/replay/replay.go` decodes, applies and checks the blocks in three
concurrent stages. It is an instance of the three-stage pipeline, which gives that it cannot
get stuck and that it agrees with the plain loop.
-/

namespace Bertha.ReplayPipeline

open Bertha.ChainAdapter Bertha.Checks Bertha.GethBlocks Bertha.HashHistory Bertha.Pipeline
open Bertha.Replay
open Bertha.BlockTypes (Hash)

set_option autoImplicit false

structure DecodedBlock where
  proto : ProtoBlock.Block
  geth : GethBlock

structure ProcessResult where
  decoded : DecodedBlock
  receipts : List GethReceipt
  stateRoot : StateRoot
  hashOfParentBlock : Hash
  hashHistory : Option BlockHashHistory

def channelSize : Nat := 128

variable {State Progress : Type}

def decodeBlocks (setup : Setup State Progress) (turn : Turn) : Except Failure DecodedBlock :=
  match turn.next with
  | .error err => .error (.error s!"failed to get next block: {err}")
  | .ok block =>
  match turn.ctxErr with
  | some err => .error (.error err)
  | none =>
  match convertToGethBlock setup.geth (some block) with
  | .error failure =>
      .error (wrapFailure s!"failed to convert block {block.number}" (convertFailure failure))
  | .ok gethBlock => .ok ⟨block, gethBlock⟩

def applyBlocks (setup : Setup State Progress) (side : ApplySide State) (decoded : DecodedBlock) :
    ApplySide State × Except Failure ProcessResult :=
  let gethBlock := decoded.geth
  let (side, hashOfParentBlock) := readParentHash setup side gethBlock
  let (side, hashHistoryClone) := captureHistory setup side
  match callApplyBlock setup side gethBlock with
  | (side, .error failure) =>
      (side, .error (wrapFailure s!"failed to apply block {numberU64 gethBlock}" failure))
  | (side, .ok (receipts, stateRootFuture, sealedBlock)) =>
  match callMaybeSnapshot setup side (numberU64 sealedBlock) stateRootFuture with
  | (side, .error failure) =>
      (side,
        .error (wrapFailure s!"failed to create snapshot at block {numberU64 sealedBlock}" failure))
  | (side, .ok stateRootFuture) =>
      (side, .ok {
        decoded := { decoded with geth := sealedBlock }
        receipts := receipts
        stateRoot := stateRootFuture
        hashOfParentBlock := hashOfParentBlock
        hashHistory := hashHistoryClone })

def checkResults (setup : Setup State Progress) (side : CheckSide Progress)
    (result : ProcessResult) : CheckSide Progress × Except Failure Unit :=
  let block := result.decoded.proto
  match callCheckBlockResults setup side block result.receipts result.stateRoot
    result.hashOfParentBlock with
  | (side, _, .error failure) =>
      (side,
        .error (wrapFailure s!"failed to check block results for block {block.number}" failure))
  | (side, block', .ok ()) =>
  match callOnBlockDone setup side result.decoded.geth with
  | (side, .error err) =>
      (side, .error (.error
        s!"failed to execute onBlockDone callback for block {block.number}: {err}"))
  | (side, .ok ()) => (callSubmit setup side block' result.hashHistory, .ok ())

def pipelineStages (setup : Setup State Progress) :
    Stages Turn DecodedBlock ProcessResult Failure (ApplySide State) (CheckSide Progress) where
  produce := decodeBlocks setup
  work := applyBlocks setup
  finish := checkResults setup

/-- The loop and the stages taken one after the other do the same, up to the number in the
text of an error. -/
theorem run_replay_loop_eq (setup : Setup State Progress) (applySide : ApplySide State)
    (checkSide : CheckSide Progress) (turns : List Turn) :
    (runReplayLoop setup applySide checkSide turns).1 =
        (runLoop (pipelineStages setup) applySide checkSide turns).1 ∧
      (runReplayLoop setup applySide checkSide turns).2.1 =
        (runLoop (pipelineStages setup) applySide checkSide turns).2.1 ∧
      ((runReplayLoop setup applySide checkSide turns).2.2 = .ok () ↔
        (runLoop (pipelineStages setup) applySide checkSide turns).2.2 = .ok ()) := by
  induction turns generalizing applySide checkSide with
  | nil => exact ⟨rfl, rfl, Iff.rfl⟩
  | cons turn rest ih =>
      rw [runReplayLoop, runLoop]
      dsimp only [pipelineStages]
      rw [decodeBlocks]
      cases turn.next with
      | error err => simp
      | ok block =>
          cases turn.ctxErr with
          | some err => simp
          | none =>
              dsimp only
              cases convertToGethBlock setup.geth (some block) with
              | error failure => simp
              | ok gethBlock =>
                  dsimp only
                  rw [applyBlocks]
                  dsimp only
                  rcases callApplyBlock setup
                      (captureHistory setup (readParentHash setup applySide gethBlock).1).1
                      gethBlock with ⟨applied, failure | ⟨receipts, stateRoot, gethBlock'⟩⟩
                  · simp
                  · dsimp only
                    rcases callMaybeSnapshot setup applied (numberU64 gethBlock') stateRoot with
                      ⟨snapshotted, failure | stateRoot⟩
                    · simp
                    · dsimp only
                      rw [checkResults]
                      dsimp only
                      rcases callCheckBlockResults setup checkSide block receipts stateRoot
                          (readParentHash setup applySide gethBlock).2 with
                        ⟨checked, block', failure | _⟩
                      · simp
                      · dsimp only
                        rcases callOnBlockDone setup checked gethBlock' with ⟨done, err | _⟩
                        · simp
                        · exact ih _ _

/-! ## The calls of a replay -/

def appliedBlocks (calls : List ChainCall) : List GethBlock :=
  calls.filterMap fun
    | .applyBlock block => some block
    | _ => none

def snapshotCount (calls : List ChainCall) : Nat :=
  calls.countP fun
    | .maybeSnapshot _ _ => true
    | _ => false

def checkedBlocks (calls : List CheckCall) : List ProtoBlock.Block :=
  calls.filterMap fun
    | .checkBlockResults block _ _ _ => some block
    | _ => none

def doneBlocks (calls : List CheckCall) : List GethBlock :=
  calls.filterMap fun
    | .onBlockDone block => some block
    | _ => none

def submittedNumbers (calls : List CheckCall) : List UInt64 :=
  calls.filterMap fun
    | .submit block _ => some block.number
    | _ => none

section Calls

variable {setup : Setup State Progress}

theorem read_parent_hash_calls (side : ApplySide State) (gethBlock : GethBlock) :
    appliedBlocks (readParentHash setup side gethBlock).1.calls = appliedBlocks side.calls ∧
      snapshotCount (readParentHash setup side gethBlock).1.calls = snapshotCount side.calls := by
  unfold readParentHash
  split
  · simp [callGetBlockHash, appliedBlocks, snapshotCount]
  · exact ⟨rfl, rfl⟩

theorem capture_history_calls (side : ApplySide State) :
    appliedBlocks (captureHistory setup side).1.calls = appliedBlocks side.calls ∧
      snapshotCount (captureHistory setup side).1.calls = snapshotCount side.calls := by
  unfold captureHistory
  split
  · simp [callCloneBlockHashHistory, appliedBlocks, snapshotCount]
  · exact ⟨rfl, rfl⟩

theorem apply_blocks_calls {side next : ApplySide State} {decoded : DecodedBlock}
    {result : ProcessResult} (applied : applyBlocks setup side decoded = (next, .ok result)) :
    appliedBlocks next.calls = appliedBlocks side.calls ++ [decoded.geth] ∧
      snapshotCount next.calls = snapshotCount side.calls + 1 ∧
      result.decoded.proto = decoded.proto := by
  have readCalls := @read_parent_hash_calls _ _ setup side decoded.geth
  have captureCalls := @capture_history_calls _ _ setup
    (readParentHash setup side decoded.geth).1
  unfold applyBlocks at applied
  dsimp only at applied
  split at applied
  · cases applied
  · rename_i appliedSide receipts stateRoot gethBlock' applyEq
    split at applied
    · cases applied
    · rename_i snapshotSide stateRoot' snapshotEq
      have applyCalls := congrArg (fun outcome => outcome.1.calls) applyEq
      have snapshotCalls := congrArg (fun outcome => outcome.1.calls) snapshotEq
      dsimp only [callApplyBlock] at applyCalls
      dsimp only [callMaybeSnapshot] at snapshotCalls
      cases applied
      refine ⟨?_, ?_, rfl⟩
      · rw [← snapshotCalls, ← applyCalls, ← readCalls.1, ← captureCalls.1]
        simp [appliedBlocks]
      · rw [← snapshotCalls, ← applyCalls, ← readCalls.2, ← captureCalls.2]
        simp [snapshotCount]

theorem works_calls {side last : ApplySide State} {decoded : List DecodedBlock}
    {results : List ProcessResult}
    (works : Works (pipelineStages setup) side decoded results last) :
    appliedBlocks last.calls = appliedBlocks side.calls ++ decoded.map DecodedBlock.geth ∧
      snapshotCount last.calls = snapshotCount side.calls + decoded.length ∧
      results.map (fun result => result.decoded.proto) = decoded.map DecodedBlock.proto := by
  induction works with
  | nil side => simp
  | cons worked _ ih =>
      obtain ⟨applied, snapshots, proto⟩ := apply_blocks_calls worked
      obtain ⟨restApplied, restSnapshots, restProto⟩ := ih
      refine ⟨?_, ?_, ?_⟩
      · rw [restApplied, applied, List.map_cons, List.append_assoc, List.singleton_append]
      · rw [restSnapshots, snapshots, List.length_cons]
        omega
      · rw [List.map_cons, List.map_cons, proto, restProto]

theorem call_check_block_results_calls (side : CheckSide Progress) (block : ProtoBlock.Block)
    (receipts : List GethReceipt) (stateRoot : StateRoot) (hashOfParentBlock : Hash) :
    let calls := (callCheckBlockResults setup side block receipts stateRoot
      hashOfParentBlock).1.calls
    checkedBlocks calls = checkedBlocks side.calls ++ [block] ∧
      doneBlocks calls = doneBlocks side.calls ∧
      submittedNumbers calls = submittedNumbers side.calls := by
  simp [callCheckBlockResults, checkedBlocks, doneBlocks, submittedNumbers]

theorem call_on_block_done_calls (side : CheckSide Progress) (block : GethBlock) :
    let calls := (callOnBlockDone setup side block).1.calls
    checkedBlocks calls = checkedBlocks side.calls ∧
      doneBlocks calls =
        doneBlocks side.calls ++ (if setup.onBlockDone.isSome then [block] else []) ∧
      submittedNumbers calls = submittedNumbers side.calls := by
  unfold callOnBlockDone
  cases setup.onBlockDone with
  | none => simp
  | some callback => simp [checkedBlocks, doneBlocks, submittedNumbers]

theorem call_submit_calls (side : CheckSide Progress) (block : ProtoBlock.Block)
    (hashHistory : Option BlockHashHistory) :
    let calls := (callSubmit setup side block hashHistory).calls
    checkedBlocks calls = checkedBlocks side.calls ∧
      doneBlocks calls = doneBlocks side.calls ∧
      submittedNumbers calls =
        submittedNumbers side.calls ++ (if setup.verifier then [block.number] else []) := by
  unfold callSubmit
  split
  · simp [checkedBlocks, doneBlocks, submittedNumbers]
  · simp

/-- The third stage checks its block once, reports it once and submits it once. -/
theorem check_results_calls {side next : CheckSide Progress} {result : ProcessResult}
    (checked : checkResults setup side result = (next, .ok ())) :
    checkedBlocks next.calls = checkedBlocks side.calls ++ [result.decoded.proto] ∧
      doneBlocks next.calls = doneBlocks side.calls ++
        (if setup.onBlockDone.isSome then [result.decoded.geth] else []) ∧
      submittedNumbers next.calls = submittedNumbers side.calls ++
        (if setup.verifier then [result.decoded.proto.number] else []) := by
  unfold checkResults at checked
  dsimp only at checked
  split at checked
  · cases checked
  · rename_i checkSide block' checkEq
    split at checked
    · cases checked
    · rename_i doneSide doneEq
      have checkCalls := @call_check_block_results_calls _ _ setup side result.decoded.proto
        result.receipts result.stateRoot result.hashOfParentBlock
      have number := congrArg (fun outcome => outcome.2.1.number) checkEq
      dsimp only [callCheckBlockResults] at number
      rw [check_block_results_number] at number
      have doneCalls := @call_on_block_done_calls _ _ setup checkSide result.decoded.geth
      have submitCalls := @call_submit_calls _ _ setup doneSide block' result.hashHistory
      rw [checkEq] at checkCalls
      rw [doneEq] at doneCalls
      cases checked
      refine ⟨?_, ?_, ?_⟩
      · rw [submitCalls.1, doneCalls.1, checkCalls.1]
      · rw [submitCalls.2.1, doneCalls.2.1, checkCalls.2.1]
      · rw [submitCalls.2.2, doneCalls.2.2, checkCalls.2.2, number]

theorem finishes_calls {side last : CheckSide Progress} {results : List ProcessResult}
    (finishes : Finishes (pipelineStages setup) side results last) :
    checkedBlocks last.calls =
        checkedBlocks side.calls ++ results.map (fun result => result.decoded.proto) ∧
      doneBlocks last.calls = doneBlocks side.calls ++
        (if setup.onBlockDone.isSome then results.map (fun result => result.decoded.geth)
        else []) ∧
      submittedNumbers last.calls = submittedNumbers side.calls ++
        (if setup.verifier then results.map (fun result => result.decoded.proto.number)
        else []) := by
  induction finishes with
  | nil side => simp
  | cons finished _ ih =>
      obtain ⟨checked, done, submitted⟩ := check_results_calls finished
      obtain ⟨restChecked, restDone, restSubmitted⟩ := ih
      refine ⟨?_, ?_, ?_⟩
      · rw [restChecked, checked, List.map_cons, List.append_assoc, List.singleton_append]
      · rw [restDone, done, List.append_assoc]
        split <;> simp
      · rw [restSubmitted, submitted, List.append_assoc]
        split <;> simp

end Calls

/-! ## The results -/

/-- A turn of the loop under a context that is never cancelled. -/
def uncancelled (next : Except String ProtoBlock.Block) : Turn := ⟨next, none⟩

theorem produces_blocks {setup : Setup State Progress}
    {blocks : List (Except String ProtoBlock.Block)} {decoded : List DecodedBlock}
    (produced : Produces (pipelineStages setup) (blocks.map uncancelled) decoded) :
    blocks = decoded.map (fun block => .ok block.proto) ∧
      ∀ block ∈ decoded, convertToGethBlock setup.geth (some block.proto) = .ok block.geth := by
  induction blocks generalizing decoded with
  | nil =>
      cases produced
      simp
  | cons next rest ih =>
      cases produced with
      | @cons _ first _ others firstProduced othersProduced =>
          obtain ⟨restEq, converted⟩ := ih othersProduced
          dsimp only [pipelineStages] at firstProduced
          rw [decodeBlocks, uncancelled] at firstProduced
          cases next with
          | error err => cases firstProduced
          | ok block =>
              dsimp only at firstProduced
              split at firstProduced
              · cases firstProduced
              · rename_i gethBlock conversion
                cases firstProduced
                refine ⟨by rw [restEq, List.map_cons], ?_⟩
                rw [List.forall_mem_cons]
                exact ⟨conversion, converted⟩

/-- The pipeline ends, and however its stages interleave it reports no error exactly if the
loop returns none. Then both have made the same calls, each block once and in order. -/
theorem pipeline_agrees_with_loop (setup : Setup State Progress) (chain : State)
    (checks : CheckState) (progress : Progress) (blocks : List (Except String ProtoBlock.Block))
    {inputCapacity outputCapacity : Nat} (inputRoom : 0 < inputCapacity)
    (outputRoom : 0 < outputCapacity) :
    (∃ config, Reachable (pipelineStages setup) inputCapacity outputCapacity
        (blocks.map uncancelled) ⟨chain, []⟩ ⟨checks, progress, []⟩ config ∧ AllExited config) ∧
    ∀ config, Reachable (pipelineStages setup) inputCapacity outputCapacity
        (blocks.map uncancelled) ⟨chain, []⟩ ⟨checks, progress, []⟩ config →
      AllExited config →
      (config.issue = none ↔
        (runReplayLoop setup ⟨chain, []⟩ ⟨checks, progress, []⟩
          (blocks.map uncancelled)).2.2 = .ok ()) ∧
      (config.issue = none →
        config.work =
            (runReplayLoop setup ⟨chain, []⟩ ⟨checks, progress, []⟩
              (blocks.map uncancelled)).1 ∧
          config.finish =
            (runReplayLoop setup ⟨chain, []⟩ ⟨checks, progress, []⟩
              (blocks.map uncancelled)).2.1 ∧
          ∃ decoded : List DecodedBlock,
            blocks = decoded.map (fun block => .ok block.proto) ∧
            (∀ block ∈ decoded,
              convertToGethBlock setup.geth (some block.proto) = .ok block.geth) ∧
            appliedBlocks config.work.calls = decoded.map DecodedBlock.geth ∧
            snapshotCount config.work.calls = decoded.length ∧
            checkedBlocks config.finish.calls = decoded.map DecodedBlock.proto ∧
            (doneBlocks config.finish.calls).length =
              (if setup.onBlockDone.isSome then decoded.length else 0) ∧
            submittedNumbers config.finish.calls =
              (if setup.verifier then decoded.map (fun block => block.proto.number) else [])) := by
  refine ⟨exit_reachable inputRoom outputRoom .start, ?_⟩
  intro config reached exited
  obtain ⟨sameApply, sameCheck, sameOutcome⟩ := run_replay_loop_eq setup ⟨chain, []⟩
    ⟨checks, progress, []⟩ (blocks.map uncancelled)
  obtain ⟨issueIff, looped⟩ := exited_agrees reached exited
  constructor
  · rw [issueIff, sameOutcome]
    constructor
    · rintro ⟨work, finish, succeeded⟩
      rw [succeeded]
    · intro succeeded
      exact ⟨_, _, Prod.ext rfl (Prod.ext rfl succeeded)⟩
  · intro noIssue
    have loop := looped noIssue
    obtain ⟨decoded, results, produced, works, finishes⟩ := run_loop_ok_iff.mp loop
    obtain ⟨blocksEq, converted⟩ := produces_blocks produced
    obtain ⟨applied, snapshots, protos⟩ := works_calls works
    obtain ⟨checked, done, submitted⟩ := finishes_calls finishes
    have lengths : results.length = decoded.length := by
      simpa using congrArg List.length protos
    have numbers : results.map (fun result => result.decoded.proto.number) =
        decoded.map (fun block => block.proto.number) := by
      have mapped := congrArg (List.map ProtoBlock.Block.number) protos
      rwa [List.map_map, List.map_map] at mapped
    rw [sameApply, sameCheck, loop]
    refine ⟨rfl, rfl, decoded, blocksEq, converted, applied, ?_, ?_, ?_, ?_⟩
    · rw [snapshots]
      exact Nat.zero_add _
    · rw [checked, protos]
      rfl
    · rw [done]
      split
      · simpa [doneBlocks] using lengths
      · rfl
    · rw [submitted, numbers]
      rfl

def linkedBlocks : List (Except String ProtoBlock.Block) :=
  [.ok (GoBlockDb.numberOnly 0), .ok { GoBlockDb.numberOnly 1 with parentHash := [1] }]

theorem pipeline_agrees_with_loop_plain :
    ∃ config, Reachable (pipelineStages plainSetup) channelSize channelSize
        (linkedBlocks.map uncancelled) ⟨plainAdapter .empty, []⟩ ⟨plainChecks, 0, []⟩ config ∧
      config.issue = none ∧ submittedNumbers config.finish.calls = [0, 1] := by
  obtain ⟨⟨config, reached, exited⟩, agrees⟩ := pipeline_agrees_with_loop plainSetup
    (plainAdapter .empty) plainChecks 0 linkedBlocks (show 0 < channelSize by decide)
    (show 0 < channelSize by decide)
  obtain ⟨outcome, calls⟩ := agrees config reached exited
  have noIssue : config.issue = none := outcome.mpr (by rfl)
  obtain ⟨_, finishEq, _⟩ := calls noIssue
  refine ⟨config, reached, noIssue, ?_⟩
  rw [finishEq]
  rfl

/-- The pipeline cannot get stuck: in every state that a run can reach some stage can go on
unless all have exited, after an abort no send blocks and who waits to receive waits for a
stage that goes on, no run is infinite, and a run that cannot go on has waited for all
stages. -/
theorem pipeline_never_stuck (setup : Setup State Progress) (turns : List Turn)
    (applySide : ApplySide State) (checkSide : CheckSide Progress)
    {inputCapacity outputCapacity : Nat} (inputRoom : 0 < inputCapacity)
    (outputRoom : 0 < outputCapacity) :
    (∀ config, Reachable (pipelineStages setup) inputCapacity outputCapacity turns applySide
        checkSide config → ¬ AllExited config →
      ∃ stage next, Step (pipelineStages setup) inputCapacity outputCapacity stage config next) ∧
    (∀ config, Reachable (pipelineStages setup) inputCapacity outputCapacity turns applySide
        checkSide config → config.abort = true →
      (config.source ≠ .exited →
        ∃ next, Step (pipelineStages setup) inputCapacity outputCapacity .source config next) ∧
      (config.worker ≠ .exited →
        (∃ next, Step (pipelineStages setup) inputCapacity outputCapacity .worker config next) ∨
          config.worker = .receiving ∧ config.source ≠ .exited) ∧
      (config.sink ≠ .exited →
        (∃ next, Step (pipelineStages setup) inputCapacity outputCapacity .sink config next) ∨
          config.sink = .receiving ∧ config.worker ≠ .exited)) ∧
    (∀ run : Nat → Config Turn DecodedBlock ProcessResult Failure (ApplySide State)
        (CheckSide Progress),
      ¬ ∀ index, ∃ stage, Step (pipelineStages setup) inputCapacity outputCapacity stage
        (run index) (run (index + 1))) ∧
    ∀ config, Reachable (pipelineStages setup) inputCapacity outputCapacity turns applySide
        checkSide config →
      (∀ stage next, ¬ Step (pipelineStages setup) inputCapacity outputCapacity stage config
        next) → AllExited config := by
  have progress : ∀ config, Reachable (pipelineStages setup) inputCapacity outputCapacity turns
      applySide checkSide config → ¬ AllExited config →
      ∃ stage next, Step (pipelineStages setup) inputCapacity outputCapacity stage config next := by
    intro config reached running
    exact (reachable_orderly reached).progress inputRoom outputRoom running
  refine ⟨progress, ?_, ?_, ?_⟩
  · intro config reached aborted
    exact (reachable_orderly reached).after_abort aborted
  · intro run steps
    exact runs_finite run steps
  · intro config reached stuck
    by_contra running
    obtain ⟨stage, next, step⟩ := progress config reached running
    exact stuck stage next step

theorem pipeline_never_stuck_plain :
    ∃ stage next, Step (pipelineStages plainSetup) channelSize channelSize stage
      (start [uncancelled (.ok (GoBlockDb.numberOnly 0))] ⟨plainAdapter .empty, []⟩
        ⟨plainChecks, 0, []⟩) next := by
  have stuckFree := pipeline_never_stuck plainSetup
    [uncancelled (.ok (GoBlockDb.numberOnly 0))] ⟨plainAdapter .empty, []⟩ ⟨plainChecks, 0, []⟩
    (show 0 < channelSize by decide) (show 0 < channelSize by decide)
  apply stuckFree.1 _ .start
  rintro ⟨exited, _⟩
  cases exited

end Bertha.ReplayPipeline
