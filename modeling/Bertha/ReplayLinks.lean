import Bertha.ReplayPipeline

/-!
# Links between replayed blocks

What a successful replay has checked of the parent hashes. Nothing compares the block
numbers: a block is compared with the hash in the slot of the number before it, which is the
one recorded last for that slot, and the comparison is skipped where nothing is recorded.
-/

namespace Bertha.ReplayLinks

open Bertha.ChainAdapter Bertha.Checks Bertha.GethBlocks Bertha.GethConvert Bertha.HashHistory
open Bertha.Pipeline Bertha.Replay Bertha.ReplayPipeline
open Bertha.BlockTypes (FixedBytes Hash)

set_option autoImplicit false

/-- The hash recorded last in the slot of a number, after the given hashes have been recorded
on top of a history. -/
def latestHash (history : BlockHashHistory) (recorded : List (UInt64 × Hash)) (number : UInt64) :
    Hash :=
  match recorded.reverse.find? fun entry =>
    entry.1 % blockHashHistoryLen == number % blockHashHistoryLen with
  | some entry => entry.2
  | none => getBlockHash history number

def recordHashes (history : BlockHashHistory) (recorded : List (UInt64 × Hash)) :
    BlockHashHistory :=
  recorded.foldl (fun history entry => setBlockHash history entry.1 entry.2) history

theorem get_set_block_hash (history : BlockHashHistory) (number other : UInt64) (hash : Hash) :
    getBlockHash (setBlockHash history number hash) other =
      if number % blockHashHistoryLen = other % blockHashHistoryLen then hash
      else getBlockHash history other := by
  rw [get_block_hash_eq, set_block_hash_eq, Ring.read_slot_write, get_block_hash_eq]
  have slots : number.toNat % 256 = other.toNat % 256 ↔
      number % blockHashHistoryLen = other % blockHashHistoryLen := by
    rw [← UInt64.toNat_inj, UInt64.toNat_mod, UInt64.toNat_mod]
    rfl
  by_cases same : number % blockHashHistoryLen = other % blockHashHistoryLen
  · rw [if_pos same, if_pos (slots.mpr same)]
  · rw [if_neg same, if_neg (fun sameSlot => same (slots.mp sameSlot))]

theorem get_record_hashes (history : BlockHashHistory) (recorded : List (UInt64 × Hash))
    (number : UInt64) :
    getBlockHash (recordHashes history recorded) number = latestHash history recorded number := by
  induction recorded using List.reverseRecOn with
  | nil => rfl
  | append_singleton earlier last ih =>
      rw [recordHashes, List.foldl_append, List.foldl_cons, List.foldl_nil, ← recordHashes,
        get_set_block_hash, ih, latestHash, latestHash, List.reverse_append,
        List.reverse_singleton, List.singleton_append, List.find?_cons]
      by_cases same : last.1 % blockHashHistoryLen = number % blockHashHistoryLen
      · rw [if_pos same, beq_iff_eq.mpr same]
      · rw [if_neg same, beq_eq_false_iff_ne.mpr same]

theorem record_hashes_snoc (history : BlockHashHistory) (recorded : List (UInt64 × Hash))
    (entry : UInt64 × Hash) :
    recordHashes history (recorded ++ [entry]) =
      setBlockHash (recordHashes history recorded) entry.1 entry.2 := by
  rw [recordHashes, List.foldl_append]
  rfl

theorem latest_hash_take (history : BlockHashHistory) {recorded : List (UInt64 × Hash)}
    {index : Nat} {number : UInt64} {hash : Hash}
    (present : recorded[index]? = some (number, hash)) :
    latestHash history (recorded.take (index + 1)) number = hash := by
  rw [List.take_add_one, present, latestHash, Option.toList_some, List.reverse_append,
    List.reverse_singleton, List.singleton_append, List.find?_cons, beq_self_eq_true]

theorem replay_loop_stages {State Progress : Type} {setup : Setup State Progress}
    {applySide : ApplySide State} {checkSide : CheckSide Progress}
    {blocks : List ProtoBlock.Block}
    (finished : (runReplayLoop setup applySide checkSide
      (blocks.map fun block => uncancelled (.ok block))).2.2 = .ok ()) :
    ∃ decoded results, blocks = decoded.map DecodedBlock.proto ∧
      (∀ block ∈ decoded, convertToGethBlock setup.geth (some block.proto) = .ok block.geth) ∧
      Works (pipelineStages setup) applySide decoded results
        (runReplayLoop setup applySide checkSide
          (blocks.map fun block => uncancelled (.ok block))).1 ∧
      Finishes (pipelineStages setup) checkSide results
        (runReplayLoop setup applySide checkSide
          (blocks.map fun block => uncancelled (.ok block))).2.1 := by
  obtain ⟨sameApply, sameCheck, sameOutcome⟩ := run_replay_loop_eq setup applySide checkSide
    (blocks.map fun block => uncancelled (.ok block))
  have looped := sameOutcome.mp finished
  obtain ⟨decoded, results, produced, works, finishes⟩ :=
    run_loop_ok_iff.mp (Prod.ext sameApply.symm (Prod.ext sameCheck.symm looped))
  have turns : (blocks.map fun block => uncancelled (.ok block)) =
      (blocks.map Except.ok).map uncancelled := by
    rw [List.map_map]
    rfl
  rw [turns] at produced
  obtain ⟨blocksEq, converted⟩ := produces_blocks produced
  have inner : blocks.map Except.ok =
      (decoded.map DecodedBlock.proto).map (Except.ok : _ → Except String ProtoBlock.Block) := by
    rw [blocksEq, List.map_map]
    rfl
  have protos : blocks = decoded.map DecodedBlock.proto :=
    List.map_injective_iff.mpr (fun _ _ same => Except.ok.inj same) inner
  exact ⟨decoded, results, protos, converted, works, finishes⟩

theorem replay_loop_ok {State Progress : Type} {setup : Setup State Progress}
    {applySide : ApplySide State} {checkSide : CheckSide Progress}
    {blocks : List ProtoBlock.Block}
    (finished : (runReplayLoop setup applySide checkSide
      (blocks.map fun block => uncancelled (.ok block))).2.2 = .ok ()) :
    ∃ decoded results applyLast checkLast, blocks = decoded.map DecodedBlock.proto ∧
      (∀ block ∈ decoded, convertToGethBlock setup.geth (some block.proto) = .ok block.geth) ∧
      Works (pipelineStages setup) applySide decoded results applyLast ∧
      Finishes (pipelineStages setup) checkSide results checkLast := by
  obtain ⟨decoded, results, protos, converted, works, finishes⟩ := replay_loop_stages finished
  exact ⟨decoded, results, _, _, protos, converted, works, finishes⟩

section StateChain

variable {Details Correction FailedBundle World Progress : Type}
variable [DecidableEq Details] [Inhabited Details]
variable {execution : Execution Details Correction FailedBundle World} {info : ChainInfo}
variable {setup : Setup (StateChainAdapter Details Correction FailedBundle World) Progress}

/-- The numbers and hashes that a replay of the blocks records, one for each block. -/
def recordedHashes (execution : Execution Details Correction FailedBundle World)
    (geth : GethLibraries) (adapter : StateChainAdapter Details Correction FailedBundle World) :
    List ProtoBlock.Block → List (UInt64 × Hash)
  | [] => []
  | block :: rest =>
      match convertToGethBlock geth (some block) with
      | .error _ => []
      | .ok gethBlock =>
          match applyBlock execution adapter gethBlock with
          | (_, .error _) => []
          | (next, .ok (_, stateRoot, sealedBlock)) =>
              (numberU64 sealedBlock, execution.hashHeader sealedBlock.header) ::
                recordedHashes execution geth
                  (maybeSnapshot execution next (numberU64 sealedBlock) stateRoot).1 rest

theorem read_parent_hash_state (isState : setup.chain = stateChain execution info)
    (side : ApplySide (StateChainAdapter Details Correction FailedBundle World))
    (gethBlock : GethBlock) :
    (readParentHash setup side gethBlock).1.chain = side.chain ∧
      (numberU64 gethBlock ≠ 0 → (readParentHash setup side gethBlock).2 =
        getBlockHash side.chain.blockHashHistory (numberU64 gethBlock - 1)) := by
  unfold readParentHash
  split
  · rw [callGetBlockHash, isState]
    exact ⟨rfl, fun _ => rfl⟩
  · rename_i notPositive
    refine ⟨rfl, fun notZero => ?_⟩
    rw [gt_iff_lt, UInt64.pos_iff_ne_zero] at notPositive
    exact absurd notZero notPositive

theorem capture_history_state (isState : setup.chain = stateChain execution info)
    (side : ApplySide (StateChainAdapter Details Correction FailedBundle World)) :
    (captureHistory setup side).1.chain = side.chain := by
  unfold captureHistory
  split
  · rw [callCloneBlockHashHistory, isState]
    rfl
  · rfl

theorem apply_blocks_state (isState : setup.chain = stateChain execution info)
    {side next : ApplySide (StateChainAdapter Details Correction FailedBundle World)}
    {decoded : DecodedBlock} {result : ProcessResult}
    (applied : applyBlocks setup side decoded = (next, .ok result)) :
    ∃ middle receipts stateRoot,
      applyBlock execution side.chain decoded.geth =
        (middle, .ok (receipts, stateRoot, result.decoded.geth)) ∧
      next.chain =
        (maybeSnapshot execution middle (numberU64 result.decoded.geth) stateRoot).1 ∧
      (numberU64 decoded.geth ≠ 0 → result.hashOfParentBlock =
        getBlockHash side.chain.blockHashHistory (numberU64 decoded.geth - 1)) := by
  have readState := read_parent_hash_state isState side decoded.geth
  have captureState := capture_history_state isState
    (readParentHash setup side decoded.geth).1
  unfold applyBlocks at applied
  dsimp only at applied
  split at applied
  · cases applied
  · rename_i appliedSide receipts stateRoot gethBlock' applyEq
    split at applied
    · cases applied
    · rename_i snapshotSide stateRoot' snapshotEq
      cases applied
      rw [callApplyBlock, isState, captureState, readState.1] at applyEq
      rw [callMaybeSnapshot, isState] at snapshotEq
      have appliedChain := congrArg (fun outcome => outcome.1.chain) applyEq
      have outcome := congrArg (fun outcome => outcome.2) applyEq
      have snapshotChain := congrArg (fun outcome => outcome.1.chain) snapshotEq
      dsimp only [stateChain] at appliedChain outcome snapshotChain
      refine ⟨appliedSide.chain, receipts, stateRoot, Prod.ext appliedChain outcome,
        snapshotChain.symm, ?_⟩
      exact readState.2

omit [DecidableEq Details] [Inhabited Details] in
theorem check_results_parent {side next : CheckSide Progress} {result : ProcessResult}
    (checked : checkResults setup side result = (next, .ok ())) :
    result.hashOfParentBlock = FixedBytes.zero 32 ∨
      bytesToFixed 32 result.decoded.proto.parentHash = result.hashOfParentBlock := by
  unfold checkResults at checked
  dsimp only at checked
  split at checked
  · cases checked
  · rename_i checkSide block' checkEq
    have passed : checkBlockResults setup.geth setup.codec setup.chain.info side.checks
        result.decoded.proto result.receipts result.stateRoot result.hashOfParentBlock =
        ((checkBlockResults setup.geth setup.codec setup.chain.info side.checks
          result.decoded.proto result.receipts result.stateRoot result.hashOfParentBlock).1,
          block', .ok ()) := by
      rw [callCheckBlockResults] at checkEq
      exact Prod.ext rfl (congrArg (fun outcome => outcome.2) checkEq)
    exact check_block_results_parent passed

/-- Induction over the replayed blocks, with the hashes recorded before them as the
invariant of the history. -/
theorem works_links (isState : setup.chain = stateChain execution info)
    {side last : ApplySide (StateChainAdapter Details Correction FailedBundle World)}
    {checkSide checkLast : CheckSide Progress} {decoded : List DecodedBlock}
    {results : List ProcessResult}
    (works : Works (pipelineStages setup) side decoded results last)
    (finishes : Finishes (pipelineStages setup) checkSide results checkLast)
    (converted : ∀ block ∈ decoded,
      convertToGethBlock setup.geth (some block.proto) = .ok block.geth)
    {history : BlockHashHistory} {earlier : List (UInt64 × Hash)}
    (historyEq : side.chain.blockHashHistory = recordHashes history earlier) :
    (recordedHashes execution setup.geth side.chain (decoded.map DecodedBlock.proto)).map
        Prod.fst = decoded.map (fun block => block.proto.number) ∧
      ∀ index block, decoded[index]? = some block → block.proto.number ≠ 0 →
        latestHash history (earlier ++ (recordedHashes execution setup.geth side.chain
            (decoded.map DecodedBlock.proto)).take index) (block.proto.number - 1) =
          FixedBytes.zero 32 ∨
        bytesToFixed 32 block.proto.parentHash =
          latestHash history (earlier ++ (recordedHashes execution setup.geth side.chain
            (decoded.map DecodedBlock.proto)).take index) (block.proto.number - 1) := by
  induction works generalizing checkSide earlier with
  | nil side => simp [recordedHashes]
  | @cons side next last first result rest results worked others ih =>
      cases finishes with
      | cons finished othersFinished =>
          rw [List.forall_mem_cons] at converted
          obtain ⟨middle, receipts, stateRoot, applied, nextEq, parentRead⟩ :=
            apply_blocks_state isState worked
          obtain ⟨recordedHistory, sealedNumber⟩ := apply_block_records applied
          have number := convert_number converted.1
          have sameProto := (apply_blocks_calls worked).2.2
          have recordedEq : recordedHashes execution setup.geth side.chain
              (first.proto :: rest.map DecodedBlock.proto) =
              (first.proto.number, execution.hashHeader result.decoded.geth.header) ::
                recordedHashes execution setup.geth next.chain
                  (rest.map DecodedBlock.proto) := by
            rw [recordedHashes, converted.1]
            dsimp only
            rw [applied]
            dsimp only
            rw [sealedNumber, number, nextEq, sealedNumber, number]
          have nextHistory : next.chain.blockHashHistory = recordHashes history
              (earlier ++ [(first.proto.number,
                execution.hashHeader result.decoded.geth.header)]) := by
            obtain ⟨handler, state, kept⟩ := maybe_snapshot_cases execution middle
              (numberU64 result.decoded.geth) stateRoot
            rw [nextEq, kept, recordedHistory, historyEq, number, record_hashes_snoc]
          obtain ⟨restNumbers, restLinks⟩ := ih othersFinished converted.2 nextHistory
          rw [List.map_cons, recordedEq]
          refine ⟨by rw [List.map_cons, List.map_cons, restNumbers], ?_⟩
          intro index block present positive
          cases index with
          | zero =>
              cases present
              rw [List.take_zero, List.append_nil, ← get_record_hashes, ← historyEq, ← number,
                ← parentRead (by rw [number]; exact positive), ← sameProto]
              exact check_results_parent finished
          | succ index =>
              rw [List.take_succ_cons, List.append_cons]
              exact restLinks index block present positive

/-- After a replay that ends without an error, every block but block 0 has as its parent hash
the hash recorded last in the slot of the number before it, or that slot holds no hash. So a
block is linked to its predecessor wherever that was replayed right before it. -/
theorem replay_links_blocks (isState : setup.chain = stateChain execution info)
    (adapter : StateChainAdapter Details Correction FailedBundle World)
    (checkSide : CheckSide Progress) (blocks : List ProtoBlock.Block)
    (finished : (runReplayLoop setup ⟨adapter, []⟩ checkSide
      (blocks.map fun block => uncancelled (.ok block))).2.2 = .ok ()) :
    (recordedHashes execution setup.geth adapter blocks).map Prod.fst =
        blocks.map (fun block => block.number) ∧
      (∀ index block, blocks[index]? = some block → block.number ≠ 0 →
        latestHash adapter.blockHashHistory
            ((recordedHashes execution setup.geth adapter blocks).take index)
            (block.number - 1) = FixedBytes.zero 32 ∨
        bytesToFixed 32 block.parentHash =
          latestHash adapter.blockHashHistory
            ((recordedHashes execution setup.geth adapter blocks).take index)
            (block.number - 1)) ∧
      ∀ index previous block hash, blocks[index]? = some previous →
        blocks[index + 1]? = some block → block.number ≠ 0 →
        block.number = previous.number + 1 →
        (recordedHashes execution setup.geth adapter blocks)[index]? =
          some (previous.number, hash) →
        hash = FixedBytes.zero 32 ∨ bytesToFixed 32 block.parentHash = hash := by
  obtain ⟨decoded, results, _, _, protos, converted, works, finishes⟩ := replay_loop_ok finished
  have empty : adapter.blockHashHistory = recordHashes adapter.blockHashHistory [] := rfl
  obtain ⟨numbers, links⟩ := works_links isState works finishes converted empty
  rw [← protos] at numbers links
  have numbersEq : (recordedHashes execution setup.geth adapter blocks).map Prod.fst =
      blocks.map (fun block => block.number) := by
    rw [numbers, protos, List.map_map]
    rfl
  have allLinks : ∀ index block, blocks[index]? = some block → block.number ≠ 0 →
      latestHash adapter.blockHashHistory
          ((recordedHashes execution setup.geth adapter blocks).take index)
          (block.number - 1) = FixedBytes.zero 32 ∨
      bytesToFixed 32 block.parentHash =
        latestHash adapter.blockHashHistory
          ((recordedHashes execution setup.geth adapter blocks).take index)
          (block.number - 1) := by
    intro index block present positive
    rw [protos, List.getElem?_map, Option.map_eq_some_iff] at present
    obtain ⟨decodedBlock, decodedPresent, isProto⟩ := present
    rw [← isProto] at positive ⊢
    exact links index decodedBlock decodedPresent positive
  refine ⟨numbersEq, allLinks, ?_⟩
  intro index previous block hash _ present positive next recorded
  have link := allLinks (index + 1) block present positive
  have parent : block.number - 1 = previous.number := by
    rw [next]
    exact UInt64.add_sub_cancel _ _
  rwa [parent, latest_hash_take adapter.blockHashHistory recorded] at link

end StateChain

theorem replay_links_blocks_plain :
    bytesToFixed 32 [1] = plainExecution.hashHeader (plainBlock 0).header := by
  have links := replay_links_blocks
    (show plainSetup.chain = stateChain plainExecution _ from rfl) (plainAdapter .empty)
    ⟨plainChecks, 0, []⟩
    [GoBlockDb.numberOnly 0, { GoBlockDb.numberOnly 1 with parentHash := [1] }] rfl
  have linked := links.2.2 0 _ _ _ rfl rfl (by decide) rfl rfl
  exact linked.resolve_left (by decide)

/-- Block 2 follows block 0: nothing is recorded for block 1, so nothing is compared. -/
theorem replay_accepts_gap :
    let blocks := [GoBlockDb.numberOnly 0, GoBlockDb.numberOnly 2]
    (runReplayLoop plainSetup ⟨plainAdapter .empty, []⟩ ⟨plainChecks, 0, []⟩
        (blocks.map fun block => uncancelled (.ok block))).2.2 = .ok () ∧
      blocks.map (fun block => block.number.toNat) ≠ List.range' 0 blocks.length := by
  intro blocks
  constructor
  · rfl
  · decide

end Bertha.ReplayLinks
