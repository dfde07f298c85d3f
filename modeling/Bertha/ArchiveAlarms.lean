import Bertha.ArchiveInputs

/-!
# No false alarms of the archive verifier

An archive answers faithfully if a block is executed on the state that its live execution
began with. Along a run in which it does, every receipt comes out as it was checked in the live
replay, whatever was applied, committed, written back and drawn in between, so no verification
ever reports an error. What the execution may depend on is spelled out: not on the state root in
the header, which a replay may write back, and of the upgrades only on those up to the block.
-/

namespace Bertha.ArchiveAlarms

open Bertha.ArchiveInputs Bertha.ArchiveVerifier Bertha.ChainAdapter Bertha.Checks
open Bertha.GethBlocks Bertha.GethConvert Bertha.HashHistory Bertha.Replay Bertha.RulesHistory
open Bertha.RulesStore
open Bertha.BlockTypes (Hash)

set_option autoImplicit false

def withRoot (block : GethBlock) (root : Hash) : GethBlock :=
  { block with header := { block.header with root := root } }

inductive SameConfig : ChainConfig → ChainConfig → Prop where
  | ethereum (chainID : UInt64) : SameConfig (.ethereum chainID) (.ethereum chainID)
  | transient (chainID number : UInt64) {early late : List UpgradeHeight}
      (upgrades : late.filter (fun entry => decide (entry.height ≤ number)) =
        early.filter (fun entry => decide (entry.height ≤ number))) :
      SameConfig (.transient chainID early number) (.transient chainID late number)

structure SameInputs {Details Correction FailedBundle : Type}
    (live again : BlockInputs Details Correction FailedBundle) : Prop where
  block : ∃ root, again.block = withRoot live.block root
  hashHistory : again.hashHistory = live.hashHistory
  rules : again.rules = live.rules
  corrections : again.corrections = live.corrections
  failedBundles : again.failedBundles = live.failedBundles
  chainConfig : SameConfig live.chainConfig again.chainConfig

variable {Details Correction FailedBundle World : Type}

/-- What succeeds live gives the same receipts when it is executed on the archive with such
inputs. -/
def Reexecutes (execution : Execution Details Correction FailedBundle World) : Prop :=
  ∀ state live again receipts usedGas, live.isArchive = false → again.isArchive = true →
    SameInputs live again →
    (execution.applyBlock state live).2.2 = .ok (receipts, usedGas) →
    (execution.applyBlock state again).2.2 = .ok (receipts, usedGas)

/-- A system with the states that the blocks were executed on. -/
structure Traced (Details Correction FailedBundle World : Type) where
  system : System Details Correction FailedBundle World
  states : UInt64 → Option World

def recordState (side : LiveSide Details Correction FailedBundle World)
    (states : UInt64 → Option World) : UInt64 → Option World :=
  match side.control with
  | .committed _ gethBlock =>
      Function.update states (numberU64 gethBlock) (some side.adapter.state)
  | _ => states

theorem record_state_cases (side : LiveSide Details Correction FailedBundle World)
    (states : UInt64 → Option World) : recordState side states = states ∨
      ∃ item gethBlock, side.control = .committed item gethBlock ∧
        recordState side states =
          Function.update states (numberU64 gethBlock) (some side.adapter.state) := by
  unfold recordState
  split
  · rename_i item gethBlock committed
    exact .inr ⟨item, gethBlock, committed, rfl⟩
  · exact .inl rfl

def LiveReceipts (execution : Execution Details Correction FailedBundle World)
    (executions : List (LiveExecution Details Correction FailedBundle))
    (states : UInt64 → Option World) (number : UInt64) (receipts : List GethReceipt) : Prop :=
  ∃ live ∈ executions, live.number = number ∧
    ∃ state usedGas, states number = some state ∧
      (execution.applyBlock state live.inputs).2.2 = .ok (receipts, usedGas)

section Runs

variable [DecidableEq Details] [Inhabited Details]

/-- The archive reads its height without an error, and executes a block whose parent it has on
the state that the block was executed on. -/
structure FaithfulAnswers (execution : Execution Details Correction FailedBundle World)
    (traced : Traced Details Correction FailedBundle World) (answers : Answers)
    (verification : Verification) : Prop where
  height : answers.archiveHeight = .ok traced.system.archiveHeight
  receipts : ∀ archiveHeight item gethBlock state height,
    verification = .applying archiveHeight item gethBlock →
    traced.system.archiveHeight = some height →
    (numberU64 gethBlock).toNat ≤ height.toNat + 1 →
    traced.states (numberU64 gethBlock) = some state →
    answers.receipts = ((execution.applyBlock state
      (blockInputs execution traced.system.live.adapter.chainID
        traced.system.live.adapter.metadataStore gethBlock item.hashHistory
        true)).2.2.map Prod.fst).mapError .error

/-- The steps of the verifier beside a replay, where the receipts of a block are checked that
its execution gave, the verifier and the checks agree on whether to check them, and the archive
answers faithfully. -/
inductive FaithfulStep (execution : Execution Details Correction FailedBundle World)
    (options : Options) :
    Traced Details Correction FailedBundle World →
      Traced Details Correction FailedBundle World → Prop where
  | clone {traced : Traced Details Correction FailedBundle World} (block : ProtoBlock.Block)
      {gethBlock : GethBlock} (control : traced.system.live.control = .reading)
      (consecutive : block.number.toNat = traced.system.nextBlock)
      (converted : convertToGethBlock execution.geth (some block) = .ok gethBlock) :
      FaithfulStep execution options traced
        { traced with
          system := { traced.system with
            live := { traced.system.live with
              control := .cloned ⟨block, traced.system.live.adapter.blockHashHistory⟩
                gethBlock } } }
  | apply {traced : Traced Details Correction FailedBundle World} :
      FaithfulStep execution options traced
        ⟨{ traced.system with live := applyStep execution traced.system.live },
          recordState traced.system.live traced.states⟩
  | snapshot {traced : Traced Details Correction FailedBundle World}
      {adapter : StateChainAdapter Details Correction FailedBundle World}
      {item : BlockWithHashHistory} {gethBlock : GethBlock} {stateRoot : StateRoot}
      (control : traced.system.live.control = .applied item gethBlock)
      (snapshotted : maybeSnapshot execution traced.system.live.adapter (numberU64 gethBlock)
        (execution.getStateRoot traced.system.live.adapter.state) = (adapter, .ok stateRoot)) :
      FaithfulStep execution options traced
        { traced with
          system := { traced.system with
            live := { traced.system.live with adapter := adapter, control := .reading }
            nextBlock := traced.system.nextBlock + 1
            pending := traced.system.pending ++ [item] } }
  | submit {traced : Traced Details Correction FailedBundle World}
      {item : BlockWithHashHistory} {rest : List BlockWithHashHistory}
      {checks checks' : CheckState} {receipts : List GethReceipt} {stateRoot : StateRoot}
      {hashOfParentBlock : Hash} {block : ProtoBlock.Block} (random : Nat)
      (waiting : traced.system.pending = item :: rest)
      (checked : checkBlockResults execution.geth options.codec options.info checks item.block
        receipts stateRoot hashOfParentBlock = (checks', block, .ok ()))
      (agreed : checks.context.skipReceiptsCheck = options.noReceiptsCheck)
      (executed : item.block.number ≠ 0 →
        LiveReceipts execution traced.system.live.executions traced.states item.block.number
          receipts) :
      FaithfulStep execution options traced
        { traced with
          system := { traced.system with
            pending := rest
            pool := submit traced.system.pool ⟨block, item.hashHistory⟩ random } }
  | archive {traced : Traced Details Correction FailedBundle World} {height : UInt64}
      (grows : ∀ old, traced.system.archiveHeight = some old → old ≤ height) :
      FaithfulStep execution options traced
        { traced with system := { traced.system with archiveHeight := some height } }
  | spawn {traced : Traced Details Correction FailedBundle World}
      (room : traced.system.verifications.length < maxConcurrentVerifications) :
      FaithfulStep execution options traced
        { traced with
          system := { traced.system with
            verifications := traced.system.verifications ++ [.started] } }
  | verify {traced : Traced Details Correction FailedBundle World} (answers : Answers)
      (verification : Verification) (before after : List Verification)
      (running : traced.system.verifications = before ++ verification :: after)
      (faithful : FaithfulAnswers execution traced answers verification) :
      FaithfulStep execution options traced
        { traced with
          system := { traced.system with
            verifications := before ++ (verifyStep execution.geth options.noReceiptsCheck
              traced.system.pool answers verification).1.toList ++ after
            firstErr := traced.system.firstErr.or (verifyStep execution.geth
              options.noReceiptsCheck traced.system.pool answers verification).2 } }

theorem FaithfulStep.step {execution : Execution Details Correction FailedBundle World}
    {options : Options} {traced next : Traced Details Correction FailedBundle World}
    (step : FaithfulStep execution options traced next) :
    Step execution options traced.system next.system := by
  cases step with
  | clone block control consecutive converted => exact .clone block control consecutive converted
  | apply => exact .apply
  | snapshot control snapshotted => exact .snapshot control snapshotted
  | submit random waiting checked agreed executed => exact .submit random waiting checked
  | archive grows => exact .archive grows
  | spawn room => exact .spawn room
  | verify answers verification before after running faithful =>
      apply Step.verify answers verification before after running
      intro archiveHeight read
      rw [faithful.height] at read
      exact (Except.ok.inj read).symm

end Runs

/-! ## Conversions and checks -/

def Rerooted (before after : ProtoBlock.Block) : Prop :=
  ∃ stateRoot verkleStateRoot,
    after = { before with stateRoot := stateRoot, verkleStateRoot := verkleStateRoot }

theorem rerooted_refl (block : ProtoBlock.Block) : Rerooted block block :=
  ⟨block.stateRoot, block.verkleStateRoot, rfl⟩

theorem update_state_root_rerooted (chain : ChainInfo) (block : ProtoBlock.Block) (root : Hash) :
    Rerooted block (updateStateRoot chain block root) := by
  unfold updateStateRoot
  split_ifs
  · exact ⟨root.val, block.verkleStateRoot, rfl⟩
  · exact ⟨block.stateRoot, some root.val, rfl⟩
  · exact rerooted_refl block

theorem check_state_root_rerooted (codec : GoBlockDb.GoCodec) (chain : ChainInfo)
    (state : CheckState) (block : ProtoBlock.Block) (stateRoot : StateRoot) :
    Rerooted block (checkStateRoot codec chain state block stateRoot).2.1 := by
  cases stateRoot with
  | error err => exact rerooted_refl block
  | ok root =>
      rw [check_state_root_eq]
      split_ifs
      · have rerooted := update_state_root_rerooted chain block root
        unfold overwriteAndPersistStateRoot
        dsimp only
        split
        · exact rerooted
        · exact rerooted
      · rw [verify_keeps]
        exact rerooted_refl block

theorem passed_checks {geth : GethLibraries} {codec : GoBlockDb.GoCodec} {chain : ChainInfo}
    {state next : CheckState} {block block' : ProtoBlock.Block} {receipts : List GethReceipt}
    {stateRoot : StateRoot} {hashOfParentBlock : Hash}
    (checked : checkBlockResults geth codec chain state block receipts stateRoot
      hashOfParentBlock = (next, block', .ok ())) :
    Rerooted block block' ∧
      (state.context.skipReceiptsCheck = false → checkReceipts geth block receipts = .ok ()) := by
  have rerooted := check_state_root_rerooted codec chain state block stateRoot
  unfold checkBlockResults at checked
  dsimp only at checked
  split at checked
  · cases checked
  · rename_i accepted
    constructor
    · split at checked
      · cases checked
      · rename_i rooted
        rw [rooted] at rerooted
        simp only [Prod.mk.injEq] at checked
        rw [← checked.2.1]
        exact rerooted
    · intro wanted
      rw [wanted, if_neg Bool.false_ne_true] at accepted
      exact accepted

theorem check_receipts_rerooted {before after : ProtoBlock.Block}
    (rerooted : Rerooted before after) (geth : GethLibraries) (receipts : List GethReceipt) :
    checkReceipts geth after receipts = checkReceipts geth before receipts := by
  rcases rerooted with ⟨stateRoot, verkleStateRoot, same⟩
  rw [same]
  rfl

theorem convert_rerooted {geth : GethLibraries} {before after : ProtoBlock.Block}
    (rerooted : Rerooted before after) {gethBlock : GethBlock}
    (converted : convertToGethBlock geth (some before) = .ok gethBlock) :
    ∃ root, convertToGethBlock geth (some after) = .ok (withRoot gethBlock root) := by
  rcases rerooted with ⟨stateRoot, verkleStateRoot, same⟩
  rcases Conversion.bind_eq_ok.mp converted with ⟨transactions, transactionsRead, rest⟩
  rcases Conversion.bind_eq_ok.mp rest with ⟨receipts, receiptsRead, built⟩
  cases built
  refine ⟨bytesToFixed 32 stateRoot, ?_⟩
  rw [same]
  exact Conversion.bind_eq_ok.mpr ⟨transactions, transactionsRead,
    Conversion.bind_eq_ok.mpr ⟨receipts, receiptsRead, rfl⟩⟩

theorem verify_step_converted {geth : GethLibraries} {noReceiptsCheck : Bool}
    {pool : RandomRetentionPool BlockWithHashHistory} {answers : Answers}
    {verification : Verification} {archiveHeight : UInt64} {item : BlockWithHashHistory}
    {gethBlock : GethBlock}
    (stepped : (verifyStep geth noReceiptsCheck pool answers verification).1 =
      some (.applying archiveHeight item gethBlock)) :
    item ∈ pool.items ∧ convertToGethBlock geth (some item.block) = .ok gethBlock := by
  have pooled := (verify_step_applying stepped).1
  refine ⟨pooled, ?_⟩
  unfold verifyStep at stepped
  split at stepped
  · split at stepped
    · cases stepped
    · cases stepped
    · cases stepped
  · cases stepped
  · split at stepped
    · cases stepped
    · split at stepped
      · cases stepped
      · split at stepped
        · cases stepped
        · rename_i converted
          cases stepped
          exact converted
  · split at stepped
    · cases stepped
    · split at stepped
      · cases stepped
      · split at stepped
        · cases stepped
        · cases stepped

/-! ## What holds along a faithful run -/

variable {execution : Execution Details Correction FailedBundle World}

/-- A block converts to the one that its live execution was given, up to the root. -/
def Matches (geth : GethLibraries)
    (executions : List (LiveExecution Details Correction FailedBundle))
    (block : ProtoBlock.Block) : Prop :=
  ∀ live ∈ executions, live.number = block.number →
    ∃ root, convertToGethBlock geth (some block) = .ok (withRoot live.inputs.block root)

/-- A block whose stored receipts are the ones of its live execution, if they are looked at. -/
structure Confirmed (execution : Execution Details Correction FailedBundle World)
    (noReceiptsCheck : Bool) (executions : List (LiveExecution Details Correction FailedBundle))
    (states : UInt64 → Option World) (block : ProtoBlock.Block) : Prop where
  matched : Matches execution.geth executions block
  receipts : ∃ receipts, LiveReceipts execution executions states block.number receipts ∧
    (noReceiptsCheck = false → checkReceipts execution.geth block receipts = .ok ())

def ControlMatches (geth : GethLibraries)
    (executions : List (LiveExecution Details Correction FailedBundle)) : Control → Prop
  | .cloned item gethBlock | .committed item gethBlock =>
      convertToGethBlock geth (some item.block) = .ok gethBlock
  | .reporting item _ _ _ | .applied item _ => Matches geth executions item.block
  | _ => True

/-- The invariant of a faithful run. -/
structure Unalarmed (execution : Execution Details Correction FailedBundle World)
    (noReceiptsCheck : Bool) (traced : Traced Details Correction FailedBundle World) :
    Prop where
  control : ControlMatches execution.geth traced.system.live.executions
    traced.system.live.control
  pending : ∀ item ∈ traced.system.pending,
    Matches execution.geth traced.system.live.executions item.block
  pool : ∀ item ∈ traced.system.pool.items,
    Confirmed execution noReceiptsCheck traced.system.live.executions traced.states item.block
  verifications : ∀ archiveHeight item gethBlock,
    .applying archiveHeight item gethBlock ∈ traced.system.verifications →
    convertToGethBlock execution.geth (some item.block) = .ok gethBlock ∧
      Confirmed execution noReceiptsCheck traced.system.live.executions traced.states item.block
  silent : traced.system.firstErr = none

section Execution

variable {executions : List (LiveExecution Details Correction FailedBundle)} {nextBlock : Nat}
  {block : ProtoBlock.Block}

theorem Matches.append {geth : GethLibraries} (matched : Matches geth executions block)
    {added : LiveExecution Details Correction FailedBundle} (other : added.number ≠ block.number) :
    Matches geth (executions ++ [added]) block := by
  unfold Matches
  rw [List.forall_mem_append, List.forall_mem_singleton]
  exact ⟨matched, fun same => absurd same other⟩

theorem submitted_confirmed {noReceiptsCheck : Bool}
    {executions : List (LiveExecution Details Correction FailedBundle)}
    {states : UInt64 → Option World} {codec : GoBlockDb.GoCodec} {chain : ChainInfo}
    {checks checks' : CheckState} {block checkedBlock : ProtoBlock.Block}
    {receipts : List GethReceipt} {stateRoot : StateRoot} {hashOfParentBlock : Hash}
    (matched : Matches execution.geth executions block)
    (executed : LiveReceipts execution executions states block.number receipts)
    (agreed : checks.context.skipReceiptsCheck = noReceiptsCheck)
    (checked : checkBlockResults execution.geth codec chain checks block receipts stateRoot
      hashOfParentBlock = (checks', checkedBlock, .ok ())) :
    Confirmed execution noReceiptsCheck executions states checkedBlock := by
  rcases passed_checks checked with ⟨rerooted, accepted⟩
  have number := check_block_results_number execution.geth codec chain checks block receipts
    stateRoot hashOfParentBlock
  rw [checked] at number
  dsimp only at number
  constructor
  · intro live member isBlock
    rcases matched live member (isBlock.trans number) with ⟨root, converted⟩
    rcases convert_rerooted rerooted converted with ⟨newRoot, again⟩
    exact ⟨newRoot, again⟩
  · refine ⟨receipts, ?_, ?_⟩
    · rw [number]
      exact executed
    · intro wanted
      rw [check_receipts_rerooted rerooted]
      exact accepted (agreed.trans wanted)

/-- What a step of the live side may add to the trace. -/
structure Extends (nextBlock : Nat) (traced next : Traced Details Correction FailedBundle World) :
    Prop where
  executions : next.system.live.executions = traced.system.live.executions ∨
    ∃ live, live.number.toNat = nextBlock ∧
      next.system.live.executions = traced.system.live.executions ++ [live]
  states : ∀ number : UInt64, number.toNat < nextBlock →
    next.states number = traced.states number

variable {traced next : Traced Details Correction FailedBundle World}

theorem Extends.matched {geth : GethLibraries} (extended : Extends nextBlock traced next)
    (before : block.number.toNat < nextBlock)
    (matched : Matches geth traced.system.live.executions block) :
    Matches geth next.system.live.executions block := by
  rcases extended.executions with same | ⟨live, isNext, added⟩
  · rw [same]
    exact matched
  · rw [added]
    apply matched.append
    intro same
    rw [same] at isNext
    omega

theorem Extends.confirmed {noReceiptsCheck : Bool} (extended : Extends nextBlock traced next)
    (before : block.number.toNat < nextBlock)
    (confirmed : Confirmed execution noReceiptsCheck traced.system.live.executions traced.states
      block) :
    Confirmed execution noReceiptsCheck next.system.live.executions next.states block := by
  rcases confirmed with ⟨matched, receipts, ⟨live, member, number, state, usedGas, recorded,
    executed⟩, checked⟩
  refine ⟨extended.matched before matched, receipts, ⟨live, ?_, number, state, usedGas, ?_,
    executed⟩, checked⟩
  · rcases extended.executions with same | ⟨_, -, added⟩
    · rw [same]
      exact member
    · rw [added]
      exact List.mem_append_left _ member
  · rw [extended.states block.number before]
    exact recorded

theorem Unalarmed.extended [Inhabited Details] {noReceiptsCheck : Bool} {genesis : Rules Details}
    (unalarmed : Unalarmed execution noReceiptsCheck traced)
    (invariant : Invariant execution genesis traced.system)
    (extended : Extends traced.system.nextBlock traced next)
    (control : ControlMatches execution.geth next.system.live.executions
      next.system.live.control)
    (pending : next.system.pending = traced.system.pending)
    (pool : next.system.pool = traced.system.pool)
    (verifications : next.system.verifications = traced.system.verifications)
    (firstErr : next.system.firstErr = traced.system.firstErr) :
    Unalarmed execution noReceiptsCheck next := by
  constructor
  · exact control
  · intro item waiting
    rw [pending] at waiting
    exact extended.matched (invariant.pending item waiting).1 (unalarmed.pending item waiting)
  · intro item pooled
    rw [pool] at pooled
    exact extended.confirmed (invariant.pool item pooled).2.1 (unalarmed.pool item pooled)
  · intro archiveHeight item gethBlock running
    rw [verifications] at running
    rcases unalarmed.verifications archiveHeight item gethBlock running with
      ⟨converted, confirmed⟩
    have retained := (invariant.verifications archiveHeight item gethBlock running).retained
    exact ⟨converted, extended.confirmed retained.1 confirmed⟩
  · rw [firstErr]
    exact unalarmed.silent

end Execution

theorem upgrades_up_to {early late : MetadataStore Details Correction FailedBundle}
    {number : UInt64} (same : SameLookups early late number) :
    (getUpgradeHeights late).filter (fun entry => decide (entry.height ≤ number)) =
      (getUpgradeHeights early).filter (fun entry => decide (entry.height ≤ number)) := by
  have read : ∀ store : MetadataStore Details Correction FailedBundle,
      (getUpgradeHeights store).filter (fun entry => decide (entry.height ≤ number)) =
        (store.rulesUpdateHeights.filter
          (fun entry => decide (entry.height ≤ number.toNat))).map
            fun entry => ⟨entry.block, entry.rules.upgrades⟩ := by
    intro store
    rw [getUpgradeHeights, List.filter_map]
    rfl
  rw [read, read, same.heights]

section Steps

variable [Inhabited Details] {genesis : Rules Details}
  {options : Options} {traced next : Traced Details Correction FailedBundle World}

theorem archive_inputs_same (invariant : Invariant execution genesis traced.system)
    {archiveHeight : UInt64} {item : BlockWithHashHistory} {gethBlock : GethBlock}
    (running : .applying archiveHeight item gethBlock ∈ traced.system.verifications)
    (converted : convertToGethBlock execution.geth (some item.block) = .ok gethBlock)
    {live : LiveExecution Details Correction FailedBundle}
    (member : live ∈ traced.system.live.executions) (isBlock : live.number = item.block.number)
    (matched : Matches execution.geth traced.system.live.executions item.block) :
    SameInputs live.inputs (blockInputs execution traced.system.live.adapter.chainID
      traced.system.live.adapter.metadataStore gethBlock item.hashHistory true) := by
  have eligible := invariant.verifications archiveHeight item gethBlock running
  have number : live.number = numberU64 gethBlock := isBlock.trans eligible.converted.symm
  rcases invariant.lookups eligible member number with
    ⟨history, same, rules, corrections, failedBundles⟩
  rcases matched live member isBlock with ⟨root, again⟩
  cases converted.symm.trans again
  have inputs := invariant.live.inputs live member
  constructor
  · exact ⟨root, rfl⟩
  · exact history
  · cases forks : execution.ethereumForks traced.system.live.adapter.chainID with
    | none =>
        rw [← rules forks, ← same.rules, blockInputs, getChainConfigAndRules, forks]
    | some forksAt =>
        rw [inputs, blockInputs, blockInputs, getChainConfigAndRules, getChainConfigAndRules,
          forks]
        rfl
  · rw [← corrections, blockInputs, getCorrectionsAtBlock, getCorrectionsAtBlock,
      same.corrections]
  · rw [← failedBundles, blockInputs, getFailedBundlesAtBlock, getFailedBundlesAtBlock,
      same.failedBundles]
  · cases forks : execution.ethereumForks traced.system.live.adapter.chainID with
    | none =>
        rw [inputs, blockInputs, blockInputs, getChainConfigAndRules, getChainConfigAndRules,
          forks]
        exact .transient _ _ (upgrades_up_to same)
    | some forksAt =>
        rw [inputs, blockInputs, blockInputs, getChainConfigAndRules, getChainConfigAndRules,
          forks]
        exact .ethereum _

theorem faithful_receipts (reexecutes : Reexecutes execution)
    (invariant : Invariant execution genesis traced.system)
    {archiveHeight : UInt64} {item : BlockWithHashHistory} {gethBlock : GethBlock}
    (running : .applying archiveHeight item gethBlock ∈ traced.system.verifications)
    (converted : convertToGethBlock execution.geth (some item.block) = .ok gethBlock)
    (matched : Matches execution.geth traced.system.live.executions item.block)
    {receipts : List GethReceipt}
    (executed : LiveReceipts execution traced.system.live.executions traced.states
      item.block.number receipts) {answers : Answers}
    (faithful : FaithfulAnswers execution traced answers (.applying archiveHeight item gethBlock)) :
    answers.receipts = .ok receipts := by
  rcases executed with ⟨live, member, isBlock, state, usedGas, recorded, succeeded⟩
  have eligible := invariant.verifications archiveHeight item gethBlock running
  rcases invariant.heights _ running archiveHeight rfl with ⟨height, isHeight, reached⟩
  have parent : (numberU64 gethBlock).toNat ≤ height.toNat + 1 := by
    have inArchive := eligible.inArchive
    have grown := UInt64.le_iff_toNat_le.mp reached
    rw [eligible.converted]
    omega
  rw [← eligible.converted] at recorded
  have same := archive_inputs_same invariant running converted member isBlock matched
  have live_ : live.inputs.isArchive = false := by
    rw [invariant.live.inputs live member]
    rfl
  have again := reexecutes state _ _ receipts usedGas live_ rfl same succeeded
  rw [faithful.receipts archiveHeight item gethBlock state height rfl isHeight parent recorded,
    again]
  rfl

theorem verify_step_silent (reexecutes : Reexecutes execution)
    (invariant : Invariant execution genesis traced.system)
    (unalarmed : Unalarmed execution options.noReceiptsCheck traced) {answers : Answers}
    {verification : Verification} (member : verification ∈ traced.system.verifications)
    (faithful : FaithfulAnswers execution traced answers verification) :
    (verifyStep execution.geth options.noReceiptsCheck traced.system.pool answers
      verification).2 = none := by
  cases verification with
  | started =>
      rw [verifyStep, faithful.height]
      cases traced.system.archiveHeight with
      | none => rfl
      | some height => rfl
  | drawing archiveHeight attemptsLeft =>
      cases attemptsLeft with
      | zero => rfl
      | succ attemptsLeft =>
          rw [verifyStep]
          cases drawn : traced.system.pool.getRandom answers.random with
          | none => rfl
          | some entry =>
              have pooled := RandomRetentionPool.mem_of_get_random drawn
              have confirmed := unalarmed.pool entry pooled
              rcases (invariant.pool entry pooled).2.2 (invariant.pool entry pooled).1 with
                ⟨⟨live, executed, isBlock⟩, -⟩
              rcases confirmed.matched live executed isBlock with ⟨root, converted⟩
              dsimp only
              rw [converted]
              split_ifs
              · rfl
              · rfl
  | applying archiveHeight item gethBlock =>
      rcases unalarmed.verifications archiveHeight item gethBlock member with
        ⟨converted, matched, receipts, executed, checked⟩
      rw [verifyStep, faithful_receipts reexecutes invariant member converted matched executed
        faithful]
      dsimp only
      cases wanted : options.noReceiptsCheck with
      | true => rfl
      | false =>
          rw [checked wanted]
          rfl

variable [DecidableEq Details]

/-- While a block is being applied, its only execution is the one it has just got. -/
theorem apply_step_matches {nextBlock : Nat}
    {side : LiveSide Details Correction FailedBundle World}
    (invariant : LiveInvariant execution genesis nextBlock side)
    (control : ControlMatches execution.geth side.executions side.control) :
    ControlMatches execution.geth (applyStep execution side).executions
      (applyStep execution side).control := by
  have controlled := invariant.control
  have unexecuted : ∀ {block : ProtoBlock.Block}, (∀ live ∈ side.executions,
      live.number.toNat < nextBlock) → block.number.toNat = nextBlock →
      ∀ live ∈ side.executions, live.number ≠ block.number := by
    intro block fresh isNext live member same
    have before := fresh live member
    rw [same, isNext] at before
    exact absurd before (lt_irrefl _)
  unfold applyStep
  dsimp only
  split
  · rename_i item gethBlock cloned
    rw [cloned] at controlled control
    rcases controlled with ⟨fresh, isNext, -, -⟩
    split
    · exact fun live member same => absurd same (unexecuted fresh isNext live member)
    · split
      · trivial
      · exact control
  · rename_i item gethBlock committed
    rw [committed] at controlled control
    rcases controlled with ⟨fresh, isNext, -, -⟩
    dsimp only [ControlMatches, Matches]
    rw [List.forall_mem_append, List.forall_mem_singleton]
    constructor
    · exact fun live member same => absurd same (unexecuted fresh isNext live member)
    · exact fun _ => ⟨gethBlock.header.root, control⟩
  · rename_i item gethBlock log logs outcome reporting
    rw [reporting] at control
    split
    · trivial
    · exact control
  · trivial
  · rename_i item gethBlock receipts usedGas reporting
    rw [reporting] at control
    exact control
  · exact control

theorem apply_step_extends (invariant : Invariant execution genesis traced.system) :
    Extends traced.system.nextBlock traced
      ⟨{ traced.system with live := applyStep execution traced.system.live },
        recordState traced.system.live traced.states⟩ := by
  constructor
  · exact apply_step_executions invariant.live
  · intro number before
    have controlled := invariant.live.control
    rcases record_state_cases traced.system.live traced.states with
      same | ⟨item, gethBlock, committed, recorded⟩
    · rw [same]
    · rw [committed] at controlled
      rcases controlled with ⟨-, isNext, sameNumber, -⟩
      rw [recorded]
      apply Function.update_of_ne
      intro same
      rw [same, sameNumber, isNext] at before
      exact absurd before (lt_irrefl _)

theorem faithful_step_unalarmed (reexecutes : Reexecutes execution)
    (invariant : Invariant execution genesis traced.system)
    (unalarmed : Unalarmed execution options.noReceiptsCheck traced)
    (step : FaithfulStep execution options traced next) :
    Unalarmed execution options.noReceiptsCheck next := by
  cases step with
  | clone block control consecutive converted =>
      exact ⟨converted, unalarmed.pending, unalarmed.pool, unalarmed.verifications,
        unalarmed.silent⟩
  | apply =>
      have control := apply_step_matches invariant.live unalarmed.control
      exact unalarmed.extended invariant (apply_step_extends invariant) control rfl rfl rfl rfl
  | @snapshot adapter item gethBlock stateRoot control snapshotted =>
      have matched := unalarmed.control
      rw [control] at matched
      refine ⟨trivial, ?_, unalarmed.pool, unalarmed.verifications, unalarmed.silent⟩
      rw [List.forall_mem_append, List.forall_mem_singleton]
      exact ⟨unalarmed.pending, matched⟩
  | @submit item rest checks checks' receipts stateRoot hashOfParentBlock block random waiting
      checked agreed executed =>
      have pending := unalarmed.pending
      rw [waiting, List.forall_mem_cons] at pending
      refine ⟨unalarmed.control, pending.2, ?_, unalarmed.verifications, unalarmed.silent⟩
      intro pooled member
      dsimp only [submit] at member
      split at member
      · rename_i positive
        rcases RandomRetentionPool.mem_add member with isNew | old
        · have number := check_block_results_number execution.geth options.codec options.info
            checks item.block receipts stateRoot hashOfParentBlock
          rw [checked] at number
          have live := executed (number ▸ UInt64.pos_iff_ne_zero.mp positive)
          rw [isNew]
          exact submitted_confirmed pending.1 live agreed checked
        · exact unalarmed.pool pooled old
      · exact unalarmed.pool pooled member
  | archive grows =>
      exact ⟨unalarmed.control, unalarmed.pending, unalarmed.pool, unalarmed.verifications,
        unalarmed.silent⟩
  | spawn room =>
      refine ⟨unalarmed.control, unalarmed.pending, unalarmed.pool, ?_, unalarmed.silent⟩
      intro archiveHeight item gethBlock running
      rw [List.mem_append, List.mem_singleton] at running
      rcases running with old | isNew
      · exact unalarmed.verifications archiveHeight item gethBlock old
      · cases isNew
  | verify answers verification before after running faithful =>
      have member : verification ∈ traced.system.verifications := by
        rw [running]
        exact List.mem_append_right before List.mem_cons_self
      have silent := verify_step_silent reexecutes invariant unalarmed member faithful
      have old := unalarmed.verifications
      rw [running] at old
      refine ⟨unalarmed.control, unalarmed.pending, unalarmed.pool, ?_, ?_⟩
      · intro archiveHeight item gethBlock later
        rw [List.mem_append, List.mem_append, Option.mem_toList] at later
        rcases later with (earlier | stepped) | later
        · exact old archiveHeight item gethBlock (List.mem_append_left _ earlier)
        · rcases verify_step_converted stepped with ⟨pooled, converted⟩
          exact ⟨converted, unalarmed.pool item pooled⟩
        · exact old archiveHeight item gethBlock
            (List.mem_append_right _ (List.mem_cons_of_mem _ later))
      · dsimp only
        rw [silent, unalarmed.silent]
        rfl

end Steps

def startTraced (adapter : StateChainAdapter Details Correction FailedBundle World)
    (startBlock : UInt64) (archiveHeight : Option UInt64) :
    Traced Details Correction FailedBundle World :=
  ⟨startSystem adapter startBlock archiveHeight, fun _ => none⟩

section Alarms

variable [DecidableEq Details] [Inhabited Details] {genesis : Rules Details}
  {options : Options} {adapter : StateChainAdapter Details Correction FailedBundle World}
  {startBlock : UInt64} {startHeight : Option UInt64}
  {traced : Traced Details Correction FailedBundle World}

theorem faithful_run_reaches
    (run : Relation.ReflTransGen (FaithfulStep execution options)
      (startTraced adapter startBlock startHeight) traced) :
    Relation.ReflTransGen (Step execution options) (startSystem adapter startBlock startHeight)
      traced.system := by
  induction run with
  | refl => exact .refl
  | tail _ step ih => exact ih.tail step.step

theorem faithful_run_unalarmed (reexecutes : Reexecutes execution)
    (grounded : Grounded genesis adapter.metadataStore.rulesUpdateHeights)
    (run : Relation.ReflTransGen (FaithfulStep execution options)
      (startTraced adapter startBlock startHeight) traced) :
    Unalarmed execution options.noReceiptsCheck traced := by
  induction run with
  | refl =>
      constructor
      · trivial
      · exact fun _ waiting => absurd waiting List.not_mem_nil
      · exact fun _ pooled => absurd pooled List.not_mem_nil
      · exact fun _ _ _ running => absurd running List.not_mem_nil
      · rfl
  | tail earlier step ih =>
      have invariant := reachable_invariant grounded (faithful_run_reaches earlier)
      exact faithful_step_unalarmed reexecutes invariant ih step

/-- As long as the archive answers faithfully, no verification reports an error, whatever the
order in which blocks are applied, checked, written back and submitted, rules are committed,
the archive grows and blocks are drawn. -/
theorem faithful_archive_no_alarm {db : BlockDb.KvDb} {writeRulesHeights : Bool}
    (created : newBlockDBMetadataStore execution.metadata db genesis writeRulesHeights =
      .ok adapter.metadataStore)
    (reexecutes : Reexecutes execution)
    (run : Relation.ReflTransGen (FaithfulStep execution options)
      (startTraced adapter startBlock startHeight) traced) :
    traced.system.firstErr = none :=
  (faithful_run_unalarmed reexecutes (created_grounded created) run).silent

end Alarms

theorem plain_reexecutes : Reexecutes plainExecution :=
  fun _ _ _ _ _ _ _ _ succeeded => succeeded

/-- Block 1 is applied, checked and submitted, the archive reaches block 0, block 1 is drawn and
executed once more, and the verification ends. -/
theorem faithful_archive_no_alarm_plain :
    ∃ traced, Relation.ReflTransGen (FaithfulStep plainExecution plainOptions)
      (startTraced (plainAdapter .empty) 1 none) traced ∧
      traced.system.verifications = [] ∧ traced.system.pool.items.length = 1 ∧
      traced.system.firstErr = none := by
  let item : BlockWithHashHistory := ⟨GoBlockDb.numberOnly 1, .empty⟩
  let start := startTraced (plainAdapter .empty) 1 none
  let cloned := { start with system := { start.system with
    live := { start.system.live with control := .cloned item (plainBlock 1) } } }
  let committed : Traced _ _ _ _ := ⟨{ cloned.system with
    live := applyStep plainExecution cloned.system.live },
    recordState cloned.system.live cloned.states⟩
  let executed : Traced _ _ _ _ := ⟨{ committed.system with
    live := applyStep plainExecution committed.system.live },
    recordState committed.system.live committed.states⟩
  let applied : Traced _ _ _ _ := ⟨{ executed.system with
    live := applyStep plainExecution executed.system.live },
    recordState executed.system.live executed.states⟩
  let snapshotted := { applied with system := { applied.system with
    live := { applied.system.live with control := .reading }
    nextBlock := 2
    pending := [item] } }
  let submitted := { snapshotted with system := { snapshotted.system with
    pending := []
    pool := submit snapshotted.system.pool item 0 } }
  let archived := { submitted with system := { submitted.system with
    archiveHeight := some 0 } }
  let spawned := { archived with system := { archived.system with
    verifications := [.started] } }
  let drawing := { spawned with system := { spawned.system with
    verifications := [.drawing 0 attempts] } }
  let applying := { drawing with system := { drawing.system with
    verifications := [.applying 0 item (plainBlock 1)] } }
  let verified := { applying with system := { applying.system with verifications := [] } }
  let answers : Answers := ⟨.ok (some 0), 0, .ok []⟩
  have clones : FaithfulStep plainExecution plainOptions start cloned := .clone _ rfl rfl rfl
  have takes : FaithfulStep plainExecution plainOptions applied snapshotted := .snapshot rfl rfl
  have submits : FaithfulStep plainExecution plainOptions snapshotted submitted :=
    @FaithfulStep.submit _ _ _ _ _ _ _ _ _ item [] plainChecks _ [] (.ok default) default
      item.block 0 rfl rfl rfl (fun _ => ⟨_, List.mem_singleton_self _, rfl, _, _, rfl, rfl⟩)
  have archives : FaithfulStep plainExecution plainOptions submitted archived :=
    .archive fun _ isOld => nomatch (isOld : none = some _)
  have spawns : FaithfulStep plainExecution plainOptions archived spawned := .spawn (by decide)
  have reads : FaithfulStep plainExecution plainOptions spawned drawing :=
    .verify answers .started [] [] rfl ⟨rfl, fun _ _ _ _ _ other => by cases other⟩
  have draws : FaithfulStep plainExecution plainOptions drawing applying :=
    .verify answers (.drawing 0 attempts) [] [] rfl ⟨rfl, fun _ _ _ _ _ other => by cases other⟩
  have ends : FaithfulStep plainExecution plainOptions applying verified :=
    .verify answers (.applying 0 item (plainBlock 1)) [] [] rfl
      ⟨rfl, fun _ _ _ _ _ _ _ _ _ => rfl⟩
  have run : Relation.ReflTransGen (FaithfulStep plainExecution plainOptions) start verified :=
    (((((((((((Relation.ReflTransGen.refl.tail clones).tail .apply).tail .apply).tail .apply).tail
      takes).tail submits).tail archives).tail spawns).tail reads).tail draws).tail ends)
  exact ⟨verified, run, rfl, rfl,
    faithful_archive_no_alarm (plain_created false) plain_reexecutes run⟩

end Bertha.ArchiveAlarms
