import Bertha.ArchiveVerifier

/-!
# The inputs of an archive execution

Whenever the verifier applies a block on the archive state, the lookups it makes give what the
live execution of that block used. Later blocks only commit rules for the blocks after them,
and the hash history of a block is a copy taken before it was applied.
-/

namespace Bertha.ArchiveInputs

open Bertha.ArchiveVerifier Bertha.ChainAdapter Bertha.Checks Bertha.GethBlocks
open Bertha.GethConvert Bertha.HashHistory Bertha.Replay Bertha.RulesHistory Bertha.RulesStore

set_option autoImplicit false

variable {Details Correction FailedBundle World : Type}

structure SameLookups (before after : MetadataStore Details Correction FailedBundle)
    (number : UInt64) : Prop where
  heights : after.rulesUpdateHeights.filter
      (fun entry => decide (entry.height ≤ number.toNat)) =
    before.rulesUpdateHeights.filter (fun entry => decide (entry.height ≤ number.toNat))
  corrections : after.corrections = before.corrections
  failedBundles : after.failedBundles = before.failedBundles

section Lookups

variable {before after store : MetadataStore Details Correction FailedBundle} {number : UInt64}

theorem SameLookups.rules [Inhabited Details] (same : SameLookups before after number) :
    getRulesAtBlock after number = getRulesAtBlock before number :=
  rules_at_block_of_filter _ same.heights

variable [DecidableEq Details]
variable {libraries : Libraries Details Correction FailedBundle} {genesis : Rules Details}

theorem SameLookups.call (same : SameLookups before store number)
    (grounded : Grounded genesis store.rulesUpdateHeights) {call : RulesCall}
    (later : number ≤ call.blockNumber) :
    SameLookups before (applyCall libraries store call).1 number := by
  obtain ⟨corrections, failedBundles, _⟩ := apply_call_metadata libraries store call
  exact {
    heights := (apply_call_filter grounded later).trans same.heights
    corrections := corrections.trans same.corrections
    failedBundles := failedBundles.trans same.failedBundles }

def ChangedAt (libraries : Libraries Details Correction FailedBundle) (number : UInt64)
    (before after : MetadataStore Details Correction FailedBundle) : Prop :=
  after = before ∨
    ∃ call : RulesCall, call.blockNumber = number ∧ after = (applyCall libraries before call).1

theorem ChangedAt.grounded (changed : ChangedAt libraries number before after)
    (grounded : Grounded genesis before.rulesUpdateHeights) :
    Grounded genesis after.rulesUpdateHeights := by
  rcases changed with same | ⟨call, _, called⟩
  · rw [same]
    exact grounded
  · rw [called]
    exact apply_call_grounded grounded call

theorem ChangedAt.same_lookups {earlier : MetadataStore Details Correction FailedBundle}
    {limit : UInt64} (changed : ChangedAt libraries number before after)
    (grounded : Grounded genesis before.rulesUpdateHeights) (later : limit ≤ number)
    (same : SameLookups earlier before limit) : SameLookups earlier after limit := by
  rcases changed with unchanged | ⟨call, isNumber, called⟩
  · rw [unchanged]
    exact same
  · rw [called]
    exact same.call grounded (by rw [isNumber]; exact later)

theorem commit_if_sealing_changed (execution : Execution Details Correction FailedBundle World)
    (store : MetadataStore Details Correction FailedBundle) (block : GethBlock) :
    ChangedAt execution.metadata (numberU64 block) store
      (commitIfSealing execution store block).1 := by
  unfold commitIfSealing
  split
  · exact Or.inl rfl
  · split
    · apply Or.inr
      exact ⟨.commit (numberU64 block), rfl, rfl⟩
    · exact Or.inl rfl

theorem on_new_log_changed {execution : Execution Details Correction FailedBundle World}
    {log : GethLog} (reported : onNewLog execution before number log = .ok after) :
    ChangedAt execution.metadata number before after := by
  unfold onNewLog at reported
  split at reported
  · split at reported
    · cases reported
    · cases reported
      exact Or.inl rfl
    · rename_i diff _
      cases reported
      apply Or.inr
      exact ⟨.patch number diff, rfl, rfl⟩
  · cases reported
    exact Or.inl rfl

end Lookups

/-- The block of an item was executed, with the hash history of the item. -/
def Recorded (executions : List (LiveExecution Details Correction FailedBundle))
    (item : BlockWithHashHistory) : Prop :=
  (∃ live ∈ executions, live.number = item.block.number) ∧
    ∀ live ∈ executions, live.number = item.block.number →
      live.inputs.hashHistory = item.hashHistory

def Retained (executions : List (LiveExecution Details Correction FailedBundle))
    (nextBlock : Nat) (item : BlockWithHashHistory) : Prop :=
  item.block.number.toNat < nextBlock ∧ (item.block.number ≠ 0 → Recorded executions item)

/-- What holds at each point of the application of block `nextBlock`. -/
def ControlInvariant (history : BlockHashHistory)
    (executions : List (LiveExecution Details Correction FailedBundle)) (nextBlock : Nat) :
    Control → Prop
  | .reading => ∀ live ∈ executions, live.number.toNat < nextBlock
  | .cloned item gethBlock | .committed item gethBlock =>
      (∀ live ∈ executions, live.number.toNat < nextBlock) ∧
        item.block.number.toNat = nextBlock ∧ numberU64 gethBlock = item.block.number ∧
        item.hashHistory = history
  | .reporting item gethBlock _ _ =>
      item.block.number.toNat = nextBlock ∧ numberU64 gethBlock = item.block.number ∧
        Recorded executions item
  | .applied item _ =>
      item.block.number.toNat = nextBlock ∧ (item.block.number ≠ 0 → Recorded executions item)
  | .stopped _ => True

section Invariants

variable [Inhabited Details]
variable {execution : Execution Details Correction FailedBundle World}
variable {genesis : Rules Details}

structure LiveInvariant (execution : Execution Details Correction FailedBundle World)
    (genesis : Rules Details) (nextBlock : Nat)
    (side : LiveSide Details Correction FailedBundle World) : Prop where
  grounded : Grounded genesis side.adapter.metadataStore.rulesUpdateHeights
  unchanged : ∀ live ∈ side.executions,
    SameLookups live.metadata side.adapter.metadataStore live.number
  inputs : ∀ live ∈ side.executions, live.inputs = blockInputs execution side.adapter.chainID
    live.metadata live.inputs.block live.inputs.hashHistory false
  bounded : ∀ live ∈ side.executions, live.number.toNat ≤ nextBlock
  control : ControlInvariant side.adapter.blockHashHistory side.executions nextBlock side.control

theorem LiveInvariant.executed {nextBlock : Nat}
    {side : LiveSide Details Correction FailedBundle World} {item : BlockWithHashHistory}
    {gethBlock : GethBlock} {state : World} {logs : List GethLog}
    {outcome : Except String (List GethReceipt × UInt64)}
    (invariant : LiveInvariant execution genesis nextBlock side)
    (control : side.control = .committed item gethBlock) :
    LiveInvariant execution genesis nextBlock
      ⟨{ side.adapter with state := state }, .reporting item gethBlock logs outcome,
        side.executions ++ [⟨side.adapter.metadataStore, blockInputs execution
          side.adapter.chainID side.adapter.metadataStore gethBlock
          side.adapter.blockHashHistory false⟩]⟩ := by
  have controlled := invariant.control
  rw [control] at controlled
  obtain ⟨fresh, isNext, sameNumber, sameHistory⟩ := controlled
  refine ⟨invariant.grounded, ?_, ?_, ?_, isNext, sameNumber, ?_, ?_⟩
  · rw [List.forall_mem_append, List.forall_mem_singleton]
    exact ⟨invariant.unchanged, rfl, rfl, rfl⟩
  · rw [List.forall_mem_append, List.forall_mem_singleton]
    exact ⟨invariant.inputs, rfl⟩
  · rw [List.forall_mem_append, List.forall_mem_singleton]
    refine ⟨invariant.bounded, ?_⟩
    rw [← isNext, ← sameNumber]
    exact le_refl _
  · exact ⟨_, List.mem_append_right _ (List.mem_singleton_self _), sameNumber⟩
  · rw [List.forall_mem_append, List.forall_mem_singleton]
    refine ⟨?_, fun _ => sameHistory.symm⟩
    intro live executed same
    have before := fresh live executed
    rw [same, isNext] at before
    exact absurd before (lt_irrefl _)

variable [DecidableEq Details]

theorem LiveInvariant.changed {nextBlock : Nat}
    {side : LiveSide Details Correction FailedBundle World}
    {store : MetadataStore Details Correction FailedBundle} {number : UInt64} {control : Control}
    (invariant : LiveInvariant execution genesis nextBlock side)
    (changed : ChangedAt execution.metadata number side.adapter.metadataStore store)
    (isNext : number.toNat = nextBlock)
    (controlled : ControlInvariant side.adapter.blockHashHistory side.executions nextBlock
      control) :
    LiveInvariant execution genesis nextBlock
      { side with
        adapter := { side.adapter with metadataStore := store }
        control := control } := by
  refine ⟨changed.grounded invariant.grounded, ?_, invariant.inputs, invariant.bounded,
    controlled⟩
  intro live executed
  apply changed.same_lookups invariant.grounded _ (invariant.unchanged live executed)
  rw [UInt64.le_iff_toNat_le, isNext]
  exact invariant.bounded live executed

theorem apply_step_invariant {nextBlock : Nat}
    {side : LiveSide Details Correction FailedBundle World}
    (invariant : LiveInvariant execution genesis nextBlock side) :
    LiveInvariant execution genesis nextBlock (applyStep execution side) := by
  have controlled := invariant.control
  unfold applyStep
  dsimp only
  split
  · rename_i item gethBlock control
    rw [control] at controlled
    obtain ⟨fresh, isNext, sameNumber, sameHistory⟩ := controlled
    have gethNext : (numberU64 gethBlock).toNat = nextBlock := by rw [sameNumber, isNext]
    split
    · rename_i genesisBlock
      refine ⟨invariant.grounded, invariant.unchanged, invariant.inputs, invariant.bounded,
        isNext, ?_⟩
      intro positive
      exact absurd (sameNumber.symm.trans genesisBlock) positive
    · have changed := commit_if_sealing_changed execution side.adapter.metadataStore gethBlock
      split
      · rename_i store err committed
        rw [committed] at changed
        exact invariant.changed changed gethNext trivial
      · rename_i store committed
        rw [committed] at changed
        exact invariant.changed changed gethNext ⟨fresh, isNext, sameNumber, sameHistory⟩
  · rename_i item gethBlock control
    exact invariant.executed control
  · rename_i item gethBlock log logs outcome control
    rw [control] at controlled
    obtain ⟨isNext, sameNumber, recorded⟩ := controlled
    split
    · exact ⟨invariant.grounded, invariant.unchanged, invariant.inputs, invariant.bounded,
        trivial⟩
    · rename_i store reported
      exact invariant.changed (on_new_log_changed reported) (by rw [sameNumber, isNext])
        ⟨isNext, sameNumber, recorded⟩
  · exact ⟨invariant.grounded, invariant.unchanged, invariant.inputs, invariant.bounded, trivial⟩
  · rename_i item gethBlock receipts usedGas control
    rw [control] at controlled
    obtain ⟨isNext, _, recorded⟩ := controlled
    exact ⟨invariant.grounded, invariant.unchanged, invariant.inputs, invariant.bounded, isNext,
      fun _ => recorded⟩
  · exact invariant

theorem apply_step_executions {nextBlock : Nat}
    {side : LiveSide Details Correction FailedBundle World}
    (invariant : LiveInvariant execution genesis nextBlock side) :
    (applyStep execution side).executions = side.executions ∨
      ∃ live, live.number.toNat = nextBlock ∧
        (applyStep execution side).executions = side.executions ++ [live] := by
  have controlled := invariant.control
  unfold applyStep
  dsimp only
  split
  · split
    · exact Or.inl rfl
    · split
      · exact Or.inl rfl
      · exact Or.inl rfl
  · rename_i item gethBlock control
    rw [control] at controlled
    obtain ⟨_, isNext, sameNumber, _⟩ := controlled
    apply Or.inr
    refine ⟨_, ?_, rfl⟩
    rw [← isNext, ← sameNumber]
    rfl
  · split
    · exact Or.inl rfl
    · exact Or.inl rfl
  · exact Or.inl rfl
  · exact Or.inl rfl
  · exact Or.inl rfl

theorem apply_step_retained {nextBlock : Nat}
    {side : LiveSide Details Correction FailedBundle World} {item : BlockWithHashHistory}
    (invariant : LiveInvariant execution genesis nextBlock side)
    (retained : Retained side.executions nextBlock item) :
    Retained (applyStep execution side).executions nextBlock item := by
  rcases apply_step_executions invariant with same | ⟨live, isNext, added⟩
  · rw [same]
    exact retained
  · refine ⟨retained.1, fun positive => ?_⟩
    obtain ⟨⟨executed, member, number⟩, histories⟩ := retained.2 positive
    rw [added, Recorded, List.forall_mem_append, List.forall_mem_singleton]
    refine ⟨⟨executed, List.mem_append_left _ member, number⟩, histories, ?_⟩
    intro same
    have before := retained.1
    rw [← same, isNext] at before
    exact absurd before (lt_irrefl _)

omit [DecidableEq Details] [Inhabited Details] in
theorem Retained.mono {executions : List (LiveExecution Details Correction FailedBundle)}
    {nextBlock later : Nat} {item : BlockWithHashHistory}
    (retained : Retained executions nextBlock item) (atMost : nextBlock ≤ later) :
    Retained executions later item :=
  ⟨lt_of_lt_of_le retained.1 atMost, retained.2⟩

/-! ## Both sides -/

structure Eligible (executions : List (LiveExecution Details Correction FailedBundle))
    (nextBlock : Nat) (archiveHeight : UInt64) (item : BlockWithHashHistory)
    (gethBlock : GethBlock) : Prop where
  positive : item.block.number ≠ 0
  retained : Retained executions nextBlock item
  converted : numberU64 gethBlock = item.block.number
  inArchive : item.block.number.toNat ≤ archiveHeight.toNat + 1

def heightRead : Verification → Option UInt64
  | .started => none
  | .drawing archiveHeight _ => some archiveHeight
  | .applying archiveHeight _ _ => some archiveHeight

structure Invariant (execution : Execution Details Correction FailedBundle World)
    (genesis : Rules Details) (system : System Details Correction FailedBundle World) : Prop where
  live : LiveInvariant execution genesis system.nextBlock system.live
  pending : ∀ item ∈ system.pending, Retained system.live.executions system.nextBlock item
  pool : ∀ item ∈ system.pool.items,
    item.block.number ≠ 0 ∧ Retained system.live.executions system.nextBlock item
  verifications : ∀ archiveHeight item gethBlock,
    .applying archiveHeight item gethBlock ∈ system.verifications →
    Eligible system.live.executions system.nextBlock archiveHeight item gethBlock
  heights : ∀ verification ∈ system.verifications, ∀ archiveHeight,
    heightRead verification = some archiveHeight →
    ∃ current, system.archiveHeight = some current ∧ archiveHeight ≤ current

/-- An item is drawn for the archive from the pool, and only when its parent is there. At the
largest height the bound wraps around to zero and nothing is drawn. -/
theorem verify_step_applying {geth : GethLibraries} {noReceiptsCheck : Bool}
    {pool : RandomRetentionPool BlockWithHashHistory} {answers : Answers}
    {verification : Verification} {archiveHeight : UInt64} {item : BlockWithHashHistory}
    {gethBlock : GethBlock}
    (stepped : (verifyStep geth noReceiptsCheck pool answers verification).1 =
      some (.applying archiveHeight item gethBlock)) :
    item ∈ pool.items ∧ item.block.number.toNat ≤ archiveHeight.toNat + 1 ∧
      numberU64 gethBlock = item.block.number := by
  unfold verifyStep at stepped
  split at stepped
  · split at stepped
    · cases stepped
    · cases stepped
    · cases stepped
  · cases stepped
  · split at stepped
    · cases stepped
    · rename_i entry drawn
      split at stepped
      · cases stepped
      · rename_i notAhead
        split at stepped
        · cases stepped
        · rename_i converted
          cases stepped
          refine ⟨RandomRetentionPool.mem_of_get_random drawn, ?_, convert_number converted⟩
          rw [gt_iff_lt, not_lt, UInt64.le_iff_toNat_le, UInt64.toNat_add] at notAhead
          exact le_trans notAhead (Nat.mod_le _ _)
  · split at stepped
    · cases stepped
    · split at stepped
      · cases stepped
      · split at stepped
        · cases stepped
        · cases stepped

theorem verify_step_height {geth : GethLibraries} {noReceiptsCheck : Bool}
    {pool : RandomRetentionPool BlockWithHashHistory} {answers : Answers}
    {verification later : Verification} {archiveHeight : UInt64}
    (stepped : (verifyStep geth noReceiptsCheck pool answers verification).1 = some later)
    (read : heightRead later = some archiveHeight) :
    heightRead verification = some archiveHeight ∨
      answers.archiveHeight = .ok (some archiveHeight) := by
  unfold verifyStep at stepped
  split at stepped
  · split at stepped
    · cases stepped
    · cases stepped
    · rename_i isRead
      cases stepped
      cases read
      exact Or.inr isRead
  · cases stepped
  · split at stepped
    · cases stepped
    · split at stepped
      · cases stepped
        exact Or.inl read
      · split at stepped
        · cases stepped
        · cases stepped
          exact Or.inl read
  · split at stepped
    · cases stepped
    · split at stepped
      · cases stepped
      · split at stepped
        · cases stepped
        · cases stepped

section Steps

variable {system : System Details Correction FailedBundle World}

omit [DecidableEq Details] in
theorem Invariant.advanced {nextBlock : Nat}
    {live : LiveSide Details Correction FailedBundle World}
    (invariant : Invariant execution genesis system)
    (liveInvariant : LiveInvariant execution genesis nextBlock live)
    (keeps : ∀ item, Retained system.live.executions system.nextBlock item →
      Retained live.executions nextBlock item) :
    Invariant execution genesis { system with live := live, nextBlock := nextBlock } := by
  refine ⟨liveInvariant, ?_, ?_, ?_, invariant.heights⟩
  · intro item waiting
    exact keeps item (invariant.pending item waiting)
  · intro item pooled
    obtain ⟨positive, retained⟩ := invariant.pool item pooled
    exact ⟨positive, keeps item retained⟩
  · intro archiveHeight item gethBlock running
    have eligible := invariant.verifications archiveHeight item gethBlock running
    exact { eligible with retained := keeps item eligible.retained }

omit [DecidableEq Details] in
theorem LiveInvariant.snapshotted {nextBlock : Nat}
    {side : LiveSide Details Correction FailedBundle World} {item : BlockWithHashHistory}
    {gethBlock : GethBlock} {handler : SnapshotHandler} {state : World}
    (invariant : LiveInvariant execution genesis nextBlock side)
    (control : side.control = .applied item gethBlock) :
    LiveInvariant execution genesis (nextBlock + 1)
        { side with
          adapter := { side.adapter with snapshotHandler := handler, state := state }
          control := .reading } ∧
      Retained side.executions (nextBlock + 1) item := by
  have controlled := invariant.control
  rw [control] at controlled
  obtain ⟨isNext, recorded⟩ := controlled
  constructor
  · refine ⟨invariant.grounded, invariant.unchanged, invariant.inputs, ?_, ?_⟩
    · intro live executed
      exact Nat.le_succ_of_le (invariant.bounded live executed)
    · intro live executed
      exact Nat.lt_succ_of_le (invariant.bounded live executed)
  · refine ⟨?_, recorded⟩
    rw [isNext]
    exact Nat.lt_succ_self _

omit [DecidableEq Details] in
theorem Invariant.submitted {item : BlockWithHashHistory} {rest : List BlockWithHashHistory}
    {block : ProtoBlock.Block} {random : Nat} (invariant : Invariant execution genesis system)
    (waiting : system.pending = item :: rest) (number : block.number = item.block.number) :
    Invariant execution genesis
      { system with
        pending := rest
        pool := submit system.pool ⟨block, item.hashHistory⟩ random } := by
  have pending := invariant.pending
  rw [waiting, List.forall_mem_cons] at pending
  refine ⟨invariant.live, pending.2, ?_, invariant.verifications, invariant.heights⟩
  intro pooled member
  dsimp only [submit] at member
  split at member
  · rename_i positive
    rcases RandomRetentionPool.mem_add member with isNew | old
    · rw [isNew]
      refine ⟨UInt64.pos_iff_ne_zero.mp positive, ?_⟩
      rw [Retained, Recorded]
      dsimp only
      rw [number]
      exact pending.1
    · exact invariant.pool pooled old
  · exact invariant.pool pooled member

omit [DecidableEq Details] in
theorem Invariant.spawned (invariant : Invariant execution genesis system) :
    Invariant execution genesis
      { system with verifications := system.verifications ++ [.started] } := by
  refine ⟨invariant.live, invariant.pending, invariant.pool, ?_, ?_⟩
  · intro archiveHeight item gethBlock running
    rw [List.mem_append, List.mem_singleton] at running
    rcases running with old | isNew
    · exact invariant.verifications archiveHeight item gethBlock old
    · cases isNew
  · rw [List.forall_mem_append, List.forall_mem_singleton]
    refine ⟨invariant.heights, ?_⟩
    intro archiveHeight read
    cases read

omit [DecidableEq Details] in
theorem Invariant.verified {options : Options} {answers : Answers} {verification : Verification}
    {before after : List Verification} {firstErr : Option Failure}
    (invariant : Invariant execution genesis system)
    (running : system.verifications = before ++ verification :: after)
    (height : ∀ archiveHeight, answers.archiveHeight = .ok archiveHeight →
      archiveHeight = system.archiveHeight) :
    Invariant execution genesis
      { system with
        verifications := before ++ (verifyStep execution.geth options.noReceiptsCheck
          system.pool answers verification).1.toList ++ after
        firstErr := firstErr } := by
  have oldVerifications := invariant.verifications
  have oldHeights := invariant.heights
  rw [running] at oldVerifications oldHeights
  rw [List.forall_mem_append, List.forall_mem_cons] at oldHeights
  refine ⟨invariant.live, invariant.pending, invariant.pool, ?_, ?_⟩
  · intro archiveHeight item gethBlock member
    rw [List.mem_append, List.mem_append, Option.mem_toList] at member
    rcases member with (earlier | stepped) | later
    · exact oldVerifications archiveHeight item gethBlock (List.mem_append_left _ earlier)
    · obtain ⟨pooled, inArchive, converted⟩ := verify_step_applying stepped
      obtain ⟨positive, retained⟩ := invariant.pool item pooled
      exact ⟨positive, retained, converted, inArchive⟩
    · exact oldVerifications archiveHeight item gethBlock
        (List.mem_append_right _ (List.mem_cons_of_mem _ later))
  · rw [List.forall_mem_append, List.forall_mem_append]
    refine ⟨⟨oldHeights.1, ?_⟩, oldHeights.2.2⟩
    intro later stepped archiveHeight read
    rw [Option.mem_toList] at stepped
    rcases verify_step_height stepped read with before | isNew
    · exact oldHeights.2.1 archiveHeight before
    · exact ⟨archiveHeight, (height _ isNew).symm, le_refl _⟩

theorem step_invariant {options : Options}
    {next : System Details Correction FailedBundle World}
    (step : Step execution options system next)
    (invariant : Invariant execution genesis system) : Invariant execution genesis next := by
  have live := invariant.live
  cases step with
  | @clone block gethBlock control consecutive converted =>
      have fresh := live.control
      rw [control] at fresh
      have cloned : LiveInvariant execution genesis system.nextBlock
          { system.live with
            control := .cloned ⟨block, system.live.adapter.blockHashHistory⟩ gethBlock } :=
        ⟨live.grounded, live.unchanged, live.inputs, live.bounded, fresh, consecutive,
          convert_number converted, rfl⟩
      exact invariant.advanced cloned (fun _ retained => retained)
  | apply =>
      apply invariant.advanced (apply_step_invariant live)
      intro item retained
      exact apply_step_retained live retained
  | @snapshot adapter item gethBlock stateRoot control snapshotted =>
      obtain ⟨handler, state, kept⟩ := maybe_snapshot_cases execution system.live.adapter
        (numberU64 gethBlock) (execution.getStateRoot system.live.adapter.state)
      rw [snapshotted] at kept
      rw [show adapter = _ from kept]
      obtain ⟨advancedLive, retained⟩ := live.snapshotted control
      have advanced := invariant.advanced advancedLive
        (fun item earlier => earlier.mono (Nat.le_succ _))
      refine { advanced with pending := ?_ }
      rw [List.forall_mem_append, List.forall_mem_singleton]
      exact ⟨advanced.pending, retained⟩
  | @submit item rest checks checks' receipts stateRoot hashOfParentBlock block random waiting
      checked =>
      have number := check_block_results_number execution.geth options.codec options.info checks
        item.block receipts stateRoot hashOfParentBlock
      rw [checked] at number
      exact invariant.submitted waiting number
  | archive grows =>
      refine { invariant with heights := ?_ }
      intro verification running archiveHeight read
      obtain ⟨old, isOld, atMost⟩ := invariant.heights verification running archiveHeight read
      exact ⟨_, rfl, le_trans atMost (grows old isOld)⟩
  | spawn room => exact invariant.spawned
  | verify answers verification before after running height =>
      exact invariant.verified running height

end Steps

omit [DecidableEq Details] in
theorem start_invariant {adapter : StateChainAdapter Details Correction FailedBundle World}
    (grounded : Grounded genesis adapter.metadataStore.rulesUpdateHeights) (startBlock : UInt64)
    (archiveHeight : Option UInt64) :
    Invariant execution genesis (startSystem adapter startBlock archiveHeight) where
  live := {
    grounded := grounded
    unchanged := fun _ executed => absurd executed List.not_mem_nil
    inputs := fun _ executed => absurd executed List.not_mem_nil
    bounded := fun _ executed => absurd executed List.not_mem_nil
    control := fun _ executed => absurd executed List.not_mem_nil }
  pending := fun _ waiting => absurd waiting List.not_mem_nil
  pool := fun _ pooled => absurd pooled List.not_mem_nil
  verifications := fun _ _ _ running => absurd running List.not_mem_nil
  heights := fun _ running => absurd running List.not_mem_nil

theorem reachable_invariant {options : Options}
    {adapter : StateChainAdapter Details Correction FailedBundle World} {startBlock : UInt64}
    {archiveHeight : Option UInt64} {system : System Details Correction FailedBundle World}
    (grounded : Grounded genesis adapter.metadataStore.rulesUpdateHeights)
    (reached : Relation.ReflTransGen (Step execution options)
      (startSystem adapter startBlock archiveHeight) system) :
    Invariant execution genesis system := by
  induction reached with
  | refl => exact start_invariant grounded startBlock archiveHeight
  | tail _ step ih => exact step_invariant step ih

omit [DecidableEq Details] in
/-- The lookups for a block that is applied on the archive answer as they did for its live
execution. -/
theorem Invariant.lookups {system : System Details Correction FailedBundle World}
    {archiveHeight : UInt64} {item : BlockWithHashHistory} {gethBlock : GethBlock}
    {live : LiveExecution Details Correction FailedBundle}
    (invariant : Invariant execution genesis system)
    (eligible : Eligible system.live.executions system.nextBlock archiveHeight item gethBlock)
    (member : live ∈ system.live.executions) (isBlock : live.number = numberU64 gethBlock) :
    item.hashHistory = live.inputs.hashHistory ∧
      SameLookups live.metadata system.live.adapter.metadataStore (numberU64 gethBlock) ∧
      (execution.ethereumForks system.live.adapter.chainID = none →
        getRulesAtBlock live.metadata (numberU64 gethBlock) = live.inputs.rules) ∧
      getCorrectionsAtBlock live.metadata (numberU64 gethBlock) = live.inputs.corrections ∧
      getFailedBundlesAtBlock live.metadata (numberU64 gethBlock) =
        live.inputs.failedBundles := by
  have histories := (eligible.retained.2 eligible.positive).2
  have same := invariant.live.unchanged live member
  have inputs := invariant.live.inputs live member
  have number : numberU64 live.inputs.block = numberU64 gethBlock := isBlock
  rw [isBlock] at same
  refine ⟨(histories live member (isBlock.trans eligible.converted)).symm, same, ?_, ?_, ?_⟩
  · intro notEthereum
    rw [inputs, blockInputs, getChainConfigAndRules, notEthereum]
    dsimp only
    rw [number]
  · rw [inputs, blockInputs]
    dsimp only
    rw [number]
  · rw [inputs, blockInputs]
    dsimp only
    rw [number]

omit [DecidableEq Details] in
/-- On a chain with stored rules the archive state is asked to execute the block with what the
live execution used, only with the upgrade heights known by now. -/
theorem apply_archive_block_inputs {system : System Details Correction FailedBundle World}
    {archiveHeight : UInt64} {item : BlockWithHashHistory} {gethBlock : GethBlock}
    {live : LiveExecution Details Correction FailedBundle}
    (invariant : Invariant execution genesis system)
    (running : .applying archiveHeight item gethBlock ∈ system.verifications)
    (member : live ∈ system.live.executions) (isBlock : live.number = numberU64 gethBlock)
    (notEthereum : execution.ethereumForks system.live.adapter.chainID = none) :
    applyArchiveBlock execution system.live.adapter gethBlock item.hashHistory =
      (execution.applyBlock system.live.adapter.state
        { live.inputs with
          block := gethBlock
          chainConfig := .transient system.live.adapter.chainID
            (getUpgradeHeights system.live.adapter.metadataStore) (numberU64 gethBlock)
          isArchive := true }).2.2.map Prod.fst := by
  have eligible := invariant.verifications archiveHeight item gethBlock running
  obtain ⟨history, same, rules, corrections, failedBundles⟩ :=
    invariant.lookups eligible member isBlock
  have positive : numberU64 gethBlock ≠ 0 := by
    rw [eligible.converted]
    exact eligible.positive
  rw [applyArchiveBlock, if_neg positive, blockInputs, getChainConfigAndRules, notEthereum]
  dsimp only
  rw [same.rules, rules notEthereum, getCorrectionsAtBlock, same.corrections,
    ← getCorrectionsAtBlock, corrections, getFailedBundlesAtBlock, same.failedBundles,
    ← getFailedBundlesAtBlock, failedBundles, history]

/-- Whenever `ApplyArchiveBlock` runs for a block, the archive height that was read reaches the
parent of the block and the archive still does, the block was executed live, and every lookup
answers as it did for that execution. -/
theorem archive_sees_live_inputs {db : BlockDb.KvDb} {writeRulesHeights : Bool}
    {options : Options} {adapter : StateChainAdapter Details Correction FailedBundle World}
    {startBlock : UInt64} {startHeight : Option UInt64}
    {system : System Details Correction FailedBundle World} {archiveHeight : UInt64}
    {item : BlockWithHashHistory} {gethBlock : GethBlock}
    (created : newBlockDBMetadataStore execution.metadata db genesis writeRulesHeights =
      .ok adapter.metadataStore)
    (reached : Relation.ReflTransGen (Step execution options)
      (startSystem adapter startBlock startHeight) system)
    (running : .applying archiveHeight item gethBlock ∈ system.verifications) :
    (numberU64 gethBlock).toNat - 1 ≤ archiveHeight.toNat ∧
      (∃ current, system.archiveHeight = some current ∧ archiveHeight ≤ current) ∧
      (∃ live ∈ system.live.executions, live.number = numberU64 gethBlock) ∧
      ∀ live ∈ system.live.executions, live.number = numberU64 gethBlock →
        (∀ number, getBlockHash item.hashHistory number =
          getBlockHash live.inputs.hashHistory number) ∧
        getRulesAtBlock system.live.adapter.metadataStore (numberU64 gethBlock) =
          getRulesAtBlock live.metadata (numberU64 gethBlock) ∧
        (execution.ethereumForks system.live.adapter.chainID = none →
          getRulesAtBlock system.live.adapter.metadataStore (numberU64 gethBlock) =
            live.inputs.rules) ∧
        getCorrectionsAtBlock system.live.adapter.metadataStore (numberU64 gethBlock) =
          live.inputs.corrections ∧
        getFailedBundlesAtBlock system.live.adapter.metadataStore (numberU64 gethBlock) =
          live.inputs.failedBundles := by
  have invariant := reachable_invariant (created_grounded created) reached
  have eligible := invariant.verifications archiveHeight item gethBlock running
  have executed := (eligible.retained.2 eligible.positive).1
  rw [← eligible.converted] at executed
  have parent : (numberU64 gethBlock).toNat ≤ archiveHeight.toNat + 1 := by
    rw [eligible.converted]
    exact eligible.inArchive
  refine ⟨Nat.sub_le_of_le_add parent, invariant.heights _ running archiveHeight rfl, executed,
    ?_⟩
  intro live member isBlock
  obtain ⟨history, same, rules, corrections, failedBundles⟩ :=
    invariant.lookups eligible member isBlock
  refine ⟨?_, same.rules, ?_, ?_, ?_⟩
  · intro number
    rw [history]
  · intro notEthereum
    exact same.rules.trans (rules notEthereum)
  · rw [← corrections, getCorrectionsAtBlock, same.corrections]
    rfl
  · rw [← failedBundles, getFailedBundlesAtBlock, same.failedBundles]
    rfl

end Invariants

def plainOptions : Options := ⟨GoBlockDb.numberCodec, stateChainInfo (plainAdapter .empty), false⟩

/-- Block 1 is applied and submitted, the archive reaches block 0, and block 1 is drawn. -/
theorem archive_sees_live_inputs_plain :
    ∃ system item gethBlock,
      Relation.ReflTransGen (Step plainExecution plainOptions)
        (startSystem (plainAdapter .empty) 1 none) system ∧
      .applying 0 item gethBlock ∈ system.verifications ∧
      (numberU64 gethBlock).toNat - 1 ≤ 0 ∧
      ∃ live ∈ system.live.executions, live.number = 1 ∧
        getRulesAtBlock system.live.adapter.metadataStore 1 = live.inputs.rules := by
  let item : BlockWithHashHistory := ⟨GoBlockDb.numberOnly 1, .empty⟩
  let start := startSystem (plainAdapter .empty) 1 none
  let cloned := { start with live := { start.live with control := .cloned item (plainBlock 1) } }
  let committed := { cloned with live := applyStep plainExecution cloned.live }
  let executed := { committed with live := applyStep plainExecution committed.live }
  let applied := { executed with live := applyStep plainExecution executed.live }
  let snapshotted := { applied with
    live := { applied.live with control := .reading }
    nextBlock := 2
    pending := [item] }
  let submitted := { snapshotted with pending := [], pool := submit snapshotted.pool item 0 }
  let archived := { submitted with archiveHeight := some 0 }
  let spawned := { archived with verifications := [.started] }
  let drawing := { spawned with verifications := [.drawing 0 attempts] }
  let applying := { drawing with verifications := [.applying 0 item (plainBlock 1)] }
  let answers : Answers := ⟨.ok (some 0), 0, .ok []⟩
  have height : ∀ archiveHeight, answers.archiveHeight = .ok archiveHeight →
      archiveHeight = some 0 := by
    intro archiveHeight read
    exact (Except.ok.inj read).symm
  have clones : Step plainExecution plainOptions start cloned := .clone _ rfl rfl rfl
  have takes : Step plainExecution plainOptions applied snapshotted := .snapshot rfl rfl
  have submits : Step plainExecution plainOptions snapshotted submitted :=
    @Step.submit _ _ _ _ _ _ _ _ _ item [] plainChecks _ [] (.ok default) default
      item.block 0 rfl rfl
  have archives : Step plainExecution plainOptions submitted archived :=
    .archive fun _ isOld => nomatch (isOld : none = some _)
  have spawns : Step plainExecution plainOptions archived spawned := .spawn (by decide)
  have reads : Step plainExecution plainOptions spawned drawing :=
    .verify answers .started [] [] rfl height
  have draws : Step plainExecution plainOptions drawing applying :=
    .verify answers (.drawing 0 attempts) [] [] rfl height
  have reached : Relation.ReflTransGen (Step plainExecution plainOptions) start applying :=
    ((((((((((Relation.ReflTransGen.refl.tail clones).tail .apply).tail .apply).tail .apply).tail
      takes).tail submits).tail archives).tail spawns).tail reads).tail draws)
  have running : .applying 0 item (plainBlock 1) ∈ applying.verifications :=
    List.mem_singleton_self _
  obtain ⟨parent, _, ⟨live, member, number⟩, lookups⟩ :=
    archive_sees_live_inputs (plain_created false) reached running
  exact ⟨applying, item, plainBlock 1, reached, running, parent, live, member, number,
    (lookups live member number).2.2.1 rfl⟩

end Bertha.ArchiveInputs
