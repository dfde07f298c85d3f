import Bertha.Replay
import Mathlib.Logic.Relation

/-!
# The archive verifier

`go/replay/archive_verifier.go` beside the live replay. Blocks are applied one after the
other, submitted to a pool, and drawn from it at random to be executed once more on the
archive state. Every operation under a lock is one step, so the metadata store and the pool
can change between any two of them.
-/

namespace Bertha.ArchiveVerifier

open Bertha.ChainAdapter Bertha.Checks Bertha.GethBlocks Bertha.GethConvert Bertha.HashHistory
open Bertha.Replay Bertha.RulesStore
open Bertha.BlockTypes (Hash)

set_option autoImplicit false

def poolCapacity : Nat := 1024

def maxConcurrentVerifications : Nat := 8

def attempts : Nat := 10

/-! ## The pool -/

/-- `RandomRetentionPool`. A random index is any number taken modulo the length. -/
structure RandomRetentionPool (T : Type) where
  items : List T
  capacity : Nat
  positive : 0 < capacity
  bounded : items.length ≤ capacity

namespace RandomRetentionPool

variable {T : Type}

def empty (capacity : Nat) (positive : 0 < capacity) : RandomRetentionPool T :=
  ⟨[], capacity, positive, Nat.zero_le _⟩

def add (pool : RandomRetentionPool T) (item : T) (random : Nat) : RandomRetentionPool T :=
  if room : pool.items.length < pool.capacity then
    { pool with
      items := pool.items ++ [item]
      bounded := by
        rw [List.length_append]
        exact room }
  else
    { pool with
      items := pool.items.set (random % pool.items.length) item
      bounded := by
        rw [List.length_set]
        exact pool.bounded }

def getRandom (pool : RandomRetentionPool T) (random : Nat) : Option T :=
  pool.items[random % pool.items.length]?

theorem mem_add {pool : RandomRetentionPool T} {item other : T} {random : Nat}
    (member : other ∈ (pool.add item random).items) : other = item ∨ other ∈ pool.items := by
  unfold add at member
  split at member
  · rw [List.mem_append, List.mem_singleton] at member
    exact member.symm
  · exact (List.mem_or_eq_of_mem_set member).symm

theorem mem_of_get_random {pool : RandomRetentionPool T} {item : T} {random : Nat}
    (drawn : pool.getRandom random = some item) : item ∈ pool.items :=
  List.mem_of_getElem? drawn

end RandomRetentionPool

structure BlockWithHashHistory where
  block : ProtoBlock.Block
  hashHistory : BlockHashHistory

/-- Block 0 is skipped, it is equivalent with the genesis data import. -/
def submit (pool : RandomRetentionPool BlockWithHashHistory) (item : BlockWithHashHistory)
    (random : Nat) : RandomRetentionPool BlockWithHashHistory :=
  if item.block.number > 0 then pool.add item random else pool

/-! ## Verifications -/

inductive Verification where
  | started
  | drawing (archiveHeight : UInt64) (attemptsLeft : Nat)
  | applying (archiveHeight : UInt64) (item : BlockWithHashHistory) (gethBlock : GethBlock)

/-- What a verification gets to see: the height of the archive (none of an empty one), a
random number, and what `ApplyArchiveBlock` returns. -/
structure Answers where
  archiveHeight : Except String (Option UInt64)
  random : Nat
  receipts : Except Failure (List GethReceipt)

/-- One step of `verifyBlock`: the verification that is left, and the error it reports. -/
def verifyStep (geth : GethLibraries) (noReceiptsCheck : Bool)
    (pool : RandomRetentionPool BlockWithHashHistory) (answers : Answers) :
    Verification → Option Verification × Option Failure
  | .started =>
      match answers.archiveHeight with
      | .error err => (none, some (.error s!"failed to get archive height: {err}"))
      | .ok none => (none, none)
      | .ok (some archiveHeight) => (some (.drawing archiveHeight attempts), none)
  | .drawing _ 0 => (none, none)
  | .drawing archiveHeight (attemptsLeft + 1) =>
      match pool.getRandom answers.random with
      | none => (none, none)
      | some entry =>
          -- the block is not in the archive yet
          if entry.block.number > archiveHeight + 1 then
            (some (.drawing archiveHeight attemptsLeft), none)
          else
            match convertToGethBlock geth (some entry.block) with
            | .error failure =>
                (none, some (wrapFailure s!"failed to convert block {entry.block.number}"
                  (convertFailure failure)))
            | .ok gethBlock => (some (.applying archiveHeight entry gethBlock), none)
  | .applying _ item _ =>
      match answers.receipts with
      | .error failure =>
          (none, some (wrapFailure s!"failed to apply block {item.block.number}" failure))
      | .ok receipts =>
          if noReceiptsCheck then (none, none)
          else
            match checkReceipts geth item.block receipts with
            | .error failure =>
                (none, some (wrapFailure s!"receipt check failed for block {item.block.number}"
                  failure))
            | .ok () => (none, none)

/-! ## The live side -/

variable {Details Correction FailedBundle World : Type}

structure LiveExecution (Details Correction FailedBundle : Type) where
  metadata : MetadataStore Details Correction FailedBundle
  inputs : BlockInputs Details Correction FailedBundle

def LiveExecution.number (live : LiveExecution Details Correction FailedBundle) : UInt64 :=
  numberU64 live.inputs.block

inductive Control where
  | reading
  | cloned (item : BlockWithHashHistory) (gethBlock : GethBlock)
  | committed (item : BlockWithHashHistory) (gethBlock : GethBlock)
  | reporting (item : BlockWithHashHistory) (gethBlock : GethBlock) (logs : List GethLog)
      (outcome : Except String (List GethReceipt × UInt64))
  | applied (item : BlockWithHashHistory) (gethBlock : GethBlock)
  | stopped (failure : Failure)

structure LiveSide (Details Correction FailedBundle World : Type) where
  adapter : StateChainAdapter Details Correction FailedBundle World
  control : Control
  executions : List (LiveExecution Details Correction FailedBundle)

section Live

variable [DecidableEq Details] [Inhabited Details]

/-- One step of `ApplyBlock`: the commit, the execution, each of the logs it reports, and the
seal. -/
def applyStep (execution : Execution Details Correction FailedBundle World)
    (side : LiveSide Details Correction FailedBundle World) :
    LiveSide Details Correction FailedBundle World :=
  let adapter := side.adapter
  match side.control with
  | .cloned item gethBlock =>
      if numberU64 gethBlock = 0 then
        { side with
          adapter := { adapter with
            blockHashHistory :=
              setBlockHash adapter.blockHashHistory 0 (execution.hashHeader gethBlock.header) }
          control := .applied item gethBlock }
      else
        match commitIfSealing execution adapter.metadataStore gethBlock with
        | (store, .error err) =>
            { side with
              adapter := { adapter with metadataStore := store }
              control := .stopped
                (.error s!"failed to commit rules at block {numberU64 gethBlock}: {err}") }
        | (store, .ok ()) =>
            { side with
              adapter := { adapter with metadataStore := store }
              control := .committed item gethBlock }
  | .committed item gethBlock =>
      let inputs := blockInputs execution adapter.chainID adapter.metadataStore gethBlock
        adapter.blockHashHistory false
      let (state, logs, outcome) := execution.applyBlock adapter.state inputs
      { adapter := { adapter with state := state }
        control := .reporting item gethBlock logs outcome
        executions := side.executions ++ [⟨adapter.metadataStore, inputs⟩] }
  | .reporting item gethBlock (log :: logs) outcome =>
      match onNewLog execution adapter.metadataStore (numberU64 gethBlock) log with
      | .error failure => { side with control := .stopped failure }
      | .ok store =>
          { side with
            adapter := { adapter with metadataStore := store }
            control := .reporting item gethBlock logs outcome }
  | .reporting _ _ [] (.error err) => { side with control := .stopped (.error err) }
  | .reporting item gethBlock [] (.ok (receipts, usedGas)) =>
      let complete := completeHeader execution gethBlock receipts usedGas
      let sealedBlock := { gethBlock with header := complete }
      { side with
        adapter := { adapter with
          blockHashHistory := setBlockHash adapter.blockHashHistory (numberU64 sealedBlock)
            (execution.hashHeader complete) }
        control := .applied item sealedBlock }
  | _ => side

end Live

/-! ## Both sides -/

structure System (Details Correction FailedBundle World : Type) where
  live : LiveSide Details Correction FailedBundle World
  nextBlock : Nat
  pending : List BlockWithHashHistory
  pool : RandomRetentionPool BlockWithHashHistory
  verifications : List Verification
  archiveHeight : Option UInt64
  firstErr : Option Failure

def startSystem (adapter : StateChainAdapter Details Correction FailedBundle World)
    (startBlock : UInt64) (archiveHeight : Option UInt64) :
    System Details Correction FailedBundle World where
  live := ⟨adapter, .reading, []⟩
  nextBlock := startBlock.toNat
  pending := []
  pool := .empty poolCapacity (by decide)
  verifications := []
  archiveHeight := archiveHeight
  firstErr := none

structure Options where
  codec : GoBlockDb.GoCodec
  info : ChainInfo
  noReceiptsCheck : Bool

/-- A step of the live side, of a submission, of the archive or of one verification. Blocks
are applied with consecutive numbers, and each is submitted when its checks have passed, in
the pipeline while later blocks are already applied. -/
inductive Step [DecidableEq Details] [Inhabited Details]
    (execution : Execution Details Correction FailedBundle World) (options : Options) :
    System Details Correction FailedBundle World →
      System Details Correction FailedBundle World → Prop
  | clone {system : System Details Correction FailedBundle World} (block : ProtoBlock.Block)
      {gethBlock : GethBlock} (control : system.live.control = .reading)
      (consecutive : block.number.toNat = system.nextBlock)
      (converted : convertToGethBlock execution.geth (some block) = .ok gethBlock) :
      Step execution options system
        { system with
          live := { system.live with
            control := .cloned ⟨block, system.live.adapter.blockHashHistory⟩ gethBlock } }
  | apply {system : System Details Correction FailedBundle World} :
      Step execution options system { system with live := applyStep execution system.live }
  | snapshot {system : System Details Correction FailedBundle World}
      {adapter : StateChainAdapter Details Correction FailedBundle World}
      {item : BlockWithHashHistory} {gethBlock : GethBlock} {stateRoot : StateRoot}
      (control : system.live.control = .applied item gethBlock)
      (snapshotted : maybeSnapshot execution system.live.adapter (numberU64 gethBlock)
        (execution.getStateRoot system.live.adapter.state) = (adapter, .ok stateRoot)) :
      Step execution options system
        { system with
          live := { system.live with adapter := adapter, control := .reading }
          nextBlock := system.nextBlock + 1
          pending := system.pending ++ [item] }
  | submit {system : System Details Correction FailedBundle World}
      {item : BlockWithHashHistory} {rest : List BlockWithHashHistory}
      {checks checks' : CheckState} {receipts : List GethReceipt} {stateRoot : StateRoot}
      {hashOfParentBlock : Hash} {block : ProtoBlock.Block} (random : Nat)
      (waiting : system.pending = item :: rest)
      (checked : checkBlockResults execution.geth options.codec options.info checks item.block
        receipts stateRoot hashOfParentBlock = (checks', block, .ok ())) :
      Step execution options system
        { system with
          pending := rest
          pool := submit system.pool ⟨block, item.hashHistory⟩ random }
  | archive {system : System Details Correction FailedBundle World} {height : UInt64}
      (grows : ∀ old, system.archiveHeight = some old → old ≤ height) :
      Step execution options system { system with archiveHeight := some height }
  | spawn {system : System Details Correction FailedBundle World}
      (room : system.verifications.length < maxConcurrentVerifications) :
      Step execution options system
        { system with verifications := system.verifications ++ [.started] }
  | verify {system : System Details Correction FailedBundle World} (answers : Answers)
      (verification : Verification) (before after : List Verification)
      (running : system.verifications = before ++ verification :: after)
      (height : ∀ archiveHeight, answers.archiveHeight = .ok archiveHeight →
        archiveHeight = system.archiveHeight) :
      Step execution options system
        { system with
          verifications := before ++ (verifyStep execution.geth options.noReceiptsCheck
            system.pool answers verification).1.toList ++ after
          firstErr := system.firstErr.or (verifyStep execution.geth options.noReceiptsCheck
            system.pool answers verification).2 }

section Refinement

variable [DecidableEq Details] [Inhabited Details]
variable {execution : Execution Details Correction FailedBundle World}

theorem apply_steps_report {logs : List GethLog} {item : BlockWithHashHistory}
    {gethBlock : GethBlock} {outcome : Except String (List GethReceipt × UInt64)}
    {store : MetadataStore Details Correction FailedBundle}
    {side : LiveSide Details Correction FailedBundle World}
    (control : side.control = .reporting item gethBlock logs outcome)
    (reported : logs.foldlM
      (fun store log => onNewLog execution store (numberU64 gethBlock) log)
      side.adapter.metadataStore = .ok store) :
    (applyStep execution)^[logs.length] side =
      { side with
        adapter := { side.adapter with metadataStore := store }
        control := .reporting item gethBlock [] outcome } := by
  induction logs generalizing side with
  | nil =>
      cases reported
      rw [List.length_nil, Function.iterate_zero_apply, ← control]
  | cons log logs ih =>
      rw [List.foldlM_cons] at reported
      cases first : onNewLog execution side.adapter.metadataStore (numberU64 gethBlock) log with
      | error failure =>
          rw [first] at reported
          cases reported
      | ok next =>
          rw [first] at reported
          have stepped : applyStep execution side =
              { side with
                adapter := { side.adapter with metadataStore := next }
                control := .reporting item gethBlock logs outcome } := by
            rw [applyStep]
            simp only [control, first]
          rw [List.length_cons, Function.iterate_succ_apply, stepped]
          exact ih rfl reported

/-- The steps together are `ApplyBlock`. -/
theorem apply_steps_apply_block {item : BlockWithHashHistory} {gethBlock sealedBlock : GethBlock}
    {side : LiveSide Details Correction FailedBundle World}
    {next : StateChainAdapter Details Correction FailedBundle World}
    {receipts : List GethReceipt} {stateRoot : StateRoot}
    (control : side.control = .cloned item gethBlock)
    (applied : applyBlock execution side.adapter gethBlock =
      (next, .ok (receipts, stateRoot, sealedBlock))) :
    ∃ steps executions, (applyStep execution)^[steps] side =
      ⟨next, .applied item sealedBlock, executions⟩ := by
  unfold applyBlock at applied
  split at applied
  · rename_i genesis
    simp only [Prod.mk.injEq, Except.ok.injEq] at applied
    refine ⟨1, side.executions, ?_⟩
    rw [Function.iterate_one, applyStep]
    simp only [control, genesis, if_true]
    rw [← applied.1, ← applied.2.2.2]
  · rename_i positive
    split at applied
    · cases applied
    · rename_i store committed
      dsimp only at applied
      split at applied
      · cases applied
      · rename_i reportedStore reported
        split at applied
        · cases applied
        · rename_i blockReceipts usedGas outcome
          let inputs := blockInputs execution side.adapter.chainID store gethBlock
            side.adapter.blockHashHistory false
          let run := execution.applyBlock side.adapter.state inputs
          have first : applyStep execution side =
              { side with
                adapter := { side.adapter with metadataStore := store }
                control := .committed item gethBlock } := by
            rw [applyStep]
            simp only [control, positive, if_false, committed]
          have second : applyStep execution (applyStep execution side) =
              ⟨{ side.adapter with metadataStore := store, state := run.1 },
                .reporting item gethBlock run.2.1 run.2.2,
                side.executions ++ [⟨store, inputs⟩]⟩ := by
            rw [first]
            rfl
          have reports : (applyStep execution)^[run.2.1.length]
              ⟨{ side.adapter with metadataStore := store, state := run.1 },
                .reporting item gethBlock run.2.1 run.2.2,
                side.executions ++ [⟨store, inputs⟩]⟩ =
              ⟨{ side.adapter with metadataStore := reportedStore, state := run.1 },
                .reporting item gethBlock [] run.2.2, side.executions ++ [⟨store, inputs⟩]⟩ :=
            apply_steps_report rfl reported
          have seals : run.2.2 = .ok (blockReceipts, usedGas) := outcome
          refine ⟨1 + (run.2.1.length + (1 + 1)), side.executions ++ [⟨store, inputs⟩], ?_⟩
          rw [Function.iterate_add_apply, Function.iterate_add_apply, Function.iterate_add_apply,
            Function.iterate_one, second, reports, seals, applyStep]
          cases applied
          rfl

end Refinement

end Bertha.ArchiveVerifier
