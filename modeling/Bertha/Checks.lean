import Bertha.ChainAdapter

/-!
# Checking the results of a block

`go/replay/checks.go`: the receipts, the state root and the parent hash of a replayed block
are compared with what the block database holds. Depending on the policy the computed state
root is written back before the parent hash is looked at.
-/

namespace Bertha.Checks

open Bertha.BigEndian Bertha.ChainAdapter Bertha.GethBlocks Bertha.GethConvert Bertha.GoBlockDb
open Bertha.BlockDb (KvDb)
open Bertha.BlockTypes (FixedBytes Hash bytesToHex)

set_option autoImplicit false

inductive OverwriteStateRootPolicy where
  | off
  | uninitialized
  | on
deriving DecidableEq, Repr

structure ReplayLoopContext where
  overwriteStateRoot : OverwriteStateRootPolicy
  skipStateRootCheck : Bool
  stateRootNotSetSeen : Bool
  skipReceiptsCheck : Bool
deriving DecidableEq, Repr

structure ChainInfo where
  chainID : UInt64
  isMptConformant : Bool
  isVerkleConformant : Bool
deriving DecidableEq, Repr

structure CheckState where
  blockDB : KvDb
  context : ReplayLoopContext

def stateChainInfo {Details Correction FailedBundle World : Type}
    (adapter : StateChainAdapter Details Correction FailedBundle World) : ChainInfo where
  chainID := adapter.chainID
  isMptConformant := adapter.schema == 5
  isVerkleConformant := adapter.schema == 6

def formatHex (bytes : Bytes) : String :=
  String.ofList (bytes.flatMap fun byte =>
    [Nat.digitChar (byte.toNat / 16), Nat.digitChar (byte.toNat % 16)])

def convertFailure : ConvertFailure → Failure
  | .error message => .error message
  | .panic message => .panic message

def getStatus (receipt : ProtoBlock.TransactionReceipt) : UInt64 :=
  match receipt.postStateOrStatus with
  | some (.status status) => status
  | _ => 0

/-- The lengths are compared before, so the two lists end together. -/
def checkTopics (number : UInt64) (tx log : Nat) :
    Nat → List Hash → List Bytes → Except Failure Unit
  | _, [], _ => .ok ()
  | _, _ :: _, [] => .error (.panic "index out of range")
  | index, topic :: topics, want :: wants =>
      if topic.val ≠ want then
        .error (.error (s!"receipt log topic mismatch for block {number}, tx {tx}, log {log}, " ++
          s!"topic {index}: expected {bytesToHex want}, got {bytesToHex topic.val}"))
      else checkTopics number tx log (index + 1) topics wants

def checkLog (number : UInt64) (tx index : Nat) (log : GethLog) (wantLog : ProtoBlock.Log) :
    Except Failure Unit := do
  if log.address.val ≠ wantLog.address then
    throw (.error (s!"receipt log address mismatch for block {number}, tx {tx}, log {index}: " ++
      s!"expected {bytesToHex wantLog.address}, got {bytesToHex log.address.val}"))
  if log.topics.length ≠ wantLog.topics.length then
    throw (.error (s!"receipt log topics length mismatch for block {number}, tx {tx}, " ++
      s!"log {index}: expected {wantLog.topics.length}, got {log.topics.length}"))
  checkTopics number tx index 0 log.topics wantLog.topics
  if log.data ≠ wantLog.data then
    throw (.error (s!"receipt log data mismatch for block {number}, tx {tx}, log {index}: " ++
      s!"expected {bytesToHex wantLog.data}, got {bytesToHex log.data}"))

def checkLogs (number : UInt64) (tx : Nat) :
    Nat → List GethLog → List ProtoBlock.Log → Except Failure Unit
  | _, [], _ => .ok ()
  | _, _ :: _, [] => .error (.panic "index out of range")
  | index, log :: logs, want :: wants => do
      checkLog number tx index log want
      checkLogs number tx (index + 1) logs wants

def checkReceipt (geth : GethLibraries) (number : UInt64) (tx : Nat) (receipt : GethReceipt)
    (want : ProtoBlock.TransactionReceipt) : Except Failure Unit := do
  if receipt.status ≠ getStatus want then
    throw (.error (s!"receipt status mismatch for block {number}, tx {tx}: " ++
      s!"expected {getStatus want}, got {receipt.status}"))
  if receipt.cumulativeGasUsed ≠ want.cumulativeGasUsed then
    throw (.error (s!"receipt cumulative gas used mismatch for block {number}, tx {tx}: " ++
      s!"expected {want.cumulativeGasUsed}, got {receipt.cumulativeGasUsed}"))
  if receipt.logs.length ≠ want.logs.length then
    throw (.error (s!"receipt logs length mismatch for block {number}, tx {tx}: " ++
      s!"expected {want.logs.length}, got {receipt.logs.length}"))
  checkLogs number tx 0 receipt.logs want.logs
  let expectedBloom := (← (toGethReceipt geth want).mapError convertFailure).bloom
  if receipt.bloom ≠ expectedBloom then
    throw (.error (s!"receipt bloom mismatch for block {number}, tx {tx}: " ++
      s!"expected {bytesToHex expectedBloom.val}, got {bytesToHex receipt.bloom.val}"))

def checkReceiptList (geth : GethLibraries) (number : UInt64) :
    Nat → List GethReceipt → List ProtoBlock.TransactionReceipt → Except Failure Unit
  | _, [], _ => .ok ()
  | _, _ :: _, [] => .error (.panic "index out of range")
  | index, receipt :: receipts, want :: wants => do
      checkReceipt geth number index receipt want
      checkReceiptList geth number (index + 1) receipts wants

def checkReceipts (geth : GethLibraries) (block : ProtoBlock.Block)
    (receipts : List GethReceipt) : Except Failure Unit := do
  if receipts.length ≠ block.receipts.length then
    throw (.error (s!"number of receipts mismatch for block {block.number}: " ++
      s!"expected {block.receipts.length}, got {receipts.length}"))
  checkReceiptList geth block.number 0 receipts block.receipts

def getExpectedStateRoot (chain : ChainInfo) (block : ProtoBlock.Block) : Hash :=
  bytesToFixed 32
    (if chain.isMptConformant then block.stateRoot
    else if chain.isVerkleConformant then goBytes block.verkleStateRoot
    else [])

def updateStateRoot (chain : ChainInfo) (block : ProtoBlock.Block) (stateRoot : Hash) :
    ProtoBlock.Block :=
  if chain.isMptConformant then { block with stateRoot := stateRoot.val }
  else if chain.isVerkleConformant then { block with verkleStateRoot := some stateRoot.val }
  else block

/-- The block is changed in place, so the checks return it with their outcome. -/
def overwriteAndPersistStateRoot (codec : GoCodec) (chain : ChainInfo) (state : CheckState)
    (block : ProtoBlock.Block) (computedStateRoot : Hash) :
    CheckState × ProtoBlock.Block × Except Failure Unit :=
  let block := updateStateRoot chain block computedStateRoot
  match update codec state.blockDB chain.chainID block with
  | .error err =>
      (state, block, .error (.error s!"failed to update block {block.number} in database: {err}"))
  | .ok blockDB => ({ state with blockDB := blockDB }, block, .ok ())

def verifyStateRoot (state : CheckState) (block : ProtoBlock.Block)
    (computedStateRoot expectedStateRoot : Hash) :
    CheckState × ProtoBlock.Block × Except Failure Unit :=
  if state.context.skipStateRootCheck then (state, block, .ok ())
  else if expectedStateRoot = FixedBytes.zero 32 then
    ({ state with context := { state.context with stateRootNotSetSeen := true } }, block, .ok ())
  else if computedStateRoot ≠ expectedStateRoot then
    (state, block, .error (.error
      (s!"state root mismatch after applying block {block.number}: " ++
        s!"expected {formatHex expectedStateRoot.val}, got {formatHex computedStateRoot.val}")))
  else (state, block, .ok ())

def checkStateRoot (codec : GoCodec) (chain : ChainInfo) (state : CheckState)
    (block : ProtoBlock.Block) (stateRootFuture : StateRoot) :
    CheckState × ProtoBlock.Block × Except Failure Unit :=
  match stateRootFuture with
  | .error err =>
      (state, block, .error (.error
        s!"failed to get state root after applying block {block.number}: {err}"))
  | .ok computedStateRoot =>
      let expectedStateRoot := getExpectedStateRoot chain block
      match state.context.overwriteStateRoot with
      | .on => overwriteAndPersistStateRoot codec chain state block computedStateRoot
      | .uninitialized =>
          if expectedStateRoot = FixedBytes.zero 32 then
            overwriteAndPersistStateRoot codec chain state block computedStateRoot
          else verifyStateRoot state block computedStateRoot expectedStateRoot
      | .off => verifyStateRoot state block computedStateRoot expectedStateRoot

/-- Without a recorded hash the check is skipped with a warning. -/
def checkParentHash (block : ProtoBlock.Block) (hashOfParentBlock : Hash) : Except Failure Unit :=
  let parentHash := bytesToFixed 32 block.parentHash
  if hashOfParentBlock = FixedBytes.zero 32 then .ok ()
  else if parentHash ≠ hashOfParentBlock then
    .error (.error (s!"parent hash mismatch: hash of block {block.number - 1} is " ++
      s!"{formatHex hashOfParentBlock.val}, parent hash of block {block.number} is " ++
      s!"{formatHex parentHash.val}"))
  else .ok ()

def checkBlockResults (geth : GethLibraries) (codec : GoCodec) (chain : ChainInfo)
    (state : CheckState) (block : ProtoBlock.Block) (receipts : List GethReceipt)
    (stateRootFuture : StateRoot) (hashOfParentBlock : Hash) :
    CheckState × ProtoBlock.Block × Except Failure Unit :=
  let receiptsChecked :=
    if state.context.skipReceiptsCheck then .ok () else checkReceipts geth block receipts
  match receiptsChecked with
  | .error failure => (state, block, .error failure)
  | .ok () =>
      match checkStateRoot codec chain state block stateRootFuture with
      | (state, block, .error failure) => (state, block, .error failure)
      | (state, block, .ok ()) => (state, block, checkParentHash block hashOfParentBlock)

theorem update_state_root_keeps (chain : ChainInfo) (block : ProtoBlock.Block) (stateRoot : Hash) :
    (updateStateRoot chain block stateRoot).number = block.number ∧
      (updateStateRoot chain block stateRoot).parentHash = block.parentHash := by
  unfold updateStateRoot
  split
  · exact ⟨rfl, rfl⟩
  · split <;> exact ⟨rfl, rfl⟩

theorem overwrite_keeps (codec : GoCodec) (chain : ChainInfo) (state : CheckState)
    (block : ProtoBlock.Block) (computedStateRoot : Hash) :
    (overwriteAndPersistStateRoot codec chain state block computedStateRoot).2.1.number =
        block.number ∧
      (overwriteAndPersistStateRoot codec chain state block computedStateRoot).2.1.parentHash =
        block.parentHash := by
  unfold overwriteAndPersistStateRoot
  dsimp only
  split <;> exact update_state_root_keeps chain block computedStateRoot

theorem verify_keeps (state : CheckState) (block : ProtoBlock.Block)
    (computedStateRoot expectedStateRoot : Hash) :
    (verifyStateRoot state block computedStateRoot expectedStateRoot).2.1 = block := by
  unfold verifyStateRoot
  split
  · rfl
  · split
    · rfl
    · split <;> rfl

theorem check_state_root_keeps (codec : GoCodec) (chain : ChainInfo) (state : CheckState)
    (block : ProtoBlock.Block) (stateRootFuture : StateRoot) :
    (checkStateRoot codec chain state block stateRootFuture).2.1.number = block.number ∧
      (checkStateRoot codec chain state block stateRootFuture).2.1.parentHash =
        block.parentHash := by
  unfold checkStateRoot
  split
  · exact ⟨rfl, rfl⟩
  · dsimp only
    split
    · apply overwrite_keeps
    · split
      · apply overwrite_keeps
      · rw [verify_keeps]
        exact ⟨rfl, rfl⟩
    · rw [verify_keeps]
      exact ⟨rfl, rfl⟩

theorem check_block_results_number (geth : GethLibraries) (codec : GoCodec) (chain : ChainInfo)
    (state : CheckState) (block : ProtoBlock.Block) (receipts : List GethReceipt)
    (stateRootFuture : StateRoot) (hashOfParentBlock : Hash) :
    (checkBlockResults geth codec chain state block receipts stateRootFuture
      hashOfParentBlock).2.1.number = block.number := by
  have kept := (check_state_root_keeps codec chain state block stateRootFuture).1
  unfold checkBlockResults
  dsimp only
  split
  · rfl
  · split
    · rename_i checked
      rw [checked] at kept
      exact kept
    · rename_i checked
      rw [checked] at kept
      exact kept

theorem check_block_results_parent {geth : GethLibraries} {codec : GoCodec} {chain : ChainInfo}
    {state next : CheckState} {block block' : ProtoBlock.Block} {receipts : List GethReceipt}
    {stateRootFuture : StateRoot} {hashOfParentBlock : Hash}
    (checked : checkBlockResults geth codec chain state block receipts stateRootFuture
      hashOfParentBlock = (next, block', .ok ())) :
    hashOfParentBlock = FixedBytes.zero 32 ∨
      bytesToFixed 32 block.parentHash = hashOfParentBlock := by
  have sameParent := (check_state_root_keeps codec chain state block stateRootFuture).2
  unfold checkBlockResults at checked
  dsimp only at checked
  split at checked
  · cases checked
  · split at checked
    · cases checked
    · rename_i rooted
      rw [rooted] at sameParent
      simp only [Prod.mk.injEq] at checked
      have parent := checked.2.2
      unfold checkParentHash at parent
      dsimp only at parent
      split at parent
      · rename_i zero
        exact Or.inl zero
      · split at parent
        · cases parent
        · rename_i same
          rw [sameParent] at same
          exact Or.inr (not_not.mp same)

/-- Whether the policy has the computed root of a block with this stored root written back. -/
def OverwriteStateRootPolicy.writesRoot : OverwriteStateRootPolicy → Hash → Bool
  | off, _ => false
  | uninitialized, expectedStateRoot => expectedStateRoot = FixedBytes.zero 32
  | on, _ => true

theorem check_state_root_eq (codec : GoCodec) (chain : ChainInfo) (state : CheckState)
    (block : ProtoBlock.Block) (computedStateRoot : Hash) :
    checkStateRoot codec chain state block (.ok computedStateRoot) =
      if state.context.overwriteStateRoot.writesRoot (getExpectedStateRoot chain block) then
        overwriteAndPersistStateRoot codec chain state block computedStateRoot
      else verifyStateRoot state block computedStateRoot (getExpectedStateRoot chain block) := by
  unfold checkStateRoot
  dsimp only
  cases state.context.overwriteStateRoot with
  | off => rfl
  | uninitialized => simp only [OverwriteStateRootPolicy.writesRoot, decide_eq_true_eq]
  | on => rfl

theorem verify_block_db (state : CheckState) (block : ProtoBlock.Block)
    (computedStateRoot expectedStateRoot : Hash) :
    (verifyStateRoot state block computedStateRoot expectedStateRoot).1.blockDB =
      state.blockDB := by
  unfold verifyStateRoot
  split
  · rfl
  · split
    · rfl
    · split <;> rfl

/-- What the block database holds after the state root step: nothing new, or the block with
its computed root if the policy has it written back and the step succeeds. -/
def RootPersisted (codec : GoCodec) (chain : ChainInfo) (state : CheckState)
    (block : ProtoBlock.Block) (stateRootFuture : StateRoot) (blockDB : KvDb) : Prop :=
  if state.context.overwriteStateRoot.writesRoot (getExpectedStateRoot chain block) then
    ∃ computedStateRoot, stateRootFuture = .ok computedStateRoot ∧
      update codec state.blockDB chain.chainID (updateStateRoot chain block computedStateRoot) =
        .ok blockDB
  else blockDB = state.blockDB

theorem check_state_root_block_db {codec : GoCodec} {chain : ChainInfo} {state next : CheckState}
    {block block' : ProtoBlock.Block} {stateRootFuture : StateRoot} {outcome : Except Failure Unit}
    (checked : checkStateRoot codec chain state block stateRootFuture = (next, block', outcome)) :
    (outcome = .ok () → RootPersisted codec chain state block stateRootFuture next.blockDB) ∧
      (∀ failure, outcome = .error failure → next.blockDB = state.blockDB) := by
  unfold RootPersisted
  cases stateRootFuture with
  | error err =>
      cases checked
      exact ⟨nofun, fun _ _ => rfl⟩
  | ok computedStateRoot =>
      rw [check_state_root_eq] at checked
      split at checked
      · rename_i writes
        rw [if_pos writes]
        unfold overwriteAndPersistStateRoot at checked
        dsimp only at checked
        split at checked
        · cases checked
          exact ⟨nofun, fun _ _ => rfl⟩
        · rename_i blockDB updated
          cases checked
          exact ⟨fun _ => ⟨computedStateRoot, rfl, updated⟩, nofun⟩
      · rename_i keeps
        rw [if_neg keeps]
        have kept := verify_block_db state block computedStateRoot
          (getExpectedStateRoot chain block)
        rw [checked] at kept
        exact ⟨fun _ => kept, fun _ _ => kept⟩

theorem check_parent_hash_congr {block block' : ProtoBlock.Block}
    (number : block'.number = block.number) (parentHash : block'.parentHash = block.parentHash)
    (hashOfParentBlock : Hash) :
    checkParentHash block' hashOfParentBlock = checkParentHash block hashOfParentBlock := by
  unfold checkParentHash
  rw [number, parentHash]

/-- A failed check leaves the block database as it was, except that a parent hash mismatch is
found after the state root step, which may have written the computed root back. -/
theorem failed_checks_keep_block_db {geth : GethLibraries} {codec : GoCodec} {chain : ChainInfo}
    {state next : CheckState} {block block' : ProtoBlock.Block} {receipts : List GethReceipt}
    {stateRootFuture : StateRoot} {hashOfParentBlock : Hash} {failure : Failure}
    (failed : checkBlockResults geth codec chain state block receipts stateRootFuture
      hashOfParentBlock = (next, block', .error failure)) :
    (state.context.skipReceiptsCheck = false ∧ checkReceipts geth block receipts = .error failure ∧
      next.blockDB = state.blockDB) ∨
    ((checkStateRoot codec chain state block stateRootFuture).2.2 = .error failure ∧
      next.blockDB = state.blockDB) ∨
    (checkParentHash block hashOfParentBlock = .error failure ∧
      RootPersisted codec chain state block stateRootFuture next.blockDB) := by
  have kept := check_state_root_keeps codec chain state block stateRootFuture
  unfold checkBlockResults at failed
  dsimp only at failed
  split at failed
  · rename_i rejected
    cases failed
    cases skipped : state.context.skipReceiptsCheck with
    | true =>
        rw [skipped] at rejected
        cases rejected
    | false =>
        rw [skipped] at rejected
        exact .inl ⟨rfl, rejected, rfl⟩
  · split at failed
    · rename_i rooted
      cases failed
      exact .inr (.inl ⟨by rw [rooted], (check_state_root_block_db rooted).2 _ rfl⟩)
    · rename_i rooted
      rw [rooted] at kept
      simp only [Prod.mk.injEq] at failed
      obtain ⟨rfl, rfl, mismatch⟩ := failed
      rw [check_parent_hash_congr kept.1 kept.2] at mismatch
      exact .inr (.inr ⟨mismatch, (check_state_root_block_db rooted).1 rfl⟩)

def rootCodec : GoCodec where
  marshal message :=
    .ok ((if message.stateRoot = [] then [] else 0x22 :: 0x20 :: message.stateRoot) ++
      [0x30, message.number.toUInt8])
  unmarshal data :=
    match data with
    | [0x30, number] => .ok (numberOnly number.toUInt64)
    | _ => .error "unexpected EOF"

def onesHash : Hash := ⟨List.replicate 32 1, by decide⟩

def unrootedDb : KvDb := (∅ : KvDb).insert (makeBlockKey 7 5) [0x30, 0x05]

/-- Without the policy to write roots, the mismatch leaves the stored block alone. -/
theorem parent_mismatch_keeps_block_db :
    let state : CheckState := ⟨unrootedDb, ⟨.off, false, false, false⟩⟩
    ∃ next block' failure, checkBlockResults plainGeth rootCodec ⟨7, true, false⟩ state
        (numberOnly 5) [] (.ok onesHash) onesHash = (next, block', .error failure) ∧
      next.blockDB = unrootedDb := by
  intro state
  obtain ⟨next, block', failure, failed⟩ : ∃ next block' failure,
      checkBlockResults plainGeth rootCodec ⟨7, true, false⟩ state (numberOnly 5) [] (.ok onesHash)
        onesHash = (next, block', .error failure) := ⟨_, _, _, rfl⟩
  refine ⟨next, block', failure, failed, ?_⟩
  obtain ⟨-, -, kept⟩ | ⟨-, kept⟩ | ⟨-, persisted⟩ := failed_checks_keep_block_db failed
  · exact kept
  · exact kept
  · exact persisted

/-- Under the policy that always writes roots, the block is found with the computed root in
the database although its parent hash did not match. -/
theorem parent_mismatch_after_overwrite :
    let state : CheckState := ⟨unrootedDb, ⟨.on, false, false, false⟩⟩
    ∃ next block' failure, checkBlockResults plainGeth rootCodec ⟨7, true, false⟩ state
        (numberOnly 5) [] (.ok onesHash) onesHash = (next, block', .error failure) ∧
      checkParentHash (numberOnly 5) onesHash = .error failure ∧
      next.blockDB ≠ state.blockDB := by
  intro state
  refine ⟨_, _, _, rfl, rfl, ?_⟩
  intro same
  have entries := congrArg (fun db : KvDb => db[makeBlockKey 7 5]?) same
  change (unrootedDb.insert (makeBlockKey 7 5)
      (0x22 :: 0x20 :: onesHash.val ++ [0x30, 0x05]))[makeBlockKey 7 5]? =
    ((∅ : KvDb).insert (makeBlockKey 7 5) [0x30, 0x05])[makeBlockKey 7 5]? at entries
  rw [Std.ExtTreeMap.getElem?_insert_self, Std.ExtTreeMap.getElem?_insert_self] at entries
  cases entries

end Bertha.Checks
