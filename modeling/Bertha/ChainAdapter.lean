import Bertha.GethBlocks
import Bertha.HashHistory
import Bertha.RulesHistory

/-!
# The chain of a replay

`stateChainAdapter` of `go/replay/replay.go`: it applies one block after the other to the
state database, commits and patches the network rules on the way, and records the hash of
every block. The execution of a block, the state database and the snapshots are parameters.
A slice out of bounds is a panic and ends the call.
-/

namespace Bertha.ChainAdapter

open Bertha.BigEndian Bertha.GethBlocks Bertha.GethConvert Bertha.HashHistory Bertha.RulesStore
open Bertha.Ring
open Bertha.BlockTypes (Hash Address)

set_option autoImplicit false

inductive Failure where
  | error (message : String)
  | panic (message : String)
deriving DecidableEq, Repr

/-- The forks that `params.ChainConfig.Rules` reports for an Ethereum chain. -/
structure EthereumForks where
  isBerlin : Bool
  isLondon : Bool
  isCancun : Bool
  isPrague : Bool
  isOsaka : Bool
deriving DecidableEq, Repr

inductive ChainConfig where
  | ethereum (chainID : UInt64)
  | transient (chainID : UInt64) (upgradeHeights : List UpgradeHeight) (blockNumber : UInt64)
deriving DecidableEq, Repr

structure BlockInputs (Details Correction FailedBundle : Type) where
  block : GethBlock
  hashHistory : BlockHashHistory
  rules : Rules Details
  corrections : Option Correction
  failedBundles : List FailedBundle
  chainConfig : ChainConfig
  isArchive : Bool

/-- A future state root is the result that waiting for it gives. -/
abbrev StateRoot := Except String Hash

structure SnapshotHandler where
  blockInterval : UInt64
  startBlock : UInt64
  endBlock : UInt64
  pastSnapshotList : List (Option UInt64)
  pastSnapshotIndex : UInt64
deriving DecidableEq, Repr

def shouldCreateSnapshot (handler : SnapshotHandler) (currentBlock : UInt64) : Bool :=
  handler.blockInterval > 0 && currentBlock >= handler.startBlock &&
    currentBlock <= handler.endBlock && currentBlock % handler.blockInterval == 0

/-- What the adapter uses: the header hash, the driver contract, the configurations of the
Ethereum chains, the execution of a block with the logs it reports, and the state. -/
structure Execution (Details Correction FailedBundle World : Type) where
  metadata : Libraries Details Correction FailedBundle
  geth : GethLibraries
  hashHeader : GethHeader → Hash
  isSealEpoch : GethTransaction → Bool
  contractAddress : Address
  updateNetworkRules : Hash
  ethereumForks : UInt64 → Option (Nat → UInt64 → EthereumForks)
  applyBlock : World → BlockInputs Details Correction FailedBundle →
    World × List GethLog × Except String (List GethReceipt × UInt64)
  getStateRoot : World → StateRoot
  snapshot : SnapshotHandler → UInt64 → World → SnapshotHandler × World × Except String Unit

/-- The lock that guards it makes every operation of the adapter one step. -/
structure StateChainAdapter (Details Correction FailedBundle World : Type) where
  chainID : UInt64
  metadataStore : MetadataStore Details Correction FailedBundle
  blockHashHistory : BlockHashHistory
  state : World
  schema : Nat
  snapshotHandler : SnapshotHandler

def numberU64 (block : GethBlock) : UInt64 := UInt64.ofNat block.header.number

def goSlice (data : Bytes) (first last : UInt64) : Except Failure Bytes :=
  if first ≤ last ∧ last.toNat ≤ data.length then
    .ok ((data.drop first.toNat).take (last.toNat - first.toNat))
  else .error (.panic "slice bounds out of range")

def decodeDataBytes (data : Bytes) : Except Failure Bytes := do
  if data.length < 32 then throw (.error "unexpected EOF")
  let startBytes ← goSlice data 24 32
  let start := UInt64.ofNat (decodeBE startBytes)
  if start + 32 > UInt64.ofNat data.length then throw (.error "unexpected EOF")
  let sizeBytes ← goSlice data (start + 24) (start + 32)
  let size := UInt64.ofNat (decodeBE sizeBytes)
  if start + 32 + size > UInt64.ofNat data.length then throw (.error "unexpected EOF")
  goSlice data (start + 32) (start + 32 + size)

variable {Details Correction FailedBundle World : Type}

def getChainConfigAndRules [Inhabited Details]
    (execution : Execution Details Correction FailedBundle World) (block : GethBlock)
    (chainID : UInt64) (metadata : MetadataStore Details Correction FailedBundle) :
    ChainConfig × Rules Details :=
  match execution.ethereumForks chainID with
  | some forks =>
      let rules := forks block.header.number block.header.time
      (.ethereum chainID,
        { (default : Rules Details) with
          upgrades := {
            berlin := rules.isBerlin
            london := rules.isLondon
            llr := false
            sonic := rules.isCancun
            allegro := rules.isPrague
            brio := rules.isOsaka
            singleProposerBlockFormation := false
            gasSubsidies := false
            transactionBundles := false } })
  | none =>
      (.transient chainID (getUpgradeHeights metadata) (numberU64 block),
        getRulesAtBlock metadata (numberU64 block))

def blockInputs [Inhabited Details]
    (execution : Execution Details Correction FailedBundle World) (chainID : UInt64)
    (metadata : MetadataStore Details Correction FailedBundle) (block : GethBlock)
    (hashHistory : BlockHashHistory) (isArchive : Bool) :
    BlockInputs Details Correction FailedBundle :=
  let configAndRules := getChainConfigAndRules execution block chainID metadata
  { block := block
    hashHistory := hashHistory
    rules := configAndRules.2
    corrections := getCorrectionsAtBlock metadata (numberU64 block)
    failedBundles := getFailedBundlesAtBlock metadata (numberU64 block)
    chainConfig := configAndRules.1
    isArchive := isArchive }

section Applying

variable [DecidableEq Details]

/-- A log that cannot be decoded or patched with is only reported. -/
def onNewLog (execution : Execution Details Correction FailedBundle World)
    (metadataStore : MetadataStore Details Correction FailedBundle) (blockNumber : UInt64)
    (log : GethLog) : Except Failure (MetadataStore Details Correction FailedBundle) :=
  if log.address = execution.contractAddress ∧
      log.topics.head? = some execution.updateNetworkRules ∧ log.data.length ≥ 64 then
    match decodeDataBytes log.data with
    | .error (.panic message) => .error (.panic message)
    | .error (.error _) => .ok metadataStore
    | .ok diff => .ok (patchRules execution.metadata metadataStore blockNumber diff).1
  else .ok metadataStore

def commitIfSealing (execution : Execution Details Correction FailedBundle World)
    (metadataStore : MetadataStore Details Correction FailedBundle) (block : GethBlock) :
    MetadataStore Details Correction FailedBundle × Except String Unit :=
  match block.transactions.head? with
  | none => (metadataStore, .ok ())
  | some transaction =>
      if execution.isSealEpoch transaction then
        commitRules execution.metadata metadataStore (numberU64 block)
      else (metadataStore, .ok ())

def completeHeader (execution : Execution Details Correction FailedBundle World)
    (block : GethBlock) (receipts : List GethReceipt) (usedGas : UInt64) : GethHeader :=
  { block.header with
    gasUsed := usedGas
    bloom := execution.geth.mergeBloom receipts
    receiptHash := execution.geth.receiptsRoot receipts }

/-- `ApplyBlock`. The block is sealed in place with its complete header, so it is returned
with the receipts and the state root. -/
def applyBlock [Inhabited Details]
    (execution : Execution Details Correction FailedBundle World)
    (adapter : StateChainAdapter Details Correction FailedBundle World) (block : GethBlock) :
    StateChainAdapter Details Correction FailedBundle World ×
      Except Failure (List GethReceipt × StateRoot × GethBlock) :=
  if numberU64 block = 0 then
    ({ adapter with
        blockHashHistory :=
          setBlockHash adapter.blockHashHistory 0 (execution.hashHeader block.header) },
      .ok ([], execution.getStateRoot adapter.state, block))
  else
    match commitIfSealing execution adapter.metadataStore block with
    | (store, .error err) =>
        ({ adapter with metadataStore := store },
          .error (.error s!"failed to commit rules at block {numberU64 block}: {err}"))
    | (store, .ok ()) =>
        let (state, logs, outcome) := execution.applyBlock adapter.state
          (blockInputs execution adapter.chainID store block adapter.blockHashHistory false)
        match logs.foldlM (fun store log => onNewLog execution store (numberU64 block) log)
            store with
        | .error failure =>
            ({ adapter with metadataStore := store, state := state }, .error failure)
        | .ok store =>
            match outcome with
            | .error err =>
                ({ adapter with metadataStore := store, state := state }, .error (.error err))
            | .ok (receipts, usedGas) =>
                let complete := completeHeader execution block receipts usedGas
                let sealedBlock := { block with header := complete }
                ({ adapter with
                    metadataStore := store
                    state := state
                    blockHashHistory := setBlockHash adapter.blockHashHistory
                      (numberU64 sealedBlock) (execution.hashHeader complete) },
                  .ok (receipts, execution.getStateRoot state, sealedBlock))

end Applying

def maybeSnapshot (execution : Execution Details Correction FailedBundle World)
    (adapter : StateChainAdapter Details Correction FailedBundle World) (blockNumber : UInt64)
    (stateRoot : StateRoot) :
    StateChainAdapter Details Correction FailedBundle World × Except Failure StateRoot :=
  if shouldCreateSnapshot adapter.snapshotHandler blockNumber = false then
    (adapter, .ok stateRoot)
  else
    let (handler, state, outcome) :=
      execution.snapshot adapter.snapshotHandler blockNumber adapter.state
    let adapter := { adapter with snapshotHandler := handler, state := state }
    match outcome with
    | .error err =>
        (adapter, .error (.error s!"failed to create snapshot at block {blockNumber}: {err}"))
    | .ok () => (adapter, .ok stateRoot)

/-- `ApplyArchiveBlock`: what the archive state is asked to execute, which is nothing for
block 0. -/
def applyArchiveBlock [Inhabited Details]
    (execution : Execution Details Correction FailedBundle World)
    (adapter : StateChainAdapter Details Correction FailedBundle World) (block : GethBlock)
    (hashHistory : BlockHashHistory) : Except String (List GethReceipt) :=
  if numberU64 block = 0 then .ok []
  else
    (execution.applyBlock adapter.state (blockInputs execution adapter.chainID
      adapter.metadataStore block hashHistory true)).2.2.map Prod.fst

theorem maybe_snapshot_cases (execution : Execution Details Correction FailedBundle World)
    (adapter : StateChainAdapter Details Correction FailedBundle World) (blockNumber : UInt64)
    (stateRoot : StateRoot) :
    ∃ handler state, (maybeSnapshot execution adapter blockNumber stateRoot).1 =
      { adapter with snapshotHandler := handler, state := state } := by
  unfold maybeSnapshot
  split
  · exact ⟨adapter.snapshotHandler, adapter.state, rfl⟩
  · dsimp only
    split
    · exact ⟨_, _, rfl⟩
    · exact ⟨_, _, rfl⟩

theorem convert_number {geth : GethLibraries} {block : ProtoBlock.Block} {gethBlock : GethBlock}
    (converted : convertToGethBlock geth (some block) = .ok gethBlock) :
    numberU64 gethBlock = block.number := by
  simp only [convertToGethBlock, bind, Except.bind, pure, Except.pure] at converted
  split at converted
  · cases converted
  · split at converted
    · cases converted
    · cases converted
      exact UInt64.ofNat_toNat

section Recording

variable [DecidableEq Details] [Inhabited Details]
variable {execution : Execution Details Correction FailedBundle World}

theorem apply_block_records
    {adapter next : StateChainAdapter Details Correction FailedBundle World}
    {block sealedBlock : GethBlock} {receipts : List GethReceipt} {stateRoot : StateRoot}
    (applied : applyBlock execution adapter block =
      (next, .ok (receipts, stateRoot, sealedBlock))) :
    next.blockHashHistory = setBlockHash adapter.blockHashHistory (numberU64 block)
        (execution.hashHeader sealedBlock.header) ∧
      numberU64 sealedBlock = numberU64 block := by
  unfold applyBlock at applied
  split at applied
  · rename_i genesis
    simp only [Prod.mk.injEq, Except.ok.injEq] at applied
    rw [← applied.1, ← applied.2.2.2, genesis]
    exact ⟨rfl, rfl⟩
  · split at applied
    · simp at applied
    · dsimp only at applied
      split at applied
      · simp at applied
      · split at applied
        · simp at applied
        · simp only [Prod.mk.injEq, Except.ok.injEq] at applied
          rw [← applied.1, ← applied.2.2.2]
          exact ⟨rfl, rfl⟩

inductive Applied (execution : Execution Details Correction FailedBundle World) :
    StateChainAdapter Details Correction FailedBundle World → List GethBlock →
      List GethBlock → StateChainAdapter Details Correction FailedBundle World → Prop
  | nil (adapter : StateChainAdapter Details Correction FailedBundle World) :
      Applied execution adapter [] [] adapter
  | cons {adapter next final : StateChainAdapter Details Correction FailedBundle World}
      {block sealedBlock : GethBlock} {rest sealedRest : List GethBlock}
      {receipts : List GethReceipt} {stateRoot : StateRoot}
      (applied : applyBlock execution adapter block =
        (next, .ok (receipts, stateRoot, sealedBlock)))
      (others : Applied execution next rest sealedRest final) :
      Applied execution adapter (block :: rest) (sealedBlock :: sealedRest) final

theorem Applied.sealed_length
    {adapter final : StateChainAdapter Details Correction FailedBundle World}
    {blocks sealedBlocks : List GethBlock}
    (applied : Applied execution adapter blocks sealedBlocks final) :
    sealedBlocks.length = blocks.length := by
  induction applied with
  | nil => rfl
  | cons _ _ ih => rw [List.length_cons, List.length_cons, ih]

theorem Applied.window
    {adapter final : StateChainAdapter Details Correction FailedBundle World}
    {blocks sealedBlocks : List GethBlock}
    (applied : Applied execution adapter blocks sealedBlocks final)
    {values : Nat → Hash} {low first : Nat}
    (window : Window adapter.blockHashHistory.historicHashes values low first)
    (numbers : blocks.map (fun block => (numberU64 block).toNat) =
      List.range' first blocks.length)
    (hashes : ∀ index sealedBlock, sealedBlocks[index]? = some sealedBlock →
      execution.hashHeader sealedBlock.header = values (first + index)) :
    Window final.blockHashHistory.historicHashes values
      (max low (first + blocks.length - 256)) (first + blocks.length) := by
  induction applied generalizing low first with
  | nil adapter =>
      apply window.mono
      exact Nat.le_max_left _ _
  | @cons adapter next final block sealedBlock rest sealedRest receipts stateRoot applied others
      ih =>
      rw [List.map_cons, List.length_cons, List.range'_succ, List.cons.injEq] at numbers
      have extended : Window next.blockHashHistory.historicHashes values
          (max low (first + 1 - 256)) (first + 1) := by
        rw [(apply_block_records applied).1, set_block_hash_eq, numbers.1,
          hashes 0 sealedBlock rfl]
        exact window.next
      have laterHashes : ∀ index sealedBlock, sealedRest[index]? = some sealedBlock →
          execution.hashHeader sealedBlock.header = values (first + 1 + index) := by
        intro index later present
        rw [hashes (index + 1) later present]
        congr 1
        omega
      have finished := ih extended numbers.2 laterHashes
      have sameEnd : first + (rest.length + 1) = first + 1 + rest.length := by omega
      rw [List.length_cons, sameEnd]
      exact finished.mono (by omega)

/-- The hash of a block: seeded before the first applied block, and recorded from it on. -/
def recordedHash (execution : Execution Details Correction FailedBundle World)
    (seeded : BlockHashHistory) (firstBlockToApply : UInt64) (sealedBlocks : List GethBlock)
    (number : UInt64) : Hash :=
  if number < firstBlockToApply then getBlockHash seeded number
  else
    match sealedBlocks[number.toNat - firstBlockToApply.toNat]? with
    | some block => execution.hashHeader block.header
    | none => default

theorem Applied.recorded
    {adapter final : StateChainAdapter Details Correction FailedBundle World}
    {blocks sealedBlocks : List GethBlock}
    (applied : Applied execution adapter blocks sealedBlocks final) {first : UInt64}
    (numbers : blocks.map (fun block => (numberU64 block).toNat) =
      List.range' first.toNat blocks.length)
    {number : UInt64} (above : first.toNat + blocks.length ≤ number.toNat + 256)
    (below : number.toNat < first.toNat + blocks.length) :
    getBlockHash final.blockHashHistory number =
      recordedHash execution adapter.blockHashHistory first sealedBlocks number := by
  let values : Nat → Hash := fun position =>
    recordedHash execution adapter.blockHashHistory first sealedBlocks (UInt64.ofNat position)
  have start : Window adapter.blockHashHistory.historicHashes values (first.toNat - 256)
      first.toNat := by
    intro position _ before
    have bound := first.toNat_lt
    have same : (UInt64.ofNat position).toNat = position := by
      rw [UInt64.toNat_ofNat']
      omega
    have isBefore : UInt64.ofNat position < first := by
      rw [UInt64.lt_iff_toNat_lt, same]
      exact before
    rw [show values position = getBlockHash adapter.blockHashHistory (UInt64.ofNat position) from
      if_pos isBefore, get_block_hash_eq, same]
  have hashes : ∀ index sealedBlock, sealedBlocks[index]? = some sealedBlock →
      execution.hashHeader sealedBlock.header = values (first.toNat + index) := by
    intro index sealedBlock present
    have indexBound : index < blocks.length := by
      rw [← applied.sealed_length]
      exact (List.getElem?_eq_some_iff.mp present).1
    -- the number of an applied block is a 64-bit number
    have numberAt : (numberU64 blocks[index]).toNat = first.toNat + index := by
      have atIndex := congrArg (fun numbers => numbers[index]?) numbers
      simpa [indexBound] using atIndex
    have same : (UInt64.ofNat (first.toNat + index)).toNat = first.toNat + index := by
      have bound := (numberU64 blocks[index]).toNat_lt
      rw [UInt64.toNat_ofNat']
      omega
    have notBefore : ¬ UInt64.ofNat (first.toNat + index) < first := by
      rw [UInt64.lt_iff_toNat_lt, same]
      omega
    dsimp only [values]
    rw [recordedHash, if_neg notBefore, same, Nat.add_sub_cancel_left, present]
  have window := applied.window start numbers hashes
  rw [get_block_hash_eq, window number.toNat (by omega) below]
  dsimp only [values]
  rw [UInt64.ofNat_toNat]

/-- The window of block hashes is exact. Seeding takes each hash from the parent hash of the
block after it, and after the blocks from `firstBlockToApply` to `last` have been applied the
last 256 hashes are the recorded and the seeded ones. -/
theorem hash_window_exact {codec : GoBlockDb.GoCodec} {blockDb : BlockDb.KvDb}
    {chainID firstBlockToApply : UInt64} {history seeded : BlockHashHistory}
    (numbered : ∀ number data block,
      blockDb[GoBlockDb.makeBlockKey chainID number]? = some data →
      codec.unmarshal data = .ok block → block.number = number)
    (seeding : seedBlockHashHistory codec blockDb chainID firstBlockToApply history =
      (seeded, .ok ())) :
    (∀ number : UInt64, firstBlockToApply.toNat ≤ number.toNat + 256 →
      number < firstBlockToApply →
      ∃ block, GoBlockDb.get codec blockDb chainID (number + 1) = .ok (some block) ∧
        getBlockHash seeded number = bytesToFixed 32 block.parentHash) ∧
    ∀ (adapter final : StateChainAdapter Details Correction FailedBundle World)
      (blocks sealedBlocks : List GethBlock) (last : Nat),
      adapter.blockHashHistory = seeded →
      Applied execution adapter blocks sealedBlocks final →
      blocks.map (fun block => (numberU64 block).toNat) =
        List.range' firstBlockToApply.toNat blocks.length →
      firstBlockToApply.toNat + blocks.length = last + 1 →
      (∀ number : UInt64, last ≤ number.toNat + 255 → number.toNat ≤ last →
        getBlockHash final.blockHashHistory number =
          recordedHash execution seeded firstBlockToApply sealedBlocks number) ∧
      ∀ number : UInt64, 1 ≤ number.toNat → last ≤ number.toNat + 254 → number.toNat ≤ last →
        (header final.blockHashHistory number).hash =
            recordedHash execution seeded firstBlockToApply sealedBlocks number ∧
          (header final.blockHashHistory number).parentHash =
            recordedHash execution seeded firstBlockToApply sealedBlocks (number - 1) := by
  constructor
  · intro number above below
    exact seeded_stored numbered seeding above below
  · intro adapter final blocks sealedBlocks last seededEq applied numbers lastEq
    rw [← seededEq]
    constructor
    · intro number above below
      exact applied.recorded numbers (by omega) (by omega)
    · intro number positive above below
      have previous : (number - 1).toNat = number.toNat - 1 := by
        rw [UInt64.toNat_sub_of_le]
        · rfl
        · exact UInt64.le_iff_toNat_le.mpr positive
      constructor
      · exact applied.recorded numbers (by omega) (by omega)
      · exact applied.recorded numbers (by omega) (by omega)

end Recording

/-! ## A plain instance of the execution -/

def plainGeth : GethLibraries :=
  ⟨fun _ => default, fun _ => default, fun _ => default, fun _ => default⟩

def plainExecution : Execution Unit Unit Unit Unit where
  metadata := RulesHistory.plainLibraries
  geth := plainGeth
  hashHeader header := bytesToFixed 32 (minimalBE (header.number + 1))
  isSealEpoch _ := false
  contractAddress := default
  updateNetworkRules := default
  ethereumForks _ := none
  applyBlock _ _ := ((), [], .ok ([], 0))
  getStateRoot _ := .ok default
  snapshot handler _ _ := (handler, (), .ok ())

def plainAdapter (history : BlockHashHistory) : StateChainAdapter Unit Unit Unit Unit where
  chainID := 7
  metadataStore := RulesHistory.plainStore false
  blockHashHistory := history
  state := ()
  schema := 5
  snapshotHandler := ⟨0, 0, 0, [], 0⟩

def plainBlock (number : UInt64) : GethBlock :=
  ⟨gethHeader plainGeth (GoBlockDb.numberOnly number) [] [], [], [], []⟩

def firstBlockDb : BlockDb.KvDb :=
  OrderedStore.applyOp ∅ (.put (GoBlockDb.makeBlockKey 7 1) [0x30, 0x01])

theorem first_block_db_numbered (number : UInt64) (data : Bytes) (block : ProtoBlock.Block)
    (stored : firstBlockDb[GoBlockDb.makeBlockKey 7 number]? = some data)
    (decoded : GoBlockDb.numberCodec.unmarshal data = .ok block) : block.number = number := by
  rw [firstBlockDb, OrderedStore.get_put] at stored
  split at stored
  · rename_i sameKey
    cases stored
    cases decoded
    exact (BlockKeys.make_block_key_injective sameKey).2
  · simp at stored

theorem hash_window_exact_first_block :
    let seeded := (seedBlockHashHistory GoBlockDb.numberCodec firstBlockDb 7 1 .empty).1
    getBlockHash seeded 0 = bytesToFixed 32 [] ∧
      ∃ final sealedBlocks,
        Applied plainExecution (plainAdapter seeded) [plainBlock 1, plainBlock 2] sealedBlocks
          final ∧
        getBlockHash final.blockHashHistory 1 =
          recordedHash plainExecution seeded 1 sealedBlocks 1 ∧
        (header final.blockHashHistory 2).parentHash =
          recordedHash plainExecution seeded 1 sealedBlocks 1 := by
  intro seeded
  have seeding : seedBlockHashHistory GoBlockDb.numberCodec firstBlockDb 7 1 .empty =
      (seeded, .ok ()) := by rfl
  have applied : Applied plainExecution (plainAdapter seeded) [plainBlock 1, plainBlock 2] _ _ :=
    .cons rfl (.cons rfl (.nil _))
  obtain ⟨seededHashes, window⟩ := @hash_window_exact _ _ _ _ _ _ plainExecution _ _ _ _ _ _
    first_block_db_numbered seeding
  obtain ⟨hashes, headers⟩ := window _ _ _ _ 2 rfl applied rfl rfl
  refine ⟨?_, _, _, applied, hashes 1 (by decide) (by decide),
    (headers 2 (by decide) (by decide) (by decide)).2⟩
  obtain ⟨block, stored, hash⟩ := seededHashes 0 (by decide) (by decide)
  rw [hash]
  cases stored
  rfl

end Bertha.ChainAdapter
