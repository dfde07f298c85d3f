import Bertha.ArchiveInputs
import Bertha.CommandRuns
import Bertha.ReplayFrame
import Bertha.ReplayLinks
import Bertha.RulesUpdates

/-!
# Restarting a replay

`Replay` of `go/replay/replay.go` up to its loop. A replay that ends leaves the state database
and the block database; what the process had in memory besides is rebuilt by the next one: the
rules from the stored update heights, and the window of block hashes from the parent hashes of
the stored blocks. Both are rebuilt exactly, except that pending rules are gone and that the
hash of the last block is taken from the block after it instead of the replay.
-/

namespace Bertha.ReplayRestart

open Bertha.ArchiveInputs Bertha.ChainAdapter Bertha.Checks Bertha.GethBlocks Bertha.GethConvert
open Bertha.GoBlockDb Bertha.HashHistory Bertha.OrderedStore Bertha.Pipeline Bertha.Replay
open Bertha.ReplayFrame
open Bertha.ReplayLinks Bertha.ReplayPipeline Bertha.Ring Bertha.RulesHistory
open Bertha.RulesStore Bertha.RulesUpdates
open Bertha.BlockDb (KvDb)
open Bertha.BlockTypes (FixedBytes Hash)

set_option autoImplicit false

structure ReplayArgs where
  initDBDir : String
  stateDBDir : String
  withArchive : Bool
  archiveRate : Rat
  startBlock : UInt64
  endBlock : UInt64
  snapshotInterval : UInt64
  snapshotStartBlock : UInt64
  snapshotEndBlock : UInt64
  snapshotNumToKeep : UInt64
  writeRulesUpdateHeights : Bool
  dbSchema : Nat
deriving DecidableEq

/-- The combinations of flags that `Replay` refuses. -/
def checkArgs (args : ReplayArgs) : Except String Unit :=
  if args.startBlock > args.endBlock then
    .error s!"start block {args.startBlock} is greater than end block {args.endBlock}"
  else if args.startBlock > 0 ∧ args.initDBDir = "" ∧ args.stateDBDir = "" then
    .error ("when starting from a non-genesis block (block 0), an existing state database or " ++
      "initial database directory must be specified")
  else if ¬ args.withArchive ∧ args.archiveRate > 0 then
    .error ("when using a non-zero archive rate, archive mode must be enabled " ++
      "(pass --with-archive)")
  else if args.snapshotStartBlock > args.snapshotEndBlock then
    .error (s!"snapshot start block {args.snapshotStartBlock} is greater than snapshot end " ++
      s!"block {args.snapshotEndBlock}")
  else if args.snapshotInterval > 0 ∧ args.snapshotNumToKeep = 0 then
    .error (s!"when using a non-zero snapshot interval {args.snapshotInterval}, " ++
      "--snapshot-num-to-keep must be greater than 0")
  else .ok ()

variable {Details Correction FailedBundle World : Type}
variable [DecidableEq Details] [Inhabited Details]

def prepareState (execution : Execution Details Correction FailedBundle World) (codec : GoCodec)
    (applyGenesis : World → Except String World) (args : ReplayArgs) (blockDb : KvDb)
    (chain : StateChainAdapter Details Correction FailedBundle World) :
    Except String (StateChainAdapter Details Correction FailedBundle World) :=
  let prepared := if args.startBlock = 0 then applyGenesis chain.state else .ok chain.state
  match prepared with
  | .error err => .error s!"failed to apply genesis data: {err}"
  | .ok state =>
    match seedBlockHashHistory codec blockDb chain.chainID args.startBlock
      chain.blockHashHistory with
    | (_, .error err) => .error s!"failed to seed block hash history: {err}"
    | (seeded, .ok ()) =>
      match execution.getStateRoot state with
      | .error err => .error s!"failed to get state root: {err}"
      | .ok _ => .ok { chain with state := state, blockHashHistory := seeded }

/-- The chain that `Replay` hands to its loop, from an open block database and state. -/
def openChain (execution : Execution Details Correction FailedBundle World) (codec : GoCodec)
    (genesis : Rules Details) (applyGenesis : World → Except String World) (args : ReplayArgs)
    (blockDb : KvDb) (state : World) (snapshotHandler : SnapshotHandler) :
    Except String (StateChainAdapter Details Correction FailedBundle World) := do
  checkArgs args
  let metadataStore ← (newBlockDBMetadataStore execution.metadata blockDb genesis
    args.writeRulesUpdateHeights).mapError fun err =>
      s!"failed to create metadata store for chain ID {genesis.networkID}: {err}"
  (prepareState execution codec applyGenesis args blockDb {
    chainID := genesis.networkID
    metadataStore := metadataStore
    blockHashHistory := .empty
    state := state
    schema := args.dbSchema
    snapshotHandler := snapshotHandler }).mapError fun err => s!"failed to prepare state: {err}"

section Memory

variable {execution : Execution Details Correction FailedBundle World}

def TakesCalls (libraries : Libraries Details Correction FailedBundle)
    (before after : MetadataStore Details Correction FailedBundle) : Prop :=
  ∃ calls, after = (runCalls libraries before calls).1

omit [Inhabited Details] in
theorem takes_no_calls {libraries : Libraries Details Correction FailedBundle}
    (store : MetadataStore Details Correction FailedBundle) :
    TakesCalls libraries store store := ⟨[], rfl⟩

omit [Inhabited Details] in
theorem TakesCalls.trans {libraries : Libraries Details Correction FailedBundle}
    {before middle after : MetadataStore Details Correction FailedBundle}
    (first : TakesCalls libraries before middle) (second : TakesCalls libraries middle after) :
    TakesCalls libraries before after := by
  rcases first with ⟨calls, middleEq⟩
  rcases second with ⟨more, afterEq⟩
  refine ⟨calls ++ more, ?_⟩
  rw [run_calls_append, afterEq, middleEq]

omit [Inhabited Details] in
theorem changed_takes_calls {libraries : Libraries Details Correction FailedBundle}
    {number : UInt64} {before after : MetadataStore Details Correction FailedBundle}
    (changed : ChangedAt libraries number before after) : TakesCalls libraries before after := by
  rcases changed with same | ⟨call, -, afterEq⟩
  · rw [same]
    exact takes_no_calls before
  · exact ⟨[call], afterEq⟩

omit [Inhabited Details] in
theorem logs_take_calls {number : UInt64} {logs : List GethLog}
    {before after : MetadataStore Details Correction FailedBundle}
    (reported : logs.foldlM (fun store log => onNewLog execution store number log) before =
      .ok after) : TakesCalls execution.metadata before after := by
  induction logs generalizing before with
  | nil =>
      cases reported
      exact takes_no_calls _
  | cons log rest ih =>
      rw [List.foldlM_cons] at reported
      cases first : onNewLog execution before number log with
      | error failure =>
          rw [first] at reported
          cases reported
      | ok middle =>
          rw [first] at reported
          exact (changed_takes_calls (on_new_log_changed first)).trans (ih reported)

/-- What an applied block changes in memory: the rules by calls, the state, and one hash. -/
theorem apply_block_changes
    {adapter next : StateChainAdapter Details Correction FailedBundle World}
    {block sealedBlock : GethBlock} {receipts : List GethReceipt} {stateRoot : StateRoot}
    (applied : applyBlock execution adapter block =
      (next, .ok (receipts, stateRoot, sealedBlock))) :
    ∃ store state, TakesCalls execution.metadata adapter.metadataStore store ∧
      next = { adapter with
        metadataStore := store
        state := state
        blockHashHistory := setBlockHash adapter.blockHashHistory (numberU64 block)
          (execution.hashHeader sealedBlock.header) } := by
  have recorded := (apply_block_records applied).1
  unfold applyBlock at applied
  split at applied
  · simp only [Prod.mk.injEq] at applied
    refine ⟨adapter.metadataStore, adapter.state, takes_no_calls _, ?_⟩
    rw [← recorded, ← applied.1]
  · have committed := commit_if_sealing_changed execution adapter.metadataStore block
    split at applied
    · simp at applied
    · rename_i store commits
      rw [commits] at committed
      dsimp only at applied
      split at applied
      · simp at applied
      · rename_i logged reported
        split at applied
        · simp at applied
        · simp only [Prod.mk.injEq] at applied
          refine ⟨logged, next.state,
            (changed_takes_calls committed).trans (logs_take_calls reported), ?_⟩
          rw [← recorded, ← applied.1]

/-- A replay leaves in memory what the calls, the executions, the snapshots and the recorded
hashes have made of it. -/
theorem works_memory {Progress : Type} {info : ChainInfo}
    {setup : Setup (StateChainAdapter Details Correction FailedBundle World) Progress}
    (isState : setup.chain = stateChain execution info)
    {side last : ApplySide (StateChainAdapter Details Correction FailedBundle World)}
    {decoded : List DecodedBlock} {results : List ProcessResult}
    (works : Works (pipelineStages setup) side decoded results last)
    (converted : ∀ block ∈ decoded,
      convertToGethBlock setup.geth (some block.proto) = .ok block.geth) :
    ∃ store state handler, TakesCalls execution.metadata side.chain.metadataStore store ∧
      last.chain = { side.chain with
        metadataStore := store
        state := state
        snapshotHandler := handler
        blockHashHistory := recordHashes side.chain.blockHashHistory
          (recordedHashes execution setup.geth side.chain (decoded.map DecodedBlock.proto)) } := by
  induction works with
  | nil side =>
      exact ⟨side.chain.metadataStore, side.chain.state, side.chain.snapshotHandler,
        takes_no_calls _, rfl⟩
  | @cons side next last first result rest results worked others ih =>
      rw [List.forall_mem_cons] at converted
      rcases apply_blocks_state isState worked with ⟨middle, receipts, stateRoot, applied, nextEq, -⟩
      have number := convert_number converted.1
      have sealedNumber := (apply_block_records applied).2
      rcases apply_block_changes applied with ⟨store, state, takes, middleEq⟩
      rcases maybe_snapshot_cases execution middle (numberU64 result.decoded.geth) stateRoot with
        ⟨handler, reopened, snapshotEq⟩
      rcases ih converted.2 with ⟨lastStore, lastState, lastHandler, moreTakes, lastEq⟩
      have recordedEq : recordedHashes execution setup.geth side.chain
          (first.proto :: rest.map DecodedBlock.proto) =
          (first.proto.number, execution.hashHeader result.decoded.geth.header) ::
            recordedHashes execution setup.geth next.chain (rest.map DecodedBlock.proto) := by
        rw [recordedHashes, converted.1]
        dsimp only
        rw [applied]
        dsimp only
        rw [nextEq, sealedNumber, number]
      rw [snapshotEq, middleEq, number] at nextEq
      refine ⟨lastStore, lastState, lastHandler, ?_, ?_⟩
      · rw [nextEq] at moreTakes
        exact takes.trans moreTakes
      · rw [lastEq, List.map_cons, recordedEq, nextEq]
        rfl

end Memory

section Opening

variable {execution : Execution Details Correction FailedBundle World} {codec : GoCodec}
variable {genesis : Rules Details} {applyGenesis : World → Except String World}
variable {args : ReplayArgs} {blockDb : KvDb} {world : World} {handler : SnapshotHandler}
variable {adapter : StateChainAdapter Details Correction FailedBundle World}

omit [DecidableEq Details] [Inhabited Details] in
theorem prepare_state_ok
    {chain : StateChainAdapter Details Correction FailedBundle World}
    (prepared : prepareState execution codec applyGenesis args blockDb chain = .ok adapter) :
    ∃ seeded state, seedBlockHashHistory codec blockDb chain.chainID args.startBlock
        chain.blockHashHistory = (seeded, .ok ()) ∧
      (args.startBlock ≠ 0 → state = chain.state) ∧
      adapter = { chain with state := state, blockHashHistory := seeded } := by
  unfold prepareState at prepared
  dsimp only at prepared
  split at prepared
  · cases prepared
  · rename_i state applied
    split at prepared
    · cases prepared
    · rename_i seeded seeding
      split at prepared
      · cases prepared
      · cases prepared
        refine ⟨seeded, state, seeding, ?_, rfl⟩
        intro later
        rw [if_neg later] at applied
        cases applied
        rfl

omit [Inhabited Details] in
theorem open_chain_ok
    (opened : openChain execution codec genesis applyGenesis args blockDb world handler =
      .ok adapter) :
    ∃ store seeded state,
      newBlockDBMetadataStore execution.metadata blockDb genesis args.writeRulesUpdateHeights =
        .ok store ∧
      seedBlockHashHistory codec blockDb genesis.networkID args.startBlock .empty =
        (seeded, .ok ()) ∧
      (args.startBlock ≠ 0 → state = world) ∧
      adapter = ⟨genesis.networkID, store, seeded, state, args.dbSchema, handler⟩ := by
  unfold openChain at opened
  cases checked : checkArgs args with
  | error refused =>
      rw [checked] at opened
      cases opened
  | ok accepted =>
      rw [checked] at opened
      cases created : newBlockDBMetadataStore execution.metadata blockDb genesis
          args.writeRulesUpdateHeights with
      | error failure =>
          rw [created] at opened
          cases opened
      | ok store =>
          rw [created] at opened
          cases prepared : prepareState execution codec applyGenesis args blockDb
              ⟨genesis.networkID, store, .empty, world, args.dbSchema, handler⟩ with
          | error failure =>
              have failed : (Except.error failure :
                  Except String (StateChainAdapter Details Correction FailedBundle World)).mapError
                  (fun err => s!"failed to prepare state: {err}") = .ok adapter := by
                rw [← prepared]
                exact opened
              cases failed
          | ok own =>
              have same : (Except.ok own :
                  Except String (StateChainAdapter Details Correction FailedBundle World)).mapError
                  (fun err => s!"failed to prepare state: {err}") = .ok adapter := by
                rw [← prepared]
                exact opened
              cases same
              rcases prepare_state_ok prepared with ⟨seeded, state, seeding, kept, ownEq⟩
              exact ⟨store, seeded, state, rfl, seeding, kept, ownEq⟩

end Opening

section Window

variable {codec : GoCodec} {db blockDB : KvDb} {chainID first : UInt64}
variable {history seeded : BlockHashHistory}

theorem parent_hashes_rest {blocks : List ProtoBlock.Block} {bound position : Nat}
    (numbers : ∀ block ∈ blocks, 1 ≤ block.number.toNat ∧ block.number.toNat ≤ bound)
    (above : bound ≤ position) (inside : position < 256) :
    readSlot (parentHashes history blocks).historicHashes position =
      readSlot history.historicHashes position := by
  induction blocks generalizing history with
  | nil => rfl
  | cons block rest ih =>
      rw [List.forall_mem_cons] at numbers
      have written : parentHashes history (block :: rest) = parentHashes
          (setBlockHash history (block.number - 1) (bytesToFixed 32 block.parentHash)) rest := rfl
      have previous : (block.number - 1).toNat = block.number.toNat - 1 := by
        rw [UInt64.toNat_sub_of_le]
        · rfl
        · exact UInt64.le_iff_toNat_le.mpr numbers.1.1
      rw [written, ih numbers.2, set_block_hash_eq, read_slot_write, previous, if_neg]
      rw [Nat.mod_eq_of_lt inside, Nat.mod_eq_of_lt (by omega)]
      omega

theorem seeded_filled
    (numbered : ∀ number data block, db[makeBlockKey chainID number]? = some data →
      codec.unmarshal data = .ok block → block.number = number)
    (seeding : seedBlockHashHistory codec db chainID first .empty = (seeded, .ok ())) :
    Filled seeded.historicHashes (storedParentHash codec db chainID) (FixedBytes.zero 32)
      first.toNat := by
  by_cases genesis : first = 0
  · rw [seedBlockHashHistory, if_pos genesis] at seeding
    cases seeding
    rw [genesis]
    constructor
    · intro position _ below
      exact absurd below (Nat.not_lt_zero position)
    · intro position _ _
      rfl
  · rcases seeded_blocks numbered genesis seeding with ⟨blocks, seededEq, numbers, complete, -⟩
    constructor
    · exact seeded_window numbered genesis seeding
    · intro position above inside
      rw [seededEq, parent_hashes_rest _ above inside]
      · rfl
      · intro block member
        have inRange : block.number.toNat ∈ List.range' (seedStart first).toNat blocks.length := by
          rw [← numbers]
          exact List.mem_map_of_mem member
        have limits := List.mem_range'_1.mp inRange
        have start := seed_start_toNat genesis
        omega

theorem record_hashes_filled {values : Nat → Hash} {blank : Hash} {low : Nat}
    {recorded : List (UInt64 × Hash)} (filled : Filled history.historicHashes values blank low)
    (numbers : recorded.map (fun entry => entry.1.toNat) = List.range' low recorded.length)
    (hashes : ∀ index entry, recorded[index]? = some entry → entry.2 = values (low + index)) :
    Filled (recordHashes history recorded).historicHashes values blank
      (low + recorded.length) := by
  induction recorded generalizing history low with
  | nil => exact filled
  | cons entry rest ih =>
      rw [List.map_cons, List.length_cons, List.range'_succ, List.cons.injEq] at numbers
      have extended : Filled (setBlockHash history entry.1 entry.2).historicHashes values blank
          (low + 1) := by
        rw [set_block_hash_eq, numbers.1, hashes 0 entry rfl]
        exact filled.next
      have finished := ih extended numbers.2 (by
        intro index other present
        rw [hashes (index + 1) other present]
        congr 1
        omega)
      have sameEnd : low + (rest.length + 1) = low + 1 + rest.length := by omega
      rw [List.length_cons, sameEnd]
      exact finished

variable {schema : Nat} {policy : OverwriteStateRootPolicy} {calls : List CheckCall}

theorem framed_numbered (framed : Framed codec chainID schema policy db calls blockDB)
    (numbered : ∀ number data block, db[makeBlockKey chainID number]? = some data →
      codec.unmarshal data = .ok block → block.number = number)
    {number : UInt64} {data : BigEndian.Bytes} {block : ProtoBlock.Block}
    (stored : blockDB[makeBlockKey chainID number]? = some data)
    (decoded : codec.unmarshal data = .ok block) : block.number = number := by
  rcases framed.blocks number with same | ⟨before, root, after, read, -, -, -, replaced, written⟩
  · rw [same] at stored
    exact numbered number data block stored decoded
  · have own : block = after := by
      rw [GoBlockDb.get, stored, Option.mapM_some, decoded] at written
      cases written
      rfl
    rw [own, replaced.keeps.1]
    rcases CommandRuns.get_message_ok.mp read with ⟨earlier, found, unmarshaled⟩
    rw [BlockDb.getBytes, ← make_block_key_eq] at found
    exact numbered number earlier before found unmarshaled

theorem framed_parent_hash (framed : Framed codec chainID schema policy db calls blockDB)
    (number : Nat) :
    storedParentHash codec blockDB chainID number = storedParentHash codec db chainID number := by
  unfold storedParentHash
  rcases framed.blocks (UInt64.ofNat (number + 1)) with same |
    ⟨before, root, after, read, -, -, -, replaced, written⟩
  · rw [GoBlockDb.get, GoBlockDb.get, same]
  · rw [read, written]
    dsimp only
    rw [replaced.keeps.2]

end Window

section Links

variable {execution : Execution Details Correction FailedBundle World} {Progress : Type}
variable {info : ChainInfo}
variable {setup : Setup (StateChainAdapter Details Correction FailedBundle World) Progress}

theorem number_at {Item : Type} {items : List Item} {number : Item → Nat} {low index : Nat}
    (numbers : items.map number = List.range' low items.length) {item : Item}
    (present : items[index]? = some item) : number item = low + index := by
  have inside := (List.getElem?_eq_some_iff.mp present).1
  have atIndex := congrArg (fun numbers => numbers[index]?) numbers
  rw [List.getElem?_map, present, List.getElem?_range' inside] at atIndex
  simpa using atIndex

/-- The checks of a successful replay of consecutive blocks have linked each block to the
recorded hash of the block before it. -/
theorem works_chain (isState : setup.chain = stateChain execution info)
    {side last : ApplySide (StateChainAdapter Details Correction FailedBundle World)}
    {checkSide checkLast : CheckSide Progress} {decoded : List DecodedBlock}
    {results : List ProcessResult}
    (works : Works (pipelineStages setup) side decoded results last)
    (finishes : Finishes (pipelineStages setup) checkSide results checkLast)
    (converted : ∀ block ∈ decoded,
      convertToGethBlock setup.geth (some block.proto) = .ok block.geth)
    {low : Nat} (numbers : decoded.map (fun block => block.proto.number.toNat) =
      List.range' low decoded.length)
    (hashed : ∀ entry ∈ recordedHashes execution setup.geth side.chain
      (decoded.map DecodedBlock.proto), entry.2 ≠ FixedBytes.zero 32) :
    (recordedHashes execution setup.geth side.chain (decoded.map DecodedBlock.proto)).map
        (fun entry => entry.1.toNat) = List.range' low decoded.length ∧
      ∀ index block entry, decoded[index + 1]? = some block →
        (recordedHashes execution setup.geth side.chain
          (decoded.map DecodedBlock.proto))[index]? = some entry →
        bytesToFixed 32 block.proto.parentHash = entry.2 := by
  have empty : side.chain.blockHashHistory = recordHashes side.chain.blockHashHistory [] := rfl
  rcases works_links isState works finishes converted empty with ⟨recordedNumbers, links⟩
  have consecutive : (recordedHashes execution setup.geth side.chain
      (decoded.map DecodedBlock.proto)).map (fun entry => entry.1.toNat) =
      List.range' low decoded.length := by
    have naturals := congrArg (List.map UInt64.toNat) recordedNumbers
    rw [List.map_map, List.map_map] at naturals
    exact naturals.trans numbers
  refine ⟨consecutive, ?_⟩
  intro index block entry present recorded
  have sameLength := congrArg List.length consecutive
  rw [List.length_map, List.length_range'] at sameLength
  rw [← sameLength] at consecutive
  have entryNumber := number_at consecutive recorded
  have blockNumber := number_at numbers present
  have positive : block.proto.number ≠ 0 := by
    intro zero
    rw [zero, UInt64.toNat_zero] at blockNumber
    omega
  have previous : entry.1 = block.proto.number - 1 := by
    apply UInt64.toNat_inj.mp
    rw [UInt64.toNat_sub_of_le]
    · rw [entryNumber, blockNumber]
      simp
    · apply UInt64.le_iff_toNat_le.mpr
      rw [blockNumber, UInt64.toNat_one]
      omega
  have linked := links (index + 1) block present positive
  rw [List.nil_append, ← previous, latest_hash_take _ recorded] at linked
  exact linked.resolve_left (hashed entry (List.mem_of_getElem? recorded))

end Links

section Metadata

variable {libraries : Libraries Details Correction FailedBundle} {genesis : Rules Details}
variable {before after : MetadataStore Details Correction FailedBundle}

omit [Inhabited Details] in
theorem apply_call_db (libraries : Libraries Details Correction FailedBundle)
    (grounded : Grounded genesis before.rulesUpdateHeights) (call : RulesCall) :
    (applyCall libraries before call).1.db = before.db ∨
      ∃ data, (applyCall libraries before call).1.db =
        putRulesUpdateHeights before.db genesis.networkID data := by
  have nextGrounded : Grounded genesis (applyCall libraries before call).1.rulesUpdateHeights :=
    apply_call_grounded grounded call
  cases call with
  | patch blockNumber diff =>
      rcases patch_rules_cases libraries before blockNumber diff with ⟨nextRules, patched⟩
      rw [applyCall, patched]
      exact .inl rfl
  | commit blockNumber =>
      rw [applyCall] at nextGrounded ⊢
      rcases commit_rules_cases libraries before blockNumber with
        nothing | ⟨-, -, -, -, known, -⟩ | ⟨nextRules, -, -, added⟩
      · rw [nothing.2]
        exact .inl rfl
      · rw [known]
        exact .inl rfl
      · rw [added] at nextGrounded ⊢
        unfold storeHeights at nextGrounded ⊢
        split at nextGrounded
        · rename_i unwritten
          rw [if_pos unwritten]
          exact .inl rfl
        · rename_i written
          rw [if_neg written]
          split
          · exact .inl rfl
          · rename_i data marshaled
            have first : (sortHeights (before.rulesUpdateHeights ++
                [⟨blockNumber + 1, nextRules⟩])).head? = some ⟨0, genesis⟩ := by
              have known := nextGrounded.first
              rw [marshaled] at known
              exact known
            refine .inr ⟨data, ?_⟩
            dsimp only
            rw [List.headD_eq_head?_getD, first]
            rfl

omit [Inhabited Details] in
theorem run_calls_db (libraries : Libraries Details Correction FailedBundle)
    (grounded : Grounded genesis before.rulesUpdateHeights) (calls : List RulesCall) :
    (∀ key, key ≠ makeRulesUpdateHeightsKey genesis.networkID →
        (runCalls libraries before calls).1.db[key]? = before.db[key]?) ∧
      (getRulesUpdateHeights (runCalls libraries before calls).1.db genesis.networkID = none →
        getRulesUpdateHeights before.db genesis.networkID = none) := by
  induction calls generalizing before with
  | nil => exact ⟨fun _ _ => rfl, fun absent => absent⟩
  | cons call rest ih =>
      have nextGrounded : Grounded genesis (applyCall libraries before call).1.rulesUpdateHeights :=
        apply_call_grounded grounded call
      have later := ih nextGrounded
      rcases apply_call_db libraries grounded call with same | ⟨data, written⟩
      · rw [same] at later
        exact later
      · rw [written] at later
        constructor
        · intro key other
          rw [← show (putRulesUpdateHeights before.db genesis.networkID data)[key]? =
            before.db[key]? by rw [putRulesUpdateHeights, get_put, if_neg other.symm]]
          exact later.1 key other
        · intro absent
          have removed := later.2 absent
          rw [getRulesUpdateHeights, putRulesUpdateHeights, get_put, if_pos rfl] at removed
          cases removed

end Metadata

/-- The database that the checks and the metadata store of a replay share: the checks write
blocks, the metadata store the update heights of the rules. -/
def sharedDb (chainID : UInt64) (blockDB metadataDb : KvDb) : KvDb :=
  match getRulesUpdateHeights metadataDb chainID with
  | none => blockDB
  | some data => putRulesUpdateHeights blockDB chainID data

section Shared

variable {codec : GoCodec} {chainID : UInt64} {schema : Nat} {policy : OverwriteStateRootPolicy}
variable {db blockDB metadataDb : KvDb} {calls : List CheckCall}

theorem get_shared_other {key : BigEndian.Bytes}
    (other : key ≠ makeRulesUpdateHeightsKey chainID) :
    (sharedDb chainID blockDB metadataDb)[key]? = blockDB[key]? := by
  unfold sharedDb
  split
  · rfl
  · rw [putRulesUpdateHeights, get_put, if_neg other.symm]

theorem get_shared_rules
    (kept : getRulesUpdateHeights metadataDb chainID = none →
      getRulesUpdateHeights blockDB chainID = none) :
    getRulesUpdateHeights (sharedDb chainID blockDB metadataDb) chainID =
      getRulesUpdateHeights metadataDb chainID := by
  unfold sharedDb
  cases found : getRulesUpdateHeights metadataDb chainID with
  | none => exact kept found
  | some data =>
      dsimp only
      rw [getRulesUpdateHeights, putRulesUpdateHeights, get_put, if_pos rfl]

theorem block_key_ne_rules_key (number : UInt64) :
    makeBlockKey chainID number ≠ makeRulesUpdateHeightsKey chainID := by
  simp [makeBlockKey, makeRulesUpdateHeightsKey]

theorem shared_parent_hash (framed : Framed codec chainID schema policy db calls blockDB)
    (number : Nat) :
    storedParentHash codec (sharedDb chainID blockDB metadataDb) chainID number =
      storedParentHash codec db chainID number := by
  rw [← framed_parent_hash framed number, storedParentHash, storedParentHash, GoBlockDb.get,
    GoBlockDb.get, get_shared_other (block_key_ne_rules_key _)]

theorem shared_numbered (framed : Framed codec chainID schema policy db calls blockDB)
    (numbered : ∀ number data block, db[makeBlockKey chainID number]? = some data →
      codec.unmarshal data = .ok block → block.number = number)
    (number : UInt64) (data : BigEndian.Bytes) (block : ProtoBlock.Block)
    (found : (sharedDb chainID blockDB metadataDb)[makeBlockKey chainID number]? = some data)
    (decodes : codec.unmarshal data = .ok block) : block.number = number := by
  rw [get_shared_other (block_key_ne_rules_key number)] at found
  exact framed_numbered framed numbered found decodes

omit [Inhabited Details] in
/-- The next replay reads from the shared database what the metadata store has but the pending
rules. -/
theorem shared_reloads {libraries : Libraries Details Correction FailedBundle}
    {genesis : Rules Details} {created final : MetadataStore Details Correction FailedBundle}
    (lossless : ∀ heights, ∃ data, libraries.marshal heights = .ok data ∧
      libraries.unmarshal data = .ok heights)
    (opened : newBlockDBMetadataStore libraries db genesis true = .ok created)
    (takes : TakesCalls libraries created final)
    (framed : Framed codec genesis.networkID schema policy db calls blockDB) :
    newBlockDBMetadataStore libraries (sharedDb genesis.networkID blockDB final.db) genesis true =
      .ok { final with
        db := sharedDb genesis.networkID blockDB final.db
        nextRules := none } := by
  have grounded := created_grounded opened
  have sameDb : created.db = db := (new_store_eq_ok.mp opened).2.2.2.1
  rcases takes with ⟨ruleCalls, finalEq⟩
  have reloads : Reloads libraries genesis final := by
    rw [finalEq]
    exact run_calls_reloads lossless grounded (created_reloads opened) ruleCalls
  have written := run_calls_db libraries grounded ruleCalls
  rw [← finalEq, sameDb] at written
  rcases new_store_eq_ok.mp reloads with ⟨heights, corrections, bundles, -, -, write⟩
  have untouched : ∀ key, key ≠ makeRulesUpdateHeightsKey genesis.networkID →
      (∀ number, key ≠ makeBlockKey genesis.networkID number) →
      (sharedDb genesis.networkID blockDB final.db)[key]? = final.db[key]? := by
    intro key notRules notBlock
    rw [get_shared_other notRules, framed.others key notBlock, written.1 key notRules]
  apply new_store_eq_ok.mpr
  refine ⟨?_, ?_, ?_, rfl, rfl, write⟩
  · rw [get_shared_rules]
    · exact heights
    · intro absent
      rw [getRulesUpdateHeights, framed.others _ fun number => (block_key_ne_rules_key number).symm]
      exact written.2 absent
  · rw [getCorrections, untouched]
    · exact corrections
    · simp [makeRulesUpdateHeightsKey, makeCorrectionsKey]
    · intro number
      simp [makeBlockKey, makeCorrectionsKey]
  · rw [getFailedBundles, untouched]
    · exact bundles
    · simp [makeRulesUpdateHeightsKey, makeFailedBundlesKey]
    · intro number
      simp [makeBlockKey, makeFailedBundlesKey]

end Shared

section Restart

variable {execution : Execution Details Correction FailedBundle World} {Progress : Type}
variable {setup : Setup (StateChainAdapter Details Correction FailedBundle World) Progress}
variable {genesis : Rules Details} {db : KvDb} {args : ReplayArgs}
variable {adapter final : StateChainAdapter Details Correction FailedBundle World}
variable {blocks : List ProtoBlock.Block} {last : UInt64}

/-- The history after a replay holds the hashes of a chain that agrees with the stored parent
hashes of all blocks but the last. -/
theorem replayed_filled {info : ChainInfo} (isState : setup.chain = stateChain execution info)
    {applyLast : ApplySide (StateChainAdapter Details Correction FailedBundle World)}
    {checkSide checkLast : CheckSide Progress} {decoded : List DecodedBlock}
    {results : List ProcessResult} {chainID first : UInt64}
    (works : Works (pipelineStages setup) ⟨adapter, []⟩ decoded results applyLast)
    (finishes : Finishes (pipelineStages setup) checkSide results checkLast)
    (converted : ∀ block ∈ decoded,
      convertToGethBlock setup.geth (some block.proto) = .ok block.geth)
    (stored : ∀ block ∈ decoded,
      get setup.codec db chainID block.proto.number = .ok (some block.proto))
    (numbers : decoded.map (fun block => block.proto.number.toNat) =
      List.range' first.toNat decoded.length)
    (hashed : ∀ entry ∈ recordedHashes execution setup.geth adapter
      (decoded.map DecodedBlock.proto), entry.2 ≠ FixedBytes.zero 32)
    (seeded : Filled adapter.blockHashHistory.historicHashes
      (storedParentHash setup.codec db chainID) (FixedBytes.zero 32) first.toNat) :
    ∃ values : Nat → Hash,
      Filled (recordHashes adapter.blockHashHistory (recordedHashes execution setup.geth adapter
          (decoded.map DecodedBlock.proto))).historicHashes values (FixedBytes.zero 32)
        (first.toNat + decoded.length) ∧
      ∀ number, number + 1 < first.toNat + decoded.length →
        values number = storedParentHash setup.codec db chainID number := by
  rcases works_chain isState works finishes converted numbers hashed with ⟨consecutive, linked⟩
  let recorded := recordedHashes execution setup.geth adapter (decoded.map DecodedBlock.proto)
  have sameLength : recorded.length = decoded.length := by
    have lengths := congrArg List.length consecutive
    rw [List.length_map, List.length_range'] at lengths
    exact lengths
  let values : Nat → Hash := fun number =>
    if number < first.toNat then storedParentHash setup.codec db chainID number
    else ((recorded[number - first.toNat]?).map Prod.snd).getD (FixedBytes.zero 32)
  have start : Filled adapter.blockHashHistory.historicHashes values (FixedBytes.zero 32)
      first.toNat := by
    apply seeded.congr
    intro position _ below
    exact (if_pos below).symm
  have hashes : ∀ index entry, recorded[index]? = some entry →
      entry.2 = values (first.toNat + index) := by
    intro index entry present
    dsimp only [values]
    rw [if_neg (by omega), Nat.add_sub_cancel_left, present]
    rfl
  refine ⟨values, ?_, ?_⟩
  · rw [← sameLength] at consecutive ⊢
    exact record_hashes_filled start consecutive hashes
  · intro number before
    by_cases earlier : number < first.toNat
    · exact if_pos earlier
    · -- a replayed block that the next replayed block is linked to
      let index := number - first.toNat
      have inside : index + 1 < decoded.length := by omega
      have present := List.getElem?_eq_getElem inside
      have recordedAt := List.getElem?_eq_getElem
        (show index < recorded.length by omega)
      have blockNumber := number_at numbers present
      have isNext : number = decoded[index + 1].proto.number.toNat - 1 := by omega
      have parent := stored_parent_hash_eq (by omega)
        (stored decoded[index + 1] (List.getElem_mem inside))
      have value := hashes index recorded[index] recordedAt
      rw [show first.toNat + index = number by omega] at value
      rw [← value, ← linked index decoded[index + 1] recorded[index] present recordedAt, isNext,
        parent]

omit [Inhabited Details] [DecidableEq Details] in
theorem get_range_stored
    (numbered : ∀ number data block, db[makeBlockKey genesis.networkID number]? = some data →
      setup.codec.unmarshal data = .ok block → block.number = number)
    (read : getRange setup.codec db genesis.networkID args.startBlock last = blocks.map .ok) :
    ∀ block ∈ blocks, get setup.codec db genesis.networkID block.number = .ok (some block) := by
  intro block member
  have inRange : .ok block ∈ getRange setup.codec db genesis.networkID args.startBlock last := by
    rw [read]
    exact List.mem_map_of_mem member
  exact (mem_get_range numbered inRange).2.2

theorem stored_loop_framed {chainID : UInt64} {schema : Nat}
    (adapter : StateChainAdapter Details Correction FailedBundle World)
    (context : ReplayLoopContext) (progress : Progress)
    (lossless : ∀ block data, setup.codec.marshal block = .ok data →
      setup.codec.unmarshal data = .ok block)
    (isState : setup.chain = stateChain execution (chainInfo chainID schema))
    (stored : ∀ block ∈ blocks, get setup.codec db chainID block.number = .ok (some block)) :
    Framed setup.codec chainID schema context.overwriteStateRoot db
      (runReplayLoop setup ⟨adapter, []⟩ ⟨⟨db, context⟩, progress, []⟩
        (blocks.map fun block => uncancelled (.ok block))).2.1.calls
      (runReplayLoop setup ⟨adapter, []⟩ ⟨⟨db, context⟩, progress, []⟩
        (blocks.map fun block => uncancelled (.ok block))).2.1.checks.blockDB := by
  have info : setup.chain.info = chainInfo chainID schema := by
    rw [isState]
    rfl
  have turnsStored : ∀ turn ∈ blocks.map fun block => uncancelled (.ok block), ∀ block,
      turn.next = .ok block → get setup.codec db chainID block.number = .ok (some block) := by
    intro turn member block next
    rcases List.mem_map.mp member with ⟨own, ownMember, turnEq⟩
    rw [← turnEq] at next
    cases next
    exact stored _ ownMember
  exact (replay_in_frame lossless info turnsStored ⟨adapter, []⟩ progress).1.framed

theorem finished_loop_memory {info : ChainInfo}
    (isState : setup.chain = stateChain execution info) {chainID first : UInt64}
    (stored : ∀ block ∈ blocks, get setup.codec db chainID block.number = .ok (some block))
    (consecutive : blocks.map (fun block => block.number.toNat) =
      List.range' first.toNat blocks.length)
    (hashed : ∀ entry ∈ recordedHashes execution setup.geth adapter blocks,
      entry.2 ≠ FixedBytes.zero 32)
    (seeded : Filled adapter.blockHashHistory.historicHashes
      (storedParentHash setup.codec db chainID) (FixedBytes.zero 32) first.toNat)
    {checkSide : CheckSide Progress}
    (finished : (runReplayLoop setup ⟨adapter, []⟩ checkSide
      (blocks.map fun block => uncancelled (.ok block))).2.2 = .ok ()) :
    ∃ store state handler, TakesCalls execution.metadata adapter.metadataStore store ∧
      (runReplayLoop setup ⟨adapter, []⟩ checkSide
          (blocks.map fun block => uncancelled (.ok block))).1.chain = { adapter with
        metadataStore := store
        state := state
        snapshotHandler := handler
        blockHashHistory := recordHashes adapter.blockHashHistory
          (recordedHashes execution setup.geth adapter blocks) } ∧
      ∃ values : Nat → Hash,
        Filled (recordHashes adapter.blockHashHistory
            (recordedHashes execution setup.geth adapter blocks)).historicHashes values
          (FixedBytes.zero 32) (first.toNat + blocks.length) ∧
        ∀ number, number + 1 < first.toNat + blocks.length →
          values number = storedParentHash setup.codec db chainID number := by
  rcases replay_loop_stages finished with ⟨decoded, results, rfl, converted, works, finishes⟩
  rcases works_memory isState works converted with ⟨store, state, handler, takes, memory⟩
  rw [List.map_map, List.length_map] at consecutive
  rw [List.length_map]
  have window := replayed_filled isState works finishes converted
    (fun block member => stored _ (List.mem_map_of_mem member)) consecutive hashed seeded
  exact ⟨store, state, handler, takes, memory, window⟩

/-- A history filled from stored parent hashes is the one that a replay has filled exactly if
the two agree on the last position, when they do on the positions before it. -/
theorem rebuilt_history_iff {rebuilt history : BlockHashHistory} {parents values : Nat → Hash}
    (rebuiltFilled : Filled rebuilt.historicHashes parents (FixedBytes.zero 32) (last.toNat + 1))
    (filled : Filled history.historicHashes values (FixedBytes.zero 32) (last.toNat + 1))
    (agree : ∀ number, number < last.toNat → values number = parents number) :
    rebuilt = history ↔ parents last.toNat = getBlockHash history last := by
  have hashAt : getBlockHash history last = values last.toNat := by
    rw [get_block_hash_eq, filled.window last.toNat (by omega) (by omega)]
  constructor
  · intro same
    rw [← same, get_block_hash_eq, rebuiltFilled.window last.toNat (by omega) (by omega)]
  · intro linked
    have slots : rebuilt.historicHashes = history.historicHashes := by
      apply rebuiltFilled.unique
      apply filled.congr
      intro position _ below
      by_cases isLast : position = last.toNat
      · rw [isLast, linked, hashAt]
      · exact agree position (by omega)
    cases rebuilt
    exact congrArg BlockHashHistory.mk slots

/-- A replay that goes on behind a finished one finds all of its memory again if and only if no
rules are pending and the stored parent hash of its first block is the hash that has been
recorded for the last one. -/
theorem restart_rebuilds_iff {applyGenesis : World → Except String World} {world : World}
    {handler snapshots : SnapshotHandler}
    (numbered : ∀ number data block, db[makeBlockKey genesis.networkID number]? = some data →
      setup.codec.unmarshal data = .ok block → block.number = number)
    (lossless : ∀ block data, setup.codec.marshal block = .ok data →
      setup.codec.unmarshal data = .ok block)
    (rulesLossless : ∀ heights, ∃ data, execution.metadata.marshal heights = .ok data ∧
      execution.metadata.unmarshal data = .ok heights)
    (isState : setup.chain = stateChain execution (chainInfo genesis.networkID args.dbSchema))
    (writesRules : args.writeRulesUpdateHeights = true)
    (opened : openChain execution setup.codec genesis applyGenesis args db world handler =
      .ok adapter)
    (read : getRange setup.codec db genesis.networkID args.startBlock last = blocks.map .ok)
    (consecutive : blocks.map (fun block => block.number.toNat) =
      List.range' args.startBlock.toNat blocks.length)
    (complete : args.startBlock.toNat + blocks.length = last.toNat + 1)
    (hashed : ∀ entry ∈ recordedHashes execution setup.geth adapter blocks,
      entry.2 ≠ FixedBytes.zero 32)
    {context : ReplayLoopContext} {progress : Progress}
    {loop : ApplySide (StateChainAdapter Details Correction FailedBundle World) ×
      CheckSide Progress × Except Failure Unit}
    (ran : runReplayLoop setup ⟨adapter, []⟩ ⟨⟨db, context⟩, progress, []⟩
      (blocks.map fun block => uncancelled (.ok block)) = loop)
    (finished : loop.2.2 = .ok ()) {again : ReplayArgs}
    (follows : again.startBlock.toNat = last.toNat + 1)
    (sameSchema : again.dbSchema = args.dbSchema)
    (writesAgain : again.writeRulesUpdateHeights = true)
    {restarted : StateChainAdapter Details Correction FailedBundle World}
    (reopened : openChain execution setup.codec genesis applyGenesis again
      (sharedDb genesis.networkID loop.2.1.checks.blockDB loop.1.chain.metadataStore.db)
      loop.1.chain.state snapshots = .ok restarted) :
    restarted = { loop.1.chain with
        metadataStore := { loop.1.chain.metadataStore with
          db := sharedDb genesis.networkID loop.2.1.checks.blockDB
            loop.1.chain.metadataStore.db }
        snapshotHandler := snapshots } ↔
      loop.1.chain.metadataStore.nextRules = none ∧
        storedParentHash setup.codec db genesis.networkID last.toNat =
          getBlockHash loop.1.chain.blockHashHistory last := by
  rcases open_chain_ok opened with ⟨store, seeded, state, created, seeding, -, adapterEq⟩
  rcases open_chain_ok reopened with
    ⟨storeAgain, seededAgain, stateAgain, createdAgain, seedingAgain, sameState, restartedEq⟩
  have stored := get_range_stored numbered read
  have framed := stored_loop_framed adapter context progress lossless isState stored
  rw [ran] at framed
  -- what the replay has left in memory
  have seededFilled := seeded_filled numbered seeding
  rw [show seeded = adapter.blockHashHistory by rw [adapterEq]] at seededFilled
  rw [← ran] at finished
  rcases finished_loop_memory isState stored consecutive hashed seededFilled finished with
    ⟨finalStore, finalState, finalHandler, takes, finalEq, values, filled, agree⟩
  rw [ran] at finalEq
  have finalHistory : loop.1.chain.blockHashHistory = recordHashes adapter.blockHashHistory
      (recordedHashes execution setup.geth adapter blocks) := by
    rw [finalEq]
  rw [← finalHistory, complete] at filled
  rw [complete] at agree
  -- what the next replay reads
  have filledAgain := seeded_filled (shared_numbered framed numbered) seedingAgain
  rw [follows] at filledAgain
  have histories := rebuilt_history_iff filledAgain filled (by
    intro number below
    rw [shared_parent_hash framed]
    exact agree number (by omega))
  rw [shared_parent_hash framed] at histories
  have takesStore : TakesCalls execution.metadata store loop.1.chain.metadataStore := by
    rw [finalEq]
    rw [adapterEq] at takes
    exact takes
  rw [writesRules] at created
  rw [writesAgain, shared_reloads rulesLossless created takesStore framed, Except.ok.injEq]
    at createdAgain
  have later : again.startBlock ≠ 0 := by
    intro zero
    rw [zero, UInt64.toNat_zero] at follows
    omega
  have chainEq : loop.1.chain.chainID = genesis.networkID ∧
      loop.1.chain.schema = args.dbSchema := by
    rw [finalEq, adapterEq]
    exact ⟨rfl, rfl⟩
  constructor
  · intro same
    constructor
    · have pending := congrArg (fun chain => chain.metadataStore.nextRules) same
      rw [restartedEq, ← createdAgain] at pending
      exact pending.symm
    · have sameHistory := congrArg StateChainAdapter.blockHashHistory same
      rw [restartedEq] at sameHistory
      exact histories.mp sameHistory
  · intro ⟨nothingPending, linked⟩
    rw [restartedEq, histories.mpr linked, sameState later, ← createdAgain, sameSchema,
      ← chainEq.1, ← chainEq.2]
    rw [← nothingPending]

end Restart

/-! ## A replay of one block that goes on with the next -/

def linkedMessage (number : UInt8) : ProtoBlock.Block :=
  { numberOnly number.toUInt64 with parentHash := [number] }

def linkedCodec : GoCodec where
  marshal message :=
    if message = linkedMessage message.number.toUInt8 then .ok [0x30, message.number.toUInt8]
    else .error "unsupported message"
  unmarshal
    | [0x30, number] => .ok (linkedMessage number)
    | _ => .error "unexpected EOF"

theorem linked_lossless (message : ProtoBlock.Block) (data : BigEndian.Bytes)
    (written : linkedCodec.marshal message = .ok data) :
    linkedCodec.unmarshal data = .ok message := by
  simp only [linkedCodec] at written
  split at written
  · rename_i linked
    cases written
    exact congrArg Except.ok linked.symm
  · cases written

def linkedDb : KvDb :=
  applyOp (applyOp ∅ (.put (makeBlockKey 146 1) [0x30, 1])) (.put (makeBlockKey 146 2) [0x30, 2])

theorem linked_numbered (number : UInt64) (data : BigEndian.Bytes) (block : ProtoBlock.Block)
    (stored : linkedDb[makeBlockKey 146 number]? = some data)
    (decoded : linkedCodec.unmarshal data = .ok block) : block.number = number := by
  rw [linkedDb, get_put, get_put] at stored
  split_ifs at stored with second first
  · cases stored
    cases decoded
    exact (BlockKeys.make_block_key_injective second).2
  · cases stored
    cases decoded
    exact (BlockKeys.make_block_key_injective first).2
  · simp at stored

def linkedSetup : Setup (StateChainAdapter Unit Unit Unit Unit) Unit :=
  ⟨stateChain plainExecution (chainInfo 146 5), plainGeth, linkedCodec, none, false⟩

def linkedArgs (startBlock : UInt64) : ReplayArgs :=
  ⟨"", "state", false, 0, startBlock, startBlock, 0, 0, 0, 0, true, 5⟩

def linkedAdapter (seeds : List UInt8) : StateChainAdapter Unit Unit Unit Unit :=
  ⟨146, { plainStore true with db := linkedDb }, parentHashes .empty (seeds.map linkedMessage), (),
    5, ⟨0, 0, 0, [], 0⟩⟩

theorem linked_opens : openChain plainExecution linkedSetup.codec plainGenesis .ok (linkedArgs 1)
    linkedDb () ⟨0, 0, 0, [], 0⟩ = .ok (linkedAdapter [1]) := by rfl

theorem linked_opens_again : openChain plainExecution linkedSetup.codec plainGenesis .ok
    (linkedArgs 2) linkedDb () ⟨0, 0, 0, [], 0⟩ = .ok (linkedAdapter [1, 2]) := by rfl

theorem restart_rebuilds_linked_blocks :
    let loop := runReplayLoop linkedSetup ⟨linkedAdapter [1], []⟩
      ⟨⟨linkedDb, ⟨.off, false, false, false⟩⟩, (), []⟩ [uncancelled (.ok (linkedMessage 1))]
    loop.2.2 = .ok () ∧ linkedAdapter [1, 2] = { loop.1.chain with
      metadataStore := { loop.1.chain.metadataStore with
        db := sharedDb plainGenesis.networkID loop.2.1.checks.blockDB
          loop.1.chain.metadataStore.db }
      snapshotHandler := ⟨0, 0, 0, [], 0⟩ } := by
  intro loop
  have finished : loop.2.2 = .ok () := by rfl
  have sameDb : sharedDb plainGenesis.networkID loop.2.1.checks.blockDB
      loop.1.chain.metadataStore.db = linkedDb := by rfl
  have reopened : openChain plainExecution linkedSetup.codec plainGenesis .ok (linkedArgs 2)
      (sharedDb plainGenesis.networkID loop.2.1.checks.blockDB
        loop.1.chain.metadataStore.db) loop.1.chain.state ⟨0, 0, 0, [], 0⟩ =
      .ok (linkedAdapter [1, 2]) := by
    rw [sameDb]
    exact linked_opens_again
  have read : getRange linkedSetup.codec linkedDb plainGenesis.networkID (linkedArgs 1).startBlock
      1 = [linkedMessage 1].map .ok := by rfl
  have hashed : ∀ entry ∈ recordedHashes plainExecution linkedSetup.geth (linkedAdapter [1])
      [linkedMessage 1], entry.2 ≠ FixedBytes.zero 32 := by
    decide
  have linked : storedParentHash linkedSetup.codec linkedDb plainGenesis.networkID 1 =
      getBlockHash loop.1.chain.blockHashHistory 1 := by rfl
  have ran : runReplayLoop linkedSetup ⟨linkedAdapter [1], []⟩
      ⟨⟨linkedDb, ⟨.off, false, false, false⟩⟩, (), []⟩
      ([linkedMessage 1].map fun block => uncancelled (.ok block)) = loop := rfl
  have state : linkedSetup.chain =
      stateChain plainExecution (chainInfo plainGenesis.networkID (linkedArgs 1).dbSchema) := rfl
  have follows : (linkedArgs 2).startBlock.toNat = (1 : UInt64).toNat + 1 := rfl
  have rebuilt := restart_rebuilds_iff linked_numbered linked_lossless plain_lossless state rfl
    linked_opens read rfl rfl hashed ran finished follows rfl rfl reopened
  exact ⟨finished, rebuilt.mpr ⟨rfl, linked⟩⟩

end Bertha.ReplayRestart
