import Bertha.GethBlocks
import Bertha.GoBlockDb
import Bertha.HeaderRlp
import Bertha.ImportExact

/-!
# The two verifiers of a stored chain

`verify` of `blockservice/src/cmd/verify.rs` walks the stored blocks forwards and compares
the hash of the previous block with the parent hash of the current one; `Verify` of
`go/verify/verify.go` walks them backwards and compares the hash of the current block with
the parent hash of its successor. Both tolerate a mismatch of a block with failed bundles.
Opening the database, the progress output and the Go log are left out; the JSON parsers of
the failed bundles, the wire codecs and the hash function are parameters.

On a contiguous range of blocks both amount to one condition on adjacent blocks.
-/

namespace Bertha.Verifiers

open Bertha.BigEndian Bertha.BlockDb Bertha.BlockIteration Bertha.BlockRanges
open Bertha.BlockDbInvariant Bertha.GethBlocks Bertha.GethConvert Bertha.GoBlockDb
open Bertha.HeaderRlp Bertha.Headers Bertha.ImportExact Bertha.OrderedStore
open Bertha.BlockTypes (Block Error Hash bytesToHex)

set_option autoImplicit false

structure RustLibraries where
  codec : WireCodec
  hashing : HashLibraries
  keccak256 : Bytes → Hash
  /-- `serde_json::from_slice::<Vec<FailedBundle>>`, reduced to the blocks. -/
  parseFailedBundles : Bytes → Except String (List UInt64)

def RustLibraries.blockHash (rust : RustLibraries) (block : Block) : Hash :=
  BlockHeader.computeHash rust.keccak256 (Block.toHeader rust.hashing block)

inductive VerifyError where
  | database (error : Error)
  | message (text : String)

structure Report where
  errors : Nat
  warned : Bool
  output : List String

def Report.write (report : Report) (line : String) : Report :=
  { report with output := report.output ++ [line] }

def checkBlockHash (chainId blockNumber : UInt64) (blockHash expectedHash : Hash)
    (expectedSource : String) (blocksWithFailedBundles : List UInt64) (report : Report) : Report :=
  if blockHash = expectedHash then report
  else if blockNumber ∈ blocksWithFailedBundles then
    if report.warned then report
    else { report with warned := true }.write
      (s!"[chain ID {chainId}] warning: tolerated hash mismatch of block {blockNumber}, which " ++
        "contains failed bundles; further tolerated hash mismatches are not reported.")
  else { report with errors := report.errors + 1 }.write
    (s!"[chain ID {chainId}] hash verification failed for block {blockNumber}: hash is " ++
      bytesToHex blockHash.val ++ ", but " ++ expectedSource ++ " is " ++
      bytesToHex expectedHash.val ++ ".")

structure LoopState where
  prevBlockNumber : UInt64
  prevBlockHash : Option Hash
  report : Report

def verifyEntry (rust : RustLibraries) (chainId : UInt64) (blocksWithFailedBundles : List UInt64)
    (state : LoopState) (blockNumber : UInt64) (block : Block) : LoopState :=
  let report :=
    if block.number ≠ blockNumber then
      { state.report with errors := state.report.errors + 1 }.write
        (s!"[chain ID {chainId}] block number mismatch: block number in key = {blockNumber}, " ++
          s!"block.number = {block.number}.")
    else state.report
  let prevBlockHash :=
    if state.prevBlockNumber + 1 ≠ blockNumber then none else state.prevBlockHash
  let report :=
    match prevBlockHash with
    | none => report
    | some hash =>
      checkBlockHash chainId state.prevBlockNumber hash block.parentHash
        s!"the parent hash in block {blockNumber}" blocksWithFailedBundles report
  { prevBlockNumber := blockNumber, prevBlockHash := some (rust.blockHash block), report }

def verifyLoop (rust : RustLibraries) (chainId : UInt64) (blocksWithFailedBundles : List UInt64)
    (isCancelled : Nat → Bool) :
    Nat → List (Except Error (UInt64 × Block)) → LoopState → Except VerifyError LoopState
  | _, [], state => .ok state
  | poll, entry :: entries, state =>
    if isCancelled poll then
      .ok { state with report := state.report.write "Verification cancelled." }
    else
      match entry with
      | .error error => .error (.database error)
      | .ok (blockNumber, block) =>
        verifyLoop rust chainId blocksWithFailedBundles isCancelled (poll + 1) entries
          (verifyEntry rust chainId blocksWithFailedBundles state blockNumber block)

def readFailedBundles (rust : RustLibraries) (db : KvDb) (chainId : UInt64) :
    Except VerifyError (List UInt64) :=
  match BlockDb.getFailedBundles db chainId with
  | none => .ok []
  | some data =>
    (rust.parseFailedBundles data).mapError fun error =>
      .message s!"failed to parse stored failed bundles: {error}"

/-- The check of the requested block against a given hash. -/
def verifyRequested (rust : RustLibraries) (db : KvDb) (chainId : UInt64)
    (blocksWithFailedBundles : List UInt64) (blockNumber : UInt64) (expectedHash : Hash)
    (report : Report) : Except VerifyError Report := do
  match ← (BlockDb.get rust.codec db chainId blockNumber).mapError .database with
  | some block =>
    return checkBlockHash chainId blockNumber (rust.blockHash block) expectedHash
      "the given hash" blocksWithFailedBundles report
  | none =>
    return { report with errors := report.errors + 1 }.write
      s!"[chain ID {chainId}] requested block {blockNumber} does not exit"

def conclusion (chainId : UInt64) (errors : Nat) : String :=
  if errors = 0 then s!"[chain ID {chainId}] Blocks verified successfully."
  else s!"[chain ID {chainId}] Verification completed with {errors} errors."

def verify (rust : RustLibraries) (db : KvDb) (chainId : UInt64) (blockNumber : Option UInt64)
    (blockHash : Option Hash) (isCancelled : Nat → Bool) : Except VerifyError Report := do
  let blocksWithFailedBundles ← readFailedBundles rust db chainId
  let report ←
    match blockNumber, blockHash with
    | some blockNumber, some expectedHash =>
      verifyRequested rust db chainId blocksWithFailedBundles blockNumber expectedHash ⟨0, false, []⟩
    | _, _ => pure ⟨0, false, []⟩
  let blockNumber := blockNumber.getD 0
  -- the ranges are read for the progress bar
  let _ ← (getRangesOfChainId db chainId).mapError .database
  let state ← verifyLoop rust chainId blocksWithFailedBundles isCancelled 0
    (iterate rust.codec db chainId blockNumber .forward) ⟨blockNumber, none, report⟩
  return state.report.write (conclusion chainId state.report.errors)

structure GoLibraries where
  codec : GoCodec
  geth : GethLibraries
  keccak256 : Bytes → Hash
  /-- `json.Unmarshal` into entries whose block may be missing. -/
  parseFailedBundles : Bytes → Except String (List (Option UInt64))

inductive GoVerifyError where
  | startAfterEnd (startBlock endBlock : UInt64)
  | lowestBlock (error : String)
  | highestBlock (error : String)
  | failedBundles (error : String)
  | entryWithoutBlock (index : Nat)
  | cancelled
  | getBlock (error : String)
  | convert (block : UInt64) (failure : ConvertFailure)
  | hashMismatch (block : UInt64) (expected got : Hash)

def firstBlockNumber : List (Except String ProtoBlock.Block) → Except String (Option UInt64)
  | [] => .ok none
  | .error error :: _ => .error error
  | .ok block :: _ => .ok (some block.number)

def getStoredBlockRange (go : GoLibraries) (db : KvDb) (chainId startBlock endBlock : UInt64) :
    Except GoVerifyError (Option (UInt64 × UInt64)) := do
  let lowest ← (firstBlockNumber (getRange go.codec db chainId startBlock endBlock)).mapError
    .lowestBlock
  let highest ← (firstBlockNumber (getRangeRev go.codec db chainId startBlock endBlock)).mapError
    .highestBlock
  match lowest, highest with
  | some lowest, some highest => return some (lowest, highest)
  | _, _ => return none

/-- `copy(blockHash[:], source)`, which leaves the bytes behind a shorter source. -/
def copyHash (blockHash : Hash) (source : Bytes) : Hash :=
  ⟨source.take 32 ++ blockHash.val.drop (source.take 32).length, by
    have size := blockHash.property
    simp
    omega⟩

def verifyBlock (go : GoLibraries) (hash : Hash) (block : ProtoBlock.Block) :
    Except GoVerifyError Unit :=
  match convertToGethBlock go.geth (some block) with
  | .error failure => .error (.convert block.number failure)
  | .ok gethBlock =>
    let got := go.keccak256 gethBlock.header.encodeRLP
    if got ≠ hash then .error (.hashMismatch block.number hash got) else .ok ()

/-- A hash mismatch, the one error that is tolerated for a block with failed bundles. -/
def isHashMismatch : Except GoVerifyError Unit → Bool
  | .error (.hashMismatch _ _ _) => true
  | _ => false

def verifyBlocks (go : GoLibraries) (blocksWithFailedBundles : List UInt64)
    (isCancelled : Nat → Bool) :
    Nat → List (Except String ProtoBlock.Block) → Bool → Hash → Except GoVerifyError Unit
  | _, [], _, _ => .ok ()
  | poll, entry :: entries, first, blockHash =>
    if isCancelled poll then .error .cancelled
    else
      match entry with
      | .error error => .error (.getBlock error)
      | .ok block => do
        if !first then
          let result := verifyBlock go blockHash block
          let tolerated := isHashMismatch result && decide (block.number ∈ blocksWithFailedBundles)
          if !tolerated then result
        verifyBlocks go blocksWithFailedBundles isCancelled (poll + 1) entries false
          (copyHash blockHash block.parentHash)

/-- The loop over the parsed entries, each of which must name its block. -/
def collectBlocks : List (Option UInt64) → Nat → Except GoVerifyError (List UInt64)
  | [], _ => .ok []
  | none :: _, index => .error (.entryWithoutBlock index)
  | some block :: entries, index => (block :: ·) <$> collectBlocks entries (index + 1)

def goFailedBundles (go : GoLibraries) (db : KvDb) (chainId : UInt64) :
    Except GoVerifyError (List UInt64) :=
  match GoBlockDb.getFailedBundles db chainId with
  | none => .ok []
  | some data => do
    let entries ← (go.parseFailedBundles data).mapError .failedBundles
    collectBlocks entries 0

def goVerify (go : GoLibraries) (db : KvDb) (chainId startBlock endBlock : UInt64)
    (isCancelled : Nat → Bool) : Except GoVerifyError Unit :=
  if startBlock > endBlock then .error (.startAfterEnd startBlock endBlock)
  else do
    match ← getStoredBlockRange go db chainId startBlock endBlock with
    | none => return
    | some (startBlock, endBlock) =>
      let blocksWithFailedBundles ← goFailedBundles go db chainId
      verifyBlocks go blocksWithFailedBundles isCancelled 0
        (getRangeRev go.codec db chainId startBlock endBlock) true (default : Hash)

/-- The hash of the earlier block is the parent hash of the later one, or the earlier block
has failed bundles. -/
def Linked (rust : RustLibraries) (failed : List UInt64) (earlier later : UInt64 × Block) : Prop :=
  rust.blockHash earlier.2 = later.2.parentHash ∨ earlier.1 ∈ failed

def never : Nat → Bool := fun _ => false

theorem check_block_hash_errors (chainId blockNumber : UInt64) (blockHash expectedHash : Hash)
    (expectedSource : String) (failed : List UInt64) (report : Report) :
    (checkBlockHash chainId blockNumber blockHash expectedHash expectedSource failed
      report).errors = 0 ↔
        report.errors = 0 ∧ (blockHash = expectedHash ∨ blockNumber ∈ failed) := by
  unfold checkBlockHash Report.write
  split_ifs <;> simp_all

section Forward

variable (rust : RustLibraries) (chainId : UInt64) (failed : List UInt64)

theorem verify_entry_first (report : Report) {number start : UInt64} {block : Block}
    (numbered : block.number = number) :
    verifyEntry rust chainId failed ⟨start, none, report⟩ number block =
      ⟨number, some (rust.blockHash block), report⟩ := by
  simp [verifyEntry, numbered]

theorem verify_entry_errors (report : Report) {earlier later : UInt64 × Block}
    (numbered : later.2.number = later.1) (successive : earlier.1 + 1 = later.1) :
    ∃ next : Report,
      verifyEntry rust chainId failed ⟨earlier.1, some (rust.blockHash earlier.2), report⟩
        later.1 later.2 = ⟨later.1, some (rust.blockHash later.2), next⟩ ∧
      (next.errors = 0 ↔ report.errors = 0 ∧ Linked rust failed earlier later) := by
  refine ⟨_, rfl, ?_⟩
  simp only [numbered, ne_eq, not_true_eq_false, if_false, successive]
  exact check_block_hash_errors _ _ _ _ _ _ _

/-- Over successive blocks the loop counts no error exactly when all adjacent ones are
linked. -/
theorem verify_loop_linked {entries : List (UInt64 × Block)} {earlier : UInt64 × Block}
    (numbered : ∀ entry ∈ entries, entry.2.number = entry.1)
    (successive : (earlier :: entries).IsChain fun left right => left.1 + 1 = right.1)
    (poll : Nat) (report : Report) :
    ∃ final, verifyLoop rust chainId failed never poll (entries.map .ok)
        ⟨earlier.1, some (rust.blockHash earlier.2), report⟩ = .ok final ∧
      (final.report.errors = 0 ↔
        report.errors = 0 ∧ (earlier :: entries).IsChain (Linked rust failed)) := by
  induction entries generalizing earlier poll report with
  | nil => exact ⟨_, rfl, by simp⟩
  | cons entry entries inductionHypothesis =>
      obtain ⟨next, others⟩ := List.isChain_cons_cons.mp successive
      obtain ⟨after, stepped, counted⟩ := verify_entry_errors rust chainId failed report
        (numbered entry List.mem_cons_self) next
      obtain ⟨final, looped, iff⟩ := inductionHypothesis
        (fun other member => numbered other (List.mem_cons_of_mem entry member)) others
        (poll + 1) after
      refine ⟨final, ?_, ?_⟩
      · rw [List.map_cons, verifyLoop, never, if_neg Bool.false_ne_true]
        exact (congrArg _ stepped).trans looped
      · rw [iff, counted, List.isChain_cons_cons, and_assoc]

theorem verify_loop_first {entries : List (UInt64 × Block)} (start : UInt64)
    (numbered : ∀ entry ∈ entries, entry.2.number = entry.1)
    (successive : entries.IsChain fun left right => left.1 + 1 = right.1) :
    ∃ final, verifyLoop rust chainId failed never 0 (entries.map .ok)
        ⟨start, none, ⟨0, false, []⟩⟩ = .ok final ∧
      (final.report.errors = 0 ↔ entries.IsChain (Linked rust failed)) := by
  cases entries with
  | nil => exact ⟨_, rfl, by simp⟩
  | cons entry entries =>
      obtain ⟨final, looped, iff⟩ := verify_loop_linked rust chainId failed
        (fun other member => numbered other (List.mem_cons_of_mem entry member)) successive 1
        ⟨0, false, []⟩
      refine ⟨final, ?_, by simpa using iff⟩
      rw [List.map_cons, verifyLoop, never, if_neg Bool.false_ne_true]
      simp only [verify_entry_first rust chainId failed _ (numbered entry List.mem_cons_self)]
      exact looped

end Forward

/-- Go converts the block and computes the hash that Rust computes. -/
def SameHash (rust : RustLibraries) (go : GoLibraries) (block : Block) : Prop :=
  ∃ gethBlock, convertToGethBlock go.geth (some (ProtoBlock.Block.fromTypes block)) =
      .ok gethBlock ∧
    go.keccak256 gethBlock.header.encodeRLP = rust.blockHash block

section Backward

variable {rust : RustLibraries} {go : GoLibraries}

theorem copy_hash_whole (blockHash hash : Hash) : copyHash blockHash hash.val = hash := by
  apply Subtype.ext
  have size := hash.property
  have sizeBefore := blockHash.property
  simp only [copyHash, List.take_of_length_le (Nat.le_of_eq size)]
  rw [List.drop_eq_nil_of_le (by omega), List.append_nil]

theorem verify_block_eq {block : Block} (same : SameHash rust go block) (hash : Hash) :
    verifyBlock go hash (ProtoBlock.Block.fromTypes block) =
      if rust.blockHash block = hash then .ok ()
      else .error (.hashMismatch block.number hash (rust.blockHash block)) := by
  obtain ⟨gethBlock, converted, hashed⟩ := same
  simp only [verifyBlock, converted, hashed, ne_eq, ite_not]
  rfl

/-- Over blocks in decreasing order the loop succeeds exactly when each is linked to its
successor, which stands before it. -/
theorem verify_blocks_linked {failed goFailed : List UInt64}
    (sameFailed : ∀ number, number ∈ failed ↔ number ∈ goFailed)
    {entries : List (UInt64 × Block)} {later : UInt64 × Block}
    (numbered : ∀ entry ∈ entries, entry.2.number = entry.1)
    (same : ∀ entry ∈ entries, SameHash rust go entry.2) (poll : Nat) :
    verifyBlocks go goFailed never poll
        (entries.map fun entry => .ok (ProtoBlock.Block.fromTypes entry.2)) false
        later.2.parentHash = .ok () ↔
      (later :: entries).IsChain fun right left => Linked rust failed left right := by
  induction entries generalizing later poll with
  | nil => simp [verifyBlocks]
  | cons entry entries inductionHypothesis =>
      have others := @inductionHypothesis entry
        (fun other member => numbered other (List.mem_cons_of_mem entry member))
        (fun other member => same other (List.mem_cons_of_mem entry member)) (poll + 1)
      have copied : copyHash later.2.parentHash
          (ProtoBlock.Block.fromTypes entry.2).parentHash = entry.2.parentHash :=
        copy_hash_whole _ _
      have number : (ProtoBlock.Block.fromTypes entry.2).number = entry.1 :=
        numbered entry List.mem_cons_self
      rw [List.isChain_cons_cons, ← others, List.map_cons, verifyBlocks, never,
        if_neg Bool.false_ne_true]
      simp only [copied, verify_block_eq (same entry List.mem_cons_self), number, ← sameFailed,
        Linked]
      by_cases equal : rust.blockHash entry.2 = later.2.parentHash
      · simp [equal, isHashMismatch]
        rfl
      · by_cases tolerated : entry.1 ∈ failed
        · simp [equal, tolerated, isHashMismatch]
        · simp [equal, tolerated, isHashMismatch, bind, Except.bind]

theorem verify_blocks_first {failed goFailed : List UInt64}
    (sameFailed : ∀ number, number ∈ failed ↔ number ∈ goFailed)
    {entries : List (UInt64 × Block)} (numbered : ∀ entry ∈ entries, entry.2.number = entry.1)
    (same : ∀ entry ∈ entries, SameHash rust go entry.2) (hash : Hash) :
    verifyBlocks go goFailed never 0
        (entries.map fun entry => .ok (ProtoBlock.Block.fromTypes entry.2)) true hash = .ok () ↔
      entries.IsChain fun right left => Linked rust failed left right := by
  cases entries with
  | nil => simp [verifyBlocks]
  | cons entry entries =>
      have others := @verify_blocks_linked rust go failed goFailed sameFailed entries entry
        (fun other member => numbered other (List.mem_cons_of_mem entry member))
        (fun other member => same other (List.mem_cons_of_mem entry member)) 1
      have copied : copyHash hash (ProtoBlock.Block.fromTypes entry.2).parentHash =
          entry.2.parentHash := copy_hash_whole _ _
      rw [← others, List.map_cons, verifyBlocks, never, if_neg Bool.false_ne_true]
      simp only [copied, Bool.not_true, Bool.false_eq_true, if_false]

end Backward

/-- The stored blocks from the start number on have no gap. -/
def Contiguous (db : KvDb) (chainId start : UInt64) : Prop :=
  ∀ lower upper number : UInt64, (getBytes db chainId lower).isSome →
    (getBytes db chainId upper).isSome → start ≤ lower → lower ≤ number → number ≤ upper →
    (getBytes db chainId number).isSome

theorem contiguous_successive {db : KvDb} {chainId start : UInt64}
    (contiguous : Contiguous db chainId start) {items : List (UInt64 × Bytes)}
    (sorted : items.Pairwise fun earlier later => earlier.1 < later.1)
    (members : ∀ number data, (number, data) ∈ items ↔
      getBytes db chainId number = some data ∧ start ≤ number) :
    items.IsChain fun left right => left.1.toNat + 1 = right.1.toNat := by
  have increasing : ∀ (left right : Nat) (bound : right < items.length) (less : left < right),
      items[left].1.toNat < items[right].1.toNat := fun left right bound less =>
    UInt64.lt_iff_toNat_lt.mp
      (List.pairwise_iff_getElem.mp sorted left right (less.trans bound) bound less)
  rw [List.isChain_iff_getElem]
  intro index bound
  have above := increasing index (index + 1) bound (Nat.lt_succ_self _)
  have limit := items[index + 1].1.toNat_lt
  obtain ⟨lower, least⟩ := (members items[index].1 items[index].2).mp (List.getElem_mem _)
  obtain ⟨upper, -⟩ := (members items[index + 1].1 items[index + 1].2).mp (List.getElem_mem _)
  by_contra gap
  -- the number behind the first of the two is stored, but there is no place for it in between
  let between : UInt64 := UInt64.ofNat (items[index].1.toNat + 1)
  have position : between.toNat = items[index].1.toNat + 1 :=
    UInt64.toNat_ofNat_of_lt' (by
      change items[index].1.toNat + 1 < 2 ^ 64
      omega)
  have after : items[index].1 ≤ between := UInt64.le_iff_toNat_le.mpr (by omega)
  have before : between ≤ items[index + 1].1 := UInt64.le_iff_toNat_le.mpr (by omega)
  obtain ⟨data, present⟩ := Option.isSome_iff_exists.mp
    (contiguous items[index].1 items[index + 1].1 between (by rw [lower]; rfl)
      (by rw [upper]; rfl) least after before)
  obtain ⟨place, placeBound, there⟩ := List.getElem_of_mem
    ((members _ _).mpr ⟨present, le_trans least after⟩)
  have value : items[place].1.toNat = items[index].1.toNat + 1 := by
    rw [there]
    exact position
  rcases Nat.lt_or_ge index place with behind | ahead
  · rcases Nat.eq_or_lt_of_le behind with equal | further
    · obtain rfl : place = index + 1 := equal.symm
      omega
    · have larger := increasing (index + 1) place placeBound further
      omega
  · rcases Nat.eq_or_lt_of_le ahead with equal | earlier
    · subst equal
      omega
    · have smaller := increasing place index (Nat.lt_of_succ_lt bound) earlier
      omega

/-- The block is named in the failed bundles of its chain. -/
def HasFailedBundles (rust : RustLibraries) (db : KvDb) (chainId number : UInt64) : Prop :=
  ∃ data numbers, BlockDb.getFailedBundles db chainId = some data ∧
    rust.parseFailedBundles data = .ok numbers ∧ number ∈ numbers

/-- A database that both verifiers can read from the start number on: known keys, readable
ranges, contiguous blocks under their own numbers that both decode to the same message and
hash alike, and failed bundles in which both find the same blocks. -/
structure Comparable (rust : RustLibraries) (go : GoLibraries) (db : KvDb)
    (chainId start : UInt64) : Prop where
  known : KnownKeys db
  ranges : ∃ ranges, getRangesOfChainId db chainId = .ok ranges
  contiguous : Contiguous db chainId start
  blocks : ∀ number data, getBytes db chainId number = some data → start ≤ number →
    ∃ block, decodeBlock rust.codec data = .ok block ∧
      go.codec.unmarshal data = .ok (ProtoBlock.Block.fromTypes block) ∧
      block.number = number ∧ SameHash rust go block
  failedBundles : ∀ data, BlockDb.getFailedBundles db chainId = some data →
    ∃ numbers entries, rust.parseFailedBundles data = .ok numbers ∧
      go.parseFailedBundles data = .ok entries ∧ none ∉ entries ∧
      ∀ number, number ∈ numbers ↔ some number ∈ entries

theorem collect_blocks_all {entries : List (Option UInt64)} (complete : none ∉ entries)
    (index : Nat) :
    ∃ numbers, collectBlocks entries index = .ok numbers ∧
      ∀ number, number ∈ numbers ↔ some number ∈ entries := by
  induction entries generalizing index with
  | nil => exact ⟨[], rfl, by simp⟩
  | cons entry entries inductionHypothesis =>
      cases entry with
      | none => exact absurd List.mem_cons_self complete
      | some block =>
          obtain ⟨numbers, collected, members⟩ := inductionHypothesis
            (fun member => complete (List.mem_cons_of_mem _ member)) (index + 1)
          refine ⟨block :: numbers, ?_, ?_⟩
          · rw [collectBlocks, collected]
            rfl
          · intro number
            simp [members]

theorem first_block_number_map (entries : List (UInt64 × Block)) :
    firstBlockNumber (entries.map fun entry => .ok (ProtoBlock.Block.fromTypes entry.2)) =
      .ok (entries.head?.map fun entry => entry.2.number) := by
  cases entries <;> rfl

theorem successive_offset {entries : List (UInt64 × Block)}
    (successive : entries.IsChain fun left right => left.1.toNat + 1 = right.1.toNat)
    (place : Nat) (bound : place < entries.length) :
    entries[place].1.toNat = entries[0].1.toNat + place := by
  induction place with
  | zero => rfl
  | succ place inductionHypothesis =>
      have next := successive.getElem place bound
      have before := inductionHypothesis (by omega)
      omega

theorem successive_bounds {entries : List (UInt64 × Block)} {lowest highest : UInt64 × Block}
    (successive : entries.IsChain fun left right => left.1.toNat + 1 = right.1.toNat)
    (first : entries.head? = some lowest) (last : entries.getLast? = some highest) :
    ∀ entry ∈ entries, lowest.1 ≤ entry.1 ∧ entry.1 ≤ highest.1 := by
  have ascending : (entries.map Prod.fst).IsChain (· ≤ ·) := by
    rw [List.isChain_map]
    refine successive.imp fun left right next => UInt64.le_iff_toNat_le.mpr ?_
    omega
  have sorted := List.pairwise_map.mp (List.isChain_iff_pairwise.mp ascending)
  intro entry member
  constructor
  · obtain ⟨rest, rfl⟩ := List.head?_eq_some_iff.mp first
    rcases List.mem_cons.mp member with rfl | later
    · exact le_refl _
    · exact (List.pairwise_cons.mp sorted).1 entry later
  · obtain ⟨front, rfl⟩ := List.getLast?_eq_some_iff.mp last
    rcases List.mem_append.mp member with earlier | only
    · exact (List.pairwise_append.mp sorted).2.2 entry earlier highest (List.mem_singleton_self _)
    · rw [List.mem_singleton.mp only]

theorem covering_range_items {db : KvDb} {chainId start first last : UInt64}
    {items range : List (UInt64 × Bytes)}
    (sorted : items.Pairwise fun left right => left.1 < right.1)
    (members : ∀ number data, (number, data) ∈ items ↔
      getBytes db chainId number = some data ∧ start ≤ number)
    (rangeSorted : range.Pairwise fun left right => left.1 < right.1)
    (rangeMembers : ∀ number data, (number, data) ∈ range ↔
      getBytes db chainId number = some data ∧ first ≤ number ∧ number ≤ last)
    (inside : ∀ item ∈ items, first ≤ item.1 ∧ item.1 ≤ last) (least : start ≤ first) :
    range = items := by
  apply increasing_unique rangeSorted sorted
  rintro ⟨number, data⟩
  rw [rangeMembers, members]
  constructor
  · rintro ⟨found, lower, -⟩
    exact ⟨found, le_trans least lower⟩
  · rintro ⟨found, above⟩
    exact ⟨found, inside _ ((members number data).mpr ⟨found, above⟩)⟩

section Agreement

variable {rust : RustLibraries} {go : GoLibraries} {db : KvDb} {chainId start : UInt64}
variable (comparable : Comparable rust go db chainId start)
include comparable

theorem failed_bundles_agree :
    ∃ failed goFailed, readFailedBundles rust db chainId = .ok failed ∧
      goFailedBundles go db chainId = .ok goFailed ∧
      (∀ number, number ∈ failed ↔ number ∈ goFailed) ∧
      ∀ number, number ∈ failed ↔ HasFailedBundles rust db chainId number := by
  have sameKey : GoBlockDb.getFailedBundles db chainId = BlockDb.getFailedBundles db chainId := rfl
  cases stored : BlockDb.getFailedBundles db chainId with
  | none =>
      refine ⟨[], [], ?_, ?_, fun number => Iff.rfl, fun number => ?_⟩
      · rw [readFailedBundles, stored]
      · rw [goFailedBundles, sameKey, stored]
      · simp [HasFailedBundles, stored]
  | some data =>
      obtain ⟨numbers, entries, rustParsed, goParsed, complete, same⟩ :=
        comparable.failedBundles data stored
      obtain ⟨goNumbers, collected, members⟩ := collect_blocks_all complete 0
      refine ⟨numbers, goNumbers, ?_, ?_, fun number => ?_, fun number => ?_⟩
      · simp only [readFailedBundles, stored, rustParsed]
        rfl
      · simp only [goFailedBundles, sameKey, stored, goParsed]
        exact collected
      · rw [same, members]
      · simp [HasFailedBundles, stored, rustParsed]

theorem comparable_entries :
    ∃ entries : List (UInt64 × Block),
      (∀ entry ∈ entries, entry.2.number = entry.1 ∧ SameHash rust go entry.2) ∧
      entries.IsChain (fun left right => left.1.toNat + 1 = right.1.toNat) ∧
      (∀ number block, (number, block) ∈ entries ↔
        start ≤ number ∧ BlockDb.get rust.codec db chainId number = .ok (some block)) ∧
      iterate rust.codec db chainId start .forward = entries.map .ok ∧
      ∀ first last, (∀ entry ∈ entries, first ≤ entry.1 ∧ entry.1 ≤ last) → start ≤ first →
        getRange go.codec db chainId first last =
          entries.map (fun entry => .ok (ProtoBlock.Block.fromTypes entry.2)) ∧
        getRangeRev go.codec db chainId first last =
          entries.reverse.map (fun entry => .ok (ProtoBlock.Block.fromTypes entry.2)) := by
  obtain ⟨items, iterated, sorted, members⟩ :=
    iterate_bytes_forward comparable.known chainId start
  have readable : ∀ item ∈ items, ∃ block, decodeBlock rust.codec item.2 = .ok block ∧
      go.codec.unmarshal item.2 = .ok (ProtoBlock.Block.fromTypes block) ∧
      block.number = item.1 ∧ SameHash rust go block := by
    rintro ⟨number, data⟩ member
    obtain ⟨found, least⟩ := (members number data).mp member
    exact comparable.blocks number data found least
  have : Nonempty Block := ⟨{}⟩
  choose! blockOf decoded unmarshalled numbered hashed using readable
  let entries := items.map fun item => (item.1, blockOf item)
  have scanned : ∀ scan : List (UInt64 × Bytes), (∀ item ∈ scan, item ∈ items) →
      scan.map (fun item => go.codec.unmarshal item.2) =
        (scan.map fun item => (item.1, blockOf item)).map
          (fun entry => .ok (ProtoBlock.Block.fromTypes entry.2)) := by
    intro scan inside
    rw [List.map_map]
    exact List.map_congr_left fun item member => unmarshalled item (inside item member)
  obtain ⟨yielded, entriesMembers⟩ := iterate_decoded iterated members decoded
  refine ⟨entries, ?_, ?_, entriesMembers, yielded, ?_⟩
  · intro entry member
    obtain ⟨item, inside, rfl⟩ := List.mem_map.mp member
    exact ⟨numbered item inside, hashed item inside⟩
  · rw [List.isChain_map]
    exact contiguous_successive comparable.contiguous sorted members
  · intro first last inside least
    obtain ⟨range, -, -, rangeSorted, rangeMembers, forward, reverse, -⟩ :=
      get_range_both comparable.known go.codec chainId first last
    have covered : ∀ item ∈ items, first ≤ item.1 ∧ item.1 ≤ last := fun item member =>
      inside (item.1, blockOf item) (List.mem_map.mpr ⟨item, member, rfl⟩)
    have same := covering_range_items sorted members rangeSorted rangeMembers covered least
    rw [forward, reverse, same, scanned items fun _ member => member,
      scanned items.reverse fun _ member => List.mem_reverse.mp member, List.map_reverse]
    exact ⟨rfl, rfl⟩

theorem verify_counts {entries : List (UInt64 × Block)} {failed : List UInt64}
    (numbered : ∀ entry ∈ entries, entry.2.number = entry.1)
    (successive : entries.IsChain fun left right => left.1.toNat + 1 = right.1.toNat)
    (iterated : iterate rust.codec db chainId start .forward = entries.map .ok)
    (bundles : readFailedBundles rust db chainId = .ok failed) :
    ∃ report, verify rust db chainId (some start) none never = .ok report ∧
      (report.errors = 0 ↔ entries.IsChain (Linked rust failed)) := by
  have wrapping : entries.IsChain fun left right => left.1 + 1 = right.1 := by
    refine successive.imp fun left right next => UInt64.toNat_inj.mp ?_
    have bound := right.1.toNat_lt
    rw [UInt64.toNat_add, UInt64.toNat_one, Nat.mod_eq_of_lt (by omega)]
    exact next
  obtain ⟨final, looped, counted⟩ :=
    verify_loop_first rust chainId failed start numbered wrapping
  obtain ⟨ranges, rangesRead⟩ := comparable.ranges
  refine ⟨final.report.write (conclusion chainId final.report.errors), ?_, counted⟩
  simp only [verify, bundles, rangesRead, Option.getD_some, iterated, bind, Except.bind, pure,
    Except.pure, Except.mapError, looped]

end Agreement

theorem go_verify_iff {rust : RustLibraries} {go : GoLibraries} {db : KvDb}
    {chainId start : UInt64} {entries : List (UInt64 × Block)} {failed goFailed : List UInt64}
    (numbered : ∀ entry ∈ entries, entry.2.number = entry.1)
    (least : ∀ entry ∈ entries, start ≤ entry.1)
    (successive : entries.IsChain fun left right => left.1.toNat + 1 = right.1.toNat)
    (same : ∀ entry ∈ entries, SameHash rust go entry.2)
    (ranges : ∀ first last, (∀ entry ∈ entries, first ≤ entry.1 ∧ entry.1 ≤ last) →
      start ≤ first →
        getRange go.codec db chainId first last =
          entries.map (fun entry => .ok (ProtoBlock.Block.fromTypes entry.2)) ∧
        getRangeRev go.codec db chainId first last =
          entries.reverse.map (fun entry => .ok (ProtoBlock.Block.fromTypes entry.2)))
    (bundles : goFailedBundles go db chainId = .ok goFailed)
    (sameFailed : ∀ number, number ∈ failed ↔ number ∈ goFailed) :
    goVerify go db chainId start maxBlockNumber never = .ok () ↔
      entries.IsChain (Linked rust failed) := by
  have highest : ∀ number : UInt64, number ≤ maxBlockNumber := fun number => by
    have bound := number.toNat_lt
    rw [UInt64.le_iff_toNat_le]
    exact Nat.le_of_lt_succ bound
  obtain ⟨forward, backward⟩ := ranges start maxBlockNumber
    (fun entry member => ⟨least entry member, highest entry.1⟩) (le_refl start)
  unfold goVerify
  rw [if_neg (not_lt.mpr (highest start))]
  cases first : entries.head? with
  | none =>
      have nothing := List.head?_eq_none_iff.mp first
      subst nothing
      simp only [getStoredBlockRange, forward, backward]
      exact iff_of_true rfl .nil
  | some lowest =>
      have inhabited : entries ≠ [] := by
        rintro rfl
        cases first
      have last := List.getLast?_eq_some_getLast inhabited
      have bounds := successive_bounds successive first last
      obtain ⟨-, walked⟩ := ranges lowest.1 (entries.getLast inhabited).1 bounds
        (least lowest (List.mem_of_head? first))
      have stored : getStoredBlockRange go db chainId start maxBlockNumber =
          .ok (some (lowest.1, (entries.getLast inhabited).1)) := by
        rw [getStoredBlockRange, forward, backward, first_block_number_map, first_block_number_map,
          List.head?_reverse, first, last, Option.map_some, Option.map_some,
          numbered lowest (List.mem_of_head? first), numbered _ (List.getLast_mem inhabited)]
        rfl
      have reversed := verify_blocks_first sameFailed
        (fun entry member => numbered entry (List.mem_reverse.mp member))
        (fun entry member => same entry (List.mem_reverse.mp member)) (default : Hash)
      rw [List.isChain_reverse] at reversed
      rw [← reversed, stored]
      simp only [bind, Except.bind, bundles, walked]

theorem linked_chain_iff {rust : RustLibraries} {failed : List UInt64}
    {entries : List (UInt64 × Block)}
    (successive : entries.IsChain fun left right => left.1.toNat + 1 = right.1.toNat) :
    entries.IsChain (Linked rust failed) ↔
      ∀ earlier ∈ entries, ∀ later ∈ entries, earlier.1.toNat + 1 = later.1.toNat →
        Linked rust failed earlier later := by
  constructor
  · intro linked earlier member later laterMember next
    obtain ⟨place, bound, rfl⟩ := List.getElem_of_mem member
    obtain ⟨other, otherBound, rfl⟩ := List.getElem_of_mem laterMember
    have offset := successive_offset successive
    have distance := offset place bound
    have otherDistance := offset other otherBound
    obtain rfl : other = place + 1 := by omega
    exact linked.getElem place otherBound
  · intro linked
    rw [List.isChain_iff_getElem]
    intro index bound
    exact linked _ (List.getElem_mem _) _ (List.getElem_mem _) (successive.getElem index bound)

/-- Both verifiers accept exactly the chains in which the hash of every stored block is the
parent hash of its successor, unless the block has failed bundles. -/
theorem verifiers_agree {rust : RustLibraries} {go : GoLibraries} {db : KvDb}
    {chainId start : UInt64} (comparable : Comparable rust go db chainId start) :
    ∃ report, verify rust db chainId (some start) none never = .ok report ∧
      (goVerify go db chainId start maxBlockNumber never = .ok () ↔ report.errors = 0) ∧
      (report.errors = 0 ↔ ∀ number next block successor, start ≤ number →
        number.toNat + 1 = next.toNat →
        BlockDb.get rust.codec db chainId number = .ok (some block) →
        BlockDb.get rust.codec db chainId next = .ok (some successor) →
        rust.blockHash block = successor.parentHash ∨
          HasFailedBundles rust db chainId number) := by
  obtain ⟨entries, readable, successive, members, iterated, ranges⟩ :=
    comparable_entries comparable
  obtain ⟨failed, goFailed, read, goRead, same, named⟩ := failed_bundles_agree comparable
  obtain ⟨report, verified, counted⟩ := verify_counts comparable
    (fun entry member => (readable entry member).1) successive iterated read
  have accepted := go_verify_iff (fun entry member => (readable entry member).1)
    (fun entry member => ((members entry.1 entry.2).mp member).1) successive
    (fun entry member => (readable entry member).2) ranges goRead same
  refine ⟨report, verified, accepted.trans counted.symm, ?_⟩
  rw [counted, linked_chain_iff successive]
  constructor
  · intro linked number next block successor least following found successorFound
    have above : start ≤ next := by
      rw [UInt64.le_iff_toNat_le] at least ⊢
      omega
    have link := linked (number, block) ((members number block).mpr ⟨least, found⟩)
      (next, successor) ((members next successor).mpr ⟨above, successorFound⟩) following
    exact link.imp id (named number).mp
  · rintro linked ⟨number, block⟩ member ⟨next, successor⟩ laterMember following
    obtain ⟨least, found⟩ := (members number block).mp member
    obtain ⟨-, successorFound⟩ := (members next successor).mp laterMember
    exact (linked number next block successor least following found successorFound).imp id
      (named number).mpr

def londonHash : Hash := BlockTypes.U256.toBeBytes
  0x3b483b76d72daf3b8cb9537269b522023185acae3b2b3862a31df8352226a803

def londonGenesis : Block := { baseFeePerGas := some 1000000000 }

def londonChild : Block :=
  { number := 1, parentHash := londonHash, baseFeePerGas := some 1000000000 }

/-- The wire format of messages that also have a base fee; decoding knows the two blocks. -/
def londonBytes (message : ProtoBlock.Block) : Bytes :=
  headerCodec.headerBytes message ++ [0x72, 0x20] ++ message.baseFeePerGas.getD []

def londonDecode (data : Bytes) : Except String ProtoBlock.Block :=
  if data = londonBytes (ProtoBlock.Block.fromTypes londonGenesis) then
    .ok (ProtoBlock.Block.fromTypes londonGenesis)
  else if data = londonBytes (ProtoBlock.Block.fromTypes londonChild) then
    .ok (ProtoBlock.Block.fromTypes londonChild)
  else .error "failed to decode Protobuf message"

def londonKeccak (bytes : Bytes) : Hash :=
  if bytes = (Block.toHeader ⟨fun _ => emptyRoot, fun bloom _ => bloom⟩ londonGenesis).encode then
    londonHash
  else BlockTypes.U256.toBeBytes
    0xa2dd4dda8e044d85147d799f34c36e09393fa085076810e1a60587992157e318

def londonRust : RustLibraries where
  codec := ⟨londonBytes, londonDecode⟩
  hashing := ⟨fun _ => emptyRoot, fun bloom _ => bloom⟩
  keccak256 := londonKeccak
  parseFailedBundles _ := .ok []

def londonGo : GoLibraries where
  codec := ⟨fun message => .ok (londonBytes message), londonDecode⟩
  geth := ⟨fun _ => emptyRoot, fun _ => emptyRoot, fun _ => default, fun _ => default⟩
  keccak256 := londonKeccak
  parseFailedBundles _ := .ok []

theorem london_same_hash {block : Block} (transactions : block.transactions = [])
    (receipts : block.receipts = []) (fee : block.baseFeePerGas.isSome) :
    SameHash londonRust londonGo block := by
  have noTransactions : toGethTransactions
      (ProtoBlock.Block.fromTypes block).transactions = .ok [] := by
    simp only [ProtoBlock.Block.fromTypes, transactions]
    rfl
  have noReceipts : (ProtoBlock.Block.fromTypes block).receipts.mapM
      (toGethReceipt londonGo.geth) = .ok [] := by
    simp only [ProtoBlock.Block.fromTypes, receipts]
    rfl
  refine ⟨_, convert_to_geth_block_eq londonGo.geth noTransactions noReceipts, ?_⟩
  have agrees := (@geth_header_agrees_iff londonRust.hashing londonGo.geth block [] []
    (by rw [receipts]; rfl) rfl rfl (by simp [Block.toHeader, receipts]; rfl)).mpr (.inl fee)
  exact congrArg londonKeccak agrees

theorem london_genesis_hash : londonRust.blockHash londonGenesis = londonHash := by
  simp only [RustLibraries.blockHash, BlockHeader.computeHash, londonRust, londonKeccak, if_true]

def londonData (block : Block) : Bytes := londonBytes (ProtoBlock.Block.fromTypes block)

theorem london_genesis_decodes :
    decodeBlock londonRust.codec (londonData londonGenesis) = .ok londonGenesis := by
  decide +kernel

theorem london_child_decodes :
    decodeBlock londonRust.codec (londonData londonChild) = .ok londonChild := by
  decide +kernel

theorem london_db_reachable :
    ∃ db, Reachable londonRust.codec db ∧ getBytes db 1 0 = some (londonData londonGenesis) ∧
      getBytes db 1 1 = some (londonData londonChild) ∧ BlockDb.getFailedBundles db 1 = none ∧
      ∀ number found, getBytes db 1 number = some found →
        (number = 0 ∧ found = londonData londonGenesis) ∨
          (number = 1 ∧ found = londonData londonChild) := by
  obtain ⟨first, firstStored, firstReachable, -⟩ := put_bytes_reachable
    (fresh_reachable londonRust.codec) 1 0 (londonData londonGenesis) (by decide)
  obtain ⟨db, stored, reachable, childFound⟩ := put_bytes_reachable firstReachable 1 1
    (londonData londonChild) (by decide)
  refine ⟨db, reachable, ?_, childFound, ?_, ?_⟩
  · rw [get_bytes_put_bytes stored, if_neg (by decide), get_bytes_put_bytes firstStored,
      if_pos ⟨rfl, rfl⟩]
  · have kept := put_bytes_frame stored (by decide) (by decide)
      (by decide : BlockKeys.makeFailedBundlesKey 1 ≠ BlockKeys.chainIdsKey)
    have before := put_bytes_frame firstStored (by decide) (by decide)
      (by decide : BlockKeys.makeFailedBundlesKey 1 ≠ BlockKeys.chainIdsKey)
    rw [BlockDb.getFailedBundles, kept, before]
    simp [freshDb, get_put, BlockKeys.makeFailedBundlesKey]
  · intro number found present
    rw [get_bytes_put_bytes stored, get_bytes_put_bytes firstStored] at present
    split_ifs at present with isChild isGenesis
    · exact .inr ⟨isChild.2.symm, (Option.some.inj present).symm⟩
    · exact .inl ⟨isGenesis.2.symm, (Option.some.inj present).symm⟩
    · simp [getBytes, freshDb, get_put] at present

theorem verifiers_accept_two_blocks :
    ∃ db report, Comparable londonRust londonGo db 1 0 ∧
      BlockDb.get londonRust.codec db 1 1 = .ok (some londonChild) ∧
      verify londonRust db 1 (some 0) none never = .ok report ∧ report.errors = 0 ∧
      goVerify londonGo db 1 0 maxBlockNumber never = .ok () := by
  obtain ⟨db, reachable, genesisFound, childFound, noBundles, blocks⟩ := london_db_reachable
  have bounded : ∀ number found, getBytes db 1 number = some found → number.toNat ≤ 1 := by
    intro number found present
    rcases blocks number found present with ⟨rfl, -⟩ | ⟨rfl, -⟩ <;> decide
  have comparable : Comparable londonRust londonGo db 1 0 := by
    refine ⟨sound_known (reachable_sound reachable), ?_, ?_, ?_, ?_⟩
    · obtain ⟨ranges, read, -⟩ := (reachable_metadata_consistent reachable).ranges 1
      exact ⟨ranges, read⟩
    · intro lower upper number _ upperStored _ _ below
      obtain ⟨found, present⟩ := Option.isSome_iff_exists.mp upperStored
      have most := bounded upper found present
      have small : number.toNat ≤ 1 := le_trans (UInt64.le_iff_toNat_le.mp below) most
      have either : number = 0 ∨ number = 1 := by
        rw [← UInt64.toNat_inj, ← UInt64.toNat_inj]
        change number.toNat = 0 ∨ number.toNat = 1
        omega
      rcases either with rfl | rfl
      · rw [genesisFound]
        rfl
      · rw [childFound]
        rfl
    · intro number found present _
      rcases blocks number found present with ⟨rfl, rfl⟩ | ⟨rfl, rfl⟩
      · exact ⟨londonGenesis, london_genesis_decodes, by decide +kernel, rfl,
          london_same_hash rfl rfl rfl⟩
      · exact ⟨londonChild, london_child_decodes, by decide +kernel, rfl,
          london_same_hash rfl rfl rfl⟩
    · intro found present
      rw [noBundles] at present
      cases present
  obtain ⟨report, verified, agree, linked⟩ := verifiers_agree comparable
  have noErrors : report.errors = 0 := by
    rw [linked]
    intro number next block successor _ following found successorFound
    left
    obtain ⟨bytes, present, decodes⟩ := get_eq_some.mp found
    obtain ⟨nextBytes, nextPresent, nextDecodes⟩ := get_eq_some.mp successorFound
    rcases blocks number bytes present with ⟨rfl, rfl⟩ | ⟨rfl, rfl⟩
    · rcases blocks next nextBytes nextPresent with ⟨rfl, -⟩ | ⟨rfl, rfl⟩
      · cases following
      · rw [london_genesis_decodes] at decodes
        rw [london_child_decodes] at nextDecodes
        cases decodes
        cases nextDecodes
        exact london_genesis_hash
    · have most := bounded next nextBytes nextPresent
      change 1 + 1 = next.toNat at following
      omega
  exact ⟨db, report, comparable, get_eq_some.mpr ⟨_, childFound, london_child_decodes⟩, verified,
    noErrors, agree.mpr noErrors⟩

end Bertha.Verifiers
