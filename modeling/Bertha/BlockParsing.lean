import Bertha.GenesisBlocks
import Bertha.SliceReading

/-!
# Iterating over the blocks of a genesis file

`BlockParser` of `genesis-parser/src/g_file/block_parser.rs`: one block record is decoded
from the slice reader in each call of `next` and converted. Over the concatenation of the
encodings of records that fit the minimal slice, the calls return the converted records in
order and then nothing, whatever the size of the buffer.
-/

namespace Bertha.BlockParsing

open Bertha.BigEndian Bertha.Conversion Bertha.GenesisBlocks
open Bertha.BlockTypes hiding Error
open Bertha.GenesisUnits Bertha.Rlp Bertha.SliceReading Bertha.TransactionRlp

set_option autoImplicit false

structure BlockParser (Source : Type) where
  sliceReader : SliceReader Source
  error : Bool

variable {Source : Type}

def next (read : ReadToEnd Source) (parser : BlockParser Source) :
    Option (Except Error Block) × BlockParser Source :=
  if parser.error then (none, parser)
  else
    match processWith read (decodeSlice IdxFullBlock.decode) parser.sliceReader with
    | (.ok (some block), sliceReader) =>
        (some ((Block.tryFrom block).mapError fun message => .rlp (.custom message)),
          { parser with sliceReader })
    | (.ok none, sliceReader) => (none, { parser with sliceReader })
    | (.error error, sliceReader) => (some (.error error), { sliceReader, error := true })

def results (read : ReadToEnd Source) :
    Nat → BlockParser Source → List (Option (Except Error Block))
  | 0, _ => []
  | calls + 1, parser => (next read parser).1 :: results read calls (next read parser).2

/-- A parser that has seen no error and has these bytes ahead of it. -/
structure Ready (minSliceSize : Nat) (parser : BlockParser Bytes) (bytes : Bytes) : Prop where
  error : parser.error = false
  consistent : Consistent parser.sliceReader
  minSliceSize : parser.sliceReader.minSliceSize = minSliceSize
  unread : unread parser.sliceReader = bytes

theorem next_block {minSliceSize : Nat} {parser : BlockParser Bytes} {rest : Bytes}
    {record : IdxFullBlock} {block : Block}
    (ready : Ready minSliceSize parser (record.encode ++ rest))
    (canonical : ∀ tx ∈ record.block.transactions, Canonical tx)
    (converts : Block.tryFrom record = .ok block)
    (fits : record.encode.length ≤ minSliceSize) (machine : minSliceSize < 2 ^ 64) :
    (next readMemory parser).1 = some (.ok block) ∧
      Ready minSliceSize (next readMemory parser).2 rest := by
  have bounded : record.encode.length < 2 ^ 64 := by omega
  have fitsReader : record.encode.length ≤ parser.sliceReader.minSliceSize := by
    rw [ready.minSliceSize]
    exact fits
  obtain ⟨reader, processed, consistent, minimal, left⟩ :=
    process_with_decode ready.consistent (reads_idx_full_block canonical) bounded
      (encode_list_ne_nil _) fitsReader ready.unread
  have step : next readMemory parser =
      (some (.ok block), { parser with sliceReader := reader }) := by
    simp only [next, ready.error, Bool.false_eq_true, if_false, processed, converts]
    rfl
  rw [step]
  exact ⟨rfl, ready.error, consistent, minimal.trans ready.minSliceSize, left⟩

theorem next_end {minSliceSize : Nat} {parser : BlockParser Bytes}
    (ready : Ready minSliceSize parser []) :
    (next readMemory parser).1 = none ∧ Ready minSliceSize (next readMemory parser).2 [] := by
  obtain ⟨reader, processed, consistent, minimal, left⟩ :=
    process_with_end ready.consistent (decodeSlice IdxFullBlock.decode) ready.unread
  have step : next readMemory parser = (none, { parser with sliceReader := reader }) := by
    simp only [next, ready.error, Bool.false_eq_true, if_false, processed]
  rw [step]
  exact ⟨rfl, ready.error, consistent, minimal.trans ready.minSliceSize, left⟩

theorem results_end {minSliceSize : Nat} {parser : BlockParser Bytes}
    (ready : Ready minSliceSize parser []) (calls : Nat) :
    results readMemory calls parser = List.replicate calls none := by
  induction calls generalizing parser with
  | zero => rfl
  | succ calls inductionHypothesis =>
      obtain ⟨nothing, after⟩ := next_end ready
      rw [results, nothing, inductionHypothesis after, List.replicate_succ]

/-- The records ahead of a parser come out one by one: the induction is on the records and
carries that the parser is ready for the remaining encodings. -/
theorem results_records {minSliceSize : Nat} (machine : minSliceSize < 2 ^ 64)
    {records : List IdxFullBlock} {blocks : List Block} {parser : BlockParser Bytes}
    (ready : Ready minSliceSize parser (records.flatMap IdxFullBlock.encode))
    (canonical : ∀ record ∈ records, ∀ tx ∈ record.block.transactions, Canonical tx)
    (converts : records.mapM Block.tryFrom = .ok blocks)
    (fits : ∀ record ∈ records, record.encode.length ≤ minSliceSize) (calls : Nat) :
    results readMemory (records.length + calls) parser =
      blocks.map (fun block => some (.ok block)) ++ List.replicate calls none := by
  induction records generalizing blocks parser with
  | nil =>
      cases converts
      rw [List.length_nil, Nat.zero_add]
      exact results_end ready calls
  | cons record records inductionHypothesis =>
      rw [List.mapM_cons] at converts
      obtain ⟨block, first, converts⟩ := bind_eq_ok.mp converts
      obtain ⟨others, remaining, same⟩ := bind_eq_ok.mp converts
      cases same
      rw [List.flatMap_cons] at ready
      obtain ⟨returned, after⟩ := next_block ready
        (canonical record List.mem_cons_self) first (fits record List.mem_cons_self) machine
      have following := inductionHypothesis after
        (fun other member => canonical other (List.mem_cons_of_mem record member)) remaining
        (fun other member => fits other (List.mem_cons_of_mem record member))
      have length : (record :: records).length + calls = records.length + calls + 1 := by
        rw [List.length_cons]
        omega
      rw [length, results, returned, following, List.map_cons, List.cons_append]

def sampleRecord : IdxFullBlock where
  block := {
    blockHash := FixedBytes.zero 32
    parentHash := FixedBytes.zero 32
    stateRoot := FixedBytes.zero 32
    timestamp := 1500000000
    duration := 7
    difficulty := 0
    gasLimit := 30000
    gasUsed := 21000
    baseFee := 9
    prevRandao := FixedBytes.zero 32
    epoch := 3
    transactions := [{ transactionType := .accessList, nonce := 5 }]
    receipts := [{ postStateOrStatus := [1], cumulativeGasUsed := 21000, logs := [] }] }
  blockNumber := 42

def sampleBlock : Block where
  parentHash := FixedBytes.zero 32
  ommersHash := emptyOmmersHash
  beneficiary := default
  stateRoot := FixedBytes.zero 32
  difficulty := 0
  number := 42
  gasLimit := 30000
  timestamp := 1
  extraData := [0x1d, 0xcd, 0x65, 0x00, 0, 0, 0, 0, 0, 0, 0, 7]
  prevRandao := FixedBytes.zero 32
  nonce := FixedBytes.zero 8
  transactions := [{ transactionType := .accessList, nonce := 5 }]
  receipts := [{
    transactionType := .accessList
    postStateOrStatus := .status 1
    cumulativeGasUsed := 21000
    logs := [] }]
  baseFeePerGas := some 9
  withdrawalsRoot := some emptyTreeRootHash
  withdrawals := []
  blobGasUsed := some 0
  excessBlobGas := some 0
  parentBeaconBlockRoot := none
  requestsHash := none
  ommerHeaders := []
  verkleStateRoot := none
  binaryStateRoot := none

/-- Parsing in slices returns the conversions of the written records and then nothing, for
every buffer larger than the minimal slice. -/
theorem block_parser_returns_records (bufferSize minSliceSize : UInt64)
    (larger : minSliceSize < bufferSize) (records : List IdxFullBlock) (blocks : List Block)
    (canonical : ∀ record ∈ records, ∀ tx ∈ record.block.transactions, Canonical tx)
    (converts : records.mapM Block.tryFrom = .ok blocks)
    (fits : ∀ record ∈ records, record.encode.length ≤ minSliceSize.toNat) (calls : Nat) :
    results readMemory (records.length + calls)
        ⟨SliceReader.new (records.flatMap IdxFullBlock.encode) bufferSize.toNat
          minSliceSize.toNat, false⟩ =
      blocks.map (fun block => some (.ok block)) ++ List.replicate calls none :=
  results_records minSliceSize.toNat_lt
    ⟨rfl, consistent_new (UInt64.lt_iff_toNat_lt.mp larger), rfl, rfl⟩
    canonical converts fits calls

theorem block_parser_two_records :
    results readMemory 3 ⟨SliceReader.new (sampleRecord.encode ++ sampleRecord.encode) 251 250,
        false⟩ =
      [some (.ok sampleBlock), some (.ok sampleBlock), none] := by
  have canonical : ∀ tx ∈ sampleRecord.block.transactions, Canonical tx := by
    intro tx member
    cases List.mem_singleton.mp member
    exact ⟨rfl, rfl⟩
  have converts : Block.tryFrom sampleRecord = .ok sampleBlock := by decide +kernel
  have fits : sampleRecord.encode.length ≤ 250 := by decide +kernel
  have both := block_parser_returns_records 251 250 (by decide) [sampleRecord, sampleRecord]
    [sampleBlock, sampleBlock]
    (by
      intro record member
      have same : record = sampleRecord := by simpa using member
      rw [same]
      exact canonical)
    (by
      rw [List.mapM_cons, List.mapM_cons, converts]
      rfl)
    (by
      intro record member
      have same : record = sampleRecord := by simpa using member
      rw [same]
      exact fits)
    1
  simpa [List.flatMap_cons] using both

end Bertha.BlockParsing
