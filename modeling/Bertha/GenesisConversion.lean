import Bertha.GenesisBlocks

/-!
# Converting blocks back into genesis records

`TryFrom<Block> for IdxFullBlock` of `genesis-parser/src/g_file/block.rs` against the
conversion the other way. The nanoseconds and the duration are packed into the extra data
and come back exactly; the receipts are paired with the transactions by position, and those
without a transaction are dropped.
-/

namespace Bertha.GenesisConversion

open Bertha.BigEndian Bertha.BlockTypes Bertha.Conversion Bertha.GenesisBlocks Bertha.Headers

set_option autoImplicit false

/-- The error of a conversion, or the overflow that a checked build panics on. -/
inductive ConvertFailure where
  | error (message : String)
  | overflow
deriving DecidableEq, Repr

/-- `From<TransactionReceipt> for StoredReceiptRlp`. -/
def StoredReceiptRlp.ofReceipt (receipt : TransactionReceipt) : StoredReceiptRlp where
  postStateOrStatus := statusBytes receipt.postStateOrStatus
  cumulativeGasUsed := receipt.cumulativeGasUsed
  logs := receipt.logs

def getRange (extraData : Bytes) (first last : Nat) : Except ConvertFailure Bytes :=
  if last ≤ extraData.length then .ok ((extraData.drop first).take (last - first))
  else .error (.error "extra_data should be at least 12 bytes long")

/-- `timestamp_secs * 10u64.pow(9) + timestamp_nanos`. -/
def joinTimestamp (seconds nanos : UInt64) : Except ConvertFailure UInt64 :=
  if seconds.toNat * nanosPerSecond.toNat < 2 ^ 64 ∧
      seconds.toNat * nanosPerSecond.toNat + nanos.toNat < 2 ^ 64 then
    .ok (seconds * nanosPerSecond + nanos)
  else .error .overflow

/-- `TryFrom<Block> for IdxFullBlock`. Hashing a header is a parameter. -/
def IdxFullBlock.tryFrom (libraries : HashLibraries) (computeHash : BlockHeader → Hash)
    (block : Block) : Except ConvertFailure IdxFullBlock := do
  let gasUsed := (block.receipts.getLast?.map (·.cumulativeGasUsed)).getD 0
  let nanos ← getRange block.extraData 0 4
  let timestamp ← joinTimestamp block.timestamp (UInt64.ofNat (decodeBE nanos))
  let duration ← getRange block.extraData 4 12
  return {
    block := {
      blockHash := computeHash (Block.toHeader libraries block)
      parentHash := block.parentHash
      stateRoot := block.stateRoot
      timestamp
      duration := UInt64.ofNat (decodeBE duration)
      difficulty := block.difficulty
      gasLimit := block.gasLimit
      gasUsed
      baseFee := block.baseFeePerGas.getD 0
      prevRandao := block.prevRandao
      epoch := 0
      transactions := block.transactions
      receipts := block.receipts.map StoredReceiptRlp.ofReceipt }
    blockNumber := block.number }

/-- Converting back returns the record, up to the fields that the block does not keep. -/
def Lossless (libraries : HashLibraries) (computeHash : BlockHeader → Hash)
    (record : IdxFullBlock) (block : Block) : Prop :=
  ∃ back, IdxFullBlock.tryFrom libraries computeHash block = .ok back ∧
    { back with block := { back.block with
        epoch := record.block.epoch
        blockHash := record.block.blockHash
        gasUsed := record.block.gasUsed } } = record

theorem receipt_back {receipt : StoredReceiptRlp} {transactionType : TransactionType}
    {converted : TransactionReceipt}
    (converts : TransactionReceipt.tryFrom receipt transactionType = .ok converted) :
    StoredReceiptRlp.ofReceipt converted = receipt := by
  unfold TransactionReceipt.tryFrom at converts
  split_ifs at converts with failed succeeded sized
  · cases converts
    simp only [StoredReceiptRlp.ofReceipt, statusBytes, ← failed]
    rfl
  · cases converts
    simp only [StoredReceiptRlp.ofReceipt, statusBytes, ← succeeded]
    rfl
  · cases converts
    rfl
  · cases converts

theorem receipts_back {pairs : List (StoredReceiptRlp × Transaction)}
    {receipts : List TransactionReceipt}
    (converts : (pairs.mapM fun pair =>
      TransactionReceipt.tryFrom pair.1 pair.2.transactionType) = .ok receipts) :
    receipts.map StoredReceiptRlp.ofReceipt = pairs.map Prod.fst := by
  induction pairs generalizing receipts with
  | nil =>
      cases converts
      rfl
  | cons pair pairs inductionHypothesis =>
      rw [List.mapM_cons] at converts
      obtain ⟨first, head, converts⟩ := bind_eq_ok.mp converts
      obtain ⟨others, tail, same⟩ := bind_eq_ok.mp converts
      cases same
      rw [List.map_cons, List.map_cons, receipt_back head, inductionHypothesis tail]

theorem zip_fst_iff (receipts : List StoredReceiptRlp) (transactions : List Transaction) :
    (receipts.zip transactions).map Prod.fst = receipts ↔
      receipts.length ≤ transactions.length := by
  constructor
  · intro same
    have length := congrArg List.length same
    rw [List.length_map, List.length_zip] at length
    omega
  · intro paired
    exact List.map_fst_zip paired

theorem timestamp_back (timestamp : UInt64) :
    joinTimestamp (timestamp / nanosPerSecond)
      (UInt64.ofNat (decodeBE (encodeBE 4 (timestamp % nanosPerSecond).toNat))) =
      .ok timestamp := by
  have whole := Nat.div_add_mod timestamp.toNat nanosPerSecond.toNat
  have bound := timestamp.toNat_lt
  have small : (timestamp % nanosPerSecond).toNat < 1000000000 := by
    rw [UInt64.toNat_mod]
    exact Nat.mod_lt _ (by decide)
  rw [decode_encode_be_of_lt (by omega), UInt64.ofNat_toNat, joinTimestamp]
  rw [UInt64.toNat_div, UInt64.toNat_mod, Nat.mul_comm, if_pos (by omega)]
  congr 1
  apply UInt64.toNat_inj.mp
  have product : nanosPerSecond.toNat * (timestamp.toNat / nanosPerSecond.toNat) < 2 ^ 64 := by
    omega
  rw [UInt64.toNat_add, UInt64.toNat_mul, UInt64.toNat_div, UInt64.toNat_mod, Nat.mul_comm,
    Nat.mod_eq_of_lt product, whole, Nat.mod_eq_of_lt bound]

theorem extra_data_back (nanos duration : Nat) :
    getRange (encodeBE 4 nanos ++ encodeBE 8 duration) 0 4 = .ok (encodeBE 4 nanos) ∧
      getRange (encodeBE 4 nanos ++ encodeBE 8 duration) 4 12 = .ok (encodeBE 8 duration) := by
  have length : (encodeBE 4 nanos ++ encodeBE 8 duration).length = 12 := by
    rw [List.length_append, encode_be_length, encode_be_length]
  have rear : ((encodeBE 4 nanos ++ encodeBE 8 duration).drop 4).take 8 = encodeBE 8 duration := by
    rw [List.drop_left' (encode_be_length 4 _), List.take_of_length_le (encode_be_length 8 _).le]
  unfold getRange
  rw [if_pos (by omega), if_pos (by omega), List.drop_zero, rear,
    List.take_left' (encode_be_length 4 _)]
  exact ⟨rfl, rfl⟩

theorem try_from_eq (libraries : HashLibraries) (computeHash : BlockHeader → Hash) {block : Block}
    {nanos duration : Bytes} {timestamp : UInt64}
    (front : getRange block.extraData 0 4 = .ok nanos)
    (joined : joinTimestamp block.timestamp (UInt64.ofNat (decodeBE nanos)) = .ok timestamp)
    (rear : getRange block.extraData 4 12 = .ok duration) :
    IdxFullBlock.tryFrom libraries computeHash block = .ok {
      block := {
        blockHash := computeHash (Block.toHeader libraries block)
        parentHash := block.parentHash
        stateRoot := block.stateRoot
        timestamp
        duration := UInt64.ofNat (decodeBE duration)
        difficulty := block.difficulty
        gasLimit := block.gasLimit
        gasUsed := (block.receipts.getLast?.map (·.cumulativeGasUsed)).getD 0
        baseFee := block.baseFeePerGas.getD 0
        prevRandao := block.prevRandao
        epoch := 0
        transactions := block.transactions
        receipts := block.receipts.map StoredReceiptRlp.ofReceipt }
      blockNumber := block.number } :=
  bind_eq_ok.mpr ⟨nanos, front, bind_eq_ok.mpr ⟨timestamp, joined,
    bind_eq_ok.mpr ⟨duration, rear, rfl⟩⟩⟩

theorem try_from_back (libraries : HashLibraries) (computeHash : BlockHeader → Hash)
    {record : IdxFullBlock} {block : Block} (converts : Block.tryFrom record = .ok block) :
    IdxFullBlock.tryFrom libraries computeHash block = .ok { record with
      block := { record.block with
        blockHash := computeHash (Block.toHeader libraries block)
        gasUsed := (block.receipts.getLast?.map (·.cumulativeGasUsed)).getD 0
        epoch := 0
        receipts := (record.block.receipts.zip record.block.transactions).map Prod.fst } } := by
  obtain ⟨receipts, read, same⟩ := bind_eq_ok.mp converts
  cases same
  obtain ⟨front, rear⟩ := extra_data_back (record.block.timestamp % nanosPerSecond).toNat
    record.block.duration.toNat
  have duration : UInt64.ofNat (decodeBE (encodeBE 8 record.block.duration.toNat)) =
      record.block.duration := by
    rw [decode_encode_be_of_lt (by simpa using record.block.duration.toNat_lt), UInt64.ofNat_toNat]
  have joined := timestamp_back record.block.timestamp
  refine Eq.trans (try_from_eq libraries computeHash front joined rear) ?_
  rw [duration, receipts_back read]
  rfl

/-- A converted record comes back exactly if it has no more receipts than transactions. -/
theorem genesis_conversion_lossless_iff (libraries : HashLibraries)
    (computeHash : BlockHeader → Hash) (record : IdxFullBlock) (block : Block)
    (converts : Block.tryFrom record = .ok block) :
    Lossless libraries computeHash record block ↔
      record.block.receipts.length ≤ record.block.transactions.length := by
  rw [← zip_fst_iff, Lossless, try_from_back libraries computeHash converts]
  constructor
  · rintro ⟨back, returned, same⟩
    cases returned
    exact congrArg (fun record : IdxFullBlock => record.block.receipts) same
  · intro paired
    refine ⟨_, rfl, ?_⟩
    simp only [paired]

def lateRecord (transactions : List Transaction) (receipts : List StoredReceiptRlp) :
    IdxFullBlock where
  block := {
    blockHash := FixedBytes.zero 32
    parentHash := FixedBytes.zero 32
    stateRoot := FixedBytes.zero 32
    timestamp := 0xffffffffffffffff
    duration := 7
    difficulty := 0
    gasLimit := 30000
    gasUsed := 0
    baseFee := 9
    prevRandao := FixedBytes.zero 32
    epoch := 3
    transactions
    receipts }
  blockNumber := 42

theorem late_record_lossless :
    let record := lateRecord [{ transactionType := .accessList }] [⟨[1], 21000, []⟩]
    let libraries : HashLibraries := ⟨fun _ => default, fun bloom _ => bloom⟩
    ∃ block, Block.tryFrom record = .ok block ∧
      Lossless libraries (fun _ => default) record block := by
  intro record libraries
  have converts : Block.tryFrom record = .ok _ := rfl
  exact ⟨_, converts, (genesis_conversion_lossless_iff libraries _ record _ converts).mpr (by decide)⟩

theorem unpaired_receipt_lost :
    let record := lateRecord [] [⟨[1], 21000, []⟩]
    let libraries : HashLibraries := ⟨fun _ => default, fun bloom _ => bloom⟩
    ∃ block, Block.tryFrom record = .ok block ∧ block.receipts = [] ∧
      ¬ Lossless libraries (fun _ => default) record block := by
  intro record libraries
  have converts : Block.tryFrom record = .ok _ := rfl
  refine ⟨_, converts, rfl, ?_⟩
  rintro ⟨back, returned, same⟩
  rw [try_from_back libraries _ converts] at returned
  cases returned
  have receipts := congrArg (fun record : IdxFullBlock => record.block.receipts) same
  cases receipts

end Bertha.GenesisConversion
