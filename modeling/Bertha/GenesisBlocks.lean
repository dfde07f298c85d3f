import Bertha.Headers

/-!
# Blocks of a genesis file

The block records of `genesis-parser/src/g_file/block.rs` and `transaction_receipt.rs`:
their RLP form and their conversion to a `Block`. A legacy transaction is stored as its
bare list and a typed one wrapped in a string, so the decoder looks at the next header
first. Every record of valid transactions in normal form reads back as itself.
-/

namespace Bertha.GenesisBlocks

open Bertha.BigEndian Bertha.BlockTypes Bertha.Headers Bertha.Rlp Bertha.RlpFields
open Bertha.TransactionRlp

set_option autoImplicit false

def emptyOmmersHash : Hash :=
  ⟨[0x1d, 0xcc, 0x4d, 0xe8, 0xde, 0xc7, 0x5d, 0x7a, 0xab, 0x85, 0xb5, 0x67, 0xb6, 0xcc, 0xd4,
    0x1a, 0xd3, 0x12, 0x45, 0x1b, 0x94, 0x8a, 0x74, 0x13, 0xf0, 0xa1, 0x42, 0xfd, 0x40, 0xd4,
    0x93, 0x47], rfl⟩

def emptyTreeRootHash : Hash :=
  ⟨[0x56, 0xe8, 0x1f, 0x17, 0x1b, 0xcc, 0x55, 0xa6, 0xff, 0x83, 0x45, 0xe6, 0x92, 0xc0, 0xf8,
    0x6e, 0x5b, 0x48, 0xe0, 0x1b, 0x99, 0x6c, 0xad, 0xc0, 0x01, 0x62, 0x2f, 0xb5, 0xe3, 0x63,
    0xb4, 0x21], rfl⟩

def headerLength (header : Header) : Nat := header.encode.length

def encodeRlpTransaction (tx : Transaction) : Bytes :=
  if tx.transactionType = .legacy then Transaction.marshal tx
  else encodeString (Transaction.marshal tx)

def decodeRlpTransaction : Decoder Transaction := fun input =>
  match Header.decode input with
  | .error error => .error error
  | .ok (header, _) =>
    if header.list then Transaction.unmarshal input
    else Transaction.unmarshal (input.drop (headerLength header))

structure StoredReceiptRlp where
  postStateOrStatus : Bytes
  cumulativeGasUsed : UInt64
  logs : List Log
deriving DecidableEq

def decodeLog : Decoder Log := decodeStruct do
  let address ← decodeFixed 20
  let topics ← decodeVec (decodeFixed 32)
  let data ← decodeBytes false
  return { address, topics, data }

def StoredReceiptRlp.encode (receipt : StoredReceiptRlp) : Bytes :=
  encodeList [encodeString receipt.postStateOrStatus, encodeU64 receipt.cumulativeGasUsed,
    encodeList (receipt.logs.map encodeLog)]

def StoredReceiptRlp.decode : Decoder StoredReceiptRlp := decodeStruct do
  let postStateOrStatus ← decodeString
  let cumulativeGasUsed ← decodeU64
  let logs ← decodeVec decodeLog
  return { postStateOrStatus, cumulativeGasUsed, logs }

def encodeU32 (value : UInt32) : Bytes := encodeUint value.toNat

def decodeU32 : Decoder UInt32 := UInt32.ofNat <$> decodeUint 4

structure FullBlock where
  blockHash : Hash
  parentHash : Hash
  stateRoot : Hash
  timestamp : UInt64
  duration : UInt64
  difficulty : UInt64
  gasLimit : UInt64
  gasUsed : UInt64
  baseFee : U256
  prevRandao : Hash
  epoch : UInt32
  transactions : List Transaction
  receipts : List StoredReceiptRlp
deriving DecidableEq

structure IdxFullBlock where
  block : FullBlock
  blockNumber : UInt64
deriving DecidableEq

def FullBlock.encode (block : FullBlock) : Bytes :=
  encodeList [encodeFixed block.blockHash, encodeFixed block.parentHash,
    encodeFixed block.stateRoot, encodeU64 block.timestamp, encodeU64 block.duration,
    encodeU64 block.difficulty, encodeU64 block.gasLimit, encodeU64 block.gasUsed,
    encodeU256 block.baseFee, encodeFixed block.prevRandao, encodeU32 block.epoch,
    encodeList (block.transactions.map encodeRlpTransaction),
    encodeList (block.receipts.map StoredReceiptRlp.encode)]

def FullBlock.decode : Decoder FullBlock := decodeStruct do
  let blockHash ← decodeFixed 32
  let parentHash ← decodeFixed 32
  let stateRoot ← decodeFixed 32
  let timestamp ← decodeU64
  let duration ← decodeU64
  let difficulty ← decodeU64
  let gasLimit ← decodeU64
  let gasUsed ← decodeU64
  let baseFee ← decodeU256
  let prevRandao ← decodeFixed 32
  let epoch ← decodeU32
  let transactions ← decodeVec decodeRlpTransaction
  let receipts ← decodeVec StoredReceiptRlp.decode
  return {
    blockHash, parentHash, stateRoot, timestamp, duration, difficulty, gasLimit, gasUsed,
    baseFee, prevRandao, epoch, transactions, receipts }

def IdxFullBlock.encode (block : IdxFullBlock) : Bytes :=
  encodeList [block.block.encode, encodeU64 block.blockNumber]

def IdxFullBlock.decode : Decoder IdxFullBlock := decodeStruct do
  let block ← FullBlock.decode
  let blockNumber ← decodeU64
  return { block, blockNumber }

/-- `TryFrom<StoredReceiptRlpWithTxType> for TransactionReceipt`. -/
def TransactionReceipt.tryFrom (receipt : StoredReceiptRlp) (transactionType : TransactionType) :
    Except String TransactionReceipt := do
  let postStateOrStatus ←
    if receipt.postStateOrStatus = [] then pure (PostStateOrStatus.status 0)
    else if receipt.postStateOrStatus = [0x01] then pure (PostStateOrStatus.status 1)
    else if sized : receipt.postStateOrStatus.length = 32 then
      pure (PostStateOrStatus.postState ⟨receipt.postStateOrStatus, sized⟩)
    else throw "invalid receipt status"
  return {
    transactionType
    postStateOrStatus
    cumulativeGasUsed := receipt.cumulativeGasUsed
    logs := receipt.logs }

def nanosPerSecond : UInt64 := 1000000000

/-- `TryFrom<IdxFullBlock> for Block`. -/
def Block.tryFrom (idxFullBlock : IdxFullBlock) : Except String Block := do
  let block := idxFullBlock.block
  let timestampNanos := block.timestamp % nanosPerSecond
  let receipts ← (block.receipts.zip block.transactions).mapM fun pair =>
    TransactionReceipt.tryFrom pair.1 pair.2.transactionType
  return {
    parentHash := block.parentHash
    ommersHash := emptyOmmersHash
    beneficiary := default
    stateRoot := block.stateRoot
    difficulty := block.difficulty
    number := idxFullBlock.blockNumber
    gasLimit := block.gasLimit
    timestamp := block.timestamp / nanosPerSecond
    extraData := encodeBE 4 timestampNanos.toNat ++ encodeBE 8 block.duration.toNat
    prevRandao := block.prevRandao
    nonce := FixedBytes.zero 8
    transactions := block.transactions
    receipts
    baseFeePerGas := some block.baseFee
    withdrawalsRoot := some emptyTreeRootHash
    withdrawals := []
    blobGasUsed := some 0
    excessBlobGas := some 0
    parentBeaconBlockRoot := none
    requestsHash := none
    ommerHeaders := []
    verkleStateRoot := none
    binaryStateRoot := none }

/-- A transaction that its type can express, with the fields it does not use at their
defaults. -/
def Canonical (tx : Transaction) : Prop :=
  Transaction.isValid tx = .ok () ∧ resetUnused tx = tx

theorem reads_log (log : Log) : Reads decodeLog (encodeLog log) log := by
  apply reads_struct
  apply (reads_fixed log.address).bind
  apply (reads_hashes log.topics).bind
  apply (reads_bytes log.data).bind
  exact Reads.pure log

theorem reads_stored_receipt (receipt : StoredReceiptRlp) :
    Reads StoredReceiptRlp.decode receipt.encode receipt := by
  apply reads_struct
  apply (reads_string receipt.postStateOrStatus).bind
  apply (reads_u64 receipt.cumulativeGasUsed).bind
  apply (reads_vec (fun log _ => reads_log log) fun _ _ => encode_list_ne_nil _).bind
  exact Reads.pure receipt

theorem reads_u32 (value : UInt32) : Reads decodeU32 (encodeU32 value) value := by
  have read := (reads_uint 4 (by decide) (by simpa using value.toNat_lt)).map UInt32.ofNat
  rwa [UInt32.ofNat_toNat] at read

/-- A valid transaction is marshalled as a list, behind its type byte unless it is legacy. -/
theorem marshal_shape {tx : Transaction} (valid : Transaction.isValid tx = .ok ()) :
    ∃ items, Transaction.marshal tx =
      if tx.transactionType = .legacy then encodeList items
      else tx.transactionType.toU8 :: encodeList items := by
  obtain ⟨-, recipient⟩ | ⟨⟨failure, invalid⟩, -⟩ := is_valid_cases tx
  · obtain ⟨kind, chainId, nonce, gasPrice, gasLimit, toAddress, rest⟩ := tx
    cases kind with
    | legacy => exact ⟨_, rfl⟩
    | accessList => exact ⟨_, rfl⟩
    | dynamicFee => exact ⟨_, rfl⟩
    | blob =>
        obtain ⟨address, present⟩ := recipient (.inl rfl)
        cases present
        exact ⟨_, rfl⟩
    | setCode =>
        obtain ⟨address, present⟩ := recipient (.inr rfl)
        cases present
        exact ⟨_, rfl⟩
  · rw [valid] at invalid
    cases invalid

theorem reads_rlp_transaction {tx : Transaction} (canonical : Canonical tx) :
    Reads decodeRlpTransaction (encodeRlpTransaction tx) tx := by
  obtain ⟨valid, unused⟩ := canonical
  obtain ⟨items, shape⟩ := marshal_shape valid
  have unmarshals := reads_unmarshal_marshal valid
  rw [unused] at unmarshals
  intro bounded rest
  unfold encodeRlpTransaction at bounded ⊢
  by_cases legacy : tx.transactionType = .legacy
  · rw [if_pos legacy] at bounded ⊢ shape
    have small : items.flatten.length < 2 ^ 64 := by
      rw [shape, encodeList, List.length_append] at bounded
      omega
    have header := header_decode_encode true items.flatten rest small (by simp)
    have peeked : Header.decode (Transaction.marshal tx ++ rest) =
        .ok (⟨true, items.flatten.length⟩, items.flatten ++ rest) := by
      rw [shape, encodeList, List.append_assoc, header]
    simp only [decodeRlpTransaction, peeked, if_true]
    exact unmarshals bounded rest
  · rw [if_neg legacy] at bounded ⊢ shape
    have several : ∀ byte, Transaction.marshal tx ≠ [byte] := by
      intro byte single
      rw [shape] at single
      exact encode_list_ne_nil items (List.cons.inj single).2
    have wrapped : encodeString (Transaction.marshal tx) =
        Header.encode ⟨false, (Transaction.marshal tx).length⟩ ++ Transaction.marshal tx := by
      unfold encodeString encodeBytes
      split
      · rename_i byte single
        exact absurd single (several byte)
      · rfl
    rw [wrapped, List.length_append] at bounded
    have small : (Transaction.marshal tx).length < 2 ^ 64 := by omega
    have header := header_decode_encode false (Transaction.marshal tx) rest small
      (fun _ byte single => absurd single (several byte))
    rw [wrapped, List.append_assoc]
    simp only [decodeRlpTransaction, header, Bool.false_eq_true, if_false, headerLength]
    rw [List.drop_left]
    exact unmarshals small rest

theorem encode_rlp_transaction_ne_nil {tx : Transaction}
    (valid : Transaction.isValid tx = .ok ()) : encodeRlpTransaction tx ≠ [] := by
  obtain ⟨items, shape⟩ := marshal_shape valid
  unfold encodeRlpTransaction
  split
  · rename_i legacy
    rw [shape, if_pos legacy]
    exact encode_list_ne_nil items
  · exact encode_bytes_ne_nil _

/-- A block record reads back as itself when its transactions are in normal form. -/
theorem reads_idx_full_block {block : IdxFullBlock}
    (canonical : ∀ tx ∈ block.block.transactions, Canonical tx) :
    Reads IdxFullBlock.decode block.encode block := by
  have full : Reads FullBlock.decode block.block.encode block.block := by
    apply reads_struct
    apply (reads_fixed block.block.blockHash).bind
    apply (reads_fixed block.block.parentHash).bind
    apply (reads_fixed block.block.stateRoot).bind
    apply (reads_u64 block.block.timestamp).bind
    apply (reads_u64 block.block.duration).bind
    apply (reads_u64 block.block.difficulty).bind
    apply (reads_u64 block.block.gasLimit).bind
    apply (reads_u64 block.block.gasUsed).bind
    apply (reads_u256 block.block.baseFee).bind
    apply (reads_fixed block.block.prevRandao).bind
    apply (reads_u32 block.block.epoch).bind
    apply (reads_vec (fun tx member => reads_rlp_transaction (canonical tx member))
      fun tx member => encode_rlp_transaction_ne_nil (canonical tx member).1).bind
    apply (reads_vec (fun receipt _ => reads_stored_receipt receipt)
      fun _ _ => encode_list_ne_nil _).bind
    exact Reads.pure block.block
  apply reads_struct
  apply full.bind
  apply (reads_u64 block.blockNumber).bind
  exact Reads.pure block

end Bertha.GenesisBlocks
