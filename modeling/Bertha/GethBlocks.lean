import Bertha.GethConvert

/-!
# Headers on the Go side

`ConvertToGethBlock` of `go/convert/convert.go` and geth's header encoding, compared with
the header that the Rust service computes from the same block. The roots and blooms are
those of the geth libraries. Go always fills in a base fee, so a header without any of the
optional fields is encoded with one more item than in Rust; every other header agrees.
-/

namespace Bertha.GethBlocks

open Bertha.BigEndian Bertha.GethConvert Bertha.Headers Bertha.Rlp
open Bertha.BlockTypes (FixedBytes Hash Address Bloom U256)
open Bertha.ProtoBlock (toVec u256ToVec)
open Bertha.RlpFields (encodeU64 encodeU256 encodeFixed encode_u256_eq)

set_option autoImplicit false

structure GethLog where
  address : Address
  topics : List Hash
  data : Bytes
deriving DecidableEq

structure GethReceipt where
  receiptType : UInt8
  status : UInt64
  cumulativeGasUsed : UInt64
  logs : List GethLog
  bloom : Bloom
deriving DecidableEq

/-- `types.Header`; a `nil` pointer is `none`. -/
structure GethHeader where
  parentHash : Hash
  uncleHash : Hash
  coinbase : Address
  root : Hash
  txHash : Hash
  receiptHash : Hash
  bloom : Bloom
  difficulty : Nat
  number : Nat
  gasLimit : UInt64
  gasUsed : UInt64
  time : UInt64
  extra : Bytes
  mixDigest : Hash
  nonce : FixedBytes 8
  baseFee : Option Nat
  withdrawalsHash : Option Hash
  blobGasUsed : Option UInt64
  excessBlobGas : Option UInt64
  parentBeaconRoot : Option Hash
  requestsHash : Option Hash
deriving DecidableEq

structure GethWithdrawal where
  index : UInt64
  validator : UInt64
  address : Address
  amount : UInt64
deriving DecidableEq

structure Uncle where
  coinbase : Address
  number : Nat
deriving DecidableEq

structure GethBlock where
  header : GethHeader
  transactions : List GethTransaction
  uncles : List Uncle
  withdrawals : List GethWithdrawal
deriving DecidableEq

/-- What the conversion uses of geth: `DeriveSha` on both kinds of lists, `CreateBloom` and
`MergeBloom`. -/
structure GethLibraries where
  transactionsRoot : List GethTransaction → Hash
  receiptsRoot : List GethReceipt → Hash
  createBloom : List GethLog → Bloom
  mergeBloom : List GethReceipt → Bloom

inductive ConvertFailure where
  | error (message : String)
  | panic (message : String)
deriving DecidableEq, Repr

def toGethLog (log : ProtoBlock.Log) : GethLog where
  address := bytesToFixed 20 log.address
  topics := log.topics.map (bytesToFixed 32)
  data := log.data

def receiptStatus (receipt : ProtoBlock.TransactionReceipt) : Except ConvertFailure UInt64 :=
  match receipt.postStateOrStatus with
  | none => .ok 0
  | some (.status status) => .ok status
  | some (.postState _) =>
      .error (.panic "receipts without the status field (pre EIP-658) are not supported")

def toGethReceipt (libraries : GethLibraries) (receipt : ProtoBlock.TransactionReceipt) :
    Except ConvertFailure GethReceipt := do
  let logs := receipt.logs.map toGethLog
  let status ← receiptStatus receipt
  return {
    receiptType := receipt.transactionType.toUInt8
    status := status
    cumulativeGasUsed := receipt.cumulativeGasUsed
    logs := logs
    bloom := libraries.createBloom logs }

def toOptionalHash (data : Bytes) : Option Hash :=
  if data.length = 0 then none else some (copyToFixed 32 data)

def toGethOmmerHeader (header : ProtoBlock.OmmerHeader) : Uncle where
  coinbase := bytesToFixed 20 header.beneficiary
  number := header.number.toNat

def toGethWithdrawal (withdrawal : ProtoBlock.Withdrawal) : GethWithdrawal where
  index := withdrawal.index
  validator := withdrawal.validatorIndex
  address := bytesToFixed 20 withdrawal.address
  amount := withdrawal.amount

def gethHeader (libraries : GethLibraries) (block : ProtoBlock.Block)
    (transactions : List GethTransaction) (receipts : List GethReceipt) : GethHeader where
  parentHash := bytesToFixed 32 block.parentHash
  uncleHash := bytesToFixed 32 block.ommersHash
  coinbase := bytesToFixed 20 block.beneficiary
  root := bytesToFixed 32 block.stateRoot
  txHash := libraries.transactionsRoot transactions
  receiptHash := libraries.receiptsRoot receipts
  bloom := libraries.mergeBloom receipts
  difficulty := block.difficulty.toNat
  number := block.number.toNat
  gasLimit := block.gasLimit
  gasUsed := (receipts.getLast?.map (·.cumulativeGasUsed)).getD 0
  time := block.timestamp
  extra := block.extraData
  mixDigest := bytesToFixed 32 block.prevRandao
  nonce := copyToFixed 8 block.nonce
  baseFee := some (bigSetBytes (goBytes block.baseFeePerGas))
  withdrawalsHash := toOptionalHash (goBytes block.withdrawalsRoot)
  blobGasUsed := block.blobGasUsed
  excessBlobGas := block.excessBlobGas
  parentBeaconRoot := toOptionalHash (goBytes block.parentBeaconBlockRoot)
  requestsHash := toOptionalHash (goBytes block.requestsHash)

def convertToGethBlock (libraries : GethLibraries) (message : Option ProtoBlock.Block) :
    Except ConvertFailure GethBlock :=
  match message with
  | none => .error (.error "cannot convert nil block")
  | some block => do
    let transactions ← (toGethTransactions block.transactions).mapError .error
    let receipts ← block.receipts.mapM (toGethReceipt libraries)
    return {
      header := gethHeader libraries block transactions receipts
      transactions := transactions
      uncles := block.ommerHeaders.map toGethOmmerHeader
      withdrawals := block.withdrawals.map toGethWithdrawal }

def GethHeader.encodeRLP (header : GethHeader) : Bytes :=
  encodeList ([encodeBytes header.parentHash.val, encodeBytes header.uncleHash.val,
      encodeBytes header.coinbase.val, encodeBytes header.root.val,
      encodeBytes header.txHash.val, encodeBytes header.receiptHash.val,
      encodeBytes header.bloom.val, rlpBigInt header.difficulty, rlpBigInt header.number,
      rlpUint64 header.gasLimit, rlpUint64 header.gasUsed, rlpUint64 header.time,
      encodeBytes header.extra, encodeBytes header.mixDigest.val,
      encodeBytes header.nonce.val] ++
    trailing [header.baseFee.map rlpBigInt,
      header.withdrawalsHash.map fun hash => encodeBytes hash.val,
      header.blobGasUsed.map rlpUint64, header.excessBlobGas.map rlpUint64,
      header.parentBeaconRoot.map fun hash => encodeBytes hash.val,
      header.requestsHash.map fun hash => encodeBytes hash.val])

/-- The block has one of the header fields that later hard forks added. -/
def HasOptionalField (block : BlockTypes.Block) : Prop :=
  block.baseFeePerGas.isSome ∨ block.withdrawalsRoot.isSome ∨ block.blobGasUsed.isSome ∨
    block.excessBlobGas.isSome ∨ block.parentBeaconBlockRoot.isSome ∨ block.requestsHash.isSome

theorem to_geth_transaction_total (tx : BlockTypes.Transaction) :
    ∃ geth, toGethTransaction (some (ProtoBlock.Transaction.fromTypes tx)) = .ok geth := by
  obtain ⟨kind, chainId, nonce, gasPrice, gasLimit, toAddress, value, data, accessList, feeCap,
    tipCap, hashes, blobFeeCap, authorizations, yParity, r, s⟩ := tx
  cases kind <;> exact ⟨_, rfl⟩

theorem to_geth_transactions_total (transactions : List BlockTypes.Transaction) :
    ∃ geths, toGethTransactions (transactions.map ProtoBlock.Transaction.fromTypes) =
      .ok geths := by
  unfold toGethTransactions
  generalize 0 = start
  induction transactions generalizing start with
  | nil => exact ⟨[], rfl⟩
  | cons tx transactions ih =>
      obtain ⟨geth, converted⟩ := to_geth_transaction_total tx
      obtain ⟨geths, others⟩ := ih (start + 1)
      refine ⟨geth :: geths, ?_⟩
      rw [List.map_cons, List.zipIdx_cons, List.mapM_cons, others, converted]
      rfl

theorem to_geth_receipts_total (libraries : GethLibraries)
    (receipts : List BlockTypes.TransactionReceipt)
    (statuses : ∀ receipt ∈ receipts, ∃ code, receipt.postStateOrStatus = .status code) :
    ∃ geths, (receipts.map ProtoBlock.TransactionReceipt.fromTypes).mapM
        (toGethReceipt libraries) = .ok geths ∧
      geths.map (·.cumulativeGasUsed) = receipts.map (·.cumulativeGasUsed) := by
  induction receipts with
  | nil => exact ⟨[], rfl, rfl⟩
  | cons receipt receipts ih =>
      obtain ⟨code, status⟩ := statuses receipt (by simp)
      obtain ⟨geths, others, gas⟩ := ih fun later member => statuses later (by simp [member])
      have converted : ∃ geth,
          toGethReceipt libraries (ProtoBlock.TransactionReceipt.fromTypes receipt) = .ok geth ∧
            geth.cumulativeGasUsed = receipt.cumulativeGasUsed := by
        simp only [toGethReceipt, ProtoBlock.TransactionReceipt.fromTypes, receiptStatus, status,
          ProtoBlock.PostStateOrStatus.fromTypes]
        exact ⟨_, rfl, rfl⟩
      obtain ⟨geth, converted, sameGas⟩ := converted
      refine ⟨geth :: geths, ?_, ?_⟩
      · rw [List.map_cons, List.mapM_cons, converted, others]
        rfl
      · rw [List.map_cons, List.map_cons, sameGas, gas]

theorem convert_to_geth_block_eq (libraries : GethLibraries) {block : ProtoBlock.Block}
    {transactions : List GethTransaction} {receipts : List GethReceipt}
    (transactionsEq : toGethTransactions block.transactions = .ok transactions)
    (receiptsEq : block.receipts.mapM (toGethReceipt libraries) = .ok receipts) :
    convertToGethBlock libraries (some block) = .ok {
      header := gethHeader libraries block transactions receipts
      transactions := transactions
      uncles := block.ommerHeaders.map toGethOmmerHeader
      withdrawals := block.withdrawals.map toGethWithdrawal } := by
  simp only [convertToGethBlock, transactionsEq, receiptsEq]
  rfl

theorem to_optional_hash_to_vec (hash : Option Hash) :
    toOptionalHash (goBytes (hash.map toVec)) = hash := by
  cases hash with
  | none => rfl
  | some value =>
      have present : ¬ (goBytes (some (toVec value))).length = 0 := by
        simp [goBytes, toVec, value.property]
      simp only [Option.map_some, toOptionalHash, if_neg present]
      simp only [goBytes, Option.getD_some, copy_to_fixed_to_vec]

theorem rlp_difficulty (difficulty : UInt64) :
    rlpBigInt difficulty.toNat = encodeU256 (difficulty.toBitVec.setWidth 256) := by
  have same : (difficulty.toBitVec.setWidth 256).toNat = difficulty.toNat := by
    rw [BitVec.toNat_setWidth, UInt64.toNat_toBitVec]
    exact Nat.mod_eq_of_lt (lt_trans difficulty.toNat_lt (by norm_num))
  rw [encode_u256_eq, same]
  rfl

theorem option_map_rlp_uint64 (value : Option UInt64) :
    value.map rlpUint64 = value.map encodeU64 := by
  rw [funext rlp_uint64_eq]

/-- The base fee field of Go: a missing base fee is sealed as zero. -/
theorem rlp_base_fee (baseFee : Option U256) :
    (some (bigSetBytes (goBytes (baseFee.map u256ToVec)))).map rlpBigInt =
      some ((baseFee.map encodeU256).getD [emptyStringCode]) := by
  cases baseFee with
  | none => rfl
  | some fee =>
      simp only [Option.map_some, goBytes, Option.getD_some, rlp_big_int_eq]

section Agreement

variable {rust : HashLibraries} {geth : GethLibraries} {block : BlockTypes.Block}
  {transactions : List GethTransaction} {receipts : List GethReceipt}
  (gas : receipts.map (·.cumulativeGasUsed) = block.receipts.map (·.cumulativeGasUsed))
  (sameTransactions :
    geth.transactionsRoot transactions = (Block.toHeader rust block).transactionsRoot)
  (sameReceipts : geth.receiptsRoot receipts = (Block.toHeader rust block).receiptsRoot)
  (sameBloom : geth.mergeBloom receipts = (Block.toHeader rust block).logsBloom)

include gas sameTransactions sameReceipts sameBloom

/-- The two headers have the same items up to the base fee, which Go always writes. -/
theorem geth_header_items :
    ∃ leading : List Bytes, ∃ later : List (Option Bytes),
      (later.any Option.isSome = true ↔
        block.withdrawalsRoot.isSome ∨ block.blobGasUsed.isSome ∨ block.excessBlobGas.isSome ∨
          block.parentBeaconBlockRoot.isSome ∨ block.requestsHash.isSome) ∧
      (Block.toHeader rust block).encode =
        encodeList (leading ++ trailing (block.baseFeePerGas.map encodeU256 :: later)) ∧
      (gethHeader geth (ProtoBlock.Block.fromTypes block) transactions receipts).encodeRLP =
        encodeList (leading ++ trailing
          (some ((block.baseFeePerGas.map encodeU256).getD [emptyStringCode]) :: later)) := by
  have sameGas : (receipts.getLast?.map (·.cumulativeGasUsed)).getD 0 =
      (block.receipts.getLast?.map (·.cumulativeGasUsed)).getD 0 := by
    rw [← List.getLast?_map, gas, List.getLast?_map]
  have number : rlpBigInt block.number.toNat = encodeU64 block.number :=
    rlp_uint64_eq block.number
  refine ⟨_, _, ?_, rfl, ?_⟩
  · simp [Block.toHeader, Bool.or_eq_true]
  · simp only [GethHeader.encodeRLP, gethHeader, ProtoBlock.Block.fromTypes,
      bytes_to_fixed_to_vec, copy_to_fixed_to_vec, to_optional_hash_to_vec, rlp_base_fee,
      option_map_rlp_uint64, rlp_difficulty block.difficulty, number, rlp_uint64_eq, sameGas,
      sameTransactions, sameReceipts, sameBloom]
    rfl

theorem geth_header_agrees_iff :
    (gethHeader geth (ProtoBlock.Block.fromTypes block) transactions receipts).encodeRLP =
        (Block.toHeader rust block).encode ↔ HasOptionalField block := by
  obtain ⟨leading, later, presence, rustEncoding, gethEncoding⟩ :=
    geth_header_items gas sameTransactions sameReceipts sameBloom
  rw [gethEncoding, rustEncoding, HasOptionalField, ← presence]
  cases block.baseFeePerGas with
  | some fee => simp
  | none =>
      simp only [Option.map_none, Option.getD_none, Option.isSome_none, Bool.false_eq_true,
        false_or, trailing_first_empty]
      cases present : later.any Option.isSome with
      | true => simp
      | false =>
          simp only [Bool.false_eq_true, if_false, iff_false]
          intro same
          have longer := encode_list_length_lt
            (show (leading ++ trailing (none :: later)).flatten.length <
              (leading ++ (trailing (none :: later) ++ [[emptyStringCode]])).flatten.length by
                simp)
          rw [same] at longer
          exact lt_irrefl _ longer

end Agreement

/-- For a block whose receipts carry a status of zero or one, and with equal roots and
blooms, the header that Go assembles from the stored message has the encoding of the Rust
header exactly if the block has one of the optional fields. -/
theorem geth_header_agrees_with_rust_iff (rust : HashLibraries) (geth : GethLibraries)
    (block : BlockTypes.Block)
    (statuses : ∀ receipt ∈ block.receipts,
      receipt.postStateOrStatus = .status 0 ∨ receipt.postStateOrStatus = .status 1) :
    ∃ converted,
      convertToGethBlock geth (some (ProtoBlock.Block.fromTypes block)) = .ok converted ∧
      (converted.header.txHash = (Block.toHeader rust block).transactionsRoot →
        converted.header.receiptHash = (Block.toHeader rust block).receiptsRoot →
        converted.header.bloom = (Block.toHeader rust block).logsBloom →
        (converted.header.encodeRLP = (Block.toHeader rust block).encode ↔
          HasOptionalField block)) := by
  obtain ⟨transactions, transactionsEq⟩ := to_geth_transactions_total block.transactions
  obtain ⟨receipts, receiptsEq, gas⟩ := to_geth_receipts_total geth block.receipts
    fun receipt member => (statuses receipt member).elim (fun failed => ⟨0, failed⟩)
      fun succeeded => ⟨1, succeeded⟩
  refine ⟨_, convert_to_geth_block_eq geth transactionsEq receiptsEq, ?_⟩
  intro sameTransactions sameReceipts sameBloom
  exact geth_header_agrees_iff gas sameTransactions sameReceipts sameBloom

theorem geth_header_agrees_with_rust_london :
    let root : Hash := BlockTypes.U256.toBeBytes
      0x56e81f171bcc55a6ff8345e692c0f86e5b48e01b996cadc001622fb5e363b421
    let rust : HashLibraries := ⟨fun _ => root, fun bloom _ => bloom⟩
    let geth : GethLibraries := ⟨fun _ => root, fun _ => root, fun _ => default, fun _ => default⟩
    let block : BlockTypes.Block := { number := 12965000, baseFeePerGas := some 1000000000 }
    ∃ converted,
      convertToGethBlock geth (some (ProtoBlock.Block.fromTypes block)) = .ok converted ∧
      converted.header.encodeRLP = (Block.toHeader rust block).encode := by
  intro root rust geth block
  obtain ⟨converted, convertedEq, agrees⟩ :=
    geth_header_agrees_with_rust_iff rust geth block (by simp [block])
  have sealedEq : converted.header =
      gethHeader geth (ProtoBlock.Block.fromTypes block) [] [] := by
    rw [convert_to_geth_block_eq geth rfl rfl] at convertedEq
    cases convertedEq
    rfl
  refine ⟨converted, convertedEq, (agrees ?_ ?_ ?_).mpr (.inl rfl)⟩
  · rw [sealedEq]
    rfl
  · rw [sealedEq]
    rfl
  · rw [sealedEq]
    rfl

/-- An empty block before the London fork gets a base fee of zero on the Go side only. -/
theorem pre_london_header_differs :
    let root : Hash := BlockTypes.U256.toBeBytes
      0x56e81f171bcc55a6ff8345e692c0f86e5b48e01b996cadc001622fb5e363b421
    let rust : HashLibraries := ⟨fun _ => root, fun bloom _ => bloom⟩
    let geth : GethLibraries := ⟨fun _ => root, fun _ => root, fun _ => default, fun _ => default⟩
    let block : BlockTypes.Block := { number := 1 }
    ∃ converted,
      convertToGethBlock geth (some (ProtoBlock.Block.fromTypes block)) = .ok converted ∧
      converted.header.txHash = (Block.toHeader rust block).transactionsRoot ∧
      converted.header.receiptHash = (Block.toHeader rust block).receiptsRoot ∧
      converted.header.bloom = (Block.toHeader rust block).logsBloom ∧
      converted.header.encodeRLP ≠ (Block.toHeader rust block).encode := by
  intro root rust geth block
  refine ⟨_, convert_to_geth_block_eq geth rfl rfl, rfl, rfl, rfl, ?_⟩
  intro same
  have optional := (geth_header_agrees_iff rfl rfl rfl rfl).mp same
  simp [HasOptionalField, block] at optional

end Bertha.GethBlocks
