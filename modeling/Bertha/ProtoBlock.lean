import Bertha.BlockTypes
import Bertha.Conversion

/-!
# The stored block message

The protobuf messages of `proto/block.proto` and the conversions of
`blockservice/src/db/proto.rs` in both directions. Writing a block out is total;
reading one back checks the width of every byte string and the range of every
narrowed integer. Each pair of conversions is exact, and the exactness of the block
message is assembled from that of its parts.
-/

namespace Bertha.ProtoBlock

open Bertha.BigEndian Bertha.Conversion
open Bertha.BlockTypes (Error FixedBytes Hash Address U256 TransactionType)

set_option autoImplicit false

structure AccessListEntry where
  address : Bytes
  storageKeys : List Bytes
deriving DecidableEq

structure SetCodeAuthorization where
  chainId : Bytes
  address : Bytes
  nonce : UInt64
  yParity : UInt64
  r : Bytes
  s : Bytes
deriving DecidableEq

structure Transaction where
  transactionType : UInt64
  chainId : Bytes
  nonce : UInt64
  gasPrice : Bytes
  gasLimit : UInt64
  toAddress : Option Bytes
  value : Bytes
  data : Bytes
  accessList : List AccessListEntry
  maxFeePerGas : Bytes
  maxPriorityFeePerGas : Bytes
  blobVersionedHashes : List Bytes
  maxFeePerBlobGas : Bytes
  authorizationList : List SetCodeAuthorization
  yParity : Bytes
  r : Bytes
  s : Bytes
deriving DecidableEq

structure Log where
  address : Bytes
  data : Bytes
  topics : List Bytes
deriving DecidableEq

inductive PostStateOrStatus where
  | postState (root : Bytes)
  | status (code : UInt64)
deriving DecidableEq

structure TransactionReceipt where
  transactionType : UInt64
  postStateOrStatus : Option PostStateOrStatus
  cumulativeGasUsed : UInt64
  logs : List Log
deriving DecidableEq

structure Withdrawal where
  index : UInt64
  validatorIndex : UInt64
  address : Bytes
  amount : UInt64
deriving DecidableEq

structure OmmerHeader where
  beneficiary : Bytes
  number : UInt64
deriving DecidableEq

structure Block where
  parentHash : Bytes
  ommersHash : Bytes
  beneficiary : Bytes
  stateRoot : Bytes
  difficulty : UInt64
  number : UInt64
  gasLimit : UInt64
  timestamp : UInt64
  extraData : Bytes
  prevRandao : Bytes
  nonce : Bytes
  transactions : List Transaction
  receipts : List TransactionReceipt
  baseFeePerGas : Option Bytes
  withdrawalsRoot : Option Bytes
  blobGasUsed : Option UInt64
  excessBlobGas : Option UInt64
  parentBeaconBlockRoot : Option Bytes
  requestsHash : Option Bytes
  verkleStateRoot : Option Bytes
  binaryStateRoot : Option Bytes
  withdrawals : List Withdrawal
  ommerHeaders : List OmmerHeader
deriving DecidableEq

/-- The array-to-vector conversion `Into<Vec<u8>>`. -/
def toVec {width : Nat} (value : FixedBytes width) : Bytes := value.val

def u256ToVec (value : U256) : Bytes := toVec value.toBeBytes

def AccessListEntry.fromTypes (value : BlockTypes.AccessListEntry) : AccessListEntry where
  address := toVec value.address
  storageKeys := value.storageKeys.map toVec

def SetCodeAuthorization.fromTypes (value : BlockTypes.SetCodeAuthorization) :
    SetCodeAuthorization where
  chainId := u256ToVec value.chainId
  address := toVec value.address
  nonce := value.nonce
  yParity := value.yParity.toUInt64
  r := u256ToVec value.r
  s := u256ToVec value.s

def Transaction.fromTypes (value : BlockTypes.Transaction) : Transaction where
  transactionType := value.transactionType.toU8.toUInt64
  chainId := u256ToVec value.chainId
  nonce := value.nonce
  gasPrice := u256ToVec value.gasPrice
  gasLimit := value.gasLimit
  toAddress := value.toAddress.map toVec
  value := u256ToVec value.value
  data := value.data
  accessList := value.accessList.map AccessListEntry.fromTypes
  maxFeePerGas := u256ToVec value.maxFeePerGas
  maxPriorityFeePerGas := u256ToVec value.maxPriorityFeePerGas
  blobVersionedHashes := value.blobVersionedHashes.map toVec
  maxFeePerBlobGas := u256ToVec value.maxFeePerBlobGas
  authorizationList := value.authorizationList.map SetCodeAuthorization.fromTypes
  yParity := u256ToVec value.yParity
  r := u256ToVec value.r
  s := u256ToVec value.s

def Log.fromTypes (value : BlockTypes.Log) : Log where
  address := toVec value.address
  topics := value.topics.map toVec
  data := value.data

def PostStateOrStatus.fromTypes : BlockTypes.PostStateOrStatus → PostStateOrStatus
  | .postState root => .postState (toVec root)
  | .status code => .status code

def TransactionReceipt.fromTypes (value : BlockTypes.TransactionReceipt) :
    TransactionReceipt where
  transactionType := value.transactionType.toU8.toUInt64
  cumulativeGasUsed := value.cumulativeGasUsed
  logs := value.logs.map Log.fromTypes
  postStateOrStatus := some (PostStateOrStatus.fromTypes value.postStateOrStatus)

def Withdrawal.fromTypes (value : BlockTypes.Withdrawal) : Withdrawal where
  index := value.index
  validatorIndex := value.validatorIndex
  address := toVec value.address
  amount := value.amount

def OmmerHeader.fromTypes (value : BlockTypes.OmmerHeader) : OmmerHeader where
  beneficiary := toVec value.beneficiary
  number := value.number

/-- `From<bertha_types::Block> for Block`. -/
def Block.fromTypes (value : BlockTypes.Block) : Block where
  parentHash := toVec value.parentHash
  ommersHash := toVec value.ommersHash
  beneficiary := toVec value.beneficiary
  stateRoot := toVec value.stateRoot
  difficulty := value.difficulty
  number := value.number
  gasLimit := value.gasLimit
  timestamp := value.timestamp
  extraData := value.extraData
  prevRandao := toVec value.prevRandao
  nonce := toVec value.nonce
  transactions := value.transactions.map Transaction.fromTypes
  receipts := value.receipts.map TransactionReceipt.fromTypes
  baseFeePerGas := value.baseFeePerGas.map u256ToVec
  withdrawalsRoot := value.withdrawalsRoot.map toVec
  withdrawals := value.withdrawals.map Withdrawal.fromTypes
  blobGasUsed := value.blobGasUsed
  excessBlobGas := value.excessBlobGas
  parentBeaconBlockRoot := value.parentBeaconBlockRoot.map toVec
  requestsHash := value.requestsHash.map toVec
  verkleStateRoot := value.verkleStateRoot.map toVec
  binaryStateRoot := value.binaryStateRoot.map toVec
  ommerHeaders := value.ommerHeaders.map OmmerHeader.fromTypes

def convertToFixedSize (width : Nat) (data : Bytes) : Except Error (FixedBytes width) :=
  if sized : data.length = width then .ok ⟨data, sized⟩ else .error .typeConversion

def convertToU256 (data : Bytes) : Except Error U256 :=
  U256.fromBeBytes <$> convertToFixedSize 32 data

/-- `u8::try_from` of a 64-bit value. -/
def u8TryFrom (value : UInt64) : Except Error UInt8 :=
  if value < 256 then .ok value.toUInt8 else .error .typeConversion

/-- The chain `u8::try_from(..).ok().and_then(..).ok_or(Error::TypeConversion)`. -/
def convertTransactionType (value : UInt64) : Except Error TransactionType := do
  let byte ← u8TryFrom value
  match TransactionType.tryFrom byte with
  | .ok transactionType => .ok transactionType
  | .error _ => .error .typeConversion

def AccessListEntry.tryIntoTypes (value : AccessListEntry) :
    Except Error BlockTypes.AccessListEntry := do
  let storageKeys ← value.storageKeys.mapM (convertToFixedSize 32)
  return { address := ← convertToFixedSize 20 value.address, storageKeys }

def SetCodeAuthorization.tryIntoTypes (value : SetCodeAuthorization) :
    Except Error BlockTypes.SetCodeAuthorization := do
  return {
    chainId := ← convertToU256 value.chainId
    address := ← convertToFixedSize 20 value.address
    nonce := value.nonce
    yParity := ← u8TryFrom value.yParity
    r := ← convertToU256 value.r
    s := ← convertToU256 value.s
  }

def Transaction.tryIntoTypes (value : Transaction) :
    Except Error BlockTypes.Transaction := do
  let accessList ← value.accessList.mapM AccessListEntry.tryIntoTypes
  let blobVersionedHashes ← value.blobVersionedHashes.mapM (convertToFixedSize 32)
  let authorizationList ← value.authorizationList.mapM SetCodeAuthorization.tryIntoTypes
  return {
    transactionType := ← convertTransactionType value.transactionType
    chainId := ← convertToU256 value.chainId
    nonce := value.nonce
    gasPrice := ← convertToU256 value.gasPrice
    gasLimit := value.gasLimit
    toAddress := ← value.toAddress.mapM (convertToFixedSize 20)
    value := ← convertToU256 value.value
    data := value.data
    accessList
    maxFeePerGas := ← convertToU256 value.maxFeePerGas
    maxPriorityFeePerGas := ← convertToU256 value.maxPriorityFeePerGas
    blobVersionedHashes
    maxFeePerBlobGas := ← convertToU256 value.maxFeePerBlobGas
    authorizationList
    yParity := ← convertToU256 value.yParity
    r := ← convertToU256 value.r
    s := ← convertToU256 value.s
  }

def Log.tryIntoTypes (value : Log) : Except Error BlockTypes.Log := do
  return {
    address := ← convertToFixedSize 20 value.address
    topics := ← value.topics.mapM (convertToFixedSize 32)
    data := value.data
  }

/-- The match on the `oneof` of a receipt; an absent or missized value is refused. -/
def convertPostStateOrStatus :
    Option PostStateOrStatus → Except Error BlockTypes.PostStateOrStatus
  | some (.status code) => .ok (.status code)
  | some (.postState root) => .postState <$> convertToFixedSize 32 root
  | none => .error .typeConversion

def TransactionReceipt.tryIntoTypes (value : TransactionReceipt) :
    Except Error BlockTypes.TransactionReceipt := do
  let logs ← value.logs.mapM Log.tryIntoTypes
  return {
    transactionType := ← convertTransactionType value.transactionType
    postStateOrStatus := ← convertPostStateOrStatus value.postStateOrStatus
    cumulativeGasUsed := value.cumulativeGasUsed
    logs
  }

def Withdrawal.tryIntoTypes (value : Withdrawal) : Except Error BlockTypes.Withdrawal := do
  return {
    index := value.index
    validatorIndex := value.validatorIndex
    address := ← convertToFixedSize 20 value.address
    amount := value.amount
  }

def OmmerHeader.tryIntoTypes (value : OmmerHeader) : Except Error BlockTypes.OmmerHeader := do
  return { beneficiary := ← convertToFixedSize 20 value.beneficiary, number := value.number }

/-- `TryFrom<Block> for bertha_types::Block`. -/
def Block.tryIntoTypes (value : Block) : Except Error BlockTypes.Block := do
  let transactions ← value.transactions.mapM Transaction.tryIntoTypes
  let receipts ← value.receipts.mapM TransactionReceipt.tryIntoTypes
  let withdrawals ← value.withdrawals.mapM Withdrawal.tryIntoTypes
  let ommerHeaders ← value.ommerHeaders.mapM OmmerHeader.tryIntoTypes
  return {
    parentHash := ← convertToFixedSize 32 value.parentHash
    ommersHash := ← convertToFixedSize 32 value.ommersHash
    beneficiary := ← convertToFixedSize 20 value.beneficiary
    stateRoot := ← convertToFixedSize 32 value.stateRoot
    difficulty := value.difficulty
    number := value.number
    gasLimit := value.gasLimit
    timestamp := value.timestamp
    extraData := value.extraData
    prevRandao := ← convertToFixedSize 32 value.prevRandao
    nonce := ← convertToFixedSize 8 value.nonce
    transactions
    receipts
    baseFeePerGas := ← value.baseFeePerGas.mapM convertToU256
    withdrawalsRoot := ← value.withdrawalsRoot.mapM (convertToFixedSize 32)
    withdrawals
    blobGasUsed := value.blobGasUsed
    excessBlobGas := value.excessBlobGas
    parentBeaconBlockRoot := ← value.parentBeaconBlockRoot.mapM (convertToFixedSize 32)
    requestsHash := ← value.requestsHash.mapM (convertToFixedSize 32)
    verkleStateRoot := ← value.verkleStateRoot.mapM (convertToFixedSize 32)
    binaryStateRoot := ← value.binaryStateRoot.mapM (convertToFixedSize 32)
    ommerHeaders
  }

theorem fixed_size_inverts (width : Nat) : Inverts toVec (convertToFixedSize width) := by
  constructor
  · intro value
    simp [convertToFixedSize, toVec, value.property]
  · intro data value decoded
    unfold convertToFixedSize at decoded
    split at decoded
    · cases decoded
      rfl
    · cases decoded

theorem u256_inverts : Inverts u256ToVec convertToU256 := by
  constructor
  · intro value
    unfold convertToU256 u256ToVec
    rw [(fixed_size_inverts 32).decode_encode]
    exact congrArg Except.ok (BlockTypes.U256.from_be_to_be_bytes value)
  · intro data value decoded
    unfold convertToU256 at decoded
    rw [map_eq_pure_bind] at decoded
    obtain ⟨bytes, sized, same⟩ := bind_eq_ok.mp decoded
    cases same
    unfold u256ToVec
    rw [BlockTypes.U256.to_be_from_be_bytes, (fixed_size_inverts 32).encode_decode sized]

theorem u8_inverts : Inverts UInt8.toUInt64 u8TryFrom := by
  constructor
  · intro value
    have bounded : value.toUInt64 < 256 := by
      rw [UInt64.lt_iff_toNat_lt, UInt8.toNat_toUInt64]
      exact value.toNat_lt
    simp [u8TryFrom, bounded]
  · intro wide value decoded
    unfold u8TryFrom at decoded
    split at decoded
    · rename_i bounded
      cases decoded
      rw [UInt64.lt_iff_toNat_lt] at bounded
      apply UInt64.toNat_inj.mp
      rw [UInt8.toNat_toUInt64, UInt64.toNat_toUInt8]
      exact Nat.mod_eq_of_lt bounded
    · cases decoded

theorem transaction_type_inverts :
    Inverts (fun transactionType : TransactionType => transactionType.toU8.toUInt64)
      convertTransactionType := by
  constructor
  · intro transactionType
    unfold convertTransactionType
    rw [u8_inverts.decode_encode]
    change (match TransactionType.tryFrom transactionType.toU8 with
      | .ok transactionType => Except.ok transactionType
      | .error _ => .error Error.typeConversion) = _
    rw [BlockTypes.TransactionType.try_from_to_u8]
  · intro wide transactionType decoded
    obtain ⟨byte, narrowed, matched⟩ := bind_eq_ok.mp decoded
    split at matched
    · rename_i found accepted
      cases matched
      rw [BlockTypes.TransactionType.to_u8_try_from accepted, u8_inverts.encode_decode narrowed]
    · cases matched

theorem access_list_entry_inverts :
    Inverts AccessListEntry.fromTypes AccessListEntry.tryIntoTypes := by
  constructor
  · intro entry
    simp only [AccessListEntry.tryIntoTypes, AccessListEntry.fromTypes,
      (fixed_size_inverts _).list.decode_encode, (fixed_size_inverts _).decode_encode]
    rfl
  · intro message entry decoded
    simp only [AccessListEntry.tryIntoTypes, bind_eq_ok] at decoded
    obtain ⟨keys, keysRead, address, addressRead, same⟩ := decoded
    cases same
    simp only [AccessListEntry.fromTypes, (fixed_size_inverts _).list.encode_decode keysRead,
      (fixed_size_inverts _).encode_decode addressRead]

theorem set_code_authorization_inverts :
    Inverts SetCodeAuthorization.fromTypes SetCodeAuthorization.tryIntoTypes := by
  constructor
  · intro authorization
    simp only [SetCodeAuthorization.tryIntoTypes, SetCodeAuthorization.fromTypes,
      (fixed_size_inverts _).decode_encode, u256_inverts.decode_encode, u8_inverts.decode_encode]
    rfl
  · intro message authorization decoded
    simp only [SetCodeAuthorization.tryIntoTypes, bind_eq_ok] at decoded
    obtain ⟨chainId, chainIdRead, address, addressRead, yParity, yParityRead, r, rRead, s, sRead,
      same⟩ := decoded
    cases same
    simp only [SetCodeAuthorization.fromTypes, u256_inverts.encode_decode chainIdRead,
      (fixed_size_inverts _).encode_decode addressRead, u8_inverts.encode_decode yParityRead,
      u256_inverts.encode_decode rRead, u256_inverts.encode_decode sRead]

theorem transaction_inverts : Inverts Transaction.fromTypes Transaction.tryIntoTypes := by
  constructor
  · intro transaction
    simp only [Transaction.tryIntoTypes, Transaction.fromTypes,
      access_list_entry_inverts.list.decode_encode, (fixed_size_inverts _).list.decode_encode,
      set_code_authorization_inverts.list.decode_encode, transaction_type_inverts.decode_encode,
      u256_inverts.decode_encode, (fixed_size_inverts _).option.decode_encode]
    rfl
  · intro message transaction decoded
    simp only [Transaction.tryIntoTypes, bind_eq_ok] at decoded
    obtain ⟨accessList, accessListRead, hashes, hashesRead, authorizations, authorizationsRead,
      kind, kindRead, chainId, chainIdRead, gasPrice, gasPriceRead, toAddress, toAddressRead,
      amount, amountRead, feeCap, feeCapRead, tipCap, tipCapRead, blobFeeCap, blobFeeCapRead,
      yParity, yParityRead, r, rRead, s, sRead, same⟩ := decoded
    cases same
    simp only [Transaction.fromTypes, access_list_entry_inverts.list.encode_decode accessListRead,
      (fixed_size_inverts _).list.encode_decode hashesRead,
      set_code_authorization_inverts.list.encode_decode authorizationsRead,
      transaction_type_inverts.encode_decode kindRead, u256_inverts.encode_decode chainIdRead,
      u256_inverts.encode_decode gasPriceRead,
      (fixed_size_inverts _).option.encode_decode toAddressRead,
      u256_inverts.encode_decode amountRead, u256_inverts.encode_decode feeCapRead,
      u256_inverts.encode_decode tipCapRead, u256_inverts.encode_decode blobFeeCapRead,
      u256_inverts.encode_decode yParityRead, u256_inverts.encode_decode rRead,
      u256_inverts.encode_decode sRead]

theorem log_inverts : Inverts Log.fromTypes Log.tryIntoTypes := by
  constructor
  · intro log
    simp only [Log.tryIntoTypes, Log.fromTypes, (fixed_size_inverts _).decode_encode,
      (fixed_size_inverts _).list.decode_encode]
    rfl
  · intro message log decoded
    simp only [Log.tryIntoTypes, bind_eq_ok] at decoded
    obtain ⟨address, addressRead, topics, topicsRead, same⟩ := decoded
    cases same
    simp only [Log.fromTypes, (fixed_size_inverts _).encode_decode addressRead,
      (fixed_size_inverts _).list.encode_decode topicsRead]

theorem post_state_or_status_inverts :
    Inverts (fun value => some (PostStateOrStatus.fromTypes value)) convertPostStateOrStatus := by
  constructor
  · intro value
    cases value with
    | postState root =>
        simp only [PostStateOrStatus.fromTypes, convertPostStateOrStatus,
          (fixed_size_inverts _).decode_encode]
        rfl
    | status code => rfl
  · intro message value decoded
    unfold convertPostStateOrStatus at decoded
    split at decoded
    · cases decoded
      rfl
    · rw [map_eq_pure_bind] at decoded
      obtain ⟨root, rootRead, same⟩ := bind_eq_ok.mp decoded
      cases same
      simp only [PostStateOrStatus.fromTypes, (fixed_size_inverts _).encode_decode rootRead]
    · cases decoded

theorem transaction_receipt_inverts :
    Inverts TransactionReceipt.fromTypes TransactionReceipt.tryIntoTypes := by
  constructor
  · intro receipt
    simp only [TransactionReceipt.tryIntoTypes, TransactionReceipt.fromTypes,
      log_inverts.list.decode_encode, transaction_type_inverts.decode_encode,
      post_state_or_status_inverts.decode_encode]
    rfl
  · intro message receipt decoded
    simp only [TransactionReceipt.tryIntoTypes, bind_eq_ok] at decoded
    obtain ⟨logs, logsRead, kind, kindRead, outcome, outcomeRead, same⟩ := decoded
    cases same
    simp only [TransactionReceipt.fromTypes, log_inverts.list.encode_decode logsRead,
      transaction_type_inverts.encode_decode kindRead,
      post_state_or_status_inverts.encode_decode outcomeRead]

theorem withdrawal_inverts : Inverts Withdrawal.fromTypes Withdrawal.tryIntoTypes := by
  constructor
  · intro withdrawal
    simp only [Withdrawal.tryIntoTypes, Withdrawal.fromTypes,
      (fixed_size_inverts _).decode_encode]
    rfl
  · intro message withdrawal decoded
    simp only [Withdrawal.tryIntoTypes, bind_eq_ok] at decoded
    obtain ⟨address, addressRead, same⟩ := decoded
    cases same
    simp only [Withdrawal.fromTypes, (fixed_size_inverts _).encode_decode addressRead]

theorem ommer_header_inverts : Inverts OmmerHeader.fromTypes OmmerHeader.tryIntoTypes := by
  constructor
  · intro ommer
    simp only [OmmerHeader.tryIntoTypes, OmmerHeader.fromTypes,
      (fixed_size_inverts _).decode_encode]
    rfl
  · intro message ommer decoded
    simp only [OmmerHeader.tryIntoTypes, bind_eq_ok] at decoded
    obtain ⟨beneficiary, beneficiaryRead, same⟩ := decoded
    cases same
    simp only [OmmerHeader.fromTypes, (fixed_size_inverts _).encode_decode beneficiaryRead]

theorem block_inverts : Inverts Block.fromTypes Block.tryIntoTypes := by
  constructor
  · intro block
    simp only [Block.tryIntoTypes, Block.fromTypes, transaction_inverts.list.decode_encode,
      transaction_receipt_inverts.list.decode_encode, withdrawal_inverts.list.decode_encode,
      ommer_header_inverts.list.decode_encode, (fixed_size_inverts _).decode_encode,
      u256_inverts.option.decode_encode, (fixed_size_inverts _).option.decode_encode]
    rfl
  · intro message block decoded
    simp only [Block.tryIntoTypes, bind_eq_ok] at decoded
    obtain ⟨transactions, transactionsRead, receipts, receiptsRead, withdrawals, withdrawalsRead,
      ommers, ommersRead, parentHash, parentHashRead, ommersHash, ommersHashRead, beneficiary,
      beneficiaryRead, stateRoot, stateRootRead, prevRandao, prevRandaoRead, nonce, nonceRead,
      baseFee, baseFeeRead, withdrawalsRoot, withdrawalsRootRead, beaconRoot, beaconRootRead,
      requestsHash, requestsHashRead, verkleRoot, verkleRootRead, binaryRoot, binaryRootRead,
      same⟩ := decoded
    cases same
    simp only [Block.fromTypes, transaction_inverts.list.encode_decode transactionsRead,
      transaction_receipt_inverts.list.encode_decode receiptsRead,
      withdrawal_inverts.list.encode_decode withdrawalsRead,
      ommer_header_inverts.list.encode_decode ommersRead,
      (fixed_size_inverts _).encode_decode parentHashRead,
      (fixed_size_inverts _).encode_decode ommersHashRead,
      (fixed_size_inverts _).encode_decode beneficiaryRead,
      (fixed_size_inverts _).encode_decode stateRootRead,
      (fixed_size_inverts _).encode_decode prevRandaoRead,
      (fixed_size_inverts _).encode_decode nonceRead,
      u256_inverts.option.encode_decode baseFeeRead,
      (fixed_size_inverts _).option.encode_decode withdrawalsRootRead,
      (fixed_size_inverts _).option.encode_decode beaconRootRead,
      (fixed_size_inverts _).option.encode_decode requestsHashRead,
      (fixed_size_inverts _).option.encode_decode verkleRootRead,
      (fixed_size_inverts _).option.encode_decode binaryRootRead]

/-- Storing a block and reading it back is the identity, and a message that reads as
a block is the message that block is stored as. -/
theorem block_storage_round_trip (block : BlockTypes.Block) (message : Block) :
    (Block.fromTypes block).tryIntoTypes = .ok block ∧
      (message.tryIntoTypes = .ok block → Block.fromTypes block = message) :=
  ⟨block_inverts.decode_encode block, block_inverts.encode_decode⟩

theorem block_storage_round_trip_receipt :
    let block : BlockTypes.Block :=
      { number := 7, baseFeePerGas := some 9, extraData := [1, 2],
        receipts := [{ transactionType := .blob, cumulativeGasUsed := 21000 }],
        ommerHeaders := [⟨default, 6⟩] }
    let message : Block :=
      { parentHash := List.replicate 32 0, ommersHash := List.replicate 32 0,
        beneficiary := List.replicate 20 0, stateRoot := List.replicate 32 0, difficulty := 0,
        number := 7, gasLimit := 0, timestamp := 0, extraData := [1, 2],
        prevRandao := List.replicate 32 0, nonce := List.replicate 8 0, transactions := [],
        receipts := [⟨3, some (.status 0), 21000, []⟩],
        baseFeePerGas := some (List.replicate 31 0 ++ [9]), withdrawalsRoot := none,
        blobGasUsed := none, excessBlobGas := none, parentBeaconBlockRoot := none,
        requestsHash := none, verkleStateRoot := none, binaryStateRoot := none,
        withdrawals := [], ommerHeaders := [⟨List.replicate 20 0, 6⟩] }
    Block.fromTypes block = message :=
  (block_storage_round_trip _ _).2 (by rfl)

end Bertha.ProtoBlock
