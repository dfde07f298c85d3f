import Bertha.BigEndian

/-!
# Blocks, transactions and receipts

The data types of `bertha-types`: fixed-width byte arrays, 256-bit integers and the
nested records of a block in normal form. A fixed-width array carries its length, so
a hash, an address or a nonce of the wrong size cannot be built.
-/

namespace Bertha.BlockTypes

open Bertha.BigEndian

set_option autoImplicit false

/-- The variants of `blockservice::Error` that storage and conversion return. -/
inductive Error where
  | storageLayer (message : String)
  | protobuf (description : String)
  | typeConversion
deriving DecidableEq, Repr

/-- `TransactionError` of `bertha-types/src/transaction/error.rs`. -/
inductive TransactionError where
  | conversionError (message : String)
  | invalidTransactionType (value : UInt8)
deriving DecidableEq, Repr

/-- The array `[u8; width]`. -/
abbrev FixedBytes (width : Nat) := { bytes : Bytes // bytes.length = width }

def FixedBytes.zero (width : Nat) : FixedBytes width :=
  ⟨List.replicate width 0, List.length_replicate⟩

instance (width : Nat) : Inhabited (FixedBytes width) := ⟨FixedBytes.zero width⟩

def bytesToHex (bytes : Bytes) : String :=
  "0x" ++ String.ofList (bytes.flatMap fun byte =>
    [Nat.digitChar (byte.toNat / 16), Nat.digitChar (byte.toNat % 16)])

abbrev Hash := FixedBytes 32

abbrev Address := FixedBytes 20

abbrev Bloom := FixedBytes 256

/-- `U256` of `bertha-types/src/u256.rs`. -/
abbrev U256 := BitVec 256

def U256.toBeBytes (value : U256) : FixedBytes 32 :=
  ⟨encodeBE 32 value.toNat, encode_be_length 32 value.toNat⟩

def U256.fromBeBytes (bytes : FixedBytes 32) : U256 :=
  BitVec.ofNat 256 (decodeBE bytes.val)

def U256.toLeBytes (value : U256) : FixedBytes 32 :=
  ⟨(U256.toBeBytes value).val.reverse, by simp [(U256.toBeBytes value).property]⟩

def U256.fromLeBytes (bytes : FixedBytes 32) : U256 :=
  U256.fromBeBytes ⟨bytes.val.reverse, by simp [bytes.property]⟩

theorem U256.from_be_to_be_bytes (value : U256) :
    U256.fromBeBytes (U256.toBeBytes value) = value := by
  unfold U256.fromBeBytes U256.toBeBytes
  rw [decode_encode_be_of_lt (by simpa using value.isLt)]
  simp

theorem U256.from_le_to_le_bytes (value : U256) :
    U256.fromLeBytes (U256.toLeBytes value) = value := by
  have reversed : (U256.toLeBytes value).val.reverse = (U256.toBeBytes value).val :=
    List.reverse_reverse _
  simp only [U256.fromLeBytes, reversed]
  exact U256.from_be_to_be_bytes value

theorem U256.to_be_from_be_bytes (bytes : FixedBytes 32) :
    U256.toBeBytes (U256.fromBeBytes bytes) = bytes := by
  apply Subtype.ext
  unfold U256.fromBeBytes U256.toBeBytes
  have bound := decode_be_lt bytes.val
  rw [bytes.property] at bound
  have value : (BitVec.ofNat 256 (decodeBE bytes.val)).toNat = decodeBE bytes.val := by
    rw [BitVec.toNat_ofNat, Nat.mod_eq_of_lt (by simpa using bound)]
  have decoded := encode_decode_be bytes.val
  rw [bytes.property] at decoded
  simpa only [value] using decoded

inductive TransactionType where
  | legacy
  | accessList
  | dynamicFee
  | blob
  | setCode
deriving DecidableEq, Repr

/-- The discriminant `transaction_type as u8`. -/
def TransactionType.toU8 : TransactionType → UInt8
  | legacy => 0
  | accessList => 1
  | dynamicFee => 2
  | blob => 3
  | setCode => 4

def TransactionType.tryFrom (value : UInt8) : Except TransactionError TransactionType :=
  match value with
  | 0 => .ok .legacy
  | 1 => .ok .accessList
  | 2 => .ok .dynamicFee
  | 3 => .ok .blob
  | 4 => .ok .setCode
  | _ => .error (.invalidTransactionType value)

theorem TransactionType.try_from_to_u8 (transactionType : TransactionType) :
    TransactionType.tryFrom transactionType.toU8 = .ok transactionType := by
  cases transactionType <;> rfl

theorem TransactionType.to_u8_try_from {value : UInt8} {transactionType : TransactionType}
    (accepted : TransactionType.tryFrom value = .ok transactionType) :
    transactionType.toU8 = value := by
  unfold TransactionType.tryFrom at accepted
  split at accepted <;> cases accepted <;> rfl

structure AccessListEntry where
  address : Address
  storageKeys : List Hash
deriving DecidableEq

structure SetCodeAuthorization where
  chainId : U256
  address : Address
  nonce : UInt64
  yParity : UInt8
  r : U256
  s : U256
deriving DecidableEq

/-- A transaction of any type; fields its type does not use are carried along. The
source calls the recipient `to`. -/
structure Transaction where
  transactionType : TransactionType := .legacy
  chainId : U256 := 0
  nonce : UInt64 := 0
  gasPrice : U256 := 0
  gasLimit : UInt64 := 0
  toAddress : Option Address := some (FixedBytes.zero 20)
  value : U256 := 0
  data : Bytes := []
  accessList : List AccessListEntry := []
  maxFeePerGas : U256 := 0
  maxPriorityFeePerGas : U256 := 0
  blobVersionedHashes : List Hash := []
  maxFeePerBlobGas : U256 := 0
  authorizationList : List SetCodeAuthorization := []
  yParity : U256 := 0
  r : U256 := 0
  s : U256 := 0
deriving DecidableEq

structure Log where
  address : Address
  topics : List Hash
  data : Bytes
deriving DecidableEq

inductive PostStateOrStatus where
  | postState (root : Hash)
  | status (code : UInt64)
deriving DecidableEq

structure TransactionReceipt where
  transactionType : TransactionType := .legacy
  postStateOrStatus : PostStateOrStatus := .status 0
  cumulativeGasUsed : UInt64 := 0
  logs : List Log := []
deriving DecidableEq

structure Withdrawal where
  index : UInt64
  validatorIndex : UInt64
  address : Address
  amount : UInt64
deriving DecidableEq

structure OmmerHeader where
  beneficiary : Address
  number : UInt64
deriving DecidableEq

/-- A block in normal form, without redundant or derived fields. -/
structure Block where
  parentHash : Hash := default
  ommersHash : Hash := default
  beneficiary : Address := default
  stateRoot : Hash := default
  difficulty : UInt64 := 0
  number : UInt64 := 0
  gasLimit : UInt64 := 0
  timestamp : UInt64 := 0
  extraData : Bytes := []
  prevRandao : Hash := default
  nonce : FixedBytes 8 := default
  transactions : List Transaction := []
  receipts : List TransactionReceipt := []
  baseFeePerGas : Option U256 := none
  withdrawalsRoot : Option Hash := none
  withdrawals : List Withdrawal := []
  blobGasUsed : Option UInt64 := none
  excessBlobGas : Option UInt64 := none
  parentBeaconBlockRoot : Option Hash := none
  requestsHash : Option Hash := none
  ommerHeaders : List OmmerHeader := []
  verkleStateRoot : Option Hash := none
  binaryStateRoot : Option Hash := none
deriving DecidableEq

end Bertha.BlockTypes
