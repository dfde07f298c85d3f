import Bertha.Headers
import Bertha.ProtoBlock

/-!
# Transactions on the Go side

`toGethTransaction` and its list helpers of `go/convert/convert.go`, with the geth
transaction types they fill in. Geth encodes the fields of each type in the order of
its EIP, integers without leading zeros and a missing recipient as the empty string.
Starting from the same stored message, the encoding is the one the Rust service
computes, and so is the transactions root.
-/

namespace Bertha.GethConvert

open Bertha.BigEndian Bertha.Conversion Bertha.Headers Bertha.Rlp
open Bertha.BlockTypes (FixedBytes Hash Address U256 TransactionType)
open Bertha.RlpFields (encodeU64 encodeU8 encodeU256 encodeFixed encodeNil encodeString
  encode_u256_eq)
open Bertha.ProtoBlock (toVec u256ToVec)

set_option autoImplicit false

/-- `common.BytesToAddress` and `common.BytesToHash`: crop or pad on the left. -/
def bytesToFixed (width : Nat) (data : Bytes) : FixedBytes width :=
  ⟨List.replicate (width - data.length) 0 ++ data.drop (data.length - width), by simp; omega⟩

/-- A zero array after `copy(array[:], data)`: crop or pad on the right. -/
def copyToFixed (width : Nat) (data : Bytes) : FixedBytes width :=
  ⟨data.take width ++ List.replicate (width - data.length) 0, by simp; omega⟩

def bigSetBytes (data : Bytes) : Nat := decodeBE data

def uint256SetBytes (data : Bytes) : U256 := BitVec.ofNat 256 (decodeBE data)

structure AccessTuple where
  address : Address
  storageKeys : List Hash
deriving DecidableEq

structure SetCodeAuthorization where
  chainID : U256
  address : Address
  nonce : UInt64
  v : UInt8
  r : U256
  s : U256
deriving DecidableEq

structure LegacyTx where
  nonce : UInt64
  gasPrice : Nat
  gas : UInt64
  toAddress : Option Address
  value : Nat
  data : Bytes
  v : Nat
  r : Nat
  s : Nat
deriving DecidableEq

structure AccessListTx where
  chainID : Nat
  nonce : UInt64
  gasPrice : Nat
  gas : UInt64
  toAddress : Option Address
  value : Nat
  data : Bytes
  accessList : List AccessTuple
  v : Nat
  r : Nat
  s : Nat
deriving DecidableEq

structure DynamicFeeTx where
  chainID : Nat
  nonce : UInt64
  gasTipCap : Nat
  gasFeeCap : Nat
  gas : UInt64
  toAddress : Option Address
  value : Nat
  data : Bytes
  accessList : List AccessTuple
  v : Nat
  r : Nat
  s : Nat
deriving DecidableEq

structure BlobTx where
  chainID : U256
  nonce : UInt64
  gasTipCap : U256
  gasFeeCap : U256
  gas : UInt64
  toAddress : Address
  value : U256
  data : Bytes
  accessList : List AccessTuple
  blobFeeCap : U256
  blobHashes : List Hash
  v : U256
  r : U256
  s : U256
deriving DecidableEq

structure SetCodeTx where
  chainID : U256
  nonce : UInt64
  gasTipCap : U256
  gasFeeCap : U256
  gas : UInt64
  toAddress : Address
  value : U256
  data : Bytes
  accessList : List AccessTuple
  authList : List SetCodeAuthorization
  v : U256
  r : U256
  s : U256
deriving DecidableEq

/-- A geth `types.Transaction` by its inner data. -/
inductive GethTransaction where
  | legacy (tx : LegacyTx)
  | accessList (tx : AccessListTx)
  | dynamicFee (tx : DynamicFeeTx)
  | blob (tx : BlobTx)
  | setCode (tx : SetCodeTx)
deriving DecidableEq

def toOptionalAddress (data : Bytes) : Option Address :=
  if data.length = 0 then none else some (copyToFixed 20 data)

def toGethAccessList (accessList : List ProtoBlock.AccessListEntry) : List AccessTuple :=
  accessList.map fun entry =>
    { address := bytesToFixed 20 entry.address
      storageKeys := entry.storageKeys.map (bytesToFixed 32) }

def toGethHashes (hashes : List Bytes) : List Hash := hashes.map (bytesToFixed 32)

def toGethAuthorization (auth : ProtoBlock.SetCodeAuthorization) : SetCodeAuthorization where
  chainID := uint256SetBytes auth.chainId
  address := bytesToFixed 20 auth.address
  nonce := auth.nonce
  v := auth.yParity.toUInt8
  r := uint256SetBytes auth.r
  s := uint256SetBytes auth.s

def toGethAuthorizationList (authorizations : List ProtoBlock.SetCodeAuthorization) :
    List SetCodeAuthorization :=
  authorizations.map toGethAuthorization

/-- The Go field of an optional `bytes` field, where absent and empty look alike. -/
def goBytes (field : Option Bytes) : Bytes := field.getD []

def toGethTransaction (message : Option ProtoBlock.Transaction) :
    Except String GethTransaction :=
  match message with
  | none => .error "cannot convert nil transaction"
  | some tx =>
    match tx.transactionType with
    | 0 => .ok (.legacy {
        nonce := tx.nonce
        gasPrice := bigSetBytes tx.gasPrice
        gas := tx.gasLimit
        toAddress := toOptionalAddress (goBytes tx.toAddress)
        value := bigSetBytes tx.value
        data := tx.data
        v := bigSetBytes tx.yParity
        r := bigSetBytes tx.r
        s := bigSetBytes tx.s })
    | 1 => .ok (.accessList {
        chainID := bigSetBytes tx.chainId
        nonce := tx.nonce
        gasPrice := bigSetBytes tx.gasPrice
        gas := tx.gasLimit
        toAddress := toOptionalAddress (goBytes tx.toAddress)
        value := bigSetBytes tx.value
        data := tx.data
        accessList := toGethAccessList tx.accessList
        v := bigSetBytes tx.yParity
        r := bigSetBytes tx.r
        s := bigSetBytes tx.s })
    | 2 => .ok (.dynamicFee {
        chainID := bigSetBytes tx.chainId
        nonce := tx.nonce
        gasFeeCap := bigSetBytes tx.maxFeePerGas
        gasTipCap := bigSetBytes tx.maxPriorityFeePerGas
        gas := tx.gasLimit
        toAddress := toOptionalAddress (goBytes tx.toAddress)
        value := bigSetBytes tx.value
        data := tx.data
        accessList := toGethAccessList tx.accessList
        v := bigSetBytes tx.yParity
        r := bigSetBytes tx.r
        s := bigSetBytes tx.s })
    | 3 => .ok (.blob {
        chainID := uint256SetBytes tx.chainId
        nonce := tx.nonce
        gasTipCap := uint256SetBytes tx.maxPriorityFeePerGas
        gasFeeCap := uint256SetBytes tx.maxFeePerGas
        gas := tx.gasLimit
        toAddress := bytesToFixed 20 (goBytes tx.toAddress)
        value := uint256SetBytes tx.value
        data := tx.data
        accessList := toGethAccessList tx.accessList
        blobFeeCap := uint256SetBytes tx.maxFeePerBlobGas
        blobHashes := toGethHashes tx.blobVersionedHashes
        v := uint256SetBytes tx.yParity
        r := uint256SetBytes tx.r
        s := uint256SetBytes tx.s })
    | 4 => .ok (.setCode {
        chainID := uint256SetBytes tx.chainId
        nonce := tx.nonce
        gasTipCap := uint256SetBytes tx.maxPriorityFeePerGas
        gasFeeCap := uint256SetBytes tx.maxFeePerGas
        gas := tx.gasLimit
        toAddress := bytesToFixed 20 (goBytes tx.toAddress)
        value := uint256SetBytes tx.value
        data := tx.data
        accessList := toGethAccessList tx.accessList
        authList := toGethAuthorizationList tx.authorizationList
        v := uint256SetBytes tx.yParity
        r := uint256SetBytes tx.r
        s := uint256SetBytes tx.s })
    | other => .error s!"unsupported transaction type: {other}"

def toGethTransactions (messages : List ProtoBlock.Transaction) :
    Except String (List GethTransaction) :=
  messages.zipIdx.mapM fun entry =>
    match toGethTransaction (some entry.1) with
    | .ok tx => .ok tx
    | .error failure => .error s!"failed to convert transaction {entry.2}: {failure}"

/-- Geth's encoding of a `big.Int`, and below of the fixed-size integers. -/
def rlpBigInt (value : Nat) : Bytes := encodeBytes (minimalBE value)

def rlpUint64 (value : UInt64) : Bytes := rlpBigInt value.toNat

def rlpUint8 (value : UInt8) : Bytes := rlpBigInt value.toNat

def rlpUint256 (value : U256) : Bytes := rlpBigInt value.toNat

/-- A pointer tagged `rlp:"nil"` to an address. -/
def rlpAddressPointer : Option Address → Bytes
  | some address => encodeBytes address.val
  | none => encodeBytes []

def rlpFixedList {width : Nat} (values : List (FixedBytes width)) : Bytes :=
  encodeList (values.map fun value => encodeBytes value.val)

def rlpAccessList (accessList : List AccessTuple) : Bytes :=
  encodeList (accessList.map fun tuple =>
    encodeList [encodeBytes tuple.address.val, rlpFixedList tuple.storageKeys])

def rlpAuthorization (auth : SetCodeAuthorization) : Bytes :=
  encodeList [rlpUint256 auth.chainID, encodeBytes auth.address.val,
    rlpUint64 auth.nonce, rlpUint8 auth.v, rlpUint256 auth.r, rlpUint256 auth.s]

def rlpAuthList (authList : List SetCodeAuthorization) : Bytes :=
  encodeList (authList.map rlpAuthorization)

def GethTransaction.marshalBinary : GethTransaction → Bytes
  | .legacy tx =>
    encodeList [rlpUint64 tx.nonce, rlpBigInt tx.gasPrice, rlpUint64 tx.gas,
      rlpAddressPointer tx.toAddress, rlpBigInt tx.value, encodeBytes tx.data, rlpBigInt tx.v,
      rlpBigInt tx.r, rlpBigInt tx.s]
  | .accessList tx =>
    0x01 :: encodeList [rlpBigInt tx.chainID, rlpUint64 tx.nonce, rlpBigInt tx.gasPrice,
      rlpUint64 tx.gas, rlpAddressPointer tx.toAddress, rlpBigInt tx.value,
      encodeBytes tx.data, rlpAccessList tx.accessList, rlpBigInt tx.v, rlpBigInt tx.r,
      rlpBigInt tx.s]
  | .dynamicFee tx =>
    0x02 :: encodeList [rlpBigInt tx.chainID, rlpUint64 tx.nonce, rlpBigInt tx.gasTipCap,
      rlpBigInt tx.gasFeeCap, rlpUint64 tx.gas, rlpAddressPointer tx.toAddress,
      rlpBigInt tx.value, encodeBytes tx.data, rlpAccessList tx.accessList, rlpBigInt tx.v,
      rlpBigInt tx.r, rlpBigInt tx.s]
  | .blob tx =>
    0x03 :: encodeList [rlpUint256 tx.chainID, rlpUint64 tx.nonce,
      rlpUint256 tx.gasTipCap, rlpUint256 tx.gasFeeCap, rlpUint64 tx.gas,
      encodeBytes tx.toAddress.val, rlpUint256 tx.value, encodeBytes tx.data,
      rlpAccessList tx.accessList, rlpUint256 tx.blobFeeCap, rlpFixedList tx.blobHashes,
      rlpUint256 tx.v, rlpUint256 tx.r, rlpUint256 tx.s]
  | .setCode tx =>
    0x04 :: encodeList [rlpUint256 tx.chainID, rlpUint64 tx.nonce,
      rlpUint256 tx.gasTipCap, rlpUint256 tx.gasFeeCap, rlpUint64 tx.gas,
      encodeBytes tx.toAddress.val, rlpUint256 tx.value, encodeBytes tx.data,
      rlpAccessList tx.accessList, rlpAuthList tx.authList, rlpUint256 tx.v,
      rlpUint256 tx.r, rlpUint256 tx.s]

/-- `types.DeriveSha`: the root of the trie from encoded indices to encodings. -/
def deriveSha (libraries : HashLibraries) (transactions : List GethTransaction) : Hash :=
  libraries.trieRoot (addLeaves (indexedLeaves (transactions.map GethTransaction.marshalBinary)))

theorem bytes_to_fixed_to_vec {width : Nat} (value : FixedBytes width) :
    bytesToFixed width (toVec value) = value := by
  apply Subtype.ext
  simp [bytesToFixed, toVec, value.property]

theorem copy_to_fixed_to_vec {width : Nat} (value : FixedBytes width) :
    copyToFixed width (toVec value) = value := by
  apply Subtype.ext
  simp [copyToFixed, toVec, value.property]

theorem big_set_bytes_u256 (value : U256) : bigSetBytes (u256ToVec value) = value.toNat :=
  decode_encode_be_of_lt (by simpa using value.isLt)

theorem uint256_set_bytes_u256 (value : U256) : uint256SetBytes (u256ToVec value) = value := by
  have number := big_set_bytes_u256 value
  unfold bigSetBytes at number
  unfold uint256SetBytes
  rw [number]
  simp

theorem rlp_uint64_eq (value : UInt64) : rlpUint64 value = encodeU64 value :=
  (encode_uint_eq _ (by simpa using value.toNat_lt)).symm

theorem rlp_uint8_eq (value : UInt8) : rlpUint8 value = encodeU8 value :=
  (encode_uint_eq _ (lt_trans value.toNat_lt (by norm_num))).symm

theorem rlp_uint256_eq (value : U256) :
    rlpUint256 (uint256SetBytes (u256ToVec value)) = encodeU256 value := by
  rw [uint256_set_bytes_u256]
  exact (encode_u256_eq value).symm

theorem rlp_big_int_eq (value : U256) :
    rlpBigInt (bigSetBytes (u256ToVec value)) = encodeU256 value := by
  rw [big_set_bytes_u256]
  exact (encode_u256_eq value).symm

theorem rlp_address_pointer (recipient : Option Address) :
    rlpAddressPointer (toOptionalAddress (goBytes (recipient.map toVec))) =
      encodeNil encodeFixed recipient := by
  cases recipient with
  | none => rfl
  | some address =>
      have present : ¬ (goBytes (some (toVec address))).length = 0 := by
        simp [goBytes, toVec, address.property]
      simp only [Option.map_some, toOptionalAddress, if_neg present]
      simp only [goBytes, Option.getD_some, copy_to_fixed_to_vec]
      rfl

theorem rlp_access_list (entries : List BlockTypes.AccessListEntry) :
    rlpAccessList (toGethAccessList (entries.map ProtoBlock.AccessListEntry.fromTypes)) =
      encodeList (entries.map TransactionRlp.encodeAccessListEntry) := by
  unfold rlpAccessList toGethAccessList
  rw [List.map_map, List.map_map]
  refine congrArg encodeList (List.map_congr_left ?_)
  intro entry _
  simp only [Function.comp_apply, ProtoBlock.AccessListEntry.fromTypes, bytes_to_fixed_to_vec,
    List.map_map, rlpFixedList, Function.comp_def]
  rfl

theorem rlp_blob_hashes (hashes : List Hash) :
    rlpFixedList (toGethHashes (hashes.map toVec)) = encodeList (hashes.map encodeFixed) := by
  simp only [rlpFixedList, toGethHashes, List.map_map, Function.comp_def, bytes_to_fixed_to_vec]
  rfl

theorem rlp_authorization (authorization : BlockTypes.SetCodeAuthorization) :
    rlpAuthorization (toGethAuthorization
        (ProtoBlock.SetCodeAuthorization.fromTypes authorization)) =
      TransactionRlp.encodeAuthorization authorization := by
  simp only [rlpAuthorization, toGethAuthorization, ProtoBlock.SetCodeAuthorization.fromTypes,
    bytes_to_fixed_to_vec, UInt8.toUInt8_toUInt64, rlp_uint256_eq, rlp_uint64_eq, rlp_uint8_eq,
    TransactionRlp.encodeAuthorization, encodeFixed]

theorem rlp_auth_list (authorizations : List BlockTypes.SetCodeAuthorization) :
    rlpAuthList (toGethAuthorizationList
        (authorizations.map ProtoBlock.SetCodeAuthorization.fromTypes)) =
      encodeList (authorizations.map TransactionRlp.encodeAuthorization) := by
  unfold rlpAuthList toGethAuthorizationList
  rw [List.map_map, List.map_map]
  refine congrArg encodeList (List.map_congr_left ?_)
  intro authorization _
  rw [Function.comp_apply, Function.comp_apply, rlp_authorization]

/-- A valid transaction converts to a geth transaction with the same encoding. -/
theorem to_geth_transaction_marshal {tx : BlockTypes.Transaction}
    (valid : TransactionRlp.Transaction.isValid tx = .ok ()) :
    ∃ geth, toGethTransaction (some (ProtoBlock.Transaction.fromTypes tx)) = .ok geth ∧
      geth.marshalBinary = TransactionRlp.Transaction.marshal tx := by
  obtain ⟨-, recipient⟩ | ⟨⟨failure, invalid⟩, -⟩ := TransactionRlp.is_valid_cases tx
  · obtain ⟨kind, chainId, nonce, gasPrice, gasLimit, toAddress, value, data, accessList, feeCap,
      tipCap, hashes, blobFeeCap, authorizations, yParity, r, s⟩ := tx
    cases kind with
    | legacy =>
        refine ⟨_, rfl, ?_⟩
        simp only [GethTransaction.marshalBinary, ProtoBlock.Transaction.fromTypes,
          rlp_big_int_eq, rlp_uint64_eq, rlp_address_pointer]
        rfl
    | accessList =>
        refine ⟨_, rfl, ?_⟩
        simp only [GethTransaction.marshalBinary, ProtoBlock.Transaction.fromTypes,
          rlp_big_int_eq, rlp_uint64_eq, rlp_address_pointer, rlp_access_list]
        rfl
    | dynamicFee =>
        refine ⟨_, rfl, ?_⟩
        simp only [GethTransaction.marshalBinary, ProtoBlock.Transaction.fromTypes,
          rlp_big_int_eq, rlp_uint64_eq, rlp_address_pointer, rlp_access_list]
        rfl
    | blob =>
        obtain ⟨address, present⟩ := recipient (.inl rfl)
        cases present
        refine ⟨_, rfl, ?_⟩
        simp only [GethTransaction.marshalBinary, ProtoBlock.Transaction.fromTypes,
          rlp_uint256_eq, rlp_uint64_eq, rlp_access_list, rlp_blob_hashes,
          Option.map_some, goBytes, Option.getD_some, bytes_to_fixed_to_vec]
        rfl
    | setCode =>
        obtain ⟨address, present⟩ := recipient (.inr rfl)
        cases present
        refine ⟨_, rfl, ?_⟩
        simp only [GethTransaction.marshalBinary, ProtoBlock.Transaction.fromTypes,
          rlp_uint256_eq, rlp_uint64_eq, rlp_access_list, rlp_auth_list,
          Option.map_some, goBytes, Option.getD_some, bytes_to_fixed_to_vec]
        rfl
  · rw [valid] at invalid
    cases invalid

theorem to_geth_transactions_marshal (transactions : List BlockTypes.Transaction)
    (valid : ∀ tx ∈ transactions, TransactionRlp.Transaction.isValid tx = .ok ()) :
    ∃ geths, toGethTransactions (transactions.map ProtoBlock.Transaction.fromTypes) = .ok geths ∧
      geths.map GethTransaction.marshalBinary =
        transactions.map TransactionRlp.Transaction.marshal := by
  unfold toGethTransactions
  generalize 0 = start
  induction transactions generalizing start with
  | nil => exact ⟨[], rfl, rfl⟩
  | cons tx transactions ih =>
      obtain ⟨geth, converted, encoded⟩ := to_geth_transaction_marshal (valid tx (by simp))
      obtain ⟨geths, others, tails⟩ :=
        ih (fun later member => valid later (by simp [member])) (start + 1)
      refine ⟨geth :: geths, ?_, by rw [List.map_cons, List.map_cons, encoded, tails]⟩
      rw [List.map_cons, List.zipIdx_cons, List.mapM_cons, others, converted]
      rfl

/-- From the stored message of a valid transaction, geth's encoding is the one that
`marshal` computes, and from a stored block of valid transactions `DeriveSha` computes
the transactions root of the Rust header. -/
theorem geth_agrees_with_marshal (tx : BlockTypes.Transaction) (block : BlockTypes.Block)
    (libraries : HashLibraries) :
    (TransactionRlp.Transaction.isValid tx = .ok () →
      ∃ geth, toGethTransaction (some (ProtoBlock.Transaction.fromTypes tx)) = .ok geth ∧
        geth.marshalBinary = TransactionRlp.Transaction.marshal tx) ∧
    ((∀ stored ∈ block.transactions, TransactionRlp.Transaction.isValid stored = .ok ()) →
      ∃ geths, toGethTransactions (ProtoBlock.Block.fromTypes block).transactions = .ok geths ∧
        deriveSha libraries geths = (Block.toHeader libraries block).transactionsRoot) := by
  constructor
  · exact to_geth_transaction_marshal
  · intro valid
    obtain ⟨geths, converted, encoded⟩ := to_geth_transactions_marshal block.transactions valid
    refine ⟨geths, converted, ?_⟩
    simp only [deriveSha, encoded, Block.toHeader, compute_root_hash_eq]

theorem geth_agrees_with_marshal_transfer :
    let delegation : BlockTypes.Transaction :=
      { transactionType := .setCode, chainId := 146, maxFeePerGas := 9, data := [0x05],
        authorizationList := [⟨1, FixedBytes.zero 20, 0, 1, 2, 3⟩] }
    let transfer : BlockTypes.Transaction := { gasLimit := 21000, value := 5 }
    let root : Hash := BlockTypes.U256.toBeBytes
      0x3cb4d3a782f2ece085087b1ef32f9b1da49c31c68ea66d51b887b2d0654b1251
    let libraries : HashLibraries := ⟨fun _ => root, fun bloom _ => bloom⟩
    (∃ geth, toGethTransaction (some (ProtoBlock.Transaction.fromTypes delegation)) = .ok geth ∧
      geth.marshalBinary = TransactionRlp.Transaction.marshal delegation) ∧
    ∃ geths, toGethTransactions [ProtoBlock.Transaction.fromTypes transfer] = .ok geths ∧
      deriveSha libraries geths =
        (Block.toHeader libraries { transactions := [transfer] }).transactionsRoot :=
  ⟨(geth_agrees_with_marshal _ {} ⟨fun _ => default, fun bloom _ => bloom⟩).1 rfl,
    (geth_agrees_with_marshal {} { transactions := [{ gasLimit := 21000, value := 5 }] } _).2
      (by intro stored member; cases List.mem_singleton.mp member; rfl)⟩

end Bertha.GethConvert
