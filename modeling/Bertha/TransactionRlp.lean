import Bertha.RlpFields

/-!
# EIP-2718 transactions

The five transaction layouts of `bertha-types/src/transaction`, their checked
construction from a `Transaction`, and `marshal` and `unmarshal`. A legacy transaction
is a bare list, every other type is its type byte followed by a list, and a
transaction that its type cannot express is written as the empty string, which no
layout accepts.
-/

namespace Bertha.TransactionRlp

open Bertha.BigEndian Bertha.BlockTypes Bertha.Conversion Bertha.Rlp Bertha.RlpFields

set_option autoImplicit false

structure LegacyTx where
  nonce : UInt64
  gasPrice : U256
  gasLimit : UInt64
  toAddress : Option Address
  value : U256
  data : Bytes
  w : U256
  r : U256
  s : U256
deriving DecidableEq

structure AccessListTx where
  chainId : U256
  nonce : UInt64
  gasPrice : U256
  gasLimit : UInt64
  toAddress : Option Address
  value : U256
  data : Bytes
  accessList : List AccessListEntry
  yParity : U256
  r : U256
  s : U256
deriving DecidableEq

structure DynamicFeeTx where
  chainId : U256
  nonce : UInt64
  maxPriorityFeePerGas : U256
  maxFeePerGas : U256
  gasLimit : UInt64
  toAddress : Option Address
  value : U256
  data : Bytes
  accessList : List AccessListEntry
  yParity : U256
  r : U256
  s : U256
deriving DecidableEq

structure BlobTx where
  chainId : U256
  nonce : UInt64
  maxPriorityFeePerGas : U256
  maxFeePerGas : U256
  gasLimit : UInt64
  toAddress : Address
  value : U256
  data : Bytes
  accessList : List AccessListEntry
  maxFeePerBlobGas : U256
  blobVersionedHashes : List Hash
  yParity : U256
  r : U256
  s : U256
deriving DecidableEq

structure SetCodeTx where
  chainId : U256
  nonce : UInt64
  maxPriorityFeePerGas : U256
  maxFeePerGas : U256
  gasLimit : UInt64
  toAddress : Address
  value : U256
  data : Bytes
  accessList : List AccessListEntry
  authorizationList : List SetCodeAuthorization
  yParity : U256
  r : U256
  s : U256
deriving DecidableEq

/-- The `Debug` text of a transaction type. -/
def debugName : TransactionType → String
  | .legacy => "Legacy"
  | .accessList => "AccessList"
  | .dynamicFee => "DynamicFee"
  | .blob => "Blob"
  | .setCode => "SetCode"

/-- The type check shared by the layouts, which differ in the spelling of `expected`. -/
def checkType (word : String) (expected : TransactionType) (tx : Transaction) :
    Except TransactionError Unit :=
  if tx.transactionType ≠ expected then
    .error (.conversionError
      s!"{word} {debugName expected}, found {debugName tx.transactionType}")
  else .ok ()

def checkRecipient (name : String) (tx : Transaction) : Except TransactionError Unit :=
  if tx.toAddress.isNone then
    .error (.conversionError s!"{name} transaction requires 'to' field to be set")
  else .ok ()

def LegacyTx.isConstructibleFrom (tx : Transaction) : Except TransactionError Unit :=
  checkType "Expected" .legacy tx

def AccessListTx.isConstructibleFrom (tx : Transaction) : Except TransactionError Unit :=
  checkType "expected" .accessList tx

def DynamicFeeTx.isConstructibleFrom (tx : Transaction) : Except TransactionError Unit :=
  checkType "Expected" .dynamicFee tx

def BlobTx.isConstructibleFrom (tx : Transaction) : Except TransactionError Unit := do
  checkType "expected" .blob tx
  checkRecipient "Blob" tx

def SetCodeTx.isConstructibleFrom (tx : Transaction) : Except TransactionError Unit := do
  checkType "Expected" .setCode tx
  checkRecipient "SetCode" tx

def Transaction.isValid (tx : Transaction) : Except TransactionError Unit :=
  match tx.transactionType with
  | .legacy => LegacyTx.isConstructibleFrom tx
  | .dynamicFee => DynamicFeeTx.isConstructibleFrom tx
  | .accessList => AccessListTx.isConstructibleFrom tx
  | .blob => BlobTx.isConstructibleFrom tx
  | .setCode => SetCodeTx.isConstructibleFrom tx

/-- `tx.to.unwrap()` behind the check that it is present. -/
def unwrapRecipient (tx : Transaction) : Address := tx.toAddress.getD (FixedBytes.zero 20)

def LegacyTx.tryFrom (tx : Transaction) : Except TransactionError LegacyTx := do
  LegacyTx.isConstructibleFrom tx
  return {
    nonce := tx.nonce
    gasPrice := tx.gasPrice
    gasLimit := tx.gasLimit
    toAddress := tx.toAddress
    value := tx.value
    data := tx.data
    w := tx.yParity
    r := tx.r
    s := tx.s
  }

def AccessListTx.tryFrom (tx : Transaction) : Except TransactionError AccessListTx := do
  AccessListTx.isConstructibleFrom tx
  return {
    chainId := tx.chainId
    nonce := tx.nonce
    gasPrice := tx.gasPrice
    gasLimit := tx.gasLimit
    toAddress := tx.toAddress
    value := tx.value
    data := tx.data
    accessList := tx.accessList
    yParity := tx.yParity
    r := tx.r
    s := tx.s
  }

def DynamicFeeTx.tryFrom (tx : Transaction) : Except TransactionError DynamicFeeTx := do
  DynamicFeeTx.isConstructibleFrom tx
  return {
    chainId := tx.chainId
    nonce := tx.nonce
    maxPriorityFeePerGas := tx.maxPriorityFeePerGas
    maxFeePerGas := tx.maxFeePerGas
    gasLimit := tx.gasLimit
    toAddress := tx.toAddress
    value := tx.value
    data := tx.data
    accessList := tx.accessList
    yParity := tx.yParity
    r := tx.r
    s := tx.s
  }

def BlobTx.tryFrom (tx : Transaction) : Except TransactionError BlobTx := do
  BlobTx.isConstructibleFrom tx
  return {
    chainId := tx.chainId
    nonce := tx.nonce
    maxPriorityFeePerGas := tx.maxPriorityFeePerGas
    maxFeePerGas := tx.maxFeePerGas
    gasLimit := tx.gasLimit
    toAddress := unwrapRecipient tx
    value := tx.value
    data := tx.data
    accessList := tx.accessList
    maxFeePerBlobGas := tx.maxFeePerBlobGas
    blobVersionedHashes := tx.blobVersionedHashes
    yParity := tx.yParity
    r := tx.r
    s := tx.s
  }

def SetCodeTx.tryFrom (tx : Transaction) : Except TransactionError SetCodeTx := do
  SetCodeTx.isConstructibleFrom tx
  return {
    chainId := tx.chainId
    nonce := tx.nonce
    maxPriorityFeePerGas := tx.maxPriorityFeePerGas
    maxFeePerGas := tx.maxFeePerGas
    gasLimit := tx.gasLimit
    toAddress := unwrapRecipient tx
    value := tx.value
    data := tx.data
    accessList := tx.accessList
    authorizationList := tx.authorizationList
    yParity := tx.yParity
    r := tx.r
    s := tx.s
  }

/-- `From<LegacyTx> for Transaction`; here and below the fields left out take the
defaults of `Transaction`, as they do in the source. -/
def LegacyTx.into (tx : LegacyTx) : Transaction where
  transactionType := .legacy
  nonce := tx.nonce
  gasPrice := tx.gasPrice
  gasLimit := tx.gasLimit
  toAddress := tx.toAddress
  value := tx.value
  data := tx.data
  yParity := tx.w
  r := tx.r
  s := tx.s

def AccessListTx.into (tx : AccessListTx) : Transaction where
  transactionType := .accessList
  chainId := tx.chainId
  nonce := tx.nonce
  gasPrice := tx.gasPrice
  gasLimit := tx.gasLimit
  toAddress := tx.toAddress
  value := tx.value
  data := tx.data
  accessList := tx.accessList
  yParity := tx.yParity
  r := tx.r
  s := tx.s

def DynamicFeeTx.into (tx : DynamicFeeTx) : Transaction where
  transactionType := .dynamicFee
  chainId := tx.chainId
  nonce := tx.nonce
  gasLimit := tx.gasLimit
  toAddress := tx.toAddress
  value := tx.value
  data := tx.data
  accessList := tx.accessList
  maxPriorityFeePerGas := tx.maxPriorityFeePerGas
  maxFeePerGas := tx.maxFeePerGas
  yParity := tx.yParity
  r := tx.r
  s := tx.s

def BlobTx.into (tx : BlobTx) : Transaction where
  transactionType := .blob
  chainId := tx.chainId
  nonce := tx.nonce
  gasLimit := tx.gasLimit
  toAddress := some tx.toAddress
  value := tx.value
  data := tx.data
  accessList := tx.accessList
  maxPriorityFeePerGas := tx.maxPriorityFeePerGas
  maxFeePerGas := tx.maxFeePerGas
  maxFeePerBlobGas := tx.maxFeePerBlobGas
  blobVersionedHashes := tx.blobVersionedHashes
  yParity := tx.yParity
  r := tx.r
  s := tx.s

def SetCodeTx.into (tx : SetCodeTx) : Transaction where
  transactionType := .setCode
  chainId := tx.chainId
  nonce := tx.nonce
  gasLimit := tx.gasLimit
  toAddress := some tx.toAddress
  value := tx.value
  data := tx.data
  accessList := tx.accessList
  maxPriorityFeePerGas := tx.maxPriorityFeePerGas
  maxFeePerGas := tx.maxFeePerGas
  authorizationList := tx.authorizationList
  yParity := tx.yParity
  r := tx.r
  s := tx.s

def encodeAccessListEntry (entry : AccessListEntry) : Bytes :=
  encodeList [encodeFixed entry.address, encodeList (entry.storageKeys.map encodeFixed)]

def decodeAccessListEntry : Decoder AccessListEntry := decodeStruct do
  let address ← decodeFixed 20
  let storageKeys ← decodeVec (decodeFixed 32)
  return { address, storageKeys }

def encodeAuthorization (authorization : SetCodeAuthorization) : Bytes :=
  encodeList [encodeU256 authorization.chainId, encodeFixed authorization.address,
    encodeU64 authorization.nonce, encodeU8 authorization.yParity,
    encodeU256 authorization.r, encodeU256 authorization.s]

def decodeAuthorization : Decoder SetCodeAuthorization := decodeStruct do
  let chainId ← decodeU256
  let address ← decodeFixed 20
  let nonce ← decodeU64
  let yParity ← decodeU8
  let r ← decodeU256
  let s ← decodeU256
  return { chainId, address, nonce, yParity, r, s }

def LegacyTx.encode (tx : LegacyTx) : Bytes :=
  encodeList [encodeU64 tx.nonce, encodeU256 tx.gasPrice, encodeU64 tx.gasLimit,
    encodeNil encodeFixed tx.toAddress, encodeU256 tx.value, encodeString tx.data,
    encodeU256 tx.w, encodeU256 tx.r, encodeU256 tx.s]

def LegacyTx.decode : Decoder LegacyTx := decodeStruct do
  let nonce ← decodeU64
  let gasPrice ← decodeU256
  let gasLimit ← decodeU64
  let toAddress ← decodeNil (decodeFixed 20)
  let value ← decodeU256
  let data ← decodeString
  let w ← decodeU256
  let r ← decodeU256
  let s ← decodeU256
  return { nonce, gasPrice, gasLimit, toAddress, value, data, w, r, s }

def AccessListTx.encode (tx : AccessListTx) : Bytes :=
  encodeList [encodeU256 tx.chainId, encodeU64 tx.nonce, encodeU256 tx.gasPrice,
    encodeU64 tx.gasLimit, encodeNil encodeFixed tx.toAddress, encodeU256 tx.value,
    encodeString tx.data, encodeList (tx.accessList.map encodeAccessListEntry),
    encodeU256 tx.yParity, encodeU256 tx.r, encodeU256 tx.s]

def AccessListTx.decode : Decoder AccessListTx := decodeStruct do
  let chainId ← decodeU256
  let nonce ← decodeU64
  let gasPrice ← decodeU256
  let gasLimit ← decodeU64
  let toAddress ← decodeNil (decodeFixed 20)
  let value ← decodeU256
  let data ← decodeString
  let accessList ← decodeVec decodeAccessListEntry
  let yParity ← decodeU256
  let r ← decodeU256
  let s ← decodeU256
  return { chainId, nonce, gasPrice, gasLimit, toAddress, value, data, accessList, yParity, r, s }

def DynamicFeeTx.encode (tx : DynamicFeeTx) : Bytes :=
  encodeList [encodeU256 tx.chainId, encodeU64 tx.nonce, encodeU256 tx.maxPriorityFeePerGas,
    encodeU256 tx.maxFeePerGas, encodeU64 tx.gasLimit, encodeNil encodeFixed tx.toAddress,
    encodeU256 tx.value, encodeString tx.data,
    encodeList (tx.accessList.map encodeAccessListEntry), encodeU256 tx.yParity,
    encodeU256 tx.r, encodeU256 tx.s]

def DynamicFeeTx.decode : Decoder DynamicFeeTx := decodeStruct do
  let chainId ← decodeU256
  let nonce ← decodeU64
  let maxPriorityFeePerGas ← decodeU256
  let maxFeePerGas ← decodeU256
  let gasLimit ← decodeU64
  let toAddress ← decodeNil (decodeFixed 20)
  let value ← decodeU256
  let data ← decodeString
  let accessList ← decodeVec decodeAccessListEntry
  let yParity ← decodeU256
  let r ← decodeU256
  let s ← decodeU256
  return {
    chainId, nonce, maxPriorityFeePerGas, maxFeePerGas, gasLimit, toAddress, value, data,
    accessList, yParity, r, s }

def BlobTx.encode (tx : BlobTx) : Bytes :=
  encodeList [encodeU256 tx.chainId, encodeU64 tx.nonce, encodeU256 tx.maxPriorityFeePerGas,
    encodeU256 tx.maxFeePerGas, encodeU64 tx.gasLimit, encodeFixed tx.toAddress,
    encodeU256 tx.value, encodeString tx.data,
    encodeList (tx.accessList.map encodeAccessListEntry), encodeU256 tx.maxFeePerBlobGas,
    encodeList (tx.blobVersionedHashes.map encodeFixed), encodeU256 tx.yParity,
    encodeU256 tx.r, encodeU256 tx.s]

def BlobTx.decode : Decoder BlobTx := decodeStruct do
  let chainId ← decodeU256
  let nonce ← decodeU64
  let maxPriorityFeePerGas ← decodeU256
  let maxFeePerGas ← decodeU256
  let gasLimit ← decodeU64
  let toAddress ← decodeFixed 20
  let value ← decodeU256
  let data ← decodeString
  let accessList ← decodeVec decodeAccessListEntry
  let maxFeePerBlobGas ← decodeU256
  let blobVersionedHashes ← decodeVec (decodeFixed 32)
  let yParity ← decodeU256
  let r ← decodeU256
  let s ← decodeU256
  return {
    chainId, nonce, maxPriorityFeePerGas, maxFeePerGas, gasLimit, toAddress, value, data,
    accessList, maxFeePerBlobGas, blobVersionedHashes, yParity, r, s }

def SetCodeTx.encode (tx : SetCodeTx) : Bytes :=
  encodeList [encodeU256 tx.chainId, encodeU64 tx.nonce, encodeU256 tx.maxPriorityFeePerGas,
    encodeU256 tx.maxFeePerGas, encodeU64 tx.gasLimit, encodeFixed tx.toAddress,
    encodeU256 tx.value, encodeString tx.data,
    encodeList (tx.accessList.map encodeAccessListEntry),
    encodeList (tx.authorizationList.map encodeAuthorization), encodeU256 tx.yParity,
    encodeU256 tx.r, encodeU256 tx.s]

def SetCodeTx.decode : Decoder SetCodeTx := decodeStruct do
  let chainId ← decodeU256
  let nonce ← decodeU64
  let maxPriorityFeePerGas ← decodeU256
  let maxFeePerGas ← decodeU256
  let gasLimit ← decodeU64
  let toAddress ← decodeFixed 20
  let value ← decodeU256
  let data ← decodeString
  let accessList ← decodeVec decodeAccessListEntry
  let authorizationList ← decodeVec decodeAuthorization
  let yParity ← decodeU256
  let r ← decodeU256
  let s ← decodeU256
  return {
    chainId, nonce, maxPriorityFeePerGas, maxFeePerGas, gasLimit, toAddress, value, data,
    accessList, authorizationList, yParity, r, s }

/-- `encode_with_type_as_rlp_string`, or the empty string for a failed conversion. -/
def marshalTyped {Layout : Type} (transactionType : TransactionType) (encode : Layout → Bytes) :
    Except TransactionError Layout → Bytes
  | .ok tx => transactionType.toU8 :: encode tx
  | .error _ => encodeBytes []

def Transaction.marshal (tx : Transaction) : Bytes :=
  match tx.transactionType with
  | .legacy =>
    match LegacyTx.tryFrom tx with
    | .ok legacy => legacy.encode
    | .error _ => encodeBytes []
  | .accessList => marshalTyped tx.transactionType AccessListTx.encode (AccessListTx.tryFrom tx)
  | .dynamicFee => marshalTyped tx.transactionType DynamicFeeTx.encode (DynamicFeeTx.tryFrom tx)
  | .blob => marshalTyped tx.transactionType BlobTx.encode (BlobTx.tryFrom tx)
  | .setCode => marshalTyped tx.transactionType SetCodeTx.encode (SetCodeTx.tryFrom tx)

def Transaction.unmarshal : Decoder Transaction := fun input =>
  match input with
  | [] => .error .inputTooShort
  | code :: rest =>
    if code > 0x7f then (LegacyTx.into <$> LegacyTx.decode) input
    else match code with
      | 1 => (AccessListTx.into <$> AccessListTx.decode) rest
      | 2 => (DynamicFeeTx.into <$> DynamicFeeTx.decode) rest
      | 3 => (BlobTx.into <$> BlobTx.decode) rest
      | 4 => (SetCodeTx.into <$> SetCodeTx.decode) rest
      | _ => .error (.custom "invalid transaction type")

theorem reads_access_list_entry (entry : AccessListEntry) :
    Reads decodeAccessListEntry (encodeAccessListEntry entry) entry := by
  apply reads_struct
  apply (reads_fixed entry.address).bind
  apply (reads_vec (fun key _ => reads_fixed key) fun key _ => encode_bytes_ne_nil _).bind
  exact Reads.pure entry

theorem reads_access_list (entries : List AccessListEntry) :
    Reads (decodeVec decodeAccessListEntry)
      (encodeList (entries.map encodeAccessListEntry)) entries :=
  reads_vec (fun entry _ => reads_access_list_entry entry) fun _ _ => encode_list_ne_nil _

theorem reads_authorization (authorization : SetCodeAuthorization) :
    Reads decodeAuthorization (encodeAuthorization authorization) authorization := by
  apply reads_struct
  apply (reads_u256 authorization.chainId).bind
  apply (reads_fixed authorization.address).bind
  apply (reads_u64 authorization.nonce).bind
  apply (reads_u8 authorization.yParity).bind
  apply (reads_u256 authorization.r).bind
  apply (reads_u256 authorization.s).bind
  exact Reads.pure authorization

theorem reads_authorization_list (authorizations : List SetCodeAuthorization) :
    Reads (decodeVec decodeAuthorization)
      (encodeList (authorizations.map encodeAuthorization)) authorizations :=
  reads_vec (fun authorization _ => reads_authorization authorization) fun _ _ =>
    encode_list_ne_nil _

theorem reads_hashes (hashes : List Hash) :
    Reads (decodeVec (decodeFixed 32)) (encodeList (hashes.map encodeFixed)) hashes :=
  reads_vec (fun hash _ => reads_fixed hash) fun _ _ => encode_bytes_ne_nil _

theorem reads_legacy_tx (tx : LegacyTx) : Reads LegacyTx.decode tx.encode tx := by
  apply reads_struct
  apply (reads_u64 tx.nonce).bind
  apply (reads_u256 tx.gasPrice).bind
  apply (reads_u64 tx.gasLimit).bind
  apply (reads_nil_address tx.toAddress).bind
  apply (reads_u256 tx.value).bind
  apply (reads_string tx.data).bind
  apply (reads_u256 tx.w).bind
  apply (reads_u256 tx.r).bind
  apply (reads_u256 tx.s).bind
  exact Reads.pure tx

theorem reads_access_list_tx (tx : AccessListTx) : Reads AccessListTx.decode tx.encode tx := by
  apply reads_struct
  apply (reads_u256 tx.chainId).bind
  apply (reads_u64 tx.nonce).bind
  apply (reads_u256 tx.gasPrice).bind
  apply (reads_u64 tx.gasLimit).bind
  apply (reads_nil_address tx.toAddress).bind
  apply (reads_u256 tx.value).bind
  apply (reads_string tx.data).bind
  apply (reads_access_list tx.accessList).bind
  apply (reads_u256 tx.yParity).bind
  apply (reads_u256 tx.r).bind
  apply (reads_u256 tx.s).bind
  exact Reads.pure tx

theorem reads_dynamic_fee_tx (tx : DynamicFeeTx) : Reads DynamicFeeTx.decode tx.encode tx := by
  apply reads_struct
  apply (reads_u256 tx.chainId).bind
  apply (reads_u64 tx.nonce).bind
  apply (reads_u256 tx.maxPriorityFeePerGas).bind
  apply (reads_u256 tx.maxFeePerGas).bind
  apply (reads_u64 tx.gasLimit).bind
  apply (reads_nil_address tx.toAddress).bind
  apply (reads_u256 tx.value).bind
  apply (reads_string tx.data).bind
  apply (reads_access_list tx.accessList).bind
  apply (reads_u256 tx.yParity).bind
  apply (reads_u256 tx.r).bind
  apply (reads_u256 tx.s).bind
  exact Reads.pure tx

theorem reads_blob_tx (tx : BlobTx) : Reads BlobTx.decode tx.encode tx := by
  apply reads_struct
  apply (reads_u256 tx.chainId).bind
  apply (reads_u64 tx.nonce).bind
  apply (reads_u256 tx.maxPriorityFeePerGas).bind
  apply (reads_u256 tx.maxFeePerGas).bind
  apply (reads_u64 tx.gasLimit).bind
  apply (reads_fixed tx.toAddress).bind
  apply (reads_u256 tx.value).bind
  apply (reads_string tx.data).bind
  apply (reads_access_list tx.accessList).bind
  apply (reads_u256 tx.maxFeePerBlobGas).bind
  apply (reads_hashes tx.blobVersionedHashes).bind
  apply (reads_u256 tx.yParity).bind
  apply (reads_u256 tx.r).bind
  apply (reads_u256 tx.s).bind
  exact Reads.pure tx

theorem reads_set_code_tx (tx : SetCodeTx) : Reads SetCodeTx.decode tx.encode tx := by
  apply reads_struct
  apply (reads_u256 tx.chainId).bind
  apply (reads_u64 tx.nonce).bind
  apply (reads_u256 tx.maxPriorityFeePerGas).bind
  apply (reads_u256 tx.maxFeePerGas).bind
  apply (reads_u64 tx.gasLimit).bind
  apply (reads_fixed tx.toAddress).bind
  apply (reads_u256 tx.value).bind
  apply (reads_string tx.data).bind
  apply (reads_access_list tx.accessList).bind
  apply (reads_authorization_list tx.authorizationList).bind
  apply (reads_u256 tx.yParity).bind
  apply (reads_u256 tx.r).bind
  apply (reads_u256 tx.s).bind
  exact Reads.pure tx

/-- The transaction with every field its type does not use set to the default. -/
def resetUnused (tx : Transaction) : Transaction :=
  match tx.transactionType with
  | .legacy =>
    { tx with
      chainId := 0, accessList := [], maxFeePerGas := 0, maxPriorityFeePerGas := 0,
      blobVersionedHashes := [], maxFeePerBlobGas := 0, authorizationList := [] }
  | .accessList =>
    { tx with
      maxFeePerGas := 0, maxPriorityFeePerGas := 0, blobVersionedHashes := [],
      maxFeePerBlobGas := 0, authorizationList := [] }
  | .dynamicFee =>
    { tx with
      gasPrice := 0, blobVersionedHashes := [], maxFeePerBlobGas := 0,
      authorizationList := [] }
  | .blob => { tx with gasPrice := 0, authorizationList := [] }
  | .setCode => { tx with gasPrice := 0, blobVersionedHashes := [], maxFeePerBlobGas := 0 }

/-- Only a blob or set-code transaction without recipient is invalid. -/
theorem is_valid_cases (tx : Transaction) :
    (Transaction.isValid tx = .ok () ∧
      (tx.transactionType = .blob ∨ tx.transactionType = .setCode →
        ∃ address, tx.toAddress = some address)) ∨
    ((∃ failure, Transaction.isValid tx = .error failure) ∧ tx.toAddress = none ∧
      (tx.transactionType = .blob ∨ tx.transactionType = .setCode)) := by
  rcases recipient : tx.toAddress with _ | address
  all_goals
    cases kind : tx.transactionType <;>
      simp [Transaction.isValid, kind, LegacyTx.isConstructibleFrom,
        AccessListTx.isConstructibleFrom, DynamicFeeTx.isConstructibleFrom,
        BlobTx.isConstructibleFrom, SetCodeTx.isConstructibleFrom, checkType, checkRecipient,
        recipient, bind, Except.bind]

/-- Behind its type byte, a layout is read by the decoder that `unmarshal` selects. -/
theorem reads_unmarshal_typed {Layout : Type} {decode : Decoder Layout} {bytes : Bytes}
    {layout : Layout} (convert : Layout → Transaction) {code : UInt8}
    (selects : ∀ rest, Transaction.unmarshal (code :: rest) = (convert <$> decode) rest)
    (reads : Reads decode bytes layout) :
    Reads Transaction.unmarshal (code :: bytes) (convert layout) := by
  intro bounded rest
  rw [List.length_cons] at bounded
  rw [List.cons_append, selects]
  exact reads.map convert (by omega) rest

theorem reads_unmarshal_legacy (tx : LegacyTx) :
    Reads Transaction.unmarshal tx.encode tx.into := by
  intro bounded rest
  obtain ⟨code, others, encoded, high⟩ := encode_list_head _ bounded
  have read := (reads_legacy_tx tx).map LegacyTx.into bounded rest
  rw [LegacyTx.encode, encoded, List.cons_append] at read ⊢
  simp only [Transaction.unmarshal, gt_iff_lt, if_pos high]
  exact read

theorem reads_unmarshal_marshal {tx : Transaction} (valid : Transaction.isValid tx = .ok ()) :
    Reads Transaction.unmarshal (Transaction.marshal tx) (resetUnused tx) := by
  obtain ⟨-, recipient⟩ | ⟨⟨failure, invalid⟩, -⟩ := is_valid_cases tx
  · obtain ⟨kind, chainId, nonce, gasPrice, gasLimit, toAddress, value, data, accessList, feeCap,
      tipCap, hashes, blobFeeCap, authorizations, yParity, r, s⟩ := tx
    cases kind with
    | legacy =>
        exact reads_unmarshal_legacy
          ⟨nonce, gasPrice, gasLimit, toAddress, value, data, yParity, r, s⟩
    | accessList =>
        exact reads_unmarshal_typed AccessListTx.into (fun _ => rfl)
          (reads_access_list_tx ⟨chainId, nonce, gasPrice, gasLimit, toAddress, value, data,
            accessList, yParity, r, s⟩)
    | dynamicFee =>
        exact reads_unmarshal_typed DynamicFeeTx.into (fun _ => rfl)
          (reads_dynamic_fee_tx ⟨chainId, nonce, tipCap, feeCap, gasLimit, toAddress, value, data,
            accessList, yParity, r, s⟩)
    | blob =>
        obtain ⟨address, present⟩ := recipient (.inl rfl)
        cases present
        exact reads_unmarshal_typed BlobTx.into (fun _ => rfl)
          (reads_blob_tx ⟨chainId, nonce, tipCap, feeCap, gasLimit, address, value, data,
            accessList, blobFeeCap, hashes, yParity, r, s⟩)
    | setCode =>
        obtain ⟨address, present⟩ := recipient (.inr rfl)
        cases present
        exact reads_unmarshal_typed SetCodeTx.into (fun _ => rfl)
          (reads_set_code_tx ⟨chainId, nonce, tipCap, feeCap, gasLimit, address, value, data,
            accessList, authorizations, yParity, r, s⟩)
  · rw [valid] at invalid
    cases invalid

/-- An invalid transaction is written as the empty string. -/
theorem marshal_invalid {tx : Transaction} {failure : TransactionError}
    (invalid : Transaction.isValid tx = .error failure) :
    Transaction.marshal tx = [emptyStringCode] := by
  obtain ⟨valid, -⟩ | ⟨-, absent, kind | kind⟩ := is_valid_cases tx
  · rw [valid] at invalid
    cases invalid
  all_goals
    simp [Transaction.isValid, kind] at invalid
    simp [Transaction.marshal, kind, BlobTx.tryFrom, SetCodeTx.tryFrom, invalid, bind,
      Except.bind, marshalTyped, encodeBytes, Header.encode]

/-- The most bytes a `Vec<u8>` can hold. -/
def isizeMax : Nat := 2 ^ 63 - 1

/-- Reading a valid transaction back returns it without its unused fields and leaves the
rest of the input; what is written for an invalid one is refused. The encoding is a
`Vec<u8>`, so it has at most `isizeMax` bytes. -/
theorem unmarshal_marshal (tx : Transaction) (rest : Bytes) :
    (Transaction.isValid tx = .ok () → (Transaction.marshal tx).length ≤ isizeMax →
      Transaction.unmarshal (Transaction.marshal tx ++ rest) = .ok (resetUnused tx, rest)) ∧
    (∀ failure, Transaction.isValid tx = .error failure →
      ∃ error, Transaction.unmarshal (Transaction.marshal tx) = .error error) := by
  constructor
  · intro valid sized
    unfold isizeMax at sized
    exact reads_unmarshal_marshal valid (by omega) rest
  · intro failure invalid
    rw [marshal_invalid invalid]
    exact ⟨.unexpectedString, rfl⟩

theorem unmarshal_marshal_set_code :
    let tx : Transaction :=
      { transactionType := .setCode, chainId := 146, gasPrice := 7, data := [0x05],
        accessList := [⟨FixedBytes.zero 20, [FixedBytes.zero 32]⟩],
        authorizationList := [⟨1, FixedBytes.zero 20, 0, 1, 2, 3⟩] }
    let missing : Transaction := { transactionType := .blob, toAddress := none }
    Transaction.unmarshal (Transaction.marshal tx ++ [0xAA]) =
        .ok ({ tx with gasPrice := 0 }, [0xAA]) ∧
      ∃ error, Transaction.unmarshal (Transaction.marshal missing) = .error error :=
  ⟨(unmarshal_marshal _ _).1 rfl (by decide +kernel), (unmarshal_marshal _ []).2 _ rfl⟩

end Bertha.TransactionRlp
