import Bertha.HexConvert
import Bertha.JsonStructs
import Bertha.TransactionRlp

/-!
# Transactions in JSON

`Serialize` and `Deserialize` of `Transaction`. A transaction is written through the
layout of its type, which has only the fields of that type, and read through
`JsonRpcTransaction`, which has the fields of all types. Those that some layout lacks have
a default there, except for `gasPrice`: so the layouts without a gas price cannot be read
back, and the other two can.
-/

namespace Bertha.TransactionJson

open Bertha.BigEndian Bertha.BlockTypes Bertha.Conversion Bertha.HexConvert
open Bertha.JsonStructs Bertha.TransactionRlp

set_option autoImplicit false

/-- `Deserialize for AsHex<T>`. -/
def decodeHex {Value : Type} (tryFromHex : String → Except ParseHexError Value) (json : Json) :
    Except JsonError Value := do
  let text ← decodeString json
  (tryFromHex text).mapError fun error => .custom error.message

def deserializeNull {Value : Type} (decode : Json → Except JsonError Value) (default : Value)
    (json : Json) : Except JsonError Value :=
  (·.getD default) <$> decodeOption decode json

def hexField {Value : Type} (name : String)
    (tryFromHex : String → Except ParseHexError Value) : StructField Value where
  name := name
  decode := decodeHex tryFromHex

/-- A field of type `AsHex<T>` with `#[serde(default)]`. -/
def hexFieldOr {Value : Type} (name : String)
    (tryFromHex : String → Except ParseHexError Value) (default : Value) : StructField Value where
  name := name
  decode := decodeHex tryFromHex
  fallback := some default

/-- `Serialize for AsHex<T>` of a named field. -/
def hexEntry (name text : String) : String × Json := (name, .string text)

def hashHex (hash : Hash) : Json := .string (bytesToHex hash.val)

def encodeAccessListEntry (entry : AccessListEntry) : Json :=
  .object [hexEntry "address" (bytesToHex entry.address.val),
    ("storageKeys", .array (entry.storageKeys.map hashHex))]

def entryAddressField : StructField Address := hexField "address" (arrayTryFromHex 20)

def storageKeysField : StructField (List Hash) where
  name := "storageKeys"
  decode := decodeVec (decodeHex (arrayTryFromHex 32))

def decodeAccessListEntry : Json → Except JsonError AccessListEntry :=
  decodeStruct "struct JsonRpcAccessListEntry" [entryAddressField.check, storageKeysField.check]
    fun entries => do
      let address ← entryAddressField.read entries
      let storageKeys ← storageKeysField.read entries
      return { address, storageKeys }

def encodeAuthorization (authorization : SetCodeAuthorization) : Json :=
  .object [hexEntry "chainId" (u256ToHex authorization.chainId),
    hexEntry "address" (bytesToHex authorization.address.val),
    hexEntry "nonce" (u64ToHex authorization.nonce),
    hexEntry "yParity" (u8ToHex authorization.yParity),
    hexEntry "r" (u256ToHex authorization.r),
    hexEntry "s" (u256ToHex authorization.s)]

def authorizationChainIdField : StructField U256 := hexField "chainId" u256TryFromHex

def yParityField : StructField UInt8 := hexField "yParity" u8TryFromHex

def nonceField : StructField UInt64 := hexField "nonce" u64TryFromHex

def rField : StructField U256 := hexField "r" u256TryFromHex

def sField : StructField U256 := hexField "s" u256TryFromHex

def decodeAuthorization : Json → Except JsonError SetCodeAuthorization :=
  decodeStruct "struct JsonRpcSetCodeAuthorization"
    [authorizationChainIdField.check, entryAddressField.check, nonceField.check,
      yParityField.check, rField.check, sField.check]
    fun entries => do
      let chainId ← authorizationChainIdField.read entries
      let address ← entryAddressField.read entries
      let nonce ← nonceField.read entries
      let yParity ← yParityField.read entries
      let r ← rField.read entries
      let s ← sField.read entries
      return { chainId, address, nonce, yParity, r, s }

structure JsonRpcTransaction where
  transactionType : TransactionType
  chainId : U256
  nonce : UInt64
  gasPrice : U256
  gas : UInt64
  toAddress : Option Address
  value : U256
  input : Bytes
  accessList : List AccessListEntry
  maxPriorityFeePerGas : U256
  maxFeePerGas : U256
  blobVersionedHashes : List Hash
  maxFeePerBlobGas : U256
  authorizationList : List SetCodeAuthorization
  v : U256
  r : U256
  s : U256
deriving DecidableEq

def typeField : StructField TransactionType := hexField "type" transactionTypeTryFromHex

def chainIdField : StructField U256 := hexFieldOr "chainId" u256TryFromHex 0

def gasPriceField : StructField U256 := hexField "gasPrice" u256TryFromHex

def gasField : StructField UInt64 := hexField "gas" u64TryFromHex

def toField : StructField (Option Address) where
  name := "to"
  decode := decodeOption (decodeHex (arrayTryFromHex 20))
  fallback := some none

def valueField : StructField U256 := hexField "value" u256TryFromHex

def inputField : StructField Bytes := hexField "input" bytesTryFromHex

def accessListField : StructField (List AccessListEntry) where
  name := "accessList"
  decode := decodeVec decodeAccessListEntry
  fallback := some []

def maxPriorityFeePerGasField : StructField U256 :=
  hexFieldOr "maxPriorityFeePerGas" u256TryFromHex 0

def maxFeePerGasField : StructField U256 := hexFieldOr "maxFeePerGas" u256TryFromHex 0

def blobVersionedHashesField : StructField (List Hash) where
  name := "blobVersionedHashes"
  decode := deserializeNull (decodeVec (decodeHex (arrayTryFromHex 32))) []
  fallback := some []

def maxFeePerBlobGasField : StructField U256 where
  name := "maxFeePerBlobGas"
  decode := deserializeNull (decodeHex u256TryFromHex) 0
  fallback := some 0

def authorizationListField : StructField (List SetCodeAuthorization) where
  name := "authorizationList"
  decode := decodeVec decodeAuthorization
  fallback := some []

def vField : StructField U256 := hexField "v" u256TryFromHex

def jsonRpcTransactionFields : List FieldCheck :=
  [typeField.check, chainIdField.check, nonceField.check, gasPriceField.check, gasField.check,
    toField.check, valueField.check, inputField.check, accessListField.check,
    maxPriorityFeePerGasField.check, maxFeePerGasField.check, blobVersionedHashesField.check,
    maxFeePerBlobGasField.check, authorizationListField.check, vField.check, rField.check,
    sField.check]

def buildJsonRpcTransaction (entries : List (String × Json)) :
    Except JsonError JsonRpcTransaction := do
  let transactionType ← typeField.read entries
  let chainId ← chainIdField.read entries
  let nonce ← nonceField.read entries
  let gasPrice ← gasPriceField.read entries
  let gas ← gasField.read entries
  let toAddress ← toField.read entries
  let value ← valueField.read entries
  let input ← inputField.read entries
  let accessList ← accessListField.read entries
  let maxPriorityFeePerGas ← maxPriorityFeePerGasField.read entries
  let maxFeePerGas ← maxFeePerGasField.read entries
  let blobVersionedHashes ← blobVersionedHashesField.read entries
  let maxFeePerBlobGas ← maxFeePerBlobGasField.read entries
  let authorizationList ← authorizationListField.read entries
  let v ← vField.read entries
  let r ← rField.read entries
  let s ← sField.read entries
  return {
    transactionType, chainId, nonce, gasPrice, gas, toAddress, value, input, accessList,
    maxPriorityFeePerGas, maxFeePerGas, blobVersionedHashes, maxFeePerBlobGas,
    authorizationList, v, r, s }

/-- The derived `Deserialize for JsonRpcTransaction`. -/
def JsonRpcTransaction.deserialize : Json → Except JsonError JsonRpcTransaction :=
  decodeStruct "struct JsonRpcTransaction" jsonRpcTransactionFields buildJsonRpcTransaction

/-- `TryFrom<JsonRpcTransaction> for Transaction`. -/
def Transaction.tryFrom (value : JsonRpcTransaction) : Except TransactionError Transaction := do
  let tx : Transaction := {
    transactionType := value.transactionType
    nonce := value.nonce
    gasPrice := value.gasPrice
    gasLimit := value.gas
    toAddress := value.toAddress
    value := value.value
    data := value.input
    yParity := value.v
    r := value.r
    s := value.s
    chainId := value.chainId
    maxPriorityFeePerGas := value.maxPriorityFeePerGas
    maxFeePerGas := value.maxFeePerGas
    accessList := value.accessList
    maxFeePerBlobGas := value.maxFeePerBlobGas
    blobVersionedHashes := value.blobVersionedHashes
    authorizationList := value.authorizationList
  }
  Transaction.isValid tx
  return tx

/-- `From<Transaction> for JsonRpcTransaction`. -/
def JsonRpcTransaction.from (value : Transaction) : JsonRpcTransaction where
  transactionType := value.transactionType
  nonce := value.nonce
  gasPrice := value.gasPrice
  gas := value.gasLimit
  toAddress := value.toAddress
  value := value.value
  input := value.data
  v := value.yParity
  r := value.r
  s := value.s
  chainId := value.chainId
  maxPriorityFeePerGas := value.maxPriorityFeePerGas
  maxFeePerGas := value.maxFeePerGas
  accessList := value.accessList
  maxFeePerBlobGas := value.maxFeePerBlobGas
  blobVersionedHashes := value.blobVersionedHashes
  authorizationList := value.authorizationList

/-- `#[serde(try_from = "JsonRpcTransaction")]`. -/
def Transaction.deserialize (json : Json) : Except JsonError Transaction := do
  let value ← JsonRpcTransaction.deserialize json
  (Transaction.tryFrom value).mapError fun error => .custom (transactionErrorMessage error)

/-- A recipient with `skip_serializing_if = "RlpNil::is_none"`. -/
def recipientEntry : Option Address → List (String × Json)
  | some address => [hexEntry "to" (bytesToHex address.val)]
  | none => []

def LegacyTx.entries (tx : LegacyTx) : List (String × Json) :=
  [hexEntry "nonce" (u64ToHex tx.nonce), hexEntry "gasPrice" (u256ToHex tx.gasPrice),
    hexEntry "gas" (u64ToHex tx.gasLimit)] ++
  recipientEntry tx.toAddress ++
  [hexEntry "value" (u256ToHex tx.value), hexEntry "input" (bytesToHex tx.data),
    hexEntry "v" (u256ToHex tx.w), hexEntry "r" (u256ToHex tx.r),
    hexEntry "s" (u256ToHex tx.s)]

def AccessListTx.entries (tx : AccessListTx) : List (String × Json) :=
  [hexEntry "chainId" (u256ToHex tx.chainId), hexEntry "nonce" (u64ToHex tx.nonce),
    hexEntry "gasPrice" (u256ToHex tx.gasPrice), hexEntry "gas" (u64ToHex tx.gasLimit)] ++
  recipientEntry tx.toAddress ++
  [hexEntry "value" (u256ToHex tx.value), hexEntry "input" (bytesToHex tx.data),
    ("accessList", .array (tx.accessList.map encodeAccessListEntry)),
    hexEntry "v" (u256ToHex tx.yParity), hexEntry "r" (u256ToHex tx.r),
    hexEntry "s" (u256ToHex tx.s)]

def DynamicFeeTx.entries (tx : DynamicFeeTx) : List (String × Json) :=
  [hexEntry "chainId" (u256ToHex tx.chainId), hexEntry "nonce" (u64ToHex tx.nonce),
    hexEntry "maxPriorityFeePerGas" (u256ToHex tx.maxPriorityFeePerGas),
    hexEntry "maxFeePerGas" (u256ToHex tx.maxFeePerGas),
    hexEntry "gas" (u64ToHex tx.gasLimit)] ++
  recipientEntry tx.toAddress ++
  [hexEntry "value" (u256ToHex tx.value), hexEntry "input" (bytesToHex tx.data),
    ("accessList", .array (tx.accessList.map encodeAccessListEntry)),
    hexEntry "v" (u256ToHex tx.yParity), hexEntry "r" (u256ToHex tx.r),
    hexEntry "s" (u256ToHex tx.s)]

def BlobTx.entries (tx : BlobTx) : List (String × Json) :=
  [hexEntry "chainId" (u256ToHex tx.chainId), hexEntry "nonce" (u64ToHex tx.nonce),
    hexEntry "maxPriorityFeePerGas" (u256ToHex tx.maxPriorityFeePerGas),
    hexEntry "maxFeePerGas" (u256ToHex tx.maxFeePerGas),
    hexEntry "gas" (u64ToHex tx.gasLimit),
    hexEntry "to" (bytesToHex tx.toAddress.val),
    hexEntry "value" (u256ToHex tx.value), hexEntry "input" (bytesToHex tx.data),
    ("accessList", .array (tx.accessList.map encodeAccessListEntry)),
    hexEntry "maxFeePerBlobGas" (u256ToHex tx.maxFeePerBlobGas),
    ("blobVersionedHashes", .array (tx.blobVersionedHashes.map hashHex)),
    hexEntry "v" (u256ToHex tx.yParity), hexEntry "r" (u256ToHex tx.r),
    hexEntry "s" (u256ToHex tx.s)]

def SetCodeTx.entries (tx : SetCodeTx) : List (String × Json) :=
  [hexEntry "chainId" (u256ToHex tx.chainId), hexEntry "nonce" (u64ToHex tx.nonce),
    hexEntry "maxPriorityFeePerGas" (u256ToHex tx.maxPriorityFeePerGas),
    hexEntry "maxFeePerGas" (u256ToHex tx.maxFeePerGas),
    hexEntry "gas" (u64ToHex tx.gasLimit),
    hexEntry "to" (bytesToHex tx.toAddress.val),
    hexEntry "value" (u256ToHex tx.value), hexEntry "input" (bytesToHex tx.data),
    ("accessList", .array (tx.accessList.map encodeAccessListEntry)),
    ("authorizationList", .array (tx.authorizationList.map encodeAuthorization)),
    hexEntry "v" (u256ToHex tx.yParity), hexEntry "r" (u256ToHex tx.r),
    hexEntry "s" (u256ToHex tx.s)]

/-- `TransactionWithType`, whose second field is flattened into the first's object. -/
def withType (transactionType : TransactionType) (entries : List (String × Json)) : Json :=
  .object (hexEntry "type" (transactionTypeToHex transactionType) :: entries)

/-- One arm of `Serialize for JsonRpcTransaction`. The conversion error would panic in the
source; it cannot occur, since the transaction has been found valid. -/
def serializeLayout {Layout : Type} (transactionType : TransactionType)
    (entries : Layout → List (String × Json)) :
    Except TransactionError Layout → Except JsonError Json
  | .ok layout => .ok (withType transactionType (entries layout))
  | .error error => .error (.custom (transactionErrorMessage error))

/-- `Serialize for JsonRpcTransaction`. -/
def JsonRpcTransaction.serialize (value : JsonRpcTransaction) : Except JsonError Json := do
  let tx ← (Transaction.tryFrom value).mapError fun error =>
    JsonError.custom (transactionErrorMessage error)
  match value.transactionType with
  | .legacy => serializeLayout .legacy LegacyTx.entries (LegacyTx.tryFrom tx)
  | .accessList => serializeLayout .accessList AccessListTx.entries (AccessListTx.tryFrom tx)
  | .dynamicFee => serializeLayout .dynamicFee DynamicFeeTx.entries (DynamicFeeTx.tryFrom tx)
  | .blob => serializeLayout .blob BlobTx.entries (BlobTx.tryFrom tx)
  | .setCode => serializeLayout .setCode SetCodeTx.entries (SetCodeTx.tryFrom tx)

/-- `#[serde(into = "JsonRpcTransaction")]`. -/
def Transaction.serialize (tx : Transaction) : Except JsonError Json :=
  JsonRpcTransaction.serialize (JsonRpcTransaction.from tx)

section RoundTrip

variable {Value : Type}

theorem decode_hex_string {tryFromHex : String → Except ParseHexError Value} {text : String}
    {value : Value} (parsed : tryFromHex text = .ok value) :
    decodeHex tryFromHex (.string text) = .ok value := by
  change (tryFromHex text).mapError _ = _
  rw [parsed]
  rfl

theorem decode_option_string {tryFromHex : String → Except ParseHexError Value} {text : String}
    {value : Value} (parsed : tryFromHex text = .ok value) :
    decodeOption (decodeHex tryFromHex) (.string text) = .ok (some value) := by
  change some <$> decodeHex tryFromHex (.string text) = _
  rw [decode_hex_string parsed]
  rfl

end RoundTrip

theorem decode_hashes (hashes : List Hash) :
    decodeVec (decodeHex (arrayTryFromHex 32)) (.array (hashes.map hashHex)) = .ok hashes :=
  decode_vec_round_trip hashes fun hash _ =>
    decode_hex_string (array_try_from_hex_to_hex hash)

theorem access_list_entry_round_trip (entry : AccessListEntry) :
    decodeAccessListEntry (encodeAccessListEntry entry) = .ok entry := by
  have address : entryAddressField.decode (.string (bytesToHex entry.address.val)) =
      .ok entry.address := decode_hex_string (array_try_from_hex_to_hex entry.address)
  have keys : storageKeysField.decode (.array (entry.storageKeys.map hashHex)) =
      .ok entry.storageKeys := decode_hashes entry.storageKeys
  have visited : visitEntries [entryAddressField.check, storageKeysField.check] []
      [hexEntry "address" (bytesToHex entry.address.val),
        ("storageKeys", .array (entry.storageKeys.map hashHex))] = .ok () := by
    apply visit_field entryAddressField rfl (by decide) address
    apply visit_field storageKeysField rfl (by decide) keys
    rfl
  unfold decodeAccessListEntry encodeAccessListEntry
  rw [decode_struct_object visited, entryAddressField.read_written rfl address,
    storageKeysField.read_written rfl keys]
  rfl

theorem decode_access_list (entries : List AccessListEntry) :
    accessListField.decode (.array (entries.map encodeAccessListEntry)) = .ok entries :=
  decode_vec_round_trip entries fun entry _ => access_list_entry_round_trip entry

theorem decode_kind (transactionType : TransactionType) :
    decodeHex transactionTypeTryFromHex (.string (transactionTypeToHex transactionType)) =
      .ok transactionType :=
  decode_hex_string (transaction_type_try_from_hex_to_hex transactionType)

theorem decode_u64 (value : UInt64) :
    decodeHex u64TryFromHex (.string (u64ToHex value)) = .ok value :=
  decode_hex_string (u64_try_from_hex_to_hex value)

theorem decode_u256 (value : U256) :
    decodeHex u256TryFromHex (.string (u256ToHex value)) = .ok value :=
  decode_hex_string (u256_try_from_hex_to_hex value)

theorem decode_bytes (bytes : Bytes) :
    decodeHex bytesTryFromHex (.string (bytesToHex bytes)) = .ok bytes :=
  decode_hex_string (bytes_try_from_hex_to_hex bytes)

theorem decode_recipient (address : Address) :
    toField.decode (.string (bytesToHex address.val)) = .ok (some address) :=
  decode_option_string (array_try_from_hex_to_hex address)

theorem visit_recipient {seen : List String} {rest : List (String × Json)}
    (recipient : Option Address) (unseen : "to" ∉ seen)
    (later : visitEntries jsonRpcTransactionFields ("to" :: seen) rest = .ok ()) :
    visitEntries jsonRpcTransactionFields seen (recipientEntry recipient ++ rest) = .ok () := by
  cases recipient with
  | none => exact visit_entries_seen_mono (fun _ member => List.mem_cons_of_mem _ member) later
  | some address => exact visit_field toField rfl unseen (decode_recipient address) later

theorem read_recipient (front back : List (String × Json)) (recipient : Option Address)
    (before : front.lookup "to" = none) (after : back.lookup "to" = none) :
    toField.read (front ++ recipientEntry recipient ++ back) = .ok recipient := by
  cases recipient with
  | none =>
      apply toField.read_default _ rfl
      change (front ++ [] ++ back).lookup "to" = none
      rw [List.append_nil, List.lookup_append, before, after]
      rfl
  | some address =>
      apply toField.read_written _ (decode_recipient address)
      change (front ++ [hexEntry "to" (bytesToHex address.val)] ++ back).lookup "to" = _
      rw [List.lookup_append, List.lookup_append, before]
      rfl

theorem visit_legacy (tx : LegacyTx) :
    visitEntries jsonRpcTransactionFields []
      (hexEntry "type" (transactionTypeToHex .legacy) :: LegacyTx.entries tx) = .ok () := by
  apply visit_field typeField rfl (by decide) (decode_kind _)
  apply visit_field nonceField rfl (by decide) (decode_u64 _)
  apply visit_field gasPriceField rfl (by decide) (decode_u256 _)
  apply visit_field gasField rfl (by decide) (decode_u64 _)
  apply visit_recipient tx.toAddress (by decide)
  apply visit_field valueField rfl (by decide) (decode_u256 _)
  apply visit_field inputField rfl (by decide) (decode_bytes _)
  apply visit_field vField rfl (by decide) (decode_u256 _)
  apply visit_field rField rfl (by decide) (decode_u256 _)
  apply visit_field sField rfl (by decide) (decode_u256 _)
  rfl

theorem build_legacy (tx : LegacyTx) :
    buildJsonRpcTransaction
        (hexEntry "type" (transactionTypeToHex .legacy) :: LegacyTx.entries tx) =
      .ok (JsonRpcTransaction.from tx.into) := by
  obtain ⟨nonce, gasPrice, gasLimit, recipient, value, data, w, r, s⟩ := tx
  have toRead : toField.read (hexEntry "type" (transactionTypeToHex .legacy) ::
      LegacyTx.entries ⟨nonce, gasPrice, gasLimit, recipient, value, data, w, r, s⟩) =
        .ok recipient :=
    read_recipient [_, _, _, _] _ recipient rfl rfl
  unfold buildJsonRpcTransaction
  rw [toRead]
  -- The lookups compute once it is known whether the recipient has been written.
  cases recipient
  all_goals
    rw [typeField.read_written rfl (decode_kind _), chainIdField.read_default rfl rfl,
      nonceField.read_written rfl (decode_u64 _), gasPriceField.read_written rfl (decode_u256 _),
      gasField.read_written rfl (decode_u64 _), valueField.read_written rfl (decode_u256 _),
      inputField.read_written rfl (decode_bytes _), accessListField.read_default rfl rfl,
      maxPriorityFeePerGasField.read_default rfl rfl, maxFeePerGasField.read_default rfl rfl,
      blobVersionedHashesField.read_default rfl rfl, maxFeePerBlobGasField.read_default rfl rfl,
      authorizationListField.read_default rfl rfl, vField.read_written rfl (decode_u256 _),
      rField.read_written rfl (decode_u256 _), sField.read_written rfl (decode_u256 _)]
    rfl

theorem visit_access_list (tx : AccessListTx) :
    visitEntries jsonRpcTransactionFields []
      (hexEntry "type" (transactionTypeToHex .accessList) :: AccessListTx.entries tx) =
        .ok () := by
  apply visit_field typeField rfl (by decide) (decode_kind _)
  apply visit_field chainIdField rfl (by decide) (decode_u256 _)
  apply visit_field nonceField rfl (by decide) (decode_u64 _)
  apply visit_field gasPriceField rfl (by decide) (decode_u256 _)
  apply visit_field gasField rfl (by decide) (decode_u64 _)
  apply visit_recipient tx.toAddress (by decide)
  apply visit_field valueField rfl (by decide) (decode_u256 _)
  apply visit_field inputField rfl (by decide) (decode_bytes _)
  apply visit_field accessListField rfl (by decide) (decode_access_list _)
  apply visit_field vField rfl (by decide) (decode_u256 _)
  apply visit_field rField rfl (by decide) (decode_u256 _)
  apply visit_field sField rfl (by decide) (decode_u256 _)
  rfl

theorem build_access_list (tx : AccessListTx) :
    buildJsonRpcTransaction
        (hexEntry "type" (transactionTypeToHex .accessList) :: AccessListTx.entries tx) =
      .ok (JsonRpcTransaction.from tx.into) := by
  obtain ⟨chainId, nonce, gasPrice, gasLimit, recipient, value, data, accessList, yParity, r,
    s⟩ := tx
  have toRead : toField.read (hexEntry "type" (transactionTypeToHex .accessList) ::
      AccessListTx.entries ⟨chainId, nonce, gasPrice, gasLimit, recipient, value, data,
        accessList, yParity, r, s⟩) = .ok recipient :=
    read_recipient [_, _, _, _, _] _ recipient rfl rfl
  unfold buildJsonRpcTransaction
  rw [toRead]
  cases recipient
  all_goals
    rw [typeField.read_written rfl (decode_kind _), chainIdField.read_written rfl (decode_u256 _),
      nonceField.read_written rfl (decode_u64 _), gasPriceField.read_written rfl (decode_u256 _),
      gasField.read_written rfl (decode_u64 _), valueField.read_written rfl (decode_u256 _),
      inputField.read_written rfl (decode_bytes _),
      accessListField.read_written rfl (decode_access_list _),
      maxPriorityFeePerGasField.read_default rfl rfl, maxFeePerGasField.read_default rfl rfl,
      blobVersionedHashesField.read_default rfl rfl, maxFeePerBlobGasField.read_default rfl rfl,
      authorizationListField.read_default rfl rfl, vField.read_written rfl (decode_u256 _),
      rField.read_written rfl (decode_u256 _), sField.read_written rfl (decode_u256 _)]
    rfl

theorem try_from_from {tx : Transaction} (valid : Transaction.isValid tx = .ok ()) :
    Transaction.tryFrom (JsonRpcTransaction.from tx) = .ok tx := by
  change (Transaction.isValid tx >>= fun _ => Except.ok tx) = _
  rw [valid]
  rfl

theorem deserialize_layout {transactionType : TransactionType}
    {entries : List (String × Json)} {tx : Transaction}
    (visited : visitEntries jsonRpcTransactionFields []
      (hexEntry "type" (transactionTypeToHex transactionType) :: entries) = .ok ())
    (built : buildJsonRpcTransaction
      (hexEntry "type" (transactionTypeToHex transactionType) :: entries) =
        .ok (JsonRpcTransaction.from tx))
    (valid : Transaction.isValid tx = .ok ()) :
    Transaction.deserialize (withType transactionType entries) = .ok tx := by
  unfold Transaction.deserialize JsonRpcTransaction.deserialize withType
  rw [decode_struct_object visited, built]
  change (Transaction.tryFrom (JsonRpcTransaction.from tx)).mapError _ = _
  rw [try_from_from valid]
  rfl

/-- `gasPrice` has no default, so an object without it is refused. -/
theorem deserialize_without_gas_price {entries : List (String × Json)}
    (absent : entries.lookup "gasPrice" = none) (tx : Transaction) :
    Transaction.deserialize (.object entries) ≠ .ok tx := by
  intro read
  have missing := gasPriceField.read_missing absent rfl
  obtain ⟨value, struct, -⟩ := bind_eq_ok.mp read
  obtain ⟨-, -, built⟩ := bind_eq_ok.mp struct
  obtain ⟨transactionType, -, built⟩ := bind_eq_ok.mp built
  obtain ⟨chainId, -, built⟩ := bind_eq_ok.mp built
  obtain ⟨nonce, -, built⟩ := bind_eq_ok.mp built
  obtain ⟨gasPrice, present, -⟩ := bind_eq_ok.mp built
  rw [missing] at present
  cases present

theorem serialize_valid {tx : Transaction} (valid : Transaction.isValid tx = .ok ()) :
    Transaction.serialize tx =
      match tx.transactionType with
      | .legacy => serializeLayout .legacy LegacyTx.entries (LegacyTx.tryFrom tx)
      | .accessList => serializeLayout .accessList AccessListTx.entries (AccessListTx.tryFrom tx)
      | .dynamicFee => serializeLayout .dynamicFee DynamicFeeTx.entries (DynamicFeeTx.tryFrom tx)
      | .blob => serializeLayout .blob BlobTx.entries (BlobTx.tryFrom tx)
      | .setCode => serializeLayout .setCode SetCodeTx.entries (SetCodeTx.tryFrom tx) := by
  unfold Transaction.serialize JsonRpcTransaction.serialize
  rw [try_from_from valid]
  rfl

/-- A layout whose entries have no gas price cannot be read back. -/
theorem serialize_layout_refused {Layout : Type} {transactionType : TransactionType}
    {entries : Layout → List (String × Json)}
    (absent : ∀ layout, (entries layout).lookup "gasPrice" = none)
    {layout : Except TransactionError Layout} {json : Json}
    (written : serializeLayout transactionType entries layout = .ok json) (tx : Transaction) :
    Transaction.deserialize json ≠ .ok tx := by
  cases layout with
  | error error => cases written
  | ok layout =>
      cases written
      apply deserialize_without_gas_price
      exact absent layout

/-- Of the valid transactions, those with a gas price in their layout are read back from
their JSON form with the unused fields reset, and no other. -/
theorem transaction_json_round_trip_iff (tx : Transaction)
    (valid : Transaction.isValid tx = .ok ()) :
    (∃ json, Transaction.serialize tx = .ok json ∧
      Transaction.deserialize json = .ok (resetUnused tx)) ↔
    tx.transactionType = .legacy ∨ tx.transactionType = .accessList := by
  rw [serialize_valid valid]
  obtain ⟨kind, chainId, nonce, gasPrice, gasLimit, recipient, value, data, accessList, feeCap,
    tipCap, hashes, blobFeeCap, authorizations, yParity, r, s⟩ := tx
  cases kind with
  | legacy =>
      have read := deserialize_layout
        (visit_legacy ⟨nonce, gasPrice, gasLimit, recipient, value, data, yParity, r, s⟩)
        (build_legacy ⟨nonce, gasPrice, gasLimit, recipient, value, data, yParity, r, s⟩) rfl
      exact ⟨fun _ => .inl rfl, fun _ => ⟨_, rfl, read⟩⟩
  | accessList =>
      have read := deserialize_layout
        (visit_access_list ⟨chainId, nonce, gasPrice, gasLimit, recipient, value, data,
          accessList, yParity, r, s⟩)
        (build_access_list ⟨chainId, nonce, gasPrice, gasLimit, recipient, value, data,
          accessList, yParity, r, s⟩) rfl
      exact ⟨fun _ => .inr rfl, fun _ => ⟨_, rfl, read⟩⟩
  | dynamicFee =>
      have absent : ∀ layout, (DynamicFeeTx.entries layout).lookup "gasPrice" = none := by
        rintro ⟨chainId, nonce, tipCap, feeCap, gasLimit, recipient, rest⟩
        cases recipient <;> rfl
      constructor
      · rintro ⟨json, written, read⟩
        exact absurd read (serialize_layout_refused absent written _)
      · simp
  | blob =>
      constructor
      · rintro ⟨json, written, read⟩
        exact absurd read (serialize_layout_refused (fun _ => rfl) written _)
      · simp
  | setCode =>
      constructor
      · rintro ⟨json, written, read⟩
        exact absurd read (serialize_layout_refused (fun _ => rfl) written _)
      · simp

theorem access_list_transaction_read_back :
    let tx : Transaction :=
      { transactionType := .accessList, chainId := 146, gasPrice := 7, data := [0x05],
        accessList := [⟨FixedBytes.zero 20, [FixedBytes.zero 32]⟩], maxFeePerGas := 9 }
    ∃ json, Transaction.serialize tx = .ok json ∧
      Transaction.deserialize json = .ok { tx with maxFeePerGas := 0 } :=
  (transaction_json_round_trip_iff _ rfl).mpr (.inr rfl)

theorem dynamic_fee_transaction_not_read_back :
    let tx : Transaction := { transactionType := .dynamicFee }
    Transaction.isValid tx = .ok () ∧
      ∃ json, Transaction.serialize tx = .ok json ∧
        ∀ result, Transaction.deserialize json ≠ .ok result := by
  intro tx
  refine ⟨rfl, _, rfl, ?_⟩
  intro result
  apply deserialize_without_gas_price
  rfl

end Bertha.TransactionJson
