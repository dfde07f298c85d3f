import Bertha.GethConvert

/-!
# Transactions of era files

`convert_transaction` and its list helpers of `genesis-parser/src/era_dir/common.rs`,
from the signed envelopes of `alloy_consensus` to the transactions that Bertha stores.
The signature value of a legacy transaction is put together in 64-bit arithmetic. Where it
fits, the stored transaction is valid and is encoded like its envelope; for the chain ids
at the end of the range the addition panics or wraps, and the transaction is lost.
-/

namespace Bertha.EraTransactions

open Bertha.BigEndian Bertha.BlockTypes Bertha.Headers Bertha.Rlp Bertha.RlpFields
open Bertha.TransactionRlp (encodeAccessListEntry encodeAuthorization Transaction.isValid
  Transaction.marshal)
open Bertha.GethConvert (rlpBigInt rlpUint64 rlpUint8 rlpUint256 rlpAddressPointer rlpFixedList
  rlp_uint64_eq rlp_uint8_eq)

set_option autoImplicit false

abbrev U128 := BitVec 128

structure Signature where
  v : Bool
  r : U256
  s : U256

structure Signed (Tx : Type) where
  tx : Tx
  signature : Signature

inductive TxKind where
  | create
  | call (address : Address)

def TxKind.intoTo : TxKind → Option Address
  | create => none
  | call address => some address

structure AccessListItem where
  address : Address
  storageKeys : List Hash

structure SignedAuthorization where
  chainId : U256
  address : Address
  nonce : UInt64
  yParity : UInt8
  r : U256
  s : U256

/-- The source calls the recipient `to`, here and below. -/
structure TxLegacy where
  chainId : Option UInt64
  nonce : UInt64
  gasPrice : U128
  gasLimit : UInt64
  toAddress : TxKind
  value : U256
  input : Bytes

structure TxEip2930 where
  chainId : UInt64
  nonce : UInt64
  gasPrice : U128
  gasLimit : UInt64
  toAddress : TxKind
  value : U256
  accessList : List AccessListItem
  input : Bytes

structure TxEip1559 where
  chainId : UInt64
  nonce : UInt64
  gasLimit : UInt64
  maxFeePerGas : U128
  maxPriorityFeePerGas : U128
  toAddress : TxKind
  value : U256
  accessList : List AccessListItem
  input : Bytes

structure TxEip4844 where
  chainId : UInt64
  nonce : UInt64
  gasLimit : UInt64
  maxFeePerGas : U128
  maxPriorityFeePerGas : U128
  toAddress : Address
  value : U256
  accessList : List AccessListItem
  blobVersionedHashes : List Hash
  maxFeePerBlobGas : U128
  input : Bytes

structure TxEip7702 where
  chainId : UInt64
  nonce : UInt64
  gasLimit : UInt64
  maxFeePerGas : U128
  maxPriorityFeePerGas : U128
  toAddress : Address
  value : U256
  accessList : List AccessListItem
  authorizationList : List SignedAuthorization
  input : Bytes

inductive TxEip4844Variant (Sidecar : Type) where
  | txEip4844 (tx : TxEip4844)
  | txEip4844WithSidecar (tx : TxEip4844) (sidecar : Sidecar)

def TxEip4844Variant.tx {Sidecar : Type} : TxEip4844Variant Sidecar → TxEip4844
  | txEip4844 tx => tx
  | txEip4844WithSidecar tx _ => tx

inductive TxEnvelope (Sidecar : Type) where
  | legacy (signed : Signed TxLegacy)
  | eip2930 (signed : Signed TxEip2930)
  | eip1559 (signed : Signed TxEip1559)
  | eip4844 (signed : Signed (TxEip4844Variant Sidecar))
  | eip7702 (signed : Signed TxEip7702)

/-- A `u64` operation with the given exact result. Out of range it panics in a build with
overflow checks and wraps in one without. -/
def arithmeticU64 (overflowChecks : Bool) (exact : Nat) : Option UInt64 :=
  if overflowChecks ∧ 2 ^ 64 ≤ exact then none else some (UInt64.ofNat exact)

def fromU64 (value : UInt64) : U256 := value.toBitVec.setWidth 256

def fromU128 (value : U128) : U256 := value.setWidth 256

def fromBool (value : Bool) : U256 := (BitVec.ofBool value).setWidth 256

def fromAlloy (value : U256) : U256 := U256.fromLeBytes (U256.toLeBytes value)

def convertAccessList (accessList : List AccessListItem) : List AccessListEntry :=
  accessList.map fun item => { address := item.address, storageKeys := item.storageKeys }

def convertAuthorization (authorization : SignedAuthorization) : SetCodeAuthorization where
  chainId := fromAlloy authorization.chainId
  address := authorization.address
  nonce := authorization.nonce
  yParity := authorization.yParity
  r := fromAlloy authorization.r
  s := fromAlloy authorization.s

def convertAuthorizationList (authorizationList : List SignedAuthorization) :
    List SetCodeAuthorization :=
  authorizationList.map convertAuthorization

/-- The signature value of EIP-155, as `convert_transaction` adds it up. -/
def legacyYParity (overflowChecks : Bool) (v : Bool) : Option UInt64 → Option UInt64
  | some chainId => do
    let doubled ← arithmeticU64 overflowChecks (chainId.toNat * 2)
    let shifted ← arithmeticU64 overflowChecks (v.toNat + doubled.toNat)
    arithmeticU64 overflowChecks (shifted.toNat + 35)
  | none => arithmeticU64 overflowChecks (v.toNat + 27)

/-- `none` stands for a panic. -/
def convertTransaction {Sidecar : Type} (overflowChecks : Bool) :
    TxEnvelope Sidecar → Option Transaction
  | .legacy ⟨tx, sig⟩ => do
    let yParity ← legacyYParity overflowChecks sig.v tx.chainId
    return {
      transactionType := .legacy
      chainId := fromU64 (tx.chainId.getD 0)
      nonce := tx.nonce
      gasPrice := fromU128 tx.gasPrice
      gasLimit := tx.gasLimit
      toAddress := tx.toAddress.intoTo
      value := fromAlloy tx.value
      data := tx.input
      accessList := []
      maxFeePerGas := 0
      maxPriorityFeePerGas := 0
      blobVersionedHashes := []
      maxFeePerBlobGas := 0
      authorizationList := []
      yParity := fromU64 yParity
      r := fromAlloy sig.r
      s := fromAlloy sig.s }
  | .eip2930 ⟨tx, sig⟩ =>
    some {
      transactionType := .accessList
      chainId := fromU64 tx.chainId
      nonce := tx.nonce
      gasPrice := fromU128 tx.gasPrice
      gasLimit := tx.gasLimit
      toAddress := tx.toAddress.intoTo
      value := fromAlloy tx.value
      data := tx.input
      accessList := convertAccessList tx.accessList
      maxFeePerGas := 0
      maxPriorityFeePerGas := 0
      blobVersionedHashes := []
      maxFeePerBlobGas := 0
      authorizationList := []
      yParity := fromBool sig.v
      r := fromAlloy sig.r
      s := fromAlloy sig.s }
  | .eip1559 ⟨tx, sig⟩ =>
    some {
      transactionType := .dynamicFee
      chainId := fromU64 tx.chainId
      nonce := tx.nonce
      gasPrice := 0
      gasLimit := tx.gasLimit
      toAddress := tx.toAddress.intoTo
      value := fromAlloy tx.value
      data := tx.input
      accessList := convertAccessList tx.accessList
      maxFeePerGas := fromU128 tx.maxFeePerGas
      maxPriorityFeePerGas := fromU128 tx.maxPriorityFeePerGas
      blobVersionedHashes := []
      maxFeePerBlobGas := 0
      authorizationList := []
      yParity := fromBool sig.v
      r := fromAlloy sig.r
      s := fromAlloy sig.s }
  | .eip4844 ⟨variant, sig⟩ =>
    let tx := variant.tx
    some {
      transactionType := .blob
      chainId := fromU64 tx.chainId
      nonce := tx.nonce
      gasPrice := 0
      gasLimit := tx.gasLimit
      toAddress := some tx.toAddress
      value := fromAlloy tx.value
      data := tx.input
      accessList := convertAccessList tx.accessList
      maxFeePerGas := fromU128 tx.maxFeePerGas
      maxPriorityFeePerGas := fromU128 tx.maxPriorityFeePerGas
      blobVersionedHashes := tx.blobVersionedHashes
      maxFeePerBlobGas := fromU128 tx.maxFeePerBlobGas
      authorizationList := []
      yParity := fromBool sig.v
      r := fromAlloy sig.r
      s := fromAlloy sig.s }
  | .eip7702 ⟨tx, sig⟩ =>
    some {
      transactionType := .setCode
      chainId := fromU64 tx.chainId
      nonce := tx.nonce
      gasPrice := 0
      gasLimit := tx.gasLimit
      toAddress := some tx.toAddress
      value := fromAlloy tx.value
      data := tx.input
      accessList := convertAccessList tx.accessList
      maxFeePerGas := fromU128 tx.maxFeePerGas
      maxPriorityFeePerGas := fromU128 tx.maxPriorityFeePerGas
      blobVersionedHashes := []
      maxFeePerBlobGas := 0
      authorizationList := convertAuthorizationList tx.authorizationList
      yParity := fromBool sig.v
      r := fromAlloy sig.r
      s := fromAlloy sig.s }

/-- The signature value that EIP-155 prescribes, without a bound. -/
def signatureValue (signed : Signed TxLegacy) : Nat :=
  match signed.tx.chainId with
  | some chainId => 35 + 2 * chainId.toNat + signed.signature.v.toNat
  | none => 27 + signed.signature.v.toNat

def rlpSignature (signature : Signature) : List Bytes :=
  [rlpBigInt signature.v.toNat, rlpUint256 signature.r, rlpUint256 signature.s]

def rlpAccessListItems (accessList : List AccessListItem) : Bytes :=
  encodeList (accessList.map fun item =>
    encodeList [encodeBytes item.address.val, rlpFixedList item.storageKeys])

def rlpSignedAuthorization (authorization : SignedAuthorization) : Bytes :=
  encodeList [rlpUint256 authorization.chainId, encodeBytes authorization.address.val,
    rlpUint64 authorization.nonce, rlpUint8 authorization.yParity, rlpUint256 authorization.r,
    rlpUint256 authorization.s]

/-- The standard encoding of a signed transaction, without a sidecar. -/
def TxEnvelope.encode2718 {Sidecar : Type} : TxEnvelope Sidecar → Bytes
  | .legacy signed =>
    let tx := signed.tx
    encodeList [rlpUint64 tx.nonce, rlpBigInt tx.gasPrice.toNat, rlpUint64 tx.gasLimit,
      rlpAddressPointer tx.toAddress.intoTo, rlpUint256 tx.value, encodeBytes tx.input,
      rlpBigInt (signatureValue signed), rlpUint256 signed.signature.r,
      rlpUint256 signed.signature.s]
  | .eip2930 ⟨tx, signature⟩ =>
    0x01 :: encodeList ([rlpUint64 tx.chainId, rlpUint64 tx.nonce, rlpBigInt tx.gasPrice.toNat,
      rlpUint64 tx.gasLimit, rlpAddressPointer tx.toAddress.intoTo, rlpUint256 tx.value,
      encodeBytes tx.input, rlpAccessListItems tx.accessList] ++ rlpSignature signature)
  | .eip1559 ⟨tx, signature⟩ =>
    0x02 :: encodeList ([rlpUint64 tx.chainId, rlpUint64 tx.nonce,
      rlpBigInt tx.maxPriorityFeePerGas.toNat, rlpBigInt tx.maxFeePerGas.toNat,
      rlpUint64 tx.gasLimit, rlpAddressPointer tx.toAddress.intoTo, rlpUint256 tx.value,
      encodeBytes tx.input, rlpAccessListItems tx.accessList] ++ rlpSignature signature)
  | .eip4844 ⟨variant, signature⟩ =>
    let tx := variant.tx
    0x03 :: encodeList ([rlpUint64 tx.chainId, rlpUint64 tx.nonce,
      rlpBigInt tx.maxPriorityFeePerGas.toNat, rlpBigInt tx.maxFeePerGas.toNat,
      rlpUint64 tx.gasLimit, encodeBytes tx.toAddress.val, rlpUint256 tx.value, encodeBytes tx.input,
      rlpAccessListItems tx.accessList, rlpBigInt tx.maxFeePerBlobGas.toNat,
      rlpFixedList tx.blobVersionedHashes] ++ rlpSignature signature)
  | .eip7702 ⟨tx, signature⟩ =>
    0x04 :: encodeList ([rlpUint64 tx.chainId, rlpUint64 tx.nonce,
      rlpBigInt tx.maxPriorityFeePerGas.toNat, rlpBigInt tx.maxFeePerGas.toNat,
      rlpUint64 tx.gasLimit, encodeBytes tx.toAddress.val, rlpUint256 tx.value, encodeBytes tx.input,
      rlpAccessListItems tx.accessList,
      encodeList (tx.authorizationList.map rlpSignedAuthorization)] ++ rlpSignature signature)

def transactionsRoot {Sidecar : Type} (libraries : HashLibraries)
    (transactions : List (TxEnvelope Sidecar)) : Hash :=
  libraries.trieRoot (addLeaves (indexedLeaves (transactions.map TxEnvelope.encode2718)))

/-- The conversion succeeds and keeps the transaction. -/
def Preserved {Sidecar : Type} (overflowChecks : Bool) (envelope : TxEnvelope Sidecar) : Prop :=
  ∃ tx, convertTransaction overflowChecks envelope = some tx ∧
    Transaction.isValid tx = .ok () ∧ Transaction.marshal tx = envelope.encode2718

/-- The signature value of a legacy transaction has at most 64 bits. -/
def SignatureValueFits {Sidecar : Type} : TxEnvelope Sidecar → Prop
  | .legacy signed => signatureValue signed < 2 ^ 64
  | _ => True

instance {Sidecar : Type} (envelope : TxEnvelope Sidecar) :
    Decidable (SignatureValueFits envelope) :=
  match envelope with
  | .legacy signed => inferInstanceAs (Decidable (signatureValue signed < 2 ^ 64))
  | .eip2930 _ | .eip1559 _ | .eip4844 _ | .eip7702 _ => inferInstanceAs (Decidable True)

theorem from_alloy_eq (value : U256) : fromAlloy value = value :=
  U256.from_le_to_le_bytes value

theorem encode_from_alloy (value : U256) : encodeU256 (fromAlloy value) = rlpUint256 value := by
  rw [from_alloy_eq]
  exact encode_u256_eq value

theorem encode_from_u64 (value : UInt64) : encodeU256 (fromU64 value) = rlpUint64 value := by
  have number : (fromU64 value).toNat = value.toNat := by
    rw [fromU64, BitVec.toNat_setWidth_of_le (by decide)]
    rfl
  rw [encode_u256_eq, number]
  rfl

theorem encode_from_u128 (value : U128) :
    encodeU256 (fromU128 value) = rlpBigInt value.toNat := by
  have number : (fromU128 value).toNat = value.toNat := by
    rw [fromU128, BitVec.toNat_setWidth_of_le (by decide)]
  rw [encode_u256_eq, number]
  rfl

theorem encode_from_bool (value : Bool) :
    encodeU256 (fromBool value) = rlpBigInt value.toNat := by
  have number : (fromBool value).toNat = value.toNat := by
    rw [fromBool, BitVec.toNat_setWidth_of_le (by decide), BitVec.toNat_ofBool]
  rw [encode_u256_eq, number]
  rfl

theorem encode_address (recipient : Option Address) :
    encodeNil encodeFixed recipient = rlpAddressPointer recipient := by
  cases recipient <;> rfl

theorem encode_access_list (accessList : List AccessListItem) :
    encodeList ((convertAccessList accessList).map encodeAccessListEntry) =
      rlpAccessListItems accessList := by
  rw [convertAccessList, List.map_map]
  rfl

theorem encode_authorization (authorization : SignedAuthorization) :
    encodeAuthorization (convertAuthorization authorization) =
      rlpSignedAuthorization authorization := by
  simp only [encodeAuthorization, convertAuthorization, encode_from_alloy,
    rlpSignedAuthorization, rlp_uint64_eq, rlp_uint8_eq, encodeFixed]

theorem encode_authorization_list (authorizationList : List SignedAuthorization) :
    encodeList ((convertAuthorizationList authorizationList).map encodeAuthorization) =
      encodeList (authorizationList.map rlpSignedAuthorization) := by
  rw [convertAuthorizationList, List.map_map]
  refine congrArg encodeList (List.map_congr_left ?_)
  intro authorization _
  rw [Function.comp_apply, encode_authorization]

theorem arithmetic_u64_add (overflowChecks : Bool) (first second : Nat) :
    ((arithmeticU64 overflowChecks first).bind fun sum =>
      arithmeticU64 overflowChecks (sum.toNat + second)) =
      arithmeticU64 overflowChecks (first + second) := by
  unfold arithmeticU64
  cases overflowChecks with
  | true =>
      by_cases large : 2 ^ 64 ≤ first
      · have total : 2 ^ 64 ≤ first + second := by omega
        rw [if_pos ⟨rfl, large⟩, if_pos ⟨rfl, total⟩]
        rfl
      · have exact : (UInt64.ofNat first).toNat = first :=
          UInt64.toNat_ofNat_of_lt' (by simpa [UInt64.size] using large)
        rw [if_neg (fun both => large both.2), Option.bind_some, exact]
  | false =>
      have wrapped : UInt64.ofNat ((UInt64.ofNat first).toNat + second) =
          UInt64.ofNat (first + second) := by
        rw [UInt64.ofNat_add, UInt64.ofNat_add, UInt64.ofNat_toNat]
      simp only [Bool.false_eq_true, false_and, if_false, Option.bind_some, wrapped]

theorem legacy_y_parity_eq (overflowChecks : Bool) (signed : Signed TxLegacy) :
    legacyYParity overflowChecks signed.signature.v signed.tx.chainId =
      arithmeticU64 overflowChecks (signatureValue signed) := by
  unfold legacyYParity signatureValue
  cases signed.tx.chainId with
  | none => rw [Nat.add_comm]
  | some chainId =>
      have inner := arithmetic_u64_add overflowChecks (chainId.toNat * 2)
        signed.signature.v.toNat
      have outer := arithmetic_u64_add overflowChecks
        (signed.signature.v.toNat + chainId.toNat * 2) 35
      have total : signed.signature.v.toNat + chainId.toNat * 2 + 35 =
          35 + 2 * chainId.toNat + signed.signature.v.toNat := by omega
      simp only [Nat.add_comm _ signed.signature.v.toNat] at inner
      rw [← inner, Option.bind_assoc, total] at outer
      exact outer

theorem arithmetic_u64_of_lt (overflowChecks : Bool) {exact : Nat} (fits : exact < 2 ^ 64) :
    ∃ value, arithmeticU64 overflowChecks exact = some value ∧ value.toNat = exact :=
  ⟨UInt64.ofNat exact, if_neg (fun both => absurd both.2 (by omega)),
    UInt64.toNat_ofNat_of_lt' fits⟩

/-- The stored legacy transaction is encoded with the computed signature value. -/
theorem convert_legacy {Sidecar : Type} {overflowChecks : Bool} {signed : Signed TxLegacy}
    {yParity : UInt64}
    (computed : arithmeticU64 overflowChecks (signatureValue signed) = some yParity) :
    ∃ tx, convertTransaction overflowChecks (.legacy signed : TxEnvelope Sidecar) = some tx ∧
      Transaction.isValid tx = .ok () ∧
      Transaction.marshal tx =
        encodeList [rlpUint64 signed.tx.nonce, rlpBigInt signed.tx.gasPrice.toNat,
          rlpUint64 signed.tx.gasLimit, rlpAddressPointer signed.tx.toAddress.intoTo,
          rlpUint256 signed.tx.value, encodeBytes signed.tx.input, rlpUint64 yParity,
          rlpUint256 signed.signature.r, rlpUint256 signed.signature.s] := by
  rw [← legacy_y_parity_eq] at computed
  refine ⟨_, by
    simp only [convertTransaction, computed]
    rfl, rfl, ?_⟩
  simp only [← encode_from_u64 yParity, ← encode_from_u128, ← encode_from_alloy,
    ← encode_address, rlp_uint64_eq]
  rfl

theorem rlp_big_int_injective {left right : Nat} (bound : left < 2 ^ 64)
    (same : rlpBigInt left = rlpBigInt right) : left = right := by
  have narrow : (minimalBE left).length ≤ 8 := minimal_be_length_le (by simpa using bound)
  have digits : minimalBE left = minimalBE right := encode_bytes_injective (by omega) same
  rw [← decode_minimal_be left, digits, decode_minimal_be]

theorem legacy_preserved_iff {Sidecar : Type} (overflowChecks : Bool) (signed : Signed TxLegacy) :
    Preserved overflowChecks (.legacy signed : TxEnvelope Sidecar) ↔
      signatureValue signed < 2 ^ 64 := by
  constructor
  · rintro ⟨tx, converts, -, encoded⟩
    cases computed : arithmeticU64 overflowChecks (signatureValue signed) with
    | none =>
        rw [convertTransaction, legacy_y_parity_eq, computed] at converts
        cases converts
    | some yParity =>
        -- Without overflow checks a wrapped value is written in place of the exact one.
        obtain ⟨stored, convertsStored, -, written⟩ := @convert_legacy Sidecar _ _ _ computed
        have own : stored = tx := Option.some.inj (convertsStored.symm.trans converts)
        rw [own, encoded] at written
        have items : rlpBigInt (signatureValue signed) = rlpUint64 yParity :=
          @encode_list_item [_, _, _, _, _, _] [_, _] _ _ written
        rw [← rlp_big_int_injective yParity.toNat_lt items.symm]
        exact yParity.toNat_lt
  · intro fits
    obtain ⟨yParity, computed, exact⟩ := arithmetic_u64_of_lt overflowChecks fits
    obtain ⟨tx, converts, valid, written⟩ := @convert_legacy Sidecar _ _ _ computed
    refine ⟨tx, converts, valid, ?_⟩
    have value : rlpUint64 yParity = rlpBigInt (signatureValue signed) := congrArg rlpBigInt exact
    rw [written, value]
    rfl

theorem preserved_iff {Sidecar : Type} (overflowChecks : Bool) (envelope : TxEnvelope Sidecar) :
    Preserved overflowChecks envelope ↔ SignatureValueFits envelope := by
  cases envelope with
  | legacy signed => exact legacy_preserved_iff overflowChecks signed
  | eip2930 signed =>
      refine iff_of_true ⟨_, rfl, rfl, ?_⟩ trivial
      rw [TxEnvelope.encode2718, rlpSignature, ← encode_from_u64]
      simp only [← encode_from_u128, ← encode_from_bool, ← encode_from_alloy, ← encode_address,
        ← encode_access_list, rlp_uint64_eq]
      rfl
  | eip1559 signed =>
      refine iff_of_true ⟨_, rfl, rfl, ?_⟩ trivial
      rw [TxEnvelope.encode2718, rlpSignature, ← encode_from_u64]
      simp only [← encode_from_u128, ← encode_from_bool, ← encode_from_alloy, ← encode_address,
        ← encode_access_list, rlp_uint64_eq]
      rfl
  | eip4844 signed =>
      refine iff_of_true ⟨_, rfl, rfl, ?_⟩ trivial
      rw [TxEnvelope.encode2718, rlpSignature, ← encode_from_u64]
      simp only [← encode_from_u128, ← encode_from_bool, ← encode_from_alloy,
        ← encode_access_list, rlp_uint64_eq]
      rfl
  | eip7702 signed =>
      refine iff_of_true ⟨_, rfl, rfl, ?_⟩ trivial
      rw [TxEnvelope.encode2718, rlpSignature, ← encode_from_u64]
      simp only [← encode_from_u128, ← encode_from_bool, ← encode_from_alloy,
        ← encode_access_list, ← encode_authorization_list, rlp_uint64_eq]
      rfl

theorem convert_transactions_marshal {Sidecar : Type} (overflowChecks : Bool)
    {envelopes : List (TxEnvelope Sidecar)}
    (fit : ∀ envelope ∈ envelopes, SignatureValueFits envelope) :
    ∃ transactions, envelopes.mapM (convertTransaction overflowChecks) = some transactions ∧
      transactions.map Transaction.marshal = envelopes.map TxEnvelope.encode2718 := by
  induction envelopes with
  | nil => exact ⟨[], rfl, rfl⟩
  | cons envelope envelopes inductionHypothesis =>
      obtain ⟨others, othersConvert, othersEncode⟩ := inductionHypothesis
        fun later member => fit later (List.mem_cons_of_mem envelope member)
      obtain ⟨tx, converts, -, encoded⟩ :=
        (preserved_iff overflowChecks envelope).mpr (fit envelope List.mem_cons_self)
      refine ⟨tx :: others, ?_, ?_⟩
      · rw [List.mapM_cons, converts, othersConvert]
        rfl
      · rw [List.map_cons, List.map_cons, encoded, othersEncode]

/-- In every build, an envelope converts to a valid transaction with the same encoding exactly
if its signature value fits 64 bits, and the block of such envelopes keeps its transactions
root. -/
theorem era_transactions_preserved_iff (Sidecar : Type) (libraries : HashLibraries)
    (overflowChecks : Bool) :
    (∀ envelope : TxEnvelope Sidecar,
      Preserved overflowChecks envelope ↔ SignatureValueFits envelope) ∧
    ∀ envelopes : List (TxEnvelope Sidecar),
      (∀ envelope ∈ envelopes, SignatureValueFits envelope) →
      ∃ transactions, envelopes.mapM (convertTransaction overflowChecks) = some transactions ∧
        ∀ block : Block, (Block.toHeader libraries { block with transactions }).transactionsRoot =
          transactionsRoot libraries envelopes := by
  refine ⟨preserved_iff overflowChecks, ?_⟩
  intro envelopes fit
  obtain ⟨transactions, converts, encoded⟩ := convert_transactions_marshal overflowChecks fit
  refine ⟨transactions, converts, ?_⟩
  intro block
  simp only [Block.toHeader, compute_root_hash_eq, encoded, transactionsRoot]

def legacyTransfer (chainId : Option UInt64) : TxEnvelope Unit :=
  .legacy ⟨⟨chainId, 0, 1000000000, 21000, .call (FixedBytes.zero 20), 1, []⟩, ⟨true, 1, 1⟩⟩

theorem mainnet_transfers_preserved :
    let libraries : HashLibraries := ⟨fun _ => default, fun bloom _ => bloom⟩
    let envelopes := [legacyTransfer (some 1), legacyTransfer none]
    (∀ envelope ∈ envelopes, SignatureValueFits envelope) ∧
      ∃ transactions, envelopes.mapM (convertTransaction true) = some transactions ∧
        (Block.toHeader libraries { transactions }).transactionsRoot =
          transactionsRoot libraries envelopes := by
  intro libraries envelopes
  have fit : ∀ envelope ∈ envelopes, SignatureValueFits envelope := by decide
  obtain ⟨transactions, converts, roots⟩ :=
    (era_transactions_preserved_iff Unit libraries true).2 envelopes fit
  exact ⟨fit, transactions, converts, roots {}⟩

/-- From the chain id `2 ^ 63` on, twice the chain id no longer fits. -/
theorem large_chain_id_not_preserved :
    let envelope := legacyTransfer (some 0x8000000000000000)
    convertTransaction true envelope = none ∧
      (convertTransaction false envelope).map (·.yParity) = some 36 ∧
      ¬ Preserved true envelope ∧ ¬ Preserved false envelope := by
  refine ⟨rfl, rfl, ?_, ?_⟩
  · rw [preserved_iff]
    decide
  · rw [preserved_iff]
    decide

end Bertha.EraTransactions
