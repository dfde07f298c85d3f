import Bertha.GethBlocks

/-!
# Encodings of receipts in Rust and Go

`TransactionReceipt::marshal` of `bertha-types/src/receipts.rs` beside geth's consensus
encoding of what `ToGethReceipt` of `go/convert/convert.go` makes of the stored message.
Rust writes the success byte for the status one only, geth for every status but zero, so
the two encodings agree exactly on the two statuses of EIP-658.
-/

namespace Bertha.ReceiptEncoding

open Bertha.BigEndian Bertha.GethBlocks Bertha.GethConvert Bertha.Headers Bertha.Rlp
open Bertha.BlockTypes (Bloom FixedBytes Hash Log PostStateOrStatus TransactionReceipt
  TransactionType)
open Bertha.RlpFields (encodeFixed encodeU64)

set_option autoImplicit false

structure JsonRpcTransactionReceipt where
  transactionType : TransactionType
  status : UInt64
  postState : Option Bytes
  cumulativeGasUsed : UInt64
  logsBloom : Bloom
  logs : List Log

/-- `From<JsonRpcTransactionReceipt> for TransactionReceipt`. -/
def fromJsonRpc (value : JsonRpcTransactionReceipt) : TransactionReceipt where
  transactionType := value.transactionType
  postStateOrStatus :=
    match value.postState with
    | some root => if sized : root.length = 32 then .postState ⟨root, sized⟩ else .status value.status
    | none => .status value.status
  cumulativeGasUsed := value.cumulativeGasUsed
  logs := value.logs

def rlpLog (log : GethLog) : Bytes :=
  encodeList [encodeBytes log.address.val, rlpFixedList log.topics, encodeBytes log.data]

def statusEncoding (receipt : GethReceipt) : Bytes :=
  if receipt.status = 0 then [] else [0x01]

def receiptRLP (receipt : GethReceipt) : Bytes :=
  encodeList [encodeBytes (statusEncoding receipt), rlpUint64 receipt.cumulativeGasUsed,
    encodeBytes receipt.bloom.val, encodeList (receipt.logs.map rlpLog)]

/-- `Receipts.EncodeIndex`, the consensus encoding of a receipt. Of a type that geth does not
know only the type byte is written. -/
def encodeIndex (receipt : GethReceipt) : Bytes :=
  if receipt.receiptType = 0 then receiptRLP receipt
  else if receipt.receiptType ∈ [1, 2, 3, 4] then receipt.receiptType :: receiptRLP receipt
  else [receipt.receiptType]

def deriveSha (libraries : HashLibraries) (receipts : List GethReceipt) : Hash :=
  libraries.trieRoot (addLeaves (indexedLeaves (receipts.map encodeIndex)))

/-- `types.CreateBloom` adds the address and the topics of each log to an empty bloom. -/
def CreatesBloom (rust : HashLibraries) (geth : GethLibraries) : Prop :=
  ∀ logs, geth.createBloom logs = logs.foldl (fun bloom log =>
    log.topics.foldl (fun bloom topic => rust.accrue bloom topic.val)
      (rust.accrue bloom log.address.val)) (FixedBytes.zero 256)

theorem receipt_rlp_length (receipt : GethReceipt) : 1 < (receiptRLP receipt).length := by
  have empty := List.length_pos_of_ne_nil (encode_list_ne_nil [])
  have status := List.length_pos_of_ne_nil (encode_bytes_ne_nil (statusEncoding receipt))
  apply Nat.lt_of_le_of_lt empty
  apply encode_list_length_lt
  simp only [List.flatten_cons, List.flatten_nil, List.length_append, List.length_nil]
  omega

theorem encode_index_eq_iff {left right : GethReceipt}
    (content : receiptRLP left = receiptRLP right) :
    encodeIndex left = encodeIndex right ↔ left.receiptType = right.receiptType := by
  constructor
  · intro same
    have long := receipt_rlp_length right
    unfold encodeIndex at same
    rw [content] at same
    generalize receiptRLP right = payload at same long
    -- the three forms differ in length, and the byte in front is the type
    by_cases leftLegacy : left.receiptType = 0 <;> by_cases rightLegacy : right.receiptType = 0
    · rw [leftLegacy, rightLegacy]
    · rw [if_pos leftLegacy, if_neg rightLegacy] at same
      have lengths := congrArg List.length same
      split_ifs at lengths <;> simp only [List.length_cons, List.length_nil] at lengths <;> omega
    · rw [if_neg leftLegacy, if_pos rightLegacy] at same
      have lengths := congrArg List.length same
      split_ifs at lengths <;> simp only [List.length_cons, List.length_nil] at lengths <;> omega
    · rw [if_neg leftLegacy, if_neg rightLegacy] at same
      have heads := congrArg List.head? same
      split_ifs at heads <;> exact Option.some.inj heads
  · intro same
    unfold encodeIndex
    rw [content, same]

theorem to_geth_log_from_types (log : Log) :
    toGethLog (ProtoBlock.Log.fromTypes log) = ⟨log.address, log.topics, log.data⟩ := by
  have topics : (log.topics.map ProtoBlock.toVec).map (bytesToFixed 32) = log.topics := by
    rw [List.map_map]
    exact (List.map_congr_left fun topic _ => bytes_to_fixed_to_vec topic).trans (List.map_id _)
  simp only [toGethLog, ProtoBlock.Log.fromTypes, bytes_to_fixed_to_vec, topics]

theorem rlp_log_eq (log : Log) :
    rlpLog (toGethLog (ProtoBlock.Log.fromTypes log)) = encodeLog log := by
  rw [to_geth_log_from_types]
  rfl

theorem receipt_type_byte (transactionType : TransactionType) :
    transactionType.toU8.toUInt64.toUInt8 = transactionType.toU8 ∧
      (transactionType.toU8 = 0 ↔ transactionType = .legacy) ∧
      (transactionType ≠ .legacy → transactionType.toU8 ∈ [1, 2, 3, 4]) := by
  cases transactionType <;> decide

/-- The items behind the status, which both encodings share. -/
def laterItems (rust : HashLibraries) (receipt : TransactionReceipt) : List Bytes :=
  [encodeU64 receipt.cumulativeGasUsed,
    encodeFixed (TransactionReceipt.logsBloom rust receipt),
    encodeList (receipt.logs.map encodeLog)]

def typePrefix (transactionType : TransactionType) : Bytes :=
  if transactionType ≠ .legacy then [transactionType.toU8] else []

section Agreement

variable {rust : HashLibraries} {geth : GethLibraries} (blooms : CreatesBloom rust geth)
include blooms

theorem encode_index_eq {receipt : TransactionReceipt} {code : UInt64}
    (status : receipt.postStateOrStatus = .status code) :
    ∃ converted, toGethReceipt geth (ProtoBlock.TransactionReceipt.fromTypes receipt) =
        .ok converted ∧
      encodeIndex converted = typePrefix receipt.transactionType ++
        encodeList (encodeBytes (if code = 0 then [] else [0x01]) :: laterItems rust receipt) := by
  obtain ⟨byte, legacy, known⟩ := receipt_type_byte receipt.transactionType
  have logs : receipt.logs.map (fun log => toGethLog (ProtoBlock.Log.fromTypes log)) =
      receipt.logs.map fun log => ⟨log.address, log.topics, log.data⟩ :=
    List.map_congr_left fun log _ => to_geth_log_from_types log
  have encodedLogs : (receipt.logs.map fun log => toGethLog (ProtoBlock.Log.fromTypes log)).map
      rlpLog = receipt.logs.map encodeLog := by
    rw [List.map_map]
    exact List.map_congr_left fun log _ => rlp_log_eq log
  have bloom : geth.createBloom
      (receipt.logs.map fun log => toGethLog (ProtoBlock.Log.fromTypes log)) =
        TransactionReceipt.logsBloom rust receipt := by
    rw [blooms, logs, List.foldl_map]
    rfl
  refine ⟨_, by
    simp only [toGethReceipt, ProtoBlock.TransactionReceipt.fromTypes, status, receiptStatus,
      ProtoBlock.PostStateOrStatus.fromTypes]
    rfl, ?_⟩
  simp only [List.map_map, Function.comp_def] at encodedLogs
  simp only [encodeIndex, receiptRLP, statusEncoding, List.map_map, Function.comp_def, byte, bloom,
    laterItems, typePrefix, rlp_uint64_eq, legacy, encodedLogs]
  by_cases isLegacy : receipt.transactionType = .legacy
  · rw [if_pos isLegacy, if_neg (not_not.mpr isLegacy)]
    rfl
  · rw [if_neg isLegacy, if_pos (known isLegacy), if_pos isLegacy]
    rfl

end Agreement

theorem marshal_eq (rust : HashLibraries) {receipt : TransactionReceipt} {code : UInt64}
    (status : receipt.postStateOrStatus = .status code) :
    TransactionReceipt.marshal rust receipt = typePrefix receipt.transactionType ++
      encodeList (encodeBytes (if code = 1 then [0x01] else []) :: laterItems rust receipt) := by
  rw [TransactionReceipt.marshal, status]
  rfl

theorem status_item_eq_iff (code : UInt64) :
    encodeBytes (if code = 0 then [] else [0x01]) = encodeBytes (if code = 1 then [0x01] else []) ↔
      code = 0 ∨ code = 1 := by
  by_cases zero : code = 0
  · subst zero
    simp
  · by_cases one : code = 1
    · subst one
      simp
    · simp only [zero, one, if_false, or_self, iff_false]
      decide

section Agreement

variable {rust : HashLibraries} {geth : GethLibraries} (blooms : CreatesBloom rust geth)
include blooms

theorem converted_encoding_iff {receipt : TransactionReceipt} {code : UInt64}
    (status : receipt.postStateOrStatus = .status code) :
    ∃ converted, toGethReceipt geth (ProtoBlock.TransactionReceipt.fromTypes receipt) =
        .ok converted ∧
      (encodeIndex converted = TransactionReceipt.marshal rust receipt ↔ code = 0 ∨ code = 1) := by
  obtain ⟨converted, converts, encoded⟩ := encode_index_eq blooms status
  refine ⟨converted, converts, ?_⟩
  rw [encoded, marshal_eq rust status, List.append_cancel_left_eq, ← status_item_eq_iff]
  constructor
  · exact @encode_list_item [] _ _ _
  · intro same
    rw [same]

theorem converted_encodings {receipts : List TransactionReceipt}
    (statuses : ∀ receipt ∈ receipts, ∃ code, receipt.postStateOrStatus = .status code ∧
      (code = 0 ∨ code = 1)) :
    ∃ converted, (receipts.map ProtoBlock.TransactionReceipt.fromTypes).mapM
        (toGethReceipt geth) = .ok converted ∧
      converted.map encodeIndex = receipts.map (TransactionReceipt.marshal rust) := by
  induction receipts with
  | nil => exact ⟨[], rfl, rfl⟩
  | cons receipt receipts inductionHypothesis =>
      obtain ⟨others, othersConvert, othersEncode⟩ := inductionHypothesis
        fun later member => statuses later (List.mem_cons_of_mem receipt member)
      obtain ⟨code, status, regular⟩ := statuses receipt List.mem_cons_self
      obtain ⟨converted, converts, agrees⟩ := converted_encoding_iff blooms status
      refine ⟨converted :: others, ?_, ?_⟩
      · rw [List.map_cons, List.mapM_cons, converts, othersConvert]
        rfl
      · rw [List.map_cons, List.map_cons, agrees.mpr regular, othersEncode]

end Agreement

/-- Rust and geth encode a receipt alike exactly if its status is zero or one, and then derive
the same root from a list of receipts. -/
theorem receipt_encodings_agree_iff (rust : HashLibraries) (geth : GethLibraries)
    (blooms : CreatesBloom rust geth) :
    (∀ (receipt : TransactionReceipt) (code : UInt64),
      receipt.postStateOrStatus = .status code →
      ∃ converted, toGethReceipt geth (ProtoBlock.TransactionReceipt.fromTypes receipt) =
          .ok converted ∧
        (encodeIndex converted = TransactionReceipt.marshal rust receipt ↔
          code = 0 ∨ code = 1)) ∧
    ∀ receipts : List TransactionReceipt,
      (∀ receipt ∈ receipts, ∃ code, receipt.postStateOrStatus = .status code ∧
        (code = 0 ∨ code = 1)) →
      ∃ converted, (receipts.map ProtoBlock.TransactionReceipt.fromTypes).mapM
          (toGethReceipt geth) = .ok converted ∧
        deriveSha rust converted =
          computeRootHash rust (TransactionReceipt.marshal rust) receipts := by
  refine ⟨fun receipt code status => converted_encoding_iff blooms status, ?_⟩
  intro receipts statuses
  obtain ⟨converted, converts, encodes⟩ := converted_encodings blooms statuses
  exact ⟨converted, converts, by rw [deriveSha, encodes, compute_root_hash_eq]⟩

def plainReceipt (status : UInt64) : JsonRpcTransactionReceipt where
  transactionType := .dynamicFee
  status
  postState := none
  cumulativeGasUsed := 21000
  logsBloom := FixedBytes.zero 256
  logs := []

theorem successful_receipt_agrees :
    let rust : HashLibraries := ⟨fun _ => default, fun bloom _ => bloom⟩
    let geth : GethLibraries := ⟨fun _ => default, fun _ => default,
      fun _ => FixedBytes.zero 256, fun _ => FixedBytes.zero 256⟩
    ∃ converted, toGethReceipt geth
        (ProtoBlock.TransactionReceipt.fromTypes (fromJsonRpc (plainReceipt 1))) = .ok converted ∧
      encodeIndex converted = TransactionReceipt.marshal rust (fromJsonRpc (plainReceipt 1)) := by
  intro rust geth
  have blooms : CreatesBloom rust geth := by
    intro logs
    induction logs with
    | nil => rfl
    | cons log logs inductionHypothesis =>
        have topics : log.topics.foldl (fun bloom topic => rust.accrue bloom topic.val)
            (rust.accrue (FixedBytes.zero 256) log.address.val) = FixedBytes.zero 256 :=
          List.foldl_fixed _
        rw [List.foldl_cons, topics]
        exact inductionHypothesis
  obtain ⟨converted, converts, agrees⟩ := (receipt_encodings_agree_iff rust geth blooms).1
    (fromJsonRpc (plainReceipt 1)) 1 rfl
  exact ⟨converted, converts, agrees.mpr (.inr rfl)⟩

/-- Status two is a failure for Rust and a success for geth. -/
theorem status_two_encodings_differ :
    let rust : HashLibraries := ⟨fun _ => default, fun bloom _ => bloom⟩
    let geth : GethLibraries := ⟨fun _ => default, fun _ => default,
      fun _ => FixedBytes.zero 256, fun _ => FixedBytes.zero 256⟩
    ∃ converted, toGethReceipt geth
        (ProtoBlock.TransactionReceipt.fromTypes (fromJsonRpc (plainReceipt 2))) = .ok converted ∧
      encodeIndex converted ≠ TransactionReceipt.marshal rust (fromJsonRpc (plainReceipt 2)) := by
  intro rust geth
  refine ⟨_, rfl, ?_⟩
  decide +kernel

end Bertha.ReceiptEncoding
