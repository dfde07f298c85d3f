import Bertha.Checks
import Bertha.ReceiptEncoding

/-!
# What equal receipts mean

`checkReceipts` of `go/replay/checks.go` compares the computed receipts with the stored ones
field by field. A computed receipt that passes is the converted stored one in every field but
its type, which the function never looks at, although the type is the first byte of the
encoding that goes into the receipts root.
-/

namespace Bertha.ReceiptChecks

open Bertha.BigEndian Bertha.ChainAdapter Bertha.Checks Bertha.Conversion Bertha.GethBlocks
open Bertha.GethConvert Bertha.GoBlockDb Bertha.Headers Bertha.ReceiptEncoding
open Bertha.BlockTypes (FixedBytes Hash)

set_option autoImplicit false

theorem bytes_to_fixed_of_eq {width : Nat} {value : FixedBytes width} {bytes : Bytes}
    (same : value.val = bytes) : bytesToFixed width bytes = value := by
  rw [← same]
  exact bytes_to_fixed_to_vec value

theorem check_topics_ok {number : UInt64} {tx log index : Nat} {topics : List Hash}
    {wants : List Bytes} (lengths : topics.length = wants.length)
    (checked : checkTopics number tx log index topics wants = .ok ()) :
    wants.map (bytesToFixed 32) = topics := by
  induction topics generalizing index wants with
  | nil => rw [List.length_eq_zero_iff.mp lengths.symm, List.map_nil]
  | cons topic topics ih =>
      cases wants with
      | nil => simp at lengths
      | cons want wants =>
          simp only [checkTopics] at checked
          split_ifs at checked with different
          rw [List.map_cons, bytes_to_fixed_of_eq (not_not.mp different),
            ih (Nat.succ.inj lengths) checked]

theorem throw_bind_eq {Value Result : Type} (failure : Failure)
    (next : Value → Except Failure Result) :
    ((throw failure : Except Failure Value) >>= next) = .error failure := rfl

theorem check_log_ok {number : UInt64} {tx index : Nat} {log : GethLog} {want : ProtoBlock.Log}
    (checked : checkLog number tx index log want = .ok ()) : toGethLog want = log := by
  by_cases address : log.address.val = want.address
  · by_cases lengths : log.topics.length = want.topics.length
    · by_cases data : log.data = want.data
      · simp only [checkLog, address, lengths, data, ne_eq, not_true_eq_false, if_false,
          bind_eq_ok] at checked
        obtain ⟨⟨⟩, topics, -⟩ := checked
        rw [toGethLog, bytes_to_fixed_of_eq address, check_topics_ok lengths topics, ← data]
      · simp only [checkLog, address, lengths, data, ne_eq, not_true_eq_false, not_false_eq_true,
          if_false, if_true, bind_eq_ok] at checked
        obtain ⟨⟨⟩, -, failed⟩ := checked
        cases failed
    · simp [checkLog, address, lengths, throw_bind_eq] at checked
  · simp [checkLog, address, throw_bind_eq] at checked

theorem check_logs_ok {number : UInt64} {tx index : Nat} {logs : List GethLog}
    {wants : List ProtoBlock.Log} (lengths : logs.length = wants.length)
    (checked : checkLogs number tx index logs wants = .ok ()) : wants.map toGethLog = logs := by
  induction logs generalizing index wants with
  | nil => rw [List.length_eq_zero_iff.mp lengths.symm, List.map_nil]
  | cons log logs ih =>
      cases wants with
      | nil => simp at lengths
      | cons want wants =>
          obtain ⟨⟨⟩, first, rest⟩ := bind_eq_ok.mp checked
          rw [List.map_cons, check_log_ok first, ih (Nat.succ.inj lengths) rest]

theorem receipt_status_eq {want : ProtoBlock.TransactionReceipt} {status : UInt64}
    (read : receiptStatus want = .ok status) : getStatus want = status := by
  unfold receiptStatus at read
  unfold getStatus
  split at read <;> simp_all

theorem check_receipt_ok {geth : GethLibraries} {number : UInt64} {tx : Nat}
    {receipt : GethReceipt} {want : ProtoBlock.TransactionReceipt}
    (checked : checkReceipt geth number tx receipt want = .ok ()) :
    ∃ converted, toGethReceipt geth want = .ok converted ∧
      receipt = { converted with receiptType := receipt.receiptType } ∧
      converted.receiptType = want.transactionType.toUInt8 := by
  by_cases status : receipt.status = getStatus want
  · by_cases gas : receipt.cumulativeGasUsed = want.cumulativeGasUsed
    · by_cases lengths : receipt.logs.length = want.logs.length
      · simp only [checkReceipt, status, gas, lengths, ne_eq, not_true_eq_false, if_false,
          bind_eq_ok] at checked
        obtain ⟨⟨⟩, logsChecked, converted, converts, bloomChecked⟩ := checked
        have logs := check_logs_ok lengths logsChecked
        have conversion := map_error_eq_ok.mp converts
        obtain ⟨read, statusRead, made⟩ := bind_eq_ok.mp conversion
        cases made
        split_ifs at bloomChecked with bloom
        refine ⟨_, conversion, ?_, rfl⟩
        rw [receipt_status_eq statusRead] at status
        obtain ⟨receiptType, _, _, _, _⟩ := receipt
        simp_all
      · simp [checkReceipt, status, gas, lengths, throw_bind_eq] at checked
    · simp [checkReceipt, status, gas, throw_bind_eq] at checked
  · simp [checkReceipt, status, throw_bind_eq] at checked

theorem receipt_rlp_with_type (receipt : GethReceipt) (receiptType : UInt8) :
    receiptRLP { receipt with receiptType } = receiptRLP receipt := rfl

/-- A passing list is converted without a panic, and differs from the converted one at most
in its types. -/
theorem check_receipt_list_ok {geth : GethLibraries} {number : UInt64} {index : Nat}
    {receipts : List GethReceipt} {wants : List ProtoBlock.TransactionReceipt}
    (lengths : receipts.length = wants.length)
    (checked : checkReceiptList geth number index receipts wants = .ok ()) :
    ∃ converted, wants.mapM (toGethReceipt geth) = .ok converted ∧
      receipts.map receiptRLP = converted.map receiptRLP ∧
      converted.map (·.receiptType) = wants.map (·.transactionType.toUInt8) := by
  induction receipts generalizing index wants with
  | nil =>
      rw [List.length_eq_zero_iff.mp lengths.symm]
      exact ⟨[], rfl, rfl, rfl⟩
  | cons receipt receipts ih =>
      cases wants with
      | nil => simp at lengths
      | cons want wants =>
          obtain ⟨⟨⟩, first, rest⟩ := bind_eq_ok.mp checked
          obtain ⟨converted, converts, content, typed⟩ := check_receipt_ok first
          obtain ⟨others, othersConvert, othersContent, othersTyped⟩ :=
            ih (Nat.succ.inj lengths) rest
          refine ⟨converted :: others, ?_, ?_, ?_⟩
          · rw [List.mapM_cons, converts, othersConvert]
            rfl
          · rw [List.map_cons, List.map_cons, othersContent, content, receipt_rlp_with_type]
          · rw [List.map_cons, List.map_cons, typed, othersTyped]

theorem encode_index_list_eq_iff {left right : List GethReceipt}
    (content : left.map receiptRLP = right.map receiptRLP) :
    left.map encodeIndex = right.map encodeIndex ↔
      left.map (·.receiptType) = right.map (·.receiptType) := by
  induction left generalizing right with
  | nil => simp [List.map_eq_nil_iff.mp content.symm]
  | cons receipt receipts ih =>
      cases right with
      | nil => simp at content
      | cons other others =>
          obtain ⟨first, rest⟩ := List.cons.inj content
          rw [List.map_cons, List.map_cons, List.map_cons, List.map_cons, List.cons.injEq,
            List.cons.injEq, encode_index_eq_iff first, ih rest]

/-- The stored receipts convert, each computed one has the encoding of the converted one at
its place, and so the receipts roots are the same. -/
def SameEncodings (geth : GethLibraries) (block : ProtoBlock.Block)
    (receipts : List GethReceipt) : Prop :=
  ∃ converted, block.receipts.mapM (toGethReceipt geth) = .ok converted ∧
    receipts.map encodeIndex = converted.map encodeIndex ∧
    ∀ libraries, deriveSha libraries receipts = deriveSha libraries converted

/-- Receipts that pass the check have the encodings of the stored ones if and only if they
have their types, which the check does not compare. -/
theorem checked_receipts_encode_iff {geth : GethLibraries} {block : ProtoBlock.Block}
    {receipts : List GethReceipt} (checked : checkReceipts geth block receipts = .ok ()) :
    SameEncodings geth block receipts ↔
      receipts.map (·.receiptType) = block.receipts.map (·.transactionType.toUInt8) := by
  have lengths : receipts.length = block.receipts.length := by
    by_contra different
    simp [checkReceipts, different, throw_bind_eq] at checked
  simp only [checkReceipts, lengths, ne_eq, not_true_eq_false, if_false] at checked
  obtain ⟨converted, converts, content, typed⟩ := check_receipt_list_ok lengths checked
  rw [← typed, ← encode_index_list_eq_iff content]
  constructor
  · rintro ⟨other, otherConverts, same, -⟩
    cases converts.symm.trans otherConverts
    exact same
  · intro same
    exact ⟨converted, converts, same, fun libraries => by
      rw [ReceiptEncoding.deriveSha, ReceiptEncoding.deriveSha, same]⟩

def dynamicFeeBlock : ProtoBlock.Block :=
  { numberOnly 5 with receipts := [⟨2, some (.status 1), 21000, []⟩] }

def receiptOfType (receiptType : UInt8) : GethReceipt :=
  ⟨receiptType, 1, 21000, [], plainGeth.createBloom []⟩

theorem receipt_of_type_passes (receiptType : UInt8) :
    checkReceipts plainGeth dynamicFeeBlock [receiptOfType receiptType] = .ok () := by
  simp [checkReceipts, checkReceiptList, checkReceipt, checkLogs, dynamicFeeBlock, receiptOfType,
    getStatus, toGethReceipt, receiptStatus, Except.mapError, bind, Except.bind, pure, Except.pure]

theorem checked_receipts_encode_iff_same_type :
    checkReceipts plainGeth dynamicFeeBlock [receiptOfType 2] = .ok () ∧
      SameEncodings plainGeth dynamicFeeBlock [receiptOfType 2] := by
  have checked := receipt_of_type_passes 2
  exact ⟨checked, (checked_receipts_encode_iff checked).mpr rfl⟩

/-- A computed receipt of a legacy transaction passes for the stored one. -/
theorem legacy_receipt_passes_for_dynamic_fee :
    checkReceipts plainGeth dynamicFeeBlock [receiptOfType 0] = .ok () ∧
      ¬SameEncodings plainGeth dynamicFeeBlock [receiptOfType 0] := by
  refine ⟨receipt_of_type_passes 0, ?_⟩
  rintro ⟨converted, converts, same, -⟩
  cases converts
  have content : receiptRLP (receiptOfType 0) = receiptRLP (receiptOfType 2) :=
    receipt_rlp_with_type (receiptOfType 2) 0
  have types := (encode_index_eq_iff content).mp (List.cons.inj same).1
  exact absurd types (by decide)

end Bertha.ReceiptChecks
