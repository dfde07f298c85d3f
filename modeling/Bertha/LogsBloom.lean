import Bertha.Headers

/-!
# The bloom filter of a block

`BlockHeader::may_contain_logs` of `bertha-types/src/block_header.rs` against the filters
that `Block::to_header` and `TransactionReceipt::logs_bloom` compute. The filter library is
a parameter that adds a fixed bit pattern of its input and tests for it. Both computations
add the inputs of the logs one after another, so the filter of the header is the union of
the filters of the receipts and contains every address and topic of the block.
-/

namespace Bertha.LogsBloom

open Bertha.BigEndian Bertha.BlockTypes Bertha.Headers

set_option autoImplicit false

def bitOr (left right : Bloom) : Bloom :=
  ⟨List.zipWith (· ||| ·) left.val right.val, by simp [left.property, right.property]⟩

def bitAnd (left right : Bloom) : Bloom :=
  ⟨List.zipWith (· &&& ·) left.val right.val, by simp [left.property, right.property]⟩

/-- What `ethbloom` does with a raw input: `accrue` adds its bit pattern to the filter, and
`contains_input` looks for the pattern in it. -/
structure Ethbloom (libraries : HashLibraries) (containsInput : Bloom → Bytes → Bool)
    (pattern : Bytes → Bloom) : Prop where
  accrue : ∀ bloom input, libraries.accrue bloom input = bitOr bloom (pattern input)
  contains : ∀ bloom input,
    containsInput bloom input = true ↔ bitAnd bloom (pattern input) = pattern input

def BlockHeader.mayContainLogs (containsInput : Bloom → Bytes → Bool) (header : BlockHeader)
    (address : Option Address) (topics : List Hash) : Bool :=
  let mayContain := match address with
    | some address => true && containsInput header.logsBloom address.val
    | none => true
  topics.foldl (fun mayContain topic => mayContain && containsInput header.logsBloom topic.val)
    mayContain

def Covers (bloom bits : Bloom) : Prop := bitAnd bloom bits = bits

private theorem bloom_ext {left right : Bloom}
    (same : ∀ index, ∀ (inLeft : index < left.val.length) (inRight : index < right.val.length),
      left.val[index] = right.val[index]) : left = right :=
  Subtype.ext (List.ext_getElem (left.property.trans right.property.symm) same)

theorem bit_or_assoc (first second third : Bloom) :
    bitOr (bitOr first second) third = bitOr first (bitOr second third) := by
  apply bloom_ext
  intro index _ _
  simp [bitOr, UInt8.or_assoc]

theorem zero_bit_or (bloom : Bloom) : bitOr (FixedBytes.zero 256) bloom = bloom := by
  apply bloom_ext
  intro index _ _
  simp only [bitOr, FixedBytes.zero, List.getElem_zipWith, List.getElem_replicate, UInt8.zero_or]

private theorem byte_and_or_left (byte other bits : UInt8) (covered : byte &&& bits = bits) :
    (byte ||| other) &&& bits = bits := by
  apply UInt8.toBitVec_inj.mp
  ext bit inside
  have own := congrArg (fun value : UInt8 => value.toBitVec[bit]) covered
  simp only [UInt8.toBitVec_or, UInt8.toBitVec_and, BitVec.getElem_or, BitVec.getElem_and]
    at own ⊢
  rw [Bool.and_or_distrib_right, own]
  cases bits.toBitVec[bit] with
  | false => rw [Bool.and_false, Bool.or_false]
  | true => rw [Bool.true_or]

theorem Covers.bit_or_left {bloom bits : Bloom} (covers : Covers bloom bits) (other : Bloom) :
    Covers (bitOr bloom other) bits := by
  apply bloom_ext
  intro index inLeft inRight
  have inBloom : index < bloom.val.length := by
    rw [bloom.property, ← bits.property]
    exact inRight
  have inOther : index < other.val.length := by
    rw [other.property, ← bits.property]
    exact inRight
  have own : bloom.val[index] &&& bits.val[index] = bits.val[index] := by
    have bytes := congrArg (fun bloom : Bloom => bloom.val[index]?) covers
    simpa [bitAnd, inBloom, inRight] using bytes
  simpa [bitAnd, bitOr] using byte_and_or_left _ other.val[index] _ own

theorem covers_bit_or_right (bloom bits : Bloom) : Covers (bitOr bloom bits) bits := by
  apply bloom_ext
  intro index inLeft inRight
  have inBloom : index < bloom.val.length := by
    rw [bloom.property, ← bits.property]
    exact inRight
  have own := byte_and_or_left bits.val[index] bloom.val[index] bits.val[index] UInt8.and_self
  rw [UInt8.or_comm] at own
  simpa [bitAnd, bitOr] using own

/-- The inputs that a log adds, in order. -/
def logInputs (log : Log) : List Bytes := log.address.val :: log.topics.map Subtype.val

def receiptInputs (receipt : TransactionReceipt) : List Bytes := receipt.logs.flatMap logInputs

theorem accrue_logs_eq (libraries : HashLibraries) (bloom : Bloom) (logs : List Log) :
    logs.foldl (accrueLog libraries) bloom =
      (logs.flatMap logInputs).foldl libraries.accrue bloom := by
  induction logs generalizing bloom with
  | nil => rfl
  | cons log logs inductionHypothesis =>
      rw [List.foldl_cons, inductionHypothesis, List.flatMap_cons, List.foldl_append, logInputs,
        List.foldl_cons, List.foldl_map]
      rfl

theorem logs_bloom_eq (libraries : HashLibraries) (receipt : TransactionReceipt) :
    TransactionReceipt.logsBloom libraries receipt =
      (receiptInputs receipt).foldl libraries.accrue (FixedBytes.zero 256) :=
  accrue_logs_eq libraries _ receipt.logs

theorem header_bloom_eq (libraries : HashLibraries) (block : Block) :
    (Block.toHeader libraries block).logsBloom =
      (block.receipts.flatMap receiptInputs).foldl libraries.accrue (FixedBytes.zero 256) := by
  change block.receipts.foldl (fun bloom receipt => receipt.logs.foldl (accrueLog libraries) bloom)
    (FixedBytes.zero 256) = _
  generalize FixedBytes.zero 256 = bloom
  generalize block.receipts = receipts
  induction receipts generalizing bloom with
  | nil => rfl
  | cons receipt receipts inductionHypothesis =>
      rw [List.foldl_cons, inductionHypothesis, accrue_logs_eq, List.flatMap_cons,
        List.foldl_append]
      rfl

section Filter

variable {libraries : HashLibraries} {containsInput : Bloom → Bytes → Bool}
  {pattern : Bytes → Bloom} (ethbloom : Ethbloom libraries containsInput pattern)
include ethbloom

/-- What is added to a filter does not depend on what is in it. -/
theorem accrue_all_eq (bloom : Bloom) (inputs : List Bytes) :
    inputs.foldl libraries.accrue bloom =
      bitOr bloom (inputs.foldl libraries.accrue (FixedBytes.zero 256)) := by
  induction inputs generalizing bloom with
  | nil =>
      apply bloom_ext
      intro index _ _
      simp only [List.foldl_nil, bitOr, FixedBytes.zero, List.getElem_zipWith,
        List.getElem_replicate, UInt8.or_zero]
  | cons input inputs inductionHypothesis =>
      rw [List.foldl_cons, List.foldl_cons, inductionHypothesis, ethbloom.accrue, bit_or_assoc,
        inductionHypothesis (libraries.accrue _ input), ethbloom.accrue, zero_bit_or]

theorem covers_accrued (bloom : Bloom) {inputs : List Bytes} {input : Bytes}
    (member : input ∈ inputs) :
    Covers (inputs.foldl libraries.accrue bloom) (pattern input) := by
  induction inputs generalizing bloom with
  | nil => cases member
  | cons first inputs inductionHypothesis =>
      rw [List.foldl_cons]
      rcases List.mem_cons.mp member with rfl | later
      · rw [accrue_all_eq ethbloom, ethbloom.accrue]
        exact (covers_bit_or_right bloom (pattern input)).bit_or_left _
      · exact inductionHypothesis _ later

theorem header_contains {block : Block} {input : Bytes}
    (member : input ∈ block.receipts.flatMap receiptInputs) :
    containsInput (Block.toHeader libraries block).logsBloom input = true := by
  rw [ethbloom.contains, header_bloom_eq]
  exact covers_accrued ethbloom _ member

end Filter

theorem may_contain_logs_of_contains {containsInput : Bloom → Bytes → Bool} {header : BlockHeader}
    {address : Option Address} {topics : List Hash}
    (own : ∀ address' ∈ address, containsInput header.logsBloom address'.val = true)
    (all : ∀ topic ∈ topics, containsInput header.logsBloom topic.val = true) :
    BlockHeader.mayContainLogs containsInput header address topics = true := by
  have fold : topics.foldl
      (fun mayContain topic => mayContain && containsInput header.logsBloom topic.val) true =
        true := by
    induction topics with
    | nil => rfl
    | cons topic topics inductionHypothesis =>
        rw [List.foldl_cons, all topic List.mem_cons_self, Bool.true_and]
        exact inductionHypothesis fun later member => all later (List.mem_cons_of_mem topic member)
  cases address with
  | none => exact fold
  | some address =>
      simp only [BlockHeader.mayContainLogs, own address rfl, Bool.true_and]
      exact fold

/-- The filter of a header finds the address of every log of the block and all topics that
occur in it, and is the union of the filters of the receipts. -/
theorem bloom_no_false_negatives (libraries : HashLibraries)
    (containsInput : Bloom → Bytes → Bool) (pattern : Bytes → Bloom)
    (ethbloom : Ethbloom libraries containsInput pattern) (block : Block) :
    (∀ (address : Option Address) (topics : List Hash),
      (∀ own ∈ address, ∃ receipt ∈ block.receipts, ∃ log ∈ receipt.logs, log.address = own) →
      (∀ topic ∈ topics, ∃ receipt ∈ block.receipts, ∃ log ∈ receipt.logs, topic ∈ log.topics) →
      BlockHeader.mayContainLogs containsInput (Block.toHeader libraries block) address topics =
        true) ∧
    (Block.toHeader libraries block).logsBloom =
      (block.receipts.map (TransactionReceipt.logsBloom libraries)).foldl bitOr
        (FixedBytes.zero 256) := by
  constructor
  · intro address topics addressOccurs topicsOccur
    apply may_contain_logs_of_contains
    · intro own present
      obtain ⟨receipt, receiptMember, log, logMember, same⟩ := addressOccurs own present
      refine header_contains ethbloom (List.mem_flatMap.mpr ⟨receipt, receiptMember, ?_⟩)
      refine List.mem_flatMap.mpr ⟨log, logMember, ?_⟩
      rw [← same]
      exact List.mem_cons_self
    · intro topic member
      obtain ⟨receipt, receiptMember, log, logMember, occurs⟩ := topicsOccur topic member
      refine header_contains ethbloom (List.mem_flatMap.mpr ⟨receipt, receiptMember, ?_⟩)
      refine List.mem_flatMap.mpr ⟨log, logMember, List.mem_cons_of_mem _ ?_⟩
      exact List.mem_map_of_mem occurs
  · rw [header_bloom_eq]
    generalize FixedBytes.zero 256 = bloom
    generalize block.receipts = receipts
    induction receipts generalizing bloom with
    | nil => rfl
    | cons receipt receipts inductionHypothesis =>
        rw [List.flatMap_cons, List.foldl_append, inductionHypothesis, List.map_cons,
          List.foldl_cons, accrue_all_eq ethbloom, logs_bloom_eq]

def bloomOfBits (bits : List Nat) : Bloom :=
  ⟨(List.range 256).map fun index =>
    bits.foldl (fun byte bit =>
      if bit / 8 = 255 - index then byte ||| 1 <<< UInt8.ofNat (bit % 8) else byte) 0,
    by rw [List.length_map, List.length_range]⟩

/-- The bits that `ethbloom` takes from the hashes of the zero address and the zero topic. -/
def zeroPattern (input : Bytes) : Bloom :=
  if input = List.replicate 20 0 then bloomOfBits [896, 1975, 1665]
  else if input = List.replicate 32 0 then bloomOfBits [269, 1241, 1163]
  else bloomOfBits []

theorem bloom_finds_zero_log :
    let libraries : HashLibraries :=
      ⟨fun _ => default, fun bloom input => bitOr bloom (zeroPattern input)⟩
    let containsInput : Bloom → Bytes → Bool :=
      fun bloom input => bitAnd bloom (zeroPattern input) = zeroPattern input
    let log : Log := { address := FixedBytes.zero 20, topics := [FixedBytes.zero 32], data := [] }
    let block : Block := { receipts := [{ logs := [] }, { logs := [log] }] }
    BlockHeader.mayContainLogs containsInput (Block.toHeader libraries block)
      (some (FixedBytes.zero 20)) [FixedBytes.zero 32] = true := by
  intro libraries containsInput log block
  have ethbloom : Ethbloom libraries containsInput zeroPattern :=
    ⟨fun _ _ => rfl, fun _ _ => decide_eq_true_iff⟩
  have found := (bloom_no_false_negatives libraries containsInput zeroPattern ethbloom block).1
  apply found
  · intro own present
    cases present
    exact ⟨{ logs := [log] }, List.mem_cons_of_mem _ List.mem_cons_self, log, List.mem_cons_self,
      rfl⟩
  · intro topic member
    cases List.mem_singleton.mp member
    exact ⟨{ logs := [log] }, List.mem_cons_of_mem _ List.mem_cons_self, log, List.mem_cons_self,
      List.mem_cons_self⟩

end Bertha.LogsBloom
