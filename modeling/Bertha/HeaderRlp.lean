import Bertha.Headers

/-!
# Reading block headers

`BlockHeader::decode` through the derived `rlp(trailing)` decoder of `RlpBlockHeader`.
The six optional fields are positional, and a missing one before a present one takes the
byte that also encodes the integer zero. So the decoder returns the written header with
every optional zero turned into a missing field, and returns the header itself exactly
when it carries no optional zero.
-/

namespace Bertha.HeaderRlp

open Bertha.BigEndian Bertha.BlockTypes Bertha.Headers Bertha.Rlp Bertha.RlpFields
open Bertha.TransactionRlp

set_option autoImplicit false

/-- The fields of `RlpBlockHeader` in order, with `RlpString` as the extra data. -/
def decodeHeaderFields (started payloadLength : Nat) : Decoder BlockHeader := do
  let parentHash ← decodeFixed 32
  let ommersHash ← decodeFixed 32
  let beneficiary ← decodeFixed 20
  let stateRoot ← decodeFixed 32
  let transactionsRoot ← decodeFixed 32
  let receiptsRoot ← decodeFixed 32
  let logsBloom ← decodeFixed 256
  let difficulty ← decodeU256
  let number ← decodeU64
  let gasLimit ← decodeU64
  let gasUsed ← decodeU64
  let timestamp ← decodeU64
  let extraData ← decodeString
  let prevRandao ← decodeFixed 32
  let nonce ← decodeFixed 8
  let baseFeePerGas ← decodeTrailing started payloadLength decodeU256
  let withdrawalsRoot ← decodeTrailing started payloadLength (decodeFixed 32)
  let blobGasUsed ← decodeTrailing started payloadLength decodeU64
  let excessBlobGas ← decodeTrailing started payloadLength decodeU64
  let parentBeaconBlockRoot ← decodeTrailing started payloadLength (decodeFixed 32)
  let requestsHash ← decodeTrailing started payloadLength (decodeFixed 32)
  return { parentHash, ommersHash, beneficiary, stateRoot, transactionsRoot, receiptsRoot,
           logsBloom, difficulty, number, gasLimit, gasUsed, timestamp, extraData, prevRandao,
           nonce, baseFeePerGas, withdrawalsRoot, blobGasUsed, excessBlobGas,
           parentBeaconBlockRoot, requestsHash }

def BlockHeader.decode : Decoder BlockHeader := decodeTrailingStruct decodeHeaderFields

/-- `BlockHeader::compute_hash`, with the hash function as a parameter. -/
def BlockHeader.computeHash (keccak256 : Bytes → Hash) (header : BlockHeader) : Hash :=
  keccak256 header.encode

private theorem minimal_be_eq_nil (value : Nat) : minimalBE value = [] ↔ value = 0 := by
  constructor
  · intro empty
    have decoded := decode_minimal_be value
    rw [empty] at decoded
    exact decoded.symm
  · intro zero
    have empty : ([] : Bytes) = minimalBE value := minimal_be_unique (by simp) zero.symm
    exact empty.symm

private theorem encode_bytes_empty_iff {content : Bytes} (short : content.length < 56) :
    encodeBytes content = [emptyStringCode] ↔ content = [] := by
  constructor
  · intro same
    exact encode_bytes_head_empty short (by rw [same]; rfl)
  · intro empty
    rw [empty]
    rfl

private theorem u256_digits (value : U256) : (minimalBE value.toNat).length < 56 := by
  have digits : (minimalBE value.toNat).length ≤ 32 :=
    minimal_be_length_le (by simpa using value.isLt)
  omega

private theorem u64_digits (value : UInt64) : (minimalBE value.toNat).length < 56 := by
  have digits : (minimalBE value.toNat).length ≤ 8 :=
    minimal_be_length_le (by simpa using value.toNat_lt)
  omega

private theorem encode_u64_eq (value : UInt64) :
    encodeU64 value = encodeBytes (minimalBE value.toNat) :=
  encode_uint_eq value.toNat (by simpa using value.toNat_lt)

theorem short_u256 (value : U256) : ShortString (encodeU256 value) :=
  ⟨_, u256_digits value, encode_u256_eq value⟩

theorem short_u64 (value : UInt64) : ShortString (encodeU64 value) :=
  ⟨_, u64_digits value, encode_u64_eq value⟩

theorem short_hash (hash : Hash) : ShortString (encodeFixed hash) :=
  ⟨hash.val, by rw [hash.property]; decide, rfl⟩

theorem encode_u256_empty_iff (value : U256) :
    encodeU256 value = [emptyStringCode] ↔ value = 0 := by
  rw [encode_u256_eq, encode_bytes_empty_iff (u256_digits value), minimal_be_eq_nil,
    ← BitVec.toNat_inj]
  rfl

theorem encode_u64_empty_iff (value : UInt64) :
    encodeU64 value = [emptyStringCode] ↔ value = 0 := by
  rw [encode_u64_eq, encode_bytes_empty_iff (u64_digits value), minimal_be_eq_nil,
    ← UInt64.toNat_inj]
  rfl

theorem encode_hash_not_empty (hash : Hash) : encodeFixed hash ≠ [emptyStringCode] := by
  intro same
  have short : hash.val.length < 56 := by rw [hash.property]; decide
  have empty := (encode_bytes_empty_iff short).mp same
  have length := hash.property
  rw [empty] at length
  simp at length

/-- The header with each optional zero as a missing field. -/
def withoutOptionalZeros (header : BlockHeader) : BlockHeader :=
  { header with
    baseFeePerGas := header.baseFeePerGas.filter (· ≠ 0)
    blobGasUsed := header.blobGasUsed.filter (· ≠ 0)
    excessBlobGas := header.excessBlobGas.filter (· ≠ 0) }

private theorem filter_u256 (field : Option U256) :
    field.filter (fun value => encodeU256 value ≠ [emptyStringCode]) =
      field.filter (· ≠ 0) := by
  simp only [ne_eq, encode_u256_empty_iff]

private theorem filter_u64 (field : Option UInt64) :
    field.filter (fun value => encodeU64 value ≠ [emptyStringCode]) =
      field.filter (· ≠ 0) := by
  simp only [ne_eq, encode_u64_empty_iff]

private theorem filter_hash (field : Option Hash) :
    field.filter (fun value => encodeFixed value ≠ [emptyStringCode]) = field := by
  cases field with
  | none => rfl
  | some hash => simp [encode_hash_not_empty]

/-- What is read back from a written header. -/
theorem reads_header (header : BlockHeader) :
    Reads BlockHeader.decode header.encode (withoutOptionalZeros header) := by
  apply reads_trailing_struct
  intro rest
  generalize total : List.length (List.flatten _) = payloadLength
  have positive : 0 < payloadLength := by
    rw [← total, List.flatten_append, List.length_append, List.flatten_cons, List.length_append]
    have first := List.length_pos_iff.mpr (encode_bytes_ne_nil header.parentHash.val)
    unfold encodeFixed
    omega
  rw [List.flatten_append]
  simp only [List.flatten_cons, List.append_assoc, List.flatten_nil, List.nil_append]
  apply (reads_fixed header.parentHash).bind_before
  apply (reads_fixed header.ommersHash).bind_before
  apply (reads_fixed header.beneficiary).bind_before
  apply (reads_fixed header.stateRoot).bind_before
  apply (reads_fixed header.transactionsRoot).bind_before
  apply (reads_fixed header.receiptsRoot).bind_before
  apply (reads_fixed header.logsBloom).bind_before
  apply (reads_u256 header.difficulty).bind_before
  apply (reads_u64 header.number).bind_before
  apply (reads_u64 header.gasLimit).bind_before
  apply (reads_u64 header.gasUsed).bind_before
  apply (reads_u64 header.timestamp).bind_before
  apply (reads_string header.extraData).bind_before
  apply (reads_fixed header.prevRandao).bind_before
  apply (reads_fixed header.nonce).bind_before
  apply reads_trailing_cons positive rfl reads_u256 short_u256
  apply reads_trailing_cons positive rfl reads_fixed short_hash
  apply reads_trailing_cons positive rfl reads_u64 short_u64
  apply reads_trailing_cons positive rfl reads_u64 short_u64
  apply reads_trailing_cons positive rfl reads_fixed short_hash
  apply reads_trailing_cons positive rfl reads_fixed short_hash
  simp only [filter_u256, filter_u64, filter_hash]
  intro _
  rfl

private theorem filter_nonzero_iff {Value : Type} [DecidableEq Value] [Zero Value]
    (field : Option Value) : field.filter (· ≠ 0) = field ↔ field ≠ some 0 := by
  cases field with
  | none => simp
  | some value => by_cases zero : value = 0 <;> simp [zero]

theorem without_optional_zeros_iff (header : BlockHeader) :
    withoutOptionalZeros header = header ↔
      header.baseFeePerGas ≠ some 0 ∧ header.blobGasUsed ≠ some 0 ∧
        header.excessBlobGas ≠ some 0 := by
  rw [← filter_nonzero_iff, ← filter_nonzero_iff, ← filter_nonzero_iff]
  constructor
  · intro same
    exact ⟨congrArg BlockHeader.baseFeePerGas same, congrArg BlockHeader.blobGasUsed same,
      congrArg BlockHeader.excessBlobGas same⟩
  · rintro ⟨baseFee, blobGas, excessGas⟩
    rw [withoutOptionalZeros, baseFee, blobGas, excessGas]

/-- A header reads back as itself, with the same hash, exactly when none of its optional
integers is a present zero. The encoding is a `Vec<u8>`, so it has at most `isizeMax`
bytes. -/
theorem header_round_trip_iff (keccak256 : Bytes → Hash) (header : BlockHeader)
    (sized : header.encode.length ≤ isizeMax) :
    (BlockHeader.decode header.encode = .ok (header, []) ∧
      ∀ decoded rest, BlockHeader.decode header.encode = .ok (decoded, rest) →
        BlockHeader.computeHash keccak256 decoded =
          BlockHeader.computeHash keccak256 header) ↔
      header.baseFeePerGas ≠ some 0 ∧ header.blobGasUsed ≠ some 0 ∧
        header.excessBlobGas ≠ some 0 := by
  unfold isizeMax at sized
  have read := reads_header header (by omega) []
  rw [List.append_nil] at read
  rw [← without_optional_zeros_iff, read]
  constructor
  · intro returned
    have pair := Except.ok.inj returned.1
    exact congrArg Prod.fst pair
  · intro same
    rw [same]
    refine ⟨rfl, ?_⟩
    intro decoded rest result
    have returned : header = decoded := congrArg Prod.fst (Except.ok.inj result)
    rw [returned]

/-- A header of the London fork with a base fee of zero. -/
def zeroBaseFeeHeader : BlockHeader where
  parentHash := FixedBytes.zero 32
  ommersHash := FixedBytes.zero 32
  beneficiary := FixedBytes.zero 20
  stateRoot := FixedBytes.zero 32
  transactionsRoot := FixedBytes.zero 32
  receiptsRoot := FixedBytes.zero 32
  logsBloom := FixedBytes.zero 256
  difficulty := 0
  number := 1
  gasLimit := 0
  gasUsed := 0
  timestamp := 0
  extraData := []
  prevRandao := FixedBytes.zero 32
  nonce := FixedBytes.zero 8
  baseFeePerGas := some 0
  withdrawalsRoot := none
  blobGasUsed := none
  excessBlobGas := none
  parentBeaconBlockRoot := none
  requestsHash := none

theorem header_round_trip_nonzero :
    let header := { zeroBaseFeeHeader with baseFeePerGas := some 7, excessBlobGas := some 3 }
    BlockHeader.decode header.encode = .ok (header, []) := by
  intro header
  have read := (header_round_trip_iff (fun _ => FixedBytes.zero 32) header
    (by decide +kernel)).mpr (by decide)
  exact read.1

theorem zero_base_fee_not_returned :
    BlockHeader.decode zeroBaseFeeHeader.encode =
        .ok ({ zeroBaseFeeHeader with baseFeePerGas := none }, []) ∧
      BlockHeader.decode zeroBaseFeeHeader.encode ≠ .ok (zeroBaseFeeHeader, []) := by
  have sized : zeroBaseFeeHeader.encode.length < 2 ^ 64 := by decide +kernel
  have read := reads_header zeroBaseFeeHeader sized []
  rw [List.append_nil] at read
  refine ⟨read, ?_⟩
  rw [read]
  intro same
  have fees := congrArg (fun result => result.1.baseFeePerGas) (Except.ok.inj same)
  exact absurd fees (by decide)

end Bertha.HeaderRlp
