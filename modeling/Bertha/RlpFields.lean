import Bertha.BlockTypes
import Bertha.Rlp

/-!
# RLP encodings of field types

How the integers, byte arrays, optional recipients and byte strings of `bertha-types`
are encoded: `u256.rs`, `rlp_utils.rs` and the `alloy_rlp` implementations for the
built-in types. The wrapper `AsHex` encodes as what it wraps, so it leaves no trace
here. Every encoding reads back as the value it came from.
-/

namespace Bertha.RlpFields

open Bertha.BigEndian Bertha.BlockTypes Bertha.Rlp

set_option autoImplicit false

def encodeU64 (value : UInt64) : Bytes := encodeUint value.toNat

def decodeU64 : Decoder UInt64 := UInt64.ofNat <$> decodeUint 8

def encodeU8 (value : UInt8) : Bytes := encodeUint value.toNat

def decodeU8 : Decoder UInt8 := UInt8.ofNat <$> decodeUint 1

def encodeFixed {width : Nat} (value : FixedBytes width) : Bytes := encodeBytes value.val

def decodeFixed (width : Nat) : Decoder (FixedBytes width) := do
  let bytes ← decodeBytes false
  if sized : bytes.length = width then return ⟨bytes, sized⟩ else throw .unexpectedLength

/-- The loop of `U256::encode`, which keeps the last byte. -/
def stripLeadingZeros : Bytes → Bytes
  | byte :: next :: rest =>
    if byte = 0 then stripLeadingZeros (next :: rest) else byte :: next :: rest
  | bytes => bytes

def encodeU256 (value : U256) : Bytes :=
  if value = 0 then encodeU64 0 else encodeBytes (stripLeadingZeros value.toBeBytes.val)

/-- `BnumU256::from_be_slice`: leading zeros are allowed, larger values are not. -/
def fromBeSlice (bytes : Bytes) : Option U256 :=
  if decodeBE bytes < 2 ^ 256 then some (BitVec.ofNat 256 (decodeBE bytes)) else none

def decodeU256 : Decoder U256 := do
  let bytes ← decodeBytes false
  match fromBeSlice bytes with
  | some value => return value
  | none => throw (.custom "Failed to decode U256")

def encodeNil {Value : Type} (encode : Value → Bytes) : Option Value → Bytes
  | some value => encode value
  | none => [emptyStringCode]

def decodeNil {Value : Type} (decode : Decoder Value) : Decoder (Option Value) := fun input =>
  if input.head? = some 0x80 then .ok (none, input.drop 1) else (some <$> decode) input

def encodeString (bytes : Bytes) : Bytes := encodeBytes bytes

def decodeString : Decoder Bytes := decodeBytes false

theorem reads_u64 (value : UInt64) : Reads decodeU64 (encodeU64 value) value := by
  have read := (reads_uint 8 le_rfl (by simpa using value.toNat_lt)).map UInt64.ofNat
  rwa [UInt64.ofNat_toNat] at read

theorem reads_u8 (value : UInt8) : Reads decodeU8 (encodeU8 value) value := by
  have read := (reads_uint 1 (by decide) (by simpa using value.toNat_lt)).map
    UInt8.ofNat
  rwa [UInt8.ofNat_toNat] at read

theorem reads_fixed {width : Nat} (value : FixedBytes width) :
    Reads (decodeFixed width) (encodeFixed value) value := by
  rw [← List.append_nil (encodeFixed value)]
  apply (reads_bytes value.val).bind
  simp only [value.property, dite_true]
  exact Reads.pure value

theorem reads_string (bytes : Bytes) : Reads decodeString (encodeString bytes) bytes :=
  reads_bytes bytes

theorem strip_leading_zeros_spec (bytes : Bytes) :
    decodeBE (stripLeadingZeros bytes) = decodeBE bytes ∧
      (decodeBE bytes ≠ 0 → (stripLeadingZeros bytes).head? ≠ some 0) := by
  fun_induction stripLeadingZeros bytes with
  | case1 next rest ih =>
      have same : decodeBE (0 :: next :: rest) = decodeBE (next :: rest) := by
        simp [decodeBE]
      rw [same]
      exact ih
  | case2 byte next rest nonzero =>
      exact ⟨rfl, fun _ => by simpa using nonzero⟩
  | case3 bytes short =>
      refine ⟨rfl, ?_⟩
      intro nonzero head
      cases bytes with
      | nil => simp at head
      | cons byte rest =>
          cases rest with
          | nil =>
              have zero : byte = 0 := by simpa using head
              exact nonzero (by simp [decodeBE, zero])
          | cons next others => exact short byte next others rfl

/-- A 256-bit integer is encoded as the string of its shortest digits. -/
theorem encode_u256_eq (value : U256) :
    encodeU256 value = encodeBytes (minimalBE value.toNat) := by
  unfold encodeU256
  split
  · rename_i zero
    have digits := encode_uint_eq 0 (by norm_num)
    rw [zero]
    simpa [encodeU64] using digits
  · rename_i nonzero
    have decoded : decodeBE value.toBeBytes.val = value.toNat :=
      decode_encode_be_of_lt (by simpa using value.isLt)
    obtain ⟨same, head⟩ := strip_leading_zeros_spec value.toBeBytes.val
    rw [decoded] at same head
    have positive : value.toNat ≠ 0 := fun zero => nonzero (BitVec.eq_of_toNat_eq zero)
    rw [minimal_be_unique (head positive) same]

theorem reads_u256 (value : U256) : Reads decodeU256 (encodeU256 value) value := by
  have decoded : fromBeSlice (minimalBE value.toNat) = some value := by
    simp [fromBeSlice, decode_minimal_be, value.isLt]
  rw [encode_u256_eq, ← List.append_nil (encodeBytes _)]
  apply (reads_bytes _).bind
  rw [decoded]
  exact Reads.pure value

theorem reads_nil_address (recipient : Option Address) :
    Reads (decodeNil (decodeFixed 20)) (encodeNil encodeFixed recipient) recipient := by
  intro bounded rest
  cases recipient with
  | none => rfl
  | some address =>
      have code : (encodeFixed address ++ rest).head? = some 0x94 := by
        have long : ∀ byte, address.val ≠ [byte] := by
          intro byte single
          have length := address.property
          rw [single] at length
          simp at length
        unfold encodeFixed encodeBytes
        split
        · rename_i byte single
          exact absurd single (long byte)
        · rw [address.property]
          rfl
      have read := (reads_fixed address).map some bounded rest
      simp only [decodeNil, encodeNil, code]
      simpa using read

end Bertha.RlpFields
