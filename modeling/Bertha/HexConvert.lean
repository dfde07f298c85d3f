import Bertha.BlockTypes

/-!
# Hex strings

`HexConvert` of `bertha-types/src/hex_convert.rs` and its implementations for integers,
byte strings and transaction types. Parsing drops every leading `0x`, integers go
through `from_str_radix` and byte strings through `const_hex`. Whatever `to_hex` writes,
`try_from_hex` reads back.
-/

namespace Bertha.HexConvert

open Bertha.BigEndian Bertha.BlockTypes

set_option autoImplicit false

/-- The kinds of `std::num::IntErrorKind` that parsing an unsigned integer returns. -/
inductive IntErrorKind where
  | empty
  | invalidDigit
  | posOverflow
deriving DecidableEq, Repr

def IntErrorKind.debugName : IntErrorKind → String
  | empty => "Empty"
  | invalidDigit => "InvalidDigit"
  | posOverflow => "PosOverflow"

inductive ParseHexError where
  | invalidCharacter
  | intError (kind : IntErrorKind)
  | oddLength
  | fixedSizeMismatch (expected actual : Nat)
  | custom (message : String)
deriving DecidableEq, Repr

def ParseHexError.message : ParseHexError → String
  | invalidCharacter => "hex string contains invalid character(s)"
  | intError kind => "hex string cannot be represented as a number of the target type: " ++
      s!"IntErrorKind::{kind.debugName}"
  | oddLength => "hex string has an odd number of digits, which is not supported by the " ++
      "target type"
  | fixedSizeMismatch expected actual => "hex string is required to have a length of exactly " ++
      s!"{expected} bytes, but has {actual} bytes"
  | custom message => s!"custom: {message}"

/-- `From<ParseIntError> for ParseHexError`, for `std` and `bnum` alike. -/
def ParseHexError.fromIntError : IntErrorKind → ParseHexError
  | .invalidDigit => .invalidCharacter
  | kind => .intError kind

def transactionErrorMessage : TransactionError → String
  | .conversionError message => s!"couldn't convert transaction: {message}"
  | .invalidTransactionType value => s!"invalid transaction type: {value.toNat}"

/-- `trim_start_matches("0x")`, which drops the prefix as often as it occurs. -/
def trimStartMatches0x : List Char → List Char
  | '0' :: 'x' :: rest => trimStartMatches0x rest
  | chars => chars

/-- `char::to_digit(16)`. -/
def hexValue (char : Char) : Option Nat :=
  if '0' ≤ char ∧ char ≤ '9' then some (char.toNat - '0'.toNat)
  else if 'a' ≤ char ∧ char ≤ 'f' then some (char.toNat - 'a'.toNat + 10)
  else if 'A' ≤ char ∧ char ≤ 'F' then some (char.toNat - 'A'.toNat + 10)
  else none

def parseDigits (limit : Nat) (result : Nat) : List Char → Except IntErrorKind Nat
  | [] => .ok result
  | char :: rest =>
    match hexValue char with
    | none => .error .invalidDigit
    | some digit =>
      if limit ≤ result * 16 + digit then .error .posOverflow
      else parseDigits limit (result * 16 + digit) rest

/-- `from_str_radix(_, 16)` of an unsigned type. A plus sign may stand before the digits. -/
def fromStrRadix16 (limit : Nat) (chars : List Char) : Except IntErrorKind Nat :=
  match chars with
  | [] => .error .empty
  | ['+'] => .error .invalidDigit
  | ['-'] => .error .invalidDigit
  | '+' :: digits => parseDigits limit 0 digits
  | digits => parseDigits limit 0 digits

/-- `try_from_hex` of the unsigned integers. -/
def uintTryFromHex (limit : Nat) (text : String) : Except ParseHexError Nat :=
  (fromStrRadix16 limit (trimStartMatches0x text.toList)).mapError ParseHexError.fromIntError

def uintToHex (value : Nat) : String := "0x" ++ String.ofList (Nat.toDigits 16 value)

def u64TryFromHex (text : String) : Except ParseHexError UInt64 :=
  UInt64.ofNat <$> uintTryFromHex (2 ^ 64) text

def u64ToHex (value : UInt64) : String := uintToHex value.toNat

def u8TryFromHex (text : String) : Except ParseHexError UInt8 :=
  UInt8.ofNat <$> uintTryFromHex (2 ^ 8) text

def u8ToHex (value : UInt8) : String := uintToHex value.toNat

def u256TryFromHex (text : String) : Except ParseHexError U256 :=
  BitVec.ofNat 256 <$> uintTryFromHex (2 ^ 256) text

def u256ToHex (value : U256) : String := uintToHex value.toNat

def transactionTypeTryFromHex (text : String) : Except ParseHexError TransactionType := do
  let value ← u8TryFromHex text
  (TransactionType.tryFrom value).mapError fun error =>
    .custom (transactionErrorMessage error)

def transactionTypeToHex (transactionType : TransactionType) : String :=
  u8ToHex transactionType.toU8

inductive FromHexError where
  | invalidHexCharacter
  | oddLength
  | invalidStringLength
deriving DecidableEq, Repr

/-- The length in bytes of a Rust string slice. -/
def byteLength (chars : List Char) : Nat := (chars.map Char.utf8Size).sum

def decodePairs : List Char → Option Bytes
  | [] => some []
  | [_] => none
  | high :: low :: rest => do
    let upper ← hexValue high
    let lower ← hexValue low
    let bytes ← decodePairs rest
    return UInt8.ofNat (upper * 16 + lower) :: bytes

/-- `const_hex::decode` of a string without a leading `0x`. -/
def constHexDecode (chars : List Char) : Except FromHexError Bytes :=
  if byteLength chars % 2 ≠ 0 then .error .oddLength
  else match decodePairs chars with
    | some bytes => .ok bytes
    | none => .error .invalidHexCharacter

def constHexDecodeToArray (width : Nat) (chars : List Char) :
    Except FromHexError (FixedBytes width) :=
  if byteLength chars % 2 ≠ 0 then .error .oddLength
  else if byteLength chars / 2 ≠ width then .error .invalidStringLength
  else match decodePairs chars with
    | some bytes =>
      if sized : bytes.length = width then .ok ⟨bytes, sized⟩ else .error .invalidHexCharacter
    | none => .error .invalidHexCharacter

/-- `try_from_hex` of `[u8; N]`. -/
def arrayTryFromHex (width : Nat) (text : String) : Except ParseHexError (FixedBytes width) :=
  let chars := trimStartMatches0x text.toList
  (constHexDecodeToArray width chars).mapError fun
    | .invalidHexCharacter => .invalidCharacter
    | .oddLength => .oddLength
    | .invalidStringLength => .fixedSizeMismatch width (byteLength chars / 2)

/-- `try_from_hex` of `Vec<u8>`; the last arm is unreachable in the source. -/
def bytesTryFromHex (text : String) : Except ParseHexError Bytes :=
  (constHexDecode (trimStartMatches0x text.toList)).mapError fun
    | .invalidHexCharacter => .invalidCharacter
    | .oddLength => .oddLength
    | .invalidStringLength => .custom "unreachable"

theorem hex_value_digit_char {digit : Nat} (small : digit < 16) :
    hexValue (Nat.digitChar digit) = some digit := by
  have all : ∀ digit < 16, hexValue (Nat.digitChar digit) = some digit := by decide
  exact all digit small

theorem hex_value_x : hexValue 'x' = none := by decide

def HexDigits (chars : List Char) : Prop := ∀ char ∈ chars, (hexValue char).isSome = true

theorem hex_digits_to_digits (value : Nat) : HexDigits (Nat.toDigits 16 value) := by
  induction value using Nat.strongRecOn with
  | ind value ih =>
      rw [Nat.toDigits_eq_if (by decide)]
      intro char member
      split at member
      · rename_i small
        rw [List.mem_singleton.mp member, hex_value_digit_char small]
        rfl
      · rw [List.mem_append, List.mem_singleton] at member
        rcases member with member | rfl
        · exact ih (value / 16) (by omega) char member
        · rw [hex_value_digit_char (Nat.mod_lt _ (by decide))]
          rfl

theorem trim_hex_digits {chars : List Char} (digits : HexDigits chars) :
    trimStartMatches0x ('0' :: 'x' :: chars) = chars := by
  rw [trimStartMatches0x]
  unfold trimStartMatches0x
  split
  · have value := digits 'x' (by simp)
    rw [hex_value_x] at value
    cases value
  · rfl

private theorem parse_digits_append (limit result : Nat) (front : List Char) (last : Char)
    {value digit : Nat} (parsed : parseDigits limit result front = .ok value)
    (read : hexValue last = some digit) (fits : value * 16 + digit < limit) :
    parseDigits limit result (front ++ [last]) = .ok (value * 16 + digit) := by
  induction front generalizing result with
  | nil =>
      have same : result = value := by simpa [parseDigits] using parsed
      subst same
      have inside : ¬ limit ≤ result * 16 + digit := by omega
      simp only [List.nil_append, parseDigits, read, if_neg inside]
  | cons char rest ih =>
      simp only [parseDigits] at parsed
      simp only [List.cons_append, parseDigits]
      cases known : hexValue char with
      | none => simp [known] at parsed
      | some next =>
          simp only [known] at parsed ⊢
          split at parsed
          · cases parsed
          · rename_i inside
            rw [if_neg inside]
            exact ih _ parsed

theorem parse_to_digits {limit value : Nat} (bound : value < limit) :
    parseDigits limit 0 (Nat.toDigits 16 value) = .ok value := by
  induction value using Nat.strongRecOn with
  | ind value ih =>
      rw [Nat.toDigits_eq_if (by decide)]
      split
      · rename_i small
        have inside : ¬ limit ≤ 0 * 16 + value := by omega
        simp only [parseDigits, hex_value_digit_char small, if_neg inside]
        rw [Nat.zero_mul, Nat.zero_add]
      · have front := ih (value / 16) (by omega) (by omega)
        have last := hex_value_digit_char (Nat.mod_lt value (by decide : 0 < 16))
        have parsed := parse_digits_append limit 0 _ _ front last (by omega)
        rw [parsed]
        congr 1
        omega

theorem uint_try_from_hex_to_hex {limit value : Nat} (bound : value < limit) :
    uintTryFromHex limit (uintToHex value) = .ok value := by
  have digits := hex_digits_to_digits value
  have parsed := parse_to_digits bound
  have chars : (uintToHex value).toList = '0' :: 'x' :: Nat.toDigits 16 value := by
    simp [uintToHex]
  unfold uintTryFromHex
  rw [chars, trim_hex_digits digits]
  have radix : fromStrRadix16 limit (Nat.toDigits 16 value) = .ok value := by
    unfold fromStrRadix16
    split
    · rename_i empty
      exact absurd empty Nat.toDigits_ne_nil
    · rename_i plus
      exact absurd (digits '+' (by rw [plus]; simp)) (by decide)
    · rename_i minus
      exact absurd (digits '-' (by rw [minus]; simp)) (by decide)
    · rename_i signed
      exact absurd (digits '+' (by rw [signed]; simp)) (by decide)
    · exact parsed
  rw [radix]
  rfl

@[simp] theorem u64_try_from_hex_to_hex (value : UInt64) :
    u64TryFromHex (u64ToHex value) = .ok value := by
  unfold u64TryFromHex u64ToHex
  rw [uint_try_from_hex_to_hex value.toNat_lt]
  change Except.ok (UInt64.ofNat value.toNat) = _
  rw [UInt64.ofNat_toNat]

@[simp] theorem u8_try_from_hex_to_hex (value : UInt8) :
    u8TryFromHex (u8ToHex value) = .ok value := by
  unfold u8TryFromHex u8ToHex
  rw [uint_try_from_hex_to_hex value.toNat_lt]
  change Except.ok (UInt8.ofNat value.toNat) = _
  rw [UInt8.ofNat_toNat]

@[simp] theorem u256_try_from_hex_to_hex (value : U256) :
    u256TryFromHex (u256ToHex value) = .ok value := by
  unfold u256TryFromHex u256ToHex
  rw [uint_try_from_hex_to_hex value.isLt]
  change Except.ok (BitVec.ofNat 256 value.toNat) = _
  rw [BitVec.ofNat_toNat, BitVec.setWidth_eq]

@[simp] theorem transaction_type_try_from_hex_to_hex (transactionType : TransactionType) :
    transactionTypeTryFromHex (transactionTypeToHex transactionType) = .ok transactionType := by
  unfold transactionTypeTryFromHex transactionTypeToHex
  rw [u8_try_from_hex_to_hex]
  change (TransactionType.tryFrom transactionType.toU8).mapError _ = _
  rw [TransactionType.try_from_to_u8]
  rfl

private def bytePair (byte : UInt8) : List Char :=
  [Nat.digitChar (byte.toNat / 16), Nat.digitChar (byte.toNat % 16)]

private theorem byte_pair_values (byte : UInt8) :
    hexValue (Nat.digitChar (byte.toNat / 16)) = some (byte.toNat / 16) ∧
      hexValue (Nat.digitChar (byte.toNat % 16)) = some (byte.toNat % 16) := by
  have bound := byte.toNat_lt
  exact ⟨hex_value_digit_char (by omega), hex_value_digit_char (by omega)⟩

private theorem hex_digits_pairs (bytes : Bytes) : HexDigits (bytes.flatMap bytePair) := by
  intro char member
  obtain ⟨byte, _, inside⟩ := List.mem_flatMap.mp member
  obtain ⟨upper, lower⟩ := byte_pair_values byte
  simp only [bytePair, List.mem_cons, List.not_mem_nil, or_false] at inside
  rcases inside with rfl | rfl
  · rw [upper]
    rfl
  · rw [lower]
    rfl

private theorem decode_pairs_encode (bytes : Bytes) :
    decodePairs (bytes.flatMap bytePair) = some bytes := by
  induction bytes with
  | nil => rfl
  | cons byte bytes ih =>
      obtain ⟨upper, lower⟩ := byte_pair_values byte
      have whole : byte.toNat / 16 * 16 + byte.toNat % 16 = byte.toNat := by omega
      simp only [List.flatMap_cons, bytePair, List.cons_append, List.nil_append, decodePairs,
        upper, lower]
      rw [ih]
      change some (UInt8.ofNat (byte.toNat / 16 * 16 + byte.toNat % 16) :: bytes) = _
      rw [whole, UInt8.ofNat_toNat]

private theorem byte_length_pairs (bytes : Bytes) :
    byteLength (bytes.flatMap bytePair) = 2 * bytes.length := by
  have narrow : ∀ digit < 16, (Nat.digitChar digit).utf8Size = 1 := by decide
  induction bytes with
  | nil => rfl
  | cons byte bytes ih =>
      have bound := byte.toNat_lt
      simp only [byteLength] at ih
      simp only [byteLength, List.flatMap_cons, bytePair, List.cons_append, List.nil_append,
        List.map_cons, List.sum_cons, narrow _ (show byte.toNat / 16 < 16 by omega),
        narrow _ (show byte.toNat % 16 < 16 by omega), List.length_cons]
      rw [ih]
      omega

private theorem trim_bytes_to_hex (bytes : Bytes) :
    trimStartMatches0x (bytesToHex bytes).toList = bytes.flatMap bytePair := by
  have chars : (bytesToHex bytes).toList = '0' :: 'x' :: bytes.flatMap bytePair := by
    simp only [bytesToHex, String.toList_append, String.toList_ofList]
    rfl
  rw [chars, trim_hex_digits (hex_digits_pairs bytes)]

@[simp] theorem bytes_try_from_hex_to_hex (bytes : Bytes) :
    bytesTryFromHex (bytesToHex bytes) = .ok bytes := by
  have even : ¬ 2 * bytes.length % 2 ≠ 0 := by omega
  unfold bytesTryFromHex
  rw [trim_bytes_to_hex, constHexDecode, byte_length_pairs, if_neg even, decode_pairs_encode]
  rfl

@[simp] theorem array_try_from_hex_to_hex {width : Nat} (value : FixedBytes width) :
    arrayTryFromHex width (bytesToHex value.val) = .ok value := by
  have even : ¬ 2 * value.val.length % 2 ≠ 0 := by omega
  have sized : ¬ 2 * value.val.length / 2 ≠ width := by
    rw [value.property]
    omega
  simp only [arrayTryFromHex]
  rw [trim_bytes_to_hex, constHexDecodeToArray, byte_length_pairs, if_neg even, if_neg sized,
    decode_pairs_encode]
  simp only [value.property, dite_true]
  rfl

end Bertha.HexConvert
