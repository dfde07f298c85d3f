import Bertha.BigEndian
import Bertha.Conversion

/-!
# Recursive length prefix encoding

Byte strings and lists under a length header, with the strict decoder that
`alloy_rlp` documents: shortest headers only, no leading zeros in integers, a single
byte below `0x80` as itself, and a struct that uses up exactly its announced payload.
`Reads` states that a decoder takes one encoding off the front of any input; it is
closed under sequencing, so the decoder of a struct is correct when its fields are.
-/

namespace Bertha.Rlp

open Bertha.BigEndian Bertha.Conversion

set_option autoImplicit false

inductive RlpError where
  | overflow
  | leadingZero
  | inputTooShort
  | nonCanonicalSingleByte
  | nonCanonicalSize
  | unexpectedLength
  | unexpectedString
  | unexpectedList
  | listLengthMismatch (expected got : Nat)
  | custom (message : String)
deriving DecidableEq, Repr

def emptyStringCode : UInt8 := 0x80

def emptyListCode : UInt8 := 0xC0

structure Header where
  list : Bool
  payloadLength : Nat
deriving DecidableEq, Repr

def Header.encode (header : Header) : Bytes :=
  if header.payloadLength < 56 then
    [(if header.list then emptyListCode else emptyStringCode) +
      UInt8.ofNat header.payloadLength]
  else
    let digits := minimalBE header.payloadLength
    ((if header.list then 0xF7 else 0xB7) + UInt8.ofNat digits.length) :: digits

def encodeBytes (bytes : Bytes) : Bytes :=
  match bytes with
  | [byte] => if byte < emptyStringCode then [byte] else Header.encode ⟨false, 1⟩ ++ [byte]
  | _ => Header.encode ⟨false, bytes.length⟩ ++ bytes

def encodeUint (value : Nat) : Bytes :=
  if value = 0 then [emptyStringCode]
  else if value < 0x80 then [UInt8.ofNat value]
  else
    let digits := minimalBE value
    (emptyStringCode + UInt8.ofNat digits.length) :: digits

/-- A list of items that are already encoded, which is also the encoding of a struct
as the list of its fields. -/
def encodeList (items : List Bytes) : Bytes :=
  Header.encode ⟨true, items.flatten.length⟩ ++ items.flatten

/-- Optional fields at the end of a list: one is written if it or a later one is present, and
a missing one among those as the empty string. -/
def trailing : List (Option Bytes) → List Bytes
  | [] => []
  | field :: rest =>
      if field.isSome || rest.any Option.isSome then
        field.getD [emptyStringCode] :: trailing rest
      else []

abbrev Decoder (Value : Type) := StateT Bytes (Except RlpError) Value

def staticLeftPad (width : Nat) (data : Bytes) : Except RlpError Bytes :=
  if width < data.length then .error .overflow
  else if data.head? = some 0 then .error .leadingZero
  else .ok (List.replicate (width - data.length) 0 ++ data)

/-- The long form of `Header::decode`, after the first byte. -/
def Header.decodeLong (list : Bool) (lengthOfLength : Nat) (input : Bytes) :
    Except RlpError (Header × Bytes) := do
  if input.length < lengthOfLength then throw .inputTooShort
  let digits ← staticLeftPad 8 (input.take lengthOfLength)
  let payloadLength := decodeBE digits
  if payloadLength < 56 then throw .nonCanonicalSize
  if (input.drop lengthOfLength).length < payloadLength then throw .inputTooShort
  return (⟨list, payloadLength⟩, input.drop lengthOfLength)

/-- `Header::decode`; on success the input holds at least the announced payload. -/
def Header.decode : Decoder Header := fun input =>
  match input with
  | [] => .error .inputTooShort
  | byte :: rest =>
    if byte < 0x80 then .ok (⟨false, 1⟩, input)
    else if byte < 0xB8 then
      let payloadLength := (byte - emptyStringCode).toNat
      match rest.head? with
      | none =>
        if payloadLength = 0 then .ok (⟨false, 0⟩, rest) else .error .inputTooShort
      | some next =>
        if payloadLength = 1 ∧ next < emptyStringCode then .error .nonCanonicalSingleByte
        else if rest.length < payloadLength then .error .inputTooShort
        else .ok (⟨false, payloadLength⟩, rest)
    else if byte < 0xC0 then Header.decodeLong false (byte - 0xB7).toNat rest
    else if byte < 0xF8 then
      let payloadLength := (byte - emptyListCode).toNat
      if rest.length < payloadLength then .error .inputTooShort
      else .ok (⟨true, payloadLength⟩, rest)
    else Header.decodeLong true (byte - 0xF7).toNat rest

def decodeBytes (isList : Bool) : Decoder Bytes := do
  let header ← Header.decode
  if header.list ≠ isList then
    throw (if isList then .unexpectedString else .unexpectedList)
  let input ← get
  set (input.drop header.payloadLength)
  return input.take header.payloadLength

/-- The unsigned integer decoder for a type of `width` bytes. -/
def decodeUint (width : Nat) : Decoder Nat := do
  let bytes ← decodeBytes false
  let padded ← staticLeftPad width bytes
  return decodeBE padded

/-- The loop of `Vec::decode`. Every element decoder in use takes at least one byte, so
the payload's length bounds the number of rounds. -/
def decodeItems {Item : Type} (decodeItem : Decoder Item) :
    Nat → Bytes → Except RlpError (List Item)
  | _, [] => .ok []
  | 0, _ :: _ => .error (.custom "element decoder made no progress")
  | rounds + 1, byte :: rest => do
    let (item, remaining) ← decodeItem (byte :: rest)
    let items ← decodeItems decodeItem rounds remaining
    return item :: items

def decodeVec {Item : Type} (decodeItem : Decoder Item) : Decoder (List Item) := do
  let payload ← decodeBytes true
  decodeItems decodeItem payload.length payload

def decodeStruct {Value : Type} (decodeFields : Decoder Value) : Decoder Value := do
  let header ← Header.decode
  if header.list = false then throw .unexpectedString
  let started ← get
  if started.length < header.payloadLength then throw .inputTooShort
  let value ← decodeFields
  let remaining ← get
  let consumed := started.length - remaining.length
  if consumed ≠ header.payloadLength then
    throw (.listLengthMismatch header.payloadLength consumed)
  return value

/-- An optional field of a derived `rlp(trailing)` decoder. The field is missing once the
payload is used up, and the empty string stands for a missing one before a later field. -/
def decodeTrailing {Value : Type} (started payloadLength : Nat) (decode : Decoder Value) :
    Decoder (Option Value) := do
  let input ← get
  if started - input.length < payloadLength then
    if input.head? = some emptyStringCode then
      set (input.drop 1)
      return none
    else some <$> decode
  else return none

/-- The derived decoder of a `rlp(trailing)` struct. Its optional fields look at the input
length after the list header and at the announced payload. -/
def decodeTrailingStruct {Value : Type} (decodeFields : Nat → Nat → Decoder Value) :
    Decoder Value := do
  let header ← Header.decode
  if header.list = false then throw .unexpectedString
  let started ← get
  if started.length < header.payloadLength then throw .inputTooShort
  let value ← decodeFields started.length header.payloadLength
  let remaining ← get
  let consumed := started.length - remaining.length
  if consumed ≠ header.payloadLength then
    throw (.listLengthMismatch header.payloadLength consumed)
  return value

private theorem code_to_nat {code : UInt8} {count : Nat} (fits : code.toNat + count < 256) :
    (code + UInt8.ofNat count).toNat = code.toNat + count := by
  have small : count < 256 := by omega
  rw [UInt8.toNat_add, UInt8.toNat_ofNat_of_lt' small, Nat.mod_eq_of_lt fits]

private theorem code_sub (code : UInt8) (count : Nat) (small : count < 256) :
    (code + UInt8.ofNat count - code).toNat = count := by
  have same : code + UInt8.ofNat count - code = UInt8.ofNat count := by grind
  rw [same, UInt8.toNat_ofNat_of_lt' small]

private theorem code_lt {code : UInt8} (limit : UInt8) {count : Nat}
    (fits : code.toNat + count < 256) (below : code.toNat + count < limit.toNat) :
    code + UInt8.ofNat count < limit := by
  rwa [UInt8.lt_iff_toNat_lt, code_to_nat fits]

private theorem not_code_lt {code : UInt8} (limit : UInt8) {count : Nat}
    (fits : code.toNat + count < 256) (above : limit.toNat ≤ code.toNat + count) :
    ¬ code + UInt8.ofNat count < limit := by
  rw [UInt8.lt_iff_toNat_lt, code_to_nat fits]
  omega

private theorem digits_length (length : Nat) (bounded : length < 2 ^ 64) :
    (minimalBE length).length ≤ 8 :=
  minimal_be_length_le (by simpa using bounded)

private theorem digits_nonempty {length : Nat} (long : 56 ≤ length) :
    0 < (minimalBE length).length := by
  rw [List.length_pos_iff]
  intro empty
  have decoded := decode_minimal_be length
  rw [empty] at decoded
  simp only [decodeBE] at decoded
  omega

theorem static_left_pad_minimal (width value : Nat) (bound : value < 256 ^ width) :
    ∃ padded, staticLeftPad width (minimalBE value) = .ok padded ∧ decodeBE padded = value := by
  have fits := minimal_be_length_le bound
  unfold staticLeftPad
  rw [if_neg (by omega), if_neg (minimal_be_head value)]
  refine ⟨_, rfl, ?_⟩
  have leading : ∀ zeros : Nat,
      decodeBE (List.replicate zeros 0 ++ minimalBE value) = decodeBE (minimalBE value) := by
    intro zeros
    induction zeros with
    | zero => rfl
    | succ zeros ih => simpa [List.replicate_succ, decodeBE] using ih
  rw [leading, decode_minimal_be]

private theorem decode_long_encode (list : Bool) (payload rest : Bytes)
    (long : 56 ≤ payload.length) (bounded : payload.length < 2 ^ 64) :
    Header.decodeLong list (minimalBE payload.length).length
        (minimalBE payload.length ++ (payload ++ rest)) =
      .ok (⟨list, payload.length⟩, payload ++ rest) := by
  obtain ⟨padded, pads, decoded⟩ :=
    static_left_pad_minimal 8 payload.length (by simpa using bounded)
  have noShortage : ¬ (minimalBE payload.length ++ (payload ++ rest)).length <
      (minimalBE payload.length).length := by simp
  have notSmall : ¬ payload.length < 56 := by omega
  have held : ¬ (payload ++ rest).length < payload.length := by simp
  unfold Header.decodeLong
  simp only [if_neg noShortage, List.take_left, List.drop_left, pads, bind, Except.bind, pure,
    Except.pure, decoded, if_neg notSmall, if_neg held]

/-- Reading a header back gives it and leaves the input at its payload. A string header
never stands before a single byte below `0x80`, which is its own encoding. -/
theorem header_decode_encode (list : Bool) (payload rest : Bytes)
    (bounded : payload.length < 2 ^ 64)
    (lone : list = false → ∀ byte, payload = [byte] → ¬ byte < emptyStringCode) :
    Header.decode (Header.encode ⟨list, payload.length⟩ ++ (payload ++ rest)) =
      .ok (⟨list, payload.length⟩, payload ++ rest) := by
  by_cases short : payload.length < 56
  · cases list with
    | false =>
        have fits : emptyStringCode.toNat + payload.length < 256 := by
          simp only [emptyStringCode, UInt8.reduceToNat]
          omega
        have payloadLength := code_sub emptyStringCode payload.length (by omega)
        have notByte := not_code_lt 0x80 fits (by simp [emptyStringCode])
        have string := code_lt 0xB8 fits (by simp [emptyStringCode]; omega)
        simp only [Header.encode, if_pos short, Bool.false_eq_true, if_false,
          List.cons_append, List.nil_append, Header.decode, if_neg notByte, if_pos string,
          payloadLength]
        cases payload with
        | nil => cases rest <;> simp
        | cons byte others =>
            have canonical : ¬ ((byte :: others).length = 1 ∧ byte < emptyStringCode) := by
              rintro ⟨single, small⟩
              have alone : others = [] := by simpa using single
              exact lone rfl byte (by rw [alone]) small
            have held : ¬ (byte :: others ++ rest).length < (byte :: others).length := by simp
            simp only [List.cons_append, List.head?_cons, if_neg canonical] at held ⊢
            rw [if_neg held]
    | true =>
        have fits : emptyListCode.toNat + payload.length < 256 := by
          simp only [emptyListCode, UInt8.reduceToNat]
          omega
        have payloadLength := code_sub emptyListCode payload.length (by omega)
        have notByte := not_code_lt 0x80 fits (by simp [emptyListCode]; omega)
        have notString := not_code_lt 0xB8 fits (by simp [emptyListCode]; omega)
        have notLong := not_code_lt 0xC0 fits (by simp [emptyListCode])
        have shortList := code_lt 0xF8 fits (by simp [emptyListCode]; omega)
        have held : ¬ (payload ++ rest).length < payload.length := by simp
        simp only [Header.encode, if_pos short, if_true, List.cons_append, List.nil_append,
          Header.decode, if_neg notByte, if_neg notString, if_neg notLong, if_pos shortList,
          payloadLength, if_neg held]
  · have long : 56 ≤ payload.length := by omega
    have atMost := digits_length _ bounded
    have atLeast := digits_nonempty long
    cases list with
    | false =>
        have fits : (0xB7 : UInt8).toNat + (minimalBE payload.length).length < 256 := by
          simp only [UInt8.reduceToNat]
          omega
        have digits := code_sub 0xB7 (minimalBE payload.length).length (by omega)
        have notByte := not_code_lt 0x80 fits (by simp; omega)
        have notString := not_code_lt 0xB8 fits (by simp; omega)
        have longString := code_lt 0xC0 fits (by simp; omega)
        simp only [Header.encode, if_neg short, Bool.false_eq_true, if_false, List.cons_append,
          Header.decode, if_neg notByte, if_neg notString, if_pos longString, digits]
        exact decode_long_encode false payload rest long bounded
    | true =>
        have fits : (0xF7 : UInt8).toNat + (minimalBE payload.length).length < 256 := by
          simp only [UInt8.reduceToNat]
          omega
        have digits := code_sub 0xF7 (minimalBE payload.length).length (by omega)
        have notByte := not_code_lt 0x80 fits (by simp; omega)
        have notString := not_code_lt 0xB8 fits (by simp; omega)
        have notLong := not_code_lt 0xC0 fits (by simp; omega)
        have notShortList := not_code_lt 0xF8 fits (by simp; omega)
        simp only [Header.encode, if_neg short, if_true, List.cons_append, Header.decode,
          if_neg notByte, if_neg notString, if_neg notLong, if_neg notShortList, digits]
        exact decode_long_encode true payload rest long bounded

theorem encode_uint_injective {left right : Nat} (same : encodeUint left = encodeUint right) :
    left = right := by
  have digits : ∀ value, value ≠ 0 → minimalBE value ≠ [] := by
    intro value nonzero empty
    have decoded := decode_minimal_be value
    rw [empty] at decoded
    exact nonzero decoded.symm
  have byte : ∀ value, value < 0x80 → (UInt8.ofNat value).toNat = value :=
    fun value small => UInt8.toNat_ofNat_of_lt' (lt_trans small (by decide))
  have recover : ∀ value, decodeBE (match encodeUint value with
      | [code] => if code = emptyStringCode then [] else [code]
      | bytes => bytes.drop 1) = value := by
    intro value
    by_cases zero : value = 0
    · simp [encodeUint, decodeBE, zero]
    · by_cases small : value < 0x80
      · have own : UInt8.ofNat value ≠ emptyStringCode := by
          intro equal
          have numbers := congrArg UInt8.toNat equal
          rw [byte value small] at numbers
          simp only [emptyStringCode, UInt8.reduceToNat] at numbers
          omega
        simp only [encodeUint, if_neg zero, if_pos small, if_neg own, decodeBE,
          byte value small]
        simp
      · cases written : minimalBE value with
        | nil => exact absurd written (digits value zero)
        | cons head tail =>
            simp only [encodeUint, if_neg zero, if_neg small, written, List.drop_succ_cons,
              List.drop_zero]
            rw [← written, decode_minimal_be]
  rw [← recover left, ← recover right, same]

theorem encode_bytes_ne_nil (bytes : Bytes) : encodeBytes bytes ≠ [] := by
  unfold encodeBytes Header.encode
  split
  · split <;> simp
  · split <;> simp

theorem encode_list_ne_nil (items : List Bytes) : encodeList items ≠ [] := by
  unfold encodeList Header.encode
  split <;> simp

theorem encode_list_head (items : List Bytes) (bounded : (encodeList items).length < 2 ^ 64) :
    ∃ code rest, encodeList items = code :: rest ∧ 0x7f < code := by
  unfold encodeList at bounded ⊢
  generalize items.flatten = payload at bounded ⊢
  rw [List.length_append] at bounded
  by_cases short : payload.length < 56
  · simp only [Header.encode, if_pos short, if_true, List.cons_append]
    refine ⟨_, _, rfl, ?_⟩
    rw [UInt8.lt_iff_toNat_lt, code_to_nat (by simp [emptyListCode]; omega)]
    simp [emptyListCode]
    omega
  · have digits := digits_length payload.length (by omega)
    simp only [Header.encode, if_neg short, if_true, List.cons_append]
    refine ⟨_, _, rfl, ?_⟩
    rw [UInt8.lt_iff_toNat_lt, code_to_nat (by simp; omega)]
    simp
    omega

/-- On any input that starts with `bytes`, the decoder returns `value` and stops right
after them. The premise is the limit of a 64-bit `usize`. -/
def Reads {Value : Type} (decoder : Decoder Value) (bytes : Bytes) (value : Value) : Prop :=
  bytes.length < 2 ^ 64 → ∀ rest, decoder (bytes ++ rest) = .ok (value, rest)

section Rules

variable {First Second Value Item : Type}

theorem Reads.pure (value : Value) : Reads (Pure.pure value) [] value :=
  fun _ _ => rfl

theorem Reads.bind {first : Decoder First} {next : First → Decoder Second}
    {bytes others : Bytes} {value : First} {result : Second} (head : Reads first bytes value)
    (tail : Reads (next value) others result) :
    Reads (first >>= next) (bytes ++ others) result := by
  intro bounded rest
  rw [List.length_append] at bounded
  rw [List.append_assoc]
  change (first (bytes ++ (others ++ rest)) >>= fun state => next state.1 state.2) = _
  rw [head (by omega) (others ++ rest)]
  exact tail (by omega) rest

theorem Reads.map {decoder : Decoder First} {bytes : Bytes} {value : First}
    (reads : Reads decoder bytes value) (convert : First → Second) :
    Reads (convert <$> decoder) bytes (convert value) := by
  intro bounded rest
  change (decoder (bytes ++ rest) >>= fun state =>
    Except.ok (convert state.1, state.2)) = _
  rw [reads bounded rest]
  rfl

private theorem decode_bytes_after_header {isList : Bool} {input payload rest : Bytes}
    (header : Header.decode input = .ok (⟨isList, payload.length⟩, payload ++ rest)) :
    decodeBytes isList input = .ok (payload, rest) := by
  simp [decodeBytes, bind, StateT.bind, Except.bind, header, get, getThe, MonadStateOf.get,
    StateT.get, set, StateT.set, pure, StateT.pure, Except.pure]

theorem reads_bytes (bytes : Bytes) : Reads (decodeBytes false) (encodeBytes bytes) bytes := by
  intro bounded rest
  unfold encodeBytes at bounded ⊢
  split at bounded
  · rename_i byte
    by_cases small : byte < emptyStringCode
    · simp only [if_pos small]
      apply decode_bytes_after_header
      have isByte : byte < 0x80 := small
      simp only [List.cons_append, List.nil_append, Header.decode, if_pos isByte,
        List.length_singleton]
    · simp only [if_neg small, List.append_assoc]
      apply decode_bytes_after_header
      apply header_decode_encode false [byte] rest (by simp)
      intro _ other single
      cases single
      exact small
  · rename_i notSingle
    rw [List.length_append] at bounded
    rw [List.append_assoc]
    apply decode_bytes_after_header
    apply header_decode_encode false bytes rest (by omega)
    intro _ byte single
    exact absurd single (notSingle byte)

theorem encode_bytes_length_le (bytes : Bytes) (short : bytes.length < 56) :
    (encodeBytes bytes).length ≤ bytes.length + 1 := by
  unfold encodeBytes
  split
  · split <;> simp [Header.encode]
  · simp [Header.encode, short]

theorem encode_bytes_injective {left right : Bytes} (short : left.length < 56)
    (same : encodeBytes left = encodeBytes right) : left = right := by
  have bounded : (encodeBytes left).length < 2 ^ 64 := by
    have length := encode_bytes_length_le left short
    omega
  have first := reads_bytes left bounded []
  have second := reads_bytes right (same ▸ bounded) []
  rw [same, second] at first
  cases first
  rfl

theorem reads_list_payload (items : List Bytes) :
    Reads (decodeBytes true) (encodeList items) items.flatten := by
  intro bounded rest
  unfold encodeList at bounded ⊢
  rw [List.length_append] at bounded
  rw [List.append_assoc]
  apply decode_bytes_after_header
  exact header_decode_encode true items.flatten rest (by omega) (by simp)

theorem encode_uint_eq (value : Nat) (bound : value < 256 ^ 8) :
    encodeUint value = encodeBytes (minimalBE value) := by
  have unique : ∀ bytes : Bytes, bytes.head? ≠ some 0 → decodeBE bytes = value →
      minimalBE value = bytes :=
    fun bytes head decoded => (minimal_be_unique head decoded).symm
  unfold encodeUint
  split
  · rename_i zero
    rw [unique [] (by simp) (by simp [decodeBE, zero])]
    rfl
  · rename_i nonzero
    have digit : value < 256 → (UInt8.ofNat value).toNat = value :=
      fun small => UInt8.toNat_ofNat_of_lt' small
    have single : value < 256 → minimalBE value = [UInt8.ofNat value] := by
      intro small
      apply unique
      · intro zero
        have same : UInt8.ofNat value = 0 := by simpa using zero
        have back := digit small
        rw [same] at back
        exact nonzero back.symm
      · simp [decodeBE, Nat.mod_eq_of_lt small]
    split
    · rename_i small
      have low : UInt8.ofNat value < emptyStringCode := by
        rw [UInt8.lt_iff_toNat_lt, digit (by omega)]
        exact small
      rw [single (by omega)]
      simp only [encodeBytes, if_pos low]
    · rename_i large
      have digits := minimal_be_length_le bound
      unfold encodeBytes
      split
      · rename_i byte lone
        have value' : byte.toNat = value := by
          have decoded := decode_minimal_be value
          rw [lone] at decoded
          simpa [decodeBE] using decoded
        have high : ¬ byte < emptyStringCode := by
          rw [UInt8.lt_iff_toNat_lt, value']
          exact large
        simp only [lone, if_neg high]
        rfl
      · have short : (minimalBE value).length < 56 := by omega
        simp only [Header.encode, if_pos short]
        rfl

theorem reads_uint (width : Nat) {value : Nat} (narrow : width ≤ 8) (bound : value < 256 ^ width) :
    Reads (decodeUint width) (encodeUint value) value := by
  have wide : value < 256 ^ 8 :=
    lt_of_lt_of_le bound (Nat.pow_le_pow_right (by decide) narrow)
  obtain ⟨padded, pads, decoded⟩ := static_left_pad_minimal width value bound
  rw [encode_uint_eq value wide, ← List.append_nil (encodeBytes _)]
  apply (reads_bytes _).bind
  rw [pads]
  intro _ rest
  rw [← decoded]
  rfl

theorem decode_items_encode {decodeItem : Decoder Item} {encode : Item → Bytes}
    {items : List Item} (rounds : Nat)
    (each : ∀ item ∈ items, Reads decodeItem (encode item) item)
    (progress : ∀ item ∈ items, encode item ≠ [])
    (bounded : (items.map encode).flatten.length < 2 ^ 64)
    (enough : (items.map encode).flatten.length ≤ rounds) :
    decodeItems decodeItem rounds (items.map encode).flatten = .ok items := by
  induction items generalizing rounds with
  | nil => cases rounds <;> rfl
  | cons item items ih =>
      simp only [List.map_cons, List.flatten_cons, List.length_append] at bounded enough ⊢
      have read := each item (by simp) (by omega) (items.map encode).flatten
      have later := fun rounds => ih rounds (fun other member => each other (by simp [member]))
        (fun other member => progress other (by simp [member])) (by omega)
      cases encoded : encode item with
      | nil => exact absurd encoded (progress item (by simp))
      | cons byte others =>
          rw [encoded] at read enough
          cases rounds with
          | zero => simp at enough
          | succ rounds =>
              rw [List.cons_append] at read ⊢
              simp only [decodeItems, read, bind, Except.bind]
              rw [later rounds (by rw [List.length_cons] at enough; omega)]
              rfl

theorem reads_vec {decodeItem : Decoder Item} {encode : Item → Bytes} {items : List Item}
    (each : ∀ item ∈ items, Reads decodeItem (encode item) item)
    (progress : ∀ item ∈ items, encode item ≠ []) :
    Reads (decodeVec decodeItem) (encodeList (items.map encode)) items := by
  intro bounded rest
  have payload := reads_list_payload (items.map encode) bounded rest
  have small : (items.map encode).flatten.length < 2 ^ 64 := by
    rw [encodeList, List.length_append] at bounded
    omega
  have decoded := decode_items_encode _ each progress small le_rfl
  change (decodeBytes true _ >>= fun state => _) = _
  rw [payload]
  change (decodeItems decodeItem _ _ >>= fun items => Except.ok (items, rest)) = _
  rw [decoded]
  rfl

theorem reads_struct {decodeFields : Decoder Value} {items : List Bytes} {value : Value}
    (fields : Reads decodeFields items.flatten value) :
    Reads (decodeStruct decodeFields) (encodeList items) value := by
  intro bounded rest
  unfold encodeList at bounded ⊢
  generalize items.flatten = payload at fields bounded ⊢
  rw [List.length_append] at bounded
  have small : payload.length < 2 ^ 64 := by omega
  have header := header_decode_encode true payload rest small (by simp)
  rw [List.append_assoc]
  simp [decodeStruct, bind, StateT.bind, Except.bind, header, get, getThe, MonadStateOf.get,
    StateT.get, pure, StateT.pure, Except.pure, fields small rest]

end Rules

theorem header_length_mono (list : Bool) {left right : Nat} (ordered : left ≤ right) :
    (Header.encode ⟨list, left⟩).length ≤ (Header.encode ⟨list, right⟩).length := by
  have digits := minimal_be_length_mono ordered
  have length (payload : Nat) : (Header.encode ⟨list, payload⟩).length =
      if payload < 56 then 1 else (minimalBE payload).length + 1 := by
    unfold Header.encode
    by_cases short : payload < 56
    · rw [if_pos short, if_pos short, List.length_singleton]
    · rw [if_neg short, if_neg short, List.length_cons]
  rw [length, length]
  split_ifs <;> omega

theorem encode_list_length_lt {left right : List Bytes}
    (shorter : left.flatten.length < right.flatten.length) :
    (encodeList left).length < (encodeList right).length := by
  have headers := header_length_mono true shorter.le
  unfold encodeList
  rw [List.length_append, List.length_append]
  omega

theorem encode_list_flatten {left right : List Bytes} (same : encodeList left = encodeList right) :
    left.flatten = right.flatten := by
  have lengths : left.flatten.length = right.flatten.length := by
    have encoded := congrArg List.length same
    rcases Nat.lt_trichotomy left.flatten.length right.flatten.length with
      shorter | equal | longer
    · exact absurd encoded (encode_list_length_lt shorter).ne
    · exact equal
    · exact absurd encoded (encode_list_length_lt longer).ne'
  unfold encodeList at same
  rw [lengths] at same
  exact List.append_cancel_left same

theorem encode_list_item {before after : List Bytes} {left right : Bytes}
    (same : encodeList (before ++ left :: after) = encodeList (before ++ right :: after)) :
    left = right := by
  have payloads := encode_list_flatten same
  rw [List.flatten_append, List.flatten_append] at payloads
  have ends := List.append_cancel_left payloads
  rw [List.flatten_cons, List.flatten_cons] at ends
  exact List.append_cancel_right ends

theorem trailing_nothing {fields : List (Option Bytes)}
    (absent : fields.any Option.isSome = false) : trailing fields = [] := by
  induction fields with
  | nil => rfl
  | cons field rest ih =>
      rw [List.any_cons, Bool.or_eq_false_iff] at absent
      rw [trailing, absent.1, absent.2]
      rfl

section TrailingFields

variable {First Second Value : Type}

/-- On the input `bytes ++ rest` the decoder returns `value` and stops at `rest`. Unlike
`Reads`, the rest is fixed, since a trailing field looks at how much of the payload is left. -/
def ReadsBefore (rest : Bytes) (decoder : Decoder Value) (bytes : Bytes) (value : Value) : Prop :=
  bytes.length < 2 ^ 64 → decoder (bytes ++ rest) = .ok (value, rest)

theorem Reads.bind_before {rest : Bytes} {first : Decoder First} {next : First → Decoder Second}
    {bytes others : Bytes} {value : First} {result : Second} (head : Reads first bytes value)
    (tail : ReadsBefore rest (next value) others result) :
    ReadsBefore rest (first >>= next) (bytes ++ others) result := by
  intro bounded
  rw [List.length_append] at bounded
  rw [List.append_assoc]
  change (first (bytes ++ (others ++ rest)) >>= fun state => next state.1 state.2) = _
  rw [head (by omega) (others ++ rest)]
  exact tail (by omega)

private theorem payload_left {started payloadLength : Nat} {remaining rest : Bytes}
    (positive : 0 < payloadLength) (position : started = payloadLength + rest.length) :
    started - (remaining ++ rest).length < payloadLength ↔ remaining ≠ [] := by
  rw [position, List.length_append, ← List.length_pos_iff]
  omega

private theorem decode_trailing_apply (started payloadLength : Nat) (decode : Decoder Value)
    (input : Bytes) :
    decodeTrailing started payloadLength decode input =
      if started - input.length < payloadLength then
        if input.head? = some emptyStringCode then .ok (none, input.drop 1)
        else (some <$> decode) input
      else .ok (none, input) := by
  change (if started - input.length < payloadLength then
      if input.head? = some emptyStringCode then
        (do set (input.drop 1); return none : Decoder (Option Value))
      else some <$> decode
    else return none) input = _
  split_ifs <;> rfl

private theorem decode_trailing_end {started payloadLength : Nat} {rest : Bytes}
    (decode : Decoder Value) (position : started = payloadLength + rest.length) :
    decodeTrailing started payloadLength decode rest = .ok (none, rest) := by
  have ended : ¬ started - rest.length < payloadLength := by omega
  rw [decode_trailing_apply, if_neg ended]

private theorem decode_trailing_within {started payloadLength : Nat} {remaining rest : Bytes}
    (decode : Decoder Value) (positive : 0 < payloadLength)
    (position : started = payloadLength + rest.length) (more : remaining ≠ []) :
    decodeTrailing started payloadLength decode (remaining ++ rest) =
      if remaining.head? = some emptyStringCode then .ok (none, remaining.drop 1 ++ rest)
      else (some <$> decode) (remaining ++ rest) := by
  have within := (payload_left positive position).mpr more
  rw [decode_trailing_apply, if_pos within, List.head?_append_of_ne_nil _ more,
    List.drop_append_of_le_length (List.length_pos_iff.mpr more)]

def ShortString (bytes : Bytes) : Prop :=
  ∃ content : Bytes, content.length < 56 ∧ bytes = encodeBytes content

theorem ShortString.ne_nil {bytes : Bytes} (short : ShortString bytes) : bytes ≠ [] := by
  obtain ⟨content, _, rfl⟩ := short
  exact encode_bytes_ne_nil content

theorem encode_bytes_head_empty {content : Bytes} (short : content.length < 56)
    (head : (encodeBytes content).head? = some emptyStringCode) : content = [] := by
  unfold encodeBytes at head
  split at head
  · rename_i byte
    split at head
    · rename_i small
      have same : byte = emptyStringCode := by simpa using head
      exact absurd small (by simp [same])
    · simp [Header.encode, emptyStringCode] at head
  · simp only [Header.encode, if_pos short, Bool.false_eq_true, if_false, List.cons_append,
      List.head?_cons, Option.some.injEq] at head
    have length := congrArg UInt8.toNat head
    rw [code_to_nat (by simp [emptyStringCode]; omega)] at length
    exact List.eq_nil_of_length_eq_zero (by omega)

theorem ShortString.head_empty {bytes : Bytes} (short : ShortString bytes)
    (head : bytes.head? = some emptyStringCode) : bytes = [emptyStringCode] := by
  obtain ⟨content, fits, rfl⟩ := short
  rw [encode_bytes_head_empty fits head]
  rfl

/-- A trailing field reads back as itself, except that a value whose encoding is the empty
string reads back as missing. -/
theorem reads_trailing_cons {started payloadLength : Nat} {rest : Bytes}
    {decode : Decoder First} {encode : First → Bytes} {next : Option First → Decoder Second}
    {field : Option First} {later : List (Option Bytes)} {result : Second}
    (positive : 0 < payloadLength) (position : started = payloadLength + rest.length)
    (reads : ∀ value, Reads decode (encode value) value)
    (short : ∀ value, ShortString (encode value))
    (tail : ReadsBefore rest
      (next (field.filter fun value => encode value ≠ [emptyStringCode]))
      (trailing later).flatten result) :
    ReadsBefore rest (decodeTrailing started payloadLength decode >>= next)
      (trailing (field.map encode :: later)).flatten result := by
  intro bounded
  change (decodeTrailing started payloadLength decode _ >>= fun state =>
    next state.1 state.2) = _
  cases field with
  | none =>
      by_cases some_later : later.any Option.isSome = true
      · simp only [trailing, Option.map_none, Option.isSome_none, some_later, Bool.false_or,
          if_true, Option.getD_none, List.flatten_cons, List.length_append] at bounded ⊢
        rw [List.append_assoc, List.singleton_append, ← List.cons_append,
          decode_trailing_within decode positive position (by simp)]
        exact tail (by omega)
      · have absent : later.any Option.isSome = false := by simpa using some_later
        rw [trailing_nothing absent] at tail
        rw [trailing_nothing (by simpa using absent), List.flatten_nil, List.nil_append,
          decode_trailing_end decode position]
        exact tail (by simp)
  | some value =>
      simp only [trailing, Option.map_some, Option.isSome_some, Bool.true_or, if_true,
        Option.getD_some, List.flatten_cons, List.length_append] at bounded ⊢
      have more : encode value ++ (trailing later).flatten ≠ [] := by simp [(short value).ne_nil]
      rw [decode_trailing_within decode positive position more]
      rw [List.head?_append_of_ne_nil _ (short value).ne_nil]
      by_cases empty : encode value = [emptyStringCode]
      · rw [empty] at bounded ⊢
        simp only [Option.filter_some, empty, ne_eq, not_true, decide_false] at tail
        exact tail (by omega)
      · have other : (encode value).head? ≠ some emptyStringCode := fun code =>
          empty ((short value).head_empty code)
        have read := (reads value).map some (by omega) ((trailing later).flatten ++ rest)
        rw [if_neg other, List.append_assoc, read]
        simp only [Option.filter_some, empty, ne_eq, not_false_iff, decide_true] at tail
        exact tail (by omega)

theorem reads_trailing_struct {decodeFields : Nat → Nat → Decoder Value} {items : List Bytes}
    {value : Value}
    (fields : ∀ rest, ReadsBefore rest
      (decodeFields (items.flatten.length + rest.length) items.flatten.length)
      items.flatten value) :
    Reads (decodeTrailingStruct decodeFields) (encodeList items) value := by
  intro bounded rest
  unfold encodeList at bounded ⊢
  generalize items.flatten = payload at fields bounded ⊢
  rw [List.length_append] at bounded
  have small : payload.length < 2 ^ 64 := by omega
  have header := header_decode_encode true payload rest small (by simp)
  have read := fields rest small
  rw [List.append_assoc]
  simp [decodeTrailingStruct, bind, StateT.bind, Except.bind, header, get, getThe,
    MonadStateOf.get, StateT.get, pure, StateT.pure, Except.pure, read]

end TrailingFields

/-- A missing first field is told from an empty one only when nothing follows. -/
theorem trailing_first_empty (rest : List (Option Bytes)) :
    trailing (some [emptyStringCode] :: rest) =
      if rest.any Option.isSome then trailing (none :: rest)
      else trailing (none :: rest) ++ [[emptyStringCode]] := by
  cases later : rest.any Option.isSome with
  | true => simp [trailing, later]
  | false => simp [trailing, later, trailing_nothing later]

end Bertha.Rlp
