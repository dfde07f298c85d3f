import Bertha.HexConvert

/-!
# The language of hex strings

Which strings the parsers of `bertha-types/src/hex_convert.rs` accept, against the grammar
that the trait documents: an optional `0x` and hex digits. Dropping every leading `0x` lets a
repeated prefix through, and the integer parser lets a plus sign through behind the
prefixes. A status from 2 on is printed but not read back.
-/

namespace Bertha.HexGrammar

open Bertha.BigEndian Bertha.BlockTypes Bertha.HexConvert

set_option autoImplicit false

def postStateOrStatusTryFromHex (text : String) : Except ParseHexError PostStateOrStatus :=
  if text = "0x0" then .ok (.status 0)
  else if text = "0x1" then .ok (.status 1)
  else .postState <$> arrayTryFromHex 32 text

def postStateOrStatusToHex : PostStateOrStatus → String
  | .postState root => bytesToHex root.val
  | .status status => u64ToHex status

def hexNumber (result : Nat) (digits : List Char) : Nat :=
  digits.foldl (fun result char => result * 16 + (hexValue char).getD 0) result

/-- At least one digit and a value in range. -/
def IsNumber (limit : Nat) (digits : List Char) : Prop :=
  digits ≠ [] ∧ HexDigits digits ∧ hexNumber 0 digits < limit

def IsArray (width : Nat) (digits : List Char) : Prop :=
  HexDigits digits ∧ digits.length = 2 * width

def IsBytes (digits : List Char) : Prop := HexDigits digits ∧ digits.length % 2 = 0

/-- The documented form: an optional single prefix and the digits. -/
def Grammar (Digits : List Char → Prop) (text : String) : Prop :=
  ∃ digits, (text.toList = digits ∨ text.toList = '0' :: 'x' :: digits) ∧ Digits digits

def Accepts {Value : Type} (tryFromHex : String → Except ParseHexError Value) (text : String) :
    Prop :=
  ∃ value, tryFromHex text = .ok value

/-- The prefix is repeated before digits in order. -/
def RepeatedPrefix (Digits : List Char → Prop) (text : String) : Prop :=
  ['0', 'x', '0', 'x'] <+: text.toList ∧ Digits (trimStartMatches0x text.toList)

/-- A plus sign stands between the prefixes, if any, and digits in order. -/
def PlusSign (Digits : List Char → Prop) (text : String) : Prop :=
  ∃ digits, trimStartMatches0x text.toList = '+' :: digits ∧ Digits digits

theorem hex_number_le (result : Nat) (digits : List Char) : result ≤ hexNumber result digits := by
  induction digits generalizing result with
  | nil => exact le_rfl
  | cons char rest inductionHypothesis =>
      have later := inductionHypothesis (result * 16 + (hexValue char).getD 0)
      rw [hexNumber, List.foldl_cons]
      unfold hexNumber at later
      omega

theorem hex_digits_cons (char : Char) (rest : List Char) :
    HexDigits (char :: rest) ↔ (hexValue char).isSome = true ∧ HexDigits rest :=
  List.forall_mem_cons

theorem error_not_ok {Failure Value : Type} (failure : Failure) :
    ¬ ∃ value, (.error failure : Except Failure Value) = .ok value := by
  rintro ⟨value, impossible⟩
  cases impossible

theorem parse_digits_ok_iff (limit result : Nat) (fits : result < limit) (digits : List Char) :
    (∃ value, parseDigits limit result digits = .ok value) ↔
      HexDigits digits ∧ hexNumber result digits < limit := by
  induction digits generalizing result with
  | nil => exact iff_of_true ⟨result, rfl⟩ ⟨List.forall_mem_nil _, fits⟩
  | cons char rest inductionHypothesis =>
      rw [hex_digits_cons]
      unfold parseDigits
      cases known : hexValue char with
      | none =>
          refine iff_of_false (error_not_ok _) ?_
          rintro ⟨⟨impossible, -⟩, -⟩
          cases impossible
      | some digit =>
          have number : hexNumber result (char :: rest) = hexNumber (result * 16 + digit) rest := by
            rw [hexNumber, List.foldl_cons, known]
            rfl
          rw [number]
          by_cases large : limit ≤ result * 16 + digit
          · have whole := hex_number_le (result * 16 + digit) rest
            simp only [if_pos large]
            exact iff_of_false (error_not_ok _) fun both => by omega
          · simp only [if_neg large, Option.isSome_some, true_and]
            exact inductionHypothesis _ (by omega)

def unsigned : List Char → List Char
  | '+' :: digits => digits
  | digits => digits

theorem from_str_radix_ok_iff {limit : Nat} (positive : 0 < limit) (chars : List Char) :
    (∃ value, fromStrRadix16 limit chars = .ok value) ↔ IsNumber limit (unsigned chars) := by
  unfold fromStrRadix16
  split
  · exact iff_of_false (error_not_ok _) fun number => number.1 rfl
  · exact iff_of_false (error_not_ok _) fun number => number.1 rfl
  · refine iff_of_false (error_not_ok _) fun number => ?_
    exact absurd (number.2.1 '-' List.mem_cons_self) (by decide)
  · rename_i digits notAlone
    have some_digits : digits ≠ [] := fun empty => notAlone (by rw [empty])
    rw [parse_digits_ok_iff limit 0 positive]
    exact ⟨fun both => ⟨some_digits, both⟩, fun number => number.2⟩
  · rename_i notEmpty _ _ notPlus
    have same : unsigned chars = chars := by
      unfold unsigned
      split
      · exact absurd rfl (notPlus _)
      · rfl
    rw [parse_digits_ok_iff limit 0 positive, same]
    exact ⟨fun both => ⟨notEmpty, both⟩, fun number => number.2⟩

theorem trim_digits {chars : List Char} (digits : HexDigits chars) :
    trimStartMatches0x chars = chars := by
  unfold trimStartMatches0x
  split
  · have value := digits 'x' (by simp)
    rw [hex_value_x] at value
    cases value
  · rfl

theorem trim_once {chars : List Char} (once : ¬ ['0', 'x', '0', 'x'] <+: chars) :
    chars = trimStartMatches0x chars ∨ chars = '0' :: 'x' :: trimStartMatches0x chars := by
  by_cases twice : ∃ rest, chars = '0' :: 'x' :: rest
  · obtain ⟨rest, rfl⟩ := twice
    have rest_kept : trimStartMatches0x rest = rest := by
      unfold trimStartMatches0x
      split
      · exact absurd (List.prefix_append ['0', 'x', '0', 'x'] _) once
      · rfl
    right
    rw [trimStartMatches0x, rest_kept]
  · left
    unfold trimStartMatches0x
    split
    · exact absurd ⟨_, rfl⟩ twice
    · rfl

section Language

variable {Digits : List Char → Prop} (hexDigits : ∀ digits, Digits digits → HexDigits digits)
include hexDigits

theorem grammar_iff (text : String) :
    Grammar Digits text ↔
      Digits (trimStartMatches0x text.toList) ∧ ¬ ['0', 'x', '0', 'x'] <+: text.toList := by
  constructor
  · rintro ⟨digits, shape, inOrder⟩
    have noX : ∀ rest, digits ≠ '0' :: 'x' :: rest := by
      intro rest start
      have value := hexDigits digits inOrder 'x' (by rw [start]; simp)
      rw [hex_value_x] at value
      cases value
    rcases shape with bare | prefixed
    · rw [bare, trim_digits (hexDigits digits inOrder)]
      refine ⟨inOrder, ?_⟩
      rintro ⟨rest, whole⟩
      exact noX ('0' :: 'x' :: rest) whole.symm
    · rw [prefixed, trim_hex_digits (hexDigits digits inOrder)]
      refine ⟨inOrder, ?_⟩
      rintro ⟨rest, whole⟩
      simp only [List.cons_append, List.nil_append, List.cons.injEq, true_and] at whole
      exact noX rest whole.symm
  · rintro ⟨inOrder, once⟩
    exact ⟨trimStartMatches0x text.toList, trim_once once, inOrder⟩

theorem accepts_grammar_iff {Value : Type} {tryFromHex : String → Except ParseHexError Value}
    {text : String}
    (accepts : Accepts tryFromHex text ↔ Digits (trimStartMatches0x text.toList)) :
    (Accepts tryFromHex text ↔ Grammar Digits text) ↔ ¬ RepeatedPrefix Digits text := by
  rw [accepts, grammar_iff hexDigits, RepeatedPrefix]
  tauto

end Language

theorem number_grammar_iff {limit : Nat} {Value : Type}
    {tryFromHex : String → Except ParseHexError Value} {text : String}
    (accepts : Accepts tryFromHex text ↔
      IsNumber limit (unsigned (trimStartMatches0x text.toList))) :
    (Accepts tryFromHex text ↔ Grammar (IsNumber limit) text) ↔
      ¬ (RepeatedPrefix (IsNumber limit) text ∨ PlusSign (IsNumber limit) text) := by
  have hexDigits : ∀ digits, IsNumber limit digits → HexDigits digits :=
    fun digits number => number.2.1
  by_cases signed : ∃ digits, trimStartMatches0x text.toList = '+' :: digits
  · obtain ⟨digits, sign⟩ := signed
    have notNumber : ¬ IsNumber limit ('+' :: digits) := fun number =>
      absurd (number.2.1 '+' List.mem_cons_self) (by decide)
    have repeated : ¬ RepeatedPrefix (IsNumber limit) text := by
      rw [RepeatedPrefix, sign]
      exact fun both => notNumber both.2
    have plus : PlusSign (IsNumber limit) text ↔ IsNumber limit digits := by
      rw [PlusSign, sign]
      constructor
      · rintro ⟨other, same, number⟩
        cases same
        exact number
      · intro number
        exact ⟨digits, rfl, number⟩
    rw [accepts, grammar_iff hexDigits, sign, unsigned, plus]
    tauto
  · have same : unsigned (trimStartMatches0x text.toList) = trimStartMatches0x text.toList := by
      unfold unsigned
      split
      · rename_i digits sign
        exact absurd ⟨digits, sign⟩ signed
      · rfl
    rw [same] at accepts
    have plus : ¬ PlusSign (IsNumber limit) text := by
      rintro ⟨digits, sign, -⟩
      exact signed ⟨digits, sign⟩
    rw [accepts_grammar_iff hexDigits accepts]
    tauto

theorem map_ok_iff {Failure Parsed Value : Type} (parsed : Except Failure Parsed)
    (convert : Parsed → Value) :
    (∃ value, convert <$> parsed = .ok value) ↔ ∃ value, parsed = .ok value := by
  cases parsed with
  | error error => exact iff_of_false (error_not_ok _) (error_not_ok _)
  | ok value => exact iff_of_true ⟨convert value, rfl⟩ ⟨value, rfl⟩

theorem map_error_ok_iff {Failure Value : Type} (parsed : Except Failure Value)
    (convert : Failure → ParseHexError) :
    (∃ value, parsed.mapError convert = .ok value) ↔ ∃ value, parsed = .ok value := by
  cases parsed with
  | error error => exact iff_of_false (error_not_ok _) (error_not_ok _)
  | ok value => exact iff_of_true ⟨value, rfl⟩ ⟨value, rfl⟩

theorem uint_accepts_iff {limit : Nat} (positive : 0 < limit) {Value : Type}
    (convert : Nat → Value) (text : String) :
    Accepts (fun text => convert <$> uintTryFromHex limit text) text ↔
      IsNumber limit (unsigned (trimStartMatches0x text.toList)) := by
  rw [← from_str_radix_ok_iff positive]
  exact (map_ok_iff _ convert).trans (map_error_ok_iff _ ParseHexError.fromIntError)

theorem hex_value_ascii {char : Char} (hex : (hexValue char).isSome = true) :
    char.utf8Size = 1 := by
  have below : char ≤ 'f' := by
    unfold hexValue at hex
    split at hex
    · rename_i digit
      exact digit.2.trans (by decide)
    · split at hex
      · rename_i lower
        exact lower.2
      · split at hex
        · rename_i upper
          exact upper.2.trans (by decide)
        · cases hex
  have ascii : char.val ≤ 127 := UInt32.le_trans (Char.le_def.mp below) (by decide)
  exact Char.utf8Size_eq_one_iff.mpr ascii

theorem byte_length_digits {digits : List Char} (hex : HexDigits digits) :
    byteLength digits = digits.length := by
  induction digits with
  | nil => rfl
  | cons char rest inductionHypothesis =>
      rw [hex_digits_cons] at hex
      have tail := inductionHypothesis hex.2
      rw [byteLength] at tail
      rw [byteLength, List.map_cons, List.sum_cons, hex_value_ascii hex.1, List.length_cons, tail]
      omega

theorem decode_pairs_length {digits : List Char} {bytes : Bytes}
    (decoded : decodePairs digits = some bytes) :
    HexDigits digits ∧ digits.length = 2 * bytes.length := by
  fun_induction decodePairs digits generalizing bytes with
  | case1 =>
      cases decoded
      exact ⟨List.forall_mem_nil _, rfl⟩
  | case2 => cases decoded
  | case3 high low rest inductionHypothesis =>
      obtain ⟨upper, highRead, decoded⟩ := Option.bind_eq_some_iff.mp decoded
      obtain ⟨lower, lowRead, decoded⟩ := Option.bind_eq_some_iff.mp decoded
      obtain ⟨others, restRead, same⟩ := Option.bind_eq_some_iff.mp decoded
      cases same
      obtain ⟨hex, length⟩ := inductionHypothesis restRead
      refine ⟨?_, ?_⟩
      · rw [hex_digits_cons, hex_digits_cons, highRead, lowRead]
        exact ⟨rfl, rfl, hex⟩
      · simp only [List.length_cons, length]
        omega

theorem decode_pairs_ok_iff (digits : List Char) :
    (∃ bytes, decodePairs digits = some bytes) ↔ IsBytes digits := by
  constructor
  · rintro ⟨bytes, decoded⟩
    obtain ⟨hex, length⟩ := decode_pairs_length decoded
    exact ⟨hex, by omega⟩
  · rintro ⟨hex, even⟩
    fun_induction decodePairs digits with
    | case1 => exact ⟨[], rfl⟩
    | case2 => simp at even
    | case3 high low rest inductionHypothesis =>
        rw [hex_digits_cons, hex_digits_cons] at hex
        obtain ⟨upper, highRead⟩ := Option.isSome_iff_exists.mp hex.1
        obtain ⟨lower, lowRead⟩ := Option.isSome_iff_exists.mp hex.2.1
        simp only [List.length_cons] at even
        obtain ⟨bytes, restRead⟩ := inductionHypothesis hex.2.2 (by omega)
        refine ⟨UInt8.ofNat (upper * 16 + lower) :: bytes, ?_⟩
        rw [highRead, lowRead, restRead]
        rfl

theorem const_hex_decode_ok_iff (chars : List Char) :
    (∃ bytes, constHexDecode chars = .ok bytes) ↔ IsBytes chars := by
  rw [← decode_pairs_ok_iff]
  unfold constHexDecode
  cases decoded : decodePairs chars with
  | none =>
      refine iff_of_false ?_ ?_
      · rintro ⟨bytes, impossible⟩
        split at impossible <;> cases impossible
      · rintro ⟨bytes, impossible⟩
        cases impossible
  | some bytes =>
      obtain ⟨hex, length⟩ := decode_pairs_length decoded
      have even : ¬ byteLength chars % 2 ≠ 0 := by
        rw [byte_length_digits hex]
        omega
      rw [if_neg even]
      exact iff_of_true ⟨bytes, rfl⟩ ⟨bytes, rfl⟩

theorem const_hex_decode_to_array_ok_iff (width : Nat) (chars : List Char) :
    (∃ value, constHexDecodeToArray width chars = .ok value) ↔ IsArray width chars := by
  unfold constHexDecodeToArray
  constructor
  · rintro ⟨value, accepted⟩
    split at accepted
    · cases accepted
    · split at accepted
      · cases accepted
      · split at accepted
        · rename_i bytes decoded
          split at accepted
          · rename_i sized
            obtain ⟨hex, length⟩ := decode_pairs_length decoded
            exact ⟨hex, by rw [length, sized]⟩
          · cases accepted
        · cases accepted
  · rintro ⟨hex, length⟩
    obtain ⟨bytes, decoded⟩ := (decode_pairs_ok_iff chars).mpr ⟨hex, by omega⟩
    have sized : bytes.length = width := by
      have pairs := (decode_pairs_length decoded).2
      omega
    have even : ¬ byteLength chars % 2 ≠ 0 := by
      rw [byte_length_digits hex]
      omega
    have fits : ¬ byteLength chars / 2 ≠ width := by
      rw [byte_length_digits hex]
      omega
    refine ⟨⟨bytes, sized⟩, ?_⟩
    rw [if_neg even, if_neg fits, decoded]
    exact dif_pos sized

theorem bytes_accepts_iff (text : String) :
    Accepts bytesTryFromHex text ↔ IsBytes (trimStartMatches0x text.toList) :=
  (map_error_ok_iff _ _).trans (const_hex_decode_ok_iff _)

theorem array_accepts_iff (width : Nat) (text : String) :
    Accepts (arrayTryFromHex width) text ↔ IsArray width (trimStartMatches0x text.toList) :=
  (map_error_ok_iff _ _).trans (const_hex_decode_to_array_ok_iff width _)

theorem u64_to_hex_injective {left right : UInt64} (same : u64ToHex left = u64ToHex right) :
    left = right := by
  have back := u64_try_from_hex_to_hex left
  rw [same, u64_try_from_hex_to_hex] at back
  cases back
  rfl

/-- Only the two status codes that a receipt can have are read back. -/
theorem status_round_trip_iff (value : PostStateOrStatus) :
    postStateOrStatusTryFromHex (postStateOrStatusToHex value) = .ok value ↔
      ∀ status, value = .status status → status < 2 := by
  unfold postStateOrStatusTryFromHex
  cases value with
  | postState root =>
      have other : ∀ text, arrayTryFromHex 32 text = .error .oddLength →
          postStateOrStatusToHex (.postState root) ≠ text := by
        intro text odd same
        have back := array_try_from_hex_to_hex root
        have own : bytesToHex root.val = text := same
        rw [own, odd] at back
        cases back
      rw [if_neg (other "0x0" (by decide +kernel)), if_neg (other "0x1" (by decide +kernel))]
      refine iff_of_true ?_ (fun status impossible => by cases impossible)
      rw [postStateOrStatusToHex, array_try_from_hex_to_hex]
      rfl
  | status status =>
      have zero : postStateOrStatusToHex (.status status) = "0x0" ↔ status = 0 :=
        ⟨fun same => @u64_to_hex_injective status 0 same, fun same => by rw [same]; rfl⟩
      have one : postStateOrStatusToHex (.status status) = "0x1" ↔ status = 1 :=
        ⟨fun same => @u64_to_hex_injective status 1 same, fun same => by rw [same]; rfl⟩
      have small : (∀ other, PostStateOrStatus.status status = .status other → other < 2) ↔
          status < 2 :=
        ⟨fun all => all status rfl, fun below other same => by cases same; exact below⟩
      simp only [zero, one, small]
      split_ifs with isZero isOne
      · rw [isZero]
        exact iff_of_true rfl (by decide)
      · rw [isOne]
        exact iff_of_true rfl (by decide)
      · refine iff_of_false ?_ ?_
        · cases arrayTryFromHex 32 (postStateOrStatusToHex (.status status)) with
          | error error => exact fun impossible => by cases impossible
          | ok root => exact fun impossible => by cases impossible
        · simp only [UInt64.lt_iff_toNat_lt, ← UInt64.toNat_inj, UInt64.reduceToNat] at isZero isOne ⊢
          omega

/-- Every value but a status from 2 on is read back as printed, and a string is accepted
exactly if it has the documented form, unless it repeats the prefix or signs a number. -/
theorem hex_convert_exact_iff (width : Nat) (text : String) :
    (∀ value, u64TryFromHex (u64ToHex value) = .ok value) ∧
    (∀ value, u8TryFromHex (u8ToHex value) = .ok value) ∧
    (∀ value, u256TryFromHex (u256ToHex value) = .ok value) ∧
    (∀ value : FixedBytes width, arrayTryFromHex width (bytesToHex value.val) = .ok value) ∧
    (∀ value, bytesTryFromHex (bytesToHex value) = .ok value) ∧
    (∀ value, postStateOrStatusTryFromHex (postStateOrStatusToHex value) = .ok value ↔
      ∀ status, value = .status status → status < 2) ∧
    ((Accepts u64TryFromHex text ↔ Grammar (IsNumber (2 ^ 64)) text) ↔
      ¬ (RepeatedPrefix (IsNumber (2 ^ 64)) text ∨ PlusSign (IsNumber (2 ^ 64)) text)) ∧
    ((Accepts u8TryFromHex text ↔ Grammar (IsNumber (2 ^ 8)) text) ↔
      ¬ (RepeatedPrefix (IsNumber (2 ^ 8)) text ∨ PlusSign (IsNumber (2 ^ 8)) text)) ∧
    ((Accepts u256TryFromHex text ↔ Grammar (IsNumber (2 ^ 256)) text) ↔
      ¬ (RepeatedPrefix (IsNumber (2 ^ 256)) text ∨ PlusSign (IsNumber (2 ^ 256)) text)) ∧
    ((Accepts (arrayTryFromHex width) text ↔ Grammar (IsArray width) text) ↔
      ¬ RepeatedPrefix (IsArray width) text) ∧
    ((Accepts bytesTryFromHex text ↔ Grammar IsBytes text) ↔ ¬ RepeatedPrefix IsBytes text) := by
  refine ⟨u64_try_from_hex_to_hex, u8_try_from_hex_to_hex, u256_try_from_hex_to_hex,
    array_try_from_hex_to_hex, bytes_try_from_hex_to_hex, status_round_trip_iff,
    ?_, ?_, ?_, ?_, ?_⟩
  · exact number_grammar_iff (uint_accepts_iff (by decide) UInt64.ofNat text)
  · exact number_grammar_iff (uint_accepts_iff (by decide) UInt8.ofNat text)
  · exact number_grammar_iff (uint_accepts_iff (by decide) (BitVec.ofNat 256) text)
  · exact accepts_grammar_iff (fun digits array => array.1) (array_accepts_iff width text)
  · exact accepts_grammar_iff (fun digits bytes => bytes.1) (bytes_accepts_iff text)

/-- The status 2, a repeated prefix and a plus sign. -/
theorem hex_convert_inexact :
    postStateOrStatusTryFromHex (postStateOrStatusToHex (.status 2)) ≠ .ok (.status 2) ∧
    u64TryFromHex "0x0x12" = .ok 0x12 ∧ ¬ Grammar (IsNumber (2 ^ 64)) "0x0x12" ∧
    bytesTryFromHex "0x0x12" = .ok [0x12] ∧ ¬ Grammar IsBytes "0x0x12" ∧
    u64TryFromHex "0x+12" = .ok 0x12 ∧ ¬ Grammar (IsNumber (2 ^ 64)) "0x+12" := by
  have number : ∀ digits, IsNumber (2 ^ 64) digits → HexDigits digits := fun _ number => number.2.1
  have bytes : ∀ digits, IsBytes digits → HexDigits digits := fun _ bytes => bytes.1
  have repeated : ['0', 'x', '0', 'x'] <+: "0x0x12".toList := by decide
  refine ⟨by decide +kernel, by decide +kernel, ?_, by decide +kernel, ?_, by decide +kernel, ?_⟩
  · exact fun grammar => ((grammar_iff number "0x0x12").mp grammar).2 repeated
  · exact fun grammar => ((grammar_iff bytes "0x0x12").mp grammar).2 repeated
  · intro grammar
    have digits := number _ ((grammar_iff number "0x+12").mp grammar).1
    exact absurd (digits '+' (by decide)) (by decide)

end Bertha.HexGrammar
