import Bertha.RlpFields
import Bertha.RlpItems

/-!
# What an accepting decoder has read

A decoder of a value takes one item off the input. `Reencodes` compares that item with the
encoding of the value it was read as: the two are equal if a test on the item passes, and
otherwise the encoding is another one, but not a longer one. It is closed under lists and
structs, which apply the tests of their fields to the items in the payload.
-/

namespace Bertha.RlpReencoding

open Bertha.BigEndian Bertha.BlockTypes Bertha.Conversion Bertha.Rlp Bertha.RlpFields
open Bertha.RlpItems

set_option autoImplicit false

section Inversion

variable {First Second Value : Type}

theorem decoder_bind_ok {first : Decoder First} {next : First → Decoder Second} {input rest : Bytes}
    {result : Second} (decodes : (first >>= next) input = .ok (result, rest)) :
    ∃ value remaining, first input = .ok (value, remaining) ∧
      next value remaining = .ok (result, rest) := by
  obtain ⟨⟨value, remaining⟩, head, tail⟩ := bind_eq_ok.mp decodes
  exact ⟨value, remaining, head, tail⟩

theorem decoder_map_ok {decoder : Decoder First} {convert : First → Second} {input rest : Bytes}
    {result : Second} (decodes : (convert <$> decoder) input = .ok (result, rest)) :
    ∃ value, decoder input = .ok (value, rest) ∧ convert value = result := by
  obtain ⟨⟨value, remaining⟩, head, tail⟩ := bind_eq_ok.mp decodes
  cases tail
  exact ⟨value, head, rfl⟩

theorem decode_bytes_eq (isList : Bool) (input : Bytes) :
    decodeBytes isList input =
      match Header.decode input with
      | .error error => .error error
      | .ok (header, remaining) =>
        if header.list ≠ isList then
          .error (if isList then .unexpectedString else .unexpectedList)
        else .ok (remaining.take header.payloadLength, remaining.drop header.payloadLength) := by
  unfold decodeBytes
  dsimp only [bind, StateT.bind, Except.bind]
  cases Header.decode input with
  | error error => rfl
  | ok result =>
      dsimp only
      split_ifs <;> rfl

theorem decode_bytes_ok {isList : Bool} {input content rest : Bytes}
    (decodes : decodeBytes isList input = .ok (content, rest)) :
    ∃ header remaining, Headed header input remaining ∧ header.list = isList ∧
      content = remaining.take header.payloadLength ∧
      rest = remaining.drop header.payloadLength := by
  rw [decode_bytes_eq] at decodes
  split at decodes
  · cases decodes
  · rename_i header remaining found
    split_ifs at decodes with other
    cases decodes
    exact ⟨header, remaining, headed_of_decode found, not_not.mp other, rfl, rfl⟩

theorem decode_struct_eq (decodeFields : Decoder Value) (input : Bytes) :
    decodeStruct decodeFields input =
      match Header.decode input with
      | .error error => .error error
      | .ok (header, started) =>
        if header.list = false then .error .unexpectedString
        else if started.length < header.payloadLength then .error .inputTooShort
        else match decodeFields started with
          | .error error => .error error
          | .ok (value, remaining) =>
            if started.length - remaining.length ≠ header.payloadLength then
              .error (.listLengthMismatch header.payloadLength
                (started.length - remaining.length))
            else .ok (value, remaining) := by
  unfold decodeStruct
  dsimp only [bind, StateT.bind, Except.bind]
  cases Header.decode input with
  | error error => rfl
  | ok result =>
      obtain ⟨⟨list, payloadLength⟩, started⟩ := result
      cases list with
      | false => rfl
      | true =>
          simp only [Bool.true_eq_false, if_false]
          by_cases missing : started.length < payloadLength
          · simp only [get, getThe, MonadStateOf.get, StateT.bind, StateT.get, bind, Except.bind,
              pure, Except.pure, if_pos missing]
            rfl
          · simp only [get, getThe, MonadStateOf.get, StateT.bind, StateT.get, bind, Except.bind,
              pure, Except.pure, if_neg missing]
            cases decodeFields started with
            | error error => rfl
            | ok outcome =>
                dsimp only
                split_ifs <;> rfl

end Inversion

/-- The decoder takes an item off the input. What it was read as is encoded as that item if the
test on it passes, and otherwise as something else that is not longer. -/
def Reencodes {Value : Type} (decoder : Decoder Value) (encode : Value → Bytes)
    (test : Bytes → Bool) : Prop :=
  ∀ input value rest, decoder input = .ok (value, rest) →
    ∃ item, input = item ++ rest ∧ OneItem item ∧ (encode value).length ≤ item.length ∧
      (encode value = item ↔ test item = true)

theorem Reencodes.congr {Value : Type} {decoder : Decoder Value} {encode : Value → Bytes}
    {test other : Bytes → Bool} (reencodes : Reencodes decoder encode test)
    (agree : ∀ item, test item = other item) : Reencodes decoder encode other := by
  rwa [← funext agree]

def unchecked (_item : Bytes) : Bool := true

def content (item : Bytes) : Bytes :=
  match decodeBytes false item with
  | .ok (content, _) => content
  | .error _ => []

def shortest (item : Bytes) : Bool := (content item).head? != some 0

section Strings

theorem encode_bytes_lone {byte : UInt8} (small : byte < 0x80) : encodeBytes [byte] = [byte] :=
  if_pos small

theorem encode_bytes_written {content : Bytes}
    (notLone : ∀ byte, content = [byte] → ¬ byte < 0x80) :
    encodeBytes content = Header.encode ⟨false, content.length⟩ ++ content := by
  unfold encodeBytes
  split
  · rename_i byte
    exact if_neg (notLone byte rfl)
  · rfl

/-- An accepted string is the encoding of its content. -/
theorem decode_string_ok {input content rest : Bytes}
    (decodes : decodeBytes false input = .ok (content, rest)) :
    input = encodeBytes content ++ rest ∧ content.length < 2 ^ 64 := by
  obtain ⟨header, remaining, headed, kind, own, behind⟩ := decode_bytes_ok decodes
  cases headed with
  | lone byte more small =>
      simp only [List.take_succ_cons, List.take_zero] at own
      simp only [List.drop_succ_cons, List.drop_zero] at behind
      rw [own, behind, encode_bytes_lone small]
      exact ⟨rfl, by simp⟩
  | written list payload more bounded notLone =>
      simp only [List.take_left] at own
      simp only [List.drop_left] at behind
      cases kind
      rw [own, behind, encode_bytes_written (notLone rfl), List.append_assoc]
      exact ⟨rfl, bounded⟩

theorem decode_list_ok {input payload rest : Bytes}
    (decodes : decodeBytes true input = .ok (payload, rest)) :
    input = Header.encode ⟨true, payload.length⟩ ++ payload ++ rest ∧
      payload.length < 2 ^ 64 := by
  obtain ⟨header, remaining, headed, kind, own, behind⟩ := decode_bytes_ok decodes
  cases headed with
  | lone byte more small => cases kind
  | written list own' more bounded notLone =>
      simp only [List.take_left] at own
      simp only [List.drop_left] at behind
      cases kind
      rw [own, behind, List.append_assoc]
      exact ⟨rfl, bounded⟩

theorem headed_string {content : Bytes} (bounded : content.length < 2 ^ 64) (rest : Bytes) :
    Headed ⟨false, content.length⟩ (encodeBytes content ++ rest) (content ++ rest) := by
  by_cases alone : ∃ byte, content = [byte] ∧ byte < 0x80
  · obtain ⟨byte, rfl, small⟩ := alone
    rw [encode_bytes_lone small]
    exact .lone byte rest small
  · have notLone : ∀ byte, content = [byte] → ¬ byte < 0x80 :=
      fun byte single small => alone ⟨byte, single, small⟩
    rw [encode_bytes_written notLone, List.append_assoc]
    exact .written false content rest bounded fun _ => notLone

theorem one_item_string {content : Bytes} (bounded : content.length < 2 ^ 64) :
    OneItem (encodeBytes content) := by
  obtain ⟨item, whole, one⟩ := (headed_string bounded []).item
  rw [List.append_nil, List.append_nil, List.drop_length, List.append_nil] at whole
  rwa [whole]

theorem content_encode {bytes : Bytes} (bounded : bytes.length < 2 ^ 64) :
    content (encodeBytes bytes) = bytes := by
  have decodes := (headed_string bounded []).decode
  rw [List.append_nil, List.append_nil] at decodes
  rw [content, decode_bytes_eq, decodes]
  simp

theorem Reencodes.of_content {Value : Type} {decoder : Decoder Value} {encode : Value → Bytes}
    (reads : ∀ input value rest, decoder input = .ok (value, rest) →
      ∃ bytes, decodeBytes false input = .ok (bytes, rest) ∧ encode value = encodeBytes bytes) :
    Reencodes decoder encode unchecked := by
  intro input value rest decodes
  obtain ⟨bytes, string, own⟩ := reads input value rest decodes
  obtain ⟨whole, bounded⟩ := decode_string_ok string
  refine ⟨encodeBytes bytes, whole, one_item_string bounded, ?_, ?_⟩
  · rw [own]
  · exact iff_of_true own rfl

theorem Reencodes.string : Reencodes decodeString encodeString unchecked := by
  apply Reencodes.of_content
  intro input value rest decodes
  exact ⟨value, decodes, rfl⟩

theorem Reencodes.fixed (width : Nat) :
    Reencodes (decodeFixed width) (@encodeFixed width) unchecked := by
  apply Reencodes.of_content
  intro input value rest decodes
  obtain ⟨bytes, remaining, string, sized⟩ := decoder_bind_ok decodes
  split at sized
  · cases sized
    exact ⟨bytes, string, rfl⟩
  · cases sized

/-- The built-in integers take their shortest digits only. -/
theorem decode_uint_ok {width value : Nat} {input rest : Bytes} (narrow : width ≤ 8)
    (decodes : decodeUint width input = .ok (value, rest)) :
    ∃ bytes, decodeBytes false input = .ok (bytes, rest) ∧ value < 256 ^ width ∧
      encodeUint value = encodeBytes bytes := by
  obtain ⟨bytes, remaining, string, pads⟩ := decoder_bind_ok decodes
  cases padded : staticLeftPad width bytes with
  | error error =>
      rw [padded] at pads
      cases pads
  | ok digits =>
      rw [padded] at pads
      cases pads
      obtain ⟨short, head, same⟩ := static_left_pad_ok padded
      have bound : decodeBE bytes < 256 ^ width :=
        (decode_be_lt bytes).trans_le (Nat.pow_le_pow_right (by decide) short)
      have wide : decodeBE bytes < 256 ^ 8 :=
        bound.trans_le (Nat.pow_le_pow_right (by decide) narrow)
      refine ⟨bytes, string, ?_, ?_⟩
      · rwa [same]
      · rw [same, encode_uint_eq _ wide, ← minimal_be_unique head rfl]

theorem Reencodes.u64 : Reencodes decodeU64 encodeU64 unchecked := by
  apply Reencodes.of_content
  intro input value rest decodes
  obtain ⟨number, reads, rfl⟩ := decoder_map_ok decodes
  obtain ⟨bytes, string, bound, own⟩ := decode_uint_ok le_rfl reads
  refine ⟨bytes, string, ?_⟩
  rw [encodeU64, UInt64.toNat_ofNat_of_lt' (by simpa using bound), own]

theorem Reencodes.u8 : Reencodes decodeU8 encodeU8 unchecked := by
  apply Reencodes.of_content
  intro input value rest decodes
  obtain ⟨number, reads, rfl⟩ := decoder_map_ok decodes
  obtain ⟨bytes, string, bound, own⟩ := decode_uint_ok (by decide) reads
  refine ⟨bytes, string, ?_⟩
  rw [encodeU8, UInt8.toNat_ofNat_of_lt' (by simpa using bound), own]

/-- Nil takes one byte, which is an item of its own and the encoding of nothing. -/
theorem Reencodes.nil {Value : Type} {decode : Decoder Value} {encode : Value → Bytes}
    (reencodes : Reencodes decode encode unchecked) :
    Reencodes (decodeNil decode) (encodeNil encode) unchecked := by
  intro input value rest decodes
  unfold decodeNil at decodes
  split_ifs at decodes with absent
  · cases decodes
    cases input with
    | nil => cases absent
    | cons byte more =>
        cases absent
        refine ⟨[0x80], rfl, ?_, le_rfl, iff_of_true rfl rfl⟩
        exact .written false [] (by decide) fun _ byte => nofun
  · obtain ⟨inner, reads, rfl⟩ := decoder_map_ok decodes
    exact reencodes input inner rest reads

theorem content_length_le (bytes : Bytes) : bytes.length ≤ (encodeBytes bytes).length := by
  unfold encodeBytes
  split
  · split <;> simp
  · simp

/-- A 256-bit integer is read with leading zeros, and written without. -/
theorem Reencodes.u256 : Reencodes decodeU256 encodeU256 shortest := by
  intro input value rest decodes
  obtain ⟨bytes, remaining, string, converts⟩ := decoder_bind_ok decodes
  obtain ⟨whole, bounded⟩ := decode_string_ok string
  by_cases fits : decodeBE bytes < 2 ^ 256
  · have slice : fromBeSlice bytes = some (BitVec.ofNat 256 (decodeBE bytes)) := if_pos fits
    simp only [slice] at converts
    cases converts
    have written : encodeU256 (BitVec.ofNat 256 (decodeBE bytes)) =
        encodeBytes (minimalBE (decodeBE bytes)) := by
      rw [encode_u256_eq, BitVec.toNat_ofNat, Nat.mod_eq_of_lt fits]
    have narrow : (minimalBE (decodeBE bytes)).length ≤ 32 :=
      minimal_be_length_le (by simpa using fits)
    have test : shortest (encodeBytes bytes) = true ↔ bytes.head? ≠ some 0 := by
      rw [shortest, content_encode bounded, bne_iff_ne]
    refine ⟨encodeBytes bytes, whole, one_item_string bounded, ?_, ?_⟩
    · rw [written]
      by_cases leading : bytes.head? = some 0
      · have shorter : (minimalBE (decodeBE bytes)).length < bytes.length := by
          cases bytes with
          | nil => cases leading
          | cons byte others =>
              cases leading
              apply Nat.lt_succ_of_le
              apply minimal_be_length_le
              simpa [decodeBE] using decode_be_lt others
        have short := encode_bytes_length_le (minimalBE (decodeBE bytes)) (by omega)
        have long := content_length_le bytes
        omega
      · rw [← minimal_be_unique leading rfl]
    · rw [written, test]
      constructor
      · intro same
        rw [← encode_bytes_injective (by omega) same]
        exact minimal_be_head (decodeBE bytes)
      · intro head
        rw [← minimal_be_unique head rfl]
  · have slice : fromBeSlice bytes = none := if_neg fits
    simp only [slice] at converts
    cases converts

end Strings

def fieldsPass : List (Bytes → Bool) → List Bytes → Bool
  | test :: tests, item :: items => test item && fieldsPass tests items
  | _, _ => true

/-- The test of a list: every element passes. -/
def listOf (test : Bytes → Bool) (item : Bytes) : Bool := (listItems item).all test

/-- The test of a struct: every field passes its own test. -/
def structOf (tests : List (Bytes → Bool)) (item : Bytes) : Bool :=
  fieldsPass tests (listItems item)

/-- The encodings of what a run of items was read as. -/
structure Codes (codes items : List Bytes) (passes : Bool) : Prop where
  each : ∀ item ∈ items, OneItem item
  shorter : List.Forall₂ (fun code item => code.length ≤ item.length) codes items
  same : codes = items ↔ passes = true

theorem list_of_unchecked (item : Bytes) : listOf unchecked item = true :=
  List.all_eq_true.mpr fun _ _ => rfl

section Codes

theorem Codes.nil : Codes [] [] true := by
  constructor
  · exact fun item member => absurd member List.not_mem_nil
  · exact .nil
  · exact iff_of_true rfl rfl

theorem Codes.cons {code item : Bytes} {codes items : List Bytes} {test passes : Bool}
    (one : OneItem item) (shorter : code.length ≤ item.length) (same : code = item ↔ test = true)
    (rest : Codes codes items passes) : Codes (code :: codes) (item :: items) (test && passes) := by
  constructor
  · intro other member
    rcases List.mem_cons.mp member with rfl | later
    · exact one
    · exact rest.each other later
  · exact .cons shorter rest.shorter
  · rw [List.cons.injEq, same, rest.same, Bool.and_eq_true]

theorem flatten_length_le {codes items : List Bytes}
    (shorter : List.Forall₂ (fun code item => code.length ≤ item.length) codes items) :
    codes.flatten.length ≤ items.flatten.length := by
  induction shorter with
  | nil => exact le_rfl
  | cons head tail inductionHypothesis =>
      rw [List.flatten_cons, List.flatten_cons, List.length_append, List.length_append]
      omega

theorem parts_eq {codes items : List Bytes}
    (shorter : List.Forall₂ (fun code item => code.length ≤ item.length) codes items)
    (same : codes.flatten = items.flatten) : codes = items := by
  induction shorter with
  | nil => rfl
  | @cons code item codes items head tail inductionHypothesis =>
      rw [List.flatten_cons, List.flatten_cons] at same
      have lengths := congrArg List.length same
      rw [List.length_append, List.length_append] at lengths
      have others := flatten_length_le tail
      obtain ⟨first, rest⟩ := List.append_inj same (by omega)
      rw [first, inductionHypothesis rest]

theorem Codes.list_length_le {codes items : List Bytes} {passes : Bool}
    (written : Codes codes items passes) :
    (encodeList codes).length ≤ (encodeList items).length := by
  have payload := flatten_length_le written.shorter
  have headers := header_length_mono true payload
  unfold encodeList
  rw [List.length_append, List.length_append]
  omega

theorem Codes.list_eq_iff {codes items : List Bytes} {passes : Bool}
    (written : Codes codes items passes) :
    encodeList codes = encodeList items ↔ passes = true := by
  rw [← written.same]
  constructor
  · intro same
    exact parts_eq written.shorter (encode_list_flatten same)
  · exact congrArg encodeList

theorem one_item_list {items : List Bytes} (bounded : items.flatten.length < 2 ^ 64) :
    OneItem (encodeList items) :=
  .written true items.flatten bounded nofun

end Codes

section Lists

variable {First Second Item Value : Type}

theorem decode_items_ok {decodeItem : Decoder Item} {encode : Item → Bytes} {test : Bytes → Bool}
    (each : Reencodes decodeItem encode test) {rounds : Nat} {payload : Bytes} {values : List Item}
    (decodes : decodeItems decodeItem rounds payload = .ok values) :
    ∃ items, payload = items.flatten ∧ Codes (values.map encode) items (items.all test) := by
  induction rounds generalizing payload values with
  | zero =>
      cases payload with
      | nil =>
          cases decodes
          exact ⟨[], rfl, .nil⟩
      | cons byte rest => cases decodes
  | succ rounds inductionHypothesis =>
      cases payload with
      | nil =>
          cases decodes
          exact ⟨[], rfl, .nil⟩
      | cons byte rest =>
          obtain ⟨⟨value, remaining⟩, head, tail⟩ := bind_eq_ok.mp decodes
          obtain ⟨others, later, same⟩ := bind_eq_ok.mp tail
          cases same
          obtain ⟨item, whole, one, shorter, own⟩ := each _ value remaining head
          obtain ⟨items, behind, written⟩ := inductionHypothesis later
          refine ⟨item :: items, ?_, ?_⟩
          · rw [whole, behind, List.flatten_cons]
          · exact .cons one shorter own written

theorem Reencodes.vec {decodeItem : Decoder Item} {encode : Item → Bytes} {test : Bytes → Bool}
    (each : Reencodes decodeItem encode test) :
    Reencodes (decodeVec decodeItem) (fun values => encodeList (values.map encode))
      (listOf test) := by
  intro input values rest decodes
  obtain ⟨payload, remaining, list, reads⟩ := decoder_bind_ok decodes
  obtain ⟨read, loop, same⟩ := bind_eq_ok.mp reads
  cases same
  obtain ⟨whole, bounded⟩ := decode_list_ok list
  obtain ⟨items, rfl, written⟩ := decode_items_ok each loop
  refine ⟨encodeList items, whole, one_item_list bounded, written.list_length_le, ?_⟩
  rw [written.list_eq_iff, listOf, list_items_encode written.each bounded]

/-- Decoders of fields in order. The encodings of the value that they end in are those of the
fields `before` and, read from here on, of one item for each test. -/
def ReadsFields (decoder : Decoder Value) (encodings : Value → List Bytes) (before : List Bytes)
    (tests : List (Bytes → Bool)) : Prop :=
  ∀ input value rest, decoder input = .ok (value, rest) →
    ∃ codes items, encodings value = before ++ codes ∧ input = items.flatten ++ rest ∧
      Codes codes items (fieldsPass tests items)

theorem ReadsFields.pure {encodings : Value → List Bytes} {before : List Bytes} {value : Value}
    (complete : encodings value = before) : ReadsFields (pure value) encodings before [] := by
  intro input result rest decodes
  cases decodes
  refine ⟨[], [], ?_, rfl, .nil⟩
  rw [complete, List.append_nil]

theorem ReadsFields.bind {first : Decoder First} {next : First → Decoder Value}
    {encode : First → Bytes} {test : Bytes → Bool} {encodings : Value → List Bytes}
    {before : List Bytes} {tests : List (Bytes → Bool)} (head : Reencodes first encode test)
    (tail : ∀ field, ReadsFields (next field) encodings (before ++ [encode field]) tests) :
    ReadsFields (first >>= next) encodings before (test :: tests) := by
  intro input value rest decodes
  obtain ⟨field, remaining, reads, others⟩ := decoder_bind_ok decodes
  obtain ⟨item, whole, one, shorter, own⟩ := head input field remaining reads
  obtain ⟨codes, items, encoded, behind, written⟩ := tail field remaining value rest others
  refine ⟨encode field :: codes, item :: items, ?_, ?_, .cons one shorter own written⟩
  · rw [encoded, List.append_assoc, List.singleton_append]
  · rw [whole, behind, List.flatten_cons, List.append_assoc]

theorem Reencodes.struct {decodeFields : Decoder Value} {encodings : Value → List Bytes}
    {tests : List (Bytes → Bool)} (fields : ReadsFields decodeFields encodings [] tests) :
    Reencodes (decodeStruct decodeFields) (fun value => encodeList (encodings value))
      (structOf tests) := by
  intro input value rest decodes
  rw [decode_struct_eq] at decodes
  split at decodes
  · cases decodes
  rename_i header started found
  split_ifs at decodes with string missing
  split at decodes
  · cases decodes
  rename_i result remaining reads
  split_ifs at decodes with mismatch
  cases decodes
  obtain ⟨codes, items, encoded, whole, written⟩ := fields started value rest reads
  have consumed : items.flatten.length = header.payloadLength := by
    rw [whole, List.length_append] at mismatch
    omega
  cases headed_of_decode found with
  | lone byte more small => exact absurd rfl string
  | written list payload more bounded notLone =>
      obtain ⟨rfl, rfl⟩ := List.append_inj whole consumed.symm
      have kind : list = true := eq_true_of_ne_false string
      cases kind
      simp only [List.nil_append] at encoded
      refine ⟨encodeList items, ?_, one_item_list bounded, ?_, ?_⟩
      · rw [encodeList, List.append_assoc]
      · dsimp only
        rw [encoded]
        exact written.list_length_le
      · dsimp only
        rw [encoded, written.list_eq_iff, structOf, list_items_encode written.each bounded]

end Lists

end Bertha.RlpReencoding
