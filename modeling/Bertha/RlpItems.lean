import Bertha.Rlp

/-!
# Items of recursive length prefix data

A header is accepted in its shortest form only, so whatever a decoder accepts is the encoding
of a header in front of its payload. An item is a header with its payload; its length can be
read off the front of an input, and the payload of a list splits into items in one way.
-/

namespace Bertha.RlpItems

open Bertha.BigEndian Bertha.Conversion Bertha.Rlp

set_option autoImplicit false

theorem static_left_pad_ok {width : Nat} {data padded : Bytes}
    (pads : staticLeftPad width data = .ok padded) :
    data.length ≤ width ∧ data.head? ≠ some 0 ∧ decodeBE padded = decodeBE data := by
  unfold staticLeftPad at pads
  split_ifs at pads with long leading
  cases pads
  refine ⟨by omega, leading, ?_⟩
  induction width - data.length with
  | zero => rfl
  | succ zeros inductionHypothesis =>
      rw [List.replicate_succ, List.cons_append, decodeBE, inductionHypothesis]
      simp

/-- A lone byte below `0x80` is its own payload; every other accepted header is written in
full in front of its payload, and is not the header of such a byte. -/
inductive Headed : Header → Bytes → Bytes → Prop where
  | lone (byte : UInt8) (rest : Bytes) (small : byte < 0x80) :
      Headed ⟨false, 1⟩ (byte :: rest) (byte :: rest)
  | written (list : Bool) (payload rest : Bytes) (bounded : payload.length < 2 ^ 64)
      (notLone : list = false → ∀ byte, payload = [byte] → ¬ byte < 0x80) :
      Headed ⟨list, payload.length⟩
        (Header.encode ⟨list, payload.length⟩ ++ (payload ++ rest)) (payload ++ rest)

theorem Headed.decode {header : Header} {input remaining : Bytes}
    (headed : Headed header input remaining) : Header.decode input = .ok (header, remaining) := by
  cases headed with
  | lone byte rest small => simp only [Header.decode, if_pos small]
  | written list payload rest bounded notLone =>
      exact header_decode_encode list payload rest bounded notLone

theorem decode_long_eq (list : Bool) (lengthOfLength : Nat) (input : Bytes) :
    Header.decodeLong list lengthOfLength input =
      if input.length < lengthOfLength then .error .inputTooShort
      else match staticLeftPad 8 (input.take lengthOfLength) with
        | .error error => .error error
        | .ok digits =>
          if decodeBE digits < 56 then .error .nonCanonicalSize
          else if (input.drop lengthOfLength).length < decodeBE digits then
            .error .inputTooShort
          else .ok (⟨list, decodeBE digits⟩, input.drop lengthOfLength) := by
  unfold Header.decodeLong
  by_cases short : input.length < lengthOfLength
  · rw [if_pos short, if_pos short]
    rfl
  · rw [if_neg short, if_neg short]
    cases staticLeftPad 8 (input.take lengthOfLength) with
    | error error => rfl
    | ok digits =>
        dsimp only [bind, Except.bind]
        split_ifs <;> rfl

/-- The long form of a header is accepted for its shortest length digits only. -/
theorem decode_long_ok {list : Bool} {lengthOfLength : Nat} {input remaining : Bytes}
    {header : Header}
    (decodes : Header.decodeLong list lengthOfLength input = .ok (header, remaining)) :
    header.list = list ∧ 56 ≤ header.payloadLength ∧ header.payloadLength < 2 ^ 64 ∧
      header.payloadLength ≤ remaining.length ∧
      (minimalBE header.payloadLength).length = lengthOfLength ∧
      input = minimalBE header.payloadLength ++ remaining := by
  rw [decode_long_eq] at decodes
  split at decodes
  · cases decodes
  · split at decodes
    · cases decodes
    · rename_i padded pads
      obtain ⟨narrow, head, value⟩ := static_left_pad_ok pads
      rw [value] at decodes
      split_ifs at decodes with small missing
      cases decodes
      have digits := minimal_be_unique head rfl
      have bound := decode_be_lt (input.take lengthOfLength)
      have length : (input.take lengthOfLength).length = lengthOfLength := by
        rw [List.length_take]
        omega
      have wide : 256 ^ (input.take lengthOfLength).length ≤ 256 ^ 8 :=
        Nat.pow_le_pow_right (by decide) narrow
      refine ⟨rfl, not_lt.mp small, ?_, not_lt.mp missing, ?_, ?_⟩
      · exact bound.trans_le (wide.trans (by decide))
      · rw [← digits, length]
      · rw [← digits, List.take_append_drop]

private theorem code_add_sub (base byte : UInt8) : byte = base + UInt8.ofNat (byte - base).toNat := by
  rw [UInt8.ofNat_toNat, UInt8.add_comm, UInt8.sub_add_cancel]

private theorem written_of_encode {header : Header} {input remaining : Bytes}
    (bounded : header.payloadLength < 2 ^ 64) (held : header.payloadLength ≤ remaining.length)
    (whole : input = Header.encode header ++ remaining)
    (notLone : header.list = false → header.payloadLength = 1 →
      ∀ byte, remaining.head? = some byte → ¬ byte < 0x80) :
    Headed header input remaining := by
  have length : (remaining.take header.payloadLength).length = header.payloadLength := by
    rw [List.length_take]
    omega
  have headed := Headed.written header.list (remaining.take header.payloadLength)
    (remaining.drop header.payloadLength) (by rw [length]; exact bounded) (by
      intro string byte single
      have one : header.payloadLength = 1 := by rw [← length, single, List.length_singleton]
      apply notLone string one byte
      rw [one] at single
      cases remaining with
      | nil => simp at single
      | cons first rest => simpa using single)
  rw [length, List.take_append_drop, ← whole] at headed
  exact headed

private theorem code_offset {base byte : UInt8} (limit : UInt8) (above : ¬ byte < base)
    (below : byte < limit) : (byte - base).toNat < limit.toNat - base.toNat := by
  rw [UInt8.lt_iff_toNat_lt] at above below
  rw [UInt8.toNat_sub_of_le byte base (UInt8.le_iff_toNat_le.mpr (not_lt.mp above))]
  omega

private theorem encode_short (list : Bool) {byte : UInt8}
    (short : (byte - if list then emptyListCode else emptyStringCode).toNat < 56) :
    Header.encode ⟨list, (byte - if list then emptyListCode else emptyStringCode).toNat⟩ =
      [byte] := by
  simp only [Header.encode, if_pos short]
  rw [← code_add_sub]

private theorem encode_long (list : Bool) {byte : UInt8} {payloadLength : Nat}
    (long : 56 ≤ payloadLength)
    (digits : (minimalBE payloadLength).length =
      (byte - if list then (0xF7 : UInt8) else 0xB7).toNat) :
    Header.encode ⟨list, payloadLength⟩ = byte :: minimalBE payloadLength := by
  simp only [Header.encode, if_neg (not_lt.mpr long), digits]
  rw [← code_add_sub]

private theorem headed_of_short_string {byte : UInt8} {rest remaining : Bytes} {header : Header}
    (string : ¬ byte < 0x80) (short : byte < 0xB8)
    (decodes : Header.decode (byte :: rest) = .ok (header, remaining)) :
    Headed header (byte :: rest) remaining := by
  have small : (byte - emptyStringCode).toNat < 56 :=
    @code_offset emptyStringCode _ 0xB8 string short
  have written := @encode_short false byte small
  simp only [Bool.false_eq_true, if_false] at written
  simp only [Header.decode, if_neg string, if_pos short] at decodes
  cases rest with
  | nil =>
      simp only [List.head?_nil] at decodes
      split_ifs at decodes with zero
      cases decodes
      rw [zero] at written
      apply written_of_encode
      · exact (show (0 : Nat) < 2 ^ 64 by decide)
      · exact Nat.zero_le _
      · rw [written, List.singleton_append]
      · intro _ one
        cases one
  | cons next others =>
      simp only [List.head?_cons] at decodes
      split_ifs at decodes with lone missing
      cases decodes
      apply written_of_encode
      · exact small.trans (by decide)
      · exact not_lt.mp missing
      · rw [written, List.singleton_append]
      · intro _ one first found below
        cases found
        exact lone ⟨one, below⟩

private theorem headed_of_long {list : Bool} {byte : UInt8} {rest remaining : Bytes}
    {header : Header}
    (decodes : Header.decodeLong list (byte - if list then (0xF7 : UInt8) else 0xB7).toNat rest =
      .ok (header, remaining)) : Headed header (byte :: rest) remaining := by
  obtain ⟨kind, long, bounded, held, digits, whole⟩ := decode_long_ok decodes
  obtain ⟨own, payloadLength⟩ := header
  cases kind
  apply written_of_encode bounded held
  · rw [encode_long own long digits, whole]
    rfl
  · intro _ one
    exact absurd one (by omega)

theorem headed_of_decode {header : Header} {input remaining : Bytes}
    (decodes : Header.decode input = .ok (header, remaining)) : Headed header input remaining := by
  cases input with
  | nil => cases decodes
  | cons byte rest =>
      by_cases alone : byte < 0x80
      · simp only [Header.decode, if_pos alone] at decodes
        cases decodes
        exact .lone byte rest alone
      by_cases shortString : byte < 0xB8
      · exact headed_of_short_string alone shortString decodes
      by_cases longString : byte < 0xC0
      · simp only [Header.decode, if_neg alone, if_neg shortString, if_pos longString] at decodes
        exact headed_of_long decodes
      by_cases shortList : byte < 0xF8
      · simp only [Header.decode, if_neg alone, if_neg shortString, if_neg longString,
          if_pos shortList] at decodes
        have small : (byte - emptyListCode).toNat < 56 :=
          @code_offset emptyListCode _ 0xF8 longString shortList
        have written := @encode_short true byte small
        simp only [if_true] at written
        split_ifs at decodes with missing
        cases decodes
        apply written_of_encode
        · exact small.trans (by decide)
        · exact not_lt.mp missing
        · rw [written, List.singleton_append]
        · intro string
          cases string
      · simp only [Header.decode, if_neg alone, if_neg shortString, if_neg longString,
          if_neg shortList] at decodes
        exact headed_of_long decodes

/-- A lone byte below `0x80`, or a header and the payload that it announces. -/
inductive OneItem : Bytes → Prop where
  | lone (byte : UInt8) (small : byte < 0x80) : OneItem [byte]
  | written (list : Bool) (payload : Bytes) (bounded : payload.length < 2 ^ 64)
      (notLone : list = false → ∀ byte, payload = [byte] → ¬ byte < 0x80) :
      OneItem (Header.encode ⟨list, payload.length⟩ ++ payload)

/-- The length of the first item: that of its header and of the payload that it announces. -/
def itemLength (input : Bytes) : Option Nat :=
  match Header.decode input with
  | .ok (header, remaining) => some (input.length - remaining.length + header.payloadLength)
  | .error _ => none

theorem Headed.item_length {header : Header} {input remaining : Bytes}
    (headed : Headed header input remaining) :
    itemLength input = some (input.length - remaining.length + header.payloadLength) := by
  rw [itemLength, headed.decode]

theorem header_encode_ne_nil (header : Header) : header.encode ≠ [] := by
  unfold Header.encode
  split <;> simp

theorem OneItem.ne_nil {item : Bytes} (one : OneItem item) : item ≠ [] := by
  cases one with
  | lone byte small => simp
  | written list payload bounded notLone => simp [header_encode_ne_nil]

/-- An item is found whatever stands behind it. -/
theorem OneItem.item_length {item : Bytes} (one : OneItem item) (more : Bytes) :
    itemLength (item ++ more) = some item.length := by
  cases one with
  | lone byte small =>
      have headed := Headed.lone byte more small
      rw [List.singleton_append, headed.item_length]
      simp
  | written list payload bounded notLone =>
      have headed := Headed.written list payload more bounded notLone
      rw [List.append_assoc, headed.item_length]
      simp only [List.length_append, Option.some.injEq]
      omega

theorem Headed.item {header : Header} {input remaining : Bytes}
    (headed : Headed header input remaining) :
    ∃ item, input = item ++ remaining.drop header.payloadLength ∧ OneItem item := by
  cases headed with
  | lone byte rest small => exact ⟨[byte], by simp, .lone byte small⟩
  | written list payload rest bounded notLone =>
      refine ⟨_, ?_, .written list payload bounded notLone⟩
      rw [List.drop_left, List.append_assoc]

theorem item_length_iff {item : Bytes} :
    itemLength item = some item.length ↔ OneItem item := by
  constructor
  · intro length
    unfold itemLength at length
    split at length
    · rename_i header remaining decodes
      have headed := headed_of_decode decodes
      obtain ⟨first, whole, one⟩ := headed.item
      have own := one.item_length (remaining.drop header.payloadLength)
      rw [← whole, headed.item_length] at own
      rw [own] at length
      have nothing : remaining.drop header.payloadLength = [] := by
        have lengths := congrArg List.length whole
        rw [List.length_append] at lengths
        apply List.eq_nil_of_length_eq_zero
        have same : first.length = item.length := Option.some.inj length
        omega
      rw [whole, nothing, List.append_nil]
      exact one
    · cases length
  · intro one
    have length := one.item_length []
    rwa [List.append_nil] at length

-- the header that an item was written with is found by decoding it
instance (item : Bytes) : Decidable (OneItem item) := decidable_of_iff _ item_length_iff

/-- Only one item can be taken off an input. -/
theorem OneItem.unique {left right leftRest rightRest : Bytes} (first : OneItem left)
    (second : OneItem right) (same : left ++ leftRest = right ++ rightRest) :
    left = right ∧ leftRest = rightRest := by
  have lengths := first.item_length leftRest
  rw [same, second.item_length rightRest] at lengths
  exact List.append_inj same (Option.some.inj lengths).symm

def splitItems : Nat → Bytes → List Bytes
  | 0, _ => []
  | rounds + 1, input =>
    match itemLength input with
    | some length => input.take length :: splitItems rounds (input.drop length)
    | none => []

def listItems (item : Bytes) : List Bytes :=
  match Header.decode item with
  | .ok (header, remaining) =>
    splitItems header.payloadLength (remaining.take header.payloadLength)
  | .error _ => []

theorem split_items_append {item : Bytes} (one : OneItem item) (rounds : Nat) (more : Bytes) :
    splitItems (rounds + 1) (item ++ more) = item :: splitItems rounds more := by
  rw [splitItems, one.item_length]
  simp only [List.take_left, List.drop_left]

theorem split_items_flatten {items : List Bytes} (rounds : Nat)
    (each : ∀ item ∈ items, OneItem item) (enough : items.flatten.length ≤ rounds) :
    splitItems rounds items.flatten = items := by
  induction items generalizing rounds with
  | nil => cases rounds <;> rfl
  | cons item items inductionHypothesis =>
      have one := each item List.mem_cons_self
      have positive := List.length_pos_iff.mpr one.ne_nil
      rw [List.flatten_cons] at enough ⊢
      rw [List.length_append] at enough
      cases rounds with
      | zero => omega
      | succ rounds =>
          rw [split_items_append one, inductionHypothesis rounds
            (fun other member => each other (List.mem_cons_of_mem item member)) (by omega)]

theorem list_items_encode {items : List Bytes} (each : ∀ item ∈ items, OneItem item)
    (bounded : items.flatten.length < 2 ^ 64) : listItems (encodeList items) = items := by
  have decodes := header_decode_encode true items.flatten [] bounded nofun
  rw [List.append_nil] at decodes
  unfold listItems
  rw [encodeList, decodes]
  simp only [List.take_length]
  exact split_items_flatten _ each le_rfl

end Bertha.RlpItems
