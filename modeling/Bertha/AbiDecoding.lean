import Bertha.ChainAdapter

/-!
# Decoding the data of a rules update

`decodeDataBytes` of `go/replay/replay.go` reads an offset and a size from the data of a log
and bounds them by sums on `uint64`, which wrap. The length of a Go slice fits an `int`, so
the sums are exact for every reasonable offset and size; where one wraps, the bound is passed
by a value that the slice expression then does not accept, or that names other bytes.
-/

namespace Bertha.AbiDecoding

open Bertha.BigEndian Bertha.ChainAdapter

set_option autoImplicit false

/-- The low 64 bits of the word that ends eight bytes behind `offset`. -/
def lowWord (data : Bytes) (offset : Nat) : Nat := decodeBE ((data.drop offset).take 8)

theorem low_word_lt (data : Bytes) (offset : Nat) : lowWord data offset < 2 ^ 64 := by
  have bound := decode_be_lt ((data.drop offset).take 8)
  have short : ((data.drop offset).take 8).length ≤ 8 := List.length_take_le _ _
  exact bound.trans_le (Nat.pow_le_pow_right (by decide) short)

theorem go_slice_eq (data : Bytes) (first last : UInt64) :
    goSlice data first last =
      if last.toNat < first.toNat ∨ data.length < last.toNat then
        .error (.panic "slice bounds out of range")
      else .ok ((data.drop first.toNat).take (last.toNat - first.toNat)) := by
  simp only [goSlice, UInt64.le_iff_toNat_le]
  split_ifs <;> first | rfl | omega

section Decoding

variable {data : Bytes} (long : 32 ≤ data.length) (goLength : data.length < 2 ^ 63)
include long goLength

theorem decode_data_bytes_eq :
    let start := lowWord data 24
    let first := (start + 32) % 2 ^ 64
    let before := (start + 24) % 2 ^ 64
    let last := (first + lowWord data before) % 2 ^ 64
    decodeDataBytes data =
      if data.length < first then .error (.error "unexpected EOF")
      else if first < before then .error (.panic "slice bounds out of range")
      else if data.length < last then .error (.error "unexpected EOF")
      else if last < first then .error (.panic "slice bounds out of range")
      else .ok ((data.drop first).take (last - first)) := by
  intro start first before last
  have startLt : start < 2 ^ 64 := low_word_lt data 24
  have lengthNat : (UInt64.ofNat data.length).toNat = data.length :=
    UInt64.toNat_ofNat_of_lt' (by simp only [UInt64.size]; omega)
  have startNat : (UInt64.ofNat start).toNat = start := UInt64.toNat_ofNat_of_lt' startLt
  have readStart : goSlice data 24 32 = .ok ((data.drop 24).take 8) := by
    rw [go_slice_eq, if_neg (by simp; omega)]
    rfl
  have firstNat : (UInt64.ofNat start + 32).toNat = first := by
    rw [UInt64.toNat_add, startNat]
    rfl
  have beforeNat : (UInt64.ofNat start + 24).toNat = before := by
    rw [UInt64.toNat_add, startNat]
    rfl
  have sizeNat : (UInt64.ofNat (lowWord data before)).toNat = lowWord data before :=
    UInt64.toNat_ofNat_of_lt' (low_word_lt data before)
  have lastNat : (UInt64.ofNat start + 32 + UInt64.ofNat (lowWord data before)).toNat = last := by
    rw [UInt64.toNat_add, firstNat, sizeNat]
  have startRead : decodeBE ((data.drop 24).take 8) = start := rfl
  unfold decodeDataBytes
  simp only [if_neg (not_lt.mpr long), readStart, startRead, bind, Except.bind, gt_iff_lt,
    UInt64.lt_iff_toNat_lt, lengthNat, firstNat]
  by_cases short : data.length < first
  · rw [if_pos short, if_pos short]
    rfl
  · rw [if_neg short, if_neg short, go_slice_eq, firstNat, beforeNat]
    simp only [short, or_false]
    by_cases reversed : first < before
    · rw [if_pos reversed, if_pos reversed]
    · -- the two bounds of the word wrap together or not at all
      have eight : first - before = 8 := by omega
      have sizeRead : decodeBE ((data.drop before).take 8) = lowWord data before := rfl
      simp only [if_neg reversed, eight, sizeRead, lastNat]
      by_cases outside : data.length < last
      · rw [if_pos outside, if_pos outside]
        rfl
      · rw [if_neg outside, if_neg outside, go_slice_eq, lastNat, firstNat]
        simp only [outside, or_false]

end Decoding

/-- The function fails with an error, or returns the bytes that offset and size name without
reaching past the end of the data. -/
def DecodesExactly (data : Bytes) : Prop :=
  match decodeDataBytes data with
  | .error (.panic _) => False
  | .error (.error _) => True
  | .ok result =>
      let start := lowWord data 24
      let size := lowWord data (start + 24)
      start + 32 + size ≤ data.length ∧ result = (data.drop (start + 32)).take size

/-- The offset and the size are such that no sum wraps before a bound is passed, or the
offset wraps and the size found at the start of the data is refused. -/
def SumsInRange (data : Bytes) : Prop :=
  let start := lowWord data 24
  let size := lowWord data (start + 24)
  let wrappedSize := lowWord data (start + 24 - 2 ^ 64)
  (start + 32 < 2 ^ 64 ∧ (data.length < start + 32 ∨ start + 32 + size < 2 ^ 64)) ∨
    (2 ^ 64 ≤ start + 24 ∧ data.length < start + 32 - 2 ^ 64 + wrappedSize ∧
      start + 32 - 2 ^ 64 + wrappedSize < 2 ^ 64)

/-- With at least one word of data, decoding is exact if and only if the sums are. -/
theorem decode_data_bytes_exact_iff {data : Bytes} (long : 32 ≤ data.length)
    (goLength : data.length < 2 ^ 63) : DecodesExactly data ↔ SumsInRange data := by
  have equation := decode_data_bytes_eq long goLength
  have startLt := low_word_lt data 24
  unfold DecodesExactly SumsInRange
  dsimp only at equation ⊢
  rw [equation]
  generalize lowWord data 24 = start at startLt ⊢
  rcases Nat.lt_or_ge (start + 32) (2 ^ 64) with exactly | wraps
  · have first : (start + 32) % 2 ^ 64 = start + 32 := Nat.mod_eq_of_lt exactly
    have before : (start + 24) % 2 ^ 64 = start + 24 := Nat.mod_eq_of_lt (by omega)
    have sizeLt := low_word_lt data (start + 24)
    rw [first, before]
    generalize lowWord data (start + 24) = size at sizeLt ⊢
    rcases Nat.lt_or_ge (start + 32 + size) (2 ^ 64) with fits | overflows
    · rw [Nat.mod_eq_of_lt fits]
      have within : start + 32 + size - (start + 32) = size := by omega
      split_ifs <;> simp only [within, and_true, true_iff] <;> omega
    · have last : (start + 32 + size) % 2 ^ 64 = start + 32 + size - 2 ^ 64 := by omega
      rw [last]
      split_ifs <;> simp only [true_iff, false_iff] <;> omega
  · have first : (start + 32) % 2 ^ 64 = start + 32 - 2 ^ 64 := by omega
    rw [first]
    rcases Nat.lt_or_ge (start + 24) (2 ^ 64) with straddles | both
    · rw [Nat.mod_eq_of_lt straddles]
      split_ifs <;> simp only [true_iff, false_iff] <;> omega
    · have before : (start + 24) % 2 ^ 64 = start + 24 - 2 ^ 64 := by omega
      have sizeLt := low_word_lt data (start + 24 - 2 ^ 64)
      rw [before]
      generalize lowWord data (start + 24 - 2 ^ 64) = wrappedSize at sizeLt ⊢
      rcases Nat.lt_or_ge (start + 32 - 2 ^ 64 + wrappedSize) (2 ^ 64) with fits | overflows
      · rw [Nat.mod_eq_of_lt fits]
        split_ifs <;> simp only [true_iff] <;> omega
      · have last : (start + 32 - 2 ^ 64 + wrappedSize) % 2 ^ 64 =
            start + 32 - 2 ^ 64 + wrappedSize - 2 ^ 64 := by omega
        rw [last]
        split_ifs <;> simp only [true_iff, false_iff] <;> omega

def wellFormedData : Bytes :=
  List.replicate 31 0 ++ [32] ++ List.replicate 31 0 ++ [2] ++ [0xa1, 0xa2] ++ List.replicate 30 0

theorem decode_data_bytes_exact_iff_well_formed :
    (32 ≤ wellFormedData.length ∧ wellFormedData.length < 2 ^ 63) ∧
      DecodesExactly wellFormedData := by
  have long : 32 ≤ wellFormedData.length := by decide
  have goLength : wellFormedData.length < 2 ^ 63 := by decide
  refine ⟨⟨long, goLength⟩, (decode_data_bytes_exact_iff long goLength).mpr (Or.inl ?_)⟩
  exact ⟨by decide, Or.inr (by decide)⟩

def wrappingData : Bytes :=
  List.replicate 24 0 ++ List.replicate 7 0xff ++ [0xe0] ++ List.replicate 32 0

theorem wrapping_offset_panics :
    decodeDataBytes wrappingData = .error (.panic "slice bounds out of range") ∧
      ¬DecodesExactly wrappingData := by
  have panics : decodeDataBytes wrappingData = .error (.panic "slice bounds out of range") := by
    decide
  refine ⟨panics, ?_⟩
  rw [DecodesExactly, panics]
  exact not_false

end Bertha.AbiDecoding
