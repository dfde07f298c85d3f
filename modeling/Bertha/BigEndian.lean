import Mathlib

/-!
# Big-endian byte strings

Fixed-width and minimal big-endian encodings of natural numbers. The two facts
the key layout rests on are that a fixed width is a bijection below `256 ^ width`
and that byte-wise lexicographic order is then numeric order. Nothing here knows
which program stores the bytes.
-/

namespace Bertha.BigEndian

set_option autoImplicit false

abbrev Bytes := List UInt8

/-- The `width` low-order base-256 digits of `value`, most significant first. -/
def encodeBE : Nat → Nat → Bytes
  | 0, _ => []
  | width + 1, value => UInt8.ofNat (value / 256 ^ width) :: encodeBE width value

def decodeBE : Bytes → Nat
  | [] => 0
  | byte :: rest => byte.toNat * 256 ^ rest.length + decodeBE rest

/-- The shortest big-endian digit string, which is empty for zero. -/
def minimalBE (value : Nat) : Bytes :=
  (encodeBE (value.log2 / 8 + 1) value).dropWhile (· == 0)

@[simp] theorem encode_be_length (width value : Nat) :
    (encodeBE width value).length = width := by
  induction width with
  | zero => rfl
  | succ width ih => simp [encodeBE, ih]

theorem decode_be_lt (bytes : Bytes) : decodeBE bytes < 256 ^ bytes.length := by
  induction bytes with
  | nil => simp [decodeBE]
  | cons byte rest ih =>
      have byteBound : byte.toNat < 256 := byte.toNat_lt
      simp only [decodeBE, List.length_cons, pow_succ]
      nlinarith

theorem decode_encode_be (width value : Nat) :
    decodeBE (encodeBE width value) = value % 256 ^ width := by
  induction width with
  | zero => simp [encodeBE, decodeBE, Nat.mod_one]
  | succ width ih =>
      have digit : (UInt8.ofNat (value / 256 ^ width)).toNat = value / 256 ^ width % 256 := by
        simp
      simp only [encodeBE, decodeBE, encode_be_length, ih, digit]
      rw [pow_succ, Nat.mod_mul]
      ring

theorem decode_encode_be_of_lt {width value : Nat} (bound : value < 256 ^ width) :
    decodeBE (encodeBE width value) = value := by
  rw [decode_encode_be, Nat.mod_eq_of_lt bound]

theorem encode_be_mod (width value : Nat) :
    encodeBE width (value % 256 ^ width) = encodeBE width value := by
  suffices general : ∀ small, small ≤ width →
      encodeBE small (value % 256 ^ width) = encodeBE small value from general width le_rfl
  intro small
  induction small with
  | zero => intro; rfl
  | succ small ih =>
      intro bound
      have split : 256 ^ width = 256 ^ small * 256 ^ (width - small) := by
        rw [← pow_add]
        congr 1
        omega
      have digit : UInt8.ofNat (value % 256 ^ width / 256 ^ small) =
          UInt8.ofNat (value / 256 ^ small) := by
        apply UInt8.toNat_inj.mp
        rw [split, Nat.mod_mul_right_div_self]
        simp only [UInt8.toNat_ofNat', Nat.reducePow]
        apply Nat.mod_mod_of_dvd
        exact dvd_pow_self 256 (by omega)
      simp only [encodeBE]
      rw [digit, ih (by omega)]

theorem encode_decode_be (bytes : Bytes) :
    encodeBE bytes.length (decodeBE bytes) = bytes := by
  induction bytes with
  | nil => rfl
  | cons byte rest ih =>
      have below := decode_be_lt rest
      have positive : 0 < 256 ^ rest.length := Nat.pow_pos (by decide)
      have high : (byte.toNat * 256 ^ rest.length + decodeBE rest) / 256 ^ rest.length =
          byte.toNat := by
        rw [Nat.mul_comm, Nat.mul_add_div positive, Nat.div_eq_of_lt below, Nat.add_zero]
      have low : (byte.toNat * 256 ^ rest.length + decodeBE rest) % 256 ^ rest.length =
          decodeBE rest := by
        rw [Nat.mul_add_mod_self_right, Nat.mod_eq_of_lt below]
      simp only [decodeBE, List.length_cons, encodeBE, high]
      rw [← encode_be_mod, low, ih]
      simp

/-- Lexicographic comparison decides on the first parts when these have equal
length, and only then looks at the remainders. -/
theorem compare_append {left right : Bytes} (leftRest rightRest : Bytes)
    (sameLength : left.length = right.length) :
    compare (left ++ leftRest) (right ++ rightRest) =
      (compare left right).then (compare leftRest rightRest) := by
  induction left generalizing right with
  | nil =>
      have empty : right = [] := List.eq_nil_of_length_eq_zero (by simpa using sameLength.symm)
      subst empty
      rfl
  | cons byte rest ih =>
      cases right with
      | nil => simp at sameLength
      | cons other others =>
          have lengths : rest.length = others.length := by simpa using sameLength
          have tails := ih lengths
          simp only [List.cons_append, List.compare_cons_cons, tails, Ordering.then_assoc]

/-- Fixed-width big-endian strings compare as the numbers they encode. -/
theorem compare_encode_be {width left right : Nat}
    (leftBound : left < 256 ^ width) (rightBound : right < 256 ^ width) :
    compare (encodeBE width left) (encodeBE width right) = compare left right := by
  induction width generalizing left right with
  | zero =>
      have leftZero : left = 0 := by simpa using leftBound
      have rightZero : right = 0 := by simpa using rightBound
      subst leftZero rightZero
      rfl
  | succ width ih =>
      have positive : 0 < 256 ^ width := Nat.pow_pos (by decide)
      have leftDigit : left / 256 ^ width < 256 := by
        rw [Nat.div_lt_iff_lt_mul positive]
        rwa [pow_succ, Nat.mul_comm] at leftBound
      have rightDigit : right / 256 ^ width < 256 := by
        rw [Nat.div_lt_iff_lt_mul positive]
        rwa [pow_succ, Nat.mul_comm] at rightBound
      have tails := ih (Nat.mod_lt left positive) (Nat.mod_lt right positive)
      rw [encode_be_mod, encode_be_mod] at tails
      have heads : compare (UInt8.ofNat (left / 256 ^ width))
          (UInt8.ofNat (right / 256 ^ width)) =
            compare (left / 256 ^ width) (right / 256 ^ width) := by
        rw [UInt8.compare_eq_toNat_compare_toNat, UInt8.toNat_ofNat_of_lt' leftDigit,
          UInt8.toNat_ofNat_of_lt' rightDigit]
      simp only [encodeBE, List.compare_cons_cons, heads, tails]
      have leftSplit := Nat.div_add_mod left (256 ^ width)
      have rightSplit := Nat.div_add_mod right (256 ^ width)
      have leftLow := Nat.mod_lt left positive
      have rightLow := Nat.mod_lt right positive
      rcases Nat.lt_trichotomy (left / 256 ^ width) (right / 256 ^ width) with less | equal | more
      · have numeric : left < right := Nat.lt_of_div_lt_div less
        rw [Nat.compare_eq_lt.mpr less, Nat.compare_eq_lt.mpr numeric]
        rfl
      · rw [equal] at leftSplit
        rw [Nat.compare_eq_eq.mpr equal, Ordering.eq_then]
        rcases Nat.lt_trichotomy (left % 256 ^ width) (right % 256 ^ width) with low | same | high
        · rw [Nat.compare_eq_lt.mpr low, Nat.compare_eq_lt.mpr (by omega)]
        · rw [Nat.compare_eq_eq.mpr same, Nat.compare_eq_eq.mpr (by omega)]
        · rw [Nat.compare_eq_gt.mpr high, Nat.compare_eq_gt.mpr (by omega)]
      · have numeric : right < left := Nat.lt_of_div_lt_div more
        rw [Nat.compare_eq_gt.mpr more, Nat.compare_eq_gt.mpr numeric]
        rfl

theorem decode_be_drop_while (bytes : Bytes) :
    decodeBE (bytes.dropWhile (· == 0)) = decodeBE bytes := by
  induction bytes with
  | nil => rfl
  | cons byte rest ih =>
      by_cases zero : byte = 0
      · subst zero
        simp [decodeBE, ih]
      · simp [zero]

theorem decode_be_ge {byte : UInt8} (rest : Bytes) (nonzero : byte ≠ 0) :
    256 ^ rest.length ≤ decodeBE (byte :: rest) := by
  have positive : 1 ≤ byte.toNat := by
    rw [Nat.one_le_iff_ne_zero]
    intro zero
    exact nonzero (UInt8.toNat_inj.mp zero)
  have scaled := Nat.mul_le_mul_right (256 ^ rest.length) positive
  simp only [decodeBE]
  omega

/-- A number has only one digit string that does not start with a zero. -/
theorem decode_be_injective {left right : Bytes} (leftHead : left.head? ≠ some 0)
    (rightHead : right.head? ≠ some 0) (same : decodeBE left = decodeBE right) :
    left = right := by
  have ordered : ∀ {first second : Bytes}, first.head? ≠ some 0 →
      decodeBE first = decodeBE second → first.length ≤ second.length := by
    intro first second head equal
    cases first with
    | nil => simp
    | cons byte rest =>
        have nonzero : byte ≠ 0 := by simpa using head
        have low := decode_be_ge rest nonzero
        have high := decode_be_lt second
        rw [equal] at low
        have exponents : 256 ^ rest.length < 256 ^ second.length := lt_of_le_of_lt low high
        exact (Nat.pow_lt_pow_iff_right (by decide)).mp exponents
  have lengths : left.length = right.length :=
    le_antisymm (ordered leftHead same) (ordered rightHead same.symm)
  rw [← encode_decode_be left, ← encode_decode_be right, lengths, same]

theorem minimal_be_head (value : Nat) : (minimalBE value).head? ≠ some 0 := by
  unfold minimalBE
  intro head
  have kept := List.head?_dropWhile_not (· == (0 : UInt8)) (encodeBE (value.log2 / 8 + 1) value)
  rw [head] at kept
  simp at kept

theorem decode_minimal_be (value : Nat) : decodeBE (minimalBE value) = value := by
  unfold minimalBE
  rw [decode_be_drop_while, decode_encode_be_of_lt]
  have digits : value < 2 ^ (value.log2 + 1) := Nat.lt_log2_self
  have wide : 2 ^ (value.log2 + 1) ≤ 2 ^ (8 * (value.log2 / 8 + 1)) :=
    Nat.pow_le_pow_right (by decide) (by omega)
  rw [pow_mul] at wide
  exact lt_of_lt_of_le digits wide

theorem minimal_be_unique {bytes : Bytes} {value : Nat} (head : bytes.head? ≠ some 0)
    (decoded : decodeBE bytes = value) : bytes = minimalBE value :=
  decode_be_injective head (minimal_be_head value) (by rw [decoded, decode_minimal_be])

theorem minimal_be_length_le {value width : Nat} (bound : value < 256 ^ width) :
    (minimalBE value).length ≤ width := by
  cases digits : minimalBE value with
  | nil => simp
  | cons byte rest =>
      have head := minimal_be_head value
      rw [digits] at head
      have nonzero : byte ≠ 0 := by simpa using head
      have low := decode_be_ge rest nonzero
      rw [← digits, decode_minimal_be] at low
      exact (Nat.pow_lt_pow_iff_right (by decide)).mp (lt_of_le_of_lt low bound)

theorem minimal_be_length_mono {left right : Nat} (ordered : left ≤ right) :
    (minimalBE left).length ≤ (minimalBE right).length := by
  have bound := decode_be_lt (minimalBE right)
  rw [decode_minimal_be] at bound
  exact minimal_be_length_le (lt_of_le_of_lt ordered bound)

end Bertha.BigEndian
