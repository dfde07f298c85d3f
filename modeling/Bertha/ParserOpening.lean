import Bertha.BlockParsing

/-!
# Opening the blocks of a genesis file

`BlockParser::try_new` of `genesis-parser/src/g_file/block_parser.rs`. The piece size and
the size are read from the file and go unchecked into a division, a product and a sum on
`usize`. Every operation is modelled with the panic of a build with overflow checks, so a run
without panic is one without overflow in any build. The decompressed unit is a parameter.
-/

namespace Bertha.ParserOpening

open Bertha.BigEndian Bertha.BlockParsing Bertha.Conversion Bertha.GenesisUnits
open Bertha.OrderedStore Bertha.SliceReading

set_option autoImplicit false

variable {Source : Type}

inductive OpenFailure where
  | error (error : Error)
  | panic (message : String)
deriving DecidableEq, Repr

def divCeil (dividend divisor : UInt64) : Except OpenFailure UInt64 :=
  if divisor = 0 then .error (.panic "attempt to divide by zero")
  else .ok (if dividend % divisor > 0 then dividend / divisor + 1 else dividend / divisor)

def checkedMul (left right : UInt64) : Except OpenFailure UInt64 :=
  if left.toNat * right.toNat < 2 ^ 64 then .ok (left * right)
  else .error (.panic "attempt to multiply with overflow")

def checkedAdd (left right : UInt64) : Except OpenFailure UInt64 :=
  if left.toNat + right.toNat < 2 ^ 64 then .ok (left + right)
  else .error (.panic "attempt to add with overflow")

def maxMemUsage : UInt64 := 256 * 1024 * 1024

def hashesLength (pieceSize size : UInt64) : Except OpenFailure UInt64 := do
  let numHashes ← divCeil size pieceSize
  let hashes ← checkedMul numHashes 128
  let usage ← checkedAdd pieceSize hashes
  if usage > maxMemUsage then
    throw (.error (.gFile (.pieceSizeTooLarge pieceSize.toNat maxMemUsage.toNat)))
  checkedMul numHashes 32

def readBytes (read : ReadToEnd Source) (count : Nat) (source : Source) :
    Except OpenFailure (Bytes × Source) :=
  let outcome := read source count
  match outcome.failure with
  | some kind => .error (.error (.io kind))
  | none =>
    if outcome.bytes.length < count then .error (.error (.io .unexpectedEof))
    else .ok (outcome.bytes, outcome.source)

/-- Finding the blocks unit and reading the two numbers in front of its hashes; a `u32` and a
`u64`. Seeking to the unit and decompressing what follows is `openUnit`. -/
def readSizes (openUnit : Nat → UInt64 → Except IoErrorKind Source) (read : ReadToEnd Source)
    (units : Store String UnitDescriptor) : Except OpenFailure (UInt64 × UInt64 × Source) :=
  match units["brs"]? with
  | none => .error (.error (.gFile .blocksUnitMissing))
  | some blocksUnit => do
    let source ← (openUnit blocksUnit.offset blocksUnit.compressedSize).mapError fun kind =>
      OpenFailure.error (.io kind)
    let (pieceSize, source) ← readBytes read 4 source
    let (size, source) ← readBytes read 8 source
    return (UInt64.ofNat (decodeBE pieceSize), UInt64.ofNat (decodeBE size), source)

def tryNew (openUnit : Nat → UInt64 → Except IoErrorKind Source) (read : ReadToEnd Source)
    (units : Store String UnitDescriptor) : Except OpenFailure (BlockParser Source) := do
  let (pieceSize, size, source) ← readSizes openUnit read units
  let hashes ← hashesLength pieceSize size
  let outcome := read source hashes.toNat
  match outcome.failure with
  | some kind => throw (.error (.io kind))
  | none =>
    return ⟨SliceReader.new outcome.source maxMemUsage.toNat (maxMemUsage.toNat / 2), false⟩

def exactHashes (pieceSize size : UInt64) : Nat :=
  (size.toNat + pieceSize.toNat - 1) / pieceSize.toNat

/-- No operation on the sizes leaves its range, and the parser is only returned for sizes
within the limit. -/
def Sound (openUnit : Nat → UInt64 → Except IoErrorKind Source) (read : ReadToEnd Source)
    (units : Store String UnitDescriptor) : Prop :=
  (∀ message, tryNew openUnit read units ≠ .error (.panic message)) ∧
    ∀ parser, tryNew openUnit read units = .ok parser →
      ∃ pieceSize size source, readSizes openUnit read units = .ok (pieceSize, size, source) ∧
        0 < pieceSize ∧
        pieceSize.toNat + exactHashes pieceSize size * 128 ≤ 256 * 1024 * 1024

theorem ceil_eq (dividend divisor : Nat) (positive : 0 < divisor) :
    (dividend + divisor - 1) / divisor =
      if 0 < dividend % divisor then dividend / divisor + 1 else dividend / divisor := by
  have whole := Nat.div_add_mod dividend divisor
  have small := Nat.mod_lt dividend positive
  split_ifs with rest
  · have shifted : dividend + divisor - 1 =
        divisor * (dividend / divisor + 1) + (dividend % divisor - 1) := by
      rw [Nat.mul_add_one]
      omega
    have nothing : (dividend % divisor - 1) / divisor = 0 := Nat.div_eq_of_lt (by omega)
    rw [shifted, Nat.mul_add_div positive, nothing, Nat.add_zero]
  · have shifted : dividend + divisor - 1 = divisor * (dividend / divisor) + (divisor - 1) := by
      omega
    have nothing : (divisor - 1) / divisor = 0 := Nat.div_eq_of_lt (by omega)
    rw [shifted, Nat.mul_add_div positive, nothing, Nat.add_zero]

/-- The quotient can only be rounded up for a divisor from 2 on, where the sum fits. -/
theorem div_ceil_exact {size pieceSize : UInt64} (positive : 0 < pieceSize) :
    ∃ numHashes, divCeil size pieceSize = .ok numHashes ∧
      numHashes.toNat = exactHashes pieceSize size := by
  have nonzero : pieceSize ≠ 0 := fun zero => absurd positive (by rw [zero]; decide)
  have positiveNat : 0 < pieceSize.toNat := UInt64.lt_iff_toNat_lt.mp positive
  refine ⟨_, if_neg nonzero, ?_⟩
  rw [exactHashes, ceil_eq _ _ positiveNat]
  simp only [gt_iff_lt, UInt64.lt_iff_toNat_lt, UInt64.toNat_mod, UInt64.toNat_zero]
  split_ifs with rest
  · have bound := size.toNat_lt
    have several : 2 ≤ pieceSize.toNat := by
      by_contra single
      have one : pieceSize.toNat = 1 := by omega
      rw [one, Nat.mod_one] at rest
      omega
    have half : size.toNat / pieceSize.toNat ≤ size.toNat / 2 :=
      Nat.div_le_div_left several (by decide)
    rw [UInt64.toNat_add, UInt64.toNat_div, UInt64.toNat_one, Nat.mod_eq_of_lt (by omega)]
  · rw [UInt64.toNat_div]

theorem checked_mul_ok {left right : UInt64} (fits : left.toNat * right.toNat < 2 ^ 64) :
    checkedMul left right = .ok (left * right) ∧
      (left * right).toNat = left.toNat * right.toNat :=
  ⟨if_pos fits, by rw [UInt64.toNat_mul, Nat.mod_eq_of_lt fits]⟩

theorem checked_add_ok {left right : UInt64} (fits : left.toNat + right.toNat < 2 ^ 64) :
    checkedAdd left right = .ok (left + right) ∧
      (left + right).toNat = left.toNat + right.toNat :=
  ⟨if_pos fits, by rw [UInt64.toNat_add, Nat.mod_eq_of_lt fits]⟩

/-- The sizes do not make the limit check divide by zero or overflow. -/
def SizesInRange (pieceSize size : UInt64) : Prop :=
  0 < pieceSize ∧ pieceSize.toNat + exactHashes pieceSize size * 128 < 2 ^ 64

theorem hashes_length_in_range {pieceSize size : UInt64} (inRange : SizesInRange pieceSize size) :
    (∃ error, hashesLength pieceSize size = .error (.error error)) ∨
      (∃ hashes, hashesLength pieceSize size = .ok hashes) ∧
        pieceSize.toNat + exactHashes pieceSize size * 128 ≤ 256 * 1024 * 1024 := by
  obtain ⟨positive, fits⟩ := inRange
  obtain ⟨numHashes, divided, exact⟩ := @div_ceil_exact size pieceSize positive
  rw [← exact] at fits ⊢
  have product : numHashes.toNat * (128 : UInt64).toNat < 2 ^ 64 := by
    simp only [UInt64.reduceToNat]
    omega
  obtain ⟨multiplied, productExact⟩ := checked_mul_ok product
  have sum : pieceSize.toNat + (numHashes * 128).toNat < 2 ^ 64 := by
    rw [productExact]
    exact fits
  obtain ⟨added, sumExact⟩ := checked_add_ok sum
  simp only [hashesLength, divided, multiplied, added, bind, Except.bind]
  split
  · exact .inl ⟨_, rfl⟩
  · rename_i within
    have limit : pieceSize.toNat + numHashes.toNat * 128 ≤ 256 * 1024 * 1024 := by
      rw [gt_iff_lt, UInt64.lt_iff_toNat_lt, sumExact, productExact] at within
      simp only [maxMemUsage, UInt64.reduceToNat, UInt64.reduceMul] at within
      omega
    have short : numHashes.toNat * (32 : UInt64).toNat < 2 ^ 64 := by
      simp only [UInt64.reduceToNat]
      omega
    exact .inr ⟨⟨_, (checked_mul_ok short).1⟩, limit⟩

theorem hashes_length_panics {pieceSize size : UInt64} (outside : ¬ SizesInRange pieceSize size) :
    ∃ message, hashesLength pieceSize size = .error (.panic message) := by
  by_cases positive : 0 < pieceSize
  · have large : ¬ pieceSize.toNat + exactHashes pieceSize size * 128 < 2 ^ 64 :=
      fun fits => outside ⟨positive, fits⟩
    obtain ⟨numHashes, divided, exact⟩ := @div_ceil_exact size pieceSize positive
    rw [← exact] at large
    by_cases product : numHashes.toNat * (128 : UInt64).toNat < 2 ^ 64
    · obtain ⟨multiplied, productExact⟩ := checked_mul_ok product
      have sum : ¬ pieceSize.toNat + (numHashes * 128).toNat < 2 ^ 64 := by
        rw [productExact]
        exact large
      refine ⟨"attempt to add with overflow", ?_⟩
      simp only [hashesLength, divided, multiplied, bind, Except.bind, checkedAdd, if_neg sum]
    · refine ⟨"attempt to multiply with overflow", ?_⟩
      simp only [hashesLength, divided, bind, Except.bind, checkedMul, if_neg product]
  · have zero : pieceSize = 0 := by
      rw [UInt64.lt_iff_toNat_lt] at positive
      exact UInt64.toNat_inj.mp (by simpa using positive)
    refine ⟨"attempt to divide by zero", ?_⟩
    simp only [hashesLength, divCeil, if_pos zero, bind, Except.bind]

theorem bind_no_panic {First Second : Type} {first : Except OpenFailure First}
    {next : First → Except OpenFailure Second}
    (head : ∀ message, first ≠ .error (.panic message))
    (tail : ∀ value message, next value ≠ .error (.panic message)) (message : String) :
    (first >>= next) ≠ .error (.panic message) := by
  cases first with
  | error failure =>
      intro panics
      cases panics
      exact head message rfl
  | ok value => exact tail value message

theorem read_bytes_no_panic (read : ReadToEnd Source) (count : Nat) (source : Source)
    (message : String) : readBytes read count source ≠ .error (.panic message) := by
  unfold readBytes
  dsimp only
  split
  · exact nofun
  · split <;> exact nofun

theorem read_sizes_no_panic (openUnit : Nat → UInt64 → Except IoErrorKind Source)
    (read : ReadToEnd Source) (units : Store String UnitDescriptor) (message : String) :
    readSizes openUnit read units ≠ .error (.panic message) := by
  unfold readSizes
  split
  · exact nofun
  · rename_i blocksUnit _
    apply bind_no_panic
    · cases openUnit blocksUnit.offset blocksUnit.compressedSize with
      | error kind => exact nofun
      | ok source => exact nofun
    intro source
    apply bind_no_panic (read_bytes_no_panic read 4 source)
    intro pieceSize
    apply bind_no_panic (read_bytes_no_panic read 8 pieceSize.2)
    exact nofun

/-- The validation of the sizes is sound exactly if the sizes found in the file, if any, keep
the limit check in the range of `usize`. -/
theorem try_new_sound_iff (openUnit : Nat → UInt64 → Except IoErrorKind Source)
    (read : ReadToEnd Source) (units : Store String UnitDescriptor) :
    Sound openUnit read units ↔
      ∀ pieceSize size source, readSizes openUnit read units = .ok (pieceSize, size, source) →
        SizesInRange pieceSize size := by
  constructor
  · intro sound pieceSize size source sizes
    by_contra outside
    obtain ⟨message, panics⟩ := hashes_length_panics outside
    exact sound.1 message (by simp only [tryNew, sizes, panics, bind, Except.bind])
  · intro inRange
    cases sizes : readSizes openUnit read units with
    | error failure =>
        have fails : tryNew openUnit read units = .error failure := by
          simp only [tryNew, sizes, bind, Except.bind]
        rw [Sound, fails]
        refine ⟨?_, nofun⟩
        intro message panics
        cases panics
        exact read_sizes_no_panic openUnit read units message sizes
    | ok found =>
        obtain ⟨pieceSize, size, source⟩ := found
        have both := inRange pieceSize size source sizes
        unfold Sound
        rcases hashes_length_in_range both with ⟨error, fails⟩ | ⟨⟨hashes, fits⟩, limit⟩
        · simp only [tryNew, sizes, fails, bind, Except.bind]
          exact ⟨nofun, nofun⟩
        · refine ⟨?_, fun parser _ => ⟨pieceSize, size, source, sizes, both.1, limit⟩⟩
          intro message panics
          simp only [tryNew, sizes, fits, bind, Except.bind] at panics
          split at panics <;> cases panics

def brsUnits : Store String UnitDescriptor :=
  (∅ : Store String UnitDescriptor).insert "brs" ⟨0, 12, 12⟩

def openMemory (bytes : Bytes) : Nat → UInt64 → Except IoErrorKind Bytes := fun _ _ => .ok bytes

/-- Twelve zero bytes divide by zero, and pieces of one byte for the largest size overflow. -/
theorem try_new_panics :
    tryNew (openMemory (List.replicate 12 0)) readMemory brsUnits =
        .error (.panic "attempt to divide by zero") ∧
      tryNew (openMemory ([0, 0, 0, 1] ++ List.replicate 8 0xff)) readMemory brsUnits =
        .error (.panic "attempt to multiply with overflow") ∧
      ¬ Sound (openMemory (List.replicate 12 0)) readMemory brsUnits ∧
      ¬ Sound (openMemory ([0, 0, 0, 1] ++ List.replicate 8 0xff)) readMemory brsUnits := by
  have unit : brsUnits["brs"]? = some ⟨0, 12, 12⟩ := by simp [brsUnits]
  have first : tryNew (openMemory (List.replicate 12 0)) readMemory brsUnits =
      .error (.panic "attempt to divide by zero") := by
    rw [tryNew, readSizes, unit]
    rfl
  have second : tryNew (openMemory ([0, 0, 0, 1] ++ List.replicate 8 0xff)) readMemory brsUnits =
      .error (.panic "attempt to multiply with overflow") := by
    rw [tryNew, readSizes, unit]
    rfl
  exact ⟨first, second, fun sound => sound.1 _ first, fun sound => sound.1 _ second⟩

end Bertha.ParserOpening
