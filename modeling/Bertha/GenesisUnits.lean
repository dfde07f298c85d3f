import Bertha.Loops
import Bertha.OrderedStore
import Bertha.RlpFields

/-!
# Units of a genesis file

`read_file_header`, `parse_unit` and `parse_metadata` of
`genesis-parser/src/g_file/units.rs`, over a seekable byte array. A unit is decoded from a
look-ahead of at most 1024 bytes, the reader is set back by what the decoder left over,
and the payload is skipped by its compressed size, which the source reinterprets as a
signed offset. `parse_iteration_iff` says once what one round of the loop does.
-/

namespace Bertha.GenesisUnits

open Bertha.BigEndian Bertha.BlockTypes Bertha.Conversion Bertha.Loops Bertha.OrderedStore
open Bertha.Rlp Bertha.RlpFields

set_option autoImplicit false

inductive IoErrorKind where
  | unexpectedEof
  | invalidInput
deriving DecidableEq, Repr

inductive GFileError where
  | headerMissing
  | invalidHeader (got expected : Bytes)
  | headerMismatch
  | invalidFileVersion (got expected : Bytes)
  | blocksUnitMissing
  | pieceSizeTooLarge (got max : Nat)
deriving DecidableEq, Repr

/-- The variants of `genesis_parser::Error` that the `.g` file reader returns. -/
inductive Error where
  | rlp (error : RlpError)
  | io (kind : IoErrorKind)
  | gFile (error : GFileError)
deriving DecidableEq, Repr

structure GenesisHeader where
  genesisId : Hash
  networkId : UInt64
  networkName : String
deriving DecidableEq

structure GenesisUnit where
  unitName : String
  header : GenesisHeader
deriving DecidableEq

structure UnitDescriptor where
  offset : Nat
  compressedSize : UInt64
  uncompressedSize : UInt64
deriving DecidableEq

structure GenesisMetadata where
  chainId : UInt64
  units : Store String UnitDescriptor

def utf8Bytes (text : String) : Bytes := text.toByteArray.data.toList

def encodeText (text : String) : Bytes := encodeBytes (utf8Bytes text)

def decodeText : Decoder String := do
  let bytes ← decodeBytes false
  match String.fromUTF8? ⟨bytes.toArray⟩ with
  | some text => return text
  | none => throw (.custom "invalid string")

def GenesisHeader.encode (header : GenesisHeader) : Bytes :=
  encodeList [encodeFixed header.genesisId, encodeU64 header.networkId,
    encodeText header.networkName]

def GenesisHeader.decode : Decoder GenesisHeader := decodeStruct do
  let genesisId ← decodeFixed 32
  let networkId ← decodeU64
  let networkName ← decodeText
  return { genesisId, networkId, networkName }

def GenesisUnit.encode (unit : GenesisUnit) : Bytes :=
  encodeList [encodeText unit.unitName, unit.header.encode]

def GenesisUnit.decode : Decoder GenesisUnit := decodeStruct do
  let unitName ← decodeText
  let header ← GenesisHeader.decode
  return { unitName, header }

def fileHeader : Bytes := [0x64, 0x1b, 0x00, 0xac]

def fileVersion : Bytes := [0x00, 0x02, 0x00, 0x01]

/-- A reader over a byte array; the state is the stream position. -/
abbrev Reader (Value : Type) := StateT Nat (Except Error) Value

/-- `seek_relative`: the target must be a `u64`, but may lie behind the end. -/
def seekRelative (offset : Int) : Reader PUnit := fun position =>
  let target := (position : Int) + offset
  if target < 0 ∨ 2 ^ 64 ≤ target then .error (.io .invalidInput)
  else .ok ((), target.toNat)

def readExact (data : Bytes) (count : Nat) : Reader Bytes := fun position =>
  if (data.drop position).length < count then .error (.io .unexpectedEof)
  else .ok ((data.drop position).take count, position + count)

def readU64 (data : Bytes) : Reader UInt64 := do
  let bytes ← readExact data 8
  return UInt64.ofNat (decodeBE bytes)

/-- The two reads of `read_file_header`: the end of the file there means that the header
is missing. -/
def expectBytes (data expected : Bytes) (mismatch : Bytes → Bytes → GFileError) :
    Reader PUnit := fun position =>
  match readExact data 4 position with
  | .ok (bytes, position) =>
    if bytes = expected then .ok ((), position)
    else .error (.gFile (mismatch bytes expected))
  | .error (.io .unexpectedEof) => .error (.gFile .headerMissing)
  | .error error => .error error

def readFileHeader (data : Bytes) : Reader PUnit := do
  expectBytes data fileHeader .invalidHeader
  expectBytes data fileVersion .invalidFileVersion

def lookAhead : Nat := 1024

def parseUnit (data : Bytes) (readerLen : Nat) : Reader GenesisUnit := do
  let position ← get
  let unitBuffer ← readExact data (min lookAhead (readerLen - position))
  match GenesisUnit.decode unitBuffer with
  | .ok (unit, rest) =>
    seekRelative (-(rest.length : Int))
    return unit
  | .error error => throw (.rlp error)

def asI64 (value : UInt64) : Int := value.toBitVec.toInt

structure ParseState where
  header : Option GenesisHeader
  units : Store String UnitDescriptor
  position : Nat

/-- The first unit's header is kept, and every later one must be equal to it. -/
def agreeHeader (header : Option GenesisHeader) (unit : GenesisUnit) :
    Except Error GenesisHeader :=
  match header with
  | some header =>
    if header ≠ unit.header then .error (.gFile .headerMismatch) else .ok header
  | none => .ok unit.header

/-- The body of the loop of `parse_metadata` after the position has been checked. -/
def parseIteration (data : Bytes) (state : ParseState) : Except Error ParseState := do
  let ((), position) ← readFileHeader data state.position
  let (unit, position) ← parseUnit data data.length position
  let header ← agreeHeader state.header unit
  let ((), position) ← seekRelative 32 position
  let (compressedSize, position) ← readU64 data position
  let (uncompressedSize, offset) ← readU64 data position
  let units := state.units.insert unit.unitName ⟨offset, compressedSize, uncompressedSize⟩
  let ((), position) ← seekRelative (asI64 compressedSize) offset
  return { header := some header, units, position }

def finishMetadata (state : ParseState) : Except Error GenesisMetadata :=
  match state.header with
  | some header => .ok { chainId := header.networkId, units := state.units }
  | none => .error (.gFile .headerMissing)

/-- One round of the loop, from the check of the position on. -/
def parseRound (data : Bytes) (state : ParseState) :
    Round ParseState (Except Error GenesisMetadata) :=
  if data.length ≤ state.position then .done (finishMetadata state)
  else
    match parseIteration data state with
    | .ok next => .next next
    | .error error => .done (.error error)

def initialState : ParseState := { header := none, units := ∅, position := 0 }

/-- `parse_metadata` with a bound on the number of rounds; `none` when that is not enough. -/
def parseMetadata (fuel : Nat) (data : Bytes) : Option (Except Error GenesisMetadata) :=
  runLoop (parseRound data) fuel initialState

theorem seek_relative_iff {offset : Int} {position target : Nat} :
    seekRelative offset position = .ok ((), target) ↔
      (target : Int) = position + offset ∧ target < 2 ^ 64 := by
  unfold seekRelative
  simp only
  split
  · constructor
    · intro impossible
      cases impossible
    · rintro ⟨placed, bounded⟩
      omega
  · simp only [Except.ok.injEq, Prod.mk.injEq, true_and]
    omega

theorem read_exact_iff {data bytes : Bytes} {count position next : Nat} :
    readExact data count position = .ok (bytes, next) ↔
      count ≤ (data.drop position).length ∧ bytes = (data.drop position).take count ∧
        next = position + count := by
  unfold readExact
  split
  · rename_i short
    constructor
    · intro impossible
      cases impossible
    · rintro ⟨enough, -⟩
      omega
  · rename_i enough
    simp only [Except.ok.injEq, Prod.mk.injEq]
    constructor
    · rintro ⟨rfl, rfl⟩
      exact ⟨by omega, rfl, rfl⟩
    · rintro ⟨-, rfl, rfl⟩
      exact ⟨rfl, rfl⟩

def sizeAt (data : Bytes) (position : Nat) : UInt64 :=
  UInt64.ofNat (decodeBE ((data.drop position).take 8))

theorem read_u64_iff {data : Bytes} {position next : Nat} {value : UInt64} :
    readU64 data position = .ok (value, next) ↔
      8 ≤ (data.drop position).length ∧ value = sizeAt data position ∧
        next = position + 8 := by
  change (readExact data 8 position >>= fun read =>
    Except.ok (UInt64.ofNat (decodeBE read.1), read.2)) = _ ↔ _
  rw [bind_eq_ok]
  constructor
  · rintro ⟨⟨bytes, after⟩, read, same⟩
    obtain ⟨enough, rfl, rfl⟩ := read_exact_iff.mp read
    simp only [Except.ok.injEq, Prod.mk.injEq] at same
    exact ⟨enough, same.1.symm, same.2.symm⟩
  · rintro ⟨enough, rfl, rfl⟩
    exact ⟨_, read_exact_iff.mpr ⟨enough, rfl, rfl⟩, rfl⟩

theorem expect_bytes_iff {data expected : Bytes} {mismatch : Bytes → Bytes → GFileError}
    {position next : Nat} (sized : expected.length = 4) :
    expectBytes data expected mismatch position = .ok ((), next) ↔
      (data.drop position).take 4 = expected ∧ next = position + 4 := by
  unfold expectBytes
  cases read : readExact data 4 position with
  | ok result =>
      obtain ⟨bytes, after⟩ := result
      obtain ⟨-, rfl, rfl⟩ := read_exact_iff.mp read
      simp only
      split
      · rename_i same
        simp only [Except.ok.injEq, Prod.mk.injEq, true_and, same]
        exact eq_comm
      · rename_i differs
        simp [differs]
  | error error =>
      constructor
      · intro impossible
        cases error with
        | rlp error => cases impossible
        | io kind => cases kind <;> cases impossible
        | gFile error => cases impossible
      · rintro ⟨same, -⟩
        have length := congrArg List.length same
        rw [List.length_take, sized] at length
        have enough := read_exact_iff.mpr ⟨show 4 ≤ (data.drop position).length by omega, rfl, rfl⟩
        rw [read] at enough
        cases enough

theorem read_file_header_iff {data : Bytes} {position next : Nat} :
    readFileHeader data position = .ok ((), next) ↔
      (data.drop position).take 4 = fileHeader ∧
        (data.drop (position + 4)).take 4 = fileVersion ∧ next = position + 8 := by
  change (expectBytes data fileHeader .invalidHeader position >>= fun read =>
    expectBytes data fileVersion .invalidFileVersion read.2) = _ ↔ _
  rw [bind_eq_ok]
  constructor
  · rintro ⟨⟨⟨⟩, middle⟩, first, second⟩
    obtain ⟨header, rfl⟩ := (expect_bytes_iff rfl).mp first
    obtain ⟨version, rfl⟩ := (expect_bytes_iff rfl).mp second
    exact ⟨header, version, rfl⟩
  · rintro ⟨header, version, rfl⟩
    exact ⟨((), position + 4), (expect_bytes_iff rfl).mpr ⟨header, rfl⟩,
      (expect_bytes_iff rfl).mpr ⟨version, rfl⟩⟩

def unitBuffer (data : Bytes) (position : Nat) : Bytes := (data.drop position).take lookAhead

theorem parse_unit_iff {data : Bytes} {position next : Nat} {unit : GenesisUnit} :
    parseUnit data data.length position = .ok (unit, next) ↔
      ∃ rest, GenesisUnit.decode (unitBuffer data position) = .ok (unit, rest) ∧
        next + rest.length = position + (unitBuffer data position).length ∧ next < 2 ^ 64 := by
  have count : min lookAhead (data.length - position) = (unitBuffer data position).length := by
    simp [unitBuffer]
  have read : readExact data (min lookAhead (data.length - position)) position =
      .ok (unitBuffer data position, position + (unitBuffer data position).length) := by
    rw [count]
    apply read_exact_iff.mpr
    refine ⟨by simp [unitBuffer], ?_, rfl⟩
    rw [unitBuffer, List.length_take, ← List.take_take, List.take_length]
  have unfolded : parseUnit data data.length position =
      match GenesisUnit.decode (unitBuffer data position) with
      | .ok (unit, rest) =>
        seekRelative (-(rest.length : Int)) (position + (unitBuffer data position).length) >>=
          fun moved => Except.ok (unit, moved.2)
      | .error error => .error (Error.rlp error) := by
    change (readExact data (min lookAhead (data.length - position)) position >>= fun read =>
      (match GenesisUnit.decode read.1 with
        | .ok (unit, rest) => (do seekRelative (-(rest.length : Int)); return unit)
        | .error error => throw (Error.rlp error)) read.2) = _
    rw [read]
    change (match GenesisUnit.decode (unitBuffer data position) with
        | .ok (unit, rest) => (do seekRelative (-(rest.length : Int)); return unit)
        | .error error => throw (Error.rlp error)) (position + (unitBuffer data position).length) = _
    cases GenesisUnit.decode (unitBuffer data position) <;> rfl
  rw [unfolded]
  cases decoded : GenesisUnit.decode (unitBuffer data position) with
  | error error => simp
  | ok result =>
      obtain ⟨found, rest⟩ := result
      simp only [Except.ok.injEq, Prod.mk.injEq]
      rw [bind_eq_ok]
      constructor
      · rintro ⟨⟨⟨⟩, target⟩, moved, same⟩
        obtain ⟨placed, bounded⟩ := seek_relative_iff.mp moved
        simp only [Except.ok.injEq, Prod.mk.injEq] at same
        obtain ⟨rfl, rfl⟩ := same
        exact ⟨rest, ⟨rfl, rfl⟩, by omega, bounded⟩
      · rintro ⟨_, ⟨rfl, rfl⟩, placed, bounded⟩
        exact ⟨((), next), seek_relative_iff.mpr ⟨by omega, bounded⟩, rfl⟩

theorem agree_header_iff {header : Option GenesisHeader} {unit : GenesisUnit}
    {kept : GenesisHeader} :
    agreeHeader header unit = .ok kept ↔
      (∀ earlier, header = some earlier → earlier = unit.header) ∧ kept = unit.header := by
  cases header with
  | none => simp [agreeHeader, eq_comm]
  | some earlier =>
      by_cases same : earlier = unit.header
      · simp [agreeHeader, same, eq_comm]
      · simp [agreeHeader, same]

/-- At `position` stands a unit that ends at `unitEnd`, before its hash and its sizes. -/
structure UnitAt (data : Bytes) (position : Nat) (unit : GenesisUnit) (unitEnd : Nat) :
    Prop where
  header : (data.drop position).take 4 = fileHeader
  version : (data.drop (position + 4)).take 4 = fileVersion
  decoded : ∃ rest, GenesisUnit.decode (unitBuffer data (position + 8)) = .ok (unit, rest) ∧
    unitEnd + rest.length = position + 8 + (unitBuffer data (position + 8)).length
  addressable : unitEnd + 32 < 2 ^ 64
  complete : unitEnd + 48 ≤ data.length

def descriptorAt (data : Bytes) (unitEnd : Nat) : UnitDescriptor where
  offset := unitEnd + 48
  compressedSize := sizeAt data (unitEnd + 32)
  uncompressedSize := sizeAt data (unitEnd + 40)

/-- What one round does: it reads a unit whose header agrees with the earlier ones, records
where its payload stands and moves by the compressed size. -/
theorem parse_iteration_iff {data : Bytes} {state next : ParseState} :
    parseIteration data state = .ok next ↔
      ∃ unit unitEnd, UnitAt data state.position unit unitEnd ∧
        (∀ header, state.header = some header → header = unit.header) ∧
        (next.position : Int) = (unitEnd + 48 : Nat) + asI64 (sizeAt data (unitEnd + 32)) ∧
        next.position < 2 ^ 64 ∧ next.header = some unit.header ∧
        next.units = state.units.insert unit.unitName (descriptorAt data unitEnd) := by
  unfold parseIteration
  simp only [bind_eq_ok, Prod.exists]
  constructor
  · rintro ⟨⟨⟩, afterHeader, headerRead, unit, unitEnd, unitRead, header, agreed, ⟨⟩, sizes,
      hashSkipped, compressed, middle, compressedRead, uncompressed, offset, uncompressedRead,
      ⟨⟩, target, moved, result⟩
    obtain ⟨headerAt, versionAt, rfl⟩ := read_file_header_iff.mp headerRead
    obtain ⟨rest, decoded, ended, -⟩ := parse_unit_iff.mp unitRead
    obtain ⟨skipped, addressable⟩ := seek_relative_iff.mp hashSkipped
    obtain ⟨-, rfl, rfl⟩ := read_u64_iff.mp compressedRead
    obtain ⟨enough, rfl, rfl⟩ := read_u64_iff.mp uncompressedRead
    obtain ⟨placed, bounded⟩ := seek_relative_iff.mp moved
    obtain rfl : sizes = unitEnd + 32 := by omega
    rw [List.length_drop] at enough
    obtain ⟨agrees, rfl⟩ := agree_header_iff.mp agreed
    cases result
    exact ⟨unit, unitEnd, ⟨headerAt, versionAt, ⟨rest, decoded, ended⟩, addressable, by omega⟩,
      agrees, placed, bounded, rfl, rfl⟩
  · rintro ⟨unit, unitEnd, found, agrees, placed, bounded, header, units⟩
    obtain ⟨rest, decoded, ended⟩ := found.decoded
    have addressable := found.addressable
    have complete := found.complete
    refine ⟨(), state.position + 8,
      read_file_header_iff.mpr ⟨found.header, found.version, rfl⟩, unit, unitEnd,
      parse_unit_iff.mpr ⟨rest, decoded, ended, by omega⟩, unit.header,
      agree_header_iff.mpr ⟨agrees, rfl⟩, (), unitEnd + 32,
      seek_relative_iff.mpr ⟨by omega, by omega⟩, sizeAt data (unitEnd + 32), unitEnd + 40,
      read_u64_iff.mpr ⟨by rw [List.length_drop]; omega, rfl, rfl⟩, sizeAt data (unitEnd + 40),
      unitEnd + 48, read_u64_iff.mpr ⟨by rw [List.length_drop]; omega, rfl, rfl⟩, (),
      next.position, seek_relative_iff.mpr ⟨placed, bounded⟩, ?_⟩
    obtain ⟨nextHeader, nextUnits, nextPosition⟩ := next
    cases header
    cases units
    rfl

theorem parse_round_next_iff {data : Bytes} {state next : ParseState} :
    parseRound data state = .next next ↔
      state.position < data.length ∧ parseIteration data state = .ok next := by
  unfold parseRound
  split
  · rename_i ended
    constructor
    · intro impossible
      cases impossible
    · rintro ⟨within, -⟩
      omega
  · rename_i within
    cases parseIteration data state with
    | error error => simp
    | ok found => simp [show state.position < data.length by omega]

end Bertha.GenesisUnits
