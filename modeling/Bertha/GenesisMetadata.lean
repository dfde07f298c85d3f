import Bertha.GenesisUnits

/-!
# Reading back the units of a genesis file

The file that a list of units is written to, and what `parse_metadata` returns for it: the
network of the common header and, for every unit, where its payload stands. The payload of
one unit reaches into the look-ahead of the decoder, so the step lemma says that the
look-ahead is given back exactly; the run lemma follows the file unit by unit.
-/

namespace Bertha.GenesisMetadata

open Bertha.BigEndian Bertha.BlockTypes Bertha.GenesisUnits Bertha.Loops Bertha.OrderedStore
open Bertha.Rlp Bertha.RlpFields

set_option autoImplicit false

/-- A unit as it is written, with its hash, its uncompressed size and its payload. -/
structure UnitSection where
  unit : GenesisUnit
  hash : Hash
  uncompressedSize : UInt64
  payload : Bytes

def UnitSection.preamble (written : UnitSection) : Bytes :=
  fileHeader ++ fileVersion ++ written.unit.encode ++ written.hash.val ++
    encodeBE 8 written.payload.length ++ encodeBE 8 written.uncompressedSize.toNat

def UnitSection.bytes (written : UnitSection) : Bytes := written.preamble ++ written.payload

def genesisFile (sections : List UnitSection) : Bytes := sections.flatMap UnitSection.bytes

/-- The descriptor of a unit that is written after the bytes `before`. -/
def UnitSection.descriptor (written : UnitSection) (before : Bytes) : UnitDescriptor where
  offset := (before ++ written.preamble).length
  compressedSize := UInt64.ofNat written.payload.length
  uncompressedSize := written.uncompressedSize

theorem reads_text (text : String) : Reads decodeText (encodeText text) text := by
  have valid : String.fromUTF8? ⟨(utf8Bytes text).toArray⟩ = some text := by
    simp [utf8Bytes, String.fromUTF8?, text.isValidUTF8, String.fromUTF8]
  rw [← List.append_nil (encodeText text)]
  apply (reads_bytes (utf8Bytes text)).bind
  rw [valid]
  exact Reads.pure text

theorem reads_genesis_header (header : GenesisHeader) :
    Reads GenesisHeader.decode header.encode header := by
  apply reads_struct
  apply (reads_fixed header.genesisId).bind
  apply (reads_u64 header.networkId).bind
  apply (reads_text header.networkName).bind
  exact Reads.pure header

theorem reads_unit (unit : GenesisUnit) : Reads GenesisUnit.decode unit.encode unit := by
  apply reads_struct
  apply (reads_text unit.unitName).bind
  apply (reads_genesis_header unit.header).bind
  exact Reads.pure unit

section Step

variable {written : UnitSection} {before after : Bytes}

private def unitEnd (written : UnitSection) (before : Bytes) : Nat :=
  before.length + 8 + written.unit.encode.length

private theorem drop_front {front back : Bytes} {position : Nat}
    (placed : position = front.length) : (front ++ back).drop position = back := by
  rw [placed, List.drop_left]

theorem unit_buffer_written (short : written.unit.encode.length ≤ lookAhead) (tail : Bytes)
    {front : Bytes} {position : Nat} (placed : position = front.length) :
    unitBuffer (front ++ (written.unit.encode ++ tail)) position =
      written.unit.encode ++ tail.take (lookAhead - written.unit.encode.length) := by
  rw [unitBuffer, drop_front placed, List.take_append, List.take_of_length_le short]

private theorem size_written {front back : Bytes} {position value : Nat} (small : value < 2 ^ 64)
    (placed : position = front.length) :
    sizeAt (front ++ (encodeBE 8 value ++ back)) position = UInt64.ofNat value := by
  rw [sizeAt, drop_front placed, List.take_left' (encode_be_length 8 value),
    decode_encode_be_of_lt (by simpa using small)]

theorem unit_at_written (short : written.unit.encode.length ≤ lookAhead)
    (addressable : (before ++ (written.bytes ++ after)).length < 2 ^ 64) :
    UnitAt (before ++ (written.bytes ++ after)) before.length written.unit
      (unitEnd written before) := by
  have hashLength := written.hash.property
  simp only [UnitSection.bytes, UnitSection.preamble, List.length_append, fileHeader,
    fileVersion, List.length_cons, List.length_nil, encode_be_length] at addressable
  constructor
  · simp only [UnitSection.bytes, UnitSection.preamble, List.append_assoc]
    rw [drop_front rfl]
    rfl
  · have layout : before ++ (written.bytes ++ after) = (before ++ fileHeader) ++ (fileVersion ++
        (written.unit.encode ++ (written.hash.val ++ (encodeBE 8 written.payload.length ++
          (encodeBE 8 written.uncompressedSize.toNat ++ (written.payload ++ after)))))) := by
      simp only [UnitSection.bytes, UnitSection.preamble, List.append_assoc]
    rw [layout, drop_front (by simp [fileHeader])]
    rfl
  · have layout : before ++ (written.bytes ++ after) =
        (before ++ fileHeader ++ fileVersion) ++ (written.unit.encode ++ (written.hash.val ++
          (encodeBE 8 written.payload.length ++ (encodeBE 8 written.uncompressedSize.toNat ++
            (written.payload ++ after))))) := by
      simp only [UnitSection.bytes, UnitSection.preamble, List.append_assoc]
    rw [layout, unit_buffer_written short _ (by simp [fileHeader, fileVersion])]
    refine ⟨_, reads_unit written.unit (by omega) _, ?_⟩
    simp only [unitEnd, List.length_append]
    omega
  · unfold unitEnd
    omega
  · simp only [UnitSection.bytes, UnitSection.preamble, List.length_append, unitEnd, fileHeader,
      fileVersion, List.length_cons, List.length_nil, encode_be_length]
    omega

private theorem preamble_length :
    (before ++ written.preamble).length = unitEnd written before + 48 := by
  have hashLength := written.hash.property
  simp only [UnitSection.preamble, List.length_append, unitEnd, fileHeader, fileVersion,
    List.length_cons, List.length_nil, encode_be_length]
  omega

theorem descriptor_at_written (small : written.payload.length < 2 ^ 64) :
    descriptorAt (before ++ (written.bytes ++ after)) (unitEnd written before) =
      written.descriptor before := by
  have hashLength := written.hash.property
  have compressed : before ++ (written.bytes ++ after) =
      (before ++ fileHeader ++ fileVersion ++ written.unit.encode ++ written.hash.val) ++
        (encodeBE 8 written.payload.length ++ (encodeBE 8 written.uncompressedSize.toNat ++
          (written.payload ++ after))) := by
    simp only [UnitSection.bytes, UnitSection.preamble, List.append_assoc]
  have uncompressed : before ++ (written.bytes ++ after) =
      (before ++ fileHeader ++ fileVersion ++ written.unit.encode ++ written.hash.val ++
        encodeBE 8 written.payload.length) ++ (encodeBE 8 written.uncompressedSize.toNat ++
          (written.payload ++ after)) := by
    simp only [UnitSection.bytes, UnitSection.preamble, List.append_assoc]
  have first : sizeAt (before ++ (written.bytes ++ after)) (unitEnd written before + 32) =
      UInt64.ofNat written.payload.length := by
    rw [compressed]
    apply size_written small
    simp [unitEnd, fileHeader, fileVersion, hashLength]
    omega
  have second : sizeAt (before ++ (written.bytes ++ after)) (unitEnd written before + 40) =
      written.uncompressedSize := by
    rw [uncompressed, size_written written.uncompressedSize.toNat_lt, UInt64.ofNat_toNat]
    simp [unitEnd, fileHeader, fileVersion, hashLength]
    omega
  rw [descriptorAt, UnitSection.descriptor, first, second, preamble_length]

theorem as_i64_of_small {size : Nat} (small : size < 2 ^ 63) :
    asI64 (UInt64.ofNat size) = size := by
  have value : (UInt64.ofNat size).toNat = size := UInt64.toNat_ofNat_of_lt' (lt_trans small (by decide))
  rw [asI64, BitVec.toInt_eq_toNat_cond, UInt64.toNat_toBitVec, value, if_pos (by omega)]

/-- One round over a written unit: it moves to the end of the payload. -/
theorem parse_iteration_written {state : ParseState}
    (short : written.unit.encode.length ≤ lookAhead) (small : written.payload.length < 2 ^ 63)
    (addressable : (before ++ (written.bytes ++ after)).length < 2 ^ 64)
    (placed : state.position = before.length)
    (agrees : ∀ header, state.header = some header → header = written.unit.header) :
    parseIteration (before ++ (written.bytes ++ after)) state =
      .ok { header := some written.unit.header
            units := applyOp state.units
              (.put written.unit.unitName (written.descriptor before))
            position := (before ++ written.bytes).length } := by
  have described := @descriptor_at_written written before after (by omega)
  have size := congrArg UnitDescriptor.compressedSize described
  have bound : (before ++ written.bytes).length ≤ (before ++ (written.bytes ++ after)).length := by
    simp only [List.length_append]
    omega
  apply parse_iteration_iff.mpr
  refine ⟨written.unit, unitEnd written before, placed ▸ unit_at_written short addressable, agrees,
    ?_, lt_of_le_of_lt bound addressable, rfl, ?_⟩
  · change _ = _ + asI64 (descriptorAt _ _).compressedSize
    rw [described]
    change _ = _ + asI64 (UInt64.ofNat written.payload.length)
    rw [as_i64_of_small small, ← preamble_length, UnitSection.bytes, ← List.append_assoc,
      List.length_append]
    push_cast
    rfl
  · rw [described]
    rfl

end Step

def descriptors : Bytes → List UnitSection → List (String × UnitDescriptor)
  | _, [] => []
  | before, written :: rest =>
    (written.unit.unitName, written.descriptor before) ::
      descriptors (before ++ written.bytes) rest

/-- What makes a list of units fit the reader. -/
structure Fits (header : GenesisHeader) (written : UnitSection) : Prop where
  common : written.unit.header = header
  short : written.unit.encode.length ≤ lookAhead
  small : written.payload.length < 2 ^ 63

theorem run_written {header : GenesisHeader} {sections : List UnitSection}
    (fits : ∀ written ∈ sections, Fits header written) {before : Bytes} {state : ParseState}
    (addressable : (before ++ genesisFile sections).length < 2 ^ 64)
    (placed : state.position = before.length)
    (agrees : ∀ earlier, state.header = some earlier → earlier = header)
    (known : sections = [] → state.header = some header) :
    runLoop (parseRound (before ++ genesisFile sections)) (sections.length + 1) state =
      some (.ok { chainId := header.networkId
                  units := applyBatch state.units (putOps (descriptors before sections)) }) := by
  induction sections generalizing before state with
  | nil =>
      have ended : (before ++ genesisFile []).length ≤ state.position := by
        simp [genesisFile, placed]
      apply run_loop_done
      rw [parseRound, if_pos ended, finishMetadata, known rfl]
      rfl
  | cons written rest ih =>
      have fit := fits written (by simp)
      have layout : before ++ genesisFile (written :: rest) =
          before ++ (written.bytes ++ genesisFile rest) := rfl
      rw [layout] at addressable ⊢
      have within : state.position < (before ++ (written.bytes ++ genesisFile rest)).length := by
        simp [placed, UnitSection.bytes, UnitSection.preamble, fileHeader]
      have round := parse_iteration_written fit.short fit.small addressable placed
        (fun earlier same => (agrees earlier same).trans fit.common.symm)
      have goesOn := parse_round_next_iff.mpr ⟨within, round⟩
      rw [List.length_cons, run_loop_next goesOn, ← List.append_assoc]
      rw [← List.append_assoc] at addressable
      rw [ih (fun other member => fits other (by simp [member])) addressable rfl
        (by rintro _ ⟨⟩; exact fit.common) (fun _ => by rw [fit.common])]
      rfl

theorem descriptors_names (before : Bytes) (sections : List UnitSection) :
    (descriptors before sections).map Prod.fst = sections.map (·.unit.unitName) := by
  induction sections generalizing before with
  | nil => rfl
  | cons written rest ih =>
      simp only [descriptors, List.map_cons]
      rw [ih]

theorem mem_descriptors {before : Bytes} {sections : List UnitSection} {name : String}
    {descriptor : UnitDescriptor} :
    (name, descriptor) ∈ descriptors before sections ↔
      ∃ earlier written later, sections = earlier ++ written :: later ∧
        name = written.unit.unitName ∧
        descriptor = written.descriptor (before ++ genesisFile earlier) := by
  induction sections generalizing before with
  | nil => simp [descriptors]
  | cons first rest ih =>
      rw [descriptors, List.mem_cons, ih]
      constructor
      · rintro (same | ⟨earlier, written, later, rfl, named, described⟩)
        · cases same
          exact ⟨[], first, rest, rfl, rfl, by simp [genesisFile]⟩
        · refine ⟨first :: earlier, written, later, rfl, named, ?_⟩
          rw [described, List.append_assoc]
          rfl
      · rintro ⟨earlier, written, later, split, named, described⟩
        cases earlier with
        | nil =>
            cases split
            left
            rw [named, described]
            simp [genesisFile]
        | cons head earlier =>
            cases split
            right
            refine ⟨earlier, written, later, rfl, named, ?_⟩
            rw [described, List.append_assoc]
            rfl

/-- Parsing the metadata of a written file returns the network of the common header and
exactly the units of the file, each with its sizes and the position of its payload. A
stream position is a `u64`, so the file has fewer than `2 ^ 64` bytes. -/
theorem parse_metadata_written (sections : List UnitSection) (header : GenesisHeader)
    (nonempty : sections ≠ [])
    (distinct : (sections.map fun written => written.unit.unitName).Nodup)
    (common : ∀ written ∈ sections, written.unit.header = header)
    (short : ∀ written ∈ sections, written.unit.encode.length ≤ 1024)
    (small : ∀ written ∈ sections, written.payload.length < 2 ^ 63)
    (addressable : (genesisFile sections).length < 2 ^ 64) :
    ∃ metadata,
      parseMetadata (sections.length + 1) (genesisFile sections) = some (.ok metadata) ∧
      metadata.chainId = header.networkId ∧
      ∀ name descriptor, metadata.units[name]? = some descriptor ↔
        ∃ earlier written later, sections = earlier ++ written :: later ∧
          name = written.unit.unitName ∧
          descriptor =
            { offset := (genesisFile earlier ++ written.preamble).length
              compressedSize := UInt64.ofNat written.payload.length
              uncompressedSize := written.uncompressedSize } := by
  have fits : ∀ written ∈ sections, Fits header written := fun written member =>
    ⟨common written member, short written member, small written member⟩
  have run := @run_written header sections fits [] initialState addressable rfl
    (by rintro _ ⟨⟩) (fun empty => absurd empty nonempty)
  rw [← descriptors_names []] at distinct
  refine ⟨_, run, rfl, ?_⟩
  intro name descriptor
  have listed : (name, descriptor) ∈ descriptors [] sections ↔ _ := mem_descriptors
  constructor
  · intro found
    apply listed.mp
    by_contra absent
    by_cases known : name ∈ (descriptors [] sections).map Prod.fst
    · obtain ⟨⟨_, other⟩, member, rfl⟩ := List.mem_map.mp known
      rw [get_put_ops_of_mem distinct member] at found
      cases found
      exact absent member
    · rw [get_put_ops_of_not_mem known] at found
      simp [initialState] at found
  · intro written
    exact get_put_ops_of_mem distinct (listed.mpr written) _

def sampleSections : List UnitSection :=
  let header : GenesisHeader := ⟨FixedBytes.zero 32, 146, "sonic"⟩
  [⟨⟨"brs", header⟩, FixedBytes.zero 32, 7, [1, 2, 3]⟩,
    ⟨⟨"ers", header⟩, FixedBytes.zero 32, 0, []⟩]

theorem parse_metadata_sample :
    ∃ metadata,
      parseMetadata 3 (genesisFile sampleSections) = some (.ok metadata) ∧
      metadata.chainId = 146 ∧
      ∀ name descriptor, metadata.units[name]? = some descriptor ↔
        ∃ earlier written later, sampleSections = earlier ++ written :: later ∧
          name = written.unit.unitName ∧
          descriptor =
            { offset := (genesisFile earlier ++ written.preamble).length
              compressedSize := UInt64.ofNat written.payload.length
              uncompressedSize := written.uncompressedSize } :=
  parse_metadata_written sampleSections ⟨FixedBytes.zero 32, 146, "sonic"⟩ (by simp [sampleSections])
    (by decide) (by decide) (by decide +kernel) (by decide) (by decide +kernel)

end Bertha.GenesisMetadata
