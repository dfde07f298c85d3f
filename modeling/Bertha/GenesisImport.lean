import Bertha.GenesisMetadata
import Bertha.ImportJunction
import Bertha.ParserOpening

/-!
# Importing a genesis file

`GFile` of `genesis-parser/src/g_file/mod.rs` and `import_gfile` of
`blockservice/src/cmd/import.rs`. The units of the file are found, the blocks unit is opened
behind its hashes, and the import takes block by block from the parser. From the bytes of a
written file to the verified chain in the database: the import stores the blocks of the records
and no others, and with verification it succeeds exactly for linked records.
-/

namespace Bertha.GenesisImport

open Bertha.BigEndian Bertha.BlockDb Bertha.BlockDbContents Bertha.BlockDbInvariant
open Bertha.BlockKeys Bertha.BlockParsing Bertha.BlockRanges Bertha.Conversion
open Bertha.GenesisBlocks Bertha.GenesisMetadata Bertha.GenesisUnits Bertha.Import
open Bertha.ImportExact Bertha.ImportJunction Bertha.ImportVerify Bertha.OrderedStore
open Bertha.ParserOpening Bertha.SliceReading Bertha.TrustedChain Bertha.Verifiers
open Bertha.VerifyCount
open Bertha.BlockTypes (Block FixedBytes Hash)

set_option autoImplicit false

variable {Source : Type}

structure GFile (Source : Type) where
  chainId : UInt64
  blocks : BlockParser Source

/-- The reader is moved to the unit, and what is taken from there is decompressed. -/
def openUnit (decompress : Bytes → Source) (data : Bytes) (offset : Nat)
    (compressedSize : UInt64) : Except IoErrorKind Source :=
  .ok (decompress ((data.drop offset).take compressedSize.toNat))

/-- `GFile::parse`; reading the metadata may take more rounds than the fuel allows. -/
def GFile.parse (decompress : Bytes → Source) (read : ReadToEnd Source) (fuel : Nat)
    (data : Bytes) : Option (Except OpenFailure (GFile Source)) :=
  (parseMetadata fuel data).map fun parsed => do
    let metadata ← parsed.mapError OpenFailure.error
    let blocks ← tryNew (openUnit decompress data) read metadata.units
    return ⟨metadata.chainId, blocks⟩

/-- What a loop over `GFile::blocks` sees in a number of calls. -/
def GFile.items (read : ReadToEnd Source) (calls : Nat) (genesis : GFile Source) :
    List (Except Error Block) :=
  ((results read calls genesis.blocks).takeWhile Option.isSome).reduceOption

def importGFile (env : Environment) (register : UInt64 → Except String Unit)
    (decompress : Bytes → Source) (read : ReadToEnd Source) (fuel calls : Nat) (db : KvDb)
    (data : Bytes) (verify : Bool) (isCancelled : Nat → Bool) :
    Option (Except OpenFailure (Outcome Error)) :=
  (GFile.parse decompress read fuel data).map fun parsed =>
    parsed.map fun genesis => importBlocks env (register genesis.chainId) db
      (genesis.items read calls) genesis.chainId verify isCancelled

/-! ## Written files -/

/-- A genesis file as it is written: the records of the blocks stand in descending order in
the unit `brs`, behind the sizes and the hashes of its pieces. -/
structure WrittenGenesis (decompress : Bytes → Bytes) where
  header : GenesisHeader
  earlier : List UnitSection
  blocksUnit : UnitSection
  later : List UnitSection
  pieceSize : UInt64
  size : UInt64
  hashes : Bytes
  records : List IdxFullBlock
  content : List Block
  total : UInt64
  named : blocksUnit.unit.unitName = "brs"
  distinct : ((earlier ++ blocksUnit :: later).map fun written => written.unit.unitName).Nodup
  fits : ∀ written ∈ earlier ++ blocksUnit :: later, Fits header written
  addressable : (genesisFile (earlier ++ blocksUnit :: later)).length < 2 ^ 64
  payload : decompress blocksUnit.payload =
    encodeBE 4 pieceSize.toNat ++ encodeBE 8 size.toNat ++ hashes ++
      records.flatMap IdxFullBlock.encode
  piece : 0 < pieceSize ∧ pieceSize.toNat < 2 ^ 32
  counted : hashes.length = exactHashes pieceSize size * 32
  limit : pieceSize.toNat + exactHashes pieceSize size * 128 ≤ maxMemUsage.toNat
  canonical : ∀ record ∈ records, ∀ tx ∈ record.block.transactions, Canonical tx
  short : ∀ record ∈ records, record.encode.length ≤ maxMemUsage.toNat / 2
  converts : records.mapM Block.tryFrom = .ok content
  numbered : Numbered total content

variable {decompress : Bytes → Bytes} (written : WrittenGenesis decompress)

def WrittenGenesis.sections : List UnitSection :=
  written.earlier ++ written.blocksUnit :: written.later

def WrittenGenesis.bytes : Bytes := genesisFile written.sections

theorem written_unit :
    ∃ metadata, parseMetadata (written.sections.length + 1) written.bytes =
        some (.ok metadata) ∧
      metadata.chainId = written.header.networkId ∧
      metadata.units["brs"]? =
        some (written.blocksUnit.descriptor (genesisFile written.earlier)) := by
  have run := @run_written written.header written.sections written.fits [] initialState
    written.addressable rfl nofun (by simp [WrittenGenesis.sections])
  refine ⟨_, run, rfl, ?_⟩
  apply get_put_ops_of_mem
  · rw [descriptors_names]
    exact written.distinct
  · apply mem_descriptors.mpr
    exact ⟨written.earlier, written.blocksUnit, written.later, rfl, written.named.symm, rfl⟩

theorem open_written_unit :
    openUnit decompress written.bytes
        (written.blocksUnit.descriptor (genesisFile written.earlier)).offset
        (written.blocksUnit.descriptor (genesisFile written.earlier)).compressedSize =
      .ok (decompress written.blocksUnit.payload) := by
  have small := (written.fits written.blocksUnit (by simp)).small
  have layout : written.bytes = (genesisFile written.earlier ++ written.blocksUnit.preamble) ++
      (written.blocksUnit.payload ++ genesisFile written.later) := by
    simp [WrittenGenesis.bytes, WrittenGenesis.sections, genesisFile, UnitSection.bytes]
  have size : (UInt64.ofNat written.blocksUnit.payload.length).toNat =
      written.blocksUnit.payload.length :=
    UInt64.toNat_ofNat_of_lt' (small.trans (by decide))
  rw [openUnit, layout, UnitSection.descriptor, List.drop_left, size, List.take_left]

theorem hashes_length_exact {pieceSize size : UInt64} (positive : 0 < pieceSize)
    (limit : pieceSize.toNat + exactHashes pieceSize size * 128 ≤ maxMemUsage.toNat) :
    ∃ length, hashesLength pieceSize size = .ok length ∧
      length.toNat = exactHashes pieceSize size * 32 := by
  have top : maxMemUsage.toNat = 268435456 := rfl
  rcases @div_ceil_exact size pieceSize positive with ⟨numHashes, divided, exact⟩
  rw [← exact] at limit ⊢
  have product : numHashes.toNat * (128 : UInt64).toNat < 2 ^ 64 := by
    simp only [UInt64.reduceToNat]
    omega
  have length : numHashes.toNat * (32 : UInt64).toNat < 2 ^ 64 := by
    simp only [UInt64.reduceToNat]
    omega
  rcases checked_mul_ok product with ⟨multiplied, productExact⟩
  rcases checked_mul_ok length with ⟨lengthMultiplied, lengthExact⟩
  simp only [UInt64.reduceToNat] at productExact
  have sum : pieceSize.toNat + (numHashes * 128).toNat < 2 ^ 64 := by
    omega
  rcases checked_add_ok sum with ⟨added, sumExact⟩
  have within : ¬ pieceSize + numHashes * 128 > maxMemUsage := by
    rw [gt_iff_lt, UInt64.lt_iff_toNat_lt, sumExact, productExact]
    omega
  refine ⟨numHashes * 32, ?_, lengthExact⟩
  simp only [hashesLength, divided, multiplied, added, bind, Except.bind, if_neg within,
    lengthMultiplied]

theorem read_bytes_memory {front back : Bytes} {count : Nat} (length : front.length = count) :
    readBytes readMemory count (front ++ back) = .ok (front, back) := by
  rw [readBytes, readMemory, List.take_left' length, List.drop_left' length]
  simp [length]

theorem parse_written :
    GFile.parse decompress readMemory (written.sections.length + 1) written.bytes =
      some (.ok ⟨written.header.networkId,
        ⟨SliceReader.new (written.records.flatMap IdxFullBlock.encode) maxMemUsage.toNat
          (maxMemUsage.toNat / 2), false⟩⟩) := by
  rcases written_unit written with ⟨metadata, parsed, network, unit⟩
  have pieceBytes : UInt64.ofNat (decodeBE (encodeBE 4 written.pieceSize.toNat)) =
      written.pieceSize := by
    rw [decode_encode_be_of_lt written.piece.2, UInt64.ofNat_toNat]
  have sizeBytes : UInt64.ofNat (decodeBE (encodeBE 8 written.size.toNat)) = written.size := by
    rw [decode_encode_be_of_lt written.size.toNat_lt, UInt64.ofNat_toNat]
  have sizes : readSizes (openUnit decompress written.bytes) readMemory metadata.units =
      .ok (written.pieceSize, written.size,
        written.hashes ++ written.records.flatMap IdxFullBlock.encode) := by
    rw [readSizes, unit]
    dsimp only
    rw [open_written_unit, written.payload, List.append_assoc, List.append_assoc]
    simp only [Except.mapError, bind, Except.bind]
    rw [read_bytes_memory (encode_be_length 4 _)]
    dsimp only
    rw [read_bytes_memory (encode_be_length 8 _)]
    simp only [pure, Except.pure, pieceBytes, sizeBytes]
  rcases hashes_length_exact written.piece.1 written.limit with ⟨length, hashes, exact⟩
  have opened : tryNew (openUnit decompress written.bytes) readMemory metadata.units =
      .ok ⟨SliceReader.new (written.records.flatMap IdxFullBlock.encode) maxMemUsage.toNat
        (maxMemUsage.toNat / 2), false⟩ := by
    have skipped : (written.hashes ++ written.records.flatMap IdxFullBlock.encode).drop
        length.toNat = written.records.flatMap IdxFullBlock.encode :=
      List.drop_left' (written.counted.trans exact.symm)
    simp only [tryNew, sizes, hashes, readMemory, bind, Except.bind, skipped, pure, Except.pure]
  rw [GFile.parse, parsed]
  simp only [Option.map_some, Except.mapError, bind, Except.bind, opened, network, pure,
    Except.pure]

theorem take_while_yielded (blocks : List Block) (calls : Nat) :
    ((blocks.map (fun block => some (Except.ok block)) ++ List.replicate calls none).takeWhile
      Option.isSome).reduceOption = (blocks.map .ok : List (Except Error Block)) := by
  induction blocks with
  | nil => cases calls <;> simp [List.replicate_succ]
  | cons block blocks ih => simpa [List.takeWhile_cons] using ih

theorem items_written (calls : Nat) :
    GFile.items readMemory (written.records.length + calls) ⟨written.header.networkId,
        ⟨SliceReader.new (written.records.flatMap IdxFullBlock.encode) maxMemUsage.toNat
          (maxMemUsage.toNat / 2), false⟩⟩ = written.content.map .ok := by
  have machine : maxMemUsage.toNat / 2 < 2 ^ 64 := by decide
  have ready : Ready (maxMemUsage.toNat / 2)
      ⟨SliceReader.new (written.records.flatMap IdxFullBlock.encode) maxMemUsage.toNat
        (maxMemUsage.toNat / 2), false⟩ (written.records.flatMap IdxFullBlock.encode) :=
    ⟨rfl, consistent_new (by decide), rfl, rfl⟩
  rw [GFile.items, results_records machine ready written.canonical written.converts
    written.short calls]
  exact take_while_yielded written.content calls

/-! ## Acceptance -/

/-- The blocks of a chain name the hash of the block below, from the link of block `first` on. -/
structure LinkedFrom (rust : RustLibraries) (db : KvDb) (chainId first : UInt64) : Prop where
  links : ∀ number parent child, first ≤ number + 1 →
    get rust.codec db chainId number = .ok (some parent) →
    get rust.codec db chainId (number + 1) = .ok (some child) →
    rust.blockHash parent = child.parentHash
  zero : first ≤ 1 → ∀ block, get rust.codec db chainId 0 = .ok (some block) →
    block.parentHash = FixedBytes.zero 32

theorem links_iff {env : Environment} {base : Contents} {chainId smallest : UInt64}
    {prevParentHash : Option Hash} {blocks : List Block}
    (descending : blocks.Pairwise fun earlier later => later.number < earlier.number) :
    Links env base chainId smallest prevParentHash blocks ↔
      (∀ block, blocks[0]? = some block →
        Accepted env base chainId smallest prevParentHash block) ∧
      ∀ (index : Nat) (block next : Block), blocks[index]? = some block →
        blocks[index + 1]? = some next → smallest ≤ block.number →
        Accepted env base chainId smallest (some block.parentHash) next := by
  induction blocks generalizing prevParentHash with
  | nil => simp [Links]
  | cons head tail ih =>
      rcases List.pairwise_cons.mp descending with ⟨headAbove, tailDescending⟩
      rw [Links, ih tailDescending]
      constructor
      · intro links
        constructor
        · intro block read
          cases read
          exact links.1
        · intro index block next read nextRead atLeast
          rw [List.getElem?_cons_succ] at nextRead
          cases index with
          | zero =>
              cases read
              exact (links.2 atLeast).1 next nextRead
          | succ index =>
              rw [List.getElem?_cons_succ] at read
              have headHigh := atLeast.trans (headAbove block (List.mem_of_getElem? read)).le
              exact (links.2 headHigh).2 index block next read nextRead atLeast
      · intro accepted
        refine ⟨accepted.1 head rfl, fun atLeast => ⟨?_, ?_⟩⟩
        · intro block read
          exact accepted.2 0 head block rfl read atLeast
        · intro index block next read nextRead
          exact accepted.2 (index + 1) block next read nextRead

theorem import_loop_running (Failure : Type) (env : Environment) (chainId smallest : UInt64)
    (verify : Bool) (poll : Nat) (state : ImportState) (items : List (Except Failure Block)) :
    (importLoop env chainId smallest verify never poll state items).cancelled = false := by
  have finished : ∀ state, (finish env state false : Outcome Failure).cancelled = false := by
    intro state
    unfold finish
    split <;> rfl
  induction items generalizing poll state with
  | nil => exact finished state
  | cons item items ih =>
      rw [importLoop.eq_def]
      simp only [never, Bool.false_eq_true, if_false]
      split
      · rfl
      · split
        · rfl
        · split
          · exact finished _
          · split
            · rfl
            · exact ih _ _

section Import

variable {rust : RustLibraries} {sizeInBytes : List RawOp → Nat}
  {enumerate : (blockRanges : Store UInt64 (List BlockRange)) → Enumeration blockRanges}
  {db plain : KvDb} {base : Contents} {chainId smallest total : UInt64} {failed : List UInt64}
  {blocks : List Block} (represents : Represents db base) (numbered : Numbered total blocks)
  (lossless : ∀ block ∈ blocks, DecodesBack rust.codec block)
  (nothingAbove : ∀ number, (getBytes db chainId number).isSome → number < smallest)
  (after : Represents plain (base.putAll
    (importWrites (importEnvironment rust sizeInBytes enumerate) chainId smallest blocks)))

include represents numbered lossless nothingAbove after

theorem imported_get_iff {number : UInt64} {block : Block} :
    get rust.codec plain chainId number = .ok (some block) ↔
      (smallest ≤ number ∧ block ∈ blocks ∧ block.number = number) ∨
        number < smallest ∧ get rust.codec db chainId number = .ok (some block) := by
  rcases lt_or_ge number smallest with low | high
  · have same : getBytes plain chainId number = getBytes db chainId number :=
      (imported_below numbered after low).trans (represents.blocks chainId number).symm
    have unchanged : get rust.codec plain chainId number =
        get rust.codec db chainId number := by
      unfold BlockDb.get
      rw [same]
    rw [unchanged]
    simp [low, low.not_ge]
  · have own : ∀ stored ∈ blocks, stored.number = number →
        get rust.codec plain chainId number = .ok (some stored) := by
      intro stored member place
      rw [← place] at high ⊢
      exact imported_get numbered after member high (lossless stored member)
    have inFile : ∀ stored, get rust.codec plain chainId number = .ok (some stored) →
        number < total := by
      intro stored found
      rcases get_eq_some.mp found with ⟨data, present, -⟩
      rw [after.blocks, Contents.put_all_blocks] at present
      cases written : Contents.lastWrite (importWrites
          (importEnvironment rust sizeInBytes enumerate) chainId smallest blocks) chainId
          number with
      | some other => exact (import_writes_mem numbered (Contents.last_write_mem written)).2.2
      | none =>
          rw [written, Option.none_or, ← represents.blocks] at present
          exact absurd (nothingAbove number (by rw [present]; rfl)) high.not_gt
    constructor
    · intro found
      rcases numbered_find numbered (inFile block found) with ⟨index, stored, read, place⟩
      have member := List.mem_of_getElem? read
      cases found.symm.trans (own stored member place)
      exact .inl ⟨high, member, place⟩
    · intro either
      rcases either with ⟨-, member, place⟩ | ⟨low, -⟩
      · exact own block member place
      · exact absurd low high.not_gt

theorem imported_parent
    (accepted : ∀ (index : Nat) (block next : Block), blocks[index]? = some block →
      blocks[index + 1]? = some next → smallest ≤ block.number →
      Accepted (importEnvironment rust sizeInBytes enumerate) base chainId smallest
        (some block.parentHash) next)
    {number : UInt64} {parent child : Block} (bounded : number < maxBlockNumber)
    (atLeast : smallest ≤ number + 1)
    (parentStored : get rust.codec plain chainId number = .ok (some parent))
    (childStored : get rust.codec plain chainId (number + 1) = .ok (some child)) :
    LinkChecked (importEnvironment rust sizeInBytes enumerate) (some child.parentHash) parent := by
  have read := @imported_get_iff rust sizeInBytes enumerate db plain base chainId smallest total
    blocks represents numbered lossless nothingAbove after
  rcases read.mp childStored with ⟨-, member, place⟩ | ⟨low, -⟩
  · rcases List.mem_iff_getElem?.mp member with ⟨index, childRead⟩
    have positive : 1 ≤ child.number := by
      rw [place, UInt64.le_iff_toNat_le, successor_to_nat bounded, UInt64.toNat_one]
      omega
    rcases numbered_next numbered childRead positive with ⟨next, nextRead, nextPlace⟩
    have same : next.number = number := by
      rw [nextPlace, place]
      grind
    have checked := accepted index child next childRead nextRead (by rw [place]; exact atLeast)
    rw [← same] at parentStored
    rcases lt_or_ge next.number smallest with low | high
    · rcases checked.2 low with ⟨other, data, found, decoded, linked⟩
      have own : get rust.codec db chainId next.number = .ok (some other) :=
        get_eq_some.mpr ⟨data, (represents.blocks chainId _).trans found, decoded⟩
      cases parentStored.symm.trans (read.mpr (.inr ⟨low, own⟩))
      exact linked
    · have own := read.mpr (.inl ⟨high, List.mem_of_getElem? nextRead, rfl⟩)
      cases parentStored.symm.trans own
      exact checked.1 high
  · exact absurd atLeast low.not_ge

variable (something : smallest < total)
include something

theorem imported_bounded {number : UInt64} {block : Block}
    (stored : get rust.codec plain chainId number = .ok (some block)) :
    number < maxBlockNumber := by
  rcases (imported_get_iff represents numbered lossless nothingAbove after).mp stored with
    ⟨-, member, place⟩ | ⟨low, -⟩
  · rw [← place]
    exact numbered_bounded numbered member
  · rcases numbered_find numbered something with ⟨_, block, read, place⟩
    rw [← place] at low
    exact low.trans (numbered_bounded numbered (List.mem_of_getElem? read))

variable (walked : Walked rust db chainId failed)
include walked

theorem linked_of_links
    (links : Links (importEnvironment rust sizeInBytes enumerate) base chainId smallest none
      blocks) : LinkedFrom rust plain chainId smallest := by
  have read := @imported_get_iff rust sizeInBytes enumerate db plain base chainId smallest total
    blocks represents numbered lossless nothingAbove after
  have descending := numbered_descending numbered
  have accepted := ((links_iff descending).mp links).2
  constructor
  · intro number parent child atLeast parentStored childStored
    have bounded := imported_bounded represents numbered lossless nothingAbove after something
      parentStored
    exact (imported_parent represents numbered lossless nothingAbove after accepted bounded
      atLeast parentStored childStored).1 _ rfl
  · intro atMost block zeroStored
    rcases read.mp zeroStored with ⟨high, member, zero⟩ | ⟨low, before⟩
    · exact links_zero descending links member (by rw [zero]; exact high) zero
    · have one : smallest = 1 := by
        rw [UInt64.lt_iff_toNat_lt, UInt64.toNat_zero] at low
        rw [UInt64.le_iff_toNat_le, UInt64.toNat_one] at atMost
        apply UInt64.toNat_inj.mp
        rw [UInt64.toNat_one]
        omega
      rw [one] at something
      rcases numbered_find numbered something with ⟨_, child, childRead, place⟩
      have childStored : get rust.codec plain chainId (0 + 1) = .ok (some child) :=
        read.mpr (.inl ⟨by rw [one]; rfl, List.mem_of_getElem? childRead, place⟩)
      have checked := imported_parent represents numbered lossless nothingAbove after accepted
        (by decide) atMost zeroStored childStored
      exact checked.2 (walked.numbered before)

theorem links_of_linked (stored : ∀ number, number < smallest →
      (getBytes db chainId number).isSome)
    (linked : LinkedFrom rust plain chainId smallest) :
    Links (importEnvironment rust sizeInBytes enumerate) base chainId smallest none blocks := by
  have read := @imported_get_iff rust sizeInBytes enumerate db plain base chainId smallest total
    blocks represents numbered lossless nothingAbove after
  rw [links_iff (numbered_descending numbered)]
  constructor
  · intro block first
    have member := List.mem_of_getElem? first
    constructor
    · intro atLeast
      refine ⟨nofun, fun zero => ?_⟩
      rw [zero] at atLeast
      exact linked.zero (atLeast.trans UInt64.zero_le) block
        (read.mpr (.inl ⟨atLeast, member, zero⟩))
    · intro low
      have place := numbered.2 0 block first
      rw [UInt64.lt_iff_toNat_lt] at low something
      omega
  · intro index block next blockRead nextRead atLeast
    have place := numbered.2 index block blockRead
    have nextPlace := numbered.2 (index + 1) next nextRead
    have successor : next.number + 1 = block.number := by
      apply UInt64.toNat_inj.mp
      rw [successor_to_nat (numbered_bounded numbered (List.mem_of_getElem? nextRead))]
      omega
    have blockStored : get rust.codec plain chainId (next.number + 1) = .ok (some block) := by
      rw [successor]
      exact read.mpr (.inl ⟨atLeast, List.mem_of_getElem? blockRead, rfl⟩)
    have checked : ∀ parent, get rust.codec plain chainId next.number = .ok (some parent) →
        parent.number = next.number →
        LinkChecked (importEnvironment rust sizeInBytes enumerate) (some block.parentHash)
          parent := by
      intro parent parentStored same
      constructor
      · intro parentHash known
        cases known
        exact linked.links next.number parent block (by rw [successor]; exact atLeast)
          parentStored blockStored
      · intro zero
        rw [same] at zero
        rw [← successor, zero] at atLeast
        rw [zero] at parentStored
        exact linked.zero atLeast parent parentStored
    constructor
    · intro high
      exact checked next (read.mpr (.inl ⟨high, List.mem_of_getElem? nextRead, rfl⟩)) rfl
    · intro low
      rcases Option.isSome_iff_exists.mp (stored next.number low) with ⟨data, found⟩
      rcases walked.decodable.decodes next.number data found with ⟨parent, decoded⟩
      have before := get_eq_some.mpr ⟨data, found, decoded⟩
      refine ⟨parent, data, (represents.blocks chainId _).symm.trans found, decoded, ?_⟩
      exact checked parent (read.mpr (.inr ⟨low, before⟩)) (walked.numbered before)

/-- Verification accepts the file exactly if the plain import leaves a linked chain. -/
theorem links_linked_iff
    (stored : ∀ number, number < smallest → (getBytes db chainId number).isSome) :
    Links (importEnvironment rust sizeInBytes enumerate) base chainId smallest none blocks ↔
      LinkedFrom rust plain chainId smallest := by
  constructor
  · exact linked_of_links represents numbered lossless nothingAbove after something walked
  · exact links_of_linked represents numbered lossless nothingAbove after something walked stored

end Import

theorem import_blocks_running (Failure : Type) (env : Environment)
    (register : Except String Unit) (db : KvDb) (items : List (Except Failure Block))
    (chainId : UInt64) (verify : Bool) :
    (importBlocks env register db items chainId verify never).cancelled = false := by
  unfold importBlocks
  dsimp only
  split
  · rfl
  · split
    · rfl
    · split
      · rfl
      · split
        · rfl
        · exact import_loop_running Failure _ _ _ _ _ _ _

theorem walked_keyed_below {rust : RustLibraries} {db : KvDb} {base : Contents}
    {chainId : UInt64} {failed : List UInt64} (represents : Represents db base)
    (walked : Walked rust db chainId failed) (smallest : UInt64) :
    KeyedBelow rust.codec base chainId smallest := by
  intro number _ data block found decoded
  exact walked.numbered (get_eq_some.mpr
    ⟨data, (represents.blocks chainId number).trans found, decoded⟩)

section Verified

variable {rust : RustLibraries} {sizeInBytes : List RawOp → Nat}
  {enumerate : (blockRanges : Store UInt64 (List BlockRange)) → Enumeration blockRanges}
  {db : KvDb} {base : Contents} {chainId total : UInt64} {failed : List UInt64}
  {ranges : List BlockRange} {blocks : List Block} (valid : base.Valid)
  (represents : Represents db base) (walked : Walked rust db chainId failed)
  (rangesRead : getRangesOfChainId db chainId = .ok ranges) (numbered : Numbered total blocks)

include valid represents walked rangesRead numbered

theorem verified_import_iff (Failure : Type) :
    (importBlocks (importEnvironment rust sizeInBytes enumerate) (.ok ()) db (blocks.map .ok)
        chainId true never : Outcome Failure).result = .ok () ↔
      (smallestImportBlockNumber ranges < total →
        Links (importEnvironment rust sizeInBytes enumerate) base chainId
          (smallestImportBlockNumber ranges) none blocks) := by
  have keyed : KeyedBelow rust.codec base chainId (smallestImportBlockNumber ranges) :=
    walked_keyed_below represents walked _
  have below : ∀ block ∈ blocks, block.number < maxBlockNumber :=
    fun block member => numbered_bounded numbered member
  rcases import_blocks_cases (importEnvironment rust sizeInBytes enumerate) (.ok ())
      (blocks.map (.ok : Block → Except Failure Block)) true never rangesRead with
    ⟨refused, -⟩ | ⟨early, nothing⟩ | ⟨⟨block, rest, items, missing⟩, looped⟩
  · rcases refused with unregistered | ⟨failure, rest, parseError⟩
    · exact absurd rfl unregistered
    · cases blocks <;> simp at parseError
  · rw [early]
    refine ⟨fun _ missing => ?_, fun _ => rfl⟩
    rcases nothing with empty | ⟨block, rest, items, low⟩
    · rw [List.map_eq_nil_iff.mp empty]
      trivial
    · rw [numbered_first numbered (read_of_map_ok Failure blocks 0 block (by rw [items]; rfl))]
        at low
      exact absurd missing (not_lt.mpr low)
  · rw [numbered_first numbered (read_of_map_ok Failure blocks 0 block (by rw [items]; rfl))]
      at missing
    rw [looped]
    constructor
    · intro accepted _
      exact import_loop_links valid keyed (staged_start represents _ none)
        (read_of_map_ok Failure blocks) below (by simp) accepted
        (import_loop_running Failure _ _ _ _ _ _ _)
    · intro links
      rcases import_loop_accepts Failure 0 valid keyed (staged_start represents _ none) below
        (links missing) with ⟨final, accepted⟩
      exact congrArg Outcome.result accepted

theorem verified_import_walked (Failure : Type)
    (lossless : ∀ block ∈ blocks, DecodesBack rust.codec block)
    (nothingAbove : ∀ number, (getBytes db chainId number).isSome →
      number < smallestImportBlockNumber ranges) (keyed : base.WellKeyed) :
    Walked rust (importBlocks (importEnvironment rust sizeInBytes enumerate) (.ok ()) db
      (blocks.map .ok) chainId true never : Outcome Failure).db chainId failed := by
  have keyedBelow : KeyedBelow rust.codec base chainId (smallestImportBlockNumber ranges) :=
    walked_keyed_below represents walked _
  have start : Taken (importEnvironment rust sizeInBytes enumerate) base chainId
      (smallestImportBlockNumber ranges) blocks [] :=
    ⟨List.nil_prefix, by simp, trivial, by simp⟩
  have verifying : ∀ attempt ∈ [(⟨.ok (), blocks.map .ok, true, never⟩ : Attempt Failure)],
      attempt.verify = true := by
    simp
  rcases attempts_taken numbered valid
      (represents_first_missing represents valid rangesRead) keyedBelow verifying
      (by simpa using read_of_map_ok Failure blocks) (by simp [never]) start represents with
    ⟨taken, left, after⟩
  exact taken_walked represents lossless nothingAbove left after walked valid keyed numbered

end Verified

/-! ## The command -/

/-- An import of the file that is not cancelled, into a configuration that takes the chain. -/
def WrittenGenesis.importInto (env : Environment) (calls : Nat) (db : KvDb) (verify : Bool) :
    Option (Except OpenFailure (Outcome Error)) :=
  importGFile env (fun _ => .ok ()) decompress readMemory (written.sections.length + 1)
    (written.records.length + calls) db written.bytes verify never

theorem import_written (env : Environment) (calls : Nat) (db : KvDb) (verify : Bool) :
    written.importInto env calls db verify = some (.ok (importBlocks env (.ok ()) db
      (written.content.map .ok) written.header.networkId verify never)) := by
  rw [WrittenGenesis.importInto, importGFile, parse_written]
  simp only [Option.map_some, Except.map, items_written]

/-- Importing a written genesis file ends without an error and stores the blocks of its records
from the first missing number on, and no others. With verification it succeeds exactly if
nothing is missing or the chain stored without verification is linked from there on; it then
stores the same, and the chain passes the verification of the stored blocks. -/
theorem genesis_file_import_iff {rust : RustLibraries} (sizeInBytes : List RawOp → Nat)
    (enumerate : (blockRanges : Store UInt64 (List BlockRange)) → Enumeration blockRanges)
    {db : KvDb} {failed : List UInt64} {ranges : List BlockRange} (calls : Nat)
    (walked : Walked rust db written.header.networkId failed)
    (rangesRead : getRangesOfChainId db written.header.networkId = .ok ranges)
    (nothingAbove : ∀ number, (getBytes db written.header.networkId number).isSome →
      number < smallestImportBlockNumber ranges)
    (lossless : ∀ block ∈ written.content, DecodesBack rust.codec block) :
    ∃ plain checked,
      written.importInto (importEnvironment rust sizeInBytes enumerate) calls db false =
        some (.ok ⟨plain, false, .ok ()⟩) ∧
      written.importInto (importEnvironment rust sizeInBytes enumerate) calls db true =
        some (.ok checked) ∧
      (∀ number block,
        get rust.codec plain written.header.networkId number = .ok (some block) ↔
          (smallestImportBlockNumber ranges ≤ number ∧ block ∈ written.content ∧
              block.number = number) ∨
            number < smallestImportBlockNumber ranges ∧
              get rust.codec db written.header.networkId number = .ok (some block)) ∧
      (checked.result = .ok () ↔ written.total ≤ smallestImportBlockNumber ranges ∨
        LinkedFrom rust plain written.header.networkId (smallestImportBlockNumber ranges)) ∧
      (checked.result = .ok () →
        checked.db = plain ∧ Walked rust plain written.header.networkId failed) := by
  rcases walked.sound with ⟨base, valid, keyed, represents⟩
  have numbered := written.numbered
  have below : ∀ block ∈ written.content, block.number < maxBlockNumber :=
    fun block member => numbered_bounded numbered member
  rcases import_blocks_completes valid represents rangesRead below Error
    (importEnvironment rust sizeInBytes enumerate) with ⟨plain, imported, after⟩
  have missing := represents_first_missing represents valid rangesRead
  have stored : ∀ number, number < smallestImportBlockNumber ranges →
      (getBytes db written.header.networkId number).isSome := by
    intro number low
    rw [represents.blocks]
    exact missing.1 number low
  have acceptance := @verified_import_iff rust sizeInBytes enumerate db base _ _ failed ranges
    _ valid represents walked rangesRead numbered Error
  refine ⟨plain, _, ?_, import_written written _ calls db true, ?_, ?_, ?_⟩
  · rw [import_written]
    exact congrArg some (congrArg Except.ok imported)
  · intro number block
    exact imported_get_iff represents numbered lossless nothingAbove after
  · rw [acceptance]
    by_cases something : smallestImportBlockNumber ranges < written.total
    · rw [links_linked_iff represents numbered lossless nothingAbove after something walked stored]
      simp [something, something.not_ge]
    · simp [something, not_lt.mp something]
  · intro accepted
    have checkedWalked := @verified_import_walked rust sizeInBytes enumerate db base _ _ failed
      ranges _ valid represents walked rangesRead numbered Error lossless nothingAbove keyed
    rcases import_blocks_writes valid represents rangesRead below
        (importEnvironment rust sizeInBytes enumerate) true
        (fun _ => walked_keyed_below represents walked _) (read_of_map_ok Error written.content)
        (.ok ()) never with ⟨writes, -, checkedAfter, whole⟩
    rw [whole accepted (import_blocks_running Error _ _ _ _ _ _) (by simp)] at checkedAfter
    have same := represents_unique checkedAfter after
    rw [same] at checkedWalked
    exact ⟨same, checkedWalked⟩

theorem fresh_walked (rust : RustLibraries) : Walked rust freshDb 250 [] := by
  have empty : ∀ number, getBytes freshDb 250 number = none := by
    intro number
    simp [getBytes, freshDb, get_put]
  have nothing : ∀ number block, get rust.codec freshDb 250 number ≠ .ok (some block) := by
    intro number block found
    rcases get_eq_some.mp found with ⟨data, present, -⟩
    rw [empty number] at present
    cases present
  have sound := reachable_sound (fresh_reachable rust.codec)
  refine walked_of_linked sound ?_ ⟨BlockIteration.sound_known sound, sound_consistent sound, ?_⟩
    ?_ ?_
  · have noBundles : getFailedBundles freshDb 250 = none := by
      simp [getFailedBundles, freshDb, get_put, makeFailedBundlesKey]
    rw [readFailedBundles, noBundles]
  · intro number data present
    rw [empty number] at present
    cases present
  · exact fun number block found => absurd found (nothing number block)
  · exact fun number block _ found => absurd found (nothing number block)

def plainRecord (number : UInt64) (parentHash : Hash) : IdxFullBlock where
  block := {
    blockHash := FixedBytes.zero 32
    parentHash := parentHash
    stateRoot := FixedBytes.zero 32
    timestamp := 0
    duration := 0
    difficulty := 0
    gasLimit := 0
    gasUsed := 0
    baseFee := 0
    prevRandao := FixedBytes.zero 32
    epoch := 0
    transactions := []
    receipts := [] }
  blockNumber := number

def plainBlock (number : UInt64) (parentHash : Hash) : Block where
  parentHash := parentHash
  ommersHash := emptyOmmersHash
  number := number
  extraData := List.replicate 12 0
  baseFeePerGas := some 0
  withdrawalsRoot := some emptyTreeRootHash
  blobGasUsed := some 0
  excessBlobGas := some 0

theorem plain_record_converts (number : UInt64) (parentHash : Hash) :
    Block.tryFrom (plainRecord number parentHash) = .ok (plainBlock number parentHash) := by
  have extra : encodeBE 4 ((0 : UInt64) % nanosPerSecond).toNat ++
      encodeBE 8 (0 : UInt64).toNat = List.replicate 12 0 := by decide
  have seconds : (0 : UInt64) / nanosPerSecond = 0 := by decide
  simp only [Block.tryFrom, plainRecord, plainBlock, extra, seconds]
  rfl

def plainRust (known : List Block) : RustLibraries :=
  { londonRust with codec := headerCodec known }

@[irreducible] def zeroHash : Hash := (plainRust []).blockHash (plainBlock 0 (FixedBytes.zero 32))

def plainContent : List Block := [plainBlock 1 zeroHash, plainBlock 0 (FixedBytes.zero 32)]

def plainRecords : List IdxFullBlock :=
  [plainRecord 1 zeroHash, plainRecord 0 (FixedBytes.zero 32)]

theorem zero_hash_eq (known : List Block) :
    (plainRust known).blockHash (plainBlock 0 (FixedBytes.zero 32)) = zeroHash := by
  unfold zeroHash
  rfl

def plainGenesis : WrittenGenesis id where
  header := ⟨FixedBytes.zero 32, 250, "test_network"⟩
  earlier := []
  blocksUnit := {
    unit := ⟨"brs", ⟨FixedBytes.zero 32, 250, "test_network"⟩⟩
    hash := FixedBytes.zero 32
    uncompressedSize := 44
    payload := encodeBE 4 1000 ++ encodeBE 8 1000 ++ List.replicate 32 0 ++
      plainRecords.flatMap IdxFullBlock.encode }
  later := []
  pieceSize := 1000
  size := 1000
  hashes := List.replicate 32 0
  records := plainRecords
  content := plainContent
  total := 2
  named := rfl
  distinct := by decide
  fits := by
    intro written member
    cases List.mem_singleton.mp member
    exact ⟨rfl, by decide +kernel, by decide +kernel⟩
  addressable := by decide +kernel
  payload := rfl
  piece := by decide
  counted := by decide
  limit := by decide
  canonical := by
    intro record member tx inRecord
    rcases List.mem_pair.mp member with child | zero
    · rw [child] at inRecord
      cases inRecord
    · rw [zero] at inRecord
      cases inRecord
  short := by decide +kernel
  converts := by
    rw [plainRecords, List.mapM_cons, List.mapM_cons, plain_record_converts,
      plain_record_converts]
    rfl
  numbered := by
    refine ⟨rfl, fun index block read => ?_⟩
    rcases index with _ | _ | index
    · cases read
      rfl
    · cases read
      rfl
    · cases read

/-- The file is imported with verification into an empty database. -/
theorem genesis_file_import_two_blocks :
    ∃ checked,
      plainGenesis.importInto (importEnvironment (plainRust plainContent) (fun _ => 0)
          fun _ => ⟨_, List.Perm.refl _⟩) 1 freshDb true = some (.ok checked) ∧
      checked.result = .ok () ∧ Walked (plainRust plainContent) checked.db 250 [] ∧
      get (plainRust plainContent).codec checked.db 250 1 =
        .ok (some (plainBlock 1 zeroHash)) := by
  have lossless : ∀ block ∈ plainContent, DecodesBack (plainRust plainContent).codec block := by
    intro block member
    apply header_codec_decodes_back
    rcases List.mem_pair.mp member with child | zero
    · rw [child]
      decide +kernel
    · rw [zero]
      decide +kernel
  have empty : ∀ number, (getBytes freshDb 250 number).isSome → number < 0 := by
    intro number present
    simp [getBytes, freshDb, get_put] at present
  rcases genesis_file_import_iff plainGenesis (fun _ => 0) (fun _ => ⟨_, List.Perm.refl _⟩) 1
      (fresh_walked (plainRust plainContent)) (fresh_get_ranges 250) empty lossless with
    ⟨plain, checked, -, verified, stored, accepted, same⟩
  have members : ∀ number block,
      get (plainRust plainContent).codec plain 250 number = .ok (some block) →
        block = plainBlock number (if number = 1 then zeroHash else FixedBytes.zero 32) ∧
          (number = 1 ∨ number = 0) := by
    intro number block found
    rcases (stored number block).mp found with ⟨-, member, place⟩ | ⟨low, -⟩
    · rcases List.mem_pair.mp member with child | zero
      · rw [child] at place ⊢
        cases place
        exact ⟨rfl, .inl rfl⟩
      · rw [zero] at place ⊢
        cases place
        exact ⟨rfl, .inr rfl⟩
    · exact absurd UInt64.zero_le low.not_ge
  have linked : LinkedFrom (plainRust plainContent) plain 250 0 := by
    constructor
    · intro number parent child _ parentFound childFound
      rcases members number parent parentFound with ⟨parentSame, one | zero⟩
      · rw [one] at childFound
        rcases (members _ child childFound).2 with wrong | wrong <;> cases wrong
      · rw [zero] at parentSame childFound
        rw [if_neg (by decide)] at parentSame
        have childSame := (members _ child childFound).1
        rw [if_pos (by decide)] at childSame
        rw [parentSame, childSame, zero_hash_eq]
        rfl
    · intro _ block found
      rw [(members 0 block found).1]
      rfl
  have result := accepted.mpr (.inr linked)
  rcases same result with ⟨database, walked⟩
  rw [← database] at walked stored
  exact ⟨checked, verified, result, walked,
    (stored 1 _).mpr (.inl ⟨UInt64.zero_le, List.mem_cons_self, rfl⟩)⟩

end Bertha.GenesisImport
