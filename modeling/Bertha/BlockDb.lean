import Bertha.BinarySearch
import Bertha.BlockKeys
import Bertha.Conversion
import Bertha.OrderedStore
import Bertha.ProtoBlock

/-!
# The block database

`KvDbBackedBlockDb` of `blockservice/src/db/blockdb.rs` over an atomic ordered byte
store. An operation that fails returns its error before it writes, so the store is
then unchanged; one that succeeds writes one batch. A range deletion goes through
`RocksDbBatch`, whose native deletion excludes the end key. The wire codec of the
block message is a parameter.
-/

namespace Bertha.BlockDb

open Bertha.BigEndian Bertha.BinarySearch Bertha.BlockKeys Bertha.BlockRanges
open Bertha.Conversion Bertha.OrderedStore
open Bertha.BlockTypes (Error Block)

set_option autoImplicit false

abbrev KvDb := Store Bytes Bytes

abbrev RawOp := WriteOp Bytes Bytes

/-- What the block database uses of `prost`. -/
structure WireCodec where
  encodeToVec : ProtoBlock.Block → Bytes
  decode : Bytes → Except String ProtoBlock.Block

def create (db : KvDb) : Except Error KvDb :=
  if (iterateFrom db [] .forward).head?.isSome then
    .error (.storageLayer "block database already initialized")
  else .ok (applyOp db (.put versionKey (serializeVersion currentVersion)))

def openExisting (db : KvDb) : Except Error KvDb :=
  match db[versionKey]? with
  | none => .error (.storageLayer "block database version not found")
  | some versionBytes => do
    let version ← deserializeVersion versionBytes
    if version ≠ currentVersion then
      throw (.storageLayer
        (s!"block database version is not supported: code expects version {currentVersion}" ++
          s!" but database has version {version}"))
    return db

def getChainIds (db : KvDb) : Except Error (List UInt64) :=
  match db[chainIdsKey]? with
  | none => .ok []
  | some data => deserializeChainIds data

def getRangesOfChainId (db : KvDb) (chainId : UInt64) : Except Error (List BlockRange) :=
  match db[makeBlockRangesKey chainId]? with
  | none => .ok []
  | some data => deserializeBlockRanges data

def getRulesUpdateHeights (db : KvDb) (chainId : UInt64) : Option Bytes :=
  db[makeRulesUpdateHeightsKey chainId]?

def getCorrections (db : KvDb) (chainId : UInt64) : Option Bytes :=
  db[makeCorrectionsKey chainId]?

def getFailedBundles (db : KvDb) (chainId : UInt64) : Option Bytes :=
  db[makeFailedBundlesKey chainId]?

/-- The body shared by the three setters of chain metadata. -/
def putChainEntry (db : KvDb) (chainId : UInt64) (key data : Bytes) : Except Error KvDb := do
  let chainIds ← getChainIds db
  return applyBatch db
    [.put key data, .put chainIdsKey (serializeChainIds (insertSorted chainIds chainId))]

def putRulesUpdateHeights (db : KvDb) (chainId : UInt64) (data : Bytes) : Except Error KvDb :=
  putChainEntry db chainId (makeRulesUpdateHeightsKey chainId) data

def putCorrections (db : KvDb) (chainId : UInt64) (data : Bytes) : Except Error KvDb :=
  putChainEntry db chainId (makeCorrectionsKey chainId) data

def putFailedBundles (db : KvDb) (chainId : UInt64) (data : Bytes) : Except Error KvDb :=
  putChainEntry db chainId (makeFailedBundlesKey chainId) data

def getBytes (db : KvDb) (chainId blockNumber : UInt64) : Option Bytes :=
  db[makeBlockKey chainId blockNumber]?

def decodeBlock (codec : WireCodec) (data : Bytes) : Except Error Block :=
  match codec.decode data with
  | .error description => .error (.protobuf description)
  | .ok message => message.tryIntoTypes

def get (codec : WireCodec) (db : KvDb) (chainId blockNumber : UInt64) :
    Except Error (Option Block) :=
  (getBytes db chainId blockNumber).mapM (decodeBlock codec)

def putBytes (db : KvDb) (chainId blockNumber : UInt64) (data : Bytes) : Except Error KvDb := do
  let chainIds ← getChainIds db
  let ranges ← getRangesOfChainId db chainId
  return applyBatch db
    [.put (makeBlockKey chainId blockNumber) data,
      .put (makeBlockRangesKey chainId)
        (serializeBlockRanges (addRange ranges ⟨blockNumber, blockNumber⟩)),
      .put chainIdsKey (serializeChainIds (insertSorted chainIds chainId))]

def encodeBlock (codec : WireCodec) (block : Block) : Bytes :=
  codec.encodeToVec (ProtoBlock.Block.fromTypes block)

def put (codec : WireCodec) (db : KvDb) (chainId : UInt64) (block : Block) :
    Except Error KvDb :=
  putBytes db chainId block.number (encodeBlock codec block)

/-- `RocksDbBatch::delete_range_raw`. -/
def deleteRangeRaw (startKey endKey : Bytes) : List RawOp :=
  [.delete endKey, .deleteRange startKey endKey]

def deleteRange (db : KvDb) (chainId startBlockNumber endBlockNumber : UInt64) :
    Except Error KvDb :=
  if startBlockNumber > endBlockNumber then
    .error (.storageLayer
      (s!"invalid block range: start block number {startBlockNumber}" ++
        s!" is greater than end block number {endBlockNumber}"))
  else do
    let ranges ← getRangesOfChainId db chainId
    return applyBatch db
      (deleteRangeRaw (makeBlockKey chainId startBlockNumber)
          (makeBlockKey chainId endBlockNumber) ++
        [.put (makeBlockRangesKey chainId)
          (serializeBlockRanges (subtractRange ranges ⟨startBlockNumber, endBlockNumber⟩))])

/-- The first closure of `iterate_bytes`, which ends the iteration with `none`. -/
def readEntry (chainId : UInt64) (entry : Bytes × Bytes) :
    Option (Except Error (UInt64 × Bytes)) :=
  let key := entry.1
  if key.length = 2 ∨ key.length = 10 then none
  else if key.length ≠ 17 ∨ key[0]? ≠ some 0x02 then
    some (.error (.storageLayer s!"unexpected key {key}"))
  else if fromBeBytes ((key.drop 1).take 8) ≠ chainId then none
  else some (.ok (fromBeBytes ((key.drop 9).take 8), entry.2))

/-- The `map_while` of `iterate_bytes`, which also stops after the first error. -/
def takeUntilStop {Item : Type} : List (Option (Except Error Item)) → List (Except Error Item)
  | [] => []
  | none :: _ => []
  | some (.error failure) :: _ => [.error failure]
  | some (.ok item) :: rest => .ok item :: takeUntilStop rest

def iterateBytes (db : KvDb) (chainId startBlockNumber : UInt64)
    (direction : IterationDirection) : List (Except Error (UInt64 × Bytes)) :=
  takeUntilStop
    ((iterateFrom db (makeBlockKey chainId startBlockNumber) direction).map (readEntry chainId))

def iterate (codec : WireCodec) (db : KvDb) (chainId startBlockNumber : UInt64)
    (direction : IterationDirection) : List (Except Error (UInt64 × Block)) :=
  (iterateBytes db chainId startBlockNumber direction).map fun result => do
    let (blockNumber, data) ← result
    return (blockNumber, ← decodeBlock codec data)

/-- `KvDbBatchWrapper`: the raw operations so far and the ranges of each chain. -/
structure BatchWrapper where
  kvBatch : List RawOp
  blockRanges : Store UInt64 (List BlockRange)

def batch : BatchWrapper := ⟨[], ∅⟩

def BatchWrapper.putBytes (batch : BatchWrapper) (chainId blockNumber : UInt64) (data : Bytes) :
    BatchWrapper where
  kvBatch := batch.kvBatch ++ [.put (makeBlockKey chainId blockNumber) data]
  blockRanges := batch.blockRanges.insert chainId
    (addRange (batch.blockRanges[chainId]?.getD []) ⟨blockNumber, blockNumber⟩)

structure BlockWrite where
  chainId : UInt64
  blockNumber : UInt64
  data : Bytes
deriving DecidableEq, Repr

def putAll (db : KvDb) (writes : List BlockWrite) : Except Error KvDb :=
  writes.foldlM (fun db write => putBytes db write.chainId write.blockNumber write.data) db

def BatchWrapper.putAll (batch : BatchWrapper) (writes : List BlockWrite) : BatchWrapper :=
  writes.foldl (fun batch write => batch.putBytes write.chainId write.blockNumber write.data) batch

/-- An order in which a hash map may hand out its entries. -/
structure Enumeration {Key Value : Type} [Ord Key] [Std.TransOrd Key]
    (map : Store Key Value) where
  entries : List (Key × Value)
  permutes : entries.Perm map.toList

section Enumerations

variable {Key Value : Type} [Ord Key] [Std.TransOrd Key] [Std.LawfulEqOrd Key]
  {map : Store Key Value} (order : Enumeration map)

theorem Enumeration.mem_iff {key : Key} {value : Value} :
    (key, value) ∈ order.entries ↔ map[key]? = some value := by
  rw [order.permutes.mem_iff, Std.ExtTreeMap.mem_toList_iff_getElem?_eq_some]

theorem Enumeration.keys_nodup : (order.entries.map Prod.fst).Nodup := by
  rw [(order.permutes.map Prod.fst).nodup_iff, List.Nodup, List.pairwise_map]
  apply Std.ExtTreeMap.ordered_keys_toList.imp
  intro earlier later below same
  rw [Std.LawfulEqOrd.compare_eq_iff_eq.mpr same] at below
  cases below

end Enumerations

/-- The loop of `write_batch` over the ranges of each chain. -/
def mergeBatch (db : KvDb) :
    List (UInt64 × List BlockRange) → List UInt64 → List RawOp →
      Except Error (List UInt64 × List RawOp)
  | [], chainIds, ops => .ok (chainIds, ops)
  | (chainId, newRanges) :: rest, chainIds, ops => do
    let existingRanges ← getRangesOfChainId db chainId
    mergeBatch db rest (insertSorted chainIds chainId)
      (ops ++ [.put (makeBlockRangesKey chainId)
        (serializeBlockRanges (newRanges.foldl addRange existingRanges))])

def writeBatch (db : KvDb) (batch : BatchWrapper) (order : Enumeration batch.blockRanges) :
    Except Error KvDb :=
  if batch.blockRanges.isEmpty then .ok db
  else do
    let chainIds ← getChainIds db
    let (chainIds, ops) ← mergeBatch db order.entries chainIds batch.kvBatch
    return applyBatch db (ops ++ [.put chainIdsKey (serializeChainIds chainIds)])

def DecodesBack (codec : WireCodec) (block : Block) : Prop :=
  codec.decode (codec.encodeToVec (ProtoBlock.Block.fromTypes block)) =
    .ok (ProtoBlock.Block.fromTypes block)

theorem decode_encode_block {codec : WireCodec} {block : Block}
    (lossless : DecodesBack codec block) :
    decodeBlock codec (encodeBlock codec block) = .ok block := by
  rw [decodeBlock, encodeBlock, lossless]
  exact ProtoBlock.block_inverts.decode_encode block

theorem get_eq_some {codec : WireCodec} {db : KvDb} {chain number : UInt64} {block : Block} :
    get codec db chain number = .ok (some block) ↔
      ∃ data, getBytes db chain number = some data ∧ decodeBlock codec data = .ok block := by
  unfold get
  cases found : getBytes db chain number with
  | none => simp [pure, Except.pure]
  | some data =>
      cases decoded : decodeBlock codec data <;>
        simp [decoded, Functor.map, Except.map]

theorem put_all_cons {db next : KvDb} (write : BlockWrite)
    (stored : putBytes db write.chainId write.blockNumber write.data = .ok next)
    (writes : List BlockWrite) : putAll db (write :: writes) = putAll next writes := by
  rw [putAll, List.foldlM_cons, stored]
  rfl

theorem put_all_append {db next : KvDb} {left : List BlockWrite}
    (stored : putAll db left = .ok next) (right : List BlockWrite) :
    putAll db (left ++ right) = putAll next right := by
  unfold putAll at stored ⊢
  rw [List.foldlM_append, stored]
  rfl

/-- A block write touches the block, the ranges of its chain and the chain list. -/
theorem put_bytes_frame {db updated : KvDb} {chain number : UInt64} {data key : Bytes}
    (stored : putBytes db chain number data = .ok updated)
    (notBlock : key ≠ makeBlockKey chain number) (notRanges : key ≠ makeBlockRangesKey chain)
    (notChainIds : key ≠ chainIdsKey) :
    updated[key]? = db[key]? := by
  obtain ⟨chainIds, -, rest⟩ := bind_eq_ok.mp stored
  obtain ⟨ranges, -, written⟩ := bind_eq_ok.mp rest
  cases written
  simp [get_put, notBlock.symm, notRanges.symm, notChainIds.symm]

theorem get_bytes_put_bytes {db updated : KvDb} {chain number : UInt64} {data : Bytes}
    (stored : putBytes db chain number data = .ok updated) (other position : UInt64) :
    getBytes updated other position =
      if chain = other ∧ number = position then some data else getBytes db other position := by
  obtain ⟨chainIds, -, rest⟩ := bind_eq_ok.mp stored
  obtain ⟨ranges, -, written⟩ := bind_eq_ok.mp rest
  cases written
  simp [getBytes, get_put, makeBlockRangesKey]

theorem get_chain_ids_put_bytes {db updated : KvDb} {chain number : UInt64} {data : Bytes}
    (stored : putBytes db chain number data = .ok updated) {chainIds : List UInt64}
    (read : getChainIds db = .ok chainIds) :
    getChainIds updated = .ok (insertSorted chainIds chain) := by
  obtain ⟨found, idsRead, rest⟩ := bind_eq_ok.mp stored
  obtain ⟨ranges, -, written⟩ := bind_eq_ok.mp rest
  cases read.symm.trans idsRead
  cases written
  simp [getChainIds, get_put, deserialize_serialize_chain_ids]

theorem get_ranges_put_bytes {db updated : KvDb} {chain number : UInt64} {data : Bytes}
    (stored : putBytes db chain number data = .ok updated) {ranges : List BlockRange}
    (read : getRangesOfChainId db chain = .ok ranges) :
    getRangesOfChainId updated chain = .ok (addRange ranges ⟨number, number⟩) := by
  obtain ⟨chainIds, -, rest⟩ := bind_eq_ok.mp stored
  obtain ⟨found, rangesRead, written⟩ := bind_eq_ok.mp rest
  cases read.symm.trans rangesRead
  cases written
  simp [getRangesOfChainId, get_put, makeBlockRangesKey, deserialize_serialize_block_ranges]

/-- The two metadata values that a block write reads first both decode. -/
def Readable (db : KvDb) (chainId : UInt64) : Prop :=
  (∃ chainIds, getChainIds db = .ok chainIds) ∧
    ∃ ranges, getRangesOfChainId db chainId = .ok ranges

theorem put_bytes_readable {db : KvDb} {chain : UInt64} (readable : Readable db chain)
    (number : UInt64) (data : Bytes) :
    ∃ updated, putBytes db chain number data = .ok updated ∧ Readable updated chain := by
  obtain ⟨⟨chainIds, idsRead⟩, ⟨ranges, rangesRead⟩⟩ := readable
  have written : ∃ updated, putBytes db chain number data = .ok updated := by
    simp only [putBytes, idsRead, rangesRead]
    exact ⟨_, rfl⟩
  obtain ⟨updated, stored⟩ := written
  exact ⟨updated, stored, ⟨_, get_chain_ids_put_bytes stored idsRead⟩,
    ⟨_, get_ranges_put_bytes stored rangesRead⟩⟩

end Bertha.BlockDb
