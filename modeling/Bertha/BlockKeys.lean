import Bertha.BigEndian
import Bertha.BlockRanges
import Bertha.BlockTypes

/-!
# Key and value layout of the block database

The keys and metadata values of `blockservice/src/db/blockdb.rs`. Global metadata
lives under two-byte keys, chain metadata under ten-byte keys and blocks under
seventeen-byte keys, so the three kinds never collide. Block keys compare as the
pair of chain ID and block number, and every serialized list reads back as itself.
-/

namespace Bertha.BlockKeys

open Bertha.BigEndian Bertha.BlockRanges Bertha.BlockTypes Bertha.IntervalList

set_option autoImplicit false

def toBeBytes (value : UInt64) : Bytes := encodeBE 8 value.toNat

def fromBeBytes (bytes : Bytes) : UInt64 := UInt64.ofNat (decodeBE bytes)

/-- `slice::chunks_exact`; an incomplete last chunk is left out. -/
def chunksExact {Item : Type*} (size : Nat) (items : List Item) : List (List Item) :=
  (List.range (items.length / size)).map fun index => (items.drop (index * size)).take size

def versionKey : Bytes := [0x00, 0x00]

def currentVersion : UInt64 := 3

def serializeVersion (version : UInt64) : Bytes := toBeBytes version

def deserializeVersion (data : Bytes) : Except Error UInt64 :=
  if data.length ≠ 8 then
    .error (.storageLayer
      s!"invalid block database version length: expected 8 bytes, got {data.length} bytes")
  else .ok (fromBeBytes data)

def chainIdsKey : Bytes := [0x00, 0x01]

def serializeChainIds (chainIds : List UInt64) : Bytes := chainIds.flatMap toBeBytes

def deserializeChainIds (data : Bytes) : Except Error (List UInt64) :=
  if data.length % 8 ≠ 0 then
    .error (.storageLayer
      s!"invalid chain IDs length: data length {data.length} not a multiple of 8 bytes")
  else .ok ((chunksExact 8 data).map fromBeBytes)

/-- The common shape of the ten-byte chain metadata keys. -/
def makeChainKey (chainId : UInt64) (suffix : UInt8) : Bytes :=
  0x01 :: (toBeBytes chainId ++ [suffix])

def makeBlockRangesKey (chainId : UInt64) : Bytes := makeChainKey chainId 0x00

def makeRulesUpdateHeightsKey (chainId : UInt64) : Bytes := makeChainKey chainId 0x01

def makeCorrectionsKey (chainId : UInt64) : Bytes := makeChainKey chainId 0x02

def makeFailedBundlesKey (chainId : UInt64) : Bytes := makeChainKey chainId 0x03

def makeBlockKey (chainId blockNumber : UInt64) : Bytes :=
  0x02 :: (toBeBytes chainId ++ toBeBytes blockNumber)

def serializeBlockRanges (ranges : List BlockRange) : Bytes :=
  ranges.flatMap fun range => toBeBytes range.start ++ toBeBytes range.stop

def deserializeBlockRanges (data : Bytes) : Except Error (List BlockRange) :=
  if data.length % 16 ≠ 0 then
    .error (.storageLayer
      s!"invalid block ranges length: data length {data.length} not a multiple of 16 bytes")
  else .ok ((chunksExact 16 data).map fun chunk =>
    ⟨fromBeBytes (chunk.take 8), fromBeBytes ((chunk.drop 8).take 8)⟩)

@[simp] theorem to_be_bytes_length (value : UInt64) : (toBeBytes value).length = 8 :=
  encode_be_length 8 value.toNat

@[simp] theorem from_be_to_be_bytes (value : UInt64) : fromBeBytes (toBeBytes value) = value := by
  unfold fromBeBytes toBeBytes
  rw [decode_encode_be_of_lt (by simpa using value.toNat_lt)]
  simp

theorem to_be_from_be_bytes {bytes : Bytes} (length : bytes.length = 8) :
    toBeBytes (fromBeBytes bytes) = bytes := by
  unfold fromBeBytes toBeBytes
  have bound := decode_be_lt bytes
  rw [length] at bound
  rw [UInt64.toNat_ofNat_of_lt' (by simpa using bound), ← length, encode_decode_be]

theorem to_be_bytes_injective {left right : UInt64}
    (same : toBeBytes left = toBeBytes right) : left = right := by
  have decoded := congrArg fromBeBytes same
  simpa using decoded

theorem compare_to_be_bytes (left right : UInt64) :
    compare (toBeBytes left) (toBeBytes right) = compare left right := by
  unfold toBeBytes
  rw [compare_encode_be (by simpa using left.toNat_lt) (by simpa using right.toNat_lt),
    UInt64.compare_eq_toNat_compare_toNat]

theorem chunks_exact_flatten {Item : Type*} {size : Nat} (positive : 0 < size)
    {blocks : List (List Item)} (sized : ∀ block ∈ blocks, block.length = size) :
    chunksExact size blocks.flatten = blocks := by
  induction blocks with
  | nil => simp [chunksExact]
  | cons block rest ih =>
      have blockSize := sized block (by simp)
      have tail := ih (fun later member => sized later (by simp [member]))
      have count : (block ++ rest.flatten).length / size = rest.flatten.length / size + 1 := by
        rw [List.length_append, blockSize, Nat.add_comm, Nat.add_div_right _ positive]
      unfold chunksExact at tail ⊢
      rw [List.flatten_cons, count, List.range_succ_eq_map, List.map_cons, List.map_map]
      congr 1
      · simp [← blockSize]
      · refine Eq.trans (List.map_congr_left ?_) tail
        intro index _
        have shift : (index + 1) * size = block.length + index * size := by
          rw [blockSize, Nat.add_mul, Nat.one_mul, Nat.add_comm]
        simp only [Function.comp_apply, Nat.succ_eq_add_one, shift, List.drop_length_add_append]

private theorem flat_map_sized {Item : Type*} {size : Nat} (encode : Item → Bytes)
    (sized : ∀ item, (encode item).length = size) (items : List Item) :
    (items.flatMap encode).length = items.length * size := by
  induction items with
  | nil => simp
  | cons item items ih =>
      rw [List.flatMap_cons, List.length_append, sized, ih, List.length_cons]
      ring

theorem chunks_exact_length {Item : Type*} {size : Nat} (items : List Item) :
    ∀ chunk ∈ chunksExact size items, chunk.length = size := by
  intro chunk member
  unfold chunksExact at member
  obtain ⟨index, inRange, same⟩ := List.mem_map.mp member
  have below : index < items.length / size := List.mem_range.mp inRange
  have whole : (index + 1) * size ≤ items.length :=
    (Nat.mul_le_mul_right size below).trans (Nat.div_mul_le_self items.length size)
  rw [← same, List.length_take, List.length_drop]
  rw [Nat.add_mul, Nat.one_mul] at whole
  omega

theorem flatten_chunks_exact {Item : Type*} {size : Nat} {items : List Item}
    (whole : size ∣ items.length) : (chunksExact size items).flatten = items := by
  have prefixes : ∀ count, ((List.range count).map fun index =>
      (items.drop (index * size)).take size).flatten = items.take (count * size) := by
    intro count
    induction count with
    | zero => simp
    | succ count ih =>
        rw [List.range_succ, List.map_append, List.flatten_append, ih, Nat.add_mul,
          Nat.one_mul, List.take_add]
        simp
  unfold chunksExact
  rw [prefixes, Nat.div_mul_cancel whole, List.take_length]

theorem deserialize_serialize_chain_ids (chainIds : List UInt64) :
    deserializeChainIds (serializeChainIds chainIds) = .ok chainIds := by
  have length : (serializeChainIds chainIds).length = chainIds.length * 8 :=
    flat_map_sized toBeBytes to_be_bytes_length chainIds
  have chunks : chunksExact 8 (serializeChainIds chainIds) = chainIds.map toBeBytes := by
    unfold serializeChainIds
    rw [List.flatMap_def]
    exact chunks_exact_flatten (by decide) (by simp)
  unfold deserializeChainIds
  rw [if_neg (by rw [length]; simp), chunks, List.map_map]
  congr 1
  exact List.map_id'' from_be_to_be_bytes chainIds

theorem deserialize_serialize_block_ranges (ranges : List BlockRange) :
    deserializeBlockRanges (serializeBlockRanges ranges) = .ok ranges := by
  have length : (serializeBlockRanges ranges).length = ranges.length * 16 :=
    flat_map_sized _ (by simp) ranges
  have chunks : chunksExact 16 (serializeBlockRanges ranges) =
      ranges.map fun range => toBeBytes range.start ++ toBeBytes range.stop := by
    unfold serializeBlockRanges
    rw [List.flatMap_def]
    exact chunks_exact_flatten (by decide) (by simp)
  unfold deserializeBlockRanges
  rw [if_neg (by rw [length]; simp), chunks, List.map_map]
  congr 1
  apply List.map_id''
  intro range
  have first : (toBeBytes range.start ++ toBeBytes range.stop).take 8 = toBeBytes range.start :=
    List.take_left' (to_be_bytes_length range.start)
  have second : (toBeBytes range.start ++ toBeBytes range.stop).drop 8 = toBeBytes range.stop :=
    List.drop_left' (to_be_bytes_length range.start)
  simp only [Function.comp_apply, first, second]
  rw [List.take_of_length_le (by simp)]
  simp

private theorem flat_map_chunks {Item : Type*} {size : Nat} {decode : Bytes → Item}
    {encode : Item → Bytes} {data : Bytes} (whole : data.length % size = 0)
    (inverse : ∀ chunk, chunk.length = size → encode (decode chunk) = chunk) :
    ((chunksExact size data).map decode).flatMap encode = data := by
  have same : (chunksExact size data).map (encode ∘ decode) = (chunksExact size data).map id :=
    List.map_congr_left fun chunk member => inverse chunk (chunks_exact_length data chunk member)
  rw [List.flatMap_def, List.map_map, same, List.map_id,
    flatten_chunks_exact (Nat.dvd_of_mod_eq_zero whole)]

theorem serialize_deserialize_chain_ids {data : Bytes} {chainIds : List UInt64}
    (decoded : deserializeChainIds data = .ok chainIds) : serializeChainIds chainIds = data := by
  unfold deserializeChainIds at decoded
  split at decoded
  · cases decoded
  · rename_i whole
    cases decoded
    exact flat_map_chunks (by simpa using whole) fun _ length => to_be_from_be_bytes length

theorem serialize_deserialize_block_ranges {data : Bytes} {ranges : List BlockRange}
    (decoded : deserializeBlockRanges data = .ok ranges) :
    serializeBlockRanges ranges = data := by
  unfold deserializeBlockRanges at decoded
  split at decoded
  · cases decoded
  · rename_i whole
    cases decoded
    apply flat_map_chunks (by simpa using whole)
    intro chunk length
    have first : (chunk.take 8).length = 8 := by simp [length]
    have second : (chunk.drop 8).length = 8 := by simp [length]
    have last : (chunk.drop 8).take 8 = chunk.drop 8 := List.take_of_length_le (by omega)
    simp only [last, to_be_from_be_bytes first, to_be_from_be_bytes second,
      List.take_append_drop]

@[simp] theorem make_chain_key_length (chainId : UInt64) (suffix : UInt8) :
    (makeChainKey chainId suffix).length = 10 := by
  simp [makeChainKey]

@[simp] theorem make_block_key_length (chainId blockNumber : UInt64) :
    (makeBlockKey chainId blockNumber).length = 17 := by
  simp [makeBlockKey]

theorem make_chain_key_injective {left right : UInt64} {suffix other : UInt8}
    (same : makeChainKey left suffix = makeChainKey right other) :
    left = right ∧ suffix = other := by
  unfold makeChainKey at same
  have parts := List.append_inj (List.cons.inj same).2 (by simp)
  exact ⟨to_be_bytes_injective parts.1, (List.cons.inj parts.2).1⟩

theorem make_block_key_injective {chain otherChain number otherNumber : UInt64}
    (same : makeBlockKey chain number = makeBlockKey otherChain otherNumber) :
    chain = otherChain ∧ number = otherNumber := by
  unfold makeBlockKey at same
  have parts := List.append_inj (List.cons.inj same).2 (by simp)
  exact ⟨to_be_bytes_injective parts.1, to_be_bytes_injective parts.2⟩

@[simp] theorem make_block_key_eq_iff (chain otherChain number otherNumber : UInt64) :
    makeBlockKey chain number = makeBlockKey otherChain otherNumber ↔
      chain = otherChain ∧ number = otherNumber :=
  ⟨make_block_key_injective, fun same => by rw [same.1, same.2]⟩

@[simp] theorem make_chain_key_eq_iff (chain otherChain : UInt64) (suffix other : UInt8) :
    makeChainKey chain suffix = makeChainKey otherChain other ↔
      chain = otherChain ∧ suffix = other :=
  ⟨make_chain_key_injective, fun same => by rw [same.1, same.2]⟩

@[simp] theorem chain_key_ne_block_key (chain otherChain number : UInt64) (suffix : UInt8) :
    makeChainKey chain suffix ≠ makeBlockKey otherChain number := by
  intro same
  have lengths := congrArg List.length same
  simp at lengths

@[simp] theorem chain_ids_key_ne_chain_key (chain : UInt64) (suffix : UInt8) :
    chainIdsKey ≠ makeChainKey chain suffix := by
  intro same
  have lengths := congrArg List.length same
  simp [chainIdsKey] at lengths

@[simp] theorem chain_ids_key_ne_block_key (chain number : UInt64) :
    chainIdsKey ≠ makeBlockKey chain number := by
  intro same
  have lengths := congrArg List.length same
  simp [chainIdsKey] at lengths

@[simp] theorem block_key_ne_chain_key (chain otherChain number : UInt64) (suffix : UInt8) :
    makeBlockKey otherChain number ≠ makeChainKey chain suffix :=
  (chain_key_ne_block_key chain otherChain number suffix).symm

@[simp] theorem chain_key_ne_chain_ids_key (chain : UInt64) (suffix : UInt8) :
    makeChainKey chain suffix ≠ chainIdsKey :=
  (chain_ids_key_ne_chain_key chain suffix).symm

@[simp] theorem version_key_ne_chain_key (chain : UInt64) (suffix : UInt8) :
    versionKey ≠ makeChainKey chain suffix := by
  intro same
  have lengths := congrArg List.length same
  simp [versionKey] at lengths

@[simp] theorem version_key_ne_block_key (chain number : UInt64) :
    versionKey ≠ makeBlockKey chain number := by
  intro same
  have lengths := congrArg List.length same
  simp [versionKey] at lengths

theorem compare_make_block_key (chain otherChain number otherNumber : UInt64) :
    compare (makeBlockKey chain number) (makeBlockKey otherChain otherNumber) =
      (compare chain otherChain).then (compare number otherNumber) := by
  unfold makeBlockKey
  have tags : compare (0x02 : UInt8) 0x02 = .eq := by decide
  rw [List.compare_cons_cons, tags, Ordering.eq_then, compare_append _ _ (by simp),
    compare_to_be_bytes, compare_to_be_bytes]

/-- Metadata keys sort before all block keys. -/
theorem compare_block_key_of_lower {byte : UInt8} {rest : Bytes} (lower : byte < 0x02)
    (chain number : UInt64) : compare (makeBlockKey chain number) (byte :: rest) = .gt := by
  have tags : compare (0x02 : UInt8) byte = .gt := by
    rw [UInt8.compare_eq_toNat_compare_toNat, Nat.compare_eq_gt]
    exact UInt8.lt_iff_toNat_lt.mp lower
  rw [makeBlockKey, List.compare_cons_cons, tags]
  rfl

theorem compare_block_key_chain_key (chain number other : UInt64) (suffix : UInt8) :
    compare (makeBlockKey chain number) (makeChainKey other suffix) = .gt :=
  compare_block_key_of_lower (by decide) chain number

theorem compare_block_key_chain_ids_key (chain number : UInt64) :
    compare (makeBlockKey chain number) chainIdsKey = .gt :=
  compare_block_key_of_lower (by decide) chain number

theorem compare_block_key_version_key (chain number : UInt64) :
    compare (makeBlockKey chain number) versionKey = .gt :=
  compare_block_key_of_lower (by decide) chain number

/-- A seventeen-byte key with the block prefix is the key of the two numbers that
`iterate_bytes` reads out of it. -/
theorem make_block_key_of_parts {key : Bytes} (length : key.length = 17)
    (tag : key[0]? = some 0x02) :
    makeBlockKey (fromBeBytes ((key.drop 1).take 8)) (fromBeBytes ((key.drop 9).take 8)) =
      key := by
  cases key with
  | nil => simp at length
  | cons head rest =>
      simp only [List.getElem?_cons_zero, Option.some.injEq] at tag
      have restLength : rest.length = 16 := by simpa using length
      have chainPart : (rest.take 8).length = 8 := by simp [restLength]
      have numberPart : (rest.drop 8).length = 8 := by simp [restLength]
      have lastPart : (rest.drop 8).take 8 = rest.drop 8 :=
        List.take_of_length_le (by omega)
      simp only [List.drop_succ_cons, List.drop_zero, lastPart, makeBlockKey]
      rw [to_be_from_be_bytes chainPart, to_be_from_be_bytes numberPart,
        List.take_append_drop, tag]

end Bertha.BlockKeys
