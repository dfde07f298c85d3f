import Bertha.OrderedStore
import Bertha.TransactionRlp

/-!
# Block headers

`Block::to_header`, the header and receipt encodings and `compute_root_hash` of
`bertha-types`. The trie library, the bloom filter library and the header hash are
parameters: the trie root is a function of the leaves it was given, a bloom filter
accrues one input at a time, and a header hash is any function of the header.
-/

namespace Bertha.Headers

open Bertha.BigEndian Bertha.BlockTypes Bertha.OrderedStore Bertha.Rlp Bertha.RlpFields
open Bertha.TransactionRlp

set_option autoImplicit false

structure BlockHeader where
  parentHash : Hash
  ommersHash : Hash
  beneficiary : Address
  stateRoot : Hash
  transactionsRoot : Hash
  receiptsRoot : Hash
  logsBloom : Bloom
  difficulty : U256
  number : UInt64
  gasLimit : UInt64
  gasUsed : UInt64
  timestamp : UInt64
  extraData : Bytes
  prevRandao : Hash
  nonce : FixedBytes 8
  baseFeePerGas : Option U256
  withdrawalsRoot : Option Hash
  blobGasUsed : Option UInt64
  excessBlobGas : Option UInt64
  parentBeaconBlockRoot : Option Hash
  requestsHash : Option Hash
deriving DecidableEq

structure HashLibraries where
  /-- `HashBuilder::root` over the leaves added so far, keyed by nibbles. -/
  trieRoot : Store Bytes Bytes → Hash
  /-- `Bloom::accrue` with a raw input. -/
  accrue : Bloom → Bytes → Bloom

def unpack (bytes : Bytes) : Bytes := bytes.flatMap fun byte => [byte / 16, byte % 16]

def encodeKey (index : Nat) : Bytes := encodeUint index

def indexedLeaves (values : List Bytes) : List (Bytes × Bytes) :=
  values.zipIdx.map fun entry => (unpack (encodeKey entry.2), entry.1)

def leafLE (left right : Bytes × Bytes) : Bool :=
  ((compare left.1 right.1).then (compare left.2 right.2)).isLE

def addLeaves (leaves : List (Bytes × Bytes)) : Store Bytes Bytes :=
  leaves.foldl (fun trie leaf => trie.insert leaf.1 leaf.2) ∅

def computeRootHash {Item : Type} (libraries : HashLibraries) (marshal : Item → Bytes)
    (data : List Item) : Hash :=
  libraries.trieRoot (addLeaves ((indexedLeaves (data.map marshal)).mergeSort leafLE))

def accrueLog (libraries : HashLibraries) (bloom : Bloom) (log : Log) : Bloom :=
  log.topics.foldl (fun bloom topic => libraries.accrue bloom topic.val)
    (libraries.accrue bloom log.address.val)

def TransactionReceipt.logsBloom (libraries : HashLibraries) (receipt : TransactionReceipt) :
    Bloom :=
  receipt.logs.foldl (accrueLog libraries) (FixedBytes.zero 256)

def encodeLog (log : Log) : Bytes :=
  encodeList [encodeFixed log.address, encodeList (log.topics.map encodeFixed),
    encodeBytes log.data]

/-- The status bytes of `RECEIPT_STATUS_SUCCESS_RLP` and `RECEIPT_STATUS_FAILED_RLP`, or
the post-state root. -/
def statusBytes : PostStateOrStatus → Bytes
  | .status code => if code = 1 then [0x01] else []
  | .postState root => root.val

def TransactionReceipt.marshal (libraries : HashLibraries) (receipt : TransactionReceipt) :
    Bytes :=
  (if receipt.transactionType ≠ .legacy then [receipt.transactionType.toU8] else []) ++
    encodeList [encodeString (statusBytes receipt.postStateOrStatus),
      encodeU64 receipt.cumulativeGasUsed,
      encodeFixed (TransactionReceipt.logsBloom libraries receipt),
      encodeList (receipt.logs.map encodeLog)]

def Block.toHeader (libraries : HashLibraries) (block : Block) : BlockHeader where
  parentHash := block.parentHash
  ommersHash := block.ommersHash
  beneficiary := block.beneficiary
  stateRoot := block.stateRoot
  transactionsRoot := computeRootHash libraries Transaction.marshal block.transactions
  receiptsRoot := computeRootHash libraries (TransactionReceipt.marshal libraries) block.receipts
  logsBloom := block.receipts.foldl
    (fun bloom receipt => receipt.logs.foldl (accrueLog libraries) bloom) (FixedBytes.zero 256)
  difficulty := block.difficulty.toBitVec.setWidth 256
  number := block.number
  gasLimit := block.gasLimit
  gasUsed := (block.receipts.getLast?.map (·.cumulativeGasUsed)).getD 0
  timestamp := block.timestamp
  extraData := block.extraData
  prevRandao := block.prevRandao
  nonce := block.nonce
  baseFeePerGas := block.baseFeePerGas
  withdrawalsRoot := block.withdrawalsRoot
  blobGasUsed := block.blobGasUsed
  excessBlobGas := block.excessBlobGas
  parentBeaconBlockRoot := block.parentBeaconBlockRoot
  requestsHash := block.requestsHash

/-- `RlpBlockHeader`, with the optional fields of the later hard forks trailing. -/
def BlockHeader.encode (header : BlockHeader) : Bytes :=
  encodeList ([encodeFixed header.parentHash, encodeFixed header.ommersHash,
      encodeFixed header.beneficiary, encodeFixed header.stateRoot,
      encodeFixed header.transactionsRoot, encodeFixed header.receiptsRoot,
      encodeFixed header.logsBloom, encodeU256 header.difficulty, encodeU64 header.number,
      encodeU64 header.gasLimit, encodeU64 header.gasUsed, encodeU64 header.timestamp,
      encodeBytes header.extraData, encodeFixed header.prevRandao, encodeFixed header.nonce] ++
    trailing [header.baseFeePerGas.map encodeU256, header.withdrawalsRoot.map encodeFixed,
      header.blobGasUsed.map encodeU64, header.excessBlobGas.map encodeU64,
      header.parentBeaconBlockRoot.map encodeFixed, header.requestsHash.map encodeFixed])

theorem get_add_leaves {leaves : List (Bytes × Bytes)}
    (distinct : (leaves.map Prod.fst).Nodup) (key value : Bytes) :
    (addLeaves leaves)[key]? = some value ↔ (key, value) ∈ leaves := by
  suffices general : ∀ trie : Store Bytes Bytes,
      (leaves.foldl (fun trie leaf => trie.insert leaf.1 leaf.2) trie)[key]? = some value ↔
        (key, value) ∈ leaves ∨ key ∉ leaves.map Prod.fst ∧ trie[key]? = some value by
    simpa [addLeaves] using general ∅
  induction leaves with
  | nil => simp
  | cons leaf leaves ih =>
      intro trie
      simp only [List.map_cons, List.nodup_cons] at distinct
      rw [List.foldl_cons, ih distinct.2]
      simp only [Std.ExtTreeMap.getElem?_insert, Std.LawfulEqOrd.compare_eq_iff_eq]
      by_cases own : leaf.1 = key
      · subst own
        have absent : ∀ other, (leaf.1, other) ∉ leaves := fun other member =>
          distinct.1 (List.mem_map.mpr ⟨_, member, rfl⟩)
        simp [distinct.1, absent, Prod.ext_iff, eq_comm]
      · have differs : (key, value) ≠ leaf := fun same => own (by rw [← same])
        have other : key ≠ leaf.1 := fun same => own same.symm
        simp [own, differs, other]

/-- Leaves with distinct keys make the same trie in any order. -/
theorem add_leaves_perm {left right : List (Bytes × Bytes)} (permuted : left.Perm right)
    (distinct : (left.map Prod.fst).Nodup) : addLeaves left = addLeaves right := by
  have distinctRight : (right.map Prod.fst).Nodup :=
    (permuted.map Prod.fst).nodup_iff.mp distinct
  apply store_ext
  intro key
  apply Option.ext
  intro value
  rw [get_add_leaves distinct, get_add_leaves distinctRight]
  exact permuted.mem_iff

theorem unpack_injective {left right : Bytes} (same : unpack left = unpack right) :
    left = right := by
  induction left generalizing right with
  | nil =>
      cases right with
      | nil => rfl
      | cons byte rest => simp [unpack] at same
  | cons byte rest ih =>
      cases right with
      | nil => simp [unpack] at same
      | cons other others =>
          simp only [unpack, List.flatMap_cons, List.cons_append, List.nil_append,
            List.cons.injEq] at same
          obtain ⟨high, low, tail⟩ := same
          have bytes : byte = other := by
            rw [← UInt8.toNat_inj] at high low ⊢
            simp only [UInt8.toNat_div, UInt8.toNat_mod, UInt8.reduceToNat] at high low
            omega
          rw [bytes, ih tail]

theorem indexed_leaves_keys_nodup (values : List Bytes) :
    ((indexedLeaves values).map Prod.fst).Nodup := by
  have keys : (indexedLeaves values).map Prod.fst =
      (List.range values.length).map fun index => unpack (encodeKey index) := by
    rw [List.range_eq_range', ← List.zipIdx_map_snd 0 values, List.map_map]
    simp only [indexedLeaves, List.map_map, Function.comp_def]
  rw [keys]
  apply List.Nodup.map _ List.nodup_range
  intro left right same
  exact encode_uint_injective (unpack_injective same)

/-- Sorting the leaves does not change the trie they make. -/
theorem compute_root_hash_eq {Item : Type} (libraries : HashLibraries) (marshal : Item → Bytes)
    (data : List Item) :
    computeRootHash libraries marshal data =
      libraries.trieRoot (addLeaves (indexedLeaves (data.map marshal))) := by
  unfold computeRootHash
  rw [add_leaves_perm (List.mergeSort_perm _ leafLE).symm (indexed_leaves_keys_nodup _)]

end Bertha.Headers
