import Bertha.Headers

/-!
# The leaves of a root hash

The order in which `compute_root_hash` of `bertha-types/src/eip_2718_utils.rs` adds its
leaves. The key of an item is the RLP encoding of its index, so 0 stands behind 127 and the
keys grow at every power of 256. An RLP integer is read back from the front of any input,
which makes the keys prefix-free, and sorting distinct keys makes them strictly increasing.
-/

namespace Bertha.TrieLeaves

open Bertha.BigEndian Bertha.BlockTypes Bertha.Headers Bertha.Rlp

set_option autoImplicit false

variable {Item : Type}

/-- A slice; its length is a `usize`. -/
structure Slice (Item : Type) where
  items : List Item
  sized : items.length < 2 ^ 64

def sortedLeaves (marshal : Item → Bytes) (data : List Item) : List (Bytes × Bytes) :=
  (indexedLeaves (data.map marshal)).mergeSort leafLE

/-- No encoding of an integer starts another one. -/
theorem encode_key_prefix_free {left right : Nat} (leftBound : left < 2 ^ 64)
    (rightBound : right < 2 ^ 64) (start : encodeKey left <+: encodeKey right) : left = right := by
  have short : ∀ index < 2 ^ 64, (encodeKey index).length < 2 ^ 64 := by
    intro index bound
    have digits := minimal_be_length_le (show index < 256 ^ 8 by simpa using bound)
    rw [encodeKey, encode_uint_eq index (by simpa using bound)]
    have length := encode_bytes_length_le (minimalBE index) (by omega)
    omega
  obtain ⟨rest, whole⟩ := start
  have first := reads_uint 8 le_rfl (by simpa using leftBound) (short left leftBound) rest
  have second := reads_uint 8 le_rfl (by simpa using rightBound) (short right rightBound) []
  rw [List.append_nil] at second
  have same : encodeUint left ++ rest = encodeUint right := whole
  rw [same, second] at first
  cases first
  rfl

theorem unpack_start {left right : Bytes} (start : unpack left <+: unpack right) :
    left <+: right := by
  induction left generalizing right with
  | nil => exact List.nil_prefix
  | cons byte rest inductionHypothesis =>
      cases right with
      | nil => simp [unpack] at start
      | cons other others =>
          have own : unpack [byte] = unpack [other] ∧ unpack rest <+: unpack others := by
            simpa [unpack, List.cons_prefix_cons, and_assoc] using start
          have same : byte = other := List.singleton_inj.mp (unpack_injective own.1)
          rw [same]
          exact (List.prefix_cons_inj other).mpr (inductionHypothesis own.2)

theorem mem_indexed_leaves (values : List Bytes) (leaf : Bytes × Bytes) :
    leaf ∈ indexedLeaves values ↔
      ∃ index, ∃ inside : index < values.length,
        leaf = (unpack (encodeKey index), values[index]) := by
  constructor
  · intro member
    obtain ⟨⟨value, index⟩, entry, same⟩ := List.mem_map.mp member
    obtain ⟨inside, own⟩ := List.getElem?_eq_some_iff.mp (List.mem_zipIdx_iff_getElem?.mp entry)
    exact ⟨index, inside, by rw [own, ← same]⟩
  · rintro ⟨index, inside, same⟩
    refine List.mem_map.mpr ⟨(values[index], index), ?_, same.symm⟩
    exact List.mem_zipIdx_iff_getElem?.mpr (List.getElem?_eq_getElem inside)

def compareLeaf : Bytes × Bytes → Bytes × Bytes → Ordering :=
  compareLex (compareOn Prod.fst) (compareOn Prod.snd)

instance : Std.TransCmp compareLeaf :=
  inferInstanceAs (Std.TransCmp (compareLex (compareOn Prod.fst) (compareOn Prod.snd)))

theorem leaf_le_trans (first second third : Bytes × Bytes) (before : leafLE first second)
    (after : leafLE second third) : leafLE first third :=
  @Std.TransCmp.isLE_trans _ compareLeaf _ _ _ _ before after

theorem leaf_le_total (left right : Bytes × Bytes) : leafLE left right || leafLE right left := by
  rw [Bool.or_eq_true]
  by_cases ordered : (compareLeaf left right).isLE
  · exact .inl ordered
  · have reversed : compareLeaf right left = .lt := Std.OrientedCmp.lt_of_not_isLE ordered
    exact .inr (Ordering.isLE_of_eq_lt reversed)

theorem sorted_leaves_perm (marshal : Item → Bytes) (data : List Item) :
    (sortedLeaves marshal data).Perm (indexedLeaves (data.map marshal)) :=
  List.mergeSort_perm _ leafLE

theorem sorted_leaves_nodup (marshal : Item → Bytes) (data : List Item) :
    ((sortedLeaves marshal data).map Prod.fst).Nodup :=
  ((sorted_leaves_perm marshal data).map Prod.fst).nodup_iff.mpr (indexed_leaves_keys_nodup _)

theorem sorted_leaves_increasing (marshal : Item → Bytes) (data : List Item) :
    ((sortedLeaves marshal data).map Prod.fst).Pairwise
      fun earlier later => compare earlier later = .lt := by
  have distinct := List.pairwise_map.mp (sorted_leaves_nodup marshal data)
  have sorted := List.pairwise_mergeSort leaf_le_trans leaf_le_total
    (indexedLeaves (data.map marshal))
  apply List.pairwise_map.mpr
  refine (sorted.and distinct).imp ?_
  intro earlier later both
  have ordered : (compare earlier.1 later.1).isLE := Ordering.isLE_left_of_isLE_then both.1
  rcases Ordering.isLE_iff_eq_lt_or_eq_eq.mp ordered with below | same
  · exact below
  · exact absurd (Std.LawfulEqOrd.compare_eq_iff_eq.mp same) both.2

theorem mem_sorted_leaves (marshal : Item → Bytes) (data : List Item) (key value : Bytes) :
    (key, value) ∈ sortedLeaves marshal data ↔
      ∃ index, ∃ inside : index < data.length,
        key = unpack (encodeKey index) ∧ value = marshal data[index] := by
  rw [(sorted_leaves_perm marshal data).mem_iff, mem_indexed_leaves]
  simp only [List.length_map, List.getElem_map, Prod.mk.injEq]

theorem sorted_leaves_prefix_free (marshal : Item → Bytes) (data : Slice Item) :
    ((sortedLeaves marshal data.items).map Prod.fst).Pairwise
      fun earlier later => ¬ earlier <+: later ∧ ¬ later <+: earlier := by
  have indices : ∀ key ∈ (sortedLeaves marshal data.items).map Prod.fst,
      ∃ index < 2 ^ 64, key = unpack (encodeKey index) := by
    intro key member
    obtain ⟨⟨own, value⟩, leaf, same⟩ := List.mem_map.mp member
    obtain ⟨index, inside, encoded, -⟩ := (mem_sorted_leaves marshal data.items own value).mp leaf
    exact ⟨index, inside.trans data.sized, same.symm.trans encoded⟩
  have different : ∀ left ∈ (sortedLeaves marshal data.items).map Prod.fst,
      ∀ right ∈ (sortedLeaves marshal data.items).map Prod.fst, left ≠ right →
        ¬ left <+: right := by
    intro left leftMember right rightMember distinct start
    obtain ⟨first, firstBound, rfl⟩ := indices left leftMember
    obtain ⟨second, secondBound, rfl⟩ := indices right rightMember
    have same := encode_key_prefix_free firstBound secondBound (unpack_start start)
    exact distinct (by rw [same])
  apply (sorted_leaves_nodup marshal data.items).imp_of_mem
  intro earlier later earlierMember laterMember distinct
  exact ⟨different _ earlierMember _ laterMember distinct,
    different _ laterMember _ earlierMember (Ne.symm distinct)⟩

/-- The leaves are added in strictly increasing order of their nibbles, none starts another
one, and there is exactly one for each item, of its index and its marshalled form. -/
theorem root_hash_leaves_legal (libraries : HashLibraries) (marshal : Item → Bytes)
    (data : Slice Item) :
    let leaves := sortedLeaves marshal data.items
    computeRootHash libraries marshal data.items = libraries.trieRoot (addLeaves leaves) ∧
    (leaves.map Prod.fst).Pairwise (fun earlier later => compare earlier later = .lt) ∧
    (leaves.map Prod.fst).Pairwise
      (fun earlier later => ¬ earlier <+: later ∧ ¬ later <+: earlier) ∧
    leaves.length = data.items.length ∧
    ∀ key value, (key, value) ∈ leaves ↔
      ∃ index, ∃ inside : index < data.items.length,
        key = unpack (encodeKey index) ∧ value = marshal data.items[index] := by
  intro leaves
  refine ⟨rfl, sorted_leaves_increasing marshal data.items,
    sorted_leaves_prefix_free marshal data, ?_, mem_sorted_leaves marshal data.items⟩
  rw [(sorted_leaves_perm marshal data.items).length_eq, indexedLeaves, List.length_map,
    List.length_zipIdx, List.length_map]

end Bertha.TrieLeaves
