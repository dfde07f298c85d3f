import Bertha.BlockDb

/-!
# What the block database stores

The purpose of the database, without keys or byte layouts: a map from chain and number
to block bytes, the chains with a range entry, the list of known chains and everything
else. A byte store represents such contents when its range entries are the canonical
range lists of the stored numbers and its chain list is sorted; the representation is
unique, so two stores with the same contents are the same bytes. Every operation of the
database is matched by one on contents.
-/

namespace Bertha.BlockDbContents

open Bertha.BigEndian Bertha.BinarySearch Bertha.BlockDb Bertha.BlockKeys Bertha.BlockRanges
open Bertha.Conversion Bertha.IntervalList Bertha.OrderedStore

set_option autoImplicit false

@[ext] structure Contents where
  blocks : UInt64 → UInt64 → Option Bytes
  /-- The chains that have a block range entry. -/
  tracked : UInt64 → Prop
  /-- The chain list, which is missing in a fresh database. -/
  listed : Option (Set UInt64)
  other : Bytes → Option Bytes

namespace Contents

def numbers (contents : Contents) (chain : UInt64) : Set UInt64 :=
  {number | (contents.blocks chain number).isSome}

def chains (contents : Contents) : Set UInt64 := contents.listed.getD ∅

/-- The chain has a block, rules update heights, corrections or failed bundles. -/
def HasData (contents : Contents) (chain : UInt64) : Prop :=
  (∃ number, number ∈ contents.numbers chain) ∨
    (contents.other (makeRulesUpdateHeightsKey chain)).isSome ∨
    (contents.other (makeCorrectionsKey chain)).isSome ∨
    (contents.other (makeFailedBundlesKey chain)).isSome

structure Valid (contents : Contents) : Prop where
  bounded : ∀ chain, maxBlockNumber ∉ contents.numbers chain
  tracked : ∀ chain number, number ∈ contents.numbers chain → contents.tracked chain
  listed : ∀ chain, contents.HasData chain → chain ∈ contents.chains

def put (contents : Contents) (chain number : UInt64) (data : Bytes) : Contents where
  blocks other position :=
    if chain = other ∧ number = position then some data else contents.blocks other position
  tracked other := other = chain ∨ contents.tracked other
  listed := some (insert chain contents.chains)
  other := contents.other

def delete (contents : Contents) (chain first last : UInt64) : Contents where
  blocks other position :=
    if chain = other ∧ first ≤ position ∧ position ≤ last then none
    else contents.blocks other position
  tracked other := other = chain ∨ contents.tracked other
  listed := contents.listed
  other := contents.other

def putEntry (contents : Contents) (chain : UInt64) (key data : Bytes) : Contents where
  blocks := contents.blocks
  tracked := contents.tracked
  listed := some (insert chain contents.chains)
  other target := if key = target then some data else contents.other target

theorem numbers_put (contents : Contents) (chain number other : UInt64) (data : Bytes) :
    (contents.put chain number data).numbers other =
      if chain = other then insert number (contents.numbers other) else contents.numbers other := by
  ext position
  by_cases same : chain = other
  · by_cases own : number = position
    · simp [numbers, put, same, own]
    · simp [numbers, put, same, own, Ne.symm own]
  · simp [numbers, put, same]

theorem numbers_delete (contents : Contents) (chain first last other : UInt64) :
    (contents.delete chain first last).numbers other =
      if chain = other then contents.numbers other \ {position | first ≤ position ∧ position ≤ last}
      else contents.numbers other := by
  ext position
  by_cases same : chain = other
  · by_cases inside : first ≤ position ∧ position ≤ last
    · simp [numbers, delete, same, inside]
    · simp [numbers, delete, same, inside]
  · simp [numbers, delete, same]

def putAll (contents : Contents) (writes : List BlockWrite) : Contents :=
  writes.foldl (fun contents write => contents.put write.chainId write.blockNumber write.data)
    contents

@[simp] theorem put_all_nil (contents : Contents) : contents.putAll [] = contents := rfl

@[simp] theorem put_all_cons (contents : Contents) (write : BlockWrite)
    (writes : List BlockWrite) :
    contents.putAll (write :: writes) =
      (contents.put write.chainId write.blockNumber write.data).putAll writes := rfl

theorem put_all_append (contents : Contents) (left right : List BlockWrite) :
    contents.putAll (left ++ right) = (contents.putAll left).putAll right :=
  List.foldl_append

theorem put_valid {contents : Contents} (valid : contents.Valid) (chain : UInt64)
    {number : UInt64} (data : Bytes) (below : number < maxBlockNumber) :
    (contents.put chain number data).Valid := by
  constructor
  · intro other
    rw [numbers_put]
    split
    · rintro (equal | before)
      · exact below.ne equal.symm
      · exact valid.bounded other before
    · exact valid.bounded other
  · intro other position member
    by_cases own : other = chain
    · exact .inl own
    · rw [numbers_put, if_neg (Ne.symm own)] at member
      exact .inr (valid.tracked other position member)
  · intro other hasData
    by_cases own : other = chain
    · exact .inl own
    · rw [HasData, numbers_put, if_neg (Ne.symm own)] at hasData
      exact .inr (valid.listed other hasData)

theorem put_all_valid {contents : Contents} (valid : contents.Valid) (writes : List BlockWrite)
    (below : ∀ write ∈ writes, write.blockNumber < maxBlockNumber) :
    (contents.putAll writes).Valid := by
  induction writes generalizing contents with
  | nil => exact valid
  | cons write writes ih =>
      exact ih (put_valid valid write.chainId write.data (below write (by simp)))
        fun later member => below later (by simp [member])

theorem delete_valid {contents : Contents} (valid : contents.Valid) (chain first last : UInt64) :
    (contents.delete chain first last).Valid := by
  have fewer : ∀ other, (contents.delete chain first last).numbers other ⊆
      contents.numbers other := by
    intro other
    rw [numbers_delete]
    split
    · exact Set.sdiff_subset
    · exact subset_rfl
  constructor
  · exact fun other member => valid.bounded other (fewer other member)
  · exact fun other position member => .inr (valid.tracked other position (fewer other member))
  · rintro other (⟨number, member⟩ | metadata)
    · exact valid.listed other (.inl ⟨number, fewer other member⟩)
    · exact valid.listed other (.inr metadata)

theorem put_entry_valid {contents : Contents} (valid : contents.Valid) (chain : UInt64)
    (suffix : UInt8) (data : Bytes) :
    (contents.putEntry chain (makeChainKey chain suffix) data).Valid := by
  constructor
  · exact valid.bounded
  · exact valid.tracked
  · intro other hasData
    by_cases own : other = chain
    · exact .inl own
    · have kept : ∀ kind, (contents.putEntry chain (makeChainKey chain suffix) data).other
          (makeChainKey other kind) = contents.other (makeChainKey other kind) := by
        intro kind
        simp [putEntry, Ne.symm own]
      rw [HasData, makeRulesUpdateHeightsKey, makeCorrectionsKey, makeFailedBundlesKey, kept,
        kept, kept] at hasData
      exact .inr (valid.listed other hasData)

theorem put_all_other (contents : Contents) (writes : List BlockWrite) :
    (contents.putAll writes).other = contents.other := by
  induction writes generalizing contents with
  | nil => rfl
  | cons write writes ih => exact ih _

theorem put_all_tracked (contents : Contents) (writes : List BlockWrite) (chain : UInt64) :
    (contents.putAll writes).tracked chain ↔
      (∃ write ∈ writes, write.chainId = chain) ∨ contents.tracked chain := by
  induction writes generalizing contents with
  | nil => simp
  | cons write writes ih =>
      rw [put_all_cons, ih]
      simp only [put, List.mem_cons, exists_eq_or_imp, eq_comm (a := chain)]
      rw [or_left_comm, or_assoc]

theorem put_all_chains (contents : Contents) (writes : List BlockWrite) (chain : UInt64) :
    chain ∈ (contents.putAll writes).chains ↔
      (∃ write ∈ writes, write.chainId = chain) ∨ chain ∈ contents.chains := by
  induction writes generalizing contents with
  | nil => simp
  | cons write writes ih =>
      rw [put_all_cons, ih]
      simp only [put, chains, Option.getD_some, Set.mem_insert_iff, List.mem_cons,
        exists_eq_or_imp, eq_comm (a := chain)]
      rw [or_left_comm, or_assoc]

theorem put_all_listed (contents : Contents) {writes : List BlockWrite} (some : writes ≠ []) :
    (contents.putAll writes).listed = Option.some (contents.putAll writes).chains := by
  induction writes generalizing contents with
  | nil => exact absurd rfl some
  | cons write writes ih =>
      cases writes with
      | nil => rfl
      | cons next later => exact ih _ (by simp)

theorem put_all_numbers (contents : Contents) (writes : List BlockWrite) (chain : UInt64) :
    (contents.putAll writes).numbers chain = contents.numbers chain ∪
      {number | ∃ write ∈ writes, write.chainId = chain ∧ write.blockNumber = number} := by
  induction writes generalizing contents with
  | nil => simp
  | cons write writes ih =>
      rw [put_all_cons, ih, numbers_put]
      ext number
      by_cases own : write.chainId = chain
      · simp only [own, if_true, Set.mem_union, Set.mem_insert_iff, Set.mem_ofPred_eq,
          List.mem_cons, exists_eq_or_imp, true_and, eq_comm (a := number)]
        rw [or_assoc, or_left_comm]
      · simp [own]

/-- The data of the last write to a chain and number. -/
def lastWrite (writes : List BlockWrite) (chain number : UInt64) : Option Bytes :=
  (writes.filter fun write => write.chainId = chain ∧ write.blockNumber = number).getLast?.map
    BlockWrite.data

theorem last_write_cons (write : BlockWrite) (writes : List BlockWrite) (chain number : UInt64) :
    lastWrite (write :: writes) chain number =
      (lastWrite writes chain number).or
        (if write.chainId = chain ∧ write.blockNumber = number then some write.data else none) := by
  unfold lastWrite
  by_cases own : write.chainId = chain ∧ write.blockNumber = number
  · rw [List.filter_cons_of_pos (by simpa using own), List.getLast?_cons, if_pos own]
    cases (writes.filter _).getLast? <;> rfl
  · rw [List.filter_cons_of_neg (by simpa using own), if_neg own, Option.or_none]

theorem put_all_blocks (contents : Contents) (writes : List BlockWrite) (chain number : UInt64) :
    (contents.putAll writes).blocks chain number =
      (lastWrite writes chain number).or (contents.blocks chain number) := by
  induction writes generalizing contents with
  | nil => rfl
  | cons write writes ih =>
      rw [put_all_cons, ih, last_write_cons, Option.or_assoc]
      congr 1
      by_cases own : write.chainId = chain ∧ write.blockNumber = number
      · simp [put, own]
      · simp [put, own]

theorem last_write_mem {writes : List BlockWrite} {chain number : UInt64} {data : Bytes}
    (found : lastWrite writes chain number = some data) : ⟨chain, number, data⟩ ∈ writes := by
  obtain ⟨write, last, rfl⟩ := Option.map_eq_some_iff.mp found
  have member := List.mem_filter.mp (List.mem_of_getLast? last)
  obtain ⟨rfl, rfl⟩ : write.chainId = chain ∧ write.blockNumber = number := by
    simpa using member.2
  exact member.1

theorem last_write_exists {writes : List BlockWrite} {write : BlockWrite}
    (member : write ∈ writes) :
    ∃ data, lastWrite writes write.chainId write.blockNumber = some data := by
  cases found : lastWrite writes write.chainId write.blockNumber with
  | some data => exact ⟨data, rfl⟩
  | none =>
      have nothing := List.getLast?_eq_none_iff.mp (Option.map_eq_none_iff.mp found)
      have own := List.filter_eq_nil_iff.mp nothing write member
      simp at own

theorem last_write_perm {left right : List BlockWrite} (permuted : left.Perm right)
    (distinct : (left.map fun write => (write.chainId, write.blockNumber)).Nodup)
    (chain number : UInt64) : lastWrite left chain number = lastWrite right chain number := by
  unfold lastWrite
  have kept := permuted.filter
    fun write => decide (write.chainId = chain ∧ write.blockNumber = number)
  have keys := (List.filter_sublist (l := left)
    (p := fun write => decide (write.chainId = chain ∧ write.blockNumber = number))).map
    (fun write => (write.chainId, write.blockNumber)) |>.nodup distinct
  have own : ∀ write ∈ left.filter fun write =>
      decide (write.chainId = chain ∧ write.blockNumber = number),
      (write.chainId, write.blockNumber) = (chain, number) := by
    intro write member
    simpa using (List.mem_filter.mp member).2
  generalize left.filter _ = found at kept keys own ⊢
  cases found with
  | nil => rw [List.nil_perm.mp kept]
  | cons write rest =>
      cases rest with
      | nil => rw [List.singleton_perm.mp kept]
      | cons next later =>
          have first := own write (by simp)
          have second := own next (by simp)
          simp [first, second] at keys

theorem put_all_perm (contents : Contents) {left right : List BlockWrite}
    (permuted : left.Perm right)
    (distinct : (left.map fun write => (write.chainId, write.blockNumber)).Nodup) :
    contents.putAll left = contents.putAll right := by
  have sameChains : (contents.putAll left).chains = (contents.putAll right).chains := by
    ext chain
    simp only [put_all_chains, permuted.mem_iff]
  apply Contents.ext
  · funext chain number
    rw [put_all_blocks, put_all_blocks, last_write_perm permuted distinct]
  · funext chain
    simp only [put_all_tracked, permuted.mem_iff]
  · by_cases empty : left = []
    · subst empty
      rw [List.nil_perm.mp permuted]
    · have nonempty : right ≠ [] := by
        rintro rfl
        exact empty (List.perm_nil.mp permuted)
      rw [put_all_listed contents empty, put_all_listed contents nonempty, sameChains]
  · rw [put_all_other, put_all_other]

/-- Writes that are repeated later leave no trace. -/
theorem put_all_absorb (contents : Contents) {early late : List BlockWrite}
    (repeated : ∀ write ∈ early, write ∈ late) :
    (contents.putAll early).putAll late = contents.putAll late := by
  have chainRepeated : ∀ chain, (∃ write ∈ early, write.chainId = chain) →
      ∃ write ∈ late, write.chainId = chain := by
    rintro chain ⟨write, member, own⟩
    exact ⟨write, repeated write member, own⟩
  have sameChains : ((contents.putAll early).putAll late).chains =
      (contents.putAll late).chains := by
    ext chain
    rw [put_all_chains, put_all_chains, put_all_chains, ← or_assoc,
      or_iff_left_of_imp (chainRepeated chain)]
  apply Contents.ext
  · funext chain number
    rw [put_all_blocks, put_all_blocks, put_all_blocks]
    cases found : lastWrite early chain number with
    | none => rfl
    | some data =>
        obtain ⟨other, later⟩ := last_write_exists (repeated _ (last_write_mem found))
        rw [later]
        rfl
  · funext chain
    rw [put_all_tracked, put_all_tracked, put_all_tracked, ← or_assoc,
      or_iff_left_of_imp (chainRepeated chain)]
  · by_cases empty : late = []
    · subst empty
      have nothing : early = [] :=
        List.eq_nil_iff_forall_not_mem.mpr fun write member =>
          List.not_mem_nil (repeated write member)
      rw [nothing, put_all_nil]
    · rw [put_all_listed _ empty, put_all_listed _ empty, sameChains]
  · rw [put_all_other, put_all_other, put_all_other]

end Contents

section PlainWrites

variable {db updated : KvDb} {writes : List BlockWrite}

/-- In any store, a block read after a run of writes is the last one written under its
number, if there is one. -/
theorem get_bytes_put_all (stored : putAll db writes = .ok updated) (chain number : UInt64) :
    getBytes updated chain number =
      (Contents.lastWrite writes chain number).or (getBytes db chain number) := by
  induction writes generalizing db with
  | nil =>
      cases stored
      rfl
  | cons write writes ih =>
      obtain ⟨next, first, rest⟩ := bind_eq_ok.mp stored
      rw [ih rest, get_bytes_put_bytes first, Contents.last_write_cons, Option.or_assoc]
      by_cases own : write.chainId = chain ∧ write.blockNumber = number
      · simp [own]
      · simp [own]

theorem put_all_frame (stored : putAll db writes = .ok updated) {key : Bytes}
    (notChainIds : key ≠ chainIdsKey)
    (notWritten : ∀ write ∈ writes, key ≠ makeBlockRangesKey write.chainId ∧
      key ≠ makeBlockKey write.chainId write.blockNumber) : updated[key]? = db[key]? := by
  induction writes generalizing db with
  | nil =>
      cases stored
      rfl
  | cons write writes ih =>
      obtain ⟨next, first, rest⟩ := bind_eq_ok.mp stored
      obtain ⟨notRanges, notBlock⟩ := notWritten write (by simp)
      rw [ih rest fun later member => notWritten later (by simp [member]),
        put_bytes_frame first notBlock notRanges notChainIds]

end PlainWrites

/-- The keys whose values follow from the blocks and the chains. -/
def IsManaged (key : Bytes) : Prop :=
  key = chainIdsKey ∨ (∃ chain, key = makeBlockRangesKey chain) ∨
    ∃ chain number, key = makeBlockKey chain number

theorem unmanaged_ne {key : Bytes} (unmanaged : ¬ IsManaged key) :
    chainIdsKey ≠ key ∧ (∀ chain, makeBlockRangesKey chain ≠ key) ∧
      ∀ chain number, makeBlockKey chain number ≠ key :=
  ⟨fun same => unmanaged (.inl same.symm),
    fun chain same => unmanaged (.inr (.inl ⟨chain, same.symm⟩)),
    fun chain number same => unmanaged (.inr (.inr ⟨chain, number, same.symm⟩))⟩

/-- Besides the managed keys there are only the version and chain metadata. -/
def Contents.WellKeyed (contents : Contents) : Prop :=
  ∀ key, (contents.other key).isSome →
    key = versionKey ∨ ∃ chain suffix, key = makeChainKey chain suffix

structure Represents (db : KvDb) (contents : Contents) : Prop where
  blocks : ∀ chain number, getBytes db chain number = contents.blocks chain number
  ranges : ∀ chain, contents.tracked chain → ∃ ranges,
    db[makeBlockRangesKey chain]? = some (serializeBlockRanges ranges) ∧
      Canonical ranges ∧ denote ranges = contents.numbers chain
  untracked : ∀ chain, ¬ contents.tracked chain → db[makeBlockRangesKey chain]? = none
  chainIds : ∀ chains, contents.listed = some chains → ∃ ids,
    db[chainIdsKey]? = some (serializeChainIds ids) ∧ ids.Pairwise (· < ·) ∧
      ∀ chain, chain ∈ ids ↔ chain ∈ chains
  unlisted : contents.listed = none → db[chainIdsKey]? = none
  other : ∀ key, ¬ IsManaged key → db[key]? = contents.other key

/-- Contents have one representation, byte for byte. -/
theorem represents_unique {left right : KvDb} {contents : Contents}
    (leftRepresents : Represents left contents) (rightRepresents : Represents right contents) :
    left = right := by
  apply store_ext
  intro key
  by_cases managed : IsManaged key
  · rcases managed with rfl | ⟨chain, rfl⟩ | ⟨chain, number, rfl⟩
    · cases listed : contents.listed with
      | none => rw [leftRepresents.unlisted listed, rightRepresents.unlisted listed]
      | some chains =>
          obtain ⟨leftIds, leftRead, leftSorted, leftMembers⟩ :=
            leftRepresents.chainIds chains listed
          obtain ⟨rightIds, rightRead, rightSorted, rightMembers⟩ :=
            rightRepresents.chainIds chains listed
          have same : leftIds = rightIds := sorted_unique leftSorted rightSorted fun chain => by
            rw [leftMembers, rightMembers]
          rw [leftRead, rightRead, same]
    · by_cases tracked : contents.tracked chain
      · obtain ⟨leftRanges, leftRead, leftCanonical, leftDenotes⟩ :=
          leftRepresents.ranges chain tracked
        obtain ⟨rightRanges, rightRead, rightCanonical, rightDenotes⟩ :=
          rightRepresents.ranges chain tracked
        have same : leftRanges = rightRanges :=
          canonical_unique leftCanonical rightCanonical (leftDenotes.trans rightDenotes.symm)
        rw [leftRead, rightRead, same]
      · rw [leftRepresents.untracked chain tracked, rightRepresents.untracked chain tracked]
    · exact (leftRepresents.blocks chain number).trans (rightRepresents.blocks chain number).symm
  · rw [leftRepresents.other key managed, rightRepresents.other key managed]

section Reading

variable {db : KvDb} {contents : Contents} (represents : Represents db contents)

include represents

theorem represents_get_chain_ids : ∃ ids, getChainIds db = .ok ids ∧ ids.Pairwise (· < ·) ∧
    ∀ chain, chain ∈ ids ↔ chain ∈ contents.chains := by
  cases listed : contents.listed with
  | none =>
      refine ⟨[], ?_, List.Pairwise.nil, by simp [Contents.chains, listed]⟩
      simp only [getChainIds, represents.unlisted listed]
  | some chains =>
      obtain ⟨ids, read, sorted, members⟩ := represents.chainIds chains listed
      refine ⟨ids, ?_, sorted, by simpa [Contents.chains, listed] using members⟩
      simp only [getChainIds, read, deserialize_serialize_chain_ids]

theorem represents_get_ranges (valid : contents.Valid) (chain : UInt64) :
    ∃ ranges, getRangesOfChainId db chain = .ok ranges ∧ Canonical ranges ∧ Bounded ranges ∧
      denote ranges = contents.numbers chain := by
  by_cases tracked : contents.tracked chain
  · obtain ⟨ranges, read, canonical, denotes⟩ := represents.ranges chain tracked
    refine ⟨ranges, ?_, canonical, canonical_bounded_of_denote canonical ?_, denotes⟩
    · simp only [getRangesOfChainId, read, deserialize_serialize_block_ranges]
    · rw [denotes]
      exact valid.bounded chain
  · have empty : contents.numbers chain = ∅ :=
      Set.eq_empty_of_forall_notMem fun number member =>
        tracked (valid.tracked chain number member)
    refine ⟨[], ?_, canonical_nil, by simp [Bounded], by rw [denote_nil, empty]⟩
    simp only [getRangesOfChainId, represents.untracked chain tracked]

end Reading

/-- The exclusive native deletion and the separate deletion of the end key together
remove the inclusive range of one chain. -/
theorem get_bytes_delete_range_raw (db : KvDb) {first last : UInt64} (ordered : first ≤ last)
    (chain other position : UInt64) :
    getBytes (applyBatch db (deleteRangeRaw (makeBlockKey chain first) (makeBlockKey chain last)))
        other position =
      if chain = other ∧ first ≤ position ∧ position ≤ last then none
      else getBytes db other position := by
  simp only [deleteRangeRaw, apply_batch_cons, apply_batch_nil, getBytes, get_delete_range,
    get_delete, compare_make_block_key, make_block_key_eq_iff]
  rcases lt_trichotomy chain other with less | same | more
  · have different : chain ≠ other := less.ne
    have above : compare other chain = .gt := compare_gt_iff_gt.mpr less
    simp [different, above]
  · subst same
    have self : compare chain chain = .eq := compare_eq_iff_eq.mpr rfl
    simp only [self, Ordering.eq_then, true_and, Ordering.isLE_iff_ne_gt, compare_gt_iff_gt,
      compare_lt_iff_lt, not_lt]
    rcases lt_trichotomy position last with below | atEnd | beyond
    · simp [below, below.le, below.ne']
    · simp [atEnd, ordered]
    · simp [beyond.not_gt, beyond.not_ge, beyond.ne]
  · have different : chain ≠ other := more.ne'
    have below : compare chain other = .gt := compare_gt_iff_gt.mpr more
    simp [different, below]

theorem get_delete_range_raw_lower (db : KvDb) {startKey endKey key : Bytes}
    (startAbove : compare startKey key = .gt) (endAbove : compare endKey key = .gt) :
    (applyBatch db (deleteRangeRaw startKey endKey))[key]? = db[key]? := by
  have notEnd : endKey ≠ key := by
    rintro rfl
    rw [Std.LawfulEqOrd.compare_eq_iff_eq.mpr rfl] at endAbove
    cases endAbove
  simp [deleteRangeRaw, get_delete_range, get_delete, startAbove, notEnd]

/-- What a deletion leaves at each key: the ranges of its chain are rewritten, and the rest is
up to the native deletions. -/
theorem delete_range_entries {db : KvDb} {chain first last : UInt64} {ranges : List BlockRange}
    (ordered : first ≤ last) (read : getRangesOfChainId db chain = .ok ranges) :
    ∃ updated, deleteRange db chain first last = .ok updated ∧
      ∀ key, updated[key]? =
        if makeBlockRangesKey chain = key then
          some (serializeBlockRanges (subtractRange ranges ⟨first, last⟩))
        else (applyBatch db
          (deleteRangeRaw (makeBlockKey chain first) (makeBlockKey chain last)))[key]? := by
  refine ⟨_, by simp only [deleteRange, if_neg (not_lt.mpr ordered), read]; rfl, ?_⟩
  intro key
  rw [apply_batch_append, apply_batch_cons, apply_batch_nil, get_put]

/-- Registering a chain keeps the list sorted and adds the chain to it. -/
private theorem insert_chain_id {ids : List UInt64} {chains : Set UInt64}
    (sorted : ids.Pairwise (· < ·)) (members : ∀ chain, chain ∈ ids ↔ chain ∈ chains)
    (chain : UInt64) :
    (insertSorted ids chain).Pairwise (· < ·) ∧
      ∀ other, other ∈ insertSorted ids chain ↔ other ∈ insert chain chains := by
  obtain ⟨stillSorted, inserted⟩ := insert_sorted_spec sorted chain
  refine ⟨stillSorted, fun other => ?_⟩
  rw [inserted, members, Set.mem_insert_iff]

section Writing

variable {db : KvDb} {contents : Contents} (represents : Represents db contents)

include represents

/-- A range entry that is rewritten for one chain only still fits all chains. -/
private theorem ranges_of_update (updated : KvDb) (after : Contents) (chain : UInt64)
    (ranges : List BlockRange)
    (read : ∀ other, updated[makeBlockRangesKey other]? =
      if chain = other then some (serializeBlockRanges ranges) else db[makeBlockRangesKey other]?)
    (canonical : Canonical ranges) (denotes : denote ranges = after.numbers chain)
    (tracked : ∀ other, after.tracked other ↔ other = chain ∨ contents.tracked other)
    (same : ∀ other, chain ≠ other → after.numbers other = contents.numbers other) :
    (∀ other, after.tracked other → ∃ ranges,
      updated[makeBlockRangesKey other]? = some (serializeBlockRanges ranges) ∧
        Canonical ranges ∧ denote ranges = after.numbers other) ∧
    ∀ other, ¬ after.tracked other → updated[makeBlockRangesKey other]? = none := by
  constructor
  · intro other isTracked
    by_cases own : chain = other
    · subst own
      exact ⟨ranges, by rw [read, if_pos rfl], canonical, denotes⟩
    · have before : contents.tracked other := by
        rcases (tracked other).mp isTracked with equal | before
        · exact absurd equal.symm own
        · exact before
      obtain ⟨kept, keptRead, keptCanonical, keptDenotes⟩ := represents.ranges other before
      refine ⟨kept, by rw [read, if_neg own, keptRead], keptCanonical, ?_⟩
      rw [keptDenotes, same other own]
  · intro other untracked
    rw [tracked] at untracked
    have own : chain ≠ other := fun equal => untracked (.inl equal.symm)
    rw [read, if_neg own]
    exact represents.untracked other fun before => untracked (.inr before)

theorem put_bytes_simulates (valid : contents.Valid) (chain : UInt64) {number : UInt64}
    (data : Bytes)     (below : number < maxBlockNumber) :
    ∃ updated, putBytes db chain number data = .ok updated ∧
      Represents updated (contents.put chain number data) := by
  obtain ⟨ids, idsRead, sorted, members⟩ := represents_get_chain_ids represents
  obtain ⟨ranges, rangesRead, canonical, bounded, denotes⟩ :=
    represents_get_ranges represents valid chain
  obtain ⟨newCanonical, newDenotes⟩ :=
    add_range_spec ⟨number, number⟩ bounded below
  obtain ⟨newSorted, newMembers⟩ := insert_chain_id sorted members chain
  have grown : denote (addRange ranges ⟨number, number⟩) =
      (contents.put chain number data).numbers chain := by
    rw [newDenotes, denotes, denote_point, Contents.numbers_put, if_pos rfl, Set.union_singleton]
  refine ⟨_, by simp only [putBytes, idsRead, rangesRead]; rfl, ?_⟩
  generalize written : applyBatch db _ = updated
  have range := ranges_of_update represents updated _ chain _
    (by simp [← written, get_put, makeBlockRangesKey]) newCanonical grown (fun other => Iff.rfl)
    (fun other different => by rw [Contents.numbers_put, if_neg different])
  constructor
  · intro other position
    have before := represents.blocks other position
    unfold getBytes at before
    simp [← written, getBytes, get_put, Contents.put, makeBlockRangesKey, before]
  · exact range.1
  · exact range.2
  · intro chains listed
    cases listed
    exact ⟨insertSorted ids chain, by simp [← written, get_put], newSorted, newMembers⟩
  · intro missing
    cases missing
  · intro key unmanaged
    obtain ⟨notChainIds, notRanges, notBlock⟩ := unmanaged_ne unmanaged
    simp [← written, get_put, notChainIds, notRanges, notBlock]
    exact represents.other key unmanaged

theorem put_chain_entry_simulates (chain : UInt64) {key : Bytes} (data : Bytes)
    (unmanaged : ¬ IsManaged key) :
    ∃ updated, putChainEntry db chain key data = .ok updated ∧
      Represents updated (contents.putEntry chain key data) := by
  obtain ⟨ids, idsRead, sorted, members⟩ := represents_get_chain_ids represents
  obtain ⟨newSorted, newMembers⟩ := insert_chain_id sorted members chain
  obtain ⟨notChainIds, notRanges, notBlock⟩ := unmanaged_ne unmanaged
  refine ⟨_, by simp only [putChainEntry, idsRead]; rfl, ?_⟩
  generalize written : applyBatch db _ = updated
  have kept : ∀ target, chainIdsKey ≠ target → key ≠ target → updated[target]? = db[target]? := by
    intro target notIds notKey
    simp [← written, get_put, notIds, notKey]
  constructor
  · intro other position
    exact (kept _ (by simp) (notBlock other position).symm).trans
      (represents.blocks other position)
  · intro other isTracked
    obtain ⟨ranges, read, rest⟩ := represents.ranges other isTracked
    exact ⟨ranges, by rw [kept _ (by simp [makeBlockRangesKey]) (notRanges other).symm, read],
      rest⟩
  · intro other untracked
    rw [kept _ (by simp [makeBlockRangesKey]) (notRanges other).symm]
    exact represents.untracked other untracked
  · intro chains listed
    cases listed
    exact ⟨insertSorted ids chain, by simp [← written, get_put], newSorted, newMembers⟩
  · intro missing
    cases missing
  · intro target targetUnmanaged
    obtain ⟨targetIds, -, -⟩ := unmanaged_ne targetUnmanaged
    simp [← written, get_put, targetIds, Contents.putEntry, represents.other target targetUnmanaged]

theorem delete_range_simulates (valid : contents.Valid) (keyed : contents.WellKeyed)
    (chain : UInt64) {first last : UInt64} (ordered : first ≤ last) :
    ∃ updated, deleteRange db chain first last = .ok updated ∧
      Represents updated (contents.delete chain first last) := by
  obtain ⟨ranges, rangesRead, canonical, bounded, denotes⟩ :=
    represents_get_ranges represents valid chain
  have deletedOrdered : (⟨first, last⟩ : BlockRange).start ≤ last := ordered
  obtain ⟨newCanonical, newDenotes⟩ := subtract_range_spec deletedOrdered canonical
  have shrunk : denote (subtractRange ranges ⟨first, last⟩) =
      (contents.delete chain first last).numbers chain := by
    rw [newDenotes, denotes, Contents.numbers_delete, if_pos rfl]
    ext position
    simp
  obtain ⟨updated, deleted, lookup⟩ := delete_range_entries ordered rangesRead
  refine ⟨updated, deleted, ?_⟩
  have lower : ∀ key, compare (makeBlockKey chain first) key = .gt →
      compare (makeBlockKey chain last) key = .gt → makeBlockRangesKey chain ≠ key →
      updated[key]? = db[key]? := by
    intro key startAbove endAbove different
    rw [lookup, if_neg different, get_delete_range_raw_lower db startAbove endAbove]
  have range := ranges_of_update represents updated (contents.delete chain first last) chain
    (subtractRange ranges ⟨first, last⟩)
    (by
      intro other
      by_cases own : chain = other
      · rw [lookup, if_pos (by rw [own]), if_pos own]
      · rw [if_neg own]
        exact lower _ (compare_block_key_chain_key chain first other 0)
          (compare_block_key_chain_key chain last other 0) (by simp [makeBlockRangesKey, own]))
    newCanonical shrunk (fun other => Iff.rfl)
    (fun other different => by rw [Contents.numbers_delete, if_neg different])
  have chainIdsKept : updated[chainIdsKey]? = db[chainIdsKey]? :=
    lower _ (compare_block_key_chain_ids_key chain first)
      (compare_block_key_chain_ids_key chain last) (by simp [makeBlockRangesKey])
  constructor
  · intro other position
    have removed := get_bytes_delete_range_raw db ordered chain other position
    unfold getBytes at removed ⊢
    rw [lookup, if_neg (by simp [makeBlockRangesKey]), removed]
    exact congrArg _ (represents.blocks other position)
  · exact range.1
  · exact range.2
  · intro chains listed
    rw [chainIdsKept]
    exact represents.chainIds chains listed
  · intro missing
    rw [chainIdsKept]
    exact represents.unlisted missing
  · intro key unmanaged
    obtain ⟨-, notRanges, notBlock⟩ := unmanaged_ne unmanaged
    cases found : contents.other key with
    | some value =>
        have kept : updated[key]? = db[key]? := by
          rcases keyed key (by simp [found]) with rfl | ⟨other, suffix, rfl⟩
          · exact lower _ (compare_block_key_version_key chain first)
              (compare_block_key_version_key chain last) (notRanges chain)
          · exact lower _ (compare_block_key_chain_key chain first other suffix)
              (compare_block_key_chain_key chain last other suffix) (notRanges chain)
        exact kept.trans (represents.other key unmanaged)
    | none =>
        have absent : db[key]? = none := (represents.other key unmanaged).trans found
        rw [lookup, if_neg (notRanges chain)]
        simp [deleteRangeRaw, get_delete_range, get_delete, absent, Contents.delete, found]

theorem put_all_simulates (valid : contents.Valid) (writes : List BlockWrite)
    (below : ∀ write ∈ writes, write.blockNumber < maxBlockNumber) :
    ∃ updated, putAll db writes = .ok updated ∧ Represents updated (contents.putAll writes) := by
  induction writes generalizing db contents with
  | nil => exact ⟨db, rfl, represents⟩
  | cons write writes ih =>
      have first := below write (by simp)
      obtain ⟨middle, stored, middleRepresents⟩ :=
        put_bytes_simulates represents valid write.chainId write.data first
      obtain ⟨updated, rest, updatedRepresents⟩ :=
        ih middleRepresents (Contents.put_valid valid _ _ first)
          fun later member => below later (by simp [member])
      refine ⟨updated, ?_, updatedRepresents⟩
      rw [putAll, List.foldlM_cons, stored]
      exact rest

end Writing

/-- The numbers that a list of writes stores for a chain. -/
def writtenNumbers (writes : List BlockWrite) (chain : UInt64) : Set UInt64 :=
  {number | ∃ write ∈ writes, write.chainId = chain ∧ write.blockNumber = number}

theorem written_numbers_append (writes : List BlockWrite) (write : BlockWrite) (chain : UInt64) :
    writtenNumbers (writes ++ [write]) chain =
      if write.chainId = chain then insert write.blockNumber (writtenNumbers writes chain)
      else writtenNumbers writes chain := by
  ext number
  by_cases own : write.chainId = chain
  · simp [writtenNumbers, own, or_and_right, exists_or, or_comm, eq_comm (a := number)]
  · simp [writtenNumbers, own, or_and_right, exists_or]

theorem written_numbers_bounded {writes : List BlockWrite} (chain : UInt64)
    (below : ∀ write ∈ writes, write.blockNumber < maxBlockNumber) :
    maxBlockNumber ∉ writtenNumbers writes chain := by
  rintro ⟨write, member, -, top⟩
  exact (below write member).ne top

def blockEntry (write : BlockWrite) : Bytes × Bytes :=
  (makeBlockKey write.chainId write.blockNumber, write.data)

/-- What a batch holds after the given writes. -/
structure Collects (batch : BatchWrapper) (writes : List BlockWrite) : Prop where
  kvBatch : batch.kvBatch = putOps (writes.map blockEntry)
  present : ∀ chain, (∃ write ∈ writes, write.chainId = chain) → ∃ ranges,
    batch.blockRanges[chain]? = some ranges ∧ Canonical ranges ∧ Bounded ranges ∧
      denote ranges = writtenNumbers writes chain
  absent : ∀ chain, (¬ ∃ write ∈ writes, write.chainId = chain) →
    batch.blockRanges[chain]? = none

theorem collects_empty : Collects batch [] :=
  ⟨rfl, by simp, fun _ _ => Std.ExtTreeMap.getElem?_empty⟩

theorem collects_put_bytes {batch : BatchWrapper} {writes : List BlockWrite}
    (collects : Collects batch writes)
    (below : ∀ write ∈ writes, write.blockNumber < maxBlockNumber) (write : BlockWrite)
    (writeBelow : write.blockNumber < maxBlockNumber) :
    Collects (batch.putBytes write.chainId write.blockNumber write.data) (writes ++ [write]) := by
  have before : ∃ ranges, batch.blockRanges[write.chainId]?.getD [] = ranges ∧
      Bounded ranges ∧ denote ranges = writtenNumbers writes write.chainId := by
    by_cases seen : ∃ earlier ∈ writes, earlier.chainId = write.chainId
    · obtain ⟨ranges, found, -, bounded, denotes⟩ := collects.present write.chainId seen
      exact ⟨ranges, by rw [found]; rfl, bounded, denotes⟩
    · refine ⟨[], by rw [collects.absent write.chainId seen]; rfl, by simp [Bounded], ?_⟩
      rw [denote_nil, eq_comm, Set.eq_empty_iff_forall_notMem]
      rintro number ⟨earlier, member, chain, -⟩
      exact seen ⟨earlier, member, chain⟩
  obtain ⟨ranges, found, bounded, denotes⟩ := before
  obtain ⟨canonical, grown⟩ :=
    add_range_spec ⟨write.blockNumber, write.blockNumber⟩ bounded writeBelow
  have denotesAll : denote (addRange ranges ⟨write.blockNumber, write.blockNumber⟩) =
      writtenNumbers (writes ++ [write]) write.chainId := by
    rw [grown, denotes, denote_point, written_numbers_append, if_pos rfl, Set.union_singleton]
  have allBelow : ∀ later ∈ writes ++ [write], later.blockNumber < maxBlockNumber := by
    intro later member
    rcases List.mem_append.mp member with earlier | last
    · exact below later earlier
    · rw [List.mem_singleton.mp last]
      exact writeBelow
  have lookup : ∀ chain, (batch.putBytes write.chainId write.blockNumber
      write.data).blockRanges[chain]? =
        if write.chainId = chain then
          some (addRange ranges ⟨write.blockNumber, write.blockNumber⟩)
        else batch.blockRanges[chain]? := by
    intro chain
    simp only [BatchWrapper.putBytes, Std.ExtTreeMap.getElem?_insert,
      Std.LawfulEqOrd.compare_eq_iff_eq, found]
  constructor
  · rw [BatchWrapper.putBytes, collects.kvBatch, List.map_append]
    simp [putOps, blockEntry]
  · intro chain seen
    rw [lookup]
    by_cases own : write.chainId = chain
    · subst own
      rw [if_pos rfl]
      refine ⟨_, rfl, canonical, canonical_bounded_of_denote canonical ?_, denotesAll⟩
      rw [denotesAll]
      exact written_numbers_bounded _ allBelow
    · have earlier : ∃ other ∈ writes, other.chainId = chain := by
        simpa [or_and_right, exists_or, own] using seen
      rw [if_neg own, written_numbers_append, if_neg own]
      exact collects.present chain earlier
  · intro chain unseen
    simp only [List.mem_append, List.mem_singleton, or_and_right, exists_or, exists_eq_left,
      not_or] at unseen
    rw [lookup, if_neg unseen.2]
    exact collects.absent chain unseen.1

theorem collects_put_all (writes : List BlockWrite)
    (below : ∀ write ∈ writes, write.blockNumber < maxBlockNumber) :
    Collects (batch.putAll writes) writes := by
  induction writes using List.reverseRecOn with
  | nil => exact collects_empty
  | append_singleton writes write ih =>
      have earlier : ∀ other ∈ writes, other.blockNumber < maxBlockNumber :=
        fun other member => below other (by simp [member])
      rw [BatchWrapper.putAll, List.foldl_append]
      exact collects_put_bytes (ih earlier) earlier write (below write (by simp))

theorem merge_batch_eq {db : KvDb} {stored : UInt64 → List BlockRange}
    (read : ∀ chain, getRangesOfChainId db chain = .ok (stored chain))
    (entries : List (UInt64 × List BlockRange)) (ids : List UInt64) (ops : List RawOp) :
    mergeBatch db entries ids ops = .ok
      (entries.foldl (fun ids entry => insertSorted ids entry.1) ids,
        ops ++ putOps (entries.map fun entry => (makeBlockRangesKey entry.1,
          serializeBlockRanges (entry.2.foldl addRange (stored entry.1))))) := by
  induction entries generalizing ids ops with
  | nil => simp [mergeBatch, putOps]
  | cons entry entries ih =>
      obtain ⟨chain, ranges⟩ := entry
      rw [mergeBatch, read]
      change mergeBatch db entries _ _ = _
      rw [ih]
      simp [putOps]

theorem insert_chain_ids {ids : List UInt64} {chains : Set UInt64}
    (sorted : ids.Pairwise (· < ·)) (members : ∀ chain, chain ∈ ids ↔ chain ∈ chains)
    (entries : List (UInt64 × List BlockRange)) :
    (entries.foldl (fun ids entry => insertSorted ids entry.1) ids).Pairwise (· < ·) ∧
      ∀ chain, chain ∈ entries.foldl (fun ids entry => insertSorted ids entry.1) ids ↔
        chain ∈ entries.map Prod.fst ∨ chain ∈ chains := by
  induction entries generalizing ids chains with
  | nil => exact ⟨sorted, by simpa using members⟩
  | cons entry entries ih =>
      obtain ⟨nextSorted, nextMembers⟩ := insert_chain_id sorted members entry.1
      obtain ⟨finalSorted, finalMembers⟩ := ih nextSorted nextMembers
      refine ⟨finalSorted, fun chain => ?_⟩
      rw [List.foldl_cons, finalMembers, Set.mem_insert_iff, List.map_cons, List.mem_cons,
        or_left_comm, or_assoc]

/-- The blocks after the raw puts of a batch. -/
theorem get_bytes_put_ops {db : KvDb} {contents : Contents}
    (blocks : ∀ chain number, getBytes db chain number = contents.blocks chain number)
    (writes : List BlockWrite) (chain number : UInt64) :
    getBytes (applyBatch db (putOps (writes.map blockEntry))) chain number =
      (contents.putAll writes).blocks chain number := by
  induction writes generalizing db contents with
  | nil => exact blocks chain number
  | cons write writes ih =>
      apply ih
      intro other position
      have before := blocks other position
      unfold getBytes at before
      simp [getBytes, blockEntry, get_put, Contents.put, before]

theorem get_put_blocks_of_other (db : KvDb) (writes : List BlockWrite) {key : Bytes}
    (notBlock : ∀ chain number, makeBlockKey chain number ≠ key) :
    (applyBatch db (putOps (writes.map blockEntry)))[key]? = db[key]? := by
  apply get_put_ops_of_not_mem
  intro member
  obtain ⟨_, entry, same⟩ := List.mem_map.mp member
  obtain ⟨write, -, rfl⟩ := List.mem_map.mp entry
  exact notBlock _ _ same

/-- The chains that a batch names are those it writes to. -/
theorem Collects.named {batch : BatchWrapper} {writes : List BlockWrite}
    (collects : Collects batch writes) (order : Enumeration batch.blockRanges) (chain : UInt64) :
    chain ∈ order.entries.map Prod.fst ↔ ∃ write ∈ writes, write.chainId = chain := by
  constructor
  · intro member
    by_contra unseen
    obtain ⟨⟨_, ranges⟩, entry, rfl⟩ := List.mem_map.mp member
    have found := order.mem_iff.mp entry
    rw [collects.absent _ unseen] at found
    cases found
  · intro seen
    obtain ⟨ranges, found, -⟩ := collects.present chain seen
    exact List.mem_map.mpr ⟨_, order.mem_iff.mpr found, rfl⟩

theorem Collects.occupied {batch : BatchWrapper} {writes : List BlockWrite}
    (collects : Collects batch writes) {write : BlockWrite} (member : write ∈ writes) :
    batch.blockRanges.isEmpty = false := by
  obtain ⟨ranges, found, -⟩ := collects.present write.chainId ⟨write, member, rfl⟩
  rw [Bool.eq_false_iff]
  intro empty
  rw [Std.ExtTreeMap.isEmpty_iff.mp empty, Std.ExtTreeMap.getElem?_empty] at found
  cases found

/-- The database after a batch: its blocks, the grown ranges of its chains, and the chain
IDs. -/
def mergedDb (db : KvDb) (writes : List BlockWrite) (entries : List (UInt64 × List BlockRange))
    (stored : UInt64 → List BlockRange) (ids : List UInt64) : KvDb :=
  applyBatch db (putOps (writes.map blockEntry) ++
    putOps (entries.map fun entry => (makeBlockRangesKey entry.1,
      serializeBlockRanges (entry.2.foldl addRange (stored entry.1)))) ++
    [.put chainIdsKey (serializeChainIds ids)])

section Merged

variable (db : KvDb) (writes : List BlockWrite) {entries : List (UInt64 × List BlockRange)}
variable (stored : UInt64 → List BlockRange) (ids : List UInt64)

theorem get_merged_chain_ids :
    (mergedDb db writes entries stored ids)[chainIdsKey]? = some (serializeChainIds ids) := by
  rw [mergedDb, apply_batch_append, apply_batch_cons, apply_batch_nil, get_put, if_pos rfl]

theorem get_merged_ranges (nodup : (entries.map Prod.fst).Nodup)
    {chain : UInt64} {ranges : List BlockRange} (member : (chain, ranges) ∈ entries) :
    (mergedDb db writes entries stored ids)[makeBlockRangesKey chain]? =
      some (serializeBlockRanges (ranges.foldl addRange (stored chain))) := by
  rw [mergedDb, apply_batch_append, apply_batch_cons, apply_batch_nil, get_put,
    if_neg (by simp [makeBlockRangesKey]), apply_batch_append]
  apply get_put_ops_of_mem
  · have keys : ((entries.map Prod.fst).map makeBlockRangesKey).Nodup :=
      nodup.map fun left right same => (make_chain_key_injective same).1
    rw [List.map_map] at keys ⊢
    exact keys
  · exact List.mem_map.mpr ⟨_, member, rfl⟩

theorem get_merged_of_other {key : Bytes} (notIds : chainIdsKey ≠ key)
    (notRanges : ∀ chain ∈ entries.map Prod.fst, makeBlockRangesKey chain ≠ key) :
    (mergedDb db writes entries stored ids)[key]? =
      (applyBatch db (putOps (writes.map blockEntry)))[key]? := by
  rw [mergedDb, apply_batch_append, apply_batch_cons, apply_batch_nil, get_put, if_neg notIds,
    apply_batch_append]
  apply get_put_ops_of_not_mem
  intro member
  rw [List.map_map] at member
  obtain ⟨entry, entryMember, same⟩ := List.mem_map.mp member
  exact notRanges entry.1 (List.mem_map.mpr ⟨entry, entryMember, rfl⟩) same

theorem get_merged_ranges_of_other {chain : UInt64} (unnamed : chain ∉ entries.map Prod.fst) :
    (mergedDb db writes entries stored ids)[makeBlockRangesKey chain]? =
      db[makeBlockRangesKey chain]? := by
  rw [get_merged_of_other db writes stored ids (by simp [makeBlockRangesKey]),
    get_put_blocks_of_other db writes (by simp [makeBlockRangesKey])]
  intro other member same
  rw [(make_chain_key_injective same).1] at member
  exact unnamed member

end Merged

theorem write_batch_simulates {db : KvDb} {contents : Contents}
    (represents : Represents db contents) (valid : contents.Valid) (writes : List BlockWrite)
    (below : ∀ write ∈ writes, write.blockNumber < maxBlockNumber)
    (order : Enumeration (batch.putAll writes).blockRanges) :
    ∃ updated, writeBatch db (batch.putAll writes) order = .ok updated ∧
      Represents updated (contents.putAll writes) := by
  cases writes with
  | nil => exact ⟨db, rfl, represents⟩
  | cons first others =>
      generalize whole : first :: others = writes at below order ⊢
      have notEmpty : writes ≠ [] := by simp [← whole]
      have collects := collects_put_all writes below
      have named := collects.named order
      obtain ⟨ids, idsRead, sorted, members⟩ := represents_get_chain_ids represents
      choose stored storedRead storedCanonical storedBounded storedDenotes using
        represents_get_ranges represents valid
      obtain ⟨newSorted, newMembers⟩ := insert_chain_ids sorted members order.entries
      let newIds := order.entries.foldl (fun ids entry => insertSorted ids entry.1) ids
      refine ⟨mergedDb db writes order.entries stored newIds, ?_, ?_⟩
      · rw [writeBatch, collects.occupied (show first ∈ writes by simp [← whole]), idsRead]
        simp only [merge_batch_eq storedRead, collects.kvBatch]
        rfl
      constructor
      · intro chain number
        unfold getBytes
        rw [get_merged_of_other db writes stored _ (by simp) (by simp [makeBlockRangesKey])]
        exact get_bytes_put_ops represents.blocks writes chain number
      · intro chain tracked
        by_cases seen : ∃ write ∈ writes, write.chainId = chain
        · obtain ⟨ranges, found, -, bounded, denotes⟩ := collects.present chain seen
          obtain ⟨canonical, grown⟩ :=
            add_ranges_spec (storedCanonical chain) (storedBounded chain) bounded
          refine ⟨_, get_merged_ranges db writes stored _ order.keys_nodup
            (order.mem_iff.mpr found), canonical, ?_⟩
          rw [grown, storedDenotes, denotes, Contents.put_all_numbers]
          rfl
        · obtain ⟨ranges, read, canonical, denotes⟩ := represents.ranges chain
            (((Contents.put_all_tracked _ _ _).mp tracked).resolve_left seen)
          refine ⟨ranges, ?_, canonical, ?_⟩
          · rw [get_merged_ranges_of_other db writes stored _ (mt (named chain).mp seen), read]
          · rw [denotes, Contents.put_all_numbers, eq_comm, Set.union_eq_left]
            rintro number ⟨write, member, own, -⟩
            exact absurd ⟨write, member, own⟩ seen
      · intro chain untracked
        rw [Contents.put_all_tracked, not_or] at untracked
        rw [get_merged_ranges_of_other db writes stored _ (mt (named chain).mp untracked.1)]
        exact represents.untracked chain untracked.2
      · intro chains listed
        rw [Contents.put_all_listed _ notEmpty] at listed
        cases listed
        refine ⟨_, get_merged_chain_ids db writes stored _, newSorted, fun chain => ?_⟩
        rw [newMembers, named, Contents.put_all_chains]
      · intro missing
        rw [Contents.put_all_listed _ notEmpty] at missing
        cases missing
      · intro key unmanaged
        obtain ⟨notIds, notRanges, notBlock⟩ := unmanaged_ne unmanaged
        rw [get_merged_of_other db writes stored _ notIds (fun chain _ => notRanges chain),
          get_put_blocks_of_other db writes notBlock, represents.other key unmanaged,
          Contents.put_all_other]

end Bertha.BlockDbContents
