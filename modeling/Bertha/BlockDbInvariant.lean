import Bertha.BlockDbContents

/-!
# Metadata matches content in every reachable database

Runs of the database from `create` through its seven writing operations, in any order
and with any enumeration of a batch's hash map. Each operation keeps a byte store that
represents valid contents, so the range entries and the chain list always describe the
stored blocks, and a batch write stores the same bytes as the plain writes it stands for.
-/

namespace Bertha.BlockDbInvariant

open Bertha.BigEndian Bertha.BlockDb Bertha.BlockDbContents Bertha.BlockKeys Bertha.BlockRanges
open Bertha.IntervalList Bertha.OrderedStore
open Bertha.BlockTypes (Error Block)

set_option autoImplicit false

def HasData (db : KvDb) (chain : UInt64) : Prop :=
  (∃ number, (getBytes db chain number).isSome) ∨ (getRulesUpdateHeights db chain).isSome ∨
    (getCorrections db chain).isSome ∨ (getFailedBundles db chain).isSome

/-- For every chain the ranges read are sorted, inhabited, disjoint and not adjacent, and
cover exactly the stored numbers; the chain list is strictly increasing and names every
chain with data. -/
structure MetadataConsistent (db : KvDb) : Prop where
  ranges : ∀ chain, ∃ ranges, getRangesOfChainId db chain = .ok ranges ∧ Canonical ranges ∧
    denote ranges = {number | (db[makeBlockKey chain number]?).isSome}
  bounded : ∀ chain, db[makeBlockKey chain maxBlockNumber]? = none
  chainIds : ∃ ids, getChainIds db = .ok ids ∧ ids.Pairwise (· < ·) ∧
    ∀ chain, HasData db chain → chain ∈ ids

theorem chain_key_unmanaged (chain : UInt64) (suffix : UInt8) (nonzero : suffix ≠ 0) :
    ¬ IsManaged (makeChainKey chain suffix) := by
  rintro (same | ⟨other, same⟩ | ⟨other, number, same⟩)
  · exact chain_key_ne_chain_ids_key chain suffix same
  · exact nonzero (make_chain_key_injective same).2
  · exact chain_key_ne_block_key chain other number suffix same

theorem represents_has_data {db : KvDb} {contents : Contents}
    (represents : Represents db contents) (chain : UInt64) :
    HasData db chain ↔ contents.HasData chain := by
  have rules := represents.other _ (chain_key_unmanaged chain 1 (by decide))
  have corrections := represents.other _ (chain_key_unmanaged chain 2 (by decide))
  have bundles := represents.other _ (chain_key_unmanaged chain 3 (by decide))
  simp only [HasData, Contents.HasData, Contents.numbers, Set.mem_ofPred_eq, represents.blocks]
  simp only [getRulesUpdateHeights, getCorrections, getFailedBundles, makeRulesUpdateHeightsKey,
    makeCorrectionsKey, makeFailedBundlesKey, rules, corrections, bundles]

def contentsOf (db : KvDb) : Contents where
  blocks := getBytes db
  tracked chain := (db[makeBlockRangesKey chain]?).isSome
  listed := db[chainIdsKey]?.map fun _ => {chain | ∃ ids, getChainIds db = .ok ids ∧ chain ∈ ids}
  other key := db[key]?

theorem metadata_consistent_iff {db : KvDb} :
    MetadataConsistent db ↔ ∃ contents : Contents, contents.Valid ∧ Represents db contents := by
  constructor
  · intro consistent
    obtain ⟨ids, idsRead, sorted, named⟩ := consistent.chainIds
    have represents : Represents db (contentsOf db) := by
      constructor
      · exact fun chain number => rfl
      · intro chain tracked
        obtain ⟨ranges, read, canonical, denotes⟩ := consistent.ranges chain
        obtain ⟨data, found⟩ := Option.isSome_iff_exists.mp tracked
        simp only [getRangesOfChainId, found] at read
        refine ⟨ranges, ?_, canonical, denotes⟩
        rw [found, serialize_deserialize_block_ranges read]
      · intro chain untracked
        simpa [contentsOf] using untracked
      · intro chains listed
        obtain ⟨data, found, same⟩ := Option.map_eq_some_iff.mp listed
        have decoded := idsRead
        simp only [getChainIds, found] at decoded
        refine ⟨ids, ?_, sorted, fun chain => ?_⟩
        · rw [found, serialize_deserialize_chain_ids decoded]
        · rw [← same]
          simp [idsRead]
      · intro missing
        simpa [contentsOf] using missing
      · exact fun key _ => rfl
    refine ⟨contentsOf db, ⟨?_, ?_, ?_⟩, represents⟩
    · intro chain member
      change (db[makeBlockKey chain maxBlockNumber]?).isSome = true at member
      rw [consistent.bounded chain] at member
      cases member
    · intro chain number member
      by_contra untracked
      obtain ⟨ranges, read, -, denotes⟩ := consistent.ranges chain
      have absent : db[makeBlockRangesKey chain]? = none := by
        simpa [contentsOf] using untracked
      simp only [getRangesOfChainId, absent, Except.ok.injEq] at read
      have inside : number ∈ denote ranges := by
        rw [denotes]
        exact member
      rw [← read, denote_nil] at inside
      exact inside
    · intro chain hasData
      have member := named chain ((represents_has_data represents chain).mpr hasData)
      cases found : db[chainIdsKey]? with
      | none =>
          simp only [getChainIds, found, Except.ok.injEq] at idsRead
          rw [← idsRead] at member
          simp at member
      | some data => simpa [Contents.chains, contentsOf, found, idsRead] using member
  · rintro ⟨contents, valid, represents⟩
    constructor
    · intro chain
      obtain ⟨ranges, read, canonical, -, denotes⟩ :=
        represents_get_ranges represents valid chain
      refine ⟨ranges, read, canonical, ?_⟩
      rw [denotes]
      ext number
      simp only [Contents.numbers, Set.mem_ofPred_eq, ← represents.blocks]
      rfl
    · intro chain
      have absent := valid.bounded chain
      simpa [Contents.numbers, ← represents.blocks, getBytes] using absent
    · obtain ⟨ids, read, sorted, members⟩ := represents_get_chain_ids represents
      refine ⟨ids, read, sorted, fun chain hasData => (members chain).mpr ?_⟩
      exact valid.listed chain ((represents_has_data represents chain).mp hasData)

theorem put_all_consistent {db : KvDb} (consistent : MetadataConsistent db)
    (writes : List BlockWrite) (below : ∀ write ∈ writes, write.blockNumber < maxBlockNumber) :
    ∃ updated, putAll db writes = .ok updated ∧ MetadataConsistent updated := by
  obtain ⟨contents, valid, represents⟩ := metadata_consistent_iff.mp consistent
  obtain ⟨updated, stored, after⟩ := put_all_simulates represents valid writes below
  exact ⟨updated, stored,
    metadata_consistent_iff.mpr ⟨_, Contents.put_all_valid valid writes below, after⟩⟩

theorem consistent_readable {db : KvDb} (consistent : MetadataConsistent db) (chain : UInt64) :
    Readable db chain := by
  obtain ⟨ids, idsRead, -⟩ := consistent.chainIds
  obtain ⟨ranges, rangesRead, -⟩ := consistent.ranges chain
  exact ⟨⟨ids, idsRead⟩, ⟨ranges, rangesRead⟩⟩

/-- The writing operations of the database; a batch comes with the order in which its
hash map is enumerated when it is written. -/
inductive Operation where
  | put (chainId : UInt64) (block : Block)
  | putBytes (chainId blockNumber : UInt64) (data : Bytes)
  | deleteRange (chainId startBlockNumber endBlockNumber : UInt64)
  | writeBatch (writes : List BlockWrite) (order : Enumeration (batch.putAll writes).blockRanges)
  | putRulesUpdateHeights (chainId : UInt64) (data : Bytes)
  | putCorrections (chainId : UInt64) (data : Bytes)
  | putFailedBundles (chainId : UInt64) (data : Bytes)

def Operation.run (codec : WireCodec) (db : KvDb) : Operation → Except Error KvDb
  | .put chainId block => BlockDb.put codec db chainId block
  | .putBytes chainId blockNumber data => BlockDb.putBytes db chainId blockNumber data
  | .deleteRange chainId first last => BlockDb.deleteRange db chainId first last
  | .writeBatch writes order => BlockDb.writeBatch db (batch.putAll writes) order
  | .putRulesUpdateHeights chainId data => BlockDb.putRulesUpdateHeights db chainId data
  | .putCorrections chainId data => BlockDb.putCorrections db chainId data
  | .putFailedBundles chainId data => BlockDb.putFailedBundles db chainId data

/-- Stored block numbers stay below the largest 64-bit value. -/
def Operation.Admissible : Operation → Prop
  | .put _ block => block.number < maxBlockNumber
  | .putBytes _ blockNumber _ => blockNumber < maxBlockNumber
  | .writeBatch writes _ => ∀ write ∈ writes, write.blockNumber < maxBlockNumber
  | _ => True

def stateAfter (db : KvDb) : Except Error KvDb → KvDb
  | .ok updated => updated
  | .error _ => db

inductive Reachable (codec : WireCodec) : KvDb → Prop where
  | create {start db : KvDb} (created : create start = .ok db) : Reachable codec db
  | step {db : KvDb} (earlier : Reachable codec db) (operation : Operation)
      (admissible : operation.Admissible) :
      Reachable codec (stateAfter db (operation.run codec db))

/-- The store represents valid contents under known keys. -/
def Sound (db : KvDb) : Prop :=
  ∃ contents : Contents, contents.Valid ∧ contents.WellKeyed ∧ Represents db contents

def freshContents : Contents where
  blocks _ _ := none
  tracked _ := False
  listed := none
  other key := if versionKey = key then some (serializeVersion currentVersion) else none

theorem fresh_contents_valid : freshContents.Valid := by
  constructor
  · simp [Contents.numbers, freshContents]
  · simp [Contents.numbers, freshContents]
  · intro chain hasData
    simp [Contents.HasData, Contents.numbers, freshContents, makeRulesUpdateHeightsKey,
      makeCorrectionsKey, makeFailedBundlesKey] at hasData

theorem fresh_contents_well_keyed : freshContents.WellKeyed := by
  intro key present
  by_cases version : versionKey = key
  · exact .inl version.symm
  · simp [freshContents, version] at present

theorem create_sound {start db : KvDb} (created : create start = .ok db) : Sound db := by
  unfold create at created
  split at created
  · cases created
  · rename_i nothing
    cases created
    have empty : ∀ key : Bytes, start[key]? = none := by
      intro key
      rw [Option.eq_none_iff_forall_ne_some]
      intro value found
      have listed : (key, value) ∈ iterateFrom start [] .forward :=
        mem_iterate_forward.mpr ⟨found, by cases key <;> rfl⟩
      cases entries : iterateFrom start [] .forward with
      | nil =>
          rw [entries] at listed
          simp at listed
      | cons entry rest => simp [entries] at nothing
    refine ⟨freshContents, fresh_contents_valid, fresh_contents_well_keyed, ?_⟩
    constructor
    · intro chain number
      simp [getBytes, get_put, empty, freshContents]
    · intro chain tracked
      exact tracked.elim
    · intro chain _
      simp [get_put, empty, makeBlockRangesKey]
    · intro chains listed
      cases listed
    · intro _
      rw [get_put, if_neg (by decide), empty]
    · intro key _
      simp only [get_put, empty, freshContents]

theorem sound_consistent {db : KvDb} (sound : Sound db) : MetadataConsistent db := by
  rcases sound with ⟨contents, valid, -, represents⟩
  exact metadata_consistent_iff.mpr ⟨contents, valid, represents⟩

theorem put_chain_entry_sound {db : KvDb} (sound : Sound db) (chain : UInt64) {suffix : UInt8}
    (nonzero : suffix ≠ 0) (data : Bytes) :
    Sound (stateAfter db (putChainEntry db chain (makeChainKey chain suffix) data)) := by
  obtain ⟨contents, valid, keyed, represents⟩ := sound
  obtain ⟨updated, stored, after⟩ := put_chain_entry_simulates represents chain data
    (chain_key_unmanaged chain suffix nonzero)
  rw [stored]
  refine ⟨_, Contents.put_entry_valid valid chain suffix data, ?_, after⟩
  intro key present
  by_cases own : makeChainKey chain suffix = key
  · exact .inr ⟨chain, suffix, own.symm⟩
  · exact keyed key (by simpa [Contents.putEntry, own] using present)

theorem operation_sound (codec : WireCodec) {db : KvDb} (sound : Sound db)
    (operation : Operation) (admissible : operation.Admissible) :
    Sound (stateAfter db (operation.run codec db)) := by
  cases operation with
  | put chainId block =>
      obtain ⟨contents, valid, keyed, represents⟩ := sound
      obtain ⟨updated, stored, after⟩ := put_bytes_simulates represents valid
        chainId (encodeBlock codec block) admissible
      rw [Operation.run, BlockDb.put, stored]
      exact ⟨_, Contents.put_valid valid chainId _ admissible, keyed, after⟩
  | putBytes chainId blockNumber data =>
      obtain ⟨contents, valid, keyed, represents⟩ := sound
      obtain ⟨updated, stored, after⟩ := put_bytes_simulates represents valid
        chainId data admissible
      rw [Operation.run, stored]
      exact ⟨_, Contents.put_valid valid chainId _ admissible, keyed, after⟩
  | deleteRange chainId first last =>
      by_cases ordered : first ≤ last
      · obtain ⟨contents, valid, keyed, represents⟩ := sound
        obtain ⟨updated, deleted, after⟩ :=
          delete_range_simulates represents valid keyed chainId ordered
        rw [Operation.run, deleted]
        exact ⟨_, Contents.delete_valid valid chainId first last, keyed, after⟩
      · rw [Operation.run, BlockDb.deleteRange, if_pos (not_le.mp ordered)]
        exact sound
  | writeBatch writes order =>
      obtain ⟨contents, valid, keyed, represents⟩ := sound
      obtain ⟨updated, stored, after⟩ :=
        write_batch_simulates represents valid writes admissible order
      rw [Operation.run, stored]
      refine ⟨_, Contents.put_all_valid valid writes admissible, ?_, after⟩
      intro key present
      rw [Contents.put_all_other] at present
      exact keyed key present
  | putRulesUpdateHeights chainId data =>
      exact put_chain_entry_sound sound chainId (by decide) data
  | putCorrections chainId data =>
      exact put_chain_entry_sound sound chainId (by decide) data
  | putFailedBundles chainId data =>
      exact put_chain_entry_sound sound chainId (by decide) data

theorem reachable_sound {codec : WireCodec} {db : KvDb} (reachable : Reachable codec db) :
    Sound db := by
  induction reachable with
  | create created => exact create_sound created
  | step earlier operation admissible ih => exact operation_sound codec ih operation admissible

theorem reachable_metadata_consistent {codec : WireCodec} {db : KvDb}
    (reachable : Reachable codec db) : MetadataConsistent db := by
  obtain ⟨contents, valid, -, represents⟩ := reachable_sound reachable
  exact metadata_consistent_iff.mpr ⟨contents, valid, represents⟩

theorem ranges_entry_has_data {db : KvDb} (consistent : MetadataConsistent db) {chain : UInt64}
    {data : Bytes} (found : db[makeBlockRangesKey chain]? = some data) (inhabited : data ≠ []) :
    HasData db chain := by
  obtain ⟨ranges, read, canonical, denotes⟩ := consistent.ranges chain
  simp only [getRangesOfChainId, found] at read
  cases ranges with
  | nil => exact absurd (serialize_deserialize_block_ranges read).symm inhabited
  | cons range rest =>
      have member := canonical_head_start_mem canonical
      rw [denotes] at member
      exact .inl ⟨range.start, member⟩

/-- In every reachable store the ranges of each chain are sorted, inhabited, disjoint and not
adjacent and cover exactly the stored numbers, and the chain list is strictly increasing and
names every chain with a block, a metadata entry of the three setters or recorded ranges. -/
theorem metadata_matches_content {codec : WireCodec} {db : KvDb}
    (reachable : Reachable codec db) :
    (∀ chain, ∃ ranges, getRangesOfChainId db chain = .ok ranges ∧
      (∀ range ∈ ranges, range.start ≤ range.stop) ∧
      ranges.Pairwise (fun left right => left.stop.toNat + 1 < right.start.toNat) ∧
      ∀ number, (∃ range ∈ ranges, range.start ≤ number ∧ number ≤ range.stop) ↔
        (db[makeBlockKey chain number]?).isSome) ∧
    ∃ ids, getChainIds db = .ok ids ∧ ids.Pairwise (· < ·) ∧
      ∀ chain, (HasData db chain ∨
        ∃ data, db[makeBlockRangesKey chain]? = some data ∧ data ≠ []) → chain ∈ ids := by
  have consistent := reachable_metadata_consistent reachable
  refine ⟨fun chain => ?_, ?_⟩
  · obtain ⟨ranges, read, canonical, denotes⟩ := consistent.ranges chain
    refine ⟨ranges, read, canonical.inhabited, ?_, fun number => ?_⟩
    · exact canonical.separated.imp fun apart => (separated_iff _ _).mp apart
    · rw [← mem_denote, denotes, Set.mem_ofPred_eq]
  · obtain ⟨ids, read, sorted, named⟩ := consistent.chainIds
    refine ⟨ids, read, sorted, ?_⟩
    rintro chain (hasData | ⟨data, found, inhabited⟩)
    · exact named chain hasData
    · exact named chain (ranges_entry_has_data consistent found inhabited)

def freshDb : KvDb := applyOp ∅ (.put versionKey (serializeVersion currentVersion))

theorem create_empty : create ∅ = .ok freshDb := by
  simp [create, iterateFrom, freshDb]

theorem fresh_reachable (codec : WireCodec) : Reachable codec freshDb := .create create_empty

theorem fresh_get_chain_ids : getChainIds freshDb = .ok [] := by
  have absent : freshDb[chainIdsKey]? = none := by
    rw [freshDb, get_put, if_neg (by decide), Std.ExtTreeMap.getElem?_empty]
  simp only [getChainIds, absent]

theorem fresh_get_ranges (chain : UInt64) : getRangesOfChainId freshDb chain = .ok [] := by
  have absent : freshDb[makeBlockRangesKey chain]? = none := by
    rw [freshDb, makeBlockRangesKey, get_put, if_neg (version_key_ne_chain_key chain 0x00),
      Std.ExtTreeMap.getElem?_empty]
  simp only [getRangesOfChainId, absent]

theorem put_bytes_reachable {codec : WireCodec} {db : KvDb} (reachable : Reachable codec db)
    (chain number : UInt64) (data : Bytes) (below : number < maxBlockNumber) :
    ∃ updated, putBytes db chain number data = .ok updated ∧ Reachable codec updated ∧
      getBytes updated chain number = some data := by
  obtain ⟨contents, valid, -, represents⟩ := reachable_sound reachable
  obtain ⟨updated, stored, after⟩ :=
    put_bytes_simulates represents valid chain data below
  refine ⟨updated, stored, ?_, ?_⟩
  · have step := reachable.step (.putBytes chain number data) below
    rwa [Operation.run, stored] at step
  · simp [after.blocks, Contents.put]

theorem metadata_matches_content_first_block :
    ∃ (codec : WireCodec) (db : KvDb), Reachable codec db ∧
      putBytes freshDb 146 5 [0x0a] = .ok db ∧
      (∃ ranges, getRangesOfChainId db 146 = .ok ranges ∧
        ∃ range ∈ ranges, range.start ≤ 5 ∧ 5 ≤ range.stop) ∧
      ∃ ids, getChainIds db = .ok ids ∧ 146 ∈ ids := by
  obtain ⟨db, stored, reachable, found⟩ := put_bytes_reachable
    (fresh_reachable ⟨fun _ => [], fun _ => .error ""⟩) 146 5 [0x0a] (by decide)
  obtain ⟨rangesMatch, ids, idsRead, -, named⟩ := metadata_matches_content reachable
  obtain ⟨ranges, rangesRead, -, -, covered⟩ := rangesMatch 146
  have present : (getBytes db 146 5).isSome := by simp [found]
  exact ⟨_, db, reachable, stored, ⟨ranges, rangesRead, (covered 5).mpr present⟩,
    ids, idsRead, named 146 (.inl (.inl ⟨5, present⟩))⟩

/-- Deleting from a chain that was never stored records empty ranges for it and leaves the
chain list alone. -/
theorem deleted_unknown_chain_not_listed :
    ∃ (codec : WireCodec) (db : KvDb), deleteRange freshDb 7 0 0 = .ok db ∧
      Reachable codec db ∧ (db[makeBlockRangesKey 7]?).isSome ∧ getChainIds db = .ok [] := by
  have deleted : deleteRange freshDb 7 0 0 = .ok (applyBatch freshDb
      (deleteRangeRaw (makeBlockKey 7 0) (makeBlockKey 7 0) ++
        [.put (makeBlockRangesKey 7) []])) := by
    simp only [deleteRange, fresh_get_ranges]
    rfl
  have reachable := (fresh_reachable ⟨fun _ => [], fun _ => .error ""⟩).step
    (.deleteRange 7 0 0) trivial
  rw [Operation.run, deleted] at reachable
  refine ⟨_, _, deleted, reachable, ?_, ?_⟩
  · rw [apply_batch_append, apply_batch_cons, apply_batch_nil, get_put, if_pos rfl]
    rfl
  · have unchanged : (applyBatch freshDb (deleteRangeRaw (makeBlockKey 7 0) (makeBlockKey 7 0) ++
        [.put (makeBlockRangesKey 7) []]))[chainIdsKey]? = freshDb[chainIdsKey]? := by
      rw [apply_batch_append, apply_batch_cons, apply_batch_nil, get_put, if_neg (by decide),
        get_delete_range_raw_lower _ (compare_block_key_chain_ids_key 7 0)
          (compare_block_key_chain_ids_key 7 0)]
    rw [getChainIds, unchanged]
    exact fresh_get_chain_ids

/-- A batch stores the same bytes as the plain writes it collects, whatever the order of its
hash map, and writes under distinct keys may be reordered on either path. -/
theorem write_batch_eq_put_all {codec : WireCodec} {db : KvDb} (reachable : Reachable codec db)
    (writes : List BlockWrite) (below : ∀ write ∈ writes, write.blockNumber < maxBlockNumber)
    (order : Enumeration (batch.putAll writes).blockRanges) :
    (∃ final, writeBatch db (batch.putAll writes) order = .ok final ∧
      putAll db writes = .ok final) ∧
    ∀ reordered : List BlockWrite, writes.Perm reordered →
      (writes.map fun write => (write.chainId, write.blockNumber)).Nodup →
      ∀ reorder : Enumeration (batch.putAll reordered).blockRanges,
        putAll db reordered = putAll db writes ∧
          writeBatch db (batch.putAll reordered) reorder =
            writeBatch db (batch.putAll writes) order := by
  obtain ⟨contents, valid, -, represents⟩ := reachable_sound reachable
  obtain ⟨batched, batchWritten, batchRepresents⟩ :=
    write_batch_simulates represents valid writes below order
  obtain ⟨plain, plainWritten, plainRepresents⟩ :=
    put_all_simulates represents valid writes below
  have same : plain = batched := represents_unique plainRepresents batchRepresents
  refine ⟨⟨batched, batchWritten, same ▸ plainWritten⟩, ?_⟩
  intro reordered permuted distinct reorder
  have reorderedBelow : ∀ write ∈ reordered, write.blockNumber < maxBlockNumber :=
    fun write member => below write (permuted.mem_iff.mpr member)
  have contentsSame := Contents.put_all_perm contents permuted distinct
  obtain ⟨otherBatched, otherBatchWritten, otherBatchRepresents⟩ :=
    write_batch_simulates represents valid reordered reorderedBelow reorder
  obtain ⟨otherPlain, otherPlainWritten, otherPlainRepresents⟩ :=
    put_all_simulates represents valid reordered reorderedBelow
  rw [← contentsSame] at otherBatchRepresents otherPlainRepresents
  rw [otherPlainWritten, plainWritten, otherBatchWritten, batchWritten,
    represents_unique otherPlainRepresents plainRepresents,
    represents_unique otherBatchRepresents batchRepresents]
  exact ⟨rfl, rfl⟩

theorem write_batch_eq_put_all_two_chains :
    (∃ final, writeBatch freshDb
        (batch.putAll [⟨146, 5, [0x01]⟩, ⟨250, 7, [0x02]⟩, ⟨146, 5, [0x03]⟩])
        ⟨_, List.Perm.refl _⟩ = .ok final ∧
      putAll freshDb [⟨146, 5, [0x01]⟩, ⟨250, 7, [0x02]⟩, ⟨146, 5, [0x03]⟩] = .ok final) ∧
    putAll freshDb [⟨250, 7, [0x02]⟩, ⟨146, 5, [0x01]⟩] =
      putAll freshDb [⟨146, 5, [0x01]⟩, ⟨250, 7, [0x02]⟩] := by
  have fresh := fresh_reachable ⟨fun _ => [], fun _ => .error ""⟩
  refine ⟨(write_batch_eq_put_all fresh _ (by decide) _).1, ?_⟩
  exact ((write_batch_eq_put_all fresh [⟨146, 5, [0x01]⟩, ⟨250, 7, [0x02]⟩] (by decide)
    ⟨_, List.Perm.refl _⟩).2 _ (List.Perm.swap _ _ []) (by decide) ⟨_, List.Perm.refl _⟩).1

end Bertha.BlockDbInvariant
