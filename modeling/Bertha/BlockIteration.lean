import Bertha.BlockDbInvariant

/-!
# Iteration over the blocks of a chain

`iterate_bytes` reads raw entries from the key of the start block on and stops at the
first key that is not a block of the chain. Between two block keys of one chain there
are only block keys of that chain, so the stop never cuts a block off and the items are
exactly the stored blocks on the requested side of the start number.
-/

namespace Bertha.BlockIteration

open Bertha.BigEndian Bertha.BlockDb Bertha.BlockDbContents Bertha.BlockDbInvariant
open Bertha.BlockKeys Bertha.BlockRanges Bertha.OrderedStore
open Bertha.BlockTypes (Error)

set_option autoImplicit false

def IsKnown (key : Bytes) : Prop :=
  key = versionKey ∨ key = chainIdsKey ∨ (∃ chain suffix, key = makeChainKey chain suffix) ∨
    ∃ chain number, key = makeBlockKey chain number

/-- A store without foreign keys, in which the iteration meets no error. -/
def KnownKeys (db : KvDb) : Prop := ∀ key data, db[key]? = some data → IsKnown key

theorem sound_known {db : KvDb} (sound : Sound db) : KnownKeys db := by
  obtain ⟨contents, -, keyed, represents⟩ := sound
  intro key data found
  by_cases managed : IsManaged key
  · rcases managed with rfl | ⟨chain, rfl⟩ | ⟨chain, number, rfl⟩
    · exact .inr (.inl rfl)
    · exact .inr (.inr (.inl ⟨chain, 0x00, rfl⟩))
    · exact .inr (.inr (.inr ⟨chain, number, rfl⟩))
  · have present : (contents.other key).isSome := by
      rw [← represents.other key managed, found]
      rfl
    rcases keyed key present with version | chainKey
    · exact .inl version
    · exact .inr (.inr (.inl chainKey))

theorem read_entry_block (chain other number : UInt64) (data : Bytes) :
    readEntry chain (makeBlockKey other number, data) =
      if other ≠ chain then none else some (.ok (number, data)) := by
  have chainPart : ((makeBlockKey other number).drop 1).take 8 = toBeBytes other :=
    List.take_left' (to_be_bytes_length other)
  have numberPart : ((makeBlockKey other number).drop 9).take 8 = toBeBytes number := by
    have dropped : (makeBlockKey other number).drop 9 = toBeBytes number :=
      List.drop_left' (to_be_bytes_length other)
    rw [dropped, List.take_of_length_le (by simp)]
  have tag : (makeBlockKey other number)[0]? = some 0x02 := rfl
  simp only [readEntry, make_block_key_length, chainPart, numberPart, tag, from_be_to_be_bytes]
  simp

theorem read_entry_ok {chain number : UInt64} {entry : Bytes × Bytes} {data : Bytes} :
    readEntry chain entry = some (.ok (number, data)) ↔
      entry = (makeBlockKey chain number, data) := by
  constructor
  · intro read
    simp only [readEntry] at read
    split_ifs at read with metadata unexpected foreign
    · cases read
    · simp only [Option.some.injEq, Except.ok.injEq, Prod.mk.injEq] at read
      simp only [not_or, not_not] at unexpected foreign
      have key := make_block_key_of_parts unexpected.1 unexpected.2
      rw [foreign, read.1] at key
      rw [key, ← read.2]
  · rintro rfl
    simp [read_entry_block]

theorem read_entry_known (chain : UInt64) {key : Bytes} (data : Bytes) (known : IsKnown key) :
    readEntry chain (key, data) = none ∨
      ∃ number, key = makeBlockKey chain number ∧
        readEntry chain (key, data) = some (.ok (number, data)) := by
  rcases known with rfl | rfl | ⟨other, suffix, rfl⟩ | ⟨other, number, rfl⟩
  · exact .inl rfl
  · exact .inl rfl
  · exact .inl (by simp [readEntry])
  · rw [read_entry_block]
    by_cases own : other = chain
    · subst own
      exact .inr ⟨number, rfl, by simp⟩
    · exact .inl (by simp [own])

theorem compare_le_iff {left right : UInt64} : (compare left right).isLE ↔ left ≤ right := by
  rw [Ordering.isLE_iff_ne_gt, compare_gt_iff_gt, not_lt]

/-- Between two block keys of a chain lie only block keys of the chain. -/
theorem known_between {chain first last : UInt64} {key : Bytes} (known : IsKnown key)
    (lower : (compare (makeBlockKey chain first) key).isLE)
    (upper : (compare key (makeBlockKey chain last)).isLE) :
    ∃ number, key = makeBlockKey chain number := by
  rcases known with rfl | rfl | ⟨other, suffix, rfl⟩ | ⟨other, number, rfl⟩
  · rw [compare_block_key_version_key] at lower
    cases lower
  · rw [compare_block_key_chain_ids_key] at lower
    cases lower
  · rw [compare_block_key_chain_key] at lower
    cases lower
  · rw [compare_make_block_key, Ordering.isLE_then_iff_and] at lower upper
    have same := le_antisymm (compare_le_iff.mp lower.1) (compare_le_iff.mp upper.1)
    exact ⟨number, by rw [same]⟩

/-- The part of a list of reads that the iteration yields, when no read fails and none
after a stop would be an item. -/
theorem take_until_stop_eq {Item : Type} {reads : List (Option (Except Error Item))}
    (noError : ∀ failure, some (.error failure) ∉ reads)
    (closed : reads.Pairwise fun earlier later => later.isSome → earlier.isSome) :
    takeUntilStop reads = reads.filterMap id := by
  induction reads with
  | nil => rfl
  | cons read reads ih =>
      obtain ⟨headClosed, tailClosed⟩ := List.pairwise_cons.mp closed
      have tail := ih (fun failure member => noError failure (by simp [member])) tailClosed
      match read with
      | none =>
          have stopped : ∀ later ∈ reads, later = none := by
            intro later member
            by_contra present
            exact absurd (headClosed later member (Option.isSome_iff_ne_none.mpr present)) (by simp)
          simpa [takeUntilStop] using stopped
      | some (.error failure) => exact absurd (by simp) (noError failure)
      | some (.ok item) => simp [takeUntilStop, tail]

def chainEntry (chain : UInt64) (entry : Bytes × Bytes) : Option (UInt64 × Bytes) :=
  (readEntry chain entry).bind Except.toOption

theorem chain_entry_eq_some {chain number : UInt64} {entry : Bytes × Bytes} {data : Bytes} :
    chainEntry chain entry = some (number, data) ↔
      entry = (makeBlockKey chain number, data) := by
  rw [← read_entry_ok, chainEntry, Option.bind_eq_some_iff]
  constructor
  · rintro ⟨read, readEq, kept⟩
    cases read with
    | error failure => cases kept
    | ok item =>
        rw [readEq, ← Option.some.inj kept]
  · intro read
    exact ⟨_, read, rfl⟩

section ChainScan

variable {db : KvDb} (known : KnownKeys db) (chain start : UInt64)

include known

theorem iterate_from_known {direction : IterationDirection} {entry : Bytes × Bytes}
    (member : entry ∈ iterateFrom db (makeBlockKey chain start) direction) :
    IsKnown entry.1 := by
  cases direction with
  | forward => exact known _ _ (mem_iterate_forward.mp member).1
  | reverse => exact known _ _ (mem_iterate_reverse.mp member).1

theorem iterate_from_closed (direction : IterationDirection) :
    (iterateFrom db (makeBlockKey chain start) direction).Pairwise fun earlier later =>
      (readEntry chain later).isSome → (readEntry chain earlier).isSome := by
  have blockOf {entry : Bytes × Bytes}
      (member : entry ∈ iterateFrom db (makeBlockKey chain start) direction)
      (present : (readEntry chain entry).isSome) :
      ∃ number, entry.1 = makeBlockKey chain number := by
    rcases read_entry_known chain entry.2
      (iterate_from_known known chain start member) with stopped | ⟨number, key, -⟩
    · rw [stopped] at present
      cases present
    · exact ⟨number, key⟩
  have readable {entry : Bytes × Bytes} {number : UInt64}
      (key : entry.1 = makeBlockKey chain number) : (readEntry chain entry).isSome := by
    have read := read_entry_ok.mpr (Prod.ext key rfl :
      entry = (makeBlockKey chain number, entry.2))
    rw [read]
    rfl
  cases direction with
  | forward =>
      apply (iterate_forward_sorted db (makeBlockKey chain start)).imp_of_mem
      intro earlier later earlierMember laterMember below present
      obtain ⟨last, lastKey⟩ := blockOf laterMember present
      have upper : (compare earlier.1 (makeBlockKey chain last)).isLE := by
        rw [← lastKey, below]
        rfl
      obtain ⟨number, key⟩ := known_between (iterate_from_known known chain start earlierMember)
        (mem_iterate_forward.mp earlierMember).2 upper
      exact readable key
  | reverse =>
      apply (iterate_reverse_sorted db (makeBlockKey chain start)).imp_of_mem
      intro earlier later earlierMember laterMember below present
      obtain ⟨first, firstKey⟩ := blockOf laterMember present
      have lower : (compare (makeBlockKey chain first) earlier.1).isLE := by
        rw [← firstKey, below]
        rfl
      obtain ⟨number, key⟩ := known_between (iterate_from_known known chain start earlierMember)
        lower (mem_iterate_reverse.mp earlierMember).2
      exact readable key

theorem iterate_bytes_eq (direction : IterationDirection) :
    iterateBytes db chain start direction =
      ((iterateFrom db (makeBlockKey chain start) direction).filterMap
        (chainEntry chain)).map .ok := by
  have knownRead {entry : Bytes × Bytes}
      (member : entry ∈ iterateFrom db (makeBlockKey chain start) direction) :
      readEntry chain entry = (chainEntry chain entry).map .ok := by
    rcases read_entry_known chain entry.2
      (iterate_from_known known chain start member) with stopped | ⟨number, -, read⟩
    · rw [chainEntry, stopped]
      rfl
    · rw [chainEntry, read]
      rfl
  unfold iterateBytes
  rw [take_until_stop_eq, List.filterMap_map, List.map_filterMap]
  · exact List.filterMap_congr fun entry member => knownRead member
  · intro failure member
    obtain ⟨entry, entryMember, failed⟩ := List.mem_map.mp member
    rw [knownRead entryMember] at failed
    cases found : chainEntry chain entry <;> simp [found] at failed
  · exact List.pairwise_map.mpr (iterate_from_closed known chain start direction)

end ChainScan

theorem chain_entry_compare {chain : UInt64} {left right : Bytes × Bytes}
    (below : compare left.1 right.1 = .lt) {leftItem rightItem : UInt64 × Bytes}
    (leftRead : chainEntry chain left = some leftItem)
    (rightRead : chainEntry chain right = some rightItem) : leftItem.1 < rightItem.1 := by
  have leftKey := chain_entry_eq_some.mp leftRead
  have rightKey := chain_entry_eq_some.mp rightRead
  rw [leftKey, rightKey, compare_make_block_key, compare_eq_iff_eq.mpr rfl,
    Ordering.eq_then] at below
  exact compare_lt_iff_lt.mp below

theorem compare_same_chain (chain number other : UInt64) :
    (compare (makeBlockKey chain number) (makeBlockKey chain other)).isLE ↔ number ≤ other := by
  rw [compare_make_block_key, compare_eq_iff_eq.mpr rfl, Ordering.eq_then, compare_le_iff]

theorem iterate_bytes_forward {db : KvDb} (known : KnownKeys db) (chain start : UInt64) :
    ∃ items : List (UInt64 × Bytes),
      iterateBytes db chain start .forward = items.map .ok ∧
      items.Pairwise (fun earlier later => earlier.1 < later.1) ∧
      ∀ number data, (number, data) ∈ items ↔
        getBytes db chain number = some data ∧ start ≤ number := by
  refine ⟨_, iterate_bytes_eq known chain start .forward, ?_, ?_⟩
  · refine List.Pairwise.filterMap (chainEntry chain) ?_
      (iterate_forward_sorted db (makeBlockKey chain start))
    intro earlier later below first firstRead second secondRead
    exact chain_entry_compare below firstRead secondRead
  · intro number data
    simp only [List.mem_filterMap, chain_entry_eq_some, exists_eq_right, mem_iterate_forward,
      compare_same_chain, getBytes]

theorem iterate_bytes_reverse {db : KvDb} (known : KnownKeys db) (chain start : UInt64) :
    ∃ items : List (UInt64 × Bytes),
      iterateBytes db chain start .reverse = items.map .ok ∧
      items.Pairwise (fun earlier later => later.1 < earlier.1) ∧
      ∀ number data, (number, data) ∈ items ↔
        getBytes db chain number = some data ∧ number ≤ start := by
  refine ⟨_, iterate_bytes_eq known chain start .reverse, ?_, ?_⟩
  · refine List.Pairwise.filterMap (chainEntry chain) ?_
      (iterate_reverse_sorted db (makeBlockKey chain start))
    intro earlier later below first firstRead second secondRead
    exact chain_entry_compare below secondRead firstRead
  · intro number data
    simp only [List.mem_filterMap, chain_entry_eq_some, exists_eq_right, mem_iterate_reverse,
      compare_same_chain, getBytes]

/-- Iteration yields exactly the stored blocks of the chain on the requested side of the
start number, in strict order and without an error. -/
theorem iterate_bytes_exact {codec : WireCodec} {db : KvDb} (reachable : Reachable codec db)
    (chain start : UInt64) :
    (∃ items : List (UInt64 × Bytes),
      iterateBytes db chain start .forward = items.map .ok ∧
      items.Pairwise (fun earlier later => earlier.1 < later.1) ∧
      ∀ number data, (number, data) ∈ items ↔
        getBytes db chain number = some data ∧ start ≤ number) ∧
    ∃ items : List (UInt64 × Bytes),
      iterateBytes db chain start .reverse = items.map .ok ∧
      items.Pairwise (fun earlier later => later.1 < earlier.1) ∧
      ∀ number data, (number, data) ∈ items ↔
        getBytes db chain number = some data ∧ number ≤ start :=
  ⟨iterate_bytes_forward (sound_known (reachable_sound reachable)) chain start,
    iterate_bytes_reverse (sound_known (reachable_sound reachable)) chain start⟩

theorem iterate_bytes_exact_neighbours :
    ∃ first db : KvDb, putBytes freshDb 0 5 [0x0a] = .ok first ∧
      putBytes first 1 0 [0x0b] = .ok db ∧
      (∃ items : List (UInt64 × Bytes), iterateBytes db 0 0 .forward = items.map .ok ∧
        (5, [0x0a]) ∈ items) ∧
      iterateBytes db 0 0 .reverse = [] := by
  obtain ⟨first, firstStored, firstReachable, firstFound⟩ := put_bytes_reachable
    (fresh_reachable ⟨fun _ => [], fun _ => .error ""⟩) 0 5 [0x0a] (by decide)
  obtain ⟨db, stored, reachable, -⟩ :=
    put_bytes_reachable firstReachable 1 0 [0x0b] (by decide)
  obtain ⟨⟨items, forward, -, members⟩, ⟨others, reverse, -, otherMembers⟩⟩ :=
    iterate_bytes_exact reachable 0 0
  have blocks (number : UInt64) : getBytes db 0 number = getBytes first 0 number :=
    (get_bytes_put_bytes stored 0 number).trans (if_neg (by simp))
  have firstBlocks (number : UInt64) (other : 5 ≠ number) : getBytes first 0 number = none := by
    rw [get_bytes_put_bytes firstStored, if_neg (by simp [other])]
    simp [getBytes, freshDb, get_put]
  refine ⟨first, db, firstStored, stored, ⟨items, forward, (members 5 _).mpr ⟨?_, by decide⟩⟩, ?_⟩
  · rw [blocks, firstFound]
  · have nothing : others = [] := by
      rw [List.eq_nil_iff_forall_not_mem]
      rintro ⟨number, data⟩ member
      obtain ⟨found, atMost⟩ := (otherMembers number data).mp member
      have zero : number = 0 := le_antisymm atMost UInt64.zero_le
      rw [zero, blocks, firstBlocks 0 (by decide)] at found
      cases found
    rw [reverse, nothing]
    rfl

theorem mem_take_until_stop {Item : Type} {reads : List (Option (Except Error Item))}
    {item : Except Error Item} (member : item ∈ takeUntilStop reads) : some item ∈ reads := by
  induction reads with
  | nil => simp [takeUntilStop] at member
  | cons read reads ih =>
      match read with
      | none => simp [takeUntilStop] at member
      | some (.error failure) => simp_all [takeUntilStop]
      | some (.ok found) =>
          simp only [takeUntilStop, List.mem_cons] at member
          rcases member with rfl | later
          · simp
          · exact List.mem_cons_of_mem _ (ih later)

/-- In any byte store, every block that the iteration yields is a stored block. -/
theorem iterate_bytes_stored {db : KvDb} {chain start number : UInt64} {data : Bytes}
    {direction : IterationDirection}
    (member : .ok (number, data) ∈ iterateBytes db chain start direction) :
    getBytes db chain number = some data := by
  obtain ⟨entry, entryMember, read⟩ := List.mem_map.mp (mem_take_until_stop member)
  rw [read_entry_ok.mp read] at entryMember
  cases direction with
  | forward => exact (mem_iterate_forward.mp entryMember).1
  | reverse => exact (mem_iterate_reverse.mp entryMember).1

end Bertha.BlockIteration
