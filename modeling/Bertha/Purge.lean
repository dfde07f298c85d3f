import Bertha.BlockIteration
import Bertha.RangeSets

/-!
# Purging blocks

The `purge` command of `blockservice/src/cmd/purge.rs`: it announces how many blocks of a
chain it is about to remove, asks for a confirmation and deletes the inclusive range. The
count comes from the range metadata, the deletion from a native key range and a single key,
and the new metadata from a subtraction; on consistent metadata all three speak of the same
blocks. Opening the database is left out. The console may fail, which the command notices
once more after the deletion, when it writes the closing message.
-/

namespace Bertha.Purge

open Bertha.BigEndian Bertha.BlockDb Bertha.BlockDbContents Bertha.BlockDbInvariant
open Bertha.BlockIteration Bertha.BlockKeys Bertha.BlockRanges Bertha.Conversion
open Bertha.IntervalList Bertha.OrderedStore Bertha.RangeSets
open Bertha.BlockTypes (Error)

set_option autoImplicit false

structure Console where
  write : String → Except String Unit
  flush : Except String Unit
  readLine : Except String String

inductive PurgeError where
  | message (text : String)
  | storage (failure : Error)
  | console (failure : String)
deriving DecidableEq, Repr

inductive Plan where
  | nothingToDo (text : String)
  | confirm (numBlocksToPurge first last : UInt64)
deriving DecidableEq, Repr

def isWhiteSpace (character : Char) : Bool :=
  let code := character.toNat
  (0x09 ≤ code && code ≤ 0x0d) || code == 0x20 || code == 0x85 || code == 0xa0 ||
    code == 0x1680 || (0x2000 ≤ code && code ≤ 0x200a) || code == 0x2028 || code == 0x2029 ||
    code == 0x202f || code == 0x205f || code == 0x3000

def trim (text : String) : List Char :=
  ((text.toList.dropWhile isWhiteSpace).reverse.dropWhile isWhiteSpace).reverse

/-- `matches!(input.trim(), "y" | "Y")`. -/
def confirms (input : String) : Bool := trim input == ['y'] || trim input == ['Y']

def countBlocks (ranges : List BlockRange) : UInt64 :=
  (ranges.map fun range => range.stop - range.start + 1).sum

def lastStoredBlock (blockRanges : List BlockRange) : UInt64 :=
  (blockRanges.getLast?.map ClosedInterval.stop).getD 0

def planPurge (db : KvDb) (chainId : UInt64) (fromBlock toBlock : Option UInt64) :
    Except PurgeError Plan :=
  if chainId = 0 then .error (.message "chain ID cannot be 0")
  else
    match getRangesOfChainId db chainId with
    | .error failure => .error (.storage failure)
    | .ok blockRanges =>
      if blockRanges.isEmpty then
        .ok (.nothingToDo s!"No blocks found for chain ID {chainId}\n")
      else
        let first := fromBlock.getD 0
        let last := toBlock.getD (lastStoredBlock blockRanges)
        if first > last then
          .error (.message (s!"invalid range: 'from' ({first}) must be less than or equal to " ++
            s!"'to' ({last})"))
        else
          let numBlocksToPurge := countBlocks (intersectRanges ⟨first, last⟩ blockRanges)
          if numBlocksToPurge = 0 then
            .ok (.nothingToDo (s!"No blocks to purge found in range {first} - {last} " ++
              s!"for chain ID {chainId}\n"))
          else .ok (.confirm numBlocksToPurge first last)

def closingMessage : String := "Blocks successfully purged\n"

/-- The announcement and the line read in reply. -/
def ask (console : Console) (chainId numBlocksToPurge first last : UInt64) :
    Except String String := do
  console.write (s!"Purging {numBlocksToPurge} blocks in range {first} - {last} for chain ID " ++
    s!"{chainId}. Are you sure you want to continue? (y/n): ")
  console.flush
  console.readLine

def purge (console : Console) (db : KvDb) (chainId : UInt64) (fromBlock toBlock : Option UInt64) :
    KvDb × Except PurgeError Unit :=
  match planPurge db chainId fromBlock toBlock with
  | .error failure => (db, .error failure)
  | .ok (.nothingToDo text) => (db, (console.write text).mapError .console)
  | .ok (.confirm numBlocksToPurge first last) =>
    match ask console chainId numBlocksToPurge first last with
    | .error failure => (db, .error (.console failure))
    | .ok input =>
      if confirms input then
        match deleteRange db chainId first last with
        | .error failure => (db, .error (.storage failure))
        | .ok updated => (updated, (console.write closingMessage).mapError .console)
      else (db, .ok ())

/-- The numbers stored for the chain within the bounds. -/
def storedWithin (db : KvDb) (chainId first last : UInt64) : Set UInt64 :=
  {number | first ≤ number ∧ number ≤ last ∧ (getBytes db chainId number).isSome}

/-- Exactly the blocks of the chain within the bounds are gone, and the ranges of the chain
say so. Every other key is as it was. -/
structure Purged (db : KvDb) (chainId first last : UInt64) (updated : KvDb) : Prop where
  gone : ∀ number, first ≤ number → number ≤ last → getBytes updated chainId number = none
  kept : ∀ key, IsKnown key → key ≠ makeBlockRangesKey chainId →
    (∀ number, first ≤ number → number ≤ last → key ≠ makeBlockKey chainId number) →
    updated[key]? = db[key]?
  ranges : ∃ ranges, getRangesOfChainId updated chainId = .ok ranges ∧ Canonical ranges ∧
    denote ranges = {number | (getBytes updated chainId number).isSome}

theorem sum_to_nat {numbers : List UInt64}
    (fits : (numbers.map UInt64.toNat).sum < UInt64.size) :
    numbers.sum.toNat = (numbers.map UInt64.toNat).sum := by
  induction numbers with
  | nil => rfl
  | cons number rest ih =>
      rw [List.map_cons, List.sum_cons] at fits ⊢
      rw [List.sum_cons, UInt64.toNat_add, ih (by omega)]
      exact Nat.mod_eq_of_lt fits

theorem length_to_nat {range : BlockRange} (inhabited : range.start ≤ range.stop)
    (below : range.stop < maxBlockNumber) :
    (range.stop - range.start + 1).toNat = rangeLength range := by
  have ordered := UInt64.le_iff_toNat_le.mp inhabited
  have belowNat := UInt64.lt_iff_toNat_lt.mp below
  rw [UInt64.toNat_add, UInt64.toNat_sub_of_le _ _ inhabited, UInt64.toNat_one, rangeLength]
  simp only [maxBlockNumber, UInt64.reduceToNat] at belowNat
  exact Nat.mod_eq_of_lt (by omega)

theorem ncard_lt_size {numbers : Set UInt64} (bounded : maxBlockNumber ∉ numbers) :
    numbers.ncard < UInt64.size := by
  have within : numbers ⊆ denote [⟨0, maxBlockNumber - 1⟩] := by
    intro number member
    have notTop : number ≠ maxBlockNumber := fun same => bounded (same ▸ member)
    simp only [mem_denote_cons, denote_nil, Set.mem_empty_iff_false, or_false]
    unfold maxBlockNumber at *
    grind
  have atMost := Set.ncard_le_ncard within (Set.toFinite _)
  rw [range_ncard (by decide)] at atMost
  exact atMost.trans_lt (by decide)

theorem count_blocks_ncard {ranges : List BlockRange} (canonical : Canonical ranges)
    (bounded : Bounded ranges) : (countBlocks ranges).toNat = (denote ranges).ncard := by
  have lengths : (ranges.map fun range => range.stop - range.start + 1).map UInt64.toNat =
      ranges.map rangeLength := by
    rw [List.map_map]
    exact List.map_congr_left fun range member =>
      length_to_nat (canonical.inhabited range member) (bounded range member)
  have total := canonical_ncard canonical
  have fits := ncard_lt_size (bounded_not_mem_denote bounded)
  rw [countBlocks, sum_to_nat (by rw [lengths, ← total]; exact fits), lengths, total]

section Consistent

variable {db : KvDb} (consistent : MetadataConsistent db) {chainId : UInt64}
include consistent

theorem delete_range_purges {first last : UInt64} (ordered : first ≤ last) :
    ∃ updated, deleteRange db chainId first last = .ok updated ∧
      Purged db chainId first last updated := by
  obtain ⟨ranges, rangesRead, canonical, denotes⟩ := consistent.ranges chainId
  have delOrdered : (⟨first, last⟩ : BlockRange).start ≤ last := ordered
  obtain ⟨newCanonical, newDenotes⟩ := subtract_range_spec delOrdered canonical
  obtain ⟨updated, deleted, lookup⟩ := delete_range_entries ordered rangesRead
  refine ⟨updated, deleted, ?_⟩
  have blocks : ∀ other number, getBytes updated other number =
      if chainId = other ∧ first ≤ number ∧ number ≤ last then none
      else getBytes db other number := by
    intro other number
    rw [← get_bytes_delete_range_raw db ordered, getBytes, lookup,
      if_neg (by simp [makeBlockRangesKey])]
    rfl
  refine ⟨?_, ?_, ?_⟩
  · intro number lower upper
    rw [blocks, if_pos ⟨rfl, lower, upper⟩]
  · intro key known notRanges outside
    have lower : compare (makeBlockKey chainId first) key = .gt →
        compare (makeBlockKey chainId last) key = .gt → updated[key]? = db[key]? := by
      intro startAbove endAbove
      rw [lookup, if_neg notRanges.symm, get_delete_range_raw_lower db startAbove endAbove]
    rcases known with rfl | rfl | ⟨other, suffix, rfl⟩ | ⟨other, number, rfl⟩
    · exact lower (compare_block_key_version_key chainId first)
        (compare_block_key_version_key chainId last)
    · exact lower (compare_block_key_chain_ids_key chainId first)
        (compare_block_key_chain_ids_key chainId last)
    · exact lower (compare_block_key_chain_key chainId first other suffix)
        (compare_block_key_chain_key chainId last other suffix)
    · have spared : ¬(chainId = other ∧ first ≤ number ∧ number ≤ last) := by
        rintro ⟨rfl, above, below⟩
        exact outside number above below rfl
      have same := blocks other number
      rwa [if_neg spared] at same
  · refine ⟨subtractRange ranges ⟨first, last⟩, ?_, newCanonical, ?_⟩
    · simp only [getRangesOfChainId, lookup, if_true]
      exact deserialize_serialize_block_ranges _
    · rw [newDenotes, denotes]
      ext number
      have own := blocks chainId number
      simp only [true_and] at own
      by_cases inside : first ≤ number ∧ number ≤ last
      · simp [own, inside]
      · simp only [Set.mem_sdiff, mem_denote_cons, denote_nil, Set.mem_empty_iff_false, or_false,
          inside, not_false_eq_true, and_true, Set.mem_ofPred_eq, own, if_false]
        rfl

/-- The question names the number of stored blocks within the bounds, whose defaults are 0
and the last stored block. -/
theorem plan_purge_announces {fromBlock toBlock : Option UInt64} {announced first last : UInt64}
    (planned : planPurge db chainId fromBlock toBlock = .ok (.confirm announced first last)) :
    first ≤ last ∧ first = fromBlock.getD 0 ∧
      (toBlock = some last ∨
        toBlock = none ∧ IsGreatest {number | (getBytes db chainId number).isSome} last) ∧
      announced.toNat = (storedWithin db chainId first last).ncard := by
  obtain ⟨ranges, rangesRead, canonical, denotes⟩ := consistent.ranges chainId
  have stored : denote ranges = {number | (getBytes db chainId number).isSome} := denotes
  have bounded : Bounded ranges := by
    apply canonical_bounded_of_denote canonical
    rw [denotes]
    simpa using consistent.bounded chainId
  unfold planPurge at planned
  rw [rangesRead] at planned
  dsimp only at planned
  split_ifs at planned with zero empty reversed nothing
  · cases planned
  · cases planned
  simp only [Except.ok.injEq, Plan.confirm.injEq] at planned
  obtain ⟨rfl, rfl, rfl⟩ := planned
  refine ⟨not_lt.mp reversed, rfl, ?_, ?_⟩
  · cases toBlock with
    | some last => exact Or.inl rfl
    | none =>
        refine Or.inr ⟨rfl, ?_⟩
        cases final : ranges.getLast? with
        | none => exact absurd (List.getLast?_eq_none_iff.mp final) (by simpa using empty)
        | some range =>
            have greatest := canonical_last_greatest canonical final
            rw [stored] at greatest
            simpa [lastStoredBlock, final] using greatest
  · have intersection := intersect_ranges_denotes
      ⟨fromBlock.getD 0, toBlock.getD (lastStoredBlock ranges)⟩ bounded
    have within : denote (intersectRanges
        ⟨fromBlock.getD 0, toBlock.getD (lastStoredBlock ranges)⟩ ranges) =
        storedWithin db chainId (fromBlock.getD 0) (toBlock.getD (lastStoredBlock ranges)) := by
      rw [intersection.denotes, stored]
      ext number
      simp [storedWithin, and_assoc]
    have pieces : Bounded (intersectRanges
        ⟨fromBlock.getD 0, toBlock.getD (lastStoredBlock ranges)⟩ ranges) := by
      apply canonical_bounded_of_denote intersection.canonical
      rw [intersection.denotes]
      exact fun member => bounded_not_mem_denote bounded member.2
    rw [count_blocks_ncard intersection.canonical pieces, within]

end Consistent

theorem purge_unasked (console : Console) {db : KvDb} {chainId : UInt64}
    {fromBlock toBlock : Option UInt64}
    (unasked : ∀ announced first last,
      planPurge db chainId fromBlock toBlock ≠ .ok (.confirm announced first last)) :
    (purge console db chainId fromBlock toBlock).1 = db := by
  unfold purge
  cases planned : planPurge db chainId fromBlock toBlock with
  | error failure => rfl
  | ok plan =>
      cases plan with
      | nothingToDo text => rfl
      | confirm announced first last => exact absurd planned (unasked announced first last)

section Asked

variable {console : Console} {db : KvDb} {chainId announced first last : UInt64}
  {fromBlock toBlock : Option UInt64}
  (planned : planPurge db chainId fromBlock toBlock = .ok (.confirm announced first last))
include planned

theorem purge_question_fails {failure : String}
    (asked : ask console chainId announced first last = .error failure) :
    purge console db chainId fromBlock toBlock = (db, .error (.console failure)) := by
  simp only [purge, planned, asked]

theorem purge_declined {input : String}
    (asked : ask console chainId announced first last = .ok input)
    (declined : confirms input = false) :
    purge console db chainId fromBlock toBlock = (db, .ok ()) := by
  simp [purge, planned, asked, declined]

theorem purge_confirmed (consistent : MetadataConsistent db) (ordered : first ≤ last)
    {input : String} (asked : ask console chainId announced first last = .ok input)
    (confirmed : confirms input = true) :
    Purged db chainId first last (purge console db chainId fromBlock toBlock).1 ∧
      (purge console db chainId fromBlock toBlock).2 =
        (console.write closingMessage).mapError .console := by
  obtain ⟨updated, deleted, purged⟩ := @delete_range_purges db consistent chainId first last ordered
  have outcome : purge console db chainId fromBlock toBlock =
      (updated, (console.write closingMessage).mapError .console) := by
    simp [purge, planned, asked, confirmed, deleted]
  rw [outcome]
  exact ⟨purged, rfl⟩

end Asked

/-- If a confirmation is asked for, the announced count is the number of stored blocks within
the bounds. A confirming answer removes exactly those blocks, whether or not the closing
message can be written after that. In every other case the database is as it was. -/
theorem purge_removes_announced (console : Console) {db : KvDb}
    (consistent : MetadataConsistent db) (chainId : UInt64) (fromBlock toBlock : Option UInt64) :
    (∀ announced first last,
      planPurge db chainId fromBlock toBlock = .ok (.confirm announced first last) →
        first ≤ last ∧ first = fromBlock.getD 0 ∧
        (toBlock = some last ∨
          toBlock = none ∧ IsGreatest {number | (getBytes db chainId number).isSome} last) ∧
        announced.toNat = (storedWithin db chainId first last).ncard ∧
        (∀ failure, ask console chainId announced first last = .error failure →
          purge console db chainId fromBlock toBlock = (db, .error (.console failure))) ∧
        ∀ input, ask console chainId announced first last = .ok input →
          (confirms input = false → purge console db chainId fromBlock toBlock = (db, .ok ())) ∧
          (confirms input = true →
            Purged db chainId first last (purge console db chainId fromBlock toBlock).1 ∧
            (purge console db chainId fromBlock toBlock).2 =
              (console.write closingMessage).mapError .console)) ∧
      ((∀ announced first last,
        planPurge db chainId fromBlock toBlock ≠ .ok (.confirm announced first last)) →
        (purge console db chainId fromBlock toBlock).1 = db) := by
  refine ⟨?_, purge_unasked console⟩
  intro announced first last planned
  obtain ⟨ordered, lower, upper, count⟩ := plan_purge_announces consistent planned
  refine ⟨ordered, lower, upper, count, fun failure asked => purge_question_fails planned asked, ?_⟩
  intro input asked
  exact ⟨purge_declined planned asked, purge_confirmed planned consistent ordered asked⟩

def closedConsole : Console where
  write text := if text.toList.head? = some 'B' then .error "broken pipe" else .ok ()
  flush := .ok ()
  readLine := .ok "y\n"

theorem single_block_planned : ∃ db, putBytes freshDb 7 5 [0x0a] = .ok db ∧
    MetadataConsistent db ∧ getBytes db 7 5 = some [0x0a] ∧
    planPurge db 7 none none = .ok (.confirm 1 0 5) := by
  obtain ⟨db, stored, reachable, found⟩ := put_bytes_reachable
    (fresh_reachable ⟨fun _ => [], fun _ => .error ""⟩) 7 5 [0x0a] (by decide)
  have ranges := get_ranges_put_bytes stored (fresh_get_ranges 7)
  refine ⟨db, stored, reachable_metadata_consistent reachable, found, ?_⟩
  simp only [planPurge, ranges]
  rfl

theorem purge_removes_announced_single : ∃ db, putBytes freshDb 7 5 [0x0a] = .ok db ∧
    Purged db 7 0 5 (purge closedConsole db 7 none none).1 ∧
    (1 : UInt64).toNat = (storedWithin db 7 0 5).ncard := by
  obtain ⟨db, stored, consistent, found, planned⟩ := single_block_planned
  obtain ⟨-, -, -, count, -, answered⟩ :=
    (purge_removes_announced closedConsole consistent 7 none none).1 1 0 5 planned
  exact ⟨db, stored, ((answered "y\n" rfl).2 (by decide)).1, count⟩

/-- The command fails on its last line with the block gone. -/
theorem closing_message_fails_after_purge : ∃ db, putBytes freshDb 7 5 [0x0a] = .ok db ∧
    MetadataConsistent db ∧
    (purge closedConsole db 7 none none).2 = .error (.console "broken pipe") ∧
    (purge closedConsole db 7 none none).1 ≠ db := by
  obtain ⟨db, stored, consistent, found, planned⟩ := single_block_planned
  have asked : ask closedConsole 7 1 0 5 = .ok "y\n" := rfl
  obtain ⟨purged, outcome⟩ := purge_confirmed planned consistent (by decide) asked (by decide)
  refine ⟨db, stored, consistent, outcome, ?_⟩
  intro same
  have gone := purged.gone 5 (by decide) (by decide)
  rw [same, found] at gone
  cases gone

end Bertha.Purge
