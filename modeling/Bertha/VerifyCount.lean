import Bertha.SortedEntries
import Bertha.Verifiers

/-!
# The error count of the verifier

What `verify` counts, said without its loop: the stored numbers whose block carries another
number, the stored numbers whose block is not the parent of its stored successor, and the
requested block if it is missing or has another hash. The loop carries the previous number
and hash along and forgets the hash at a gap, so each defect is counted once and under the
number it belongs to.
-/

namespace Bertha.VerifyCount

open Bertha.BigEndian Bertha.BlockDb Bertha.BlockDbInvariant Bertha.BlockIteration
open Bertha.BlockRanges Bertha.Conversion Bertha.GoBlockDb Bertha.OrderedStore Bertha.SortedEntries
open Bertha.Verifiers
open Bertha.BlockTypes (Block Error Hash)

set_option autoImplicit false

-- numbers are looked up among those with failed bundles by their equality, not by their order
attribute [-instance] Std.LawfulBEqOrd.lawfulBEq

def misnumbered (entry : UInt64 × Block) : Bool := decide (entry.2.number ≠ entry.1)

/-- The later entry has the next number and names another parent than the earlier one, which
is not excused by failed bundles. -/
def brokenLink (rust : RustLibraries) (failed : List UInt64) (earlier later : UInt64 × Block) :
    Bool :=
  decide (earlier.1 + 1 = later.1 ∧ rust.blockHash earlier.2 ≠ later.2.parentHash ∧
    earlier.1 ∉ failed)

theorem check_block_hash_count (chainId blockNumber : UInt64) (blockHash expectedHash : Hash)
    (expectedSource : String) (failed : List UInt64) (report : Report) :
    (checkBlockHash chainId blockNumber blockHash expectedHash expectedSource failed
      report).errors =
        report.errors + if blockHash ≠ expectedHash ∧ blockNumber ∉ failed then 1 else 0 := by
  unfold checkBlockHash Report.write
  split_ifs <;> simp_all

section Loop

variable (rust : RustLibraries) (chainId : UInt64) (failed : List UInt64)

theorem verify_entry_count (report : Report) (earlier later : UInt64 × Block) :
    ∃ next : Report,
      verifyEntry rust chainId failed ⟨earlier.1, some (rust.blockHash earlier.2), report⟩
        later.1 later.2 = ⟨later.1, some (rust.blockHash later.2), next⟩ ∧
      next.errors = report.errors + (if misnumbered later then 1 else 0) +
        if brokenLink rust failed earlier later then 1 else 0 := by
  refine ⟨_, rfl, ?_⟩
  by_cases successive : earlier.1 + 1 = later.1
  · simp only [successive, ne_eq, not_true_eq_false, if_false, check_block_hash_count,
      misnumbered, brokenLink, true_and, decide_eq_true_eq]
    split_ifs <;> rfl
  · simp only [successive, ne_eq, not_false_eq_true, if_true, misnumbered, brokenLink, false_and,
      decide_eq_true_eq, if_false]
    split_ifs <;> rfl

theorem verify_entry_first_count (report : Report) (start : UInt64) (entry : UInt64 × Block) :
    ∃ next : Report,
      verifyEntry rust chainId failed ⟨start, none, report⟩ entry.1 entry.2 =
        ⟨entry.1, some (rust.blockHash entry.2), next⟩ ∧
      next.errors = report.errors + if misnumbered entry then 1 else 0 := by
  refine ⟨_, rfl, ?_⟩
  simp only [misnumbered, decide_eq_true_eq, ite_self]
  split_ifs <;> rfl

/-- Behind an entry the loop counts the entries with a wrong number and the adjacent pairs
that are not linked. -/
theorem verify_loop_count (entries : List (UInt64 × Block)) (earlier : UInt64 × Block)
    (poll : Nat) (report : Report) :
    ∃ final, verifyLoop rust chainId failed never poll (entries.map .ok)
        ⟨earlier.1, some (rust.blockHash earlier.2), report⟩ = .ok final ∧
      final.report.errors = report.errors + entries.countP misnumbered +
        countAdjacent (brokenLink rust failed) (earlier :: entries) := by
  induction entries generalizing earlier poll report with
  | nil => exact ⟨_, rfl, rfl⟩
  | cons later entries ih =>
      obtain ⟨next, stepped, count⟩ := verify_entry_count rust chainId failed report earlier later
      obtain ⟨final, looped, total⟩ := ih later (poll + 1) next
      refine ⟨final, ?_, ?_⟩
      · rw [List.map_cons, verifyLoop, never, if_neg Bool.false_ne_true]
        exact (congrArg _ stepped).trans looped
      · rw [total, count, List.countP_cons, countAdjacent]
        omega

theorem verify_loop_all_count (entries : List (UInt64 × Block)) (start : UInt64)
    (report : Report) :
    ∃ final, verifyLoop rust chainId failed never 0 (entries.map .ok) ⟨start, none, report⟩ =
        .ok final ∧
      final.report.errors = report.errors + entries.countP misnumbered +
        countAdjacent (brokenLink rust failed) entries := by
  cases entries with
  | nil => exact ⟨_, rfl, rfl⟩
  | cons entry entries =>
      obtain ⟨next, stepped, count⟩ :=
        verify_entry_first_count rust chainId failed report start entry
      obtain ⟨final, looped, total⟩ := verify_loop_count rust chainId failed entries entry 1 next
      refine ⟨final, ?_, ?_⟩
      · rw [List.map_cons, verifyLoop, never, if_neg Bool.false_ne_true]
        exact (congrArg _ stepped).trans looped
      · rw [total, count, List.countP_cons]
        omega

end Loop

def misnumberedBlocks (rust : RustLibraries) (db : KvDb) (chainId start : UInt64) : Set UInt64 :=
  {number | start ≤ number ∧ ∃ block,
    BlockDb.get rust.codec db chainId number = .ok (some block) ∧ block.number ≠ number}

/-- The stored numbers without failed bundles whose hash is not the parent hash of the stored
successor. -/
def unlinkedBlocks (rust : RustLibraries) (db : KvDb) (chainId start : UInt64)
    (failed : List UInt64) : Set UInt64 :=
  {number | start ≤ number ∧ ∃ block successor,
    BlockDb.get rust.codec db chainId number = .ok (some block) ∧
    BlockDb.get rust.codec db chainId (number + 1) = .ok (some successor) ∧
    rust.blockHash block ≠ successor.parentHash ∧ number ∉ failed}

/-- One for a requested block that is missing, or has another hash and no failed bundles. -/
def requestedDefects (rust : RustLibraries) (db : KvDb) (chainId start : UInt64)
    (failed : List UInt64) : Option Hash → Nat
  | none => 0
  | some expected =>
    match BlockDb.get rust.codec db chainId start with
    | .ok (some block) => if rust.blockHash block ≠ expected ∧ start ∉ failed then 1 else 0
    | _ => 1

/-- A database whose metadata is right and whose blocks of the chain can be decoded. -/
structure Decodable (rust : RustLibraries) (db : KvDb) (chainId : UInt64) : Prop where
  known : KnownKeys db
  consistent : MetadataConsistent db
  decodes : ∀ number data, getBytes db chainId number = some data →
    ∃ block, decodeBlock rust.codec data = .ok block

section Counting

variable {rust : RustLibraries} {db : KvDb} {chainId : UInt64}
  (decodable : Decodable rust db chainId)
include decodable

theorem iterate_entries (start : UInt64) :
    ∃ entries : List (UInt64 × Block),
      iterate rust.codec db chainId start .forward = entries.map .ok ∧ Sorted entries ∧
      ∀ number block, (number, block) ∈ entries ↔
        start ≤ number ∧ BlockDb.get rust.codec db chainId number = .ok (some block) := by
  obtain ⟨items, iterated, sorted, members⟩ :=
    iterate_bytes_forward decodable.known chainId start
  have readable : ∀ item ∈ items, ∃ block, decodeBlock rust.codec item.2 = .ok block :=
    fun item member => decodable.decodes item.1 item.2 ((members item.1 item.2).mp member).1
  have : Nonempty Block := ⟨{}⟩
  choose! blockOf decoded using readable
  obtain ⟨yielded, entriesMembers⟩ := iterate_decoded iterated members decoded
  exact ⟨_, yielded, List.pairwise_map.mpr sorted, entriesMembers⟩

theorem stored_below_top {number : UInt64} {block : Block}
    (stored : BlockDb.get rust.codec db chainId number = .ok (some block)) :
    number < maxBlockNumber := by
  obtain ⟨data, found, -⟩ := get_eq_some.mp stored
  have notTop : number ≠ maxBlockNumber := by
    rintro rfl
    rw [getBytes, decodable.consistent.bounded] at found
    cases found
  unfold maxBlockNumber at *
  grind

theorem loop_counts_defects (start : UInt64) (failed : List UInt64) (report : Report) :
    ∃ final, verifyLoop rust chainId failed never 0
        (iterate rust.codec db chainId start .forward) ⟨start, none, report⟩ = .ok final ∧
      final.report.errors = report.errors + (misnumberedBlocks rust db chainId start).ncard +
        (unlinkedBlocks rust db chainId start failed).ncard := by
  obtain ⟨entries, iterated, sorted, members⟩ := iterate_entries decodable start
  obtain ⟨final, looped, total⟩ := verify_loop_all_count rust chainId failed entries start report
  have successor {number : UInt64} {block : Block} (member : (number, block) ∈ entries) :
      number ⋖ number + 1 := by
    have below := stored_below_top decodable ((members number block).mp member).2
    unfold maxBlockNumber at below
    exact ⟨by grind, fun between above => by grind⟩
  have successive : ∀ earlier ∈ entries, ∀ later ∈ entries,
      brokenLink rust failed earlier later → earlier.1 ⋖ later.1 := by
    intro earlier member later _ broken
    rw [← (of_decide_eq_true broken).1]
    exact successor member
  refine ⟨final, by rw [iterated]; exact looped, ?_⟩
  rw [total, count_adjacent_eq sorted successive, count_eq_ncard sorted, count_eq_ncard sorted]
  congr 2
  · congr 1
    ext number
    simp only [misnumberedBlocks, misnumbered, members, Set.mem_ofPred_eq, decide_eq_true_eq]
    tauto
  · ext number
    simp only [unlinkedBlocks, brokenLink, Set.mem_ofPred_eq, List.any_eq_true, decide_eq_true_eq]
    constructor
    · rintro ⟨block, member, ⟨next, later⟩, laterMember, successive, different, named⟩
      obtain ⟨least, stored⟩ := (members number block).mp member
      obtain ⟨-, laterStored⟩ := (members next later).mp laterMember
      exact ⟨least, block, later, stored, successive ▸ laterStored, different, named⟩
    · rintro ⟨least, block, later, stored, laterStored, different, named⟩
      have member := (members number block).mpr ⟨least, stored⟩
      have above := least.trans (successor member).le
      exact ⟨block, member, (number + 1, later), (members _ _).mpr ⟨above, laterStored⟩, rfl,
        different, named⟩

theorem verify_requested_count (start : UInt64) (expected : Hash) (failed : List UInt64)
    (report : Report) :
    ∃ next, verifyRequested rust db chainId failed start expected report = .ok next ∧
      next.errors =
        report.errors + requestedDefects rust db chainId start failed (some expected) := by
  cases found : getBytes db chainId start with
  | none =>
      have missing : BlockDb.get rust.codec db chainId start = .ok none := by
        rw [BlockDb.get, found]
        rfl
      simp only [verifyRequested, requestedDefects, missing]
      exact ⟨_, rfl, rfl⟩
  | some data =>
      obtain ⟨block, decodes⟩ := decodable.decodes start data found
      have stored := get_eq_some.mpr ⟨data, found, decodes⟩
      simp only [verifyRequested, requestedDefects, stored]
      exact ⟨_, rfl, check_block_hash_count _ _ _ _ _ _ _⟩

theorem verify_rest_count (start : UInt64) (failed : List UInt64) (report : Report) :
    ∃ final, (do
        let _ ← (getRangesOfChainId db chainId).mapError VerifyError.database
        let state ← verifyLoop rust chainId failed never 0
          (iterate rust.codec db chainId start .forward) ⟨start, none, report⟩
        return state.report.write (conclusion chainId state.report.errors)) = .ok final ∧
      final.errors = report.errors + (misnumberedBlocks rust db chainId start).ncard +
        (unlinkedBlocks rust db chainId start failed).ncard := by
  obtain ⟨ranges, rangesRead, -⟩ := decodable.consistent.ranges chainId
  obtain ⟨state, looped, total⟩ := loop_counts_defects decodable start failed report
  refine ⟨state.report.write (conclusion chainId state.report.errors), ?_, total⟩
  rw [rangesRead, looped]
  rfl

/-- An uncancelled verification counts each misnumbered block, each unlinked pair of successive
blocks and a failed check of the requested block once, and nothing else. Without a start number
it begins at the first block and ignores the hash. -/
theorem verify_counts_defects {failed : List UInt64}
    (bundles : readFailedBundles rust db chainId = .ok failed) (start : UInt64)
    (expected : Option Hash) :
    (∃ report, verify rust db chainId (some start) expected never = .ok report ∧
      report.errors = (misnumberedBlocks rust db chainId start).ncard +
        (unlinkedBlocks rust db chainId start failed).ncard +
        requestedDefects rust db chainId start failed expected) ∧
    ∃ report, verify rust db chainId none expected never = .ok report ∧
      report.errors = (misnumberedBlocks rust db chainId 0).ncard +
        (unlinkedBlocks rust db chainId 0 failed).ncard := by
  have unrequested := fun first =>
    verify_rest_count decodable first failed (⟨0, false, []⟩ : Report)
  simp only [Nat.zero_add] at unrequested
  refine ⟨?_, ?_⟩
  · cases expected with
    | none =>
        obtain ⟨final, finished, count⟩ := unrequested start
        refine ⟨final, ?_, count⟩
        rw [verify, bundles]
        exact finished
    | some hash =>
        obtain ⟨checked, requested, defects⟩ := verify_requested_count decodable start hash failed
          ⟨0, false, []⟩
        obtain ⟨final, finished, count⟩ := verify_rest_count decodable start failed checked
        refine ⟨final, ?_, ?_⟩
        · exact bind_eq_ok.mpr ⟨failed, bundles, bind_eq_ok.mpr ⟨checked, requested, finished⟩⟩
        · rw [count, defects]
          dsimp only
          omega
  · obtain ⟨final, finished, count⟩ := unrequested 0
    refine ⟨final, ?_, count⟩
    rw [verify, bundles]
    exact finished

end Counting

theorem verify_counts_defects_of_two_blocks :
    ∃ db report, Decodable londonRust db 1 ∧
      BlockDb.get londonRust.codec db 1 1 = .ok (some londonChild) ∧
      verify londonRust db 1 (some 0) (some default) never = .ok report ∧
      report.errors = (misnumberedBlocks londonRust db 1 0).ncard +
        (unlinkedBlocks londonRust db 1 0 []).ncard +
        requestedDefects londonRust db 1 0 [] (some default) := by
  obtain ⟨db, reachable, genesisFound, childFound, noBundles, blocks⟩ := london_db_reachable
  have decodable : Decodable londonRust db 1 := by
    refine ⟨sound_known (reachable_sound reachable), reachable_metadata_consistent reachable, ?_⟩
    intro number data found
    rcases blocks number data found with ⟨-, rfl⟩ | ⟨-, rfl⟩
    · exact ⟨londonGenesis, london_genesis_decodes⟩
    · exact ⟨londonChild, london_child_decodes⟩
  have bundles : readFailedBundles londonRust db 1 = .ok [] := by rw [readFailedBundles, noBundles]
  obtain ⟨report, verified, count⟩ :=
    (verify_counts_defects decodable bundles 0 (some default)).1
  exact ⟨db, report, decodable, get_eq_some.mpr ⟨_, childFound, london_child_decodes⟩, verified,
    count⟩

end Bertha.VerifyCount
