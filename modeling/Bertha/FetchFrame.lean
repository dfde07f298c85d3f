import Bertha.Fetch

/-!
# What a fetch leaves alone

A streamed block is stored before the length of the stream is checked, so the in-order
messages behind the end of a request are stored as well. These messages decide whether a
fetch keeps its hands off the blocks it did not ask for, and the main result says exactly
when it does, for every local store, every request and every server.
-/

namespace Bertha.FetchFrame

open Bertha.BigEndian Bertha.BlockDb Bertha.BlockDbContents Bertha.BlockDbContents.Contents
open Bertha.BlockDbInvariant Bertha.BlockKeys Bertha.BlockRanges Bertha.Fetch
open Bertha.IntervalList Bertha.OrderedStore
open Bertha.RpcServer (ChainListing BlockRangeRequest EncodedBlock Status)

set_option autoImplicit false

def requestedRanges (server : Server) (db : KvDb) (chainId : UInt64)
    (fromBlock toBlock : Option UInt64) : List BlockRange :=
  match planFetch server db chainId fromBlock toBlock with
  | .error _ => []
  | .ok rangesToFetch => rangesToFetch

/-- The in-order messages of the reached streams behind the end of their requests. -/
def overruns (server : Server) (chainId : UInt64) (ranges : List BlockRange) :
    List EncodedBlock :=
  (reached server chainId 0 ranges).flatMap fun stream =>
    stream.2.drop (stream.1.stop.toNat - stream.1.start.toNat + 1)

section Requested

variable {server : Server} {chainId : UInt64} {ranges : List BlockRange}
  (inhabited : ∀ range ∈ ranges, range.start ≤ range.stop)

include inhabited

theorem taken_requested {range : BlockRange} {blocks : List EncodedBlock}
    (member : (range, blocks) ∈ reached server chainId 0 ranges) {block : EncodedBlock}
    (taken : block ∈ blocks.take (range.stop.toNat - range.start.toNat + 1)) :
    block.number ∈ denote ranges := by
  obtain ⟨rangeMember, later, messages, -, rfl⟩ := mem_reached member
  obtain ⟨index, read⟩ := List.mem_iff_getElem?.mp taken
  rw [List.getElem?_take] at read
  split_ifs at read with below
  have ordered := inhabited range rangeMember
  have number := in_order_within ordered read (by omega)
  have orderedNat := UInt64.le_iff_toNat_le.mp ordered
  refine ⟨range, rangeMember, ?_, ?_⟩
  · rw [UInt64.le_iff_toNat_le, number]
    omega
  · rw [UInt64.le_iff_toNat_le, number]
    omega

theorem last_write_overruns {number : UInt64} (outside : number ∉ denote ranges) :
    lastWrite (writesOf chainId (reached server chainId 0 ranges)) chainId number =
      lastWrite ((overruns server chainId ranges).map (toWrite chainId)) chainId number := by
  unfold lastWrite
  refine congrArg (fun writes => (List.getLast? writes).map BlockWrite.data) ?_
  rw [writesOf, overruns, List.map_flatMap, List.filter_flatMap, List.filter_flatMap]
  apply List.flatMap_congr
  rintro ⟨range, blocks⟩ member
  have taken : ((blocks.take (range.stop.toNat - range.start.toNat + 1)).map
      (toWrite chainId)).filter
        (fun write => write.chainId = chainId ∧ write.blockNumber = number) = [] := by
    rw [List.filter_eq_nil_iff]
    intro write written
    obtain ⟨block, blockMember, rfl⟩ := List.mem_map.mp written
    have requested := taken_requested inhabited member blockMember
    intro own
    have same : block.number = number := by simpa [toWrite] using own
    exact outside (same ▸ requested)
  calc ((blocks.map (toWrite chainId)).filter _)
      = (((blocks.take (range.stop.toNat - range.start.toNat + 1)) ++
          (blocks.drop (range.stop.toNat - range.start.toNat + 1))).map
            (toWrite chainId)).filter _ := by rw [List.take_append_drop]
    _ = _ := by rw [List.map_append, List.filter_append, taken, List.nil_append]

end Requested

theorem last_write_other_chain {chainId other : UInt64} (different : other ≠ chainId)
    (streams : List (BlockRange × List EncodedBlock)) (number : UInt64) :
    lastWrite (writesOf chainId streams) other number = none := by
  cases found : lastWrite (writesOf chainId streams) other number with
  | none => rfl
  | some data =>
      obtain ⟨stream, -, inStream⟩ := List.mem_flatMap.mp (last_write_mem found)
      obtain ⟨block, -, same⟩ := List.mem_map.mp inStream
      exact absurd (congrArg BlockWrite.chainId same).symm different

theorem or_eq_right_iff {Value : Type} {first second : Option Value} :
    first.or second = second ↔ ∀ value, first = some value → second = some value := by
  cases first with
  | none => simp
  | some value => simp [eq_comm]

/-- A fetch leaves every block outside the ranges it asked for as it was if and only if the
last message that any stream delivers behind the end of its request under such a number
carries the bytes already stored there, or no block can be stored at all because the chain
list does not decode. -/
theorem fetch_keeps_unrequested_iff (server : Server) (db : KvDb) (chainId : UInt64)
    (fromBlock toBlock : Option UInt64) :
    (∀ chain number,
      ¬ (chain = chainId ∧
        number ∈ denote (requestedRanges server db chainId fromBlock toBlock)) →
      getBytes (fetch server db chainId fromBlock toBlock).1 chain number =
        getBytes db chain number) ↔
    ((∃ failure, getChainIds db = .error failure) ∨
      ∀ number data,
        number ∉ denote (requestedRanges server db chainId fromBlock toBlock) →
        lastWrite ((overruns server chainId
            (requestedRanges server db chainId fromBlock toBlock)).map (toWrite chainId))
          chainId number = some data →
        getBytes db chainId number = some data) := by
  unfold fetch requestedRanges
  cases planned : planFetch server db chainId fromBlock toBlock with
  | error failure => simp [overruns, reached, lastWrite]
  | ok ranges =>
      obtain ⟨remote, localRanges, -, rangesRead, ordered, rfl, -⟩ := plan_fetch_ok.mp planned
      have inhabited := subtract_ranges_inhabited
        ⟨fromBlock.getD 0, toBlock.getD (lastRemoteBlock remote)⟩ localRanges ordered
      dsimp only
      cases idsRead : getChainIds db with
      | error failure =>
          rw [download_unreadable idsRead]
          simp
      | ok chainIds =>
          have stored := download_stores server
            ⟨⟨chainIds, idsRead⟩, ⟨localRanges, rangesRead⟩⟩ 0
            (subtractRanges ⟨fromBlock.getD 0, toBlock.getD (lastRemoteBlock remote)⟩ localRanges)
          simp only [get_bytes_put_all stored, or_eq_right_iff, reduceCtorEq, exists_false,
            false_or]
          constructor
          · intro kept number data outside overrun
            refine kept chainId number (fun inside => outside inside.2) data ?_
            rw [last_write_overruns inhabited outside, overrun]
          · intro harmless chain number outside data written
            by_cases own : chain = chainId
            · subst own
              have unrequested : number ∉ _ := fun inside => outside ⟨rfl, inside⟩
              rw [last_write_overruns inhabited unrequested] at written
              exact harmless number data unrequested written
            · rw [last_write_other_chain own] at written
              cases written

def overrunningServer : Server where
  list _ := .ok [⟨1, [⟨0, 1⟩], false, false⟩]
  getBlockRange _ _ := .ok [.ok ⟨[0xb0], 0⟩, .ok ⟨[0xb1], 1⟩]

/-- Asked for block 0 alone, this server's second message replaces the stored block 1. -/
theorem fetch_overwrites_stored_block :
    ∃ db : KvDb, putBytes freshDb 1 1 [0xa1] = .ok db ∧
      requestedRanges overrunningServer db 1 (some 0) (some 0) = [⟨0, 0⟩] ∧
      getBytes db 1 1 = some [0xa1] ∧
      getBytes (fetch overrunningServer db 1 (some 0) (some 0)).1 1 1 = some [0xb1] := by
  obtain ⟨db, stored, reachable, found⟩ := put_bytes_reachable
    (fresh_reachable ⟨fun _ => [], fun _ => .error ""⟩) 1 1 [0xa1] (by decide)
  have rangesRead : getRangesOfChainId db 1 = .ok [⟨1, 1⟩] :=
    get_ranges_put_bytes stored (fresh_get_ranges 1)
  have idsRead := get_chain_ids_put_bytes stored fresh_get_chain_ids
  have planned : planFetch overrunningServer db 1 (some 0) (some 0) = .ok [⟨0, 0⟩] :=
    plan_fetch_ok.mpr ⟨[⟨0, 1⟩], [⟨1, 1⟩], by decide, rangesRead, by decide, by decide, by decide⟩
  have downloaded := download_stores overrunningServer
    ⟨⟨_, idsRead⟩, ⟨_, rangesRead⟩⟩ 0 [⟨0, 0⟩]
  refine ⟨db, stored, ?_, found, ?_⟩
  · rw [requestedRanges, planned]
  · rw [fetch, planned]
    rw [get_bytes_put_all downloaded]
    rfl

end Bertha.FetchFrame
