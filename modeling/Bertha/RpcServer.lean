import Bertha.BlockIteration

/-!
# The block server

The `list` and `get_block_range` endpoints of `blockservice/src/grpc/server.rs` over a
block database that does not change while a request is served. A stream is the list of
its messages; the channel between the sending task and the connection only delays them.
Whatever store is served, each streamed block is a stored one within the requested range.
-/

namespace Bertha.RpcServer

open Bertha.BigEndian Bertha.BlockDb Bertha.BlockDbInvariant Bertha.BlockIteration
open Bertha.BlockRanges Bertha.Conversion Bertha.IntervalList Bertha.OrderedStore
open Bertha.BlockTypes (Error)

set_option autoImplicit false

inductive Code where
  | invalidArgument
  | internal
  | other (value : Nat)
deriving DecidableEq, Repr

structure Status where
  code : Code
  message : String
deriving DecidableEq, Repr

structure ChainListing where
  chainId : UInt64
  blockRanges : List BlockRange
  hasRulesUpdateHeights : Bool
  hasCorrections : Bool
deriving DecidableEq, Repr

structure BlockRangeRequest where
  chainId : UInt64
  first : UInt64
  last : UInt64
deriving DecidableEq, Repr

structure EncodedBlock where
  data : Bytes
  number : UInt64
deriving DecidableEq, Repr

def errorText : Error → String
  | .storageLayer message => s!"error in underlying storage layer: {message}"
  | .protobuf description => s!"error during protobuf decoding: {description}"
  | .typeConversion => "conversion from generic representation to Rust type failed"

def chainListing (db : KvDb) (chainId : UInt64) : Except Error ChainListing := do
  let ranges ← getRangesOfChainId db chainId
  return {
    chainId := chainId
    blockRanges := ranges
    hasRulesUpdateHeights := (getRulesUpdateHeights db chainId).isSome
    hasCorrections := (getCorrections db chainId).isSome }

def list (db : KvDb) (chainId : Option UInt64) : Except Status (List ChainListing) :=
  let chainIds := match chainId with
    | some chainId => .ok [chainId]
    | none => getChainIds db
  match chainIds >>= List.mapM (chainListing db) with
  | .ok chainListings => .ok chainListings
  | .error failure => .error ⟨.internal, errorText failure⟩

/-- The sending task of `get_block_range` over the items of the iteration. -/
def sendBlocks (last : UInt64) :
    List (Except Error (UInt64 × Bytes)) → List (Except Status EncodedBlock)
  | [] => []
  | .ok (number, block) :: rest =>
      if number > last then [] else .ok ⟨block, number⟩ :: sendBlocks last rest
  | .error failure :: _ => [.error ⟨.internal, errorText failure⟩]

def getBlockRange (db : KvDb) (request : BlockRangeRequest) :
    Except Status (List (Except Status EncodedBlock)) :=
  if request.first > request.last then
    .error ⟨.invalidArgument, "Invalid block range: 'from' must be less than or equal to 'to'"⟩
  else .ok (sendBlocks request.last (iterateBytes db request.chainId request.first .forward))

theorem list_of_chain {db : KvDb} {chainId : UInt64} {ranges : List BlockRange}
    (read : getRangesOfChainId db chainId = .ok ranges) :
    ∃ listing, list db (some chainId) = .ok [listing] ∧ listing.chainId = chainId ∧
      listing.blockRanges = ranges := by
  refine ⟨⟨chainId, ranges, (getRulesUpdateHeights db chainId).isSome,
    (getCorrections db chainId).isSome⟩, ?_, rfl, rfl⟩
  simp only [list, chainListing, read, List.mapM_cons, List.mapM_nil, bind, Except.bind, pure,
    Except.pure]

theorem send_blocks_sound {last : UInt64} {items : List (Except Error (UInt64 × Bytes))}
    {block : EncodedBlock} (sent : .ok block ∈ sendBlocks last items) :
    .ok (block.number, block.data) ∈ items ∧ block.number ≤ last := by
  induction items with
  | nil => simp [sendBlocks] at sent
  | cons item rest ih =>
      match item with
      | .error failure => simp [sendBlocks] at sent
      | .ok (number, data) =>
          simp only [sendBlocks] at sent
          split_ifs at sent with beyond
          · simp at sent
          · rcases List.mem_cons.mp sent with same | later
            · cases same
              exact ⟨List.mem_cons_self, not_lt.mp beyond⟩
            · exact ⟨List.mem_cons_of_mem _ (ih later).1, (ih later).2⟩

/-- Every block of a stream is stored under its number, which the request covers. -/
theorem get_block_range_sound {db : KvDb} {request : BlockRangeRequest}
    {messages : List (Except Status EncodedBlock)}
    (served : getBlockRange db request = .ok messages) {block : EncodedBlock}
    (sent : .ok block ∈ messages) :
    getBytes db request.chainId block.number = some block.data ∧ block.number ≤ request.last := by
  unfold getBlockRange at served
  split_ifs at served
  cases served
  obtain ⟨item, within⟩ := send_blocks_sound sent
  exact ⟨iterate_bytes_stored item, within⟩

private theorem send_blocks_sorted {last : UInt64} {items : List (UInt64 × Bytes)}
    (sorted : items.Pairwise (fun earlier later => earlier.1 < later.1)) :
    sendBlocks last (items.map .ok) =
      ((items.filter fun item => item.1 ≤ last).map fun item => ⟨item.2, item.1⟩).map .ok := by
  induction items with
  | nil => rfl
  | cons item rest ih =>
      obtain ⟨headBelow, tailSorted⟩ := List.pairwise_cons.mp sorted
      rw [List.map_cons, sendBlocks]
      split_ifs with beyond
      · have stopped : (item :: rest).filter (fun item => decide (item.1 ≤ last)) = [] := by
          rw [List.filter_eq_nil_iff]
          intro later member
          rcases List.mem_cons.mp member with rfl | member
          · simpa using beyond
          · simpa using beyond.trans (headBelow later member)
        rw [stopped]
        rfl
      · rw [ih tailSorted, List.filter_cons_of_pos (by simpa using beyond)]
        rfl

/-- The stream of a reachable store is exactly the stored part of the requested range. -/
theorem get_block_range_exact {db : KvDb} (sound : Sound db) (chain : UInt64)
    {first last : UInt64} (ordered : first ≤ last) :
    ∃ blocks : List EncodedBlock, getBlockRange db ⟨chain, first, last⟩ = .ok (blocks.map .ok) ∧
      blocks.Pairwise (fun earlier later => earlier.number < later.number) ∧
      ∀ block, block ∈ blocks ↔ getBytes db chain block.number = some block.data ∧
        first ≤ block.number ∧ block.number ≤ last := by
  obtain ⟨items, iterated, sorted, members⟩ := iterate_bytes_forward (sound_known sound) chain first
  refine ⟨(items.filter fun item => item.1 ≤ last).map fun item => ⟨item.2, item.1⟩, ?_, ?_, ?_⟩
  · rw [getBlockRange, if_neg ordered.not_gt, iterated, send_blocks_sorted sorted]
  · exact List.pairwise_map.mpr (sorted.sublist List.filter_sublist)
  · rintro ⟨data, number⟩
    simp only [List.mem_map, List.mem_filter, Prod.exists, EncodedBlock.mk.injEq, members,
      decide_eq_true_eq]
    constructor
    · rintro ⟨_, _, ⟨⟨found, lower⟩, upper⟩, rfl, rfl⟩
      exact ⟨found, lower, upper⟩
    · rintro ⟨found, lower, upper⟩
      exact ⟨number, data, ⟨⟨found, lower⟩, upper⟩, rfl, rfl⟩

end Bertha.RpcServer
