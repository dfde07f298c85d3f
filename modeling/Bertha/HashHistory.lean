import Bertha.GethConvert
import Bertha.GoBlockDb
import Bertha.Ring

/-!
# Recent block hashes

`blockHashHistory` of `go/replay/replay.go` keeps the last 256 block hashes in a ring, and
`seedBlockHashHistory` fills it from the parent hashes stored in the block database when a
replay starts after the genesis block.
-/

namespace Bertha.HashHistory

open Bertha.GethConvert Bertha.GoBlockDb Bertha.Ring
open Bertha.BlockDb (KvDb)
open Bertha.BlockTypes (FixedBytes Hash)

set_option autoImplicit false

def blockHashHistoryLen : UInt64 := 256

structure BlockHashHistory where
  historicHashes : Slots 256 Hash

def BlockHashHistory.empty : BlockHashHistory := ⟨fun _ => FixedBytes.zero 32⟩

structure EvmHeader where
  number : Int
  hash : Hash
  parentHash : Hash

def getBlockHash (history : BlockHashHistory) (number : UInt64) : Hash :=
  readSlot history.historicHashes (number % blockHashHistoryLen).toNat

def setBlockHash (history : BlockHashHistory) (number : UInt64) (hash : Hash) :
    BlockHashHistory :=
  ⟨writeSlot history.historicHashes (number % blockHashHistoryLen).toNat hash⟩

/-- `Header`; its first argument is ignored. -/
def header (history : BlockHashHistory) (number : UInt64) : EvmHeader where
  number := number.toBitVec.toInt
  hash := getBlockHash history number
  parentHash := getBlockHash history (number - 1)

/-- The loop of `seedBlockHashHistory`, which counts the blocks it has used. -/
def seedBlocks (history : BlockHashHistory) (count : UInt64) :
    List (Except String ProtoBlock.Block) → BlockHashHistory × Except String UInt64
  | [] => (history, .ok count)
  | .error err :: _ =>
      (history, .error s!"failed to read block for hash history seeding: {err}")
  | .ok block :: rest =>
      if block.number = 0 then seedBlocks history count rest
      else
        seedBlocks
          (setBlockHash history (block.number - 1) (bytesToFixed 32 block.parentHash))
          (count + 1) rest

def seedStart (firstBlockToApply : UInt64) : UInt64 :=
  if firstBlockToApply > blockHashHistoryLen - 1 then
    firstBlockToApply - (blockHashHistoryLen - 1)
  else 1

def seedBlockHashHistory (codec : GoCodec) (blockDb : KvDb)
    (chainID firstBlockToApply : UInt64) (hashHistory : BlockHashHistory) :
    BlockHashHistory × Except String Unit :=
  if firstBlockToApply = 0 then (hashHistory, .ok ())
  else
    let start := seedStart firstBlockToApply
    let last := firstBlockToApply
    match seedBlocks hashHistory 0 (getRange codec blockDb chainID start last) with
    | (seeded, .error err) => (seeded, .error err)
    | (seeded, .ok count) =>
        let expected := last - start + 1
        if count ≠ expected then
          (seeded, .error
            s!"expected {expected} blocks in [{start}, {last}] for chain {chainID}, got {count}")
        else (seeded, .ok ())

theorem get_block_hash_eq (history : BlockHashHistory) (number : UInt64) :
    getBlockHash history number = readSlot history.historicHashes number.toNat := by
  have slot : Fin.ofNat 256 (number % blockHashHistoryLen).toNat = Fin.ofNat 256 number.toNat := by
    apply Fin.ext
    simp [blockHashHistoryLen, UInt64.toNat_mod]
  rw [getBlockHash, readSlot, slot]
  rfl

theorem set_block_hash_eq (history : BlockHashHistory) (number : UInt64) (hash : Hash) :
    (setBlockHash history number hash).historicHashes =
      writeSlot history.historicHashes number.toNat hash := by
  have slot : Fin.ofNat 256 (number % blockHashHistoryLen).toNat = Fin.ofNat 256 number.toNat := by
    apply Fin.ext
    simp [blockHashHistoryLen, UInt64.toNat_mod]
  rw [setBlockHash, writeSlot, slot]
  rfl

theorem ascending_length {numbers : List Nat} (sorted : numbers.Pairwise (· < ·)) {low high : Nat}
    (inside : ∀ number ∈ numbers, low ≤ number ∧ number < high) :
    numbers.length ≤ high - low := by
  induction numbers generalizing low with
  | nil => exact Nat.zero_le _
  | cons first rest ih =>
      rw [List.pairwise_cons] at sorted
      rw [List.forall_mem_cons] at inside
      have restInside : ∀ number ∈ rest, first + 1 ≤ number ∧ number < high := by
        intro number member
        exact ⟨sorted.1 number member, (inside.2 number member).2⟩
      have bound := ih sorted.2 restInside
      rw [List.length_cons]
      omega

theorem ascending_complete {numbers : List Nat} (sorted : numbers.Pairwise (· < ·)) {low : Nat}
    (inside : ∀ number ∈ numbers, low ≤ number ∧ number < low + numbers.length) :
    numbers = List.range' low numbers.length := by
  induction numbers generalizing low with
  | nil => rfl
  | cons first rest ih =>
      rw [List.pairwise_cons] at sorted
      rw [List.forall_mem_cons, List.length_cons] at inside
      have above : ∀ number ∈ rest, first + 1 ≤ number ∧ number < low + (rest.length + 1) := by
        intro number member
        exact ⟨sorted.1 number member, (inside.2 number member).2⟩
      have bound := ascending_length sorted.2 above
      have isLow : first = low := by omega
      have restInside : ∀ number ∈ rest, low + 1 ≤ number ∧ number < low + 1 + rest.length := by
        intro number member
        have limits := above number member
        omega
      rw [List.length_cons, List.range'_succ, ← ih sorted.2 restInside, isLow]

/-- The hash that a block of the range contributes: the one of its parent. -/
def parentHashes (history : BlockHashHistory) (blocks : List ProtoBlock.Block) :
    BlockHashHistory :=
  blocks.foldl (fun history block =>
    setBlockHash history (block.number - 1) (bytesToFixed 32 block.parentHash)) history

theorem seed_blocks_ok {history seeded : BlockHashHistory} {count total : UInt64}
    {results : List (Except String ProtoBlock.Block)}
    (positive : ∀ block, .ok block ∈ results → block.number ≠ 0)
    (finished : seedBlocks history count results = (seeded, .ok total)) :
    ∃ blocks, results = blocks.map .ok ∧ seeded = parentHashes history blocks ∧
      total = count + UInt64.ofNat blocks.length := by
  induction results generalizing history count with
  | nil =>
      rw [seedBlocks, Prod.mk.injEq, Except.ok.injEq] at finished
      refine ⟨[], rfl, finished.1.symm, ?_⟩
      rw [← finished.2]
      simp
  | cons result rest ih =>
      cases result with
      | error err => simp [seedBlocks] at finished
      | ok block =>
          rw [seedBlocks, if_neg (positive block List.mem_cons_self)] at finished
          obtain ⟨blocks, restEq, seededEq, totalEq⟩ :=
            ih (fun other member => positive other (List.mem_cons_of_mem _ member)) finished
          refine ⟨block :: blocks, by rw [restEq, List.map_cons], seededEq, ?_⟩
          rw [totalEq, List.length_cons, UInt64.ofNat_add, UInt64.add_assoc,
            UInt64.add_comm 1]
          rfl

theorem parent_hashes_window {history : BlockHashHistory} {blocks : List ProtoBlock.Block}
    {values : Nat → Hash} {low first : Nat}
    (window : Window history.historicHashes values low first)
    (numbers : blocks.map (fun block => block.number.toNat) =
      List.range' (first + 1) blocks.length)
    (hashes : ∀ block ∈ blocks,
      bytesToFixed 32 block.parentHash = values (block.number.toNat - 1)) :
    Window (parentHashes history blocks).historicHashes values
      (max low (first + blocks.length - 256)) (first + blocks.length) := by
  induction blocks generalizing history low first with
  | nil =>
      apply window.mono
      exact Nat.le_max_left _ _
  | cons block rest ih =>
      rw [List.map_cons, List.length_cons, List.range'_succ, List.cons.injEq] at numbers
      rw [List.forall_mem_cons] at hashes
      have previous : (block.number - 1).toNat = first := by
        rw [UInt64.toNat_sub_of_le]
        · rw [numbers.1]
          simp
        · rw [UInt64.le_iff_toNat_le, numbers.1]
          simp
      have extended : Window
          (setBlockHash history (block.number - 1)
            (bytesToFixed 32 block.parentHash)).historicHashes values
          (max low (first + 1 - 256)) (first + 1) := by
        rw [set_block_hash_eq, previous, hashes.1, numbers.1, Nat.add_sub_cancel]
        exact window.next
      have finished := ih extended numbers.2 hashes.2
      rw [List.length_cons]
      have sameEnd : first + (rest.length + 1) = first + 1 + rest.length := by omega
      rw [sameEnd]
      exact finished.mono (by omega)

theorem seed_start_toNat {first : UInt64} (positive : first ≠ 0) :
    1 ≤ (seedStart first).toNat ∧ (seedStart first).toNat ≤ first.toNat ∧
      (seedStart first).toNat = max 1 (first.toNat - 255) := by
  have notZero : first.toNat ≠ 0 := by
    intro zero
    exact positive (UInt64.toNat_inj.mp zero)
  rw [seedStart, blockHashHistoryLen]
  split
  · rename_i above
    have aboveNat : 255 < first.toNat := UInt64.lt_iff_toNat_lt.mp above
    have start : (first - (256 - 1)).toNat = first.toNat - 255 := by
      rw [UInt64.toNat_sub_of_le]
      · rfl
      · exact UInt64.le_iff_toNat_le.mpr aboveNat.le
    rw [start]
    omega
  · rename_i below
    have belowNat : first.toNat ≤ 255 := by
      by_contra above
      exact below (UInt64.lt_iff_toNat_lt.mpr (not_le.mp above))
    have one : (1 : UInt64).toNat = 1 := rfl
    rw [one]
    omega

/-- The parent hash that is stored in the block after `number`. -/
def storedParentHash (codec : GoCodec) (blockDb : KvDb) (chainID : UInt64) (number : Nat) : Hash :=
  match get codec blockDb chainID (UInt64.ofNat (number + 1)) with
  | .ok (some block) => bytesToFixed 32 block.parentHash
  | _ => FixedBytes.zero 32

section Seeding

variable {codec : GoCodec} {blockDb : KvDb} {chainID firstBlockToApply : UInt64}
variable {history seeded : BlockHashHistory}

theorem decoded_numbers {items : List (UInt64 × BigEndian.Bytes)} {blocks : List ProtoBlock.Block}
    (decoded : items.map (fun item => codec.unmarshal item.2) = blocks.map .ok)
    (numbered : ∀ item ∈ items, ∀ block, codec.unmarshal item.2 = .ok block →
      block.number = item.1) :
    blocks.map (fun block => block.number) = items.map fun item => item.1 := by
  induction items generalizing blocks with
  | nil =>
      rw [List.map_eq_nil_iff.mp decoded.symm]
      rfl
  | cons item rest ih =>
      rw [List.forall_mem_cons] at numbered
      cases blocks with
      | nil => cases decoded
      | cons block others =>
          rw [List.map_cons, List.map_cons, List.cons.injEq] at decoded
          rw [List.map_cons, List.map_cons, ih decoded.2 numbered.2,
            numbered.1 block decoded.1]

theorem mem_get_range {first last : UInt64} {block : ProtoBlock.Block}
    (numbered : ∀ number data block, blockDb[makeBlockKey chainID number]? = some data →
      codec.unmarshal data = .ok block → block.number = number)
    (member : .ok block ∈ getRange codec blockDb chainID first last) :
    first ≤ block.number ∧ block.number ≤ last ∧
      get codec blockDb chainID block.number = .ok (some block) := by
  obtain ⟨items, _, inside, yielded⟩ := get_range_items codec blockDb chainID first last
  rw [yielded] at member
  obtain ⟨item, itemMember, decoded⟩ := List.mem_map.mp member
  obtain ⟨stored, above, below⟩ := inside item itemMember
  rw [numbered item.1 item.2 block stored decoded]
  refine ⟨above, below, ?_⟩
  rw [GoBlockDb.get, stored]
  simp only [Option.mapM_some, decoded]
  rfl

theorem get_range_ascending {first last : UInt64} {blocks : List ProtoBlock.Block}
    (numbered : ∀ number data block, blockDb[makeBlockKey chainID number]? = some data →
      codec.unmarshal data = .ok block → block.number = number)
    (read : getRange codec blockDb chainID first last = blocks.map .ok) :
    (blocks.map (fun block => block.number.toNat)).Pairwise (· < ·) := by
  obtain ⟨items, sorted, inside, yielded⟩ := get_range_items codec blockDb chainID first last
  have readBlock : ∀ item ∈ items, ∀ block, codec.unmarshal item.2 = .ok block →
      block.number = item.1 := by
    intro item member block decoded
    exact numbered item.1 item.2 block (inside item member).1 decoded
  have numbers := congrArg (List.map UInt64.toNat)
    (decoded_numbers (yielded.symm.trans read) readBlock)
  rw [List.map_map, List.map_map] at numbers
  rw [show blocks.map (fun block => block.number.toNat) = _ from numbers, List.pairwise_map]
  exact sorted.imp fun below => UInt64.lt_iff_toNat_lt.mp below

/-- At most 256 blocks are counted, so neither side of the comparison wraps around. -/
theorem seed_count_exact {start last : UInt64} {count : Nat} (below : start ≤ last)
    (narrow : last.toNat - start.toNat < 256) (atMost : count ≤ last.toNat + 1 - start.toNat)
    (counted : 0 + UInt64.ofNat count = last - start + 1) :
    start.toNat + count = last.toNat + 1 := by
  have belowNat := UInt64.le_iff_toNat_le.mp below
  have equal := congrArg UInt64.toNat counted
  rw [UInt64.toNat_add, UInt64.toNat_add, UInt64.toNat_ofNat',
    UInt64.toNat_sub_of_le _ _ below] at equal
  simp only [UInt64.reduceToNat] at equal
  omega

/-- A run of the loop that has counted every number of the range has read every block. -/
theorem seeded_blocks
    (numbered : ∀ number data block, blockDb[makeBlockKey chainID number]? = some data →
      codec.unmarshal data = .ok block → block.number = number)
    (positive : firstBlockToApply ≠ 0)
    (seeding : seedBlockHashHistory codec blockDb chainID firstBlockToApply history =
      (seeded, .ok ())) :
    ∃ blocks, seeded = parentHashes history blocks ∧
      blocks.map (fun block => block.number.toNat) =
        List.range' (seedStart firstBlockToApply).toNat blocks.length ∧
      (seedStart firstBlockToApply).toNat + blocks.length = firstBlockToApply.toNat + 1 ∧
      ∀ block ∈ blocks, get codec blockDb chainID block.number = .ok (some block) := by
  obtain ⟨startPositive, startBelow, startEq⟩ := seed_start_toNat positive
  simp only [seedBlockHashHistory, if_neg positive] at seeding
  split at seeding
  · simp at seeding
  · rename_i total counted
    split at seeding
    · simp at seeding
    · rename_i expected
      rw [Prod.mk.injEq] at seeding
      rw [seeding.1] at counted
      have positiveBlocks : ∀ block, .ok block ∈ getRange codec blockDb chainID
          (seedStart firstBlockToApply) firstBlockToApply → block.number ≠ 0 := by
        intro block member zero
        have above := UInt64.le_iff_toNat_le.mp (mem_get_range numbered member).1
        rw [zero, UInt64.toNat_zero] at above
        omega
      obtain ⟨blocks, read, seededEq, totalEq⟩ := seed_blocks_ok positiveBlocks counted
      have stored : ∀ block ∈ blocks, seedStart firstBlockToApply ≤ block.number ∧
          block.number ≤ firstBlockToApply ∧
          get codec blockDb chainID block.number = .ok (some block) := by
        intro block member
        apply mem_get_range numbered
        rw [read]
        exact List.mem_map.mpr ⟨block, member, rfl⟩
      have ascending := get_range_ascending numbered read
      have between : ∀ number ∈ blocks.map (fun block => block.number.toNat),
          (seedStart firstBlockToApply).toNat ≤ number ∧
            number < firstBlockToApply.toNat + 1 := by
        intro number member
        obtain ⟨block, blockMember, numberEq⟩ := List.mem_map.mp member
        obtain ⟨above, below, _⟩ := stored block blockMember
        rw [← numberEq]
        exact ⟨UInt64.le_iff_toNat_le.mp above,
          Nat.lt_succ_of_le (UInt64.le_iff_toNat_le.mp below)⟩
      have atMost := ascending_length ascending between
      rw [List.length_map] at atMost
      have complete := seed_count_exact (UInt64.le_iff_toNat_le.mpr startBelow) (by omega) atMost
        (totalEq.symm.trans (not_not.mp expected))
      refine ⟨blocks, seededEq, ?_, complete, fun block member => (stored block member).2.2⟩
      have range := ascending_complete ascending (by
        rw [List.length_map, complete]
        exact between)
      rwa [List.length_map] at range

theorem stored_parent_hash_eq {block : ProtoBlock.Block} (positive : 1 ≤ block.number.toNat)
    (stored : get codec blockDb chainID block.number = .ok (some block)) :
    storedParentHash codec blockDb chainID (block.number.toNat - 1) =
      bytesToFixed 32 block.parentHash := by
  rw [storedParentHash, Nat.sub_add_cancel positive, UInt64.ofNat_toNat, stored]

theorem seeded_window
    (numbered : ∀ number data block, blockDb[makeBlockKey chainID number]? = some data →
      codec.unmarshal data = .ok block → block.number = number)
    (positive : firstBlockToApply ≠ 0)
    (seeding : seedBlockHashHistory codec blockDb chainID firstBlockToApply history =
      (seeded, .ok ())) :
    Window seeded.historicHashes (storedParentHash codec blockDb chainID)
      (firstBlockToApply.toNat - 256) firstBlockToApply.toNat := by
  obtain ⟨startPositive, _, startEq⟩ := seed_start_toNat positive
  obtain ⟨blocks, seededEq, numbers, complete, stored⟩ :=
    seeded_blocks numbered positive seeding
  have nothing : Window history.historicHashes (storedParentHash codec blockDb chainID)
      ((seedStart firstBlockToApply).toNat - 1) ((seedStart firstBlockToApply).toNat - 1) := by
    intro position above below
    omega
  have hashes : ∀ block ∈ blocks, bytesToFixed 32 block.parentHash =
      storedParentHash codec blockDb chainID (block.number.toNat - 1) := by
    intro block member
    have inRange : block.number.toNat ∈
        List.range' (seedStart firstBlockToApply).toNat blocks.length := by
      rw [← numbers]
      exact List.mem_map.mpr ⟨block, member, rfl⟩
    have above := (List.mem_range'_1.mp inRange).1
    exact (stored_parent_hash_eq (by omega) (stored block member)).symm
  have filled := parent_hashes_window nothing
    (by rw [Nat.sub_add_cancel startPositive]; exact numbers) hashes
  have last : (seedStart firstBlockToApply).toNat - 1 + blocks.length =
      firstBlockToApply.toNat := by omega
  rw [seededEq]
  rw [last] at filled
  exact filled.mono (by omega)

theorem seeded_stored
    (numbered : ∀ number data block, blockDb[makeBlockKey chainID number]? = some data →
      codec.unmarshal data = .ok block → block.number = number)
    (seeding : seedBlockHashHistory codec blockDb chainID firstBlockToApply history =
      (seeded, .ok ()))
    {number : UInt64} (above : firstBlockToApply.toNat ≤ number.toNat + 256)
    (below : number < firstBlockToApply) :
    ∃ block, get codec blockDb chainID (number + 1) = .ok (some block) ∧
      getBlockHash seeded number = bytesToFixed 32 block.parentHash := by
  have belowNat := UInt64.lt_iff_toNat_lt.mp below
  have positive : firstBlockToApply ≠ 0 := by
    intro zero
    rw [zero, UInt64.toNat_zero] at belowNat
    omega
  obtain ⟨startPositive, _, startEq⟩ := seed_start_toNat positive
  obtain ⟨blocks, _, numbers, complete, stored⟩ := seeded_blocks numbered positive seeding
  have window := seeded_window numbered positive seeding
  have next : (number + 1).toNat = number.toNat + 1 := by
    have bound := firstBlockToApply.toNat_lt
    rw [UInt64.toNat_add]
    simp only [UInt64.reduceToNat]
    omega
  have inRange : (number + 1).toNat ∈ blocks.map fun block => block.number.toNat := by
    rw [numbers, List.mem_range'_1, next]
    omega
  obtain ⟨block, member, numberEq⟩ := List.mem_map.mp inRange
  have isNext : block.number = number + 1 := UInt64.toNat_inj.mp numberEq
  have storedBlock := stored block member
  have parent := stored_parent_hash_eq (by omega) storedBlock
  refine ⟨block, by rw [← isNext]; exact storedBlock, ?_⟩
  rw [get_block_hash_eq, window number.toNat (by omega) belowNat, ← parent, isNext, next,
    Nat.add_sub_cancel]

end Seeding

end Bertha.HashHistory
