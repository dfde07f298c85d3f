import Bertha.BlockIteration

/-!
# The block database as Go reads it

`go/blockdb/block_db.go`: point queries, the two range scans and the raw metadata
entries, on the byte store that the Rust service writes. `Seek` positions at the first
key that is not below the given one and `SeekForPrev` at the last that is not above.
The wire codec of Go is a parameter. A scan stops at the first key that is not a block
of the chain inside the limits, and that stop is shown to agree with the Rust iteration.
-/

namespace Bertha.GoBlockDb

open Bertha.BigEndian Bertha.BlockDb Bertha.BlockDbContents Bertha.BlockDbInvariant
open Bertha.BlockIteration Bertha.OrderedStore
open Bertha.BlockKeys (toBeBytes fromBeBytes)
open Bertha.BlockTypes (Block Error)

set_option autoImplicit false

structure GoCodec where
  marshal : ProtoBlock.Block → Except String Bytes
  unmarshal : Bytes → Except String ProtoBlock.Block

def makeRulesUpdateHeightsKey (chainId : UInt64) : Bytes :=
  0x01 :: (toBeBytes chainId ++ [0x01])

def makeCorrectionsKey (chainId : UInt64) : Bytes := 0x01 :: (toBeBytes chainId ++ [0x02])

def makeFailedBundlesKey (chainId : UInt64) : Bytes := 0x01 :: (toBeBytes chainId ++ [0x03])

def makeBlockKey (chainId blockNumber : UInt64) : Bytes :=
  0x02 :: (toBeBytes chainId ++ toBeBytes blockNumber)

def get (codec : GoCodec) (db : KvDb) (chainId blockNumber : UInt64) :
    Except String (Option ProtoBlock.Block) :=
  db[makeBlockKey chainId blockNumber]?.mapM codec.unmarshal

/-- `RocksDB.Update`, which writes the block and no metadata. -/
def update (codec : GoCodec) (db : KvDb) (chainId : UInt64) (block : ProtoBlock.Block) :
    Except String KvDb := do
  let value ← codec.marshal block
  return applyOp db (.put (makeBlockKey chainId block.number) value)

def getRulesUpdateHeights (db : KvDb) (chainId : UInt64) : Option Bytes :=
  db[makeRulesUpdateHeightsKey chainId]?

def putRulesUpdateHeights (db : KvDb) (chainId : UInt64) (data : Bytes) : KvDb :=
  applyOp db (.put (makeRulesUpdateHeightsKey chainId) data)

def getCorrections (db : KvDb) (chainId : UInt64) : Option Bytes :=
  db[makeCorrectionsKey chainId]?

def getFailedBundles (db : KvDb) (chainId : UInt64) : Option Bytes :=
  db[makeFailedBundlesKey chainId]?

/-- The body of both range loops; `keep` is the limit on the block number. -/
def scan (codec : GoCodec) (chainId : UInt64) (keep : UInt64 → Bool) :
    List (Bytes × Bytes) → List (Except String ProtoBlock.Block)
  | [] => []
  | (key, value) :: rest =>
      if key.length ≠ 17 ∨ key[0]? ≠ some 0x02 then []
      else
        let keyChainId := fromBeBytes ((key.drop 1).take 8)
        let keyBlockNumber := fromBeBytes ((key.drop 9).take 8)
        if keyChainId ≠ chainId ∨ keep keyBlockNumber = false then []
        else codec.unmarshal value :: scan codec chainId keep rest

def getRange (codec : GoCodec) (db : KvDb) (chainId startBlockNumber endBlockNumber : UInt64) :
    List (Except String ProtoBlock.Block) :=
  scan codec chainId (fun number => !(decide (number > endBlockNumber)))
    (iterateFrom db (makeBlockKey chainId startBlockNumber) .forward)

def getRangeRev (codec : GoCodec) (db : KvDb) (chainId startBlockNumber endBlockNumber : UInt64) :
    List (Except String ProtoBlock.Block) :=
  scan codec chainId (fun number => !(decide (number < startBlockNumber)))
    (iterateFrom db (makeBlockKey chainId endBlockNumber) .reverse)

theorem make_block_key_eq (chain number : UInt64) :
    makeBlockKey chain number = BlockKeys.makeBlockKey chain number := rfl

/-- A scan stops where the Rust iteration stops, or before at its own limit. -/
theorem scan_eq (codec : GoCodec) (chain : UInt64) (keep : UInt64 → Bool)
    {entries : List (Bytes × Bytes)} {items : List (UInt64 × Bytes)}
    (read : takeUntilStop (entries.map (readEntry chain)) = items.map .ok) :
    scan codec chain keep entries =
      (items.takeWhile fun item => keep item.1).map fun item => codec.unmarshal item.2 := by
  induction entries generalizing items with
  | nil =>
      rw [List.map_nil, takeUntilStop] at read
      rw [List.map_eq_nil_iff.mp read.symm]
      rfl
  | cons entry rest ih =>
      obtain ⟨key, value⟩ := entry
      rw [List.map_cons] at read
      rw [scan]
      by_cases block : key.length = 17 ∧ key[0]? = some 0x02
      · have valid : ¬ (key.length ≠ 17 ∨ key[0]? ≠ some 0x02) := by simpa using block
        have readBlock : readEntry chain (key, value) =
            if fromBeBytes ((key.drop 1).take 8) ≠ chain then none
            else some (.ok (fromBeBytes ((key.drop 9).take 8), value)) := by
          simp only [readEntry]
          rw [if_neg (by omega), if_neg valid]
        rw [if_neg valid]
        dsimp only
        by_cases own : fromBeBytes ((key.drop 1).take 8) = chain
        · rw [readBlock, if_neg (not_not.mpr own), takeUntilStop] at read
          cases items with
          | nil => cases read
          | cons item items =>
              rw [List.map_cons, List.cons.injEq, Except.ok.injEq] at read
              rw [← read.1, List.takeWhile_cons]
              cases kept : keep (fromBeBytes ((key.drop 9).take 8)) with
              | false => simp
              | true =>
                  rw [if_neg (by simpa using own), ih read.2]
                  rfl
        · rw [readBlock, if_pos own, takeUntilStop] at read
          rw [List.map_eq_nil_iff.mp read.symm, if_pos (.inl own)]
          rfl
      · have foreign : key.length ≠ 17 ∨ key[0]? ≠ some 0x02 := by
          rw [← not_and_or]
          exact block
        rw [if_pos foreign]
        by_cases metadata : key.length = 2 ∨ key.length = 10
        · have stopped : readEntry chain (key, value) = none := by
            simp only [readEntry, if_pos metadata]
          rw [stopped, takeUntilStop] at read
          rw [List.map_eq_nil_iff.mp read.symm]
          rfl
        · have failed : readEntry chain (key, value) =
              some (.error (.storageLayer s!"unexpected key {key}")) := by
            simp only [readEntry, if_neg metadata, if_pos foreign]
          rw [failed, takeUntilStop] at read
          cases items with
          | nil => cases read
          | cons item items => simp at read

/-- Whatever else the database holds, a scan reads leading entries that are blocks of the
chain inside the limit. -/
theorem scan_items (codec : GoCodec) (chain : UInt64) (keep : UInt64 → Bool)
    (entries : List (Bytes × Bytes)) :
    ∃ items : List (UInt64 × Bytes),
      (items.map fun item => (makeBlockKey chain item.1, item.2)).Sublist entries ∧
      (∀ item ∈ items, keep item.1 = true) ∧
      scan codec chain keep entries = items.map fun item => codec.unmarshal item.2 := by
  induction entries with
  | nil => exact ⟨[], by simp [scan]⟩
  | cons entry rest ih =>
      obtain ⟨key, value⟩ := entry
      rw [scan]
      split
      · exact ⟨[], by simp⟩
      · rename_i block
        dsimp only
        split
        · exact ⟨[], by simp⟩
        · rename_i inside
          obtain ⟨items, taken, kept, scanned⟩ := ih
          have parts : key.length = 17 ∧ key[0]? = some 0x02 := by simpa using block
          have own : fromBeBytes ((key.drop 1).take 8) = chain ∧
              keep (fromBeBytes ((key.drop 9).take 8)) = true := by simpa using inside
          have keyEq : makeBlockKey chain (fromBeBytes ((key.drop 9).take 8)) = key := by
            rw [← own.1]
            exact BlockKeys.make_block_key_of_parts parts.1 parts.2
          refine ⟨(fromBeBytes ((key.drop 9).take 8), value) :: items, ?_, ?_, ?_⟩
          · rw [List.map_cons, keyEq]
            exact taken.cons_cons _
          · rw [List.forall_mem_cons]
            exact ⟨own.2, kept⟩
          · rw [scanned, List.map_cons]

theorem get_range_items (codec : GoCodec) (db : KvDb) (chain first last : UInt64) :
    ∃ items : List (UInt64 × Bytes),
      items.Pairwise (fun earlier later => earlier.1 < later.1) ∧
      (∀ item ∈ items, db[makeBlockKey chain item.1]? = some item.2 ∧ first ≤ item.1 ∧
        item.1 ≤ last) ∧
      getRange codec db chain first last = items.map fun item => codec.unmarshal item.2 := by
  obtain ⟨items, taken, kept, scanned⟩ := scan_items codec chain
    (fun number => !(decide (number > last)))
    (iterateFrom db (makeBlockKey chain first) .forward)
  refine ⟨items, ?_, ?_, scanned⟩
  · have sorted := (iterate_forward_sorted db (makeBlockKey chain first)).sublist taken
    rw [List.pairwise_map] at sorted
    apply sorted.imp
    intro earlier later before
    rw [make_block_key_eq, make_block_key_eq, BlockKeys.compare_make_block_key] at before
    simpa [UInt64.compare_eq_toNat_compare_toNat, Nat.compare_eq_lt,
      UInt64.lt_iff_toNat_lt] using before
  · intro item member
    have present : (makeBlockKey chain item.1, item.2) ∈
        iterateFrom db (makeBlockKey chain first) .forward :=
      taken.subset (List.mem_map.mpr ⟨item, member, rfl⟩)
    obtain ⟨stored, above⟩ := mem_iterate_forward.mp present
    rw [make_block_key_eq, make_block_key_eq, BlockKeys.compare_make_block_key] at above
    refine ⟨stored, ?_, ?_⟩
    · simpa [compare_le_iff] using above
    · simpa using kept item member

theorem take_while_split {Item : Type} {items : List Item} {keep : Item → Bool}
    (closed : items.Pairwise fun earlier later => keep later = true → keep earlier = true) :
    ∃ passed, items = items.takeWhile keep ++ passed ∧ (∀ item ∈ passed, keep item = false) ∧
      ∀ item, item ∈ items.takeWhile keep ↔ item ∈ items ∧ keep item = true := by
  induction items with
  | nil => exact ⟨[], by simp⟩
  | cons head tail ih =>
      obtain ⟨headClosed, tailClosed⟩ := List.pairwise_cons.mp closed
      rw [List.takeWhile_cons]
      cases kept : keep head with
      | true =>
          obtain ⟨passed, split, outside, members⟩ := ih tailClosed
          refine ⟨passed, by rw [if_pos rfl, List.cons_append, ← split], outside, ?_⟩
          intro item
          rw [if_pos rfl, List.mem_cons, List.mem_cons, members]
          constructor
          · rintro (rfl | inside)
            · exact ⟨.inl rfl, kept⟩
            · exact ⟨.inr inside.1, inside.2⟩
          · rintro ⟨rfl | later, inside⟩
            · exact .inl rfl
            · exact .inr ⟨later, inside⟩
      | false =>
          have outside : ∀ item ∈ head :: tail, keep item = false := by
            intro item member
            rcases List.mem_cons.mp member with rfl | later
            · exact kept
            · by_contra inside
              have back := headClosed item later (by simpa using inside)
              rw [kept] at back
              cases back
          refine ⟨head :: tail, rfl, outside, ?_⟩
          intro item
          constructor
          · intro impossible
            cases impossible
          · rintro ⟨member, inside⟩
            rw [outside item member] at inside
            cases inside

theorem increasing_unique {left right : List (UInt64 × Bytes)}
    (leftSorted : left.Pairwise fun earlier later => earlier.1 < later.1)
    (rightSorted : right.Pairwise fun earlier later => earlier.1 < later.1)
    (same : ∀ item, item ∈ left ↔ item ∈ right) : left = right := by
  have distinct {items : List (UInt64 × Bytes)}
      (sorted : items.Pairwise fun earlier later => earlier.1 < later.1) : items.Nodup := by
    apply sorted.imp
    rintro earlier later below rfl
    exact lt_irrefl _ below
  have permuted :=
    (List.perm_ext_iff_of_nodup (distinct leftSorted) (distinct rightSorted)).mpr same
  apply permuted.eq_of_pairwise _ leftSorted rightSorted
  intro first second _ _ forward backward
  exact absurd forward backward.asymm

section Ranges

variable {db : KvDb} (known : KnownKeys db) (codec : GoCodec) (chain first last : UInt64)

include known

theorem get_range_forward :
    ∃ items beyond : List (UInt64 × Bytes),
      iterateBytes db chain first .forward = (items ++ beyond).map .ok ∧
      (∀ item ∈ beyond, last < item.1) ∧
      items.Pairwise (fun earlier later => earlier.1 < later.1) ∧
      (∀ number data, (number, data) ∈ items ↔
        getBytes db chain number = some data ∧ first ≤ number ∧ number ≤ last) ∧
      getRange codec db chain first last = items.map fun item => codec.unmarshal item.2 := by
  obtain ⟨all, iterated, sorted, members⟩ := iterate_bytes_forward known chain first
  have closed : all.Pairwise fun earlier later =>
      (!(decide (later.1 > last))) = true → (!(decide (earlier.1 > last))) = true := by
    apply sorted.imp
    intro earlier later below
    simpa using fun within => below.le.trans within
  obtain ⟨passed, split, outside, inside⟩ := take_while_split closed
  refine ⟨_, passed, by rw [← split]; exact iterated, ?_, ?_, ?_, ?_⟩
  · intro item member
    simpa using outside item member
  · exact sorted.sublist (List.takeWhile_sublist _)
  · intro number data
    rw [inside, members, and_assoc]
    simp
  · exact scan_eq codec chain _ iterated

theorem get_range_reverse :
    ∃ items beyond : List (UInt64 × Bytes),
      iterateBytes db chain last .reverse = (items ++ beyond).map .ok ∧
      (∀ item ∈ beyond, item.1 < first) ∧
      items.Pairwise (fun earlier later => later.1 < earlier.1) ∧
      (∀ number data, (number, data) ∈ items ↔
        getBytes db chain number = some data ∧ first ≤ number ∧ number ≤ last) ∧
      getRangeRev codec db chain first last = items.map fun item => codec.unmarshal item.2 := by
  obtain ⟨all, iterated, sorted, members⟩ := iterate_bytes_reverse known chain last
  have closed : all.Pairwise fun earlier later =>
      (!(decide (later.1 < first))) = true → (!(decide (earlier.1 < first))) = true := by
    apply sorted.imp
    intro earlier later below
    simpa using fun within => within.trans below.le
  obtain ⟨passed, split, outside, inside⟩ := take_while_split closed
  refine ⟨_, passed, by rw [← split]; exact iterated, ?_, ?_, ?_, ?_⟩
  · intro item member
    simpa using outside item member
  · exact sorted.sublist (List.takeWhile_sublist _)
  · intro number data
    rw [inside, members, and_assoc]
    simp [and_comm]
  · exact scan_eq codec chain _ iterated

/-- The reverse scan yields the blocks of the forward scan from the other end. -/
theorem get_range_both :
    ∃ items above under : List (UInt64 × Bytes),
      items.Pairwise (fun earlier later => earlier.1 < later.1) ∧
      (∀ number data, (number, data) ∈ items ↔
        getBytes db chain number = some data ∧ first ≤ number ∧ number ≤ last) ∧
      getRange codec db chain first last = items.map (fun item => codec.unmarshal item.2) ∧
      getRangeRev codec db chain first last =
        items.reverse.map (fun item => codec.unmarshal item.2) ∧
      (∀ item ∈ above, last < item.1) ∧ (∀ item ∈ under, item.1 < first) ∧
      iterateBytes db chain first .forward = (items ++ above).map .ok ∧
      iterateBytes db chain last .reverse = (items.reverse ++ under).map .ok := by
  obtain ⟨items, above, forward, aboveLast, sorted, members, yielded⟩ :=
    get_range_forward known codec chain first last
  obtain ⟨backward, under, reverse, underFirst, decreasing, sameMembers, yieldedBack⟩ :=
    get_range_reverse known codec chain first last
  have reversed : backward = items.reverse := by
    rw [← List.reverse_eq_iff]
    apply increasing_unique (List.pairwise_reverse.mpr decreasing) sorted
    rintro ⟨number, data⟩
    rw [List.mem_reverse, sameMembers, members]
  rw [reversed] at reverse yieldedBack
  exact ⟨items, above, under, sorted, members, yielded, yieldedBack, aboveLast, underFirst,
    forward, reverse⟩

end Ranges

def decodeItem (codec : WireCodec) (item : UInt64 × Bytes) : Except Error (UInt64 × Block) :=
  (decodeBlock codec item.2).map fun block => (item.1, block)

theorem iterate_eq {codec : WireCodec} {db : KvDb} {chain start : UInt64}
    {direction : IterationDirection} {items : List (UInt64 × Bytes)}
    (iterated : iterateBytes db chain start direction = items.map .ok) :
    iterate codec db chain start direction = items.map (decodeItem codec) := by
  unfold iterate
  rw [iterated, List.map_map]
  apply List.map_congr_left
  intro item _
  simp only [Function.comp_apply, bind, Except.bind, decodeItem]
  cases decodeBlock codec item.2 <;> rfl

theorem iterate_decoded {codec : WireCodec} {db : KvDb} {chain start : UInt64}
    {items : List (UInt64 × Bytes)}
    (iterated : iterateBytes db chain start .forward = items.map .ok)
    (members : ∀ number data, (number, data) ∈ items ↔
      getBytes db chain number = some data ∧ start ≤ number)
    {blockOf : UInt64 × Bytes → Block}
    (decoded : ∀ item ∈ items, decodeBlock codec item.2 = .ok (blockOf item)) :
    iterate codec db chain start .forward =
        (items.map fun item => (item.1, blockOf item)).map .ok ∧
      ∀ number block, (number, block) ∈ items.map (fun item => (item.1, blockOf item)) ↔
        start ≤ number ∧ BlockDb.get codec db chain number = .ok (some block) := by
  constructor
  · rw [iterate_eq iterated, List.map_map]
    apply List.map_congr_left
    intro item inside
    simp only [decodeItem, decoded item inside]
    rfl
  · intro number block
    rw [get_eq_some]
    constructor
    · intro member
      obtain ⟨item, inside, same⟩ := List.mem_map.mp member
      cases same
      obtain ⟨found, least⟩ := (members item.1 item.2).mp inside
      exact ⟨least, item.2, found, decoded item inside⟩
    · rintro ⟨least, data, found, decodes⟩
      have inside := (members number data).mpr ⟨found, least⟩
      refine List.mem_map.mpr ⟨(number, data), inside, ?_⟩
      rw [Except.ok.inj ((decoded _ inside).symm.trans decodes)]

/-- Both range scans of Go yield exactly the stored blocks inside the limits, in increasing
and in decreasing order. They are the Rust iteration from the one limit, which goes on only
with blocks behind the other. -/
theorem get_range_agrees {rustCodec : WireCodec} {db : KvDb} (reachable : Reachable rustCodec db)
    (codec : GoCodec) (chain first last : UInt64) :
    ∃ items above under : List (UInt64 × Bytes),
      items.Pairwise (fun earlier later => earlier.1 < later.1) ∧
      (∀ number data, (number, data) ∈ items ↔
        getBytes db chain number = some data ∧ first ≤ number ∧ number ≤ last) ∧
      getRange codec db chain first last = items.map (fun item => codec.unmarshal item.2) ∧
      getRangeRev codec db chain first last =
        items.reverse.map (fun item => codec.unmarshal item.2) ∧
      (∀ item ∈ above, last < item.1) ∧ (∀ item ∈ under, item.1 < first) ∧
      iterate rustCodec db chain first .forward = (items ++ above).map (decodeItem rustCodec) ∧
      iterate rustCodec db chain last .reverse =
        (items.reverse ++ under).map (decodeItem rustCodec) := by
  obtain ⟨items, above, under, sorted, members, yielded, yieldedBack, aboveLast, underFirst,
    forward, reverse⟩ :=
    get_range_both (sound_known (reachable_sound reachable)) codec chain first last
  exact ⟨items, above, under, sorted, members, yielded, yieldedBack, aboveLast, underFirst,
    iterate_eq forward, iterate_eq reverse⟩

def numberOnly (number : UInt64) : ProtoBlock.Block :=
  { parentHash := [], ommersHash := [], beneficiary := [], stateRoot := [], difficulty := 0,
    number := number, gasLimit := 0, timestamp := 0, extraData := [], prevRandao := [],
    nonce := [], transactions := [], receipts := [], baseFeePerGas := none,
    withdrawalsRoot := none, blobGasUsed := none, excessBlobGas := none,
    parentBeaconBlockRoot := none, requestsHash := none, verkleStateRoot := none,
    binaryStateRoot := none, withdrawals := [], ommerHeaders := [] }

def numberCodec : GoCodec where
  marshal message := .ok [0x30, message.number.toUInt8]
  unmarshal data :=
    match data with
    | [0x30, number] => .ok (numberOnly number.toUInt64)
    | _ => .error "unexpected EOF"

/-- Chain zero beside its neighbour, over the whole range of numbers. -/
theorem get_range_agrees_neighbours :
    ∃ first db : KvDb, putBytes freshDb 0 5 [0x30, 0x05] = .ok first ∧
      putBytes first 1 0 [0x30, 0x07] = .ok db ∧
      .ok (numberOnly 5) ∈ getRange numberCodec db 0 0 18446744073709551615 ∧
      .ok (numberOnly 5) ∈ getRangeRev numberCodec db 0 0 18446744073709551615 ∧
      getRange numberCodec db 0 6 5 = [] := by
  obtain ⟨first, firstStored, firstReachable, firstFound⟩ := put_bytes_reachable
    (fresh_reachable ⟨fun message => [0x30, message.number.toUInt8], numberCodec.unmarshal⟩) 0 5
    [0x30, 0x05] (by decide)
  obtain ⟨db, stored, reachable, -⟩ :=
    put_bytes_reachable firstReachable 1 0 [0x30, 0x07] (by decide)
  have found : getBytes db 0 5 = some [0x30, 0x05] := by
    rw [get_bytes_put_bytes stored, if_neg (by simp), firstFound]
  obtain ⟨items, -, -, -, members, forward, backward, -⟩ :=
    get_range_agrees reachable numberCodec 0 0 18446744073709551615
  obtain ⟨others, -, -, -, otherMembers, otherForward, -⟩ :=
    get_range_agrees reachable numberCodec 0 6 5
  have member := (members 5 [0x30, 0x05]).mpr ⟨found, by decide, by decide⟩
  have nothing : others = [] := by
    rw [List.eq_nil_iff_forall_not_mem]
    rintro ⟨number, data⟩ inside
    obtain ⟨-, lower, upper⟩ := (otherMembers number data).mp inside
    exact absurd (lower.trans upper) (by decide)
  refine ⟨first, db, firstStored, stored, ?_, ?_, ?_⟩
  · rw [forward]
    exact List.mem_map.mpr ⟨_, member, rfl⟩
  · rw [backward]
    exact List.mem_map.mpr ⟨_, List.mem_reverse.mpr member, rfl⟩
  · rw [otherForward, nothing]
    rfl

end Bertha.GoBlockDb
