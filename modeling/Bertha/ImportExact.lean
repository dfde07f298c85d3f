import Bertha.BinarySearch
import Bertha.Import

/-!
# Import is exact and can be resumed

A file holds its blocks in descending order, so the first missing number is the last one
an import stores. An interrupted import that has not stored it leaves the starting point
of the next one where it was, and one that has stored it was complete. Any number of
interrupted imports followed by a complete one therefore ends in the database that one
uninterrupted import produces.
-/

namespace Bertha.ImportExact

open Bertha.BigEndian Bertha.BinarySearch Bertha.BlockDb Bertha.BlockDbContents
open Bertha.BlockDbInvariant Bertha.BlockKeys Bertha.BlockRanges Bertha.Import
open Bertha.IntervalList Bertha.OrderedStore
open Bertha.BlockTypes (Error Block Hash)

set_option autoImplicit false

/-- The blocks are numbered `total - 1` down to zero. -/
def Numbered (total : UInt64) (blocks : List Block) : Prop :=
  blocks.length = total.toNat ∧ ∀ (index : Nat) (block : Block),
    blocks[index]? = some block → block.number.toNat + index + 1 = total.toNat

private theorem leading_read {Item : Type} {part whole : List Item} (leading : part <+: whole)
    {index : Nat} (inside : index < part.length) : whole[index]? = part[index]? := by
  obtain ⟨rest, rfl⟩ := leading
  exact List.getElem?_append_left inside

section File

variable {env : Environment} {chainId smallest total : UInt64} {blocks : List Block}
  (numbered : Numbered total blocks)

include numbered

theorem numbered_below {block : Block} (member : block ∈ blocks) : block.number < total := by
  obtain ⟨index, read⟩ := List.mem_iff_getElem?.mp member
  have place := numbered.2 index block read
  rw [UInt64.lt_iff_toNat_lt]
  omega

theorem numbered_bounded {block : Block} (member : block ∈ blocks) :
    block.number < maxBlockNumber := by
  have below := UInt64.lt_iff_toNat_lt.mp (numbered_below numbered member)
  have bound := total.toNat_lt
  rw [UInt64.lt_iff_toNat_lt]
  have top : maxBlockNumber.toNat = 18446744073709551615 := rfl
  omega

theorem numbered_find {number : UInt64} (below : number < total) :
    ∃ (index : Nat) (block : Block), blocks[index]? = some block ∧ block.number = number := by
  have belowNat := UInt64.lt_iff_toNat_lt.mp below
  have inside : total.toNat - 1 - number.toNat < blocks.length := by
    rw [numbered.1]
    omega
  have read := List.getElem?_eq_getElem inside
  refine ⟨_, _, read, UInt64.toNat_inj.mp ?_⟩
  have place := numbered.2 _ _ read
  omega

theorem numbered_first {block : Block} (read : blocks[0]? = some block) :
    block.number + 1 = total := by
  have place := numbered.2 0 block read
  have bound := total.toNat_lt
  apply UInt64.toNat_inj.mp
  rw [UInt64.toNat_add, UInt64.toNat_one]
  omega

theorem numbered_next {index : Nat} {block : Block} (read : blocks[index]? = some block)
    (positive : 1 ≤ block.number) :
    ∃ parent, blocks[index + 1]? = some parent ∧ parent.number = block.number - 1 := by
  have place := numbered.2 index block read
  have positiveNat : 1 ≤ block.number.toNat := UInt64.le_iff_toNat_le.mp positive
  have inside : index + 1 < blocks.length := by
    rw [numbered.1]
    omega
  have parentRead := List.getElem?_eq_getElem inside
  refine ⟨_, parentRead, UInt64.toNat_inj.mp ?_⟩
  have parentPlace := numbered.2 _ _ parentRead
  rw [UInt64.toNat_sub_of_le _ _ positive, UInt64.toNat_one]
  omega

theorem numbered_descending :
    blocks.Pairwise fun earlier later => later.number < earlier.number := by
  rw [List.pairwise_iff_getElem]
  intro first second firstInside secondInside ordered
  have firstPlace := numbered.2 first _ (List.getElem?_eq_getElem firstInside)
  have secondPlace := numbered.2 second _ (List.getElem?_eq_getElem secondInside)
  rw [UInt64.lt_iff_toNat_lt]
  omega

theorem import_writes_place {index : Nat} {write : BlockWrite}
    (read : (importWrites env chainId smallest blocks)[index]? = some write) :
    write.chainId = chainId ∧ smallest ≤ write.blockNumber ∧
      write.blockNumber.toNat + index + 1 = total.toNat := by
  unfold importWrites at read
  rw [List.getElem?_map] at read
  obtain ⟨block, kept, rfl⟩ := Option.map_eq_some_iff.mp read
  have inFile : blocks[index]? = some block := by
    have inside := (List.getElem?_eq_some_iff.mp kept).1
    rw [leading_read (List.takeWhile_prefix _) inside, kept]
  have atLeast : smallest ≤ block.number := by
    simpa using List.mem_takeWhile_imp (List.mem_of_getElem? kept)
  exact ⟨rfl, atLeast, numbered.2 index block inFile⟩

theorem import_writes_mem {write : BlockWrite}
    (member : write ∈ importWrites env chainId smallest blocks) :
    write.chainId = chainId ∧ smallest ≤ write.blockNumber ∧ write.blockNumber < total := by
  obtain ⟨index, read⟩ := List.mem_iff_getElem?.mp member
  obtain ⟨own, atLeast, place⟩ := import_writes_place numbered read
  refine ⟨own, atLeast, ?_⟩
  rw [UInt64.lt_iff_toNat_lt]
  omega

theorem import_writes_bounded {write : BlockWrite}
    (member : write ∈ importWrites env chainId smallest blocks) :
    write.blockNumber < maxBlockNumber := by
  have below := UInt64.lt_iff_toNat_lt.mp (import_writes_mem numbered member).2.2
  have bound := total.toNat_lt
  have top : maxBlockNumber.toNat = 18446744073709551615 := rfl
  rw [UInt64.lt_iff_toNat_lt]
  omega

theorem mem_import_writes (env : Environment) (chainId : UInt64) {block : Block}
    (member : block ∈ blocks) (atLeast : smallest ≤ block.number) :
    writeOf env chainId block ∈ importWrites env chainId smallest blocks := by
  obtain ⟨index, read⟩ := List.mem_iff_getElem?.mp member
  have closed : blocks.Pairwise fun earlier later =>
      decide (smallest ≤ later.number) = true → decide (smallest ≤ earlier.number) = true := by
    apply (numbered_descending numbered).imp
    intro earlier later below
    simpa using fun low => low.trans below.le
  have kept := (take_while_index closed read).mp (by simpa using atLeast)
  refine List.mem_map_of_mem (List.mem_of_getElem? (i := index) ?_)
  rw [← leading_read (List.takeWhile_prefix _) kept, read]

theorem import_writes_last {block : Block} (member : block ∈ blocks)
    (atLeast : smallest ≤ block.number) :
    Contents.lastWrite (importWrites env chainId smallest blocks) chainId block.number =
      some (encodeBlock env.codec block) := by
  have own := mem_import_writes numbered env chainId member atLeast
  obtain ⟨data, found⟩ := Contents.last_write_exists own
  have lastMember := Contents.last_write_mem found
  obtain ⟨ownIndex, ownRead⟩ := List.mem_iff_getElem?.mp own
  obtain ⟨lastIndex, lastRead⟩ := List.mem_iff_getElem?.mp lastMember
  have ownPlace := (import_writes_place numbered ownRead).2.2
  have lastPlace := (import_writes_place numbered lastRead).2.2
  have sameIndex : lastIndex = ownIndex := by
    dsimp only at lastPlace
    omega
  rw [sameIndex, ownRead] at lastRead
  have sameData : encodeBlock env.codec block = data :=
    congrArg BlockWrite.data (Option.some.inj lastRead)
  rw [sameData]
  exact found

theorem import_writes_complete {written : List BlockWrite}
    (leading : written <+: importWrites env chainId smallest blocks) {write : BlockWrite}
    (member : write ∈ written) (first : write.blockNumber = smallest) :
    written = importWrites env chainId smallest blocks := by
  obtain ⟨rest, whole⟩ := leading
  cases rest with
  | nil => rw [← whole, List.append_nil]
  | cons next later =>
      obtain ⟨index, read⟩ := List.mem_iff_getElem?.mp member
      have inside := (List.getElem?_eq_some_iff.mp read).1
      have readWhole : (importWrites env chainId smallest blocks)[index]? = some write := by
        rw [leading_read ⟨_, whole⟩ inside, read]
      have readNext : (importWrites env chainId smallest blocks)[written.length]? = some next := by
        rw [← whole, List.getElem?_append_right le_rfl]
        simp
      obtain ⟨-, -, place⟩ := import_writes_place numbered readWhole
      obtain ⟨-, atLeast, nextPlace⟩ := import_writes_place numbered readNext
      have atLeastNat := UInt64.le_iff_toNat_le.mp atLeast
      rw [← first] at atLeastNat
      omega

theorem import_writes_nothing (env : Environment) (chainId : UInt64) (behind : total ≤ smallest) :
    importWrites env chainId smallest blocks = [] := by
  rw [List.eq_nil_iff_forall_not_mem]
  intro write member
  obtain ⟨-, atLeast, below⟩ := import_writes_mem numbered member
  exact absurd (behind.trans atLeast) (not_le.mpr below)

end File

/-- The least number that is not in the set. -/
def FirstMissing (numbers : Set UInt64) (first : UInt64) : Prop :=
  (∀ number, number < first → number ∈ numbers) ∧ first ∉ numbers

theorem first_missing_unique {numbers : Set UInt64} {first second : UInt64}
    (left : FirstMissing numbers first) (right : FirstMissing numbers second) :
    first = second := by
  rcases lt_trichotomy first second with less | same | more
  · exact absurd (right.1 first less) left.2
  · exact same
  · exact absurd (left.1 second more) right.2

theorem represents_first_missing {db : KvDb} {contents : Contents} {chainId : UInt64}
    {ranges : List BlockRange} (represents : Represents db contents) (valid : contents.Valid)
    (read : getRangesOfChainId db chainId = .ok ranges) :
    FirstMissing (contents.numbers chainId) (smallestImportBlockNumber ranges) := by
  obtain ⟨found, foundRead, canonical, bounded, denotes⟩ :=
    represents_get_ranges represents valid chainId
  cases read.symm.trans foundRead
  rw [← denotes]
  exact smallest_import_first_missing canonical bounded

structure Attempt (Failure : Type) where
  register : Except String Unit
  items : List (Except Failure Block)
  verify : Bool
  isCancelled : Nat → Bool

def Attempt.run {Failure : Type} (env : Environment) (chainId : UInt64) (db : KvDb)
    (attempt : Attempt Failure) : KvDb :=
  (importBlocks env attempt.register db attempt.items chainId attempt.verify
    attempt.isCancelled).db

/-- Contents that interrupted imports can leave: all writes are done, or the one of the
first missing number is not. -/
def Progress (base : Contents) (smallest : UInt64) (writes : List BlockWrite)
    (contents : Contents) : Prop :=
  contents = base.putAll writes ∨ ∃ stored : List BlockWrite,
    (∀ write ∈ stored, write ∈ writes ∧ write.blockNumber ≠ smallest) ∧
      contents = base.putAll stored

section Resuming

variable {Failure : Type} {env : Environment} {base contents : Contents}
  {chainId smallest total : UInt64} {blocks : List Block} {db : KvDb}
  (numbered : Numbered total blocks) (baseValid : base.Valid)
  (missing : FirstMissing (base.numbers chainId) smallest)

include missing

theorem stored_first_missing {stored : List BlockWrite}
    (partly : ∀ write ∈ stored,
      write ∈ importWrites env chainId smallest blocks ∧ write.blockNumber ≠ smallest) :
    FirstMissing ((base.putAll stored).numbers chainId) smallest := by
  rw [Contents.put_all_numbers]
  refine ⟨fun number below => .inl (missing.1 number below), ?_⟩
  rintro (before | ⟨write, member, -, first⟩)
  · exact missing.2 before
  · exact (partly write member).2 first

include numbered

theorem progress_smallest {next : UInt64}
    (progress : Progress base smallest (importWrites env chainId smallest blocks) contents)
    (nextMissing : FirstMissing (contents.numbers chainId) next) :
    (contents = base.putAll (importWrites env chainId smallest blocks) ∧ total ≤ next) ∨
      (next = smallest ∧ ∃ stored : List BlockWrite,
        (∀ write ∈ stored,
          write ∈ importWrites env chainId smallest blocks ∧ write.blockNumber ≠ smallest) ∧
        contents = base.putAll stored) := by
  rcases progress with rfl | ⟨stored, partly, rfl⟩
  · rcases le_or_gt total smallest with behind | ahead
    · have nothing := import_writes_nothing numbered env chainId behind
      rw [nothing] at nextMissing ⊢
      exact .inr ⟨first_missing_unique nextMissing missing, [], by simp, rfl⟩
    · refine .inl ⟨rfl, ?_⟩
      by_contra short
      have below := not_le.mp short
      apply nextMissing.2
      rw [Contents.put_all_numbers]
      rcases lt_or_ge next smallest with low | high
      · exact .inl (missing.1 next low)
      · obtain ⟨index, block, read, rfl⟩ := numbered_find numbered below
        exact .inr ⟨_, mem_import_writes numbered env chainId (List.mem_of_getElem? read) high,
          rfl, rfl⟩
  · exact .inr ⟨first_missing_unique nextMissing (stored_first_missing missing partly),
      stored, partly, rfl⟩

include baseValid

omit missing in
theorem progress_valid
    (progress : Progress base smallest (importWrites env chainId smallest blocks) contents) :
    contents.Valid := by
  rcases progress with rfl | ⟨stored, partly, rfl⟩
  · exact Contents.put_all_valid baseValid _ fun write member =>
      import_writes_bounded numbered member
  · exact Contents.put_all_valid baseValid _ fun write member =>
      import_writes_bounded numbered (partly write member).1

/-- A further attempt on the same file makes progress or changes nothing. -/
theorem attempt_progress (attempt : Attempt Failure) (read : ReadOf blocks attempt.items)
    (keyed : attempt.verify = true → KeyedBelow env.codec base chainId smallest)
    (represents : Represents db contents)
    (progress : Progress base smallest (importWrites env chainId smallest blocks) contents) :
    ∃ after, Represents (attempt.run env chainId db) after ∧
      Progress base smallest (importWrites env chainId smallest blocks) after := by
  have valid := progress_valid numbered baseValid progress
  obtain ⟨ranges, rangesRead, -⟩ := represents_get_ranges represents valid chainId
  have nextMissing := represents_first_missing represents valid rangesRead
  rcases progress_smallest numbered missing progress nextMissing with
    ⟨complete, behind⟩ | ⟨same, stored, partly, rfl⟩
  · refine ⟨contents, ?_, .inl complete⟩
    unfold Attempt.run
    rcases import_blocks_cases env attempt.register attempt.items attempt.verify
        attempt.isCancelled rangesRead with ⟨-, failure, failed⟩ | ⟨early, -⟩ | ⟨ahead, -⟩
    · rw [failed]
      exact represents
    · rw [early]
      exact represents
    · obtain ⟨block, rest, items, above⟩ := ahead
      rw [numbered_first numbered (read 0 block (by rw [items]; rfl))] at above
      exact absurd behind (not_le.mpr above)
  · have unchanged : ∀ number, number < smallest →
        (base.putAll stored).blocks chainId number = base.blocks chainId number := by
      intro number below
      rw [Contents.put_all_blocks]
      cases found : Contents.lastWrite stored chainId number with
      | none => rfl
      | some data =>
          have written := (partly _ (Contents.last_write_mem found)).1
          exact absurd (import_writes_mem numbered written).2.1 (not_le.mpr below)
    have keyedNow : attempt.verify = true →
        KeyedBelow env.codec (base.putAll stored) chainId (smallestImportBlockNumber ranges) := by
      intro verifying number below data block found
      rw [same] at below
      rw [unchanged number below] at found
      exact keyed verifying number below data block found
    obtain ⟨written, leading, after, -⟩ := import_blocks_writes valid represents rangesRead
      (fun block member => numbered_bounded numbered member) env attempt.verify keyedNow read
      attempt.register attempt.isCancelled
    rw [same] at leading
    refine ⟨_, after, ?_⟩
    by_cases reached : ∃ write ∈ written, write.blockNumber = smallest
    · obtain ⟨write, member, first⟩ := reached
      rw [import_writes_complete numbered leading member first]
      exact .inl (Contents.put_all_absorb _ fun write member => (partly write member).1)
    · refine .inr ⟨stored ++ written, ?_, (Contents.put_all_append _ _ _).symm⟩
      intro write member
      rcases List.mem_append.mp member with earlier | now
      · exact partly write earlier
      · exact ⟨leading.subset now, fun first => reached ⟨write, now, first⟩⟩

theorem completion (Failure : Type)
    (represents : Represents db contents)
    (progress : Progress base smallest (importWrites env chainId smallest blocks) contents) :
    ∃ final, (importBlocks env (.ok ()) db (blocks.map .ok) chainId false (fun _ => false) :
        Outcome Failure) = ⟨final, false, .ok ()⟩ ∧
      Represents final (base.putAll (importWrites env chainId smallest blocks)) := by
  have valid := progress_valid numbered baseValid progress
  obtain ⟨ranges, rangesRead, -⟩ := represents_get_ranges represents valid chainId
  have nextMissing := represents_first_missing represents valid rangesRead
  obtain ⟨final, imported, after⟩ := import_blocks_completes valid represents rangesRead
    (fun block member => numbered_bounded numbered member) Failure env
  refine ⟨final, imported, ?_⟩
  rcases progress_smallest numbered missing progress nextMissing with
    ⟨rfl, behind⟩ | ⟨same, stored, partly, rfl⟩
  · rwa [import_writes_nothing numbered env chainId behind] at after
  · rw [same, Contents.put_all_absorb _ fun write member => (partly write member).1] at after
    exact after

theorem attempts_progress (attempts : List (Attempt Failure))
    (read : ∀ attempt ∈ attempts, ReadOf blocks attempt.items)
    (keyed : ∀ attempt ∈ attempts,
      attempt.verify = true → KeyedBelow env.codec base chainId smallest)
    (represents : Represents db contents)
    (progress : Progress base smallest (importWrites env chainId smallest blocks) contents) :
    ∃ after, Represents (attempts.foldl (Attempt.run env chainId) db) after ∧
      Progress base smallest (importWrites env chainId smallest blocks) after := by
  induction attempts generalizing db contents with
  | nil => exact ⟨contents, represents, progress⟩
  | cons attempt attempts ih =>
      obtain ⟨next, nextRepresents, nextProgress⟩ := attempt_progress numbered baseValid missing
        attempt (read attempt (by simp)) (keyed attempt (by simp)) represents progress
      exact ih (fun later member => read later (by simp [member]))
        (fun later member => keyed later (by simp [member])) nextRepresents nextProgress

end Resuming

/-- Let `smallest` be the first missing number. An import without verification and
cancellation stores the file's blocks from `smallest` on and nothing else. Any attempts on
the same file before it, cancelled or ended by a parse error at any point, do not change the
database it ends with; attempts that verify rely on stored blocks having their key's number. -/
theorem import_exact_and_resumable {Failure : Type} (env : Environment) {db : KvDb}
    (consistent : MetadataConsistent db) (chainId : UInt64) {ranges : List BlockRange}
    (rangesRead : getRangesOfChainId db chainId = .ok ranges) {total : UInt64}
    {blocks : List Block} (numbered : Numbered total blocks) :
    ∃ final,
      (importBlocks env (.ok ()) db (blocks.map .ok) chainId false (fun _ => false) :
        Outcome Failure) = ⟨final, false, .ok ()⟩ ∧
      (∀ number, number < smallestImportBlockNumber ranges ∨ total ≤ number →
        getBytes final chainId number = getBytes db chainId number) ∧
      (∀ number, smallestImportBlockNumber ranges ≤ number → number < total →
        ∃ block ∈ blocks, block.number = number ∧
          getBytes final chainId number = some (encodeBlock env.codec block)) ∧
      (∀ key, key ≠ chainIdsKey → key ≠ makeBlockRangesKey chainId →
        (∀ number, key ≠ makeBlockKey chainId number) → final[key]? = db[key]?) ∧
      (∃ ids finalIds, getChainIds db = .ok ids ∧ getChainIds final = .ok finalIds ∧
        ∀ other, other ≠ chainId → (other ∈ finalIds ↔ other ∈ ids)) ∧
      ∀ attempts : List (Attempt Failure),
        (∀ attempt ∈ attempts, ReadOf blocks attempt.items) →
        (∀ attempt ∈ attempts, attempt.verify = true → ∀ number data block,
          getBytes db chainId number = some data → decodeBlock env.codec data = .ok block →
          block.number = number) →
        (importBlocks env (.ok ()) (attempts.foldl (Attempt.run env chainId) db)
          (blocks.map .ok) chainId false (fun _ => false) : Outcome Failure) =
            ⟨final, false, .ok ()⟩ := by
  obtain ⟨contents, valid, represents⟩ := metadata_consistent_iff.mp consistent
  have missing := represents_first_missing represents valid rangesRead
  have start : Progress contents (smallestImportBlockNumber ranges)
      (importWrites env chainId (smallestImportBlockNumber ranges) blocks) contents :=
    .inr ⟨[], by simp, rfl⟩
  obtain ⟨final, imported, after⟩ :=
    completion numbered valid missing Failure represents start
  have stored : putAll db (importWrites env chainId (smallestImportBlockNumber ranges) blocks) =
      .ok final := by
    obtain ⟨plain, plainStored, plainRepresents⟩ := put_all_simulates represents valid
      (importWrites env chainId (smallestImportBlockNumber ranges) blocks)
      fun write member => import_writes_bounded numbered member
    rw [plainStored, represents_unique plainRepresents after]
  refine ⟨final, imported, ?_, ?_, ?_, ?_, ?_⟩
  · intro number outside
    rw [get_bytes_put_all stored]
    cases found : Contents.lastWrite
        (importWrites env chainId (smallestImportBlockNumber ranges) blocks) chainId number with
    | none => rfl
    | some data =>
        obtain ⟨-, atLeast, below⟩ := import_writes_mem numbered (Contents.last_write_mem found)
        rcases outside with low | high
        · exact absurd atLeast (not_le.mpr low)
        · exact absurd below (not_lt.mpr high)
  · intro number atLeast below
    obtain ⟨index, block, read, rfl⟩ := numbered_find numbered below
    have member := List.mem_of_getElem? read
    refine ⟨block, member, rfl, ?_⟩
    rw [get_bytes_put_all stored, import_writes_last numbered member atLeast]
    rfl
  · intro key notChainIds notRanges notBlock
    apply put_all_frame stored notChainIds
    intro write member
    rw [(import_writes_mem numbered member).1]
    exact ⟨notRanges, notBlock _⟩
  · obtain ⟨ids, idsRead, -, members⟩ := represents_get_chain_ids represents
    obtain ⟨finalIds, finalRead, -, finalMembers⟩ := represents_get_chain_ids after
    refine ⟨ids, finalIds, idsRead, finalRead, fun other different => ?_⟩
    rw [finalMembers, members, Contents.put_all_chains, or_iff_right]
    rintro ⟨write, member, own⟩
    exact different (own ▸ (import_writes_mem numbered member).1)
  · intro attempts read keyed
    obtain ⟨reached, reachedRepresents, progress⟩ := attempts_progress numbered valid missing
      attempts read (fun attempt member verifying number _ data block found =>
        keyed attempt member verifying number data block
          ((represents.blocks chainId number).trans found)) represents start
    obtain ⟨again, importedAgain, afterAgain⟩ :=
      completion numbered valid missing Failure reachedRepresents progress
    rw [importedAgain, represents_unique afterAgain after]

/-- The wire format of messages that have only the fixed-width fields and a number below 128;
decoding looks among the known blocks. -/
def headerCodec (known : List Block) : WireCodec where
  encodeToVec := headerBytes
  decode data :=
    match known.find? fun block => headerBytes (ProtoBlock.Block.fromTypes block) = data with
    | some block => .ok (ProtoBlock.Block.fromTypes block)
    | none => .error "failed to decode Protobuf message"
where
  headerBytes (message : ProtoBlock.Block) : Bytes :=
    [0x0a, 0x20] ++ message.parentHash ++ [0x12, 0x20] ++ message.ommersHash ++
      [0x1a, 0x14] ++ message.beneficiary ++ [0x22, 0x20] ++ message.stateRoot ++
      (if message.number = 0 then [] else [0x30, message.number.toUInt8]) ++
      [0x52, 0x20] ++ message.prevRandao ++ [0x5a, 0x08] ++ message.nonce

theorem header_codec_decodes_back {known : List Block} {block : Block}
    (found : known.find? (fun other => headerCodec.headerBytes (ProtoBlock.Block.fromTypes other) =
      headerCodec.headerBytes (ProtoBlock.Block.fromTypes block)) = some block) :
    DecodesBack (headerCodec known) block := by
  simp only [DecodesBack, headerCodec, found]

def emptyRoot : Hash :=
  ⟨[0x56, 0xe8, 0x1f, 0x17, 0x1b, 0xcc, 0x55, 0xa6, 0xff, 0x83, 0x45, 0xe6, 0x92, 0xc0, 0xf8, 0x6e,
    0x5b, 0x48, 0xe0, 0x1b, 0x99, 0x6c, 0xad, 0xc0, 0x01, 0x62, 0x2f, 0xb5, 0xe3, 0x63, 0xb4, 0x21],
    by decide⟩

def headerEnvironment (known : List Block) : Environment where
  codec := headerCodec known
  libraries := ⟨fun _ => emptyRoot, fun bloom _ => bloom⟩
  computeHash header := header.stateRoot
  sizeInBytes operations := 12 + (operations.map recordSize).sum
  enumerate _ := ⟨_, List.Perm.refl _⟩
where
  recordSize : RawOp → Nat
    | .put key value => 4 + key.length + value.length
    | .delete key => 2 + key.length
    | .deleteRange first last => 3 + first.length + last.length

/-- Two blocks are imported after a cancelled import and one that met a parse error. -/
theorem import_exact_and_resumable_two_blocks :
    let blocks : List Block := [{ number := 1 }, { number := 0 }]
    let env := headerEnvironment blocks
    let attempts : List (Attempt String) :=
      [⟨.ok (), blocks.map .ok, false, fun poll => decide (poll = 1)⟩,
        ⟨.ok (), [.ok { number := 1 }, .error "invalid RLP"], false, fun _ => false⟩]
    ∃ final,
      (importBlocks env (.ok ()) (attempts.foldl (Attempt.run env 250) freshDb)
        (blocks.map .ok) 250 false (fun _ => false) : Outcome String) = ⟨final, false, .ok ()⟩ ∧
      ∃ block ∈ blocks, block.number = 1 ∧
        getBytes final 250 1 = some (encodeBlock env.codec block) := by
  intro blocks env attempts
  have numbered : Numbered 2 blocks := by
    refine ⟨rfl, fun index block read => ?_⟩
    match index with
    | 0 => cases read; rfl
    | 1 => cases read; rfl
    | index + 2 => cases read
  obtain ⟨final, -, -, stored, -, -, resumed⟩ := @import_exact_and_resumable String
    env _ (reachable_metadata_consistent (fresh_reachable env.codec)) 250 _ (fresh_get_ranges 250)
    _ _ numbered
  refine ⟨final, resumed attempts ?_ ?_, stored 1 (by decide) (by decide)⟩
  · intro attempt member
    rcases List.mem_pair.mp member with rfl | rfl
    · exact read_of_map_ok String blocks
    · intro index block read
      match index with
      | 0 => cases read; rfl
      | 1 => cases read
      | index + 2 => cases read
  · intro attempt member verifying
    rcases List.mem_pair.mp member with rfl | rfl <;> cases verifying

end Bertha.ImportExact
