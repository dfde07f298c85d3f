import Bertha.ImportVerify
import Bertha.TrustedChain

/-!
# What interrupted verified imports leave behind

A verified import compares each block with the one read before it, and the last imported block
with the one stored before the import only when it reads on. A rejected block and a parse error
end the import without writing its batch, so the block that closes the gap is never written
before the link below it was checked; a cancellation writes the batch. Unless it comes at the
one moment between the two, a chain that passed `verify` still passes it after any number of
such imports.
-/

namespace Bertha.ImportJunction

open Bertha.BigEndian Bertha.BlockDb Bertha.BlockDbContents Bertha.BlockDbInvariant
open Bertha.BlockKeys Bertha.BlockRanges Bertha.HeaderRlp Bertha.Import Bertha.ImportExact
open Bertha.ImportVerify Bertha.TrustedChain Bertha.Verifiers Bertha.VerifyCount
open Bertha.BlockTypes (Block Error Hash)

set_option autoImplicit false

section Chained

variable (env : Environment)

def Chained : Option Hash → List Block → Prop
  | _, [] => True
  | prevParentHash, block :: rest =>
      LinkChecked env prevParentHash block ∧ Chained (some block.parentHash) rest

def lastParentHash : Option Hash → List Block → Option Hash
  | prevParentHash, [] => prevParentHash
  | _, block :: rest => lastParentHash (some block.parentHash) rest

variable {env} {prevParentHash : Option Hash} {blocks : List Block} {block : Block}

theorem last_parent_hash_snoc :
    lastParentHash prevParentHash (blocks ++ [block]) = some block.parentHash := by
  induction blocks generalizing prevParentHash with
  | nil => rfl
  | cons first rest ih =>
      rw [List.cons_append, lastParentHash]
      exact ih

theorem chained_snoc (chained : Chained env prevParentHash blocks)
    (checked : LinkChecked env (lastParentHash prevParentHash blocks) block) :
    Chained env prevParentHash (blocks ++ [block]) := by
  induction blocks generalizing prevParentHash with
  | nil => exact ⟨checked, trivial⟩
  | cons first rest ih => exact ⟨chained.1, ih chained.2 checked⟩

theorem chained_leading {part : List Block} (chained : Chained env prevParentHash blocks)
    (leading : part <+: blocks) : Chained env prevParentHash part := by
  induction part generalizing prevParentHash blocks with
  | nil => trivial
  | cons first rest ih =>
      cases blocks with
      | nil => simp at leading
      | cons other others =>
          rcases List.cons_prefix_cons.mp leading with ⟨same, restLeading⟩
          subst same
          exact ⟨chained.1, ih chained.2 restLeading⟩

theorem chained_link {index : Nat} {parent : Block}
    (chained : Chained env prevParentHash blocks) (read : blocks[index]? = some block)
    (next : blocks[index + 1]? = some parent) : blockHash env parent = block.parentHash := by
  induction blocks generalizing prevParentHash index with
  | nil => simp at read
  | cons first rest ih =>
      rw [List.getElem?_cons_succ] at next
      cases index with
      | zero =>
          rw [List.getElem?_cons_zero] at read
          cases read
          cases rest with
          | nil => simp at next
          | cons second others =>
              rw [List.getElem?_cons_zero] at next
              cases next
              exact chained.2.1.1 _ rfl
      | succ index =>
          rw [List.getElem?_cons_succ] at read
          exact ih chained.2 read next

end Chained

/-- The leading blocks of a file that an import has left in the database. If the block behind
them was stored before, its link was checked. -/
structure Taken (env : Environment) (base : Contents) (chainId smallest : UInt64)
    (file taken : List Block) : Prop where
  leading : taken <+: file
  atLeast : ∀ block ∈ taken, smallest ≤ block.number
  chained : Chained env none taken
  junction : ∀ next, file[taken.length]? = some next → next.number < smallest → taken ≠ [] →
    ∃ stored data, base.blocks chainId next.number = some data ∧
      decodeBlock env.codec data = .ok stored ∧
      ∀ parentHash, lastParentHash none taken = some parentHash →
        blockHash env stored = parentHash

/-- Where the loop stands after some blocks of the file. -/
structure Reading (env : Environment) (base : Contents) (chainId smallest : UInt64)
    (state : ImportState) (done : List Block) (flushed pending : List BlockWrite) : Prop where
  staged : Staged base smallest state flushed pending
  writes : flushed ++ pending = done.map (writeOf env chainId)
  previous : state.prevParentHash = lastParentHash none done
  atLeast : ∀ block ∈ done, smallest ≤ block.number
  chained : Chained env none done
  unwritten : done ≠ [] → pending ≠ []

theorem store_block_pending {env : Environment} {chainId : UInt64} {state next : ImportState}
    {block : Block} (stored : storeBlock env chainId state block = .ok next) :
    next.batch ≠ batch := by
  have filled : ∀ wrapper : BatchWrapper,
      wrapper.putBytes chainId block.number (encodeBlock env.codec block) ≠ batch := by
    intro wrapper same
    have operations := congrArg BatchWrapper.kvBatch same
    simp [BatchWrapper.putBytes, batch] at operations
  unfold storeBlock at stored
  dsimp only at stored
  split_ifs at stored with large
  · split at stored
    · cases stored
    · cases stored
      exact filled _
  · cases stored
    exact filled _

section Loop

variable {Failure : Type} {env : Environment} {base : Contents} {chainId smallest : UInt64}
  {isCancelled : Nat → Bool} {state : ImportState} {done : List Block}
  {flushed pending : List BlockWrite} (valid : base.Valid)

include valid in
theorem reading_store {block : Block}
    (reading : Reading env base chainId smallest state done flushed pending)
    (checked : LinkChecked env state.prevParentHash block) (atLeast : smallest ≤ block.number)
    (below : block.number < maxBlockNumber) :
    ∃ next nextFlushed nextPending,
      storeBlock env chainId { state with prevParentHash := some block.parentHash } block =
        .ok next ∧
      Reading env base chainId smallest next (done ++ [block]) nextFlushed nextPending := by
  have relinked : Staged base smallest { state with prevParentHash := some block.parentHash }
      flushed pending :=
    ⟨reading.staged.represents, reading.staged.collected, reading.staged.inRange⟩
  rcases staged_store env chainId valid relinked atLeast below with
    ⟨next, nextFlushed, nextPending, stored, linked, nextStaged, grown⟩
  refine ⟨next, nextFlushed, nextPending, stored, ?_⟩
  constructor
  · exact nextStaged
  · rw [grown, reading.writes, List.map_append]
    rfl
  · rw [linked, last_parent_hash_snoc]
  · intro other member
    rcases List.mem_append.mp member with earlier | last
    · exact reading.atLeast other earlier
    · rw [List.mem_singleton.mp last]
      exact atLeast
  · rw [reading.previous] at checked
    exact chained_snoc reading.chained checked
  · intro _ nothing
    apply store_block_pending stored
    rw [nextStaged.collected, nothing]
    rfl

/-- A round of the loop rejects a block, ends at one that is stored already, or goes on. -/
theorem reading_step (Failure : Type) (isCancelled : Nat → Bool) {poll : Nat}
    (reading : Reading env base chainId smallest state done flushed pending) (valid : base.Valid)
    (keyed : KeyedBelow env.codec base chainId smallest) (running : isCancelled poll = false)
    {block : Block} (below : block.number < maxBlockNumber)
    (items : List (Except Failure Block)) :
    (∃ failure, importLoop env chainId smallest true isCancelled poll state (.ok block :: items) =
      ⟨state.db, false, .error failure⟩) ∨
    (Accepted env base chainId smallest state.prevParentHash block ∧ block.number < smallest ∧
      ∃ db, importLoop env chainId smallest true isCancelled poll state (.ok block :: items) =
          ⟨db, false, .ok ()⟩ ∧
        Represents db (base.putAll (done.map (writeOf env chainId)))) ∨
    ∃ next nextFlushed nextPending,
      Reading env base chainId smallest next (done ++ [block]) nextFlushed nextPending ∧
      importLoop env chainId smallest true isCancelled poll state (.ok block :: items) =
        importLoop env chainId smallest true isCancelled (poll + 1) next items := by
  simp only [importLoop, running, Bool.false_eq_true, if_false, if_true]
  rcases verify_block_cases Failure reading.staged keyed block with
    ⟨-, failure, rejected⟩ | ⟨accepted, verified, passed, sameNumber, same⟩
  · rw [rejected]
    exact .inl ⟨failure, rfl⟩
  · rw [passed]
    dsimp only
    rw [sameNumber]
    rcases lt_or_ge block.number smallest with low | high
    · have relinked : Staged base smallest
          { state with prevParentHash := some verified.parentHash } flushed pending :=
        ⟨reading.staged.represents, reading.staged.collected, reading.staged.inRange⟩
      rcases staged_finish Failure env valid relinked false with ⟨db, finished, represents⟩
      rw [reading.writes] at represents
      rw [if_pos low, finished]
      exact .inr (.inl ⟨accepted, low, db, rfl, represents⟩)
    · rw [same high]
      rcases reading_store valid reading (accepted.1 high) high below with
        ⟨next, nextFlushed, nextPending, stored, nextReading⟩
      rw [if_neg high.not_gt, stored]
      exact .inr (.inr ⟨next, nextFlushed, nextPending, nextReading, rfl⟩)

theorem taken_of_flushed (rest : List Block)
    (reading : Reading env base chainId smallest state done flushed pending) :
    ∃ taken, Taken env base chainId smallest (done ++ rest) taken ∧
      flushed = taken.map (writeOf env chainId) := by
  have part : flushed <+: done.map (writeOf env chainId) := ⟨pending, reading.writes⟩
  have same : flushed = (done.take flushed.length).map (writeOf env chainId) := by
    rw [List.map_take]
    exact List.prefix_iff_eq_take.mp part
  refine ⟨done.take flushed.length, ?_, same⟩
  constructor
  · exact (List.take_prefix _ _).trans (List.prefix_append _ _)
  · intro block member
    exact reading.atLeast block (List.mem_of_mem_take member)
  · exact chained_leading reading.chained (List.take_prefix _ _)
  · intro next read low nonempty
    have some : done ≠ [] := by
      intro nothing
      rw [nothing, List.take_nil] at nonempty
      exact nonempty rfl
    have total := congrArg List.length reading.writes
    rw [List.length_append, List.length_map] at total
    have waiting := List.length_pos_iff.mpr (reading.unwritten some)
    have inside : (done.take flushed.length).length < done.length := by
      rw [List.length_take]
      omega
    rw [List.getElem?_append_left inside] at read
    exact absurd low (reading.atLeast next (List.mem_of_getElem? read)).not_gt

theorem taken_of_done {rest : List Block}
    (reading : Reading env base chainId smallest state done flushed pending)
    (junction : ∀ next, rest[0]? = some next → next.number < smallest → done ≠ [] →
      ∃ stored data, base.blocks chainId next.number = some data ∧
        decodeBlock env.codec data = .ok stored ∧
        ∀ parentHash, lastParentHash none done = some parentHash →
          blockHash env stored = parentHash) :
    Taken env base chainId smallest (done ++ rest) done := by
  constructor
  · exact List.prefix_append _ _
  · exact reading.atLeast
  · exact reading.chained
  · intro next read
    rw [List.getElem?_append_right le_rfl, Nat.sub_self] at read
    exact junction next read

/-- Whatever happens in the loop, the database ends with leading blocks of the file whose
links were checked. The induction is on the items that are left to read. -/
theorem import_loop_taken {items : List (Except Failure Block)} {rest : List Block}
    (reading : Reading env base chainId smallest state done flushed pending)
    (valid : base.Valid) (keyed : KeyedBelow env.codec base chainId smallest)
    (uninterrupted : ∀ index next, (done ++ rest)[index]? = some next → next.number < smallest →
      (∀ block ∈ (done ++ rest).take index, smallest ≤ block.number) →
      isCancelled index = false)
    (below : ∀ block ∈ rest, block.number < maxBlockNumber) (read : ReadOf rest items)
    (lengths : items.length = rest.length) :
    ∃ taken, Taken env base chainId smallest (done ++ rest) taken ∧
      Represents (importLoop env chainId smallest true isCancelled done.length state items).db
        (base.putAll (taken.map (writeOf env chainId))) := by
  induction items generalizing state done flushed pending rest with
  | nil =>
      rcases staged_finish Failure env valid reading.staged false with
        ⟨db, finished, represents⟩
      rw [reading.writes] at represents
      refine ⟨done, taken_of_done reading ?_, ?_⟩
      · intro next nextRead
        rw [List.length_eq_zero_iff.mp lengths.symm] at nextRead
        cases nextRead
      · rw [importLoop, finished]
        exact represents
  | cons item items ih =>
      cases cancelled : isCancelled done.length with
      | true =>
          rcases staged_finish Failure env valid reading.staged true with
            ⟨db, finished, represents⟩
          rw [reading.writes] at represents
          refine ⟨done, taken_of_done reading ?_, ?_⟩
          · intro next nextRead low
            have place : (done ++ rest)[done.length]? = some next := by
              rw [List.getElem?_append_right le_rfl, Nat.sub_self]
              exact nextRead
            have before : ∀ block ∈ (done ++ rest).take done.length, smallest ≤ block.number := by
              rw [List.take_left]
              exact reading.atLeast
            rw [uninterrupted done.length next place low before] at cancelled
            cases cancelled
          · rw [importLoop.eq_def]
            simp only [cancelled, if_true, finished]
            exact represents
      | false =>
          cases item with
          | error failure =>
              rcases taken_of_flushed rest reading with ⟨taken, left, same⟩
              refine ⟨taken, left, ?_⟩
              rw [← same]
              simp only [importLoop, cancelled, Bool.false_eq_true, if_false]
              exact reading.staged.represents
          | ok block =>
              rcases read_of_cons read with ⟨others, same, othersRead⟩
              subst same
              rcases reading_step Failure isCancelled reading valid keyed cancelled
                  (below block List.mem_cons_self) items with
                ⟨failure, rejected⟩ | ⟨accepted, low, db, stopped, represents⟩ |
                ⟨next, nextFlushed, nextPending, nextReading, continued⟩
              · rcases taken_of_flushed (block :: others) reading with ⟨taken, left, same⟩
                refine ⟨taken, left, ?_⟩
                rw [← same, rejected]
                exact reading.staged.represents
              · refine ⟨done, taken_of_done reading ?_, ?_⟩
                · intro next nextRead _ _
                  rw [List.getElem?_cons_zero] at nextRead
                  cases nextRead
                  rcases accepted.2 low with ⟨stored, data, found, decoded, checked⟩
                  rw [reading.previous] at checked
                  exact ⟨stored, data, found, decoded, checked.1⟩
                · rw [stopped]
                  exact represents
              · have split : done ++ block :: others = done ++ [block] ++ others := by simp
                rw [continued, split]
                rw [split] at uninterrupted
                have later := ih nextReading uninterrupted
                  (fun other member => below other (List.mem_cons_of_mem block member))
                  othersRead (by simpa using lengths)
                rw [List.length_append] at later
                exact later

end Loop

theorem put_all_again (contents : Contents) {early late : List BlockWrite}
    (distinct : (early.map fun write => (write.chainId, write.blockNumber)).Nodup)
    (repeated : ∀ write ∈ late, write ∈ early) :
    (contents.putAll early).putAll late = contents.putAll early := by
  have chainRepeated : ∀ chain, (∃ write ∈ late, write.chainId = chain) →
      ∃ write ∈ early, write.chainId = chain := by
    intro chain written
    rcases written with ⟨write, member, own⟩
    exact ⟨write, repeated write member, own⟩
  have sameChains : ((contents.putAll early).putAll late).chains =
      (contents.putAll early).chains := by
    ext chain
    rw [Contents.put_all_chains, Contents.put_all_chains, ← or_assoc,
      or_iff_right_of_imp (chainRepeated chain)]
  apply Contents.ext
  · funext chain number
    rw [Contents.put_all_blocks, Contents.put_all_blocks]
    cases found : Contents.lastWrite late chain number with
    | none => rfl
    | some data =>
        have member := repeated _ (Contents.last_write_mem found)
        rcases Contents.last_write_exists member with ⟨other, last⟩
        have same := List.inj_on_of_nodup_map distinct member (Contents.last_write_mem last) rfl
        cases same
        rw [last]
        rfl
  · funext chain
    rw [Contents.put_all_tracked, Contents.put_all_tracked, ← or_assoc,
      or_iff_right_of_imp (chainRepeated chain)]
  · by_cases empty : late = []
    · rw [empty, Contents.put_all_nil]
    · have inhabited : early ≠ [] := by
        intro nothing
        rcases List.exists_mem_of_ne_nil late empty with ⟨write, member⟩
        have impossible := repeated write member
        rw [nothing] at impossible
        cases impossible
      rw [Contents.put_all_listed _ empty, sameChains, Contents.put_all_listed _ inhabited]
  · rw [Contents.put_all_other]

section Attempts

variable {Failure : Type} {env : Environment} {base : Contents} {chainId smallest total : UInt64}
  {blocks taken : List Block} {db : KvDb} (numbered : Numbered total blocks)

theorem taken_writes_leading (env : Environment) (chainId : UInt64) (leading : taken <+: blocks)
    (atLeast : ∀ block ∈ taken, smallest ≤ block.number) :
    taken.map (writeOf env chainId) <+: importWrites env chainId smallest blocks := by
  rcases leading with ⟨rest, whole⟩
  unfold importWrites
  rw [← whole, List.takeWhile_append_of_pos (fun block member => by
    simpa using atLeast block member), List.map_append]
  exact List.prefix_append _ _

theorem taken_blocks_below (left : Taken env base chainId smallest blocks taken)
    {number : UInt64} (below : number < smallest) :
    (base.putAll (taken.map (writeOf env chainId))).blocks chainId number =
      base.blocks chainId number := by
  rw [Contents.put_all_blocks]
  cases found : Contents.lastWrite (taken.map (writeOf env chainId)) chainId number with
  | none => rfl
  | some data =>
      rcases List.mem_map.mp (Contents.last_write_mem found) with ⟨block, member, same⟩
      have place := congrArg BlockWrite.blockNumber same
      have atLeast := left.atLeast block member
      rw [show block.number = number from place] at atLeast
      exact absurd below atLeast.not_gt

theorem taken_writes_subset (env : Environment) (chainId : UInt64) {left right : List Block}
    (leading : left <+: right) : ∀ write ∈ left.map (writeOf env chainId),
      write ∈ right.map (writeOf env chainId) :=
  fun _ member => (leading.map (writeOf env chainId)).subset member

theorem taken_writes_distinct (numbered : Numbered total blocks) (leading : taken <+: blocks) :
    ((taken.map (writeOf env chainId)).map
      fun write => (write.chainId, write.blockNumber)).Nodup := by
  have descending := (numbered_descending numbered).sublist leading.sublist
  rw [List.map_map]
  apply List.pairwise_map.mpr
  apply descending.imp
  intro earlier later below same
  have numbers := congrArg Prod.snd same
  exact below.ne numbers.symm

theorem junction_index {index : Nat} {next : Block} (numbered : Numbered total blocks)
    (read : blocks[index]? = some next) (low : next.number < smallest)
    (before : ∀ block ∈ blocks.take index, smallest ≤ block.number) (missing : smallest < total) :
    index = (total - smallest).toNat := by
  have place := numbered.2 index next read
  have lowNat := UInt64.lt_iff_toNat_lt.mp low
  have missingNat := UInt64.lt_iff_toNat_lt.mp missing
  rw [UInt64.toNat_sub_of_le _ _ missing.le]
  cases index with
  | zero => omega
  | succ index =>
      have inside : index < blocks.length := by
        have here := (List.getElem?_eq_some_iff.mp read).1
        omega
      have previous := List.getElem?_eq_getElem inside
      have atLeast := before blocks[index] (List.mem_of_getElem? (i := index) (by
        rw [List.getElem?_take_of_lt (Nat.lt_succ_self index)]
        exact previous))
      have previousPlace := numbered.2 index _ previous
      have atLeastNat := UInt64.le_iff_toNat_le.mp atLeast
      omega

theorem taken_merge (numbered : Numbered total blocks) {more : List Block}
    (left : Taken env base chainId smallest blocks taken)
    (right : Taken env base chainId smallest blocks more) :
    ∃ after, Taken env base chainId smallest blocks after ∧
      (base.putAll (taken.map (writeOf env chainId))).putAll (more.map (writeOf env chainId)) =
        base.putAll (after.map (writeOf env chainId)) := by
  rcases List.prefix_or_prefix_of_prefix left.leading right.leading with longer | shorter
  · exact ⟨more, right, Contents.put_all_absorb base (taken_writes_subset env chainId longer)⟩
  · exact ⟨taken, left, put_all_again base (taken_writes_distinct numbered left.leading)
      (taken_writes_subset env chainId shorter)⟩

theorem taken_rebase (left : Taken env base chainId smallest blocks taken) {more : List Block}
    (right : Taken env (base.putAll (taken.map (writeOf env chainId))) chainId smallest blocks
      more) : Taken env base chainId smallest blocks more := by
  constructor
  · exact right.leading
  · exact right.atLeast
  · exact right.chained
  · intro next read low nonempty
    rcases right.junction next read low nonempty with ⟨stored, data, found, rest⟩
    rw [taken_blocks_below left low] at found
    exact ⟨stored, data, found, rest⟩

theorem attempt_taken (numbered : Numbered total blocks) (valid : base.Valid)
    (missing : FirstMissing (base.numbers chainId) smallest)
    (keyed : KeyedBelow env.codec base chainId smallest) {attempt : Attempt Failure}
    (verifying : attempt.verify = true) (read : ReadOf blocks attempt.items)
    (lengths : attempt.items.length = blocks.length)
    (uninterrupted : smallest < total → attempt.isCancelled (total - smallest).toNat = false)
    (left : Taken env base chainId smallest blocks taken)
    (represents : Represents db (base.putAll (taken.map (writeOf env chainId)))) :
    ∃ after, Taken env base chainId smallest blocks after ∧
      Represents (attempt.run env chainId db)
        (base.putAll (after.map (writeOf env chainId))) := by
  have writes := taken_writes_leading env chainId left.leading left.atLeast
  have progress : Progress base smallest (importWrites env chainId smallest blocks)
      (base.putAll (taken.map (writeOf env chainId))) := by
    by_cases reached : ∃ write ∈ taken.map (writeOf env chainId), write.blockNumber = smallest
    · rcases reached with ⟨write, member, first⟩
      rw [import_writes_complete numbered writes member first]
      exact .inl rfl
    · refine .inr ⟨taken.map (writeOf env chainId), ?_, rfl⟩
      intro write member
      exact ⟨writes.subset member, fun first => reached ⟨write, member, first⟩⟩
  have nowValid := progress_valid numbered valid progress
  rcases represents_get_ranges represents nowValid chainId with ⟨ranges, rangesRead, -⟩
  have nextMissing := represents_first_missing represents nowValid rangesRead
  unfold Attempt.run
  rw [verifying]
  rcases import_blocks_cases env attempt.register attempt.items true attempt.isCancelled
      rangesRead with ⟨-, failure, failed⟩ | ⟨early, -⟩ | ⟨ahead, looped⟩
  · rw [failed]
    exact ⟨taken, left, represents⟩
  · rw [early]
    exact ⟨taken, left, represents⟩
  · rcases progress_smallest numbered missing progress nextMissing with
      ⟨-, behind⟩ | ⟨same, -⟩
    · rcases ahead with ⟨block, rest, items, above⟩
      rw [numbered_first numbered (read 0 block (by rw [items]; rfl))] at above
      exact absurd behind above.not_ge
    · rw [same] at looped ahead
      have ahead : smallest < total := by
        rcases ahead with ⟨block, rest, items, above⟩
        rwa [numbered_first numbered (read 0 block (by rw [items]; rfl))] at above
      have start : Reading env (base.putAll (taken.map (writeOf env chainId))) chainId smallest
          ⟨db, batch, none⟩ [] [] [] :=
        ⟨staged_start represents smallest none, rfl, rfl, by simp, trivial, by simp⟩
      have keyedNow : KeyedBelow env.codec (base.putAll (taken.map (writeOf env chainId)))
          chainId smallest := by
        intro number below data block found decoded
        rw [taken_blocks_below left below] at found
        exact keyed number below data block found decoded
      rcases import_loop_taken start nowValid keyedNow
          (fun index next nextRead low before => by
            rw [junction_index numbered nextRead low before ahead]
            exact uninterrupted ahead)
          (fun block member => numbered_bounded numbered member) read lengths with
        ⟨more, moreTaken, after⟩
      rcases taken_merge numbered left (taken_rebase left moreTaken) with
        ⟨all, allTaken, merged⟩
      refine ⟨all, allTaken, ?_⟩
      rw [looped, ← merged]
      exact after

theorem attempts_taken (numbered : Numbered total blocks) (valid : base.Valid)
    (missing : FirstMissing (base.numbers chainId) smallest)
    (keyed : KeyedBelow env.codec base chainId smallest) {attempts : List (Attempt Failure)}
    (verifying : ∀ attempt ∈ attempts, attempt.verify = true)
    (read : ∀ attempt ∈ attempts,
      ReadOf blocks attempt.items ∧ attempt.items.length = blocks.length)
    (uninterrupted : ∀ attempt ∈ attempts, smallest < total →
      attempt.isCancelled (total - smallest).toNat = false)
    (left : Taken env base chainId smallest blocks taken)
    (represents : Represents db (base.putAll (taken.map (writeOf env chainId)))) :
    ∃ after, Taken env base chainId smallest blocks after ∧
      Represents (attempts.foldl (Attempt.run env chainId) db)
        (base.putAll (after.map (writeOf env chainId))) := by
  induction attempts generalizing db taken with
  | nil => exact ⟨taken, left, represents⟩
  | cons attempt attempts ih =>
      have first := List.mem_cons_self (a := attempt) (l := attempts)
      rcases attempt_taken numbered valid missing keyed (verifying attempt first)
          (read attempt first).1 (read attempt first).2 (uninterrupted attempt first) left
          represents with ⟨more, moreTaken, moreRepresents⟩
      exact ih (fun later member => verifying later (List.mem_cons_of_mem attempt member))
        (fun later member => read later (List.mem_cons_of_mem attempt member))
        (fun later member => uninterrupted later (List.mem_cons_of_mem attempt member))
        moreTaken moreRepresents

end Attempts

def importEnvironment (rust : RustLibraries) (sizeInBytes : List RawOp → Nat)
    (enumerate : (blockRanges : OrderedStore.Store UInt64 (List BlockRange)) →
      Enumeration blockRanges) : Environment where
  codec := rust.codec
  libraries := rust.hashing
  computeHash := BlockHeader.computeHash rust.keccak256
  sizeInBytes := sizeInBytes
  enumerate := enumerate

theorem last_parent_hash_last {blocks : List Block} {block : Block}
    {prevParentHash : Option Hash} (last : blocks.getLast? = some block) :
    lastParentHash prevParentHash blocks = some block.parentHash := by
  rcases List.getLast?_eq_some_iff.mp last with ⟨before, whole⟩
  rw [whole]
  exact last_parent_hash_snoc

theorem successor_to_nat {number : UInt64} (bounded : number < maxBlockNumber) :
    (number + 1).toNat = number.toNat + 1 := by
  have below := UInt64.lt_iff_toNat_lt.mp bounded
  have top : maxBlockNumber.toNat = 18446744073709551615 := rfl
  rw [UInt64.toNat_add, UInt64.toNat_one, Nat.mod_eq_of_lt (by omega)]

section Imported

variable {rust : RustLibraries} {sizeInBytes : List RawOp → Nat}
  {enumerate : (blockRanges : OrderedStore.Store UInt64 (List BlockRange)) →
    Enumeration blockRanges} {db final : KvDb} {base : Contents} {chainId smallest total : UInt64}
  {failed : List UInt64} {blocks taken : List Block}
  (represents : Represents db base)
  (lossless : ∀ block ∈ blocks, DecodesBack rust.codec block)
  (nothingAbove : ∀ number, (getBytes db chainId number).isSome → number < smallest)
  (left : Taken (importEnvironment rust sizeInBytes enumerate) base chainId smallest blocks taken)
  (after : Represents final (base.putAll
    (taken.map (writeOf (importEnvironment rust sizeInBytes enumerate) chainId))))

include represents lossless nothingAbove left after

theorem imported_data {number : UInt64} {data : Bytes}
    (found : getBytes final chainId number = some data) :
    (∃ block ∈ taken, block.number = number ∧ decodeBlock rust.codec data = .ok block) ∨
      number < smallest ∧ getBytes db chainId number = some data := by
  rw [after.blocks, Contents.put_all_blocks] at found
  cases written : Contents.lastWrite (taken.map
      (writeOf (importEnvironment rust sizeInBytes enumerate) chainId)) chainId number with
  | none =>
      rw [written, Option.none_or, ← represents.blocks] at found
      exact .inr ⟨nothingAbove number (by rw [found]; rfl), found⟩
  | some own =>
      rw [written] at found
      cases found
      rcases List.mem_map.mp (Contents.last_write_mem written) with ⟨block, member, same⟩
      have place := congrArg BlockWrite.blockNumber same
      have bytes : encodeBlock rust.codec block = data := congrArg BlockWrite.data same
      rw [← bytes]
      exact .inl ⟨block, member, place,
        decode_encode_block (lossless block (left.leading.subset member))⟩

theorem imported_block {number : UInt64} {block : Block}
    (stored : get rust.codec final chainId number = .ok (some block)) :
    (block ∈ taken ∧ block.number = number) ∨
      number < smallest ∧ get rust.codec db chainId number = .ok (some block) := by
  rcases get_eq_some.mp stored with ⟨data, found, decoded⟩
  rcases imported_data represents lossless nothingAbove left after found with
    ⟨own, member, place, ownDecoded⟩ | ⟨below, before⟩
  · cases decoded.symm.trans ownDecoded
    exact .inl ⟨member, place⟩
  · exact .inr ⟨below, get_eq_some.mpr ⟨data, before, decoded⟩⟩

theorem imported_link (numbered : Numbered total blocks) {number : UInt64}
    {block successor : Block}
    (stored : get rust.codec final chainId number = .ok (some block))
    (bounded : number < maxBlockNumber) (member : successor ∈ taken)
    (next : successor.number = number + 1) :
    rust.blockHash block = successor.parentHash := by
  have successorNat : successor.number.toNat = number.toNat + 1 := by
    rw [next, successor_to_nat bounded]
  rcases List.mem_iff_getElem?.mp member with ⟨index, read⟩
  have inTaken := (List.getElem?_eq_some_iff.mp read).1
  rcases left.leading with ⟨later, whole⟩
  have readFile : blocks[index]? = some successor := by
    rw [← whole, List.getElem?_append_left inTaken]
    exact read
  have place := numbered.2 index successor readFile
  rcases imported_block represents lossless nothingAbove left after stored with
    ⟨own, ownNumber⟩ | ⟨below, before⟩
  · rcases List.mem_iff_getElem?.mp own with ⟨other, otherRead⟩
    have otherFile : blocks[other]? = some block := by
      rw [← whole, List.getElem?_append_left (List.getElem?_eq_some_iff.mp otherRead).1]
      exact otherRead
    have otherPlace := numbered.2 other block otherFile
    rw [ownNumber] at otherPlace
    have following : other = index + 1 := by omega
    rw [following] at otherRead
    exact chained_link left.chained read otherRead
  · have positive : 1 ≤ successor.number := by
      rw [UInt64.le_iff_toNat_le, successorNat, UInt64.toNat_one]
      omega
    rcases numbered_next numbered readFile positive with ⟨parent, parentRead, parentNumber⟩
    have same : parent.number = number := by
      rw [parentNumber, next]
      grind
    rw [← same] at below before
    have last : taken.length = index + 1 := by
      by_contra longer
      have inside : index + 1 < taken.length := by omega
      have parentTaken : parent ∈ taken := by
        rw [← whole, List.getElem?_append_left inside] at parentRead
        exact List.mem_of_getElem? parentRead
      exact absurd below (left.atLeast parent parentTaken).not_gt
    rw [← last] at parentRead
    rcases left.junction parent parentRead below (List.ne_nil_of_mem member) with
      ⟨own, data, found, decoded, checked⟩
    have ownStored : get rust.codec db chainId parent.number = .ok (some own) :=
      get_eq_some.mpr ⟨data, (represents.blocks chainId parent.number).trans found, decoded⟩
    cases before.symm.trans ownStored
    have lastRead : taken.getLast? = some successor := by
      rw [List.getLast?_eq_getElem?, last, Nat.add_sub_cancel]
      exact read
    exact checked _ (last_parent_hash_last lastRead)

/-- What the import leaves passes the verification that the database passed before. -/
theorem taken_walked (walked : Walked rust db chainId failed) (valid : base.Valid)
    (keyed : base.WellKeyed) (numbered : Numbered total blocks) :
    Walked rust final chainId failed := by
  have writesBelow : ∀ write ∈ taken.map
      (writeOf (importEnvironment rust sizeInBytes enumerate) chainId),
      write.blockNumber < maxBlockNumber := by
    intro write member
    rcases List.mem_map.mp member with ⟨block, inTaken, same⟩
    rw [← same]
    exact numbered_bounded numbered (left.leading.subset inTaken)
  have sound : Sound final := by
    refine ⟨_, Contents.put_all_valid valid _ writesBelow, ?_, after⟩
    intro key present
    rw [Contents.put_all_other] at present
    exact keyed key present
  have bundles : readFailedBundles rust final chainId = .ok failed := by
    have unmanaged := chain_key_unmanaged chainId 0x03 (by decide)
    have same : getFailedBundles final chainId = getFailedBundles db chainId := by
      unfold getFailedBundles makeFailedBundlesKey
      rw [after.other _ unmanaged, Contents.put_all_other, represents.other _ unmanaged]
    rw [readFailedBundles, same]
    exact walked.bundles
  have decodable : Decodable rust final chainId := by
    refine ⟨BlockIteration.sound_known sound, sound_consistent sound, ?_⟩
    intro number data found
    rcases imported_data represents lossless nothingAbove left after found with
      ⟨block, -, -, decoded⟩ | ⟨-, before⟩
    · exact ⟨block, decoded⟩
    · exact walked.decodable.decodes number data before
  refine walked_of_linked sound bundles decodable ?_ ?_
  · intro number block stored
    rcases imported_block represents lossless nothingAbove left after stored with
      ⟨-, place⟩ | ⟨-, before⟩
    · exact place
    · exact walked.numbered before
  · intro number block successor stored next
    have bounded := stored_below_top decodable stored
    rcases imported_block represents lossless nothingAbove left after next with
      ⟨member, place⟩ | ⟨below, before⟩
    · left
      exact imported_link represents lossless nothingAbove left after numbered stored bounded
        member place
    · by_cases excused : number ∈ failed
      · exact .inr excused
      · left
        rcases imported_block represents lossless nothingAbove left after stored with
          ⟨member, place⟩ | ⟨-, blockBefore⟩
        · have atLeast := left.atLeast block member
          rw [place, UInt64.le_iff_toNat_le] at atLeast
          rw [UInt64.lt_iff_toNat_lt, successor_to_nat bounded] at below
          omega
        · exact walked.linked blockBefore before excused

end Imported

/-- Any number of verified imports of a file, rejected, broken off by parse errors or
cancelled, leave a chain that passes the verification if it did before, provided that
nothing is stored above the first missing number and no import is cancelled between the last
missing block and the stored block below it. -/
theorem verified_imports_stay_verified {Failure : Type} {rust : RustLibraries}
    (sizeInBytes : List RawOp → Nat)
    (enumerate : (blockRanges : OrderedStore.Store UInt64 (List BlockRange)) →
      Enumeration blockRanges)
    {db : KvDb} {chainId total : UInt64} {failed : List UInt64} {ranges : List BlockRange}
    {blocks : List Block} (walked : Walked rust db chainId failed)
    (rangesRead : getRangesOfChainId db chainId = .ok ranges)
    (nothingAbove : ∀ number, (getBytes db chainId number).isSome →
      number < smallestImportBlockNumber ranges)
    (numbered : Numbered total blocks) (lossless : ∀ block ∈ blocks, DecodesBack rust.codec block)
    (attempts : List (Attempt Failure))
    (verifying : ∀ attempt ∈ attempts, attempt.verify = true)
    (read : ∀ attempt ∈ attempts,
      ReadOf blocks attempt.items ∧ attempt.items.length = blocks.length)
    (uninterrupted : ∀ attempt ∈ attempts, smallestImportBlockNumber ranges < total →
      attempt.isCancelled (total - smallestImportBlockNumber ranges).toNat = false) :
    Walked rust
      (attempts.foldl (Attempt.run (importEnvironment rust sizeInBytes enumerate) chainId) db)
      chainId failed := by
  rcases walked.sound with ⟨base, valid, keyed, represents⟩
  have missing := represents_first_missing represents valid rangesRead
  have keyedBelow : KeyedBelow rust.codec base chainId (smallestImportBlockNumber ranges) := by
    intro number _ data block found decoded
    exact walked.numbered (get_eq_some.mpr
      ⟨data, (represents.blocks chainId number).trans found, decoded⟩)
  have start : Taken (importEnvironment rust sizeInBytes enumerate) base chainId
      (smallestImportBlockNumber ranges) blocks [] :=
    ⟨List.nil_prefix, by simp, trivial, by simp⟩
  rcases attempts_taken numbered valid missing keyedBelow verifying read uninterrupted start
      represents with ⟨taken, left, after⟩
  exact taken_walked represents lossless nothingAbove left after walked valid keyed numbered

theorem london_lossless (block : Block) (member : block ∈ [londonChild, londonGenesis]) :
    DecodesBack londonRust.codec block := by
  rcases List.mem_pair.mp member with child | genesis
  · rw [child]
    unfold DecodesBack
    decide +kernel
  · rw [genesis]
    unfold DecodesBack
    decide +kernel

theorem block_zero_walked (rust : RustLibraries) (block : Block) (zero : block.number = 0)
    (lossless : DecodesBack rust.codec block) :
    ∃ db, Walked rust db 1 [] ∧ getRangesOfChainId db 1 = .ok [⟨0, 0⟩] ∧
      get rust.codec db 1 0 = .ok (some block) ∧
      ∀ number data, getBytes db 1 number = some data → number = 0 := by
  rcases put_bytes_reachable (fresh_reachable rust.codec) 1 0 (encodeBlock rust.codec block)
    (by decide) with ⟨db, stored, reachable, blockFound⟩
  have decodes := decode_encode_block lossless
  have only : ∀ number data, getBytes db 1 number = some data →
      number = 0 ∧ data = encodeBlock rust.codec block := by
    intro number data found
    rw [get_bytes_put_bytes stored] at found
    split_ifs at found with own
    · exact ⟨own.2.symm, (Option.some.inj found).symm⟩
    · simp [getBytes, freshDb, OrderedStore.get_put] at found
  have read : ∀ number other, get rust.codec db 1 number = .ok (some other) →
      number = 0 ∧ other = block := by
    intro number other found
    rcases get_eq_some.mp found with ⟨data, present, decoded⟩
    rcases only number data present with ⟨place, same⟩
    rw [same, decodes] at decoded
    cases decoded
    exact ⟨place, rfl⟩
  have noBundles : getFailedBundles db 1 = none := by
    have kept := put_bytes_frame stored (by decide) (by decide)
      (by decide : makeFailedBundlesKey 1 ≠ chainIdsKey)
    rw [getFailedBundles, kept]
    simp [freshDb, OrderedStore.get_put, makeFailedBundlesKey]
  have sound := reachable_sound reachable
  refine ⟨db, walked_of_linked sound ?_ ⟨BlockIteration.sound_known sound,
    sound_consistent sound, ?_⟩ ?_ ?_, get_ranges_put_bytes stored (fresh_get_ranges 1),
    get_eq_some.mpr ⟨_, blockFound, decodes⟩, fun number data found => (only number data found).1⟩
  · rw [readFailedBundles, noBundles]
  · intro number data found
    rw [(only number data found).2]
    exact ⟨block, decodes⟩
  · intro number other found
    rcases read number other found with ⟨place, same⟩
    rw [place, same, zero]
  · intro number other successor found next
    have first := (read number other found).1
    have wrong := (read _ successor next).1
    rw [first] at wrong
    cases wrong

theorem verified_imports_stay_verified_two_blocks :
    let blocks := [londonChild, londonGenesis]
    let env := importEnvironment londonRust (fun _ => 0) (fun _ => ⟨_, List.Perm.refl _⟩)
    let attempts : List (Attempt String) :=
      [⟨.ok (), [.ok londonChild, .error "invalid RLP"], true, never⟩,
        ⟨.ok (), blocks.map .ok, true, never⟩]
    ∃ db, getBytes db 1 1 = none ∧ Walked londonRust db 1 [] ∧
      Walked londonRust (attempts.foldl (Attempt.run env 1) db) 1 [] := by
  intro blocks env attempts
  rcases block_zero_walked londonRust londonGenesis rfl
    (london_lossless londonGenesis (by simp)) with ⟨db, walked, rangesRead, -, stored⟩
  have numbered : Numbered 2 blocks := by
    refine ⟨rfl, fun index block read => ?_⟩
    rcases index with _ | _ | index
    · cases read
      rfl
    · cases read
      rfl
    · cases read
  have absent : getBytes db 1 1 = none := by
    cases found : getBytes db 1 1 with
    | none => rfl
    | some data => exact absurd (stored 1 data found) (by decide)
  refine ⟨db, absent, walked, verified_imports_stay_verified (fun _ => 0) _ walked rangesRead ?_
    numbered london_lossless attempts ?_ ?_ ?_⟩
  · intro number present
    rcases Option.isSome_iff_exists.mp present with ⟨data, found⟩
    rw [stored number data found]
    decide
  · intro attempt member
    rcases List.mem_pair.mp member with first | second
    · rw [first]
    · rw [second]
  · intro attempt member
    rcases List.mem_pair.mp member with first | second
    · rw [first]
      refine ⟨?_, rfl⟩
      intro index block read
      rcases index with _ | _ | index
      · cases read
        rfl
      · cases read
      · cases read
    · rw [second]
      exact ⟨read_of_map_ok String blocks, rfl⟩
  · intro attempt member _
    rcases List.mem_pair.mp member with first | second
    · rw [first]
      rfl
    · rw [second]
      rfl

section Cancelled

variable {env : Environment} {base : Contents} {chainId smallest total : UInt64}
  {isCancelled : Nat → Bool} {db : KvDb}

theorem import_loop_reads (Failure : Type) (valid : base.Valid) {state : ImportState}
    {done ahead : List Block} (behind : List Block) {flushed pending : List BlockWrite}
    (reading : Reading env base chainId smallest state done flushed pending)
    (running : ∀ poll, poll < (done ++ ahead).length → isCancelled poll = false)
    (atLeast : ∀ block ∈ ahead, smallest ≤ block.number)
    (below : ∀ block ∈ ahead, block.number < maxBlockNumber)
    (chained : Chained env (lastParentHash none done) ahead) :
    ∃ next nextFlushed nextPending,
      Reading env base chainId smallest next (done ++ ahead) nextFlushed nextPending ∧
      (importLoop env chainId smallest true isCancelled done.length state
          ((ahead ++ behind).map .ok) : Outcome Failure) =
        importLoop env chainId smallest true isCancelled (done ++ ahead).length next
          (behind.map .ok) := by
  induction ahead generalizing state done flushed pending with
  | nil =>
      rw [List.append_nil]
      exact ⟨state, flushed, pending, reading, rfl⟩
  | cons block ahead ih =>
      have split : done ++ block :: ahead = done ++ [block] ++ ahead := by simp
      have high := atLeast block List.mem_cons_self
      have checked := chained.1
      rw [← reading.previous] at checked
      have passed : (verifyBlock env state chainId smallest block :
          Except (ImportError Failure) Block) = .ok block :=
        verify_block_accepts (by simp only [blockToVerify, if_neg high.not_gt]) checked
      have here : isCancelled done.length = false := running done.length (by simp)
      rcases reading_store valid reading checked high (below block List.mem_cons_self) with
        ⟨next, nextFlushed, nextPending, stored, nextReading⟩
      rw [split] at running ⊢
      rcases ih nextReading running
          (fun other member => atLeast other (List.mem_cons_of_mem block member))
          (fun other member => below other (List.mem_cons_of_mem block member))
          (by rw [last_parent_hash_snoc]; exact chained.2) with
        ⟨final, finalFlushed, finalPending, finalReading, continued⟩
      refine ⟨final, finalFlushed, finalPending, finalReading, ?_⟩
      rw [← continued, List.length_append, List.cons_append, List.map_cons, importLoop, here]
      simp only [Bool.false_eq_true, if_false, if_true, passed, high.not_gt, stored]
      rfl

theorem cancelled_import_stores (Failure : Type) {ranges : List BlockRange}
    {blocks : List Block} (valid : base.Valid) (represents : Represents db base)
    (rangesRead : getRangesOfChainId db chainId = .ok ranges) (numbered : Numbered total blocks)
    (missing : smallestImportBlockNumber ranges < total) {count : Nat}
    (inside : count ≤ blocks.length)
    (atLeast : ∀ block ∈ blocks.take count, smallestImportBlockNumber ranges ≤ block.number)
    (chained : Chained env none (blocks.take count))
    (running : ∀ poll, poll < count → isCancelled poll = false)
    (cancelled : isCancelled count = true) :
    Represents (importBlocks env (.ok ()) db (blocks.map (.ok : Block → Except Failure Block))
      chainId true isCancelled).db
      (base.putAll ((blocks.take count).map (writeOf env chainId))) := by
  have counted : (blocks.take count).length = count := by
    rw [List.length_take]
    omega
  have start : Reading env base chainId (smallestImportBlockNumber ranges) ⟨db, batch, none⟩
      [] [] [] :=
    ⟨staged_start represents _ none, rfl, rfl, by simp, trivial, by simp⟩
  rcases import_loop_reads Failure valid (blocks.drop count) start
      (by rw [List.nil_append, counted]; exact running) atLeast
      (fun block member => numbered_bounded numbered (List.mem_of_mem_take member)) chained with
    ⟨state, flushed, pending, reading, continued⟩
  rw [List.nil_append] at continued reading
  rw [List.take_append_drop, counted, List.length_nil] at continued
  rcases staged_finish Failure env valid reading.staged true with ⟨final, finished, after⟩
  rw [reading.writes] at after
  have stopped : (importLoop env chainId (smallestImportBlockNumber ranges) true isCancelled count
      state ((blocks.drop count).map .ok) : Outcome Failure).db = final := by
    cases (blocks.drop count).map (.ok : Block → Except Failure Block) with
    | nil =>
        rcases staged_finish Failure env valid reading.staged false with
          ⟨other, ended, otherAfter⟩
        rw [reading.writes] at otherAfter
        rw [importLoop, ended]
        exact represents_unique otherAfter after
    | cons item items =>
        rw [importLoop.eq_def]
        simp only [cancelled, if_true, finished]
  rcases import_blocks_cases env (.ok ()) (blocks.map (.ok : Block → Except Failure Block)) true
      isCancelled rangesRead with ⟨refused, -⟩ | ⟨-, nothing⟩ | ⟨-, looped⟩
  · rcases refused with unregistered | ⟨failure, rest, parseError⟩
    · exact absurd rfl unregistered
    · cases blocks with
      | nil => simp at parseError
      | cons block others => simp at parseError
  · exfalso
    rcases nothing with empty | ⟨block, rest, items, low⟩
    · have noBlocks := numbered.1
      rw [List.map_eq_nil_iff.mp empty, List.length_nil] at noBlocks
      have missingNat := UInt64.lt_iff_toNat_lt.mp missing
      omega
    · rw [numbered_first numbered (read_of_map_ok Failure blocks 0 block (by rw [items]; rfl))]
        at low
      exact absurd missing low.not_gt
  · rw [looped, continued, stopped]
    exact after

end Cancelled

/-! ## The missing blocks of a numbered file -/

section Missing

variable {total smallest : UInt64} {blocks : List Block}

theorem to_nat_sub_one {number : UInt64} (positive : 0 < number) :
    (number - 1).toNat = number.toNat - 1 := by
  have positiveNat := UInt64.lt_iff_toNat_lt.mp positive
  have atLeast : (1 : UInt64) ≤ number := by
    rw [UInt64.le_iff_toNat_le, UInt64.toNat_one]
    exact positiveNat
  rw [UInt64.toNat_sub_of_le _ _ atLeast, UInt64.toNat_one]

variable (numbered : Numbered total blocks) (missing : smallest < total)
include numbered missing

theorem missing_length :
    (blocks.take (total - smallest).toNat).length = (total - smallest).toNat := by
  rw [List.length_take, numbered.1, UInt64.toNat_sub_of_le _ _ missing.le]
  omega

theorem missing_high : ∀ block ∈ blocks.take (total - smallest).toNat,
    smallest ≤ block.number := by
  intro block taken
  rcases List.mem_iff_getElem?.mp taken with ⟨index, read⟩
  have bound := (List.getElem?_eq_some_iff.mp read).1
  rw [missing_length numbered missing, UInt64.toNat_sub_of_le _ _ missing.le] at bound
  rw [List.getElem?_take_of_lt (by rw [UInt64.toNat_sub_of_le _ _ missing.le]; exact bound)]
    at read
  have place := numbered.2 index block read
  rw [UInt64.le_iff_toNat_le]
  omega

theorem missing_last {first : Block} (member : first ∈ blocks)
    (firstNumber : first.number = smallest) :
    (blocks.take (total - smallest).toNat).getLast? = some first := by
  have missingNat := UInt64.lt_iff_toNat_lt.mp missing
  have counted := missing_length numbered missing
  rcases List.mem_iff_getElem?.mp member with ⟨index, read⟩
  have place := numbered.2 index first read
  rw [firstNumber] at place
  have indexEq : (total - smallest).toNat - 1 = index := by
    rw [UInt64.toNat_sub_of_le _ _ missing.le]
    omega
  rw [UInt64.toNat_sub_of_le _ _ missing.le] at counted indexEq ⊢
  rw [List.getLast?_eq_getElem?, counted, indexEq, List.getElem?_take_of_lt (by omega)]
  exact read

/-- Blocks that are linked among themselves, and of which the first names a stored block as its
parent, pass the checks of the import. -/
theorem missing_taken {env : Environment} {base : Contents} {chainId : UInt64}
    (positive : 0 < smallest) {first stored : Block} (member : first ∈ blocks)
    (firstNumber : first.number = smallest)
    (chained : Chained env none (blocks.take (total - smallest).toNat)) {data : Bytes}
    (found : base.blocks chainId (smallest - 1) = some data)
    (decoded : decodeBlock env.codec data = .ok stored)
    (linked : blockHash env stored = first.parentHash) :
    Taken env base chainId smallest blocks (blocks.take (total - smallest).toNat) := by
  constructor
  · exact List.take_prefix _ blocks
  · exact missing_high numbered missing
  · exact chained
  · intro next nextRead _ _
    rw [missing_length numbered missing] at nextRead
    have nextPlace := numbered.2 _ next nextRead
    have nextNumber : next.number = smallest - 1 := by
      have positiveNat := UInt64.lt_iff_toNat_lt.mp positive
      have missingNat := UInt64.lt_iff_toNat_lt.mp missing
      have zero : (0 : UInt64).toNat = 0 := rfl
      rw [UInt64.toNat_sub_of_le _ _ missing.le] at nextPlace
      apply UInt64.toNat_inj.mp
      rw [to_nat_sub_one positive]
      omega
    refine ⟨stored, data, ?_, decoded, ?_⟩
    · rw [nextNumber]
      exact found
    · intro parentHash named
      rw [last_parent_hash_last (missing_last numbered missing member firstNumber)] at named
      cases named
      exact linked

end Missing

/-- An import that is cancelled between the last missing block and the stored block below it
leaves a chain that passes the verification exactly if the two happen to be linked. -/
theorem cancelled_before_junction_iff (Failure : Type) {rust : RustLibraries}
    (sizeInBytes : List RawOp → Nat)
    (enumerate : (blockRanges : OrderedStore.Store UInt64 (List BlockRange)) →
      Enumeration blockRanges)
    {db : KvDb} {chainId total : UInt64} {failed : List UInt64} {ranges : List BlockRange}
    {blocks : List Block} (walked : Walked rust db chainId failed)
    (rangesRead : getRangesOfChainId db chainId = .ok ranges)
    (nothingAbove : ∀ number, (getBytes db chainId number).isSome →
      number < smallestImportBlockNumber ranges)
    (numbered : Numbered total blocks) (lossless : ∀ block ∈ blocks, DecodesBack rust.codec block)
    (positive : 0 < smallestImportBlockNumber ranges)
    (missing : smallestImportBlockNumber ranges < total) {stored first : Block}
    (storedRead :
      get rust.codec db chainId (smallestImportBlockNumber ranges - 1) = .ok (some stored))
    (clean : smallestImportBlockNumber ranges - 1 ∉ failed) (member : first ∈ blocks)
    (firstNumber : first.number = smallestImportBlockNumber ranges)
    (chained : Chained (importEnvironment rust sizeInBytes enumerate) none
      (blocks.take (total - smallestImportBlockNumber ranges).toNat))
    {isCancelled : Nat → Bool}
    (running : ∀ poll, poll < (total - smallestImportBlockNumber ranges).toNat →
      isCancelled poll = false)
    (cancelled : isCancelled (total - smallestImportBlockNumber ranges).toNat = true) :
    Walked rust (importBlocks (importEnvironment rust sizeInBytes enumerate) (.ok ()) db
        (blocks.map (.ok : Block → Except Failure Block)) chainId true isCancelled).db chainId
      failed ↔ rust.blockHash stored = first.parentHash := by
  generalize smallestEq : smallestImportBlockNumber ranges = smallest at *
  rcases walked.sound with ⟨base, valid, keyed, represents⟩
  have counted := missing_length numbered missing
  have atLeast := missing_high numbered missing
  have inside : (total - smallest).toNat ≤ blocks.length := by
    rw [← counted]
    exact List.length_take_le' _ _
  have after := cancelled_import_stores Failure valid represents rangesRead numbered
    (by rw [smallestEq]; exact missing) inside (by rw [smallestEq]; exact atLeast) chained running
    cancelled
  rcases get_eq_some.mp storedRead with ⟨data, found, decoded⟩
  rw [represents.blocks] at found
  constructor
  · intro passed
    have firstTaken : first ∈ blocks.take (total - smallest).toNat :=
      List.mem_of_getLast? (missing_last numbered missing member firstNumber)
    have whole : (blocks.take (total - smallest).toNat).map (writeOf
        (importEnvironment rust sizeInBytes enumerate) chainId) =
        importWrites (importEnvironment rust sizeInBytes enumerate) chainId smallest blocks :=
      import_writes_complete numbered
        (taken_writes_leading _ chainId (List.take_prefix _ blocks) atLeast)
        (List.mem_map_of_mem firstTaken) firstNumber
    rw [whole] at after
    have firstRead := imported_get numbered after member (by rw [firstNumber])
      (lossless first member)
    have below : smallest - 1 < smallest := by
      have positiveNat := UInt64.lt_iff_toNat_lt.mp positive
      have zero : (0 : UInt64).toNat = 0 := rfl
      rw [UInt64.lt_iff_toNat_lt, to_nat_sub_one positive]
      omega
    refine passed.linked (get_eq_some.mpr ⟨data, ?_, decoded⟩) ?_ clean
    · rw [imported_below numbered after below]
      exact found
    · rw [firstNumber] at firstRead
      rw [UInt64.sub_add_cancel]
      exact firstRead
  · intro linked
    exact taken_walked represents lossless nothingAbove
      (missing_taken numbered missing positive member firstNumber chained found decoded linked)
      after walked valid keyed numbered

/-- The child of another block is imported onto a stored block zero, and the verification that
passed before fails behind it. -/
theorem cancelled_before_junction_unlinked :
    let root : Hash := ⟨List.replicate 32 0x11, rfl⟩
    let genesis : Block := {}
    let child : Block := { number := 1, parentHash := root }
    let rust : RustLibraries :=
      ⟨headerCodec [child, genesis], ⟨fun _ => emptyRoot, fun bloom _ => bloom⟩,
        fun _ => default, fun _ => .ok []⟩
    let env := importEnvironment rust (fun _ => 0) (fun _ => ⟨_, List.Perm.refl _⟩)
    let items : List (Except String Block) := [child, genesis].map .ok
    ∃ db, Walked rust db 1 [] ∧
      ¬ Walked rust (importBlocks env (.ok ()) db items 1 true fun poll => decide (poll = 1)).db
        1 [] := by
  intro root genesis child rust env items
  have lossless : ∀ block ∈ [child, genesis], DecodesBack rust.codec block := by
    intro block member
    apply header_codec_decodes_back
    rcases List.mem_pair.mp member with first | second
    · rw [first]
      decide +kernel
    · rw [second]
      decide +kernel
  rcases block_zero_walked rust genesis rfl (lossless genesis (by simp)) with
    ⟨db, walked, rangesRead, storedRead, stored⟩
  have numbered : Numbered 2 [child, genesis] := by
    refine ⟨rfl, fun index block read => ?_⟩
    rcases index with _ | _ | index
    · cases read
      rfl
    · cases read
      rfl
    · cases read
  have above : ∀ number, (getBytes db 1 number).isSome →
      number < smallestImportBlockNumber [⟨0, 0⟩] := by
    intro number present
    rcases Option.isSome_iff_exists.mp present with ⟨data, found⟩
    rw [stored number data found]
    decide
  have chained : Chained env none [child] :=
    ⟨⟨by simp, fun wrong => by cases wrong⟩, trivial⟩
  have running : ∀ poll, poll < 1 → decide (poll = 1) = false := by
    intro poll early
    exact decide_eq_false (by omega)
  refine ⟨db, walked, fun passed => ?_⟩
  have linked := (cancelled_before_junction_iff String (fun _ => 0) _ walked
    rangesRead above numbered lossless (by decide) (by decide) storedRead (by simp)
    (List.mem_cons_self (a := child)) (by decide) chained running (by decide)).mp passed
  exact absurd linked (by decide +kernel)

end Bertha.ImportJunction
