import Bertha.FetchAvailability
import Bertha.FetchHonest
import Bertha.Purge

/-!
# When a fetch succeeds, and what it restores

An honest server sends every block of a range that it holds, in order and without a gap, so
the number and length checks of the client pass. A fetch therefore succeeds exactly when each
requested block is stored on one of the two sides. In particular it brings back what was
purged, and with it every byte of the database.
-/

namespace Bertha.FetchSuccess

open Bertha.BigEndian Bertha.BlockDb Bertha.BlockDbContents Bertha.BlockDbContents.Contents
open Bertha.BlockDbInvariant Bertha.BlockKeys Bertha.BlockRanges Bertha.Conversion Bertha.Fetch
open Bertha.FetchAvailability Bertha.FetchHonest Bertha.IntervalList Bertha.Purge
open Bertha.RpcServer (EncodedBlock Status)

set_option autoImplicit false

theorem in_order_interval {blocks : List EncodedBlock} {first last : UInt64}
    (ordered : first ≤ last) (below : last < maxBlockNumber)
    (sorted : blocks.Pairwise fun earlier later => earlier.number < later.number)
    (covers : ∀ number, (∃ block ∈ blocks, block.number = number) ↔
      first ≤ number ∧ number ≤ last) :
    inOrder first (blocks.map .ok) = blocks ∧
      blocks.length = last.toNat - first.toNat + 1 := by
  induction blocks generalizing first with
  | nil =>
      rcases (covers first).mpr ⟨le_refl first, ordered⟩ with ⟨block, member, -⟩
      cases member
  | cons head tail ih =>
      rcases List.pairwise_cons.mp sorted with ⟨headBelow, tailSorted⟩
      have headWithin := (covers head.number).mp ⟨head, List.mem_cons_self, rfl⟩
      have headFirst : head.number = first := by
        rcases (covers first).mpr ⟨le_refl first, ordered⟩ with ⟨block, member, same⟩
        rcases List.mem_cons.mp member with own | later
        · rw [← own]
          exact same
        · have above := headBelow block later
          rw [same] at above
          exact absurd headWithin.1 above.not_ge
      rw [List.map_cons, in_order_cons headFirst]
      rcases eq_or_lt_of_le ordered with single | more
      · have nothing : tail = [] := by
          apply List.eq_nil_iff_forall_not_mem.mpr
          intro block member
          have above := headBelow block member
          have within := ((covers block.number).mp
            ⟨block, List.mem_cons_of_mem head member, rfl⟩).2
          rw [headFirst, single] at above
          exact absurd within above.not_ge
        rw [nothing, single]
        simp [inOrder]
      · have following : (first + 1).toNat = first.toNat + 1 := by
          have bound := UInt64.lt_iff_toNat_lt.mp (more.trans below)
          have top : maxBlockNumber.toNat = 18446744073709551615 := rfl
          rw [UInt64.toNat_add, UInt64.toNat_one, Nat.mod_eq_of_lt (by omega)]
        have moreNat := UInt64.lt_iff_toNat_lt.mp more
        have nextOrdered : first + 1 ≤ last := by
          rw [UInt64.le_iff_toNat_le, following]
          exact moreNat
        have tailCovers : ∀ number, (∃ block ∈ tail, block.number = number) ↔
            first + 1 ≤ number ∧ number ≤ last := by
          intro number
          constructor
          · intro held
            rcases held with ⟨block, member, same⟩
            have above := UInt64.lt_iff_toNat_lt.mp (headBelow block member)
            rw [headFirst, same] at above
            have within := (covers number).mp ⟨block, List.mem_cons_of_mem head member, same⟩
            refine ⟨?_, within.2⟩
            rw [UInt64.le_iff_toNat_le, following]
            exact above
          · intro within
            have above := UInt64.le_iff_toNat_le.mp within.1
            rw [following] at above
            have lower : first ≤ number := by
              rw [UInt64.le_iff_toNat_le]
              omega
            rcases (covers number).mpr ⟨lower, within.2⟩ with ⟨block, member, same⟩
            rcases List.mem_cons.mp member with own | later
            · rw [← same, own, headFirst] at above
              omega
            · exact ⟨block, later, same⟩
        rcases ih nextOrdered tailSorted tailCovers with ⟨read, length⟩
        rw [read, List.length_cons, length, following]
        exact ⟨rfl, by omega⟩

section Server

variable {remote : KvDb} {chain : UInt64} (sound : Sound remote)

include sound

theorem held_range_completes {range : BlockRange} (ordered : range.start ≤ range.stop)
    (below : range.stop < maxBlockNumber)
    (held : ∀ number, range.start ≤ number → number ≤ range.stop →
      (getBytes remote chain number).isSome) :
    ∃ messages,
      RpcServer.getBlockRange remote ⟨chain, range.start, range.stop⟩ = .ok messages ∧
        Completes range messages := by
  rcases RpcServer.get_block_range_exact sound chain ordered with
    ⟨blocks, served, sorted, members⟩
  have covers : ∀ number, (∃ block ∈ blocks, block.number = number) ↔
      range.start ≤ number ∧ number ≤ range.stop := by
    intro number
    constructor
    · intro sent
      rcases sent with ⟨block, member, same⟩
      rw [← same]
      exact ((members block).mp member).2
    · intro within
      rcases Option.isSome_iff_exists.mp (held number within.1 within.2) with ⟨data, found⟩
      exact ⟨⟨data, number⟩, (members _).mpr ⟨found, within⟩, rfl⟩
  rcases in_order_interval ordered below sorted covers with ⟨read, length⟩
  refine ⟨blocks.map .ok, served, ?_, ?_⟩
  · rw [read]
  · have orderedNat := UInt64.le_iff_toNat_le.mp ordered
    rw [read, length, UInt64.ofNat_add, UInt64.ofNat_sub orderedNat, UInt64.ofNat_toNat,
      UInt64.ofNat_toNat]
    grind

theorem held_download_succeeds {db : KvDb} (readable : Readable db chain)
    {ranges : List BlockRange} (position : Nat)
    (inhabited : ∀ range ∈ ranges, range.start ≤ range.stop)
    (below : ∀ range ∈ ranges, range.stop < maxBlockNumber)
    (held : ∀ number ∈ denote ranges, (getBytes remote chain number).isSome) :
    (download (honestServer remote) chain position db ranges).2 = .ok () := by
  induction ranges generalizing db position with
  | nil => rfl
  | cons range rest ih =>
      rcases held_range_completes sound (inhabited range List.mem_cons_self)
          (below range List.mem_cons_self) (fun number lower upper =>
            held number (mem_denote_cons.mpr (.inl ⟨lower, upper⟩))) with
        ⟨messages, served, completes⟩
      rcases download_range_stores readable range messages with ⟨-, stillReadable, completed⟩
      have received := completed completes
      rw [download]
      simp only [honestServer, served]
      generalize downloadRange chain db range (.ok messages) = outcome at *
      rcases outcome with ⟨updated, result⟩
      cases received
      exact ih stillReadable (position + 1)
        (fun other member => inhabited other (List.mem_cons_of_mem range member))
        (fun other member => below other (List.mem_cons_of_mem range member))
        (fun number member => held number (mem_denote_cons.mpr (.inr member)))

end Server

theorem canonical_is_sorted_by_key {ranges : List BlockRange} (canonical : Canonical ranges) :
    isSortedByKey ranges = true := by
  induction ranges with
  | nil => rfl
  | cons left rest ih =>
      rcases canonical_cons.mp canonical with ⟨inhabited, separated, tailCanonical⟩
      cases rest with
      | nil => rfl
      | cons right others =>
          rcases separated right List.mem_cons_self with ⟨gap, below, above⟩
          have before : left.start < right.start :=
            (inhabited.trans_lt below).trans above
          rw [isSortedByKey, ih tailCanonical, Bool.and_true, decide_eq_true_eq]
          exact .inl before

/-- The last requested number: the given one, if the server has the chain at all, or the
server's last. -/
def LastRequested (remote : KvDb) (chain : UInt64) (toBlock : Option UInt64) (last : UInt64) :
    Prop :=
  (toBlock = some last ∧ ∃ number, (getBytes remote chain number).isSome) ∨
    (toBlock = none ∧ IsGreatest {number | (getBytes remote chain number).isSome} last)

section Plan

variable {remote : KvDb} {chain : UInt64}

theorem remote_ranges_of_held (consistent : MetadataConsistent remote)
    (held : ∃ number, (getBytes remote chain number).isSome) :
    ∃ listed, remoteRanges (honestServer remote) chain = .ok listed ∧ Canonical listed ∧
      listed ≠ [] ∧ denote listed = {number | (getBytes remote chain number).isSome} := by
  rcases consistent.ranges chain with ⟨listed, read, canonical, denotes⟩
  rcases held with ⟨number, present⟩
  have listedNumber : number ∈ denote listed := by
    rw [denotes]
    exact present
  have nonempty : listed ≠ [] := by
    intro empty
    rw [empty] at listedNumber
    simp at listedNumber
  refine ⟨listed, ?_, canonical, nonempty, denotes⟩
  rw [remote_ranges_listed read, canonical_is_sorted_by_key canonical]
  simp [nonempty]

theorem last_requested_iff {listed : List BlockRange} (canonical : Canonical listed)
    (nonempty : listed ≠ [])
    (denotes : denote listed = {number | (getBytes remote chain number).isSome})
    (toBlock : Option UInt64) (last : UInt64) :
    LastRequested remote chain toBlock last ↔
      toBlock.getD (lastRemoteBlock listed) = last := by
  have greatest := last_remote_block_greatest canonical nonempty
  rw [denotes] at greatest
  unfold LastRequested
  cases toBlock with
  | none =>
      simp only [reduceCtorEq, false_and, true_and, false_or, Option.getD_none]
      constructor
      · intro own
        exact greatest.unique own
      · intro same
        rw [← same]
        exact greatest
  | some given =>
      simp only [Option.some.injEq, reduceCtorEq, false_and, or_false, Option.getD_some]
      exact and_iff_left ⟨_, greatest.1⟩

end Plan

structure Fetchable (db remote : KvDb) (chain : UInt64) (fromBlock toBlock : Option UInt64)
    (last : UInt64) : Prop where
  requested : LastRequested remote chain toBlock last
  ordered : fromBlock.getD 0 ≤ last
  held : ∀ number, fromBlock.getD 0 ≤ number → number ≤ last →
    (getBytes db chain number).isSome ∨ (getBytes remote chain number).isSome

/-- What a successful fetch stored: requested blocks of the server that were missing. -/
structure Fetches (db remote : KvDb) (chain first last : UInt64) (writes : List BlockWrite)
    (final : KvDb) : Prop where
  stored : putAll db writes = .ok final
  missing : ∀ write ∈ writes, write.chainId = chain ∧
    (first ≤ write.blockNumber ∧ write.blockNumber ≤ last) ∧
    getBytes db chain write.blockNumber = none ∧
    getBytes remote chain write.blockNumber = some write.data
  below : ∀ write ∈ writes, write.blockNumber < maxBlockNumber
  filled : ∀ number, first ≤ number → number ≤ last → (getBytes final chain number).isSome

section Fetch

variable {db remote : KvDb} {chain : UInt64} {fromBlock toBlock : Option UInt64}
variable (consistent : MetadataConsistent db)

include consistent

theorem fetch_ok_stores (remoteConsistent : MetadataConsistent remote) {final : KvDb}
    (fetched : fetch (honestServer remote) db chain fromBlock toBlock = (final, .ok ())) :
    ∃ last writes, Fetchable db remote chain fromBlock toBlock last ∧
      Fetches db remote chain (fromBlock.getD 0) last writes final := by
  unfold fetch at fetched
  cases planned : planFetch (honestServer remote) db chain fromBlock toBlock with
  | error failure =>
      rw [planned] at fetched
      cases fetched
  | ok ranges =>
      simp only [planned] at fetched
      rcases plan_fetch_ok.mp planned with
        ⟨listed, localRanges, listedRead, localRead, ordered, rangesEq, available⟩
      rcases remote_ranges_honest remoteConsistent listedRead with
        ⟨canonical, nonempty, denotes⟩
      rcases subtract_stored_ranges consistent ordered localRead with
        ⟨planCanonical, members⟩
      rw [rangesEq] at planCanonical members
      have below := available_below remoteConsistent canonical denotes available
      have stored := download_stores (honestServer remote)
        (consistent_readable consistent chain) 0 ranges
      rw [fetched] at stored
      refine ⟨_, _, ⟨(last_requested_iff canonical nonempty denotes toBlock _).mpr rfl, ordered,
        ?_⟩, ⟨stored, ?_, ?_, ?_⟩⟩
      · intro number lower upper
        cases present : getBytes db chain number with
        | some data => exact .inl rfl
        | none =>
            have missing := (members number).mpr ⟨⟨lower, upper⟩, present⟩
            have listedNumber :=
              (check_available_iff canonical planCanonical.inhabited).mp available missing
            rw [denotes] at listedNumber
            exact .inr listedNumber
      · intro write member
        rcases honest_writes_sound planCanonical.inhabited below member with
          ⟨own, requested, remoteBytes⟩
        rcases (members _).mp requested with ⟨within, absent⟩
        exact ⟨own, within, absent, remoteBytes⟩
      · intro write member
        rcases (honest_writes_sound planCanonical.inhabited below member).2.1 with
          ⟨range, rangeMember, -, upper⟩
        exact upper.trans_lt (below range rangeMember)
      · intro number lower upper
        exact (honest_download_fills planCanonical.inhabited below consistent members fetched
          lower upper).1

theorem fetchable_succeeds (sound : Sound remote) {last : UInt64}
    (fetchable : Fetchable db remote chain fromBlock toBlock last) :
    (fetch (honestServer remote) db chain fromBlock toBlock).2 = .ok () := by
  have remoteConsistent := sound_consistent sound
  have ordered := fetchable.ordered
  have someHeld : ∃ number, (getBytes remote chain number).isSome := by
    rcases fetchable.requested with ⟨-, present⟩ | ⟨-, greatest⟩
    · exact present
    · exact ⟨last, greatest.1⟩
  rcases remote_ranges_of_held remoteConsistent someHeld with
    ⟨listed, listedRead, canonical, nonempty, denotes⟩
  have lastEq :=
    (last_requested_iff canonical nonempty denotes toBlock last).mp fetchable.requested
  rcases consistent.ranges chain with ⟨localRanges, localRead, -⟩
  rcases subtract_stored_ranges consistent ordered localRead with ⟨planCanonical, members⟩
  have missingHeld : ∀ number ∈ denote (subtractRanges ⟨fromBlock.getD 0, last⟩ localRanges),
      (getBytes remote chain number).isSome := by
    intro number member
    rcases (members number).mp member with ⟨⟨lower, upper⟩, absent⟩
    rcases fetchable.held number lower upper with present | there
    · rw [absent] at present
      cases present
    · exact there
  have available : checkAvailable chain listed
      (subtractRanges ⟨fromBlock.getD 0, last⟩ localRanges) = .ok () := by
    apply (check_available_iff canonical planCanonical.inhabited).mpr
    intro number member
    rw [denotes]
    exact missingHeld number member
  have planned : planFetch (honestServer remote) db chain fromBlock toBlock =
      .ok (subtractRanges ⟨fromBlock.getD 0, last⟩ localRanges) := by
    rw [← lastEq] at ordered available ⊢
    exact plan_fetch_ok.mpr ⟨listed, localRanges, listedRead, localRead, ordered, rfl, available⟩
  rw [fetch, planned]
  exact held_download_succeeds sound (consistent_readable consistent chain) 0
    planCanonical.inhabited (available_below remoteConsistent canonical denotes available)
    missingHeld

end Fetch

/-- A fetch from an honest server succeeds exactly if the server has the chain, the bounds are
in order and every requested block is stored on one of the two sides. -/
theorem fetch_succeeds_iff {db remote : KvDb} (consistent : MetadataConsistent db)
    (sound : Sound remote) (chain : UInt64) (fromBlock toBlock : Option UInt64) :
    (fetch (honestServer remote) db chain fromBlock toBlock).2 = .ok () ↔
      ∃ last, LastRequested remote chain toBlock last ∧ fromBlock.getD 0 ≤ last ∧
        ∀ number, fromBlock.getD 0 ≤ number → number ≤ last →
          (getBytes db chain number).isSome ∨ (getBytes remote chain number).isSome := by
  constructor
  · intro fetched
    have whole : fetch (honestServer remote) db chain fromBlock toBlock = (_, .ok ()) :=
      Prod.ext rfl fetched
    rcases fetch_ok_stores consistent (sound_consistent sound) whole with
      ⟨last, -, ⟨requested, ordered, held⟩, -⟩
    exact ⟨last, requested, ordered, held⟩
  · intro possible
    rcases possible with ⟨last, requested, ordered, held⟩
    exact fetchable_succeeds consistent sound ⟨requested, ordered, held⟩

theorem single_block (chain : UInt64) {number : UInt64} (data : Bytes)
    (below : number < maxBlockNumber) :
    ∃ db, putBytes freshDb chain number data = .ok db ∧ Sound db ∧
      getBytes db chain number = some data ∧ LastRequested db chain none number ∧
      ∀ other, (getBytes db chain other).isSome → other = number := by
  rcases put_bytes_reachable (fresh_reachable ⟨fun _ => [], fun _ => .error ""⟩) chain number
    data below with ⟨db, stored, reachable, found⟩
  have only : ∀ other, (getBytes db chain other).isSome → other = number := by
    intro other present
    rw [get_bytes_put_bytes stored chain other] at present
    by_contra different
    simp [Ne.symm different, getBytes, freshDb, OrderedStore.get_put] at present
  refine ⟨db, stored, reachable_sound reachable, found, .inr ⟨rfl, ?_, ?_⟩, only⟩
  · rw [Set.mem_ofPred_eq, found]
    rfl
  · exact fun other present => (only other present).le

theorem fetch_succeeds_first_block :
    ∃ remote, putBytes freshDb 1 0 [0xb0] = .ok remote ∧
      (fetch (honestServer remote) freshDb 1 none none).2 = .ok () := by
  rcases single_block 1 [0xb0] (show 0 < maxBlockNumber by decide) with
    ⟨remote, stored, sound, found, requested, -⟩
  have fresh := sound_consistent (create_sound create_empty)
  refine ⟨remote, stored, (fetch_succeeds_iff fresh sound 1 none none).mpr
    ⟨0, requested, le_refl 0, ?_⟩⟩
  intro number lower upper
  rw [le_antisymm upper UInt64.zero_le, found]
  exact .inr rfl

theorem put_all_restores {contents : Contents} (valid : contents.Valid) {chain number : UInt64}
    (present : number ∈ contents.numbers chain) {first last : UInt64} {writes : List BlockWrite}
    (own : ∀ write ∈ writes, write.chainId = chain)
    (restored : ∀ other, (lastWrite writes chain other).or
      ((contents.delete chain first last).blocks chain other) = contents.blocks chain other) :
    (contents.delete chain first last).putAll writes = contents := by
  have tracked := valid.tracked chain number present
  have listed := valid.listed chain (.inl ⟨number, present⟩)
  have chains : ((contents.delete chain first last).putAll writes).chains = contents.chains := by
    ext other
    rw [put_all_chains]
    constructor
    · intro named
      rcases named with ⟨write, member, same⟩ | before
      · rw [← same, own write member]
        exact listed
      · exact before
    · exact fun before => .inr before
  apply Contents.ext
  · funext other position
    rw [put_all_blocks]
    by_cases same : chain = other
    · rw [← same]
      exact restored position
    · have untouched : lastWrite writes other position = none := by
        rw [Option.eq_none_iff_forall_ne_some]
        intro data found
        exact same (own _ (last_write_mem found)).symm
      rw [untouched, Option.none_or]
      simp [Contents.delete, same]
  · funext other
    rw [put_all_tracked]
    apply propext
    constructor
    · intro either
      rcases either with ⟨write, member, same⟩ | same | before
      · rw [← same, own write member]
        exact tracked
      · rw [same]
        exact tracked
      · exact before
    · exact fun before => .inr (.inr before)
  · cases stored : contents.listed with
    | none =>
        rw [Contents.chains, stored] at listed
        cases listed
    | some names =>
        by_cases nothing : writes = []
        · rw [nothing, put_all_nil]
          exact stored
        · rw [put_all_listed _ nothing, chains, Contents.chains, stored]
          rfl
  · rw [put_all_other]
    rfl

/-- A purge changes the store only if it is confirmed, by one range deletion within the given
bounds, of a chain that has blocks. -/
theorem purge_deletes (console : Console) {db : KvDb} (consistent : MetadataConsistent db)
    (chain : UInt64) (fromBlock toBlock : Option UInt64) :
    (purge console db chain fromBlock toBlock).1 = db ∨
      ∃ last, fromBlock.getD 0 ≤ last ∧ (∀ given, toBlock = some given → given = last) ∧
        deleteRange db chain (fromBlock.getD 0) last =
          .ok (purge console db chain fromBlock toBlock).1 ∧
        (∃ number, (getBytes db chain number).isSome) ∧
        ∃ input, console.readLine = .ok input ∧ confirms input = true := by
  by_cases asked : ∃ announced first last,
      planPurge db chain fromBlock toBlock = .ok (.confirm announced first last)
  · rcases asked with ⟨announced, first, last, planned⟩
    rcases plan_purge_announces consistent planned with ⟨ordered, lower, bounds, count⟩
    have given : ∀ given, toBlock = some given → given = last := by
      intro given same
      rcases bounds with own | ⟨missing, -⟩
      · exact Option.some.inj (same.symm.trans own)
      · cases same.symm.trans missing
    have someStored : ∃ number, (getBytes db chain number).isSome := by
      rcases consistent.ranges chain with ⟨ranges, read, canonical, denotes⟩
      cases ranges with
      | nil => simp [planPurge, read, ite_eq_iff] at planned
      | cons range rest =>
          have member := canonical_head_start_mem canonical
          rw [denotes] at member
          exact ⟨range.start, member⟩
    rcases @delete_range_purges db consistent chain first last ordered with ⟨updated, deleted, -⟩
    cases answer : ask console chain announced first last with
    | error failure =>
        rw [purge_question_fails planned answer]
        exact .inl rfl
    | ok input =>
        cases confirmed : confirms input with
        | false =>
            rw [purge_declined planned answer confirmed]
            exact .inl rfl
        | true =>
            have outcome : (purge console db chain fromBlock toBlock).1 = updated := by
              simp [purge, planned, answer, confirmed, deleted]
            rcases bind_eq_ok.mp answer with ⟨-, -, flushed⟩
            rcases bind_eq_ok.mp flushed with ⟨-, -, read⟩
            rw [outcome, ← lower]
            exact .inr ⟨last, ordered, given, deleted, someStored, input, read, confirmed⟩
  · apply Or.inl
    apply purge_unasked
    intro announced first last planned
    exact asked ⟨announced, first, last, planned⟩

section Restoring

variable {db remote : KvDb} (console : Console) {chain : UInt64}
variable {purgeFrom purgeTo fromBlock toBlock : Option UInt64}

theorem refilled_restores (sound : Sound db) {writes : List BlockWrite} {final : KvDb}
    (stored : putAll (purge console db chain purgeFrom purgeTo).1 writes = .ok final)
    (own : ∀ write ∈ writes, write.chainId = chain)
    (below : ∀ write ∈ writes, write.blockNumber < maxBlockNumber)
    (missing : ∀ write ∈ writes,
      getBytes (purge console db chain purgeFrom purgeTo).1 chain write.blockNumber = none)
    (restored : ∀ number, getBytes final chain number = getBytes db chain number) :
    final = db := by
  rcases sound with ⟨contents, valid, keyed, represents⟩
  have consistent := metadata_consistent_iff.mpr ⟨contents, valid, represents⟩
  have read := get_bytes_put_all stored chain
  rcases purge_deletes console consistent chain purgeFrom purgeTo with
    unchanged | ⟨last, ordered, -, deleted, ⟨number, present⟩, -⟩
  · rw [unchanged] at stored missing
    have nothing : writes = [] := by
      apply List.eq_nil_iff_forall_not_mem.mpr
      intro write member
      have absent := missing write member
      rcases last_write_exists member with ⟨data, found⟩
      have final := restored write.blockNumber
      rw [read, ← own write member, found, own write member, absent] at final
      cases final
    rw [nothing] at stored
    cases stored
    rfl
  · rcases delete_range_simulates represents valid keyed chain ordered with
      ⟨updated, again, after⟩
    cases deleted.symm.trans again
    rcases put_all_simulates after (delete_valid valid chain _ last) writes below with
      ⟨refilled, storedAgain, finalRepresents⟩
    cases stored.symm.trans storedAgain
    have back : (contents.delete chain (purgeFrom.getD 0) last).putAll writes = contents := by
      apply put_all_restores valid _ own
      · intro other
        rw [← after.blocks, ← read, restored, represents.blocks]
      · exact number
      · rw [represents.blocks] at present
        exact present
    rw [back] at finalRepresents
    exact represents_unique finalRepresents represents

theorem purge_leaves (sound : Sound db) :
    Sound (purge console db chain purgeFrom purgeTo).1 ∧ ∀ number,
      getBytes (purge console db chain purgeFrom purgeTo).1 chain number = none ∨
        getBytes (purge console db chain purgeFrom purgeTo).1 chain number =
          getBytes db chain number := by
  rcases purge_deletes console (sound_consistent sound) chain purgeFrom purgeTo with
    unchanged | ⟨last, ordered, -, deleted, -⟩
  · rw [unchanged]
    exact ⟨sound, fun number => .inr rfl⟩
  · rcases sound with ⟨contents, valid, keyed, represents⟩
    rcases delete_range_simulates represents valid keyed chain ordered with
      ⟨updated, again, after⟩
    cases deleted.symm.trans again
    constructor
    · exact ⟨_, delete_valid valid chain _ last, keyed, after⟩
    · intro number
      rw [after.blocks, represents.blocks]
      by_cases inside : purgeFrom.getD 0 ≤ number ∧ number ≤ last
      · exact .inl (by simp [Contents.delete, inside])
      · exact .inr (by simp [Contents.delete, inside])

theorem LastRequested.unique {left right : UInt64}
    (leftRequested : LastRequested remote chain toBlock left)
    (rightRequested : LastRequested remote chain toBlock right) : left = right := by
  rcases leftRequested with ⟨given, -⟩ | ⟨open_, greatest⟩
  · rcases rightRequested with ⟨again, -⟩ | ⟨missing, -⟩
    · exact Option.some.inj (given.symm.trans again)
    · cases given.symm.trans missing
  · rcases rightRequested with ⟨given, -⟩ | ⟨-, other⟩
    · cases given.symm.trans open_
    · exact greatest.unique other

end Restoring

/-- After a purge, whatever became of it, a fetch from an honest server brings the database
back byte for byte exactly if the requested range was stored completely before the purge and
contains all that was purged, which the server holds with the same bytes. -/
theorem fetch_restores_purged_iff {db remote : KvDb} (sound : Sound db)
    (remoteSound : Sound remote) (console : Console) (chain : UInt64)
    (purgeFrom purgeTo fromBlock toBlock : Option UInt64) :
    fetch (honestServer remote) (purge console db chain purgeFrom purgeTo).1 chain
        fromBlock toBlock = (db, .ok ()) ↔
      ∃ last, LastRequested remote chain toBlock last ∧ fromBlock.getD 0 ≤ last ∧
        (∀ number, fromBlock.getD 0 ≤ number → number ≤ last →
          (getBytes db chain number).isSome) ∧
        ∀ number, getBytes (purge console db chain purgeFrom purgeTo).1 chain number ≠
            getBytes db chain number →
          fromBlock.getD 0 ≤ number ∧ number ≤ last ∧
            getBytes remote chain number = getBytes db chain number := by
  have left := @purge_leaves db console chain purgeFrom purgeTo sound
  have whole := @refilled_restores db console chain purgeFrom purgeTo sound
  generalize (purge console db chain purgeFrom purgeTo).1 = purged at *
  rcases left with ⟨purgedSound, leaves⟩
  have purgedConsistent := sound_consistent purgedSound
  have remoteConsistent := sound_consistent remoteSound
  constructor
  · intro fetched
    rcases fetch_ok_stores purgedConsistent remoteConsistent fetched with
      ⟨last, writes, fetchable, fetches⟩
    refine ⟨last, fetchable.requested, fetchable.ordered, fetches.filled, ?_⟩
    intro number lost
    have read := get_bytes_put_all fetches.stored chain number
    cases found : lastWrite writes chain number with
    | none =>
        rw [found, Option.none_or] at read
        exact absurd read.symm lost
    | some data =>
        rcases fetches.missing _ (last_write_mem found) with ⟨-, ⟨lower, upper⟩, -, remoteBytes⟩
        rw [found] at read
        exact ⟨lower, upper, remoteBytes.trans read.symm⟩
  · intro possible
    rcases possible with ⟨last, requested, ordered, complete, recoverable⟩
    have fetchable : Fetchable purged remote chain fromBlock toBlock last := by
      constructor
      · exact requested
      · exact ordered
      · intro number lower upper
        have stored := complete number lower upper
        by_cases same : getBytes purged chain number = getBytes db chain number
        · rw [same]
          exact .inl stored
        · rw [(recoverable number same).2.2]
          exact .inr stored
    have succeeded := fetchable_succeeds purgedConsistent remoteSound fetchable
    cases fetched : fetch (honestServer remote) purged chain fromBlock toBlock with
    | mk final result =>
        rw [fetched] at succeeded
        cases succeeded
        rcases fetch_ok_stores purgedConsistent remoteConsistent fetched with
          ⟨same, writes, again, fetches⟩
        cases requested.unique again.requested
        have restored : ∀ number, getBytes final chain number = getBytes db chain number := by
          intro number
          have read := get_bytes_put_all fetches.stored chain number
          by_cases kept : getBytes purged chain number = getBytes db chain number
          · cases found : lastWrite writes chain number with
            | none => rwa [found, Option.none_or, kept] at read
            | some data =>
                rcases fetches.missing _ (last_write_mem found) with
                  ⟨-, ⟨lower, upper⟩, absent, -⟩
                have stored := complete number lower upper
                rw [← kept, absent] at stored
                cases stored
          · rcases recoverable number kept with ⟨lower, upper, remoteBytes⟩
            have absent := (leaves number).resolve_right kept
            have filled := fetches.filled number lower upper
            cases found : lastWrite writes chain number with
            | none =>
                rw [read, found, absent] at filled
                cases filled
            | some data =>
                rw [read, found, ← remoteBytes]
                exact (fetches.missing _ (last_write_mem found)).2.2.2.symm
        rw [whole fetches.stored (fun write member => (fetches.missing write member).1)
          fetches.below (fun write member => (fetches.missing write member).2.2.1) restored]

/-- A purge that failed on its closing message is undone by a fetch from the purged block
on. -/
theorem fetch_restores_purged_single :
    ∃ db, putBytes freshDb 7 5 [0x0a] = .ok db ∧
      (purge closedConsole db 7 none none).2 = .error (.console "broken pipe") ∧
      getBytes (purge closedConsole db 7 none none).1 7 5 = none ∧
      fetch (honestServer db) (purge closedConsole db 7 none none).1 7 (some 5) none =
        (db, .ok ()) := by
  rcases single_block 7 [0x0a] (show 5 < maxBlockNumber by decide) with
    ⟨db, stored, sound, found, requested, only⟩
  have planned : planPurge db 7 none none = .ok (.confirm 1 0 5) := by
    simp only [planPurge, get_ranges_put_bytes stored (fresh_get_ranges 7)]
    rfl
  have asked : ask closedConsole 7 1 0 5 = .ok "y\n" := rfl
  rcases purge_confirmed planned (sound_consistent sound) (by decide) asked (by decide) with
    ⟨purged, outcome⟩
  refine ⟨db, stored, outcome, purged.gone 5 (by decide) (by decide),
    (fetch_restores_purged_iff sound sound closedConsole 7 none none (some 5) none).mpr
      ⟨5, requested, le_refl 5, ?_, ?_⟩⟩
  · intro number lower upper
    rw [le_antisymm upper lower]
    rw [found]
    rfl
  · intro number lost
    have gone := (@purge_leaves db closedConsole 7 none none sound).2 number
    have present : (getBytes db 7 number).isSome := by
      apply Option.isSome_iff_ne_none.mpr
      intro absent
      rw [absent, or_self] at gone
      exact lost (gone.trans absent.symm)
    rw [only number present]
    exact ⟨le_refl 5, le_refl 5, rfl⟩

end Bertha.FetchSuccess
