import Bertha.Fetch

/-!
# Fetching from an honest server

Against `RpcServer` over a consistent store, a successful fetch fills exactly the missing
part of the requested range with the server's bytes. The availability check keeps every
request below `u64::MAX`, so the numbers of a stream never wrap, and the length check then
leaves no hole.
-/

namespace Bertha.FetchHonest

open Bertha.BigEndian Bertha.BinarySearch Bertha.BlockDb Bertha.BlockDbContents
open Bertha.BlockDbContents.Contents Bertha.BlockDbInvariant Bertha.BlockKeys
open Bertha.BlockRanges Bertha.Fetch Bertha.IntervalList Bertha.OrderedStore
open Bertha.RpcServer (ChainListing BlockRangeRequest EncodedBlock Status)

set_option autoImplicit false

theorem remote_ranges_listed {remote : KvDb} {chain : UInt64} {ranges : List BlockRange}
    (read : getRangesOfChainId remote chain = .ok ranges) :
    remoteRanges (honestServer remote) chain =
      if ranges.isEmpty then
        .error (.message s!"chain id {chain} found, but server returned empty chain range")
      else if !isSortedByKey ranges then
        .error (.message s!"remote ranges for chain ID {chain} are not sorted")
      else .ok ranges := by
  obtain ⟨listing, reply, chainSame, rangesSame⟩ := RpcServer.list_of_chain read
  have found : [listing].find? (fun listing => listing.chainId == chain) = some listing := by
    simp [chainSame]
  simp only [remoteRanges, honestServer, reply, found, rangesSame]

theorem remote_ranges_honest {remote : KvDb} (consistent : MetadataConsistent remote)
    {chain : UInt64} {listed : List BlockRange}
    (read : remoteRanges (honestServer remote) chain = .ok listed) :
    Canonical listed ∧ listed ≠ [] ∧
      denote listed = {number | (getBytes remote chain number).isSome} := by
  obtain ⟨ranges, rangesRead, canonical, denotes⟩ := consistent.ranges chain
  rw [remote_ranges_listed rangesRead] at read
  split_ifs at read with empty
  cases read
  exact ⟨canonical, by simpa using empty, denotes⟩

theorem last_remote_block_greatest {listed : List BlockRange} (canonical : Canonical listed)
    (nonempty : listed ≠ []) : IsGreatest (denote listed) (lastRemoteBlock listed) := by
  cases last : listed.getLast? with
  | none => exact absurd (List.getLast?_eq_none_iff.mp last) nonempty
  | some range =>
      have same : lastRemoteBlock listed = range.stop := by
        rw [lastRemoteBlock, last]
        rfl
      rw [same]
      exact canonical_last_greatest canonical last

theorem check_available_within {chain : UInt64} {remote ranges : List BlockRange}
    (available : checkAvailable chain remote ranges = .ok ()) {range : BlockRange}
    (member : range ∈ ranges) :
    ∃ outer ∈ remote, outer.start ≤ range.start ∧ range.stop ≤ outer.stop := by
  induction ranges with
  | nil => simp at member
  | cons head rest ih =>
      simp only [checkAvailable] at available
      split at available
      · cases available
      · rename_i index found
        rcases List.mem_cons.mp member with rfl | later
        · obtain ⟨outer, read, equal⟩ := binary_search_by_found found
          unfold compareRemote at equal
          split_ifs at equal with inside
          exact ⟨outer, List.mem_of_getElem? read, inside.1, inside.2⟩
        · exact ih available later

section HonestStream

variable {remote : KvDb} {chain : UInt64} {range : BlockRange}
  {messages : List (Except Status EncodedBlock)}
  (served : RpcServer.getBlockRange remote ⟨chain, range.start, range.stop⟩ = .ok messages)
  (inhabited : range.start ≤ range.stop) (below : range.stop < maxBlockNumber)

include served inhabited below

theorem honest_stream_length :
    (inOrder range.start messages).length ≤ range.stop.toNat - range.start.toNat + 1 := by
  by_contra long
  have inside : range.stop.toNat - range.start.toNat + 1 <
      (inOrder range.start messages).length := by omega
  have read := List.getElem?_eq_getElem inside
  have number := in_order_number read
  have within : _ ≤ range.stop := (RpcServer.get_block_range_sound served
    (in_order_mem (List.mem_of_getElem? read))).2
  have ordered := UInt64.le_iff_toNat_le.mp inhabited
  have top : range.stop.toNat < 18446744073709551615 := UInt64.lt_iff_toNat_lt.mp below
  rw [UInt64.le_iff_toNat_le, number, UInt64.toNat_add, UInt64.toNat_ofNat'] at within
  omega

/-- The stream of a request that completes carries each requested number once. -/
theorem honest_stream_covers (completes : Completes range messages) {number : UInt64}
    (lower : range.start ≤ number) (upper : number ≤ range.stop) :
    ∃ block ∈ inOrder range.start messages, block.number = number := by
  have short := honest_stream_length served inhabited below
  have ordered := UInt64.le_iff_toNat_le.mp inhabited
  have lowerNat := UInt64.le_iff_toNat_le.mp lower
  have upperNat := UInt64.le_iff_toNat_le.mp upper
  have top : range.stop.toNat < 18446744073709551615 := UInt64.lt_iff_toNat_lt.mp below
  have count : (inOrder range.start messages).length =
      range.stop.toNat - range.start.toNat + 1 := by
    have expected : range.start + UInt64.ofNat (inOrder range.start messages).length =
        range.stop + 1 := by
      rw [← completes.2]
      grind
    have expectedNat := congrArg UInt64.toNat expected
    rw [UInt64.toNat_add, UInt64.toNat_add, UInt64.toNat_ofNat', UInt64.toNat_one] at expectedNat
    omega
  have inside : number.toNat - range.start.toNat < (inOrder range.start messages).length := by
    omega
  have read := List.getElem?_eq_getElem inside
  refine ⟨_, List.mem_of_getElem? read, UInt64.toNat_inj.mp ?_⟩
  rw [in_order_within inhabited read (by omega)]
  omega

theorem honest_stream_sound {block : EncodedBlock}
    (member : block ∈ inOrder range.start messages) :
    getBytes remote chain block.number = some block.data ∧
      range.start ≤ block.number ∧ block.number ≤ range.stop := by
  have sound := RpcServer.get_block_range_sound served (in_order_mem member)
  refine ⟨sound.1, ?_, sound.2⟩
  obtain ⟨index, read⟩ := List.mem_iff_getElem?.mp member
  have short := honest_stream_length served inhabited below
  have inside := (List.getElem?_eq_some_iff.mp read).1
  rw [UInt64.le_iff_toNat_le, in_order_within inhabited read (by omega)]
  omega

end HonestStream

section HonestDownload

variable {remote db final : KvDb} {chain : UInt64} {ranges : List BlockRange}
  (inhabited : ∀ range ∈ ranges, range.start ≤ range.stop)
  (below : ∀ range ∈ ranges, range.stop < maxBlockNumber)

include inhabited below

theorem honest_writes_sound {write : BlockWrite}
    (member : write ∈ writesOf chain (reached (honestServer remote) chain 0 ranges)) :
    write.chainId = chain ∧ write.blockNumber ∈ denote ranges ∧
      getBytes remote chain write.blockNumber = some write.data := by
  obtain ⟨⟨range, blocks⟩, streamMember, inStream⟩ := List.mem_flatMap.mp member
  obtain ⟨rangeMember, later, messages, served, rfl⟩ := mem_reached streamMember
  obtain ⟨block, blockMember, rfl⟩ := List.mem_map.mp inStream
  obtain ⟨remoteBytes, lower, upper⟩ := honest_stream_sound served
    (inhabited range rangeMember) (below range rangeMember) blockMember
  exact ⟨rfl, ⟨range, rangeMember, lower, upper⟩, remoteBytes⟩

theorem honest_writes_cover
    (downloaded : download (honestServer remote) chain 0 db ranges = (final, .ok ()))
    {number : UInt64} (requested : number ∈ denote ranges) :
    ∃ write ∈ writesOf chain (reached (honestServer remote) chain 0 ranges),
      write.chainId = chain ∧ write.blockNumber = number := by
  obtain ⟨range, rangeMember, lower, upper⟩ := requested
  obtain ⟨later, messages, served, completes, streamMember⟩ := download_ok downloaded rangeMember
  obtain ⟨block, blockMember, same⟩ := honest_stream_covers served
    (inhabited range rangeMember) (below range rangeMember) completes lower upper
  exact ⟨toWrite chain block, List.mem_flatMap.mpr ⟨_, streamMember,
    List.mem_map_of_mem blockMember⟩, rfl, same⟩

theorem honest_last_write
    (downloaded : download (honestServer remote) chain 0 db ranges = (final, .ok ()))
    {number : UInt64} (requested : number ∈ denote ranges) :
    lastWrite (writesOf chain (reached (honestServer remote) chain 0 ranges)) chain number =
        getBytes remote chain number ∧ (getBytes remote chain number).isSome := by
  obtain ⟨write, member, rfl, rfl⟩ := honest_writes_cover inhabited below downloaded requested
  obtain ⟨data, found⟩ := last_write_exists member
  have stored := (honest_writes_sound inhabited below (last_write_mem found)).2.2
  simp [found, stored]

/-- A successful download of the missing numbers fills them in with the remote bytes and keeps
the numbers that were stored. -/
theorem honest_download_fills (consistent : MetadataConsistent db) {first last : UInt64}
    (members : ∀ number, number ∈ denote ranges ↔
      (first ≤ number ∧ number ≤ last) ∧ getBytes db chain number = none)
    (downloaded : download (honestServer remote) chain 0 db ranges = (final, .ok ()))
    {number : UInt64} (lower : first ≤ number) (upper : number ≤ last) :
    (getBytes final chain number).isSome ∧ getBytes final chain number =
      (getBytes db chain number).or (getBytes remote chain number) := by
  have stored := download_stores (honestServer remote) (consistent_readable consistent chain) 0
    ranges
  rw [downloaded] at stored
  rw [get_bytes_put_all stored]
  cases before : getBytes db chain number with
  | none =>
      have requested := (members number).mpr ⟨⟨lower, upper⟩, before⟩
      obtain ⟨remoteBytes, present⟩ := honest_last_write inhabited below downloaded requested
      rw [remoteBytes]
      simpa using present
  | some data =>
      have untouched : lastWrite (writesOf chain
          (reached (honestServer remote) chain 0 ranges)) chain number = none := by
        rw [Option.eq_none_iff_forall_ne_some]
        intro other found
        have requested := (honest_writes_sound inhabited below (last_write_mem found)).2.1
        rw [((members number).mp requested).2] at before
        cases before
      simp [untouched]

end HonestDownload

theorem available_below {remote : KvDb} {chain : UInt64} {listed ranges : List BlockRange}
    (consistent : MetadataConsistent remote) (canonical : Canonical listed)
    (denotes : denote listed = {number | (getBytes remote chain number).isSome})
    (available : checkAvailable chain listed ranges = .ok ()) :
    ∀ range ∈ ranges, range.stop < maxBlockNumber := by
  intro range member
  obtain ⟨outer, outerMember, -, upper⟩ := check_available_within available member
  have bounded : Bounded listed := by
    apply canonical_bounded_of_denote canonical
    rw [denotes]
    simpa [getBytes] using consistent.bounded chain
  exact upper.trans_lt (bounded outer outerMember)

/-- With a consistent local store the plan is the requested range without the stored numbers. -/
theorem subtract_stored_ranges {db : KvDb} {chain : UInt64}
    (consistent : MetadataConsistent db) {first last : UInt64} (ordered : first ≤ last)
    {localRanges : List BlockRange} (read : getRangesOfChainId db chain = .ok localRanges) :
    Canonical (subtractRanges ⟨first, last⟩ localRanges) ∧
      ∀ number, number ∈ denote (subtractRanges ⟨first, last⟩ localRanges) ↔
        (first ≤ number ∧ number ≤ last) ∧ getBytes db chain number = none := by
  obtain ⟨ranges, rangesRead, canonical, denotes⟩ := consistent.ranges chain
  cases read.symm.trans rangesRead
  obtain ⟨planCanonical, planDenotes⟩ :=
    subtract_ranges_spec ⟨first, last⟩ ordered canonical.inhabited
  refine ⟨planCanonical, fun number => ?_⟩
  rw [planDenotes, denotes]
  simp [getBytes]

theorem fetch_nothing_missing {server : Server} {db : KvDb} {chain : UInt64}
    {fromBlock toBlock : Option UInt64} (consistent : MetadataConsistent db)
    {listed : List BlockRange} (listedRead : remoteRanges server chain = .ok listed)
    (ordered : fromBlock.getD 0 ≤ toBlock.getD (lastRemoteBlock listed))
    (complete : ∀ number, fromBlock.getD 0 ≤ number →
      number ≤ toBlock.getD (lastRemoteBlock listed) → (getBytes db chain number).isSome) :
    fetch server db chain fromBlock toBlock = (db, .ok ()) := by
  obtain ⟨localRanges, localRead, -⟩ := consistent.ranges chain
  obtain ⟨canonical, members⟩ := subtract_stored_ranges consistent ordered localRead
  have nothing : subtractRanges ⟨fromBlock.getD 0, toBlock.getD (lastRemoteBlock listed)⟩
      localRanges = [] := by
    apply canonical_unique canonical canonical_nil
    rw [denote_nil, Set.eq_empty_iff_forall_notMem]
    intro number member
    obtain ⟨⟨lower, upper⟩, missing⟩ := (members number).mp member
    have present := complete number lower upper
    rw [missing] at present
    cases present
  have planned : planFetch server db chain fromBlock toBlock = .ok [] :=
    plan_fetch_ok.mpr ⟨listed, localRanges, listedRead, localRead, ordered, nothing, rfl⟩
  rw [fetch, planned]
  rfl

/-- A successful fetch from an honest server stores every requested block, missing ones with
the server's bytes, changes nothing else but the metadata of the chain, and has nothing left
to do when it is run again. -/
theorem fetch_from_honest_server {db remote final : KvDb} {chain : UInt64}
    {fromBlock toBlock : Option UInt64} (localConsistent : MetadataConsistent db)
    (remoteConsistent : MetadataConsistent remote)
    (fetched : fetch (honestServer remote) db chain fromBlock toBlock = (final, .ok ())) :
    ∃ first last, first = fromBlock.getD 0 ∧
      (toBlock = some last ∨ toBlock = none ∧
        IsGreatest {number | (getBytes remote chain number).isSome} last) ∧
      (∀ number, first ≤ number → number ≤ last →
        (getBytes final chain number).isSome ∧
          getBytes final chain number =
            (getBytes db chain number).or (getBytes remote chain number)) ∧
      (∀ key, key ≠ chainIdsKey → key ≠ makeBlockRangesKey chain →
        (∀ number, first ≤ number → number ≤ last → key ≠ makeBlockKey chain number) →
        final[key]? = db[key]?) ∧
      fetch (honestServer remote) final chain fromBlock toBlock = (final, .ok ()) := by
  cases planned : planFetch (honestServer remote) db chain fromBlock toBlock with
  | error failure => simp [fetch, planned] at fetched
  | ok ranges =>
      simp only [fetch, planned] at fetched
      obtain ⟨listed, localRanges, listedRead, localRead, ordered, rangesEq, available⟩ :=
        plan_fetch_ok.mp planned
      obtain ⟨listedCanonical, listedNonempty, listedDenotes⟩ :=
        remote_ranges_honest remoteConsistent listedRead
      obtain ⟨canonical, members⟩ := subtract_stored_ranges localConsistent ordered localRead
      rw [rangesEq] at canonical members
      have below := available_below remoteConsistent listedCanonical listedDenotes available
      have sound {write : BlockWrite}
          (member : write ∈ writesOf chain (reached (honestServer remote) chain 0 ranges)) :=
        honest_writes_sound canonical.inhabited below member
      have stored := download_stores (honestServer remote)
        (consistent_readable localConsistent chain) 0 ranges
      rw [fetched] at stored
      have filled := fun number lower upper => @honest_download_fills _ _ _ _ _
        canonical.inhabited below localConsistent _ _ members fetched number lower upper
      refine ⟨_, toBlock.getD (lastRemoteBlock listed), rfl, ?_, filled, ?_, ?_⟩
      · cases toBlock with
        | some last => exact .inl rfl
        | none =>
            refine .inr ⟨rfl, ?_⟩
            rw [← listedDenotes]
            exact last_remote_block_greatest listedCanonical listedNonempty
      · intro key notChainIds notRanges notBlock
        apply put_all_frame stored notChainIds
        intro write member
        obtain ⟨rfl, requested, -⟩ := sound member
        obtain ⟨⟨lower, upper⟩, -⟩ := (members _).mp requested
        exact ⟨notRanges, notBlock _ lower upper⟩
      · obtain ⟨updated, storedAgain, consistent⟩ := put_all_consistent localConsistent
          (writesOf chain (reached (honestServer remote) chain 0 ranges)) (by
            intro write member
            obtain ⟨range, rangeMember, -, upper⟩ := (sound member).2.1
            exact upper.trans_lt (below range rangeMember))
        cases stored.symm.trans storedAgain
        exact fetch_nothing_missing consistent listedRead ordered
          fun number lower upper => (filled number lower upper).1

theorem fetch_from_honest_server_first_block :
    ∃ remote final : KvDb, putBytes freshDb 1 0 [0xb0] = .ok remote ∧
      fetch (honestServer remote) freshDb 1 none none = (final, .ok ()) ∧
      getBytes final 1 0 = some [0xb0] := by
  have fresh := fresh_reachable ⟨fun _ => [], fun _ => .error ""⟩
  obtain ⟨remote, stored, reachable, found⟩ :=
    put_bytes_reachable fresh 1 0 [0xb0] (by decide)
  have rangesRead : getRangesOfChainId remote 1 = .ok [⟨0, 0⟩] :=
    get_ranges_put_bytes stored (fresh_get_ranges 1)
  have planned : planFetch (honestServer remote) freshDb 1 none none = .ok [⟨0, 0⟩] :=
    plan_fetch_ok.mpr ⟨[⟨0, 0⟩], [], (remote_ranges_listed rangesRead).trans rfl,
      fresh_get_ranges 1, by decide, by decide, by decide⟩
  obtain ⟨blocks, served, sorted, members⟩ := RpcServer.get_block_range_exact
    (reachable_sound reachable) 1 (le_refl 0)
  have blocksEq : blocks = [⟨[0xb0], 0⟩] := by
    have only {block : EncodedBlock} (member : block ∈ blocks) : block = ⟨[0xb0], 0⟩ := by
      obtain ⟨bytes, -, upper⟩ := (members block).mp member
      have zero : block.number = 0 := le_antisymm upper UInt64.zero_le
      rw [zero, found] at bytes
      cases block
      simp_all
    cases blocks with
    | nil => simpa using (members ⟨[0xb0], 0⟩).mpr ⟨found, le_rfl, le_rfl⟩
    | cons head tail =>
        have noMore : tail = [] := by
          rw [List.eq_nil_iff_forall_not_mem]
          intro later member
          have below := (List.pairwise_cons.mp sorted).1 later member
          rw [only (List.mem_cons_of_mem _ member), only List.mem_cons_self] at below
          exact lt_irrefl _ below
        rw [only List.mem_cons_self, noMore]
  rw [blocksEq] at served
  have completes : Completes ⟨0, 0⟩ [.ok ⟨[0xb0], 0⟩] := by decide
  have whole := (download_range_stores (consistent_readable
    (reachable_metadata_consistent fresh) 1) ⟨0, 0⟩ [.ok ⟨[0xb0], 0⟩]).2.2 completes
  obtain ⟨final, downloadedEq⟩ : ∃ final,
      download (honestServer remote) 1 0 freshDb [⟨0, 0⟩] = (final, .ok ()) := by
    refine ⟨(downloadRange 1 freshDb ⟨0, 0⟩ (.ok [.ok ⟨[0xb0], 0⟩])).1, ?_⟩
    simp only [download, honestServer]
    rw [show RpcServer.getBlockRange remote ⟨1, 0, 0⟩ = .ok [.ok ⟨[0xb0], 0⟩] from served]
    generalize downloadRange 1 freshDb ⟨0, 0⟩ _ = outcome at whole ⊢
    obtain ⟨updated, result⟩ := outcome
    cases whole
    rfl
  have fetched : fetch (honestServer remote) freshDb 1 none none = (final, .ok ()) := by
    rw [fetch, planned]
    exact downloadedEq
  obtain ⟨first, last, rfl, -, filled, -⟩ := fetch_from_honest_server
    (reachable_metadata_consistent fresh) (reachable_metadata_consistent reachable) fetched
  refine ⟨remote, final, stored, fetched, ?_⟩
  rw [(filled 0 le_rfl UInt64.zero_le).2, found]
  simp [getBytes, freshDb, get_put]

end Bertha.FetchHonest
