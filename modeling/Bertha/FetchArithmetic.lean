import Bertha.FetchFrame
import Bertha.RangeArithmetic

/-!
# The arithmetic of a fetch

The progress total and the download loop of `fetch` once more, with every sum and
difference on block numbers checked. `none` is the operation that a debug build panics on.
The counters of blocks and bytes are `usize`, serve the closing message alone and are left
out. The checked command stops at exactly three things: a total of `2^64` blocks, a counter
that passes `u64::MAX`, and an empty stream for a request that starts at block 0.
-/

namespace Bertha.FetchArithmetic

open Bertha.BinarySearch Bertha.BlockDb Bertha.BlockDbInvariant Bertha.BlockRanges
open Bertha.Fetch Bertha.FetchFrame Bertha.IntervalList Bertha.OrderedStore
open Bertha.RangeArithmetic Bertha.RangeSets
open Bertha.RpcServer (ChainListing BlockRangeRequest EncodedBlock Status)
open Bertha.BlockTypes (Error)

set_option autoImplicit false

/-- `to - from + 1`. -/
def checkedLength (range : BlockRange) : Option UInt64 := do
  let difference ← checkedSub range.stop range.start
  checkedAdd difference 1

/-- The sum handed to `make_progress_bar`. -/
def checkedTotal (ranges : List BlockRange) : Option UInt64 :=
  ranges.foldlM (fun total range => do
    let length ← checkedLength range
    checkedAdd total length) 0

def checkedReceive (chainId : UInt64) :
    KvDb → UInt64 → List (Except Status EncodedBlock) →
      Option (KvDb × Except FetchError UInt64)
  | db, expectedBlock, [] => some (db, .ok expectedBlock)
  | db, _, .error status :: _ => some (db, .error (.status status))
  | db, expectedBlock, .ok block :: rest =>
      if block.number ≠ expectedBlock then
        some (db, .error (.message (s!"expected to receive block number {expectedBlock}, " ++
          s!"got {block.number}")))
      else
        match putBytes db chainId block.number block.data with
        | .error failure => some (db, .error (.storage failure))
        | .ok updated => do
          let next ← checkedAdd expectedBlock 1
          checkedReceive chainId updated next rest

def checkedDownloadRange (chainId : UInt64) (db : KvDb) (range : BlockRange)
    (reply : Except Status (List (Except Status EncodedBlock))) :
    Option (KvDb × Except FetchError Unit) :=
  match reply with
  | .error status => some (db, .error (.status status))
  | .ok messages => do
    match ← checkedReceive chainId db range.start messages with
    | (updated, .error failure) => return (updated, .error failure)
    | (updated, .ok expectedBlock) =>
      let lastReceived ← checkedSub expectedBlock 1
      let length ← checkedLength range
      if lastReceived ≠ range.stop then
        let received ← checkedSub expectedBlock range.start
        return (updated, .error (.message ("received fewer blocks than expected: expected " ++
          s!"{length}, got {received}")))
      else
        return (updated, .ok ())

def checkedDownload (server : Server) (chainId : UInt64) :
    Nat → KvDb → List BlockRange → Option (KvDb × Except FetchError Unit)
  | _, db, [] => some (db, .ok ())
  | position, db, range :: rest => do
    let reply := server.getBlockRange position ⟨chainId, range.start, range.stop⟩
    match ← checkedDownloadRange chainId db range reply with
    | (updated, .error failure) => return (updated, .error failure)
    | (updated, .ok ()) => checkedDownload server chainId (position + 1) updated rest

def checkedFetch (server : Server) (db : KvDb) (chainId : UInt64)
    (fromBlock toBlock : Option UInt64) : Option (KvDb × Except FetchError Unit) :=
  match planFetch server db chainId fromBlock toBlock with
  | .error failure => some (db, .error failure)
  | .ok rangesToFetch => do
    let _ ← checkedTotal rangesToFetch
    checkedDownload server chainId 0 db rangesToFetch

/-- What keeps the counter of the loop in range: it is not decreased at 0, and the blocks
received in order do not carry it past `u64::MAX`. -/
structure StreamFits (range : BlockRange) (messages : List (Except Status EncodedBlock)) :
    Prop where
  started : ¬(range.start = 0 ∧ messages = [])
  below : range.start.toNat + (inOrder range.start messages).length < UInt64.size

/-- The requests that are answered with a stream, each with all its messages, up to the
first stream that does not complete. -/
def answered (server : Server) (chainId : UInt64) :
    Nat → List BlockRange → List (BlockRange × List (Except Status EncodedBlock))
  | _, [] => []
  | position, range :: rest =>
    match server.getBlockRange position ⟨chainId, range.start, range.stop⟩ with
    | .error _ => []
    | .ok messages =>
        (range, messages) ::
          if Completes range messages then answered server chainId (position + 1) rest else []

theorem checked_length_eq_some_iff {range : BlockRange} (inhabited : range.start ≤ range.stop)
    {length : UInt64} : checkedLength range = some length ↔ length.toNat = rangeLength range := by
  have ordered := UInt64.le_iff_toNat_le.mp inhabited
  have bound := range.stop.toNat_lt_size
  unfold checkedLength rangeLength
  rw [Option.bind_eq_bind, Option.bind_eq_some_iff]
  constructor
  · rintro ⟨difference, subtracted, added⟩
    have exactly := checked_sub_eq_some_iff.mp subtracted
    rw [checked_add_eq_some_iff.mp added, UInt64.toNat_one]
    omega
  · intro exactly
    have value : (range.stop - range.start).toNat = range.stop.toNat - range.start.toNat :=
      UInt64.toNat_sub_of_le _ _ inhabited
    refine ⟨range.stop - range.start, checked_sub_eq_some_iff.mpr (by omega),
      checked_add_eq_some_iff.mpr ?_⟩
    rw [exactly, value, UInt64.toNat_one]

theorem checked_length_of_fits {range : BlockRange} (inhabited : range.start ≤ range.stop)
    (fits : rangeLength range < UInt64.size) :
    checkedLength range = some (range.stop - range.start + 1) := by
  rw [checked_length_eq_some_iff inhabited, UInt64.toNat_add,
    UInt64.toNat_sub_of_le _ _ inhabited, UInt64.toNat_one]
  exact Nat.mod_eq_of_lt fits

theorem checked_total_from {ranges : List BlockRange}
    (inhabited : ∀ range ∈ ranges, range.start ≤ range.stop) (total : UInt64) :
    (∃ sum, ranges.foldlM (fun total range => do
        let length ← checkedLength range
        checkedAdd total length) total = some sum) ↔
      total.toNat + (ranges.map rangeLength).sum < UInt64.size := by
  induction ranges generalizing total with
  | nil => simpa using total.toNat_lt_size
  | cons range rest ih =>
      have restIff := ih fun later member => inhabited later (by simp [member])
      have lengthIff := @checked_length_eq_some_iff range (inhabited range (by simp))
      simp only [List.foldlM_cons, Option.bind_eq_bind, Option.bind_eq_some_iff, List.map_cons,
        List.sum_cons]
      constructor
      · rintro ⟨sum, next, ⟨length, measured, added⟩, rest⟩
        have bound := (restIff next).mp ⟨sum, rest⟩
        rw [checked_add_eq_some_iff.mp added, lengthIff.mp measured] at bound
        omega
      · intro bound
        have lengthNat : (UInt64.ofNat (rangeLength range)).toNat = rangeLength range :=
          UInt64.toNat_ofNat_of_lt' (by omega)
        have nextNat : (UInt64.ofNat (total.toNat + rangeLength range)).toNat =
            total.toNat + rangeLength range := UInt64.toNat_ofNat_of_lt' (by omega)
        obtain ⟨sum, rest⟩ := (restIff (UInt64.ofNat (total.toNat + rangeLength range))).mpr
          (by omega)
        exact ⟨sum, _, ⟨_, lengthIff.mpr lengthNat,
          checked_add_eq_some_iff.mpr (by rw [nextNat, lengthNat])⟩, rest⟩

theorem checked_total_iff {ranges : List BlockRange}
    (inhabited : ∀ range ∈ ranges, range.start ≤ range.stop) :
    (∃ total, checkedTotal ranges = some total) ↔
      (ranges.map rangeLength).sum < UInt64.size := by
  have sum := checked_total_from inhabited 0
  rwa [UInt64.toNat_zero, Nat.zero_add] at sum

section Readable

variable {chainId : UInt64} {db : KvDb}

theorem checked_receive_eq (readable : Readable db chainId) (expectedBlock : UInt64)
    (messages : List (Except Status EncodedBlock)) :
    checkedReceive chainId db expectedBlock messages =
      if expectedBlock.toNat + (inOrder expectedBlock messages).length < UInt64.size then
        some (receive chainId db expectedBlock messages)
      else none := by
  have bound := expectedBlock.toNat_lt_size
  induction messages generalizing db expectedBlock with
  | nil => simp [checkedReceive, receive, inOrder, bound]
  | cons message rest ih =>
      cases message with
      | error status => simp [checkedReceive, receive, inOrder, bound]
      | ok block =>
          by_cases expected : block.number = expectedBlock
          · obtain ⟨updated, stored, stillReadable⟩ :=
              put_bytes_readable readable block.number block.data
            rw [receive_cons expected stored, in_order_cons expected, List.length_cons,
              checkedReceive, if_neg (not_not.mpr expected), stored]
            dsimp only
            cases added : checkedAdd expectedBlock 1 with
            | none =>
                have full : ¬expectedBlock.toNat + 1 < UInt64.size := by
                  intro fits
                  simp [checkedAdd, fits] at added
                rw [if_neg (by omega)]
                rfl
            | some next =>
                have nextNat := checked_add_eq_some_iff.mp added
                have nextEq : next = expectedBlock + 1 := by
                  rw [← UInt64.toNat_inj, nextNat, UInt64.toNat_add]
                  exact (Nat.mod_eq_of_lt (nextNat ▸ next.toNat_lt_size)).symm
                rw [Option.bind_eq_bind, Option.bind_some, ih stillReadable next next.toNat_lt_size,
                  nextNat, nextEq, UInt64.toNat_one, Nat.add_right_comm]
                rfl
          · simp [checkedReceive, receive, inOrder, expected, bound]

theorem receive_next {range : BlockRange} {messages : List (Except Status EncodedBlock)}
    (fits : StreamFits range messages) {updated : KvDb} {next : UInt64}
    (received : receive chainId db range.start messages = (updated, .ok next)) :
    next.toNat = range.start.toNat + (inOrder range.start messages).length := by
  obtain ⟨-, count⟩ := receive_ok received
  have below := fits.below
  rw [count, UInt64.toNat_add, UInt64.toNat_ofNat_of_lt' (by omega)]
  exact Nat.mod_eq_of_lt below

theorem receive_next_ordered {range : BlockRange} {messages : List (Except Status EncodedBlock)}
    (fits : StreamFits range messages) {updated : KvDb} {next : UInt64}
    (received : receive chainId db range.start messages = (updated, .ok next)) :
    0 < next ∧ range.start ≤ next := by
  have nextNat := receive_next fits received
  constructor
  · rw [UInt64.lt_iff_toNat_lt, nextNat, UInt64.toNat_zero]
    by_contra zero
    have startZero : range.start.toNat = 0 := by omega
    have nothing : inOrder range.start messages = [] := List.length_eq_zero_iff.mp (by omega)
    obtain ⟨whole, -⟩ := receive_ok received
    rw [nothing] at whole
    exact fits.started ⟨UInt64.toNat_inj.mp startZero, whole⟩
  · rw [UInt64.le_iff_toNat_le, nextNat]
    omega

theorem checked_download_range_eq (readable : Readable db chainId) {range : BlockRange}
    (inhabited : range.start ≤ range.stop) (measured : rangeLength range < UInt64.size)
    (messages : List (Except Status EncodedBlock)) [Decidable (StreamFits range messages)] :
    checkedDownloadRange chainId db range (.ok messages) =
      if StreamFits range messages then some (downloadRange chainId db range (.ok messages))
      else none := by
  simp only [checkedDownloadRange, downloadRange, checked_receive_eq readable]
  by_cases below : range.start.toNat + (inOrder range.start messages).length < UInt64.size
  · rw [if_pos below]
    cases outcome : receive chainId db range.start messages with
    | mk updated result =>
        cases result with
        | error failure =>
            have fits : StreamFits range messages := by
              refine ⟨?_, below⟩
              rintro ⟨-, rfl⟩
              simp [receive] at outcome
            rw [if_pos fits]
            rfl
        | ok next =>
            by_cases started : range.start = 0 ∧ messages = []
            · obtain ⟨zero, rfl⟩ := started
              have nextZero : next = 0 := by
                simpa [receive, zero, eq_comm] using congrArg Prod.snd outcome
              rw [if_neg fun fits : StreamFits range [] => fits.started ⟨zero, rfl⟩, nextZero]
              rfl
            · have fits : StreamFits range messages := ⟨started, below⟩
              have ordered := receive_next_ordered fits outcome
              simp only [if_pos fits, checked_sub_one ordered.1, checked_sub_of_le ordered.2,
                checked_length_of_fits inhabited measured, Option.bind_eq_bind, Option.bind_some,
                Option.pure_def]
              split_ifs <;> rfl
  · rw [if_neg below, if_neg fun fits : StreamFits range messages => below fits.below]
    rfl

theorem checked_download_eq (server : Server) (readable : Readable db chainId) (position : Nat)
    {ranges : List BlockRange} (inhabited : ∀ range ∈ ranges, range.start ≤ range.stop)
    (measured : ∀ range ∈ ranges, rangeLength range < UInt64.size)
    [Decidable (∀ stream ∈ answered server chainId position ranges,
      StreamFits stream.1 stream.2)] :
    checkedDownload server chainId position db ranges =
      if ∀ stream ∈ answered server chainId position ranges, StreamFits stream.1 stream.2 then
        some (download server chainId position db ranges)
      else none := by
  classical
  induction ranges generalizing db position with
  | nil => simp [checkedDownload, download, answered]
  | cons range rest ih =>
      have restInhabited := fun later member => inhabited later (List.mem_cons_of_mem range member)
      have restMeasured := fun later member => measured later (List.mem_cons_of_mem range member)
      cases reply : server.getBlockRange position ⟨chainId, range.start, range.stop⟩ with
      | error status =>
          simp [checkedDownload, checkedDownloadRange, download, downloadRange, answered, reply]
      | ok messages =>
          have headEq := checked_download_range_eq readable (inhabited range (by simp))
            (measured range (by simp)) messages
          obtain ⟨-, stillReadable, completed⟩ := download_range_stores readable range messages
          simp only [checkedDownload, download, answered, reply, headEq, List.forall_mem_cons]
          by_cases fits : StreamFits range messages
          · simp only [fits, true_and, Option.bind_eq_bind]
            cases outcome : downloadRange chainId db range (.ok messages) with
            | mk updated result =>
                rw [outcome] at stillReadable completed
                cases result with
                | error failure =>
                    have stopped : ¬Completes range messages :=
                      fun completes => by cases completed completes
                    simp [stopped]
                | ok =>
                    obtain ⟨same, sameEq, completes⟩ := download_range_ok outcome
                    cases sameEq
                    simp only [if_pos completes]
                    exact ih stillReadable (position + 1) restInhabited restMeasured
          · simp [fits]

end Readable

section Unreadable

variable (chainId : UInt64) {db : KvDb} {failure : Error}
  (unreadable : getChainIds db = .error failure)
include unreadable

theorem checked_receive_unreadable (expectedBlock : UInt64)
    (messages : List (Except Status EncodedBlock)) :
    checkedReceive chainId db expectedBlock messages =
        some (receive chainId db expectedBlock messages) ∧
      ∀ next, (receive chainId db expectedBlock messages).2 = .ok next →
        messages = [] ∧ next = expectedBlock := by
  have refused : ∀ number data, putBytes db chainId number data = .error failure := by
    intro number data
    rw [putBytes, unreadable]
    rfl
  cases messages with
  | nil => exact ⟨rfl, fun next same => ⟨rfl, (Except.ok.inj same).symm⟩⟩
  | cons message rest =>
      cases message with
      | error status => exact ⟨rfl, fun next same => by cases same⟩
      | ok block =>
          simp only [checkedReceive, receive, refused]
          split_ifs <;> simp

theorem checked_download_range_unreadable {range : BlockRange}
    (inhabited : range.start ≤ range.stop) (measured : rangeLength range < UInt64.size)
    (messages : List (Except Status EncodedBlock)) :
    checkedDownloadRange chainId db range (.ok messages) =
        (if range.start = 0 ∧ messages = [] then none
        else some (downloadRange chainId db range (.ok messages))) ∧
      (¬(range.start = 0 ∧ messages = []) →
        ∃ failure, (downloadRange chainId db range (.ok messages)).2 = .error failure) := by
  obtain ⟨agrees, onlyEmpty⟩ := checked_receive_unreadable chainId unreadable range.start messages
  simp only [checkedDownloadRange, downloadRange, agrees, Option.bind_eq_bind, Option.bind_some]
  cases outcome : receive chainId db range.start messages with
  | mk updated result =>
      cases result with
      | error failure =>
          have notEmpty : messages ≠ [] := by
            rintro rfl
            simp [receive] at outcome
          simp [notEmpty]
      | ok next =>
          obtain ⟨rfl, rfl⟩ := onlyEmpty next (by rw [outcome])
          by_cases zero : range.start = 0
          · simp [zero, checkedSub]
          · have positive : 0 < range.start := by grind
            have short : range.start - 1 ≠ range.stop := by grind
            simp [zero, checked_sub_one positive, checked_length_of_fits inhabited measured,
              checked_sub_of_le, short]

end Unreadable

/-- The total fits, and so does every stream the download reaches. If the chain list does
not decode, no block is stored and only the first stream can do harm, by being empty. -/
structure ArithmeticFits (server : Server) (db : KvDb) (chainId : UInt64)
    (ranges : List BlockRange) : Prop where
  total : (ranges.map rangeLength).sum < UInt64.size
  streams : (∃ chainIds, getChainIds db = .ok chainIds) →
    ∀ stream ∈ answered server chainId 0 ranges, StreamFits stream.1 stream.2
  first : (∃ failure, getChainIds db = .error failure) →
    ∀ stream, (answered server chainId 0 ranges).head? = some stream →
      ¬(stream.1.start = 0 ∧ stream.2 = [])

theorem length_le_total {ranges : List BlockRange} {range : BlockRange} (member : range ∈ ranges) :
    rangeLength range ≤ (ranges.map rangeLength).sum :=
  List.single_le_sum (fun _ _ => Nat.zero_le _) _ (List.mem_map_of_mem member)

section Download

variable {server : Server} {chainId : UInt64} {db : KvDb} {ranges : List BlockRange}

theorem checked_download_unreadable {failure : Error}
    (unreadable : getChainIds db = .error failure)
    (inhabited : ∀ range ∈ ranges, range.start ≤ range.stop)
    (measured : ∀ range ∈ ranges, rangeLength range < UInt64.size)
    (outcome : KvDb × Except FetchError Unit) :
    checkedDownload server chainId 0 db ranges = some outcome ↔
      (∀ stream, (answered server chainId 0 ranges).head? = some stream →
        ¬(stream.1.start = 0 ∧ stream.2 = [])) ∧
      outcome = download server chainId 0 db ranges := by
  cases ranges with
  | nil => simp [checkedDownload, download, answered, eq_comm]
  | cons range rest =>
      cases reply : server.getBlockRange 0 ⟨chainId, range.start, range.stop⟩ with
      | error status =>
          simp [checkedDownload, checkedDownloadRange, download, downloadRange, answered, reply,
            eq_comm]
      | ok messages =>
          obtain ⟨headEq, stops⟩ := checked_download_range_unreadable chainId unreadable
            (inhabited range (by simp)) (measured range (by simp)) messages
          simp only [checkedDownload, download, answered, reply, headEq, List.head?_cons,
            Option.some.injEq, forall_eq']
          by_cases empty : range.start = 0 ∧ messages = []
          · simp [empty]
          · obtain ⟨failure, stopped⟩ := stops empty
            generalize downloadRange chainId db range (.ok messages) = result at stopped ⊢
            obtain ⟨updated, result⟩ := result
            cases stopped
            simp [empty, eq_comm]

theorem unreadable_download_ok {failure : Error} (unreadable : getChainIds db = .error failure)
    (inhabited : ∀ range ∈ ranges, range.start ≤ range.stop)
    (measured : ∀ range ∈ ranges, rangeLength range < UInt64.size)
    (first : ∀ stream, (answered server chainId 0 ranges).head? = some stream →
      ¬(stream.1.start = 0 ∧ stream.2 = []))
    (downloaded : (download server chainId 0 db ranges).2 = .ok ()) : ranges = [] := by
  cases ranges with
  | nil => rfl
  | cons range rest =>
      exfalso
      cases reply : server.getBlockRange 0 ⟨chainId, range.start, range.stop⟩ with
      | error status => simp [download, downloadRange, reply] at downloaded
      | ok messages =>
          simp only [answered, reply, List.head?_cons, Option.some.injEq, forall_eq'] at first
          obtain ⟨failure, stopped⟩ := (checked_download_range_unreadable chainId unreadable
            (inhabited range (by simp)) (measured range (by simp)) messages).2 first
          simp only [download, reply] at downloaded
          generalize downloadRange chainId db range (.ok messages) = outcome at stopped downloaded
          obtain ⟨updated, result⟩ := outcome
          cases stopped
          simp at downloaded

/-- What the sender of a stream owes for a request: one message for each number. -/
def Delivered (range : BlockRange)
    (stream : BlockRange × List (Except Status EncodedBlock)) : Prop :=
  stream.1 = range ∧ stream.2.length = rangeLength range

theorem completes_delivered {range : BlockRange} {messages : List (Except Status EncodedBlock)}
    (inhabited : range.start ≤ range.stop) (completes : Completes range messages)
    (fits : StreamFits range messages) : Delivered range (range, messages) := by
  obtain ⟨whole, count⟩ := completes
  have length : messages.length = (inOrder range.start messages).length := by
    rw [whole, List.length_map, ← whole]
  have below := fits.below
  have ordered := UInt64.le_iff_toNat_le.mp inhabited
  have sumNat : (range.start + UInt64.ofNat (inOrder range.start messages).length).toNat =
      range.start.toNat + messages.length := by
    rw [UInt64.toNat_add, UInt64.toNat_ofNat_of_lt' (by omega), length]
    exact Nat.mod_eq_of_lt below
  have positive : 0 < range.start.toNat + messages.length := by
    by_contra zero
    exact fits.started ⟨UInt64.toNat_inj.mp (by rw [UInt64.toNat_zero]; omega),
      List.length_eq_zero_iff.mp (by omega)⟩
  have stopNat := congrArg UInt64.toNat count
  rw [UInt64.toNat_sub_of_le _ _ (by rw [UInt64.le_iff_toNat_le, sumNat, UInt64.toNat_one]; omega),
    sumNat, UInt64.toNat_one] at stopNat
  refine ⟨rfl, ?_⟩
  dsimp only [rangeLength]
  omega

theorem download_delivered {position : Nat} {final : KvDb}
    (inhabited : ∀ range ∈ ranges, range.start ≤ range.stop)
    (fits : ∀ stream ∈ answered server chainId position ranges, StreamFits stream.1 stream.2)
    (downloaded : download server chainId position db ranges = (final, .ok ())) :
    List.Forall₂ Delivered ranges (answered server chainId position ranges) := by
  induction ranges generalizing db position with
  | nil => exact List.Forall₂.nil
  | cons range rest ih =>
      simp only [download] at downloaded
      split at downloaded
      · simp at downloaded
      · rename_i updated outcome
        obtain ⟨messages, reply, completes⟩ := download_range_ok outcome
        simp only [answered, reply, if_pos completes, List.forall_mem_cons] at fits ⊢
        exact List.Forall₂.cons (completes_delivered (inhabited range (by simp)) completes fits.1)
          (ih (fun later member => inhabited later (by simp [member])) fits.2 downloaded)

end Download

/-- No checked operation of the command fails, and a command that succeeds received exactly
the numbers of each request. -/
structure ArithmeticSafe (server : Server) (db : KvDb) (chainId : UInt64)
    (fromBlock toBlock : Option UInt64) : Prop where
  inRange : ∃ outcome, checkedFetch server db chainId fromBlock toBlock = some outcome
  delivered : (fetch server db chainId fromBlock toBlock).2 = .ok () →
    List.Forall₂ Delivered (requestedRanges server db chainId fromBlock toBlock)
      (answered server chainId 0 (requestedRanges server db chainId fromBlock toBlock))

section Plan

variable {server : Server} {db : KvDb} {chainId : UInt64} {fromBlock toBlock : Option UInt64}
  {ranges : List BlockRange}
  (planned : planFetch server db chainId fromBlock toBlock = .ok ranges)
include planned

theorem plan_inhabited : ∀ range ∈ ranges, range.start ≤ range.stop := by
  obtain ⟨remote, localRanges, -, -, ordered, rfl, -⟩ := plan_fetch_ok.mp planned
  exact subtract_ranges_inhabited _ localRanges ordered

theorem plan_readable {chainIds : List UInt64} (idsRead : getChainIds db = .ok chainIds) :
    Readable db chainId := by
  obtain ⟨remote, localRanges, -, rangesRead, -, -, -⟩ := plan_fetch_ok.mp planned
  exact ⟨⟨chainIds, idsRead⟩, localRanges, rangesRead⟩

theorem checked_fetch_eq_some_iff (outcome : KvDb × Except FetchError Unit) :
    checkedFetch server db chainId fromBlock toBlock = some outcome ↔
      ArithmeticFits server db chainId ranges ∧
        outcome = fetch server db chainId fromBlock toBlock := by
  classical
  have inhabited := plan_inhabited planned
  have measured (total : (ranges.map rangeLength).sum < UInt64.size) :
      ∀ range ∈ ranges, rangeLength range < UInt64.size :=
    fun range member => (length_le_total member).trans_lt total
  have parts : checkedFetch server db chainId fromBlock toBlock = some outcome ↔
      (ranges.map rangeLength).sum < UInt64.size ∧
        checkedDownload server chainId 0 db ranges = some outcome := by
    rw [← checked_total_iff inhabited]
    simp only [checkedFetch, planned, Option.bind_eq_bind, Option.bind_eq_some_iff,
      exists_and_right]
  have fetched : fetch server db chainId fromBlock toBlock =
      download server chainId 0 db ranges := by rw [fetch, planned]
  rw [parts, fetched]
  cases idsRead : getChainIds db with
  | error failure =>
      constructor
      · rintro ⟨total, safe⟩
        have both :=
          (checked_download_unreadable idsRead inhabited (measured total) outcome).mp safe
        exact ⟨⟨total, by simp [idsRead], fun _ => both.1⟩, both.2⟩
      · rintro ⟨fits, same⟩
        exact ⟨fits.total,
          (checked_download_unreadable idsRead inhabited (measured fits.total) outcome).mpr
            ⟨fits.first ⟨failure, idsRead⟩, same⟩⟩
  | ok chainIds =>
      have readable := plan_readable planned idsRead
      constructor
      · rintro ⟨total, safe⟩
        rw [checked_download_eq server readable 0 inhabited (measured total),
          Option.ite_none_right_eq_some] at safe
        exact ⟨⟨total, fun _ => safe.1, by simp [idsRead]⟩, (Option.some.inj safe.2).symm⟩
      · rintro ⟨fits, rfl⟩
        rw [checked_download_eq server readable 0 inhabited (measured fits.total),
          if_pos (fits.streams ⟨chainIds, idsRead⟩)]
        exact ⟨fits.total, rfl⟩

theorem fetch_delivered (fits : ArithmeticFits server db chainId ranges)
    (fetched : (fetch server db chainId fromBlock toBlock).2 = .ok ()) :
    List.Forall₂ Delivered ranges (answered server chainId 0 ranges) := by
  have inhabited := plan_inhabited planned
  have downloaded : (download server chainId 0 db ranges).2 = .ok () := by
    simpa only [fetch, planned] using fetched
  cases idsRead : getChainIds db with
  | error failure =>
      have nothing := unreadable_download_ok idsRead inhabited
        (fun range member => (length_le_total member).trans_lt fits.total)
        (fits.first ⟨failure, idsRead⟩) downloaded
      rw [nothing]
      exact List.Forall₂.nil
  | ok chainIds =>
      exact download_delivered inhabited (fits.streams ⟨chainIds, idsRead⟩)
        (Prod.ext rfl downloaded)

end Plan

/-- For every server and store, the arithmetic of a fetch is safe and its success means full
delivery if and only if the requested blocks number less than `2^64`, no reached stream for a
request from block 0 is empty, and none runs in order up to block `u64::MAX`. -/
theorem fetch_arithmetic_safe_iff (server : Server) (db : KvDb) (chainId : UInt64)
    (fromBlock toBlock : Option UInt64) :
    ArithmeticSafe server db chainId fromBlock toBlock ↔
      ArithmeticFits server db chainId
        (requestedRanges server db chainId fromBlock toBlock) := by
  cases planned : planFetch server db chainId fromBlock toBlock with
  | error failure =>
      have nothing : requestedRanges server db chainId fromBlock toBlock = [] := by
        rw [requestedRanges, planned]
      rw [nothing]
      refine iff_of_true ⟨⟨_, by rw [checkedFetch, planned]⟩, ?_⟩
        ⟨by decide, by simp [answered], by simp [answered]⟩
      simp [fetch, planned]
  | ok ranges =>
      have requested : requestedRanges server db chainId fromBlock toBlock = ranges := by
        rw [requestedRanges, planned]
      have safeIff := checked_fetch_eq_some_iff planned
      rw [requested]
      constructor
      · intro safe
        obtain ⟨outcome, finished⟩ := safe.inRange
        exact ((safeIff outcome).mp finished).1
      · intro fits
        refine ⟨⟨_, (safeIff _).mpr ⟨fits, rfl⟩⟩, fun fetched => ?_⟩
        rw [requested]
        exact fetch_delivered planned fits fetched

def silentServer (last : UInt64) : Server where
  list _ := .ok [⟨1, [⟨0, last⟩], false, false⟩]
  getBlockRange _ _ := .ok []

theorem silent_server_plan (last : UInt64) :
    planFetch (silentServer last) freshDb 1 none none = .ok [⟨0, last⟩] := by
  refine plan_fetch_ok.mpr ⟨[⟨0, last⟩], [], rfl, fresh_get_ranges 1, UInt64.zero_le, rfl, ?_⟩
  simp [checkAvailable, binarySearchBy, narrow, compareRemote]

/-- An empty stream for block 0 makes the loop subtract 1 from 0. With the whole of `u64`
requested the sums that wrap let an empty stream pass for a full one. -/
theorem empty_stream_underflows :
    checkedFetch (silentServer 0) freshDb 1 none none = none ∧
      ¬ArithmeticSafe (silentServer 0) freshDb 1 none none ∧
      (fetch (silentServer maxBlockNumber) freshDb 1 none none).2 = .ok () := by
  have stops : checkedFetch (silentServer 0) freshDb 1 none none = none := by
    rw [checkedFetch, silent_server_plan]
    rfl
  refine ⟨stops, fun safe => ?_, ?_⟩
  · obtain ⟨outcome, reached⟩ := safe.inRange
    rw [stops] at reached
    contradiction
  · rw [fetch, silent_server_plan]
    rfl

end Bertha.FetchArithmetic
