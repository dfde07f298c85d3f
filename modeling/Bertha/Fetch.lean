import Bertha.RpcServer

/-!
# Fetching blocks from a server

The `fetch` command of `blockservice/src/cmd/fetch.rs`: it asks the server for its ranges,
plans which missing ranges to download and stores each streamed block as it arrives. A
server is any pair of reply functions; the reply to a range request may depend on how many
requests came before. Sums wrap as in a release build. The progress bar and the text written
at the end are left out. Whatever the server does, the download stores the in-order part of
each stream it reaches and nothing else.
-/

namespace Bertha.Fetch

open Bertha.BigEndian Bertha.BinarySearch Bertha.BlockDb Bertha.BlockDbContents
open Bertha.BlockDbInvariant Bertha.BlockKeys Bertha.BlockRanges Bertha.Conversion
open Bertha.IntervalList Bertha.OrderedStore
open Bertha.RpcServer (ChainListing BlockRangeRequest EncodedBlock Status)
open Bertha.BlockTypes (Error)

set_option autoImplicit false

inductive FetchError where
  | status (status : Status)
  | storage (failure : Error)
  | message (text : String)
deriving DecidableEq, Repr

/-- The replies of a server to a list request and to the range requests, by their position. -/
structure Server where
  list : Option UInt64 → Except Status (List ChainListing)
  getBlockRange : Nat → BlockRangeRequest → Except Status (List (Except Status EncodedBlock))

/-- `RpcServer` over a store that does not change. -/
def honestServer (remote : KvDb) : Server where
  list := RpcServer.list remote
  getBlockRange _ := RpcServer.getBlockRange remote

/-- `is_sorted_by_key(|range| (*range.start(), *range.end()))`. -/
def isSortedByKey : List BlockRange → Bool
  | left :: right :: rest => decide (keyLE left right) && isSortedByKey (right :: rest)
  | _ => true

def remoteRanges (server : Server) (chainId : UInt64) : Except FetchError (List BlockRange) :=
  match server.list (some chainId) with
  | .error status => .error (.status status)
  | .ok chainListings =>
    match chainListings.find? fun listing => listing.chainId == chainId with
    | none => .error (.message s!"no ranges found for chain ID {chainId}")
    | some listing =>
      if listing.blockRanges.isEmpty then
        .error (.message
          s!"chain id {chainId} found, but server returned empty chain range")
      else if !isSortedByKey listing.blockRanges then
        .error (.message s!"remote ranges for chain ID {chainId} are not sorted")
      else .ok listing.blockRanges

def compareRemote (range remoteRange : BlockRange) : Ordering :=
  if range.start ≥ remoteRange.start ∧ range.stop ≤ remoteRange.stop then .eq
  else if range.stop < remoteRange.start then .gt
  else .lt

def checkAvailable (chainId : UInt64) (remote : List BlockRange) :
    List BlockRange → Except FetchError Unit
  | [] => .ok ()
  | range :: rest =>
    match binarySearchBy remote (compareRemote range) with
    | .error _ => .error (.message (s!"range {range.start} to {range.stop} for chain ID " ++
        s!"{chainId} is not available on remote server"))
    | .ok _ => checkAvailable chainId remote rest

def lastRemoteBlock (remote : List BlockRange) : UInt64 :=
  (remote.getLast?.map ClosedInterval.stop).getD 0

/-- Everything before the download: `ranges_to_fetch` after all checks. An empty list, for
which the source returns early, passes the check and downloads nothing. -/
def planFetch (server : Server) (db : KvDb) (chainId : UInt64)
    (fromBlock toBlock : Option UInt64) : Except FetchError (List BlockRange) := do
  let remote ← remoteRanges server chainId
  let first := fromBlock.getD 0
  let last := toBlock.getD (lastRemoteBlock remote)
  if first > last then
    .error (.message "invalid range: 'from' must be less than or equal to 'to'")
  else
    let localRanges ← (getRangesOfChainId db chainId).mapError .storage
    let rangesToFetch := subtractRanges ⟨first, last⟩ localRanges
    let _ ← checkAvailable chainId remote rangesToFetch
    return rangesToFetch

/-- The loop over one stream, which returns the next expected number at its end. -/
def receive (chainId : UInt64) :
    KvDb → UInt64 → List (Except Status EncodedBlock) → KvDb × Except FetchError UInt64
  | db, expectedBlock, [] => (db, .ok expectedBlock)
  | db, _, .error status :: _ => (db, .error (.status status))
  | db, expectedBlock, .ok block :: rest =>
      if block.number ≠ expectedBlock then
        (db, .error (.message (s!"expected to receive block number {expectedBlock}, " ++
          s!"got {block.number}")))
      else
        match putBytes db chainId block.number block.data with
        | .error failure => (db, .error (.storage failure))
        | .ok updated => receive chainId updated (expectedBlock + 1) rest

def downloadRange (chainId : UInt64) (db : KvDb) (range : BlockRange)
    (reply : Except Status (List (Except Status EncodedBlock))) :
    KvDb × Except FetchError Unit :=
  match reply with
  | .error status => (db, .error (.status status))
  | .ok messages =>
    match receive chainId db range.start messages with
    | (updated, .error failure) => (updated, .error failure)
    | (updated, .ok expectedBlock) =>
      if expectedBlock - 1 ≠ range.stop then
        (updated, .error (.message ("received fewer blocks than expected: expected " ++
          s!"{range.stop - range.start + 1}, got {expectedBlock - range.start}")))
      else (updated, .ok ())

def download (server : Server) (chainId : UInt64) :
    Nat → KvDb → List BlockRange → KvDb × Except FetchError Unit
  | _, db, [] => (db, .ok ())
  | position, db, range :: rest =>
    let reply := server.getBlockRange position ⟨chainId, range.start, range.stop⟩
    match downloadRange chainId db range reply with
    | (updated, .error failure) => (updated, .error failure)
    | (updated, .ok ()) => download server chainId (position + 1) updated rest

def fetch (server : Server) (db : KvDb) (chainId : UInt64) (fromBlock toBlock : Option UInt64) :
    KvDb × Except FetchError Unit :=
  match planFetch server db chainId fromBlock toBlock with
  | .error failure => (db, .error failure)
  | .ok rangesToFetch => download server chainId 0 db rangesToFetch

theorem plan_fetch_ok {server : Server} {db : KvDb} {chainId : UInt64}
    {fromBlock toBlock : Option UInt64} {ranges : List BlockRange} :
    planFetch server db chainId fromBlock toBlock = .ok ranges ↔
      ∃ remote localRanges, remoteRanges server chainId = .ok remote ∧
        getRangesOfChainId db chainId = .ok localRanges ∧
        fromBlock.getD 0 ≤ toBlock.getD (lastRemoteBlock remote) ∧
        subtractRanges ⟨fromBlock.getD 0, toBlock.getD (lastRemoteBlock remote)⟩ localRanges =
          ranges ∧
        checkAvailable chainId remote ranges = .ok () := by
  constructor
  · intro planned
    obtain ⟨remote, listed, rest⟩ := bind_eq_ok.mp planned
    dsimp only at rest
    split_ifs at rest with reversed
    obtain ⟨localRanges, mapped, checked⟩ := bind_eq_ok.mp rest
    obtain ⟨⟨⟩, available, same⟩ := bind_eq_ok.mp checked
    cases same
    exact ⟨remote, localRanges, listed, map_error_eq_ok.mp mapped, not_lt.mp reversed, rfl,
      available⟩
  · rintro ⟨remote, localRanges, listed, read, ordered, rfl, available⟩
    simp only [planFetch, listed, read, Except.mapError, bind, Except.bind, if_neg ordered.not_gt,
      available, pure, Except.pure]

/-- The messages of a stream that carry the expected numbers, up to the first that does not. -/
def inOrder : UInt64 → List (Except Status EncodedBlock) → List EncodedBlock
  | expectedBlock, .ok block :: rest =>
      if block.number = expectedBlock then block :: inOrder (expectedBlock + 1) rest else []
  | _, _ => []

/-- The stream has only in-order messages and as many as the length check wants. -/
def Completes (range : BlockRange) (messages : List (Except Status EncodedBlock)) : Prop :=
  messages = (inOrder range.start messages).map .ok ∧
    range.start + UInt64.ofNat (inOrder range.start messages).length - 1 = range.stop

instance (range : BlockRange) (messages : List (Except Status EncodedBlock)) :
    Decidable (Completes range messages) :=
  inferInstanceAs (Decidable (_ ∧ _))

/-- The requests that the download reaches, each with the in-order part of its stream. -/
def reached (server : Server) (chainId : UInt64) :
    Nat → List BlockRange → List (BlockRange × List EncodedBlock)
  | _, [] => []
  | position, range :: rest =>
    match server.getBlockRange position ⟨chainId, range.start, range.stop⟩ with
    | .error _ => []
    | .ok messages =>
        (range, inOrder range.start messages) ::
          if Completes range messages then reached server chainId (position + 1) rest else []

def toWrite (chainId : UInt64) (block : EncodedBlock) : BlockWrite :=
  ⟨chainId, block.number, block.data⟩

def writesOf (chainId : UInt64) (streams : List (BlockRange × List EncodedBlock)) :
    List BlockWrite :=
  streams.flatMap fun stream => stream.2.map (toWrite chainId)

theorem in_order_cons {expectedBlock : UInt64} {block : EncodedBlock}
    (expected : block.number = expectedBlock) (rest : List (Except Status EncodedBlock)) :
    inOrder expectedBlock (.ok block :: rest) = block :: inOrder (expectedBlock + 1) rest := by
  rw [inOrder, if_pos expected]

theorem receive_cons {chainId expectedBlock : UInt64} {db updated : KvDb} {block : EncodedBlock}
    (expected : block.number = expectedBlock)
    (stored : putBytes db chainId block.number block.data = .ok updated)
    (rest : List (Except Status EncodedBlock)) :
    receive chainId db expectedBlock (.ok block :: rest) =
      receive chainId updated (expectedBlock + 1) rest := by
  rw [receive, if_neg (not_not.mpr expected), stored]

theorem in_order_number {expectedBlock : UInt64} {messages : List (Except Status EncodedBlock)}
    {index : Nat} {block : EncodedBlock}
    (read : (inOrder expectedBlock messages)[index]? = some block) :
    block.number = expectedBlock + UInt64.ofNat index := by
  induction messages generalizing expectedBlock index with
  | nil => simp [inOrder] at read
  | cons message rest ih =>
      match message with
      | .error status => simp [inOrder] at read
      | .ok head =>
          simp only [inOrder] at read
          split_ifs at read with expected
          · cases index with
            | zero =>
                simp only [List.getElem?_cons_zero, Option.some.injEq] at read
                simp [← read, expected]
            | succ index =>
                rw [List.getElem?_cons_succ] at read
                rw [ih read, UInt64.ofNat_add]
                grind
          · simp at read

theorem in_order_within {range : BlockRange} {messages : List (Except Status EncodedBlock)}
    (inhabited : range.start ≤ range.stop) {index : Nat} {block : EncodedBlock}
    (read : (inOrder range.start messages)[index]? = some block)
    (within : index ≤ range.stop.toNat - range.start.toNat) :
    block.number.toNat = range.start.toNat + index := by
  have ordered := UInt64.le_iff_toNat_le.mp inhabited
  have bound := range.stop.toNat_lt
  rw [in_order_number read, UInt64.toNat_add, UInt64.toNat_ofNat', Nat.mod_eq_of_lt (a := index)]
  · exact Nat.mod_eq_of_lt (by omega)
  · omega

theorem in_order_mem {expectedBlock : UInt64} {messages : List (Except Status EncodedBlock)}
    {block : EncodedBlock} (member : block ∈ inOrder expectedBlock messages) :
    .ok block ∈ messages := by
  induction messages generalizing expectedBlock with
  | nil => simp [inOrder] at member
  | cons message rest ih =>
      match message with
      | .error status => simp [inOrder] at member
      | .ok head =>
          simp only [inOrder] at member
          split_ifs at member with expected
          · rcases List.mem_cons.mp member with rfl | later
            · exact List.mem_cons_self
            · exact List.mem_cons_of_mem _ (ih later)
          · simp at member

theorem receive_ok {chainId expectedBlock next : UInt64} {db updated : KvDb}
    {messages : List (Except Status EncodedBlock)}
    (received : receive chainId db expectedBlock messages = (updated, .ok next)) :
    messages = (inOrder expectedBlock messages).map .ok ∧
      next = expectedBlock + UInt64.ofNat (inOrder expectedBlock messages).length := by
  induction messages generalizing db expectedBlock with
  | nil =>
      simp only [receive, Prod.mk.injEq, Except.ok.injEq] at received
      simp [inOrder, received.2]
  | cons message rest ih =>
      match message with
      | .error status => simp [receive] at received
      | .ok block =>
          simp only [receive] at received
          split_ifs at received with unexpected
          · simp at received
          · have expected : block.number = expectedBlock := not_not.mp unexpected
            split at received
            · simp at received
            · obtain ⟨tail, count⟩ := ih received
              rw [inOrder, if_pos expected, List.map_cons, ← tail, List.length_cons, count,
                UInt64.ofNat_add]
              exact ⟨rfl, by grind⟩

section Storing

variable {chainId : UInt64} {db : KvDb}

/-- The loop stores the in-order part of the stream and reads a stream of in-order messages
to its end. -/
theorem receive_stores (readable : Readable db chainId) (expectedBlock : UInt64)
    (messages : List (Except Status EncodedBlock)) :
    putAll db ((inOrder expectedBlock messages).map (toWrite chainId)) =
        .ok (receive chainId db expectedBlock messages).1 ∧
      Readable (receive chainId db expectedBlock messages).1 chainId ∧
      (messages = (inOrder expectedBlock messages).map .ok →
        (receive chainId db expectedBlock messages).2 =
          .ok (expectedBlock + UInt64.ofNat (inOrder expectedBlock messages).length)) := by
  induction messages generalizing db expectedBlock with
  | nil => exact ⟨rfl, readable, by simp [receive, inOrder]⟩
  | cons message rest ih =>
      match message with
      | .error status => exact ⟨rfl, readable, by simp [inOrder]⟩
      | .ok block =>
          by_cases expected : block.number = expectedBlock
          · obtain ⟨updated, stored, stillReadable⟩ :=
              put_bytes_readable readable block.number block.data
            obtain ⟨restStored, restReadable, restRead⟩ := ih stillReadable (expectedBlock + 1)
            rw [receive_cons expected stored, in_order_cons expected]
            refine ⟨?_, restReadable, fun whole => ?_⟩
            · rw [List.map_cons, put_all_cons (toWrite chainId block) stored, restStored]
            · rw [restRead (List.cons.inj whole).2, List.length_cons, UInt64.ofNat_add]
              congr 1
              grind
          · simp only [inOrder, receive, ne_eq, expected, not_false_eq_true, if_true]
            exact ⟨rfl, readable, by simp⟩

theorem download_range_stores (readable : Readable db chainId) (range : BlockRange)
    (messages : List (Except Status EncodedBlock)) :
    putAll db ((inOrder range.start messages).map (toWrite chainId)) =
        .ok (downloadRange chainId db range (.ok messages)).1 ∧
      Readable (downloadRange chainId db range (.ok messages)).1 chainId ∧
      (Completes range messages →
        (downloadRange chainId db range (.ok messages)).2 = .ok ()) := by
  obtain ⟨stored, stillReadable, whole⟩ := receive_stores readable range.start messages
  simp only [downloadRange]
  generalize receive chainId db range.start messages = outcome at stored stillReadable whole ⊢
  obtain ⟨updated, result⟩ := outcome
  cases result with
  | error failure =>
      refine ⟨stored, stillReadable, fun completes => ?_⟩
      cases whole completes.1
  | ok next =>
      dsimp only at stored stillReadable whole ⊢
      split_ifs with short
      · refine ⟨stored, stillReadable, fun completes => ?_⟩
        have same := Except.ok.inj (whole completes.1)
        rw [same] at short
        exact absurd completes.2 short
      · exact ⟨stored, stillReadable, fun _ => rfl⟩

end Storing

theorem download_range_ok {chainId : UInt64} {db updated : KvDb} {range : BlockRange}
    {reply : Except Status (List (Except Status EncodedBlock))}
    (downloaded : downloadRange chainId db range reply = (updated, .ok ())) :
    ∃ messages, reply = .ok messages ∧ Completes range messages := by
  unfold downloadRange at downloaded
  split at downloaded
  · simp at downloaded
  · rename_i messages
    split at downloaded
    · simp at downloaded
    · rename_i received
      split_ifs at downloaded with short
      · simp at downloaded
      · obtain ⟨whole, count⟩ := receive_ok received
        refine ⟨messages, rfl, whole, ?_⟩
        rw [← count]
        exact not_not.mp short

section Download

variable {server : Server} {chainId : UInt64}

theorem download_stores (server : Server) {db : KvDb} (readable : Readable db chainId)
    (position : Nat) (ranges : List BlockRange) :
    putAll db (writesOf chainId (reached server chainId position ranges)) =
      .ok (download server chainId position db ranges).1 := by
  induction ranges generalizing db position with
  | nil => rfl
  | cons range rest ih =>
      cases reply : server.getBlockRange position ⟨chainId, range.start, range.stop⟩ with
      | error status => simp [reached, download, reply, downloadRange, writesOf, putAll, pure,
          Except.pure]
      | ok messages =>
          obtain ⟨stored, stillReadable, completed⟩ :=
            download_range_stores readable range messages
          simp only [reached, download, reply]
          cases outcome : downloadRange chainId db range (.ok messages) with
          | mk updated result =>
              rw [outcome] at stored stillReadable completed
              cases result with
              | error failure =>
                  have stopped : ¬ Completes range messages :=
                    fun completes => by cases completed completes
                  simpa [stopped, writesOf] using stored
              | ok =>
                  obtain ⟨same, sameEq, completes⟩ := download_range_ok outcome
                  cases sameEq
                  rw [if_pos completes]
                  simp only [writesOf, List.flatMap_cons]
                  rw [put_all_append stored]
                  exact ih stillReadable (position + 1)

theorem download_unreadable {db : KvDb} {failure : Error}
    (unreadable : getChainIds db = .error failure) (position : Nat) (ranges : List BlockRange) :
    (download server chainId position db ranges).1 = db := by
  have refused : ∀ number data, putBytes db chainId number data = .error failure := by
    intro number data
    rw [putBytes, unreadable]
    rfl
  have received : ∀ expectedBlock messages,
      (receive chainId db expectedBlock messages).1 = db := by
    intro expectedBlock messages
    cases messages with
    | nil => rfl
    | cons message rest =>
        cases message with
        | error status => rfl
        | ok block =>
            simp only [receive, refused]
            split_ifs <;> rfl
  induction ranges generalizing position with
  | nil => rfl
  | cons range rest ih =>
      have kept : (downloadRange chainId db range
          (server.getBlockRange position ⟨chainId, range.start, range.stop⟩)).1 = db := by
        unfold downloadRange
        split
        · rfl
        · rename_i messages _
          have same := received range.start messages
          split
          · rename_i outcome
            rw [outcome] at same
            exact same
          · rename_i outcome
            rw [outcome] at same
            split_ifs <;> exact same
      simp only [download]
      generalize downloadRange chainId db range _ = outcome at kept ⊢
      obtain ⟨updated, result⟩ := outcome
      cases kept
      cases result with
      | error stopped => rfl
      | ok => exact ih (position + 1)

theorem mem_reached {position : Nat} {ranges : List BlockRange} {range : BlockRange}
    {blocks : List EncodedBlock}
    (member : (range, blocks) ∈ reached server chainId position ranges) :
    range ∈ ranges ∧ ∃ later messages,
      server.getBlockRange later ⟨chainId, range.start, range.stop⟩ = .ok messages ∧
        blocks = inOrder range.start messages := by
  induction ranges generalizing position with
  | nil => simp [reached] at member
  | cons head rest ih =>
      simp only [reached] at member
      split at member
      · simp at member
      · rename_i messages reply
        rcases List.mem_cons.mp member with same | later
        · cases same
          exact ⟨List.mem_cons_self, position, messages, reply, rfl⟩
        · split_ifs at later
          · exact ⟨List.mem_cons_of_mem _ (ih later).1, (ih later).2⟩
          · simp at later

theorem download_ok {db final : KvDb} {position : Nat} {ranges : List BlockRange}
    (downloaded : download server chainId position db ranges = (final, .ok ()))
    {range : BlockRange} (member : range ∈ ranges) :
    ∃ later messages,
      server.getBlockRange later ⟨chainId, range.start, range.stop⟩ = .ok messages ∧
        Completes range messages ∧
        (range, inOrder range.start messages) ∈ reached server chainId position ranges := by
  induction ranges generalizing db position with
  | nil => simp at member
  | cons head rest ih =>
      simp only [download] at downloaded
      split at downloaded
      · simp at downloaded
      · rename_i updated outcome
        obtain ⟨messages, reply, completes⟩ := download_range_ok outcome
        simp only [reached, reply, if_pos completes]
        rcases List.mem_cons.mp member with rfl | later
        · exact ⟨position, messages, reply, completes, List.mem_cons_self⟩
        · obtain ⟨index, stream, found, whole, inside⟩ := ih downloaded later
          exact ⟨index, stream, found, whole, List.mem_cons_of_mem _ inside⟩

end Download

end Bertha.Fetch
