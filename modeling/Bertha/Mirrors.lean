import Bertha.FetchSuccess
import Bertha.Replication
import Bertha.TrustedChain

/-!
# Mirrors of a verified chain

A block service that fetches from one server, over a connection that may fail anywhere, holds a
part of the server's chains. A server hands out the rules updates and the corrections of a
chain, but not the list of its failed bundles, by which the verification excuses a block whose
hash is not the parent hash of its successor. A mirror of a chain that passes the verification
may therefore fail it; the main result counts how often.
-/

namespace Bertha.Mirrors

open Bertha.BigEndian Bertha.BlockDb Bertha.BlockDbContents Bertha.BlockDbInvariant
open Bertha.BlockIteration Bertha.BlockKeys Bertha.BlockRanges Bertha.Conversion Bertha.Fetch
open Bertha.FetchSuccess Bertha.Purge Bertha.Replication Bertha.TrustedChain Bertha.Verifiers
open Bertha.VerifyCount
open Bertha.BlockTypes (Block Error)
open Bertha.RpcServer (EncodedBlock Status)

set_option autoImplicit false

structure Metadata where
  rulesUpdateHeights : Option Bytes
  corrections : Option Bytes
deriving DecidableEq, Repr

/-- The `get_metadata` endpoint of `blockservice/src/grpc/server.rs`. -/
def getMetadata (db : KvDb) (chainId : UInt64) : Metadata where
  rulesUpdateHeights := getRulesUpdateHeights db chainId
  corrections := getCorrections db chainId

def storeEntry (put : KvDb → UInt64 → Bytes → Except Error KvDb) (chainId : UInt64) (db : KvDb) :
    Option Bytes → KvDb × Except FetchError Unit
  | none => (db, .ok ())
  | some data =>
    match put db chainId data with
    | .error failure => (db, .error (.storage failure))
    | .ok updated => (updated, .ok ())

/-- The `fetch_metadata` command of `blockservice/src/cmd/fetch_metadata.rs`. -/
def fetchMetadata (reply : Except Status Metadata) (db : KvDb) (chainId : UInt64) :
    KvDb × Except FetchError Unit :=
  match reply with
  | .error status => (db, .error (.status status))
  | .ok metadata =>
    match storeEntry putRulesUpdateHeights chainId db metadata.rulesUpdateHeights with
    | (updated, .error failure) => (updated, .error failure)
    | (updated, .ok ()) => storeEntry putCorrections chainId updated metadata.corrections

/-- The streams that the client reads are the server's, as far as the connection holds. -/
def Relays (remote : KvDb) (server : Server) : Prop :=
  ∀ position request,
    Delivered (RpcServer.getBlockRange remote request) (server.getBlockRange position request)

inductive Step (remote : KvDb) : KvDb → KvDb → Prop where
  | fetches (db : KvDb) {server : Server} (relays : Relays remote server) (chainId : UInt64)
      (fromBlock toBlock : Option UInt64) :
      Step remote db (fetch server db chainId fromBlock toBlock).1
  | fetchesMetadata (db : KvDb) (chainId : UInt64) {reply : Except Status Metadata}
      (relayed : reply = .ok (getMetadata remote chainId) ∨ ∃ status, reply = .error status) :
      Step remote db (fetchMetadata reply db chainId).1
  | purges (db : KvDb) (console : Console) (chainId : UInt64)
      (fromBlock toBlock : Option UInt64) :
      Step remote db (purge console db chainId fromBlock toBlock).1

abbrev Run (remote : KvDb) : KvDb → KvDb → Prop := Relation.ReflTransGen (Step remote)

def Refreshed (before remote after : Option Bytes) : Prop :=
  after = before ∨ (remote.isSome ∧ after = remote)

/-- What has changed between two databases was copied from the server. -/
structure Copies (remote before after : KvDb) : Prop where
  sound : Sound after
  blocks : ∀ chainId number data, getBytes after chainId number = some data →
    getBytes before chainId number = some data ∨ getBytes remote chainId number = some data
  bundles : ∀ chainId, getFailedBundles after chainId = getFailedBundles before chainId
  rules : ∀ chainId, Refreshed (getRulesUpdateHeights before chainId)
    (getRulesUpdateHeights remote chainId) (getRulesUpdateHeights after chainId)
  corrections : ∀ chainId, Refreshed (getCorrections before chainId)
    (getCorrections remote chainId) (getCorrections after chainId)

theorem refreshed_trans {before middle remote after : Option Bytes}
    (first : Refreshed before remote middle) (second : Refreshed middle remote after) :
    Refreshed before remote after := by
  rcases second with kept | refreshed
  · rw [kept]
    exact first
  · exact .inr refreshed

theorem copies_refl {remote db : KvDb} (sound : Sound db) : Copies remote db db where
  sound := sound
  blocks _ _ _ present := .inl present
  bundles _ := rfl
  rules _ := .inl rfl
  corrections _ := .inl rfl

theorem Copies.trans {remote before middle after : KvDb} (first : Copies remote before middle)
    (second : Copies remote middle after) : Copies remote before after := by
  constructor
  · exact second.sound
  · intro chainId number data present
    rcases second.blocks chainId number data present with earlier | copied
    · exact first.blocks chainId number data earlier
    · exact .inr copied
  · intro chainId
    rw [second.bundles, first.bundles]
  · intro chainId
    exact refreshed_trans (first.rules chainId) (second.rules chainId)
  · intro chainId
    exact refreshed_trans (first.corrections chainId) (second.corrections chainId)

section Steps

variable {remote db : KvDb}

theorem same_metadata {updated : KvDb} {contents changed : Contents}
    (represents : Represents db contents) (after : Represents updated changed)
    (same : changed.other = contents.other) (chainId : UInt64) {suffix : UInt8}
    (nonzero : suffix ≠ 0) :
    updated[makeChainKey chainId suffix]? = db[makeChainKey chainId suffix]? := by
  have unmanaged := chain_key_unmanaged chainId suffix nonzero
  rw [after.other _ unmanaged, same, represents.other _ unmanaged]

theorem copies_of_blocks {updated : KvDb} {contents changed : Contents}
    (represents : Represents db contents) (valid : changed.Valid) (keyed : changed.WellKeyed)
    (after : Represents updated changed) (same : changed.other = contents.other)
    (blocks : ∀ chainId number data, changed.blocks chainId number = some data →
      contents.blocks chainId number = some data ∨
        getBytes remote chainId number = some data) :
    Copies remote db updated := by
  constructor
  · exact ⟨changed, valid, keyed, after⟩
  · intro chainId number data present
    rw [after.blocks] at present
    rw [represents.blocks]
    exact blocks chainId number data present
  · intro chainId
    exact same_metadata represents after same chainId (by decide)
  · intro chainId
    exact .inl (same_metadata represents after same chainId (by decide))
  · intro chainId
    exact .inl (same_metadata represents after same chainId (by decide))

/-- Whatever the ranges that the client asks for, the blocks that it stores are the
server's. -/
theorem fetch_copies (remoteSound : Sound remote) (sound : Sound db) {server : Server}
    (relays : Relays remote server) (chainId : UInt64) (fromBlock toBlock : Option UInt64) :
    Copies remote db (fetch server db chainId fromBlock toBlock).1 := by
  unfold fetch
  cases planFetch server db chainId fromBlock toBlock with
  | error failure => exact copies_refl sound
  | ok ranges =>
      have readable := consistent_readable (sound_consistent sound) chainId
      have stored := download_stores server readable 0 ranges
      have held : ∀ write ∈ writesOf chainId (reached server chainId 0 ranges),
          getBytes remote write.chainId write.blockNumber = some write.data := by
        intro write member
        rcases List.mem_flatMap.mp member with ⟨⟨range, blocks⟩, streamed, inStream⟩
        rcases List.mem_map.mp inStream with ⟨block, read, same⟩
        rcases mem_reached streamed with ⟨-, position, messages, received, blocksEq⟩
        change block ∈ blocks at read
        rw [blocksEq] at read
        rw [← same]
        exact delivered_block (relays position ⟨chainId, range.start, range.stop⟩) received read
      have below : ∀ write ∈ writesOf chainId (reached server chainId 0 ranges),
          write.blockNumber < maxBlockNumber := fun write member =>
        stored_bounded (sound_consistent remoteSound) (held write member)
      rcases sound with ⟨contents, valid, keyed, represents⟩
      rcases put_all_simulates represents valid _ below with ⟨updated, again, after⟩
      cases stored.symm.trans again
      have same := Contents.put_all_other contents
        (writesOf chainId (reached server chainId 0 ranges))
      apply copies_of_blocks represents (Contents.put_all_valid valid _ below) _ after same
      · intro chain number data present
        rw [Contents.put_all_blocks] at present
        cases found : Contents.lastWrite (writesOf chainId (reached server chainId 0 ranges))
            chain number with
        | none =>
            rw [found, Option.none_or] at present
            exact .inl present
        | some last =>
            rw [found] at present
            cases present
            exact .inr (held _ (Contents.last_write_mem found))
      · intro key present
        rw [same] at present
        exact keyed key present

theorem purge_copies (sound : Sound db) (console : Console) (chainId : UInt64)
    (fromBlock toBlock : Option UInt64) :
    Copies remote db (purge console db chainId fromBlock toBlock).1 := by
  rcases purge_deletes console (sound_consistent sound) chainId fromBlock toBlock with
    unchanged | ⟨last, ordered, -, deleted, -⟩
  · rw [unchanged]
    exact copies_refl sound
  · rcases sound with ⟨contents, valid, keyed, represents⟩
    rcases delete_range_simulates represents valid keyed chainId ordered with
      ⟨updated, again, after⟩
    cases deleted.symm.trans again
    apply copies_of_blocks represents (Contents.delete_valid valid chainId _ last) keyed after rfl
    intro chain number data present
    simp only [Contents.delete] at present
    split_ifs at present
    exact .inl present

theorem put_entry_effect (sound : Sound db) (chainId : UInt64) {suffix : UInt8}
    (nonzero : suffix ≠ 0) (data : Bytes) :
    ∃ updated, putChainEntry db chainId (makeChainKey chainId suffix) data = .ok updated ∧
      Sound updated ∧
      (∀ chain number, getBytes updated chain number = getBytes db chain number) ∧
      ∀ chain (kind : UInt8), kind ≠ 0 → updated[makeChainKey chain kind]? =
        if chainId = chain ∧ suffix = kind then some data
        else db[makeChainKey chain kind]? := by
  have kept := put_chain_entry_sound sound chainId nonzero data
  rcases sound with ⟨contents, valid, keyed, represents⟩
  rcases put_chain_entry_simulates represents chainId data
    (chain_key_unmanaged chainId suffix nonzero) with ⟨updated, stored, after⟩
  rw [stored] at kept
  refine ⟨updated, stored, kept, ?_, ?_⟩
  · intro chain number
    rw [after.blocks, represents.blocks]
    rfl
  · intro chain kind managed
    rw [after.other _ (chain_key_unmanaged chain kind managed),
      represents.other _ (chain_key_unmanaged chain kind managed)]
    simp [Contents.putEntry]

theorem store_entry_effect (sound : Sound db) (chainId : UInt64) {suffix : UInt8}
    (nonzero : suffix ≠ 0) (entry : Option Bytes) :
    ∃ updated, storeEntry (fun db chainId data =>
        putChainEntry db chainId (makeChainKey chainId suffix) data) chainId db entry =
          (updated, .ok ()) ∧
      Sound updated ∧
      (∀ chain number, getBytes updated chain number = getBytes db chain number) ∧
      (∀ chain (kind : UInt8), kind ≠ 0 → suffix ≠ kind →
        updated[makeChainKey chain kind]? = db[makeChainKey chain kind]?) ∧
      ∀ chain, updated[makeChainKey chain suffix]? = db[makeChainKey chain suffix]? ∨
        (chain = chainId ∧ entry.isSome ∧ updated[makeChainKey chain suffix]? = entry) := by
  cases entry with
  | none => exact ⟨db, rfl, sound, fun _ _ => rfl, fun _ _ _ _ => rfl, fun _ => .inl rfl⟩
  | some data =>
      rcases put_entry_effect sound chainId nonzero data with
        ⟨updated, stored, kept, blocks, entries⟩
      refine ⟨updated, ?_, kept, blocks, ?_, ?_⟩
      · simp only [storeEntry, stored]
      · intro chain kind managed different
        rw [entries chain kind managed, if_neg (fun own => different own.2)]
      · intro chain
        by_cases own : chainId = chain
        · right
          rw [entries chain suffix nonzero, if_pos ⟨own, rfl⟩]
          exact ⟨own.symm, rfl, rfl⟩
        · left
          rw [entries chain suffix nonzero, if_neg (fun both => own both.1)]

theorem fetch_metadata_copies (sound : Sound db) (chainId : UInt64)
    {reply : Except Status Metadata}
    (relayed : reply = .ok (getMetadata remote chainId) ∨ ∃ status, reply = .error status) :
    Copies remote db (fetchMetadata reply db chainId).1 := by
  rcases relayed with whole | ⟨status, refused⟩
  · rcases store_entry_effect sound chainId (by decide : (0x01 : UInt8) ≠ 0)
      (getRulesUpdateHeights remote chainId) with
      ⟨middle, rulesStored, middleSound, middleBlocks, middleOthers, rules⟩
    rcases store_entry_effect middleSound chainId (by decide : (0x02 : UInt8) ≠ 0)
      (getCorrections remote chainId) with
      ⟨updated, stored, updatedSound, blocks, others, corrections⟩
    have outcome : fetchMetadata reply db chainId = (updated, .ok ()) := by
      rw [whole, fetchMetadata, getMetadata]
      rw [show storeEntry putRulesUpdateHeights chainId db (getRulesUpdateHeights remote chainId) =
        (middle, .ok ()) from rulesStored]
      exact stored
    rw [outcome]
    constructor
    · exact updatedSound
    · intro chain number data present
      rw [blocks, middleBlocks] at present
      exact .inl present
    · intro chain
      exact (others chain 0x03 (by decide) (by decide)).trans
        (middleOthers chain 0x03 (by decide) (by decide))
    · intro chain
      have kept := others chain 0x01 (by decide) (by decide)
      rcases rules chain with same | ⟨own, present, refreshed⟩
      · exact .inl (kept.trans same)
      · rw [own] at kept refreshed ⊢
        exact .inr ⟨present, kept.trans refreshed⟩
    · intro chain
      have kept := middleOthers chain 0x02 (by decide) (by decide)
      rcases corrections chain with same | ⟨own, present, refreshed⟩
      · exact .inl (same.trans kept)
      · rw [own] at refreshed ⊢
        exact .inr ⟨present, refreshed⟩
  · rw [refused]
    exact copies_refl sound

theorem step_copies (remoteSound : Sound remote) {next : KvDb} (sound : Sound db)
    (step : Step remote db next) : Copies remote db next := by
  cases step with
  | fetches relays chainId fromBlock toBlock =>
      exact fetch_copies remoteSound sound relays chainId fromBlock toBlock
  | fetchesMetadata chainId relayed => exact fetch_metadata_copies sound chainId relayed
  | purges console chainId fromBlock toBlock =>
      exact purge_copies sound console chainId fromBlock toBlock

theorem run_copies (remoteSound : Sound remote) {final : KvDb} (sound : Sound db)
    (run : Run remote db final) : Copies remote db final := by
  induction run with
  | refl => exact copies_refl sound
  | tail _ step ih => exact ih.trans (step_copies remoteSound ih.sound step)

end Steps

/-- The numbers whose failed bundles excuse a broken link on the server but not in the mirror,
which holds both ends of the link. -/
def uncovered (rust : RustLibraries) (remote mirror : KvDb) (chainId : UInt64)
    (failed own : List UInt64) : Set UInt64 :=
  {number | number ∈ failed ∧ number ∉ own ∧
    (getBytes mirror chainId number).isSome ∧ (getBytes mirror chainId (number + 1)).isSome ∧
    ∃ block successor, get rust.codec remote chainId number = .ok (some block) ∧
      get rust.codec remote chainId (number + 1) = .ok (some successor) ∧
      rust.blockHash block ≠ successor.parentHash}

section Verification

variable {rust : RustLibraries} {remote mirror : KvDb} {chainId : UInt64}
  {failed own : List UInt64} (walked : Walked rust remote chainId failed)
  (copied : ∀ number data, getBytes mirror chainId number = some data →
    getBytes remote chainId number = some data)

include copied

theorem mirrored_get {number : UInt64} {block : Block} :
    get rust.codec mirror chainId number = .ok (some block) ↔
      (getBytes mirror chainId number).isSome ∧
        get rust.codec remote chainId number = .ok (some block) := by
  rw [get_eq_some, get_eq_some]
  constructor
  · intro stored
    rcases stored with ⟨data, found, decoded⟩
    exact ⟨by rw [found]; rfl, data, copied number data found, decoded⟩
  · intro stored
    rcases stored with ⟨present, data, found, decoded⟩
    rcases Option.isSome_iff_exists.mp present with ⟨own, ownFound⟩
    cases (copied number own ownFound).symm.trans found
    exact ⟨data, ownFound, decoded⟩

include walked

theorem mirrored_decodable (sound : Sound mirror) : Decodable rust mirror chainId := by
  refine ⟨sound_known sound, sound_consistent sound, ?_⟩
  intro number data found
  exact walked.decodable.decodes number data (copied number data found)

theorem mirrored_numbered : misnumberedBlocks rust mirror chainId 0 = ∅ := by
  apply Set.eq_empty_iff_forall_notMem.mpr
  intro number member
  rcases member with ⟨-, block, stored, wrong⟩
  exact wrong (walked.numbered ((mirrored_get copied).mp stored).2)

theorem mirrored_links (own : List UInt64) : unlinkedBlocks rust mirror chainId 0 own =
    uncovered rust remote mirror chainId failed own := by
  ext number
  constructor
  · intro unlinked
    rcases unlinked with ⟨-, block, successor, stored, next, different, unnamed⟩
    rcases (mirrored_get copied).mp stored with ⟨present, remoteStored⟩
    rcases (mirrored_get copied).mp next with ⟨nextPresent, remoteNext⟩
    have excused : number ∈ failed := by
      by_contra clean
      exact different (walked.linked remoteStored remoteNext clean)
    exact ⟨excused, unnamed, present, nextPresent, block, successor, remoteStored, remoteNext,
      different⟩
  · intro broken
    rcases broken with ⟨-, unnamed, present, nextPresent, block, successor, stored, next,
      different⟩
    exact ⟨UInt64.zero_le, block, successor, (mirrored_get copied).mpr ⟨present, stored⟩,
      (mirrored_get copied).mpr ⟨nextPresent, next⟩, different, unnamed⟩

end Verification

/-- Whatever a service fetches from the server of a verified chain, in whatever order, it holds
blocks of that chain and none other, its rules updates and corrections are its own or the
server's, and the verification of its chain reports one error for each link that only a failed
bundle unknown to it excuses. -/
theorem mirror_verification_exact {rust : RustLibraries} {remote start mirror : KvDb}
    {chainId : UInt64} {failed own : List UInt64} (walked : Walked rust remote chainId failed)
    (sound : Sound start)
    (copied : ∀ number data, getBytes start chainId number = some data →
      getBytes remote chainId number = some data)
    (bundles : readFailedBundles rust start chainId = .ok own) (run : Run remote start mirror) :
    (∀ number data, getBytes mirror chainId number = some data →
      getBytes remote chainId number = some data) ∧
    Refreshed (getRulesUpdateHeights start chainId) (getRulesUpdateHeights remote chainId)
      (getRulesUpdateHeights mirror chainId) ∧
    Refreshed (getCorrections start chainId) (getCorrections remote chainId)
      (getCorrections mirror chainId) ∧
    ∃ report, verify rust mirror chainId none none never = .ok report ∧
      report.errors = (uncovered rust remote mirror chainId failed own).ncard := by
  have copies := run_copies walked.sound sound run
  have blocks : ∀ number data, getBytes mirror chainId number = some data →
      getBytes remote chainId number = some data := by
    intro number data present
    rcases copies.blocks chainId number data present with earlier | fetched
    · exact copied number data earlier
    · exact fetched
  have sameBundles : readFailedBundles rust mirror chainId = .ok own := by
    rw [readFailedBundles, copies.bundles]
    exact bundles
  have decodable := mirrored_decodable walked blocks copies.sound
  rcases verify_rest_count decodable 0 own ⟨0, false, []⟩ with ⟨report, finished, total⟩
  refine ⟨blocks, copies.rules chainId, copies.corrections chainId, report, ?_, ?_⟩
  · rw [verify, sameBundles]
    exact finished
  · rw [total, mirrored_numbered walked blocks, mirrored_links walked blocks, Set.ncard_empty]
    simp only [Nat.zero_add]

def severedRust : RustLibraries :=
  { londonRust with
    keccak256 := fun _ => default
    parseFailedBundles := fun _ => .ok [0] }

theorem severed_server : ∃ remote, Walked severedRust remote 1 [0] ∧
    LastRequested remote 1 none 1 ∧
    get severedRust.codec remote 1 0 = .ok (some londonGenesis) ∧
    get severedRust.codec remote 1 1 = .ok (some londonChild) := by
  rcases london_db_reachable with
    ⟨db, reachable, genesisFound, childFound, noBundles, blocks⟩
  rcases put_entry_effect (reachable_sound reachable) 1 (by decide : (0x03 : UInt8) ≠ 0) [0x5b]
    with ⟨remote, -, sound, same, entries⟩
  have bundles : readFailedBundles severedRust remote 1 = .ok [0] := by
    have named : getFailedBundles remote 1 = some [0x5b] := entries 1 0x03 (by decide)
    rw [readFailedBundles, named]
    rfl
  have genesis : get severedRust.codec remote 1 0 = .ok (some londonGenesis) :=
    get_eq_some.mpr ⟨_, (same 1 0).trans genesisFound, london_genesis_decodes⟩
  have child : get severedRust.codec remote 1 1 = .ok (some londonChild) :=
    get_eq_some.mpr ⟨_, (same 1 1).trans childFound, london_child_decodes⟩
  have read : ∀ number data, getBytes remote 1 number = some data →
      (number = 0 ∧ decodeBlock severedRust.codec data = .ok londonGenesis) ∨
        (number = 1 ∧ decodeBlock severedRust.codec data = .ok londonChild) := by
    intro number data found
    rw [same] at found
    rcases blocks number data found with ⟨zero, own⟩ | ⟨one, own⟩
    · rw [own]
      exact .inl ⟨zero, london_genesis_decodes⟩
    · rw [own]
      exact .inr ⟨one, london_child_decodes⟩
  refine ⟨remote, walked_of_linked sound bundles ⟨sound_known sound, sound_consistent sound, ?_⟩
    ?_ ?_, .inr ⟨rfl, ?_, ?_⟩, genesis, child⟩
  · intro number data found
    rcases read number data found with ⟨-, decoded⟩ | ⟨-, decoded⟩
    · exact ⟨_, decoded⟩
    · exact ⟨_, decoded⟩
  · intro number block stored
    rcases get_eq_some.mp stored with ⟨data, found, decoded⟩
    rcases read number data found with ⟨place, own⟩ | ⟨place, own⟩
    all_goals
      cases decoded.symm.trans own
      rw [place]
      rfl
  · intro number block successor stored next
    right
    rcases get_eq_some.mp stored with ⟨data, found, -⟩
    rcases get_eq_some.mp next with ⟨nextData, nextFound, -⟩
    rcases read number data found with ⟨place, -⟩ | ⟨place, -⟩
    · rw [place]
      exact List.mem_singleton_self 0
    · rw [place] at nextFound
      rcases read _ nextData nextFound with ⟨wrong, -⟩ | ⟨wrong, -⟩
      · cases wrong
      · cases wrong
  · rw [Set.mem_ofPred_eq, same, childFound]
    rfl
  · intro number present
    rcases Option.isSome_iff_exists.mp present with ⟨data, found⟩
    rcases read number data found with ⟨place, -⟩ | ⟨place, -⟩
    · rw [place]
      decide
    · rw [place]

/-- The mirror of this server has both blocks but not the excuse. -/
theorem mirror_verification_severed : ∃ remote mirror report, Walked severedRust remote 1 [0] ∧
    Run remote freshDb mirror ∧ verify severedRust mirror 1 none none never = .ok report ∧
    report.errors = 1 := by
  rcases severed_server with ⟨remote, walked, requested, genesis, child⟩
  have fresh := create_sound create_empty
  have present : ∀ number, number ≤ (1 : UInt64) → (getBytes remote 1 number).isSome := by
    intro number upper
    have small := UInt64.le_iff_toNat_le.mp upper
    have either : number = 0 ∨ number = 1 := by
      rw [← UInt64.toNat_inj, ← UInt64.toNat_inj]
      change number.toNat = 0 ∨ number.toNat = 1
      change number.toNat ≤ 1 at small
      omega
    rcases either with zero | one
    · rcases get_eq_some.mp genesis with ⟨data, found, -⟩
      rw [zero, found]
      rfl
    · rcases get_eq_some.mp child with ⟨data, found, -⟩
      rw [one, found]
      rfl
  have fetchable : Fetchable freshDb remote 1 none none 1 :=
    ⟨requested, by decide, fun number _ upper => .inr (present number upper)⟩
  have succeeded := fetchable_succeeds (sound_consistent fresh) walked.sound fetchable
  cases fetched : fetch (honestServer remote) freshDb 1 none none with
  | mk mirror result =>
      rw [fetched] at succeeded
      cases succeeded
      rcases fetch_ok_stores (sound_consistent fresh) (sound_consistent walked.sound) fetched with
        ⟨last, writes, again, fetches⟩
      cases requested.unique again.requested
      have run : Run remote freshDb mirror := by
        have relays : Relays remote (honestServer remote) := fun _ _ => .whole
        have step := Step.fetches freshDb relays 1 none none
        rw [fetched] at step
        exact .single step
      have bundles : readFailedBundles severedRust freshDb 1 = .ok [] := by
        have absent : getFailedBundles freshDb 1 = none := by
          simp [getFailedBundles, freshDb, OrderedStore.get_put, makeFailedBundlesKey]
        rw [readFailedBundles, absent]
      have noBlocks : ∀ number data, getBytes freshDb 1 number = some data →
          getBytes remote 1 number = some data := by
        intro number data found
        simp [getBytes, freshDb, OrderedStore.get_put] at found
      rcases mirror_verification_exact walked fresh noBlocks bundles run with
        ⟨-, -, -, report, verified, total⟩
      refine ⟨remote, mirror, report, walked, run, verified, ?_⟩
      have single : uncovered severedRust remote mirror 1 [0] [] = {0} := by
        apply Set.eq_singleton_iff_unique_mem.mpr
        constructor
        · exact ⟨List.mem_singleton_self 0, List.not_mem_nil, fetches.filled 0 (by decide)
            (by decide), fetches.filled 1 (by decide) (by decide), londonGenesis, londonChild,
            genesis, child, by decide +kernel⟩
        · exact fun number member => List.mem_singleton.mp member.1
      rw [total, single, Set.ncard_singleton]

end Bertha.Mirrors
