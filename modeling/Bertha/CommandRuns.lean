import Bertha.FetchSuccess
import Bertha.Import
import Bertha.LiveSync
import Bertha.ReplayFrame

/-!
# Runs of commands

A block database is worked on by one command after the other: imports, fetches, purges and
metadata updates of the block service, the synchronisation of a running service, and replays.
The steps keep a ghost record of the blocks that came from outside and of the places that a
confirmed purge was told to clear. Whatever the outcome of each command, the database stays
one that opens and serves every block, no block is stored that did not come from outside, up
to state roots that a replay put in, and none is lost but to a confirmed purge.
-/

namespace Bertha.CommandRuns

open Bertha.BigEndian Bertha.BlockDb Bertha.BlockDbContents Bertha.BlockDbInvariant
open Bertha.BlockKeys Bertha.BlockRanges Bertha.Conversion Bertha.Fetch Bertha.FetchSuccess
open Bertha.GoBlockDb (GoCodec)
open Bertha.Import (Environment importBlocks importWrites writeOf)
open Bertha.IntervalList Bertha.OrderedStore Bertha.Purge Bertha.Replay Bertha.ReplayFrame
open Bertha.BlockTypes (Block Hash)
open Bertha.RpcServer (EncodedBlock Status)

set_option autoImplicit false

/-- The formats in which the two programs write and read blocks; both read the number that
either of them writes. -/
structure Wire where
  rust : WireCodec
  go : GoCodec
  numberOf : Bytes → Option UInt64
  encoded : ∀ block, numberOf (encodeBlock rust block) = some block.number
  decoded : ∀ data block, decodeBlock rust data = .ok block → numberOf data = some block.number
  unmarshaled : ∀ data message, go.unmarshal data = .ok message →
    numberOf data = some message.number
  lossless : ∀ message data, go.marshal message = .ok data → go.unmarshal data = .ok message

def Numbered (wire : Wire) (db : KvDb) : Prop :=
  ∀ chainId number data, getBytes db chainId number = some data →
    ∀ own, wire.numberOf data = some own → own = number

def RootRewritten (wire : Wire) (before after : Bytes) : Prop :=
  ∃ schema root message rewritten, wire.go.unmarshal before = .ok message ∧
    RootReplaced schema message root rewritten ∧ wire.go.unmarshal after = .ok rewritten

/-- A database with the blocks its commands were given and the places they were told to
clear. -/
structure History where
  db : KvDb
  given : Set BlockWrite
  cleared : Set (UInt64 × UInt64)

def imported {Failure : Type} (env : Environment) (items : List (Except Failure Block))
    (chainId : UInt64) : Set BlockWrite :=
  {write | ∃ block, .ok block ∈ items ∧ writeOf env chainId block = write}

/-- The streams that answer the requests of a download, which makes the next request only behind
a complete stream. -/
def answers (server : Server) (chainId : UInt64) :
    Nat → List BlockRange → List (List (Except Status EncodedBlock))
  | _, [] => []
  | position, range :: rest =>
    match server.getBlockRange position ⟨chainId, range.start, range.stop⟩ with
    | .error _ => []
    | .ok messages =>
        messages ::
          if Completes range messages then answers server chainId (position + 1) rest else []

/-- The blocks that a server sends in answer to the requests that a fetch makes. -/
def sent (server : Server) (db : KvDb) (chainId : UInt64) (fromBlock toBlock : Option UInt64) :
    Set BlockWrite :=
  {write | ∃ ranges messages block, planFetch server db chainId fromBlock toBlock = .ok ranges ∧
    messages ∈ answers server chainId 0 ranges ∧ .ok block ∈ messages ∧
      toWrite chainId block = write}

def purgedPlaces (console : Console) (chainId : UInt64) (fromBlock toBlock : Option UInt64) :
    Set (UInt64 × UInt64) :=
  {place | place.1 = chainId ∧ fromBlock.getD 0 ≤ place.2 ∧
    (∀ last, toBlock = some last → place.2 ≤ last) ∧
    ∃ input, console.readLine = .ok input ∧ confirms input = true}

/-- The databases that the plain loop leaves, and the pipeline at any moment. -/
inductive ReplayLeaves {State Progress : Type} (setup : Setup State Progress)
    (applySide : ApplySide State) (checkSide : CheckSide Progress) (turns : List Turn) :
    KvDb → Prop where
  | loop : ReplayLeaves setup applySide checkSide turns
      (runReplayLoop setup applySide checkSide turns).2.1.checks.blockDB
  | pipeline {inputCapacity outputCapacity config}
      (reached : Pipeline.Reachable (ReplayPipeline.pipelineStages setup) inputCapacity
        outputCapacity turns applySide checkSide config) :
      ReplayLeaves setup applySide checkSide turns config.finish.checks.blockDB

/-- One command, or one write of a command that runs on. Numbers stay below the largest
one. -/
inductive Step (wire : Wire) : History → History → Prop where
  | imports {Failure : Type} (history : History) (env : Environment)
      (codec : env.codec = wire.rust) (register : Except String Unit)
      (items : List (Except Failure Block)) (chainId : UInt64) (verify : Bool)
      (isCancelled : Nat → Bool)
      (below : ∀ block, .ok block ∈ items → block.number < maxBlockNumber) :
      Step wire history
        { history with
          db := (importBlocks env register history.db items chainId verify isCancelled).db
          given := history.given ∪ imported env items chainId }
  | fetches (history : History) (server : Server) (chainId : UInt64)
      (fromBlock toBlock : Option UInt64)
      (below : ∀ write ∈ sent server history.db chainId fromBlock toBlock,
        write.blockNumber < maxBlockNumber)
      (honest : ∀ write ∈ sent server history.db chainId fromBlock toBlock, ∀ own,
        wire.numberOf write.data = some own → own = write.blockNumber) :
      Step wire history
        { history with
          db := (fetch server history.db chainId fromBlock toBlock).1
          given := history.given ∪ sent server history.db chainId fromBlock toBlock }
  | purges (history : History) (console : Console) (chainId : UInt64)
      (fromBlock toBlock : Option UInt64) :
      Step wire history
        { history with
          db := (purge console history.db chainId fromBlock toBlock).1
          cleared := history.cleared ∪ purgedPlaces console chainId fromBlock toBlock }
  | storesMetadata (history : History) (chainId : UInt64) (data : Bytes) {updated : KvDb}
      (stored : putRulesUpdateHeights history.db chainId data = .ok updated ∨
        putCorrections history.db chainId data = .ok updated ∨
        putFailedBundles history.db chainId data = .ok updated) :
      Step wire history { history with db := updated }
  | syncs (history : History) (chainId : UInt64) (block : Block)
      (below : block.number < maxBlockNumber) {updated : KvDb}
      (stored : put wire.rust history.db chainId block = .ok updated) :
      Step wire history
        { history with
          db := updated
          given := insert ⟨chainId, block.number, encodeBlock wire.rust block⟩ history.given }
  | replays {State Progress : Type} (history : History) (setup : Setup State Progress)
      (codec : setup.codec = wire.go) (chainId : UInt64) (schema : Nat)
      (info : setup.chain.info = chainInfo chainId schema) (applySide : ApplySide State)
      (progress : Progress) (context : Checks.ReplayLoopContext) (first last : UInt64)
      (turns : List Turn)
      (read : turns.map Turn.next = GoBlockDb.getRange setup.codec history.db chainId first last)
      {updated : KvDb}
      (leaves : ReplayLeaves setup applySide ⟨⟨history.db, context⟩, progress, []⟩ turns
        updated) :
      Step wire history { history with db := updated }
  /-- The rules that a replay commits, for a chain that it has blocks of. -/
  | commitsRules (history : History) (chainId : UInt64) (data : Bytes)
      (present : ∃ number, (getBytes history.db chainId number).isSome) :
      Step wire history
        { history with db := GoBlockDb.putRulesUpdateHeights history.db chainId data }

abbrev Run (wire : Wire) : History → History → Prop := Relation.ReflTransGen (Step wire)

/-- A database that opens, has sound metadata and keeps its blocks under their numbers. -/
structure Intact (wire : Wire) (db : KvDb) : Prop where
  version : db[versionKey]? = some (serializeVersion currentVersion)
  sound : Sound db
  numbered : Numbered wire db

/-- What one step does to an intact database. -/
structure Effect (wire : Wire) (before after : History) : Prop where
  intact : Intact wire after.db
  given : before.given ⊆ after.given
  cleared : before.cleared ⊆ after.cleared
  origin : ∀ chainId number data, getBytes after.db chainId number = some data →
    getBytes before.db chainId number = some data ∨ ⟨chainId, number, data⟩ ∈ after.given ∨
      ∃ stored, getBytes before.db chainId number = some stored ∧ RootRewritten wire stored data
  kept : ∀ chainId number, (getBytes before.db chainId number).isSome →
    (chainId, number) ∉ after.cleared → (getBytes after.db chainId number).isSome

theorem get_message_ok {codec : GoCodec} {db : KvDb} {chainId number : UInt64}
    {message : ProtoBlock.Block} :
    GoBlockDb.get codec db chainId number = .ok (some message) ↔
      ∃ data, getBytes db chainId number = some data ∧ codec.unmarshal data = .ok message := by
  unfold GoBlockDb.get getBytes
  rw [GoBlockDb.make_block_key_eq]
  cases db[makeBlockKey chainId number]? with
  | none => simp [pure, Except.pure]
  | some data =>
      cases read : codec.unmarshal data with
      | error failure => simp [read, Functor.map, Except.map]
      | ok own => simp [read, Functor.map, Except.map]

section Effects

variable {wire : Wire} {before after : History}

theorem root_rewritten_number {stored data : Bytes} (rewritten : RootRewritten wire stored data) :
    wire.numberOf data = wire.numberOf stored := by
  rcases rewritten with ⟨schema, root, message, changed, read, replaced, readAgain⟩
  rw [wire.unmarshaled stored message read, wire.unmarshaled data changed readAgain,
    replaced.keeps.1]

theorem effect_of_origin (intact : Intact wire before.db)
    (version : after.db[versionKey]? = before.db[versionKey]?) (sound : Sound after.db)
    (given : before.given ⊆ after.given) (cleared : before.cleared ⊆ after.cleared)
    (origin : ∀ chainId number data, getBytes after.db chainId number = some data →
      getBytes before.db chainId number = some data ∨
        (⟨chainId, number, data⟩ ∈ after.given ∧
          ∀ own, wire.numberOf data = some own → own = number) ∨
        ∃ stored, getBytes before.db chainId number = some stored ∧
          RootRewritten wire stored data)
    (kept : ∀ chainId number, (getBytes before.db chainId number).isSome →
      (chainId, number) ∉ after.cleared → (getBytes after.db chainId number).isSome) :
    Effect wire before after := by
  refine ⟨⟨version.trans intact.version, sound, ?_⟩, given, cleared, ?_, kept⟩
  · intro chainId number data present own read
    rcases origin chainId number data present with same | ⟨-, named⟩ | ⟨stored, found, rewritten⟩
    · exact intact.numbered chainId number data same own read
    · exact named own read
    · rw [root_rewritten_number rewritten] at read
      exact intact.numbered chainId number stored found own read
  · intro chainId number data present
    rcases origin chainId number data present with same | ⟨new, -⟩ | rewritten
    · exact .inl same
    · exact .inr (.inl new)
    · exact .inr (.inr rewritten)

theorem effect_of_same_blocks (intact : Intact wire before.db)
    (version : after.db[versionKey]? = before.db[versionKey]?) (sound : Sound after.db)
    (given : before.given ⊆ after.given) (cleared : before.cleared ⊆ after.cleared)
    (blocks : ∀ chainId number, getBytes after.db chainId number =
      getBytes before.db chainId number) : Effect wire before after := by
  apply effect_of_origin intact version sound given cleared
  · intro chainId number data present
    rw [blocks] at present
    exact .inl present
  · intro chainId number present _
    rw [blocks]
    exact present

theorem version_key_unmanaged : ¬ IsManaged versionKey := by
  intro managed
  rcases managed with same | ⟨chain, same⟩ | ⟨chain, number, same⟩
  · exact absurd same (by decide)
  · exact version_key_ne_chain_key chain 0x00 same
  · exact version_key_ne_block_key chain number same

theorem effect_of_writes (intact : Intact wire before.db) {contents : Contents}
    (valid : contents.Valid) (keyed : contents.WellKeyed)
    (represents : Represents before.db contents) {writes : List BlockWrite}
    (below : ∀ write ∈ writes, write.blockNumber < maxBlockNumber)
    (named : ∀ write ∈ writes, ∀ own, wire.numberOf write.data = some own →
      own = write.blockNumber)
    (stored : Represents after.db (contents.putAll writes))
    (given : before.given ⊆ after.given) (cleared : before.cleared ⊆ after.cleared)
    (new : ∀ write ∈ writes, write ∈ after.given) : Effect wire before after := by
  have others := Contents.put_all_other contents writes
  apply effect_of_origin intact _ _ given cleared
  · intro chainId number data present
    rw [stored.blocks, Contents.put_all_blocks] at present
    cases found : Contents.lastWrite writes chainId number with
    | none =>
        rw [found, Option.none_or, ← represents.blocks] at present
        exact .inl present
    | some last =>
        rw [found] at present
        cases present
        have member := Contents.last_write_mem found
        exact .inr (.inl ⟨new _ member, named _ member⟩)
  · intro chainId number present _
    rw [represents.blocks] at present
    rw [stored.blocks, Contents.put_all_blocks]
    cases Contents.lastWrite writes chainId number with
    | none => exact present
    | some last => rfl
  · rw [stored.other versionKey version_key_unmanaged, others,
      represents.other versionKey version_key_unmanaged]
  · refine ⟨_, Contents.put_all_valid valid writes below, ?_, stored⟩
    intro key present
    rw [others] at present
    exact keyed key present

end Effects

def blocksOr {Failure : Type} (other : Block) (items : List (Except Failure Block)) : List Block :=
  items.map fun item => match item with
    | .ok block => block
    | .error _ => other

theorem mem_blocks_or {Failure : Type} {other block : Block} {items : List (Except Failure Block)}
    (member : block ∈ blocksOr other items) : .ok block ∈ items ∨ block = other := by
  rcases List.mem_map.mp member with ⟨item, inside, same⟩
  cases item with
  | ok own =>
      cases same
      exact .inl inside
  | error failure => exact .inr same.symm

theorem import_stores_yielded {Failure : Type} {env : Environment} {db : KvDb}
    {contents : Contents} (valid : contents.Valid) (represents : Represents db contents)
    {chainId : UInt64} {verify : Bool}
    (keyed : ∀ smallest, Import.KeyedBelow env.codec contents chainId smallest)
    {items : List (Except Failure Block)}
    (below : ∀ block, .ok block ∈ items → block.number < maxBlockNumber)
    (register : Except String Unit) (isCancelled : Nat → Bool) :
    ∃ written,
      Represents (importBlocks env register db items chainId verify isCancelled).db
        (contents.putAll written) ∧
      ∀ write ∈ written, write ∈ imported env items chainId := by
  rcases represents_get_ranges represents valid chainId with ⟨ranges, rangesRead, -⟩
  by_cases yields : ∃ block, .ok block ∈ items
  · rcases yields with ⟨other, otherMember⟩
    have yielded : ∀ block ∈ blocksOr other items, .ok block ∈ items := by
      intro block member
      rcases mem_blocks_or member with own | same
      · exact own
      · rw [same]
        exact otherMember
    have read : Import.ReadOf (blocksOr other items) items := by
      intro index block found
      rw [blocksOr, List.getElem?_map, found]
      rfl
    rcases Import.import_blocks_writes valid represents rangesRead
      (fun block member => below block (yielded block member)) env verify
      (fun _ => keyed _) read register isCancelled with ⟨written, leading, after, -⟩
    refine ⟨written, after, ?_⟩
    intro write member
    rcases List.mem_map.mp (leading.subset member) with ⟨block, inside, same⟩
    exact ⟨block, yielded block ((List.takeWhile_prefix _).subset inside), same⟩
  · have read : Import.ReadOf [] items := by
      intro index block found
      exact absurd ⟨block, List.mem_of_getElem? found⟩ yields
    rcases Import.import_blocks_writes valid represents rangesRead (by simp) env verify
      (fun _ => keyed _) read register isCancelled with ⟨written, leading, after, -⟩
    have nothing : written = [] := List.prefix_nil.mp leading
    rw [nothing] at after
    exact ⟨[], after, by simp⟩

theorem reached_answered {server : Server} {chainId : UInt64} {position : Nat}
    {ranges : List BlockRange} {range : BlockRange} {blocks : List EncodedBlock}
    (member : (range, blocks) ∈ reached server chainId position ranges) :
    ∃ messages ∈ answers server chainId position ranges,
      blocks = inOrder range.start messages := by
  induction ranges generalizing position with
  | nil => cases member
  | cons first rest ih =>
      rw [reached] at member
      rw [answers]
      cases reply : server.getBlockRange position ⟨chainId, first.start, first.stop⟩ with
      | error status =>
          rw [reply] at member
          cases member
      | ok messages =>
          rw [reply] at member
          rcases List.mem_cons.mp member with same | later
          · cases same
            exact ⟨messages, List.mem_cons_self, rfl⟩
          · split_ifs at later with complete
            · rcases ih later with ⟨others, answered, same⟩
              refine ⟨others, List.mem_cons_of_mem _ ?_, same⟩
              rw [if_pos complete]
              exact answered
            · cases later

theorem fetch_stores_sent (server : Server) {db : KvDb} (consistent : MetadataConsistent db)
    (chainId : UInt64) (fromBlock toBlock : Option UInt64) :
    ∃ writes, putAll db writes = .ok (fetch server db chainId fromBlock toBlock).1 ∧
      ∀ write ∈ writes, write ∈ sent server db chainId fromBlock toBlock := by
  unfold fetch
  cases planned : planFetch server db chainId fromBlock toBlock with
  | error failure => exact ⟨[], rfl, by simp⟩
  | ok ranges =>
      refine ⟨_, download_stores server (consistent_readable consistent chainId) 0 ranges, ?_⟩
      intro write member
      rcases List.mem_flatMap.mp member with ⟨⟨range, blocks⟩, streamMember, inStream⟩
      rcases List.mem_map.mp inStream with ⟨block, blockMember, same⟩
      rcases reached_answered streamMember with ⟨messages, answered, blocksEq⟩
      rw [blocksEq] at blockMember
      exact ⟨ranges, messages, block, planned, answered, in_order_mem blockMember, same⟩

theorem framed_blocks {wire : Wire} {chainId : UInt64} {schema : Nat}
    {policy : Checks.OverwriteStateRootPolicy} {db : KvDb} {calls : List CheckCall}
    {updated : KvDb} (framed : Framed wire.go chainId schema policy db calls updated)
    (other number : UInt64) :
    getBytes updated other number = getBytes db other number ∨
      ∃ stored data, getBytes db other number = some stored ∧
        getBytes updated other number = some data ∧ RootRewritten wire stored data := by
  by_cases own : other = chainId
  · rw [own]
    rcases framed.blocks number with same | rewritten
    · exact .inl same
    · rcases rewritten with ⟨block, root, changed, read, -, -, -, replaced, readAgain⟩
      rcases get_message_ok.mp read with ⟨stored, found, unmarshaled⟩
      rcases get_message_ok.mp readAgain with ⟨data, foundAgain, unmarshaledAgain⟩
      exact .inr ⟨stored, data, found, foundAgain, schema, root, block, changed, unmarshaled,
        replaced, unmarshaledAgain⟩
  · apply Or.inl
    apply framed.others
    intro position same
    exact own (make_block_key_injective same).1

section Steps

variable {wire : Wire} {history : History} (intact : Intact wire history.db)

include intact

theorem imports_effect {Failure : Type} {env : Environment} (codec : env.codec = wire.rust)
    (register : Except String Unit) {items : List (Except Failure Block)} (chainId : UInt64)
    (verify : Bool) (isCancelled : Nat → Bool)
    (below : ∀ block, .ok block ∈ items → block.number < maxBlockNumber) :
    Effect wire history
      { history with
        db := (importBlocks env register history.db items chainId verify isCancelled).db
        given := history.given ∪ imported env items chainId } := by
  rcases intact.sound with ⟨contents, valid, keyed, represents⟩
  have numbered : ∀ smallest, Import.KeyedBelow env.codec contents chainId smallest := by
    intro smallest number _ data block found decodes
    rw [codec] at decodes
    rw [← represents.blocks] at found
    exact intact.numbered chainId number data found _ (wire.decoded data block decodes)
  rcases @import_stores_yielded Failure env history.db contents valid represents chainId verify
    numbered items below register isCancelled with ⟨written, stored, yielded⟩
  have within : ∀ write ∈ written, write.blockNumber < maxBlockNumber := by
    intro write member
    rcases yielded write member with ⟨block, inside, same⟩
    rw [← same]
    exact below block inside
  have named : ∀ write ∈ written, ∀ own, wire.numberOf write.data = some own →
      own = write.blockNumber := by
    intro write member own read
    rcases yielded write member with ⟨block, inside, same⟩
    rw [← same, writeOf, codec, wire.encoded] at read
    rw [← same]
    exact (Option.some.inj read).symm
  exact effect_of_writes intact valid keyed represents within named stored
    Set.subset_union_left (subset_refl _) (fun write member => .inr (yielded write member))

theorem fetches_effect {server : Server} {chainId : UInt64} {fromBlock toBlock : Option UInt64}
    (below : ∀ write ∈ sent server history.db chainId fromBlock toBlock,
      write.blockNumber < maxBlockNumber)
    (honest : ∀ write ∈ sent server history.db chainId fromBlock toBlock, ∀ own,
      wire.numberOf write.data = some own → own = write.blockNumber) :
    Effect wire history
      { history with
        db := (fetch server history.db chainId fromBlock toBlock).1
        given := history.given ∪ sent server history.db chainId fromBlock toBlock } := by
  rcases fetch_stores_sent server (sound_consistent intact.sound) chainId fromBlock toBlock with
    ⟨writes, stored, received⟩
  rcases intact.sound with ⟨contents, valid, keyed, represents⟩
  have within : ∀ write ∈ writes, write.blockNumber < maxBlockNumber :=
    fun write member => below write (received write member)
  rcases put_all_simulates represents valid writes within with ⟨updated, again, after⟩
  cases stored.symm.trans again
  exact effect_of_writes intact valid keyed represents within
    (fun write member => honest write (received write member)) after Set.subset_union_left
    (subset_refl _) (fun write member => .inr (received write member))

theorem purges_effect (console : Console) (chainId : UInt64) (fromBlock toBlock : Option UInt64) :
    Effect wire history
      { history with
        db := (purge console history.db chainId fromBlock toBlock).1
        cleared := history.cleared ∪ purgedPlaces console chainId fromBlock toBlock } := by
  rcases purge_deletes console (sound_consistent intact.sound) chainId fromBlock toBlock with
    unchanged | ⟨last, ordered, given, deleted, -, confirmed⟩
  · rw [unchanged]
    exact effect_of_same_blocks intact rfl intact.sound (subset_refl _) Set.subset_union_left
      (fun _ _ => rfl)
  · rcases intact.sound with ⟨contents, valid, keyed, represents⟩
    rcases delete_range_simulates represents valid keyed chainId ordered with
      ⟨updated, again, after⟩
    cases deleted.symm.trans again
    have deletedBlock : ∀ other number,
        getBytes (purge console history.db chainId fromBlock toBlock).1 other number =
          if chainId = other ∧ fromBlock.getD 0 ≤ number ∧ number ≤ last then none
          else getBytes history.db other number := by
      intro other number
      rw [after.blocks, represents.blocks]
      rfl
    have version : (purge console history.db chainId fromBlock toBlock).1[versionKey]? =
        history.db[versionKey]? := by
      rw [after.other versionKey version_key_unmanaged,
        represents.other versionKey version_key_unmanaged]
      rfl
    refine effect_of_origin intact version
      ⟨_, Contents.delete_valid valid chainId _ last, keyed, after⟩
      (subset_refl _) Set.subset_union_left ?_ ?_
    · intro other number data present
      dsimp only at present
      rw [deletedBlock] at present
      split_ifs at present
      exact .inl present
    · intro other number present spared
      dsimp only at spared ⊢
      rw [deletedBlock]
      split_ifs with inside
      · rcases inside with ⟨own, lower, upper⟩
        have place : (other, number) ∈ purgedPlaces console chainId fromBlock toBlock := by
          refine ⟨own.symm, lower, ?_, confirmed⟩
          intro bound same
          rw [given bound same]
          exact upper
        exact absurd (.inr place) spared
      · exact present

theorem metadata_effect (chainId : UInt64) {suffix : UInt8} (nonzero : suffix ≠ 0) {data : Bytes}
    {updated : KvDb}
    (stored : putChainEntry history.db chainId (makeChainKey chainId suffix) data = .ok updated) :
    Effect wire history { history with db := updated } := by
  have sound := put_chain_entry_sound intact.sound chainId nonzero data
  rw [stored] at sound
  rcases intact.sound with ⟨contents, valid, keyed, represents⟩
  rcases put_chain_entry_simulates represents chainId data
    (chain_key_unmanaged chainId suffix nonzero) with ⟨again, storedAgain, after⟩
  cases stored.symm.trans storedAgain
  have version : updated[versionKey]? = history.db[versionKey]? := by
    rw [after.other versionKey version_key_unmanaged,
      represents.other versionKey version_key_unmanaged]
    simp only [Contents.putEntry, if_neg (version_key_ne_chain_key chainId suffix).symm]
  have blocks : ∀ other number, getBytes updated other number =
      getBytes history.db other number := by
    intro other number
    rw [after.blocks, represents.blocks]
    rfl
  exact effect_of_same_blocks intact version sound (subset_refl _) (subset_refl _) blocks

/-- For a chain with blocks, the rules that Go stores without a look at the chain list are
stored as the block service would do it. -/
theorem commits_rules_as_rust {chainId : UInt64} (data : Bytes)
    (present : ∃ number, (getBytes history.db chainId number).isSome) :
    putRulesUpdateHeights history.db chainId data =
      .ok (GoBlockDb.putRulesUpdateHeights history.db chainId data) := by
  rcases intact.sound with ⟨contents, valid, keyed, represents⟩
  rcases present with ⟨number, stored⟩
  rw [represents.blocks] at stored
  have listed := valid.listed chainId (.inl ⟨number, stored⟩)
  cases chains : contents.listed with
  | none =>
      rw [Contents.chains, chains] at listed
      cases listed
  | some names =>
      rw [Contents.chains, chains] at listed
      rcases represents.chainIds names chains with ⟨ids, read, sorted, members⟩
      have unchanged : BinarySearch.insertSorted ids chainId = ids := by
        rcases BinarySearch.insert_sorted_spec sorted chainId with ⟨still, inserted⟩
        apply BinarySearch.sorted_unique still sorted
        intro other
        rw [inserted, members]
        constructor
        · intro either
          rcases either with same | before
          · rw [same]
            exact listed
          · exact before
        · exact .inr
      have idsRead : getChainIds history.db = .ok ids := by
        simp only [getChainIds, read, deserialize_serialize_chain_ids]
      simp only [putRulesUpdateHeights, putChainEntry, idsRead, bind, Except.bind, pure,
        Except.pure, unchanged, Except.ok.injEq]
      apply store_ext
      intro key
      rw [apply_batch_cons, apply_batch_cons, apply_batch_nil, get_put]
      split_ifs with own
      · rw [← own, GoBlockDb.putRulesUpdateHeights, get_put, if_neg, read]
        exact (chain_ids_key_ne_chain_key chainId 0x01).symm
      · rfl

theorem syncs_effect {chainId : UInt64} {block : Block} (below : block.number < maxBlockNumber)
    {updated : KvDb} (stored : put wire.rust history.db chainId block = .ok updated) :
    Effect wire history
      { history with
        db := updated
        given := insert ⟨chainId, block.number, encodeBlock wire.rust block⟩ history.given } := by
  rcases intact.sound with ⟨contents, valid, keyed, represents⟩
  rcases put_bytes_simulates represents valid chainId (encodeBlock wire.rust block) below with
    ⟨again, storedAgain, after⟩
  cases stored.symm.trans storedAgain
  have whole : Represents updated
      (contents.putAll [⟨chainId, block.number, encodeBlock wire.rust block⟩]) := after
  refine effect_of_writes intact valid keyed represents ?_ ?_ whole (Set.subset_insert _ _)
    (subset_refl _) ?_
  · simpa using below
  · intro write member own read
    rw [List.mem_singleton.mp member, wire.encoded] at read
    rw [List.mem_singleton.mp member]
    exact (Option.some.inj read).symm
  · intro write member
    exact .inl (List.mem_singleton.mp member)

theorem sound_of_same_places {chainId : UInt64} {updated : KvDb}
    (others : ∀ key, (∀ number, key ≠ makeBlockKey chainId number) →
      updated[key]? = history.db[key]?)
    (present : ∀ other number, (getBytes updated other number).isSome =
      (getBytes history.db other number).isSome) : Sound updated := by
  rcases intact.sound with ⟨contents, valid, keyed, represents⟩
  have numbers : ∀ other, ({ contents with blocks := getBytes updated } : Contents).numbers other =
      contents.numbers other := by
    intro other
    ext number
    simp only [Contents.numbers, Set.mem_ofPred_eq, present, represents.blocks]
  have rangesKept : ∀ other, updated[makeBlockRangesKey other]? =
      history.db[makeBlockRangesKey other]? := fun other =>
    others _ (fun number => chain_key_ne_block_key other chainId number 0x00)
  have chainIdsKept := others _ (chain_ids_key_ne_block_key chainId)
  refine ⟨{ contents with blocks := getBytes updated }, ⟨?_, ?_, ?_⟩, keyed, ?_⟩
  · intro other
    rw [numbers]
    exact valid.bounded other
  · intro other number member
    rw [numbers] at member
    exact valid.tracked other number member
  · intro other hasData
    rw [Contents.HasData, numbers] at hasData
    exact valid.listed other hasData
  · constructor
    · exact fun other number => rfl
    · intro other tracked
      rw [rangesKept, numbers]
      exact represents.ranges other tracked
    · intro other untracked
      rw [rangesKept]
      exact represents.untracked other untracked
    · rw [chainIdsKept]
      exact represents.chainIds
    · rw [chainIdsKept]
      exact represents.unlisted
    · intro key unmanaged
      rw [others key fun number same => unmanaged (.inr (.inr ⟨chainId, number, same⟩))]
      exact represents.other key unmanaged

theorem framed_effect {chainId : UInt64} {schema : Nat}
    {policy : Checks.OverwriteStateRootPolicy} {calls : List CheckCall} {updated : KvDb}
    (framed : Framed wire.go chainId schema policy history.db calls updated) :
    Effect wire history { history with db := updated } := by
  have blocks := framed_blocks framed
  have present : ∀ other number, (getBytes updated other number).isSome =
      (getBytes history.db other number).isSome := by
    intro other number
    rcases blocks other number with same | ⟨stored, data, found, foundAgain, -⟩
    · rw [same]
    · rw [found, foundAgain]
      rfl
  have version : updated[versionKey]? = history.db[versionKey]? :=
    framed.others versionKey (version_key_ne_block_key chainId)
  have sound := sound_of_same_places intact framed.others present
  refine effect_of_origin intact version sound (subset_refl _) (subset_refl _) ?_ ?_
  · intro other number data found
    rcases blocks other number with same | ⟨stored, changed, before, after, rewritten⟩
    · rw [same] at found
      exact .inl found
    · cases after.symm.trans found
      exact .inr (.inr ⟨stored, before, rewritten⟩)
  · intro other number stored _
    rw [present]
    exact stored

theorem replays_effect {State Progress : Type} {setup : Setup State Progress}
    (codec : setup.codec = wire.go) {chainId : UInt64} {schema : Nat}
    (info : setup.chain.info = chainInfo chainId schema) (applySide : ApplySide State)
    (progress : Progress) (context : Checks.ReplayLoopContext) {first last : UInt64}
    {turns : List Turn}
    (read : turns.map Turn.next = GoBlockDb.getRange setup.codec history.db chainId first last)
    {updated : KvDb}
    (leaves : ReplayLeaves setup applySide ⟨⟨history.db, context⟩, progress, []⟩ turns updated) :
    Effect wire history { history with db := updated } := by
  have numbered : ∀ number data message,
      history.db[GoBlockDb.makeBlockKey chainId number]? = some data →
      setup.codec.unmarshal data = .ok message → message.number = number := by
    intro number data message found read
    rw [codec] at read
    exact intact.numbered chainId number data found _ (wire.unmarshaled data message read)
  have stored : ∀ turn ∈ turns, ∀ block, turn.next = .ok block →
      GoBlockDb.get setup.codec history.db chainId block.number = .ok (some block) := by
    intro turn member block next
    have inRange : .ok block ∈ GoBlockDb.getRange setup.codec history.db chainId first last := by
      rw [← read, ← next]
      exact List.mem_map_of_mem member
    exact (HashHistory.mem_get_range numbered inRange).2.2
  have lossless : ∀ block data, setup.codec.marshal block = .ok data →
      setup.codec.unmarshal data = .ok block := by
    rw [codec]
    exact wire.lossless
  have inFrame := @replay_in_frame State Progress setup chainId schema context history.db lossless
    info turns stored applySide progress
  rw [codec] at inFrame
  cases leaves with
  | loop => exact framed_effect intact inFrame.1.framed
  | pipeline reached => exact framed_effect intact (inFrame.2 _ _ _ reached).framed

end Steps

section Runs

variable {wire : Wire}

theorem step_effect {before after : History} (intact : Intact wire before.db)
    (step : Step wire before after) : Effect wire before after := by
  cases step with
  | imports _ env codec register items chainId verify isCancelled below =>
      exact imports_effect intact codec register chainId verify isCancelled below
  | fetches _ server chainId fromBlock toBlock below honest =>
      exact fetches_effect intact below honest
  | purges _ console chainId fromBlock toBlock =>
      exact purges_effect intact console chainId fromBlock toBlock
  | storesMetadata _ chainId data stored =>
      rcases stored with rules | corrections | bundles
      · exact metadata_effect intact chainId (by decide) rules
      · exact metadata_effect intact chainId (by decide) corrections
      · exact metadata_effect intact chainId (by decide) bundles
  | syncs _ chainId block below stored => exact syncs_effect intact below stored
  | replays _ setup codec chainId schema info applySide progress context first last turns read
      leaves => exact replays_effect intact codec info applySide progress context read leaves
  | commitsRules _ chainId data present =>
      exact metadata_effect intact chainId (by decide) (commits_rules_as_rust intact data present)

/-- Any number of replays have put roots into the message. -/
abbrev Descends (wire : Wire) : Bytes → Bytes → Prop := Relation.ReflTransGen (RootRewritten wire)

structure Kept (wire : Wire) (start final : History) : Prop where
  intact : Intact wire final.db
  given : start.given ⊆ final.given
  cleared : start.cleared ⊆ final.cleared
  origin : ∀ chainId number data, getBytes final.db chainId number = some data →
    ∃ source, Descends wire source data ∧
      (getBytes start.db chainId number = some source ∨
        ⟨chainId, number, source⟩ ∈ final.given)
  kept : ∀ chainId number, (getBytes start.db chainId number).isSome →
    (chainId, number) ∉ final.cleared → (getBytes final.db chainId number).isSome

theorem kept_refl {start : History} (intact : Intact wire start.db) : Kept wire start start where
  intact := intact
  given := subset_refl _
  cleared := subset_refl _
  origin _ _ data present := ⟨data, .refl, .inl present⟩
  kept _ _ present _ := present

theorem kept_step {start before after : History} (kept : Kept wire start before)
    (effect : Effect wire before after) : Kept wire start after := by
  constructor
  · exact effect.intact
  · exact kept.given.trans effect.given
  · exact kept.cleared.trans effect.cleared
  · intro chainId number data present
    rcases effect.origin chainId number data present with same | new | ⟨stored, found, rewritten⟩
    · rcases kept.origin chainId number data same with ⟨source, descends, first | earlier⟩
      · exact ⟨source, descends, .inl first⟩
      · exact ⟨source, descends, .inr (effect.given earlier)⟩
    · exact ⟨data, .refl, .inr new⟩
    · rcases kept.origin chainId number stored found with ⟨source, descends, first | earlier⟩
      · exact ⟨source, descends.tail rewritten, .inl first⟩
      · exact ⟨source, descends.tail rewritten, .inr (effect.given earlier)⟩
  · intro chainId number present spared
    apply effect.kept chainId number _ spared
    exact kept.kept chainId number present fun member => spared (effect.cleared member)

theorem run_kept {start final : History} (intact : Intact wire start.db)
    (run : Run wire start final) : Kept wire start final := by
  induction run with
  | refl => exact kept_refl intact
  | tail earlier step ih => exact kept_step ih (step_effect ih.intact step)

end Runs

theorem sync_run_is_run {wire : Wire} {sources : UInt64 → BlockSubscription.Source}
    {before after : LiveSync.SyncState} (run : LiveSync.SyncRun wire.rust sources before after)
    (below : ∀ state, LiveSync.SyncRun wire.rust sources before state →
      ∀ chainId, getBytes state.db chainId maxBlockNumber = none)
    (given : Set BlockWrite) (cleared : Set (UInt64 × UInt64)) :
    ∃ received, Run wire ⟨before.db, given, cleared⟩ ⟨after.db, received, cleared⟩ := by
  induction run with
  | refl => exact ⟨given, .refl⟩
  | tail earlier step ih =>
      rcases ih with ⟨received, reached⟩
      have nothingAtTop := below _ (earlier.tail step)
      cases step with
      | @stores chainId _ _ _ _ phase found polled stored =>
          refine ⟨_, reached.tail (.syncs _ _ _ ?_ stored)⟩
          apply lt_of_le_of_ne
          · rw [UInt64.le_iff_toNat_le]
            exact Nat.le_of_lt_succ (UInt64.toNat_lt _)
          · intro top
            have absent := nothingAtTop chainId
            rw [← top] at absent
            have present := (get_bytes_put_bytes stored chainId _).trans (if_pos ⟨rfl, rfl⟩)
            cases absent.symm.trans present
      | _ => exact ⟨received, reached⟩

theorem list_chains {db : KvDb} (consistent : MetadataConsistent db) (ids : List UInt64) :
    ∃ listings, ids.mapM (RpcServer.chainListing db) = .ok listings ∧
      listings.map RpcServer.ChainListing.chainId = ids ∧
      ∀ listing ∈ listings, Canonical listing.blockRanges ∧ denote listing.blockRanges =
        {number | (getBytes db listing.chainId number).isSome} := by
  induction ids with
  | nil => exact ⟨[], rfl, rfl, by simp⟩
  | cons chainId rest ih =>
      rcases ih with ⟨listings, listed, names, exact_⟩
      rcases consistent.ranges chainId with ⟨ranges, read, canonical, denotes⟩
      refine ⟨⟨chainId, ranges, (getRulesUpdateHeights db chainId).isSome,
        (getCorrections db chainId).isSome⟩ :: listings, ?_, ?_, ?_⟩
      · rw [List.mapM_cons, listed]
        simp only [RpcServer.chainListing, read, bind, Except.bind, pure, Except.pure]
      · rw [List.map_cons, names]
      · intro listing member
        rcases List.mem_cons.mp member with own | later
        · rw [own]
          exact ⟨canonical, denotes⟩
        · exact exact_ listing later

/-- After any run of commands, however each of them ended, the database opens, the list names
every chain that has anything, with exactly its stored numbers, and each requested range is
served without an error. -/
theorem command_runs_serve {wire : Wire} {start final : History}
    (intact : Intact wire start.db) (run : Run wire start final) :
    openExisting final.db = .ok final.db ∧
      (∃ listings, RpcServer.list final.db none = .ok listings ∧
        (listings.map RpcServer.ChainListing.chainId).Pairwise (· < ·) ∧
        (∀ chainId, HasData final.db chainId →
          ∃ listing ∈ listings, listing.chainId = chainId) ∧
        ∀ listing ∈ listings, Canonical listing.blockRanges ∧ denote listing.blockRanges =
          {number | (getBytes final.db listing.chainId number).isSome}) ∧
      ∀ chainId first last, first ≤ last → ∃ blocks : List EncodedBlock,
        RpcServer.getBlockRange final.db ⟨chainId, first, last⟩ = .ok (blocks.map .ok) ∧
          blocks.Pairwise (fun earlier later => earlier.number < later.number) ∧
          ∀ block, block ∈ blocks ↔ getBytes final.db chainId block.number = some block.data ∧
            first ≤ block.number ∧ block.number ≤ last := by
  have finalIntact := (run_kept intact run).intact
  have consistent := sound_consistent finalIntact.sound
  refine ⟨?_, ?_, fun chainId first last ordered =>
    RpcServer.get_block_range_exact finalIntact.sound chainId ordered⟩
  · unfold openExisting
    rw [finalIntact.version]
    rfl
  · rcases consistent.chainIds with ⟨ids, idsRead, sorted, named⟩
    rcases list_chains consistent ids with ⟨listings, listed, names, exact_⟩
    refine ⟨listings, ?_, ?_, ?_, exact_⟩
    · simp only [RpcServer.list, idsRead, bind, Except.bind]
      rw [listed]
    · rw [names]
      exact sorted
    · intro chainId hasData
      have member := named chainId hasData
      rw [← names] at member
      exact List.mem_map.mp member

def decodePlain (data : Bytes) : Except String ProtoBlock.Block :=
  if data.length = 8 then .ok (.fromTypes (LiveSync.plainBlock (fromBeBytes data)))
  else .error "unexpected EOF"

def encodePlain (message : ProtoBlock.Block) : Except String Bytes :=
  if message = .fromTypes (LiveSync.plainBlock message.number) then .ok (toBeBytes message.number)
  else .error "unexpected field"

theorem decode_plain_ok {data : Bytes} {message : ProtoBlock.Block} :
    decodePlain data = .ok message ↔
      data.length = 8 ∧ .fromTypes (LiveSync.plainBlock (fromBeBytes data)) = message := by
  unfold decodePlain
  split_ifs with sized
  · simp [sized]
  · simp [sized]

def plainWire : Wire where
  rust := ⟨fun message => toBeBytes message.number, decodePlain⟩
  go := ⟨encodePlain, decodePlain⟩
  numberOf data := if data.length = 8 then some (fromBeBytes data) else none
  encoded block := by
    rw [encodeBlock, to_be_bytes_length, if_pos rfl, from_be_to_be_bytes]
    rfl
  decoded data block decodes := by
    unfold decodeBlock at decodes
    dsimp only at decodes
    cases read : decodePlain data with
    | error failure =>
        rw [read] at decodes
        cases decodes
    | ok message =>
        rw [read] at decodes
        rcases decode_plain_ok.mp read with ⟨sized, same⟩
        change message.tryIntoTypes = .ok block at decodes
        rw [← same, ProtoBlock.block_inverts.decode_encode] at decodes
        cases decodes
        exact if_pos sized
  unmarshaled data message read := by
    rcases decode_plain_ok.mp read with ⟨sized, same⟩
    rw [if_pos sized, ← same]
    rfl
  lossless message data written := by
    change encodePlain message = .ok data at written
    unfold encodePlain at written
    split_ifs at written with plain
    cases written
    change decodePlain (toBeBytes message.number) = .ok message
    rw [decode_plain_ok, to_be_bytes_length, from_be_to_be_bytes]
    exact ⟨rfl, plain.symm⟩

theorem synced_chain_run : ∃ final : History, Run plainWire ⟨freshDb, ∅, ∅⟩ final ∧
    final.cleared = ∅ ∧ (getBytes final.db 7 5).isSome ∧
    Intact plainWire freshDb := by
  have fresh : Intact plainWire freshDb := by
    refine ⟨?_, create_sound create_empty, ?_⟩
    · rw [freshDb, get_put, if_pos rfl]
    · intro chainId number data present
      simp [getBytes, freshDb, get_put] at present
  rcases single_block 7 (encodeBlock plainWire.rust (LiveSync.plainBlock 5))
    (show 5 < maxBlockNumber by decide) with ⟨db, stored, sound, found, -⟩
  have present : ∃ number, (getBytes db 7 number).isSome := by
    refine ⟨5, ?_⟩
    rw [found]
    rfl
  refine ⟨_, Relation.ReflTransGen.refl.tail (.syncs _ 7 (LiveSync.plainBlock 5) (by decide) stored)
    |>.tail (.commitsRules _ 7 [0x5b, 0x5d] present), rfl, ?_, fresh⟩
  have kept : getBytes (GoBlockDb.putRulesUpdateHeights db 7 [0x5b, 0x5d]) 7 5 =
      getBytes db 7 5 := by
    rw [getBytes, GoBlockDb.putRulesUpdateHeights, get_put, if_neg]
    · rfl
    · exact chain_key_ne_block_key 7 7 5 0x01
  rw [kept, found]
  rfl

theorem command_runs_serve_synced_chain : ∃ final : History,
    Run plainWire ⟨freshDb, ∅, ∅⟩ final ∧ openExisting final.db = .ok final.db ∧
      (getBytes final.db 7 5).isSome := by
  rcases synced_chain_run with ⟨final, run, -, present, fresh⟩
  exact ⟨final, run, (command_runs_serve fresh run).1, present⟩

/-- No command invents or loses a block: what is stored after a run was stored before or
given to one of the commands under the same number, up to state roots that replays put in, and
what was stored before still is, unless a confirmed purge was told to clear its place. -/
theorem command_runs_keep_blocks {wire : Wire} {start final : History}
    (intact : Intact wire start.db) (run : Run wire start final) (chainId number : UInt64) :
    (∀ data, getBytes final.db chainId number = some data →
      (∀ own, wire.numberOf data = some own → own = number) ∧
        ∃ source, Descends wire source data ∧
          (getBytes start.db chainId number = some source ∨
            ⟨chainId, number, source⟩ ∈ final.given)) ∧
      ((getBytes start.db chainId number).isSome → (chainId, number) ∉ final.cleared →
        (getBytes final.db chainId number).isSome) := by
  have kept := run_kept intact run
  constructor
  · intro data present
    exact ⟨kept.intact.numbered chainId number data present,
      kept.origin chainId number data present⟩
  · exact kept.kept chainId number

/-- The synchronised block is the one that was given. -/
theorem command_runs_keep_synced_chain : ∃ final : History,
    Run plainWire ⟨freshDb, ∅, ∅⟩ final ∧ ∃ data source, getBytes final.db 7 5 = some data ∧
      Descends plainWire source data ∧ ⟨7, 5, source⟩ ∈ final.given := by
  rcases synced_chain_run with ⟨final, run, -, present, fresh⟩
  rcases Option.isSome_iff_exists.mp present with ⟨data, found⟩
  rcases (command_runs_keep_blocks fresh run 7 5).1 data found with ⟨-, source, descends, origin⟩
  have absent : getBytes freshDb 7 5 = none := by
    simp [getBytes, freshDb, get_put]
  rw [absent] at origin
  exact ⟨final, run, data, source, found, descends, origin.resolve_left (by simp)⟩

end Bertha.CommandRuns
