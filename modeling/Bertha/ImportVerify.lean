import Bertha.ImportExact

/-!
# Verified import links the chain

With verification each block's hash is compared with the parent hash of the block read
before it, which has the next number; at the junction the block in the database takes the
place of the file's. A verified import that succeeds has therefore checked every link from
the first imported block up, including the one to the last block that was stored before.
-/

namespace Bertha.ImportVerify

open Bertha.BigEndian Bertha.BlockDb Bertha.BlockDbContents Bertha.BlockDbInvariant
open Bertha.BlockKeys Bertha.BlockRanges Bertha.Headers Bertha.Import Bertha.ImportExact
open Bertha.IntervalList Bertha.OrderedStore
open Bertha.BlockTypes (Error Block Hash FixedBytes)

set_option autoImplicit false

/-- Every block from here on is accepted, up to the first that is stored already. -/
def Links (env : Environment) (base : Contents) (chainId smallest : UInt64) :
    Option Hash → List Block → Prop
  | _, [] => True
  | prevParentHash, block :: rest =>
      Accepted env base chainId smallest prevParentHash block ∧
        (smallest ≤ block.number →
          Links env base chainId smallest (some block.parentHash) rest)

section Loop

variable {Failure : Type} {env : Environment} {base : Contents} {chainId smallest : UInt64}
  {isCancelled : Nat → Bool} {poll : Nat} {state : ImportState}
  {flushed pending : List BlockWrite} {blocks : List Block}

theorem import_loop_links {items : List (Except Failure Block)} (valid : base.Valid)
    (keyed : KeyedBelow env.codec base chainId smallest)
    (staged : Staged base smallest state flushed pending) (read : ReadOf blocks items)
    (below : ∀ block ∈ blocks, block.number < maxBlockNumber)
    (lengths : items.length = blocks.length)
    (accepted :
      (importLoop env chainId smallest true isCancelled poll state items).result = .ok ())
    (running :
      (importLoop env chainId smallest true isCancelled poll state items).cancelled = false) :
    Links env base chainId smallest state.prevParentHash blocks := by
  induction items generalizing poll state flushed pending blocks with
  | nil =>
      rw [List.length_eq_zero_iff.mp lengths.symm]
      trivial
  | cons item items ih =>
      cases cancelled : isCancelled poll with
      | true =>
          obtain ⟨db, finished, -⟩ :=
            staged_finish Failure env valid staged true
          rw [importLoop.eq_def] at running
          simp [cancelled, finished] at running
      | false =>
          cases item with
          | error failure => simp [importLoop, cancelled] at accepted
          | ok block =>
              obtain ⟨rest, rfl, restRead⟩ := read_of_cons read
              rcases import_loop_step env chainId true isCancelled poll valid staged
                  (fun _ => keyed) cancelled (below block (by simp)) items with
                ⟨-, -, failure, rejected⟩ | ⟨low, checked, -⟩ |
                ⟨high, checked, next, _, _, linked, nextStaged, -, continued⟩
              · rw [rejected] at accepted
                cases accepted
              · exact ⟨checked rfl, fun high => absurd low high.not_gt⟩
              · rw [continued] at accepted running
                have later := ih nextStaged restRead
                  (fun later member => below later (by simp [member])) (by simpa using lengths)
                  accepted running
                rw [linked rfl] at later
                exact ⟨checked rfl, fun _ => later⟩

theorem import_loop_accepts (Failure : Type) (poll : Nat) (valid : base.Valid)
    (keyed : KeyedBelow env.codec base chainId smallest)
    (staged : Staged base smallest state flushed pending)
    (below : ∀ block ∈ blocks, block.number < maxBlockNumber)
    (links : Links env base chainId smallest state.prevParentHash blocks) :
    ∃ db, (importLoop env chainId smallest true (fun _ => false) poll state
      (blocks.map .ok) : Outcome Failure) = ⟨db, false, .ok ()⟩ :=
  import_loop_completes valid (fun _ => keyed) staged below (Links env base chainId smallest)
    (fun _ _ _ links => links) fun _ => links

end Loop

section Reading

variable {env : Environment} {base : Contents} {chainId smallest : UInt64}

theorem links_parent {blocks : List Block} {prevParentHash : Option Hash}
    (descending : blocks.Pairwise fun earlier later => later.number < earlier.number)
    (links : Links env base chainId smallest prevParentHash blocks) {index : Nat}
    {block parent : Block} (read : blocks[index]? = some block)
    (parentRead : blocks[index + 1]? = some parent) (atLeast : smallest ≤ block.number) :
    (smallest ≤ parent.number → block.parentHash = blockHash env parent) ∧
      (parent.number < smallest → ∃ stored data,
        base.blocks chainId parent.number = some data ∧
        decodeBlock env.codec data = .ok stored ∧ block.parentHash = blockHash env stored) := by
  induction blocks generalizing prevParentHash index with
  | nil => simp at read
  | cons head tail ih =>
      obtain ⟨headAbove, tailDescending⟩ := List.pairwise_cons.mp descending
      rw [List.getElem?_cons_succ] at parentRead
      cases index with
      | zero =>
          simp only [List.getElem?_cons_zero, Option.some.injEq] at read
          subst read
          cases tail with
          | nil => simp at parentRead
          | cons next rest =>
              simp only [List.getElem?_cons_zero, Option.some.injEq] at parentRead
              subst parentRead
              obtain ⟨inFile, inStore⟩ := (links.2 atLeast).1
              refine ⟨fun high => ((inFile high).1 _ rfl).symm, fun low => ?_⟩
              obtain ⟨stored, data, found, decoded, checked⟩ := inStore low
              exact ⟨stored, data, found, decoded, (checked.1 _ rfl).symm⟩
      | succ index =>
          rw [List.getElem?_cons_succ] at read
          have headHigh : smallest ≤ head.number :=
            atLeast.trans (headAbove block (List.mem_of_getElem? read)).le
          exact ih tailDescending (links.2 headHigh) read parentRead

theorem links_zero {blocks : List Block} {prevParentHash : Option Hash}
    (descending : blocks.Pairwise fun earlier later => later.number < earlier.number)
    (links : Links env base chainId smallest prevParentHash blocks) {block : Block}
    (member : block ∈ blocks) (atLeast : smallest ≤ block.number) (zero : block.number = 0) :
    block.parentHash = FixedBytes.zero 32 := by
  induction blocks generalizing prevParentHash with
  | nil => simp at member
  | cons head tail ih =>
      obtain ⟨headAbove, tailDescending⟩ := List.pairwise_cons.mp descending
      rcases List.mem_cons.mp member with rfl | later
      · exact (links.1.1 atLeast).2 zero
      · have headHigh := atLeast.trans (headAbove block later).le
        exact ih tailDescending (links.2 headHigh) later

end Reading

section Imported

variable {env : Environment} {contents : Contents} {final : KvDb}
  {chainId smallest total : UInt64} {blocks : List Block} (numbered : Numbered total blocks)
  (after : Represents final (contents.putAll (importWrites env chainId smallest blocks)))

include numbered after

theorem imported_get {block : Block} (member : block ∈ blocks)
    (atLeast : smallest ≤ block.number) (lossless : DecodesBack env.codec block) :
    get env.codec final chainId block.number = .ok (some block) := by
  refine get_eq_some.mpr ⟨_, ?_, decode_encode_block lossless⟩
  rw [after.blocks, Contents.put_all_blocks, import_writes_last numbered member atLeast]
  rfl

theorem imported_below {number : UInt64} (below : number < smallest) :
    getBytes final chainId number = contents.blocks chainId number := by
  rw [after.blocks, Contents.put_all_blocks]
  cases found : Contents.lastWrite (importWrites env chainId smallest blocks) chainId number with
  | none => rfl
  | some data =>
      obtain ⟨-, atLeast, -⟩ := import_writes_mem numbered (Contents.last_write_mem found)
      exact absurd below (not_lt.mpr atLeast)

end Imported

theorem import_blocks_links {Failure : Type} {env : Environment} {db : KvDb}
    {contents : Contents} {chainId total : UInt64} {blocks : List Block}
    {ranges : List BlockRange} {register : Except String Unit} {isCancelled : Nat → Bool}
    (valid : contents.Valid) (represents : Represents db contents)
    (rangesRead : getRangesOfChainId db chainId = .ok ranges) (numbered : Numbered total blocks)
    (keyed : KeyedBelow env.codec contents chainId (smallestImportBlockNumber ranges))
    (missing : smallestImportBlockNumber ranges < total) {final : KvDb}
    (imported : (importBlocks env register db (blocks.map .ok) chainId true isCancelled :
      Outcome Failure) = ⟨final, false, .ok ()⟩) :
    Links env contents chainId (smallestImportBlockNumber ranges) none blocks := by
  have read := read_of_map_ok Failure blocks
  rcases import_blocks_cases env register
      (blocks.map (.ok : Block → Except Failure Block)) true isCancelled
      rangesRead with ⟨-, failure, failed⟩ | ⟨-, nothing⟩ | ⟨-, looped⟩
  · cases failed.symm.trans imported
  · rcases nothing with empty | ⟨block, rest, items, low⟩
    · have noBlocks : total.toNat = 0 := by
        rw [← numbered.1, List.map_eq_nil_iff.mp empty, List.length_nil]
      have missingNat := UInt64.lt_iff_toNat_lt.mp missing
      omega
    · rw [numbered_first numbered (read 0 block (by rw [items]; rfl))] at low
      exact absurd missing (not_lt.mpr low)
  · rw [looped] at imported
    exact import_loop_links valid keyed (staged_start represents _ none) read
      (fun block member => numbered_bounded numbered member) (by simp)
      (congrArg Outcome.result imported) (congrArg Outcome.cancelled imported)

/-- Let `smallest` be the first missing number. When a verified import with something to do
succeeds without being cancelled, every imported block names the hash of the stored block
before it as its parent, also where the import meets the blocks stored earlier; an imported
block zero has the zero parent hash. -/
theorem verified_import_links_chain {Failure : Type} {env : Environment}
    {register : Except String Unit} {db final : KvDb} (consistent : MetadataConsistent db)
    {chainId : UInt64} {ranges : List BlockRange}
    (rangesRead : getRangesOfChainId db chainId = .ok ranges)
    (decodable : ∀ number data, getBytes db chainId number = some data →
      ∃ block, decodeBlock env.codec data = .ok block ∧ block.number = number)
    {total : UInt64} {blocks : List Block} (numbered : Numbered total blocks)
    (lossless : ∀ block ∈ blocks, DecodesBack env.codec block) {isCancelled : Nat → Bool}
    (missing : smallestImportBlockNumber ranges < total)
    (imported : (importBlocks env register db (blocks.map .ok) chainId true isCancelled :
      Outcome Failure) = ⟨final, false, .ok ()⟩) :
    (∀ number, smallestImportBlockNumber ranges ≤ number → 1 ≤ number → number < total →
      ∃ block parent, get env.codec final chainId number = .ok (some block) ∧
        get env.codec final chainId (number - 1) = .ok (some parent) ∧
        block.parentHash = blockHash env parent) ∧
      (smallestImportBlockNumber ranges = 0 → ∃ block,
        get env.codec final chainId 0 = .ok (some block) ∧
        block.parentHash = FixedBytes.zero 32) := by
  obtain ⟨contents, valid, represents⟩ := metadata_consistent_iff.mp consistent
  have keyed : KeyedBelow env.codec contents chainId (smallestImportBlockNumber ranges) := by
    intro number _ data block found decoded
    obtain ⟨stored, storedDecoded, sameNumber⟩ :=
      decodable number data ((represents.blocks chainId number).trans found)
    cases decoded.symm.trans storedDecoded
    exact sameNumber
  have after : Represents final
      (contents.putAll (importWrites env chainId (smallestImportBlockNumber ranges) blocks)) := by
    obtain ⟨written, -, after, whole⟩ := import_blocks_writes valid represents rangesRead
      (fun block member => numbered_bounded numbered member) env true (fun _ => keyed)
      (read_of_map_ok Failure blocks) register isCancelled
    rw [imported] at after whole
    rwa [whole rfl rfl (by simp)] at after
  have links := import_blocks_links valid represents rangesRead numbered keyed missing imported
  have descending := numbered_descending numbered
  refine ⟨fun number atLeast positive inFile => ?_, fun fromZero => ?_⟩
  · obtain ⟨index, block, blockRead, rfl⟩ := numbered_find numbered inFile
    obtain ⟨parent, parentRead, parentNumber⟩ := numbered_next numbered blockRead positive
    have member := List.mem_of_getElem? blockRead
    have parentMember := List.mem_of_getElem? parentRead
    have linked := links_parent descending links blockRead parentRead atLeast
    have found := imported_get numbered after member atLeast (lossless block member)
    rw [← parentNumber]
    rcases lt_or_ge parent.number (smallestImportBlockNumber ranges) with low | high
    · obtain ⟨stored, data, dataRead, decoded, same⟩ := linked.2 low
      refine ⟨block, stored, found, get_eq_some.mpr ⟨data, ?_, decoded⟩, same⟩
      rw [imported_below numbered after low, dataRead]
    · exact ⟨block, parent, found,
        imported_get numbered after parentMember high (lossless parent parentMember),
        linked.1 high⟩
  · rw [fromZero] at missing
    obtain ⟨index, block, blockRead, zero⟩ := numbered_find numbered missing
    have member := List.mem_of_getElem? blockRead
    have atLeast : smallestImportBlockNumber ranges ≤ block.number := by
      rw [fromZero]
      exact UInt64.zero_le
    have found := imported_get numbered after member atLeast (lossless block member)
    rw [zero] at found
    exact ⟨block, found, links_zero descending links member atLeast zero⟩

/-- A block is imported on top of a stored block zero. -/
theorem verified_import_links_chain_junction :
    let root : Hash := ⟨List.replicate 32 0x11, rfl⟩
    let genesis : Block := { stateRoot := root }
    let child : Block := { number := 1, parentHash := root }
    let env := headerEnvironment [child, genesis]
    ∃ db final, put env.codec freshDb 250 genesis = .ok db ∧
      (importBlocks env (.ok ()) db [.ok child, .ok genesis] 250 true (fun _ => false) :
        Outcome String) = ⟨final, false, .ok ()⟩ ∧
      ∃ block parent, get env.codec final 250 1 = .ok (some block) ∧
        get env.codec final 250 0 = .ok (some parent) ∧
        block.parentHash = blockHash env parent := by
  intro root genesis child env
  have lossless : ∀ block ∈ [child, genesis], DecodesBack env.codec block := by
    intro block member
    apply header_codec_decodes_back
    rcases List.mem_pair.mp member with rfl | rfl <;> decide +kernel
  obtain ⟨db, stored, reachable, found⟩ := put_bytes_reachable (fresh_reachable env.codec) 250
    0 (encodeBlock env.codec genesis) (by decide)
  have consistent := reachable_metadata_consistent reachable
  have rangesRead : getRangesOfChainId db 250 = .ok [⟨0, 0⟩] :=
    get_ranges_put_bytes stored (fresh_get_ranges 250)
  have decoded := decode_encode_block (lossless genesis (by simp))
  have decodable : ∀ number data, getBytes db 250 number = some data →
      ∃ block, decodeBlock env.codec data = .ok block ∧ block.number = number := by
    intro number data read
    rw [get_bytes_put_bytes stored] at read
    split_ifs at read with same
    · cases read
      exact ⟨genesis, decoded, same.2⟩
    · simp [getBytes, freshDb, get_put] at read
  have numbered : Numbered 2 [child, genesis] := by
    refine ⟨rfl, fun index block read => ?_⟩
    rcases index with _ | _ | index
    · cases read
      rfl
    · cases read
      rfl
    · cases read
  obtain ⟨contents, valid, represents⟩ := metadata_consistent_iff.mp consistent
  have holds : contents.blocks 250 0 = some (encodeBlock env.codec genesis) :=
    (represents.blocks 250 0).symm.trans found
  have links : Links env contents 250 1 none [child, genesis] := by
    refine ⟨⟨fun _ => ⟨by simp, fun wrong => by cases wrong⟩, fun low => absurd low (by decide)⟩,
      fun _ => ⟨⟨fun high => absurd high (by decide), fun _ => ?_⟩, fun _ => trivial⟩⟩
    refine ⟨genesis, _, holds, decoded, ?_, fun _ => rfl⟩
    intro parentHash known
    cases known
    rfl
  have keyed : KeyedBelow env.codec contents 250 1 := by
    intro number _ data block read decodes
    obtain ⟨same, sameDecodes, sameNumber⟩ :=
      decodable number data ((represents.blocks 250 number).trans read)
    cases decodes.symm.trans sameDecodes
    exact sameNumber
  obtain ⟨final, looped⟩ := import_loop_accepts String 0 valid keyed
    (staged_start represents 1 none)
    (fun block member => numbered_bounded numbered member) links
  have imported : (importBlocks env (.ok ()) db [.ok child, .ok genesis] 250 true
      (fun _ => false) : Outcome String) = ⟨final, false, .ok ()⟩ := by
    simp only [importBlocks, List.head?_cons, rangesRead]
    rw [if_neg (by decide)]
    exact looped
  exact ⟨db, final, stored, imported, (verified_import_links_chain consistent rangesRead decodable
    numbered lossless (by decide) imported).1 1 (by decide) (by decide) (by decide)⟩

end Bertha.ImportVerify
