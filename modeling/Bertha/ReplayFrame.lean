import Bertha.ReplayPipeline

/-!
# What a replay writes

The checks of a replay may write a block back as a whole, with the computed state root in
place of the stored one. Over whole runs, finished or aborted, in the loop and in the
pipeline, nothing else of the stored blocks changes: which blocks are rewritten depends on the
policy, and which field of them on the schema of the chain. The rules update heights, which
the chain may store while it applies blocks, are no blocks and are left out.
-/

namespace Bertha.ReplayFrame

open Bertha.ChainAdapter Bertha.Checks Bertha.Conversion Bertha.GethBlocks Bertha.GethConvert
open Bertha.GoBlockDb Bertha.HashHistory Bertha.OrderedStore Bertha.Pipeline Bertha.Replay Bertha.ReplayPipeline
open Bertha.BlockDb (KvDb)
open Bertha.BlockTypes (FixedBytes Hash)

set_option autoImplicit false

def chainInfo (chainID : UInt64) (schema : Nat) : ChainInfo := ⟨chainID, schema == 5, schema == 6⟩

/-- The state root that a block has for the schema, which is the zero hash if it has none. -/
def storedRoot (schema : Nat) (block : ProtoBlock.Block) : Hash :=
  if schema = 5 then bytesToFixed 32 block.stateRoot
  else if schema = 6 then bytesToFixed 32 (goBytes block.verkleStateRoot)
  else FixedBytes.zero 32

structure RootReplaced (schema : Nat) (before : ProtoBlock.Block) (root : Hash)
    (after : ProtoBlock.Block) : Prop where
  mpt : schema = 5 → after = { before with stateRoot := root.val }
  verkle : schema = 6 → after = { before with verkleStateRoot := some root.val }
  other : schema ≠ 5 → schema ≠ 6 → after = before

theorem RootReplaced.keeps {schema : Nat} {block rewritten : ProtoBlock.Block} {root : Hash}
    (replaced : RootReplaced schema block root rewritten) :
    rewritten.number = block.number ∧ rewritten.parentHash = block.parentHash := by
  by_cases mpt : schema = 5
  · rw [replaced.mpt mpt]
    exact ⟨rfl, rfl⟩
  · by_cases verkle : schema = 6
    · rw [replaced.verkle verkle]
      exact ⟨rfl, rfl⟩
    · rw [replaced.other mpt verkle]
      exact ⟨rfl, rfl⟩

/-- The root that was computed for a block, which the checks have waited for. -/
def computedRoot : CheckCall → Option (ProtoBlock.Block × Hash)
  | .checkBlockResults block _ (.ok computedStateRoot) _ => some (block, computedStateRoot)
  | _ => none

def computedRoots (calls : List CheckCall) : List (ProtoBlock.Block × Hash) :=
  calls.filterMap computedRoot

/-- The stored block was replayed, the policy allows to replace its root, and now it has the
computed one. -/
def Rewritten (codec : GoCodec) (chainID : UInt64) (schema : Nat)
    (policy : OverwriteStateRootPolicy) (db : KvDb) (calls : List CheckCall) (blockDB : KvDb)
    (number : UInt64) : Prop :=
  ∃ block root rewritten, get codec db chainID number = .ok (some block) ∧
    (block, root) ∈ computedRoots calls ∧ policy ≠ .off ∧
    (policy = .uninitialized → storedRoot schema block = FixedBytes.zero 32) ∧
    RootReplaced schema block root rewritten ∧
    get codec blockDB chainID number = .ok (some rewritten)

/-- What has become of the database: each entry is as before, or a block of the chain whose
root has been replaced. -/
structure Framed (codec : GoCodec) (chainID : UInt64) (schema : Nat)
    (policy : OverwriteStateRootPolicy) (db : KvDb) (calls : List CheckCall) (blockDB : KvDb) :
    Prop where
  others : ∀ key, (∀ number, key ≠ makeBlockKey chainID number) → blockDB[key]? = db[key]?
  blocks : ∀ number,
    blockDB[makeBlockKey chainID number]? = db[makeBlockKey chainID number]? ∨
      Rewritten codec chainID schema policy db calls blockDB number

theorem stored_root_eq (chainID : UInt64) (schema : Nat) (block : ProtoBlock.Block) :
    getExpectedStateRoot (chainInfo chainID schema) block = storedRoot schema block := by
  unfold getExpectedStateRoot storedRoot chainInfo
  by_cases mpt : schema = 5
  · simp [mpt]
  · by_cases verkle : schema = 6
    · simp [verkle]
    · simp only [mpt, verkle, beq_iff_eq, if_false]
      rfl

theorem update_replaces_root (chainID : UInt64) (schema : Nat) (block : ProtoBlock.Block)
    (root : Hash) :
    RootReplaced schema block root (updateStateRoot (chainInfo chainID schema) block root) := by
  constructor
  · intro mpt
    simp [updateStateRoot, chainInfo, mpt]
  · intro verkle
    simp [updateStateRoot, chainInfo, verkle]
  · intro notMpt notVerkle
    simp [updateStateRoot, chainInfo, notMpt, notVerkle]

theorem writes_root_iff {policy : OverwriteStateRootPolicy} {expected : Hash} :
    policy.writesRoot expected = true ↔
      policy ≠ .off ∧ (policy = .uninitialized → expected = FixedBytes.zero 32) := by
  cases policy with
  | off => simp [OverwriteStateRootPolicy.writesRoot]
  | uninitialized => simp [OverwriteStateRootPolicy.writesRoot]
  | on => simp [OverwriteStateRootPolicy.writesRoot]

theorem get_update {codec : GoCodec}
    (lossless : ∀ block data, codec.marshal block = .ok data → codec.unmarshal data = .ok block)
    {db updated : KvDb} {chainID : UInt64} {block : ProtoBlock.Block}
    (stored : update codec db chainID block = .ok updated) :
    get codec updated chainID block.number = .ok (some block) ∧
      ∀ key, key ≠ makeBlockKey chainID block.number → updated[key]? = db[key]? := by
  obtain ⟨data, written, put⟩ := bind_eq_ok.mp stored
  cases put
  constructor
  · rw [GoBlockDb.get, get_put, if_pos rfl]
    simp only [Option.mapM_some, lossless block data written]
    rfl
  · intro key other
    rw [get_put, if_neg other.symm]

/-! ## One check -/

section Check

variable {geth : GethLibraries} {codec : GoCodec} {chain : ChainInfo}
variable {state next : CheckState} {block block' : ProtoBlock.Block} {receipts : List GethReceipt}
variable {stateRootFuture : StateRoot} {hashOfParentBlock : Hash} {outcome : Except Failure Unit}

theorem verify_context (computedStateRoot expectedStateRoot : Hash) :
    let after := (verifyStateRoot state block computedStateRoot expectedStateRoot).1.context
    after.overwriteStateRoot = state.context.overwriteStateRoot ∧
      after.skipStateRootCheck = state.context.skipStateRootCheck := by
  unfold verifyStateRoot
  split
  · exact ⟨rfl, rfl⟩
  · split
    · exact ⟨rfl, rfl⟩
    · split <;> exact ⟨rfl, rfl⟩

theorem check_state_root_context :
    let after := (checkStateRoot codec chain state block stateRootFuture).1.context
    after.overwriteStateRoot = state.context.overwriteStateRoot ∧
      after.skipStateRootCheck = state.context.skipStateRootCheck := by
  cases stateRootFuture with
  | error err => exact ⟨rfl, rfl⟩
  | ok computedStateRoot =>
      rw [check_state_root_eq]
      split
      · unfold overwriteAndPersistStateRoot
        dsimp only
        split <;> exact ⟨rfl, rfl⟩
      · exact verify_context _ _

theorem check_state_root_ok
    (checked : checkStateRoot codec chain state block stateRootFuture = (next, block', .ok ())) :
    ∃ root, stateRootFuture = .ok root ∧
      (state.context.overwriteStateRoot ≠ .on → state.context.skipStateRootCheck = false →
        getExpectedStateRoot chain block ≠ FixedBytes.zero 32 →
        root = getExpectedStateRoot chain block) := by
  cases stateRootFuture with
  | error err => cases checked
  | ok root =>
      refine ⟨root, rfl, ?_⟩
      intro notOn compared set
      have keeps : state.context.overwriteStateRoot.writesRoot
          (getExpectedStateRoot chain block) = false := by
        cases policy : state.context.overwriteStateRoot with
        | off => rfl
        | uninitialized => simpa [OverwriteStateRootPolicy.writesRoot] using set
        | on => exact absurd policy notOn
      rw [check_state_root_eq, keeps, if_neg Bool.false_ne_true, verifyStateRoot, compared,
        if_neg Bool.false_ne_true, if_neg set] at checked
      split at checked
      · cases checked
      · rename_i same
        exact not_not.mp same

/-- A check, passed or failed, leaves the database as it is or writes the block back with the
computed root. -/
theorem check_block_results_writes
    (checked : checkBlockResults geth codec chain state block receipts stateRootFuture
      hashOfParentBlock = (next, block', outcome)) :
    (next.context.overwriteStateRoot = state.context.overwriteStateRoot ∧
      next.context.skipStateRootCheck = state.context.skipStateRootCheck) ∧
    (next.blockDB = state.blockDB ∨
      ∃ root, stateRootFuture = .ok root ∧
        state.context.overwriteStateRoot.writesRoot (getExpectedStateRoot chain block) = true ∧
        update codec state.blockDB chain.chainID (updateStateRoot chain block root) =
          .ok next.blockDB) := by
  have context := @check_state_root_context codec chain state block stateRootFuture
  rcases rooted : checkStateRoot codec chain state block stateRootFuture with
    ⟨after, block'', rootOutcome⟩
  rw [rooted] at context
  obtain ⟨persisted, kept⟩ := check_state_root_block_db rooted
  unfold checkBlockResults at checked
  dsimp only at checked
  rw [rooted] at checked
  split at checked
  · cases checked
    exact ⟨⟨rfl, rfl⟩, Or.inl rfl⟩
  · cases rootOutcome with
    | error failure =>
        cases checked
        exact ⟨context, Or.inl (kept failure rfl)⟩
    | ok _ =>
        cases checked
        refine ⟨context, ?_⟩
        have written := persisted rfl
        unfold RootPersisted at written
        split at written
        · rename_i writes
          obtain ⟨root, computed, updated⟩ := written
          exact Or.inr ⟨root, computed, writes, updated⟩
        · exact Or.inl written

theorem check_block_results_ok
    (checked : checkBlockResults geth codec chain state block receipts stateRootFuture
      hashOfParentBlock = (next, block', .ok ())) :
    ∃ root, stateRootFuture = .ok root ∧
      (state.context.overwriteStateRoot ≠ .on → state.context.skipStateRootCheck = false →
        getExpectedStateRoot chain block ≠ FixedBytes.zero 32 →
        root = getExpectedStateRoot chain block) := by
  unfold checkBlockResults at checked
  dsimp only at checked
  split at checked
  · cases checked
  · split at checked
    · cases checked
    · rename_i rooted
      exact check_state_root_ok rooted

end Check

section Framing

variable {codec : GoCodec} {chainID : UInt64} {schema : Nat} {policy : OverwriteStateRootPolicy}
variable {db blockDB updated : KvDb} {calls more : List CheckCall} {number : UInt64}

theorem mem_computed_roots_append {pair : ProtoBlock.Block × Hash}
    (member : pair ∈ computedRoots calls) : pair ∈ computedRoots (calls ++ more) := by
  rw [computedRoots, List.filterMap_append]
  exact List.mem_append_left _ member

theorem Framed.start (calls : List CheckCall) :
    Framed codec chainID schema policy db calls db where
  others _ _ := rfl
  blocks _ := Or.inl rfl

theorem Framed.extend (framed : Framed codec chainID schema policy db calls blockDB)
    (more : List CheckCall) :
    Framed codec chainID schema policy db (calls ++ more) blockDB where
  others := framed.others
  blocks number := by
    rcases framed.blocks number with same | rewritten
    · exact Or.inl same
    · obtain ⟨block, root, after, stored, computed, rest⟩ := rewritten
      exact Or.inr ⟨block, root, after, stored, mem_computed_roots_append computed, rest⟩

theorem Framed.write
    (lossless : ∀ block data, codec.marshal block = .ok data → codec.unmarshal data = .ok block)
    (framed : Framed codec chainID schema policy db calls blockDB) {block : ProtoBlock.Block}
    {root : Hash} (stored : get codec db chainID block.number = .ok (some block))
    (computed : (block, root) ∈ computedRoots calls)
    (writes : policy.writesRoot (storedRoot schema block) = true)
    (written : update codec blockDB chainID
      (updateStateRoot (chainInfo chainID schema) block root) = .ok updated) :
    Framed codec chainID schema policy db calls updated := by
  obtain ⟨found, kept⟩ := get_update lossless written
  rw [(update_state_root_keeps _ _ _).1] at found kept
  obtain ⟨notOff, unset⟩ := writes_root_iff.mp writes
  constructor
  · intro key foreign
    rw [kept key (foreign block.number)]
    exact framed.others key foreign
  · intro number
    by_cases own : number = block.number
    · subst own
      exact Or.inr ⟨block, root, _, stored, computed, notOff, unset,
        update_replaces_root chainID schema block root, found⟩
    · have otherKey : makeBlockKey chainID number ≠ makeBlockKey chainID block.number :=
        fun same => own (BlockKeys.make_block_key_injective same).2
      rcases framed.blocks number with same | rewritten
      · exact Or.inl ((kept _ otherKey).trans same)
      · obtain ⟨before, root', after, rest, computed', notOff', unset', replaced, present⟩ :=
          rewritten
        refine Or.inr ⟨before, root', after, rest, computed', notOff', unset', replaced, ?_⟩
        rw [GoBlockDb.get, kept _ otherKey]
        exact present

end Framing

/-! ## Whole runs -/

variable {State Progress : Type}

theorem check_results_side (setup : Setup State Progress) (side : CheckSide Progress)
    (result : ProcessResult) :
    (checkResults setup side result).1.checks =
        (checkBlockResults setup.geth setup.codec setup.chain.info side.checks
          result.decoded.proto result.receipts result.stateRoot result.hashOfParentBlock).1 ∧
      ((checkResults setup side result).2 = .ok () →
        (checkBlockResults setup.geth setup.codec setup.chain.info side.checks
          result.decoded.proto result.receipts result.stateRoot
          result.hashOfParentBlock).2.2 = .ok ()) ∧
      ∃ more, (checkResults setup side result).1.calls = side.calls ++
          .checkBlockResults result.decoded.proto result.receipts result.stateRoot
            result.hashOfParentBlock :: more ∧
        computedRoots more = [] := by
  unfold checkResults callCheckBlockResults
  dsimp only
  rcases checkBlockResults setup.geth setup.codec setup.chain.info side.checks
    result.decoded.proto result.receipts result.stateRoot result.hashOfParentBlock with
    ⟨checks, block', failure | _⟩
  · exact ⟨rfl, nofun, [], rfl, rfl⟩
  · dsimp only
    unfold callOnBlockDone
    cases setup.onBlockDone with
    | none =>
        dsimp only
        unfold callSubmit
        split
        · exact ⟨rfl, fun _ => rfl, [_], List.append_assoc _ _ _, rfl⟩
        · exact ⟨rfl, fun _ => rfl, [], rfl, rfl⟩
    | some callback =>
        dsimp only
        rcases callback side.progress result.decoded.geth with ⟨progress, err | _⟩
        · exact ⟨rfl, nofun, [_], List.append_assoc _ _ _, rfl⟩
        · dsimp only
          unfold callSubmit
          split
          · exact ⟨rfl, fun _ => rfl,
              [.onBlockDone result.decoded.geth, .submit block' result.hashHistory], by simp, rfl⟩
          · exact ⟨rfl, fun _ => rfl, [_], List.append_assoc _ _ _, rfl⟩

structure InFrame (codec : GoCodec) (chainID : UInt64) (schema : Nat)
    (context : ReplayLoopContext) (db : KvDb) (side : CheckSide Progress) : Prop where
  policy : side.checks.context.overwriteStateRoot = context.overwriteStateRoot
  skip : side.checks.context.skipStateRootCheck = context.skipStateRootCheck
  framed : Framed codec chainID schema context.overwriteStateRoot db side.calls
    side.checks.blockDB

section Runs

variable {setup : Setup State Progress} {chainID : UInt64} {schema : Nat}
variable {context : ReplayLoopContext} {db : KvDb}
variable (lossless : ∀ block data, setup.codec.marshal block = .ok data →
  setup.codec.unmarshal data = .ok block)
variable (info : setup.chain.info = chainInfo chainID schema)

include lossless info in
theorem InFrame.check {side : CheckSide Progress}
    (inFrame : InFrame setup.codec chainID schema context db side) {result : ProcessResult}
    (stored : get setup.codec db chainID result.decoded.proto.number =
      .ok (some result.decoded.proto)) :
    InFrame setup.codec chainID schema context db (checkResults setup side result).1 := by
  obtain ⟨checksEq, -, more, callsEq, -⟩ := check_results_side setup side result
  rcases checked : checkBlockResults setup.geth setup.codec setup.chain.info side.checks
    result.decoded.proto result.receipts result.stateRoot result.hashOfParentBlock with
    ⟨next, block', outcome⟩
  rw [checked] at checksEq
  obtain ⟨⟨policy, skip⟩, written⟩ := check_block_results_writes checked
  have framed := inFrame.framed.extend (.checkBlockResults result.decoded.proto
    result.receipts result.stateRoot result.hashOfParentBlock :: more)
  rw [← callsEq] at framed
  constructor
  · rw [checksEq, ← inFrame.policy]
    exact policy
  · rw [checksEq, ← inFrame.skip]
    exact skip
  · rw [checksEq]
    rcases written with same | ⟨root, computed, writes, updated⟩
    · rwa [same]
    · rw [info] at updated writes
      rw [stored_root_eq, inFrame.policy] at writes
      refine framed.write lossless stored ?_ writes updated
      rw [callsEq, computed, computedRoots]
      simp [computedRoot]

theorem decode_blocks_ok {turn : Turn} {decoded : DecodedBlock}
    (produced : decodeBlocks setup turn = .ok decoded) : turn.next = .ok decoded.proto := by
  unfold decodeBlocks at produced
  split at produced
  · cases produced
  · rename_i block next
    split at produced
    · cases produced
    · split at produced
      · cases produced
      · cases produced
        exact next

include lossless info in
/-- The stages hand on blocks as they are stored, and the last one stays in the frame. -/
theorem stages_keep_frame :
    Keeps (pipelineStages setup)
      (fun turn => ∀ block, turn.next = .ok block →
        get setup.codec db chainID block.number = .ok (some block))
      (fun decoded => get setup.codec db chainID decoded.proto.number = .ok (some decoded.proto))
      (fun result => get setup.codec db chainID result.decoded.proto.number =
        .ok (some result.decoded.proto))
      (InFrame setup.codec chainID schema context db) where
  produce turn decoded stored produced := stored decoded.proto (decode_blocks_ok produced)
  work side next decoded result stored applied := by
    rwa [(apply_blocks_calls applied).2.2]
  finish side result stored inFrame := inFrame.check lossless info stored

include info in
/-- Each block that passes the checks has a computed root, which was compared with a stored one
unless the policy or the flag spared it. -/
theorem finishes_compare {side last : CheckSide Progress} {results : List ProcessResult}
    (finishes : Finishes (pipelineStages setup) side results last)
    (policy : side.checks.context.overwriteStateRoot = context.overwriteStateRoot)
    (skip : side.checks.context.skipStateRootCheck = context.skipStateRootCheck) :
    (∃ more, last.calls = side.calls ++ more) ∧
      ∀ result ∈ results, ∃ root, (result.decoded.proto, root) ∈ computedRoots last.calls ∧
        (context.overwriteStateRoot ≠ .on → context.skipStateRootCheck = false →
          storedRoot schema result.decoded.proto ≠ FixedBytes.zero 32 →
          root = storedRoot schema result.decoded.proto) := by
  induction finishes with
  | nil side => exact ⟨⟨[], (List.append_nil _).symm⟩, List.forall_mem_nil _⟩
  | @cons side next last result results finished _ ih =>
      obtain ⟨checksEq, passes, more, callsEq, -⟩ := check_results_side setup side result
      dsimp only [pipelineStages] at finished
      rw [finished] at checksEq passes callsEq
      have passed := passes rfl
      rcases checked : checkBlockResults setup.geth setup.codec setup.chain.info side.checks
        result.decoded.proto result.receipts result.stateRoot result.hashOfParentBlock with
        ⟨checks, block', outcome⟩
      rw [checked] at checksEq passed
      cases passed
      obtain ⟨⟨samePolicy, sameSkip⟩, -⟩ := check_block_results_writes checked
      obtain ⟨root, computed, compared⟩ := check_block_results_ok checked
      rw [info, stored_root_eq, policy, skip] at compared
      obtain ⟨⟨later, lastEq⟩, others⟩ := ih (by rw [checksEq, samePolicy, policy])
        (by rw [checksEq, sameSkip, skip])
      refine ⟨⟨_, by rw [lastEq, callsEq, List.append_assoc]⟩, ?_⟩
      apply List.forall_mem_cons.mpr ⟨⟨root, ?_, compared⟩, others⟩
      rw [lastEq]
      apply mem_computed_roots_append
      rw [callsEq, computed, computedRoots]
      simp [computedRoot]

theorem run_loop_computed (turns : List Turn) (applySide : ApplySide State)
    (side : CheckSide Progress) :
    ((computedRoots (runLoop (pipelineStages setup) applySide side turns).2.1.calls).map
        fun computed => Except.ok computed.1).Sublist
      ((computedRoots side.calls).map (fun computed => Except.ok computed.1) ++
        turns.map Turn.next) := by
  induction turns generalizing applySide side with
  | nil => simp [runLoop]
  | cons turn rest ih =>
      rw [runLoop]
      dsimp only [pipelineStages]
      split
      · exact List.sublist_append_left _ _
      · rename_i decoded produced
        split
        · exact List.sublist_append_left _ _
        · rename_i next result applied
          have proto := (apply_blocks_calls applied).2.2
          obtain ⟨-, -, more, callsEq, noMore⟩ := check_results_side setup side result
          have upTo : ((computedRoots (checkResults setup side result).1.calls).map
                fun computed => (Except.ok computed.1 : Except String ProtoBlock.Block)).Sublist
              ((computedRoots side.calls).map (fun computed => Except.ok computed.1) ++
                [turn.next]) := by
            rw [callsEq, computedRoots, List.filterMap_append, List.filterMap_cons,
              ← computedRoots, ← computedRoots, noMore, List.map_append,
              decode_blocks_ok produced]
            apply List.Sublist.append_left
            rw [proto]
            cases result.stateRoot with
            | error err => exact List.nil_sublist _
            | ok root => exact List.Sublist.refl _
          split
          · rename_i finished
            rw [finished] at upTo
            refine upTo.trans (List.Sublist.append_left ?_ _)
            simp
          · rename_i finished
            rw [finished] at upTo
            refine (ih _ _).trans ?_
            rw [List.map_cons, ← List.singleton_append, ← List.append_assoc]
            exact upTo.append_right _

theorem get_range_numbers_ascend {codec : GoCodec} {first last : UInt64}
    (numbered : ∀ number data block, db[makeBlockKey chainID number]? = some data →
      codec.unmarshal data = .ok block → block.number = number) :
    (getRange codec db chainID first last).Pairwise fun earlier later =>
      ∀ before after, earlier = .ok before → later = .ok after → before.number < after.number := by
  obtain ⟨items, sorted, inside, yielded⟩ := get_range_items codec db chainID first last
  rw [yielded, List.pairwise_map]
  apply sorted.imp_of_mem
  intro earlier later earlierMember laterMember below before after beforeDecoded afterDecoded
  rw [numbered _ _ _ (inside earlier earlierMember).1 beforeDecoded,
    numbered _ _ _ (inside later laterMember).1 afterDecoded]
  exact below

include lossless info in
theorem replay_in_frame {turns : List Turn}
    (stored : ∀ turn ∈ turns, ∀ block, turn.next = .ok block →
      get setup.codec db chainID block.number = .ok (some block))
    (applySide : ApplySide State) (progress : Progress) :
    InFrame setup.codec chainID schema context db
        (runReplayLoop setup applySide ⟨⟨db, context⟩, progress, []⟩ turns).2.1 ∧
      ∀ inputCapacity outputCapacity config,
        Reachable (pipelineStages setup) inputCapacity outputCapacity turns applySide
          ⟨⟨db, context⟩, progress, []⟩ config →
        InFrame setup.codec chainID schema context db config.finish := by
  have keeps : Keeps (pipelineStages setup) _ _ _ (InFrame setup.codec chainID schema context db) :=
    stages_keep_frame lossless info
  have started : InFrame setup.codec chainID schema context db
      (⟨⟨db, context⟩, progress, []⟩ : CheckSide Progress) := ⟨rfl, rfl, .start []⟩
  constructor
  · rw [(run_replay_loop_eq setup applySide ⟨⟨db, context⟩, progress, []⟩ turns).2.1]
    exact run_loop_keeps keeps stored applySide started
  · intro inputCapacity outputCapacity config reached
    exact reachable_keeps keeps stored started reached

theorem computed_roots_ascend {first last : UInt64} {turns : List Turn}
    (numbered : ∀ number data block, db[makeBlockKey chainID number]? = some data →
      setup.codec.unmarshal data = .ok block → block.number = number)
    (read : turns.map Turn.next = getRange setup.codec db chainID first last)
    (applySide : ApplySide State) (checks : CheckState) (progress : Progress) :
    (computedRoots (runReplayLoop setup applySide ⟨checks, progress, []⟩ turns).2.1.calls).Pairwise
      fun earlier later => earlier.1.number < later.1.number := by
  have order := @run_loop_computed _ _ setup turns applySide ⟨checks, progress, []⟩
  rw [← (run_replay_loop_eq setup applySide ⟨checks, progress, []⟩ turns).2.1, read] at order
  have ascending := (get_range_numbers_ascend numbered).sublist order
  exact (List.pairwise_map.mp ascending).imp fun below => below _ _ rfl rfl

include info in
theorem replay_loop_compares {turns : List Turn} {applySide : ApplySide State}
    {progress : Progress} {blockDB : KvDb}
    (succeeded : (runReplayLoop setup applySide ⟨⟨blockDB, context⟩, progress, []⟩ turns).2.2 =
      .ok ()) {turn : Turn} (member : turn ∈ turns) :
    ∃ block root, turn.next = .ok block ∧
      (block, root) ∈ computedRoots
        (runReplayLoop setup applySide ⟨⟨blockDB, context⟩, progress, []⟩ turns).2.1.calls ∧
      (context.overwriteStateRoot ≠ .on → context.skipStateRootCheck = false →
        storedRoot schema block ≠ FixedBytes.zero 32 → root = storedRoot schema block) := by
  obtain ⟨-, sameCheck, sameOutcome⟩ :=
    run_replay_loop_eq setup applySide ⟨⟨blockDB, context⟩, progress, []⟩ turns
  rcases looped : runLoop (pipelineStages setup) applySide ⟨⟨blockDB, context⟩, progress, []⟩ turns
    with ⟨applyLast, checkLast, outcome⟩
  rw [looped] at sameCheck sameOutcome
  obtain rfl : outcome = .ok () := sameOutcome.mp succeeded
  obtain ⟨decoded, results, produced, works, finishes⟩ := run_loop_ok_iff.mp looped
  obtain ⟨block, blockMember, blockProduced⟩ := Produces.mem produced member
  have protoMember : block.proto ∈ results.map fun result => result.decoded.proto := by
    rw [(works_calls works).2.2]
    exact List.mem_map_of_mem blockMember
  obtain ⟨result, resultMember, protoEq⟩ := List.mem_map.mp protoMember
  obtain ⟨root, computed, compared⟩ :=
    (finishes_compare info finishes rfl rfl).2 result resultMember
  dsimp only at sameCheck
  rw [protoEq, ← sameCheck] at computed
  rw [protoEq] at compared
  exact ⟨block.proto, root, decode_blocks_ok blockProduced, computed, compared⟩

end Runs

/-- Whatever the chain computes and however a run ends, a stored block is only changed if the
policy allows it, and then only in the root of the schema, which becomes the computed one. A
loop that succeeds without skipping the comparison has found the other stored roots equal to
the computed ones. Every state of the pipeline has the frame too, and without an issue it has
done the same as the loop. -/
theorem replay_rewrites_only_roots (setup : Setup State Progress) (applySide : ApplySide State)
    (progress : Progress) (context : ReplayLoopContext) {db : KvDb} {chainID : UInt64}
    {schema : Nat} {first last : UInt64} {turns : List Turn}
    (lossless : ∀ block data, setup.codec.marshal block = .ok data →
      setup.codec.unmarshal data = .ok block)
    (numbered : ∀ number data block, db[makeBlockKey chainID number]? = some data →
      setup.codec.unmarshal data = .ok block → block.number = number)
    (info : setup.chain.info = chainInfo chainID schema)
    (read : turns.map Turn.next = getRange setup.codec db chainID first last) :
    let loop := runReplayLoop setup applySide ⟨⟨db, context⟩, progress, []⟩ turns
    Framed setup.codec chainID schema context.overwriteStateRoot db loop.2.1.calls
        loop.2.1.checks.blockDB ∧
      (computedRoots loop.2.1.calls).Pairwise
        (fun earlier later => earlier.1.number < later.1.number) ∧
      (loop.2.2 = .ok () → ∀ next ∈ getRange setup.codec db chainID first last,
        ∃ block root, next = .ok block ∧ (block, root) ∈ computedRoots loop.2.1.calls ∧
          (context.overwriteStateRoot ≠ .on → context.skipStateRootCheck = false →
            storedRoot schema block ≠ FixedBytes.zero 32 → root = storedRoot schema block)) ∧
      ∀ inputCapacity outputCapacity config,
        Reachable (pipelineStages setup) inputCapacity outputCapacity turns applySide
          ⟨⟨db, context⟩, progress, []⟩ config →
        Framed setup.codec chainID schema context.overwriteStateRoot db config.finish.calls
            config.finish.checks.blockDB ∧
          (AllExited config → config.issue = none →
            config.finish = loop.2.1 ∧ loop.2.2 = .ok ()) := by
  intro loop
  have stored : ∀ turn ∈ turns, ∀ block, turn.next = .ok block →
      get setup.codec db chainID block.number = .ok (some block) := by
    intro turn member block next
    have inRange : .ok block ∈ getRange setup.codec db chainID first last := by
      rw [← read, ← next]
      exact List.mem_map_of_mem member
    exact (mem_get_range numbered inRange).2.2
  have inFrame := @replay_in_frame _ _ setup chainID schema context db lossless info turns stored
    applySide progress
  refine ⟨inFrame.1.framed, computed_roots_ascend numbered read _ _ _, ?_, ?_⟩
  · intro succeeded next member
    rw [← read] at member
    obtain ⟨turn, turnMember, rfl⟩ := List.mem_map.mp member
    exact replay_loop_compares info succeeded turnMember
  · intro inputCapacity outputCapacity config reached
    refine ⟨(inFrame.2 _ _ config reached).framed, ?_⟩
    intro exited noIssue
    obtain ⟨-, sameCheck, sameOutcome⟩ :=
      run_replay_loop_eq setup applySide ⟨⟨db, context⟩, progress, []⟩ turns
    rw [(exited_agrees reached exited).2 noIssue] at sameCheck sameOutcome
    exact ⟨sameCheck.symm, sameOutcome.mpr rfl⟩

/-! ## A replayed block without a root -/

def rootedMessage : ProtoBlock.Block := { numberOnly 5 with stateRoot := onesHash.val }

def unrootedCodec : GoCodec where
  marshal message :=
    if message = numberOnly 5 then .ok [0x30, 0x05]
    else if message = rootedMessage then .ok (0x22 :: 0x20 :: onesHash.val ++ [0x30, 0x05])
    else .error "unsupported message"
  unmarshal data :=
    if data = [0x30, 0x05] then .ok (numberOnly 5)
    else if data = 0x22 :: 0x20 :: onesHash.val ++ [0x30, 0x05] then .ok rootedMessage
    else .error "unexpected EOF"

theorem unrooted_codec_lossless (block : ProtoBlock.Block) (data : BigEndian.Bytes)
    (written : unrootedCodec.marshal block = .ok data) :
    unrootedCodec.unmarshal data = .ok block := by
  simp only [unrootedCodec] at written
  split at written
  · rename_i plain
    cases written
    rw [plain]
    rfl
  · split at written
    · rename_i rooted
      cases written
      rw [rooted]
      rfl
    · cases written

theorem get_unrooted_db {number : UInt64} {data : BigEndian.Bytes} :
    unrootedDb[makeBlockKey 7 number]? = some data ↔ number = 5 ∧ data = [0x30, 0x05] := by
  rw [unrootedDb, Std.ExtTreeMap.getElem?_insert]
  by_cases own : number = 5
  · subst own
    simp [eq_comm]
  · have foreign : makeBlockKey 7 5 ≠ makeBlockKey 7 number :=
      fun same => own (BlockKeys.make_block_key_injective same).2.symm
    simp [foreign, own]

def onesChain : Chain Unit where
  info := chainInfo 7 5
  getBlockHash state _ := (state, FixedBytes.zero 32)
  cloneBlockHashHistory state := (state, .empty)
  applyBlock state block := (state, .ok ([], .ok onesHash, block))
  maybeSnapshot state _ stateRoot := (state, .ok stateRoot)

def onesSetup : Setup Unit Unit := ⟨onesChain, plainGeth, unrootedCodec, none, false⟩

theorem get_range_unrooted_db :
    getRange unrootedCodec unrootedDb 7 5 5 = [.ok (numberOnly 5)] := by
  have known : BlockIteration.KnownKeys unrootedDb := by
    intro key data found
    rw [unrootedDb, Std.ExtTreeMap.getElem?_insert] at found
    split at found
    · rename_i own
      exact Or.inr (Or.inr (Or.inr ⟨7, 5, (Std.compare_eq_iff_eq.mp own).symm⟩))
    · simp at found
  obtain ⟨items, -, -, -, sorted, members, yielded⟩ :=
    get_range_forward known unrootedCodec 7 5 5
  have only : items = [(5, [0x30, 0x05])] := by
    apply increasing_unique sorted (List.pairwise_singleton _ _)
    rintro ⟨number, data⟩
    rw [members, BlockDb.getBytes, ← make_block_key_eq, get_unrooted_db]
    simp only [List.mem_singleton, Prod.mk.injEq]
    constructor
    · rintro ⟨entry, -, -⟩
      exact entry
    · rintro ⟨rfl, rfl⟩
      exact ⟨⟨rfl, rfl⟩, le_refl _, le_refl _⟩
  rw [yielded, only]
  rfl

/-- The policy for blocks without a root has the root of block 5 filled in. -/
theorem replay_rewrites_only_roots_unset :
    let loop := runReplayLoop onesSetup ⟨(), []⟩
      ⟨⟨unrootedDb, ⟨.uninitialized, false, false, false⟩⟩, (), []⟩ [⟨.ok (numberOnly 5), none⟩]
    Framed unrootedCodec 7 5 .uninitialized unrootedDb loop.2.1.calls loop.2.1.checks.blockDB ∧
      get unrootedCodec loop.2.1.checks.blockDB 7 5 = .ok (some rootedMessage) := by
  intro loop
  have numbered : ∀ number data block, unrootedDb[makeBlockKey 7 number]? = some data →
      unrootedCodec.unmarshal data = .ok block → block.number = number := by
    intro number data block found decoded
    obtain ⟨rfl, rfl⟩ := get_unrooted_db.mp found
    cases decoded
    rfl
  have info : onesSetup.chain.info = chainInfo 7 5 := rfl
  have read : ([⟨.ok (numberOnly 5), none⟩] : List Turn).map Turn.next =
      getRange onesSetup.codec unrootedDb 7 5 5 := get_range_unrooted_db.symm
  refine ⟨(replay_rewrites_only_roots onesSetup ⟨(), []⟩ () ⟨.uninitialized, false, false, false⟩
    unrooted_codec_lossless numbered info read).1, ?_⟩
  have stored : update unrootedCodec unrootedDb 7 rootedMessage = .ok loop.2.1.checks.blockDB := rfl
  exact (get_update unrooted_codec_lossless stored).1

end Bertha.ReplayFrame
