import Bertha.BlockDbInvariant
import Bertha.Conversion
import Bertha.Headers

/-!
# Importing blocks from a file

The `import` function of `blockservice/src/cmd/import.rs`. Blocks come from an iterator in
descending order and may be parse errors; they are collected in a batch that is written
whenever its size in bytes reaches a threshold, so a cancelled or failed import leaves the
batches written so far. The size of a raw batch, the header hash and the order of the
batch's hash map are parameters, as is the outcome of registering the chain in the
configuration; progress output is left out.
-/

namespace Bertha.Import

open Bertha.BigEndian Bertha.BlockDb Bertha.BlockDbContents Bertha.BlockKeys Bertha.BlockRanges
open Bertha.Conversion Bertha.Headers Bertha.IntervalList Bertha.OrderedStore
open Bertha.BlockTypes (Error Block Hash FixedBytes bytesToHex)

set_option autoImplicit false

/-- Everything outside the repository that an import depends on. -/
structure Environment where
  codec : WireCodec
  libraries : HashLibraries
  computeHash : BlockHeader → Hash
  sizeInBytes : List RawOp → Nat
  enumerate : (blockRanges : Store UInt64 (List BlockRange)) → Enumeration blockRanges

inductive ImportError (Failure : Type) where
  | parser (failure : Failure)
  | config (text : String)
  | storage (failure : Error)
  | message (text : String)
deriving DecidableEq, Repr

structure Outcome (Failure : Type) where
  db : KvDb
  cancelled : Bool
  result : Except (ImportError Failure) Unit

structure ImportState where
  db : KvDb
  batch : BatchWrapper
  prevParentHash : Option Hash

def batchSize : Nat := 100000000

/-- `block.to_header().compute_hash()`. -/
def blockHash (env : Environment) (block : Block) : Hash :=
  env.computeHash (Block.toHeader env.libraries block)

def flush (env : Environment) (db : KvDb) (batch : BatchWrapper) : Except Error KvDb :=
  writeBatch db batch (env.enumerate batch.blockRanges)

def finish {Failure : Type} (env : Environment) (state : ImportState) (cancelled : Bool) :
    Outcome Failure :=
  match flush env state.db state.batch with
  | .error failure => ⟨state.db, cancelled, .error (.storage failure)⟩
  | .ok db => ⟨db, cancelled, .ok ()⟩

/-- The block to verify: below the first missing number the one in the database. -/
def blockToVerify {Failure : Type} (env : Environment) (db : KvDb) (chainId smallest : UInt64)
    (block : Block) : Except (ImportError Failure) Block :=
  if block.number < smallest then
    match get env.codec db chainId block.number with
    | .error failure => .error (.storage failure)
    | .ok none => .error (.message s!"Invalid metadata, block {block.number} does not exist")
    | .ok (some stored) => .ok stored
  else .ok block

/-- The comparison with the parent hash of the block before, which has the next number. -/
def checkParentHash {Failure : Type} (env : Environment) (prevParentHash : Option Hash)
    (block : Block) : Except (ImportError Failure) Unit :=
  match prevParentHash with
  | none => .ok ()
  | some prevParentHash =>
      if blockHash env block ≠ prevParentHash then
        .error (.message (s!"Parent hash mismatch for block {block.number + 1}: " ++
          s!"previous block hash {bytesToHex (blockHash env block).val}, " ++
          s!"parent hash {bytesToHex prevParentHash.val}"))
      else .ok ()

def checkBlockZero {Failure : Type} (block : Block) : Except (ImportError Failure) Unit :=
  if block.number = 0 ∧ block.parentHash ≠ FixedBytes.zero 32 then
    .error (.message
      s!"Block zero must have parent hash {bytesToHex (FixedBytes.zero 32).val}")
  else .ok ()

def verifyBlock {Failure : Type} (env : Environment) (state : ImportState)
    (chainId smallest : UInt64) (block : Block) : Except (ImportError Failure) Block := do
  let block ← blockToVerify env state.db chainId smallest block
  checkParentHash env state.prevParentHash block
  checkBlockZero block
  return block

def storeBlock (env : Environment) (chainId : UInt64) (state : ImportState) (block : Block) :
    Except Error ImportState :=
  let data := encodeBlock env.codec block
  if env.sizeInBytes state.batch.kvBatch ≥ batchSize then
    match flush env state.db state.batch with
    | .error failure => .error failure
    | .ok db => .ok { state with db := db, batch := batch.putBytes chainId block.number data }
  else .ok { state with batch := state.batch.putBytes chainId block.number data }

/-- The loop over the blocks; the cancel indicator is asked once for each of them. -/
def importLoop {Failure : Type} (env : Environment) (chainId smallest : UInt64) (verify : Bool)
    (isCancelled : Nat → Bool) :
    Nat → ImportState → List (Except Failure Block) → Outcome Failure
  | _, state, [] => finish env state false
  | poll, state, result :: rest =>
      if isCancelled poll then finish env state true
      else
        match result with
        | .error failure => ⟨state.db, false, .error (.parser failure)⟩
        | .ok block =>
          match if verify then verifyBlock env state chainId smallest block else .ok block with
          | .error failure => ⟨state.db, false, .error failure⟩
          | .ok block =>
            let state := if verify then { state with prevParentHash := some block.parentHash }
              else state
            if block.number < smallest then finish env state false
            else
              match storeBlock env chainId state block with
              | .error failure => ⟨state.db, false, .error (.storage failure)⟩
              | .ok state =>
                importLoop env chainId smallest verify isCancelled (poll + 1) state rest

/-- The first number to import: the end of the first stored range plus one if it starts at
zero. -/
def smallestImportBlockNumber (ranges : List BlockRange) : UInt64 :=
  match ranges.head? with
  | some range => if range.start = 0 then range.stop + 1 else 0
  | none => 0

def saturatingSub (left right : UInt64) : UInt64 := if right ≤ left then left - right else 0

def importBlocks {Failure : Type} (env : Environment) (register : Except String Unit) (db : KvDb)
    (blocks : List (Except Failure Block)) (chainId : UInt64) (verify : Bool)
    (isCancelled : Nat → Bool) : Outcome Failure :=
  let totalBlocks : Except Failure UInt64 := match blocks.head? with
    | none => .ok 0
    | some (.ok block) => .ok (block.number + 1)
    | some (.error failure) => .error failure
  match totalBlocks with
  | .error failure => ⟨db, false, .error (.parser failure)⟩
  | .ok totalBlocks =>
    match register with
    | .error text => ⟨db, false, .error (.config text)⟩
    | .ok () =>
      match getRangesOfChainId db chainId with
      | .error failure => ⟨db, false, .error (.storage failure)⟩
      | .ok ranges =>
        let smallest := smallestImportBlockNumber ranges
        if saturatingSub totalBlocks smallest = 0 then ⟨db, false, .ok ()⟩
        else importLoop env chainId smallest verify isCancelled 0 ⟨db, batch, none⟩ blocks

def LinkChecked (env : Environment) (prevParentHash : Option Hash) (block : Block) : Prop :=
  (∀ parentHash, prevParentHash = some parentHash → blockHash env block = parentHash) ∧
    (block.number = 0 → block.parentHash = FixedBytes.zero 32)

section Verification

variable {Failure : Type} {env : Environment} {state : ImportState} {chainId smallest : UInt64}
  {block verified : Block}

theorem verify_block_ok
    (accepted : verifyBlock env state chainId smallest block =
      (.ok verified : Except (ImportError Failure) Block)) :
    (smallest ≤ block.number ∧ verified = block ∨
        block.number < smallest ∧
          get env.codec state.db chainId block.number = .ok (some verified)) ∧
      LinkChecked env state.prevParentHash verified := by
  obtain ⟨chosen, chosenEq, rest⟩ := bind_eq_ok.mp accepted
  obtain ⟨⟨⟩, parentChecked, rest⟩ := bind_eq_ok.mp rest
  obtain ⟨⟨⟩, zeroChecked, same⟩ := bind_eq_ok.mp rest
  cases same
  refine ⟨?_, ?_, ?_⟩
  · unfold blockToVerify at chosenEq
    split_ifs at chosenEq with below
    · split at chosenEq
      · cases chosenEq
      · cases chosenEq
      · rename_i stored found
        cases chosenEq
        exact .inr ⟨below, found⟩
    · cases chosenEq
      exact .inl ⟨not_lt.mp below, rfl⟩
  · intro parentHash known
    simp only [checkParentHash, known] at parentChecked
    by_contra different
    simp [different] at parentChecked
  · intro zero
    unfold checkBlockZero at zeroChecked
    by_contra nonzero
    simp [zero, nonzero] at zeroChecked

theorem verify_block_accepts
    (chosen : (blockToVerify env state.db chainId smallest block :
      Except (ImportError Failure) Block) = .ok verified)
    (checked : LinkChecked env state.prevParentHash verified) :
    (verifyBlock env state chainId smallest block : Except (ImportError Failure) Block) =
      .ok verified := by
  have parentChecked : (checkParentHash env state.prevParentHash verified :
      Except (ImportError Failure) Unit) = .ok () := by
    unfold checkParentHash
    split
    · rfl
    · rename_i known
      rw [if_neg (not_not.mpr (checked.1 _ known))]
  have zeroChecked : (checkBlockZero verified : Except (ImportError Failure) Unit) = .ok () :=
    if_neg fun wrong => wrong.2 (checked.2 wrong.1)
  simp only [verifyBlock, chosen, bind, Except.bind, parentChecked, zeroChecked, pure,
    Except.pure]

end Verification

/-- Where an import stands: the writes that reached the database and those in the batch. -/
structure Staged (base : Contents) (smallest : UInt64) (state : ImportState)
    (flushed pending : List BlockWrite) : Prop where
  represents : Represents state.db (base.putAll flushed)
  collected : state.batch = batch.putAll pending
  inRange : ∀ write ∈ flushed ++ pending,
    smallest ≤ write.blockNumber ∧ write.blockNumber < maxBlockNumber

def writeOf (env : Environment) (chainId : UInt64) (block : Block) : BlockWrite :=
  ⟨chainId, block.number, encodeBlock env.codec block⟩

section Stages

variable (Failure : Type) (env : Environment) {base : Contents} (chainId : UInt64)
  {smallest : UInt64} {state : ImportState} {flushed pending : List BlockWrite}
  (valid : base.Valid) (staged : Staged base smallest state flushed pending)

include valid staged

theorem staged_flush :
    ∃ db, flush env state.db state.batch = .ok db ∧
      Represents db (base.putAll (flushed ++ pending)) := by
  have flushedValid := Contents.put_all_valid valid flushed fun write member =>
    (staged.inRange write (List.mem_append_left _ member)).2
  rw [Contents.put_all_append, flush]
  have written := write_batch_simulates staged.represents flushedValid pending
    (fun write member => (staged.inRange write (List.mem_append_right _ member)).2)
  rw [← staged.collected] at written
  exact written (env.enumerate state.batch.blockRanges)

theorem staged_finish (cancelled : Bool) :
    ∃ db, (finish env state cancelled : Outcome Failure) = ⟨db, cancelled, .ok ()⟩ ∧
      Represents db (base.putAll (flushed ++ pending)) := by
  obtain ⟨db, written, represents⟩ := staged_flush env valid staged
  refine ⟨db, ?_, represents⟩
  rw [finish, written]

theorem staged_store {block : Block} (atLeast : smallest ≤ block.number)
    (below : block.number < maxBlockNumber) :
    ∃ next nextFlushed nextPending, storeBlock env chainId state block = .ok next ∧
      next.prevParentHash = state.prevParentHash ∧
      Staged base smallest next nextFlushed nextPending ∧
      nextFlushed ++ nextPending = flushed ++ pending ++ [writeOf env chainId block] := by
  have inRange : ∀ write ∈ flushed ++ pending ++ [writeOf env chainId block],
      smallest ≤ write.blockNumber ∧ write.blockNumber < maxBlockNumber := by
    intro write member
    rcases List.mem_append.mp member with earlier | last
    · exact staged.inRange write earlier
    · rw [List.mem_singleton.mp last]
      exact ⟨atLeast, below⟩
  unfold storeBlock
  dsimp only
  split_ifs with large
  · obtain ⟨db, written, represents⟩ := staged_flush env valid staged
    rw [written]
    exact ⟨_, flushed ++ pending, [writeOf env chainId block], rfl, rfl,
      ⟨represents, rfl, inRange⟩, rfl⟩
  · refine ⟨_, flushed, pending ++ [writeOf env chainId block], rfl, rfl,
      ⟨staged.represents, ?_, ?_⟩, ?_⟩
    · rw [staged.collected]
      simp [BatchWrapper.putAll, writeOf]
    · rw [← List.append_assoc]
      exact inRange
    · rw [List.append_assoc]

omit valid in
theorem staged_get_below {number : UInt64} (below : number < smallest) :
    getBytes state.db chainId number = base.blocks chainId number := by
  rw [staged.represents.blocks, Contents.put_all_blocks]
  cases found : Contents.lastWrite flushed chainId number with
  | none => rfl
  | some data =>
      have member := List.mem_append_left pending (Contents.last_write_mem found)
      exact absurd below (not_lt.mpr (staged.inRange _ member).1)

end Stages

def ReadOf {Failure : Type} (blocks : List Block) (items : List (Except Failure Block)) : Prop :=
  ∀ (index : Nat) (block : Block), items[index]? = some (.ok block) → blocks[index]? = some block

theorem read_of_map_ok (Failure : Type) (blocks : List Block) :
    ReadOf blocks (blocks.map (.ok : Block → Except Failure Block)) := by
  intro index block found
  simpa using found

theorem read_of_cons {Failure : Type} {block : Block} {blocks : List Block}
    {items : List (Except Failure Block)} (read : ReadOf blocks (.ok block :: items)) :
    ∃ rest, blocks = block :: rest ∧ ReadOf rest items := by
  have head := read 0 block rfl
  cases blocks with
  | nil => cases head
  | cons first rest =>
      cases head
      exact ⟨rest, rfl, fun index next found => read (index + 1) next found⟩

/-- The writes an import of the blocks stands for. -/
def importWrites (env : Environment) (chainId smallest : UInt64) (blocks : List Block) :
    List BlockWrite :=
  (blocks.takeWhile fun block => smallest ≤ block.number).map (writeOf env chainId)

def KeyedBelow (codec : WireCodec) (base : Contents) (chainId smallest : UInt64) : Prop :=
  ∀ number, number < smallest → ∀ data block, base.blocks chainId number = some data →
    decodeBlock codec data = .ok block → block.number = number

/-- What the verification accepts: a block of the file that passes both checks or, below the
first number to import, one whose stored counterpart does. -/
def Accepted (env : Environment) (base : Contents) (chainId smallest : UInt64)
    (prevParentHash : Option Hash) (block : Block) : Prop :=
  (smallest ≤ block.number → LinkChecked env prevParentHash block) ∧
    (block.number < smallest → ∃ stored data, base.blocks chainId block.number = some data ∧
      decodeBlock env.codec data = .ok stored ∧ LinkChecked env prevParentHash stored)

section Loop

variable {Failure : Type} {env : Environment} {base : Contents} {chainId smallest : UInt64}
  {verify : Bool} {isCancelled : Nat → Bool}

theorem verify_block_cases (Failure : Type) {state : ImportState}
    {flushed pending : List BlockWrite}
    (staged : Staged base smallest state flushed pending)
    (keyed : KeyedBelow env.codec base chainId smallest) (block : Block) :
    (¬ Accepted env base chainId smallest state.prevParentHash block ∧ ∃ failure,
      (verifyBlock env state chainId smallest block : Except (ImportError Failure) Block) =
        .error failure) ∨
    (Accepted env base chainId smallest state.prevParentHash block ∧ ∃ verified,
      (verifyBlock env state chainId smallest block : Except (ImportError Failure) Block) =
        .ok verified ∧
      verified.number = block.number ∧ (smallest ≤ block.number → verified = block)) := by
  cases outcome : (verifyBlock env state chainId smallest block :
      Except (ImportError Failure) Block) with
  | error failure =>
      refine .inl ⟨fun accepted => ?_, failure, rfl⟩
      rcases lt_or_ge block.number smallest with low | high
      · obtain ⟨stored, data, found, decoded, checked⟩ := accepted.2 low
        have read : get env.codec state.db chainId block.number = .ok (some stored) :=
          get_eq_some.mpr ⟨data, (staged_get_below chainId staged low).trans found, decoded⟩
        rw [verify_block_accepts (by simp only [blockToVerify, if_pos low, read]) checked]
          at outcome
        cases outcome
      · rw [verify_block_accepts (by simp only [blockToVerify, if_neg high.not_gt])
          (accepted.1 high)] at outcome
        cases outcome
  | ok verified =>
      obtain ⟨⟨high, rfl⟩ | ⟨low, read⟩, checked⟩ := verify_block_ok outcome
      · exact .inr ⟨⟨fun _ => checked, fun low => absurd low high.not_gt⟩, verified, rfl, rfl,
          fun _ => rfl⟩
      · obtain ⟨data, found, decoded⟩ := get_eq_some.mp read
        rw [staged_get_below chainId staged low] at found
        exact .inr ⟨⟨fun high => absurd low high.not_gt,
          fun _ => ⟨verified, data, found, decoded, checked⟩⟩, verified, rfl,
          keyed block.number low data verified found decoded,
          fun high => absurd low high.not_gt⟩

theorem import_loop_step (env : Environment) (chainId : UInt64) (verify : Bool)
    (isCancelled : Nat → Bool) (poll : Nat) {state : ImportState}
    {flushed pending : List BlockWrite}
    (valid : base.Valid) (staged : Staged base smallest state flushed pending)
    (keyed : verify = true → KeyedBelow env.codec base chainId smallest)
    (running : isCancelled poll = false) {block : Block} (below : block.number < maxBlockNumber)
    (rest : List (Except Failure Block)) :
    (verify = true ∧ ¬ Accepted env base chainId smallest state.prevParentHash block ∧ ∃ failure,
      importLoop env chainId smallest verify isCancelled poll state (.ok block :: rest) =
        ⟨state.db, false, .error failure⟩) ∨
    (block.number < smallest ∧
      (verify = true → Accepted env base chainId smallest state.prevParentHash block) ∧
      ∃ db, importLoop env chainId smallest verify isCancelled poll state (.ok block :: rest) =
          ⟨db, false, .ok ()⟩ ∧
        Represents db (base.putAll (flushed ++ pending))) ∨
    (smallest ≤ block.number ∧
      (verify = true → Accepted env base chainId smallest state.prevParentHash block) ∧
      ∃ next nextFlushed nextPending,
        (verify = true → next.prevParentHash = some block.parentHash) ∧
        Staged base smallest next nextFlushed nextPending ∧
        nextFlushed ++ nextPending = flushed ++ pending ++ [writeOf env chainId block] ∧
        importLoop env chainId smallest verify isCancelled poll state (.ok block :: rest) =
          importLoop env chainId smallest verify isCancelled (poll + 1) next rest) := by
  cases verify with
  | false =>
      simp only [importLoop, running, Bool.false_eq_true, if_false]
      rcases lt_or_ge block.number smallest with low | high
      · obtain ⟨db, finished, represents⟩ :=
          staged_finish Failure env valid staged false
        rw [if_pos low, finished]
        exact .inr (.inl ⟨low, by simp, db, rfl, represents⟩)
      · obtain ⟨next, nextFlushed, nextPending, stored, -, nextStaged, grown⟩ :=
          staged_store env chainId valid staged high below
        rw [if_neg high.not_gt, stored]
        exact .inr (.inr ⟨high, by simp, next, nextFlushed, nextPending, by simp, nextStaged,
          grown, rfl⟩)
  | true =>
      simp only [importLoop, running, Bool.false_eq_true, if_false, if_true]
      rcases verify_block_cases Failure staged (keyed rfl) block with
        ⟨refused, failure, rejected⟩ | ⟨accepted, verified, passed, sameNumber, same⟩
      · rw [rejected]
        exact .inl ⟨trivial, refused, failure, rfl⟩
      · have relinked : Staged base smallest
            { state with prevParentHash := some verified.parentHash } flushed pending :=
          ⟨staged.represents, staged.collected, staged.inRange⟩
        rw [passed]
        dsimp only
        rw [sameNumber]
        rcases lt_or_ge block.number smallest with low | high
        · obtain ⟨db, finished, represents⟩ :=
            staged_finish Failure env valid relinked false
          rw [if_pos low, finished]
          exact .inr (.inl ⟨low, fun _ => accepted, db, rfl, represents⟩)
        · obtain rfl := same high
          obtain ⟨next, nextFlushed, nextPending, stored, linked, nextStaged, grown⟩ :=
            staged_store env chainId valid relinked high below
          rw [if_neg high.not_gt, stored]
          exact .inr (.inr ⟨high, fun _ => accepted, next, nextFlushed, nextPending,
            fun _ => linked, nextStaged, grown, rfl⟩)

section Runs

variable (valid : base.Valid)
  (keyed : verify = true → KeyedBelow env.codec base chainId smallest)

include valid keyed

/-- Whatever happens, the database ends with a leading part of the writes, and with all of
them if the loop reads the whole file without being cancelled. -/
theorem import_loop_writes (isCancelled : Nat → Bool) (poll : Nat) {state : ImportState}
    {flushed pending : List BlockWrite}
    {items : List (Except Failure Block)} {blocks : List Block}
    (staged : Staged base smallest state flushed pending) (read : ReadOf blocks items)
    (below : ∀ block ∈ blocks, block.number < maxBlockNumber) :
    ∃ written,
      written <+: flushed ++ pending ++ importWrites env chainId smallest blocks ∧
      Represents (importLoop env chainId smallest verify isCancelled poll state items).db
        (base.putAll written) ∧
      ((importLoop env chainId smallest verify isCancelled poll state items).result = .ok () →
        (importLoop env chainId smallest verify isCancelled poll state items).cancelled = false →
        items.length = blocks.length →
        written = flushed ++ pending ++ importWrites env chainId smallest blocks) := by
  induction items generalizing poll state flushed pending blocks with
  | nil =>
      obtain ⟨db, finished, represents⟩ :=
        staged_finish Failure env valid staged false
      refine ⟨flushed ++ pending, List.prefix_append _ _, ?_, ?_⟩
      · rw [importLoop, finished]
        exact represents
      · intro _ _ whole
        rw [List.length_eq_zero_iff.mp whole.symm]
        simp [importWrites]
  | cons item items ih =>
      cases cancelled : isCancelled poll with
      | true =>
          obtain ⟨db, finished, represents⟩ :=
            staged_finish Failure env valid staged true
          have stopped : importLoop env chainId smallest verify isCancelled poll state
              (item :: items) = ⟨db, true, .ok ()⟩ := by
            rw [importLoop.eq_def]
            simp only [cancelled, if_true, finished]
          rw [stopped]
          exact ⟨flushed ++ pending, List.prefix_append _ _, represents,
            fun _ impossible => by cases impossible⟩
      | false =>
          cases item with
          | error failure =>
              have stopped : importLoop env chainId smallest verify isCancelled poll state
                  (.error failure :: items) = ⟨state.db, false, .error (.parser failure)⟩ := by
                simp [importLoop, cancelled]
              rw [stopped]
              refine ⟨flushed, ?_, staged.represents, fun impossible => by cases impossible⟩
              rw [List.append_assoc]
              exact List.prefix_append _ _
          | ok block =>
              obtain ⟨rest, rfl, restRead⟩ := read_of_cons read
              have blockBelow := below block (by simp)
              have restBelow : ∀ later ∈ rest, later.number < maxBlockNumber :=
                fun later member => below later (by simp [member])
              rcases import_loop_step env chainId verify isCancelled poll valid staged keyed
                  cancelled blockBelow items with
                ⟨-, -, failure, rejected⟩ | ⟨low, -, db, stopped, represents⟩ |
                ⟨high, -, next, nextFlushed, nextPending, -, nextStaged, grown, continued⟩
              · rw [rejected]
                refine ⟨flushed, ?_, staged.represents, fun impossible => by cases impossible⟩
                rw [List.append_assoc]
                exact List.prefix_append _ _
              · have nothing : importWrites env chainId smallest (block :: rest) = [] := by
                  simp [importWrites, low.not_ge]
                rw [stopped, nothing, List.append_nil]
                exact ⟨flushed ++ pending, List.prefix_rfl, represents, fun _ _ _ => rfl⟩
              · have more : flushed ++ pending ++
                    importWrites env chainId smallest (block :: rest) =
                      nextFlushed ++ nextPending ++ importWrites env chainId smallest rest := by
                  rw [grown]
                  simp [importWrites, high]
                rw [continued, more]
                obtain ⟨written, leading, represents, whole⟩ := ih (poll + 1) nextStaged restRead
                  restBelow
                exact ⟨written, leading, represents, fun result running lengths =>
                  whole result running (by simpa using lengths)⟩

end Runs

theorem import_loop_completes (valid : base.Valid) {verify : Bool} {poll : Nat}
    {state : ImportState} {flushed pending : List BlockWrite} {blocks : List Block}
    (keyed : verify = true → KeyedBelow env.codec base chainId smallest)
    (staged : Staged base smallest state flushed pending)
    (below : ∀ block ∈ blocks, block.number < maxBlockNumber)
    (Linked : Option Hash → List Block → Prop)
    (accepts : ∀ prevParentHash block rest, Linked prevParentHash (block :: rest) →
      Accepted env base chainId smallest prevParentHash block ∧
        (smallest ≤ block.number → Linked (some block.parentHash) rest))
    (linked : verify = true → Linked state.prevParentHash blocks) :
    ∃ db, (importLoop env chainId smallest verify (fun _ => false) poll state
      (blocks.map .ok) : Outcome Failure) = ⟨db, false, .ok ()⟩ := by
  induction blocks generalizing poll state flushed pending with
  | nil =>
      obtain ⟨db, finished, -⟩ :=
        staged_finish Failure env valid staged false
      exact ⟨db, finished⟩
  | cons block rest ih =>
      rw [List.map_cons]
      rcases import_loop_step env chainId verify (fun _ => false) poll valid staged keyed rfl
          (below block (by simp)) (rest.map .ok) with
        ⟨verified, refused, -⟩ | ⟨-, -, db, stopped, -⟩ |
        ⟨high, -, next, nextFlushed, nextPending, parent, nextStaged, -, continued⟩
      · exact absurd (accepts _ _ _ (linked verified)).1 refused
      · exact ⟨db, stopped⟩
      · rw [continued]
        refine ih nextStaged (fun later member => below later (by simp [member])) ?_
        intro verified
        rw [parent verified]
        exact (accepts _ _ _ (linked verified)).2 high

end Loop

theorem saturating_sub_eq_zero {left right : UInt64} :
    saturatingSub left right = 0 ↔ left ≤ right := by
  unfold saturatingSub
  split_ifs with ordered
  · grind
  · simp [(not_le.mp ordered).le]

theorem smallest_import_first_missing {ranges : List BlockRange} (canonical : Canonical ranges)
    (bounded : Bounded ranges) :
    (∀ number, number < smallestImportBlockNumber ranges → number ∈ denote ranges) ∧
      smallestImportBlockNumber ranges ∉ denote ranges := by
  cases ranges with
  | nil => simp [smallestImportBlockNumber]
  | cons head tail =>
      have headBound := bounded head (by simp)
      unfold maxBlockNumber at headBound
      simp only [smallestImportBlockNumber, List.head?_cons]
      split_ifs with atZero
      · refine ⟨fun number below => mem_denote_cons.mpr (.inl ⟨?_, ?_⟩), fun member => ?_⟩
        · rw [atZero]
          exact UInt64.zero_le
        · grind
        · rcases mem_denote_cons.mp member with inHead | inTail
          · grind
          · obtain ⟨later, laterMember, lower, -⟩ := inTail
            obtain ⟨gap, above, before⟩ := (canonical_cons.mp canonical).2.1 later laterMember
            grind
      · refine ⟨fun number below => absurd below UInt64.not_lt_zero, fun member => ?_⟩
        have least := canonical_head_least canonical member
        exact atZero (le_antisymm least UInt64.zero_le)

theorem import_writes_of_low {env : Environment} {chainId smallest : UInt64} {block : Block}
    (below : block.number < maxBlockNumber) (low : block.number + 1 ≤ smallest)
    (rest : List Block) : importWrites env chainId smallest (block :: rest) = [] := by
  have under : block.number < smallest := by
    unfold maxBlockNumber at below
    grind
  simp [importWrites, under.not_ge]

theorem import_blocks_cases {Failure : Type} (env : Environment) (register : Except String Unit)
    {db : KvDb} (items : List (Except Failure Block)) {chainId : UInt64} (verify : Bool)
    (isCancelled : Nat → Bool) {ranges : List BlockRange}
    (rangesRead : getRangesOfChainId db chainId = .ok ranges) :
    ((register ≠ .ok () ∨ ∃ failure rest, items = .error failure :: rest) ∧
        ∃ failure, importBlocks env register db items chainId verify isCancelled =
          ⟨db, false, .error failure⟩) ∨
      (importBlocks env register db items chainId verify isCancelled = ⟨db, false, .ok ()⟩ ∧
        (items = [] ∨ ∃ block rest, items = .ok block :: rest ∧
          block.number + 1 ≤ smallestImportBlockNumber ranges)) ∨
      ((∃ block rest, items = .ok block :: rest ∧
          smallestImportBlockNumber ranges < block.number + 1) ∧
        importBlocks env register db items chainId verify isCancelled =
          importLoop env chainId (smallestImportBlockNumber ranges) verify isCancelled 0
            ⟨db, batch, none⟩ items) := by
  unfold importBlocks
  match items, register with
  | [], .error text => exact .inl ⟨.inl (by simp), _, rfl⟩
  | [], .ok () =>
      have nothing : saturatingSub 0 (smallestImportBlockNumber ranges) = 0 :=
        saturating_sub_eq_zero.mpr UInt64.zero_le
      simp only [List.head?_nil, rangesRead, nothing, if_true]
      exact .inr (.inl ⟨trivial, .inl trivial⟩)
  | .error failure :: rest, _ => exact .inl ⟨.inr ⟨failure, rest, rfl⟩, _, rfl⟩
  | .ok block :: rest, .error text => exact .inl ⟨.inl (by simp), _, rfl⟩
  | .ok block :: rest, .ok () =>
      simp only [List.head?_cons, rangesRead, saturating_sub_eq_zero]
      split_ifs with low
      · exact .inr (.inl ⟨rfl, .inr ⟨block, rest, rfl, low⟩⟩)
      · exact .inr (.inr ⟨⟨block, rest, rfl, not_le.mp low⟩, rfl⟩)

theorem staged_start {db : KvDb} {contents : Contents} (represents : Represents db contents)
    (smallest : UInt64) (prevParentHash : Option Hash) :
    Staged contents smallest ⟨db, batch, prevParentHash⟩ [] [] :=
  ⟨represents, rfl, by simp⟩

section Whole

variable {Failure : Type} {env : Environment} {db : KvDb} {contents : Contents}
  {chainId : UInt64} {blocks : List Block} {ranges : List BlockRange}
  (valid : contents.Valid) (represents : Represents db contents)
  (rangesRead : getRangesOfChainId db chainId = .ok ranges)
  (below : ∀ block ∈ blocks, block.number < maxBlockNumber)

include valid represents rangesRead below

/-- An import stores a leading part of the missing blocks of the file, and all of them if it
succeeds on the whole file without being cancelled. -/
theorem import_blocks_writes (env : Environment) {items : List (Except Failure Block)}
    (verify : Bool)
    (keyed : verify = true →
      KeyedBelow env.codec contents chainId (smallestImportBlockNumber ranges))
    (read : ReadOf blocks items) (register : Except String Unit) (isCancelled : Nat → Bool) :
    ∃ written,
      written <+: importWrites env chainId (smallestImportBlockNumber ranges) blocks ∧
      Represents (importBlocks env register db items chainId verify isCancelled).db
        (contents.putAll written) ∧
      ((importBlocks env register db items chainId verify isCancelled).result = .ok () →
        (importBlocks env register db items chainId verify isCancelled).cancelled = false →
        items.length = blocks.length →
        written = importWrites env chainId (smallestImportBlockNumber ranges) blocks) := by
  rcases import_blocks_cases env register items verify isCancelled rangesRead with
    ⟨-, failure, failed⟩ | ⟨early, none⟩ | ⟨-, looped⟩
  · rw [failed]
    exact ⟨[], List.nil_prefix, represents, fun impossible => by cases impossible⟩
  · rw [early]
    refine ⟨[], List.nil_prefix, represents, fun _ _ lengths => ?_⟩
    rcases none with rfl | ⟨block, rest, rfl, low⟩
    · rw [List.length_eq_zero_iff.mp lengths.symm]
      rfl
    · obtain ⟨later, rfl, -⟩ := read_of_cons read
      rw [import_writes_of_low (below block (by simp)) low]
  · rw [looped]
    obtain ⟨written, leading, after, whole⟩ := import_loop_writes valid keyed isCancelled 0
      (staged_start represents _ none) read below
    exact ⟨written, by simpa using leading, after, fun result running lengths => by
      simpa using whole result running lengths⟩

theorem import_blocks_completes (Failure : Type) (env : Environment) :
    ∃ final, (importBlocks env (.ok ()) db (blocks.map .ok) chainId false (fun _ => false) :
        Outcome Failure) = ⟨final, false, .ok ()⟩ ∧
      Represents final (contents.putAll
        (importWrites env chainId (smallestImportBlockNumber ranges) blocks)) := by
  have read := read_of_map_ok Failure blocks
  obtain ⟨written, -, after, whole⟩ := import_blocks_writes valid represents
    rangesRead below env false (by simp) read (.ok ()) (fun _ => false)
  have completed : ∃ final, (importBlocks env (.ok ()) db (blocks.map .ok) chainId false
      (fun _ => false) : Outcome Failure) = ⟨final, false, .ok ()⟩ := by
    rcases import_blocks_cases env (.ok ())
        (blocks.map (.ok : Block → Except Failure Block)) false (fun _ => false)
        rangesRead with ⟨refused, -⟩ | ⟨early, -⟩ | ⟨-, looped⟩
    · rcases refused with unregistered | ⟨failure, rest, parseError⟩
      · exact absurd rfl unregistered
      · cases blocks <;> simp at parseError
    · exact ⟨db, early⟩
    · rw [looped]
      exact import_loop_completes valid nofun (staged_start represents _ none) below
        (fun _ _ => False) (fun _ _ _ impossible => impossible.elim) nofun
  obtain ⟨final, imported⟩ := completed
  rw [imported] at after whole
  rw [whole rfl rfl (by simp)] at after
  exact ⟨final, imported, after⟩

end Whole

end Bertha.Import
