import Bertha.Checks

/-!
# The replay loop

`runReplayLoop` of `go/replay/replay.go` over any implementation of the `Chain` interface,
with a record of the calls it makes.
-/

namespace Bertha.Replay

open Bertha.ChainAdapter Bertha.Checks Bertha.GethBlocks Bertha.GethConvert Bertha.GoBlockDb
open Bertha.HashHistory
open Bertha.BlockTypes (FixedBytes Hash)

set_option autoImplicit false

/-- The interface `Chain`. What a call does depends on the state that the earlier calls have
left, so it is any function of the calls so far. -/
structure Chain (State : Type) where
  info : ChainInfo
  getBlockHash : State → UInt64 → State × Hash
  cloneBlockHashHistory : State → State × BlockHashHistory
  applyBlock : State → GethBlock →
    State × Except Failure (List GethReceipt × StateRoot × GethBlock)
  maybeSnapshot : State → UInt64 → StateRoot → State × Except Failure StateRoot

inductive ChainCall where
  | getBlockHash (blockNumber : UInt64)
  | cloneBlockHashHistory
  | applyBlock (block : GethBlock)
  | maybeSnapshot (blockNumber : UInt64) (stateRoot : StateRoot)

inductive CheckCall where
  | checkBlockResults (block : ProtoBlock.Block) (receipts : List GethReceipt)
      (stateRoot : StateRoot) (hashOfParentBlock : Hash)
  | onBlockDone (block : GethBlock)
  | submit (block : ProtoBlock.Block) (hashHistory : Option BlockHashHistory)

structure ApplySide (State : Type) where
  chain : State
  calls : List ChainCall

structure CheckSide (Progress : Type) where
  checks : CheckState
  progress : Progress
  calls : List CheckCall

structure Setup (State Progress : Type) where
  chain : Chain State
  geth : GethLibraries
  codec : GoCodec
  onBlockDone : Option (Progress → GethBlock → Progress × Except String Unit)
  verifier : Bool

/-- One turn of a loop over the blocks: what the iterator yields and what the context
answers. -/
structure Turn where
  next : Except String ProtoBlock.Block
  ctxErr : Option String

def wrapFailure (what : String) : Failure → Failure
  | .error message => .error (what ++ ": " ++ message)
  | .panic message => .panic message

variable {State Progress : Type}

def callGetBlockHash (setup : Setup State Progress) (side : ApplySide State)
    (blockNumber : UInt64) : ApplySide State × Hash :=
  let (chain, hash) := setup.chain.getBlockHash side.chain blockNumber
  (⟨chain, side.calls ++ [.getBlockHash blockNumber]⟩, hash)

def callCloneBlockHashHistory (setup : Setup State Progress) (side : ApplySide State) :
    ApplySide State × BlockHashHistory :=
  let (chain, history) := setup.chain.cloneBlockHashHistory side.chain
  (⟨chain, side.calls ++ [.cloneBlockHashHistory]⟩, history)

def callApplyBlock (setup : Setup State Progress) (side : ApplySide State) (block : GethBlock) :
    ApplySide State × Except Failure (List GethReceipt × StateRoot × GethBlock) :=
  let (chain, outcome) := setup.chain.applyBlock side.chain block
  (⟨chain, side.calls ++ [.applyBlock block]⟩, outcome)

def callMaybeSnapshot (setup : Setup State Progress) (side : ApplySide State)
    (blockNumber : UInt64) (stateRoot : StateRoot) : ApplySide State × Except Failure StateRoot :=
  let (chain, outcome) := setup.chain.maybeSnapshot side.chain blockNumber stateRoot
  (⟨chain, side.calls ++ [.maybeSnapshot blockNumber stateRoot]⟩, outcome)

def callCheckBlockResults (setup : Setup State Progress) (side : CheckSide Progress)
    (block : ProtoBlock.Block) (receipts : List GethReceipt) (stateRoot : StateRoot)
    (hashOfParentBlock : Hash) : CheckSide Progress × ProtoBlock.Block × Except Failure Unit :=
  let (checks, block', outcome) := checkBlockResults setup.geth setup.codec setup.chain.info
    side.checks block receipts stateRoot hashOfParentBlock
  ({ side with
      checks := checks
      calls := side.calls ++ [.checkBlockResults block receipts stateRoot hashOfParentBlock] },
    block', outcome)

def callOnBlockDone (setup : Setup State Progress) (side : CheckSide Progress)
    (block : GethBlock) : CheckSide Progress × Except String Unit :=
  match setup.onBlockDone with
  | none => (side, .ok ())
  | some callback =>
      let (progress, outcome) := callback side.progress block
      ({ side with progress := progress, calls := side.calls ++ [.onBlockDone block] }, outcome)

def callSubmit (setup : Setup State Progress) (side : CheckSide Progress)
    (block : ProtoBlock.Block) (hashHistory : Option BlockHashHistory) : CheckSide Progress :=
  if setup.verifier then { side with calls := side.calls ++ [.submit block hashHistory] } else side

/-- The recorded hash of the parent, and the zero hash for block 0. -/
def readParentHash (setup : Setup State Progress) (side : ApplySide State)
    (gethBlock : GethBlock) : ApplySide State × Hash :=
  if numberU64 gethBlock > 0 then callGetBlockHash setup side (numberU64 gethBlock - 1)
  else (side, FixedBytes.zero 32)

/-- The hash history is captured before the block is applied. -/
def captureHistory (setup : Setup State Progress) (side : ApplySide State) :
    ApplySide State × Option BlockHashHistory :=
  if setup.verifier then
    let (side, history) := callCloneBlockHashHistory setup side
    (side, some history)
  else (side, none)

/-- `runReplayLoop`. A block that is changed in place goes on under its name with a prime. -/
def runReplayLoop (setup : Setup State Progress) (applySide : ApplySide State)
    (checkSide : CheckSide Progress) :
    List Turn → ApplySide State × CheckSide Progress × Except Failure Unit
  | [] => (applySide, checkSide, .ok ())
  | turn :: rest =>
      match turn.next with
      | .error err =>
          (applySide, checkSide, .error (.error s!"failed to get next block: {err}"))
      | .ok block =>
      match turn.ctxErr with
      | some err => (applySide, checkSide, .error (.error err))
      | none =>
      match convertToGethBlock setup.geth (some block) with
      | .error failure =>
          (applySide, checkSide, .error
            (wrapFailure s!"failed to convert block {block.number}" (convertFailure failure)))
      | .ok gethBlock =>
      let (applySide, hashOfParentBlock) := readParentHash setup applySide gethBlock
      let (applySide, hashHistoryClone) := captureHistory setup applySide
      match callApplyBlock setup applySide gethBlock with
      | (applySide, .error failure) =>
          (applySide, checkSide,
            .error (wrapFailure s!"failed to apply block {block.number}" failure))
      | (applySide, .ok (receipts, stateRoot, gethBlock')) =>
      match callMaybeSnapshot setup applySide (numberU64 gethBlock') stateRoot with
      | (applySide, .error failure) =>
          (applySide, checkSide,
            .error (wrapFailure s!"failed to create snapshot at block {block.number}" failure))
      | (applySide, .ok stateRoot) =>
      match callCheckBlockResults setup checkSide block receipts stateRoot hashOfParentBlock with
      | (checkSide, _, .error failure) =>
          (applySide, checkSide,
            .error (wrapFailure s!"failed to check block results for block {block.number}" failure))
      | (checkSide, block', .ok ()) =>
      match callOnBlockDone setup checkSide gethBlock' with
      | (checkSide, .error err) =>
          (applySide, checkSide, .error (.error
            s!"failed to execute onBlockDone callback for block {block.number}: {err}"))
      | (checkSide, .ok ()) =>
          runReplayLoop setup applySide (callSubmit setup checkSide block' hashHistoryClone) rest

/-! ## The chain of the state database -/

section StateChain

variable {Details Correction FailedBundle World : Type} [DecidableEq Details] [Inhabited Details]

def stateChain (execution : Execution Details Correction FailedBundle World) (info : ChainInfo) :
    Chain (StateChainAdapter Details Correction FailedBundle World) where
  info := info
  getBlockHash adapter number := (adapter, getBlockHash adapter.blockHashHistory number)
  cloneBlockHashHistory adapter := (adapter, adapter.blockHashHistory)
  applyBlock := ChainAdapter.applyBlock execution
  maybeSnapshot := ChainAdapter.maybeSnapshot execution

end StateChain

def plainSetup : Setup (StateChainAdapter Unit Unit Unit Unit) Nat where
  chain := stateChain plainExecution (stateChainInfo (plainAdapter .empty))
  geth := plainGeth
  codec := numberCodec
  onBlockDone := some fun count _ => (count + 1, .ok ())
  verifier := true

def plainChecks : CheckState := ⟨∅, ⟨.off, false, false, false⟩⟩

end Bertha.Replay
