import Bertha.BlockRanges
import Bertha.Headers

/-!
# Subscription to new blocks

`block_subscription_task` of `blockservice/src/json_rpc/block_subscription.rs` with its
bounded channel, as a step relation. The task asks the source for the header and then for
the receipts of one number, retries while either is not found, sends the block and goes on
with the next number; another error is sent as the last item. The receiver takes items at
any time and may be dropped at any time, which ends the task at its next wait. The number
is increased in 64-bit arithmetic that wraps, as in a release build.

As long as the source does not serve block `2^64 - 1`, the items sent are the blocks of the
start number and its successors, and at most one error behind them.
-/

namespace Bertha.BlockSubscription

open Bertha.BlockRanges Bertha.Headers
open Bertha.BlockTypes (Block Transaction TransactionReceipt U256 Withdrawal)

set_option autoImplicit false

/-- `Error` of `json_rpc/error.rs`. -/
inductive JsonRpcError where
  | rpc (message : String)
  | serde (message : String)
  | notFound
deriving DecidableEq, Repr

structure BlockHeaderWithTransactionsAndWithdrawals where
  blockHeader : BlockHeader
  transactions : List Transaction
  withdrawals : List Withdrawal

def toLeastSignificantU64 (value : U256) : UInt64 := UInt64.ofBitVec (value.setWidth 64)

def fromParts (header : BlockHeader) (transactions : List Transaction)
    (receipts : List TransactionReceipt) (withdrawals : List Withdrawal) : Block where
  parentHash := header.parentHash
  ommersHash := header.ommersHash
  beneficiary := header.beneficiary
  stateRoot := header.stateRoot
  difficulty := toLeastSignificantU64 header.difficulty
  number := header.number
  gasLimit := header.gasLimit
  timestamp := header.timestamp
  extraData := header.extraData
  prevRandao := header.prevRandao
  nonce := header.nonce
  transactions
  receipts
  baseFeePerGas := header.baseFeePerGas
  withdrawalsRoot := header.withdrawalsRoot
  withdrawals
  blobGasUsed := header.blobGasUsed
  excessBlobGas := header.excessBlobGas
  parentBeaconBlockRoot := header.parentBeaconBlockRoot
  requestsHash := header.requestsHash
  ommerHeaders := []
  verkleStateRoot := none
  binaryStateRoot := none

/-- The replies that a source may give to its two requests, at any time. -/
structure Source where
  header : UInt64 → Except JsonRpcError BlockHeaderWithTransactionsAndWithdrawals → Prop
  receipts : UInt64 → Except JsonRpcError (List TransactionReceipt) → Prop

def Source.Numbered (source : Source) : Prop :=
  ∀ number parts, source.header number (.ok parts) → parts.blockHeader.number = number

def Source.Serves (source : Source) (number : UInt64) : Prop :=
  ∃ receipts, source.receipts number (.ok receipts)

inductive Phase where
  | requestHeader
  | requestReceipts (parts : BlockHeaderWithTransactionsAndWithdrawals)
  | sendBlock (block : Block)
  | sendError (error : JsonRpcError)
  | finished
  | panicked

def channelSize : Nat := 100

/-- `Duration::from_millis(10)` in nanoseconds. -/
def initialTimeout : Nat := 10000000

/-- `Duration::MAX` in nanoseconds. -/
def durationMax : Nat := 2 ^ 64 * 1000000000 - 1

/-- The task and its channel, which holds the items sent and not yet delivered. -/
structure Subscription where
  phase : Phase
  blockNumber : UInt64
  timeout : Nat
  sent : List (Except JsonRpcError Block)
  delivered : Nat
  receiverAlive : Bool

def subscribeToBlocks (startBlock : UInt64) : Subscription where
  phase := .requestHeader
  blockNumber := startBlock
  timeout := initialTimeout
  sent := []
  delivered := 0
  receiverAlive := true

/-- Sleeping after a reply that the block does not exist yet: the timeout is doubled, which
panics when it leaves the range of a `Duration`. -/
def Subscription.retry (state : Subscription) : Subscription :=
  if 2 * state.timeout ≤ durationMax then { state with timeout := 2 * state.timeout }
  else { state with phase := .panicked }

def Subscription.HasRoom (state : Subscription) : Prop :=
  state.receiverAlive = true ∧ state.sent.length < state.delivered + channelSize

def Subscription.poll (state : Subscription) :
    Option (Except JsonRpcError Block × Subscription) :=
  state.sent[state.delivered]?.map fun item =>
    (item, { state with delivered := state.delivered + 1 })

/-- One step of the task. The `closed` branch of the select may be taken in every wait of the
other branch, but not while the error is sent. -/
inductive TaskStep (source : Source) : Subscription → Subscription → Prop
  | headerFound {state : Subscription} {parts : BlockHeaderWithTransactionsAndWithdrawals}
      (phase : state.phase = .requestHeader)
      (reply : source.header state.blockNumber (.ok parts)) :
      TaskStep source state { state with phase := .requestReceipts parts }
  | headerMissing {state : Subscription} (phase : state.phase = .requestHeader)
      (reply : source.header state.blockNumber (.error .notFound)) :
      TaskStep source state state.retry
  | headerFails {state : Subscription} {error : JsonRpcError}
      (phase : state.phase = .requestHeader)
      (reply : source.header state.blockNumber (.error error)) (other : error ≠ .notFound) :
      TaskStep source state { state with phase := .sendError error }
  | receiptsFound {state : Subscription} {parts : BlockHeaderWithTransactionsAndWithdrawals}
      {receipts : List TransactionReceipt} (phase : state.phase = .requestReceipts parts)
      (reply : source.receipts state.blockNumber (.ok receipts)) :
      TaskStep source state { state with
        phase := .sendBlock
          (fromParts parts.blockHeader parts.transactions receipts parts.withdrawals) }
  | receiptsMissing {state : Subscription} {parts : BlockHeaderWithTransactionsAndWithdrawals}
      (phase : state.phase = .requestReceipts parts)
      (reply : source.receipts state.blockNumber (.error .notFound)) :
      TaskStep source state state.retry
  | receiptsFail {state : Subscription} {parts : BlockHeaderWithTransactionsAndWithdrawals}
      {error : JsonRpcError} (phase : state.phase = .requestReceipts parts)
      (reply : source.receipts state.blockNumber (.error error)) (other : error ≠ .notFound) :
      TaskStep source state { state with phase := .sendError error }
  | blockSent {state : Subscription} {block : Block} (phase : state.phase = .sendBlock block)
      (room : state.HasRoom) :
      TaskStep source state { state with
        phase := .requestHeader
        blockNumber := state.blockNumber + 1
        timeout := initialTimeout
        sent := state.sent ++ [.ok block] }
  | blockRefused {state : Subscription} {block : Block} (phase : state.phase = .sendBlock block)
      (dropped : state.receiverAlive = false) :
      TaskStep source state { state with phase := .finished }
  | errorSent {state : Subscription} {error : JsonRpcError}
      (phase : state.phase = .sendError error) (room : state.HasRoom) :
      TaskStep source state { state with
        phase := .finished
        sent := state.sent ++ [.error error] }
  | errorRefused {state : Subscription} {error : JsonRpcError}
      (phase : state.phase = .sendError error) (dropped : state.receiverAlive = false) :
      TaskStep source state { state with phase := .finished }
  | closed {state : Subscription}
      (waiting : state.phase ≠ .finished ∧ state.phase ≠ .panicked ∧
        ∀ error, state.phase ≠ .sendError error)
      (dropped : state.receiverAlive = false) :
      TaskStep source state { state with phase := .finished }

inductive ReceiverStep : Subscription → Subscription → Prop
  | delivers {state next : Subscription} {item : Except JsonRpcError Block}
      (alive : state.receiverAlive = true) (polled : state.poll = some (item, next)) :
      ReceiverStep state next
  | drops {state : Subscription} : ReceiverStep state { state with receiverAlive := false }

def Step (source : Source) (state next : Subscription) : Prop :=
  TaskStep source state next ∨ ReceiverStep state next

abbrev Run (source : Source) : Subscription → Subscription → Prop :=
  Relation.ReflTransGen (Step source)

structure BuiltFor (source : Source) (number : UInt64) (block : Block) : Prop where
  numbered : block.number = number
  parts : ∃ parts receipts, source.header number (.ok parts) ∧
    source.receipts number (.ok receipts) ∧
    block = fromParts parts.blockHeader parts.transactions receipts parts.withdrawals

def Successive (source : Source) (start : UInt64) (blocks : List Block) : Prop :=
  ∀ position block, blocks[position]? = some block →
    ∃ number : UInt64, number.toNat = start.toNat + position ∧ BuiltFor source number block

def GapFree (source : Source) (start : UInt64) (sent : List (Except JsonRpcError Block)) : Prop :=
  ∃ (blocks : List Block) (failure : Option JsonRpcError),
    sent = blocks.map .ok ++ failure.toList.map .error ∧ Successive source start blocks

structure Working (start : UInt64) (blocks : List Block) (state : Subscription) : Prop where
  sent : state.sent = blocks.map .ok
  blockNumber : state.blockNumber.toNat = start.toNat + blocks.length

/-- What holds in each phase after the given blocks have been sent. -/
def PhaseHolds (source : Source) (start : UInt64) (blocks : List Block) (state : Subscription) :
    Prop :=
  match state.phase with
  | .requestHeader => Working start blocks state
  | .requestReceipts parts =>
      Working start blocks state ∧ source.header state.blockNumber (.ok parts)
  | .sendBlock block => Working start blocks state ∧ BuiltFor source state.blockNumber block
  | .sendError _ => state.sent = blocks.map .ok
  | .panicked => state.sent = blocks.map .ok
  | .finished => (state.sent = blocks.map .ok ∧ state.receiverAlive = false) ∨
      ∃ error, state.sent = blocks.map .ok ++ [.error error]

def Valid (source : Source) (start : UInt64) (state : Subscription) : Prop :=
  ∃ blocks, Successive source start blocks ∧ PhaseHolds source start blocks state

variable {source : Source} {start : UInt64} {state next : Subscription}

theorem valid_subscribe (source : Source) (start : UInt64) :
    Valid source start (subscribeToBlocks start) :=
  ⟨[], by simp [Successive], rfl, rfl⟩

theorem PhaseHolds.sent_eq {blocks : List Block} (holds : PhaseHolds source start blocks state) :
    ∃ failure : Option JsonRpcError,
      state.sent = blocks.map .ok ++ failure.toList.map .error ∧
      (failure.isSome → state.phase = .finished) := by
  unfold PhaseHolds at holds
  split at holds
  · exact ⟨none, by simpa using holds.sent, by simp⟩
  · exact ⟨none, by simpa using holds.1.sent, by simp⟩
  · exact ⟨none, by simpa using holds.1.sent, by simp⟩
  · exact ⟨none, by simpa using holds, by simp⟩
  · exact ⟨none, by simpa using holds, by simp⟩
  · rename_i phase
    rcases holds with ⟨sent, -⟩ | ⟨error, sent⟩
    · exact ⟨none, by simpa using sent, by simp⟩
    · exact ⟨some error, by simpa using sent, fun _ => phase⟩

theorem Valid.gap_free (valid : Valid source start state) :
    GapFree source start state.sent := by
  obtain ⟨blocks, successive, holds⟩ := valid
  obtain ⟨failure, sent, -⟩ := holds.sent_eq
  exact ⟨blocks, failure, sent, successive⟩

theorem Valid.finished_of_error (valid : Valid source start state) {error : JsonRpcError}
    (member : .error error ∈ state.sent) : state.phase = .finished := by
  obtain ⟨blocks, -, holds⟩ := valid
  obtain ⟨failure, sent, finished⟩ := holds.sent_eq
  apply finished
  cases failure with
  | some _ => rfl
  | none =>
      rw [sent] at member
      simp at member

theorem Valid.finished_cause (valid : Valid source start state)
    (finished : state.phase = .finished) :
    state.receiverAlive = false ∨ ∃ error, .error error ∈ state.sent := by
  obtain ⟨blocks, -, holds⟩ := valid
  simp only [PhaseHolds, finished] at holds
  rcases holds with ⟨-, dropped⟩ | ⟨error, sent⟩
  · exact .inl dropped
  · exact .inr ⟨error, by simp [sent]⟩

theorem Valid.sent_block (valid : Valid source start state) {position : Nat} {block : Block}
    (found : state.sent[position]? = some (.ok block)) :
    ∃ number : UInt64, number.toNat = start.toNat + position ∧ BuiltFor source number block := by
  obtain ⟨blocks, failure, sent, successive⟩ := valid.gap_free
  rw [sent] at found
  by_cases inside : position < blocks.length
  · rw [List.getElem?_append_left (by simpa using inside), List.getElem?_map] at found
    obtain ⟨other, there, same⟩ := Option.map_eq_some_iff.mp found
    cases same
    exact successive position block there
  · rw [List.getElem?_append_right (by simpa using inside)] at found
    have member := List.mem_of_getElem? found
    simp at member

theorem successive_append {blocks : List Block} {block : Block} {number : UInt64}
    (successive : Successive source start blocks)
    (position : number.toNat = start.toNat + blocks.length)
    (built : BuiltFor source number block) : Successive source start (blocks ++ [block]) := by
  intro index other found
  rcases Nat.lt_or_ge index blocks.length with earlier | later
  · rw [List.getElem?_append_left earlier] at found
    exact successive index other found
  · rw [List.getElem?_append_right later] at found
    have last : index = blocks.length := by
      have bound := (List.getElem?_eq_some_iff.mp found).1
      simp at bound
      omega
    subst last
    cases (by simpa using found : block = other)
    exact ⟨number, position, built⟩

theorem toNat_succ {number : UInt64} (notLast : number ≠ maxBlockNumber) :
    (number + 1).toNat = number.toNat + 1 := by
  have bound := number.toNat_lt
  have different : number.toNat ≠ 2 ^ 64 - 1 := by
    intro same
    exact notLast (UInt64.toNat_inj.mp same)
  rw [UInt64.toNat_add, UInt64.toNat_one, Nat.mod_eq_of_lt]
  omega

theorem valid_retry (valid : Valid source start state)
    (waiting : state.phase = .requestHeader ∨ ∃ parts, state.phase = .requestReceipts parts) :
    Valid source start state.retry := by
  obtain ⟨blocks, successive, holds⟩ := valid
  refine ⟨blocks, successive, ?_⟩
  unfold Subscription.retry
  rcases waiting with phase | ⟨parts, phase⟩
  · simp only [PhaseHolds, phase] at holds
    split
    · simpa only [PhaseHolds, phase] using ⟨holds.sent, holds.blockNumber⟩
    · exact holds.sent
  · simp only [PhaseHolds, phase] at holds
    split
    · simpa only [PhaseHolds, phase] using ⟨⟨holds.1.sent, holds.1.blockNumber⟩, holds.2⟩
    · exact holds.1.sent

/-- Each step of the task keeps the items successive; the number of the next block does not
wrap because the last block is not served. -/
theorem valid_task_step (numbered : source.Numbered) (notServed : ¬ source.Serves maxBlockNumber)
    (valid : Valid source start state) (step : TaskStep source state next) :
    Valid source start next := by
  cases step with
  | headerMissing phase => exact valid_retry valid (.inl phase)
  | receiptsMissing phase => exact valid_retry valid (.inr ⟨_, phase⟩)
  | headerFound phase reply =>
      obtain ⟨blocks, successive, holds⟩ := valid
      simp only [PhaseHolds, phase] at holds
      exact ⟨blocks, successive, ⟨holds.sent, holds.blockNumber⟩, reply⟩
  | headerFails phase =>
      obtain ⟨blocks, successive, holds⟩ := valid
      simp only [PhaseHolds, phase] at holds
      exact ⟨blocks, successive, holds.sent⟩
  | receiptsFound phase reply =>
      obtain ⟨blocks, successive, holds⟩ := valid
      simp only [PhaseHolds, phase] at holds
      exact ⟨blocks, successive, ⟨holds.1.sent, holds.1.blockNumber⟩,
        numbered _ _ holds.2, _, _, holds.2, reply, rfl⟩
  | receiptsFail phase =>
      obtain ⟨blocks, successive, holds⟩ := valid
      simp only [PhaseHolds, phase] at holds
      exact ⟨blocks, successive, holds.1.sent⟩
  | @blockSent block phase room =>
      obtain ⟨blocks, successive, holds⟩ := valid
      simp only [PhaseHolds, phase] at holds
      obtain ⟨working, built⟩ := holds
      have notLast : state.blockNumber ≠ maxBlockNumber := by
        obtain ⟨parts, receipts, -, served, -⟩ := built.parts
        intro last
        rw [last] at served
        exact notServed ⟨receipts, served⟩
      refine ⟨blocks ++ [block], successive_append successive working.blockNumber built, ?_, ?_⟩
      · simp [working.sent]
      · simp only [toNat_succ notLast, working.blockNumber, List.length_append,
          List.length_singleton]
        omega
  | blockRefused phase dropped =>
      obtain ⟨blocks, successive, holds⟩ := valid
      simp only [PhaseHolds, phase] at holds
      exact ⟨blocks, successive, .inl ⟨holds.1.sent, dropped⟩⟩
  | @errorSent error phase room =>
      obtain ⟨blocks, successive, holds⟩ := valid
      simp only [PhaseHolds, phase] at holds
      exact ⟨blocks, successive, .inr ⟨error, by rw [holds]⟩⟩
  | errorRefused phase dropped =>
      obtain ⟨blocks, successive, holds⟩ := valid
      simp only [PhaseHolds, phase] at holds
      exact ⟨blocks, successive, .inl ⟨holds, dropped⟩⟩
  | closed waiting dropped =>
      obtain ⟨blocks, successive, holds⟩ := valid
      obtain ⟨failure, sent, finished⟩ := holds.sent_eq
      cases failure with
      | none => exact ⟨blocks, successive, .inl ⟨by simpa using sent, dropped⟩⟩
      | some _ => exact absurd (finished rfl) waiting.1

theorem valid_receiver (valid : Valid source start state) {delivered : Nat} {alive : Bool}
    (dropped : state.receiverAlive = false → alive = false) :
    Valid source start { state with delivered := delivered, receiverAlive := alive } := by
  obtain ⟨blocks, successive, holds⟩ := valid
  refine ⟨blocks, successive, ?_⟩
  unfold PhaseHolds at holds ⊢
  dsimp only
  split at holds
  · exact ⟨holds.sent, holds.blockNumber⟩
  · exact ⟨⟨holds.1.sent, holds.1.blockNumber⟩, holds.2⟩
  · exact ⟨⟨holds.1.sent, holds.1.blockNumber⟩, holds.2⟩
  · exact holds
  · exact holds
  · exact holds.imp (fun stopped => ⟨stopped.1, dropped stopped.2⟩) id

theorem valid_poll {item : Except JsonRpcError Block} (valid : Valid source start state)
    (polled : state.poll = some (item, next)) : Valid source start next := by
  obtain ⟨_, _, same⟩ := Option.map_eq_some_iff.mp polled
  cases same
  exact valid_receiver valid id

/-- In every run the items sent are successive blocks and at most one error. -/
theorem run_valid (numbered : source.Numbered) (notServed : ¬ source.Serves maxBlockNumber)
    (run : Run source (subscribeToBlocks start) state) : Valid source start state := by
  induction run with
  | refl => exact valid_subscribe source start
  | tail _ step valid =>
      rcases step with task | receiver
      · exact valid_task_step numbered notServed valid task
      · cases receiver with
        | delivers _ polled => exact valid_poll valid polled
        | drops => exact valid_receiver valid fun _ => rfl

theorem finished_step (finished : state.phase = .finished) (step : Step source state next) :
    next.phase = .finished ∧ next.sent = state.sent := by
  rcases step with task | receiver
  · cases task with
    | closed waiting => exact absurd finished waiting.1
    | _ phase =>
        rw [finished] at phase
        cases phase
  · cases receiver with
    | delivers _ polled =>
        obtain ⟨_, _, same⟩ := Option.map_eq_some_iff.mp polled
        cases same
        exact ⟨finished, rfl⟩
    | drops => exact ⟨finished, rfl⟩

theorem finished_run (finished : state.phase = .finished) (run : Run source state next) :
    next.phase = .finished ∧ next.sent = state.sent := by
  induction run with
  | refl => exact ⟨finished, rfl⟩
  | tail _ step inductionHypothesis =>
      obtain ⟨stays, same⟩ := finished_step inductionHypothesis.1 step
      exact ⟨stays, same.trans inductionHypothesis.2⟩

theorem task_sends_block {parts : BlockHeaderWithTransactionsAndWithdrawals}
    {receipts : List TransactionReceipt} (phase : state.phase = .requestHeader)
    (header : source.header state.blockNumber (.ok parts))
    (served : source.receipts state.blockNumber (.ok receipts)) (room : state.HasRoom) :
    Relation.ReflTransGen (TaskStep source) state { state with
      phase := .requestHeader
      blockNumber := state.blockNumber + 1
      timeout := initialTimeout
      sent := state.sent ++
        [.ok (fromParts parts.blockHeader parts.transactions receipts parts.withdrawals)] } := by
  let found := { state with phase := .requestReceipts parts }
  let built := { state with
    phase := .sendBlock
      (fromParts parts.blockHeader parts.transactions receipts parts.withdrawals) }
  have first : TaskStep source state found := .headerFound phase header
  have second : TaskStep source found built := .receiptsFound rfl served
  exact ((Relation.ReflTransGen.single first).tail second).tail (.blockSent rfl room)

end Bertha.BlockSubscription
