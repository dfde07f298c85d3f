import Bertha.BlockIteration
import Bertha.BlockSubscription
import Bertha.ImportExact

/-!
# Live synchronisation

`sync` of `blockservice/src/cmd/start.rs` as a step relation over the database and the
streams of the configured chains. Opening a stream reads the last stored block of its chain
and subscribes to the blocks after it; the loop then stores the items of the streams in any
interleaving. It stops on the first error or by cancellation, which drops all streams, and
may be started again on the database it left.

A chain's numbers from its first start on stay one contiguous range, because the block that a
stream delivers next is always the one after the last stored block.
-/

namespace Bertha.LiveSync

open Bertha.BigEndian Bertha.BlockDb Bertha.BlockDbContents Bertha.BlockDbInvariant
open Bertha.BlockIteration Bertha.BlockRanges Bertha.BlockSubscription Bertha.Conversion
open Bertha.ImportExact Bertha.OrderedStore
open Bertha.BlockTypes (Block Error)

set_option autoImplicit false

structure ChainConfig where
  id : UInt64
  jsonRpc : Option String

/-- The number after the last stored block, or zero. -/
def startBlock (codec : WireCodec) (db : KvDb) (chainId : UInt64) : Except Error UInt64 :=
  match (iterate codec db chainId maxBlockNumber .reverse).head? with
  | none => .ok 0
  | some (.ok (_, block)) => .ok (block.number + 1)
  | some (.error error) => .error error

inductive SyncPhase where
  | stopped
  | opening (configs : List ChainConfig)
  | receiving

/-- The database and the streams of a `sync`, with the number at which each chain was first
subscribed to. -/
structure SyncState where
  db : KvDb
  phase : SyncPhase
  streams : UInt64 → Option Subscription
  firstStart : UInt64 → Option UInt64

def SyncState.stop (state : SyncState) : SyncState :=
  { state with phase := .stopped, streams := fun _ => none }

def SyncState.setStream (state : SyncState) (chainId : UInt64) (stream : Option Subscription) :
    SyncState :=
  { state with streams := Function.update state.streams chainId stream }

/-- `streams.insert` with a new subscription, which replaces an earlier one of the chain. -/
def SyncState.subscribe (state : SyncState) (chainId start : UInt64) : SyncState :=
  { state.setStream chainId (some (subscribeToBlocks start)) with
    firstStart := Function.update state.firstStart chainId
      (some ((state.firstStart chainId).getD start)) }

inductive SyncStep (codec : WireCodec) (sources : UInt64 → Source) : SyncState → SyncState → Prop
  | starts {state : SyncState} (configs : List ChainConfig) (phase : state.phase = .stopped) :
      SyncStep codec sources state { state with phase := .opening configs }
  | skips {state : SyncState} {config : ChainConfig} {configs : List ChainConfig}
      (phase : state.phase = .opening (config :: configs)) (absent : config.jsonRpc = none) :
      SyncStep codec sources state { state with phase := .opening configs }
  | opens {state : SyncState} {config : ChainConfig} {configs : List ChainConfig}
      {server : String} {start : UInt64}
      (phase : state.phase = .opening (config :: configs))
      (present : config.jsonRpc = some server)
      (first : startBlock codec state.db config.id = .ok start) :
      SyncStep codec sources state
        { state.subscribe config.id start with phase := .opening configs }
  | opened {state : SyncState} (phase : state.phase = .opening []) :
      SyncStep codec sources state { state with phase := .receiving }
  | task {state : SyncState} {chainId : UInt64} {stream next : Subscription}
      (found : state.streams chainId = some stream)
      (step : TaskStep (sources chainId) stream next) :
      SyncStep codec sources state (state.setStream chainId (some next))
  | stores {state : SyncState} {chainId : UInt64} {stream next : Subscription} {block : Block}
      {updated : KvDb} (phase : state.phase = .receiving)
      (found : state.streams chainId = some stream)
      (polled : stream.poll = some (.ok block, next))
      (stored : put codec state.db chainId block = .ok updated) :
      SyncStep codec sources state { state.setStream chainId (some next) with db := updated }
  | streamEnds {state : SyncState} {chainId : UInt64} {stream : Subscription}
      (phase : state.phase = .receiving) (found : state.streams chainId = some stream)
      (ended : stream.phase = .finished ∨ stream.phase = .panicked)
      (nothing : stream.poll = none) :
      SyncStep codec sources state (state.setStream chainId none)
  | openFails {state : SyncState} {config : ChainConfig} {configs : List ChainConfig}
      {error : Error} (phase : state.phase = .opening (config :: configs))
      (failed : startBlock codec state.db config.id = .error error) :
      SyncStep codec sources state state.stop
  /-- `NetworkSource::try_new` rejects the server. -/
  | connectFails {state : SyncState} {config : ChainConfig} {configs : List ChainConfig}
      (phase : state.phase = .opening (config :: configs)) :
      SyncStep codec sources state state.stop
  | streamFails {state : SyncState} {chainId : UInt64} {stream next : Subscription}
      {error : JsonRpcError} (phase : state.phase = .receiving)
      (found : state.streams chainId = some stream)
      (polled : stream.poll = some (.error error, next)) :
      SyncStep codec sources state state.stop
  | putFails {state : SyncState} {chainId : UInt64} {stream next : Subscription} {block : Block}
      (phase : state.phase = .receiving) (found : state.streams chainId = some stream)
      (polled : stream.poll = some (.ok block, next)) :
      SyncStep codec sources state state.stop
  | ends {state : SyncState} (phase : state.phase = .receiving)
      (nothing : ∀ chainId, state.streams chainId = none) :
      SyncStep codec sources state state.stop
  | cancelled {state : SyncState} : SyncStep codec sources state state.stop

abbrev SyncRun (codec : WireCodec) (sources : UInt64 → Source) : SyncState → SyncState → Prop :=
  Relation.ReflTransGen (SyncStep codec sources)

def initial (db : KvDb) : SyncState where
  db := db
  phase := .stopped
  streams _ := none
  firstStart _ := none

def IsStored (db : KvDb) (chainId number : UInt64) : Prop := (getBytes db chainId number).isSome

def Keyed (codec : WireCodec) (db : KvDb) : Prop :=
  ∀ chainId number data block, getBytes db chainId number = some data →
    decodeBlock codec data = .ok block → block.number = number

@[mk_iff next_number_iff]
structure NextNumber (db : KvDb) (chainId : UInt64) (following : Nat) : Prop where
  above : ∀ number, IsStored db chainId number → number.toNat < following
  last : 0 < following → ∃ number : UInt64, number.toNat + 1 = following ∧
    IsStored db chainId number

theorem NextNumber.unique {db : KvDb} {chainId : UInt64} {following other : Nat}
    (left : NextNumber db chainId following) (right : NextNumber db chainId other) :
    following = other := by
  rcases Nat.lt_trichotomy following other with less | same | greater
  · obtain ⟨number, last, stored⟩ := right.last (by omega)
    have bound := left.above number stored
    omega
  · exact same
  · obtain ⟨number, last, stored⟩ := left.last (by omega)
    have bound := right.above number stored
    omega

theorem start_block_cons {codec : WireCodec} {db : KvDb} {chainId number start : UInt64}
    {data : Bytes} {rest : List (Except Error (UInt64 × Bytes))}
    (iterated : iterateBytes db chainId maxBlockNumber .reverse = .ok (number, data) :: rest)
    (found : startBlock codec db chainId = .ok start) :
    ∃ block, decodeBlock codec data = .ok block ∧ block.number + 1 = start := by
  unfold startBlock iterate at found
  rw [iterated, List.map_cons, List.head?_cons] at found
  cases decoded : decodeBlock codec data with
  | error error => simp [bind, Except.bind, decoded] at found
  | ok block =>
      refine ⟨block, rfl, ?_⟩
      simpa [bind, Except.bind, pure, Except.pure, decoded] using found

theorem no_block_at_limit {db : KvDb} (sound : Sound db) (chainId : UInt64) :
    getBytes db chainId maxBlockNumber = none := by
  obtain ⟨contents, valid, -, represents⟩ := sound
  exact (metadata_consistent_iff.mpr ⟨contents, valid, represents⟩).bounded chainId

theorem start_block_next {codec : WireCodec} {db : KvDb} (sound : Sound db)
    (keyed : Keyed codec db) {chainId start : UInt64}
    (found : startBlock codec db chainId = .ok start) :
    NextNumber db chainId start.toNat := by
  obtain ⟨items, iterated, descending, members⟩ :=
    iterate_bytes_reverse (sound_known sound) chainId maxBlockNumber
  have highest : ∀ number : UInt64, number ≤ maxBlockNumber := fun number => by
    have bound := number.toNat_lt
    rw [UInt64.le_iff_toNat_le]
    exact Nat.le_of_lt_succ bound
  cases items with
  | nil =>
      simp only [startBlock, iterate, iterated] at found
      cases found
      have nothing : ∀ number, ¬ IsStored db chainId number := by
        intro number stored
        obtain ⟨data, present⟩ := Option.isSome_iff_exists.mp stored
        have member := (members number data).mpr ⟨present, highest number⟩
        cases member
      exact ⟨fun number stored => absurd stored (nothing number), fun positive => by cases positive⟩
  | cons item items =>
      obtain ⟨number, data⟩ := item
      obtain ⟨present, -⟩ := (members number data).mp List.mem_cons_self
      have below : number ≠ maxBlockNumber := by
        rintro rfl
        rw [no_block_at_limit sound] at present
        cases present
      obtain ⟨block, decoded, rfl⟩ := start_block_cons iterated found
      rw [keyed chainId number data block present decoded, toNat_succ below]
      constructor
      · intro other stored
        obtain ⟨otherData, otherPresent⟩ := Option.isSome_iff_exists.mp stored
        rcases List.mem_cons.mp ((members other otherData).mpr ⟨otherPresent, highest other⟩)
          with same | later
        · cases same
          omega
        · have less : other.toNat < number.toNat :=
            UInt64.lt_iff_toNat_lt.mp ((List.pairwise_cons.mp descending).1 _ later)
          omega
      · intro _
        exact ⟨number, rfl, Option.isSome_iff_exists.mpr ⟨data, present⟩⟩

/-- The numbers from `first` up to the last stored block are all stored. -/
structure Filled (db : KvDb) (chainId first : UInt64) (following : Nat) : Prop where
  next : NextNumber db chainId following
  reached : first.toNat ≤ following
  stored : ∀ number, first ≤ number → number.toNat < following → IsStored db chainId number

section Stores

variable {codec : WireCodec} {db updated : KvDb} {chainId : UInt64} {block : Block}
variable (stored : put codec db chainId block = .ok updated)
include stored

theorem is_stored_put (other number : UInt64) :
    IsStored updated other number ↔
      (chainId = other ∧ block.number = number) ∨ IsStored db other number := by
  unfold IsStored
  rw [get_bytes_put_bytes stored other number]
  split
  · simp_all
  · simp_all

theorem next_number_put_of_ne {other : UInt64} (different : chainId ≠ other) {following : Nat}
    (next : NextNumber db other following) : NextNumber updated other following := by
  simpa only [next_number_iff, is_stored_put stored, different, false_and, false_or] using next

theorem next_number_put (next : NextNumber db chainId block.number.toNat) :
    NextNumber updated chainId (block.number.toNat + 1) := by
  constructor
  · intro number present
    rcases (is_stored_put stored chainId number).mp present with ⟨-, same⟩ | before
    · rw [← same]
      exact Nat.lt_succ_self _
    · exact Nat.lt_succ_of_lt (next.above number before)
  · intro _
    exact ⟨block.number, rfl, (is_stored_put stored chainId _).mpr (.inl ⟨rfl, rfl⟩)⟩

theorem filled_put_of_ne {other first : UInt64} (different : chainId ≠ other) {following : Nat}
    (filled : Filled db other first following) : Filled updated other first following :=
  ⟨next_number_put_of_ne stored different filled.next, filled.reached, fun number above below =>
    (is_stored_put stored other number).mpr (.inr (filled.stored number above below))⟩

theorem filled_put {first : UInt64} (filled : Filled db chainId first block.number.toNat) :
    Filled updated chainId first (block.number.toNat + 1) := by
  refine ⟨next_number_put stored filled.next, Nat.le_succ_of_le filled.reached, ?_⟩
  intro number above below
  rw [is_stored_put stored]
  rcases Nat.lt_or_ge number.toNat block.number.toNat with earlier | later
  · exact .inr (filled.stored number above earlier)
  · have same : block.number.toNat = number.toNat := by omega
    exact .inl ⟨rfl, UInt64.toNat_inj.mp same⟩

theorem keyed_put (keyed : Keyed codec db) (lossless : DecodesBack codec block) :
    Keyed codec updated := by
  intro other number data decoded present decodes
  rw [get_bytes_put_bytes stored other number] at present
  split at present
  · rename_i same
    cases present
    rw [decode_encode_block lossless] at decodes
    cases decodes
    exact same.2
  · exact keyed other number data decoded present decodes

theorem sound_put (sound : Sound db) (below : block.number ≠ maxBlockNumber) : Sound updated := by
  have less : block.number < maxBlockNumber := by
    have bound := block.number.toNat_lt
    have different : block.number.toNat ≠ maxBlockNumber.toNat := fun same =>
      below (UInt64.toNat_inj.mp same)
    rw [UInt64.lt_iff_toNat_lt]
    change block.number.toNat ≠ 2 ^ 64 - 1 at different
    change block.number.toNat < 2 ^ 64 - 1
    omega
  have after := operation_sound codec sound (.put chainId block) less
  rwa [Operation.run, stored] at after

end Stores

/-- Each stream delivers next the block after the last stored one of its chain, and a chain's
numbers are filled from its first start on. -/
structure Consistent (codec : WireCodec) (sources : UInt64 → Source) (state : SyncState) :
    Prop where
  sound : Sound state.db
  keyed : Keyed codec state.db
  chains : ∀ chainId first, state.firstStart chainId = some first →
    ∃ following, Filled state.db chainId first following
  streams : ∀ chainId stream, state.streams chainId = some stream →
    ∃ start : UInt64, Valid (sources chainId) start stream ∧
      NextNumber state.db chainId (start.toNat + stream.delivered)

section Runs

variable {codec : WireCodec} {sources : UInt64 → Source} {state next : SyncState}

theorem consistent_initial {db : KvDb} (sound : Sound db) (keyed : Keyed codec db) :
    Consistent codec sources (initial db) := by
  refine ⟨sound, keyed, ?_, ?_⟩
  · intro chainId first impossible
    cases impossible
  · intro chainId stream impossible
    cases impossible

theorem consistent_stop (consistent : Consistent codec sources state) :
    Consistent codec sources state.stop := by
  refine ⟨consistent.sound, consistent.keyed, consistent.chains, ?_⟩
  intro chainId stream impossible
  cases impossible

theorem consistent_phase (consistent : Consistent codec sources state) (phase : SyncPhase) :
    Consistent codec sources { state with phase } :=
  ⟨consistent.sound, consistent.keyed, consistent.chains, consistent.streams⟩

theorem consistent_set_stream (consistent : Consistent codec sources state) (chainId : UInt64)
    (stream : Option Subscription)
    (delivers : ∀ present, stream = some present → ∃ start : UInt64,
      Valid (sources chainId) start present ∧
        NextNumber state.db chainId (start.toNat + present.delivered)) :
    Consistent codec sources (state.setStream chainId stream) := by
  refine ⟨consistent.sound, consistent.keyed, consistent.chains, ?_⟩
  intro other present found
  change Function.update state.streams chainId stream other = some present at found
  by_cases same : other = chainId
  · subst same
    rw [Function.update_self] at found
    exact delivers present found
  · rw [Function.update_of_ne same] at found
    exact consistent.streams other present found

theorem consistent_subscribe (consistent : Consistent codec sources state)
    {chainId start : UInt64} (found : startBlock codec state.db chainId = .ok start) :
    Consistent codec sources (state.subscribe chainId start) := by
  have following := start_block_next consistent.sound consistent.keyed found
  have set := consistent_set_stream consistent chainId (some (subscribeToBlocks start)) (by
    intro present same
    cases same
    exact ⟨start, valid_subscribe _ start, following⟩)
  refine ⟨set.sound, set.keyed, ?_, set.streams⟩
  intro other first recorded
  change Function.update state.firstStart chainId _ other = some first at recorded
  by_cases same : other = chainId
  · subst same
    rw [Function.update_self] at recorded
    cases earlier : state.firstStart other with
    | some _ =>
        rw [earlier] at recorded
        cases recorded
        exact consistent.chains other _ earlier
    | none =>
        rw [earlier, Option.getD_none] at recorded
        cases recorded
        refine ⟨start.toNat, following, Nat.le_refl _, ?_⟩
        intro number above below
        have least := UInt64.le_iff_toNat_le.mp above
        omega
  · rw [Function.update_of_ne same] at recorded
    exact consistent.chains other first recorded

theorem task_step_delivered {source : Source} {stream after : Subscription}
    (step : TaskStep source stream after) : after.delivered = stream.delivered := by
  cases step <;> simp only [Subscription.retry] <;> split <;> rfl

theorem polled_block {source : Source} {start : UInt64} {stream after : Subscription}
    {block : Block} (valid : Valid source start stream)
    (polled : stream.poll = some (.ok block, after)) :
    BuiltFor source block.number block ∧ block.number.toNat = start.toNat + stream.delivered ∧
      after.delivered = stream.delivered + 1 := by
  obtain ⟨item, found, same⟩ := Option.map_eq_some_iff.mp polled
  cases same
  obtain ⟨number, position, built⟩ := valid.sent_block found
  have numbered := built.numbered
  subst numbered
  exact ⟨built, position, rfl⟩

variable (notServed : ∀ chainId, ¬ (sources chainId).Serves maxBlockNumber)
variable (lossless : ∀ chainId number block, BuiltFor (sources chainId) number block →
  DecodesBack codec block)
include notServed lossless

/-- Storing the next block of one stream: its chain advances with the stream, and the other
chains and streams are not touched. -/
theorem consistent_store (consistent : Consistent codec sources state) {chainId : UInt64}
    {stream after : Subscription} {block : Block} {updated : KvDb}
    (found : state.streams chainId = some stream)
    (polled : stream.poll = some (.ok block, after))
    (stored : put codec state.db chainId block = .ok updated) :
    Consistent codec sources { state.setStream chainId (some after) with db := updated } := by
  obtain ⟨start, valid, following⟩ := consistent.streams chainId stream found
  obtain ⟨built, position, advanced⟩ := polled_block valid polled
  have below : block.number ≠ maxBlockNumber := by
    obtain ⟨parts, receipts, -, served, -⟩ := built.parts
    intro last
    rw [last] at served
    exact notServed chainId ⟨receipts, served⟩
  rw [← position] at following
  refine ⟨sound_put stored consistent.sound below,
    keyed_put stored consistent.keyed (lossless chainId _ block built), ?_, ?_⟩
  · intro other first recorded
    obtain ⟨last, filled⟩ := consistent.chains other first recorded
    by_cases same : chainId = other
    · subst same
      have atEnd := filled.next.unique following
      subst atEnd
      exact ⟨_, filled_put stored filled⟩
    · exact ⟨last, filled_put_of_ne stored same filled⟩
  · intro other present streamed
    change Function.update state.streams chainId (some after) other = some present at streamed
    by_cases same : other = chainId
    · subst same
      rw [Function.update_self] at streamed
      cases streamed
      refine ⟨start, valid_poll valid polled, ?_⟩
      rw [advanced, ← Nat.add_assoc, ← position]
      exact next_number_put stored following
    · rw [Function.update_of_ne same] at streamed
      obtain ⟨otherStart, otherValid, otherNext⟩ := consistent.streams other present streamed
      exact ⟨otherStart, otherValid, next_number_put_of_ne stored (Ne.symm same) otherNext⟩

variable (numbered : ∀ chainId, (sources chainId).Numbered)
include numbered

theorem consistent_step (consistent : Consistent codec sources state)
    (step : SyncStep codec sources state next) : Consistent codec sources next := by
  cases step with
  | starts => exact consistent_phase consistent _
  | skips => exact consistent_phase consistent _
  | opens _ _ first => exact consistent_phase (consistent_subscribe consistent first) _
  | opened => exact consistent_phase consistent _
  | task found step =>
      refine consistent_set_stream consistent _ _ ?_
      intro present same
      cases same
      obtain ⟨start, valid, following⟩ := consistent.streams _ _ found
      rw [← task_step_delivered step] at following
      exact ⟨start, valid_task_step (numbered _) (notServed _) valid step, following⟩
  | stores _ found polled stored =>
      exact consistent_store notServed lossless consistent found polled stored
  | streamEnds =>
      refine consistent_set_stream consistent _ none ?_
      intro present impossible
      cases impossible
  | openFails => exact consistent_stop consistent
  | connectFails => exact consistent_stop consistent
  | streamFails => exact consistent_stop consistent
  | putFails => exact consistent_stop consistent
  | ends => exact consistent_stop consistent
  | cancelled => exact consistent_stop consistent

theorem consistent_run (consistent : Consistent codec sources state)
    (run : SyncRun codec sources state next) : Consistent codec sources next := by
  induction run with
  | refl => exact consistent
  | tail _ step inductionHypothesis =>
      exact consistent_step notServed lossless numbered inductionHypothesis step

end Runs

theorem step_grows {codec : WireCodec} {sources : UInt64 → Source} {state next : SyncState}
    (step : SyncStep codec sources state next) (chainId : UInt64) :
    (∀ first, state.firstStart chainId = some first → next.firstStart chainId = some first) ∧
      ∀ number, IsStored state.db chainId number → IsStored next.db chainId number := by
  cases step with
  | @opens config configs server start phase present first =>
      refine ⟨fun first recorded => ?_, fun _ stored => stored⟩
      change Function.update state.firstStart config.id _ chainId = some first
      by_cases same : chainId = config.id
      · subst same
        rw [Function.update_self, recorded, Option.getD_some]
      · rw [Function.update_of_ne same, recorded]
  | stores _ _ _ stored =>
      exact ⟨fun _ recorded => recorded,
        fun number before => (is_stored_put stored chainId number).mpr (.inr before)⟩
  | _ => exact ⟨fun _ recorded => recorded, fun _ stored => stored⟩

theorem run_grows {codec : WireCodec} {sources : UInt64 → Source} {state next : SyncState}
    (run : SyncRun codec sources state next) (chainId : UInt64) :
    (∀ first, state.firstStart chainId = some first → next.firstStart chainId = some first) ∧
      ∀ number, IsStored state.db chainId number → IsStored next.db chainId number := by
  induction run with
  | refl => exact ⟨fun _ recorded => recorded, fun _ stored => stored⟩
  | tail _ step inductionHypothesis =>
      obtain ⟨starts, blocks⟩ := step_grows step chainId
      exact ⟨fun first recorded => starts first (inductionHypothesis.1 first recorded),
        fun number stored => blocks number (inductionHypothesis.2 number stored)⟩

/-- As long as no source serves block `2^64 - 1`, every subscription sends successive blocks
and at most one error after which nothing is sent, and ends only then or when its receiver is
dropped; and in every run of `sync` with any number of restarts, a chain's stored numbers from
its first start on are one contiguous range that only grows. -/
theorem live_sync_gap_free (codec : WireCodec) (sources : UInt64 → Source)
    (numbered : ∀ chainId, (sources chainId).Numbered)
    (notServed : ∀ chainId, ¬ (sources chainId).Serves maxBlockNumber)
    (lossless : ∀ chainId number block, BuiltFor (sources chainId) number block →
      DecodesBack codec block) :
    (∀ chainId start state, Run (sources chainId) (subscribeToBlocks start) state →
      GapFree (sources chainId) start state.sent ∧
      (∀ error, .error error ∈ state.sent →
        ∀ later, Run (sources chainId) state later → later.sent = state.sent) ∧
      (state.phase = .finished →
        state.receiverAlive = false ∨ ∃ error, .error error ∈ state.sent)) ∧
    ∀ db, Sound db → Keyed codec db →
      ∀ state, SyncRun codec sources (initial db) state →
      ∀ chainId first, state.firstStart chainId = some first →
        (∃ following : Nat, ∀ number, first ≤ number →
          (IsStored state.db chainId number ↔ number.toNat < following)) ∧
        ∀ later, SyncRun codec sources state later → later.firstStart chainId = some first ∧
          ∀ number, IsStored state.db chainId number → IsStored later.db chainId number := by
  refine ⟨fun chainId start state run => ?_, fun db sound keyed state run chainId first recorded => ?_⟩
  · have valid := run_valid (numbered chainId) (notServed chainId) run
    refine ⟨valid.gap_free, fun error member later after => ?_, valid.finished_cause⟩
    exact (finished_run (valid.finished_of_error member) after).2
  · have consistent := consistent_run notServed lossless numbered
      (consistent_initial sound keyed) run
    obtain ⟨following, filled⟩ := consistent.chains chainId first recorded
    refine ⟨⟨following, fun number above => ⟨filled.next.above number, filled.stored number above⟩⟩,
      fun later after => ?_⟩
    obtain ⟨starts, blocks⟩ := run_grows after chainId
    exact ⟨starts first recorded, blocks⟩

def plainParts (number : UInt64) : BlockHeaderWithTransactionsAndWithdrawals where
  blockHeader := {
    parentHash := default
    ommersHash := default
    beneficiary := default
    stateRoot := default
    transactionsRoot := default
    receiptsRoot := default
    logsBloom := default
    difficulty := 0
    number
    gasLimit := 0
    gasUsed := 0
    timestamp := 0
    extraData := []
    prevRandao := default
    nonce := default
    baseFeePerGas := none
    withdrawalsRoot := none
    blobGasUsed := none
    excessBlobGas := none
    parentBeaconBlockRoot := none
    requestsHash := none }
  transactions := []
  withdrawals := []

def plainBlock (number : UInt64) : Block := { number }

def plainSource (available : UInt64 → Prop) : Source where
  header number reply :=
    (available number ∧ reply = .ok (plainParts number)) ∨
      (¬ available number ∧ reply = .error .notFound)
  receipts number reply :=
    (available number ∧ reply = .ok []) ∨ (¬ available number ∧ reply = .error .notFound)

theorem plain_source_numbered (available : UInt64 → Prop) : (plainSource available).Numbered := by
  rintro number parts (⟨-, same⟩ | ⟨-, impossible⟩)
  · cases same
    rfl
  · cases impossible

theorem plain_source_serves {available : UInt64 → Prop} {number : UInt64} :
    (plainSource available).Serves number ↔ available number := by
  constructor
  · rintro ⟨receipts, ⟨served, -⟩ | ⟨-, impossible⟩⟩
    · exact served
    · cases impossible
  · intro served
    exact ⟨[], .inl ⟨served, rfl⟩⟩

theorem plain_source_built {available : UInt64 → Prop} {number : UInt64} {block : Block}
    (built : BuiltFor (plainSource available) number block) :
    available number ∧ block = plainBlock number := by
  obtain ⟨parts, receipts, ⟨there, same⟩ | ⟨-, impossible⟩, served, rfl⟩ := built.parts
  · cases same
    rcases served with ⟨-, same⟩ | ⟨missing, -⟩
    · cases same
      exact ⟨there, rfl⟩
    · exact absurd there missing
  · cases impossible

theorem plain_source_sends {available : UInt64 → Prop} {state : Subscription}
    (phase : state.phase = .requestHeader) (there : available state.blockNumber)
    (room : state.HasRoom) :
    Relation.ReflTransGen (TaskStep (plainSource available)) state { state with
      phase := .requestHeader
      blockNumber := state.blockNumber + 1
      timeout := initialTimeout
      sent := state.sent ++ [.ok (plainBlock state.blockNumber)] } := by
  have header : (plainSource available).header state.blockNumber
      (.ok (plainParts state.blockNumber)) := .inl ⟨there, rfl⟩
  have served : (plainSource available).receipts state.blockNumber (.ok []) := .inl ⟨there, rfl⟩
  exact task_sends_block phase header served room

theorem fresh_keyed (codec : WireCodec) : Keyed codec freshDb := by
  intro chainId number data block present
  simp [getBytes, freshDb, get_put] at present

theorem fresh_start_block (codec : WireCodec) (chainId : UInt64) :
    startBlock codec freshDb chainId = .ok 0 := by
  obtain ⟨items, iterated, -, members⟩ := iterate_bytes_reverse
    (sound_known (reachable_sound (fresh_reachable codec))) chainId maxBlockNumber
  have nothing : items = [] := by
    rw [List.eq_nil_iff_forall_not_mem]
    rintro ⟨number, data⟩ member
    have present := ((members number data).mp member).1
    simp [getBytes, freshDb, get_put] at present
  simp only [startBlock, iterate, iterated, nothing]
  rfl

/-- The tasks of a stream run beside the rest of `sync`. -/
theorem run_tasks {codec : WireCodec} {sources : UInt64 → Source} {state : SyncState}
    {chainId : UInt64} {stream after : Subscription}
    (found : state.streams chainId = some stream)
    (tasks : Relation.ReflTransGen (TaskStep (sources chainId)) stream after) :
    SyncRun codec sources state (state.setStream chainId (some after)) := by
  induction tasks with
  | refl =>
      have same : state.setStream chainId (some stream) = state := by
        rw [SyncState.setStream, ← found, Function.update_eq_self]
      rw [same]
  | @tail middle last _ step inductionHypothesis =>
      have next : (state.setStream chainId (some middle)).setStream chainId (some last) =
          state.setStream chainId (some last) := by
        simp [SyncState.setStream]
      rw [← next]
      exact inductionHypothesis.tail (.task (by simp [SyncState.setStream]) step)

theorem live_sync_stores_first_block :
    ∃ state, SyncRun (headerCodec [plainBlock 0]) (fun _ => plainSource (· = 0)) (initial freshDb)
        state ∧
      IsStored state.db 146 0 ∧
      ∃ following : Nat, ∀ number : UInt64, 0 ≤ number →
        (IsStored state.db 146 number ↔ number.toNat < following) := by
  let codec := headerCodec [plainBlock 0]
  let sources : UInt64 → Source := fun _ => plainSource (· = 0)
  let config : ChainConfig := ⟨146, some "http://localhost:8545"⟩
  let started : SyncState := { initial freshDb with phase := .opening [config] }
  let subscribed : SyncState := { started.subscribe config.id 0 with phase := .opening [] }
  let opened : SyncState := { subscribed with phase := .receiving }
  have starts : SyncStep codec sources (initial freshDb) started := .starts [config] rfl
  have subscribes : SyncStep codec sources started subscribed :=
    @SyncStep.opens codec sources started config [] _ 0 rfl rfl (fresh_start_block codec 146)
  have opens : SyncRun codec sources (initial freshDb) opened :=
    ((Relation.ReflTransGen.single starts).tail subscribes).tail (.opened rfl)
  let stream : Subscription := { subscribeToBlocks 0 with
    blockNumber := 1
    sent := [.ok (plainBlock 0)] }
  have streamed : opened.streams 146 = some (subscribeToBlocks 0) := by
    simp [opened, subscribed, config, SyncState.subscribe, SyncState.setStream]
  have fetched : SyncRun codec sources opened (opened.setStream 146 (some stream)) :=
    run_tasks streamed (plain_source_sends rfl rfl ⟨rfl, by decide⟩)
  obtain ⟨updated, stored, -, present⟩ := put_bytes_reachable (fresh_reachable codec) 146 0
    (encodeBlock codec (plainBlock 0)) (by decide)
  let finished : SyncState :=
    { opened.setStream 146 (some { stream with delivered := 1 }) with db := updated }
  have polled : stream.poll = some (.ok (plainBlock 0), { stream with delivered := 1 }) := rfl
  have stores : SyncStep codec sources (opened.setStream 146 (some stream)) finished := by
    have next : finished = { (opened.setStream 146 (some stream)).setStream 146
        (some { stream with delivered := 1 }) with db := updated } := by
      simp [finished, SyncState.setStream]
    rw [next]
    exact .stores rfl (by simp [SyncState.setStream]) polled stored
  have run := (opens.trans fetched).tail stores
  refine ⟨finished, run, Option.isSome_iff_exists.mpr ⟨_, present⟩, ?_⟩
  have decodesBack : DecodesBack codec (plainBlock 0) :=
    header_codec_decodes_back (by decide +kernel)
  have property := live_sync_gap_free codec sources (fun _ => plain_source_numbered _)
    (fun _ served => absurd (plain_source_serves.mp served) (by decide))
    (fun _ number block built => by
      obtain ⟨zero, same⟩ := plain_source_built built
      rw [same, zero]
      exact decodesBack)
  have first : finished.firstStart 146 = some 0 := by
    simp [finished, opened, subscribed, config, SyncState.subscribe, SyncState.setStream, started,
      initial]
  exact (property.2 freshDb (reachable_sound (fresh_reachable codec)) (fresh_keyed codec) finished
    run 146 0 first).1

/-- A source that serves every number lets the subscription continue with block zero behind
the last number. -/
theorem wrapped_subscription_not_gap_free :
    ∃ source : Source, source.Numbered ∧ ∃ state,
      Run source (subscribeToBlocks maxBlockNumber) state ∧
      state.sent = [.ok (plainBlock maxBlockNumber), .ok (plainBlock 0)] ∧
      ¬ GapFree source maxBlockNumber state.sent := by
  refine ⟨plainSource fun _ => True, plain_source_numbered _, ?_⟩
  let first := subscribeToBlocks maxBlockNumber
  let second : Subscription := { first with
    blockNumber := maxBlockNumber + 1
    sent := [.ok (plainBlock maxBlockNumber)] }
  let third : Subscription := { second with
    blockNumber := maxBlockNumber + 1 + 1
    sent := [.ok (plainBlock maxBlockNumber), .ok (plainBlock 0)] }
  have toSecond : Relation.ReflTransGen (TaskStep (plainSource fun _ => True)) first second :=
    plain_source_sends rfl trivial ⟨rfl, by decide⟩
  have toThird : Relation.ReflTransGen (TaskStep (plainSource fun _ => True)) second third :=
    plain_source_sends rfl trivial ⟨rfl, by decide⟩
  have run : Run (plainSource fun _ => True) first third :=
    Relation.ReflTransGen.mono (fun _ _ step => Or.inl step) _ _ (toSecond.trans toThird)
  refine ⟨third, run, rfl, ?_⟩
  rintro ⟨blocks, failure, same, successive⟩
  have position : blocks[1]? = some (plainBlock 0) := by
    cases failure with
    | none =>
        have second := congrArg (·[1]?) same
        simp only [Option.toList_none, List.map_nil, List.append_nil, List.getElem?_map] at second
        obtain ⟨block, there, equal⟩ := Option.map_eq_some_iff.mp second.symm
        rw [there, Except.ok.inj equal]
    | some error =>
        have last := congrArg List.getLast? same
        simp [third] at last
  obtain ⟨number, beyond, -⟩ := successive 1 _ position
  have bound := number.toNat_lt
  change number.toNat = 2 ^ 64 - 1 + 1 at beyond
  omega

end Bertha.LiveSync
