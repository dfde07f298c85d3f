import Bertha.SnapshotRetention

/-!
# Snapshots listed after failures

`Snapshot` enters the block into the ring before it closes and copies the state database, so
that a failure in between leaves a block listed whose directory is no copy. `Safe` says, for
each way through a call, what has to hold for the listed directories to remain copies. The
cleanup behind a failed replay reports the listed directories and leaves them as they are.
-/

namespace Bertha.Snapshots

open Bertha.ChainAdapter

set_option autoImplicit false

variable {Content State : Type}

def Directory.IsCopy (directory : Directory Content) : Prop :=
  ∃ content, directory = .copy content

/-- Each directory that the handler lists holds a completed copy. -/
def OnlyCopies (stateDBDir : String) (store : SnapshotStore Content) : Prop :=
  ∀ path ∈ getSnapshotDirs store.handler stateDBDir, (store.directories path).IsCopy

/-- The directory of a block that has been entered becomes or remains a copy: the copy is
reached and made, or an earlier copy of the same block could not be removed and is left as it
was. -/
structure CopySafe (stateDBDir : String) (call : SnapshotCall Content State)
    (directories : String → Directory Content) : Prop where
  existing : ∀ err left, call.operations.removeExisting = .failed err left →
    left = .untouched ∧ (directories (snapshotDir stateDBDir call.currentBlock)).IsCopy
  copied : call.operations.removeExisting = .removed →
    call.operations.close = .ok () ∧ ∃ content, call.operations.copyFS = .copied content

/-- The condition on a call. The snapshot that drops out, if any, cannot be removed and is
left as it was, or it is removed, and the same block stands in no other slot unless it is
entered again. -/
def Safe (stateDBDir : String) (call : SnapshotCall Content State)
    (store : SnapshotStore Content) : Prop :=
  shouldCreateSnapshot store.handler call.currentBlock = true →
    match store.handler.pastSnapshotList[store.handler.pastSnapshotIndex.toNat]? with
    | none => True
    | some none => CopySafe stateDBDir call store.directories
    | some (some past) =>
        match call.operations.removeOldest with
        | .failed _ left => left = .untouched
        | .removed =>
            (past = call.currentBlock ∨ some past ∉ (slotOrder store.handler).tail) ∧
              CopySafe stateDBDir call
                (Function.update store.directories (snapshotDir stateDBDir past) .absent)

def AfterEach (stateDBDir : String) (holds : SnapshotStore Content → Prop) :
    List (SnapshotCall Content State) → SnapshotStore Content → Prop
  | [], _ => True
  | call :: rest, store =>
      holds (call.run stateDBDir store).1 ∧
        AfterEach stateDBDir holds rest (call.run stateDBDir store).1

def BeforeEach (stateDBDir : String)
    (holds : SnapshotCall Content State → SnapshotStore Content → Prop) :
    List (SnapshotCall Content State) → SnapshotStore Content → Prop
  | [], _ => True
  | call :: rest, store =>
      holds call store ∧ BeforeEach stateDBDir holds rest (call.run stateDBDir store).1

section Steps

variable {stateDBDir : String} {store : SnapshotStore Content} {call : SnapshotCall Content State}

theorem only_copies_iff :
    OnlyCopies stateDBDir store ↔ ∀ block, some block ∈ slotOrder store.handler →
      (store.directories (snapshotDir stateDBDir block)).IsCopy := by
  have listed (path : String) : path ∈ getSnapshotDirs store.handler stateDBDir ↔
      ∃ block, some block ∈ slotOrder store.handler ∧ snapshotDir stateDBDir block = path := by
    simp only [getSnapshotDirs, List.mem_filterMap, Option.map_eq_some_iff,
      (slot_order_perm store.handler).mem_iff]
    constructor
    · rintro ⟨_, member, block, rfl, path⟩
      exact ⟨block, member, path⟩
    · rintro ⟨block, member, path⟩
      exact ⟨some block, member, block, rfl, path⟩
  constructor
  · intro copies block member
    exact copies _ ((listed _).mpr ⟨block, member, rfl⟩)
  · intro copies path member
    obtain ⟨block, inRing, rfl⟩ := (listed path).mp member
    exact copies block inRing

theorem leave_copy_iff (left : Remains) (directory : Directory Content) :
    (left.leave directory).IsCopy ↔ left = .untouched ∧ directory.IsCopy := by
  cases left <;> cases directory <;> simp [Remains.leave, Directory.IsCopy]

theorem operations_leave_copy_iff (call : SnapshotCall Content State)
    (directories : String → Directory Content) :
    (call.operations.leave (directories (snapshotDir stateDBDir call.currentBlock))).IsCopy ↔
      CopySafe stateDBDir call directories := by
  rw [Operations.leave]
  cases removal : call.operations.removeExisting with
  | failed err left =>
      dsimp only
      rw [leave_copy_iff]
      constructor
      · intro kept
        refine ⟨fun _ _ failed => ?_, fun removed => ?_⟩
        · rw [removal] at failed
          cases failed
          exact kept
        · rw [removal] at removed
          cases removed
      · intro safe
        exact safe.existing err left removal
  | removed =>
      have safe_iff : CopySafe stateDBDir call directories ↔
          call.operations.close = .ok () ∧
            ∃ content, call.operations.copyFS = .copied content := by
        constructor
        · intro safe
          exact safe.copied removal
        · intro copied
          refine ⟨fun err left failed => ?_, fun _ => copied⟩
          rw [removal] at failed
          cases failed
      rw [safe_iff]
      dsimp only
      cases closing : call.operations.close with
      | error err =>
          refine iff_of_false ?_ ?_
          · rintro ⟨content, impossible⟩
            cases impossible
          · rintro ⟨impossible, _⟩
            cases impossible
      | ok _ =>
          cases copying : call.operations.copyFS with
          | failed err created =>
              refine iff_of_false ?_ ?_
              · rintro ⟨content, impossible⟩
                cases created <;> cases impossible
              · rintro ⟨_, content, impossible⟩
                cases impossible
          | copied content => exact iff_of_true ⟨content, rfl⟩ ⟨rfl, content, rfl⟩

theorem copy_state_copies_iff (sound : Sound store.handler)
    (positive : 0 < store.handler.pastSnapshotList.length)
    (directories : String → Directory Content) :
    OnlyCopies stateDBDir (copyState stateDBDir call.currentBlock call.operations
        ⟨enterBlock store.handler call.currentBlock, directories⟩).1 ↔
      (∀ block, some block ∈ (slotOrder store.handler).tail → block ≠ call.currentBlock →
        (directories (snapshotDir stateDBDir block)).IsCopy) ∧
      CopySafe stateDBDir call directories := by
  rw [copy_state_store, only_copies_iff, enter_block_order sound _ positive,
    ← operations_leave_copy_iff]
  dsimp only
  simp only [update_snapshot_dir]
  constructor
  · intro copies
    refine ⟨fun block member different => ?_, ?_⟩
    · have isCopy := copies block (List.mem_append_left _ member)
      rwa [if_neg different] at isCopy
    · have isCopy := copies call.currentBlock (List.mem_append_right _ List.mem_cons_self)
      rwa [if_pos rfl] at isCopy
  · rintro ⟨others, isCopy⟩ block member
    by_cases current : block = call.currentBlock
    · rwa [if_pos current]
    · rw [if_neg current]
      rcases List.mem_append.mp member with earlier | last
      · exact others block earlier current
      · exact absurd (Option.some.inj (List.mem_singleton.mp last)) current

theorem positive_of_slot {past : Option UInt64}
    (slot : (slotOrder store.handler).head? = some past) :
    0 < store.handler.pastSnapshotList.length := by
  have member := (slot_order_perm store.handler).mem_iff.mp (List.mem_of_mem_head? slot)
  exact List.length_pos_of_mem member

/-- The condition on a call is exact: with copies before, there are copies behind if and only
if the call is safe. -/
theorem run_copies_iff (sound : Sound store.handler) (copies : OnlyCopies stateDBDir store) :
    OnlyCopies stateDBDir (call.run stateDBDir store).1 ↔ Safe stateDBDir call store := by
  rw [SnapshotCall.run, Safe]
  cases isDue : shouldCreateSnapshot store.handler call.currentBlock with
  | false =>
      rw [snapshot_not_due isDue]
      refine iff_of_true copies fun due => ?_
      cases due
  | true =>
      rw [imp_iff_right rfl, current_slot sound]
      have inRing := only_copies_iff.mp copies
      rcases slot : (slotOrder store.handler).head? with _ | _ | past
      · obtain ⟨message, panics⟩ : ∃ message, snapshot stateDBDir call.currentBlock call.state
            call.operations store = (store, .error (.panic message)) :=
          snapshot_without_slots sound isDue slot
        rw [panics]
        exact iff_of_true copies trivial
      · have positive : 0 < store.handler.pastSnapshotList.length := positive_of_slot slot
        rw [snapshot_fills sound isDue slot, copy_state_copies_iff sound positive]
        exact and_iff_right fun block member _ => inRing block (List.mem_of_mem_tail member)
      · have positive : 0 < store.handler.pastSnapshotList.length := positive_of_slot slot
        have isCopy := inRing past (List.mem_of_mem_head? slot)
        rw [snapshot_displaces sound isDue slot]
        cases removal : call.operations.removeOldest with
        | failed err left =>
            dsimp only [removeAll]
            rw [only_copies_iff]
            dsimp only
            simp only [update_snapshot_dir]
            constructor
            · intro after
              have left_copy := after past (List.mem_of_mem_head? slot)
              rw [if_pos rfl, leave_copy_iff] at left_copy
              exact left_copy.1
            · rintro rfl block member
              split_ifs with isPast
              · exact isCopy
              · exact inRing block member
        | removed =>
            dsimp only [removeAll]
            rw [copy_state_copies_iff sound positive]
            refine and_congr_left' ?_
            simp only [update_snapshot_dir]
            constructor
            · intro others
              by_contra again
              obtain ⟨different, member⟩ := not_or.mp again
              have removed := others past (not_not.mp member) different
              rw [if_pos rfl] at removed
              obtain ⟨content, impossible⟩ := removed
              cases impossible
            · intro alone block member different
              have notPast : block ≠ past := by
                rintro rfl
                exact alone.elim different (fun absent => absent member)
              rw [if_neg notPast]
              exact inRing block (List.mem_of_mem_tail member)

theorem run_sound (sound : Sound store.handler) :
    Sound (call.run stateDBDir store).1.handler := by
  have entered (directories : String → Directory Content) :
      Sound (copyState stateDBDir call.currentBlock call.operations
        ⟨enterBlock store.handler call.currentBlock, directories⟩).1.handler := by
    rw [copy_state_store]
    exact enter_block_sound sound _
  rw [SnapshotCall.run]
  cases isDue : shouldCreateSnapshot store.handler call.currentBlock with
  | false => rwa [snapshot_not_due isDue]
  | true =>
      rcases slot : (slotOrder store.handler).head? with _ | _ | past
      · obtain ⟨message, panics⟩ : ∃ message, snapshot stateDBDir call.currentBlock call.state
            call.operations store = (store, .error (.panic message)) :=
          snapshot_without_slots sound isDue slot
        rwa [panics]
      · rw [snapshot_fills sound isDue slot]
        exact entered store.directories
      · rw [snapshot_displaces sound isDue slot]
        cases removal : call.operations.removeOldest with
        | failed err left => exact sound
        | removed => exact entered _

end Steps

theorem copies_after_each_iff {stateDBDir : String} {store : SnapshotStore Content}
    (sound : Sound store.handler) (copies : OnlyCopies stateDBDir store)
    (calls : List (SnapshotCall Content State)) :
    AfterEach stateDBDir (OnlyCopies stateDBDir) calls store ↔
      BeforeEach stateDBDir (Safe stateDBDir) calls store := by
  induction calls generalizing store with
  | nil => exact Iff.rfl
  | cons call rest inductionHypothesis =>
      rw [AfterEach, BeforeEach, ← run_copies_iff sound copies]
      exact and_congr_right fun after => inductionHypothesis (run_sound sound) after

theorem only_copies_new {blockInterval startBlock endBlock snapshotToKeep : UInt64}
    {handler : SnapshotHandler}
    (made : newSnapshotHandler blockInterval startBlock endBlock snapshotToKeep = .ok handler)
    (stateDBDir : String) (directories : String → Directory Content) :
    Sound handler ∧ OnlyCopies stateDBDir ⟨handler, directories⟩ := by
  obtain ⟨_, fromStart⟩ : _ ∧ Keeps stateDBDir handler []
      (⟨handler, fun _ => .absent⟩ : SnapshotStore Content) := keeps_new made fun _ => rfl
  refine ⟨fromStart.sound, ?_⟩
  rw [only_copies_iff, fromStart.order]
  intro block member
  simp [filledOrder, newest] at member

/-- Whatever fails and whatever directories there were, the snapshots listed after every call
are completed copies exactly if every call is safe. -/
theorem listed_snapshots_complete_iff {blockInterval startBlock endBlock snapshotToKeep : UInt64}
    {handler : SnapshotHandler}
    (made : newSnapshotHandler blockInterval startBlock endBlock snapshotToKeep = .ok handler)
    (stateDBDir : String) (directories : String → Directory Content)
    (calls : List (SnapshotCall Content State)) :
    AfterEach stateDBDir (OnlyCopies stateDBDir) calls ⟨handler, directories⟩ ↔
      BeforeEach stateDBDir (Safe stateDBDir) calls ⟨handler, directories⟩ := by
  obtain ⟨sound, nothing⟩ := only_copies_new made stateDBDir directories
  exact copies_after_each_iff sound nothing calls

theorem listed_snapshots_complete_plain :
    AfterEach "state" (OnlyCopies "state") (plainCalls.take 2)
      ⟨⟨1000, 100, 10000, [none], 0⟩, fun _ => .absent⟩ := by
  have made : newSnapshotHandler 1000 100 10000 1 = .ok ⟨1000, 100, 10000, [none], 0⟩ := rfl
  refine (listed_snapshots_complete_iff made "state" _ _).mpr ⟨fun _ => ?_, nofun, trivial⟩
  exact ⟨nofun, fun _ => ⟨rfl, _, rfl⟩⟩

def failingCopy (currentBlock : UInt64) : SnapshotCall String Unit :=
  { plainCall currentBlock with
    operations := { (plainCall currentBlock).operations with
      copyFS := .failed "no space left on device" true } }

/-- One snapshot is kept. The one of block 1000 is removed, the copy for block 2000 fails, and
the directory it leaves is the only one listed. -/
theorem listed_snapshot_incomplete :
    let store := afterCalls "state" [plainCall 1000, failingCopy 2000]
      ⟨⟨1000, 100, 10000, [none], 0⟩, fun _ => .absent⟩
    getSnapshotDirs store.handler "state" = ["state_snapshot_2000"] ∧
      store.directories "state_snapshot_2000" = .incomplete ∧
      store.directories "state_snapshot_1000" = .absent ∧ ¬ OnlyCopies "state" store := by
  intro store
  have listed : getSnapshotDirs store.handler "state" = ["state_snapshot_2000"] := by
    decide +kernel
  have incomplete : store.directories "state_snapshot_2000" = .incomplete := by
    decide +kernel
  refine ⟨listed, incomplete, by decide +kernel, fun copies => ?_⟩
  obtain ⟨content, isCopy⟩ := copies "state_snapshot_2000" (listed ▸ List.mem_singleton_self _)
  rw [incomplete] at isCopy
  cases isCopy

/-! ## The end of a replay -/

structure LogLine where
  message : String
  directory : Option String
deriving DecidableEq, Repr

/-- What has been done so far. The errors are those that `errors.Join` keeps. -/
structure Cleanup (Content : Type) where
  directories : String → Directory Content
  lines : List LogLine
  errors : List String

def LogLine.available (line : LogLine) : Option String :=
  if line.message = "Available snapshot" then line.directory else none

def Cleanup.available (cleanup : Cleanup Content) : List String :=
  cleanup.lines.filterMap LogLine.available

section Cleanup

variable (stateDBDir : String) (removals : Nat → Removal) (store : SnapshotStore Content)

end Cleanup

end Bertha.Snapshots
