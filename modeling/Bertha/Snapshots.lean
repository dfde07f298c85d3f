import Bertha.ChainAdapter

/-!
# Snapshots of the state database

`SnapshotHandler` of `go/replay/snapshot_handler.go`: a ring of block numbers, and for each a
copy of the state database next to its directory. What the file system and the state database
answer to a call is an argument of it. Read from its index, the ring lists the blocks in the
order of their snapshots, so that the slot written next is the one whose directory the scan
for the oldest snapshot finds.
-/

namespace Bertha.Snapshots

open Bertha.ChainAdapter Bertha.Ring

set_option autoImplicit false

inductive Directory (Content : Type) where
  | absent
  | incomplete
  | copy (content : Content)
deriving DecidableEq, Repr

/-- What a failed removal leaves. -/
inductive Remains where
  | untouched
  | damaged
  | gone
deriving DecidableEq, Repr

inductive Removal where
  | removed
  | failed (err : String) (left : Remains)
deriving DecidableEq, Repr

/-- The outcome of `os.CopyFS`: a copy of what the state directory holds, or an error, behind
which the directory may have been created. -/
inductive Copying (Content : Type) where
  | copied (content : Content)
  | failed (err : String) (created : Bool)

/-- What the operations of one call answer, and how `%q` prints a path. -/
structure Operations (Content State : Type) where
  removeOldest : Removal
  removeExisting : Removal
  close : Except String Unit
  copyFS : Copying Content
  newState : Except String State
  quote : String → String

structure SnapshotStore (Content : Type) where
  handler : SnapshotHandler
  directories : String → Directory Content

variable {Content State : Type}

/-- `make` panics for a length that is no `int`. -/
def newSnapshotHandler (blockInterval startBlock endBlock snapshotToKeep : UInt64) :
    Except Failure SnapshotHandler :=
  if snapshotToKeep.toNat < 2 ^ 63 then
    .ok {
      blockInterval := blockInterval
      startBlock := startBlock
      endBlock := endBlock
      pastSnapshotList := List.replicate snapshotToKeep.toNat none
      pastSnapshotIndex := 0 }
  else .error (.panic "makeslice: len out of range")

def snapshotDir (stateDBDir : String) (blockNum : UInt64) : String :=
  s!"{stateDBDir}_snapshot_{blockNum}"

def getOldestSnapshotDir (handler : SnapshotHandler) (stateDBDir : String) : String :=
  let size := handler.pastSnapshotList.length
  ((List.range size).findSome? fun cnt =>
    let i := (handler.pastSnapshotIndex + UInt64.ofNat cnt) % UInt64.ofNat size
    match handler.pastSnapshotList[i.toNat]? with
    | some (some block) => some (snapshotDir stateDBDir block)
    | _ => none).getD ""

def getSnapshotDirs (handler : SnapshotHandler) (stateDBDir : String) : List String :=
  handler.pastSnapshotList.filterMap (Option.map (snapshotDir stateDBDir))

def Remains.leave : Remains → Directory Content → Directory Content
  | .untouched, directory => directory
  | .damaged, .absent => .absent
  | .damaged, _ => .incomplete
  | .gone, _ => .absent

def removeAll (directories : String → Directory Content) (path : String) :
    Removal → (String → Directory Content) × Except String Unit
  | .removed => (Function.update directories path .absent, .ok ())
  | .failed err left =>
      (Function.update directories path (left.leave (directories path)), .error err)

def enterBlock (handler : SnapshotHandler) (currentBlock : UInt64) : SnapshotHandler :=
  { handler with
    pastSnapshotList :=
      handler.pastSnapshotList.set handler.pastSnapshotIndex.toNat (some currentBlock)
    pastSnapshotIndex :=
      (handler.pastSnapshotIndex + 1) % UInt64.ofNat handler.pastSnapshotList.length }

def copyState (stateDBDir : String) (currentBlock : UInt64) (operations : Operations Content State)
    (store : SnapshotStore Content) : SnapshotStore Content × Except Failure State :=
  let path := snapshotDir stateDBDir currentBlock
  match removeAll store.directories path operations.removeExisting with
  | (directories, .error err) =>
      ({ store with directories := directories }, .error (.error
        s!"failed to remove existing snapshot directory {operations.quote path}: {err}"))
  | (directories, .ok ()) =>
  match operations.close with
  | .error err =>
      ({ store with directories := directories },
        .error (.error s!"failed to close state database before snapshot: {err}"))
  | .ok () =>
  match operations.copyFS with
  | .failed err created =>
      ({ store with
          directories := Function.update directories path
            (if created then .incomplete else .absent) },
        .error (.error s!"failed to copy state database for snapshot: {err}"))
  | .copied content =>
      let store := { store with directories := Function.update directories path (.copy content) }
      match operations.newState with
      | .error err =>
          (store, .error (.error s!"failed to reopen state database after snapshot: {err}"))
      | .ok state => (store, .ok state)

/-- `Snapshot`. The slot that is written is read first, and a ring without slots has none. -/
def snapshot (stateDBDir : String) (currentBlock : UInt64) (state : State)
    (operations : Operations Content State) (store : SnapshotStore Content) :
    SnapshotStore Content × Except Failure State :=
  let handler := store.handler
  if shouldCreateSnapshot handler currentBlock = false then (store, .ok state)
  else
    let oldestSnapshotDir := getOldestSnapshotDir handler stateDBDir
    match handler.pastSnapshotList[handler.pastSnapshotIndex.toNat]? with
    | none =>
        (store, .error (.panic
          s!"index out of range [{handler.pastSnapshotIndex}] with length {handler.pastSnapshotList.length}"))
    | some past =>
        if past ≠ none ∧ oldestSnapshotDir ≠ "" then
          match removeAll store.directories oldestSnapshotDir operations.removeOldest with
          | (directories, .error err) =>
              ({ store with directories := directories }, .error (.error
                s!"failed to remove previous state database snapshot: {err}"))
          | (directories, .ok ()) =>
              copyState stateDBDir currentBlock operations
                ⟨enterBlock handler currentBlock, directories⟩
        else
          copyState stateDBDir currentBlock operations
            ⟨enterBlock handler currentBlock, store.directories⟩

theorem snapshot_dir_injective (stateDBDir : String) :
    Function.Injective (snapshotDir stateDBDir) := by
  intro first second same
  have numbers : first.toNat = second.toNat := by simpa [snapshotDir, toString] using same
  exact UInt64.toNat_inj.mp numbers

theorem update_snapshot_dir (stateDBDir : String) (directories : String → Directory Content)
    (content : Directory Content) (target block : UInt64) :
    Function.update directories (snapshotDir stateDBDir target) content
        (snapshotDir stateDBDir block) =
      if block = target then content else directories (snapshotDir stateDBDir block) := by
  rw [Function.update_apply]
  simp only [(snapshot_dir_injective stateDBDir).eq_iff]

theorem snapshot_dir_ne_empty (stateDBDir : String) (block : UInt64) :
    snapshotDir stateDBDir block ≠ "" := by
  simp [snapshotDir, toString]

/-! ## The order of the ring -/

structure Sound (handler : SnapshotHandler) : Prop where
  bound : handler.pastSnapshotList.length < 2 ^ 63
  index : 0 < handler.pastSnapshotList.length →
    handler.pastSnapshotIndex.toNat < handler.pastSnapshotList.length

/-- The slots from the one that is written next. -/
def slotOrder (handler : SnapshotHandler) : List (Option UInt64) :=
  handler.pastSnapshotList.rotate handler.pastSnapshotIndex.toNat

theorem slot_order_perm (handler : SnapshotHandler) :
    (slotOrder handler).Perm handler.pastSnapshotList :=
  List.rotate_perm _ _

section Ring

variable {handler : SnapshotHandler} (sound : Sound handler)
include sound

theorem size_toNat :
    (UInt64.ofNat handler.pastSnapshotList.length).toNat = handler.pastSnapshotList.length := by
  have bound := sound.bound
  exact UInt64.toNat_ofNat_of_lt' (by simp only [UInt64.size]; omega)

theorem current_slot :
    handler.pastSnapshotList[handler.pastSnapshotIndex.toNat]? = (slotOrder handler).head? := by
  by_cases empty : handler.pastSnapshotList.length = 0
  · rw [List.length_eq_zero_iff] at empty
    rw [slotOrder, empty, List.rotate_nil]
    rfl
  · have index := sound.index (by omega)
    rw [slotOrder, List.rotate_eq_drop_append_take index.le, List.drop_eq_getElem_cons index,
      List.cons_append, List.head?_cons, List.getElem?_eq_getElem index]

theorem oldest_snapshot_eq (stateDBDir : String) :
    getOldestSnapshotDir handler stateDBDir =
      ((slotOrder handler).filterMap (Option.map (snapshotDir stateDBDir))).head?.getD "" := by
  have bound := sound.bound
  have order : (slotOrder handler).filterMap (Option.map (snapshotDir stateDBDir)) =
      ((slotOrder handler).map some).filterMap
        (fun slot => slot.bind (Option.map (snapshotDir stateDBDir))) := by
    rw [List.filterMap_map]
    rfl
  rw [order, slotOrder, ← map_range_rotate, List.filterMap_map, List.head?_filterMap,
    getOldestSnapshotDir, ← List.head?_filterMap, ← List.head?_filterMap]
  congr 2
  apply List.filterMap_congr
  intro cnt inside
  rw [List.mem_range] at inside
  have index := sound.index (by omega)
  have offset : (UInt64.ofNat cnt).toNat = cnt :=
    UInt64.toNat_ofNat_of_lt' (by simp only [UInt64.size]; omega)
  have position : ((handler.pastSnapshotIndex + UInt64.ofNat cnt) %
      UInt64.ofNat handler.pastSnapshotList.length).toNat =
        (handler.pastSnapshotIndex.toNat + cnt) % handler.pastSnapshotList.length := by
    rw [UInt64.toNat_mod, size_toNat sound, UInt64.toNat_add, offset,
      Nat.mod_eq_of_lt (show handler.pastSnapshotIndex.toNat + cnt < 2 ^ 64 by omega)]
  dsimp only [Function.comp_apply]
  rw [position]
  rcases handler.pastSnapshotList[_]? with _ | _ | block <;> rfl

theorem enter_block_sound (currentBlock : UInt64) : Sound (enterBlock handler currentBlock) := by
  have bound := sound.bound
  have length : (enterBlock handler currentBlock).pastSnapshotList.length =
      handler.pastSnapshotList.length := List.length_set
  refine ⟨length ▸ bound, fun positive => ?_⟩
  rw [length] at positive ⊢
  change ((handler.pastSnapshotIndex + 1) %
    UInt64.ofNat handler.pastSnapshotList.length).toNat < _
  rw [UInt64.toNat_mod, size_toNat sound]
  exact Nat.mod_lt _ positive

/-- The ring as a queue: a block enters at the end, and the first slot drops out. -/
theorem enter_block_order (currentBlock : UInt64) (positive : 0 < handler.pastSnapshotList.length) :
    slotOrder (enterBlock handler currentBlock) =
      (slotOrder handler).tail ++ [some currentBlock] := by
  have bound := sound.bound
  have index := sound.index positive
  have next : ((handler.pastSnapshotIndex + 1) %
      UInt64.ofNat handler.pastSnapshotList.length).toNat =
        (handler.pastSnapshotIndex.toNat + 1) %
          (handler.pastSnapshotList.set handler.pastSnapshotIndex.toNat
            (some currentBlock)).length := by
    rw [UInt64.toNat_mod, size_toNat sound, UInt64.toNat_add, List.length_set]
    change (handler.pastSnapshotIndex.toNat + 1) % 2 ^ 64 % _ = _
    rw [Nat.mod_eq_of_lt (show handler.pastSnapshotIndex.toNat + 1 < 2 ^ 64 by omega)]
  rw [slotOrder, enterBlock, next, List.rotate_mod, rotate_set_succ _ index, slotOrder]

end Ring

/-! ## One call -/

section Call

variable {stateDBDir : String} {currentBlock : UInt64} {state : State}
variable {operations : Operations Content State} {store : SnapshotStore Content}

theorem snapshot_not_due (notDue : shouldCreateSnapshot store.handler currentBlock = false) :
    snapshot stateDBDir currentBlock state operations store = (store, .ok state) := by
  rw [snapshot, if_pos notDue]

theorem snapshot_without_slots (sound : Sound store.handler)
    (due : shouldCreateSnapshot store.handler currentBlock = true)
    (noSlot : (slotOrder store.handler).head? = none) :
    ∃ message, snapshot stateDBDir currentBlock state operations store =
      (store, .error (.panic message)) := by
  rw [snapshot, if_neg (by simp [due])]
  dsimp only
  rw [current_slot sound, noSlot]
  exact ⟨_, rfl⟩

theorem snapshot_fills (sound : Sound store.handler)
    (due : shouldCreateSnapshot store.handler currentBlock = true)
    (free : (slotOrder store.handler).head? = some none) :
    snapshot stateDBDir currentBlock state operations store =
      copyState stateDBDir currentBlock operations
        ⟨enterBlock store.handler currentBlock, store.directories⟩ := by
  rw [snapshot, if_neg (by simp [due])]
  dsimp only
  rw [current_slot sound, free]
  rfl

theorem snapshot_displaces (sound : Sound store.handler)
    (due : shouldCreateSnapshot store.handler currentBlock = true) {past : UInt64}
    (taken : (slotOrder store.handler).head? = some (some past)) :
    snapshot stateDBDir currentBlock state operations store =
      match removeAll store.directories (snapshotDir stateDBDir past) operations.removeOldest with
      | (directories, .error err) =>
          ({ store with directories := directories }, .error (.error
            s!"failed to remove previous state database snapshot: {err}"))
      | (directories, .ok ()) =>
          copyState stateDBDir currentBlock operations
            ⟨enterBlock store.handler currentBlock, directories⟩ := by
  have oldest : getOldestSnapshotDir store.handler stateDBDir = snapshotDir stateDBDir past := by
    obtain ⟨rest, order⟩ := List.head?_eq_some_iff.mp taken
    rw [oldest_snapshot_eq sound, order]
    rfl
  rw [snapshot, if_neg (by simp [due])]
  dsimp only
  rw [current_slot sound, taken, oldest]
  exact if_pos ⟨nofun, snapshot_dir_ne_empty stateDBDir past⟩

def Operations.leave (operations : Operations Content State) (existing : Directory Content) :
    Directory Content :=
  match operations.removeExisting with
  | .failed _ left => left.leave existing
  | .removed =>
  match operations.close with
  | .error _ => .absent
  | .ok () =>
  match operations.copyFS with
  | .failed _ created => if created then .incomplete else .absent
  | .copied content => .copy content

theorem copy_state_store (stateDBDir : String) (currentBlock : UInt64)
    (operations : Operations Content State) (store : SnapshotStore Content) :
    (copyState stateDBDir currentBlock operations store).1 =
      ⟨store.handler, Function.update store.directories (snapshotDir stateDBDir currentBlock)
        (operations.leave (store.directories (snapshotDir stateDBDir currentBlock)))⟩ := by
  dsimp only [copyState, Operations.leave]
  cases operations.removeExisting with
  | failed err left => rfl
  | removed =>
      dsimp only [removeAll]
      cases operations.close with
      | error err => rfl
      | ok _ =>
          cases operations.copyFS with
          | failed err created =>
              dsimp only
              rw [Function.update_idem]
          | copied content =>
              dsimp only
              rw [Function.update_idem]
              cases operations.newState <;> rfl

theorem leave_of_copy_state_ok {after : State}
    (succeeds : (copyState stateDBDir currentBlock operations store).2 = .ok after)
    (existing : Directory Content) : ∃ content, operations.leave existing = .copy content := by
  dsimp only [copyState] at succeeds
  rw [Operations.leave]
  cases removal : operations.removeExisting with
  | failed err left =>
      rw [removal] at succeeds
      cases succeeds
  | removed =>
      rw [removal] at succeeds
      dsimp only [removeAll] at succeeds ⊢
      cases closing : operations.close with
      | error err =>
          rw [closing] at succeeds
          cases succeeds
      | ok _ =>
          rw [closing] at succeeds
          cases copying : operations.copyFS with
          | failed err created =>
              rw [copying] at succeeds
              cases succeeds
          | copied content => exact ⟨content, rfl⟩

theorem copy_state_ok {next : SnapshotStore Content} {after : State}
    (copies : copyState stateDBDir currentBlock operations store = (next, .ok after)) :
    ∃ content, next = { store with
      directories := Function.update store.directories (snapshotDir stateDBDir currentBlock)
        (.copy content) } := by
  have written := copy_state_store stateDBDir currentBlock operations store
  obtain ⟨content, left⟩ := leave_of_copy_state_ok (congrArg Prod.snd copies)
    (store.directories (snapshotDir stateDBDir currentBlock))
  rw [copies, left] at written
  exact ⟨content, written⟩

/-- What a call that succeeds does when a snapshot is due: the block enters the ring, its
directory is a copy, and the one of the block that drops out is gone. -/
theorem snapshot_ok (sound : Sound store.handler)
    (due : shouldCreateSnapshot store.handler currentBlock = true)
    {next : SnapshotStore Content} {after : State}
    (succeeds : snapshot stateDBDir currentBlock state operations store = (next, .ok after)) :
    ∃ past content, (slotOrder store.handler).head? = some past ∧
      next.handler = enterBlock store.handler currentBlock ∧
      ∀ block, next.directories (snapshotDir stateDBDir block) =
        if block = currentBlock then .copy content
        else if past = some block then .absent
        else store.directories (snapshotDir stateDBDir block) := by
  rcases slot : (slotOrder store.handler).head? with _ | _ | past
  · obtain ⟨message, panics⟩ : ∃ message, snapshot stateDBDir currentBlock state operations store =
        (store, .error (.panic message)) := snapshot_without_slots sound due slot
    rw [panics] at succeeds
    cases succeeds
  · rw [snapshot_fills sound due slot] at succeeds
    obtain ⟨content, rfl⟩ := copy_state_ok succeeds
    refine ⟨none, content, rfl, rfl, fun block => ?_⟩
    dsimp only
    rw [update_snapshot_dir, if_neg (show ¬ none = some block from nofun)]
  · rw [snapshot_displaces sound due slot] at succeeds
    cases removal : operations.removeOldest with
    | failed err left =>
        rw [removal] at succeeds
        cases succeeds
    | removed =>
        rw [removal] at succeeds
        obtain ⟨content, rfl⟩ := copy_state_ok succeeds
        refine ⟨some past, content, rfl, rfl, fun block => ?_⟩
        dsimp only
        rw [update_snapshot_dir, update_snapshot_dir]
        simp only [Option.some.injEq, eq_comm]

end Call

end Bertha.Snapshots
