import Bertha.Snapshots

/-!
# Retention of snapshots

What a `SnapshotHandler` keeps over a sequence of successful calls: the ring filled with the
blocks at which snapshots were due is the queue of the newest of them, and the directories
that exist are those of the queue.
-/

namespace Bertha.Snapshots

open Bertha.ChainAdapter

set_option autoImplicit false

variable {Content State : Type}

structure SnapshotCall (Content State : Type) where
  currentBlock : UInt64
  state : State
  operations : Operations Content State

def SnapshotCall.run (stateDBDir : String) (call : SnapshotCall Content State)
    (store : SnapshotStore Content) : SnapshotStore Content × Except Failure State :=
  snapshot stateDBDir call.currentBlock call.state call.operations store

def afterCalls (stateDBDir : String) (calls : List (SnapshotCall Content State))
    (store : SnapshotStore Content) : SnapshotStore Content :=
  calls.foldl (fun store call => (call.run stateDBDir store).1) store

def AllSucceed (stateDBDir : String) :
    List (SnapshotCall Content State) → SnapshotStore Content → Prop
  | [], _ => True
  | call :: rest, store =>
      ∃ next after, call.run stateDBDir store = (next, .ok after) ∧ AllSucceed stateDBDir rest next

/-! ## The newest blocks -/

def newest (size : Nat) (due : List UInt64) : List UInt64 := due.drop (due.length - size)

/-- The order of a ring of the given size into which the blocks have been entered. -/
def filledOrder (size : Nat) (due : List UInt64) : List (Option UInt64) :=
  List.replicate (size - due.length) none ++ (newest size due).map some

theorem newest_length (size : Nat) (due : List UInt64) :
    (newest size due).length = min size due.length := by
  rw [newest, List.length_drop]
  omega

theorem newest_snoc_filling {size : Nat} {due : List UInt64} (filling : due.length < size)
    (block : UInt64) : newest size (due ++ [block]) = newest size due ++ [block] := by
  have all : due.length - size = 0 := by omega
  have allNext : (due ++ [block]).length - size = 0 := by
    rw [List.length_append, List.length_singleton]
    omega
  rw [newest, newest, all, allNext, List.drop_zero, List.drop_zero]

theorem newest_snoc_full {size : Nat} {due : List UInt64} (full : size ≤ due.length)
    (positive : 0 < size) (block : UInt64) :
    newest size (due ++ [block]) = (newest size due).tail ++ [block] := by
  have next : (due ++ [block]).length - size = due.length - size + 1 := by
    rw [List.length_append, List.length_singleton]
    omega
  rw [newest, newest, next, List.tail_drop, List.drop_append_of_le_length (by omega)]

theorem filled_order_snoc {size : Nat} (positive : 0 < size) (due : List UInt64)
    (block : UInt64) :
    filledOrder size (due ++ [block]) = (filledOrder size due).tail ++ [some block] := by
  have length : (due ++ [block]).length = due.length + 1 := List.length_append
  by_cases filling : due.length < size
  · have slots : size - due.length = size - (due.length + 1) + 1 := by omega
    rw [filledOrder, filledOrder, newest_snoc_filling filling, length, slots,
      List.replicate_succ, List.cons_append, List.tail_cons, List.map_append, List.append_assoc]
    rfl
  · have full : size ≤ due.length := by omega
    have noSlots : size - due.length = 0 := by omega
    have noSlotsNext : size - (due.length + 1) = 0 := by omega
    rw [filledOrder, filledOrder, newest_snoc_full full positive, length, noSlots, noSlotsNext,
      List.replicate_zero, List.nil_append, List.nil_append, List.map_append, List.map_tail]
    rfl

/-- The first slot holds a block only once the ring is full, and then the oldest one kept. -/
theorem filled_order_head {size : Nat} (positive : 0 < size) (due : List UInt64) :
    (filledOrder size due).head? = some
      (if due.length < size then none else (newest size due).head?) := by
  by_cases filling : due.length < size
  · have slots : size - due.length = size - (due.length + 1) + 1 := by omega
    rw [filledOrder, slots, List.replicate_succ, if_pos filling]
    rfl
  · have noSlots : size - due.length = 0 := by omega
    have some_kept : newest size due ≠ [] := by
      rw [← List.length_pos_iff, newest_length]
      omega
    obtain ⟨oldest, rest, order⟩ := List.exists_cons_of_ne_nil some_kept
    rw [filledOrder, noSlots, if_neg filling, order]
    rfl

theorem filled_order_dirs (stateDBDir : String) (size : Nat) (due : List UInt64) :
    (filledOrder size due).filterMap (Option.map (snapshotDir stateDBDir)) =
      (newest size due).map (snapshotDir stateDBDir) := by
  have nothing (count : Nat) :
      (List.replicate count (none : Option UInt64)).filterMap
        (Option.map (snapshotDir stateDBDir)) = [] := by
    rw [List.filterMap_replicate]
    rfl
  rw [filledOrder, List.filterMap_append, nothing, List.nil_append, List.filterMap_map]
  exact congrFun List.filterMap_eq_map _

/-! ## Runs -/

/-- A handler and its directories after snapshots at the given blocks. -/
structure Keeps (stateDBDir : String) (first : SnapshotHandler) (due : List UInt64)
    (store : SnapshotStore Content) : Prop where
  sound : Sound store.handler
  length : store.handler.pastSnapshotList.length = first.pastSnapshotList.length
  should : shouldCreateSnapshot store.handler = shouldCreateSnapshot first
  order : slotOrder store.handler = filledOrder first.pastSnapshotList.length due
  existing : ∀ block, store.directories (snapshotDir stateDBDir block) ≠ .absent ↔
    block ∈ newest first.pastSnapshotList.length due

variable {stateDBDir : String} {first : SnapshotHandler} {due : List UInt64}
variable {store next : SnapshotStore Content}

/-- A snapshot behind all earlier ones moves the window of the newest on. -/
theorem Keeps.step (keeps : Keeps stateDBDir first due store)
    (positive : 0 < first.pastSnapshotList.length) {call : SnapshotCall Content State}
    (increasing : (due ++ [call.currentBlock]).Pairwise (· < ·)) {after : State}
    (isDue : shouldCreateSnapshot first call.currentBlock = true)
    (succeeds : call.run stateDBDir store = (next, .ok after)) :
    Keeps stateDBDir first (due ++ [call.currentBlock]) next := by
  obtain ⟨past, content, slot, entered, written⟩ :=
    snapshot_ok keeps.sound (keeps.should ▸ isDue) succeeds
  have room : 0 < store.handler.pastSnapshotList.length := keeps.length ▸ positive
  rw [keeps.order, filled_order_head positive, Option.some.injEq] at slot
  refine ⟨entered ▸ enter_block_sound keeps.sound _, ?_, ?_, ?_, fun block => ?_⟩
  · rw [entered, ← keeps.length]
    exact List.length_set
  · rw [entered, ← keeps.should]
    rfl
  · rw [entered, enter_block_order keeps.sound _ room, keeps.order, filled_order_snoc positive]
  · rw [written block]
    have existing := keeps.existing block
    by_cases filling : due.length < first.pastSnapshotList.length
    · rw [if_pos filling] at slot
      rw [newest_snoc_filling filling, List.mem_append, List.mem_singleton, ← existing, ← slot]
      by_cases current : block = call.currentBlock
      · simp [current]
      · simp [current]
    · rw [if_neg filling] at slot
      have some_kept : newest first.pastSnapshotList.length due ≠ [] := by
        rw [← List.length_pos_iff, newest_length]
        omega
      obtain ⟨oldest, others, order⟩ := List.exists_cons_of_ne_nil some_kept
      have distinct : (oldest :: others).Pairwise (· < ·) := by
        rw [← order]
        exact (List.pairwise_append.mp increasing).1.sublist (List.drop_sublist _ _)
      have dropped : oldest ∉ others := fun again =>
        absurd ((List.pairwise_cons.mp distinct).1 oldest again) (UInt64.lt_irrefl oldest)
      rw [newest_snoc_full (by omega) positive, List.mem_append, List.mem_singleton, order,
        List.tail_cons, ← slot, order, List.head?_cons]
      simp only [Option.some.injEq]
      rw [order, List.mem_cons] at existing
      by_cases current : block = call.currentBlock
      · simp [current]
      · rw [if_neg current]
        by_cases isOldest : oldest = block
        · rw [if_pos isOldest, ← isOldest]
          exact iff_of_false (fun absent => absent rfl)
            (not_or.mpr ⟨dropped, isOldest ▸ current⟩)
        · rw [if_neg isOldest, existing, or_iff_right (Ne.symm isOldest), or_iff_left current]

theorem Keeps.not_due (keeps : Keeps stateDBDir first due store)
    {call : SnapshotCall Content State} {after : State}
    (notDue : shouldCreateSnapshot first call.currentBlock = false)
    (succeeds : call.run stateDBDir store = (next, .ok after)) :
    Keeps stateDBDir first due next := by
  rw [SnapshotCall.run, snapshot_not_due (keeps.should ▸ notDue)] at succeeds
  obtain ⟨rfl, _⟩ := Prod.mk.inj succeeds
  exact keeps

theorem keeps_after_calls (positive : 0 < first.pastSnapshotList.length)
    {calls : List (SnapshotCall Content State)} (keeps : Keeps stateDBDir first due store)
    (increasing : (due ++ calls.map SnapshotCall.currentBlock).Pairwise (· < ·))
    (succeed : AllSucceed stateDBDir calls store) :
    Keeps stateDBDir first
      (due ++ (calls.map SnapshotCall.currentBlock).filter (shouldCreateSnapshot first))
      (afterCalls stateDBDir calls store) := by
  induction calls generalizing due store with
  | nil => simpa [afterCalls] using keeps
  | cons call rest inductionHypothesis =>
      obtain ⟨next, after, succeeds, others⟩ := succeed
      have runs : afterCalls stateDBDir (call :: rest) store = afterCalls stateDBDir rest next := by
        rw [afterCalls, List.foldl_cons, succeeds]
        rfl
      rw [List.map_cons] at increasing ⊢
      rw [runs]
      cases isDue : shouldCreateSnapshot first call.currentBlock with
      | true =>
          have entered : (due ++ [call.currentBlock]).Pairwise (· < ·) :=
            increasing.sublist (List.Sublist.append_left (by simp) due)
          rw [List.filter_cons_of_pos isDue, List.append_cons]
          apply inductionHypothesis (keeps.step positive entered isDue succeeds) _ others
          rwa [List.append_cons] at increasing
      | false =>
          rw [List.filter_cons_of_neg (by simp [isDue])]
          apply inductionHypothesis (keeps.not_due isDue succeeds) _ others
          exact increasing.sublist (List.Sublist.append_left (List.sublist_cons_self _ _) due)

theorem keeps_new {blockInterval startBlock endBlock snapshotToKeep : UInt64}
    (made : newSnapshotHandler blockInterval startBlock endBlock snapshotToKeep = .ok first)
    {directories : String → Directory Content}
    (fresh : ∀ block, directories (snapshotDir stateDBDir block) = .absent) :
    first.pastSnapshotList.length = snapshotToKeep.toNat ∧
      Keeps stateDBDir first [] ⟨first, directories⟩ := by
  rw [newSnapshotHandler] at made
  split_ifs at made with bound
  cases made
  have length : (List.replicate snapshotToKeep.toNat (none : Option UInt64)).length =
      snapshotToKeep.toNat := List.length_replicate
  refine ⟨length, ⟨?_, fun positive => positive⟩, rfl, rfl, ?_, fun block => ?_⟩
  · change (List.replicate snapshotToKeep.toNat none).length < 2 ^ 63
    rwa [List.length_replicate]
  · change (List.replicate snapshotToKeep.toNat none).rotate 0 = filledOrder _ []
    rw [List.rotate_zero, filledOrder, length]
    simp [newest]
  · exact iff_of_false (fun existing => existing (fresh block)) (by simp [newest])

/-! ## Calls in which nothing fails -/

structure Operations.Successful (operations : Operations Content State) : Prop where
  removeOldest : operations.removeOldest = .removed
  removeExisting : operations.removeExisting = .removed
  close : operations.close = .ok ()
  copyFS : ∃ content, operations.copyFS = .copied content
  newState : ∃ state, operations.newState = .ok state

theorem copy_state_succeeds {operations : Operations Content State}
    (successful : operations.Successful) (stateDBDir : String) (currentBlock : UInt64)
    (store : SnapshotStore Content) :
    ∃ next after, copyState stateDBDir currentBlock operations store = (next, .ok after) ∧
      next.handler = store.handler := by
  obtain ⟨content, copies⟩ := successful.copyFS
  obtain ⟨after, reopens⟩ := successful.newState
  simp only [copyState, successful.removeExisting, removeAll, successful.close, copies, reopens]
  exact ⟨_, _, rfl, rfl⟩

theorem run_succeeds (sound : Sound store.handler)
    (positive : 0 < store.handler.pastSnapshotList.length) {call : SnapshotCall Content State}
    (successful : call.operations.Successful) :
    ∃ next after, call.run stateDBDir store = (next, .ok after) ∧ Sound next.handler ∧
      0 < next.handler.pastSnapshotList.length := by
  have entered : Sound (enterBlock store.handler call.currentBlock) ∧
      0 < (enterBlock store.handler call.currentBlock).pastSnapshotList.length := by
    refine ⟨enter_block_sound sound _, ?_⟩
    rw [enterBlock, List.length_set]
    exact positive
  cases isDue : shouldCreateSnapshot store.handler call.currentBlock with
  | false => exact ⟨store, call.state, snapshot_not_due isDue, sound, positive⟩
  | true =>
      rcases slot : (slotOrder store.handler).head? with _ | _ | past
      · rw [List.head?_eq_none_iff, slotOrder, List.rotate_eq_nil_iff] at slot
        rw [slot] at positive
        cases positive
      · obtain ⟨next, after, copies, same⟩ := copy_state_succeeds successful stateDBDir
          call.currentBlock ⟨enterBlock store.handler call.currentBlock, store.directories⟩
        refine ⟨next, after, ?_, same ▸ entered⟩
        rw [SnapshotCall.run, snapshot_fills sound isDue slot, copies]
      · obtain ⟨next, after, copies, same⟩ := copy_state_succeeds successful stateDBDir
          call.currentBlock ⟨enterBlock store.handler call.currentBlock,
            Function.update store.directories (snapshotDir stateDBDir past) .absent⟩
        refine ⟨next, after, ?_, same ▸ entered⟩
        rw [SnapshotCall.run, snapshot_displaces sound isDue slot, successful.removeOldest]
        exact copies

theorem all_succeed {calls : List (SnapshotCall Content State)} (sound : Sound store.handler)
    (positive : 0 < store.handler.pastSnapshotList.length)
    (successful : ∀ call ∈ calls, call.operations.Successful) :
    AllSucceed stateDBDir calls store := by
  induction calls generalizing store with
  | nil => trivial
  | cons call rest inductionHypothesis =>
      rw [List.forall_mem_cons] at successful
      obtain ⟨next, after, runs, nextSound, nextPositive⟩ :=
        run_succeeds sound positive successful.1
      exact ⟨next, after, runs, inductionHypothesis nextSound nextPositive successful.2⟩

/-! ## The snapshots kept -/

/-- After successful calls for increasing blocks, of which none had a snapshot before, the
snapshots that exist are those of the last due blocks, and the handler lists these. -/
theorem snapshots_keep_newest {blockInterval startBlock endBlock snapshotToKeep : UInt64}
    (keepsOne : 1 ≤ snapshotToKeep) {handler : SnapshotHandler}
    (made : newSnapshotHandler blockInterval startBlock endBlock snapshotToKeep = .ok handler)
    (stateDBDir : String) {directories : String → Directory Content}
    (fresh : ∀ block, directories (snapshotDir stateDBDir block) = .absent)
    {calls : List (SnapshotCall Content State)}
    (increasing : (calls.map SnapshotCall.currentBlock).Pairwise (· < ·))
    (succeed : AllSucceed stateDBDir calls ⟨handler, directories⟩) :
    let due := (calls.map SnapshotCall.currentBlock).filter (shouldCreateSnapshot handler)
    let kept := due.drop (due.length - snapshotToKeep.toNat)
    let store := afterCalls stateDBDir calls ⟨handler, directories⟩
    kept.length = min snapshotToKeep.toNat due.length ∧
      (∀ block, store.directories (snapshotDir stateDBDir block) ≠ .absent ↔ block ∈ kept) ∧
      (getSnapshotDirs store.handler stateDBDir).Perm (kept.map (snapshotDir stateDBDir)) ∧
      (due = [] → getOldestSnapshotDir store.handler stateDBDir = "") ∧
      ∀ oldest ∈ kept, (∀ block ∈ kept, oldest ≤ block) →
        getOldestSnapshotDir store.handler stateDBDir = snapshotDir stateDBDir oldest := by
  intro due kept store
  obtain ⟨size, fromStart⟩ := keeps_new made fresh
  have positive : 0 < handler.pastSnapshotList.length := by
    rw [size]
    exact UInt64.le_iff_toNat_le.mp keepsOne
  have keeps : Keeps stateDBDir handler due store :=
    keeps_after_calls positive fromStart increasing succeed
  have isKept : newest handler.pastSnapshotList.length due = kept := by
    rw [size]
    rfl
  have oldestDir : getOldestSnapshotDir store.handler stateDBDir =
      (kept.map (snapshotDir stateDBDir)).head?.getD "" := by
    rw [oldest_snapshot_eq keeps.sound, keeps.order, filled_order_dirs, isKept]
  refine ⟨?_, ?_, ?_, ?_, ?_⟩
  · exact newest_length snapshotToKeep.toNat due
  · rw [← isKept]
    exact keeps.existing
  · have listed := (slot_order_perm store.handler).symm.filterMap
      (Option.map (snapshotDir stateDBDir))
    rwa [keeps.order, filled_order_dirs, isKept] at listed
  · intro none
    have nothing : kept = [] := by
      change due.drop _ = []
      rw [none, List.drop_nil]
    rw [oldestDir, nothing]
    rfl
  · intro oldest member least
    have sorted : kept.Pairwise (· < ·) :=
      (increasing.sublist List.filter_sublist).sublist (List.drop_sublist _ _)
    obtain ⟨smallest, others, order⟩ := List.exists_cons_of_ne_nil (List.ne_nil_of_mem member)
    rw [order] at sorted member
    have isSmallest : oldest = smallest := by
      rcases List.mem_cons.mp member with same | later
      · exact same
      · have above := (List.pairwise_cons.mp sorted).1 oldest later
        have below := least smallest (order ▸ List.mem_cons_self)
        exact absurd above (UInt64.not_lt.mpr below)
    rw [oldestDir, order, isSmallest]
    rfl

def plainCall (currentBlock : UInt64) : SnapshotCall String Unit where
  currentBlock := currentBlock
  state := ()
  operations :=
    { removeOldest := .removed
      removeExisting := .removed
      close := .ok ()
      copyFS := .copied s!"state at {currentBlock}"
      newState := .ok ()
      quote := id }

def plainCalls : List (SnapshotCall String Unit) := [1000, 1500, 2000, 3000].map plainCall

theorem snapshots_keep_newest_plain :
    let handler : SnapshotHandler := ⟨1000, 100, 10000, [none, none], 0⟩
    let store := afterCalls "state" plainCalls ⟨handler, fun _ => .absent⟩
    store.directories (snapshotDir "state" 1000) = .absent ∧
      getOldestSnapshotDir store.handler "state" = snapshotDir "state" 2000 := by
  intro handler store
  have made : newSnapshotHandler 1000 100 10000 2 = .ok handler := rfl
  have succeed : AllSucceed "state" plainCalls ⟨handler, fun _ => .absent⟩ := by
    refine all_succeed ⟨by decide, fun positive => positive⟩ (by decide) ?_
    rw [plainCalls, List.forall_mem_map]
    exact fun block _ => ⟨rfl, rfl, rfl, ⟨_, rfl⟩, ⟨_, rfl⟩⟩
  have due : (plainCalls.map SnapshotCall.currentBlock).filter (shouldCreateSnapshot handler) =
      [1000, 2000, 3000] := by decide
  have keeps := snapshots_keep_newest (by decide) made "state" (fun _ => rfl) (by decide) succeed
  dsimp only at keeps
  rw [due] at keeps
  constructor
  · by_contra existing
    have again : (1000 : UInt64) ∈ [2000, 3000] := (keeps.2.1 1000).mp existing
    exact absurd again (by decide)
  · have kept : (2000 : UInt64) ∈ [2000, 3000] := List.mem_cons_self
    have least : ∀ block ∈ [2000, 3000], (2000 : UInt64) ≤ block := by simp
    exact keeps.2.2.2.2 2000 kept least

end Bertha.Snapshots
