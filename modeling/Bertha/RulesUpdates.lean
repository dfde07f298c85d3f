import Bertha.RulesHistory

/-!
# Which updates take effect

Two ways in which an update of the rules can get lost. Pending rules are kept in memory
only, so a replay that is resumed between a patch and its commit forgets them. A commit
makes an entry for the next block, so a patch that follows it in the same block starts
from the rules before it. Away from these two cases a resumed run agrees with an
uninterrupted one and every commit makes all patches so far effective.
-/

namespace Bertha.RulesUpdates

open Bertha.BigEndian Bertha.GoBlockDb Bertha.OrderedStore Bertha.RulesStore Bertha.Timeline
open Bertha.RulesHistory
open Bertha.BlockDb (KvDb)

set_option autoImplicit false

variable {Details Correction FailedBundle : Type} [DecidableEq Details]

/-! ## Resuming -/

/-- The calls after the split, on a store made from the database the first calls leave, end
with the list and the outcomes of one run over all calls. -/
def Resumes (libraries : Libraries Details Correction FailedBundle) (genesis : Rules Details)
    (store : MetadataStore Details Correction FailedBundle) (before after : List RulesCall) :
    Prop :=
  ∃ resumed, newBlockDBMetadataStore libraries (runCalls libraries store before).1.db genesis
      true = .ok resumed ∧
    (runCalls libraries resumed after).1.rulesUpdateHeights =
      (runCalls libraries store (before ++ after)).1.rulesUpdateHeights ∧
    (runCalls libraries store before).2 ++ (runCalls libraries resumed after).2 =
      (runCalls libraries store (before ++ after)).2

def Reloads (libraries : Libraries Details Correction FailedBundle) (genesis : Rules Details)
    (store : MetadataStore Details Correction FailedBundle) : Prop :=
  newBlockDBMetadataStore libraries store.db genesis true = .ok { store with nextRules := none }

section Reload

variable {libraries : Libraries Details Correction FailedBundle} {db : KvDb}
variable {store : MetadataStore Details Correction FailedBundle} {genesis : Rules Details}

theorem created_reloads
    (created : newBlockDBMetadataStore libraries db genesis true = .ok store) :
    Reloads libraries genesis store := by
  obtain ⟨_, _, _, sameDb, notPending, _⟩ := new_store_eq_ok.mp created
  have unchanged : { store with nextRules := none } = store := by rw [← notPending]
  rw [Reloads, unchanged, sameDb]
  exact created

theorem stored_heights_reload {heights : List (RulesUpdateHeight Details)} {data : Bytes}
    (reloads : Reloads libraries genesis store) (grounded : Grounded genesis heights)
    (lossless : libraries.unmarshal data = .ok heights) :
    Reloads libraries genesis
      { store with
        db := putRulesUpdateHeights store.db genesis.networkID data
        rulesUpdateHeights := heights } := by
  obtain ⟨_, parsedCorrections, parsedBundles, _, _, write⟩ := new_store_eq_ok.mp reloads
  apply new_store_eq_ok.mpr
  refine ⟨⟨heights, ?_, ensure_genesis_of_grounded grounded⟩, ?_, ?_, rfl, rfl, write⟩
  · rw [getRulesUpdateHeights, putRulesUpdateHeights, get_put, if_pos rfl, parseStored, lossless]
    rfl
  · rw [getCorrections, putRulesUpdateHeights, get_put, if_neg]
    · exact parsedCorrections
    · simp [makeRulesUpdateHeightsKey, makeCorrectionsKey]
  · rw [getFailedBundles, putRulesUpdateHeights, get_put, if_neg]
    · exact parsedBundles
    · simp [makeRulesUpdateHeightsKey, makeFailedBundlesKey]

theorem apply_call_reloads
    (lossless : ∀ heights, ∃ data, libraries.marshal heights = .ok data ∧
      libraries.unmarshal data = .ok heights)
    (grounded : Grounded genesis store.rulesUpdateHeights)
    (reloads : Reloads libraries genesis store) (call : RulesCall) :
    Reloads libraries genesis (applyCall libraries store call).1 := by
  have nextGrounded : Grounded genesis (applyCall libraries store call).1.rulesUpdateHeights :=
    apply_call_grounded grounded call
  cases call with
  | patch blockNumber diff =>
      obtain ⟨nextRules, patched⟩ := patch_rules_cases libraries store blockNumber diff
      rw [applyCall, patched]
      exact reloads
  | commit blockNumber =>
      rw [applyCall] at nextGrounded ⊢
      rcases commit_rules_cases libraries store blockNumber with
        nothing | ⟨_, _, _, _, known, _⟩ | ⟨nextRules, _, _, added⟩
      · rw [nothing.2]
        exact reloads
      · rw [known]
        exact reloads
      · have write : store.writeRulesUpdateHeights = true :=
          (new_store_eq_ok.mp reloads).2.2.2.2.2
        obtain ⟨data, written, read⟩ :=
          lossless (sortHeights (store.rulesUpdateHeights ++ [⟨blockNumber + 1, nextRules⟩]))
        rw [added] at nextGrounded ⊢
        simp only [storeHeights, write, written, Bool.true_eq_false, if_false] at nextGrounded ⊢
        have networkID : ((sortHeights (store.rulesUpdateHeights ++
            [⟨blockNumber + 1, nextRules⟩])).headD ⟨blockNumber + 1, nextRules⟩).rules.networkID =
            genesis.networkID := by
          rw [List.headD_eq_head?_getD, nextGrounded.first]
          rfl
        rw [networkID]
        have stored := stored_heights_reload reloads nextGrounded read
        rw [write] at stored
        exact stored

theorem run_calls_reloads
    (lossless : ∀ heights, ∃ data, libraries.marshal heights = .ok data ∧
      libraries.unmarshal data = .ok heights)
    (grounded : Grounded genesis store.rulesUpdateHeights)
    (reloads : Reloads libraries genesis store) (calls : List RulesCall) :
    Reloads libraries genesis (runCalls libraries store calls).1 := by
  induction calls generalizing store with
  | nil => exact reloads
  | cons call rest ih =>
      exact ih (apply_call_grounded grounded call)
        (apply_call_reloads lossless grounded reloads call)

/-- With nothing pending at the split the resumed run agrees with the uninterrupted one,
whatever follows. With pending rules the two differ at the first commit that would have
made a new entry of them. -/
theorem resumed_run_agrees
    (lossless : ∀ heights, ∃ data, libraries.marshal heights = .ok data ∧
      libraries.unmarshal data = .ok heights)
    (created : newBlockDBMetadataStore libraries db genesis true = .ok store)
    (before : List RulesCall) :
    ((runCalls libraries store before).1.nextRules = none →
        ∀ after, Resumes libraries genesis store before after) ∧
      ∀ blockNumber,
        (∀ entry ∈ (runCalls libraries store before).1.rulesUpdateHeights,
          entry.block ≠ blockNumber + 1) →
        Resumes libraries genesis store before [.commit blockNumber] →
        (runCalls libraries store before).1.nextRules = none := by
  have reloads : newBlockDBMetadataStore libraries (runCalls libraries store before).1.db genesis
      true = .ok { (runCalls libraries store before).1 with nextRules := none } :=
    run_calls_reloads lossless (created_grounded created) (created_reloads created) before
  constructor
  · intro notPending after
    have unchanged : { (runCalls libraries store before).1 with nextRules := none } =
        (runCalls libraries store before).1 := by rw [← notPending]
    rw [unchanged] at reloads
    refine ⟨_, reloads, ?_, ?_⟩
    · rw [run_calls_append]
    · rw [run_calls_append]
  · intro blockNumber fresh resumes
    obtain ⟨resumed, recreated, heights, _⟩ := resumes
    rw [reloads, Except.ok.injEq] at recreated
    rw [run_calls_append, ← recreated] at heights
    by_contra pending
    obtain ⟨nextRules, pendingEq⟩ := Option.ne_none_iff_exists'.mp pending
    rcases commit_rules_cases libraries (runCalls libraries store before).1 blockNumber with
      nothing | ⟨_, existing, _, found, _⟩ | ⟨_, _, _, added⟩
    · exact pending nothing.1
    · have block : existing.block = blockNumber + 1 := by
        simpa using List.find?_some found
      exact fresh existing (List.mem_of_find?_eq_some found) block
    · -- the resumed store has nothing to commit, so its list is one entry shorter
      have shorter := congrArg List.length heights
      simp only [runCalls, applyCall, added] at shorter
      obtain ⟨_, kept⟩ := store_heights_cases libraries
        { (runCalls libraries store before).1 with
          nextRules := none
          rulesUpdateHeights := sortHeights
            ((runCalls libraries store before).1.rulesUpdateHeights ++ [⟨blockNumber + 1, _⟩]) }
        ⟨blockNumber + 1, _⟩
      rw [kept] at shorter
      simp only [commitRules, sortHeights, (sort_by_perm _ _).length_eq, List.length_append,
        List.length_singleton] at shorter
      omega

end Reload

theorem resumed_run_agrees_plain :
    Resumes plainLibraries plainGenesis (plainStore true) [.patch 1 [0, 20], .commit 2]
      [.patch 3 [1, 5], .commit 4] := by
  have notPending : (runCalls plainLibraries (plainStore true)
      [.patch 1 [0, 20], .commit 2]).1.nextRules = none := by rfl
  exact (resumed_run_agrees plain_lossless (plain_created true) _).1 notPending _

/-- A replay stopped after the patch of block 1 has forgotten it at the commit of block 2. -/
theorem resumed_run_loses_pending_rules :
    newBlockDBMetadataStore plainLibraries ∅ plainGenesis true = .ok (plainStore true) ∧
      ¬ Resumes plainLibraries plainGenesis (plainStore true) [.patch 1 [0, 20]] [.commit 2] := by
  refine ⟨plain_created true, ?_⟩
  intro resumes
  obtain ⟨resumed, recreated, heights, _⟩ := resumes
  have sameDb : (runCalls plainLibraries (plainStore true) [.patch 1 [0, 20]]).1.db = ∅ := rfl
  rw [sameDb, plain_created true, Except.ok.injEq] at recreated
  rw [← recreated] at heights
  have lengths := congrArg List.length heights
  revert lengths
  decide

/-! ## Patches and commits -/

def diffs : List RulesCall → List Bytes
  | [] => []
  | .patch _ diff :: rest => diff :: diffs rest
  | .commit _ :: rest => diffs rest

/-- A patch starts from the newest rules: they are pending, or no entry lies ahead of the
block. Their prices are set, so none has to be filled in. -/
def PatchesNewest (store : MetadataStore Details Correction FailedBundle) (blockNumber : UInt64) :
    Prop :=
  (store.nextRules ≠ none ∨ ∀ entry ∈ store.rulesUpdateHeights, entry.block ≤ blockNumber) ∧
    ∀ base, patchBase store blockNumber = some base →
      base.minGasPrice ≠ none ∧ base.minBaseFee ≠ none

def EveryPatchNewest (libraries : Libraries Details Correction FailedBundle)
    (store : MetadataStore Details Correction FailedBundle) : List RulesCall → Prop
  | [] => True
  | .patch blockNumber diff :: rest =>
      PatchesNewest store blockNumber ∧
        EveryPatchNewest libraries (patchRules libraries store blockNumber diff).1 rest
  | .commit blockNumber :: rest =>
      blockNumber.toNat < 2 ^ 64 - 1 ∧
        EveryPatchNewest libraries (commitRules libraries store blockNumber).1 rest

/-- All patches so far have reached the newest rules, pending or in the last entry. -/
structure UpToDate (libraries : Libraries Details Correction FailedBundle)
    (genesis : Rules Details) (patches : List Bytes) (reached : UInt64)
    (store : MetadataStore Details Correction FailedBundle) : Prop where
  grounded : Grounded genesis store.rulesUpdateHeights
  increasing : Increasing RulesUpdateHeight.height store.rulesUpdateHeights
  bounded : ∀ entry ∈ store.rulesUpdateHeights, entry.height ≤ reached.toNat + 1
  folded : ∃ last, store.rulesUpdateHeights.getLast? = some last ∧
    patches.foldlM libraries.updateRules genesis = .ok (store.nextRules.getD last.rules)

section Patches

variable {libraries : Libraries Details Correction FailedBundle}
variable {store : MetadataStore Details Correction FailedBundle} {genesis : Rules Details}
variable {patches : List Bytes} {reached blockNumber : UInt64}

theorem UpToDate.patched {diff : Bytes}
    (upToDate : UpToDate libraries genesis patches reached store)
    (later : reached ≤ blockNumber) (newest : PatchesNewest store blockNumber)
    (succeeded : (patchRules libraries store blockNumber diff).2 = .ok ()) :
    UpToDate libraries genesis (patches ++ [diff]) blockNumber
      (patchRules libraries store blockNumber diff).1 := by
  obtain ⟨base, updatedRules, baseEq, updated, patched⟩ := patch_rules_ok succeeded
  obtain ⟨last, isLast, folded⟩ := upToDate.folded
  have isBase : base = store.nextRules.getD last.rules := by
    rw [patchBase, upToDate.grounded.first, Option.map_some, Option.some.injEq] at baseEq
    rw [← baseEq]
    rcases newest.1 with pending | noneAhead
    · obtain ⟨nextRules, pendingEq⟩ := Option.ne_none_iff_exists'.mp pending
      rw [pendingEq, Option.getD_some, Option.getD_some]
    · rw [rules_at_block_last isLast noneAhead]
  have filled := fill_prices_set (newest.2 base baseEq)
  have foldedNext : (patches ++ [diff]).foldlM libraries.updateRules genesis =
      .ok updatedRules := by
    rw [List.foldlM_append, folded, ← isBase]
    rw [filled] at updated
    simp only [List.foldlM_cons, List.foldlM_nil, bind, Except.bind, updated]
    rfl
  have bounded : ∀ entry ∈ store.rulesUpdateHeights, entry.height ≤ blockNumber.toNat + 1 := by
    intro entry member
    have laterNat := UInt64.le_iff_toNat_le.mp later
    have entryBound := upToDate.bounded entry member
    omega
  rw [patched, filled]
  split
  · exact ⟨upToDate.grounded, upToDate.increasing, bounded, last, isLast, foldedNext⟩
  · rename_i unchanged
    refine ⟨upToDate.grounded, upToDate.increasing, bounded, last, isLast, ?_⟩
    rw [foldedNext, not_not.mp unchanged, isBase]

theorem next_block_toNat (hasNext : blockNumber.toNat < 2 ^ 64 - 1) :
    (blockNumber + 1).toNat = blockNumber.toNat + 1 := by
  rw [UInt64.toNat_add]
  simp only [UInt64.reduceToNat]
  omega

omit [DecidableEq Details] in
theorem UpToDate.known_last {last existing : RulesUpdateHeight Details}
    (upToDate : UpToDate libraries genesis patches reached store) (later : reached ≤ blockNumber)
    (hasNext : blockNumber.toNat < 2 ^ 64 - 1)
    (isLast : store.rulesUpdateHeights.getLast? = some last)
    (found : store.rulesUpdateHeights.find? (fun entry => entry.block == blockNumber + 1) =
      some existing) : last = existing := by
  have block : existing.block = blockNumber + 1 := by
    simpa using List.find?_some found
  have lastMember := List.mem_of_getLast? isLast
  have existingMember := List.mem_of_find?_eq_some found
  have laterNat := UInt64.le_iff_toNat_le.mp later
  have lastBound := upToDate.bounded last lastMember
  apply upToDate.increasing.unique lastMember existingMember
  apply le_antisymm
  · rw [RulesUpdateHeight.height, RulesUpdateHeight.height, block, next_block_toNat hasNext]
    rw [RulesUpdateHeight.height] at lastBound
    omega
  · exact last_greatest upToDate.grounded.ordered isLast existingMember

omit [DecidableEq Details] in
theorem sort_heights_append {heights : List (RulesUpdateHeight Details)}
    {new : RulesUpdateHeight Details} (ordered : Ordered RulesUpdateHeight.height heights)
    (bounded : ∀ entry ∈ heights, entry.height ≤ new.height) :
    sortHeights (heights ++ [new]) = heights ++ [new] := by
  apply sort_by_of_ordered
  apply List.pairwise_append.mpr
  refine ⟨ordered, List.pairwise_singleton _ _, ?_⟩
  intro entry member last isLast
  rw [List.mem_singleton.mp isLast]
  exact bounded entry member

theorem UpToDate.committed (upToDate : UpToDate libraries genesis patches reached store)
    (later : reached ≤ blockNumber) (hasNext : blockNumber.toNat < 2 ^ 64 - 1)
    (succeeded : (commitRules libraries store blockNumber).2 = .ok ()) :
    UpToDate libraries genesis patches blockNumber (commitRules libraries store blockNumber).1 ∧
      (commitRules libraries store blockNumber).1.nextRules = none := by
  have next := next_block_toNat hasNext
  have laterNat := UInt64.le_iff_toNat_le.mp later
  have bounded : ∀ entry ∈ store.rulesUpdateHeights, entry.height ≤ blockNumber.toNat + 1 := by
    intro entry member
    have entryBound := upToDate.bounded entry member
    omega
  obtain ⟨last, isLast, folded⟩ := upToDate.folded
  rcases commit_rules_cases libraries store blockNumber with
    ⟨nothing, same⟩ | ⟨nextRules, existing, pending, found, known, accepted⟩ |
      ⟨nextRules, pending, fresh, added⟩
  · rw [same]
    exact ⟨⟨upToDate.grounded, upToDate.increasing, bounded, last, isLast, folded⟩, nothing⟩
  · have isExisting := upToDate.known_last later hasNext isLast found
    rw [known]
    refine ⟨⟨upToDate.grounded, upToDate.increasing, bounded, last, isLast, ?_⟩, rfl⟩
    rw [folded, pending, isExisting, accepted.mp succeeded]
    rfl
  · have missing : ∀ entry ∈ store.rulesUpdateHeights, entry.block ≠ blockNumber + 1 := by
      intro entry member
      simpa using List.find?_eq_none.mp fresh entry member
    have appended : sortHeights (store.rulesUpdateHeights ++ [⟨blockNumber + 1, nextRules⟩]) =
        store.rulesUpdateHeights ++ [⟨blockNumber + 1, nextRules⟩] := by
      apply sort_heights_append upToDate.grounded.ordered
      intro entry member
      rw [RulesUpdateHeight.height, RulesUpdateHeight.height, next]
      exact bounded entry member
    obtain ⟨db, stored⟩ := store_heights_cases libraries
      { store with
        nextRules := none
        rulesUpdateHeights :=
          sortHeights (store.rulesUpdateHeights ++ [⟨blockNumber + 1, nextRules⟩]) }
      ⟨blockNumber + 1, nextRules⟩
    rw [added, stored]
    refine ⟨⟨upToDate.grounded.added missing nextRules,
      added_increasing upToDate.increasing missing nextRules, ?_, ⟨blockNumber + 1, nextRules⟩,
      ?_, ?_⟩, rfl⟩
    · intro entry member
      rcases mem_sort_append.mp member with old | isNew
      · exact bounded entry old
      · rw [isNew, RulesUpdateHeight.height, next]
    · dsimp only
      rw [appended, List.getLast?_append]
      rfl
    · rw [folded, pending]
      rfl

omit [DecidableEq Details] in
theorem UpToDate.effective [Inhabited Details]
    (upToDate : UpToDate libraries genesis patches blockNumber store)
    (hasNext : blockNumber.toNat < 2 ^ 64 - 1) (notPending : store.nextRules = none) :
    patches.foldlM libraries.updateRules genesis =
      .ok (getRulesAtBlock store (blockNumber + 1)) := by
  obtain ⟨last, isLast, folded⟩ := upToDate.folded
  have noneAhead : ∀ entry ∈ store.rulesUpdateHeights, entry.block ≤ blockNumber + 1 := by
    intro entry member
    rw [UInt64.le_iff_toNat_le, next_block_toNat hasNext]
    exact upToDate.bounded entry member
  rw [folded, notPending, getRulesAtBlock, rules_at_block_last isLast noneAhead]
  rfl

theorem run_calls_effective [Inhabited Details] {before after : List RulesCall}
    (upToDate : UpToDate libraries genesis patches reached store)
    (later : ∀ call ∈ before ++ .commit blockNumber :: after, reached ≤ call.blockNumber)
    (sorted : (before ++ .commit blockNumber :: after).Pairwise
      fun earlier later => earlier.blockNumber ≤ later.blockNumber)
    (succeeded : ∀ outcome ∈ (runCalls libraries store
      (before ++ .commit blockNumber :: after)).2, outcome = .ok ())
    (newest : EveryPatchNewest libraries store (before ++ .commit blockNumber :: after)) :
    (patches ++ diffs before).foldlM libraries.updateRules genesis =
      .ok (getRulesAtBlock (runCalls libraries store (before ++ [.commit blockNumber])).1
        (blockNumber + 1)) := by
  induction before generalizing store patches reached with
  | nil =>
      rw [List.nil_append, List.forall_mem_cons] at later
      rw [List.nil_append, EveryPatchNewest] at newest
      rw [List.nil_append, runCalls, List.forall_mem_cons] at succeeded
      obtain ⟨committed, notPending⟩ :=
        upToDate.committed later.1 newest.1 succeeded.1
      rw [diffs, List.append_nil]
      exact committed.effective newest.1 notPending
  | cons call rest ih =>
      rw [List.cons_append, List.forall_mem_cons] at later
      rw [List.cons_append, List.pairwise_cons] at sorted
      rw [List.cons_append, runCalls, List.forall_mem_cons] at succeeded
      cases call with
      | patch patchNumber diff =>
          rw [List.cons_append, EveryPatchNewest] at newest
          have next := upToDate.patched later.1 newest.1 succeeded.1
          rw [diffs, List.append_cons]
          exact ih next sorted.1 sorted.2 succeeded.2 newest.2
      | commit commitNumber =>
          rw [List.cons_append, EveryPatchNewest] at newest
          obtain ⟨next, _⟩ := upToDate.committed later.1 newest.1 succeeded.1
          rw [diffs]
          exact ih next sorted.1 sorted.2 succeeded.2 newest.2

end Patches

/-- In a run that starts from the genesis rules, with every patch made to the newest rules,
each commit makes effective what all the patches before it fold to. -/
theorem commits_fold_all_patches [Inhabited Details]
    {libraries : Libraries Details Correction FailedBundle} {db : KvDb}
    {store : MetadataStore Details Correction FailedBundle} {genesis : Rules Details}
    {writeRulesHeights : Bool}
    (created : newBlockDBMetadataStore libraries db genesis writeRulesHeights = .ok store)
    (nothingStored : store.rulesUpdateHeights = [⟨0, genesis⟩])
    {calls before after : List RulesCall} {blockNumber : UInt64}
    (sorted : calls.Pairwise fun earlier later => earlier.blockNumber ≤ later.blockNumber)
    (succeeded : ∀ outcome ∈ (runCalls libraries store calls).2, outcome = .ok ())
    (newest : EveryPatchNewest libraries store calls)
    (split : calls = before ++ .commit blockNumber :: after) :
    (diffs before).foldlM libraries.updateRules genesis =
      .ok (getRulesAtBlock (runCalls libraries store (before ++ [.commit blockNumber])).1
        (blockNumber + 1)) := by
  have notPending := (new_store_eq_ok.mp created).2.2.2.2.1
  have upToDate : UpToDate libraries genesis [] 0 store := by
    refine ⟨created_grounded created, ?_, ?_, ⟨0, genesis⟩, ?_, ?_⟩
    · rw [nothingStored]
      exact List.pairwise_singleton _ _
    · rw [nothingStored]
      simp [RulesUpdateHeight.height]
    · rw [nothingStored]
      rfl
    · rw [notPending]
      rfl
  rw [split] at sorted succeeded newest
  exact run_calls_effective upToDate (fun call _ => UInt64.zero_le) sorted succeeded newest

theorem commits_fold_all_patches_plain :
    let before : List RulesCall := [.patch 1 [0, 20], .patch 1 [1, 5], .commit 2, .patch 3 [0, 30]]
    (diffs before).foldlM plainLibraries.updateRules plainGenesis =
      .ok (getRulesAtBlock (runCalls plainLibraries (plainStore false) (before ++ [.commit 3])).1
        4) := by
  intro before
  have newest : EveryPatchNewest plainLibraries (plainStore false) (before ++ [.commit 3]) := by
    refine ⟨⟨Or.inr (by decide), ?_⟩, ⟨Or.inl (by decide), ?_⟩, by decide,
      ⟨Or.inr (by decide), ?_⟩, by decide, trivial⟩
    · intro base baseEq
      cases baseEq
      decide
    · intro base baseEq
      cases baseEq
      decide
    · intro base baseEq
      cases baseEq
      decide
  exact commits_fold_all_patches (plain_created false) rfl (by decide) (by decide) newest rfl

/-- Block 1 patches the gas price. Block 2 seals the epoch and then patches the base fee,
starting from the rules before the commit, so the commit of block 3 takes the gas price
back. -/
theorem commit_loses_patch_of_sealed_block :
    let before : List RulesCall := [.patch 1 [0, 20], .commit 2, .patch 2 [1, 5]]
    (∀ outcome ∈ (runCalls plainLibraries (plainStore false) (before ++ [.commit 3])).2,
        outcome = .ok ()) ∧
      (diffs before).foldlM plainLibraries.updateRules plainGenesis ≠
        .ok (getRulesAtBlock
          (runCalls plainLibraries (plainStore false) (before ++ [.commit 3])).1 4) := by
  decide

end Bertha.RulesUpdates
