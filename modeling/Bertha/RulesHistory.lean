import Bertha.RulesStore

/-!
# Runs of the metadata store

Any sequence of `PatchRules` and `CommitRules` calls keeps the genesis entry in front and
only adds entries above the block that commits, so what an earlier block saw stays as it
was. From this follow the invariant of the list, that a second run over the stored list
detects known updates only, and when a resumed run agrees with an uninterrupted one.
-/

namespace Bertha.RulesHistory

open Bertha.BigEndian Bertha.GoBlockDb Bertha.OrderedStore Bertha.RulesStore Bertha.Timeline
open Bertha.BlockDb (KvDb)

set_option autoImplicit false

inductive RulesCall where
  | patch (blockNumber : UInt64) (diff : Bytes)
  | commit (blockNumber : UInt64)
deriving DecidableEq, Repr

def RulesCall.blockNumber : RulesCall → UInt64
  | .patch blockNumber _ => blockNumber
  | .commit blockNumber => blockNumber

variable {Details Correction FailedBundle : Type}

/-- The list starts with the genesis rules and is in order of blocks. -/
structure Grounded (genesis : Rules Details) (heights : List (RulesUpdateHeight Details)) :
    Prop where
  first : heights.head? = some ⟨0, genesis⟩
  ordered : Ordered RulesUpdateHeight.height heights

section Growth

variable {genesis : Rules Details} {heights : List (RulesUpdateHeight Details)}

theorem Grounded.first_mem (grounded : Grounded genesis heights) : ⟨0, genesis⟩ ∈ heights :=
  List.mem_of_head? grounded.first

theorem Grounded.next_block (grounded : Grounded genesis heights) {blockNumber : UInt64}
    (fresh : ∀ entry ∈ heights, entry.block ≠ blockNumber + 1) :
    (blockNumber + 1).toNat = blockNumber.toNat + 1 := by
  have notZero : (0 : UInt64) ≠ blockNumber + 1 := fresh _ grounded.first_mem
  have notZeroNat : (blockNumber + 1).toNat ≠ 0 := by
    intro zero
    exact notZero (UInt64.toNat_inj.mp zero.symm)
  have bound := blockNumber.toNat_lt
  rw [UInt64.toNat_add] at notZeroNat ⊢
  simp only [UInt64.reduceToNat] at notZeroNat ⊢
  omega

theorem Grounded.added (grounded : Grounded genesis heights) {blockNumber : UInt64}
    (fresh : ∀ entry ∈ heights, entry.block ≠ blockNumber + 1) (rules : Rules Details) :
    Grounded genesis (sortHeights (heights ++ [⟨blockNumber + 1, rules⟩])) := by
  have next := grounded.next_block fresh
  obtain ⟨rest, split⟩ := List.head?_eq_some_iff.mp grounded.first
  have ordered := grounded.ordered
  rw [split] at ordered ⊢
  have above : RulesUpdateHeight.height ⟨0, genesis⟩ <
      RulesUpdateHeight.height ⟨blockNumber + 1, rules⟩ := by
    simp only [RulesUpdateHeight.height, next, UInt64.toNat_zero]
    omega
  obtain ⟨others, sorted⟩ := sort_append_head ordered above
  constructor
  · rw [sortHeights, sorted]
    rfl
  · exact sort_by_ordered _ _

theorem Grounded.added_filter (grounded : Grounded genesis heights) {blockNumber limit : UInt64}
    (fresh : ∀ entry ∈ heights, entry.block ≠ blockNumber + 1) (rules : Rules Details)
    (below : limit ≤ blockNumber) :
    (sortHeights (heights ++ [⟨blockNumber + 1, rules⟩])).filter
        (fun entry => decide (entry.height ≤ limit.toNat)) =
      heights.filter (fun entry => decide (entry.height ≤ limit.toNat)) := by
  apply filter_sort_append grounded.ordered
  have next := grounded.next_block fresh
  have belowNat := UInt64.le_iff_toNat_le.mp below
  simp only [RulesUpdateHeight.height, next, decide_eq_false_iff_not]
  omega

theorem added_increasing (increasing : Increasing RulesUpdateHeight.height heights)
    {blockNumber : UInt64} (fresh : ∀ entry ∈ heights, entry.block ≠ blockNumber + 1)
    (rules : Rules Details) :
    Increasing RulesUpdateHeight.height (sortHeights (heights ++ [⟨blockNumber + 1, rules⟩])) := by
  apply sort_append_increasing increasing
  intro entry member same
  exact fresh entry member (UInt64.toNat_inj.mp same)

theorem rules_at_block_greatest [Inhabited Details]
    {store : MetadataStore Details Correction FailedBundle}
    (grounded : Grounded genesis store.rulesUpdateHeights) (blockNumber : UInt64) :
    ∃ entry ∈ store.rulesUpdateHeights, entry.block ≤ blockNumber ∧
      (∀ other ∈ store.rulesUpdateHeights, other.block ≤ blockNumber →
        other.block ≤ entry.block) ∧
      getRulesAtBlock store blockNumber = entry.rules := by
  have reached : RulesUpdateHeight.height ⟨0, genesis⟩ ≤ blockNumber.toNat := Nat.zero_le _
  obtain ⟨entry, found⟩ := last_at_or_before_some grounded.first_mem reached
  obtain ⟨member, inEffect, greatest⟩ := last_at_or_before_greatest grounded.ordered found
  refine ⟨entry, member, UInt64.le_iff_toNat_le.mpr inEffect, ?_, ?_⟩
  · intro other otherMember otherReached
    apply UInt64.le_iff_toNat_le.mpr
    exact greatest other otherMember (UInt64.le_iff_toNat_le.mp otherReached)
  · rw [getRulesAtBlock, rules_at_block_eq, found]
    rfl

theorem patch_base_again {first again : MetadataStore Details Correction FailedBundle}
    {blockNumber : UInt64}
    (grounded : Grounded genesis first.rulesUpdateHeights)
    (againGrounded : Grounded genesis again.rulesUpdateHeights)
    (pending : again.nextRules = first.nextRules)
    (agree : again.rulesUpdateHeights.filter
        (fun entry => decide (entry.height ≤ blockNumber.toNat)) =
      first.rulesUpdateHeights.filter (fun entry => decide (entry.height ≤ blockNumber.toNat))) :
    patchBase again blockNumber = patchBase first blockNumber := by
  rw [patchBase, patchBase, grounded.first, againGrounded.first, Option.map_some, Option.map_some,
    pending, rules_at_block_of_filter _ agree]

theorem find_entry
    (increasing : Increasing RulesUpdateHeight.height heights)
    {entry : RulesUpdateHeight Details} (member : entry ∈ heights) :
    heights.find? (fun existing => existing.block == entry.block) = some entry := by
  cases found : heights.find? (fun existing => existing.block == entry.block) with
  | none =>
      have missing := List.find?_eq_none.mp found entry member
      simp at missing
  | some existing =>
      have same : existing.block = entry.block := by
        simpa using List.find?_some found
      have equal := increasing.unique (List.mem_of_find?_eq_some found) member
        (congrArg UInt64.toNat same)
      rw [equal]

end Growth

variable [DecidableEq Details]

def applyCall (libraries : Libraries Details Correction FailedBundle)
    (store : MetadataStore Details Correction FailedBundle) :
    RulesCall → MetadataStore Details Correction FailedBundle × Except String Unit
  | .patch blockNumber diff => patchRules libraries store blockNumber diff
  | .commit blockNumber => commitRules libraries store blockNumber

def runCalls (libraries : Libraries Details Correction FailedBundle)
    (store : MetadataStore Details Correction FailedBundle) :
    List RulesCall → MetadataStore Details Correction FailedBundle × List (Except String Unit)
  | [] => (store, [])
  | call :: rest =>
      let applied := applyCall libraries store call
      let finished := runCalls libraries applied.1 rest
      (finished.1, applied.2 :: finished.2)

/-- What a call can do to the list: nothing, or add the entry of the block after it. -/
theorem apply_call_heights (libraries : Libraries Details Correction FailedBundle)
    (store : MetadataStore Details Correction FailedBundle) (call : RulesCall) :
    (applyCall libraries store call).1.rulesUpdateHeights = store.rulesUpdateHeights ∨
    ∃ rules, (∀ entry ∈ store.rulesUpdateHeights, entry.block ≠ call.blockNumber + 1) ∧
      (applyCall libraries store call).1.rulesUpdateHeights =
        sortHeights (store.rulesUpdateHeights ++ [⟨call.blockNumber + 1, rules⟩]) := by
  cases call with
  | patch blockNumber diff =>
      obtain ⟨nextRules, patched⟩ := patch_rules_cases libraries store blockNumber diff
      exact Or.inl (by rw [applyCall, patched])
  | commit blockNumber =>
      rw [applyCall]
      rcases commit_rules_cases libraries store blockNumber with
        nothing | ⟨_, _, _, _, known, _⟩ | ⟨nextRules, _, fresh, added⟩
      · exact Or.inl (by rw [nothing.2])
      · exact Or.inl (by rw [known])
      · apply Or.inr
        refine ⟨nextRules, ?_, ?_⟩
        · intro entry member
          simpa [RulesCall.blockNumber] using List.find?_eq_none.mp fresh entry member
        · rw [added]
          obtain ⟨db, kept⟩ := store_heights_cases libraries
            { store with
              nextRules := none
              rulesUpdateHeights :=
                sortHeights (store.rulesUpdateHeights ++ [⟨blockNumber + 1, nextRules⟩]) }
            ⟨blockNumber + 1, nextRules⟩
          rw [kept]
          rfl

theorem apply_call_metadata (libraries : Libraries Details Correction FailedBundle)
    (store : MetadataStore Details Correction FailedBundle) (call : RulesCall) :
    (applyCall libraries store call).1.corrections = store.corrections ∧
      (applyCall libraries store call).1.failedBundles = store.failedBundles ∧
      (applyCall libraries store call).1.writeRulesUpdateHeights =
        store.writeRulesUpdateHeights := by
  cases call with
  | patch blockNumber diff =>
      obtain ⟨nextRules, patched⟩ := patch_rules_cases libraries store blockNumber diff
      rw [applyCall, patched]
      exact ⟨rfl, rfl, rfl⟩
  | commit blockNumber =>
      rw [applyCall]
      rcases commit_rules_cases libraries store blockNumber with
        nothing | ⟨_, _, _, _, known, _⟩ | ⟨nextRules, _, _, added⟩
      · rw [nothing.2]
        exact ⟨rfl, rfl, rfl⟩
      · rw [known]
        exact ⟨rfl, rfl, rfl⟩
      · rw [added]
        obtain ⟨db, kept⟩ := store_heights_cases libraries
          { store with
            nextRules := none
            rulesUpdateHeights :=
              sortHeights (store.rulesUpdateHeights ++ [⟨blockNumber + 1, nextRules⟩]) }
          ⟨blockNumber + 1, nextRules⟩
        rw [kept]
        exact ⟨rfl, rfl, rfl⟩

section Runs

variable {libraries : Libraries Details Correction FailedBundle}
variable {store : MetadataStore Details Correction FailedBundle} {genesis : Rules Details}

theorem apply_call_grounded (grounded : Grounded genesis store.rulesUpdateHeights)
    (call : RulesCall) :
    Grounded genesis (applyCall libraries store call).1.rulesUpdateHeights := by
  rcases apply_call_heights libraries store call with same | ⟨rules, fresh, added⟩
  · rw [same]
    exact grounded
  · rw [added]
    exact grounded.added fresh rules

theorem apply_call_increasing
    (increasing : Increasing RulesUpdateHeight.height store.rulesUpdateHeights)
    (call : RulesCall) :
    Increasing RulesUpdateHeight.height
      (applyCall libraries store call).1.rulesUpdateHeights := by
  rcases apply_call_heights libraries store call with same | ⟨rules, fresh, added⟩
  · rw [same]
    exact increasing
  · rw [added]
    exact added_increasing increasing fresh rules

theorem apply_call_keeps (call : RulesCall) {entry : RulesUpdateHeight Details}
    (member : entry ∈ store.rulesUpdateHeights) :
    entry ∈ (applyCall libraries store call).1.rulesUpdateHeights := by
  rcases apply_call_heights libraries store call with same | ⟨rules, _, added⟩
  · rw [same]
    exact member
  · rw [added]
    exact mem_sort_append.mpr (Or.inl member)

/-- A call does not change the list at or before its own block. -/
theorem apply_call_filter (grounded : Grounded genesis store.rulesUpdateHeights)
    {call : RulesCall} {limit : UInt64} (below : limit ≤ call.blockNumber) :
    (applyCall libraries store call).1.rulesUpdateHeights.filter
        (fun entry => decide (entry.height ≤ limit.toNat)) =
      store.rulesUpdateHeights.filter (fun entry => decide (entry.height ≤ limit.toNat)) := by
  rcases apply_call_heights libraries store call with same | ⟨rules, fresh, added⟩
  · rw [same]
  · rw [added]
    exact grounded.added_filter fresh rules below

theorem run_calls_append (before after : List RulesCall) :
    runCalls libraries store (before ++ after) =
      ((runCalls libraries (runCalls libraries store before).1 after).1,
        (runCalls libraries store before).2 ++
          (runCalls libraries (runCalls libraries store before).1 after).2) := by
  induction before generalizing store with
  | nil => rfl
  | cons call rest ih =>
      rw [List.cons_append, runCalls, ih]
      rfl

theorem run_calls_grounded (grounded : Grounded genesis store.rulesUpdateHeights)
    (calls : List RulesCall) :
    Grounded genesis (runCalls libraries store calls).1.rulesUpdateHeights := by
  induction calls generalizing store with
  | nil => exact grounded
  | cons call rest ih => exact ih (apply_call_grounded grounded call)

theorem run_calls_increasing
    (increasing : Increasing RulesUpdateHeight.height store.rulesUpdateHeights)
    (calls : List RulesCall) :
    Increasing RulesUpdateHeight.height
      (runCalls libraries store calls).1.rulesUpdateHeights := by
  induction calls generalizing store with
  | nil => exact increasing
  | cons call rest ih => exact ih (apply_call_increasing increasing call)

theorem run_calls_keeps (calls : List RulesCall) {entry : RulesUpdateHeight Details}
    (member : entry ∈ store.rulesUpdateHeights) :
    entry ∈ (runCalls libraries store calls).1.rulesUpdateHeights := by
  induction calls generalizing store with
  | nil => exact member
  | cons call rest ih => exact ih (apply_call_keeps call member)

/-- Calls of later blocks never change what a block saw. -/
theorem run_calls_filter (grounded : Grounded genesis store.rulesUpdateHeights)
    {calls : List RulesCall} {limit : UInt64} (below : ∀ call ∈ calls, limit ≤ call.blockNumber) :
    (runCalls libraries store calls).1.rulesUpdateHeights.filter
        (fun entry => decide (entry.height ≤ limit.toNat)) =
      store.rulesUpdateHeights.filter (fun entry => decide (entry.height ≤ limit.toNat)) := by
  induction calls generalizing store with
  | nil => rfl
  | cons call rest ih =>
      rw [List.forall_mem_cons] at below
      exact (ih (apply_call_grounded grounded call) below.2).trans
        (apply_call_filter grounded below.1)

end Runs

section Creation

variable {libraries : Libraries Details Correction FailedBundle} {db : KvDb}
variable {store : MetadataStore Details Correction FailedBundle} {genesis : Rules Details}
variable {writeRulesHeights : Bool}

theorem ensure_genesis_grounded {stored heights : List (RulesUpdateHeight Details)}
    (ordered : Ordered RulesUpdateHeight.height stored)
    (ensured : ensureGenesis genesis stored = .ok heights) : Grounded genesis heights := by
  cases stored with
  | nil =>
      rw [ensureGenesis, Except.ok.injEq] at ensured
      rw [← ensured]
      exact ⟨rfl, List.pairwise_singleton _ _⟩
  | cons first rest =>
      rw [ensureGenesis] at ensured
      split at ensured
      · rename_i zero
        split at ensured
        · cases ensured
        · rename_i same
          rw [Except.ok.injEq] at ensured
          rw [← ensured]
          refine ⟨?_, ordered⟩
          rw [List.head?_cons, ← zero, ← not_not.mp same]
      · rw [Except.ok.injEq] at ensured
        rw [← ensured]
        refine ⟨rfl, List.pairwise_cons.mpr ⟨?_, ordered⟩⟩
        intro entry _
        exact Nat.zero_le _

theorem ensure_genesis_increasing {stored heights : List (RulesUpdateHeight Details)}
    (increasing : Increasing RulesUpdateHeight.height stored)
    (ensured : ensureGenesis genesis stored = .ok heights) :
    Increasing RulesUpdateHeight.height heights := by
  cases stored with
  | nil =>
      rw [ensureGenesis, Except.ok.injEq] at ensured
      rw [← ensured]
      exact List.pairwise_singleton _ _
  | cons first rest =>
      rw [ensureGenesis] at ensured
      split at ensured
      · split at ensured
        · cases ensured
        · rw [Except.ok.injEq] at ensured
          rw [← ensured]
          exact increasing
      · rename_i positive
        rw [Except.ok.injEq] at ensured
        rw [← ensured]
        have firstAbove : 0 < first.height := by
          apply Nat.pos_of_ne_zero
          intro zero
          exact positive (UInt64.toNat_inj.mp zero)
        refine List.pairwise_cons.mpr ⟨?_, increasing⟩
        intro entry member
        rcases List.mem_cons.mp member with isFirst | later
        · rw [isFirst]
          exact firstAbove
        · exact firstAbove.trans ((List.pairwise_cons.mp increasing).1 entry later)

theorem ensure_genesis_of_grounded {heights : List (RulesUpdateHeight Details)}
    (grounded : Grounded genesis heights) :
    ensureGenesis genesis (sortHeights heights) = .ok heights := by
  rw [sortHeights, sort_by_of_ordered grounded.ordered]
  obtain ⟨rest, split⟩ := List.head?_eq_some_iff.mp grounded.first
  rw [split, ensureGenesis, if_pos rfl, if_neg (not_not.mpr rfl)]

theorem new_store_eq_ok :
    newBlockDBMetadataStore libraries db genesis writeRulesHeights = .ok store ↔
      (∃ stored, parseStored "rules update heights" libraries.unmarshal []
          (getRulesUpdateHeights db genesis.networkID) = .ok stored ∧
        ensureGenesis genesis (sortHeights stored) = .ok store.rulesUpdateHeights) ∧
      parseStored "corrections" libraries.unmarshalCorrections (fun _ => none)
        (getCorrections db genesis.networkID) = .ok store.corrections ∧
      parseStored "failed bundles" libraries.unmarshalFailedBundles (fun _ => [])
        (getFailedBundles db genesis.networkID) = .ok store.failedBundles ∧
      store.db = db ∧ store.nextRules = none ∧
      store.writeRulesUpdateHeights = writeRulesHeights := by
  obtain ⟨storeDb, heights, corrections, failedBundles, nextRules, write⟩ := store
  unfold newBlockDBMetadataStore
  cases parsedHeights : parseStored "rules update heights" libraries.unmarshal []
      (getRulesUpdateHeights db genesis.networkID) with
  | error err => simp [bind, Except.bind, parsedHeights]
  | ok stored =>
      cases ensured : ensureGenesis genesis (sortHeights stored) with
      | error err => simp [bind, Except.bind, parsedHeights, ensured]
      | ok ensuredHeights =>
          cases parsedCorrections : parseStored "corrections" libraries.unmarshalCorrections
              (fun _ => none) (getCorrections db genesis.networkID) with
          | error err => simp [bind, Except.bind, parsedHeights, ensured, parsedCorrections]
          | ok storedCorrections =>
              cases parsedBundles : parseStored "failed bundles" libraries.unmarshalFailedBundles
                  (fun _ => []) (getFailedBundles db genesis.networkID) with
              | error err =>
                  simp [bind, Except.bind, parsedHeights, ensured, parsedCorrections, parsedBundles]
              | ok storedBundles =>
                  simp only [bind, Except.bind, pure, Except.pure, parsedHeights, ensured,
                    parsedCorrections, parsedBundles, Except.ok.injEq, MetadataStore.mk.injEq,
                    exists_eq_left']
                  tauto

theorem created_grounded
    (created : newBlockDBMetadataStore libraries db genesis writeRulesHeights = .ok store) :
    Grounded genesis store.rulesUpdateHeights := by
  obtain ⟨⟨stored, _, ensured⟩, _⟩ := new_store_eq_ok.mp created
  exact ensure_genesis_grounded (sort_by_ordered _ _) ensured

end Creation

section Again

variable {libraries : Libraries Details Correction FailedBundle} {genesis : Rules Details}
variable {first again : MetadataStore Details Correction FailedBundle}

/-- On a list that already has all the entries a commit only detects a known update. -/
theorem commit_again {blockNumber : UInt64}
    (increasing : Increasing RulesUpdateHeight.height again.rulesUpdateHeights)
    (pending : again.nextRules = first.nextRules)
    (succeeded : (commitRules libraries first blockNumber).2 = .ok ())
    (keeps : ∀ entry ∈ (commitRules libraries first blockNumber).1.rulesUpdateHeights,
      entry ∈ again.rulesUpdateHeights) :
    commitRules libraries again blockNumber = ({ again with nextRules := none }, .ok ()) ∧
      (commitRules libraries first blockNumber).1.nextRules = none := by
  have known : ∀ nextRules, first.nextRules = some nextRules →
      (⟨blockNumber + 1, nextRules⟩ : RulesUpdateHeight Details) ∈ again.rulesUpdateHeights →
      commitRules libraries again blockNumber = ({ again with nextRules := none }, .ok ()) := by
    intro nextRules firstPending member
    have found := find_entry increasing member
    simp only [commitRules, pending, firstPending, found, if_true]
  rcases commit_rules_cases libraries first blockNumber with
    ⟨nothing, committed⟩ | ⟨nextRules, existing, firstPending, found, committed, accepted⟩ |
      ⟨nextRules, firstPending, _, committed⟩
  · rw [committed]
    refine ⟨?_, nothing⟩
    obtain ⟨db, heights, corrections, failedBundles, againPending, write⟩ := again
    rw [nothing] at pending
    rw [commitRules]
    simp only at pending
    rw [pending]
  · have same : existing.rules = nextRules := accepted.mp succeeded
    have block : existing.block = blockNumber + 1 := by
      simpa using List.find?_some found
    have member : existing ∈ again.rulesUpdateHeights := by
      apply keeps
      rw [committed]
      exact List.mem_of_find?_eq_some found
    refine ⟨known nextRules firstPending ?_, by rw [committed]⟩
    rw [← block, ← same]
    exact member
  · obtain ⟨db, stored⟩ := store_heights_cases libraries
      { first with
        nextRules := none
        rulesUpdateHeights :=
          sortHeights (first.rulesUpdateHeights ++ [⟨blockNumber + 1, nextRules⟩]) }
      ⟨blockNumber + 1, nextRules⟩
    rw [committed, stored] at keeps ⊢
    refine ⟨known nextRules firstPending (keeps _ ?_), rfl⟩
    exact mem_sort_append.mpr (Or.inr rfl)

theorem apply_call_again {call : RulesCall}
    (grounded : Grounded genesis first.rulesUpdateHeights)
    (againGrounded : Grounded genesis again.rulesUpdateHeights)
    (increasing : Increasing RulesUpdateHeight.height again.rulesUpdateHeights)
    (pending : again.nextRules = first.nextRules)
    (agree : again.rulesUpdateHeights.filter
        (fun entry => decide (entry.height ≤ call.blockNumber.toNat)) =
      first.rulesUpdateHeights.filter
        (fun entry => decide (entry.height ≤ call.blockNumber.toNat)))
    (keeps : ∀ entry ∈ (applyCall libraries first call).1.rulesUpdateHeights,
      entry ∈ again.rulesUpdateHeights)
    (succeeded : (applyCall libraries first call).2 = .ok ()) :
    applyCall libraries again call =
      ({ again with nextRules := (applyCall libraries first call).1.nextRules }, .ok ()) := by
  cases call with
  | patch blockNumber diff =>
      obtain ⟨base, updatedRules, baseEq, updated, patched⟩ := patch_rules_ok succeeded
      have againBase : patchBase again blockNumber = some base :=
        (patch_base_again grounded againGrounded pending agree).trans baseEq
      rw [applyCall, applyCall, patched]
      simp only [patchRules, againBase, updated]
      split
      · rfl
      · rw [← pending]
  | commit blockNumber =>
      obtain ⟨committed, cleared⟩ := commit_again increasing pending succeeded keeps
      rw [applyCall, applyCall, committed, cleared]

/-- A second run over the final list follows the first and changes neither list nor
database. -/
theorem run_calls_again {calls : List RulesCall}
    (sorted : calls.Pairwise fun earlier later => earlier.blockNumber ≤ later.blockNumber)
    (grounded : Grounded genesis first.rulesUpdateHeights)
    (increasing : Increasing RulesUpdateHeight.height first.rulesUpdateHeights)
    (final : again.rulesUpdateHeights = (runCalls libraries first calls).1.rulesUpdateHeights)
    (pending : again.nextRules = first.nextRules)
    (succeeded : ∀ outcome ∈ (runCalls libraries first calls).2, outcome = .ok ()) :
    (∀ outcome ∈ (runCalls libraries again calls).2, outcome = .ok ()) ∧
      (runCalls libraries again calls).1.rulesUpdateHeights = again.rulesUpdateHeights ∧
      (runCalls libraries again calls).1.db = again.db := by
  induction calls generalizing first again with
  | nil => exact ⟨by simp [runCalls], rfl, rfl⟩
  | cons call rest ih =>
      rw [List.pairwise_cons] at sorted
      rw [runCalls] at succeeded final
      dsimp only at succeeded final
      rw [List.forall_mem_cons] at succeeded
      have nextGrounded : Grounded genesis (applyCall libraries first call).1.rulesUpdateHeights :=
        apply_call_grounded grounded call
      have againGrounded : Grounded genesis again.rulesUpdateHeights := by
        rw [final]
        exact run_calls_grounded nextGrounded rest
      have nextIncreasing : Increasing RulesUpdateHeight.height
          (applyCall libraries first call).1.rulesUpdateHeights :=
        apply_call_increasing increasing call
      have againIncreasing :
          Increasing RulesUpdateHeight.height again.rulesUpdateHeights := by
        rw [final]
        exact run_calls_increasing nextIncreasing rest
      have agree : again.rulesUpdateHeights.filter
            (fun entry => decide (entry.height ≤ call.blockNumber.toNat)) =
          first.rulesUpdateHeights.filter
            (fun entry => decide (entry.height ≤ call.blockNumber.toNat)) := by
        rw [final, run_calls_filter nextGrounded sorted.1]
        exact apply_call_filter grounded le_rfl
      have keeps : ∀ entry ∈ (applyCall libraries first call).1.rulesUpdateHeights,
          entry ∈ again.rulesUpdateHeights := by
        intro entry member
        rw [final]
        exact run_calls_keeps rest member
      have step := apply_call_again grounded againGrounded againIncreasing pending agree keeps
        succeeded.1
      have next : MetadataStore.rulesUpdateHeights
            { again with nextRules := (applyCall libraries first call).1.nextRules } =
          (runCalls libraries (applyCall libraries first call).1 rest).1.rulesUpdateHeights :=
        final
      obtain ⟨outcomes, heights, db⟩ :=
        ih sorted.2 nextGrounded nextIncreasing next rfl succeeded.2
      rw [runCalls, step]
      refine ⟨?_, heights, db⟩
      rw [List.forall_mem_cons]
      exact ⟨rfl, outcomes⟩

end Again

theorem created_increasing {libraries : Libraries Details Correction FailedBundle} {db : KvDb}
    {store : MetadataStore Details Correction FailedBundle} {genesis : Rules Details}
    {writeRulesHeights : Bool}
    (created : newBlockDBMetadataStore libraries db genesis writeRulesHeights = .ok store)
    (distinct : ∀ data stored, getRulesUpdateHeights db genesis.networkID = some data →
      libraries.unmarshal data = .ok stored →
      stored.Pairwise fun left right => left.block ≠ right.block) :
    Increasing RulesUpdateHeight.height store.rulesUpdateHeights := by
  obtain ⟨⟨stored, parsed, ensured⟩, _⟩ := new_store_eq_ok.mp created
  apply ensure_genesis_increasing _ ensured
  apply sort_by_increasing
  cases present : getRulesUpdateHeights db genesis.networkID with
  | none =>
      rw [present, parseStored, Except.ok.injEq] at parsed
      rw [← parsed]
      exact List.Pairwise.nil
  | some data =>
      rw [present, parseStored] at parsed
      cases read : libraries.unmarshal data with
      | error err =>
          rw [read] at parsed
          cases parsed
      | ok entries =>
          rw [read] at parsed
          cases parsed
          apply (distinct data stored present read).imp
          intro left right different same
          exact different (UInt64.toNat_inj.mp same)

/-! ## A plain instance of the libraries -/

abbrev PlainEntry := Nat × Nat × Option Int × Option Int ×
  Bool × Bool × Bool × Bool × Bool × Bool × Bool × Bool × Bool

def toPlain (entry : RulesUpdateHeight Unit) : PlainEntry :=
  (entry.block.toNat, entry.rules.networkID.toNat, entry.rules.minGasPrice,
    entry.rules.minBaseFee, entry.rules.upgrades.berlin, entry.rules.upgrades.london,
    entry.rules.upgrades.llr, entry.rules.upgrades.sonic, entry.rules.upgrades.allegro,
    entry.rules.upgrades.brio, entry.rules.upgrades.singleProposerBlockFormation,
    entry.rules.upgrades.gasSubsidies, entry.rules.upgrades.transactionBundles)

def ofPlain : PlainEntry → RulesUpdateHeight Unit
  | (block, networkID, minGasPrice, minBaseFee, berlin, london, llr, sonic, allegro, brio,
      singleProposerBlockFormation, gasSubsidies, transactionBundles) =>
      ⟨UInt64.ofNat block, UInt64.ofNat networkID, minGasPrice, minBaseFee,
        ⟨berlin, london, llr, sonic, allegro, brio, singleProposerBlockFormation, gasSubsidies,
          transactionBundles⟩, ()⟩

theorem of_plain_to_plain (entry : RulesUpdateHeight Unit) : ofPlain (toPlain entry) = entry := by
  simp only [toPlain, ofPlain, UInt64.ofNat_toNat]

/-- A patch names one of the prices and its new value, and the list is stored as its number
in an enumeration of all lists. -/
def plainLibraries : Libraries Unit Unit Unit where
  updateRules rules
    | [0, value] => .ok { rules with minGasPrice := some value.toNat }
    | [1, value] => .ok { rules with minBaseFee := some value.toNat }
    | _ => .error "unknown field"
  marshal heights := .ok (List.replicate (Encodable.encode (heights.map toPlain)) 1)
  unmarshal data :=
    match (Encodable.decode data.length : Option (List PlainEntry)) with
    | some heights => .ok (heights.map ofPlain)
    | none => .error "unexpected end of input"
  unmarshalCorrections _ := .ok fun _ => none
  unmarshalFailedBundles _ := .ok fun _ => []

theorem plain_lossless (heights : List (RulesUpdateHeight Unit)) :
    ∃ data, plainLibraries.marshal heights = .ok data ∧
      plainLibraries.unmarshal data = .ok heights := by
  refine ⟨_, rfl, ?_⟩
  have inverse : (heights.map toPlain).map ofPlain = heights := by
    rw [List.map_map]
    apply List.map_id''
    exact of_plain_to_plain
  simp only [plainLibraries, List.length_replicate, Encodable.encodek, inverse]

def plainGenesis : Rules Unit := ⟨146, some 10, some 1, default, ()⟩

def plainStore (writeRulesHeights : Bool) : MetadataStore Unit Unit Unit where
  db := ∅
  rulesUpdateHeights := [⟨0, plainGenesis⟩]
  corrections := fun _ => none
  failedBundles := fun _ => []
  nextRules := none
  writeRulesUpdateHeights := writeRulesHeights

theorem plain_created (writeRulesHeights : Bool) :
    newBlockDBMetadataStore plainLibraries ∅ plainGenesis writeRulesHeights =
      .ok (plainStore writeRulesHeights) := by
  apply new_store_eq_ok.mpr
  refine ⟨⟨[], ?_, rfl⟩, ?_, ?_, rfl, rfl, rfl⟩
  · simp [getRulesUpdateHeights, parseStored]
  · simp [getCorrections, parseStored, plainStore]
  · simp [getFailedBundles, parseStored, plainStore]

/-! ## The invariant of the list -/

/-- In every state of a store the list is strictly ascending from the genesis entry, the
rules of a block are those of the greatest entry at or before it, and a commit changes
nothing up to its block. Calls that succeed in order of blocks succeed again on a store
built from the list they end with, and change neither the list nor the database. -/
theorem rules_store_invariant [Inhabited Details]
    {libraries : Libraries Details Correction FailedBundle} {db : KvDb}
    {store : MetadataStore Details Correction FailedBundle} {genesis : Rules Details}
    {writeRulesHeights : Bool}
    (created : newBlockDBMetadataStore libraries db genesis writeRulesHeights = .ok store)
    (distinct : ∀ data stored, getRulesUpdateHeights db genesis.networkID = some data →
      libraries.unmarshal data = .ok stored →
      stored.Pairwise fun left right => left.block ≠ right.block)
    (calls : List RulesCall) :
    ((runCalls libraries store calls).1.rulesUpdateHeights.Pairwise
        fun earlier later => earlier.block < later.block) ∧
      (runCalls libraries store calls).1.rulesUpdateHeights.head? = some ⟨0, genesis⟩ ∧
      (∀ blockNumber, ∃ entry ∈ (runCalls libraries store calls).1.rulesUpdateHeights,
        entry.block ≤ blockNumber ∧
        (∀ other ∈ (runCalls libraries store calls).1.rulesUpdateHeights,
          other.block ≤ blockNumber → other.block ≤ entry.block) ∧
        getRulesAtBlock (runCalls libraries store calls).1 blockNumber = entry.rules) ∧
      (∀ committed blockNumber, blockNumber ≤ committed →
        getRulesAtBlock (commitRules libraries (runCalls libraries store calls).1 committed).1
            blockNumber =
          getRulesAtBlock (runCalls libraries store calls).1 blockNumber) ∧
      ((calls.Pairwise fun earlier later => earlier.blockNumber ≤ later.blockNumber) →
        (∀ outcome ∈ (runCalls libraries store calls).2, outcome = .ok ()) →
        ∀ persisted data writeAgain,
          libraries.marshal (runCalls libraries store calls).1.rulesUpdateHeights = .ok data →
          libraries.unmarshal data =
            .ok (runCalls libraries store calls).1.rulesUpdateHeights →
          getRulesUpdateHeights persisted genesis.networkID = some data →
          getCorrections persisted genesis.networkID = getCorrections db genesis.networkID →
          getFailedBundles persisted genesis.networkID = getFailedBundles db genesis.networkID →
          ∃ again, newBlockDBMetadataStore libraries persisted genesis writeAgain = .ok again ∧
            (∀ outcome ∈ (runCalls libraries again calls).2, outcome = .ok ()) ∧
            (runCalls libraries again calls).1.rulesUpdateHeights =
              (runCalls libraries store calls).1.rulesUpdateHeights ∧
            (runCalls libraries again calls).1.db = persisted) := by
  have grounded := created_grounded created
  have increasing := created_increasing created distinct
  have finalGrounded : Grounded genesis (runCalls libraries store calls).1.rulesUpdateHeights :=
    run_calls_grounded grounded calls
  have finalIncreasing : Increasing RulesUpdateHeight.height
      (runCalls libraries store calls).1.rulesUpdateHeights :=
    run_calls_increasing increasing calls
  refine ⟨?_, finalGrounded.first, rules_at_block_greatest finalGrounded, ?_, ?_⟩
  · exact finalIncreasing.imp fun below => UInt64.lt_iff_toNat_lt.mpr below
  · intro committed blockNumber below
    apply rules_at_block_of_filter
    exact @apply_call_filter _ _ _ _ libraries _ _ finalGrounded (.commit committed) _ below
  · intro sorted succeeded persisted data writeAgain _ lossless present corrections failedBundles
    obtain ⟨_, parsedCorrections, parsedBundles, _⟩ := new_store_eq_ok.mp created
    have parsedHeights : parseStored "rules update heights" libraries.unmarshal []
        (getRulesUpdateHeights persisted genesis.networkID) =
          .ok (runCalls libraries store calls).1.rulesUpdateHeights := by
      rw [present, parseStored, lossless]
      rfl
    let again : MetadataStore Details Correction FailedBundle :=
      { db := persisted
        rulesUpdateHeights := (runCalls libraries store calls).1.rulesUpdateHeights
        corrections := store.corrections
        failedBundles := store.failedBundles
        nextRules := none
        writeRulesUpdateHeights := writeAgain }
    have recreated :
        newBlockDBMetadataStore libraries persisted genesis writeAgain = .ok again := by
      apply new_store_eq_ok.mpr
      refine ⟨⟨_, parsedHeights, ensure_genesis_of_grounded finalGrounded⟩, ?_, ?_, rfl, rfl, rfl⟩
      · rw [corrections]
        exact parsedCorrections
      · rw [failedBundles]
        exact parsedBundles
    have notPending : again.nextRules = store.nextRules :=
      (new_store_eq_ok.mp created).2.2.2.2.1.symm
    exact ⟨again, recreated, run_calls_again sorted grounded increasing rfl notPending succeeded⟩

theorem rules_store_invariant_plain :
    let calls : List RulesCall := [.patch 1 [0, 20], .commit 2, .patch 3 [1, 5], .commit 3]
    let finished := runCalls plainLibraries (plainStore false) calls
    (∀ outcome ∈ finished.2, outcome = .ok ()) ∧
      finished.1.rulesUpdateHeights.map RulesUpdateHeight.block = [0, 3, 4] ∧
      ∃ data again,
        newBlockDBMetadataStore plainLibraries (putRulesUpdateHeights ∅ 146 data) plainGenesis
          true = .ok again ∧
        (∀ outcome ∈ (runCalls plainLibraries again calls).2, outcome = .ok ()) ∧
        (runCalls plainLibraries again calls).1.rulesUpdateHeights =
          finished.1.rulesUpdateHeights := by
  intro calls finished
  have succeeded : ∀ outcome ∈ finished.2, outcome = .ok () := by decide
  have distinct : ∀ data stored,
      getRulesUpdateHeights ∅ plainGenesis.networkID = some data →
      plainLibraries.unmarshal data = .ok stored →
      stored.Pairwise fun left right => left.block ≠ right.block := by
    intro data stored present
    simp [getRulesUpdateHeights] at present
  obtain ⟨data, written, lossless⟩ := plain_lossless finished.1.rulesUpdateHeights
  obtain ⟨_, _, _, _, again⟩ := rules_store_invariant (plain_created false) distinct calls
  obtain ⟨store, recreated, outcomes, heights, _⟩ := again (by decide) succeeded
    (putRulesUpdateHeights ∅ 146 data) data true written lossless
    (by simp [getRulesUpdateHeights, putRulesUpdateHeights, get_put, plainGenesis])
    (by
      rw [getCorrections, putRulesUpdateHeights, get_put, if_neg (by decide)]
      rfl)
    (by
      rw [getFailedBundles, putRulesUpdateHeights, get_put, if_neg (by decide)]
      rfl)
  exact ⟨succeeded, by decide, data, store, recreated, outcomes, heights⟩

end Bertha.RulesHistory
