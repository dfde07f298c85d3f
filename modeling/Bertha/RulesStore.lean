import Bertha.GoBlockDb
import Bertha.Timeline

/-!
# The metadata store of a replay

`go/replay/metadata.go`: the rules of the network by the block they take effect at, with
the account corrections and the failed bundles of each block. Patches collect in memory and
a commit turns them into an entry for the next block, which is written back when that is
enabled. The network rules and their JSON form belong to other packages; the fields read
here are named and the rest of the rules is `details`.
-/

namespace Bertha.RulesStore

open Bertha.BigEndian Bertha.GoBlockDb Bertha.OrderedStore Bertha.Timeline
open Bertha.BlockDb (KvDb)

set_option autoImplicit false

structure Upgrades where
  berlin : Bool
  london : Bool
  llr : Bool
  sonic : Bool
  allegro : Bool
  brio : Bool
  singleProposerBlockFormation : Bool
  gasSubsidies : Bool
  transactionBundles : Bool
deriving DecidableEq, Repr, Inhabited

structure Rules (Details : Type) where
  networkID : UInt64
  minGasPrice : Option Int
  minBaseFee : Option Int
  upgrades : Upgrades
  details : Details
deriving DecidableEq, Repr, Inhabited

structure RulesUpdateHeight (Details : Type) where
  block : UInt64
  rules : Rules Details
deriving DecidableEq, Repr

structure UpgradeHeight where
  height : UInt64
  upgrades : Upgrades
deriving DecidableEq, Repr

structure Libraries (Details Correction FailedBundle : Type) where
  updateRules : Rules Details → Bytes → Except String (Rules Details)
  marshal : List (RulesUpdateHeight Details) → Except String Bytes
  unmarshal : Bytes → Except String (List (RulesUpdateHeight Details))
  unmarshalCorrections : Bytes → Except String (UInt64 → Option Correction)
  unmarshalFailedBundles : Bytes → Except String (UInt64 → List FailedBundle)

/-- `BlockDBMetadataStore`. Its lock makes every operation one step. -/
structure MetadataStore (Details Correction FailedBundle : Type) where
  db : KvDb
  rulesUpdateHeights : List (RulesUpdateHeight Details)
  corrections : UInt64 → Option Correction
  failedBundles : UInt64 → List FailedBundle
  nextRules : Option (Rules Details)
  writeRulesUpdateHeights : Bool

variable {Details Correction FailedBundle : Type}

def RulesUpdateHeight.height (entry : RulesUpdateHeight Details) : Nat := entry.block.toNat

/-- `slices.SortFunc` by block. Entries of one block keep their order here, where the Go
function promises none. -/
def sortHeights (heights : List (RulesUpdateHeight Details)) : List (RulesUpdateHeight Details) :=
  sortBy RulesUpdateHeight.height heights

/-- The loop of both lookups: the last entry at or before the block wins. -/
def rulesAtBlock (start : Rules Details) (heights : List (RulesUpdateHeight Details))
    (blockNumber : UInt64) : Rules Details :=
  heights.foldl (fun rules entry => if entry.block ≤ blockNumber then entry.rules else rules) start

/-- The end of `CommitRules`: the list goes back to the database when that is enabled. -/
def storeHeights (libraries : Libraries Details Correction FailedBundle)
    (store : MetadataStore Details Correction FailedBundle) (first : RulesUpdateHeight Details) :
    MetadataStore Details Correction FailedBundle × Except String Unit :=
  if store.writeRulesUpdateHeights = false then (store, .ok ())
  else
    match libraries.marshal store.rulesUpdateHeights with
    | .error err => (store, .error s!"failed to marshal rules update heights: {err}")
    | .ok data =>
        ({ store with
            db := putRulesUpdateHeights store.db
              (store.rulesUpdateHeights.headD first).rules.networkID data }, .ok ())

section Operations

variable [DecidableEq Details]

def ensureGenesis (rules : Rules Details) :
    List (RulesUpdateHeight Details) → Except String (List (RulesUpdateHeight Details))
  | [] => .ok [⟨0, rules⟩]
  | first :: rest =>
      if first.block = 0 then
        if first.rules ≠ rules then
          .error "stored genesis rules at block 0 do not match provided genesis rules"
        else .ok (first :: rest)
      else .ok (⟨0, rules⟩ :: first :: rest)

def parseStored {Value : Type} (what : String) (parse : Bytes → Except String Value)
    (missing : Value) : Option Bytes → Except String Value
  | none => .ok missing
  | some data => (parse data).mapError fun err => s!"failed to parse stored {what}: {err}"

def newBlockDBMetadataStore (libraries : Libraries Details Correction FailedBundle) (db : KvDb)
    (rules : Rules Details) (writeRulesHeights : Bool) :
    Except String (MetadataStore Details Correction FailedBundle) := do
  let rulesUpdateHeightsData := getRulesUpdateHeights db rules.networkID
  let correctionsData := getCorrections db rules.networkID
  let failedBundlesData := getFailedBundles db rules.networkID
  let stored ← parseStored "rules update heights" libraries.unmarshal [] rulesUpdateHeightsData
  let rulesUpdateHeights ← ensureGenesis rules (sortHeights stored)
  let corrections ←
    parseStored "corrections" libraries.unmarshalCorrections (fun _ => none) correctionsData
  let failedBundles ←
    parseStored "failed bundles" libraries.unmarshalFailedBundles (fun _ => []) failedBundlesData
  return {
    db := db
    rulesUpdateHeights := rulesUpdateHeights
    corrections := corrections
    failedBundles := failedBundles
    nextRules := none
    writeRulesUpdateHeights := writeRulesHeights }

def fillPrices (rules : Rules Details) : Rules Details :=
  { rules with
    minGasPrice := some (rules.minGasPrice.getD 0)
    minBaseFee := some (rules.minBaseFee.getD 0) }

/-- The rules a patch starts from; none where indexing an empty list panics. -/
def patchBase (store : MetadataStore Details Correction FailedBundle) (blockNumber : UInt64) :
    Option (Rules Details) :=
  store.rulesUpdateHeights.head?.map fun first =>
    store.nextRules.getD (rulesAtBlock first.rules store.rulesUpdateHeights blockNumber)

def patchRules (libraries : Libraries Details Correction FailedBundle)
    (store : MetadataStore Details Correction FailedBundle) (blockNumber : UInt64) (diff : Bytes) :
    MetadataStore Details Correction FailedBundle × Except String Unit :=
  match patchBase store blockNumber with
  | none => (store, .error "index out of range [0] with length 0")
  | some base =>
      let last := fillPrices base
      match libraries.updateRules last diff with
      | .error err => (store, .error s!"failed to update rules: {err}")
      | .ok updatedRules =>
          if updatedRules ≠ last then ({ store with nextRules := some updatedRules }, .ok ())
          else (store, .ok ())

def commitRules (libraries : Libraries Details Correction FailedBundle)
    (store : MetadataStore Details Correction FailedBundle) (blockNumber : UInt64) :
    MetadataStore Details Correction FailedBundle × Except String Unit :=
  match store.nextRules with
  | none => (store, .ok ())
  | some nextRules =>
      -- effective from the next block on
      let update : RulesUpdateHeight Details := ⟨blockNumber + 1, nextRules⟩
      let store := { store with nextRules := none }
      match store.rulesUpdateHeights.find? fun existing => existing.block == update.block with
      | some existing =>
          if existing.rules = update.rules then (store, .ok ())
          else (store, .error (s!"unexpected rules update at block {update.block}: " ++
            "update does not match known update"))
      | none =>
          let heights := sortHeights (store.rulesUpdateHeights ++ [update])
          storeHeights libraries { store with rulesUpdateHeights := heights } update

end Operations

def getUpgradeHeights (store : MetadataStore Details Correction FailedBundle) :
    List UpgradeHeight :=
  store.rulesUpdateHeights.map fun entry => ⟨entry.block, entry.rules.upgrades⟩

def getRulesAtBlock [Inhabited Details] (store : MetadataStore Details Correction FailedBundle)
    (blockNumber : UInt64) : Rules Details :=
  rulesAtBlock default store.rulesUpdateHeights blockNumber

def getCorrectionsAtBlock (store : MetadataStore Details Correction FailedBundle)
    (blockNumber : UInt64) : Option Correction :=
  store.corrections blockNumber

def getFailedBundlesAtBlock (store : MetadataStore Details Correction FailedBundle)
    (blockNumber : UInt64) : List FailedBundle :=
  store.failedBundles blockNumber

theorem rules_at_block_eq (start : Rules Details) (heights : List (RulesUpdateHeight Details))
    (blockNumber : UInt64) :
    rulesAtBlock start heights blockNumber =
      ((lastAtOrBefore RulesUpdateHeight.height blockNumber.toNat heights).map
        RulesUpdateHeight.rules).getD start := by
  induction heights generalizing start with
  | nil => rfl
  | cons entry rest ih =>
      have inEffect : entry.height ≤ blockNumber.toNat ↔ entry.block ≤ blockNumber :=
        UInt64.le_iff_toNat_le.symm
      have step : rulesAtBlock start (entry :: rest) blockNumber =
          rulesAtBlock (if entry.block ≤ blockNumber then entry.rules else start) rest
            blockNumber := rfl
      rw [last_at_or_before_cons, step, ih]
      cases lastAtOrBefore RulesUpdateHeight.height blockNumber.toNat rest with
      | some later => rfl
      | none =>
          by_cases reached : entry.block ≤ blockNumber
          · simp [reached, inEffect]
          · simp [reached, inEffect]

theorem rules_at_block_of_filter {left right : List (RulesUpdateHeight Details)}
    {blockNumber : UInt64} (start : Rules Details)
    (same : left.filter (fun entry => decide (entry.height ≤ blockNumber.toNat)) =
      right.filter (fun entry => decide (entry.height ≤ blockNumber.toNat))) :
    rulesAtBlock start left blockNumber = rulesAtBlock start right blockNumber := by
  rw [rules_at_block_eq, rules_at_block_eq, last_at_or_before_eq, last_at_or_before_eq, same]

theorem fill_prices_set {rules : Rules Details}
    (prices : rules.minGasPrice ≠ none ∧ rules.minBaseFee ≠ none) : fillPrices rules = rules := by
  obtain ⟨networkID, minGasPrice, minBaseFee, upgrades, details⟩ := rules
  obtain ⟨gas, fee⟩ := prices
  obtain ⟨gasPrice, rfl⟩ := Option.ne_none_iff_exists'.mp gas
  obtain ⟨baseFee, rfl⟩ := Option.ne_none_iff_exists'.mp fee
  rfl

theorem rules_at_block_last {heights : List (RulesUpdateHeight Details)} {blockNumber : UInt64}
    {last : RulesUpdateHeight Details} (isLast : heights.getLast? = some last)
    (reached : ∀ entry ∈ heights, entry.block ≤ blockNumber) (start : Rules Details) :
    rulesAtBlock start heights blockNumber = last.rules := by
  have all : heights.filter (fun entry => decide (entry.height ≤ blockNumber.toNat)) = heights := by
    apply List.filter_eq_self.mpr
    intro entry member
    exact decide_eq_true (UInt64.le_iff_toNat_le.mp (reached entry member))
  rw [rules_at_block_eq, last_at_or_before_eq, all, isLast]
  rfl

theorem store_heights_cases (libraries : Libraries Details Correction FailedBundle)
    (store : MetadataStore Details Correction FailedBundle) (first : RulesUpdateHeight Details) :
    ∃ db, (storeHeights libraries store first).1 = { store with db := db } := by
  unfold storeHeights
  split
  · exact ⟨store.db, rfl⟩
  · split
    · exact ⟨store.db, rfl⟩
    · exact ⟨_, rfl⟩

section Inversion

variable [DecidableEq Details]

theorem patch_rules_cases (libraries : Libraries Details Correction FailedBundle)
    (store : MetadataStore Details Correction FailedBundle) (blockNumber : UInt64)
    (diff : Bytes) :
    ∃ nextRules, (patchRules libraries store blockNumber diff).1 =
      { store with nextRules := nextRules } := by
  unfold patchRules
  split
  · exact ⟨store.nextRules, rfl⟩
  · dsimp only
    split
    · exact ⟨store.nextRules, rfl⟩
    · rename_i updatedRules _
      split
      · exact ⟨some updatedRules, rfl⟩
      · exact ⟨store.nextRules, rfl⟩

theorem patch_rules_ok {libraries : Libraries Details Correction FailedBundle}
    {store : MetadataStore Details Correction FailedBundle} {blockNumber : UInt64} {diff : Bytes}
    (succeeded : (patchRules libraries store blockNumber diff).2 = .ok ()) :
    ∃ base updatedRules, patchBase store blockNumber = some base ∧
      libraries.updateRules (fillPrices base) diff = .ok updatedRules ∧
      (patchRules libraries store blockNumber diff).1 =
        if updatedRules ≠ fillPrices base then { store with nextRules := some updatedRules }
        else store := by
  cases baseEq : patchBase store blockNumber with
  | none => simp [patchRules, baseEq] at succeeded
  | some base =>
      cases updateEq : libraries.updateRules (fillPrices base) diff with
      | error err => simp [patchRules, baseEq, updateEq] at succeeded
      | ok updatedRules =>
          refine ⟨base, updatedRules, rfl, updateEq, ?_⟩
          simp only [patchRules, baseEq, updateEq]
          split <;> rfl

/-- What a commit can do: nothing is pending, the update is known, or it is new. -/
theorem commit_rules_cases (libraries : Libraries Details Correction FailedBundle)
    (store : MetadataStore Details Correction FailedBundle) (blockNumber : UInt64) :
    (store.nextRules = none ∧ commitRules libraries store blockNumber = (store, .ok ())) ∨
    (∃ nextRules existing, store.nextRules = some nextRules ∧
      store.rulesUpdateHeights.find? (fun entry => entry.block == blockNumber + 1) =
        some existing ∧
      (commitRules libraries store blockNumber).1 = { store with nextRules := none } ∧
      ((commitRules libraries store blockNumber).2 = .ok () ↔ existing.rules = nextRules)) ∨
    (∃ nextRules, store.nextRules = some nextRules ∧
      store.rulesUpdateHeights.find? (fun entry => entry.block == blockNumber + 1) = none ∧
      commitRules libraries store blockNumber =
        storeHeights libraries
          { store with
            nextRules := none
            rulesUpdateHeights :=
              sortHeights (store.rulesUpdateHeights ++ [⟨blockNumber + 1, nextRules⟩]) }
          ⟨blockNumber + 1, nextRules⟩) := by
  cases pending : store.nextRules with
  | none =>
      apply Or.inl
      exact ⟨rfl, by simp [commitRules, pending]⟩
  | some nextRules =>
      apply Or.inr
      cases known : store.rulesUpdateHeights.find?
          (fun entry => entry.block == blockNumber + 1) with
      | none =>
          apply Or.inr
          refine ⟨nextRules, rfl, rfl, ?_⟩
          simp only [commitRules, pending, known]
      | some existing =>
          apply Or.inl
          refine ⟨nextRules, existing, rfl, rfl, ?_⟩
          simp only [commitRules, pending, known]
          split
          · rename_i same
            exact ⟨rfl, by simp [same]⟩
          · rename_i different
            exact ⟨rfl, by simp [different]⟩

end Inversion

end Bertha.RulesStore
