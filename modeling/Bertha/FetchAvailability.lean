import Bertha.Fetch

/-!
# The availability check of a fetch

`fetch` looks for a remote range around each range to fetch with `binary_search_by` and a
comparator of its own. On canonical remote ranges its answers rise along the list however
the range lies across them: a remote range that starts behind the end is `Greater`, the one
around the range, if there is one, is the last before those, and everything else is `Less`.
So every bisection that keeps the promise of its documentation is exact.
-/

namespace Bertha.FetchAvailability

open Bertha.BinarySearch Bertha.BlockRanges Bertha.Fetch Bertha.IntervalList

set_option autoImplicit false

theorem compare_remote_eq_iff (range remoteRange : BlockRange) :
    compareRemote range remoteRange = .eq ↔
      remoteRange.start ≤ range.start ∧ range.stop ≤ remoteRange.stop := by
  unfold compareRemote
  split_ifs with within <;> simp_all

theorem compare_remote_gt_iff {range : BlockRange} (inhabited : range.start ≤ range.stop)
    (remoteRange : BlockRange) :
    compareRemote range remoteRange = .gt ↔ range.stop < remoteRange.start := by
  unfold compareRemote
  split_ifs with within behind
  · simpa using within.1.trans inhabited
  · simpa using behind
  · simpa using behind

theorem compare_remote_rising {remote : List BlockRange} (canonical : Canonical remote)
    {range : BlockRange} (inhabited : range.start ≤ range.stop) :
    remote.Pairwise fun earlier later =>
      (compareRemote range later = .lt → compareRemote range earlier = .lt) ∧
      (compareRemote range later ≠ .gt → compareRemote range earlier ≠ .gt) := by
  apply canonical.separated.imp_of_mem
  intro earlier later earlierMember _ apart
  obtain ⟨gap, below, above⟩ := apart
  have earlierInhabited := canonical.inhabited earlier earlierMember
  have before : ¬range.stop < later.start → compareRemote range earlier = .lt := by
    intro reaches
    have past : earlier.stop < range.stop := (below.trans above).trans_le (not_lt.mp reaches)
    unfold compareRemote
    rw [if_neg fun within => within.2.not_gt past,
      if_neg (earlierInhabited.trans past.le).not_gt]
  have laterGreater := compare_remote_gt_iff inhabited later
  refine ⟨fun less => before (mt laterGreater.mpr ?_), fun notGreater => ?_⟩
  · rw [less]
    decide
  · rw [before (mt laterGreater.mpr notGreater)]
    decide

/-- Whatever bisection is used, the check finds a remote range exactly if the server lists
every number of the range to fetch. -/
theorem availability_check_exact
    {search : List BlockRange → (BlockRange → Ordering) → Except Nat Nat}
    (bisects : Bisects search) {remote : List BlockRange} (canonical : Canonical remote)
    {range : BlockRange} (inhabited : range.start ≤ range.stop) :
    (∃ index, search remote (compareRemote range) = .ok index) ↔
      ∀ number, range.start ≤ number → number ≤ range.stop → number ∈ denote remote := by
  have rising := compare_remote_rising canonical inhabited
  rw [bisects_iff bisects (rising_partitioned rising), canonical_covers_iff canonical inhabited]
  simp only [compare_remote_eq_iff]

theorem availability_check_exact_across_a_gap :
    Canonical [(⟨1, 4⟩ : BlockRange), ⟨8, 9⟩] ∧
      ((∃ index, binarySearchBy [(⟨1, 4⟩ : BlockRange), ⟨8, 9⟩] (compareRemote ⟨3, 8⟩) =
          .ok index) ↔
        ∀ number : UInt64, 3 ≤ number → number ≤ 8 →
          number ∈ denote [(⟨1, 4⟩ : BlockRange), ⟨8, 9⟩]) := by
  have canonical : Canonical [(⟨1, 4⟩ : BlockRange), ⟨8, 9⟩] :=
    canonical_cons.mpr ⟨by decide, by simpa using ⟨5, by decide, by decide⟩,
      canonical_cons.mpr ⟨by decide, by simp, canonical_nil⟩⟩
  exact ⟨canonical,
    availability_check_exact binary_search_by_bisects canonical (by decide)⟩

theorem check_available_iff {chainId : UInt64} {remote ranges : List BlockRange}
    (canonical : Canonical remote) (inhabited : ∀ range ∈ ranges, range.start ≤ range.stop) :
    checkAvailable chainId remote ranges = .ok () ↔ denote ranges ⊆ denote remote := by
  induction ranges with
  | nil => simp [checkAvailable]
  | cons range rest ih =>
      have rangeInhabited := inhabited range (by simp)
      have exactly := bisects_iff binary_search_by_bisects
        (rising_partitioned (compare_remote_rising canonical rangeInhabited))
      simp only [compare_remote_eq_iff, ← canonical_covers_iff canonical rangeInhabited] at exactly
      have rangeSubset : denote [range] ⊆ denote remote ↔
          ∃ index, binarySearchBy remote (compareRemote range) = .ok index := by
        rw [exactly]
        simp [Set.subset_def]
      have together : denote (range :: rest) = denote [range] ∪ denote rest :=
        denote_append [range] rest
      rw [together, Set.union_subset_iff, rangeSubset, checkAvailable,
        ← ih fun later member => inhabited later (by simp [member])]
      cases binarySearchBy remote (compareRemote range) <;> simp

end Bertha.FetchAvailability
