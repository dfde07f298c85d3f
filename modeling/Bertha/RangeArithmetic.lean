import Bertha.RangeSets

/-!
# Range arithmetic at the top of `u64`

The operations of `ranges.rs` once more, with every `+ 1` and `- 1` checked: `none` is
the sum that a debug build panics on and a release build wraps. The subtractions are safe
by the comparisons around them. The adjacency test `end + 1` of `canonicalize` is not:
it overflows as soon as a range that ends at `u64::MAX` is not the last of its list.
-/

namespace Bertha.RangeArithmetic

open Bertha.IntervalList Bertha.BlockRanges Bertha.RangeSets

set_option autoImplicit false

def checkedAdd (left right : UInt64) : Option UInt64 :=
  if left.toNat + right.toNat < UInt64.size then some (left + right) else none

def checkedSub (left right : UInt64) : Option UInt64 :=
  if right ≤ left then some (left - right) else none

def checkedCanonicalizeFrom : BlockRange → List BlockRange → Option (List BlockRange)
  | range, [] => some (if range.isEmpty then [] else [range])
  | range, next :: rest =>
      if range.isEmpty then
        checkedCanonicalizeFrom next rest
      else do
        let successor ← checkedAdd range.stop 1
        if successor ≥ next.start then
          checkedCanonicalizeFrom ⟨range.start, max range.stop next.stop⟩ rest
        else
          let final ← checkedCanonicalizeFrom next rest
          return range :: final

def checkedCanonicalize (ranges : List BlockRange) : Option (List BlockRange) :=
  match ranges.insertionSort keyLE with
  | [] => some []
  | range :: rest => checkedCanonicalizeFrom range rest

def checkedAddRange (ranges : List BlockRange) (new : BlockRange) : Option (List BlockRange) :=
  checkedCanonicalize (ranges ++ [new])

def checkedSubtractStep (del range : BlockRange) : Option (List BlockRange) :=
  match compare del.stop range.start, compare del.start range.stop,
      compare del.start range.start, compare del.stop range.stop with
  | .lt, _, _, _ | _, .gt, _, _ => some [range]
  | _, _, .lt, .gt | _, _, .lt, .eq | _, _, .eq, .gt | _, _, .eq, .eq => some []
  | _, _, .gt, .gt | _, _, .gt, .eq => do
      let before ← checkedSub del.start 1
      return [⟨range.start, before⟩]
  | _, _, .lt, .lt | _, _, .eq, .lt => do
      let after ← checkedAdd del.stop 1
      return [⟨after, range.stop⟩]
  | _, _, .gt, .lt => do
      let before ← checkedSub del.start 1
      let after ← checkedAdd del.stop 1
      return [⟨range.start, before⟩, ⟨after, range.stop⟩]

def checkedSubtractRange (ranges : List BlockRange) (del : BlockRange) :
    Option (List BlockRange) := do
  let ordered ← checkedCanonicalize ranges
  let pieces ← ordered.mapM (checkedSubtractStep del)
  return pieces.flatten

def checkedSubtractRanges (minuend : BlockRange) (subtrahend : List BlockRange) :
    Option (List BlockRange) :=
  subtrahend.foldlM checkedSubtractRange [minuend]

def checkedIntersectRanges (target : BlockRange) (candidates : List BlockRange) :
    Option (List BlockRange) :=
  checkedCanonicalize (intersectSegments target candidates)

theorem checked_add_eq_some_iff {left right sum : UInt64} :
    checkedAdd left right = some sum ↔ sum.toNat = left.toNat + right.toNat := by
  unfold checkedAdd
  constructor
  · intro added
    split_ifs at added with fits
    rw [← Option.some.inj added, UInt64.toNat_add]
    exact Nat.mod_eq_of_lt fits
  · intro exactly
    have fits : left.toNat + right.toNat < UInt64.size := exactly ▸ sum.toNat_lt_size
    rw [if_pos fits, Option.some.injEq, ← UInt64.toNat_inj, UInt64.toNat_add, exactly]
    exact Nat.mod_eq_of_lt fits

theorem checked_sub_eq_some_iff {left right difference : UInt64} :
    checkedSub left right = some difference ↔ difference.toNat + right.toNat = left.toNat := by
  unfold checkedSub
  constructor
  · intro subtracted
    split_ifs at subtracted with ordered
    rw [← Option.some.inj subtracted, UInt64.toNat_sub_of_le _ _ ordered]
    exact Nat.sub_add_cancel (UInt64.le_iff_toNat_le.mp ordered)
  · intro exactly
    have ordered : right ≤ left := UInt64.le_iff_toNat_le.mpr (by omega)
    rw [if_pos ordered, Option.some.injEq, ← UInt64.toNat_inj, UInt64.toNat_sub_of_le _ _ ordered]
    omega

theorem checked_add_one {number : UInt64} (below : number < maxBlockNumber) :
    checkedAdd number 1 = some (number + 1) := by
  have belowNat := UInt64.lt_iff_toNat_lt.mp below
  unfold checkedAdd
  rw [if_pos]
  simp only [maxBlockNumber, UInt64.reduceToNat, UInt64.size] at *
  omega

theorem checked_add_one_bound {number successor : UInt64}
    (added : checkedAdd number 1 = some successor) : number < maxBlockNumber := by
  have exactly := checked_add_eq_some_iff.mp added
  have bound := successor.toNat_lt
  rw [UInt64.lt_iff_toNat_lt]
  simp only [maxBlockNumber, UInt64.reduceToNat] at *
  omega

theorem checked_sub_of_le {left right : UInt64} (ordered : right ≤ left) :
    checkedSub left right = some (left - right) := by
  rw [checkedSub, if_pos ordered]

theorem checked_sub_one {number : UInt64} (positive : 0 < number) :
    checkedSub number 1 = some (number - 1) :=
  checked_sub_of_le (by grind)

section MergeLoop

variable {range : BlockRange} {rest : List BlockRange}

theorem checked_canonicalize_from_eq
    (bounded : (range :: rest).Pairwise fun earlier _ => earlier.stop < maxBlockNumber) :
    checkedCanonicalizeFrom range rest = some (canonicalizeFrom range rest) := by
  induction rest generalizing range with
  | nil => rfl
  | cons next rest ih =>
      obtain ⟨headBound, tailBounded⟩ := List.pairwise_cons.mp bounded
      simp only [checkedCanonicalizeFrom, canonicalizeFrom,
        checked_add_one (headBound next (by simp)), Option.bind_eq_bind, Option.bind_some]
      split_ifs with empty touching
      · exact ih tailBounded
      · exact ih (merged_bounded bounded)
      · rw [ih tailBounded]
        rfl

/-- A range that ends at `u64::MAX` is carried along by every merge, so that the next
comparison overflows. -/
theorem checked_canonicalize_from_bounded {result : List BlockRange}
    (inhabited : ∀ member ∈ range :: rest, member.start ≤ member.stop)
    (safe : checkedCanonicalizeFrom range rest = some result) :
    (range :: rest).Pairwise fun earlier _ => earlier.stop < maxBlockNumber := by
  induction rest generalizing range result with
  | nil => simp
  | cons next rest ih =>
      have notEmpty : ¬range.isEmpty = true := by
        rw [is_empty_iff]
        exact not_not.mpr (inhabited range (by simp))
      have nextInhabited := inhabited next (by simp)
      simp only [checkedCanonicalizeFrom, if_neg notEmpty, Option.bind_eq_bind,
        Option.bind_eq_some_iff] at safe
      obtain ⟨successor, added, safe⟩ := safe
      have headBound := checked_add_one_bound added
      refine List.pairwise_cons.mpr ⟨fun _ _ => headBound, ?_⟩
      split_ifs at safe with touching
      · have merged := ih ?_ safe
        · obtain ⟨mergedBound, restBounded⟩ := List.pairwise_cons.mp merged
          exact List.pairwise_cons.mpr ⟨fun later member =>
            (le_max_right range.stop next.stop).trans_lt (mergedBound later member), restBounded⟩
        · intro member isMember
          rcases List.mem_cons.mp isMember with rfl | later
          · exact (inhabited range (by simp)).trans (le_max_left _ _)
          · exact inhabited member (by simp [later])
      · obtain ⟨final, tailSafe, -⟩ := Option.bind_eq_some_iff.mp safe
        exact ih (fun member isMember => inhabited member (by simp [isMember])) tailSafe

end MergeLoop

/-- A result of the checked operation, and the documented postconditions for it. -/
def Safe (checked : Option (List BlockRange)) : Prop :=
  ∃ result, checked = some result ∧ Documented result

theorem checked_canonicalize_eq {ranges : List BlockRange}
    (bounded : (ranges.insertionSort keyLE).Pairwise
      fun earlier _ => earlier.stop < maxBlockNumber) :
    checkedCanonicalize ranges = some (canonicalize ranges) := by
  unfold checkedCanonicalize canonicalize
  generalize ranges.insertionSort keyLE = ordered at bounded ⊢
  cases ordered with
  | nil => rfl
  | cons range rest => exact checked_canonicalize_from_eq bounded

theorem checked_canonicalize_bounded {ranges result : List BlockRange}
    (inhabited : ∀ range ∈ ranges, range.start ≤ range.stop)
    (safe : checkedCanonicalize ranges = some result) :
    (ranges.insertionSort keyLE).Pairwise fun earlier _ => earlier.stop < maxBlockNumber := by
  have permuted := List.perm_insertionSort keyLE ranges
  have sortedInhabited : ∀ range ∈ ranges.insertionSort keyLE, range.start ≤ range.stop :=
    fun range member => inhabited range (permuted.mem_iff.mp member)
  unfold checkedCanonicalize at safe
  generalize ranges.insertionSort keyLE = ordered at safe sortedInhabited ⊢
  cases ordered with
  | nil => exact List.Pairwise.nil
  | cons range rest => exact checked_canonicalize_from_bounded sortedInhabited safe

/-- If `top` ends at `u64::MAX` then `other` does not, and starts no later. Starts below
`floor` count as `floor`. -/
def TopIsLast (floor : UInt64) (top other : BlockRange) : Prop :=
  top.stop = maxBlockNumber →
    other.stop ≠ maxBlockNumber ∧ max other.start floor ≤ max top.start floor

/-- At most one range ends at `u64::MAX`, and no other range starts behind it. -/
def OneTop (floor : UInt64) (ranges : List BlockRange) : Prop :=
  ranges.Pairwise fun left right => TopIsLast floor left right ∧ TopIsLast floor right left

theorem one_top_perm {floor : UInt64} {left right : List BlockRange} (same : left.Perm right) :
    OneTop floor left ↔ OneTop floor right :=
  same.pairwise_iff fun both => ⟨both.2, both.1⟩

theorem top_is_last_of_key {left right : BlockRange} (ordered : keyLE left right) :
    (TopIsLast 0 left right ∧ TopIsLast 0 right left) ↔ left.stop < maxBlockNumber := by
  have floorLeft : max left.start 0 = left.start := max_eq_left (by grind)
  have floorRight : max right.start 0 = right.start := max_eq_left (by grind)
  unfold TopIsLast keyLE maxBlockNumber at *
  rw [floorLeft, floorRight]
  grind

theorem one_top_iff_sorted (ranges : List BlockRange) :
    OneTop 0 ranges ↔
      (ranges.insertionSort keyLE).Pairwise fun earlier _ => earlier.stop < maxBlockNumber := by
  rw [← one_top_perm (List.perm_insertionSort keyLE ranges)]
  have sorted := key_sorted ranges
  constructor
  · intro oneTop
    exact (sorted.and oneTop).imp fun both => (top_is_last_of_key both.1).mp both.2
  · intro bounded
    exact (sorted.and bounded).imp fun both => (top_is_last_of_key both.1).mpr both.2

theorem checked_canonicalize_one_top {ranges : List BlockRange} (oneTop : OneTop 0 ranges) :
    checkedCanonicalize ranges = some (canonicalize ranges) ∧ Canonical (canonicalize ranges) := by
  have bounded := (one_top_iff_sorted ranges).mp oneTop
  exact ⟨checked_canonicalize_eq bounded, (canonicalize_sorted_spec bounded).1⟩

theorem one_top_of_checked {ranges result : List BlockRange}
    (inhabited : ∀ range ∈ ranges, range.start ≤ range.stop)
    (safe : checkedCanonicalize ranges = some result) : OneTop 0 ranges :=
  (one_top_iff_sorted ranges).mpr (checked_canonicalize_bounded inhabited safe)

theorem checked_canonicalize_safe_iff {ranges : List BlockRange}
    (inhabited : ∀ range ∈ ranges, range.start ≤ range.stop) :
    Safe (checkedCanonicalize ranges) ↔ OneTop 0 ranges := by
  constructor
  · rintro ⟨result, safe, -⟩
    exact one_top_of_checked inhabited safe
  · intro oneTop
    obtain ⟨safe, canonical⟩ := checked_canonicalize_one_top oneTop
    exact ⟨canonicalize ranges, safe, documented_of_canonical canonical⟩

theorem checked_add_range_safe_iff {ranges : List BlockRange} {new : BlockRange}
    (inhabited : ∀ range ∈ ranges, range.start ≤ range.stop) (newInhabited : new.start ≤ new.stop) :
    Safe (checkedAddRange ranges new) ↔ OneTop 0 (ranges ++ [new]) := by
  apply checked_canonicalize_safe_iff
  intro range member
  rcases List.mem_append.mp member with old | only
  · exact inhabited range old
  · rw [List.mem_singleton.mp only]
    exact newInhabited

/-- The comparisons in front of each arm keep its sums in range. -/
theorem checked_subtract_step_eq (del range : BlockRange) :
    checkedSubtractStep del range = some (subtractStep del range) := by
  have before : compare del.start range.start = .gt →
      checkedSub del.start 1 = some (del.start - 1) := by
    intro behind
    have above := compare_gt_iff_gt.mp behind
    exact checked_sub_one (by grind)
  have after : compare del.stop range.stop = .lt →
      checkedAdd del.stop 1 = some (del.stop + 1) := by
    intro ahead
    have below := compare_lt_iff_lt.mp ahead
    exact checked_add_one (by unfold maxBlockNumber; grind)
  unfold checkedSubtractStep subtractStep
  -- both sides are now functions of the four orderings alone
  generalize compare del.stop range.start = lowOrder
  generalize compare del.start range.stop = highOrder
  generalize compare del.start range.start = leftOrder at before
  generalize compare del.stop range.stop = rightOrder at after
  cases lowOrder <;> cases highOrder <;> cases leftOrder <;> cases rightOrder <;>
    simp [before, after]

theorem checked_subtract_pieces_eq (ranges : List BlockRange) (del : BlockRange) :
    ranges.mapM (checkedSubtractStep del) = some (ranges.map (subtractStep del)) := by
  have pure : checkedSubtractStep del = fun range => some (subtractStep del range) :=
    funext (checked_subtract_step_eq del)
  rw [pure]
  exact List.mapM_pure

theorem checked_subtract_range_eq {ranges ordered : List BlockRange} (del : BlockRange)
    (safe : checkedCanonicalize ranges = some ordered) :
    checkedSubtractRange ranges del = some (ordered.flatMap (subtractStep del)) := by
  unfold checkedSubtractRange
  simp only [safe, checked_subtract_pieces_eq, Option.bind_eq_bind, Option.bind_some,
    Option.pure_def, List.flatMap]

theorem checked_subtract_range_safe_iff {ranges : List BlockRange} {del : BlockRange}
    (inhabited : ∀ range ∈ ranges, range.start ≤ range.stop) (delInhabited : del.start ≤ del.stop) :
    Safe (checkedSubtractRange ranges del) ↔ OneTop 0 ranges := by
  constructor
  · rintro ⟨result, safe, -⟩
    obtain ⟨ordered, canonicalized, -⟩ := Option.bind_eq_some_iff.mp safe
    exact one_top_of_checked inhabited canonicalized
  · intro oneTop
    obtain ⟨safe, canonical⟩ := checked_canonicalize_one_top oneTop
    exact ⟨_, checked_subtract_range_eq del safe,
      documented_of_canonical (subtract_pieces_spec delInhabited canonical).1⟩

theorem one_top_of_canonical {ranges : List BlockRange} (canonical : Canonical ranges) :
    OneTop 0 ranges := by
  apply canonical.separated.imp_of_mem
  intro left right leftMember _ apart
  obtain ⟨gap, below, above⟩ := apart
  have inhabited := canonical.inhabited left leftMember
  apply (top_is_last_of_key (Or.inl (inhabited.trans_lt (below.trans above)))).mpr
  unfold maxBlockNumber
  grind

theorem checked_subtract_fold {ranges subtrahend : List BlockRange} (canonical : Canonical ranges)
    (inhabited : ∀ del ∈ subtrahend, del.start ≤ del.stop) :
    ∃ result, subtrahend.foldlM checkedSubtractRange ranges = some result ∧ Canonical result := by
  induction subtrahend generalizing ranges with
  | nil => exact ⟨ranges, rfl, canonical⟩
  | cons del rest ih =>
      obtain ⟨safe, -⟩ := checked_canonicalize_one_top (one_top_of_canonical canonical)
      rw [canonicalize_of_canonical canonical] at safe
      obtain ⟨piecesCanonical, -⟩ := subtract_pieces_spec (inhabited del (by simp)) canonical
      obtain ⟨result, restSafe, resultCanonical⟩ :=
        ih piecesCanonical fun later member => inhabited later (by simp [member])
      refine ⟨result, ?_, resultCanonical⟩
      rw [List.foldlM_cons, checked_subtract_range_eq del safe]
      exact restSafe

theorem checked_subtract_ranges_safe {minuend : BlockRange} {subtrahend : List BlockRange}
    (minuendInhabited : minuend.start ≤ minuend.stop)
    (inhabited : ∀ del ∈ subtrahend, del.start ≤ del.stop) :
    Safe (checkedSubtractRanges minuend subtrahend) := by
  obtain ⟨result, safe, canonical⟩ := checked_subtract_fold
    (canonical_cons.mpr ⟨minuendInhabited, by simp, canonical_nil⟩) inhabited
  exact ⟨result, safe, documented_of_canonical canonical⟩

section Intersection

variable {target : BlockRange} {candidates : List BlockRange}

theorem intersect_segments_inhabited (targetInhabited : target.start ≤ target.stop)
    (inhabited : ∀ candidate ∈ candidates, candidate.start ≤ candidate.stop) :
    ∀ piece ∈ intersectSegments target candidates, piece.start ≤ piece.stop := by
  intro piece member
  obtain ⟨candidate, inside, low, high, rfl⟩ := mem_intersect_segments.mp member
  exact max_le (le_min (inhabited candidate inside) low) (le_min high targetInhabited)

theorem intersect_segments_below_top (below : target.stop ≠ maxBlockNumber) :
    OneTop 0 (intersectSegments target candidates) := by
  have notTop : ∀ piece ∈ intersectSegments target candidates, piece.stop ≠ maxBlockNumber := by
    intro piece member
    obtain ⟨candidate, -, -, -, rfl⟩ := mem_intersect_segments.mp member
    intro top
    have atMost : maxBlockNumber ≤ target.stop := top ▸ min_le_right _ _
    unfold maxBlockNumber at *
    grind
  exact List.pairwise_of_forall_mem_list fun left leftMember right rightMember =>
    ⟨fun top => absurd top (notTop left leftMember),
      fun top => absurd top (notTop right rightMember)⟩

theorem intersect_segments_top (top : target.stop = maxBlockNumber) :
    intersectSegments target candidates =
      (candidates.filter (target.start ≤ ·.stop)).map
        fun candidate => ⟨max candidate.start target.start, candidate.stop⟩ := by
  have highest : ∀ number : UInt64, number ≤ target.stop := by
    intro number
    rw [top]
    unfold maxBlockNumber
    grind
  induction candidates with
  | nil => rfl
  | cons candidate rest ih =>
      unfold intersectSegments at ih ⊢
      by_cases overlaps : target.start ≤ candidate.stop
      · simpa [overlaps, highest] using ih
      · simpa [overlaps, highest] using ih

theorem intersect_segments_one_top_iff :
    OneTop 0 (intersectSegments target candidates) ↔
      (target.stop = maxBlockNumber →
        OneTop target.start (candidates.filter (target.start ≤ ·.stop))) := by
  by_cases top : target.stop = maxBlockNumber
  · simp only [top, forall_const]
    rw [intersect_segments_top top]
    unfold OneTop TopIsLast
    rw [List.pairwise_map]
    have floored : ∀ number : UInt64, max number 0 = number := fun number =>
      max_eq_left (by grind)
    simp only [floored]
  · exact iff_of_true (intersect_segments_below_top top) (fun same => absurd same top)

end Intersection

/-- No sum overflows and the postconditions hold exactly if, wherever the operation
canonicalizes, at most one range ends at `u64::MAX` and it is the last one. -/
theorem range_arithmetic_safe_iff {ranges : List BlockRange}
    (inhabited : ∀ range ∈ ranges, range.start ≤ range.stop) :
    (Safe (checkedCanonicalize ranges) ↔ OneTop 0 ranges) ∧
      ∀ other : BlockRange, other.start ≤ other.stop →
        (Safe (checkedAddRange ranges other) ↔ OneTop 0 (ranges ++ [other])) ∧
        (Safe (checkedSubtractRange ranges other) ↔ OneTop 0 ranges) ∧
        (Safe (checkedIntersectRanges other ranges) ↔
          (other.stop = maxBlockNumber →
            OneTop other.start (ranges.filter (other.start ≤ ·.stop)))) ∧
        Safe (checkedSubtractRanges other ranges) := by
  refine ⟨checked_canonicalize_safe_iff inhabited, fun other otherInhabited => ⟨?_, ?_, ?_, ?_⟩⟩
  · exact checked_add_range_safe_iff inhabited otherInhabited
  · exact checked_subtract_range_safe_iff inhabited otherInhabited
  · rw [← intersect_segments_one_top_iff]
    exact checked_canonicalize_safe_iff (intersect_segments_inhabited otherInhabited inhabited)
  · exact checked_subtract_ranges_safe otherInhabited inhabited

theorem range_arithmetic_safe_iff_one_top :
    (∀ range ∈ [(⟨5, 9⟩ : BlockRange), ⟨20, maxBlockNumber⟩], range.start ≤ range.stop) ∧
      (Safe (checkedCanonicalize [⟨5, 9⟩, ⟨20, maxBlockNumber⟩]) ↔
        OneTop 0 [⟨5, 9⟩, ⟨20, maxBlockNumber⟩]) := by
  have inhabited : ∀ range ∈ [(⟨5, 9⟩ : BlockRange), ⟨20, maxBlockNumber⟩],
      range.start ≤ range.stop := by decide
  exact ⟨inhabited, (range_arithmetic_safe_iff inhabited).1⟩

/-- Adding block `u64::MAX` a second time overflows; the sum that wraps leaves it twice. -/
theorem adding_last_block_twice_overflows :
    checkedAddRange [⟨maxBlockNumber, maxBlockNumber⟩] ⟨maxBlockNumber, maxBlockNumber⟩ = none ∧
      ¬Safe (checkedAddRange [⟨maxBlockNumber, maxBlockNumber⟩]
        ⟨maxBlockNumber, maxBlockNumber⟩) ∧
      addRange [⟨maxBlockNumber, maxBlockNumber⟩] ⟨maxBlockNumber, maxBlockNumber⟩ =
        [⟨maxBlockNumber, maxBlockNumber⟩, ⟨maxBlockNumber, maxBlockNumber⟩] := by
  have overflows : checkedAddRange [⟨maxBlockNumber, maxBlockNumber⟩]
      ⟨maxBlockNumber, maxBlockNumber⟩ = none := by decide
  refine ⟨overflows, ?_, by decide⟩
  rintro ⟨result, safe, -⟩
  rw [overflows] at safe
  contradiction

end Bertha.RangeArithmetic
