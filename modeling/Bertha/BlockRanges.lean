import Bertha.IntervalList

/-!
# Block ranges

The range arithmetic of `blockservice/src/utils/ranges.rs` on `Vec<BlockRange>`.
Block numbers are `u64` and sums wrap as in a release build, so the results about
`canonicalize` name the one precondition that matters: no range ends at `u64::MAX`.
A list that is already canonical needs no such bound, which is what subtraction
from a requested range relies on.
-/

namespace Bertha.BlockRanges

open Bertha.IntervalList

set_option autoImplicit false

instance blockNumberOrder : LinearOrder UInt64 where
  le_refl _ := UInt64.le_refl _
  le_trans _ _ _ := UInt64.le_trans
  lt_iff_le_not_ge left right := by grind
  le_antisymm _ _ := UInt64.le_antisymm
  le_total := UInt64.le_total
  toDecidableLE := inferInstance
  toDecidableEq := inferInstance
  toDecidableLT := inferInstance

abbrev BlockRange := ClosedInterval UInt64

def maxBlockNumber : UInt64 := 18446744073709551615

def BlockRange.isEmpty (range : BlockRange) : Bool := !(range.start ≤ range.stop)

/-- The order of `sort_by_key(|r| (*r.start(), *r.end()))`. -/
def keyLE (left right : BlockRange) : Prop :=
  left.start < right.start ∨ (left.start = right.start ∧ left.stop ≤ right.stop)

instance : DecidableRel keyLE := fun left right =>
  inferInstanceAs (Decidable (left.start < right.start ∨
    (left.start = right.start ∧ left.stop ≤ right.stop)))

/-- The merge loop of `canonicalize`, seen from index `i`: the range there and the
ranges behind it. Everything before index `i` is final and never looked at again. -/
def canonicalizeFrom : BlockRange → List BlockRange → List BlockRange
  | range, [] => if range.isEmpty then [] else [range]
  | range, next :: rest =>
      if range.isEmpty then
        canonicalizeFrom next rest
      else if range.stop + 1 ≥ next.start then
        canonicalizeFrom ⟨range.start, max range.stop next.stop⟩ rest
      else
        range :: canonicalizeFrom next rest

def canonicalize (ranges : List BlockRange) : List BlockRange :=
  match ranges.insertionSort keyLE with
  | [] => []
  | range :: rest => canonicalizeFrom range rest

def addRange (ranges : List BlockRange) (new : BlockRange) : List BlockRange :=
  canonicalize (ranges ++ [new])

def subtractStep (del range : BlockRange) : List BlockRange :=
  match compare del.stop range.start, compare del.start range.stop,
      compare del.start range.start, compare del.stop range.stop with
  | .lt, _, _, _ | _, .gt, _, _ => [range]
  | _, _, .lt, .gt | _, _, .lt, .eq | _, _, .eq, .gt | _, _, .eq, .eq => []
  | _, _, .gt, .gt | _, _, .gt, .eq => [⟨range.start, del.start - 1⟩]
  | _, _, .lt, .lt | _, _, .eq, .lt => [⟨del.stop + 1, range.stop⟩]
  | _, _, .gt, .lt => [⟨range.start, del.start - 1⟩, ⟨del.stop + 1, range.stop⟩]

def subtractRange (ranges : List BlockRange) (del : BlockRange) : List BlockRange :=
  (canonicalize ranges).flatMap (subtractStep del)

def subtractRanges (minuend : BlockRange) (subtrahend : List BlockRange) : List BlockRange :=
  subtrahend.foldl subtractRange [minuend]

/-- The loop of `intersect_ranges`, before its result is canonicalized. -/
def intersectSegments (target : BlockRange) (candidates : List BlockRange) : List BlockRange :=
  candidates.filterMap fun candidate =>
    if candidate.start ≤ target.stop ∧ candidate.stop ≥ target.start then
      some ⟨max candidate.start target.start, min candidate.stop target.stop⟩
    else none

def intersectRanges (target : BlockRange) (candidates : List BlockRange) : List BlockRange :=
  canonicalize (intersectSegments target candidates)

def Bounded (ranges : List BlockRange) : Prop :=
  ∀ range ∈ ranges, range.stop < maxBlockNumber

theorem is_empty_iff (range : BlockRange) :
    range.isEmpty = true ↔ ¬range.start ≤ range.stop := by
  simp [BlockRange.isEmpty]

theorem separated_iff (left right : BlockRange) :
    Separated left right ↔ left.stop.toNat + 1 < right.start.toNat := by
  constructor
  · rintro ⟨gap, below, above⟩
    have belowNat := UInt64.lt_iff_toNat_lt.mp below
    have aboveNat := UInt64.lt_iff_toNat_lt.mp above
    omega
  · intro apart
    have startBound := right.start.toNat_lt
    have next : (left.stop + 1).toNat = left.stop.toNat + 1 := by
      rw [UInt64.toNat_add, UInt64.toNat_one]
      exact Nat.mod_eq_of_lt (by omega)
    refine ⟨left.stop + 1, ?_, ?_⟩
    · rw [UInt64.lt_iff_toNat_lt, next]
      omega
    · rw [UInt64.lt_iff_toNat_lt, next]
      exact apart

private theorem key_le_total (left right : BlockRange) : keyLE left right ∨ keyLE right left := by
  unfold keyLE
  grind

private theorem key_le_trans {left middle right : BlockRange}
    (first : keyLE left middle) (second : keyLE middle right) : keyLE left right := by
  unfold keyLE at *
  grind

theorem key_sorted (ranges : List BlockRange) : (ranges.insertionSort keyLE).Pairwise keyLE := by
  have : Std.Total keyLE := ⟨key_le_total⟩
  have : IsTrans BlockRange keyLE := ⟨fun _ _ _ => key_le_trans⟩
  exact List.pairwise_insertionSort keyLE ranges

theorem key_sorted_starts (ranges : List BlockRange) :
    (ranges.insertionSort keyLE).Pairwise (fun left right => left.start ≤ right.start) := by
  apply (key_sorted ranges).imp
  intro left right ordered
  rcases ordered with less | ⟨same, -⟩
  · exact less.le
  · exact same.le

section MergeLoop

variable {range next : BlockRange} {rest : List BlockRange}

theorem merged_sorted
    (sorted : (range :: next :: rest).Pairwise (fun left right => left.start ≤ right.start)) :
    (⟨range.start, max range.stop next.stop⟩ :: rest).Pairwise
      (fun left right : BlockRange => left.start ≤ right.start) := by
  obtain ⟨headLE, tailSorted⟩ := List.pairwise_cons.mp sorted
  exact List.pairwise_cons.mpr ⟨fun later member => headLE later (by simp [member]),
    (List.pairwise_cons.mp tailSorted).2⟩

theorem merged_bounded
    (bounded : (range :: next :: rest).Pairwise fun earlier _ => earlier.stop < maxBlockNumber) :
    (⟨range.start, max range.stop next.stop⟩ :: rest).Pairwise
      fun (earlier _ : BlockRange) => earlier.stop < maxBlockNumber := by
  obtain ⟨headBound, tailBounded⟩ := List.pairwise_cons.mp bounded
  obtain ⟨nextBound, restBounded⟩ := List.pairwise_cons.mp tailBounded
  exact List.pairwise_cons.mpr ⟨fun later member =>
    max_lt (headBound later (by simp [member])) (nextBound later member), restBounded⟩

theorem canonicalize_from_lower_bound
    (sorted : (range :: rest).Pairwise (fun left right => left.start ≤ right.start)) :
    ∀ result ∈ canonicalizeFrom range rest, range.start ≤ result.start := by
  induction rest generalizing range with
  | nil =>
      intro result member
      simp only [canonicalizeFrom] at member
      split at member <;> simp_all
  | cons next rest ih =>
      obtain ⟨headLE, tailSorted⟩ := List.pairwise_cons.mp sorted
      have toNext := headLE next (by simp)
      intro result member
      simp only [canonicalizeFrom] at member
      split_ifs at member
      · exact toNext.trans (ih tailSorted result member)
      · exact ih (merged_sorted sorted) result member
      · rcases List.mem_cons.mp member with rfl | member
        · exact le_rfl
        · exact toNext.trans (ih tailSorted result member)

theorem canonicalize_from_denote
    (bounded : (range :: rest).Pairwise fun earlier _ => earlier.stop < maxBlockNumber)
    (sorted : (range :: rest).Pairwise (fun left right => left.start ≤ right.start)) :
    denote (canonicalizeFrom range rest) = denote (range :: rest) := by
  induction rest generalizing range with
  | nil =>
      ext point
      simp only [canonicalizeFrom]
      split_ifs with empty
      · have outside : ¬(range.start ≤ point ∧ point ≤ range.stop) :=
          fun inside => (is_empty_iff range).mp empty (inside.1.trans inside.2)
        simp [outside]
      · rfl
  | cons next rest ih =>
      obtain ⟨headLE, tailSorted⟩ := List.pairwise_cons.mp sorted
      obtain ⟨headBound, tailBounded⟩ := List.pairwise_cons.mp bounded
      have toNext := headLE next (by simp)
      have rangeBound := headBound next (by simp)
      ext point
      simp only [canonicalizeFrom]
      split_ifs with empty touching
      · have outside : ¬(range.start ≤ point ∧ point ≤ range.stop) :=
          fun inside => (is_empty_iff range).mp empty (inside.1.trans inside.2)
        rw [ih tailBounded tailSorted]
        simp [outside]
      · rw [ih (merged_bounded bounded) (merged_sorted sorted)]
        simp only [mem_denote_cons]
        unfold maxBlockNumber at rangeBound
        grind
      · rw [mem_denote_cons, ih tailBounded tailSorted, ← mem_denote_cons]

theorem canonicalize_from_canonical
    (bounded : (range :: rest).Pairwise fun earlier _ => earlier.stop < maxBlockNumber)
    (sorted : (range :: rest).Pairwise (fun left right => left.start ≤ right.start)) :
    Canonical (canonicalizeFrom range rest) := by
  induction rest generalizing range with
  | nil =>
      simp only [canonicalizeFrom]
      split_ifs with empty
      · exact canonical_nil
      · refine canonical_cons.mpr ⟨?_, by simp, canonical_nil⟩
        simpa [is_empty_iff] using empty
  | cons next rest ih =>
      have tailSorted := (List.pairwise_cons.mp sorted).2
      obtain ⟨headBound, tailBounded⟩ := List.pairwise_cons.mp bounded
      have rangeBound := headBound next (by simp)
      simp only [canonicalizeFrom]
      split_ifs with empty touching
      · exact ih tailBounded tailSorted
      · exact ih (merged_bounded bounded) (merged_sorted sorted)
      · refine canonical_cons.mpr ⟨by simpa [is_empty_iff] using empty, ?_,
          ih tailBounded tailSorted⟩
        intro later member
        have lower := canonicalize_from_lower_bound tailSorted later member
        refine ⟨range.stop + 1, ?_, (not_le.mp touching).trans_le lower⟩
        unfold maxBlockNumber at rangeBound
        grind

end MergeLoop

/-- `canonicalize` keeps the denoted set and makes its list canonical if at most the last
range in the order of the sort ends at `u64::MAX`. -/
theorem canonicalize_sorted_spec {ranges : List BlockRange}
    (bounded : (ranges.insertionSort keyLE).Pairwise
      fun earlier _ => earlier.stop < maxBlockNumber) :
    Canonical (canonicalize ranges) ∧ denote (canonicalize ranges) = denote ranges := by
  have sorted := key_sorted_starts ranges
  unfold canonicalize
  rw [← denote_perm (List.perm_insertionSort keyLE ranges)]
  generalize ranges.insertionSort keyLE = ordered at sorted bounded
  cases ordered with
  | nil => exact ⟨canonical_nil, rfl⟩
  | cons range rest =>
      exact ⟨canonicalize_from_canonical bounded sorted, canonicalize_from_denote bounded sorted⟩

theorem canonicalize_spec {ranges : List BlockRange} (bounded : Bounded ranges) :
    Canonical (canonicalize ranges) ∧ denote (canonicalize ranges) = denote ranges := by
  have permuted := List.perm_insertionSort keyLE ranges
  apply canonicalize_sorted_spec
  exact List.pairwise_of_forall_mem_list fun earlier member _ _ =>
    bounded earlier (permuted.mem_iff.mp member)

theorem canonicalize_from_of_canonical {range : BlockRange} {rest : List BlockRange}
    (canonical : Canonical (range :: rest)) :
    canonicalizeFrom range rest = range :: rest := by
  induction rest generalizing range with
  | nil =>
      have inhabited := (canonical_cons.mp canonical).1
      simp [canonicalizeFrom, is_empty_iff, inhabited]
  | cons next rest ih =>
      obtain ⟨inhabited, separated, tailCanonical⟩ := canonical_cons.mp canonical
      obtain ⟨gap, below, above⟩ := separated next (by simp)
      have apart : ¬range.stop + 1 ≥ next.start := by grind
      simp only [canonicalizeFrom]
      rw [if_neg (by simpa [is_empty_iff] using inhabited), if_neg apart, ih tailCanonical]

/-- A canonical list is a fixed point, also when its last range ends at `u64::MAX`. -/
theorem canonicalize_of_canonical {ranges : List BlockRange} (canonical : Canonical ranges) :
    canonicalize ranges = ranges := by
  have sorted : ranges.Pairwise keyLE := by
    have starts : ranges.Pairwise (fun left right => left.start < right.start) := by
      apply canonical.separated.imp_of_mem
      rintro left right leftMember - ⟨gap, below, above⟩
      exact (canonical.inhabited left leftMember).trans_lt (below.trans above)
    exact starts.imp (fun less => Or.inl less)
  unfold canonicalize
  rw [sorted.insertionSort_eq]
  cases ranges with
  | nil => rfl
  | cons range rest => exact canonicalize_from_of_canonical canonical

theorem add_range_spec {ranges : List BlockRange} (new : BlockRange)
    (bounded : Bounded ranges) (newBound : new.stop < maxBlockNumber) :
    Canonical (addRange ranges new) ∧
      denote (addRange ranges new) = denote ranges ∪ denote [new] := by
  have allBounded : Bounded (ranges ++ [new]) := by
    intro range member
    rcases List.mem_append.mp member with member | member
    · exact bounded range member
    · rw [List.mem_singleton.mp member]
      exact newBound
  rw [← denote_append]
  exact canonicalize_spec allBounded

theorem canonical_bounded_of_denote {ranges : List BlockRange} (canonical : Canonical ranges)
    (absent : maxBlockNumber ∉ denote ranges) : Bounded ranges := by
  intro range member
  have inhabited := canonical.inhabited range member
  by_contra top
  have stopMax : range.stop = maxBlockNumber := by
    unfold maxBlockNumber at *
    grind
  apply absent
  exact ⟨range, member, stopMax ▸ inhabited, stopMax ▸ le_rfl⟩

theorem bounded_not_mem_denote {ranges : List BlockRange} (bounded : Bounded ranges) :
    maxBlockNumber ∉ denote ranges := by
  rintro ⟨range, member, -, upper⟩
  exact (bounded range member).not_ge upper

theorem add_ranges_spec {ranges new : List BlockRange} (canonical : Canonical ranges)
    (bounded : Bounded ranges) (newBounded : Bounded new) :
    Canonical (new.foldl addRange ranges) ∧
      denote (new.foldl addRange ranges) = denote ranges ∪ denote new := by
  induction new generalizing ranges with
  | nil => exact ⟨canonical, by simp⟩
  | cons range rest ih =>
      have restBounded : Bounded rest := fun later member => newBounded later (by simp [member])
      have rangeBounded : Bounded [range] := by
        intro later member
        rw [List.mem_singleton.mp member]
        exact newBounded range (by simp)
      obtain ⟨grownCanonical, grownDenotes⟩ :=
        add_range_spec range bounded (newBounded range (by simp))
      have grownBounded : Bounded (addRange ranges range) := by
        apply canonical_bounded_of_denote grownCanonical
        rw [grownDenotes]
        rintro (before | added)
        · exact bounded_not_mem_denote bounded before
        · exact bounded_not_mem_denote rangeBounded added
      obtain ⟨finalCanonical, finalDenotes⟩ := ih grownCanonical grownBounded restBounded
      refine ⟨finalCanonical, ?_⟩
      rw [List.foldl_cons, finalDenotes, grownDenotes, Set.union_assoc, ← denote_append]
      rfl

/-- The five arms of the `subtract_range` match as a decision on the end points. -/
theorem subtract_step_eq (del range : BlockRange) :
    subtractStep del range =
      if del.stop < range.start ∨ range.stop < del.start then [range]
      else if del.start ≤ range.start then
        if range.stop ≤ del.stop then [] else [⟨del.stop + 1, range.stop⟩]
      else if range.stop ≤ del.stop then [⟨range.start, del.start - 1⟩]
      else [⟨range.start, del.start - 1⟩, ⟨del.stop + 1, range.stop⟩] := by
  have low : del.stop < range.start ↔ compare del.stop range.start = .lt := compare_lt_iff_lt.symm
  have high : range.stop < del.start ↔ compare del.start range.stop = .gt :=
    compare_gt_iff_gt.symm
  have left : del.start ≤ range.start ↔ compare del.start range.start ≠ .gt :=
    compare_le_iff_le.symm
  have right : range.stop ≤ del.stop ↔ compare del.stop range.stop ≠ .lt :=
    compare_ge_iff_ge.symm
  simp only [low, high, left, right]
  unfold subtractStep
  -- both sides are now functions of the four orderings alone
  generalize compare del.stop range.start = lowOrder
  generalize compare del.start range.stop = highOrder
  generalize compare del.start range.start = leftOrder
  generalize compare del.stop range.stop = rightOrder
  cases lowOrder <;> cases highOrder <;> cases leftOrder <;> cases rightOrder <;> rfl

/-- Whatever the input, no range of a canonicalized list is empty. -/
theorem canonicalize_inhabited (ranges : List BlockRange) :
    ∀ range ∈ canonicalize ranges, range.start ≤ range.stop := by
  have loop : ∀ (rest : List BlockRange) (range : BlockRange),
      ∀ result ∈ canonicalizeFrom range rest, result.start ≤ result.stop := by
    intro rest
    induction rest with
    | nil =>
        intro range result member
        simp only [canonicalizeFrom] at member
        split_ifs at member with empty
        · simp at member
        · rw [List.mem_singleton.mp member]
          simpa [is_empty_iff] using empty
    | cons next rest ih =>
        intro range result member
        simp only [canonicalizeFrom] at member
        split_ifs at member with empty touching
        · exact ih next result member
        · exact ih _ result member
        · rcases List.mem_cons.mp member with rfl | later
          · simpa [is_empty_iff] using empty
          · exact ih next result later
  unfold canonicalize
  split
  · simp
  · exact loop _ _

theorem subtract_step_inhabited {del range : BlockRange} (inhabited : range.start ≤ range.stop) :
    ∀ piece ∈ subtractStep del range, piece.start ≤ piece.stop := by
  rw [subtract_step_eq]
  intro piece member
  split_ifs at member <;> grind

theorem subtract_ranges_inhabited (minuend : BlockRange) (subtrahend : List BlockRange)
    (inhabited : minuend.start ≤ minuend.stop) :
    ∀ range ∈ subtractRanges minuend subtrahend, range.start ≤ range.stop := by
  unfold subtractRanges
  induction subtrahend using List.reverseRecOn with
  | nil => simpa using inhabited
  | append_singleton rest del _ =>
      intro range member
      rw [List.foldl_append] at member
      obtain ⟨source, sourceMember, piece⟩ := List.mem_flatMap.mp member
      exact subtract_step_inhabited (canonicalize_inhabited _ source sourceMember) range piece

theorem subtract_step_within (del range : BlockRange) :
    ∀ piece ∈ subtractStep del range, range.start ≤ piece.start ∧ piece.stop ≤ range.stop := by
  rw [subtract_step_eq]
  intro piece member
  split_ifs at member <;> grind

section Subtraction

variable {del : BlockRange} (delInhabited : del.start ≤ del.stop)
include delInhabited

theorem subtract_step_spec {range : BlockRange} (inhabited : range.start ≤ range.stop) :
    Canonical (subtractStep del range) ∧
      denote (subtractStep del range) = denote [range] \ denote [del] := by
  rw [subtract_step_eq]
  split_ifs with apart covers trimsLeft trimsRight
  · refine ⟨canonical_cons.mpr ⟨inhabited, by simp, canonical_nil⟩, ?_⟩
    ext point
    simp only [mem_denote_cons, Set.mem_sdiff, denote_nil, Set.mem_empty_iff_false, or_false]
    grind
  · refine ⟨canonical_nil, ?_⟩
    ext point
    simp only [mem_denote_cons, Set.mem_sdiff, denote_nil, Set.mem_empty_iff_false, or_false]
    grind
  · refine ⟨canonical_cons.mpr ⟨by grind, by simp, canonical_nil⟩, ?_⟩
    ext point
    simp only [mem_denote_cons, Set.mem_sdiff, denote_nil, Set.mem_empty_iff_false, or_false]
    grind
  · refine ⟨canonical_cons.mpr ⟨by grind, by simp, canonical_nil⟩, ?_⟩
    ext point
    simp only [mem_denote_cons, Set.mem_sdiff, denote_nil, Set.mem_empty_iff_false, or_false]
    grind
  · have separated : Separated (⟨range.start, del.start - 1⟩ : BlockRange)
        ⟨del.stop + 1, range.stop⟩ := ⟨del.start, by grind, by grind⟩
    have rightCanonical : Canonical [(⟨del.stop + 1, range.stop⟩ : BlockRange)] :=
      canonical_cons.mpr ⟨by grind, by simp, canonical_nil⟩
    refine ⟨canonical_cons.mpr ⟨by grind, by simpa using separated, rightCanonical⟩, ?_⟩
    ext point
    simp only [mem_denote_cons, Set.mem_sdiff, denote_nil, Set.mem_empty_iff_false, or_false]
    grind

theorem subtract_pieces_spec {ranges : List BlockRange} (canonical : Canonical ranges) :
    Canonical (ranges.flatMap (subtractStep del)) ∧
      denote (ranges.flatMap (subtractStep del)) = denote ranges \ denote [del] := by
  induction ranges with
  | nil => simp [canonical_nil]
  | cons range rest ih =>
      obtain ⟨inhabited, separated, restCanonical⟩ := canonical_cons.mp canonical
      obtain ⟨piecesCanonical, piecesDenote⟩ := subtract_step_spec delInhabited inhabited
      obtain ⟨tailCanonical, tailDenote⟩ := ih restCanonical
      rw [List.flatMap_cons]
      constructor
      · refine ⟨?_, List.pairwise_append.mpr
          ⟨piecesCanonical.separated, tailCanonical.separated, ?_⟩⟩
        · intro piece member
          rcases List.mem_append.mp member with member | member
          · exact piecesCanonical.inhabited piece member
          · exact tailCanonical.inhabited piece member
        · intro piece pieceMember later laterMember
          obtain ⟨source, sourceMember, fromSource⟩ := List.mem_flatMap.mp laterMember
          obtain ⟨gap, below, above⟩ := separated source sourceMember
          have leftWithin := subtract_step_within del range piece pieceMember
          have rightWithin := subtract_step_within del source later fromSource
          exact ⟨gap, leftWithin.2.trans_lt below, above.trans_le rightWithin.1⟩
      · rw [denote_append, piecesDenote, tailDenote, ← Set.union_sdiff_distrib, ← denote_append]
        rfl

/-- Subtraction from a canonical list is set difference and stays canonical. -/
theorem subtract_range_spec {ranges : List BlockRange} (canonical : Canonical ranges) :
    Canonical (subtractRange ranges del) ∧
      denote (subtractRange ranges del) = denote ranges \ denote [del] := by
  unfold subtractRange
  rw [canonicalize_of_canonical canonical]
  exact subtract_pieces_spec delInhabited canonical

end Subtraction

private theorem subtract_fold_spec {ranges subtrahend : List BlockRange}
    (canonical : Canonical ranges)
    (inhabited : ∀ del ∈ subtrahend, del.start ≤ del.stop) :
    Canonical (subtrahend.foldl subtractRange ranges) ∧
      denote (subtrahend.foldl subtractRange ranges) = denote ranges \ denote subtrahend := by
  induction subtrahend generalizing ranges with
  | nil => simp [canonical]
  | cons del rest ih =>
      obtain ⟨stepCanonical, stepDenote⟩ :=
        subtract_range_spec (inhabited del (by simp)) canonical
      obtain ⟨foldCanonical, foldDenote⟩ :=
        ih stepCanonical (fun later member => inhabited later (by simp [member]))
      refine ⟨foldCanonical, ?_⟩
      have split : denote (del :: rest) = denote [del] ∪ denote rest := denote_append [del] rest
      rw [List.foldl_cons, foldDenote, stepDenote, split, Set.sdiff_sdiff]

/-- What `fetch` asks for is the requested range without the stored numbers. -/
theorem subtract_ranges_spec (minuend : BlockRange) {subtrahend : List BlockRange}
    (minuendInhabited : minuend.start ≤ minuend.stop)
    (inhabited : ∀ del ∈ subtrahend, del.start ≤ del.stop) :
    Canonical (subtractRanges minuend subtrahend) ∧
      denote (subtractRanges minuend subtrahend) = denote [minuend] \ denote subtrahend :=
  subtract_fold_spec (canonical_cons.mpr ⟨minuendInhabited, by simp, canonical_nil⟩) inhabited

theorem mem_intersect_segments {target piece : BlockRange} {candidates : List BlockRange} :
    piece ∈ intersectSegments target candidates ↔
      ∃ candidate ∈ candidates, candidate.start ≤ target.stop ∧ target.start ≤ candidate.stop ∧
        piece = ⟨max candidate.start target.start, min candidate.stop target.stop⟩ := by
  unfold intersectSegments
  rw [List.mem_filterMap]
  constructor
  · rintro ⟨candidate, member, kept⟩
    split_ifs at kept with overlap
    exact ⟨candidate, member, overlap.1, overlap.2, (Option.some.inj kept).symm⟩
  · rintro ⟨candidate, member, low, high, rfl⟩
    exact ⟨candidate, member, if_pos ⟨low, high⟩⟩

theorem intersect_segments_denote (target : BlockRange) (candidates : List BlockRange) :
    denote (intersectSegments target candidates) = denote [target] ∩ denote candidates := by
  ext point
  constructor
  · rintro ⟨piece, member, lower, upper⟩
    obtain ⟨candidate, inside, -, -, rfl⟩ := mem_intersect_segments.mp member
    refine ⟨⟨target, by simp, ?_, ?_⟩, candidate, inside, ?_, ?_⟩
    · exact (le_max_right _ _).trans lower
    · exact upper.trans (min_le_right _ _)
    · exact (le_max_left _ _).trans lower
    · exact upper.trans (min_le_left _ _)
  · rintro ⟨⟨range, only, lower, upper⟩, candidate, inside, above, below⟩
    rw [List.mem_singleton.mp only] at lower upper
    exact ⟨_, mem_intersect_segments.mpr
      ⟨candidate, inside, above.trans upper, lower.trans below, rfl⟩,
      max_le above lower, le_min below upper⟩

/-- Intersection with candidates that do not reach `u64::MAX`; empty ranges do no harm. -/
theorem intersect_ranges_spec (target : BlockRange) {candidates : List BlockRange}
    (bounded : Bounded candidates) :
    Canonical (intersectRanges target candidates) ∧
      denote (intersectRanges target candidates) = denote [target] ∩ denote candidates := by
  have segmentsBounded : Bounded (intersectSegments target candidates) := by
    intro piece member
    obtain ⟨candidate, inside, -, -, rfl⟩ := mem_intersect_segments.mp member
    exact (min_le_left _ _).trans_lt (bounded candidate inside)
  rw [← intersect_segments_denote]
  exact canonicalize_spec segmentsBounded

end Bertha.BlockRanges
