import Bertha.BlockRanges

/-!
# Range lists as sets

What the operations of `ranges.rs` mean on the sets that their lists denote. On ranges
that are not empty and end below `u64::MAX` they are the set operations, and since every
result is canonical it depends on nothing but those sets. Empty ranges are legal values
of the type: they do no harm to the denoted sets, but subtracting one can leave ranges
that overlap.
-/

namespace Bertha.RangeSets

open Bertha.IntervalList Bertha.BlockRanges

set_option autoImplicit false

structure Proper (ranges : List BlockRange) : Prop where
  inhabited : ∀ range ∈ ranges, range.start ≤ range.stop
  bounded : Bounded ranges

/-- The list is the one canonical way to write the numbers. -/
structure Denotes (ranges : List BlockRange) (numbers : Set UInt64) : Prop where
  canonical : Canonical ranges
  denotes : denote ranges = numbers

theorem denotes_unique {left right : List BlockRange} {numbers : Set UInt64}
    (leftDenotes : Denotes left numbers) (rightDenotes : Denotes right numbers) :
    left = right :=
  canonical_unique leftDenotes.canonical rightDenotes.canonical
    (leftDenotes.denotes.trans rightDenotes.denotes.symm)

/-- The postconditions in the documentation of `ranges.rs`: non-empty, non-overlapping
and sorted. -/
structure Documented (ranges : List BlockRange) : Prop where
  inhabited : ∀ range ∈ ranges, range.start ≤ range.stop
  disjoint : ranges.Pairwise fun left right => left.stop < right.start

theorem documented_of_canonical {ranges : List BlockRange} (canonical : Canonical ranges) :
    Documented ranges :=
  ⟨canonical.inhabited, canonical.separated.imp fun ⟨_, below, above⟩ => below.trans above⟩

theorem documented_singleton_iff (range : BlockRange) :
    Documented [range] ↔ range.start ≤ range.stop := by
  constructor
  · intro documented
    exact documented.inhabited range (by simp)
  · intro inhabited
    exact documented_of_canonical (canonical_cons.mpr ⟨inhabited, by simp, canonical_nil⟩)

theorem canonicalize_denotes {ranges : List BlockRange} (bounded : Bounded ranges) :
    Denotes (canonicalize ranges) (denote ranges) :=
  ⟨(canonicalize_spec bounded).1, (canonicalize_spec bounded).2⟩

theorem add_range_denotes {ranges : List BlockRange} {new : BlockRange}
    (bounded : Bounded ranges) (newBound : new.stop < maxBlockNumber) :
    Denotes (addRange ranges new) (denote ranges ∪ denote [new]) :=
  ⟨(add_range_spec new bounded newBound).1, (add_range_spec new bounded newBound).2⟩

theorem subtract_range_denotes {ranges : List BlockRange} {del : BlockRange}
    (bounded : Bounded ranges) (delInhabited : del.start ≤ del.stop) :
    Denotes (subtractRange ranges del) (denote ranges \ denote [del]) := by
  obtain ⟨canonical, same⟩ := canonicalize_spec bounded
  obtain ⟨piecesCanonical, pieces⟩ := subtract_pieces_spec delInhabited canonical
  exact ⟨piecesCanonical, by rw [← same]; exact pieces⟩

theorem subtract_ranges_denotes {minuend : BlockRange} {subtrahend : List BlockRange}
    (minuendInhabited : minuend.start ≤ minuend.stop)
    (inhabited : ∀ del ∈ subtrahend, del.start ≤ del.stop) :
    Denotes (subtractRanges minuend subtrahend) (denote [minuend] \ denote subtrahend) :=
  ⟨(subtract_ranges_spec minuend minuendInhabited inhabited).1,
    (subtract_ranges_spec minuend minuendInhabited inhabited).2⟩

theorem intersect_ranges_denotes (target : BlockRange) {candidates : List BlockRange}
    (bounded : Bounded candidates) :
    Denotes (intersectRanges target candidates) (denote [target] ∩ denote candidates) :=
  ⟨(intersect_ranges_spec target bounded).1, (intersect_ranges_spec target bounded).2⟩

/-- The two lists are interchangeable as the range list of every operation. -/
structure SameResults (left right : List BlockRange) : Prop where
  canonicalize : canonicalize left = canonicalize right
  addRange : ∀ new, Proper [new] → addRange left new = addRange right new
  subtractRange : ∀ del : BlockRange, del.start ≤ del.stop →
    subtractRange left del = subtractRange right del
  subtractRanges : ∀ minuend : BlockRange, minuend.start ≤ minuend.stop →
    subtractRanges minuend left = subtractRanges minuend right
  intersectRanges : ∀ target, intersectRanges target left = intersectRanges target right

theorem same_results_of_denote {left right : List BlockRange} (leftProper : Proper left)
    (rightProper : Proper right) (same : denote left = denote right) :
    SameResults left right where
  canonicalize := by
    apply denotes_unique (canonicalize_denotes leftProper.bounded)
    rw [same]
    exact canonicalize_denotes rightProper.bounded
  addRange new newProper := by
    have newBound := newProper.bounded new (by simp)
    apply denotes_unique (add_range_denotes leftProper.bounded newBound)
    rw [same]
    exact add_range_denotes rightProper.bounded newBound
  subtractRange del delInhabited := by
    apply denotes_unique (subtract_range_denotes leftProper.bounded delInhabited)
    rw [same]
    exact subtract_range_denotes rightProper.bounded delInhabited
  subtractRanges minuend minuendInhabited := by
    apply denotes_unique (subtract_ranges_denotes minuendInhabited leftProper.inhabited)
    rw [same]
    exact subtract_ranges_denotes minuendInhabited rightProper.inhabited
  intersectRanges target := by
    apply denotes_unique (intersect_ranges_denotes target leftProper.bounded)
    rw [same]
    exact intersect_ranges_denotes target rightProper.bounded

/-- The operations on range lists are the operations on the sets, and their results
depend on the sets alone. -/
theorem range_operations_mean_sets {ranges : List BlockRange} (proper : Proper ranges) :
    Denotes (canonicalize ranges) (denote ranges) ∧
      (∀ new, Proper [new] →
        Denotes (addRange ranges new) (denote ranges ∪ denote [new])) ∧
      (∀ del : BlockRange, del.start ≤ del.stop →
        Denotes (subtractRange ranges del) (denote ranges \ denote [del])) ∧
      (∀ minuend : BlockRange, minuend.start ≤ minuend.stop →
        Denotes (subtractRanges minuend ranges) (denote [minuend] \ denote ranges)) ∧
      (∀ target, Denotes (intersectRanges target ranges) (denote [target] ∩ denote ranges)) ∧
      ∀ other, Proper other → denote other = denote ranges → SameResults other ranges := by
  refine ⟨canonicalize_denotes proper.bounded, ?_, ?_, ?_, ?_, ?_⟩
  · intro new newProper
    exact add_range_denotes proper.bounded (newProper.bounded new (by simp))
  · intro del delInhabited
    exact subtract_range_denotes proper.bounded delInhabited
  · intro minuend minuendInhabited
    exact subtract_ranges_denotes minuendInhabited proper.inhabited
  · intro target
    exact intersect_ranges_denotes target proper.bounded
  · intro other otherProper same
    exact same_results_of_denote otherProper proper same

theorem range_operations_mean_sets_overlapping :
    Proper [⟨5, 9⟩, ⟨1, 3⟩, ⟨2, 4⟩] ∧
      Denotes (canonicalize [⟨5, 9⟩, ⟨1, 3⟩, ⟨2, 4⟩]) (denote [⟨5, 9⟩, ⟨1, 3⟩, ⟨2, 4⟩]) := by
  have proper : Proper [⟨5, 9⟩, ⟨1, 3⟩, ⟨2, 4⟩] := ⟨by decide, by unfold Bounded; decide⟩
  exact ⟨proper, (range_operations_mean_sets proper).1⟩

def rangeLength (range : BlockRange) : Nat := range.stop.toNat - range.start.toNat + 1

theorem range_ncard {range : BlockRange} (inhabited : range.start ≤ range.stop) :
    (denote [range]).ncard = rangeLength range := by
  have ordered := UInt64.le_iff_toNat_le.mp inhabited
  have injective : Function.Injective UInt64.toNat := fun _ _ => UInt64.toNat_inj.mp
  have image : UInt64.toNat '' denote [range] =
      ↑(Finset.Icc range.start.toNat range.stop.toNat) := by
    ext value
    simp only [Set.mem_image, mem_denote_cons, denote_nil, Set.mem_empty_iff_false, or_false,
      Finset.coe_Icc, Set.mem_Icc, UInt64.le_iff_toNat_le]
    constructor
    · rintro ⟨number, within, rfl⟩
      exact within
    · intro within
      have small : value < UInt64.size := within.2.trans_lt range.stop.toNat_lt_size
      exact ⟨UInt64.ofNat value, by rwa [UInt64.toNat_ofNat_of_lt' small],
        UInt64.toNat_ofNat_of_lt' small⟩
  rw [← Set.ncard_image_of_injective _ injective, image, Set.ncard_coe_finset, Nat.card_Icc,
    rangeLength]
  omega

theorem canonical_ncard {ranges : List BlockRange} (canonical : Canonical ranges) :
    (denote ranges).ncard = (ranges.map rangeLength).sum := by
  induction ranges with
  | nil => simp
  | cons range rest ih =>
      obtain ⟨inhabited, -, restCanonical⟩ := canonical_cons.mp canonical
      have together : denote (range :: rest) = denote [range] ∪ denote rest :=
        denote_append [range] rest
      have disjoint : Disjoint (denote [range]) (denote rest) := by
        refine Set.disjoint_left.mpr fun number inRange inRest => ?_
        have above := canonical_tail_above canonical inRest
        simp only [mem_denote_cons, denote_nil, Set.mem_empty_iff_false, or_false] at inRange
        exact inRange.2.not_gt above
      rw [together, Set.ncard_union_eq disjoint (Set.toFinite _) (Set.toFinite _),
        range_ncard inhabited, ih restCanonical, List.map_cons, List.sum_cons]

/-- Subtracting the empty range `del` from the numbers takes the arm of `subtract_range`
that splits a range in two, and the two parts overlap: both ends of `del` and everything
between them are present, and the ends are more than one apart. -/
def Splits (numbers : Set UInt64) (del : BlockRange) : Prop :=
  del.stop.toNat + 1 < del.start.toNat ∧
    ∀ number, del.stop ≤ number → number ≤ del.start → number ∈ numbers

theorem subtract_pieces_documented_iff {ranges : List BlockRange} (canonical : Canonical ranges)
    (del : BlockRange) :
    Documented (ranges.flatMap (subtractStep del)) ↔
      ∀ range ∈ ranges, Documented (subtractStep del range) := by
  constructor
  · intro documented range member
    constructor
    · intro piece pieceMember
      exact documented.inhabited piece (List.mem_flatMap.mpr ⟨range, member, pieceMember⟩)
    · exact (List.pairwise_flatMap.mp documented.disjoint).1 range member
  · intro each
    constructor
    · intro piece member
      obtain ⟨range, rangeMember, pieceMember⟩ := List.mem_flatMap.mp member
      exact (each range rangeMember).inhabited piece pieceMember
    · refine List.pairwise_flatMap.mpr ⟨fun range member => (each range member).disjoint, ?_⟩
      apply canonical.separated.imp_of_mem
      intro left right _ _ apart piece pieceMember later laterMember
      obtain ⟨gap, below, above⟩ := apart
      have leftWithin := subtract_step_within del left piece pieceMember
      have rightWithin := subtract_step_within del right later laterMember
      exact (leftWithin.2.trans_lt (below.trans above)).trans_le rightWithin.1

section EmptyDeletion

variable {del : BlockRange} (delEmpty : del.stop < del.start)
include delEmpty

theorem subtract_step_empty (range : BlockRange) :
    subtractStep del range =
      if range.start ≤ del.stop ∧ del.start ≤ range.stop then
        [⟨range.start, del.start - 1⟩, ⟨del.stop + 1, range.stop⟩]
      else [range] := by
  rw [subtract_step_eq]
  split_ifs <;> grind

theorem subtract_step_empty_denote (range : BlockRange) :
    denote (subtractStep del range) = denote [range] := by
  rw [subtract_step_empty delEmpty]
  split_ifs with within
  · ext number
    simp only [mem_denote_cons, denote_nil, Set.mem_empty_iff_false, or_false]
    grind
  · rfl

theorem subtract_step_empty_documented_iff {range : BlockRange}
    (inhabited : range.start ≤ range.stop) :
    Documented (subtractStep del range) ↔
      ¬(del.stop.toNat + 1 < del.start.toNat ∧
        range.start ≤ del.stop ∧ del.start ≤ range.stop) := by
  rw [subtract_step_empty delEmpty, ← separated_iff]
  split_ifs with within
  · simp only [within, and_self, and_true]
    constructor
    · rintro documented ⟨gap, below, above⟩
      have disjoint := List.rel_of_pairwise_cons documented.disjoint (List.mem_singleton_self _)
      grind
    · intro touching
      have ordered : del.start - 1 < del.stop + 1 := by
        by_contra apart
        exact touching ⟨del.start - 1, by grind, by grind⟩
      refine ⟨?_, by simpa using ordered⟩
      intro piece member
      rcases List.mem_pair.mp member with rfl | rfl <;> grind
  · simp only [documented_singleton_iff, inhabited, within, and_false, not_false_iff]

theorem subtract_pieces_empty_denote (ranges : List BlockRange) :
    denote (ranges.flatMap (subtractStep del)) = denote ranges := by
  induction ranges with
  | nil => rfl
  | cons range rest ih =>
      rw [List.flatMap_cons, denote_append, ih, subtract_step_empty_denote delEmpty,
        ← denote_append]
      rfl

theorem subtract_range_empty_denote {ranges : List BlockRange} (bounded : Bounded ranges) :
    denote (subtractRange ranges del) = denote ranges := by
  unfold subtractRange
  rw [subtract_pieces_empty_denote delEmpty]
  exact (canonicalize_spec bounded).2

theorem subtract_range_empty_documented_iff {ranges : List BlockRange}
    (bounded : Bounded ranges) :
    Documented (subtractRange ranges del) ↔ ¬Splits (denote ranges) del := by
  obtain ⟨canonical, same⟩ := canonicalize_spec bounded
  have covered := canonical_covers_iff canonical delEmpty.le
  unfold subtractRange Splits
  rw [subtract_pieces_documented_iff canonical, ← same, covered]
  constructor
  · rintro each ⟨apart, range, member, within⟩
    exact (subtract_step_empty_documented_iff delEmpty (canonical.inhabited range member)).mp
      (each range member) ⟨apart, within⟩
  · intro whole range member
    rw [subtract_step_empty_documented_iff delEmpty (canonical.inhabited range member)]
    exact fun ⟨apart, within⟩ => whole ⟨apart, range, member, within⟩

theorem denote_empty_range : denote [del] = ∅ := by
  ext number
  simp only [mem_denote_cons, denote_nil, Set.mem_empty_iff_false, or_false, iff_false]
  exact fun within => (within.1.trans within.2).not_gt delEmpty

end EmptyDeletion

theorem subtract_range_denote {ranges : List BlockRange} (del : BlockRange)
    (bounded : Bounded ranges) :
    denote (subtractRange ranges del) = denote ranges \ denote [del] := by
  by_cases delInhabited : del.start ≤ del.stop
  · exact (subtract_range_denotes bounded delInhabited).denotes
  · have delEmpty := not_le.mp delInhabited
    rw [subtract_range_empty_denote delEmpty bounded, denote_empty_range delEmpty, Set.sdiff_empty]

theorem subtract_range_documented_iff {ranges : List BlockRange} (del : BlockRange)
    (bounded : Bounded ranges) :
    Documented (subtractRange ranges del) ↔ ¬Splits (denote ranges) del := by
  by_cases delInhabited : del.start ≤ del.stop
  · have documented := documented_of_canonical (subtract_range_denotes bounded delInhabited).canonical
    have ordered := UInt64.le_iff_toNat_le.mp delInhabited
    refine iff_of_true documented fun splits => ?_
    have apart := splits.1
    omega
  · exact subtract_range_empty_documented_iff (not_le.mp delInhabited) bounded

theorem subtract_range_bounded {ranges : List BlockRange} (del : BlockRange)
    (bounded : Bounded ranges) : Bounded (subtractRange ranges del) := by
  obtain ⟨canonical, same⟩ := canonicalize_spec bounded
  have orderedBounded : Bounded (canonicalize ranges) := by
    apply canonical_bounded_of_denote canonical
    rw [same]
    exact bounded_not_mem_denote bounded
  intro piece member
  obtain ⟨range, rangeMember, pieceMember⟩ := List.mem_flatMap.mp member
  exact (subtract_step_within del range piece pieceMember).2.trans_lt
    (orderedBounded range rangeMember)

theorem subtract_fold_denote {ranges : List BlockRange} (subtrahend : List BlockRange)
    (bounded : Bounded ranges) :
    Bounded (subtrahend.foldl subtractRange ranges) ∧
      denote (subtrahend.foldl subtractRange ranges) = denote ranges \ denote subtrahend := by
  induction subtrahend generalizing ranges with
  | nil => exact ⟨bounded, by simp⟩
  | cons del rest ih =>
      obtain ⟨restBounded, restDenote⟩ := ih (subtract_range_bounded del bounded)
      refine ⟨restBounded, ?_⟩
      have together : denote (del :: rest) = denote [del] ∪ denote rest := denote_append [del] rest
      rw [List.foldl_cons, restDenote, subtract_range_denote del bounded, together,
        Set.sdiff_sdiff]

/-- Only the last subtracted range decides about the postconditions: every earlier result
is canonicalized again. -/
theorem subtract_ranges_documented_iff {minuend : BlockRange} (subtrahend : List BlockRange)
    (bounded : Bounded [minuend]) :
    Documented (subtractRanges minuend subtrahend) ↔
      (subtrahend = [] → minuend.start ≤ minuend.stop) ∧
      ∀ earlier del, subtrahend = earlier ++ [del] →
        ¬Splits (denote [minuend] \ denote earlier) del := by
  unfold subtractRanges
  induction subtrahend using List.reverseRecOn with
  | nil => simp [documented_singleton_iff]
  | append_singleton earlier del _ =>
      obtain ⟨foldBounded, foldDenote⟩ := subtract_fold_denote earlier bounded
      rw [List.foldl_append, List.foldl_cons, List.foldl_nil,
        subtract_range_documented_iff del foldBounded, foldDenote]
      constructor
      · intro whole
        refine ⟨by simp, fun front final same => ?_⟩
        obtain ⟨rfl, last⟩ := List.append_inj' same rfl
        rwa [← List.singleton_inj.mp last]
      · intro whole
        exact whole.2 earlier del rfl

/-- Empty ranges never change what is denoted. The postconditions hold unless an empty
range splits the numbers it is subtracted from, or nothing is subtracted from an empty
minuend. -/
theorem empty_ranges_harmless_iff {ranges : List BlockRange} (bounded : Bounded ranges) :
    (∀ del : BlockRange, del.stop < del.start →
      denote (subtractRange ranges del) = denote ranges ∧
      (Documented (subtractRange ranges del) ↔ ¬Splits (denote ranges) del)) ∧
    (∀ minuend : BlockRange, minuend.stop < maxBlockNumber →
      denote (subtractRanges minuend ranges) = denote [minuend] \ denote ranges ∧
      (Documented (subtractRanges minuend ranges) ↔
        (ranges = [] → minuend.start ≤ minuend.stop) ∧
        ∀ earlier del, ranges = earlier ++ [del] →
          ¬Splits (denote [minuend] \ denote earlier) del)) ∧
    ∀ target : BlockRange,
      denote (intersectRanges target ranges) = denote [target] ∩ denote ranges ∧
      Documented (intersectRanges target ranges) := by
  refine ⟨fun del delEmpty => ?_, fun minuend minuendBound => ?_, fun target => ?_⟩
  · exact ⟨subtract_range_empty_denote delEmpty bounded,
      subtract_range_empty_documented_iff delEmpty bounded⟩
  · have minuendBounded : Bounded [minuend] := by
      intro range member
      rwa [List.mem_singleton.mp member]
    exact ⟨(subtract_fold_denote ranges minuendBounded).2,
      subtract_ranges_documented_iff ranges minuendBounded⟩
  · have intersection := intersect_ranges_denotes target bounded
    exact ⟨intersection.denotes, documented_of_canonical intersection.canonical⟩

theorem empty_ranges_harmless_iff_inside :
    Bounded [⟨0, 10⟩] ∧
      denote (subtractRange [⟨0, 10⟩] ⟨6, 3⟩) = denote [⟨0, 10⟩] := by
  have bounded : Bounded [⟨0, 10⟩] := by unfold Bounded; decide
  exact ⟨bounded, ((empty_ranges_harmless_iff bounded).1 ⟨6, 3⟩ (by decide)).1⟩

/-- Subtracting the empty range `6..=3` from `0..=10` leaves `0..=5` and `4..=10`. -/
theorem empty_range_splits_into_overlap :
    Bounded [⟨0, 10⟩] ∧ subtractRange [⟨0, 10⟩] ⟨6, 3⟩ = [⟨0, 5⟩, ⟨4, 10⟩] ∧
      ¬Documented (subtractRange [⟨0, 10⟩] ⟨6, 3⟩) := by
  have pieces : subtractRange [⟨0, 10⟩] ⟨6, 3⟩ = [⟨0, 5⟩, ⟨4, 10⟩] := by decide
  refine ⟨by unfold Bounded; decide, pieces, fun documented => ?_⟩
  have disjoint := documented.disjoint
  rw [pieces] at disjoint
  revert disjoint
  decide

end Bertha.RangeSets
