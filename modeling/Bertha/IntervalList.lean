import Mathlib

/-!
# Lists of closed intervals as sets

A finite list of closed intervals over a linear order denotes the union of its
members. A list is canonical when every interval is inhabited and any two of
them leave a point uncovered between them, so neither overlap nor adjacency is
possible. The main result is that a set has at most one canonical list; it needs
no successor function and no finiteness of the order.
-/

namespace Bertha.IntervalList

set_option autoImplicit false

structure ClosedInterval (Point : Type*) where
  start : Point
  stop : Point
deriving DecidableEq, Repr

variable {Point : Type*} [LinearOrder Point]

def denote (intervals : List (ClosedInterval Point)) : Set Point :=
  {point | ∃ interval ∈ intervals, interval.start ≤ point ∧ point ≤ interval.stop}

/-- Some point lies strictly between the two intervals. -/
def Separated (left right : ClosedInterval Point) : Prop :=
  ∃ gap, left.stop < gap ∧ gap < right.start

structure Canonical (intervals : List (ClosedInterval Point)) : Prop where
  inhabited : ∀ interval ∈ intervals, interval.start ≤ interval.stop
  separated : intervals.Pairwise Separated

theorem mem_denote {intervals : List (ClosedInterval Point)} {point : Point} :
    point ∈ denote intervals ↔
      ∃ interval ∈ intervals, interval.start ≤ point ∧ point ≤ interval.stop :=
  Iff.rfl

@[simp] theorem denote_nil : denote ([] : List (ClosedInterval Point)) = ∅ := by
  ext point
  simp [mem_denote]

@[simp] theorem mem_denote_cons {head : ClosedInterval Point} {tail : List (ClosedInterval Point)}
    {point : Point} :
    point ∈ denote (head :: tail) ↔
      (head.start ≤ point ∧ point ≤ head.stop) ∨ point ∈ denote tail := by
  simp [mem_denote]

theorem denote_append (left right : List (ClosedInterval Point)) :
    denote (left ++ right) = denote left ∪ denote right := by
  ext point
  simp [mem_denote, or_and_right, exists_or]

theorem denote_point (point : Point) : denote [⟨point, point⟩] = {point} := by
  ext other
  simp [mem_denote, le_antisymm_iff, and_comm]

theorem denote_perm {left right : List (ClosedInterval Point)} (same : left.Perm right) :
    denote left = denote right := by
  ext point
  simp [mem_denote, same.mem_iff]

theorem canonical_nil : Canonical ([] : List (ClosedInterval Point)) :=
  ⟨by simp, List.Pairwise.nil⟩

theorem canonical_cons {head : ClosedInterval Point} {tail : List (ClosedInterval Point)} :
    Canonical (head :: tail) ↔
      head.start ≤ head.stop ∧ (∀ later ∈ tail, Separated head later) ∧ Canonical tail := by
  constructor
  · intro canonical
    have parts := List.pairwise_cons.mp canonical.separated
    exact ⟨canonical.inhabited head (by simp), parts.1,
      ⟨fun interval member => canonical.inhabited interval (by simp [member]), parts.2⟩⟩
  · rintro ⟨headInhabited, headSeparated, tailCanonical⟩
    refine ⟨?_, List.pairwise_cons.mpr ⟨headSeparated, tailCanonical.separated⟩⟩
    intro interval member
    rcases List.mem_cons.mp member with rfl | member
    · exact headInhabited
    · exact tailCanonical.inhabited interval member

theorem canonical_tail_above {head : ClosedInterval Point} {tail : List (ClosedInterval Point)}
    (canonical : Canonical (head :: tail)) {point : Point} (member : point ∈ denote tail) :
    head.stop < point := by
  obtain ⟨later, laterMember, lower, -⟩ := member
  obtain ⟨gap, below, above⟩ := (canonical_cons.mp canonical).2.1 later laterMember
  exact below.trans (above.trans_le lower)

theorem canonical_mem_tail_iff {head : ClosedInterval Point} {tail : List (ClosedInterval Point)}
    (canonical : Canonical (head :: tail)) (point : Point) :
    point ∈ denote tail ↔ point ∈ denote (head :: tail) ∧ head.stop < point := by
  constructor
  · intro member
    exact ⟨mem_denote_cons.mpr (Or.inr member), canonical_tail_above canonical member⟩
  · rintro ⟨member, above⟩
    rcases mem_denote_cons.mp member with inHead | inTail
    · exact absurd inHead.2 (not_le.mpr above)
    · exact inTail

theorem canonical_head_least {head : ClosedInterval Point} {tail : List (ClosedInterval Point)}
    (canonical : Canonical (head :: tail)) {point : Point}
    (member : point ∈ denote (head :: tail)) : head.start ≤ point := by
  rcases mem_denote_cons.mp member with inHead | inTail
  · exact inHead.1
  · exact (canonical_cons.mp canonical).1.trans (canonical_tail_above canonical inTail).le

theorem canonical_head_start_mem {head : ClosedInterval Point}
    {tail : List (ClosedInterval Point)} (canonical : Canonical (head :: tail)) :
    head.start ∈ denote (head :: tail) :=
  mem_denote_cons.mpr (Or.inl ⟨le_rfl, (canonical_cons.mp canonical).1⟩)

theorem canonical_last_greatest {intervals : List (ClosedInterval Point)}
    {last : ClosedInterval Point} (canonical : Canonical intervals)
    (isLast : intervals.getLast? = some last) : IsGreatest (denote intervals) last.stop := by
  have member : last ∈ intervals := List.mem_of_getLast? isLast
  refine ⟨⟨last, member, canonical.inhabited last member, le_rfl⟩, ?_⟩
  rintro point ⟨interval, intervalMember, -, upper⟩
  obtain ⟨front, rfl⟩ := List.getLast?_eq_some_iff.mp isLast
  rcases List.mem_append.mp intervalMember with earlier | final
  · obtain ⟨gap, below, above⟩ :=
      (List.pairwise_append.mp canonical.separated).2.2 interval earlier last (by simp)
    exact (upper.trans_lt (below.trans above)).le.trans (canonical.inhabited last member)
  · rw [List.mem_singleton.mp final] at upper
    exact upper

/-- Directly above the head of a canonical list some point is uncovered, however
close above the head the search is confined. -/
theorem canonical_gap_above_head {head : ClosedInterval Point} {tail : List (ClosedInterval Point)}
    (canonical : Canonical (head :: tail)) {limit : Point} (above : head.stop < limit) :
    ∃ point, head.stop < point ∧ point ≤ limit ∧ point ∉ denote (head :: tail) := by
  cases tail with
  | nil =>
      refine ⟨limit, above, le_rfl, ?_⟩
      intro member
      rcases mem_denote_cons.mp member with inHead | inTail
      · exact absurd inHead.2 (not_le.mpr above)
      · simp at inTail
  | cons next rest =>
      obtain ⟨gap, gapAbove, gapBelow⟩ := (canonical_cons.mp canonical).2.1 next (by simp)
      have tailCanonical := (canonical_cons.mp canonical).2.2
      refine ⟨min gap limit, lt_min gapAbove above, min_le_right _ _, ?_⟩
      intro member
      rcases mem_denote_cons.mp member with inHead | inTail
      · exact absurd inHead.2 (not_le.mpr (lt_min gapAbove above))
      · have lower := canonical_head_least tailCanonical inTail
        exact absurd (lower.trans (min_le_left _ _)) (not_le.mpr gapBelow)

/-- A stretch of points lies in the denoted set only if one interval holds all of it. -/
theorem canonical_covers_iff {intervals : List (ClosedInterval Point)}
    (canonical : Canonical intervals) {first last : Point} (ordered : first ≤ last) :
    (∀ point, first ≤ point → point ≤ last → point ∈ denote intervals) ↔
      ∃ interval ∈ intervals, interval.start ≤ first ∧ last ≤ interval.stop := by
  constructor
  · intro covered
    induction intervals with
    | nil => simpa using covered first le_rfl ordered
    | cons head tail ih =>
        by_cases below : head.stop < first
        · -- nothing of the stretch is left for the head
          have tailCovered : ∀ point, first ≤ point → point ≤ last → point ∈ denote tail :=
            fun point lower upper => (canonical_mem_tail_iff canonical point).mpr
              ⟨covered point lower upper, below.trans_le lower⟩
          obtain ⟨interval, member, within⟩ := ih (canonical_cons.mp canonical).2.2 tailCovered
          exact ⟨interval, List.mem_cons_of_mem head member, within⟩
        · have starts := canonical_head_least canonical (covered first le_rfl ordered)
          refine ⟨head, by simp, starts, not_lt.mp fun above => ?_⟩
          obtain ⟨point, beyond, within, uncovered⟩ := canonical_gap_above_head canonical above
          exact uncovered (covered point ((not_lt.mp below).trans beyond.le) within)
  · rintro ⟨interval, member, starts, stops⟩ point lower upper
    exact ⟨interval, member, starts.trans lower, upper.trans stops⟩

private theorem head_stop_not_lt {head other : ClosedInterval Point}
    {tail rest : List (ClosedInterval Point)}
    (left : Canonical (head :: tail))
    (same : denote (head :: tail) = denote (other :: rest))
    (starts : head.start = other.start) : ¬head.stop < other.stop := by
  intro shorter
  obtain ⟨point, above, within, uncovered⟩ := canonical_gap_above_head left shorter
  apply uncovered
  rw [same]
  have lower : other.start ≤ point := by
    rw [← starts]
    exact (canonical_cons.mp left).1.trans above.le
  exact mem_denote_cons.mpr (Or.inl ⟨lower, within⟩)

/-- A set of points has at most one canonical interval list. -/
theorem canonical_unique {left right : List (ClosedInterval Point)}
    (leftCanonical : Canonical left) (rightCanonical : Canonical right)
    (same : denote left = denote right) : left = right := by
  induction left generalizing right with
  | nil =>
      cases right with
      | nil => rfl
      | cons other rest =>
          have member := canonical_head_start_mem rightCanonical
          rw [← same] at member
          simp at member
  | cons head tail ih =>
      cases right with
      | nil =>
          have member := canonical_head_start_mem leftCanonical
          rw [same] at member
          simp at member
      | cons other rest =>
          have starts : head.start = other.start := by
            apply le_antisymm
            · exact canonical_head_least leftCanonical
                (same ▸ canonical_head_start_mem rightCanonical)
            · exact canonical_head_least rightCanonical
                (same ▸ canonical_head_start_mem leftCanonical)
          have stops : head.stop = other.stop := by
            apply le_antisymm
            · exact not_lt.mp
                (head_stop_not_lt rightCanonical same.symm starts.symm)
            · exact not_lt.mp (head_stop_not_lt leftCanonical same starts)
          have tails : denote tail = denote rest := by
            ext point
            rw [canonical_mem_tail_iff leftCanonical, canonical_mem_tail_iff rightCanonical,
              same, stops]
          have restEq := ih (canonical_cons.mp leftCanonical).2.2
            (canonical_cons.mp rightCanonical).2.2 tails
          cases head
          cases other
          simp_all

end Bertha.IntervalList
