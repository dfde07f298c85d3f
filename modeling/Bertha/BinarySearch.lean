import Mathlib

/-!
# Bisection by a comparator

The bisection of Rust's `slice::binary_search_by`: the loop never looks at an
`Equal` answer early, it only narrows the window, and the one element left
decides the outcome. A reported hit is always an element the comparator called
equal. On a list the comparator partitions, a miss is the insertion point.
-/

namespace Bertha.BinarySearch

set_option autoImplicit false

variable {Item : Type*}

/-- The window `[base, base + size)` after the halving loop. The fuel is the
initial window size, which bounds the number of rounds. -/
def narrow (compareTo : Item → Ordering) (items : List Item) : Nat → Nat → Nat → Nat
  | 0, base, _ => base
  | fuel + 1, base, size =>
      if size ≤ 1 then base
      else
        let half := size / 2
        let mid := base + half
        let next := match items[mid]?.map compareTo with
          | some .gt => base
          | _ => mid
        narrow compareTo items fuel next (size - half)

def binarySearchBy (items : List Item) (compareTo : Item → Ordering) : Except Nat Nat :=
  match items with
  | [] => .error 0
  | _ =>
      let base := narrow compareTo items items.length 0 items.length
      match items[base]?.map compareTo with
      | some .eq => .ok base
      | some .lt => .error (base + 1)
      | _ => .error base

def binarySearch [Ord Item] (items : List Item) (target : Item) : Except Nat Nat :=
  binarySearchBy items fun item => compare item target

theorem binary_search_by_found {items : List Item} {compareTo : Item → Ordering} {index : Nat}
    (found : binarySearchBy items compareTo = .ok index) :
    ∃ item, items[index]? = some item ∧ compareTo item = .eq := by
  unfold binarySearchBy at found
  split at found
  · cases found
  · rename_i nonempty
    dsimp only at found
    cases read : items[narrow compareTo items items.length 0 items.length]? with
    | none => simp [read] at found
    | some item =>
        simp only [read, Option.map_some] at found
        cases outcome : compareTo item with
        | eq =>
            simp only [outcome, Except.ok.injEq] at found
            subst found
            exact ⟨item, read, outcome⟩
        | lt => simp [outcome] at found
        | gt => simp [outcome] at found

/-- The comparator answers `Less` before `low`, `Equal` from there to `high`, and
`Greater` behind, which is what the documentation asks of the caller. -/
structure Partitioned (compareTo : Item → Ordering) (items : List Item) (low high : Nat) :
    Prop where
  below : ∀ index item, items[index]? = some item → index < low → compareTo item = .lt
  equal : ∀ index item, items[index]? = some item → low ≤ index → index < high →
    compareTo item = .eq
  above : ∀ index item, items[index]? = some item → high ≤ index → compareTo item = .gt
  ordered : low ≤ high
  bounded : high ≤ items.length

section Partition

variable {compareTo : Item → Ordering} {items : List Item} {low high : Nat}
  (partitioned : Partitioned compareTo items low high)
include partitioned

private theorem greater_iff_behind {index : Nat} {item : Item}
    (read : items[index]? = some item) : compareTo item = .gt ↔ high ≤ index := by
  constructor
  · intro greater
    by_contra before
    rcases Nat.lt_or_ge index low with small | large
    · simp [partitioned.below index item read small] at greater
    · simp [partitioned.equal index item read large (by omega)] at greater
  · exact partitioned.above index item read

theorem narrow_window (fuel base size : Nat) (enough : size ≤ fuel + 1) (positive : 1 ≤ size)
    (inside : base + size ≤ items.length) (lower : base = 0 ∨ base < high)
    (upper : high ≤ base + size) :
    let result := narrow compareTo items fuel base size
    result < items.length ∧ (result = 0 ∨ result < high) ∧ high ≤ result + 1 := by
  induction fuel generalizing base size with
  | zero =>
      simp only [narrow]
      omega
  | succ fuel ih =>
      simp only [narrow]
      split_ifs with small
      · omega
      · have midInside : base + size / 2 < items.length := by omega
        have read : items[base + size / 2]? = some items[base + size / 2] :=
          List.getElem?_eq_getElem midInside
        have behind := greater_iff_behind partitioned read
        simp only [read, Option.map_some]
        cases outcome : compareTo items[base + size / 2] with
        | gt =>
            have after := behind.mp outcome
            exact ih base (size - size / 2) (by omega) (by omega) (by omega) lower (by omega)
        | lt | eq =>
            have before : base + size / 2 < high := by
              by_contra after
              simp [behind.mpr (by omega)] at outcome
            exact ih (base + size / 2) (size - size / 2) (by omega) (by omega) (by omega)
              (Or.inr before) (by omega)

/-- With an equal element the search hits; without one it reports the place where
an equal element would have to be inserted. -/
theorem binary_search_by_partitioned :
    (low < high → ∃ index, binarySearchBy items compareTo = .ok index) ∧
      (low = high → binarySearchBy items compareTo = .error low) := by
  have ordered := partitioned.ordered
  have bounded := partitioned.bounded
  unfold binarySearchBy
  split
  · simp only [List.length_nil, Nat.le_zero] at bounded
    constructor
    · omega
    · intro same
      rw [same, bounded]
  · rename_i nonempty
    have positive : 1 ≤ items.length := by
      cases items with
      | nil => exact absurd rfl nonempty
      | cons head tail => simp
    obtain ⟨inside, lower, upper⟩ := narrow_window partitioned items.length 0 items.length
      (by omega) positive (by omega) (Or.inl rfl) (by simpa using bounded)
    dsimp only
    generalize narrow compareTo items items.length 0 items.length = result at *
    have read : items[result]? = some items[result] := List.getElem?_eq_getElem inside
    simp only [read, Option.map_some]
    rcases Nat.lt_or_ge result high with before | after
    · rcases Nat.lt_or_ge result low with small | large
      · rw [partitioned.below _ _ read small]
        exact ⟨by omega, fun _ => congrArg Except.error (by omega)⟩
      · rw [partitioned.equal _ _ read large before]
        exact ⟨fun _ => ⟨result, rfl⟩, by omega⟩
    · rw [partitioned.above _ _ read after]
      exact ⟨by omega, fun _ => congrArg Except.error (by omega)⟩

end Partition

theorem take_while_index {keep : Item → Bool} {items : List Item}
    (closed : items.Pairwise fun earlier later => keep later = true → keep earlier = true)
    {index : Nat} {item : Item} (read : items[index]? = some item) :
    keep item = true ↔ index < (items.takeWhile keep).length := by
  induction items generalizing index with
  | nil => simp at read
  | cons head tail ih =>
      obtain ⟨headClosed, tailClosed⟩ := List.pairwise_cons.mp closed
      cases index with
      | zero =>
          simp only [List.getElem?_cons_zero, Option.some.injEq] at read
          subst read
          by_cases kept : keep head <;> simp [kept]
      | succ index =>
          simp only [List.getElem?_cons_succ] at read
          have tailIff := ih tailClosed read
          by_cases kept : keep head
          · simp [kept, tailIff]
          · have itemDropped : ¬keep item = true :=
              fun holds => kept (headClosed item (List.mem_of_getElem? read) holds)
            simp [kept, itemDropped]

theorem rising_partitioned {compareTo : Item → Ordering} {items : List Item}
    (rising : items.Pairwise fun earlier later =>
      (compareTo later = .lt → compareTo earlier = .lt) ∧
      (compareTo later ≠ .gt → compareTo earlier ≠ .gt)) :
    Partitioned compareTo items (items.takeWhile (compareTo · = .lt)).length
      (items.takeWhile (compareTo · ≠ .gt)).length := by
  have lessIff {index : Nat} {item : Item} (read : items[index]? = some item) :
      compareTo item = .lt ↔ index < (items.takeWhile (compareTo · = .lt)).length := by
    have closed : items.Pairwise fun earlier later =>
        decide (compareTo later = .lt) = true → decide (compareTo earlier = .lt) = true :=
      rising.imp fun step => by simpa using step.1
    simpa using take_while_index closed read
  have notGreaterIff {index : Nat} {item : Item} (read : items[index]? = some item) :
      compareTo item ≠ .gt ↔ index < (items.takeWhile (compareTo · ≠ .gt)).length := by
    have closed : items.Pairwise fun earlier later =>
        decide (compareTo later ≠ .gt) = true → decide (compareTo earlier ≠ .gt) = true :=
      rising.imp fun step => by simpa using step.2
    simpa using take_while_index closed read
  refine ⟨?_, ?_, ?_, ?_, (List.takeWhile_sublist _).length_le⟩
  · intro index item read before
    exact (lessIff read).mpr before
  · intro index item read after before
    have notLess := mt (lessIff read).mp (by omega)
    have notGreater := (notGreaterIff read).mpr before
    cases outcome : compareTo item with
    | lt => exact absurd outcome notLess
    | eq => rfl
    | gt => exact absurd outcome notGreater
  · intro index item read after
    exact not_not.mp (mt (notGreaterIff read).mp (by omega))
  · by_contra crossed
    have lowBounded : (items.takeWhile (compareTo · = .lt)).length ≤ items.length :=
      (List.takeWhile_sublist _).length_le
    have inside : (items.takeWhile (compareTo · ≠ .gt)).length < items.length := by omega
    have read := List.getElem?_eq_getElem inside
    have less := (lessIff read).mpr (by omega)
    exact absurd ((notGreaterIff read).mp (less.trans_ne (by decide))) (by omega)

/-- What the documentation of `binary_search_by` promises about a hit. -/
structure Bisects (search : List Item → (Item → Ordering) → Except Nat Nat) : Prop where
  found : ∀ {items compareTo index}, search items compareTo = .ok index →
    ∃ item, items[index]? = some item ∧ compareTo item = .eq
  hit : ∀ {items compareTo low high}, Partitioned compareTo items low high → low < high →
    ∃ index, search items compareTo = .ok index

theorem binary_search_by_bisects : Bisects (@binarySearchBy Item) where
  found := binary_search_by_found
  hit partitioned := (binary_search_by_partitioned partitioned).1

theorem bisects_iff {search : List Item → (Item → Ordering) → Except Nat Nat}
    (bisects : Bisects search) {compareTo : Item → Ordering} {items : List Item} {low high : Nat}
    (partitioned : Partitioned compareTo items low high) :
    (∃ index, search items compareTo = .ok index) ↔ ∃ item ∈ items, compareTo item = .eq := by
  constructor
  · rintro ⟨index, found⟩
    obtain ⟨item, read, equal⟩ := bisects.found found
    exact ⟨item, List.mem_of_getElem? read, equal⟩
  · rintro ⟨item, member, equal⟩
    obtain ⟨index, read⟩ := List.mem_iff_getElem?.mp member
    have notBelow : ¬index < low := fun before => by
      simp [partitioned.below index item read before] at equal
    have notAbove : ¬high ≤ index := fun after => by
      simp [partitioned.above index item read after] at equal
    exact bisects.hit partitioned (by omega)

section SortedInsertion

variable [LinearOrder Item]

theorem sorted_partitioned {items : List Item} (sorted : items.Pairwise (· < ·))
    (target : Item) :
    Partitioned (fun item => compare item target) items
      (items.takeWhile (· < target)).length (items.takeWhile (· ≤ target)).length := by
  have rising : items.Pairwise fun earlier later =>
      (compare later target = .lt → compare earlier target = .lt) ∧
      (compare later target ≠ .gt → compare earlier target ≠ .gt) := by
    apply sorted.imp
    intro earlier later less
    simp only [compare_lt_iff_lt, compare_le_iff_le]
    exact ⟨less.trans, less.le.trans⟩
  simpa only [compare_lt_iff_lt, compare_le_iff_le] using rising_partitioned rising

/-- `if let Err(idx) = list.binary_search(&x) { list.insert(idx, x) }`. -/
def insertSorted (items : List Item) (target : Item) : List Item :=
  match binarySearch items target with
  | .ok _ => items
  | .error index => items.insertIdx index target

omit [LinearOrder Item] in
private theorem insert_idx_split (items : List Item) (target : Item) {cut : Nat}
    (bounded : cut ≤ items.length) :
    items.insertIdx cut target = items.take cut ++ target :: items.drop cut := by
  induction items generalizing cut with
  | nil =>
      have empty : cut = 0 := by simpa using bounded
      subst empty
      rfl
  | cons head tail ih =>
      cases cut with
      | zero => rfl
      | succ cut => simp [ih (by simpa using bounded)]

private theorem insert_at_cut {items : List Item} {target : Item} {cut : Nat}
    (sorted : items.Pairwise (· < ·))
    (partitioned : Partitioned (fun item => compare item target) items cut cut) :
    (items.insertIdx cut target).Pairwise (· < ·) := by
  rw [insert_idx_split items target partitioned.bounded]
  have halves : (items.take cut ++ items.drop cut).Pairwise (· < ·) := by
    rwa [List.take_append_drop]
  obtain ⟨leftSorted, rightSorted, across⟩ := List.pairwise_append.mp halves
  have leftSmall : ∀ item ∈ items.take cut, item < target := by
    intro item member
    obtain ⟨index, read⟩ := List.mem_iff_getElem?.mp member
    rw [List.getElem?_take] at read
    split_ifs at read with before
    exact compare_lt_iff_lt.mp (partitioned.below index item read before)
  have rightLarge : ∀ item ∈ items.drop cut, target < item := by
    intro item member
    obtain ⟨index, read⟩ := List.mem_iff_getElem?.mp member
    rw [List.getElem?_drop] at read
    exact compare_gt_iff_gt.mp (partitioned.above (cut + index) item read (by omega))
  refine List.pairwise_append.mpr ⟨leftSorted,
    List.pairwise_cons.mpr ⟨rightLarge, rightSorted⟩, ?_⟩
  intro item member later laterMember
  rcases List.mem_cons.mp laterMember with rfl | laterMember
  · exact leftSmall item member
  · exact across item member later laterMember

/-- Search-and-insert keeps the list strictly increasing and adds one element. -/
theorem insert_sorted_spec {items : List Item} (sorted : items.Pairwise (· < ·))
    (target : Item) :
    (insertSorted items target).Pairwise (· < ·) ∧
      ∀ item, item ∈ insertSorted items target ↔ item = target ∨ item ∈ items := by
  have partitioned := sorted_partitioned sorted target
  obtain ⟨hit, miss⟩ := binary_search_by_partitioned partitioned
  unfold insertSorted binarySearch
  rcases partitioned.ordered.lt_or_eq with less | same
  · obtain ⟨index, found⟩ := hit less
    obtain ⟨item, read, equal⟩ := binary_search_by_found found
    have itemEq : item = target := compare_eq_iff_eq.mp equal
    have present : target ∈ items := itemEq ▸ List.mem_of_getElem? read
    rw [found]
    refine ⟨sorted, fun other => ⟨Or.inr, ?_⟩⟩
    rintro (rfl | member)
    · exact present
    · exact member
  · rw [miss same]
    rw [← same] at partitioned
    exact ⟨insert_at_cut sorted partitioned, fun item => List.mem_insertIdx partitioned.bounded⟩

theorem sorted_unique {left right : List Item} (leftSorted : left.Pairwise (· < ·))
    (rightSorted : right.Pairwise (· < ·)) (same : ∀ item, item ∈ left ↔ item ∈ right) :
    left = right := by
  have permuted : left.Perm right :=
    (List.perm_ext_iff_of_nodup (leftSorted.imp ne_of_lt) (rightSorted.imp ne_of_lt)).mpr same
  refine permuted.eq_of_pairwise ?_ leftSorted rightSorted
  intro first second _ _ forward backward
  exact absurd forward backward.asymm

end SortedInsertion

end Bertha.BinarySearch
