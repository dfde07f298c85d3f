import Mathlib

/-!
# Items by height

A list of items that each take effect at a height. It is kept in order by sorting after an
item is added, and the item in effect at a height is the last one at or before it. Adding
an item changes nothing below its height.
-/

namespace Bertha.Timeline

set_option autoImplicit false

variable {Item Height : Type*} [LinearOrder Height] (height : Item → Height)

def Ordered (items : List Item) : Prop :=
  items.Pairwise fun earlier later => height earlier ≤ height later

def Increasing (items : List Item) : Prop :=
  items.Pairwise fun earlier later => height earlier < height later

def sortBy (items : List Item) : List Item :=
  items.insertionSort fun left right => height left ≤ height right

def lastAtOrBefore (limit : Height) (items : List Item) : Option Item :=
  items.foldl (fun last item => if height item ≤ limit then some item else last) none

theorem sort_by_perm (items : List Item) : (sortBy height items).Perm items :=
  List.perm_insertionSort _ _

instance total_heights : Std.Total fun left right : Item => height left ≤ height right :=
  ⟨fun left right => le_total (height left) (height right)⟩

instance transitive_heights : IsTrans Item fun left right => height left ≤ height right :=
  ⟨fun _ _ _ => le_trans⟩

theorem sort_by_ordered (items : List Item) : Ordered height (sortBy height items) :=
  List.pairwise_insertionSort _ items

variable {height}

theorem sort_by_of_ordered {items : List Item} (ordered : Ordered height items) :
    sortBy height items = items :=
  List.Pairwise.insertionSort_eq ordered

/-- Sorting is stable: what was in order stays in its order around an added item. -/
theorem sublist_sort_append {items : List Item} (ordered : Ordered height items) (added : Item) :
    items.Sublist (sortBy height (items ++ [added])) := by
  apply List.sublist_insertionSort
  · exact ordered
  · exact List.sublist_append_left items [added]

theorem mem_sort_append {items : List Item} {added item : Item} :
    item ∈ sortBy height (items ++ [added]) ↔ item ∈ items ∨ item = added := by
  rw [(sort_by_perm height _).mem_iff, List.mem_append, List.mem_singleton]

/-- An added item cannot be seen through a filter that it does not pass. -/
theorem filter_sort_append {items : List Item} (ordered : Ordered height items) {added : Item}
    {keep : Item → Bool} (hidden : keep added = false) :
    (sortBy height (items ++ [added])).filter keep = items.filter keep := by
  have inside := (sublist_sort_append ordered added).filter keep
  have sameLength : (items.filter keep).length =
      ((sortBy height (items ++ [added])).filter keep).length := by
    have permuted := (sort_by_perm height (items ++ [added])).filter keep
    rw [permuted.length_eq, List.filter_append]
    simp [hidden]
  exact (inside.eq_of_length sameLength).symm

theorem sort_by_increasing {items : List Item}
    (distinct : items.Pairwise fun left right => height left ≠ height right) :
    Increasing height (sortBy height items) := by
  have sortedDistinct := distinct.perm (sort_by_perm height items).symm
    fun different => different.symm
  apply ((sort_by_ordered height items).and sortedDistinct).imp
  intro earlier later facts
  exact lt_of_le_of_ne facts.1 facts.2

theorem sort_append_increasing {items : List Item} (increasing : Increasing height items)
    {added : Item} (fresh : ∀ item ∈ items, height item ≠ height added) :
    Increasing height (sortBy height (items ++ [added])) := by
  apply sort_by_increasing
  rw [List.pairwise_append]
  refine ⟨increasing.imp ne_of_lt, List.pairwise_singleton _ _, ?_⟩
  intro item member other otherMember
  rw [List.mem_singleton.mp otherMember]
  exact fresh item member

theorem sort_append_head {first added : Item} {rest : List Item}
    (ordered : Ordered height (first :: rest)) (above : height first < height added) :
    ∃ others, sortBy height (first :: rest ++ [added]) = first :: others := by
  have member : first ∈ sortBy height (first :: rest ++ [added]) :=
    mem_sort_append.mpr (Or.inl List.mem_cons_self)
  have sorted := sort_by_ordered height (first :: rest ++ [added])
  have kept : (sortBy height (first :: rest ++ [added])).filter
        (fun item => decide (height item ≤ height first)) =
      (first :: rest).filter (fun item => decide (height item ≤ height first)) :=
    filter_sort_append ordered (by simpa using above)
  cases sortedEq : sortBy height (first :: rest ++ [added]) with
  | nil =>
      rw [sortedEq] at member
      simp at member
  | cons head others =>
      rw [sortedEq] at member sorted kept
      have least : height head ≤ height first := by
        rcases List.mem_cons.mp member with isHead | later
        · rw [isHead]
        · exact (List.pairwise_cons.mp sorted).1 first later
      simp only [List.filter_cons, least, le_refl, decide_true, if_true, List.cons.injEq] at kept
      exact ⟨others, by rw [kept.1]⟩

theorem last_at_or_before_from (limit : Height) (items : List Item) (start : Option Item) :
    items.foldl (fun last item => if height item ≤ limit then some item else last) start =
      (lastAtOrBefore height limit items).or start := by
  induction items generalizing start with
  | nil => rfl
  | cons item rest ih =>
      rw [lastAtOrBefore, List.foldl_cons, List.foldl_cons, ih, ih]
      by_cases reached : height item ≤ limit
      · simp [reached]
      · simp [reached]

theorem last_at_or_before_cons (limit : Height) (item : Item) (rest : List Item) :
    lastAtOrBefore height limit (item :: rest) =
      (lastAtOrBefore height limit rest).or (if height item ≤ limit then some item else none) := by
  rw [lastAtOrBefore, List.foldl_cons]
  apply last_at_or_before_from

/-- The item in effect is decided by the items at or before the height. -/
theorem last_at_or_before_eq (limit : Height) (items : List Item) :
    lastAtOrBefore height limit items =
      (items.filter fun item => decide (height item ≤ limit)).getLast? := by
  induction items with
  | nil => rfl
  | cons item rest ih =>
      rw [last_at_or_before_cons, ih, List.filter_cons]
      by_cases reached : height item ≤ limit
      · simp [reached, List.getLast?_cons, Option.or_some]
      · simp [reached]

theorem last_greatest {items : List Item} {last item : Item} (ordered : Ordered height items)
    (isLast : items.getLast? = some last) (member : item ∈ items) : height item ≤ height last := by
  obtain ⟨front, split⟩ := List.getLast?_eq_some_iff.mp isLast
  rw [split] at ordered member
  rcases List.mem_append.mp member with inFront | isItem
  · exact (List.pairwise_append.mp ordered).2.2 item inFront last List.mem_cons_self
  · rw [List.mem_singleton.mp isItem]

/-- In an ordered list the item in effect is the greatest one at or before the height. -/
theorem last_at_or_before_greatest {limit : Height} {items : List Item} {item : Item}
    (ordered : Ordered height items) (found : lastAtOrBefore height limit items = some item) :
    item ∈ items ∧ height item ≤ limit ∧
      ∀ other ∈ items, height other ≤ limit → height other ≤ height item := by
  rw [last_at_or_before_eq] at found
  have member := List.mem_filter.mp (List.mem_of_getLast? found)
  refine ⟨member.1, by simpa using member.2, ?_⟩
  intro other otherMember reached
  have kept : other ∈ items.filter fun item => decide (height item ≤ limit) :=
    List.mem_filter.mpr ⟨otherMember, decide_eq_true reached⟩
  exact last_greatest (ordered.filter _) found kept

theorem last_at_or_before_some {limit : Height} {items : List Item} {item : Item}
    (member : item ∈ items) (reached : height item ≤ limit) :
    ∃ last, lastAtOrBefore height limit items = some last := by
  rw [last_at_or_before_eq]
  apply Option.ne_none_iff_exists'.mp
  rw [ne_eq, List.getLast?_eq_none_iff]
  exact List.ne_nil_of_mem (List.mem_filter.mpr ⟨member, by simpa using reached⟩)

theorem Increasing.unique {items : List Item} (increasing : Increasing height items)
    {left right : Item} (leftMember : left ∈ items) (rightMember : right ∈ items)
    (same : height left = height right) : left = right := by
  by_contra different
  have apart : items.Pairwise fun left right => height left ≠ height right :=
    increasing.imp ne_of_lt
  have symmetric : Std.Symm fun left right : Item => height left ≠ height right :=
    ⟨fun _ _ facts => facts.symm⟩
  exact apart.forall leftMember rightMember different same

end Bertha.Timeline
