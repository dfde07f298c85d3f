import Mathlib

/-!
# Counting in a list of sorted entries

A list of keys with values, sorted by key without repetitions, lists a finite set of keys.
What a single pass counts over the entries, or over the pairs of adjacent entries, is then
the size of a set of keys that does not mention the list.
-/

namespace Bertha.SortedEntries

set_option autoImplicit false

variable {Key Value : Type*} [LinearOrder Key]

def Sorted (entries : List (Key × Value)) : Prop :=
  entries.Pairwise fun earlier later => earlier.1 < later.1

theorem sorted_keys_nodup {entries : List (Key × Value)} (sorted : Sorted entries) :
    (entries.map Prod.fst).Nodup :=
  List.pairwise_map.mpr (sorted.imp ne_of_lt)

theorem count_eq_ncard {entries : List (Key × Value)} (sorted : Sorted entries)
    (counted : Key × Value → Bool) :
    entries.countP counted =
      {key | ∃ value, (key, value) ∈ entries ∧ counted (key, value)}.ncard := by
  have keys : {key | ∃ value, (key, value) ∈ entries ∧ counted (key, value)} =
      ↑((entries.filter counted).map Prod.fst).toFinset := by
    ext key
    simp
  have nodup : ((entries.filter counted).map Prod.fst).Nodup :=
    sorted_keys_nodup (List.Pairwise.sublist List.filter_sublist sorted)
  rw [keys, Set.ncard_coe_finset, List.toFinset_card_of_nodup nodup, List.length_map,
    List.countP_eq_length_filter]

def countAdjacent (counted : Key × Value → Key × Value → Bool) : List (Key × Value) → Nat
  | earlier :: later :: rest =>
      (if counted earlier later then 1 else 0) + countAdjacent counted (later :: rest)
  | _ => 0

/-- A property of successive keys is found at adjacent entries only. -/
theorem count_adjacent_eq {entries : List (Key × Value)} (sorted : Sorted entries)
    {counted : Key × Value → Key × Value → Bool}
    (successive : ∀ earlier ∈ entries, ∀ later ∈ entries,
      counted earlier later → earlier.1 ⋖ later.1) :
    countAdjacent counted entries =
      entries.countP fun earlier => entries.any fun later => counted earlier later := by
  induction entries with
  | nil => rfl
  | cons earlier entries ih =>
      obtain ⟨least, restSorted⟩ := List.pairwise_cons.mp sorted
      have restCount := ih restSorted fun left leftMember right rightMember =>
        successive left (List.mem_cons_of_mem _ leftMember) right
          (List.mem_cons_of_mem _ rightMember)
      -- nothing is counted towards the first entry
      have notFirst : ∀ other ∈ earlier :: entries, ¬counted other earlier := by
        intro other member isCounted
        have below := (successive other member earlier List.mem_cons_self isCounted).lt
        rcases List.mem_cons.mp member with rfl | member
        · exact below.false
        · exact (least other member).not_gt below
      have restSame : (entries.countP fun other =>
          (earlier :: entries).any fun later => counted other later) =
          entries.countP fun other => entries.any fun later => counted other later := by
        apply List.countP_congr
        intro other member
        simp [notFirst other (List.mem_cons_of_mem _ member)]
      rw [List.countP_cons, restSame, ← restCount]
      cases entries with
      | nil => simp [countAdjacent, notFirst earlier List.mem_cons_self]
      | cons next entries =>
          have onlyNext : ((earlier :: next :: entries).any fun later => counted earlier later) =
              counted earlier next := by
            have notLater : ∀ later ∈ entries, ¬counted earlier later := by
              intro later member isCounted
              have covers := successive earlier List.mem_cons_self later (by simp [member])
                isCounted
              exact covers.2 (least next List.mem_cons_self)
                ((List.pairwise_cons.mp restSorted).1 later member)
            have nothing : (entries.any fun later => counted earlier later) = false := by
              simpa using notLater
            simp [notFirst earlier List.mem_cons_self, nothing]
          rw [onlyNext, countAdjacent, Nat.add_comm]

end Bertha.SortedEntries
