import Mathlib

/-!
# An atomic ordered key-value store

The storage engine as its users see it: a finite map with ordered keys, batches
that apply their operations in order and as a whole, a native range deletion that
excludes its end key, and enumeration from a key in either direction. Two stores
are equal as soon as they answer every lookup alike.
-/

namespace Bertha.OrderedStore

set_option autoImplicit false

abbrev Store (Key Value : Type*) [Ord Key] := Std.ExtTreeMap Key Value

inductive WriteOp (Key Value : Type*) where
  | put (key : Key) (value : Value)
  | delete (key : Key)
  | deleteRange (first stop : Key)
deriving DecidableEq, Repr

inductive IterationDirection where
  | forward
  | reverse
deriving DecidableEq, Repr

variable {Key Value : Type*} [Ord Key] [Std.TransOrd Key]

def applyOp (store : Store Key Value) : WriteOp Key Value → Store Key Value
  | .put key value => store.insert key value
  | .delete key => store.erase key
  | .deleteRange first stop =>
      store.filter fun key _ => !((compare first key).isLE && compare key stop == .lt)

def applyBatch (store : Store Key Value) (ops : List (WriteOp Key Value)) : Store Key Value :=
  ops.foldl applyOp store

def iterateFrom (store : Store Key Value) (start : Key) :
    IterationDirection → List (Key × Value)
  | .forward => store.toList.filter fun entry => (compare start entry.1).isLE
  | .reverse => (store.toList.filter fun entry => (compare entry.1 start).isLE).reverse

@[simp] theorem apply_batch_nil (store : Store Key Value) : applyBatch store [] = store := rfl

@[simp] theorem apply_batch_cons (store : Store Key Value) (op : WriteOp Key Value)
    (ops : List (WriteOp Key Value)) :
    applyBatch store (op :: ops) = applyBatch (applyOp store op) ops := rfl

theorem apply_batch_append (store : Store Key Value) (left right : List (WriteOp Key Value)) :
    applyBatch store (left ++ right) = applyBatch (applyBatch store left) right :=
  List.foldl_append

theorem iterate_forward_sorted (store : Store Key Value) (start : Key) :
    (iterateFrom store start .forward).Pairwise
      (fun earlier later => compare earlier.1 later.1 = .lt) :=
  Std.ExtTreeMap.ordered_keys_toList.sublist List.filter_sublist

theorem iterate_reverse_sorted (store : Store Key Value) (start : Key) :
    (iterateFrom store start .reverse).Pairwise
      (fun earlier later => compare later.1 earlier.1 = .lt) :=
  List.pairwise_reverse.mpr (Std.ExtTreeMap.ordered_keys_toList.sublist List.filter_sublist)

variable [Std.LawfulEqOrd Key]

theorem store_ext {left right : Store Key Value} (same : ∀ key : Key, left[key]? = right[key]?) :
    left = right :=
  Std.ExtTreeMap.ext_getElem? same

theorem get_put (store : Store Key Value) (key target : Key) (value : Value)
    [DecidableEq Key] :
    (applyOp store (.put key value))[target]? =
      if key = target then some value else store[target]? := by
  simp only [applyOp, Std.ExtTreeMap.getElem?_insert, Std.LawfulEqOrd.compare_eq_iff_eq]

theorem get_delete (store : Store Key Value) (key target : Key) [DecidableEq Key] :
    (applyOp store (.delete key))[target]? =
      if key = target then none else store[target]? := by
  simp only [applyOp, Std.ExtTreeMap.getElem?_erase, Std.LawfulEqOrd.compare_eq_iff_eq]

theorem get_delete_range (store : Store Key Value) (first stop target : Key) :
    (applyOp store (.deleteRange first stop))[target]? =
      if (compare first target).isLE ∧ compare target stop = .lt then none
      else store[target]? := by
  simp only [applyOp, Std.ExtTreeMap.getElem?_filter']
  cases found : store[target]? with
  | none => simp
  | some value =>
      cases low : (compare first target).isLE <;> cases high : compare target stop <;>
        simp_all

/-- A batch of puts as the list of its keys and values. -/
def putOps (entries : List (Key × Value)) : List (WriteOp Key Value) :=
  entries.map fun entry => .put entry.1 entry.2

theorem get_put_ops_of_not_mem [DecidableEq Key] {entries : List (Key × Value)} {target : Key}
    (absent : target ∉ entries.map Prod.fst) (store : Store Key Value) :
    (applyBatch store (putOps entries))[target]? = store[target]? := by
  induction entries generalizing store with
  | nil => rfl
  | cons entry entries ih =>
      simp only [List.map_cons, List.mem_cons, not_or] at absent
      change (applyBatch (applyOp store (.put entry.1 entry.2)) (putOps entries))[target]? = _
      rw [ih absent.2, get_put, if_neg (Ne.symm absent.1)]

theorem get_put_ops_of_mem [DecidableEq Key] {entries : List (Key × Value)}
    (distinct : (entries.map Prod.fst).Nodup) {target : Key} {value : Value}
    (member : (target, value) ∈ entries) (store : Store Key Value) :
    (applyBatch store (putOps entries))[target]? = some value := by
  induction entries generalizing store with
  | nil => simp at member
  | cons entry entries ih =>
      simp only [List.map_cons, List.nodup_cons] at distinct
      change (applyBatch (applyOp store (.put entry.1 entry.2)) (putOps entries))[target]? = _
      rcases List.mem_cons.mp member with rfl | later
      · rw [get_put_ops_of_not_mem distinct.1, get_put, if_pos rfl]
      · exact ih distinct.2 later _

theorem get_put_ops_last [DecidableEq Key] (entries : List (Key × Value)) (key : Key)
    (value : Value) (store : Store Key Value) :
    (applyBatch store (putOps (entries ++ [(key, value)])))[key]? = some value := by
  rw [putOps, List.map_append, apply_batch_append]
  change (applyOp (applyBatch store (putOps entries)) (.put key value))[key]? = some value
  rw [get_put, if_pos rfl]

/-- Entries that agree wherever their keys do are written in any order: each is read back, and
nothing else. -/
theorem get_put_ops_iff [DecidableEq Key] {entries : List (Key × Value)}
    (functional : ∀ first ∈ entries, ∀ second ∈ entries, first.1 = second.1 →
      first.2 = second.2) (key : Key) (value : Value) :
    (applyBatch ∅ (putOps entries))[key]? = some value ↔ (key, value) ∈ entries := by
  induction entries using List.reverseRecOn with
  | nil => simp [putOps]
  | append_singleton earlier last ih =>
      have earlierFunctional : ∀ first ∈ earlier, ∀ second ∈ earlier, first.1 = second.1 →
          first.2 = second.2 := fun first firstMember second secondMember =>
        functional first (List.mem_append_left _ firstMember) second
          (List.mem_append_left _ secondMember)
      by_cases isLast : last.1 = key
      · rw [← isLast, get_put_ops_last]
        constructor
        · intro same
          rw [← Option.some.inj same]
          exact List.mem_append_right _ List.mem_cons_self
        · intro member
          rw [functional last (List.mem_append_right _ List.mem_cons_self) _ member rfl]
      · rw [putOps, List.map_append, apply_batch_append]
        change (applyOp (applyBatch ∅ (putOps earlier)) (.put last.1 last.2))[key]? = _ ↔ _
        rw [get_put, if_neg isLast, ih earlierFunctional, List.mem_append, List.mem_singleton]
        refine (or_iff_left ?_).symm
        rintro rfl
        exact isLast rfl

theorem mem_iterate_forward {store : Store Key Value} {start key : Key} {value : Value} :
    (key, value) ∈ iterateFrom store start .forward ↔
      store[key]? = some value ∧ (compare start key).isLE := by
  simp [iterateFrom, Std.ExtTreeMap.mem_toList_iff_getElem?_eq_some]

theorem mem_iterate_reverse {store : Store Key Value} {start key : Key} {value : Value} :
    (key, value) ∈ iterateFrom store start .reverse ↔
      store[key]? = some value ∧ (compare key start).isLE := by
  simp [iterateFrom, Std.ExtTreeMap.mem_toList_iff_getElem?_eq_some]

end Bertha.OrderedStore
