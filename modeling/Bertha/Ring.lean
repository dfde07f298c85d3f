import Mathlib

/-!
# Ring buffers

A fixed number of slots, with position `n` in slot `n` modulo their number. Writing the
positions one after the other keeps a window of the last of them exact.
-/

namespace Bertha.Ring

set_option autoImplicit false

variable {Value : Type*} {size : Nat} [NeZero size]

abbrev Slots (size : Nat) (Value : Type*) := Fin size → Value

def readSlot (slots : Slots size Value) (position : Nat) : Value :=
  slots (Fin.ofNat size position)

def writeSlot (slots : Slots size Value) (position : Nat) (value : Value) : Slots size Value :=
  Function.update slots (Fin.ofNat size position) value

/-- The slots hold the values of all positions from `low` to before `high`. -/
def Window (slots : Slots size Value) (values : Nat → Value) (low high : Nat) : Prop :=
  ∀ position, low ≤ position → position < high → readSlot slots position = values position

theorem read_slot_write (slots : Slots size Value) (position other : Nat) (value : Value) :
    readSlot (writeSlot slots position value) other =
      if position % size = other % size then value else readSlot slots other := by
  rw [readSlot, writeSlot, Function.update_apply]
  by_cases same : position % size = other % size
  · rw [if_pos same, if_pos]
    apply Fin.ext
    simpa using same.symm
  · rw [if_neg same, if_neg, readSlot]
    intro sameSlot
    exact same (congrArg Fin.val sameSlot).symm

omit [NeZero size] in
theorem distinct_slots {position other : Nat} (before : other < position)
    (near : position < other + size) : position % size ≠ other % size := by
  intro same
  have divides : size ∣ position - other := (Nat.modEq_iff_dvd' before.le).mp same.symm
  have bound := Nat.le_of_dvd (by omega) divides
  omega

theorem Window.next {slots : Slots size Value} {values : Nat → Value} {low high : Nat}
    (window : Window slots values low high) :
    Window (writeSlot slots high (values high)) values (max low (high + 1 - size)) (high + 1) := by
  intro position above below
  rw [read_slot_write]
  by_cases isHigh : position = high
  · rw [isHigh, if_pos rfl]
  · have distinct : high % size ≠ position % size := by
      apply distinct_slots
      · omega
      · omega
    rw [if_neg distinct]
    apply window
    · omega
    · omega

theorem Window.mono {slots : Slots size Value} {values : Nat → Value} {low high lower : Nat}
    (window : Window slots values low high) (inside : low ≤ lower) :
    Window slots values lower high :=
  fun position above below => window position (inside.trans above) below

/-! ## Filling a blank ring -/

/-- The positions before `high` have been written to a blank ring: the last round of them is
in its slots, and slots that none of them has reached are blank. -/
structure Filled (slots : Slots size Value) (values : Nat → Value) (blank : Value) (high : Nat) :
    Prop where
  window : Window slots values (high - size) high
  rest : ∀ position, high ≤ position → position < size → readSlot slots position = blank

variable {slots other : Slots size Value} {values : Nat → Value} {blank : Value} {high : Nat}

theorem Filled.unique (filled : Filled slots values blank high)
    (otherFilled : Filled other values blank high) : slots = other := by
  apply funext
  intro slot
  have slotRead : ∀ anySlots : Slots size Value, readSlot anySlots slot.val = anySlots slot := by
    intro anySlots
    rw [readSlot, Fin.ofNat_val_eq_self]
  by_cases blankSlot : high ≤ slot.val
  · rw [← slotRead slots, ← slotRead other, filled.rest slot.val blankSlot slot.isLt,
      otherFilled.rest slot.val blankSlot slot.isLt]
  · -- the last position of the slot that has been written
    let position := high - 1 - (high - 1 - slot.val) % size
    have positive : 0 < size := Nat.pos_of_ne_zero (NeZero.ne size)
    have remainder : (high - 1 - slot.val) % size < size := Nat.mod_lt _ positive
    have below : (high - 1 - slot.val) % size ≤ high - 1 - slot.val := Nat.mod_le _ _
    have sameSlot : position % size = slot.val % size := by
      have split : position = slot.val + size * ((high - 1 - slot.val) / size) := by
        have divided := Nat.mod_add_div (high - 1 - slot.val) size
        omega
      rw [split, Nat.add_mul_mod_self_left]
    have readPosition : ∀ anySlots : Slots size Value,
        readSlot anySlots position = anySlots slot := by
      intro anySlots
      rw [← slotRead anySlots, readSlot, readSlot]
      congr 1
      exact Fin.ext sameSlot
    rw [← readPosition slots, ← readPosition other, filled.window position (by omega) (by omega),
      otherFilled.window position (by omega) (by omega)]

theorem Filled.next (filled : Filled slots values blank high) :
    Filled (writeSlot slots high (values high)) values blank (high + 1) where
  window := filled.window.next.mono (by omega)
  rest position above inside := by
    have distinct : high % size ≠ position % size := by
      rw [Nat.mod_eq_of_lt inside, Nat.mod_eq_of_lt (by omega)]
      omega
    rw [read_slot_write, if_neg distinct]
    exact filled.rest position (by omega) inside

theorem Filled.congr {others : Nat → Value} (filled : Filled slots values blank high)
    (same : ∀ position, high - size ≤ position → position < high →
      values position = others position) : Filled slots others blank high where
  window position above below := by
    rw [filled.window position above below, same position above below]
  rest := filled.rest

/-! ## Slots in a list

Read from the slot that is written next, the slots are in the order in which they were
written. -/

/-- A write at the index, which then moves on, drops the first slot of the order and adds the
new value behind the last. -/
theorem rotate_set_succ (slots : List Value) {index : Nat} (inside : index < slots.length)
    (value : Value) :
    (slots.set index value).rotate (index + 1) = (slots.rotate index).tail ++ [value] := by
  have room : index + 1 ≤ (slots.set index value).length := by
    rw [List.length_set]
    exact inside
  have kept : (slots.set index value).drop (index + 1) = slots.drop (index + 1) :=
    List.drop_set_of_lt (Nat.lt_succ_self index)
  have written : (slots.set index value).take (index + 1) = slots.take index ++ [value] := by
    rw [List.take_add_one, List.take_set_of_le (Nat.le_refl index), List.getElem?_set_self inside]
    rfl
  have some_left : slots.drop index ≠ [] := by
    rw [Ne, List.drop_eq_nil_iff]
    omega
  rw [List.rotate_eq_drop_append_take room, List.rotate_eq_drop_append_take inside.le, kept,
    written, List.tail_append_of_ne_nil some_left, List.tail_drop, List.append_assoc]

/-- A scan from the index, which goes on at the first slot behind the last, reads the order. -/
theorem map_range_rotate (slots : List Value) (index : Nat) :
    (List.range slots.length).map (fun count => slots[(index + count) % slots.length]?) =
      (slots.rotate index).map some := by
  apply List.ext_getElem
  · simp
  · intro count inside _
    have bound : count < slots.length := by simpa using inside
    rw [List.getElem_map, List.getElem_range, List.getElem_map, List.getElem_rotate,
      Nat.add_comm count index, List.getElem?_eq_getElem]

end Bertha.Ring
