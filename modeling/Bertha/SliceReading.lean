import Bertha.GenesisUnits

/-!
# Slices of a byte stream

`SliceReader` of `genesis-parser/src/g_file/slice_reader.rs`: a buffer that is refilled
when at most `min_slice_size` bytes are left in it, so that a decoder can work on a slice.
The bytes not yet consumed are those left in the buffer followed by those left in the
source; a refill moves bytes from the one to the other, and afterwards the slice is either
long enough or everything that is left.
-/

namespace Bertha.SliceReading

open Bertha.BigEndian Bertha.GenesisUnits Bertha.Rlp

set_option autoImplicit false

/-- What `take(count).read_to_end` does: the bytes it appends, the error it stops at, and
the source after it. -/
structure ReadOutcome (Source : Type) where
  bytes : Bytes
  failure : Option IoErrorKind
  source : Source

abbrev ReadToEnd (Source : Type) := Source → Nat → ReadOutcome Source

structure SliceReader (Source : Type) where
  reader : Source
  readerEmpty : Bool
  bufferSize : Nat
  minSliceSize : Nat
  buffer : Bytes
  bufferIdx : Nat

variable {Source Value : Type}

def SliceReader.new (source : Source) (bufferSize minSliceSize : Nat) : SliceReader Source where
  reader := source
  readerEmpty := false
  bufferSize := if bufferSize < minSliceSize then minSliceSize * 2 else bufferSize
  minSliceSize := minSliceSize
  buffer := []
  bufferIdx := 0

def SliceReader.slice (reader : SliceReader Source) : Bytes :=
  reader.buffer.drop reader.bufferIdx

def fillBuffer (read : ReadToEnd Source) (reader : SliceReader Source) :
    Except Error PUnit × SliceReader Source :=
  if reader.buffer.length ≤ reader.bufferIdx + reader.minSliceSize ∧
      reader.readerEmpty = false then
    let outcome := read reader.reader (reader.bufferSize - reader.slice.length)
    let refilled := { reader with
      reader := outcome.source
      buffer := reader.slice ++ outcome.bytes
      bufferIdx := 0 }
    match outcome.failure with
    | some kind => (.error (.io kind), refilled)
    | none =>
      (.ok (), if outcome.bytes = [] then { refilled with readerEmpty := true } else refilled)
  else (.ok (), reader)

/-- `process_with` for a function that returns its result and what it left of the slice. -/
def processWith (read : ReadToEnd Source) (f : Bytes → Except Error Value × Bytes)
    (reader : SliceReader Source) : Except Error (Option Value) × SliceReader Source :=
  match fillBuffer read reader with
  | (.error error, reader) => (.error error, reader)
  | (.ok (), reader) =>
    if reader.slice = [] then (.ok none, reader)
    else
      let (result, rest) := f reader.slice
      (some <$> result,
        { reader with bufferIdx := reader.bufferIdx + (reader.slice.length - rest.length) })

/-- A decoder as a function on slices. What a failed decoder has consumed is left out: its
callers do not read on after an error. -/
def decodeSlice (decoder : Decoder Value) (slice : Bytes) : Except Error Value × Bytes :=
  match decoder slice with
  | .ok (value, rest) => (.ok value, rest)
  | .error error => (.error (.rlp error), slice)

/-- A source that ends: what a read appends comes next in it, and a read succeeds only with
all the bytes requested or at the end. -/
structure FiniteSource (read : ReadToEnd Source) (contents : Source → Bytes) : Prop where
  delivers : ∀ source count,
    (read source count).bytes ++ contents (read source count).source = contents source
  complete : ∀ source count, (read source count).failure = none →
    (read source count).bytes.length = count ∨ contents (read source count).source = []

def pending (contents : Source → Bytes) (reader : SliceReader Source) : Bytes :=
  reader.slice ++ contents reader.reader

/-- A refill can add a byte whenever one is left: the buffer is larger than the minimal
slice, or everything that is left fits into it. -/
structure Sound (contents : Source → Bytes) (reader : SliceReader Source) : Prop where
  room : reader.minSliceSize < reader.bufferSize ∨
    (pending contents reader).length ≤ reader.bufferSize
  index : reader.bufferIdx ≤ reader.buffer.length
  emptied : reader.readerEmpty = true → contents reader.reader = []

/-- Filling the buffer loses no byte, and after a success the slice is long enough or all
that is left. -/
structure Refilled (contents : Source → Bytes) (before after : SliceReader Source)
    (result : Except Error PUnit) : Prop where
  sound : Sound contents after
  pending : pending contents after = pending contents before
  minSliceSize : after.minSliceSize = before.minSliceSize
  bufferSize : after.bufferSize = before.bufferSize
  enough : result = .ok () →
    before.minSliceSize ≤ after.slice.length ∨ contents after.reader = []

theorem slice_length (reader : SliceReader Source) :
    reader.slice.length = reader.buffer.length - reader.bufferIdx :=
  List.length_drop

def SliceReader.request (read : ReadToEnd Source) (reader : SliceReader Source) :
    ReadOutcome Source :=
  read reader.reader (reader.bufferSize - reader.slice.length)

def SliceReader.refill (reader : SliceReader Source) (outcome : ReadOutcome Source)
    (ended : Bool) : SliceReader Source :=
  { reader with
    reader := outcome.source
    readerEmpty := ended
    buffer := reader.slice ++ outcome.bytes
    bufferIdx := 0 }

inductive FillStep (read : ReadToEnd Source) (reader : SliceReader Source) :
    Except Error PUnit → SliceReader Source → Prop
  | kept (enough : reader.readerEmpty = true ∨
      reader.bufferIdx + reader.minSliceSize < reader.buffer.length) :
      FillStep read reader (.ok ()) reader
  | failed {kind : IoErrorKind} (failure : (reader.request read).failure = some kind) :
      FillStep read reader (.error (.io kind)) (reader.refill (reader.request read) false)
  | filled (short : reader.buffer.length ≤ reader.bufferIdx + reader.minSliceSize)
      (complete : (reader.request read).failure = none) :
      FillStep read reader (.ok ()) (reader.refill (reader.request read)
        (decide ((reader.request read).bytes = [])))

theorem fill_buffer_step (read : ReadToEnd Source) (reader : SliceReader Source) :
    FillStep read reader (fillBuffer read reader).1 (fillBuffer read reader).2 := by
  by_cases refills : reader.buffer.length ≤ reader.bufferIdx + reader.minSliceSize ∧
      reader.readerEmpty = false
  · have filling : { reader with
        reader := (reader.request read).source
        buffer := reader.slice ++ (reader.request read).bytes
        bufferIdx := 0 } = reader.refill (reader.request read) false := by
      rw [SliceReader.refill, ← refills.2]
    cases failure : (reader.request read).failure with
    | some kind =>
        have fills : fillBuffer read reader =
            (.error (.io kind), reader.refill (reader.request read) false) := by
          rw [← filling, fillBuffer, if_pos refills]
          rw [SliceReader.request] at failure
          dsimp only
          rw [failure]
          rfl
        rw [fills]
        exact .failed failure
    | none =>
        have fills : fillBuffer read reader = (.ok (), reader.refill (reader.request read)
            (decide ((reader.request read).bytes = []))) := by
          rw [fillBuffer, if_pos refills]
          by_cases nothing : (reader.request read).bytes = []
          · rw [decide_eq_true nothing]
            rw [SliceReader.request] at failure nothing
            dsimp only
            rw [failure]
            exact congrArg (Prod.mk (Except.ok ())) (if_pos nothing)
          · rw [decide_eq_false nothing, ← filling]
            rw [SliceReader.request] at failure nothing
            dsimp only
            rw [failure]
            exact congrArg (Prod.mk (Except.ok ())) (if_neg nothing)
        rw [fills]
        exact .filled refills.1 failure
  · have fills : fillBuffer read reader = (.ok (), reader) := by rw [fillBuffer, if_neg refills]
    rw [fills]
    refine .kept ?_
    rw [not_and_or, Bool.not_eq_false, not_le] at refills
    exact refills.symm

section Outcomes

variable {read : ReadToEnd Source} {reader : SliceReader Source}

theorem fill_buffer_ended (ended : reader.readerEmpty = true) :
    fillBuffer read reader = (.ok (), reader) := by
  rw [fillBuffer, if_neg (by simp [ended])]

theorem fill_buffer_drained (filled : (fillBuffer read reader).1 = .ok ())
    (empty : (fillBuffer read reader).2.slice = []) :
    (fillBuffer read reader).2.readerEmpty = true := by
  have length := slice_length reader
  have step := fill_buffer_step read reader
  generalize (fillBuffer read reader).1 = result, (fillBuffer read reader).2 = after
    at filled empty step ⊢
  cases step with
  | kept enough =>
      rcases enough with ended | long
      · exact ended
      · rw [empty, List.length_nil] at length
        omega
  | failed failure => cases filled
  | filled short complete =>
      change reader.slice ++ (reader.request read).bytes = [] at empty
      exact decide_eq_true (List.append_eq_nil_iff.mp empty).2

variable (f : Bytes → Except Error Value × Bytes)

theorem process_with_failed {error : Error} (failed : (fillBuffer read reader).1 = .error error) :
    processWith read f reader = (.error error, (fillBuffer read reader).2) := by
  rw [processWith]
  split
  · rename_i other filled fills
    rw [fills] at failed ⊢
    cases failed
    rfl
  · rename_i filled fills
    rw [fills] at failed
    cases failed

theorem process_with_filled (filled : (fillBuffer read reader).1 = .ok ()) :
    processWith read f reader =
      if (fillBuffer read reader).2.slice = [] then (.ok none, (fillBuffer read reader).2)
      else
        (some <$> (f (fillBuffer read reader).2.slice).1,
          { (fillBuffer read reader).2 with
            bufferIdx := (fillBuffer read reader).2.bufferIdx +
              ((fillBuffer read reader).2.slice.length -
                (f (fillBuffer read reader).2.slice).2.length) }) := by
  rw [processWith]
  split
  · rename_i error after fills
    rw [fills] at filled
    cases filled
  · rename_i after fills
    rw [fills]

/-- Nothing is returned only when the reader has found its source empty. -/
theorem process_with_none {after : SliceReader Source}
    (nothing : processWith read f reader = (.ok none, after)) :
    after.readerEmpty = true ∧ after.slice = [] := by
  cases outcome : (fillBuffer read reader).1 with
  | error error =>
      rw [process_with_failed f outcome] at nothing
      cases nothing
  | ok _ =>
      rw [process_with_filled f outcome] at nothing
      by_cases empty : (fillBuffer read reader).2.slice = []
      · rw [if_pos empty] at nothing
        cases nothing
        exact ⟨fill_buffer_drained outcome empty, empty⟩
      · rw [if_neg empty, Prod.mk.injEq] at nothing
        have returned := nothing.1
        generalize (f _).1 = result at returned
        cases result <;> cases returned

theorem process_with_drained (ended : reader.readerEmpty = true) (empty : reader.slice = []) :
    processWith read f reader = (.ok none, reader) := by
  have filled : fillBuffer read reader = (.ok (), reader) := fill_buffer_ended ended
  rw [process_with_filled f (congrArg Prod.fst filled), filled, if_pos empty]

end Outcomes

theorem refill_pending {read : ReadToEnd Source} {contents : Source → Bytes}
    (finite : FiniteSource read contents) (reader : SliceReader Source) (ended : Bool) :
    pending contents (reader.refill (reader.request read) ended) = pending contents reader := by
  change (reader.slice ++ (reader.request read).bytes) ++ contents (reader.request read).source = _
  rw [List.append_assoc, SliceReader.request, finite.delivers, pending]

theorem fill_buffer_sound {read : ReadToEnd Source} {contents : Source → Bytes}
    (finite : FiniteSource read contents) {reader : SliceReader Source}
    (sound : Sound contents reader) :
    Refilled contents reader (fillBuffer read reader).2 (fillBuffer read reader).1 := by
  have index := sound.index
  have length := slice_length reader
  have moved (ended : Bool) : pending contents (reader.refill (reader.request read) ended) =
      pending contents reader := refill_pending finite reader ended
  have step := fill_buffer_step read reader
  generalize (fillBuffer read reader).1 = result, (fillBuffer read reader).2 = after at step ⊢
  cases step with
  | kept enough =>
      refine ⟨sound, rfl, rfl, rfl, fun _ => ?_⟩
      rcases enough with ended | long
      · exact Or.inr (sound.emptied ended)
      · left
        omega
  | failed failure =>
      exact ⟨⟨moved false ▸ sound.room, Nat.zero_le _, nofun⟩, moved false, rfl, rfl, nofun⟩
  | filled short complete =>
      have delivered : (reader.request read).bytes.length +
          (contents (reader.request read).source).length =
            (contents reader.reader).length := by
        rw [← List.length_append, SliceReader.request, finite.delivers]
      have total : (pending contents reader).length =
          reader.slice.length + (contents reader.reader).length := List.length_append
      have whole : (reader.request read).bytes.length = reader.bufferSize - reader.slice.length ∨
          (contents (reader.request read).source).length = 0 :=
        (finite.complete _ _ complete).imp_right List.length_eq_zero_iff.mpr
      have room := sound.room
      refine ⟨⟨moved _ ▸ room, Nat.zero_le _, fun ended => ?_⟩, moved _, rfl, rfl, fun _ => ?_⟩
      · have nothing : (reader.request read).bytes.length = 0 :=
          List.length_eq_zero_iff.mpr (of_decide_eq_true ended)
        refine List.length_eq_zero_iff.mp (?_ : (contents (reader.request read).source).length = 0)
        omega
      · change reader.minSliceSize ≤ (reader.slice ++ (reader.request read).bytes).length ∨
          contents (reader.request read).source = []
        rw [List.length_append, ← List.length_eq_zero_iff]
        omega

def readMemory : ReadToEnd Bytes := fun source count =>
  ⟨source.take count, none, source.drop count⟩

theorem read_memory_finite : FiniteSource readMemory id where
  delivers source count := List.take_append_drop count source
  complete source count _ := by
    change (source.take count).length = count ∨ source.drop count = []
    rw [List.length_take, List.drop_eq_nil_iff]
    omega

theorem fill_buffer_memory (reader : SliceReader Bytes) :
    (fillBuffer readMemory reader).1 = .ok () := by
  have step := fill_buffer_step readMemory reader
  generalize (fillBuffer readMemory reader).1 = result, (fillBuffer readMemory reader).2 = after
    at step
  cases step with
  | kept _ => rfl
  | failed failure => cases failure
  | filled _ _ => rfl

def unread (reader : SliceReader Bytes) : Bytes := reader.slice ++ reader.reader

structure Consistent (reader : SliceReader Bytes) : Prop where
  larger : reader.minSliceSize < reader.bufferSize
  index : reader.bufferIdx ≤ reader.buffer.length
  emptied : reader.readerEmpty = true → reader.reader = []

theorem consistent_new {source : Bytes} {bufferSize minSliceSize : Nat}
    (larger : minSliceSize < bufferSize) :
    Consistent (SliceReader.new source bufferSize minSliceSize) := by
  have kept : ¬ bufferSize < minSliceSize := by omega
  constructor
  · simpa only [SliceReader.new, if_neg kept] using larger
  · exact Nat.le_refl 0
  · intro impossible
    cases impossible

structure Filled (before after : SliceReader Bytes) : Prop where
  consistent : Consistent after
  unread : unread after = unread before
  minSliceSize : after.minSliceSize = before.minSliceSize
  enough : before.minSliceSize ≤ after.slice.length ∨ after.reader = []

theorem fill_buffer_filled {reader : SliceReader Bytes} (consistent : Consistent reader) :
    ∃ filled, fillBuffer readMemory reader = (.ok (), filled) ∧ Filled reader filled := by
  have sound : Sound id reader :=
    ⟨Or.inl consistent.larger, consistent.index, consistent.emptied⟩
  have refilled := fill_buffer_sound read_memory_finite sound
  have done := fill_buffer_memory reader
  have larger : (fillBuffer readMemory reader).2.minSliceSize <
      (fillBuffer readMemory reader).2.bufferSize := by
    rw [refilled.minSliceSize, refilled.bufferSize]
    exact consistent.larger
  refine ⟨(fillBuffer readMemory reader).2, Prod.ext done rfl,
    ⟨larger, refilled.sound.index, refilled.sound.emptied⟩, refilled.pending,
    refilled.minSliceSize, refilled.enough done⟩

/-- A record that fits the minimal slice is decoded as a whole, wherever the refills fall. -/
theorem process_with_decode {reader : SliceReader Bytes} (consistent : Consistent reader)
    {decoder : Decoder Value} {bytes rest : Bytes} {value : Value}
    (reads : Reads decoder bytes value) (bounded : bytes.length < 2 ^ 64)
    (nonempty : bytes ≠ []) (fits : bytes.length ≤ reader.minSliceSize)
    (left : unread reader = bytes ++ rest) :
    ∃ next, processWith readMemory (decodeSlice decoder) reader = (.ok (some value), next) ∧
      Consistent next ∧ next.minSliceSize = reader.minSliceSize ∧ unread next = rest := by
  obtain ⟨filled, fills, spec⟩ := fill_buffer_filled consistent
  have whole : filled.slice ++ filled.reader = bytes ++ rest := by
    rw [← left, ← spec.unread, unread]
  have covers : bytes.length ≤ filled.slice.length := by
    rcases spec.enough with enough | ended
    · omega
    · have lengths := congrArg List.length whole
      rw [ended, List.append_nil, List.length_append] at lengths
      omega
  obtain ⟨ahead, slice⟩ : ∃ ahead, filled.slice = bytes ++ ahead := by
    have start : bytes <+: filled.slice :=
      List.prefix_of_prefix_length_le (List.prefix_append bytes rest)
        (whole ▸ List.prefix_append filled.slice filled.reader) covers
    obtain ⟨ahead, same⟩ := start
    exact ⟨ahead, same.symm⟩
  have decoded : decodeSlice decoder filled.slice = (.ok value, ahead) := by
    rw [decodeSlice, slice, reads bounded ahead]
  have some_left : filled.slice ≠ [] := by simp [slice, nonempty]
  let next := { filled with
    bufferIdx := filled.bufferIdx + (filled.slice.length - ahead.length) }
  have consumed : filled.slice.length - ahead.length = bytes.length := by
    rw [slice, List.length_append]
    omega
  have nextSlice : next.slice = ahead := by
    change filled.buffer.drop (filled.bufferIdx + (filled.slice.length - ahead.length)) = ahead
    rw [consumed, ← List.drop_drop]
    change filled.slice.drop bytes.length = ahead
    rw [slice, List.drop_left]
  refine ⟨next, ?_, ⟨spec.consistent.larger, ?_, spec.consistent.emptied⟩, spec.minSliceSize, ?_⟩
  · simp only [processWith, fills, if_neg some_left, decoded]
    rfl
  · have inside := slice_length filled
    have index := spec.consistent.index
    change filled.bufferIdx + (filled.slice.length - ahead.length) ≤ filled.buffer.length
    omega
  · rw [slice, List.append_assoc] at whole
    rw [unread, nextSlice]
    exact List.append_cancel_left whole

theorem process_with_end {reader : SliceReader Bytes} (consistent : Consistent reader)
    (f : Bytes → Except Error Value × Bytes) (left : unread reader = []) :
    ∃ next, processWith readMemory f reader = (.ok none, next) ∧ Consistent next ∧
      next.minSliceSize = reader.minSliceSize ∧ unread next = [] := by
  obtain ⟨filled, fills, spec⟩ := fill_buffer_filled consistent
  have nothing : unread filled = [] := by rw [spec.unread, left]
  have empty : filled.slice = [] := (List.append_eq_nil_iff.mp nothing).1
  refine ⟨filled, ?_, spec.consistent, spec.minSliceSize, nothing⟩
  simp only [processWith, fills, if_pos empty]

end Bertha.SliceReading
