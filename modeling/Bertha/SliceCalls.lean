import Bertha.SliceReading

/-!
# Calls of the slice reader

What a whole sequence of calls of `SliceReader::process_with`
(`genesis-parser/src/g_file/slice_reader.rs`) offers of the input, whatever each closure
consumes. A buffer exactly as large as the minimal slice has no room for a refill when it is
full and nothing of it was consumed: the refill adds nothing, and the reader takes the source
to be empty.
-/

namespace Bertha.SliceCalls

open Bertha.BigEndian Bertha.GenesisUnits Bertha.SliceReading

set_option autoImplicit false

/-- A minimal slice size. Nothing larger than `isize::MAX` can be allocated, so the sums of
accepted sizes do not overflow. -/
structure NonZeroUsize where
  get : Nat
  nonzero : get ≠ 0

structure Closure where
  Value : Type
  run : Bytes → Except Error Value × Bytes
  consumes : ∀ slice, (run slice).2 <:+ slice

def taking (count : Nat) : Closure where
  Value := PUnit
  run slice := (.ok (), slice.drop count)
  consumes slice := List.drop_suffix count slice

variable {Source : Type}

def offered (read : ReadToEnd Source) (reader : SliceReader Source) : Option Bytes :=
  match (processWith read (fun slice => (.ok slice, slice)) reader).1 with
  | .ok slice => slice
  | .error _ => none

structure Progress (Source : Type) where
  reader : SliceReader Source
  remaining : Bytes

def call (read : ReadToEnd Source) (progress : Progress Source) (closure : Closure) :
    Progress Source where
  reader := (processWith read closure.run progress.reader).2
  remaining :=
    match offered read progress.reader with
    | some slice => progress.remaining.drop (slice.length - (closure.run slice).2.length)
    | none => progress.remaining

def afterCalls (read : ReadToEnd Source) (closures : List Closure)
    (progress : Progress Source) : Progress Source :=
  closures.foldl (call read) progress

/-- What the next call is to do: offer a long enough beginning of the input that is left, and
say that there is no more only at its end. -/
structure Faithful (read : ReadToEnd Source) (minSliceSize : Nat) (progress : Progress Source) :
    Prop where
  offers : ∀ slice, offered read progress.reader = some slice →
    slice <+: progress.remaining ∧ min minSliceSize progress.remaining.length ≤ slice.length
  ends : ∀ closure : Closure,
    (processWith read closure.run progress.reader).1 = .ok none → progress.remaining = []

theorem offered_failed {read : ReadToEnd Source} {reader : SliceReader Source} {error : Error}
    (failed : (fillBuffer read reader).1 = .error error) : offered read reader = none := by
  rw [offered, process_with_failed _ failed]

theorem offered_filled {read : ReadToEnd Source} {reader : SliceReader Source}
    (filled : (fillBuffer read reader).1 = .ok ()) :
    offered read reader =
      if (fillBuffer read reader).2.slice = [] then none
      else some (fillBuffer read reader).2.slice := by
  rw [offered, process_with_filled _ filled]
  by_cases empty : (fillBuffer read reader).2.slice = []
  · simp only [if_pos empty]
  · simp only [if_neg empty]
    rfl

/-- The invariant of a run: the reader is sound, and what it holds and its source still has
are what the closures left. -/
structure Tracks (contents : Source → Bytes) (minSliceSize : Nat) (progress : Progress Source) :
    Prop where
  sound : Sound contents progress.reader
  pending : pending contents progress.reader = progress.remaining
  minSliceSize : progress.reader.minSliceSize = minSliceSize

theorem tracks_call {read : ReadToEnd Source} {contents : Source → Bytes}
    (finite : FiniteSource read contents) {minSliceSize : Nat} {progress : Progress Source}
    (tracks : Tracks contents minSliceSize progress) (closure : Closure) :
    Tracks contents minSliceSize (call read progress closure) := by
  have refilled := fill_buffer_sound finite tracks.sound
  have size := refilled.minSliceSize.trans tracks.minSliceSize
  have same := refilled.pending.trans tracks.pending
  cases outcome : (fillBuffer read progress.reader).1 with
  | error error =>
      rw [call, process_with_failed _ outcome, offered_failed outcome]
      exact ⟨refilled.sound, same, size⟩
  | ok _ =>
      rw [call, process_with_filled _ outcome, offered_filled outcome]
      by_cases empty : (fillBuffer read progress.reader).2.slice = []
      · rw [if_pos empty, if_pos empty]
        exact ⟨refilled.sound, same, size⟩
      · rw [if_neg empty, if_neg empty]
        let filled := (fillBuffer read progress.reader).2
        let consumed := filled.slice.length - (closure.run filled.slice).2.length
        have short : consumed ≤ filled.slice.length := Nat.sub_le _ _
        have length := slice_length filled
        have index := refilled.sound.index
        let next := { filled with bufferIdx := filled.bufferIdx + consumed }
        have left : pending contents next = progress.remaining.drop consumed := by
          rw [← same]
          change filled.buffer.drop (filled.bufferIdx + consumed) ++ contents filled.reader =
            (filled.slice ++ contents filled.reader).drop consumed
          rw [List.drop_append_of_le_length short, ← List.drop_drop]
          rfl
        have room : next.minSliceSize < next.bufferSize ∨
            (pending contents next).length ≤ next.bufferSize := by
          refine refilled.sound.room.imp_right fun fits => ?_
          rw [left, ← same, List.length_drop]
          exact (Nat.sub_le _ _).trans fits
        have inside : next.bufferIdx ≤ next.buffer.length := by
          change filled.bufferIdx + consumed ≤ filled.buffer.length
          change filled.bufferIdx ≤ filled.buffer.length at index
          omega
        exact ⟨⟨room, inside, refilled.sound.emptied⟩, left, size⟩

theorem tracks_after_calls {read : ReadToEnd Source} {contents : Source → Bytes}
    (finite : FiniteSource read contents) {minSliceSize : Nat} (closures : List Closure)
    {progress : Progress Source} (tracks : Tracks contents minSliceSize progress) :
    Tracks contents minSliceSize (afterCalls read closures progress) := by
  induction closures generalizing progress with
  | nil => exact tracks
  | cons closure closures inductionHypothesis =>
      exact inductionHypothesis (tracks_call finite tracks closure)

theorem faithful_of_tracks {read : ReadToEnd Source} {contents : Source → Bytes}
    (finite : FiniteSource read contents) {minSliceSize : Nat} (positive : minSliceSize ≠ 0)
    {progress : Progress Source} (tracks : Tracks contents minSliceSize progress) :
    Faithful read minSliceSize progress := by
  have refilled := fill_buffer_sound finite tracks.sound
  have same : (fillBuffer read progress.reader).2.slice ++
      contents (fillBuffer read progress.reader).2.reader = progress.remaining :=
    refilled.pending.trans tracks.pending
  have enough := refilled.enough
  rw [tracks.minSliceSize] at enough
  cases outcome : (fillBuffer read progress.reader).1 with
  | error error =>
      constructor
      · intro slice offers
        rw [offered_failed outcome] at offers
        cases offers
      · intro closure ends
        rw [process_with_failed _ outcome] at ends
        cases ends
  | ok _ =>
      have long := enough outcome
      constructor
      · intro slice offers
        rw [offered_filled outcome] at offers
        split_ifs at offers
        obtain rfl := Option.some.inj offers
        refine ⟨⟨_, same⟩, ?_⟩
        rcases long with long | ended
        · exact (Nat.min_le_left _ _).trans long
        · rw [ended, List.append_nil] at same
          rw [← same]
          exact Nat.min_le_right _ _
      · intro closure ends
        rw [process_with_filled _ outcome] at ends
        by_cases empty : (fillBuffer read progress.reader).2.slice = []
        · rw [empty, List.length_nil] at long
          rcases long with long | ended
          · omega
          · rw [← same, empty, ended, List.append_nil]
        · rw [if_neg empty] at ends
          generalize (closure.run _).1 = result at ends
          cases result <;> cases ends

theorem faithful_enough {read : ReadToEnd Source} {minSliceSize : Nat}
    {progress : Progress Source} (faithful : Faithful read minSliceSize progress)
    {filled : SliceReader Source} (fills : fillBuffer read progress.reader = (.ok (), filled)) :
    min minSliceSize progress.remaining.length ≤ filled.slice.length := by
  have done : (fillBuffer read progress.reader).1 = .ok () := congrArg Prod.fst fills
  by_cases empty : filled.slice = []
  · have ended : progress.remaining = [] := by
      apply faithful.ends (taking 0)
      rw [process_with_filled _ done, fills, if_pos empty]
    rw [ended]
    exact (Nat.min_le_right _ _).trans (Nat.zero_le _)
  · refine (faithful.offers filled.slice ?_).2
    rw [offered_filled done, fills, if_neg empty]

theorem tracks_new (contents : Source → Bytes) (source : Source) (bufferSize : Nat)
    (minSliceSize : NonZeroUsize)
    (room : bufferSize ≠ minSliceSize.get ∨ (contents source).length ≤ minSliceSize.get) :
    Tracks contents minSliceSize.get
      ⟨SliceReader.new source bufferSize minSliceSize.get, contents source⟩ := by
  have positive := minSliceSize.nonzero
  refine ⟨⟨?_, Nat.le_refl 0, nofun⟩, rfl, rfl⟩
  change minSliceSize.get < (if bufferSize < minSliceSize.get then minSliceSize.get * 2
      else bufferSize) ∨ (contents source).length ≤
    (if bufferSize < minSliceSize.get then minSliceSize.get * 2 else bufferSize)
  split_ifs <;> omega

theorem call_taking {read : ReadToEnd Source} {progress : Progress Source} (count : Nat)
    (filled : (fillBuffer read progress.reader).1 = .ok ()) :
    call read progress (taking count) =
      { reader :=
          { (fillBuffer read progress.reader).2 with
            bufferIdx := (fillBuffer read progress.reader).2.bufferIdx +
              min count (fillBuffer read progress.reader).2.slice.length }
        remaining := progress.remaining.drop
          (min count (fillBuffer read progress.reader).2.slice.length) } := by
  rw [call, process_with_filled _ filled, offered_filled filled]
  by_cases empty : (fillBuffer read progress.reader).2.slice = []
  · rw [if_pos empty, if_pos empty, empty]
    simp
  · have consumed (slice : Bytes) : slice.length - (slice.drop count).length =
        min count slice.length := by
      rw [List.length_drop]
      omega
    rw [if_neg empty, if_neg empty]
    simp only [taking, consumed]

theorem full_buffer_ends (bytes : Bytes) (minSliceSize : NonZeroUsize)
    (longer : minSliceSize.get < bytes.length) :
    afterCalls readMemory [taking 0, taking 1]
        ⟨SliceReader.new bytes minSliceSize.get minSliceSize.get, bytes⟩ =
      { reader :=
          { reader := bytes.drop minSliceSize.get
            readerEmpty := true
            bufferSize := minSliceSize.get
            minSliceSize := minSliceSize.get
            buffer := bytes.take minSliceSize.get
            bufferIdx := 1 }
        remaining := bytes.drop 1 } := by
  have positive := minSliceSize.nonzero
  have length : (bytes.take minSliceSize.get).length = minSliceSize.get :=
    List.length_take_of_le longer.le
  have some_read : bytes.take minSliceSize.get ≠ [] := by
    rw [← List.length_pos_iff, length]
    omega
  let full : SliceReader Bytes :=
    { reader := bytes.drop minSliceSize.get
      readerEmpty := false
      bufferSize := minSliceSize.get
      minSliceSize := minSliceSize.get
      buffer := bytes.take minSliceSize.get
      bufferIdx := 0 }
  have first : fillBuffer readMemory (SliceReader.new bytes minSliceSize.get minSliceSize.get) =
      (.ok (), full) := by
    simp [fillBuffer, SliceReader.new, SliceReader.slice, readMemory, some_read, full]
  have second : fillBuffer readMemory full = (.ok (), { full with readerEmpty := true }) := by
    simp [fillBuffer, SliceReader.slice, readMemory, full, longer.le]
  have idle : call readMemory ⟨SliceReader.new bytes minSliceSize.get minSliceSize.get, bytes⟩
      (taking 0) = ⟨full, bytes⟩ := by
    rw [call_taking 0 (congrArg Prod.fst first), first, Nat.zero_min]
    rfl
  have one : min 1 full.slice.length = 1 := by
    change min 1 (bytes.take minSliceSize.get).length = 1
    omega
  have taken : call readMemory ⟨full, bytes⟩ (taking 1) =
      ⟨{ full with readerEmpty := true, bufferIdx := 1 }, bytes.drop 1⟩ := by
    rw [call_taking 1 (congrArg Prod.fst second), second]
    change Progress.mk { full with readerEmpty := true, bufferIdx := 0 + min 1 full.slice.length }
      (bytes.drop (min 1 full.slice.length)) = _
    rw [one]
  rw [afterCalls, List.foldl_cons, idle, List.foldl_cons, taken, List.foldl_nil]

/-- Whatever the closures consume and wherever the reads of the source fail, a buffer larger
than the minimal slice offers all of the input; one of the same size does so only for inputs
that fit into it. -/
theorem slices_faithful_iff (bufferSize : Nat) (minSliceSize : NonZeroUsize) (bytes : Bytes) :
    (∀ (Source : Type) (read : ReadToEnd Source) (contents : Source → Bytes) (source : Source),
        FiniteSource read contents → contents source = bytes →
        ∀ closures : List Closure,
          Faithful read minSliceSize.get
            (afterCalls read closures
              ⟨SliceReader.new source bufferSize minSliceSize.get, bytes⟩)) ↔
      bufferSize ≠ minSliceSize.get ∨ bytes.length ≤ minSliceSize.get := by
  have positive := minSliceSize.nonzero
  constructor
  · intro faithful
    by_contra same
    obtain ⟨rfl, longer⟩ : bufferSize = minSliceSize.get ∧ minSliceSize.get < bytes.length := by
      omega
    have stuck := faithful Bytes readMemory id bytes read_memory_finite rfl [taking 0, taking 1]
    rw [full_buffer_ends bytes minSliceSize longer] at stuck
    have long := faithful_enough stuck (fill_buffer_ended rfl)
    change min minSliceSize.get (bytes.drop 1).length ≤
      ((bytes.take minSliceSize.get).drop 1).length at long
    simp only [List.length_drop, List.length_take] at long
    omega
  · rintro room Source read contents source finite rfl closures
    exact faithful_of_tracks finite positive
      (tracks_after_calls finite closures (tracks_new contents source bufferSize minSliceSize room))

/-- Three bytes read with a buffer and a minimal slice of one byte: a call that consumes
nothing, one that consumes a byte, and the third finds the end of the input. -/
theorem slices_lost :
    let read := afterCalls readMemory [taking 0, taking 1]
      ⟨SliceReader.new [1, 2, 3] 1 1, [1, 2, 3]⟩
    (processWith readMemory (taking 1).run read.reader).1 = .ok none ∧
      read.remaining = [2, 3] ∧ ¬ Faithful readMemory 1 read := by
  have state := full_buffer_ends [1, 2, 3] ⟨1, by decide⟩ (by decide)
  dsimp only at state ⊢
  rw [state]
  have ends : (processWith readMemory (taking 1).run
      { reader := [2, 3], readerEmpty := true, bufferSize := 1, minSliceSize := 1
        buffer := [1], bufferIdx := 1 }).1 = .ok none := rfl
  refine ⟨ends, rfl, fun faithful => ?_⟩
  have nothing := faithful.ends (taking 1) ends
  cases nothing

end Bertha.SliceCalls
