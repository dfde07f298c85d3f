import Bertha.BlockParsing

/-!
# Errors of the block iterator

When `BlockParser::next` of `genesis-parser/src/g_file/block_parser.rs` goes on after an
error. An error of the reader or of the decoder sets the flag that ends the iteration; a
record that decodes but does not convert to a block is reported without setting it, and the
next call returns the record behind it.
-/

namespace Bertha.ParserErrors

open Bertha.BigEndian Bertha.BlockParsing Bertha.GenesisBlocks Bertha.Rlp Bertha.SliceReading
open Bertha.BlockTypes hiding Error
open Bertha.GenesisUnits (Error)

set_option autoImplicit false

variable {Source : Type} (read : ReadToEnd Source)

def stateAfter : Nat → BlockParser Source → BlockParser Source
  | 0, parser => parser
  | calls + 1, parser => stateAfter calls (next read parser).2

/-- The documented behaviour: behind an error, every call returns nothing. -/
def StopsAtFirstError (parser : BlockParser Source) : Prop :=
  ∀ (calls earlier later : Nat) (error : Error) (answer : Option (Except Error Block)),
    earlier < later → (results read calls parser)[earlier]? = some (some (.error error)) →
      (results read calls parser)[later]? = some answer → answer = none

/-- The next record can be decoded, but is no block. -/
def ConversionFails (parser : BlockParser Source) : Prop :=
  parser.error = false ∧ ∃ record reader message,
    processWith read (decodeSlice IdxFullBlock.decode) parser.sliceReader =
      (.ok (some record), reader) ∧ Block.tryFrom record = .error message

def Exhausted (parser : BlockParser Source) : Prop :=
  ∃ reader, processWith read (decodeSlice IdxFullBlock.decode) parser.sliceReader =
    (.ok none, reader)

theorem state_after_succ (calls : Nat) (parser : BlockParser Source) :
    stateAfter read (calls + 1) parser = (next read (stateAfter read calls parser)).2 := by
  induction calls generalizing parser with
  | zero => rfl
  | succ calls inductionHypothesis => exact inductionHypothesis (next read parser).2

theorem results_get (calls index : Nat) (parser : BlockParser Source) :
    (results read calls parser)[index]? =
      if index < calls then some (next read (stateAfter read index parser)).1 else none := by
  induction calls generalizing index parser with
  | zero => rfl
  | succ calls inductionHypothesis =>
      cases index with
      | zero => rfl
      | succ index =>
          rw [results, List.getElem?_cons_succ, inductionHypothesis, stateAfter]
          simp only [Nat.add_lt_add_iff_right]

theorem stops_at_first_error_iff_states (parser : BlockParser Source) :
    StopsAtFirstError read parser ↔
      ∀ (earlier later : Nat) (error : Error), earlier < later →
        (next read (stateAfter read earlier parser)).1 = some (.error error) →
        (next read (stateAfter read later parser)).1 = none := by
  constructor
  · intro stops earlier later error before failed
    apply stops (later + 1) earlier later error _ before
    · rw [results_get, if_pos (by omega), failed]
    · rw [results_get, if_pos (by omega)]
  · intro stops calls earlier later error answer before failed answered
    rw [results_get] at failed answered
    split at answered
    · rename_i inside
      cases answered
      rw [if_pos (by omega)] at failed
      exact stops earlier later error before (Option.some.inj failed)
    · cases answered

/-- What a call can do: nothing behind an error, an error that sets the flag, a record, or
nothing at the end. -/
theorem next_cases (parser : BlockParser Source) :
    (parser.error = true ∧ next read parser = (none, parser)) ∨
    (parser.error = false ∧ ∃ error reader, next read parser = (some (.error error), ⟨reader, true⟩)) ∨
    (parser.error = false ∧ ∃ record reader,
      processWith read (decodeSlice IdxFullBlock.decode) parser.sliceReader =
        (.ok (some record), reader) ∧
      next read parser =
        (some ((Block.tryFrom record).mapError fun message => .rlp (.custom message)),
          ⟨reader, false⟩)) ∨
    (parser.error = false ∧ Exhausted read parser ∧
      ∃ reader, next read parser = (none, ⟨reader, false⟩)) := by
  cases flag : parser.error with
  | true => exact .inl ⟨rfl, by rw [next, if_pos flag]⟩
  | false =>
      cases processed :
          processWith read (decodeSlice IdxFullBlock.decode) parser.sliceReader with
      | mk answer reader =>
          simp only [next, flag, Bool.false_eq_true, if_false, processed]
          rcases answer with error | _ | record
          · exact .inr (.inl ⟨trivial, error, reader, rfl⟩)
          · exact .inr (.inr (.inr ⟨trivial, ⟨reader, processed⟩, reader, rfl⟩))
          · exact .inr (.inr (.inl ⟨trivial, record, reader, rfl, rfl⟩))

theorem flagged_state (parser : BlockParser Source) (flagged : parser.error = true)
    (calls : Nat) : stateAfter read calls parser = parser := by
  have stays : (next read parser).2 = parser := by rw [next, if_pos flagged]
  induction calls with
  | zero => rfl
  | succ calls inductionHypothesis => rw [stateAfter, stays, inductionHypothesis]

theorem state_after_add (first second : Nat) (parser : BlockParser Source) :
    stateAfter read (first + second) parser =
      stateAfter read second (stateAfter read first parser) := by
  induction first generalizing parser with
  | zero =>
      rw [Nat.zero_add]
      rfl
  | succ first inductionHypothesis =>
      rw [Nat.succ_add, stateAfter, stateAfter, inductionHypothesis]

theorem next_conversion_error {parser : BlockParser Source} {record : IdxFullBlock}
    {reader : SliceReader Source} {message : String} (flag : parser.error = false)
    (processed : processWith read (decodeSlice IdxFullBlock.decode) parser.sliceReader =
      (.ok (some record), reader))
    (converted : Block.tryFrom record = .error message) :
    next read parser = (some (.error (.rlp (.custom message))), ⟨reader, false⟩) := by
  obtain ⟨sliceReader, error⟩ := parser
  cases flag
  simp only [next, Bool.false_eq_true, if_false, processed, converted]
  rfl

theorem next_conversion_fails {parser : BlockParser Source} (fails : ConversionFails read parser) :
    (∃ error, (next read parser).1 = some (.error error)) ∧
      (next read parser).2.error = false := by
  obtain ⟨flag, record, reader, message, processed, converted⟩ := fails
  rw [next_conversion_error read flag processed converted]
  exact ⟨⟨_, rfl⟩, rfl⟩

theorem next_exhausted {parser : BlockParser Source} (exhausted : Exhausted read parser) :
    (next read parser).1 = none := by
  obtain ⟨reader, processed⟩ := exhausted
  unfold next
  split
  · rfl
  · rw [processed]

theorem next_none {parser : BlockParser Source} (flag : parser.error = false)
    (nothing : (next read parser).1 = none) : Exhausted read parser := by
  rcases next_cases read parser with ⟨flagged, -⟩ | ⟨-, error, reader, step⟩ |
    ⟨-, record, reader, -, step⟩ | ⟨-, exhausted, reader, step⟩
  · rw [flag] at flagged
    cases flagged
  · rw [step] at nothing
    cases nothing
  · rw [step] at nothing
    cases nothing
  · exact exhausted

theorem exhausted_next {parser : BlockParser Source} (exhausted : Exhausted read parser) :
    Exhausted read (next read parser).2 := by
  obtain ⟨reader, processed⟩ := exhausted
  cases flag : parser.error with
  | true =>
      rw [next, if_pos flag]
      exact ⟨reader, processed⟩
  | false =>
      obtain ⟨ended, empty⟩ := process_with_none _ processed
      have step : next read parser = (none, ⟨reader, false⟩) := by
        simp only [next, flag, Bool.false_eq_true, if_false, processed]
      rw [step]
      exact ⟨reader, process_with_drained _ ended empty⟩

theorem exhausted_stays {parser : BlockParser Source} (exhausted : Exhausted read parser)
    (calls : Nat) : Exhausted read (stateAfter read calls parser) := by
  induction calls with
  | zero => exact exhausted
  | succ calls inductionHypothesis =>
      rw [state_after_succ]
      exact exhausted_next read inductionHypothesis

/-- The iteration stops at the first error exactly if nothing is left to read behind a record
that does not convert. -/
theorem stops_at_first_error_iff (parser : BlockParser Source) :
    StopsAtFirstError read parser ↔
      ∀ calls, ConversionFails read (stateAfter read calls parser) →
        Exhausted read (stateAfter read (calls + 1) parser) := by
  rw [stops_at_first_error_iff_states]
  constructor
  · intro stops calls fails
    obtain ⟨⟨error, reported⟩, flag⟩ := next_conversion_fails read fails
    rw [← state_after_succ] at flag
    have nothing : (next read (stateAfter read (calls + 1) parser)).1 = none :=
      stops calls (calls + 1) error (Nat.lt_succ_self calls) reported
    exact next_none read flag nothing
  · intro ended earlier later error before reported
    rcases next_cases read (stateAfter read earlier parser) with ⟨-, step⟩ | ⟨-, _, reader, step⟩ |
      ⟨flag, record, reader, processed, step⟩ | ⟨-, -, reader, step⟩
    · rw [step] at reported
      cases reported
    · -- the flag is set in the next state and every later one
      have flagged : (stateAfter read (earlier + 1) parser).error = true := by
        rw [state_after_succ, step]
      obtain ⟨more, rfl⟩ := Nat.exists_eq_add_of_le (Nat.succ_le_of_lt before)
      rw [Nat.succ_eq_add_one, state_after_add, flagged_state read _ flagged, next, if_pos flagged]
    · cases converted : Block.tryFrom record with
      | error message =>
          have behind : Exhausted read (stateAfter read (earlier + 1) parser) :=
            ended earlier ⟨flag, record, reader, message, processed, converted⟩
          obtain ⟨more, rfl⟩ := Nat.exists_eq_add_of_le (Nat.succ_le_of_lt before)
          rw [Nat.succ_eq_add_one, state_after_add]
          exact next_exhausted read (exhausted_stays read behind more)
      | ok block =>
          rw [step, converted] at reported
          cases reported
    · rw [step] at reported
      cases reported

def badRecord : IdxFullBlock :=
  { sampleRecord with
    block := { sampleRecord.block with
      receipts := [{ postStateOrStatus := [5], cumulativeGasUsed := 21000, logs := [] }] } }

/-- The record behind the bad one is returned as if there had been no error. -/
theorem block_after_conversion_error :
    let parser : BlockParser Bytes :=
      ⟨SliceReader.new (badRecord.encode ++ sampleRecord.encode) 251 250, false⟩
    results readMemory 2 parser =
        [some (.error (.rlp (.custom "invalid receipt status"))), some (.ok sampleBlock)] ∧
      ¬ StopsAtFirstError readMemory parser := by
  intro parser
  have canonical : ∀ tx ∈ sampleRecord.block.transactions, Canonical tx := by
    intro tx member
    cases List.mem_singleton.mp member
    exact ⟨rfl, rfl⟩
  have refused : Block.tryFrom badRecord = .error "invalid receipt status" := by decide +kernel
  have converts : Block.tryFrom sampleRecord = .ok sampleBlock := by decide +kernel
  have badFits : badRecord.encode.length ≤ 250 := by decide +kernel
  have fits : sampleRecord.encode.length ≤ 250 := by decide +kernel
  have start : ∀ bytes, Ready 250 ⟨SliceReader.new bytes 251 250, false⟩ bytes :=
    fun bytes => ⟨rfl, consistent_new (by decide), rfl, rfl⟩
  have ready := start (badRecord.encode ++ sampleRecord.encode)
  obtain ⟨reader, processed, consistent, minimal, left⟩ :=
    process_with_decode ready.consistent (@reads_idx_full_block badRecord canonical) (by omega)
      (encode_list_ne_nil _) badFits ready.unread
  have first : next readMemory parser =
      (some (.error (.rlp (.custom "invalid receipt status"))), ⟨reader, false⟩) :=
    next_conversion_error readMemory rfl processed refused
  have following : Ready 250 ⟨reader, false⟩ (sampleRecord.encode ++ []) :=
    ⟨rfl, consistent, minimal, by rw [List.append_nil, left]⟩
  have second := (next_block following canonical converts fits (by decide)).1
  have answers : results readMemory 2 parser =
      [some (.error (.rlp (.custom "invalid receipt status"))), some (.ok sampleBlock)] := by
    rw [results, results, results, first, second]
  refine ⟨answers, ?_⟩
  intro stops
  have nothing := stops 2 0 1 _ _ (by decide) (by rw [answers]; rfl) (by rw [answers]; rfl)
  cases nothing

end Bertha.ParserErrors
