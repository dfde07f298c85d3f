import Bertha.GenesisMetadata

/-!
# When parsing the metadata ends

Each unit of a genesis file sends the reader on by its compressed size. The size is a `u64`
that is used as a signed offset, so a unit can send the reader back, also to a unit that has
been read before. The loop of `parse_metadata` ends for exactly the files whose units,
followed from the start, never lead back to one of them.
-/

namespace Bertha.GenesisWalk

open Relation
open Bertha.BigEndian Bertha.BlockTypes Bertha.GenesisMetadata Bertha.GenesisUnits Bertha.Loops

set_option autoImplicit false

/-- The unit at `position` has the given header and sends the reader to `target`. -/
def SendsTo (data : Bytes) (header : GenesisHeader) (position target : Nat) : Prop :=
  ∃ unit unitEnd, UnitAt data position unit unitEnd ∧ unit.header = header ∧
    (target : Int) = (unitEnd + 48 : Nat) + asI64 (sizeAt data (unitEnd + 32)) ∧
    target < 2 ^ 64

/-- Following the units from the start of the file leads back to one of them. -/
def LeadsBack (data : Bytes) : Prop :=
  ∃ header start, ReflTransGen (SendsTo data header) 0 start ∧
    TransGen (SendsTo data header) start start

variable {data : Bytes} {header : GenesisHeader}

theorem unit_at_within {position unitEnd : Nat} {unit : GenesisUnit}
    (found : UnitAt data position unit unitEnd) : position < data.length := by
  have length := congrArg List.length found.header
  rw [List.length_take, List.length_drop] at length
  simp only [fileHeader, List.length_cons, List.length_nil] at length
  omega

theorem unit_at_unique {position leftEnd rightEnd : Nat} {left right : GenesisUnit}
    (first : UnitAt data position left leftEnd) (second : UnitAt data position right rightEnd) :
    left = right := by
  obtain ⟨_, decoded, -⟩ := first.decoded
  obtain ⟨_, again, -⟩ := second.decoded
  rw [decoded] at again
  exact congrArg Prod.fst (Except.ok.inj again)

theorem sends_to_sources_finite :
    {source | ∃ target, SendsTo data header source target}.Finite := by
  apply (Set.finite_lt_nat data.length).subset
  rintro source ⟨target, unit, unitEnd, found, -⟩
  exact unit_at_within found

theorem round_of_unit {state : ParseState} {unit : GenesisUnit} {unitEnd target : Nat}
    (found : UnitAt data state.position unit unitEnd)
    (agrees : ∀ earlier, state.header = some earlier → earlier = unit.header)
    (placed : (target : Int) = (unitEnd + 48 : Nat) + asI64 (sizeAt data (unitEnd + 32)))
    (bounded : target < 2 ^ 64) :
    ∃ next, parseRound data state = .next next ∧ next.header = some unit.header ∧
      next.position = target := by
  let next : ParseState :=
    { header := some unit.header
      units := state.units.insert unit.unitName (descriptorAt data unitEnd)
      position := target }
  refine ⟨next, parse_round_next_iff.mpr ⟨unit_at_within found, ?_⟩, rfl, rfl⟩
  exact parse_iteration_iff.mpr ⟨unit, unitEnd, found, agrees, placed, bounded, rfl, rfl⟩

/-- Once a header is known, the position alone decides how the loop goes on. -/
theorem rounds_followed :
    Followed (parseRound data) (fun state => state.header = some header) ParseState.position
      (SendsTo data header) := by
  constructor
  · intro state next known goesOn
    obtain ⟨-, parsed⟩ := parse_round_next_iff.mp goesOn
    obtain ⟨unit, unitEnd, found, agrees, placed, bounded, kept, -⟩ :=
      parse_iteration_iff.mp parsed
    have same := agrees header known
    exact ⟨by rw [kept, same], unit, unitEnd, found, same.symm, placed, bounded⟩
  · rintro state target known ⟨unit, unitEnd, found, same, placed, bounded⟩
    have agrees : ∀ earlier, state.header = some earlier → earlier = unit.header := by
      intro earlier present
      rw [known, ← same] at present
      exact (Option.some.inj present).symm
    obtain ⟨next, goesOn, -, moved⟩ := round_of_unit found agrees placed bounded
    exact ⟨next, goesOn, moved⟩

theorem ends_initial_iff {next : ParseState} {unit : GenesisUnit} {unitEnd : Nat}
    (found : UnitAt data 0 unit unitEnd)
    (placed : (next.position : Int) = (unitEnd + 48 : Nat) + asI64 (sizeAt data (unitEnd + 32)))
    (bounded : next.position < 2 ^ 64) (kept : next.header = some unit.header)
    (units : next.units = initialState.units.insert unit.unitName (descriptorAt data unitEnd)) :
    Ends (parseRound data) initialState ↔
      Ends (parseRound data) { initialState with header := some unit.header } := by
  have within := unit_at_within found
  have first : parseRound data initialState = .next next :=
    parse_round_next_iff.mpr ⟨within, parse_iteration_iff.mpr
      ⟨unit, unitEnd, found, (by rintro _ ⟨⟩), placed, bounded, kept, units⟩⟩
  have known : parseRound data { initialState with header := some unit.header } = .next next :=
    parse_round_next_iff.mpr ⟨within, parse_iteration_iff.mpr
      ⟨unit, unitEnd, found, (by rintro _ ⟨⟩; rfl), placed, bounded, kept, units⟩⟩
  rw [ends_next first, ends_next known]

theorem leads_back_first {start : Nat} (reached : ReflTransGen (SendsTo data header) 0 start)
    (cycle : TransGen (SendsTo data header) start start) :
    ∃ target, SendsTo data header 0 target := by
  rcases ReflTransGen.cases_head reached with here | ⟨target, first, -⟩
  · subst here
    obtain ⟨target, first, -⟩ := TransGen.head'_iff.mp cycle
    exact ⟨target, first⟩
  · exact ⟨target, first⟩

/-- The loop of `parse_metadata` ends, with a result or an error, for exactly the files whose
units do not lead back to one that has been read. -/
theorem parse_metadata_ends_iff (data : Bytes) :
    (∃ fuel result, parseMetadata fuel data = some result) ↔ ¬ LeadsBack data := by
  change Ends (parseRound data) initialState ↔ _
  cases outcome : parseRound data initialState with
  | done result =>
      refine iff_of_true (ends_done outcome) ?_
      rintro ⟨header, start, reached, cycle⟩
      obtain ⟨target, unit, unitEnd, found, same, placed, bounded⟩ :=
        leads_back_first reached cycle
      obtain ⟨next, goesOn, -⟩ := @round_of_unit data initialState _ _ _ found
        (by rintro _ ⟨⟩) placed bounded
      rw [outcome] at goesOn
      cases goesOn
  | next next =>
      obtain ⟨-, parsed⟩ := parse_round_next_iff.mp outcome
      obtain ⟨unit, unitEnd, found, -, placed, bounded, kept, units⟩ :=
        parse_iteration_iff.mp parsed
      rw [ends_initial_iff found placed bounded kept units,
        ends_iff_no_cycle rounds_followed rfl sends_to_sources_finite]
      apply not_congr
      constructor
      · rintro ⟨start, reached, cycle⟩
        exact ⟨unit.header, start, reached, cycle⟩
      · rintro ⟨header, start, reached, cycle⟩
        obtain ⟨_, other, _, again, same, -⟩ := leads_back_first reached cycle
        have header_eq : unit.header = header := by
          rw [unit_at_unique found again, same]
        rw [header_eq]
        exact ⟨start, reached, cycle⟩

def returningFile : Bytes :=
  let unit : GenesisUnit := ⟨"brs", ⟨FixedBytes.zero 32, 146, "sonic"⟩⟩
  fileHeader ++ fileVersion ++ unit.encode ++ List.replicate 32 0 ++
    encodeBE 8 (2 ^ 64 - (unit.encode.length + 56)) ++ encodeBE 8 0

theorem parse_metadata_returning_file :
    ¬ ∃ fuel result, parseMetadata fuel returningFile = some result := by
  let unit : GenesisUnit := ⟨"brs", ⟨FixedBytes.zero 32, 146, "sonic"⟩⟩
  have length : unit.encode.length = 47 := by decide +kernel
  have buffer : unitBuffer returningFile 8 = unit.encode ++ returningFile.drop 55 := by
    decide +kernel
  have found : UnitAt returningFile 0 unit 55 := by
    refine ⟨by decide +kernel, by decide +kernel, ⟨returningFile.drop 55, ?_, ?_⟩,
      by decide, by decide +kernel⟩
    · rw [Nat.zero_add, buffer]
      exact reads_unit unit (by omega) _
    · decide +kernel
  have placed : ((0 : Nat) : Int) = (55 + 48 : Nat) + asI64 (sizeAt returningFile (55 + 32)) := by
    decide +kernel
  have back : SendsTo returningFile unit.header 0 0 :=
    ⟨unit, 55, found, rfl, placed, by decide⟩
  obtain ⟨next, goesOn, kept, moved⟩ := @round_of_unit returningFile initialState unit 55 0 found
    (by rintro _ ⟨⟩) placed (by decide)
  intro ends
  have later : Ends (parseRound returningFile) next := (ends_next goesOn).mp ends
  have reached : ReflTransGen (SendsTo returningFile unit.header) next.position 0 := by
    rw [moved]
  exact not_ends_of_cycle rounds_followed kept reached (.single back) later

end Bertha.GenesisWalk
