import Mathlib.Data.Set.Finite.Lattice
import Mathlib.Data.Fintype.EquivFin
import Mathlib.Logic.Relation

/-!
# Unbounded loops

A loop whose body either goes on with a new state or ends with a result, run with a
number of rounds as fuel. A loop ends when some fuel is enough. When what a round does is
determined by a view of the state, and only finitely many views can go on, the loop fails
to end exactly if its views come around in a cycle.
-/

namespace Bertha.Loops

open Relation

set_option autoImplicit false

variable {State Result View : Type*}

inductive Round (State Result : Type*) where
  | next (state : State)
  | done (result : Result)

def runLoop (body : State → Round State Result) : Nat → State → Option Result
  | 0, _ => none
  | fuel + 1, state =>
    match body state with
    | .next state => runLoop body fuel state
    | .done result => some result

def Ends (body : State → Round State Result) (state : State) : Prop :=
  ∃ fuel result, runLoop body fuel state = some result

theorem run_loop_next {body : State → Round State Result} {state next : State}
    (goesOn : body state = .next next) (fuel : Nat) :
    runLoop body (fuel + 1) state = runLoop body fuel next := by
  simp only [runLoop, goesOn]

theorem run_loop_done {body : State → Round State Result} {state : State} {result : Result}
    (stops : body state = .done result) (fuel : Nat) :
    runLoop body (fuel + 1) state = some result := by
  simp only [runLoop, stops]

theorem ends_next {body : State → Round State Result} {state next : State}
    (goesOn : body state = .next next) : Ends body state ↔ Ends body next := by
  constructor
  · rintro ⟨fuel, result, returned⟩
    cases fuel with
    | zero => cases returned
    | succ fuel =>
        rw [run_loop_next goesOn] at returned
        exact ⟨fuel, result, returned⟩
  · rintro ⟨fuel, result, returned⟩
    refine ⟨fuel + 1, result, ?_⟩
    rwa [run_loop_next goesOn]

theorem ends_done {body : State → Round State Result} {state : State} {result : Result}
    (stops : body state = .done result) : Ends body state :=
  ⟨1, result, run_loop_done stops 0⟩

/-- What a round does to the states in the invariant, seen through their views: the loop
goes on from a state exactly if its view has a link, and then along that link. -/
structure Followed (body : State → Round State Result) (invariant : State → Prop)
    (view : State → View) (link : View → View → Prop) : Prop where
  next : ∀ {state next}, invariant state → body state = .next next →
    invariant next ∧ link (view state) (view next)
  linked : ∀ {state target}, invariant state → link (view state) target →
    ∃ next, body state = .next next ∧ view next = target

section Cycles

variable {body : State → Round State Result} {invariant : State → Prop} {view : State → View}
  {link : View → View → Prop}

/-- A cycle of links keeps the loop going. -/
theorem not_ends_of_cycle (followed : Followed body invariant view link) {state : State}
    (holds : invariant state) {start : View} (reached : ReflTransGen link (view state) start)
    (cycle : TransGen link start start) : ¬ Ends body state := by
  rintro ⟨fuel, result, returned⟩
  induction fuel generalizing state start with
  | zero => cases returned
  | succ fuel ih =>
      -- From any view on the way or on the cycle there is a next link.
      have onward : ∃ target, link (view state) target ∧
          ∃ start, ReflTransGen link target start ∧ TransGen link start start := by
        rcases ReflTransGen.cases_head reached with here | ⟨target, first, rest⟩
        · subst here
          obtain ⟨target, first, rest⟩ := TransGen.head'_iff.mp cycle
          exact ⟨target, first, view state, rest, cycle⟩
        · exact ⟨target, first, start, rest, cycle⟩
      obtain ⟨target, first, later, rest, again⟩ := onward
      obtain ⟨next, goesOn, viewed⟩ := followed.linked holds first
      rw [run_loop_next goesOn] at returned
      rw [← viewed] at rest
      exact ih (followed.next holds goesOn).1 rest again returned

private theorem next_of_not_ends {state : State} (endless : ¬ Ends body state) :
    ∃ next, body state = .next next ∧ ¬ Ends body next := by
  cases outcome : body state with
  | next next => exact ⟨next, rfl, fun ends => endless ((ends_next outcome).mpr ends)⟩
  | done result => exact absurd (ends_done outcome) endless

/-- A loop that never ends and has finitely many views to go on from repeats a view. -/
theorem cycle_of_not_ends (followed : Followed body invariant view link) {state : State}
    (holds : invariant state) (finite : {source | ∃ target, link source target}.Finite)
    (endless : ¬ Ends body state) :
    ∃ start, ReflTransGen link (view state) start ∧ TransGen link start start := by
  classical
  let Endless := { state : State // invariant state ∧ ¬ Ends body state }
  have step : ∀ state : Endless, ∃ next : Endless, link (view state.1) (view next.1) := by
    rintro ⟨state, holds, endless⟩
    obtain ⟨next, goesOn, later⟩ := next_of_not_ends endless
    obtain ⟨kept, linked⟩ := followed.next holds goesOn
    exact ⟨⟨next, kept, later⟩, linked⟩
  choose advance linked using step
  let run : Nat → Endless := fun count => advance^[count] ⟨state, holds, endless⟩
  have linkedRun : ∀ count, link (view (run count).1) (view (run (count + 1)).1) := by
    intro count
    have unfold_run : run (count + 1) = advance (run count) :=
      Function.iterate_succ_apply' advance count _
    rw [unfold_run]
    exact linked (run count)
  have forward : ∀ first later, first ≤ later →
      ReflTransGen link (view (run first).1) (view (run later).1) := by
    intro first later ordered
    induction later, ordered using Nat.le_induction with
    | base => exact .refl
    | succ later _ ih => exact ih.tail (linkedRun later)
  have repeated : ¬ Function.Injective fun count => view (run count).1 := by
    intro injective
    have inside : Set.range (fun count => view (run count).1) ⊆
        {source | ∃ target, link source target} := by
      rintro _ ⟨count, rfl⟩
      exact ⟨_, linkedRun count⟩
    exact Set.infinite_range_of_injective injective (finite.subset inside)
  obtain ⟨first, later, same, differs⟩ := Function.not_injective_iff.mp repeated
  have around : ∀ low high, low < high → view (run low).1 = view (run high).1 →
      TransGen link (view (run low).1) (view (run low).1) := by
    intro low high ordered meets
    have rest := forward (low + 1) high ordered
    rw [← meets] at rest
    exact TransGen.head' (linkedRun low) rest
  rcases Nat.lt_or_gt_of_ne differs with ordered | ordered
  · exact ⟨_, forward 0 first (Nat.zero_le _), around first later ordered same⟩
  · exact ⟨_, forward 0 later (Nat.zero_le _), around later first ordered same.symm⟩

theorem ends_iff_no_cycle (followed : Followed body invariant view link) {state : State}
    (holds : invariant state) (finite : {source | ∃ target, link source target}.Finite) :
    Ends body state ↔
      ¬ ∃ start, ReflTransGen link (view state) start ∧ TransGen link start start := by
  constructor
  · rintro ends ⟨start, reached, cycle⟩
    exact not_ends_of_cycle followed holds reached cycle ends
  · intro acyclic
    by_contra endless
    exact acyclic (cycle_of_not_ends followed holds finite endless)

end Cycles

end Bertha.Loops
