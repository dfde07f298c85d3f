import Mathlib

/-!
# Three stages over two bounded channels

A source, a worker and a sink that run concurrently. The source sends what it makes of its
items to the worker over a bounded channel, and the worker sends its results to the sink
over another. A stage that fails stores the issue and closes an abort channel, which the
sends select on. The channels are closed by the stage that sends, as it exits.

No reachable state is stuck, every run is finite, and a run in which all stages have exited
has an issue exactly if the sequential loop over the same stages fails. Without an issue it
leaves the states of that loop.
-/

namespace Bertha.Pipeline

set_option autoImplicit false

variable {Item Input Output Issue Work Finish : Type*}

/-- What the stages do with one item. The worker and the sink each have a state. -/
structure Stages (Item Input Output Issue Work Finish : Type*) where
  produce : Item → Except Issue Input
  work : Work → Input → Work × Except Issue Output
  finish : Finish → Output → Finish × Except Issue Unit

/-- The loop that takes each item through all stages before the next. -/
def runLoop (stages : Stages Item Input Output Issue Work Finish) (work : Work)
    (finish : Finish) : List Item → Work × Finish × Except Issue Unit
  | [] => (work, finish, .ok ())
  | item :: rest =>
      match stages.produce item with
      | .error issue => (work, finish, .error issue)
      | .ok input =>
          match stages.work work input with
          | (work, .error issue) => (work, finish, .error issue)
          | (work, .ok output) =>
              match stages.finish finish output with
              | (finish, .error issue) => (work, finish, .error issue)
              | (finish, .ok ()) => runLoop stages work finish rest

inductive Source (Item Input Issue : Type*) where
  | reading (rest : List Item)
  | sending (input : Input) (rest : List Item)
  | storing (issue : Issue)
  | aborting
  | closing
  | exited

inductive Worker (Input Output Issue : Type*) where
  | receiving
  | working (input : Input)
  | sending (output : Output)
  | storing (issue : Issue)
  | aborting
  | closing
  | exited

inductive Sink (Output Issue : Type*) where
  | receiving
  | working (output : Output)
  | storing (issue : Issue)
  | aborting
  | exited

structure Config (Item Input Output Issue Work Finish : Type*) where
  source : Source Item Input Issue
  worker : Worker Input Output Issue
  sink : Sink Output Issue
  inputs : List Input
  inputsClosed : Bool
  outputs : List Output
  outputsClosed : Bool
  abort : Bool
  issue : Option Issue
  work : Work
  finish : Finish

inductive Stage where
  | source
  | worker
  | sink
deriving DecidableEq, Repr

def start (items : List Item) (work : Work) (finish : Finish) :
    Config Item Input Output Issue Work Finish where
  source := .reading items
  worker := .receiving
  sink := .receiving
  inputs := []
  inputsClosed := false
  outputs := []
  outputsClosed := false
  abort := false
  issue := none
  work := work
  finish := finish

/-- One step of one stage. A select with two ready branches may take either. -/
inductive Step (stages : Stages Item Input Output Issue Work Finish)
    (inputCapacity outputCapacity : Nat) :
    Stage → Config Item Input Output Issue Work Finish →
      Config Item Input Output Issue Work Finish → Prop
  | produce {config : Config Item Input Output Issue Work Finish} {item : Item}
      {rest : List Item} {input : Input} (control : config.source = .reading (item :: rest))
      (produced : stages.produce item = .ok input) :
      Step stages inputCapacity outputCapacity .source config
        { config with source := .sending input rest }
  | produceFails {config : Config Item Input Output Issue Work Finish} {item : Item}
      {rest : List Item} {issue : Issue} (control : config.source = .reading (item :: rest))
      (failed : stages.produce item = .error issue) :
      Step stages inputCapacity outputCapacity .source config
        { config with source := .storing issue }
  | itemsEnd {config : Config Item Input Output Issue Work Finish}
      (control : config.source = .reading []) :
      Step stages inputCapacity outputCapacity .source config
        { config with source := .closing }
  | sendInput {config : Config Item Input Output Issue Work Finish} {input : Input}
      {rest : List Item} (control : config.source = .sending input rest)
      (room : config.inputs.length < inputCapacity) :
      Step stages inputCapacity outputCapacity .source config
        { config with source := .reading rest, inputs := config.inputs ++ [input] }
  | sendInputAborted {config : Config Item Input Output Issue Work Finish} {input : Input}
      {rest : List Item} (control : config.source = .sending input rest)
      (aborted : config.abort = true) :
      Step stages inputCapacity outputCapacity .source config
        { config with source := .closing }
  | sourceStores {config : Config Item Input Output Issue Work Finish} {issue : Issue}
      (control : config.source = .storing issue) :
      Step stages inputCapacity outputCapacity .source config
        { config with source := .aborting, issue := some issue }
  | sourceAborts {config : Config Item Input Output Issue Work Finish}
      (control : config.source = .aborting) :
      Step stages inputCapacity outputCapacity .source config
        { config with source := .closing, abort := true }
  | sourceCloses {config : Config Item Input Output Issue Work Finish}
      (control : config.source = .closing) :
      Step stages inputCapacity outputCapacity .source config
        { config with source := .exited, inputsClosed := true }
  | receiveInput {config : Config Item Input Output Issue Work Finish} {input : Input}
      {inputs : List Input} (control : config.worker = .receiving)
      (available : config.inputs = input :: inputs) :
      Step stages inputCapacity outputCapacity .worker config
        { config with worker := .working input, inputs := inputs }
  | inputsEnd {config : Config Item Input Output Issue Work Finish}
      (control : config.worker = .receiving) (empty : config.inputs = [])
      (closed : config.inputsClosed = true) :
      Step stages inputCapacity outputCapacity .worker config
        { config with worker := .closing }
  | work {config : Config Item Input Output Issue Work Finish} {input : Input} {output : Output}
      {work : Work} (control : config.worker = .working input)
      (worked : stages.work config.work input = (work, .ok output)) :
      Step stages inputCapacity outputCapacity .worker config
        { config with worker := .sending output, work := work }
  | workFails {config : Config Item Input Output Issue Work Finish} {input : Input}
      {issue : Issue} {work : Work} (control : config.worker = .working input)
      (failed : stages.work config.work input = (work, .error issue)) :
      Step stages inputCapacity outputCapacity .worker config
        { config with worker := .storing issue, work := work }
  | sendOutput {config : Config Item Input Output Issue Work Finish} {output : Output}
      (control : config.worker = .sending output)
      (room : config.outputs.length < outputCapacity) :
      Step stages inputCapacity outputCapacity .worker config
        { config with worker := .receiving, outputs := config.outputs ++ [output] }
  | sendOutputAborted {config : Config Item Input Output Issue Work Finish} {output : Output}
      (control : config.worker = .sending output) (aborted : config.abort = true) :
      Step stages inputCapacity outputCapacity .worker config
        { config with worker := .closing }
  | workerStores {config : Config Item Input Output Issue Work Finish} {issue : Issue}
      (control : config.worker = .storing issue) :
      Step stages inputCapacity outputCapacity .worker config
        { config with worker := .aborting, issue := some issue }
  | workerAborts {config : Config Item Input Output Issue Work Finish}
      (control : config.worker = .aborting) :
      Step stages inputCapacity outputCapacity .worker config
        { config with worker := .closing, abort := true }
  | workerCloses {config : Config Item Input Output Issue Work Finish}
      (control : config.worker = .closing) :
      Step stages inputCapacity outputCapacity .worker config
        { config with worker := .exited, outputsClosed := true }
  | receiveOutput {config : Config Item Input Output Issue Work Finish} {output : Output}
      {outputs : List Output} (control : config.sink = .receiving)
      (available : config.outputs = output :: outputs) :
      Step stages inputCapacity outputCapacity .sink config
        { config with sink := .working output, outputs := outputs }
  | outputsEnd {config : Config Item Input Output Issue Work Finish}
      (control : config.sink = .receiving) (empty : config.outputs = [])
      (closed : config.outputsClosed = true) :
      Step stages inputCapacity outputCapacity .sink config { config with sink := .exited }
  | finish {config : Config Item Input Output Issue Work Finish} {output : Output}
      {finish : Finish} (control : config.sink = .working output)
      (finished : stages.finish config.finish output = (finish, .ok ())) :
      Step stages inputCapacity outputCapacity .sink config
        { config with sink := .receiving, finish := finish }
  | finishFails {config : Config Item Input Output Issue Work Finish} {output : Output}
      {issue : Issue} {finish : Finish} (control : config.sink = .working output)
      (failed : stages.finish config.finish output = (finish, .error issue)) :
      Step stages inputCapacity outputCapacity .sink config
        { config with sink := .storing issue, finish := finish }
  | sinkStores {config : Config Item Input Output Issue Work Finish} {issue : Issue}
      (control : config.sink = .storing issue) :
      Step stages inputCapacity outputCapacity .sink config
        { config with sink := .aborting, issue := some issue }
  | sinkAborts {config : Config Item Input Output Issue Work Finish}
      (control : config.sink = .aborting) :
      Step stages inputCapacity outputCapacity .sink config
        { config with sink := .exited, abort := true }

inductive Reachable (stages : Stages Item Input Output Issue Work Finish)
    (inputCapacity outputCapacity : Nat) (items : List Item) (work : Work) (finish : Finish) :
    Config Item Input Output Issue Work Finish → Prop
  | start : Reachable stages inputCapacity outputCapacity items work finish
      (start items work finish)
  | step {stage : Stage} {config next : Config Item Input Output Issue Work Finish}
      (reached : Reachable stages inputCapacity outputCapacity items work finish config)
      (step : Step stages inputCapacity outputCapacity stage config next) :
      Reachable stages inputCapacity outputCapacity items work finish next

def AllExited (config : Config Item Input Output Issue Work Finish) : Prop :=
  config.source = .exited ∧ config.worker = .exited ∧ config.sink = .exited

/-! ## Progress -/

/-- Channels are closed by the exit of the stage that sends on them, and a stage leaves early
only after an abort. -/
structure Orderly (config : Config Item Input Output Issue Work Finish) : Prop where
  inputsClosed : config.inputsClosed = true ↔ config.source = .exited
  outputsClosed : config.outputsClosed = true ↔ config.worker = .exited
  workerLeft : config.worker = .closing ∨ config.worker = .exited →
    config.abort = true ∨ config.inputsClosed = true
  sinkLeft : config.sink = .exited → config.abort = true ∨ config.outputsClosed = true

section Progress

variable {stages : Stages Item Input Output Issue Work Finish} {inputCapacity outputCapacity : Nat}
variable {config next : Config Item Input Output Issue Work Finish} {stage : Stage}

theorem start_orderly (items : List Item) (work : Work) (finish : Finish) :
    Orderly (start items work finish : Config Item Input Output Issue Work Finish) := by
  constructor <;> simp [start]

theorem Orderly.step (orderly : Orderly config)
    (step : Step stages inputCapacity outputCapacity stage config next) : Orderly next := by
  obtain ⟨inputsClosed, outputsClosed, workerLeft, sinkLeft⟩ := orderly
  cases step <;> constructor <;> simp_all

theorem reachable_orderly {items : List Item} {work : Work} {finish : Finish}
    (reached : Reachable stages inputCapacity outputCapacity items work finish config) :
    Orderly config := by
  induction reached with
  | start => exact start_orderly items work finish
  | step _ step ih => exact ih.step step

theorem source_enabled (running : config.source ≠ .exited)
    (room : config.inputs.length < inputCapacity ∨ config.abort = true) :
    ∃ next, Step stages inputCapacity outputCapacity .source config next := by
  cases control : config.source with
  | reading rest =>
      cases rest with
      | nil => exact ⟨_, .itemsEnd control⟩
      | cons item rest =>
          cases produced : stages.produce item with
          | error issue => exact ⟨_, .produceFails control produced⟩
          | ok input => exact ⟨_, .produce control produced⟩
  | sending input rest =>
      rcases room with free | aborted
      · exact ⟨_, .sendInput control free⟩
      · exact ⟨_, .sendInputAborted control aborted⟩
  | storing issue => exact ⟨_, .sourceStores control⟩
  | aborting => exact ⟨_, .sourceAborts control⟩
  | closing => exact ⟨_, .sourceCloses control⟩
  | exited => exact absurd control running

theorem worker_enabled (running : config.worker ≠ .exited)
    (room : config.outputs.length < outputCapacity ∨ config.abort = true) :
    (∃ next, Step stages inputCapacity outputCapacity .worker config next) ∨
      (config.worker = .receiving ∧ config.inputs = [] ∧ config.inputsClosed = false) := by
  cases control : config.worker with
  | receiving =>
      cases available : config.inputs with
      | cons input inputs => exact Or.inl ⟨_, .receiveInput control available⟩
      | nil =>
          cases closed : config.inputsClosed with
          | true => exact Or.inl ⟨_, .inputsEnd control available closed⟩
          | false => exact Or.inr ⟨rfl, rfl, rfl⟩
  | working input =>
      apply Or.inl
      rcases worked : stages.work config.work input with ⟨work, issue | output⟩
      · exact ⟨_, .workFails control worked⟩
      · exact ⟨_, .work control worked⟩
  | sending output =>
      apply Or.inl
      rcases room with free | aborted
      · exact ⟨_, .sendOutput control free⟩
      · exact ⟨_, .sendOutputAborted control aborted⟩
  | storing issue => exact Or.inl ⟨_, .workerStores control⟩
  | aborting => exact Or.inl ⟨_, .workerAborts control⟩
  | closing => exact Or.inl ⟨_, .workerCloses control⟩
  | exited => exact absurd control running

theorem sink_enabled (running : config.sink ≠ .exited) :
    (∃ next, Step stages inputCapacity outputCapacity .sink config next) ∨
      (config.sink = .receiving ∧ config.outputs = [] ∧ config.outputsClosed = false) := by
  cases control : config.sink with
  | receiving =>
      cases available : config.outputs with
      | cons output outputs => exact Or.inl ⟨_, .receiveOutput control available⟩
      | nil =>
          cases closed : config.outputsClosed with
          | true => exact Or.inl ⟨_, .outputsEnd control available closed⟩
          | false => exact Or.inr ⟨rfl, rfl, rfl⟩
  | working output =>
      apply Or.inl
      rcases finished : stages.finish config.finish output with ⟨finish, issue | _⟩
      · exact ⟨_, .finishFails control finished⟩
      · exact ⟨_, .finish control finished⟩
  | storing issue => exact Or.inl ⟨_, .sinkStores control⟩
  | aborting => exact Or.inl ⟨_, .sinkAborts control⟩
  | exited => exact absurd control running

/-- No stage waits in a cycle: the sink waits for the worker, the worker for the source or
for the sink, and one of them can go on. -/
theorem Orderly.progress (orderly : Orderly config) (inputRoom : 0 < inputCapacity)
    (outputRoom : 0 < outputCapacity) (running : ¬ AllExited config) :
    ∃ stage next, Step stages inputCapacity outputCapacity stage config next := by
  have workerOrSource (notWorker : config.worker ≠ .exited)
      (room : config.outputs.length < outputCapacity ∨ config.abort = true) :
      ∃ stage next, Step stages inputCapacity outputCapacity stage config next := by
    rcases @worker_enabled _ _ _ _ _ _ stages inputCapacity _ _ notWorker room with
      enabled | ⟨_, empty, closed⟩
    · exact ⟨.worker, enabled⟩
    · have notSource : config.source ≠ .exited := by
        intro gone
        rw [← orderly.inputsClosed, closed] at gone
        cases gone
      refine ⟨.source, source_enabled notSource (Or.inl ?_)⟩
      rw [empty]
      exact inputRoom
  by_cases sinkGone : config.sink = .exited
  · by_cases workerGone : config.worker = .exited
    · have notSource : config.source ≠ .exited := fun gone => running ⟨gone, workerGone, sinkGone⟩
      have aborted : config.abort = true := by
        rcases orderly.workerLeft (Or.inr workerGone) with aborted | closed
        · exact aborted
        · exact absurd (orderly.inputsClosed.mp closed) notSource
      exact ⟨.source, source_enabled notSource (Or.inr aborted)⟩
    · have aborted : config.abort = true := by
        rcases orderly.sinkLeft sinkGone with aborted | closed
        · exact aborted
        · exact absurd (orderly.outputsClosed.mp closed) workerGone
      exact workerOrSource workerGone (Or.inr aborted)
  · rcases @sink_enabled _ _ _ _ _ _ stages inputCapacity outputCapacity _ sinkGone with
      enabled | ⟨_, empty, closed⟩
    · exact ⟨.sink, enabled⟩
    · have notWorker : config.worker ≠ .exited := by
        intro gone
        rw [← orderly.outputsClosed, closed] at gone
        cases gone
      apply workerOrSource notWorker
      rw [empty]
      exact Or.inl outputRoom

/-- After an abort no send blocks, and a stage that still waits for an input waits for a
stage before it that has not exited. -/
theorem Orderly.after_abort (orderly : Orderly config) (aborted : config.abort = true) :
    (config.source ≠ .exited →
      ∃ next, Step stages inputCapacity outputCapacity .source config next) ∧
    (config.worker ≠ .exited →
      (∃ next, Step stages inputCapacity outputCapacity .worker config next) ∨
        config.worker = .receiving ∧ config.source ≠ .exited) ∧
    (config.sink ≠ .exited →
      (∃ next, Step stages inputCapacity outputCapacity .sink config next) ∨
        config.sink = .receiving ∧ config.worker ≠ .exited) := by
  refine ⟨?_, ?_, ?_⟩
  · intro running
    exact source_enabled running (Or.inr aborted)
  · intro running
    rcases @worker_enabled _ _ _ _ _ _ stages inputCapacity outputCapacity _ running
      (Or.inr aborted) with enabled | ⟨waiting, _, closed⟩
    · exact Or.inl enabled
    · refine Or.inr ⟨waiting, fun gone => ?_⟩
      rw [← orderly.inputsClosed, closed] at gone
      cases gone
  · intro running
    rcases @sink_enabled _ _ _ _ _ _ stages inputCapacity outputCapacity _ running with
      enabled | ⟨waiting, _, closed⟩
    · exact Or.inl enabled
    · refine Or.inr ⟨waiting, fun gone => ?_⟩
      rw [← orderly.outputsClosed, closed] at gone
      cases gone

end Progress

/-! ## Termination -/

def Source.weight : Source Item Input Issue → Nat
  | .reading rest => 8 * rest.length + 4
  | .sending _ rest => 8 * rest.length + 11
  | .storing _ => 3
  | .aborting => 2
  | .closing => 1
  | .exited => 0

def Worker.weight : Worker Input Output Issue → Nat
  | .receiving => 4
  | .working _ => 9
  | .sending _ => 8
  | .storing _ => 3
  | .aborting => 2
  | .closing => 1
  | .exited => 0

def Sink.weight : Sink Output Issue → Nat
  | .receiving => 3
  | .working _ => 5
  | .storing _ => 2
  | .aborting => 1
  | .exited => 0

/-- A bound on the steps that are left. -/
def Config.weight (config : Config Item Input Output Issue Work Finish) : Nat :=
  config.source.weight + 6 * config.inputs.length + config.worker.weight +
    3 * config.outputs.length + config.sink.weight

theorem step_weight {stages : Stages Item Input Output Issue Work Finish}
    {inputCapacity outputCapacity : Nat} {stage : Stage}
    {config next : Config Item Input Output Issue Work Finish}
    (step : Step stages inputCapacity outputCapacity stage config next) :
    next.weight < config.weight := by
  cases step <;>
    simp_all [Config.weight, Source.weight, Worker.weight, Sink.weight] <;> omega

theorem runs_finite {stages : Stages Item Input Output Issue Work Finish}
    {inputCapacity outputCapacity : Nat} (run : Nat → Config Item Input Output Issue Work Finish)
    (steps : ∀ index, ∃ stage,
      Step stages inputCapacity outputCapacity stage (run index) (run (index + 1))) : False := by
  have bound : ∀ index, (run index).weight + index ≤ (run 0).weight := by
    intro index
    induction index with
    | zero => exact Nat.le_refl _
    | succ index ih =>
        obtain ⟨stage, step⟩ := steps index
        have smaller := step_weight step
        omega
  have tooLong := bound ((run 0).weight + 1)
  omega

theorem exit_reachable {stages : Stages Item Input Output Issue Work Finish}
    {inputCapacity outputCapacity : Nat} (inputRoom : 0 < inputCapacity)
    (outputRoom : 0 < outputCapacity) {items : List Item} {work : Work} {finish : Finish}
    {config : Config Item Input Output Issue Work Finish}
    (reached : Reachable stages inputCapacity outputCapacity items work finish config) :
    ∃ last, Reachable stages inputCapacity outputCapacity items work finish last ∧
      AllExited last := by
  induction weightEq : config.weight using Nat.strong_induction_on generalizing config with
  | _ weight ih =>
      by_cases exited : AllExited config
      · exact ⟨config, reached, exited⟩
      · obtain ⟨stage, next, step⟩ :=
          (reachable_orderly reached).progress inputRoom outputRoom exited
        exact ih next.weight (weightEq ▸ step_weight step) (reached.step step) rfl

/-! ## The sequential loop -/

/-- The stages one at a time, each over all of what the stage before made. -/
inductive Works (stages : Stages Item Input Output Issue Work Finish) :
    Work → List Input → List Output → Work → Prop
  | nil (work : Work) : Works stages work [] [] work
  | cons {work next last : Work} {input : Input} {output : Output} {inputs : List Input}
      {outputs : List Output} (worked : stages.work work input = (next, .ok output))
      (others : Works stages next inputs outputs last) :
      Works stages work (input :: inputs) (output :: outputs) last

inductive Finishes (stages : Stages Item Input Output Issue Work Finish) :
    Finish → List Output → Finish → Prop
  | nil (finish : Finish) : Finishes stages finish [] finish
  | cons {finish next last : Finish} {output : Output} {outputs : List Output}
      (finished : stages.finish finish output = (next, .ok ()))
      (others : Finishes stages next outputs last) :
      Finishes stages finish (output :: outputs) last

def Produces (stages : Stages Item Input Output Issue Work Finish) :
    List Item → List Input → Prop :=
  List.Forall₂ fun item input => stages.produce item = .ok input

section Sequential

variable {stages : Stages Item Input Output Issue Work Finish}
variable {work work' : Work} {finish finish' : Finish}

/-- The loop succeeds exactly if each stage does, over all items. -/
theorem run_loop_ok_iff {items : List Item} :
    runLoop stages work finish items = (work', finish', .ok ()) ↔
      ∃ inputs outputs, Produces stages items inputs ∧ Works stages work inputs outputs work' ∧
        Finishes stages finish outputs finish' := by
  induction items generalizing work finish with
  | nil =>
      rw [runLoop]
      constructor
      · intro finished
        cases finished
        exact ⟨[], [], .nil, .nil _, .nil _⟩
      · rintro ⟨inputs, outputs, produced, worked, finished⟩
        cases produced
        cases worked
        cases finished
        rfl
  | cons item rest ih =>
      constructor
      · intro looped
        rw [runLoop] at looped
        split at looped
        · cases looped
        · rename_i input produced
          split at looped
          · cases looped
          · rename_i next output worked
            split at looped
            · cases looped
            · rename_i after finished
              obtain ⟨inputs, outputs, othersProduced, othersWorked, othersFinished⟩ :=
                ih.mp looped
              exact ⟨input :: inputs, output :: outputs, .cons produced othersProduced,
                .cons worked othersWorked, .cons finished othersFinished⟩
      · rintro ⟨inputs, outputs, produced, worked, finished⟩
        cases produced with
        | cons producedFirst othersProduced =>
            cases worked with
            | cons workedFirst othersWorked =>
                cases finished with
                | cons finishedFirst othersFinished =>
                    rw [runLoop, producedFirst]
                    dsimp only
                    rw [workedFirst]
                    dsimp only
                    rw [finishedFirst]
                    exact ih.mpr ⟨_, _, othersProduced, othersWorked, othersFinished⟩

theorem Works.snoc {inputs : List Input} {outputs : List Output} {input : Input}
    {output : Output} {next : Work} (worked : Works stages work inputs outputs work')
    (more : stages.work work' input = (next, .ok output)) :
    Works stages work (inputs ++ [input]) (outputs ++ [output]) next := by
  induction worked with
  | nil work => exact .cons more (.nil _)
  | cons first _ ih => exact .cons first (ih more)

theorem Finishes.snoc {outputs : List Output} {output : Output} {next : Finish}
    (finished : Finishes stages finish outputs finish')
    (more : stages.finish finish' output = (next, .ok ())) :
    Finishes stages finish (outputs ++ [output]) next := by
  induction finished with
  | nil finish => exact .cons more (.nil _)
  | cons first _ ih => exact .cons first (ih more)

theorem Produces.snoc {items : List Item} {inputs : List Input} {item : Item} {input : Input}
    (produced : Produces stages items inputs) (more : stages.produce item = .ok input) :
    Produces stages (items ++ [item]) (inputs ++ [input]) := by
  induction produced with
  | nil => exact .cons more .nil
  | cons first _ ih => exact .cons first ih

theorem Works.continues {inputs more : List Input} {outputs all : List Output} {last : Work}
    (worked : Works stages work inputs outputs work')
    (whole : Works stages work (inputs ++ more) all last) :
    ∃ others, all = outputs ++ others ∧ Works stages work' more others last := by
  induction worked generalizing all with
  | nil work => exact ⟨all, rfl, whole⟩
  | cons first _ ih =>
      rw [List.cons_append] at whole
      cases whole with
      | cons sameFirst others =>
          rw [first] at sameFirst
          cases sameFirst
          obtain ⟨rest, allEq, continued⟩ := ih others
          exact ⟨rest, by rw [allEq, List.cons_append], continued⟩

theorem Finishes.continues {outputs more : List Output} {last : Finish}
    (finished : Finishes stages finish outputs finish')
    (whole : Finishes stages finish (outputs ++ more) last) :
    Finishes stages finish' more last := by
  induction finished with
  | nil finish => exact whole
  | cons first _ ih =>
      rw [List.cons_append] at whole
      cases whole with
      | cons sameFirst others =>
          rw [first] at sameFirst
          cases sameFirst
          exact ih others

theorem Produces.continues {items more : List Item} {inputs all : List Input}
    (produced : Produces stages items inputs) (whole : Produces stages (items ++ more) all) :
    ∃ others, all = inputs ++ others ∧ Produces stages more others := by
  induction produced generalizing all with
  | nil => exact ⟨all, rfl, whole⟩
  | cons first _ ih =>
      rw [List.cons_append] at whole
      cases whole with
      | cons sameFirst others =>
          rw [first] at sameFirst
          cases sameFirst
          obtain ⟨rest, allEq, continued⟩ := ih others
          exact ⟨rest, by rw [allEq, List.cons_append], continued⟩

theorem Produces.mem {items : List Item} {inputs : List Input} {item : Item}
    (produced : Produces stages items inputs) (member : item ∈ items) :
    ∃ input ∈ inputs, stages.produce item = .ok input := by
  induction produced with
  | nil => cases member
  | @cons head input _ _ first _ ih =>
      rcases List.mem_cons.mp member with rfl | later
      · exact ⟨input, List.mem_cons_self, first⟩
      · obtain ⟨other, otherMember, made⟩ := ih later
        exact ⟨other, List.mem_cons_of_mem _ otherMember, made⟩

end Sequential

/-! ## The pipeline follows the loop -/

def Source.rest : Source Item Input Issue → List Item
  | .reading rest => rest
  | .sending _ rest => rest
  | _ => []

def Source.held : Source Item Input Issue → List Input
  | .sending input _ => [input]
  | _ => []

def Source.failing : Source Item Input Issue → Bool
  | .storing _ => true
  | .aborting => true
  | _ => false

def Worker.taken : Worker Input Output Issue → List Input
  | .working input => [input]
  | _ => []

def Worker.held : Worker Input Output Issue → List Output
  | .sending output => [output]
  | _ => []

def Worker.failing : Worker Input Output Issue → Bool
  | .storing _ => true
  | .aborting => true
  | _ => false

def Sink.taken : Sink Output Issue → List Output
  | .working output => [output]
  | _ => []

def Sink.failing : Sink Output Issue → Bool
  | .storing _ => true
  | .aborting => true
  | _ => false

/-- Everything so far has gone well, and what was produced is accounted for: it has been
checked, or it is held by a stage or in a channel, in order. -/
structure Account (stages : Stages Item Input Output Issue Work Finish) (items : List Item)
    (work : Work) (finish : Finish) (config : Config Item Input Output Issue Work Finish)
    (consumed : List Item) (worked : List Input) (checked : List Output) : Prop where
  notAborted : config.abort = false
  noIssue : config.issue = none
  sourceFine : config.source.failing = false
  workerFine : config.worker.failing = false
  sinkFine : config.sink.failing = false
  workerLeft : config.worker = .closing ∨ config.worker = .exited →
    config.inputs = [] ∧ config.source = .exited
  sinkLeft : config.sink = .exited → config.outputs = [] ∧ config.worker = .exited
  items : items = consumed ++ config.source.rest
  produced : Produces stages consumed
    (worked ++ config.worker.taken ++ config.inputs ++ config.source.held)
  works : Works stages work worked
    (checked ++ config.sink.taken ++ config.outputs ++ config.worker.held) config.work
  finishes : Finishes stages finish checked config.finish

def Fine (stages : Stages Item Input Output Issue Work Finish) (items : List Item)
    (work : Work) (finish : Finish) (config : Config Item Input Output Issue Work Finish) : Prop :=
  ∃ consumed worked checked, Account stages items work finish config consumed worked checked

/-- An issue has been stored or is about to be. -/
def Tainted (config : Config Item Input Output Issue Work Finish) : Prop :=
  config.issue ≠ none ∨ (∃ issue, config.source = .storing issue) ∨
    (∃ issue, config.worker = .storing issue) ∨ ∃ issue, config.sink = .storing issue

def LoopSucceeds (stages : Stages Item Input Output Issue Work Finish) (items : List Item)
    (work : Work) (finish : Finish) : Prop :=
  ∃ work' finish', runLoop stages work finish items = (work', finish', .ok ())

section Following

variable {stages : Stages Item Input Output Issue Work Finish} {inputCapacity outputCapacity : Nat}
variable {config next : Config Item Input Output Issue Work Finish} {stage : Stage}
variable {items : List Item} {work : Work} {finish : Finish}
variable {consumed : List Item} {worked : List Input} {checked : List Output}

theorem start_fine : Fine stages items work finish
    (start items work finish : Config Item Input Output Issue Work Finish) := by
  refine ⟨[], [], [], ?_⟩
  constructor <;> simp [start, Source.failing, Worker.failing, Sink.failing, Source.rest]
  · exact .nil
  · exact .nil _
  · exact .nil _

theorem Tainted.step (tainted : Tainted config)
    (step : Step stages inputCapacity outputCapacity stage config next) : Tainted next := by
  cases step <;> simp_all [Tainted]

theorem Account.produce_fails {item : Item} {rest : List Item} {issue : Issue}
    (account : Account stages items work finish config consumed worked checked)
    (control : config.source = .reading (item :: rest))
    (failed : stages.produce item = .error issue) : ¬ LoopSucceeds stages items work finish := by
  rintro ⟨work', finish', looped⟩
  obtain ⟨inputs, outputs, produced, _, _⟩ := run_loop_ok_iff.mp looped
  have itemsEq := account.items
  rw [control] at itemsEq
  rw [itemsEq, Source.rest] at produced
  obtain ⟨_, _, others⟩ := account.produced.continues produced
  cases others with
  | cons first _ =>
      rw [failed] at first
      cases first

theorem Account.work_fails {input : Input} {issue : Issue} {after : Work}
    (account : Account stages items work finish config consumed worked checked)
    (control : config.worker = .working input)
    (failed : stages.work config.work input = (after, .error issue)) :
    ¬ LoopSucceeds stages items work finish := by
  rintro ⟨work', finish', looped⟩
  obtain ⟨inputs, outputs, produced, works, _⟩ := run_loop_ok_iff.mp looped
  rw [account.items] at produced
  obtain ⟨later, inputsEq, _⟩ := account.produced.continues produced
  rw [control, Worker.taken, List.append_assoc, List.append_assoc, List.append_assoc] at inputsEq
  rw [inputsEq] at works
  obtain ⟨_, _, others⟩ := account.works.continues works
  rw [List.singleton_append] at others
  cases others with
  | cons first _ =>
      rw [failed] at first
      cases first

theorem Account.finish_fails {output : Output} {issue : Issue} {after : Finish}
    (account : Account stages items work finish config consumed worked checked)
    (control : config.sink = .working output)
    (failed : stages.finish config.finish output = (after, .error issue)) :
    ¬ LoopSucceeds stages items work finish := by
  rintro ⟨work', finish', looped⟩
  obtain ⟨inputs, outputs, produced, works, finishes⟩ := run_loop_ok_iff.mp looped
  rw [account.items] at produced
  obtain ⟨later, inputsEq, _⟩ := account.produced.continues produced
  rw [List.append_assoc, List.append_assoc, List.append_assoc] at inputsEq
  rw [inputsEq] at works
  obtain ⟨laterOutputs, outputsEq, _⟩ := account.works.continues works
  rw [control, Sink.taken, List.append_assoc, List.append_assoc, List.append_assoc] at outputsEq
  rw [outputsEq] at finishes
  have others := account.finishes.continues finishes
  rw [List.singleton_append] at others
  cases others with
  | cons first _ =>
      rw [failed] at first
      cases first

theorem Account.worker_runs
    (account : Account stages items work finish config consumed worked checked)
    (running : config.source ≠ .exited) :
    ¬ (config.worker = .closing ∨ config.worker = .exited) := by
  intro left
  exact running (account.workerLeft left).2

/-- The source's steps keep the account or show that the loop fails. -/
theorem Account.source_step
    (account : Account stages items work finish config consumed worked checked)
    (step : Step stages inputCapacity outputCapacity .source config next) :
    Fine stages items work finish next ∨
      Tainted next ∧ ¬ LoopSucceeds stages items work finish := by
  have itemsEq := account.items
  have produced := account.produced
  have fine := account.sourceFine
  cases step with
  | @produce _ item rest input control made =>
      have running := account.worker_runs (by simp [control])
      rw [control] at itemsEq produced
      dsimp only [Source.held] at produced
      rw [List.append_nil] at produced
      refine Or.inl ⟨consumed ++ [item], worked, checked, { account with
        sourceFine := rfl
        workerLeft := fun left => absurd left running
        items := ?_
        produced := produced.snoc made }⟩
      rw [itemsEq, List.append_assoc]
      rfl
  | produceFails control failed =>
      exact Or.inr ⟨Or.inr (Or.inl ⟨_, rfl⟩), account.produce_fails control failed⟩
  | itemsEnd control =>
      have running := account.worker_runs (by simp [control])
      rw [control] at itemsEq produced
      exact Or.inl ⟨consumed, worked, checked, { account with
        sourceFine := rfl
        workerLeft := fun left => absurd left running
        items := itemsEq
        produced := produced }⟩
  | @sendInput _ input rest control _ =>
      have running := account.worker_runs (by simp [control])
      rw [control] at itemsEq produced
      refine Or.inl ⟨consumed, worked, checked, { account with
        sourceFine := rfl
        workerLeft := fun left => absurd left running
        items := itemsEq
        produced := ?_ }⟩
      dsimp only [Source.held] at produced ⊢
      rw [List.append_nil, ← List.append_assoc]
      exact produced
  | sendInputAborted _ aborted =>
      rw [account.notAborted] at aborted
      cases aborted
  | sourceStores control =>
      rw [control] at fine
      cases fine
  | sourceAborts control =>
      rw [control] at fine
      cases fine
  | sourceCloses control =>
      rw [control] at itemsEq produced
      exact Or.inl ⟨consumed, worked, checked, { account with
        sourceFine := rfl
        workerLeft := fun left => ⟨(account.workerLeft left).1, rfl⟩
        items := itemsEq
        produced := produced }⟩

section Worker

variable (account : Account stages items work finish config consumed worked checked)
include account

theorem Account.sink_runs (running : config.worker ≠ .exited) : config.sink ≠ .exited := by
  intro left
  exact running (account.sinkLeft left).2

theorem Account.worker_receives {input : Input} {inputs : List Input}
    (control : config.worker = .receiving) (available : config.inputs = input :: inputs) :
    Account stages items work finish { config with worker := .working input, inputs := inputs }
      consumed worked checked := by
  have produced := account.produced
  have works := account.works
  have running := account.sink_runs (by simp [control])
  rw [control, available] at produced
  rw [control] at works
  dsimp only [Worker.taken] at produced
  rw [List.append_nil, List.append_cons] at produced
  exact { account with
    workerFine := rfl
    workerLeft := by simp
    sinkLeft := fun left => absurd left running
    produced := produced
    works := works }

/-- What the worker has taken from the channel counts as worked once the result is made. -/
theorem Account.worker_works {input : Input} {output : Output} {after : Work}
    (control : config.worker = .working input)
    (made : stages.work config.work input = (after, .ok output)) :
    Account stages items work finish { config with worker := .sending output, work := after }
      consumed (worked ++ [input]) checked := by
  have produced := account.produced
  have works := account.works
  have running := account.sink_runs (by simp [control])
  rw [control] at produced works
  dsimp only [Worker.taken] at produced
  dsimp only [Worker.held] at works
  rw [List.append_nil] at works
  have taken : Produces stages consumed
      (worked ++ [input] ++ (Worker.sending output : Worker Input Output Issue).taken ++
        config.inputs ++ config.source.held) := by
    dsimp only [Worker.taken]
    rw [List.append_nil]
    exact produced
  exact { account with
    workerFine := rfl
    workerLeft := by simp
    sinkLeft := fun left => absurd left running
    produced := taken
    works := works.snoc made }

theorem Account.worker_sends {output : Output} (control : config.worker = .sending output) :
    Account stages items work finish
      { config with worker := .receiving, outputs := config.outputs ++ [output] }
      consumed worked checked := by
  have produced := account.produced
  have works := account.works
  have running := account.sink_runs (by simp [control])
  rw [control] at produced works
  have held : Works stages work worked (checked ++ config.sink.taken ++
      (config.outputs ++ [output]) ++ (Worker.receiving : Worker Input Output Issue).held)
      config.work := by
    dsimp only [Worker.held] at works ⊢
    rw [List.append_nil, ← List.append_assoc]
    exact works
  exact { account with
    workerFine := rfl
    workerLeft := by simp
    sinkLeft := fun left => absurd left running
    produced := produced
    works := held }

theorem Account.worker_ends (control : config.worker = .receiving) (empty : config.inputs = [])
    (exited : config.source = .exited) :
    Account stages items work finish { config with worker := .closing }
      consumed worked checked := by
  have produced := account.produced
  have works := account.works
  have running := account.sink_runs (by simp [control])
  rw [control] at produced works
  exact { account with
    workerFine := rfl
    workerLeft := fun _ => ⟨empty, exited⟩
    sinkLeft := fun left => absurd left running
    produced := produced
    works := works }

theorem Account.worker_closes (control : config.worker = .closing) :
    Account stages items work finish { config with worker := .exited, outputsClosed := true }
      consumed worked checked := by
  have produced := account.produced
  have works := account.works
  have running := account.sink_runs (by simp [control])
  rw [control] at produced works
  exact { account with
    workerFine := rfl
    workerLeft := fun _ => account.workerLeft (Or.inl control)
    sinkLeft := fun left => absurd left running
    produced := produced
    works := works }

theorem Account.worker_step (orderly : Orderly config)
    (step : Step stages inputCapacity outputCapacity .worker config next) :
    Fine stages items work finish next ∨
      Tainted next ∧ ¬ LoopSucceeds stages items work finish := by
  have fine := account.workerFine
  cases step with
  | receiveInput control available =>
      exact Or.inl ⟨consumed, worked, checked, account.worker_receives control available⟩
  | inputsEnd control empty closed =>
      have exited : config.source = .exited := orderly.inputsClosed.mp closed
      exact Or.inl ⟨consumed, worked, checked, account.worker_ends control empty exited⟩
  | @work _ input _ _ control made =>
      exact Or.inl ⟨consumed, worked ++ [input], checked, account.worker_works control made⟩
  | workFails control failed =>
      exact Or.inr ⟨Or.inr (Or.inr (Or.inl ⟨_, rfl⟩)), account.work_fails control failed⟩
  | sendOutput control _ =>
      exact Or.inl ⟨consumed, worked, checked, account.worker_sends control⟩
  | sendOutputAborted _ aborted =>
      rw [account.notAborted] at aborted
      cases aborted
  | workerStores control =>
      rw [control] at fine
      cases fine
  | workerAborts control =>
      rw [control] at fine
      cases fine
  | workerCloses control =>
      exact Or.inl ⟨consumed, worked, checked, account.worker_closes control⟩

end Worker

theorem Account.sink_step (orderly : Orderly config)
    (account : Account stages items work finish config consumed worked checked)
    (step : Step stages inputCapacity outputCapacity .sink config next) :
    Fine stages items work finish next ∨
      Tainted next ∧ ¬ LoopSucceeds stages items work finish := by
  have works := account.works
  have fine := account.sinkFine
  cases step with
  | @receiveOutput _ output outputs control available =>
      rw [control, available] at works
      refine Or.inl ⟨consumed, worked, checked, { account with
        sinkFine := rfl
        sinkLeft := by simp
        works := ?_ }⟩
      dsimp only [Sink.taken] at works ⊢
      rw [List.append_nil, List.append_cons] at works
      exact works
  | outputsEnd control empty closed =>
      rw [control] at works
      refine Or.inl ⟨consumed, worked, checked, { account with
        sinkFine := rfl
        sinkLeft := ?_
        works := works }⟩
      intro _
      exact ⟨empty, orderly.outputsClosed.mp closed⟩
  | @finish _ output after control made =>
      rw [control] at works
      refine Or.inl ⟨consumed, worked, checked ++ [output], { account with
        sinkFine := rfl
        sinkLeft := by simp
        works := ?_
        finishes := account.finishes.snoc made }⟩
      dsimp only [Sink.taken] at works ⊢
      rw [List.append_nil]
      exact works
  | finishFails control failed =>
      exact Or.inr ⟨Or.inr (Or.inr (Or.inr ⟨_, rfl⟩)), account.finish_fails control failed⟩
  | sinkStores control =>
      rw [control] at fine
      cases fine
  | sinkAborts control =>
      rw [control] at fine
      cases fine

/-- Every state of a run either accounts for all that was produced, or has an issue and the
loop fails as well. -/
theorem reachable_follows
    (reached : Reachable stages inputCapacity outputCapacity items work finish config) :
    Fine stages items work finish config ∨
      Tainted config ∧ ¬ LoopSucceeds stages items work finish := by
  induction reached with
  | start => exact Or.inl start_fine
  | @step stage config next reached step ih =>
      rcases ih with ⟨consumed, worked, checked, account⟩ | ⟨tainted, fails⟩
      · cases stage with
        | source => exact account.source_step step
        | worker => exact account.worker_step (reachable_orderly reached) step
        | sink => exact account.sink_step (reachable_orderly reached) step
      · exact Or.inr ⟨tainted.step step, fails⟩

/-- Once all stages have exited there is no issue exactly if the loop succeeds, and then the
states are those of the loop. -/
theorem exited_agrees
    (reached : Reachable stages inputCapacity outputCapacity items work finish config)
    (exited : AllExited config) :
    (config.issue = none ↔ LoopSucceeds stages items work finish) ∧
      (config.issue = none →
        runLoop stages work finish items = (config.work, config.finish, .ok ())) := by
  obtain ⟨sourceExited, workerExited, sinkExited⟩ := exited
  rcases reachable_follows reached with ⟨consumed, worked, checked, account⟩ | ⟨tainted, fails⟩
  · have itemsEq := account.items
    have produced := account.produced
    have works := account.works
    have noInputs := (account.workerLeft (Or.inr workerExited)).1
    have noOutputs := (account.sinkLeft sinkExited).1
    simp only [sourceExited, Source.rest, List.append_nil] at itemsEq
    simp only [sourceExited, workerExited, noInputs, Worker.taken, Source.held, List.append_nil]
      at produced
    simp only [sinkExited, workerExited, noOutputs, Worker.held, Sink.taken, List.append_nil]
      at works
    have looped : runLoop stages work finish items = (config.work, config.finish, .ok ()) := by
      apply run_loop_ok_iff.mpr
      refine ⟨worked, checked, ?_, works, account.finishes⟩
      rw [itemsEq]
      exact produced
    exact ⟨⟨fun _ => ⟨_, _, looped⟩, fun _ => account.noIssue⟩, fun _ => looped⟩
  · have stored : config.issue ≠ none := by
      rcases tainted with stored | ⟨_, storing⟩ | ⟨_, storing⟩ | ⟨_, storing⟩
      · exact stored
      · rw [sourceExited] at storing
        cases storing
      · rw [workerExited] at storing
        cases storing
      · rw [sinkExited] at storing
        cases storing
    exact ⟨⟨fun none => absurd none stored, fun succeeds => absurd succeeds fails⟩,
      fun none => absurd none stored⟩

end Following

/-! ## Invariants of the last stage -/

/-- Properties of what travels between the stages, each of which the stage before provides,
and a property of the sink's state that the sink keeps up, also when it fails. -/
structure Keeps (stages : Stages Item Input Output Issue Work Finish) (itemOk : Item → Prop)
    (inputOk : Input → Prop) (outputOk : Output → Prop) (finishOk : Finish → Prop) : Prop where
  produce : ∀ item input, itemOk item → stages.produce item = .ok input → inputOk input
  work : ∀ work next input output, inputOk input →
    stages.work work input = (next, .ok output) → outputOk output
  finish : ∀ finish output, outputOk output → finishOk finish →
    finishOk (stages.finish finish output).1

structure Carries (itemOk : Item → Prop) (inputOk : Input → Prop) (outputOk : Output → Prop)
    (finishOk : Finish → Prop) (config : Config Item Input Output Issue Work Finish) : Prop where
  rest : ∀ item ∈ config.source.rest, itemOk item
  sent : ∀ input ∈ config.source.held, inputOk input
  inputs : ∀ input ∈ config.inputs, inputOk input
  taken : ∀ input ∈ config.worker.taken, inputOk input
  made : ∀ output ∈ config.worker.held, outputOk output
  outputs : ∀ output ∈ config.outputs, outputOk output
  checked : ∀ output ∈ config.sink.taken, outputOk output
  finish : finishOk config.finish

section Invariants

variable {stages : Stages Item Input Output Issue Work Finish} {itemOk : Item → Prop}
variable {inputOk : Input → Prop} {outputOk : Output → Prop} {finishOk : Finish → Prop}
variable (keeps : Keeps stages itemOk inputOk outputOk finishOk)
include keeps

theorem run_loop_keeps {items : List Item} (itemsOk : ∀ item ∈ items, itemOk item) (work : Work)
    {finish : Finish} (started : finishOk finish) :
    finishOk (runLoop stages work finish items).2.1 := by
  induction items generalizing work finish with
  | nil => exact started
  | cons item rest ih =>
      obtain ⟨firstOk, restOk⟩ := List.forall_mem_cons.mp itemsOk
      rw [runLoop]
      split
      · exact started
      · rename_i input produced
        split
        · exact started
        · rename_i next output worked
          have kept := keeps.finish finish output
            (keeps.work work next input output (keeps.produce item input firstOk produced) worked)
            started
          split
          · rename_i failed
            rw [failed] at kept
            exact kept
          · rename_i finished
            rw [finished] at kept
            exact ih restOk next kept

theorem Carries.finish_next {config : Config Item Input Output Issue Work Finish}
    {output : Output} {next : Finish} {outcome : Except Issue Unit}
    (carries : Carries itemOk inputOk outputOk finishOk config)
    (control : config.sink = .working output)
    (finished : stages.finish config.finish output = (next, outcome)) : finishOk next := by
  have checked := carries.checked
  rw [control] at checked
  have kept := keeps.finish _ output (List.forall_mem_singleton.mp checked) carries.finish
  rwa [finished] at kept

variable {inputCapacity outputCapacity : Nat}

theorem Carries.step {config next : Config Item Input Output Issue Work Finish} {stage : Stage}
    (carries : Carries itemOk inputOk outputOk finishOk config)
    (step : Step stages inputCapacity outputCapacity stage config next) :
    Carries itemOk inputOk outputOk finishOk next := by
  cases step with
  | @produce _ item rest input control produced =>
      have items := carries.rest
      rw [control] at items
      obtain ⟨first, others⟩ := List.forall_mem_cons.mp items
      exact { carries with
        rest := others
        sent := List.forall_mem_singleton.mpr (keeps.produce item input first produced) }
  | sendInput control room =>
      have items := carries.rest
      have sent := carries.sent
      rw [control] at items sent
      exact { carries with
        rest := items
        sent := by simp [Source.held]
        inputs := List.forall_mem_append.mpr ⟨carries.inputs, sent⟩ }
  | produceFails _ _ | itemsEnd _ | sendInputAborted _ _ | sourceStores _ | sourceAborts _
  | sourceCloses _ =>
      exact { carries with
        rest := by simp [Source.rest]
        sent := by simp [Source.held] }
  | receiveInput control available =>
      have inputs := carries.inputs
      rw [available] at inputs
      obtain ⟨first, others⟩ := List.forall_mem_cons.mp inputs
      exact { carries with
        inputs := others
        taken := List.forall_mem_singleton.mpr first
        made := by simp [Worker.held] }
  | @work _ input output next control worked =>
      have taken := carries.taken
      rw [control] at taken
      have inputKept := List.forall_mem_singleton.mp taken
      exact { carries with
        taken := by simp [Worker.taken]
        made := List.forall_mem_singleton.mpr (keeps.work _ next input output inputKept worked) }
  | sendOutput control room =>
      have made := carries.made
      rw [control] at made
      exact { carries with
        taken := by simp [Worker.taken]
        made := by simp [Worker.held]
        outputs := List.forall_mem_append.mpr ⟨carries.outputs, made⟩ }
  | inputsEnd _ _ _ | workFails _ _ | sendOutputAborted _ _ | workerStores _ | workerAborts _
  | workerCloses _ =>
      exact { carries with
        taken := by simp [Worker.taken]
        made := by simp [Worker.held] }
  | receiveOutput control available =>
      have outputs := carries.outputs
      rw [available] at outputs
      obtain ⟨first, others⟩ := List.forall_mem_cons.mp outputs
      exact { carries with
        outputs := others
        checked := List.forall_mem_singleton.mpr first }
  | finish control finished =>
      exact { carries with
        checked := by simp [Sink.taken]
        finish := carries.finish_next keeps control finished }
  | finishFails control failed =>
      exact { carries with
        checked := by simp [Sink.taken]
        finish := carries.finish_next keeps control failed }
  | outputsEnd _ _ _ | sinkStores _ | sinkAborts _ =>
      exact { carries with checked := by simp [Sink.taken] }

/-- The invariant rule for the last stage: in every state of a run, aborted or not, the
property of its state holds if it held at the start. -/
theorem reachable_keeps {items : List Item} {work : Work} {finish : Finish}
    {config : Config Item Input Output Issue Work Finish}
    (itemsOk : ∀ item ∈ items, itemOk item) (started : finishOk finish)
    (reached : Reachable stages inputCapacity outputCapacity items work finish config) :
    finishOk config.finish := by
  have carries : Carries itemOk inputOk outputOk finishOk config := by
    induction reached with
    | start =>
        constructor <;>
          simp_all [Pipeline.start, Source.rest, Source.held, Worker.taken, Worker.held, Sink.taken]
    | step _ step ih => exact ih.step keeps step
  exact carries.finish

end Invariants

end Bertha.Pipeline
