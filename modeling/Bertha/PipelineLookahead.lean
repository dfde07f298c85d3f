import Bertha.Pipeline

/-!
# How far the stages run ahead

The worker of a three-stage pipeline takes items that the sink has not finished yet, and the
source reads items that the worker has not taken yet. The bounded channels limit both. In every
run, whatever has failed, the items that the sink has seen are the first of those that the worker
has seen, which are the first of those that the source has read. The worker is at most two items
and one full channel ahead of the sink, the source as much ahead of the worker, and both do get
that far. The intake of a run is what the source has read, which its state forgets once it
stops.
-/

namespace Bertha.Pipeline

set_option autoImplicit false

variable {Item Input Output Issue Work Finish Entry Mark : Type*}

/-- What the worker and the sink write down of each item that they take, whether they succeed
or not. The sink knows the item by what the worker has passed on. -/
structure Logs (stages : Stages Item Input Output Issue Work Finish) (Entry Mark : Type*) where
  worked : Work → List Entry
  finished : Finish → List Mark
  entry : Input → Entry
  mark : Input → Mark
  passed : Output → Mark
  work_entry : ∀ work input,
    worked (stages.work work input).1 = worked work ++ [entry input]
  work_mark : ∀ work input next output,
    stages.work work input = (next, .ok output) → passed output = mark input
  finish_mark : ∀ finish output,
    finished (stages.finish finish output).1 = finished finish ++ [passed output]

/-- What the worker holds back: its result until that is sent, and later at most a result that
was dropped or never came about. -/
def Worker.Unsent (passed : Output → Mark) :
    Worker Input Output Issue → List Mark → Prop
  | .receiving, unsent => unsent = []
  | .working _, unsent => unsent = []
  | .sending output, unsent => unsent = [passed output]
  | _, unsent => unsent.length ≤ 1

def itemsRead : Stage → Source Item Input Issue → List Item
  | .source, .reading (item :: _) => [item]
  | _, _ => []

/-- The states of the runs, each with the items that the source has read up to there. -/
inductive Intake (stages : Stages Item Input Output Issue Work Finish)
    (inputCapacity outputCapacity : Nat) (items : List Item) (work : Work) (finish : Finish) :
    List Item → Config Item Input Output Issue Work Finish → Prop
  | start : Intake stages inputCapacity outputCapacity items work finish []
      (start items work finish)
  | step {stage : Stage} {read : List Item}
      {config next : Config Item Input Output Issue Work Finish}
      (earlier : Intake stages inputCapacity outputCapacity items work finish read config)
      (step : Step stages inputCapacity outputCapacity stage config next) :
      Intake stages inputCapacity outputCapacity items work finish
        (read ++ itemsRead stage config.source) next

theorem items_read_worker (source : Source Item Input Issue) : itemsRead .worker source = [] := by
  cases source <;> rfl

theorem items_read_sink (source : Source Item Input Issue) : itemsRead .sink source = [] := by
  cases source <;> rfl

/-- What the source holds back of the items that it has read. Once it stops, it may have failed
on the last of them instead. -/
def Source.Unsent (stages : Stages Item Input Output Issue Work Finish)
    (items read consumed : List Item) : Source Item Input Issue → List Input → Prop
  | .reading rest, unsent => unsent = [] ∧ read = consumed ∧ items = read ++ rest
  | .sending input rest, unsent => unsent = [input] ∧ read = consumed ∧ items = read ++ rest
  | _, unsent => read <+: items ∧ ∃ failed, read = consumed ++ failed ∧
      failed.length + unsent.length ≤ 1 ∧
      ∀ item ∈ failed, ∃ issue, stages.produce item = .error issue

variable {stages : Stages Item Input Output Issue Work Finish}

structure Passing (logs : Logs stages Entry Mark) (outputCapacity : Nat) (work : Work)
    (finish : Finish) (worker : Worker Input Output Issue) (sink : Sink Output Issue)
    (outputs : List Output) (done between : List Input) (unsent : List Mark) : Prop where
  worked : logs.worked work = (done ++ between).map logs.entry
  finished : logs.finished finish = done.map logs.mark
  passing : between.map logs.mark = (sink.taken ++ outputs).map logs.passed ++ unsent
  unsent : worker.Unsent logs.passed unsent
  room : outputs.length ≤ outputCapacity

structure Feeding (stages : Stages Item Input Output Issue Work Finish) (inputCapacity : Nat)
    (items : List Item) (source : Source Item Input Issue) (worker : Worker Input Output Issue)
    (inputs : List Input) (tried : List Input) (read consumed : List Item)
    (unsent : List Input) : Prop where
  produced : Produces stages consumed (tried ++ worker.taken ++ inputs ++ unsent)
  unsent : source.Unsent stages items read consumed unsent
  room : inputs.length ≤ inputCapacity

structure Positions (logs : Logs stages Entry Mark) (inputCapacity outputCapacity : Nat)
    (items : List Item) (config : Config Item Input Output Issue Work Finish)
    (read consumed : List Item) (done between unsent : List Input) (held : List Mark) : Prop where
  feeding : Feeding stages inputCapacity items config.source config.worker config.inputs
    (done ++ between) read consumed unsent
  passing : Passing logs outputCapacity config.work config.finish config.worker config.sink
    config.outputs done between held

section Steps

variable {logs : Logs stages Entry Mark} {inputCapacity outputCapacity : Nat}
variable {items read consumed : List Item} {config next : Config Item Input Output Issue Work Finish}
variable {done between unsent : List Input} {held : List Mark}
variable {source : Source Item Input Issue} {worker : Worker Input Output Issue}

theorem Worker.Unsent.length_le {passed : Output → Mark}
    (holds : worker.Unsent passed held) : held.length ≤ 1 := by
  cases worker with
  | receiving => exact (congrArg List.length holds).trans_le (Nat.zero_le 1)
  | working input => exact (congrArg List.length holds).trans_le (Nat.zero_le 1)
  | sending output => exact (congrArg List.length holds).le
  | storing issue => exact holds
  | aborting => exact holds
  | closing => exact holds
  | exited => exact holds

theorem Source.Unsent.stopped (holds : source.Unsent stages items read consumed unsent) :
    read <+: items ∧ ∃ failed, read = consumed ++ failed ∧ failed.length + unsent.length ≤ 1 ∧
      ∀ item ∈ failed, ∃ issue, stages.produce item = .error issue := by
  cases source with
  | reading rest =>
      rcases holds with ⟨nothing, same, split⟩
      refine ⟨⟨rest, split.symm⟩, [], by rw [same, List.append_nil], ?_, by simp⟩
      rw [nothing]
      exact Nat.zero_le 1
  | sending input rest =>
      rcases holds with ⟨held, same, split⟩
      refine ⟨⟨rest, split.symm⟩, [], by rw [same, List.append_nil], ?_, by simp⟩
      rw [held]
      exact Nat.le_refl 1
  | storing issue => exact holds
  | aborting => exact holds
  | closing => exact holds
  | exited => exact holds

theorem start_positions (inputCapacity outputCapacity : Nat) (items : List Item) {work : Work}
    {finish : Finish} (workStart : logs.worked work = [])
    (finishStart : logs.finished finish = []) :
    Positions logs inputCapacity outputCapacity items (start items work finish)
      [] [] [] [] [] [] where
  feeding := ⟨.nil, ⟨rfl, rfl, rfl⟩, Nat.zero_le _⟩
  passing := ⟨workStart, finishStart, rfl, rfl, Nat.zero_le _⟩

theorem Positions.source_step
    (positions : Positions logs inputCapacity outputCapacity items config read consumed done
      between unsent held)
    (step : Step stages inputCapacity outputCapacity .source config next) :
    ∃ consumed unsent, Positions logs inputCapacity outputCapacity items next
      (read ++ itemsRead .source config.source) consumed done between unsent held := by
  rcases positions with ⟨⟨produced, holds, room⟩, passing⟩
  have stopped := holds.stopped
  have same : itemsRead .source config.source = [] →
      read ++ itemsRead .source config.source = read := by
    intro quiet
    rw [quiet, List.append_nil]
  cases step with
  | @produce _ item rest input control made =>
      rw [control] at holds
      rcases holds with ⟨nothing, whole, split⟩
      rw [nothing, List.append_nil, ← whole] at produced
      rw [control]
      refine ⟨read ++ [item], [input], ⟨⟨produced.snoc made, ⟨rfl, rfl, ?_⟩, room⟩, passing⟩⟩
      rw [split, itemsRead, List.append_assoc, List.singleton_append]
  | @produceFails _ item rest issue control failed =>
      rw [control] at holds
      rcases holds with ⟨nothing, whole, split⟩
      rw [control]
      refine ⟨consumed, unsent,
        ⟨⟨produced, ⟨⟨rest, ?_⟩, [item], ?_, ?_, ?_⟩, room⟩, passing⟩⟩
      · rw [split, itemsRead, List.append_assoc, List.singleton_append]
      · rw [whole]
        rfl
      · rw [nothing]
        exact Nat.le_refl 1
      · intro other member
        rw [List.mem_singleton.mp member]
        exact ⟨issue, failed⟩
  | itemsEnd control =>
      rw [same (by rw [control]; rfl)]
      exact ⟨_, _, ⟨produced, stopped, room⟩, passing⟩
  | @sendInput _ input rest control free =>
      rw [same (by rw [control]; rfl)]
      rw [control] at holds
      rcases holds with ⟨sent, whole, split⟩
      refine ⟨consumed, [], ⟨⟨?_, ⟨rfl, whole, split⟩, ?_⟩, passing⟩⟩
      · rw [sent] at produced
        rw [List.append_nil, ← List.append_assoc]
        exact produced
      · rw [List.length_append, List.length_singleton]
        exact free
  | sendInputAborted control aborted =>
      rw [same (by rw [control]; rfl)]
      exact ⟨_, _, ⟨produced, stopped, room⟩, passing⟩
  | sourceStores control =>
      rw [same (by rw [control]; rfl)]
      exact ⟨_, _, ⟨produced, stopped, room⟩, passing⟩
  | sourceAborts control =>
      rw [same (by rw [control]; rfl)]
      exact ⟨_, _, ⟨produced, stopped, room⟩, passing⟩
  | sourceCloses control =>
      rw [same (by rw [control]; rfl)]
      exact ⟨_, _, ⟨produced, stopped, room⟩, passing⟩

theorem Positions.worker_step
    (positions : Positions logs inputCapacity outputCapacity items config read consumed done
      between unsent held)
    (step : Step stages inputCapacity outputCapacity .worker config next) :
    ∃ between held, Positions logs inputCapacity outputCapacity items next read consumed done
      between unsent held := by
  rcases positions with ⟨⟨produced, waits, room⟩, ⟨worked, finished, passing, holds, outputRoom⟩⟩
  have bound := holds.length_le
  cases step with
  | @receiveInput _ input inputs control available =>
      rw [control] at holds produced
      rw [available] at produced room
      refine ⟨between, held, ⟨⟨?_, waits, ?_⟩, ⟨worked, finished, passing, holds, outputRoom⟩⟩⟩
      · have same : done ++ between ++ [input] ++ inputs ++ unsent =
            done ++ between ++ [] ++ (input :: inputs) ++ unsent := by simp
        exact same ▸ produced
      · exact (Nat.le_succ _).trans room
  | inputsEnd control empty closed =>
      rw [control] at produced
      exact ⟨_, _, ⟨produced, waits, room⟩, worked, finished, passing, bound, outputRoom⟩
  | @work _ input output work control result =>
      rw [control] at holds produced
      have entry := logs.work_entry config.work input
      have mark := logs.work_mark _ _ _ _ result
      rw [result] at entry
      refine ⟨between ++ [input], [logs.passed output],
        ⟨⟨?_, waits, room⟩, ⟨?_, finished, ?_, rfl, outputRoom⟩⟩⟩
      · have same : done ++ (between ++ [input]) ++ [] ++ config.inputs ++ unsent =
            done ++ between ++ [input] ++ config.inputs ++ unsent := by simp
        exact same ▸ produced
      · rw [← List.append_assoc, List.map_append, ← worked]
        exact entry
      · rw [List.map_append, passing, (holds : held = []), List.append_nil, mark]
        rfl
  | @workFails _ input issue work control failed =>
      rw [control] at holds produced
      have entry := logs.work_entry config.work input
      rw [failed] at entry
      refine ⟨between ++ [input], [logs.mark input],
        ⟨⟨?_, waits, room⟩, ⟨?_, finished, ?_, Nat.le_refl 1, outputRoom⟩⟩⟩
      · have same : done ++ (between ++ [input]) ++ [] ++ config.inputs ++ unsent =
            done ++ between ++ [input] ++ config.inputs ++ unsent := by simp
        exact same ▸ produced
      · rw [← List.append_assoc, List.map_append, ← worked]
        exact entry
      · rw [List.map_append, passing, (holds : held = []), List.append_nil]
        rfl
  | @sendOutput _ output control free =>
      rw [control] at holds produced
      refine ⟨between, [], ⟨⟨produced, waits, room⟩, ⟨worked, finished, ?_, rfl, ?_⟩⟩⟩
      · rw [passing, (holds : held = [logs.passed output])]
        simp
      · rw [List.length_append, List.length_singleton]
        exact free
  | sendOutputAborted control aborted =>
      rw [control] at produced
      exact ⟨_, _, ⟨produced, waits, room⟩, worked, finished, passing, bound, outputRoom⟩
  | workerStores control =>
      rw [control] at produced
      exact ⟨_, _, ⟨produced, waits, room⟩, worked, finished, passing, bound, outputRoom⟩
  | workerAborts control =>
      rw [control] at produced
      exact ⟨_, _, ⟨produced, waits, room⟩, worked, finished, passing, bound, outputRoom⟩
  | workerCloses control =>
      rw [control] at produced
      exact ⟨_, _, ⟨produced, waits, room⟩, worked, finished, passing, bound, outputRoom⟩

theorem Passing.finished_next {work : Work} {finish after : Finish} {output : Output}
    {outputs : List Output} {sink : Sink Output Issue}
    (passing : Passing logs outputCapacity work finish worker (.working output : Sink Output Issue)
      outputs done between held)
    (taken : sink.taken = [])
    (noted : logs.finished after = logs.finished finish ++ [logs.passed output]) :
    ∃ first rest, between = first :: rest ∧
      Passing logs outputCapacity work after worker sink outputs (done ++ [first]) rest held := by
  rcases passing with ⟨worked, finished, passes, holds, room⟩
  cases between with
  | nil => simp [Sink.taken] at passes
  | cons first rest =>
      rw [Sink.taken, List.singleton_append, List.map_cons, List.map_cons, List.cons_append,
        List.cons.injEq] at passes
      refine ⟨first, rest, rfl, ⟨?_, ?_, ?_, holds, room⟩⟩
      · rw [worked, List.append_assoc, List.singleton_append]
      · rw [noted, finished, ← passes.1, List.map_append]
        rfl
      · rw [taken, passes.2]
        rfl

theorem Positions.sink_step
    (positions : Positions logs inputCapacity outputCapacity items config read consumed done
      between unsent held)
    (step : Step stages inputCapacity outputCapacity .sink config next) :
    ∃ done between, Positions logs inputCapacity outputCapacity items next read consumed done
      between unsent held := by
  rcases positions with ⟨feeding, passing⟩
  have taken : ∀ sink : Sink Output Issue, sink.taken = config.sink.taken →
      Passing logs outputCapacity config.work config.finish config.worker sink config.outputs
        done between held := by
    intro sink same
    exact ⟨passing.worked, passing.finished, by rw [same]; exact passing.passing, passing.unsent,
      passing.room⟩
  have finishes : ∀ (sink : Sink Output Issue) (output : Output) (after : Finish),
      config.sink = .working output → sink.taken = [] →
      (stages.finish config.finish output).1 = after →
      ∃ done between, Positions logs inputCapacity outputCapacity items
        { config with sink := sink, finish := after } read consumed done between unsent held := by
    intro sink output after control nothing afterEq
    have noted := logs.finish_mark config.finish output
    rw [afterEq] at noted
    rw [control] at passing
    rcases passing.finished_next nothing noted with ⟨first, rest, split, moved⟩
    rw [split, ← List.singleton_append, ← List.append_assoc] at feeding
    exact ⟨done ++ [first], rest, feeding, moved⟩
  cases step with
  | @receiveOutput _ output outputs control available =>
      refine ⟨done, between, feeding, ⟨passing.worked, passing.finished, ?_, passing.unsent, ?_⟩⟩
      · rw [passing.passing, control, available]
        rfl
      · have full := passing.room
        rw [available] at full
        exact (Nat.le_succ _).trans full
  | outputsEnd control empty closed =>
      exact ⟨done, between, feeding, taken _ (by rw [control]; rfl)⟩
  | finish control finished => exact finishes _ _ _ control rfl (by rw [finished])
  | finishFails control failed => exact finishes _ _ _ control rfl (by rw [failed])
  | sinkStores control => exact ⟨done, between, feeding, taken _ (by rw [control]; rfl)⟩
  | sinkAborts control => exact ⟨done, between, feeding, taken _ (by rw [control]; rfl)⟩

theorem intake_positions {work : Work} {finish : Finish} (workStart : logs.worked work = [])
    (finishStart : logs.finished finish = [])
    (intake : Intake stages inputCapacity outputCapacity items work finish read config) :
    ∃ consumed done between unsent held,
      Positions logs inputCapacity outputCapacity items config read consumed done between unsent
        held := by
  induction intake with
  | start =>
      exact ⟨_, _, _, _, _, start_positions inputCapacity outputCapacity items workStart
        finishStart⟩
  | @step stage _ _ _ _ step ih =>
      rcases ih with ⟨consumed, done, between, unsent, held, positions⟩
      cases stage with
      | source =>
          rcases positions.source_step step with ⟨consumed, unsent, next⟩
          exact ⟨_, _, _, _, _, next⟩
      | worker =>
          rcases positions.worker_step step with ⟨between, held, next⟩
          rw [items_read_worker, List.append_nil]
          exact ⟨_, _, _, _, _, next⟩
      | sink =>
          rcases positions.sink_step step with ⟨done, between, next⟩
          rw [items_read_sink, List.append_nil]
          exact ⟨_, _, _, _, _, next⟩

/-- Between the worker and the sink are at most a full channel, one result that is held back and
the item that the sink works on; between the source and the worker as many, with a full channel
of the other kind. -/
theorem lookahead_bound (logs : Logs stages Entry Mark) {work : Work} {finish : Finish}
    (workStart : logs.worked work = []) (finishStart : logs.finished finish = [])
    (intake : Intake stages inputCapacity outputCapacity items work finish read config) :
    ∃ consumed failed inputs tried seen, read = consumed ++ failed ∧ read <+: items ∧
      failed.length ≤ 1 ∧ (∀ item ∈ failed, ∃ issue, stages.produce item = .error issue) ∧
      Produces stages consumed inputs ∧
      logs.worked config.work = (inputs.take tried).map logs.entry ∧
      logs.finished config.finish = (inputs.take seen).map logs.mark ∧
      seen ≤ tried ∧ tried ≤ inputs.length ∧
      tried ≤ seen + outputCapacity + 1 + config.sink.taken.length ∧
      read.length ≤ tried + inputCapacity + 2 := by
  rcases intake_positions workStart finishStart intake with
    ⟨consumed, done, between, unsent, held, ⟨produced, waits, inputRoom⟩,
      ⟨worked, finished, passing, holds, outputRoom⟩⟩
  rcases waits.stopped with ⟨fromItems, failed, readEq, atMostOne, fails⟩
  have kept := holds.length_le
  have workerTaken : config.worker.taken.length ≤ 1 := by
    cases config.worker <;> simp [Worker.taken]
  have betweenLength := congrArg List.length passing
  simp only [List.length_map, List.length_append] at betweenLength
  have readLength := congrArg List.length readEq
  have consumedLength := produced.length_eq
  simp only [List.length_append] at readLength consumedLength
  refine ⟨consumed, failed, _, (done ++ between).length, done.length, readEq, fromItems, ?_, fails,
    produced, ?_, ?_, ?_, ?_, ?_, ?_⟩
  · omega
  · rw [List.append_assoc, List.append_assoc, List.take_left]
    exact worked
  · rw [List.append_assoc, List.append_assoc, List.append_assoc, List.take_left]
    exact finished
  · rw [List.length_append]
    omega
  · simp only [List.length_append]
    omega
  · rw [List.length_append]
    omega
  · rw [List.length_append]
    omega

end Steps

/-! ## The bounds are reached -/

section Attained

variable {inputCapacity outputCapacity : Nat} {items read consumed rest : List Item}
variable {work last : Work} {finish : Finish}
variable {config : Config Item Input Output Issue Work Finish}

theorem reachable_iff_intake :
    Reachable stages inputCapacity outputCapacity items work finish config ↔
      ∃ read, Intake stages inputCapacity outputCapacity items work finish read config := by
  constructor
  · intro reached
    induction reached with
    | start => exact ⟨[], .start⟩
    | step _ step ih =>
        rcases ih with ⟨read, intake⟩
        exact ⟨_, intake.step step⟩
  · intro kept
    rcases kept with ⟨read, intake⟩
    induction intake with
    | start => exact .start
    | step _ step ih => exact ih.step step

theorem Intake.produce_next
    (intake : Intake stages inputCapacity outputCapacity items work finish read config)
    {item : Item} {input : Input} (reading : config.source = .reading (item :: rest))
    (produced : stages.produce item = .ok input) :
    Intake stages inputCapacity outputCapacity items work finish (read ++ [item])
      { config with source := .sending input rest } := by
  have next := intake.step (.produce reading produced)
  rw [reading] at next
  exact next

theorem Intake.read_next
    (intake : Intake stages inputCapacity outputCapacity items work finish read config)
    {item : Item} {input : Input} (reading : config.source = .reading (item :: rest))
    (produced : stages.produce item = .ok input) (room : config.inputs.length < inputCapacity) :
    Intake stages inputCapacity outputCapacity items work finish (read ++ [item])
      { config with source := .reading rest, inputs := config.inputs ++ [input] } := by
  have sent := (intake.produce_next reading produced).step (.sendInput rfl room)
  exact (List.append_nil (read ++ [item])) ▸ sent

theorem Intake.read_ahead
    (intake : Intake stages inputCapacity outputCapacity items work finish read config)
    (reading : config.source = .reading (consumed ++ rest)) {inputs : List Input}
    (produced : Produces stages consumed inputs) (nonempty : consumed ≠ [])
    (fits : config.inputs.length + inputs.length ≤ inputCapacity + 1) :
    ∃ next, Intake stages inputCapacity outputCapacity items work finish (read ++ consumed)
      next ∧ next.work = config.work := by
  induction produced generalizing config read with
  | nil => exact absurd rfl nonempty
  | @cons item input later others made laterMade ih =>
      cases laterMade with
      | nil => exact ⟨_, intake.produce_next reading made, rfl⟩
      | @cons second secondInput later others secondMade laterMade =>
          rw [List.length_cons, List.length_cons] at fits
          have next := intake.read_next reading made (by omega)
          have shorter : (config.inputs ++ [input]).length + (secondInput :: others).length ≤
              inputCapacity + 1 := by
            rw [List.length_append, List.length_singleton, List.length_cons]
            omega
          rcases ih next rfl (List.cons_ne_nil _ _) shorter with ⟨final, reached, same⟩
          rw [List.append_assoc, List.singleton_append] at reached
          exact ⟨final, reached, same⟩

/-- If the source succeeds on that many items, it gets a full channel and two items ahead of a
worker that has not tried any. -/
theorem read_ahead_attained (inputRoom : 0 < inputCapacity) {inputs : List Input}
    (split : items = consumed ++ rest) (produced : Produces stages consumed inputs)
    (long : consumed.length = inputCapacity + 2) :
    ∃ config, Intake stages inputCapacity outputCapacity items work finish consumed config ∧
      config.work = work := by
  have started : Intake stages inputCapacity outputCapacity items work finish []
      (start items work finish) := .start
  cases produced with
  | nil => cases long
  | @cons item input later others made laterMade =>
      have first := started.read_next
        (show (start items work finish).source = .reading (item :: (later ++ rest)) by
          rw [split]; rfl) made inputRoom
      have received := first.step (.receiveInput rfl rfl)
      rw [items_read_worker, List.append_nil] at received
      have sameLength := laterMade.length_eq
      rw [List.length_cons] at long
      apply received.read_ahead rfl laterMade
      · intro nothing
        rw [nothing] at long
        cases long
      · rw [← sameLength]
        simp only [List.length_nil]
        omega

theorem Intake.apply_next (inputRoom : 0 < inputCapacity)
    (intake : Intake stages inputCapacity outputCapacity items work finish read config)
    {item : Item} {input : Input} {output : Output} {next : Work}
    (reading : config.source = .reading (item :: rest)) (waiting : config.worker = .receiving)
    (empty : config.inputs = []) (produced : stages.produce item = .ok input)
    (worked : stages.work config.work input = (next, .ok output)) :
    Intake stages inputCapacity outputCapacity items work finish (read ++ [item])
      { config with
        source := .reading rest
        worker := .sending output
        inputs := []
        work := next } := by
  have sent := intake.read_next reading produced (by rw [empty]; exact inputRoom)
  have received := sent.step (.receiveInput waiting (by rw [empty]; rfl))
  have done := received.step (.work rfl worked)
  rw [items_read_worker, List.append_nil, List.append_nil] at done
  exact done

theorem Intake.run_ahead (inputRoom : 0 < inputCapacity)
    (intake : Intake stages inputCapacity outputCapacity items work finish read config)
    (reading : config.source = .reading (consumed ++ rest)) (waiting : config.worker = .receiving)
    (empty : config.inputs = []) {inputs : List Input} {outputs : List Output}
    (produced : Produces stages consumed inputs)
    (works : Works stages config.work inputs outputs last) (nonempty : inputs ≠ [])
    (fits : config.outputs.length + inputs.length ≤ outputCapacity + 1) :
    ∃ next, Intake stages inputCapacity outputCapacity items work finish (read ++ consumed)
      next ∧ next.work = last ∧ next.finish = config.finish := by
  induction inputs generalizing config read consumed outputs with
  | nil => exact absurd rfl nonempty
  | cons input others ih =>
      cases produced with
      | @cons item _ later _ made laterMade =>
          cases works with
          | @cons _ next _ _ output _ outputsLeft worked laterWorks =>
              rw [List.cons_append] at reading
              have applied := intake.apply_next inputRoom reading waiting empty made worked
              cases others with
              | nil =>
                  cases laterWorks
                  cases laterMade
                  exact ⟨_, applied, rfl, rfl⟩
              | cons second others =>
                  rw [List.length_cons, List.length_cons] at fits
                  have sent := applied.step (.sendOutput rfl (show config.outputs.length <
                    outputCapacity by omega))
                  rw [items_read_worker, List.append_nil] at sent
                  have shorter : (config.outputs ++ [output]).length +
                      (second :: others).length ≤ outputCapacity + 1 := by
                    rw [List.length_append, List.length_singleton, List.length_cons]
                    omega
                  rcases ih sent rfl rfl rfl laterMade laterWorks (List.cons_ne_nil _ _)
                    shorter with ⟨final, reached, same⟩
                  rw [List.append_assoc, List.singleton_append] at reached
                  exact ⟨final, reached, same⟩

/-- If the source and the worker succeed on that many items, the worker gets a full channel and
two items ahead of a sink that has not finished any. -/
theorem lookahead_attained (inputRoom : 0 < inputCapacity) (outputRoom : 0 < outputCapacity)
    {inputs : List Input} {outputs : List Output}
    (split : items = consumed ++ rest) (produced : Produces stages consumed inputs)
    (works : Works stages work inputs outputs last) (long : inputs.length = outputCapacity + 2) :
    ∃ config, Intake stages inputCapacity outputCapacity items work finish consumed config ∧
      config.work = last ∧ config.finish = finish := by
  have started : Intake stages inputCapacity outputCapacity items work finish []
      (start items work finish) := .start
  cases produced with
  | nil => cases long
  | @cons item input later others made laterMade =>
      cases works with
      | @cons _ next _ _ output _ outputsLeft worked laterWorks =>
          have applied := started.apply_next inputRoom
            (show (start items work finish).source = .reading (item :: (later ++ rest)) by
              rw [split]; rfl) rfl rfl made worked
          have sent := applied.step (.sendOutput rfl outputRoom)
          have taken := sent.step (.receiveOutput rfl rfl)
          rw [items_read_worker, items_read_sink, List.append_nil, List.append_nil] at taken
          rw [List.length_cons] at long
          apply taken.run_ahead inputRoom rfl rfl rfl laterMade laterWorks
          · intro nothing
            rw [nothing] at long
            cases long
          · rw [show others.length = outputCapacity + 1 by omega]
            exact Nat.le_of_eq (Nat.zero_add _)

end Attained

end Bertha.Pipeline
