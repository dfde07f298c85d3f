import Bertha.PipelineReports
import Bertha.ReplayPipeline

/-!
# The error of the pipelined replay

Which of the errors that its stages report `runReplayPipeline` of `go/replay/replay.go`
returns. `reportIssue` stores each error in the same variable, and only the first call closes
`abort`. A stage that fails behind the close replaces the error that stopped the replay.
-/

namespace Bertha.ReplayIssues

open Bertha.ChainAdapter Bertha.Pipeline Bertha.Replay Bertha.ReplayPipeline

set_option autoImplicit false

/-- The error returned is the one whose report closed the channel exactly in the runs in which
no stage stores an error behind the close and the stage that closes is the last that stored
one. -/
theorem replay_returns_closing_error_iff {State Progress : Type} (setup : Setup State Progress)
    (turns : List Turn) (applySide : ApplySide State) (checkSide : CheckSide Progress)
    {moments : List (Moment Turn DecodedBlock ProcessResult Failure (ApplySide State)
      (CheckSide Progress))}
    {config : Config Turn DecodedBlock ProcessResult Failure (ApplySide State)
      (CheckSide Progress)}
    {journal : Journal Failure}
    (run : Run (pipelineStages setup) channelSize channelSize turns applySide checkSide moments
      config journal)
    (exited : AllExited config) :
    ReturnsClosing config journal ↔ ∀ moment ∈ moments, moment.Undisturbed :=
  run.returns_closing_iff exited

section FixedRuns

variable {Item Input Output Issue Work Finish : Type}
variable {stages : Stages Item Input Output Issue Work Finish} {inputCapacity outputCapacity : Nat}
variable {work after : Work} {finish ended : Finish}

theorem overtaken_run {item failing : Item} {input : Input} {output : Output}
    {stopped later : Issue} (produced : stages.produce item = .ok input)
    (worked : stages.work work input = (after, .ok output))
    (stops : stages.finish finish output = (ended, .error stopped))
    (fails : stages.produce failing = .error later)
    (inputRoom : 0 < inputCapacity) (outputRoom : 0 < outputCapacity) :
    ∃ moments config, Run stages inputCapacity outputCapacity [item, failing] work finish moments
        config ⟨[(.sink, stopped), (.source, later)], some .sink⟩ ∧
      AllExited config ∧ config.issue = some later := by
  have received : Run stages inputCapacity outputCapacity [item, failing] work finish _
      ⟨.reading [failing], .working input, .receiving, [], false, [], false, false, none, work,
        finish⟩ ⟨[], none⟩ :=
    .step (.step (.step .start (.produce rfl produced)) (.sendInput rfl inputRoom))
      (.receiveInput rfl rfl)
  have sent : Run stages inputCapacity outputCapacity [item, failing] work finish _
      ⟨.reading [failing], .receiving, .working output, [], false, [], false, false, none, after,
        finish⟩ ⟨[], none⟩ :=
    .step (.step (.step received (.work rfl worked)) (.sendOutput rfl outputRoom))
      (.receiveOutput rfl rfl)
  have closed : Run stages inputCapacity outputCapacity [item, failing] work finish _
      ⟨.reading [failing], .receiving, .exited, [], false, [], false, true, some stopped, after,
        ended⟩ ⟨[(.sink, stopped)], some .sink⟩ :=
    .step (.step (.step sent (.finishFails rfl stops)) (.sinkStores rfl)) (.sinkAborts rfl)
  have overtaken : Run stages inputCapacity outputCapacity [item, failing] work finish _
      ⟨.closing, .receiving, .exited, [], false, [], false, true, some later, after, ended⟩
      ⟨[(.sink, stopped), (.source, later)], some .sink⟩ :=
    .step (.step (.step closed (.produceFails rfl fails)) (.sourceStores rfl)) (.sourceAborts rfl)
  exact ⟨_, _, .step (.step (.step overtaken (.sourceCloses rfl)) (.inputsEnd rfl rfl rfl))
    (.workerCloses rfl), ⟨rfl, rfl, rfl⟩, rfl⟩

theorem failing_run {failing : Item} {rest : List Item} {failed : Issue}
    (fails : stages.produce failing = .error failed) :
    ∃ moments config, Run stages inputCapacity outputCapacity (failing :: rest) work finish moments
        config ⟨[(.source, failed)], some .source⟩ ∧
      AllExited config ∧ config.issue = some failed ∧ ∀ moment ∈ moments, moment.Undisturbed := by
  have closed : Run stages inputCapacity outputCapacity (failing :: rest) work finish _
      ⟨.exited, .receiving, .receiving, [], true, [], false, true, some failed, work, finish⟩
      ⟨[(.source, failed)], some .source⟩ :=
    .step (.step (.step (.step .start (.produceFails rfl fails)) (.sourceStores rfl))
      (.sourceAborts rfl)) (.sourceCloses rfl)
  have whole : Run stages inputCapacity outputCapacity (failing :: rest) work finish _
      ⟨.exited, .exited, .exited, [], true, [], true, true, some failed, work, finish⟩
      ⟨[(.source, failed)], some .source⟩ :=
    .step (.step (.step closed (.inputsEnd rfl rfl rfl)) (.workerCloses rfl))
      (.outputsEnd rfl rfl rfl)
  refine ⟨_, _, whole, ⟨rfl, rfl, rfl⟩, rfl, whole.closer_last_iff.mp ?_⟩
  intro stage closer
  exact closer

end FixedRuns

def brokenTurn : Turn := uncancelled (.error "broken")

theorem replay_returns_closing_error_plain :
    ∃ moments config journal,
      Run (pipelineStages plainSetup) channelSize channelSize [brokenTurn]
          ⟨plainAdapter .empty, []⟩ ⟨plainChecks, 0, []⟩ moments config journal ∧
        config.issue = some (.error "failed to get next block: broken") ∧
        ReturnsClosing config journal := by
  obtain ⟨moments, config, run, exited, issue, undisturbed⟩ := failing_run
    (show (pipelineStages plainSetup).produce brokenTurn =
      .error (.error "failed to get next block: broken") from rfl)
  refine ⟨moments, config, _, run, issue, ?_⟩
  exact (replay_returns_closing_error_iff plainSetup [brokenTurn] ⟨plainAdapter .empty, []⟩
    ⟨plainChecks, 0, []⟩ run exited).mpr undisturbed

def interruptedSetup : Setup (StateChainAdapter Unit Unit Unit Unit) Nat :=
  { plainSetup with onBlockDone := some fun count _ => (count, .error "interrupted") }

/-- The callback stops the replay at block 0 and the iterator fails behind it: the error of
the iterator is returned, where the loop returns the one of the callback. -/
theorem replay_error_overtaken :
    let turns := [uncancelled (.ok (GoBlockDb.numberOnly 0)), brokenTurn]
    let interrupted : Failure :=
      .error "failed to execute onBlockDone callback for block 0: interrupted"
    (∃ moments config journal,
      Run (pipelineStages interruptedSetup) channelSize channelSize turns
          ⟨plainAdapter .empty, []⟩ ⟨plainChecks, 0, []⟩ moments config journal ∧
        AllExited config ∧
        config.issue = some (.error "failed to get next block: broken") ∧
        journal.closer = some .sink ∧ (.sink, interrupted) ∈ journal.reports ∧
        ¬ ReturnsClosing config journal) ∧
      (runReplayLoop interruptedSetup ⟨plainAdapter .empty, []⟩ ⟨plainChecks, 0, []⟩ turns).2.2 =
        .error interrupted := by
  intro turns interrupted
  constructor
  · obtain ⟨decoded, produced⟩ : ∃ decoded, (pipelineStages interruptedSetup).produce
        (uncancelled (.ok (GoBlockDb.numberOnly 0))) = .ok decoded := ⟨_, rfl⟩
    obtain ⟨after, result, worked⟩ : ∃ after result, (pipelineStages interruptedSetup).work
        ⟨plainAdapter .empty, []⟩ decoded = (after, .ok result) := by
      cases produced
      exact ⟨_, _, rfl⟩
    obtain ⟨ended, stops⟩ : ∃ ended, (pipelineStages interruptedSetup).finish
        ⟨plainChecks, 0, []⟩ result = (ended, .error interrupted) := by
      cases produced
      cases worked
      exact ⟨_, rfl⟩
    obtain ⟨moments, config, run, exited, issue⟩ := overtaken_run produced worked stops
      (show (pipelineStages interruptedSetup).produce brokenTurn =
        .error (.error "failed to get next block: broken") from rfl)
      (show 0 < channelSize by decide) (show 0 < channelSize by decide)
    refine ⟨moments, config, _, run, exited, issue, rfl, List.mem_cons_self, fun returns => ?_⟩
    obtain ⟨closer, closed, loaded⟩ := returns _ issue
    cases closed
    cases loaded
  · rfl

end Bertha.ReplayIssues
