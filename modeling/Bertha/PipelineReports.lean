import Bertha.Pipeline

/-!
# Reports of the pipeline's stages

A stage that fails stores its issue and then closes the abort channel, in two steps. The
store is made whatever has been stored before, and only the first close has an effect. A
journal kept along a run names the stage of each store and the stage that closed the channel.
The issue that is left is the one of the stage that closed it exactly if no stage stores
behind the close and the close follows the store of the same stage directly.
-/

namespace Bertha.Pipeline

set_option autoImplicit false

variable {Item Input Output Issue Work Finish : Type*}

inductive Phase (Issue : Type*) where
  | running
  | storing (issue : Issue)
  | aborting
  | done

def Config.phase (config : Config Item Input Output Issue Work Finish) : Stage → Phase Issue
  | .source =>
      match config.source with
      | .reading _ | .sending _ _ => .running
      | .storing issue => .storing issue
      | .aborting => .aborting
      | .closing | .exited => .done
  | .worker =>
      match config.worker with
      | .receiving | .working _ | .sending _ => .running
      | .storing issue => .storing issue
      | .aborting => .aborting
      | .closing | .exited => .done
  | .sink =>
      match config.sink with
      | .receiving | .working _ => .running
      | .storing issue => .storing issue
      | .aborting => .aborting
      | .exited => .done

inductive ReportStep (stage : Stage) (config next : Config Item Input Output Issue Work Finish) :
    Prop
  | runs (before : config.phase stage = .running) (after : next.phase stage ≠ .aborting)
      (abort : next.abort = config.abort) (issue : next.issue = config.issue)
  | stores {issue : Issue} (before : config.phase stage = .storing issue)
      (after : next.phase stage = .aborting) (abort : next.abort = config.abort)
      (stored : next.issue = some issue)
  | aborts (before : config.phase stage = .aborting) (after : next.phase stage = .done)
      (closed : next.abort = true) (issue : next.issue = config.issue)
  | leaves (before : config.phase stage = .done) (after : next.phase stage = .done)
      (abort : next.abort = config.abort) (issue : next.issue = config.issue)

section Steps

variable {stages : Stages Item Input Output Issue Work Finish} {inputCapacity outputCapacity : Nat}
variable {config next : Config Item Input Output Issue Work Finish} {stage : Stage}

theorem step_reports (step : Step stages inputCapacity outputCapacity stage config next) :
    ReportStep stage config next := by
  cases step with
  | produce control _ | produceFails control _ | itemsEnd control | sendInput control _
  | sendInputAborted control _ | receiveInput control _ | inputsEnd control _ _ | work control _
  | workFails control _ | sendOutput control _ | sendOutputAborted control _
  | receiveOutput control _ | outputsEnd control _ _ | finish control _ | finishFails control _ =>
      exact .runs (by simp only [Config.phase, control]) nofun rfl rfl
  | sourceStores control | workerStores control | sinkStores control =>
      exact .stores (by simp only [Config.phase, control]) rfl rfl rfl
  | sourceAborts control | workerAborts control | sinkAborts control =>
      exact .aborts (by simp only [Config.phase, control]) rfl rfl rfl
  | sourceCloses control | workerCloses control =>
      exact .leaves (by simp only [Config.phase, control]) rfl rfl rfl

theorem step_phase_other (step : Step stages inputCapacity outputCapacity stage config next)
    {other : Stage} (different : other ≠ stage) : next.phase other = config.phase other := by
  cases step <;> cases other <;> first | rfl | exact absurd rfl different

end Steps

/-- The stores in their order, and the stage whose close had an effect. -/
structure Journal (Issue : Type*) where
  reports : List (Stage × Issue)
  closer : Option Stage

def Journal.loaded (journal : Journal Issue) : Option (Stage × Issue) := journal.reports.getLast?

def Journal.note (journal : Journal Issue)
    (config : Config Item Input Output Issue Work Finish) (stage : Stage) : Journal Issue :=
  match config.phase stage with
  | .storing issue => { journal with reports := journal.reports ++ [(stage, issue)] }
  | .aborting => if config.abort then journal else { journal with closer := some stage }
  | .running | .done => journal

structure Moment (Item Input Output Issue Work Finish : Type*) where
  config : Config Item Input Output Issue Work Finish
  journal : Journal Issue
  stage : Stage

/-- No store is made behind the close, and the stage that closes is the one that stored
last. -/
def Moment.Undisturbed (moment : Moment Item Input Output Issue Work Finish) : Prop :=
  match moment.config.phase moment.stage with
  | .storing _ => moment.config.abort = false
  | .aborting =>
      moment.config.abort = false → moment.journal.loaded.map Prod.fst = some moment.stage
  | .running | .done => True

/-- The runs over the given items, with their steps and their journals. -/
inductive Run (stages : Stages Item Input Output Issue Work Finish)
    (inputCapacity outputCapacity : Nat) (items : List Item) (work : Work) (finish : Finish) :
    List (Moment Item Input Output Issue Work Finish) →
      Config Item Input Output Issue Work Finish → Journal Issue → Prop
  | start : Run stages inputCapacity outputCapacity items work finish []
      (start items work finish) ⟨[], none⟩
  | step {moments : List (Moment Item Input Output Issue Work Finish)}
      {config next : Config Item Input Output Issue Work Finish} {journal : Journal Issue}
      {stage : Stage}
      (run : Run stages inputCapacity outputCapacity items work finish moments config journal)
      (step : Step stages inputCapacity outputCapacity stage config next) :
      Run stages inputCapacity outputCapacity items work finish
        (moments ++ [⟨config, journal, stage⟩]) next (journal.note config stage)

/-- The issue that is left, if any, is the one of the stage that closed the abort channel. -/
def ReturnsClosing (config : Config Item Input Output Issue Work Finish)
    (journal : Journal Issue) : Prop :=
  ∀ issue, config.issue = some issue →
    ∃ stage, journal.closer = some stage ∧ journal.loaded = some (stage, issue)

/-- What the journal has to do with the state: it explains the issue and the abort flag, the
stage that closed the channel has nothing more to report, and behind a store there is a close
to come. -/
structure Accounted (config : Config Item Input Output Issue Work Finish)
    (journal : Journal Issue) : Prop where
  issue : config.issue = journal.loaded.map Prod.snd
  abort : config.abort = journal.closer.isSome
  closed : ∀ stage, journal.closer = some stage → config.phase stage = .done
  reported : journal.reports ≠ [] ↔
    config.abort = true ∨ ∃ stage, config.phase stage = .aborting

def Journal.CloserLast (journal : Journal Issue) : Prop :=
  ∀ stage, journal.closer = some stage → journal.loaded.map Prod.fst = some stage

section Runs

variable {stages : Stages Item Input Output Issue Work Finish} {inputCapacity outputCapacity : Nat}
variable {config next : Config Item Input Output Issue Work Finish} {journal : Journal Issue}
variable {stage : Stage}

theorem start_accounted (items : List Item) (work : Work) (finish : Finish) :
    Accounted (start items work finish : Config Item Input Output Issue Work Finish)
      (⟨[], none⟩ : Journal Issue) := by
  refine ⟨rfl, rfl, nofun, ⟨fun some_report => absurd rfl some_report, ?_⟩⟩
  rintro (aborted | ⟨stage, aborting⟩)
  · cases aborted
  · cases stage <;> cases aborting

theorem some_aborting_iff (others : ∀ other, other ≠ stage → next.phase other = config.phase other)
    (before : config.phase stage ≠ .aborting) (after : next.phase stage ≠ .aborting) :
    (∃ other, next.phase other = .aborting) ↔ ∃ other, config.phase other = .aborting := by
  refine exists_congr fun other => ?_
  by_cases same : other = stage
  · subst same
    exact iff_of_false after before
  · rw [others other same]

theorem Accounted.step (accounted : Accounted config journal)
    (step : Step stages inputCapacity outputCapacity stage config next) :
    Accounted next (journal.note config stage) := by
  have others : ∀ other, other ≠ stage → next.phase other = config.phase other :=
    fun other => step_phase_other step
  have stays : next.phase stage = .done → ∀ other, config.phase other = .done →
      next.phase other = .done := by
    intro done other wasDone
    by_cases same : other = stage
    · rw [same, done]
    · rw [others other same, wasDone]
  have left (closer : Stage) (closed : journal.closer = some closer)
      (running : config.phase stage ≠ .done) : next.phase closer = .done := by
    rw [others closer, accounted.closed closer closed]
    rintro rfl
    exact running (accounted.closed closer closed)
  cases step_reports step with
  | runs before after abort issue =>
      have noted : journal.note config stage = journal := by rw [Journal.note, before]
      rw [noted]
      refine ⟨issue.trans accounted.issue, abort.trans accounted.abort,
        fun closer closed => left closer closed (by simp [before]), ?_⟩
      rw [abort, some_aborting_iff others (by simp [before]) after]
      exact accounted.reported
  | stores before after abort stored =>
      rename_i issue
      have noted : journal.note config stage =
          { journal with reports := journal.reports ++ [(stage, issue)] } := by
        rw [Journal.note, before]
      rw [noted]
      refine ⟨?_, abort.trans accounted.abort,
        fun closer closed => left closer closed (by simp [before]), ?_⟩
      · rw [stored, Journal.loaded, List.getLast?_concat]
        rfl
      · exact iff_of_true (by simp) (Or.inr ⟨stage, after⟩)
  | aborts before after closed issue =>
      have someReport : journal.reports ≠ [] := accounted.reported.mpr (Or.inr ⟨stage, before⟩)
      cases aborted : config.abort with
      | true =>
          have noted : journal.note config stage = journal := by
            rw [Journal.note, before, aborted]
            rfl
          rw [noted]
          refine ⟨issue.trans accounted.issue, ?_, fun closer isCloser => ?_,
            iff_of_true someReport (Or.inl closed)⟩
          · rw [closed, ← aborted, accounted.abort]
          · exact left closer isCloser (by simp [before])
      | false =>
          have noted : journal.note config stage = { journal with closer := some stage } := by
            rw [Journal.note, before, aborted]
            rfl
          rw [noted]
          refine ⟨issue.trans accounted.issue, closed, fun closer isCloser => ?_,
            iff_of_true someReport (Or.inl closed)⟩
          obtain rfl := Option.some.inj isCloser
          exact after
  | leaves before after abort issue =>
      have noted : journal.note config stage = journal := by rw [Journal.note, before]
      rw [noted]
      refine ⟨issue.trans accounted.issue, abort.trans accounted.abort,
        fun closer closed => stays after closer (accounted.closed closer closed), ?_⟩
      rw [abort, some_aborting_iff others (by simp [before]) (by simp [after])]
      exact accounted.reported

/-- One step lets the stage that closed the channel be overtaken exactly if it is disturbed. -/
theorem closer_last_step (accounted : Accounted config journal) (stage : Stage) :
    (journal.note config stage).CloserLast ↔
      journal.CloserLast ∧ Moment.Undisturbed ⟨config, journal, stage⟩ := by
  have open_iff : config.abort = false ↔ journal.closer = none := by
    rw [accounted.abort, Option.isSome_eq_false_iff, Option.isNone_iff_eq_none]
  cases phase : config.phase stage with
  | running => simp only [Journal.note, Moment.Undisturbed, phase, and_true]
  | done => simp only [Journal.note, Moment.Undisturbed, phase, and_true]
  | storing issue =>
      simp only [Journal.note, Moment.Undisturbed, phase]
      constructor
      · intro last
        have closerNone : journal.closer = none := by
          refine Option.eq_none_iff_forall_ne_some.mpr fun closer closed => ?_
          have overtaken := last closer closed
          rw [Journal.loaded, List.getLast?_concat] at overtaken
          obtain rfl : stage = closer := Option.some.inj overtaken
          have done := accounted.closed stage closed
          rw [phase] at done
          cases done
        refine ⟨fun closer closed => ?_, open_iff.mpr closerNone⟩
        rw [closerNone] at closed
        cases closed
      · rintro ⟨_, undisturbed⟩ closer closed
        change journal.closer = some closer at closed
        rw [open_iff.mp undisturbed] at closed
        cases closed
  | aborting =>
      cases aborted : config.abort with
      | true => simp [Journal.note, Moment.Undisturbed, phase, aborted]
      | false =>
          have closerNone := open_iff.mp aborted
          simp only [Journal.note, Moment.Undisturbed, phase, aborted, Bool.false_eq_true,
            if_false, forall_const]
          constructor
          · intro last
            refine ⟨fun closer closed => ?_, last stage rfl⟩
            rw [closerNone] at closed
            cases closed
          · rintro ⟨_, stored⟩ closer closed
            obtain rfl := Option.some.inj closed
            exact stored

variable {items : List Item} {work : Work} {finish : Finish}
variable {moments : List (Moment Item Input Output Issue Work Finish)}

theorem Run.reachable
    (run : Run stages inputCapacity outputCapacity items work finish moments config journal) :
    Reachable stages inputCapacity outputCapacity items work finish config := by
  induction run with
  | start => exact .start
  | step _ step inductionHypothesis => exact .step inductionHypothesis step

theorem Run.accounted
    (run : Run stages inputCapacity outputCapacity items work finish moments config journal) :
    Accounted config journal := by
  induction run with
  | start => exact start_accounted items work finish
  | step _ step inductionHypothesis => exact inductionHypothesis.step step

theorem Run.closer_last_iff
    (run : Run stages inputCapacity outputCapacity items work finish moments config journal) :
    journal.CloserLast ↔ ∀ moment ∈ moments, moment.Undisturbed := by
  induction run with
  | start => exact iff_of_true nofun (List.forall_mem_nil _)
  | step run _ inductionHypothesis =>
      rw [closer_last_step run.accounted, inductionHypothesis, List.forall_mem_append,
        List.forall_mem_singleton]

theorem exited_phase (exited : AllExited config) (stage : Stage) : config.phase stage = .done := by
  obtain ⟨source, worker, sink⟩ := exited
  cases stage <;> simp only [Config.phase, source, worker, sink]

/-- At the end of a run every stored issue is behind a close, so what is returned can be
compared with the stage that closed the channel. -/
theorem Run.returns_closing_iff
    (run : Run stages inputCapacity outputCapacity items work finish moments config journal)
    (exited : AllExited config) :
    ReturnsClosing config journal ↔ ∀ moment ∈ moments, moment.Undisturbed := by
  rw [← run.closer_last_iff]
  have accounted := run.accounted
  have reported : journal.reports ≠ [] ↔ journal.closer ≠ none := by
    rw [accounted.reported, accounted.abort, Option.isSome_iff_ne_none]
    refine or_iff_left ?_
    rintro ⟨stage, aborting⟩
    rw [exited_phase exited] at aborting
    cases aborting
  constructor
  · intro returns stage closed
    have someReport : journal.loaded ≠ none := by
      rw [Journal.loaded, Ne, List.getLast?_eq_none_iff]
      exact reported.mpr (by simp [closed])
    obtain ⟨⟨reporter, issue⟩, loaded⟩ := Option.ne_none_iff_exists'.mp someReport
    have left : config.issue = some issue := by rw [accounted.issue, loaded]; rfl
    obtain ⟨closer, isCloser, isLoaded⟩ := returns issue left
    rw [closed] at isCloser
    rw [isLoaded, Option.some.inj isCloser]
    rfl
  · intro last issue left
    rw [accounted.issue, Option.map_eq_some_iff] at left
    obtain ⟨⟨reporter, _⟩, loaded, rfl⟩ := left
    have someReport : journal.reports ≠ [] := by
      rintro none
      rw [Journal.loaded, none] at loaded
      cases loaded
    obtain ⟨closer, isCloser⟩ := Option.ne_none_iff_exists'.mp (reported.mp someReport)
    have stored := last closer isCloser
    rw [loaded] at stored
    obtain rfl : reporter = closer := Option.some.inj stored
    exact ⟨reporter, isCloser, loaded⟩

end Runs

end Bertha.Pipeline
