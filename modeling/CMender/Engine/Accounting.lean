import Mathlib.Algebra.Order.BigOperators.Group.Finset
import CMender.Engine.Pool
import CMender.Engine.UnknownCounts

/-! Whether every file turns up in the report. The report needs the array that is
allocated only for reports per source; and the loop of a single thread ends with an
exception when one leaves the mending of a file, which happens for an empty answer of
the exporter and for an unknown diagnostic without a label. -/
namespace CMender
open Foundations Foundations.Execution Foundations.Looping Foundations.Interleaving

section Throwing
variable {surroundings : Surroundings} {invocation : CMenderInvocation} {iteration : Nat} {s t : EngineState}
  {e : JavaException}

/-- Only an empty answer makes an iteration throw what the loop does not catch. -/
theorem mendingIteration_thrown (thrown : mendingIteration surroundings invocation iteration s = .error e t) :
    surroundings.exporter iteration s = .ok [] ∧ e = .noSuchElement ∨
      surroundings.exporter iteration s ≠ .ok [] ∧ ∃ type message number, e = .fatal type message number := by
  unfold mendingIteration at thrown
  rcases bind_error.mp thrown with failed | ⟨results, _, called, thrown⟩
  · obtain ⟨_, ⟨failure, answered⟩, type, message, rfl⟩ := callDiagExporter_error failed
    rw [answered]
    exact .inr ⟨nofun, type, message, _, rfl⟩
  obtain ⟨answered, rfl⟩ := callDiagExporter_ok.mp called
  rcases bind_error.mp thrown with failed | ⟨sourceResult, _, taken, thrown⟩
  · left
    obtain ⟨missing, rfl⟩ := raise_error.mp failed
    obtain ⟨none, rfl⟩ := orThrow_error.mp missing
    rw [answered, List.head?_eq_none_iff.mp none]
    exact ⟨rfl, rfl⟩
  obtain ⟨first, rfl⟩ := raise_ok.mp taken
  right
  constructor
  · intro empty
    rw [empty] at answered
    cases answered
    cases first
  · rcases bind_error.mp thrown with failed | ⟨_, sized, noted, thrown⟩
    · obtain ⟨_, failed, _⟩ := onMending_error.mp failed
      exact (modify_error failed).elim
    · obtain ⟨rfl, _⟩ := tryCatch_error.mp thrown
      exact ⟨_, _, _, rfl⟩

theorem foldlM_countUnknownDiag_error {unknownDiags : List DiagnosticShortInfo} {frequency : Map String Nat}
    (failed : unknownDiags.foldlM countUnknownDiag frequency = .error e) :
    ∃ info ∈ unknownDiags, info.labelId = none := by
  obtain ⟨before, info, member, thrown⟩ := foldlM_error failed
  refine ⟨info, member, ?_⟩
  cases own : info.labelId with
  | none => rfl
  | some label =>
    have counted : countUnknownDiag before info = .ok (before.insert label (getOrDefault before label + 1)) :=
      countUnknownDiag_ok.mpr ⟨label, own, rfl⟩
    cases counted.symm.trans thrown

end Throwing

/-- The exporter's answer has a result, and an unknown first error in it that was not
handled before has a label, unless the iteration fails before it is counted. -/
structure RoundUsable (surroundings : Surroundings) (invocation : CMenderInvocation) (s : LoopState) : Prop where
  answered : surroundings.exporter (s.currentIteration + 1) s.engine ≠ .ok []
  labels : ∀ sourceResult diag, Answers surroundings (s.currentIteration + 1) s.engine sourceResult →
    NewUnknown surroundings.sourceFile s.engine.handled sourceResult diag → (∃ label, diag.labelId = some label) ∨
      ∃ e engine, mendingIteration surroundings invocation (s.currentIteration + 1) s.engine = .error e engine

section Rounds
variable {surroundings : Surroundings} {invocation : CMenderInvocation} {s next : LoopState} {outcome : MendOutcome}

theorem labelId_ofDiagnostic {diag : Diagnostic} {info : DiagnosticShortInfo}
    (short : DiagnosticShortInfo.ofDiagnostic diag = .ok info) : info.labelId = diag.labelId := by
  obtain ⟨location, _, same⟩ := except_bind_ok.mp short
  cases same
  rfl

/-- An iteration that returns has recorded the unknown diagnostic that its check came to. -/
theorem allLabelled_iteration_iff {iteration : Nat} {before after : EngineState} {result : MendingIterationResult}
    (labelled : AllLabelled before.unknownDiags)
    (returned : mendingIteration surroundings invocation iteration before = .ok result after) :
    AllLabelled after.unknownDiags ↔ ∀ sourceResult diag, Answers surroundings iteration before sourceResult →
      NewUnknown surroundings.sourceFile before.handled sourceResult diag → ∃ label, diag.labelId = some label := by
  obtain ⟨own, recorded, answers, appended, records, _⟩ := mendingIteration_recorded returned
  rw [appended]
  constructor
  · intro labels sourceResult diag answersToo found
    obtain rfl := answers.unique answersToo
    rcases records with ⟨_, none⟩ | ⟨other, info, otherFound, short, rfl⟩
    · exact absurd found (none diag)
    · obtain ⟨_, isFirst, present⟩ := otherFound.newFirst.first
      obtain rfl := found.newFirst.eq_of_first isFirst present
      rw [← labelId_ofDiagnostic short]
      exact labels info (List.mem_append_right _ (List.mem_singleton_self info))
  · intro labels info listed
    rcases List.mem_append.mp listed with earlier | last
    · exact labelled info earlier
    · rcases records with ⟨rfl, _⟩ | ⟨diag, other, found, short, rfl⟩
      · cases last
      · obtain rfl := List.mem_singleton.mp last
        rw [labelId_ofDiagnostic short]
        exact labels own diag answers found

theorem roundUsable_of_inl (labelled : AllLabelled s.unknownDiags)
    (stepped : loopStep surroundings invocation s = .inl next) : RoundUsable surroundings invocation s := by
  obtain ⟨_, _, result, engine, frequency, iterated, counted, rfl⟩ := loopStep_inl_iff.mp stepped
  constructor
  · intro empty
    obtain ⟨sourceResult, ⟨results, answered, first⟩, _⟩ := mendingIteration_ok iterated
    cases empty.symm.trans answered
    cases first
  · intro sourceResult diag answers found
    exact .inl ((allLabelled_iteration_iff labelled iterated).mp (foldlM_countUnknownDiag counted).2 sourceResult diag
      answers found)

/-- The round that ends the loop returns a result unless it was an iteration that
could not be used. -/
theorem LoopEnd.returned_iff (labelled : AllLabelled s.unknownDiags)
    (ending : LoopEnd surroundings invocation s outcome) :
    (∃ result, outcome.result = .ok result) ↔
      (s.stopped = false → surroundings.timedOut s.currentIteration = false →
        RoundUsable surroundings invocation s) := by
  cases ending with
  | stopped stop => exact ⟨fun _ running => (nomatch stop.symm.trans running), fun _ => ⟨_, rfl⟩⟩
  | timedOut _ late => exact ⟨fun _ _ inTime => (nomatch late.symm.trans inTime), fun _ => ⟨_, rfl⟩⟩
  | fatal running inTime thrown =>
    refine ⟨fun _ _ _ => ⟨?_, fun _ _ _ _ => .inr ⟨_, _, thrown⟩⟩, fun _ => ⟨_, rfl⟩⟩
    rcases mendingIteration_thrown thrown with ⟨_, same⟩ | ⟨answered, _⟩
    · cases same
    · exact answered
  | escaped running inTime thrown uncaught =>
    refine ⟨fun ⟨_, returned⟩ => (nomatch returned), fun usable => ?_⟩
    rcases mendingIteration_thrown thrown with ⟨empty, _⟩ | ⟨_, type, message, number, same⟩
    · exact ((usable running inTime).answered empty).elim
    · exact (uncaught type message number same).elim
  | uncounted running inTime iterated failed =>
    refine ⟨fun ⟨_, returned⟩ => (nomatch returned), fun usable => ?_⟩
    obtain ⟨info, member, missing⟩ := foldlM_countUnknownDiag_error failed
    have labels : AllLabelled _ := (allLabelled_iteration_iff labelled iterated).mpr
      fun sourceResult diag answers found =>
      ((usable running inTime).labels sourceResult diag answers found).resolve_right fun ⟨_, _, thrown⟩ =>
        nomatch iterated.symm.trans thrown
    obtain ⟨label, own⟩ := labels info member
    cases missing.symm.trans own

theorem allLabelled_of_rounds {start : LoopState} (unrecorded : NoneRecorded start)
    (run : Rounds (loopStep surroundings invocation) (fun _ => True) start s) : AllLabelled s.unknownDiags := by
  cases run with
  | refl =>
    intro info listed
    rw [unrecorded] at listed
    cases listed
  | tail _ head => exact (loopStep_counts head.2).2

end Rounds

namespace FileRun
variable {run : FileRun} {invocation : CMenderInvocation} {dir : MendingDirData}

/-- Every iteration that is begun can be used. -/
def Usable (run : FileRun) (invocation : CMenderInvocation) : Prop :=
  ∀ dir, run.mendingDirData = some dir → ∀ s,
    Rounds (loopStep (run.surroundings dir) invocation) (fun _ => True) run.start s →
    s.stopped = false → run.timedOut s.currentIteration = false → RoundUsable (run.surroundings dir) invocation s

def Mends (run : FileRun) (invocation : CMenderInvocation) (outcome : Except JavaException MendBundle) : Prop :=
  ∃ fuel, run.mend invocation fuel = some outcome

/-- Keeping the times does not change what the loop does. -/
theorem timedLoop_outcome (run : FileRun) (invocation : CMenderInvocation) (dir : MendingDirData) (fuel : Nat)
    (s : TimedLoop) :
    (iterate (timedStep (run.surroundings dir) invocation run.clock) fuel s).map (·.outcome) =
      iterate (loopStep (run.surroundings dir) invocation) fuel s.loop := by
  have simulates : ∀ timed : TimedLoop, loopStep (run.surroundings dir) invocation timed.loop =
      (timedStep (run.surroundings dir) invocation run.clock timed).map TimedLoop.loop (·.outcome) := by
    intro timed
    unfold timedStep
    cases loopStep (run.surroundings dir) invocation timed.loop <;> rfl
  exact (iterate_simulates simulates fuel s).symm

/-- The loop ends at the latest when its time has run out. -/
theorem loop_ends (run : FileRun) (invocation : CMenderInvocation) (dir : MendingDirData) {deadline : Nat}
    (late : run.timedOut deadline = true) :
    ∃ outcome, iterate (loopStep (run.surroundings dir) invocation) (deadline + 1) run.start = some outcome := by
  have progress : ∀ s next, s.currentIteration ≤ deadline →
      loopStep (run.surroundings dir) invocation s = .inl next →
      next.currentIteration ≤ deadline ∧ deadline - next.currentIteration < deadline - s.currentIteration := by
    intro s next within stepped
    obtain ⟨_, inTime, result, engine, frequency, _, _, rfl⟩ := loopStep_inl_iff.mp stepped
    have before : s.currentIteration ≠ deadline := by
      intro reached
      have inTime : run.timedOut s.currentIteration = false := inTime
      rw [reached, late] at inTime
      cases inTime
    have counted : (s.recorded invocation.continueOnUnknownDiagnostic result engine frequency).currentIteration =
      s.currentIteration + 1 := rfl
    omega
  have start : run.start.currentIteration = 0 := rfl
  exact iterate_answers progress (deadline + 1) run.start (by omega) (by omega)

theorem mend_outcome (created : run.mendingDirData = some dir) {fuel : Nat} {outcome : MendOutcome}
    (looped : iterate (loopStep (run.surroundings dir) invocation) fuel run.start = some outcome) :
    ∃ answer, run.mend invocation fuel = some answer ∧
      ((∃ bundle, answer = .ok bundle) ↔ ∃ result, outcome.result = .ok result) := by
  have timed := (timedLoop_outcome run invocation dir fuel ⟨run.start, 0, []⟩).trans looped
  obtain ⟨ended, same, rfl⟩ := Option.map_eq_some_iff.mp timed
  rcases mend_created invocation fuel created with
    ⟨unfinished, _⟩ | ⟨other, looped', ⟨e, thrown, mended⟩ | ⟨result, bundle, returned, mended, _⟩⟩
  · cases unfinished.symm.trans same
  · obtain rfl := Option.some.inj (looped'.symm.trans same)
    rw [thrown]
    exact ⟨_, mended, fun ⟨_, found⟩ => (nomatch found), fun ⟨_, found⟩ => (nomatch found)⟩
  · obtain rfl := Option.some.inj (looped'.symm.trans same)
    exact ⟨_, mended, fun _ => ⟨result, returned⟩, fun _ => ⟨bundle, rfl⟩⟩

/-- An exception leaves the mending of a file just when a round cannot be used. -/
theorem returns_iff_usable {answer : Except JavaException MendBundle} (mended : run.Mends invocation answer) :
    (∃ bundle, answer = .ok bundle) ↔ run.Usable invocation := by
  obtain ⟨fuel, mended⟩ := mended
  cases created : run.mendingDirData with
  | none =>
    unfold mend at mended
    rw [created] at mended
    refine ⟨fun _ dir found => ?_, fun _ => ⟨_, (Option.some.inj mended).symm⟩⟩
    cases created.symm.trans found
  | some dir =>
    obtain ⟨outcome, looped⟩ : ∃ outcome,
        iterate (loopStep (run.surroundings dir) invocation) fuel run.start = some outcome := by
      rcases mend_created invocation fuel created with ⟨_, unfinished⟩ | ⟨ended, timed, _⟩
      · cases unfinished.symm.trans mended
      · refine ⟨ended.outcome, (timedLoop_outcome run invocation dir fuel ⟨run.start, 0, []⟩).symm.trans ?_⟩
        exact congrArg (Option.map (·.outcome)) timed
    obtain ⟨found, again, returned⟩ := mend_outcome created looped
    obtain rfl := Option.some.inj (mended.symm.trans again)
    obtain ⟨last, rounds, ended⟩ := rounds_of_iterate looped
    have unrecorded : NoneRecorded run.start := rfl
    have ending := (loopEnd_of_inr ended).returned_iff (allLabelled_of_rounds unrecorded rounds)
    rw [returned, ending]
    constructor
    · intro usable dir' created' s reached running inTime
      obtain rfl : dir = dir' := Option.some.inj (created.symm.trans created')
      cases stepped : loopStep (run.surroundings dir) invocation s with
      | inl next => exact roundUsable_of_inl (allLabelled_of_rounds unrecorded reached) stepped
      | inr other =>
        obtain ⟨more, iterated⟩ := iterate_of_rounds reached stepped
        obtain rfl := iterate_unique iterated looped
        exact ((loopEnd_of_inr stepped).returned_iff (allLabelled_of_rounds unrecorded reached)).mp (ending.mpr usable)
          running inTime
    · intro usable
      exact usable dir created last rounds

theorem mends_total (late : ∃ deadline, run.timedOut deadline = true) : ∃ answer, run.Mends invocation answer := by
  cases created : run.mendingDirData with
  | none =>
    refine ⟨.ok .mendingDirNotCreated, 0, ?_⟩
    unfold mend
    rw [created]
  | some dir =>
    obtain ⟨deadline, late⟩ := late
    obtain ⟨outcome, looped⟩ := loop_ends run invocation dir late
    obtain ⟨answer, mended, _⟩ := mend_outcome created looped
    exact ⟨answer, deadline + 1, mended⟩

end FileRun

structure ExecuteOptions where
  reportPerSource : Bool
  threads : Int

/-- What `execute` may answer when the files come to these outcomes. A pool is given up
after an hour, so that its report may be drawn up in any state that it has reached. -/
inductive Executes (options : ExecuteOptions) (tasks : List FileTask) :
    Except JavaException (Option CMenderReport) → Prop where
  | nothing : tasks = [] → Executes options tasks (.ok none)
  | single : tasks ≠ [] → options.threads = 1 →
      Executes options tasks ((executeSingle options.reportPerSource tasks).map some)
  | noPool : tasks ≠ [] → options.threads < 1 → Executes options tasks (.error (.illegalArgument ""))
  | pool {schedule c} : tasks ≠ [] → 1 < options.threads →
      Reaches (Turn (taskStep options.reportPerSource)) (submitted options.reportPerSource tasks) schedule c →
      Executes options tasks ((c.shared.report options.reportPerSource (tasks.map (·.file))).map some)

/-- The report has a place for every one of so many files. -/
structure CMenderReport.Accounts (report : CMenderReport) (reportPerSource : Bool) (files : Nat) : Prop where
  total : report.totalFiles = files
  sum : report.successCount + report.unsuccessfulCount = report.totalFiles
  exceptions : report.fatalExceptionCount ≤ report.unsuccessfulCount
  results : if reportPerSource then report.sourceResults = [] else report.sourceResults.length = files

section Reports
variable {tally : Tally} {files : List String} {report : CMenderReport}

/-- Without reports per source there is no array to collect the results in. -/
theorem report_null (null : tally.sourceResults = none) : tally.report false files = .error .nullPointer := by
  unfold Tally.report
  rw [null]
  rfl

theorem report_accounts {count : Nat} (length : files.length = count)
    (few : tally.successCount + tally.exceptionCount ≤ count) : ∃ report,
    tally.report true files = .ok report ∧ report.Accounts true count := by
  subst length
  refine ⟨_, rfl, rfl, ?_, ?_, rfl⟩
  · change (tally.successCount : Int) + (files.length - tally.successCount) = files.length
    omega
  · change (tally.exceptionCount : Int) ≤ files.length - tally.successCount
    omega

end Reports

section Pools
variable {reportPerSource : Bool} {tasks : List FileTask} {c : Config (Fin tasks.length) Tally Task}
  {schedule : List (Fin tasks.length)}

/-- A file that succeeded has no exception to be counted. -/
theorem Task.counted_once (task : Task) : task.successes + task.exceptions ≤ 1 := by
  unfold Task.successes Task.exceptions
  cases task.outcome with
  | error e => exact Nat.zero_le 1
  | ok bundle =>
    dsimp only
    by_cases succeeded : bundle.sourceResult.success = true
    · rw [bundle.succeeded succeeded]
      split <;> split <;> simp_all
    · split <;> split <;> simp_all
      all_goals split <;> omega

theorem pool_counts
    (run : Reaches (Turn (taskStep reportPerSource)) (submitted reportPerSource tasks) schedule c) :
    c.shared.successCount + c.shared.exceptionCount ≤ tasks.length := by
  have tallied := tallied_run run
  rw [tallied.successes, tallied.exceptions, ← Finset.sum_add_distrib]
  calc ∑ i, ((c.workers i).successes + (c.workers i).exceptions)
      ≤ ∑ _ : Fin tasks.length, 1 := Finset.sum_le_sum fun i _ => (c.workers i).counted_once
    _ = tasks.length := by simp

theorem TaskMove.sourceResults_null {tally after : Tally} {task next : Task}
    (move : TaskMove false tally task after next) (null : tally.sourceResults = none) :
    after.sourceResults = none := by
  cases move with
  | reported _ _ returned =>
    unfold Tally.reportSource at returned
    rw [null] at returned
    cases returned
  | escaped => exact null
  | countedSuccess => exact null
  | countedException => exact null
  | unreported => exact null
  | kept => exact null

theorem pool_sourceResults_null (run : Reaches (Turn (taskStep false)) (submitted false tasks) schedule c) :
    c.shared.sourceResults = none := by
  refine run.invariant (P := fun c => c.shared.sourceResults = none) (fun null taken => ?_) rfl
  obtain ⟨tally, task, stepped, rfl⟩ := turn_iff.mp taken
  exact (taskMove_of_step stepped).sourceResults_null null

end Pools

section Single
variable {tasks : List FileTask}

theorem executeFile_sourceResults_null {tally after : Tally} {indexed : FileTask × Nat}
    (returned : executeFile false tally indexed = .ok after) (null : tally.sourceResults = none) :
    after.sourceResults = none := by
  obtain ⟨bundle, _, rest⟩ := except_bind_ok.mp returned
  dsimp only at rest
  split at rest
  · cases rest
    exact null
  · obtain ⟨reported, failed, _⟩ := except_bind_ok.mp rest
    unfold Tally.reportSource at failed
    rw [show ((tally.countSuccess bundle).countException bundle).sourceResults = none from null] at failed
    cases failed

theorem executeSingle_null (tasks : List FileTask) : ∃ e, executeSingle false tasks = .error e := by
  cases answer : executeSingle false tasks with
  | error e => exact ⟨e, rfl⟩
  | ok report =>
    obtain ⟨tally, looped, reported⟩ := except_bind_ok.mp answer
    have null : tally.sourceResults = none :=
      foldlM_invariant (P := fun tally => tally.sourceResults = none) executeFile_sourceResults_null looped rfl
    cases (report_null null).symm.trans reported

theorem executeSingle_escaped (reportPerSource : Bool) {task : FileTask} {e : JavaException}
    (member : task ∈ tasks) (escaped : task.outcome = .error e) :
    ∃ e, executeSingle reportPerSource tasks = .error e := by
  cases answer : executeSingle reportPerSource tasks with
  | error e => exact ⟨e, rfl⟩
  | ok report =>
    obtain ⟨tally, looped, _⟩ := except_bind_ok.mp answer
    obtain ⟨place, found⟩ := List.mem_iff_getElem?.mp member
    obtain ⟨before, after, returned⟩ := foldlM_returned looped (List.mk_mem_zipIdx_iff_getElem?.mpr found)
    obtain ⟨bundle, outcome, _⟩ := except_bind_ok.mp returned
    cases escaped.symm.trans outcome

theorem sum_counts_le (files : List (String × MendBundle)) :
    (files.map fun file => file.2.successes).sum + (files.map fun file => file.2.seenExceptions).sum ≤
      files.length := by
  induction files with
  | nil => exact Nat.le_refl 0
  | cons file rest ih =>
    have one : file.2.successes + file.2.seenExceptions ≤ 1 := by
      unfold MendBundle.successes MendBundle.seenExceptions MendBundle.exceptions
      by_cases succeeded : file.2.sourceResult.success = true
      · rw [file.2.succeeded succeeded]
        simp [succeeded]
      · rw [if_neg succeeded]
        split
        · omega
        · split <;> omega
    rw [List.map_cons, List.sum_cons, List.map_cons, List.sum_cons, List.length_cons]
    omega

/-- When all files come to bundles, the single thread accounts for them. -/
theorem executeSingle_accounts (files : List (String × MendBundle)) : ∃ report,
    executeSingle true (returning files) = .ok report ∧ report.Accounts true (returning files).length := by
  obtain ⟨tally, looped, successes, exceptions, _⟩ := executeSingle_returning files
  have few : tally.successCount + tally.exceptionCount ≤ (returning files).length := by
    rw [successes, exceptions, returning, List.length_map]
    exact sum_counts_le files
  obtain ⟨report, reported, accounts⟩ := report_accounts (List.length_map _) few
  exact ⟨report, looped.trans reported, accounts⟩

theorem returning_of_ok (returned : ∀ task ∈ tasks, ∃ bundle, task.outcome = .ok bundle) :
    ∃ files, tasks = returning files := by
  induction tasks with
  | nil => exact ⟨[], rfl⟩
  | cons task rest ih =>
    obtain ⟨bundle, own⟩ := returned task List.mem_cons_self
    obtain ⟨files, rfl⟩ := ih fun other member => returned other (List.mem_cons_of_mem _ member)
    refine ⟨(task.file, bundle) :: files, ?_⟩
    change task :: returning files = ⟨task.file, .ok bundle⟩ :: returning files
    rw [← own]

end Single

/-- The tasks of the files, each with what its mending comes to. -/
def TasksOf (invocation : CMenderInvocation) (runs : List FileRun) (tasks : List FileTask) : Prop :=
  List.Forall₂ (fun run task => task.file = run.sourceFile ∧ run.Mends invocation task.outcome) runs tasks

section Tasks
variable {invocation : CMenderInvocation} {runs : List FileRun} {tasks : List FileTask} {options : ExecuteOptions}

theorem tasksOf_exists (invocation : CMenderInvocation)
    (clocks : ∀ run ∈ runs, ∃ deadline, run.timedOut deadline = true) :
    ∃ tasks, TasksOf invocation runs tasks := by
  induction runs with
  | nil => exact ⟨[], .nil⟩
  | cons run rest ih =>
    obtain ⟨tasks, later⟩ := ih fun other member => clocks other (List.mem_cons_of_mem _ member)
    obtain ⟨answer, mended⟩ := FileRun.mends_total (clocks run List.mem_cons_self)
    exact ⟨⟨run.sourceFile, answer⟩ :: tasks, .cons ⟨rfl, mended⟩ later⟩

theorem TasksOf.returned_iff (given : TasksOf invocation runs tasks) :
    (∀ task ∈ tasks, ∃ bundle, task.outcome = .ok bundle) ↔ ∀ run ∈ runs, run.Usable invocation := by
  induction given with
  | nil => exact ⟨fun _ _ member => (nomatch member), fun _ _ member => (nomatch member)⟩
  | cons own _ ih =>
    rw [List.forall_mem_cons, List.forall_mem_cons, ih, FileRun.returns_iff_usable own.2]

theorem executes_exists (options : ExecuteOptions) (tasks : List FileTask) :
    ∃ answer, Executes options tasks answer := by
  by_cases empty : tasks = []
  · exact ⟨_, .nothing empty⟩
  · rcases Int.lt_trichotomy options.threads 1 with none | one | many
    · exact ⟨_, .noPool empty none⟩
    · exact ⟨_, .single empty one⟩
    · exact ⟨_, .pool empty many (.refl _)⟩

/-- An answer that accounts for all files. -/
def Accounted (options : ExecuteOptions) (files : Nat) (answer : Except JavaException (Option CMenderReport)) : Prop :=
  ∃ report, answer = .ok (some report) ∧ report.Accounts options.reportPerSource files

theorem not_accounted_error {files : Nat} {e : JavaException} {answer : Except JavaException CMenderReport}
    (failed : answer = .error e) : ¬ Accounted options files (answer.map some) := by
  rintro ⟨report, returned, _⟩
  rw [failed] at returned
  cases returned

theorem reportPerSource_of_accounted (nonempty : tasks ≠ [])
    (accounted : ∀ answer, Executes options tasks answer → Accounted options tasks.length answer) :
    options.reportPerSource = true := by
  obtain ⟨answer, executed⟩ := executes_exists options tasks
  have found := accounted answer executed
  by_contra off
  rw [Bool.not_eq_true] at off
  cases executed with
  | nothing empty => exact nonempty empty
  | single =>
    rw [off] at found
    obtain ⟨e, failed⟩ := executeSingle_null tasks
    exact not_accounted_error failed found
  | noPool =>
    obtain ⟨report, returned, _⟩ := found
    cases returned
  | pool _ _ run =>
    rw [off] at found run
    exact not_accounted_error (report_null (pool_sourceResults_null run)) found

/-- Which options and outcomes make `execute` answer with such a report. -/
theorem accounted_iff (nonempty : tasks ≠ []) :
    (∀ answer, Executes options tasks answer → Accounted options tasks.length answer) ↔
    options.reportPerSource = true ∧
      (options.threads = 1 ∧ (∀ task ∈ tasks, ∃ bundle, task.outcome = .ok bundle) ∨ 1 < options.threads) := by
  constructor
  · intro accounted
    refine ⟨reportPerSource_of_accounted nonempty accounted, ?_⟩
    rcases Int.lt_trichotomy options.threads 1 with none | one | many
    · obtain ⟨report, returned, _⟩ := accounted _ (.noPool nonempty none)
      cases returned
    · refine .inl ⟨one, fun task member => ?_⟩
      cases outcome : task.outcome with
      | ok bundle => exact ⟨bundle, rfl⟩
      | error e =>
        obtain ⟨e, failed⟩ := executeSingle_escaped options.reportPerSource member outcome
        exact (not_accounted_error failed (accounted _ (.single nonempty one))).elim
    · exact .inr many
  · rintro ⟨perSource, modes⟩ answer executed
    unfold Accounted
    cases executed with
    | nothing empty => exact (nonempty empty).elim
    | single _ one =>
      rcases modes with ⟨_, returned⟩ | many
      · obtain ⟨files, rfl⟩ := returning_of_ok returned
        obtain ⟨report, looped, accounts⟩ := executeSingle_accounts files
        rw [perSource, looped]
        exact ⟨report, rfl, accounts⟩
      · omega
    | noPool _ none => rcases modes with ⟨one, _⟩ | many <;> omega
    | pool _ _ run =>
      rw [perSource] at run ⊢
      obtain ⟨report, reported, accounts⟩ := report_accounts (List.length_map _) (pool_counts run)
      exact ⟨report, by rw [reported]; rfl, accounts⟩

end Tasks

/-- Every file is accounted for just when results are reported per source and no
exception can end the loop over the files. -/
theorem every_file_accounted_iff (invocation : CMenderInvocation) (options : ExecuteOptions)
    (runs : List FileRun) (nonempty : runs ≠ [])
    (clocks : ∀ run ∈ runs, ∃ deadline, run.timedOut deadline = true) :
    ((∃ tasks answer, TasksOf invocation runs tasks ∧ Executes options tasks answer) ∧
      ∀ tasks answer, TasksOf invocation runs tasks → Executes options tasks answer → ∃ report,
        answer = .ok (some report) ∧ report.totalFiles = runs.length ∧
        report.successCount + report.unsuccessfulCount = report.totalFiles ∧
        report.fatalExceptionCount ≤ report.unsuccessfulCount ∧
        if options.reportPerSource then report.sourceResults = []
        else report.sourceResults.length = runs.length) ↔
    options.reportPerSource = true ∧
      (options.threads = 1 ∧ (∀ run ∈ runs, run.Usable invocation) ∨ 1 < options.threads) := by
  have filled {tasks : List FileTask} (given : TasksOf invocation runs tasks) : tasks ≠ [] := by
    rintro rfl
    exact nonempty (List.forall₂_nil_right_iff.mp given)
  obtain ⟨tasks, given⟩ := tasksOf_exists invocation clocks
  constructor
  · rintro ⟨_, accounted⟩
    rw [← given.returned_iff, ← accounted_iff (filled given), ← given.length_eq]
    intro answer executed
    obtain ⟨report, returned, total, sum, exceptions, results⟩ := accounted tasks answer given executed
    exact ⟨report, returned, total, sum, exceptions, results⟩
  · intro condition
    obtain ⟨answer, executed⟩ := executes_exists options tasks
    refine ⟨⟨tasks, answer, given, executed⟩, fun tasks answer given executed => ?_⟩
    rw [← given.returned_iff, ← accounted_iff (filled given)] at condition
    obtain ⟨report, returned, accounts⟩ := condition answer executed
    rw [given.length_eq]
    exact ⟨report, returned, accounts.total, accounts.sum, accounts.exceptions, accounts.results⟩

/-- A run can be used when the exporter always has a result, with labels for what is unknown. -/
theorem FileRun.usable_of_answers {run : FileRun} {invocation : CMenderInvocation}
    (answers : ∀ iteration s, ∃ first rest, run.exporter iteration s = .ok (first :: rest) ∧
      ∀ diag ∈ first.diags, diag.diagnosticID.isUnknown = true → ∃ label, diag.labelId = some label) :
    run.Usable invocation := by
  intro dir _ s _ _ _
  obtain ⟨first, rest, answered, labels⟩ := answers (s.currentIteration + 1) s.engine
  constructor
  · exact fun empty => nomatch answered.symm.trans empty
  · rintro sourceResult diag ⟨results, again, isFirst⟩ found
    obtain rfl := Except.ok.inj (answered.symm.trans again)
    obtain rfl := Option.some.inj isFirst
    obtain ⟨idx, _, present⟩ := found.newFirst.first
    exact .inl (labels diag (List.mem_of_getElem? present) found.unknown)

/-- A file with an error that has no handler. -/
def unhandledRun : FileRun :=
  { cleanRun with sourceFile := "unhandled.c", exporter := fun _ _ => .ok [.ofErrors [unhandled]] }

def threeRuns : List FileRun := [cleanRun, twoErrorsRun, unhandledRun]

theorem every_file_accounted_three : ∃ tasks answer report,
    TasksOf ⟨.basicFirstError, false, false, false⟩ threeRuns tasks ∧ Executes ⟨true, 1⟩ tasks answer ∧
    answer = .ok (some report) ∧ report.totalFiles = 3 ∧
    report.successCount + report.unsuccessfulCount = report.totalFiles ∧
    report.fatalExceptionCount ≤ report.unsuccessfulCount ∧ report.sourceResults = [] := by
  have each {property : FileRun → Prop} : (∀ run ∈ threeRuns, property run) ↔ property cleanRun ∧
      property twoErrorsRun ∧ property unhandledRun := by
    rw [threeRuns, List.forall_mem_cons, List.forall_mem_cons, List.forall_mem_singleton]
  have clocks : ∀ run ∈ threeRuns, ∃ deadline, run.timedOut deadline = true :=
    each.mpr ⟨⟨20, rfl⟩, ⟨20, rfl⟩, ⟨20, rfl⟩⟩
  have usable : ∀ run ∈ threeRuns, run.Usable ⟨.basicFirstError, false, false, false⟩ := by
    refine each.mpr ⟨?_, ?_, ?_⟩
    · exact FileRun.usable_of_answers fun _ _ => ⟨_, [], rfl, fun _ listed => nomatch listed⟩
    · refine FileRun.usable_of_answers fun iteration _ => ⟨_, [], rfl, fun diag listed unknown => ?_⟩
      have known : ∀ diag ∈ [undeclaredVariable 1 "x", undeclaredVariable 2 "y"],
        diag.diagnosticID.isUnknown = false := by decide
      cases (known diag (List.mem_of_mem_drop listed)).symm.trans unknown
    · refine FileRun.usable_of_answers fun iteration _ => ⟨_, [], rfl, ?_⟩
      have labels : ∀ diag ∈ [unhandled], diag.diagnosticID.isUnknown = true →
        diag.labelId = some "err_unsupported" := by decide
      exact fun diag listed unknown => ⟨_, labels diag listed unknown⟩
  obtain ⟨⟨tasks, answer, given, executed⟩, accounted⟩ := (every_file_accounted_iff
    ⟨.basicFirstError, false, false, false⟩ ⟨true, 1⟩ threeRuns nofun clocks).mpr ⟨rfl, .inl ⟨rfl, usable⟩⟩
  obtain ⟨report, returned, total, sum, exceptions, results⟩ := accounted tasks answer given executed
  exact ⟨tasks, answer, report, given, executed, returned, total, sum, exceptions, results⟩

/-- The default options end in a null pointer, and an empty answer of the exporter ends
the single thread even with reports per source. -/
theorem no_report_for_default_options :
    (∃ tasks, TasksOf ⟨.basicFirstError, false, false, false⟩ [cleanRun] tasks ∧
      Executes ⟨false, 1⟩ tasks (.error .nullPointer)) ∧
    ∃ tasks, TasksOf ⟨.basicFirstError, false, false, false⟩ [{ cleanRun with exporter := fun _ _ => .ok [] }] tasks ∧
      Executes ⟨true, 1⟩ tasks (.error .noSuchElement) := by
  refine ⟨⟨[⟨"clean.c", _⟩], .cons ⟨rfl, 3, rfl⟩ .nil, ?_⟩, ⟨[⟨"clean.c", _⟩], .cons ⟨rfl, 3, rfl⟩ .nil, ?_⟩⟩
  · exact .single nofun rfl
  · exact .single nofun rfl

end CMender
