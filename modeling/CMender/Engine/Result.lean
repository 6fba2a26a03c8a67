import Mathlib.Data.BitVec
import CMender.Engine.Iterations

/-! The result that is reported for one file. The loop keeps its measured times
beside what it computes, and nothing it computes depends on them. -/
namespace CMender
open Foundations Foundations.Execution Foundations.Looping

structure MendingDirData where
  sourceFileCopyPath : String
  includePath : String
  sourceReportPath : String
deriving DecidableEq, Repr

/-- Elapsed times of one iteration, in nanoseconds. -/
structure IterationTimes where
  totalTime : BitVec 64
  diagExporterTime : BitVec 64

/-- What the system's clock yields when it is read. -/
structure Clock where
  iteration : Nat → IterationTimes
  totalTime : BitVec 64

/-- What the mending of one file depends on besides the invocation. The names, the
files and the frequencies are as the files before have left them. -/
structure FileRun where
  sourceFile : String
  mendingDirData : Option MendingDirData
  exporter : Nat → EngineState → Except DiagExporterFailure (List DiagExporterSourceResult)
  timedOut : Nat → Bool
  order : Nat → IterationOrder
  buffering : Buffering
  clock : Clock
  names : MendingTypeNameGenerator
  files : FileSystem
  unknownDiagsFrequency : Map String Nat

namespace FileRun

def surroundings (run : FileRun) (dir : MendingDirData) : Surroundings where
  exporter := run.exporter
  timedOut := run.timedOut
  order := run.order
  buffering := run.buffering
  sourceFile := dir.sourceFileCopyPath
  includePath := dir.includePath

def start (run : FileRun) : LoopState := .initial run.names run.files run.unknownDiagsFrequency

end FileRun

namespace Report

structure MendingIterationResult where
  iteration : CMender.MendingIterationResult
  totalTime : BitVec 64
  diagExporterTime : BitVec 64
  otherTime : BitVec 64

/-- Without a mending directory only two fields are set, and references stay null. -/
structure SourceResult where
  sourceFile : Option String
  fileSize : Option Int
  success : Bool
  timeout : Bool
  fatalException : Option JavaException
  iterationCount : Nat
  completionStatusEstimate : FileProgress
  mendfileSize : Option Nat
  totalTime : Option (BitVec 64)
  diagExporterTotalTime : Option (BitVec 64)
  otherTotalTime : Option (BitVec 64)
  unknownDiags : Option (List DiagnosticShortInfo)
  mendingIterations : Option (List MendingIterationResult)

end Report

def MendingIterationResult.timed (iteration : MendingIterationResult) (times : IterationTimes) :
    Report.MendingIterationResult where
  iteration := iteration
  totalTime := times.totalTime
  diagExporterTime := times.diagExporterTime
  otherTime := times.totalTime - times.diagExporterTime

/-- The loop with the times of the recorded iterations, those of the exporter added up. -/
structure TimedLoop where
  loop : LoopState
  diagExporterTotalTime : BitVec 64
  times : List IterationTimes

structure TimedOutcome where
  outcome : MendOutcome
  diagExporterTotalTime : BitVec 64
  times : List IterationTimes

def timedStep (surroundings : Surroundings) (invocation : CMenderInvocation) (clock : Clock) (s : TimedLoop) :
    TimedLoop ⊕ TimedOutcome :=
  match loopStep surroundings invocation s.loop with
  | .inl next =>
    let times := clock.iteration next.currentIteration
    .inl ⟨next, s.diagExporterTotalTime + times.diagExporterTime, s.times ++ [times]⟩
  | .inr outcome => .inr ⟨outcome, s.diagExporterTotalTime, s.times⟩

/-- One for a success, and else where the last recorded iteration found its first error. -/
def SourceResult.completionStatusEstimate (result : SourceResult) : FileProgress :=
  if result.success then ⟨1, 1⟩
  else match result.mendingIterations.getLast? with
    | none => ⟨0, 1⟩
    | some last => last.terminationStatus.fileProgress

def SourceResult.mendfileSize (result : SourceResult) : Nat :=
  match result.mendingIterations.getLast? with
  | none => 0
  | some last => last.mendfileSize

namespace Report.SourceResult

def ofLoop (sourceFile : String) (result : CMender.SourceResult) (totalTime diagExporterTotalTime : BitVec 64)
    (times : List IterationTimes) : Report.SourceResult where
  sourceFile := some sourceFile
  fileSize := some result.fileSize
  success := result.success
  timeout := result.timeout
  fatalException := result.fatalException
  iterationCount := result.iterationCount
  completionStatusEstimate := result.completionStatusEstimate
  mendfileSize := some result.mendfileSize
  totalTime := some totalTime
  diagExporterTotalTime := some diagExporterTotalTime
  otherTotalTime := some (totalTime - diagExporterTotalTime)
  unknownDiags := some result.unknownDiags
  mendingIterations := some (List.zipWith MendingIterationResult.timed result.mendingIterations times)

def mendingDirNotCreated : Report.SourceResult where
  sourceFile := none
  fileSize := none
  success := false
  timeout := false
  fatalException := some (.fatal .mendingDirCreation "could not create mending dir" 0)
  iterationCount := 0
  completionStatusEstimate := ⟨0, 1⟩
  mendfileSize := none
  totalTime := none
  diagExporterTotalTime := none
  otherTotalTime := none
  unknownDiags := none
  mendingIterations := none

end Report.SourceResult

/-- The recorded iterations say what the flags of the loop are. -/
structure Recorded (invocation : CMenderInvocation) (s : LoopState) : Prop where
  counted : s.currentIteration = s.iterationResults.length
  success : s.success = s.iterationResults.getLast?.any fun last => last.terminationStatus.success
  finished : s.finished = s.iterationResults.getLast?.any fun last =>
    last.terminationStatus.stops invocation.continueOnUnknownDiagnostic
  detectedLoop : s.detectedLoop = s.iterationResults.getLast?.any fun last =>
    last.terminationStatus.terminationType == .detectedCycle
  earlier : ∀ iteration ∈ s.iterationResults.dropLast,
    iteration.terminationStatus.stops invocation.continueOnUnknownDiagnostic = false

section Recorded
variable {surroundings : Surroundings} {invocation : CMenderInvocation} {s next : LoopState}
  {outcome : MendOutcome}

theorem recorded_initial (names : MendingTypeNameGenerator) (files : FileSystem) (frequency : Map String Nat) :
    Recorded invocation (.initial names files frequency) :=
  ⟨rfl, rfl, rfl, rfl, fun _ earlier => nomatch earlier⟩

theorem Recorded.running (recorded : Recorded invocation s) (running : s.stopped = false) :
    ∀ iteration ∈ s.iterationResults,
      iteration.terminationStatus.stops invocation.continueOnUnknownDiagnostic = false := by
  have unfinished : s.finished = false := (Bool.or_eq_false_iff.mp running).1
  have finished := recorded.finished.symm.trans unfinished
  intro iteration member
  cases found : s.iterationResults.getLast? with
  | none => rw [List.getLast?_eq_none_iff.mp found] at member; cases member
  | some last =>
    rw [found] at finished
    rw [← List.dropLast_append_getLast? last found] at member
    rcases List.mem_append.mp member with early | final
    · exact recorded.earlier iteration early
    · rw [List.mem_singleton.mp final]
      exact finished

theorem Recorded.step (recorded : Recorded invocation s)
    (stepped : loopStep surroundings invocation s = .inl next) : Recorded invocation next := by
  obtain ⟨running, _, result, engine, frequency, _, _, rfl⟩ := loopStep_inl_iff.mp stepped
  have earlier := recorded.running running
  constructor
  · simp [LoopState.recorded, recorded.counted]
  · simp [LoopState.recorded]
  · simp [LoopState.recorded]
  · simp [LoopState.recorded]
  · simpa [LoopState.recorded] using earlier

theorem Recorded.success_running (recorded : Recorded invocation s) (running : s.stopped = false) :
    s.success = false := by
  rw [recorded.success]
  cases found : s.iterationResults.getLast? with
  | none => rfl
  | some last =>
    have goesOn := recorded.running running last (List.mem_of_getLast? found)
    exact (Bool.or_eq_false_iff.mp goesOn).1

/-- What the loop returns agrees with what it has recorded. -/
structure SourceResult.Agrees (invocation : CMenderInvocation) (result : SourceResult) : Prop where
  success : result.success = true ↔
    (∃ last, result.mendingIterations.getLast? = some last ∧ last.terminationStatus.success = true) ∧
      result.fatalException = none
  inTime : result.success = true → result.timeout = false
  counted : result.iterationCount =
    result.mendingIterations.length + if result.fatalException.isSome then 1 else 0
  earlier : ∀ iteration ∈ result.mendingIterations.dropLast,
    iteration.terminationStatus.stops invocation.continueOnUnknownDiagnostic = false

theorem LoopEnd.agrees (ending : LoopEnd surroundings invocation s outcome) (recorded : Recorded invocation s)
    {result : SourceResult} (returned : outcome.result = .ok result) : result.Agrees invocation := by
  have last : s.success = true ↔
      ∃ last, s.iterationResults.getLast? = some last ∧ last.terminationStatus.success = true := by
    rw [recorded.success, Option.any_eq_true]
  cases ending with
  | stopped stop =>
    cases returned
    exact ⟨last.trans (and_iff_left rfl).symm, fun _ => rfl, recorded.counted, recorded.earlier⟩
  | timedOut running =>
    cases returned
    refine ⟨last.trans (and_iff_left rfl).symm, fun success => ?_, recorded.counted, recorded.earlier⟩
    exact absurd success (Bool.eq_false_iff.mp (recorded.success_running running))
  | fatal running =>
    cases returned
    refine ⟨⟨nofun, fun caught => nomatch caught.2⟩, nofun, ?_, recorded.earlier⟩
    exact congrArg (· + 1) recorded.counted
  | escaped => cases returned
  | uncounted => cases returned

end Recorded

section Timed
variable {surroundings : Surroundings} {invocation : CMenderInvocation} {clock : Clock}

structure TimedLoop.Recorded (invocation : CMenderInvocation) (s : TimedLoop) : Prop where
  loop : CMender.Recorded invocation s.loop
  timed : s.times.length = s.loop.iterationResults.length
  total : s.diagExporterTotalTime = (s.times.map (·.diagExporterTime)).sum

theorem TimedLoop.Recorded.step {s next : TimedLoop} (recorded : s.Recorded invocation)
    (stepped : timedStep surroundings invocation clock s = .inl next) : next.Recorded invocation := by
  unfold timedStep at stepped
  split at stepped
  · rename_i loop looped
    cases stepped
    refine ⟨recorded.loop.step looped, ?_, ?_⟩
    · obtain ⟨_, _, result, engine, frequency, _, _, rfl⟩ := loopStep_inl_iff.mp looped
      simp [LoopState.recorded, recorded.timed]
    · simp [recorded.total]
  · cases stepped

/-- The iterations that are reported, with their times, are those that the loop has recorded. -/
structure TimedOutcome.Agrees (invocation : CMenderInvocation) (ended : TimedOutcome) : Prop where
  result : ∀ result, ended.outcome.result = .ok result →
    result.Agrees invocation ∧ ended.times.length = result.mendingIterations.length
  total : ended.diagExporterTotalTime = (ended.times.map (·.diagExporterTime)).sum

theorem TimedLoop.Recorded.ends {s : TimedLoop} {ended : TimedOutcome} (recorded : s.Recorded invocation)
    (stepped : timedStep surroundings invocation clock s = .inr ended) : ended.Agrees invocation := by
  unfold timedStep at stepped
  split at stepped
  · cases stepped
  · rename_i outcome looped
    cases stepped
    have ending := loopEnd_of_inr looped
    refine ⟨fun result returned => ⟨ending.agrees recorded.loop returned, recorded.timed.trans ?_⟩, recorded.total⟩
    cases ending <;> cases returned <;> rfl

theorem timedLoop_agrees {start : LoopState} (recorded : Recorded invocation start)
    (unrecorded : start.iterationResults = []) {fuel : Nat} {ended : TimedOutcome}
    (iterated : iterate (timedStep surroundings invocation clock) fuel ⟨start, 0, []⟩ = some ended) :
    ended.Agrees invocation := by
  have initial : (⟨start, 0, []⟩ : TimedLoop).Recorded invocation :=
    ⟨recorded, by rw [unrecorded]; rfl, rfl⟩
  exact iterate_result (fun _ _ recorded stepped => recorded.step stepped)
    (fun _ _ recorded stepped => recorded.ends stepped) initial iterated

end Timed

/-- A file whose mending directory could not be created counts as failed. -/
structure MendBundle where
  sourceResult : Report.SourceResult
  mendingDirData : Option MendingDirData
  notCreated : mendingDirData = none →
    sourceResult.success = false ∧ sourceResult.fatalException.isSome = true
  succeeded : sourceResult.success = true → sourceResult.fatalException = none

def MendBundle.mendingDirNotCreated : MendBundle :=
  ⟨.mendingDirNotCreated, none, fun _ => ⟨rfl, rfl⟩, nofun⟩

namespace FileRun

def timedLoop (run : FileRun) (invocation : CMenderInvocation) (dir : MendingDirData) (fuel : Nat) :
    Option TimedOutcome :=
  iterate (timedStep (run.surroundings dir) invocation run.clock) fuel ⟨run.start, 0, []⟩

theorem agrees {run : FileRun} {invocation : CMenderInvocation} {dir : MendingDirData} {fuel : Nat}
    {ended : TimedOutcome} (looped : run.timedLoop invocation dir fuel = some ended) :
    ended.Agrees invocation :=
  timedLoop_agrees (recorded_initial run.names run.files run.unknownDiagsFrequency) rfl looped

/-- `mend` returns its bundle, or an exception leaves it; `none` means that the fuel
did not suffice. -/
def mend (run : FileRun) (invocation : CMenderInvocation) (fuel : Nat) :
    Option (Except JavaException MendBundle) :=
  match run.mendingDirData with
  | none => some (.ok .mendingDirNotCreated)
  | some dir =>
    match looped : run.timedLoop invocation dir fuel with
    | none => none
    | some ended =>
      match returned : ended.outcome.result with
      | .error e => some (.error e)
      | .ok result => some (.ok ⟨
          .ofLoop run.sourceFile result run.clock.totalTime ended.diagExporterTotalTime ended.times, some dir,
          nofun,
          fun success => (((agrees looped).result result returned).1.success.mp success).2⟩)

section Mended
variable {run : FileRun} {invocation : CMenderInvocation} {dir : MendingDirData} {fuel : Nat}

/-- With a mending directory, the loop decides. -/
theorem mend_created (invocation : CMenderInvocation) (fuel : Nat) (created : run.mendingDirData = some dir) :
    run.timedLoop invocation dir fuel = none ∧ run.mend invocation fuel = none ∨
      ∃ ended, run.timedLoop invocation dir fuel = some ended ∧
        ((∃ e, ended.outcome.result = .error e ∧ run.mend invocation fuel = some (.error e)) ∨
          ∃ result bundle, ended.outcome.result = .ok result ∧ run.mend invocation fuel = some (.ok bundle) ∧
            bundle.sourceResult =
              .ofLoop run.sourceFile result run.clock.totalTime ended.diagExporterTotalTime ended.times) := by
  unfold mend
  split
  · rename_i missing
    rw [created] at missing
    cases missing
  · rename_i other found
    obtain rfl : dir = other := Option.some.inj (created.symm.trans found)
    split
    · rename_i unfinished
      exact .inl ⟨unfinished, rfl⟩
    · rename_i ended looped
      refine .inr ⟨ended, looped, ?_⟩
      split
      · rename_i e thrown
        exact .inl ⟨e, thrown, rfl⟩
      · rename_i result returned
        exact .inr ⟨result, _, returned, rfl, rfl⟩

theorem mend_returned {bundle : MendBundle} (created : run.mendingDirData = some dir)
    (mended : run.mend invocation fuel = some (.ok bundle)) : ∃ ended result,
      run.timedLoop invocation dir fuel = some ended ∧ ended.outcome.result = .ok result ∧
      bundle.sourceResult =
        .ofLoop run.sourceFile result run.clock.totalTime ended.diagExporterTotalTime ended.times := by
  rcases mend_created invocation fuel created with
    ⟨_, unfinished⟩ | ⟨ended, looped, ⟨e, _, thrown⟩ | ⟨result, other, returned, same, rest⟩⟩
  · cases unfinished.symm.trans mended
  · cases thrown.symm.trans mended
  · cases same.symm.trans mended
    exact ⟨ended, result, looped, returned, rest⟩

end Mended
end FileRun

section Zipped
variable {iterations : List MendingIterationResult} {times : List IterationTimes}

theorem map_iteration_timed (timed : times.length = iterations.length) :
    (List.zipWith MendingIterationResult.timed iterations times).map (·.iteration) = iterations := by
  induction iterations generalizing times with
  | nil => rfl
  | cons iteration rest ih =>
    cases times with
    | nil => cases timed
    | cons time later => exact congrArg (iteration :: ·) (ih (Nat.succ.inj timed))

theorem map_diagExporterTime_timed (timed : times.length = iterations.length) :
    (List.zipWith MendingIterationResult.timed iterations times).map (·.diagExporterTime) =
      times.map (·.diagExporterTime) := by
  induction iterations generalizing times with
  | nil =>
    rw [List.length_eq_zero_iff.mp timed]
    rfl
  | cons iteration rest ih =>
    cases times with
    | nil => cases timed
    | cons time later => exact congrArg (time.diagExporterTime :: ·) (ih (Nat.succ.inj timed))

end Zipped

/-- The result of a file is consistent, whatever the exporter answers, the options are
and whenever the time runs out. -/
theorem mend_result_consistent (invocation : CMenderInvocation) (run : FileRun) (dir : MendingDirData)
    (created : run.mendingDirData = some dir) (fuel : Nat) (bundle : MendBundle)
    (mended : run.mend invocation fuel = some (.ok bundle)) :
    let result := bundle.sourceResult
    ∃ iterations, result.mendingIterations = some iterations ∧
      (result.success = true ↔ (∃ last, iterations.getLast? = some last ∧
        last.iteration.terminationStatus.terminationType = .noMoreErrorsOrFatals) ∧ result.fatalException = none) ∧
      (result.success = true → result.timeout = false ∧ result.fatalException = none ∧
        result.completionStatusEstimate = ⟨1, 1⟩) ∧
      result.iterationCount = iterations.length + (if result.fatalException.isSome then 1 else 0) ∧
      (∀ iteration ∈ iterations.dropLast,
        iteration.iteration.terminationStatus.terminationType = .noTermination ∨
          iteration.iteration.terminationStatus.terminationType = .unknownDiagnostic ∧
            invocation.continueOnUnknownDiagnostic = true) ∧
      result.diagExporterTotalTime = some (iterations.map (·.diagExporterTime)).sum := by
  obtain ⟨ended, result, looped, returned, same⟩ := FileRun.mend_returned created mended
  have agrees := FileRun.agrees looped
  obtain ⟨reported, timed⟩ := agrees.result result returned
  have iterations := map_iteration_timed timed
  dsimp only
  rw [same]
  refine ⟨_, rfl, ?success, fun success => ?estimate, ?counted, fun iteration earlier => ?earlier, ?total⟩
  case success =>
    refine reported.success.trans (and_congr_left fun _ => ?_)
    have last : result.mendingIterations.getLast? =
        (List.zipWith MendingIterationResult.timed result.mendingIterations ended.times).getLast?.map
          (·.iteration) := by rw [← List.getLast?_map, iterations]
    rw [last]
    simp only [Option.map_eq_some_iff, MendingTerminationStatus.success, beq_iff_eq]
    constructor
    · rintro ⟨_, ⟨last, found, rfl⟩, done⟩
      exact ⟨last, found, done⟩
    · rintro ⟨last, found, done⟩
      exact ⟨_, ⟨last, found, rfl⟩, done⟩
  case estimate =>
    refine ⟨reported.inTime success, (reported.success.mp success).2, ?_⟩
    exact if_pos success
  case counted =>
    have length := congrArg List.length iterations
    rw [List.length_map] at length
    rw [length]
    exact reported.counted
  case earlier =>
    have recorded : iteration.iteration ∈ result.mendingIterations.dropLast := by
      rw [← iterations, ← List.map_dropLast]
      exact List.mem_map_of_mem earlier
    exact MendingTerminationStatus.stops_eq_false.mp (reported.earlier _ recorded)
  case total =>
    rw [map_diagExporterTime_timed timed]
    exact congrArg some agrees.total

/-- A file without errors, of which the exporter took 5 ns of 9. -/
def cleanRun : FileRun where
  sourceFile := "clean.c"
  mendingDirData := some ⟨"/mending/clean.c", "/mending/includes", "/mending/source_report.json"⟩
  exporter _ _ := .ok [⟨"/mending/clean.c", 40, 0, 0, []⟩]
  timedOut iterations := decide (20 ≤ iterations)
  order _ := .listed
  buffering := .unbounded
  clock := ⟨fun _ => ⟨7, 5⟩, 9⟩
  names := .start
  files := .empty
  unknownDiagsFrequency := .empty

/-- Two undeclared variables, of which each iteration declares the first. -/
def twoErrorsRun : FileRun :=
  { cleanRun with
    sourceFile := "two.c"
    exporter := fun iteration _ => .ok [.ofErrors ([undeclaredVariable 1 "x", undeclaredVariable 2 "y"].drop
      (iteration - 1))] }

theorem mend_result_consistent_two_errors : ∃ bundle iterations,
    twoErrorsRun.mend ⟨.basicFirstError, false, false, false⟩ 5 = some (.ok bundle) ∧
    bundle.sourceResult.mendingIterations = some iterations ∧ iterations.length = 3 ∧
    bundle.sourceResult.success = true ∧ bundle.sourceResult.completionStatusEstimate = ⟨1, 1⟩ ∧
    (∀ iteration ∈ iterations.dropLast,
      iteration.iteration.terminationStatus.terminationType = .noTermination) ∧
    bundle.sourceResult.diagExporterTotalTime = some 15 ∧
    bundle.sourceResult.diagExporterTotalTime = some (iterations.map (·.diagExporterTime)).sum := by
  let mends := twoErrorsRun.mend ⟨.basicFirstError, false, false, false⟩ 5
  obtain ⟨bundle, found⟩ : ∃ bundle, mends.bind Except.toOption = some bundle :=
    Option.isSome_iff_exists.mp (by decide +kernel)
  have facts : ∀ bundle ∈ mends.bind Except.toOption, bundle.sourceResult.success = true ∧
      bundle.sourceResult.iterationCount = 3 ∧ bundle.sourceResult.diagExporterTotalTime = some 15 := by
    decide +kernel
  obtain ⟨success, three, time⟩ := facts bundle found
  have mended : mends = some (.ok bundle) := by
    obtain ⟨outcome, ran, returned⟩ := Option.bind_eq_some_iff.mp found
    cases outcome with
    | error e => cases returned
    | ok other =>
      obtain rfl := Option.some.inj returned
      exact ran
  obtain ⟨iterations, recorded, _, consistent, counted, earlier, total⟩ :=
    mend_result_consistent ⟨.basicFirstError, false, false, false⟩ twoErrorsRun _ rfl 5 bundle mended
  obtain ⟨_, uneventful, estimate⟩ := consistent success
  rw [three, uneventful] at counted
  exact ⟨bundle, iterations, mended, recorded, counted.symm, success, estimate,
    fun iteration listed => (earlier iteration listed).resolve_right (nomatch ·.2), time, total⟩

end CMender
