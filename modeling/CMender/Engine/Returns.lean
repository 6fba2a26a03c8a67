import CMender.Analysis.ExportedCounts
import CMender.Engine.Accounting
import CMender.Engine.FalseSuccess
import CMender.Engine.OnDisk

/-! The loop with the exporter's process in it. The mender gives it one source file and
the default number of threads, so that each run that ends writes one entry; what the loop
then makes of the entries holds for every run of it. -/
namespace CMender
open Foundations Foundations.Execution Foundations.Looping Exporter

/-- The exporter as it is run in each iteration: the machine, what Clang is, and what
becomes of the source file. -/
structure ExporterRuns where
  hardwareThreads : Nat
  clang : Nat → EngineState → Compilation
  source : Nat → EngineState → SourcePath

namespace ExporterRuns
variable (runs : ExporterRuns)

/-- What the mender gets of a run; one whose behaviour is undefined counts as failed. -/
def answer (iteration : Nat) (s : EngineState) : Except DiagExporterFailure (List DiagExporterSourceResult) :=
  match exporterMain (runs.clang iteration s) runs.hardwareThreads [runs.source iteration s] with
  | none => .error .run
  | some slots => readSlots slots

/-- The copy of the source file is there whenever the exporter is run. -/
def Regular : Prop := ∀ iteration s, (runs.source iteration s).isRegularFile = true

/-- Clang has a label for each diagnostic that it reports. -/
def Labelled : Prop := ∀ iteration s main actionTimeNs diags,
  (runs.source iteration s).run = .ended main actionTimeNs diags →
    ∀ diag ∈ diags, ∃ label, (runs.clang iteration s).labelId diag.id = some label

/-- Clang reached the end of the source file without an error, if it reached it. -/
def Accepts (iteration : Nat) (s : EngineState) : Prop := (runs.source iteration s).Ends →
  ∃ slot info, WrittenFor (runs.clang iteration s) (runs.source iteration s) slot info ∧
    info.counts.errorCount = 0 ∧ info.counts.fatalCount = 0

end ExporterRuns

def Surroundings.exportingBy (surroundings : Surroundings) (runs : ExporterRuns) : Surroundings :=
  { surroundings with exporter := runs.answer }

section Answers
variable {runs : ExporterRuns} {iteration : Nat} {s : EngineState} {results : List DiagExporterSourceResult}

theorem slots_of_answer (answered : runs.answer iteration s = .ok results) : ∃ slots,
    exporterMain (runs.clang iteration s) runs.hardwareThreads [runs.source iteration s] = some slots ∧
      readSlots slots = .ok results := by
  unfold ExporterRuns.answer at answered
  cases exited : exporterMain (runs.clang iteration s) runs.hardwareThreads [runs.source iteration s] with
  | none =>
    rw [exited] at answered
    cases answered
  | some slots =>
    rw [exited] at answered
    exact ⟨slots, rfl, answered⟩

/-- A run that could be read has one result, with nothing in it that Clang did not report. -/
theorem single_answer (regular : runs.Regular) (answered : runs.answer iteration s = .ok results) :
    ∃ first, results = [first] ∧ ∀ diag ∈ first.diags, ∃ main actionTimeNs diags,
      (runs.source iteration s).run = .ended main actionTimeNs diags ∧
        ∃ reported ∈ diags, diag.labelId = (runs.clang iteration s).labelId reported.id := by
  obtain ⟨slots, exited, read⟩ := slots_of_answer answered
  rcases exporterMain_single exited with
    ⟨irregular, _⟩ | ⟨_, ⟨_, rfl⟩ | ⟨slot, info, rfl, rfl, main, actionTimeNs, diags, ended, isExported⟩⟩
  · rw [regular] at irregular
    cases irregular
  · have placeholder : readSlots [.placeholder] =
        .ok [Exported.SourceResult.view ⟨none, -1, 0, 0, 0, 0, 0, 0, 0, []⟩] := by
      rw [readSlots_single]
      rfl
    obtain rfl := Except.ok.inj (read.symm.trans placeholder)
    exact ⟨_, rfl, fun diag listed => absurd listed List.not_mem_nil⟩
  · obtain ⟨-, rfl⟩ := JsonDiagnosticConsumer.exported_iff.mp isExported
    rw [readSlots_single, Slot.toJson] at read
    cases accepted : Exported.SourceResult.read
        (JsonDiagnosticConsumer.entry (runs.clang iteration s) main actionTimeNs diags).toJson with
    | none =>
      rw [accepted] at read
      cases read
    | some result =>
      rw [accepted] at read
      obtain rfl := Except.ok.inj read
      obtain ⟨-, rfl⟩ := (read_entry _ main actionTimeNs diags result).mp accepted
      refine ⟨_, rfl, fun diag listed => ⟨main, actionTimeNs, diags, ended, ?_⟩⟩
      simp only [Exported.SourceResult.view, receivedResult, List.map_map, List.mem_map] at listed
      obtain ⟨reported, listed, rfl⟩ := listed
      exact ⟨reported, listed, rfl⟩

theorem accepts_of_answer (regular : runs.Regular) (answered : runs.answer iteration s = .ok results)
    {first : DiagExporterSourceResult} (isFirst : results.head? = some first)
    (none : first.hasErrorsOrFatals = false) : runs.Accepts iteration s := by
  intro ends
  obtain ⟨slots, exited, read⟩ := slots_of_answer answered
  rcases exporterMain_single exited with ⟨irregular, _⟩ | ⟨_, ⟨notEnds, _⟩ | ⟨slot, info, rfl, written⟩⟩
  · rw [regular] at irregular
    cases irregular
  · exact absurd ends notEnds
  · exact ⟨slot, info, written, readSlots_written written read isFirst none⟩

end Answers

section Runs
variable {surroundings : Surroundings} {runs : ExporterRuns} {invocation : CMenderInvocation} {s next : LoopState}

/-- What holds at the start of every round: the recorded diagnostics have labels, and
success means that Clang has read these files. -/
structure Checked (runs : ExporterRuns) (s : LoopState) : Prop where
  labels : AllLabelled s.unknownDiags
  accepted : s.success = true → ∃ before, before.mendfile = s.engine.mendfile ∧
    before.mending.files = s.engine.mending.files ∧ runs.Accepts s.currentIteration before

theorem labels_of_answers (regular : runs.Regular) (labelled : runs.Labelled) {iteration : Nat} {s : EngineState}
    {sourceResult : DiagExporterSourceResult}
    (answers : Answers (surroundings.exportingBy runs) iteration s sourceResult) :
    ∀ diag ∈ sourceResult.diags, ∃ label, diag.labelId = some label := by
  obtain ⟨results, answered, isFirst⟩ := answers
  obtain ⟨first, rfl, origin⟩ := single_answer regular answered
  obtain rfl := Option.some.inj isFirst
  intro diag listed
  obtain ⟨main, actionTimeNs, diags, ended, reported, isReported, same⟩ := origin diag listed
  obtain ⟨label, own⟩ := labelled iteration s main actionTimeNs diags ended reported isReported
  exact ⟨label, same.trans own⟩

theorem Checked.step (regular : runs.Regular)
    (stepped : loopStep (surroundings.exportingBy runs) invocation s = .inl next) : Checked runs next := by
  refine ⟨(loopStep_counts stepped).2, fun success => ?_⟩
  obtain ⟨_, _, result, engine, _, iterated, _, rfl⟩ := loopStep_inl_iff.mp stepped
  have noMore : result.terminationStatus.terminationType = .noMoreErrorsOrFatals := beq_iff_eq.mp success
  obtain ⟨results, first, answered, isFirst, none⟩ := iterationSucceeds_iff.mp ⟨result, engine, iterated, noMore⟩
  obtain ⟨_, between, _, kept, ⟨_, rfl⟩ | ⟨goesOn, _⟩⟩ := mendingIteration_state iterated
  · exact ⟨s.engine, rfl, kept.files.symm, accepts_of_answer regular answered isFirst none⟩
  · rcases MendingTerminationStatus.stops_eq_false.mp goesOn with other | ⟨other, _⟩
    · cases noMore.symm.trans other
    · cases noMore.symm.trans other

theorem roundUsable_of_labelled (regular : runs.Regular) (labelled : runs.Labelled) :
    RoundUsable (surroundings.exportingBy runs) invocation s := by
  constructor
  · intro empty
    obtain ⟨first, nothing, _⟩ := single_answer regular empty
    cases nothing
  · intro sourceResult diag answers found
    obtain ⟨idx, _, present⟩ := found.newFirst.first
    exact .inl (labels_of_answers regular labelled answers diag (List.mem_of_getElem? present))

/-- With the exporter's process in the loop, no exception leaves the mending of a file; and
a file that is reported as mended was read by Clang to its end without an error, with the
mendfile and the headers that are left, unless Clang did not come to its end. -/
theorem mending_with_exporter_returns (surroundings : Surroundings) (runs : ExporterRuns) (regular : runs.Regular)
    (labelled : runs.Labelled) (invocation : CMenderInvocation) (names : MendingTypeNameGenerator)
    (files : FileSystem) (frequency : Map String Nat) (fuel : Nat) (outcome : MendOutcome)
    (ended : mendLoop (surroundings.exportingBy runs) invocation fuel (.initial names files frequency) =
      some outcome) :
    ∃ result, outcome.result = .ok result ∧ (result.success = true → ∃ before : EngineState,
      before.mendfile = outcome.engine.mendfile ∧ before.mending.files = outcome.engine.mending.files ∧
        runs.Accepts outcome.iterations before) := by
  have start : Checked runs (.initial names files frequency) :=
    ⟨fun info listed => absurd listed List.not_mem_nil, fun success => nomatch success⟩
  have last : ∀ s outcome, Checked runs s →
      loopStep (surroundings.exportingBy runs) invocation s = .inr outcome →
      ∃ result, outcome.result = .ok result ∧ (result.success = true → ∃ before : EngineState,
        before.mendfile = outcome.engine.mendfile ∧ before.mending.files = outcome.engine.mending.files ∧
          runs.Accepts outcome.iterations before) := by
    intro s outcome checked stepped
    have ending := loopEnd_of_inr stepped
    obtain ⟨result, returned⟩ := (ending.returned_iff checked.labels).mpr fun _ _ =>
      roundUsable_of_labelled regular labelled
    refine ⟨result, returned, fun success => ?_⟩
    cases ending with
    | stopped | timedOut =>
      cases returned
      exact checked.accepted success
    | fatal =>
      cases returned
      cases success
    | escaped | uncounted => cases returned
  exact iterate_result (fun s next checked => Checked.step regular) last start ended

end Runs

section Example

/-- `blankClang` with labels. -/
def labelledClang : Compilation :=
  { blankClang with
    labelId := fun id =>
      if id = 4719 then some "err_unknown_typename"
      else if id = 4694 then some "err_undeclared_var_use"
      else some "warn_unused_expr" }

/-- Clang finds the two errors one after the other, and the warning is left. -/
def mendedRuns : ExporterRuns where
  hardwareThreads := 8
  clang := fun _ _ => labelledClang
  source := fun iteration _ =>
    ⟨"source.c", true, .ended ⟨some "source.c", some 30⟩ 1000
      (if iteration = 1 then twoErrorsOneWarning
      else if iteration = 2 then [unusedResult, undeclaredUse]
      else [unusedResult])⟩

def mendedOutcome : Option MendOutcome :=
  mendLoop ((Surroundings.repeating []).exportingBy mendedRuns) ⟨.basicFirstError, false, false, false⟩ 4
    (.initial .start .empty .empty)

theorem mendedOutcome_facts : ∀ outcome ∈ mendedOutcome, outcome.iterations = 3 ∧
    outcome.engine.mendfile ≠ "" ∧ ∀ result ∈ outcome.result.toOption, result.success = true := by
  decide +kernel

theorem mending_with_exporter_returns_third : ∃ outcome result,
    mendLoop ((Surroundings.repeating []).exportingBy mendedRuns) ⟨.basicFirstError, false, false, false⟩ 4
      (.initial .start .empty .empty) = some outcome ∧
    outcome.iterations = 3 ∧ outcome.engine.mendfile ≠ "" ∧
    outcome.result = .ok result ∧ result.success = true ∧ ∃ before : EngineState,
      before.mendfile = outcome.engine.mendfile ∧ before.mending.files = outcome.engine.mending.files ∧
        mendedRuns.Accepts outcome.iterations before := by
  have regular : mendedRuns.Regular := fun _ _ => rfl
  have labelled : mendedRuns.Labelled := by
    intro iteration s main actionTimeNs diags ended diag listed
    simp only [mendedRuns, labelledClang]
    split
    · exact ⟨_, rfl⟩
    · split <;> exact ⟨_, rfl⟩
  obtain ⟨outcome, ended⟩ := Option.isSome_iff_exists.mp (show mendedOutcome.isSome by decide +kernel)
  obtain ⟨iterations, mendfile, succeeds⟩ := mendedOutcome_facts outcome ended
  obtain ⟨result, returned, accepted⟩ := mending_with_exporter_returns (.repeating []) mendedRuns regular labelled
    ⟨.basicFirstError, false, false, false⟩ .start .empty .empty 4 outcome ended
  have success : result.success = true := succeeds result (by rw [returned]; rfl)
  exact ⟨outcome, result, ended, iterations, mendfile, returned, success, accepted success⟩

end Example
end CMender
