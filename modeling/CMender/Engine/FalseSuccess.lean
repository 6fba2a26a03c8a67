import CMender.Analysis.ExportedCounts
import CMender.Engine.Iterations
import CMender.Exporter.Action

/-! Success that nobody checked. The mender decides from the counts of the first
entry alone, and the placeholder has none: when Clang cannot begin the source
file, the exporter still exits with code 0 and the iteration reports success. -/
namespace CMender
open Foundations Foundations.Execution Exporter

/-- What `DiagExporter.run` makes of an exporter that exited with code 0. -/
def readSlots (slots : List Slot) : Except DiagExporterFailure (List DiagExporterSourceResult) :=
  match Exported.readResults (resultsJson slots) with
  | none => .error .deserialization
  | some results => .ok (results.map Exported.SourceResult.view)

section Iteration
variable {surroundings : Surroundings} {invocation : CMenderInvocation} {iteration : Nat} {s : EngineState}

/-- The iteration returns, with the termination type of success. -/
def IterationSucceeds (surroundings : Surroundings) (invocation : CMenderInvocation) (iteration : Nat)
    (s : EngineState) : Prop :=
  ∃ result t, mendingIteration surroundings invocation iteration s = .ok result t ∧
    result.terminationStatus.terminationType = .noMoreErrorsOrFatals

/-- An iteration succeeds exactly when the first result has no errors or fatals. -/
theorem iterationSucceeds_iff : IterationSucceeds surroundings invocation iteration s ↔
    ∃ results first, surroundings.exporter iteration s = .ok results ∧ results.head? = some first ∧
      first.hasErrorsOrFatals = false := by
  constructor
  · rintro ⟨result, t, returned, success⟩
    simp only [mendingIteration, bind_ok, callDiagExporter_ok, raise_ok, getFirst_ok, tryCatch_ok] at returned
    obtain ⟨results, _, ⟨answered, rfl⟩, first, _, ⟨isFirst, rfl⟩, _, sized, _, processed⟩ := returned
    refine ⟨results, first, answered, isFirst, ?_⟩
    unfold processDiagnostics at processed
    simp only [bind_ok, get_ok] at processed
    obtain ⟨status, _, terminated, _, _, ⟨rfl, rfl⟩, _, _, _, ended⟩ := processed
    obtain ⟨mending, checked, rfl⟩ := onMending_ok.mp terminated
    have same : result.terminationStatus = status := by
      split at ended
      · obtain ⟨rfl, -⟩ := pure_ok.mp ended
        rfl
      · obtain ⟨idxs, _, -, finished⟩ := bind_ok.mp ended
        obtain ⟨rfl, -⟩ := pure_ok.mp finished
        rfl
    rw [same] at success
    exact reportsSuccess_iff.mp ⟨status, mending, checked, by rw [MendingTerminationStatus.success, success]; rfl⟩
  · rintro ⟨results, first, answered, isFirst, none⟩
    let status : MendingTerminationStatus := ⟨.noMoreErrorsOrFatals, ⟨1, 1⟩, []⟩
    let sized : EngineState :=
      { s with mending.table := { s.mending.table with fileSize := first.size } }
    have processed : processDiagnostics surroundings invocation iteration first sized =
        .ok ⟨status, [], first.errorCount, first.fatalCount, sized.mendfile.utf8ByteSize⟩ sized := by
      unfold processDiagnostics
      simp only [bind_ok, get_ok]
      have checked := checkTermination_of_none none surroundings.sourceFile sized.mending
      exact ⟨status, sized, onMending_ok.mpr ⟨_, checked, rfl⟩, _, _, ⟨rfl, rfl⟩, PUnit.unit, sized, rfl, rfl⟩
    refine ⟨⟨status, [], first.errorCount, first.fatalCount, sized.mendfile.utf8ByteSize⟩, sized, ?_, rfl⟩
    simp only [mendingIteration, bind_ok, callDiagExporter_ok, raise_ok, getFirst_ok, tryCatch_ok]
    exact ⟨results, s, ⟨answered, rfl⟩, first, s, ⟨isFirst, rfl⟩, PUnit.unit, sized, rfl, processed⟩

end Iteration

theorem readSlots_single (slot : Slot) : readSlots [slot] =
    match Exported.SourceResult.read slot.toJson with
    | none => .error .deserialization
    | some result => .ok [result.view] := by
  have document : resultsJson [slot] = .array [slot.toJson] := rfl
  rw [readSlots, document, readResults_single]
  cases Exported.SourceResult.read slot.toJson <;> rfl

/-- The placeholder is read like any other entry, with counts of zero. -/
theorem readSlots_placeholder : ∃ first, readSlots [.placeholder] = .ok [first] ∧
    first.hasErrorsOrFatals = false := by
  have read : Exported.SourceResult.read placeholderJson = some ⟨none, -1, 0, 0, 0, 0, 0, 0, 0, []⟩ := rfl
  refine ⟨Exported.SourceResult.view ⟨none, -1, 0, 0, 0, 0, 0, 0, 0, []⟩, ?_, rfl⟩
  rw [readSlots_single, Slot.toJson, read]

theorem counter_eq_zero {counter : BitVec 32} (none : ¬ (counter.toNat : Int) > 0) : counter = 0 := by
  apply BitVec.eq_of_toNat_eq
  change counter.toNat = 0
  omega

/-- What is read from an entry without errors or fatals says the same of its counts. -/
theorem readSlots_written {clang : Compilation} {source : SourcePath} {slot : Slot} {info : DiagsInfo}
    {results : List DiagExporterSourceResult} {first : DiagExporterSourceResult}
    (written : WrittenFor clang source slot info) (read : readSlots [slot] = .ok results)
    (isFirst : results.head? = some first) (none : first.hasErrorsOrFatals = false) :
    info.counts.errorCount = 0 ∧ info.counts.fatalCount = 0 := by
  obtain ⟨rfl, main, actionTimeNs, diags, -, isExported⟩ := written
  obtain ⟨-, rfl⟩ := JsonDiagnosticConsumer.exported_iff.mp isExported
  rw [readSlots_single, Slot.toJson] at read
  cases accepted : Exported.SourceResult.read
      (JsonDiagnosticConsumer.entry clang main actionTimeNs diags).toJson with
  | none =>
    rw [accepted] at read
    cases read
  | some result =>
    rw [accepted] at read
    obtain rfl := Except.ok.inj read
    obtain rfl := Option.some.inj isFirst
    obtain ⟨-, rfl⟩ := (read_entry clang main actionTimeNs diags result).mp accepted
    obtain ⟨noErrors, noFatals⟩ := Bool.or_eq_false_iff.mp none
    exact ⟨counter_eq_zero (of_decide_eq_false noErrors), counter_eq_zero (of_decide_eq_false noFatals)⟩

/-- The iteration reports success only from an entry that the action of the source
file wrote at its end, with no errors and no fatals in it. -/
def SuccessIsChecked (clang : Compilation) (source : SourcePath) (slots : List Slot)
    (surroundings : Surroundings) (invocation : CMenderInvocation) (iteration : Nat) (s : EngineState) :
    Prop :=
  IterationSucceeds surroundings invocation iteration s →
    ∃ slot info, slots.head? = some slot ∧ WrittenFor clang source slot info ∧
      info.counts.errorCount = 0 ∧ info.counts.fatalCount = 0

/-- After an exporter run with exit code 0, the success of an iteration is checked
exactly when the action of the source file reached its end, if it is a file. -/
theorem success_is_checked_iff (clang : Compilation) (hardwareThreads : Nat) (source : SourcePath)
    (slots : List Slot) (exited : exporterMain clang hardwareThreads [source] = some slots)
    (surroundings : Surroundings) (invocation : CMenderInvocation) (iteration : Nat) (s : EngineState)
    (reads : surroundings.exporter iteration s = readSlots slots) :
    SuccessIsChecked clang source slots surroundings invocation iteration s ↔
      (source.isRegularFile = true → source.Ends) := by
  rcases exporterMain_single exited with ⟨irregular, rfl⟩ | ⟨regular, ⟨notEnds, rfl⟩ | ⟨slot, info, rfl, written⟩⟩
  · -- no slot: the mender finds no first result
    refine ⟨fun _ regular => absurd regular (by simp [irregular]), ?_⟩
    intro _ succeeds
    obtain ⟨results, first, answered, isFirst, -⟩ := iterationSucceeds_iff.mp succeeds
    rw [reads] at answered
    obtain rfl : [] = results := Except.ok.inj answered
    cases isFirst
  · -- the placeholder: the iteration succeeds, and nothing was written
    refine ⟨?_, fun ends => absurd (ends regular) notEnds⟩
    intro checked
    obtain ⟨first, read, none⟩ := readSlots_placeholder
    obtain ⟨slot, info, isSlot, ⟨isWritten, -⟩, -⟩ :=
      checked (iterationSucceeds_iff.mpr ⟨[first], first, reads.trans read, rfl, none⟩)
    obtain rfl := Option.some.inj isSlot
    cases isWritten
  · refine ⟨fun _ _ => ?_, ?_⟩
    · obtain ⟨-, main, actionTimeNs, diags, ended, -⟩ := written
      exact ⟨main, actionTimeNs, diags, ended⟩
    · intro _ succeeds
      obtain ⟨results, first, answered, isFirst, none⟩ := iterationSucceeds_iff.mp succeeds
      rw [reads] at answered
      exact ⟨slot, info, rfl, written, readSlots_written written answered isFirst none⟩

/-- Every iteration reads the same slots. -/
def Surroundings.exporting (slots : List Slot) : Surroundings :=
  { Surroundings.repeating [] with exporter := fun _ _ => readSlots slots }

/-- A source file without diagnostics. -/
def cleanSource : SourcePath := ⟨"source.c", true, .ended ⟨some "source.c", some 0⟩ 1000 []⟩

theorem clean_success_is_checked : ∃ slots, exporterMain blankClang 8 [cleanSource] = some slots ∧
    ∀ invocation iteration s,
      SuccessIsChecked blankClang cleanSource slots (.exporting slots) invocation iteration s := by
  have exited : exporterMain blankClang 8 [cleanSource] = some [.written "source.c"
      (JsonDiagnosticConsumer.entry blankClang ⟨some "source.c", some 0⟩ 1000 [])] := rfl
  refine ⟨_, exited, fun invocation iteration s => ?_⟩
  exact (success_is_checked_iff blankClang 8 cleanSource _ exited (.exporting _) invocation iteration s
    rfl).mpr fun _ => ⟨_, _, _, rfl⟩

/-- A source file that the compiler could not begin. -/
def stoppedSource : SourcePath := ⟨"source.c", true, .stopped⟩

/-- The exporter exits with code 0 and every iteration that reads its document
reports success, from the placeholder. -/
theorem success_from_placeholder : exporterMain blankClang 8 [stoppedSource] = some [.placeholder] ∧
    ∀ invocation iteration s, IterationSucceeds (.exporting [.placeholder]) invocation iteration s ∧
      ¬ SuccessIsChecked blankClang stoppedSource [.placeholder] (.exporting [.placeholder]) invocation
        iteration s := by
  refine ⟨rfl, fun invocation iteration s => ?_⟩
  obtain ⟨first, read, none⟩ := readSlots_placeholder
  have succeeds : IterationSucceeds (.exporting [.placeholder]) invocation iteration s :=
    iterationSucceeds_iff.mpr ⟨[first], first, read, rfl, none⟩
  refine ⟨succeeds, fun checked => ?_⟩
  obtain ⟨slot, info, isSlot, ⟨isWritten, -⟩, -⟩ := checked succeeds
  obtain rfl := Option.some.inj isSlot
  cases isWritten

end CMender
