import CMender.Engine.Iterations
import CMender.Engine.SharedFrequency

/-! How often unknown diagnostics are counted. After each iteration the loop counts
all that the table has recorded since the file was begun, so that one recorded in
an iteration is counted again after every later one. -/
namespace CMender
open Foundations Foundations.Execution Foundations.Looping

def MendingState.unknownDiags (s : MendingState) : List DiagnosticShortInfo := s.table.unknownDiags

def EngineState.unknownDiags (s : EngineState) : List DiagnosticShortInfo := s.mending.unknownDiags

/-- How many of the diagnostics have the label. -/
def labelled (label : String) (unknownDiags : List DiagnosticShortInfo) : Nat :=
  unknownDiags.countP fun info => info.labelId == some label

section Counting
variable {frequency counted : Map String Nat} {unknownDiags more : List DiagnosticShortInfo} {label : String}

theorem countUnknownDiag_ok {info : DiagnosticShortInfo} : countUnknownDiag frequency info = .ok counted ↔
    ∃ label, info.labelId = some label ∧ counted = frequency.insert label (getOrDefault frequency label + 1) := by
  unfold countUnknownDiag
  rw [except_bind_ok]
  constructor
  · rintro ⟨label, present, rest⟩
    cases rest
    exact ⟨label, nonNull_ok.mp present, rfl⟩
  · rintro ⟨label, present, rfl⟩
    exact ⟨label, nonNull_ok.mpr present, rfl⟩

/-- All recorded diagnostics have labels. -/
def AllLabelled (unknownDiags : List DiagnosticShortInfo) : Prop :=
  ∀ info ∈ unknownDiags, ∃ label, info.labelId = some label

/-- One pass over the recorded diagnostics counts each of them, and all have labels. -/
theorem foldlM_countUnknownDiag (passed : unknownDiags.foldlM countUnknownDiag frequency = .ok counted) :
    (∀ label, getOrDefault counted label = getOrDefault frequency label + labelled label unknownDiags) ∧
      AllLabelled unknownDiags := by
  induction unknownDiags generalizing frequency with
  | nil =>
    cases passed
    exact ⟨fun _ => rfl, fun _ member => nomatch member⟩
  | cons info rest ih =>
    rw [List.foldlM_cons, except_bind_ok] at passed
    obtain ⟨middle, first, later⟩ := passed
    obtain ⟨own, present, rfl⟩ := countUnknownDiag_ok.mp first
    obtain ⟨counts, labels⟩ := ih later
    constructor
    · intro label
      rw [counts label, getOrDefault_insert, labelled, labelled, List.countP_cons, present]
      by_cases same : label = own
      · subst same
        rw [if_pos rfl, if_pos (beq_self_eq_true _)]
        omega
      · rw [if_neg same, if_neg (by simpa using Ne.symm same)]
        omega
    · intro other member
      rcases List.mem_cons.mp member with rfl | member
      · exact ⟨own, present⟩
      · exact labels other member

end Counting

section Mending
variable {s t : MendingState} {diag : Diagnostic} {includePath : String}

theorem Effect.unknownDiags (effect : Effect s diag t) : t.unknownDiags = s.unknownDiags := by
  cases effect <;> rfl

theorem Attempt.unknownDiags (attempt : Attempt includePath s diag t) : t.unknownDiags = s.unknownDiags := by
  rcases attempt.effect with effect | ⟨_, _, rfl⟩
  · exact effect.unknownDiags
  · rfl

/-- A program that records no unknown diagnostic. -/
def KeepsUnknown {α : Type} (program : Mend α) : Prop :=
  Leaves (fun s t => t.unknownDiags = s.unknownDiags) program

theorem keepsUnknown_mend (diags : List Diagnostic) : KeepsUnknown (mend includePath diags) :=
  leaves_forM (R := fun (s t : MendingState) => t.unknownDiags = s.unknownDiags) (fun _ => rfl)
    (fun one two => two.trans one)
    (fun _ => ⟨fun returned => Attempt.unknownDiags (.inl returned),
      fun thrown => Attempt.unknownDiags (.inr ⟨_, thrown⟩)⟩)
    diags

end Mending

section Checking
variable {sourceResult : DiagExporterSourceResult} {sourceFile : String} {s t : MendingState}
  {status : MendingTerminationStatus}

theorem keepsUnknown_checkTermination : KeepsUnknown (checkTermination sourceResult sourceFile) :=
  leaves_checkTermination (R := fun s t => t.unknownDiags = s.unknownDiags) (fun _ => rfl)
    (fun one two => two.trans one) fun _ _ => rfl

/-- The check comes to a first error that has no handler and was not handled before. -/
structure NewUnknown (sourceFile : String) (handled : List Diagnostic) (sourceResult : DiagExporterSourceResult)
    (diag : Diagnostic) : Prop where
  errors : sourceResult.hasErrorsOrFatals = true
  newFirst : NewFirstError handled sourceResult diag
  searched : ∃ inSource, sourceResult.getFirstErrorOrFatalInSource sourceFile = .ok inSource
  unknown : diag.diagnosticID.isUnknown = true

/-- An iteration records the unknown diagnostic that its check comes to, or nothing. -/
def Records (sourceFile : String) (handled : List Diagnostic) (sourceResult : DiagExporterSourceResult)
    (recorded : List DiagnosticShortInfo) : Prop :=
  recorded = [] ∧ (∀ diag, ¬ NewUnknown sourceFile handled sourceResult diag) ∨
    ∃ diag info, NewUnknown sourceFile handled sourceResult diag ∧
      DiagnosticShortInfo.ofDiagnostic diag = .ok info ∧ recorded = [info]

/-- The check reports the unknown diagnostic it comes to, and says so. -/
theorem checkTermination_unknownDiags (checked : checkTermination sourceResult sourceFile s = .ok status t) :
    status.unknownDiags = [] ∧ (∀ diag, ¬ NewUnknown sourceFile s.handled sourceResult diag) ∨
      status.terminationType = .unknownDiagnostic ∧ ∃ idx diag, status.unknownDiags = [idx] ∧
        sourceResult.diags[idx]? = some diag ∧ NewUnknown sourceFile s.handled sourceResult diag := by
  rcases checkTermination_iff.mp checked with
    ⟨noErrors, rfl, _⟩ | ⟨errors, idx, firstError, inSource, cycle, found, present, searched, compared, rfl, _⟩
  · exact .inl ⟨rfl, fun diag unknown => nomatch noErrors.symm.trans unknown.errors⟩
  have isNew := newFirstError_iff found present searched compared
  cases cycle with
  | true =>
    refine .inl ⟨rfl, fun diag unknown => ?_⟩
    obtain rfl := unknown.newFirst.eq_of_first found present
    cases isNew.mp unknown.newFirst
  | false =>
    cases isUnknown : firstError.diagnosticID.isUnknown with
    | true =>
      rw [statusOf_unknown isUnknown]
      exact .inr ⟨rfl, idx, firstError, rfl, present, errors, isNew.mpr rfl, ⟨inSource, searched⟩, isUnknown⟩
    | false =>
      rw [statusOf_known isUnknown]
      refine .inl ⟨rfl, fun diag unknown => ?_⟩
      obtain rfl := unknown.newFirst.eq_of_first found present
      cases isUnknown.symm.trans unknown.unknown

theorem addUnknownDiag_ok {idx : Nat} {u : Unit} (added : addUnknownDiag sourceResult idx s = .ok u t) :
    ∃ diag info, sourceResult.diags[idx]? = some diag ∧ DiagnosticShortInfo.ofDiagnostic diag = .ok info ∧
      t.unknownDiags = s.unknownDiags ++ [info] := by
  simp only [addUnknownDiag, bind_ok, raise_ok, modifyTable_ok, getAt_ok] at added
  obtain ⟨diag, _, ⟨present, rfl⟩, info, _, ⟨short, rfl⟩, rfl⟩ := added
  exact ⟨diag, info, present, short, rfl⟩

theorem addUnknownDiag_atomic (idx : Nat) : Atomic (addUnknownDiag sourceResult idx) :=
  .bind (readOnly_raise _) fun _ => .bind (readOnly_raise _) fun _ => atomic_modify _

/-- What the check reports is recorded. -/
theorem addUnknownDiags_ok {u : Unit} (checked : checkTermination sourceResult sourceFile s = .ok status t)
    {after : MendingState} (added : status.unknownDiags.forM (addUnknownDiag sourceResult) t = .ok u after) :
    ∃ recorded, after.unknownDiags = s.unknownDiags ++ recorded ∧
      Records sourceFile s.handled sourceResult recorded ∧
      (status.terminationType = .unknownDiagnostic ∨ recorded = []) := by
  have kept : t.unknownDiags = s.unknownDiags := keepsUnknown_checkTermination.returned checked
  rcases checkTermination_unknownDiags checked with ⟨none, known⟩ | ⟨unknown, idx, diag, one, present, found⟩
  · rw [none] at added
    obtain ⟨_, rfl⟩ := pure_ok.mp added
    exact ⟨[], by rw [kept, List.append_nil], .inl ⟨rfl, known⟩, .inr rfl⟩
  · rw [one] at added
    obtain ⟨_, last, first, rest⟩ := bind_ok.mp added
    obtain ⟨_, rfl⟩ := pure_ok.mp rest
    obtain ⟨_, info, again, short, appended⟩ := addUnknownDiag_ok first
    obtain rfl := Option.some.inj (present.symm.trans again)
    exact ⟨[info], by rw [appended, kept], .inr ⟨diag, info, found, short, rfl⟩, .inl unknown⟩

theorem addUnknownDiags_error {e : JavaException}
    (checked : checkTermination sourceResult sourceFile s = .ok status t) {after : MendingState}
    (thrown : status.unknownDiags.forM (addUnknownDiag sourceResult) t = .error e after) :
    after.unknownDiags = s.unknownDiags := by
  have kept : t.unknownDiags = s.unknownDiags := keepsUnknown_checkTermination.returned checked
  rcases checkTermination_unknownDiags checked with ⟨none, _⟩ | ⟨_, idx, _, one, _⟩
  · rw [none] at thrown
    exact (pure_error thrown).elim
  · rw [one] at thrown
    rcases bind_error.mp thrown with failed | ⟨_, _, _, rest⟩
    · rw [addUnknownDiag_atomic idx _ _ _ failed, kept]
    · exact (pure_error rest).elim

end Checking

section Iteration
variable {surroundings : Surroundings} {invocation : CMenderInvocation} {iteration : Nat}
  {sourceResult : DiagExporterSourceResult} {s t : EngineState} {e : JavaException}

theorem KeepsUnknown.onMending {α : Type} {program : Mend α} (keeps : KeepsUnknown program) :
    Leaves (fun s t : EngineState => t.unknownDiags = s.unknownDiags) (onMending program) := by
  constructor
  · intro s a t returned
    obtain ⟨mending, ran, rfl⟩ := onMending_ok.mp returned
    exact keeps.returned ran
  · intro s e t thrown
    obtain ⟨mending, ran, rfl⟩ := onMending_error.mp thrown
    exact keeps.thrown ran

theorem mendSelected_unknownDiags : Leaves (fun s t : EngineState => t.unknownDiags = s.unknownDiags)
    (mendSelected surroundings invocation iteration sourceResult) := by
  have trans {a b c : EngineState} (one : b.unknownDiags = a.unknownDiags) (two : c.unknownDiags = b.unknownDiags) :
      c.unknownDiags = a.unknownDiags := two.trans one
  have reads {α : Type} {program : Engine α} (reads : ReadOnly program) :
      Leaves (fun s t : EngineState => t.unknownDiags = s.unknownDiags) program := reads.leaves fun _ => rfl
  refine .bind trans (reads (readOnly_raise _)) fun idxs => .bind trans (reads (readOnly_raise _)) fun diags => ?_
  refine .bind trans (keepsUnknown_mend diags).onMending fun _ => .ite (reads (readOnly_pure _)) ?_
  refine .bind trans ⟨fun returned => ?_, fun thrown => ?_⟩ fun _ => reads (readOnly_pure _)
  · exact congrArg MendingState.unknownDiags (rewriteMendfile_mending.returned returned)
  · exact congrArg MendingState.unknownDiags (rewriteMendfile_mending.thrown thrown)

theorem processDiagnostics_recorded {result : MendingIterationResult}
    (returned : processDiagnostics surroundings invocation iteration sourceResult s = .ok result t) :
    ∃ recorded, t.unknownDiags = s.unknownDiags ++ recorded ∧
      Records surroundings.sourceFile s.handled sourceResult recorded ∧
      (result.terminationStatus.terminationType = .unknownDiagnostic ∨ recorded = []) := by
  unfold processDiagnostics at returned
  simp only [bind_ok, get_ok] at returned
  obtain ⟨status, checked, terminated, _, _, ⟨rfl, rfl⟩, _, noted, added, ended⟩ := returned
  obtain ⟨mending, checked, rfl⟩ := onMending_ok.mp terminated
  obtain ⟨after, noting, rfl⟩ := onMending_ok.mp added
  obtain ⟨recorded, appended, records, unknown⟩ := addUnknownDiags_ok checked noting
  refine ⟨recorded, ?_⟩
  split at ended
  · obtain ⟨rfl, rfl⟩ := pure_ok.mp ended
    exact ⟨appended, records, unknown⟩
  · obtain ⟨idxs, _, mended, finished⟩ := bind_ok.mp ended
    obtain ⟨rfl, rfl⟩ := pure_ok.mp finished
    exact ⟨(mendSelected_unknownDiags.returned mended).trans appended, records, unknown⟩

/-- An unknown diagnostic ends the iteration unless the option is set, so that
nothing can fail after it was recorded. -/
theorem processDiagnostics_error_recorded
    (thrown : processDiagnostics surroundings invocation iteration sourceResult s = .error e t) :
    t.unknownDiags = s.unknownDiags ∨ invocation.continueOnUnknownDiagnostic = true ∧
      ∃ diag, NewUnknown surroundings.sourceFile s.handled sourceResult diag := by
  unfold processDiagnostics at thrown
  rcases bind_error.mp thrown with failed | ⟨status, checked, terminated, thrown⟩
  · exact .inl (keepsUnknown_checkTermination.onMending.thrown failed)
  simp only [bind_error, get_error, get_ok, false_or] at thrown
  obtain ⟨_, _, ⟨rfl, rfl⟩, thrown⟩ := thrown
  obtain ⟨mending, checkedTermination, rfl⟩ := onMending_ok.mp terminated
  rcases thrown with failed | ⟨_, noted, added, thrown⟩
  · obtain ⟨after, noting, rfl⟩ := onMending_error.mp failed
    exact .inl (addUnknownDiags_error checkedTermination noting)
  obtain ⟨after, noting, rfl⟩ := onMending_ok.mp added
  obtain ⟨recorded, appended, records, unknown⟩ := addUnknownDiags_ok checkedTermination noting
  split at thrown
  · exact (pure_error thrown).elim
  · rename_i goesOn
    have goesOn : status.stops invocation.continueOnUnknownDiagnostic = false := Bool.eq_false_iff.mpr goesOn
    rcases bind_error.mp thrown with failed | ⟨_, _, _, ended⟩
    · have kept := (mendSelected_unknownDiags.thrown failed).trans appended
      rcases records with ⟨rfl, _⟩ | ⟨diag, info, found, _, rfl⟩
      · exact .inl (kept.trans (List.append_nil _))
      · right
        rcases unknown with unknown | none
        · rcases MendingTerminationStatus.stops_eq_false.mp goesOn with known | ⟨_, set⟩
          · rw [known] at unknown
            cases unknown
          · exact ⟨set, diag, found⟩
        · cases none
    · exact (pure_error ended).elim

theorem keepsUnknown_fileSize (size : Int) :
    KeepsUnknown (modifyTable fun table => { table with fileSize := size }) := leaves_modify fun _ => rfl

theorem mendingIteration_recorded {result : MendingIterationResult}
    (returned : mendingIteration surroundings invocation iteration s = .ok result t) :
    ∃ sourceResult recorded, Answers surroundings iteration s sourceResult ∧
      t.unknownDiags = s.unknownDiags ++ recorded ∧
      Records surroundings.sourceFile s.handled sourceResult recorded ∧
      (result.terminationStatus.terminationType = .unknownDiagnostic ∨ recorded = []) := by
  simp only [mendingIteration, bind_ok, callDiagExporter_ok, raise_ok, getFirst_ok, tryCatch_ok] at returned
  obtain ⟨results, _, ⟨answered, rfl⟩, sourceResult, _, ⟨first, rfl⟩, _, sized, noted, processed⟩ := returned
  obtain ⟨recorded, appended, records, unknown⟩ := processDiagnostics_recorded processed
  rw [(keepsUnknown_fileSize _).onMending.returned noted] at appended
  rw [(keepsHandled_fileSize _).onMending_ok noted] at records
  exact ⟨sourceResult, recorded, ⟨results, answered, first⟩, appended, records, unknown⟩

theorem mendingIteration_error_recorded
    (thrown : mendingIteration surroundings invocation iteration s = .error e t) :
    t.unknownDiags = s.unknownDiags ∨ invocation.continueOnUnknownDiagnostic = true ∧
      ∃ sourceResult diag, Answers surroundings iteration s sourceResult ∧
        NewUnknown surroundings.sourceFile s.handled sourceResult diag := by
  unfold mendingIteration at thrown
  rcases bind_error.mp thrown with failed | ⟨results, _, called, thrown⟩
  · rw [(callDiagExporter_error failed).1]
    exact .inl rfl
  obtain ⟨answered, rfl⟩ := callDiagExporter_ok.mp called
  rcases bind_error.mp thrown with failed | ⟨sourceResult, _, taken, thrown⟩
  · obtain rfl := (raise_error.mp failed).2
    exact .inl rfl
  obtain ⟨first, rfl⟩ := raise_ok.mp taken
  rcases bind_error.mp thrown with failed | ⟨_, sized, noted, thrown⟩
  · exact .inl ((keepsUnknown_fileSize _).onMending.thrown failed)
  obtain ⟨_, cause, failed⟩ := tryCatch_error.mp thrown
  have kept := (keepsHandled_fileSize _).onMending_ok noted
  rw [← (keepsUnknown_fileSize _).onMending.returned noted]
  rcases processDiagnostics_error_recorded failed with same | ⟨set, diag, found⟩
  · exact .inl same
  · rw [kept] at found
    exact .inr ⟨set, sourceResult, diag, ⟨results, answered, getFirst_ok.mp first⟩, found⟩

end Iteration

section Loop
variable {surroundings : Surroundings} {invocation : CMenderInvocation} {start s next last : LoopState}

def LoopState.unknownDiags (s : LoopState) : List DiagnosticShortInfo := s.engine.unknownDiags

/-- No unknown diagnostic is on record. -/
def NoneRecorded (s : LoopState) : Prop := s.unknownDiags = []

/-- Every recorded diagnostic has been counted once since the start. -/
def CountedOnce (start s : LoopState) : Prop := ∀ label,
  getOrDefault s.unknownDiagsFrequency label =
    getOrDefault start.unknownDiagsFrequency label + labelled label s.unknownDiags

/-- A diagnostic on record has been counted more often than that. -/
def CountedMore (start s : LoopState) : Prop := ∃ label,
  getOrDefault start.unknownDiagsFrequency label + labelled label s.unknownDiags <
    getOrDefault s.unknownDiagsFrequency label

/-- A round counts all that is on record after it. -/
theorem loopStep_counts (stepped : loopStep surroundings invocation s = .inl next) :
    (∀ label, getOrDefault next.unknownDiagsFrequency label =
      getOrDefault s.unknownDiagsFrequency label + labelled label next.unknownDiags) ∧
    AllLabelled next.unknownDiags := by
  obtain ⟨_, _, result, engine, frequency, _, counted, rfl⟩ := loopStep_inl_iff.mp stepped
  exact foldlM_countUnknownDiag counted

theorem CountedOnce.step (once : CountedOnce start s) (none : NoneRecorded s)
    (stepped : loopStep surroundings invocation s = .inl next) : CountedOnce start next := by
  intro label
  rw [(loopStep_counts stepped).1 label, once label, none]
  rfl

theorem CountedMore.step (more : CountedMore start s) (stepped : loopStep surroundings invocation s = .inl next) :
    CountedMore start next := by
  obtain ⟨label, more⟩ := more
  have counts := (loopStep_counts stepped).1 label
  exact ⟨label, by omega⟩

/-- What is on record already is counted once more. -/
theorem CountedOnce.countedMore (once : CountedOnce start s) {info : DiagnosticShortInfo} {label : String}
    (present : info ∈ s.unknownDiags) (own : info.labelId = some label)
    (stepped : loopStep surroundings invocation s = .inl next) : CountedMore start next := by
  have counts := (loopStep_counts stepped).1 label
  have before := once label
  have positive : 0 < labelled label s.unknownDiags :=
    List.countP_pos_iff.mpr ⟨info, present, beq_iff_eq.mpr own⟩
  exact ⟨label, by omega⟩

theorem countedOnce_initial (unrecorded : NoneRecorded start) : CountedOnce start start := by
  intro label
  rw [unrecorded]
  rfl

theorem countedOnce_of_rounds (unrecorded : NoneRecorded start)
    (run : Rounds (loopStep surroundings invocation) NoneRecorded start s) : CountedOnce start s := by
  induction run with
  | refl => exact countedOnce_initial unrecorded
  | tail _ head ih => exact ih.step head.1 head.2

/-- Either no round found a diagnostic on record, or one is counted too often. -/
theorem counted_of_rounds (unrecorded : NoneRecorded start)
    (run : Rounds (loopStep surroundings invocation) (fun _ => True) start s) :
    (Rounds (loopStep surroundings invocation) NoneRecorded start s ∧ CountedOnce start s ∧
      AllLabelled s.unknownDiags) ∨ CountedMore start s := by
  induction run with
  | refl =>
    refine .inl ⟨.refl, countedOnce_initial unrecorded, fun info member => ?_⟩
    rw [unrecorded] at member
    cases member
  | @tail middle next _ head ih =>
    rcases ih with ⟨allowed, once, labels⟩ | more
    · by_cases none : NoneRecorded middle
      · exact .inl ⟨allowed.tail ⟨none, head.2⟩, once.step none head.2, (loopStep_counts head.2).2⟩
      · obtain ⟨info, present⟩ := List.exists_mem_of_ne_nil _ none
        obtain ⟨label, own⟩ := labels info present
        exact .inr (once.countedMore present own head.2)
    · exact .inr (more.step head.2)

/-- Without the option, a round that records a diagnostic is the last one. -/
theorem noneRecorded_of_rounds (off : invocation.continueOnUnknownDiagnostic = false)
    (unrecorded : NoneRecorded start) (run : Rounds (loopStep surroundings invocation) (fun _ => True) start s) :
    Rounds (loopStep surroundings invocation) NoneRecorded start s ∧ (s.stopped = true ∨ NoneRecorded s) := by
  induction run with
  | refl => exact ⟨.refl, .inr unrecorded⟩
  | @tail middle next _ head ih =>
    obtain ⟨allowed, found⟩ := ih
    obtain ⟨running, _, result, engine, frequency, iterated, _, rfl⟩ := loopStep_inl_iff.mp head.2
    have none : NoneRecorded middle := by
      rcases found with stopped | none
      · rw [running] at stopped
        cases stopped
      · exact none
    refine ⟨allowed.tail ⟨none, head.2⟩, ?_⟩
    obtain ⟨_, recorded, _, appended, _, unknown⟩ := mendingIteration_recorded iterated
    rcases unknown with unknown | rfl
    · left
      have stops : result.terminationStatus.stops invocation.continueOnUnknownDiagnostic = true := by
        unfold MendingTerminationStatus.stops MendingTerminationStatus.success
          MendingTerminationStatus.finishedPrematurely
        rw [unknown, off]
        rfl
      exact Bool.or_eq_true_iff.mpr (.inl stops)
    · right
      have same : engine.unknownDiags = middle.engine.unknownDiags := appended.trans (List.append_nil _)
      exact same.trans none

theorem LoopEnd.unknownDiags {outcome : MendOutcome} (ending : LoopEnd surroundings invocation s outcome)
    {result : SourceResult} (returned : outcome.result = .ok result) :
    result.unknownDiags = s.unknownDiags ∨ result.fatalException.isSome = true ∧
      invocation.continueOnUnknownDiagnostic = true ∧
      ∃ sourceResult diag, Answers surroundings (s.currentIteration + 1) s.engine sourceResult ∧
        NewUnknown surroundings.sourceFile s.engine.handled sourceResult diag := by
  cases ending with
  | stopped =>
    cases returned
    exact .inl rfl
  | timedOut =>
    cases returned
    exact .inl rfl
  | fatal _ _ thrown =>
    cases returned
    rcases mendingIteration_error_recorded thrown with same | recorded
    · exact .inl same
    · exact .inr ⟨rfl, recorded⟩
  | escaped => cases returned
  | uncounted => cases returned

end Loop

/-- The counts grow by what the result lists, when no round goes on that finds an
unknown diagnostic on record and none that fails comes to a new one. In runs that
do not fail there is no other way, and without the option it is always so. -/
theorem unknown_diags_counted_once (surroundings : Surroundings) (invocation : CMenderInvocation)
    (names : MendingTypeNameGenerator) (files : FileSystem) (frequency : Map String Nat) (last : LoopState)
    (outcome : MendOutcome) (result : SourceResult)
    (run : Rounds (loopStep surroundings invocation) (fun _ => True) (.initial names files frequency) last)
    (ended : loopStep surroundings invocation last = .inr outcome) (returned : outcome.result = .ok result) :
    let once := ∀ label, getOrDefault last.unknownDiagsFrequency label =
      getOrDefault frequency label + labelled label result.unknownDiags
    let onlyFresh := Rounds (loopStep surroundings invocation) NoneRecorded (.initial names files frequency) last
    (onlyFresh → (result.fatalException.isSome = true → ∀ sourceResult diag,
        Answers surroundings (last.currentIteration + 1) last.engine sourceResult →
          ¬ NewUnknown surroundings.sourceFile last.engine.handled sourceResult diag) → once) ∧
      (result.fatalException = none → once → onlyFresh) ∧
      (invocation.continueOnUnknownDiagnostic = false → once) := by
  have unrecorded : NoneRecorded (.initial names files frequency) := rfl
  have ending := (loopEnd_of_inr ended).unknownDiags returned
  have fresh (allowed : Rounds (loopStep surroundings invocation) NoneRecorded (.initial names files frequency) last)
      (kept : result.unknownDiags = last.unknownDiags) (label : String) :
      getOrDefault last.unknownDiagsFrequency label =
        getOrDefault frequency label + labelled label result.unknownDiags := by
    rw [kept]
    exact countedOnce_of_rounds unrecorded allowed label
  refine ⟨fun allowed failed => fresh allowed ?_, fun finished once => ?_, fun off => ?_⟩
  · rcases ending with kept | ⟨fatal, _, sourceResult, diag, answers, found⟩
    · exact kept
    · exact absurd found (failed fatal sourceResult diag answers)
  · have kept : result.unknownDiags = last.unknownDiags := by
      rcases ending with kept | ⟨fatal, _⟩
      · exact kept
      · rw [finished] at fatal
        cases fatal
    rcases counted_of_rounds unrecorded run with ⟨allowed, _⟩ | ⟨label, more⟩
    · exact allowed
    · have exact := once label
      rw [kept] at exact
      exact absurd exact (Nat.ne_of_gt more)
  · refine fresh (noneRecorded_of_rounds off unrecorded run).1 ?_
    rcases ending with kept | ⟨_, set, _⟩
    · exact kept
    · rw [off] at set
      cases set

/-- An unknown diagnostic in the first iteration, and nothing more after it. -/
def unknownThenClean : Surroundings := .reporting fun iteration _ => if iteration = 1 then [unhandled] else []

/-- With the option set, it is counted after both iterations. -/
theorem unknown_diag_counted_twice : ∃ last outcome result,
    Rounds (loopStep unknownThenClean ⟨.basicFirstError, true, false, false⟩) (fun _ => True)
      (.initial .start .empty .empty) last ∧
    loopStep unknownThenClean ⟨.basicFirstError, true, false, false⟩ last = .inr outcome ∧
    outcome.result = .ok result ∧ result.success = true ∧
    getOrDefault last.unknownDiagsFrequency "err_unsupported" = 2 ∧
    labelled "err_unsupported" result.unknownDiags = 1 := by
  refine ⟨_, _, _, .head ⟨trivial, rfl⟩ (.head ⟨trivial, rfl⟩ .refl), rfl, rfl, ?_, ?_, ?_⟩
  · decide +kernel
  · decide +kernel
  · decide +kernel

/-- Without it, the file is given up after the first. -/
theorem unknown_diags_counted_once_given_up : ∃ last outcome result,
    Rounds (loopStep unknownThenClean ⟨.basicFirstError, false, false, false⟩) (fun _ => True)
      (.initial .start .empty .empty) last ∧
    loopStep unknownThenClean ⟨.basicFirstError, false, false, false⟩ last = .inr outcome ∧
    outcome.result = .ok result ∧ labelled "err_unsupported" result.unknownDiags = 1 ∧
    ∀ label, getOrDefault last.unknownDiagsFrequency label =
      getOrDefault (.empty : Map String Nat) label + labelled label result.unknownDiags := by
  refine ⟨_, _, _, .head ⟨trivial, rfl⟩ .refl, rfl, rfl, ?_,
    (unknown_diags_counted_once unknownThenClean ⟨.basicFirstError, false, false, false⟩ .start .empty .empty _ _ _
      (.head ⟨trivial, rfl⟩ .refl) rfl rfl).2.2 rfl⟩
  decide +kernel

end CMender
