import CMender.Analysis.Located
import CMender.Engine.Loop
import CMender.Mending.Failures

/-! What one iteration does to the diagnostics handled so far: nothing, or it
hands over the selected batch after the first error was found to be new. -/
namespace CMender
open Foundations Foundations.Execution

def MendingState.handled (s : MendingState) : List Diagnostic := s.table.handledDiagnostics

def EngineState.handled (s : EngineState) : List Diagnostic := s.mending.handled

section Mending
variable {s t : MendingState} {diag : Diagnostic} {diags : List Diagnostic} {includePath : String} {u : Unit}

theorem Effect.handled (effect : Effect s diag t) : t.handled = s.handled := by
  cases effect <;> rfl

theorem Step.handled (step : Step includePath s diag t) : t.handled = s.handled ++ [diag] :=
  step.effect.handled

theorem mend_handled (returned : mend includePath diags s = .ok u t) : t.handled = s.handled ++ diags := by
  induction mend_ok.mp returned with
  | refl s => simp
  | next head _ ih =>
    have later := ih (mend_ok.mpr ‹_›)
    rw [later, head.handled, List.append_assoc]
    rfl

/-- When a handler throws, its diagnostic and those before it have been handed over. -/
theorem mend_error_handled {e : JavaException} (thrown : mend includePath diags s = .error e t) :
    ∃ given, given <+: diags ∧ t.handled = s.handled ++ given := by
  induction diags generalizing s with
  | nil => cases thrown
  | cons diag rest ih =>
    rcases bind_error.mp thrown with first | ⟨_, middle, first, later⟩
    · have attempted : Attempt includePath s diag t := .inr ⟨e, first⟩
      refine ⟨[diag], List.prefix_append [diag] rest, ?_⟩
      rcases attempted.effect with effect | ⟨_, _, rfl⟩
      · exact effect.handled
      · rfl
    · obtain ⟨given, start, handled⟩ := ih later
      refine ⟨diag :: given, List.cons_prefix_cons.mpr ⟨rfl, start⟩, ?_⟩
      have step : Step includePath s diag middle := first
      rw [handled, step.handled, List.append_assoc]
      rfl

end Mending

section Termination
variable {sourceResult : DiagExporterSourceResult} {sourceFile : String} {s t : MendingState}
  {status : MendingTerminationStatus}

/-- The search for the first error in the source looks at the first error first. -/
theorem located_of_firstErrorOrFatalIn {diags : List Diagnostic} {found : Option Diagnostic} {idx : Nat}
    {diag : Diagnostic} (searched : DiagExporterSourceResult.firstErrorOrFatalIn sourceFile diags = .ok found)
    (first : diags.findIdx? Diagnostic.isErrorOrFatal = some idx) (present : diags[idx]? = some diag) :
    diag.Located := by
  induction diags generalizing idx with
  | nil => cases first
  | cons head rest ih =>
    simp only [DiagExporterSourceResult.firstErrorOrFatalIn] at searched
    rw [List.findIdx?_cons] at first
    split at searched
    · rename_i error
      simp only [error, if_true, Option.some.injEq] at first
      subst first
      obtain rfl : head = diag := by simpa using present
      cases reported : head.location.reportedLoc with
      | none =>
        rw [reported] at searched
        cases searched
      | some location => simp [Diagnostic.Located, reported]
    · rename_i noError
      simp only [noError, Bool.false_eq_true, if_false] at first
      obtain ⟨before, found, rfl⟩ := Option.map_eq_some_iff.mp first
      exact ih searched found (by simpa using present)

/-- The first error of a result is located and was not handled before. -/
structure NewFirstError (handled : List Diagnostic) (sourceResult : DiagExporterSourceResult)
    (firstError : Diagnostic) : Prop where
  first : ∃ idx, sourceResult.getFirstOrFatalIdx = some idx ∧ sourceResult.diags[idx]? = some firstError
  located : firstError.Located
  fresh : ∀ other ∈ handled, other.key ≠ firstError.key

theorem NewFirstError.eq_of_first {handled : List Diagnostic} {diag firstError : Diagnostic} {idx : Nat}
    (newFirst : NewFirstError handled sourceResult diag) (found : sourceResult.getFirstOrFatalIdx = some idx)
    (present : sourceResult.diags[idx]? = some firstError) : diag = firstError := by
  obtain ⟨⟨_, foundAgain, presentAgain⟩, _⟩ := newFirst
  obtain rfl := Option.some.inj (found.symm.trans foundAgain)
  exact Option.some.inj (presentAgain.symm.trans present)

/-- Whether the first error is new is what the check asks. -/
theorem newFirstError_iff {handled : List Diagnostic} {firstError : Diagnostic} {inSource : Option Diagnostic}
    {idx : Nat} {cycle : Bool} (found : sourceResult.getFirstOrFatalIdx = some idx)
    (present : sourceResult.diags[idx]? = some firstError)
    (searched : sourceResult.getFirstErrorOrFatalInSource sourceFile = .ok inSource)
    (compared : containsDiagnostic firstError handled = .ok cycle) :
    NewFirstError handled sourceResult firstError ↔ cycle = false := by
  have located := located_of_firstErrorOrFatalIn searched found present
  obtain ⟨key, own⟩ := Diagnostic.located_iff.mp located
  rw [containsDiagnostic_of_key own] at compared
  obtain rfl := Except.ok.inj compared
  rw [Bool.eq_false_iff, ne_eq, List.any_eq_true]
  constructor
  · rintro ⟨_, _, fresh⟩ ⟨other, member, same⟩
    exact fresh other member ((of_decide_eq_true same).trans own.symm)
  · exact fun absent => ⟨⟨idx, found, present⟩, located, fun other member same =>
      absent ⟨other, member, decide_eq_true (same.trans own)⟩⟩

/-- The check ends the run, or it has found the first error to be new. -/
theorem checkTermination_ok (checked : checkTermination sourceResult sourceFile s = .ok status t) :
    status.terminationType = .noMoreErrorsOrFatals ∨ status.terminationType = .detectedCycle ∨
      ∃ firstError, NewFirstError s.handled sourceResult firstError := by
  rcases checkTermination_iff.mp checked with
    ⟨_, rfl, _⟩ | ⟨_, idx, firstError, inSource, cycle, found, present, searched, compared, rfl, _⟩
  · exact .inl rfl
  · cases cycle with
    | true => exact .inr (.inl rfl)
    | false => exact .inr (.inr ⟨firstError, (newFirstError_iff found present searched compared).mpr rfl⟩)

/-- A program that hands no diagnostic over. -/
def KeepsHandled {α : Type} (program : Mend α) : Prop := Leaves (fun s t => t.handled = s.handled) program

theorem KeepsHandled.bind {α β : Type} {program : Mend α} {next : α → Mend β} (first : KeepsHandled program)
    (second : ∀ a, KeepsHandled (next a)) : KeepsHandled (program >>= next) :=
  Leaves.bind (fun one two => two.trans one) first second

theorem keepsHandled_modifyTable {f : MendingTable → MendingTable}
    (kept : ∀ table, (f table).handledDiagnostics = table.handledDiagnostics) :
    KeepsHandled (modifyTable f) := leaves_modify fun s => kept s.table

theorem keepsHandled_readOnly {α : Type} {program : Mend α} (reads : ReadOnly program) :
    KeepsHandled program := ReadOnly.leaves reads fun _ => rfl

/-- The progress in the file is all that the check changes. -/
theorem leaves_checkTermination {R : MendingState → MendingState → Prop} (refl : ∀ s, R s s)
    (trans : ∀ {a b c}, R a b → R b c → R a c)
    (progress : ∀ s fileProgress, R s { s with table := { s.table with fileProgress := fileProgress } }) :
    Leaves R (checkTermination sourceResult sourceFile) := by
  have reads {α : Type} {program : Mend α} (reads : ReadOnly program) : Leaves R program := reads.leaves refl
  have raised {α : Type} (result : Except JavaException α) : Leaves R (raise result : Mend α) :=
    reads (readOnly_raise result)
  refine .ite (reads (readOnly_pure _)) ?_
  refine .bind trans (raised _) fun idx => .bind trans (raised _) fun firstError => ?_
  refine .bind trans (raised _) fun inSource => .bind trans (reads readOnly_getTable) fun table => ?_
  refine .bind trans (leaves_modify fun s => progress s _) fun _ => .bind trans (raised _) fun cycle => ?_
  exact .ite (reads (readOnly_pure _)) (.ite (reads (readOnly_pure _)) (reads (readOnly_pure _)))

theorem keepsHandled_checkTermination : KeepsHandled (checkTermination sourceResult sourceFile) :=
  leaves_checkTermination (R := fun s t => t.handled = s.handled) (fun _ => rfl) (fun one two => two.trans one)
    fun _ _ => rfl

theorem keepsHandled_addUnknownDiag (idx : Nat) : KeepsHandled (addUnknownDiag sourceResult idx) :=
  .bind (keepsHandled_readOnly (readOnly_raise _)) fun _ =>
    .bind (keepsHandled_readOnly (readOnly_raise _)) fun _ => keepsHandled_modifyTable fun _ => rfl

theorem keepsHandled_addUnknownDiags (idxs : List Nat) :
    KeepsHandled (idxs.forM (addUnknownDiag sourceResult)) :=
  leaves_forM (R := fun (s t : MendingState) => t.handled = s.handled) (fun _ => rfl) (fun one two => two.trans one)
    keepsHandled_addUnknownDiag idxs

end Termination

section Iteration
variable {surroundings : Surroundings} {invocation : CMenderInvocation} {iteration : Nat}
  {sourceResult : DiagExporterSourceResult} {s t : EngineState} {e : JavaException}

theorem onMending_ok {α : Type} {program : Mend α} {a : α} : onMending program s = .ok a t ↔
    ∃ mending, program s.mending = .ok a mending ∧ { s with mending := mending } = t := by
  unfold onMending
  cases program s.mending with
  | ok b mending => simp [and_assoc]
  | error e mending => simp

theorem onMending_error {α : Type} {program : Mend α} : onMending program s = .error e t ↔
    ∃ mending, program s.mending = .error e mending ∧ { s with mending := mending } = t := by
  unfold onMending
  cases program s.mending with
  | ok b mending => simp
  | error f mending => simp [and_assoc]

theorem KeepsHandled.onMending_ok {α : Type} {program : Mend α} {a : α} (keeps : KeepsHandled program)
    (returned : onMending program s = .ok a t) : t.handled = s.handled := by
  obtain ⟨mending, ran, rfl⟩ := CMender.onMending_ok.mp returned
  exact keeps.returned ran

theorem KeepsHandled.onMending_error {α : Type} {program : Mend α} (keeps : KeepsHandled program)
    (thrown : onMending program s = .error e t) : t.handled = s.handled := by
  obtain ⟨mending, ran, rfl⟩ := CMender.onMending_error.mp thrown
  exact keeps.thrown ran

/-- The mendfile is all that writing it changes. -/
theorem rewriteMendfile_mending : Leaves (fun s t : EngineState => t.mending = s.mending)
    (rewriteMendfile surroundings invocation iteration) := by
  constructor
  · intro s u t returned
    simp only [rewriteMendfile, bind_ok, get_ok, set_ok, raise_ok] at returned
    obtain ⟨_, _, ⟨rfl, rfl⟩, _, _, rfl, _, rfl⟩ := returned
    rfl
  · intro s e t thrown
    simp only [rewriteMendfile, bind_error, get_error, get_ok, set_error, set_ok, raise_error, false_or] at thrown
    obtain ⟨_, _, ⟨rfl, rfl⟩, _, _, rfl, _, rfl⟩ := thrown
    rfl

theorem rewriteMendfile_handled : Leaves (fun s t : EngineState => t.handled = s.handled)
    (rewriteMendfile surroundings invocation iteration) :=
  ⟨fun returned => congrArg MendingState.handled (rewriteMendfile_mending.returned returned),
    fun thrown => congrArg MendingState.handled (rewriteMendfile_mending.thrown thrown)⟩

theorem mendSelected_ok {idxs : List Nat}
    (returned : mendSelected surroundings invocation iteration sourceResult s = .ok idxs t) :
    ∃ batch, Selects invocation.diagnosticAnalysis sourceResult batch ∧ t.handled = s.handled ++ batch := by
  unfold mendSelected at returned
  simp only [bind_ok, raise_ok] at returned
  obtain ⟨selected, _, ⟨analysed, rfl⟩, batch, _, ⟨found, rfl⟩, _, middle, mended, ended⟩ := returned
  obtain ⟨mending, ran, rfl⟩ := onMending_ok.mp mended
  refine ⟨batch, ⟨selected, analysed, found⟩, ?_⟩
  split at ended
  · obtain rfl := (pure_ok.mp ended).2
    exact mend_handled ran
  · simp only [bind_ok, pure_ok] at ended
    obtain ⟨_, last, written, _, rfl⟩ := ended
    exact (rewriteMendfile_handled.returned written).trans (mend_handled ran)

theorem mendSelected_error (thrown : mendSelected surroundings invocation iteration sourceResult s = .error e t) :
    t.handled = s.handled ∨ ∃ batch given, Selects invocation.diagnosticAnalysis sourceResult batch ∧
      given <+: batch ∧ t.handled = s.handled ++ given := by
  unfold mendSelected at thrown
  rcases bind_error.mp thrown with failed | ⟨selected, _, analysed, thrown⟩
  · obtain rfl := (raise_error.mp failed).2
    exact .inl rfl
  obtain ⟨selection, rfl⟩ := raise_ok.mp analysed
  rcases bind_error.mp thrown with failed | ⟨batch, _, collected, thrown⟩
  · obtain rfl := (raise_error.mp failed).2
    exact .inl rfl
  obtain ⟨found, rfl⟩ := raise_ok.mp collected
  have selects : Selects invocation.diagnosticAnalysis sourceResult batch := ⟨selected, selection, found⟩
  rcases bind_error.mp thrown with failed | ⟨_, middle, mended, thrown⟩
  · obtain ⟨mending, ran, rfl⟩ := onMending_error.mp failed
    obtain ⟨given, start, handled⟩ := mend_error_handled ran
    exact .inr ⟨batch, given, selects, start, handled⟩
  obtain ⟨mending, ran, rfl⟩ := onMending_ok.mp mended
  split at thrown
  · exact (pure_error thrown).elim
  · rcases bind_error.mp thrown with failed | ⟨_, _, _, ended⟩
    · exact .inr ⟨batch, batch, selects, List.prefix_rfl,
        (rewriteMendfile_handled.thrown failed).trans (mend_handled ran)⟩
    · exact (pure_error ended).elim

/-- What is handed over in an iteration is what the analysis selects from a result
whose first error is new. -/
structure Handover (analysis : DiagnosticAnalysis) (handled : List Diagnostic)
    (sourceResult : DiagExporterSourceResult) (batch : List Diagnostic) : Prop where
  newFirst : ∃ firstError, NewFirstError handled sourceResult firstError
  selects : Selects analysis sourceResult batch

/-- The loop ends after an iteration with this status. -/
def MendingTerminationStatus.stops (status : MendingTerminationStatus) (continueOnUnknownDiagnostic : Bool) :
    Bool := status.success || status.finishedPrematurely continueOnUnknownDiagnostic

/-- Only these two statuses let the loop go on. -/
theorem MendingTerminationStatus.stops_eq_false {status : MendingTerminationStatus}
    {continueOnUnknownDiagnostic : Bool} : status.stops continueOnUnknownDiagnostic = false ↔
      status.terminationType = .noTermination ∨
        status.terminationType = .unknownDiagnostic ∧ continueOnUnknownDiagnostic = true := by
  unfold stops success finishedPrematurely
  cases status.terminationType <;> cases continueOnUnknownDiagnostic <;> decide

/-- A status that does not end the loop comes from a new first error. -/
theorem newFirst_of_goesOn {sourceFile : String} {s t : MendingState} {status : MendingTerminationStatus}
    {continueOnUnknownDiagnostic : Bool} (checked : checkTermination sourceResult sourceFile s = .ok status t)
    (goesOn : status.stops continueOnUnknownDiagnostic = false) :
    ∃ firstError, NewFirstError s.handled sourceResult firstError := by
  simp only [MendingTerminationStatus.stops, MendingTerminationStatus.success,
    MendingTerminationStatus.finishedPrematurely, Bool.or_eq_false_iff] at goesOn
  rcases checkTermination_ok checked with done | cycle | fresh
  · simp [done] at goesOn
  · simp [cycle] at goesOn
  · exact fresh

theorem processDiagnostics_ok {result : MendingIterationResult}
    (returned : processDiagnostics surroundings invocation iteration sourceResult s = .ok result t) :
    t.handled = s.handled ∧
        result.terminationStatus.stops invocation.continueOnUnknownDiagnostic = true ∨
      ∃ batch, Handover invocation.diagnosticAnalysis s.handled sourceResult batch ∧
        t.handled = s.handled ++ batch := by
  unfold processDiagnostics at returned
  simp only [bind_ok, get_ok] at returned
  obtain ⟨status, checked, terminated, _, _, ⟨rfl, rfl⟩, _, noted, added, ended⟩ := returned
  have kept : noted.handled = s.handled := (keepsHandled_addUnknownDiags _).onMending_ok added |>.trans
    (keepsHandled_checkTermination.onMending_ok terminated)
  split at ended
  · rename_i stops
    obtain ⟨rfl, rfl⟩ := pure_ok.mp ended
    exact .inl ⟨kept, stops⟩
  · rename_i goesOn
    obtain ⟨mending, checkedTermination, rfl⟩ := onMending_ok.mp terminated
    have newFirst := newFirst_of_goesOn checkedTermination (Bool.eq_false_iff.mpr goesOn)
    obtain ⟨idxs, _, mended, finished⟩ := bind_ok.mp ended
    obtain ⟨rfl, rfl⟩ := pure_ok.mp finished
    obtain ⟨batch, selects, handled⟩ := mendSelected_ok mended
    exact .inr ⟨batch, ⟨newFirst, selects⟩, by rw [handled, kept]⟩

theorem processDiagnostics_error
    (thrown : processDiagnostics surroundings invocation iteration sourceResult s = .error e t) :
    t.handled = s.handled ∨ ∃ batch given,
      Handover invocation.diagnosticAnalysis s.handled sourceResult batch ∧ given <+: batch ∧
        t.handled = s.handled ++ given := by
  unfold processDiagnostics at thrown
  rcases bind_error.mp thrown with failed | ⟨status, checked, terminated, thrown⟩
  · exact .inl (keepsHandled_checkTermination.onMending_error failed)
  have same := keepsHandled_checkTermination.onMending_ok terminated
  simp only [bind_error, get_error, get_ok, false_or] at thrown
  obtain ⟨_, _, ⟨rfl, rfl⟩, thrown⟩ := thrown
  rcases thrown with failed | ⟨_, noted, added, thrown⟩
  · exact .inl (((keepsHandled_addUnknownDiags _).onMending_error failed).trans same)
  have kept : noted.handled = s.handled := ((keepsHandled_addUnknownDiags _).onMending_ok added).trans same
  split at thrown
  · exact (pure_error thrown).elim
  · rename_i goesOn
    obtain ⟨mending, checkedTermination, rfl⟩ := onMending_ok.mp terminated
    have newFirst := newFirst_of_goesOn checkedTermination (Bool.eq_false_iff.mpr goesOn)
    rcases bind_error.mp thrown with failed | ⟨_, _, _, ended⟩
    · rcases mendSelected_error failed with unchanged | ⟨batch, given, selects, start, handled⟩
      · exact .inl (unchanged.trans kept)
      · exact .inr ⟨batch, given, ⟨newFirst, selects⟩, start, by rw [handled, kept]⟩
    · exact (pure_error ended).elim

/-- The exporter's answer in an iteration, of which only the first result is used. -/
def Answers (surroundings : Surroundings) (iteration : Nat) (s : EngineState)
    (sourceResult : DiagExporterSourceResult) : Prop :=
  ∃ results, surroundings.exporter iteration s = .ok results ∧ results.head? = some sourceResult

theorem Answers.unique {other : DiagExporterSourceResult} (one : Answers surroundings iteration s sourceResult)
    (two : Answers surroundings iteration s other) : sourceResult = other := by
  obtain ⟨results, answered, first⟩ := one
  obtain ⟨_, again, firstAgain⟩ := two
  obtain rfl := Except.ok.inj (answered.symm.trans again)
  exact Option.some.inj (first.symm.trans firstAgain)

theorem callDiagExporter_ok {results : List DiagExporterSourceResult} :
    callDiagExporter surroundings iteration s = .ok results t ↔
      surroundings.exporter iteration s = .ok results ∧ s = t := by
  rw [callDiagExporter, bind_ok]
  constructor
  · rintro ⟨_, _, got, answered⟩
    obtain ⟨rfl, rfl⟩ := get_ok.mp got
    cases given : surroundings.exporter iteration s with
    | ok answer =>
      rw [given] at answered
      obtain ⟨rfl, rfl⟩ := pure_ok.mp answered
      exact ⟨rfl, rfl⟩
    | error failure =>
      rw [given] at answered
      cases failure <;> exact (throw_ok answered).elim
  · rintro ⟨given, rfl⟩
    refine ⟨s, s, rfl, ?_⟩
    rw [given]
    exact pure_ok.mpr ⟨rfl, rfl⟩

theorem callDiagExporter_error (thrown : callDiagExporter surroundings iteration s = .error e t) :
    t = s ∧ (∃ failure, surroundings.exporter iteration s = .error failure) ∧
      ∃ type message, e = .fatal type message iteration := by
  rw [callDiagExporter, bind_error] at thrown
  obtain failed | ⟨_, _, got, thrown⟩ := thrown
  · exact (get_error failed).elim
  · obtain ⟨rfl, rfl⟩ := get_ok.mp got
    cases given : surroundings.exporter iteration s with
    | ok answer =>
      rw [given] at thrown
      exact (pure_error thrown).elim
    | error failure =>
      rw [given] at thrown
      cases failure with
      | run =>
        obtain ⟨rfl, rfl⟩ := throw_error.mp thrown
        exact ⟨rfl, ⟨_, rfl⟩, _, _, rfl⟩
      | deserialization =>
        obtain ⟨rfl, rfl⟩ := throw_error.mp thrown
        exact ⟨rfl, ⟨_, rfl⟩, _, _, rfl⟩

theorem keepsHandled_fileSize (size : Int) :
    KeepsHandled (modifyTable fun table => { table with fileSize := size }) :=
  keepsHandled_modifyTable fun _ => rfl

theorem mendingIteration_ok {result : MendingIterationResult}
    (returned : mendingIteration surroundings invocation iteration s = .ok result t) :
    ∃ sourceResult, Answers surroundings iteration s sourceResult ∧
      (t.handled = s.handled ∧
          result.terminationStatus.stops invocation.continueOnUnknownDiagnostic = true ∨
        ∃ batch, Handover invocation.diagnosticAnalysis s.handled sourceResult batch ∧
          t.handled = s.handled ++ batch) := by
  simp only [mendingIteration, bind_ok, callDiagExporter_ok, raise_ok, getFirst_ok, tryCatch_ok] at returned
  obtain ⟨results, _, ⟨answered, rfl⟩, sourceResult, _, ⟨first, rfl⟩, _, sized, noted, processed⟩ := returned
  refine ⟨sourceResult, ⟨results, answered, first⟩, ?_⟩
  rw [← (keepsHandled_fileSize _).onMending_ok noted]
  exact processDiagnostics_ok processed

theorem mendingIteration_error (thrown : mendingIteration surroundings invocation iteration s = .error e t) :
    t.handled = s.handled ∨ ∃ sourceResult batch given, Answers surroundings iteration s sourceResult ∧
      Handover invocation.diagnosticAnalysis s.handled sourceResult batch ∧ given <+: batch ∧
        t.handled = s.handled ++ given := by
  unfold mendingIteration at thrown
  rcases bind_error.mp thrown with failed | ⟨results, _, called, thrown⟩
  · exact .inl (by rw [(callDiagExporter_error failed).1])
  obtain ⟨answered, rfl⟩ := callDiagExporter_ok.mp called
  rcases bind_error.mp thrown with failed | ⟨sourceResult, _, taken, thrown⟩
  · obtain rfl := (raise_error.mp failed).2
    exact .inl rfl
  obtain ⟨first, rfl⟩ := raise_ok.mp taken
  rcases bind_error.mp thrown with failed | ⟨_, sized, noted, thrown⟩
  · exact .inl ((keepsHandled_fileSize _).onMending_error failed)
  have same := (keepsHandled_fileSize _).onMending_ok noted
  obtain ⟨_, cause, failed⟩ := tryCatch_error.mp thrown
  rcases processDiagnostics_error failed with unchanged | ⟨batch, given, handover, start, handled⟩
  · exact .inl (unchanged.trans same)
  · rw [same] at handover handled
    exact .inr ⟨sourceResult, batch, given, ⟨results, answered, getFirst_ok.mp first⟩, handover, start, handled⟩

end Iteration

section Loop
variable {surroundings : Surroundings} {invocation : CMenderInvocation} {s next : LoopState}
  {outcome : MendOutcome}

def LoopState.stopped (s : LoopState) : Bool := s.finished || s.detectedLoop

def LoopState.handled (s : LoopState) : List Diagnostic := s.engine.handled

/-- The state after an iteration that returned. -/
def LoopState.recorded (s : LoopState) (continueOnUnknownDiagnostic : Bool) (result : MendingIterationResult)
    (engine : EngineState) (frequency : Map String Nat) : LoopState :=
  ⟨engine, result.terminationStatus.success, result.terminationStatus.stops continueOnUnknownDiagnostic,
    result.terminationStatus.terminationType == .detectedCycle, s.currentIteration + 1,
    s.iterationResults ++ [result], frequency⟩

theorem loopStep_inl_iff : loopStep surroundings invocation s = .inl next ↔
    s.stopped = false ∧ surroundings.timedOut s.currentIteration = false ∧ ∃ result engine frequency,
      mendingIteration surroundings invocation (s.currentIteration + 1) s.engine = .ok result engine ∧
      engine.mending.table.unknownDiags.foldlM countUnknownDiag s.unknownDiagsFrequency = .ok frequency ∧
      next = s.recorded invocation.continueOnUnknownDiagnostic result engine frequency := by
  constructor
  · intro stepped
    unfold loopStep at stepped
    split at stepped
    · cases stepped
    rename_i running
    split at stepped
    · cases stepped
    rename_i inTime
    refine ⟨Bool.eq_false_iff.mpr running, Bool.eq_false_iff.mpr inTime, ?_⟩
    dsimp only at stepped
    split at stepped
    · cases stepped
    · cases stepped
    rename_i result engine iterated
    split at stepped
    · cases stepped
    rename_i frequency counted
    cases stepped
    exact ⟨result, engine, frequency, iterated, counted, rfl⟩
  · rintro ⟨running, inTime, result, engine, frequency, iterated, counted, rfl⟩
    have running : (s.finished || s.detectedLoop) = false := running
    simp only [loopStep, running, inTime, iterated, counted]
    rfl

/-- The ways in which a round ends the loop. -/
inductive LoopEnd (surroundings : Surroundings) (invocation : CMenderInvocation) (s : LoopState) :
    MendOutcome → Prop where
  | stopped : s.stopped = true →
      LoopEnd surroundings invocation s ⟨s.engine, s.currentIteration, .ok (s.sourceResult false)⟩
  | timedOut : s.stopped = false → surroundings.timedOut s.currentIteration = true →
      LoopEnd surroundings invocation s ⟨s.engine, s.currentIteration, .ok (s.sourceResult true)⟩
  | fatal {type message iteration engine} : s.stopped = false → surroundings.timedOut s.currentIteration = false →
      mendingIteration surroundings invocation (s.currentIteration + 1) s.engine =
        .error (.fatal type message iteration) engine →
      LoopEnd surroundings invocation s ⟨engine, s.currentIteration + 1, .ok
        { success := false, timeout := false, fileSize := engine.mending.table.fileSize,
          fatalException := some (.fatal type message iteration), iterationCount := s.currentIteration + 1,
          unknownDiags := engine.mending.table.unknownDiags, mendingIterations := s.iterationResults }⟩
  /-- Nothing catches the exception. -/
  | escaped {e engine} : s.stopped = false → surroundings.timedOut s.currentIteration = false →
      mendingIteration surroundings invocation (s.currentIteration + 1) s.engine = .error e engine →
      (∀ type message iteration, e ≠ .fatal type message iteration) →
      LoopEnd surroundings invocation s ⟨engine, s.currentIteration + 1, .error e⟩
  | uncounted {e result engine} : s.stopped = false → surroundings.timedOut s.currentIteration = false →
      mendingIteration surroundings invocation (s.currentIteration + 1) s.engine = .ok result engine →
      engine.mending.table.unknownDiags.foldlM countUnknownDiag s.unknownDiagsFrequency = .error e →
      LoopEnd surroundings invocation s ⟨engine, s.currentIteration + 1, .error e⟩

theorem loopEnd_of_inr (stepped : loopStep surroundings invocation s = .inr outcome) :
    LoopEnd surroundings invocation s outcome := by
  unfold loopStep at stepped
  split at stepped
  · rename_i stop
    cases stepped
    exact .stopped stop
  rename_i running
  have running : s.stopped = false := Bool.eq_false_iff.mpr running
  split at stepped
  · rename_i late
    cases stepped
    exact .timedOut running late
  rename_i inTime
  have inTime : surroundings.timedOut s.currentIteration = false := Bool.eq_false_iff.mpr inTime
  dsimp only at stepped
  split at stepped
  · rename_i thrown
    cases stepped
    exact .fatal running inTime thrown
  · rename_i other thrown
    cases stepped
    exact .escaped running inTime thrown fun type message iteration same => other type message iteration same
  rename_i iterated
  split at stepped
  · rename_i counted
    cases stepped
    exact .uncounted running inTime iterated counted
  · cases stepped

/-- What is handed over in a round of the loop. -/
def RoundHandover (surroundings : Surroundings) (invocation : CMenderInvocation) (s : LoopState)
    (batch : List Diagnostic) : Prop :=
  ∃ sourceResult, Answers surroundings (s.currentIteration + 1) s.engine sourceResult ∧
    Handover invocation.diagnosticAnalysis s.handled sourceResult batch

/-- A round that the loop goes on after was the next iteration. -/
structure GoesOn (surroundings : Surroundings) (invocation : CMenderInvocation) (s next : LoopState) : Prop where
  running : s.stopped = false
  counted : next.currentIteration = s.currentIteration + 1
  handled : next.handled = s.handled ∧ next.stopped = true ∨
    ∃ batch, RoundHandover surroundings invocation s batch ∧ next.handled = s.handled ++ batch

/-- A round that ends the loop was no iteration, or one that failed. -/
structure Ends (surroundings : Surroundings) (invocation : CMenderInvocation) (s : LoopState)
    (outcome : MendOutcome) : Prop where
  counted : outcome.iterations = s.currentIteration ∨
    s.stopped = false ∧ outcome.iterations = s.currentIteration + 1
  handled : outcome.engine.handled = s.handled ∨ ∃ batch given,
    RoundHandover surroundings invocation s batch ∧ given <+: batch ∧
      outcome.engine.handled = s.handled ++ given

theorem loopStep_inl (stepped : loopStep surroundings invocation s = .inl next) :
    GoesOn surroundings invocation s next := by
  obtain ⟨running, _, result, engine, frequency, iterated, _, rfl⟩ := loopStep_inl_iff.mp stepped
  obtain ⟨sourceResult, answers, effect⟩ := mendingIteration_ok iterated
  refine ⟨running, rfl, ?_⟩
  rcases effect with ⟨same, stops⟩ | ⟨batch, handover, handled⟩
  · exact .inl ⟨same, Bool.or_eq_true_iff.mpr (.inl stops)⟩
  · exact .inr ⟨batch, ⟨sourceResult, answers, handover⟩, handled⟩

theorem loopStep_inr (stepped : loopStep surroundings invocation s = .inr outcome) :
    Ends surroundings invocation s outcome := by
  have failed {e : JavaException} {engine : EngineState}
      (thrown : mendingIteration surroundings invocation (s.currentIteration + 1) s.engine = .error e engine) :
      engine.handled = s.handled ∨ ∃ batch given, RoundHandover surroundings invocation s batch ∧
        given <+: batch ∧ engine.handled = s.handled ++ given := by
    rcases mendingIteration_error thrown with same | ⟨sourceResult, batch, given, answers, handover, rest⟩
    · exact .inl same
    · exact .inr ⟨batch, given, ⟨sourceResult, answers, handover⟩, rest⟩
  cases loopEnd_of_inr stepped with
  | stopped => exact ⟨.inl rfl, .inl rfl⟩
  | timedOut => exact ⟨.inl rfl, .inl rfl⟩
  | fatal running _ thrown => exact ⟨.inr ⟨running, rfl⟩, failed thrown⟩
  | escaped running _ thrown => exact ⟨.inr ⟨running, rfl⟩, failed thrown⟩
  | uncounted running _ iterated =>
    obtain ⟨sourceResult, answers, effect⟩ := mendingIteration_ok iterated
    refine ⟨.inr ⟨running, rfl⟩, ?_⟩
    rcases effect with ⟨same, _⟩ | ⟨batch, handover, handled⟩
    · exact .inl same
    · exact .inr ⟨batch, batch, ⟨sourceResult, answers, handover⟩, List.prefix_rfl, handled⟩

end Loop
end CMender
