import CMender.Engine.Orders
import CMender.Engine.Unchanged

/-! Going on after a diagnostic that the mender does not know. Nothing is done about it,
so a compiler that reads the same declarations reports it again. Where only first errors
are mended, a run that goes on ends as one that does not. -/
namespace CMender
open Foundations Foundations.Execution Foundations.Looping MendingState

def CMenderInvocation.continuing (invocation : CMenderInvocation) (continues : Bool) : CMenderInvocation :=
  { invocation with continueOnUnknownDiagnostic := continues }

/-- The end of a run that has not mended its file. -/
def MendOutcome.Fails (outcome : MendOutcome) : Prop :=
  ∀ result, outcome.result = .ok result → result.success = false

section Unknown
variable {surroundings : Surroundings} {invocation : CMenderInvocation} {s next : LoopState}
  {sourceResult : DiagExporterSourceResult} {sourceFile : String}

/-- The state in which the check is made. -/
def LoopState.sized (s : LoopState) (sourceResult : DiagExporterSourceResult) : MendingState :=
  s.engine.mending.withTable fun table => { table with fileSize := sourceResult.size }

/-- The next iteration finds a new first error, and one that the mender does not know. -/
structure MeetsUnknown (surroundings : Surroundings) (s : LoopState) : Prop where
  running : s.stopped = false
  inTime : surroundings.timedOut s.currentIteration = false
  unknown : ∃ sourceResult status checked, Answers surroundings (s.currentIteration + 1) s.engine sourceResult ∧
    checkTermination sourceResult surroundings.sourceFile (s.sized sourceResult) = .ok status checked ∧
    status.terminationType = .unknownDiagnostic

theorem unknown_of_status {s t : MendingState} {status : MendingTerminationStatus} {idx : Nat}
    {firstError : Diagnostic} (checked : checkTermination sourceResult sourceFile s = .ok status t)
    (unknown : status.terminationType = .unknownDiagnostic) (first : sourceResult.getFirstOrFatalIdx = some idx)
    (present : sourceResult.diags[idx]? = some firstError) : firstError.diagnosticID = .unknown := by
  rcases checkTermination_iff.mp checked with ⟨_, rfl, _⟩ | ⟨_, _, _, _, _, found, here, _, _, rfl, _⟩
  · cases unknown
  obtain rfl := Option.some.inj (found.symm.trans first)
  obtain rfl := Option.some.inj (here.symm.trans present)
  rcases statusOf_cases with other | ⟨isUnknown, _⟩ | other
  · rw [other] at unknown
    cases unknown
  · exact beq_iff_eq.mp isUnknown
  · rw [other] at unknown
    cases unknown

theorem iteration_status {result : MendingIterationResult} {engine : EngineState}
    (iterated : mendingIteration surroundings invocation (s.currentIteration + 1) s.engine = .ok result engine) :
    ∃ sourceResult checked, Answers surroundings (s.currentIteration + 1) s.engine sourceResult ∧
      checkTermination sourceResult surroundings.sourceFile (s.sized sourceResult) =
        .ok result.terminationStatus checked := by
  obtain ⟨sourceResult, answers, processed⟩ := mendingIteration_iff.mp iterated
  obtain ⟨checked, _, terminated, _⟩ := processDiagnostics_iff.mp processed
  exact ⟨sourceResult, checked, answers, terminated⟩

theorem MeetsUnknown.status (meets : MeetsUnknown surroundings s) {result : MendingIterationResult}
    {engine : EngineState}
    (iterated : mendingIteration surroundings invocation (s.currentIteration + 1) s.engine = .ok result engine) :
    result.terminationStatus.terminationType = .unknownDiagnostic := by
  obtain ⟨sourceResult, status, _, answers, terminated, unknown⟩ := meets.unknown
  obtain ⟨_, _, again, checked⟩ := iteration_status iterated
  obtain rfl := again.unique answers
  rw [terminated] at checked
  cases checked
  exact unknown

/-- The flag is only looked at when the first error is unknown. -/
theorem stops_of_known {status : MendingTerminationStatus} (known : status.terminationType ≠ .unknownDiagnostic) :
    status.stops true = status.stops false := by
  unfold MendingTerminationStatus.stops MendingTerminationStatus.finishedPrematurely
  rw [beq_eq_false_iff_ne.mpr known]
  rfl

theorem processDiagnostics_eq {iteration : Nat} {engine : EngineState}
    (known : ∀ status checked, checkTermination sourceResult surroundings.sourceFile engine.mending =
      .ok status checked → status.terminationType ≠ .unknownDiagnostic) :
    processDiagnostics surroundings (invocation.continuing true) iteration sourceResult engine =
      processDiagnostics surroundings (invocation.continuing false) iteration sourceResult engine := by
  unfold processDiagnostics
  refine bind_eq_of_ok fun status checked terminated => ?_
  obtain ⟨mending, ran, rfl⟩ := onMending_ok.mp terminated
  have same : (status.success || status.finishedPrematurely true) =
      (status.success || status.finishedPrematurely false) := stops_of_known (known status mending ran)
  refine bind_eq_of_ok fun _ _ _ => bind_eq_of_ok fun _ _ _ => ?_
  change (if (status.success || status.finishedPrematurely true) = true then _ else _ : Engine _) _ = _
  rw [same]
  rfl

theorem loopStep_eq (invocation : CMenderInvocation) (known : ¬ MeetsUnknown surroundings s) :
    loopStep surroundings (invocation.continuing true) s = loopStep surroundings (invocation.continuing false) s := by
  cases running : s.stopped with
  | true => rw [loopStep_stopped running, loopStep_stopped running]
  | false =>
    cases inTime : surroundings.timedOut s.currentIteration with
    | true =>
      unfold loopStep
      rw [inTime]
      rfl
    | false =>
      have known : ∀ sourceResult status checked,
          Answers surroundings (s.currentIteration + 1) s.engine sourceResult →
          checkTermination sourceResult surroundings.sourceFile (s.sized sourceResult) = .ok status checked →
          status.terminationType ≠ .unknownDiagnostic :=
        fun sourceResult status checked answers terminated unknown =>
          known ⟨running, inTime, sourceResult, status, checked, answers, terminated, unknown⟩
      have same : mendingIteration surroundings (invocation.continuing true) (s.currentIteration + 1) s.engine =
          mendingIteration surroundings (invocation.continuing false) (s.currentIteration + 1) s.engine := by
        unfold mendingIteration
        refine bind_eq_of_ok fun results called answered => bind_eq_of_ok fun sourceResult taken first => ?_
        obtain ⟨answer, rfl⟩ := callDiagExporter_ok.mp answered
        obtain ⟨found, rfl⟩ := raise_ok.mp first
        refine bind_eq_of_ok fun _ sized resized => tryCatch_eq (processDiagnostics_eq ?_)
        obtain ⟨mending, ran, rfl⟩ := onMending_ok.mp resized
        obtain rfl := modifyTable_ok.mp ran
        exact fun status checked => known sourceResult status checked ⟨results, answer, getFirst_ok.mp found⟩
      unfold loopStep
      dsimp only
      rw [same]
      cases iterated :
          mendingIteration surroundings (invocation.continuing false) (s.currentIteration + 1) s.engine with
      | error e engine => cases e <;> rfl
      | ok result engine =>
        obtain ⟨sourceResult, checked, answers, terminated⟩ := iteration_status iterated
        have flag := stops_of_known (known sourceResult _ checked answers terminated)
        unfold MendingTerminationStatus.stops at flag
        simp only [CMenderInvocation.continuing, flag]

/-- An iteration that throws ends the run without success. -/
theorem fails_of_inr {outcome : MendOutcome} (running : s.stopped = false)
    (inTime : surroundings.timedOut s.currentIteration = false)
    (stepped : loopStep surroundings invocation s = .inr outcome) :
    outcome.Fails ∧ outcome.iterations = s.currentIteration + 1 := by
  cases loopEnd_of_inr stepped with
  | stopped stop =>
    rw [running] at stop
    cases stop
  | timedOut _ late =>
    rw [inTime] at late
    cases late
  | fatal =>
    refine ⟨fun result returned => ?_, rfl⟩
    cases returned
    rfl
  | escaped => exact ⟨fun _ returned => (nomatch returned), rfl⟩
  | uncounted => exact ⟨fun _ returned => (nomatch returned), rfl⟩

theorem fails_of_stopped {fuel : Nat} {outcome : MendOutcome} (stopped : s.stopped = true)
    (failed : s.success = false) (ended : mendLoop surroundings invocation fuel s = some outcome) :
    outcome.Fails ∧ outcome.iterations = s.currentIteration := by
  cases fuel with
  | zero => cases ended
  | succ fuel =>
    rw [mendLoop, iterate_inr (loopStep_stopped stopped)] at ended
    cases ended
    refine ⟨fun result returned => ?_, rfl⟩
    cases returned
    exact failed

/-- A run that stops at unknown diagnostics stops here. -/
theorem MeetsUnknown.stops (meets : MeetsUnknown surroundings s) {fuel : Nat} {outcome : MendOutcome}
    (ended : mendLoop surroundings (invocation.continuing false) fuel s = some outcome) :
    outcome.Fails ∧ outcome.iterations = s.currentIteration + 1 := by
  cases fuel with
  | zero => cases ended
  | succ fuel =>
    cases stepped : loopStep surroundings (invocation.continuing false) s with
    | inr last =>
      rw [mendLoop, iterate_inr stepped] at ended
      cases ended
      exact fails_of_inr meets.running meets.inTime stepped
    | inl next =>
      rw [mendLoop, iterate_inl stepped] at ended
      obtain ⟨_, _, result, _, _, iterated, _, rfl⟩ := loopStep_inl_iff.mp stepped
      have unknown := meets.status iterated
      refine fails_of_stopped ?_ ?_ ended
      · rw [stopped_recorded]
        simp [CMenderInvocation.continuing, MendingTerminationStatus.stops,
          MendingTerminationStatus.finishedPrematurely, unknown]
      · simp [LoopState.recorded, MendingTerminationStatus.success, unknown]

theorem Doomed.fails (doomed : Doomed surroundings s) (running : s.stopped = false) (failed : s.success = false)
    {fuel : Nat} {outcome : MendOutcome} (ended : mendLoop surroundings invocation fuel s = some outcome) :
    outcome.Fails ∧ outcome.iterations ≤ s.currentIteration + 1 := by
  cases fuel with
  | zero => cases ended
  | succ fuel =>
    cases inTime : surroundings.timedOut s.currentIteration with
    | false =>
      obtain ⟨last, stepped, detected, lastFailed, counted⟩ := doomed.detected invocation running inTime
      rw [mendLoop, iterate_inl stepped] at ended
      have stopped : last.stopped = true := by rw [LoopState.stopped, detected, Bool.or_true]
      obtain ⟨fails, iterations⟩ := fails_of_stopped stopped lastFailed ended
      exact ⟨fails, by omega⟩
    | true =>
      have late : loopStep surroundings invocation s =
          .inr ⟨s.engine, s.currentIteration, .ok (s.sourceResult true)⟩ := by
        have going : (s.finished || s.detectedLoop) = false := running
        rw [loopStep, if_neg (Bool.eq_false_iff.mp going), if_pos inTime]
      rw [mendLoop, iterate_inr late] at ended
      cases ended
      refine ⟨fun result returned => ?_, Nat.le_succ _⟩
      cases returned
      exact failed

/-- The mendfile at the start of a round. -/
def MendfileKept (invocation : CMenderInvocation) (s : EngineState) : Prop :=
  if invocation.createMendfileOnlyOnAlterations then s.mendfile = "" else OnDisk invocation.noDisclaimer s

theorem MendfileKept.step (kept : MendfileKept invocation s.engine)
    (stepped : loopStep surroundings invocation s = .inl next) : MendfileKept invocation next.engine := by
  unfold MendfileKept at kept ⊢
  split
  · rename_i only
    rw [if_pos only] at kept
    exact (loopStep_mendfile only stepped).trans kept
  · rename_i always
    rw [if_neg always] at kept
    exact kept.step (Bool.eq_false_iff.mpr always) stepped

/-- A table that gained nothing to write is written as before, if it is written. -/
theorem sameDeclarations_of_unwritten {iteration : Nat} {engine after : EngineState} {mending : MendingState}
    (kept : MendfileKept invocation engine) (unwritten : Unwritten engine.mending mending)
    (rewritten : Rewritten surroundings invocation iteration engine.mendfile mending after) :
    SameDeclarations invocation.noDisclaimer after.mendfile engine.mendfile := by
  unfold MendfileKept at kept
  unfold Rewritten at rewritten
  split at rewritten
  · rename_i only
    rw [if_pos only] at kept
    subst rewritten
    exact ⟨.empty, kept ▸ writtenFrom_empty _, kept ▸ writtenFrom_empty _⟩
  · rename_i always
    rw [if_neg always] at kept
    obtain ⟨written, rfl⟩ := rewritten
    rw [unwritten.writeSymbolDecls] at written ⊢
    refine ⟨engine.mending.table, ⟨_, written, .inl rfl⟩, ?_⟩
    rcases kept with ⟨_, empty, untouched⟩ | ⟨_, order, before, text⟩
    · have nothing : (engine.mending.table.writeSymbolDecls .listed) = ⟨[], none⟩ := by
        rw [untouched.unwritten.writeSymbolDecls]
        rfl
      exact ⟨.listed, by rw [nothing], .inr ⟨empty, by rw [nothing]⟩⟩
    · exact ⟨order, before, .inl text⟩

/-- The unknown first error of a run that goes on comes back. -/
theorem MeetsUnknown.doomed (meets : MeetsUnknown surroundings s)
    (firstErrors : invocation.diagnosticAnalysis = .basicFirstError)
    (reads : ReadsDeclarations invocation.noDisclaimer surroundings) (kept : MendfileKept invocation s.engine)
    (stepped : loopStep surroundings invocation s = .inl next) (running : next.stopped = false) :
    Doomed surroundings next := by
  obtain ⟨sourceResult, batch, firstError, round⟩ := mendingRound stepped running
  have selects := round.selects
  rw [firstErrors] at selects
  obtain rfl := selects.firstError round.newFirst
  have unknown : firstError.diagnosticID = .unknown := by
    obtain ⟨other, status, _, answers, terminated, unknown⟩ := meets.unknown
    obtain rfl := round.answers.unique answers
    obtain ⟨⟨idx, first, present⟩, _, _⟩ := round.newFirst
    exact unknown_of_status terminated unknown first present
  obtain ⟨between, bookkept, ran⟩ := round.ran
  have idle : next.engine.mending = between.recorded firstError := by
    have step := Reaches.single_iff.mp ran
    simp only [Step, mendOne, bind_ok, modifyTable_ok, dispatch, unknown, pure_ok] at step
    obtain ⟨_, _, rfl, _, same⟩ := step
    exact same.symm
  have unwritten : Unwritten s.engine.mending next.engine.mending := by
    obtain ⟨_, _, _, rfl⟩ := bookkept
    rw [idle]
    exact ⟨_, _, _, _, rfl⟩
  have files : next.engine.mending.files = s.engine.mending.files := by
    rw [idle]
    exact bookkept.files
  exact round.doomed stepped (List.mem_singleton_self _)
    (reads _ _ _ _ (sameDeclarations_of_unwritten kept unwritten round.rewritten) files)

theorem MeetsUnknown.fails (meets : MeetsUnknown surroundings s)
    (firstErrors : invocation.diagnosticAnalysis = .basicFirstError)
    (reads : ReadsDeclarations invocation.noDisclaimer surroundings) (kept : MendfileKept invocation s.engine)
    {fuel : Nat} {outcome : MendOutcome}
    (ended : mendLoop surroundings (invocation.continuing true) fuel s = some outcome) :
    outcome.Fails ∧ outcome.iterations ≤ s.currentIteration + 2 := by
  cases fuel with
  | zero => cases ended
  | succ fuel =>
    cases stepped : loopStep surroundings (invocation.continuing true) s with
    | inr last =>
      rw [mendLoop, iterate_inr stepped] at ended
      cases ended
      obtain ⟨fails, iterations⟩ := fails_of_inr meets.running meets.inTime stepped
      exact ⟨fails, by omega⟩
    | inl next =>
      rw [mendLoop, iterate_inl stepped] at ended
      have running : next.stopped = false := by
        obtain ⟨_, _, result, _, _, iterated, _, rfl⟩ := loopStep_inl_iff.mp stepped
        rw [stopped_recorded]
        exact MendingTerminationStatus.stops_eq_false.mpr (.inr ⟨meets.status iterated, rfl⟩)
      have counted : next.currentIteration = s.currentIteration + 1 := by
        obtain ⟨_, _, _, _, _, _, _, rfl⟩ := loopStep_inl_iff.mp stepped
        rfl
      have analysis : (invocation.continuing true).diagnosticAnalysis = .basicFirstError := firstErrors
      have doomed := meets.doomed analysis reads kept stepped running
      obtain ⟨fails, iterations⟩ := doomed.fails running (success_of_running stepped running) ended
      exact ⟨fails, by omega⟩

/-- Where only first errors are mended, going on after unknown diagnostics mends no file
that stopping at them does not mend: the run is the same, or both fail and the one that
goes on has spent at most one iteration more. -/
theorem continuing_mends_nothing (surroundings : Surroundings) (invocation : CMenderInvocation)
    (firstErrors : invocation.diagnosticAnalysis = .basicFirstError)
    (reads : ReadsDeclarations invocation.noDisclaimer surroundings) (names : MendingTypeNameGenerator)
    (files : FileSystem) (frequency : Map String Nat) (fuel more : Nat) (stopping going : MendOutcome)
    (stops : mendLoop surroundings (invocation.continuing false) fuel (.initial names files frequency) = some stopping)
    (goesOn : mendLoop surroundings (invocation.continuing true) more (.initial names files frequency) = some going) :
    going = stopping ∨ going.Fails ∧ stopping.Fails ∧ going.iterations ≤ stopping.iterations + 1 := by
  have start : MendfileKept invocation (LoopState.initial names files frequency).engine := by
    unfold MendfileKept
    split
    · rfl
    · exact onDisk_initial names files _
  generalize LoopState.initial names files frequency = s at start stops goesOn
  induction fuel generalizing s more with
  | zero => cases stops
  | succ fuel ih =>
    by_cases meets : MeetsUnknown surroundings s
    · obtain ⟨stoppingFails, stopped⟩ := meets.stops stops
      obtain ⟨goingFails, went⟩ := meets.fails firstErrors reads start goesOn
      exact .inr ⟨goingFails, stoppingFails, by omega⟩
    · have same := loopStep_eq invocation meets
      cases more with
      | zero => cases goesOn
      | succ more =>
        cases stepped : loopStep surroundings (invocation.continuing false) s with
        | inr last =>
          rw [mendLoop, iterate_inr stepped] at stops
          rw [mendLoop, iterate_inr (same.trans stepped)] at goesOn
          exact .inl (Option.some.inj (goesOn.symm.trans stops))
        | inl next =>
          rw [mendLoop, iterate_inl stepped] at stops
          rw [mendLoop, iterate_inl (same.trans stepped)] at goesOn
          have kept : MendfileKept (invocation.continuing false) next.engine := MendfileKept.step start stepped
          exact ih more next kept stops goesOn

theorem continuing_mends_nothing_unhandled : ∃ stopping going,
    mendLoop (.repeating [unhandled]) ⟨.basicFirstError, false, false, false⟩ 2 (.initial .start .empty .empty) =
      some stopping ∧
    mendLoop (.repeating [unhandled]) ⟨.basicFirstError, true, false, false⟩ 3 (.initial .start .empty .empty) =
      some going ∧
    going.iterations = 2 ∧ going.Fails ∧ stopping.iterations = 1 := by
  refine ⟨_, _, rfl, rfl, rfl, ?_, rfl⟩
  have compared := continuing_mends_nothing (.repeating [unhandled]) ⟨.basicFirstError, false, false, false⟩ rfl
    (fun _ _ _ _ _ _ => rfl) .start .empty .empty 2 3 _ _ rfl rfl
  rcases compared with same | fails
  · have iterations : 2 = 1 := congrArg MendOutcome.iterations same
    cases iterations
  · exact fails.1

end Unknown
end CMender
