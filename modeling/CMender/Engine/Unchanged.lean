import CMender.Analysis.KeepFirst
import CMender.Engine.OnDisk
import CMender.Engine.UnknownCounts
import CMender.Mending.GraphExact

/-! Iterations that change no file. A compiler answers the same about the same files, so
an iteration that leaves them alone is followed by one that finds its first error handled,
unless the batch left that error out. Without a mendfile, all that can change is the
headers. -/
namespace CMender
open Foundations Foundations.Execution Foundations.Looping MendingState

/-- What the exporter answers depends on nothing but the mendfile and the headers. -/
def ReadsFiles (surroundings : Surroundings) : Prop :=
  ∀ i j s t, s.mendfile = t.mendfile → s.mending.files = t.mending.files →
    surroundings.exporter i s = surroundings.exporter j t

section Check
variable {sourceResult : DiagExporterSourceResult} {sourceFile : String} {s t : MendingState}
  {status : MendingTerminationStatus}

/-- The first error of a result can be compared and reported, and a diagnostic of a list
equals it. -/
structure KnownFirst (sourceFile : String) (sourceResult : DiagExporterSourceResult) (handled : List Diagnostic) :
    Prop where
  errors : sourceResult.hasErrorsOrFatals = true
  searched : ∃ inSource, sourceResult.getFirstErrorOrFatalInSource sourceFile = .ok inSource
  known : ∃ idx firstError, sourceResult.getFirstOrFatalIdx = some idx ∧
    sourceResult.diags[idx]? = some firstError ∧ firstError.Located ∧ ∃ other ∈ handled, other.key = firstError.key

theorem KnownFirst.detected (known : KnownFirst sourceFile sourceResult s.handled) :
    ∃ status t, checkTermination sourceResult sourceFile s = .ok status t ∧
      status.terminationType = .detectedCycle ∧ status.unknownDiags = [] := by
  obtain ⟨errors, ⟨inSource, searched⟩, idx, firstError, first, present, located, other, member, same⟩ := known
  obtain ⟨key, own⟩ := Diagnostic.located_iff.mp located
  have contained : containsDiagnostic firstError s.handled = .ok true := by
    rw [containsDiagnostic_of_key own, Except.ok.injEq, List.any_eq_true]
    exact ⟨other, member, decide_eq_true (same.trans own)⟩
  exact ⟨_, _, checkTermination_iff.mpr (.inr ⟨errors, idx, firstError, inSource, true, first, present, searched,
    contained, rfl, rfl⟩), rfl, rfl⟩

/-- The check goes on only after it has found all that it needs to compare. -/
theorem knownFirst_of_goesOn {continueOnUnknownDiagnostic : Bool} {firstError : Diagnostic} {handled : List Diagnostic}
    (checked : checkTermination sourceResult sourceFile s = .ok status t)
    (goesOn : status.stops continueOnUnknownDiagnostic = false)
    (newFirst : NewFirstError s.handled sourceResult firstError) (member : firstError ∈ handled) :
    KnownFirst sourceFile sourceResult handled := by
  obtain ⟨⟨idx, first, present⟩, located, _⟩ := newFirst
  rcases checkTermination_iff.mp checked with ⟨_, rfl, _⟩ | ⟨errors, _, _, inSource, _, _, _, searched, _⟩
  · cases continueOnUnknownDiagnostic <;> cases goesOn
  · exact ⟨errors, ⟨inSource, searched⟩, idx, firstError, first, present, located, firstError, member, rfl⟩

end Check

section Loop
variable {surroundings : Surroundings} {invocation : CMenderInvocation} {s next : LoopState}
  {sourceResult : DiagExporterSourceResult}

theorem foldlM_countUnknownDiag_of_labels {unknownDiags : List DiagnosticShortInfo}
    (labels : ∀ info ∈ unknownDiags, ∃ label, info.labelId = some label) (frequency : Map String Nat) :
    ∃ counted, unknownDiags.foldlM countUnknownDiag frequency = .ok counted := by
  induction unknownDiags generalizing frequency with
  | nil => exact ⟨frequency, rfl⟩
  | cons info rest ih =>
    obtain ⟨label, present⟩ := labels info List.mem_cons_self
    obtain ⟨counted, later⟩ := ih (fun other member => labels other (List.mem_cons_of_mem _ member))
      (frequency.insert label (getOrDefault frequency label + 1))
    refine ⟨counted, ?_⟩
    rw [List.foldlM_cons, except_bind_ok]
    exact ⟨_, countUnknownDiag_ok.mpr ⟨label, present, rfl⟩, later⟩

theorem mending_of_rewritten {iteration : Nat} {mendfile : String} {mending : MendingState} {t : EngineState}
    (rewritten : Rewritten surroundings invocation iteration mendfile mending t) : t.mending = mending := by
  unfold Rewritten at rewritten
  split at rewritten
  · rw [rewritten]
  · rw [rewritten.2]

/-- The next iteration will find a first error that was handled, and nothing fails on the way. -/
structure Doomed (surroundings : Surroundings) (s : LoopState) : Prop where
  known : ∃ sourceResult, Answers surroundings (s.currentIteration + 1) s.engine sourceResult ∧
    KnownFirst surroundings.sourceFile sourceResult s.handled
  labels : ∀ info ∈ s.unknownDiags, ∃ label, info.labelId = some label

theorem Doomed.detected (doomed : Doomed surroundings s) (invocation : CMenderInvocation)
    (running : s.stopped = false) (inTime : surroundings.timedOut s.currentIteration = false) :
    ∃ last, loopStep surroundings invocation s = .inl last ∧ last.detectedLoop = true ∧ last.success = false ∧
      last.currentIteration = s.currentIteration + 1 := by
  obtain ⟨⟨sourceResult, answers, known⟩, labels⟩ := doomed
  let sized := s.engine.mending.withTable fun table => { table with fileSize := sourceResult.size }
  have known : KnownFirst surroundings.sourceFile sourceResult sized.handled := known
  obtain ⟨status, checked, terminated, cycle, nothing⟩ := known.detected
  have stops : status.stops invocation.continueOnUnknownDiagnostic = true := by
    simp [MendingTerminationStatus.stops, MendingTerminationStatus.finishedPrematurely, cycle]
  let result : MendingIterationResult := ⟨status, [], sourceResult.errorCount, sourceResult.fatalCount,
    s.engine.mendfile.utf8ByteSize⟩
  have iterated : mendingIteration surroundings invocation (s.currentIteration + 1) s.engine =
      .ok result { s.engine with mending := checked } := by
    refine mendingIteration_iff.mpr ⟨sourceResult, answers, processDiagnostics_iff.mpr ?_⟩
    refine ⟨checked, checked, terminated, ?_, ⟨rfl, rfl, rfl⟩, .inl ⟨stops, rfl, rfl⟩⟩
    rw [nothing]
    rfl
  have same : checked.unknownDiags = sized.unknownDiags := keepsUnknown_checkTermination.returned terminated
  have labels : ∀ info ∈ checked.unknownDiags, ∃ label, info.labelId = some label := by
    rw [same]
    exact labels
  obtain ⟨frequency, counted⟩ := foldlM_countUnknownDiag_of_labels labels s.unknownDiagsFrequency
  refine ⟨_, loopStep_inl_iff.mpr ⟨running, inTime, result, _, frequency, iterated, counted, rfl⟩, ?_, ?_, rfl⟩
  · exact beq_iff_eq.mpr cycle
  · simp [LoopState.recorded, MendingTerminationStatus.success, result, cycle]

/-- The two flags of the loop are one. -/
theorem stopped_recorded {continueOnUnknownDiagnostic : Bool} {result : MendingIterationResult}
    {engine : EngineState} {frequency : Map String Nat} :
    (s.recorded continueOnUnknownDiagnostic result engine frequency).stopped =
      result.terminationStatus.stops continueOnUnknownDiagnostic := by
  unfold LoopState.stopped LoopState.recorded MendingTerminationStatus.stops
    MendingTerminationStatus.finishedPrematurely
  cases result.terminationStatus.terminationType == .detectedCycle <;> simp

theorem success_of_running (stepped : loopStep surroundings invocation s = .inl next) (running : next.stopped = false) :
    next.success = false := by
  obtain ⟨_, _, result, _, _, _, _, rfl⟩ := loopStep_inl_iff.mp stepped
  rw [stopped_recorded, MendingTerminationStatus.stops, Bool.or_eq_false_iff] at running
  exact running.1

/-- A round that the loop goes on after. -/
structure MendingRound (surroundings : Surroundings) (invocation : CMenderInvocation) (s next : LoopState)
    (sourceResult : DiagExporterSourceResult) (batch : List Diagnostic) (firstError : Diagnostic) : Prop where
  answers : Answers surroundings (s.currentIteration + 1) s.engine sourceResult
  newFirst : NewFirstError s.handled sourceResult firstError
  selects : Selects invocation.diagnosticAnalysis sourceResult batch
  ran : ∃ between, Bookkept s.engine.mending between ∧
    Reaches (Step surroundings.includePath) between batch next.engine.mending
  rewritten : Rewritten surroundings invocation (s.currentIteration + 1) s.engine.mendfile next.engine.mending
    next.engine
  /-- All that the check compared can be compared again. -/
  again : ∀ handled, firstError ∈ handled → KnownFirst surroundings.sourceFile sourceResult handled

theorem mendingRound (stepped : loopStep surroundings invocation s = .inl next) (running : next.stopped = false) :
    ∃ sourceResult batch firstError, MendingRound surroundings invocation s next sourceResult batch firstError := by
  obtain ⟨_, _, result, engine, frequency, iterated, _, rfl⟩ := loopStep_inl_iff.mp stepped
  obtain ⟨sourceResult, answers, processed⟩ := mendingIteration_iff.mp iterated
  obtain ⟨checked, noted, terminated, added, _, ended⟩ := processDiagnostics_iff.mp processed
  have goesOn := stopped_recorded.symm.trans running
  have kept : Bookkept s.engine.mending noted := (bookkept_fileSize _ _).trans
    ((bookkept_checkTermination.returned terminated).trans ((bookkept_addUnknownDiags _).returned added))
  rcases ended with ⟨stops, _⟩ | ⟨_, mended⟩
  · rw [goesOn] at stops
    cases stops
  · obtain ⟨batch, mending, analysed, found, ran, rewritten⟩ := mendSelected_iff.mp mended
    obtain ⟨firstError, newFirst⟩ := newFirst_of_goesOn terminated goesOn
    obtain rfl := mending_of_rewritten rewritten
    exact ⟨sourceResult, batch, firstError, answers, newFirst, ⟨_, analysed, found⟩, ⟨noted, kept, ran⟩, rewritten,
      fun handled => knownFirst_of_goesOn terminated goesOn newFirst⟩

theorem MendingRound.handled {batch : List Diagnostic} {firstError : Diagnostic}
    (round : MendingRound surroundings invocation s next sourceResult batch firstError) :
    next.handled = s.handled ++ batch := by
  obtain ⟨between, kept, ran⟩ := round.ran
  exact (mend_handled (mend_ok (u := ()).mpr ran)).trans (by rw [kept.handled]; rfl)

/-- Where the first error of a round was among the selected, and the exporter will answer
as it did, the next round will find it again. -/
theorem MendingRound.doomed {batch : List Diagnostic} {firstError : Diagnostic}
    (round : MendingRound surroundings invocation s next sourceResult batch firstError)
    (stepped : loopStep surroundings invocation s = .inl next) (selected : firstError ∈ batch)
    (same : surroundings.exporter (next.currentIteration + 1) next.engine =
      surroundings.exporter (s.currentIteration + 1) s.engine) : Doomed surroundings next := by
  obtain ⟨results, answered, first⟩ := round.answers
  refine ⟨⟨sourceResult, ⟨results, same.trans answered, first⟩, round.again _ ?_⟩, (loopStep_counts stepped).2⟩
  rw [round.handled]
  exact List.mem_append_right _ selected

theorem Selects.firstError {batch : List Diagnostic} {firstError : Diagnostic}
    (selects : Selects .basicFirstError sourceResult batch) {handled : List Diagnostic}
    (newFirst : NewFirstError handled sourceResult firstError) : batch = [firstError] := by
  obtain ⟨idxs, selected, found⟩ := selects
  obtain ⟨⟨idx, first, present⟩, _, _⟩ := newFirst
  have single : idxs = [idx] := by
    simp only [DiagnosticAnalysis.selectDiagnostics, BasicFirstErrorAnalysis.selectDiagnostics, first] at selected
    exact (Except.ok.inj selected).symm
  have same := map_getElem?_of_mapM found
  rw [single] at same
  simpa [present] using same.symm

theorem loopStep_stopped (stopped : s.stopped = true) : loopStep surroundings invocation s =
    .inr ⟨s.engine, s.currentIteration, .ok (s.sourceResult false)⟩ := by
  unfold loopStep
  exact if_pos stopped

/-- An iteration that changes neither the mendfile nor the headers, with the first error
selected, is the last but one: the next finds a cycle, and the file is given up. -/
theorem unchanged_iteration_is_last (surroundings : Surroundings) (invocation : CMenderInvocation)
    (firstErrors : invocation.diagnosticAnalysis = .basicFirstError) (reads : ReadsFiles surroundings)
    (s next : LoopState) (stepped : loopStep surroundings invocation s = .inl next)
    (running : next.stopped = false) (inTime : surroundings.timedOut next.currentIteration = false)
    (mendfile : next.engine.mendfile = s.engine.mendfile)
    (files : next.engine.mending.files = s.engine.mending.files) :
    ∃ last, loopStep surroundings invocation next = .inl last ∧ last.detectedLoop = true ∧ ∀ fuel,
      mendLoop surroundings invocation (fuel + 2) next =
        some ⟨last.engine, next.currentIteration + 1, .ok (last.sourceResult false)⟩ ∧
      (last.sourceResult false).success = false := by
  obtain ⟨sourceResult, batch, firstError, round⟩ := mendingRound stepped running
  have selected : firstError ∈ batch := by
    have selects := round.selects
    rw [firstErrors] at selects
    rw [selects.firstError round.newFirst]
    exact List.mem_singleton_self firstError
  have doomed := round.doomed stepped selected (reads _ _ _ _ mendfile files)
  obtain ⟨last, found, detected, failed, counted⟩ := doomed.detected invocation running inTime
  have ends : loopStep surroundings invocation last =
      .inr ⟨last.engine, last.currentIteration, .ok (last.sourceResult false)⟩ :=
    loopStep_stopped (by rw [LoopState.stopped, detected, Bool.or_true])
  refine ⟨last, found, detected, fun fuel => ⟨?_, failed⟩⟩
  rw [mendLoop, iterate_inl found, iterate_inr ends, counted]

theorem readsFiles_repeating (diags : List Diagnostic) : ReadsFiles (.repeating diags) := fun _ _ _ _ _ _ => rfl

/-- An undeclared variable without a mendfile to declare it in. -/
theorem unchanged_iteration_is_last_variable : ∃ next last,
    loopStep (.repeating [undeclaredVariable 2 "x"]) ⟨.basicFirstError, false, true, false⟩
      (.initial .start .empty .empty) = .inl next ∧
    loopStep (.repeating [undeclaredVariable 2 "x"]) ⟨.basicFirstError, false, true, false⟩ next = .inl last ∧
    last.detectedLoop = true := by
  obtain ⟨last, found, detected, _⟩ := unchanged_iteration_is_last (.repeating [undeclaredVariable 2 "x"])
    ⟨.basicFirstError, false, true, false⟩ rfl (readsFiles_repeating _) (.initial .start .empty .empty) _ rfl rfl rfl
    rfl rfl
  exact ⟨_, last, rfl, found, detected⟩

end Loop

section WithoutMendfile
variable {surroundings : Surroundings} {invocation : CMenderInvocation} {s next : LoopState}

theorem Effect.files {s t : MendingState} {diag : Diagnostic} (effect : Effect s diag t)
    (other : diag.diagnosticID ≠ .errPPFileNotFound) : t.files = s.files := by
  cases effect with
  | header id => exact absurd id other
  | _ => rfl

/-- Every diagnostic of the list is about a missing header. -/
def OnlyHeaders (diags : List Diagnostic) : Prop := ∀ diag ∈ diags, diag.diagnosticID = .errPPFileNotFound

/-- Missing headers, or else the first error. -/
theorem Selects.headers {sourceResult : DiagExporterSourceResult} {batch : List Diagnostic}
    (selects : Selects .basicMultiplePPErrors sourceResult batch) :
    OnlyHeaders batch ∨ Selects .basicFirstError sourceResult batch := by
  obtain ⟨idxs, selected, found⟩ := selects
  change BasicMultiplePPErrorsAnalysis.selectDiagnostics sourceResult = .ok idxs at selected
  rw [BasicMultiplePPErrorsAnalysis.selectDiagnostics, except_bind_ok] at selected
  obtain ⟨missing, removed, chosen⟩ := selected
  split at chosen
  · cases chosen
    left
    intro diag member
    obtain ⟨idx, listed, present⟩ := (mem_of_mapM found).mp member
    obtain ⟨other, isFirst⟩ := ((firstPass removed).2 idx).mp listed
    obtain rfl := Option.some.inj (isFirst.present.symm.trans present)
    exact (DiagnosticID.fromIntID_iff (by decide)).mpr (beq_iff_eq.mp isFirst.isWanted)
  · exact .inr ⟨idxs, chosen, found⟩

/-- What holds at the start of every round when the mendfile is never written: all handled
diagnostics are about headers, or the next iteration is the last. -/
def HeadersOrDoomed (surroundings : Surroundings) (s : LoopState) : Prop :=
  s.engine.mendfile = "" ∧
    (OnlyHeaders s.handled ∨ s.success = false ∧ (s.stopped = true ∨ Doomed surroundings s))

/-- Other diagnostics than those about headers leave the files alone. -/
theorem reaches_files {includePath : String} {s t : MendingState} {diag : Diagnostic}
    (ran : Reaches (Step includePath) s [diag] t) (other : diag.diagnosticID ≠ .errPPFileNotFound) :
    t.files = s.files := (Reaches.single_iff.mp ran).effect.files other

theorem loopStep_mendfile (only : invocation.createMendfileOnlyOnAlterations = true)
    (stepped : loopStep surroundings invocation s = .inl next) :
    next.engine.mendfile = s.engine.mendfile := by
  obtain ⟨_, _, _, engine, _, iterated, _, rfl⟩ := loopStep_inl_iff.mp stepped
  obtain ⟨_, _, _, _, ⟨_, rfl⟩ | ⟨_, _, _, _, _, rewritten⟩⟩ := mendingIteration_state iterated
  · rfl
  · rw [Rewritten, if_pos only] at rewritten
    subst rewritten
    rfl

theorem loopStep_handled (stepped : loopStep surroundings invocation s = .inl next) (stopped : next.stopped = true) :
    next.handled = s.handled := by
  obtain ⟨_, _, result, engine, _, iterated, _, rfl⟩ := loopStep_inl_iff.mp stepped
  obtain ⟨_, between, _, kept, ⟨_, rfl⟩ | ⟨goesOn, _⟩⟩ := mendingIteration_state iterated
  · exact kept.handled
  · rw [stopped_recorded, goesOn] at stopped
    cases stopped

/-- A batch that is not about headers alone is the first error. -/
theorem MendingRound.headers_or_first {sourceResult : DiagExporterSourceResult} {batch : List Diagnostic}
    {firstError : Diagnostic} (oneKind : invocation.diagnosticAnalysis ≠ .basicMultipleErrors)
    (round : MendingRound surroundings invocation s next sourceResult batch firstError) :
    OnlyHeaders batch ∨ batch = [firstError] := by
  have selects := round.selects
  cases analysis : invocation.diagnosticAnalysis with
  | basicFirstError =>
    rw [analysis] at selects
    exact .inr (selects.firstError round.newFirst)
  | basicMultiplePPErrors =>
    rw [analysis] at selects
    exact selects.headers.imp id fun first => first.firstError round.newFirst
  | basicMultipleErrors => exact absurd analysis oneKind

theorem HeadersOrDoomed.step (only : invocation.createMendfileOnlyOnAlterations = true)
    (oneKind : invocation.diagnosticAnalysis ≠ .basicMultipleErrors) (reads : ReadsFiles surroundings)
    (before : HeadersOrDoomed surroundings s) (stepped : loopStep surroundings invocation s = .inl next) :
    HeadersOrDoomed surroundings next := by
  obtain ⟨empty, headers | ⟨failed, stopped | doomed⟩⟩ := before
  · have unwritten := loopStep_mendfile only stepped
    refine ⟨unwritten.trans empty, ?_⟩
    cases running : next.stopped with
    | true =>
      left
      rw [loopStep_handled stepped running]
      exact headers
    | false =>
      obtain ⟨sourceResult, batch, firstError, round⟩ := mendingRound stepped running
      have handled := round.handled
      by_cases about : OnlyHeaders batch
      · left
        rw [handled]
        exact fun diag member => (List.mem_append.mp member).elim (headers diag) (about diag)
      · right
        obtain rfl := (round.headers_or_first oneKind).resolve_left about
        have other : firstError.diagnosticID ≠ .errPPFileNotFound := by
          intro header
          exact about fun diag member => List.mem_singleton.mp member ▸ header
        obtain ⟨between, kept, ran⟩ := round.ran
        have files := (reaches_files ran other).trans kept.files
        refine ⟨?_, .inr (round.doomed stepped (List.mem_singleton_self _) (reads _ _ _ _ unwritten files))⟩
        exact success_of_running stepped running
  · rw [(loopStep_inl_iff.mp stepped).1] at stopped
    cases stopped
  · obtain ⟨running, inTime, _⟩ := loopStep_inl_iff.mp stepped
    obtain ⟨last, found, detected, lastFailed, _⟩ := doomed.detected invocation running inTime
    obtain rfl := Sum.inl.inj (found.symm.trans stepped)
    refine ⟨(loopStep_mendfile only stepped).trans empty, .inr ⟨lastFailed, .inl ?_⟩⟩
    rw [LoopState.stopped, detected, Bool.or_true]

/-- Without a mendfile, files are only mended by headers. -/
theorem mending_without_mendfile (surroundings : Surroundings) (invocation : CMenderInvocation)
    (only : invocation.createMendfileOnlyOnAlterations = true)
    (oneKind : invocation.diagnosticAnalysis ≠ .basicMultipleErrors) (reads : ReadsFiles surroundings)
    (names : MendingTypeNameGenerator) (files : FileSystem) (frequency : Map String Nat) (fuel : Nat)
    (outcome : MendOutcome) (result : SourceResult)
    (ended : mendLoop surroundings invocation fuel (.initial names files frequency) = some outcome)
    (returned : outcome.result = .ok result) :
    result.success = true → OnlyHeaders outcome.engine.handled ∧ outcome.engine.mendfile = "" := by
  have start : HeadersOrDoomed surroundings (.initial names files frequency) :=
    ⟨rfl, .inl fun diag member => nomatch member⟩
  have last : ∀ s outcome, HeadersOrDoomed surroundings s → loopStep surroundings invocation s = .inr outcome →
      ∀ result, outcome.result = .ok result → result.success = true →
        OnlyHeaders outcome.engine.handled ∧ outcome.engine.mendfile = "" := by
    rintro s outcome ⟨empty, handled⟩ stepped result returned success
    have headers (succeeded : s.success = true) : OnlyHeaders s.engine.handled :=
      handled.resolve_right fun failed => Bool.false_ne_true (failed.1.symm.trans succeeded)
    cases loopEnd_of_inr stepped with
    | stopped =>
      cases returned
      exact ⟨headers success, empty⟩
    | timedOut =>
      cases returned
      exact ⟨headers success, empty⟩
    | fatal =>
      cases returned
      cases success
    | escaped => cases returned
    | uncounted => cases returned
  exact iterate_result (fun s next => HeadersOrDoomed.step only oneKind reads) last start ended result returned

/-- A source that includes one header and needs nothing of it. -/
def headerAlone : Surroundings := .reporting fun _ s =>
  if s.mending.files.regularFiles.contains ["includes", "opt", "conf.h"] then [] else [missingHeader 1]

theorem mending_without_mendfile_header : ∃ outcome result,
    mendLoop headerAlone ⟨.basicFirstError, false, true, false⟩ 3 (.initial .start .empty .empty) = some outcome ∧
    outcome.result = .ok result ∧ result.success = true ∧ OnlyHeaders outcome.engine.handled := by
  have reads : ReadsFiles headerAlone := by
    intro i j s t _ files
    simp only [headerAlone, Surroundings.reporting, files]
  refine ⟨_, _, rfl, rfl, ?_, (mending_without_mendfile headerAlone ⟨.basicFirstError, false, true, false⟩ rfl
    (by decide) reads .start .empty .empty 3 _ _ rfl rfl ?_).1⟩
  · decide +kernel
  · decide +kernel

end WithoutMendfile
end CMender
