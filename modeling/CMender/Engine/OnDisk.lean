import CMender.Engine.Termination
import CMender.Mending.GraphExact

/-! The mendfile between iterations. The exporter never sees the table, only what the
last write left of it, and an iteration also changes parts of the table that are not
written. What it reads is still the table, from the first write on. -/
namespace CMender
open Foundations Foundations.Execution Foundations.Looping MendingState

section Bookkeeping
variable {s t u : MendingState} {table : MendingTable} {order : IterationOrder}

/-- Nothing but the size of the file, the progress in it and the unknown diagnostics
may have changed. -/
def Bookkept (s t : MendingState) : Prop := ∃ fileSize fileProgress unknownDiags,
  t = s.withTable fun table =>
    { table with fileSize := fileSize, fileProgress := fileProgress, unknownDiags := unknownDiags }

theorem Bookkept.refl (s : MendingState) : Bookkept s s := ⟨_, _, _, rfl⟩

theorem Bookkept.trans (first : Bookkept s t) (second : Bookkept t u) : Bookkept s u := by
  obtain ⟨_, _, _, rfl⟩ := first
  obtain ⟨_, _, _, rfl⟩ := second
  exact ⟨_, _, _, rfl⟩

theorem Bookkept.handled (kept : Bookkept s t) : t.handled = s.handled := by
  obtain ⟨_, _, _, rfl⟩ := kept
  rfl

theorem Bookkept.files (kept : Bookkept s t) : t.files = s.files := by
  obtain ⟨_, _, _, rfl⟩ := kept
  rfl

theorem bookkept_fileSize (s : MendingState) (size : Int) :
    Bookkept s (s.withTable fun table => { table with fileSize := size }) := ⟨_, _, _, rfl⟩

theorem bookkept_checkTermination {sourceResult : DiagExporterSourceResult} {sourceFile : String} :
    Leaves Bookkept (checkTermination sourceResult sourceFile) :=
  leaves_checkTermination Bookkept.refl Bookkept.trans fun _ _ => ⟨_, _, _, rfl⟩

theorem bookkept_addUnknownDiag {sourceResult : DiagExporterSourceResult} (idx : Nat) :
    Leaves Bookkept (addUnknownDiag sourceResult idx) :=
  .bind Bookkept.trans ((readOnly_raise _).leaves Bookkept.refl) fun _ =>
    .bind Bookkept.trans ((readOnly_raise _).leaves Bookkept.refl) fun _ =>
      leaves_modify fun _ => ⟨_, _, _, rfl⟩

theorem bookkept_addUnknownDiags {sourceResult : DiagExporterSourceResult} (idxs : List Nat) :
    Leaves Bookkept (idxs.forM (addUnknownDiag sourceResult)) :=
  leaves_forM Bookkept.refl Bookkept.trans bookkept_addUnknownDiag idxs

/-- Nothing that is written may have changed. -/
def Unwritten (s t : MendingState) : Prop := ∃ handledDiagnostics fileSize fileProgress unknownDiags,
  t = s.withTable fun table =>
    { table with handledDiagnostics := handledDiagnostics, fileSize := fileSize, fileProgress := fileProgress,
                 unknownDiags := unknownDiags }

theorem Bookkept.unwritten (kept : Bookkept s t) : Unwritten s t := by
  obtain ⟨_, _, _, rfl⟩ := kept
  exact ⟨_, _, _, _, rfl⟩

theorem Unwritten.getDirectDependencies (kept : Unwritten s t) (symbol : Symbol) :
    CMender.getDirectDependencies t.table symbol = CMender.getDirectDependencies s.table symbol := by
  obtain ⟨_, _, _, _, rfl⟩ := kept
  cases symbol with
  | typedef symbol =>
    simp only [CMender.getDirectDependencies, QualType.addDirectDependencies_eq]
    rfl
  | «variable» symbol =>
    simp only [CMender.getDirectDependencies, QualType.addDirectDependencies_eq]
    rfl
  | member symbol =>
    simp only [CMender.getDirectDependencies, QualType.addDirectDependencies_eq]
    rfl
  | _ => rfl

theorem Unwritten.asDefinitionString (kept : Unwritten s t) (symbol : Symbol) :
    symbol.asDefinitionString t.table = symbol.asDefinitionString s.table := by
  obtain ⟨_, _, _, _, rfl⟩ := kept
  cases symbol <;> rfl

theorem Unwritten.buildDependencyGraph (kept : Unwritten s t) :
    t.table.buildDependencyGraph = s.table.buildDependencyGraph := by
  have dependencies : t.table.addDependencies = s.table.addDependencies := by
    funext graph symbol
    rw [MendingTable.addDependencies, MendingTable.addDependencies, kept.getDirectDependencies]
  rw [MendingTable.buildDependencyGraph, MendingTable.buildDependencyGraph, dependencies]
  obtain ⟨_, _, _, _, rfl⟩ := kept
  rfl

theorem Unwritten.writeDefs (kept : Unwritten s t) (symbols : List Symbol) :
    t.table.writeDefs symbols = s.table.writeDefs symbols := by
  induction symbols with
  | nil => rfl
  | cons symbol rest ih => rw [MendingTable.writeDefs, MendingTable.writeDefs, kept.asDefinitionString, ih]

theorem Unwritten.writeSymbolDecls (kept : Unwritten s t) (order : IterationOrder) :
    t.table.writeSymbolDecls order = s.table.writeSymbolDecls order := by
  have sorts : t.table.topologicalSort order = s.table.topologicalSort order := by
    obtain ⟨_, _, _, _, rfl⟩ := kept
    rfl
  have unsorted : t.table.unsortedSymbols order = s.table.unsortedSymbols order := by
    obtain ⟨_, _, _, _, rfl⟩ := kept
    rfl
  have definitions : t.table.writeDefs = s.table.writeDefs := funext kept.writeDefs
  rw [MendingTable.writeSymbolDecls, MendingTable.writeSymbolDecls, kept.buildDependencyGraph, sorts, unsorted,
    definitions]

end Bookkeeping

section Iteration
variable {surroundings : Surroundings} {invocation : CMenderInvocation} {iteration : Nat}
  {sourceResult : DiagExporterSourceResult} {s t : EngineState} {u : Unit}

/-- The mendfile holds the table as some write has put it out. -/
def WrittenOut (noDisclaimer : Bool) (s : EngineState) : Prop := ∃ order,
  (s.mending.table.writeSymbolDecls order).failure = none ∧
    s.mendfile = "".intercalate (mendfileWrites noDisclaimer (s.mending.table.writeSymbolDecls order).definitions)

theorem writeMendfile_failure {buffering : Buffering} {order : IterationOrder} {noDisclaimer : Bool}
    {table : MendingTable} {content : String} :
    (writeMendfile buffering order noDisclaimer table content).failure = (table.writeSymbolDecls order).failure := by
  unfold writeMendfile
  dsimp only
  cases (table.writeSymbolDecls order).failure <;> rfl

theorem writeMendfile_returned {buffering : Buffering} {order : IterationOrder} {noDisclaimer : Bool}
    {table : MendingTable} {content : String} (written : (table.writeSymbolDecls order).failure = none) :
    (writeMendfile buffering order noDisclaimer table content).content =
      "".intercalate (mendfileWrites noDisclaimer (table.writeSymbolDecls order).definitions) := by
  unfold writeMendfile
  dsimp only
  rw [written]
  exact String.empty_append

theorem rewriteMendfile_ok : rewriteMendfile surroundings invocation iteration s = .ok u t ↔
    (s.mending.table.writeSymbolDecls (surroundings.order iteration)).failure = none ∧
      t = { s with mendfile := "".intercalate (mendfileWrites invocation.noDisclaimer
        (s.mending.table.writeSymbolDecls (surroundings.order iteration)).definitions) } := by
  simp only [rewriteMendfile, bind_ok, get_ok, set_ok, raise_ok, writeMendfile_failure]
  constructor
  · rintro ⟨_, _, ⟨rfl, rfl⟩, _, _, rfl, returned, rfl⟩
    cases failure : (s.mending.table.writeSymbolDecls (surroundings.order iteration)).failure with
    | none => exact ⟨rfl, by rw [writeMendfile_returned failure]⟩
    | some error =>
      rw [failure] at returned
      cases returned
  · rintro ⟨written, rfl⟩
    refine ⟨s, s, ⟨rfl, rfl⟩, (), _, rfl, ?_, by rw [writeMendfile_returned written]⟩
    rw [written]

/-- The state after the batch was handled: the mendfile is written again, or left alone. -/
def Rewritten (surroundings : Surroundings) (invocation : CMenderInvocation) (iteration : Nat)
    (mendfile : String) (mending : MendingState) (t : EngineState) : Prop :=
  if invocation.createMendfileOnlyOnAlterations then t = ⟨mending, mendfile⟩
  else (mending.table.writeSymbolDecls (surroundings.order iteration)).failure = none ∧
    t = ⟨mending, "".intercalate (mendfileWrites invocation.noDisclaimer
      (mending.table.writeSymbolDecls (surroundings.order iteration)).definitions)⟩

theorem mendSelected_iff {idxs : List Nat} :
    mendSelected surroundings invocation iteration sourceResult s = .ok idxs t ↔
      ∃ batch mending, invocation.diagnosticAnalysis.selectDiagnostics sourceResult = .ok idxs ∧
        idxs.mapM (getAt sourceResult.diags) = .ok batch ∧
        Reaches (Step surroundings.includePath) s.mending batch mending ∧
        Rewritten surroundings invocation iteration s.mendfile mending t := by
  unfold mendSelected Rewritten
  simp only [bind_ok, raise_ok, onMending_ok]
  constructor
  · rintro ⟨selected, _, ⟨analysed, rfl⟩, batch, _, ⟨found, rfl⟩, _, _, ⟨mending, ran, rfl⟩, ended⟩
    split at ended
    · rename_i only
      obtain ⟨rfl, rfl⟩ := pure_ok.mp ended
      exact ⟨batch, mending, analysed, found, mend_ok.mp ran, by rw [if_pos only]⟩
    · rename_i always
      simp only [bind_ok, pure_ok, rewriteMendfile_ok] at ended
      obtain ⟨_, _, ⟨written, rfl⟩, rfl, rfl⟩ := ended
      exact ⟨batch, mending, analysed, found, mend_ok.mp ran, by rw [if_neg always]; exact ⟨written, rfl⟩⟩
  · rintro ⟨batch, mending, analysed, found, ran, rewritten⟩
    refine ⟨idxs, s, ⟨analysed, rfl⟩, batch, s, ⟨found, rfl⟩, (), _, ⟨mending, mend_ok.mpr ran, rfl⟩, ?_⟩
    split at rewritten
    · rename_i only
      rw [if_pos only, rewritten]
      rfl
    · rename_i always
      obtain ⟨written, rfl⟩ := rewritten
      rw [if_neg always]
      exact bind_ok.mpr ⟨(), _, rewriteMendfile_ok.mpr ⟨written, rfl⟩, pure_ok.mpr ⟨rfl, rfl⟩⟩

/-- An iteration after the exporter has answered: the check, the unknown diagnostics, and
then the end or the selected batch. -/
theorem processDiagnostics_iff {result : MendingIterationResult} :
    processDiagnostics surroundings invocation iteration sourceResult s = .ok result t ↔
      ∃ checked noted,
        checkTermination sourceResult surroundings.sourceFile s.mending = .ok result.terminationStatus checked ∧
        result.terminationStatus.unknownDiags.forM (addUnknownDiag sourceResult) checked = .ok () noted ∧
        (result.errorCount = sourceResult.errorCount ∧ result.fatalCount = sourceResult.fatalCount ∧
          result.mendfileSize = s.mendfile.utf8ByteSize) ∧
        (result.terminationStatus.stops invocation.continueOnUnknownDiagnostic = true ∧
            result.selectedDiagnostics = [] ∧ t = { s with mending := noted } ∨
          result.terminationStatus.stops invocation.continueOnUnknownDiagnostic = false ∧
            mendSelected surroundings invocation iteration sourceResult { s with mending := noted } =
              .ok result.selectedDiagnostics t) := by
  unfold processDiagnostics
  simp only [bind_ok, get_ok, onMending_ok]
  constructor
  · rintro ⟨status, _, ⟨checked, terminated, rfl⟩, _, _, ⟨rfl, rfl⟩, _, _, ⟨noted, added, rfl⟩, ended⟩
    split at ended
    · rename_i stops
      obtain ⟨rfl, rfl⟩ := pure_ok.mp ended
      exact ⟨checked, noted, terminated, added, ⟨rfl, rfl, rfl⟩, .inl ⟨stops, rfl, rfl⟩⟩
    · rename_i goesOn
      obtain ⟨idxs, _, mended, finished⟩ := bind_ok.mp ended
      obtain ⟨rfl, rfl⟩ := pure_ok.mp finished
      exact ⟨checked, noted, terminated, added, ⟨rfl, rfl, rfl⟩, .inr ⟨Bool.eq_false_iff.mpr goesOn, mended⟩⟩
  · obtain ⟨status, idxs, errorCount, fatalCount, size⟩ := result
    rintro ⟨checked, noted, terminated, added, ⟨rfl, rfl, rfl⟩, ended⟩
    refine ⟨status, _, ⟨checked, terminated, rfl⟩, _, _, ⟨rfl, rfl⟩, (), _, ⟨noted, added, rfl⟩, ?_⟩
    rcases ended with ⟨stops, rfl, rfl⟩ | ⟨goesOn, mended⟩
    · have stops : (status.success || status.finishedPrematurely invocation.continueOnUnknownDiagnostic) = true :=
        stops
      rw [if_pos stops]
      rfl
    · have goesOn : (status.success || status.finishedPrematurely invocation.continueOnUnknownDiagnostic) = false :=
        goesOn
      rw [if_neg (Bool.eq_false_iff.mp goesOn)]
      exact bind_ok.mpr ⟨idxs, t, mended, rfl⟩

theorem mendingIteration_iff {result : MendingIterationResult} :
    mendingIteration surroundings invocation iteration s = .ok result t ↔
      ∃ sourceResult, Answers surroundings iteration s sourceResult ∧
        processDiagnostics surroundings invocation iteration sourceResult
          { s with mending := s.mending.withTable fun table => { table with fileSize := sourceResult.size } } =
            .ok result t := by
  simp only [mendingIteration, bind_ok, callDiagExporter_ok, raise_ok, getFirst_ok, tryCatch_ok, onMending_ok,
    modifyTable_ok]
  constructor
  · rintro ⟨results, _, ⟨answered, rfl⟩, sourceResult, _, ⟨first, rfl⟩, _, _, ⟨_, rfl, rfl⟩, processed⟩
    exact ⟨sourceResult, ⟨results, answered, first⟩, processed⟩
  · rintro ⟨sourceResult, ⟨results, answered, first⟩, processed⟩
    exact ⟨results, s, ⟨answered, rfl⟩, sourceResult, s, ⟨first, rfl⟩, (), _, ⟨_, rfl, rfl⟩, processed⟩

/-- What an iteration that returned has done to the table and to the files. -/
theorem mendingIteration_state {result : MendingIterationResult}
    (returned : mendingIteration surroundings invocation iteration s = .ok result t) :
    ∃ sourceResult between, Answers surroundings iteration s sourceResult ∧ Bookkept s.mending between ∧
      (result.terminationStatus.stops invocation.continueOnUnknownDiagnostic = true ∧
          t = { s with mending := between } ∨
        result.terminationStatus.stops invocation.continueOnUnknownDiagnostic = false ∧ ∃ batch mending,
          Handover invocation.diagnosticAnalysis s.handled sourceResult batch ∧
          Reaches (Step surroundings.includePath) between batch mending ∧
          Rewritten surroundings invocation iteration s.mendfile mending t) := by
  obtain ⟨sourceResult, answers, processed⟩ := mendingIteration_iff.mp returned
  obtain ⟨checked, noted, terminated, added, _, ended⟩ := processDiagnostics_iff.mp processed
  have kept : Bookkept s.mending noted := (bookkept_fileSize _ _).trans
    ((bookkept_checkTermination.returned terminated).trans ((bookkept_addUnknownDiags _).returned added))
  refine ⟨sourceResult, noted, answers, kept, ?_⟩
  rcases ended with ⟨stops, _, rfl⟩ | ⟨goesOn, mended⟩
  · exact .inl ⟨stops, rfl⟩
  · obtain ⟨batch, mending, analysed, found, ran, rewritten⟩ := mendSelected_iff.mp mended
    have newFirst := newFirst_of_goesOn terminated goesOn
    exact .inr ⟨goesOn, batch, mending, ⟨newFirst, _, analysed, found⟩, ran, rewritten⟩

end Iteration

section Runs
variable {surroundings : Surroundings} {invocation : CMenderInvocation}

/-- Before anything is handed over the mendfile is empty, as the table is; from then on it
holds the table. -/
def OnDisk (noDisclaimer : Bool) (s : EngineState) : Prop :=
  s.handled = [] ∧ s.mendfile = "" ∧ Bookkept (.initial s.mending.names s.mending.files) s.mending ∨
    s.handled ≠ [] ∧ WrittenOut noDisclaimer s

theorem OnDisk.bookkept {noDisclaimer : Bool} {s : EngineState} {mending : MendingState}
    (onDisk : OnDisk noDisclaimer s) (kept : Bookkept s.mending mending) :
    OnDisk noDisclaimer { s with mending := mending } := by
  have handled : mending.handled = s.handled := kept.handled
  rcases onDisk with ⟨none, empty, untouched⟩ | ⟨some, order, written, text⟩
  · refine .inl ⟨handled.trans none, empty, ?_⟩
    have later := untouched.trans kept
    obtain ⟨_, _, _, rfl⟩ := kept
    exact later
  · refine .inr ⟨fun none => some (handled.symm.trans none), order, ?_, ?_⟩
    · rw [kept.unwritten.writeSymbolDecls, written]
    · rw [kept.unwritten.writeSymbolDecls, text]

/-- A batch has a diagnostic, which is handled afterwards. -/
theorem handled_ne_nil {includePath : String} {analysis : DiagnosticAnalysis} {sourceResult : DiagExporterSourceResult}
    {batch : List Diagnostic} {s t : MendingState} (selects : Selects analysis sourceResult batch)
    (run : Reaches (Step includePath) s batch t) : t.handled ≠ [] := by
  rw [mend_handled (u := ()) (mend_ok.mpr run)]
  exact List.append_ne_nil_of_right_ne_nil _ selects.ne_nil

theorem onDisk_of_rewritten {iteration : Nat} {mendfile : String} {mending : MendingState} {t : EngineState}
    (always : invocation.createMendfileOnlyOnAlterations = false) (some : mending.handled ≠ [])
    (rewritten : Rewritten surroundings invocation iteration mendfile mending t) :
    OnDisk invocation.noDisclaimer t := by
  simp only [Rewritten, always, Bool.false_eq_true, if_false] at rewritten
  obtain ⟨written, rfl⟩ := rewritten
  exact .inr ⟨some, _, written, rfl⟩

theorem onDisk_iteration {iteration : Nat} {s t : EngineState} {result : MendingIterationResult}
    (always : invocation.createMendfileOnlyOnAlterations = false)
    (returned : mendingIteration surroundings invocation iteration s = .ok result t)
    (onDisk : OnDisk invocation.noDisclaimer s) : OnDisk invocation.noDisclaimer t := by
  obtain ⟨_, between, _, kept, ended⟩ := mendingIteration_state returned
  rcases ended with ⟨_, rfl⟩ | ⟨_, _, _, handover, run, rewritten⟩
  · exact onDisk.bookkept kept
  · exact onDisk_of_rewritten always (handled_ne_nil handover.selects run) rewritten

theorem onDisk_initial (names : MendingTypeNameGenerator) (files : FileSystem) (noDisclaimer : Bool) :
    OnDisk noDisclaimer ⟨.initial names files, ""⟩ := .inl ⟨rfl, rfl, .refl _⟩

theorem OnDisk.step {s next : LoopState} (always : invocation.createMendfileOnlyOnAlterations = false)
    (onDisk : OnDisk invocation.noDisclaimer s.engine) (stepped : loopStep surroundings invocation s = .inl next) :
    OnDisk invocation.noDisclaimer next.engine := by
  obtain ⟨_, _, _, _, _, iterated, _, rfl⟩ := loopStep_inl_iff.mp stepped
  exact onDisk_iteration always iterated onDisk

/-- Every time the exporter is called, and when the run is over without a fatal exception,
the mendfile is the table. -/
theorem mendfile_is_table (surroundings : Surroundings) (invocation : CMenderInvocation)
    (always : invocation.createMendfileOnlyOnAlterations = false) (names : MendingTypeNameGenerator)
    (files : FileSystem) (frequency : Map String Nat) :
    (∀ s, Reached surroundings invocation (.initial names files frequency) s →
      OnDisk invocation.noDisclaimer s.engine) ∧
    ∀ fuel outcome result,
      mendLoop surroundings invocation fuel (.initial names files frequency) = some outcome →
      outcome.result = .ok result → result.fatalException = none → OnDisk invocation.noDisclaimer outcome.engine := by
  constructor
  · intro s reached
    induction reached with
    | refl => exact onDisk_initial names files _
    | tail _ stepped ih => exact ih.step always stepped
  intro fuel outcome result ended returned uneventful
  have last : ∀ s outcome, OnDisk invocation.noDisclaimer s.engine →
      loopStep surroundings invocation s = .inr outcome → ∀ result, outcome.result = .ok result →
        result.fatalException = none → OnDisk invocation.noDisclaimer outcome.engine := by
    intro s outcome onDisk stepped result returned uneventful
    cases loopEnd_of_inr stepped with
    | stopped => exact onDisk
    | timedOut => exact onDisk
    | fatal =>
      cases returned
      cases uneventful
    | escaped => cases returned
    | uncounted => cases returned
  exact iterate_result (fun s next onDisk => onDisk.step always) last (onDisk_initial names files _) ended result
    returned uneventful

theorem mendfile_is_table_variable : ∃ outcome result,
    mendLoop (.repeating [undeclaredVariable 2 "x"]) ⟨.basicFirstError, false, false, false⟩ 3
      (.initial .start .empty .empty) = some outcome ∧
    outcome.result = .ok result ∧ outcome.engine.mendfile ≠ "" ∧ OnDisk false outcome.engine := by
  refine ⟨_, _, rfl, rfl, ?_, (mendfile_is_table (.repeating [undeclaredVariable 2 "x"])
    ⟨.basicFirstError, false, false, false⟩ rfl .start .empty .empty).2 3 _ _ rfl rfl rfl⟩
  decide +kernel

end Runs
end CMender
